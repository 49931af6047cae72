/-!
# Spans — a line cut into consecutive pieces

`Spans` gives the lengths of the pieces, none of them empty. `start` is
where a piece begins and `locate` finds the piece that holds a position,
with the offset in it. The two are inverse to each other, and `locate_succ`
steps from one position to the next: within the piece, or on to the start
of the following one.
-/

namespace NucleoMqtt.Lib

/-- The lengths of consecutive pieces. -/
structure Spans where
  len : Nat → Nat
  pos : ∀ i, 0 < len i

namespace Spans

variable (s : Spans)

/-- Where piece `i` starts. -/
def start : Nat → Nat
  | 0 => 0
  | i + 1 => start i + s.len i

theorem start_succ (i : Nat) : s.start (i + 1) = s.start i + s.len i := rfl

/-- Piece and offset `n` positions behind the start of piece `i`. -/
def locateFrom (i n : Nat) : Nat × Nat :=
  if n < s.len i then (i, n) else locateFrom (i + 1) (n - s.len i)
termination_by n
decreasing_by
  have := s.pos i
  omega

/-- Piece and offset of position `n`. -/
def locate (n : Nat) : Nat × Nat := s.locateFrom 0 n

theorem start_add_le {i j : Nat} (h : i < j) : s.start i + s.len i ≤ s.start j := by
  induction j with
  | zero => exact absurd h (Nat.not_lt_zero i)
  | succ j ih =>
      rcases Nat.lt_or_ge i j with hlt | hge
      · have := ih hlt
        rw [start]
        omega
      · have : i = j := by omega
        subst this
        exact Nat.le_refl _

theorem start_le {i j : Nat} (h : i ≤ j) : s.start i ≤ s.start j := by
  rcases Nat.lt_or_ge i j with hlt | hge
  · have := s.start_add_le hlt
    omega
  · have : i = j := by omega
    subst this
    exact Nat.le_refl _

theorem locateFrom_spec (i n : Nat) :
    s.start (s.locateFrom i n).1 + (s.locateFrom i n).2 = s.start i + n ∧
      (s.locateFrom i n).2 < s.len (s.locateFrom i n).1 := by
  induction n using Nat.strongRecOn generalizing i with
  | ind n ih =>
      rw [locateFrom]
      by_cases h : n < s.len i
      · rw [if_pos h]
        exact ⟨rfl, h⟩
      · rw [if_neg h]
        have hpos := s.pos i
        obtain ⟨hsum, hlt⟩ := ih (n - s.len i) (by omega) (i + 1)
        refine ⟨?_, hlt⟩
        rw [hsum, start]
        omega

/-- The position is recovered from piece and offset. -/
theorem start_locate (n : Nat) : s.start (s.locate n).1 + (s.locate n).2 = n := by
  have h := (s.locateFrom_spec 0 n).1
  rwa [start, Nat.zero_add] at h

theorem locate_lt (n : Nat) : (s.locate n).2 < s.len (s.locate n).1 :=
  (s.locateFrom_spec 0 n).2

/-- **Pieces do not overlap.** -/
theorem start_inj {i j k l : Nat} (hk : k < s.len i) (hl : l < s.len j)
    (h : s.start i + k = s.start j + l) : i = j ∧ k = l := by
  rcases Nat.lt_trichotomy i j with hij | hij | hij
  · have := s.start_add_le hij
    omega
  · subst hij
    exact ⟨rfl, by omega⟩
  · have := s.start_add_le hij
    omega

theorem locate_start {i k : Nat} (hk : k < s.len i) : s.locate (s.start i + k) = (i, k) := by
  obtain ⟨h₁, h₂⟩ := s.start_inj (s.locate_lt _) hk (s.start_locate (s.start i + k))
  exact Prod.ext h₁ h₂

/-- **The next position.** -/
theorem locate_succ (n : Nat) :
    s.locate (n + 1) = if (s.locate n).2 + 1 < s.len (s.locate n).1
      then ((s.locate n).1, (s.locate n).2 + 1) else ((s.locate n).1 + 1, 0) := by
  have hn := s.start_locate n
  have hlt := s.locate_lt n
  by_cases h : (s.locate n).2 + 1 < s.len (s.locate n).1
  · rw [if_pos h, ← s.locate_start h]
    congr 1
    omega
  · rw [if_neg h, ← s.locate_start (s.pos _)]
    congr 1
    rw [start]
    omega

theorem locate_fst_lt {n i : Nat} (h : n < s.start i) : (s.locate n).1 < i := by
  rcases Nat.lt_or_ge (s.locate n).1 i with hlt | hge
  · exact hlt
  · have := s.start_le hge
    have := s.start_locate n
    omega

theorem le_locate_fst {n i : Nat} (h : s.start i ≤ n) : i ≤ (s.locate n).1 := by
  rcases Nat.lt_or_ge (s.locate n).1 i with hlt | hge
  · have := s.start_add_le hlt
    have := s.start_locate n
    have := s.locate_lt n
    omega
  · exact hge

end Spans

end NucleoMqtt.Lib
