/-!
# Drain — emptying a buffer through a sender that may take a part

`send i` is the result of the `i`-th call of a sender: the number of bytes
it has taken, or zero or a negative code. `Takes` is a row of calls that
each take something. A drain goes on until nothing is left or until a call
takes nothing, so it ends in one of three ways, and in one only: it is done
(`Drains`), it is held up by a zero (`Stalls`), or it is broken off by a
negative code or by a sender that claims more than there was (`Breaks`).
-/

namespace NucleoMqtt.Lib

variable (send : Nat → Int)

/-- The calls from `i` to before `j` have each taken some of `n` bytes, and
`left` of them are left. -/
inductive Takes : Nat → Nat → Nat → Nat → Prop where
  | none (i n : Nat) : Takes i n i n
  | more {i n j left : Nat} (hpos : 0 < send i) (hle : send i ≤ n)
      (rest : Takes (i + 1) (n - (send i).toNat) j left) : Takes i n j left

/-- Call `i` and those behind it take all of `n` bytes, up to before call `j`. -/
def Drains (i n j : Nat) : Prop := Takes send i n j 0

/-- Call `j` takes nothing of the `left` bytes that are left, and says so with zero. -/
def Stalls (i n j left : Nat) : Prop := Takes send i n j left ∧ 0 < left ∧ send j = 0

/-- Some call fails before all of `n` bytes are taken. -/
def Breaks (i n : Nat) : Prop :=
  ∃ j left, Takes send i n j left ∧ 0 < left ∧ (send j < 0 ∨ (left : Int) < send j)

/-- A row of calls cannot go on: nothing is left, or the next call takes nothing. -/
def Ended (j left : Nat) : Prop := left = 0 ∨ send j ≤ 0 ∨ (left : Int) < send j

variable {send}

/-- **A drain ends at one place.** -/
theorem Takes.unique {i n j left j' left' : Nat} (h : Takes send i n j left)
    (hend : Ended send j left) (h' : Takes send i n j' left') (hend' : Ended send j' left') :
    j = j' ∧ left = left' := by
  induction h with
  | none i n =>
      cases h' with
      | none => exact ⟨rfl, rfl⟩
      | more hpos hle rest =>
          rcases hend with hzero | hnone | hmore <;> omega
  | more hpos hle rest ih =>
      cases h' with
      | none => rcases hend' with hzero | hnone | hmore <;> omega
      | more hpos' hle' rest' => exact ih hend rest'

theorem Drains.ended {i n j : Nat} (_ : Drains send i n j) : Ended send j 0 := Or.inl rfl

theorem Stalls.ended {i n j left : Nat} (h : Stalls send i n j left) : Ended send j left :=
  Or.inr (Or.inl (Int.le_of_eq h.2.2))

theorem Drains.unique {i n j j' : Nat} (h : Drains send i n j) (h' : Drains send i n j') :
    j = j' :=
  (Takes.unique h h.ended h' h'.ended).1

theorem Stalls.unique {i n j left j' left' : Nat} (h : Stalls send i n j left)
    (h' : Stalls send i n j' left') : j = j' ∧ left = left' :=
  Takes.unique h.1 h.ended h'.1 h'.ended

theorem Drains.not_stalls {i n j j' left : Nat} (h : Drains send i n j) :
    ¬ Stalls send i n j' left := by
  intro h'
  obtain ⟨-, hleft⟩ := Takes.unique h h.ended h'.1 h'.ended
  have := h'.2.1
  omega

/-- A drain that is done or held up has not been broken off. -/
theorem Takes.not_breaks {i n j left : Nat} (h : Takes send i n j left)
    (hend : left = 0 ∨ send j = 0) : ¬ Breaks send i n := by
  rintro ⟨j', left', h', hleft', hfail⟩
  have hended : Ended send j left := by
    rcases hend with hzero | hnone
    · exact Or.inl hzero
    · exact Or.inr (Or.inl (Int.le_of_eq hnone))
  have hended' : Ended send j' left' := by
    rcases hfail with hneg | hmore
    · exact Or.inr (Or.inl (Int.le_of_lt hneg))
    · exact Or.inr (Or.inr hmore)
  obtain ⟨rfl, rfl⟩ := h.unique hended h' hended'
  omega

theorem Drains.not_breaks {i n j : Nat} (h : Drains send i n j) : ¬ Breaks send i n :=
  Takes.not_breaks h (Or.inl rfl)

theorem Stalls.not_breaks {i n j left : Nat} (h : Stalls send i n j left) :
    ¬ Breaks send i n :=
  h.1.not_breaks (Or.inr h.2.2)

end NucleoMqtt.Lib
