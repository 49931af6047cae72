import NucleoMqtt.Lib.Loop

/-!
# Block — C objects with checked accesses

A `Block α n` is an array object of `n` cells. Its size is part of the
type, so no operation can change it, and every access is checked: `load`
and `store` answer `none` outside `[0, n)`, where C leaves the behaviour
undefined. A function of the model that answers `some` has therefore made
no access outside its object.

Three access patterns are enough for the clients: filling a fresh block
from the front (`Filled`), copying an array into it (`copyIn`), and moving
a block's own cells towards its front with an ascending loop (`copyDown`).
-/

namespace NucleoMqtt.Lib

universe u

variable {α : Type u} {n : Nat}

/-- An array object of `n` cells. -/
structure Block (α : Type u) (n : Nat) where
  cells : List α
  size : cells.length = n
deriving DecidableEq

namespace Block

@[ext] theorem ext {b c : Block α n} (h : b.cells = c.cells) : b = c := by
  cases b
  cases c
  cases h
  rfl

@[simp] theorem length_cells (b : Block α n) : b.cells.length = n := b.size

/-- Read cell `i`. -/
def load (b : Block α n) (i : Nat) : Option α := b.cells[i]?

/-- Read at a signed index. -/
def loadInt (b : Block α n) (i : Int) : Option α := if 0 ≤ i then b.load i.toNat else none

/-- Write cell `i`. -/
def store (b : Block α n) (i : Nat) (a : α) : Option (Block α n) :=
  if i < n then some ⟨b.cells.set i a, by simp⟩ else none

/-- A block with every cell set to `a` (`calloc`). -/
def replicate (n : Nat) (a : α) : Block α n := ⟨List.replicate n a, by simp⟩

/-- Overwrite the front of the block with `as`. -/
def overwrite (b : Block α n) (as : List α) (h : as.length ≤ n) : Block α n :=
  ⟨as ++ b.cells.drop as.length, by simp; omega⟩

theorem load_eq_none {b : Block α n} {i : Nat} (h : n ≤ i) : b.load i = none := by
  simp [load, h]

theorem load_isSome {b : Block α n} {i : Nat} : (b.load i).isSome ↔ i < n := by
  simp [load]

@[simp] theorem loadInt_natCast (b : Block α n) (i : Nat) : b.loadInt i = b.load i := by
  rw [loadInt, if_pos (Int.natCast_nonneg i), Int.toNat_natCast]

theorem loadInt_of_neg {b : Block α n} {i : Int} (h : i < 0) : b.loadInt i = none :=
  if_neg (Int.not_le.mpr h)

theorem store_of_lt {b : Block α n} {i : Nat} (h : i < n) (a : α) :
    b.store i a = some ⟨b.cells.set i a, by simp⟩ := by
  simp [store, h]

theorem load_overwrite_lt {b : Block α n} {as : List α} {h : as.length ≤ n}
    {i : Nat} (hi : i < as.length) : (b.overwrite as h).load i = as[i]? := by
  simp [load, overwrite, List.getElem?_append_left hi]

/-! ## Filling from the front -/

/-- The cells written so far are `done`. -/
def Filled (b : Block α n) (done : List α) : Prop := done <+: b.cells

theorem filled_nil (b : Block α n) : b.Filled [] := List.nil_prefix

/-- A store right behind the written cells extends them. -/
theorem Filled.store {b : Block α n} {done : List α} (hb : b.Filled done) {i : Nat}
    (hi : i = done.length) (hlt : done.length < n) (v : α) :
    ∃ b', b.store i v = some b' ∧ b'.Filled (done ++ [v]) := by
  subst hi
  obtain ⟨rest, hrest⟩ := hb
  refine ⟨_, store_of_lt hlt v, ?_⟩
  cases rest with
  | nil =>
      have := congrArg List.length hrest
      simp at this
      omega
  | cons a rest =>
      refine ⟨rest, ?_⟩
      show done ++ [v] ++ rest = b.cells.set done.length v
      rw [← hrest, List.set_append_right _ _ (Nat.le_refl _), Nat.sub_self, List.set_cons_zero,
        List.append_assoc, List.singleton_append]

/-- A store at the last written cell replaces it. -/
theorem Filled.restore {b : Block α n} {v : α} {done : List α}
    (hb : b.Filled (done ++ [v])) {i : Nat} (hi : i = done.length) (w : α) :
    ∃ b', b.store i w = some b' ∧ b'.Filled (done ++ [w]) := by
  subst hi
  obtain ⟨rest, hrest⟩ := hb
  have hlen := congrArg List.length hrest
  simp only [List.length_append, List.length_singleton, length_cells] at hlen
  refine ⟨_, store_of_lt (by omega) w, rest, ?_⟩
  show done ++ [w] ++ rest = b.cells.set done.length w
  rw [← hrest, List.append_assoc, List.append_assoc, List.set_append_right _ _ (Nat.le_refl _),
    Nat.sub_self]
  rfl

/-- Reading back the last written cell. -/
theorem Filled.load_last {b : Block α n} {v : α} {done : List α}
    (hb : b.Filled (done ++ [v])) : b.load done.length = some v := by
  obtain ⟨rest, hrest⟩ := hb
  simp [load, ← hrest]

/-- A block filled to its end holds exactly what was written. -/
theorem Filled.cells_eq {b : Block α n} {done : List α} (hb : b.Filled done)
    (hlen : done.length = n) : b.cells = done :=
  (hb.eq_of_length (by rw [hlen, length_cells])).symm

/-! ## Copying in -/

/-- `for (j = 0; j < k; j++) b[base + j] = src[j];` -/
def copyIn (b : Block α n) (base : Nat) (src : List α) (k : Nat) : Option (Block α n) :=
  forLoop (fun j b => do b.store (base + j) (← src[j]?)) 0 k b

/-- Copying `src` behind the written cells appends it to them; the source
may be longer than what is copied. -/
theorem Filled.copyIn {b : Block α n} {done : List α} (hb : b.Filled done) (base : Nat)
    (hbase : base = done.length) (src rest : List α) (hfit : done.length + src.length ≤ n) :
    ∃ b', b.copyIn base (src ++ rest) src.length = some b' ∧ b'.Filled (done ++ src) := by
  have hrun := forLoop_rule
    (fun j (b : Block α n) => do b.store (base + j) (← (src ++ rest)[j]?))
    (fun j b => b.Filled (done ++ src.take j)) (i := 0) (k := src.length) (s := b)
    (by simpa using hb) ?_
  · simpa only [Block.copyIn, Nat.zero_add, List.take_length] using hrun
  · intro j c _ hj hc
    have hj' : j < src.length := by omega
    have hlen : (done ++ src.take j).length = done.length + j := by
      simp only [List.length_append, List.length_take]
      omega
    obtain ⟨c', hstore, hfill⟩ :=
      hc.store (i := base + j) (by omega) (by omega) src[j]
    refine ⟨c', ?_, ?_⟩
    · simp [List.getElem?_append_left hj', hj', hstore]
    · rwa [List.append_assoc, ← List.take_succ_eq_append_getElem hj'] at hfill

/-- A copy that would write behind the end of the block leaves it. -/
theorem copyIn_none {b : Block α n} {base k : Nat} {src : List α} (hbase : base ≤ n)
    (hk : k ≤ src.length) (hfit : n < base + k) : b.copyIn base src k = none := by
  refine forLoop_none _ (fun _ _ => True) (m := n - base) (Nat.zero_le _) (by omega) trivial ?_ ?_
  · intro j c _ hj _
    have hj' : j < src.length := by omega
    refine ⟨⟨c.cells.set (base + j) src[j], by simp⟩, ?_, trivial⟩
    simp [hj', store_of_lt (show base + j < n by omega)]
  · intro c _
    have hlast : n - base < src.length := by omega
    have hend : ¬ base + (n - base) < n := by omega
    simp [hlast, store, hend]

/-- `memset`: `for (j = 0; j < k; j++) b[base + j] = a;` -/
def fill (b : Block α n) (base : Nat) (a : α) (k : Nat) : Option (Block α n) :=
  b.copyIn base (List.replicate k a) k

/-- Filling behind the written cells appends copies of `a` to them. -/
theorem Filled.fill {b : Block α n} {done : List α} (hb : b.Filled done) {base k : Nat}
    (hbase : base = done.length) (a : α) (hfit : done.length + k ≤ n) :
    ∃ b', b.fill base a k = some b' ∧ b'.Filled (done ++ List.replicate k a) := by
  have hcopy := hb.copyIn base hbase (List.replicate k a) [] (by simpa using hfit)
  rwa [List.append_nil, List.length_replicate] at hcopy

/-! ## Moving cells towards the front -/

/-- `for (i = 0; i < k; i++) b[i] = b[src(i)];` -/
def copyDown (b : Block α n) (src : Nat → Nat) (k : Nat) : Option (Block α n) :=
  forLoop (fun i b => do b.store i (← b.load (src i))) 0 k b

/-- The block after `k` cells found at offset `off` were moved to the front. -/
def moved (b : Block α n) (off k : Nat) (h : off + k ≤ n) : Block α n :=
  ⟨(b.cells.drop off).take k ++ b.cells.drop k, by simp; omega⟩

/-- One iteration of the move: the source cell lies at or behind the cells
already rewritten, so it still holds its original value. -/
private theorem copyDown_step {b c : Block α n} {src : Nat → Nat} {off j : Nat}
    (hsrc : src j = j + off) (hj : off + j < n)
    (hc : c.cells = (b.cells.drop off).take j ++ b.cells.drop j) :
    ∃ c' : Block α n, (do c.store j (← c.load (src j))) = some c' ∧
      c'.cells = (b.cells.drop off).take (j + 1) ++ b.cells.drop (j + 1) := by
  have hoff : off + j < b.cells.length := by simpa using hj
  have hcell : j < b.cells.length := by omega
  have hlen : ((b.cells.drop off).take j).length = j := by simp; omega
  have hread : c.load (src j) = some b.cells[off + j] := by
    rw [load, hc, hsrc, List.getElem?_append_right (by omega), hlen,
      Nat.add_sub_cancel_left, List.getElem?_drop, Nat.add_comm j off,
      List.getElem?_eq_getElem hoff]
  refine ⟨⟨c.cells.set j b.cells[off + j], by simp⟩, ?_, ?_⟩
  · simp [hread, store_of_lt (show j < n by omega)]
  · have htake : (b.cells.drop off).take (j + 1)
        = (b.cells.drop off).take j ++ [b.cells[off + j]] := by
      rw [List.take_succ_eq_append_getElem (by simp; omega), List.getElem_drop]
    have hdrop : b.cells.drop j = b.cells[j] :: b.cells.drop (j + 1) :=
      List.drop_eq_getElem_cons hcell
    simp only [hc, htake, hdrop, List.append_assoc, List.singleton_append]
    rw [List.set_append_right _ _ (by omega), hlen, Nat.sub_self, List.set_cons_zero]

/-- A move that stays inside the block. -/
theorem copyDown_eq {b : Block α n} {src : Nat → Nat} {off k : Nat}
    (hsrc : ∀ j, j < k → src j = j + off) (hk : off + k ≤ n) :
    b.copyDown src k = some (b.moved off k hk) := by
  obtain ⟨c, hrun, hc⟩ := forLoop_rule
    (fun i (b : Block α n) => do b.store i (← b.load (src i)))
    (fun j c => c.cells = (b.cells.drop off).take j ++ b.cells.drop j)
    (i := 0) (k := k) (s := b) (by simp)
    (fun j c _ hj hc => copyDown_step (hsrc j (by omega)) (by omega) hc)
  rw [copyDown, hrun]
  exact congrArg some (Block.ext (by simpa [moved] using hc))

/-- A move that would read past the end of the block leaves it. -/
theorem copyDown_none {b : Block α n} {src : Nat → Nat} {k : Nat} (off : Nat)
    (hsrc : ∀ j, j ≤ n - off → src j = j + off) (hk : n < off + k) (hk0 : 0 < k) :
    b.copyDown src k = none := by
  refine forLoop_none _ (fun j c => c.cells = (b.cells.drop off).take j ++ b.cells.drop j)
    (m := n - off) (Nat.zero_le _) (by omega) (by simp)
    (fun j c _ hj hc => copyDown_step (hsrc j (by omega)) (by omega) hc) ?_
  intro c _
  simp [hsrc (n - off) (by omega), load_eq_none (show n ≤ n - off + off by omega)]

end Block

end NucleoMqtt.Lib
