import Mathlib.Logic.Function.Basic

/-!
# Ring — the slots of a ring

Items come one behind the other and go into the `n` slots of a ring, the item
of number `k` into slot `k % n`. A ring that a writer goes round keeps the
latest `n` of them: `Latest` says so, and what a slot holds that has been
written to since.
-/

namespace NucleoMqtt.Lib.Ring

universe u

variable {α : Type u} {n : Nat}

/-- The slot behind a slot, as a program steps there. -/
theorem next_slot (h : 0 < n) (k : Nat) :
    (if k % n + 1 ≥ n then k % n + 1 - n else k % n + 1) = (k + 1) % n := by
  have hlt := Nat.mod_lt k h
  rw [Nat.add_mod k 1]
  by_cases hn : n = 1
  · rw [hn, Nat.mod_one, if_pos (by omega), Nat.mod_one]
  · rw [Nat.mod_eq_of_lt (show 1 < n by omega)]
    by_cases hwrap : k % n + 1 ≥ n
    · rw [if_pos hwrap, show k % n + 1 = n by omega, Nat.sub_self, Nat.mod_self]
    · rw [if_neg hwrap, Nat.mod_eq_of_lt (show k % n + 1 < n by omega)]

theorem eq_zero_of_slot {j d : Nat} (h : (j + d) % n = j % n) (hd : d < n) : d = 0 := by
  have hsub : (j + d - j) % n = 0 := Nat.sub_mod_eq_zero_of_mod_eq h
  rwa [Nat.add_sub_cancel_left, Nat.mod_eq_of_lt hd] at hsub

/-- Less than a round apart, the slots differ. -/
theorem slot_inj {j k : Nat} (h : j % n = k % n) (hj : j < k + n) (hk : k < j + n) : j = k := by
  rcases Nat.le_total j k with hle | hle
  · obtain ⟨d, rfl⟩ := Nat.exists_eq_add_of_le hle
    rw [eq_zero_of_slot h.symm (by omega), Nat.add_zero]
  · obtain ⟨d, rfl⟩ := Nat.exists_eq_add_of_le hle
    rw [eq_zero_of_slot h (by omega), Nat.add_zero]

/-- Of one item more, it is an item from before, or the new one. -/
theorem getElem?_concat_cases {items : List α} {a b : α} {k : Nat}
    (h : (items ++ [a])[k]? = some b) :
    (k < items.length ∧ items[k]? = some b) ∨ (k = items.length ∧ b = a) := by
  rcases Nat.lt_or_ge k items.length with hlt | hge
  · rw [List.getElem?_append_left hlt] at h
    exact Or.inl ⟨hlt, h⟩
  · rw [List.getElem?_append_right hge] at h
    have hzero : k - items.length < 1 := (List.getElem?_eq_some_iff.mp h).1
    rw [Nat.lt_one_iff.mp hzero] at h
    cases h
    exact Or.inr ⟨by omega, rfl⟩

/-- The slots hold the latest items. -/
def Latest (n : Nat) (f : Nat → α) (items : List α) : Prop :=
  ∀ k a, items[k]? = some a → items.length ≤ k + n → f (k % n) = a

theorem latest_nil (n : Nat) (f : Nat → α) : Latest n f [] := by
  intro k a h
  cases h

/-- The next item goes into the next slot. -/
theorem Latest.push {f : Nat → α} {items : List α} (h : Latest n f items) (a : α) :
    Latest n (Function.update f (items.length % n) a) (items ++ [a]) := by
  intro k b hb hk
  rw [List.length_append, List.length_singleton] at hk
  rcases getElem?_concat_cases hb with ⟨hlt, hb⟩ | ⟨rfl, rfl⟩
  · have hslot : k % n ≠ items.length % n := fun hslot =>
      Nat.ne_of_lt hlt (slot_inj hslot (by omega) (by omega))
    rw [Function.update_of_ne hslot]
    exact h k b hb (by omega)
  · exact Function.update_self ..

/-- A slot that has been written to holds an item, and the latest of its own:
the item of any number is still there, or has been followed by one a round
later, or more. -/
theorem Latest.reads {f : Nat → α} {items : List α} (h : Latest n f items) (hn : 0 < n) {j : Nat}
    (hj : j < items.length) :
    ∃ k, items[k]? = some (f (j % n)) ∧ items.length ≤ k + n ∧ (k = j ∨ j + n ≤ k) := by
  -- the last number of this slot
  obtain ⟨k, hk, hslot, hlate⟩ : ∃ k, k < items.length ∧ k % n = j % n ∧ items.length ≤ k + n := by
    induction hd : items.length - j using Nat.strongRecOn generalizing j with
    | ind d ih =>
        by_cases hlate : items.length ≤ j + n
        · exact ⟨j, hj, rfl, hlate⟩
        · obtain ⟨k, hk, hslot, hlate⟩ := ih (items.length - (j + n)) (by omega)
            (j := j + n) (by omega) rfl
          exact ⟨k, hk, hslot.trans (Nat.add_mod_right j n), hlate⟩
  have hread := h k _ (List.getElem?_eq_getElem hk) hlate
  refine ⟨k, by rw [← hslot, hread, List.getElem?_eq_getElem hk], hlate, ?_⟩
  by_cases hkj : k < j + n
  · exact Or.inl (slot_inj hslot hkj (by omega))
  · exact Or.inr (Nat.le_of_not_lt hkj)

end NucleoMqtt.Lib.Ring
