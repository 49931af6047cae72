/-!
# Loop — counted loops that can fail

A `for (i = lo; i < lo + k; i++)` loop over a state `σ` whose body may
fail. The body answers `none` when the program it models has no defined
next state, and the loop answers `none` from there on.

Two rules are all a client needs. `forLoop_rule` is the total-correctness
rule: an invariant that every iteration re-establishes holds at the exit,
and the loop does exit. `forLoop_none` is its counterpart for a loop that
fails: the invariant carries the state to iteration `m`, whose body then
fails.
-/

namespace NucleoMqtt.Lib

universe u

variable {σ : Type u}

/-- `k` iterations of `body`, with the counter running up from `i`. -/
def forLoop (body : Nat → σ → Option σ) : Nat → Nat → σ → Option σ
  | _, 0, s => some s
  | i, k + 1, s => (body i s).bind (forLoop body (i + 1) k)

@[simp] theorem forLoop_zero (body : Nat → σ → Option σ) (i : Nat) (s : σ) :
    forLoop body i 0 s = some s := rfl

theorem forLoop_succ (body : Nat → σ → Option σ) (i k : Nat) (s : σ) :
    forLoop body i (k + 1) s = (body i s).bind (forLoop body (i + 1) k) := rfl

/-- **The loop rule.** If `Inv` holds on entry and every iteration both
succeeds and re-establishes it, the loop succeeds and `Inv` holds with the
counter at its final value. -/
theorem forLoop_rule (body : Nat → σ → Option σ) (Inv : Nat → σ → Prop)
    {i k : Nat} {s : σ} (hinit : Inv i s)
    (hstep : ∀ j s, i ≤ j → j < i + k → Inv j s →
      ∃ s', body j s = some s' ∧ Inv (j + 1) s') :
    ∃ s', forLoop body i k s = some s' ∧ Inv (i + k) s' := by
  induction k generalizing i s with
  | zero => exact ⟨s, rfl, hinit⟩
  | succ k ih =>
      obtain ⟨s₁, hbody, hinv⟩ := hstep i s (Nat.le_refl i) (by omega) hinit
      obtain ⟨s', hrun, hend⟩ :=
        ih hinv (fun j t hij hj => hstep j t (by omega) (by omega))
      refine ⟨s', ?_, ?_⟩
      · rw [forLoop_succ, hbody]
        exact hrun
      · rwa [show i + (k + 1) = i + 1 + k from by omega]

/-- **The failure rule.** If the iterations before `m` carry `Inv` to
iteration `m` and the body fails there, the loop fails. -/
theorem forLoop_none (body : Nat → σ → Option σ) (Inv : Nat → σ → Prop)
    {i k m : Nat} {s : σ} (him : i ≤ m) (hmk : m < i + k) (hinit : Inv i s)
    (hstep : ∀ j s, i ≤ j → j < m → Inv j s →
      ∃ s', body j s = some s' ∧ Inv (j + 1) s')
    (hfail : ∀ s, Inv m s → body m s = none) :
    forLoop body i k s = none := by
  induction k generalizing i s with
  | zero => omega
  | succ k ih =>
      rw [forLoop_succ]
      rcases Nat.eq_or_lt_of_le him with rfl | hlt
      · rw [hfail s hinit]
        rfl
      · obtain ⟨s₁, hbody, hinv⟩ := hstep i s (Nat.le_refl i) hlt hinit
        rw [hbody]
        exact ih hlt (by omega) hinv (fun j t hij hj => hstep j t (by omega) hj)

end NucleoMqtt.Lib
