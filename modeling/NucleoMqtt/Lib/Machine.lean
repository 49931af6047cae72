/-!
# Machine — runs of a partial step function

A machine reads one input a step and may refuse it. `run` is a finite run;
`Along` says that a condition on state and input holds at every step of
one. The run rule turns an invariant that such steps keep into an invariant
of the run.

A machine that keeps a log of events often has to say that certain events
come only after others. `Guarded p Q log` says that of every event of kind
`p`, the log before it satisfies `Q`.

What a run does to the outside can be watched by a second machine, a
monitor, that reads what each step gives out. The monitor rule turns a
relation between the two states into acceptance of the whole run.

A fact that a state forgets can be carried along in a note, which every
state that is reached renews. The note rule is the run rule for a relation
between note and state.
-/

namespace NucleoMqtt.Lib.Machine

universe u v w x

variable {σ : Type u} {ι : Type v} {ε : Type w}

/-- The state after a list of inputs. -/
def run (step : σ → ι → Option σ) : σ → List ι → Option σ
  | s, [] => some s
  | s, i :: is => (step s i).bind fun s => run step s is

@[simp] theorem run_nil (step : σ → ι → Option σ) (s : σ) : run step s [] = some s := rfl

@[simp] theorem run_cons (step : σ → ι → Option σ) (s : σ) (i : ι) (is : List ι) :
    run step s (i :: is) = (step s i).bind fun s => run step s is := rfl

theorem run_append (step : σ → ι → Option σ) (s : σ) (is js : List ι) :
    run step s (is ++ js) = (run step s is).bind fun s => run step s js := by
  induction is generalizing s with
  | nil => rfl
  | cons i is ih =>
      rw [List.cons_append, run_cons, run_cons, Option.bind_assoc]
      congr 1
      funext s'
      exact ih s'

/-- Every step of the run meets `ok`. -/
def Along (step : σ → ι → Option σ) (ok : σ → ι → Prop) : σ → List ι → Prop
  | _, [] => True
  | s, i :: is => ok s i ∧ ∀ s', step s i = some s' → Along step ok s' is

/-- A condition that every input meets in every state. -/
theorem along_of_forall {step : σ → ι → Option σ} {ok : σ → ι → Prop} {is : List ι}
    (h : ∀ s, ∀ i ∈ is, ok s i) (s : σ) : Along step ok s is := by
  induction is generalizing s with
  | nil => trivial
  | cons i is ih =>
      exact ⟨h s i (List.mem_cons_self ..), fun s' _ =>
        ih (fun s i hi => h s i (List.mem_cons_of_mem _ hi)) s'⟩

/-- One run behind another. -/
theorem Along.append {step : σ → ι → Option σ} {ok : σ → ι → Prop} {s s' : σ} {is js : List ι}
    (h : Along step ok s is) (hrun : run step s is = some s') (h' : Along step ok s' js) :
    Along step ok s (is ++ js) := by
  induction is generalizing s with
  | nil =>
      cases hrun
      exact h'
  | cons i is ih =>
      obtain ⟨s₁, hs₁, hrest⟩ := Option.bind_eq_some_iff.mp hrun
      refine ⟨h.1, fun s₂ hs₂ => ?_⟩
      obtain rfl := Option.some.inj (hs₁.symm.trans hs₂)
      exact ih (h.2 s₁ hs₁) hrest

/-- One step in front of a run. -/
theorem Along.cons {step : σ → ι → Option σ} {ok : σ → ι → Prop} {s s' : σ} {i : ι}
    {is : List ι} (hok : ok s i) (hstep : step s i = some s') (h : Along step ok s' is) :
    Along step ok s (i :: is) := by
  refine ⟨hok, fun s₂ hs₂ => ?_⟩
  obtain rfl := Option.some.inj (hstep.symm.trans hs₂)
  exact h

theorem run_step {step : σ → ι → Option σ} {s s' : σ} {i : ι} (h : step s i = some s')
    (is : List ι) : run step s (i :: is) = run step s' is := by
  rw [run_cons, h, Option.bind_some]

/-- **The run rule.** -/
theorem run_invariant {step : σ → ι → Option σ} {ok : σ → ι → Prop} (Inv : σ → Prop)
    (hstep : ∀ s i s', ok s i → Inv s → step s i = some s' → Inv s')
    {s s' : σ} {is : List ι} (hinit : Inv s) (hok : Along step ok s is)
    (hrun : run step s is = some s') : Inv s' := by
  induction is generalizing s with
  | nil =>
      cases hrun
      exact hinit
  | cons i is ih =>
      obtain ⟨s₁, hs₁, hrest⟩ := Option.bind_eq_some_iff.mp hrun
      exact ih (hstep s i s₁ hok.1 hinit hs₁) (hok.2 s₁ hs₁) hrest

/-! ## Guarded events -/

/-- Every event of kind `p` finds the log before it in `Q`. -/
def Guarded (p : ε → Prop) (Q : List ε → Prop) (log : List ε) : Prop :=
  ∀ pre e post, log = pre ++ e :: post → p e → Q pre

theorem guarded_nil (p : ε → Prop) (Q : List ε → Prop) : Guarded p Q [] := by
  intro pre e post h
  cases pre <;> cases h

/-- One more event has to be guarded by the log so far. -/
theorem Guarded.concat {p : ε → Prop} {Q : List ε → Prop} {log : List ε} {e : ε}
    (h : Guarded p Q log) (he : p e → Q log) : Guarded p Q (log ++ [e]) := by
  intro pre e' post hsplit hp
  rcases List.eq_nil_or_concat post with rfl | ⟨post', last, rfl⟩
  · obtain ⟨rfl, hlast⟩ := List.append_inj' hsplit rfl
    cases hlast
    exact he hp
  · rw [List.concat_eq_append, ← List.cons_append, ← List.append_assoc] at hsplit
    obtain ⟨hlog, -⟩ := List.append_inj' hsplit rfl
    exact h pre e' post' hlog hp

/-- The log without its first event, when that is kept in mind. -/
theorem Guarded.tail {p : ε → Prop} {Q : List ε → Prop} {log : List ε} {e : ε}
    (h : Guarded p Q (e :: log)) : Guarded p (fun pre => Q (e :: pre)) log := by
  intro pre e' post hsplit hp
  refine h (e :: pre) e' post ?_ hp
  rw [hsplit]
  rfl

/-! ## Monitors -/

/-- What a run gives out, step by step, as long as it goes on. -/
def trace (step : σ → ι → Option σ) (out : σ → ι → List ε) : σ → List ι → List ε
  | _, [] => []
  | s, i :: is =>
      match step s i with
      | none => []
      | some s' => out s i ++ trace step out s' is

theorem trace_step {step : σ → ι → Option σ} {out : σ → ι → List ε} {s s' : σ} {i : ι}
    (h : step s i = some s') (is : List ι) :
    trace step out s (i :: is) = out s i ++ trace step out s' is := by
  rw [trace, h]

/-- What is given out comes from a step of the run. -/
theorem exists_of_mem_trace {step : σ → ι → Option σ} {ok : σ → ι → Prop} {out : σ → ι → List ε}
    {s : σ} {is : List ι} {e : ε} (hok : Along step ok s is) (he : e ∈ trace step out s is) :
    ∃ s i, ok s i ∧ e ∈ out s i := by
  induction is generalizing s with
  | nil => cases he
  | cons i is ih =>
      cases hstep : step s i with
      | none =>
          rw [trace, hstep] at he
          cases he
      | some s' =>
          rw [trace_step hstep] at he
          rcases List.mem_append.mp he with hhere | hlater
          · exact ⟨s, i, hok.1, hhere⟩
          · exact ih (hok.2 s' hstep) hlater

/-- **The monitor rule.** -/
theorem run_monitor {τ : Type x} {step : σ → ι → Option σ} {out : σ → ι → List ε}
    {mon : τ → ε → Option τ} (R : τ → σ → Prop)
    (hstep : ∀ t s i s', R t s → step s i = some s' →
      ∃ t', run mon t (out s i) = some t' ∧ R t' s')
    {t : τ} {s s' : σ} {is : List ι} (hinit : R t s) (hrun : run step s is = some s') :
    ∃ t', run mon t (trace step out s is) = some t' ∧ R t' s' := by
  induction is generalizing t s with
  | nil =>
      cases hrun
      exact ⟨t, rfl, hinit⟩
  | cons i is ih =>
      obtain ⟨s₁, hs₁, hrest⟩ := Option.bind_eq_some_iff.mp hrun
      obtain ⟨t₁, ht₁, hR₁⟩ := hstep t s i s₁ hinit hs₁
      obtain ⟨t', ht', hR'⟩ := ih hR₁ hrest
      refine ⟨t', ?_, hR'⟩
      rw [trace_step hs₁, run_append, ht₁, Option.bind_some, ht']

/-! ## Notes -/

/-- The note at the end of a run, or where the run stops. -/
def note {τ : Type x} (step : σ → ι → Option σ) (renew : τ → σ → τ) : τ → σ → List ι → τ
  | t, _, [] => t
  | t, s, i :: is =>
      match step s i with
      | none => t
      | some s' => note step renew (renew t s') s' is

/-- **The note rule.** -/
theorem run_note {τ : Type x} {step : σ → ι → Option σ} {renew : τ → σ → τ} (R : τ → σ → Prop)
    (hstep : ∀ t s i s', R t s → step s i = some s' → R (renew t s') s')
    {t : τ} {s s' : σ} {is : List ι} (hinit : R t s) (hrun : run step s is = some s') :
    R (note step renew t s is) s' := by
  induction is generalizing t s with
  | nil =>
      cases hrun
      exact hinit
  | cons i is ih =>
      obtain ⟨s₁, hs₁, hrest⟩ := Option.bind_eq_some_iff.mp hrun
      rw [note, hs₁]
      exact ih (hstep t s i s₁ hinit hs₁) hrest

end NucleoMqtt.Lib.Machine
