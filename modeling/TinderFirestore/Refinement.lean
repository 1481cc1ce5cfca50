/-
**One system seen through another.**

A detailed system refines an abstract one when every state of it can be read as a state of the
abstract one, and every step as a step of the abstract one or as no step at all.  Then each run can
be read as a run, and what holds of the abstract runs holds of the detailed ones.

* `Refinement.traceOf` — **the abstract events of a run**: those of its steps that the abstract
  system sees;
* `Refinement.Refines` — the detailed system refines the abstract one, as long as an invariant
  holds;
* `Refinement.Refines.run` — **a run is a run of the abstract system**;
* `Refinement.Refines.run_withHistory` — the same when the abstract system carries a history.
-/

import TinderFirestore.EventRun

set_option relaxedAutoImplicit false
set_option autoImplicit false

namespace Refinement

open EventRun

variable {σ ε τ δ η : Type*}

/-! ### The abstract events of a run -/

/-- **The abstract events of a run.**  `label s e s'` is what the abstract system sees of the step
from `s` to `s'`. -/
def traceOf (step : σ → ε → Option σ) (label : σ → ε → σ → Option δ) : σ → List ε → List δ
  | _, [] => []
  | s, e :: es =>
    match step s e with
    | none => []
    | some s' => (label s e s').toList ++ traceOf step label s' es

@[simp] theorem traceOf_nil (step : σ → ε → Option σ) (label : σ → ε → σ → Option δ) (s : σ) :
    traceOf step label s [] = [] := rfl

theorem traceOf_cons {step : σ → ε → Option σ} {label : σ → ε → σ → Option δ} {s s' : σ} {e : ε}
    (h : step s e = some s') (es : List ε) :
    traceOf step label s (e :: es) = (label s e s').toList ++ traceOf step label s' es := by
  rw [traceOf, h]

/-! ### Refinement -/

/-- **The detailed system refines the abstract one**, as long as the invariant `I` holds. -/
structure Refines (step : σ → ε → Option σ) (abstract_step : τ → δ → Option τ)
    (label : σ → ε → σ → Option δ) (abs : σ → τ) (I : σ → Prop) : Prop where
  keeps : ∀ {s s' : σ} {e : ε}, I s → step s e = some s' → I s'
  /-- A step that the abstract system sees is a step of it. -/
  visible : ∀ {s s' : σ} {e : ε} {d : δ}, I s → step s e = some s' → label s e s' = some d →
    abstract_step (abs s) d = some (abs s')
  /-- Any other step does not show. -/
  silent : ∀ {s s' : σ} {e : ε}, I s → step s e = some s' → label s e s' = none → abs s' = abs s

section Runs

variable {step : σ → ε → Option σ} {abstract_step : τ → δ → Option τ}
  {label : σ → ε → σ → Option δ} {abs : σ → τ} {I : σ → Prop} {s t : σ} {es : List ε}

/-- **A run is a run of the abstract system.** -/
theorem Refines.run (h : Refines step abstract_step label abs I) (hs : I s)
    (hrun : EventRun.run step s es = some t) :
    EventRun.run abstract_step (abs s) (traceOf step label s es) = some (abs t) := by
  induction es generalizing s with
  | nil =>
      rw [run_nil, Option.some_inj] at hrun
      rw [traceOf_nil, run_nil, hrun]
  | cons e es ih =>
      obtain ⟨s', hs', hrun'⟩ := run_cons_eq_some.1 hrun
      have hrest := ih (h.keeps hs hs') hrun'
      rw [traceOf_cons hs']
      cases hlabel : label s e s' with
      | none =>
          rw [Option.toList_none, List.nil_append, ← h.silent hs hs' hlabel]
          exact hrest
      | some d =>
          rw [Option.toList_some, List.singleton_append]
          exact run_cons_eq_some.2 ⟨abs s', h.visible hs hs' hlabel, hrest⟩

/-- The same when the abstract system carries a history. -/
theorem Refines.run_withHistory (h : Refines step abstract_step label abs I) (hs : I s)
    (hrun : EventRun.run step s es = some t) (note : τ → δ → τ → η → η) (k : η) :
    ∃ k', EventRun.run (withHistory abstract_step note) (abs s, k) (traceOf step label s es) =
      some (abs t, k') :=
  EventRun.run_withHistory.1 (h.run hs hrun)

end Runs

end Refinement
