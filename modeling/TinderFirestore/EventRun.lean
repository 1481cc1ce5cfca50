/-
**Runs of an event-driven system.**

An event-driven program is a state together with handlers: an event that is possible in a state
takes it to the next one, and an event that is not possible is refused.  Such a system is given by
a partial step function `step : σ → ε → Option σ`; a run feeds it a list of events.

Main definitions:

* `EventRun.run` — the state after a list of events, if all of them were possible;
* `EventRun.StepsMeet` — a condition on a state and the event it receives holds at every step of
  a run;
* `EventRun.StatesMeet` — a property holds in every state of a run;
* `EventRun.withHistory` — the same system carrying a history variable, which records what has
  happened without influencing it.

Main results:

* `EventRun.invariant_run` — **the invariant rule**: what every step preserves holds at the end of
  every run;
* `EventRun.invariant_run_of_meet` — the same when only the steps that meet a condition preserve
  it;
* `EventRun.run_of_meet` — **the progress rule**: if these steps are also possible, so is the run;
* `EventRun.invariant_run_trace` — the same when the invariant speaks of the events so far;
* `EventRun.tracked_run` — **the tracking rule**: an invariant with a propositional parameter that
  says whether the condition has held so far; it gives both directions of a statement
  `P (final state) ↔ StepsMeet C run`;
* `EventRun.statesMeet_iff_stepsMeet` — **the exact-condition rule**: a property holds in every
  state of a run exactly when a condition holds at every step, if the condition says which steps
  keep it;
* `EventRun.run_withHistory` — a history variable neither adds nor removes runs;
* `EventRun.invariant_run_withHistory`, `EventRun.tracked_run_withHistory_of_meet` — the rules for
  a system that carries one.
-/

import Mathlib.Data.Option.Basic

set_option relaxedAutoImplicit false
set_option autoImplicit false

namespace EventRun

variable {σ ε η : Type*}

/-! ### Runs -/

/-- The state reached from `s` by a list of events, if each of them is possible when it comes. -/
def run (step : σ → ε → Option σ) : σ → List ε → Option σ
  | s, [] => some s
  | s, e :: es => (step s e).bind fun s' => run step s' es

@[simp] theorem run_nil (step : σ → ε → Option σ) (s : σ) : run step s [] = some s := rfl

theorem run_cons (step : σ → ε → Option σ) (s : σ) (e : ε) (es : List ε) :
    run step s (e :: es) = (step s e).bind fun s' => run step s' es := rfl

theorem run_cons_eq_some {step : σ → ε → Option σ} {s t : σ} {e : ε} {es : List ε} :
    run step s (e :: es) = some t ↔ ∃ s', step s e = some s' ∧ run step s' es = some t := by
  rw [run_cons, Option.bind_eq_some_iff]

/-- The events of a run may be translated one by one. -/
theorem run_map {δ : Type*} (step : σ → ε → Option σ) (f : δ → ε) (s : σ) (ds : List δ) :
    run step s (ds.map f) = run (fun s d => step s (f d)) s ds := by
  induction ds generalizing s with
  | nil => rfl
  | cons d ds ih =>
      rw [List.map_cons, run_cons, run_cons]
      exact Option.bind_congr fun s' _ => ih s'

/-- A condition on the state and the event holds at every step of the run of `es` from `s`. -/
def StepsMeet (step : σ → ε → Option σ) (C : σ → ε → Prop) : σ → List ε → Prop
  | _, [] => True
  | s, e :: es => C s e ∧ ∀ s', step s e = some s' → StepsMeet step C s' es

@[simp] theorem stepsMeet_nil (step : σ → ε → Option σ) (C : σ → ε → Prop) (s : σ) :
    StepsMeet step C s [] := trivial

theorem stepsMeet_cons {step : σ → ε → Option σ} {C : σ → ε → Prop} {s s' : σ} {e : ε}
    {es : List ε} (h : step s e = some s') :
    StepsMeet step C s (e :: es) ↔ C s e ∧ StepsMeet step C s' es := by
  constructor
  · rintro ⟨hC, hes⟩
    exact ⟨hC, hes s' h⟩
  · rintro ⟨hC, hes⟩
    refine ⟨hC, fun t ht => ?_⟩
    rw [h, Option.some_inj] at ht
    exact ht ▸ hes

/-- Whether a condition holds along a run can be computed. -/
instance decidableStepsMeet {step : σ → ε → Option σ} {C : σ → ε → Prop}
    [∀ s e, Decidable (C s e)] : ∀ s es, Decidable (StepsMeet step C s es)
  | _, [] => isTrue trivial
  | s, e :: es =>
    match h : step s e with
    | none => decidable_of_iff (C s e) (by simp [StepsMeet, h])
    | some s' =>
      have : Decidable (StepsMeet step C s' es) := decidableStepsMeet s' es
      decidable_of_iff (C s e ∧ StepsMeet step C s' es) (stepsMeet_cons h).symm

/-- A condition that follows from another one, step by step, follows along the run. -/
theorem StepsMeet.imp {step : σ → ε → Option σ} {C D : σ → ε → Prop}
    (hCD : ∀ s e, C s e → D s e) {s : σ} {es : List ε} (h : StepsMeet step C s es) :
    StepsMeet step D s es := by
  induction es generalizing s with
  | nil => trivial
  | cons e es ih => exact ⟨hCD s e h.1, fun s' hs' => ih (h.2 s' hs')⟩

/-- Two conditions hold along a run when each of them does. -/
theorem stepsMeet_and {step : σ → ε → Option σ} {C D : σ → ε → Prop} {s : σ} {es : List ε}
    (hC : StepsMeet step C s es) (hD : StepsMeet step D s es) :
    StepsMeet step (fun s e => C s e ∧ D s e) s es := by
  induction es generalizing s with
  | nil => trivial
  | cons e es ih => exact ⟨⟨hC.1, hD.1⟩, fun s' hs' => ih (hC.2 s' hs') (hD.2 s' hs')⟩

/-- A family of conditions holds along a run when each member does. -/
theorem stepsMeet_forall {ι : Sort*} {step : σ → ε → Option σ} {C : ι → σ → ε → Prop} {s : σ}
    {es : List ε} :
    StepsMeet step (fun s e => ∀ i, C i s e) s es ↔ ∀ i, StepsMeet step (C i) s es := by
  induction es generalizing s with
  | nil => simp
  | cons e es ih =>
      constructor
      · exact fun h i => ⟨h.1 i, fun s' hs' => ih.1 (h.2 s' hs') i⟩
      · exact fun h => ⟨fun i => (h i).1, fun s' hs' => ih.2 fun i => (h i).2 s' hs'⟩

/-- A condition on the events alone holds along a run exactly when it holds of every event. -/
theorem stepsMeet_events_iff {step : σ → ε → Option σ} {p : ε → Prop} {s t : σ} {es : List ε}
    (hrun : run step s es = some t) :
    StepsMeet step (fun _ e => p e) s es ↔ ∀ e ∈ es, p e := by
  induction es generalizing s with
  | nil => simp
  | cons e es ih =>
      obtain ⟨s', hs', hrun'⟩ := run_cons_eq_some.1 hrun
      rw [stepsMeet_cons hs', ih hrun', List.forall_mem_cons]

/-! ### Invariants -/

/-- **The invariant rule for conditional steps.**  What is preserved by every step that meets the
condition holds at the end of every run whose steps all meet it. -/
theorem invariant_run_of_meet {step : σ → ε → Option σ} {C : σ → ε → Prop} {I : σ → Prop}
    (hstep : ∀ s e s', C s e → I s → step s e = some s' → I s') {s t : σ} {es : List ε}
    (hC : StepsMeet step C s es) (hs : I s) (hrun : run step s es = some t) : I t := by
  induction es generalizing s with
  | nil =>
      rw [run_nil, Option.some_inj] at hrun
      exact hrun ▸ hs
  | cons e es ih =>
      obtain ⟨s', hs', hrun'⟩ := run_cons_eq_some.1 hrun
      exact ih (hC.2 s' hs') (hstep s e s' hC.1 hs hs') hrun'

/-- **The progress rule.**  If every step that meets the condition is possible and keeps the
invariant, every run whose steps all meet it is possible. -/
theorem run_of_meet {step : σ → ε → Option σ} {C : σ → ε → Prop} {I : σ → Prop}
    (hstep : ∀ s e, C s e → I s → ∃ s', step s e = some s' ∧ I s') {s : σ} {es : List ε}
    (hC : StepsMeet step C s es) (hs : I s) : ∃ t, run step s es = some t ∧ I t := by
  induction es generalizing s with
  | nil => exact ⟨s, rfl, hs⟩
  | cons e es ih =>
      obtain ⟨s', hs', hI⟩ := hstep s e hC.1 hs
      obtain ⟨t, hrun, ht⟩ := ih (hC.2 s' hs') hI
      exact ⟨t, run_cons_eq_some.2 ⟨s', hs', hrun⟩, ht⟩

/-- A loop whose body may fail is a run. -/
theorem foldlM_eq_run (step : σ → ε → Option σ) (s : σ) (es : List ε) :
    es.foldlM step s = run step s es := by
  induction es generalizing s with
  | nil => rfl
  | cons e es ih =>
      rw [List.foldlM_cons, run_cons]
      exact congrArg _ (funext ih)

/-- **A loop goes through** when each round does. -/
theorem foldlM_of_forall {step : σ → ε → Option σ} {I : σ → Prop}
    (hstep : ∀ s e, I s → ∃ s', step s e = some s' ∧ I s') (es : List ε) {s : σ} (hs : I s) :
    ∃ t, es.foldlM step s = some t ∧ I t := by
  induction es generalizing s with
  | nil => exact ⟨s, rfl, hs⟩
  | cons e es ih =>
      obtain ⟨s', hs', hI⟩ := hstep s e hs
      obtain ⟨t, hrun, ht⟩ := ih hI
      refine ⟨t, ?_, ht⟩
      rw [List.foldlM_cons, hs']
      exact hrun

/-- One more event at the end of a run. -/
theorem run_concat_of_meet {step : σ → ε → Option σ} {C : σ → ε → Prop} {s t : σ} {e : ε}
    {es : List ε} (hC : StepsMeet step C s es) (hrun : run step s es = some t) (he : C t e) :
    StepsMeet step C s (es ++ [e]) ∧ run step s (es ++ [e]) = step t e := by
  induction es generalizing s with
  | nil =>
      rw [run_nil, Option.some_inj] at hrun
      subst hrun
      refine ⟨⟨he, fun _ _ => trivial⟩, ?_⟩
      rw [List.nil_append, run_cons]
      exact Option.bind_fun_some (step s e)
  | cons e' es ih =>
      obtain ⟨s', hs', hrun'⟩ := run_cons_eq_some.1 hrun
      rw [stepsMeet_cons hs'] at hC
      obtain ⟨hC', hlast⟩ := ih hC.2 hrun'
      refine ⟨(stepsMeet_cons hs').2 ⟨hC.1, hC'⟩, ?_⟩
      rw [List.cons_append, run_cons, hs']
      exact hlast

/-- **The invariant rule.** -/
theorem invariant_run {step : σ → ε → Option σ} {I : σ → Prop}
    (hstep : ∀ s e s', I s → step s e = some s' → I s') {s t : σ} {es : List ε}
    (hs : I s) (hrun : run step s es = some t) : I t :=
  invariant_run_of_meet (C := fun _ _ => True) (fun s e s' _ => hstep s e s')
    ((stepsMeet_events_iff hrun).2 fun _ _ => trivial) hs hrun

/-- **The invariant rule over the events so far.**  The invariant may speak of the events that have
happened, each of which is added at the end. -/
theorem invariant_run_trace {step : σ → ε → Option σ} {I : σ → List ε → Prop}
    (hstep : ∀ s past e s', I s past → step s e = some s' → I s' (past ++ [e])) {s t : σ}
    {past es : List ε} (hs : I s past) (hrun : run step s es = some t) : I t (past ++ es) := by
  induction es generalizing s past with
  | nil =>
      rw [run_nil, Option.some_inj] at hrun
      rw [List.append_nil]
      exact hrun ▸ hs
  | cons e es ih =>
      obtain ⟨s', hs', hrun'⟩ := run_cons_eq_some.1 hrun
      rw [List.append_cons]
      exact ih (hstep s past e s' hs hs') hrun'

/-- A condition that an invariant guarantees at each step holds along every run. -/
theorem stepsMeet_of_invariant {step : σ → ε → Option σ} {C D : σ → ε → Prop} {I : σ → Prop}
    (hstep : ∀ s e s', C s e → I s → step s e = some s' → I s')
    (hD : ∀ s e, C s e → I s → D s e) {s : σ} {es : List ε}
    (hC : StepsMeet step C s es) (hs : I s) : StepsMeet step D s es := by
  induction es generalizing s with
  | nil => trivial
  | cons e es ih =>
      exact ⟨hD s e hC.1 hs, fun s' hs' => ih (hC.2 s' hs') (hstep s e s' hC.1 hs hs')⟩

/-- Two conditions that an invariant makes equivalent at each step hold along the same runs. -/
theorem stepsMeet_congr {step : σ → ε → Option σ} {C D : σ → ε → Prop} {I : σ → Prop}
    (hstep : ∀ s e s', I s → step s e = some s' → I s')
    (hCD : ∀ s e s', I s → step s e = some s' → (C s e ↔ D s e)) {s t : σ} {es : List ε}
    (hs : I s) (hrun : run step s es = some t) :
    StepsMeet step C s es ↔ StepsMeet step D s es := by
  induction es generalizing s with
  | nil => exact Iff.rfl
  | cons e es ih =>
      obtain ⟨s', hs', hrun'⟩ := run_cons_eq_some.1 hrun
      rw [stepsMeet_cons hs', stepsMeet_cons hs', hCD s e s' hs hs',
        ih (hstep s e s' hs hs') hrun']

/-- **The tracking rule for conditional steps.**  The first argument of `I` says whether the
condition `C` has held so far; an invariant that each step that meets `D` keeps, whether or not the
step meets `C`, describes the final state in terms of the whole run. -/
theorem tracked_run_of_meet {step : σ → ε → Option σ} {C D : σ → ε → Prop} {I : Prop → σ → Prop}
    (hstep : ∀ b s e s', D s e → I b s → step s e = some s' → I (b ∧ C s e) s') {s t : σ}
    {es : List ε} {b : Prop} (hD : StepsMeet step D s es) (hs : I b s)
    (hrun : run step s es = some t) : I (b ∧ StepsMeet step C s es) t := by
  induction es generalizing s b with
  | nil =>
      rw [run_nil, Option.some_inj] at hrun
      simpa [hrun] using hs
  | cons e es ih =>
      obtain ⟨s', hs', hrun'⟩ := run_cons_eq_some.1 hrun
      have h := ih (hD.2 s' hs') (hstep b s e s' hD.1 hs hs') hrun'
      rwa [and_assoc, ← stepsMeet_cons hs'] at h

/-- **The tracking rule.** -/
theorem tracked_run {step : σ → ε → Option σ} {C : σ → ε → Prop} {I : Prop → σ → Prop}
    (hstep : ∀ b s e s', I b s → step s e = some s' → I (b ∧ C s e) s') {s t : σ} {es : List ε}
    {b : Prop} (hs : I b s) (hrun : run step s es = some t) :
    I (b ∧ StepsMeet step C s es) t :=
  tracked_run_of_meet (D := fun _ _ => True) (fun b s e s' _ => hstep b s e s')
    ((stepsMeet_events_iff hrun).2 fun _ _ => trivial) hs hrun

/-! ### Every state of a run -/

/-- A property holds in every state of the run of `es` from `s`, the first and the last included. -/
def StatesMeet (step : σ → ε → Option σ) (p : σ → Prop) (s : σ) (es : List ε) : Prop :=
  ∀ es₁ t, es₁ <+: es → run step s es₁ = some t → p t

theorem statesMeet_nil {step : σ → ε → Option σ} {p : σ → Prop} {s : σ} :
    StatesMeet step p s [] ↔ p s := by
  constructor
  · intro h
    exact h [] s List.prefix_rfl rfl
  · intro hs es₁ t hpre hrun
    rw [List.prefix_nil.1 hpre, run_nil, Option.some_inj] at hrun
    exact hrun ▸ hs

theorem statesMeet_cons {step : σ → ε → Option σ} {p : σ → Prop} {s s' : σ} {e : ε} {es : List ε}
    (h : step s e = some s') :
    StatesMeet step p s (e :: es) ↔ p s ∧ StatesMeet step p s' es := by
  constructor
  · intro hall
    refine ⟨hall [] s List.nil_prefix rfl, fun es₁ t hpre hrun => ?_⟩
    exact hall (e :: es₁) t (List.cons_prefix_cons.2 ⟨rfl, hpre⟩) (run_cons_eq_some.2 ⟨s', h, hrun⟩)
  · rintro ⟨hs, hall⟩ es₁ t hpre hrun
    rcases List.prefix_cons_iff.1 hpre with rfl | ⟨es₂, rfl, hpre'⟩
    · rw [run_nil, Option.some_inj] at hrun
      exact hrun ▸ hs
    · obtain ⟨s₁, hs₁, hrun'⟩ := run_cons_eq_some.1 hrun
      obtain rfl := Option.some_inj.1 (h.symm.trans hs₁)
      exact hall es₂ t hpre' hrun'

/-- **The exact-condition rule.**  As long as the invariant holds, a step keeps it if it meets the
condition, and breaks the property if it does not.  So the property holds in every state of a run
exactly when every step meets the condition. -/
theorem statesMeet_iff_stepsMeet {step : σ → ε → Option σ} {p I : σ → Prop} {C : σ → ε → Prop}
    (hp : ∀ s, I s → p s) (hC : ∀ s e s', I s → step s e = some s' → p s' → C s e)
    (hI : ∀ s e s', I s → step s e = some s' → C s e → I s') {s t : σ} {es : List ε} (hs : I s)
    (hrun : run step s es = some t) : StatesMeet step p s es ↔ StepsMeet step C s es := by
  induction es generalizing s with
  | nil => exact statesMeet_nil.trans (iff_of_true (hp s hs) trivial)
  | cons e es ih =>
      obtain ⟨s', hs', hrun'⟩ := run_cons_eq_some.1 hrun
      rw [statesMeet_cons hs', stepsMeet_cons hs']
      constructor
      · rintro ⟨-, hall⟩
        have hmeet := hC s e s' hs hs' (hall [] s' List.nil_prefix rfl)
        exact ⟨hmeet, (ih (hI s e s' hs hs' hmeet) hrun').1 hall⟩
      · rintro ⟨hmeet, hall⟩
        exact ⟨hp s hs, (ih (hI s e s' hs hs' hmeet) hrun').2 hall⟩

/-! ### History variables -/

/-- The system with a history variable: `note` records a step, from the state before it, the event
and the state after it. -/
def withHistory (step : σ → ε → Option σ) (note : σ → ε → σ → η → η) :
    σ × η → ε → Option (σ × η) :=
  fun x e => (step x.1 e).map fun s' => (s', note x.1 e s' x.2)

theorem withHistory_eq_some {step : σ → ε → Option σ} {note : σ → ε → σ → η → η}
    {x y : σ × η} {e : ε} :
    withHistory step note x e = some y ↔
      step x.1 e = some y.1 ∧ y.2 = note x.1 e y.1 x.2 := by
  rw [withHistory, Option.map_eq_some_iff]
  constructor
  · rintro ⟨s', hs', rfl⟩
    exact ⟨hs', rfl⟩
  · rintro ⟨hs', hy⟩
    exact ⟨y.1, hs', Prod.ext rfl hy.symm⟩

/-- What a step establishes together with what it notes, the step of the system with the history
establishes. -/
theorem withHistory_establishes {step : σ → ε → Option σ} {note : σ → ε → σ → η → η}
    {I : σ → η → Prop} {x y : σ × η} {e : ε}
    (hstep : ∀ s', step x.1 e = some s' → I s' (note x.1 e s' x.2))
    (h : withHistory step note x e = some y) : I y.1 y.2 := by
  obtain ⟨hs, hnote⟩ := withHistory_eq_some.1 h
  rw [hnote]
  exact hstep y.1 hs

/-- **A history variable neither adds nor removes runs.** -/
theorem run_withHistory {step : σ → ε → Option σ} {note : σ → ε → σ → η → η} {s t : σ} {h : η}
    {es : List ε} :
    run step s es = some t ↔ ∃ k, run (withHistory step note) (s, h) es = some (t, k) := by
  induction es generalizing s h with
  | nil => simp
  | cons e es ih =>
      rw [run_cons_eq_some]
      constructor
      · rintro ⟨s', hs', hrun⟩
        obtain ⟨k, hk⟩ := (ih (h := note s e s' h)).1 hrun
        exact ⟨k, run_cons_eq_some.2 ⟨_, withHistory_eq_some.2 ⟨hs', rfl⟩, hk⟩⟩
      · rintro ⟨k, hk⟩
        obtain ⟨y, hy, hrun⟩ := run_cons_eq_some.1 hk
        exact ⟨y.1, (withHistory_eq_some.1 hy).1, (ih (h := y.2)).2 ⟨k, hrun⟩⟩

/-- A condition that does not look at the history holds along the run with it exactly when it holds
along the run without it. -/
theorem stepsMeet_withHistory {step : σ → ε → Option σ} {note : σ → ε → σ → η → η}
    {C : σ → ε → Prop} {s : σ} {h : η} {es : List ε} :
    StepsMeet (withHistory step note) (fun x e => C x.1 e) (s, h) es ↔ StepsMeet step C s es := by
  induction es generalizing s h with
  | nil => exact Iff.rfl
  | cons e es ih =>
      refine and_congr_right fun _ => ?_
      constructor
      · exact fun hes s' hs' => ih.1 (hes (s', note s e s' h) (withHistory_eq_some.2 ⟨hs', rfl⟩))
      · rintro hes ⟨s', h'⟩ hs'
        exact ih.2 (hes s' (withHistory_eq_some.1 hs').1)

section WithHistory

variable {step : σ → ε → Option σ} {note : σ → ε → σ → η → η} {s t : σ} {h k : η} {es : List ε}

/-- The invariant rule for conditional steps, with a history. -/
theorem invariant_run_withHistory_of_meet {C : σ → ε → Prop} {I : σ → η → Prop}
    (hstep : ∀ s h e s', C s e → I s h → step s e = some s' → I s' (note s e s' h))
    (hC : StepsMeet step C s es) (hs : I s h)
    (hrun : run (withHistory step note) (s, h) es = some (t, k)) : I t k := by
  refine invariant_run_of_meet (I := fun x => I x.1 x.2) ?_ (stepsMeet_withHistory.2 hC) hs hrun
  intro x e y hCx hI hstep'
  exact withHistory_establishes (fun s' hs' => hstep x.1 x.2 e s' hCx hI hs') hstep'

/-- The invariant rule, with a history. -/
theorem invariant_run_withHistory {I : σ → η → Prop}
    (hstep : ∀ s h e s', I s h → step s e = some s' → I s' (note s e s' h)) (hs : I s h)
    (hrun : run (withHistory step note) (s, h) es = some (t, k)) : I t k :=
  invariant_run_withHistory_of_meet (C := fun _ _ => True) (fun s h e s' _ => hstep s h e s')
    ((stepsMeet_events_iff (run_withHistory.2 ⟨k, hrun⟩)).2 fun _ _ => trivial) hs hrun

/-- The tracking rule for conditional steps, with a history. -/
theorem tracked_run_withHistory_of_meet {C D : σ → ε → Prop} {I : Prop → σ → η → Prop} {b : Prop}
    (hstep : ∀ b s h e s', D s e → I b s h → step s e = some s' →
      I (b ∧ C s e) s' (note s e s' h))
    (hD : StepsMeet step D s es) (hs : I b s h)
    (hrun : run (withHistory step note) (s, h) es = some (t, k)) :
    I (b ∧ StepsMeet step C s es) t k := by
  have htracked := tracked_run_of_meet (C := fun x e => C x.1 e) (I := fun b x => I b x.1 x.2) ?_
    (stepsMeet_withHistory.2 hD) hs hrun
  · rwa [stepsMeet_withHistory] at htracked
  · intro b x e y hDx hI hstep'
    exact withHistory_establishes (I := I (b ∧ C x.1 e))
      (fun s' hs' => hstep b x.1 x.2 e s' hDx hI hs') hstep'

end WithHistory

end EventRun
