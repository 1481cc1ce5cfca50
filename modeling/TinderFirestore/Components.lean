/-
**Systems made of components.**

A screen makes views as it goes, and each of them has a life of its own: its events are those
addressed to it, and what happens elsewhere leaves it as it is.  This module says what that means of
a step function, and what follows for runs: however the events of the components are interleaved,
each component ends in the state in which a run of its own events leaves it.

* `Components.Hosts` — **a system hosts components**: an event that is addressed to a component is a
  step of that component, and every other event leaves it alone;
* `Components.eventsFor` — the events of a run that are addressed to a component;
* `Components.Hosts.run_component` — **a component sees nothing but its own events**;
* `Components.Hosts.origin` — a component of a system that began with none has been made afresh and
  has run on its own events ever since.
-/

import TinderFirestore.EventRun

set_option relaxedAutoImplicit false
set_option autoImplicit false

namespace Components

open EventRun

variable {σ ε ι τ δ : Type*}

/-! ### Events of a component -/

section Events

variable [DecidableEq ι] (address : ε → Option (ι × δ))

/-- What an event is for the component `i`, if it is addressed to it. -/
def eventFor (i : ι) (e : ε) : Option δ :=
  (address e).bind fun a => if a.1 = i then some a.2 else none

/-- The events that are addressed to the component `i`, in order. -/
def eventsFor (i : ι) (es : List ε) : List δ := es.filterMap (eventFor address i)

variable {address}

theorem eventFor_eq_some {i : ι} {e : ε} {d : δ} :
    eventFor address i e = some d ↔ address e = some (i, d) := by
  rw [eventFor, Option.bind_eq_some_iff]
  constructor
  · rintro ⟨⟨j, d'⟩, ha, hd⟩
    obtain ⟨hj, hd'⟩ := Option.ite_none_right_eq_some.1 hd
    obtain rfl : j = i := hj
    obtain rfl : d' = d := Option.some_inj.1 hd'
    exact ha
  · intro ha
    exact ⟨(i, d), ha, if_pos rfl⟩

theorem eventFor_eq_none {i : ι} {e : ε} :
    eventFor address i e = none ↔ ∀ d, address e ≠ some (i, d) := by
  rw [Option.eq_none_iff_forall_ne_some]
  exact forall_congr' fun d => not_congr eventFor_eq_some

@[simp] theorem eventsFor_nil (i : ι) : eventsFor address i [] = [] := rfl

theorem eventsFor_cons_some {i : ι} {e : ε} {d : δ} (h : address e = some (i, d)) (es : List ε) :
    eventsFor address i (e :: es) = d :: eventsFor address i es :=
  List.filterMap_cons_some (eventFor_eq_some.2 h)

theorem eventsFor_cons_none {i : ι} {e : ε} (h : ∀ d, address e ≠ some (i, d)) (es : List ε) :
    eventsFor address i (e :: es) = eventsFor address i es :=
  List.filterMap_cons_none (eventFor_eq_none.2 h)

end Events

/-! ### Systems that host components -/

/-- **A system hosts components.**  `component s i` is the state of the component `i`, once it has
been made. -/
structure Hosts (step : σ → ε → Option σ) (component : σ → ι → Option τ)
    (address : ε → Option (ι × δ)) (local_step : τ → δ → Option τ) : Prop where
  /-- An event for a component is a step of that component. -/
  addressed : ∀ {s s' : σ} {e : ε} {i : ι} {d : δ} {c : τ}, address e = some (i, d) →
    step s e = some s' → component s i = some c →
    ∃ c', local_step c d = some c' ∧ component s' i = some c'
  /-- Any other event leaves the component as it is. -/
  others : ∀ {s s' : σ} {e : ε} {i : ι} {c : τ}, (∀ d, address e ≠ some (i, d)) →
    step s e = some s' → component s i = some c → component s' i = some c

section Runs

variable [DecidableEq ι] {step : σ → ε → Option σ} {component : σ → ι → Option τ}
  {address : ε → Option (ι × δ)} {local_step : τ → δ → Option τ} {s t : σ} {es : List ε} {i : ι}
  {c : τ}

/-- **A component sees nothing but its own events.** -/
theorem Hosts.run_component (h : Hosts step component address local_step)
    (hc : component s i = some c) (hrun : run step s es = some t) :
    ∃ c', run local_step c (eventsFor address i es) = some c' ∧ component t i = some c' := by
  induction es generalizing s c with
  | nil =>
      rw [run_nil, Option.some_inj] at hrun
      exact ⟨c, rfl, hrun ▸ hc⟩
  | cons e es ih =>
      obtain ⟨s', hs', hrun'⟩ := run_cons_eq_some.1 hrun
      cases ha : eventFor address i e with
      | none =>
          have hother := eventFor_eq_none.1 ha
          rw [eventsFor_cons_none hother]
          exact ih (h.others hother hs' hc) hrun'
      | some d =>
          have hown := eventFor_eq_some.1 ha
          obtain ⟨c', hlocal, hc'⟩ := h.addressed hown hs' hc
          obtain ⟨c'', hrun'', hc''⟩ := ih hc' hrun'
          refine ⟨c'', ?_, hc''⟩
          rw [eventsFor_cons_some hown]
          exact run_cons_eq_some.2 ⟨c', hlocal, hrun''⟩

/-- **Where a component comes from.**  If no event comes for a component before it has been made,
and a component that a step makes is fresh, then in a run that begins without it the component has
been made fresh, and has run on all the events that ever came for it. -/
theorem Hosts.origin (h : Hosts step component address local_step) {fresh : ι → τ → Prop}
    (hnone : ∀ {s s' : σ} {e : ε} {i : ι} {d : δ}, address e = some (i, d) →
      step s e = some s' → component s i ≠ none)
    (hmade : ∀ {s s' : σ} {e : ε} {i : ι} {c : τ}, step s e = some s' → component s i = none →
      component s' i = some c → fresh i c)
    (hs : component s i = none) (hrun : run step s es = some t) (hc : component t i = some c) :
    ∃ c₀, fresh i c₀ ∧ run local_step c₀ (eventsFor address i es) = some c := by
  induction es generalizing s with
  | nil =>
      rw [run_nil, Option.some_inj] at hrun
      rw [← hrun, hs] at hc
      exact absurd hc (by simp)
  | cons e es ih =>
      obtain ⟨s', hs', hrun'⟩ := run_cons_eq_some.1 hrun
      have hother : ∀ d, address e ≠ some (i, d) := fun d ha => hnone ha hs' hs
      rw [eventsFor_cons_none hother]
      cases hmid : component s' i with
      | none => exact ih hmid hrun'
      | some c₀ =>
          obtain ⟨c', hlocal, hc'⟩ := h.run_component hmid hrun'
          rw [hc, Option.some_inj] at hc'
          exact ⟨c₀, hmade hs' hs hmid, hc' ▸ hlocal⟩

end Runs

end Components
