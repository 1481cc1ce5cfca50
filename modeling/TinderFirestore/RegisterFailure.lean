/-
**What a failed registration tells the user.**

The reason of a failure is a text in the HUD.  It is written by the completion closure of the
controller and erased by its observer of `isRegistering`, and the view model calls the two in
either order: the local guard clears the flag first, the callback of `createUser` clears it last.
So a refused account is the one failure whose reason is erased at once; every other one stays until
another registration writes or erases it, for a registration that has failed does nothing more.

* `Register.FailsWith` — the steps at which a registration can fail, with their errors;
* `Register.TellsWhy` — the label shows the reason, and the registration does not erase it;
* `Register.failed_registration_tells_why_iff` — **which failures tell the user why.**
-/

import TinderFirestore.RegisterHud

set_option relaxedAutoImplicit false
set_option autoImplicit false

namespace Register

open Firestore Profile EventRun

variable {Image Data : Type*}

/-! ### Failures -/

/-- The registration at position `r` fails with an error at this event: its form does not pass the
guard, or one of its four remote calls fails. -/
inductive FailsWith (P : Platform Image Data) (s : Screen Image Data) :
    Event Image → ℕ → NSError → Prop
  | localGuard (hguard : s.viewModel.credentials P = none) :
      FailsWith P s .preformRegistration s.registrations.length localError
  | createUser {r : ℕ} {error : NSError} {filename : String} :
      FailsWith P s (.createUserReply r (.error error) filename) r error
  | putData {r : ℕ} {error : NSError} : FailsWith P s (.putDataReply r (some error)) r error
  | downloadURL {r : ℕ} {error : NSError} :
      FailsWith P s (.downloadURLReply r (.error error)) r error
  | setData {r : ℕ} {error : NSError} : FailsWith P s (.setDataReply r (some error)) r error

/-- The event is of a registration other than the one at position `r`. -/
def OfAnother (r : ℕ) (e : Event Image) : Prop :=
  e = .preformRegistration ∨ ∃ r', e.repliesTo = some r' ∧ r' ≠ r

/-- The registration at position `r` has told the user about the error, and does not take it back:
no event of it follows, and the label stays until another registration does something. -/
structure TellsWhy (P : Platform Image Data) (r : ℕ) (error : NSError) (s : Screen Image Data) :
    Prop where
  label : s.view.hudView.detailTextLabel = P.localizedDescription error
  ended : ∀ es t, run (step P) s es = some t → ∀ e ∈ es, e.repliesTo ≠ some r
  kept : ∀ es t, run (step P) s es = some t → (∀ e ∈ es, ¬ OfAnother r e) →
    t.view.hudView.detailTextLabel = s.view.hudView.detailTextLabel

/-! ### A registration that is over -/

/-- The registration at position `r` has been started and waits for nothing. -/
def Over (r : ℕ) (s : Screen Image Data) : Prop :=
  ∃ g, s.registrations[r]? = some g ∧ g.outstanding = none

section Step

variable {P : Platform Image Data} {s s' : Screen Image Data} {e : Event Image} {r : ℕ}

/-- A registration that is over gets no reply, and stays over. -/
theorem Over.step (hover : Over r s) (h : step P s e = some s') :
    Over r s' ∧ e.repliesTo ≠ some r := by
  obtain ⟨g, hg, hnone⟩ := hover
  have hlt := (List.getElem?_eq_some_iff.1 hg).1
  rcases step_cases h with ⟨hno, hregs, -⟩ | ⟨hno, -, hregs⟩ | ⟨r', k, k', hk, hans, hregs⟩
  · rw [hno]
    exact ⟨⟨g, hregs ▸ hg, hnone⟩, by simp⟩
  · rw [hno]
    refine ⟨⟨g, ?_, hnone⟩, by simp⟩
    rw [hregs, List.getElem?_append_left hlt, hg]
  · by_cases hr : r' = r
    · -- the registration that is answered waits for something
      subst hr
      obtain ⟨call, hcall⟩ := hans.outstanding
      obtain rfl := Option.some_inj.1 (hg.symm.trans hk)
      rw [hnone] at hcall
      exact absurd hcall (by simp)
    · refine ⟨⟨g, ?_, hnone⟩, ?_⟩
      · rw [hregs, List.getElem?_set_ne hr, hg]
      · rw [hans.repliesTo]
        intro heq
        exact hr (Option.some_inj.1 heq)

theorem Over.run {es : List (Event Image)} {t : Screen Image Data} (hover : Over r s)
    (hrun : run (Register.step P) s es = some t) : ∀ e ∈ es, e.repliesTo ≠ some r := by
  refine (stepsMeet_events_iff hrun).1 ?_
  refine (stepsMeet_congr (C := fun _ _ => True) (I := Over r)
    (fun s e s' hI hstep => (hI.step hstep).1)
    (fun s e s' hI hstep => iff_of_true trivial (hI.step hstep).2) hover hrun).1 ?_
  exact (stepsMeet_events_iff hrun).2 fun _ _ => trivial

/-- A reply that leaves nothing to wait for ends the registration. -/
theorem Answered.over (h : Answered P s e s') (hr : e.repliesTo = some r)
    (hnone : ∀ g g' m, Answer P s r g e g' m → g'.outstanding = none) : Over r s' := by
  obtain ⟨r', g, g', hg, hans, hregs⟩ := h
  obtain rfl : r = r' := Option.some_inj.1 (hr.symm.trans hans.repliesTo)
  refine ⟨g', ?_, hnone g g' _ hans⟩
  rw [hregs, List.getElem?_set_self (List.getElem?_eq_some_iff.1 hg).1]

/-- A registration that has failed is over. -/
theorem FailsWith.over {error : NSError} (hfails : FailsWith P s e r error)
    (h : Register.step P s e = some s') : Over r s' := by
  cases hfails with
  | localGuard hguard =>
      obtain rfl := Option.some_inj.1 h
      refine ⟨started P s.viewModel, ?_, ?_⟩
      · rw [preformRegistration_registrations, List.getElem?_concat_length]
      · rw [started, hguard]
        rfl
  | createUser =>
      refine (answered_of_repliesTo h rfl).over rfl fun g g' m hans => ?_
      cases hans
      rfl
  | putData =>
      refine (answered_of_repliesTo h rfl).over rfl fun g g' m hans => ?_
      cases hans
      rfl
  | downloadURL =>
      refine (answered_of_repliesTo h rfl).over rfl fun g g' m hans => ?_
      cases hans
      rfl
  | setData =>
      refine (answered_of_repliesTo h rfl).over rfl fun g g' m hans => ?_
      cases hans
      rfl

/-- What the label shows after a failure. -/
theorem FailsWith.label {error : NSError} (hfails : FailsWith P s e r error)
    (h : Register.step P s e = some s') :
    s'.view.hudView.detailTextLabel = P.localizedDescription error ↔
      (∀ filename, e ≠ .createUserReply r (.error error) filename) ∨
        P.localizedDescription error = "" := by
  have hlabel : s'.view.hudView.detailTextLabel = (hudAfter P s e).2 :=
    congrArg Prod.snd (step_hud h)
  rw [hlabel]
  cases hfails with
  | localGuard hguard =>
      refine iff_of_true ?_ (Or.inl fun filename => by simp)
      simp only [hudAfter, hguard]
  | @createUser r error filename =>
      -- the completion has written the label, and the observer has cleared it
      constructor
      · intro hempty
        exact Or.inr hempty.symm
      · intro hcase
        rcases hcase with hno | hempty
        · exact absurd rfl (hno filename)
        · exact hempty.symm
  | _ => exact iff_of_true rfl (Or.inl fun filename => by simp)

/-- Editing the form, picking an image and signing out leave the label as it is. -/
theorem label_kept (hno : e.repliesTo = none) (hne : e ≠ .preformRegistration)
    (h : Register.step P s e = some s') :
    s'.view.hudView.detailTextLabel = s.view.hudView.detailTextLabel := by
  have hlabel : s'.view.hudView.detailTextLabel = (hudAfter P s e).2 :=
    congrArg Prod.snd (step_hud h)
  rw [hlabel]
  cases e with
  | preformRegistration => exact absurd rfl hne
  | textDidChange sender text => rfl
  | imagePicked image => rfl
  | signOut => rfl
  | _ => exact absurd hno (by simp [Event.repliesTo])

end Step

/-! ### The main result -/

/-- **Which failures tell the user why.**  Whatever the state of the screen is: a registration that
fails tells the user about its error, and does not take it back, exactly when the failing step is
not `createUser` or there is nothing to tell. -/
theorem failed_registration_tells_why_iff (P : Platform Image Data) {s s' : Screen Image Data}
    {e : Event Image} {r : ℕ} {error : NSError} (hfails : FailsWith P s e r error)
    (hstep : step P s e = some s') :
    TellsWhy P r error s' ↔
      (∀ filename, e ≠ .createUserReply r (.error error) filename) ∨
        P.localizedDescription error = "" := by
  rw [← hfails.label hstep]
  constructor
  · intro htells
    exact htells.label
  · intro hlabel
    have hover := hfails.over hstep
    refine ⟨hlabel, fun es t hrun => hover.run hrun, fun es t hrun hother => ?_⟩
    have hsilent : StepsMeet (step P) (fun _ e => e.repliesTo = none ∧ e ≠ .preformRegistration)
        s' es := by
      refine (stepsMeet_events_iff hrun).2 fun e he => ⟨?_, fun hpre => hother e he (Or.inl hpre)⟩
      cases hr : e.repliesTo with
      | none => rfl
      | some r' =>
          -- a reply is one to another registration
          refine absurd (Or.inr ⟨r', hr, ?_⟩) (hother e he)
          rintro rfl
          exact hover.run hrun e he hr
    refine invariant_run_of_meet (I := fun s => s.view.hudView.detailTextLabel =
      s'.view.hudView.detailTextLabel) ?_ hsilent rfl hrun
    intro s e s' hC hI hstep
    rw [label_kept hC.1 hC.2 hstep, hI]

/-- A registration whose upload fails. -/
def uploadFails : List (Event (Option ℕ)) :=
  fillForm ++ [.preformRegistration, .createUserReply 0 (.ok "u1") "photo"]

theorem failed_registration_tells_why_iff_upload :
    ∃ s s' error, run (step plainPlatform) (Screen.loaded emptyRemote) uploadFails = some s ∧
      step plainPlatform s (.putDataReply 0 (some error)) = some s' ∧
      error.domain = "no network" ∧ TellsWhy plainPlatform 0 error s' := by
  obtain ⟨s, hrun, s', hstep⟩ : ∃ s, run (step plainPlatform) (Screen.loaded emptyRemote)
      uploadFails = some s ∧ ∃ s', step plainPlatform s (.putDataReply 0 (some
        { domain := "no network", code := 1 })) = some s' := ⟨_, rfl, _, rfl⟩
  refine ⟨s, s', _, hrun, hstep, rfl, ?_⟩
  refine (failed_registration_tells_why_iff plainPlatform .putData hstep).2 (Or.inl fun _ => ?_)
  simp

/-- **A refused account is not explained**: its error has a description, and the label is empty. -/
theorem refused_account_is_not_explained :
    ∃ s s' error, run (step plainPlatform) (Screen.loaded emptyRemote)
        (fillForm ++ [.preformRegistration]) = some s ∧
      FailsWith plainPlatform s (.createUserReply 0 (.error error) "photo") 0 error ∧
      step plainPlatform s (.createUserReply 0 (.error error) "photo") = some s' ∧
      plainPlatform.localizedDescription error = "in use" ∧
      s'.view.hudView.detailTextLabel = "" ∧ ¬ TellsWhy plainPlatform 0 error s' := by
  refine ⟨_, _, { domain := "in use", code := 17007 }, rfl, .createUser, rfl, rfl, rfl, fun h => ?_⟩
  exact absurd h.label (by decide)

end Register
