/-
**The busy flag and the HUD.**

The view model has one flag, `isRegistering`, for all registrations.  It is set when a registration
passes the guard and cleared when an account has been made or refused, whatever else is going on.
So it goes out while the photo is still being uploaded, and it goes out for every registration when
the account of one is answered.  It tells the truth along a run exactly when it is cleared only by
the last registration that waits, and only when this one is over.

* `Register.hudAfter`, `Register.step_hud` — **what an event makes of the flag and of the detail
  label**;
* `Register.FlagTruthful` — the flag is set exactly when some registration waits for a reply;
* `Register.KeepsFlag` — the condition on the events that clear the flag;
* `Register.isRegistering_truthful_iff` — **when the flag tells the truth.**
-/

import TinderFirestore.RegisterForm

set_option relaxedAutoImplicit false
set_option autoImplicit false

namespace Register

open Firestore Profile EventRun

variable {Image Data : Type*}

/-! ### What becomes of the flag and the label -/

/-- The flag, and the detail label of the HUD. -/
def Screen.hud (s : Screen Image Data) : Option Bool × String :=
  (s.viewModel.isRegistering, s.view.hudView.detailTextLabel)

section Hud

variable (P : Platform Image Data) (s : Screen Image Data)

/-- What an event makes of the flag and the label.  The callback of `createUser` clears both last,
after the completion has written the label. -/
def hudAfter : Event Image → Option Bool × String
  | .preformRegistration =>
    match s.viewModel.credentials P with
    | none => (some false, P.localizedDescription localError)
    | some _ => (some true, s.hud.2)
  | .createUserReply _ _ _ => (some false, "")
  | .putDataReply _ (some e) => (s.hud.1, P.localizedDescription e)
  | .downloadURLReply _ (.error e) => (s.hud.1, P.localizedDescription e)
  | .setDataReply _ (some e) => (s.hud.1, P.localizedDescription e)
  | _ => s.hud

theorem preformRegistration_hud :
    (s.preformRegistration P).hud = hudAfter P s .preformRegistration := by
  have hvm : ({ s with registrations := s.registrations ++ [Registration.new] }.setIsRegistering
      true).viewModel.credentials P = s.viewModel.credentials P := rfl
  rw [Screen.preformRegistration, hvm, hudAfter]
  cases s.viewModel.credentials P with
  | none => simp [Screen.hud]
  | some c => rfl

end Hud

/-- **What an event makes of the flag and the label.** -/
theorem step_hud {P : Platform Image Data} {s s' : Screen Image Data} {e : Event Image}
    (h : step P s e = some s') : s'.hud = hudAfter P s e := by
  cases e with
  | textDidChange sender text =>
      rw [← Option.some_inj.1 h]
      cases sender <;> rfl
  | imagePicked image => rw [← Option.some_inj.1 h]; rfl
  | signOut => rw [← Option.some_inj.1 h]; rfl
  | preformRegistration => rw [← Option.some_inj.1 h, preformRegistration_hud]
  | createUserReply r reply filename =>
      simp only [step, Screen.createUserReply] at h
      split at h
      · split at h
        · rw [← Option.some_inj.1 h]
          simp [Screen.createUserCallback, hudAfter, Screen.hud]
        · split_ifs at h
          rw [← Option.some_inj.1 h]
          simp [Screen.createUserCallback, hudAfter, Screen.hud]
      · simp at h
  | putDataReply r error =>
      simp only [step, Screen.putDataReply] at h
      split at h
      · rw [← Option.some_inj.1 h]
        cases error <;> simp [Screen.putDataCallback, hudAfter, Screen.hud]
      · simp at h
  | downloadURLReply r reply =>
      simp only [step, Screen.downloadURLReply] at h
      split at h
      · rw [← Option.some_inj.1 h]
        cases reply <;> simp [Screen.downloadURLCallback, hudAfter, Screen.hud]
      · simp at h
  | setDataReply r error =>
      simp only [step, Screen.setDataReply] at h
      split at h
      · split at h <;>
        · rw [← Option.some_inj.1 h]
          simp [hudAfter, Screen.hud]
      · simp at h

/-! ### The flag -/

/-- The flag is set exactly when some registration waits for the reply of a remote call. -/
def FlagTruthful (s : Screen Image Data) : Prop :=
  s.viewModel.isRegistering = some true ↔ ∃ g ∈ s.registrations, g.outstanding.isSome

/-- No registration but the one at position `r` waits for a reply. -/
def Screen.OthersQuiet (s : Screen Image Data) (r : ℕ) : Prop :=
  ∀ r' g, s.registrations[r']? = some g → r' ≠ r → g.outstanding = none

/-- When the flag is cleared nothing is left to wait for: a registration that does not pass the
guard is started when none waits, and an account is answered when no other registration waits and no
upload begins. -/
def KeepsFlag (P : Platform Image Data) (s : Screen Image Data) : Event Image → Prop
  | .preformRegistration => s.viewModel.credentials P = none → s.Quiet
  | .createUserReply r reply _ =>
    s.OthersQuiet r ∧ ∀ uid, reply = .ok uid → s.viewModel.image.bind P.jpegData = none
  | _ => True

/-- As long as the flag tells the truth, every registration that waits has made its first call
only. -/
structure FlagInv (s : Screen Image Data) : Prop where
  truthful : FlagTruthful s
  first : ∀ g ∈ s.registrations, ∀ call, g.outstanding = some call →
    ∃ email password, call = .createUser email password

/-- Where the flag is cleared, it tells the truth when nothing is left to wait for. -/
theorem flagTruthful_iff_quiet {s : Screen Image Data}
    (h : s.viewModel.isRegistering = some false) : FlagTruthful s ↔ s.Quiet := by
  rw [FlagTruthful, h]
  constructor
  · intro hiff g hg
    by_contra hno
    exact absurd (hiff.2 ⟨g, hg, Option.isSome_iff_ne_none.2 hno⟩) (by decide)
  · intro hquiet
    refine iff_of_false (by decide) ?_
    rintro ⟨g, hg, hsome⟩
    rw [hquiet g hg] at hsome
    exact absurd hsome Bool.false_ne_true

theorem FlagInv.of_quiet {s : Screen Image Data} (h : s.viewModel.isRegistering = some false)
    (hquiet : s.Quiet) : FlagInv s := by
  refine ⟨(flagTruthful_iff_quiet h).2 hquiet, fun g hg call hcall => ?_⟩
  rw [hquiet g hg] at hcall
  exact absurd hcall (by simp)

/-- A registration that waits for an account gets the reply of `createUser`. -/
theorem Answer.createUserReply {P : Platform Image Data} {s : Screen Image Data} {r : ℕ}
    {g g' : Registration Image Data} {e : Event Image} {m : Remote} (h : Answer P s r g e g' m)
    (hfirst : ∀ call, g.outstanding = some call →
      ∃ email password, call = .createUser email password) :
    ∃ reply filename, e = .createUserReply r reply filename := by
  cases h with
  | createUserFailed => exact ⟨_, _, rfl⟩
  | noImageData => exact ⟨_, _, rfl⟩
  | uploading => exact ⟨_, _, rfl⟩
  | _ =>
      obtain ⟨_, _, hcall⟩ := hfirst _ (by assumption)
      cases hcall

section Step

variable {P : Platform Image Data} {s s' : Screen Image Data}

theorem isRegistering_eq {e : Event Image} (h : step P s e = some s') :
    s'.viewModel.isRegistering = (hudAfter P s e).1 :=
  congrArg Prod.fst (step_hud h)

/-- A step after which the flag tells the truth meets the condition. -/
theorem keepsFlag_of_truthful {e : Event Image} (h : step P s e = some s')
    (htrue : FlagTruthful s') : KeepsFlag P s e := by
  have hflag := isRegistering_eq h
  cases e with
  | preformRegistration =>
      intro hc
      simp only [hudAfter, hc] at hflag
      have hquiet := (flagTruthful_iff_quiet hflag).1 htrue
      obtain rfl := Option.some_inj.1 h
      intro g hg
      refine hquiet g ?_
      rw [preformRegistration_registrations]
      exact List.mem_append_left _ hg
  | createUserReply r reply filename =>
      have hquiet := (flagTruthful_iff_quiet hflag).1 htrue
      obtain ⟨r', g, g', hg, hans, hregs⟩ := answered_of_repliesTo h rfl
      obtain rfl : r = r' := Option.some_inj.1 hans.repliesTo
      have hlt := (List.getElem?_eq_some_iff.1 hg).1
      have hg' : g'.outstanding = none := by
        refine hquiet g' ?_
        rw [hregs]
        exact List.mem_set hlt g'
      constructor
      · intro r' k hk hne
        refine hquiet k (List.mem_of_getElem? (i := r') ?_)
        rw [hregs, List.getElem?_set_ne (Ne.symm hne), hk]
      · rintro uid rfl
        generalize s'.remote = m at hans
        cases hans with
        | noImageData _ _ himage => exact himage
        | uploading => exact absurd hg' (by simp)
  | _ => trivial

/-- As long as the flag tells the truth, nobody gets the reply of anything but `createUser`. -/
theorem FlagInv.createUserReply_of_repliesTo {e : Event Image} {r : ℕ} (hI : FlagInv s)
    (h : step P s e = some s') (hr : e.repliesTo = some r) :
    ∃ r' reply filename, e = .createUserReply r' reply filename := by
  obtain ⟨r', g, g', hg, hans, -⟩ := answered_of_repliesTo h hr
  obtain ⟨reply, filename, heq⟩ := hans.createUserReply (hI.first g (List.mem_of_getElem? hg))
  exact ⟨r', reply, filename, heq⟩

/-- A registration that is started sets the flag, or is over at once and clears it. -/
theorem FlagInv.started (hI : FlagInv s) (h : step P s .preformRegistration = some s')
    (hkeeps : KeepsFlag P s .preformRegistration) : FlagInv s' := by
  have hflag := isRegistering_eq h
  obtain rfl := Option.some_inj.1 h
  cases hc : s.viewModel.credentials P with
  | none =>
      simp only [hudAfter, hc] at hflag
      refine .of_quiet hflag fun g hg => ?_
      rw [preformRegistration_registrations, List.mem_append, List.mem_singleton] at hg
      rcases hg with hg | rfl
      · exact hkeeps hc g hg
      · rw [Register.started, hc]
        rfl
  | some c =>
      simp only [hudAfter, hc] at hflag
      have hstarted : (Register.started P s.viewModel).outstanding =
          some (.createUser c.1 c.2) := by
        rw [Register.started, hc]
        rfl
      constructor
      · refine iff_of_true hflag ⟨Register.started P s.viewModel, ?_, by rw [hstarted]; rfl⟩
        rw [preformRegistration_registrations]
        exact List.mem_append_right _ List.mem_cons_self
      · intro g hg call hcall
        rw [preformRegistration_registrations, List.mem_append, List.mem_singleton] at hg
        rcases hg with hg | rfl
        · exact hI.first g hg call hcall
        · rw [hstarted, Option.some_inj] at hcall
          exact ⟨c.1, c.2, hcall.symm⟩

/-- The reply of `createUser` clears the flag. -/
theorem FlagInv.createUserReply {r : ℕ} {reply : Except NSError String} {filename : String}
    (h : step P s (.createUserReply r reply filename) = some s')
    (hkeeps : KeepsFlag P s (.createUserReply r reply filename)) : FlagInv s' := by
  refine .of_quiet (isRegistering_eq h) fun k hk => ?_
  obtain ⟨r', g, g', hg, hans, hregs⟩ := answered_of_repliesTo h rfl
  obtain rfl : r = r' := Option.some_inj.1 hans.repliesTo
  obtain ⟨i, hi⟩ := List.mem_iff_getElem?.1 hk
  rw [hregs] at hi
  by_cases hir : i = r
  · -- the registration that is answered: no upload begins
    subst hir
    rw [List.getElem?_set_self (List.getElem?_eq_some_iff.1 hg).1, Option.some_inj] at hi
    subst hi
    generalize s'.remote = m at hans
    cases hans with
    | createUserFailed => rfl
    | noImageData => rfl
    | uploading _ _ himage hdata =>
        have hnone := hkeeps.2 _ rfl
        rw [himage, Option.bind_some, hdata] at hnone
        exact absurd hnone (by simp)
  · rw [List.getElem?_set_ne (Ne.symm hir)] at hi
    exact hkeeps.1 i k hi hir

/-- A step that meets the condition keeps the invariant. -/
theorem FlagInv.step {e : Event Image} (hI : FlagInv s) (h : step P s e = some s')
    (hkeeps : KeepsFlag P s e) : FlagInv s' := by
  cases e with
  | textDidChange sender text =>
      have hflag := isRegistering_eq h
      obtain rfl := Option.some_inj.1 h
      refine ⟨?_, hI.first⟩
      rw [FlagTruthful, hflag]
      exact hI.truthful
  | imagePicked image =>
      obtain rfl := Option.some_inj.1 h
      exact ⟨hI.truthful, hI.first⟩
  | signOut =>
      obtain rfl := Option.some_inj.1 h
      exact ⟨hI.truthful, hI.first⟩
  | preformRegistration => exact hI.started h hkeeps
  | createUserReply r reply filename => exact .createUserReply h hkeeps
  | putDataReply r error =>
      obtain ⟨_, _, _, heq⟩ := hI.createUserReply_of_repliesTo h rfl
      cases heq
  | downloadURLReply r reply =>
      obtain ⟨_, _, _, heq⟩ := hI.createUserReply_of_repliesTo h rfl
      cases heq
  | setDataReply r error =>
      obtain ⟨_, _, _, heq⟩ := hI.createUserReply_of_repliesTo h rfl
      cases heq

end Step

/-! ### The main result -/

/-- **When the flag tells the truth.**  It does in every state of a run, from the loaded screen,
exactly when it is always cleared by the last registration that waits, and this one is over. -/
theorem isRegistering_truthful_iff (P : Platform Image Data) {m : Remote}
    {s : Screen Image Data} {es : List (Event Image)}
    (hrun : run (step P) (Screen.loaded m) es = some s) :
    StatesMeet (step P) FlagTruthful (Screen.loaded m) es ↔
      StepsMeet (step P) (KeepsFlag P) (Screen.loaded m) es := by
  refine statesMeet_iff_stepsMeet (I := FlagInv) (fun s hI => hI.truthful)
    (fun s e s' _ hstep htrue => keepsFlag_of_truthful hstep htrue)
    (fun s e s' hI hstep hkeeps => hI.step hstep hkeeps) ?_ hrun
  constructor
  · refine iff_of_false (by simp [Screen.loaded]) ?_
    rintro ⟨g, hg, -⟩
    exact absurd hg List.not_mem_nil
  · intro g hg
    exact absurd hg List.not_mem_nil

/-- A form that does not pass the guard, and then an account that is refused. -/
def refusedTwice : List (Event (Option ℕ)) :=
  .preformRegistration :: fillForm ++
    [.preformRegistration,
      .createUserReply 1 (.error { domain := "in use", code := 17007 }) "photo"]

theorem isRegistering_truthful_iff_refused :
    ∃ s, run (step plainPlatform) (Screen.loaded emptyRemote) refusedTwice = some s ∧
      (StatesMeet (step plainPlatform) FlagTruthful (Screen.loaded emptyRemote) refusedTwice ↔
        StepsMeet (step plainPlatform) (KeepsFlag plainPlatform) (Screen.loaded emptyRemote)
          refusedTwice) :=
  ⟨_, rfl, isRegistering_truthful_iff plainPlatform rfl⟩

/-- **The flag goes out while the photo is being uploaded.** -/
theorem isRegistering_false_while_uploading :
    ∃ s, run (step plainPlatform) (Screen.loaded emptyRemote)
        (fillForm ++ [.preformRegistration, .createUserReply 0 (.ok "u1") "photo"]) = some s ∧
      s.viewModel.isRegistering = some false ∧
      (∃ g ∈ s.registrations, g.outstanding = some (.putData "/images/photo" (some 7) 7)) ∧
      ¬ FlagTruthful s := by
  refine ⟨_, rfl, rfl, ⟨_, List.mem_cons_self, rfl⟩, fun h => ?_⟩
  exact absurd (h.2 ⟨_, List.mem_cons_self, rfl⟩) (by decide)

end Register
