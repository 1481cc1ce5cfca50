/-
**The HUD of the registration screen.**

The registration screen has one HUD for all registrations.  It is shown when a registration is
started, and a dismissal after two seconds is scheduled when an account has been made or refused.
A show that comes while the HUD fades out is dropped, and a delay that was scheduled for one
registration dismisses the HUD under the next.  So the HUD always goes away in the end, but it stays
for a registration that waits only under a condition on the steps.

The model joins `TinderFirestore/RegisterViewModel.lean` and `TinderFirestore/ProgressHud.lean`:
what the observer of `isRegistering` and the completion closure of `registerBtnHandle` call becomes
calls of the HUD.

Main definitions:

* `Register.hudCalls` — the calls of the HUD that an event makes;
* `Register.Display`, `Register.Display.step` — **the screen with its HUD**;
* `Register.Screen.WaitsForAccount` — some registration waits for its account.

Main results:

* `Register.register_hud_leaves` — **the HUD is never left behind**;
* `Register.register_hud_stays_iff` — **when the HUD stays for every registration that waits**;
* `Register.register_hud_labels` — what can be read on the HUD is what the view model's observers
  have written.
-/

import TinderFirestore.ProgressHudLeave
import TinderFirestore.RegisterCall

set_option relaxedAutoImplicit false
set_option autoImplicit false

namespace Register

open Firestore Profile EventRun ProgressHud

variable {Image Data View : Type*}

/-! ### The calls of the HUD -/

/-- What the observer of `isRegistering` calls. -/
def observed (view : View) : Bool → List (Call View)
  | true => [.setText "Registering", .showInView view true]
  | false => [.dismissAfterDelay (2 * NSEC_PER_SEC) true, .setText "", .setDetailText ""]

/-- What the completion closure of `registerBtnHandle` calls. -/
def completed (P : Platform Image Data) : Option NSError → List (Call View)
  | some e => [.setDetailText (P.localizedDescription e)]
  | none => []

/-- The calls of the HUD that an event makes, in order. -/
def hudCalls (P : Platform Image Data) (view : View) (s : Screen Image Data) :
    Event Image → List (Call View)
  | .preformRegistration =>
    observed view true ++
      match s.viewModel.credentials P with
      | none => observed view false ++ completed P (some localError)
      | some _ => []
  | .createUserReply _ (.error e) _ => completed P (some e) ++ observed view false
  | .createUserReply _ (.ok _) _ => observed view false
  | .putDataReply _ (some e) => completed P (some e)
  | .downloadURLReply _ (.error e) => completed P (some e)
  | .setDataReply _ error => completed P error
  | _ => []

/-! ### The screen with its HUD -/

structure Display (Image Data View : Type*) where
  screen : Screen Image Data
  hudView : JGProgressHUD View

/-- What can happen to the screen and to its HUD. -/
inductive DisplayEvent (Image View : Type*)
  | screen (e : Event Image)
  | hudView (e : ProgressHud.Event View)

/-- **The screen with its HUD.**  The calls of the HUD are those that the screen makes. -/
def Display.step (P : Platform Image Data) (view : View) (d : Display Image Data View) :
    ℤ × DisplayEvent Image View → Option (Display Image Data View)
  | (now, .screen e) =>
    (Register.step P d.screen e).map fun s' =>
      { screen := s', hudView := d.hudView.performAll now (hudCalls P view d.screen e) }
  | (_, .hudView (.call _)) => none
  | (now, .hudView e) =>
    (ProgressHud.step d.hudView (now, e)).map fun hud => { d with hudView := hud }

/-- The screen when it has been loaded. -/
structure Display.Loaded (d : Display Image Data View) : Prop where
  started : d.screen.Started
  hudView : d.hudView = JGProgressHUD.init
  labels : d.screen.view.hudView.textLabel = "" ∧ d.screen.view.hudView.detailTextLabel = ""

theorem Display.step_screen {P : Platform Image Data} {view : View}
    {d d' : Display Image Data View} {now : ℤ} {e : Event Image}
    (h : d.step P view (now, .screen e) = some d') :
    Register.step P d.screen e = some d'.screen ∧
      d'.hudView = d.hudView.performAll now (hudCalls P view d.screen e) := by
  obtain ⟨s', hs', rfl⟩ := Option.map_eq_some_iff.1 h
  exact ⟨hs', rfl⟩

theorem Display.step_hudView {P : Platform Image Data} {view : View}
    {d d' : Display Image Data View} {now : ℤ} {e : ProgressHud.Event View}
    (h : d.step P view (now, .hudView e) = some d') :
    (∀ c, e ≠ .call c) ∧ ProgressHud.step d.hudView (now, e) = some d'.hudView ∧
      d'.screen = d.screen := by
  cases e with
  | call c => exact absurd h (by simp [Display.step])
  | layoutSubviews | animationFinished | delayOver i =>
      simp only [Display.step] at h
      obtain ⟨hud, hhud, rfl⟩ := Option.map_eq_some_iff.1 h
      exact ⟨fun c => by simp, hhud, rfl⟩

/-! ### Waiting for an account -/

/-- A registration waits for the reply of `createUser`. -/
def Registration.WaitsForAccount (g : Registration Image Data) : Prop :=
  ∃ email password, g.outstanding = some (.createUser email password)

/-- Some registration does. -/
def Screen.WaitsForAccount (s : Screen Image Data) : Prop :=
  ∃ g ∈ s.registrations, g.WaitsForAccount

theorem Screen.Quiet.not_waits {s : Screen Image Data} (h : s.Quiet) : ¬ s.WaitsForAccount := by
  rintro ⟨g, hg, email, password, hout⟩
  exact absurd ((h g hg).symm.trans hout) (by simp)

section Waiting

variable {P : Platform Image Data} {s s' : Screen Image Data} {e : Event Image}

theorem started_waits_iff (vm : RegisterViewModel Image) :
    (started P vm).WaitsForAccount ↔ vm.credentials P ≠ none := by
  rw [started]
  cases vm.credentials P with
  | none =>
      refine iff_of_false ?_ (by simp)
      rintro ⟨email, password, hout⟩
      exact absurd hout (by simp [Registration.complete, Registration.new])
  | some c => exact iff_of_true ⟨c.1, c.2, rfl⟩ (by simp)

/-- The registration that a reply has moved does not wait for its account. -/
theorem Answer.not_waits {r : ℕ} {g g' : Registration Image Data} {m : Remote}
    (h : Answer P s r g e g' m) : ¬ g'.WaitsForAccount := by
  rintro ⟨email, password, hout⟩
  cases h <;> exact absurd hout (by simp)

/-- The registration that another call than `createUser` answers did not wait for its account. -/
theorem Answer.not_waited {r : ℕ} {g g' : Registration Image Data} {m : Remote}
    (h : Answer P s r g e g' m) (he : ∀ r reply filename, e ≠ .createUserReply r reply filename) :
    ¬ g.WaitsForAccount := by
  rintro ⟨email, password, hout⟩
  cases h with
  | createUserFailed hcall => exact he _ _ _ rfl
  | noImageData hcall hfresh himage => exact he _ _ _ rfl
  | uploading hcall hfresh himage hdata => exact he _ _ _ rfl
  | putDataFailed hcall | uploaded hcall | downloadURLFailed hcall | noCurrentUser hcall huser
  | writing hcall huser | setDataFailed hcall | setDataDone hcall =>
      exact absurd (hcall.symm.trans hout) (by simp)

theorem preformRegistration_waits_iff :
    (s.preformRegistration P).WaitsForAccount ↔
      s.WaitsForAccount ∨ s.viewModel.credentials P ≠ none := by
  simp only [Screen.WaitsForAccount, preformRegistration_registrations, List.mem_append,
    List.mem_singleton, or_and_right, exists_or, exists_eq_left, started_waits_iff]

/-- A reply does not make a registration wait for its account. -/
theorem waits_of_answered (h : Answered P s e s') (hwaits : s'.WaitsForAccount) :
    s.WaitsForAccount := by
  obtain ⟨r, g, g', hg, hans, hregs⟩ := h
  obtain ⟨g₁, hmem, hw⟩ := hwaits
  rw [hregs] at hmem
  rcases List.mem_or_eq_of_mem_set hmem with hold | rfl
  · exact ⟨g₁, hold, hw⟩
  · exact absurd hw hans.not_waits

/-- The reply of another call than `createUser` ends no wait for an account. -/
theorem waits_after_answered (h : Answered P s e s')
    (he : ∀ r reply filename, e ≠ .createUserReply r reply filename)
    (hwaits : s.WaitsForAccount) : s'.WaitsForAccount := by
  obtain ⟨r, g, g', hg, hans, hregs⟩ := h
  obtain ⟨g₁, hmem, hw⟩ := hwaits
  obtain ⟨i, hi⟩ := List.mem_iff_getElem?.1 hmem
  have hne : r ≠ i := by
    rintro rfl
    obtain rfl := Option.some_inj.1 (hg.symm.trans hi)
    exact hans.not_waited he hw
  refine ⟨g₁, List.mem_of_getElem? (i := i) ?_, hw⟩
  rw [hregs, List.getElem?_set_ne hne, hi]

theorem waits_after (h : step P s e = some s')
    (he : ∀ r reply filename, e ≠ .createUserReply r reply filename)
    (hwaits : s.WaitsForAccount) : s'.WaitsForAccount := by
  rcases step_cases h with ⟨-, hregs, -⟩ | ⟨-, -, hregs⟩ | hans
  · rwa [Screen.WaitsForAccount, hregs]
  · obtain ⟨g, hmem, hw⟩ := hwaits
    exact ⟨g, hregs ▸ List.mem_append_left _ hmem, hw⟩
  · exact waits_after_answered hans he hwaits

/-- A wait for an account begins when a registration passes the guard, and at no other moment. -/
theorem waits_before (h : step P s e = some s') (hwaits : s'.WaitsForAccount) :
    s.WaitsForAccount ∨ (e = .preformRegistration ∧ s.viewModel.credentials P ≠ none) := by
  cases e with
  | textDidChange sender text =>
      rcases step_cases h with ⟨-, hregs, -⟩ | ⟨hno, -⟩ | hans
      · rw [Screen.WaitsForAccount, hregs] at hwaits
        exact Or.inl hwaits
      · obtain rfl := Option.some_inj.1 h
        exact Or.inl hwaits
      · exact Or.inl (waits_of_answered hans hwaits)
  | imagePicked image =>
      obtain rfl := Option.some_inj.1 h
      exact Or.inl hwaits
  | signOut =>
      obtain rfl := Option.some_inj.1 h
      exact Or.inl hwaits
  | preformRegistration =>
      obtain rfl := Option.some_inj.1 h
      exact (preformRegistration_waits_iff.1 hwaits).imp_right fun hc => ⟨rfl, hc⟩
  | createUserReply r reply filename =>
      exact Or.inl (waits_of_answered (answered_createUserReply h) hwaits)
  | putDataReply r error => exact Or.inl (waits_of_answered (answered_putDataReply h) hwaits)
  | downloadURLReply r reply =>
      exact Or.inl (waits_of_answered (answered_downloadURLReply h) hwaits)
  | setDataReply r error => exact Or.inl (waits_of_answered (answered_setDataReply h) hwaits)

end Waiting

/-! ### The calls, one event at a time -/

section Calls

variable {P : Platform Image Data} {view : View} {s : Screen Image Data}
  {hud : JGProgressHUD View} {now : ℤ}

theorem performAll_append (calls calls' : List (Call View)) :
    hud.performAll now (calls ++ calls') = (hud.performAll now calls).performAll now calls' :=
  List.foldl_append

theorem observed_false_waits (view : View) : ∀ c ∈ observed view false, c.Waits := by
  simp [observed, Call.Waits]

theorem completed_waits (error : Option NSError) :
    ∀ c ∈ (completed P error : List (Call View)), c.Waits := by
  cases error <;> simp [completed, Call.Waits]

/-- Only the start of a registration shows the HUD, and nothing dismisses it at once. -/
theorem hudCalls_waits {e : Event Image} (he : e ≠ .preformRegistration) :
    ∀ c ∈ hudCalls P view s e, c.Waits := by
  cases e with
  | preformRegistration => exact absurd rfl he
  | createUserReply r reply filename =>
      cases reply with
      | error e =>
          exact List.forall_mem_append.2 ⟨completed_waits (some e), observed_false_waits view⟩
      | ok uid => exact observed_false_waits view
  | putDataReply r error => cases error <;> simp [hudCalls, completed, Call.Waits]
  | downloadURLReply r reply => cases reply <;> simp [hudCalls, completed, Call.Waits]
  | setDataReply r error => exact completed_waits error
  | textDidChange sender text | imagePicked image | signOut => simp [hudCalls]

/-- No call of the screen sets the minimum display time. -/
theorem hudCalls_ne_setMinimumDisplayTime (e : Event Image) :
    ∀ c ∈ hudCalls P view s e, ∀ time, c ≠ .setMinimumDisplayTime time := by
  intro c hc time
  rintro rfl
  cases e with
  | preformRegistration =>
      simp only [hudCalls] at hc
      split at hc <;> simp [observed, completed] at hc
  | createUserReply r reply filename => cases reply <;> simp [hudCalls, observed, completed] at hc
  | putDataReply r error => cases error <;> simp [hudCalls, completed] at hc
  | downloadURLReply r reply => cases reply <;> simp [hudCalls, completed] at hc
  | setDataReply r error => cases error <;> simp [hudCalls, completed] at hc
  | textDidChange sender text | imagePicked image | signOut => simp [hudCalls] at hc

/-- The calls of a registration that is over put the HUD on its way. -/
theorem leaving_observed_false (view : View) :
    Leaving (hud.performAll now (observed view false)) :=
  ((leaving_dismissAfterDelay (2 * NSEC_PER_SEC)).relabel "" _).relabel _ ""

theorem hudCalls_preformRegistration_none (hc : s.viewModel.credentials P = none) :
    hudCalls P view s .preformRegistration =
      observed view true ++ (observed view false ++ completed P (some localError)) := by
  simp only [hudCalls, hc]

theorem hudCalls_preformRegistration_some (hc : s.viewModel.credentials P ≠ none) :
    hudCalls P view s .preformRegistration = observed view true := by
  obtain ⟨c, hc'⟩ := Option.ne_none_iff_exists'.1 hc
  simp only [hudCalls, hc', List.append_nil]

theorem leaving_hudCalls_createUserReply (r : ℕ) (reply : Except NSError String)
    (filename : String) :
    Leaving (hud.performAll now (hudCalls P view s (.createUserReply r reply filename))) := by
  cases reply with
  | error e =>
      rw [hudCalls, performAll_append]
      exact leaving_observed_false view
  | ok uid => exact leaving_observed_false view

end Calls

/-! ### The HUD goes away -/

/-- A HUD on the screen is that of a registration that waits, or it is about to leave. -/
structure HudInv (d : Display Image Data View) : Prop where
  consistent : Consistent d.hudView
  accounted : d.screen.WaitsForAccount ∨ Leaving d.hudView

theorem HudInv.step {P : Platform Image Data} {view : View} {d d' : Display Image Data View}
    {e : ℤ × DisplayEvent Image View} (h : HudInv d) (hstep : d.step P view e = some d') :
    HudInv d' := by
  obtain ⟨now, e⟩ := e
  cases e with
  | screen e =>
      obtain ⟨hs, hhud⟩ := Display.step_screen hstep
      refine ⟨hhud ▸ h.consistent.performAll _, ?_⟩
      rw [hhud]
      by_cases hpre : e = .preformRegistration
      · subst hpre
        obtain hs' := Option.some_inj.1 hs
        by_cases hc : d.screen.viewModel.credentials P = none
        · rw [hudCalls_preformRegistration_none hc, performAll_append, performAll_append]
          exact Or.inr ((leaving_observed_false view).performAll (completed_waits _))
        · exact Or.inl (hs' ▸ preformRegistration_waits_iff.2 (Or.inr hc))
      · by_cases hreply : ∃ r reply filename, e = .createUserReply r reply filename
        · obtain ⟨r, reply, filename, rfl⟩ := hreply
          exact Or.inr (leaving_hudCalls_createUserReply r reply filename)
        · refine h.accounted.imp (waits_after hs fun r reply filename heq => ?_) fun hleaving =>
            hleaving.performAll (hudCalls_waits hpre)
          exact hreply ⟨r, reply, filename, heq⟩
  | hudView e =>
      obtain ⟨hcall, hhud, hscreen⟩ := Display.step_hudView hstep
      refine ⟨h.consistent.step hhud, ?_⟩
      rw [hscreen]
      refine h.accounted.imp_right fun hleaving => hleaving.step h.consistent ?_ hhud
      cases e with
      | call c => exact absurd rfl (hcall c)
      | layoutSubviews | animationFinished | delayOver i => exact id

/-- **The HUD is never left behind.**  However many registrations are started and however their
replies, the animations and the delays of the HUD come: when no registration waits for its account
any more and nothing of the HUD is pending, it is off the screen. -/
theorem register_hud_leaves {P : Platform Image Data} {view : View}
    {d₀ d : Display Image Data View} {es : List (ℤ × DisplayEvent Image View)}
    (h₀ : d₀.Loaded) (hrun : run (Display.step P view) d₀ es = some d)
    (hquiet : ¬ d.screen.WaitsForAccount) (hanim : d.hudView.animations = 0)
    (hdelayed : d.hudView.delayed = []) : d.hudView.visible = false := by
  have hstart : HudInv d₀ :=
    ⟨h₀.hudView ▸ consistent_init, Or.inr (h₀.hudView ▸ fun hno => absurd rfl hno)⟩
  have hfinal : HudInv d := invariant_run (fun _ _ _ h hstep => h.step hstep) hstart hrun
  exact (hfinal.accounted.resolve_left hquiet).gone hfinal.consistent hanim hdelayed

/-- A filled form, with a fresh HUD. -/
def filledDisplay : Display (Option ℕ) ℕ Unit where
  screen := filledScreen none
  hudView := .init

theorem filledDisplay_loaded : filledDisplay.Loaded := ⟨⟨rfl, rfl⟩, rfl, rfl, rfl⟩

/-- A registration is refused, and the HUD goes through all its animations. -/
def refused : List (ℤ × DisplayEvent (Option ℕ) Unit) :=
  [(0, .screen .preformRegistration), (1, .hudView .animationFinished),
    (2, .screen (.createUserReply 0 (.error localError) "photo")),
    (3 * NSEC_PER_SEC, .hudView (.delayOver 0)), (4 * NSEC_PER_SEC, .hudView .animationFinished)]

theorem register_hud_leaves_refused :
    ∃ d, run (Display.step plainPlatform ()) filledDisplay refused = some d ∧
      d.hudView.visible = false := by
  have hrun : run (Display.step plainPlatform ()) filledDisplay refused = some _ := rfl
  refine ⟨_, hrun, register_hud_leaves filledDisplay_loaded hrun (Screen.Quiet.not_waits ?_) rfl rfl⟩
  intro g hg
  obtain rfl := List.mem_singleton.1 hg
  rfl

/-! ### The HUD stays -/

/-- The HUD stays as long as some registration waits for its account. -/
def HudStays (d : Display Image Data View) : Prop :=
  d.screen.WaitsForAccount → Staying d.hudView

/-- A registration that passes the guard is started while the HUD is off the screen or stays, and no
delay of the HUD ends while a registration waits. -/
def HudUndisturbed (P : Platform Image Data) (d : Display Image Data View) :
    ℤ × DisplayEvent Image View → Prop
  | (_, .screen .preformRegistration) =>
    d.screen.viewModel.credentials P ≠ none → d.hudView.targetView = none ∨ Staying d.hudView
  | (_, .hudView (.delayOver _)) => ¬ d.screen.WaitsForAccount
  | _ => True

/-- What holds as long as the HUD stays. -/
structure StayInv (d : Display Image Data View) : Prop where
  consistent : Consistent d.hudView
  minimumDisplayTime : d.hudView.minimumDisplayTime = 0
  stays : HudStays d

section Stays

variable {P : Platform Image Data} {view : View} {d d' : Display Image Data View}
  {e : ℤ × DisplayEvent Image View}

theorem setText_targetView (hud : JGProgressHUD View) (text : String) :
    (hud.setText text).targetView = hud.targetView := by
  unfold JGProgressHUD.setText JGProgressHUD.layoutHUD
  split_ifs <;> rfl

/-- The start of a registration makes a HUD stay that is off the screen, and nothing else of it. -/
theorem staying_observed_true {hud : JGProgressHUD View} {now : ℤ} (hC : Consistent hud) :
    Staying (hud.performAll now (observed view true)) ↔ hud.targetView = none ∨ Staying hud := by
  have hshow : hud.performAll now (observed view true) =
      (hud.setText "Registering").showInView now view true := rfl
  have hlabel : Staying (hud.setText "Registering") ↔ Staying hud :=
    staying_relabel "Registering" hud.detailTextLabel
  rw [hshow]
  by_cases hnone : hud.targetView = none
  · refine iff_of_true (staying_showInView ?_ ?_ view) (Or.inl hnone)
    · exact hC.relabel "Registering" hud.detailTextLabel
    · rw [setText_targetView, hnone]
  · rw [showInView_of_target (by rwa [setText_targetView]), hlabel, or_iff_right hnone]

theorem StayInv.keeps (h : StayInv d) (hstep : d.step P view e = some d') :
    Consistent d'.hudView ∧ d'.hudView.minimumDisplayTime = 0 := by
  obtain ⟨now, e⟩ := e
  cases e with
  | screen e =>
      obtain ⟨-, hhud⟩ := Display.step_screen hstep
      rw [hhud]
      exact ⟨h.consistent.performAll _,
        (performAll_minimumDisplayTime (hudCalls_ne_setMinimumDisplayTime e)).trans
          h.minimumDisplayTime⟩
  | hudView e =>
      obtain ⟨hcall, hhud, -⟩ := Display.step_hudView hstep
      exact ⟨h.consistent.step hhud, (step_keeps hcall hhud).2.trans h.minimumDisplayTime⟩

/-- A step after which the HUD stays has met the condition. -/
theorem StayInv.meets (h : StayInv d) (hstep : d.step P view e = some d') (hstays : HudStays d') :
    HudUndisturbed P d e := by
  obtain ⟨now, e⟩ := e
  cases e with
  | screen e =>
      obtain ⟨hs, hhud⟩ := Display.step_screen hstep
      by_cases hpre : e = .preformRegistration
      · subst hpre
        intro hc
        have hwaits : d'.screen.WaitsForAccount :=
          Option.some_inj.1 hs ▸ preformRegistration_waits_iff.2 (Or.inr hc)
        have hstay := hstays hwaits
        rw [hhud, hudCalls_preformRegistration_some hc] at hstay
        exact (staying_observed_true h.consistent).1 hstay
      · cases e with
        | preformRegistration => exact absurd rfl hpre
        | _ => trivial
  | hudView e =>
      obtain ⟨hcall, hhud, hscreen⟩ := Display.step_hudView hstep
      cases e with
      | delayOver i =>
          intro hwaits
          exact not_staying_delayOver h.consistent h.minimumDisplayTime hhud
            (hstays (hscreen ▸ hwaits))
      | call c | layoutSubviews | animationFinished => trivial

/-- A step that meets the condition keeps the HUD. -/
theorem StayInv.step (h : StayInv d) (hstep : d.step P view e = some d')
    (hmeet : HudUndisturbed P d e) : StayInv d' := by
  obtain ⟨hC, htime⟩ := h.keeps hstep
  refine ⟨hC, htime, fun hwaits => ?_⟩
  obtain ⟨now, e⟩ := e
  cases e with
  | screen e =>
      obtain ⟨hs, hhud⟩ := Display.step_screen hstep
      rw [hhud]
      by_cases hpre : e = .preformRegistration
      · subst hpre
        by_cases hc : d.screen.viewModel.credentials P = none
        · -- it is another registration that waits
          have hwaited : d.screen.WaitsForAccount :=
            (preformRegistration_waits_iff.1 (Option.some_inj.1 hs ▸ hwaits)).resolve_right
              fun hne => hne hc
          rw [hudCalls_preformRegistration_none hc, performAll_append, performAll_append,
            staying_performAll (completed_waits _), staying_performAll (observed_false_waits view)]
          exact (staying_observed_true h.consistent).2 (Or.inr (h.stays hwaited))
        · rw [hudCalls_preformRegistration_some hc]
          exact (staying_observed_true h.consistent).2 (hmeet hc)
      · rw [staying_performAll (hudCalls_waits hpre)]
        exact h.stays ((waits_before hs hwaits).resolve_right fun hand => hpre hand.1)
  | hudView e =>
      obtain ⟨hcall, hhud, hscreen⟩ := Display.step_hudView hstep
      rw [hscreen] at hwaits
      refine (h.stays hwaits).step h.consistent hcall (fun i heq => ?_) hhud
      subst heq
      exact hmeet hwaits

end Stays

/-- **When the HUD stays for every registration that waits.**  In all states of a run, the HUD is on
the screen and has not been asked to leave whenever some registration waits for its account, exactly
if at every step: a registration is started only while the HUD is off the screen or stays, not while
it leaves, and a delay that an earlier registration has scheduled never ends while one waits. -/
theorem register_hud_stays_iff {P : Platform Image Data} {view : View}
    {d₀ d : Display Image Data View} {es : List (ℤ × DisplayEvent Image View)} (h₀ : d₀.Loaded)
    (hrun : run (Display.step P view) d₀ es = some d) :
    StatesMeet (Display.step P view) HudStays d₀ es ↔
      StepsMeet (Display.step P view) (HudUndisturbed P) d₀ es := by
  have hstart : StayInv d₀ := by
    refine ⟨h₀.hudView ▸ consistent_init, h₀.hudView ▸ rfl, fun hwaits => ?_⟩
    obtain ⟨g, hg, -⟩ := hwaits
    rw [h₀.started.registrations] at hg
    exact absurd hg List.not_mem_nil
  exact statesMeet_iff_stepsMeet (fun d h => h.stays)
    (fun d e d' h hstep hstays => h.meets hstep hstays)
    (fun d e d' h hstep hmeet => h.step hstep hmeet) hstart hrun

/-- A registration is started again before the delay of the first one is over. -/
def startedAgain : List (ℤ × DisplayEvent (Option ℕ) Unit) :=
  [(0, .screen .preformRegistration), (1, .hudView .animationFinished),
    (2, .screen (.createUserReply 0 (.error localError) "photo")), (3, .screen .preformRegistration),
    (3 * NSEC_PER_SEC, .hudView (.delayOver 0))]

/-- The HUD leaves the second registration. -/
theorem register_hud_stays_iff_startedAgain :
    ∃ d, run (Display.step plainPlatform ()) filledDisplay startedAgain = some d ∧
      ¬ StatesMeet (Display.step plainPlatform ()) HudStays filledDisplay startedAgain := by
  have hrun : run (Display.step plainPlatform ()) filledDisplay startedAgain = some _ := rfl
  refine ⟨_, hrun, fun hstates => ?_⟩
  have hmeet := (register_hud_stays_iff filledDisplay_loaded hrun).1 hstates
  have hdelay := ((((hmeet.2 _ rfl).2 _ rfl).2 _ rfl).2 _ rfl).1
  -- the second registration still waits when the delay ends
  exact hdelay ⟨_, List.mem_cons_of_mem _ List.mem_cons_self, _, _, rfl⟩

/-! ### The labels -/

/-- The texts of the labels, as `TinderFirestore/RegisterViewModel.lean` has them. -/
def Screen.labels (s : Screen Image Data) : String × String :=
  (s.view.hudView.textLabel, s.view.hudView.detailTextLabel)

section Labels

variable (P : Platform Image Data) (s : Screen Image Data)

theorem preformRegistration_labels :
    (s.preformRegistration P).labels =
      if s.viewModel.credentials P = none then ("", P.localizedDescription localError)
      else ("Registering", s.labels.2) := by
  have hvm : ({ s with registrations := s.registrations ++ [Registration.new] }.setIsRegistering
      true).viewModel.credentials P = s.viewModel.credentials P := rfl
  rw [Screen.preformRegistration, hvm]
  cases s.viewModel.credentials P with
  | none => simp [Screen.labels]
  | some c => rfl

end Labels

/-- **The observers and the HUD agree**: an event writes the labels as its calls do. -/
theorem step_labels {P : Platform Image Data} (view : View) {s s' : Screen Image Data}
    {e : Event Image} (h : step P s e = some s') :
    s'.labels = (hudCalls P view s e).foldl relabeled s.labels := by
  cases e with
  | textDidChange sender text =>
      rw [← Option.some_inj.1 h]
      cases sender <;> rfl
  | imagePicked image => rw [← Option.some_inj.1 h]; rfl
  | signOut => rw [← Option.some_inj.1 h]; rfl
  | preformRegistration =>
      rw [← Option.some_inj.1 h, preformRegistration_labels]
      split
      · next hc => rw [hudCalls_preformRegistration_none hc]; rfl
      · next hc => rw [hudCalls_preformRegistration_some hc]; rfl
  | createUserReply r reply filename =>
      simp only [step, Screen.createUserReply] at h
      split at h
      · split at h
        · rw [← Option.some_inj.1 h]
          rfl
        · split_ifs at h
          rw [← Option.some_inj.1 h]
          rfl
      · simp at h
  | putDataReply r error =>
      simp only [step, Screen.putDataReply] at h
      split at h
      · rw [← Option.some_inj.1 h]
        cases error <;> rfl
      · simp at h
  | downloadURLReply r reply =>
      simp only [step, Screen.downloadURLReply] at h
      split at h
      · rw [← Option.some_inj.1 h]
        cases reply with
        | error e => rfl
        | ok url => simp [Screen.downloadURLCallback, hudCalls, Screen.labels]
      · simp at h
  | setDataReply r error =>
      simp only [step, Screen.setDataReply] at h
      split at h
      · split at h <;>
        · rw [← Option.some_inj.1 h]
          rfl
      · simp at h

/-- The HUD is in agreement with its flags, and its labels with the observers. -/
structure LabelInv (d : Display Image Data View) : Prop where
  consistent : Consistent d.hudView
  labels : d.hudView.labels = d.screen.labels

theorem LabelInv.step {P : Platform Image Data} {view : View} {d d' : Display Image Data View}
    {e : ℤ × DisplayEvent Image View} (h : LabelInv d) (hstep : d.step P view e = some d') :
    LabelInv d' := by
  obtain ⟨now, e⟩ := e
  cases e with
  | screen e =>
      obtain ⟨hs, hhud⟩ := Display.step_screen hstep
      refine ⟨hhud ▸ h.consistent.performAll _, ?_⟩
      rw [hhud, performAll_labels, h.labels, ← step_labels view hs]
  | hudView e =>
      obtain ⟨hcall, hhud, hscreen⟩ := Display.step_hudView hstep
      refine ⟨h.consistent.step hhud, ?_⟩
      rw [(step_keeps hcall hhud).1, h.labels, hscreen]

/-- **What can be read on the HUD.**  Whenever the HUD is on the screen and no animation of it runs,
its labels are laid out for the texts that the observer of `isRegistering` and the completion
closures have left, whatever was written while it faded in or out. -/
theorem register_hud_labels {P : Platform Image Data} {view : View}
    {d₀ d : Display Image Data View} {es : List (ℤ × DisplayEvent Image View)} (h₀ : d₀.Loaded)
    (hrun : run (Display.step P view) d₀ es = some d) (hvisible : d.hudView.visible = true)
    (hanim : d.hudView.animations = 0) : d.hudView.laidOut = some d.screen.labels := by
  have hstart : LabelInv d₀ := by
    refine ⟨h₀.hudView ▸ consistent_init, ?_⟩
    rw [h₀.hudView, Screen.labels, h₀.labels.1, h₀.labels.2]
    rfl
  have hfinal : LabelInv d := invariant_run (fun _ _ _ h hstep => h.step hstep) hstart hrun
  have hrest : d.hudView.transitioning = false := by
    by_contra hno
    rw [hfinal.consistent.animations, if_pos (Bool.of_not_eq_false hno)] at hanim
    exact absurd hanim Nat.one_ne_zero
  rw [← hfinal.labels]
  exact hfinal.consistent.laidOut (hfinal.consistent.toSteady.visible_iff.1 hvisible) hrest

/-- The labels change while the HUD fades in. -/
theorem register_hud_labels_refused :
    ∃ d, run (Display.step plainPlatform ()) filledDisplay
        [(0, .screen .preformRegistration), (1, .screen (.createUserReply 0 (.error localError)
          "photo")), (2, .hudView .animationFinished)] = some d ∧
      d.hudView.laidOut = some d.screen.labels := by
  have hrun : run (Display.step plainPlatform ()) filledDisplay
      [(0, .screen .preformRegistration), (1, .screen (.createUserReply 0 (.error localError)
        "photo")), (2, .hudView .animationFinished)] = some _ := rfl
  exact ⟨_, hrun, register_hud_labels filledDisplay_loaded hrun rfl rfl⟩

end Register
