/-
**The progress HUD.**

The screens of the app tell that they are busy by a HUD that fades in and out.  While one of its
animations runs the HUD is *transitioning*: a call that shows it is dropped then, and a call that
dismisses it is remembered, but only while it is fading in does that make a difference.  A delayed
dismissal is a block on the main queue; nothing calls it off, so it also dismisses a HUD that has
been shown again since.

The model follows `JGProgressHUD` as long as its client leaves it the fade animation and the
indicator view that it has by default: an animation that is replaced while it runs is never reported
as finished.  The fields that say nothing about whether the HUD is on the screen or what its labels
were laid out for are left out.  The time is an argument of the methods that read the clock; times
and delays are in nanoseconds.

Main definitions:

* `ProgressHud.JGProgressHUD`, `ProgressHud.JGProgressHUD.init` — a HUD, and a fresh one;
* `ProgressHud.JGProgressHUD.showInView`, `ProgressHud.JGProgressHUD.dismissAnimated`,
  `ProgressHud.JGProgressHUD.dismissAfterDelay` — its methods;
* `ProgressHud.Event`, `ProgressHud.step` — **what happens to a HUD.**

Main results:

* `ProgressHud.Consistent`, `ProgressHud.consistent_run` — **the flags of a HUD agree with what is
  on the screen**, whatever is called and in whatever order its animations and delays end.
-/

import TinderFirestore.EventRun
import Mathlib.Algebra.Order.Ring.Rat

set_option relaxedAutoImplicit false
set_option autoImplicit false

namespace ProgressHud

open EventRun

variable {View : Type*}

/-! ### The HUD -/

def NSEC_PER_SEC : ℤ := 1000000000

/-- A block that `dismissAfterDelay` has put on the main queue. -/
structure DelayedDismissal where
  deadline : ℤ
  animated : Bool
  deriving DecidableEq

/-- The state of a HUD. -/
structure JGProgressHUD (View : Type*) where
  targetView : Option View
  superview : Option View
  hidden : Bool
  alpha : ℚ
  transitioning : Bool
  updateAfterAppear : Bool
  dismissAfterTransitionFinished : Bool
  dismissAfterTransitionFinishedWithAnimation : Bool
  displayTimestamp : ℤ
  minimumDisplayTime : ℤ
  textLabel : String
  detailTextLabel : String
  /-- The texts of the labels when `layoutHUD` last placed them. -/
  laidOut : Option (String × String)
  /-- `_presenting` of the animation. -/
  presenting : Bool
  /-- The animations whose completion has not been called yet. -/
  animations : ℕ
  delayed : List DelayedDismissal
  deriving DecidableEq

namespace JGProgressHUD

/-- `initWithStyle:`. -/
def init : JGProgressHUD View where
  targetView := none
  superview := none
  hidden := true
  alpha := 1
  transitioning := false
  updateAfterAppear := false
  dismissAfterTransitionFinished := false
  dismissAfterTransitionFinishedWithAnimation := false
  displayTimestamp := 0
  minimumDisplayTime := 0
  textLabel := ""
  detailTextLabel := ""
  laidOut := none
  presenting := false
  animations := 0
  delayed := []

/-- `isVisible`. -/
def visible (hud : JGProgressHUD View) : Bool := hud.superview.isSome

def layoutHUD (hud : JGProgressHUD View) : JGProgressHUD View :=
  if hud.transitioning then { hud with updateAfterAppear := true }
  else if hud.targetView.isNone then hud
  else { hud with laidOut := some (hud.textLabel, hud.detailTextLabel) }

/-- `textLabel.text = text`, which the HUD observes. -/
def setText (hud : JGProgressHUD View) (text : String) : JGProgressHUD View :=
  { hud with textLabel := text }.layoutHUD

/-- `detailTextLabel.text = text`. -/
def setDetailText (hud : JGProgressHUD View) (text : String) : JGProgressHUD View :=
  { hud with detailTextLabel := text }.layoutHUD

/-! ### Dismissing -/

def dismissAfterDelay (hud : JGProgressHUD View) (now delay : ℤ) (animated : Bool) :
    JGProgressHUD View :=
  { hud with delayed := hud.delayed ++ [{ deadline := now + delay, animated := animated }] }

def cleanUpAfterDismissal (hud : JGProgressHUD View) : JGProgressHUD View :=
  { hud with
    hidden := true
    superview := none
    transitioning := false
    dismissAfterTransitionFinished := false
    dismissAfterTransitionFinishedWithAnimation := false
    targetView := none }

/-- `hide` of `JGProgressHUDFadeAnimation`. -/
def animationHide (hud : JGProgressHUD View) : JGProgressHUD View :=
  { hud with presenting := false, alpha := 0, animations := hud.animations + 1 }

/-- Whether the minimum display time keeps the HUD on the screen. -/
def TooEarly (hud : JGProgressHUD View) (now : ℤ) : Prop :=
  hud.minimumDisplayTime > 0 ∧ hud.displayTimestamp > 0 ∧
    now - hud.displayTimestamp < hud.minimumDisplayTime

instance (hud : JGProgressHUD View) (now : ℤ) : Decidable (hud.TooEarly now) :=
  inferInstanceAs (Decidable (_ ∧ _))

def dismissAnimated (hud : JGProgressHUD View) (now : ℤ) (animated : Bool) :
    JGProgressHUD View :=
  if hud.transitioning then
    { hud with
      dismissAfterTransitionFinished := true
      dismissAfterTransitionFinishedWithAnimation := animated }
  else if hud.targetView.isNone then hud
  else if hud.TooEarly now then
    hud.dismissAfterDelay now (hud.minimumDisplayTime - (now - hud.displayTimestamp)) animated
  else
    let hud' := { hud with transitioning := true }
    if animated then hud'.animationHide else hud'.cleanUpAfterDismissal

/-- The block of a delayed dismissal. -/
def delayOver (hud : JGProgressHUD View) (now : ℤ) (animated : Bool) : JGProgressHUD View :=
  if hud.visible then hud.dismissAnimated now animated else hud

/-! ### Showing -/

/-- The part of `cleanUpAfterPresentation` before a remembered dismissal is made. -/
def updateAfterPresentation (hud : JGProgressHUD View) (now : ℤ) : JGProgressHUD View :=
  let hud := { hud with hidden := false, transitioning := false, displayTimestamp := now }
  if hud.updateAfterAppear then { hud.layoutHUD with updateAfterAppear := false } else hud

def cleanUpAfterPresentation (hud : JGProgressHUD View) (now : ℤ) : JGProgressHUD View :=
  let hud := hud.updateAfterPresentation now
  if hud.dismissAfterTransitionFinished then
    -- the flags are reset after the call
    { hud.dismissAnimated now hud.dismissAfterTransitionFinishedWithAnimation with
      dismissAfterTransitionFinished := false
      dismissAfterTransitionFinishedWithAnimation := false }
  else hud

/-- `show` of `JGProgressHUDFadeAnimation`. -/
def animationShow (hud : JGProgressHUD View) : JGProgressHUD View :=
  { hud with presenting := true, hidden := false, alpha := 1, animations := hud.animations + 1 }

def showInView (hud : JGProgressHUD View) (now : ℤ) (view : View) (animated : Bool) :
    JGProgressHUD View :=
  if hud.transitioning then hud
  -- the HUD is already visible
  else if hud.targetView.isSome then hud
  else
    -- `addSubview`, and the layout pass that `layoutIfNeeded` forces
    let hud := { hud with targetView := some view, superview := some view }.layoutHUD
    let hud := { hud with transitioning := true, displayTimestamp := now }
    if animated then hud.animationShow else hud.cleanUpAfterPresentation now

/-- `animationDidFinish:`, with the flag that the animation passes. -/
def animationDidFinish (hud : JGProgressHUD View) (now : ℤ) : JGProgressHUD View :=
  if hud.presenting then hud.cleanUpAfterPresentation now else hud.cleanUpAfterDismissal

end JGProgressHUD

/-! ### Events -/

/-- The calls that a client of the HUD makes. -/
inductive Call (View : Type*)
  | setText (text : String)
  | setDetailText (text : String)
  | setMinimumDisplayTime (time : ℤ)
  | showInView (view : View) (animated : Bool)
  | dismissAnimated (animated : Bool)
  | dismissAfterDelay (delay : ℤ) (animated : Bool)

/-- What can happen to a HUD. -/
inductive Event (View : Type*)
  | call (c : Call View)
  /-- A layout pass. -/
  | layoutSubviews
  /-- The completion of an animation is called. -/
  | animationFinished
  /-- The main queue runs the block at this position among the delayed ones. -/
  | delayOver (i : ℕ)

/-- The event shows the HUD. -/
def Event.Shows : Event View → Prop
  | .call (.showInView _ _) => True
  | _ => False

/-- The event asks for a dismissal. -/
def Event.Dismisses : Event View → Prop
  | .call (.dismissAnimated _) => True
  | .call (.dismissAfterDelay _ _) => True
  | _ => False

def JGProgressHUD.perform (hud : JGProgressHUD View) (now : ℤ) : Call View → JGProgressHUD View
  | .setText text => hud.setText text
  | .setDetailText text => hud.setDetailText text
  | .setMinimumDisplayTime time => { hud with minimumDisplayTime := time }
  | .showInView view animated => hud.showInView now view animated
  | .dismissAnimated animated => hud.dismissAnimated now animated
  | .dismissAfterDelay delay animated => hud.dismissAfterDelay now delay animated

/-- Several calls, one after the other. -/
def JGProgressHUD.performAll (hud : JGProgressHUD View) (now : ℤ) (calls : List (Call View)) :
    JGProgressHUD View :=
  calls.foldl (fun hud c => hud.perform now c) hud

/-- **What happens to a HUD** at a time, if it can happen.  A delayed block is not run before its
deadline. -/
def step (hud : JGProgressHUD View) : ℤ × Event View → Option (JGProgressHUD View)
  | (now, .call c) => some (hud.perform now c)
  | (_, .layoutSubviews) => some hud.layoutHUD
  | (now, .animationFinished) =>
    if hud.animations = 0 then none
    else some ({ hud with animations := hud.animations - 1 }.animationDidFinish now)
  | (now, .delayOver i) =>
    hud.delayed[i]?.bind fun d =>
      if d.deadline ≤ now then
        some ({ hud with delayed := hud.delayed.eraseIdx i }.delayOver now d.animated)
      else none

/-! ### The flags and the screen -/

/-- What the HUD shows agrees with its flags. -/
structure Steady (hud : JGProgressHUD View) : Prop where
  superview : hud.superview = hud.targetView
  /-- An animation is running exactly while the HUD is transitioning. -/
  animations : hud.animations = if hud.transitioning then 1 else 0
  offScreen : hud.targetView = none → hud.transitioning = false ∧ hud.hidden = true
  onScreen : hud.targetView ≠ none → hud.hidden = false
  laidOut : hud.targetView ≠ none → hud.transitioning = false →
    hud.laidOut = some (hud.textLabel, hud.detailTextLabel)
  /-- Labels that change while the HUD appears are placed when it has appeared. -/
  appearing : hud.transitioning = true → hud.presenting = true → hud.updateAfterAppear = false →
    hud.laidOut = some (hud.textLabel, hud.detailTextLabel)

/-- A dismissal is remembered during a transition only. -/
structure Consistent (hud : JGProgressHUD View) : Prop extends Steady hud where
  remembered : hud.transitioning = false → hud.dismissAfterTransitionFinished = false

section Operations

variable {hud : JGProgressHUD View} {now : ℤ} {animated : Bool}

theorem consistent_init : Consistent (JGProgressHUD.init : JGProgressHUD View) where
  superview := rfl
  animations := rfl
  offScreen := fun _ => ⟨rfl, rfl⟩
  onScreen := fun h => absurd rfl h
  laidOut := fun h => absurd rfl h
  appearing := fun h => absurd h Bool.false_ne_true
  remembered := fun _ => rfl

/-- A HUD is visible when it has a target view. -/
theorem Steady.visible_iff (h : Steady hud) : hud.visible = true ↔ hud.targetView ≠ none := by
  rw [JGProgressHUD.visible, h.superview, Option.isSome_iff_ne_none]

theorem Steady.layoutHUD (h : Steady hud) : Steady hud.layoutHUD := by
  unfold JGProgressHUD.layoutHUD
  split
  · next htrans =>
      exact ⟨h.superview, h.animations, h.offScreen, h.onScreen, h.laidOut,
        fun _ _ hupdate => absurd hupdate (by simp)⟩
  · split
    · exact h
    · exact ⟨h.superview, h.animations, h.offScreen, h.onScreen, fun _ _ => rfl, fun _ _ _ => rfl⟩

/-- The labels are placed again when their texts change, now or when the HUD has appeared. -/
theorem Steady.relabel (h : Steady hud) (text detail : String) :
    Steady { hud with textLabel := text, detailTextLabel := detail }.layoutHUD := by
  unfold JGProgressHUD.layoutHUD
  split
  · next htrans =>
      refine ⟨h.superview, h.animations, h.offScreen, h.onScreen, fun _ hrest => ?_,
        fun _ _ hupdate => absurd hupdate (by simp)⟩
      exact absurd (htrans.symm.trans hrest) (by simp)
  · next htrans =>
      have hrest : hud.transitioning = false := Bool.eq_false_iff.2 htrans
      split
      · next hnone =>
          have htarget : hud.targetView = none := Option.isNone_iff_eq_none.1 hnone
          exact ⟨h.superview, h.animations, h.offScreen, h.onScreen,
            fun hsome => absurd htarget hsome, fun htrans' => absurd htrans' htrans⟩
      · exact ⟨h.superview, h.animations, h.offScreen, h.onScreen, fun _ _ => rfl,
          fun _ _ _ => rfl⟩

theorem Steady.reset (h : Steady hud) :
    Consistent { hud with
      dismissAfterTransitionFinished := false
      dismissAfterTransitionFinishedWithAnimation := false } :=
  ⟨⟨h.superview, h.animations, h.offScreen, h.onScreen, h.laidOut, h.appearing⟩, fun _ => rfl⟩

/-- What a dismissal keeps, whether or not one is remembered. -/
theorem Steady.dismissAnimated (h : Steady hud) : Steady (hud.dismissAnimated now animated) := by
  unfold JGProgressHUD.dismissAnimated
  split
  · exact ⟨h.superview, h.animations, h.offScreen, h.onScreen, h.laidOut, h.appearing⟩
  · next htrans =>
      split
      · exact h
      · next hsome =>
          split
          · exact ⟨h.superview, h.animations, h.offScreen, h.onScreen, h.laidOut, h.appearing⟩
          · have htarget : hud.targetView ≠ none := fun hnone =>
              hsome (Option.isNone_iff_eq_none.2 hnone)
            have hnone : hud.animations = 0 := by rw [h.animations, if_neg htrans]
            cases animated with
            | true =>
                refine ⟨h.superview, ?_, fun hno => absurd hno htarget, h.onScreen,
                  fun _ hrest => absurd hrest (by simp [JGProgressHUD.animationHide]),
                  fun _ hpresenting => absurd hpresenting
                    (by simp [JGProgressHUD.animationHide])⟩
                simp [JGProgressHUD.animationHide, hnone]
            | false =>
                exact ⟨rfl, hnone, fun _ => ⟨rfl, rfl⟩, fun hno => absurd rfl hno,
                  fun hno => absurd rfl hno, fun htrue => absurd htrue Bool.false_ne_true⟩

/-- After a layout pass the dismissal is remembered as before. -/
theorem layoutHUD_remembered (hud : JGProgressHUD View) :
    hud.layoutHUD.transitioning = hud.transitioning ∧
      hud.layoutHUD.dismissAfterTransitionFinished = hud.dismissAfterTransitionFinished := by
  unfold JGProgressHUD.layoutHUD
  split
  · exact ⟨rfl, rfl⟩
  · split <;> exact ⟨rfl, rfl⟩

theorem Consistent.layoutHUD (h : Consistent hud) : Consistent hud.layoutHUD := by
  obtain ⟨htrans, hflag⟩ := layoutHUD_remembered hud
  exact ⟨h.toSteady.layoutHUD, fun hrest => hflag.trans (h.remembered (htrans.symm.trans hrest))⟩

theorem Consistent.relabel (h : Consistent hud) (text detail : String) :
    Consistent { hud with textLabel := text, detailTextLabel := detail }.layoutHUD := by
  obtain ⟨htrans, hflag⟩ :=
    layoutHUD_remembered { hud with textLabel := text, detailTextLabel := detail }
  exact ⟨h.toSteady.relabel text detail,
    fun hrest => hflag.trans (h.remembered (htrans.symm.trans hrest))⟩

theorem Consistent.dismissAnimated (h : Consistent hud) :
    Consistent (hud.dismissAnimated now animated) := by
  refine ⟨h.toSteady.dismissAnimated, fun hrest => ?_⟩
  unfold JGProgressHUD.dismissAnimated at hrest ⊢
  split_ifs at hrest ⊢ with htrans hnone hearly hanim
  · exact absurd (htrans.symm.trans hrest) (by simp)
  · exact h.remembered hrest
  · exact h.remembered hrest
  · exact absurd hrest (by simp [JGProgressHUD.animationHide])
  · rfl

/-- A HUD that has just appeared: no animation is running any more, and its labels are in place or
are to be placed. -/
structure Appeared (hud : JGProgressHUD View) : Prop where
  superview : hud.superview = hud.targetView
  target : hud.targetView ≠ none
  animations : hud.animations = 0
  laidOut : hud.updateAfterAppear = false →
    hud.laidOut = some (hud.textLabel, hud.detailTextLabel)

theorem Appeared.updateAfterPresentation (h : Appeared hud) :
    Steady (hud.updateAfterPresentation now) := by
  have hsome : ¬ hud.targetView.isNone = true := fun hnone =>
    h.target (Option.isNone_iff_eq_none.1 hnone)
  unfold JGProgressHUD.updateAfterPresentation
  cases hupdate : hud.updateAfterAppear with
  | true =>
      rw [if_pos rfl, JGProgressHUD.layoutHUD, if_neg Bool.false_ne_true, if_neg hsome]
      exact ⟨h.superview, h.animations, fun hno => absurd hno h.target, fun _ => rfl,
        fun _ _ => rfl, fun htrue => absurd htrue Bool.false_ne_true⟩
  | false =>
      rw [if_neg Bool.false_ne_true]
      exact ⟨h.superview, h.animations, fun hno => absurd hno h.target, fun _ => rfl,
        fun _ _ => h.laidOut hupdate, fun htrue => absurd htrue Bool.false_ne_true⟩

theorem Appeared.cleanUpAfterPresentation (h : Appeared hud) :
    Consistent (hud.cleanUpAfterPresentation now) := by
  have hsteady : Steady (hud.updateAfterPresentation now) := h.updateAfterPresentation
  unfold JGProgressHUD.cleanUpAfterPresentation
  simp only
  split
  · exact hsteady.dismissAnimated.reset
  · next hflag => exact ⟨hsteady, fun _ => Bool.eq_false_iff.2 hflag⟩

theorem Consistent.showInView (h : Consistent hud) (view : View) :
    Consistent (hud.showInView now view animated) := by
  unfold JGProgressHUD.showInView
  split
  · exact h
  · next htrans =>
      split
      · exact h
      · next hsome =>
          have hrest : hud.transitioning = false := Bool.eq_false_iff.2 htrans
          have hnone : hud.animations = 0 := by rw [h.animations, if_neg htrans]
          simp only [JGProgressHUD.layoutHUD, hrest, Bool.false_eq_true, if_false,
            Option.isNone_some]
          cases animated with
          | true =>
              refine ⟨⟨rfl, ?_, fun hno => absurd hno (by simp [JGProgressHUD.animationShow]),
                fun _ => rfl, fun _ hrest' => absurd hrest' (by simp [JGProgressHUD.animationShow]),
                fun _ _ _ => rfl⟩,
                fun hrest' => absurd hrest' (by simp [JGProgressHUD.animationShow])⟩
              simp [JGProgressHUD.animationShow, hnone]
          | false =>
              rw [if_neg Bool.false_ne_true]
              exact Appeared.cleanUpAfterPresentation
                ⟨rfl, by simp, hnone, fun _ => rfl⟩

theorem Consistent.perform (h : Consistent hud) (c : Call View) :
    Consistent (hud.perform now c) := by
  cases c with
  | setText text => exact h.relabel text hud.detailTextLabel
  | setDetailText text => exact h.relabel hud.textLabel text
  | showInView view animated => exact h.showInView view
  | dismissAnimated animated => exact h.dismissAnimated
  | setMinimumDisplayTime _ | dismissAfterDelay _ _ =>
      exact ⟨⟨h.superview, h.animations, h.offScreen, h.onScreen, h.laidOut, h.appearing⟩,
        h.remembered⟩

theorem Consistent.performAll (h : Consistent hud) (calls : List (Call View)) :
    Consistent (hud.performAll now calls) := by
  induction calls generalizing hud with
  | nil => exact h
  | cons c calls ih => exact ih (h.perform c)

/-- The animation of a HUD that is on the screen ends. -/
theorem Consistent.animationFinished (h : Consistent hud) (hpos : hud.animations ≠ 0) :
    Consistent ({ hud with animations := hud.animations - 1 }.animationDidFinish now) := by
  have htrans : hud.transitioning = true := by
    by_contra hno
    exact hpos (by rw [h.animations, if_neg hno])
  have hnone : hud.animations - 1 = 0 := by rw [h.animations, if_pos htrans]
  have htarget : hud.targetView ≠ none := fun hno =>
    absurd (htrans.symm.trans (h.offScreen hno).1) (by simp)
  unfold JGProgressHUD.animationDidFinish
  split
  · next hpresenting =>
      exact Appeared.cleanUpAfterPresentation
        ⟨h.superview, htarget, hnone, h.appearing htrans hpresenting⟩
  · exact ⟨⟨rfl, hnone, fun _ => ⟨rfl, rfl⟩, fun hno => absurd rfl hno, fun hno => absurd rfl hno,
      fun htrue => absurd htrue Bool.false_ne_true⟩, fun _ => rfl⟩

theorem Consistent.delayOver (h : Consistent hud) : Consistent (hud.delayOver now animated) := by
  unfold JGProgressHUD.delayOver
  split
  · exact h.dismissAnimated
  · exact h

end Operations

/-- **A step keeps the flags in agreement with the screen.** -/
theorem Consistent.step {hud hud' : JGProgressHUD View} {e : ℤ × Event View} (h : Consistent hud)
    (hstep : step hud e = some hud') : Consistent hud' := by
  obtain ⟨now, e⟩ := e
  cases e with
  | call c => exact Option.some_inj.1 hstep ▸ h.perform c
  | layoutSubviews => exact Option.some_inj.1 hstep ▸ h.layoutHUD
  | animationFinished =>
      obtain ⟨hpos, hhud⟩ := Option.ite_none_left_eq_some.1 hstep
      exact Option.some_inj.1 hhud ▸ h.animationFinished hpos
  | delayOver i =>
      obtain ⟨d, -, hd⟩ := Option.bind_eq_some_iff.1 hstep
      obtain ⟨-, hhud⟩ := Option.ite_none_right_eq_some.1 hd
      have hrest : Consistent { hud with delayed := hud.delayed.eraseIdx i } :=
        ⟨⟨h.superview, h.animations, h.offScreen, h.onScreen, h.laidOut, h.appearing⟩,
          h.remembered⟩
      exact Option.some_inj.1 hhud ▸ hrest.delayOver

/-- **The flags of a HUD agree with what is on the screen.**  Whichever of these calls a client
makes, and in whatever order the animations and the delays end: a HUD has a superview exactly if it
has a target view, an animation runs exactly while it is transitioning, a HUD off the screen is
hidden and at rest, one on the screen is not hidden, a dismissal is remembered during a transition
only, and at rest on the screen the labels have been laid out for the texts they hold. -/
theorem consistent_run {hud : JGProgressHUD View} {es : List (ℤ × Event View)}
    (hrun : run step JGProgressHUD.init es = some hud) : Consistent hud :=
  invariant_run (fun _ _ _ h hstep => h.step hstep) consistent_init hrun

/-- A HUD with a minimum display time is relabelled and dismissed while it fades in; so it is
dismissed later, when the time is over. -/
def hurriedHud : List (ℤ × Event Unit) :=
  [(1, .call (.setMinimumDisplayTime 10)), (1, .call (.showInView () true)),
    (2, .call (.setText "Fetching")), (3, .call (.dismissAnimated true)), (4, .animationFinished),
    (5, .call (.dismissAfterDelay (2 * NSEC_PER_SEC) true)), (14, .delayOver 0),
    (15, .animationFinished)]

theorem consistent_run_hurriedHud :
    ∃ hud : JGProgressHUD Unit, run step .init hurriedHud = some hud ∧ Consistent hud ∧
      hud.visible = false ∧ hud.textLabel = "Fetching" ∧ hud.delayed ≠ [] := by
  have hrun : run step .init hurriedHud = some _ := rfl
  exact ⟨_, hrun, consistent_run hrun, rfl, rfl, List.cons_ne_nil _ _⟩

end ProgressHud
