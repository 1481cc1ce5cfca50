/-
**A HUD comes and goes.**

Whether a HUD is about to leave the screen is spread over its flags and over the blocks on the main
queue.  This module says when a HUD *leaves* — and that it then does, as soon as nothing of it is
pending — and when it *stays*.

* `ProgressHud.Leaving` — the HUD is off the screen, or on its way;
* `ProgressHud.dismissed_run` — **a dismissed HUD goes away**: when nothing of it is pending any
  more, it is off the screen;
* `ProgressHud.Staying` — the HUD is on the screen and nobody has asked it to leave, with what makes
  a HUD stay and what ends that.
-/

import TinderFirestore.ProgressHud

set_option relaxedAutoImplicit false
set_option autoImplicit false

namespace ProgressHud

open EventRun

variable {View : Type*}

/-! ### A dismissed HUD -/

/-- The HUD is off the screen, or it fades out, or it will be dismissed: when it has appeared, or
after a delay. -/
def Leaving (hud : JGProgressHUD View) : Prop :=
  hud.targetView ≠ none →
    (hud.transitioning = true ∧
      (hud.presenting = true → hud.dismissAfterTransitionFinished = true)) ∨ hud.delayed ≠ []

section Leaving

variable {hud : JGProgressHUD View} {now : ℤ} {animated : Bool}

/-- A dismissal that is made at rest does not have to be remembered. -/
theorem dismissAnimated_at_rest (hrest : hud.transitioning = false)
    (hsome : (hud.dismissAnimated now animated).targetView ≠ none) :
    ((hud.dismissAnimated now animated).transitioning = true ∧
      (hud.dismissAnimated now animated).presenting = false) ∨
        (hud.dismissAnimated now animated).delayed ≠ [] := by
  unfold JGProgressHUD.dismissAnimated at hsome ⊢
  rw [if_neg (by simp [hrest])] at hsome ⊢
  split_ifs at hsome ⊢ with hnone hearly hanim
  · exact absurd (Option.isNone_iff_eq_none.1 hnone) hsome
  · exact Or.inr (List.append_ne_nil_of_right_ne_nil _ (List.cons_ne_nil _ _))
  · exact Or.inl ⟨rfl, rfl⟩
  · exact absurd rfl hsome

theorem leaving_dismissAnimated : Leaving (hud.dismissAnimated now animated) := by
  intro hsome
  cases htrans : hud.transitioning with
  | true =>
      rw [JGProgressHUD.dismissAnimated, if_pos htrans]
      exact Or.inl ⟨htrans, fun _ => rfl⟩
  | false =>
      refine (dismissAnimated_at_rest htrans hsome).imp_left fun h => ⟨h.1, fun htrue => ?_⟩
      exact absurd (h.2.symm.trans htrue) Bool.false_ne_true

theorem leaving_dismissAfterDelay (delay : ℤ) :
    Leaving (hud.dismissAfterDelay now delay animated) := fun _ =>
  Or.inr (List.append_ne_nil_of_right_ne_nil _ (List.cons_ne_nil _ _))

theorem Leaving.layoutHUD (h : Leaving hud) : Leaving hud.layoutHUD := by
  unfold JGProgressHUD.layoutHUD
  split
  · exact h
  · split <;> exact h

theorem Leaving.relabel (h : Leaving hud) (text detail : String) :
    Leaving { hud with textLabel := text, detailTextLabel := detail }.layoutHUD := by
  have hsame : Leaving { hud with textLabel := text, detailTextLabel := detail } := h
  exact hsame.layoutHUD

theorem updateAfterPresentation_keeps (hud : JGProgressHUD View) (now : ℤ) :
    (hud.updateAfterPresentation now).transitioning = false ∧
      (hud.updateAfterPresentation now).dismissAfterTransitionFinished =
        hud.dismissAfterTransitionFinished ∧
      (hud.updateAfterPresentation now).delayed = hud.delayed := by
  simp only [JGProgressHUD.updateAfterPresentation, JGProgressHUD.layoutHUD, Bool.false_eq_true,
    if_false]
  split_ifs <;> exact ⟨rfl, rfl, rfl⟩

/-- A HUD that has appeared while it was to leave is dismissed then, or later. -/
theorem Leaving.cleanUpAfterPresentation
    (h : hud.dismissAfterTransitionFinished = true ∨ hud.delayed ≠ []) :
    Leaving (hud.cleanUpAfterPresentation now) := by
  obtain ⟨hrest, hflag, hdelayed⟩ := updateAfterPresentation_keeps hud now
  unfold JGProgressHUD.cleanUpAfterPresentation
  simp only
  split
  · intro hsome
    refine (dismissAnimated_at_rest hrest hsome).imp_left fun hgoing => ⟨hgoing.1, fun htrue => ?_⟩
    exact absurd (hgoing.2.symm.trans htrue) Bool.false_ne_true
  · next hno =>
      rw [hflag] at hno
      exact fun _ => Or.inr (hdelayed ▸ h.resolve_left hno)

/-- As long as it is not shown again, a HUD that is to leave stays so. -/
theorem Leaving.step {hud' : JGProgressHUD View} {e : ℤ × Event View} (hC : Consistent hud)
    (h : Leaving hud) (he : ¬ e.2.Shows) (hstep : step hud e = some hud') : Leaving hud' := by
  obtain ⟨now, e⟩ := e
  cases e with
  | call c =>
      obtain rfl := Option.some_inj.1 hstep
      cases c with
      | setText text => exact h.relabel text hud.detailTextLabel
      | setDetailText text => exact h.relabel hud.textLabel text
      | setMinimumDisplayTime time => exact h
      | showInView view animated => exact absurd trivial he
      | dismissAnimated animated => exact leaving_dismissAnimated
      | dismissAfterDelay delay animated => exact leaving_dismissAfterDelay delay
  | layoutSubviews => exact Option.some_inj.1 hstep ▸ h.layoutHUD
  | animationFinished =>
      obtain ⟨hpos, hhud⟩ := Option.ite_none_left_eq_some.1 hstep
      rw [← Option.some_inj.1 hhud, JGProgressHUD.animationDidFinish]
      have htrans : hud.transitioning = true := by
        by_contra hno
        exact hpos (by rw [hC.animations, if_neg hno])
      split
      · next hpresenting =>
          have htarget : hud.targetView ≠ none := fun hno =>
            absurd (htrans.symm.trans (hC.offScreen hno).1) (by simp)
          exact Leaving.cleanUpAfterPresentation
            ((h htarget).imp_left fun hand => hand.2 hpresenting)
      · exact fun hno => absurd rfl hno
  | delayOver i =>
      obtain ⟨d, -, hd⟩ := Option.bind_eq_some_iff.1 hstep
      obtain ⟨-, hhud⟩ := Option.ite_none_right_eq_some.1 hd
      rw [← Option.some_inj.1 hhud, JGProgressHUD.delayOver]
      split
      · exact leaving_dismissAnimated
      · next hoff =>
          intro hsome
          exact absurd (hC.toSteady.visible_iff.2 hsome) hoff

/-- When nothing of a HUD that is to leave is pending, it has left. -/
theorem Leaving.gone (hC : Consistent hud) (h : Leaving hud) (hanim : hud.animations = 0)
    (hdelayed : hud.delayed = []) : hud.visible = false := by
  rw [Bool.eq_false_iff]
  intro hvisible
  rcases h (hC.toSteady.visible_iff.1 hvisible) with ⟨htrans, -⟩ | hsome
  · rw [hC.animations, if_pos htrans] at hanim
    exact absurd hanim Nat.one_ne_zero
  · exact hsome hdelayed

end Leaving

/-- **A dismissed HUD goes away.**  A HUD that keeps its default animation is dismissed, at once or
after a delay: on the screen, while it fades in, or while it fades out.  However it goes on, unless
it is shown again: when no animation of it runs and no delay is pending, it is off the screen. -/
theorem dismissed_run {hud hud' : JGProgressHUD View} {d : ℤ × Event View}
    {es es' : List (ℤ × Event View)} (hrun : run step JGProgressHUD.init es = some hud)
    (hd : d.2.Dismisses) (hrun' : run step hud (d :: es') = some hud')
    (hshows : ∀ e ∈ es', ¬ e.2.Shows) (hanim : hud'.animations = 0)
    (hdelayed : hud'.delayed = []) : hud'.visible = false := by
  obtain ⟨hud₁, hstep, hrest⟩ := run_cons_eq_some.1 hrun'
  have hC₀ : Consistent hud := invariant_run (fun _ _ _ h hs => h.step hs) consistent_init hrun
  have hC : Consistent hud₁ := hC₀.step hstep
  have hleaving : Leaving hud₁ := by
    obtain ⟨now, e⟩ := d
    cases e with
    | call c =>
        obtain rfl := Option.some_inj.1 hstep
        cases c with
        | dismissAnimated animated => exact leaving_dismissAnimated
        | dismissAfterDelay delay animated => exact leaving_dismissAfterDelay delay
        | _ => exact absurd hd id
    | _ => exact absurd hd id
  have hfinal : Consistent hud' ∧ Leaving hud' :=
    invariant_run_of_meet (C := fun _ e => ¬ e.2.Shows)
      (I := fun hud => Consistent hud ∧ Leaving hud)
      (fun _ _ _ he h hs => ⟨h.1.step hs, h.2.step h.1 he hs⟩)
      ((stepsMeet_events_iff hrest).2 hshows) ⟨hC, hleaving⟩ hrest
  exact hfinal.2.gone hfinal.1 hanim hdelayed

/-- Dismissed at once and once more after a delay. -/
def dismissedTwice : List (ℤ × Event Unit) :=
  [(2, .call (.dismissAnimated true)), (3, .call (.dismissAfterDelay 10 true)),
    (4, .animationFinished), (5, .animationFinished), (20, .delayOver 0)]

theorem dismissed_run_dismissedTwice :
    ∃ hud hud' : JGProgressHUD Unit,
      run step .init [(1, .call (.showInView () true))] = some hud ∧ hud.visible = true ∧
      run step hud dismissedTwice = some hud' ∧ hud'.visible = false := by
  have hrun : run step JGProgressHUD.init
      [(1, (.call (.showInView () true) : Event Unit))] = some _ := rfl
  have hrun' : run step ((JGProgressHUD.init : JGProgressHUD Unit).perform 1 (.showInView () true))
      dismissedTwice = some _ := rfl
  have hd : ((2, .call (.dismissAnimated true)) : ℤ × Event Unit).2.Dismisses := trivial
  refine ⟨_, _, hrun, rfl, hrun', dismissed_run hrun hd hrun' ?_ rfl rfl⟩
  simp [Event.Shows]

/-- The call neither shows the HUD nor dismisses it at once. -/
def Call.Waits : Call View → Prop
  | .setText _ => True
  | .setDetailText _ => True
  | .setMinimumDisplayTime _ => True
  | .dismissAfterDelay _ _ => True
  | .showInView _ _ => False
  | .dismissAnimated _ => False

/-- Such calls do not keep a HUD that is to leave. -/
theorem Leaving.performAll {hud : JGProgressHUD View} {now : ℤ} {calls : List (Call View)}
    (h : Leaving hud) (hcalls : ∀ c ∈ calls, c.Waits) : Leaving (hud.performAll now calls) := by
  induction calls generalizing hud with
  | nil => exact h
  | cons c calls ih =>
      rw [List.forall_mem_cons] at hcalls
      refine ih ?_ hcalls.2
      cases c with
      | setText text => exact h.relabel text hud.detailTextLabel
      | setDetailText text => exact h.relabel hud.textLabel text
      | setMinimumDisplayTime time => exact h
      | dismissAfterDelay delay animated => exact leaving_dismissAfterDelay delay
      | showInView view animated => exact absurd hcalls.1 id
      | dismissAnimated animated => exact absurd hcalls.1 id

/-! ### A HUD that stays -/

/-- The HUD is on the screen, or fades in, and nobody has asked it to leave. -/
def Staying (hud : JGProgressHUD View) : Prop :=
  hud.targetView ≠ none ∧ (hud.transitioning = true → hud.presenting = true) ∧
    hud.dismissAfterTransitionFinished = false

/-- The texts of the labels. -/
def JGProgressHUD.labels (hud : JGProgressHUD View) : String × String :=
  (hud.textLabel, hud.detailTextLabel)

section Staying

variable {hud : JGProgressHUD View} {now : ℤ} {animated : Bool}

theorem layoutHUD_keeps (hud : JGProgressHUD View) :
    (Staying hud.layoutHUD ↔ Staying hud) ∧ hud.layoutHUD.labels = hud.labels ∧
      hud.layoutHUD.minimumDisplayTime = hud.minimumDisplayTime := by
  unfold JGProgressHUD.layoutHUD
  split_ifs <;> exact ⟨Iff.rfl, rfl, rfl⟩

theorem staying_relabel (text detail : String) :
    Staying { hud with textLabel := text, detailTextLabel := detail }.layoutHUD ↔ Staying hud :=
  (layoutHUD_keeps _).1

theorem dismissAnimated_keeps (hud : JGProgressHUD View) (now : ℤ) (animated : Bool) :
    (hud.dismissAnimated now animated).labels = hud.labels ∧
      (hud.dismissAnimated now animated).minimumDisplayTime = hud.minimumDisplayTime := by
  unfold JGProgressHUD.dismissAnimated
  split_ifs <;> exact ⟨rfl, rfl⟩

theorem cleanUpAfterPresentation_keeps (hud : JGProgressHUD View) (now : ℤ) :
    (hud.cleanUpAfterPresentation now).labels = hud.labels ∧
      (hud.cleanUpAfterPresentation now).minimumDisplayTime = hud.minimumDisplayTime := by
  have hplaced : (hud.updateAfterPresentation now).labels = hud.labels ∧
      (hud.updateAfterPresentation now).minimumDisplayTime = hud.minimumDisplayTime := by
    unfold JGProgressHUD.updateAfterPresentation
    simp only
    split
    · exact (layoutHUD_keeps { hud with
        hidden := false, transitioning := false, displayTimestamp := now }).2
    · exact ⟨rfl, rfl⟩
  unfold JGProgressHUD.cleanUpAfterPresentation
  simp only
  split
  · obtain ⟨hlabels, htime⟩ := dismissAnimated_keeps (hud.updateAfterPresentation now) now
      (hud.updateAfterPresentation now).dismissAfterTransitionFinishedWithAnimation
    exact ⟨hlabels.trans hplaced.1, htime.trans hplaced.2⟩
  · exact hplaced

theorem showInView_keeps (hud : JGProgressHUD View) (now : ℤ) (view : View) (animated : Bool) :
    (hud.showInView now view animated).labels = hud.labels ∧
      (hud.showInView now view animated).minimumDisplayTime = hud.minimumDisplayTime := by
  obtain ⟨-, hlabels, htime⟩ :=
    layoutHUD_keeps { hud with targetView := some view, superview := some view }
  unfold JGProgressHUD.showInView
  split
  · exact ⟨rfl, rfl⟩
  · split
    · exact ⟨rfl, rfl⟩
    · simp only
      split
      · exact ⟨hlabels, htime⟩
      · exact ⟨(cleanUpAfterPresentation_keeps _ now).1.trans hlabels,
          (cleanUpAfterPresentation_keeps _ now).2.trans htime⟩

/-- A HUD that has a target view is not shown again. -/
theorem showInView_of_target (h : hud.targetView ≠ none) (view : View) :
    hud.showInView now view animated = hud := by
  rw [JGProgressHUD.showInView]
  split
  · rfl
  · rw [if_pos (Option.isSome_iff_ne_none.2 h)]

/-- A HUD that is off the screen fades in when it is shown. -/
theorem staying_showInView (hC : Consistent hud) (h : hud.targetView = none) (view : View) :
    Staying (hud.showInView now view true) := by
  have hrest : hud.transitioning = false := (hC.offScreen h).1
  have hflag : hud.dismissAfterTransitionFinished = false := hC.remembered hrest
  simp only [JGProgressHUD.showInView, hrest, h, JGProgressHUD.layoutHUD, Bool.false_eq_true,
    if_false, Option.isSome_none, Option.isNone_some, if_true]
  exact ⟨by simp [JGProgressHUD.animationShow], fun _ => rfl, hflag⟩

/-- Nothing that is dismissed stays. -/
theorem not_staying_dismissAnimated (htime : hud.minimumDisplayTime = 0) :
    ¬ Staying (hud.dismissAnimated now animated) := by
  rintro ⟨htarget, hpresenting, hflag⟩
  unfold JGProgressHUD.dismissAnimated at htarget hpresenting hflag
  split_ifs at htarget hpresenting hflag with htrans hnone hearly hanim
  · exact htarget (Option.isNone_iff_eq_none.1 hnone)
  · exact absurd hearly.1 (by simp [htime])
  · exact absurd (hpresenting rfl) (by simp [JGProgressHUD.animationHide])
  · exact htarget rfl

/-- A HUD that stays has appeared when its animation ends, and stays. -/
theorem Staying.animationFinished (hC : Consistent hud) (h : Staying hud)
    (hpos : hud.animations ≠ 0) :
    Staying ({ hud with animations := hud.animations - 1 }.animationDidFinish now) := by
  obtain ⟨htarget, hpresenting, hflag⟩ := h
  have htrans : hud.transitioning = true := by
    by_contra hno
    exact hpos (by rw [hC.animations, if_neg hno])
  have hsome : ¬ hud.targetView.isNone = true := fun hno =>
    htarget (Option.isNone_iff_eq_none.1 hno)
  rw [JGProgressHUD.animationDidFinish, if_pos (hpresenting htrans)]
  simp only [JGProgressHUD.cleanUpAfterPresentation, JGProgressHUD.updateAfterPresentation,
    JGProgressHUD.layoutHUD, Bool.false_eq_true, if_false]
  split_ifs with h₁ h₂ h₃
  · exact absurd (hflag.symm.trans h₂) Bool.false_ne_true
  · exact ⟨htarget, fun h => absurd h Bool.false_ne_true, hflag⟩
  · exact absurd (hflag.symm.trans h₃) Bool.false_ne_true
  · exact ⟨htarget, fun h => absurd h Bool.false_ne_true, hflag⟩

/-- Calls that wait neither make a HUD stay nor keep it from staying. -/
theorem staying_performAll {calls : List (Call View)} (hcalls : ∀ c ∈ calls, c.Waits) :
    Staying (hud.performAll now calls) ↔ Staying hud := by
  induction calls generalizing hud with
  | nil => exact Iff.rfl
  | cons c calls ih =>
      rw [List.forall_mem_cons] at hcalls
      refine (ih hcalls.2).trans ?_
      cases c with
      | setText text => exact staying_relabel text hud.detailTextLabel
      | setDetailText text => exact staying_relabel hud.textLabel text
      | setMinimumDisplayTime _ | dismissAfterDelay _ _ => exact Iff.rfl
      | showInView view animated => exact absurd hcalls.1 id
      | dismissAnimated animated => exact absurd hcalls.1 id

/-- What a call makes of the texts of the labels. -/
def relabeled (labels : String × String) : Call View → String × String
  | .setText text => (text, labels.2)
  | .setDetailText text => (labels.1, text)
  | _ => labels

theorem perform_labels (c : Call View) :
    (hud.perform now c).labels = relabeled hud.labels c := by
  cases c with
  | setText text => exact (layoutHUD_keeps _).2.1
  | setDetailText text => exact (layoutHUD_keeps _).2.1
  | showInView view animated => exact (showInView_keeps hud now view animated).1
  | dismissAnimated animated => exact (dismissAnimated_keeps hud now animated).1
  | setMinimumDisplayTime _ | dismissAfterDelay _ _ => rfl

theorem performAll_labels (calls : List (Call View)) :
    (hud.performAll now calls).labels = calls.foldl relabeled hud.labels := by
  induction calls generalizing hud with
  | nil => rfl
  | cons c calls ih => exact ih.trans (by rw [perform_labels, List.foldl_cons])

theorem perform_minimumDisplayTime {c : Call View} (hc : ∀ time, c ≠ .setMinimumDisplayTime time) :
    (hud.perform now c).minimumDisplayTime = hud.minimumDisplayTime := by
  cases c with
  | setMinimumDisplayTime time => exact absurd rfl (hc time)
  | setText text => exact (layoutHUD_keeps _).2.2
  | setDetailText text => exact (layoutHUD_keeps _).2.2
  | showInView view animated => exact (showInView_keeps hud now view animated).2
  | dismissAnimated animated => exact (dismissAnimated_keeps hud now animated).2
  | dismissAfterDelay delay animated => rfl

theorem performAll_minimumDisplayTime {calls : List (Call View)}
    (hcalls : ∀ c ∈ calls, ∀ time, c ≠ .setMinimumDisplayTime time) :
    (hud.performAll now calls).minimumDisplayTime = hud.minimumDisplayTime := by
  induction calls generalizing hud with
  | nil => rfl
  | cons c calls ih =>
      rw [List.forall_mem_cons] at hcalls
      exact (ih hcalls.2).trans (perform_minimumDisplayTime hcalls.1)

/-- What happens to a HUD other than by calls changes neither its labels nor its settings. -/
theorem step_keeps {hud' : JGProgressHUD View} {e : Event View} (he : ∀ c, e ≠ .call c)
    (hstep : step hud (now, e) = some hud') :
    hud'.labels = hud.labels ∧ hud'.minimumDisplayTime = hud.minimumDisplayTime := by
  cases e with
  | call c => exact absurd rfl (he c)
  | layoutSubviews => exact Option.some_inj.1 hstep ▸ (layoutHUD_keeps hud).2
  | animationFinished =>
      obtain ⟨-, hhud⟩ := Option.ite_none_left_eq_some.1 hstep
      rw [← Option.some_inj.1 hhud, JGProgressHUD.animationDidFinish]
      split
      · exact cleanUpAfterPresentation_keeps _ now
      · exact ⟨rfl, rfl⟩
  | delayOver i =>
      obtain ⟨d, -, hd⟩ := Option.bind_eq_some_iff.1 hstep
      obtain ⟨-, hhud⟩ := Option.ite_none_right_eq_some.1 hd
      rw [← Option.some_inj.1 hhud, JGProgressHUD.delayOver]
      split
      · exact dismissAnimated_keeps _ now d.animated
      · exact ⟨rfl, rfl⟩

/-- A delay that ends takes a HUD off the screen, if it is still there. -/
theorem not_staying_delayOver {hud' : JGProgressHUD View} {i : ℕ} (hC : Consistent hud)
    (htime : hud.minimumDisplayTime = 0) (hstep : step hud (now, .delayOver i) = some hud') :
    ¬ Staying hud' := by
  obtain ⟨d, -, hd⟩ := Option.bind_eq_some_iff.1 hstep
  obtain ⟨-, hhud⟩ := Option.ite_none_right_eq_some.1 hd
  rw [← Option.some_inj.1 hhud, JGProgressHUD.delayOver]
  split
  · exact not_staying_dismissAnimated htime
  · next hoff => exact fun hstay => hoff (hC.toSteady.visible_iff.2 hstay.1)

/-- Nothing else takes a HUD that stays off the screen. -/
theorem Staying.step {hud' : JGProgressHUD View} {e : Event View} (hC : Consistent hud)
    (h : Staying hud) (he : ∀ c, e ≠ .call c) (hdelay : ∀ i, e ≠ .delayOver i)
    (hstep : step hud (now, e) = some hud') : Staying hud' := by
  cases e with
  | call c => exact absurd rfl (he c)
  | layoutSubviews => exact Option.some_inj.1 hstep ▸ (layoutHUD_keeps hud).1.2 h
  | animationFinished =>
      obtain ⟨hpos, hhud⟩ := Option.ite_none_left_eq_some.1 hstep
      exact Option.some_inj.1 hhud ▸ h.animationFinished hC hpos
  | delayOver i => exact absurd rfl (hdelay i)

/-! ### A HUD that nobody calls -/

/-- A HUD without a minimum display time schedules no delay of its own. -/
theorem dismissAnimated_delayed (htime : hud.minimumDisplayTime = 0) :
    (hud.dismissAnimated now animated).delayed = hud.delayed := by
  have hearly : ¬ hud.TooEarly now := fun h => absurd h.1 (by simp [htime])
  unfold JGProgressHUD.dismissAnimated
  rw [if_neg hearly]
  split_ifs <;> rfl

theorem cleanUpAfterPresentation_delayed (htime : hud.minimumDisplayTime = 0) :
    (hud.cleanUpAfterPresentation now).delayed = hud.delayed := by
  have hplaced : (hud.updateAfterPresentation now).minimumDisplayTime = 0 := by
    simp only [JGProgressHUD.updateAfterPresentation, JGProgressHUD.layoutHUD]
    split_ifs <;> exact htime
  have hsame : (hud.updateAfterPresentation now).delayed = hud.delayed :=
    (updateAfterPresentation_keeps hud now).2.2
  unfold JGProgressHUD.cleanUpAfterPresentation
  simp only
  split
  · exact (dismissAnimated_delayed hplaced).trans hsame
  · exact hsame

theorem step_delayed {hud' : JGProgressHUD View} {e : Event View}
    (htime : hud.minimumDisplayTime = 0) (he : ∀ c, e ≠ .call c)
    (hstep : step hud (now, e) = some hud') : List.Sublist hud'.delayed hud.delayed := by
  cases e with
  | call c => exact absurd rfl (he c)
  | layoutSubviews =>
      rw [← Option.some_inj.1 hstep, JGProgressHUD.layoutHUD]
      split_ifs <;> exact List.Sublist.refl _
  | animationFinished =>
      obtain ⟨-, hhud⟩ := Option.ite_none_left_eq_some.1 hstep
      rw [← Option.some_inj.1 hhud, JGProgressHUD.animationDidFinish]
      split
      · have hsame : ({ hud with animations := hud.animations - 1 }.cleanUpAfterPresentation
            now).delayed = hud.delayed := cleanUpAfterPresentation_delayed htime
        exact hsame.symm ▸ List.Sublist.refl hud.delayed
      · exact List.Sublist.refl _
  | delayOver i =>
      obtain ⟨d, -, hd⟩ := Option.bind_eq_some_iff.1 hstep
      obtain ⟨-, hhud⟩ := Option.ite_none_right_eq_some.1 hd
      rw [← Option.some_inj.1 hhud, JGProgressHUD.delayOver]
      split
      · have hsame : ({ hud with delayed := hud.delayed.eraseIdx i }.dismissAnimated now
            d.animated).delayed = hud.delayed.eraseIdx i := dismissAnimated_delayed htime
        rw [hsame]
        exact List.eraseIdx_sublist _ _
      · exact List.eraseIdx_sublist _ _

/-- A HUD that is off the screen stays there. -/
theorem Consistent.step_hidden {hud' : JGProgressHUD View} {e : Event View} (hC : Consistent hud)
    (he : ∀ c, e ≠ .call c) (hhidden : hud.visible = false)
    (hstep : ProgressHud.step hud (now, e) = some hud') : hud'.visible = false := by
  cases e with
  | call c => exact absurd rfl (he c)
  | layoutSubviews =>
      rw [← Option.some_inj.1 hstep, JGProgressHUD.layoutHUD]
      split_ifs <;> exact hhidden
  | animationFinished =>
      obtain ⟨hpos, -⟩ := Option.ite_none_left_eq_some.1 hstep
      have hnone : hud.targetView = none := by
        by_contra hsome
        exact absurd (hC.toSteady.visible_iff.2 hsome) (by simp [hhidden])
      have hrest : ¬ hud.transitioning = true := by simp [(hC.offScreen hnone).1]
      exact absurd (hC.animations.trans (if_neg hrest)) hpos
  | delayOver i =>
      obtain ⟨d, -, hd⟩ := Option.bind_eq_some_iff.1 hstep
      obtain ⟨-, hhud⟩ := Option.ite_none_right_eq_some.1 hd
      rw [← Option.some_inj.1 hhud, JGProgressHUD.delayOver]
      split
      · next hvisible => exact absurd (hhidden.symm.trans hvisible) Bool.false_ne_true
      · exact hhidden

end Staying

end ProgressHud
