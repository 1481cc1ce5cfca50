/-
**Cards at rest.**

A drag shifts and turns a card, and the animation that its end starts restores it.  The recognizer
has two ways to end, and one of them is not handled: a drag that is cancelled leaves the card where
it is, unless an animation from an earlier drag is still to be completed.

* `Deck.Straight` — a card at rest is out of the deck or straight;
* `Deck.CancelledStraight` — the condition on the drags that are cancelled;
* `Deck.CancelledUnmoved` — the same condition, on what has moved the card since it was restored;
* `Deck.card_at_rest_straight_iff` — **when every card at rest is straight.**
-/

import TinderFirestore.DeckGestures
import Mathlib.Tactic.NormNum

set_option relaxedAutoImplicit false
set_option autoImplicit false

namespace Deck

open Firestore Profile Home EventRun

/-! ### Cards at rest -/

/-- An animation of the card is still to be completed. -/
def Screen.Animated (s : Screen) (id : ℕ) : Prop :=
  ∃ a ∈ s.animations, a.pan.card = id ∧ a.phase ≠ .completed

/-- No pan of the card is in progress, and no animation of it is to be completed. -/
def Screen.AtRest (s : Screen) (id : ℕ) : Prop := s.panning id = false ∧ ¬ s.Animated id

/-- At rest, the card is out of the deck or has the identity transform. -/
def Straight (id : ℕ) (s : Screen) : Prop :=
  s.AtRest id → ¬ s.InDeck id ∨ s.transform id = .identity

/-- A pan of the card is cancelled only while an animation of it is still to be completed, when it
is out of the deck, or when its transform is the identity. -/
def CancelledStraight (id : ℕ) (s : Screen) : Event → Prop
  | .pan card .cancelled _ =>
    card = id → s.Animated id ∨ ¬ s.InDeck id ∨ s.transform id = .identity
  | _ => True

/-! ### What a step does to a card at rest -/

section Step

variable {P : Platform} {s s' : Screen} {e : Event} {id : ℕ}

/-- The animations of a card go on when one of another card is completed. -/
theorem Screen.Animated.set {i : ℕ} {a : Animation} (h : s.Animated id)
    (ha : s.animations[i]? = some a) (hcard : a.pan.card ≠ id) (b : Animation) :
    ∃ c ∈ s.animations.set i b, c.pan.card = id ∧ c.phase ≠ .completed := by
  obtain ⟨c, hc, hid, hphase⟩ := h
  obtain ⟨j, hj⟩ := List.mem_iff_getElem?.1 hc
  have hij : i ≠ j := by
    rintro rfl
    rw [ha, Option.some_inj] at hj
    exact hcard (hj ▸ hid)
  refine ⟨c, List.mem_of_getElem? (i := j) ?_, hid, hphase⟩
  rw [List.getElem?_set_ne hij, hj]

/-- When no pan of the card is in progress after the recognizer of a card has changed. -/
theorem update_panning_eq_false {card : ℕ} {b : Bool}
    (h : Function.update s.panning card b id = false) :
    id = card ∧ b = false ∨ id ≠ card ∧ s.panning id = false := by
  by_cases hid : id = card
  · rw [hid, Function.update_self] at h
    exact Or.inl ⟨hid, h⟩
  · rw [Function.update_of_ne hid] at h
    exact Or.inr ⟨hid, h⟩

/-- A reply moves no card, and the ones that it makes are straight. -/
theorem Straight.fetched (hmade : OnlyMade s) (hI : Straight id s)
    (snapshot : Option (List Dictionary)) (error : Option String) :
    Straight id { s with home := s.home.completion snapshot error } := by
  intro hrest
  by_cases hin : s.InDeck id
  · rcases hI hrest with hout | hstraight
    · exact absurd hin hout
    · exact Or.inr hstraight
  by_cases hin' : id ∈ (s.home.completion snapshot error).cardDesckView.map CardView.id
  · -- the card has just been made
    rcases inDeck_completion hin' with hold | ⟨hnew, -⟩
    · exact absurd hold hin
    · exact Or.inr (hmade.transform id hnew)
  · exact Or.inl hin'

/-- The completion of an animation puts its card back and leaves the others alone. -/
theorem Straight.completed (hI : Straight id s) {i : ℕ} {a : Animation}
    (ha : s.animations[i]? = some a) (b : Animation) :
    Straight id { s.completion a.pan with animations := s.animations.set i b } := by
  intro hrest
  by_cases hid : id = a.pan.card
  · refine Or.inr ?_
    rw [completion_transform, hid, Function.update_self]
  · have hrest' : s.AtRest id :=
      ⟨by rw [← hrest.1, completion_panning],
        fun hanimated => hrest.2 (hanimated.set ha (Ne.symm hid) _)⟩
    -- another card may have left the deck, and this one has not been moved
    refine (hI hrest').imp (fun hout hin => hout (Screen.InDeck.of_completion hin)) ?_
    rw [completion_transform, Function.update_of_ne hid]
    exact fun hstraight => hstraight

/-- A step keeps a card straight, unless it cancels a pan of it. -/
theorem Straight.step (hmade : OnlyMade s) (hI : Straight id s) (hmove : Moves P s e s')
    (hmeet : CancelledStraight id s e) : Straight id s' := by
  intro hrest
  cases hmove with
  | @fetched snapshot error => exact hI.fetched hmade snapshot error hrest
  | @began card translation hidle hcard =>
      obtain ⟨f, hf, heq⟩ := removeAllAnimations_eq s card
      rw [heq] at hrest ⊢
      rcases update_panning_eq_false hrest.1 with ⟨-, hb⟩ | ⟨hid, hpanning⟩
      · exact absurd hb.symm Bool.false_ne_true
      · refine hI ⟨hpanning, fun ⟨a, ha, hacard, haphase⟩ => hrest.2 ?_⟩
        exact ⟨f a, List.mem_map_of_mem ha, (congrArg Pan.card (hf a).1).trans hacard,
          fun hphase => haphase ((hf a).2.1 hphase)⟩
  | @changed card translation hpan =>
      rcases update_panning_eq_false hrest.1 with ⟨-, hb⟩ | ⟨hid, hpanning⟩
      · exact absurd hb.symm Bool.false_ne_true
      · exact (hI ⟨hpanning, hrest.2⟩).imp_right (Function.update_of_ne hid _ _).trans
  | @ended card translation hpan =>
      obtain ⟨t, heq⟩ := handleEnded_eq s card translation
      rw [heq] at hrest ⊢
      rcases update_panning_eq_false hrest.1 with ⟨hid, -⟩ | ⟨hid, hpanning⟩
      · -- the animation of this pan is to be completed
        exact absurd ⟨_, List.mem_append_right _ (List.mem_singleton_self _), hid.symm,
          fun hphase => nomatch hphase⟩ hrest.2
      · have hrest' : s.AtRest id :=
          ⟨hpanning, fun ⟨a, ha, hpending⟩ => hrest.2 ⟨a, List.mem_append_left _ ha, hpending⟩⟩
        exact (hI hrest').imp_right (Function.update_of_ne hid _ _).trans
  | @cancelled card translation hpan =>
      rcases update_panning_eq_false hrest.1 with ⟨hid, -⟩ | ⟨hid, hpanning⟩
      · rcases hmeet hid.symm with hanimated | hstraight
        · exact absurd hanimated hrest.2
        · exact hstraight
      · exact hI ⟨hpanning, hrest.2⟩
  | @completed i a ha hphase => exact hI.completed ha _ hrest

/-- A step after which the card is straight has met the condition. -/
theorem CancelledStraight.of_step (hstep : step P s e = some s') (hI : Straight id s') :
    CancelledStraight id s e := by
  cases step_moves hstep with
  | @cancelled card translation hpan =>
      intro hid
      by_cases hanimated : s.Animated id
      · exact Or.inl hanimated
      · have hpanning : Function.update s.panning card false id = false := by
          rw [hid, Function.update_self]
        exact Or.inr (hI ⟨hpanning, hanimated⟩)
  | _ => trivial

end Step

/-! ### What has moved a card -/

/-- The last drag of the card, or end of one, that has set its transform since an animation of it
was completed. -/
def noteMoved (id : ℕ) (s : Screen) (e : Event) (_ : Screen)
    (moved : Option (GestureState × CGPoint)) : Option (GestureState × CGPoint) :=
  match e with
  | .fetched _ _ => moved
  | .pan card state translation =>
    if card = id ∧ (state = .changed ∨ state = .ended) then some (state, translation) else moved
  | .animationCompleted i =>
    if (s.animations[i]?.map fun a => a.pan.card) = some id then none else moved

/-- The transform that it has left: none is the identity. -/
def transformAfter (P : Platform) (id : ℕ) : Option (GestureState × CGPoint) → CGAffineTransform
  | none => .identity
  | some (state, translation) => (Screen.opened.panHandle P id state translation).transform id

/-- A pan of the card is cancelled only while an animation of it is still to be completed, when it
is out of the deck, or when nothing has moved it since it was restored. -/
def CancelledUnmoved (P : Platform) (id : ℕ) (x : Screen × Option (GestureState × CGPoint)) :
    Event → Prop
  | .pan card .cancelled _ =>
    card = id → x.1.Animated id ∨ ¬ x.1.InDeck id ∨ transformAfter P id x.2 = .identity
  | _ => True

section Moved

variable {P : Platform} {id : ℕ}

/-- What a drag and its end make of the transform does not depend on the one before. -/
theorem panHandle_transform (s : Screen) {state : GestureState}
    (hstate : state = .changed ∨ state = .ended) (translation : CGPoint) :
    (s.panHandle P id state translation).transform id =
      transformAfter P id (some (state, translation)) := by
  rcases hstate with rfl | rfl
  · simp [transformAfter, Screen.panHandle, Screen.handleChanged, Screen.setTransform]
  · simp only [transformAfter, Screen.panHandle, Screen.handleEnded, Screen.setTransform]
    split <;> simp

/-- **The transform is the one that the last drag or end of one has left.** -/
theorem transform_step {s s' : Screen} {e : Event} {moved : Option (GestureState × CGPoint)}
    (h : s.transform id = transformAfter P id moved) (hmove : Moves P s e s') :
    s'.transform id = transformAfter P id (noteMoved id s e s' moved) := by
  cases hmove with
  | fetched => exact h
  | @began card translation hidle hin =>
      obtain ⟨f, -, heq⟩ := removeAllAnimations_eq s card
      rw [heq, noteMoved, if_neg (by simp)]
      exact h
  | @changed card translation hpan =>
      by_cases hid : card = id
      · subst hid
        rw [noteMoved, if_pos ⟨rfl, Or.inl rfl⟩]
        exact panHandle_transform s (Or.inl rfl) translation
      · rw [noteMoved, if_neg fun hboth => hid hboth.1]
        exact (Function.update_of_ne (Ne.symm hid) _ _).trans h
  | @ended card translation hpan =>
      by_cases hid : card = id
      · subst hid
        rw [noteMoved, if_pos ⟨rfl, Or.inr rfl⟩]
        exact panHandle_transform s (Or.inr rfl) translation
      · obtain ⟨t, heq⟩ := handleEnded_eq s card translation
        rw [noteMoved, if_neg fun hboth => hid hboth.1, heq]
        exact (Function.update_of_ne (Ne.symm hid) _ _).trans h
  | @cancelled card translation hpan =>
      rw [noteMoved, if_neg (by simp)]
      exact h
  | @completed i a ha hphase =>
      simp only [noteMoved, ha, Option.map_some, Option.some_inj]
      rw [completion_transform]
      by_cases hid : a.pan.card = id
      · rw [if_pos hid, hid, Function.update_self]
        rfl
      · rw [if_neg hid, Function.update_of_ne (Ne.symm hid)]
        exact h

/-- **The condition by gestures**: along a run it is the condition on the state. -/
theorem cancelledUnmoved_iff {s : Screen} {es : List Event}
    (hrun : run (step P) .opened es = some s) :
    StepsMeet (withHistory (step P) (noteMoved id)) (CancelledUnmoved P id) (.opened, none) es ↔
      StepsMeet (step P) (CancelledStraight id) .opened es := by
  have hnotes : ∃ moved, run (withHistory (step P) (noteMoved id)) (.opened, none) es =
      some (s, moved) := run_withHistory.1 hrun
  obtain ⟨moved, hnoted⟩ := hnotes
  refine Iff.trans (stepsMeet_congr (D := fun x e => CancelledStraight id x.1 e)
    (I := fun x => x.1.transform id = transformAfter P id x.2) ?_ ?_ rfl hnoted)
    stepsMeet_withHistory
  · intro x e y h hstep
    obtain ⟨hs, hnote⟩ := withHistory_eq_some.1 hstep
    rw [hnote]
    exact transform_step h (step_moves hs)
  · intro x e y h _
    unfold CancelledUnmoved CancelledStraight
    split
    · rw [h]
    · exact Iff.rfl

end Moved

/-! ### The main result -/

/-- **When every card at rest is straight.**  However the pages, the pans of the cards and the
completions of their animations come: whenever no pan of the card is in progress and no animation of
it is to be completed, it is out of the deck or has the identity transform, exactly when each pan of
it that was cancelled was so while an animation of it was still to be completed, or when it was out
of the deck, or when its transform was the identity. -/
theorem card_at_rest_straight_iff (P : Platform) (id : ℕ) {s : Screen} {es : List Event}
    (hrun : run (step P) .opened es = some s) :
    StatesMeet (step P) (Straight id) .opened es ↔
      StepsMeet (step P) (CancelledStraight id) .opened es := by
  refine statesMeet_iff_stepsMeet (I := fun s => OnlyMade s ∧ Straight id s) (fun s hI => hI.2)
    (fun s e s' _ hstep hstraight => .of_step hstep hstraight) (fun s e s' hI hstep hmeet => ?_)
    ⟨.opened, fun _ => Or.inl List.not_mem_nil⟩ hrun
  have hmove := step_moves hstep
  exact ⟨hI.1.step hmove, hI.2.step hI.1 hmove hmeet⟩

/-- A card is dragged straight down, and the drag comes to an end. -/
def dragDown (state : GestureState) : List Event :=
  [.fetched (some [saveInfoDictionary (some "Ann") "u1" "url"]) none,
    .pan 0 .began { x := 0, y := 0 }, .pan 0 .changed { x := 0, y := 40 },
    .pan 0 state { x := 0, y := 40 }]

theorem card_at_rest_straight_iff_ended :
    ∃ s, run (step levelPlatform) .opened (dragDown .ended ++ [.animationCompleted 0]) = some s ∧
      (StatesMeet (step levelPlatform) (Straight 0) .opened
          (dragDown .ended ++ [.animationCompleted 0]) ↔
        StepsMeet (step levelPlatform) (CancelledStraight 0) .opened
          (dragDown .ended ++ [.animationCompleted 0])) := by
  have hrun : run (step levelPlatform) .opened (dragDown .ended ++ [.animationCompleted 0]) =
      some _ := rfl
  exact ⟨_, hrun, card_at_rest_straight_iff levelPlatform 0 hrun⟩

/-- **A card whose drag is cancelled stays where it is.** -/
theorem cancelled_card_is_not_straight :
    ∃ s, run (step levelPlatform) .opened (dragDown .cancelled) = some s ∧ s.AtRest 0 ∧
      s.InDeck 0 ∧ s.transform 0 = .translation 0 40 ∧ ¬ Straight 0 s := by
  have hrun : run (step levelPlatform) .opened (dragDown .cancelled) = some _ := rfl
  have htransform : (CGAffineTransform.rotation levelPlatform
      (0 / 20 * levelPlatform.pi / 180)).translatedBy 0 40 = .translation 0 40 := by
    ext <;> norm_num [CGAffineTransform.rotation, CGAffineTransform.translatedBy,
      CGAffineTransform.translation, CGAffineTransform.identity, levelPlatform]
  have hne : CGAffineTransform.translation 0 40 ≠ .identity := by
    intro h
    exact absurd (congrArg CGAffineTransform.ty h) (by decide)
  refine ⟨_, hrun, ⟨rfl, ?_⟩, ?_, htransform, ?_⟩
  · rintro ⟨a, ha, -⟩
    exact absurd ha List.not_mem_nil
  · exact List.mem_singleton_self 0
  · intro hstraight
    rcases hstraight ⟨rfl, fun ⟨a, ha, _⟩ => absurd ha List.not_mem_nil⟩ with hout | hidentity
    · exact hout (List.mem_singleton_self 0)
    · exact hne (htransform.symm.trans hidentity)

end Deck
