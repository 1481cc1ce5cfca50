/-
**The deck and its gestures.**

The deck of the home screen is filled by the pages of the fetch and emptied by the gestures of the
user.  Each card has a pan recognizer.  While it is being dragged the card is shifted and turned;
when the drag ends an animation takes it out of the deck or back to its place, and only when the
animation has completed is the card removed and its transform restored.  Another drag may begin
before that.

The model follows `panHandle`, `handleEnded` and `handleChanged` of `CardView`, for the cards that
`HomeViewController` makes.  A card is identified by its position in `cards`, and an animation by
its position in the list of all of them.  Completions come in any order: nothing is assumed of the
time that an animation takes, or of when the completion of an animation that was removed is called.

Main definitions:

* `Deck.CGAffineTransform` — the transforms, as far as the gestures use them;
* `Deck.Screen`, `Deck.Screen.panHandle` — the deck with its gestures, and what the recognizer
  calls;
* `Deck.Event`, `Deck.step` — **what an event does**.

Main results:

* `Deck.step_moves` — the steps, one by one;
* `Deck.OnlyMade`, `Deck.OnlyMade.step` — **only cards that have been made** are in the deck, are
  dragged or are animated.
-/

import TinderFirestore.HomeFetch
import Mathlib.Algebra.Order.Group.Unbundled.Abs
import Mathlib.Data.Rat.Defs
import Mathlib.Algebra.Order.Ring.Rat

set_option relaxedAutoImplicit false
set_option autoImplicit false

namespace Deck

open Firestore Profile Home EventRun

/-! ### Transforms -/

structure CGPoint where
  x : ℚ
  y : ℚ
  deriving DecidableEq

@[ext] structure CGAffineTransform where
  a : ℚ
  b : ℚ
  c : ℚ
  d : ℚ
  tx : ℚ
  ty : ℚ
  deriving DecidableEq

/-- What the transforms rely on of the frameworks. -/
structure Platform where
  cos : ℚ → ℚ
  sin : ℚ → ℚ
  pi : ℚ

namespace CGAffineTransform

def identity : CGAffineTransform := { a := 1, b := 0, c := 0, d := 1, tx := 0, ty := 0 }

/-- `init(translationX:y:)`. -/
def translation (x y : ℚ) : CGAffineTransform := { identity with tx := x, ty := y }

/-- `init(rotationAngle:)`. -/
def rotation (P : Platform) (angle : ℚ) : CGAffineTransform where
  a := P.cos angle
  b := P.sin angle
  c := -P.sin angle
  d := P.cos angle
  tx := 0
  ty := 0

/-- The transform `t` after a translation. -/
def translatedBy (t : CGAffineTransform) (x y : ℚ) : CGAffineTransform :=
  { t with
    tx := x * t.a + y * t.c + t.tx
    ty := x * t.b + y * t.d + t.ty }

end CGAffineTransform

/-! ### The screen -/

/-- `UIGestureRecognizer.State`. -/
inductive GestureState
  | possible
  | began
  | changed
  | ended
  | cancelled
  | failed
  deriving DecidableEq

/-- A pan that has ended: the card, and the translation of the gesture. -/
structure Pan where
  card : ℕ
  translation : CGPoint
  deriving DecidableEq

/-- The field of `CardView`. -/
def treshold : ℚ := 80

/-- `shouldDismissCard`, as `handleEnded` computes it. -/
def Pan.shouldDismissCard (pan : Pan) : Bool := decide (|pan.translation.x| > treshold)

/-- An animation that `handleEnded` starts is running or has been removed until its completion is
called. -/
inductive AnimationPhase
  | running
  | removed
  | completed
  deriving DecidableEq

structure Animation where
  pan : Pan
  phase : AnimationPhase
  deriving DecidableEq

/-- The home screen, and what belongs to each of its card views: the transform, and whether its pan
recognizer is in the middle of a pan. -/
structure Screen where
  home : HomeViewController
  transform : ℕ → CGAffineTransform
  panning : ℕ → Bool
  animations : List Animation

/-- The screen before anything has been fetched. -/
def Screen.opened : Screen where
  home := { cards := [], lastFetchedUser := none, cardDesckView := [] }
  transform := fun _ => .identity
  panning := fun _ => false
  animations := []

namespace Screen

/-- The card has a superview. -/
def InDeck (s : Screen) (id : ℕ) : Prop := id ∈ s.home.cardDesckView.map CardView.id

instance (s : Screen) (id : ℕ) : Decidable (s.InDeck id) :=
  inferInstanceAs (Decidable (id ∈ s.home.cardDesckView.map CardView.id))

/-- `superview?.subviews.forEach({$0.layer.removeAllAnimations()})`. -/
def removeAllAnimations (s : Screen) (id : ℕ) : Screen :=
  if s.InDeck id then
    { s with
      animations := s.animations.map fun a =>
        if a.phase = .running ∧ s.InDeck a.pan.card then { a with phase := .removed } else a }
  -- a card without a superview has no siblings
  else s

def setTransform (s : Screen) (id : ℕ) (transform : CGAffineTransform) : Screen :=
  { s with transform := Function.update s.transform id transform }

/-- `handleEnded`, up to the animation that it starts. -/
def handleEnded (s : Screen) (id : ℕ) (translation : CGPoint) : Screen :=
  -- no translation counts as one to the left
  let translationDirection : ℚ := if translation.x > 0 then 1 else -1
  let pan : Pan := { card := id, translation := translation }
  let s' :=
    if pan.shouldDismissCard then s.setTransform id (.translation (600 * translationDirection) 0)
    else s.setTransform id .identity
  { s' with animations := s.animations ++ [{ pan := pan, phase := .running }] }

/-- The completion closure of the animation of a pan. -/
def completion (s : Screen) (pan : Pan) : Screen :=
  let s' := s.setTransform pan.card .identity
  -- decided when the pan ended, so a later pan of the same card makes no difference
  if pan.shouldDismissCard then { s' with home := s.home.removeFromSuperview pan.card } else s'

def handleChanged (P : Platform) (s : Screen) (id : ℕ) (translation : CGPoint) : Screen :=
  let degrees := translation.x / 20 * P.pi / 180
  let rotationTransform := CGAffineTransform.rotation P degrees
  let translateTransform := rotationTransform.translatedBy translation.x translation.y
  s.setTransform id translateTransform

def panHandle (P : Platform) (s : Screen) (id : ℕ) (state : GestureState) (translation : CGPoint) :
    Screen :=
  match state with
  | .began => s.removeAllAnimations id
  | .ended => s.handleEnded id translation
  | .changed => s.handleChanged P id translation
  -- `default: break`, which takes `.cancelled` and `.failed` too
  | _ => s

end Screen

/-! ### Events -/

/-- What can happen to the deck. -/
inductive Event
  /-- A query of `fetchUsers` is replied to. -/
  | fetched (snapshot : Option (List Dictionary)) (error : Option String)
  /-- The pan recognizer of a card calls its target. -/
  | pan (id : ℕ) (state : GestureState) (translation : CGPoint)
  /-- The completion of an animation is called. -/
  | animationCompleted (i : ℕ)

/-- Whether a pan is in progress after its recognizer has been in a state. -/
def GestureState.inProgress : GestureState → Bool
  | .began | .changed => true
  | _ => false

/-- When the recognizer of a card can be in a state: a pan begins on a card in the deck; it is
changed, and comes to its end, after it has begun. -/
def Screen.delivers (s : Screen) (id : ℕ) : GestureState → Bool
  | .began => !s.panning id && decide (s.InDeck id)
  | .changed | .ended | .cancelled => s.panning id
  | .possible | .failed => false

/-- **What an event does**, if it can happen. -/
def step (P : Platform) (s : Screen) : Event → Option Screen
  | .fetched snapshot error => some { s with home := s.home.completion snapshot error }
  | .pan id state translation =>
    if s.delivers id state then
      some { s.panHandle P id state translation with
        panning := Function.update s.panning id state.inProgress }
    else none
  | .animationCompleted i => do
    let a ← s.animations[i]?
    match a.phase with
    | .completed => none
    | _ =>
      some { s.completion a.pan with
        animations := s.animations.set i { a with phase := .completed } }

/-! ### The steps, one by one -/

/-- What the events do, one case each. -/
inductive Moves (P : Platform) (s : Screen) : Event → Screen → Prop
  | fetched {snapshot : Option (List Dictionary)} {error : Option String} :
      Moves P s (.fetched snapshot error) { s with home := s.home.completion snapshot error }
  | began {id : ℕ} {translation : CGPoint} (hidle : s.panning id = false) (hin : s.InDeck id) :
      Moves P s (.pan id .began translation)
        { s.removeAllAnimations id with panning := Function.update s.panning id true }
  | changed {id : ℕ} {translation : CGPoint} (hpan : s.panning id = true) :
      Moves P s (.pan id .changed translation)
        { s.handleChanged P id translation with panning := Function.update s.panning id true }
  | ended {id : ℕ} {translation : CGPoint} (hpan : s.panning id = true) :
      Moves P s (.pan id .ended translation)
        { s.handleEnded id translation with panning := Function.update s.panning id false }
  | cancelled {id : ℕ} {translation : CGPoint} (hpan : s.panning id = true) :
      Moves P s (.pan id .cancelled translation)
        { s with panning := Function.update s.panning id false }
  | completed {i : ℕ} {a : Animation} (ha : s.animations[i]? = some a)
      (hphase : a.phase ≠ .completed) :
      Moves P s (.animationCompleted i)
        { s.completion a.pan with
          animations := s.animations.set i { a with phase := .completed } }

/-- **The steps, one by one.** -/
theorem step_moves {P : Platform} {s s' : Screen} {e : Event} (h : step P s e = some s') :
    Moves P s e s' := by
  cases e with
  | fetched snapshot error =>
      obtain rfl := Option.some_inj.1 h
      exact .fetched
  | pan id state translation =>
      rw [step, Option.ite_none_right_eq_some, Option.some_inj] at h
      obtain ⟨hdelivers, rfl⟩ := h
      cases state with
      | began =>
          have hboth : (!s.panning id) = true ∧ decide (s.InDeck id) = true :=
            Bool.and_eq_true_iff.1 hdelivers
          exact .began (by simpa using hboth.1) (of_decide_eq_true hboth.2)
      | changed => exact .changed hdelivers
      | ended => exact .ended hdelivers
      | cancelled => exact .cancelled hdelivers
      | possible => exact absurd hdelivers Bool.false_ne_true
      | failed => exact absurd hdelivers Bool.false_ne_true
  | animationCompleted i =>
      obtain ⟨a, ha, h⟩ := Option.bind_eq_some_iff.1 h
      split at h
      · exact absurd h (by simp)
      · next hphase =>
          obtain rfl := Option.some_inj.1 h
          exact .completed ha hphase

/-! ### What the handlers leave alone -/

section Handlers

variable (P : Platform) (s : Screen) (id : ℕ) (translation : CGPoint)

theorem cards_foldl_append (home : HomeViewController) (docs : List Dictionary) :
    (docs.foldl HomeViewController.append home).cards =
      home.cards ++ docs.map fun d => CardViewModel.init (User.init d) := by
  induction docs generalizing home with
  | nil => exact (List.append_nil _).symm
  | cons d docs ih =>
      rw [List.foldl_cons, ih, List.map_cons, List.append_cons]
      rfl

/-- A reply appends cards. -/
theorem cards_prefix_completion (home : HomeViewController) (snapshot : Option (List Dictionary))
    (error : Option String) : home.cards <+: (home.completion snapshot error).cards := by
  cases error with
  | some error => exact List.prefix_rfl
  | none => exact ⟨_, (cards_foldl_append home _).symm⟩

/-- An animation that is removed is still that of its pan, and still to be completed. -/
theorem removeAllAnimations_eq :
    ∃ f : Animation → Animation,
      (∀ a, (f a).pan = a.pan ∧ ((f a).phase = .completed ↔ a.phase = .completed)) ∧
      s.removeAllAnimations id = { s with animations := s.animations.map f } := by
  by_cases hin : s.InDeck id
  · rw [Screen.removeAllAnimations, if_pos hin]
    refine ⟨_, fun a => ?_, rfl⟩
    split
    · next h => exact ⟨rfl, iff_of_false (fun heq => nomatch heq) (by rw [h.1]; decide)⟩
    · exact ⟨rfl, Iff.rfl⟩
  · rw [Screen.removeAllAnimations, if_neg hin]
    exact ⟨fun a => a, fun a => ⟨rfl, Iff.rfl⟩, by rw [List.map_id']⟩

theorem handleEnded_eq :
    ∃ transform, s.handleEnded id translation =
      { s with
        transform := Function.update s.transform id transform
        animations := s.animations ++
          [{ pan := { card := id, translation := translation }, phase := .running }] } := by
  simp only [Screen.handleEnded, Screen.setTransform]
  split
  · exact ⟨_, rfl⟩
  · exact ⟨_, rfl⟩

theorem completion_transform (pan : Pan) :
    (s.completion pan).transform = Function.update s.transform pan.card .identity := by
  rw [Screen.completion]
  split <;> rfl

theorem completion_panning (pan : Pan) : (s.completion pan).panning = s.panning := by
  rw [Screen.completion]
  split <;> rfl

theorem completion_home (pan : Pan) :
    (s.completion pan).home =
      if pan.shouldDismissCard then s.home.removeFromSuperview pan.card else s.home := by
  rw [Screen.completion]
  split <;> rfl

theorem completion_cards (pan : Pan) : (s.completion pan).home.cards = s.home.cards := by
  rw [completion_home]
  split <;> rfl

end Handlers

/-! ### Only cards that have been made -/

/-- What has to do with a card has to do with one that has been made. -/
structure OnlyMade (s : Screen) : Prop where
  panning : ∀ id, s.panning id = true → id < s.home.cards.length
  animations : ∀ a ∈ s.animations, a.pan.card < s.home.cards.length
  deck : ∀ id, s.InDeck id → id < s.home.cards.length
  transform : ∀ id, s.home.cards.length ≤ id → s.transform id = .identity

theorem OnlyMade.opened : OnlyMade .opened := by
  refine ⟨fun id h => ?_, fun a ha => ?_, fun id h => ?_, fun id _ => rfl⟩
  · exact absurd h Bool.false_ne_true
  · exact absurd ha List.not_mem_nil
  · exact absurd h List.not_mem_nil

theorem inDeck_foldl_append {home : HomeViewController} {docs : List Dictionary} {id : ℕ}
    (h : id ∈ (docs.foldl HomeViewController.append home).cardDesckView.map CardView.id) :
    id ∈ home.cardDesckView.map CardView.id ∨
      home.cards.length ≤ id ∧ id < (docs.foldl HomeViewController.append home).cards.length := by
  induction docs generalizing home with
  | nil => exact Or.inl h
  | cons d docs ih =>
      have hlength : (home.append d).cards.length = home.cards.length + 1 := List.length_append
      have hprefix : (home.append d).cards.length ≤
          (docs.foldl HomeViewController.append (home.append d)).cards.length := by
        rw [cards_foldl_append, List.length_append]
        exact Nat.le_add_right _ _
      rw [List.foldl_cons] at h ⊢
      rcases ih h with hin | ⟨hlow, hhigh⟩
      · rcases List.mem_cons.1 hin with rfl | hin
        · have hmade : home.cards.length <
              (docs.foldl HomeViewController.append (home.append d)).cards.length := by
            omega
          exact Or.inr ⟨le_rfl, hmade⟩
        · exact Or.inl hin
      · exact Or.inr ⟨by omega, hhigh⟩

/-- A card that is in the deck after a reply was in it before, or has been made. -/
theorem inDeck_completion {home : HomeViewController} {snapshot : Option (List Dictionary)}
    {error : Option String} {id : ℕ}
    (h : id ∈ (home.completion snapshot error).cardDesckView.map CardView.id) :
    id ∈ home.cardDesckView.map CardView.id ∨
      home.cards.length ≤ id ∧ id < (home.completion snapshot error).cards.length := by
  cases error with
  | some error => exact Or.inl h
  | none => exact inDeck_foldl_append h

/-- The completion of an animation puts no card into the deck. -/
theorem Screen.InDeck.of_completion {s : Screen} {pan : Pan} {id : ℕ}
    (h : (s.completion pan).InDeck id) : s.InDeck id := by
  rw [Screen.InDeck, completion_home] at h
  split at h
  · exact (List.filter_sublist.map CardView.id).mem h
  · exact h

/-- A pan of a card that is panned already, or is in the deck, begins or ends. -/
theorem OnlyMade.panning_update {s : Screen} (hI : OnlyMade s) {id : ℕ} {b : Bool}
    (hpan : s.panning id = true ∨ s.InDeck id) (id' : ℕ)
    (h : Function.update s.panning id b id' = true) : id' < s.home.cards.length := by
  by_cases hid : id' = id
  · subst hid
    rcases hpan with hpan | hin
    · exact hI.panning id' hpan
    · exact hI.deck id' hin
  · rw [Function.update_of_ne hid] at h
    exact hI.panning id' h

/-- A card that has been made is transformed. -/
theorem OnlyMade.transform_update {s : Screen} (hI : OnlyMade s) {id : ℕ} {t : CGAffineTransform}
    (hid : id < s.home.cards.length) (id' : ℕ) (h : s.home.cards.length ≤ id') :
    Function.update s.transform id t id' = .identity := by
  have hne : id' ≠ id := by omega
  rw [Function.update_of_ne hne]
  exact hI.transform id' h

theorem OnlyMade.step {P : Platform} {s s' : Screen} {e : Event} (hI : OnlyMade s)
    (hmove : Moves P s e s') : OnlyMade s' := by
  cases hmove with
  | @fetched snapshot error =>
      have hlength := (cards_prefix_completion s.home snapshot error).length_le
      refine ⟨fun id h => (hI.panning id h).trans_le hlength,
        fun a ha => (hI.animations a ha).trans_le hlength, fun id h => ?_,
        fun id h => hI.transform id (hlength.trans h)⟩
      rcases inDeck_completion h with hin | ⟨-, hhigh⟩
      · exact (hI.deck id hin).trans_le hlength
      · exact hhigh
  | @began id translation hidle hin =>
      obtain ⟨f, hf, heq⟩ := removeAllAnimations_eq s id
      rw [heq]
      refine ⟨hI.panning_update (Or.inr hin), fun a ha => ?_, hI.deck, hI.transform⟩
      obtain ⟨b, hb, rfl⟩ := List.mem_map.1 ha
      rw [(hf b).1]
      exact hI.animations b hb
  | @changed id translation hpan =>
      exact ⟨hI.panning_update (Or.inl hpan), hI.animations, hI.deck,
        hI.transform_update (hI.panning id hpan)⟩
  | @ended id translation hpan =>
      obtain ⟨t, heq⟩ := handleEnded_eq s id translation
      rw [heq]
      refine ⟨hI.panning_update (Or.inl hpan), fun a ha => ?_, hI.deck,
        hI.transform_update (hI.panning id hpan)⟩
      rcases List.mem_append.1 ha with ha | ha
      · exact hI.animations a ha
      · rw [List.mem_singleton.1 ha]
        exact hI.panning id hpan
  | @cancelled id translation hpan =>
      exact ⟨hI.panning_update (Or.inl hpan), hI.animations, hI.deck, hI.transform⟩
  | @completed i a ha hphase =>
      have hcard := hI.animations a (List.mem_of_getElem? ha)
      refine ⟨fun id h => ?_, fun b hb => ?_, fun id h => ?_, fun id h => ?_⟩
      · rw [completion_cards]
        exact hI.panning id (by rwa [completion_panning] at h)
      · rw [completion_cards]
        rcases List.mem_or_eq_of_mem_set hb with hb | rfl
        · exact hI.animations b hb
        · exact hcard
      · rw [completion_cards]
        exact hI.deck id (Screen.InDeck.of_completion h)
      · rw [completion_cards] at h
        rw [completion_transform]
        exact hI.transform_update hcard id h

/-- A platform whose sine and cosine are right for the angle 0. -/
def levelPlatform : Platform where
  cos := fun _ => 1
  sin := fun angle => angle
  pi := 22 / 7

end Deck
