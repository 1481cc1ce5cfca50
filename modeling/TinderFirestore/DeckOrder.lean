/-
**The order of the deck.**

Nothing in the app keeps the card views of the deck in the order of the cards.  Each new view is put
behind the others, and a view is taken out from wherever it is when the animation that ends its drag
completes.  So the deck, read from front to back, is the list of the cards less those whose
dismissal has completed, whatever the order in which pages, drags and completions come.

* `Deck.arrived`, `Deck.endedPans`, `Deck.completions` — what has happened, read off the events;
* `Deck.Dismissed` — a pan of the card ended far enough out, and its animation has completed;
* `Deck.Shows` — the deck consists of the cards that have not been removed, in order;
* `Deck.deck_shows_cards_in_order` — **the deck shows the fetched users in order.**
-/

import TinderFirestore.DeckGestures

set_option relaxedAutoImplicit false
set_option autoImplicit false

namespace Deck

open Firestore Profile Home EventRun

/-! ### What has happened -/

/-- The documents that a reply appends. -/
def Event.documents : Event → List Dictionary
  | .fetched snapshot none => snapshot.getD []
  | _ => []

/-- The pan that ends. -/
def Event.endedPan : Event → Option Pan
  | .pan id .ended translation => some { card := id, translation := translation }
  | _ => none

/-- The animation that is completed. -/
def Event.completed : Event → Option ℕ
  | .animationCompleted i => some i
  | _ => none

def arrived (es : List Event) : List Dictionary := es.flatMap Event.documents

/-- The pans that have ended; the animation of a pan is identified by its position here. -/
def endedPans (es : List Event) : List Pan := es.filterMap Event.endedPan

def completions (es : List Event) : List ℕ := es.filterMap Event.completed

theorem arrived_concat (es : List Event) (e : Event) :
    arrived (es ++ [e]) = arrived es ++ e.documents := by
  simp [arrived]

theorem endedPans_concat (es : List Event) (e : Event) :
    endedPans (es ++ [e]) = endedPans es ++ e.endedPan.toList := by
  cases h : e.endedPan <;> simp [endedPans, h]

theorem completions_concat (es : List Event) (e : Event) :
    completions (es ++ [e]) = completions es ++ e.completed.toList := by
  cases h : e.completed <;> simp [completions, h]

theorem endedPans_concat_of_none {e : Event} (h : e.endedPan = none) (es : List Event) :
    endedPans (es ++ [e]) = endedPans es := by
  rw [endedPans_concat, h, Option.toList_none, List.append_nil]

theorem completions_concat_of_none {e : Event} (h : e.completed = none) (es : List Event) :
    completions (es ++ [e]) = completions es := by
  rw [completions_concat, h, Option.toList_none, List.append_nil]

/-- One of the pans of the card ended more than 80 points to a side, and its animation is among the
completed ones. -/
def DismissedBy (pans : List Pan) (completed : List ℕ) (id : ℕ) : Prop :=
  ∃ i ∈ completed, ∃ pan ∈ pans[i]?, pan.card = id ∧ |pan.translation.x| > 80

instance (pans : List Pan) (completed : List ℕ) : DecidablePred (DismissedBy pans completed) :=
  fun id => inferInstanceAs (Decidable
    (∃ i ∈ completed, ∃ pan ∈ pans[i]?, pan.card = id ∧ |pan.translation.x| > 80))

/-- The card has been dismissed by the events. -/
def Dismissed (es : List Event) (id : ℕ) : Prop := DismissedBy (endedPans es) (completions es) id

instance (es : List Event) : DecidablePred (Dismissed es) :=
  inferInstanceAs (DecidablePred (DismissedBy (endedPans es) (completions es)))

section Dismissed

variable {pans : List Pan} {completed : List ℕ} {pan : Pan} {i id : ℕ}

/-- A pan whose animation is not completed dismisses nothing. -/
theorem dismissedBy_append_pan (hbound : ∀ i ∈ completed, i < pans.length) :
    DismissedBy (pans ++ [pan]) completed id ↔ DismissedBy pans completed id := by
  refine exists_congr fun i => and_congr_right fun hi => ?_
  rw [List.getElem?_append_left (hbound i hi)]

/-- A completed animation dismisses the card of its pan, if the pan went far enough. -/
theorem dismissedBy_append_completed (hpan : pans[i]? = some pan) :
    DismissedBy pans (completed ++ [i]) id ↔
      DismissedBy pans completed id ∨ pan.card = id ∧ |pan.translation.x| > 80 := by
  simp only [DismissedBy, List.mem_append, List.mem_singleton, or_and_right, exists_or,
    exists_eq_left, hpan, Option.mem_def, Option.some_inj, exists_eq_left']

/-- What has been dismissed stays dismissed. -/
theorem Dismissed.append {es : List Event} (h : Dismissed es id) (es' : List Event) :
    Dismissed (es ++ es') id := by
  obtain ⟨i, hi, pan, hpan, hcard⟩ := h
  refine ⟨i, ?_, pan, ?_, hcard⟩
  · rw [completions, List.filterMap_append]
    exact List.mem_append_left _ hi
  · have hlt : i < (endedPans es).length := (List.getElem?_eq_some_iff.1 hpan).1
    rw [endedPans, List.filterMap_append]
    exact (List.getElem?_append_left hlt).trans hpan

end Dismissed

/-! ### The deck -/

/-- The card views of the cards, in order. -/
def cardViews (cards : List CardViewModel) : List CardView :=
  cards.mapIdx fun id cardViewModel => { id := id, cardViewModel := cardViewModel }

theorem mem_cardViews {cards : List CardViewModel} {card : CardView} :
    card ∈ cardViews cards ↔ cards[card.id]? = some card.cardViewModel := by
  rw [cardViews, List.mem_mapIdx]
  constructor
  · rintro ⟨i, hi, rfl⟩
    exact List.getElem?_eq_getElem hi
  · intro h
    obtain ⟨hlt, heq⟩ := List.getElem?_eq_some_iff.1 h
    exact ⟨card.id, hlt, by rw [heq]⟩

/-- From front to back, the deck consists of the card views that have not been removed. -/
def Shows (home : HomeViewController) (removed : ℕ → Prop) [DecidablePred removed] : Prop :=
  home.cardDesckView.reverse = (cardViews home.cards).filter fun card => ¬ removed card.id

section Shows

variable {home : HomeViewController} {removed removed' : ℕ → Prop} [DecidablePred removed]
  [DecidablePred removed']

theorem Shows.congr (h : Shows home removed) (heq : ∀ id, removed' id ↔ removed id) :
    Shows home removed' := by
  have hfilter : (cardViews home.cards).filter (fun card => ¬ removed' card.id) =
      (cardViews home.cards).filter fun card => ¬ removed card.id :=
    List.filter_congr fun card _ => decide_eq_decide.2 (not_congr (heq card.id))
  exact h.trans hfilter.symm

/-- A new card view is behind the others. -/
theorem Shows.append (h : Shows home removed) (hnew : ¬ removed home.cards.length)
    (d : Dictionary) : Shows (home.append d) removed := by
  have hviews : cardViews (home.append d).cards = cardViews home.cards ++
      [{ id := home.cards.length, cardViewModel := CardViewModel.init (User.init d) }] :=
    List.mapIdx_concat
  rw [Shows, hviews, List.filter_append, ← h, HomeViewController.append, List.reverse_cons,
    List.filter_singleton, decide_eq_true hnew]
  rfl

theorem Shows.foldl_append (h : Shows home removed)
    (hremoved : ∀ id, removed id → id < home.cards.length) (docs : List Dictionary) :
    Shows (docs.foldl HomeViewController.append home) removed := by
  induction docs generalizing home with
  | nil => exact h
  | cons d docs ih =>
      have hlength : (home.append d).cards.length = home.cards.length + 1 := List.length_append
      have hnew : ¬ removed home.cards.length := fun hold => absurd (hremoved _ hold) (by omega)
      refine ih (h.append hnew d) fun id hid => ?_
      have := hremoved id hid
      omega

/-- A card view that is taken out leaves the order of the others as it is. -/
theorem Shows.removeFromSuperview (h : Shows home removed) {id : ℕ}
    (heq : ∀ j, removed' j ↔ removed j ∨ id = j) :
    Shows (home.removeFromSuperview id) removed' := by
  rw [Shows, HomeViewController.removeFromSuperview, ← List.filter_reverse, h, List.filter_filter]
  refine List.filter_congr fun card _ => ?_
  rw [← Bool.decide_and, decide_eq_decide, heq, not_or, and_comm]
  exact and_congr_right fun _ => not_congr eq_comm

/-- The completion of an animation takes out the card of its pan if it went far enough. -/
theorem Shows.completion {s : Screen} {pan : Pan} (h : Shows s.home removed)
    (heq : ∀ j, removed' j ↔ removed j ∨ pan.card = j ∧ |pan.translation.x| > 80) :
    Shows (s.completion pan).home removed' := by
  rw [completion_home]
  by_cases hfar : |pan.translation.x| > 80
  · have hdismiss : pan.shouldDismissCard = true := decide_eq_true hfar
    rw [if_pos hdismiss]
    refine h.removeFromSuperview fun j => ?_
    rw [heq, and_iff_left hfar]
  · have hdismiss : ¬ pan.shouldDismissCard = true := by
      rw [Pan.shouldDismissCard, decide_eq_true_iff]
      exact hfar
    rw [if_neg hdismiss]
    refine h.congr fun j => ?_
    rw [heq]
    exact or_iff_left fun hj => hfar hj.2

end Shows

/-! ### What holds in every state -/

/-- The state of the screen is what has happened makes it. -/
structure OrderInv (s : Screen) (past : List Event) : Prop where
  made : OnlyMade s
  cards : s.home.cards = (arrived past).map fun d => CardViewModel.init (User.init d)
  pans : s.animations.map Animation.pan = endedPans past
  completed : ∀ i a, s.animations[i]? = some a → (a.phase = .completed ↔ i ∈ completions past)
  bound : ∀ i ∈ completions past, i < s.animations.length
  deck : Shows s.home (Dismissed past)

theorem OrderInv.opened : OrderInv .opened [] where
  made := .opened
  cards := rfl
  pans := rfl
  completed := fun i a ha => absurd ha (by simp [Screen.opened])
  bound := fun i hi => absurd hi List.not_mem_nil
  deck := rfl

section Step

variable {P : Platform} {s s' : Screen} {past : List Event} {e : Event}

theorem OrderInv.pans_length (hI : OrderInv s past) :
    (endedPans past).length = s.animations.length := by
  rw [← hI.pans, List.length_map]

/-- Only cards that have been made have been dismissed. -/
theorem OrderInv.dismissed_lt (hI : OrderInv s past) {id : ℕ} (h : Dismissed past id) :
    id < s.home.cards.length := by
  obtain ⟨i, -, pan, hpan, rfl, -⟩ := h
  rw [Option.mem_def, ← hI.pans, List.getElem?_map, Option.map_eq_some_iff] at hpan
  obtain ⟨a, ha, rfl⟩ := hpan
  exact hI.made.animations a (List.mem_of_getElem? ha)

/-- An event that neither ends a pan nor completes an animation dismisses nothing. -/
theorem dismissed_concat_of_none (hpan : e.endedPan = none) (hcompleted : e.completed = none)
    (id : ℕ) : Dismissed (past ++ [e]) id ↔ Dismissed past id := by
  rw [Dismissed, Dismissed, endedPans_concat_of_none hpan, completions_concat_of_none hcompleted]

/-- What such an event has to keep. -/
theorem OrderInv.quiet (hI : OrderInv s past) (hmade : OnlyMade s') (hpan : e.endedPan = none)
    (hcompleted : e.completed = none)
    (hcards : s'.home.cards =
      s.home.cards ++ e.documents.map fun d => CardViewModel.init (User.init d))
    (hdeck : Shows s'.home (Dismissed past)) {f : Animation → Animation}
    (hf : ∀ a, (f a).pan = a.pan ∧ ((f a).phase = .completed ↔ a.phase = .completed))
    (hanimations : s'.animations = s.animations.map f) : OrderInv s' (past ++ [e]) := by
  have hcompletions := completions_concat_of_none hcompleted past
  refine ⟨hmade, ?_, ?_, fun i a ha => ?_, fun i hi => ?_,
    hdeck.congr (dismissed_concat_of_none hpan hcompleted)⟩
  · rw [hcards, hI.cards, arrived_concat, List.map_append]
  · rw [endedPans_concat_of_none hpan, ← hI.pans, hanimations, List.map_map]
    exact List.map_congr_left fun a _ => (hf a).1
  · rw [hanimations, List.getElem?_map, Option.map_eq_some_iff] at ha
    obtain ⟨b, hb, rfl⟩ := ha
    rw [hcompletions, (hf b).2]
    exact hI.completed i b hb
  · rw [hcompletions] at hi
    rw [hanimations, List.length_map]
    exact hI.bound i hi

/-- The end of a pan starts an animation, and leaves the deck as it is. -/
theorem OrderInv.ended (hI : OrderInv s past) (hmade : OnlyMade s') {id : ℕ}
    {translation : CGPoint} (hhome : s'.home = s.home)
    (hanimations : s'.animations = s.animations ++
      [{ pan := { card := id, translation := translation }, phase := .running }]) :
    OrderInv s' (past ++ [.pan id .ended translation]) := by
  have hpans : endedPans (past ++ [.pan id .ended translation]) =
      endedPans past ++ [{ card := id, translation := translation }] := endedPans_concat _ _
  have hcompletions : completions (past ++ [.pan id .ended translation]) = completions past :=
    completions_concat_of_none rfl past
  have hbound : ∀ i ∈ completions past, i < (endedPans past).length := by
    rw [hI.pans_length]
    exact hI.bound
  refine ⟨hmade, ?_, ?_, fun i a ha => ?_, fun i hi => ?_, ?_⟩
  · rw [hhome, hI.cards, arrived_concat]
    exact congrArg _ (List.append_nil _).symm
  · rw [hanimations, List.map_append, hI.pans, hpans]
    rfl
  · rw [hcompletions]
    rw [hanimations] at ha
    rcases Nat.lt_or_ge i s.animations.length with hlt | hge
    · rw [List.getElem?_append_left hlt] at ha
      exact hI.completed i a ha
    · -- the new animation
      have hnot : i ∉ completions past := fun hi => absurd (hI.bound i hi) (by omega)
      rw [List.getElem?_append_right hge] at ha
      obtain rfl := List.mem_singleton.1 (List.mem_of_getElem? ha)
      exact iff_of_false (fun hphase => nomatch hphase) hnot
  · rw [hcompletions] at hi
    have := hI.bound i hi
    rw [hanimations, List.length_append]
    omega
  · rw [hhome]
    refine hI.deck.congr fun j => ?_
    rw [Dismissed, hpans, hcompletions]
    exact dismissedBy_append_pan hbound

/-- An animation that is completed joins the completed ones. -/
theorem completed_set {animations : List Animation} {done : List ℕ}
    (h : ∀ i a, animations[i]? = some a → (a.phase = .completed ↔ i ∈ done)) {i : ℕ}
    {a : Animation} (ha : animations[i]? = some a) {k : ℕ} {b : Animation}
    (hb : (animations.set i { a with phase := .completed })[k]? = some b) :
    b.phase = .completed ↔ k ∈ done ++ [i] := by
  have hlt : i < animations.length := (List.getElem?_eq_some_iff.1 ha).1
  rw [List.mem_append, List.mem_singleton]
  by_cases hki : k = i
  · rw [hki, List.getElem?_set_self hlt, Option.some_inj] at hb
    rw [← hb]
    exact iff_of_true rfl (Or.inr hki)
  · rw [List.getElem?_set_ne (Ne.symm hki)] at hb
    rw [h k b hb]
    exact (or_iff_left hki).symm

/-- The completion of an animation removes the card of its pan if it is to be dismissed. -/
theorem OrderInv.animationCompleted (hI : OrderInv s past) (hmade : OnlyMade s') {i : ℕ}
    {a : Animation} (ha : s.animations[i]? = some a)
    (hhome : s'.home = (s.completion a.pan).home)
    (hanimations : s'.animations = s.animations.set i { a with phase := .completed }) :
    OrderInv s' (past ++ [.animationCompleted i]) := by
  have hlt : i < s.animations.length := (List.getElem?_eq_some_iff.1 ha).1
  have hpans : endedPans (past ++ [.animationCompleted i]) = endedPans past :=
    endedPans_concat_of_none rfl past
  have hcompletions : completions (past ++ [.animationCompleted i]) = completions past ++ [i] :=
    completions_concat _ _
  have hpan : (endedPans past)[i]? = some a.pan := by
    rw [← hI.pans, List.getElem?_map, ha, Option.map_some]
  have hset : (endedPans past).set i a.pan = endedPans past := by
    obtain ⟨hi, heq⟩ := List.getElem?_eq_some_iff.1 hpan
    rw [← heq, List.set_getElem_self]
  refine ⟨hmade, ?_, ?_, fun k b hb => ?_, fun k hk => ?_, ?_⟩
  · rw [hhome, completion_cards, hI.cards, arrived_concat]
    exact congrArg _ (List.append_nil _).symm
  · rw [hanimations, List.map_set, hI.pans, hpans]
    exact hset
  · rw [hcompletions]
    rw [hanimations] at hb
    exact completed_set hI.completed ha hb
  · rw [hanimations, List.length_set]
    rw [hcompletions, List.mem_append, List.mem_singleton] at hk
    rcases hk with hk | rfl
    · exact hI.bound k hk
    · exact hlt
  · rw [hhome]
    refine hI.deck.completion fun j => ?_
    rw [Dismissed, hpans, hcompletions]
    exact dismissedBy_append_completed hpan

/-- **Every step keeps the deck in order.** -/
theorem OrderInv.step (hI : OrderInv s past) (hmove : Moves P s e s') :
    OrderInv s' (past ++ [e]) := by
  have hmade := hI.made.step hmove
  have hsame (a : Animation) : a.pan = a.pan ∧ (a.phase = .completed ↔ a.phase = .completed) :=
    ⟨rfl, Iff.rfl⟩
  cases hmove with
  | @fetched snapshot error =>
      refine hI.quiet hmade rfl rfl ?_ ?_ hsame (List.map_id' _).symm
      · cases error with
        | some error => exact (List.append_nil _).symm
        | none => exact cards_foldl_append s.home _
      · cases error with
        | some error => exact hI.deck
        | none => exact hI.deck.foldl_append (fun id => hI.dismissed_lt) _
  | @began id translation hidle hin =>
      obtain ⟨f, hf, heq⟩ := removeAllAnimations_eq s id
      rw [heq] at hmade ⊢
      exact hI.quiet hmade rfl rfl (List.append_nil _).symm hI.deck hf rfl
  | changed hpan =>
      exact hI.quiet hmade rfl rfl (List.append_nil _).symm hI.deck hsame (List.map_id' _).symm
  | @ended id translation hpan =>
      obtain ⟨t, heq⟩ := handleEnded_eq s id translation
      rw [heq] at hmade ⊢
      exact hI.ended hmade rfl rfl
  | cancelled hpan =>
      exact hI.quiet hmade rfl rfl (List.append_nil _).symm hI.deck hsame (List.map_id' _).symm
  | completed ha hphase => exact hI.animationCompleted hmade ha rfl rfl

end Step

/-- What holds goes on holding. -/
theorem orderInv_run {P : Platform} {s s' : Screen} {past es : List Event} (hI : OrderInv s past)
    (hrun : run (step P) s es = some s') : OrderInv s' (past ++ es) :=
  invariant_run_trace (I := OrderInv) (fun _ _ _ _ hI hstep => hI.step (step_moves hstep)) hI hrun

/-- The front-to-back order, card by card. -/
theorem OrderInv.mem_deck {s : Screen} {past : List Event} (hI : OrderInv s past)
    {card : CardView} : card ∈ s.home.cardDesckView ↔
      s.home.cards[card.id]? = some card.cardViewModel ∧ ¬ Dismissed past card.id := by
  have hdeck := hI.deck
  rw [← List.mem_reverse, hdeck, List.mem_filter, mem_cardViews, decide_eq_true_iff]

/-! ### The main result -/

/-- **The deck shows the fetched users in order.**  However pages of any size, errors, pans and the
completions of their animations come: the cards are those of the documents in the order in which
they arrived, and the deck, read from front to back, consists of their views less those that have
been dismissed, that is, one of whose pans ended more than 80 points to a side and had its animation
completed.  A view that is out of the deck does not come back. -/
theorem deck_shows_cards_in_order (P : Platform) {s : Screen} {es : List Event}
    (hrun : run (step P) .opened es = some s) :
    s.home.cards = ((arrived es).map fun d => CardViewModel.init (User.init d)) ∧
    (s.home.cardDesckView.reverse =
      (cardViews s.home.cards).filter fun card => ¬ Dismissed es card.id) ∧
    ∀ es' s', run (step P) s es' = some s' → ∀ card ∈ s'.home.cardDesckView,
      card.id < s.home.cards.length → card ∈ s.home.cardDesckView := by
  have hI : OrderInv s es := orderInv_run .opened hrun
  refine ⟨hI.cards, hI.deck, fun es' s' hrun' card hcard hid => ?_⟩
  have hI' := orderInv_run hI hrun'
  obtain ⟨hvm, hkept⟩ := hI'.mem_deck.1 hcard
  refine hI.mem_deck.2 ⟨?_, fun hdismissed => hkept (hdismissed.append es')⟩
  rw [hI'.cards, arrived, List.flatMap_append, List.map_append, ← arrived, ← hI.cards,
    List.getElem?_append_left hid] at hvm
  exact hvm

/-- Two cards are fetched.  The one in front is dragged away; before it is gone the other is
dragged, and a third card arrives. -/
def dragAway : List Event :=
  [.fetched (some [saveInfoDictionary (some "Ann") "u1" "a",
      saveInfoDictionary (some "Bea") "u2" "b"]) none,
    .pan 0 .began { x := 0, y := 0 }, .pan 0 .ended { x := 100, y := 0 },
    .pan 1 .began { x := 0, y := 0 },
    .fetched (some [saveInfoDictionary (some "Cleo") "u3" "c"]) none, .animationCompleted 0]

theorem deck_shows_cards_in_order_dragAway :
    ∃ s, run (step levelPlatform) .opened dragAway = some s ∧
      (s.home.cardDesckView.reverse =
        (cardViews s.home.cards).filter fun card => ¬ Dismissed dragAway card.id) ∧
      s.home.cardDesckView.reverse.map CardView.id = [1, 2] := by
  have hrun : run (step levelPlatform) .opened dragAway = some _ := rfl
  exact ⟨_, hrun, (deck_shows_cards_in_order levelPlatform hrun).2.1, rfl⟩

end Deck
