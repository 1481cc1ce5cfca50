/-
**The cards of the home screen, each on its own.**

The card views that the pages make live side by side: each gets its own taps and the end of its own
download, in any order with everything else that happens to the screen.  None of it reaches another
card.  A profile of the app has one photo, so the index of a card never leaves it, its bar stays
empty, and what the card shows is decided by the last one of its own events: a tap puts the asset of
that name in the place of the photo, which is none for a URL, and the end of the download puts the
photo there.

Main definitions:

* `Home.cardAddress` — the card view that an event is for;
* `Home.shownBy`, `Home.shownAfter` — what an event makes a card show, and the last one of several;
* `Home.OfUser` — a card view with its one photo.

Main results:

* `Home.cardViews_hosted` — the screen hosts its card views;
* `Home.home_cards` — **what a card shows is decided by its own events**, however those of the
  others come;
* `Home.home_never_traps` — **no page and no tap stops the program.**
-/

import TinderFirestore.Components
import TinderFirestore.DeckOrder
import TinderFirestore.HomeDisplay

set_option relaxedAutoImplicit false
set_option autoImplicit false

namespace Home

open Firestore Profile EventRun

variable {Image View : Type*}

/-! ### Events of a card view -/

/-- The card view that an event is for. -/
def cardAddress : ℤ × DisplayEvent View → Option (ℕ × Card.Event)
  | (_, .card id e) => some (id, e)
  | _ => none

/-- What an event makes a card show whose photo has the given name. -/
def shownBy (P : Card.Platform Image) (imageName : String) : Card.Event → Option (Option Image)
  | .tap _ _ => some (P.imageNamed imageName)
  | .downloaded => some (some (P.download imageName))
  | .downloadFailed => none

/-- What a card shows after its events: what the last one of them that shows anything does. -/
def shownAfter (P : Card.Platform Image) (imageName : String) (image : Option Image)
    (es : List Card.Event) : Option Image :=
  (es.filterMap (shownBy P imageName)).getLast?.getD image

theorem shownAfter_cons (P : Card.Platform Image) (imageName : String) (image : Option Image)
    (e : Card.Event) (es : List Card.Event) :
    shownAfter P imageName image (e :: es) =
      shownAfter P imageName ((shownBy P imageName e).getD image) es := by
  cases he : shownBy P imageName e with
  | none => rw [shownAfter, List.filterMap_cons_none he, Option.getD_none]; rfl
  | some shown =>
      rw [shownAfter, List.filterMap_cons_some he, List.getLast?_cons, Option.getD_some,
        Option.getD_some, shownAfter]

/-! ### A card view with its one photo -/

/-- A card view of a profile with one photo. -/
structure OfUser (imageName : String) (viewModel : CardViewModel) (card : Card.CardView Image) :
    Prop where
  cardViewModel : card.cardViewModel = some viewModel
  imageNames : viewModel.imageNames = [imageName]
  selectedImageIndex : viewModel.selectedImageIndex = 0
  barView : card.barView.arrangedSubviews = []
  infoStack : card.infoStack =
    { title := some viewModel.title, body := some viewModel.body,
      subtitle := some viewModel.subtitle, layoutType := viewModel.layoutType }
  downloading : ∀ url, card.downloading = some url → url = imageName

section OneCard

variable {imageName : String} {viewModel : CardViewModel} {card card' : Card.CardView Image}

/-- The name of the photo of a document. -/
def photoOf (userDictionary : Dictionary) : String :=
  ((userDictionary "image1Url").bind Value.asString).getD ""

theorem ofUser_madeCard (P : Platform Image View) (userDictionary : Dictionary) :
    OfUser (photoOf userDictionary) (CardViewModel.init (User.init userDictionary))
      (madeCard P userDictionary) := by
  refine ⟨rfl, rfl, rfl, rfl, rfl, fun url hurl => ?_⟩
  exact (Option.some_inj.1 (Option.ite_none_right_eq_some.1 hurl).2).symm

theorem OfUser.follows (h : OfUser imageName viewModel card) : Card.Follows [imageName] 0 card := by
  refine ⟨⟨viewModel, h.cardViewModel, h.imageNames, h.selectedImageIndex⟩, ⟨le_rfl, le_rfl⟩, ?_⟩
  obtain ⟨vm, image, downloading, ⟨arrangedSubviews⟩, infoStack⟩ := card
  obtain rfl : arrangedSubviews = [] := h.barView
  rfl

/-- A switch has nowhere to go on a card with one photo. -/
theorem OfUser.switchPhoto {P : Card.Platform Image} (h : OfUser imageName viewModel card)
    (s : Card.Switch) :
    card.switchPhoto P s = some { card with image := P.imageNamed imageName } := by
  obtain ⟨viewModel', name, hvm, -, hname, -, hcard⟩ := h.follows.switchPhoto_eq (P := P) s
  obtain rfl := Option.some_inj.1 (h.cardViewModel.symm.trans hvm)
  have hindex : Card.switched [imageName] 0 s = 0 := by
    obtain ⟨hlow, hhigh⟩ := Card.switched_mem h.follows.inRange s
    exact le_antisymm hhigh hlow
  rw [hindex] at hname
  obtain rfl : imageName = name := Option.some_inj.1 hname
  have hsame : { viewModel with selectedImageIndex := 0 } = viewModel := by
    rw [← h.selectedImageIndex]
  have hbar : Card.barFor [imageName].length 0 = card.barView := by
    rw [h.follows.bar]
  rw [hcard, hindex, hsame, hbar, ← h.cardViewModel]

/-- **What an event does to a card with one photo.** -/
theorem OfUser.step {P : Card.Platform Image} (h : OfUser imageName viewModel card)
    {e : Card.Event} (hstep : Card.step P card e = some card') :
    OfUser imageName viewModel card' ∧
      card'.image = (shownBy P imageName e).getD card.image := by
  cases e with
  | tap width location =>
      have htap : Card.step P card (.tap width location) =
          some { card with image := P.imageNamed imageName } := by
        rw [Card.step, Card.CardView.tapHandle_eq, h.switchPhoto]
      obtain rfl := Option.some_inj.1 (htap.symm.trans hstep)
      exact ⟨⟨h.cardViewModel, h.imageNames, h.selectedImageIndex, h.barView, h.infoStack,
        h.downloading⟩, rfl⟩
  | downloaded =>
      obtain ⟨url, hurl, rfl⟩ := Option.map_eq_some_iff.1 hstep
      obtain rfl : url = imageName := h.downloading url hurl
      exact ⟨⟨h.cardViewModel, h.imageNames, h.selectedImageIndex, h.barView, h.infoStack,
        fun _ hno => absurd hno (by simp)⟩, rfl⟩
  | downloadFailed =>
      obtain ⟨url, -, rfl⟩ := Option.map_eq_some_iff.1 hstep
      exact ⟨⟨h.cardViewModel, h.imageNames, h.selectedImageIndex, h.barView, h.infoStack,
        fun _ hno => absurd hno (by simp)⟩, rfl⟩

theorem OfUser.run {P : Card.Platform Image} {es : List Card.Event}
    (h : OfUser imageName viewModel card) (hrun : EventRun.run (Card.step P) card es = some card') :
    OfUser imageName viewModel card' ∧ card'.image = shownAfter P imageName card.image es := by
  induction es generalizing card with
  | nil =>
      rw [run_nil, Option.some_inj] at hrun
      exact hrun ▸ ⟨h, rfl⟩
  | cons e es ih =>
      obtain ⟨card₁, hstep, hrun'⟩ := run_cons_eq_some.1 hrun
      obtain ⟨h₁, himage⟩ := h.step hstep
      rw [shownAfter_cons, ← himage]
      exact ih h₁ hrun'

end OneCard

/-! ### The card views of the screen -/

section Hosted

variable {P : Platform Image View} {d d' : Display Image View} {e : ℤ × DisplayEvent View}

/-- The card views after a step: one of them has had an event of its own, or some have been made of
the documents that have arrived. -/
theorem cardViews_step (hmove : Display.Moves P d e d') :
    (∃ id c card card', cardAddress e = some (id, c) ∧ d.CanReceive id c ∧
      d.cardViews[id]? = some card ∧ Card.step P.cards card c = some card' ∧
      d'.cardViews = d.cardViews.set id card' ∧ d'.deck.home.cards = d.deck.home.cards) ∨
    (cardAddress e = none ∧ ∃ docs : List Dictionary,
      d'.cardViews = d.cardViews ++ docs.map (madeCard P) ∧
      d'.deck.home.cards = d.deck.home.cards ++
        docs.map fun doc => CardViewModel.init (User.init doc)) := by
  have hquiet : d.cardViews = d.cardViews ++ ([] : List Dictionary).map (madeCard P) :=
    (List.append_nil _).symm
  have hnocard : d.deck.home.cards = d.deck.home.cards ++
      ([] : List Dictionary).map fun doc => CardViewModel.init (User.init doc) :=
    (List.append_nil _).symm
  cases hmove with
  | @wrote now e uid data he =>
      refine Or.inr ⟨?_, [], hquiet, hnocard⟩
      cases e with
      | card id c => exact absurd he (by simp [DisplayEvent.writes])
      | _ => rfl
  | @fetching now e he =>
      refine Or.inr ⟨?_, [], hquiet, hnocard⟩
      cases e with
      | card i c => exact absurd he id
      | _ => rfl
  | evaluated | failed | hud => exact Or.inr ⟨rfl, [], hquiet, hnocard⟩
  | @paged now q r users hr hphase =>
      exact Or.inr ⟨rfl, getDocuments r.query users, rfl, Deck.cards_foldl_append _ _⟩
  | @gesture now e g deck he hdeck =>
      refine Or.inr ⟨?_, [], hquiet, ?_⟩
      · cases e with
        | card id c => exact absurd he (by simp [DisplayEvent.gesture])
        | _ => rfl
      · rw [← hnocard]
        cases e with
        | pan id state translation =>
            obtain rfl := Option.some_inj.1 he
            cases Deck.step_moves hdeck with
            | @began id translation hidle hin =>
                obtain ⟨f, -, heq⟩ := Deck.removeAllAnimations_eq d.deck id
                rw [heq]
            | @ended id translation hpan =>
                obtain ⟨t, heq⟩ := Deck.handleEnded_eq d.deck id translation
                rw [heq]
            | changed hpan | cancelled hpan => rfl
        | animationCompleted i =>
            obtain rfl := Option.some_inj.1 he
            cases Deck.step_moves hdeck with
            | completed ha hphase => exact Deck.completion_cards _ _
        | _ => exact absurd he (by simp [DisplayEvent.gesture])
  | card hcan hcard hstep => exact Or.inl ⟨_, _, _, _, rfl, hcan, hcard, hstep, rfl, rfl⟩

/-- **The screen hosts its card views.** -/
theorem cardViews_hosted (P : Platform Image View) :
    Components.Hosts (Display.step P) (fun d i => d.cardViews[i]?) cardAddress
      (Card.step P.cards) where
  addressed := by
    intro d d' e i c card haddress hstep hcard
    rcases cardViews_step (Display.step_moves hstep) with
      ⟨id, c', card₀, card', haddress', -, hcard₀, hlocal, hset, -⟩ | ⟨hnone, -⟩
    · obtain ⟨rfl, rfl⟩ := Prod.mk.inj (Option.some_inj.1 (haddress.symm.trans haddress'))
      obtain rfl := Option.some_inj.1 (hcard.symm.trans hcard₀)
      have hlt : i < d.cardViews.length := (List.getElem?_eq_some_iff.1 hcard).1
      exact ⟨card', hlocal, by rw [hset, List.getElem?_set_self hlt]⟩
    · exact absurd (haddress.symm.trans hnone) (by simp)
  others := by
    intro d d' e i card hother hstep hcard
    rcases cardViews_step (Display.step_moves hstep) with
      ⟨id, c', card₀, card', haddress', -, -, -, hset, -⟩ | ⟨-, docs, happend, -⟩
    · have hne : id ≠ i := fun heq => hother c' (heq ▸ haddress')
      rw [hset, List.getElem?_set_ne hne]
      exact hcard
    · have hlt : i < d.cardViews.length := (List.getElem?_eq_some_iff.1 hcard).1
      rw [happend, List.getElem?_append_left hlt]
      exact hcard

/-- No event comes for a card view that has not been made. -/
theorem cardViews_made (hstep : d.step P e = some d') {i : ℕ} {c : Card.Event}
    (haddress : cardAddress e = some (i, c)) : d.cardViews[i]? ≠ none := by
  rcases cardViews_step (Display.step_moves hstep) with
    ⟨id, c', card₀, card', haddress', -, hcard₀, -⟩ | ⟨hnone, -⟩
  · obtain ⟨rfl, rfl⟩ := Prod.mk.inj (Option.some_inj.1 (haddress.symm.trans haddress'))
    simp [hcard₀]
  · exact absurd (haddress.symm.trans hnone) (by simp)

/-! ### The card views and the cards -/

/-- There is a card view for each of the cards, made of the same document. -/
structure CardsInv (d : Display Image View) : Prop where
  length : d.cardViews.length = d.deck.home.cards.length
  ofUser : ∀ (i : ℕ) card, d.cardViews[i]? = some card → ∃ userDictionary,
    d.deck.home.cards[i]? = some (CardViewModel.init (User.init userDictionary)) ∧
      OfUser (photoOf userDictionary) (CardViewModel.init (User.init userDictionary)) card

theorem CardsInv.opened (h : d.Opened) : CardsInv d := by
  refine ⟨?_, fun i card hcard => ?_⟩
  · rw [h.cardViews, h.deck]
    rfl
  · rw [h.cardViews] at hcard
    exact absurd hcard (by simp)

theorem CardsInv.step (h : CardsInv d) (hmove : Display.Moves P d e d') : CardsInv d' := by
  rcases cardViews_step hmove with
    ⟨id, c, card₀, card', -, -, hcard₀, hlocal, hset, hcards⟩ | ⟨-, docs, happend, hcards⟩
  · refine ⟨by rw [hset, List.length_set, h.length, hcards], fun i card hcard => ?_⟩
    rw [hset] at hcard
    rw [hcards]
    by_cases hi : id = i
    · subst hi
      have hlt : id < d.cardViews.length := (List.getElem?_eq_some_iff.1 hcard₀).1
      rw [List.getElem?_set_self hlt, Option.some_inj] at hcard
      obtain ⟨doc, hdoc, hof⟩ := h.ofUser id card₀ hcard₀
      exact ⟨doc, hdoc, hcard ▸ (hof.step hlocal).1⟩
    · rw [List.getElem?_set_ne hi] at hcard
      exact h.ofUser i card hcard
  · refine ⟨?_, fun i card hcard => ?_⟩
    · rw [happend, hcards, List.length_append, List.length_append, List.length_map,
        List.length_map, h.length]
    · rw [happend] at hcard
      rw [hcards]
      rcases lt_or_ge i d.cardViews.length with hlt | hge
      · rw [List.getElem?_append_left hlt] at hcard
        rw [List.getElem?_append_left (h.length ▸ hlt)]
        exact h.ofUser i card hcard
      · rw [List.getElem?_append_right hge, List.getElem?_map, Option.map_eq_some_iff] at hcard
        obtain ⟨doc, hdoc, rfl⟩ := hcard
        rw [List.getElem?_append_right (h.length ▸ hge), List.getElem?_map, ← h.length, hdoc,
          Option.map_some]
        exact ⟨doc, rfl, ofUser_madeCard P doc⟩

end Hosted

/-! ### The main results -/

section Main

variable {P : Platform Image View} {d₀ d : Display Image View}
  {es : List (ℤ × DisplayEvent View)}

theorem cardsInv_run (h₀ : d₀.Opened) (hrun : run (Display.step P) d₀ es = some d) : CardsInv d :=
  invariant_run (fun _ _ _ h hstep => h.step (Display.step_moves hstep)) (.opened h₀) hrun

/-- **What a card shows is decided by its own events.**  In every state that the screen can reach,
a card view is what its own taps and the end of its own download have made of the view of some
document, however they came among the pages, the gestures, the HUDs and the events of the other
cards.  It shows the texts of the document's profile, still selects its only photo, has no segment
in its bar, and its image is that of the last of its events that has one: after a tap the asset of
the photo's name, after the download the photo. -/
theorem home_cards (h₀ : d₀.Opened) (hrun : run (Display.step P) d₀ es = some d) {i : ℕ}
    {card : Card.CardView Image} (hcard : d.cardViews[i]? = some card) :
    ∃ userDictionary,
      run (Card.step P.cards) (madeCard P userDictionary)
        (Components.eventsFor cardAddress i es) = some card ∧
      card.cardViewModel = some (CardViewModel.init (User.init userDictionary)) ∧
      card.infoStack = (madeCard P userDictionary).infoStack ∧
      card.barView.arrangedSubviews = [] ∧
      card.image = shownAfter P.cards (photoOf userDictionary) (madeCard P userDictionary).image
        (Components.eventsFor cardAddress i es) := by
  have hmade : ∀ {s s' : Display Image View} {e : ℤ × DisplayEvent View} {j : ℕ}
      {c : Card.CardView Image}, s.step P e = some s' → s.cardViews[j]? = none →
      s'.cardViews[j]? = some c → ∃ doc, c = madeCard P doc := by
    intro s s' e j c hstep hnone hsome
    rcases cardViews_step (Display.step_moves hstep) with
      ⟨id, c', card₀, card', -, -, hcard₀, -, hset, -⟩ | ⟨-, docs, happend, -⟩
    · rw [hset] at hsome
      have hlt : j < (s.cardViews.set id card').length := (List.getElem?_eq_some_iff.1 hsome).1
      rw [List.length_set] at hlt
      exact absurd hnone (by simp [hlt])
    · have hge : s.cardViews.length ≤ j := List.getElem?_eq_none_iff.1 hnone
      rw [happend, List.getElem?_append_right hge, List.getElem?_map,
        Option.map_eq_some_iff] at hsome
      obtain ⟨doc, -, rfl⟩ := hsome
      exact ⟨doc, rfl⟩
  obtain ⟨c₀, ⟨doc, rfl⟩, hlocal⟩ := (cardViews_hosted P).origin
    (fun haddress hstep => cardViews_made hstep haddress) hmade (by simp [h₀.cardViews]) hrun hcard
  obtain ⟨hof, himage⟩ := (ofUser_madeCard P doc).run hlocal
  exact ⟨doc, hlocal, hof.cardViewModel, hof.infoStack, hof.barView, himage⟩

/-- **No page and no tap stops the program.**  In every state that the screen can reach: the reply
of every query that has been evaluated can be handled, whatever its documents hold beside their
uids; and every card in the deck has its view, which shows the card's view model and can be tapped
anywhere. -/
theorem home_never_traps (h₀ : d₀.Opened) (hrun : run (Display.step P) d₀ es = some d) (now : ℤ) :
    (∀ q r users, d.requests[q]? = some r → r.phase = .evaluated users →
      ∃ d', d.step P (now, .page q) = some d') ∧
    ∀ c ∈ d.deck.home.cardDesckView, ∃ card, d.cardViews[c.id]? = some card ∧
      card.cardViewModel = some c.cardViewModel ∧
      ∀ width location, ∃ d', d.step P (now, .card c.id (.tap width location)) = some d' := by
  constructor
  · intro q r users hr hphase
    have hstep : d.step P (now, .page q) =
        d.completion P now q r (some (getDocuments r.query users)) none := by
      rw [Display.step, hr, Option.bind_some, hphase]
    exact ⟨_, hstep.trans (completion_eq P now d q r _ none)⟩
  · intro c hc
    have hI : CardsInv d := cardsInv_run h₀ hrun
    have hdeck : run (Deck.step P.gestures) .opened
        (Refinement.traceOf (Display.step P) deckLabel d₀ es) = some d.deck :=
      h₀.deck ▸ (deck_refines P).run trivial hrun
    have hvm := ((Deck.orderInv_run .opened hdeck).mem_deck.1 hc).1
    have hlt : c.id < d.cardViews.length := hI.length ▸ (List.getElem?_eq_some_iff.1 hvm).1
    have hcard : d.cardViews[c.id]? = some d.cardViews[c.id] := List.getElem?_eq_getElem hlt
    obtain ⟨doc, hdoc, hof⟩ := hI.ofUser c.id _ hcard
    have heq : c.cardViewModel = CardViewModel.init (User.init doc) :=
      Option.some_inj.1 (hvm.symm.trans hdoc)
    refine ⟨_, hcard, hof.cardViewModel.trans (congrArg some heq.symm), fun width location => ?_⟩
    have hcan : d.CanReceive c.id (.tap width location) := List.mem_map_of_mem hc
    have hlocal : ∃ card', Card.step P.cards d.cardViews[c.id] (.tap width location) =
        some card' := by
      rw [Card.step, Card.CardView.tapHandle_eq, hof.switchPhoto]
      exact ⟨_, rfl⟩
    obtain ⟨card', hcard'⟩ := hlocal
    refine ⟨{ d with cardViews := d.cardViews.set c.id card' }, ?_⟩
    rw [Display.step, if_pos hcan, hcard, Option.bind_some, hcard', Option.map_some]

end Main

/-- Two cards: the photo of one arrives after a gesture on the other, and that of the other fails. -/
def twoCards : List (ℤ × DisplayEvent Unit) :=
  [(0, .saveInfoToFirestore "a" (some "Ann") "url1"),
    (0, .saveInfoToFirestore "b" (some "Bea") "url2"), (1, .viewDidLoad), (2, .evaluate 0),
    (3, .page 0), (4, .pan 0 .began { x := 0, y := 0 }), (5, .card 1 .downloaded),
    (6, .card 0 .downloadFailed)]

theorem home_cards_twoCards :
    ∃ d card, run (Display.step plainPlatform) openedDisplay twoCards = some d ∧
      d.cardViews[1]? = some card ∧ card.image = some "url2" ∧
      ∃ userDictionary, card.image = shownAfter Card.webPlatform (photoOf userDictionary) none
        [.downloaded] := by
  have hrun : run (Display.step plainPlatform) openedDisplay twoCards = some _ := rfl
  obtain ⟨doc, -, -, -, -, himage⟩ := home_cards (i := 1) ⟨rfl, rfl, rfl⟩ hrun rfl
  exact ⟨_, _, hrun, rfl, rfl, doc, himage⟩

/-- Two queries have been evaluated, and the page of the first one has come. -/
def twoQueries : List (ℤ × DisplayEvent Unit) :=
  [(0, .saveInfoToFirestore "a" (some "Ann") "url1"), (1, .viewDidLoad), (2, .refreshHandle),
    (3, .evaluate 0), (4, .evaluate 1), (5, .page 0)]

theorem home_never_traps_twoQueries :
    ∃ d, run (Display.step plainPlatform) openedDisplay twoQueries = some d ∧
      (∃ d', d.step plainPlatform (6, .page 1) = some d') ∧
      d.deck.home.cardDesckView.length = 1 ∧
      ∀ c ∈ d.deck.home.cardDesckView, ∃ d',
        d.step plainPlatform (6, .card c.id (.tap 300 200)) = some d' := by
  have hrun : run (Display.step plainPlatform) openedDisplay twoQueries = some _ := rfl
  have hnever := home_never_traps ⟨rfl, rfl, rfl⟩ hrun 6
  refine ⟨_, hrun, hnever.1 1 _ _ rfl rfl, rfl, fun c hc => ?_⟩
  obtain ⟨card, -, -, htap⟩ := hnever.2 c hc
  exact htap 300 200

end Home
