/-
**The home screen as a whole.**

The home screen is made of parts that the other modules follow one at a time: the pages of the
fetch, the deck and its gestures, the views of the cards, and a HUD for each fetch.  Here they are
one system.  A page makes a card view for each of its documents, a card view has its own taps and
its own download, and the HUD of a fetch is shown when the query is sent and dismissed one second
after the reply.

Main definitions:

* `Home.Request`, `Home.Display` — a call of `fetchUsers` with its HUD, and the whole screen;
* `Home.Display.append`, `Home.Display.completion` — what a document and what a reply do;
* `Home.DisplayEvent`, `Home.Display.step` — **what an event does**;
* `Home.Display.system`, `Home.systemLabel`, `Home.deckLabel` — the screen as the system of
  `TinderFirestore/HomeFetch.lean`, and what that system and the deck of
  `TinderFirestore/DeckGestures.lean` see of a step.

Main results:

* `Home.DisplayInv.step` — **what every step keeps**: of the cards, of the requests and of the HUDs;
* `Home.display_refines` — **the whole screen refines the two systems**;
* `Home.home_huds` — **the HUD of a fetch is on the screen until the reply, and goes away after
  it.**
-/

import TinderFirestore.CardPhoto
import TinderFirestore.DeckGestures
import TinderFirestore.ProgressHudLeave
import TinderFirestore.Refinement

set_option relaxedAutoImplicit false
set_option autoImplicit false

namespace Home

open Firestore Profile EventRun ProgressHud

variable {Image View : Type*}

/-! ### The screen -/

/-- What the screen relies on of the frameworks, and its view. -/
structure Platform (Image View : Type*) where
  cards : Card.Platform Image
  gestures : Deck.Platform
  view : View

/-- One call of `fetchUsers`, with its HUD. -/
structure Request (View : Type*) where
  query : Query
  phase : QueryPhase
  hud : JGProgressHUD View

/-- The collection and the whole screen.  The card views are those that have been made, in order. -/
structure Display (Image View : Type*) where
  users : Collection
  deck : Deck.Screen
  cardViews : List (Card.CardView Image)
  requests : List (Request View)

/-- The screen before it appears. -/
structure Display.Opened (d : Display Image View) : Prop where
  deck : d.deck = .opened
  cardViews : d.cardViews = []
  requests : d.requests = []

/-- The HUD of a call of `fetchUsers`. -/
def fetchingHud (P : Platform Image View) (now : ℤ) : JGProgressHUD View :=
  JGProgressHUD.init.performAll now [.setText "Fetching users", .showInView P.view true]

namespace Display

def fetchUsers (P : Platform Image View) (now : ℤ) (d : Display Image View) :
    Display Image View :=
  { d with
    requests := d.requests ++
      [{ query := usersQuery d.deck.home.cursor, phase := .sent, hud := fetchingHud P now }] }

/-- The body of the `forEach` in `fetchUsers`.  It makes a card view, which may trap. -/
def append (P : Platform Image View) (d : Display Image View) (userDictionary : Dictionary) :
    Option (Display Image View) :=
  let cardViewModel := CardViewModel.init (User.init userDictionary)
  ((Card.CardView.init P.cards).setCardViewModel P.cards (some cardViewModel)).map fun card =>
    { d with
      deck := { d.deck with home := d.deck.home.append userDictionary }
      cardViews := d.cardViews ++ [card] }

/-- The completion handler of the query of a request. -/
def completion (P : Platform Image View) (now : ℤ) (d : Display Image View) (q : ℕ)
    (r : Request View) (snapshot : Option (List Dictionary)) (error : Option String) :
    Option (Display Image View) :=
  let r' := { r with phase := .handled, hud := r.hud.dismissAfterDelay now NSEC_PER_SEC true }
  let d' := { d with requests := d.requests.set q r' }
  match error with
  | some _ => some d'
  | none => (snapshot.getD []).foldlM (append P) d'

end Display

/-! ### Events -/

/-- What can happen to the screen, and to the collection. -/
inductive DisplayEvent (View : Type*)
  | saveInfoToFirestore (uid : String) (fullName : Option String) (imageURL : String)
  | saveHandle (uid : String) (user : Option User)
  | viewDidLoad
  | refreshHandle
  /-- The backend evaluates the query of a request. -/
  | evaluate (q : ℕ)
  /-- The completion handler gets the documents, or an error. -/
  | page (q : ℕ)
  | error (q : ℕ) (localizedDescription : String)
  /-- Something happens to the HUD of a request. -/
  | hud (q : ℕ) (e : ProgressHud.Event View)
  | pan (id : ℕ) (state : Deck.GestureState) (translation : Deck.CGPoint)
  | animationCompleted (i : ℕ)
  /-- A tap on a card view, or the end of its download. -/
  | card (id : ℕ) (e : Card.Event)

/-- When the events of a card view can come: a card is tapped in the deck only. -/
def Display.CanReceive (d : Display Image View) (id : ℕ) : Card.Event → Prop
  | .tap _ _ => d.deck.InDeck id
  | _ => True

instance (d : Display Image View) (id : ℕ) : DecidablePred (d.CanReceive id)
  | .tap _ _ => inferInstanceAs (Decidable (d.deck.InDeck id))
  | .downloaded | .downloadFailed => isTrue trivial

/-- **What an event does** at a time, if it can happen and does not trap. -/
def Display.step (P : Platform Image View) (d : Display Image View) :
    ℤ × DisplayEvent View → Option (Display Image View)
  | (_, .saveInfoToFirestore uid fullName imageURL) =>
    some { d with users := setData uid (saveInfoDictionary fullName uid imageURL) d.users }
  | (_, .saveHandle uid user) => some { d with users := setData uid (saveDict uid user) d.users }
  | (now, .viewDidLoad) => some (d.fetchUsers P now)
  | (now, .refreshHandle) => some (d.fetchUsers P now)
  | (_, .evaluate q) => d.requests[q]?.bind fun r =>
    match r.phase with
    | .sent => some { d with requests := d.requests.set q { r with phase := .evaluated d.users } }
    | _ => none
  | (now, .page q) => d.requests[q]?.bind fun r =>
    match r.phase with
    | .evaluated users => d.completion P now q r (some (getDocuments r.query users)) none
    | _ => none
  | (now, .error q localizedDescription) => d.requests[q]?.bind fun r =>
    match r.phase with
    | .handled => none
    | _ => d.completion P now q r none (some localizedDescription)
  | (_, .hud _ (.call _)) => none
  | (now, .hud q e) => d.requests[q]?.bind fun r =>
    (ProgressHud.step r.hud (now, e)).map fun hud =>
      { d with requests := d.requests.set q { r with hud := hud } }
  | (_, .pan id state translation) =>
    (Deck.step P.gestures d.deck (.pan id state translation)).map fun deck => { d with deck := deck }
  | (_, .animationCompleted i) =>
    (Deck.step P.gestures d.deck (.animationCompleted i)).map fun deck => { d with deck := deck }
  | (_, .card id e) =>
    if d.CanReceive id e then
      d.cardViews[id]?.bind fun card =>
        (Card.step P.cards card e).map fun card' => { d with cardViews := d.cardViews.set id card' }
    else none

/-! ### What a document and a reply do -/

/-- The card view that is made of a document. -/
def madeCard (P : Platform Image View) (userDictionary : Dictionary) : Card.CardView Image :=
  let cardViewModel := CardViewModel.init (User.init userDictionary)
  let imageName := ((userDictionary "image1Url").bind Value.asString).getD ""
  { cardViewModel := some cardViewModel
    image := if P.cards.validURL imageName then none else some P.cards.tempCard
    downloading := if P.cards.validURL imageName then some imageName else none
    barView := { arrangedSubviews := [] }
    infoStack :=
      { title := some cardViewModel.title
        body := some cardViewModel.body
        subtitle := some cardViewModel.subtitle
        layoutType := cardViewModel.layoutType } }

section Handlers

variable (P : Platform Image View)

/-- **No document traps.** -/
theorem setCardViewModel_eq (userDictionary : Dictionary) :
    (Card.CardView.init P.cards).setCardViewModel P.cards
      (some (CardViewModel.init (User.init userDictionary))) =
        some (madeCard P userDictionary) := by
  have hname : Card.subscript (CardViewModel.init (User.init userDictionary)).imageNames 0 =
      some (((userDictionary "image1Url").bind Value.asString).getD "") := rfl
  have hbar : (Card.CardView.init P.cards).barView.setupLayout
      (CardViewModel.init (User.init userDictionary)).imageNames.length =
        some { arrangedSubviews := [] } := rfl
  rw [Card.CardView.setCardViewModel, hbar, Option.bind_some, hname, Option.map_some, madeCard]
  simp only [Card.CardView.sd_setImage]
  split <;> rfl

theorem append_eq (d : Display Image View) (userDictionary : Dictionary) :
    d.append P userDictionary = some { d with
      deck := { d.deck with home := d.deck.home.append userDictionary }
      cardViews := d.cardViews ++ [madeCard P userDictionary] } := by
  rw [Display.append, setCardViewModel_eq, Option.map_some]

theorem foldlM_append_eq (d : Display Image View) (docs : List Dictionary) :
    docs.foldlM (Display.append P) d = some { d with
      deck := { d.deck with home := docs.foldl HomeViewController.append d.deck.home }
      cardViews := d.cardViews ++ docs.map (madeCard P) } := by
  induction docs generalizing d with
  | nil => rw [List.foldlM_nil, List.foldl_nil, List.map_nil, List.append_nil]; rfl
  | cons doc docs ih =>
      rw [List.foldlM_cons, append_eq, Option.bind_eq_bind, Option.bind_some, ih]
      simp only [List.foldl_cons, List.map_cons, List.append_assoc, List.singleton_append]

/-- The request after its reply. -/
def Request.replied (now : ℤ) (r : Request View) : Request View :=
  { r with phase := .handled, hud := r.hud.dismissAfterDelay now NSEC_PER_SEC true }

/-- The documents that a reply brings. -/
def repliedDocuments (snapshot : Option (List Dictionary)) (error : Option String) :
    List Dictionary :=
  match error with
  | some _ => []
  | none => snapshot.getD []

/-- **What a reply does.** -/
theorem completion_eq (now : ℤ) (d : Display Image View) (q : ℕ) (r : Request View)
    (snapshot : Option (List Dictionary)) (error : Option String) :
    d.completion P now q r snapshot error = some { d with
      deck := { d.deck with home := d.deck.home.completion snapshot error }
      cardViews := d.cardViews ++ (repliedDocuments snapshot error).map (madeCard P)
      requests := d.requests.set q (r.replied now) } := by
  cases error with
  | some error =>
      simp only [Display.completion, repliedDocuments, List.map_nil, List.append_nil]
      rfl
  | none =>
      simp only [Display.completion, foldlM_append_eq, repliedDocuments]
      rfl

end Handlers

/-! ### The steps, one by one -/

/-- What a write stores, and where. -/
def DisplayEvent.writes : DisplayEvent View → Option (String × Dictionary)
  | .saveInfoToFirestore uid fullName imageURL =>
    some (uid, saveInfoDictionary fullName uid imageURL)
  | .saveHandle uid user => some (uid, saveDict uid user)
  | _ => none

/-- The event calls `fetchUsers`. -/
def DisplayEvent.Fetches : DisplayEvent View → Prop
  | .viewDidLoad | .refreshHandle => True
  | _ => False

/-- What the deck gets to know of an event. -/
def DisplayEvent.gesture : DisplayEvent View → Option Deck.Event
  | .pan id state translation => some (.pan id state translation)
  | .animationCompleted i => some (.animationCompleted i)
  | _ => none

/-- What the events do, one case each. -/
inductive Display.Moves (P : Platform Image View) (d : Display Image View) :
    ℤ × DisplayEvent View → Display Image View → Prop
  | wrote {now : ℤ} {e : DisplayEvent View} {uid : String} {data : Dictionary}
      (he : e.writes = some (uid, data)) :
      Display.Moves P d (now, e) { d with users := setData uid data d.users }
  | fetching {now : ℤ} {e : DisplayEvent View} (he : e.Fetches) :
      Display.Moves P d (now, e) (d.fetchUsers P now)
  | evaluated {now : ℤ} {q : ℕ} {r : Request View} (hr : d.requests[q]? = some r)
      (hphase : r.phase = .sent) :
      Display.Moves P d (now, .evaluate q)
        { d with requests := d.requests.set q { r with phase := .evaluated d.users } }
  | paged {now : ℤ} {q : ℕ} {r : Request View} {users : Collection}
      (hr : d.requests[q]? = some r) (hphase : r.phase = .evaluated users) :
      Display.Moves P d (now, .page q) { d with
        deck := { d.deck with
          home := d.deck.home.completion (some (getDocuments r.query users)) none }
        cardViews := d.cardViews ++ (getDocuments r.query users).map (madeCard P)
        requests := d.requests.set q (r.replied now) }
  | failed {now : ℤ} {q : ℕ} {r : Request View} {localizedDescription : String}
      (hr : d.requests[q]? = some r) (hphase : r.phase ≠ .handled) :
      Display.Moves P d (now, .error q localizedDescription)
        { d with requests := d.requests.set q (r.replied now) }
  | hud {now : ℤ} {q : ℕ} {r : Request View} {e : ProgressHud.Event View}
      {hud : JGProgressHUD View} (hr : d.requests[q]? = some r) (he : ∀ c, e ≠ .call c)
      (hhud : ProgressHud.step r.hud (now, e) = some hud) :
      Display.Moves P d (now, .hud q e)
        { d with requests := d.requests.set q { r with hud := hud } }
  | gesture {now : ℤ} {e : DisplayEvent View} {g : Deck.Event} {deck : Deck.Screen}
      (he : e.gesture = some g) (hdeck : Deck.step P.gestures d.deck g = some deck) :
      Display.Moves P d (now, e) { d with deck := deck }
  | card {now : ℤ} {id : ℕ} {e : Card.Event} {card card' : Card.CardView Image}
      (hcan : d.CanReceive id e) (hcard : d.cardViews[id]? = some card)
      (hstep : Card.step P.cards card e = some card') :
      Display.Moves P d (now, .card id e) { d with cardViews := d.cardViews.set id card' }

/-- **The steps, one by one.** -/
theorem Display.step_moves {P : Platform Image View} {d d' : Display Image View}
    {e : ℤ × DisplayEvent View} (h : d.step P e = some d') : Display.Moves P d e d' := by
  obtain ⟨now, e⟩ := e
  cases e with
  | saveInfoToFirestore uid fullName imageURL => exact Option.some_inj.1 h ▸ .wrote rfl
  | saveHandle uid user => exact Option.some_inj.1 h ▸ .wrote rfl
  | viewDidLoad => exact Option.some_inj.1 h ▸ .fetching trivial
  | refreshHandle => exact Option.some_inj.1 h ▸ .fetching trivial
  | evaluate q =>
      obtain ⟨r, hr, h⟩ := Option.bind_eq_some_iff.1 h
      split at h
      · next hphase => exact Option.some_inj.1 h ▸ .evaluated hr hphase
      · exact absurd h (by simp)
  | page q =>
      obtain ⟨r, hr, h⟩ := Option.bind_eq_some_iff.1 h
      split at h
      · next users hphase =>
          rw [completion_eq] at h
          exact Option.some_inj.1 h ▸ .paged hr hphase
      · exact absurd h (by simp)
  | error q localizedDescription =>
      obtain ⟨r, hr, h⟩ := Option.bind_eq_some_iff.1 h
      split at h
      · exact absurd h (by simp)
      · next hphase => exact Option.some_inj.1 h ▸ .failed hr hphase
  | hud q e =>
      cases e with
      | call c => exact absurd h (by simp [Display.step])
      | layoutSubviews | animationFinished | delayOver i =>
          obtain ⟨r, hr, h⟩ := Option.bind_eq_some_iff.1 h
          obtain ⟨hud, hhud, rfl⟩ := Option.map_eq_some_iff.1 h
          exact .hud hr (fun c => by simp) hhud
  | pan id state translation =>
      obtain ⟨deck, hdeck, rfl⟩ := Option.map_eq_some_iff.1 h
      exact .gesture rfl hdeck
  | animationCompleted i =>
      obtain ⟨deck, hdeck, rfl⟩ := Option.map_eq_some_iff.1 h
      exact .gesture rfl hdeck
  | card id e =>
      obtain ⟨hcan, h⟩ := Option.ite_none_right_eq_some.1 h
      obtain ⟨card, hcard, h⟩ := Option.bind_eq_some_iff.1 h
      obtain ⟨card', hstep, rfl⟩ := Option.map_eq_some_iff.1 h
      exact .card hcan hcard hstep

/-! ### The requests and their HUDs -/

/-- What holds of a request: its HUD stays until the reply, and then it is to leave. -/
structure RequestInv (r : Request View) : Prop where
  consistent : Consistent r.hud
  minimumDisplayTime : r.hud.minimumDisplayTime = 0
  waiting : r.phase ≠ .handled → Staying r.hud ∧ r.hud.delayed = []
  answered : r.phase = .handled → Leaving r.hud
  labels : r.hud.labels = ("Fetching users", "")

section Requests

variable {P : Platform Image View} {r : Request View} {now : ℤ}

theorem requestInv_fetching (cursor : String) :
    RequestInv { query := usersQuery cursor, phase := .sent, hud := fetchingHud P now } := by
  have hC : Consistent (fetchingHud P now) := consistent_init.performAll _
  refine ⟨hC, performAll_minimumDisplayTime (by simp), fun _ => ⟨?_, rfl⟩, fun h => (nomatch h), ?_⟩
  · exact staying_showInView (consistent_init.relabel _ _) rfl P.view
  · exact performAll_labels _

/-- The HUD of a request that waits is on the screen. -/
theorem RequestInv.visible (h : RequestInv r) (hphase : r.phase ≠ .handled) :
    r.hud.visible = true :=
  h.consistent.toSteady.visible_iff.2 (h.waiting hphase).1.1

/-- The collection of an evaluated query is none of the HUD's business. -/
theorem RequestInv.evaluated (h : RequestInv r) (hphase : r.phase = .sent) (users : Collection) :
    RequestInv { r with phase := .evaluated users } :=
  ⟨h.consistent, h.minimumDisplayTime, fun _ => h.waiting (by simp [hphase]),
    fun hno => (nomatch hno), h.labels⟩

theorem RequestInv.replied (h : RequestInv r) (now : ℤ) : RequestInv (r.replied now) := by
  refine ⟨h.consistent.perform (.dismissAfterDelay NSEC_PER_SEC true), h.minimumDisplayTime,
    fun hno => absurd rfl hno, fun _ => leaving_dismissAfterDelay _, h.labels⟩

theorem RequestInv.hud (h : RequestInv r) {e : ProgressHud.Event View} {hud : JGProgressHUD View}
    (he : ∀ c, e ≠ .call c) (hstep : ProgressHud.step r.hud (now, e) = some hud) :
    RequestInv { r with hud := hud } := by
  obtain ⟨hlabels, htime⟩ := step_keeps he hstep
  refine ⟨h.consistent.step hstep, htime.trans h.minimumDisplayTime, fun hphase => ?_,
    fun hphase => ?_, hlabels.trans h.labels⟩
  · obtain ⟨hstay, hnone⟩ := h.waiting hphase
    have hdelay : ∀ i, e ≠ .delayOver i := by
      rintro i rfl
      obtain ⟨d, hd, -⟩ := Option.bind_eq_some_iff.1 hstep
      rw [hnone] at hd
      exact absurd hd (by simp)
    refine ⟨hstay.step h.consistent he hdelay hstep, List.eq_nil_of_subset_nil ?_⟩
    rw [← hnone]
    exact (step_delayed h.minimumDisplayTime he hstep).subset
  · refine (h.answered hphase).step h.consistent ?_ hstep
    cases e with
    | call c => exact absurd rfl (he c)
    | layoutSubviews | animationFinished | delayOver i => exact id

/-- A HUD that has left after the reply does not come back. -/
theorem RequestInv.hud_hidden (h : RequestInv r) {e : ProgressHud.Event View}
    {hud : JGProgressHUD View} (he : ∀ c, e ≠ .call c)
    (hstep : ProgressHud.step r.hud (now, e) = some hud) (hhidden : r.hud.visible = false) :
    hud.visible = false :=
  h.consistent.step_hidden he hhidden hstep

end Requests

/-- What holds of all requests. -/
def RequestsInv (d : Display Image View) : Prop := ∀ r ∈ d.requests, RequestInv r

theorem RequestsInv.opened {d : Display Image View} (h : d.Opened) : RequestsInv d := by
  intro r hr
  rw [h.requests] at hr
  exact absurd hr List.not_mem_nil

/-- Every step keeps the HUDs in their places. -/
theorem RequestsInv.step {P : Platform Image View} {d d' : Display Image View}
    {e : ℤ × DisplayEvent View} (h : RequestsInv d) (hmove : Display.Moves P d e d') :
    RequestsInv d' := by
  have hset {q : ℕ} {r' : Request View} (hr' : RequestInv r') :
      ∀ r ∈ d.requests.set q r', RequestInv r := by
    intro r hr
    rcases List.mem_or_eq_of_mem_set hr with hr | rfl
    · exact h r hr
    · exact hr'
  cases hmove with
  | wrote | gesture | card => exact h
  | fetching he =>
      intro r hr
      rcases List.mem_append.1 hr with hr | hr
      · exact h r hr
      · exact List.mem_singleton.1 hr ▸ requestInv_fetching _
  | evaluated hr hphase => exact hset ((h _ (List.mem_of_getElem? hr)).evaluated hphase _)
  | paged hr hphase => exact hset ((h _ (List.mem_of_getElem? hr)).replied _)
  | failed hr hphase => exact hset ((h _ (List.mem_of_getElem? hr)).replied _)
  | hud hr he hhud => exact hset ((h _ (List.mem_of_getElem? hr)).hud he hhud)

/-! ### The screen as a system and as a deck -/

/-- The HUD of a request, as far as the system knows it. -/
def Request.hudPhase (r : Request View) : HudPhase :=
  match r.phase with
  | .handled => if r.hud.visible then .dismissing else .hidden
  | _ => .shown

def Request.fetch (r : Request View) : Fetch :=
  { query := r.query, phase := r.phase, hud := r.hudPhase }

/-- The screen as the system of `TinderFirestore/HomeFetch.lean`. -/
def Display.system (d : Display Image View) : System :=
  { users := d.users, home := d.deck.home, fetches := d.requests.map Request.fetch }

def Display.hudPhase (d : Display Image View) (q : ℕ) : Option HudPhase :=
  d.requests[q]?.map Request.hudPhase

/-- What the system sees of a step. -/
def systemLabel (d : Display Image View) (e : ℤ × DisplayEvent View) (d' : Display Image View) :
    Option Event :=
  match e.2 with
  | .saveInfoToFirestore uid fullName imageURL => some (.saveInfoToFirestore uid fullName imageURL)
  | .saveHandle uid user => some (.saveHandle uid user)
  | .viewDidLoad => some .viewDidLoad
  | .refreshHandle => some .refreshHandle
  | .evaluate q => some (.evaluate q)
  | .page q => some (.page q)
  | .error q localizedDescription => some (.error q localizedDescription)
  | .hud q _ => if d.hudPhase q = d'.hudPhase q then none else some (.hudDismissed q)
  | .animationCompleted i => d.deck.animations[i]?.bind fun a =>
    if a.pan.shouldDismissCard then some (.removeFromSuperview a.pan.card) else none
  | .pan .. | .card .. => none

/-- What the deck sees of a step. -/
def deckLabel (d : Display Image View) (e : ℤ × DisplayEvent View) (_d' : Display Image View) :
    Option Deck.Event :=
  match e.2 with
  | .page q => d.requests[q]?.bind fun r =>
    match r.phase with
    | .evaluated users => some (.fetched (some (getDocuments r.query users)) none)
    | _ => none
  | .error _ localizedDescription => some (.fetched none (some localizedDescription))
  | e => e.gesture

section Refines

variable {P : Platform Image View} {d d' : Display Image View} {e : ℤ × DisplayEvent View}

theorem fetches_getElem? {q : ℕ} {r : Request View} (hr : d.requests[q]? = some r) :
    d.system.fetches[q]? = some r.fetch := by
  rw [Display.system, List.getElem?_map, hr, Option.map_some]

theorem hudPhase_getElem? {q : ℕ} {r : Request View} (hr : d.requests[q]? = some r) :
    d.hudPhase q = some r.hudPhase := by
  rw [Display.hudPhase, hr, Option.map_some]

/-- After the reply the HUD is still there, on its way. -/
theorem fetch_replied {r : Request View} (h : RequestInv r) (hphase : r.phase ≠ .handled)
    (now : ℤ) : (r.replied now).fetch = { r.fetch with phase := .handled, hud := .dismissing } := by
  have hvisible : (r.replied now).hud.visible = true := h.visible hphase
  simp only [Request.fetch, Request.hudPhase]
  rw [if_pos hvisible]
  rfl

/-- What the system sees of a HUD: that it has left after the reply. -/
theorem hudPhase_hud {r : Request View} {now : ℤ} {e : ProgressHud.Event View}
    {hud : JGProgressHUD View} (h : RequestInv r) (he : ∀ c, e ≠ .call c)
    (hstep : ProgressHud.step r.hud (now, e) = some hud)
    (hne : r.hudPhase ≠ ({ r with hud := hud } : Request View).hudPhase) :
    r.hudPhase = .dismissing ∧ ({ r with hud := hud } : Request View).hudPhase = .hidden := by
  obtain ⟨query, phase, hud₀⟩ := r
  cases phase with
  | sent | evaluated users => exact absurd rfl hne
  | handled =>
      simp only [Request.hudPhase] at hne ⊢
      cases hbefore : hud₀.visible with
      | false =>
          have hafter : hud.visible = false := h.hud_hidden he hstep hbefore
          simp [hbefore, hafter] at hne
      | true =>
          cases hafter : hud.visible with
          | true => simp [hbefore, hafter] at hne
          | false => exact ⟨rfl, rfl⟩

/-- **A step of the screen is a step of the system, or none.** -/
theorem system_refines (P : Platform Image View) :
    Refinement.Refines (Display.step P) step systemLabel Display.system RequestsInv where
  keeps h hstep := h.step (Display.step_moves hstep)
  visible := by
    intro d d' e label hI hstep hlabel
    cases Display.step_moves hstep with
    | @wrote now e uid data he =>
        cases e with
        | saveInfoToFirestore uid' fullName imageURL | saveHandle uid' user =>
            obtain rfl := Option.some_inj.1 hlabel
            obtain ⟨rfl, rfl⟩ := Prod.mk.inj (Option.some_inj.1 he)
            rfl
        | _ => exact absurd he (by simp [DisplayEvent.writes])
    | @fetching now e he =>
        have hfetch : d.system.fetchUsers = (d.fetchUsers P now).system := by
          simp [System.fetchUsers, Display.system, Display.fetchUsers, Request.fetch,
            Request.hudPhase]
        cases e with
        | viewDidLoad | refreshHandle =>
            obtain rfl := Option.some_inj.1 hlabel
            exact congrArg some hfetch
        | _ => exact absurd he id
    | @evaluated now q r hr hphase =>
        obtain rfl := Option.some_inj.1 hlabel
        have hsent : r.fetch.phase = .sent := hphase
        simp only [step, Option.bind_eq_bind, fetches_getElem? hr, Option.bind_some, hsent]
        simp only [Display.system, Request.fetch, Request.hudPhase, hphase, List.map_set]
    | @paged now q r users hr hphase =>
        obtain rfl := Option.some_inj.1 hlabel
        have hr' : RequestInv r := hI r (List.mem_of_getElem? hr)
        have hevaluated : r.fetch.phase = .evaluated users := hphase
        simp only [step, Option.bind_eq_bind, fetches_getElem? hr, Option.bind_some, hevaluated]
        simp only [Display.system, List.map_set, fetch_replied hr' (by simp [hphase]) now]
        rfl
    | @failed now q r localizedDescription hr hphase =>
        obtain rfl := Option.some_inj.1 hlabel
        have hr' : RequestInv r := hI r (List.mem_of_getElem? hr)
        simp only [step, Option.bind_eq_bind, fetches_getElem? hr, Option.bind_some]
        split
        · next hhandled => exact absurd hhandled hphase
        · simp only [Display.system, List.map_set, fetch_replied hr' hphase now]
          rfl
    | @hud now q r e hud hr he hhud =>
        have hr' : RequestInv r := hI r (List.mem_of_getElem? hr)
        have hlt : q < d.requests.length := (List.getElem?_eq_some_iff.1 hr).1
        have hafter : ({ d with requests := d.requests.set q { r with hud := hud } } :
            Display Image View).hudPhase q = some ({ r with hud := hud } : Request View).hudPhase :=
          hudPhase_getElem? (List.getElem?_set_self hlt)
        simp only [systemLabel, hudPhase_getElem? hr, hafter, Option.some_inj] at hlabel
        obtain ⟨hne, heq⟩ := Option.ite_none_left_eq_some.1 hlabel
        obtain rfl := Option.some_inj.1 heq
        obtain ⟨hdismissing, hhidden⟩ := hudPhase_hud hr' he hhud hne
        have hfetch : r.fetch.hud = .dismissing := hdismissing
        simp only [step, Option.bind_eq_bind, fetches_getElem? hr, Option.bind_some, hfetch]
        simp only [Display.system, List.map_set, Request.fetch, hhidden]
    | @gesture now e g deck he hdeck =>
        cases e with
        | animationCompleted i =>
            obtain rfl := Option.some_inj.1 he
            obtain ⟨a, ha, hdismiss⟩ := Option.bind_eq_some_iff.1 hlabel
            obtain ⟨hshould, heq⟩ := Option.ite_none_right_eq_some.1 hdismiss
            obtain rfl := Option.some_inj.1 heq
            cases Deck.step_moves hdeck with
            | @completed _ a' ha' hphase =>
                obtain rfl := Option.some_inj.1 (ha.symm.trans ha')
                simp only [step, Display.system, Deck.completion_home, if_pos hshould]
        | pan id state translation => exact absurd hlabel (by simp [systemLabel])
        | _ => exact absurd he (by simp [DisplayEvent.gesture])
    | card => exact absurd hlabel (by simp [systemLabel])
  silent := by
    intro d d' e hI hstep hlabel
    cases Display.step_moves hstep with
    | @wrote now e uid data he =>
        cases e with
        | saveInfoToFirestore | saveHandle => exact absurd hlabel (by simp [systemLabel])
        | _ => exact absurd he (by simp [DisplayEvent.writes])
    | @fetching now e he =>
        cases e with
        | viewDidLoad | refreshHandle => exact absurd hlabel (by simp [systemLabel])
        | _ => exact absurd he id
    | evaluated | paged | failed => exact absurd hlabel (by simp [systemLabel])
    | @hud now q r e hud hr he hhud =>
        have hlt : q < d.requests.length := (List.getElem?_eq_some_iff.1 hr).1
        have hafter : ({ d with requests := d.requests.set q { r with hud := hud } } :
            Display Image View).hudPhase q = some ({ r with hud := hud } : Request View).hudPhase :=
          hudPhase_getElem? (List.getElem?_set_self hlt)
        simp only [systemLabel, hudPhase_getElem? hr, hafter, Option.some_inj, ite_eq_left_iff,
          reduceCtorEq, imp_false, not_not] at hlabel
        have hsame : ({ r with hud := hud } : Request View).fetch = r.fetch := by
          simp only [Request.fetch, ← hlabel]
        have hset : (d.requests.map Request.fetch).set q r.fetch = d.requests.map Request.fetch := by
          obtain ⟨hlt', heq⟩ := List.getElem?_eq_some_iff.1 (fetches_getElem? hr)
          exact heq ▸ List.set_getElem_self hlt'
        simp only [Display.system, List.map_set, hsame, hset]
    | @gesture now e g deck he hdeck =>
        cases e with
        | animationCompleted i =>
            obtain rfl := Option.some_inj.1 he
            cases Deck.step_moves hdeck with
            | @completed _ a ha hphase =>
                simp only [systemLabel, ha, Option.bind_some, ite_eq_right_iff, reduceCtorEq,
                  imp_false] at hlabel
                simp only [Display.system, Deck.completion_home, if_neg hlabel]
        | pan id state translation =>
            obtain rfl := Option.some_inj.1 he
            have hhome : deck.home = d.deck.home := by
              cases Deck.step_moves hdeck with
              | @began id translation hidle hin =>
                  obtain ⟨f, -, heq⟩ := Deck.removeAllAnimations_eq d.deck id
                  rw [heq]
              | @ended id translation hpan =>
                  obtain ⟨t, heq⟩ := Deck.handleEnded_eq d.deck id translation
                  rw [heq]
              | changed hpan | cancelled hpan => rfl
            simp only [Display.system, hhome]
        | _ => exact absurd he (by simp [DisplayEvent.gesture])
    | card => rfl

/-- **A step of the screen is a step of the deck, or none.** -/
theorem deck_refines (P : Platform Image View) :
    Refinement.Refines (Display.step P) (Deck.step P.gestures) deckLabel Display.deck
      fun _ => True where
  keeps _ _ := trivial
  visible := by
    intro d d' e label _ hstep hlabel
    cases Display.step_moves hstep with
    | @wrote now e uid data he =>
        cases e with
        | saveInfoToFirestore | saveHandle =>
            exact absurd hlabel (by simp [deckLabel, DisplayEvent.gesture])
        | _ => exact absurd he (by simp [DisplayEvent.writes])
    | @fetching now e he =>
        cases e with
        | viewDidLoad | refreshHandle =>
            exact absurd hlabel (by simp [deckLabel, DisplayEvent.gesture])
        | _ => exact absurd he id
    | evaluated | hud | card => exact absurd hlabel (by simp [deckLabel, DisplayEvent.gesture])
    | @paged now q r users hr hphase =>
        simp only [deckLabel, hr, Option.bind_some, hphase, Option.some_inj] at hlabel
        subst hlabel
        rfl
    | failed hr hphase =>
        obtain rfl := Option.some_inj.1 hlabel
        rfl
    | @gesture now e g deck he hdeck =>
        have hsame : deckLabel d (now, e) { d with deck := deck } = e.gesture := by
          cases e with
          | pan | animationCompleted => rfl
          | _ => exact absurd he (by simp [DisplayEvent.gesture])
        rw [hsame, he, Option.some_inj] at hlabel
        exact hlabel ▸ hdeck
  silent := by
    intro d d' e _ hstep hlabel
    cases Display.step_moves hstep with
    | wrote | fetching | evaluated | failed | hud | card => rfl
    | @paged now q r users hr hphase =>
        simp [deckLabel, hr, hphase] at hlabel
    | @gesture now e g deck he hdeck =>
        cases e with
        | pan | animationCompleted =>
            simp only [deckLabel] at hlabel
            exact absurd (hlabel.symm.trans he) (by simp)
        | _ => exact absurd he (by simp [DisplayEvent.gesture])

end Refines

/-! ### The main results -/

section Main

variable {P : Platform Image View} {d₀ d : Display Image View}
  {es : List (ℤ × DisplayEvent View)}

theorem requestsInv_run (h₀ : d₀.Opened) (hrun : run (Display.step P) d₀ es = some d) :
    RequestsInv d :=
  invariant_run (fun _ _ _ h hstep => h.step (Display.step_moves hstep)) (.opened h₀) hrun

/-- **The whole screen refines the two systems.**  Whatever happens to the screen, its cards, its
gestures and its HUDs: what happens to the collection, the pages and the fetches is a run of the
system of the pages, where a HUD is told to have gone when it has left the screen after the reply
and a card when the completion of an animation takes it away; and what happens to the deck is a run
of the deck, where a page brings the documents that the query found when it was evaluated. -/
theorem display_refines (h₀ : d₀.Opened) (hrun : run (Display.step P) d₀ es = some d) :
    d₀.system.Opened ∧
      run step d₀.system (Refinement.traceOf (Display.step P) systemLabel d₀ es) = some d.system ∧
      run (Deck.step P.gestures) .opened
        (Refinement.traceOf (Display.step P) deckLabel d₀ es) = some d.deck := by
  refine ⟨⟨?_, ?_⟩, (system_refines P).run (.opened h₀) hrun, ?_⟩
  · rw [Display.system, h₀.deck, Deck.Screen.opened]
  · rw [Display.system, h₀.requests, List.map_nil]
  · rw [← h₀.deck]
    exact (deck_refines P).run trivial hrun

/-- **The HUD of a fetch.**  However the replies of overlapping fetches, the animations and the
delays of their HUDs, and all the rest come: every fetch that waits for its reply has a HUD on the
screen that nobody has asked to leave, and a HUD whose fetch has been answered is off the screen as
soon as nothing of it is pending.  A HUD that is on the screen and at rest reads "Fetching users". -/
theorem home_huds (h₀ : d₀.Opened) (hrun : run (Display.step P) d₀ es = some d) {q : ℕ}
    {r : Request View} (hr : d.requests[q]? = some r) :
    (r.phase ≠ .handled → r.hud.visible = true ∧ Staying r.hud) ∧
      (r.phase = .handled → r.hud.animations = 0 → r.hud.delayed = [] → r.hud.visible = false) ∧
      (r.hud.visible = true → r.hud.animations = 0 →
        r.hud.laidOut = some ("Fetching users", "")) := by
  have hI : RequestInv r := requestsInv_run h₀ hrun r (List.mem_of_getElem? hr)
  refine ⟨fun hphase => ⟨hI.visible hphase, (hI.waiting hphase).1⟩, fun hphase hanim hdelayed => ?_,
    fun hvisible hanim => ?_⟩
  · exact (hI.answered hphase).gone hI.consistent hanim hdelayed
  · have hrest : r.hud.transitioning = false := by
      by_contra hno
      rw [hI.consistent.animations, if_pos (Bool.of_not_eq_false hno)] at hanim
      exact absurd hanim Nat.one_ne_zero
    rw [← hI.labels]
    exact hI.consistent.laidOut (hI.consistent.toSteady.visible_iff.1 hvisible) hrest

end Main

/-- A platform to compute with. -/
def plainPlatform : Platform String Unit where
  cards := Card.webPlatform
  gestures := Deck.levelPlatform
  view := ()

/-- The screen before it appears, over an empty collection. -/
def openedDisplay : Display String Unit where
  users := ∅
  deck := .opened
  cardViews := []
  requests := []

/-- Two overlapping fetches.  The reply of the first one brings a card, which is dragged away; its
HUD leaves, and the other fetch waits. -/
def overlapping : List (ℤ × DisplayEvent Unit) :=
  [(0, .saveInfoToFirestore "a" (some "Ann") "url"), (1, .viewDidLoad), (2, .evaluate 0),
    (3, .hud 0 .animationFinished), (4, .refreshHandle), (5, .page 0), (6, .card 0 .downloaded),
    (7, .pan 0 .began { x := 0, y := 0 }), (8, .pan 0 .ended { x := 100, y := 0 }),
    (2 * NSEC_PER_SEC, .hud 0 (.delayOver 0)), (2 * NSEC_PER_SEC, .hud 0 .animationFinished),
    (3 * NSEC_PER_SEC, .animationCompleted 0)]

theorem display_refines_overlapping :
    ∃ d, run (Display.step plainPlatform) openedDisplay overlapping = some d ∧
      run step openedDisplay.system [.saveInfoToFirestore "a" (some "Ann") "url", .viewDidLoad,
        .evaluate 0, .refreshHandle, .page 0, .hudDismissed 0, .removeFromSuperview 0] =
          some d.system := by
  have hrun : run (Display.step plainPlatform) openedDisplay overlapping = some _ := rfl
  exact ⟨_, hrun, (display_refines ⟨rfl, rfl, rfl⟩ hrun).2.1⟩

theorem home_huds_overlapping :
    ∃ d r, run (Display.step plainPlatform) openedDisplay overlapping = some d ∧
      d.requests[1]? = some r ∧ r.hud.visible = true ∧
      ∃ r', d.requests[0]? = some r' ∧ r'.hud.visible = false := by
  have hrun : run (Display.step plainPlatform) openedDisplay overlapping = some _ := rfl
  refine ⟨_, _, hrun, rfl, ((home_huds (q := 1) ⟨rfl, rfl, rfl⟩ hrun rfl).1 ?_).1, _, rfl,
    (home_huds (q := 0) ⟨rfl, rfl, rfl⟩ hrun rfl).2.1 rfl rfl rfl⟩
  exact fun h => nomatch h

end Home
