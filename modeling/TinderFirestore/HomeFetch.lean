/-
**The home screen.**

The home screen pages through the collection `users`, two documents at a time in ascending order
of their uid, and makes a card of each.  Where the next page starts is read off the last fetched
user when a query is issued, and that user is written when a page is handled; nothing keeps a
query from being issued while others are outstanding, and their replies come in any order.

The model follows `HomeViewController`.  A fetch is identified by its position in the list of all
of them.  The backend evaluates a query against the collection as it is at one moment, and the
completion handler runs at some later one; in between the writers of the app may change the
collection.

Main definitions:

* `Home.HomeViewController`, `Home.HomeViewController.completion` — the screen, and the completion
  handler of a query;
* `Home.Fetch`, `Home.System` — one call of `fetchUsers`, and the state of the system;
* `Home.step` — **what an event does**;
* `Home.Page`, `Home.fetchedUsers` — the history of the pages that were handled, and the users whose
  cards were appended.

Main results:

* `Home.step_moves` — the steps of the system, one by one;
* `Home.screen_run` — **the cards and the deck are made of the fetched users**, a card for each and
  at most one card view for each;
* `Home.ScreenOf.cursor`, `Home.ScreenOf.deck_nodup` — where the next page starts, and when no user
  is in the deck twice;
* `Home.isPage_pageUids` — what a query returns.
-/

import TinderFirestore.EventRun
import TinderFirestore.UserProfile

set_option relaxedAutoImplicit false
set_option autoImplicit false

namespace Home

open Firestore Profile EventRun

/-! ### The screen -/

/-- A card in the deck. -/
structure CardView where
  /-- Which of the card views made so far it is. -/
  id : ℕ
  cardViewModel : CardViewModel
  deriving DecidableEq

/-- The fields of `HomeViewController`; the subviews of the deck go from back to front. -/
structure HomeViewController where
  cards : List CardViewModel
  lastFetchedUser : Option User
  cardDesckView : List CardView
  deriving DecidableEq

/-- `lastFetchedUser?.uid ?? ""`. -/
def HomeViewController.cursor (home : HomeViewController) : String :=
  (home.lastFetchedUser.bind User.uid).getD ""

/-- The query of `fetchUsers`. -/
def usersQuery (cursor : String) : Query where
  orderBy := "uid"
  startAfter := cursor
  limit := 2

/-- The body of the `forEach` in `fetchUsers`. -/
def HomeViewController.append (home : HomeViewController) (userDictionary : Dictionary) :
    HomeViewController :=
  let user := User.init userDictionary
  { cards := home.cards ++ [CardViewModel.init user]
    lastFetchedUser := some user
    -- `addSubview` followed by `sendSubviewToBack`
    cardDesckView :=
      { id := home.cards.length, cardViewModel := CardViewModel.init user } :: home.cardDesckView }

/-- The completion handler of a query; an error is printed and that is all. -/
def HomeViewController.completion (home : HomeViewController)
    (snapshot : Option (List Dictionary)) (error : Option String) : HomeViewController :=
  match error with
  | some _ => home
  -- `snapshot?.documents.forEach`
  | none => (snapshot.getD []).foldl HomeViewController.append home

/-- A card is dragged out of the deck. -/
def HomeViewController.removeFromSuperview (home : HomeViewController) (id : ℕ) :
    HomeViewController :=
  { home with cardDesckView := home.cardDesckView.filter fun card => card.id ≠ id }

/-! ### The system -/

/-- The HUD of a fetch; it is dismissed one second after the reply. -/
inductive HudPhase
  | shown
  | dismissing
  | hidden
  deriving DecidableEq

/-- How far a query has come: sent, evaluated against the collection, its reply handled. -/
inductive QueryPhase
  | sent
  | evaluated (users : Collection)
  | handled

/-- One call of `fetchUsers`. -/
structure Fetch where
  query : Query
  phase : QueryPhase
  hud : HudPhase

/-- The fetch has been replied to. -/
def Fetch.Answered (f : Fetch) : Prop := f.phase = .handled

instance : DecidablePred Fetch.Answered
  | { phase := .sent, .. } => isFalse (by simp [Fetch.Answered])
  | { phase := .evaluated _, .. } => isFalse (by simp [Fetch.Answered])
  | { phase := .handled, .. } => isTrue rfl

/-- The collection, the screen, and the fetches in the order in which they were issued. -/
structure System where
  users : Collection
  home : HomeViewController
  fetches : List Fetch

def System.fetchUsers (s : System) : System :=
  { s with
    fetches := s.fetches ++
      [{ query := usersQuery s.home.cursor, phase := .sent, hud := .shown }] }

/-- The target of the reload button. -/
def System.refreshHandle (s : System) : System := s.fetchUsers

/-- What can happen.  A write is that of any client; the other events are those of one screen and
its queries. -/
inductive Event
  /-- `RegisterViewModel.saveInfoToFirestore` writes. -/
  | saveInfoToFirestore (uid : String) (fullName : Option String) (imageURL : String)
  /-- `SettingsViewController.saveHandle` writes. -/
  | saveHandle (uid : String) (user : Option User)
  /-- The screen appears. -/
  | viewDidLoad
  /-- The reload button is tapped. -/
  | refreshHandle
  /-- The backend evaluates a query. -/
  | evaluate (q : ℕ)
  /-- The completion handler of a query gets the documents. -/
  | page (q : ℕ)
  /-- The completion handler of a query gets an error. -/
  | error (q : ℕ) (localizedDescription : String)
  /-- The delay of a HUD is over. -/
  | hudDismissed (q : ℕ)
  /-- A card is dragged out of the deck. -/
  | removeFromSuperview (id : ℕ)

/-- The uid that a write is addressed to. -/
def Event.writesTo : Event → Option String
  | .saveInfoToFirestore uid _ _ => some uid
  | .saveHandle uid _ => some uid
  | _ => none

/-- The event calls `fetchUsers`. -/
def Event.Fetches : Event → Prop
  | .viewDidLoad => True
  | .refreshHandle => True
  | _ => False

instance : DecidablePred Event.Fetches
  | .viewDidLoad | .refreshHandle => isTrue trivial
  | .saveInfoToFirestore .. | .saveHandle .. | .evaluate _ | .page _ | .error .. | .hudDismissed _
  | .removeFromSuperview _ => isFalse id

/-- **What an event does**, if it can happen. -/
def step (s : System) : Event → Option System
  | .saveInfoToFirestore uid fullName imageURL =>
    some { s with users := setData uid (saveInfoDictionary fullName uid imageURL) s.users }
  | .saveHandle uid user => some { s with users := setData uid (saveDict uid user) s.users }
  | .viewDidLoad => some s.fetchUsers
  | .refreshHandle => some s.refreshHandle
  | .evaluate q => do
    let f ← s.fetches[q]?
    match f.phase with
    | .sent => some { s with fetches := s.fetches.set q { f with phase := .evaluated s.users } }
    | _ => none
  | .page q => do
    let f ← s.fetches[q]?
    match f.phase with
    | .evaluated users =>
      -- the documents are those of the collection as it was when the query was evaluated
      some { s with
        home := s.home.completion (some (getDocuments f.query users)) none
        fetches := s.fetches.set q { f with phase := .handled, hud := .dismissing } }
    | _ => none
  | .error q localizedDescription => do
    let f ← s.fetches[q]?
    match f.phase with
    | .handled => none
    | _ =>
      some { s with
        home := s.home.completion none (some localizedDescription)
        fetches := s.fetches.set q { f with phase := .handled, hud := .dismissing } }
  | .hudDismissed q => do
    let f ← s.fetches[q]?
    match f.hud with
    | .dismissing => some { s with fetches := s.fetches.set q { f with hud := .hidden } }
    | _ => none
  | .removeFromSuperview id => some { s with home := s.home.removeFromSuperview id }

/-- The screen before it appears. -/
structure System.Opened (s : System) : Prop where
  home : s.home = { cards := [], lastFetchedUser := none, cardDesckView := [] }
  fetches : s.fetches = []

/-! ### The steps, one by one -/

/-- What the events do, one case each. -/
inductive Moves (s : System) : Event → System → Prop
  | wrote {e : Event} {uid : String} {data : Dictionary} (hto : e.writesTo = some uid)
      (hdata : data "uid" = some (.string uid)) :
      Moves s e { s with users := setData uid data s.users }
  | fetching {e : Event} (he : e.Fetches) : Moves s e s.fetchUsers
  | evaluated {q : ℕ} {f : Fetch} (hf : s.fetches[q]? = some f) (hphase : f.phase = .sent) :
      Moves s (.evaluate q)
        { s with fetches := s.fetches.set q { f with phase := .evaluated s.users } }
  | paged {q : ℕ} {f : Fetch} {users : Collection} (hf : s.fetches[q]? = some f)
      (hphase : f.phase = .evaluated users) :
      Moves s (.page q) { s with
        home := s.home.completion (some (getDocuments f.query users)) none
        fetches := s.fetches.set q { f with phase := .handled, hud := .dismissing } }
  | failed {q : ℕ} {f : Fetch} {localizedDescription : String} (hf : s.fetches[q]? = some f)
      (hphase : f.phase ≠ .handled) :
      Moves s (.error q localizedDescription)
        { s with fetches := s.fetches.set q { f with phase := .handled, hud := .dismissing } }
  | dismissed {q : ℕ} {f : Fetch} (hf : s.fetches[q]? = some f) (hhud : f.hud = .dismissing) :
      Moves s (.hudDismissed q) { s with fetches := s.fetches.set q { f with hud := .hidden } }
  | dragged {id : ℕ} :
      Moves s (.removeFromSuperview id) { s with home := s.home.removeFromSuperview id }

/-- **The steps of the system, one by one.** -/
theorem step_moves {s s' : System} {e : Event} (h : step s e = some s') : Moves s e s' := by
  cases e with
  | saveInfoToFirestore uid fullName imageURL =>
      obtain rfl := Option.some_inj.1 h
      exact .wrote rfl (saveInfoDictionary_uid fullName uid imageURL)
  | saveHandle uid user =>
      obtain rfl := Option.some_inj.1 h
      exact .wrote rfl (saveDict_uid uid user)
  | viewDidLoad =>
      obtain rfl := Option.some_inj.1 h
      exact .fetching trivial
  | refreshHandle =>
      obtain rfl := Option.some_inj.1 h
      exact .fetching trivial
  | evaluate q =>
      obtain ⟨f, hf, h⟩ := Option.bind_eq_some_iff.1 h
      split at h
      · next hphase =>
          obtain rfl := Option.some_inj.1 h
          exact .evaluated hf hphase
      · exact absurd h (by simp)
  | page q =>
      obtain ⟨f, hf, h⟩ := Option.bind_eq_some_iff.1 h
      split at h
      · next users hphase =>
          obtain rfl := Option.some_inj.1 h
          exact .paged hf hphase
      · exact absurd h (by simp)
  | error q localizedDescription =>
      obtain ⟨f, hf, h⟩ := Option.bind_eq_some_iff.1 h
      split at h
      · exact absurd h (by simp)
      · next hphase =>
          obtain rfl := Option.some_inj.1 h
          exact .failed hf hphase
  | hudDismissed q =>
      obtain ⟨f, hf, h⟩ := Option.bind_eq_some_iff.1 h
      split at h
      · next hhud =>
          obtain rfl := Option.some_inj.1 h
          exact .dismissed hf hhud
      · exact absurd h (by simp)
  | removeFromSuperview id =>
      obtain rfl := Option.some_inj.1 h
      exact .dragged

/-! ### The pages that were handled -/

/-- A page: the collection the query was evaluated against, and the documents it returned. -/
structure Page where
  users : Collection
  documents : List Dictionary

/-- The history of a run: the pages in the order in which they were handled. -/
def note (s : System) (e : Event) (_s' : System) (pages : List Page) : List Page :=
  match e with
  | .page q =>
    match s.fetches[q]? with
    | some { query, phase := .evaluated users, .. } =>
      pages ++ [{ users, documents := getDocuments query users }]
    | _ => pages
  | _ => pages

/-- The users whose cards have been appended, in order. -/
def fetchedUsers (pages : List Page) : List User :=
  pages.flatMap fun p => p.documents.map User.init

@[simp] theorem fetchedUsers_append (pages : List Page) (p : Page) :
    fetchedUsers (pages ++ [p]) = fetchedUsers pages ++ p.documents.map User.init := by
  simp [fetchedUsers]

theorem note_paged {s s' : System} {q : ℕ} {f : Fetch} {users : Collection} (pages : List Page)
    (hf : s.fetches[q]? = some f) (hphase : f.phase = .evaluated users) :
    note s (.page q) s' pages =
      pages ++ [{ users, documents := getDocuments f.query users }] := by
  obtain ⟨query, phase, hud⟩ := f
  obtain rfl : phase = .evaluated users := hphase
  simp only [note, hf]

/-- Only a page is noted. -/
theorem note_of_ne {s s' : System} {e : Event} (pages : List Page) (he : ∀ q, e ≠ .page q) :
    note s e s' pages = pages := by
  cases e with
  | page q => exact absurd rfl (he q)
  | _ => rfl

theorem Event.ne_page_of_writesTo {e : Event} {uid : String} (h : e.writesTo = some uid) (q : ℕ) :
    e ≠ .page q := by
  rintro rfl
  exact absurd h (by simp [Event.writesTo])

theorem Event.Fetches.ne_page {e : Event} (h : e.Fetches) (q : ℕ) : e ≠ .page q := by
  rintro rfl
  exact h

/-! ### What the screen is made of -/

/-- The screen shows the users `us`: a card for each, in order, and in the deck at most one card
view for each. -/
structure ScreenOf (home : HomeViewController) (us : List User) : Prop where
  cards : home.cards = us.map CardViewModel.init
  lastFetchedUser : home.lastFetchedUser = us.getLast?
  deck_ids : (home.cardDesckView.map CardView.id).Nodup
  deck : ∀ card ∈ home.cardDesckView,
    ∃ u, us[card.id]? = some u ∧ card.cardViewModel = CardViewModel.init u

theorem ScreenOf.append {home : HomeViewController} {us : List User} (h : ScreenOf home us)
    (d : Dictionary) : ScreenOf (home.append d) (us ++ [User.init d]) := by
  have hlen : home.cards.length = us.length := by rw [h.cards, List.length_map]
  have hlt {card : CardView} (hcard : card ∈ home.cardDesckView) : card.id < us.length := by
    obtain ⟨u, hu, -⟩ := h.deck card hcard
    exact (List.getElem?_eq_some_iff.1 hu).1
  refine ⟨?_, ?_, ?_, ?_⟩
  · simp [HomeViewController.append, h.cards]
  · simp [HomeViewController.append]
  · simp only [HomeViewController.append, List.map_cons, List.nodup_cons]
    refine ⟨fun hmem => ?_, h.deck_ids⟩
    -- the new card view has an id of its own
    obtain ⟨card, hcard, hid⟩ := List.mem_map.1 hmem
    have := hlt hcard
    omega
  · intro card hcard
    rcases List.mem_cons.1 hcard with rfl | hcard
    · exact ⟨User.init d, by simp [hlen], rfl⟩
    · obtain ⟨u, hu, hvm⟩ := h.deck card hcard
      exact ⟨u, by rw [List.getElem?_append_left (hlt hcard), hu], hvm⟩

theorem ScreenOf.foldl_append {home : HomeViewController} {us : List User} (h : ScreenOf home us)
    (docs : List Dictionary) :
    ScreenOf (docs.foldl HomeViewController.append home) (us ++ docs.map User.init) := by
  induction docs generalizing home us with
  | nil => simpa using h
  | cons d docs ih =>
      rw [List.foldl_cons, List.map_cons, List.append_cons]
      exact ih (h.append d)

theorem ScreenOf.removeFromSuperview {home : HomeViewController} {us : List User}
    (h : ScreenOf home us) (id : ℕ) : ScreenOf (home.removeFromSuperview id) us := by
  refine ⟨h.cards, h.lastFetchedUser, ?_, fun card hcard => h.deck card (List.mem_filter.1 hcard).1⟩
  exact h.deck_ids.sublist (List.filter_sublist.map _)

theorem ScreenOf.opened {s : System} (h : s.Opened) : ScreenOf s.home (fetchedUsers []) := by
  rw [h.home]
  exact ⟨rfl, rfl, List.nodup_nil, by simp⟩

theorem ScreenOf.step {s s' : System} {e : Event} {pages : List Page}
    (hI : ScreenOf s.home (fetchedUsers pages)) (hmove : Moves s e s') :
    ScreenOf s'.home (fetchedUsers (note s e s' pages)) := by
  cases hmove with
  | wrote hto => rwa [note_of_ne pages (Event.ne_page_of_writesTo hto)]
  | fetching he => rwa [note_of_ne pages he.ne_page]
  | paged hf hphase =>
      rw [note_paged pages hf hphase, fetchedUsers_append]
      exact hI.foldl_append _
  | dragged => exact hI.removeFromSuperview _
  | _ => exact hI

/-- **The cards and the deck are made of the fetched users**, in every state that a run can
reach. -/
theorem screen_run {s₀ s : System} {es : List Event} {pages : List Page} (h₀ : s₀.Opened)
    (hrun : run (withHistory step note) (s₀, []) es = some (s, pages)) :
    ScreenOf s.home (fetchedUsers pages) := by
  refine invariant_run_withHistory (I := fun s pages => ScreenOf s.home (fetchedUsers pages)) ?_
    (.opened h₀) hrun
  intro s pages e s' hI hstep
  exact hI.step (step_moves hstep)

/-- Where the next page starts. -/
theorem ScreenOf.cursor {home : HomeViewController} {us : List User} {uids : List String}
    (h : ScreenOf home us) (huids : us.map User.uid = uids.map some) :
    home.cursor = Keyset.nextCursor "" uids := by
  have hlast : us.getLast?.map User.uid = uids.getLast?.map some := by
    rw [← List.getLast?_map, huids, List.getLast?_map]
  rw [HomeViewController.cursor, h.lastFetchedUser, Keyset.nextCursor]
  cases hu : us.getLast? with
  | none =>
      rw [hu, Option.map_none, eq_comm, Option.map_eq_none_iff] at hlast
      rw [hlast]
      rfl
  | some u =>
      rw [hu, Option.map_some, eq_comm, Option.map_eq_some_iff] at hlast
      obtain ⟨uid, huid, heq⟩ := hlast
      rw [huid, Option.bind_some, ← heq]

/-- No two card views in the deck are those of one user, if no user was fetched twice. -/
theorem ScreenOf.deck_nodup {home : HomeViewController} {us : List User} (h : ScreenOf home us)
    (huids : (us.map User.uid).Nodup) :
    (home.cardDesckView.map fun card => us[card.id]?.bind User.uid).Nodup := by
  have hids : (home.cardDesckView.map fun card => us[card.id]?.bind User.uid) =
      (home.cardDesckView.map CardView.id).map fun i => us[i]?.bind User.uid := by
    rw [List.map_map]
    rfl
  rw [hids]
  refine List.Nodup.map_on (fun i hi j hj hij => ?_) h.deck_ids
  obtain ⟨c, hc, rfl⟩ := List.mem_map.1 hi
  obtain ⟨d, hd, rfl⟩ := List.mem_map.1 hj
  obtain ⟨u, hu, -⟩ := h.deck c hc
  obtain ⟨v, hv, -⟩ := h.deck d hd
  have hi : (us.map User.uid)[c.id]? = some u.uid := by rw [List.getElem?_map, hu, Option.map_some]
  have hj : (us.map User.uid)[d.id]? = some v.uid := by rw [List.getElem?_map, hv, Option.map_some]
  rw [hu, hv, Option.bind_some, Option.bind_some] at hij
  have hlt := (List.getElem?_eq_some_iff.1 hi).1
  exact (List.getElem?_inj hlt huids).1 (hi.trans (hij ▸ hj.symm))

/-! ### What a page returns -/

/-- The uids of the documents that a query of `fetchUsers` returns. -/
def pageUids (users : Collection) (cursor : String) : List String :=
  (Keyset.page (stringField "uid") 2 cursor (documents users)).map Prod.fst

theorem uids_getDocuments (users : Collection) (cursor : String) :
    ((getDocuments (usersQuery cursor) users).map User.init).map User.uid =
      (pageUids users cursor).map some := by
  rw [List.map_map]
  exact getDocuments_fieldValues (usersQuery cursor) users

/-- **What a query of `fetchUsers` returns is a page** of the uids of the collection, if they are
distinct. -/
theorem isPage_pageUids {users : Collection} (h : (fieldValues "uid" users).Nodup)
    (cursor : String) :
    Keyset.IsPage 2 {uid | uid ∈ fieldValues "uid" users} cursor (pageUids users cursor) :=
  Keyset.isPage_page h 2 cursor

end Home
