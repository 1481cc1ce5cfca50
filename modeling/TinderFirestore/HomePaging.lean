/-
**Paging while the collection changes.**

Both writers of the collection `users` put the uid of a profile into its document, under the id it
is stored at.  So the field the home screen orders its query by is a key of the collection, and a
fetch that waits for the earlier ones pages through it as one would hope: whatever is written
between two pages, nobody is shown twice, and whoever was there at every page and has been passed
by the cursor has been shown.

* `Home.Keyed` — every document carries its id in the field `uid`;
* `Home.AnsweredFirst`, `Home.OneAtATime` — a fetch is issued when the earlier ones have been
  answered, and what follows for the fetches;
* `Home.SweptBy` — the pages have listed what they should;
* `Home.keyed_run` — the writers keep the collection keyed;
* `Home.paging_run` — **paging neither loses nor repeats a user.**
-/

import TinderFirestore.HomeFetch

set_option relaxedAutoImplicit false
set_option autoImplicit false

namespace Home

open Firestore Profile EventRun

/-! ### The key of the collection -/

/-- Every document carries its id, which is not empty, in the field `uid`. -/
def Keyed (users : Collection) : Prop :=
  ∀ document d, getDocument users document = some d →
    d "uid" = some (.string document) ∧ document ≠ ""

theorem keyed_empty : Keyed ∅ := by simp [Keyed]

/-- Both writers keep a collection keyed. -/
theorem Keyed.setData {users : Collection} (h : Keyed users) {uid : String} {data : Dictionary}
    (hdata : data "uid" = some (.string uid)) (huid : uid ≠ "") :
    Keyed (setData uid data users) := by
  intro document d hd
  rcases getDocument_setData_eq_some hd with ⟨rfl, rfl⟩ | hd
  · exact ⟨hdata, huid⟩
  · exact h document d hd

/-- In a keyed collection the values of the field `uid` are the ids. -/
theorem Keyed.fieldValues_eq {users : Collection} (h : Keyed users) :
    fieldValues "uid" users = (documents users).map Prod.fst := by
  have hkeyed : Keyset.keyed (stringField "uid") (documents users) =
      (documents users).map fun x => (x.1, x) := by
    rw [Keyset.keyed, ← List.filterMap_eq_map]
    refine List.filterMap_congr fun x hx => ?_
    rw [stringField, (h x.1 x.2 (mem_documents.1 hx)).1]
    rfl
  rw [fieldValues, hkeyed, List.map_map]
  rfl

theorem Keyed.mem_fieldValues {users : Collection} (h : Keyed users) {uid : String} :
    uid ∈ fieldValues "uid" users ↔ (getDocument users uid).isSome := by
  rw [h.fieldValues_eq, List.mem_map, Option.isSome_iff_exists]
  constructor
  · rintro ⟨⟨document, d⟩, hx, rfl⟩
    exact ⟨d, mem_documents.1 hx⟩
  · rintro ⟨d, hd⟩
    exact ⟨(uid, d), mem_documents.2 hd, rfl⟩

/-- What a query of `fetchUsers` returns of a keyed collection. -/
theorem Keyed.isPage {users : Collection} (h : Keyed users) (cursor : String) :
    Keyset.IsPage 2 {uid | (getDocument users uid).isSome} cursor (pageUids users cursor) := by
  have hset : {uid | uid ∈ fieldValues "uid" users} = {uid | (getDocument users uid).isSome} :=
    Set.ext fun uid => h.mem_fieldValues
  rw [← hset]
  refine isPage_pageUids ?_ cursor
  rw [h.fieldValues_eq]
  exact documents_ids_nodup users

/-- The collection is keyed, and was when a query was evaluated. -/
structure KeyedInv (s : System) : Prop where
  users : Keyed s.users
  evaluated : ∀ f ∈ s.fetches, ∀ users, f.phase = .evaluated users → Keyed users

theorem KeyedInv.step {s s' : System} {e : Event} (h : KeyedInv s) (huid : e.writesTo ≠ some "")
    (hmove : Moves s e s') : KeyedInv s' := by
  have hset {q : ℕ} {f : Fetch} (hphase : ∀ users, f.phase = .evaluated users → Keyed users) :
      ∀ k ∈ s.fetches.set q f, ∀ users, k.phase = .evaluated users → Keyed users := by
    intro k hk
    rcases List.mem_or_eq_of_mem_set hk with hk | rfl
    · exact h.evaluated k hk
    · exact hphase
  cases hmove with
  | wrote hto hdata =>
      exact ⟨h.users.setData hdata fun heq => huid (heq ▸ hto), h.evaluated⟩
  | fetching he =>
      refine ⟨h.users, fun f hf users hphase => ?_⟩
      rcases List.mem_append.1 hf with hf | hf
      · exact h.evaluated f hf users hphase
      · rw [List.mem_singleton.1 hf] at hphase
        exact absurd hphase (by simp)
  | evaluated hf hphase =>
      refine ⟨h.users, hset fun users heq => ?_⟩
      rw [QueryPhase.evaluated.injEq] at heq
      exact heq ▸ h.users
  | paged hf hphase => exact ⟨h.users, hset fun users heq => absurd heq (by simp)⟩
  | failed hf hphase => exact ⟨h.users, hset fun users heq => absurd heq (by simp)⟩
  | @dismissed q f hf hhud => exact ⟨h.users, hset (h.evaluated f (List.mem_of_getElem? hf))⟩
  | dragged => exact ⟨h.users, h.evaluated⟩

/-! ### One fetch at a time -/

/-- A fetch is issued when the earlier ones have been answered. -/
def AnsweredFirst (s : System) (e : Event) : Prop :=
  e.Fetches → ∀ f ∈ s.fetches, f.Answered

instance (s : System) (e : Event) : Decidable (AnsweredFirst s e) :=
  inferInstanceAs (Decidable (e.Fetches → ∀ f ∈ s.fetches, f.Answered))

/-- Only the last fetch can be unanswered, and then its query starts at the cursor. -/
structure OneAtATime (s : System) : Prop where
  last : ∀ q f, s.fetches[q]? = some f → ¬ f.Answered → q + 1 = s.fetches.length
  query : ∀ f ∈ s.fetches, ¬ f.Answered → f.query = usersQuery s.home.cursor

theorem OneAtATime.opened {s : System} (h : s.Opened) : OneAtATime s := by
  constructor <;> simp [h.fetches]

/-- Putting a fetch with the same query in the place of one that may have been answered. -/
theorem OneAtATime.set {s s' : System} {q : ℕ} {f f' : Fetch} (h : OneAtATime s)
    (hf : s.fetches[q]? = some f) (hfetches : s'.fetches = s.fetches.set q f')
    (hsame : f'.query = f.query) (hanswered : f.Answered → f'.Answered)
    (hhome : s'.home = s.home ∨ f'.Answered ∧ ¬ f.Answered) : OneAtATime s' := by
  have hlast : ∀ i k, s'.fetches[i]? = some k → ¬ k.Answered → i + 1 = s'.fetches.length := by
    intro i k hk hno
    rw [hfetches, List.getElem?_set] at hk
    rw [hfetches, List.length_set]
    split_ifs at hk with hqi hlt
    · rw [Option.some_inj] at hk
      subst hqi hk
      exact h.last q f hf fun ha => hno (hanswered ha)
    · exact h.last i k hk hno
  refine ⟨hlast, fun k hk hno => ?_⟩
  rcases hhome with hhome | ⟨hf', hnof⟩
  · rw [hhome]
    rw [hfetches] at hk
    rcases List.mem_or_eq_of_mem_set hk with hk | rfl
    · exact h.query k hk hno
    · rw [hsame]
      exact h.query f (List.mem_of_getElem? hf) fun ha => hno (hanswered ha)
  · -- the others have been answered already
    exfalso
    obtain ⟨i, hi⟩ := List.mem_iff_getElem?.1 hk
    have hlen := hlast i k hi hno
    rw [hfetches, List.length_set, ← h.last q f hf hnof, Nat.add_right_cancel_iff] at hlen
    obtain ⟨hlt, -⟩ := List.getElem?_eq_some_iff.1 hf
    rw [hfetches, hlen, List.getElem?_set_self hlt, Option.some_inj] at hi
    exact hno (hi ▸ hf')

theorem OneAtATime.step {s s' : System} {e : Event} (h : OneAtATime s)
    (hfirst : AnsweredFirst s e) (hmove : Moves s e s') : OneAtATime s' := by
  cases hmove with
  | wrote hto => exact ⟨h.last, h.query⟩
  | fetching he =>
      have hall := hfirst he
      refine ⟨fun q f hf hno => ?_, fun f hf hno => ?_⟩
      · simp only [System.fetchUsers, List.length_append, List.length_singleton] at hf ⊢
        rcases Nat.lt_or_ge q s.fetches.length with hq | hq
        · rw [List.getElem?_append_left hq] at hf
          exact absurd (hall f (List.mem_of_getElem? hf)) hno
        · have := (List.getElem?_eq_some_iff.1 hf).1
          simp only [List.length_append, List.length_singleton] at this
          omega
      · rcases List.mem_append.1 hf with hf | hf
        · exact absurd (hall f hf) hno
        · rw [List.mem_singleton.1 hf]
          rfl
  | evaluated hf hphase =>
      exact h.set hf rfl rfl (fun ha => absurd (hphase.symm.trans ha) (by simp)) (Or.inl rfl)
  | paged hf hphase =>
      exact h.set hf rfl rfl (fun _ => rfl)
        (Or.inr ⟨rfl, fun ha => absurd (hphase.symm.trans ha) (by simp)⟩)
  | failed hf hphase => exact h.set hf rfl rfl (fun _ => rfl) (Or.inl rfl)
  | dismissed hf hhud => exact h.set hf rfl rfl id (Or.inl rfl)
  | dragged => exact ⟨h.last, h.query⟩

/-! ### The pages -/

/-- The uids that were stored at every page. -/
def alwaysStored (pages : List Page) : Set String :=
  {uid | ∀ p ∈ pages, (getDocument p.users uid).isSome}

theorem alwaysStored_append (pages : List Page) (p : Page) :
    alwaysStored (pages ++ [p]) =
      alwaysStored pages ∩ {uid | (getDocument p.users uid).isSome} := by
  ext uid
  simp only [alwaysStored, Set.mem_inter_iff, Set.mem_ofPred_eq, List.forall_mem_append,
    List.forall_mem_singleton]

/-- The pages so far have listed the uids `uids`: they have swept the collection up to the cursor,
and the whole of it once a page was not full. -/
structure SweptBy (pages : List Page) (uids : List String) : Prop where
  fetched : (fetchedUsers pages).map User.uid = uids.map some
  swept : Keyset.Swept "" (alwaysStored pages) uids (Keyset.nextCursor "" uids)
  short : ∀ p ∈ pages, p.documents.length < 2 → ∀ uid ∈ alwaysStored pages, uid ≠ "" → uid ∈ uids

theorem lt_of_ne_empty {uid : String} (h : uid ≠ "") : "" < uid := by
  rw [String.lt_iff_toList_lt, String.toList_empty]
  cases hl : uid.toList with
  | nil => exact absurd (String.toList_eq_nil_iff.1 hl) h
  | cons c cs => exact List.Lex.nil

theorem SweptBy.nil : SweptBy [] [] :=
  ⟨rfl, Keyset.Swept.start "" _, by simp⟩

/-- A further page. -/
theorem SweptBy.append {pages : List Page} {uids : List String} {users : Collection}
    (h : SweptBy pages uids) (hkeyed : Keyed users) :
    SweptBy
      (pages ++
        [{ users, documents := getDocuments (usersQuery (Keyset.nextCursor "" uids)) users }])
      (uids ++ pageUids users (Keyset.nextCursor "" uids)) := by
  have hpage := hkeyed.isPage (Keyset.nextCursor "" uids)
  have huids := uids_getDocuments users (Keyset.nextCursor "" uids)
  refine ⟨?_, ?_, fun p hp hlen uid huid hne => ?_⟩
  · rw [fetchedUsers_append, List.map_append, h.fetched, huids, List.map_append]
  · rw [Keyset.nextCursor_append, alwaysStored_append]
    exact h.swept.append hpage
  · rw [alwaysStored_append] at huid
    rcases List.mem_append.1 hp with hp | hp
    · exact List.mem_append_left _ (h.short p hp hlen uid huid.1 hne)
    · have hpagelen := congrArg List.length huids
      simp only [List.length_map] at hpagelen
      rw [List.mem_singleton.1 hp, hpagelen] at hlen
      exact h.swept.mem_of_short hpage hlen huid (lt_of_ne_empty hne)

theorem SweptBy.step {s s' : System} {e : Event} {pages : List Page}
    (h : ∃ uids, SweptBy pages uids) (hkeyed : KeyedInv s) (hone : OneAtATime s)
    (hscreen : ScreenOf s.home (fetchedUsers pages)) (hmove : Moves s e s') :
    ∃ uids, SweptBy (note s e s' pages) uids := by
  cases hmove with
  | wrote hto => rwa [note_of_ne pages (Event.ne_page_of_writesTo hto)]
  | fetching he => rwa [note_of_ne pages he.ne_page]
  | @paged q f users hf hphase =>
      obtain ⟨uids, hswept⟩ := h
      have hmem := List.mem_of_getElem? hf
      have hquery : f.query = usersQuery (Keyset.nextCursor "" uids) := by
        rw [← hscreen.cursor hswept.fetched]
        exact hone.query f hmem fun ha => absurd (hphase.symm.trans ha) (by simp)
      rw [note_paged pages hf hphase, hquery]
      exact ⟨_, hswept.append (hkeyed.evaluated f hmem users hphase)⟩
  | _ => exact h

/-! ### Runs -/

theorem KeyedInv.opened {s : System} (h : s.Opened) (hempty : s.users = ∅) : KeyedInv s := by
  refine ⟨?_, by simp [h.fetches]⟩
  rw [hempty]
  exact keyed_empty

/-- **The writers keep the collection keyed**, and so were the collections that queries were
evaluated against. -/
theorem keyed_run {s₀ s : System} {es : List Event} (h₀ : s₀.Opened) (hempty : s₀.users = ∅)
    (huids : ∀ e ∈ es, e.writesTo ≠ some "") (hrun : run step s₀ es = some s) : KeyedInv s := by
  exact invariant_run_of_meet (fun s e s' huid hI hstep => hI.step huid (step_moves hstep))
    ((stepsMeet_events_iff hrun).2 huids) (.opened h₀ hempty) hrun

theorem swept_run {s₀ s : System} {es : List Event} {pages : List Page} (h₀ : s₀.Opened)
    (hempty : s₀.users = ∅) (huids : ∀ e ∈ es, e.writesTo ≠ some "")
    (hfirst : StepsMeet step AnsweredFirst s₀ es)
    (hrun : run (withHistory step note) (s₀, []) es = some (s, pages)) :
    ∃ uids, SweptBy pages uids := by
  have hmeet := stepsMeet_and ((stepsMeet_events_iff (run_withHistory.2 ⟨pages, hrun⟩)).2 huids)
    hfirst
  have h := invariant_run_withHistory_of_meet (I := fun s pages => KeyedInv s ∧ OneAtATime s ∧
      ScreenOf s.home (fetchedUsers pages) ∧ ∃ uids, SweptBy pages uids) ?_ hmeet
    ⟨.opened h₀ hempty, .opened h₀, .opened h₀, [], .nil⟩ hrun
  · exact h.2.2.2
  · rintro s pages e s' ⟨huid, hfirst⟩ ⟨hkeyed, hone, hscreen, hI⟩ hstep
    have hmove := step_moves hstep
    exact ⟨hkeyed.step huid hmove, hone.step hfirst hmove, hscreen.step hmove,
      SweptBy.step hI hkeyed hone hscreen hmove⟩

/-! ### The main result -/

/-- **Paging neither loses nor repeats a user** while the collection changes under it.  In every
state that a run can reach: every stored document carries its id in the field `uid`; the cards are
those of users with strictly increasing uids; whoever was stored at every page, with a uid up to
the cursor, is among them exactly once; and so is whoever was stored at every page, once a page has
had fewer than two documents. -/
theorem paging_run {s₀ s : System} {es : List Event} {pages : List Page} (h₀ : s₀.Opened)
    (hempty : s₀.users = ∅) (huids : ∀ e ∈ es, e.writesTo ≠ some "")
    (hfirst : StepsMeet step AnsweredFirst s₀ es)
    (hrun : run (withHistory step note) (s₀, []) es = some (s, pages)) :
    (∀ document d, getDocument s.users document = some d →
      d "uid" = some (.string document)) ∧
    (s.home.cards = (fetchedUsers pages).map CardViewModel.init ∧
      ∃ uids : List String, (fetchedUsers pages).map User.uid = uids.map some ∧ uids.SortedLT) ∧
    (∀ uid, uid ≠ "" → (∀ p ∈ pages, (getDocument p.users uid).isSome) → uid ≤ s.home.cursor →
      ((fetchedUsers pages).map User.uid).count (some uid) = 1) ∧
    ((∃ p ∈ pages, p.documents.length < 2) →
      ∀ uid, uid ≠ "" → (∀ p ∈ pages, (getDocument p.users uid).isSome) →
        ((fetchedUsers pages).map User.uid).count (some uid) = 1) := by
  have hkeyed := keyed_run h₀ hempty huids (run_withHistory.2 ⟨pages, hrun⟩)
  obtain ⟨uids, hfetched, hswept, hshort⟩ := swept_run h₀ hempty huids hfirst hrun
  have hnodup : ((fetchedUsers pages).map User.uid).Nodup := by
    rw [hfetched]
    exact hswept.sortedLT.nodup.map (Option.some_injective _)
  have hcount {uid : String} (hmem : uid ∈ uids) :
      ((fetchedUsers pages).map User.uid).count (some uid) = 1 :=
    List.count_eq_one_of_mem hnodup (hfetched ▸ List.mem_map_of_mem hmem)
  refine ⟨fun document d hd => (hkeyed.users document d hd).1,
    ⟨(screen_run h₀ hrun).cards, uids, hfetched, hswept.sortedLT⟩, ?_, ?_⟩
  · intro uid hne hstored hle
    rw [(screen_run h₀ hrun).cursor hfetched] at hle
    exact hcount (hswept.complete uid hstored (lt_of_ne_empty hne) hle)
  · rintro ⟨p, hp, hlen⟩ uid hne hstored
    exact hcount (hshort p hp hlen uid hstored hne)

/-- The screen before it appears, over a collection. -/
def opened (users : Collection) : System where
  users := users
  home := { cards := [], lastFetchedUser := none, cardDesckView := [] }
  fetches := []

/-- Two pages; between them one profile is written below the cursor, one is overwritten and one is
written above the cursor. -/
def insertions : List Event :=
  [.saveInfoToFirestore "b" (some "Bob") "url", .saveInfoToFirestore "d" (some "Dan") "url",
    .viewDidLoad, .evaluate 0, .page 0, .hudDismissed 0,
    .saveInfoToFirestore "c" (some "Cid") "url", .saveHandle "d" none,
    .saveInfoToFirestore "e" (some "Eve") "url", .refreshHandle, .evaluate 1, .page 1]

theorem paging_run_insertions :
    ∃ s pages, run (withHistory step note) (opened ∅, []) insertions = some (s, pages) ∧
      ((fetchedUsers pages).map User.uid).count (some "d") = 1 := by
  refine ⟨_, _, rfl, ?_⟩
  have hfirst : StepsMeet step AnsweredFirst (opened ∅) insertions := by decide
  have h := (paging_run ⟨rfl, rfl⟩ rfl (by decide) hfirst rfl).2.2.2
  exact h ⟨_, List.mem_of_getElem? (i := 1) rfl, by decide⟩ "d" (by decide) (by decide)

end Home
