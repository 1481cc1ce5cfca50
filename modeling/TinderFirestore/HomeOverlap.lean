/-
**Fetches that overlap.**

Nothing keeps the home screen from issuing a query while an earlier one is outstanding.  Two such
queries start at the same cursor, and whichever is answered last appends a page that has been
appended before and puts the cursor back.  This is harmless exactly when every page that is not
empty comes while the cursor is still the one its query was issued with.  The HUD of a fetch covers
the reload button until the reply has come, so a tap that is not made around it finds every fetch
answered.

* `Home.NothingTwice` — no user in the cards or in the deck twice, and a cursor that never moves
  back;
* `Home.NotMoved`, `Home.Uncovered` — the condition on the arrival of a page, and a tap that is made
  when no HUD is on the screen;
* `Home.OverlapInv` — the invariant behind the equivalence;
* `Home.overlap_nothing_twice_iff` — **when overlapping fetches are harmless.**
-/

import TinderFirestore.HomePaging

set_option relaxedAutoImplicit false
set_option autoImplicit false

namespace Home

open Firestore Profile EventRun

/-! ### What is to be shown -/

/-- No user is in the cards or in the deck twice, and the cursors of successive queries never move
back. -/
structure NothingTwice (s : System) (pages : List Page) : Prop where
  cards : ((fetchedUsers pages).map User.uid).Nodup
  deck : (s.home.cardDesckView.map fun card =>
    (fetchedUsers pages)[card.id]?.bind User.uid).Nodup
  cursor : (s.fetches.map fun f => f.query.startAfter).Pairwise (· ≤ ·)

/-- A page that is not empty comes while the cursor is still the one its query was issued with. -/
def NotMoved (s : System) : Event → Prop
  | .page q => ∀ f users, s.fetches[q]? = some f → f.phase = .evaluated users →
      getDocuments f.query users ≠ [] → f.query.startAfter = s.home.cursor
  | _ => True

/-- A fetch is issued when no HUD of an earlier one is on the screen. -/
def Uncovered (s : System) (e : Event) : Prop :=
  e.Fetches → ∀ f ∈ s.fetches, f.hud = .hidden

instance (s : System) (e : Event) : Decidable (Uncovered s e) :=
  inferInstanceAs (Decidable (e.Fetches → ∀ f ∈ s.fetches, f.hud = .hidden))

/-! ### The invariant -/

/-- What holds while every page has met the condition: the uids `uids` have been listed, each once,
up to the cursor, and a query that is outstanding starts at the cursor or will return what is
listed already. -/
structure Listed (users : Collection) (s : System) (pages : List Page) (uids : List String) :
    Prop where
  fetched : (fetchedUsers pages).map User.uid = uids.map some
  swept : Keyset.Swept "" {uid | uid ∈ fieldValues "uid" users} uids (Keyset.nextCursor "" uids)
  seen : ∀ f ∈ s.fetches, ¬ f.Answered → f.query.startAfter = Keyset.nextCursor "" uids ∨
    pageUids users f.query.startAfter ⊆ uids
  le : ∀ f ∈ s.fetches, f.query.startAfter ≤ Keyset.nextCursor "" uids
  monotone : (s.fetches.map fun f => f.query.startAfter).Pairwise (· ≤ ·)

/-- The invariant; `b` says whether every page so far has met the condition. -/
structure OverlapInv (users : Collection) (b : Prop) (s : System) (pages : List Page) : Prop where
  fixed : s.users = users
  evaluated : ∀ f ∈ s.fetches, ∀ users', f.phase = .evaluated users' → users' = users
  query : ∀ f ∈ s.fetches, f.query = usersQuery f.query.startAfter
  met : b → ∃ uids, Listed users s pages uids
  unmet : ¬ b → ¬ ((fetchedUsers pages).map User.uid).Nodup

theorem OverlapInv.opened {s : System} (h : s.Opened) : OverlapInv s.users True s [] := by
  refine ⟨rfl, by simp [h.fetches], by simp [h.fetches], fun _ => ⟨[], rfl, ?_, ?_, ?_, ?_⟩,
    fun hno => absurd trivial hno⟩
  · exact Keyset.Swept.start "" _
  · simp [h.fetches]
  · simp [h.fetches]
  · simp [h.fetches]

theorem OverlapInv.congr {users : Collection} {b b' : Prop} {s : System} {pages : List Page}
    (h : OverlapInv users b s pages) (hb : b' ↔ b) : OverlapInv users b' s pages := by
  rwa [propext hb]

section Step

variable {users : Collection} {b : Prop} {s s' : System} {pages : List Page} {q : ℕ} {f f' : Fetch}

/-- Putting a fetch with the same query in the place of one: the cursors are the same. -/
theorem startAfter_set (hf : s.fetches[q]? = some f) (hsame : f'.query = f.query) :
    ((s.fetches.set q f').map fun f => f.query.startAfter) =
      s.fetches.map fun f => f.query.startAfter := by
  refine List.ext_getElem? fun i => ?_
  rw [List.getElem?_map, List.getElem?_map, List.getElem?_set]
  split_ifs with hqi hlt
  · rw [← hqi, hf, Option.map_some, Option.map_some, hsame]
  · rw [← hqi, hf]
    exact absurd (List.getElem?_eq_some_iff.1 hf).1 hlt
  · rfl

/-- A fetch goes on to its next phase without a page being handled. -/
theorem Listed.set {uids : List String} (h : Listed users s pages uids)
    (hf : s.fetches[q]? = some f) (hfetches : s'.fetches = s.fetches.set q f')
    (hsame : f'.query = f.query) (hanswered : f.Answered → f'.Answered) :
    Listed users s' pages uids := by
  have hmem := List.mem_of_getElem? hf
  refine ⟨h.fetched, h.swept, fun k hk hno => ?_, fun k hk => ?_, ?_⟩
  · rw [hfetches] at hk
    rcases List.mem_or_eq_of_mem_set hk with hk | rfl
    · exact h.seen k hk hno
    · rw [hsame]
      exact h.seen f hmem fun ha => hno (hanswered ha)
  · rw [hfetches] at hk
    rcases List.mem_or_eq_of_mem_set hk with hk | rfl
    · exact h.le k hk
    · rw [hsame]
      exact h.le f hmem
  · rw [hfetches, startAfter_set hf hsame]
    exact h.monotone

theorem OverlapInv.evaluated_set (h : OverlapInv users b s pages)
    (hf' : ∀ users', f'.phase = .evaluated users' → users' = users) :
    ∀ k ∈ s.fetches.set q f', ∀ users', k.phase = .evaluated users' → users' = users := by
  intro k hk
  rcases List.mem_or_eq_of_mem_set hk with hk | rfl
  · exact h.evaluated k hk
  · exact hf'

theorem OverlapInv.query_set (h : OverlapInv users b s pages) (hf : s.fetches[q]? = some f)
    (hsame : f'.query = f.query) :
    ∀ k ∈ s.fetches.set q f', k.query = usersQuery k.query.startAfter := by
  intro k hk
  rcases List.mem_or_eq_of_mem_set hk with hk | rfl
  · exact h.query k hk
  · rw [hsame]
    exact h.query f (List.mem_of_getElem? hf)

theorem OverlapInv.set (h : OverlapInv users b s pages) (hf : s.fetches[q]? = some f)
    (hfetches : s'.fetches = s.fetches.set q f') (husers : s'.users = s.users)
    (hsame : f'.query = f.query) (hanswered : f.Answered → f'.Answered)
    (hf' : ∀ users', f'.phase = .evaluated users' → users' = users) :
    OverlapInv users b s' pages := by
  refine ⟨husers.trans h.fixed, ?_, ?_, fun hb => ?_, h.unmet⟩
  · rw [hfetches]
    exact h.evaluated_set hf'
  · rw [hfetches]
    exact h.query_set hf hsame
  · obtain ⟨uids, hlisted⟩ := h.met hb
    exact ⟨uids, hlisted.set hf hfetches hsame hanswered⟩

theorem OverlapInv.fetching (h : OverlapInv users b s pages)
    (hscreen : ScreenOf s.home (fetchedUsers pages)) : OverlapInv users b s.fetchUsers pages := by
  refine ⟨h.fixed, fun k hk => ?_, fun k hk => ?_, fun hb => ?_, h.unmet⟩
  · rcases List.mem_append.1 hk with hk | hk
    · exact h.evaluated k hk
    · rw [List.mem_singleton.1 hk]
      exact fun users' heq => absurd heq (by simp)
  · rcases List.mem_append.1 hk with hk | hk
    · exact h.query k hk
    · rw [List.mem_singleton.1 hk]
      rfl
  · obtain ⟨uids, hlisted⟩ := h.met hb
    have hcursor := hscreen.cursor hlisted.fetched
    refine ⟨uids, hlisted.fetched, hlisted.swept, fun k hk hno => ?_, fun k hk => ?_, ?_⟩
    · rcases List.mem_append.1 hk with hk | hk
      · exact hlisted.seen k hk hno
      · rw [List.mem_singleton.1 hk]
        exact Or.inl hcursor
    · rcases List.mem_append.1 hk with hk | hk
      · exact hlisted.le k hk
      · rw [List.mem_singleton.1 hk]
        exact hcursor.le
    · rw [System.fetchUsers, List.map_append]
      refine List.pairwise_append.2 ⟨hlisted.monotone, List.pairwise_singleton _ _, ?_⟩
      intro c hc c' hc'
      obtain ⟨k, hk, rfl⟩ := List.mem_map.1 hc
      rw [List.mem_singleton.1 hc']
      exact (hlisted.le k hk).trans hcursor.ge

/-- A page that meets the condition. -/
theorem Listed.paged {uids : List String} (h : Listed users s pages uids)
    (hdistinct : (fieldValues "uid" users).Nodup) (hf : s.fetches[q]? = some f)
    (hquery : f.query = usersQuery f.query.startAfter)
    (hfetches : s'.fetches = s.fetches.set q f') (hsame : f'.query = f.query)
    (hanswered : f'.Answered)
    (hcursor : pageUids users f.query.startAfter ≠ [] →
      f.query.startAfter = Keyset.nextCursor "" uids) :
    Listed users s' (pages ++ [{ users, documents := getDocuments f.query users }])
      (uids ++ pageUids users f.query.startAfter) := by
  have hset := h.set hf hfetches hsame fun _ => hanswered
  have hfetched : (fetchedUsers (pages ++ [{ users, documents := getDocuments f.query users }])).map
      User.uid = (uids ++ pageUids users f.query.startAfter).map some := by
    rw [fetchedUsers_append, List.map_append, h.fetched, hquery, uids_getDocuments,
      List.map_append]
    rfl
  rcases eq_or_ne (pageUids users f.query.startAfter) [] with hnil | hne
  · rw [hnil, List.append_nil] at hfetched ⊢
    exact ⟨hfetched, hset.swept, hset.seen, hset.le, hset.monotone⟩
  · have hstart := hcursor hne
    rw [hstart] at hfetched ⊢
    have hpage := isPage_pageUids hdistinct (Keyset.nextCursor "" uids)
    refine ⟨hfetched, ?_, fun k hk hno => Or.inr ?_, fun k hk => ?_, hset.monotone⟩
    · rw [Keyset.nextCursor_append]
      have hswept := h.swept.append hpage
      rwa [Set.inter_self] at hswept
    · -- the page that has just come is the one that the other queries at this cursor will return
      rcases hset.seen k hk hno with heq | hsub
      · rw [heq]
        exact List.subset_append_right _ _
      · exact fun uid huid => List.mem_append_left _ (hsub huid)
    · rw [Keyset.nextCursor_append]
      exact (hset.le k hk).trans hpage.le_nextCursor

/-- A page that does not meet the condition has been listed before. -/
theorem Listed.repeated {uids : List String} (h : Listed users s pages uids)
    (hf : s.fetches[q]? = some f) (hanswered : ¬ f.Answered)
    (hquery : f.query = usersQuery f.query.startAfter)
    (hne : pageUids users f.query.startAfter ≠ [])
    (hmoved : f.query.startAfter ≠ Keyset.nextCursor "" uids) :
    ¬ ((fetchedUsers (pages ++ [{ users, documents := getDocuments f.query users }])).map
      User.uid).Nodup := by
  have hsub := (h.seen f (List.mem_of_getElem? hf) hanswered).resolve_left hmoved
  rw [fetchedUsers_append, List.map_append, h.fetched, hquery, uids_getDocuments]
  refine Keyset.not_nodup_append (fun hnil => hne (List.map_eq_nil_iff.1 hnil)) ?_
  exact List.map_subset _ hsub

/-- The condition in terms of the uids on the page. -/
theorem notMoved_page_iff {users' : Collection} (hf : s.fetches[q]? = some f)
    (hphase : f.phase = .evaluated users') (hquery : f.query = usersQuery f.query.startAfter) :
    NotMoved s (.page q) ↔
      (pageUids users' f.query.startAfter ≠ [] → f.query.startAfter = s.home.cursor) := by
  have hlength : (getDocuments f.query users').length =
      (pageUids users' f.query.startAfter).length := by
    have huids := congrArg List.length (uids_getDocuments users' f.query.startAfter)
    rw [← hquery] at huids
    simpa only [List.length_map] using huids
  have hempty : getDocuments f.query users' ≠ [] ↔ pageUids users' f.query.startAfter ≠ [] := by
    rw [← List.length_pos_iff, ← List.length_pos_iff, hlength]
  rw [← hempty]
  constructor
  · exact fun h => h f users' hf hphase
  · intro h k users hk hphase' hne
    rw [hf, Option.some_inj] at hk
    subst hk
    rw [hphase, QueryPhase.evaluated.injEq] at hphase'
    exact h (hphase' ▸ hne)

theorem OverlapInv.step {e : Event} (h : OverlapInv users b s pages)
    (hscreen : ScreenOf s.home (fetchedUsers pages))
    (hdistinct : (fieldValues "uid" users).Nodup) (hfixed : e.writesTo = none)
    (hmove : Moves s e s') :
    OverlapInv users (b ∧ NotMoved s e) s' (note s e s' pages) := by
  cases hmove with
  | wrote hto => exact absurd (hfixed.symm.trans hto) (by simp)
  | fetching he =>
      rw [note_of_ne pages he.ne_page]
      refine (h.fetching hscreen).congr (and_iff_left ?_)
      cases e with
      | page q => exact absurd rfl (he.ne_page q)
      | _ => trivial
  | evaluated hf hphase =>
      refine OverlapInv.congr (h.set hf rfl rfl rfl
        (fun ha => absurd (hphase.symm.trans ha) (by simp)) fun users' heq => ?_)
        (and_iff_left trivial)
      rw [QueryPhase.evaluated.injEq] at heq
      exact heq.symm.trans h.fixed
  | failed hf hphase =>
      exact OverlapInv.congr (h.set hf rfl rfl rfl (fun _ => rfl)
        fun users' heq => absurd heq (by simp)) (and_iff_left trivial)
  | @dismissed q f hf hhud =>
      exact OverlapInv.congr (h.set hf rfl rfl rfl id (h.evaluated f (List.mem_of_getElem? hf)))
        (and_iff_left trivial)
  | dragged =>
      refine OverlapInv.congr ⟨h.fixed, h.evaluated, h.query, fun hb => ?_, h.unmet⟩
        (and_iff_left trivial)
      obtain ⟨uids, hlisted⟩ := h.met hb
      exact ⟨uids, hlisted.fetched, hlisted.swept, hlisted.seen, hlisted.le, hlisted.monotone⟩
  | @paged q f users' hf hphase =>
      have hmem := List.mem_of_getElem? hf
      obtain rfl := h.evaluated f hmem users' hphase
      have hquery := h.query f hmem
      rw [note_paged pages hf hphase, notMoved_page_iff hf hphase hquery]
      refine ⟨h.fixed, h.evaluated_set fun users' heq => absurd heq (by simp), h.query_set hf rfl,
        fun hb => ?_, fun hno => ?_⟩
      · obtain ⟨hb, hcursor⟩ := hb
        obtain ⟨uids, hlisted⟩ := h.met hb
        rw [hscreen.cursor hlisted.fetched] at hcursor
        exact ⟨_, hlisted.paged hdistinct hf hquery rfl rfl rfl hcursor⟩
      · by_cases hb : b
        · obtain ⟨uids, hlisted⟩ := h.met hb
          rw [hscreen.cursor hlisted.fetched] at hno
          obtain ⟨hne, hmoved⟩ := Classical.not_imp.1 fun himp => hno ⟨hb, himp⟩
          have hwaiting : ¬ f.Answered := fun ha => absurd (hphase.symm.trans ha) (by simp)
          -- the cursor has moved past the page
          exact hlisted.repeated hf hwaiting hquery hne hmoved
        · intro hnodup
          rw [fetchedUsers_append, List.map_append] at hnodup
          exact h.unmet hb hnodup.of_append_left

end Step

/-! ### Fetches that do not overlap -/

/-- The HUD of a fetch stays until the reply. -/
def HudInv (s : System) : Prop :=
  ∀ f ∈ s.fetches, f.hud ≠ .shown → f.Answered

theorem HudInv.step {s s' : System} {e : Event} (h : HudInv s) (hmove : Moves s e s') :
    HudInv s' := by
  have hset {q : ℕ} {f' : Fetch} (hf' : f'.hud ≠ .shown → f'.Answered) :
      ∀ k ∈ s.fetches.set q f', k.hud ≠ .shown → k.Answered := by
    intro k hk
    rcases List.mem_or_eq_of_mem_set hk with hk | rfl
    · exact h k hk
    · exact hf'
  cases hmove with
  | wrote => exact h
  | fetching =>
      intro f hf hhud
      rcases List.mem_append.1 hf with hf | hf
      · exact h f hf hhud
      · rw [List.mem_singleton.1 hf] at hhud
        exact absurd rfl hhud
  | evaluated hf hphase =>
      have hshown := h _ (List.mem_of_getElem? hf)
      exact hset fun hhud => absurd (hphase.symm.trans (hshown hhud)) (by simp)
  | paged => exact hset fun _ => rfl
  | failed => exact hset fun _ => rfl
  | dismissed hf hhud =>
      have hanswered := h _ (List.mem_of_getElem? hf)
      exact hset fun _ => hanswered (by simp [hhud])
  | dragged => exact h

/-- A tap that is made when no HUD is on the screen finds every fetch answered. -/
theorem answeredFirst_of_uncovered {s : System} {es : List Event} (h₀ : s.Opened)
    (h : StepsMeet step Uncovered s es) : StepsMeet step AnsweredFirst s es := by
  refine stepsMeet_of_invariant (I := HudInv) (fun s e s' _ hI hstep => hI.step (step_moves hstep))
    (fun s e hcovered hI he f hf => ?_) h (by simp [HudInv, h₀.fetches])
  exact hI f hf (by simp [hcovered he f hf])

/-- When no query is issued while another is outstanding, the cursor stays where it was. -/
theorem notMoved_of_answeredFirst {s : System} {es : List Event} (h₀ : s.Opened)
    (h : StepsMeet step AnsweredFirst s es) : StepsMeet step NotMoved s es := by
  refine stepsMeet_of_invariant (I := OneAtATime)
    (fun s e s' hfirst hI hstep => hI.step hfirst (step_moves hstep)) (fun s e _ hI => ?_) h
    (.opened h₀)
  cases e with
  | page q =>
      intro f users hf hphase _
      rw [hI.query f (List.mem_of_getElem? hf) fun ha => absurd (hphase.symm.trans ha) (by simp)]
      rfl
  | _ => trivial

/-! ### The main result -/

/-- **When overlapping fetches are harmless.**  Over a collection that does not change and holds no
uid twice, no user is shown twice and the cursor never moves back exactly when every page that is
not empty comes while the cursor is still the one its query was issued with.  This is so when every
query is issued after the earlier ones have been answered, in particular when every tap is made
while no HUD is on the screen. -/
theorem overlap_nothing_twice_iff {s₀ s : System} {es : List Event} {pages : List Page}
    (h₀ : s₀.Opened) (hdistinct : (fieldValues "uid" s₀.users).Nodup)
    (hfixed : ∀ e ∈ es, e.writesTo = none)
    (hrun : run (withHistory step note) (s₀, []) es = some (s, pages)) :
    s.home.cards = (fetchedUsers pages).map CardViewModel.init ∧
    (NothingTwice s pages ↔ StepsMeet step NotMoved s₀ es) ∧
    (StepsMeet step AnsweredFirst s₀ es → NothingTwice s pages) ∧
    (StepsMeet step Uncovered s₀ es → NothingTwice s pages) := by
  have hscreen := screen_run h₀ hrun
  have hD : StepsMeet step (fun _ e => e.writesTo = none) s₀ es :=
    (stepsMeet_events_iff (run_withHistory.2 ⟨pages, hrun⟩)).2 hfixed
  have hinv := tracked_run_withHistory_of_meet (C := NotMoved) (b := True)
    (I := fun b s pages => ScreenOf s.home (fetchedUsers pages) ∧
      OverlapInv s₀.users b s pages) ?_ hD ⟨.opened h₀, .opened h₀⟩ hrun
  · rw [true_and] at hinv
    have hiff : NothingTwice s pages ↔ StepsMeet step NotMoved s₀ es := by
      constructor
      · intro hnothing
        by_contra hno
        exact hinv.2.unmet hno hnothing.cards
      · intro hmet
        obtain ⟨uids, hlisted⟩ := hinv.2.met hmet
        have hnodup : ((fetchedUsers pages).map User.uid).Nodup := by
          rw [hlisted.fetched]
          exact hlisted.swept.sortedLT.nodup.map (Option.some_injective _)
        exact ⟨hnodup, hscreen.deck_nodup hnodup, hlisted.monotone⟩
    exact ⟨hscreen.cards, hiff, fun h => hiff.2 (notMoved_of_answeredFirst h₀ h),
      fun h => hiff.2 (notMoved_of_answeredFirst h₀ (answeredFirst_of_uncovered h₀ h))⟩
  · rintro b s pages e s' hfixed ⟨hscreen, hI⟩ hstep
    have hmove := step_moves hstep
    exact ⟨hscreen.step hmove, hI.step hscreen hdistinct hfixed hmove⟩

/-- Four registered users. -/
def fourUsers : Collection :=
  setData "a" (saveInfoDictionary (some "Ann") "a" "url")
    (setData "b" (saveInfoDictionary (some "Bob") "b" "url")
      (setData "c" (saveInfoDictionary (some "Cid") "c" "url")
        (setData "d" (saveInfoDictionary (some "Dan") "d" "url") ∅)))

/-- Two pages, each asked for when the HUD of the one before has gone. -/
def browsing : List Event :=
  [.viewDidLoad, .evaluate 0, .page 0, .hudDismissed 0, .refreshHandle, .evaluate 1, .page 1]

theorem overlap_nothing_twice_iff_browsing :
    ∃ s pages, run (withHistory step note) (opened fourUsers, []) browsing = some (s, pages) ∧
      NothingTwice s pages := by
  have huncovered : StepsMeet step Uncovered (opened fourUsers) browsing := by decide
  have hrun : run (withHistory step note) (opened fourUsers, []) browsing = some (_, _) := rfl
  have h := overlap_nothing_twice_iff ⟨rfl, rfl⟩ (by decide) (by decide) hrun
  exact ⟨_, _, hrun, h.2.2.2 huncovered⟩

/-- The reload button is tapped before the first page has come, and the reply to that tap comes
after the second page. -/
def impatience : List Event :=
  [.viewDidLoad, .refreshHandle, .evaluate 0, .evaluate 1, .page 0, .refreshHandle, .evaluate 2,
    .page 2, .refreshHandle, .page 1, .refreshHandle]

/-- **Overlapping fetches can do harm**: a user is in the cards and in the deck twice, and the
cursor moves back from one query to the next. -/
theorem overlap_repeats :
    ∃ s pages, run (withHistory step note) (opened fourUsers, []) impatience = some (s, pages) ∧
      (fieldValues "uid" fourUsers).Nodup ∧ "" ∉ fieldValues "uid" fourUsers ∧
      ((fetchedUsers pages).map User.uid).count (some "a") = 2 ∧
      (s.home.cardDesckView.map fun card =>
        (fetchedUsers pages)[card.id]?.bind User.uid).count (some "a") = 2 ∧
      (s.fetches.map fun f => f.query.startAfter) = ["", "", "b", "d", "b"] ∧
      ¬ NothingTwice s pages := by
  refine ⟨_, _, rfl, by decide, by decide, by decide, by decide, by decide, fun h => ?_⟩
  exact absurd h.cursor (by decide)

end Home
