/-
**The view of a query.**

For each query that is listened to, the Firestore client keeps a view: the first documents of the
query among those of its local cache.  When documents of the cache change, the client works out from
the changed documents alone what becomes of the view; only when a document has left a full view, or
has moved behind its last document, does it go through all matching documents of the cache again.

Main definitions:

* `FirestoreClient.Query` — which documents a query matches, how it orders them, how many it wants;
* `FirestoreClient.View.computeDocumentChanges` — what the changed documents make of the view;
* `FirestoreClient.outcome` — what becomes of one document of the view.

Main results:

* `FirestoreClient.computeDocumentChange_run` — the loop changes each document as `outcome` says,
  and its change set explains the result;
* `FirestoreClient.truncate_cut` — the documents beyond the limit are removed;
* `FirestoreClient.View.computeDocumentChanges_spec` — **the computed documents are the first ones
  of those results, explained by the computed changes**.
-/

import Mathlib.Data.Finset.Basic
import TinderFirestore.RankedSet
import TinderFirestore.ViewChangeSet

set_option relaxedAutoImplicit false
set_option autoImplicit false

namespace FirestoreClient

open Ranked

variable {κ δ : Type*} [Setoid δ]

/-! ### Queries -/

/-- A query: the documents it matches, the order of its results and how many there may be. -/
structure Query (κ δ : Type*) [Setoid δ] where
  /-- The document is in the collection of the query. -/
  isParentOf : κ → Bool
  accepts : κ → δ → Bool
  limit : Option ℕ
  /-- The order of the results, by what they hold and then by their keys. -/
  le : κ × δ → κ × δ → Bool
  le_total : ∀ a b, le a b = true ∨ le b a = true
  le_trans : ∀ a b c, le a b = true → le b c = true → le a c = true
  key_eq : ∀ a b, le a b = true → le b a = true → a.1 = b.1
  /-- What is the same when compared comes at the same place. -/
  le_congr : ∀ (a b : κ × δ) (d e : δ), a.2 ≈ d → b.2 ≈ e → le a b = le (a.1, d) (b.1, e)

/-- `Query::Matches`. -/
def Query.Matches (q : Query κ δ) (d : Document κ δ) : Bool :=
  q.isParentOf d.key && q.accepts d.key d.data

/-- `Query::Comparator`. -/
def Query.comparator (q : Query κ δ) : Ranking (Document κ δ) κ δ where
  key := Document.key
  value := Document.data
  le := q.le
  le_total := q.le_total
  le_trans := q.le_trans
  key_eq := q.key_eq

/-- The documents of a view, in the order of the query. -/
abbrev DocumentSet (q : Query κ δ) := RankedSet q.comparator

/-- Documents by their keys. -/
abbrev MaybeDocumentMap (κ δ : Type*) := AList fun _ : κ => MaybeDocument κ δ

/-- Each document is under its own key. -/
def WellKeyed [DecidableEq κ] (docs : MaybeDocumentMap κ δ) : Prop :=
  ∀ k doc, docs.lookup k = some doc → doc.key = k

/-! ### Views -/

inductive SyncState
  | none
  | local
  | synced
  deriving DecidableEq

/-- What the changed documents make of a view. -/
structure ViewDocumentChanges (q : Query κ δ) where
  documentSet : DocumentSet q
  changeSet : DocumentViewChangeSet κ δ
  mutatedKeys : Finset κ
  needsRefill : Bool

/-- The view of a query. -/
structure View (q : Query κ δ) where
  documentSet : DocumentSet q
  /-- The documents that the backend counts among the results. -/
  syncedDocuments : Finset κ
  /-- The documents of the view that the backend should count but does not, in order. -/
  limboDocuments : List κ
  mutatedKeys : Finset κ
  syncState : SyncState
  /-- The backend has sent everything it has. -/
  current : Bool

/-- `View(query, remote_documents)`. -/
def View.init (q : Query κ δ) (remoteDocuments : Finset κ) : View q where
  documentSet := RankedSet.empty
  syncedDocuments := remoteDocuments
  limboDocuments := []
  mutatedKeys := ∅
  syncState := .none
  current := false

/-- An acknowledged write has changed the document again, and the backend is about to send what it
has become. -/
def shouldWaitForSyncedDocument (newDoc oldDoc : Document κ δ) : Bool :=
  oldDoc.hasLocalMutations && newDoc.hasCommittedMutations && !newDoc.hasLocalMutations

section Compute

variable [DecidableEq κ] {q : Query κ δ}

/-! ### Replacing and removing a document -/

/-- The document takes the place of the one with its key; without one, that one is removed. -/
def replaceDocument (documentSet : DocumentSet q) (key : κ) : Option (Document κ δ) → DocumentSet q
  | some newDoc => documentSet.insert newDoc
  | none => documentSet.erase key

/-- What this makes of the keys of the documents with local mutations. -/
def replaceMutated (mutatedKeys : Finset κ) (key : κ) : Option (Document κ δ) → Finset κ
  | some newDoc =>
      if newDoc.hasLocalMutations then insert key mutatedKeys else mutatedKeys.erase key
  | none => mutatedKeys.erase key

theorem lookup_replaceDocument (documentSet : DocumentSet q) {key : κ}
    {newDoc : Option (Document κ δ)} (hkey : ∀ d, newDoc = some d → d.key = key) (k : κ) :
    (replaceDocument documentSet key newDoc).lookup k =
      if k = key then newDoc else documentSet.lookup k := by
  cases newDoc with
  | none => exact RankedSet.lookup_erase documentSet key k
  | some d =>
      obtain rfl := hkey d rfl
      exact RankedSet.lookup_insert documentSet d k

omit [Setoid δ] in
theorem mem_replaceMutated {mutatedKeys : Finset κ} {key : κ} {newDoc : Option (Document κ δ)}
    {k : κ} : k ∈ replaceMutated mutatedKeys key newDoc ↔
      if k = key then ∃ d, newDoc = some d ∧ d.hasLocalMutations = true else k ∈ mutatedKeys := by
  cases newDoc with
  | none =>
      rw [replaceMutated, Finset.mem_erase]
      split
      · next h => simp [h]
      · next h => exact and_iff_right h
  | some d =>
      rw [replaceMutated]
      by_cases hlocal : d.hasLocalMutations = true
      · rw [if_pos hlocal, Finset.mem_insert]
        split
        · next h => simp [h, hlocal]
        · next h => exact or_iff_right h
      · rw [if_neg hlocal, Finset.mem_erase]
        split
        · next h => simp [h, hlocal]
        · next h => exact and_iff_right h

/-- The mutated keys of a view are those of its documents with local mutations. -/
def Mutated (documentSet : DocumentSet q) (mutatedKeys : Finset κ) : Prop :=
  ∀ k, k ∈ mutatedKeys ↔ ∃ d, documentSet.lookup k = some d ∧ d.hasLocalMutations = true

/-- What every change of a document keeps: the changes since `start` are explained, and the mutated
keys are right. -/
structure ChangesInv (start : κ → Option (Document κ δ)) (changes : ViewDocumentChanges q) :
    Prop where
  explained : Explained start changes.documentSet.lookup changes.changeSet
  mutated : Mutated changes.documentSet changes.mutatedKeys

variable {start : κ → Option (Document κ δ)} {oldMutatedKeys : Finset κ}

/-- **A fitting change of one document** can be added to the change set. -/
theorem ChangesInv.replace {changes : ViewDocumentChanges q} (h : ChangesInv start changes)
    {key : κ} {newDoc : Option (Document κ δ)} {change : DocumentViewChange κ δ}
    (hfits : Fits (changes.documentSet.lookup key) newDoc change)
    (hnew : ∀ d, newDoc = some d → d.key = key) :
    ∃ changeSet, changes.changeSet.addChange change = some changeSet ∧ ∀ needsRefill,
      ChangesInv (q := q) start
        { documentSet := replaceDocument changes.documentSet key newDoc
          changeSet := changeSet
          mutatedKeys := replaceMutated changes.mutatedKeys key newDoc
          needsRefill := needsRefill } := by
  have hlookup := lookup_replaceDocument changes.documentSet hnew
  have hkey : change.document.key = key :=
    hfits.key (fun d hd => RankedSet.key_of_lookup hd) hnew
  obtain ⟨changeSet, hadd, hexplained⟩ := h.explained.addChange change
    (replaceDocument changes.documentSet key newDoc).lookup
    (by rw [hkey, hlookup, if_pos rfl]; exact hfits)
    (fun k hk => by rw [hlookup, if_neg (hkey ▸ hk)])
  refine ⟨changeSet, hadd, fun _ => ⟨hexplained, fun k => ?_⟩⟩
  rw [mem_replaceMutated, hlookup]
  split
  · exact Iff.rfl
  · exact h.mutated k

/-! ### The limit -/

/-- The last document of a full view. -/
def lastDocInLimit (documentSet : DocumentSet q) : Option (Document κ δ) :=
  if q.limit = some documentSet.items.length then documentSet.items.getLast? else none

/-- How many documents are beyond the limit. -/
def excess (documentSet : DocumentSet q) : ℕ :=
  match q.limit with
  | none => 0
  | some limit => documentSet.items.length - limit

/-- Removes the last document so many times. -/
def truncate : ℕ → ViewDocumentChanges q → Option (ViewDocumentChanges q)
  | 0, changes => some changes
  | i + 1, changes =>
      match changes.documentSet.items.getLast? with
      | none => none
      | some oldDoc =>
          (changes.changeSet.addChange { document := oldDoc, type := .removed }).bind
            fun changeSet => truncate i
              { changes with
                documentSet := replaceDocument changes.documentSet oldDoc.key none
                changeSet := changeSet
                mutatedKeys := replaceMutated changes.mutatedKeys oldDoc.key
                  (none : Option (Document κ δ)) }

/-- Removing the last document so many times leaves the first ones. -/
theorem truncate_take {n : ℕ} {changes : ViewDocumentChanges q} (h : ChangesInv start changes)
    (hn : n ≤ changes.documentSet.items.length) :
    ∃ changes', truncate n changes = some changes' ∧ ChangesInv start changes' ∧
      changes'.documentSet = changes.documentSet.take (changes.documentSet.items.length - n) ∧
      changes'.needsRefill = changes.needsRefill := by
  induction n generalizing changes with
  | zero =>
      refine ⟨changes, rfl, h, RankedSet.ext ?_, rfl⟩
      exact (List.take_of_length_le (Nat.le_of_eq (Nat.sub_zero _).symm)).symm
  | succ n ih =>
      have hne : changes.documentSet.items ≠ [] := by
        intro hnil
        rw [hnil] at hn
        exact absurd hn (by simp)
      obtain ⟨oldDoc, hlast⟩ : ∃ x, changes.documentSet.items.getLast? = some x :=
        ⟨_, List.getLast?_eq_getLast_of_ne_nil hne⟩
      have hmem : oldDoc ∈ changes.documentSet.items := List.mem_of_getLast? hlast
      have hfits : Fits (changes.documentSet.lookup oldDoc.key) none
          { document := oldDoc, type := .removed } := by
        rw [show changes.documentSet.lookup oldDoc.key = some oldDoc from
          RankedSet.lookup_key (R := q.comparator) hmem]
        exact .removed oldDoc
      obtain ⟨changeSet, hadd, hinv⟩ := h.replace hfits (by simp)
      have herase : replaceDocument changes.documentSet oldDoc.key none =
          changes.documentSet.take (changes.documentSet.items.length - 1) :=
        RankedSet.erase_getLast (R := q.comparator) hlast
      have hlength : (replaceDocument changes.documentSet oldDoc.key none).items.length =
          changes.documentSet.items.length - 1 := by
        rw [herase]
        simp [RankedSet.take]
      obtain ⟨changes', htruncate, hinv', hset, hrefill⟩ := ih (hinv changes.needsRefill)
        (by rw [hlength]; omega)
      refine ⟨changes', ?_, hinv', ?_, hrefill⟩
      · rw [truncate, hlast]
        simp only [hadd, Option.bind_some]
        exact htruncate
      · rw [hset]
        simp only
        rw [hlength, herase, RankedSet.take_take]
        congr 1
        omega

/-- **The documents beyond the limit are removed**, and each removal can be added to the change
set. -/
theorem truncate_cut {changes : ViewDocumentChanges q} (h : ChangesInv start changes) :
    ∃ changes', truncate (excess changes.documentSet) changes = some changes' ∧
      ChangesInv start changes' ∧ changes'.documentSet = changes.documentSet.cut q.limit ∧
      changes'.needsRefill = changes.needsRefill := by
  have hle : excess changes.documentSet ≤ changes.documentSet.items.length := by
    unfold excess
    split
    · exact Nat.zero_le _
    · exact Nat.sub_le _ _
  obtain ⟨changes', htruncate, hinv, hset, hrefill⟩ := truncate_take h hle
  refine ⟨changes', htruncate, hinv, ?_, hrefill⟩
  rw [hset, excess]
  cases q.limit with
  | none => exact RankedSet.ext (List.take_of_length_le (Nat.le_of_eq (Nat.sub_zero _).symm))
  | some limit =>
      refine RankedSet.ext ?_
      simp only [RankedSet.take, RankedSet.cut]
      rcases Nat.le_total changes.documentSet.items.length limit with hle | hle
      · rw [Nat.sub_eq_zero_of_le hle, Nat.sub_zero, List.take_length, List.take_of_length_le hle]
      · rw [Nat.sub_sub_self hle]

variable [DecidableRel ((· ≈ ·) : δ → δ → Prop)]

/-! ### One changed document -/

/-- The change of one document of the view, if there is one. -/
def calculateChange (oldMutatedKeys : Finset κ) (key : κ) (oldDoc newDoc : Option (Document κ δ)) :
    Option (DocumentViewChange κ δ) :=
  let oldDocHadPendingMutations := oldDoc.isSome && decide (key ∈ oldMutatedKeys)
  -- committed mutations count only for documents that were mutated while the view was there
  let newDocHasPendingMutations := newDoc.any fun d =>
    d.hasLocalMutations || (decide (key ∈ oldMutatedKeys) && d.hasCommittedMutations)
  match oldDoc, newDoc with
  | some oldDoc, some newDoc =>
      if ¬ oldDoc.data ≈ newDoc.data then
        if shouldWaitForSyncedDocument newDoc oldDoc then none
        else some { document := newDoc, type := .modified }
      else if oldDocHadPendingMutations ≠ newDocHasPendingMutations then
        some { document := newDoc, type := .metadata }
      else none
  | none, some newDoc => some { document := newDoc, type := .added }
  | some oldDoc, none => some { document := oldDoc, type := .removed }
  | none, none => none

/-- The change may let a document in that was behind the last one of a full view. -/
def leavesLimit (q : Query κ δ) (lastDocInLimit : Option (Document κ δ))
    (change : DocumentViewChange κ δ) : Bool :=
  match change.type with
  | .modified => lastDocInLimit.any fun last =>
      !q.le (change.document.key, change.document.data) (last.key, last.data)
  | .removed => lastDocInLimit.isSome
  | .added => false
  | .metadata => false

/-- The body of the loop over the changed documents. -/
def computeDocumentChange (oldDocumentSet : DocumentSet q) (oldMutatedKeys : Finset κ)
    (lastDocInLimit : Option (Document κ δ)) (changes : ViewDocumentChanges q)
    (kv : Σ _ : κ, MaybeDocument κ δ) : Option (ViewDocumentChanges q) :=
  -- the documents of the map have to be under their own keys
  if kv.2.document?.any fun d => decide (d.key ≠ kv.1) then none
  else
    let oldDoc := oldDocumentSet.lookup kv.1
    let newDoc := kv.2.document?.filter q.Matches
    match calculateChange oldMutatedKeys kv.1 oldDoc newDoc with
    | none => some changes
    | some change =>
        (changes.changeSet.addChange change).map fun changeSet =>
          { documentSet := replaceDocument changes.documentSet kv.1 newDoc
            changeSet := changeSet
            mutatedKeys := replaceMutated changes.mutatedKeys kv.1 newDoc
            needsRefill := changes.needsRefill || leavesLimit q lastDocInLimit change }

/-! ### All changed documents -/

/-- What `ComputeDocumentChanges` starts from: the view itself, or what the first look at the
changed documents has made of it. -/
def View.startChanges (view : View q) :
    Option (ViewDocumentChanges q) → ViewDocumentChanges q
  | none =>
      { documentSet := view.documentSet
        changeSet := ∅
        mutatedKeys := view.mutatedKeys
        needsRefill := false }
  | some previousChanges => { previousChanges with needsRefill := false }

/-- `ComputeDocumentChanges`. -/
def View.computeDocumentChanges (view : View q) (docChanges : MaybeDocumentMap κ δ)
    (previousChanges : Option (ViewDocumentChanges q)) : Option (ViewDocumentChanges q) :=
  let start := view.startChanges previousChanges
  (docChanges.entries.foldlM
      (computeDocumentChange start.documentSet view.mutatedKeys
        (lastDocInLimit start.documentSet)) start).bind fun changes =>
    (truncate (excess changes.documentSet) changes).bind fun changes =>
      -- what a second look brings must not need a third one
      if changes.needsRefill && previousChanges.isSome then none else some changes

/-! ### What becomes of one document -/

/-- What a changed document of the cache makes of a document of the view. -/
def outcome (oldMutatedKeys : Finset κ) (key : κ) (oldDoc newDoc : Option (Document κ δ)) :
    Option (Document κ δ) :=
  match calculateChange oldMutatedKeys key oldDoc newDoc with
  | none => oldDoc
  | some _ => newDoc

/-- The change says what becomes of the document. -/
theorem calculateChange_fits {oldMutatedKeys : Finset κ} {key : κ}
    {oldDoc newDoc : Option (Document κ δ)} {change : DocumentViewChange κ δ}
    (h : calculateChange oldMutatedKeys key oldDoc newDoc = some change) :
    Fits oldDoc newDoc change := by
  unfold calculateChange at h
  cases oldDoc with
  | none =>
      cases newDoc with
      | none => exact absurd h (by simp)
      | some newDoc =>
          obtain rfl := Option.some.inj h
          exact .added newDoc
  | some oldDoc =>
      cases newDoc with
      | none =>
          obtain rfl := Option.some.inj h
          exact .removed oldDoc
      | some newDoc =>
          simp only at h
          split_ifs at h with hdata hpending hwait
          · obtain rfl := Option.some.inj h
            exact .metadata oldDoc newDoc (Setoid.symm hdata)
          · obtain rfl := Option.some.inj h
            exact .modified oldDoc newDoc

/-- **What becomes of a document** is what the cache has, but that the old one stays when it has
the same data and the cache has no local changes that it had not, or when the backend is about to
send another one. -/
theorem outcome_eq (oldMutatedKeys : Finset κ) (key : κ) (oldDoc newDoc : Option (Document κ δ)) :
    outcome oldMutatedKeys key oldDoc newDoc = newDoc ∨ ∃ d d', oldDoc = some d ∧
      newDoc = some d' ∧ outcome oldMutatedKeys key oldDoc newDoc = some d ∧
      ((d.data ≈ d'.data ∧ (d'.hasLocalMutations = true → key ∈ oldMutatedKeys)) ∨
        shouldWaitForSyncedDocument d' d = true) := by
  cases oldDoc with
  | none =>
      cases newDoc with
      | none => exact Or.inl rfl
      | some newDoc => exact Or.inl rfl
  | some oldDoc =>
      cases newDoc with
      | none => exact Or.inl rfl
      | some newDoc =>
          unfold outcome calculateChange
          by_cases hdata : oldDoc.data ≈ newDoc.data
          · simp only [hdata, not_true_eq_false, if_false]
            split
            · next hnone =>
                refine Or.inr ⟨oldDoc, newDoc, rfl, rfl, rfl, Or.inl ⟨hdata, fun hlocal => ?_⟩⟩
                by_contra hkey
                simp [hkey, hlocal] at hnone
            · exact Or.inl rfl
          · by_cases hwait : shouldWaitForSyncedDocument newDoc oldDoc = true
            · exact Or.inr ⟨oldDoc, newDoc, rfl, rfl, by simp [hdata, hwait], Or.inr hwait⟩
            · exact Or.inl (by simp [hdata, hwait])

/-- **One round of the loop** changes one document, to what `outcome` says, and the change can be
added. -/
theorem computeDocumentChange_spec (oldMutatedKeys : Finset κ) {oldDocumentSet : DocumentSet q}
    (lastDocInLimit : Option (Document κ δ)) {changes : ViewDocumentChanges q}
    (h : ChangesInv start changes) {kv : Σ _ : κ, MaybeDocument κ δ} (hkey : kv.2.key = kv.1)
    (hold : changes.documentSet.lookup kv.1 = oldDocumentSet.lookup kv.1) :
    ∃ changes', computeDocumentChange oldDocumentSet oldMutatedKeys lastDocInLimit changes kv =
        some changes' ∧ ChangesInv start changes' ∧
      (∀ k, changes'.documentSet.lookup k = if k = kv.1 then outcome oldMutatedKeys kv.1
        (oldDocumentSet.lookup kv.1) (kv.2.document?.filter q.Matches)
        else changes.documentSet.lookup k) ∧
      (changes'.needsRefill = false ↔ changes.needsRefill = false ∧
        ∀ change, calculateChange oldMutatedKeys kv.1 (oldDocumentSet.lookup kv.1)
          (kv.2.document?.filter q.Matches) = some change →
            leavesLimit q lastDocInLimit change = false) := by
  have hdoc (d : Document κ δ) (hd : kv.2.document? = some d) : d.key = kv.1 := by
    rw [← hkey]
    cases hm : kv.2 <;> rw [hm] at hd <;> cases hd
    rfl
  have hnew (d : Document κ δ) (hd : kv.2.document?.filter q.Matches = some d) : d.key = kv.1 :=
    hdoc d (Option.filter_eq_some_iff.1 hd).1
  have hno : ¬ (kv.2.document?.any fun d => decide (d.key ≠ kv.1)) = true := by
    cases hd : kv.2.document? with
    | none => exact Bool.false_ne_true
    | some d => simp [hdoc d hd]
  rw [computeDocumentChange, if_neg hno]
  cases hchange : calculateChange oldMutatedKeys kv.1 (oldDocumentSet.lookup kv.1)
      (kv.2.document?.filter q.Matches) with
  | none =>
      refine ⟨changes, by simp only [hchange], h, fun k => ?_, by simp⟩
      split
      · next hk => rw [hk, hold, outcome, hchange]
      · rfl
  | some change =>
      obtain ⟨changeSet, hadd, hinv⟩ :=
        h.replace (hold ▸ calculateChange_fits hchange) hnew
      refine ⟨_, by simp only [hchange, hadd, Option.map_some]; rfl, hinv _, fun k => ?_, ?_⟩
      · rw [lookup_replaceDocument _ hnew, outcome, hchange]
      · simp [Bool.or_eq_false_iff]

/-- **The loop changes each document as `outcome` says**, and its change set explains the result.
The induction is on the changed documents; those that are still to come are as they were. -/
theorem computeDocumentChange_run (oldMutatedKeys : Finset κ) {oldDocumentSet : DocumentSet q}
    (lastDocInLimit : Option (Document κ δ)) {entries : List (Σ _ : κ, MaybeDocument κ δ)}
    (hnodup : entries.NodupKeys) (hkeys : ∀ kv ∈ entries, kv.2.key = kv.1)
    {changes : ViewDocumentChanges q} (h : ChangesInv start changes)
    (hold : ∀ k ∈ entries.keys, changes.documentSet.lookup k = oldDocumentSet.lookup k) :
    ∃ changes', entries.foldlM
        (computeDocumentChange oldDocumentSet oldMutatedKeys lastDocInLimit) changes =
          some changes' ∧ ChangesInv start changes' ∧
      (∀ k, changes'.documentSet.lookup k = match entries.dlookup k with
        | none => changes.documentSet.lookup k
        | some doc => outcome oldMutatedKeys k (oldDocumentSet.lookup k)
            (doc.document?.filter q.Matches)) ∧
      (changes'.needsRefill = false ↔ changes.needsRefill = false ∧
        ∀ kv ∈ entries, ∀ change, calculateChange oldMutatedKeys kv.1 (oldDocumentSet.lookup kv.1)
          (kv.2.document?.filter q.Matches) = some change →
            leavesLimit q lastDocInLimit change = false) := by
  induction entries generalizing changes with
  | nil => exact ⟨changes, rfl, h, fun k => rfl, by simp⟩
  | cons kv entries ih =>
      rw [List.nodupKeys_cons] at hnodup
      obtain ⟨changes₁, hround, hinv₁, hlookup₁, hrefill₁⟩ := computeDocumentChange_spec
        oldMutatedKeys lastDocInLimit h
        (hkeys kv List.mem_cons_self) (hold kv.1 (by simp))
      have hold₁ (k : κ) (hk : k ∈ entries.keys) :
          changes₁.documentSet.lookup k = oldDocumentSet.lookup k := by
        have hne : k ≠ kv.1 := fun heq => hnodup.1 (heq ▸ hk)
        rw [hlookup₁, if_neg hne]
        exact hold k (by simp [hk])
      obtain ⟨changes', hrun, hinv, hlookup, hrefill⟩ :=
        ih hnodup.2 (fun kv' hkv' => hkeys kv' (List.mem_cons_of_mem _ hkv')) hinv₁ hold₁
      refine ⟨changes', ?_, hinv, fun k => ?_, ?_⟩
      · rw [List.foldlM_cons, hround]
        exact hrun
      · rw [hlookup, hlookup₁]
        by_cases hk : k = kv.1
        · subst hk
          rw [List.dlookup_eq_none.2 hnodup.1, if_pos rfl]
          obtain ⟨k, doc⟩ := kv
          rw [List.dlookup_cons_eq]
        · rw [List.dlookup_cons_ne _ _ hk, if_neg hk]
      · rw [hrefill, hrefill₁, and_assoc, List.forall_mem_cons]

/-! ### All changed documents -/

/-- What the changed documents make of the document under a key. -/
def outcomeOf (q : Query κ δ) (oldMutatedKeys : Finset κ) (docChanges : MaybeDocumentMap κ δ)
    (k : κ) (oldDoc : Option (Document κ δ)) : Option (Document κ δ) :=
  match docChanges.lookup k with
  | none => oldDoc
  | some doc => outcome oldMutatedKeys k oldDoc (doc.document?.filter q.Matches)

/-- No changed document lets one in that was behind the limit. -/
def NoneLeaves (documentSet : DocumentSet q) (oldMutatedKeys : Finset κ)
    (docChanges : MaybeDocumentMap κ δ) : Prop :=
  ∀ k doc, docChanges.lookup k = some doc → ∀ change,
    calculateChange oldMutatedKeys k (documentSet.lookup k) (doc.document?.filter q.Matches) =
      some change → leavesLimit q (lastDocInLimit documentSet) change = false

/-- **The computed documents are the first ones of what becomes of each document**, and the computed
changes explain them.  It takes a second look exactly if some document may have been let in, and
then the second one has to be the last. -/
theorem View.computeDocumentChanges_spec {view : View q} (start : κ → Option (Document κ δ))
    {docChanges : MaybeDocumentMap κ δ} (previousChanges : Option (ViewDocumentChanges q))
    (hkeyed : WellKeyed docChanges) (h : ChangesInv start (view.startChanges previousChanges))
    (hlast : previousChanges.isSome = true →
      NoneLeaves (view.startChanges previousChanges).documentSet view.mutatedKeys docChanges) :
    ∃ changes, view.computeDocumentChanges docChanges previousChanges = some changes ∧
      ChangesInv start changes ∧
      (∃ documentSet : DocumentSet q, changes.documentSet = documentSet.cut q.limit ∧
        ∀ k, documentSet.lookup k = outcomeOf q view.mutatedKeys docChanges k
          ((view.startChanges previousChanges).documentSet.lookup k)) ∧
      (changes.needsRefill = false ↔
        NoneLeaves (view.startChanges previousChanges).documentSet view.mutatedKeys docChanges) := by
  have hrun := computeDocumentChange_run view.mutatedKeys
    (lastDocInLimit (view.startChanges previousChanges).documentSet)
    docChanges.nodupKeys
    (fun kv hkv => hkeyed kv.1 kv.2 (AList.mem_lookup_iff.2 hkv)) h (fun k _ => rfl)
  obtain ⟨changes₁, hloop, hinv₁, hlookup, hrefill₁⟩ := hrun
  obtain ⟨changes, htruncate, hinv, hset, hrefill⟩ := truncate_cut hinv₁
  have hnone : changes.needsRefill = false ↔
      NoneLeaves (view.startChanges previousChanges).documentSet view.mutatedKeys docChanges := by
    rw [hrefill, hrefill₁]
    constructor
    · rintro ⟨-, hall⟩ k doc hdoc
      exact hall ⟨k, doc⟩ (AList.mem_lookup_iff.1 hdoc)
    · intro hall
      refine ⟨?_, fun kv hkv => hall kv.1 kv.2 (AList.mem_lookup_iff.2 hkv)⟩
      cases previousChanges <;> rfl
  refine ⟨changes, ?_, hinv, ⟨changes₁.documentSet, hset, hlookup⟩, hnone⟩
  rw [View.computeDocumentChanges, hloop]
  simp only [Option.bind_some, htruncate]
  rw [if_neg]
  rw [Bool.and_eq_true]
  rintro ⟨htrue, hsome⟩
  exact absurd (hnone.2 (hlast hsome)) (by simp [htrue])

end Compute

end FirestoreClient
