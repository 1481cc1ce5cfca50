/-
**Runs of the sync engine.**

Whatever order users listen, write and go on- and offline in, and the backend answers in, as long as
both keep to the rules: no assertion of the client fails, each listener can follow its view through
the changes it is told, and each view shows what one would get by evaluating the query afresh.

Main definitions:

* `FirestoreClient.Followed` with `step` — the engine together with what its listeners have, if they
  apply the changes they are told.

Main results:

* `FirestoreClient.followed_run` — **the listeners have the documents of the views**;
* `FirestoreClient.views_run` — **the views show what the queries find in the local store**;
* `FirestoreClient.synced_run` — **a synced view has no documents that the backend does not count**;
* `FirestoreClient.targets_run` — **the remote store listens to the right targets**;
* `FirestoreClient.lookups_run` — **documents in limbo are looked up**;
* `FirestoreClient.executeQuery_run` — **queries find what the local store shows one by one**.
-/

import TinderFirestore.EventRun
import TinderFirestore.SyncEngine

set_option relaxedAutoImplicit false
set_option autoImplicit false

namespace FirestoreClient

open EventRun Ranked

variable {κ υ ι : Type*} [LinearOrder κ] [DecidableEq υ] [DecidableEq ι]
  {query : ι → Query κ ObjectValue}

/-! ### Runs of the engine -/

namespace SyncEngine

/-- The engine after an event. -/
def next (s : SyncEngine υ query) (event : SyncEvent κ υ ι) : Option (SyncEngine υ query) :=
  (s.step event).map Prod.fst

omit [DecidableEq υ] in
theorem inv_start (store : RestoredStore κ υ) : (start store : SyncEngine υ query).Inv := by
  refine ⟨store.inv, fun i view hview => absurd hview (by simp [start]),
    LimboTracking.inv_start.congr fun i => by simp [start], fun k i => ?_⟩
  simp [start, LimboTracking.start]

/-- **No assertion fails** as long as users and the backend keep to the rules. -/
theorem run_inv {store : RestoredStore κ υ} {events : List (SyncEvent κ υ ι)}
    (hkeeps : StepsMeet next Keeps (start store : SyncEngine υ query) events) :
    ∃ s : SyncEngine υ query, run next (start store) events = some s ∧ s.Inv := by
  refine run_of_meet (fun s event hkeeps h => ?_) hkeeps (inv_start store)
  obtain ⟨s', snapshots, hstep, hinv, -⟩ := step_spec h hkeeps
  exact ⟨s', by rw [next, hstep]; rfl, hinv⟩

section Decidable

/-- The lookup that is refused. -/
def refusedLookup : SyncEvent κ υ ι → Option ℕ
  | .processTargetError (.limbo n) => some n
  | _ => none

omit [LinearOrder κ] [DecidableEq υ] [DecidableEq ι] in
theorem refusedLookup_eq_some {event : SyncEvent κ υ ι} {n : ℕ} :
    refusedLookup event = some n ↔ event = .processTargetError (.limbo n) := by
  cases event with
  | processTargetError target => cases target <;> simp [refusedLookup]
  | _ => simp [refusedLookup]

omit [LinearOrder κ] [DecidableEq υ] in
theorem not_refusedEarly_iff {s : SyncEngine υ query} {event : SyncEvent κ υ ι} :
    (∀ n ∈ refusedLookup event, ∀ r ∈ s.tracking.limboResolutionsByTarget.lookup n,
      ∀ entry ∈ s.queryViewsByQuery.entries, ∀ key ∈ entry.2.limboDocuments,
        key = r.key → entry.2.current = true) ↔
      ∀ k, ¬ s.RefusedEarly event k := by
  constructor
  · rintro h k ⟨n, r, i, view, hevent, hr, rfl, hview, hcurrent, hk⟩
    have hsent := h n (refusedLookup_eq_some.2 hevent) r hr ⟨i, view⟩
      (AList.mem_lookup_iff.1 hview) r.key hk rfl
    exact Bool.false_ne_true (hcurrent.symm.trans hsent)
  · rintro h n hn r hr entry hentry key hkey rfl
    by_contra hcurrent
    exact h r.key ⟨n, r, entry.1, entry.2, refusedLookup_eq_some.1 hn, hr, rfl,
      AList.mem_lookup_iff.2 hentry, Bool.eq_false_iff.2 hcurrent, hkey⟩

instance decidableNotRefusedEarly (s : SyncEngine υ query) (event : SyncEvent κ υ ι) :
    Decidable (∀ k, ¬ s.RefusedEarly event k) :=
  decidable_of_iff _ not_refusedEarly_iff

end Decidable

end SyncEngine

/-! ### Listeners that follow the changes -/

/-- What a listener does with a change. -/
def applyDocumentChange (documents : κ → Option (Document κ ObjectValue))
    (change : DocumentViewChange κ ObjectValue) : κ → Option (Document κ ObjectValue) :=
  Function.update documents change.document.key
    (if change.type = .removed then none else some change.document)

/-- What a listener does with a snapshot. -/
def follow {q : Query κ ObjectValue} (documents : κ → Option (Document κ ObjectValue))
    (snapshot : ViewSnapshot q) : κ → Option (Document κ ObjectValue) :=
  snapshot.documentChanges.foldl applyDocumentChange documents

/-- What the listeners of the queries do with the snapshot of one of them. -/
def receive (documents : ι → κ → Option (Document κ ObjectValue))
    (snapshot : Σ i : ι, ViewSnapshot (query i)) : ι → κ → Option (Document κ ObjectValue) :=
  Function.update documents snapshot.1 (follow (documents snapshot.1) snapshot.2)

section Follow

omit [DecidableEq υ] [DecidableEq ι]

/-- After changes of several documents, each document is as its change says. -/
theorem foldl_applyDocumentChange {changes : List (DocumentViewChange κ ObjectValue)}
    (hnodup : (changes.map fun c => c.document.key).Nodup)
    (documents : κ → Option (Document κ ObjectValue)) (k : κ) :
    changes.foldl applyDocumentChange documents k =
      (changes.find? fun c => c.document.key = k).elim (documents k) fun c =>
        if c.type = .removed then none else some c.document := by
  induction changes generalizing documents with
  | nil => rfl
  | cons change changes ih =>
      rw [List.map_cons, List.nodup_cons] at hnodup
      rw [List.foldl_cons, ih hnodup.2, List.find?_cons]
      by_cases hkey : change.document.key = k
      · have hnone : (changes.find? fun c => c.document.key = k) = none := by
          refine List.find?_eq_none.2 fun c hc hck => hnodup.1 ?_
          rw [hkey, ← of_decide_eq_true hck]
          exact List.mem_map_of_mem hc
        rw [hnone, decide_eq_true hkey, ← hkey]
        exact Function.update_self _ _ _
      · rw [decide_eq_false hkey, applyDocumentChange, Function.update_of_ne (Ne.symm hkey)]

/-- **A listener that has the documents of the view before a snapshot has them after it.** -/
theorem follow_snapshotOf {q : Query κ ObjectValue} {old new : View q} {snapshot : ViewSnapshot q}
    (h : SnapshotOf old new (some snapshot)) :
    follow old.documentSet.lookup snapshot = new.documentSet.lookup := by
  cases h with
  | snapshot _ _ _ _ _ _ _ hnodup hexplains _ =>
      funext k
      rw [follow, foldl_applyDocumentChange hnodup]
      have hk := hexplains k
      generalize old.documentSet.lookup k = oldDoc at hk
      generalize new.documentSet.lookup k = newDoc at hk
      generalize (snapshot.documentChanges.find? fun c => c.document.key = k) = change at hk
      cases hk <;> rfl

end Follow

/-- After snapshots of several queries, the listeners of each query are as its snapshot says. -/
theorem foldl_receive {snapshots : Snapshots query} (hnodup : snapshots.NodupKeys)
    (documents : ι → κ → Option (Document κ ObjectValue)) (i : ι) :
    snapshots.foldl receive documents i =
      (snapshots.dlookup i).elim (documents i) (follow (documents i)) := by
  induction snapshots generalizing documents with
  | nil => rfl
  | cons snapshot snapshots ih =>
      rw [List.nodupKeys_cons] at hnodup
      rw [List.foldl_cons, ih hnodup.2]
      obtain ⟨j, snapshot⟩ := snapshot
      by_cases hij : i = j
      · subst hij
        rw [List.dlookup_eq_none.2 hnodup.1, List.dlookup_cons_eq]
        exact Function.update_self _ _ _
      · rw [List.dlookup_cons_ne snapshots ⟨j, snapshot⟩ hij, receive, Function.update_of_ne hij]

/-- The engine with what its listeners have, if they apply the changes they are told. -/
structure Followed (υ : Type*) (query : ι → Query κ ObjectValue) where
  engine : SyncEngine υ query
  documents : ι → κ → Option (Document κ ObjectValue)

namespace Followed

def start (store : RestoredStore κ υ) : Followed υ query where
  engine := .start store
  documents := fun _ _ => none

/-- The listeners of queries that are not listened to any more are gone. -/
def step (x : Followed υ query) (event : SyncEvent κ υ ι) : Option (Followed υ query) :=
  (x.engine.step event).map fun (engine, snapshots) =>
    { engine := engine
      documents := fun i =>
        if i ∈ engine.queryViewsByQuery then snapshots.foldl receive x.documents i
        else fun _ => none }

/-- The listeners have the documents of the views. -/
structure Inv (x : Followed υ query) : Prop where
  engine : x.engine.Inv
  documents : ∀ i, x.documents i = (x.engine.oldView i).documentSet.lookup

theorem step_inv {x : Followed υ query} (h : x.Inv) {event : SyncEvent κ υ ι}
    (hkeeps : x.engine.Keeps event) : ∃ x', x.step event = some x' ∧ x'.Inv := by
  obtain ⟨engine, snapshots, hstep, hinv, htold, -⟩ := SyncEngine.step_spec h.engine hkeeps
  refine ⟨_, by rw [step, hstep]; rfl, hinv, fun i => ?_⟩
  simp only
  split
  · next hi =>
      obtain ⟨view, hview⟩ := Option.isSome_iff_exists.1 (AList.lookup_isSome.2 hi)
      have hsnapshot := htold.told i view hview
      have hnew : engine.oldView i = view := by
        rw [SyncEngine.oldView, hview, Option.getD_some]
      rw [foldl_receive htold.nodup, h.documents, hnew]
      cases htell : snapshots.dlookup i with
      | none =>
          rw [htell] at hsnapshot
          cases hsnapshot with
          | nothing hsame _ => exact funext fun k => (hsame k).symm
      | some snapshot =>
          rw [htell] at hsnapshot
          exact follow_snapshotOf hsnapshot
  · next hi =>
      rw [SyncEngine.oldView, AList.lookup_eq_none.2 hi]
      rfl

end Followed

/-! ### Every order of events -/

/-- The first document of a collection. -/
def firstDocument : Query ℕ ObjectValue where
  isParentOf _ := true
  accepts _ _ := true
  limit := some 1
  le a b := decide (a.1 ≤ b.1)
  le_total a b := by simpa using Nat.le_total a.1 b.1
  le_trans a b c h h' := by simp at *; omega
  key_eq a b h h' := by simp at *; omega
  le_congr _ _ _ _ _ _ := rfl

/-- Two documents are written, and the first one is deleted behind the backend's back: it is in
limbo until its lookup is refused, and then the second one, whose deletion has been rejected, comes
into the view. -/
def deletedFirst : List (SyncEvent ℕ Unit Unit) :=
  [.listen () ∅, .writeMutations [.setData 1 .empty], .writeMutations [.setData 0 .empty],
    .writeMutations [.deleteDocument 1],
    .handleSuccessfulWrite { batchId := 1, mutationResults := [5] },
    .handleSuccessfulWrite { batchId := 2, mutationResults := [6] },
    .applyRemoteEvent
      { snapshotVersion := 7
        targetChanges := AList.singleton (.query ())
          { current := true, addedDocuments := {0, 1}, modifiedDocuments := ∅
            removedDocuments := ∅ }
        documentUpdates :=
          (AList.singleton 0 (.document ⟨0, .empty, 6, .synced⟩)).insert 1
            (.document ⟨1, .empty, 5, .synced⟩) },
    .applyRemoteEvent
      { snapshotVersion := 8
        targetChanges := AList.singleton (.query ())
          { current := true, addedDocuments := ∅, modifiedDocuments := ∅
            removedDocuments := {0} }
        documentUpdates := ∅ },
    .handleRejectedWrite 3, .processTargetError (.limbo 1)]

/-- **In every run that keeps to the rules**, no assertion fails, and the listeners of each query
that apply the changes they are told have the documents of its view. -/
theorem followed_run {store : RestoredStore κ υ} {events : List (SyncEvent κ υ ι)}
    (hkeeps : StepsMeet Followed.step (fun x => x.engine.Keeps)
      (Followed.start store : Followed υ query) events) :
    ∃ x : Followed υ query, run Followed.step (Followed.start store) events = some x ∧
      ∀ i view, x.engine.queryViewsByQuery.lookup i = some view →
        x.documents i = view.documentSet.lookup := by
  obtain ⟨x, hrun, hinv⟩ := run_of_meet
    (fun x event hkeeps (h : x.Inv) => Followed.step_inv h hkeeps) hkeeps
    ⟨SyncEngine.inv_start store, fun i => rfl⟩
  refine ⟨x, hrun, fun i view hview => ?_⟩
  rw [hinv.documents, SyncEngine.oldView, hview, Option.getD_some]

theorem followed_run_deletedFirst :
    StepsMeet Followed.step (fun x => x.engine.Keeps)
        (.start (.empty ()) : Followed Unit fun _ => firstDocument) deletedFirst ∧
      ∃ x : Followed Unit fun _ => firstDocument,
        run Followed.step (.start (.empty ())) deletedFirst = some x ∧
          ∀ i view, x.engine.queryViewsByQuery.lookup i = some view →
            x.documents i = view.documentSet.lookup :=
  ⟨by decide, followed_run (by decide)⟩

/-- Documents with a field `a`, before those without one. -/
def fieldFirst : Query ℕ ObjectValue where
  isParentOf _ := true
  accepts _ _ := true
  limit := some 1
  le x y := decide ((x.2.numbers.get ["a"]).isNone < (y.2.numbers.get ["a"]).isNone ∨
    (x.2.numbers.get ["a"]).isNone = (y.2.numbers.get ["a"]).isNone ∧ x.1 ≤ y.1)
  le_total x y := by grind
  le_trans x y z h h' := by grind
  key_eq x y h h' := by grind
  le_congr x y d e hd he := by rw [ObjectValue.same_iff.1 hd, ObjectValue.same_iff.1 he]

-- Without the rule for batches the view stops: it is told of document 0 with both fields, as two
-- passes of the batch leave it, and finds it with `b` alone when it has to look for a document.
example :
    run SyncEngine.next (.start (.empty ()) : SyncEngine Unit fun _ => fieldFirst)
      [.listen () ∅, .writeMutations [.setData 1 .empty],
        .writeMutations [.updateData 0 (.field "a" (.scalar .null) .empty) [["a"]],
          .mergeData 0 (.field "b" (.scalar .null) .empty) [["b"]], .deleteDocument 1]] = none := by
  decide

/-- **In every run that keeps to the rules**, what a view shows is what the query finds in the local
store, but where the backend is about to send another document; and where it is not, the view shows
what a new view of the query would show: the same documents in the same order, with data that
compare the same. -/
theorem views_run {store : RestoredStore κ υ} {events : List (SyncEvent κ υ ι)}
    (hkeeps : StepsMeet SyncEngine.next SyncEngine.Keeps
      (SyncEngine.start store : SyncEngine υ query) events) :
    ∃ s : SyncEngine υ query, run SyncEngine.next (.start store) events = some s ∧
      ∀ i view, s.queryViewsByQuery.lookup i = some view →
        DocumentsInv view.documentSet (s.localStore.cached (query i)) ∧
        ((∀ k, ¬ Awaited (s.localStore.cached (query i) k)) → ∀ remoteKeys, ∃ newView change,
          View.initializeView (query i) remoteKeys (s.localStore.executeQuery (query i)) =
            some (newView, change) ∧
          List.Forall₂ (fun d d' => d.key = d'.key ∧ d.data ≈ d'.data) view.documentSet.items
            newView.documentSet.items) := by
  obtain ⟨s, hrun, hinv⟩ := SyncEngine.run_inv hkeeps
  refine ⟨s, hrun, fun i view hview => ?_⟩
  have hdocuments := (hinv.views i view hview).documents
  refine ⟨hdocuments, fun hno remoteKeys => ?_⟩
  obtain ⟨newView, change, hnew, hnewInv, -⟩ := View.initializeView_spec remoteKeys
    (LocalStore.executeQuery_spec hinv.store (query i))
  exact ⟨newView, change, hnew, hdocuments.unique_of_not_awaited hnewInv.documents hno⟩

theorem views_run_deletedFirst :
    StepsMeet SyncEngine.next SyncEngine.Keeps
        (.start (.empty ()) : SyncEngine Unit fun _ => firstDocument) deletedFirst ∧
      ∃ s : SyncEngine Unit fun _ => firstDocument,
        run SyncEngine.next (.start (.empty ())) deletedFirst = some s ∧
          ∀ i view, s.queryViewsByQuery.lookup i = some view →
            DocumentsInv view.documentSet (s.localStore.cached firstDocument) ∧
            ((∀ k, ¬ Awaited (s.localStore.cached firstDocument k)) → ∀ remoteKeys,
              ∃ newView change,
                View.initializeView firstDocument remoteKeys
                  (s.localStore.executeQuery firstDocument) = some (newView, change) ∧
                List.Forall₂ (fun d d' => d.key = d'.key ∧ d.data ≈ d'.data)
                  view.documentSet.items newView.documentSet.items) :=
  ⟨by decide, views_run (by decide)⟩

/-- **In every run that keeps to the rules**, a view whose listeners are told that it is synced has
no documents but those that the backend counts among the results and those with local changes. -/
theorem synced_run {store : RestoredStore κ υ} {events : List (SyncEvent κ υ ι)}
    (hkeeps : StepsMeet SyncEngine.next SyncEngine.Keeps
      (SyncEngine.start store : SyncEngine υ query) events) :
    ∃ s : SyncEngine υ query, run SyncEngine.next (.start store) events = some s ∧
      ∀ i view, s.queryViewsByQuery.lookup i = some view → view.syncState = .synced →
        ∀ d ∈ view.documentSet.items, d.key ∈ view.syncedDocuments ∨
          d.hasLocalMutations = true := by
  obtain ⟨s, hrun, hinv⟩ := SyncEngine.run_inv hkeeps
  exact ⟨s, hrun, fun i view hview hsynced d hd =>
    (hinv.views i view hview).settled.synced hsynced hd⟩

theorem synced_run_deletedFirst :
    StepsMeet SyncEngine.next SyncEngine.Keeps
        (.start (.empty ()) : SyncEngine Unit fun _ => firstDocument) deletedFirst ∧
      ∃ s : SyncEngine Unit fun _ => firstDocument,
        run SyncEngine.next (.start (.empty ())) deletedFirst = some s ∧
          ∀ i view, s.queryViewsByQuery.lookup i = some view → view.syncState = .synced →
            ∀ d ∈ view.documentSet.items, d.key ∈ view.syncedDocuments ∨
              d.hasLocalMutations = true :=
  ⟨by decide, synced_run (by decide)⟩

/-- **In every run that keeps to the rules**, the remote store listens to the queries that have a
view and to the lookups; each lookup is of one document, no document has two, and each is of a
document that some view has in limbo. -/
theorem targets_run {store : RestoredStore κ υ} {events : List (SyncEvent κ υ ι)}
    (hkeeps : StepsMeet SyncEngine.next SyncEngine.Keeps
      (SyncEngine.start store : SyncEngine υ query) events) :
    ∃ s : SyncEngine υ query, run SyncEngine.next (.start store) events = some s ∧
      (∀ i, .query i ∈ s.tracking.listenTargets ↔ i ∈ s.queryViewsByQuery) ∧
      (∀ n, .limbo n ∈ s.tracking.listenTargets ↔
        ∃ key, s.tracking.limboTargetsByKey.lookup key = some n) ∧
      (∀ key key' n, s.tracking.limboTargetsByKey.lookup key = some n →
        s.tracking.limboTargetsByKey.lookup key' = some n → key = key') ∧
      ∀ key ∈ s.tracking.limboTargetsByKey, ∃ i view,
        s.queryViewsByQuery.lookup i = some view ∧ key ∈ view.limboDocuments := by
  obtain ⟨s, hrun, hinv⟩ := SyncEngine.run_inv hkeeps
  have htracking := hinv.limbo.tracking
  refine ⟨s, hrun, htracking.queries, fun n => ?_, fun key key' n hkey hkey' => ?_,
    fun key hkey => ?_⟩
  · rw [htracking.lookups, htracking.isSome_iff]
  · obtain ⟨r, hr, rfl⟩ := (htracking.target_iff key n).1 hkey
    obtain ⟨r', hr', rfl⟩ := (htracking.target_iff key' n).1 hkey'
    rw [Option.some.inj (hr.symm.trans hr')]
  · obtain ⟨⟨k, i⟩, hr, rfl⟩ := (htracking.referenced key hkey).resolve_left id
    obtain ⟨view, hview, hlimbo⟩ := (hinv.limbo.refs k i).1 hr
    exact ⟨i, view, hview, hlimbo⟩

theorem targets_run_deletedFirst :
    StepsMeet SyncEngine.next SyncEngine.Keeps
        (.start (.empty ()) : SyncEngine Unit fun _ => firstDocument) deletedFirst ∧
      ∃ s : SyncEngine Unit fun _ => firstDocument,
        run SyncEngine.next (.start (.empty ())) deletedFirst = some s ∧
          (∀ i, .query i ∈ s.tracking.listenTargets ↔ i ∈ s.queryViewsByQuery) ∧
          (∀ n, .limbo n ∈ s.tracking.listenTargets ↔
            ∃ key, s.tracking.limboTargetsByKey.lookup key = some n) ∧
          (∀ key key' n, s.tracking.limboTargetsByKey.lookup key = some n →
            s.tracking.limboTargetsByKey.lookup key' = some n → key = key') ∧
          ∀ key ∈ s.tracking.limboTargetsByKey, ∃ i view,
            s.queryViewsByQuery.lookup i = some view ∧ key ∈ view.limboDocuments :=
  ⟨by decide, targets_run (by decide)⟩

/-- **In every run that keeps to the rules and in which no lookup is refused too early**, each
document that a view has in limbo is looked up. -/
theorem lookups_run {store : RestoredStore κ υ} {events : List (SyncEvent κ υ ι)}
    (hkeeps : StepsMeet SyncEngine.next (fun s event => s.Keeps event ∧
      ∀ k, ¬ s.RefusedEarly event k) (SyncEngine.start store : SyncEngine υ query) events) :
    ∃ s : SyncEngine υ query, run SyncEngine.next (.start store) events = some s ∧
      ∀ i view, s.queryViewsByQuery.lookup i = some view →
        ∀ key ∈ view.limboDocuments, ∃ n, s.tracking.limboTargetsByKey.lookup key = some n ∧
          .limbo n ∈ s.tracking.listenTargets := by
  obtain ⟨s, hrun, hinv, hk⟩ := run_of_meet (I := fun s : SyncEngine υ query =>
    s.Inv ∧ ∀ k, ¬ s.tracking.Untracked k) (fun s event hkeeps h => by
      obtain ⟨s', snapshots, hstep, hinv, -, huntracked, -⟩ := SyncEngine.step_spec h.1 hkeeps.1
      refine ⟨s', by rw [SyncEngine.next, hstep]; rfl, hinv, fun k hk => ?_⟩
      exact (huntracked k hk).elim (h.2 k) (hkeeps.2 k)) hkeeps
    ⟨SyncEngine.inv_start store, fun k hk => by
      obtain ⟨⟨r, hr, -⟩, -⟩ := hk
      exact absurd hr (by simp [SyncEngine.start, LimboTracking.start])⟩
  refine ⟨s, hrun, fun i view hview key hkey => ?_⟩
  have hmem : key ∈ s.tracking.limboTargetsByKey := by
    by_contra hno
    exact hk key ⟨⟨(key, i), (hinv.limbo.refs key i).2 ⟨view, hview, hkey⟩, rfl⟩, hno⟩
  obtain ⟨n, hn⟩ := Option.isSome_iff_exists.1 (AList.lookup_isSome.2 hmem)
  refine ⟨n, hn, (hinv.limbo.tracking.lookups n).2 ((hinv.limbo.tracking.isSome_iff n).2 ⟨key, hn⟩)⟩

theorem lookups_run_deletedFirst :
    StepsMeet SyncEngine.next (fun s event => s.Keeps event ∧ ∀ k, ¬ s.RefusedEarly event k)
        (.start (.empty ()) : SyncEngine Unit fun _ => firstDocument) deletedFirst ∧
      ∃ s : SyncEngine Unit fun _ => firstDocument,
        run SyncEngine.next (.start (.empty ())) deletedFirst = some s ∧
          ∀ i view, s.queryViewsByQuery.lookup i = some view → ∀ key ∈ view.limboDocuments,
            ∃ n, s.tracking.limboTargetsByKey.lookup key = some n ∧
              .limbo n ∈ s.tracking.listenTargets :=
  ⟨by decide, lookups_run (by decide)⟩

/-- **In every run that keeps to the rules**, a query finds the documents of the local store that it
matches, looked at one by one, and no others. -/
theorem executeQuery_run {store : RestoredStore κ υ} {events : List (SyncEvent κ υ ι)}
    (hkeeps : StepsMeet SyncEngine.next SyncEngine.Keeps
      (SyncEngine.start store : SyncEngine υ query) events) :
    ∃ s : SyncEngine υ query, run SyncEngine.next (.start store) events = some s ∧
      ∀ (q : Query κ ObjectValue) k,
        matching q ((s.localStore.executeQuery q).lookup k) =
          matching q (s.localStore.getDocument k) ∧
        ∀ doc, (s.localStore.executeQuery q).lookup k = some doc → doc.key = k ∧
          (matching q (s.localStore.getDocument k)).isSome = true := by
  obtain ⟨s, hrun, hinv⟩ := SyncEngine.run_inv hkeeps
  refine ⟨s, hrun, fun q k => ?_⟩
  have hexecutes := LocalStore.executeQuery_spec hinv.store q
  exact ⟨hexecutes.matching_eq k, fun doc hdoc =>
    ⟨hexecutes.wellKeyed k doc hdoc, hexecutes.isSome k doc hdoc⟩⟩

theorem executeQuery_run_deletedFirst :
    StepsMeet SyncEngine.next SyncEngine.Keeps
        (.start (.empty ()) : SyncEngine Unit fun _ => firstDocument) deletedFirst ∧
      ∃ s : SyncEngine Unit fun _ => firstDocument,
        run SyncEngine.next (.start (.empty ())) deletedFirst = some s ∧
          ∀ (q : Query ℕ ObjectValue) k,
            matching q ((s.localStore.executeQuery q).lookup k) =
              matching q (s.localStore.getDocument k) ∧
            ∀ doc, (s.localStore.executeQuery q).lookup k = some doc → doc.key = k ∧
              (matching q (s.localStore.getDocument k)).isSome = true :=
  ⟨by decide, executeQuery_run (by decide)⟩

end FirestoreClient
