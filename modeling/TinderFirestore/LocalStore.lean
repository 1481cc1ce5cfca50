/-
**The local store.**

The Firestore client keeps the documents that the backend has sent in a cache, and the writes of
each user that the backend has not acknowledged in a queue.  What the client shows of a document is
what the queued writes of the current user make of the cached one.  Each operation of the store
returns the documents that may have changed by it, so that the views of the queries need not look at
the others.

Main definitions:

* `FirestoreClient.LocalStore` with `getDocument` — the store, and what it shows of a document;
* `FirestoreClient.LocalStore.writeLocally`, `acknowledgeBatch`, `rejectBatch`, `applyRemoteEvent`,
  `handleUserChange` — its operations;
* `FirestoreClient.Reports` — the returned documents tell all that has changed;
* `FirestoreClient.MutationQueue.Consecutive` — the ids of a queue follow each other;
* `FirestoreClient.RestoredStore` — what an earlier session has left.

Main results:

* one theorem for each operation: **what it returns tells all that has changed**.
-/

import TinderFirestore.LocalMutations
import TinderFirestore.ViewDocuments

set_option relaxedAutoImplicit false
set_option autoImplicit false

namespace FirestoreClient

variable {κ υ : Type*}

/-! ### The mutation queue -/

/-- The batches that the backend has not acknowledged, in the order of their ids. -/
structure MutationQueue (κ : Type*) where
  queue : List (MutationBatch κ)
  nextBatchId : ℕ

namespace MutationQueue

/-- `Start`. -/
def start (q : MutationQueue κ) : MutationQueue κ :=
  if q.queue.isEmpty then { q with nextBatchId := 1 } else q

/-- `AddMutationBatch`: the ids have to increase, and no batch may be empty. -/
def addMutationBatch (q : MutationQueue κ) (mutations : List (Mutation κ)) :
    Option (MutationBatch κ × MutationQueue κ) :=
  if mutations.isEmpty then none
  else if q.queue.getLast?.any fun prior => decide (q.nextBatchId ≤ prior.batchId) then none
  else
    let batch := { batchId := q.nextBatchId, mutations := mutations }
    some (batch, { queue := q.queue ++ [batch], nextBatchId := q.nextBatchId + 1 })

/-- `RemoveMutationBatch`: only the first batch can be removed. -/
def removeMutationBatch (q : MutationQueue κ) (batchId : ℕ) :
    Option (MutationBatch κ × MutationQueue κ) :=
  match q.queue with
  | [] => none
  | head :: rest => if head.batchId = batchId then some (head, { q with queue := rest }) else none

/-- All queued mutations, in order. -/
def mutations (q : MutationQueue κ) : List (Mutation κ) := q.queue.flatMap MutationBatch.mutations

/-- **The ids follow each other**, up to the next one, and are positive. -/
structure Consecutive (q : MutationQueue κ) : Prop where
  ids : q.queue.map MutationBatch.batchId =
    List.range' (q.nextBatchId - q.queue.length) q.queue.length
  used : q.queue.length < q.nextBatchId

theorem Consecutive.batchId_eq {q : MutationQueue κ} (h : q.Consecutive) {n : ℕ}
    {batch : MutationBatch κ} (hbatch : q.queue[n]? = some batch) :
    batch.batchId = q.nextBatchId - q.queue.length + n := by
  have hid : (q.queue.map MutationBatch.batchId)[n]? = some batch.batchId := by
    rw [List.getElem?_map, hbatch, Option.map_some]
  have hn : n < q.queue.length := (List.getElem?_eq_some_iff.1 hbatch).1
  rw [h.ids, List.getElem?_range' hn, Option.some_inj] at hid
  omega

/-- The ids of a queue are below the next one. -/
theorem Consecutive.batchId_lt {q : MutationQueue κ} (h : q.Consecutive)
    {batch : MutationBatch κ} (hbatch : batch ∈ q.queue) : batch.batchId < q.nextBatchId := by
  obtain ⟨n, hn⟩ := List.mem_iff_getElem?.1 hbatch
  have hid := h.batchId_eq hn
  have hlength := (List.getElem?_eq_some_iff.1 hn).1
  have hused := h.used
  omega

end MutationQueue

/-! ### The store -/

/-- The store: the documents that the backend has sent, and the queue of each user. -/
structure LocalStore (κ υ : Type*) where
  remoteDocumentCache : MaybeDocumentMap κ ObjectValue
  mutationQueues : υ → MutationQueue κ
  currentUser : υ
  lastRemoteSnapshotVersion : SnapshotVersion

def MaybeDocument.version {δ : Type*} : MaybeDocument κ δ → SnapshotVersion
  | document d => d.version
  | noDocument _ version _ => version
  | unknownDocument _ version => version

def MaybeDocument.hasPendingWrites {δ : Type*} : MaybeDocument κ δ → Bool
  | document d => d.hasLocalMutations || d.hasCommittedMutations
  | noDocument _ _ hasCommittedMutations => hasCommittedMutations
  | unknownDocument _ _ => true

/-- The client has lost access to the document: there is a manufactured event for it. -/
def MaybeDocument.accessLost {δ : Type*} : MaybeDocument κ δ → Bool
  | document _ => false
  | noDocument _ version _ => decide (version = .none)
  | unknownDocument _ _ => false

/-- A document update of the backend: the documents, and the version they belong to. -/
structure RemoteUpdate (κ : Type*) where
  documentUpdates : MaybeDocumentMap κ ObjectValue
  snapshotVersion : SnapshotVersion

/-- The acknowledgement of a batch: the version of each mutation. -/
structure BatchResult where
  batchId : ℕ
  mutationResults : List SnapshotVersion

/-! ### The queue of the current user -/

namespace LocalStore

def mutationQueue (s : LocalStore κ υ) : MutationQueue κ := s.mutationQueues s.currentUser

def setMutationQueue [DecidableEq υ] (s : LocalStore κ υ) (q : MutationQueue κ) : LocalStore κ υ :=
  { s with mutationQueues := Function.update s.mutationQueues s.currentUser q }

theorem mutationQueues_setMutationQueue [DecidableEq υ] (s : LocalStore κ υ) (q : MutationQueue κ)
    (user : υ) : (s.setMutationQueue q).mutationQueues user =
      if user = s.currentUser then q else s.mutationQueues user :=
  Function.update_apply _ _ _ _

theorem mutationQueue_setMutationQueue [DecidableEq υ] (s : LocalStore κ υ) (q : MutationQueue κ) :
    (s.setMutationQueue q).mutationQueue = q :=
  Function.update_self _ _ _

end LocalStore

/-- What is not known does not exist. -/
theorem sameDocument_getD (doc : KnownDocument κ) (key : κ) :
    SameDocument (some (doc.getD (.noDocument key .none false))) doc := by
  cases doc <;> rfl

section Store

variable [DecidableEq κ]

/-- A value for each key. -/
def documentsAt {α : Type*} (keys : List κ) (f : κ → α) : AList fun _ : κ => α where
  entries := keys.dedup.map fun k => ⟨k, f k⟩
  nodupKeys := by
    rw [List.NodupKeys, List.keys, List.map_map]
    exact (List.map_id' keys.dedup).symm ▸ keys.nodup_dedup

theorem lookup_documentsAt {α : Type*} (keys : List κ) (f : κ → α) (k : κ) :
    (documentsAt keys f).lookup k = if k ∈ keys then some (f k) else none := by
  refine Option.ext fun a => ?_
  rw [← Option.mem_def, AList.mem_lookup_iff, documentsAt, List.mem_map]
  constructor
  · rintro ⟨k', hk', heq⟩
    obtain ⟨rfl, rfl⟩ := Sigma.mk.inj_iff.1 heq
    rw [if_pos (List.mem_dedup.1 hk')]
  · intro h
    split at h
    · next hk => exact ⟨k, List.mem_dedup.2 hk, by rw [Option.some.inj h]⟩
    · exact absurd h (by simp)

namespace LocalStore

variable {s s' : LocalStore κ υ}

/-! ### What the store shows -/

/-- `GetDocument`: the batches that write the document are applied to what the backend has sent. -/
def getDocument (s : LocalStore κ υ) (key : κ) : KnownDocument κ :=
  (s.mutationQueue.queue.filter fun batch => batch.Affects key).foldl
    (fun document batch => batch.applyToLocalDocument document key)
    (s.remoteDocumentCache.lookup key)

/-- `GetLocalViewOfDocuments`, for the given base documents. -/
def getLocalViewOfDocuments (s : LocalStore κ υ) (keys : List κ) (baseDocs : κ → KnownDocument κ) :
    MaybeDocumentMap κ ObjectValue :=
  let batches := s.mutationQueue.queue.filter fun batch => ∃ key ∈ keys, batch.Affects key
  documentsAt keys fun key =>
    (batches.foldl (fun document batch => batch.applyToLocalDocument document key)
      (baseDocs key)).getD (.noDocument key .none false)

/-- `GetDocuments`. -/
def getDocuments (s : LocalStore κ υ) (keys : List κ) : MaybeDocumentMap κ ObjectValue :=
  s.getLocalViewOfDocuments keys s.remoteDocumentCache.lookup

/-! ### The operations -/

/-- `WriteLocally`. -/
def writeLocally [DecidableEq υ] (s : LocalStore κ υ) (mutations : List (Mutation κ)) :
    Option (LocalStore κ υ × MaybeDocumentMap κ ObjectValue) :=
  let existingDocuments := s.getDocuments (mutations.map Mutation.key)
  (s.mutationQueue.addMutationBatch mutations).map fun (batch, queue) =>
    (s.setMutationQueue queue, batch.applyToLocalDocumentSet existingDocuments)

/-- The version a batch result has for a document: that of the last mutation. -/
def docVersion (batch : MutationBatch κ) (result : BatchResult) (key : κ) :
    Option SnapshotVersion :=
  ((batch.mutations.zip result.mutationResults).filter fun m => m.1.key = key).getLast?.map Prod.snd

/-- The body of the loop of `ApplyBatchResult` over the documents of the batch. -/
def applyBatchResult (batch : MutationBatch κ) (result : BatchResult)
    (cache : MaybeDocumentMap κ ObjectValue) (key : κ) : Option (MaybeDocumentMap κ ObjectValue) :=
  let remoteDoc := cache.lookup key
  match docVersion batch result key with
  | none => none
  | some ackVersion =>
      if remoteDoc.all fun doc => decide (doc.version < ackVersion) then
        match batch.applyToRemoteDocument remoteDoc key result.mutationResults with
        | none => if remoteDoc.isSome then none else some cache
        | some doc => some (cache.insert doc.key doc)
      else some cache

/-- `AcknowledgeBatch`: there has to be one result for each mutation. -/
def acknowledgeBatch [DecidableEq υ] (s : LocalStore κ υ) (result : BatchResult) :
    Option (LocalStore κ υ × MaybeDocumentMap κ ObjectValue) :=
  (s.mutationQueue.removeMutationBatch result.batchId).bind fun (batch, queue) =>
    if batch.mutations.length = result.mutationResults.length then
      (batch.keys.foldlM (applyBatchResult batch result) s.remoteDocumentCache).map fun cache =>
        let s' := { s with remoteDocumentCache := cache }.setMutationQueue queue
        (s', s'.getDocuments batch.keys)
    else none

/-- `RejectBatch`. -/
def rejectBatch [DecidableEq υ] (s : LocalStore κ υ) (batchId : ℕ) :
    Option (LocalStore κ υ × MaybeDocumentMap κ ObjectValue) :=
  (s.mutationQueue.removeMutationBatch batchId).map fun (batch, queue) =>
    let s' := s.setMutationQueue queue
    (s', s'.getDocuments batch.keys)

/-- The body of the loop of `ApplyRemoteEvent` over the document updates: the cache and the changed
documents so far. -/
def applyDocumentUpdate (existingDocs : MaybeDocumentMap κ ObjectValue)
    (snapshotVersion : SnapshotVersion)
    (x : MaybeDocumentMap κ ObjectValue × MaybeDocumentMap κ ObjectValue)
    (kv : Σ _ : κ, MaybeDocument κ ObjectValue) :
    Option (MaybeDocumentMap κ ObjectValue × MaybeDocumentMap κ ObjectValue) :=
  if kv.2.accessLost then some (x.1.erase kv.1, x.2.insert kv.1 kv.2)
  else if (existingDocs.lookup kv.1).all fun existing =>
      decide (existing.version < kv.2.version) ||
        (decide (kv.2.version = existing.version) && existing.hasPendingWrites) then
    if snapshotVersion = .none then none
    else some (x.1.insert kv.2.key kv.2, x.2.insert kv.1 kv.2)
  else some x

/-- `ApplyRemoteEvent`, as far as the documents go. -/
def applyRemoteEvent (s : LocalStore κ υ) (event : RemoteUpdate κ) :
    Option (LocalStore κ υ × MaybeDocumentMap κ ObjectValue) :=
  (event.documentUpdates.entries.foldlM
      (applyDocumentUpdate s.remoteDocumentCache event.snapshotVersion)
      (s.remoteDocumentCache, ∅)).bind fun (cache, changedDocs) =>
    if event.snapshotVersion ≠ .none ∧ event.snapshotVersion < s.lastRemoteSnapshotVersion then none
    else
      let s' : LocalStore κ υ :=
        { s with
          remoteDocumentCache := cache
          lastRemoteSnapshotVersion :=
            if event.snapshotVersion = .none then s.lastRemoteSnapshotVersion
            else event.snapshotVersion }
      some (s', s'.getLocalViewOfDocuments changedDocs.keys changedDocs.lookup)

/-- `HandleUserChange`: all documents that the queues of both users write may have changed. -/
def handleUserChange [DecidableEq υ] (s : LocalStore κ υ) (user : υ) :
    LocalStore κ υ × MaybeDocumentMap κ ObjectValue :=
  let s₁ : LocalStore κ υ := { s with currentUser := user }
  let s' := s₁.setMutationQueue s₁.mutationQueue.start
  (s', s'.getDocuments
    ((s.mutationQueue.mutations ++ s'.mutationQueue.mutations).map Mutation.key))

/-! ### What the store shows of a document -/

/-- Batches that do not write the document may be left out. -/
theorem applyAll_filter {batches : List (MutationBatch κ)} {key : κ} {p : MutationBatch κ → Bool}
    (hp : ∀ batch ∈ batches, batch.Affects key → p batch = true) (doc : KnownDocument κ) :
    applyAll ((batches.filter p).flatMap MutationBatch.mutations) key doc =
      applyAll (batches.flatMap MutationBatch.mutations) key doc := by
  induction batches generalizing doc with
  | nil => rfl
  | cons batch batches ih =>
      have ih' := ih fun batch' hbatch' => hp batch' (List.mem_cons_of_mem _ hbatch')
      rw [List.flatMap_cons, applyAll_append, List.filter_cons]
      split
      · rw [List.flatMap_cons, applyAll_append]
        exact ih' _
      · next hno =>
          have hnot : ∀ m ∈ batch.mutations, m.key ≠ key := by
            intro m hm hkey
            exact hno (hp batch List.mem_cons_self ⟨m, hm, hkey⟩)
          rw [applyAll_of_not_affects hnot]
          exact ih' doc

theorem foldl_applyToLocalDocument {batches : List (MutationBatch κ)} {key : κ}
    {p : MutationBatch κ → Bool} (hp : ∀ batch ∈ batches, batch.Affects key → p batch = true)
    (doc : KnownDocument κ) :
    (batches.filter p).foldl (fun document batch => batch.applyToLocalDocument document key) doc =
      applyAll (batches.flatMap MutationBatch.mutations) key doc := by
  rw [← applyAll_filter hp, applyAll, List.foldl_flatMap]
  rfl

/-- What the store shows of a document is what the queued mutations make of the cached one. -/
theorem getDocument_eq (s : LocalStore κ υ) (key : κ) :
    s.getDocument key =
      applyAll s.mutationQueue.mutations key (s.remoteDocumentCache.lookup key) :=
  foldl_applyToLocalDocument (fun _ _ h => decide_eq_true h) _

theorem lookup_getLocalViewOfDocuments (s : LocalStore κ υ) (keys : List κ)
    (baseDocs : κ → KnownDocument κ) (key : κ) :
    (s.getLocalViewOfDocuments keys baseDocs).lookup key =
      if key ∈ keys then
        some ((applyAll s.mutationQueue.mutations key (baseDocs key)).getD
          (.noDocument key .none false))
      else none := by
  rw [getLocalViewOfDocuments, lookup_documentsAt]
  split
  · next hkey =>
      rw [foldl_applyToLocalDocument fun batch _ h => decide_eq_true ⟨key, hkey, h⟩]
      rfl
  · rfl

/-! ### What holds of the store -/

/-- **What holds of the store**: the cached documents are under their own keys, the queued mutations
are those that users can write, and the ids of the batches are used up. -/
structure Inv (s : LocalStore κ υ) : Prop where
  wellKeyed : WellKeyed s.remoteDocumentCache
  plain : ∀ user, ∀ m ∈ (s.mutationQueues user).mutations, m.Plain
  used : ∀ user, ∀ batch ∈ (s.mutationQueues user).queue,
    batch.batchId < (s.mutationQueues user).nextBatchId

/-- **The returned documents tell all that has changed**: they are what the store shows now, and
what it shows of the others has not changed. -/
structure Reports (s s' : LocalStore κ υ) (changes : MaybeDocumentMap κ ObjectValue) : Prop where
  wellKeyed : WellKeyed changes
  changed : ∀ key ∈ changes, SameDocument (changes.lookup key) (s'.getDocument key)
  unchanged : ∀ key, key ∉ changes → SameDocument (s'.getDocument key) (s.getDocument key)

theorem Inv.knownUnder (h : s.Inv) (key : κ) : KnownUnder key (s.remoteDocumentCache.lookup key) :=
  fun doc hdoc => h.wellKeyed key doc hdoc

theorem mem_getLocalViewOfDocuments {keys : List κ} {baseDocs : κ → KnownDocument κ} {key : κ} :
    key ∈ s.getLocalViewOfDocuments keys baseDocs ↔ key ∈ keys := by
  rw [← AList.lookup_isSome, lookup_getLocalViewOfDocuments]
  split
  · next hkey => exact iff_of_true rfl hkey
  · next hkey => exact iff_of_false (by simp) hkey

/-- Documents that have been read again after the operation tell what the store shows of them. -/
theorem Reports.of_read {keys : List κ} {baseDocs : κ → KnownDocument κ}
    (hunder : ∀ key ∈ keys, KnownUnder key (baseDocs key))
    (hbase : ∀ key ∈ keys, SameDocument (baseDocs key) (s'.remoteDocumentCache.lookup key))
    (hother : ∀ key ∉ keys, SameDocument (s'.getDocument key) (s.getDocument key)) :
    Reports s s' (s'.getLocalViewOfDocuments keys baseDocs) := by
  refine ⟨fun key doc hdoc => ?_, fun key hkey => ?_, fun key hkey => ?_⟩
  · rw [lookup_getLocalViewOfDocuments] at hdoc
    split at hdoc
    · next hkey =>
        obtain rfl := Option.some.inj hdoc
        have hknown : KnownUnder key
            (applyAll s'.mutationQueue.mutations key (baseDocs key)) :=
          applyAll_key (hunder key hkey)
        cases hdoc' : applyAll s'.mutationQueue.mutations key (baseDocs key) with
        | none => rfl
        | some doc' => exact hknown doc' hdoc'
    · exact absurd hdoc (by simp)
  · have hkey' : key ∈ keys := mem_getLocalViewOfDocuments.1 hkey
    rw [lookup_getLocalViewOfDocuments, if_pos hkey', getDocument_eq]
    exact (sameDocument_getD _ key).trans (applyAll_congr _ key (hbase key hkey'))
  · exact hother key fun hkey' => hkey (mem_getLocalViewOfDocuments.2 hkey')

/-! ### The operations -/

section Operations

variable [DecidableEq υ]

/-- The queue of the current user may be replaced by one that is as good. -/
theorem Inv.setMutationQueue (h : s.Inv) {q : MutationQueue κ}
    (hplain : ∀ m ∈ q.mutations, m.Plain)
    (hused : ∀ batch ∈ q.queue, batch.batchId < q.nextBatchId) : (s.setMutationQueue q).Inv := by
  refine ⟨h.wellKeyed, fun user => ?_, fun user => ?_⟩
  · rw [mutationQueues_setMutationQueue]
    split
    · exact hplain
    · exact h.plain user
  · rw [mutationQueues_setMutationQueue]
    split
    · exact hused
    · exact h.used user

/-- Without its first batch, the queue shows the same of the documents that the batch does not
write. -/
theorem applyAll_rest {batch : MutationBatch κ} {rest : List (MutationBatch κ)} {key : κ}
    (hkey : key ∉ batch.keys) (doc : KnownDocument κ) :
    applyAll ((batch :: rest).flatMap MutationBatch.mutations) key doc =
      applyAll (rest.flatMap MutationBatch.mutations) key doc := by
  have hnot : ∀ m ∈ batch.mutations, m.key ≠ key := by
    intro m hm hmkey
    exact hkey (MutationBatch.mem_keys.2 ⟨m, hm, hmkey⟩)
  rw [List.flatMap_cons, applyAll_append, applyAll_of_not_affects hnot]

/-- A queue whose first batch has been removed is as good. -/
theorem Inv.removeFirst (h : s.Inv) {batch : MutationBatch κ} {rest : List (MutationBatch κ)}
    (hqueue : s.mutationQueue.queue = batch :: rest) :
    (s.setMutationQueue { s.mutationQueue with queue := rest }).Inv := by
  refine h.setMutationQueue (fun m hm => h.plain s.currentUser m ?_) fun b hb => ?_
  · change m ∈ s.mutationQueue.queue.flatMap MutationBatch.mutations
    rw [hqueue, List.flatMap_cons]
    exact List.mem_append_right _ hm
  · refine h.used s.currentUser b ?_
    change b ∈ s.mutationQueue.queue
    rw [hqueue]
    exact List.mem_cons_of_mem _ hb

/-- **`WriteLocally`**: users write mutations that do not ask for versions.  If none of them writes
a document twice, the returned documents tell all that has changed. -/
theorem writeLocally_spec (h : s.Inv) {mutations : List (Mutation κ)} (hne : mutations ≠ [])
    (hplain : ∀ m ∈ mutations, m.Plain) (hnodup : (mutations.map Mutation.key).Nodup) :
    ∃ s' changes, s.writeLocally mutations = some (s', changes) ∧ s'.Inv ∧
      Reports s s' changes := by
  set batch : MutationBatch κ :=
    { batchId := s.mutationQueue.nextBatchId, mutations := mutations } with hbatch
  set queue : MutationQueue κ :=
    { queue := s.mutationQueue.queue ++ [batch]
      nextBatchId := s.mutationQueue.nextBatchId + 1 } with hqueue
  have hadd : s.mutationQueue.addMutationBatch mutations = some (batch, queue) := by
    have hempty : ¬ mutations.isEmpty = true := by simpa using hne
    have hprior : ¬ (s.mutationQueue.queue.getLast?.any
        fun prior => decide (s.mutationQueue.nextBatchId ≤ prior.batchId)) = true := by
      cases hlast : s.mutationQueue.queue.getLast? with
      | none => exact Bool.false_ne_true
      | some prior =>
          have hused := h.used s.currentUser prior (List.mem_of_getLast? hlast)
          rw [Option.any_some, decide_eq_true_iff, not_le]
          exact hused
    rw [MutationQueue.addMutationBatch, if_neg hempty, if_neg hprior]
  have hall : queue.mutations = s.mutationQueue.mutations ++ mutations := by
    rw [MutationQueue.mutations, MutationQueue.mutations, hqueue, List.flatMap_append,
      List.flatMap_cons, List.flatMap_nil, List.append_nil]
  -- what the store shows now is what the batch makes of what it showed before
  have hshows (key : κ) : (s.setMutationQueue queue).getDocument key =
      applyAll mutations key (s.getDocument key) := by
    rw [getDocument_eq, getDocument_eq, mutationQueue_setMutationQueue, hall, applyAll_append]
    rfl
  have hlookup (key : κ) :
      (batch.applyToLocalDocumentSet (s.getDocuments (mutations.map Mutation.key))).lookup key =
        if key ∈ mutations.map Mutation.key then
          applyAll mutations key (some ((s.getDocument key).getD (.noDocument key .none false)))
        else none := by
    rw [MutationBatch.lookup_applyToLocalDocumentSet hnodup, getDocuments,
      lookup_getLocalViewOfDocuments, ← getDocument_eq]
    split
    · rfl
    · rfl
  refine ⟨s.setMutationQueue queue,
    batch.applyToLocalDocumentSet (s.getDocuments (mutations.map Mutation.key)), ?_, ?_, ?_, ?_, ?_⟩
  · rw [writeLocally, hadd]
    rfl
  · refine h.setMutationQueue (fun m hm => ?_) fun b hb => ?_
    · rw [hall] at hm
      rcases List.mem_append.1 hm with hm | hm
      · exact h.plain s.currentUser m hm
      · exact hplain m hm
    · rcases List.mem_append.1 hb with hb | hb
      · exact (h.used s.currentUser b hb).trans (Nat.lt_succ_self _)
      · rw [List.mem_singleton.1 hb]
        exact Nat.lt_succ_self _
  · intro key doc hdoc
    rw [hlookup] at hdoc
    split at hdoc
    · refine applyAll_key (fun d hd => ?_) doc hdoc
      have hunder : KnownUnder key (s.getDocument key) :=
        s.getDocument_eq key ▸ applyAll_key (h.knownUnder key)
      cases hknown : s.getDocument key with
      | none =>
          rw [hknown] at hd
          rw [← Option.some.inj hd]
          rfl
      | some d' =>
          rw [hknown] at hd
          rw [← Option.some.inj hd]
          exact hunder d' hknown
    · exact absurd hdoc (by simp)
  · intro key hkey
    rw [← AList.lookup_isSome, hlookup] at hkey
    split at hkey
    · next hmem =>
        rw [hlookup, if_pos hmem, hshows]
        exact applyAll_congr mutations key (sameDocument_getD _ key)
    · exact absurd hkey (by simp)
  · intro key hkey
    rw [hshows, applyAll_of_not_affects]
    · rfl
    · intro m hm hmkey
      have hmem : key ∈ mutations.map Mutation.key := hmkey ▸ List.mem_map_of_mem hm
      refine hkey ?_
      rw [← AList.lookup_isSome, hlookup, if_pos hmem]
      exact applyAll_isSome rfl

/-- **`RejectBatch`**: the first batch can be removed, and its documents have been read again. -/
theorem rejectBatch_spec (h : s.Inv) {batch : MutationBatch κ} {rest : List (MutationBatch κ)}
    (hqueue : s.mutationQueue.queue = batch :: rest) :
    ∃ s' changes, s.rejectBatch batch.batchId = some (s', changes) ∧ s'.Inv ∧
      Reports s s' changes := by
  set queue : MutationQueue κ := { s.mutationQueue with queue := rest } with hrest
  have hinv : (s.setMutationQueue queue).Inv := h.removeFirst hqueue
  refine ⟨s.setMutationQueue queue, (s.setMutationQueue queue).getDocuments batch.keys, ?_, hinv,
    ?_⟩
  · rw [rejectBatch, MutationQueue.removeMutationBatch, hqueue]
    simp only [if_true, Option.map_some]
    rfl
  · refine Reports.of_read (fun key _ => hinv.knownUnder key) (fun _ _ => rfl) fun key hkey => ?_
    rw [getDocument_eq, getDocument_eq, mutationQueue_setMutationQueue, MutationQueue.mutations,
      MutationQueue.mutations, hqueue, applyAll_rest hkey]
    rfl

/-- The result has a version for each document of the batch. -/
theorem docVersion_isSome {batch : MutationBatch κ} {result : BatchResult} {key : κ}
    (hkey : batch.Affects key)
    (hlength : batch.mutations.length = result.mutationResults.length) :
    ∃ version, docVersion batch result key = some version := by
  obtain ⟨m, hm, hmkey⟩ := hkey
  rw [← List.map_fst_zip (Nat.le_of_eq hlength), List.mem_map] at hm
  obtain ⟨pair, hpair, rfl⟩ := hm
  have hmem : pair ∈ (batch.mutations.zip result.mutationResults).filter
      fun m => m.1.key = key := List.mem_filter.2 ⟨hpair, decide_eq_true hmkey⟩
  exact ⟨_, by
    rw [docVersion, List.getLast?_eq_getLast_of_ne_nil (List.ne_nil_of_mem hmem)]
    rfl⟩

/-- **One round of `ApplyBatchResult`** goes through and concerns one document alone. -/
theorem applyBatchResult_spec {batch : MutationBatch κ} {result : BatchResult}
    {cache : MaybeDocumentMap κ ObjectValue} (hcache : WellKeyed cache) {key : κ}
    (hkey : batch.Affects key)
    (hlength : batch.mutations.length = result.mutationResults.length) :
    ∃ cache', applyBatchResult batch result cache key = some cache' ∧ WellKeyed cache' ∧
      ∀ k ≠ key, cache'.lookup k = cache.lookup k := by
  obtain ⟨ackVersion, hversion⟩ := docVersion_isSome hkey hlength
  obtain ⟨doc, hdoc, hdocKey⟩ := MutationBatch.applyToRemoteDocument_spec
    (show KnownUnder key (cache.lookup key) from fun d hd => hcache key d hd) hkey hlength
  simp only [applyBatchResult, hversion, hdoc]
  split
  · refine ⟨cache.insert doc.key doc, rfl, fun k d hd => ?_, fun k hk => ?_⟩
    · rcases eq_or_ne k doc.key with rfl | hne
      · rw [AList.lookup_insert] at hd
        rw [← Option.some.inj hd]
      · rw [AList.lookup_insert_ne hne] at hd
        exact hcache k d hd
    · exact AList.lookup_insert_ne (hdocKey.symm ▸ hk)
  · exact ⟨cache, rfl, hcache, fun _ _ => rfl⟩

/-- The loop of `ApplyBatchResult`: the induction is on the documents of the batch. -/
theorem applyBatchResult_run {batch : MutationBatch κ} {result : BatchResult}
    (hlength : batch.mutations.length = result.mutationResults.length) {keys : List κ}
    (hkeys : ∀ key ∈ keys, batch.Affects key) {cache : MaybeDocumentMap κ ObjectValue}
    (hcache : WellKeyed cache) :
    ∃ cache', keys.foldlM (applyBatchResult batch result) cache = some cache' ∧
      WellKeyed cache' ∧ ∀ k ∉ keys, cache'.lookup k = cache.lookup k := by
  induction keys generalizing cache with
  | nil => exact ⟨cache, rfl, hcache, fun _ _ => rfl⟩
  | cons key keys ih =>
      obtain ⟨cache₁, hround, hcache₁, hother₁⟩ :=
        applyBatchResult_spec hcache (hkeys key List.mem_cons_self) hlength
      obtain ⟨cache', hrun, hcache', hother⟩ :=
        ih (fun k hk => hkeys k (List.mem_cons_of_mem _ hk)) hcache₁
      refine ⟨cache', ?_, hcache', fun k hk => ?_⟩
      · rw [List.foldlM_cons, hround]
        exact hrun
      · rw [List.mem_cons, not_or] at hk
        rw [hother k hk.2, hother₁ k hk.1]

/-- **`AcknowledgeBatch`**: the mutations of the first batch are applied for good, the batch is
removed, and its documents have been read again. -/
theorem acknowledgeBatch_spec (h : s.Inv) {batch : MutationBatch κ}
    {rest : List (MutationBatch κ)} (hqueue : s.mutationQueue.queue = batch :: rest)
    {result : BatchResult} (hid : batch.batchId = result.batchId)
    (hlength : batch.mutations.length = result.mutationResults.length) :
    ∃ s' changes, s.acknowledgeBatch result = some (s', changes) ∧ s'.Inv ∧
      Reports s s' changes := by
  obtain ⟨cache, hrun, hcache, hother⟩ := applyBatchResult_run hlength
    (fun _ hkey => MutationBatch.mem_keys.1 hkey) h.wellKeyed
  set queue : MutationQueue κ := { s.mutationQueue with queue := rest } with hrest
  set s₁ : LocalStore κ υ := { s with remoteDocumentCache := cache } with hs₁
  have hinv₁ : s₁.Inv := ⟨hcache, h.plain, h.used⟩
  have hinv : (s₁.setMutationQueue queue).Inv := hinv₁.removeFirst hqueue
  refine ⟨s₁.setMutationQueue queue, (s₁.setMutationQueue queue).getDocuments batch.keys, ?_, hinv,
    ?_⟩
  · rw [acknowledgeBatch, MutationQueue.removeMutationBatch, hqueue]
    simp only [hid, if_true, Option.bind_some, hlength, hrun, Option.map_some]
    rfl
  · refine Reports.of_read (fun key _ => hinv.knownUnder key) (fun _ _ => rfl) fun key hkey => ?_
    rw [getDocument_eq, getDocument_eq, mutationQueue_setMutationQueue, MutationQueue.mutations,
      MutationQueue.mutations, hqueue, applyAll_rest hkey, ← hother key hkey]
    rfl

/-- **`HandleUserChange`**: the documents that the queues of both users write have been read
again. -/
theorem handleUserChange_spec (h : s.Inv) (user : υ) :
    (s.handleUserChange user).1.Inv ∧
      Reports s (s.handleUserChange user).1 (s.handleUserChange user).2 := by
  set s₁ : LocalStore κ υ := { s with currentUser := user } with hs₁
  have hinv₁ : s₁.Inv := ⟨h.wellKeyed, h.plain, h.used⟩
  have hstart : s₁.mutationQueue.start.queue = s₁.mutationQueue.queue := by
    unfold MutationQueue.start
    split <;> rfl
  have hinv : (s₁.setMutationQueue s₁.mutationQueue.start).Inv := by
    refine hinv₁.setMutationQueue (fun m hm => ?_) fun b hb => ?_
    · rw [MutationQueue.mutations, hstart] at hm
      exact hinv₁.plain user m hm
    · rw [hstart] at hb
      have hne : ¬ s₁.mutationQueue.queue.isEmpty = true := by
        rw [List.isEmpty_iff]
        exact List.ne_nil_of_mem hb
      rw [MutationQueue.start, if_neg hne]
      exact hinv₁.used user b hb
  refine ⟨hinv, Reports.of_read (fun key _ => hinv.knownUnder key) (fun _ _ => rfl)
    fun key hkey => ?_⟩
  have hnot (m : Mutation κ) (hm : m ∈ s.mutationQueue.mutations ++
      (s₁.setMutationQueue s₁.mutationQueue.start).mutationQueue.mutations) : m.key ≠ key :=
    fun hmkey => hkey (List.mem_map.2 ⟨m, hm, hmkey⟩)
  rw [getDocument_eq, getDocument_eq,
    applyAll_of_not_affects fun m hm => hnot m (List.mem_append_left _ hm)]
  exact congrArg KnownDocument.document
    (applyAll_of_not_affects (fun m hm => hnot m (List.mem_append_right _ hm)) _)

end Operations

/-! ### Updates of the backend -/

/-- What the client relies on: the documents are under their own keys, only documents to which
access has been lost come without a version, and versions do not go back. -/
structure Fits (s : LocalStore κ υ) (event : RemoteUpdate κ) : Prop where
  wellKeyed : WellKeyed event.documentUpdates
  versioned : event.snapshotVersion = .none →
    ∀ key doc, event.documentUpdates.lookup key = some doc → doc.accessLost = true
  monotone : event.snapshotVersion ≠ .none →
    s.lastRemoteSnapshotVersion ≤ event.snapshotVersion

/-- The manufactured event for a document to which access has been lost. -/
theorem fits_deleted (s : LocalStore κ υ) (key : κ) : s.Fits
    { documentUpdates := AList.singleton key (.noDocument key .none false)
      snapshotVersion := .none } := by
  have hlookup (k : κ) (doc : MaybeDocument κ ObjectValue)
      (hdoc : (AList.singleton key (.noDocument key .none false) :
        MaybeDocumentMap κ ObjectValue).lookup k = some doc) :
      k = key ∧ doc = .noDocument key .none false := by
    have hmem := AList.mem_lookup_iff.1 hdoc
    rw [AList.singleton_entries, List.mem_singleton] at hmem
    obtain ⟨rfl, rfl⟩ := Sigma.mk.inj_iff.1 hmem
    exact ⟨rfl, rfl⟩
  refine ⟨fun k doc hdoc => ?_, fun _ k doc hdoc => ?_, fun hne => absurd rfl hne⟩
  · obtain ⟨rfl, rfl⟩ := hlookup k doc hdoc
    rfl
  · obtain ⟨-, rfl⟩ := hlookup k doc hdoc
    rfl

/-- **What the loop of `ApplyRemoteEvent` keeps**: the changed documents are those of the cache, and
the cache has not changed elsewhere. -/
structure UpdatesInv (cache₀ : MaybeDocumentMap κ ObjectValue)
    (x : MaybeDocumentMap κ ObjectValue × MaybeDocumentMap κ ObjectValue) : Prop where
  wellKeyed : WellKeyed x.1
  keyed : WellKeyed x.2
  changed : ∀ key ∈ x.2, SameDocument (x.2.lookup key) (x.1.lookup key)
  unchanged : ∀ key ∉ x.2, x.1.lookup key = cache₀.lookup key

theorem UpdatesInv.round {cache₀ : MaybeDocumentMap κ ObjectValue}
    (existingDocs : MaybeDocumentMap κ ObjectValue)
    {x : MaybeDocumentMap κ ObjectValue × MaybeDocumentMap κ ObjectValue}
    (h : UpdatesInv cache₀ x) {snapshotVersion : SnapshotVersion}
    {kv : Σ _ : κ, MaybeDocument κ ObjectValue} (hkey : kv.2.key = kv.1)
    (hversion : snapshotVersion = .none → kv.2.accessLost = true) :
    ∃ x', applyDocumentUpdate existingDocs snapshotVersion x kv = some x' ∧
      UpdatesInv cache₀ x' := by
  -- what is enough for a round that changes the document
  have hset (cache' : MaybeDocumentMap κ ObjectValue) (hcache' : WellKeyed cache')
      (hsame : SameDocument (some kv.2) (cache'.lookup kv.1))
      (hother : ∀ key ≠ kv.1, cache'.lookup key = x.1.lookup key) :
      UpdatesInv cache₀ (cache', x.2.insert kv.1 kv.2) := by
    refine ⟨hcache', fun key doc hdoc => ?_, fun key hmem => ?_, fun key hmem => ?_⟩
    · rcases eq_or_ne key kv.1 with rfl | hne
      · rw [AList.lookup_insert] at hdoc
        rw [← Option.some.inj hdoc, hkey]
      · rw [AList.lookup_insert_ne hne] at hdoc
        exact h.keyed key doc hdoc
    · rcases eq_or_ne key kv.1 with rfl | hne
      · rw [AList.lookup_insert]
        exact hsame
      · rw [AList.lookup_insert_ne hne, hother key hne]
        exact h.changed key ((AList.mem_insert _).1 hmem |>.resolve_left hne)
    · rw [AList.mem_insert, not_or] at hmem
      rw [hother key hmem.1]
      exact h.unchanged key hmem.2
  unfold applyDocumentUpdate
  by_cases hlost : kv.2.accessLost = true
  · rw [if_pos hlost]
    refine ⟨_, rfl, hset _ (fun key doc hdoc => ?_) ?_ fun key hne => AList.lookup_erase_ne hne⟩
    · rcases eq_or_ne key kv.1 with rfl | hne
      · rw [AList.lookup_erase] at hdoc
        exact absurd hdoc (by simp)
      · rw [AList.lookup_erase_ne hne] at hdoc
        exact h.wellKeyed key doc hdoc
    · rw [AList.lookup_erase]
      cases hdoc : kv.2 with
      | document d => rw [hdoc] at hlost; exact absurd hlost (by simp [MaybeDocument.accessLost])
      | noDocument _ _ _ => rfl
      | unknownDocument _ _ => rfl
  · have hnone : snapshotVersion ≠ .none := fun hnone => hlost (hversion hnone)
    rw [if_neg hlost, if_neg hnone, hkey]
    split
    · refine ⟨_, rfl, hset _ (fun key doc hdoc => ?_) ?_ fun key hne => AList.lookup_insert_ne hne⟩
      · rcases eq_or_ne key kv.1 with rfl | hne
        · rw [AList.lookup_insert] at hdoc
          rw [← Option.some.inj hdoc, hkey]
        · rw [AList.lookup_insert_ne hne] at hdoc
          exact h.wellKeyed key doc hdoc
      · rw [AList.lookup_insert]
        rfl
    · exact ⟨x, rfl, h⟩

/-- The whole loop: the induction is on the updates. -/
theorem UpdatesInv.run {cache₀ : MaybeDocumentMap κ ObjectValue}
    (existingDocs : MaybeDocumentMap κ ObjectValue) {snapshotVersion : SnapshotVersion}
    {updates : List (Σ _ : κ, MaybeDocument κ ObjectValue)}
    (hkeys : ∀ kv ∈ updates, kv.2.key = kv.1)
    (hversion : snapshotVersion = .none → ∀ kv ∈ updates, kv.2.accessLost = true)
    {x : MaybeDocumentMap κ ObjectValue × MaybeDocumentMap κ ObjectValue}
    (h : UpdatesInv cache₀ x) :
    ∃ x', updates.foldlM (applyDocumentUpdate existingDocs snapshotVersion) x = some x' ∧
      UpdatesInv cache₀ x' := by
  induction updates generalizing x with
  | nil => exact ⟨x, rfl, h⟩
  | cons kv updates ih =>
      obtain ⟨x₁, hround, h₁⟩ := h.round existingDocs
        (hkeys kv List.mem_cons_self) fun hnone => hversion hnone kv List.mem_cons_self
      obtain ⟨x', hrun, h'⟩ := ih (fun kv' hkv' => hkeys kv' (List.mem_cons_of_mem _ hkv'))
        (fun hnone kv' hkv' => hversion hnone kv' (List.mem_cons_of_mem _ hkv')) h₁
      refine ⟨x', ?_, h'⟩
      rw [List.foldlM_cons, hround]
      exact hrun

/-- **`ApplyRemoteEvent`**: the newer documents of the update go to the cache, and what the queue
makes of them is returned. -/
theorem applyRemoteEvent_spec (h : s.Inv) {event : RemoteUpdate κ} (hfits : s.Fits event) :
    ∃ s' changes, s.applyRemoteEvent event = some (s', changes) ∧ s'.Inv ∧
      Reports s s' changes := by
  have hmem (kv : Σ _ : κ, MaybeDocument κ ObjectValue)
      (hkv : kv ∈ event.documentUpdates.entries) :
      event.documentUpdates.lookup kv.1 = some kv.2 := AList.mem_lookup_iff.2 hkv
  obtain ⟨⟨cache, changedDocs⟩, hrun, hinv⟩ := UpdatesInv.run
    (x := (s.remoteDocumentCache, ∅)) s.remoteDocumentCache
    (fun kv hkv => hfits.wellKeyed kv.1 kv.2 (hmem kv hkv))
    (fun hnone kv hkv => hfits.versioned hnone kv.1 kv.2 (hmem kv hkv))
    ⟨h.wellKeyed, fun _ _ hdoc => absurd hdoc (by simp), fun _ hkey => absurd hkey (by simp),
      fun _ _ => rfl⟩
  have hgoes : ¬ (event.snapshotVersion ≠ .none ∧
      event.snapshotVersion < s.lastRemoteSnapshotVersion) :=
    fun hback => absurd (hfits.monotone hback.1) (not_le.2 hback.2)
  rw [applyRemoteEvent, hrun]
  simp only [Option.bind_some, if_neg hgoes]
  refine ⟨_, _, rfl, ⟨hinv.wellKeyed, h.plain, h.used⟩, Reports.of_read ?_ ?_ ?_⟩
  · exact fun key _ doc hdoc => hinv.keyed key doc hdoc
  · exact fun key hkey => hinv.changed key hkey
  · intro key hkey
    rw [getDocument_eq, getDocument_eq]
    exact congrArg (fun doc => (applyAll s.mutationQueue.mutations key doc).document)
      (hinv.unchanged key hkey)

/-- **A document to which access has been lost** is taken from the cache: what is still shown of it
are local changes. -/
theorem applyRemoteEvent_deleted {key : κ} {changes : MaybeDocumentMap κ ObjectValue}
    (h : s.applyRemoteEvent
      { documentUpdates := AList.singleton key (.noDocument key .none false)
        snapshotVersion := .none } = some (s', changes))
    {d : Document κ ObjectValue} (hd : KnownDocument.document (s'.getDocument key) = some d) :
    d.hasLocalMutations = true := by
  have hcache : s'.remoteDocumentCache = s.remoteDocumentCache.erase key := by
    simp only [applyRemoteEvent, AList.singleton_entries, List.foldlM_cons, List.foldlM_nil,
      applyDocumentUpdate, MaybeDocument.accessLost, decide_true, if_true] at h
    rw [Option.bind_eq_some_iff] at h
    obtain ⟨x, hx, h⟩ := h
    obtain rfl := Option.some.inj hx
    simp only [ne_eq, not_true_eq_false, false_and, if_false, Option.some.injEq,
      Prod.mk.injEq] at h
    rw [← h.1]
  refine applyAll_local (fun d' hd' => ?_) (s'.getDocument_eq key ▸ hd)
  rw [hcache, AList.lookup_erase] at hd'
  exact absurd hd' (by simp [KnownDocument.document])

end LocalStore

/-! ### What an earlier session has left -/

/-- A store that an earlier session has left: the documents are under their own keys, the queued
mutations are those that users can write, and the ids of the batches follow each other, which the
queue counts on. -/
structure RestoredStore (κ υ : Type*) [DecidableEq κ] extends LocalStore κ υ where
  wellKeyed : WellKeyed remoteDocumentCache
  plain : ∀ user, ∀ m ∈ (mutationQueues user).mutations, m.Plain
  consecutive : ∀ user, (mutationQueues user).Consecutive

namespace RestoredStore

/-- Without an earlier session there is nothing. -/
def empty (user : υ) : RestoredStore κ υ where
  remoteDocumentCache := ∅
  mutationQueues := fun _ => { queue := [], nextBatchId := 1 }
  currentUser := user
  lastRemoteSnapshotVersion := .none
  wellKeyed _ _ hdoc := absurd hdoc (by simp)
  plain _ m hm := absurd hm (List.not_mem_nil (a := m))
  consecutive _ := ⟨rfl, Nat.zero_lt_one⟩

theorem inv (store : RestoredStore κ υ) : store.toLocalStore.Inv :=
  ⟨store.wellKeyed, store.plain, fun user _ hbatch => (store.consecutive user).batchId_lt hbatch⟩

end RestoredStore

end Store

end FirestoreClient
