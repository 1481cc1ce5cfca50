/-
**The sync engine.**

The sync engine of the Firestore client joins the parts: what users write and what the backend sends
goes to the local store, the local store says which documents may have changed, and each view works
out what this makes of it; what has changed in a view is sent to its listeners, and its documents in
limbo are looked up.

Main definitions:

* `FirestoreClient.SyncEngine` with `step` — the engine and the events it handles;
* `FirestoreClient.SyncEngine.Keeps` — what users and the backend have to keep to;
* `FirestoreClient.SyncEngine.Inv` — what holds of the engine.

Main results:

* `FirestoreClient.SyncEngine.emitNewSnapshots_spec` — **whatever changes in the local store, all
  views are right afterwards**, each listener is told what has changed in its view, and the lookups
  are right;
* `FirestoreClient.SyncEngine.step_spec` — **every event that keeps to the rules goes through, and
  keeps the invariant**.
-/

import TinderFirestore.LimboTracking
import TinderFirestore.LocalQueries

set_option relaxedAutoImplicit false
set_option autoImplicit false

namespace FirestoreClient

variable {κ υ ι : Type*}

/-! ### What users write -/

/-- What users can write without field transforms: the data of a document, or some of its fields
whether it exists or not, or some of its fields if it exists, or that it does not exist. -/
inductive UserWrite (κ : Type*)
  | setData (key : κ) (data : ObjectValue)
  | mergeData (key : κ) (data : ObjectValue) (fieldMask : List FieldPath)
  | updateData (key : κ) (data : ObjectValue) (fieldMask : List FieldPath)
  | deleteDocument (key : κ)

/-- `ToMutations`, with the precondition of the call. -/
def UserWrite.toMutation : UserWrite κ → Mutation κ
  | setData key data => .set key data .none
  | mergeData key data fieldMask => .patch key data fieldMask .none
  | updateData key data fieldMask => .patch key data fieldMask (.exists true)
  | deleteDocument key => .delete key .none

theorem UserWrite.plain (write : UserWrite κ) : write.toMutation.Plain := by
  cases write with
  | setData key data => rfl
  | mergeData key data fieldMask => exact Or.inl rfl
  | updateData key data fieldMask => exact Or.inr rfl
  | deleteDocument key => rfl

/-! ### The engine -/

/-- What the backend sends at once. -/
structure RemoteEvent (κ ι : Type*) where
  snapshotVersion : SnapshotVersion
  targetChanges : AList fun _ : TargetId ι => TargetChange κ
  documentUpdates : MaybeDocumentMap κ ObjectValue

/-- The sync engine with the local store, the views of the queries that are listened to, and the
lookups. -/
structure SyncEngine (υ : Type*) (query : ι → Query κ ObjectValue) where
  localStore : LocalStore κ υ
  queryViewsByQuery : AList fun i : ι => View (query i)
  tracking : LimboTracking κ ι

/-- Snapshots for the listeners of queries. -/
abbrev Snapshots (query : ι → Query κ ObjectValue) := List (Σ i : ι, ViewSnapshot (query i))

/-- What happens to the engine. -/
inductive SyncEvent (κ υ ι : Type*)
  /-- With the documents that an earlier listen has left with the target. -/
  | listen (i : ι) (remoteKeys : Finset κ)
  | stopListening (i : ι)
  | writeMutations (writes : List (UserWrite κ))
  | handleSuccessfulWrite (batchResult : BatchResult)
  | handleRejectedWrite (batchId : ℕ)
  | applyRemoteEvent (remoteEvent : RemoteEvent κ ι)
  | processTargetError (target : TargetId ι)
  | handleCredentialChange (user : υ)
  | handleOnlineStateChange (onlineState : OnlineState)

namespace SyncEngine

variable [LinearOrder κ] [DecidableEq υ] [DecidableEq ι] {query : ι → Query κ ObjectValue}

/-- The client as it starts, with what an earlier session has left in its store. -/
def start (store : RestoredStore κ υ) : SyncEngine υ query where
  localStore := store.toLocalStore
  queryViewsByQuery := ∅
  tracking := .start

/-- The body of the loop of `EmitNewSnapshotsAndNotifyLocalStore` over the views. -/
def emitNewSnapshot (changes : MaybeDocumentMap κ ObjectValue)
    (targetChanges : AList fun _ : TargetId ι => TargetChange κ)
    (x : SyncEngine υ query × Snapshots query) (entry : Σ i : ι, View (query i)) :
    Option (SyncEngine υ query × Snapshots query) :=
  (entry.2.update (x.1.localStore.executeQuery (query entry.1)) changes
      (targetChanges.lookup (.query entry.1))).bind fun (view, viewChange) =>
    (x.1.tracking.updateTrackedLimboDocuments entry.1 viewChange.limboChanges).map fun tracking =>
      ({ x.1 with
          queryViewsByQuery := x.1.queryViewsByQuery.insert entry.1 view
          tracking := tracking },
        x.2 ++ (viewChange.snapshot.map (Sigma.mk entry.1)).toList)

/-- `EmitNewSnapshotsAndNotifyLocalStore`. -/
def emitNewSnapshots (s : SyncEngine υ query) (changes : MaybeDocumentMap κ ObjectValue)
    (targetChanges : AList fun _ : TargetId ι => TargetChange κ) :
    Option (SyncEngine υ query × Snapshots query) :=
  s.queryViewsByQuery.entries.foldlM (emitNewSnapshot changes targetChanges) (s, [])

/-- `Listen`: a new view must have a snapshot and no documents in limbo. -/
def listen (s : SyncEngine υ query) (i : ι) (remoteKeys : Finset κ) :
    Option (SyncEngine υ query × Snapshots query) :=
  if i ∈ s.queryViewsByQuery then none
  else
    (View.initializeView (query i) remoteKeys (s.localStore.executeQuery (query i))).bind
      fun (view, viewChange) =>
        if viewChange.limboChanges.isEmpty then
          viewChange.snapshot.bind fun snapshot =>
            (s.tracking.listen (.query i) none).map fun tracking =>
              ({ s with
                  queryViewsByQuery := s.queryViewsByQuery.insert i view
                  tracking := tracking }, [⟨i, snapshot⟩])
        else none

/-- `RemoveAndCleanupQuery`. -/
def removeAndCleanupQuery (s : SyncEngine υ query) (i : ι) : Option (SyncEngine υ query) :=
  (s.tracking.removeReferences i).map fun tracking =>
    { s with
      queryViewsByQuery := s.queryViewsByQuery.erase i
      tracking := tracking }

/-- `StopListening`. -/
def stopListening (s : SyncEngine υ query) (i : ι) : Option (SyncEngine υ query) :=
  if i ∈ s.queryViewsByQuery then
    (s.tracking.stopListening (.query i)).bind fun tracking =>
      removeAndCleanupQuery { s with tracking := tracking } i
  else none

/-- The views are told what has changed in the local store. -/
def notifyViews (s : SyncEngine υ query)
    (x : LocalStore κ υ × MaybeDocumentMap κ ObjectValue) :
    Option (SyncEngine υ query × Snapshots query) :=
  emitNewSnapshots { s with localStore := x.1 } x.2 ∅

/-- `WriteMutations`. -/
def writeMutations (s : SyncEngine υ query) (writes : List (UserWrite κ)) :
    Option (SyncEngine υ query × Snapshots query) :=
  (s.localStore.writeLocally (writes.map UserWrite.toMutation)).bind s.notifyViews

/-- `HandleSuccessfulWrite`. -/
def handleSuccessfulWrite (s : SyncEngine υ query) (batchResult : BatchResult) :
    Option (SyncEngine υ query × Snapshots query) :=
  (s.localStore.acknowledgeBatch batchResult).bind s.notifyViews

/-- `HandleRejectedWrite`. -/
def handleRejectedWrite (s : SyncEngine υ query) (batchId : ℕ) :
    Option (SyncEngine υ query × Snapshots query) :=
  (s.localStore.rejectBatch batchId).bind s.notifyViews

/-- `HandleCredentialChange`. -/
def handleCredentialChange (s : SyncEngine υ query) (user : υ) :
    Option (SyncEngine υ query × Snapshots query) :=
  if user = s.localStore.currentUser then some (s, [])
  else s.notifyViews (s.localStore.handleUserChange user)

/-- `ApplyRemoteEvent`. -/
def applyRemoteEvent (s : SyncEngine υ query) (remoteEvent : RemoteEvent κ ι) :
    Option (SyncEngine υ query × Snapshots query) :=
  (remoteEvent.targetChanges.entries.foldlM LimboTracking.applyLimboChange s.tracking).bind
    fun tracking =>
      (s.localStore.applyRemoteEvent
        { documentUpdates := remoteEvent.documentUpdates
          snapshotVersion := remoteEvent.snapshotVersion }).bind fun (localStore, changes) =>
        emitNewSnapshots { s with localStore := localStore, tracking := tracking } changes
          remoteEvent.targetChanges

/-- `HandleRejectedListen`: a document in limbo that may not be read is taken to be deleted. -/
def handleRejectedListen (s : SyncEngine υ query) (target : TargetId ι) :
    Option (SyncEngine υ query × Snapshots query) :=
  match target with
  | .limbo n =>
      match s.tracking.limboResolutionsByTarget.lookup n with
      | none => none
      | some limboResolution =>
          let limboKey := limboResolution.key
          applyRemoteEvent { s with tracking := s.tracking.lookupFailed limboKey n }
            { snapshotVersion := .none
              targetChanges := ∅
              documentUpdates := AList.singleton limboKey (.noDocument limboKey .none false) }
  | .query i =>
      if i ∈ s.queryViewsByQuery then (s.removeAndCleanupQuery i).map fun s => (s, [])
      else none

/-- `ProcessTargetError`, for one target: targets that have been removed already are ignored. -/
def processTargetError (s : SyncEngine υ query) (target : TargetId ι) :
    Option (SyncEngine υ query × Snapshots query) :=
  if target ∈ s.tracking.listenTargets then
    handleRejectedListen { s with tracking := s.tracking.targetFailed target } target
  else some (s, [])

/-- The body of the loop of `HandleOnlineStateChange` over the views. -/
def applyOnlineStateChange (onlineState : OnlineState)
    (x : SyncEngine υ query × Snapshots query) (entry : Σ i : ι, View (query i)) :
    Option (SyncEngine υ query × Snapshots query) :=
  (entry.2.applyOnlineStateChange onlineState).bind fun (view, viewChange) =>
    if viewChange.limboChanges.isEmpty then
      some ({ x.1 with queryViewsByQuery := x.1.queryViewsByQuery.insert entry.1 view },
        x.2 ++ (viewChange.snapshot.map (Sigma.mk entry.1)).toList)
    else none

/-- `HandleOnlineStateChange`. -/
def handleOnlineStateChange (s : SyncEngine υ query) (onlineState : OnlineState) :
    Option (SyncEngine υ query × Snapshots query) :=
  s.queryViewsByQuery.entries.foldlM (applyOnlineStateChange onlineState) (s, [])

/-- The engine handles an event; none if an assertion fails. -/
def step (s : SyncEngine υ query) : SyncEvent κ υ ι → Option (SyncEngine υ query × Snapshots query)
  | .listen i remoteKeys => s.listen i remoteKeys
  | .stopListening i => (s.stopListening i).map fun s => (s, [])
  | .writeMutations writes => s.writeMutations writes
  | .handleSuccessfulWrite batchResult => s.handleSuccessfulWrite batchResult
  | .handleRejectedWrite batchId => s.handleRejectedWrite batchId
  | .applyRemoteEvent remoteEvent => s.applyRemoteEvent remoteEvent
  | .processTargetError target => s.processTargetError target
  | .handleCredentialChange user => s.handleCredentialChange user
  | .handleOnlineStateChange onlineState => s.handleOnlineStateChange onlineState

/-! ### What holds of the engine -/

section Lookup

variable {β : ι → Type*} {entries : List (Sigma β)} {i : ι}

theorem dlookup_toList_append_self (snapshot : Option (β i)) (h : entries.dlookup i = none) :
    ((snapshot.map (Sigma.mk i)).toList ++ entries).dlookup i = snapshot := by
  cases snapshot with
  | none => exact h
  | some snapshot => exact List.dlookup_cons_eq _ _ _

theorem dlookup_toList_append_ne (snapshot : Option (β i)) {j : ι} (hne : j ≠ i) :
    ((snapshot.map (Sigma.mk i)).toList ++ entries).dlookup j = entries.dlookup j := by
  cases snapshot with
  | none => rfl
  | some snapshot => exact List.dlookup_cons_ne entries ⟨i, snapshot⟩ hne

end Lookup

section Invariant

omit [DecidableEq υ]

/-- The lookups fit the views: the references are the limbo documents of the views. -/
structure LimboInv (s : SyncEngine υ query) : Prop where
  tracking : s.tracking.Inv (· ∈ s.queryViewsByQuery) fun _ => False
  refs : ∀ key i, (key, i) ∈ s.tracking.limboDocumentRefs ↔
    ∃ view, s.queryViewsByQuery.lookup i = some view ∧ key ∈ view.limboDocuments

/-- **What holds of the engine**: the local store is right, the views are right for what it shows,
and the lookups fit the views. -/
structure Inv (s : SyncEngine υ query) : Prop where
  store : s.localStore.Inv
  views : ∀ i view, s.queryViewsByQuery.lookup i = some view →
    ViewInv view (s.localStore.cached (query i))
  limbo : s.LimboInv

/-- What becomes of the view of each query, and what its listeners are told. -/
abbrev ViewStep (query : ι → Query κ ObjectValue) :=
  (i : ι) → View (query i) → View (query i) → Option (ViewSnapshot (query i)) → Prop

/-- One view has taken its step. -/
structure Updated (R : ViewStep query) (x : SyncEngine υ query × Snapshots query)
    (entry : Σ i : ι, View (query i)) (view : View (query entry.1))
    (snapshot : Option (ViewSnapshot (query entry.1)))
    (x' : SyncEngine υ query × Snapshots query) : Prop where
  localStore : x'.1.localStore = x.1.localStore
  views : x'.1.queryViewsByQuery = x.1.queryViewsByQuery.insert entry.1 view
  snapshots : x'.2 = x.2 ++ (snapshot.map (Sigma.mk entry.1)).toList
  rel : R entry.1 entry.2 view snapshot
  limbo : x'.1.LimboInv
  untracked : ∀ k, x'.1.tracking.Untracked k → x.1.tracking.Untracked k
  continues : x.1.tracking.Continues x'.1.tracking

/-- **A loop over the views**: if in each round one view takes its step, they all have taken it
afterwards, and each listener has been told once. -/
theorem foldlM_views {R : ViewStep query}
    {round : SyncEngine υ query × Snapshots query → (Σ i : ι, View (query i)) →
      Option (SyncEngine υ query × Snapshots query)} {localStore : LocalStore κ υ}
    {entries : List (Σ i : ι, View (query i))} (hnodup : entries.NodupKeys)
    (hround : ∀ x entry, entry ∈ entries → x.1.localStore = localStore → x.1.LimboInv →
      x.1.queryViewsByQuery.lookup entry.1 = some entry.2 →
        ∃ view snapshot x', round x entry = some x' ∧ Updated R x entry view snapshot x')
    {x : SyncEngine υ query × Snapshots query} (hstore : x.1.localStore = localStore)
    (hlimbo : x.1.LimboInv)
    (hlookup : ∀ entry ∈ entries, x.1.queryViewsByQuery.lookup entry.1 = some entry.2) :
    ∃ s' out, entries.foldlM round x = some (s', x.2 ++ out) ∧ s'.localStore = localStore ∧
      s'.LimboInv ∧ (∀ k, s'.tracking.Untracked k → x.1.tracking.Untracked k) ∧
      x.1.tracking.Continues s'.tracking ∧ out.NodupKeys ∧
      (∀ i ∉ entries.keys, s'.queryViewsByQuery.lookup i = x.1.queryViewsByQuery.lookup i ∧
        out.dlookup i = none) ∧
      ∀ entry ∈ entries, ∃ view, s'.queryViewsByQuery.lookup entry.1 = some view ∧
        R entry.1 entry.2 view (out.dlookup entry.1) := by
  induction entries generalizing x with
  | nil =>
      exact ⟨x.1, [], by rw [List.append_nil]; rfl, hstore, hlimbo, fun _ hk => hk,
        .refl _, List.nodupKeys_nil, fun _ _ => ⟨rfl, rfl⟩, fun _ h => absurd h (by simp)⟩
  | cons entry entries ih =>
      rw [List.nodupKeys_cons] at hnodup
      obtain ⟨view, snapshot, x₁, hx₁, hupdated⟩ :=
        hround x entry List.mem_cons_self hstore hlimbo (hlookup entry List.mem_cons_self)
      have hlookup₁ : ∀ entry' ∈ entries,
          x₁.1.queryViewsByQuery.lookup entry'.1 = some entry'.2 := by
        intro entry' hentry'
        have hne : entry'.1 ≠ entry.1 := by
          intro heq
          exact hnodup.1 (heq ▸ List.mem_map_of_mem hentry')
        rw [hupdated.views, AList.lookup_insert_ne hne]
        exact hlookup entry' (List.mem_cons_of_mem _ hentry')
      obtain ⟨s', out, hrun, hstore', hlimbo', huntracked', hcontinues', hout, hother, hviews⟩ :=
        ih hnodup.2 (fun x entry' hentry' => hround x entry' (List.mem_cons_of_mem _ hentry'))
          (hupdated.localStore.trans hstore) hupdated.limbo hlookup₁
      obtain ⟨hview, hnone⟩ := hother entry.1 hnodup.1
      refine ⟨s', (snapshot.map (Sigma.mk entry.1)).toList ++ out, ?_, hstore', hlimbo',
        fun k hk => hupdated.untracked k (huntracked' k hk),
        hupdated.continues.trans hcontinues', ?_, fun i hi => ?_, fun entry' hentry' => ?_⟩
      · rw [List.foldlM_cons, hx₁, ← List.append_assoc, ← hupdated.snapshots]
        exact hrun
      · cases snapshot with
        | none => exact hout
        | some snapshot => exact List.nodupKeys_cons.2 ⟨List.dlookup_eq_none.1 hnone, hout⟩
      · rw [List.keys_cons, List.mem_cons, not_or] at hi
        obtain ⟨hview', hnone'⟩ := hother i hi.2
        rw [hview', hupdated.views, AList.lookup_insert_ne hi.1,
          dlookup_toList_append_ne (β := fun i => ViewSnapshot (query i)) snapshot hi.1]
        exact ⟨rfl, hnone'⟩
      · rcases List.mem_cons.1 hentry' with rfl | hentry'
        · refine ⟨view, ?_, ?_⟩
          · rw [hview, hupdated.views, AList.lookup_insert]
          · rw [dlookup_toList_append_self (β := fun i => ViewSnapshot (query i)) snapshot hnone]
            exact hupdated.rel
        · obtain ⟨view', hview', hrel⟩ := hviews entry' hentry'
          have hne : entry'.1 ≠ entry.1 := by
            intro heq
            exact hnodup.1 (heq ▸ List.mem_map_of_mem hentry')
          rw [dlookup_toList_append_ne (β := fun i => ViewSnapshot (query i)) snapshot hne]
          exact ⟨view', hview', hrel⟩

/-- The view of the query, or a new one if it is not listened to. -/
def oldView (s : SyncEngine υ query) (i : ι) : View (query i) :=
  (s.queryViewsByQuery.lookup i).getD (View.init (query i) ∅)

/-- **What the listeners are told**: those of each query that is listened to get what has changed in
its view, and get it at once; nobody else gets anything. -/
structure Told (s s' : SyncEngine υ query) (snapshots : Snapshots query) : Prop where
  nodup : snapshots.NodupKeys
  told : ∀ i view', s'.queryViewsByQuery.lookup i = some view' →
    SnapshotOf (s.oldView i) view' (snapshots.dlookup i)
  silent : ∀ i ∉ s'.queryViewsByQuery, snapshots.dlookup i = none

/-- **What a step does about the targets**: the remote store has been told what makes them, and what
the backend has sent of each query and each lookup that stays is what it was, with the change. -/
structure TargetsStep (change : TargetId ι → Option (TargetChange κ)) (s s' : SyncEngine υ query) :
    Prop where
  calls : ∃ calls, s'.tracking.calls = s.tracking.calls ++ calls ∧
    calls.foldlM TargetCall.replay s.tracking.listenTargets = some s'.tracking.listenTargets
  views : ∀ i view view', s.queryViewsByQuery.lookup i = some view →
    s'.queryViewsByQuery.lookup i = some view' →
      view'.syncedDocuments = TargetChange.resultsAfter view.syncedDocuments (change (.query i))
  lookups : ∀ n < s.tracking.nextTargetId, ∀ r',
    s'.tracking.limboResolutionsByTarget.lookup n = some r' →
      ∃ r, s.tracking.limboResolutionsByTarget.lookup n = some r ∧
        LimboTracking.resolutionAfter r (change (.limbo n)) = some r'

/-- Views whose results stay, and lookups that have only ended or are new. -/
theorem TargetsStep.of_continues {s s' : SyncEngine υ query}
    {change : TargetId ι → Option (TargetChange κ)}
    (hcontinues : s.tracking.Continues s'.tracking)
    (hviews : ∀ i view view', s.queryViewsByQuery.lookup i = some view →
      s'.queryViewsByQuery.lookup i = some view' → view'.syncedDocuments =
        TargetChange.resultsAfter view.syncedDocuments (change (.query i)))
    (hquiet : ∀ n, change (.limbo n) = none) : TargetsStep change s s' := by
  refine ⟨hcontinues.calls, hviews, fun n hn r' hr' =>
    ⟨r', hcontinues.lookups n hn r' hr', ?_⟩⟩
  rw [hquiet]
  rfl

theorem TargetsStep.refl (s : SyncEngine υ query) : TargetsStep (fun _ => none) s s := by
  refine ⟨⟨[], (List.append_nil _).symm, rfl⟩, fun i view view' hview hview' => ?_,
    fun n _ r hr => ⟨r, hr, rfl⟩⟩
  rw [Option.some.inj (hview.symm.trans hview')]
  rfl

/-- Nobody has to be told anything when the views are the same, but that some may be gone. -/
theorem Told.nothing {s s' : SyncEngine υ query}
    (h : ∀ i view', s'.queryViewsByQuery.lookup i = some view' →
      s.queryViewsByQuery.lookup i = some view') : Told s s' [] := by
  refine ⟨List.nodupKeys_nil, fun i view' hview' => ?_, fun _ _ => rfl⟩
  have hold : s.oldView i = view' := by rw [oldView, h i view' hview', Option.getD_some]
  rw [hold]
  exact .nothing (fun _ => rfl) rfl

/-- **A loop over all views** in which each of them takes its step. -/
theorem foldlM_queryViews {s : SyncEngine υ query} {R : ViewStep query}
    {round : SyncEngine υ query × Snapshots query → (Σ i : ι, View (query i)) →
      Option (SyncEngine υ query × Snapshots query)} (hlimbo : s.LimboInv)
    (hround : ∀ x entry, entry ∈ s.queryViewsByQuery.entries → x.1.localStore = s.localStore →
      x.1.LimboInv → x.1.queryViewsByQuery.lookup entry.1 = some entry.2 →
        ∃ view snapshot x', round x entry = some x' ∧ Updated R x entry view snapshot x')
    (htold : ∀ i old new snapshot, R i old new snapshot → SnapshotOf old new snapshot) :
    ∃ s' snapshots, s.queryViewsByQuery.entries.foldlM round (s, []) = some (s', snapshots) ∧
      s'.localStore = s.localStore ∧ s'.LimboInv ∧ Told s s' snapshots ∧
      (∀ k, s'.tracking.Untracked k → s.tracking.Untracked k) ∧
      s.tracking.Continues s'.tracking ∧
      ∀ i view', s'.queryViewsByQuery.lookup i = some view' → ∃ view snapshot,
        s.queryViewsByQuery.lookup i = some view ∧ R i view view' snapshot := by
  obtain ⟨s', snapshots, hrun, hstore', hlimbo', huntracked, hcontinues, hnodup, hother,
      hupdated⟩ :=
    foldlM_views s.queryViewsByQuery.nodupKeys hround (x := (s, [])) rfl hlimbo
      fun entry hentry => AList.mem_lookup_iff.2 hentry
  have hnone (i : ι) (hi : s.queryViewsByQuery.lookup i = none) :
      s'.queryViewsByQuery.lookup i = none ∧ snapshots.dlookup i = none := by
    obtain ⟨hsame, hsilent⟩ := hother i (List.dlookup_eq_none.1 hi)
    exact ⟨hsame.trans hi, hsilent⟩
  have hall (i : ι) (view' : View (query i))
      (hview' : s'.queryViewsByQuery.lookup i = some view') :
      ∃ view, s.queryViewsByQuery.lookup i = some view ∧
        R i view view' (snapshots.dlookup i) := by
    cases hold : s.queryViewsByQuery.lookup i with
    | none =>
        rw [(hnone i hold).1] at hview'
        exact absurd hview' (by simp)
    | some old =>
        obtain ⟨view, hview, hrel⟩ := hupdated ⟨i, old⟩ (AList.mem_lookup_iff.1 hold)
        obtain rfl := Option.some.inj (hview.symm.trans hview')
        exact ⟨old, rfl, hrel⟩
  refine ⟨s', snapshots, hrun, hstore', hlimbo', ⟨hnodup, fun i view' hview' => ?_,
    fun i hi => ?_⟩, huntracked, hcontinues, fun i view' hview' => ?_⟩
  · obtain ⟨view, hview, hrel⟩ := hall i view' hview'
    rw [oldView, hview, Option.getD_some]
    exact htold i view view' _ hrel
  · cases hold : s.queryViewsByQuery.lookup i with
    | none => exact (hnone i hold).2
    | some old =>
        obtain ⟨view, hview, -⟩ := hupdated ⟨i, old⟩ (AList.mem_lookup_iff.1 hold)
        exact absurd (AList.lookup_isSome.1 (by rw [hview]; rfl)) hi
  · obtain ⟨view, hview, hrel⟩ := hall i view' hview'
    exact ⟨view, _, hview, hrel⟩

/-- The lookups fit the views again when a view has changed together with them. -/
theorem LimboInv.insert {s s' : SyncEngine υ query} (h : s.LimboInv) {i : ι}
    (hi : i ∈ s.queryViewsByQuery) {view : View (query i)}
    (hviews : s'.queryViewsByQuery = s.queryViewsByQuery.insert i view)
    (htracking : s'.tracking.Inv (· ∈ s.queryViewsByQuery) fun _ => False)
    (hself : ∀ k, (k, i) ∈ s'.tracking.limboDocumentRefs ↔ k ∈ view.limboDocuments)
    (hother : ∀ k, ∀ j ≠ i, (k, j) ∈ s'.tracking.limboDocumentRefs ↔
      (k, j) ∈ s.tracking.limboDocumentRefs) : s'.LimboInv := by
  refine ⟨htracking.congr fun j => ?_, fun k j => ?_⟩
  · rw [hviews, AList.mem_insert]
    exact (or_iff_right_of_imp fun heq => heq ▸ hi).symm
  · by_cases hj : j = i
    · subst hj
      rw [hself, hviews, AList.lookup_insert]
      simp
    · rw [hother k j hj, h.refs, hviews, AList.lookup_insert_ne hj]

/-- **Whatever changes in the local store**, and whatever the backend says of the results, all views
are right afterwards, the listeners have been told, and the lookups fit. -/
theorem emitNewSnapshots_spec {s : SyncEngine υ query}
    {cached : (i : ι) → κ → Option (ObjectValue × DocumentState)} (hstore : s.localStore.Inv)
    (hviews : ∀ i view, s.queryViewsByQuery.lookup i = some view → ViewInv view (cached i))
    (hlimbo : s.LimboInv) {changes : MaybeDocumentMap κ ObjectValue} (hkeyed : WellKeyed changes)
    (hchanged : ∀ i, ChangedTo (query i) changes (cached i) (s.localStore.cached (query i)))
    (targetChanges : AList fun _ : TargetId ι => TargetChange κ)
    (hfits : ∀ i view, s.queryViewsByQuery.lookup i = some view →
      view.TargetFits (targetChanges.lookup (.query i))) :
    ∃ s' snapshots, s.emitNewSnapshots changes targetChanges = some (s', snapshots) ∧ s'.Inv ∧
      Told s s' snapshots ∧ (∀ k, s'.tracking.Untracked k → s.tracking.Untracked k) ∧
      s'.localStore = s.localStore ∧ s.tracking.Continues s'.tracking ∧
      ∀ i view', s'.queryViewsByQuery.lookup i = some view' → ∃ view,
        s.queryViewsByQuery.lookup i = some view ∧
          ResultsStep (targetChanges.lookup (.query i)) view view' := by
  have hentries (entry : Σ i : ι, View (query i)) (h : entry ∈ s.queryViewsByQuery.entries) :
      s.queryViewsByQuery.lookup entry.1 = some entry.2 := AList.mem_lookup_iff.2 h
  have hround (x : SyncEngine υ query × Snapshots query) (entry : Σ i : ι, View (query i))
      (hentry : entry ∈ s.queryViewsByQuery.entries) (hx : x.1.localStore = s.localStore)
      (hxlimbo : x.1.LimboInv) (hxview : x.1.queryViewsByQuery.lookup entry.1 = some entry.2) :
      ∃ view snapshot x', emitNewSnapshot changes targetChanges x entry = some x' ∧
        Updated (fun i old new snapshot => ViewInv new (s.localStore.cached (query i)) ∧
          SnapshotOf old new snapshot ∧ ResultsStep (targetChanges.lookup (.query i)) old new)
          x entry view snapshot x' := by
    have hexecuted : Executes (query entry.1) (x.1.localStore.executeQuery (query entry.1))
        (s.localStore.cached (query entry.1)) := by
      rw [hx]
      exact LocalStore.executeQuery_spec hstore (query entry.1)
    obtain ⟨view, viewChange, hupdate, hinv, htold, hdiff, hkept⟩ :=
      View.update_spec (hviews entry.1 entry.2 (hentries entry hentry)) hkeyed
        (hchanged entry.1) hexecuted (hfits entry.1 entry.2 (hentries entry hentry))
    obtain ⟨tracking, htrack, htracking, hself, hrefs, hk⟩ :=
      LimboTracking.updateTrackedLimboDocuments_spec hxlimbo.tracking hdiff
        (fun k => by rw [hxlimbo.refs, hxview]; simp)
    have hmem : entry.1 ∈ x.1.queryViewsByQuery := AList.lookup_isSome.1 (by rw [hxview]; rfl)
    refine ⟨view, viewChange.snapshot,
      ({ x.1 with
          queryViewsByQuery := x.1.queryViewsByQuery.insert entry.1 view
          tracking := tracking },
        x.2 ++ (viewChange.snapshot.map (Sigma.mk entry.1)).toList), ?_, rfl, rfl, rfl,
      ⟨hinv, htold, hkept⟩, hxlimbo.insert hmem rfl htracking hself hrefs, hk,
      .updateTrackedLimboDocuments htrack⟩
    simp only [emitNewSnapshot, hupdate, Option.bind_some, htrack, Option.map_some]
  obtain ⟨s', snapshots, hrun, hstore', hlimbo', htold, huntracked, hcontinues, hrel⟩ :=
    foldlM_queryViews hlimbo hround fun _ _ _ _ h => h.2.1
  refine ⟨s', snapshots, hrun, ⟨hstore' ▸ hstore, fun i view' hview' => ?_, hlimbo'⟩, htold,
    huntracked, hstore', hcontinues, fun i view' hview' => ?_⟩
  · obtain ⟨-, -, -, hinv, -⟩ := hrel i view' hview'
    exact hstore' ▸ hinv
  · obtain ⟨view, -, hview, -, -, hkept⟩ := hrel i view' hview'
    exact ⟨view, hview, hkept⟩

end Invariant

/-! ### What users and the backend keep to -/

/-- **The rules**: a query is listened to once at a time; a batch of writes is not empty and writes
no document twice; the backend answers the first batch of the queue with one result for each write;
what it sends fits the local store, the lookups and the views.

Nothing keeps users from writing a document twice in a batch.  The local store then applies the
batch to the document as many times before it tells the views, which may find another document when
they look at the whole cache, and stop. -/
def Keeps (s : SyncEngine υ query) : SyncEvent κ υ ι → Prop
  | .listen i _ => i ∉ s.queryViewsByQuery
  | .stopListening i => i ∈ s.queryViewsByQuery
  | .writeMutations writes =>
      writes ≠ [] ∧ ((writes.map UserWrite.toMutation).map Mutation.key).Nodup
  | .handleSuccessfulWrite batchResult => ∃ batch rest,
      s.localStore.mutationQueue.queue = batch :: rest ∧ batch.batchId = batchResult.batchId ∧
        batch.mutations.length = batchResult.mutationResults.length
  | .handleRejectedWrite batchId => ∃ batch rest,
      s.localStore.mutationQueue.queue = batch :: rest ∧ batch.batchId = batchId
  | .applyRemoteEvent remoteEvent =>
      s.localStore.Fits
        { documentUpdates := remoteEvent.documentUpdates
          snapshotVersion := remoteEvent.snapshotVersion } ∧
      (∀ kv ∈ remoteEvent.targetChanges.entries, s.tracking.LookupFits kv) ∧
      ∀ i view, s.queryViewsByQuery.lookup i = some view →
        view.TargetFits (remoteEvent.targetChanges.lookup (.query i))
  | .processTargetError _ => True
  | .handleCredentialChange _ => True
  | .handleOnlineStateChange _ => True

/-! ### Whether an event keeps to the rules can be computed -/

section Decidable

theorem forall_lookup_iff {α : Type*} [DecidableEq α] {β : α → Type*} {docs : AList β}
    {p : ∀ k, β k → Prop} :
    (∀ k doc, docs.lookup k = some doc → p k doc) ↔ ∀ entry ∈ docs.entries, p entry.1 entry.2 :=
  ⟨fun h entry hentry => h entry.1 entry.2 (AList.mem_lookup_iff.2 hentry),
    fun h k doc hdoc => h ⟨k, doc⟩ (AList.mem_lookup_iff.1 hdoc)⟩

instance (docs : MaybeDocumentMap κ ObjectValue) : Decidable (WellKeyed docs) :=
  decidable_of_iff (∀ entry ∈ docs.entries, entry.2.key = entry.1)
    (forall_lookup_iff (p := fun k (doc : MaybeDocument κ ObjectValue) => doc.key = k)).symm

/-- Access to all documents has been lost. -/
theorem forall_accessLost_iff {docs : MaybeDocumentMap κ ObjectValue} :
    (∀ k doc, docs.lookup k = some doc → doc.accessLost = true) ↔
      ∀ entry ∈ docs.entries, entry.2.accessLost = true :=
  forall_lookup_iff (p := fun _ (doc : MaybeDocument κ ObjectValue) => doc.accessLost = true)

instance (localStore : LocalStore κ υ) (event : RemoteUpdate κ) :
    Decidable (localStore.Fits event) :=
  decidable_of_iff (WellKeyed event.documentUpdates ∧
    (event.snapshotVersion = .none →
      ∀ entry ∈ event.documentUpdates.entries, entry.2.accessLost = true) ∧
    (event.snapshotVersion ≠ .none →
      localStore.lastRemoteSnapshotVersion ≤ event.snapshotVersion))
    ⟨fun h => ⟨h.1, fun hnone => forall_accessLost_iff.2 (h.2.1 hnone), h.2.2⟩,
      fun h => ⟨h.wellKeyed, fun hnone => forall_accessLost_iff.1 (h.versioned hnone),
        h.monotone⟩⟩

instance (tracking : LimboTracking κ ι) (kv : Σ _ : TargetId ι, TargetChange κ) :
    Decidable (tracking.LookupFits kv) :=
  match hkv : kv.1 with
  | .query i => isTrue fun n _ hn => absurd (hkv.symm.trans hn) (by simp)
  | .limbo n =>
    decidable_of_iff (∀ r ∈ tracking.limboResolutionsByTarget.lookup n,
        (LimboTracking.documentReceived r kv.2).isSome)
      ⟨fun h n' r hn' hr => by
        obtain rfl := TargetId.limbo.inj (hkv.symm.trans hn')
        exact h r hr, fun h r hr => h n r hkv hr⟩

instance {q : Query κ ObjectValue} (view : View q) (targetChange : Option (TargetChange κ)) :
    Decidable (view.TargetFits targetChange) :=
  inferInstanceAs (Decidable (∀ c ∈ targetChange,
    c.modifiedDocuments ⊆ view.syncedDocuments ∪ c.addedDocuments))

/-- The first batch of a queue. -/
theorem exists_cons_iff {α : Type*} {queue : List α} {p : α → Prop} :
    (∃ batch rest, queue = batch :: rest ∧ p batch) ↔ ∃ batch ∈ queue.head?, p batch := by
  cases queue <;> simp

instance decidableKeeps (s : SyncEngine υ query) :
    (event : SyncEvent κ υ ι) → Decidable (s.Keeps event)
  | .listen i _ => inferInstanceAs (Decidable (i ∉ s.queryViewsByQuery))
  | .stopListening i => inferInstanceAs (Decidable (i ∈ s.queryViewsByQuery))
  | .writeMutations writes => inferInstanceAs (Decidable (writes ≠ [] ∧
      ((writes.map UserWrite.toMutation).map Mutation.key).Nodup))
  | .handleSuccessfulWrite batchResult => decidable_of_iff
      (∃ batch ∈ s.localStore.mutationQueue.queue.head?, batch.batchId = batchResult.batchId ∧
        batch.mutations.length = batchResult.mutationResults.length) exists_cons_iff.symm
  | .handleRejectedWrite batchId => decidable_of_iff
      (∃ batch ∈ s.localStore.mutationQueue.queue.head?, batch.batchId = batchId)
      exists_cons_iff.symm
  | .applyRemoteEvent remoteEvent => decidable_of_iff
      (s.localStore.Fits
          { documentUpdates := remoteEvent.documentUpdates
            snapshotVersion := remoteEvent.snapshotVersion } ∧
        (∀ kv ∈ remoteEvent.targetChanges.entries, s.tracking.LookupFits kv) ∧
        ∀ entry ∈ s.queryViewsByQuery.entries,
          entry.2.TargetFits (remoteEvent.targetChanges.lookup (.query entry.1)))
      (and_congr_right' (and_congr_right' (forall_lookup_iff (p := fun i (view : View (query i)) =>
        view.TargetFits (remoteEvent.targetChanges.lookup (.query i)))).symm))
  | .processTargetError _ => isTrue trivial
  | .handleCredentialChange _ => isTrue trivial
  | .handleOnlineStateChange _ => isTrue trivial

end Decidable

section Steps

variable {s : SyncEngine υ query}

omit [DecidableEq υ]

/-- **Once the local store has reported what has changed**, all views are brought up to date. -/
theorem notifyViews_spec (h : s.Inv) {localStore : LocalStore κ υ}
    {changes : MaybeDocumentMap κ ObjectValue} (hstore : localStore.Inv)
    (hreports : LocalStore.Reports s.localStore localStore changes) :
    ∃ s' snapshots, s.notifyViews (localStore, changes) = some (s', snapshots) ∧ s'.Inv ∧
      Told s s' snapshots ∧ (∀ k, s'.tracking.Untracked k → s.tracking.Untracked k) ∧
      TargetsStep (fun _ => none) s s' := by
  obtain ⟨s', snapshots, hrun, hinv, htold, huntracked, -, hcontinues, hkept⟩ :=
    emitNewSnapshots_spec (s := { s with localStore := localStore }) hstore h.views
      ⟨h.limbo.tracking, h.limbo.refs⟩ hreports.wellKeyed
      (fun i => hreports.changedTo (query i)) ∅ fun _ _ _ _ hc => absurd hc (by simp)
  refine ⟨s', snapshots, hrun, hinv, ⟨htold.nodup, htold.told, htold.silent⟩, huntracked,
    .of_continues hcontinues (fun i view view' hview hview' => ?_) fun _ => rfl⟩
  obtain ⟨view₁, hview₁, hstep⟩ := hkept i view' hview'
  obtain rfl := Option.some.inj (hview.symm.trans hview₁)
  exact hstep.synced

/-- A new view is right, and its listeners get their first snapshot. -/
theorem listen_spec (h : s.Inv) {i : ι} (hi : i ∉ s.queryViewsByQuery) (remoteKeys : Finset κ) :
    ∃ s' snapshots, s.listen i remoteKeys = some (s', snapshots) ∧ s'.Inv ∧
      Told s s' snapshots ∧ (∀ k, s'.tracking.Untracked k → s.tracking.Untracked k) ∧
      TargetsStep (fun _ => none) s s' := by
  obtain ⟨view, viewChange, hinit, hinv, htold, hsome, hno, hempty, -⟩ :=
    View.initializeView_spec remoteKeys
      (LocalStore.executeQuery_spec h.store (query i))
  obtain ⟨snapshot, hsnapshot⟩ := Option.isSome_iff_exists.1 hsome
  obtain ⟨tracking, hlisten, htracking, hrefs, htargets⟩ :=
    LimboTracking.listen_query_spec h.limbo.tracking hi
  have hnone : s.queryViewsByQuery.lookup i = none := AList.lookup_eq_none.2 hi
  have hother (j : ι) (hj : j ≠ i) : List.dlookup j ([⟨i, snapshot⟩] : Snapshots query) = none :=
    dlookup_toList_append_ne (β := fun i => ViewSnapshot (query i)) (some snapshot) hj
  set s' : SyncEngine υ query :=
    { s with
      queryViewsByQuery := s.queryViewsByQuery.insert i view
      tracking := tracking } with hs'
  refine ⟨s', [⟨i, snapshot⟩], ?_, ⟨h.store, fun j view' hview' => ?_, ?_, fun k j => ?_⟩,
    ⟨List.nodupKeys_singleton _, fun j view' hview' => ?_, fun j hj => ?_⟩, fun k hk => ?_,
    .of_continues (.listen hlisten) (fun j view₁ view' hview₁ hview' => ?_) fun _ => rfl⟩
  · rw [listen, if_neg hi, hinit]
    simp only [Option.bind_some, hno, List.isEmpty_nil, if_true, hsnapshot, hlisten,
      Option.map_some]
    rfl
  · by_cases hj : j = i
    · subst hj
      rw [hs', AList.lookup_insert] at hview'
      exact Option.some.inj hview' ▸ hinv
    · rw [hs', AList.lookup_insert_ne hj] at hview'
      exact h.views j view' hview'
  · exact htracking.congr fun j => (AList.mem_insert _).symm
  · rw [hs']
    change (k, j) ∈ tracking.limboDocumentRefs ↔ _
    rw [hrefs, h.limbo.refs]
    by_cases hj : j = i
    · subst hj
      rw [hnone, AList.lookup_insert]
      simp [hempty]
    · rw [AList.lookup_insert_ne hj]
  · by_cases hj : j = i
    · subst hj
      rw [hs', AList.lookup_insert] at hview'
      obtain rfl := Option.some.inj hview'
      rw [List.dlookup_cons_eq, oldView, hnone, Option.getD_none, ← hsnapshot]
      exact htold.of_eq rfl rfl
    · rw [hs', AList.lookup_insert_ne hj] at hview'
      rw [hother j hj, oldView, hview', Option.getD_some]
      exact .nothing (fun _ => rfl) rfl
  · rw [hs', AList.mem_insert, not_or] at hj
    exact hother j hj.1
  · obtain ⟨⟨r, hr, hrkey⟩, hno⟩ := hk
    rw [hs'] at hr hno
    simp only [hrefs, htargets] at hr hno
    exact ⟨⟨r, hr, hrkey⟩, hno⟩
  · have hj : j ≠ i := by
      rintro rfl
      exact absurd (hnone.symm.trans hview₁) (by simp)
    rw [hs', AList.lookup_insert_ne hj, hview₁] at hview'
    rw [← Option.some.inj hview']
    rfl

/-- When a query is not listened to any more, its view and the lookups for it alone go away. -/
theorem removeAndCleanupQuery_spec (h : s.Inv) (i : ι) (calls : List (TargetCall κ ι)) :
    ∃ s', removeAndCleanupQuery { s with
        tracking := { s.tracking.targetFailed (.query i) with calls := calls } } i = some s' ∧
      s'.Inv ∧ Told s s' [] ∧ (∀ k, s'.tracking.Untracked k → s.tracking.Untracked k) ∧
      TargetsStep (fun _ => none) { s with
        tracking := { s.tracking.targetFailed (.query i) with calls := calls } } s' := by
  have hfailed := LimboTracking.targetFailed_query_spec h.limbo.tracking i
  obtain ⟨tracking, hremove, htracking, hrefs, huntracked⟩ :=
    LimboTracking.removeReferences_spec (s := { s.tracking.targetFailed (.query i) with
      calls := calls }) ⟨hfailed.target_iff, hfailed.used, hfailed.lookups, hfailed.queries,
        hfailed.documents, hfailed.referenced⟩ i
  have hsub (j : ι) (view : View (query j))
      (hview : (s.queryViewsByQuery.erase i).lookup j = some view) :
      j ≠ i ∧ s.queryViewsByQuery.lookup j = some view := by
    by_cases hj : j = i
    · subst hj
      rw [AList.lookup_erase] at hview
      exact absurd hview (by simp)
    · rw [AList.lookup_erase_ne hj] at hview
      exact ⟨hj, hview⟩
  set s' : SyncEngine υ query :=
    { s with
      queryViewsByQuery := s.queryViewsByQuery.erase i
      tracking := tracking } with hs'
  refine ⟨s', ?_, ⟨h.store, fun j view hview => h.views j view (hsub j view hview).2, ?_,
    fun k j => ?_⟩, Told.nothing fun j view hview => (hsub j view hview).2, fun k hk => ?_,
    (LimboTracking.Continues.removeReferences hremove).calls,
    fun j view view' hview hview' => ?_, fun n hn r' hr' => ⟨r',
      (LimboTracking.Continues.removeReferences hremove).lookups n hn r' hr', rfl⟩⟩
  · simp only [removeAndCleanupQuery, hremove, Option.map_some]
    rfl
  · exact htracking.congr fun j => AList.mem_erase.symm
  · rw [hs']
    change (k, j) ∈ tracking.limboDocumentRefs ↔ _
    rw [hrefs]
    change (k, j) ∈ s.tracking.limboDocumentRefs ∧ j ≠ i ↔ _
    rw [h.limbo.refs]
    by_cases hj : j = i
    · subst hj
      rw [AList.lookup_erase]
      simp
    · rw [AList.lookup_erase_ne hj]
      exact and_iff_left hj
  · exact huntracked k hk
  · rw [Option.some.inj (hview.symm.trans (hsub j view' hview').2)]
    rfl

/-- **What the backend sends** goes to the lookups, to the local store and to the views. -/
theorem applyRemoteEvent_spec (h : s.Inv) (remoteEvent : RemoteEvent κ ι)
    (hkeeps : s.localStore.Fits
      { documentUpdates := remoteEvent.documentUpdates
        snapshotVersion := remoteEvent.snapshotVersion })
    (hlookups : ∀ kv ∈ remoteEvent.targetChanges.entries, s.tracking.LookupFits kv)
    (hfits : ∀ i view, s.queryViewsByQuery.lookup i = some view →
      view.TargetFits (remoteEvent.targetChanges.lookup (.query i))) :
    ∃ s' snapshots, s.applyRemoteEvent remoteEvent = some (s', snapshots) ∧ s'.Inv ∧
      Told s s' snapshots ∧ (∀ k, s'.tracking.Untracked k → s.tracking.Untracked k) ∧
      (∃ changes, s.localStore.applyRemoteEvent
        { documentUpdates := remoteEvent.documentUpdates
          snapshotVersion := remoteEvent.snapshotVersion } = some (s'.localStore, changes)) ∧
      TargetsStep (fun target => remoteEvent.targetChanges.lookup target) s s' ∧
      ∀ i view', s'.queryViewsByQuery.lookup i = some view' → ∃ view,
        s.queryViewsByQuery.lookup i = some view ∧
          ResultsStep (remoteEvent.targetChanges.lookup (.query i)) view view' := by
  obtain ⟨tracking, hloop, htracking, hlookup⟩ :=
    LimboTracking.applyLimboChanges_run h.limbo.tracking remoteEvent.targetChanges.nodupKeys
      hlookups
  obtain ⟨localStore, changes, happly, hstore, hreports⟩ :=
    LocalStore.applyRemoteEvent_spec h.store hkeeps
  obtain ⟨s', snapshots, hrun, hinv, htold, huntracked, hsame, hcontinues, hkept⟩ :=
    emitNewSnapshots_spec (s := { s with localStore := localStore, tracking := tracking })
      hstore h.views ⟨htracking, fun k i => hlookup.limboDocumentRefs ▸ h.limbo.refs k i⟩
      hreports.wellKeyed (fun i => hreports.changedTo (query i)) remoteEvent.targetChanges hfits
  refine ⟨s', snapshots, ?_, hinv, ⟨htold.nodup, htold.told, htold.silent⟩, fun k hk => ?_,
    ⟨changes, happly.trans (by rw [hsame])⟩, ⟨?_, fun i view view' hview hview' => ?_,
      fun n hn r' hr' => ?_⟩, hkept⟩
  · simp only [applyRemoteEvent, hloop, Option.bind_some, happly]
    exact hrun
  · obtain ⟨⟨r, hr, hrkey⟩, hno⟩ := huntracked k hk
    simp only [hlookup.limboDocumentRefs, hlookup.limboTargetsByKey] at hr hno
    exact ⟨⟨r, hr, hrkey⟩, hno⟩
  · obtain ⟨calls, hcalls, hreplay⟩ := hcontinues.calls
    refine ⟨calls, hcalls.trans ?_, Eq.trans ?_ hreplay⟩
    · rw [hlookup.calls]
    · exact congrArg (fun targets => calls.foldlM TargetCall.replay targets)
        hlookup.listenTargets.symm
  · obtain ⟨view₁, hview₁, hstep⟩ := hkept i view' hview'
    obtain rfl := Option.some.inj (hview.symm.trans hview₁)
    exact hstep.synced
  · have hr₁ := hcontinues.lookups n (hlookup.nextTargetId ▸ hn) r' hr'
    have hmem : n ∈ s.tracking.limboResolutionsByTarget := by
      rw [h.limbo.tracking.isSome_iff, ← hlookup.limboTargetsByKey, ← htracking.isSome_iff]
      exact AList.lookup_isSome.1 (Option.isSome_iff_exists.2 ⟨r', hr₁⟩)
    obtain ⟨r, hr⟩ := Option.isSome_iff_exists.1 (AList.lookup_isSome.2 hmem)
    exact ⟨r, hr, (hlookup.lookups n r hr).symm.trans hr₁⟩

/-- What the backend says about the targets. -/
def targetChange : SyncEvent κ υ ι → TargetId ι → Option (TargetChange κ)
  | .applyRemoteEvent remoteEvent => fun target => remoteEvent.targetChanges.lookup target
  | _ => fun _ => none

/-- The engine when the remote store has forgotten a target that the backend refuses. -/
def forgetRefused (s : SyncEngine υ query) : SyncEvent κ υ ι → SyncEngine υ query
  | .processTargetError target =>
      if target ∈ s.tracking.listenTargets then
        { s with tracking := s.tracking.targetFailed target }
      else s
  | _ => s

/-- A lookup is refused while its document is in limbo in a view of which the backend has not sent
everything. -/
def RefusedEarly (s : SyncEngine υ query) (event : SyncEvent κ υ ι) (key : κ) : Prop :=
  ∃ n limboResolution i view, event = .processTargetError (.limbo n) ∧
    s.tracking.limboResolutionsByTarget.lookup n = some limboResolution ∧
      limboResolution.key = key ∧ s.queryViewsByQuery.lookup i = some view ∧
        view.current = false ∧ key ∈ view.limboDocuments

omit [DecidableEq ι] in
/-- A document with local changes alone is in limbo in no view of which the backend has sent
everything. -/
theorem not_mem_limboDocuments {i : ι} {view : View (query i)} {localStore : LocalStore κ υ}
    (h : ViewInv view (localStore.cached (query i))) (hcurrent : view.current = true) {key : κ}
    (hlocal : ∀ d, KnownDocument.document (localStore.getDocument key) = some d →
      d.hasLocalMutations = true) : key ∉ view.limboDocuments := by
  rw [h.settled.limbo hcurrent, View.newLimboDocuments, List.mem_insertionSort, List.mem_filter]
  rintro ⟨-, hlimbo⟩
  unfold View.shouldBeInLimbo at hlimbo
  split_ifs at hlimbo
  split at hlimbo
  · exact absurd hlimbo (by simp)
  · next d hd =>
      obtain ⟨c, hc, -, hstate⟩ := h.documents.reflects key d hd
      obtain ⟨d', hd', rfl⟩ := Option.map_eq_some_iff.1 hc
      have hmutated := hlocal d' (Option.filter_eq_some_iff.1 hd').1
      rw [hstate (of_decide_eq_true hmutated)] at hlimbo
      exact absurd hlimbo (by simp)

/-- **When the backend refuses a target**: a query is not listened to any more; a document in limbo
is taken to be deleted, and is in limbo no longer in the views of which the backend has sent
everything. -/
theorem processTargetError_spec (h : s.Inv) (target : TargetId ι) :
    ∃ s' snapshots, s.processTargetError target = some (s', snapshots) ∧ s'.Inv ∧
      Told s s' snapshots ∧ (∀ k, s'.tracking.Untracked k →
        s.tracking.Untracked k ∨ s.RefusedEarly (υ := υ) (.processTargetError target) k) ∧
      TargetsStep (fun _ => none) (s.forgetRefused (υ := υ) (.processTargetError target)) s' := by
  unfold processTargetError
  split
  · next hmem =>
      have hforget : s.forgetRefused (υ := υ) (.processTargetError target) =
          { s with tracking := s.tracking.targetFailed target } := if_pos hmem
      rw [hforget]
      cases target with
      | query i =>
          have hi : i ∈ s.queryViewsByQuery := (h.limbo.tracking.queries i).1 hmem
          obtain ⟨s', hremove, hinv, htold, huntracked, htargets⟩ :=
            removeAndCleanupQuery_spec h i s.tracking.calls
          refine ⟨s', [], ?_, hinv, htold, fun k hk => Or.inl (huntracked k hk), htargets⟩
          simp only [handleRejectedListen, if_pos hi]
          exact congrArg (Option.map fun s => (s, [])) hremove
      | limbo n =>
          obtain ⟨limboResolution, hlookup⟩ := Option.isSome_iff_exists.1
            (AList.lookup_isSome.2 ((h.limbo.tracking.lookups n).1 hmem))
          have htracking := LimboTracking.lookupFailed_spec h.limbo.tracking hlookup
          obtain ⟨s', snapshots, hrun, hinv, htold, huntracked, ⟨changes, happly⟩, htargets,
              hkept⟩ :=
            applyRemoteEvent_spec
              (s := { s with
                tracking := (s.tracking.targetFailed (.limbo n)).lookupFailed
                  limboResolution.key n })
              ⟨h.store, h.views, htracking, h.limbo.refs⟩
              { snapshotVersion := .none
                targetChanges := ∅
                documentUpdates := AList.singleton limboResolution.key
                  (.noDocument limboResolution.key .none false) }
              (s.localStore.fits_deleted limboResolution.key)
              (fun kv hkv => absurd hkv (by simp)) fun _ _ _ c hc => absurd hc (by simp)
          refine ⟨s', snapshots, ?_, hinv, ⟨htold.nodup, htold.told, htold.silent⟩,
            fun k hk => ?_, htargets.calls, htargets.views, fun n' hn' r' hr' => ?_⟩
          · have hfailed : (s.tracking.targetFailed (.limbo n)).limboResolutionsByTarget.lookup n =
                some limboResolution := hlookup
            simp only [handleRejectedListen, hfailed]
            exact hrun
          · obtain ⟨hreferenced, hno⟩ := huntracked k hk
            by_cases hkey : k = limboResolution.key
            · obtain ⟨⟨k', i⟩, hr, hrkey⟩ := hk.1
              obtain rfl : k' = k := hrkey
              obtain ⟨view', hview', hlimbo'⟩ := (hinv.limbo.refs k' i).1 hr
              obtain ⟨view, hview, -, hlimbo, hcurrent⟩ := hkept i view' hview'
              have hcurrent' : view'.current = false := by
                rw [← Bool.not_eq_true]
                intro htrue
                exact not_mem_limboDocuments (hinv.views i view' hview') htrue
                  (fun d hd => LocalStore.applyRemoteEvent_deleted happly (hkey ▸ hd)) hlimbo'
              exact Or.inr ⟨n, limboResolution, i, view, rfl, hlookup, hkey.symm, hview,
                (hcurrent (AList.lookup_empty _)).symm.trans hcurrent',
                hlimbo hcurrent' ▸ hlimbo'⟩
            · exact Or.inl ⟨hreferenced, fun hmem' => hno (AList.mem_erase.2 ⟨hkey, hmem'⟩)⟩
          · obtain ⟨r, hr, hafter⟩ := htargets.lookups n' hn' r' hr'
            refine ⟨r, ?_, hafter⟩
            by_cases hne : n' = n
            · subst hne
              exact absurd (hr.symm.trans (AList.lookup_erase _ _)) (by simp)
            · exact (AList.lookup_erase_ne hne).symm.trans hr
  · next hmem =>
      have hforget : s.forgetRefused (υ := υ) (.processTargetError target) = s := if_neg hmem
      rw [hforget]
      exact ⟨s, [], rfl, h, Told.nothing fun _ _ hview => hview, fun _ hk => Or.inl hk, .refl s⟩

/-- **Going online or offline** concerns the sync states of the views alone. -/
theorem handleOnlineStateChange_spec (h : s.Inv) (onlineState : OnlineState) :
    ∃ s' snapshots, s.handleOnlineStateChange onlineState = some (s', snapshots) ∧ s'.Inv ∧
      Told s s' snapshots ∧ (∀ k, s'.tracking.Untracked k → s.tracking.Untracked k) ∧
      TargetsStep (fun _ => none) s s' := by
  have hround (x : SyncEngine υ query × Snapshots query) (entry : Σ i : ι, View (query i))
      (hentry : entry ∈ s.queryViewsByQuery.entries) (hx : x.1.localStore = s.localStore)
      (hxlimbo : x.1.LimboInv) (hxview : x.1.queryViewsByQuery.lookup entry.1 = some entry.2) :
      ∃ view snapshot x', applyOnlineStateChange onlineState x entry = some x' ∧
        Updated (fun i old new snapshot => ViewInv new (s.localStore.cached (query i)) ∧
          SnapshotOf old new snapshot ∧ new.syncedDocuments = old.syncedDocuments)
          x entry view snapshot x' := by
    obtain ⟨view, viewChange, happly, hinv, htold, hno, hlimbo, hsynced⟩ :=
      View.applyOnlineStateChange_spec
        (h.views entry.1 entry.2 (AList.mem_lookup_iff.2 hentry)) onlineState
    have hmem : entry.1 ∈ x.1.queryViewsByQuery := AList.lookup_isSome.1 (by rw [hxview]; rfl)
    refine ⟨view, viewChange.snapshot,
      ({ x.1 with queryViewsByQuery := x.1.queryViewsByQuery.insert entry.1 view },
        x.2 ++ (viewChange.snapshot.map (Sigma.mk entry.1)).toList), ?_, rfl, rfl, rfl,
      ⟨hinv, htold, hsynced⟩, hxlimbo.insert hmem rfl hxlimbo.tracking (fun k => ?_)
        (fun _ _ _ => Iff.rfl), fun _ hk => hk, .refl _⟩
    · simp only [applyOnlineStateChange, happly, Option.bind_some, hno, List.isEmpty_nil, if_true]
    · rw [hxlimbo.refs, hxview, hlimbo]
      simp
  obtain ⟨s', snapshots, hrun, hstore', hlimbo', htold, huntracked, hcontinues, hrel⟩ :=
    foldlM_queryViews h.limbo hround fun _ _ _ _ h => h.2.1
  refine ⟨s', snapshots, hrun, ⟨hstore' ▸ h.store, fun i view' hview' => ?_, hlimbo'⟩, htold,
    huntracked, .of_continues hcontinues (fun i view view' hview hview' => ?_) fun _ => rfl⟩
  · obtain ⟨-, -, -, hinv, -⟩ := hrel i view' hview'
    exact hstore' ▸ hinv
  · obtain ⟨view₁, -, hview₁, -, -, hsynced⟩ := hrel i view' hview'
    rw [Option.some.inj (hview.symm.trans hview₁)]
    exact hsynced

end Steps

/-- **Every event that keeps to the rules goes through** and keeps the invariant; the listeners are
told what has changed; documents in limbo are looked up as before, unless a lookup is refused too
early; and the remote store is told what makes its targets. -/
theorem step_spec {s : SyncEngine υ query} (h : s.Inv) {event : SyncEvent κ υ ι}
    (hkeeps : s.Keeps event) :
    ∃ s' snapshots, s.step event = some (s', snapshots) ∧ s'.Inv ∧ Told s s' snapshots ∧
      (∀ k, s'.tracking.Untracked k → s.tracking.Untracked k ∨ s.RefusedEarly event k) ∧
      TargetsStep (targetChange event) (s.forgetRefused event) s' := by
  cases event with
  | listen i remoteKeys =>
      obtain ⟨s', snapshots, hstep, hinv, htold, hk, htargets⟩ := listen_spec h hkeeps remoteKeys
      exact ⟨s', snapshots, hstep, hinv, htold, fun k hk' => Or.inl (hk k hk'), htargets⟩
  | stopListening i =>
      obtain ⟨s', hremove, hinv, htold, hk, htargets⟩ := removeAndCleanupQuery_spec h i
        (s.tracking.calls ++ [.stopListening (.query i)])
      have hstop := LimboTracking.stopListening_query h.limbo.tracking hkeeps
      refine ⟨s', [], ?_, hinv, htold, fun k hk' => Or.inl (hk k hk'), ?_, htargets.views,
        htargets.lookups⟩
      · simp only [step, stopListening, if_pos (show i ∈ s.queryViewsByQuery from hkeeps), hstop,
          Option.bind_some, hremove, Option.map_some]
      · obtain ⟨calls, hcalls, hreplay⟩ := htargets.calls
        refine ⟨.stopListening (.query i) :: calls, ?_, ?_⟩
        · rw [hcalls, List.append_assoc]
          rfl
        · have hlistening : .query i ∈ s.tracking.listenTargets :=
            (h.limbo.tracking.queries i).2 hkeeps
          rw [List.foldlM_cons, TargetCall.replay]
          exact (congrArg (· >>= _) (if_pos hlistening)).trans hreplay
  | writeMutations writes =>
      obtain ⟨hne, hnodup⟩ := hkeeps
      have hplain : ∀ m ∈ writes.map UserWrite.toMutation, m.Plain := by
        intro m hm
        obtain ⟨write, -, rfl⟩ := List.mem_map.1 hm
        exact write.plain
      obtain ⟨localStore, changes, hwrite, hstore, hreports⟩ := LocalStore.writeLocally_spec h.store
        (fun hnil => hne (List.map_eq_nil_iff.1 hnil)) hplain hnodup
      obtain ⟨s', snapshots, hnotify, hinv, htold, hk, htargets⟩ :=
        notifyViews_spec h hstore hreports
      refine ⟨s', snapshots, ?_, hinv, htold, fun k hk' => Or.inl (hk k hk'), htargets⟩
      rw [step, writeMutations, hwrite]
      exact hnotify
  | handleSuccessfulWrite batchResult =>
      obtain ⟨batch, rest, hqueue, hid, hlength⟩ := hkeeps
      obtain ⟨localStore, changes, hack, hstore, hreports⟩ :=
        LocalStore.acknowledgeBatch_spec h.store hqueue hid hlength
      obtain ⟨s', snapshots, hnotify, hinv, htold, hk, htargets⟩ :=
        notifyViews_spec h hstore hreports
      refine ⟨s', snapshots, ?_, hinv, htold, fun k hk' => Or.inl (hk k hk'), htargets⟩
      rw [step, handleSuccessfulWrite, hack]
      exact hnotify
  | handleRejectedWrite batchId =>
      obtain ⟨batch, rest, hqueue, rfl⟩ := hkeeps
      obtain ⟨localStore, changes, hreject, hstore, hreports⟩ :=
        LocalStore.rejectBatch_spec h.store hqueue
      obtain ⟨s', snapshots, hnotify, hinv, htold, hk, htargets⟩ :=
        notifyViews_spec h hstore hreports
      refine ⟨s', snapshots, ?_, hinv, htold, fun k hk' => Or.inl (hk k hk'), htargets⟩
      rw [step, handleRejectedWrite, hreject]
      exact hnotify
  | applyRemoteEvent remoteEvent =>
      obtain ⟨hstore, hlookups, hfits⟩ := hkeeps
      obtain ⟨s', snapshots, hstep, hinv, htold, hk, -, htargets, -⟩ :=
        applyRemoteEvent_spec h remoteEvent hstore hlookups hfits
      exact ⟨s', snapshots, hstep, hinv, htold, fun k hk' => Or.inl (hk k hk'), htargets⟩
  | processTargetError target => exact processTargetError_spec h target
  | handleCredentialChange user =>
      by_cases huser : user = s.localStore.currentUser
      · exact ⟨s, [], if_pos huser, h, Told.nothing fun _ _ hview => hview, fun _ hk => Or.inl hk,
          .refl s⟩
      · obtain ⟨hstore, hreports⟩ := LocalStore.handleUserChange_spec h.store user
        obtain ⟨s', snapshots, hnotify, hinv, htold, hk, htargets⟩ :=
          notifyViews_spec h hstore hreports
        exact ⟨s', snapshots, (if_neg huser).trans hnotify, hinv, htold,
          fun k hk' => Or.inl (hk k hk'), htargets⟩
  | handleOnlineStateChange onlineState =>
      obtain ⟨s', snapshots, hstep, hinv, htold, hk, htargets⟩ :=
        handleOnlineStateChange_spec h onlineState
      exact ⟨s', snapshots, hstep, hinv, htold, fun k hk' => Or.inl (hk k hk'), htargets⟩

end SyncEngine

end FirestoreClient
