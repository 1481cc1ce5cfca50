/-
**The client and what the backend sends it.**

The sync engine together with the half of the remote store that listens.  The engine relies on what
the backend sends of each target: it has to fit what the client has of the target.  The backend does
not know what the client has, but says message by message what comes and goes; what the aggregator
makes of this is what the engine relies on, whatever users do meanwhile.

Main definitions:

* `FirestoreClient.ListeningClient` with `step` — the engine and the aggregator of the open stream;
* `FirestoreClient.ListeningClient.Keeps` — what users and the backend keep to.

Main results:

* `FirestoreClient.ListeningClient.engineStep_inv` — **what is collected fits what the client has**,
  whatever the engine does;
* `FirestoreClient.listening_run` — **every event that the aggregator makes keeps to the rules of
  the engine**, in every run.
-/

import TinderFirestore.SyncQueues
import TinderFirestore.WatchEvents

set_option relaxedAutoImplicit false
set_option autoImplicit false

open EventRun

namespace FirestoreClient

variable {κ υ ι : Type*}

/-! ### What the client has of the targets -/

/-- The target that the call is about. -/
def TargetCall.target : TargetCall κ ι → TargetId ι
  | .listen target _ => target
  | .stopListening target => target

/-- The event comes from the watch stream. -/
def SyncEvent.isWatch : SyncEvent κ υ ι → Bool
  | .applyRemoteEvent _ | .processTargetError _ => true
  | .listen _ _ | .stopListening _ | .writeMutations _ | .handleSuccessfulWrite _
  | .handleRejectedWrite _ | .handleCredentialChange _ | .handleOnlineStateChange _ => false

section Metadata

variable [LinearOrder κ] [DecidableEq ι] {query : ι → Query κ ObjectValue}

/-- `GetRemoteKeys`. -/
def SyncEngine.getRemoteKeys (s : SyncEngine υ query) : TargetId ι → Finset κ
  | .query i =>
      match s.queryViewsByQuery.lookup i with
      | some view => view.syncedDocuments
      | none => ∅
  | .limbo n =>
      match s.tracking.limboResolutionsByTarget.lookup n with
      | some limboResolution =>
          if limboResolution.documentReceived then {limboResolution.key} else ∅
      | none => ∅

/-- `GetRemoteKeysForTarget` and `GetQueryDataForTarget`. -/
def SyncEngine.metadata (s : SyncEngine υ query) : TargetMetadata κ ι where
  remoteKeys := s.getRemoteKeys
  queryData := fun target => s.tracking.listenTargets.lookup target

end Metadata

/-! ### What is collected of the targets is what the engine relies on -/

section Rules

variable [LinearOrder κ] [DecidableEq υ] [DecidableEq ι] {query : ι → Query κ ObjectValue}
  {s s' : SyncEngine υ query}

/-- Of a lookup the changes concern its own document. -/
theorem TargetState.Follows.changed_eq {state : TargetState κ} {keys : Finset κ} {key : κ}
    (h : state.Follows keys (some key)) (type : ChangeType) : state.changed type =
      if state.documentChanges.lookup key = some type then {key} else ∅ := by
  ext k
  rw [TargetState.mem_changed]
  constructor
  · intro hk
    obtain rfl := (h k type hk).2 key rfl
    rw [if_pos hk]
    exact Finset.mem_singleton_self k
  · intro hk
    split at hk
    · next hlookup =>
        obtain rfl := Finset.mem_singleton.1 hk
        exact hlookup
    · exact absurd hk (Finset.notMem_empty k)

/-- **What is collected of a lookup keeps to the protocol of lookups.** -/
theorem TargetState.Follows.documentReceived_isSome {state : TargetState κ}
    {limboResolution : LimboResolution κ} {change : TargetChange κ}
    (h : state.Follows (if limboResolution.documentReceived then {limboResolution.key} else ∅)
      (some limboResolution.key)) (hchange : state.toTargetChange = some change) :
    (LimboTracking.documentReceived limboResolution change).isSome := by
  obtain rfl := Option.some.inj (h.toTargetChange.symm.trans hchange)
  unfold LimboTracking.documentReceived
  simp only [h.changed_eq]
  cases hlookup : state.documentChanges.lookup limboResolution.key with
  | none => simp
  | some type =>
      obtain ⟨⟨rfl, -⟩ | ⟨htype, hmem⟩, -⟩ := h _ _ hlookup
      · simp
      · have hreceived : limboResolution.documentReceived = true := by
          by_contra hnot
          rw [if_neg hnot] at hmem
          exact Finset.notMem_empty _ hmem
        obtain rfl | rfl := htype <;> simp [hreceived]

omit [DecidableEq υ] in
/-- A lookup asks for its document, and the client has it or not. -/
theorem SyncEngine.Inv.lookup_metadata (h : s.Inv) {n : ℕ} {document : Option κ}
    (hquery : s.metadata.queryData (.limbo n) = some document) :
    ∃ limboResolution, s.tracking.limboResolutionsByTarget.lookup n = some limboResolution ∧
      document = some limboResolution.key ∧ s.metadata.remoteKeys (.limbo n) =
        if limboResolution.documentReceived then {limboResolution.key} else ∅ := by
  obtain ⟨limboResolution, hlookup, hkey⟩ := h.limbo.tracking.documents (.limbo n) document hquery
  refine ⟨limboResolution, hlookup, hkey, ?_⟩
  simp only [metadata, getRemoteKeys, hlookup]

omit [DecidableEq υ] in
/-- A query has a view, and the client has of it what this counts as the backend's. -/
theorem SyncEngine.Inv.query_metadata (h : s.Inv) {i : ι} {document : Option κ}
    (hquery : s.metadata.queryData (.query i) = some document) :
    document = none ∧ ∃ view, s.queryViewsByQuery.lookup i = some view ∧
      s.getRemoteKeys (.query i) = view.syncedDocuments := by
  have hmem : .query i ∈ s.tracking.listenTargets :=
    AList.lookup_isSome.1 (Option.isSome_iff_exists.2 ⟨document, hquery⟩)
  obtain ⟨view, hview⟩ := Option.isSome_iff_exists.1
    (AList.lookup_isSome.2 ((h.limbo.tracking.queries i).1 hmem))
  refine ⟨h.limbo.tracking.documents (.query i) document hquery, view, hview, ?_⟩
  simp only [getRemoteKeys, hview]

omit [DecidableEq υ] in
theorem SyncEngine.Inv.own (h : s.Inv) : s.metadata.Own := by
  intro target key hquery k hk
  cases target with
  | query i => exact absurd (h.query_metadata hquery).1 (by simp)
  | limbo n =>
      obtain ⟨limboResolution, -, hkey, hkeys⟩ := h.lookup_metadata hquery
      rw [hkeys] at hk
      obtain rfl := Option.some.inj hkey
      split at hk
      · exact Finset.mem_singleton.1 hk
      · exact absurd hk (Finset.notMem_empty k)

omit [DecidableEq υ] in
/-- **An event of changes that fit what the client has keeps to the rules of the engine.** -/
theorem SyncEngine.Inv.keeps (h : s.Inv) {remoteEvent : RemoteEvent κ ι}
    (hversion : remoteEvent.snapshotVersion ≠ .none)
    (hmonotone : s.localStore.lastRemoteSnapshotVersion ≤ remoteEvent.snapshotVersion)
    (hkeyed : WellKeyed remoteEvent.documentUpdates)
    (hexplains : ∀ target change, remoteEvent.targetChanges.lookup target = some change →
      WatchChangeAggregator.Explains s.metadata target change) :
    s.Keeps (.applyRemoteEvent remoteEvent) := by
  refine ⟨⟨hkeyed, fun hnone => absurd hnone hversion, fun _ => hmonotone⟩,
    fun kv hkv n limboResolution htarget hlookup => ?_, fun i view hview change hchange => ?_⟩
  · obtain ⟨state, document, hquery, hfollows, hchange⟩ :=
      hexplains kv.1 kv.2 (AList.mem_lookup_iff.2 hkv)
    rw [htarget] at hquery hfollows
    obtain ⟨limboResolution', hlookup', rfl, hkeys⟩ := h.lookup_metadata hquery
    obtain rfl := Option.some.inj (hlookup.symm.trans hlookup')
    rw [hkeys] at hfollows
    exact hfollows.documentReceived_isSome hchange
  · obtain ⟨state, document, -, hfollows, htarget⟩ := hexplains (.query i) change hchange
    obtain rfl := Option.some.inj (hfollows.toTargetChange.symm.trans htarget)
    intro k hk
    obtain ⟨⟨htype, -⟩ | ⟨-, hmem⟩, -⟩ := hfollows k _ (TargetState.mem_changed.1 hk)
    · exact absurd htype (by simp)
    · simp only [metadata, getRemoteKeys, hview] at hmem
      exact Finset.mem_union_left _ hmem

/-! ### What the engine does about the targets -/

omit [LinearOrder κ] [DecidableEq υ] in
/-- A target that is not called about is asked for as before. -/
theorem lookup_replay {calls : List (TargetCall κ ι)}
    {targets targets' : AList fun _ : TargetId ι => Option κ}
    (h : calls.foldlM TargetCall.replay targets = some targets') {target : TargetId ι}
    (hnot : target ∉ calls.map TargetCall.target) :
    targets'.lookup target = targets.lookup target := by
  induction calls generalizing targets with
  | nil =>
      obtain rfl := Option.some.inj h
      rfl
  | cons call calls ih =>
      rw [List.foldlM_cons] at h
      obtain ⟨targets₁, hcall, hrest⟩ := Option.bind_eq_some_iff.1 h
      have hne : target ≠ call.target := fun heq => hnot (List.mem_cons.2 (Or.inl heq))
      have hnot' : target ∉ calls.map TargetCall.target :=
        fun hmem => hnot (List.mem_cons_of_mem _ hmem)
      rw [ih hrest hnot']
      cases call with
      | listen target' document =>
          simp only [TargetCall.replay] at hcall
          split at hcall
          · exact absurd hcall (by simp)
          · obtain rfl := Option.some.inj hcall
            exact AList.lookup_insert_ne hne
      | stopListening target' =>
          simp only [TargetCall.replay] at hcall
          split at hcall
          · obtain rfl := Option.some.inj hcall
            exact AList.lookup_erase_ne hne
          · exact absurd hcall (by simp)

omit [DecidableEq υ] in
/-- **What the engine does about the targets** leaves what the client has of a target as it was, if
it is not called about and nothing has come of it. -/
theorem SyncEngine.TargetsStep.remoteKeys {change : TargetId ι → Option (TargetChange κ)}
    (hstep : TargetsStep change s s') (h' : s'.Inv) {target : TargetId ι}
    (hquiet : change target = none) (hviews : ∀ i, target = .query i → i ∈ s.queryViewsByQuery)
    (hlookups : ∀ n, target = .limbo n → n < s.tracking.nextTargetId)
    (hlistened : target ∈ s'.tracking.listenTargets) :
    s'.metadata.remoteKeys target = s.metadata.remoteKeys target := by
  cases target with
  | query i =>
      obtain ⟨view, hview⟩ := Option.isSome_iff_exists.1 (AList.lookup_isSome.2 (hviews i rfl))
      obtain ⟨view', hview'⟩ := Option.isSome_iff_exists.1
        (AList.lookup_isSome.2 ((h'.limbo.tracking.queries i).1 hlistened))
      have hsynced := hstep.views i view view' hview hview'
      rw [hquiet] at hsynced
      simp only [metadata, getRemoteKeys, hview, hview']
      exact hsynced
  | limbo n =>
      obtain ⟨r', hr'⟩ := Option.isSome_iff_exists.1
        (AList.lookup_isSome.2 ((h'.limbo.tracking.lookups n).1 hlistened))
      obtain ⟨r, hr, hafter⟩ := hstep.lookups n (hlookups n rfl) r' hr'
      rw [hquiet] at hafter
      obtain rfl := Option.some.inj hafter
      simp only [metadata, getRemoteKeys, hr, hr']

omit [LinearOrder κ] [DecidableEq υ] in
/-- A target that is forgotten is not asked for; nothing else is different. -/
theorem SyncEngine.forgetRefused_spec (s : SyncEngine υ query) (event : SyncEvent κ υ ι) :
    (s.forgetRefused event).queryViewsByQuery = s.queryViewsByQuery ∧
      (s.forgetRefused event).tracking.calls = s.tracking.calls ∧
      (s.forgetRefused event).tracking.nextTargetId = s.tracking.nextTargetId ∧
      (s.forgetRefused event).metadata.remoteKeys = s.metadata.remoteKeys ∧
      ∀ target document, (s.forgetRefused event).metadata.queryData target = some document →
        s.metadata.queryData target = some document := by
  cases event with
  | processTargetError target =>
      rw [forgetRefused]
      split
      · refine ⟨rfl, rfl, rfl, rfl, fun target' document hdocument => ?_⟩
        by_cases hne : target' = target
        · subst hne
          exact absurd ((AList.lookup_erase _ _).symm.trans hdocument) (by simp)
        · exact (AList.lookup_erase_ne hne).symm.trans hdocument
      · exact ⟨rfl, rfl, rfl, rfl, fun _ _ hdocument => hdocument⟩
  | _ => exact ⟨rfl, rfl, rfl, rfl, fun _ _ hdocument => hdocument⟩

end Rules

/-! ### Requests -/

namespace WatchChangeAggregator

/-- Requests for the targets are sent: `SendWatchRequest` and `SendUnwatchRequest`. -/
def sendRequests [DecidableEq ι] (a : WatchChangeAggregator κ ι) (targetIds : List (TargetId ι)) :
    WatchChangeAggregator κ ι :=
  targetIds.foldl recordPendingTargetRequest a

variable [LinearOrder κ] [DecidableEq ι]

omit [LinearOrder κ] in
/-- Each request adds to what is unanswered. -/
theorem targetState_sendRequests (a : WatchChangeAggregator κ ι) (targetIds : List (TargetId ι))
    (t : TargetId ι) : (a.sendRequests targetIds).targetState t =
      { a.targetState t with
        outstandingResponses := (a.targetState t).outstandingResponses + targetIds.count t } := by
  induction targetIds generalizing a with
  | nil => simp [sendRequests]
  | cons targetId targetIds ih =>
      change ((a.recordPendingTargetRequest targetId).sendRequests targetIds).targetState t = _
      rw [ih, recordPendingTargetRequest, targetState_modifyState]
      by_cases heq : t = targetId
      · subst heq
        simp [TargetState.recordPendingTargetRequest]
        omega
      · simp [heq, List.count_cons_of_ne (Ne.symm heq)]

omit [LinearOrder κ] in
/-- A target for which a request has been sent is one to wait for. -/
theorem sendRequests_active {a : WatchChangeAggregator κ ι} {t : TargetId ι}
    (hout : 0 ≤ (a.targetState t).outstandingResponses) {targetIds : List (TargetId ι)}
    (hactive : ¬ ((a.sendRequests targetIds).targetState t).IsPending) :
    t ∉ targetIds ∧ (a.sendRequests targetIds).targetState t = a.targetState t := by
  have hstate := targetState_sendRequests a targetIds t
  have hnone : (a.targetState t).outstandingResponses + targetIds.count t = 0 := by
    rw [hstate] at hactive
    exact not_not.1 hactive
  have hcount : targetIds.count t = 0 := by omega
  refine ⟨List.count_eq_zero.1 hcount, hstate.trans ?_⟩
  simp only [hcount, Int.natCast_zero, Int.add_zero]

/-- **What is collected fits what the client has afterwards**, if it does for the targets for which
no request has been sent. -/
theorem Inv.sendRequests {p p' : TargetMetadata κ ι} {a : WatchChangeAggregator κ ι} (h : a.Inv p)
    {targetIds : List (TargetId ι)}
    (hfollows : ∀ t ∉ targetIds, ∀ document, ¬ (a.targetState t).IsPending →
      p'.queryData t = some document →
        (a.targetState t).Follows (p'.remoteKeys t) document) :
    (a.sendRequests targetIds).Inv p' := by
  have hupdates : (a.sendRequests targetIds).pendingDocumentUpdates = a.pendingDocumentUpdates :=
    List.foldlRecOn (motive := fun a' : WatchChangeAggregator κ ι =>
      a'.pendingDocumentUpdates = a.pendingDocumentUpdates) _ _ rfl fun _ h' _ _ => h'
  refine ⟨fun t => ?_, fun t document hpending hquery => ?_, hupdates ▸ h.updates⟩
  · have hout := h.outstanding t
    rw [targetState_sendRequests]
    dsimp only
    omega
  · obtain ⟨hnot, hstate⟩ := sendRequests_active (h.outstanding t) hpending
    rw [hstate] at hpending ⊢
    exact hfollows t hnot document hpending hquery

end WatchChangeAggregator

/-! ### The client -/

/-- The sync engine, and the aggregator of the watch stream while this is open. -/
structure ListeningClient (υ : Type*) (query : ι → Query κ ObjectValue) where
  engine : SyncEngine υ query
  watchChangeAggregator : Option (WatchChangeAggregator κ ι)

/-- What happens to the client. -/
inductive ListenEvent (κ υ ι : Type*)
  /-- What does not come from the watch stream. -/
  | engine (event : SyncEvent κ υ ι)
  | watchStreamOpened
  | watchStreamClosed
  | watchStreamChange (change : WatchChange κ ι) (snapshotVersion : SnapshotVersion)

/-- The targets that the backend refuses, if it does. -/
def WatchChange.refused : WatchChange κ ι → Option (List (TargetId ι))
  | .targetChange .removed targetIds _ (some _) => some targetIds
  | _ => none

namespace ListeningClient

variable [LinearOrder κ] [DecidableEq υ] [DecidableEq ι] {query : ι → Query κ ObjectValue}

def start (store : RestoredStore κ υ) : ListeningClient υ query where
  engine := .start store
  watchChangeAggregator := none

section Operations

variable (c : ListeningClient υ query)

/-- The engine handles an event, and what it calls is sent on the stream if this is open. -/
def engineStep (event : SyncEvent κ υ ι) : Option (ListeningClient υ query) :=
  (c.engine.next event).map fun engine =>
    let calls := engine.tracking.calls.drop c.engine.tracking.calls.length
    { engine := engine
      watchChangeAggregator := c.watchChangeAggregator.map fun a =>
        a.sendRequests (calls.map TargetCall.target) }

/-- `OnWatchStreamOpen`: all targets are listened to again. -/
def onWatchStreamOpen : ListeningClient υ query :=
  { c with
    watchChangeAggregator := some
      (WatchChangeAggregator.init.sendRequests c.engine.tracking.listenTargets.keys) }

/-- `OnWatchStreamClose`. -/
def onWatchStreamClose : ListeningClient υ query :=
  { c with watchChangeAggregator := none }

/-- `RaiseWatchSnapshot`: targets that have been reset are not listened to any more and listened to
again. -/
def raiseWatchSnapshot (a : WatchChangeAggregator κ ι) (snapshotVersion : SnapshotVersion) :
    Option (ListeningClient υ query) :=
  (a.createRemoteEvent c.engine.metadata snapshotVersion).bind
    fun (remoteEvent, targetMismatches, a) =>
      let listened := targetMismatches.filter (· ∈ c.engine.tracking.listenTargets)
      engineStep { c with
          watchChangeAggregator := some (a.sendRequests (listened.flatMap fun t => [t, t])) }
        (.applyRemoteEvent remoteEvent)

/-- The body of the loop of `ProcessTargetError`. -/
def targetRefused (target : TargetId ι) : Option (ListeningClient υ query) :=
  if target ∈ c.engine.tracking.listenTargets then
    engineStep { c with
        watchChangeAggregator := c.watchChangeAggregator.map (·.removeTarget target) }
      (.processTargetError target)
  else some c

/-- `ProcessTargetError`. -/
def processTargetError (targetIds : List (TargetId ι)) : Option (ListeningClient υ query) :=
  targetIds.foldlM targetRefused c

/-- What `OnWatchStreamChange` does when no target is refused. -/
def handleWatchChange (a : WatchChangeAggregator κ ι) (change : WatchChange κ ι)
    (snapshotVersion : SnapshotVersion) : Option (ListeningClient υ query) :=
  (a.handle c.engine.metadata change).bind fun a =>
    if snapshotVersion ≠ .none ∧
        c.engine.localStore.lastRemoteSnapshotVersion ≤ snapshotVersion then
      c.raiseWatchSnapshot a snapshotVersion
    else some { c with watchChangeAggregator := some a }

/-- `OnWatchStreamChange`. -/
def onWatchStreamChange (change : WatchChange κ ι) (snapshotVersion : SnapshotVersion) :
    Option (ListeningClient υ query) :=
  c.watchChangeAggregator.bind fun a =>
    match change.refused with
    | some targetIds => c.processTargetError targetIds
    | none => c.handleWatchChange a change snapshotVersion

/-- The client handles an event; none if an assertion fails. -/
def step : ListenEvent κ υ ι → Option (ListeningClient υ query)
  | .engine event => c.engineStep event
  | .watchStreamOpened => some c.onWatchStreamOpen
  | .watchStreamClosed => some c.onWatchStreamClose
  | .watchStreamChange change snapshotVersion => c.onWatchStreamChange change snapshotVersion

/-- **The rules**: users and the backend keep to those of the engine, except for what comes from the
watch stream; this comes while the stream is open, and keeps to the rules for messages. -/
def Keeps : ListenEvent κ υ ι → Prop
  | .engine event => event.isWatch = false ∧ c.engine.Keeps event
  | .watchStreamOpened => c.watchChangeAggregator.isNone = true
  | .watchStreamClosed => True
  | .watchStreamChange change _ => ∃ a ∈ c.watchChangeAggregator,
      change.refused.isNone = true → a.Fits c.engine.metadata change

end Operations

/-- **What holds of the client.** -/
structure Inv (store : RestoredStore κ υ) (c : ListeningClient υ query) : Prop where
  reached : SyncEngine.Reached store c.engine
  collected : ∀ a ∈ c.watchChangeAggregator, a.Inv c.engine.metadata

section Invariant

variable {store : RestoredStore κ υ} {c : ListeningClient υ query} {a : WatchChangeAggregator κ ι}

/-- What the engine does about the targets is sent on the stream; the rest it does by itself. -/
theorem engineStep_spec (h : c.Inv store) {event : SyncEvent κ υ ι}
    (hkeeps : c.engine.Keeps event) :
    ∃ (s' : SyncEngine υ query) (calls : List (TargetCall κ ι)), c.engineStep event = some
        { engine := s'
          watchChangeAggregator := c.watchChangeAggregator.map fun a =>
            a.sendRequests (calls.map TargetCall.target) } ∧
      SyncEngine.Reached store s' ∧
      SyncEngine.TargetsStep (SyncEngine.targetChange event) (c.engine.forgetRefused event) s' ∧
      ∀ t ∉ calls.map TargetCall.target, s'.metadata.queryData t =
        (c.engine.forgetRefused event).metadata.queryData t := by
  obtain ⟨s', hnext, hreached⟩ := h.reached.step hkeeps
  obtain ⟨s₁, snapshots, hstep, -, -, -, htargets⟩ := SyncEngine.step_spec h.reached.inv hkeeps
  obtain rfl : s₁ = s' := by
    rw [SyncEngine.next, hstep] at hnext
    exact Option.some.inj hnext
  obtain ⟨-, hcalls, -⟩ := c.engine.forgetRefused_spec event
  obtain ⟨calls, hnew, hreplay⟩ := htargets.calls
  rw [hcalls] at hnew
  have hdrop : s₁.tracking.calls.drop c.engine.tracking.calls.length = calls := by
    rw [hnew, List.drop_left]
  refine ⟨s₁, calls, ?_, hreached, htargets, fun t hnot => lookup_replay hreplay hnot⟩
  rw [engineStep, hnext, Option.map_some, hdrop]

/-- **Whatever the engine does**, what is collected fits what the client has: what it has of a
target changes only by an event made of what was collected of it, which is then not kept. -/
theorem engineStep_inv (h : c.Inv store) {event : SyncEvent κ υ ι} (hkeeps : c.engine.Keeps event)
    (hcleared : ∀ a ∈ c.watchChangeAggregator, ∀ target,
      SyncEngine.targetChange event target ≠ none →
        (a.targetState target).documentChanges = ∅) :
    ∃ c', c.engineStep event = some c' ∧ c'.Inv store := by
  obtain ⟨s', calls, hstep, hreached, htargets, hlistened⟩ := engineStep_spec h hkeeps
  obtain ⟨hviews, -, hused, hkeys, hdata⟩ := c.engine.forgetRefused_spec event
  refine ⟨_, hstep, hreached, fun a' ha' => ?_⟩
  obtain ⟨a, ha, rfl⟩ := Option.map_eq_some_iff.1 ha'
  refine (h.collected a ha).sendRequests fun t hnot document hpending hquery => ?_
  -- Either the client has of the target what it had, or all that was collected has been used up.
  by_cases hquiet : SyncEngine.targetChange event t = none
  · have hquery₀ := hdata t document ((hlistened t hnot).symm.trans hquery)
    have hmem : t ∈ c.engine.tracking.listenTargets :=
      AList.lookup_isSome.1 (Option.isSome_iff_exists.2 ⟨document, hquery₀⟩)
    have hinv := h.reached.inv.limbo.tracking
    have hsame : s'.metadata.remoteKeys t = c.engine.metadata.remoteKeys t := by
      rw [← hkeys]
      refine htargets.remoteKeys hreached.inv hquiet (fun i hi => ?_) (fun n hn => ?_) ?_
      · rw [hviews]
        exact (hinv.queries i).1 (hi ▸ hmem)
      · rw [hused]
        exact hinv.used n ((hinv.lookups n).1 (hn ▸ hmem))
      · exact AList.lookup_isSome.1 (Option.isSome_iff_exists.2 ⟨document, hquery⟩)
    have hfollows := (h.collected a ha).follows t document hpending hquery₀
    rw [← hsame] at hfollows
    exact hfollows
  · exact TargetState.follows_of_empty (hcleared a ha t hquiet)

theorem Inv.withAggregator (h : c.Inv store) (hcollected : a.Inv c.engine.metadata) :
    Inv store { c with watchChangeAggregator := some a } := by
  refine ⟨h.reached, fun a' ha' => ?_⟩
  obtain rfl := Option.some.inj ha'
  exact hcollected

/-- All targets that are listened to have a request, and nothing has been collected. -/
theorem onWatchStreamOpen_inv (h : c.Inv store) : c.onWatchStreamOpen.Inv store :=
  h.withAggregator ((WatchChangeAggregator.inv_init c.engine.metadata).sendRequests
    fun _ _ _ _ _ => TargetState.follows_of_empty rfl)

/-- What has been collected goes with the stream. -/
theorem onWatchStreamClose_inv (h : c.Inv store) : c.onWatchStreamClose.Inv store :=
  ⟨h.reached, fun _ ha => absurd ha (by simp [onWatchStreamClose])⟩

/-- **The event that is made of what has been collected keeps to the rules of the engine.** -/
theorem raiseWatchSnapshot_inv (h : c.Inv store) (hcollected : a.Inv c.engine.metadata)
    {snapshotVersion : SnapshotVersion} (hversion : snapshotVersion ≠ .none)
    (hmonotone : c.engine.localStore.lastRemoteSnapshotVersion ≤ snapshotVersion) :
    ∃ c', c.raiseWatchSnapshot a snapshotVersion = some c' ∧ c'.Inv store := by
  obtain ⟨remoteEvent, resets, a', hcreate, hinv, rfl, hkeyed, hexplains, hcleared⟩ :=
    WatchChangeAggregator.createRemoteEvent_spec hcollected snapshotVersion
  rw [raiseWatchSnapshot, hcreate, Option.bind_some]
  refine engineStep_inv (h.withAggregator (hinv.sendRequests fun t _ => hinv.follows t))
    (h.reached.inv.keeps hversion hmonotone hkeyed hexplains) fun a'' ha'' target hchange => ?_
  obtain rfl := Option.some.inj ha''
  rw [WatchChangeAggregator.targetState_sendRequests]
  exact hcleared target (AList.lookup_isSome.1 (Option.isSome_iff_ne_none.2 hchange))

theorem Inv.forgetTarget (h : c.Inv store) (target : TargetId ι) : Inv store { c with
    watchChangeAggregator := c.watchChangeAggregator.map (·.removeTarget target) } := by
  refine ⟨h.reached, fun a' ha' => ?_⟩
  obtain ⟨a, ha, rfl⟩ := Option.map_eq_some_iff.1 ha'
  exact (h.collected a ha).removeTarget target

/-- A refused target is forgotten with what has been collected of it. -/
theorem targetRefused_inv (h : c.Inv store) (target : TargetId ι) :
    ∃ c', c.targetRefused target = some c' ∧ c'.Inv store := by
  unfold targetRefused
  split
  · have hkeeps : c.engine.Keeps (.processTargetError target) := trivial
    exact engineStep_inv (h.forgetTarget target) hkeeps fun _ _ _ hchange => absurd rfl hchange
  · exact ⟨c, rfl, h⟩

theorem handleWatchChange_inv (h : c.Inv store) (hcollected : a.Inv c.engine.metadata)
    {change : WatchChange κ ι} (hfits : a.Fits c.engine.metadata change)
    (snapshotVersion : SnapshotVersion) :
    ∃ c', c.handleWatchChange a change snapshotVersion = some c' ∧ c'.Inv store := by
  obtain ⟨a', hhandle, hinv⟩ :=
    WatchChangeAggregator.handle_spec hcollected h.reached.inv.own hfits
  rw [handleWatchChange, hhandle, Option.bind_some]
  split
  · next hversion => exact raiseWatchSnapshot_inv h hinv hversion.1 hversion.2
  · exact ⟨_, rfl, h.withAggregator hinv⟩

/-- **Every event that keeps to the rules goes through.** -/
theorem step_inv (h : c.Inv store) {event : ListenEvent κ υ ι} (hkeeps : c.Keeps event) :
    ∃ c', c.step event = some c' ∧ c'.Inv store := by
  cases event with
  | engine event =>
      refine engineStep_inv h hkeeps.2 fun _ _ target hchange => absurd ?_ hchange
      cases event with
      | applyRemoteEvent _ => exact absurd hkeeps.1 (by simp [SyncEvent.isWatch])
      | _ => rfl
  | watchStreamOpened => exact ⟨_, rfl, onWatchStreamOpen_inv h⟩
  | watchStreamClosed => exact ⟨_, rfl, onWatchStreamClose_inv h⟩
  | watchStreamChange change snapshotVersion =>
      obtain ⟨a, ha, hfits⟩ := hkeeps
      have hopen : c.watchChangeAggregator = some a := ha
      rw [step, onWatchStreamChange, hopen, Option.bind_some]
      cases hrefused : change.refused with
      | some targetIds =>
          exact foldlM_of_forall
            (fun _ target h => targetRefused_inv h target) targetIds h
      | none =>
          rw [hrefused] at hfits
          exact handleWatchChange_inv h (h.collected a ha) (hfits rfl) snapshotVersion

theorem inv_start (store : RestoredStore κ υ) : (start store : ListeningClient υ query).Inv store :=
  ⟨⟨[], trivial, rfl⟩, fun _ ha => absurd ha (by simp [start])⟩

theorem run_inv {events : List (ListenEvent κ υ ι)}
    (hkeeps : StepsMeet step Keeps (start store : ListeningClient υ query) events) :
    ∃ c : ListeningClient υ query, run step (start store) events = some c ∧ c.Inv store :=
  run_of_meet (fun _ _ hkeeps h => step_inv h hkeeps) hkeeps (inv_start store)

end Invariant

/-! ### Whether an event keeps to the rules can be computed -/

instance decidableFits (p : TargetMetadata κ ι) (a : WatchChangeAggregator κ ι) :
    (change : WatchChange κ ι) → Decidable (a.Fits p change)
  | .documentChange updatedTargetIds removedTargetIds documentKey newDocument =>
      inferInstanceAs (Decidable ((∀ doc ∈ newDocument, doc.key = documentKey) ∧
        ∀ targetId ∈ updatedTargetIds ++ removedTargetIds,
          ∀ document ∈ p.queryData targetId, ∀ key ∈ document, documentKey = key))
  | .existenceFilter targetId count => inferInstanceAs (Decidable
      (∀ document ∈ p.queryData targetId, document.isSome → count = 0 ∨ count = 1))
  | .targetChange state targetIds resumeToken cause => inferInstanceAs (Decidable
      ((state = .removed → cause = none) ∧
        StepsMeet (WatchChangeAggregator.handleTargetChangeFor p state resumeToken cause)
          (fun a targetId => state = .added ∨ state = .removed →
            0 < (a.targetState targetId).outstandingResponses) a (a.getTargetIds targetIds)))

instance decidableKeeps (c : ListeningClient υ query) :
    (event : ListenEvent κ υ ι) → Decidable (c.Keeps event)
  | .engine event => inferInstanceAs (Decidable (event.isWatch = false ∧ c.engine.Keeps event))
  | .watchStreamOpened => inferInstanceAs (Decidable (c.watchChangeAggregator.isNone = true))
  | .watchStreamClosed => isTrue trivial
  | .watchStreamChange change _ => inferInstanceAs (Decidable (∃ a ∈ c.watchChangeAggregator,
      change.refused.isNone = true → a.Fits c.engine.metadata change))

end ListeningClient

/-! ### Every order of events -/

variable [LinearOrder κ] [DecidableEq υ] [DecidableEq ι] {query : ι → Query κ ObjectValue}

/-- Two documents come into a target; by its existence filter only one is left, so that the target
starts over; then it is refused. -/
def lostDocument : List (ListenEvent ℕ Unit Unit) :=
  [.engine (.listen () ∅), .watchStreamOpened,
    .watchStreamChange (.targetChange .added [.query ()] false none) .none,
    .watchStreamChange (.documentChange [.query ()] [] 1
      (some (.document ⟨1, .empty, 5, .synced⟩))) .none,
    .watchStreamChange (.documentChange [.query ()] [] 0
      (some (.document ⟨0, .empty, 5, .synced⟩))) .none,
    .watchStreamChange (.targetChange .current [.query ()] true none) .none,
    .watchStreamChange (.targetChange .noChange [] true none) 7,
    .watchStreamChange (.existenceFilter (.query ()) 1) .none,
    .watchStreamChange (.targetChange .noChange [] true none) 8,
    .watchStreamChange (.targetChange .removed [.query ()] false none) .none,
    .watchStreamChange (.targetChange .added [.query ()] false none) .none,
    .watchStreamChange (.documentChange [.query ()] [] 0
      (some (.document ⟨0, .empty, 5, .synced⟩))) .none,
    .watchStreamChange (.targetChange .current [.query ()] true none) 9,
    .watchStreamChange (.targetChange .removed [.query ()] false (some .permissionDenied)) .none]

end FirestoreClient
