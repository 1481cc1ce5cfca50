/-
**Runs of the client.**

Whatever order users write, change and go on- and offline in, and the write stream opens, answers,
fails and backs off in: the client sends the writes of each user in order, those of an earlier
session first, no answer is taken for another write than the one it is for, and each callback is
called once.

Main definitions:

* `FirestoreClient.WritingClient.waiters` — the callbacks that have waited for pending writes.

Main results:

* `FirestoreClient.writes_run` — **the engine is as after a run of it alone, and what is unanswered
  on the stream is the front of the queue**;
* `FirestoreClient.callbacks_run` — **callbacks of writes are called in the order of the writes**;
* `FirestoreClient.pendingWrites_run` — **each callback that waits for pending writes is called
  once**.
-/

import Mathlib.Algebra.Order.Group.Multiset
import TinderFirestore.ClientWrites

set_option relaxedAutoImplicit false
set_option autoImplicit false

namespace FirestoreClient

open EventRun

variable {κ υ ι : Type*}

namespace WritingClient

variable {γ : Type*} [LinearOrder κ] [DecidableEq υ] [DecidableEq ι]
  {query : ι → Query κ ObjectValue}

/-! ### Waiting for pending writes -/

section Waiters

variable {c c' : WritingClient υ γ query}

/-- The callbacks under all batch ids. -/
def allCallbacks (callbacks : AList fun _ : ℤ => List γ) : Multiset γ :=
  (callbacks.entries.map fun entry => (entry.2 : Multiset γ)).sum

omit [LinearOrder κ] [DecidableEq υ] [DecidableEq ι] in
theorem allCallbacks_erase (callbacks : AList fun _ : ℤ => List γ) (batchId : ℤ) :
    allCallbacks callbacks = ((callbacks.lookup batchId).getD [] : Multiset γ) +
      allCallbacks (callbacks.erase batchId) := by
  by_cases hmem : batchId ∈ callbacks
  · obtain ⟨waiting, before, after, -, hentries, herase⟩ := List.exists_of_kerase hmem
    have hlookup : callbacks.lookup batchId = some waiting := by
      refine AList.mem_lookup_iff.2 ?_
      rw [hentries]
      exact List.mem_append_right _ List.mem_cons_self
    have herased : (callbacks.erase batchId).entries = before ++ after := herase
    rw [allCallbacks, allCallbacks, herased, hlookup, hentries, List.map_append, List.map_append,
      List.sum_append, List.sum_append, List.map_cons, List.sum_cons, Option.getD_some]
    exact add_left_comm _ _ _
  · rw [AList.lookup_eq_none.2 hmem]
    have herased : (callbacks.erase batchId).entries = callbacks.entries :=
      List.kerase_of_notMem_keys hmem
    rw [allCallbacks, allCallbacks, herased]
    exact (zero_add _).symm

omit [LinearOrder κ] [DecidableEq υ] [DecidableEq ι] in
theorem allCallbacks_insert (callbacks : AList fun _ : ℤ => List γ) (batchId : ℤ)
    (waiting : List γ) : allCallbacks (callbacks.insert batchId waiting) =
      (waiting : Multiset γ) + allCallbacks (callbacks.erase batchId) := by
  rw [allCallbacks, AList.entries_insert, List.map_cons, List.sum_cons]
  rfl

/-- The callbacks that wait for pending writes, and those that have done so. -/
def waiters (c : WritingClient υ γ query) : Multiset γ :=
  (c.called.filterMap CallbackCall.waiter : Multiset γ) + allCallbacks c.pendingWritesCallbacks

/-- The callbacks that wait for pending writes and those that have done so are as before. -/
def SameWaiters (c c' : WritingClient υ γ query) : Prop :=
  c'.called = c.called ∧ c'.pendingWritesCallbacks = c.pendingWritesCallbacks

omit [DecidableEq ι] [LinearOrder κ] [DecidableEq υ] in
theorem SameWaiters.eq (h : SameWaiters c c') : c'.waiters = c.waiters := by
  rw [waiters, waiters, h.1, h.2]

theorem engineStep_waiters {event : SyncEvent κ υ ι} (h : c.engineStep event = some c') :
    SameWaiters c c' := by
  obtain ⟨engine, -, rfl⟩ := Option.map_eq_some_iff.1 h
  exact ⟨rfl, rfl⟩

omit [DecidableEq ι] [LinearOrder κ] [DecidableEq υ] in
theorem fillWritePipeline_waiters (h : c.fillWritePipeline = some c') : SameWaiters c c' := by
  obtain ⟨writes, -, rfl⟩ := Option.map_eq_some_iff.1 h
  exact ⟨rfl, rfl⟩

omit [LinearOrder κ] [DecidableEq ι] in
theorem notifyUser_waiters (c : WritingClient υ γ query) (batchId : ℕ)
    (error : Option ErrorCode) : (c.notifyUser batchId error).waiters = c.waiters := by
  unfold notifyUser
  split
  · rfl
  · rw [waiters, waiters, List.filterMap_append]
    exact congrArg (fun called : List γ => (called : Multiset γ) + _) (List.append_nil _)

omit [LinearOrder κ] [DecidableEq ι] in
theorem finishWrite_waiters (c : WritingClient υ γ query) (batchId : ℕ)
    (error : Option ErrorCode) : (c.finishWrite batchId error).waiters = c.waiters := by
  rw [finishWrite, ← c.notifyUser_waiters batchId error]
  generalize c.notifyUser batchId error = c₁
  unfold triggerPendingWriteCallbacks
  split
  · rfl
  · next callbacks hcallbacks =>
      rw [waiters, waiters, allCallbacks_erase c₁.pendingWritesCallbacks batchId, hcallbacks,
        List.filterMap_append, List.filterMap_map, ← Multiset.coe_add, add_assoc]
      refine congrArg₂ (· + ·) rfl (congrArg₂ (· + ·) ?_ rfl)
      exact congrArg _ (List.filterMap_some (l := callbacks))

omit [LinearOrder κ] [DecidableEq ι] [DecidableEq υ] in
theorem failOutstandingPendingWriteCallbacks_waiters (c : WritingClient υ γ query) :
    c.failOutstandingPendingWriteCallbacks.waiters = c.waiters := by
  have hall (entries : List (Σ _ : ℤ, List γ)) :
      ((entries.flatMap fun entry => entry.2.map
        (CallbackCall.pendingWrites (υ := υ) · (some .cancelled))).filterMap
          CallbackCall.waiter : Multiset γ) =
        (entries.map fun entry => (entry.2 : Multiset γ)).sum := by
    induction entries with
    | nil => rfl
    | cons entry entries ih =>
        rw [List.flatMap_cons, List.filterMap_append, ← Multiset.coe_add, ih, List.map_cons,
          List.sum_cons, List.filterMap_map]
        exact congrArg₂ (· + ·) (congrArg _ (List.filterMap_some (l := entry.2))) rfl
  rw [waiters, waiters, failOutstandingPendingWriteCallbacks, List.filterMap_append,
    ← Multiset.coe_add, hall]
  exact add_zero _

omit [LinearOrder κ] [DecidableEq ι] [DecidableEq υ] in
theorem registerPendingWritesCallback_waiters (c : WritingClient υ γ query) (callback : γ) :
    (c.registerPendingWritesCallback callback).waiters = c.waiters + {callback} := by
  unfold registerPendingWritesCallback
  dsimp only
  split
  · rw [waiters, waiters, List.filterMap_append, ← Multiset.coe_add]
    exact add_right_comm _ _ _
  · rw [waiters, waiters, allCallbacks_insert, allCallbacks_erase c.pendingWritesCallbacks
      c.queue.getHighestUnacknowledgedBatchId, ← Multiset.coe_add]
    have hone : (([callback] : List γ) : Multiset γ) = {callback} := rfl
    rw [hone]
    exact (congrArg (_ + ·) (add_right_comm _ _ _)).trans (add_assoc _ _ _).symm

/-- The callback that the event adds to those that wait for pending writes. -/
def newWaiters : ClientEvent κ υ ι γ → Multiset γ
  | .registerPendingWritesCallback callback => {callback}
  | _ => 0

/-- **No callback that waits for pending writes is lost or called twice.** -/
theorem step_waiters {event : ClientEvent κ υ ι γ} (h : c.step event = some c') :
    c'.waiters = c.waiters + newWaiters event := by
  have hwith {result : Option (RemoteWrites κ)} (hresult : c.withWrites result = some c') :
      c'.waiters = c.waiters + 0 := by
    obtain ⟨writes, -, rfl⟩ := Option.map_eq_some_iff.1 hresult
    exact (add_zero _).symm
  have hdisable {c c' : WritingClient υ γ query} (h : c.disableNetwork = some c') :
      SameWaiters c c' := by
    obtain ⟨writes, -, rfl⟩ := Option.map_eq_some_iff.1 h
    exact ⟨rfl, rfl⟩
  have henable {c c' : WritingClient υ γ query} (h : c.enableNetwork = some c') :
      c'.waiters = c.waiters := (fillWritePipeline_waiters h).eq
  have hfinish {c₁ : WritingClient υ γ query} {batchId : ℕ} {error : Option ErrorCode}
      {event : SyncEvent κ υ ι} {c₂ : WritingClient υ γ query}
      (h : ((c₁.finishWrite batchId error).engineStep event).bind fillWritePipeline = some c₂) :
      c₂.waiters = c₁.waiters := by
    obtain ⟨c₃, hstep, hfill⟩ := Option.bind_eq_some_iff.1 h
    rw [(fillWritePipeline_waiters hfill).eq, (engineStep_waiters hstep).eq,
      finishWrite_waiters]
  cases event with
  | engine event => exact (engineStep_waiters h).eq.trans (add_zero _).symm
  | writeMutations writes callback =>
      obtain ⟨c₁, hstep, hfill⟩ := Option.bind_eq_some_iff.1 h
      rw [(fillWritePipeline_waiters hfill).eq, (engineStep_waiters hstep).eq, addCallback]
      split <;> exact (add_zero _).symm
  | registerPendingWritesCallback callback =>
      rw [← Option.some.inj h]
      exact registerPendingWritesCallback_waiters c callback
  | handleCredentialChange user =>
      obtain ⟨c₁, hstep, hrest⟩ := Option.bind_eq_some_iff.1 h
      have hstart : c₁.waiters = c.waiters := by
        rw [(engineStep_waiters hstep).eq]
        split
        · rfl
        · exact c.failOutstandingPendingWriteCallbacks_waiters
      refine Eq.trans ?_ (add_zero _).symm
      rw [← hstart]
      split at hrest
      · obtain ⟨c₂, hoff, hon⟩ := Option.bind_eq_some_iff.1 hrest
        rw [henable hon, (hdisable hoff).eq]
      · rw [← Option.some.inj hrest]
  | enableNetwork => exact (henable h).trans (add_zero _).symm
  | disableNetwork => exact (hdisable h).eq.trans (add_zero _).symm
  | writeStreamOpened => exact hwith h
  | writeStreamResponse mutationResults =>
      rw [step] at h
      split at h
      · rw [onWriteStreamMutationResult] at h
        split at h
        · exact absurd h (by simp)
        · exact (hfinish h).trans (add_zero _).symm
      · exact hwith h
  | writeStreamFailed error =>
      obtain ⟨c₁, herror, hstart⟩ := Option.bind_eq_some_iff.1 h
      obtain ⟨writes, -, rfl⟩ := Option.map_eq_some_iff.1 hstart
      refine Eq.trans ?_ (add_zero _).symm
      change c₁.waiters = c.waiters
      split at herror
      · rw [handleWriteError] at herror
        split at herror
        · split at herror
          · exact absurd herror (by simp)
          · obtain ⟨writeStream, -, herror⟩ := Option.bind_eq_some_iff.1 herror
            have hsame := hfinish herror
            exact hsame
        · rw [← Option.some.inj herror]
          rfl
      · rw [← Option.some.inj herror]
        rfl
  | writeBackoffElapsed => exact hwith h
  | writeStreamIdle => exact hwith h

end Waiters

/-! ### Whether an event keeps to the rules can be computed -/

instance decidableKeeps (c : WritingClient υ γ query) :
    (event : ClientEvent κ υ ι γ) → Decidable (c.Keeps event)
  | .engine event => inferInstanceAs (Decidable (event.isWrite = false ∧ c.engine.Keeps event))
  | .writeMutations writes _ =>
      inferInstanceAs (Decidable (c.engine.Keeps (.writeMutations writes)))
  | .registerPendingWritesCallback _ => isTrue trivial
  | .handleCredentialChange _ => isTrue trivial
  | .enableNetwork => isTrue trivial
  | .disableNetwork => isTrue trivial
  | .writeStreamOpened => inferInstanceAs (Decidable (c.writes.writeStream.state = .starting))
  | .writeStreamResponse mutationResults => inferInstanceAs (Decidable
      (c.writes.writeStream.IsOpen ∧ (c.writes.handshakeComplete = true →
        ∃ request ∈ c.writes.unanswered.head?, request.length = mutationResults.length)))
  | .writeStreamFailed _ => inferInstanceAs (Decidable c.writes.writeStream.IsStarted)
  | .writeBackoffElapsed => inferInstanceAs (Decidable (c.writes.writeStream.state = .backoff))
  | .writeStreamIdle => inferInstanceAs (Decidable (c.writes.writeStream.idlenessTimer = true))

theorem inv_start (store : RestoredStore κ υ) :
    (start store : WritingClient υ γ query).Inv store := by
  refine ⟨⟨⟨[], trivial, rfl⟩, store.consecutive, fun u => ?_,
    fun batchId hmem => absurd hmem (AList.notMem_empty _)⟩, RemoteWrites.inv_start⟩
  refine ⟨_, [], (List.append_nil _).symm, List.suffix_rfl, fun _ _ => AList.notMem_empty _,
    fun batchId => iff_of_false (AList.notMem_empty _) ?_⟩
  exact fun ⟨_, hbatch, _⟩ => absurd hbatch List.not_mem_nil

omit [DecidableEq ι] in
/-- What an earlier session has left has no callbacks. -/
theorem ledger_start (store : RestoredStore κ υ) (u : υ) :
    (start store : WritingClient υ γ query).ledger u = [] :=
  List.filterMap_eq_nil_iff.2 fun _ _ => rfl

/-- **Every run that keeps to the rules goes through.** -/
theorem run_inv {store : RestoredStore κ υ} {events : List (ClientEvent κ υ ι γ)}
    (hkeeps : StepsMeet step Keeps (start store : WritingClient υ γ query) events) :
    ∃ c : WritingClient υ γ query, run step (start store) events = some c ∧ c.Inv store := by
  refine run_of_meet (fun c event hkeeps h => ?_) hkeeps (inv_start store)
  obtain ⟨c', hstep, hinv, -⟩ := step_inv h hkeeps
  exact ⟨c', hstep, hinv⟩

/-- The pipeline is the front of the queue while the client is online, and what is unanswered is the
pipeline. -/
theorem Inv.pipeline {store : RestoredStore κ υ} {c : WritingClient υ γ query} (h : c.Inv store) :
    (c.networkEnabled = true →
      c.writes.writePipeline = c.queue.queue.take maxPendingWrites ∧
      (c.queue.queue ≠ [] → c.writes.writeStream.IsStarted)) ∧
    (c.networkEnabled = false → c.writes.writePipeline = [] ∧ ¬ c.writes.writeStream.IsStarted) ∧
    c.writes.unanswered =
      if c.writes.IsWritable then c.writes.writePipeline.map MutationBatch.mutations else [] := by
  have hwrites := h.writes
  refine ⟨fun hon => ⟨hwrites.full hon, fun hne => ?_⟩, hwrites.disabled, hwrites.unanswered⟩
  refine hwrites.started fun hempty => hne ?_
  have hfull := hwrites.full hon
  rw [hempty] at hfull
  cases hqueue : c.queue.queue with
  | nil => rfl
  | cons first rest =>
      rw [hqueue, maxPendingWrites, List.take_succ_cons] at hfull
      exact absurd hfull (by simp)

/-- The callbacks of the users' writes, in the order of the writes. -/
def noteCallbacks (c : WritingClient υ γ query) (event : ClientEvent κ υ ι γ)
    (_ : WritingClient υ γ query) (written : υ → List γ) : υ → List γ :=
  fun user => written user ++ c.newCallbacks event user

/-- The callbacks for which pending writes have been waited for. -/
def noteWaiters (_ : WritingClient υ γ query) (event : ClientEvent κ υ ι γ)
    (_ : WritingClient υ γ query) (registered : Multiset γ) : Multiset γ :=
  registered + newWaiters event

end WritingClient

/-! ### Every order of events -/

variable {γ : Type*} [LinearOrder κ] [DecidableEq υ] [DecidableEq ι]
  {query : ι → Query κ ObjectValue}

/-- Two documents are written; one write is acknowledged, the other is refused with the stream; a
third one waits for the stream to come back while the user changes. -/
def refusedWrite : List (ClientEvent ℕ Bool Unit ℕ) :=
  [.enableNetwork, .writeMutations [.setData 1 .empty] 11,
    .writeMutations [.setData 0 .empty] 12, .registerPendingWritesCallback 20,
    .writeStreamOpened, .writeStreamResponse [], .writeStreamResponse [5],
    .writeStreamFailed .permissionDenied, .writeMutations [.deleteDocument 1] 13,
    .writeStreamFailed .unavailable, .writeBackoffElapsed, .registerPendingWritesCallback 21,
    .handleCredentialChange true]

/-- **In every run that keeps to the rules**, no assertion fails, and the engine is as after a run
of it alone that keeps to its rules: each answer of the backend is for the first batch of the queue.
With the network the pipeline has the first batches of the queue, and the write stream is started if
there are any; what is unanswered on the stream is the pipeline. -/
theorem writes_run {store : RestoredStore κ υ} {events : List (ClientEvent κ υ ι γ)}
    (hkeeps : StepsMeet WritingClient.step WritingClient.Keeps
      (WritingClient.start store : WritingClient υ γ query) events) :
    ∃ c : WritingClient υ γ query, run WritingClient.step (.start store) events = some c ∧
      SyncEngine.Reached store c.engine ∧
      (c.networkEnabled = true →
        c.writes.writePipeline = c.queue.queue.take maxPendingWrites ∧
        (c.queue.queue ≠ [] → c.writes.writeStream.IsStarted)) ∧
      (c.networkEnabled = false →
        c.writes.writePipeline = [] ∧ ¬ c.writes.writeStream.IsStarted) ∧
      c.writes.unanswered =
        if c.writes.IsWritable then c.writes.writePipeline.map MutationBatch.mutations else [] := by
  obtain ⟨c, hrun, hinv⟩ := WritingClient.run_inv hkeeps
  exact ⟨c, hrun, hinv.reached, hinv.pipeline⟩

theorem writes_run_refusedWrite :
    StepsMeet WritingClient.step WritingClient.Keeps
        (.start (.empty false) : WritingClient Bool ℕ fun _ => firstDocument) refusedWrite ∧
      ∃ c : WritingClient Bool ℕ fun _ => firstDocument,
        run WritingClient.step (.start (.empty false)) refusedWrite = some c ∧
          SyncEngine.Reached (.empty false) c.engine ∧
          (c.networkEnabled = true →
            c.writes.writePipeline = c.queue.queue.take maxPendingWrites ∧
            (c.queue.queue ≠ [] → c.writes.writeStream.IsStarted)) ∧
          (c.networkEnabled = false →
            c.writes.writePipeline = [] ∧ ¬ c.writes.writeStream.IsStarted) ∧
          c.writes.unanswered = if c.writes.IsWritable then
            c.writes.writePipeline.map MutationBatch.mutations else [] :=
  ⟨by decide, writes_run (by decide)⟩

/-- Two writes of an earlier session. -/
def writtenBefore : RestoredStore ℕ Bool where
  remoteDocumentCache := ∅
  mutationQueues user :=
    if user then { queue := [], nextBatchId := 1 }
    else
      { queue := [⟨3, [.set 0 .empty .none]⟩, ⟨4, [.delete 0 .none]⟩]
        nextBatchId := 5 }
  currentUser := false
  lastRemoteSnapshotVersion := .none
  wellKeyed _ _ hdoc := absurd hdoc (by simp)
  plain user m hm := by
    cases user with
    | true => exact absurd hm List.not_mem_nil
    | false =>
        have hm' : m = .set 0 .empty .none ∨ m = .delete 0 .none := by
          simpa [MutationQueue.mutations] using hm
        rcases hm' with rfl | rfl <;> rfl
  consecutive user := by cases user <;> exact ⟨rfl, by decide⟩

/-- Another document is written, and the first write of the queue is answered. -/
def restoredWrite : List (ClientEvent ℕ Bool Unit ℕ) :=
  [.enableNetwork, .writeMutations [.setData 1 .empty] 11, .writeStreamOpened,
    .writeStreamResponse [], .writeStreamResponse [5], .handleCredentialChange true]

/-- **In every run that keeps to the rules**, the callbacks of each user's writes are called in the
order of the writes and each once: those that have been called and those of the writes still in the
queue are those of all writes so far.  What is left of an earlier session comes first in the queue,
and nobody is called for it; each batch that has been written since still has its callback. -/
theorem callbacks_run {store : RestoredStore κ υ} {events : List (ClientEvent κ υ ι γ)}
    (hkeeps : StepsMeet WritingClient.step WritingClient.Keeps
      (WritingClient.start store : WritingClient υ γ query) events) :
    ∃ (c : WritingClient υ γ query) (written : υ → List γ),
      run (withHistory WritingClient.step WritingClient.noteCallbacks) (.start store, fun _ => [])
        events = some (c, written) ∧
      ∀ u, written u = c.finished u ++ c.unfinished u ∧ ∃ old new,
        (c.engine.localStore.mutationQueues u).queue = old ++ new ∧
        old <:+ (store.mutationQueues u).queue ∧
        (∀ batch ∈ old, batch.batchId ∉ c.mutationCallbacks u) ∧
        (∀ batch ∈ new, batch.batchId ∈ c.mutationCallbacks u) ∧
        (c.unfinished u).length = new.length := by
  have hnoted : ∀ (x : WritingClient υ γ query × (υ → List γ)) event, x.1.Keeps event →
      (x.1.Inv store ∧ ∀ u, x.1.ledger u = x.2 u) →
        ∃ x', withHistory WritingClient.step WritingClient.noteCallbacks x event = some x' ∧
          x'.1.Inv store ∧ ∀ u, x'.1.ledger u = x'.2 u := by
    intro x event hkeeps h
    obtain ⟨c', hstep, hinv, hledger⟩ := WritingClient.step_inv h.1 hkeeps
    refine ⟨(c', WritingClient.noteCallbacks x.1 event c' x.2),
      withHistory_eq_some.2 ⟨hstep, rfl⟩, hinv, fun u => ?_⟩
    rw [hledger, h.2]
    rfl
  obtain ⟨⟨c, written⟩, hrun, hinv, hledger⟩ := run_of_meet hnoted
    (stepsMeet_withHistory.2 hkeeps)
      ⟨WritingClient.inv_start store, WritingClient.ledger_start store⟩
  refine ⟨c, written, hrun, fun u => ⟨(hledger u).symm, ?_⟩⟩
  obtain ⟨old, new, hqueue, hsuffix, hold, hnew⟩ := hinv.callbacks u
  have hcallback (batch : MutationBatch κ) (hbatch : batch ∈ new) :
      batch.batchId ∈ c.mutationCallbacks u := (hnew batch.batchId).2 ⟨batch, hbatch, rfl⟩
  refine ⟨old, new, hqueue, hsuffix, hold, hcallback, ?_⟩
  have hnone : (old.filterMap fun batch => (c.mutationCallbacks u).lookup batch.batchId) = [] :=
    List.filterMap_eq_nil_iff.2 fun batch hbatch => AList.lookup_eq_none.2 (hold batch hbatch)
  rw [WritingClient.unfinished, hqueue, List.filterMap_append, hnone, List.nil_append,
    List.filterMap_length_eq_length]
  exact fun batch hbatch => AList.lookup_isSome.2 (hcallback batch hbatch)

theorem callbacks_run_restoredWrite :
    StepsMeet WritingClient.step WritingClient.Keeps
        (.start writtenBefore : WritingClient Bool ℕ fun _ => firstDocument) restoredWrite ∧
      ∃ (c : WritingClient Bool ℕ fun _ => firstDocument) (written : Bool → List ℕ),
        run (withHistory WritingClient.step WritingClient.noteCallbacks)
          (.start writtenBefore, fun _ => []) restoredWrite = some (c, written) ∧
        ∀ u, written u = c.finished u ++ c.unfinished u ∧ ∃ old new,
          (c.engine.localStore.mutationQueues u).queue = old ++ new ∧
          old <:+ (writtenBefore.mutationQueues u).queue ∧
          (∀ batch ∈ old, batch.batchId ∉ c.mutationCallbacks u) ∧
          (∀ batch ∈ new, batch.batchId ∈ c.mutationCallbacks u) ∧
          (c.unfinished u).length = new.length :=
  ⟨by decide, callbacks_run (by decide)⟩

/-- **In every run that keeps to the rules**, each callback that waits for pending writes is called
once: those that have been called and those that still wait are all that have been registered.  A
waiting one waits for a batch that is still in the queue of the current user, so nobody waits when
nothing is queued. -/
theorem pendingWrites_run {store : RestoredStore κ υ} {events : List (ClientEvent κ υ ι γ)}
    (hkeeps : StepsMeet WritingClient.step WritingClient.Keeps
      (WritingClient.start store : WritingClient υ γ query) events) :
    ∃ (c : WritingClient υ γ query) (registered : Multiset γ),
      run (withHistory WritingClient.step WritingClient.noteWaiters) (.start store, 0) events =
        some (c, registered) ∧
      registered = (c.called.filterMap CallbackCall.waiter : Multiset γ) +
        WritingClient.allCallbacks c.pendingWritesCallbacks ∧
      ∀ batchId ∈ c.pendingWritesCallbacks,
        ∃ batch ∈ c.queue.queue, (batch.batchId : ℤ) = batchId := by
  have hnoted : ∀ (x : WritingClient υ γ query × Multiset γ) event, x.1.Keeps event →
      (x.1.Inv store ∧ x.1.waiters = x.2) →
        ∃ x', withHistory WritingClient.step WritingClient.noteWaiters x event = some x' ∧
          x'.1.Inv store ∧ x'.1.waiters = x'.2 := by
    intro x event hkeeps h
    obtain ⟨c', hstep, hinv, -⟩ := WritingClient.step_inv h.1 hkeeps
    refine ⟨(c', WritingClient.noteWaiters x.1 event c' x.2),
      withHistory_eq_some.2 ⟨hstep, rfl⟩, hinv, ?_⟩
    rw [WritingClient.step_waiters hstep, h.2]
    rfl
  have hstart : (WritingClient.start store : WritingClient υ γ query).waiters = 0 := add_zero _
  obtain ⟨⟨c, registered⟩, hrun, hinv, hwaiters⟩ := run_of_meet hnoted
    (stepsMeet_withHistory.2 hkeeps) ⟨WritingClient.inv_start store, hstart⟩
  exact ⟨c, registered, hrun, hwaiters.symm, hinv.waiting⟩

theorem pendingWrites_run_refusedWrite :
    StepsMeet WritingClient.step WritingClient.Keeps
        (.start (.empty false) : WritingClient Bool ℕ fun _ => firstDocument) refusedWrite ∧
      ∃ (c : WritingClient Bool ℕ fun _ => firstDocument) (registered : Multiset ℕ),
        run (withHistory WritingClient.step WritingClient.noteWaiters) (.start (.empty false), 0)
          refusedWrite = some (c, registered) ∧
        registered = (c.called.filterMap CallbackCall.waiter : Multiset ℕ) +
          WritingClient.allCallbacks c.pendingWritesCallbacks ∧
        ∀ batchId ∈ c.pendingWritesCallbacks,
          ∃ batch ∈ c.queue.queue, (batch.batchId : ℤ) = batchId :=
  ⟨by decide, pendingWrites_run (by decide)⟩

end FirestoreClient
