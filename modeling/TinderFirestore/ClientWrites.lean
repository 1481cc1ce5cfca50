/-
**The client and its writes.**

The sync engine together with the half of the remote store that sends writes.  Whatever users do,
and however the network comes and goes and the write stream opens, answers and fails, the answers
of the backend are for the first batch of the queue, so that the engine can remove it.

Main definitions:

* `FirestoreClient.WritingClient` with `step` — the engine, the network, the write pipeline and the
  callbacks of the users;
* `FirestoreClient.WritingClient.Keeps` — what users and the backend keep to;
* `FirestoreClient.WritingClient.Inv` — what holds of the client.

Main results:

* `FirestoreClient.WritingClient.finishWrite_sound` — **when the first batch is done with**, its
  callback has been called;
* `FirestoreClient.WritingClient.step_inv` — **every event goes through, and the pipeline fits the
  queue again**.
-/

import TinderFirestore.SyncQueues

set_option relaxedAutoImplicit false
set_option autoImplicit false

namespace FirestoreClient

variable {κ υ ι : Type*}

/-! ### The client -/

/-- A callback of a user is called: with an error, or without one. -/
inductive CallbackCall (υ γ : Type*)
  /-- That of a write. -/
  | write (user : υ) (callback : γ) (error : Option ErrorCode)
  /-- That of `waitForPendingWrites`. -/
  | pendingWrites (callback : γ) (error : Option ErrorCode)

/-- The callback of a write of the user. -/
def CallbackCall.ofUser {γ : Type*} [DecidableEq υ] (user : υ) : CallbackCall υ γ → Option γ
  | .write user' callback _ => if user' = user then some callback else none
  | .pendingWrites _ _ => none

/-- The callback of a call of `waitForPendingWrites`. -/
def CallbackCall.waiter {γ : Type*} : CallbackCall υ γ → Option γ
  | .write _ _ _ => none
  | .pendingWrites callback _ => some callback

/-- The sync engine with the callbacks of the users, and the half of the remote store that sends
writes. -/
structure WritingClient (υ γ : Type*) (query : ι → Query κ ObjectValue) where
  engine : SyncEngine υ query
  networkEnabled : Bool
  writes : RemoteWrites κ
  mutationCallbacks : υ → AList fun _ : ℕ => γ
  pendingWritesCallbacks : AList fun _ : ℤ => List γ
  called : List (CallbackCall υ γ)

/-- What happens to the client. -/
inductive ClientEvent (κ υ ι γ : Type*)
  /-- What does not concern writes. -/
  | engine (event : SyncEvent κ υ ι)
  | writeMutations (writes : List (UserWrite κ)) (callback : γ)
  | registerPendingWritesCallback (callback : γ)
  | handleCredentialChange (user : υ)
  | enableNetwork
  | disableNetwork
  | writeStreamOpened
  /-- The first response completes the handshake; any other has the version of each mutation. -/
  | writeStreamResponse (mutationResults : List SnapshotVersion)
  | writeStreamFailed (error : ErrorCode)
  | writeBackoffElapsed
  | writeStreamIdle

namespace WritingClient

variable {γ : Type*} [LinearOrder κ] [DecidableEq υ] [DecidableEq ι]
  {query : ι → Query κ ObjectValue}

/-- The client before `RemoteStore::Start`, which enables the network.  The callbacks of an earlier
session are gone. -/
def start (store : RestoredStore κ υ) : WritingClient υ γ query where
  engine := .start store
  networkEnabled := false
  writes := .start
  mutationCallbacks := fun _ => ∅
  pendingWritesCallbacks := ∅
  called := []

section Operations

variable (c : WritingClient υ γ query)

/-- The queue of the current user. -/
def queue : MutationQueue κ := c.engine.localStore.mutationQueue

def currentUser : υ := c.engine.localStore.currentUser

/-! ### Callbacks -/

/-- What `WriteMutations` does with the callback: it does not replace another one. -/
def addCallback (batchId : ℕ) (callback : γ) : WritingClient υ γ query :=
  if batchId ∈ c.mutationCallbacks c.currentUser then c
  else
    { c with
      mutationCallbacks := Function.update c.mutationCallbacks c.currentUser
        ((c.mutationCallbacks c.currentUser).insert batchId callback) }

/-- `NotifyUser`. -/
def notifyUser (batchId : ℕ) (error : Option ErrorCode) : WritingClient υ γ query :=
  match (c.mutationCallbacks c.currentUser).lookup batchId with
  | none => c
  | some callback =>
      { c with
        mutationCallbacks := Function.update c.mutationCallbacks c.currentUser
          ((c.mutationCallbacks c.currentUser).erase batchId)
        called := c.called ++ [.write c.currentUser callback error] }

/-- `TriggerPendingWriteCallbacks`. -/
def triggerPendingWriteCallbacks (batchId : ℕ) : WritingClient υ γ query :=
  match c.pendingWritesCallbacks.lookup (batchId : ℤ) with
  | none => c
  | some callbacks =>
      { c with
        pendingWritesCallbacks := c.pendingWritesCallbacks.erase (batchId : ℤ)
        called := c.called ++ callbacks.map (.pendingWrites · none) }

/-- The users hear of the answer to a batch before their listeners do. -/
def finishWrite (batchId : ℕ) (error : Option ErrorCode) : WritingClient υ γ query :=
  (c.notifyUser batchId error).triggerPendingWriteCallbacks batchId

/-- `FailOutstandingPendingWriteCallbacks`. -/
def failOutstandingPendingWriteCallbacks : WritingClient υ γ query :=
  { c with
    pendingWritesCallbacks := ∅
    called := c.called ++ c.pendingWritesCallbacks.entries.flatMap fun entry =>
      entry.2.map (.pendingWrites · (some .cancelled)) }

/-- `RegisterPendingWritesCallback`. -/
def registerPendingWritesCallback (callback : γ) : WritingClient υ γ query :=
  let largestPendingBatchId := c.queue.getHighestUnacknowledgedBatchId
  if largestPendingBatchId = batchIdUnknown then
    { c with called := c.called ++ [.pendingWrites callback none] }
  else
    { c with
      pendingWritesCallbacks := c.pendingWritesCallbacks.insert largestPendingBatchId
        ((c.pendingWritesCallbacks.lookup largestPendingBatchId).getD [] ++ [callback]) }

/-! ### Steps -/

/-- The engine handles an event. -/
def engineStep (event : SyncEvent κ υ ι) : Option (WritingClient υ γ query) :=
  (c.engine.next event).map fun engine => { c with engine := engine }

/-- `FillWritePipeline`, from the queue of the current user. -/
def fillWritePipeline : Option (WritingClient υ γ query) :=
  (c.writes.fillWritePipeline c.networkEnabled c.queue).map fun writes =>
    { c with writes := writes }

/-- `WriteMutations`. -/
def writeMutations (writes : List (UserWrite κ)) (callback : γ) :
    Option (WritingClient υ γ query) :=
  ((c.addCallback c.queue.nextBatchId callback).engineStep (.writeMutations writes)).bind
    fillWritePipeline

/-- `EnableNetwork`, as far as it concerns writes. -/
def enableNetwork : Option (WritingClient υ γ query) :=
  fillWritePipeline { c with networkEnabled := true }

/-- `DisableNetwork`, as far as it concerns writes. -/
def disableNetwork : Option (WritingClient υ γ query) :=
  c.writes.disableNetworkInternal.map fun writes =>
    { c with
      networkEnabled := false
      writes := writes }

/-- `HandleCredentialChange`, of the engine and of the remote store. -/
def handleCredentialChange (user : υ) : Option (WritingClient υ γ query) :=
  ((if user = c.currentUser then c else c.failOutstandingPendingWriteCallbacks).engineStep
      (.handleCredentialChange user)).bind fun c =>
    if c.networkEnabled then c.disableNetwork.bind enableNetwork else some c

/-- `OnWriteStreamMutationResult`: the answer is for the first batch of the pipeline. -/
def onWriteStreamMutationResult (mutationResults : List SnapshotVersion) :
    Option (WritingClient υ γ query) :=
  match c.writes.writePipeline with
  | [] => none
  | batch :: _ =>
      (engineStep ({ c with writes := c.writes.answered }.finishWrite batch.batchId none)
        (.handleSuccessfulWrite
          { batchId := batch.batchId, mutationResults := mutationResults })).bind fillWritePipeline

/-- `HandleWriteError`: only when trying again is of no use, the first batch is given up. -/
def handleWriteError (error : ErrorCode) : Option (WritingClient υ γ query) :=
  if error.isPermanentWriteError then
    match c.writes.writePipeline with
    | [] => none
    | batch :: rest =>
        c.writes.writeStream.inhibitBackoff.bind fun writeStream =>
          let writes := { c.writes with writePipeline := rest, writeStream := writeStream }
          (engineStep ({ c with writes := writes }.finishWrite batch.batchId (some error))
            (.handleRejectedWrite batch.batchId)).bind fillWritePipeline
  else some c

/-- The write stream fails, and `OnWriteStreamClose`. -/
def writeStreamFailed (error : ErrorCode) : Option (WritingClient υ γ query) :=
  let c := { c with writes := c.writes.closed false }
  (if c.writes.writePipeline ≠ [] ∧ c.writes.handshakeComplete = true then
      c.handleWriteError error
    else some c).bind fun c =>
    (c.writes.startIfNeeded c.networkEnabled).map fun writes =>
      { c with writes := { writes with handshakeComplete := false } }

/-- Something concerns the write pipeline alone. -/
def withWrites (writes : Option (RemoteWrites κ)) : Option (WritingClient υ γ query) :=
  writes.map fun writes => { c with writes := writes }

/-- The client handles an event; none if an assertion fails. -/
def step : ClientEvent κ υ ι γ → Option (WritingClient υ γ query)
  | .engine event => c.engineStep event
  | .writeMutations writes callback => c.writeMutations writes callback
  | .registerPendingWritesCallback callback => some (c.registerPendingWritesCallback callback)
  | .handleCredentialChange user => c.handleCredentialChange user
  | .enableNetwork => c.enableNetwork
  | .disableNetwork => c.disableNetwork
  | .writeStreamOpened => c.withWrites c.writes.onWriteStreamOpen
  | .writeStreamResponse mutationResults =>
      if c.writes.handshakeComplete then c.onWriteStreamMutationResult mutationResults
      else c.withWrites c.writes.onWriteStreamHandshakeComplete
  | .writeStreamFailed error => c.writeStreamFailed error
  | .writeBackoffElapsed => c.withWrites (c.writes.writeStream.backoffElapsed.map
      fun writeStream => { c.writes with writeStream := writeStream })
  | .writeStreamIdle => c.withWrites (c.writes.stopWriteStream c.networkEnabled)

/-- **The rules**: users and the backend keep to those of the engine, and what happens to the stream
can happen to it; the backend answers each request with one version for each mutation. -/
def Keeps : ClientEvent κ υ ι γ → Prop
  | .engine event => event.isWrite = false ∧ c.engine.Keeps event
  | .writeMutations writes _ => c.engine.Keeps (.writeMutations writes)
  | .registerPendingWritesCallback _ => True
  | .handleCredentialChange _ => True
  | .enableNetwork => True
  | .disableNetwork => True
  | .writeStreamOpened => c.writes.writeStream.state = .starting
  | .writeStreamResponse mutationResults => c.writes.writeStream.IsOpen ∧
      (c.writes.handshakeComplete = true → ∃ request ∈ c.writes.unanswered.head?,
        request.length = mutationResults.length)
  | .writeStreamFailed _ => c.writes.writeStream.IsStarted
  | .writeBackoffElapsed => c.writes.writeStream.state = .backoff
  | .writeStreamIdle => c.writes.writeStream.idlenessTimer = true

end Operations

/-! ### What holds of the client -/

/-- The callbacks of the user's writes that are done with, in the order in which they were
called. -/
def finished (c : WritingClient υ γ query) (user : υ) : List γ :=
  c.called.filterMap (CallbackCall.ofUser user)

/-- The callbacks of the user's queued writes. -/
def unfinished (c : WritingClient υ γ query) (user : υ) : List γ :=
  (c.engine.localStore.mutationQueues user).queue.filterMap fun batch =>
    (c.mutationCallbacks user).lookup batch.batchId

/-- What is left of an earlier session comes first in the queue and has no callbacks; each batch
after that has one, and no other batch has. -/
def CallbacksFit (restored queue : List (MutationBatch κ)) (callbacks : AList fun _ : ℕ => γ) :
    Prop :=
  ∃ old new, queue = old ++ new ∧ old <:+ restored ∧ (∀ batch ∈ old, batch.batchId ∉ callbacks) ∧
    ∀ batchId, batchId ∈ callbacks ↔ ∃ batch ∈ new, batch.batchId = batchId

/-- What holds of the queues and the callbacks: the engine has been reached by the rules, ids follow
each other, the batches that have been written since the start have callbacks, and
`waitForPendingWrites` waits for a queued batch of the current user. -/
structure Sound (store : RestoredStore κ υ) (c : WritingClient υ γ query) : Prop where
  reached : SyncEngine.Reached store c.engine
  consecutive : ∀ user, (c.engine.localStore.mutationQueues user).Consecutive
  callbacks : ∀ user, CallbacksFit (store.mutationQueues user).queue
    (c.engine.localStore.mutationQueues user).queue (c.mutationCallbacks user)
  waiting : ∀ batchId ∈ c.pendingWritesCallbacks,
    ∃ batch ∈ c.queue.queue, (batch.batchId : ℤ) = batchId

/-- **What holds of the client.** -/
structure Inv (store : RestoredStore κ υ) (c : WritingClient υ γ query) : Prop
    extends Sound store c where
  writes : c.writes.Inv c.networkEnabled c.queue.queue

section Fit

variable {restored queue : List (MutationBatch κ)} {callbacks : AList fun _ : ℕ => γ}

omit [LinearOrder κ] [DecidableEq υ] [DecidableEq ι]

theorem CallbacksFit.exists_batch (h : CallbacksFit restored queue callbacks) {batchId : ℕ}
    (hmem : batchId ∈ callbacks) : ∃ batch ∈ queue, batch.batchId = batchId := by
  obtain ⟨old, new, rfl, -, -, hnew⟩ := h
  obtain ⟨batch, hbatch, hid⟩ := (hnew batchId).1 hmem
  exact ⟨batch, List.mem_append_right _ hbatch, hid⟩

/-- A batch with a new id and its callback come at the end. -/
theorem CallbacksFit.append (h : CallbacksFit restored queue callbacks) {batch : MutationBatch κ}
    (hid : ∀ old ∈ queue, old.batchId ≠ batch.batchId) (callback : γ) :
    CallbacksFit restored (queue ++ [batch]) (callbacks.insert batch.batchId callback) := by
  obtain ⟨old, new, rfl, hsuffix, hold, hnew⟩ := h
  refine ⟨old, new ++ [batch], List.append_assoc _ _ _, hsuffix, fun b hb hmem => ?_,
    fun batchId => ?_⟩
  · rcases (AList.mem_insert _).1 hmem with heq | hmem
    · exact hid b (List.mem_append_left _ hb) heq
    · exact hold b hb hmem
  · rw [AList.mem_insert, hnew]
    simp only [List.mem_append, List.mem_singleton, or_and_right, exists_or, exists_eq_left]
    rw [or_comm, eq_comm (a := batchId)]

/-- The first batch goes, and its callback if it has one. -/
theorem CallbacksFit.tail {batch : MutationBatch κ} {rest : List (MutationBatch κ)}
    (h : CallbacksFit restored (batch :: rest) callbacks)
    (hne : ∀ other ∈ rest, other.batchId ≠ batch.batchId) :
    CallbacksFit restored rest (callbacks.erase batch.batchId) := by
  obtain ⟨old, new, hqueue, hsuffix, hold, hnew⟩ := h
  cases old with
  | nil =>
      rw [List.nil_append] at hqueue
      refine ⟨[], rest, rfl, List.nil_suffix, fun _ hb => absurd hb List.not_mem_nil,
        fun batchId => ?_⟩
      rw [AList.mem_erase, hnew, ← hqueue]
      constructor
      · rintro ⟨hdiff, b, hb, rfl⟩
        rcases List.mem_cons.1 hb with rfl | hb
        · exact absurd rfl hdiff
        · exact ⟨b, hb, rfl⟩
      · rintro ⟨b, hb, rfl⟩
        exact ⟨hne b hb, b, List.mem_cons_of_mem _ hb, rfl⟩
  | cons first old =>
      rw [List.cons_append, List.cons.injEq] at hqueue
      obtain ⟨rfl, rfl⟩ := hqueue
      refine ⟨old, new, rfl, (List.suffix_cons _ _).trans hsuffix,
        fun b hb hmem => hold b (List.mem_cons_of_mem _ hb) (AList.mem_erase.1 hmem).2,
        fun batchId => ?_⟩
      rw [AList.mem_erase, hnew]
      refine and_iff_right_of_imp ?_
      rintro ⟨b, hb, rfl⟩
      exact hne b (List.mem_append_right _ hb)

/-- A batch with a new id is called back after all others. -/
theorem filterMap_lookup_append {batch : MutationBatch κ}
    (hid : ∀ old ∈ queue, old.batchId ≠ batch.batchId) (callback : γ) :
    ((queue ++ [batch]).filterMap fun b =>
      (callbacks.insert batch.batchId callback).lookup b.batchId) =
        (queue.filterMap fun b => callbacks.lookup b.batchId) ++ [callback] := by
  rw [List.filterMap_append]
  refine congrArg₂ (· ++ ·) (List.filterMap_congr fun old hold => ?_) ?_
  · exact AList.lookup_insert_ne (hid old hold)
  · simp only [List.filterMap_cons, AList.lookup_insert, List.filterMap_nil]

/-- The first batch is called back before all others. -/
theorem filterMap_lookup_cons {batch : MutationBatch κ} {rest : List (MutationBatch κ)}
    (hne : ∀ other ∈ rest, other.batchId ≠ batch.batchId) :
    ((batch :: rest).filterMap fun b => callbacks.lookup b.batchId) =
      (callbacks.lookup batch.batchId).toList ++
        rest.filterMap fun b => (callbacks.erase batch.batchId).lookup b.batchId := by
  have hrest : (rest.filterMap fun b => (callbacks.erase batch.batchId).lookup b.batchId) =
      rest.filterMap fun b => callbacks.lookup b.batchId :=
    List.filterMap_congr fun b hb => AList.lookup_erase_ne (hne b hb)
  rw [hrest, List.filterMap_cons]
  cases callbacks.lookup batch.batchId <;> rfl

end Fit

section Invariant

variable {store : RestoredStore κ υ} {c c' : WritingClient υ γ query}

theorem Sound.congr (h : c.Sound store) (hreached : SyncEngine.Reached store c'.engine)
    (hqueues : c'.engine.localStore.queues = c.engine.localStore.queues)
    (hmutation : c'.mutationCallbacks = c.mutationCallbacks)
    (hpending : c'.pendingWritesCallbacks = c.pendingWritesCallbacks) : c'.Sound store := by
  obtain ⟨hall, -, hqueue⟩ := LocalStore.queues_eq hqueues
  refine ⟨hreached, fun u => ?_, fun u => ?_, fun batchId hmem => ?_⟩
  · rw [hall]
    exact h.consecutive u
  · rw [hall, hmutation]
    exact h.callbacks u
  · rw [queue, hqueue]
    exact h.waiting batchId (hpending ▸ hmem)

/-- The callbacks of all writes of the user, in the order of the writes if they are called in it. -/
def ledger (c : WritingClient υ γ query) (user : υ) : List γ := c.finished user ++ c.unfinished user

omit [LinearOrder κ] [DecidableEq ι] in
theorem ledger_congr (hcalled : c'.called = c.called)
    (hmutation : c'.mutationCallbacks = c.mutationCallbacks)
    (hqueue : ∀ u, (c'.engine.localStore.mutationQueues u).queue =
      (c.engine.localStore.mutationQueues u).queue) (u : υ) : c'.ledger u = c.ledger u := by
  rw [ledger, ledger, finished, finished, unfinished, unfinished, hcalled, hmutation, hqueue]

/-- The engine handles what does not concern writes. -/
theorem engineStep_spec (h : c.Sound store) {event : SyncEvent κ υ ι}
    (hevent : event.isWrite = false) (hkeeps : c.engine.Keeps event) :
    ∃ engine, c.engineStep event = some { c with engine := engine } ∧
      engine.localStore.queues = c.engine.localStore.queues ∧
      Sound store { c with engine := engine } := by
  obtain ⟨engine, hnext, hreached⟩ := h.reached.step hkeeps
  have hqueues := SyncEngine.next_queues hnext hevent
  refine ⟨engine, ?_, hqueues, h.congr hreached hqueues rfl rfl⟩
  rw [engineStep, hnext, Option.map_some]

/-- **A write** puts its batch and its callback at the end. -/
theorem writeMutations_sound (h : c.Sound store) {writes : List (UserWrite κ)}
    (hkeeps : c.engine.Keeps (.writeMutations writes)) (callback : γ) :
    ∃ (c' : WritingClient υ γ query) (batch : MutationBatch κ),
      (c.addCallback c.queue.nextBatchId callback).engineStep (.writeMutations writes) = some c' ∧
      c'.Sound store ∧ c'.networkEnabled = c.networkEnabled ∧ c'.writes = c.writes ∧
      c'.queue.queue = c.queue.queue ++ [batch] ∧
      ∀ u, c'.ledger u = c.ledger u ++ if u = c.currentUser then [callback] else [] := by
  obtain ⟨engine, hnext, hreached⟩ := h.reached.step hkeeps
  obtain ⟨batch, hid, hqueues⟩ := SyncEngine.next_writeMutations hnext
  have hid : batch.batchId = c.queue.nextBatchId := hid
  have hfresh : ∀ old ∈ c.queue.queue, old.batchId ≠ batch.batchId := by
    intro old hold
    rw [hid]
    exact Nat.ne_of_lt ((h.consecutive c.currentUser).batchId_lt hold)
  rw [← hid]
  have hnew : batch.batchId ∉ c.mutationCallbacks c.currentUser := by
    intro hmem
    obtain ⟨old, hold, hsame⟩ := (h.callbacks _).exists_batch hmem
    exact hfresh old hold hsame
  have hadd : c.addCallback batch.batchId callback =
      { c with
        mutationCallbacks := Function.update c.mutationCallbacks c.currentUser
          ((c.mutationCallbacks c.currentUser).insert batch.batchId callback) } :=
    if_neg hnew
  obtain ⟨hall, huser, hqueue⟩ := LocalStore.queues_eq hqueues
  have hmine : engine.localStore.mutationQueue.queue = c.queue.queue ++ [batch] := by
    rw [hqueue, LocalStore.mutationQueue_setMutationQueue]
    rfl
  have hqueueOf (u : υ) : (engine.localStore.mutationQueues u).queue =
      (c.engine.localStore.mutationQueues u).queue ++
        if u = c.currentUser then [batch] else [] := by
    rw [hall, LocalStore.mutationQueues_setMutationQueue]
    by_cases hu : u = c.engine.localStore.currentUser
    · have hcurrent : u = c.currentUser := hu
      rw [if_pos hu, if_pos hcurrent, hu]
      rfl
    · have hcurrent : ¬ u = c.currentUser := hu
      rw [if_neg hu, if_neg hcurrent, List.append_nil]
  refine ⟨{ c with
      engine := engine
      mutationCallbacks := Function.update c.mutationCallbacks c.currentUser
        ((c.mutationCallbacks c.currentUser).insert batch.batchId callback) }, batch, ?_,
    ⟨hreached, fun u => ?_, fun u => ?_, fun batchId hmem => ?_⟩, rfl, rfl, hmine,
    fun u => ?_⟩
  · rw [hadd, engineStep, hnext, Option.map_some]
  · rw [hall, LocalStore.mutationQueues_setMutationQueue]
    split
    · exact (h.consecutive _).append hid
    · exact h.consecutive u
  · dsimp only
    rw [hqueueOf]
    by_cases hu : u = c.currentUser
    · subst hu
      rw [Function.update_self, if_pos rfl]
      exact (h.callbacks c.currentUser).append hfresh callback
    · rw [Function.update_of_ne hu, if_neg hu, List.append_nil]
      exact h.callbacks u
  · obtain ⟨old, hold, hsame⟩ := h.waiting batchId hmem
    refine ⟨old, ?_, hsame⟩
    change old ∈ engine.localStore.mutationQueue.queue
    rw [hmine]
    exact List.mem_append_left _ hold
  · rw [ledger, ledger, List.append_assoc]
    refine congrArg (c.finished u ++ ·) ?_
    rw [unfinished, unfinished, hqueueOf]
    by_cases hu : u = c.currentUser
    · subst hu
      simp only [Function.update_self, if_pos]
      exact filterMap_lookup_append hfresh callback
    · simp only [Function.update_of_ne hu, if_neg hu, List.append_nil]

section Finish

variable (c) (batchId : ℕ) (error : Option ErrorCode)

omit [LinearOrder κ] [DecidableEq ι]

@[simp] theorem finishWrite_engine : (c.finishWrite batchId error).engine = c.engine := by
  unfold finishWrite triggerPendingWriteCallbacks notifyUser
  split <;> split <;> rfl

@[simp] theorem finishWrite_networkEnabled :
    (c.finishWrite batchId error).networkEnabled = c.networkEnabled := by
  unfold finishWrite triggerPendingWriteCallbacks notifyUser
  split <;> split <;> rfl

@[simp] theorem finishWrite_writes : (c.finishWrite batchId error).writes = c.writes := by
  unfold finishWrite triggerPendingWriteCallbacks notifyUser
  split <;> split <;> rfl

/-- Nobody waits for the batch any more. -/
theorem mem_finishWrite_pendingWritesCallbacks {b : ℤ} :
    b ∈ (c.finishWrite batchId error).pendingWritesCallbacks ↔
      b ≠ batchId ∧ b ∈ c.pendingWritesCallbacks := by
  have hsame : (c.notifyUser batchId error).pendingWritesCallbacks = c.pendingWritesCallbacks := by
    unfold notifyUser
    split <;> rfl
  rw [← hsame, finishWrite]
  generalize c.notifyUser batchId error = c₁
  rw [triggerPendingWriteCallbacks]
  split
  · next hnone =>
      constructor
      · intro hb
        refine ⟨?_, hb⟩
        rintro rfl
        exact AList.lookup_eq_none.1 hnone hb
      · exact And.right
  · exact AList.mem_erase

/-- The callback of the batch is called if it has one. -/
theorem notifyUser_callbacks :
    (c.notifyUser batchId error).mutationCallbacks =
        Function.update c.mutationCallbacks c.currentUser
          ((c.mutationCallbacks c.currentUser).erase batchId) ∧
      ∀ u, (c.notifyUser batchId error).finished u = c.finished u ++
        if c.currentUser = u then ((c.mutationCallbacks c.currentUser).lookup batchId).toList
          else [] := by
  cases hcallback : (c.mutationCallbacks c.currentUser).lookup batchId with
  | none =>
      have hsame : c.notifyUser batchId error = c := by simp only [notifyUser, hcallback]
      have herase : (c.mutationCallbacks c.currentUser).erase batchId =
          c.mutationCallbacks c.currentUser :=
        AList.ext (List.kerase_of_notMem_keys (AList.lookup_eq_none.1 hcallback))
      rw [hsame, herase, Function.update_eq_self]
      exact ⟨rfl, fun u => by simp⟩
  | some callback =>
      have hnotify : c.notifyUser batchId error =
          { c with
            mutationCallbacks := Function.update c.mutationCallbacks c.currentUser
              ((c.mutationCallbacks c.currentUser).erase batchId)
            called := c.called ++ [.write c.currentUser callback error] } := by
        simp only [notifyUser, hcallback]
      refine ⟨by rw [hnotify], fun u => ?_⟩
      rw [hnotify, finished, List.filterMap_append]
      refine congrArg (c.finished u ++ ·) ?_
      by_cases hu : c.currentUser = u <;> simp [CallbackCall.ofUser, hu]

/-- No other callback of a write is called. -/
theorem finishWrite_callbacks :
    (c.finishWrite batchId error).mutationCallbacks =
        Function.update c.mutationCallbacks c.currentUser
          ((c.mutationCallbacks c.currentUser).erase batchId) ∧
      ∀ u, (c.finishWrite batchId error).finished u = c.finished u ++
        if c.currentUser = u then ((c.mutationCallbacks c.currentUser).lookup batchId).toList
          else [] := by
  obtain ⟨hmutation, hfinished⟩ := c.notifyUser_callbacks batchId error
  have hwaiters (callbacks : List γ) (u : υ) :
      (callbacks.map (CallbackCall.pendingWrites (υ := υ) · none)).filterMap
        (CallbackCall.ofUser u) = [] := by
    rw [List.filterMap_map]
    exact List.filterMap_eq_nil_iff.2 fun _ _ => rfl
  rw [finishWrite, triggerPendingWriteCallbacks]
  split
  · exact ⟨hmutation, hfinished⟩
  · refine ⟨hmutation, fun u => ?_⟩
    rw [← hfinished, finished, List.filterMap_append, hwaiters, List.append_nil]
    rfl

end Finish

/-- **When the first batch is done with**, its callback has been called, and the others are for the
batches that are left. -/
theorem finishWrite_sound (h : c.Sound store) {batch : MutationBatch κ}
    {rest : List (MutationBatch κ)} (hqueue : c.queue.queue = batch :: rest)
    (error : Option ErrorCode) {engine : SyncEngine υ query}
    (hreached : SyncEngine.Reached store engine)
    (hqueues : engine.localStore.queues =
      (c.engine.localStore.setMutationQueue { c.queue with queue := rest }).queues) :
    Sound store { c.finishWrite batch.batchId error with engine := engine } ∧
      engine.localStore.mutationQueue.queue = rest ∧
      ∀ u, ledger { c.finishWrite batch.batchId error with engine := engine } u = c.ledger u := by
  obtain ⟨hmutation, hfinished⟩ := c.finishWrite_callbacks batch.batchId error
  obtain ⟨hall, huser, hmine⟩ := LocalStore.queues_eq hqueues
  rw [LocalStore.mutationQueue_setMutationQueue] at hmine
  have hne {other : MutationBatch κ} (hother : other ∈ rest) : other.batchId ≠ batch.batchId :=
    (h.consecutive c.currentUser).ne_of_tail hqueue hother
  have hself : engine.localStore.mutationQueues c.currentUser = { c.queue with queue := rest } := by
    rw [hall, LocalStore.mutationQueues_setMutationQueue]
    exact if_pos rfl
  have hother {u : υ} (hu : u ≠ c.currentUser) :
      engine.localStore.mutationQueues u = c.engine.localStore.mutationQueues u := by
    rw [hall, LocalStore.mutationQueues_setMutationQueue]
    exact if_neg hu
  refine ⟨⟨hreached, fun u => ?_, fun u => ?_, fun batchId hmem => ?_⟩,
    congrArg MutationQueue.queue hmine, fun u => ?_⟩
  · by_cases hu : u = c.currentUser
    · rw [hu, hself]
      exact (h.consecutive c.currentUser).tail hqueue
    · rw [hother hu]
      exact h.consecutive u
  · dsimp only
    rw [hmutation]
    by_cases hu : u = c.currentUser
    · subst hu
      rw [hself, Function.update_self]
      have hfit := h.callbacks c.currentUser
      rw [show (c.engine.localStore.mutationQueues c.currentUser).queue = batch :: rest from
        hqueue] at hfit
      exact hfit.tail fun _ hb => hne hb
    · rw [hother hu, Function.update_of_ne hu]
      exact h.callbacks u
  · obtain ⟨hdiff, hmem⟩ := (c.mem_finishWrite_pendingWritesCallbacks batch.batchId error).1 hmem
    obtain ⟨b, hb, rfl⟩ := h.waiting batchId hmem
    rw [hqueue] at hb
    rcases List.mem_cons.1 hb with rfl | hb
    · exact absurd rfl hdiff
    · refine ⟨b, ?_, rfl⟩
      change b ∈ engine.localStore.mutationQueue.queue
      rw [hmine]
      exact hb
  · have hdone : finished { c.finishWrite batch.batchId error with engine := engine } u =
        c.finished u ++ if c.currentUser = u then
          ((c.mutationCallbacks c.currentUser).lookup batch.batchId).toList else [] := hfinished u
    rw [ledger, ledger, hdone, List.append_assoc]
    refine congrArg (c.finished u ++ ·) ?_
    rw [unfinished, unfinished]
    dsimp only
    rw [hmutation]
    by_cases hu : u = c.currentUser
    · subst hu
      rw [hself, if_pos rfl, Function.update_self]
      change _ = c.queue.queue.filterMap _
      rw [hqueue]
      exact (filterMap_lookup_cons fun _ hb => hne hb).symm
    · rw [hother hu, Function.update_of_ne hu, if_neg (Ne.symm hu), List.nil_append]

/-- **Another user** has another queue; nobody waits for the writes of the one before. -/
theorem handleCredentialChange_sound (h : c.Sound store) (user' : υ) :
    ∃ c' : WritingClient υ γ query,
      (if user' = c.currentUser then c
        else c.failOutstandingPendingWriteCallbacks).engineStep (.handleCredentialChange user') =
          some c' ∧ c'.Sound store ∧ c'.networkEnabled = c.networkEnabled ∧
      c'.writes = c.writes ∧ ∀ u, c'.ledger u = c.ledger u := by
  have hkeeps : c.engine.Keeps (.handleCredentialChange user') := trivial
  obtain ⟨engine, hnext, hreached⟩ := h.reached.step hkeeps
  have hcases := SyncEngine.next_handleCredentialChange hnext
  by_cases huser : user' = c.currentUser
  · rw [if_pos huser]
    rw [if_pos (show user' = c.engine.localStore.currentUser from huser)] at hcases
    subst hcases
    refine ⟨c, ?_, h, rfl, rfl, fun _ => rfl⟩
    rw [engineStep, hnext, Option.map_some]
  · rw [if_neg huser]
    rw [if_neg (show ¬ user' = c.engine.localStore.currentUser from huser)] at hcases
    have hall : engine.localStore.mutationQueues =
        Function.update c.engine.localStore.mutationQueues user'
          (c.engine.localStore.mutationQueues user').start := (Prod.mk.inj hcases).1
    have hqueue (u : υ) : (engine.localStore.mutationQueues u).queue =
        (c.engine.localStore.mutationQueues u).queue := by
      rw [hall]
      by_cases hu : u = user'
      · rw [hu, Function.update_self, MutationQueue.start_queue]
      · rw [Function.update_of_ne hu]
    refine ⟨{ c.failOutstandingPendingWriteCallbacks with engine := engine }, ?_,
      ⟨hreached, fun u => ?_, fun u => ?_, fun batchId hmem => ?_⟩, rfl, rfl, fun u => ?_⟩
    · rw [engineStep]
      exact congrArg (Option.map _) hnext
    · dsimp only
      rw [hall]
      by_cases hu : u = user'
      · rw [hu, Function.update_self]
        exact (h.consecutive user').start
      · rw [Function.update_of_ne hu]
        exact h.consecutive u
    · dsimp only
      rw [hqueue]
      exact h.callbacks u
    · exact absurd hmem (AList.notMem_empty _)
    · have hfailed : c.failOutstandingPendingWriteCallbacks.finished u = c.finished u := by
        rw [finished, failOutstandingPendingWriteCallbacks, List.filterMap_append]
        refine (congrArg (c.finished u ++ ·)
          (List.filterMap_eq_nil_iff.2 fun call hcall => ?_)).trans (List.append_nil _)
        obtain ⟨entry, -, hentry⟩ := List.mem_flatMap.1 hcall
        obtain ⟨callback, -, rfl⟩ := List.mem_map.1 hentry
        rfl
      refine congrArg₂ (· ++ ·) hfailed ?_
      rw [unfinished, unfinished]
      dsimp only
      rw [hqueue]
      rfl

/-- **Waiting for the pending writes** is waiting for the last batch of the queue. -/
theorem registerPendingWritesCallback_sound (h : c.Sound store) (callback : γ) :
    (c.registerPendingWritesCallback callback).Sound store ∧
      ∀ u, (c.registerPendingWritesCallback callback).ledger u = c.ledger u := by
  unfold registerPendingWritesCallback
  dsimp only
  split
  · refine ⟨h.congr h.reached rfl rfl rfl, fun u => congrArg (· ++ c.unfinished u) ?_⟩
    rw [finished, List.filterMap_append]
    exact List.append_nil _
  · next hknown =>
      refine ⟨⟨h.reached, h.consecutive, h.callbacks, fun b hb => ?_⟩, fun u => rfl⟩
      rcases (AList.mem_insert _).1 hb with rfl | hb
      · have hne : c.queue.queue ≠ [] := by
          intro hempty
          refine hknown ?_
          rw [MutationQueue.getHighestUnacknowledgedBatchId, hempty]
          rfl
        have hpos := List.length_pos_iff.2 hne
        have hused := (h.consecutive c.currentUser).used
        have hlast : c.queue.queue[c.queue.queue.length - 1]? =
            some (c.queue.queue.getLast hne) := by
          rw [List.getLast_eq_getElem]
          exact List.getElem?_eq_getElem _
        have hid := (h.consecutive c.currentUser).batchId_eq hlast
        refine ⟨_, List.getLast_mem hne, ?_⟩
        rw [MutationQueue.getHighestUnacknowledgedBatchId, List.isEmpty_eq_false_iff.2 hne]
        change _ = (c.queue.nextBatchId : ℤ) - 1
        change (c.queue.queue.getLast hne).batchId =
          c.queue.nextBatchId - c.queue.queue.length + (c.queue.queue.length - 1) at hid
        change c.queue.queue.length < c.queue.nextBatchId at hused
        omega
      · exact h.waiting b hb

/-- **The engine learns that the first batch is done with**, and so do the users. -/
theorem finishWrite_step (h : c.Sound store) {batch : MutationBatch κ}
    {rest : List (MutationBatch κ)} (hqueue : c.queue.queue = batch :: rest)
    (error : Option ErrorCode) {event : SyncEvent κ υ ι} (hkeeps : c.engine.Keeps event)
    (hremoves : ∀ engine, c.engine.next event = some engine → ∃ first others,
      c.queue.queue = first :: others ∧ engine.localStore.queues =
        (c.engine.localStore.setMutationQueue { c.queue with queue := others }).queues) :
    ∃ c' : WritingClient υ γ query,
      (c.finishWrite batch.batchId error).engineStep event = some c' ∧ c'.Sound store ∧
      c'.networkEnabled = c.networkEnabled ∧ c'.writes = c.writes ∧ c'.queue.queue = rest ∧
      ∀ u, c'.ledger u = c.ledger u := by
  obtain ⟨engine, hnext, hreached⟩ := h.reached.step hkeeps
  obtain ⟨first, others, hqueue', hqueues⟩ := hremoves engine hnext
  rw [hqueue, List.cons.injEq] at hqueue'
  rw [← hqueue'.2] at hqueues
  obtain ⟨hsound, hrest, hledger⟩ := finishWrite_sound h hqueue error hreached hqueues
  refine ⟨{ c.finishWrite batch.batchId error with engine := engine }, ?_, hsound,
    c.finishWrite_networkEnabled _ _, c.finishWrite_writes _ _, hrest, hledger⟩
  rw [engineStep, finishWrite_engine, hnext, Option.map_some]

/-- The pipeline is filled from the queue. -/
theorem fillWritePipeline_spec (h : c.Sound store)
    (hready : c.writes.Ready c.networkEnabled c.queue.queue) :
    ∃ writes, c.fillWritePipeline = some { c with writes := writes } ∧
      writes.Filled c.networkEnabled c.queue.queue ∧
      writes.handshakeComplete = c.writes.handshakeComplete ∧
      (writes.writeStream.IsOpen ↔ c.writes.writeStream.IsOpen) := by
  obtain ⟨writes, hfill, hfilled, hhandshake, hopen⟩ := RemoteWrites.fillWritePipeline_spec
    (h.consecutive c.currentUser) hready
  refine ⟨writes, ?_, hfilled, hhandshake, hopen⟩
  rw [fillWritePipeline]
  exact congrArg (Option.map _) hfill

theorem fillWritePipeline_inv (h : c.Sound store)
    (hready : c.writes.Ready c.networkEnabled c.queue.queue)
    (hhandshake : c.writes.handshakeComplete = true → c.writes.writeStream.IsOpen) :
    ∃ c', c.fillWritePipeline = some c' ∧ c'.Inv store ∧ ∀ u, c'.ledger u = c.ledger u := by
  obtain ⟨writes, hfill, hfilled, hsame, hopen⟩ := fillWritePipeline_spec h hready
  exact ⟨_, hfill, ⟨⟨h.reached, h.consecutive, h.callbacks, h.waiting⟩, hfilled,
    fun hcomplete => hopen.2 (hhandshake (hsame ▸ hcomplete))⟩, fun _ => rfl⟩

/-- The client goes online. -/
theorem enableNetwork_inv (h : c.Sound store)
    (hready : c.writes.Ready true c.queue.queue)
    (hhandshake : c.writes.handshakeComplete = true → c.writes.writeStream.IsOpen) :
    ∃ c', c.enableNetwork = some c' ∧ c'.Inv store ∧ ∀ u, c'.ledger u = c.ledger u :=
  fillWritePipeline_inv (c := { c with networkEnabled := true })
    ⟨h.reached, h.consecutive, h.callbacks, h.waiting⟩ hready hhandshake

/-- The client goes offline, whatever has become of the queue. -/
theorem disableNetwork_inv (h : c.Sound store) {queue : List (MutationBatch κ)}
    (hwrites : c.writes.Inv c.networkEnabled queue) :
    ∃ c', c.disableNetwork = some c' ∧ c'.Inv store ∧ c'.networkEnabled = false ∧
      ∀ u, c'.ledger u = c.ledger u := by
  obtain ⟨writes, hdisable, hinv⟩ :=
    RemoteWrites.disableNetworkInternal_spec hwrites c.queue.queue
  refine ⟨{ c with networkEnabled := false, writes := writes }, ?_,
    ⟨⟨h.reached, h.consecutive, h.callbacks, h.waiting⟩, hinv⟩, rfl, fun _ => rfl⟩
  rw [disableNetwork, hdisable, Option.map_some]

/-- **The answer of the backend is for the first batch of the queue.** -/
theorem onWriteStreamMutationResult_inv (h : c.Inv store) {request : List (Mutation κ)}
    {requests : List (List (Mutation κ))} (hrequest : c.writes.unanswered = request :: requests)
    {mutationResults : List SnapshotVersion} (hlength : request.length = mutationResults.length) :
    ∃ c', c.onWriteStreamMutationResult mutationResults = some c' ∧ c'.Inv store ∧
      ∀ u, c'.ledger u = c.ledger u := by
  obtain ⟨batch, rest, hqueue, hmutations, hpipeline, hwritable⟩ := h.writes.first hrequest
  have hkeeps : c.engine.Keeps (.handleSuccessfulWrite
      { batchId := batch.batchId, mutationResults := mutationResults }) :=
    ⟨batch, rest, hqueue, rfl, by rw [hmutations, hlength]⟩
  have hsound : Sound store { c with writes := c.writes.answered } :=
    ⟨h.reached, h.consecutive, h.callbacks, h.waiting⟩
  obtain ⟨c₁, hstep, hsound₁, hnetwork, hwrites, hrest, hledger⟩ :=
    finishWrite_step hsound hqueue none hkeeps fun engine hnext =>
      SyncEngine.next_handleSuccessfulWrite hnext
  have hready : c₁.writes.Ready c₁.networkEnabled c₁.queue.queue := by
    rw [hnetwork, hwrites, hrest]
    exact h.writes.answered hqueue hpipeline hwritable
  obtain ⟨c', hfill, hinv, hledger'⟩ := fillWritePipeline_inv hsound₁ hready fun _ => by
    rw [hwrites]
    exact hwritable.1
  refine ⟨c', ?_, hinv, fun u => (hledger' u).trans (hledger u)⟩
  rw [onWriteStreamMutationResult, hpipeline]
  simp only [hstep, Option.bind_some]
  exact hfill

/-- **A batch that the backend refuses is given up**; on any other failure the pipeline stays. -/
theorem handleWriteError_spec (h : c.Sound store)
    (hready : c.writes.Ready c.networkEnabled c.queue.queue)
    (hfull : c.networkEnabled = true →
      c.writes.writePipeline = c.queue.queue.take maxPendingWrites)
    (hstopped : ¬ c.writes.writeStream.IsStarted) (hne : c.writes.writePipeline ≠ [])
    (error : ErrorCode) :
    ∃ c', c.handleWriteError error = some c' ∧ c'.Sound store ∧
      c'.writes.Ready c'.networkEnabled c'.queue.queue ∧
      (c'.networkEnabled = true →
        c'.writes.writePipeline = c'.queue.queue.take maxPendingWrites) ∧
      ¬ c'.writes.writeStream.IsOpen ∧ ∀ u, c'.ledger u = c.ledger u := by
  unfold handleWriteError
  split
  · cases hpipeline : c.writes.writePipeline with
    | nil => exact absurd hpipeline hne
    | cons batch batches =>
        obtain ⟨rest, hqueue⟩ := hready.head hpipeline
        set writes : RemoteWrites κ :=
          { c.writes with
            writePipeline := batches
            writeStream := { c.writes.writeStream with state := .initial } } with hwrites
        have hkeeps : c.engine.Keeps (.handleRejectedWrite batch.batchId) :=
          ⟨batch, rest, hqueue, rfl⟩
        have hsound : Sound store { c with writes := writes } :=
          ⟨h.reached, h.consecutive, h.callbacks, h.waiting⟩
        obtain ⟨c₁, hstep, hsound₁, hnetwork₁, hwrites₁, hrest, hledger⟩ :=
          finishWrite_step hsound hqueue (some error) hkeeps fun engine hnext =>
            SyncEngine.next_handleRejectedWrite hnext
        have hready₁ : c₁.writes.Ready c₁.networkEnabled c₁.queue.queue := by
          rw [hnetwork₁, hwrites₁, hrest]
          exact hready.rejected hstopped hqueue hpipeline
        obtain ⟨writes', hfill, hfilled, -, hopen⟩ := fillWritePipeline_spec hsound₁ hready₁
        have hclosed : ¬ c₁.writes.writeStream.IsOpen := by
          rw [hwrites₁]
          simp [hwrites, RemoteStream.IsOpen]
        refine ⟨{ c₁ with writes := writes' }, ?_, ⟨hsound₁.reached, hsound₁.consecutive,
          hsound₁.callbacks, hsound₁.waiting⟩, hfilled.toReady, hfilled.full,
          fun hopen' => hclosed (hopen.1 hopen'), hledger⟩
        have hinhibit : c.writes.writeStream.inhibitBackoff =
            some { c.writes.writeStream with state := .initial } := if_neg hstopped
        simp only [hinhibit, Option.bind_some]
        rw [← hwrites, hstep]
        exact hfill
  · exact ⟨c, rfl, h, hready, hfull, fun hopen => hstopped hopen.isStarted, fun _ => rfl⟩

/-- **When the write stream fails**, it is started again if there is something to send. -/
theorem writeStreamFailed_inv (h : c.Inv store) (hstarted : c.writes.writeStream.IsStarted)
    (error : ErrorCode) : ∃ c', c.writeStreamFailed error = some c' ∧ c'.Inv store ∧
      ∀ u, c'.ledger u = c.ledger u := by
  set c₀ : WritingClient υ γ query := { c with writes := c.writes.closed false } with hc₀
  have hsound : c₀.Sound store := ⟨h.reached, h.consecutive, h.callbacks, h.waiting⟩
  have hready : c₀.writes.Ready c₀.networkEnabled c₀.queue.queue := h.writes.failed hstarted false
  have hfull : c₀.networkEnabled = true →
      c₀.writes.writePipeline = c₀.queue.queue.take maxPendingWrites := h.writes.full
  have hstopped : ¬ c₀.writes.writeStream.IsStarted := RemoteStream.not_isStarted_closed false
  obtain ⟨c₁, herror, hsound₁, hready₁, hfull₁, hclosed₁, hledger₁⟩ :
      ∃ c₁, (if c₀.writes.writePipeline ≠ [] ∧ c₀.writes.handshakeComplete = true then
          c₀.handleWriteError error else some c₀) = some c₁ ∧ c₁.Sound store ∧
        c₁.writes.Ready c₁.networkEnabled c₁.queue.queue ∧
        (c₁.networkEnabled = true →
          c₁.writes.writePipeline = c₁.queue.queue.take maxPendingWrites) ∧
        ¬ c₁.writes.writeStream.IsOpen ∧ ∀ u, c₁.ledger u = c₀.ledger u := by
    split
    · next hpending => exact handleWriteError_spec hsound hready hfull hstopped hpending.1 error
    · exact ⟨c₀, rfl, hsound, hready, hfull, fun hopen => hstopped hopen.isStarted,
        fun _ => rfl⟩
  obtain ⟨writes, hstart, hfilled, -, -, hopen⟩ :=
    RemoteWrites.startIfNeeded_spec hready₁ hfull₁
  refine ⟨{ c₁ with writes := { writes with handshakeComplete := false } }, ?_,
    ⟨⟨hsound₁.reached, hsound₁.consecutive, hsound₁.callbacks, hsound₁.waiting⟩,
      hfilled.forgetHandshake fun hopen' => hclosed₁ (hopen.1 hopen')⟩, hledger₁⟩
  refine (congrArg (Option.bind · _) herror).trans ?_
  rw [Option.bind_some, hstart, Option.map_some]

/-- A step that concerns the pipeline alone. -/
theorem withWrites_inv (h : c.Sound store) {writes : RemoteWrites κ}
    {result : Option (RemoteWrites κ)} (hresult : result = some writes)
    (hinv : writes.Inv c.networkEnabled c.queue.queue) :
    ∃ c', c.withWrites result = some c' ∧ c'.Inv store ∧ ∀ u, c'.ledger u = c.ledger u := by
  refine ⟨{ c with writes := writes }, ?_, ⟨⟨h.reached, h.consecutive, h.callbacks, h.waiting⟩,
    hinv⟩, fun _ => rfl⟩
  rw [withWrites, hresult, Option.map_some]

/-- The callbacks that the event adds to those of the user's writes. -/
def newCallbacks (c : WritingClient υ γ query) (event : ClientEvent κ υ ι γ) (user : υ) : List γ :=
  match event with
  | .writeMutations _ callback => if user = c.currentUser then [callback] else []
  | _ => []

/-- **Every event that keeps to the rules goes through**, and keeps what holds of the client; no
callback of a write is lost or called out of turn. -/
theorem step_inv (h : c.Inv store) {event : ClientEvent κ υ ι γ} (hkeeps : c.Keeps event) :
    ∃ c', c.step event = some c' ∧ c'.Inv store ∧
      ∀ u, c'.ledger u = c.ledger u ++ c.newCallbacks event u := by
  have hsame (c' : WritingClient υ γ query) (hno : ∀ u, c.newCallbacks event u = [])
      (hledger : ∀ u, c'.ledger u = c.ledger u) (u : υ) :
      c'.ledger u = c.ledger u ++ c.newCallbacks event u := by
    rw [hno, List.append_nil, hledger]
  cases event with
  | engine event =>
      obtain ⟨engine, hstep, hqueues, hsound⟩ := engineStep_spec h.toSound hkeeps.1 hkeeps.2
      obtain ⟨hall, -, hqueue⟩ := LocalStore.queues_eq hqueues
      refine ⟨_, hstep, ⟨hsound, ?_⟩, hsame _ (fun _ => rfl)
        (ledger_congr rfl rfl fun u => by rw [hall])⟩
      change c.writes.Inv c.networkEnabled engine.localStore.mutationQueue.queue
      rw [hqueue]
      exact h.writes
  | writeMutations writes callback =>
      obtain ⟨c₁, batch, hstep, hsound, hnetwork, hwrites, hqueue, hledger⟩ :=
        writeMutations_sound h.toSound hkeeps callback
      have hready : c₁.writes.Ready c₁.networkEnabled c₁.queue.queue := by
        rw [hnetwork, hwrites, hqueue]
        exact h.writes.append batch
      obtain ⟨c', hfill, hinv, hledger'⟩ := fillWritePipeline_inv hsound hready fun hcomplete => by
        rw [hwrites] at hcomplete ⊢
        exact h.writes.handshake hcomplete
      refine ⟨c', ?_, hinv, fun u => (hledger' u).trans (hledger u)⟩
      rw [step, writeMutations, hstep]
      exact hfill
  | registerPendingWritesCallback callback =>
      obtain ⟨hsound, hledger⟩ := registerPendingWritesCallback_sound h.toSound callback
      refine ⟨_, rfl, ⟨hsound, ?_⟩, hsame _ (fun _ => rfl) hledger⟩
      unfold registerPendingWritesCallback
      dsimp only
      split <;> exact h.writes
  | handleCredentialChange user' =>
      obtain ⟨c₁, hstep, hsound, hnetwork, hwrites, hledger⟩ :=
        handleCredentialChange_sound h.toSound user'
      have hwrites₁ : c₁.writes.Inv c₁.networkEnabled c.queue.queue := by
        rw [hnetwork, hwrites]
        exact h.writes
      obtain ⟨c₂, hdisable, hinv₂, hoff, hledger₂⟩ := disableNetwork_inv hsound hwrites₁
      by_cases hon : c₁.networkEnabled = true
      · have hready : c₂.writes.Ready false c₂.queue.queue := hoff ▸ hinv₂.writes.toReady
        obtain ⟨c', henable, hinv, hledger'⟩ :=
          enableNetwork_inv hinv₂.toSound (hready.enabled _) hinv₂.writes.handshake
        refine ⟨c', ?_, hinv, hsame _ (fun _ => rfl) fun u =>
          (hledger' u).trans ((hledger₂ u).trans (hledger u))⟩
        rw [step, handleCredentialChange, hstep, Option.bind_some, if_pos hon, hdisable]
        exact henable
      · have hoff₁ : c₁.networkEnabled = false := Bool.eq_false_iff.2 hon
        refine ⟨c₁, ?_, ⟨hsound, ?_⟩, hsame _ (fun _ => rfl) hledger⟩
        · rw [step, handleCredentialChange, hstep, Option.bind_some, if_neg hon]
        · rw [hoff₁] at hwrites₁ ⊢
          exact hwrites₁.offline _
  | enableNetwork =>
      have hready : c.writes.Ready true c.queue.queue := by
        cases hon : c.networkEnabled with
        | false => exact RemoteWrites.Ready.enabled (hon ▸ h.writes.toReady) _
        | true => exact hon ▸ h.writes.toReady
      obtain ⟨c', henable, hinv, hledger⟩ :=
        enableNetwork_inv h.toSound hready h.writes.handshake
      exact ⟨c', henable, hinv, hsame _ (fun _ => rfl) hledger⟩
  | disableNetwork =>
      obtain ⟨c', hdisable, hinv, -, hledger⟩ := disableNetwork_inv h.toSound h.writes
      exact ⟨c', hdisable, hinv, hsame _ (fun _ => rfl) hledger⟩
  | writeStreamOpened =>
      obtain ⟨writes, hopen, hinv⟩ := RemoteWrites.onWriteStreamOpen_spec h.writes hkeeps
      obtain ⟨c', hstep, hinv', hledger⟩ := withWrites_inv h.toSound hopen hinv
      exact ⟨c', hstep, hinv', hsame _ (fun _ => rfl) hledger⟩
  | writeStreamResponse mutationResults =>
      obtain ⟨hopen, hanswers⟩ := hkeeps
      by_cases hcomplete : c.writes.handshakeComplete = true
      · obtain ⟨request, hrequest, hlength⟩ := hanswers hcomplete
        obtain ⟨requests, hrequests⟩ := List.head?_eq_some_iff.1 hrequest
        obtain ⟨c', hstep, hinv, hledger⟩ := onWriteStreamMutationResult_inv h hrequests hlength
        exact ⟨c', (if_pos hcomplete).trans hstep, hinv, hsame _ (fun _ => rfl) hledger⟩
      · obtain ⟨writes, hhandshake, hinv⟩ := RemoteWrites.onWriteStreamHandshakeComplete_spec
          h.writes hopen (Bool.eq_false_iff.2 hcomplete)
        obtain ⟨c', hstep, hinv', hledger⟩ := withWrites_inv h.toSound hhandshake hinv
        exact ⟨c', (if_neg hcomplete).trans hstep, hinv', hsame _ (fun _ => rfl) hledger⟩
  | writeStreamFailed error =>
      obtain ⟨c', hstep, hinv, hledger⟩ := writeStreamFailed_inv h hkeeps error
      exact ⟨c', hstep, hinv, hsame _ (fun _ => rfl) hledger⟩
  | writeBackoffElapsed =>
      obtain ⟨writeStream, hrestart, hinv⟩ := h.writes.backoffElapsed hkeeps
      obtain ⟨c', hstep, hinv', hledger⟩ := withWrites_inv h.toSound
        (congrArg (Option.map fun writeStream => { c.writes with writeStream := writeStream })
          hrestart) hinv
      exact ⟨c', hstep, hinv', hsame _ (fun _ => rfl) hledger⟩
  | writeStreamIdle =>
      obtain ⟨writes, hstop, hinv⟩ :=
        RemoteWrites.stopWriteStream_spec h.writes (h.writes.idle hkeeps).2
      obtain ⟨c', hstep, hinv', hledger⟩ := withWrites_inv h.toSound hstop hinv
      exact ⟨c', hstep, hinv', hsame _ (fun _ => rfl) hledger⟩

end Invariant

end WritingClient

end FirestoreClient
