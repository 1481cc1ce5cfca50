/-
**What the engine does with the queues of writes.**

Of all that the sync engine does, only writes, their answers and a change of the user concern the
queues of writes: a write puts a batch at the end of the queue of the current user, and an answer
takes the first batch out of it.

Main definitions:

* `FirestoreClient.LocalStore.queues` — the queues of all users, and whose it is the turn;
* `FirestoreClient.SyncEngine.Reached` — an engine after a run that keeps to the rules.

Main results:

* `FirestoreClient.SyncEngine.next_queues` — **other events leave the queues alone**;
* `FirestoreClient.SyncEngine.next_writeMutations`, `next_handleSuccessfulWrite`,
  `next_handleRejectedWrite`, `next_handleCredentialChange` — what the events make of the queues;
* `FirestoreClient.SyncEngine.Reached.step` — **what keeps to the rules goes through**.
-/

import TinderFirestore.SyncRuns
import TinderFirestore.WritePipeline

set_option relaxedAutoImplicit false
set_option autoImplicit false

namespace FirestoreClient

open EventRun

variable {κ υ ι : Type*}

/-! ### What becomes of the queues -/

/-- What each round of a loop keeps, the loop keeps. -/
theorem foldlM_keeps {α β γ : Type*} {round : α → β → Option α} (view : α → γ)
    (hround : ∀ x b x', round x b = some x' → view x' = view x) {bs : List β} {x x' : α}
    (h : bs.foldlM round x = some x') : view x' = view x := by
  induction bs generalizing x with
  | nil => exact congrArg view (Option.some.inj h).symm
  | cons b bs ih =>
      rw [List.foldlM_cons] at h
      obtain ⟨x₁, hx₁, hrest⟩ := Option.bind_eq_some_iff.1 h
      exact (ih hrest).trans (hround x b x₁ hx₁)

/-- The queues of all users, and whose it is the turn. -/
def LocalStore.queues (s : LocalStore κ υ) : (υ → MutationQueue κ) × υ :=
  (s.mutationQueues, s.currentUser)

theorem LocalStore.queues_eq {s s' : LocalStore κ υ} (h : s'.queues = s.queues) :
    s'.mutationQueues = s.mutationQueues ∧ s'.currentUser = s.currentUser ∧
      s'.mutationQueue = s.mutationQueue := by
  obtain ⟨hqueues, huser⟩ := Prod.mk.inj h
  refine ⟨hqueues, huser, ?_⟩
  rw [LocalStore.mutationQueue, LocalStore.mutationQueue, hqueues, huser]

/-- The engine can be reached when users and the backend keep to its rules. -/
def SyncEngine.Reached [LinearOrder κ] [DecidableEq υ] [DecidableEq ι]
    {query : ι → Query κ ObjectValue} (store : RestoredStore κ υ) (s : SyncEngine υ query) :
    Prop :=
  ∃ events, StepsMeet SyncEngine.next SyncEngine.Keeps
      (SyncEngine.start store : SyncEngine υ query) events ∧
    run SyncEngine.next (SyncEngine.start store) events = some s

/-- The event is about the queues. -/
def SyncEvent.isWrite : SyncEvent κ υ ι → Bool
  | .writeMutations _ | .handleSuccessfulWrite _ | .handleRejectedWrite _
  | .handleCredentialChange _ => true
  | .listen _ _ | .stopListening _ | .applyRemoteEvent _ | .processTargetError _
  | .handleOnlineStateChange _ => false

namespace SyncEngine

variable [LinearOrder κ] [DecidableEq υ] [DecidableEq ι] {query : ι → Query κ ObjectValue}
  {s s' : SyncEngine υ query}

omit [DecidableEq υ] in
theorem emitNewSnapshots_localStore {changes : MaybeDocumentMap κ ObjectValue}
    {targetChanges : AList fun _ : TargetId ι => TargetChange κ}
    {x : SyncEngine υ query × Snapshots query}
    (h : s.emitNewSnapshots changes targetChanges = some x) : x.1.localStore = s.localStore := by
  refine foldlM_keeps (fun x : SyncEngine υ query × Snapshots query => x.1.localStore)
    (fun x entry x' hround => ?_) h
  obtain ⟨⟨view, viewChange⟩, -, hround⟩ := Option.bind_eq_some_iff.1 hround
  obtain ⟨tracking, -, rfl⟩ := Option.map_eq_some_iff.1 hround
  rfl

omit [DecidableEq υ] in
theorem handleOnlineStateChange_localStore {onlineState : OnlineState}
    {x : SyncEngine υ query × Snapshots query}
    (h : s.handleOnlineStateChange onlineState = some x) : x.1.localStore = s.localStore := by
  refine foldlM_keeps (fun x : SyncEngine υ query × Snapshots query => x.1.localStore)
    (fun x entry x' hround => ?_) h
  obtain ⟨⟨view, viewChange⟩, -, hround⟩ := Option.bind_eq_some_iff.1 hround
  dsimp only at hround
  split at hround
  · rw [← Option.some.inj hround]
  · exact absurd hround (by simp)

omit [DecidableEq υ] in
theorem applyRemoteEvent_queues {remoteEvent : RemoteEvent κ ι}
    {x : SyncEngine υ query × Snapshots query} (h : s.applyRemoteEvent remoteEvent = some x) :
    x.1.localStore.queues = s.localStore.queues := by
  obtain ⟨tracking, -, h⟩ := Option.bind_eq_some_iff.1 h
  obtain ⟨⟨localStore, changes⟩, happly, h⟩ := Option.bind_eq_some_iff.1 h
  refine (congrArg LocalStore.queues (emitNewSnapshots_localStore h)).trans ?_
  obtain ⟨⟨cache, changedDocs⟩, -, happly⟩ := Option.bind_eq_some_iff.1 happly
  dsimp only at happly
  split at happly
  · exact absurd happly (by simp)
  · simp only [Option.some.injEq, Prod.mk.injEq] at happly
    rw [← happly.1]
    rfl

omit [DecidableEq υ] in
theorem removeAndCleanupQuery_localStore {i : ι} (h : s.removeAndCleanupQuery i = some s') :
    s'.localStore = s.localStore := by
  obtain ⟨tracking, -, rfl⟩ := Option.map_eq_some_iff.1 h
  rfl

omit [DecidableEq υ] in
theorem processTargetError_queues {target : TargetId ι}
    {x : SyncEngine υ query × Snapshots query} (h : s.processTargetError target = some x) :
    x.1.localStore.queues = s.localStore.queues := by
  unfold processTargetError at h
  split at h
  · cases target with
    | query i =>
        rw [handleRejectedListen] at h
        split at h
        · obtain ⟨s₁, hremove, rfl⟩ := Option.map_eq_some_iff.1 h
          have hsame := removeAndCleanupQuery_localStore hremove
          exact congrArg LocalStore.queues hsame
        · exact absurd h (by simp)
    | limbo n =>
        rw [handleRejectedListen] at h
        split at h
        · exact absurd h (by simp)
        · have hsame := applyRemoteEvent_queues h
          exact hsame
  · rw [← Option.some.inj h]

omit [DecidableEq υ] in
theorem notifyViews_localStore {localStore : LocalStore κ υ × MaybeDocumentMap κ ObjectValue}
    {x : SyncEngine υ query × Snapshots query} (h : s.notifyViews localStore = some x) :
    x.1.localStore = localStore.1 :=
  emitNewSnapshots_localStore h

/-- What is not about the queues leaves them alone. -/
theorem next_queues {event : SyncEvent κ υ ι} (h : s.next event = some s')
    (hevent : event.isWrite = false) : s'.localStore.queues = s.localStore.queues := by
  obtain ⟨x, hstep, rfl⟩ := Option.map_eq_some_iff.1 h
  cases event with
  | listen i remoteKeys =>
      rw [step, listen] at hstep
      split at hstep
      · exact absurd hstep (by simp)
      · obtain ⟨⟨view, viewChange⟩, -, hstep⟩ := Option.bind_eq_some_iff.1 hstep
        dsimp only at hstep
        split at hstep
        · obtain ⟨snapshot, -, hstep⟩ := Option.bind_eq_some_iff.1 hstep
          obtain ⟨tracking, -, rfl⟩ := Option.map_eq_some_iff.1 hstep
          rfl
        · exact absurd hstep (by simp)
  | stopListening i =>
      obtain ⟨s₁, hstop, rfl⟩ := Option.map_eq_some_iff.1 hstep
      rw [stopListening] at hstop
      split at hstop
      · obtain ⟨tracking, -, hremove⟩ := Option.bind_eq_some_iff.1 hstop
        have hsame := removeAndCleanupQuery_localStore hremove
        exact congrArg LocalStore.queues hsame
      · exact absurd hstop (by simp)
  | applyRemoteEvent remoteEvent => exact applyRemoteEvent_queues hstep
  | processTargetError target => exact processTargetError_queues hstep
  | handleOnlineStateChange onlineState =>
      exact congrArg LocalStore.queues (handleOnlineStateChange_localStore hstep)
  | writeMutations | handleSuccessfulWrite | handleRejectedWrite | handleCredentialChange =>
      exact absurd hevent (by simp [SyncEvent.isWrite])

/-- A write puts a batch at the end of the queue. -/
theorem next_writeMutations {writes : List (UserWrite κ)}
    (h : s.next (.writeMutations writes) = some s') :
    ∃ batch : MutationBatch κ, batch.batchId = s.localStore.mutationQueue.nextBatchId ∧
      s'.localStore.queues = (s.localStore.setMutationQueue
        { queue := s.localStore.mutationQueue.queue ++ [batch]
          nextBatchId := s.localStore.mutationQueue.nextBatchId + 1 }).queues := by
  obtain ⟨x, hstep, rfl⟩ := Option.map_eq_some_iff.1 h
  obtain ⟨written, hwrite, hstep⟩ := Option.bind_eq_some_iff.1 hstep
  obtain ⟨⟨batch, queue⟩, hadd, rfl⟩ := Option.map_eq_some_iff.1 hwrite
  have hsame := congrArg LocalStore.queues (notifyViews_localStore hstep)
  rw [MutationQueue.addMutationBatch] at hadd
  split_ifs at hadd
  simp only [Option.some.injEq, Prod.mk.injEq] at hadd
  obtain ⟨rfl, rfl⟩ := hadd
  exact ⟨_, rfl, hsame⟩

/-- An answer takes the first batch out of the queue. -/
theorem next_handleSuccessfulWrite {batchResult : BatchResult}
    (h : s.next (.handleSuccessfulWrite batchResult) = some s') :
    ∃ batch rest, s.localStore.mutationQueue.queue = batch :: rest ∧
      s'.localStore.queues = (s.localStore.setMutationQueue
        { s.localStore.mutationQueue with queue := rest }).queues := by
  obtain ⟨x, hstep, rfl⟩ := Option.map_eq_some_iff.1 h
  obtain ⟨written, hack, hstep⟩ := Option.bind_eq_some_iff.1 hstep
  obtain ⟨⟨batch, queue⟩, hremove, hack⟩ := Option.bind_eq_some_iff.1 hack
  obtain ⟨rest, hqueue, rfl⟩ := removeMutationBatch_eq hremove
  dsimp only at hack
  split at hack
  · obtain ⟨cache, -, rfl⟩ := Option.map_eq_some_iff.1 hack
    have hsame := congrArg LocalStore.queues (notifyViews_localStore hstep)
    exact ⟨batch, rest, hqueue, hsame⟩
  · exact absurd hack (by simp)

/-- So does a rejection. -/
theorem next_handleRejectedWrite {batchId : ℕ}
    (h : s.next (.handleRejectedWrite batchId) = some s') :
    ∃ batch rest, s.localStore.mutationQueue.queue = batch :: rest ∧
      s'.localStore.queues = (s.localStore.setMutationQueue
        { s.localStore.mutationQueue with queue := rest }).queues := by
  obtain ⟨x, hstep, rfl⟩ := Option.map_eq_some_iff.1 h
  obtain ⟨written, hreject, hstep⟩ := Option.bind_eq_some_iff.1 hstep
  obtain ⟨⟨batch, queue⟩, hremove, rfl⟩ := Option.map_eq_some_iff.1 hreject
  obtain ⟨rest, hqueue, rfl⟩ := removeMutationBatch_eq hremove
  have hsame := congrArg LocalStore.queues (notifyViews_localStore hstep)
  exact ⟨batch, rest, hqueue, hsame⟩

/-- Another user has another queue, which is started. -/
theorem next_handleCredentialChange {user : υ}
    (h : s.next (.handleCredentialChange user) = some s') :
    if user = s.localStore.currentUser then s' = s
    else s'.localStore.queues = (Function.update s.localStore.mutationQueues user
      (s.localStore.mutationQueues user).start, user) := by
  obtain ⟨x, hstep, rfl⟩ := Option.map_eq_some_iff.1 h
  rw [step, handleCredentialChange] at hstep
  split at hstep
  · next huser =>
      rw [if_pos huser, ← Option.some.inj hstep]
  · next huser =>
      have hsame := congrArg LocalStore.queues (notifyViews_localStore hstep)
      rw [if_neg huser]
      exact hsame

theorem Reached.inv {store : RestoredStore κ υ} (h : Reached store s) : s.Inv := by
  obtain ⟨events, hkeeps, hrun⟩ := h
  obtain ⟨s₁, hrun₁, hinv⟩ := run_inv hkeeps
  rw [Option.some.inj (hrun.symm.trans hrun₁)]
  exact hinv

/-- What keeps to the rules goes through. -/
theorem Reached.step {store : RestoredStore κ υ} (h : Reached store s) {event : SyncEvent κ υ ι}
    (hkeeps : s.Keeps event) : ∃ s', s.next event = some s' ∧ Reached store s' := by
  obtain ⟨s', snapshots, hstep, -⟩ := step_spec h.inv hkeeps
  have hnext : s.next event = some s' := by
    rw [next, hstep]
    rfl
  obtain ⟨events, hmeets, hrun⟩ := h
  obtain ⟨hmeets', hrun'⟩ := run_concat_of_meet hmeets hrun hkeeps
  exact ⟨s', hnext, events ++ [event], hmeets', hrun'.trans hnext⟩

end SyncEngine

end FirestoreClient
