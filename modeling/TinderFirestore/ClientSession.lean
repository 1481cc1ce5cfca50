/-
**The whole client.**

Both halves of the remote store share the sync engine: what is written changes the views and what is
looked up, and what the backend sends changes what is shown of what is written.  Neither half gets
in the way of the other, in whatever order they do their steps.

Main definitions:

* `FirestoreClient.Client` with `step` — the engine, the write half and the listen half;
* `FirestoreClient.Client.History` — what users have asked for and the backend has told.

Main results:

* `FirestoreClient.Client.step_inv` — **a step of one half keeps what holds of the other**;
* `FirestoreClient.session_run` — what holds of both halves holds in every run;
* `FirestoreClient.history_run` — **nothing that is asked for or told is lost or done twice**, in
  every run of both halves.
-/

import TinderFirestore.ClientRuns
import TinderFirestore.ClientDocuments

set_option relaxedAutoImplicit false
set_option autoImplicit false

open EventRun

namespace FirestoreClient

variable {κ υ ι γ : Type*} [LinearOrder κ] [DecidableEq υ] [DecidableEq ι]
  {query : ι → Query κ ObjectValue}

/-- The event comes from the watch stream. -/
def ClientEvent.isWatch : ClientEvent κ υ ι γ → Bool
  | .engine event => event.isWatch
  | _ => false

/-- The event comes from the watch stream. -/
def ListenEvent.isStream : ListenEvent κ υ ι → Bool
  | .engine _ => false
  | _ => true

/-! ### What the halves do with the engine -/

namespace WritingClient

variable {store : RestoredStore κ υ} {c c' : WritingClient υ γ query}

/-- The engine has stayed as it was, or has handled an event that does not come from the watch
stream and keeps to its rules. -/
def EngineMoves (c c' : WritingClient υ γ query) : Prop :=
  c'.engine = c.engine ∨ ∃ event : SyncEvent κ υ ι, event.isWatch = false ∧
    c.engine.Keeps event ∧ c.engine.next event = some c'.engine

omit [LinearOrder κ] [DecidableEq υ] [DecidableEq ι] in
theorem fillWritePipeline_engine (h : c.fillWritePipeline = some c') : c'.engine = c.engine := by
  obtain ⟨writes, -, rfl⟩ := Option.map_eq_some_iff.1 h
  rfl

omit [LinearOrder κ] [DecidableEq υ] [DecidableEq ι] in
theorem enableNetwork_engine (h : c.enableNetwork = some c') : c'.engine = c.engine := by
  obtain ⟨writes, -, rfl⟩ := Option.map_eq_some_iff.1 h
  rfl

omit [LinearOrder κ] [DecidableEq υ] [DecidableEq ι] in
theorem disableNetwork_engine (h : c.disableNetwork = some c') : c'.engine = c.engine := by
  obtain ⟨writes, -, rfl⟩ := Option.map_eq_some_iff.1 h
  rfl

omit [LinearOrder κ] [DecidableEq υ] [DecidableEq ι] in
theorem withWrites_engine {writes : Option (RemoteWrites κ)} (h : c.withWrites writes = some c') :
    c'.engine = c.engine := by
  obtain ⟨writes, -, rfl⟩ := Option.map_eq_some_iff.1 h
  rfl

theorem engineStep_engine {event : SyncEvent κ υ ι} (h : c.engineStep event = some c') :
    c.engine.next event = some c'.engine := by
  obtain ⟨engine, hnext, rfl⟩ := Option.map_eq_some_iff.1 h
  exact hnext

/-- A batch is finished, and the pipeline is filled again. -/
theorem finishWrite_moves {c₁ : WritingClient υ γ query} {batchId : ℕ} {error : Option ErrorCode}
    {event : SyncEvent κ υ ι}
    (h : ((c₁.finishWrite batchId error).engineStep event).bind fillWritePipeline = some c')
    (hsame : c₁.engine = c.engine) (hwatch : event.isWatch = false)
    (hkeeps : c.engine.Keeps event) : EngineMoves c c' := by
  obtain ⟨c₂, hstep, hfill⟩ := Option.bind_eq_some_iff.1 h
  have hnext := engineStep_engine hstep
  rw [finishWrite_engine, hsame, ← fillWritePipeline_engine hfill] at hnext
  exact Or.inr ⟨event, hwatch, hkeeps, hnext⟩

theorem handleWriteError_moves {error : ErrorCode} {network : Bool}
    (hready : c.writes.Ready network c.queue.queue) (h : c.handleWriteError error = some c') :
    EngineMoves c c' := by
  unfold handleWriteError at h
  split at h
  · cases hpipeline : c.writes.writePipeline with
    | nil =>
        rw [hpipeline] at h
        exact absurd h (by simp)
    | cons batch batches =>
        obtain ⟨rest, hqueue⟩ := hready.head hpipeline
        rw [hpipeline] at h
        obtain ⟨writeStream, -, hfinish⟩ := Option.bind_eq_some_iff.1 h
        exact finishWrite_moves hfinish rfl rfl ⟨batch, rest, hqueue, rfl⟩
  · obtain rfl := Option.some.inj h
    exact Or.inl rfl

/-- **A step of the write half is at most one event of the engine**, which keeps to its rules. -/
theorem step_moves (h : c.Inv store) {event : ClientEvent κ υ ι γ} (hkeeps : c.Keeps event)
    (hwatch : event.isWatch = false)
    (hstep : c.step event = some c') : EngineMoves c c' := by
  cases event with
  | engine event => exact Or.inr ⟨event, hwatch, hkeeps.2, engineStep_engine hstep⟩
  | writeMutations writes callback =>
      obtain ⟨c₁, hwrite, hfill⟩ := Option.bind_eq_some_iff.1 hstep
      have hsame : (c.addCallback c.queue.nextBatchId callback).engine = c.engine := by
        unfold addCallback
        split <;> rfl
      have hnext := engineStep_engine hwrite
      rw [hsame, ← fillWritePipeline_engine hfill] at hnext
      exact Or.inr ⟨.writeMutations writes, rfl, hkeeps, hnext⟩
  | registerPendingWritesCallback callback =>
      obtain rfl := Option.some.inj hstep
      refine Or.inl ?_
      unfold registerPendingWritesCallback
      dsimp only
      split <;> rfl
  | handleCredentialChange user' =>
      obtain ⟨c₁, hchange, hnetwork⟩ := Option.bind_eq_some_iff.1 hstep
      have hsame : (if user' = c.currentUser then c
          else c.failOutstandingPendingWriteCallbacks).engine = c.engine := by
        split <;> rfl
      have hengine : c'.engine = c₁.engine := by
        split at hnetwork
        · obtain ⟨c₂, hdisable, henable⟩ := Option.bind_eq_some_iff.1 hnetwork
          exact (enableNetwork_engine henable).trans (disableNetwork_engine hdisable)
        · rw [Option.some.inj hnetwork]
      have hnext := engineStep_engine hchange
      rw [hsame, ← hengine] at hnext
      exact Or.inr ⟨.handleCredentialChange user', rfl, trivial, hnext⟩
  | enableNetwork => exact Or.inl (enableNetwork_engine hstep)
  | disableNetwork => exact Or.inl (disableNetwork_engine hstep)
  | writeStreamOpened => exact Or.inl (withWrites_engine hstep)
  | writeStreamResponse mutationResults =>
      rw [step] at hstep
      split at hstep
      · next hcomplete =>
          obtain ⟨request, hrequest, hlength⟩ := hkeeps.2 hcomplete
          obtain ⟨requests, hrequests⟩ := List.head?_eq_some_iff.1 hrequest
          obtain ⟨batch, rest, hqueue, hmutations, hpipeline, -⟩ := h.writes.first hrequests
          rw [onWriteStreamMutationResult, hpipeline] at hstep
          exact finishWrite_moves hstep rfl rfl
            ⟨batch, rest, hqueue, rfl, by rw [hmutations, hlength]⟩
      · exact Or.inl (withWrites_engine hstep)
  | writeStreamFailed error =>
      obtain ⟨c₁, herror, hstart⟩ := Option.bind_eq_some_iff.1 hstep
      obtain ⟨writes, -, rfl⟩ := Option.map_eq_some_iff.1 hstart
      split at herror
      · have hmoves := handleWriteError_moves
          (c := { c with writes := c.writes.closed false }) (h.writes.failed hkeeps false) herror
        exact hmoves
      · obtain rfl := Option.some.inj herror
        exact Or.inl rfl
  | writeBackoffElapsed => exact Or.inl (withWrites_engine hstep)
  | writeStreamIdle => exact Or.inl (withWrites_engine hstep)

end WritingClient

namespace ListeningClient

variable {store : RestoredStore κ υ} {c c' : ListeningClient υ query}

theorem engineStep_queues {event : SyncEvent κ υ ι} (h : c.engineStep event = some c')
    (hevent : event.isWrite = false) :
    c'.engine.localStore.queues = c.engine.localStore.queues := by
  obtain ⟨engine, hnext, rfl⟩ := Option.map_eq_some_iff.1 h
  exact SyncEngine.next_queues hnext hevent

theorem targetRefused_queues {target : TargetId ι} (h : c.targetRefused target = some c') :
    c'.engine.localStore.queues = c.engine.localStore.queues := by
  unfold targetRefused at h
  split at h
  · have hqueues := engineStep_queues h rfl
    exact hqueues
  · rw [Option.some.inj h]

/-- **What comes from the watch stream does not concern the queues.** -/
theorem step_queues {event : ListenEvent κ υ ι}
    (hstream : event.isStream = true)
    (h : c.step event = some c') :
    c'.engine.localStore.queues = c.engine.localStore.queues := by
  cases event with
  | engine event => exact absurd hstream Bool.false_ne_true
  | watchStreamOpened =>
      obtain rfl := Option.some.inj h
      rfl
  | watchStreamClosed =>
      obtain rfl := Option.some.inj h
      rfl
  | watchStreamChange change snapshotVersion =>
      obtain ⟨a, -, hchange⟩ := Option.bind_eq_some_iff.1 h
      split at hchange
      · exact foldlM_keeps (fun c : ListeningClient υ query => c.engine.localStore.queues)
          (fun _ _ _ => targetRefused_queues) hchange
      · obtain ⟨a₁, -, hraise⟩ := Option.bind_eq_some_iff.1 hchange
        split at hraise
        · obtain ⟨x, -, hevent⟩ := Option.bind_eq_some_iff.1 hraise
          have hqueues := engineStep_queues hevent rfl
          exact hqueues
        · obtain rfl := Option.some.inj hraise
          rfl

end ListeningClient

/-! ### Both halves -/

/-- The engine with the write half, and the aggregator of the open watch stream. -/
structure Client (υ γ : Type*) (query : ι → Query κ ObjectValue) where
  writing : WritingClient υ γ query
  watchChangeAggregator : Option (WatchChangeAggregator κ ι)

/-- A step of one of the halves. -/
inductive SessionEvent (κ υ ι γ : Type*)
  | writing (event : ClientEvent κ υ ι γ)
  | listening (event : ListenEvent κ υ ι)

namespace Client

def start (store : RestoredStore κ υ) : Client υ γ query where
  writing := .start store
  watchChangeAggregator := none

variable (c : Client υ γ query)

/-- The listen half, with the same engine. -/
def listening : ListeningClient υ query where
  engine := c.writing.engine
  watchChangeAggregator := c.watchChangeAggregator

/-- `DisableNetworkInternal` stops both streams; for another user there is something to stop only
while there is a network. -/
def stopsWatchStream : ClientEvent κ υ ι γ → Bool
  | .disableNetwork => true
  | .handleCredentialChange _ => c.writing.networkEnabled
  | _ => false

/-- The listen half after the write half has stopped the watch stream, if it does. -/
def listeningAfter (event : ClientEvent κ υ ι γ) : ListeningClient υ query :=
  if c.stopsWatchStream event then c.listening.onWatchStreamClose else c.listening

/-- What the write half makes the engine call is sent on the watch stream, as always. -/
def step : SessionEvent κ υ ι γ → Option (Client υ γ query)
  | .writing event => (c.writing.step event).map fun writing =>
      let calls := writing.engine.tracking.calls.drop c.writing.engine.tracking.calls.length
      { writing := writing
        watchChangeAggregator := (c.listeningAfter event).watchChangeAggregator.map fun a =>
          a.sendRequests (calls.map TargetCall.target) }
  | .listening event => (c.listening.step event).map fun listening =>
      { writing := { c.writing with engine := listening.engine }
        watchChangeAggregator := listening.watchChangeAggregator }

/-- **The rules** of the halves; only what comes from the watch stream is left to the listen
half. -/
def Keeps : SessionEvent κ υ ι γ → Prop
  | .writing event => c.writing.Keeps event ∧ event.isWatch = false
  | .listening event => c.listening.Keeps event ∧ event.isStream = true

/-- **What holds of both halves.** -/
structure Inv (store : RestoredStore κ υ) (c : Client υ γ query) : Prop where
  writing : c.writing.Inv store
  listening : c.listening.Inv store

variable {store : RestoredStore κ υ} {c} {c' : Client υ γ query}

omit [LinearOrder κ] [DecidableEq υ] [DecidableEq ι] in
@[simp] theorem listeningAfter_engine (event : ClientEvent κ υ ι γ) :
    (c.listeningAfter event).engine = c.writing.engine := by
  unfold listeningAfter
  split <;> rfl

theorem listeningAfter_inv (h : c.listening.Inv store) (event : ClientEvent κ υ ι γ) :
    (c.listeningAfter event).Inv store := by
  unfold listeningAfter
  split
  · exact ListeningClient.onWatchStreamClose_inv h
  · exact h

/-- The listen half sees of a step of the write half at most that its stream is stopped, and one
event of the engine. -/
theorem listening_of_moves {event : ClientEvent κ υ ι γ} (hstep : c.step (.writing event) = some c')
    (hmoves : WritingClient.EngineMoves c.writing c'.writing) :
    c'.listening = c.listeningAfter event ∨ ∃ engineEvent : SyncEvent κ υ ι,
      SyncEngine.targetChange engineEvent = (fun _ => none) ∧
      (c.listeningAfter event).engine.Keeps engineEvent ∧
      (c.listeningAfter event).engineStep engineEvent = some c'.listening := by
  obtain ⟨writing, -, rfl⟩ := Option.map_eq_some_iff.1 hstep
  have hengine := c.listeningAfter_engine event
  generalize c.listeningAfter event = after at hengine ⊢
  obtain ⟨engine, watchChangeAggregator⟩ := after
  obtain rfl : engine = c.writing.engine := hengine
  obtain hsame | ⟨engineEvent, hwatch, hkeeps, hnext⟩ := hmoves
  · refine Or.inl ?_
    unfold listening
    dsimp only at hsame ⊢
    rw [hsame, List.drop_length]
    cases watchChangeAggregator <;> rfl
  · refine Or.inr ⟨engineEvent, ?_, hkeeps, ?_⟩
    · cases engineEvent with
      | applyRemoteEvent _ => exact absurd hwatch (by simp [SyncEvent.isWatch])
      | _ => rfl
    · rw [ListeningClient.engineStep]
      exact congrArg (Option.map _) hnext

/-- **A step of one half keeps what holds of the other.** -/
theorem step_inv (h : c.Inv store) {event : SessionEvent κ υ ι γ} (hkeeps : c.Keeps event) :
    ∃ c', c.step event = some c' ∧ c'.Inv store := by
  cases event with
  | writing event =>
      obtain ⟨writing, hwriting, hinv, -⟩ := WritingClient.step_inv h.writing hkeeps.1
      have hstep : c.step (.writing event) = some _ := congrArg (Option.map _) hwriting
      refine ⟨_, hstep, hinv, ?_⟩
      obtain hsame | ⟨engineEvent, hquiet, hengine, hlisten⟩ := listening_of_moves hstep
        (WritingClient.step_moves h.writing hkeeps.1 hkeeps.2 hwriting)
      · rw [hsame]
        exact listeningAfter_inv h.listening event
      · obtain ⟨listening, hlisten', hinv'⟩ := ListeningClient.engineStep_inv
          (listeningAfter_inv h.listening event) hengine
          fun _ _ target hchange => absurd (congrFun hquiet target) hchange
        rw [← Option.some.inj (hlisten'.symm.trans hlisten)]
        exact hinv'
  | listening event =>
      obtain ⟨listening, hstep, hinv⟩ := ListeningClient.step_inv h.listening hkeeps.1
      have hqueues : listening.engine.localStore.queues = c.writing.engine.localStore.queues :=
        ListeningClient.step_queues hkeeps.2 hstep
      obtain ⟨-, -, hqueue⟩ := LocalStore.queues_eq hqueues
      refine ⟨_, congrArg (Option.map _) hstep,
        ⟨h.writing.toSound.congr hinv.reached hqueues rfl rfl, ?_⟩, hinv⟩
      change c.writing.writes.Inv c.writing.networkEnabled
        listening.engine.localStore.mutationQueue.queue
      rw [hqueue]
      exact h.writing.writes

theorem inv_start (store : RestoredStore κ υ) : (start store : Client υ γ query).Inv store :=
  ⟨WritingClient.inv_start store, ListeningClient.inv_start store⟩

theorem run_inv {events : List (SessionEvent κ υ ι γ)}
    (hkeeps : StepsMeet step Keeps (start store : Client υ γ query) events) :
    ∃ c : Client υ γ query, run step (start store) events = some c ∧ c.Inv store :=
  run_of_meet (fun _ _ hkeeps h => step_inv h hkeeps) hkeeps (inv_start store)

/-! ### Whether an event keeps to the rules can be computed -/

instance decidableKeeps (c : Client υ γ query) :
    (event : SessionEvent κ υ ι γ) → Decidable (c.Keeps event)
  | .writing event =>
      inferInstanceAs (Decidable (c.writing.Keeps event ∧ event.isWatch = false))
  | .listening event =>
      inferInstanceAs (Decidable (c.listening.Keeps event ∧ event.isStream = true))

/-! ### What has been asked for and told -/

/-- What users have asked for and the backend has told: the callbacks of each user's writes, those
that wait for pending writes, and the documents of each query. -/
structure History (κ υ ι γ : Type*) where
  written : υ → List γ
  registered : Multiset γ
  told : ι → Finset κ

def noteHistory (c : Client υ γ query) (event : SessionEvent κ υ ι γ) (c' : Client υ γ query)
    (history : History κ υ ι γ) : History κ υ ι γ :=
  match event with
  | .writing event =>
      { history with
        written := c.writing.noteCallbacks event c'.writing history.written
        registered := c.writing.noteWaiters event c'.writing history.registered }
  | .listening event =>
      { history with told := c.listening.noteTold event c'.listening history.told }

/-- The client has called or keeps all callbacks, and has the documents told. -/
structure Accounts (c : Client υ γ query) (history : History κ υ ι γ) : Prop where
  written : ∀ user, c.writing.ledger user = history.written user
  registered : c.writing.waiters = history.registered
  told : c.listening.Agrees history.told

theorem Accounts.start (store : RestoredStore κ υ) : (start store : Client υ γ query).Accounts
    { written := fun _ => [], registered := 0, told := fun _ => ∅ } :=
  ⟨WritingClient.ledger_start store, add_zero _,
    fun _ ha => absurd ha (by simp [listening, Client.start])⟩

omit [DecidableEq υ] in
/-- A stream that is stopped leaves nothing collected to account for. -/
theorem agrees_listeningAfter {told : ι → Finset κ} (h : c.listening.Agrees told)
    (event : ClientEvent κ υ ι γ) : (c.listeningAfter event).Agrees told := by
  unfold listeningAfter
  split
  · exact fun _ ha => absurd ha (by simp [ListeningClient.onWatchStreamClose])
  · exact h

/-- **Nothing is lost or done twice**, whichever half takes the step. -/
theorem Accounts.step (h : c.Inv store) {history : History κ υ ι γ} (haccounts : c.Accounts history)
    {event : SessionEvent κ υ ι γ} (hkeeps : c.Keeps event) (hstep : c.step event = some c') :
    c'.Accounts (c.noteHistory event c' history) := by
  cases event with
  | writing event =>
      obtain ⟨writing, hwriting, hinv, hledger⟩ := WritingClient.step_inv h.writing hkeeps.1
      obtain ⟨writing', hwriting', hc'⟩ := Option.map_eq_some_iff.1 hstep
      obtain rfl := Option.some.inj (hwriting.symm.trans hwriting')
      have hsame : c'.writing = writing := hc' ▸ rfl
      refine ⟨fun u => ?_, ?_, ?_⟩
      · rw [hsame, hledger, haccounts.written]
        rfl
      · rw [hsame, WritingClient.step_waiters hwriting, haccounts.registered]
        rfl
      · obtain hlistening | ⟨engineEvent, hquiet, hengine, hlisten⟩ := listening_of_moves hstep
          (hsame ▸ WritingClient.step_moves h.writing hkeeps.1 hkeeps.2 hwriting)
        · rw [hlistening]
          exact agrees_listeningAfter haccounts.told event
        · exact (agrees_listeningAfter haccounts.told event).engineStep
            (listeningAfter_inv h.listening event) hengine hquiet hlisten
  | listening event =>
      obtain ⟨listening, hlisten, -, hagrees⟩ :=
        ListeningClient.step_told h.listening haccounts.told hkeeps.1
      obtain ⟨listening', hlisten', rfl⟩ := Option.map_eq_some_iff.1 hstep
      obtain rfl := Option.some.inj (hlisten.symm.trans hlisten')
      obtain ⟨hqueues, -, -⟩ :=
        LocalStore.queues_eq (ListeningClient.step_queues hkeeps.2 hlisten)
      refine ⟨fun u => ?_, haccounts.registered, hagrees⟩
      refine Eq.trans (WritingClient.ledger_congr ?_ ?_ (fun u => ?_) u) (haccounts.written u)
      · rfl
      · rfl
      · exact congrArg MutationQueue.queue (congrFun hqueues u)

end Client

/-! ### Every order of events -/

/-- A document is written while the backend sends another one; its write is answered before the
watch stream tells of it. -/
def writtenWhileListening : List (SessionEvent ℕ Bool Unit ℕ) :=
  [.writing .enableNetwork, .writing (.engine (.listen () ∅)), .listening .watchStreamOpened,
    .writing (.writeMutations [.setData 0 .empty] 11),
    .listening (.watchStreamChange (.targetChange .added [.query ()] false none) .none),
    .listening (.watchStreamChange (.documentChange [.query ()] [] 1
      (some (.document ⟨1, .empty, 5, .synced⟩))) .none),
    .writing .writeStreamOpened, .writing (.writeStreamResponse []),
    .listening (.watchStreamChange (.targetChange .current [.query ()] true none) 7),
    .writing (.writeStreamResponse [8]),
    .listening (.watchStreamChange (.documentChange [.query ()] [] 0
      (some (.document ⟨0, .empty, 8, .synced⟩))) .none),
    .listening (.watchStreamChange (.targetChange .noChange [] true none) 9),
    .writing (.writeMutations [.deleteDocument 1] 12)]

/-- **In every run of both halves that keeps to the rules**, nothing that users ask for or that the
backend tells is lost or done twice: each user's callbacks are called in the order of the writes,
every callback that waits for pending writes is called or still waits, and each view counts as the
backend's, with what is collected of its query, what the backend has told. -/
theorem history_run {store : RestoredStore κ υ} {events : List (SessionEvent κ υ ι γ)}
    (hkeeps : StepsMeet Client.step Client.Keeps (Client.start store : Client υ γ query) events) :
    ∃ (c : Client υ γ query) (history : Client.History κ υ ι γ),
      run (withHistory Client.step Client.noteHistory)
        (.start store, { written := fun _ => [], registered := 0, told := fun _ => ∅ }) events =
          some (c, history) ∧
      (∀ u, history.written u = c.writing.finished u ++ c.writing.unfinished u) ∧
      history.registered = (c.writing.called.filterMap CallbackCall.waiter : Multiset γ) +
        WritingClient.allCallbacks c.writing.pendingWritesCallbacks ∧
      ∀ a ∈ c.watchChangeAggregator, ∀ i,
        a.isActiveTarget c.writing.engine.metadata (.query i) = true →
          ∃ view, c.writing.engine.queryViewsByQuery.lookup i = some view ∧
            (a.targetState (.query i)).documents view.syncedDocuments = history.told i := by
  have hnoted : ∀ (x : Client υ γ query × Client.History κ υ ι γ) event, x.1.Keeps event →
      (x.1.Inv store ∧ x.1.Accounts x.2) →
        ∃ x', withHistory Client.step Client.noteHistory x event = some x' ∧
          x'.1.Inv store ∧ x'.1.Accounts x'.2 := by
    intro x event hkeeps h
    obtain ⟨c', hstep, hinv⟩ := Client.step_inv h.1 hkeeps
    exact ⟨(c', x.1.noteHistory event c' x.2), withHistory_eq_some.2 ⟨hstep, rfl⟩, hinv,
      h.2.step h.1 hkeeps hstep⟩
  obtain ⟨⟨c, history⟩, hrun, hinv, haccounts⟩ := run_of_meet hnoted
    (stepsMeet_withHistory.2 hkeeps) ⟨Client.inv_start store, Client.Accounts.start store⟩
  refine ⟨c, history, hrun, fun u => (haccounts.written u).symm, haccounts.registered.symm,
    fun a ha i hactive => ?_⟩
  obtain ⟨-, document, hquery⟩ := WatchChangeAggregator.isActiveTarget_iff.1 hactive
  obtain ⟨-, view, hview, hkeys⟩ := hinv.writing.reached.inv.query_metadata hquery
  refine ⟨view, hview, ?_⟩
  rw [← hkeys]
  exact haccounts.told a ha i hactive

theorem history_run_writtenWhileListening :
    StepsMeet Client.step Client.Keeps
        (.start (.empty false) : Client Bool ℕ fun _ => firstDocument) writtenWhileListening ∧
      ∃ (c : Client Bool ℕ fun _ => firstDocument) (history : Client.History ℕ Bool Unit ℕ),
        run (withHistory Client.step Client.noteHistory)
          (.start (.empty false), { written := fun _ => [], registered := 0, told := fun _ => ∅ })
            writtenWhileListening = some (c, history) ∧
        (∀ u, history.written u = c.writing.finished u ++ c.writing.unfinished u) ∧
        history.registered = (c.writing.called.filterMap CallbackCall.waiter : Multiset ℕ) +
          WritingClient.allCallbacks c.writing.pendingWritesCallbacks ∧
        ∀ a ∈ c.watchChangeAggregator, ∀ i,
          a.isActiveTarget c.writing.engine.metadata (.query i) = true →
            ∃ view, c.writing.engine.queryViewsByQuery.lookup i = some view ∧
              (a.targetState (.query i)).documents view.syncedDocuments = history.told i :=
  ⟨by decide, history_run (by decide)⟩

end FirestoreClient
