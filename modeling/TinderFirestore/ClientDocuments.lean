/-
**The views count as the backend's what the backend has told.**

Nothing that the backend says about a query is lost between the watch stream and the view, and
nothing else comes into the results: not when documents come and go before an event is made, not
when the store writes or stops listening meanwhile, not when a query starts over because documents
have been lost.

Main definitions:

* `FirestoreClient.ListeningClient.noteTold` — what the backend has told of each query.

Main results:

* `FirestoreClient.ListeningClient.step_told` — what a step does about the documents of the queries;
* `FirestoreClient.told_run` — **the results of each view, with what is collected of its query, are
  what the backend has told**, in every run.
-/

import TinderFirestore.ClientWatch
import TinderFirestore.WatchDocuments

set_option relaxedAutoImplicit false
set_option autoImplicit false

open EventRun

namespace FirestoreClient

variable {κ υ ι : Type*} [LinearOrder κ] [DecidableEq υ] [DecidableEq ι]
  {query : ι → Query κ ObjectValue}

namespace ListeningClient

/-- What the backend has told of each query: a message counts if no request for the query is
unanswered, and when the last one is answered this is what the view has. -/
def noteTold (c : ListeningClient υ query) (event : ListenEvent κ υ ι)
    (c' : ListeningClient υ query) (told : ι → Finset κ) : ι → Finset κ :=
  match event, c.watchChangeAggregator with
  | .watchStreamChange change _, some a => fun i =>
      if a.isActiveTarget c.engine.metadata (.query i) then a.tells (.query i) change (told i)
      else c'.engine.getRemoteKeys (.query i)
  | _, _ => told

/-- The documents of the queries that count are the documents told. -/
def Agrees (c : ListeningClient υ query) (told : ι → Finset κ) : Prop :=
  ∀ a ∈ c.watchChangeAggregator, ∀ i, a.isActiveTarget c.engine.metadata (.query i) = true →
    a.documents c.engine.metadata (.query i) = told i

variable {store : RestoredStore κ υ} {c c' : ListeningClient υ query}
  {a a' : WatchChangeAggregator κ ι} {i : ι}

/-! ### What the engine does about a query -/

/-- **A query that counts afterwards has counted before**, with the same collected for it; what the
view has of it changes as the event says. -/
theorem engineStep_query (h : c.Inv store) {event : SyncEvent κ υ ι} (hkeeps : c.engine.Keeps event)
    (hstep : c.engineStep event = some c') (ha' : a' ∈ c'.watchChangeAggregator)
    (hactive : a'.isActiveTarget c'.engine.metadata (.query i) = true) :
    ∃ a ∈ c.watchChangeAggregator, ¬ (a.targetState (.query i)).IsPending ∧
      (c.engine.forgetRefused event).metadata.queryData (.query i) = some none ∧
      a'.targetState (.query i) = a.targetState (.query i) ∧
      c'.engine.getRemoteKeys (.query i) =
        TargetChange.resultsAfter (c.engine.getRemoteKeys (.query i))
          (SyncEngine.targetChange event (.query i)) := by
  obtain ⟨s', calls, hstep', hreached, htargets, hlistened⟩ := engineStep_spec h hkeeps
  obtain rfl := Option.some.inj (hstep'.symm.trans hstep)
  obtain ⟨a, ha, rfl⟩ := Option.map_eq_some_iff.1 ha'
  obtain ⟨hpending, document, hquery⟩ := WatchChangeAggregator.isActiveTarget_iff.1 hactive
  obtain ⟨hnot, hstate⟩ := WatchChangeAggregator.sendRequests_active
    ((h.collected a ha).outstanding (.query i)) hpending
  obtain ⟨rfl, view', hview', hkeys'⟩ := hreached.inv.query_metadata hquery
  have hbefore := (hlistened (.query i) hnot).symm.trans hquery
  obtain ⟨hviews, -, -, -, hdata⟩ := c.engine.forgetRefused_spec event
  obtain ⟨-, view, hview, hkeys⟩ := h.reached.inv.query_metadata (hdata (.query i) none hbefore)
  refine ⟨a, ha, hstate ▸ hpending, hbefore, hstate, ?_⟩
  rw [hkeys', hkeys]
  exact htargets.views i view view' (hviews ▸ hview) hview'

theorem Agrees.engineStep (h : c.Inv store) {told : ι → Finset κ} (hagrees : c.Agrees told)
    {event : SyncEvent κ υ ι} (hkeeps : c.engine.Keeps event)
    (hquiet : SyncEngine.targetChange event = fun _ => none)
    (hstep : c.engineStep event = some c') : c'.Agrees told := by
  intro a' ha' i hactive
  obtain ⟨a, ha, hpending, hquery, hstate, hkeys⟩ := engineStep_query h hkeeps hstep ha' hactive
  obtain ⟨-, -, -, -, hdata⟩ := c.engine.forgetRefused_spec event
  rw [hquiet] at hkeys
  exact (WatchChangeAggregator.documents_eq hstate hkeys).trans (hagrees a ha i
    (WatchChangeAggregator.isActiveTarget_iff.2 ⟨hpending, none, hdata _ _ hquery⟩))

/-- The documents of the other queries stay when a target is refused. -/
theorem Agrees.targetRefused (h : c.Inv store) {told : ι → Finset κ} (hagrees : c.Agrees told)
    {target : TargetId ι} (hstep : c.targetRefused target = some c') : c'.Agrees told := by
  unfold ListeningClient.targetRefused at hstep
  split at hstep
  · next hlistened =>
      intro a' ha' i hactive
      have hkeeps : c.engine.Keeps (.processTargetError target) := trivial
      obtain ⟨a₁, ha₁, hpending, hquery, hstate, hkeys⟩ :=
        engineStep_query (h.forgetTarget target) hkeeps hstep ha' hactive
      obtain ⟨a, ha, rfl⟩ := Option.map_eq_some_iff.1 ha₁
      have hne : .query i ≠ target := by
        rintro rfl
        rw [SyncEngine.forgetRefused, if_pos hlistened] at hquery
        exact absurd ((AList.lookup_erase _ _).symm.trans hquery) (by simp)
      obtain ⟨-, -, -, -, hdata⟩ := c.engine.forgetRefused_spec (.processTargetError target)
      rw [WatchChangeAggregator.targetState_removeTarget, if_neg hne] at hpending hstate
      exact (WatchChangeAggregator.documents_eq hstate hkeys).trans (hagrees a ha i
        (WatchChangeAggregator.isActiveTarget_iff.2 ⟨hpending, none, hdata _ _ hquery⟩))
  · obtain rfl := Option.some.inj hstep
    exact hagrees

/-! ### What a message does about a query -/

/-- What is left of a message when its event has been made: the documents of a query that counts are
those that the message has made. -/
theorem handleWatchChange_query (h : c.Inv store) {a₁ : WatchChangeAggregator κ ι}
    {change : WatchChange κ ι} {snapshotVersion : SnapshotVersion}
    (hhandle : a.handle c.engine.metadata change = some a₁) (hinv : a₁.Inv c.engine.metadata)
    (hstep : c.handleWatchChange a change snapshotVersion = some c')
    (ha' : a' ∈ c'.watchChangeAggregator)
    (hactive : a'.isActiveTarget c'.engine.metadata (.query i) = true) :
    c.engine.metadata.queryData (.query i) = some none ∧
      ¬ (a₁.targetState (.query i)).IsPending ∧
      a'.documents c'.engine.metadata (.query i) = a₁.documents c.engine.metadata (.query i) ∧
      ((a₁.targetState (.query i)).documentChanges = ∅ →
        (a'.targetState (.query i)).documentChanges = ∅) := by
  rw [handleWatchChange, hhandle, Option.bind_some] at hstep
  split at hstep
  · next hversion =>
      obtain ⟨remoteEvent, resets, a₂, hcreate, hinv₂, rfl, hkeyed, hexplains, -⟩ :=
        WatchChangeAggregator.createRemoteEvent_spec hinv snapshotVersion
      rw [raiseWatchSnapshot, hcreate, Option.bind_some] at hstep
      obtain ⟨a₃, ha₃, hpending, hquery, hstate, hkeys⟩ := engineStep_query
        (h.withAggregator (hinv₂.sendRequests fun t _ => hinv₂.follows t))
        (h.reached.inv.keeps hversion.1 hversion.2 hkeyed hexplains) hstep ha' hactive
      obtain rfl := Option.some.inj ha₃
      obtain ⟨-, hsent⟩ := WatchChangeAggregator.sendRequests_active
        (hinv₂.outstanding (.query i)) hpending
      have hmoved := WatchChangeAggregator.createRemoteEvent_moved hinv hquery hcreate
      rw [hsent] at hpending hstate
      refine ⟨hquery, ?_, ?_, fun hnone => ?_⟩
      · obtain ⟨hsame, -⟩ | ⟨hsame, -⟩ := hmoved
        · exact hsame ▸ hpending
        · rw [hsame] at hpending
          exact hpending
      · refine Eq.trans ?_ hmoved.documents
        rw [WatchChangeAggregator.documents, hstate]
        exact congrArg (fun keys => (a₂.targetState (.query i)).documents keys) hkeys
      · rw [hstate]
        obtain ⟨hsame, -⟩ | ⟨hsame, -⟩ := hmoved
        · exact hsame ▸ hnone
        · rw [hsame]
          rfl
  · obtain rfl := Option.some.inj hstep
    obtain rfl := Option.some.inj ha'
    obtain ⟨hpending, document, hquery⟩ := WatchChangeAggregator.isActiveTarget_iff.1 hactive
    obtain ⟨rfl, -⟩ := h.reached.inv.query_metadata hquery
    exact ⟨hquery, hpending, rfl, id⟩

/-- **A message does what it says**, and nothing of it is lost. -/
theorem Agrees.handleWatchChange (h : c.Inv store) {told : ι → Finset κ} (hagrees : c.Agrees told)
    (ha : a ∈ c.watchChangeAggregator) {change : WatchChange κ ι}
    (hfits : a.Fits c.engine.metadata change) {snapshotVersion : SnapshotVersion}
    (hstep : c.handleWatchChange a change snapshotVersion = some c') :
    c'.Agrees fun i =>
      if a.isActiveTarget c.engine.metadata (.query i) then a.tells (.query i) change (told i)
      else c'.engine.getRemoteKeys (.query i) := by
  intro a' ha' i hactive
  obtain ⟨a₁, hhandle, hinv⟩ := WatchChangeAggregator.handle_spec (h.collected a ha)
    h.reached.inv.own hfits
  obtain ⟨hquery, hcounts, hdocuments, hnothing⟩ :=
    handleWatchChange_query h hhandle hinv hstep ha' hactive
  obtain ⟨hheard, hresumed⟩ := WatchChangeAggregator.handle_documents (h.collected a ha) hquery
    hfits hhandle
  -- A query that counts only since this message starts with what the view has.
  by_cases hpending : (a.targetState (.query i)).IsPending
  · have hinactive : ¬ a.isActiveTarget c.engine.metadata (.query i) = true :=
      fun hactive₀ => (WatchChangeAggregator.isActiveTarget_iff.1 hactive₀).1 hpending
    exact (TargetState.documents_of_empty (hnothing (hresumed hpending hcounts))).trans
      (if_neg hinactive).symm
  · have hactive₀ : a.isActiveTarget c.engine.metadata (.query i) = true :=
      WatchChangeAggregator.isActiveTarget_iff.2 ⟨hpending, none, hquery⟩
    refine Eq.trans ?_ (if_pos hactive₀).symm
    rw [hdocuments, (hheard hpending).2, hagrees a ha i hactive₀]

/-- Refused targets say nothing about the documents of the others. -/
theorem tells_of_refused {change : WatchChange κ ι} {targetIds : List (TargetId ι)}
    (hrefused : change.refused = some targetIds) (t : TargetId ι) (docs : Finset κ) :
    a.tells t change docs = docs := by
  cases change with
  | targetChange state targetIds' resumeToken cause =>
      cases state with
      | removed =>
          have hkept : ¬ (WatchTargetChangeState.removed = .reset ∧
              t ∈ a.getTargetIds targetIds') := by simp
          rw [WatchChangeAggregator.tells]
          exact if_neg hkept
      | _ => exact absurd hrefused (by simp [WatchChange.refused])
  | _ => exact absurd hrefused (by simp [WatchChange.refused])

/-- The documents of the queries that count stay when targets are refused. -/
theorem Agrees.processTargetError (h : c.Inv store) {told : ι → Finset κ} (hagrees : c.Agrees told)
    {targetIds : List (TargetId ι)} (hstep : c.processTargetError targetIds = some c') :
    c'.Agrees told := by
  obtain ⟨c₁, hrun, -, hagrees₁⟩ := foldlM_of_forall
    (I := fun c : ListeningClient υ query => c.Inv store ∧ c.Agrees told) (fun c target hc => by
      obtain ⟨c', hstep, hinv⟩ := targetRefused_inv hc.1 target
      exact ⟨c', hstep, hinv, hc.2.targetRefused hc.1 hstep⟩) targetIds ⟨h, hagrees⟩
  obtain rfl := Option.some.inj (hrun.symm.trans hstep)
  exact hagrees₁

/-- **Every step does about the documents of the queries what the backend says**, and nothing
else. -/
theorem step_told (h : c.Inv store) {told : ι → Finset κ} (hagrees : c.Agrees told)
    {event : ListenEvent κ υ ι} (hkeeps : c.Keeps event) :
    ∃ c', c.step event = some c' ∧ c'.Inv store ∧ c'.Agrees (noteTold c event c' told) := by
  obtain ⟨c', hstep, hinv⟩ := step_inv h hkeeps
  refine ⟨c', hstep, hinv, ?_⟩
  cases event with
  | engine event =>
      refine Agrees.engineStep h hagrees hkeeps.2 ?_ hstep
      cases event with
      | applyRemoteEvent _ => exact absurd hkeeps.1 (by simp [SyncEvent.isWatch])
      | _ => rfl
  | watchStreamOpened =>
      obtain rfl := Option.some.inj hstep
      intro a' ha' i hactive
      obtain rfl := Option.some.inj ha'
      obtain ⟨hpending, document, hquery⟩ := WatchChangeAggregator.isActiveTarget_iff.1 hactive
      obtain ⟨hnot, -⟩ := WatchChangeAggregator.sendRequests_active (le_refl _) hpending
      have hmem : TargetId.query i ∈ c.engine.tracking.listenTargets :=
        AList.lookup_isSome.1 (Option.isSome_iff_exists.2 ⟨document, hquery⟩)
      exact absurd (AList.mem_keys.1 hmem) hnot
  | watchStreamClosed =>
      obtain rfl := Option.some.inj hstep
      exact fun a' ha' => absurd ha' (by simp [onWatchStreamClose])
  | watchStreamChange change snapshotVersion =>
      obtain ⟨a, ha, hfits⟩ := hkeeps
      have hopen : c.watchChangeAggregator = some a := ha
      rw [step, onWatchStreamChange, hopen, Option.bind_some] at hstep
      simp only [noteTold, hopen]
      cases hrefused : change.refused with
      | some targetIds =>
          rw [hrefused] at hstep
          -- The queries that count are told nothing, and the others have counted no more since.
          refine Agrees.processTargetError h (fun a' ha' i hactive => ?_) hstep
          obtain rfl := Option.some.inj (hopen.symm.trans ha')
          rw [if_pos hactive, tells_of_refused hrefused]
          exact hagrees a ha i hactive
      | none =>
          rw [hrefused] at hstep hfits
          exact hagrees.handleWatchChange h ha (hfits rfl) hstep

end ListeningClient

/-! ### Every order of events -/

/-- **In every run that keeps to the rules**, what the view of a query counts as the backend's
results, with what is collected of the query, are the documents that the backend has told; and when
nothing is collected the view has exactly these. -/
theorem told_run {store : RestoredStore κ υ} {events : List (ListenEvent κ υ ι)}
    (hkeeps : StepsMeet ListeningClient.step ListeningClient.Keeps
      (ListeningClient.start store : ListeningClient υ query) events) :
    ∃ (c : ListeningClient υ query) (told : ι → Finset κ),
      run (withHistory ListeningClient.step ListeningClient.noteTold)
        (.start store, fun _ => ∅) events = some (c, told) ∧
      ∀ a ∈ c.watchChangeAggregator, ∀ i, a.isActiveTarget c.engine.metadata (.query i) = true →
        ∃ view, c.engine.queryViewsByQuery.lookup i = some view ∧
          (a.targetState (.query i)).documents view.syncedDocuments = told i ∧
          ((a.targetState (.query i)).documentChanges = ∅ → view.syncedDocuments = told i) := by
  have hnoted : ∀ (x : ListeningClient υ query × (ι → Finset κ)) event, x.1.Keeps event →
      (x.1.Inv store ∧ x.1.Agrees x.2) →
        ∃ x', withHistory ListeningClient.step ListeningClient.noteTold x event = some x' ∧
          x'.1.Inv store ∧ x'.1.Agrees x'.2 := by
    intro x event hkeeps h
    obtain ⟨c', hstep, hinv, hagrees⟩ := ListeningClient.step_told h.1 h.2 hkeeps
    exact ⟨(c', ListeningClient.noteTold x.1 event c' x.2), withHistory_eq_some.2 ⟨hstep, rfl⟩,
      hinv, hagrees⟩
  have hstart : (ListeningClient.start store : ListeningClient υ query).Agrees fun _ => ∅ :=
    fun _ ha => absurd ha (by simp [ListeningClient.start])
  obtain ⟨⟨c, told⟩, hrun, hinv, hagrees⟩ := run_of_meet hnoted
    (stepsMeet_withHistory.2 hkeeps) ⟨ListeningClient.inv_start store, hstart⟩
  refine ⟨c, told, hrun, fun a ha i hactive => ?_⟩
  obtain ⟨-, document, hquery⟩ := WatchChangeAggregator.isActiveTarget_iff.1 hactive
  obtain ⟨-, view, hview, hkeys⟩ := hinv.reached.inv.query_metadata hquery
  have htold : (a.targetState (.query i)).documents view.syncedDocuments = told i := by
    rw [← hkeys]
    exact hagrees a ha i hactive
  exact ⟨view, hview, htold, fun hnone => (TargetState.documents_of_empty hnone).symm.trans htold⟩

theorem told_run_lostDocument :
    StepsMeet ListeningClient.step ListeningClient.Keeps
        (.start (.empty ()) : ListeningClient Unit fun _ => firstDocument) lostDocument ∧
      ∃ (c : ListeningClient Unit fun _ => firstDocument) (told : Unit → Finset ℕ),
        run (withHistory ListeningClient.step ListeningClient.noteTold)
          (.start (.empty ()), fun _ => ∅) lostDocument = some (c, told) ∧
        ∀ a ∈ c.watchChangeAggregator, ∀ i,
          a.isActiveTarget c.engine.metadata (.query i) = true →
            ∃ view, c.engine.queryViewsByQuery.lookup i = some view ∧
              (a.targetState (.query i)).documents view.syncedDocuments = told i ∧
              ((a.targetState (.query i)).documentChanges = ∅ → view.syncedDocuments = told i) :=
  ⟨by decide, told_run (by decide)⟩

end FirestoreClient
