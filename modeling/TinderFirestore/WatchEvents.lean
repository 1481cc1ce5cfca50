/-
**Whatever the backend sends about the targets, the events made of it are right.**

What the aggregator has collected of a target fits what the client has of it, as long as the backend
keeps to a few rules for each message.  The events that are made of what has been collected then fit
the lookups and the views, and start over what is collected.

Main definitions:

* `FirestoreClient.TargetMetadata.Own` — what the client has of a target is what it asks for;
* `FirestoreClient.WatchChangeAggregator.Inv` — what is collected fits what the client has;
* `FirestoreClient.WatchChangeAggregator.Fits` — what the backend keeps to.

Main results:

* `FirestoreClient.WatchChangeAggregator.handle_spec` — **every message that keeps to the rules is
  handled**, and what is collected fits;
* `FirestoreClient.WatchChangeAggregator.createRemoteEvent_spec` — **an event can be made at any
  time**, and its changes fit what the client has.
-/

import TinderFirestore.EventRun
import TinderFirestore.WatchChangeAggregator

set_option relaxedAutoImplicit false
set_option autoImplicit false

open EventRun

namespace FirestoreClient

variable {κ ι : Type*} [LinearOrder κ] [DecidableEq ι]

/-- What the client has of a target that asks for one document is this document. -/
def TargetMetadata.Own (p : TargetMetadata κ ι) : Prop :=
  ∀ targetId key, p.queryData targetId = some (some key) → ∀ k ∈ p.remoteKeys targetId, k = key

namespace WatchChangeAggregator

/-- **What is collected fits what the client has.**  Of a target with unanswered requests this need
not be so: it starts over when they are answered. -/
structure Inv (p : TargetMetadata κ ι) (a : WatchChangeAggregator κ ι) : Prop where
  outstanding : ∀ targetId, 0 ≤ (a.targetState targetId).outstandingResponses
  follows : ∀ targetId document, ¬ (a.targetState targetId).IsPending →
    p.queryData targetId = some document →
      (a.targetState targetId).Follows (p.remoteKeys targetId) document
  updates : WellKeyed a.pendingDocumentUpdates

/-- **What the backend keeps to**: a document comes under its own key, and for a lookup it is the
one that is looked up, whose number is 0 or 1; only requests are answered, each once. -/
def Fits (p : TargetMetadata κ ι) (a : WatchChangeAggregator κ ι) : WatchChange κ ι → Prop
  | .documentChange updatedTargetIds removedTargetIds documentKey newDocument =>
      (∀ doc ∈ newDocument, doc.key = documentKey) ∧
        ∀ targetId ∈ updatedTargetIds ++ removedTargetIds,
          ∀ document ∈ p.queryData targetId, ∀ key ∈ document, documentKey = key
  | .existenceFilter targetId count =>
      ∀ document ∈ p.queryData targetId, document.isSome → count = 0 ∨ count = 1
  | .targetChange state targetIds resumeToken cause =>
      (state = .removed → cause = none) ∧
        StepsMeet (handleTargetChangeFor p state resumeToken cause)
          (fun a targetId => state = .added ∨ state = .removed →
            0 < (a.targetState targetId).outstandingResponses) a (a.getTargetIds targetIds)

section Invariant

variable {p : TargetMetadata κ ι} {a a' : WatchChangeAggregator κ ι} {targetId : TargetId ι}

omit [LinearOrder κ] in
theorem targetState_modifyState (a : WatchChangeAggregator κ ι) (targetId t : TargetId ι)
    (f : TargetState κ → TargetState κ) : (a.modifyState targetId f).targetState t =
      if t = targetId then f (a.targetState targetId) else a.targetState t := by
  split
  · next heq =>
      rw [modifyState, targetState, heq, AList.lookup_insert]
      rfl
  · next hne => rw [modifyState, targetState, AList.lookup_insert_ne hne, targetState]

omit [LinearOrder κ] in
theorem isActiveTarget_iff : a.isActiveTarget p targetId = true ↔
    ¬ (a.targetState targetId).IsPending ∧ ∃ document, p.queryData targetId = some document := by
  rw [isActiveTarget, queryDataForActiveTarget, ← Option.isSome_iff_exists]
  split <;> simp [*]

omit [LinearOrder κ] in
theorem queryDataForActiveTarget_eq_some {document : Option κ} :
    a.queryDataForActiveTarget p targetId = some document ↔
      ¬ (a.targetState targetId).IsPending ∧ p.queryData targetId = some document := by
  rw [queryDataForActiveTarget]
  split <;> simp [*]

theorem inv_init (p : TargetMetadata κ ι) : (init : WatchChangeAggregator κ ι).Inv p :=
  ⟨fun _ => le_refl _, fun _ _ _ _ => TargetState.follows_of_empty rfl,
    fun _ _ hdoc => absurd hdoc (by simp [init])⟩

/-! ### One target -/

theorem Inv.of_targetState (h : a.Inv p) {s : TargetState κ}
    (hstate : ∀ t, a'.targetState t = if t = targetId then s else a.targetState t)
    (hupdates : a'.pendingDocumentUpdates = a.pendingDocumentUpdates)
    (hout : 0 ≤ s.outstandingResponses)
    (hfollows : ∀ document, ¬ s.IsPending → p.queryData targetId = some document →
      s.Follows (p.remoteKeys targetId) document) : a'.Inv p := by
  refine ⟨fun t => ?_, fun t document => ?_, hupdates ▸ h.updates⟩
  · rw [hstate]
    split
    · exact hout
    · exact h.outstanding t
  · rw [hstate]
    split
    · next heq => exact heq ▸ hfollows document
    · exact h.follows t document

theorem Inv.modifyState (h : a.Inv p) {f : TargetState κ → TargetState κ}
    (hout : 0 ≤ (f (a.targetState targetId)).outstandingResponses)
    (hfollows : ∀ document, ¬ (f (a.targetState targetId)).IsPending →
      p.queryData targetId = some document →
        (f (a.targetState targetId)).Follows (p.remoteKeys targetId) document) :
    (a.modifyState targetId f).Inv p :=
  h.of_targetState (fun t => targetState_modifyState a targetId t f) rfl hout hfollows

theorem Inv.update (h : a.Inv p) {key : κ} {doc : MaybeDocument κ ObjectValue}
    (hkey : doc.key = key) :
    Inv p { a with pendingDocumentUpdates := a.pendingDocumentUpdates.insert key doc } := by
  refine ⟨h.outstanding, h.follows, fun k doc' hdoc' => ?_⟩
  by_cases hk : k = key
  · subst hk
    rw [AList.lookup_insert, Option.some_inj] at hdoc'
    exact hdoc' ▸ hkey
  · rw [AList.lookup_insert_ne hk] at hdoc'
    exact h.updates k doc' hdoc'

omit [LinearOrder κ] in
theorem targetState_removeTarget (a : WatchChangeAggregator κ ι) (targetId t : TargetId ι) :
    (a.removeTarget targetId).targetState t =
      if t = targetId then .init else a.targetState t := by
  rw [targetState, removeTarget]
  split
  · next heq =>
      rw [heq, AList.lookup_erase]
      rfl
  · next hne => rw [AList.lookup_erase_ne hne, targetState]

theorem Inv.removeTarget (h : a.Inv p) (targetId : TargetId ι) :
    (a.removeTarget targetId).Inv p :=
  h.of_targetState (targetState_removeTarget a targetId) rfl (le_refl _)
    fun _ _ _ => TargetState.follows_of_empty rfl

theorem Inv.updateResumeToken (h : a.Inv p) (targetId : TargetId ι) (resumeToken : Bool) :
    (a.modifyState targetId fun s => s.updateResumeToken resumeToken).Inv p := by
  refine h.modifyState ?_ fun document hpending hquery => ?_
  · rw [TargetState.updateResumeToken_outstandingResponses]
    exact h.outstanding targetId
  · rw [TargetState.IsPending, TargetState.updateResumeToken_outstandingResponses] at hpending
    exact (h.follows targetId document hpending hquery).congr
      (TargetState.updateResumeToken_documentChanges _ _)

theorem Inv.addDocumentToTarget (h : a.Inv p) {document : Document κ ObjectValue}
    (hown : ∀ key, p.queryData targetId = some (some key) → document.key = key) :
    (a.addDocumentToTarget p targetId document).Inv p := by
  rw [WatchChangeAggregator.addDocumentToTarget]
  split
  · refine Inv.update (h.modifyState (h.outstanding targetId) fun asked hpending hquery => ?_) rfl
    refine (h.follows targetId asked hpending hquery).addDocumentChange ?_ fun key hkey =>
      hown key (hquery.trans (congrArg some hkey))
    split
    · next hmem => exact Or.inr ⟨Or.inl rfl, hmem⟩
    · next hmem => exact Or.inl ⟨rfl, hmem⟩
  · exact h

theorem Inv.removeDocumentFromTarget (h : a.Inv p) {key : κ}
    {updatedDocument : Option (MaybeDocument κ ObjectValue)}
    (hkeyed : ∀ doc ∈ updatedDocument, doc.key = key)
    (hown : ∀ key', p.queryData targetId = some (some key') → key = key') :
    (a.removeDocumentFromTarget p targetId key updatedDocument).Inv p := by
  rw [WatchChangeAggregator.removeDocumentFromTarget]
  split
  · have hstate : Inv p (a.modifyState targetId fun s =>
        if key ∈ p.remoteKeys targetId then s.addDocumentChange key .removed
        else s.removeDocumentChange key) := by
      split
      · next hmem =>
          refine h.modifyState (h.outstanding targetId) fun asked hpending hquery => ?_
          exact (h.follows targetId asked hpending hquery).addDocumentChange
            (Or.inr ⟨Or.inr rfl, hmem⟩) fun key' hkey' =>
              hown key' (hquery.trans (congrArg some hkey'))
      · refine h.modifyState (h.outstanding targetId) fun asked hpending hquery => ?_
        exact (h.follows targetId asked hpending hquery).removeDocumentChange key
    cases updatedDocument with
    | none => exact hstate
    | some doc => exact hstate.update (hkeyed doc rfl)
  · exact h

/-- **A target that starts over** has everything leave that the client has. -/
theorem Inv.resetTarget (h : a.Inv p) (hown : p.Own) (hmem : targetId ∈ a.targetStates)
    (hpending : ¬ (a.targetState targetId).IsPending) :
    ∃ a', a.resetTarget p targetId = some a' ∧ a'.Inv p := by
  refine ⟨_, if_pos ⟨hmem, hpending⟩, ?_⟩
  have hinit : Inv p (a.modifyState targetId fun _ => .init) :=
    h.modifyState (le_refl _) fun _ _ _ => TargetState.follows_of_empty rfl
  refine List.foldlRecOn (motive := Inv p) _ _ hinit fun a' h' key hkey => ?_
  exact h'.removeDocumentFromTarget (fun doc hdoc => absurd hdoc (by simp)) fun key' hquery =>
    hown targetId key' hquery key (mem_sortedKeys.1 hkey)

/-! ### Messages -/

theorem handleDocumentChange_inv (h : a.Inv p)
    {updatedTargetIds removedTargetIds : List (TargetId ι)}
    {key : κ} {newDocument : Option (MaybeDocument κ ObjectValue)}
    (hfits : a.Fits p (.documentChange updatedTargetIds removedTargetIds key newDocument)) :
    (a.handleDocumentChange p updatedTargetIds removedTargetIds key newDocument).Inv p := by
  obtain ⟨hkeyed, hasked⟩ := hfits
  have hown (targetId : TargetId ι) (hmem : targetId ∈ updatedTargetIds ++ removedTargetIds)
      (key' : κ) (hquery : p.queryData targetId = some (some key')) : key = key' :=
    hasked targetId hmem (some key') hquery key' rfl
  refine List.foldlRecOn (motive := Inv p) _ _ ?_ fun a' h' targetId hmem =>
    h'.removeDocumentFromTarget hkeyed (hown targetId (List.mem_append_right _ hmem))
  refine List.foldlRecOn (motive := Inv p) _ _ h fun a' h' targetId hmem => ?_
  have hown' := hown targetId (List.mem_append_left _ hmem)
  match newDocument, hkeyed with
  | none, _ => exact h'
  | some (.document document), hkeyed =>
      exact h'.addDocumentToTarget fun key' hquery =>
        (hkeyed _ rfl).trans (hown' key' hquery)
  | some (.noDocument _ _ _), hkeyed => exact h'.removeDocumentFromTarget hkeyed hown'
  | some (.unknownDocument _ _), _ => exact h'

/-- The state is there when something is to be done with it. -/
theorem Inv.ensured (h : a.Inv p) (targetId : TargetId ι) : (a.modifyState targetId id).Inv p :=
  h.modifyState (h.outstanding targetId) (h.follows targetId)

omit [LinearOrder κ] in
theorem targetState_ensured (a : WatchChangeAggregator κ ι) (targetId : TargetId ι) :
    (a.modifyState targetId id).targetState targetId = a.targetState targetId :=
  (targetState_modifyState a targetId targetId id).trans (if_pos rfl)

theorem handleTargetChangeFor_spec (h : a.Inv p) (hown : p.Own) {state : WatchTargetChangeState}
    {resumeToken : Bool} {cause : Option ErrorCode} (hcause : state = .removed → cause = none)
    (hasked : state = .added ∨ state = .removed →
      0 < (a.targetState targetId).outstandingResponses) :
    ∃ a', handleTargetChangeFor p state resumeToken cause a targetId = some a' ∧ a'.Inv p := by
  have hensured := h.ensured targetId
  have hstate := targetState_ensured a targetId
  have hresponse (hack : state = .added ∨ state = .removed) :
      0 ≤ ((a.modifyState targetId id).targetState
        targetId).recordTargetResponse.outstandingResponses := by
    rw [hstate]
    exact Int.sub_nonneg_of_le (hasked hack)
  cases state with
  | noChange =>
      simp only [handleTargetChangeFor]
      split
      · exact ⟨_, rfl, hensured.updateResumeToken targetId resumeToken⟩
      · exact ⟨_, rfl, hensured⟩
  | added =>
      refine ⟨_, rfl, hensured.modifyState ?_ fun document hpending _ => ?_⟩
      · rw [TargetState.updateResumeToken_outstandingResponses]
        split
        · exact hresponse (Or.inl rfl)
        · exact hresponse (Or.inl rfl)
      · rw [TargetState.IsPending, TargetState.updateResumeToken_outstandingResponses] at hpending
        refine TargetState.follows_of_empty ?_
        rw [TargetState.updateResumeToken_documentChanges]
        split at hpending
        · next hstill => exact absurd hstill hpending
        · next hstill => rw [if_neg hstill, TargetState.clearPendingChanges]
  | removed =>
      simp only [handleTargetChangeFor, hcause rfl]
      refine ⟨_, rfl, ?_⟩
      split
      · next hstill =>
          rw [targetState_modifyState, if_pos rfl] at hstill
          exact hensured.modifyState (hresponse (Or.inr rfl)) fun _ hpending _ =>
            absurd hstill hpending
      -- The state with the last answer need not fit, but it is not kept.
      · have hstates (t : TargetId ι) : (((a.modifyState targetId id).modifyState targetId
            TargetState.recordTargetResponse).removeTarget targetId).targetState t =
              if t = targetId then .init else a.targetState t := by
          rw [targetState_removeTarget]
          split
          · rfl
          · next hne =>
              rw [targetState_modifyState, if_neg hne, targetState_modifyState, if_neg hne]
        exact h.of_targetState hstates rfl (le_refl _)
          fun _ _ _ => TargetState.follows_of_empty rfl
  | current =>
      simp only [handleTargetChangeFor]
      split
      · refine ⟨_, rfl, hensured.modifyState ?_ fun document hpending hquery => ?_⟩
        · rw [TargetState.updateResumeToken_outstandingResponses]
          exact hensured.outstanding targetId
        · rw [TargetState.IsPending, TargetState.updateResumeToken_outstandingResponses]
            at hpending
          exact (hensured.follows targetId document hpending hquery).congr
            (TargetState.updateResumeToken_documentChanges _ _)
      · exact ⟨_, rfl, hensured⟩
  | reset =>
      simp only [handleTargetChangeFor]
      split
      · next hactive =>
          obtain ⟨a', hreset, hinv⟩ := hensured.resetTarget hown
            ((AList.mem_insert _).2 (Or.inl rfl)) (isActiveTarget_iff.1 hactive).1
          rw [hreset]
          exact ⟨_, rfl, hinv.updateResumeToken targetId resumeToken⟩
      · exact ⟨_, rfl, hensured⟩

/-- The size that is compared with that of the backend is the number of documents of the target. -/
theorem getCurrentDocumentCountForTarget_eq (h : a.Inv p) {document : Option κ}
    (hquery : a.queryDataForActiveTarget p targetId = some document) :
    a.getCurrentDocumentCountForTarget p targetId =
      some (((a.targetState targetId).documents (p.remoteKeys targetId)).card : ℤ) := by
  obtain ⟨hpending, hdata⟩ := queryDataForActiveTarget_eq_some.1 hquery
  have hfollows := h.follows targetId document hpending hdata
  rw [getCurrentDocumentCountForTarget, hfollows.toTargetChange, hfollows.card_documents]
  rfl

theorem handleExistenceFilter_spec (h : a.Inv p) (hown : p.Own) {count : ℤ}
    (hfits : a.Fits p (.existenceFilter targetId count)) :
    ∃ a', a.handleExistenceFilter p targetId count = some a' ∧ a'.Inv p := by
  unfold handleExistenceFilter
  cases hquery : a.queryDataForActiveTarget p targetId with
  | none => exact ⟨a, rfl, h⟩
  | some document =>
      obtain ⟨hpending, hdata⟩ := queryDataForActiveTarget_eq_some.1 hquery
      cases document with
      | some key =>
          dsimp only
          split
          · refine ⟨_, rfl, h.removeDocumentFromTarget (fun doc hdoc => ?_) fun key' hkey' => ?_⟩
            · obtain rfl := Option.some.inj hdoc
              rfl
            · exact Option.some.inj (Option.some.inj (hdata.symm.trans hkey'))
          · next hzero =>
              rw [if_pos ((hfits (some key) hdata rfl).resolve_left hzero)]
              exact ⟨a, rfl, h⟩
      | none =>
          have hensured := h.ensured targetId
          have hstill : ¬ ((a.modifyState targetId id).targetState targetId).IsPending := by
            rw [targetState_ensured]
            exact hpending
          have hcount := getCurrentDocumentCountForTarget_eq hensured
            (queryDataForActiveTarget_eq_some.2 ⟨hstill, hdata⟩)
          simp only [hcount, Option.bind_some]
          split
          · exact ⟨_, rfl, hensured⟩
          · obtain ⟨a', hreset, hinv⟩ := hensured.resetTarget hown
              ((AList.mem_insert _).2 (Or.inl rfl)) hstill
            rw [hreset]
            exact ⟨_, rfl, hinv.outstanding, hinv.follows, hinv.updates⟩

/-- **Every message that keeps to the rules is handled.** -/
theorem handle_spec (h : a.Inv p) (hown : p.Own) {change : WatchChange κ ι}
    (hfits : a.Fits p change) : ∃ a', a.handle p change = some a' ∧ a'.Inv p := by
  cases change with
  | documentChange updatedTargetIds removedTargetIds key newDocument =>
      exact ⟨_, rfl, handleDocumentChange_inv h hfits⟩
  | existenceFilter targetId count => exact handleExistenceFilter_spec h hown hfits
  | targetChange state targetIds resumeToken cause =>
      rw [handle, handleTargetChange, foldlM_eq_run]
      exact run_of_meet (fun _ _ hasked h => handleTargetChangeFor_spec h hown hfits.1 hasked)
        hfits.2 h

/-! ### Events -/

/-- The change is what has been collected of a target, and fits what the client has of it. -/
def Explains (p : TargetMetadata κ ι) (targetId : TargetId ι) (change : TargetChange κ) : Prop :=
  ∃ (s : TargetState κ) (document : Option κ), p.queryData targetId = some document ∧
    s.Follows (p.remoteKeys targetId) document ∧ s.toTargetChange = some change

/-- What holds in the loop of `CreateRemoteEvent`: the changes so far fit, and what they are made of
is not kept. -/
structure Collected (p : TargetMetadata κ ι)
    (x : WatchChangeAggregator κ ι × AList fun _ : TargetId ι => TargetChange κ) : Prop where
  inv : x.1.Inv p
  explains : ∀ targetId change, x.2.lookup targetId = some change → Explains p targetId change
  cleared : ∀ targetId ∈ x.2, (x.1.targetState targetId).documentChanges = ∅

theorem collected_start (h : a.Inv p) : Collected p (a, ∅) :=
  ⟨h, fun _ _ hchange => absurd hchange (by simp), fun t ht => absurd ht (AList.notMem_empty t)⟩

theorem targetState_removeDocumentFromTarget {key : κ}
    {updatedDocument : Option (MaybeDocument κ ObjectValue)}
    (hactive : a.isActiveTarget p targetId = true) (t : TargetId ι) :
    (a.removeDocumentFromTarget p targetId key updatedDocument).targetState t =
      if t = targetId then
        if key ∈ p.remoteKeys targetId then (a.targetState targetId).addDocumentChange key .removed
        else (a.targetState targetId).removeDocumentChange key
      else a.targetState t := by
  have hstate := targetState_modifyState a targetId t fun s =>
    if key ∈ p.remoteKeys targetId then s.addDocumentChange key .removed
    else s.removeDocumentChange key
  rw [removeDocumentFromTarget, if_pos hactive]
  cases updatedDocument with
  | none => exact hstate
  | some doc => exact hstate

/-- A lookup without a document is resolved as one of its changes, or nothing happens. -/
theorem resolveMissing_spec (h : a.Inv p) {document : Option κ} (snapshotVersion : SnapshotVersion)
    (hquery : a.queryDataForActiveTarget p targetId = some document) :
    (a.resolveMissing p snapshotVersion targetId document).Inv p ∧
      ¬ ((a.resolveMissing p snapshotVersion targetId document).targetState targetId).IsPending ∧
      (∀ t ≠ targetId, (a.resolveMissing p snapshotVersion targetId document).targetState t =
        a.targetState t) ∧
      (a.resolveMissing p snapshotVersion targetId document = a ∨
        ((a.resolveMissing p snapshotVersion targetId document).targetState
          targetId).hasPendingChanges = true) := by
  obtain ⟨hpending, hdata⟩ := queryDataForActiveTarget_eq_some.1 hquery
  cases document with
  | none => exact ⟨h, hpending, fun _ _ => rfl, Or.inl rfl⟩
  | some key =>
      rw [resolveMissing]
      split
      · have hactive : a.isActiveTarget p targetId = true :=
          isActiveTarget_iff.2 ⟨hpending, some key, hdata⟩
        refine ⟨h.removeDocumentFromTarget (fun doc hdoc => ?_) fun key' hkey' => ?_, ?_,
          fun t hne => ?_, Or.inr ?_⟩
        · obtain rfl := Option.some.inj hdoc
          rfl
        · exact Option.some.inj (Option.some.inj (hdata.symm.trans hkey'))
        · rw [targetState_removeDocumentFromTarget hactive, if_pos rfl]
          split <;> exact hpending
        · rw [targetState_removeDocumentFromTarget hactive, if_neg hne]
        · rw [targetState_removeDocumentFromTarget hactive, if_pos rfl]
          split <;> rfl
      · exact ⟨h, hpending, fun _ _ => rfl, Or.inl rfl⟩

theorem collectTargetChange_spec
    {x : WatchChangeAggregator κ ι × AList fun _ : TargetId ι => TargetChange κ}
    (h : Collected p x) (snapshotVersion : SnapshotVersion) (targetId : TargetId ι) :
    ∃ x', collectTargetChange p snapshotVersion x targetId = some x' ∧ Collected p x' := by
  unfold collectTargetChange
  cases hquery : x.1.queryDataForActiveTarget p targetId with
  | none => exact ⟨x, rfl, h⟩
  | some document =>
      obtain ⟨hinv, hpending, hother, hresolved⟩ :=
        resolveMissing_spec h.inv snapshotVersion hquery
      have hdata := (queryDataForActiveTarget_eq_some.1 hquery).2
      have hfollows := hinv.follows targetId document hpending hdata
      dsimp only
      split
      · rw [hfollows.toTargetChange]
        refine ⟨_, rfl, hinv.modifyState (hinv.outstanding targetId) fun _ _ _ =>
          TargetState.follows_of_empty rfl, fun t change hchange => ?_, fun t ht => ?_⟩
        · by_cases hne : t = targetId
          · subst hne
            rw [AList.lookup_insert] at hchange
            exact ⟨_, document, hdata, hfollows, hfollows.toTargetChange.trans hchange⟩
          · rw [AList.lookup_insert_ne hne] at hchange
            exact h.explains t change hchange
        · dsimp only
          rw [targetState_modifyState]
          split
          · rfl
          · next hne =>
              rw [hother t hne]
              exact h.cleared t (((AList.mem_insert _).1 ht).resolve_left hne)
      · next hquiet =>
          have hsame := hresolved.resolve_right hquiet
          rw [hsame]
          exact ⟨x, rfl, h⟩

/-- **An event can be made at any time**: its changes fit what the client has, and what is still
collected of the targets that it changes is nothing. -/
theorem createRemoteEvent_spec (h : a.Inv p) (snapshotVersion : SnapshotVersion) :
    ∃ remoteEvent resets a',
      a.createRemoteEvent p snapshotVersion = some (remoteEvent, resets, a') ∧ a'.Inv p ∧
      remoteEvent.snapshotVersion = snapshotVersion ∧ WellKeyed remoteEvent.documentUpdates ∧
      (∀ targetId change, remoteEvent.targetChanges.lookup targetId = some change →
        Explains p targetId change) ∧
      ∀ targetId ∈ remoteEvent.targetChanges,
        (a'.targetState targetId).documentChanges = ∅ := by
  obtain ⟨x, hrun, hcollected⟩ := foldlM_of_forall
    (fun _ targetId h => collectTargetChange_spec h snapshotVersion targetId)
      a.targetStates.keys (collected_start h)
  refine ⟨{ snapshotVersion := snapshotVersion
            targetChanges := x.2
            documentUpdates := x.1.pendingDocumentUpdates }, x.1.pendingTargetResets,
    { x.1 with
      pendingDocumentUpdates := ∅
      pendingTargetResets := [] }, ?_, ⟨hcollected.inv.outstanding, hcollected.inv.follows,
        fun _ _ hdoc => absurd hdoc (by simp)⟩, rfl, hcollected.inv.updates, hcollected.explains,
    hcollected.cleared⟩
  rw [createRemoteEvent, hrun]
  rfl

end Invariant

end WatchChangeAggregator

end FirestoreClient
