/-
**The documents of a target, as the backend has told.**

What the client has of a target and what is collected of it together are the documents that the
backend counts among those of the target.  Each message changes them as it says, and nothing else
does: an event only moves them from what is collected to what the client has.

Main definitions:

* `FirestoreClient.WatchChangeAggregator.documents` — the documents of a target;
* `FirestoreClient.WatchChangeAggregator.tells` — what a message says about them.

Main results:

* `FirestoreClient.WatchChangeAggregator.handle_documents` — **a message changes them as it says**;
* `FirestoreClient.WatchChangeAggregator.createRemoteEvent_moved` — **an event loses nothing**.
-/

import TinderFirestore.WatchEvents

set_option relaxedAutoImplicit false
set_option autoImplicit false

open EventRun

namespace FirestoreClient

namespace WatchChangeAggregator

variable {κ ι : Type*} [LinearOrder κ] [DecidableEq ι]

/-- The documents of the target, as the backend has told. -/
def documents (p : TargetMetadata κ ι) (a : WatchChangeAggregator κ ι) (targetId : TargetId ι) :
    Finset κ :=
  (a.targetState targetId).documents (p.remoteKeys targetId)

/-- What is said with a document about the documents of the targets for which it is updated. -/
def toldWith (key : κ) : Option (MaybeDocument κ ObjectValue) → Finset κ → Finset κ
  | some (.document document) => insert document.key
  | some (.noDocument _ _ _) => fun docs => docs.erase key
  | _ => id

/-- What a message says about the documents of a query. -/
def tells (a : WatchChangeAggregator κ ι) (targetId : TargetId ι) :
    WatchChange κ ι → Finset κ → Finset κ
  | .documentChange updatedTargetIds removedTargetIds documentKey newDocument => fun docs =>
      (if targetId ∈ removedTargetIds then fun docs => docs.erase documentKey else id)
        ((if targetId ∈ updatedTargetIds then toldWith documentKey newDocument else id) docs)
  | .existenceFilter targetId' count => fun docs =>
      if targetId' = targetId ∧ (docs.card : ℤ) ≠ count then ∅ else docs
  | .targetChange state targetIds _ _ => fun docs =>
      if state = .reset ∧ targetId ∈ a.getTargetIds targetIds then ∅ else docs

/-- The documents of the target are what `f` makes of them, if they count. -/
structure Moves (p : TargetMetadata κ ι) (targetId : TargetId ι) (f : Finset κ → Finset κ)
    (a a' : WatchChangeAggregator κ ι) : Prop where
  pending : (a'.targetState targetId).IsPending ↔ (a.targetState targetId).IsPending
  documents : ¬ (a.targetState targetId).IsPending →
    a'.documents p targetId = f (a.documents p targetId)

variable {p p' : TargetMetadata κ ι} {a a' a'' : WatchChangeAggregator κ ι}
  {targetId t : TargetId ι} {f g : Finset κ → Finset κ}

/-! ### One target after the other -/

theorem documents_eq (hstate : a'.targetState t = a.targetState t)
    (hkeys : p'.remoteKeys t = p.remoteKeys t) : a'.documents p' t = a.documents p t := by
  rw [documents, hstate, hkeys]
  rfl

theorem Moves.of_eq (h : a'.targetState t = a.targetState t) : Moves p t id a a' := by
  refine ⟨by rw [h], fun _ => documents_eq h rfl⟩

theorem Moves.trans (h : Moves p t f a a') (h' : Moves p t g a' a'') :
    Moves p t (fun docs => g (f docs)) a a'' := by
  refine ⟨h'.pending.trans h.pending, fun hactive => ?_⟩
  rw [h'.documents (mt h.pending.1 hactive), h.documents hactive]

/-- **The same for each target of a list** is the same once, if the target is in the list. -/
theorem Moves.foldlM (hf : ∀ docs, f (f docs) = f docs)
    {round : WatchChangeAggregator κ ι → TargetId ι → Option (WatchChangeAggregator κ ι)}
    (hround : ∀ a targetId a', round a targetId = some a' →
      Moves p t (if targetId = t then f else id) a a') {targetIds : List (TargetId ι)}
    (h : targetIds.foldlM round a = some a') :
    Moves p t (if t ∈ targetIds then f else id) a a' := by
  induction targetIds generalizing a with
  | nil =>
      obtain rfl := Option.some.inj h
      rw [if_neg List.not_mem_nil]
      exact .of_eq rfl
  | cons targetId targetIds ih =>
      rw [List.foldlM_cons] at h
      obtain ⟨a₁, hfirst, hrest⟩ := Option.bind_eq_some_iff.1 h
      have hmoves := (hround a targetId a₁ hfirst).trans (ih hrest)
      by_cases heq : targetId = t
      · rw [if_pos heq] at hmoves
        rw [if_pos (List.mem_cons.2 (Or.inl heq.symm))]
        split at hmoves
        · exact ⟨hmoves.pending, fun hactive => (hmoves.documents hactive).trans (hf _)⟩
        · exact hmoves
      · have hmem : t ∈ targetId :: targetIds ↔ t ∈ targetIds :=
          List.mem_cons.trans (or_iff_right (Ne.symm heq))
        rw [if_neg heq] at hmoves
        simp only [hmem]
        exact hmoves

theorem Moves.foldl (hf : ∀ docs, f (f docs) = f docs)
    {round : WatchChangeAggregator κ ι → TargetId ι → WatchChangeAggregator κ ι}
    (hround : ∀ a targetId, Moves p t (if targetId = t then f else id) a (round a targetId))
    (targetIds : List (TargetId ι)) (a : WatchChangeAggregator κ ι) :
    Moves p t (if t ∈ targetIds then f else id) a (targetIds.foldl round a) := by
  have hpure : ∀ a targetId a', some (round a targetId) = some a' →
      Moves p t (if targetId = t then f else id) a a' := by
    intro a targetId a' ha'
    obtain rfl := Option.some.inj ha'
    exact hround a targetId
  exact Moves.foldlM hf hpure List.foldlM_pure

/-! ### What is done with a document -/

theorem Moves.addDocumentToTarget (hlistened : p.queryData t = some none)
    (a : WatchChangeAggregator κ ι) (targetId : TargetId ι) (document : Document κ ObjectValue) :
    Moves p t (if targetId = t then insert document.key else id) a
      (a.addDocumentToTarget p targetId document) := by
  have hstate := targetState_modifyState a targetId t fun s => s.addDocumentChange document.key
    (if document.key ∈ p.remoteKeys targetId then .modified else .added)
  rw [WatchChangeAggregator.addDocumentToTarget]
  by_cases heq : targetId = t
  · subst heq
    rw [if_pos rfl] at hstate ⊢
    split
    · refine ⟨(congrArg TargetState.IsPending hstate).to_iff, fun _ => ?_⟩
      refine (congrArg (TargetState.documents (p.remoteKeys targetId)) hstate).trans
        (TargetState.documents_addDocumentChange ?_)
      split
      · next hmem => exact Or.inr ⟨rfl, hmem⟩
      · next hmem => exact Or.inl ⟨rfl, hmem⟩
    · next hinactive =>
        exact ⟨Iff.rfl, fun hactive =>
          absurd (isActiveTarget_iff.2 ⟨hactive, none, hlistened⟩) hinactive⟩
  · rw [if_neg (Ne.symm heq)] at hstate
    rw [if_neg heq]
    split
    · exact .of_eq hstate
    · exact .of_eq rfl

theorem Moves.removeDocumentFromTarget (hlistened : p.queryData t = some none)
    (a : WatchChangeAggregator κ ι) (targetId : TargetId ι) (key : κ)
    (updatedDocument : Option (MaybeDocument κ ObjectValue)) :
    Moves p t (if targetId = t then fun docs => docs.erase key else id) a
      (a.removeDocumentFromTarget p targetId key updatedDocument) := by
  by_cases hactive : a.isActiveTarget p targetId = true
  · have hstate : (a.removeDocumentFromTarget p targetId key updatedDocument).targetState t = _ :=
      targetState_removeDocumentFromTarget hactive t
    by_cases heq : targetId = t
    · subst heq
      rw [if_pos rfl] at hstate ⊢
      refine ⟨?_, fun _ => ?_⟩
      · rw [hstate]
        split <;> rfl
      · rw [WatchChangeAggregator.documents, hstate]
        exact TargetState.documents_remove
    · rw [if_neg (Ne.symm heq)] at hstate
      rw [if_neg heq]
      exact .of_eq hstate
  · have hsame : a.removeDocumentFromTarget p targetId key updatedDocument = a := by
      rw [WatchChangeAggregator.removeDocumentFromTarget, if_neg hactive]
    rw [hsame]
    split
    · next heq =>
        subst heq
        exact ⟨Iff.rfl, fun hpending =>
          absurd (isActiveTarget_iff.2 ⟨hpending, none, hlistened⟩) hactive⟩
    · exact .of_eq rfl

theorem handleDocumentChange_moves (hlistened : p.queryData t = some none)
    (updatedTargetIds removedTargetIds : List (TargetId ι)) (key : κ)
    (newDocument : Option (MaybeDocument κ ObjectValue)) :
    Moves p t (a.tells t (.documentChange updatedTargetIds removedTargetIds key newDocument)) a
      (a.handleDocumentChange p updatedTargetIds removedTargetIds key newDocument) := by
  have hupdated : Moves p t (if t ∈ updatedTargetIds then toldWith key newDocument else id) a
      (updatedTargetIds.foldl (handleUpdatedTarget p key newDocument) a) := by
    refine Moves.foldl (fun docs => ?_) (fun a targetId => ?_) updatedTargetIds a
    · match newDocument with
      | none => rfl
      | some (.document document) => exact Finset.insert_idem _ _
      | some (.noDocument _ _ _) => exact Finset.erase_idem
      | some (.unknownDocument _ _) => rfl
    · match newDocument with
      | none => exact (ite_self (id : Finset κ → Finset κ)).symm ▸ .of_eq rfl
      | some (.document document) => exact .addDocumentToTarget hlistened a targetId document
      | some (.noDocument key' version committed) =>
          exact Moves.removeDocumentFromTarget hlistened a targetId key
            (some (.noDocument key' version committed))
      | some (.unknownDocument _ _) =>
          exact (ite_self (id : Finset κ → Finset κ)).symm ▸ .of_eq rfl
  exact hupdated.trans (Moves.foldl (fun _ => Finset.erase_idem)
    (fun a targetId => .removeDocumentFromTarget hlistened a targetId key newDocument)
      removedTargetIds _)

/-! ### A target starts over -/

theorem foldl_removeDocumentFromTarget (hlistened : p.queryData t = some none) (keys : List κ)
    (hpending : ¬ (a.targetState t).IsPending) :
    ¬ ((keys.foldl (fun a key => a.removeDocumentFromTarget p t key none) a).targetState
        t).IsPending ∧
      documents p (keys.foldl (fun a key => a.removeDocumentFromTarget p t key none) a) t =
        a.documents p t \ keys.toFinset := by
  induction keys generalizing a with
  | nil => exact ⟨hpending, by simp⟩
  | cons key keys ih =>
      have hmoves := Moves.removeDocumentFromTarget hlistened a t key none
      rw [if_pos rfl] at hmoves
      obtain ⟨hstill, hdocuments⟩ := ih (mt hmoves.pending.1 hpending)
      refine ⟨hstill, hdocuments.trans ?_⟩
      rw [hmoves.documents hpending, List.toFinset_cons, Finset.sdiff_insert,
        Finset.erase_sdiff_comm]

theorem resetTarget_moves (hlistened : p.queryData t = some none)
    (h : a.resetTarget p targetId = some a') :
    Moves p t (if targetId = t then fun _ => ∅ else id) a a' := by
  unfold resetTarget at h
  split at h
  · next hmem =>
      obtain rfl := Option.some.inj h
      have hstate := targetState_modifyState a targetId t fun _ => .init
      by_cases heq : targetId = t
      · subst heq
        rw [if_pos rfl] at hstate ⊢
        have hinit :
            ¬ ((a.modifyState targetId fun _ => .init).targetState targetId).IsPending := by
          rw [hstate]
          exact fun hpending => hpending rfl
        obtain ⟨hstill, hdocuments⟩ := foldl_removeDocumentFromTarget hlistened
          (sortedKeys (p.remoteKeys targetId)) hinit
        refine ⟨iff_of_false hstill hmem.2, fun _ => hdocuments.trans ?_⟩
        rw [documents, hstate, TargetState.documents_of_empty rfl]
        ext k
        simp
      · rw [if_neg heq]
        rw [if_neg (Ne.symm heq)] at hstate
        refine .of_eq (List.foldlRecOn (motive := fun a' : WatchChangeAggregator κ ι =>
          a'.targetState t = a.targetState t) _ _ hstate fun a' h' key _ => ?_)
        by_cases hactive : a'.isActiveTarget p targetId = true
        · rw [targetState_removeDocumentFromTarget hactive, if_neg (Ne.symm heq), h']
        · rw [removeDocumentFromTarget, if_neg hactive, h']
  · exact absurd h (by simp)

theorem handleExistenceFilter_moves (h : a.Inv p) (hlistened : p.queryData t = some none)
    {count : ℤ} (hhandle : a.handleExistenceFilter p targetId count = some a') :
    Moves p t (a.tells t (.existenceFilter targetId count)) a a' := by
  unfold handleExistenceFilter at hhandle
  cases hquery : a.queryDataForActiveTarget p targetId with
  | none =>
      rw [hquery] at hhandle
      obtain rfl := Option.some.inj hhandle
      refine ⟨Iff.rfl, fun hactive => (if_neg ?_).symm⟩
      rintro ⟨rfl, -⟩
      exact absurd (hquery.symm.trans (queryDataForActiveTarget_eq_some.2 ⟨hactive, hlistened⟩))
        (by simp)
  | some document =>
      obtain ⟨hpending, hdata⟩ := queryDataForActiveTarget_eq_some.1 hquery
      rw [hquery] at hhandle
      cases document with
      | some key =>
          have hne : targetId ≠ t := by
            rintro rfl
            exact absurd (hdata.symm.trans hlistened) (by simp)
          have hid : Moves p t id a a' := by
            dsimp only at hhandle
            split at hhandle
            · obtain rfl := Option.some.inj hhandle
              have hmoves := Moves.removeDocumentFromTarget hlistened a targetId key
                (some (.noDocument key .none false))
              rw [if_neg hne] at hmoves
              exact hmoves
            · split at hhandle
              · obtain rfl := Option.some.inj hhandle
                exact .of_eq rfl
              · exact absurd hhandle (by simp)
          exact ⟨hid.pending, fun hactive => (hid.documents hactive).trans
            (if_neg fun hand => hne hand.1).symm⟩
      | none =>
          have hsame : (a.modifyState targetId id).targetState t = a.targetState t := by
            rw [targetState_modifyState]
            split
            · next heq => rw [heq, id]
            · rfl
          have hensured : Moves p t id a (a.modifyState targetId id) := .of_eq hsame
          have hstill : ¬ ((a.modifyState targetId id).targetState targetId).IsPending := by
            rw [targetState_ensured]
            exact hpending
          have hcount := getCurrentDocumentCountForTarget_eq (h.ensured targetId)
            (queryDataForActiveTarget_eq_some.2 ⟨hstill, hdata⟩)
          rw [targetState_ensured] at hcount
          simp only [hcount, Option.bind_some] at hhandle
          split at hhandle
          · next hsize =>
              obtain rfl := Option.some.inj hhandle
              refine ⟨hensured.pending, fun hactive =>
                (hensured.documents hactive).trans (if_neg ?_).symm⟩
              rintro ⟨rfl, hne⟩
              exact hne hsize
          · next hsize =>
              obtain ⟨a₁, hreset, rfl⟩ := Option.map_eq_some_iff.1 hhandle
              have hmoves := hensured.trans (resetTarget_moves hlistened hreset)
              refine ⟨hmoves.pending, fun hactive => (hmoves.documents hactive).trans ?_⟩
              by_cases heq : targetId = t
              · subst heq
                rw [if_pos rfl]
                exact (if_pos ⟨rfl, hsize⟩).symm
              · rw [if_neg heq]
                exact (if_neg fun hand => heq hand.1).symm

/-! ### Messages about targets -/

theorem Moves.modifyState {change : TargetState κ → TargetState κ}
    (hout : ∀ s, (change s).outstandingResponses = s.outstandingResponses)
    (hchanges : ∀ s, (change s).documentChanges = s.documentChanges)
    (a : WatchChangeAggregator κ ι) (targetId : TargetId ι) :
    Moves p t id a (a.modifyState targetId change) := by
  have hstate := targetState_modifyState a targetId t change
  by_cases heq : t = targetId
  · subst heq
    rw [if_pos rfl] at hstate
    refine ⟨?_, fun _ => ?_⟩
    · rw [hstate, TargetState.IsPending, TargetState.IsPending, hout]
    · rw [WatchChangeAggregator.documents, hstate]
      exact TargetState.documents_congr (hchanges _)
  · exact .of_eq (hstate.trans (if_neg heq))

theorem Moves.congr (h : Moves p t f a a') (hfg : ∀ docs, f docs = g docs) : Moves p t g a a' :=
  ⟨h.pending, fun hactive => (h.documents hactive).trans (hfg _)⟩

theorem Moves.updateResumeToken (a : WatchChangeAggregator κ ι) (targetId : TargetId ι)
    (resumeToken : Bool) :
    Moves p t id a (a.modifyState targetId fun s => s.updateResumeToken resumeToken) :=
  .modifyState (fun s => TargetState.updateResumeToken_outstandingResponses s resumeToken)
    (fun s => TargetState.updateResumeToken_documentChanges s resumeToken) a targetId

theorem handleTargetChangeFor_moves (hlistened : p.queryData t = some none)
    {state : WatchTargetChangeState} (hstate : ¬ (state = .added ∨ state = .removed))
    {resumeToken : Bool} {cause : Option ErrorCode}
    (h : handleTargetChangeFor p state resumeToken cause a targetId = some a') :
    Moves p t (if targetId = t then fun docs => if state = .reset then ∅ else docs else id)
      a a' := by
  have hensured : Moves p t id a (a.modifyState targetId id) :=
    .modifyState (fun _ => rfl) (fun _ => rfl) a targetId
  cases state with
  | added => exact absurd (Or.inl rfl) hstate
  | removed => exact absurd (Or.inr rfl) hstate
  | noChange =>
      refine Moves.congr (f := id) ?_ fun docs => by split <;> rfl
      simp only [handleTargetChangeFor] at h
      split at h
      · obtain rfl := Option.some.inj h
        exact hensured.trans (.updateResumeToken _ targetId resumeToken)
      · obtain rfl := Option.some.inj h
        exact hensured
  | current =>
      refine Moves.congr (f := id) ?_ fun docs => by split <;> rfl
      simp only [handleTargetChangeFor] at h
      split at h
      · obtain rfl := Option.some.inj h
        exact hensured.trans (.modifyState
          (fun s => TargetState.updateResumeToken_outstandingResponses s.markCurrent resumeToken)
          (fun s => TargetState.updateResumeToken_documentChanges s.markCurrent resumeToken)
          _ targetId)
      · obtain rfl := Option.some.inj h
        exact hensured
  | reset =>
      simp only [handleTargetChangeFor] at h
      split at h
      · obtain ⟨a₁, hreset, rfl⟩ := Option.map_eq_some_iff.1 h
        refine Moves.congr ((hensured.trans (resetTarget_moves hlistened hreset)).trans
          (.updateResumeToken a₁ targetId resumeToken)) fun docs => ?_
        by_cases heq : targetId = t
        · rw [if_pos heq, if_pos heq]
          rfl
        · rw [if_neg heq, if_neg heq]
          rfl
      · next hinactive =>
          obtain rfl := Option.some.inj h
          by_cases heq : targetId = t
          · subst heq
            refine ⟨hensured.pending, fun hactive => absurd (isActiveTarget_iff.2
              ⟨mt hensured.pending.1 hactive, none, hlistened⟩) hinactive⟩
          · rw [if_neg heq]
            exact hensured

/-- An acknowledgement concerns its own target; when it is the last one, the target starts over. -/
theorem handleTargetChangeFor_ack {state : WatchTargetChangeState}
    (hstate : state = .added ∨ state = .removed) {resumeToken : Bool} {cause : Option ErrorCode}
    (h : handleTargetChangeFor p state resumeToken cause a targetId = some a') :
    (t ≠ targetId → a'.targetState t = a.targetState t) ∧
      ((a'.targetState targetId).IsPending ∨ (a'.targetState targetId).documentChanges = ∅) := by
  obtain rfl | rfl := hstate
  · obtain rfl := Option.some.inj h
    refine ⟨fun hne => ?_, ?_⟩
    · rw [targetState_modifyState, if_neg hne, targetState_modifyState, if_neg hne]
    · rw [targetState_modifyState, if_pos rfl, targetState_ensured]
      by_cases hpending : (a.targetState targetId).recordTargetResponse.IsPending
      · refine Or.inl ?_
        rw [TargetState.IsPending, TargetState.updateResumeToken_outstandingResponses,
          if_pos hpending]
        exact hpending
      · refine Or.inr ?_
        rw [TargetState.updateResumeToken_documentChanges, if_neg hpending,
          TargetState.clearPendingChanges]
  · simp only [handleTargetChangeFor] at h
    split at h
    · exact absurd h (by simp)
    · obtain rfl := Option.some.inj h
      split
      · next hpending =>
          refine ⟨fun hne => ?_, Or.inl hpending⟩
          rw [targetState_modifyState, if_neg hne, targetState_modifyState, if_neg hne]
      · refine ⟨fun hne => ?_, Or.inr ?_⟩
        · rw [targetState_removeTarget, if_neg hne, targetState_modifyState, if_neg hne,
            targetState_modifyState, if_neg hne]
        · rw [targetState_removeTarget, if_pos rfl]
          rfl

/-! ### Every message -/

theorem Moves.told (h : Moves p t f a a') :
    (¬ (a.targetState t).IsPending → ¬ (a'.targetState t).IsPending ∧
      a'.documents p t = f (a.documents p t)) ∧
    ((a.targetState t).IsPending → ¬ (a'.targetState t).IsPending →
      (a'.targetState t).documentChanges = ∅) :=
  ⟨fun hactive => ⟨mt h.pending.1 hactive, h.documents hactive⟩,
    fun hpending hactive => absurd (h.pending.2 hpending) hactive⟩

/-- **A message changes the documents of a query as it says**, if no request for it is unanswered;
when the last one is answered, nothing has been collected. -/
theorem handle_documents (h : a.Inv p) (hlistened : p.queryData t = some none)
    {change : WatchChange κ ι} (hfits : a.Fits p change) (hhandle : a.handle p change = some a') :
    (¬ (a.targetState t).IsPending → ¬ (a'.targetState t).IsPending ∧
      a'.documents p t = a.tells t change (a.documents p t)) ∧
    ((a.targetState t).IsPending → ¬ (a'.targetState t).IsPending →
      (a'.targetState t).documentChanges = ∅) := by
  cases change with
  | documentChange updatedTargetIds removedTargetIds key newDocument =>
      obtain rfl := Option.some.inj hhandle
      exact (handleDocumentChange_moves hlistened updatedTargetIds removedTargetIds key
        newDocument).told
  | existenceFilter targetId count => exact (handleExistenceFilter_moves h hlistened hhandle).told
  | targetChange state targetIds resumeToken cause =>
      by_cases hack : state = .added ∨ state = .removed
      -- A target that counts has nothing to be acknowledged, so that it is not among those named.
      · have hrun := (foldlM_eq_run _ _ _).symm.trans hhandle
        refine ⟨fun hactive => ?_, fun hpending hactive => ?_⟩
        · have hsame : a'.targetState t = a.targetState t := by
            refine invariant_run_of_meet (I := fun x : WatchChangeAggregator κ ι =>
              x.targetState t = a.targetState t) (fun x e x' hasked hx hstep => ?_) hfits.2 rfl hrun
            refine ((handleTargetChangeFor_ack hack hstep).1 ?_).trans hx
            rintro rfl
            have hpositive := hasked hack
            rw [hx, not_not.1 hactive] at hpositive
            exact absurd hpositive (lt_irrefl _)
          refine ⟨hsame ▸ hactive, ?_⟩
          rw [documents, hsame]
          refine (if_neg fun hand => ?_).symm
          rw [hand.1] at hack
          exact absurd hack (by simp)
        · refine (invariant_run_of_meet (I := fun x : WatchChangeAggregator κ ι =>
            (x.targetState t).IsPending ∨ (x.targetState t).documentChanges = ∅)
            (fun x e x' _ hx hstep => ?_) hfits.2 (Or.inl hpending) hrun).resolve_left hactive
          obtain ⟨hother, hown⟩ := handleTargetChangeFor_ack (t := t) hack hstep
          by_cases heq : t = e
          · exact heq ▸ hown
          · rw [hother heq]
            exact hx
      · refine (Moves.congr (Moves.foldlM (f := fun docs => if state = .reset then ∅ else docs)
          (fun docs => ?_) (fun a targetId a' hround => handleTargetChangeFor_moves hlistened hack
            hround) hhandle) fun docs => ?_).told
        · split <;> rfl
        · rw [tells]
          by_cases hmem : t ∈ a.getTargetIds targetIds
          · rw [if_pos hmem]
            exact if_congr (and_iff_left hmem).symm rfl rfl
          · rw [if_neg hmem]
            exact (if_neg fun hand => hmem hand.2).symm

/-! ### Events -/

/-- What `CreateRemoteEvent` does about a query: nothing, or what has been collected of it becomes
its change. -/
def Moved (a : WatchChangeAggregator κ ι) (t : TargetId ι)
    (x : WatchChangeAggregator κ ι × AList fun _ : TargetId ι => TargetChange κ) : Prop :=
  (x.1.targetState t = a.targetState t ∧ x.2.lookup t = none) ∨
    (x.1.targetState t = (a.targetState t).clearPendingChanges ∧
      ∃ change, (a.targetState t).toTargetChange = some change ∧ x.2.lookup t = some change)

theorem collectTargetChange_moved (hlistened : p.queryData t = some none)
    {x x' : WatchChangeAggregator κ ι × AList fun _ : TargetId ι => TargetChange κ}
    (hx : Collected p x) (h : Moved a t x) (snapshotVersion : SnapshotVersion)
    (hcollect : collectTargetChange p snapshotVersion x targetId = some x') : Moved a t x' := by
  unfold collectTargetChange at hcollect
  cases hquery : x.1.queryDataForActiveTarget p targetId with
  | none =>
      rw [hquery] at hcollect
      obtain rfl := Option.some.inj hcollect
      exact h
  | some document =>
      obtain ⟨-, -, hother, -⟩ := resolveMissing_spec hx.inv snapshotVersion hquery
      rw [hquery] at hcollect
      dsimp only at hcollect
      by_cases heq : t = targetId
      · subst heq
        obtain rfl : none = document := Option.some.inj (hlistened.symm.trans
          (queryDataForActiveTarget_eq_some.1 hquery).2)
        rw [resolveMissing] at hcollect
        split at hcollect
        · next hchanges =>
            obtain ⟨change, hchange, rfl⟩ := Option.map_eq_some_iff.1 hcollect
            obtain ⟨hstate, -⟩ | ⟨hstate, -⟩ := h
            · refine Or.inr ⟨?_, change, hstate ▸ hchange, AList.lookup_insert _⟩
              rw [targetState_modifyState, if_pos rfl, hstate]
            · rw [hstate] at hchanges
              exact absurd hchanges Bool.false_ne_true
        · obtain rfl := Option.some.inj hcollect
          exact h
      · have hsame : x'.1.targetState t = x.1.targetState t ∧ x'.2.lookup t = x.2.lookup t := by
          split at hcollect
          · obtain ⟨change, -, rfl⟩ := Option.map_eq_some_iff.1 hcollect
            refine ⟨?_, AList.lookup_insert_ne heq⟩
            rw [targetState_modifyState, if_neg heq, hother t heq]
          · obtain rfl := Option.some.inj hcollect
            exact ⟨hother t heq, rfl⟩
        rw [Moved, hsame.1, hsame.2]
        exact h

/-- **An event loses nothing**: what has been collected of a query is still there, or has become its
change. -/
theorem createRemoteEvent_moved (h : a.Inv p) (hlistened : p.queryData t = some none)
    {snapshotVersion : SnapshotVersion} {remoteEvent : RemoteEvent κ ι}
    {resets : List (TargetId ι)}
    (hcreate : a.createRemoteEvent p snapshotVersion = some (remoteEvent, resets, a')) :
    Moved a t (a', remoteEvent.targetChanges) := by
  obtain ⟨x, hrun, -, hmoved⟩ := foldlM_of_forall
    (I := fun x => Collected p x ∧ Moved a t x) (fun x targetId hx => by
      obtain ⟨x', hstep, hcollected⟩ := collectTargetChange_spec hx.1 snapshotVersion targetId
      exact ⟨x', hstep, hcollected, collectTargetChange_moved hlistened hx.1 hx.2 snapshotVersion
        hstep⟩) a.targetStates.keys ⟨collected_start h, Or.inl ⟨rfl, AList.lookup_empty t⟩⟩
  rw [createRemoteEvent, hrun, Option.map_some] at hcreate
  obtain ⟨rfl, hrest⟩ := Prod.mk.inj (Option.some.inj hcreate)
  obtain ⟨-, rfl⟩ := Prod.mk.inj hrest
  exact hmoved

/-- The documents of a query are the same before an event and after it. -/
theorem Moved.documents {keys : Finset κ}
    {x : WatchChangeAggregator κ ι × AList fun _ : TargetId ι => TargetChange κ}
    (h : Moved a t x) : (x.1.targetState t).documents
        (TargetChange.resultsAfter keys (x.2.lookup t)) =
      (a.targetState t).documents keys := by
  obtain ⟨hstate, hlookup⟩ | ⟨hstate, change, hchange, hlookup⟩ := h
  · rw [hstate, hlookup]
    rfl
  · rw [hstate, hlookup, TargetState.documents_of_empty rfl]
    unfold TargetState.toTargetChange at hchange
    split at hchange
    · obtain rfl := Option.some.inj hchange
      rfl
    · exact absurd hchange (by simp)

end WatchChangeAggregator

end FirestoreClient
