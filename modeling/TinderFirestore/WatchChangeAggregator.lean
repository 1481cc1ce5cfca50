/-
**What the backend sends about the targets.**

The backend tells the client message by message which documents come into a target and which leave
it, and from time to time that all it has said so far belongs together.  Until then the aggregator
collects for each target how it differs from what the client has of it.  Messages about a target are
not for the client's present listen while requests for the target are unanswered, and are left out.

Main definitions:

* `FirestoreClient.TargetState`, `FirestoreClient.WatchChangeAggregator` with `handle`,
  `createRemoteEvent` — what has been collected, and what is done with it;
* `FirestoreClient.TargetState.documents` — the documents of a target, as the backend has told.

Main results:

* `FirestoreClient.TargetState.Follows.toTargetChange` — **what is collected of a target takes the
  client from the documents it had to those the backend has told**;
* `FirestoreClient.TargetState.Follows.card_documents` — **an existence filter is compared with
  their number**.
-/

import TinderFirestore.RemoteStream
import TinderFirestore.SyncEngine

set_option relaxedAutoImplicit false
set_option autoImplicit false

namespace FirestoreClient

variable {κ ι : Type*}

/-! ### Messages -/

inductive WatchTargetChangeState
  | noChange
  | added
  | removed
  | current
  | reset
  deriving DecidableEq

/-- What the backend sends on the watch stream.  Of the resume token it matters here only whether
there is one. -/
inductive WatchChange (κ ι : Type*)
  | documentChange (updatedTargetIds removedTargetIds : List (TargetId ι)) (documentKey : κ)
      (newDocument : Option (MaybeDocument κ ObjectValue))
  | existenceFilter (targetId : TargetId ι) (count : ℤ)
  | targetChange (state : WatchTargetChangeState) (targetIds : List (TargetId ι))
      (resumeToken : Bool) (cause : Option ErrorCode)

/-! ### The state of a target -/

/-- What has been collected for a target. -/
structure TargetState (κ : Type*) where
  outstandingResponses : ℤ
  documentChanges : AList fun _ : κ => ChangeType
  current : Bool
  hasPendingChanges : Bool

namespace TargetState

/-- New targets are part of the next event. -/
def init : TargetState κ where
  outstandingResponses := 0
  documentChanges := ∅
  current := false
  hasPendingChanges := true

def IsPending (s : TargetState κ) : Prop := s.outstandingResponses ≠ 0

instance (s : TargetState κ) : Decidable s.IsPending :=
  inferInstanceAs (Decidable (s.outstandingResponses ≠ 0))

def updateResumeToken (s : TargetState κ) (resumeToken : Bool) : TargetState κ :=
  if resumeToken then { s with hasPendingChanges := true } else s

def clearPendingChanges (s : TargetState κ) : TargetState κ :=
  { s with
    hasPendingChanges := false
    documentChanges := ∅ }

def recordPendingTargetRequest (s : TargetState κ) : TargetState κ :=
  { s with outstandingResponses := s.outstandingResponses + 1 }

def recordTargetResponse (s : TargetState κ) : TargetState κ :=
  { s with outstandingResponses := s.outstandingResponses - 1 }

def markCurrent (s : TargetState κ) : TargetState κ :=
  { s with
    hasPendingChanges := true
    current := true }

section Changes

variable [DecidableEq κ]

def addDocumentChange (s : TargetState κ) (documentKey : κ) (type : ChangeType) : TargetState κ :=
  { s with
    hasPendingChanges := true
    documentChanges := s.documentChanges.insert documentKey type }

def removeDocumentChange (s : TargetState κ) (documentKey : κ) : TargetState κ :=
  { s with
    hasPendingChanges := true
    documentChanges := s.documentChanges.erase documentKey }

/-- The documents with a change of the type. -/
def changed (s : TargetState κ) (type : ChangeType) : Finset κ :=
  ((s.documentChanges.entries.filter fun entry => entry.2 = type).map Sigma.fst).toFinset

/-- `ToTargetChange`: none if there is an invalid type of change. -/
def toTargetChange (s : TargetState κ) : Option (TargetChange κ) :=
  if ∀ entry ∈ s.documentChanges.entries, entry.2 ≠ .metadata then
    some
      { current := s.current
        addedDocuments := s.changed .added
        modifiedDocuments := s.changed .modified
        removedDocuments := s.changed .removed }
  else none

end Changes

end TargetState

/-! ### The aggregator -/

/-- `TargetMetadataProvider`: what the client has of each target as of the last event, and for the
targets that it listens to, the document that each asks for, if it asks for one alone. -/
structure TargetMetadata (κ ι : Type*) where
  remoteKeys : TargetId ι → Finset κ
  queryData : TargetId ι → Option (Option κ)

/-- What has been collected since the last event. -/
structure WatchChangeAggregator (κ ι : Type*) where
  targetStates : AList fun _ : TargetId ι => TargetState κ
  pendingDocumentUpdates : MaybeDocumentMap κ ObjectValue
  pendingTargetResets : List (TargetId ι)

namespace WatchChangeAggregator

/-- A new aggregator. -/
def init : WatchChangeAggregator κ ι where
  targetStates := ∅
  pendingDocumentUpdates := ∅
  pendingTargetResets := []

variable [LinearOrder κ] [DecidableEq ι]

/-- The state of a target; that of a target without one is as `EnsureTargetState` makes it. -/
def targetState (a : WatchChangeAggregator κ ι) (targetId : TargetId ι) : TargetState κ :=
  (a.targetStates.lookup targetId).getD .init

/-- Something is done with the state that `EnsureTargetState` finds or makes. -/
def modifyState (a : WatchChangeAggregator κ ι) (targetId : TargetId ι)
    (f : TargetState κ → TargetState κ) : WatchChangeAggregator κ ι :=
  { a with targetStates := a.targetStates.insert targetId (f (a.targetState targetId)) }

def recordPendingTargetRequest (a : WatchChangeAggregator κ ι) (targetId : TargetId ι) :
    WatchChangeAggregator κ ι :=
  a.modifyState targetId TargetState.recordPendingTargetRequest

def removeTarget (a : WatchChangeAggregator κ ι) (targetId : TargetId ι) :
    WatchChangeAggregator κ ι :=
  { a with targetStates := a.targetStates.erase targetId }

section Metadata

variable (p : TargetMetadata κ ι)

def queryDataForActiveTarget (a : WatchChangeAggregator κ ι) (targetId : TargetId ι) :
    Option (Option κ) :=
  if (a.targetState targetId).IsPending then none else p.queryData targetId

/-- `IsActiveTarget`. -/
def isActiveTarget (a : WatchChangeAggregator κ ι) (targetId : TargetId ι) : Bool :=
  (a.queryDataForActiveTarget p targetId).isSome

def addDocumentToTarget (a : WatchChangeAggregator κ ι) (targetId : TargetId ι)
    (document : Document κ ObjectValue) : WatchChangeAggregator κ ι :=
  if a.isActiveTarget p targetId then
    let changeType := if document.key ∈ p.remoteKeys targetId then .modified else .added
    let a := a.modifyState targetId fun s => s.addDocumentChange document.key changeType
    { a with
      pendingDocumentUpdates := a.pendingDocumentUpdates.insert document.key (.document document) }
  else a

/-- A document that has come into the target since the last event may leave it without a trace. -/
def removeDocumentFromTarget (a : WatchChangeAggregator κ ι) (targetId : TargetId ι) (key : κ)
    (updatedDocument : Option (MaybeDocument κ ObjectValue)) : WatchChangeAggregator κ ι :=
  if a.isActiveTarget p targetId then
    let a := a.modifyState targetId fun s =>
      if key ∈ p.remoteKeys targetId then s.addDocumentChange key .removed
      else s.removeDocumentChange key
    match updatedDocument with
    | none => a
    | some doc => { a with pendingDocumentUpdates := a.pendingDocumentUpdates.insert key doc }
  else a

/-- `ResetTarget`: all documents that the client has leave the target. -/
def resetTarget (a : WatchChangeAggregator κ ι) (targetId : TargetId ι) :
    Option (WatchChangeAggregator κ ι) :=
  if targetId ∈ a.targetStates ∧ ¬ (a.targetState targetId).IsPending then
    some ((sortedKeys (p.remoteKeys targetId)).foldl
      (fun a key => a.removeDocumentFromTarget p targetId key none)
      { a with targetStates := a.targetStates.insert targetId .init })
  else none

/-- The body of the first loop of `HandleDocumentChange`. -/
def handleUpdatedTarget (key : κ) (newDocument : Option (MaybeDocument κ ObjectValue))
    (a : WatchChangeAggregator κ ι) (targetId : TargetId ι) : WatchChangeAggregator κ ι :=
  match newDocument with
  | some (.document document) => a.addDocumentToTarget p targetId document
  | some (.noDocument _ _ _) => a.removeDocumentFromTarget p targetId key newDocument
  | _ => a

def handleDocumentChange (a : WatchChangeAggregator κ ι)
    (updatedTargetIds removedTargetIds : List (TargetId ι)) (key : κ)
    (newDocument : Option (MaybeDocument κ ObjectValue)) : WatchChangeAggregator κ ι :=
  removedTargetIds.foldl (fun a targetId => a.removeDocumentFromTarget p targetId key newDocument)
    (updatedTargetIds.foldl (handleUpdatedTarget p key newDocument) a)

/-- `GetTargetIds`: no target ids stand for all targets. -/
def getTargetIds (a : WatchChangeAggregator κ ι) (targetIds : List (TargetId ι)) :
    List (TargetId ι) :=
  if targetIds.isEmpty then a.targetStates.keys else targetIds

/-- The body of the loop of `HandleTargetChange`. -/
def handleTargetChangeFor (state : WatchTargetChangeState) (resumeToken : Bool)
    (cause : Option ErrorCode) (a : WatchChangeAggregator κ ι) (targetId : TargetId ι) :
    Option (WatchChangeAggregator κ ι) :=
  let a := a.modifyState targetId id
  match state with
  | .noChange =>
      if a.isActiveTarget p targetId then
        some (a.modifyState targetId fun s => s.updateResumeToken resumeToken)
      else some a
  | .added =>
      some (a.modifyState targetId fun s =>
        let s := s.recordTargetResponse
        (if s.IsPending then s else s.clearPendingChanges).updateResumeToken resumeToken)
  | .removed =>
      let a := a.modifyState targetId TargetState.recordTargetResponse
      let a := if (a.targetState targetId).IsPending then a else a.removeTarget targetId
      if cause.isSome then none else some a
  | .current =>
      if a.isActiveTarget p targetId then
        some (a.modifyState targetId fun s => s.markCurrent.updateResumeToken resumeToken)
      else some a
  | .reset =>
      if a.isActiveTarget p targetId then
        (a.resetTarget p targetId).map fun a =>
          a.modifyState targetId fun s => s.updateResumeToken resumeToken
      else some a

def handleTargetChange (a : WatchChangeAggregator κ ι) (state : WatchTargetChangeState)
    (targetIds : List (TargetId ι)) (resumeToken : Bool) (cause : Option ErrorCode) :
    Option (WatchChangeAggregator κ ι) :=
  (a.getTargetIds targetIds).foldlM (handleTargetChangeFor p state resumeToken cause) a

def getCurrentDocumentCountForTarget (a : WatchChangeAggregator κ ι) (targetId : TargetId ι) :
    Option ℤ :=
  (a.targetState targetId).toTargetChange.map fun targetChange =>
    ((p.remoteKeys targetId).card : ℤ) + targetChange.addedDocuments.card -
      targetChange.removedDocuments.card

/-- `HandleExistenceFilter`: a target with another number of documents than the backend has is
reset. -/
def handleExistenceFilter (a : WatchChangeAggregator κ ι) (targetId : TargetId ι)
    (expectedCount : ℤ) : Option (WatchChangeAggregator κ ι) :=
  match a.queryDataForActiveTarget p targetId with
  | none => some a
  | some (some key) =>
      if expectedCount = 0 then
        some (a.removeDocumentFromTarget p targetId key (some (.noDocument key .none false)))
      else if expectedCount = 1 then some a
      else none
  | some none =>
      let a := a.modifyState targetId id
      (a.getCurrentDocumentCountForTarget p targetId).bind fun currentSize =>
        if currentSize = expectedCount then some a
        else
          (a.resetTarget p targetId).map fun a =>
            { a with pendingTargetResets := a.pendingTargetResets.insert targetId }

/-- What `OnWatchStreamChange` does with a message, unless the backend refuses targets. -/
def handle (a : WatchChangeAggregator κ ι) : WatchChange κ ι → Option (WatchChangeAggregator κ ι)
  | .documentChange updatedTargetIds removedTargetIds key newDocument =>
      some (a.handleDocumentChange p updatedTargetIds removedTargetIds key newDocument)
  | .existenceFilter targetId count => a.handleExistenceFilter p targetId count
  | .targetChange state targetIds resumeToken cause =>
      a.handleTargetChange p state targetIds resumeToken cause

/-- A lookup whose target is current, but for which no document has come, finds that there is
none. -/
def resolveMissing (snapshotVersion : SnapshotVersion) (a : WatchChangeAggregator κ ι)
    (targetId : TargetId ι) (document : Option κ) : WatchChangeAggregator κ ι :=
  match document with
  | none => a
  | some key =>
      if (a.targetState targetId).current = true ∧ key ∉ a.pendingDocumentUpdates ∧
          key ∉ p.remoteKeys targetId then
        a.removeDocumentFromTarget p targetId key (some (.noDocument key snapshotVersion false))
      else a

/-- The body of the loop of `CreateRemoteEvent` over the targets. -/
def collectTargetChange (snapshotVersion : SnapshotVersion)
    (x : WatchChangeAggregator κ ι × AList fun _ : TargetId ι => TargetChange κ)
    (targetId : TargetId ι) :
    Option (WatchChangeAggregator κ ι × AList fun _ : TargetId ι => TargetChange κ) :=
  match x.1.queryDataForActiveTarget p targetId with
  | none => some x
  | some document =>
      let a := x.1.resolveMissing p snapshotVersion targetId document
      if (a.targetState targetId).hasPendingChanges then
        (a.targetState targetId).toTargetChange.map fun targetChange =>
          (a.modifyState targetId TargetState.clearPendingChanges,
            x.2.insert targetId targetChange)
      else some (a, x.2)

/-- `CreateRemoteEvent`: the event, and the targets that have to be listened to anew. -/
def createRemoteEvent (a : WatchChangeAggregator κ ι) (snapshotVersion : SnapshotVersion) :
    Option (RemoteEvent κ ι × List (TargetId ι) × WatchChangeAggregator κ ι) :=
  (a.targetStates.keys.foldlM (collectTargetChange p snapshotVersion) (a, ∅)).map
    fun (a, targetChanges) =>
      ({ snapshotVersion := snapshotVersion
         targetChanges := targetChanges
         documentUpdates := a.pendingDocumentUpdates }, a.pendingTargetResets,
        { a with
          pendingDocumentUpdates := ∅
          pendingTargetResets := [] })

end Metadata

/-! ### What is collected fits what the client has -/

end WatchChangeAggregator

section Follows

variable [DecidableEq κ]

/-- **What has been collected fits what the client has**: only documents that it does not have come
in, only those that it has are modified or leave, and for a lookup this is its own document. -/
def TargetState.Follows (keys : Finset κ) (document : Option κ) (s : TargetState κ) : Prop :=
  ∀ k type, s.documentChanges.lookup k = some type →
    ((type = .added ∧ k ∉ keys) ∨ ((type = .modified ∨ type = .removed) ∧ k ∈ keys)) ∧
      ∀ key ∈ document, k = key

namespace TargetState

variable {s : TargetState κ} {keys : Finset κ} {document : Option κ} {k key : κ}

omit [DecidableEq κ] in
@[simp] theorem updateResumeToken_documentChanges (s : TargetState κ) (resumeToken : Bool) :
    (s.updateResumeToken resumeToken).documentChanges = s.documentChanges := by
  cases resumeToken <;> rfl

omit [DecidableEq κ] in
@[simp] theorem updateResumeToken_outstandingResponses (s : TargetState κ) (resumeToken : Bool) :
    (s.updateResumeToken resumeToken).outstandingResponses = s.outstandingResponses := by
  cases resumeToken <;> rfl

theorem mem_changed {type : ChangeType} :
    k ∈ s.changed type ↔ s.documentChanges.lookup k = some type := by
  rw [changed, List.mem_toFinset, List.mem_map, ← Option.mem_def, AList.mem_lookup_iff]
  constructor
  · rintro ⟨⟨k', type'⟩, hentry, rfl⟩
    obtain ⟨hmem, htype⟩ := List.mem_filter.1 hentry
    obtain rfl : type' = type := of_decide_eq_true htype
    exact hmem
  · intro h
    exact ⟨⟨k, type⟩, List.mem_filter.2 ⟨h, decide_eq_true rfl⟩, rfl⟩

theorem follows_of_empty (h : s.documentChanges = ∅) : s.Follows keys document := by
  intro k type hk
  rw [h, AList.lookup_empty] at hk
  exact absurd hk (by simp)

theorem Follows.congr {s' : TargetState κ} (h : s.Follows keys document)
    (hsame : s'.documentChanges = s.documentChanges) : s'.Follows keys document := by
  intro k type hk
  rw [hsame] at hk
  exact h k type hk

theorem Follows.addDocumentChange (h : s.Follows keys document) {type : ChangeType}
    (htype : (type = .added ∧ key ∉ keys) ∨ ((type = .modified ∨ type = .removed) ∧ key ∈ keys))
    (hkey : ∀ key' ∈ document, key = key') :
    (s.addDocumentChange key type).Follows keys document := by
  intro k type' hk
  rw [TargetState.addDocumentChange] at hk
  by_cases hne : k = key
  · subst hne
    rw [AList.lookup_insert, Option.some_inj] at hk
    exact hk ▸ ⟨htype, hkey⟩
  · rw [AList.lookup_insert_ne hne] at hk
    exact h k type' hk

theorem Follows.removeDocumentChange (h : s.Follows keys document) (key : κ) :
    (s.removeDocumentChange key).Follows keys document := by
  intro k type hk
  rw [TargetState.removeDocumentChange] at hk
  by_cases hne : k = key
  · subst hne
    rw [AList.lookup_erase] at hk
    exact absurd hk (by simp)
  · rw [AList.lookup_erase_ne hne] at hk
    exact h k type hk

/-- A change of the target can be made of what fits. -/
theorem Follows.toTargetChange (h : s.Follows keys document) :
    s.toTargetChange = some
      { current := s.current
        addedDocuments := s.changed .added
        modifiedDocuments := s.changed .modified
        removedDocuments := s.changed .removed } := by
  refine if_pos fun entry hentry hmetadata => ?_
  have hlookup : s.documentChanges.lookup entry.1 = some entry.2 := AList.mem_lookup_iff.2 hentry
  rw [hmetadata] at hlookup
  obtain ⟨⟨htype, -⟩ | ⟨htype | htype, -⟩, -⟩ := h entry.1 _ hlookup <;>
    exact absurd htype (by simp)

/-- The documents of the target, when the client has the `keys`. -/
def documents (keys : Finset κ) (s : TargetState κ) : Finset κ :=
  (keys ∪ s.changed .added) \ s.changed .removed

theorem mem_documents : k ∈ s.documents keys ↔
    (k ∈ keys ∨ s.documentChanges.lookup k = some .added) ∧
      s.documentChanges.lookup k ≠ some .removed := by
  rw [documents, Finset.mem_sdiff, Finset.mem_union, mem_changed, mem_changed]

theorem documents_of_empty (h : s.documentChanges = ∅) : s.documents keys = keys := by
  ext k
  rw [mem_documents, h, AList.lookup_empty]
  simp

theorem documents_congr {s' : TargetState κ} (h : s'.documentChanges = s.documentChanges) :
    s'.documents keys = s.documents keys := by
  ext k
  rw [mem_documents, mem_documents, h]

/-- A document comes in, or is modified. -/
theorem documents_addDocumentChange {type : ChangeType}
    (htype : (type = .added ∧ key ∉ keys) ∨ (type = .modified ∧ key ∈ keys)) :
    (s.addDocumentChange key type).documents keys = insert key (s.documents keys) := by
  ext k
  rw [mem_documents, Finset.mem_insert, mem_documents, addDocumentChange]
  by_cases hk : k = key
  · subst hk
    rw [AList.lookup_insert]
    rcases htype with ⟨rfl, -⟩ | ⟨rfl, hmem⟩
    · simp
    · simp [hmem]
  · rw [AList.lookup_insert_ne hk]
    exact (or_iff_right hk).symm

/-- A document leaves. -/
theorem documents_remove :
    (if key ∈ keys then s.addDocumentChange key .removed
      else s.removeDocumentChange key).documents keys = (s.documents keys).erase key := by
  ext k
  rw [Finset.mem_erase, mem_documents, mem_documents]
  split
  · rw [addDocumentChange]
    by_cases hk : k = key
    · subst hk
      rw [AList.lookup_insert]
      simp
    · rw [AList.lookup_insert_ne hk]
      exact (and_iff_right hk).symm
  · next hkey =>
      rw [removeDocumentChange]
      by_cases hk : k = key
      · subst hk
        rw [AList.lookup_erase]
        simp [hkey]
      · rw [AList.lookup_erase_ne hk]
        exact (and_iff_right hk).symm

/-- **The sizes of the changes count the documents of the target.** -/
theorem Follows.card_documents (h : s.Follows keys document) :
    ((s.documents keys).card : ℤ) =
      keys.card + (s.changed .added).card - (s.changed .removed).card := by
  have hadded : Disjoint keys (s.changed .added) := by
    refine Finset.disjoint_left.2 fun k hk hadded => ?_
    obtain ⟨⟨-, hno⟩ | ⟨htype | htype, -⟩, -⟩ := h k _ (mem_changed.1 hadded)
    · exact hno hk
    · exact absurd htype (by simp)
    · exact absurd htype (by simp)
  have hremoved : s.changed .removed ⊆ keys ∪ s.changed .added := by
    intro k hk
    obtain ⟨⟨htype, -⟩ | ⟨-, hmem⟩, -⟩ := h k _ (mem_changed.1 hk)
    · exact absurd htype (by simp)
    · exact Finset.mem_union_left _ hmem
  have hsum := Finset.card_sdiff_add_card_eq_card hremoved
  rw [Finset.card_union_of_disjoint hadded] at hsum
  rw [documents]
  omega

end TargetState

end Follows

end FirestoreClient
