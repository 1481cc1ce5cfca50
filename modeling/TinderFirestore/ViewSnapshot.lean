/-
**Snapshots of a view.**

When a view has worked out its new documents, it takes them over, together with what the backend
says about the query: which documents it counts among the results, and whether it has sent
everything.  Documents that the backend should count but does not are *in limbo*, and are looked up
one by one.  A view without any, of which the backend has sent everything, is synced.  Listeners get
a snapshot of the view if its documents have changed or if it has become synced or ceased to be.

Main definitions:

* `FirestoreClient.View.applyChanges`, `applyOnlineStateChange` — the steps of a view;
* `FirestoreClient.View.update` — what the changed documents of the cache make of a view;
* `FirestoreClient.ViewInv` — what holds of a view and the cache.

Main results:

* `FirestoreClient.View.update_spec` — **whatever changes in the cache, the update goes through, the
  view holds the first matching documents again, and the snapshot explains what has changed**.
-/

import TinderFirestore.ViewDocuments

set_option relaxedAutoImplicit false
set_option autoImplicit false

namespace FirestoreClient

open Ranked

variable {κ δ : Type*} [Setoid δ]

/-! ### Snapshots -/

inductive OnlineState
  | unknown
  | online
  | offline
  deriving DecidableEq

/-- What the backend says about the results of a query. -/
structure TargetChange (κ : Type*) where
  current : Bool
  addedDocuments : Finset κ
  modifiedDocuments : Finset κ
  removedDocuments : Finset κ

inductive LimboDocumentChange (κ : Type*)
  | added (key : κ)
  | removed (key : κ)
  deriving DecidableEq

/-- What listeners get. -/
structure ViewSnapshot (q : Query κ δ) where
  documents : DocumentSet q
  oldDocuments : DocumentSet q
  documentChanges : List (DocumentViewChange κ δ)
  mutatedKeys : Finset κ
  fromCache : Bool
  syncStateChanged : Bool
  excludesMetadataChanges : Bool

/-- The result of a step of a view. -/
structure ViewChange (q : Query κ δ) where
  snapshot : Option (ViewSnapshot q)
  limboChanges : List (LimboDocumentChange κ)

/-- `GetDocumentViewChangeTypePosition`: metadata changes count as modifications. -/
def ChangeType.position : ChangeType → ℕ
  | removed => 0
  | added => 1
  | modified => 2
  | metadata => 2

/-- The order of the changes of a snapshot. -/
def changeLe (q : Query κ δ) (c c' : DocumentViewChange κ δ) : Prop :=
  c.type.position < c'.type.position ∨ (c.type.position = c'.type.position ∧
    q.le (c.document.key, c.document.data) (c'.document.key, c'.document.data) = true)

instance (q : Query κ δ) : DecidableRel (changeLe q) :=
  fun _ _ => inferInstanceAs (Decidable (_ ∨ _))

instance (q : Query κ δ) : Std.Total (changeLe q) where
  total c c' := by
    rcases Nat.lt_trichotomy c.type.position c'.type.position with hlt | heq | hgt
    · exact Or.inl (Or.inl hlt)
    · rcases q.le_total (c.document.key, c.document.data) (c'.document.key, c'.document.data) with
        hle | hle
      · exact Or.inl (Or.inr ⟨heq, hle⟩)
      · exact Or.inr (Or.inr ⟨heq.symm, hle⟩)
    · exact Or.inr (Or.inl hgt)

instance (q : Query κ δ) : IsTrans (DocumentViewChange κ δ) (changeLe q) where
  trans c₁ c₂ c₃ := by
    rintro (h₁₂ | ⟨heq₁₂, hle₁₂⟩) (h₂₃ | ⟨heq₂₃, hle₂₃⟩)
    · exact Or.inl (h₁₂.trans h₂₃)
    · exact Or.inl (heq₂₃ ▸ h₁₂)
    · exact Or.inl (heq₁₂ ▸ h₂₃)
    · exact Or.inr ⟨heq₁₂.trans heq₂₃, q.le_trans _ _ _ hle₁₂ hle₂₃⟩

/-- The changes turn one set of limbo documents into the other. -/
structure LimboDiff (old new : List κ) (changes : List (LimboDocumentChange κ)) : Prop where
  added : ∀ key, LimboDocumentChange.added key ∈ changes ↔ key ∈ new ∧ key ∉ old
  removed : ∀ key, LimboDocumentChange.removed key ∈ changes ↔ key ∈ old ∧ key ∉ new

theorem limboDiff_refl (old : List κ) : LimboDiff old old [] := by
  constructor <;> intro key <;> simp

section Apply

variable [LinearOrder κ] {q : Query κ δ}

/-! ### Limbo documents -/

/-- `ShouldBeInLimbo`: local changes might explain why the backend does not count the document. -/
def View.shouldBeInLimbo (view : View q) (key : κ) : Bool :=
  if key ∈ view.syncedDocuments then false
  else
    match view.documentSet.lookup key with
    | none => false
    | some d => !d.hasLocalMutations

/-- `ApplyTargetChange`: what has been modified has to be among the results. -/
def View.applyTargetChange (view : View q) : Option (TargetChange κ) → Option (View q)
  | none => some view
  | some targetChange =>
      let synced := view.syncedDocuments ∪ targetChange.addedDocuments
      if targetChange.modifiedDocuments ⊆ synced then
        some { view with
          syncedDocuments := synced \ targetChange.removedDocuments
          current := targetChange.current }
      else none

/-- The documents of the view that should be in limbo. -/
def View.newLimboDocuments (view : View q) : List κ :=
  ((view.documentSet.items.map Document.key).filter view.shouldBeInLimbo).insertionSort (· ≤ ·)

/-- `UpdateLimboDocuments`: only when the backend has sent everything. -/
def View.updateLimboDocuments (view : View q) : View q × List (LimboDocumentChange κ) :=
  if view.current then
    let oldLimboDocuments := view.limboDocuments
    let newLimboDocuments := view.newLimboDocuments
    ({ view with limboDocuments := newLimboDocuments },
      (oldLimboDocuments.filter fun key => key ∉ newLimboDocuments).map .removed ++
        (newLimboDocuments.filter fun key => key ∉ oldLimboDocuments).map .added)
  else (view, [])

/-! ### The steps of a view -/

/-- A view without limbo documents, of which the backend has sent everything, is synced. -/
def View.newSyncState (view : View q) : SyncState :=
  if view.limboDocuments.isEmpty && view.current then .synced else .local

/-- `ApplyChanges`. -/
def View.applyChanges (view : View q) (docChanges : ViewDocumentChanges q)
    (targetChange : Option (TargetChange κ)) : Option (View q × ViewChange q) :=
  if docChanges.needsRefill then none
  else
    let changes := docChanges.changeSet.getChanges.insertionSort (changeLe q)
    (View.applyTargetChange { view with
        documentSet := docChanges.documentSet
        mutatedKeys := docChanges.mutatedKeys } targetChange).map fun view' =>
      let updated := view'.updateLimboDocuments
      let syncStateChanged := decide (updated.1.newSyncState ≠ view.syncState)
      ({ updated.1 with syncState := updated.1.newSyncState },
        { snapshot :=
            if changes.isEmpty && !syncStateChanged then none
            else some
              { documents := docChanges.documentSet
                oldDocuments := view.documentSet
                documentChanges := changes
                mutatedKeys := docChanges.mutatedKeys
                fromCache := decide (updated.1.newSyncState = .local)
                syncStateChanged := syncStateChanged
                excludesMetadataChanges := false }
          limboChanges := updated.2 })

/-- `ApplyOnlineStateChange`. -/
def View.applyOnlineStateChange (view : View q) (onlineState : OnlineState) :
    Option (View q × ViewChange q) :=
  if view.current && decide (onlineState = .offline) then
    View.applyChanges { view with current := false }
      { documentSet := view.documentSet
        changeSet := ∅
        mutatedKeys := view.mutatedKeys
        needsRefill := false } none
  else some (view, { snapshot := none, limboChanges := [] })

/-! ### What a step of a view tells -/

/-- What listeners are told of a step of a view: nothing when neither its documents nor its sync
state have changed; else its documents before and after, and for each document the change that
explains what has become of it. -/
inductive SnapshotOf (old new : View q) : Option (ViewSnapshot q) → Prop
  | nothing : (∀ k, new.documentSet.lookup k = old.documentSet.lookup k) →
      new.syncState = old.syncState → SnapshotOf old new none
  | snapshot (s : ViewSnapshot q) : s.documents = new.documentSet →
      s.oldDocuments = old.documentSet → s.mutatedKeys = new.mutatedKeys →
      (s.fromCache = false ↔ new.syncState = .synced) →
      (s.syncStateChanged = true ↔ new.syncState ≠ old.syncState) →
      (s.documentChanges ≠ [] ∨ s.syncStateChanged = true) →
      (s.documentChanges.map fun c => c.document.key).Nodup →
      (∀ k, Explains (old.documentSet.lookup k) (new.documentSet.lookup k)
        (s.documentChanges.find? fun c => c.document.key = k)) →
      s.documentChanges.Pairwise (changeLe q) →
      SnapshotOf old new (some s)

/-- The limbo documents and the sync state are right. -/
structure View.Settled (view : View q) : Prop where
  limbo : view.current = true → view.limboDocuments = view.newLimboDocuments
  sync : view.syncState = view.newSyncState

/-- What is told depends only on the documents and the sync state of the view before the step. -/
theorem SnapshotOf.of_eq {old old' new : View q} {snapshot : Option (ViewSnapshot q)}
    (h : SnapshotOf old new snapshot) (hset : old.documentSet = old'.documentSet)
    (hsync : old.syncState = old'.syncState) : SnapshotOf old' new snapshot := by
  cases h with
  | nothing hdocs hstate => exact .nothing (hset ▸ hdocs) (hsync ▸ hstate)
  | snapshot s hdocs hold hmutated hcache hchanged hloud hnodup hexplains hsorted =>
      exact .snapshot s hdocs (hset ▸ hold) hmutated hcache (hsync ▸ hchanged) hloud hnodup
        (hset ▸ hexplains) hsorted

/-- What the backend says to have modified is among the results. -/
def View.TargetFits (view : View q) (targetChange : Option (TargetChange κ)) : Prop :=
  ∀ c, targetChange = some c → c.modifiedDocuments ⊆ view.syncedDocuments ∪ c.addedDocuments

omit [Setoid δ] in
/-- A change that explains nothing that has happened is not there. -/
theorem find?_getChanges {changeSet : DocumentViewChangeSet κ δ}
    (hkeyed : ∀ k c, changeSet.lookup k = some c → c.document.key = k)
    {changes : List (DocumentViewChange κ δ)} (hperm : changes.Perm changeSet.getChanges) :
    (changes.map fun c => c.document.key).Nodup ∧
      ∀ k, (changes.find? fun c => c.document.key = k) = changeSet.lookup k := by
  have hkeys : changeSet.getChanges.map (fun c => c.document.key) = changeSet.keys := by
    rw [DocumentViewChangeSet.getChanges, List.map_map, AList.keys, List.keys]
    refine List.map_congr_left fun e he => ?_
    exact hkeyed e.1 e.2 (AList.mem_lookup_iff.2 he)
  have hnodup : (changes.map fun c => c.document.key).Nodup := by
    rw [(hperm.map _).nodup_iff, hkeys]
    exact changeSet.keys_nodup
  refine ⟨hnodup, fun k => Option.ext fun c => ?_⟩
  rw [find?_key_eq_some_iff hnodup, hperm.mem_iff, DocumentViewChangeSet.getChanges, List.mem_map]
  constructor
  · rintro ⟨⟨⟨k', c'⟩, he, rfl⟩, rfl⟩
    have hlookup := AList.mem_lookup_iff.2 he
    rwa [hkeyed k' c' hlookup]
  · intro hlookup
    exact ⟨⟨⟨k, c⟩, AList.mem_lookup_iff.1 hlookup, rfl⟩, hkeyed k c hlookup⟩

/-- The step from the old to the new limbo documents. -/
theorem limboDiff_filter (old new : List κ) :
    LimboDiff old new ((old.filter fun key => key ∉ new).map .removed ++
      (new.filter fun key => key ∉ old).map .added) := by
  constructor <;> intro key <;> simp

/-- Updating the limbo documents changes nothing else. -/
theorem View.updateLimboDocuments_eq (view : View q) :
    view.updateLimboDocuments.1 =
      { view with limboDocuments := view.updateLimboDocuments.1.limboDocuments } := by
  unfold View.updateLimboDocuments
  split <;> rfl

/-- Afterwards they are right, if the backend has sent everything. -/
theorem View.updateLimboDocuments_limbo {view : View q}
    (h : view.updateLimboDocuments.1.current = true) :
    view.updateLimboDocuments.1.limboDocuments = view.updateLimboDocuments.1.newLimboDocuments := by
  have hcurrent : view.current = true := by
    rw [view.updateLimboDocuments_eq] at h
    exact h
  rw [View.updateLimboDocuments, if_pos hcurrent]
  rfl

theorem View.updateLimboDocuments_diff (view : View q) :
    LimboDiff view.limboDocuments view.updateLimboDocuments.1.limboDocuments
      view.updateLimboDocuments.2 := by
  unfold View.updateLimboDocuments
  split
  · exact limboDiff_filter _ _
  · exact limboDiff_refl _

/-- A fitting target change can be applied, and concerns what the backend says alone. -/
theorem View.applyTargetChange_spec (view : View q) {targetChange : Option (TargetChange κ)}
    (hfits : view.TargetFits targetChange) :
    ∃ syncedDocuments current, view.applyTargetChange targetChange =
      some { view with syncedDocuments := syncedDocuments, current := current } := by
  cases targetChange with
  | none => exact ⟨_, _, rfl⟩
  | some c => exact ⟨_, _, if_pos (hfits c rfl)⟩

/-- **A step of a view goes through**: afterwards its limbo documents and its sync state are right,
and listeners are told what has changed. -/
theorem View.applyChanges_spec (view : View q) (docChanges : ViewDocumentChanges q)
    (targetChange : Option (TargetChange κ)) (hrefill : docChanges.needsRefill = false)
    (hfits : view.TargetFits targetChange)
    (hinv : ChangesInv view.documentSet.lookup docChanges) :
    ∃ view' change, view.applyChanges docChanges targetChange = some (view', change) ∧
      view'.documentSet = docChanges.documentSet ∧ view'.mutatedKeys = docChanges.mutatedKeys ∧
      view'.Settled ∧ SnapshotOf view view' change.snapshot ∧
      LimboDiff view.limboDocuments view'.limboDocuments change.limboChanges := by
  obtain ⟨syncedDocuments, current, htarget⟩ := View.applyTargetChange_spec
    { view with
      documentSet := docChanges.documentSet
      mutatedKeys := docChanges.mutatedKeys } hfits
  rw [View.applyChanges, hrefill, if_neg Bool.false_ne_true, htarget]
  refine ⟨_, _, rfl, ?_⟩
  generalize hview : ({ view with
    documentSet := docChanges.documentSet
    mutatedKeys := docChanges.mutatedKeys
    syncedDocuments := syncedDocuments
    current := current } : View q) = view₁
  have hset : view₁.updateLimboDocuments.1.documentSet = docChanges.documentSet := by
    rw [view₁.updateLimboDocuments_eq, ← hview]
  have hmutated : view₁.updateLimboDocuments.1.mutatedKeys = docChanges.mutatedKeys := by
    rw [view₁.updateLimboDocuments_eq, ← hview]
  have hlimbo : view.limboDocuments = view₁.limboDocuments := by rw [← hview]
  obtain ⟨hnodup, hfind⟩ := find?_getChanges hinv.explained.keyed
    (List.perm_insertionSort (changeLe q) docChanges.changeSet.getChanges)
  have hexplains (k : κ) : Explains (view.documentSet.lookup k) (docChanges.documentSet.lookup k)
      ((docChanges.changeSet.getChanges.insertionSort (changeLe q)).find?
        fun c => c.document.key = k) := by
    rw [hfind]
    exact hinv.explained.explains k
  refine ⟨hset, hmutated, ⟨fun hcurrent => view₁.updateLimboDocuments_limbo hcurrent, rfl⟩, ?_, ?_⟩
  · simp only
    split
    · next hquiet =>
        rw [Bool.and_eq_true, List.isEmpty_iff, Bool.not_eq_true', decide_eq_false_iff_not,
          not_ne_iff] at hquiet
        refine .nothing (fun k => ?_) hquiet.2
        have hsame := hexplains k
        rw [hquiet.1] at hsame
        exact (congrArg (RankedSet.lookup · k) hset).trans hsame.eq_of_none
    · next hloud =>
        refine .snapshot _ hset.symm rfl hmutated.symm ?_ decide_eq_true_iff ?_ hnodup
          (fun k => ?_) (List.pairwise_insertionSort _ _)
        · simp only [View.newSyncState]
          split <;> simp
        · by_contra hno
          push Not at hno
          refine hloud ?_
          rw [Bool.and_eq_true, List.isEmpty_iff, Bool.not_eq_true']
          exact ⟨hno.1, Bool.eq_false_iff.2 hno.2⟩
        · have hlookup := congrArg (RankedSet.lookup · k) hset
          exact (show _ = _ from hlookup) ▸ hexplains k
  · rw [hlimbo]
    exact view₁.updateLimboDocuments_diff

/-- While the backend has not sent everything, a step without news of it leaves the limbo documents
alone. -/
theorem View.applyChanges_limbo {view view' : View q} {docChanges : ViewDocumentChanges q}
    {change : ViewChange q} (h : view.applyChanges docChanges none = some (view', change))
    (hcurrent : view.current = false) :
    change.limboChanges = [] ∧ view'.limboDocuments = view.limboDocuments := by
  unfold View.applyChanges at h
  split at h
  · exact absurd h (by simp)
  · simp only [View.applyTargetChange, Option.map_some, Option.some.injEq, Prod.mk.injEq] at h
    obtain ⟨rfl, rfl⟩ := h
    simp [View.updateLimboDocuments, hcurrent]

/-- The documents of a target after a change of it. -/
def TargetChange.resultsAfter (results : Finset κ) : Option (TargetChange κ) → Finset κ
  | none => results
  | some c => (results ∪ c.addedDocuments) \ c.removedDocuments

/-- What a step of a view does about the results, and what it keeps of the limbo documents unless
the backend has sent everything. -/
structure ResultsStep (targetChange : Option (TargetChange κ)) (old new : View q) : Prop where
  synced : new.syncedDocuments = TargetChange.resultsAfter old.syncedDocuments targetChange
  limbo : new.current = false → new.limboDocuments = old.limboDocuments
  current : targetChange = none → new.current = old.current

theorem View.applyTargetChange_results {view view' : View q}
    {targetChange : Option (TargetChange κ)}
    (h : view.applyTargetChange targetChange = some view') :
    view'.limboDocuments = view.limboDocuments ∧
      view'.syncedDocuments = TargetChange.resultsAfter view.syncedDocuments targetChange := by
  cases targetChange with
  | none =>
      rw [← Option.some.inj h]
      exact ⟨rfl, rfl⟩
  | some c =>
      rw [View.applyTargetChange] at h
      by_cases hsub : c.modifiedDocuments ⊆ view.syncedDocuments ∪ c.addedDocuments
      · simp only [if_pos hsub] at h
        rw [← Option.some.inj h]
        exact ⟨rfl, rfl⟩
      · simp only [if_neg hsub] at h
        exact absurd h (by simp)

theorem View.applyChanges_results {view view' : View q} {docChanges : ViewDocumentChanges q}
    {targetChange : Option (TargetChange κ)} {change : ViewChange q}
    (h : view.applyChanges docChanges targetChange = some (view', change)) :
    ResultsStep targetChange view view' := by
  unfold View.applyChanges at h
  split at h
  · exact absurd h (by simp)
  · obtain ⟨view₁, htarget, heq⟩ := Option.map_eq_some_iff.1 h
    simp only [Prod.mk.injEq] at heq
    obtain ⟨rfl, -⟩ := heq
    obtain ⟨hlimbo₁, hsynced₁⟩ := View.applyTargetChange_results htarget
    constructor
    · rw [view₁.updateLimboDocuments_eq]
      exact hsynced₁
    · intro hcurrent
      have hcurrent₁ : view₁.current = false := by
        rw [view₁.updateLimboDocuments_eq] at hcurrent
        exact hcurrent
      have hsame : view₁.updateLimboDocuments.1 = view₁ := by
        simp [View.updateLimboDocuments, hcurrent₁]
      change view₁.updateLimboDocuments.1.limboDocuments = _
      rw [hsame, hlimbo₁]
    · rintro rfl
      rw [View.applyTargetChange] at htarget
      rw [view₁.updateLimboDocuments_eq, ← Option.some.inj htarget]

/-! ### A view and the cache -/

/-- **What holds of a view**, when `cached` has the matching documents of the cache. -/
structure ViewInv (view : View q) (cached : κ → Option (δ × DocumentState)) : Prop where
  documents : DocumentsInv view.documentSet cached
  mutated : Mutated view.documentSet view.mutatedKeys
  settled : view.Settled

/-- **A synced view** has no documents but those that the backend counts among the results and those
with local changes. -/
theorem View.Settled.synced {view : View q} (h : view.Settled) (hsynced : view.syncState = .synced)
    {d : Document κ δ} (hd : d ∈ view.documentSet.items) :
    d.key ∈ view.syncedDocuments ∨ d.hasLocalMutations = true := by
  have hsync := h.sync
  rw [hsynced, View.newSyncState] at hsync
  split at hsync
  · next hquiet =>
      rw [Bool.and_eq_true, List.isEmpty_iff] at hquiet
      have hlimbo := h.limbo hquiet.2
      rw [hquiet.1, View.newLimboDocuments] at hlimbo
      have hno : d.key ∉ ((view.documentSet.items.map Document.key).filter
          view.shouldBeInLimbo).insertionSort (· ≤ ·) := by
        rw [← hlimbo]
        exact List.not_mem_nil
      rw [List.mem_insertionSort, List.mem_filter, not_and, View.shouldBeInLimbo] at hno
      by_contra hneither
      push Not at hneither
      have hlookup : view.documentSet.lookup d.key = some d :=
        RankedSet.lookup_key (R := q.comparator) hd
      refine hno (List.mem_map_of_mem hd) ?_
      rw [if_neg hneither.1, hlookup]
      simpa using hneither.2
  · exact absurd hsync (by simp)

/-- `ApplyOnlineStateChange` concerns the sync state alone. -/
theorem View.applyOnlineStateChange_spec {view : View q}
    {cached : κ → Option (δ × DocumentState)} (h : ViewInv view cached)
    (onlineState : OnlineState) :
    ∃ view' change, view.applyOnlineStateChange onlineState = some (view', change) ∧
      ViewInv view' cached ∧ SnapshotOf view view' change.snapshot ∧ change.limboChanges = [] ∧
      view'.limboDocuments = view.limboDocuments ∧
      view'.syncedDocuments = view.syncedDocuments := by
  unfold View.applyOnlineStateChange
  split
  · obtain ⟨view', change, happly, hset, hmutated, hsettled, hsnapshot, -⟩ :=
      View.applyChanges_spec { view with current := false }
        { documentSet := view.documentSet
          changeSet := ∅
          mutatedKeys := view.mutatedKeys
          needsRefill := false } none
        rfl (fun _ hc => absurd hc (by simp)) ⟨.refl _, h.mutated⟩
    obtain ⟨hno, hlimbo⟩ := View.applyChanges_limbo happly rfl
    refine ⟨view', change, happly, ⟨?_, ?_, hsettled⟩, hsnapshot.of_eq rfl rfl, hno, hlimbo,
      (View.applyChanges_results happly).synced⟩
    · rw [hset]
      exact h.documents
    · rw [hset, hmutated]
      exact h.mutated
  · exact ⟨view, _, rfl, h, .nothing (fun _ => rfl) rfl, rfl, rfl, rfl⟩

variable [DecidableRel ((· ≈ ·) : δ → δ → Prop)]

/-- `InitializeViewAndComputeSnapshot`: a new view with the matching documents of the cache. -/
def View.initializeView (q : Query κ δ) (remoteKeys : Finset κ) (executed : MaybeDocumentMap κ δ) :
    Option (View q × ViewChange q) :=
  ((View.init q remoteKeys).computeDocumentChanges executed none).bind fun viewDocChanges =>
    (View.init q remoteKeys).applyChanges viewDocChanges none

/-- What `EmitNewSnapshotsAndNotifyLocalStore` does for a view when documents of the cache have
changed. -/
def View.update (view : View q) (executed changes : MaybeDocumentMap κ δ)
    (targetChange : Option (TargetChange κ)) : Option (View q × ViewChange q) :=
  (view.refilledChanges executed changes).bind fun viewDocChanges =>
    view.applyChanges viewDocChanges targetChange

/-- **Whatever changes in the cache and whatever the backend says of the results**, the view is
right again, and listeners are told what has changed in it. -/
theorem View.update_spec {view : View q} {executed changes : MaybeDocumentMap κ δ}
    {cached cached' : κ → Option (δ × DocumentState)} {targetChange : Option (TargetChange κ)}
    (h : ViewInv view cached) (hchanges : WellKeyed changes)
    (hchanged : ChangedTo q changes cached cached') (hexecuted : Executes q executed cached')
    (hfits : view.TargetFits targetChange) :
    ∃ view' change, view.update executed changes targetChange = some (view', change) ∧
      ViewInv view' cached' ∧ SnapshotOf view view' change.snapshot ∧
      LimboDiff view.limboDocuments view'.limboDocuments change.limboChanges ∧
      ResultsStep targetChange view view' := by
  obtain ⟨viewDocChanges, hcompute, hrefill, hdocuments, hinv⟩ :=
    View.refilledChanges_spec h.documents h.mutated hchanges hchanged hexecuted
  obtain ⟨view', change, happly, hset, hmutated, hsettled, hsnapshot, hlimbo⟩ :=
    View.applyChanges_spec _ _ _ hrefill hfits hinv
  refine ⟨view', change, ?_, ⟨hset ▸ hdocuments, ?_, hsettled⟩, hsnapshot, hlimbo,
    View.applyChanges_results happly⟩
  · rw [View.update, hcompute]
    exact happly
  · rw [hset, hmutated]
    exact hinv.mutated

/-- **A new view** is right, and its first snapshot has all its documents. -/
theorem View.initializeView_spec (remoteKeys : Finset κ) {executed : MaybeDocumentMap κ δ}
    {cached : κ → Option (δ × DocumentState)} (hexecuted : Executes q executed cached) :
    ∃ view' change, View.initializeView q remoteKeys executed = some (view', change) ∧
      ViewInv view' cached ∧ SnapshotOf (View.init q remoteKeys) view' change.snapshot ∧
      change.snapshot.isSome = true ∧ change.limboChanges = [] ∧ view'.limboDocuments = [] ∧
      view'.syncedDocuments = remoteKeys := by
  obtain ⟨viewDocChanges, hcompute, hrefill, hdocuments, hinv⟩ :=
    View.initial_spec remoteKeys hexecuted
  obtain ⟨view', change, happly, hset, hmutated, hsettled, hsnapshot, hlimbo⟩ :=
    View.applyChanges_spec _ _ none hrefill (fun _ hc => absurd hc (by simp)) hinv
  refine ⟨view', change, ?_, ⟨hset ▸ hdocuments, ?_, hsettled⟩, hsnapshot, ?_, ?_⟩
  · rw [View.initializeView, hcompute]
    exact happly
  · rw [hset, hmutated]
    exact hinv.mutated
  · generalize change.snapshot = snapshot at hsnapshot
    cases hsnapshot with
    | nothing _ hsync =>
        have hsettledSync := hsettled.sync
        rw [hsync, View.newSyncState] at hsettledSync
        split at hsettledSync <;> exact absurd hsettledSync (by simp [View.init])
    | snapshot s => rfl
  · obtain ⟨hno, hlimbo⟩ := View.applyChanges_limbo happly rfl
    exact ⟨hno, hlimbo, (View.applyChanges_results happly).synced⟩

end Apply

end FirestoreClient
