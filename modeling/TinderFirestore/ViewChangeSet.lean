/-
**The changes of a query's documents.**

The Firestore client keeps the documents of a query and tells its listeners what has changed in
them.  A change set holds at most one change for each document.  While the client goes through the
updates of its cache, and goes through them again when a limit makes it look at the whole cache, a
document may be changed several times: each change is merged into the one that is there.  Some
combinations make no sense, and there the client stops.

Main definitions:

* `FirestoreClient.Document`, `MaybeDocument` — what the client knows of a document;
* `FirestoreClient.DocumentViewChangeSet.addChange` — adding a change to a change set, which stops
  the client when the combination makes no sense;
* `FirestoreClient.Explains` — the change that says how a document has become another one.

Main results:

* `FirestoreClient.Explains.merge` — the merged change explains both changes together;
* `FirestoreClient.Explained.addChange` — **a change that is fitting can be added, and the change
  set explains what has become of all documents**.
-/

import Mathlib.Data.List.AList

set_option relaxedAutoImplicit false
set_option autoImplicit false

namespace FirestoreClient

variable {κ δ : Type*}

/-! ### Documents -/

/-- The time of a version, in nanoseconds. -/
abbrev SnapshotVersion := ℤ

/-- The version of what the backend has never sent. -/
def SnapshotVersion.none : SnapshotVersion := 0

/-- The `has_pending_writes` state of a document. -/
inductive DocumentState
  /-- Changed by mutations that the backend has not seen. -/
  | localMutations
  /-- Changed by mutations that the backend has acknowledged. -/
  | committedMutations
  /-- As the backend sent it. -/
  | synced
  deriving DecidableEq

/-- A document that exists. -/
structure Document (κ δ : Type*) where
  key : κ
  data : δ
  version : SnapshotVersion
  documentState : DocumentState
  deriving DecidableEq

def Document.hasLocalMutations (d : Document κ δ) : Bool :=
  decide (d.documentState = .localMutations)

def Document.hasCommittedMutations (d : Document κ δ) : Bool :=
  decide (d.documentState = .committedMutations)

/-- What is known of a document: it exists, it does not, or it has changed in a way that is not
known. -/
inductive MaybeDocument (κ δ : Type*)
  | document (d : Document κ δ)
  | noDocument (key : κ) (version : SnapshotVersion) (hasCommittedMutations : Bool)
  | unknownDocument (key : κ) (version : SnapshotVersion)
  deriving DecidableEq

namespace MaybeDocument

def key : MaybeDocument κ δ → κ
  | document d => d.key
  | noDocument key _ _ => key
  | unknownDocument key _ => key

/-- The document, if it exists. -/
def document? : MaybeDocument κ δ → Option (Document κ δ)
  | document d => some d
  | noDocument _ _ _ => none
  | unknownDocument _ _ => none

end MaybeDocument

/-! ### Changes -/

/-- `DocumentViewChange::Type`. -/
inductive ChangeType
  | removed
  | added
  | modified
  | metadata
  deriving DecidableEq

structure DocumentViewChange (κ δ : Type*) where
  document : Document κ δ
  type : ChangeType
  deriving DecidableEq

/-- The changes of documents, one at most for each. -/
abbrev DocumentViewChangeSet (κ δ : Type*) := AList fun _ : κ => DocumentViewChange κ δ

/-- The change that takes the place of the one that is there and a new one; none when they cancel
out.  Other combinations are `HARD_FAIL`s. -/
def mergeChange (old change : DocumentViewChange κ δ) : Option (Option (DocumentViewChange κ δ)) :=
  if change.type ≠ .added ∧ old.type = .metadata then
    some (some change)
  else if change.type = .metadata ∧ old.type ≠ .removed then
    some (some { change with type := old.type })
  else if change.type = .modified ∧ old.type = .modified then
    some (some { change with type := .modified })
  else if change.type = .modified ∧ old.type = .added then
    some (some { change with type := .added })
  else if change.type = .removed ∧ old.type = .added then
    some none
  else if change.type = .removed ∧ old.type = .modified then
    some (some { document := old.document, type := .removed })
  else if change.type = .added ∧ old.type = .removed then
    some (some { change with type := .modified })
  else
    none

section Changes

variable [DecidableEq κ]

/-- `AddChange`. -/
def DocumentViewChangeSet.addChange (changeSet : DocumentViewChangeSet κ δ)
    (change : DocumentViewChange κ δ) : Option (DocumentViewChangeSet κ δ) :=
  match changeSet.lookup change.document.key with
  | none => some (changeSet.insert change.document.key change)
  | some old =>
      match mergeChange old change with
      | none => none
      | some none => some (changeSet.erase change.document.key)
      | some (some merged) => some (changeSet.insert change.document.key merged)

/-- `GetChanges`. -/
def DocumentViewChangeSet.getChanges (changeSet : DocumentViewChangeSet κ δ) :
    List (DocumentViewChange κ δ) :=
  changeSet.entries.map Sigma.snd

end Changes

/-! ### What a change says -/

variable [Setoid δ]

/-- The change fits what becomes of a document: it appears, it is replaced by one with other data,
it is replaced by one with the same data, or it goes away. -/
inductive Fits : Option (Document κ δ) → Option (Document κ δ) → DocumentViewChange κ δ → Prop
  | added (d : Document κ δ) : Fits none (some d) { document := d, type := .added }
  | modified (d d' : Document κ δ) : Fits (some d) (some d') { document := d', type := .modified }
  | metadata (d d' : Document κ δ) : d'.data ≈ d.data →
      Fits (some d) (some d') { document := d', type := .metadata }
  | removed (d : Document κ δ) : Fits (some d) none { document := d, type := .removed }

/-- What a change is about is one of the two documents. -/
theorem Fits.key {oldDoc newDoc : Option (Document κ δ)} {change : DocumentViewChange κ δ}
    (h : Fits oldDoc newDoc change) {k : κ} (hold : ∀ d, oldDoc = some d → d.key = k)
    (hnew : ∀ d, newDoc = some d → d.key = k) : change.document.key = k := by
  cases h with
  | added d => exact hnew d rfl
  | modified d d' => exact hnew d' rfl
  | metadata d d' _ => exact hnew d' rfl
  | removed d => exact hold d rfl

/-- **The change says how a document has become another one**: no change says that it is the same,
or that there is none before and after. -/
inductive Explains :
    Option (Document κ δ) → Option (Document κ δ) → Option (DocumentViewChange κ δ) → Prop
  | absent : Explains none none none
  | same (d : Document κ δ) : Explains (some d) (some d) none
  | added (d : Document κ δ) : Explains none (some d) (some { document := d, type := .added })
  | modified (d d' : Document κ δ) :
      Explains (some d) (some d') (some { document := d', type := .modified })
  | metadata (d d' : Document κ δ) : d'.data ≈ d.data →
      Explains (some d) (some d') (some { document := d', type := .metadata })
  | removed (d last : Document κ δ) :
      Explains (some d) none (some { document := last, type := .removed })

/-- Nothing has changed. -/
theorem Explains.refl (d : Option (Document κ δ)) : Explains d d none := by
  cases d with
  | none => exact .absent
  | some d => exact .same d

/-- Without a change, the document is the same. -/
theorem Explains.eq_of_none {old new : Option (Document κ δ)} (h : Explains old new none) :
    new = old := by
  cases h <;> rfl

/-- A single change explains what it fits. -/
theorem Explains.of_fits {old new : Option (Document κ δ)} {change : DocumentViewChange κ δ}
    (h : Fits old new change) : Explains old new (some change) := by
  cases h with
  | added d => exact .added d
  | modified d d' => exact .modified d d'
  | metadata d d' hdata => exact .metadata d d' hdata
  | removed d => exact .removed d d

/-- **The merged change explains both together**: a fitting change can be merged into the one that
explains what has become of the document so far. -/
theorem Explains.merge {start old new : Option (Document κ δ)}
    {change explained : DocumentViewChange κ δ} (h : Explains start old (some explained))
    (hfits : Fits old new change) :
    ∃ merged, mergeChange explained change = some merged ∧ Explains start new merged := by
  cases h with
  | added d =>
      cases hfits with
      | modified _ d' => exact ⟨_, rfl, .added d'⟩
      | metadata _ d' hdata => exact ⟨_, rfl, .added d'⟩
      | removed _ => exact ⟨_, rfl, .absent⟩
  | modified d₀ d =>
      cases hfits with
      | modified _ d' => exact ⟨_, rfl, .modified d₀ d'⟩
      | metadata _ d' hdata => exact ⟨_, rfl, .modified d₀ d'⟩
      | removed _ => exact ⟨_, rfl, .removed d₀ d⟩
  | metadata d₀ d hdata₀ =>
      cases hfits with
      | modified _ d' => exact ⟨_, rfl, .modified d₀ d'⟩
      | metadata _ d' hdata => exact ⟨_, rfl, .metadata d₀ d' (Setoid.trans hdata hdata₀)⟩
      | removed _ => exact ⟨_, rfl, .removed d₀ d⟩
  | removed d₀ last =>
      cases hfits with
      | added d' => exact ⟨_, rfl, .modified d₀ d'⟩

omit [Setoid δ] in
/-- What is merged has the key of both. -/
theorem mergeChange_key {old change merged : DocumentViewChange κ δ}
    (h : mergeChange old change = some (some merged))
    (hkey : old.document.key = change.document.key) :
    merged.document.key = change.document.key := by
  unfold mergeChange at h
  split_ifs at h <;> simp only [Option.some.injEq, reduceCtorEq] at h <;> subst h <;>
    first | rfl | exact hkey

/-! ### What a change set says -/

section Explained

variable [DecidableEq κ]

/-- **The change set explains what has become of all documents**, those under every key. -/
structure Explained (old new : κ → Option (Document κ δ)) (changeSet : DocumentViewChangeSet κ δ) :
    Prop where
  keyed : ∀ k change, changeSet.lookup k = some change → change.document.key = k
  explains : ∀ k, Explains (old k) (new k) (changeSet.lookup k)

/-- The empty change set explains that nothing has changed. -/
theorem Explained.refl (docs : κ → Option (Document κ δ)) : Explained docs docs ∅ :=
  ⟨fun k _ h => absurd h (by simp), fun k => by
    rw [AList.lookup_empty]
    exact .refl (docs k)⟩

omit [Setoid δ] in
/-- What is added to a change set concerns the document alone. -/
theorem addChange_lookup_of_ne {changeSet changeSet' : DocumentViewChangeSet κ δ}
    {change : DocumentViewChange κ δ} (h : changeSet.addChange change = some changeSet') {k : κ}
    (hk : k ≠ change.document.key) : changeSet'.lookup k = changeSet.lookup k := by
  unfold DocumentViewChangeSet.addChange at h
  split at h
  · obtain rfl := Option.some.inj h
    exact AList.lookup_insert_ne hk
  · split at h
    · exact absurd h (by simp)
    · obtain rfl := Option.some.inj h
      exact AList.lookup_erase_ne hk
    · obtain rfl := Option.some.inj h
      exact AList.lookup_insert_ne hk

/-- **A fitting change can be added**, and then the change set explains what has become of all
documents, the changed one included. -/
theorem Explained.addChange {start old : κ → Option (Document κ δ)}
    {changeSet : DocumentViewChangeSet κ δ} (h : Explained start old changeSet)
    (change : DocumentViewChange κ δ) (new : κ → Option (Document κ δ))
    (hfits : Fits (old change.document.key) (new change.document.key) change)
    (hsame : ∀ k ≠ change.document.key, new k = old k) :
    ∃ changeSet', changeSet.addChange change = some changeSet' ∧
      Explained start new changeSet' := by
  -- it is enough to know the entry of the changed document
  have hset (changeSet' : DocumentViewChangeSet κ δ)
      (hadd : changeSet.addChange change = some changeSet')
      (hkeyed : ∀ c, changeSet'.lookup change.document.key = some c →
        c.document.key = change.document.key)
      (hexplains : Explains (start change.document.key) (new change.document.key)
        (changeSet'.lookup change.document.key)) : Explained start new changeSet' := by
    refine ⟨fun k c hc => ?_, fun k => ?_⟩
    · rcases eq_or_ne k change.document.key with rfl | hk
      · exact hkeyed c hc
      · exact h.keyed k c ((addChange_lookup_of_ne hadd hk).symm.trans hc)
    · rcases eq_or_ne k change.document.key with rfl | hk
      · exact hexplains
      · rw [addChange_lookup_of_ne hadd hk, hsame k hk]
        exact h.explains k
  have hold := h.explains change.document.key
  cases hlookup : changeSet.lookup change.document.key with
  | none =>
      have hadd : changeSet.addChange change =
          some (changeSet.insert change.document.key change) := by
        rw [DocumentViewChangeSet.addChange, hlookup]
      refine ⟨_, hadd, hset _ hadd (fun c hc => ?_) ?_⟩
      · rw [AList.lookup_insert] at hc
        rw [← Option.some.inj hc]
      · rw [hlookup] at hold
        rw [AList.lookup_insert, ← hold.eq_of_none]
        exact .of_fits hfits
  | some explained =>
      rw [hlookup] at hold
      obtain ⟨merged, hmerge, hexplains⟩ := hold.merge hfits
      cases merged with
      | none =>
          have hadd : changeSet.addChange change =
              some (changeSet.erase change.document.key) := by
            rw [DocumentViewChangeSet.addChange, hlookup]
            simp only [hmerge]
          refine ⟨_, hadd, hset _ hadd (fun c hc => ?_) ?_⟩
          · rw [AList.lookup_erase] at hc
            exact absurd hc (by simp)
          · rw [AList.lookup_erase]
            exact hexplains
      | some c₀ =>
          have hadd : changeSet.addChange change =
              some (changeSet.insert change.document.key c₀) := by
            rw [DocumentViewChangeSet.addChange, hlookup]
            simp only [hmerge]
          refine ⟨_, hadd, hset _ hadd (fun c hc => ?_) ?_⟩
          · rw [AList.lookup_insert] at hc
            rw [← Option.some.inj hc]
            exact mergeChange_key hmerge (h.keyed _ _ hlookup)
          · rw [AList.lookup_insert]
            exact hexplains

end Explained

end FirestoreClient
