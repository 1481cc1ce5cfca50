/-
**Looking up documents in limbo.**

A document is in limbo when a view has it but the backend does not count it among the results of the
query.  The client then listens to the document alone to find out what has become of it.  Several
views may have the same document in limbo; it is looked up once, and as long as one of them has it.
The remote store stops the client when it is told to listen to a target that it listens to already,
or to stop listening to one that it does not listen to.

Main definitions:

* `FirestoreClient.LimboTracking` with `updateTrackedLimboDocuments`, `removeReferences` — which
  views have which documents in limbo, the lookups, and what the remote store listens to;
* `FirestoreClient.LimboTracking.Inv` — what holds of it.

Main results:

* `FirestoreClient.LimboTracking.updateTrackedLimboDocuments_spec` — **whatever changes in the limbo
  documents of a view, the remote store is told nothing wrong**, and each lookup is for a document
  that some view has in limbo;
* `FirestoreClient.LimboTracking.removeReferences_spec` — the same when a view goes away.
-/

import Mathlib.Data.Finset.Card
import Mathlib.Data.Finset.Image
import Mathlib.Data.List.Sort
import TinderFirestore.ViewSnapshot

set_option relaxedAutoImplicit false
set_option autoImplicit false

namespace FirestoreClient

variable {κ ι : Type*}

/-! ### Keys in order -/

/-- The keys of a set in their order, in which `DocumentKeySet` has them. -/
def sortedKeys [LinearOrder κ] (keys : Finset κ) : List κ :=
  Quot.liftOn keys.val (fun l => l.insertionSort (· ≤ ·)) fun l l' h =>
    ((l.perm_insertionSort _).trans (h.trans (l'.perm_insertionSort _).symm)).eq_of_sortedLE
      List.sortedLE_insertionSort List.sortedLE_insertionSort

@[simp] theorem mem_sortedKeys [LinearOrder κ] {keys : Finset κ} {k : κ} :
    k ∈ sortedKeys keys ↔ k ∈ keys := by
  obtain ⟨⟨l⟩, hnodup⟩ := keys
  exact List.mem_insertionSort (· ≤ ·)

/-! ### The bookkeeping -/

/-- What a target is for: the results of a query, or a document in limbo. -/
inductive TargetId (ι : Type*)
  | query (i : ι)
  | limbo (n : ℕ)
  deriving DecidableEq

/-- A lookup of a document in limbo. -/
structure LimboResolution (κ : Type*) where
  key : κ
  documentReceived : Bool

/-- What the remote store is told. -/
inductive TargetCall (κ ι : Type*)
  /-- With the document that the query asks for, if it asks for one alone. -/
  | listen (target : TargetId ι) (document : Option κ)
  | stopListening (target : TargetId ι)

/-- What a call makes of the targets; none if it is wrong. -/
def TargetCall.replay [DecidableEq ι] (targets : AList fun _ : TargetId ι => Option κ) :
    TargetCall κ ι → Option (AList fun _ : TargetId ι => Option κ)
  | .listen target document =>
      if target ∈ targets then none else some (targets.insert target document)
  | .stopListening target => if target ∈ targets then some (targets.erase target) else none

/-- The limbo documents of the views, their lookups, the targets of the remote store with the
document that each asks for, and what the remote store has been told. -/
structure LimboTracking (κ ι : Type*) where
  listenTargets : AList fun _ : TargetId ι => Option κ
  calls : List (TargetCall κ ι)
  limboDocumentRefs : Finset (κ × ι)
  limboTargetsByKey : AList fun _ : κ => ℕ
  limboResolutionsByTarget : AList fun _ : ℕ => LimboResolution κ
  nextTargetId : ℕ

namespace LimboTracking

/-- `SyncEngine` and `RemoteStore` as they start. -/
def start : LimboTracking κ ι where
  listenTargets := ∅
  calls := []
  limboDocumentRefs := ∅
  limboTargetsByKey := ∅
  limboResolutionsByTarget := ∅
  nextTargetId := 1

section Invariant

variable [LinearOrder κ] [DecidableEq ι]

/-- Some view has the document in limbo. -/
def Referenced (s : LimboTracking κ ι) (key : κ) : Prop := ∃ r ∈ s.limboDocumentRefs, r.1 = key

instance (s : LimboTracking κ ι) (key : κ) : Decidable (s.Referenced key) :=
  inferInstanceAs (Decidable (∃ r ∈ s.limboDocumentRefs, r.1 = key))

/-! ### What holds of it -/

/-- A lookup asks for its document, and a query for no document alone. -/
def TargetFor (s : LimboTracking κ ι) : TargetId ι → Option κ → Prop
  | .query _, document => document = none
  | .limbo n, document => ∃ r, s.limboResolutionsByTarget.lookup n = some r ∧ document = some r.key

/-- **What holds of the bookkeeping**: the lookups are those of the documents under their targets,
the remote store listens to these and to the listened queries, and each lookup is for a document
that some view has in limbo, except those of the `pending` documents, which are about to end. -/
structure Inv (listened : ι → Prop) (pending : κ → Prop) (s : LimboTracking κ ι) : Prop where
  target_iff : ∀ key n, s.limboTargetsByKey.lookup key = some n ↔
    ∃ r, s.limboResolutionsByTarget.lookup n = some r ∧ r.key = key
  used : ∀ n ∈ s.limboResolutionsByTarget, n < s.nextTargetId
  lookups : ∀ n, .limbo n ∈ s.listenTargets ↔ n ∈ s.limboResolutionsByTarget
  queries : ∀ i, .query i ∈ s.listenTargets ↔ listened i
  documents : ∀ target document, s.listenTargets.lookup target = some document →
    s.TargetFor target document
  referenced : ∀ key ∈ s.limboTargetsByKey, pending key ∨ s.Referenced key

/-- Some view has the document in limbo, but it is not looked up. -/
def Untracked (s : LimboTracking κ ι) (key : κ) : Prop :=
  s.Referenced key ∧ key ∉ s.limboTargetsByKey

variable {listened : ι → Prop} {pending : κ → Prop} {s s' : LimboTracking κ ι}

omit [LinearOrder κ] [DecidableEq ι] in
/-- What a target asks for depends on its own lookup alone. -/
theorem TargetFor.of_lookup {target : TargetId ι} {document : Option κ}
    (h : s.TargetFor target document)
    (hsame : ∀ n, target = .limbo n → ∀ r, s.limboResolutionsByTarget.lookup n = some r →
      ∃ r', s'.limboResolutionsByTarget.lookup n = some r' ∧ r'.key = r.key) :
    s'.TargetFor target document := by
  cases target with
  | query i => exact h
  | limbo n =>
      obtain ⟨r, hr, rfl⟩ := h
      obtain ⟨r', hr', hkey⟩ := hsame n rfl r hr
      exact ⟨r', hr', congrArg some hkey.symm⟩

theorem inv_start : (start : LimboTracking κ ι).Inv (fun _ => False) fun _ => False := by
  refine ⟨fun key n => ?_, fun n hn => ?_, fun n => ?_, fun i => ?_, fun target doc hdoc => ?_,
    fun key hkey => ?_⟩
  · simp [start]
  · exact absurd hn (by simp [start])
  · simp [start]
  · simp [start]
  · exact absurd hdoc (by simp [start])
  · exact absurd hkey (by simp [start])

theorem Inv.congr (h : s.Inv listened pending) {listened' : ι → Prop}
    (hsame : ∀ i, listened i ↔ listened' i) : s.Inv listened' pending :=
  ⟨h.target_iff, h.used, h.lookups, fun i => (h.queries i).trans (hsame i), h.documents,
    h.referenced⟩

theorem Inv.isSome_iff (h : s.Inv listened pending) (n : ℕ) :
    n ∈ s.limboResolutionsByTarget ↔ ∃ key, s.limboTargetsByKey.lookup key = some n := by
  rw [← AList.lookup_isSome, Option.isSome_iff_exists]
  constructor
  · rintro ⟨r, hr⟩
    exact ⟨r.key, (h.target_iff r.key n).2 ⟨r, hr, rfl⟩⟩
  · rintro ⟨key, hkey⟩
    obtain ⟨r, hr, -⟩ := (h.target_iff key n).1 hkey
    exact ⟨r, hr⟩

end Invariant

section Operations

variable [LinearOrder κ] [DecidableEq ι]

/-! ### The operations -/

/-- `RemoteStore::Listen`, as far as it concerns the targets. -/
def listen (s : LimboTracking κ ι) (target : TargetId ι) (document : Option κ) :
    Option (LimboTracking κ ι) :=
  if target ∈ s.listenTargets then none
  else some { s with
    listenTargets := s.listenTargets.insert target document
    calls := s.calls ++ [.listen target document] }

/-- `RemoteStore::StopListening`, as far as it concerns the targets. -/
def stopListening (s : LimboTracking κ ι) (target : TargetId ι) : Option (LimboTracking κ ι) :=
  if target ∈ s.listenTargets then
    some { s with
      listenTargets := s.listenTargets.erase target
      calls := s.calls ++ [.stopListening target] }
  else none

/-- `TrackLimboChange`. -/
def trackLimboChange (s : LimboTracking κ ι) (key : κ) : Option (LimboTracking κ ι) :=
  if key ∈ s.limboTargetsByKey then some s
  else
    let limboTargetId := s.nextTargetId
    listen { s with
      limboTargetsByKey := s.limboTargetsByKey.insert key limboTargetId
      limboResolutionsByTarget :=
        s.limboResolutionsByTarget.insert limboTargetId { key := key, documentReceived := false }
      nextTargetId := limboTargetId + 1 } (.limbo limboTargetId) (some key)

/-- `RemoveLimboTarget`: when the lookup has failed, there is none any more. -/
def removeLimboTarget (s : LimboTracking κ ι) (key : κ) : Option (LimboTracking κ ι) :=
  match s.limboTargetsByKey.lookup key with
  | none => some s
  | some limboTargetId =>
      (s.stopListening (.limbo limboTargetId)).map fun s =>
        { s with
          limboTargetsByKey := s.limboTargetsByKey.erase key
          limboResolutionsByTarget := s.limboResolutionsByTarget.erase limboTargetId }

/-- The body of the loop of `UpdateTrackedLimboDocuments`. -/
def updateTrackedLimboDocument (i : ι) (s : LimboTracking κ ι) :
    LimboDocumentChange κ → Option (LimboTracking κ ι)
  | .added key =>
      trackLimboChange { s with limboDocumentRefs := insert (key, i) s.limboDocumentRefs } key
  | .removed key =>
      let s' := { s with limboDocumentRefs := s.limboDocumentRefs.erase (key, i) }
      if s'.Referenced key then some s' else s'.removeLimboTarget key

/-- `UpdateTrackedLimboDocuments`. -/
def updateTrackedLimboDocuments (i : ι) (s : LimboTracking κ ι)
    (limboChanges : List (LimboDocumentChange κ)) : Option (LimboTracking κ ι) :=
  limboChanges.foldlM (updateTrackedLimboDocument i) s

/-- `ReferenceSet::ReferencedKeys`. -/
def referencedKeys (s : LimboTracking κ ι) (i : ι) : List κ :=
  sortedKeys ((s.limboDocumentRefs.filter fun r => r.2 = i).image Prod.fst)

/-- The body of the loop of `RemoveAndCleanupQuery`. -/
def cleanupKey (s : LimboTracking κ ι) (key : κ) : Option (LimboTracking κ ι) :=
  if s.Referenced key then some s else s.removeLimboTarget key

/-- What `RemoveAndCleanupQuery` does about the limbo documents of the view. -/
def removeReferences (s : LimboTracking κ ι) (i : ι) : Option (LimboTracking κ ι) :=
  (s.referencedKeys i).foldlM cleanupKey
    { s with limboDocumentRefs := s.limboDocumentRefs.filter fun r => r.2 ≠ i }

/-- What `ProcessTargetError` does about the target: the backend does not listen to it any more. -/
def targetFailed (s : LimboTracking κ ι) (target : TargetId ι) : LimboTracking κ ι :=
  { s with listenTargets := s.listenTargets.erase target }

/-- What `HandleRejectedListen` does about the lookup of the document. -/
def lookupFailed (s : LimboTracking κ ι) (key : κ) (limboTargetId : ℕ) : LimboTracking κ ι :=
  { s with
    limboTargetsByKey := s.limboTargetsByKey.erase key
    limboResolutionsByTarget := s.limboResolutionsByTarget.erase limboTargetId }

/-! ### The steps -/

variable {listened : ι → Prop} {pending : κ → Prop} {s : LimboTracking κ ι}

/-- A document in limbo is looked up under a new target, unless it is looked up already. -/
theorem trackLimboChange_spec (h : s.Inv listened pending) {key : κ} (hkey : s.Referenced key) :
    ∃ s', s.trackLimboChange key = some s' ∧ s'.Inv listened pending ∧
      s'.limboDocumentRefs = s.limboDocumentRefs ∧
      ∀ k, k ∈ s'.limboTargetsByKey ↔ k = key ∨ k ∈ s.limboTargetsByKey := by
  unfold trackLimboChange
  split
  · next hmem =>
      refine ⟨s, rfl, h, rfl, fun k => ?_⟩
      constructor
      · exact Or.inr
      · rintro (rfl | hk)
        · exact hmem
        · exact hk
  · next hmem =>
      have hunused : s.nextTargetId ∉ s.limboResolutionsByTarget :=
        fun hn => Nat.lt_irrefl _ (h.used _ hn)
      have hfree : TargetId.limbo s.nextTargetId ∉ s.listenTargets :=
        fun hn => hunused ((h.lookups _).1 hn)
      have hnokey : s.limboTargetsByKey.lookup key = none := AList.lookup_eq_none.2 hmem
      simp only [listen, if_neg hfree]
      refine ⟨_, rfl, ⟨fun k n => ?_, fun n hn => ?_, fun n => ?_, fun i => ?_,
        fun target doc hdoc => ?_, fun k hk => ?_⟩, rfl, fun k => AList.mem_insert _⟩
      · by_cases hn : n = s.nextTargetId
        · subst hn
          rw [AList.lookup_insert]
          by_cases hk : k = key
          · subst hk
            rw [AList.lookup_insert]
            simp
          · rw [AList.lookup_insert_ne hk]
            have hnone : s.limboTargetsByKey.lookup k ≠ some s.nextTargetId := by
              intro hsome
              exact hunused ((h.isSome_iff _).2 ⟨k, hsome⟩)
            refine iff_of_false hnone ?_
            rintro ⟨r, hr, hrkey⟩
            obtain rfl := Option.some.inj hr
            exact hk hrkey.symm
        · rw [AList.lookup_insert_ne hn, ← h.target_iff]
          by_cases hk : k = key
          · subst hk
            rw [AList.lookup_insert, hnokey]
            refine iff_of_false (fun heq => hn (Option.some.inj heq).symm) (by simp)
          · rw [AList.lookup_insert_ne hk]
      · rcases (AList.mem_insert _).1 hn with rfl | hn
        · exact Nat.lt_succ_self _
        · exact (h.used n hn).trans (Nat.lt_succ_self _)
      · rw [AList.mem_insert, AList.mem_insert, TargetId.limbo.injEq, h.lookups]
      · rw [AList.mem_insert, h.queries]
        exact or_iff_right (by simp)
      · by_cases htarget : target = .limbo s.nextTargetId
        · subst htarget
          rw [AList.lookup_insert, Option.some_inj] at hdoc
          exact ⟨_, AList.lookup_insert _, hdoc.symm⟩
        · rw [AList.lookup_insert_ne htarget] at hdoc
          refine (h.documents target doc hdoc).of_lookup fun n hn r hr => ?_
          rw [AList.lookup_insert_ne fun heq => htarget (hn.trans (congrArg _ heq))]
          exact ⟨r, hr, rfl⟩
      · rcases (AList.mem_insert _).1 hk with rfl | hk
        · exact Or.inr hkey
        · exact h.referenced k hk

/-- The lookup of a document ends, if there is one. -/
theorem removeLimboTarget_spec (h : s.Inv listened pending) (key : κ) :
    ∃ s', s.removeLimboTarget key = some s' ∧ s'.Inv listened (fun k => pending k ∧ k ≠ key) ∧
      s'.limboDocumentRefs = s.limboDocumentRefs ∧
      ∀ k, k ∈ s'.limboTargetsByKey ↔ k ≠ key ∧ k ∈ s.limboTargetsByKey := by
  unfold removeLimboTarget
  split
  · next hnone =>
      have hmem : key ∉ s.limboTargetsByKey := AList.lookup_eq_none.1 hnone
      refine ⟨s, rfl, ⟨h.target_iff, h.used, h.lookups, h.queries, h.documents, fun k hk => ?_⟩,
        rfl, fun k => ?_⟩
      · have hne : k ≠ key := fun heq => hmem (heq ▸ hk)
        exact (h.referenced k hk).imp_left fun hp => ⟨hp, hne⟩
      · exact ⟨fun hk => ⟨fun heq => hmem (heq ▸ hk), hk⟩, fun hk => hk.2⟩
  · next limboTargetId hsome =>
      have hlistening : TargetId.limbo limboTargetId ∈ s.listenTargets :=
        (h.lookups _).2 ((h.isSome_iff _).2 ⟨key, hsome⟩)
      simp only [stopListening, if_pos hlistening, Option.map_some]
      refine ⟨_, rfl, ⟨fun k n => ?_, fun n hn => ?_, fun n => ?_, fun i => ?_,
        fun target doc hdoc => ?_, fun k hk => ?_⟩, rfl, fun k => AList.mem_erase⟩
      · by_cases hn : n = limboTargetId
        · subst hn
          rw [AList.lookup_erase]
          refine iff_of_false (fun hk => ?_) (by simp)
          by_cases hkey : k = key
          · subst hkey
            rw [AList.lookup_erase] at hk
            exact absurd hk (by simp)
          · rw [AList.lookup_erase_ne hkey] at hk
            obtain ⟨r, hr, hrkey⟩ := (h.target_iff k n).1 hk
            obtain ⟨r', hr', hrkey'⟩ := (h.target_iff key n).1 hsome
            obtain rfl := Option.some.inj (hr.symm.trans hr')
            exact hkey (hrkey.symm.trans hrkey')
        · rw [AList.lookup_erase_ne hn, ← h.target_iff]
          by_cases hkey : k = key
          · subst hkey
            rw [AList.lookup_erase, hsome]
            exact iff_of_false (by simp) fun heq => hn (Option.some.inj heq).symm
          · rw [AList.lookup_erase_ne hkey]
      · exact h.used n (AList.mem_erase.1 hn).2
      · rw [AList.mem_erase, AList.mem_erase, Ne, TargetId.limbo.injEq, h.lookups]
      · rw [AList.mem_erase, h.queries]
        exact and_iff_right (by simp)
      · by_cases htarget : target = .limbo limboTargetId
        · subst htarget
          rw [AList.lookup_erase] at hdoc
          exact absurd hdoc (by simp)
        · rw [AList.lookup_erase_ne htarget] at hdoc
          refine (h.documents target doc hdoc).of_lookup fun n hn r hr => ?_
          rw [AList.lookup_erase_ne fun heq => htarget (hn.trans (congrArg _ heq))]
          exact ⟨r, hr, rfl⟩
      · obtain ⟨hne, hk⟩ := AList.mem_erase.1 hk
        exact (h.referenced k hk).imp_left fun hp => ⟨hp, hne⟩

/-- **One change of the limbo documents of a view** goes through. -/
theorem updateTrackedLimboDocument_spec (h : s.Inv listened fun _ => False) (i : ι)
    (change : LimboDocumentChange κ) :
    ∃ s', updateTrackedLimboDocument i s change = some s' ∧ s'.Inv listened (fun _ => False) ∧
      (∀ k j, (k, j) ∈ s'.limboDocumentRefs ↔ (j = i ∧ change = .added k) ∨
        ((k, j) ∈ s.limboDocumentRefs ∧ ¬ (j = i ∧ change = .removed k))) ∧
      ∀ k, s'.Untracked k → s.Untracked k := by
  cases change with
  | added key =>
      set s₁ : LimboTracking κ ι :=
        { s with limboDocumentRefs := insert (key, i) s.limboDocumentRefs } with hs₁
      have href (k : κ) (hk : s.Referenced k) : s₁.Referenced k := by
        obtain ⟨r, hr, hrkey⟩ := hk
        exact ⟨r, Finset.mem_insert_of_mem hr, hrkey⟩
      have hinv₁ : s₁.Inv listened fun _ => False :=
        ⟨h.target_iff, h.used, h.lookups, h.queries, h.documents,
          fun k hk => (h.referenced k hk).imp_right (href k)⟩
      obtain ⟨s', htrack, hinv', hrefs, htargets⟩ := trackLimboChange_spec hinv₁
        ⟨(key, i), Finset.mem_insert_self _ _, rfl⟩
      refine ⟨s', htrack, hinv', fun k j => ?_, fun k hk => ?_⟩
      · rw [hrefs, Finset.mem_insert, Prod.mk.injEq]
        constructor
        · rintro (⟨rfl, rfl⟩ | hold)
          · exact Or.inl ⟨rfl, rfl⟩
          · exact Or.inr ⟨hold, by simp⟩
        · rintro (⟨rfl, hadded⟩ | ⟨hold, -⟩)
          · exact Or.inl ⟨(LimboDocumentChange.added.inj hadded).symm, rfl⟩
          · exact Or.inr hold
      · obtain ⟨⟨r, hr, hrkey⟩, hno⟩ := hk
        rw [htargets, not_or] at hno
        rw [hrefs, Finset.mem_insert] at hr
        rcases hr with rfl | hr
        · exact absurd hrkey.symm hno.1
        · exact ⟨⟨r, hr, hrkey⟩, hno.2⟩
  | removed key =>
      set s₁ : LimboTracking κ ι :=
        { s with limboDocumentRefs := s.limboDocumentRefs.erase (key, i) } with hs₁
      have hrefs₁ (k : κ) (j : ι) : (k, j) ∈ s₁.limboDocumentRefs ↔
          (j = i ∧ LimboDocumentChange.removed key = .added k) ∨ ((k, j) ∈ s.limboDocumentRefs ∧
            ¬ (j = i ∧ LimboDocumentChange.removed key = .removed k)) := by
        rw [hs₁, Finset.mem_erase, Ne, Prod.mk.injEq, LimboDocumentChange.removed.injEq]
        constructor
        · rintro ⟨hne, hmem⟩
          exact Or.inr ⟨hmem, fun heq => hne ⟨heq.2.symm, heq.1⟩⟩
        · rintro (⟨-, hadded⟩ | ⟨hmem, hne⟩)
          · exact absurd hadded (by simp)
          · exact ⟨fun heq => hne ⟨heq.2, heq.1.symm⟩, hmem⟩
      have hback (k : κ) (hk : s₁.Referenced k) : s.Referenced k := by
        obtain ⟨r, hr, hrkey⟩ := hk
        exact ⟨r, Finset.mem_of_mem_erase hr, hrkey⟩
      have hinv₁ : s₁.Inv listened (· = key) := by
        refine ⟨h.target_iff, h.used, h.lookups, h.queries, h.documents, fun k hk => ?_⟩
        obtain ⟨r, hr, hrkey⟩ := (h.referenced k hk).resolve_left id
        by_cases hkey : k = key
        · exact Or.inl hkey
        · refine Or.inr ⟨r, Finset.mem_erase.2 ⟨fun heq => hkey ?_, hr⟩, hrkey⟩
          rw [← hrkey, heq]
      unfold updateTrackedLimboDocument
      by_cases hcontains : s₁.Referenced key
      · refine ⟨s₁, if_pos hcontains, ⟨h.target_iff, h.used, h.lookups, h.queries, h.documents,
          fun k hk => ?_⟩, hrefs₁, fun k hk => ⟨hback k hk.1, hk.2⟩⟩
        rcases hinv₁.referenced k hk with rfl | hk
        · exact Or.inr hcontains
        · exact Or.inr hk
      · obtain ⟨s', hremove, hinv', hrefs, htargets⟩ := removeLimboTarget_spec hinv₁ key
        refine ⟨s', (if_neg hcontains).trans hremove, ?_, hrefs ▸ hrefs₁, fun k hk => ?_⟩
        · refine ⟨hinv'.target_iff, hinv'.used, hinv'.lookups, hinv'.queries, hinv'.documents,
            fun k hk => ?_⟩
          exact (hinv'.referenced k hk).imp_left fun hp => hp.2 hp.1
        · obtain ⟨⟨r, hr, hrkey⟩, hno⟩ := hk
          rw [hrefs] at hr
          have hreferenced : s₁.Referenced k := ⟨r, hr, hrkey⟩
          refine ⟨hback k hreferenced, fun hmem => hno ((htargets k).2 ⟨?_, hmem⟩)⟩
          rintro rfl
          exact hcontains hreferenced

/-- The loop over the changes. -/
theorem updateTrackedLimboDocuments_run (h : s.Inv listened fun _ => False) (i : ι)
    {changes : List (LimboDocumentChange κ)}
    (hdisjoint : ∀ k, ¬ (.added k ∈ changes ∧ .removed k ∈ changes)) :
    ∃ s', updateTrackedLimboDocuments i s changes = some s' ∧ s'.Inv listened (fun _ => False) ∧
      (∀ k j, (k, j) ∈ s'.limboDocumentRefs ↔ (j = i ∧ .added k ∈ changes) ∨
        ((k, j) ∈ s.limboDocumentRefs ∧ ¬ (j = i ∧ .removed k ∈ changes))) ∧
      ∀ k, s'.Untracked k → s.Untracked k := by
  induction changes generalizing s with
  | nil => exact ⟨s, rfl, h, fun k j => by simp, fun _ hk => hk⟩
  | cons change changes ih =>
      obtain ⟨s₁, hround, hinv₁, hrefs₁, huntracked₁⟩ :=
        updateTrackedLimboDocument_spec h i change
      obtain ⟨s', hrun, hinv', hrefs', huntracked'⟩ := ih hinv₁ fun k hk =>
        hdisjoint k ⟨List.mem_cons_of_mem _ hk.1, List.mem_cons_of_mem _ hk.2⟩
      refine ⟨s', ?_, hinv', fun k j => ?_, fun k hk => huntracked₁ k (huntracked' k hk)⟩
      · rw [updateTrackedLimboDocuments, List.foldlM_cons, hround]
        exact hrun
      · rw [hrefs', hrefs₁, List.mem_cons, List.mem_cons, eq_comm (b := change),
          eq_comm (b := change)]
        have hno := hdisjoint k
        rw [List.mem_cons, List.mem_cons, eq_comm (b := change), eq_comm (b := change)] at hno
        tauto

/-- **Whatever changes in the limbo documents of a view**, the remote store is told nothing wrong,
and afterwards the references of the view are its new limbo documents. -/
theorem updateTrackedLimboDocuments_spec (h : s.Inv listened fun _ => False) {i : ι}
    {old new : List κ} {changes : List (LimboDocumentChange κ)} (hdiff : LimboDiff old new changes)
    (hold : ∀ k, (k, i) ∈ s.limboDocumentRefs ↔ k ∈ old) :
    ∃ s', updateTrackedLimboDocuments i s changes = some s' ∧ s'.Inv listened (fun _ => False) ∧
      (∀ k, (k, i) ∈ s'.limboDocumentRefs ↔ k ∈ new) ∧
      (∀ k, ∀ j ≠ i, (k, j) ∈ s'.limboDocumentRefs ↔ (k, j) ∈ s.limboDocumentRefs) ∧
      ∀ k, s'.Untracked k → s.Untracked k := by
  have hdisjoint (k : κ) : ¬ (.added k ∈ changes ∧ .removed k ∈ changes) := by
    rw [hdiff.added, hdiff.removed]
    exact fun hboth => hboth.1.2 hboth.2.1
  obtain ⟨s', hrun, hinv', hrefs, huntracked⟩ := updateTrackedLimboDocuments_run h i hdisjoint
  refine ⟨s', hrun, hinv', fun k => ?_, fun k j hj => ?_, huntracked⟩
  · rw [hrefs, hdiff.added, hdiff.removed, hold]
    tauto
  · rw [hrefs]
    simp [hj]

/-! ### When a view goes away -/

/-- The loop of `RemoveAndCleanupQuery`: the documents that are still to come are pending. -/
theorem cleanupKey_run {keys : List κ} (h : s.Inv listened (· ∈ keys)) :
    ∃ s', keys.foldlM cleanupKey s = some s' ∧ s'.Inv listened (fun _ => False) ∧
      s'.limboDocumentRefs = s.limboDocumentRefs ∧ ∀ k, s'.Untracked k → s.Untracked k := by
  induction keys generalizing s with
  | nil =>
      refine ⟨s, rfl, ⟨h.target_iff, h.used, h.lookups, h.queries, h.documents, fun k hk => ?_⟩,
        rfl, fun _ hk => hk⟩
      exact (h.referenced k hk).imp_left fun hp => absurd hp (by simp)
  | cons key keys ih =>
      by_cases hcontains : s.Referenced key
      · have hround : s.cleanupKey key = some s := if_pos hcontains
        obtain ⟨s', hrun, hinv', hrefs, huntracked⟩ := ih
          ⟨h.target_iff, h.used, h.lookups, h.queries, h.documents, fun k hk => by
            rcases h.referenced k hk with hp | hk
            · rcases List.mem_cons.1 hp with rfl | hp
              · exact Or.inr hcontains
              · exact Or.inl hp
            · exact Or.inr hk⟩
        refine ⟨s', ?_, hinv', hrefs, huntracked⟩
        rw [List.foldlM_cons, hround]
        exact hrun
      · obtain ⟨s₁, hremove, hinv₁, hrefs₁, htargets₁⟩ := removeLimboTarget_spec h key
        have hround : s.cleanupKey key = some s₁ := (if_neg hcontains).trans hremove
        obtain ⟨s', hrun, hinv', hrefs, huntracked⟩ := ih
          ⟨hinv₁.target_iff, hinv₁.used, hinv₁.lookups, hinv₁.queries, hinv₁.documents, fun k hk =>
            (hinv₁.referenced k hk).imp_left fun hp => (List.mem_cons.1 hp.1).resolve_left hp.2⟩
        refine ⟨s', ?_, hinv', hrefs.trans hrefs₁, fun k hk => ?_⟩
        · rw [List.foldlM_cons, hround]
          exact hrun
        · obtain ⟨⟨r, hr, hrkey⟩, hno⟩ := huntracked k hk
          rw [hrefs₁] at hr
          refine ⟨⟨r, hr, hrkey⟩, fun hmem => hno ((htargets₁ k).2 ⟨?_, hmem⟩)⟩
          rintro rfl
          exact hcontains ⟨r, hr, hrkey⟩

/-- **When a view goes away**, the lookups of the documents that only it has in limbo end. -/
theorem removeReferences_spec (h : s.Inv listened fun _ => False) (i : ι) :
    ∃ s', s.removeReferences i = some s' ∧ s'.Inv listened (fun _ => False) ∧
      (∀ k j, (k, j) ∈ s'.limboDocumentRefs ↔ (k, j) ∈ s.limboDocumentRefs ∧ j ≠ i) ∧
      ∀ k, s'.Untracked k → s.Untracked k := by
  set s₁ : LimboTracking κ ι :=
    { s with limboDocumentRefs := s.limboDocumentRefs.filter fun r => r.2 ≠ i } with hs₁
  have hinv₁ : s₁.Inv listened (· ∈ s.referencedKeys i) := by
    refine ⟨h.target_iff, h.used, h.lookups, h.queries, h.documents, fun k hk => ?_⟩
    obtain ⟨r, hr, hrkey⟩ := (h.referenced k hk).resolve_left id
    by_cases hri : r.2 = i
    · refine Or.inl ?_
      rw [referencedKeys, mem_sortedKeys, Finset.mem_image]
      exact ⟨r, Finset.mem_filter.2 ⟨hr, hri⟩, hrkey⟩
    · exact Or.inr ⟨r, Finset.mem_filter.2 ⟨hr, hri⟩, hrkey⟩
  obtain ⟨s', hrun, hinv', hrefs, huntracked⟩ := cleanupKey_run hinv₁
  refine ⟨s', hrun, hinv', fun k j => ?_, fun k hk => ?_⟩
  · rw [hrefs, hs₁, Finset.mem_filter]
  · obtain ⟨⟨r, hr, hrkey⟩, hno⟩ := huntracked k hk
    exact ⟨⟨r, (Finset.mem_filter.1 hr).1, hrkey⟩, hno⟩

/-! ### Queries that are listened to -/

theorem listen_query_spec (h : s.Inv listened pending) {i : ι} (hi : ¬ listened i) :
    ∃ s', s.listen (.query i) none = some s' ∧ s'.Inv (fun j => j = i ∨ listened j) pending ∧
      s'.limboDocumentRefs = s.limboDocumentRefs ∧ s'.limboTargetsByKey = s.limboTargetsByKey := by
  have hfree : TargetId.query i ∉ s.listenTargets := fun hmem => hi ((h.queries i).1 hmem)
  refine ⟨_, if_neg hfree, ⟨h.target_iff, h.used, fun n => ?_, fun j => ?_,
    fun target doc hdoc => ?_, h.referenced⟩, rfl, rfl⟩
  · rw [AList.mem_insert, h.lookups]
    exact or_iff_right (by simp)
  · rw [AList.mem_insert, TargetId.query.injEq, h.queries]
  · by_cases htarget : target = .query i
    · subst htarget
      rw [AList.lookup_insert, Option.some_inj] at hdoc
      exact hdoc.symm
    · rw [AList.lookup_insert_ne htarget] at hdoc
      exact h.documents target doc hdoc

/-- Whether the client stops listening to a query or the backend does. -/
theorem targetFailed_query_spec (h : s.Inv listened pending) (i : ι) :
    (s.targetFailed (.query i)).Inv (fun j => j ≠ i ∧ listened j) pending := by
  refine ⟨h.target_iff, h.used, fun n => ?_, fun j => ?_, fun target doc hdoc => ?_, h.referenced⟩
  · rw [targetFailed, AList.mem_erase, h.lookups]
    exact and_iff_right (by simp)
  · rw [targetFailed, AList.mem_erase, Ne, TargetId.query.injEq, h.queries]
  · by_cases htarget : target = .query i
    · subst htarget
      rw [targetFailed, AList.lookup_erase] at hdoc
      exact absurd hdoc (by simp)
    · rw [targetFailed, AList.lookup_erase_ne htarget] at hdoc
      exact h.documents target doc hdoc

theorem stopListening_query (h : s.Inv listened pending) {i : ι} (hi : listened i) :
    s.stopListening (.query i) = some { s.targetFailed (.query i) with
      calls := s.calls ++ [.stopListening (.query i)] } :=
  if_pos ((h.queries i).2 hi)

/-! ### Lookups that fail -/

/-- **When the backend refuses a lookup**, it is forgotten; no other one is concerned. -/
theorem lookupFailed_spec (h : s.Inv listened pending) {n : ℕ}
    {limboResolution : LimboResolution κ}
    (hlookup : s.limboResolutionsByTarget.lookup n = some limboResolution) :
    ((s.targetFailed (.limbo n)).lookupFailed limboResolution.key n).Inv listened pending := by
  have hsome : s.limboTargetsByKey.lookup limboResolution.key = some n :=
    (h.target_iff _ n).2 ⟨limboResolution, hlookup, rfl⟩
  obtain ⟨s', hremove, hinv', -, -⟩ := removeLimboTarget_spec h limboResolution.key
  have hlistening : TargetId.limbo n ∈ s.listenTargets :=
    (h.lookups _).2 (AList.lookup_isSome.1 (by rw [hlookup]; rfl))
  rw [removeLimboTarget, hsome] at hremove
  simp only [stopListening, if_pos hlistening, Option.map_some, Option.some.injEq] at hremove
  obtain rfl := hremove
  exact ⟨hinv'.target_iff, hinv'.used, hinv'.lookups, hinv'.queries, hinv'.documents,
    fun k hk => (hinv'.referenced k hk).imp_left And.left⟩

end Operations

section Continues

variable [LinearOrder κ] [DecidableEq ι] {s s' s'' : LimboTracking κ ι}

/-! ### What the remote store is told -/

/-- **One state comes after another**: what the remote store has been told in between is right and
makes the targets of the one those of the other, and lookups have only ended or are new. -/
structure Continues (s s' : LimboTracking κ ι) : Prop where
  calls : ∃ calls, s'.calls = s.calls ++ calls ∧
    calls.foldlM TargetCall.replay s.listenTargets = some s'.listenTargets
  lookups : ∀ n < s.nextTargetId, ∀ r, s'.limboResolutionsByTarget.lookup n = some r →
    s.limboResolutionsByTarget.lookup n = some r
  used : s.nextTargetId ≤ s'.nextTargetId

omit [LinearOrder κ] in
theorem Continues.refl (s : LimboTracking κ ι) : s.Continues s :=
  ⟨⟨[], (List.append_nil _).symm, rfl⟩, fun _ _ _ h => h, le_refl _⟩

omit [LinearOrder κ] in
theorem Continues.trans (h : s.Continues s') (h' : s'.Continues s'') : s.Continues s'' := by
  obtain ⟨calls, hcalls, hreplay⟩ := h.calls
  obtain ⟨calls', hcalls', hreplay'⟩ := h'.calls
  refine ⟨⟨calls ++ calls', ?_, ?_⟩, fun n hn r hr => ?_, h.used.trans h'.used⟩
  · rw [hcalls', hcalls, List.append_assoc]
  · rw [List.foldlM_append, hreplay]
    exact hreplay'
  · exact h.lookups n hn r (h'.lookups n (hn.trans_le h.used) r hr)

omit [LinearOrder κ] in
theorem Continues.listen {target : TargetId ι} {document : Option κ}
    (h : s.listen target document = some s') : s.Continues s' := by
  unfold LimboTracking.listen at h
  split at h
  · exact absurd h (by simp)
  · next hfree =>
      obtain rfl := Option.some.inj h
      refine ⟨⟨_, rfl, ?_⟩, fun _ _ _ hr => hr, le_refl _⟩
      simp only [List.foldlM_cons, List.foldlM_nil, TargetCall.replay, if_neg hfree]
      rfl

omit [LinearOrder κ] in
theorem Continues.stopListening {target : TargetId ι} (h : s.stopListening target = some s') :
    s.Continues s' := by
  unfold LimboTracking.stopListening at h
  split at h
  · next hlistening =>
      obtain rfl := Option.some.inj h
      refine ⟨⟨_, rfl, ?_⟩, fun _ _ _ hr => hr, le_refl _⟩
      simp only [List.foldlM_cons, List.foldlM_nil, TargetCall.replay, if_pos hlistening]
      rfl
  · exact absurd h (by simp)

theorem Continues.trackLimboChange {key : κ} (h : s.trackLimboChange key = some s') :
    s.Continues s' := by
  unfold LimboTracking.trackLimboChange at h
  split at h
  · exact Option.some.inj h ▸ .refl s
  · have hlisten := Continues.listen h
    refine ⟨hlisten.calls, fun n hn r hr => ?_, (Nat.le_succ _).trans hlisten.used⟩
    have hr' := hlisten.lookups n (hn.trans (Nat.lt_succ_self _)) r hr
    rwa [AList.lookup_insert_ne (Nat.ne_of_lt hn)] at hr'

theorem Continues.removeLimboTarget {key : κ} (h : s.removeLimboTarget key = some s') :
    s.Continues s' := by
  unfold LimboTracking.removeLimboTarget at h
  split at h
  · exact Option.some.inj h ▸ .refl s
  · next limboTargetId _ =>
      obtain ⟨s₁, hstop, rfl⟩ := Option.map_eq_some_iff.1 h
      have hcontinues := Continues.stopListening hstop
      refine ⟨hcontinues.calls, fun n hn r hr => hcontinues.lookups n hn r ?_, hcontinues.used⟩
      by_cases heq : n = limboTargetId
      · subst heq
        rw [AList.lookup_erase] at hr
        exact absurd hr (by simp)
      · rwa [AList.lookup_erase_ne heq] at hr

omit [LinearOrder κ] in
/-- The references may change at the same time. -/
theorem Continues.withRefs {refs : Finset (κ × ι)}
    (h : Continues { s with limboDocumentRefs := refs } s') : s.Continues s' :=
  ⟨h.calls, h.lookups, h.used⟩

theorem Continues.updateTrackedLimboDocument {i : ι} {change : LimboDocumentChange κ}
    (h : LimboTracking.updateTrackedLimboDocument i s change = some s') : s.Continues s' := by
  cases change with
  | added key => exact (Continues.trackLimboChange h).withRefs
  | removed key =>
      simp only [LimboTracking.updateTrackedLimboDocument] at h
      split at h
      · exact Option.some.inj h ▸ (Continues.refl _).withRefs
      · exact (Continues.removeLimboTarget h).withRefs

theorem Continues.cleanupKey {key : κ} (h : s.cleanupKey key = some s') : s.Continues s' := by
  unfold LimboTracking.cleanupKey at h
  split at h
  · exact Option.some.inj h ▸ .refl s
  · exact Continues.removeLimboTarget h

omit [LinearOrder κ] in
/-- A loop whose rounds come one after another. -/
theorem Continues.foldlM {α : Type*} {round : LimboTracking κ ι → α → Option (LimboTracking κ ι)}
    (hround : ∀ s a s', round s a = some s' → s.Continues s') {xs : List α}
    (h : xs.foldlM round s = some s') : s.Continues s' := by
  induction xs generalizing s with
  | nil => exact Option.some.inj h ▸ .refl s
  | cons x xs ih =>
      rw [List.foldlM_cons] at h
      obtain ⟨s₁, hfirst, hrest⟩ := Option.bind_eq_some_iff.1 h
      exact (hround s x s₁ hfirst).trans (ih hrest)

theorem Continues.updateTrackedLimboDocuments {i : ι} {changes : List (LimboDocumentChange κ)}
    (h : LimboTracking.updateTrackedLimboDocuments i s changes = some s') : s.Continues s' :=
  Continues.foldlM (fun _ _ _ => Continues.updateTrackedLimboDocument) h

theorem Continues.removeReferences {i : ι} (h : s.removeReferences i = some s') :
    s.Continues s' :=
  (Continues.foldlM (fun _ _ _ => Continues.cleanupKey) h).withRefs

end Continues

section Lookups

variable [LinearOrder κ] [DecidableEq ι] {listened : ι → Prop} {pending : κ → Prop}
  {s : LimboTracking κ ι}

/-! ### What the backend says about lookups -/

/-- What a change of its target says about a document that is looked up: whether the backend has
sent it.  There has to be one change at most, and the document has to be added first. -/
def documentReceived (limboResolution : LimboResolution κ) (change : TargetChange κ) :
    Option (LimboResolution κ) :=
  if 1 < change.addedDocuments.card + change.modifiedDocuments.card +
      change.removedDocuments.card then none
  else if change.addedDocuments ≠ ∅ then some { limboResolution with documentReceived := true }
  else if change.modifiedDocuments ≠ ∅ then
    if limboResolution.documentReceived then some limboResolution else none
  else if change.removedDocuments ≠ ∅ then
    if limboResolution.documentReceived then
      some { limboResolution with documentReceived := false }
    else none
  else some limboResolution

/-- The body of the loop of `ApplyRemoteEvent` over the target changes. -/
def applyLimboChange (s : LimboTracking κ ι) (kv : Σ _ : TargetId ι, TargetChange κ) :
    Option (LimboTracking κ ι) :=
  match kv.1 with
  | .query _ => some s
  | .limbo n =>
      match s.limboResolutionsByTarget.lookup n with
      | none => some s
      | some limboResolution =>
          (documentReceived limboResolution kv.2).map fun limboResolution =>
            { s with
              limboResolutionsByTarget := s.limboResolutionsByTarget.insert n limboResolution }

/-- The backend keeps to the protocol of lookups. -/
def LookupFits (s : LimboTracking κ ι) (kv : Σ _ : TargetId ι, TargetChange κ) : Prop :=
  ∀ n limboResolution, kv.1 = .limbo n →
    s.limboResolutionsByTarget.lookup n = some limboResolution →
      (documentReceived limboResolution kv.2).isSome

/-- A change says nothing about the document that it is for. -/
theorem key_of_documentReceived {limboResolution limboResolution' : LimboResolution κ}
    {change : TargetChange κ}
    (h : documentReceived limboResolution change = some limboResolution') :
    limboResolution'.key = limboResolution.key := by
  unfold documentReceived at h
  split_ifs at h <;> obtain rfl := Option.some.inj h <;> rfl

/-- What a change of its target makes of a lookup. -/
def resolutionAfter (limboResolution : LimboResolution κ) :
    Option (TargetChange κ) → Option (LimboResolution κ)
  | none => some limboResolution
  | some change => documentReceived limboResolution change

/-- **Changes of the targets** concern the lookups alone, each its own. -/
structure LookupsStep (change : TargetId ι → Option (TargetChange κ)) (s s' : LimboTracking κ ι) :
    Prop where
  listenTargets : s'.listenTargets = s.listenTargets
  calls : s'.calls = s.calls
  limboDocumentRefs : s'.limboDocumentRefs = s.limboDocumentRefs
  limboTargetsByKey : s'.limboTargetsByKey = s.limboTargetsByKey
  nextTargetId : s'.nextTargetId = s.nextTargetId
  lookups : ∀ n r, s.limboResolutionsByTarget.lookup n = some r →
    s'.limboResolutionsByTarget.lookup n = resolutionAfter r (change (.limbo n))

/-- A change of the target of a lookup. -/
theorem applyLimboChange_spec (h : s.Inv listened pending)
    {kv : Σ _ : TargetId ι, TargetChange κ} (hfits : s.LookupFits kv) :
    ∃ s', s.applyLimboChange kv = some s' ∧ s'.Inv listened pending ∧
      LookupsStep (fun target => if target = kv.1 then some kv.2 else none) s s' := by
  unfold applyLimboChange
  split
  · next i hi =>
      refine ⟨s, rfl, h, rfl, rfl, rfl, rfl, rfl, fun n r hr => ?_⟩
      rw [hi, if_neg (by simp)]
      exact hr
  · next n hn =>
      split
      · next hnone =>
          refine ⟨s, rfl, h, rfl, rfl, rfl, rfl, rfl, fun n' r hr => ?_⟩
          have hne : n' ≠ n := by
            rintro rfl
            exact absurd (hnone.symm.trans hr) (by simp)
          rw [hn, if_neg fun heq => hne (TargetId.limbo.inj heq)]
          exact hr
      · next limboResolution hlookup =>
          obtain ⟨limboResolution', hreceived⟩ :=
            Option.isSome_iff_exists.1 (hfits n limboResolution hn hlookup)
          have hkey := key_of_documentReceived hreceived
          have hmem : n ∈ s.limboResolutionsByTarget :=
            AList.lookup_isSome.1 (by rw [hlookup]; rfl)
          have hsame (n' : ℕ) : n' ∈ s.limboResolutionsByTarget.insert n limboResolution' ↔
              n' ∈ s.limboResolutionsByTarget := by
            rw [AList.mem_insert]
            exact or_iff_right_of_imp fun heq => heq ▸ hmem
          rw [hreceived]
          refine ⟨_, rfl, ⟨fun k n' => ?_, fun n' hn' => ?_, fun n' => ?_, h.queries,
            fun target doc hdoc => ?_, h.referenced⟩, rfl, rfl, rfl, rfl, rfl, fun n' r hr => ?_⟩
          · rw [h.target_iff]
            by_cases hn' : n' = n
            · subst hn'
              rw [AList.lookup_insert, hlookup]
              simp [hkey]
            · rw [AList.lookup_insert_ne hn']
          · exact h.used n' ((hsame n').1 hn')
          · exact (h.lookups n').trans (hsame n').symm
          · refine (h.documents target doc hdoc).of_lookup fun n' _ r hr => ?_
            by_cases hn' : n' = n
            · subst hn'
              obtain rfl := Option.some.inj (hlookup.symm.trans hr)
              exact ⟨limboResolution', AList.lookup_insert _, hkey⟩
            · exact ⟨r, (AList.lookup_insert_ne hn').trans hr, rfl⟩
          · by_cases hn' : n' = n
            · subst hn'
              obtain rfl := Option.some.inj (hlookup.symm.trans hr)
              rw [AList.lookup_insert, if_pos hn.symm]
              exact hreceived.symm
            · rw [AList.lookup_insert_ne hn', hn, if_neg fun heq => hn' (TargetId.limbo.inj heq)]
              exact hr

/-- The loop of `ApplyRemoteEvent` over the target changes. -/
theorem applyLimboChanges_run (h : s.Inv listened pending)
    {changes : List (Σ _ : TargetId ι, TargetChange κ)} (hnodup : changes.NodupKeys)
    (hfits : ∀ kv ∈ changes, s.LookupFits kv) :
    ∃ s', changes.foldlM applyLimboChange s = some s' ∧ s'.Inv listened pending ∧
      LookupsStep (fun target => changes.dlookup target) s s' := by
  induction changes generalizing s with
  | nil => exact ⟨s, rfl, h, rfl, rfl, rfl, rfl, rfl, fun _ _ hr => hr⟩
  | cons kv changes ih =>
      rw [List.nodupKeys_cons] at hnodup
      obtain ⟨s₁, hround, hinv₁, hstep₁⟩ := applyLimboChange_spec h (hfits kv List.mem_cons_self)
      -- the others have not been touched
      have hother (kv' : Σ _ : TargetId ι, TargetChange κ) (hkv' : kv' ∈ changes) :
          kv'.1 ≠ kv.1 := by
        intro heq
        refine hnodup.1 ?_
        rw [← heq]
        exact List.mem_map_of_mem hkv'
      have hfits₁ : ∀ kv' ∈ changes, s₁.LookupFits kv' := by
        intro kv' hkv' n limboResolution hn hlookup
        have hmem : n ∈ s.limboResolutionsByTarget := by
          rw [h.isSome_iff, ← hstep₁.limboTargetsByKey, ← hinv₁.isSome_iff]
          exact AList.lookup_isSome.1 (by rw [hlookup]; rfl)
        obtain ⟨r, hr⟩ := Option.isSome_iff_exists.1 (AList.lookup_isSome.2 hmem)
        have hafter := hstep₁.lookups n r hr
        rw [if_neg (hn ▸ hother kv' hkv'), hlookup] at hafter
        refine hfits kv' (List.mem_cons_of_mem _ hkv') n limboResolution hn ?_
        rw [hr]
        exact hafter.symm
      obtain ⟨s', hrun, hinv', hstep'⟩ := ih hinv₁ hnodup.2 hfits₁
      refine ⟨s', ?_, hinv', hstep'.listenTargets.trans hstep₁.listenTargets,
        hstep'.calls.trans hstep₁.calls, hstep'.limboDocumentRefs.trans hstep₁.limboDocumentRefs,
        hstep'.limboTargetsByKey.trans hstep₁.limboTargetsByKey,
        hstep'.nextTargetId.trans hstep₁.nextTargetId, fun n r hr => ?_⟩
      · rw [List.foldlM_cons, hround]
        exact hrun
      · have hafter := hstep₁.lookups n r hr
        by_cases hn : .limbo n = kv.1
        · obtain ⟨target, change⟩ := kv
          obtain rfl : .limbo n = target := hn
          obtain ⟨r₁, hr₁⟩ := Option.isSome_iff_exists.1
            (hfits _ List.mem_cons_self n r rfl hr)
          rw [if_pos rfl] at hafter
          rw [hstep'.lookups n r₁ (hafter.trans hr₁), List.dlookup_cons_eq,
            List.dlookup_eq_none.2 hnodup.1]
          exact hr₁.symm
        · rw [if_neg hn] at hafter
          rw [hstep'.lookups n r hafter, List.dlookup_cons_ne changes kv hn]

end Lookups

end LimboTracking

end FirestoreClient
