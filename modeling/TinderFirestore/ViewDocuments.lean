/-
**The documents of a view and those of the cache.**

A view works out its documents from the changed documents of the cache, and looks at the whole cache
only if it has to.  So its documents should be what one would get by evaluating the query on the
cache: the first matching ones.  There is one exception.  When a write has been acknowledged, a
document with local changes stays in the view as it is until the backend sends what has become of
it, also if the cache knows better already.

Main definitions:

* `FirestoreClient.View.refilledChanges` — what the changed documents of the cache make of a view;
* `FirestoreClient.DocumentsInv` — **the documents of a view are the first ones of a collection that
  differs from the matching documents of the cache only where the backend is about to send another
  document**.

Main results:

* `FirestoreClient.View.refilledChanges_spec` — **whatever changes in the cache, the changes go
  through, their result satisfies the invariant for the changed cache, and they explain it**;
* `FirestoreClient.DocumentsInv.unique_of_not_awaited` — without acknowledged writes, the documents
  of the view are the first matching ones of the cache.
-/

import TinderFirestore.QueryView

set_option relaxedAutoImplicit false
set_option autoImplicit false

namespace FirestoreClient

open Ranked

variable {κ δ : Type*} [Setoid δ]

/-! ### The cache -/

/-- What a view looks at in a document. -/
def Document.content (d : Document κ δ) : δ × DocumentState := (d.data, d.documentState)

/-- The content of a document, if it exists and the query matches it. -/
def matching (q : Query κ δ) (doc : Option (MaybeDocument κ δ)) : Option (δ × DocumentState) :=
  ((doc.bind MaybeDocument.document?).filter q.Matches).map Document.content

/-- A document of a view has the data of the cache, or the backend is about to send another one; and
it has local changes if the cache says so. -/
def Reflects (shown : Option (Document κ δ)) (cached : Option (δ × DocumentState)) : Prop :=
  ∀ d, shown = some d → ∃ c, cached = some c ∧
    (d.data ≈ c.1 ∨ (d.hasLocalMutations = true ∧ c.2 = .committedMutations)) ∧
    (c.2 = .localMutations → d.hasLocalMutations = true)

/-- The same data, if there is any. -/
def SameData (data : Option δ) (cached : Option (δ × DocumentState)) : Prop :=
  Option.Rel (· ≈ ·) data (cached.map Prod.fst)

theorem SameData.rel {data data' : Option δ} {cached : Option (δ × DocumentState)}
    (h : SameData data cached) (h' : SameData data' cached) : Option.Rel (· ≈ ·) data data' := by
  unfold SameData at h h'
  generalize cached.map Prod.fst = seen at h h'
  cases h with
  | some hdata =>
      cases h' with
      | some hdata' => exact .some (Setoid.trans hdata (Setoid.symm hdata'))
  | none =>
      cases h' with
      | none => exact .none

theorem sameData_map (doc : Option (Document κ δ)) :
    SameData (doc.map Document.data) (doc.map Document.content) := by
  cases doc with
  | none => exact .none
  | some d => exact .some (Setoid.refl d.data)

/-- The change of the document has been acknowledged but not sent by the backend. -/
def Awaited (cached : Option (δ × DocumentState)) : Prop :=
  ∃ data, cached = some (data, .committedMutations)

variable [DecidableEq κ] {q : Query κ δ}

/-- **What holds of the documents of a view**, when `cached` has the matching documents of the
cache: they reflect these, and they are the first ones of a collection that differs from these only
where the backend is about to send another document. -/
structure DocumentsInv (documentSet : DocumentSet q) (cached : κ → Option (δ × DocumentState)) :
    Prop where
  reflects : ∀ k, Reflects (documentSet.lookup k) (cached k)
  top : ∃ seen : κ → Option δ, IsTop documentSet q.limit seen ∧
    ∀ k, SameData (seen k) (cached k) ∨ Awaited (cached k)

/-- **Without acknowledged writes** the documents of a view are the first matching ones of the
cache: all views have the same ones. -/
theorem DocumentsInv.unique_of_not_awaited {documentSet documentSet' : DocumentSet q}
    {cached : κ → Option (δ × DocumentState)} (h : DocumentsInv documentSet cached)
    (h' : DocumentsInv documentSet' cached) (hno : ∀ k, ¬ Awaited (cached k)) :
    List.Forall₂ (fun d d' => d.key = d'.key ∧ d.data ≈ d'.data) documentSet.items
      documentSet'.items := by
  obtain ⟨seen, htop, hseen⟩ := h.top
  obtain ⟨seen', htop', hseen'⟩ := h'.top
  exact htop.unique_of_rel (R := q.comparator) q.le_congr htop' fun k =>
    ((hseen k).resolve_right (hno k)).rel ((hseen' k).resolve_right (hno k))

/-- The first documents of those that reflect the cache do. -/
theorem reflects_cut {documentSet : DocumentSet q} {cached : κ → Option (δ × DocumentState)}
    (h : ∀ k, Reflects (documentSet.lookup k) (cached k)) (k : κ) :
    Reflects ((documentSet.cut q.limit).lookup k) (cached k) :=
  fun d hd => h k d (RankedSet.lookup_of_cut hd)

theorem values_of_lookup {documentSet : DocumentSet q} {k : κ} {d : Document κ δ}
    (h : documentSet.lookup k = some d) : documentSet.values k = some d.data := by
  rw [RankedSet.values, h]
  rfl

/-- `executed` has the matching documents of the cache and no others. -/
structure Executes (q : Query κ δ) (executed : MaybeDocumentMap κ δ)
    (cached : κ → Option (δ × DocumentState)) : Prop where
  wellKeyed : WellKeyed executed
  matching_eq : ∀ k, matching q (executed.lookup k) = cached k
  isSome : ∀ k doc, executed.lookup k = some doc → (cached k).isSome

/-- After some documents have changed, `cached'` has the matching documents instead of `cached`. -/
def ChangedTo (q : Query κ δ) (changes : MaybeDocumentMap κ δ)
    (cached cached' : κ → Option (δ × DocumentState)) : Prop :=
  ∀ k, cached' k = if k ∈ changes then matching q (changes.lookup k) else cached k

variable [DecidableRel ((· ≈ ·) : δ → δ → Prop)]

/-! ### What becomes of one document -/

/-- What becomes of a document reflects the cache, if it had local changes whenever it was said to
and the cache still says so. -/
theorem reflects_outcome {oldMutatedKeys : Finset κ} {k : κ} {oldDoc newDoc : Option (Document κ δ)}
    (hold : ∀ d d', oldDoc = some d → newDoc = some d' → d'.hasLocalMutations = true →
      k ∈ oldMutatedKeys → d.hasLocalMutations = true) :
    Reflects (outcome oldMutatedKeys k oldDoc newDoc) (newDoc.map Document.content) := by
  intro d hd
  rcases outcome_eq oldMutatedKeys k oldDoc newDoc with
    h | ⟨old, new, hsome, rfl, houtcome, ⟨hsame, hlocal⟩ | hwait⟩
  · rw [← h, hd]
    exact ⟨_, rfl, Or.inl (Setoid.refl d.data), fun hstate => decide_eq_true hstate⟩
  · obtain rfl := Option.some.inj (houtcome.symm.trans hd)
    refine ⟨_, rfl, Or.inl hsame, fun hstate => ?_⟩
    have hnew : new.hasLocalMutations = true := decide_eq_true hstate
    exact hold old new hsome rfl hnew (hlocal hnew)
  · obtain rfl := Option.some.inj (houtcome.symm.trans hd)
    simp only [shouldWaitForSyncedDocument, Bool.and_eq_true] at hwait
    exact ⟨_, rfl, Or.inr ⟨hwait.1.1, of_decide_eq_true hwait.1.2⟩, fun _ => hwait.1.1⟩

/-- It has the data of the cache, unless the backend is about to send another document. -/
theorem outcome_data (oldMutatedKeys : Finset κ) (k : κ) (oldDoc newDoc : Option (Document κ δ)) :
    SameData ((outcome oldMutatedKeys k oldDoc newDoc).map Document.data)
        (newDoc.map Document.content) ∨ Awaited (newDoc.map Document.content) := by
  rcases outcome_eq oldMutatedKeys k oldDoc newDoc with
    h | ⟨old, new, -, rfl, hold, ⟨hsame, -⟩ | hwait⟩
  · rw [h]
    exact Or.inl (sameData_map newDoc)
  · rw [hold]
    exact Or.inl (.some hsame)
  · simp only [shouldWaitForSyncedDocument, Bool.and_eq_true] at hwait
    exact Or.inr ⟨new.data, by rw [Option.map_some, Document.content, of_decide_eq_true hwait.1.2]⟩

/-! ### The changes of a view -/

/-- What the changed documents of the cache make of a view: with a limit one may have to look at all
matching documents of the cache. -/
def View.refilledChanges (view : View q) (executed changes : MaybeDocumentMap κ δ) :
    Option (ViewDocumentChanges q) :=
  (view.computeDocumentChanges changes none).bind fun viewDocChanges =>
    if viewDocChanges.needsRefill then view.computeDocumentChanges executed (some viewDocChanges)
    else some viewDocChanges

section FirstLook

variable {view : View q} {changes : MaybeDocumentMap κ δ} {documentSet : DocumentSet q}
  {cached cached' : κ → Option (δ × DocumentState)}

/-- What becomes of the documents reflects the changed cache. -/
theorem reflects_outcomeOf (hchanged : ChangedTo q changes cached cached')
    (h : ∀ k, Reflects (view.documentSet.lookup k) (cached k))
    (hmutated : Mutated view.documentSet view.mutatedKeys)
    (hset : ∀ k, documentSet.lookup k =
      outcomeOf q view.mutatedKeys changes k (view.documentSet.lookup k)) (k : κ) :
    Reflects (documentSet.lookup k) (cached' k) := by
  rw [hset, outcomeOf, hchanged k]
  cases hdoc : changes.lookup k with
  | none =>
      rw [if_neg (AList.lookup_eq_none.1 hdoc)]
      exact h k
  | some doc =>
      rw [if_pos (AList.lookup_isSome.1 (by rw [hdoc]; rfl))]
      refine reflects_outcome fun d _ hd _ _ hkey => ?_
      obtain ⟨old, hold, hlocal⟩ := (hmutated k).1 hkey
      exact Option.some.inj (hold.symm.trans hd) ▸ hlocal

/-- The collection whose first documents a view shows after some documents have changed: what
becomes of those, and the others as before. -/
def seenAfter (documentSet : DocumentSet q) (changes : MaybeDocumentMap κ δ)
    (seen : κ → Option δ) (k : κ) : Option δ :=
  if k ∈ changes then documentSet.values k else seen k

/-- If no document lets one in that was behind the limit, what becomes of the first documents are
the first documents again. -/
theorem isTop_outcomeOf {seen : κ → Option δ} (htop : IsTop view.documentSet q.limit seen)
    (hset : ∀ k, documentSet.lookup k =
      outcomeOf q view.mutatedKeys changes k (view.documentSet.lookup k))
    (hnone : NoneLeaves view.documentSet view.mutatedKeys changes) :
    IsTop (documentSet.cut q.limit) q.limit (seenAfter documentSet changes seen) := by
  have hother (k : κ) (hk : k ∉ changes) : documentSet.values k = view.documentSet.values k := by
    rw [RankedSet.values, hset, outcomeOf, AList.lookup_eq_none.2 hk, RankedSet.values]
  refine htop.update (fun k d hd => ?_) (fun k d hd => ?_) (fun hfull x hx => ?_)
  · rw [seenAfter]
    split
    · exact hd
    · next hk => exact htop.sound k d ((hother k hk).symm.trans hd)
  · rw [seenAfter] at hd
    split at hd
    · exact Or.inl hd
    · next hk =>
        rw [hother k hk]
        cases hvalue : view.documentSet.values k with
        | none => exact Or.inr ⟨hd, rfl⟩
        | some d' => exact Or.inl ((htop.sound k d' hvalue).symm.trans hd)
  · have hlookup : view.documentSet.lookup x.key = some x :=
      RankedSet.lookup_key (R := q.comparator) hx
    have hlookup' := hset x.key
    rw [hlookup, outcomeOf] at hlookup'
    have hstays (y : Document κ δ) (hdata : y.data ≈ x.data)
        (hy : documentSet.lookup x.key = some y) :
        ∃ d, documentSet.values x.key = some d ∧
          ∃ last ∈ view.documentSet.items, q.le (x.key, d) (last.key, last.data) = true := by
      refine ⟨y.data, values_of_lookup hy, x, hx, ?_⟩
      rw [q.le_congr (x.key, y.data) (x.key, x.data) x.data x.data hdata (Setoid.refl x.data)]
      exact q.comparator.le_refl (x.key, x.data)
    cases hchanged : changes.lookup x.key with
    | none => exact hstays x (Setoid.refl x.data) (by rw [hlookup', hchanged])
    | some doc =>
        rw [hchanged] at hlookup'
        simp only [outcome] at hlookup'
        cases hchange : calculateChange view.mutatedKeys x.key (some x)
            (doc.document?.filter q.Matches) with
        | none => exact hstays x (Setoid.refl x.data) (by rw [hlookup', hchange])
        | some change =>
            rw [hchange] at hlookup'
            have hleaves := hnone x.key doc hchanged change (hlookup.symm ▸ hchange)
            obtain ⟨last, hget⟩ : ∃ last, view.documentSet.items.getLast? = some last :=
              ⟨_, List.getLast?_eq_getLast_of_ne_nil (List.ne_nil_of_mem hx)⟩
            have hlast : lastDocInLimit view.documentSet = some last := (if_pos hfull).trans hget
            have hfits := calculateChange_fits hchange
            generalize doc.document?.filter q.Matches = newDoc at hfits hlookup'
            cases hfits with
            | modified _ d' =>
                have hkey : d'.key = x.key :=
                  RankedSet.key_of_lookup (R := q.comparator) hlookup'
                rw [leavesLimit, hlast, Option.any_some, Bool.not_eq_false', hkey] at hleaves
                exact ⟨d'.data, values_of_lookup hlookup', last, List.mem_of_getLast? hget, hleaves⟩
            | metadata _ d' hdata => exact hstays d' hdata hlookup'
            | removed _ =>
                rw [leavesLimit, hlast] at hleaves
                exact absurd hleaves (by simp)

/-- The collection that these are the first documents of is right for the changed cache. -/
theorem seenAfter_eq (hchanged : ChangedTo q changes cached cached') {seen : κ → Option δ}
    (hset : ∀ k, documentSet.lookup k =
      outcomeOf q view.mutatedKeys changes k (view.documentSet.lookup k))
    (hseen : ∀ k, SameData (seen k) (cached k) ∨ Awaited (cached k)) (k : κ) :
    SameData (seenAfter documentSet changes seen k) (cached' k) ∨ Awaited (cached' k) := by
  rw [seenAfter, hchanged k]
  split
  · next hk =>
      obtain ⟨doc, hdoc⟩ := Option.isSome_iff_exists.1 (AList.lookup_isSome.2 hk)
      have hvalues : documentSet.values k = (outcome view.mutatedKeys k
          (view.documentSet.lookup k) (doc.document?.filter q.Matches)).map Document.data := by
        rw [RankedSet.values, hset, outcomeOf, hdoc]
        rfl
      rw [hvalues, hdoc]
      exact outcome_data _ _ _ _
  · exact hseen k

end FirstLook

section SecondLook

variable {view : View q} {executed : MaybeDocumentMap κ δ} {documentSet documentSet' : DocumentSet q}
  {cached : κ → Option (δ × DocumentState)}

/-- A second look, at all matching documents, changes no data of a document that reflects the cache:
so no document of a view leaves it or moves. -/
theorem noneLeaves_executed (hexecuted : Executes q executed cached)
    (h : ∀ k, Reflects (documentSet.lookup k) (cached k)) :
    NoneLeaves documentSet view.mutatedKeys executed := by
  intro k doc hdoc change hchange
  have hmatching := hexecuted.matching_eq k
  have hsome := hexecuted.isSome k doc hdoc
  rw [← hmatching, hdoc, matching, Option.bind_some, Option.isSome_map] at hsome
  obtain ⟨d', hd'⟩ := Option.isSome_iff_exists.1 hsome
  rw [hdoc, matching, Option.bind_some, hd', Option.map_some] at hmatching
  rw [hd'] at hchange
  cases hold : documentSet.lookup k with
  | none =>
      rw [hold] at hchange
      obtain rfl := Option.some.inj hchange
      rfl
  | some d =>
      obtain ⟨c, hc, hsame, -⟩ := h k d hold
      obtain rfl := Option.some.inj (hmatching.trans hc)
      rw [hold] at hchange
      unfold calculateChange at hchange
      simp only at hchange
      split_ifs at hchange with hdata hpending hwait
      · obtain rfl := Option.some.inj hchange
        rfl
      · obtain ⟨hlocal, hcommitted⟩ := hsame.resolve_left hdata
        have hstate : d'.documentState = .committedMutations := hcommitted
        rw [shouldWaitForSyncedDocument, hlocal, Document.hasCommittedMutations,
          Document.hasLocalMutations, hstate] at hwait
        exact absurd rfl hwait

/-- What a second look makes of the documents are all matching documents of the cache. -/
theorem values_executed (hexecuted : Executes q executed cached)
    (h : ∀ k, Reflects (documentSet.lookup k) (cached k))
    (hset : ∀ k, documentSet'.lookup k =
      outcomeOf q view.mutatedKeys executed k (documentSet.lookup k)) (k : κ) :
    SameData (documentSet'.values k) (cached k) ∨ Awaited (cached k) := by
  rw [RankedSet.values, hset, outcomeOf]
  have hmatching := hexecuted.matching_eq k
  cases hdoc : executed.lookup k with
  | none =>
      have hno : cached k = none := by
        rw [← hmatching, hdoc]
        rfl
      cases hold : documentSet.lookup k with
      | none =>
          rw [hno]
          exact Or.inl .none
      | some d =>
          obtain ⟨c, hc, -⟩ := h k d hold
          rw [hno] at hc
          exact absurd hc (by simp)
  | some doc =>
      rw [← hmatching, hdoc]
      exact outcome_data _ _ _ _

/-- They reflect the cache. -/
theorem reflects_executed (hexecuted : Executes q executed cached)
    (h : ∀ k, Reflects (documentSet.lookup k) (cached k))
    (hset : ∀ k, documentSet'.lookup k =
      outcomeOf q view.mutatedKeys executed k (documentSet.lookup k)) (k : κ) :
    Reflects (documentSet'.lookup k) (cached k) := by
  rw [hset, outcomeOf]
  cases hdoc : executed.lookup k with
  | none => exact h k
  | some doc =>
      rw [← hexecuted.matching_eq k, hdoc]
      refine reflects_outcome fun d d' hd hd' hlocal _ => ?_
      obtain ⟨c, hc, -, hstate⟩ := h k d hd
      rw [← hexecuted.matching_eq k, hdoc] at hc
      change Option.map _ (Option.filter _ doc.document?) = some c at hc
      rw [hd'] at hc
      obtain rfl := Option.some.inj hc
      exact hstate (of_decide_eq_true hlocal)

end SecondLook

/-- **When a query is listened to**, the view takes all matching documents of the cache, and need not
look at them again. -/
theorem View.initial_spec (remoteDocuments : Finset κ) {executed : MaybeDocumentMap κ δ}
    {cached : κ → Option (δ × DocumentState)} (hexecuted : Executes q executed cached) :
    ∃ viewDocChanges,
      (View.init q remoteDocuments).computeDocumentChanges executed none = some viewDocChanges ∧
      viewDocChanges.needsRefill = false ∧ DocumentsInv viewDocChanges.documentSet cached ∧
      ChangesInv (View.init q remoteDocuments).documentSet.lookup viewDocChanges := by
  have hmutated : Mutated (View.init q remoteDocuments).documentSet
      (View.init q remoteDocuments).mutatedKeys := fun k => by
    constructor
    · exact fun hk => absurd hk (Finset.notMem_empty k)
    · rintro ⟨d, hd, -⟩
      cases hd
  obtain ⟨first, hfirst, hinv, ⟨documentSet, hcut, hset⟩, hrefill⟩ :=
    (View.init q remoteDocuments).computeDocumentChanges_spec
      (View.init q remoteDocuments).documentSet.lookup none
      hexecuted.wellKeyed ⟨.refl _, hmutated⟩ (by simp)
  have hreflects : ∀ k, Reflects
      ((View.init q remoteDocuments).documentSet.lookup k) (cached k) := by
    intro k d hd
    cases hd
  refine ⟨first, hfirst, hrefill.2 (noneLeaves_executed hexecuted hreflects),
    ⟨?_, documentSet.values, ?_, ?_⟩, hinv⟩
  · rw [hcut]
    exact reflects_cut (reflects_executed hexecuted hreflects hset)
  · rw [hcut]
    exact isTop_cut_of_values fun _ => rfl
  · exact values_executed hexecuted hreflects hset

/-- **Whatever changes in the cache**, no assertion fails, the invariant holds of the new documents
and the changed cache, and the changes explain them. -/
theorem View.refilledChanges_spec {view : View q} {executed changes : MaybeDocumentMap κ δ}
    {cached cached' : κ → Option (δ × DocumentState)} (h : DocumentsInv view.documentSet cached)
    (hmutated : Mutated view.documentSet view.mutatedKeys) (hchanges : WellKeyed changes)
    (hchanged : ChangedTo q changes cached cached') (hexecuted : Executes q executed cached') :
    ∃ viewDocChanges, view.refilledChanges executed changes = some viewDocChanges ∧
      viewDocChanges.needsRefill = false ∧ DocumentsInv viewDocChanges.documentSet cached' ∧
      ChangesInv view.documentSet.lookup viewDocChanges := by
  obtain ⟨seen, htop, hseen⟩ := h.top
  obtain ⟨first, hfirst, hinv, ⟨documentSet, hcut, hset⟩, hrefill⟩ :=
    view.computeDocumentChanges_spec view.documentSet.lookup none
      hchanges ⟨.refl _, hmutated⟩ (by simp)
  have hreflects : ∀ k, Reflects (first.documentSet.lookup k) (cached' k) := by
    rw [hcut]
    exact reflects_cut (reflects_outcomeOf hchanged h.reflects hmutated hset)
  rw [View.refilledChanges, hfirst, Option.bind_some]
  cases hneeds : first.needsRefill with
  | false =>
      refine ⟨first, by simp, hneeds, ⟨hreflects, seenAfter documentSet changes seen, ?_, ?_⟩, hinv⟩
      · rw [hcut]
        exact isTop_outcomeOf htop hset (hrefill.1 hneeds)
      · exact seenAfter_eq hchanged hset hseen
  | true =>
      have hnone : NoneLeaves (view.startChanges (some first)).documentSet view.mutatedKeys
          executed := noneLeaves_executed hexecuted hreflects
      obtain ⟨second, hsecond, hinv', ⟨documentSet', hcut', hset'⟩, hrefill'⟩ :=
        view.computeDocumentChanges_spec view.documentSet.lookup (some first) hexecuted.wellKeyed
          ⟨hinv.explained, hinv.mutated⟩ fun _ => hnone
      refine ⟨second, by simp [hsecond], hrefill'.2 hnone, ⟨?_, documentSet'.values, ?_, ?_⟩, hinv'⟩
      · rw [hcut']
        exact reflects_cut (reflects_executed hexecuted hreflects hset')
      · rw [hcut']
        exact isTop_cut_of_values fun _ => rfl
      · exact values_executed hexecuted hreflects hset'

end FirestoreClient
