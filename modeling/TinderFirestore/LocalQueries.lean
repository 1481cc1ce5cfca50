/-
**Evaluating a query on the local store.**

To evaluate a query, the client does not look at each document of the store.  It takes the cached
documents that the query matches, and the batches of the queue that write documents of the query's
collection.  A cached document that is not matched may be matched after the queued writes: if one of
them is a patch, it needs the cached document, and only then is this fetched.  The queued mutations
are then applied one by one, and what the query does not match any more is thrown out at the end.
Writes have no field transforms here: the evaluation does not apply their base mutations.

Main definitions:

* `FirestoreClient.LocalStore.executeQuery` — the evaluation.

Main results:

* `FirestoreClient.LocalStore.executeQuery_spec` — **the evaluation finds the documents of the query
  that the store shows one by one**.
-/

import TinderFirestore.LocalStore

set_option relaxedAutoImplicit false
set_option autoImplicit false

namespace FirestoreClient

variable {κ υ : Type*}

/-! ### What a query looks at -/

/-- Whether and how a query matches a document does not depend on its version. -/
theorem matching_congr (q : Query κ ObjectValue) {doc doc' : KnownDocument κ}
    (h : SameButVersion doc doc') : matching q doc = matching q doc' := by
  have hmatching (doc : KnownDocument κ) : matching q doc =
      (doc.unversioned.filter fun d => q.isParentOf d.1 && q.accepts d.1 d.2.1).map Prod.snd := by
    unfold matching KnownDocument.unversioned
    change (Option.filter _ doc.document).map _ = _
    cases doc.document with
    | none => rfl
    | some d =>
        rw [Option.map_some, Option.filter_some, Option.filter_some, Query.Matches]
        split <;> rfl
  rw [hmatching, hmatching, show doc.unversioned = doc'.unversioned from h]

/-- A query matches documents of its collection alone. -/
theorem matching_of_not_isParentOf {q : Query κ ObjectValue} {k : κ} (hk : q.isParentOf k = false)
    {doc : KnownDocument κ} (h : KnownUnder k doc) : matching q doc = none := by
  unfold matching
  rw [Option.map_eq_none_iff, Option.filter_eq_none_iff]
  intro d hd
  rw [Query.Matches, h.key_of_document hd, hk, Bool.false_and]
  exact Bool.false_ne_true

/-- What the query does not match may be left out. -/
theorem matching_filter (q : Query κ ObjectValue) (doc : KnownDocument κ) :
    matching q (doc.filter fun known => known.document?.any q.Matches) = matching q doc := by
  cases doc with
  | none => rfl
  | some known =>
      rw [Option.filter_some]
      split
      · rfl
      · next hno =>
          refine Eq.symm (Option.map_eq_none_iff.2 (Option.filter_eq_none_iff.2 ?_))
          intro d hd hmatches
          rw [Option.bind_some] at hd
          rw [hd] at hno
          exact hno hmatches

section Queries

variable [DecidableEq κ]

/-! ### The evaluation -/

/-- The body of the loop of `GetMatching` over the cached documents. -/
def matchDocument (q : Query κ ObjectValue) (results : MaybeDocumentMap κ ObjectValue)
    (kv : Σ _ : κ, MaybeDocument κ ObjectValue) : MaybeDocumentMap κ ObjectValue :=
  match kv.2.document? with
  | some doc => if q.Matches doc then results.insert kv.1 (.document doc) else results
  | none => results

/-- `GetMatching`. -/
def getMatching (q : Query κ ObjectValue) (cache : MaybeDocumentMap κ ObjectValue) :
    MaybeDocumentMap κ ObjectValue :=
  cache.entries.foldl (matchDocument q) ∅

/-- `AllMutationBatchesAffectingQuery`: the batches that write documents of the collection. -/
def matchingBatches (q : Query κ ObjectValue) (queue : List (MutationBatch κ)) :
    List (MutationBatch κ) :=
  queue.filter fun batch => batch.mutations.any fun m => q.isParentOf m.key

/-- The body of the loop of `AddMissingBaseDocuments` over the missing documents. -/
def addBaseDocument (cache existingDocs : MaybeDocumentMap κ ObjectValue) (key : κ) :
    MaybeDocumentMap κ ObjectValue :=
  match KnownDocument.document (cache.lookup key) with
  | some doc => existingDocs.insert key (.document doc)
  | none => existingDocs

/-- `AddMissingBaseDocuments`: patches need the cached document also if the query does not match
it. -/
def addMissingBaseDocuments (cache : MaybeDocumentMap κ ObjectValue) (mutations : List (Mutation κ))
    (existingDocs : MaybeDocumentMap κ ObjectValue) : MaybeDocumentMap κ ObjectValue :=
  ((mutations.filter fun m => m.Patches ∧ m.key ∉ existingDocs).map Mutation.key).dedup.foldl
    (addBaseDocument cache) existingDocs

/-- The body of the loop over the queued mutations: only documents of the collection are
processed, and only existing ones are kept. -/
def applyMutation (q : Query κ ObjectValue) (results : MaybeDocumentMap κ ObjectValue)
    (mutation : Mutation κ) : MaybeDocumentMap κ ObjectValue :=
  if q.isParentOf mutation.key then
    match KnownDocument.document (mutation.applyToLocalView (results.lookup mutation.key)) with
    | some doc => results.insert mutation.key (.document doc)
    | none => results.erase mutation.key
  else results

/-- The body of the last loop. -/
def filterDocument (q : Query κ ObjectValue) (results : MaybeDocumentMap κ ObjectValue)
    (kv : Σ _ : κ, MaybeDocument κ ObjectValue) : MaybeDocumentMap κ ObjectValue :=
  if kv.2.document?.any q.Matches then results else results.erase kv.1

/-- `ExecuteQuery`, for a query of a collection (`GetDocumentsMatchingCollectionQuery`). -/
def LocalStore.executeQuery (s : LocalStore κ υ) (q : Query κ ObjectValue) :
    MaybeDocumentMap κ ObjectValue :=
  let mutations := (matchingBatches q s.mutationQueue.queue).flatMap MutationBatch.mutations
  let results := addMissingBaseDocuments s.remoteDocumentCache mutations
    (getMatching q s.remoteDocumentCache)
  let results := mutations.foldl (applyMutation q) results
  results.entries.foldl (filterDocument q) results

/-! ### Loops over maps -/

/-- A loop over a map whose rounds each concern the entry of their key alone: what it makes of an
entry. -/
theorem lookup_foldl_entries {α β : Type*} {f : (AList fun _ : κ => β) → (Σ _ : κ, α) →
    AList fun _ : κ => β} {g : α → Option β → Option β}
    (hother : ∀ results kv k, k ≠ kv.1 → (f results kv).lookup k = results.lookup k)
    (hround : ∀ results kv, (f results kv).lookup kv.1 = g kv.2 (results.lookup kv.1))
    {entries : List (Σ _ : κ, α)} (hnodup : entries.NodupKeys) (results : AList fun _ : κ => β)
    (k : κ) :
    (entries.foldl f results).lookup k =
      (entries.dlookup k).elim (results.lookup k) fun a => g a (results.lookup k) := by
  induction entries generalizing results with
  | nil => rfl
  | cons kv entries ih =>
      rw [List.nodupKeys_cons] at hnodup
      rw [List.foldl_cons, ih hnodup.2]
      by_cases hk : k = kv.1
      · subst hk
        rw [List.dlookup_eq_none.2 hnodup.1]
        obtain ⟨k, a⟩ := kv
        rw [List.dlookup_cons_eq]
        exact hround results ⟨k, a⟩
      · rw [List.dlookup_cons_ne _ _ hk, hother results kv k hk]

/-! ### What the stages find -/

/-- All entries are documents that exist, under their own keys. -/
def OnlyDocuments (results : MaybeDocumentMap κ ObjectValue) : Prop :=
  ∀ k doc, results.lookup k = some doc → ∃ d, doc = .document d ∧ d.key = k

theorem OnlyDocuments.insert {results : MaybeDocumentMap κ ObjectValue} (h : OnlyDocuments results)
    (d : Document κ ObjectValue) : OnlyDocuments (results.insert d.key (.document d)) := by
  intro k doc hdoc
  rcases eq_or_ne k d.key with rfl | hne
  · rw [AList.lookup_insert] at hdoc
    exact ⟨d, (Option.some.inj hdoc).symm, rfl⟩
  · rw [AList.lookup_insert_ne hne] at hdoc
    exact h k doc hdoc

theorem OnlyDocuments.erase {results : MaybeDocumentMap κ ObjectValue} (h : OnlyDocuments results)
    (key : κ) : OnlyDocuments (results.erase key) := by
  intro k doc hdoc
  rcases eq_or_ne k key with rfl | hne
  · rw [AList.lookup_erase] at hdoc
    exact absurd hdoc (by simp)
  · rw [AList.lookup_erase_ne hne] at hdoc
    exact h k doc hdoc

/-- `GetMatching` finds the cached documents that the query matches. -/
theorem lookup_getMatching (q : Query κ ObjectValue) (cache : MaybeDocumentMap κ ObjectValue)
    (k : κ) : (getMatching q cache).lookup k =
      ((KnownDocument.document (cache.lookup k)).filter q.Matches).map .document := by
  have hother (results : MaybeDocumentMap κ ObjectValue) (kv : Σ _ : κ, MaybeDocument κ ObjectValue)
      (k : κ) (hk : k ≠ kv.1) : (matchDocument q results kv).lookup k = results.lookup k := by
    unfold matchDocument
    split
    · split
      · exact AList.lookup_insert_ne hk
      · rfl
    · rfl
  have hround (results : MaybeDocumentMap κ ObjectValue)
      (kv : Σ _ : κ, MaybeDocument κ ObjectValue) : (matchDocument q results kv).lookup kv.1 =
        ((kv.2.document?.filter q.Matches).map MaybeDocument.document).or
          (results.lookup kv.1) := by
    unfold matchDocument
    cases kv.2.document? with
    | none => rfl
    | some doc =>
        rw [Option.filter_some]
        by_cases hmatches : q.Matches doc = true
        · simp [hmatches]
        · simp [hmatches]
  have hloop := lookup_foldl_entries hother
    (g := fun doc old => ((doc.document?.filter q.Matches).map MaybeDocument.document).or old)
    hround cache.nodupKeys ∅ k
  rw [getMatching, hloop, AList.lookup_empty]
  change (cache.lookup k).elim none _ = _
  cases cache.lookup k with
  | none => rfl
  | some doc => exact Option.or_none

/-- `AddMissingBaseDocuments` adds the cached documents that are patched, and no others. -/
theorem lookup_addMissingBaseDocuments {cache : MaybeDocumentMap κ ObjectValue}
    {mutations : List (Mutation κ)} {existingDocs : MaybeDocumentMap κ ObjectValue} (k : κ) :
    (addMissingBaseDocuments cache mutations existingDocs).lookup k =
      if k ∉ existingDocs ∧ ∃ m ∈ mutations, m.Patches ∧ m.key = k then
        (KnownDocument.document (cache.lookup k)).map .document
      else existingDocs.lookup k := by
  -- the induction is on the missing documents
  have hloop (keys : List κ) (hnodup : keys.Nodup) (docs : MaybeDocumentMap κ ObjectValue)
      (hmissing : ∀ key ∈ keys, key ∉ docs) : (keys.foldl (addBaseDocument cache) docs).lookup k =
        if k ∈ keys then (KnownDocument.document (cache.lookup k)).map .document
        else docs.lookup k := by
    induction keys generalizing docs with
    | nil => rfl
    | cons key keys ih =>
        rw [List.nodup_cons] at hnodup
        have hother (k' : κ) (hk' : k' ≠ key) :
            (addBaseDocument cache docs key).lookup k' = docs.lookup k' := by
          unfold addBaseDocument
          split
          · exact AList.lookup_insert_ne hk'
          · rfl
        rw [List.foldl_cons, ih hnodup.2]
        · by_cases hk : k = key
          · subst hk
            rw [if_neg hnodup.1, if_pos List.mem_cons_self, addBaseDocument]
            cases KnownDocument.document (cache.lookup k) with
            | none => exact AList.lookup_eq_none.2 (hmissing k List.mem_cons_self)
            | some doc => exact AList.lookup_insert _
          · rw [hother k hk]
            simp only [List.mem_cons, hk, false_or]
        · intro key' hkey'
          have hne : key' ≠ key := fun heq => hnodup.1 (heq ▸ hkey')
          rw [← AList.lookup_eq_none, hother key' hne, AList.lookup_eq_none]
          exact hmissing key' (List.mem_cons_of_mem _ hkey')
  have hmem (key : κ) : key ∈ ((mutations.filter fun m => m.Patches ∧ m.key ∉ existingDocs).map
      Mutation.key).dedup ↔ key ∉ existingDocs ∧ ∃ m ∈ mutations, m.Patches ∧ m.key = key := by
    rw [List.mem_dedup, List.mem_map]
    constructor
    · rintro ⟨m, hm, rfl⟩
      rw [List.mem_filter, decide_eq_true_iff] at hm
      exact ⟨hm.2.2, m, hm.1, hm.2.1, rfl⟩
    · rintro ⟨hnot, m, hm, hpatches, rfl⟩
      exact ⟨m, List.mem_filter.2 ⟨hm, decide_eq_true ⟨hpatches, hnot⟩⟩, rfl⟩
  rw [addMissingBaseDocuments, hloop _ (List.nodup_dedup _) _ fun key hkey => ((hmem key).1 hkey).1]
  simp only [hmem]

/-- The last loop throws out what the query does not match. -/
theorem lookup_foldl_filterDocument (q : Query κ ObjectValue)
    (results : MaybeDocumentMap κ ObjectValue) (k : κ) :
    (results.entries.foldl (filterDocument q) results).lookup k =
      (results.lookup k).filter fun doc => doc.document?.any q.Matches := by
  have hother (results : MaybeDocumentMap κ ObjectValue) (kv : Σ _ : κ, MaybeDocument κ ObjectValue)
      (k : κ) (hk : k ≠ kv.1) : (filterDocument q results kv).lookup k = results.lookup k := by
    unfold filterDocument
    split
    · rfl
    · exact AList.lookup_erase_ne hk
  have hround (results : MaybeDocumentMap κ ObjectValue)
      (kv : Σ _ : κ, MaybeDocument κ ObjectValue) : (filterDocument q results kv).lookup kv.1 =
        if kv.2.document?.any q.Matches then results.lookup kv.1 else none := by
    unfold filterDocument
    split
    · rfl
    · exact AList.lookup_erase _ _
  have hloop := lookup_foldl_entries hother
    (g := fun doc old => if doc.document?.any q.Matches then old else none)
    hround results.nodupKeys results k
  rw [hloop]
  change (results.lookup k).elim (results.lookup k) _ = _
  cases results.lookup k with
  | none => rfl
  | some doc =>
      rw [Option.filter_some]
      rfl

/-! ### What the mutations make of the found documents -/

/-- One round of the loop over the queued mutations concerns the document of the mutation. -/
theorem applyMutation_spec {q : Query κ ObjectValue} {results : MaybeDocumentMap κ ObjectValue}
    (h : OnlyDocuments results) (mutation : Mutation κ) :
    OnlyDocuments (applyMutation q results mutation) ∧ ∀ k, q.isParentOf k = true →
      SameDocument ((applyMutation q results mutation).lookup k)
        (if mutation.key = k then mutation.applyToLocalView (results.lookup k)
          else results.lookup k) := by
  have hunder : KnownUnder mutation.key
      (mutation.applyToLocalView (results.lookup mutation.key)) :=
    mutation.applyToLocalView_key fun doc hdoc => by
      obtain ⟨d, rfl, hd⟩ := h mutation.key doc hdoc
      exact hd
  unfold applyMutation
  split
  · cases hdoc : KnownDocument.document
      (mutation.applyToLocalView (results.lookup mutation.key)) with
    | none =>
        refine ⟨h.erase _, fun k _ => ?_⟩
        simp only
        split
        · next hkey =>
            subst hkey
            rw [AList.lookup_erase]
            exact hdoc.symm
        · next hkey =>
            rw [AList.lookup_erase_ne (Ne.symm hkey)]
            rfl
    | some d =>
        have hd : d.key = mutation.key := hunder.key_of_document hdoc
        refine ⟨hd ▸ h.insert d, fun k _ => ?_⟩
        simp only
        split
        · next hkey =>
            subst hkey
            rw [AList.lookup_insert]
            exact hdoc.symm
        · next hkey =>
            rw [AList.lookup_insert_ne (Ne.symm hkey)]
            rfl
  · next hno =>
      refine ⟨h, fun k hk => ?_⟩
      have hne : mutation.key ≠ k := fun heq => hno (heq ▸ hk)
      rw [if_neg hne]
      rfl

/-- **The loop over the queued mutations** makes of a document of the collection what the mutations
make of it. -/
theorem foldl_applyMutation (q : Query κ ObjectValue) (mutations : List (Mutation κ))
    {results : MaybeDocumentMap κ ObjectValue} (h : OnlyDocuments results) :
    OnlyDocuments (mutations.foldl (applyMutation q) results) ∧ ∀ k, q.isParentOf k = true →
      SameDocument ((mutations.foldl (applyMutation q) results).lookup k)
        (applyAll mutations k (results.lookup k)) := by
  induction mutations generalizing results with
  | nil => exact ⟨h, fun _ _ => rfl⟩
  | cons mutation mutations ih =>
      obtain ⟨honly₁, hsame₁⟩ := applyMutation_spec (q := q) h mutation
      obtain ⟨honly, hsame⟩ := ih honly₁
      refine ⟨honly, fun k hk => ?_⟩
      rw [List.foldl_cons]
      exact (hsame k hk).trans (applyAll_congr mutations k (hsame₁ k hk))

/-! ### What the evaluation finds -/

/-- **The base documents suffice**: the queued mutations make the same of a document of the
collection, up to its version, whether it is looked up or found by the first two stages. -/
theorem matching_applyAll_base {q : Query κ ObjectValue} {cache : MaybeDocumentMap κ ObjectValue}
    {mutations : List (Mutation κ)} (hplain : ∀ m ∈ mutations, m.Plain) (k : κ) :
    matching q (applyAll mutations k
      ((addMissingBaseDocuments cache mutations (getMatching q cache)).lookup k)) =
      matching q (applyAll mutations k (cache.lookup k)) := by
  -- the found document is the cached one, or the mutations do not need it
  have hsame (hbase : SameDocument
      ((addMissingBaseDocuments cache mutations (getMatching q cache)).lookup k)
      (cache.lookup k)) : matching q (applyAll mutations k
        ((addMissingBaseDocuments cache mutations (getMatching q cache)).lookup k)) =
        matching q (applyAll mutations k (cache.lookup k)) :=
    matching_congr q (applyAll_congr mutations k hbase).sameButVersion
  cases hcached : KnownDocument.document (cache.lookup k) with
  | none =>
      refine hsame ?_
      unfold SameDocument
      rw [hcached, lookup_addMissingBaseDocuments, lookup_getMatching, hcached]
      split <;> rfl
  | some d =>
      by_cases hmatches : q.Matches d = true
      · refine hsame ?_
        unfold SameDocument
        rw [hcached, lookup_addMissingBaseDocuments, lookup_getMatching, hcached,
          Option.filter_some, if_pos hmatches]
        split <;> rfl
      · have hfound : (getMatching q cache).lookup k = none := by
          rw [lookup_getMatching, hcached, Option.filter_some, if_neg hmatches]
          rfl
        by_cases hpatches : ∃ m ∈ mutations, m.Patches ∧ m.key = k
        · refine hsame ?_
          unfold SameDocument
          rw [hcached, lookup_addMissingBaseDocuments, hcached,
            if_pos ⟨AList.lookup_eq_none.1 hfound, hpatches⟩]
          rfl
        · have hnone : ∀ m ∈ mutations, m.key = k → ¬ m.Patches :=
            fun m hm hkey hp => hpatches ⟨m, hm, hp, hkey⟩
          by_cases hwrites : ∃ m ∈ mutations, m.key = k
          · exact matching_congr q (applyAll_resets hplain hnone hwrites _ _)
          · have hnot : ∀ m ∈ mutations, m.key ≠ k := fun m hm hkey => hwrites ⟨m, hm, hkey⟩
            rw [applyAll_of_not_affects hnot, applyAll_of_not_affects hnot,
              lookup_addMissingBaseDocuments, if_neg fun h => hpatches h.2, hfound]
            change none = (Option.filter _ (KnownDocument.document (cache.lookup k))).map _
            rw [hcached, Option.filter_some, if_neg hmatches]
            rfl

namespace LocalStore

variable {s : LocalStore κ υ}

/-- What the query finds in the store, looking at each document. -/
def cached (s : LocalStore κ υ) (q : Query κ ObjectValue) (k : κ) :
    Option (ObjectValue × DocumentState) :=
  matching q (s.getDocument k)

/-- What an operation returns tells a query what has changed for it. -/
theorem Reports.changedTo {s' : LocalStore κ υ} {changes : MaybeDocumentMap κ ObjectValue}
    (h : Reports s s' changes) (q : Query κ ObjectValue) :
    ChangedTo q changes (s.cached q) (s'.cached q) := by
  intro k
  unfold cached
  split
  · next hk => exact (matching_congr q (h.changed k hk).sameButVersion).symm
  · next hk => exact matching_congr q (h.unchanged k hk).sameButVersion

/-- The found documents are existing ones, under their own keys. -/
theorem Inv.onlyDocuments (h : s.Inv) (q : Query κ ObjectValue) (mutations : List (Mutation κ)) :
    OnlyDocuments (addMissingBaseDocuments s.remoteDocumentCache mutations
      (getMatching q s.remoteDocumentCache)) := by
  intro k doc hdoc
  rw [lookup_addMissingBaseDocuments, lookup_getMatching] at hdoc
  split at hdoc
  · obtain ⟨d, hd, rfl⟩ := Option.map_eq_some_iff.1 hdoc
    exact ⟨d, rfl, (h.knownUnder k).key_of_document hd⟩
  · obtain ⟨d, hd, rfl⟩ := Option.map_eq_some_iff.1 hdoc
    exact ⟨d, rfl, (h.knownUnder k).key_of_document (Option.filter_eq_some_iff.1 hd).1⟩

/-- **The evaluation of a query agrees with looking at each document of the store.** -/
theorem executeQuery_spec (h : s.Inv) (q : Query κ ObjectValue) :
    Executes q (s.executeQuery q) (s.cached q) := by
  set mutations := (matchingBatches q s.mutationQueue.queue).flatMap MutationBatch.mutations
    with hmutations
  have hplain : ∀ m ∈ mutations, m.Plain := by
    intro m hm
    obtain ⟨batch, hbatch, hm⟩ := List.mem_flatMap.1 hm
    exact h.plain s.currentUser m
      (List.mem_flatMap.2 ⟨batch, (List.mem_filter.1 hbatch).1, hm⟩)
  set results := mutations.foldl (applyMutation q)
    (addMissingBaseDocuments s.remoteDocumentCache mutations
      (getMatching q s.remoteDocumentCache)) with hresults
  obtain ⟨honly, hsame⟩ := foldl_applyMutation q mutations
    (h.onlyDocuments q mutations)
  have hlookup (k : κ) : (s.executeQuery q).lookup k =
      (results.lookup k).filter fun doc => doc.document?.any q.Matches :=
    lookup_foldl_filterDocument q results k
  have hfilter (k : κ) :
      matching q ((s.executeQuery q).lookup k) = matching q (results.lookup k) := by
    rw [hlookup]
    exact matching_filter q _
  have hmatching (k : κ) : matching q ((s.executeQuery q).lookup k) =
      matching q (s.getDocument k) := by
    rw [hfilter]
    cases hk : q.isParentOf k with
    | false =>
        have hunder : KnownUnder k (s.getDocument k) :=
          s.getDocument_eq k ▸ applyAll_key (h.knownUnder k)
        rw [matching_of_not_isParentOf hk hunder, matching_of_not_isParentOf hk]
        intro doc hdoc
        obtain ⟨d, rfl, hd⟩ := honly k doc hdoc
        exact hd
    | true =>
        rw [matching_congr q (hsame k hk).sameButVersion, matching_applyAll_base hplain,
          getDocument_eq, hmutations, matchingBatches, applyAll_filter]
        · rfl
        · rintro batch - ⟨m, hm, rfl⟩
          exact List.any_eq_true.2 ⟨m, hm, hk⟩
  have hfound (k : κ) (doc : MaybeDocument κ ObjectValue)
      (hdoc : (s.executeQuery q).lookup k = some doc) :
      ∃ d, doc = .document d ∧ d.key = k ∧ q.Matches d = true := by
    rw [hlookup, Option.filter_eq_some_iff] at hdoc
    obtain ⟨d, rfl, hd⟩ := honly k doc hdoc.1
    exact ⟨d, rfl, hd, hdoc.2⟩
  refine ⟨fun k doc hdoc => ?_, hmatching, fun k doc hdoc => ?_⟩
  · obtain ⟨d, rfl, hd, -⟩ := hfound k doc hdoc
    exact hd
  · obtain ⟨d, rfl, -, hmatches⟩ := hfound k doc hdoc
    rw [cached, ← hmatching, hdoc]
    change (Option.map _ (Option.filter _ (some d))).isSome = true
    rw [Option.filter_some, if_pos hmatches]
    rfl

end LocalStore

end Queries

end FirestoreClient
