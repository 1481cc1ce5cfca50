/-
**Keyset pagination.**

A collection whose documents carry a key in a linear order is read a page at a time: a page is
the first few documents, in ascending order of their keys, among those whose key lies strictly
above a cursor, and the cursor for the next page is the last key of this one.  The collection may
change between two pages, so what a sequence of pages covers has to be said with some care: a key
that was in the collection at every page and that the cursor has passed has been listed.

Main definitions:

* `Keyset.keyed`, `Keyset.page` — the documents that have a key, and the page after a cursor;
* `Keyset.IsPage` — what a page of a set of keys is, without an algorithm;
* `Keyset.nextCursor` — the cursor after a page;
* `Keyset.Swept` — what has been listed so far, when the keys of the set `S` were in the
  collection at every page.

Main results:

* `Keyset.isPage_page` — the computed page is a page of the keys, if no two documents share one;
* `Keyset.Swept.append` — **a page extends a sweep**: nothing is repeated and nothing is skipped;
* `Keyset.Swept.mem_of_short` — after a page that was not full, everything has been listed;
* `Keyset.not_nodup_append` — listing a non-empty page again repeats a key.
-/

import Mathlib.Data.List.Sort
import Mathlib.Data.Set.Basic

set_option relaxedAutoImplicit false
set_option autoImplicit false

namespace Keyset

variable {α δ : Type*} [LinearOrder α]

/-! ### The page after a cursor -/

/-- The documents that have a key, each with it. -/
def keyed (key : δ → Option α) (docs : List δ) : List (α × δ) :=
  docs.filterMap fun d => (key d).map fun k => (k, d)

omit [LinearOrder α] in
theorem mem_keyed {key : δ → Option α} {docs : List δ} {x : α × δ} :
    x ∈ keyed key docs ↔ x.2 ∈ docs ∧ key x.2 = some x.1 := by
  simp only [keyed, List.mem_filterMap, Option.map_eq_some_iff]
  constructor
  · rintro ⟨d, hd, k, hk, rfl⟩
    exact ⟨hd, hk⟩
  · rintro ⟨hd, hk⟩
    exact ⟨x.2, hd, x.1, hk, rfl⟩

/-- The documents with a key above the cursor, in ascending order of their keys. -/
def above (key : δ → Option α) (c : α) (docs : List δ) : List (α × δ) :=
  ((keyed key docs).filter fun x => c < x.1).insertionSort fun x y => x.1 ≤ y.1

/-- **The page after a cursor**: the first `n` documents with a key above it. -/
def page (key : δ → Option α) (n : ℕ) (c : α) (docs : List δ) : List (α × δ) :=
  (above key c docs).take n

theorem mem_above {key : δ → Option α} {c : α} {docs : List δ} {x : α × δ} :
    x ∈ above key c docs ↔ x ∈ keyed key docs ∧ c < x.1 := by
  simp [above]

theorem mem_keyed_of_mem_page {key : δ → Option α} {n : ℕ} {c : α} {docs : List δ} {x : α × δ}
    (h : x ∈ page key n c docs) : x ∈ keyed key docs :=
  (mem_above.1 (List.mem_of_mem_take h)).1

/-- If no two documents share a key, the keys above the cursor come strictly ascending. -/
theorem above_sortedLT {key : δ → Option α} {docs : List δ}
    (hkeys : ((keyed key docs).map Prod.fst).Nodup) (c : α) :
    ((above key c docs).map Prod.fst).SortedLT := by
  have hle : ((above key c docs).map Prod.fst).Pairwise (· ≤ ·) := by
    rw [List.pairwise_map]
    have : IsTrans (α × δ) fun x y => x.1 ≤ y.1 := ⟨fun _ _ _ => le_trans⟩
    have : Std.Total fun (x y : α × δ) => x.1 ≤ y.1 := ⟨fun x y => le_total x.1 y.1⟩
    exact List.pairwise_insertionSort _ _
  have hnodup : ((above key c docs).map Prod.fst).Nodup := by
    have hperm := (List.perm_insertionSort (fun (x y : α × δ) => x.1 ≤ y.1)
      ((keyed key docs).filter fun x => c < x.1)).map Prod.fst
    exact hperm.nodup_iff.2 (hkeys.sublist (List.filter_sublist.map _))
  rw [List.sortedLT_iff_pairwise]
  exact (hle.and hnodup).imp fun h => lt_of_le_of_ne h.1 h.2

/-! ### What a page is -/

/-- `p` is a page of at most `n` keys of the set `T` after the cursor `c`: ascending keys of `T`
above `c`, and a key above `c` that is not listed comes after a full page. -/
structure IsPage (n : ℕ) (T : Set α) (c : α) (p : List α) : Prop where
  /-- The keys come strictly ascending. -/
  sortedLT : p.SortedLT
  /-- Every listed key is in the set and above the cursor. -/
  mem : ∀ a ∈ p, a ∈ T ∧ c < a
  /-- Only a full page leaves a key above the cursor out, and then a larger one. -/
  complete : ∀ a ∈ T, c < a → a ∈ p ∨ (p.length = n ∧ ∀ b ∈ p, b < a)

/-- **The computed page is a page.** -/
theorem isPage_page {key : δ → Option α} {docs : List δ}
    (hkeys : ((keyed key docs).map Prod.fst).Nodup) (n : ℕ) (c : α) :
    IsPage n {a | a ∈ (keyed key docs).map Prod.fst} c ((page key n c docs).map Prod.fst) := by
  have hsorted := above_sortedLT hkeys c
  refine ⟨?_, ?_, ?_⟩
  · rw [List.sortedLT_iff_pairwise] at hsorted ⊢
    exact hsorted.sublist ((List.take_sublist n _).map _)
  · intro a ha
    obtain ⟨x, hx, rfl⟩ := List.mem_map.1 ha
    obtain ⟨hxk, hcx⟩ := mem_above.1 (List.mem_of_mem_take hx)
    exact ⟨List.mem_map_of_mem hxk, hcx⟩
  · intro a ha hca
    obtain ⟨x, hx, rfl⟩ := List.mem_map.1 ha
    have hxa : x ∈ above key c docs := mem_above.2 ⟨hx, hca⟩
    -- the keys above the cursor are those of the page followed by those left out
    have hsplit : (above key c docs).map Prod.fst =
        (page key n c docs).map Prod.fst ++ ((above key c docs).drop n).map Prod.fst := by
      rw [page, ← List.map_append, List.take_append_drop]
    rw [← List.take_append_drop n (above key c docs)] at hxa
    rcases List.mem_append.1 hxa with hxt | hxd
    · exact Or.inl (List.mem_map_of_mem hxt)
    · right
      constructor
      · have : n ≤ (above key c docs).length := by
          by_contra hlt
          rw [List.drop_eq_nil_of_le (by omega)] at hxd
          exact List.not_mem_nil hxd
        simp [page, this]
      · intro b hb
        rw [hsplit, List.sortedLT_iff_pairwise] at hsorted
        exact (List.pairwise_append.1 hsorted).2.2 b hb x.1 (List.mem_map_of_mem hxd)

/-! ### The cursor -/

/-- The cursor after a page: its last key, or the cursor itself if the page is empty. -/
def nextCursor (c : α) (p : List α) : α := p.getLast?.getD c

omit [LinearOrder α] in
@[simp] theorem nextCursor_nil (c : α) : nextCursor c [] = c := rfl

omit [LinearOrder α] in
theorem nextCursor_mem {c : α} {p : List α} (hp : p ≠ []) : nextCursor c p ∈ p := by
  rw [nextCursor, List.getLast?_eq_some_getLast hp]
  exact List.getLast_mem hp

omit [LinearOrder α] in
/-- The cursor after two pages. -/
theorem nextCursor_append (c : α) (p q : List α) :
    nextCursor c (p ++ q) = nextCursor (nextCursor c p) q := by
  rcases eq_or_ne q [] with rfl | hq
  · simp
  · simp [nextCursor, List.getLast?_append, List.getLast?_eq_some_getLast hq]

theorem IsPage.le_nextCursor {n : ℕ} {T : Set α} {c : α} {p : List α} (h : IsPage n T c p) :
    c ≤ nextCursor c p := by
  rcases eq_or_ne p [] with rfl | hp
  · exact le_refl c
  · exact (h.mem _ (nextCursor_mem hp)).2.le

/-- Every key of a page is at most the next cursor. -/
theorem IsPage.mem_le {n : ℕ} {T : Set α} {c : α} {p : List α} (h : IsPage n T c p) {a : α}
    (ha : a ∈ p) : a ≤ nextCursor c p := by
  have hp : p ≠ [] := List.ne_nil_of_mem ha
  rw [nextCursor, List.getLast?_eq_some_getLast hp, Option.getD_some]
  have hsorted := h.sortedLT.sortedLE
  rw [List.sortedLE_iff_pairwise] at hsorted
  rw [← List.dropLast_append_getLast hp] at ha hsorted
  rcases List.mem_append.1 ha with ha | ha
  · exact (List.pairwise_append.1 hsorted).2.2 a ha _ (List.mem_singleton_self _)
  · exact (List.mem_singleton.1 ha).le

/-! ### Sweeping a collection that changes -/

/-- What a sequence of pages from the cursor `c₀` has listed when it has come to the cursor `c`,
for a set `S` of keys that were in the collection at every page. -/
structure Swept (c₀ : α) (S : Set α) (acc : List α) (c : α) : Prop where
  /-- The listed keys come strictly ascending, so none is repeated. -/
  sortedLT : acc.SortedLT
  /-- The listed keys lie above the first cursor and up to the present one. -/
  mem_le : ∀ a ∈ acc, c₀ < a ∧ a ≤ c
  /-- The cursor has not moved back. -/
  start_le : c₀ ≤ c
  /-- A key that was always there and that the cursor has passed has been listed. -/
  complete : ∀ a ∈ S, c₀ < a → a ≤ c → a ∈ acc

theorem Swept.start (c₀ : α) (S : Set α) : Swept c₀ S [] c₀ :=
  ⟨by simp [List.sortedLT_iff_pairwise], by simp, le_refl c₀,
    fun _ _ hlt hle => absurd (lt_of_lt_of_le hlt hle) (lt_irrefl _)⟩

/-- **A page extends a sweep.** -/
theorem Swept.append {c₀ : α} {S T : Set α} {acc : List α} {c : α} {n : ℕ} {p : List α}
    (h : Swept c₀ S acc c) (hp : IsPage n T c p) :
    Swept c₀ (S ∩ T) (acc ++ p) (nextCursor c p) := by
  refine ⟨?_, ?_, h.start_le.trans hp.le_nextCursor, ?_⟩
  · have h₁ := h.sortedLT
    have h₂ := hp.sortedLT
    rw [List.sortedLT_iff_pairwise] at h₁ h₂ ⊢
    exact List.pairwise_append.2 ⟨h₁, h₂, fun a ha b hb =>
      lt_of_le_of_lt (h.mem_le a ha).2 (hp.mem b hb).2⟩
  · intro a ha
    rcases List.mem_append.1 ha with ha | ha
    · exact ⟨(h.mem_le a ha).1, (h.mem_le a ha).2.trans hp.le_nextCursor⟩
    · exact ⟨lt_of_le_of_lt h.start_le (hp.mem a ha).2, hp.mem_le ha⟩
  · rintro a ⟨haS, haT⟩ hlt hle
    rcases le_or_gt a c with hac | hca
    · exact List.mem_append_left _ (h.complete a haS hlt hac)
    · refine List.mem_append_right _ ((hp.complete a haT hca).resolve_right ?_)
      rintro ⟨-, hall⟩
      -- an unlisted key would lie above the last key of the page, that is above the cursor
      rcases eq_or_ne p [] with rfl | hne
      · exact absurd (lt_of_lt_of_le hca hle) (lt_irrefl _)
      · exact absurd (lt_of_lt_of_le (hall _ (nextCursor_mem hne)) hle) (lt_irrefl _)

/-- After a page that was not full, every key that was always there has been listed. -/
theorem Swept.mem_of_short {c₀ : α} {S T : Set α} {acc : List α} {c : α} {n : ℕ} {p : List α}
    (h : Swept c₀ S acc c) (hp : IsPage n T c p) (hlen : p.length < n) {a : α}
    (ha : a ∈ S ∩ T) (hlt : c₀ < a) : a ∈ acc ++ p := by
  rcases le_or_gt a c with hac | hca
  · exact List.mem_append_left _ (h.complete a ha.1 hlt hac)
  · refine List.mem_append_right _ ((hp.complete a ha.2 hca).resolve_right ?_)
    rintro ⟨hfull, -⟩
    omega

omit [LinearOrder α] in
/-- Listing a non-empty page again repeats a key. -/
theorem not_nodup_append {acc p : List α} (hp : p ≠ []) (hsub : p ⊆ acc) :
    ¬ (acc ++ p).Nodup := by
  obtain ⟨a, ha⟩ := List.exists_mem_of_ne_nil p hp
  intro hnodup
  exact (List.disjoint_of_nodup_append hnodup) (hsub ha) ha

end Keyset
