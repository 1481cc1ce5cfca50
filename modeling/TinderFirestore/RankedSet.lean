/-
**The first elements of a changing collection.**

Elements have a key and a value, and are ranked by both.  A ranked set holds elements with distinct
keys in the order of their ranks.  The *top* of a collection of values, one at most for each key, is
the ranked set of its first elements, as many as a limit allows.  When the collection changes, the
new top can be made of the old one alone as long as nothing has left it and nothing has moved behind
what was last; otherwise one has to look at the whole collection again.

Main definitions:

* `Ranked.Ranking` — keys, values, and a total order of them that separates keys;
* `Ranked.RankedSet`, with `lookup`, `insert`, `erase`, `cut` — a ranked set and its operations;
* `Ranked.IsTop` — **the set is the top of a collection.**

Main results:

* `Ranked.IsTop.unique`, `Ranked.IsTop.unique_of_rel` — there is one top, also up to an equivalence
  of values that the order does not tell apart;
* `Ranked.isTop_cut` — **what has to be there for the first elements of a set to be the top**;
* `Ranked.isTop_cut_of_values` — the first elements of the whole collection are;
* `Ranked.IsTop.update` — and those of the updated top are, if nothing has left it or moved behind
  its last element.
-/

import Mathlib.Data.List.Forall2
import Mathlib.Data.List.Sort
import Mathlib.Data.List.Perm.Subperm

set_option relaxedAutoImplicit false
set_option autoImplicit false

namespace Ranked

variable {α κ δ : Type*}

/-! ### Lists -/

/-- If `n` elements of a sorted list satisfy what goes over to smaller elements, the first `n`
do. -/
theorem take_of_countP {r : α → α → Prop} {p : α → Bool} {xs : List α} (hs : xs.Pairwise r)
    (hp : ∀ x y, r x y → p y = true → p x = true) {n : ℕ} (hn : n ≤ xs.countP p) :
    ∀ x ∈ xs.take n, p x = true := by
  induction xs generalizing n with
  | nil => simp
  | cons a xs ih =>
      rw [List.pairwise_cons] at hs
      cases n with
      | zero => simp
      | succ n =>
          have ha : p a = true := by
            by_contra hno
            rw [List.countP_cons_of_neg hno] at hn
            obtain ⟨y, hy, hpy⟩ := List.countP_pos_iff.1 (Nat.lt_of_lt_of_le n.succ_pos hn)
            exact hno (hp a y (hs.1 y hy) hpy)
          rw [List.countP_cons_of_pos ha, Nat.add_le_add_iff_right] at hn
          intro x hx
          rw [List.take_succ_cons] at hx
          rcases List.mem_cons.1 hx with rfl | hx
          · exact ha
          · exact ih hs.2 hn x hx

/-- In a list with distinct keys there is one element to be found for each key. -/
theorem find?_key_eq_some_iff [DecidableEq κ] {f : α → κ} {xs : List α} (h : (xs.map f).Nodup)
    {k : κ} {x : α} : xs.find? (fun y => f y = k) = some x ↔ x ∈ xs ∧ f x = k := by
  constructor
  · intro hfind
    exact ⟨List.mem_of_find?_eq_some hfind, by simpa using List.find?_some hfind⟩
  · rintro ⟨hx, rfl⟩
    obtain ⟨y, hy⟩ : ∃ y, xs.find? (fun y => f y = f x) = some y := by
      rw [← Option.isSome_iff_exists, List.find?_isSome]
      exact ⟨x, hx, decide_eq_true rfl⟩
    have hkey : f y = f x := by simpa using List.find?_some hy
    rw [hy, List.inj_on_of_nodup_map h (List.mem_of_find?_eq_some hy) hx hkey]

/-! ### Ranked sets -/

/-- Keys and values, and their order. -/
structure Ranking (α κ δ : Type*) where
  key : α → κ
  value : α → δ
  le : κ × δ → κ × δ → Bool
  le_total : ∀ a b, le a b = true ∨ le b a = true
  le_trans : ∀ a b c, le a b = true → le b c = true → le a c = true
  /-- The order separates keys. -/
  key_eq : ∀ a b, le a b = true → le b a = true → a.1 = b.1

namespace Ranking

/-- What an element is ranked by. -/
def entry (R : Ranking α κ δ) (x : α) : κ × δ := (R.key x, R.value x)

/-- The element is not behind the other one. -/
def Le (R : Ranking α κ δ) (x y : α) : Prop := R.le (R.entry x) (R.entry y) = true

theorem le_refl (R : Ranking α κ δ) (a : κ × δ) : R.le a a = true := (R.le_total a a).elim id id

instance (R : Ranking α κ δ) : DecidableRel R.Le := fun x y =>
  inferInstanceAs (Decidable (R.le (R.entry x) (R.entry y) = true))

instance (R : Ranking α κ δ) : Std.Total R.Le := ⟨fun x y => R.le_total (R.entry x) (R.entry y)⟩

instance (R : Ranking α κ δ) : IsTrans α R.Le := ⟨fun _ _ _ => R.le_trans _ _ _⟩

end Ranking

/-- Elements with distinct keys, in the order of their ranks. -/
@[ext] structure RankedSet (R : Ranking α κ δ) where
  items : List α
  sorted : items.Pairwise R.Le
  nodup : (items.map R.key).Nodup

namespace RankedSet

variable {R : Ranking α κ δ}

def empty : RankedSet R := { items := [], sorted := List.Pairwise.nil, nodup := List.nodup_nil }

/-- The first `n` elements. -/
def take (s : RankedSet R) (n : ℕ) : RankedSet R where
  items := s.items.take n
  sorted := s.sorted.sublist (List.take_sublist _ _)
  nodup := s.nodup.sublist ((List.take_sublist _ _).map _)

theorem take_take (s : RankedSet R) (n m : ℕ) : (s.take n).take m = s.take (min m n) :=
  RankedSet.ext List.take_take

/-- The first elements, as many as the limit allows. -/
def cut (s : RankedSet R) : Option ℕ → RankedSet R
  | none => s
  | some n => s.take n

theorem mem_of_mem_cut {s : RankedSet R} {limit : Option ℕ} {x : α}
    (h : x ∈ (s.cut limit).items) : x ∈ s.items := by
  cases limit with
  | none => exact h
  | some n => exact List.mem_of_mem_take h

/-- What has been cut off is not before what is left, and then the set is full. -/
theorem le_of_not_mem_cut {s : RankedSet R} {limit : Option ℕ} {x : α} (hx : x ∈ s.items)
    (hno : x ∉ (s.cut limit).items) :
    limit = some (s.cut limit).items.length ∧ ∀ y ∈ (s.cut limit).items, R.Le y x := by
  cases limit with
  | none => exact absurd hx hno
  | some n =>
      have hsplit : s.items = s.items.take n ++ s.items.drop n := (List.take_append_drop _ _).symm
      have hdrop : x ∈ s.items.drop n := by
        rw [hsplit] at hx
        exact (List.mem_append.1 hx).resolve_left hno
      have hlength : n < s.items.length := by
        by_contra hge
        rw [List.drop_eq_nil_of_le (Nat.not_lt.1 hge)] at hdrop
        exact absurd hdrop List.not_mem_nil
      have hsorted := s.sorted
      rw [hsplit, List.pairwise_append] at hsorted
      refine ⟨?_, fun y hy => hsorted.2.2 y hy x hdrop⟩
      rw [cut, take, List.length_take, Nat.min_eq_left hlength.le]

section Keys

variable [DecidableEq κ]

/-- The element with a key. -/
def lookup (s : RankedSet R) (k : κ) : Option α := s.items.find? fun x => R.key x = k

/-- The value under a key. -/
def values (s : RankedSet R) (k : κ) : Option δ := (s.lookup k).map R.value

def erase (s : RankedSet R) (k : κ) : RankedSet R where
  items := s.items.filter fun x => R.key x ≠ k
  sorted := s.sorted.sublist List.filter_sublist
  nodup := s.nodup.sublist (List.filter_sublist.map _)

theorem mem_erase {s : RankedSet R} {k : κ} {x : α} :
    x ∈ (s.erase k).items ↔ x ∈ s.items ∧ R.key x ≠ k := by
  rw [erase, List.mem_filter, decide_eq_true_iff]

/-- The element takes the place of the one with its key. -/
def insert (s : RankedSet R) (x : α) : RankedSet R where
  items := (s.erase (R.key x)).items.orderedInsert R.Le x
  sorted := (s.erase (R.key x)).sorted.orderedInsert x _
  nodup := by
    have hperm := (List.perm_orderedInsert R.Le x (s.erase (R.key x)).items).map R.key
    rw [hperm.nodup_iff, List.map_cons, List.nodup_cons]
    refine ⟨fun hmem => ?_, (s.erase (R.key x)).nodup⟩
    obtain ⟨y, hy, heq⟩ := List.mem_map.1 hmem
    exact (mem_erase.1 hy).2 heq

theorem mem_insert {s : RankedSet R} {x y : α} :
    y ∈ (s.insert x).items ↔ y = x ∨ (y ∈ s.items ∧ R.key y ≠ R.key x) := by
  rw [insert, List.mem_orderedInsert, mem_erase]

theorem lookup_eq_some_iff {s : RankedSet R} {k : κ} {x : α} :
    s.lookup k = some x ↔ x ∈ s.items ∧ R.key x = k :=
  find?_key_eq_some_iff s.nodup

theorem lookup_eq_none_iff {s : RankedSet R} {k : κ} :
    s.lookup k = none ↔ ∀ x ∈ s.items, R.key x ≠ k := by
  rw [lookup, List.find?_eq_none]
  simp only [decide_eq_true_eq, ne_eq]

theorem lookup_key {s : RankedSet R} {x : α} (hx : x ∈ s.items) : s.lookup (R.key x) = some x :=
  lookup_eq_some_iff.2 ⟨hx, rfl⟩

theorem key_of_lookup {s : RankedSet R} {k : κ} {x : α} (h : s.lookup k = some x) : R.key x = k :=
  (lookup_eq_some_iff.1 h).2

theorem lookup_of_cut {s : RankedSet R} {limit : Option ℕ} {k : κ} {x : α}
    (h : (s.cut limit).lookup k = some x) : s.lookup k = some x := by
  obtain ⟨hx, hkey⟩ := lookup_eq_some_iff.1 h
  exact lookup_eq_some_iff.2 ⟨mem_of_mem_cut hx, hkey⟩

theorem lookup_empty (k : κ) : (empty : RankedSet R).lookup k = none := rfl

theorem lookup_erase (s : RankedSet R) (k k' : κ) :
    (s.erase k).lookup k' = if k' = k then none else s.lookup k' := by
  split
  · next h =>
      rw [lookup_eq_none_iff]
      exact fun x hx => h ▸ (mem_erase.1 hx).2
  · next h =>
      refine Option.ext fun x => ?_
      rw [lookup_eq_some_iff, lookup_eq_some_iff, mem_erase]
      constructor
      · rintro ⟨⟨hx, -⟩, hkey⟩
        exact ⟨hx, hkey⟩
      · rintro ⟨hx, rfl⟩
        exact ⟨⟨hx, h⟩, rfl⟩

theorem lookup_insert (s : RankedSet R) (x : α) (k : κ) :
    (s.insert x).lookup k = if k = R.key x then some x else s.lookup k := by
  split
  · next h => exact lookup_eq_some_iff.2 ⟨mem_insert.2 (Or.inl rfl), h.symm⟩
  · next h =>
      refine Option.ext fun y => ?_
      rw [lookup_eq_some_iff, lookup_eq_some_iff, mem_insert]
      constructor
      · rintro ⟨rfl | ⟨hy, -⟩, hkey⟩
        · exact absurd hkey.symm h
        · exact ⟨hy, hkey⟩
      · rintro ⟨hy, rfl⟩
        exact ⟨Or.inr ⟨hy, h⟩, rfl⟩

theorem values_eq_some_iff {s : RankedSet R} {k : κ} {d : δ} :
    s.values k = some d ↔ ∃ x ∈ s.items, R.entry x = (k, d) := by
  rw [values, Option.map_eq_some_iff]
  constructor
  · rintro ⟨x, hx, rfl⟩
    obtain ⟨hmem, rfl⟩ := lookup_eq_some_iff.1 hx
    exact ⟨x, hmem, rfl⟩
  · rintro ⟨x, hx, heq⟩
    obtain ⟨rfl, rfl⟩ := Prod.mk.inj heq
    exact ⟨x, lookup_key hx, rfl⟩

theorem values_key {s : RankedSet R} {x : α} (hx : x ∈ s.items) :
    s.values (R.key x) = some (R.value x) :=
  values_eq_some_iff.2 ⟨x, hx, rfl⟩

/-- Without its last element, a set has all the others. -/
theorem erase_getLast {s : RankedSet R} {x : α} (h : s.items.getLast? = some x) :
    s.erase (R.key x) = s.take (s.items.length - 1) := by
  obtain ⟨ys, hys⟩ := List.getLast?_eq_some_iff.1 h
  have hnodup := s.nodup
  rw [hys, List.map_append, List.map_singleton, List.nodup_append] at hnodup
  have hothers : ∀ y ∈ ys, R.key y ≠ R.key x := fun y hy =>
    hnodup.2.2 _ (List.mem_map_of_mem hy) _ (List.mem_singleton_self _)
  refine RankedSet.ext ?_
  calc (s.erase (R.key x)).items
      = (ys ++ [x]).filter fun y => R.key y ≠ R.key x := by rw [← hys]; rfl
    _ = ys := by
        rw [List.filter_append, List.filter_eq_self.2 (by simpa using hothers),
          List.filter_cons_of_neg (by simp), List.filter_nil, List.append_nil]
    _ = (ys ++ [x]).take ((ys ++ [x]).length - 1) := by simp
    _ = (s.take (s.items.length - 1)).items := by rw [← hys]; rfl

end Keys

end RankedSet

/-! ### The top -/

section Top

variable [DecidableEq κ] {R : Ranking α κ δ}

/-- **The set is the top of a collection** `M`: its elements are there, no more than the limit
allows, and what is there and not among them is behind all of them, in which case they are as many
as the limit allows. -/
structure IsTop (s : RankedSet R) (limit : Option ℕ) (M : κ → Option δ) : Prop where
  bounded : ∀ n, limit = some n → s.items.length ≤ n
  sound : ∀ k d, s.values k = some d → M k = some d
  complete : ∀ k d, M k = some d → s.values k = some d ∨
    (limit = some s.items.length ∧ ∀ x ∈ s.items, R.le (R.entry x) (k, d) = true)

/-- The entries of a top are those of every other one. -/
theorem IsTop.values_of_values {s t : RankedSet R} {limit : Option ℕ} {M : κ → Option δ}
    (hs : IsTop s limit M) (ht : IsTop t limit M) {k : κ} {d : δ} (h : s.values k = some d) :
    t.values k = some d := by
  by_contra hno
  obtain ⟨hfull, hbehind⟩ := (ht.complete k d (hs.sound k d h)).resolve_left hno
  obtain ⟨x, hx, hentry⟩ := RankedSet.values_eq_some_iff.1 h
  have hnew : k ∉ t.items.map R.key := by
    intro hk
    obtain ⟨y, hy, rfl⟩ := List.mem_map.1 hk
    have hval := (ht.sound _ _ (RankedSet.values_key hy)).symm.trans (hs.sound _ _ h)
    exact hno ((RankedSet.values_key hy).trans hval)
  -- `t` is full without `x`, so it has an element that `s` does not have
  have hmissing : ∃ y ∈ t.items, R.key y ∉ s.items.map R.key := by
    by_contra hall
    push Not at hall
    have hsub : (k :: t.items.map R.key) ⊆ s.items.map R.key := by
      intro k' hk'
      rcases List.mem_cons.1 hk' with rfl | hk'
      · exact List.mem_map.2 ⟨x, hx, (Prod.mk.inj hentry).1⟩
      · obtain ⟨y, hy, rfl⟩ := List.mem_map.1 hk'
        exact hall y hy
    have hlength := ((List.nodup_cons.2 ⟨hnew, t.nodup⟩).subperm hsub).length_le
    rw [List.length_cons, List.length_map, List.length_map] at hlength
    have hbound := hs.bounded _ hfull
    omega
  obtain ⟨y, hy, hkey⟩ := hmissing
  have hgone : s.values (R.key y) ≠ some (R.value y) := by
    intro hval
    obtain ⟨z, hz, heq⟩ := RankedSet.values_eq_some_iff.1 hval
    exact hkey (List.mem_map.2 ⟨z, hz, (Prod.mk.inj heq).1⟩)
  obtain ⟨-, hbehind'⟩ :=
    (hs.complete _ _ (ht.sound _ _ (RankedSet.values_key hy))).resolve_left hgone
  -- each of the two is behind the other
  have hsame : R.key y = k := R.key_eq _ _ (hbehind y hy) (hentry ▸ hbehind' x hx)
  exact hnew (List.mem_map.2 ⟨y, hy, hsame⟩)

/-- **There is one top**, as far as keys and values go. -/
theorem IsTop.unique {s t : RankedSet R} {limit : Option ℕ} {M : κ → Option δ}
    (hs : IsTop s limit M) (ht : IsTop t limit M) :
    s.items.map R.entry = t.items.map R.entry := by
  have hmem (s : RankedSet R) (e : κ × δ) : e ∈ s.items.map R.entry ↔ s.values e.1 = some e.2 := by
    rw [RankedSet.values_eq_some_iff, List.mem_map]
  have hnodup (s : RankedSet R) : (s.items.map R.entry).Nodup := by
    refine List.Nodup.of_map Prod.fst ?_
    rw [List.map_map]
    exact s.nodup
  have hperm : (s.items.map R.entry).Perm (t.items.map R.entry) := by
    rw [List.perm_ext_iff_of_nodup (hnodup s) (hnodup t)]
    intro e
    rw [hmem, hmem]
    exact ⟨hs.values_of_values ht, ht.values_of_values hs⟩
  have hsorted (s : RankedSet R) :
      (s.items.map R.entry).Pairwise fun a b => R.le a b = true :=
    List.pairwise_map.2 s.sorted
  refine hperm.eq_of_pairwise (fun a b ha hb hab hba => ?_) (hsorted s) (hsorted t)
  -- entries with the same key are those of one value
  have hkey : a.1 = b.1 := R.key_eq a b hab hba
  have ha' := (hmem s a).1 ha
  have hb' := ht.values_of_values hs ((hmem t b).1 hb)
  rw [← hkey, ha', Option.some_inj] at hb'
  exact Prod.ext hkey hb'

/-- **What has to be there for the first elements of a set to be the top**: if something is not in
the set, as many elements as the limit allows are before it. -/
theorem isTop_cut {s : RankedSet R} {limit : Option ℕ} {M : κ → Option δ}
    (hsound : ∀ k d, s.values k = some d → M k = some d)
    (hmissing : ∀ k d, M k = some d → s.values k ≠ some d →
      ∃ n, limit = some n ∧ n ≤ s.items.countP fun x => R.le (R.entry x) (k, d)) :
    IsTop (s.cut limit) limit M := by
  have hvalues {k : κ} {d : δ} (h : (s.cut limit).values k = some d) : s.values k = some d := by
    obtain ⟨x, hx, hentry⟩ := RankedSet.values_eq_some_iff.1 h
    exact RankedSet.values_eq_some_iff.2 ⟨x, RankedSet.mem_of_mem_cut hx, hentry⟩
  refine ⟨fun n hn => ?_, fun k d h => hsound k d (hvalues h), fun k d h => ?_⟩
  · subst hn
    exact List.length_take_le _ _
  · by_cases hin : s.values k = some d
    · obtain ⟨x, hx, hentry⟩ := RankedSet.values_eq_some_iff.1 hin
      by_cases hcut : x ∈ (s.cut limit).items
      · exact Or.inl (RankedSet.values_eq_some_iff.2 ⟨x, hcut, hentry⟩)
      · obtain ⟨hfull, hbehind⟩ := RankedSet.le_of_not_mem_cut hx hcut
        exact Or.inr ⟨hfull, fun y hy => hentry ▸ hbehind y hy⟩
    · obtain ⟨n, rfl, hcount⟩ := hmissing k d h hin
      refine Or.inr ⟨?_, ?_⟩
      · have hlength : n ≤ s.items.length := hcount.trans List.countP_le_length
        rw [RankedSet.cut, RankedSet.take, List.length_take, Nat.min_eq_left hlength]
      · exact take_of_countP s.sorted (fun x y hxy hy => R.le_trans _ _ _ hxy hy) hcount

/-- **The first elements of the whole collection are its top.** -/
theorem isTop_cut_of_values {s : RankedSet R} {limit : Option ℕ} {M : κ → Option δ}
    (h : ∀ k, s.values k = M k) : IsTop (s.cut limit) limit M := by
  refine isTop_cut (fun k d hd => (h k).symm.trans hd) fun k d hd hno => ?_
  exact absurd ((h k).trans hd) hno

/-- **The first elements of an updated top are the top of the updated collection**, if each value
that is new to the collection is in the set, and if, when the old top was full, none of its elements
has left the set or moved behind what was the last of them. -/
theorem IsTop.update {s s' : RankedSet R} {limit : Option ℕ} {M M' : κ → Option δ}
    (h : IsTop s limit M) (hsound : ∀ k d, s'.values k = some d → M' k = some d)
    (hnew : ∀ k d, M' k = some d → s'.values k = some d ∨ (M k = some d ∧ s.values k = none))
    (hfull : limit = some s.items.length → ∀ x ∈ s.items, ∃ d, s'.values (R.key x) = some d ∧
      ∃ last ∈ s.items, R.le (R.key x, d) (R.entry last) = true) :
    IsTop (s'.cut limit) limit M' := by
  refine isTop_cut hsound fun k d hd hno => ?_
  obtain ⟨hold, hgone⟩ := (hnew k d hd).resolve_left hno
  have hout : s.values k ≠ some d := by
    rw [hgone]
    exact Option.some_ne_none d ∘ Eq.symm
  obtain ⟨hlimit, hbehind⟩ := (h.complete k d hold).resolve_left hout
  refine ⟨_, hlimit, ?_⟩
  -- the keys of the old top are those of elements that are still before the missing one
  have hsub : s.items.map R.key ⊆
      (s'.items.filter fun x => R.le (R.entry x) (k, d)).map R.key := by
    intro k' hk'
    obtain ⟨x, hx, rfl⟩ := List.mem_map.1 hk'
    obtain ⟨d', hd', last, hlast, hle⟩ := hfull hlimit x hx
    obtain ⟨y, hy, hentry⟩ := RankedSet.values_eq_some_iff.1 hd'
    refine List.mem_map.2 ⟨y, List.mem_filter.2 ⟨hy, ?_⟩, (Prod.mk.inj hentry).1⟩
    rw [hentry]
    exact R.le_trans _ _ _ hle (hbehind last hlast)
  have hlength := (s.nodup.subperm hsub).length_le
  rwa [List.length_map, List.length_map, ← List.countP_eq_length_filter] at hlength

end Top

/-! ### Values up to an equivalence -/

section Equivalent

variable [Setoid δ] {R : Ranking α κ δ}

/-- The order does not tell equivalent values apart. -/
def Ranking.Respects (R : Ranking α κ δ) : Prop :=
  ∀ (a b : κ × δ) (d e : δ), a.2 ≈ d → b.2 ≈ e → R.le a b = R.le (a.1, d) (b.1, e)

/-- The same elements, with the classes of their values. -/
def Ranking.classes (R : Ranking α κ δ) (h : R.Respects) : Ranking α κ (Quotient ‹Setoid δ›) where
  key := R.key
  value x := ⟦R.value x⟧
  le a b := Quotient.liftOn₂ a.2 b.2 (fun d e => R.le (a.1, d) (b.1, e))
    fun d e d' e' hd he => h (a.1, d) (b.1, e) d' e' hd he
  le_total a b := by
    obtain ⟨k, d⟩ := a
    obtain ⟨k', d'⟩ := b
    induction d using Quotient.inductionOn
    induction d' using Quotient.inductionOn
    exact R.le_total _ _
  le_trans a b c := by
    obtain ⟨k, d⟩ := a
    obtain ⟨k', d'⟩ := b
    obtain ⟨k'', d''⟩ := c
    induction d using Quotient.inductionOn
    induction d' using Quotient.inductionOn
    induction d'' using Quotient.inductionOn
    exact R.le_trans _ _ _
  key_eq a b := by
    obtain ⟨k, d⟩ := a
    obtain ⟨k', d'⟩ := b
    induction d using Quotient.inductionOn
    induction d' using Quotient.inductionOn
    exact R.key_eq _ _

def RankedSet.classes (s : RankedSet R) (h : R.Respects) : RankedSet (R.classes h) where
  items := s.items
  sorted := s.sorted
  nodup := s.nodup

variable [DecidableEq κ]

theorem RankedSet.values_classes (s : RankedSet R) (h : R.Respects) (k : κ) :
    (s.classes h).values k = (s.values k).map Quotient.mk'' := by
  rw [RankedSet.values, RankedSet.values, Option.map_map]
  rfl

theorem IsTop.classes {s : RankedSet R} {limit : Option ℕ} {M : κ → Option δ}
    (hs : IsTop s limit M) (h : R.Respects) :
    IsTop (s.classes h) limit fun k => (M k).map Quotient.mk'' := by
  refine ⟨hs.bounded, fun k c hc => ?_, fun k c hc => ?_⟩
  · rw [s.values_classes] at hc
    obtain ⟨d, hd, rfl⟩ := Option.map_eq_some_iff.1 hc
    exact congrArg (Option.map _) (hs.sound k d hd)
  · obtain ⟨d, hd, rfl⟩ := Option.map_eq_some_iff.1 hc
    rw [s.values_classes]
    exact (hs.complete k d hd).imp_left fun hvalue => congrArg (Option.map _) hvalue

/-- **There is one top up to an equivalence of values.** -/
theorem IsTop.unique_of_rel {s t : RankedSet R} {limit : Option ℕ} {M N : κ → Option δ}
    (h : R.Respects) (hs : IsTop s limit M) (ht : IsTop t limit N)
    (hMN : ∀ k, Option.Rel (· ≈ ·) (M k) (N k)) :
    List.Forall₂ (fun x y => R.key x = R.key y ∧ R.value x ≈ R.value y) s.items t.items := by
  have hclasses : (fun k => (M k).map Quotient.mk'') = fun k =>
      (N k).map (Quotient.mk'' : δ → Quotient ‹Setoid δ›) := by
    funext k
    have hk := hMN k
    generalize M k = d at hk
    generalize N k = e at hk
    cases hk with
    | some hde => exact congrArg some (Quotient.sound hde)
    | none => rfl
  have hentries := (hclasses ▸ hs.classes h).unique (ht.classes h)
  rw [← List.forall₂_eq_eq_eq, List.forall₂_map_left_iff, List.forall₂_map_right_iff] at hentries
  refine hentries.imp fun x y hxy => ?_
  obtain ⟨hkey, hvalue⟩ := Prod.mk.inj hxy
  exact ⟨hkey, Quotient.exact hvalue⟩

end Equivalent

end Ranked
