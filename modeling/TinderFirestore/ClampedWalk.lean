/-
**Walks between two bounds.**

A walk adds one step after the other and is put back between its bounds after each of them, so where
it ends depends on the order of the steps and not on their sum alone.

* `Clamped.clamp` — the nearest value between two bounds;
* `Clamped.walk` — the walk;
* `Clamped.walk_mem` — **a walk stays between its bounds**;
* `Clamped.walk_le_walk` — **the walk with the greater steps stays ahead**;
* `Clamped.clamp_of_le`, `Clamped.clamp_of_ge` — on the side where a value cannot be too far out,
  one comparison is enough.
-/

import Mathlib.Algebra.Order.Group.Defs

set_option relaxedAutoImplicit false
set_option autoImplicit false

namespace Clamped

variable {α : Type*} [LinearOrder α]

/-- The value between `lo` and `hi` that is nearest to `x`. -/
def clamp (lo hi x : α) : α := max lo (min hi x)

theorem clamp_mem {lo hi : α} (h : lo ≤ hi) (x : α) : lo ≤ clamp lo hi x ∧ clamp lo hi x ≤ hi :=
  ⟨le_max_left _ _, max_le h (min_le_left _ _)⟩

/-- A value that is not too small has to be compared with the upper bound only. -/
theorem clamp_of_le {lo hi x : α} (h : lo ≤ hi) (hx : lo ≤ x) : clamp lo hi x = min hi x :=
  max_eq_right (le_min h hx)

/-- A value that is not too great has to be compared with the lower bound only. -/
theorem clamp_of_ge {lo hi x : α} (hx : x ≤ hi) : clamp lo hi x = max lo x := by
  rw [clamp, min_eq_right hx]

theorem clamp_mono (lo hi : α) {x y : α} (h : x ≤ y) : clamp lo hi x ≤ clamp lo hi y :=
  max_le_max_left lo (min_le_min_left hi h)

variable [Add α]

/-- The walk from `i`, put back between `lo` and `hi` after each step. -/
def walk (lo hi : α) : α → List α → α
  | i, [] => i
  | i, d :: ds => walk lo hi (clamp lo hi (i + d)) ds

@[simp] theorem walk_nil (lo hi i : α) : walk lo hi i [] = i := rfl

theorem walk_cons (lo hi i d : α) (ds : List α) :
    walk lo hi i (d :: ds) = walk lo hi (clamp lo hi (i + d)) ds := rfl

/-- **A walk stays between its bounds.** -/
theorem walk_mem {lo hi i : α} (hmem : lo ≤ i ∧ i ≤ hi) (ds : List α) :
    lo ≤ walk lo hi i ds ∧ walk lo hi i ds ≤ hi := by
  have hle : lo ≤ hi := hmem.1.trans hmem.2
  induction ds generalizing i with
  | nil => exact hmem
  | cons d ds ih => exact ih (clamp_mem hle (i + d))

theorem walk_concat (lo hi i d : α) (ds : List α) :
    walk lo hi i (ds ++ [d]) = clamp lo hi (walk lo hi i ds + d) := by
  induction ds generalizing i with
  | nil => rfl
  | cons e ds ih => exact ih (clamp lo hi (i + e))

section Monotone

variable [AddLeftMono α] [AddRightMono α]

/-- **The walk with the greater steps stays ahead.** -/
theorem walk_le_walk {β : Type*} {f g : β → α} (hfg : ∀ b, f b ≤ g b) (lo hi : α) {i j : α}
    (hij : i ≤ j) (bs : List β) : walk lo hi i (bs.map f) ≤ walk lo hi j (bs.map g) := by
  induction bs generalizing i j with
  | nil => exact hij
  | cons b bs ih => exact ih (clamp_mono lo hi (add_le_add hij (hfg b)))

end Monotone

end Clamped
