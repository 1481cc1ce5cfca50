/-
**Constraints between views.**

The helpers of the app tie the edges of a view to those of its superview, or of the safe area of its
superview.  They do nothing for a view without a superview.  Each constraint they make is activated
at once, and nobody keeps it, so that what is active only grows.

The model follows the extension of `UIView`.  A constraint that is made twice is active twice.

* `AutoLayout.Hierarchy` — the views and the constraints that are active;
* `AutoLayout.Hierarchy.constraintToSuperviewWith`,
  `AutoLayout.Hierarchy.constraintToSuperviewSafeAreaWith` — the helpers;
* `AutoLayout.Hierarchy.Attached` — the active constraints relate a view to its superview or to
  nothing, and `AutoLayout.Hierarchy.Attached.constrainEdges`, **a helper keeps that**;
* `AutoLayout.Hierarchy.constrainEdges_activeConstraints` — **what a helper adds.**
-/

import Mathlib.Data.Rat.Defs
import Mathlib.Logic.Function.Basic

set_option relaxedAutoImplicit false
set_option autoImplicit false

namespace AutoLayout

variable {View : Type*}

/-! ### Constraints -/

/-- What an anchor stands for. -/
inductive Attribute
  | leading
  | trailing
  | top
  | bottom
  | centerX
  | centerY
  | width
  | height
  deriving DecidableEq

/-- What has anchors: a view, or the `safeAreaLayoutGuide` of a view. -/
inductive Item (View : Type*)
  | view (v : View)
  | safeAreaLayoutGuide (v : View)
  deriving DecidableEq

/-- The view of an item. -/
def Item.owner : Item View → View
  | .view v => v
  | .safeAreaLayoutGuide v => v

/-- An anchor of a view is equal to another one, up to a constant, or to the constant alone. -/
structure NSLayoutConstraint (View : Type*) where
  firstItem : View
  firstAttribute : Attribute
  secondAnchor : Option (Item View × Attribute)
  constant : ℚ
  deriving DecidableEq

/-- `v.anchor.constraint(equalTo: w.anchor)`. -/
def NSLayoutConstraint.equalTo (v w : View) (anchor : Attribute) : NSLayoutConstraint View where
  firstItem := v
  firstAttribute := anchor
  secondAnchor := some (.view w, anchor)
  constant := 0

/-- `v.anchor.constraint(equalToConstant: constant)`. -/
def NSLayoutConstraint.equalToConstant (v : View) (anchor : Attribute) (constant : ℚ) :
    NSLayoutConstraint View where
  firstItem := v
  firstAttribute := anchor
  secondAnchor := none
  constant := constant

/-- The views of a screen and the constraints that are active, the latest one last. -/
structure Hierarchy (View : Type*) where
  superview : View → Option View
  translatesAutoresizingMaskIntoConstraints : View → Bool
  activeConstraints : List (NSLayoutConstraint View)

namespace Hierarchy

/-- `isActive = true`, for a constraint that has just been made. -/
def activate (h : Hierarchy View) (c : NSLayoutConstraint View) : Hierarchy View :=
  { h with activeConstraints := h.activeConstraints ++ [c] }

section Helpers

variable [DecidableEq View]

/-- `view.addSubview(v)`. -/
def addSubview (h : Hierarchy View) (view v : View) : Hierarchy View :=
  { h with superview := Function.update h.superview v (some view) }

/-- The constraint on one edge, if its constant is given. -/
def constrainEdge (h : Hierarchy View) (v : View) (item : Item View) (edge : Attribute) :
    Option ℚ → Hierarchy View
  | none => h
  | some constant =>
    h.activate
      { firstItem := v
        firstAttribute := edge
        secondAnchor := some (item, edge)
        constant := constant }

/-- Ties the edges of a view to those of its superview, or of a part of it. -/
def constrainEdges (h : Hierarchy View) (v : View) (part : View → Item View)
    (l r t b : Option ℚ) : Hierarchy View :=
  match h.superview v with
  -- `guard let superview = superview else { return }`
  | none => h
  | some superview =>
    let h₁ := { h with
      translatesAutoresizingMaskIntoConstraints :=
        Function.update h.translatesAutoresizingMaskIntoConstraints v false }
    h₁.constrainEdge v (part superview) .leading l
      |>.constrainEdge v (part superview) .trailing r
      |>.constrainEdge v (part superview) .bottom b
      |>.constrainEdge v (part superview) .top t

def constraintToSuperviewWith (h : Hierarchy View) (v : View) (l r t b : Option ℚ) :
    Hierarchy View :=
  h.constrainEdges v .view l r t b

def constraintToSuperviewSafeAreaWith (h : Hierarchy View) (v : View) (l r t b : Option ℚ) :
    Hierarchy View :=
  h.constrainEdges v .safeAreaLayoutGuide l r t b

end Helpers

/-! ### What the helpers add -/

/-- The constraint of `constrainEdge`. -/
def edgeConstraint (v : View) (item : Item View) (edge : Attribute) (constant : Option ℚ) :
    List (NSLayoutConstraint View) :=
  (constant.map fun k => NSLayoutConstraint.mk v edge (some (item, edge)) k).toList

/-- The constraints of `constrainEdges`. -/
def edgeConstraints (v : View) (item : Item View) (l r t b : Option ℚ) :
    List (NSLayoutConstraint View) :=
  edgeConstraint v item .leading l ++ edgeConstraint v item .trailing r ++
    edgeConstraint v item .bottom b ++ edgeConstraint v item .top t

section Activate

variable (h : Hierarchy View) (c : NSLayoutConstraint View)

@[simp] theorem activate_superview : (h.activate c).superview = h.superview := rfl

@[simp] theorem activate_activeConstraints :
    (h.activate c).activeConstraints = h.activeConstraints ++ [c] := rfl

end Activate

section Edges

variable (h : Hierarchy View) (v : View) (item : Item View) (edge : Attribute)

@[simp] theorem constrainEdge_superview (constant : Option ℚ) :
    (h.constrainEdge v item edge constant).superview = h.superview := by
  cases constant with
  | none => rfl
  | some k => rfl

@[simp] theorem constrainEdge_activeConstraints (constant : Option ℚ) :
    (h.constrainEdge v item edge constant).activeConstraints =
      h.activeConstraints ++ edgeConstraint v item edge constant := by
  cases constant with
  | none => exact (List.append_nil _).symm
  | some k => rfl

variable [DecidableEq View] (part : View → Item View) (l r t b : Option ℚ)

@[simp] theorem constrainEdges_superview :
    (h.constrainEdges v part l r t b).superview = h.superview := by
  rw [constrainEdges]
  split
  · rfl
  · simp only [constrainEdge_superview]

/-- **What a helper adds**, for a view that has a superview. -/
theorem constrainEdges_activeConstraints {superview : View} (hv : h.superview v = some superview) :
    (h.constrainEdges v part l r t b).activeConstraints =
      h.activeConstraints ++ edgeConstraints v (part superview) l r t b := by
  rw [constrainEdges, hv]
  simp only [constrainEdge_activeConstraints, edgeConstraints, List.append_assoc]

end Edges

/-! ### What is active -/

/-- Every active constraint relates a view to its superview, or to nothing.  So the views that it
relates have an ancestor in common, without which it could not have been activated. -/
def Attached (h : Hierarchy View) : Prop :=
  ∀ c ∈ h.activeConstraints, ∀ item edge, c.secondAnchor = some (item, edge) →
    h.superview c.firstItem = some item.owner

section Attached

variable {h : Hierarchy View}

theorem Attached.activate {c : NSLayoutConstraint View} (hattached : h.Attached)
    (hc : ∀ item edge, c.secondAnchor = some (item, edge) →
      h.superview c.firstItem = some item.owner) : (h.activate c).Attached := by
  intro d hd item edge hanchor
  rw [activate_activeConstraints, List.mem_append, List.mem_singleton] at hd
  rw [activate_superview]
  rcases hd with hd | rfl
  · exact hattached d hd item edge hanchor
  · exact hc item edge hanchor

theorem Attached.activate_equalTo {v w : View} (hattached : h.Attached)
    (hv : h.superview v = some w) (anchor : Attribute) :
    (h.activate (.equalTo v w anchor)).Attached := by
  refine hattached.activate fun item edge hanchor => ?_
  obtain ⟨rfl, -⟩ := Prod.mk.inj (Option.some_inj.1 hanchor)
  exact hv

theorem Attached.activate_equalToConstant (hattached : h.Attached) (v : View) (anchor : Attribute)
    (constant : ℚ) : (h.activate (.equalToConstant v anchor constant)).Attached :=
  hattached.activate fun _ _ hanchor => absurd hanchor (Option.some_ne_none _).symm

theorem Attached.constrainEdge {v : View} {item : Item View} (hattached : h.Attached)
    (hv : h.superview v = some item.owner) (edge : Attribute) (constant : Option ℚ) :
    (h.constrainEdge v item edge constant).Attached := by
  cases constant with
  | none => exact hattached
  | some k =>
      refine hattached.activate fun item' edge' hanchor => ?_
      obtain ⟨rfl, -⟩ := Prod.mk.inj (Option.some_inj.1 hanchor)
      exact hv

/-- **A helper keeps that.** -/
theorem Attached.constrainEdges [DecidableEq View] (hattached : h.Attached) (v : View)
    {part : View → Item View} (hpart : ∀ w, (part w).owner = w) (l r t b : Option ℚ) :
    (h.constrainEdges v part l r t b).Attached := by
  rw [Hierarchy.constrainEdges]
  split
  · exact hattached
  · next superview hv =>
      have howner : h.superview v = some (part superview).owner := by rw [hpart, hv]
      have hplain : Attached { h with
          translatesAutoresizingMaskIntoConstraints :=
            Function.update h.translatesAutoresizingMaskIntoConstraints v false } := hattached
      have hleading := hplain.constrainEdge howner .leading l
      have htrailing := hleading.constrainEdge (by rwa [constrainEdge_superview]) .trailing r
      have hbottom := htrailing.constrainEdge
        (by rwa [constrainEdge_superview, constrainEdge_superview]) .bottom b
      exact hbottom.constrainEdge
        (by rwa [constrainEdge_superview, constrainEdge_superview, constrainEdge_superview]) .top t

end Attached

end Hierarchy

end AutoLayout
