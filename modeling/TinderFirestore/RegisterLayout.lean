/-
**The layout of the registration screen.**

The screen is laid out when it is loaded, and once more whenever its trait collection changes.  In a
compact height the photo stands beside the form and has a fixed width; otherwise it stands above the
form and has a fixed height.  The axis of the stack is set to what the size class asks for.  The
constraints are new ones each time, and those of the last time stay active.  So a screen that has
been turned has a photo of a fixed width and of a fixed height, whichever way it is held.

The model follows `setupViews`, `setupLayout`, `viewDidLoad` and `traitCollectionDidChange` of
`RegistrationViewController`.  The constraints that a stack view makes for its own arranged subviews
are left out.

* `Register.Layout.setupLayout` — one layout of the screen;
* `Register.Layout.History`, `Register.Layout.History.layout` — **the size classes that the screen
  has had**, and what it looks like after them;
* `Register.Layout.SameLayout` — the same constraints and the same axis;
* `Register.Layout.LayoutInv` — what a layout adds to the ones before;
* `Register.Layout.History.sameLayout_iff` — which histories leave the same layout;
* `Register.Layout.layout_of_current_iff` — **when the layout is that of the current size class.**
-/

import TinderFirestore.AutoLayout

set_option relaxedAutoImplicit false
set_option autoImplicit false

namespace Register.Layout

open AutoLayout Hierarchy

/-! ### The screen -/

/-- `UIUserInterfaceSizeClass`. -/
inductive SizeClass
  | unspecified
  | compact
  | regular
  deriving DecidableEq

/-- `NSLayoutConstraint.Axis`. -/
inductive Axis
  | horizontal
  | vertical
  deriving DecidableEq

/-- The view of the controller and the ones that it lays out in it. -/
inductive View
  | view
  | overallStackView
  | photo
  | logintBtn
  deriving DecidableEq

/-- The views of `RegistrationViewController`, and the axis of the `overallStackView`. -/
structure RegistrationViewController where
  views : Hierarchy View
  axis : Axis

/-- The controller before its view is loaded.  The photo is an arranged subview of the stack. -/
def RegistrationViewController.init : RegistrationViewController where
  views :=
    { superview := fun
        | .photo => some .overallStackView
        | _ => none
      translatesAutoresizingMaskIntoConstraints := fun
        | .view => true
        | _ => false
      activeConstraints := [] }
  axis := .vertical

def setupViews (s : RegistrationViewController) : RegistrationViewController :=
  { s with views := (s.views.addSubview .view .overallStackView).addSubview .view .logintBtn }

def setupLayout (s : RegistrationViewController) (verticalSizeClass : SizeClass) :
    RegistrationViewController :=
  let views := s.views.constraintToSuperviewSafeAreaWith .logintBtn none none none (some 0)
    |>.activate (.equalTo .logintBtn .view .centerX)
    |>.activate (.equalToConstant .logintBtn .height 40)
    |>.constraintToSuperviewWith .overallStackView (some 40) (some (-40)) none none
    |>.activate (.equalTo .overallStackView .view .centerY)
  match verticalSizeClass with
  | .compact =>
    { views := views.activate (.equalToConstant .photo .width 275), axis := .horizontal }
  -- `.regular` falls through to `default`
  | .regular | .unspecified =>
    { views := views.activate (.equalToConstant .photo .height 275), axis := .vertical }

/-- `viewDidLoad`, in a vertical size class. -/
def viewDidLoad (verticalSizeClass : SizeClass) : RegistrationViewController :=
  setupLayout (setupViews .init) verticalSizeClass

/-- `traitCollectionDidChange`, to a vertical size class. -/
def traitCollectionDidChange (s : RegistrationViewController) (verticalSizeClass : SizeClass) :
    RegistrationViewController :=
  setupLayout s verticalSizeClass

/-! ### Histories -/

/-- The vertical size classes of a screen: the one in which it was loaded, and the one after each
change of its trait collection.  A change may leave the vertical size class as it is. -/
structure History where
  loaded : SizeClass
  changes : List SizeClass

namespace History

/-- A screen that has been laid out a single time. -/
def once (c : SizeClass) : History := { loaded := c, changes := [] }

/-- All the size classes of a history. -/
def classes (h : History) : List SizeClass := h.loaded :: h.changes

/-- The size class at the end of a history. -/
def current (h : History) : SizeClass := h.changes.getLastD h.loaded

/-- **The screen at the end of a history.** -/
def layout (h : History) : RegistrationViewController :=
  h.changes.foldl traitCollectionDidChange (viewDidLoad h.loaded)

end History

/-- The same constraints are active, however often, and the axis is the same. -/
structure SameLayout (s t : RegistrationViewController) : Prop where
  active : ∀ c, c ∈ s.views.activeConstraints ↔ c ∈ t.views.activeConstraints
  axis : s.axis = t.axis

/-- The switch over the size class takes the same branch. -/
def Alike (c d : SizeClass) : Prop := c = .compact ↔ d = .compact

instance (c d : SizeClass) : Decidable (Alike c d) :=
  inferInstanceAs (Decidable (c = .compact ↔ d = .compact))

/-- The screen has been laid out in the other branch than the one of its current size class. -/
def History.Turned (h : History) : Prop := ∃ c ∈ h.classes, ¬ Alike c h.current

instance (h : History) : Decidable h.Turned :=
  inferInstanceAs (Decidable (∃ c ∈ h.classes, ¬ Alike c h.current))

/-! ### What a layout adds -/

/-- The part of a layout that does not depend on the size class. -/
def layoutBoth (views : Hierarchy View) : Hierarchy View :=
  views.constraintToSuperviewSafeAreaWith .logintBtn none none none (some 0)
    |>.activate (.equalTo .logintBtn .view .centerX)
    |>.activate (.equalToConstant .logintBtn .height 40)
    |>.constraintToSuperviewWith .overallStackView (some 40) (some (-40)) none none
    |>.activate (.equalTo .overallStackView .view .centerY)

/-- The axis that a layout sets. -/
def axisFor : SizeClass → Axis
  | .compact => .horizontal
  | .regular | .unspecified => .vertical

/-- The constraint on the photo that a layout adds. -/
def photoConstraint : SizeClass → NSLayoutConstraint View
  | .compact => .equalToConstant .photo .width 275
  | .regular | .unspecified => .equalToConstant .photo .height 275

/-- The constraints that a layout adds. -/
def constraintsFor (c : SizeClass) : List (NSLayoutConstraint View) :=
  [{ firstItem := .logintBtn
     firstAttribute := .bottom
     secondAnchor := some (.safeAreaLayoutGuide .view, .bottom)
     constant := 0 },
   .equalTo .logintBtn .view .centerX,
   .equalToConstant .logintBtn .height 40,
   { firstItem := .overallStackView
     firstAttribute := .leading
     secondAnchor := some (.view .view, .leading)
     constant := 40 },
   { firstItem := .overallStackView
     firstAttribute := .trailing
     secondAnchor := some (.view .view, .trailing)
     constant := -40 },
   .equalTo .overallStackView .view .centerY,
   photoConstraint c]

/-- After layouts in the size classes `seen`, the last of them in `current`: the views have their
superviews, and all that has ever been activated is active. -/
structure LayoutInv (seen : List SizeClass) (current : SizeClass) (s : RegistrationViewController) :
    Prop where
  logintBtn : s.views.superview .logintBtn = some .view
  overallStackView : s.views.superview .overallStackView = some .view
  attached : s.views.Attached
  active : s.views.activeConstraints = seen.flatMap constraintsFor
  axis : s.axis = axisFor current

/-- Before the first layout nothing is active. -/
theorem layoutInv_setupViews : LayoutInv [] .unspecified (setupViews .init) where
  logintBtn := rfl
  overallStackView := rfl
  attached := fun _ hc => absurd hc List.not_mem_nil
  active := rfl
  axis := rfl

section Layout

variable {seen : List SizeClass} {current : SizeClass} {s : RegistrationViewController}

theorem setupLayout_eq (s : RegistrationViewController) (c : SizeClass) :
    setupLayout s c =
      { views := (layoutBoth s.views).activate (photoConstraint c), axis := axisFor c } := by
  cases c <;> rfl

@[simp] theorem layoutBoth_superview (views : Hierarchy View) :
    (layoutBoth views).superview = views.superview := by
  simp only [layoutBoth, constraintToSuperviewSafeAreaWith, constraintToSuperviewWith,
    activate_superview, constrainEdges_superview]

/-- The constraints of the button and of the stack come from the helpers and from the anchors that
`setupLayout` takes itself. -/
theorem layoutBoth_activeConstraints (views : Hierarchy View) (c : SizeClass)
    (hlogintBtn : views.superview .logintBtn = some .view)
    (hstack : views.superview .overallStackView = some .view) :
    (layoutBoth views).activeConstraints ++ [photoConstraint c] =
      views.activeConstraints ++ constraintsFor c := by
  have hbtn : (views.constraintToSuperviewSafeAreaWith .logintBtn none none none
      (some 0)).activeConstraints = views.activeConstraints ++
        edgeConstraints .logintBtn (.safeAreaLayoutGuide .view) none none none (some 0) :=
    constrainEdges_activeConstraints _ _ _ _ _ _ _ hlogintBtn
  have hedges (h : Hierarchy View) (hh : h.superview = views.superview) :
      (h.constraintToSuperviewWith .overallStackView (some 40) (some (-40)) none
        none).activeConstraints = h.activeConstraints ++
          edgeConstraints .overallStackView (.view .view) (some 40) (some (-40)) none none :=
    constrainEdges_activeConstraints _ _ _ _ _ _ _ (by rw [hh, hstack])
  rw [layoutBoth, activate_activeConstraints, hedges, activate_activeConstraints,
    activate_activeConstraints, hbtn]
  · simp only [List.append_assoc]
    rfl
  · simp only [constraintToSuperviewSafeAreaWith, activate_superview, constrainEdges_superview]

theorem layoutBoth_attached {views : Hierarchy View} (hattached : views.Attached)
    (hlogintBtn : views.superview .logintBtn = some .view)
    (hstack : views.superview .overallStackView = some .view) : (layoutBoth views).Attached := by
  have hsafeArea (w : View) : (Item.safeAreaLayoutGuide w).owner = w := rfl
  have hview (w : View) : (Item.view w).owner = w := rfl
  have hbottom := hattached.constrainEdges .logintBtn hsafeArea none none none (some 0)
  have hbtn := (hbottom.activate_equalTo (by rw [constrainEdges_superview, hlogintBtn])
    .centerX).activate_equalToConstant .logintBtn .height 40
  have hedges := hbtn.constrainEdges .overallStackView hview (some 40) (some (-40)) none none
  refine hedges.activate_equalTo ?_ .centerY
  simp only [activate_superview, constrainEdges_superview, hstack]

/-- **One more layout adds its constraints to the ones before, and sets its axis.** -/
theorem LayoutInv.setupLayout (h : LayoutInv seen current s) (c : SizeClass) :
    LayoutInv (seen ++ [c]) c (setupLayout s c) := by
  rw [setupLayout_eq]
  constructor
  · rw [activate_superview, layoutBoth_superview, h.logintBtn]
  · rw [activate_superview, layoutBoth_superview, h.overallStackView]
  · refine (layoutBoth_attached h.attached h.logintBtn h.overallStackView).activate ?_
    intro item edge hanchor
    cases c <;> cases hanchor
  · rw [activate_activeConstraints, layoutBoth_activeConstraints _ _ h.logintBtn
      h.overallStackView, h.active, List.flatMap_append, List.flatMap_singleton]
  · rfl

/-- **So do any number of them.** -/
theorem LayoutInv.foldl (h : LayoutInv seen current s) (changes : List SizeClass) :
    LayoutInv (seen ++ changes) (changes.getLastD current)
      (changes.foldl traitCollectionDidChange s) := by
  induction changes generalizing seen current s with
  | nil =>
      rw [List.append_nil]
      exact h
  | cons c changes ih =>
      rw [List.append_cons, List.getLastD_cons]
      exact ih (h.setupLayout c)

theorem History.layoutInv (h : History) : LayoutInv h.classes h.current h.layout :=
  (layoutInv_setupViews.setupLayout h.loaded).foldl h.changes

end Layout

/-! ### Which histories leave the same layout -/

namespace Alike

theorem refl (c : SizeClass) : Alike c c := Iff.rfl

theorem trans {c d e : SizeClass} (hcd : Alike c d) (hde : Alike d e) : Alike c e :=
  Iff.trans hcd hde

/-- There are two branches only. -/
theorem of_not {c d e : SizeClass} (hce : ¬ Alike c e) (hde : ¬ Alike d e) : Alike c d := by
  simp only [Alike] at *
  tauto

end Alike

theorem constraintsFor_congr {c d : SizeClass} (h : Alike c d) :
    constraintsFor c = constraintsFor d := by
  have hphoto : photoConstraint c = photoConstraint d := by
    cases c <;> cases d <;> simp [Alike, photoConstraint] at h ⊢
  rw [constraintsFor, constraintsFor, hphoto]

/-- The constraint on the photo tells the branch. -/
theorem photoConstraint_mem_iff {c d : SizeClass} :
    photoConstraint c ∈ constraintsFor d ↔ Alike c d := by
  constructor
  · intro hmem
    cases c <;> cases d <;>
      simp [constraintsFor, photoConstraint, NSLayoutConstraint.equalTo,
        NSLayoutConstraint.equalToConstant, Alike] at hmem ⊢
  · intro h
    rw [← constraintsFor_congr h, constraintsFor]
    simp only [List.mem_cons, true_or, or_true]

namespace History

/-- What any layout of the history has activated is active at its end. -/
theorem mem_activeConstraints (h : History) (x : NSLayoutConstraint View) :
    x ∈ h.layout.views.activeConstraints ↔ ∃ c ∈ h.classes, x ∈ constraintsFor c := by
  rw [h.layoutInv.active, List.mem_flatMap]

theorem current_mem (h : History) : h.current ∈ h.classes := List.getLastD_mem_cons

/-- What has been seen is the branch of the current size class, and the other one if the screen has
been turned. -/
theorem exists_alike_iff (h : History) (d : SizeClass) :
    (∃ c ∈ h.classes, Alike d c) ↔ Alike d h.current ∨ h.Turned := by
  constructor
  · rintro ⟨c, hc, hdc⟩
    by_cases hcurrent : Alike c h.current
    · exact .inl (hdc.trans hcurrent)
    · exact .inr ⟨c, hc, hcurrent⟩
  · rintro (hcurrent | ⟨c, hc, hother⟩)
    · exact ⟨h.current, h.current_mem, hcurrent⟩
    · -- if `d` is not in the branch of the current size class, it is in that of `c`
      by_cases hcurrent : Alike d h.current
      · exact ⟨h.current, h.current_mem, hcurrent⟩
      · exact ⟨c, hc, .of_not hcurrent hother⟩

theorem Turned.of_alike {h h' : History} (hturned : h.Turned)
    (hseen : ∀ d, Alike d h.current ∨ h.Turned ↔ Alike d h.current ∨ h'.Turned) : h'.Turned := by
  obtain ⟨c, hc, hother⟩ := hturned
  exact ((hseen c).1 (.inr ⟨c, hc, hother⟩)).resolve_left hother

/-- **Two histories with the same end leave the same layout** if the screen has been turned in both
of them or in neither. -/
theorem sameLayout_iff {h h' : History} (hcurrent : h'.current = h.current) :
    SameLayout h.layout h'.layout ↔ (h.Turned ↔ h'.Turned) := by
  constructor
  · intro hsame
    have hseen (d : SizeClass) : Alike d h.current ∨ h.Turned ↔ Alike d h.current ∨ h'.Turned := by
      have hphoto := hsame.active (photoConstraint d)
      simp only [mem_activeConstraints, photoConstraint_mem_iff, exists_alike_iff,
        hcurrent] at hphoto
      exact hphoto
    exact ⟨fun hturned => hturned.of_alike hseen,
      fun hturned => hturned.of_alike fun d => hcurrent.symm ▸ (hseen d).symm⟩
  · intro hturned
    have hseen (d : SizeClass) : (∃ c ∈ h.classes, Alike d c) ↔ ∃ c ∈ h'.classes, Alike d c := by
      rw [exists_alike_iff, exists_alike_iff, hcurrent, hturned]
    refine ⟨fun x => ?_, ?_⟩
    · rw [mem_activeConstraints, mem_activeConstraints]
      constructor
      · rintro ⟨c, hc, hx⟩
        obtain ⟨c', hc', halike⟩ := (hseen c).1 ⟨c, hc, .refl c⟩
        exact ⟨c', hc', constraintsFor_congr halike ▸ hx⟩
      · rintro ⟨c', hc', hx⟩
        obtain ⟨c, hc, halike⟩ := (hseen c').2 ⟨c', hc', .refl c'⟩
        exact ⟨c, hc, constraintsFor_congr halike ▸ hx⟩
    · rw [h.layoutInv.axis, h'.layoutInv.axis, hcurrent]

theorem not_turned_once (c : SizeClass) : ¬ (once c).Turned := by
  rintro ⟨d, hd, hother⟩
  rw [List.mem_singleton.1 hd] at hother
  exact hother (.refl c)

end History

/-- **The layout is that of the current size class** if the screen has not been turned, and not
otherwise.  Two histories that end in the same size class leave the same layout if the screen has
been turned in both of them or in neither. -/
theorem layout_of_current_iff (h : History) :
    (SameLayout h.layout (viewDidLoad h.current) ↔ ¬ h.Turned) ∧
    ∀ h' : History, h'.current = h.current →
      (SameLayout h.layout h'.layout ↔ (h.Turned ↔ h'.Turned)) := by
  constructor
  · have hcurrent : (History.once h.current).current = h.current := rfl
    have honce := History.sameLayout_iff hcurrent
    -- nothing has been turned in a single layout
    rwa [iff_false_right (History.not_turned_once h.current)] at honce
  · exact fun h' hcurrent => History.sameLayout_iff hcurrent

/-- A screen that is loaded upright and has been laid on its side and put up again is laid out like
any other that has. -/
theorem layout_of_current_iff_twice :
    SameLayout (History.layout ⟨.regular, [.compact, .regular]⟩)
        (History.layout ⟨.compact, [.unspecified, .compact, .regular]⟩) ∧
      ¬ SameLayout (History.layout ⟨.regular, [.compact, .regular]⟩) (viewDidLoad .regular) := by
  have hmain := layout_of_current_iff ⟨.regular, [.compact, .regular]⟩
  have hturned : History.Turned ⟨.regular, [.compact, .regular]⟩ := by decide
  have hturned' : History.Turned ⟨.compact, [.unspecified, .compact, .regular]⟩ := by decide
  have hsame := hmain.2 ⟨.compact, [.unspecified, .compact, .regular]⟩ rfl
  exact ⟨hsame.2 (iff_of_true hturned hturned'), fun honce => hmain.1.1 honce hturned⟩

/-- **A screen that is loaded upright and then laid on its side** keeps the height of its photo. -/
theorem not_layout_of_current :
    (NSLayoutConstraint.equalToConstant .photo .height 275 ∈
        (History.layout ⟨.regular, [.compact]⟩).views.activeConstraints ∧
      NSLayoutConstraint.equalToConstant .photo .height 275 ∉
        (viewDidLoad .compact).views.activeConstraints) ∧
      ¬ ∀ h : History, SameLayout h.layout (viewDidLoad h.current) := by
  have hkept : NSLayoutConstraint.equalToConstant .photo .height 275 ∈
      (History.layout ⟨.regular, [.compact]⟩).views.activeConstraints := by decide
  have hsingle : NSLayoutConstraint.equalToConstant .photo .height 275 ∉
      (viewDidLoad .compact).views.activeConstraints := by decide
  exact ⟨⟨hkept, hsingle⟩, fun hsame =>
    hsingle (((hsame ⟨.regular, [.compact]⟩).active _).1 hkept)⟩

end Register.Layout
