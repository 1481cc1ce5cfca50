/-
**A card and its photos.**

Three objects share the photos of a card.  The view model holds the names of the photos and the
index of the selected one, the bar holds a segment for each photo, and the card view wires them: it
fills the bar when it gets its view model, loads the first photo, and observes the index.

The model follows `CardView`, `CardBarView`, `CardInfoView` and `CardViewModel`.  An access to an
array outside of its bounds stops the program; `none` stands for that.

Main definitions:

* `Card.CardBarView.setupLayout`, `Card.CardBarView.updateLayout` — the segments of the bar;
* `Card.CardView`, `Card.CardView.setCardViewModel` — a card view, and what it does when it gets its
  view model;
* `Card.CardView.nextPhoto`, `Card.CardView.previousPhoto`, `Card.CardView.tapHandle` — **the
  switches between the photos.**

Main results:

* `Card.Follows` — the index is in range and the bar shows it, and `Card.Follows.switchPhoto`, **a
  switch keeps that**;
* `Card.photo_navigation_in_range` — **no sequence of switches leaves the bounds.**
-/

import TinderFirestore.ClampedWalk
import TinderFirestore.EventRun
import TinderFirestore.UserProfile
import Mathlib.Data.Rat.Defs
import Mathlib.Tactic.NormNum

set_option relaxedAutoImplicit false
set_option autoImplicit false

namespace Card

open Profile EventRun

variable {Image : Type*}

/-! ### The bar -/

/-- `UIColor(white:alpha:)`. -/
structure UIColor where
  white : ℚ
  alpha : ℚ
  deriving DecidableEq

/-- The background of a segment, and that of the segment of the selected photo. -/
def dimmed : UIColor := { white := 1, alpha := 2 / 5 }
def lit : UIColor := { white := 1, alpha := 1 }

theorem dimmed_ne_lit : dimmed ≠ lit := by
  intro h
  have halpha : (2 / 5 : ℚ) = 1 := congrArg UIColor.alpha h
  norm_num at halpha

/-- The background colors of the `arrangedSubviews`. -/
structure CardBarView where
  arrangedSubviews : List UIColor
  deriving DecidableEq

/-- `xs[i]`, which traps when the index is out of range. -/
def subscript {α : Type*} (xs : List α) (i : ℤ) : Option α :=
  if 0 ≤ i then xs[i.toNat]? else none

def CardBarView.updateLayout (bar : CardBarView) (selectedImageIndex : ℤ) : Option CardBarView :=
  if bar.arrangedSubviews.length > 1 then
    let dimmedViews := bar.arrangedSubviews.map fun _ => dimmed
    (subscript dimmedViews selectedImageIndex).map fun _ =>
      { arrangedSubviews := dimmedViews.set selectedImageIndex.toNat lit }
  else some bar

def CardBarView.setupLayout (bar : CardBarView) (viewCount : ℕ) : Option CardBarView :=
  if viewCount < 2 then some bar
  else
    -- `addArrangedSubview`, once for each photo
    { arrangedSubviews := bar.arrangedSubviews ++ List.replicate viewCount dimmed :
      CardBarView }.updateLayout 0

/-! ### The card view -/

/-- What a card relies on of the frameworks. -/
structure Platform (Image : Type*) where
  /-- `UIImage(named:)`. -/
  imageNamed : String → Option Image
  /-- Whether a text is a URL. -/
  validURL : String → Bool
  /-- The image at a URL. -/
  download : String → Image
  /-- The image literal that a card shows at first. -/
  tempCard : Image

/-- The texts of a card. -/
structure CardInfoView where
  title : Option String
  body : Option String
  subtitle : Option String
  layoutType : ModelType
  deriving DecidableEq

/-- The state of a card view. -/
structure CardView (Image : Type*) where
  cardViewModel : Option CardViewModel
  /-- What the `imageView` shows. -/
  image : Option Image
  /-- The URL whose download has not ended yet. -/
  downloading : Option String
  barView : CardBarView
  infoStack : CardInfoView
  deriving DecidableEq

/-- `init(frame:)`. -/
def CardView.init (P : Platform Image) : CardView Image where
  cardViewModel := none
  image := some P.tempCard
  downloading := none
  barView := { arrangedSubviews := [] }
  infoStack := { title := none, body := none, subtitle := none, layoutType := .user }

namespace CardView

/-- `imageView.sd_setImage(with:completed:)`: the view shows nothing until the download ends. -/
def sd_setImage (card : CardView Image) (url : String) : CardView Image :=
  { card with image := none, downloading := some url }

/-- The `didSet` of `cardViewModel`. -/
def setCardViewModel (P : Platform Image) (card : CardView Image)
    (newValue : Option CardViewModel) : Option (CardView Image) :=
  match newValue with
  | none => some { card with cardViewModel := none }
  | some viewModel =>
    (card.barView.setupLayout viewModel.imageNames.length).bind fun barView =>
      (subscript viewModel.imageNames 0).map fun imageName =>
        let card' := { card with
          cardViewModel := some viewModel
          barView := barView
          infoStack :=
            { title := some viewModel.title
              body := some viewModel.body
              subtitle := some viewModel.subtitle
              layoutType := viewModel.layoutType } }
        -- `URL(string:)` gives nil for a name that is no URL, and the image stays as it is
        if P.validURL imageName then card'.sd_setImage imageName else card'

/-- The `selectedImageIndexObserver` that the card view sets. -/
def selectedImageIndexObserver (card : CardView Image) (index : ℤ) (image : Option Image) :
    Option (CardView Image) :=
  (card.barView.updateLayout index).map fun barView =>
    { card with image := image, barView := barView }

/-- The `didSet` of `selectedImageIndex`, for the view model of the card. -/
def setSelectedImageIndex (P : Platform Image) (card : CardView Image) (viewModel : CardViewModel)
    (newValue : ℤ) : Option (CardView Image) :=
  (subscript viewModel.imageNames newValue).bind fun imageName =>
    { card with cardViewModel := some { viewModel with selectedImageIndex := newValue } }
      |>.selectedImageIndexObserver newValue (P.imageNamed imageName)

/-- `cardViewModel?.nextPhoto()`. -/
def nextPhoto (P : Platform Image) (card : CardView Image) : Option (CardView Image) :=
  match card.cardViewModel with
  | none => some card
  | some viewModel =>
    card.setSelectedImageIndex P viewModel
      (min (viewModel.imageNames.length - 1) (viewModel.selectedImageIndex + 1))

/-- `cardViewModel?.previousPhoto()`. -/
def previousPhoto (P : Platform Image) (card : CardView Image) : Option (CardView Image) :=
  match card.cardViewModel with
  | none => some card
  | some viewModel =>
    card.setSelectedImageIndex P viewModel (max 0 (viewModel.selectedImageIndex - 1))

/-- `tapHandle`: a tap at `location`, measured in the window, on a card of the given width. -/
def tapHandle (P : Platform Image) (card : CardView Image) (width location : ℚ) :
    Option (CardView Image) :=
  if location > width / 2 then card.nextPhoto P else card.previousPhoto P

end CardView

/-! ### Switches -/

/-- The calls that change the index. -/
inductive Switch
  | nextPhoto
  | previousPhoto
  deriving DecidableEq

/-- The step of the index. -/
def Switch.offset : Switch → ℤ
  | .nextPhoto => 1
  | .previousPhoto => -1

def CardView.switchPhoto (P : Platform Image) (card : CardView Image) :
    Switch → Option (CardView Image)
  | .nextPhoto => card.nextPhoto P
  | .previousPhoto => card.previousPhoto P

/-- The switch that a tap makes. -/
def switchOf (width location : ℚ) : Switch :=
  if location > width / 2 then .nextPhoto else .previousPhoto

theorem CardView.tapHandle_eq (P : Platform Image) (card : CardView Image) (width location : ℚ) :
    card.tapHandle P width location = card.switchPhoto P (switchOf width location) := by
  rw [CardView.tapHandle, switchOf]
  split <;> rfl

/-! ### The index and the bar -/

/-- The bar of a card with `n` photos whose photo `i` is selected. -/
def barFor (n : ℕ) (i : ℤ) : CardBarView where
  arrangedSubviews := if 2 ≤ n then (List.replicate n dimmed).set i.toNat lit else []

theorem barFor_length (n : ℕ) (i : ℤ) :
    (barFor n i).arrangedSubviews.length = if 2 ≤ n then n else 0 := by
  rw [barFor]
  split
  · rw [List.length_set, List.length_replicate]
  · rfl

/-- In a bar with segments, the one of the selected photo is highlighted and no other. -/
theorem barFor_getElem? {n : ℕ} {i : ℤ} (hn : 2 ≤ n) (hi : 0 ≤ i) {k : ℕ} (hk : k < n) :
    (barFor n i).arrangedSubviews[k]? = some (if (k : ℤ) = i then lit else dimmed) := by
  have hrep : (List.replicate n dimmed)[k]? = some dimmed := List.getElem?_replicate_of_lt hk
  rw [barFor, if_pos hn, List.getElem?_set]
  by_cases hki : (k : ℤ) = i
  · have htoNat : i.toNat = k := by omega
    rw [if_pos hki, if_pos htoNat, htoNat, List.length_replicate, if_pos hk]
  · have htoNat : i.toNat ≠ k := by omega
    rw [if_neg hki, if_neg htoNat, hrep]

/-- In any bar, a segment is highlighted exactly if it is that of the selected photo. -/
theorem barFor_lit_iff {n : ℕ} {i : ℤ} (hi : 0 ≤ i) {k : ℕ} {view : UIColor}
    (hview : (barFor n i).arrangedSubviews[k]? = some view) : view = lit ↔ (k : ℤ) = i := by
  have hk : k < (barFor n i).arrangedSubviews.length := (List.getElem?_eq_some_iff.1 hview).1
  rw [barFor_length] at hk
  by_cases hn : 2 ≤ n
  · rw [if_pos hn] at hk
    rw [barFor_getElem? hn hi hk, Option.some_inj] at hview
    subst hview
    split
    · next hki => exact iff_of_true rfl hki
    · next hki => exact iff_of_false dimmed_ne_lit hki
  · rw [if_neg hn] at hk
    omega

theorem subscript_eq_some {α : Type*} {xs : List α} {i : ℤ} (hi : 0 ≤ i) (hlt : i < xs.length) :
    ∃ x, subscript xs i = some x ∧ x ∈ xs := by
  have hbound : i.toNat < xs.length := by omega
  refine ⟨xs[i.toNat], ?_, List.getElem_mem hbound⟩
  rw [subscript, if_pos hi, List.getElem?_eq_getElem hbound]

theorem updateLayout_eq {bar : CardBarView} {n : ℕ} (hlength : bar.arrangedSubviews.length = n)
    (j : ℤ) :
    bar.updateLayout j =
      if n > 1 then
        (subscript (List.replicate n dimmed) j).map fun _ =>
          { arrangedSubviews := (List.replicate n dimmed).set j.toNat lit }
      else some bar := by
  rw [CardBarView.updateLayout, List.map_const', hlength]

/-- A bar with a segment for each of the photos highlights the one it is told to. -/
theorem updateLayout_of_length {bar : CardBarView} {n : ℕ} {j : ℤ} (hn : 2 ≤ n)
    (hlength : bar.arrangedSubviews.length = n) (hj : 0 ≤ j) (hlt : j < n) :
    bar.updateLayout j = some (barFor n j) := by
  have hlt' : j < (List.replicate n dimmed).length := by rwa [List.length_replicate]
  obtain ⟨view, hview, -⟩ := subscript_eq_some hj hlt'
  rw [updateLayout_eq hlength, if_pos (by omega), hview, Option.map_some, barFor, if_pos hn]

/-- A bar goes from one photo of the card to another. -/
theorem updateLayout_barFor {n : ℕ} {i j : ℤ} (hj : 0 ≤ j) (hlt : j < n) :
    (barFor n i).updateLayout j = some (barFor n j) := by
  by_cases hn : 2 ≤ n
  · exact updateLayout_of_length hn (by rw [barFor_length, if_pos hn]) hj hlt
  · have hempty : barFor n i = barFor n j := by rw [barFor, barFor, if_neg hn, if_neg hn]
    have hshort : ¬ (barFor n j).arrangedSubviews.length > 1 := by
      rw [barFor_length, if_neg hn]
      omega
    rw [hempty, CardBarView.updateLayout, if_neg hshort]

/-- A bar is set up for the first photo. -/
theorem setupLayout_eq (n : ℕ) :
    ({ arrangedSubviews := [] } : CardBarView).setupLayout n = some (barFor n 0) := by
  by_cases hn : n < 2
  · rw [CardBarView.setupLayout, if_pos hn, barFor, if_neg (by omega)]
  · rw [CardBarView.setupLayout, if_neg hn]
    exact updateLayout_of_length (by omega) (by rw [List.nil_append, List.length_replicate])
      le_rfl (by omega)

/-! ### What a switch keeps -/

/-- The card has a view model with these names, the photo `i` is selected and the bar shows it. -/
structure Follows (names : List String) (i : ℤ) (card : CardView Image) : Prop where
  selected : ∃ viewModel, card.cardViewModel = some viewModel ∧ viewModel.imageNames = names ∧
    viewModel.selectedImageIndex = i
  inRange : 0 ≤ i ∧ i ≤ (names.length : ℤ) - 1
  bar : card.barView = barFor names.length i

/-- The index after a switch. -/
def switched (names : List String) (i : ℤ) (s : Switch) : ℤ :=
  Clamped.clamp 0 (names.length - 1) (i + s.offset)

section Switch

variable {P : Platform Image} {names : List String} {i : ℤ} {card : CardView Image}

theorem switched_mem (h : 0 ≤ i ∧ i ≤ (names.length : ℤ) - 1) (s : Switch) :
    0 ≤ switched names i s ∧ switched names i s ≤ (names.length : ℤ) - 1 :=
  Clamped.clamp_mem (h.1.trans h.2) _

/-- A fresh card follows its fresh view model, and the first photo is on its way if its name is a
URL. -/
theorem init_setCardViewModel {viewModel : CardViewModel} (hnames : viewModel.imageNames ≠ [])
    (hfresh : viewModel.selectedImageIndex = 0) :
    ∃ name card, subscript viewModel.imageNames 0 = some name ∧ name ∈ viewModel.imageNames ∧
      (CardView.init P).setCardViewModel P (some viewModel) = some card ∧
      Follows viewModel.imageNames 0 card ∧
      card.downloading = if P.validURL name then some name else none := by
  have hpos : (0 : ℤ) < viewModel.imageNames.length := by
    have := List.length_pos_of_ne_nil hnames
    omega
  obtain ⟨name, hname, hmem⟩ := subscript_eq_some le_rfl hpos
  have hin : (0 : ℤ) ≤ 0 ∧ 0 ≤ (viewModel.imageNames.length : ℤ) - 1 := ⟨le_rfl, by omega⟩
  have hbar : (CardView.init P).barView.setupLayout viewModel.imageNames.length =
      some (barFor viewModel.imageNames.length 0) := setupLayout_eq _
  generalize hcard : (CardView.init P).setCardViewModel P (some viewModel) = result
  rw [CardView.setCardViewModel, hbar, Option.bind_some, hname, Option.map_some] at hcard
  subst hcard
  by_cases hurl : P.validURL name = true
  · rw [if_pos hurl]
    exact ⟨name, _, hname, hmem, rfl, ⟨⟨viewModel, rfl, rfl, hfresh⟩, hin, rfl⟩,
      (if_pos hurl).symm⟩
  · rw [if_neg hurl]
    exact ⟨name, _, hname, hmem, rfl, ⟨⟨viewModel, rfl, rfl, hfresh⟩, hin, rfl⟩,
      (if_neg hurl).symm⟩

/-- What a switch does to a card that follows its view model: it selects the photo one step further,
as far as there is one, shows the asset of that name, and highlights the segment. -/
theorem Follows.switchPhoto_eq (h : Follows names i card) (s : Switch) :
    ∃ viewModel name, card.cardViewModel = some viewModel ∧ viewModel.imageNames = names ∧
      subscript names (switched names i s) = some name ∧ name ∈ names ∧
      card.switchPhoto P s = some { card with
        cardViewModel := some { viewModel with selectedImageIndex := switched names i s }
        image := P.imageNamed name
        barView := barFor names.length (switched names i s) } := by
  obtain ⟨viewModel, hvm, rfl, rfl⟩ := h.selected
  have hmem := switched_mem h.inRange s
  have hlt : switched viewModel.imageNames viewModel.selectedImageIndex s <
      viewModel.imageNames.length := by
    have := hmem.2
    omega
  obtain ⟨name, hname, hnames⟩ := subscript_eq_some hmem.1 hlt
  refine ⟨viewModel, name, hvm, rfl, hname, hnames, ?_⟩
  have hset : card.setSelectedImageIndex P viewModel
      (switched viewModel.imageNames viewModel.selectedImageIndex s) = some { card with
        cardViewModel := some { viewModel with
          selectedImageIndex := switched viewModel.imageNames viewModel.selectedImageIndex s }
        image := P.imageNamed name
        barView := barFor viewModel.imageNames.length
          (switched viewModel.imageNames viewModel.selectedImageIndex s) } := by
    rw [CardView.setSelectedImageIndex, hname, Option.bind_some,
      CardView.selectedImageIndexObserver, h.bar, updateLayout_barFor hmem.1 hlt, Option.map_some]
  have hlow := h.inRange.1
  have hhigh := h.inRange.2
  -- each call compares with the one bound that it can cross
  cases s with
  | nextPhoto =>
      have hindex : min ((viewModel.imageNames.length : ℤ) - 1) (viewModel.selectedImageIndex + 1) =
          switched viewModel.imageNames viewModel.selectedImageIndex .nextPhoto :=
        (Clamped.clamp_of_le (by omega) (by omega)).symm
      simp only [CardView.switchPhoto, CardView.nextPhoto, hvm, hindex]
      exact hset
  | previousPhoto =>
      have hindex : max 0 (viewModel.selectedImageIndex - 1) =
          switched viewModel.imageNames viewModel.selectedImageIndex .previousPhoto :=
        (Clamped.clamp_of_ge (by omega)).symm
      simp only [CardView.switchPhoto, CardView.previousPhoto, hvm, hindex]
      exact hset

/-- **A switch keeps the index in range and the bar with it.** -/
theorem Follows.switchPhoto (h : Follows names i card) (s : Switch) :
    ∃ card', card.switchPhoto P s = some card' ∧ Follows names (switched names i s) card' := by
  obtain ⟨viewModel, name, -, hnames, -, -, hcard⟩ := h.switchPhoto_eq (P := P) s
  exact ⟨_, hcard, ⟨_, rfl, hnames, rfl⟩, switched_mem h.inRange s, rfl⟩

/-- **No sequence of switches traps**, and the index walks. -/
theorem Follows.run_switchPhoto (h : Follows names i card) (calls : List Switch) :
    ∃ card', run (CardView.switchPhoto P) card calls = some card' ∧
      Follows names (Clamped.walk 0 (names.length - 1) i (calls.map Switch.offset)) card' := by
  induction calls generalizing i card with
  | nil =>
      rw [List.map_nil, Clamped.walk_nil]
      exact ⟨card, rfl, h⟩
  | cons s calls ih =>
      obtain ⟨card₁, hcard₁, h₁⟩ := h.switchPhoto (P := P) s
      obtain ⟨card', hrun, h'⟩ := ih h₁
      rw [List.map_cons, Clamped.walk_cons]
      exact ⟨card', run_cons_eq_some.2 ⟨card₁, hcard₁, hrun⟩, h'⟩

end Switch

/-! ### The main result -/

/-- A profile has a photo, whatever its document holds. -/
theorem init_imageNames_ne_nil (dictionary : Firestore.Dictionary) :
    (User.init dictionary).imageNames ≠ [] := List.cons_ne_nil _ _

/-- **The photos of a card are switched within their bounds, and the bar follows.**  A fresh card
can be given any fresh view model that names a photo, and no sequence of switches traps: the index
is the walk of their steps, put back between the first and the last photo after each of them.  The
bar has a segment for each photo if there are two or more, and none otherwise; the segment of the
selected photo is highlighted and no other.  A card can be built from every document. -/
theorem photo_navigation_in_range (P : Platform Image) :
    (∀ (viewModel : CardViewModel) (calls : List Switch), viewModel.imageNames ≠ [] →
      viewModel.selectedImageIndex = 0 →
      ∃ card card' viewModel',
        (CardView.init P).setCardViewModel P (some viewModel) = some card ∧
        run (CardView.switchPhoto P) card calls = some card' ∧
        card'.cardViewModel = some viewModel' ∧ viewModel'.imageNames = viewModel.imageNames ∧
        viewModel'.selectedImageIndex =
          Clamped.walk 0 ((viewModel.imageNames.length : ℤ) - 1) 0 (calls.map Switch.offset) ∧
        0 ≤ viewModel'.selectedImageIndex ∧
        viewModel'.selectedImageIndex < viewModel.imageNames.length ∧
        card'.barView.arrangedSubviews.length =
          (if 2 ≤ viewModel.imageNames.length then viewModel.imageNames.length else 0) ∧
        ∀ (k : ℕ) view, card'.barView.arrangedSubviews[k]? = some view →
          (view = lit ↔ (k : ℤ) = viewModel'.selectedImageIndex)) ∧
    ∀ dictionary, (User.init dictionary).imageNames ≠ [] ∧
      ((CardView.init P).setCardViewModel P
        (some (CardViewModel.init (User.init dictionary)))).isSome := by
  constructor
  · intro viewModel calls hnames hfresh
    obtain ⟨name, card, -, -, hcard, hfollows, -⟩ := init_setCardViewModel (P := P) hnames hfresh
    obtain ⟨card', hrun, hfollows'⟩ := hfollows.run_switchPhoto (P := P) calls
    obtain ⟨viewModel', hvm, hnames', hindex⟩ := hfollows'.selected
    obtain ⟨hlow, hhigh⟩ := Clamped.walk_mem hfollows.inRange (calls.map Switch.offset)
    refine ⟨card, card', viewModel', hcard, hrun, hvm, hnames', hindex, by omega, by omega, ?_,
      fun k view hview => ?_⟩
    · rw [hfollows'.bar, barFor_length]
    · rw [hfollows'.bar] at hview
      rw [hindex]
      exact barFor_lit_iff hlow hview
  · intro dictionary
    have hnames : (CardViewModel.init (User.init dictionary)).imageNames ≠ [] :=
      init_imageNames_ne_nil dictionary
    obtain ⟨name, card, -, -, hcard, -⟩ := init_setCardViewModel (P := P) hnames rfl
    exact ⟨init_imageNames_ne_nil dictionary, Option.isSome_iff_exists.2 ⟨card, hcard⟩⟩

/-- A platform on which every text is a URL and no asset is bundled; an image is what it was made
from. -/
def webPlatform : Platform String where
  imageNamed := fun _ => none
  validURL := fun _ => true
  download := fun url => url
  tempCard := "tempCard"

/-- A view model of a card with the given photos. -/
def cardWith (imageNames : List String) : CardViewModel where
  imageNames := imageNames
  title := "Ann"
  subtitle := "0"
  body := ""
  layoutType := .user
  selectedImageIndex := 0

theorem photo_navigation_in_range_two :
    ∃ card card' viewModel',
      (CardView.init webPlatform).setCardViewModel webPlatform (some (cardWith ["a", "b"])) =
        some card ∧
      run (CardView.switchPhoto webPlatform) card [.nextPhoto, .nextPhoto, .previousPhoto] =
        some card' ∧
      card'.cardViewModel = some viewModel' ∧ viewModel'.selectedImageIndex = 0 := by
  obtain ⟨card, card', viewModel', hcard, hrun, hvm, -, hindex, -⟩ :=
    (photo_navigation_in_range webPlatform).1 (cardWith ["a", "b"])
      [.nextPhoto, .nextPhoto, .previousPhoto] (by decide) rfl
  exact ⟨card, card', viewModel', hcard, hrun, hvm, hindex.trans (by decide)⟩

end Card
