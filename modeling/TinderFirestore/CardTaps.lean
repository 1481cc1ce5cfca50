/-
**The half of a card that a tap hits.**

A tap right of the middle of a card shows the next photo, and any other tap the one before.  The
card compares where the tap is in the window with half of its own width.  That is its middle only if
it begins at the edge of the window, and the home screen keeps a margin on both sides.  So a strip
of the left half, as wide as the card is away from the edge of the window, counts as right.

* `Card.Placement`, `Card.Placement.Tap` — where a card lies, and the taps that hit it;
* `Card.Placement.switchAt` — **the switch that a tap asks for**;
* `Card.Placement.Misread` — the strip, and `Card.switchOf_eq_switchAt_iff`, which says that no
  other tap is misread;
* `Card.SelectsByHalf` — the taps have switched the photos as the halves that they hit ask for;
* `Card.taps_by_half_iff` — **when they do.**
-/

import TinderFirestore.CardPhoto
import Mathlib.Tactic.Linarith

set_option relaxedAutoImplicit false
set_option autoImplicit false

namespace Card

open Profile EventRun

variable {Image : Type*}

/-! ### Where a tap is -/

/-- Where a card that is not transformed lies in its window. -/
structure Placement where
  /-- How far its left edge is from that of the window. -/
  offset : ℚ
  width : ℚ
  offset_nonneg : 0 ≤ offset
  width_pos : 0 < width

namespace Placement

/-- The left one of the `layoutMargins` of the `overallStackView` on the home screen, and the right
one. -/
def layoutMargin : ℚ := 10

/-- A card on the home screen, in a window of the given width without insets. -/
def onHomeScreen (windowWidth : ℚ) (h : 2 * layoutMargin < windowWidth) : Placement where
  offset := layoutMargin
  width := windowWidth - 2 * layoutMargin
  offset_nonneg := by norm_num [layoutMargin]
  width_pos := sub_pos.2 h

variable (place : Placement)

/-- A tap on the card, by its position in the window. -/
abbrev Tap : Type := {x : ℚ // place.offset ≤ x ∧ x ≤ place.offset + place.width}

/-- The middle of the card, in the window. -/
def midline : ℚ := place.offset + place.width / 2

/-- **The switch that a tap asks for.** -/
def switchAt (x : ℚ) : Switch :=
  if x > place.midline then .nextPhoto else .previousPhoto

/-- The tap is in the left half, but further to the right than half of the width. -/
def Misread (x : ℚ) : Prop := place.width / 2 < x ∧ x ≤ place.midline

end Placement

/-- What a card does with a tap on it. -/
def tap (P : Platform Image) (place : Placement) (card : CardView Image) (x : place.Tap) :
    Option (CardView Image) :=
  card.tapHandle P place.width x

/-- The taps have switched the photos as the halves that they hit ask for. -/
def SelectsByHalf (P : Platform Image) (place : Placement) (card : CardView Image)
    (taps : List place.Tap) : Prop :=
  ∃ viewModel card' viewModel', card.cardViewModel = some viewModel ∧
    run (tap P place) card taps = some card' ∧ card'.cardViewModel = some viewModel' ∧
    viewModel'.selectedImageIndex =
      Clamped.walk 0 ((viewModel.imageNames.length : ℤ) - 1) viewModel.selectedImageIndex
        (taps.map fun x => (place.switchAt x.val).offset)

/-! ### Which taps are misread -/

section Placement

variable {place : Placement}

/-- **Only the taps in the strip are misread.** -/
theorem switchOf_eq_switchAt_iff {x : ℚ} :
    switchOf place.width x = place.switchAt x ↔ ¬ place.Misread x := by
  have hle : place.width / 2 ≤ place.midline := le_add_of_nonneg_left place.offset_nonneg
  by_cases hhalf : x > place.width / 2
  · by_cases hmid : x > place.midline
    · simp only [switchOf, Placement.switchAt, if_pos hhalf, if_pos hmid, Placement.Misread,
        not_le.2 hmid, and_false, not_false_eq_true]
    · simp only [switchOf, Placement.switchAt, if_pos hhalf, if_neg hmid, Placement.Misread,
        reduceCtorEq, false_iff, not_not]
      exact ⟨hhalf, not_lt.1 hmid⟩
  · have hmid : ¬ x > place.midline := fun hgt => hhalf (hle.trans_lt hgt)
    simp only [switchOf, Placement.switchAt, if_neg hhalf, if_neg hmid, Placement.Misread,
      true_iff, not_and]
    exact fun hgt => absurd hgt hhalf

/-- Measured in the card itself, no tap would be misread. -/
theorem switchOf_sub_offset (place : Placement) (x : ℚ) :
    switchOf place.width (x - place.offset) = place.switchAt x := by
  have hiff : x - place.offset > place.width / 2 ↔ x > place.midline := by
    rw [gt_iff_lt, gt_iff_lt, Placement.midline]
    exact lt_sub_iff_add_lt'
  simp only [switchOf, Placement.switchAt, hiff]

/-- A tap is never taken for one further to the left. -/
theorem switchAt_offset_le (place : Placement) (x : ℚ) :
    (place.switchAt x).offset ≤ (switchOf place.width x).offset := by
  by_cases hread : place.Misread x
  · rw [switchOf, if_pos hread.1, Placement.switchAt, if_neg (not_lt.2 hread.2)]
    decide
  · rw [switchOf_eq_switchAt_iff.2 hread]

/-- The middle of a card itself is misread, unless the card begins at the edge of the window. -/
theorem misread_midline_iff : place.Misread place.midline ↔ place.offset ≠ 0 := by
  have hoffset := place.offset_nonneg
  rw [Placement.Misread, Placement.midline]
  constructor
  · rintro ⟨hlt, -⟩ hzero
    rw [hzero, zero_add] at hlt
    exact lt_irrefl _ hlt
  · intro hne
    exact ⟨lt_add_of_pos_left _ (lt_of_le_of_ne hoffset hne.symm), le_rfl⟩

theorem not_misread_of_offset (hzero : place.offset = 0) (x : ℚ) : ¬ place.Misread x := by
  rintro ⟨hlt, hle⟩
  rw [Placement.midline, hzero, zero_add] at hle
  exact absurd hlt (not_lt.2 hle)

theorem midline_mem :
    place.offset ≤ place.midline ∧ place.midline ≤ place.offset + place.width := by
  have hwidth := place.width_pos
  rw [Placement.midline]
  constructor
  · linarith
  · linarith

end Placement

/-! ### What the taps select -/

section Run

variable {P : Platform Image} {place : Placement} {names : List String} {i : ℤ}
  {card : CardView Image}

/-- A card does with its taps what it does with the switches that it takes them for. -/
theorem run_tap (taps : List place.Tap) :
    run (tap P place) card taps =
      run (CardView.switchPhoto P) card (taps.map fun x => switchOf place.width x.val) := by
  rw [run_map]
  congr 1
  funext card x
  exact card.tapHandle_eq P place.width x.val

/-- The index after the taps is a walk, too, but with the switches that the card takes them for. -/
theorem selectsByHalf_iff (h : Follows names i card) (taps : List place.Tap) :
    SelectsByHalf P place card taps ↔
      Clamped.walk 0 ((names.length : ℤ) - 1) i
          (taps.map fun x => (switchOf place.width x.val).offset) =
        Clamped.walk 0 ((names.length : ℤ) - 1) i
          (taps.map fun x => (place.switchAt x.val).offset) := by
  obtain ⟨card', hrun, hfollows⟩ :=
    h.run_switchPhoto (P := P) (taps.map fun x => switchOf place.width x.val)
  rw [← run_tap] at hrun
  rw [List.map_map] at hfollows
  obtain ⟨viewModel, hvm, rfl, rfl⟩ := h.selected
  obtain ⟨viewModel', hvm', hnames', hindex'⟩ := hfollows.selected
  constructor
  · rintro ⟨vm, card₁, vm₁, hvm₁, hrun₁, hcard₁, hindex₁⟩
    obtain rfl := Option.some_inj.1 (hvm.symm.trans hvm₁)
    obtain rfl := Option.some_inj.1 (hrun.symm.trans hrun₁)
    obtain rfl := Option.some_inj.1 (hvm'.symm.trans hcard₁)
    exact hindex'.symm.trans hindex₁
  · intro hwalk
    exact ⟨viewModel, card', viewModel', hvm, hrun, hvm', hindex'.trans hwalk⟩

/-- **Taps that are not misread select by half.** -/
theorem Follows.selectsByHalf (h : Follows names i card) {taps : List place.Tap}
    (hread : ∀ x ∈ taps, ¬ place.Misread x.val) : SelectsByHalf P place card taps := by
  rw [selectsByHalf_iff h]
  refine congrArg _ (List.map_congr_left fun x hx => ?_)
  rw [switchOf_eq_switchAt_iff.2 (hread x hx)]

/-- The only photo of a card is selected whatever the taps are. -/
theorem Follows.selectsByHalf_of_single (h : Follows names i card) (hone : names.length = 1)
    (taps : List place.Tap) : SelectsByHalf P place card taps := by
  have hzero (steps : List ℤ) : Clamped.walk 0 ((names.length : ℤ) - 1) i steps = 0 := by
    have hmem := Clamped.walk_mem h.inRange steps
    omega
  rw [selectsByHalf_iff h, hzero, hzero]

/-- **Right after a tap that is misread** the wrong photo is selected if there are several: the
index is not behind the walk before that tap, and the tap brings it forward instead of back. -/
theorem Follows.not_selectsByHalf (h : Follows names i card) (hnames : 2 ≤ names.length)
    (taps : List place.Tap) {x : place.Tap} (hmisread : place.Misread x.val) :
    ¬ SelectsByHalf P place card (taps ++ [x]) := by
  have hforward : switchOf place.width x.val = .nextPhoto := if_pos hmisread.1
  have hback : place.switchAt x.val = .previousPhoto := if_neg (not_lt.2 hmisread.2)
  rw [selectsByHalf_iff h, List.map_append, List.map_append, List.map_singleton,
    List.map_singleton, Clamped.walk_concat, Clamped.walk_concat, hforward, hback]
  have hahead := Clamped.walk_le_walk (fun x : place.Tap => switchAt_offset_le place x.val) 0
    ((names.length : ℤ) - 1) le_rfl taps (i := i)
  have hcode := Clamped.walk_mem h.inRange (taps.map fun x => (switchOf place.width x.val).offset)
  have hwanted := Clamped.walk_mem h.inRange (taps.map fun x => (place.switchAt x.val).offset)
  have hone : Switch.nextPhoto.offset = 1 := rfl
  have hminus : Switch.previousPhoto.offset = -1 := rfl
  rw [Clamped.clamp, Clamped.clamp, hone, hminus]
  -- the bounds cannot bring the two together again: there are several photos
  omega

/-- **When the taps select by half** all the way. -/
theorem Follows.forall_selectsByHalf_iff (h : Follows names i card) (taps : List place.Tap) :
    (∀ past, past <+: taps → SelectsByHalf P place card past) ↔
      names.length = 1 ∨ ∀ x ∈ taps, ¬ place.Misread x.val := by
  constructor
  · intro hall
    by_contra hcontra
    obtain ⟨hone, hmisread⟩ := not_or.1 hcontra
    push Not at hmisread
    obtain ⟨x, hx, hmisread⟩ := hmisread
    obtain ⟨past, rest, rfl⟩ := List.append_of_mem hx
    have hnames : 2 ≤ names.length := by
      have hlow := h.inRange.1
      have hhigh := h.inRange.2
      omega
    refine h.not_selectsByHalf (P := P) hnames past hmisread (hall _ ?_)
    exact ⟨rest, by rw [List.append_assoc, List.singleton_append]⟩
  · rintro (hone | hread) past hpast
    · exact h.selectsByHalf_of_single hone past
    · exact h.selectsByHalf fun x hx => hread x (hpast.subset hx)

end Run

/-! ### The main result -/

/-- **When taps go to the half of the card that they hit.**  Take a card that was given a fresh view
model, whatever has happened to it since, and let it lie anywhere in the window.  The selected photo
is the one that the halves ask for, after each of the taps, exactly if there is one photo only or no
tap is misread; right after a misread tap it is another one, unless there is one photo only.  So
whatever the taps are, it is the one that the halves ask for exactly if there is one photo only or
the card begins at the edge of the window. -/
theorem taps_by_half_iff (P : Platform Image) {viewModel : CardViewModel}
    {card card₀ : CardView Image} {earlier : List Event} (hnames : viewModel.imageNames ≠ [])
    (hfresh : viewModel.selectedImageIndex = 0)
    (hcard : (CardView.init P).setCardViewModel P (some viewModel) = some card)
    (hearlier : run (step P) card earlier = some card₀) (place : Placement) :
    (∀ taps : List place.Tap,
      (∀ past, past <+: taps → SelectsByHalf P place card₀ past) ↔
        viewModel.imageNames.length = 1 ∨ ∀ x ∈ taps, ¬ place.Misread x.val) ∧
    (∀ (taps : List place.Tap) (x : place.Tap), place.Misread x.val →
      (SelectsByHalf P place card₀ (taps ++ [x]) ↔ viewModel.imageNames.length = 1)) ∧
    ((∀ taps, SelectsByHalf P place card₀ taps) ↔
      viewModel.imageNames.length = 1 ∨ place.offset = 0) := by
  obtain ⟨name, card₁, -, -, hcard₁, hstart, -⟩ := init_setCardViewModel (P := P) hnames hfresh
  obtain rfl := Option.some_inj.1 (hcard.symm.trans hcard₁)
  obtain ⟨i, hfollows⟩ := hstart.run_step hearlier
  have hpos := List.length_pos_of_ne_nil hnames
  refine ⟨hfollows.forall_selectsByHalf_iff, fun taps x hmisread => ⟨?_, ?_⟩, ?_, ?_⟩
  · intro hselects
    by_contra hone
    exact hfollows.not_selectsByHalf (by omega) taps hmisread hselects
  · exact fun hone => hfollows.selectsByHalf_of_single hone _
  · intro hall
    by_contra hcontra
    obtain ⟨hone, hoffset⟩ := not_or.1 hcontra
    -- a tap on the middle of the card
    exact hfollows.not_selectsByHalf (by omega) [] (x := ⟨place.midline, midline_mem⟩)
      (misread_midline_iff.2 hoffset) (hall _)
  · rintro (hone | hzero) taps
    · exact hfollows.selectsByHalf_of_single hone taps
    · exact hfollows.selectsByHalf fun x _ => not_misread_of_offset hzero x.val

/-- A card on the home screen of a small phone. -/
def onSmallPhone : Placement := .onHomeScreen 320 (by norm_num [Placement.layoutMargin])

theorem onSmallPhone_offset : onSmallPhone.offset = 10 := rfl

theorem onSmallPhone_width : onSmallPhone.width = 300 := by
  norm_num [onSmallPhone, Placement.onHomeScreen, Placement.layoutMargin]

theorem onSmallPhone_mem {x : ℚ} :
    (onSmallPhone.offset ≤ x ∧ x ≤ onSmallPhone.offset + onSmallPhone.width) ↔
      10 ≤ x ∧ x ≤ 310 := by
  rw [onSmallPhone_offset, onSmallPhone_width]
  norm_num

theorem misread_onSmallPhone {x : ℚ} : onSmallPhone.Misread x ↔ 150 < x ∧ x ≤ 160 := by
  rw [Placement.Misread, Placement.midline, onSmallPhone_offset, onSmallPhone_width]
  norm_num

/-- A card that has been downloaded is tapped near its right edge and near its left one. -/
theorem taps_by_half_iff_edges :
    ∃ card card₀, freshCard ["a", "b"] = some card ∧
      run (step webPlatform) card [.downloaded] = some card₀ ∧
      ∃ right left : onSmallPhone.Tap, right.val = 300 ∧ left.val = 20 ∧
        SelectsByHalf webPlatform onSmallPhone card₀ [right, left] := by
  let card : CardView String := (freshCard ["a", "b"]).get rfl
  let card₀ : CardView String := { card with image := some "a", downloading := none }
  have hnames : (cardWith ["a", "b"]).imageNames ≠ [] := List.cons_ne_nil _ _
  have hcard : freshCard ["a", "b"] = some card := rfl
  have hdownloaded : run (step webPlatform) card [.downloaded] = some card₀ := rfl
  have hmain := taps_by_half_iff webPlatform hnames rfl hcard hdownloaded onSmallPhone
  refine ⟨card, card₀, hcard, hdownloaded, ⟨300, onSmallPhone_mem.2 (by norm_num)⟩,
    ⟨20, onSmallPhone_mem.2 (by norm_num)⟩, rfl, rfl, (hmain.1 _).2 (.inr ?_) _ List.prefix_rfl⟩
  intro x hx
  rw [misread_onSmallPhone]
  rcases List.mem_pair.1 hx with rfl | rfl
  · norm_num
  · norm_num

/-- **A tap left of the middle goes on to the next photo**, where the half that it hits asks for the
one before. -/
theorem tap_left_of_middle_goes_on :
    ∃ card card', freshCard ["a", "b"] = some card ∧ 155 < onSmallPhone.midline ∧
      card.tapHandle webPlatform onSmallPhone.width 155 = some card' ∧
      card'.cardViewModel.map CardViewModel.selectedImageIndex = some 1 ∧
      ∃ x : onSmallPhone.Tap, x.val = 155 ∧
        ¬ SelectsByHalf webPlatform onSmallPhone card [x] := by
  have hnames : (cardWith ["a", "b"]).imageNames ≠ [] := List.cons_ne_nil _ _
  obtain ⟨name, card, -, -, hcard, hfollows, -⟩ :=
    init_setCardViewModel (P := webPlatform) hnames rfl
  obtain ⟨card', hcard', hfollows'⟩ := hfollows.switchPhoto (P := webPlatform) .nextPhoto
  obtain ⟨viewModel', hvm', -, hindex'⟩ := hfollows'.selected
  have hmid : 155 < onSmallPhone.midline := by
    rw [Placement.midline, onSmallPhone_offset, onSmallPhone_width]
    norm_num
  have hswitch : switchOf onSmallPhone.width 155 = .nextPhoto := by
    rw [onSmallPhone_width]
    exact if_pos (by norm_num)
  have hwanted : onSmallPhone.switchAt 155 = .previousPhoto := if_neg (not_lt.2 hmid.le)
  refine ⟨card, card', hcard, hmid, ?_, ?_, ⟨155, onSmallPhone_mem.2 (by norm_num)⟩, rfl, ?_⟩
  · rw [CardView.tapHandle_eq, hswitch, hcard']
  · rw [hvm', Option.map_some, hindex']
    rfl
  · rw [selectsByHalf_iff hfollows, List.map_singleton, List.map_singleton, hswitch, hwanted]
    decide

end Card
