/-
**The photo on a card.**

The first photo of a card is downloaded from the URL that the view model names.  A switch shows the
bundled asset of the selected name instead, and a name that is a URL is not that of an asset: the
card shows nothing.  A download that is on its way is not called off by a switch.  So a card whose
photo has been downloaded shows the selected photo exactly as long as it has not been tapped since,
and the photo that was selected when the download ended was the one that was downloaded.

* `Card.Event`, `Card.step` — taps on a card, and the end of its download;
* `Card.ShowsSelected` — once the download has succeeded, the selected photo is shown;
* `Card.SwitchedInTime` — the condition on the taps;
* `Card.downloaded_photo_shown_iff` — **when the card shows the selected photo.**
-/

import TinderFirestore.CardView

set_option relaxedAutoImplicit false
set_option autoImplicit false

namespace Card

open Profile EventRun

variable {Image : Type*}

/-! ### The download -/

/-- What can happen to a card. -/
inductive Event
  /-- A tap at `location` on a card of the given width. -/
  | tap (width location : ℚ)
  /-- The download of the first photo has succeeded, or failed. -/
  | downloaded
  | downloadFailed

/-- **What an event does**, if it can happen. -/
def step (P : Platform Image) (card : CardView Image) : Event → Option (CardView Image)
  | .tap width location => card.tapHandle P width location
  | .downloaded =>
    card.downloading.map fun url =>
      { card with image := some (P.download url), downloading := none }
  | .downloadFailed => card.downloading.map fun _ => { card with downloading := none }

/-- The history of a card: whether the download has succeeded. -/
def noteDownload (_ : CardView Image) (e : Event) (_ : CardView Image) (ended : Bool) : Bool :=
  match e with
  | .downloaded => true
  | _ => ended

/-- Once the download has succeeded, the card shows the photo at the URL that is selected. -/
def ShowsSelected (P : Platform Image) (x : CardView Image × Bool) : Prop :=
  x.2 = true → ∃ viewModel name, x.1.cardViewModel = some viewModel ∧
    subscript viewModel.imageNames viewModel.selectedImageIndex = some name ∧
    x.1.image = some (P.download name)

/-- The card is tapped before the download has succeeded only, and the download succeeds while its
own photo is selected, or the same one under another name. -/
def SwitchedInTime (P : Platform Image) (x : CardView Image × Bool) : Event → Prop
  | .tap _ _ => x.2 = false
  | .downloaded => ∀ viewModel name url, x.1.cardViewModel = some viewModel →
      subscript viewModel.imageNames viewModel.selectedImageIndex = some name →
      x.1.downloading = some url → P.download name = P.download url
  | .downloadFailed => True

/-! ### What holds as long as the condition does -/

/-- The card follows its view model and shows the selected photo, and what has succeeded is not
waited for. -/
structure PhotoInv (P : Platform Image) (names : List String) (x : CardView Image × Bool) :
    Prop where
  follows : ∃ i, Follows names i x.1
  shows : ShowsSelected P x
  ended : x.2 = true → x.1.downloading = none

section Step

variable {P : Platform Image} {names : List String} {i : ℤ} {card card' : CardView Image}
  {ended : Bool} {e : Event}

/-- Whatever happens to a card, it follows its view model. -/
theorem Follows.step (h : Follows names i card)
    (hstep : step P card e = some card') : ∃ j, Follows names j card' := by
  cases e with
  | tap width location =>
      obtain ⟨card₁, hcard₁, hfollows⟩ := h.switchPhoto (P := P) (switchOf width location)
      rw [← CardView.tapHandle_eq] at hcard₁
      obtain rfl := Option.some_inj.1 (hcard₁.symm.trans hstep)
      exact ⟨_, hfollows⟩
  | downloaded =>
      obtain ⟨url, -, rfl⟩ := Option.map_eq_some_iff.1 hstep
      exact ⟨i, h.selected, h.inRange, h.bar⟩
  | downloadFailed =>
      obtain ⟨url, -, rfl⟩ := Option.map_eq_some_iff.1 hstep
      exact ⟨i, h.selected, h.inRange, h.bar⟩

theorem Follows.run_step {es : List Event} (h : Follows names i card)
    (hrun : run (Card.step P) card es = some card') : ∃ j, Follows names j card' :=
  invariant_run (I := fun card => ∃ j, Follows names j card)
    (fun _ _ _ ⟨_, hj⟩ hstep => hj.step hstep) ⟨i, h⟩ hrun

/-- The URLs of a card name no asset, so that a tap takes its photo away. -/
theorem tapHandle_image (hasset : ∀ name ∈ names, P.imageNamed name = none)
    (h : Follows names i card) {width location : ℚ}
    (hstep : card.tapHandle P width location = some card') : card'.image = none := by
  rw [CardView.tapHandle_eq] at hstep
  obtain ⟨viewModel, name, -, -, -, hmem, hcard⟩ :=
    h.switchPhoto_eq (P := P) (switchOf width location)
  obtain rfl := Option.some_inj.1 (hstep.symm.trans hcard)
  exact hasset name hmem

/-- A step after which the selected photo is shown has met the condition. -/
theorem PhotoInv.meets (hasset : ∀ name ∈ names, P.imageNamed name = none)
    (hI : PhotoInv P names (card, ended)) (hstep : step P card e = some card')
    (hshows : ShowsSelected P (card', noteDownload card e card' ended)) :
    SwitchedInTime P (card, ended) e := by
  obtain ⟨i, hfollows⟩ := hI.follows
  cases e with
  | tap width location =>
      have himage := tapHandle_image hasset hfollows hstep
      cases ended with
      | false => rfl
      | true =>
          obtain ⟨viewModel, name, -, -, hsome⟩ := hshows rfl
          exact absurd (himage.symm.trans hsome) (by simp)
  | downloaded =>
      obtain ⟨url, hurl, rfl⟩ := Option.map_eq_some_iff.1 hstep
      obtain ⟨viewModel, name, hvm, hname, himage⟩ := hshows rfl
      intro viewModel' name' url' hvm' hname' hurl'
      obtain rfl := Option.some_inj.1 (hvm.symm.trans hvm')
      obtain rfl := Option.some_inj.1 (hname.symm.trans hname')
      obtain rfl := Option.some_inj.1 (hurl.symm.trans hurl')
      exact (Option.some_inj.1 himage).symm
  | downloadFailed => trivial

/-- A step that meets the condition keeps the invariant. -/
theorem PhotoInv.step (hI : PhotoInv P names (card, ended)) (hstep : step P card e = some card')
    (hmeet : SwitchedInTime P (card, ended) e) :
    PhotoInv P names (card', noteDownload card e card' ended) := by
  obtain ⟨i, hfollows⟩ := hI.follows
  have hfollows' := hfollows.step hstep
  cases e with
  | tap width location =>
      have hended : ended = false := hmeet
      subst hended
      exact ⟨hfollows', fun h => absurd h Bool.false_ne_true, fun h => absurd h Bool.false_ne_true⟩
  | downloaded =>
      obtain ⟨url, hurl, rfl⟩ := Option.map_eq_some_iff.1 hstep
      obtain ⟨viewModel, hvm, rfl, rfl⟩ := hfollows.selected
      have hhigh := hfollows.inRange.2
      have hlt : viewModel.selectedImageIndex < viewModel.imageNames.length := by omega
      obtain ⟨name, hname, -⟩ := subscript_eq_some hfollows.inRange.1 hlt
      have hsame : P.download name = P.download url := hmeet viewModel name url hvm hname hurl
      exact ⟨hfollows', fun _ => ⟨viewModel, name, hvm, hname, congrArg some hsame.symm⟩,
        fun _ => rfl⟩
  | downloadFailed =>
      obtain ⟨url, hurl, rfl⟩ := Option.map_eq_some_iff.1 hstep
      refine ⟨hfollows', fun h => ?_, fun _ => rfl⟩
      exact absurd ((hI.ended h).symm.trans hurl) (by simp)

end Step

/-! ### The main result -/

/-- **When the card shows the selected photo.**  A card is given a fresh view model none of whose
names is that of an asset, such as URLs.  However its taps and the end of its download come: once
the download has succeeded the card always shows the photo at the selected URL exactly when it is
not tapped any more from then on, and the photo that is selected when the download succeeds is the
one that was downloaded. -/
theorem downloaded_photo_shown_iff (P : Platform Image) {viewModel : CardViewModel}
    {card : CardView Image} {x : CardView Image × Bool} {es : List Event}
    (hnames : viewModel.imageNames ≠ []) (hfresh : viewModel.selectedImageIndex = 0)
    (hasset : ∀ name ∈ viewModel.imageNames, P.imageNamed name = none)
    (hcard : (CardView.init P).setCardViewModel P (some viewModel) = some card)
    (hrun : run (withHistory (step P) noteDownload) (card, false) es = some x) :
    StatesMeet (withHistory (step P) noteDownload) (ShowsSelected P) (card, false) es ↔
      StepsMeet (withHistory (step P) noteDownload) (SwitchedInTime P) (card, false) es := by
  obtain ⟨name, card₀, hname, hmem, hcard₀, hfollows, hdownloading⟩ :=
    init_setCardViewModel (P := P) hnames hfresh
  obtain rfl := Option.some_inj.1 (hcard.symm.trans hcard₀)
  have hstart : PhotoInv P viewModel.imageNames (card, false) :=
    ⟨⟨0, hfollows⟩, fun h => absurd h Bool.false_ne_true, fun h => absurd h Bool.false_ne_true⟩
  refine statesMeet_iff_stepsMeet (I := PhotoInv P viewModel.imageNames) (fun y hy => hy.shows)
    (fun y e z hI hstep hshows => ?_) (fun y e z hI hstep hmeet => ?_) hstart hrun
  · obtain ⟨hs, hnote⟩ := withHistory_eq_some.1 hstep
    exact hI.meets hasset hs (hnote ▸ hshows)
  · exact withHistory_establishes (I := fun card ended => PhotoInv P _ (card, ended))
      (fun card' hs => hI.step hs hmeet) hstep

/-- The card with the given photos, as it is when it has just been made. -/
def freshCard (imageNames : List String) : Option (CardView String) :=
  (CardView.init webPlatform).setCardViewModel webPlatform (some (cardWith imageNames))

theorem downloaded_photo_shown_iff_two :
    ∃ card x, freshCard ["a", "b"] = some card ∧
      run (withHistory (step webPlatform) noteDownload) (card, false) [.downloaded] = some x ∧
      (StatesMeet (withHistory (step webPlatform) noteDownload) (ShowsSelected webPlatform)
          (card, false) [.downloaded] ↔
        StepsMeet (withHistory (step webPlatform) noteDownload) (SwitchedInTime webPlatform)
          (card, false) [.downloaded]) := by
  have hcard : freshCard ["a", "b"] = some _ := rfl
  have hnames : (cardWith ["a", "b"]).imageNames ≠ [] := List.cons_ne_nil _ _
  exact ⟨_, _, hcard, rfl,
    downloaded_photo_shown_iff webPlatform hnames rfl (fun _ _ => rfl) hcard rfl⟩

/-- **A tap takes the photo off a card that has no other.**  The index stays where it is. -/
theorem tap_takes_photo_off :
    ∃ card x y, freshCard ["a"] = some card ∧
      run (withHistory (step webPlatform) noteDownload) (card, false) [.downloaded] = some x ∧
      withHistory (step webPlatform) noteDownload x (.tap 300 200) = some y ∧
      x.1.image = some "a" ∧ y.1.image = none ∧
      x.1.cardViewModel.map CardViewModel.selectedImageIndex = some 0 ∧
      y.1.cardViewModel.map CardViewModel.selectedImageIndex = some 0 ∧
      ¬ ShowsSelected webPlatform y := by
  have hswitch : switchOf 300 200 = .nextPhoto := if_pos (by norm_num)
  let card : CardView String := (freshCard ["a"]).get rfl
  refine ⟨card, ({ card with image := some "a", downloading := none }, true),
    ({ card with image := none, downloading := none }, true), rfl, rfl, ?_, rfl, rfl, rfl, rfl, ?_⟩
  · rw [withHistory, step, CardView.tapHandle_eq, hswitch]
    rfl
  · intro h
    obtain ⟨viewModel, name, -, -, hsome⟩ := h rfl
    exact absurd hsome (by simp)

end Card
