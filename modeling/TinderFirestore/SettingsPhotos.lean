/-
**Photos on the settings screen.**

Two handlers write the photo of the first button: the image picker, and the callback of the photo
download that the load reply starts.  The callback writes whatever it is given, nothing at all
included, and does not look at what has been picked meanwhile.  So the picked photos are kept
exactly when the download does not end after a pick for the first button.

* `Settings.PhotoHistory`, `Settings.notePhotos` — the image picked last for each button, and what
  the download delivered;
* `Settings.ButtonsShow` — what the buttons are to show;
* `Settings.PicksKept` — the condition on the end of the download;
* `Settings.picked_photos_kept_iff` — **when no picked photo is overwritten.**
-/

import TinderFirestore.SettingsScreen

set_option relaxedAutoImplicit false
set_option autoImplicit false

namespace Settings

open EventRun Profile

variable {Image : Type*}

/-! ### What is to be shown -/

/-- What has been picked and what has been downloaded. -/
structure PhotoHistory (Image : Type*) where
  picked : PhotoButton → Option Image
  downloaded : Option Image

/-- Nothing has been picked or downloaded. -/
def PhotoHistory.none : PhotoHistory Image where
  picked := fun _ => .none
  downloaded := .none

/-- The history of picks and of the download. -/
def notePhotos (vc : SettingsViewController Image) (e : Event Image)
    (_ : SettingsViewController Image) (past : PhotoHistory Image) : PhotoHistory Image :=
  match e with
  | .didFinishPickingMedia (some image) =>
    match vc.picker with
    | some button => { past with picked := Function.update past.picked button (some image) }
    | none => past
  | .photoLoaded image => { past with downloaded := image }
  | _ => past

/-- Each button shows the image picked last for it; if there is none, the first button shows what
has been downloaded, and the others show nothing. -/
def ButtonsShow (x : SettingsViewController Image × PhotoHistory Image) : Prop :=
  ∀ button, x.1.photos button =
    (x.2.picked button).or (if button = .image1Button then x.2.downloaded else none)

/-- The download ends before anything has been picked for the first button, or with the very image
that has been picked. -/
def PicksKept (x : SettingsViewController Image × PhotoHistory Image) : Event Image → Prop
  | .photoLoaded image => ∀ picked, x.2.picked .image1Button = some picked → image = some picked
  | _ => True

/-! ### What an event does to the photos -/

section Step

variable {P : Platform} {vc vc' : SettingsViewController Image} {e : Event Image}

/-- A pick sets the photo of its button. -/
theorem didFinishPickingMedia_photos {image : Image} {button : PhotoButton}
    (h : vc.picker = some button) :
    (vc.didFinishPickingMedia (some image)).photos =
      Function.update vc.photos button (some image) := by
  simp only [SettingsViewController.didFinishPickingMedia, h]
  rfl

/-- No other event than a pick and the end of the download changes a photo. -/
theorem handle_photos (hpick : ∀ image, e ≠ .didFinishPickingMedia (some image))
    (hload : ∀ image, e ≠ .photoLoaded image) : (handle P vc e).photos = vc.photos := by
  cases e with
  | photoLoaded image => exact absurd rfl (hload image)
  | didFinishPickingMedia image =>
      cases image with
      | none => rfl
      | some image => exact absurd rfl (hpick image)
  | loaded data =>
      cases data with
      | none => rfl
      | some d =>
          simp only [handle, SettingsViewController.fetchCurrentUserReply,
            SettingsViewController.fetchUserPhoto]
          split
          · rfl
          · split <;> rfl
  | editingChanged sec text => cases sec <;> rfl
  | minAgeChanged position =>
      obtain ⟨rangeCell, user, heq⟩ := handle_minAgeChanged_eq P vc position
      rw [heq]
  | maxAgeChanged position =>
      obtain ⟨rangeCell, user, heq⟩ := handle_maxAgeChanged_eq P vc position
      rw [heq]
  | _ => rfl

/-- Nor does another event add to the history. -/
theorem notePhotos_of_ne {past : PhotoHistory Image}
    (hpick : ∀ image, e ≠ .didFinishPickingMedia (some image))
    (hload : ∀ image, e ≠ .photoLoaded image) : notePhotos vc e vc' past = past := by
  cases e with
  | photoLoaded image => exact absurd rfl (hload image)
  | didFinishPickingMedia image =>
      cases image with
      | none => rfl
      | some image => exact absurd rfl (hpick image)
  | _ => rfl

/-- A pick is shown. -/
theorem buttonsShow_pick {past : PhotoHistory Image} (hI : ButtonsShow (vc, past)) {image : Image}
    {button : PhotoButton} (hbutton : vc.picker = some button) :
    ButtonsShow (vc.didFinishPickingMedia (some image),
      { past with picked := Function.update past.picked button (some image) }) := by
  intro other
  rw [didFinishPickingMedia_photos hbutton]
  by_cases hother : other = button
  · subst hother
    simp only [Function.update_self, Option.some_or]
  · simp only [Function.update_of_ne hother]
    exact hI other

/-- What has been downloaded is shown if nothing else has been picked for the first button. -/
theorem buttonsShow_photoLoaded {past : PhotoHistory Image} (hI : ButtonsShow (vc, past))
    (image : Option Image) :
    ButtonsShow (vc.setPhoto .image1Button image, { past with downloaded := image }) ↔
      PicksKept (vc, past) (.photoLoaded image) := by
  have hphotos (button : PhotoButton) : (vc.setPhoto .image1Button image).photos button =
      Function.update vc.photos .image1Button image button := rfl
  constructor
  · intro hshow picked hpicked
    have hfirst : image = (past.picked .image1Button).or _ := hshow .image1Button
    rw [hpicked, Option.some_or] at hfirst
    exact hfirst
  · intro hkept button
    rw [hphotos]
    by_cases hbutton : button = .image1Button
    · subst hbutton
      rw [Function.update_self, if_pos rfl]
      cases hpicked : past.picked .image1Button with
      | none => rw [Option.none_or]
      | some picked =>
          rw [Option.some_or]
          exact hkept picked hpicked
    · rw [Function.update_of_ne hbutton, if_neg hbutton]
      have hother := hI button
      rwa [if_neg hbutton] at hother

/-- Whether the buttons still show what they are to show after an event. -/
theorem buttonsShow_step {past : PhotoHistory Image} (hI : ButtonsShow (vc, past))
    (hstep : step P vc e = some vc') :
    ButtonsShow (vc', notePhotos vc e vc' past) ↔ PicksKept (vc, past) e := by
  obtain ⟨hpossible, rfl⟩ := step_eq_some.1 hstep
  by_cases hpick : ∃ image, e = .didFinishPickingMedia (some image)
  · obtain ⟨image, rfl⟩ := hpick
    obtain ⟨button, hbutton⟩ : ∃ button, vc.picker = some button :=
      Option.isSome_iff_exists.1 hpossible
    have hnote : notePhotos vc (.didFinishPickingMedia (some image))
        (handle P vc (.didFinishPickingMedia (some image))) past =
          { past with picked := Function.update past.picked button (some image) } := by
      simp only [notePhotos, hbutton]
    rw [hnote]
    exact iff_of_true (buttonsShow_pick hI hbutton) trivial
  by_cases hload : ∃ image, e = .photoLoaded image
  · obtain ⟨image, rfl⟩ := hload
    exact buttonsShow_photoLoaded hI image
  · have hpick' (image : Image) : e ≠ .didFinishPickingMedia (some image) :=
      fun heq => hpick ⟨image, heq⟩
    have hload' (image : Option Image) : e ≠ .photoLoaded image := fun heq => hload ⟨image, heq⟩
    rw [notePhotos_of_ne hpick' hload']
    refine iff_of_true (fun button => ?_) ?_
    · have hsame : (handle P vc e).photos button = vc.photos button :=
        congrFun (handle_photos hpick' hload') button
      exact hsame.trans (hI button)
    · cases e with
      | photoLoaded image => exact absurd rfl (hload' image)
      | _ => trivial

/-- A pick for one button leaves the others as they are. -/
theorem step_pick_other {image : Option Image} {button : PhotoButton}
    (hstep : step P vc (.didFinishPickingMedia image) = some vc')
    (hbutton : vc.picker ≠ some button) : vc'.photos button = vc.photos button := by
  obtain ⟨hpossible, rfl⟩ := step_eq_some.1 hstep
  cases image with
  | none => rfl
  | some image =>
      obtain ⟨sender, hsender⟩ := Option.isSome_iff_exists.1 hpossible
      have hne : button ≠ sender := fun heq => hbutton (heq ▸ hsender)
      have hphotos : (vc.didFinishPickingMedia (some image)).photos button =
          Function.update vc.photos sender (some image) button :=
        congrFun (didFinishPickingMedia_photos hsender) button
      rw [Function.update_of_ne hne] at hphotos
      exact hphotos

end Step

/-! ### The main result -/

/-- **When no picked photo is overwritten.**  However the load of the profile, the download of its
photo and the picks come: the buttons always show what they are to show exactly when the download
never ends after an image has been picked for the first button, unless it delivers that image.  A
pick never changes another button than its own. -/
theorem picked_photos_kept_iff (P : Platform) {currentUser : Option String}
    {x : SettingsViewController Image × PhotoHistory Image} {es : List (Event Image)}
    (hrun : run (withHistory (step P) notePhotos) (.viewDidLoad currentUser, .none) es = some x) :
    (StatesMeet (withHistory (step P) notePhotos) ButtonsShow
        (.viewDidLoad currentUser, .none) es ↔
      StepsMeet (withHistory (step P) notePhotos) PicksKept
        (.viewDidLoad currentUser, .none) es) ∧
    ∀ image vc' button, step P x.1 (.didFinishPickingMedia image) = some vc' →
      x.1.picker ≠ some button → vc'.photos button = x.1.photos button := by
  refine ⟨?_, fun image vc' button hstep hbutton => step_pick_other hstep hbutton⟩
  have hstart : ButtonsShow ((SettingsViewController.viewDidLoad currentUser :
      SettingsViewController Image), PhotoHistory.none) := by
    intro button
    by_cases hbutton : button = .image1Button
    · rw [if_pos hbutton]
      rfl
    · rw [if_neg hbutton]
      rfl
  -- The property is an invariant by itself: each step says whether it is kept.
  have hkeeps (y : SettingsViewController Image × PhotoHistory Image) (e : Event Image)
      (z : SettingsViewController Image × PhotoHistory Image) (hI : ButtonsShow y)
      (hstep : withHistory (step P) notePhotos y e = some z) :
      ButtonsShow z ↔ PicksKept y e := by
    exact withHistory_establishes (I := fun vc past => ButtonsShow (vc, past) ↔ PicksKept y e)
      (fun vc' hs => buttonsShow_step hI hs) hstep
  exact statesMeet_iff_stepsMeet (fun y hy => hy)
    (fun y e z hI hstep => (hkeeps y e z hI hstep).1)
    (fun y e z hI hstep => (hkeeps y e z hI hstep).2) hstart hrun

/-- A photo is picked for the first button while the profile's own photo is on its way; the download
delivers what it is given here. -/
def pickWhileLoading (picked : ℕ) (downloaded : Option ℕ) : List (Event ℕ) :=
  [.loaded (some (saveInfoDictionary (some "Ann") "u1" "url")), .selectImage .image1Button,
    .didFinishPickingMedia (some picked), .photoLoaded downloaded]

theorem picked_photos_kept_iff_same :
    ∃ x, run (withHistory (step plainPlatform) notePhotos) (.viewDidLoad (some "u1"), .none)
        (pickWhileLoading 7 (some 7)) = some x ∧
      (StatesMeet (withHistory (step plainPlatform) notePhotos) ButtonsShow
          (.viewDidLoad (some "u1"), .none) (pickWhileLoading 7 (some 7)) ↔
        StepsMeet (withHistory (step plainPlatform) notePhotos) PicksKept
          (.viewDidLoad (some "u1"), .none) (pickWhileLoading 7 (some 7))) := by
  have hrun : run (withHistory (step plainPlatform) notePhotos) (.viewDidLoad (some "u1"), .none)
      (pickWhileLoading 7 (some 7)) = some _ := rfl
  exact ⟨_, hrun, (picked_photos_kept_iff plainPlatform hrun).1⟩

/-- **A download that fails removes the photo** that has been picked meanwhile. -/
theorem picked_photo_is_removed :
    ∃ x, run (withHistory (step plainPlatform) notePhotos) (.viewDidLoad (some "u1"), .none)
        (pickWhileLoading 7 none) = some x ∧
      x.2.picked .image1Button = some 7 ∧ x.1.photos .image1Button = none ∧ ¬ ButtonsShow x := by
  have hrun : run (withHistory (step plainPlatform) notePhotos) (.viewDidLoad (some "u1"), .none)
      (pickWhileLoading 7 none) = some _ := rfl
  refine ⟨_, hrun, rfl, rfl, fun hshow => ?_⟩
  have hfirst := hshow .image1Button
  exact absurd hfirst (by decide)

end Settings
