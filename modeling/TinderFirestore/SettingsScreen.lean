/-
**The settings screen.**

The settings screen loads the profile of the signed-in account once, shows it in a table and keeps
a copy that the text fields and the sliders edit.  A cell reads the copy when the table asks for
it; from then on the cell and the copy are changed side by side, each handler doing its part, and
as long as there is no copy the handlers change the cell alone.

The model follows `SettingsViewController`, `SettingsCell` and `RangeAgeCell`.  Which rows are on
the screen is up to the table, so the events that bring a row in and out can come at any time.

Main definitions:

* `Settings.SettingsViewController` — the screen: the copy of the profile, the cells, the photos;
* `Settings.cellForRowAt`, `Settings.rangeCellForRowAt` — the cells the table is given;
* `Settings.SettingsViewController.nameTFHandle` and its siblings — what the text fields and the
  sliders do;
* `Settings.handle`, `Settings.step` — **what an event does**.

Main results:

* `Settings.handle_user` — an event leaves the copy of the profile alone, or loads it, or edits one
  field of it;
* `Settings.Edits.keeps`, `Settings.Edits.sameField` — what an edit leaves as it was.
-/

import TinderFirestore.EventRun
import TinderFirestore.SwiftInt
import TinderFirestore.UserProfile

set_option relaxedAutoImplicit false
set_option autoImplicit false

namespace Settings

open Firestore Profile Swift

variable {Image : Type*}

/-! ### Cells -/

/-- The sections of the table that hold a text field. -/
inductive TextSection
  | name
  | profession
  | age
  | bio
  deriving DecidableEq

/-- The text field of a `SettingsCell`. -/
structure SettingsCell where
  placeholder : String
  text : Option String
  deriving DecidableEq

/-- What a text field shows. -/
def SettingsCell.shown (cell : SettingsCell) : String := cell.text.getD ""

/-- A position of an age slider, between its minimum and its maximum. -/
abbrev SliderPosition := {value : ℚ // 18 ≤ value ∧ value ≤ 100}

/-- A slider that has not been moved stands at its minimum. -/
def SliderPosition.start : SliderPosition := ⟨18, by decide⟩

/-- The labels and the sliders of a `RangeAgeCell`. -/
structure RangeAgeCell where
  minAgeLabel : String
  minAgeSlider : SliderPosition
  maxAgeLabel : String
  maxAgeSlider : SliderPosition
  deriving DecidableEq

/-- `"Min \(value)"`. -/
def minText (value : Int64) : String := "Min " ++ toString value

/-- `"Max \(value)"`. -/
def maxText (value : Int64) : String := "Max " ++ toString value

/-- `tableView(_:cellForRowAt:)` in the sections 1 to 4. -/
def cellForRowAt (user : Option User) : TextSection → SettingsCell
  | .name => { placeholder := "Enter Name", text := user.bind User.name }
  | .profession => { placeholder := "Enter Profession", text := user.bind User.profession }
  | .age =>
    { placeholder := "Enter Age", text := some (toString ((user.bind User.age).getD 0)) }
  | .bio => { placeholder := "Enter Bio", text := none }

/-- `tableView(_:cellForRowAt:)` in section 5. -/
def rangeCellForRowAt (user : Option User) : RangeAgeCell where
  minAgeLabel := minText ((user.bind User.minSeekingAge).getD (-1))
  minAgeSlider := .start
  maxAgeLabel := maxText ((user.bind User.maxSeekingAge).getD (-1))
  maxAgeSlider := .start

/-! ### The screen -/

/-- The buttons of the header view. -/
inductive PhotoButton
  | image1Button
  | image2Button
  | image3Button
  deriving DecidableEq

/-- What the screen relies on of the frameworks: whether a text is a URL. -/
structure Platform where
  validURL : String → Bool

/-- The state of the screen.  A cell is there while its row is on the screen. -/
structure SettingsViewController (Image : Type*) where
  /-- The copy of the profile, once it has been loaded. -/
  user : Option User
  cells : TextSection → Option SettingsCell
  rangeCell : Option RangeAgeCell
  photos : PhotoButton → Option Image
  /-- The `senderButton` of the image picker, while it is presented. -/
  picker : Option PhotoButton
  /-- The reply of `getDocument` has not come yet. -/
  loading : Bool
  /-- The photo has been asked for and has not come yet. -/
  photoLoading : Bool
  /-- A call of `reloadData` waits in the main queue. -/
  reloadQueued : Bool

/-- The screen after `viewDidLoad`; without a signed-in account nothing is loaded. -/
def SettingsViewController.viewDidLoad (currentUser : Option String) :
    SettingsViewController Image where
  user := none
  cells := fun _ => none
  rangeCell := none
  photos := fun _ => none
  picker := none
  loading := currentUser.isSome
  photoLoading := false
  reloadQueued := false

namespace SettingsViewController

def fetchUserPhoto (P : Platform) (vc : SettingsViewController Image) :
    SettingsViewController Image :=
  match vc.user.bind fun u => u.imageNames.head? with
  | none => vc
  | some imageUrl => if P.validURL imageUrl then { vc with photoLoading := true } else vc

/-- The completion handler of `getDocument` in `fetchCurrentUser`. -/
def fetchCurrentUserReply (P : Platform) (data : Option Dictionary) (error : Option String)
    (vc : SettingsViewController Image) : SettingsViewController Image :=
  match error, data with
  -- the error is printed
  | some _, _ => vc
  -- there is no document
  | none, none => vc
  | none, some dictionary =>
    { ({ vc with user := some (User.init dictionary) }.fetchUserPhoto P) with
      reloadQueued := true }

/-- `tableView.reloadData()`: every row on the screen gets a new cell. -/
def reloadData (vc : SettingsViewController Image) : SettingsViewController Image :=
  { vc with
    cells := fun sec => (vc.cells sec).map fun _ => cellForRowAt vc.user sec
    rangeCell := vc.rangeCell.map fun _ => rangeCellForRowAt vc.user }

/-- The copy of the profile is changed, if there is one. -/
def setUser (f : User → User) (vc : SettingsViewController Image) : SettingsViewController Image :=
  { vc with user := vc.user.map f }

def nameTFHandle (text : Option String) (vc : SettingsViewController Image) :
    SettingsViewController Image :=
  vc.setUser fun u => { u with name := text }

def professionTFHandle (text : Option String) (vc : SettingsViewController Image) :
    SettingsViewController Image :=
  vc.setUser fun u => { u with profession := text }

def ageTFHandle (text : Option String) (vc : SettingsViewController Image) :
    SettingsViewController Image :=
  -- `Int(sender.text ?? "")`, which is nil for a text that is no number
  vc.setUser fun u => { u with age := intOfText (text.getD "") }

/-- The target of a text field.  The one of the bio has none. -/
def textFieldTarget (sec : TextSection) (text : Option String)
    (vc : SettingsViewController Image) : SettingsViewController Image :=
  match sec with
  | .name => vc.nameTFHandle text
  | .profession => vc.professionTFHandle text
  | .age => vc.ageTFHandle text
  | .bio => vc

/-- The text of a text field is edited. -/
def editText (sec : TextSection) (text : Option String) (vc : SettingsViewController Image) :
    SettingsViewController Image :=
  { vc with
    cells := Function.update vc.cells sec
      ((vc.cells sec).map fun cell => { cell with text := text }) }

def minAgeChangeHandle (sender : SliderPosition) (vc : SettingsViewController Image) :
    SettingsViewController Image :=
  let value := intOfSlider sender.val
  match vc.rangeCell with
  | none => vc
  | some cell =>
    { vc with rangeCell := some { cell with minAgeLabel := minText value } }.setUser
      fun u => { u with minSeekingAge := some value }

def maxAgeChangeHandle (sender : SliderPosition) (vc : SettingsViewController Image) :
    SettingsViewController Image :=
  let value := intOfSlider sender.val
  match vc.rangeCell with
  | none => vc
  | some cell =>
    { vc with rangeCell := some { cell with maxAgeLabel := maxText value } }.setUser
      fun u => { u with maxSeekingAge := some value }

/-- The slider on the screen is moved. -/
def moveMinAgeSlider (position : SliderPosition) (vc : SettingsViewController Image) :
    SettingsViewController Image :=
  { vc with rangeCell := vc.rangeCell.map fun cell => { cell with minAgeSlider := position } }

def moveMaxAgeSlider (position : SliderPosition) (vc : SettingsViewController Image) :
    SettingsViewController Image :=
  { vc with rangeCell := vc.rangeCell.map fun cell => { cell with maxAgeSlider := position } }

def setPhoto (button : PhotoButton) (image : Option Image) (vc : SettingsViewController Image) :
    SettingsViewController Image :=
  { vc with photos := Function.update vc.photos button image }

/-- `imagePickerController(_:didFinishPickingMediaWithInfo:)`. -/
def didFinishPickingMedia (image : Option Image) (vc : SettingsViewController Image) :
    SettingsViewController Image :=
  match image, vc.picker with
  | some image, some button => { vc.setPhoto button (some image) with picker := none }
  -- the guard fails, and the picker is dismissed all the same
  | _, _ => { vc with picker := none }

end SettingsViewController

/-! ### Events -/

/-- What can happen to the screen. -/
inductive Event (Image : Type*)
  /-- `getDocument` has failed. -/
  | loadFailed (error : String)
  /-- `getDocument` has read the document, or found none. -/
  | loaded (data : Option Dictionary)
  /-- The queued call of `reloadData` is made. -/
  | reloadData
  /-- A row comes onto the screen, or goes off it. -/
  | cellForRowAt (sec : TextSection)
  | didEndDisplaying (sec : TextSection)
  | rangeCellForRowAt
  | rangeDidEndDisplaying
  /-- The text of a text field is edited. -/
  | editingChanged (sec : TextSection) (text : Option String)
  /-- A slider is moved. -/
  | minAgeChanged (position : SliderPosition)
  | maxAgeChanged (position : SliderPosition)
  /-- The photo has been downloaded, or could not be. -/
  | photoLoaded (image : Option Image)
  | selectImage (button : PhotoButton)
  | didFinishPickingMedia (image : Option Image)
  | imagePickerControllerDidCancel

/-- The handler of an event. -/
def handle (P : Platform) (vc : SettingsViewController Image) :
    Event Image → SettingsViewController Image
  | .loadFailed error => { vc with loading := false }.fetchCurrentUserReply P none (some error)
  | .loaded data => { vc with loading := false }.fetchCurrentUserReply P data none
  | .reloadData => { vc.reloadData with reloadQueued := false }
  | .cellForRowAt sec =>
    { vc with cells := Function.update vc.cells sec (some (cellForRowAt vc.user sec)) }
  | .didEndDisplaying sec => { vc with cells := Function.update vc.cells sec none }
  | .rangeCellForRowAt => { vc with rangeCell := some (rangeCellForRowAt vc.user) }
  | .rangeDidEndDisplaying => { vc with rangeCell := none }
  | .editingChanged sec text => (vc.editText sec text).textFieldTarget sec text
  | .minAgeChanged position => (vc.moveMinAgeSlider position).minAgeChangeHandle position
  | .maxAgeChanged position => (vc.moveMaxAgeSlider position).maxAgeChangeHandle position
  | .photoLoaded image => { vc.setPhoto .image1Button image with photoLoading := false }
  | .selectImage button => { vc with picker := some button }
  | .didFinishPickingMedia image => vc.didFinishPickingMedia image
  | .imagePickerControllerDidCancel => { vc with picker := none }

/-- When an event can come: a reply when it is waited for, a choice of the image picker when it is
presented, everything else at any time. -/
def possible (vc : SettingsViewController Image) : Event Image → Bool
  | .loadFailed _ | .loaded _ => vc.loading
  | .reloadData => vc.reloadQueued
  | .photoLoaded _ => vc.photoLoading
  | .selectImage _ => vc.picker.isNone
  | .didFinishPickingMedia _ | .imagePickerControllerDidCancel => vc.picker.isSome
  | _ => true

/-- **What an event does**, if it can come. -/
def step (P : Platform) (vc : SettingsViewController Image) (e : Event Image) :
    Option (SettingsViewController Image) :=
  if possible vc e then some (handle P vc e) else none

theorem step_eq_some {P : Platform} {vc vc' : SettingsViewController Image} {e : Event Image} :
    step P vc e = some vc' ↔ possible vc e = true ∧ handle P vc e = vc' := by
  rw [step, Option.ite_none_right_eq_some, Option.some_inj]

/-! ### What the handlers leave alone -/

namespace SettingsViewController

@[simp] theorem fetchUserPhoto_user (P : Platform) (vc : SettingsViewController Image) :
    (vc.fetchUserPhoto P).user = vc.user := by
  rw [fetchUserPhoto]
  split
  · rfl
  · split <;> rfl

/-- The reply of `getDocument` does not ask for the profile again. -/
theorem fetchCurrentUserReply_loading (P : Platform) (data : Option Dictionary)
    (error : Option String) (vc : SettingsViewController Image) :
    (vc.fetchCurrentUserReply P data error).loading = vc.loading := by
  cases error with
  | some error => rfl
  | none =>
      cases data with
      | none => rfl
      | some d =>
          simp only [fetchCurrentUserReply, fetchUserPhoto]
          split
          · rfl
          · split <;> rfl

/-- The image picker changes the photos and nothing else. -/
theorem didFinishPickingMedia_eq (image : Option Image) (vc : SettingsViewController Image) :
    ∃ photos, vc.didFinishPickingMedia image = { vc with photos := photos, picker := none } := by
  cases image with
  | none => exact ⟨vc.photos, rfl⟩
  | some image =>
      cases hpicker : vc.picker with
      | none => exact ⟨vc.photos, by simp [didFinishPickingMedia, hpicker]⟩
      | some button => exact ⟨_, by simp [didFinishPickingMedia, hpicker, setPhoto]; rfl⟩

end SettingsViewController

/-- Moving a slider whose row is not on the screen has no effect. -/
theorem handle_minAgeChanged_none (P : Platform) {vc : SettingsViewController Image}
    (hcell : vc.rangeCell = none) (position : SliderPosition) :
    handle P vc (.minAgeChanged position) = vc := by
  obtain ⟨user, cells, rangeCell, photos, picker, loading, photoLoading, reloadQueued⟩ := vc
  obtain rfl : rangeCell = none := hcell
  rfl

theorem handle_minAgeChanged_some (P : Platform) {vc : SettingsViewController Image}
    {cell : RangeAgeCell} (hcell : vc.rangeCell = some cell) (position : SliderPosition) :
    handle P vc (.minAgeChanged position) =
      { vc with
        rangeCell := some { cell with
          minAgeLabel := minText (intOfSlider position.val), minAgeSlider := position }
        user := vc.user.map fun u =>
          { u with minSeekingAge := some (intOfSlider position.val) } } := by
  obtain ⟨user, cells, rangeCell, photos, picker, loading, photoLoading, reloadQueued⟩ := vc
  obtain rfl : rangeCell = some cell := hcell
  rfl

theorem handle_maxAgeChanged_none (P : Platform) {vc : SettingsViewController Image}
    (hcell : vc.rangeCell = none) (position : SliderPosition) :
    handle P vc (.maxAgeChanged position) = vc := by
  obtain ⟨user, cells, rangeCell, photos, picker, loading, photoLoading, reloadQueued⟩ := vc
  obtain rfl : rangeCell = none := hcell
  rfl

theorem handle_maxAgeChanged_some (P : Platform) {vc : SettingsViewController Image}
    {cell : RangeAgeCell} (hcell : vc.rangeCell = some cell) (position : SliderPosition) :
    handle P vc (.maxAgeChanged position) =
      { vc with
        rangeCell := some { cell with
          maxAgeLabel := maxText (intOfSlider position.val), maxAgeSlider := position }
        user := vc.user.map fun u =>
          { u with maxSeekingAge := some (intOfSlider position.val) } } := by
  obtain ⟨user, cells, rangeCell, photos, picker, loading, photoLoading, reloadQueued⟩ := vc
  obtain rfl : rangeCell = some cell := hcell
  rfl

/-- Moving a slider changes the range cell and the copy of the profile at most. -/
theorem handle_minAgeChanged_eq (P : Platform) (vc : SettingsViewController Image)
    (position : SliderPosition) : ∃ rangeCell user,
    handle P vc (.minAgeChanged position) = { vc with rangeCell := rangeCell, user := user } := by
  cases hcell : vc.rangeCell with
  | none => exact ⟨vc.rangeCell, vc.user, handle_minAgeChanged_none P hcell position⟩
  | some cell => exact ⟨_, _, handle_minAgeChanged_some P hcell position⟩

theorem handle_maxAgeChanged_eq (P : Platform) (vc : SettingsViewController Image)
    (position : SliderPosition) : ∃ rangeCell user,
    handle P vc (.maxAgeChanged position) = { vc with rangeCell := rangeCell, user := user } := by
  cases hcell : vc.rangeCell with
  | none => exact ⟨vc.rangeCell, vc.user, handle_maxAgeChanged_none P hcell position⟩
  | some cell => exact ⟨_, _, handle_maxAgeChanged_some P hcell position⟩

open SettingsViewController in
/-- The profile is asked for once. -/
theorem handle_loading {P : Platform} {vc : SettingsViewController Image} (h : vc.loading = false)
    (e : Event Image) : (handle P vc e).loading = false := by
  cases e with
  | loadFailed error => exact fetchCurrentUserReply_loading P none (some error) _
  | loaded data => exact fetchCurrentUserReply_loading P data none _
  | editingChanged sec text =>
      cases sec <;> exact h
  | minAgeChanged position =>
      obtain ⟨rangeCell, user, heq⟩ := handle_minAgeChanged_eq P vc position
      rw [heq]
      exact h
  | maxAgeChanged position =>
      obtain ⟨rangeCell, user, heq⟩ := handle_maxAgeChanged_eq P vc position
      rw [heq]
      exact h
  | didFinishPickingMedia image =>
      obtain ⟨photos, hphotos⟩ := vc.didFinishPickingMedia_eq image
      rw [handle, hphotos]
      exact h
  | _ => exact h

/-! ### Edits of the profile -/

/-- The event edits the copy of the profile: the field of the document, and what is done to it. -/
inductive Edits : Event Image → String → (User → User) → Prop
  | name (text : Option String) :
      Edits (.editingChanged .name text) "fullName" fun u => { u with name := text }
  | profession (text : Option String) :
      Edits (.editingChanged .profession text) "profession" fun u => { u with profession := text }
  | age (text : Option String) :
      Edits (.editingChanged .age text) "age" fun u => { u with age := intOfText (text.getD "") }
  | minAge (position : SliderPosition) :
      Edits (.minAgeChanged position) "minSeekingAge"
        fun u => { u with minSeekingAge := some (intOfSlider position.val) }
  | maxAge (position : SliderPosition) :
      Edits (.maxAgeChanged position) "maxSeekingAge"
        fun u => { u with maxSeekingAge := some (intOfSlider position.val) }

/-- The fields of the document that an event edits in the copy of the profile: none as long as there
is no copy, and none if the slider's row is not on the screen. -/
def editedKeys (vc : SettingsViewController Image) (e : Event Image) : List String :=
  if vc.user.isSome then
    match e with
    | .editingChanged .name _ => ["fullName"]
    | .editingChanged .profession _ => ["profession"]
    | .editingChanged .age _ => ["age"]
    | .minAgeChanged _ => if vc.rangeCell.isSome then ["minSeekingAge"] else []
    | .maxAgeChanged _ => if vc.rangeCell.isSome then ["maxSeekingAge"] else []
    | _ => []
  else []

/-- No edit touches the uid or the photo. -/
theorem Edits.keeps {e : Event Image} {key : String} {f : User → User} (h : Edits e key f)
    (u : User) : (f u).uid = u.uid ∧ (f u).imageNames = u.imageNames := by
  cases h <;> exact ⟨rfl, rfl⟩

/-- An edit changes its own field of the document only. -/
theorem Edits.sameField {e : Event Image} {key key' : String} {f : User → User}
    (h : Edits e key f) (hne : key' ≠ key) (u : User) : SameField key' (f u) u := by
  cases h <;> refine ⟨fun heq => ?_, fun heq => ?_, fun heq => ?_, fun heq => ?_, fun heq => ?_,
    fun heq => ?_⟩ <;> first | rfl | exact absurd heq hne

open SettingsViewController in
/-- **What an event does to the copy of the profile**: nothing, or it loads or edits it. -/
theorem handle_user (P : Platform) (vc : SettingsViewController Image) (e : Event Image) :
    (handle P vc e).user = vc.user ∨
      (∃ d, e = .loaded (some d) ∧ (handle P vc e).user = some (User.init d)) ∨
      ∃ key f, Edits e key f ∧ (vc.user.isSome → key ∈ editedKeys vc e) ∧
        (handle P vc e).user = vc.user.map f := by
  cases e with
  | loaded data =>
      cases data with
      | none => exact Or.inl rfl
      | some d => exact Or.inr (Or.inl ⟨d, rfl, fetchUserPhoto_user P _⟩)
  | editingChanged sec text =>
      cases sec with
      | name => exact Or.inr (Or.inr ⟨_, _, .name text, fun hu => by simp [editedKeys, hu], rfl⟩)
      | profession =>
          exact Or.inr (Or.inr ⟨_, _, .profession text, fun hu => by simp [editedKeys, hu], rfl⟩)
      | age => exact Or.inr (Or.inr ⟨_, _, .age text, fun hu => by simp [editedKeys, hu], rfl⟩)
      | bio => exact Or.inl rfl
  | minAgeChanged position =>
      cases hcell : vc.rangeCell with
      | none => exact Or.inl (congrArg user (handle_minAgeChanged_none P hcell position))
      | some cell =>
          refine Or.inr (Or.inr
            ⟨_, _, .minAge position, fun hu => by simp [editedKeys, hu, hcell], ?_⟩)
          rw [handle_minAgeChanged_some P hcell]
  | maxAgeChanged position =>
      cases hcell : vc.rangeCell with
      | none => exact Or.inl (congrArg user (handle_maxAgeChanged_none P hcell position))
      | some cell =>
          refine Or.inr (Or.inr
            ⟨_, _, .maxAge position, fun hu => by simp [editedKeys, hu, hcell], ?_⟩)
          rw [handle_maxAgeChanged_some P hcell]
  | didFinishPickingMedia image =>
      obtain ⟨photos, hphotos⟩ := vc.didFinishPickingMedia_eq image
      have huser : (vc.didFinishPickingMedia image).user = vc.user := by rw [hphotos]
      exact Or.inl huser
  | _ => exact Or.inl rfl

/-- A platform that takes every text for a URL. -/
def plainPlatform : Platform where
  validURL := fun _ => true

end Settings
