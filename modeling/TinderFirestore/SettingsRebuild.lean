/-
**Cells that are rebuilt.**

The table makes a new cell whenever a row comes back onto the screen, and for every row when it is
reloaded.  The new cell reads the copy of the profile.  So it shows what the old cell showed as far
as the copy has it: the name and the profession always, the age if its text is the one of an
integer, the labels of the range always — but never the bio, which no handler stores, and never the
positions of the sliders, which nothing restores.

* `Settings.LastCells`, `Settings.noteCells` — the history: the cell that each section showed last;
* `Settings.TextRebuilt`, `Settings.RangeRebuilt` — the rebuilt cell shows what this one showed;
* `Settings.TextRestorable`, `Settings.RangeRestorable` — the condition on this one;
* `Settings.rebuilt_cells_keep_iff` — **when rebuilding the cells loses nothing.**
-/

import TinderFirestore.SettingsShown

set_option relaxedAutoImplicit false
set_option autoImplicit false

namespace Settings

open Firestore Profile Swift EventRun

variable {Image : Type*}

/-! ### The cells shown last -/

/-- The cells that have been shown since the profile was loaded, the last one of each section.  A
cell is settled if it was on the screen when no reload was waiting. -/
structure LastCells where
  cells : TextSection → Option SettingsCell
  settled : TextSection → Bool
  rangeCell : Option RangeAgeCell
  rangeSettled : Bool

/-- None has been shown. -/
def LastCells.none : LastCells where
  cells := fun _ => .none
  settled := fun _ => false
  rangeCell := .none
  rangeSettled := false

/-- What an edit does to the last cell of a section, on the screen or off it. -/
def Event.retype (e : Event Image) (sec : TextSection) (cell : SettingsCell) : SettingsCell :=
  match e with
  | .editingChanged sec' text => if sec = sec' then { cell with text := text } else cell
  | _ => cell

/-- The history, from the moment when the profile has been loaded. -/
def noteCells (_ : SettingsViewController Image) (e : Event Image)
    (vc' : SettingsViewController Image) (last : LastCells) : LastCells :=
  if vc'.user.isNone then last
  else
    { cells := fun sec => (vc'.cells sec).or ((last.cells sec).map (e.retype sec))
      settled := fun sec =>
        if (vc'.cells sec).isSome then !vc'.reloadQueued else last.settled sec
      rangeCell := vc'.rangeCell.or last.rangeCell
      rangeSettled := if vc'.rangeCell.isSome then !vc'.reloadQueued else last.rangeSettled }

/-! ### What is to be shown -/

/-- A screen and its history. -/
abbrev Shown (Image : Type*) := SettingsViewController Image × LastCells

/-- A new cell shows the text that the last cell of its section showed. -/
def TextRebuilt (x : Shown Image) (sec : TextSection) : Prop :=
  ∀ old, x.2.cells sec = some old → (cellForRowAt x.1.user sec).shown = old.shown

/-- A new range cell has the labels and the slider positions of the last one. -/
def RangeRebuilt (x : Shown Image) : Prop :=
  ∀ old, x.2.rangeCell = some old → rangeCellForRowAt x.1.user = old

/-- The text of a cell is one that a new cell can show again. -/
def SettingsCell.Restorable (cell : SettingsCell) : TextSection → Prop
  | .name => True
  | .profession => True
  | .age => ∃ n : Int64, cell.shown = toString n
  | .bio => cell.shown = ""

/-- The last cell of the section can be shown again; and if it was not settled, it shows what has
been loaded. -/
def TextRestorable (x : Shown Image) (sec : TextSection) : Prop :=
  ∀ old, x.2.cells sec = some old → old.Restorable sec ∧
    (x.2.settled sec = false → ∀ u, x.1.user = some u → TextAgrees u sec old)

/-- The sliders of the last range cell have not been moved; and if it was not settled, its labels
show what has been loaded. -/
def RangeRestorable (x : Shown Image) : Prop :=
  ∀ old, x.2.rangeCell = some old →
    (old.minAgeSlider = .start ∧ old.maxAgeSlider = .start) ∧
      (x.2.rangeSettled = false → ∀ u, x.1.user = some u → RangeAgrees u old)

/-- A condition on the cells that an event rebuilds. -/
def OnRebuild (text : Shown Image → TextSection → Prop) (range : Shown Image → Prop)
    (x : Shown Image) : Event Image → Prop
  | .cellForRowAt sec => text x sec
  | .rangeCellForRowAt => range x
  | .reloadData =>
    (∀ sec, (x.1.cells sec).isSome → text x sec) ∧ (x.1.rangeCell.isSome → range x)
  | _ => True

/-! ### The invariant -/

/-- Before the profile has been loaded nothing is noted, and after that every settled cell agrees
with the copy. -/
structure RebuildInv (x : Shown Image) : Prop where
  shown : ShownInv x.1
  loading : x.1.user.isSome → x.1.loading = false
  nothing : x.1.user = none → (∀ sec, x.2.cells sec = none) ∧ x.2.rangeCell = none
  text : ∀ u, x.1.user = some u → ∀ sec old, x.2.cells sec = some old →
    x.2.settled sec = true → TextAgrees u sec old
  range : ∀ u, x.1.user = some u → ∀ old, x.2.rangeCell = some old → x.2.rangeSettled = true →
    RangeAgrees u old

theorem RebuildInv.viewDidLoad (currentUser : Option String) :
    RebuildInv ((SettingsViewController.viewDidLoad currentUser : SettingsViewController Image),
      LastCells.none) := by
  refine ⟨fun u hu => ?_, fun h => ?_, fun _ => ⟨fun sec => rfl, rfl⟩, fun u hu => ?_,
    fun u hu => ?_⟩
  · exact absurd hu (by simp [SettingsViewController.viewDidLoad])
  · exact absurd h (by simp [SettingsViewController.viewDidLoad])
  · exact absurd hu (by simp [SettingsViewController.viewDidLoad])
  · exact absurd hu (by simp [SettingsViewController.viewDidLoad])

section Step

variable {P : Platform} {vc : SettingsViewController Image} {u u' : User} {e : Event Image}

/-- A cell that agrees with the copy agrees with it after any event that is not the load reply. -/
theorem TextAgrees.handle (hu : vc.user = some u) (hloading : vc.loading = false)
    (hpossible : possible vc e = true) (hu' : (handle P vc e).user = some u') {sec : TextSection}
    {cell : SettingsCell} (h : TextAgrees u sec cell) :
    TextAgrees u' sec (e.retype sec cell) := by
  by_cases hedit : ∃ sec' text, e = .editingChanged sec' text
  · obtain ⟨sec', text, rfl⟩ := hedit
    rw [handle_editingChanged, hu] at hu'
    obtain rfl : sec'.edit text u = u' := Option.some_inj.1 hu'
    by_cases hsec : sec = sec'
    · subst hsec
      rw [Event.retype, if_pos rfl]
      exact textAgrees_edit sec text u cell
    · rw [Event.retype, if_neg hsec]
      exact textAgrees_edit_of_ne hsec text h
  · have hkept : e.retype sec cell = cell := by
      cases e with
      | editingChanged sec' text => exact absurd ⟨sec', text, rfl⟩ hedit
      | _ => rfl
    rw [hkept]
    rcases handle_user P vc e with hsame | ⟨d, rfl, -⟩ | ⟨key, f, hedits, -, hmap⟩
    · obtain rfl : u' = u := Option.some_inj.1 (hu'.symm.trans (hsame.trans hu))
      exact h
    · exact absurd hpossible (by simp [possible, hloading])
    · rw [hmap, hu] at hu'
      obtain rfl : f u = u' := Option.some_inj.1 hu'
      cases hedits with
      | minAge position => exact h.congr rfl rfl rfl
      | maxAge position => exact h.congr rfl rfl rfl
      | _ => exact absurd ⟨_, _, rfl⟩ hedit

/-- The range cell agrees with the copy after any such event that leaves its row off the screen. -/
theorem RangeAgrees.handle (hu : vc.user = some u) (hloading : vc.loading = false)
    (hpossible : possible vc e = true) (hu' : (handle P vc e).user = some u')
    (hoff : (Settings.handle P vc e).rangeCell = none) {cell : RangeAgeCell}
    (h : RangeAgrees u cell) : RangeAgrees u' cell := by
  rcases handle_user P vc e with hsame | ⟨d, rfl, -⟩ | ⟨key, f, hedits, hkey, hmap⟩
  · obtain rfl : u' = u := Option.some_inj.1 (hu'.symm.trans (hsame.trans hu))
    exact h
  · exact absurd hpossible (by simp [possible, hloading])
  · rw [hmap, hu] at hu'
    obtain rfl : f u = u' := Option.some_inj.1 hu'
    have hedited := hkey (by rw [hu]; rfl)
    -- a slider that edits the copy is on the screen
    cases hedits with
    | minAge position =>
        cases hcell : vc.rangeCell with
        | none => exact absurd hedited (by simp [editedKeys, hcell])
        | some range =>
            rw [handle_minAgeChanged_some P hcell] at hoff
            exact absurd hoff (Option.some_ne_none _)
    | maxAge position =>
        cases hcell : vc.rangeCell with
        | none => exact absurd hedited (by simp [editedKeys, hcell])
        | some range =>
            rw [handle_maxAgeChanged_some P hcell] at hoff
            exact absurd hoff (Option.some_ne_none _)
    | _ => exact ⟨h.min, h.max⟩

/-- A profile that has been loaded stays. -/
theorem handle_user_isSome (h : vc.user.isSome) : (handle P vc e).user.isSome := by
  rcases handle_user P vc e with hsame | ⟨d, -, huser⟩ | ⟨key, f, -, -, huser⟩
  · rwa [hsame]
  · rw [huser]
    rfl
  · rw [huser, Option.isSome_map]
    exact h

/-- Once the profile has been loaded, it is not asked for. -/
theorem RebuildInv.loading_step {last : LastCells} (hI : RebuildInv (vc, last))
    (hsome : (Settings.handle P vc e).user.isSome) : (Settings.handle P vc e).loading = false := by
  cases hu : vc.user with
  | some u => exact handle_loading (hI.loading (by rw [hu]; rfl)) e
  | none =>
      rcases handle_user P vc e with hsame | ⟨d, rfl, -⟩ | ⟨key, f, -, -, huser⟩
      · rw [hsame, hu] at hsome
        exact absurd hsome Bool.false_ne_true
      · exact SettingsViewController.fetchCurrentUserReply_loading P (some d) none _
      · rw [huser, hu] at hsome
        exact absurd hsome Bool.false_ne_true

/-- What is noted once the profile has been loaded. -/
theorem noteCells_of_user {vc' : SettingsViewController Image} {last : LastCells}
    (hu' : vc'.user = some u') :
    noteCells vc e vc' last =
      { cells := fun sec => (vc'.cells sec).or ((last.cells sec).map (e.retype sec))
        settled := fun sec =>
          if (vc'.cells sec).isSome then !vc'.reloadQueued else last.settled sec
        rangeCell := vc'.rangeCell.or last.rangeCell
        rangeSettled :=
          if vc'.rangeCell.isSome then !vc'.reloadQueued else last.rangeSettled } := by
  rw [noteCells, hu']
  rfl

/-- The settled cells agree with the copy after a step. -/
theorem RebuildInv.text_step {last : LastCells} (hI : RebuildInv (vc, last))
    (hpossible : possible vc e = true) (hu' : (Settings.handle P vc e).user = some u')
    {sec : TextSection} {old : SettingsCell}
    (hold : ((Settings.handle P vc e).cells sec).or ((last.cells sec).map (e.retype sec)) =
      some old)
    (hsettled : (if ((Settings.handle P vc e).cells sec).isSome then
      !(Settings.handle P vc e).reloadQueued else last.settled sec) = true) :
    TextAgrees u' sec old := by
  cases hcell : (Settings.handle P vc e).cells sec with
  | some cell =>
      rw [hcell] at hold hsettled
      obtain rfl : cell = old := Option.some_inj.1 hold
      have hnot : (Settings.handle P vc e).reloadQueued = false := by simpa using hsettled
      exact ((hI.shown.handle e u' hu' hnot).text sec cell hcell).text
  | none =>
      -- the row is off the screen
      rw [hcell] at hold hsettled
      obtain ⟨cell, hlast, rfl⟩ := Option.map_eq_some_iff.1 hold
      cases hu : vc.user with
      | none =>
          have hnone : last.cells sec = none := (hI.nothing hu).1 sec
          exact absurd (hnone.symm.trans hlast) (by simp)
      | some u =>
          have hloading : vc.loading = false := hI.loading (by rw [hu]; rfl)
          have hagrees : TextAgrees u sec cell :=
            hI.text u hu sec cell hlast (by simpa using hsettled)
          exact hagrees.handle hu hloading hpossible hu'

theorem RebuildInv.range_step {last : LastCells} (hI : RebuildInv (vc, last))
    (hpossible : possible vc e = true) (hu' : (Settings.handle P vc e).user = some u')
    {old : RangeAgeCell}
    (hold : (Settings.handle P vc e).rangeCell.or last.rangeCell = some old)
    (hsettled : (if (Settings.handle P vc e).rangeCell.isSome then
      !(Settings.handle P vc e).reloadQueued else last.rangeSettled) = true) :
    RangeAgrees u' old := by
  cases hcell : (Settings.handle P vc e).rangeCell with
  | some cell =>
      rw [hcell] at hold hsettled
      obtain rfl : cell = old := Option.some_inj.1 hold
      have hnot : (Settings.handle P vc e).reloadQueued = false := by simpa using hsettled
      exact (hI.shown.handle e u' hu' hnot).range cell hcell
  | none =>
      rw [hcell] at hold hsettled
      have hlast : last.rangeCell = some old := hold
      cases hu : vc.user with
      | none =>
          have hnone : last.rangeCell = none := (hI.nothing hu).2
          exact absurd (hnone.symm.trans hlast) (by simp)
      | some u =>
          have hloading : vc.loading = false := hI.loading (by rw [hu]; rfl)
          have hagrees : RangeAgrees u old := hI.range u hu old hlast (by simpa using hsettled)
          exact hagrees.handle hu hloading hpossible hu' hcell

theorem RebuildInv.step {vc' : SettingsViewController Image} {last : LastCells}
    (hI : RebuildInv (vc, last)) (hstep : step P vc e = some vc') :
    RebuildInv (vc', noteCells vc e vc' last) := by
  obtain ⟨hpossible, rfl⟩ := step_eq_some.1 hstep
  have hshown : ShownInv (Settings.handle P vc e) := hI.shown.handle e
  cases huser' : (Settings.handle P vc e).user with
  | none =>
      -- nothing has been loaded yet
      have huser : vc.user = none := by
        by_contra hsome
        have hsome' := handle_user_isSome (P := P) (e := e) (Option.isSome_iff_ne_none.2 hsome)
        rw [huser'] at hsome'
        exact Bool.false_ne_true hsome'
      have hnote : noteCells vc e (Settings.handle P vc e) last = last := by
        rw [noteCells, huser']
        rfl
      rw [hnote]
      refine ⟨hshown, fun hsome => ?_, fun _ => hI.nothing huser, fun u hu => ?_, fun u hu => ?_⟩
      · rw [huser'] at hsome
        exact absurd hsome Bool.false_ne_true
      · exact absurd (huser'.symm.trans hu) (by simp)
      · exact absurd (huser'.symm.trans hu) (by simp)
  | some u' =>
      rw [noteCells_of_user huser']
      refine ⟨hshown, hI.loading_step, fun hnone => ?_, fun u hu sec old hold hsettled => ?_,
        fun u hu old hold hsettled => ?_⟩
      · exact absurd (huser'.symm.trans hnone) (by simp)
      · exact hI.text_step hpossible hu hold hsettled
      · exact hI.range_step hpossible hu hold hsettled

end Step

/-! ### What a rebuilt cell shows -/

/-- A text can be shown again exactly when it is the one that the new cell has, if it agrees with
the copy. -/
theorem TextAgrees.rebuilt_iff {u : User} {sec : TextSection} {old : SettingsCell} :
    (cellForRowAt (some u) sec).shown = old.shown ↔ old.Restorable sec ∧ TextAgrees u sec old := by
  cases sec with
  | name =>
      constructor
      · intro h
        exact ⟨trivial, h.symm⟩
      · intro h
        exact h.2.symm
  | profession =>
      constructor
      · intro h
        exact ⟨trivial, h.symm⟩
      · intro h
        exact h.2.symm
  | bio =>
      constructor
      · intro h
        exact ⟨h.symm, trivial⟩
      · intro h
        exact h.1.symm
  | age =>
      have hshown : (cellForRowAt (some u) .age).shown = toString (u.age.getD 0) := rfl
      rw [hshown]
      constructor
      · intro h
        refine ⟨⟨_, h.symm⟩, fun n hn => ?_⟩
        rwa [← h, intOfText_toString, Option.some_inj] at hn
      · rintro ⟨⟨n, hn⟩, hagrees⟩
        have hage := hagrees n (by rw [hn, intOfText_toString])
        rw [hn, hage]

theorem RangeAgrees.rebuilt_iff {u : User} {old : RangeAgeCell} :
    rangeCellForRowAt (some u) = old ↔
      (old.minAgeSlider = .start ∧ old.maxAgeSlider = .start) ∧ RangeAgrees u old := by
  constructor
  · intro h
    subst h
    exact ⟨⟨rfl, rfl⟩, rangeAgrees_rangeCellForRowAt u⟩
  · rintro ⟨⟨hmin, hmax⟩, hagrees⟩
    obtain ⟨minAgeLabel, minAgeSlider, maxAgeLabel, maxAgeSlider⟩ := old
    obtain ⟨rfl, rfl⟩ := hagrees
    obtain rfl : minAgeSlider = .start := hmin
    obtain rfl : maxAgeSlider = .start := hmax
    rfl

/-- Where the invariant holds, a new text cell shows what the last one showed exactly when the last
one is restorable. -/
theorem RebuildInv.textRebuilt_iff {x : Shown Image} (hI : RebuildInv x) (sec : TextSection) :
    TextRebuilt x sec ↔ TextRestorable x sec := by
  refine forall_congr' fun old => imp_congr_right fun hold => ?_
  cases hu : x.1.user with
  | none =>
      have hnone := (hI.nothing hu).1 sec
      exact absurd (hnone.symm.trans hold) (by simp)
  | some u =>
      rw [TextAgrees.rebuilt_iff]
      refine and_congr_right fun _ => ⟨fun hagrees _ v hv => ?_, fun hunsettled => ?_⟩
      · exact Option.some_inj.1 hv ▸ hagrees
      · cases hsettled : x.2.settled sec with
        | true => exact hI.text u hu sec old hold hsettled
        | false => exact hunsettled hsettled u rfl

theorem RebuildInv.rangeRebuilt_iff {x : Shown Image} (hI : RebuildInv x) :
    RangeRebuilt x ↔ RangeRestorable x := by
  refine forall_congr' fun old => imp_congr_right fun hold => ?_
  cases hu : x.1.user with
  | none =>
      have hnone := (hI.nothing hu).2
      exact absurd (hnone.symm.trans hold) (by simp)
  | some u =>
      rw [RangeAgrees.rebuilt_iff]
      refine and_congr_right fun _ => ⟨fun hagrees _ v hv => ?_, fun hunsettled => ?_⟩
      · exact Option.some_inj.1 hv ▸ hagrees
      · cases hsettled : x.2.rangeSettled with
        | true => exact hI.range u hu old hold hsettled
        | false => exact hunsettled hsettled u rfl

/-! ### The main result -/

/-- **When rebuilding the cells loses nothing.**  Whatever happens on the screen: every cell that is
rebuilt after the profile has been loaded shows what the last cell of its section showed exactly
when this one was restorable each time — the text of the age is that of an integer, the bio is empty
and the sliders have not been moved — and, as long as it was not settled, showed what was loaded. -/
theorem rebuilt_cells_keep_iff (P : Platform) {currentUser : Option String} {x : Shown Image}
    {es : List (Event Image)}
    (hrun : run (withHistory (step P) noteCells) (.viewDidLoad currentUser, .none) es = some x) :
    StepsMeet (withHistory (step P) noteCells) (OnRebuild TextRebuilt RangeRebuilt)
        (.viewDidLoad currentUser, .none) es ↔
      StepsMeet (withHistory (step P) noteCells) (OnRebuild TextRestorable RangeRestorable)
        (.viewDidLoad currentUser, .none) es := by
  refine stepsMeet_congr (I := RebuildInv) (fun x e x' hI hstep => ?_) (fun x e x' hI _ => ?_)
    (.viewDidLoad currentUser) hrun
  · exact withHistory_establishes (I := fun vc last => RebuildInv (vc, last))
      (fun vc' hs => hI.step hs) hstep
  · cases e with
    | cellForRowAt sec => exact hI.textRebuilt_iff sec
    | rangeCellForRowAt => exact hI.rangeRebuilt_iff
    | reloadData =>
        exact and_congr (forall_congr' fun sec => imp_congr_right fun _ => hI.textRebuilt_iff sec)
          (imp_congr_right fun _ => hI.rangeRebuilt_iff)
    | _ => exact Iff.rfl

/-- A cell comes onto the screen, is edited, goes off the screen and comes back. -/
def editAndScroll (sec : TextSection) (text : String) : List (Event ℕ) :=
  [.loaded (some (saveInfoDictionary (some "Ann") "u1" "url")), .reloadData, .cellForRowAt sec,
    .editingChanged sec (some text), .didEndDisplaying sec, .cellForRowAt sec]

theorem rebuilt_cells_keep_iff_name :
    ∃ x, run (withHistory (step plainPlatform) noteCells) (.viewDidLoad (some "u1"), .none)
        (editAndScroll .name "Bea") = some x ∧
      (StepsMeet (withHistory (step plainPlatform) noteCells) (OnRebuild TextRebuilt RangeRebuilt)
          (.viewDidLoad (some "u1"), .none) (editAndScroll .name "Bea") ↔
        StepsMeet (withHistory (step plainPlatform) noteCells)
          (OnRebuild TextRestorable RangeRestorable) (.viewDidLoad (some "u1"), .none)
          (editAndScroll .name "Bea")) :=
  ⟨_, rfl, rebuilt_cells_keep_iff plainPlatform rfl⟩

/-- **A bio that was typed is lost** when its row is scrolled away and back. -/
theorem rebuilt_bio_is_lost :
    ∃ x y, run (withHistory (step plainPlatform) noteCells) (.viewDidLoad (some "u1"), .none)
        ((editAndScroll .bio "Hi").take 5) = some x ∧
      (x.2.cells .bio).map SettingsCell.shown = some "Hi" ∧
      withHistory (step plainPlatform) noteCells x (.cellForRowAt .bio) = some y ∧
      (y.1.cells .bio).map SettingsCell.shown = some "" ∧
      ¬ OnRebuild TextRebuilt RangeRebuilt x (.cellForRowAt .bio) := by
  refine ⟨_, _, rfl, rfl, rfl, rfl, fun h => ?_⟩
  exact absurd (h _ rfl) (by decide)

end Settings
