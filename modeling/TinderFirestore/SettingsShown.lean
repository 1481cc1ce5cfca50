/-
**What the settings screen shows and what Save stores.**

Once the profile has been loaded and the table reloaded, a cell and the copy of the profile are
made from each other and changed together, so Save stores what is shown — with one exception.  An
age that the copy does not have is stored as -1; the age cell shows 0 for it, or the integer that
was typed, if `Int(_:)` could not read it.  Before that, the handlers change the cells alone, and
between the arrival of the profile and the reload of the table the cells are older than the copy.

* `Settings.StoresShown` — the document has in it what the cells on the screen show;
* `Settings.Agrees`, `Settings.ShownInv` — the copy and the cells on the screen agree, and do so
  whenever the profile is loaded and no reload is waiting;
* `Settings.AgeShown`, `Settings.CaughtUp`, `Settings.NothingEntered` — the age is present or not
  shown; the cells show already what has been loaded; nothing has been entered;
* `Settings.save_stores_shown_iff` — **when Save stores what is shown.**
-/

import TinderFirestore.SettingsScreen

set_option relaxedAutoImplicit false
set_option autoImplicit false

namespace Settings

open Firestore Profile Swift EventRun

variable {Image : Type*}

/-! ### What is to be shown -/

/-- The document has in it what the cells on the screen show: the texts of the name and of the
profession, the integer of the age, and the numbers of the two labels. -/
structure StoresShown (vc : SettingsViewController Image) (data : Dictionary) : Prop where
  name : ∀ cell, vc.cells .name = some cell → data "fullName" = some (.string cell.shown)
  profession : ∀ cell, vc.cells .profession = some cell →
    data "profession" = some (.string cell.shown)
  age : ∀ cell z, vc.cells .age = some cell → integerOfText cell.shown = some z →
    ∃ n : Int64, data "age" = some (.int n) ∧ n.toInt = z
  range : ∀ cell, vc.rangeCell = some cell → ∃ min max,
    cell.minAgeLabel = minText min ∧ data "minSeekingAge" = some (.int min) ∧
    cell.maxAgeLabel = maxText max ∧ data "maxSeekingAge" = some (.int max)

/-- The age is present, or the age cell shows no integer but -1. -/
def AgeShown (vc : SettingsViewController Image) (u : User) : Prop :=
  u.age.isSome ∨ ∀ cell z, vc.cells .age = some cell → integerOfText cell.shown = some z → z = -1

/-- Nothing has been entered into the cells on the screen, and they show no age but -1. -/
structure NothingEntered (vc : SettingsViewController Image) : Prop where
  name : ∀ cell, vc.cells .name = some cell → cell.shown = ""
  profession : ∀ cell, vc.cells .profession = some cell → cell.shown = ""
  age : ∀ cell z, vc.cells .age = some cell → integerOfText cell.shown = some z → z = -1
  range : ∀ cell, vc.rangeCell = some cell →
    cell.minAgeLabel = minText (-1) ∧ cell.maxAgeLabel = maxText (-1)

/-! ### The invariant -/

/-- A cell agrees with the copy of the profile; an absent age is shown as 0. -/
def TextAgrees (u : User) : TextSection → SettingsCell → Prop
  | .name, cell => cell.shown = u.name.getD ""
  | .profession, cell => cell.shown = u.profession.getD ""
  | .age, cell => ∀ n, intOfText cell.shown = some n → u.age.getD 0 = n
  | .bio, _ => True

/-- The age, if there is one, is the integer that the cell shows. -/
def AgeAgrees (u : User) (cell : SettingsCell) : Prop :=
  ∀ age z, u.age = some age → integerOfText cell.shown = some z → age.toInt = z

/-- A cell agrees with the copy of the profile, and an age cell with an age that is there. -/
structure CellAgrees (u : User) (sec : TextSection) (cell : SettingsCell) : Prop where
  text : TextAgrees u sec cell
  age : sec = .age → AgeAgrees u cell

structure RangeAgrees (u : User) (cell : RangeAgeCell) : Prop where
  min : cell.minAgeLabel = minText (u.minSeekingAge.getD (-1))
  max : cell.maxAgeLabel = maxText (u.maxSeekingAge.getD (-1))

/-- The cells on the screen agree with the copy `u` of the profile. -/
structure Agrees (vc : SettingsViewController Image) (u : User) : Prop where
  text : ∀ sec cell, vc.cells sec = some cell → CellAgrees u sec cell
  range : ∀ cell, vc.rangeCell = some cell → RangeAgrees u cell

/-- The cells on the screen show already what the copy `u` has. -/
structure CaughtUp (vc : SettingsViewController Image) (u : User) : Prop where
  name : ∀ cell, vc.cells .name = some cell → TextAgrees u .name cell
  profession : ∀ cell, vc.cells .profession = some cell → TextAgrees u .profession cell
  age : ∀ cell, vc.cells .age = some cell → AgeAgrees u cell
  range : ∀ cell, vc.rangeCell = some cell → RangeAgrees u cell

theorem Agrees.caughtUp {vc : SettingsViewController Image} {u : User} (h : Agrees vc u) :
    CaughtUp vc u :=
  ⟨fun cell hcell => (h.text .name cell hcell).text,
    fun cell hcell => (h.text .profession cell hcell).text,
    fun cell hcell => (h.text .age cell hcell).age rfl, h.range⟩

/-- Once the profile is loaded and no reload is waiting, the cells agree with it. -/
def ShownInv (vc : SettingsViewController Image) : Prop :=
  ∀ u, vc.user = some u → vc.reloadQueued = false → Agrees vc u

theorem textAgrees_cellForRowAt (u : User) (sec : TextSection) :
    TextAgrees u sec (cellForRowAt (some u) sec) := by
  cases sec with
  | name => rfl
  | profession => rfl
  | age =>
      intro n hn
      have hshown : (cellForRowAt (some u) .age).shown = toString (u.age.getD 0) := rfl
      rw [hshown, intOfText_toString, Option.some_inj] at hn
      exact hn
  | bio => trivial

theorem cellAgrees_cellForRowAt (u : User) (sec : TextSection) :
    CellAgrees u sec (cellForRowAt (some u) sec) := by
  refine ⟨textAgrees_cellForRowAt u sec, ?_⟩
  rintro rfl age z hage hz
  have hshown : (cellForRowAt (some u) .age).shown = toString (u.age.getD 0) := rfl
  rw [hshown, hage, Option.getD_some, integerOfText_toString] at hz
  exact Option.some_inj.1 hz

theorem rangeAgrees_rangeCellForRowAt (u : User) : RangeAgrees u (rangeCellForRowAt (some u)) :=
  ⟨rfl, rfl⟩

/-- What the target of a text field does to the copy of the profile. -/
def TextSection.edit (sec : TextSection) (text : Option String) (u : User) : User :=
  match sec with
  | .name => { u with name := text }
  | .profession => { u with profession := text }
  | .age => { u with age := intOfText (text.getD "") }
  | .bio => u

theorem handle_editingChanged (P : Platform) (vc : SettingsViewController Image)
    (sec : TextSection) (text : Option String) :
    handle P vc (.editingChanged sec text) =
      { vc.editText sec text with user := vc.user.map (sec.edit text) } := by
  cases sec with
  | bio =>
      have hid : TextSection.edit .bio text = id := rfl
      rw [hid, Option.map_id]
      rfl
  | _ => rfl

/-- The cell of a text field agrees with the copy after the text has been edited. -/
theorem textAgrees_edit (sec : TextSection) (text : Option String) (u : User)
    (cell : SettingsCell) : TextAgrees (sec.edit text u) sec { cell with text := text } := by
  cases sec with
  | age =>
      intro n hn
      have hage : (TextSection.edit .age text u).age = intOfText (text.getD "") := rfl
      rw [hage]
      exact (congrArg (fun o : Option Int64 => o.getD 0) hn)
  | bio => trivial
  | _ => rfl

/-- So does an age cell with the age that was read; a text that `Int(_:)` cannot read leaves
none. -/
theorem cellAgrees_edit (sec : TextSection) (text : Option String) (u : User)
    (cell : SettingsCell) : CellAgrees (sec.edit text u) sec { cell with text := text } := by
  refine ⟨textAgrees_edit sec text u cell, ?_⟩
  rintro rfl age z hage hz
  have hread : intOfText (text.getD "") = some age := hage
  have hshown : integerOfText (text.getD "") = some z := hz
  rw [integerOfText_of_intOfText hread] at hshown
  exact Option.some_inj.1 hshown

/-- The other cells are not concerned. -/
theorem textAgrees_edit_of_ne {sec sec' : TextSection} (hne : sec' ≠ sec) (text : Option String)
    {u : User} {cell : SettingsCell} (h : TextAgrees u sec' cell) :
    TextAgrees (sec.edit text u) sec' cell := by
  cases sec <;> cases sec' <;> first | exact h | exact absurd rfl hne

theorem cellAgrees_edit_of_ne {sec sec' : TextSection} (hne : sec' ≠ sec) (text : Option String)
    {u : User} {cell : SettingsCell} (h : CellAgrees u sec' cell) :
    CellAgrees (sec.edit text u) sec' cell := by
  refine ⟨textAgrees_edit_of_ne hne text h.text, ?_⟩
  rintro rfl
  cases sec with
  | age => exact absurd rfl hne
  | _ => exact h.age rfl

/-- Moving a slider leaves the texts alone. -/
theorem TextAgrees.congr {u u' : User} {sec : TextSection} {cell : SettingsCell}
    (h : TextAgrees u sec cell) (hname : u'.name = u.name)
    (hprofession : u'.profession = u.profession) (hage : u'.age = u.age) :
    TextAgrees u' sec cell := by
  cases sec with
  | name => exact h.trans (by rw [hname])
  | profession => exact h.trans (by rw [hprofession])
  | age =>
      intro n hn
      rw [hage]
      exact h n hn
  | bio => trivial

theorem CellAgrees.congr {u u' : User} {sec : TextSection} {cell : SettingsCell}
    (h : CellAgrees u sec cell) (hname : u'.name = u.name)
    (hprofession : u'.profession = u.profession) (hage : u'.age = u.age) :
    CellAgrees u' sec cell :=
  ⟨h.text.congr hname hprofession hage,
    fun hsec age z hage' => h.age hsec age z (hage ▸ hage')⟩

/-- The text cells agree after one of them has been replaced, if the new one does and the copy has
changed in what it shows only. -/
theorem cellAgrees_update {cells : TextSection → Option SettingsCell} {u u' : User}
    {sec : TextSection} {new : Option SettingsCell}
    (h : ∀ sec cell, cells sec = some cell → CellAgrees u sec cell)
    (hnew : ∀ cell, new = some cell → CellAgrees u' sec cell)
    (hother : ∀ sec' cell, sec' ≠ sec → CellAgrees u sec' cell → CellAgrees u' sec' cell)
    (sec' : TextSection) (cell : SettingsCell)
    (hcell : Function.update cells sec new sec' = some cell) : CellAgrees u' sec' cell := by
  by_cases hsec : sec' = sec
  · subst hsec
    rw [Function.update_self] at hcell
    exact hnew cell hcell
  · rw [Function.update_of_ne hsec] at hcell
    exact hother sec' cell hsec (h sec' cell hcell)

theorem rangeAgrees_edit (sec : TextSection) (text : Option String) {u : User}
    {cell : RangeAgeCell} (h : RangeAgrees u cell) : RangeAgrees (sec.edit text u) cell := by
  cases sec <;> exact ⟨h.min, h.max⟩

theorem ShownInv.congr {vc vc' : SettingsViewController Image} (h : ShownInv vc)
    (huser : vc'.user = vc.user) (hcells : vc'.cells = vc.cells)
    (hrange : vc'.rangeCell = vc.rangeCell) (hqueued : vc'.reloadQueued = vc.reloadQueued) :
    ShownInv vc' := by
  intro u hu hq
  obtain ⟨htext, hr⟩ := h u (huser ▸ hu) (hqueued ▸ hq)
  exact ⟨hcells ▸ htext, hrange ▸ hr⟩

section Cells

variable {vc : SettingsViewController Image}

/-- A text cell comes onto the screen or leaves it. -/
theorem ShownInv.text_update (h : ShownInv vc) {sec : TextSection} {new : Option SettingsCell}
    (hnew : ∀ u cell, vc.user = some u → new = some cell → CellAgrees u sec cell) :
    ShownInv { vc with cells := Function.update vc.cells sec new } := by
  intro u hu hq
  obtain ⟨htext, hrange⟩ := h u hu hq
  exact ⟨cellAgrees_update htext (fun cell => hnew u cell hu) fun _ _ _ hold => hold, hrange⟩

/-- The range cell comes onto the screen or leaves it. -/
theorem ShownInv.range_update (h : ShownInv vc) {new : Option RangeAgeCell}
    (hnew : ∀ u cell, vc.user = some u → new = some cell → RangeAgrees u cell) :
    ShownInv { vc with rangeCell := new } :=
  fun u hu hq => ⟨(h u hu hq).text, fun cell => hnew u cell hu⟩

/-- A slider is moved, and the copy of the profile with it. -/
theorem ShownInv.slide (h : ShownInv vc) {cell cell' : RangeAgeCell} {edit : User → User}
    (hcell : vc.rangeCell = some cell) (hname : ∀ u, (edit u).name = u.name)
    (hprofession : ∀ u, (edit u).profession = u.profession) (hage : ∀ u, (edit u).age = u.age)
    (hedit : ∀ u, RangeAgrees u cell → RangeAgrees (edit u) cell') :
    ShownInv { vc with rangeCell := some cell', user := vc.user.map edit } := by
  intro u' hu' hq
  obtain ⟨u, hu, rfl⟩ := Option.map_eq_some_iff.1 hu'
  obtain ⟨htext, hrange⟩ := h u hu hq
  refine ⟨fun sec old hold => (htext sec old hold).congr (hname u) (hprofession u) (hage u),
    fun new hnew => ?_⟩
  obtain rfl := Option.some_inj.1 hnew
  exact hedit u (hrange cell hcell)

/-- The table is made anew from the copy. -/
theorem ShownInv.reloadData : ShownInv { vc.reloadData with reloadQueued := false } := by
  intro u hu _
  have huser : vc.user = some u := hu
  constructor
  · intro sec cell hcell
    -- the row was on the screen before
    obtain ⟨old, -, rfl⟩ := Option.map_eq_some_iff.1 hcell
    rw [huser]
    exact cellAgrees_cellForRowAt u sec
  · intro cell hcell
    obtain ⟨old, -, rfl⟩ := Option.map_eq_some_iff.1 hcell
    rw [huser]
    exact rangeAgrees_rangeCellForRowAt u

/-- A text is edited, and the copy of the profile with it. -/
theorem ShownInv.edit (h : ShownInv vc) (sec : TextSection) (text : Option String) :
    ShownInv { vc.editText sec text with user := vc.user.map (sec.edit text) } := by
  intro u' hu' hq
  obtain ⟨u, hu, rfl⟩ := Option.map_eq_some_iff.1 hu'
  obtain ⟨htext, hrange⟩ := h u hu hq
  refine ⟨cellAgrees_update htext (fun cell hcell => ?_) fun sec' cell hne hold =>
    cellAgrees_edit_of_ne hne text hold, fun cell hcell =>
    rangeAgrees_edit sec text (hrange cell hcell)⟩
  obtain ⟨old, -, rfl⟩ := Option.map_eq_some_iff.1 hcell
  exact cellAgrees_edit sec text u old

end Cells

open SettingsViewController in
theorem ShownInv.handle {P : Platform} {vc : SettingsViewController Image} (h : ShownInv vc)
    (e : Event Image) : ShownInv (handle P vc e) := by
  cases e with
  | loaded data =>
      cases data with
      | none => exact h.congr rfl rfl rfl rfl
      | some d =>
          -- the reload is waiting now
          intro u hu hq
          exact absurd hq (by simp [Settings.handle, fetchCurrentUserReply])
  | reloadData => exact ShownInv.reloadData
  | cellForRowAt sec =>
      refine h.text_update fun u cell hu hcell => ?_
      rw [← Option.some_inj.1 hcell, hu]
      exact cellAgrees_cellForRowAt u sec
  | didEndDisplaying sec =>
      exact h.text_update fun u cell _ hcell => absurd hcell.symm (Option.some_ne_none cell)
  | rangeCellForRowAt =>
      refine h.range_update fun u cell hu hcell => ?_
      rw [← Option.some_inj.1 hcell, hu]
      exact rangeAgrees_rangeCellForRowAt u
  | rangeDidEndDisplaying =>
      exact h.range_update fun u cell _ hcell => absurd hcell.symm (Option.some_ne_none cell)
  | editingChanged sec text =>
      rw [handle_editingChanged]
      exact h.edit sec text
  | minAgeChanged position =>
      cases hcell : vc.rangeCell with
      | none => rwa [handle_minAgeChanged_none P hcell]
      | some cell =>
          rw [handle_minAgeChanged_some P hcell]
          exact h.slide hcell (fun _ => rfl) (fun _ => rfl) (fun _ => rfl)
            fun u hagrees => ⟨rfl, hagrees.max⟩
  | maxAgeChanged position =>
      cases hcell : vc.rangeCell with
      | none => rwa [handle_maxAgeChanged_none P hcell]
      | some cell =>
          rw [handle_maxAgeChanged_some P hcell]
          exact h.slide hcell (fun _ => rfl) (fun _ => rfl) (fun _ => rfl)
            fun u hagrees => ⟨hagrees.min, rfl⟩
  | didFinishPickingMedia image =>
      obtain ⟨photos, hphotos⟩ := vc.didFinishPickingMedia_eq image
      have heq : Settings.handle P vc (.didFinishPickingMedia image) =
          { vc with photos := photos, picker := none } := hphotos
      rw [heq]
      exact h.congr rfl rfl rfl rfl
  | _ => exact h.congr rfl rfl rfl rfl

/-- Whenever the profile is loaded and no reload is waiting, the cells agree with it. -/
theorem shownInv_run {P : Platform} {currentUser : Option String}
    {vc : SettingsViewController Image} {es : List (Event Image)}
    (hrun : run (step P) (.viewDidLoad currentUser) es = some vc) : ShownInv vc := by
  refine invariant_run (I := ShownInv) (fun vc e vc' hI hstep => ?_) ?_ hrun
  · obtain ⟨-, rfl⟩ := step_eq_some.1 hstep
    exact hI.handle e
  · intro u hu
    exact absurd hu (by simp [SettingsViewController.viewDidLoad])

/-! ### The main result -/

/-- What Save stores for a copy that has been loaded is shown only where the cells have caught up
with the copy. -/
theorem StoresShown.caughtUp {vc : SettingsViewController Image} {u : User} {uid : String}
    (h : StoresShown vc (saveDict uid (some u))) : CaughtUp vc u := by
  refine ⟨fun cell hcell => ?_, fun cell hcell => ?_, fun cell hcell age z hage hz => ?_,
    fun cell hcell => ?_⟩
  · have hname : some (Value.string (u.name.getD "")) = some (.string cell.shown) :=
      h.name cell hcell
    rw [Option.some_inj, Value.string.injEq] at hname
    exact hname.symm
  · have hprofession : some (Value.string (u.profession.getD "")) = some (.string cell.shown) :=
      h.profession cell hcell
    rw [Option.some_inj, Value.string.injEq] at hprofession
    exact hprofession.symm
  · obtain ⟨n, hstored, hn⟩ := h.age cell z hcell hz
    have hstored : some (Value.int (u.age.getD (-1))) = some (.int n) := hstored
    rw [hage, Option.getD_some, Option.some_inj, Value.int.injEq] at hstored
    rw [hstored, hn]
  · obtain ⟨min, max, hmin, hsmin, hmax, hsmax⟩ := h.range cell hcell
    have hsmin : some (Value.int (u.minSeekingAge.getD (-1))) = some (.int min) := hsmin
    have hsmax : some (Value.int (u.maxSeekingAge.getD (-1))) = some (.int max) := hsmax
    rw [Option.some_inj, Value.int.injEq] at hsmin hsmax
    exact ⟨hsmin ▸ hmin, hsmax ▸ hmax⟩

/-- An absent age is stored as -1. -/
theorem StoresShown.ageShown {vc : SettingsViewController Image} {u : User} {uid : String}
    (h : StoresShown vc (saveDict uid (some u))) : AgeShown vc u := by
  cases hage : u.age with
  | some age => exact Or.inl (by rw [hage]; rfl)
  | none =>
      refine Or.inr fun cell z hcell hz => ?_
      obtain ⟨n, hstored, hn⟩ := h.age cell z hcell hz
      have hstored : some (Value.int (u.age.getD (-1))) = some (.int n) := hstored
      rw [hage, Option.getD_none, Option.some_inj, Value.int.injEq] at hstored
      rw [← hn, ← hstored]
      rfl

theorem CaughtUp.storesShown {vc : SettingsViewController Image} {u : User} (h : CaughtUp vc u)
    (hshown : AgeShown vc u) (uid : String) : StoresShown vc (saveDict uid (some u)) := by
  refine ⟨fun cell hcell => ?_, fun cell hcell => ?_, fun cell z hcell hz => ?_,
    fun cell hcell => ?_⟩
  · have hname : cell.shown = u.name.getD "" := h.name cell hcell
    rw [hname]
    rfl
  · have hprofession : cell.shown = u.profession.getD "" := h.profession cell hcell
    rw [hprofession]
    rfl
  · refine ⟨u.age.getD (-1), rfl, ?_⟩
    cases hage : u.age with
    | some age => exact h.age cell hcell age z hage hz
    | none =>
        have hno := hshown.resolve_left (by rw [hage]; exact Bool.false_ne_true)
        rw [hno cell z hcell hz]
        rfl
  · obtain ⟨hmin, hmax⟩ := h.range cell hcell
    exact ⟨_, _, hmin, rfl, hmax, rfl⟩

/-- Before the profile has been loaded Save stores what the cells show exactly when nothing has been
entered and no age is shown. -/
theorem storesShown_none_iff {vc : SettingsViewController Image} (uid : String) :
    StoresShown vc (saveDict uid none) ↔ NothingEntered vc := by
  constructor
  · intro h
    refine ⟨fun cell hcell => ?_, fun cell hcell => ?_, fun cell z hcell hz => ?_,
      fun cell hcell => ?_⟩
    · have hname : some (Value.string "") = some (.string cell.shown) := h.name cell hcell
      rw [Option.some_inj, Value.string.injEq] at hname
      exact hname.symm
    · have hprofession : some (Value.string "") = some (.string cell.shown) :=
        h.profession cell hcell
      rw [Option.some_inj, Value.string.injEq] at hprofession
      exact hprofession.symm
    · obtain ⟨n, hstored, hn⟩ := h.age cell z hcell hz
      have hstored : some (Value.int (-1)) = some (.int n) := hstored
      rw [Option.some_inj, Value.int.injEq] at hstored
      rw [← hn, ← hstored]
      rfl
    · obtain ⟨min, max, hmin, hsmin, hmax, hsmax⟩ := h.range cell hcell
      have hsmin : some (Value.int (-1)) = some (.int min) := hsmin
      have hsmax : some (Value.int (-1)) = some (.int max) := hsmax
      rw [Option.some_inj, Value.int.injEq] at hsmin hsmax
      rw [hmin, hmax, ← hsmin, ← hsmax]
      exact ⟨rfl, rfl⟩
  · intro h
    refine ⟨fun cell hcell => ?_, fun cell hcell => ?_, fun cell z hcell hz => ?_,
      fun cell hcell => ?_⟩
    · rw [h.name cell hcell]
      rfl
    · rw [h.profession cell hcell]
      rfl
    · exact ⟨-1, rfl, by rw [h.age cell z hcell hz]; rfl⟩
    · obtain ⟨hmin, hmax⟩ := h.range cell hcell
      exact ⟨-1, -1, hmin, rfl, hmax, rfl⟩

/-- **When Save stores what is shown.**  In every state that a run can reach, Save stores what the
cells show exactly when the profile has been loaded, its age is present or not shown, and, if a
reload of the table is still waiting, the older cells show what was loaded; or when the profile has
not been loaded and nothing has been entered. -/
theorem save_stores_shown_iff (P : Platform) {currentUser : Option String}
    {vc : SettingsViewController Image} {es : List (Event Image)} (uid : String)
    (hrun : run (step P) (.viewDidLoad currentUser) es = some vc) :
    StoresShown vc (saveDict uid vc.user) ↔
      (∃ u, vc.user = some u ∧ AgeShown vc u ∧ (vc.reloadQueued = true → CaughtUp vc u)) ∨
      vc.user = none ∧ NothingEntered vc := by
  cases huser : vc.user with
  | none => simpa using storesShown_none_iff uid
  | some u =>
      constructor
      · intro hstores
        exact Or.inl ⟨u, rfl, hstores.ageShown, fun _ => hstores.caughtUp⟩
      · rintro (⟨u', hu', hage, hwaiting⟩ | ⟨hnone, -⟩)
        · obtain rfl := Option.some_inj.1 hu'
          cases hqueued : vc.reloadQueued with
          | true => exact (hwaiting hqueued).storesShown hage uid
          | false =>
              -- the cells were made from the copy and changed with it
              have hagrees := shownInv_run hrun u huser hqueued
              exact hagrees.caughtUp.storesShown hage uid
        · cases hnone

/-- A profile without an age is loaded and its age cell comes onto the screen. -/
def showAge : List (Event ℕ) :=
  [.cellForRowAt .name, .loaded (some (saveInfoDictionary (some "Ann") "u1" "url")), .reloadData,
    .cellForRowAt .age]

theorem save_stores_shown_iff_age :
    ∃ vc : SettingsViewController ℕ,
      run (step plainPlatform) (.viewDidLoad (some "u1")) showAge = some vc ∧
        (StoresShown vc (saveDict "u1" vc.user) ↔
          (∃ u, vc.user = some u ∧ AgeShown vc u ∧ (vc.reloadQueued = true → CaughtUp vc u)) ∨
          vc.user = none ∧ NothingEntered vc) := by
  have hrun : run (step plainPlatform) (.viewDidLoad (some "u1")) showAge = some _ := rfl
  exact ⟨_, hrun, save_stores_shown_iff plainPlatform "u1" hrun⟩

/-- **An age that is not there is shown as 0 and stored as -1.** -/
theorem save_stores_other_age :
    ∃ (vc : SettingsViewController ℕ) (cell : SettingsCell),
      run (step plainPlatform) (.viewDidLoad (some "u1")) showAge = some vc ∧
        vc.cells .age = some cell ∧ integerOfText cell.shown = some 0 ∧
        saveDict "u1" vc.user "age" = some (.int (-1)) ∧
        ¬ StoresShown vc (saveDict "u1" vc.user) := by
  refine ⟨_, _, rfl, rfl, by decide, rfl, fun h => ?_⟩
  obtain ⟨n, hstored, hn⟩ := h.age _ 0 rfl (by decide)
  rw [← Value.int.inj (Option.some_inj.1 hstored)] at hn
  exact absurd hn (by decide)

end Settings
