/-
**The range of ages sought.**

The two bounds of the range have a slider each.  Each handler stores the position of its own slider
and does not look at the other bound, and Save stores an absent bound as -1.  So a bound that is
set always lies between the ends of its slider, but nothing keeps the lower one below the upper
one: they stay in order exactly when no slider is moved past the other bound, and what is saved is
in order exactly when moreover nothing is saved while the lower bound alone is set.

* `Settings.SessionEvent`, `Settings.Session.step` — one session: its screen and its Save button;
* `Settings.setBound` — a bound, unless it is unset;
* `Settings.handle_bounds` — **what an event does to the bounds**;
* `Settings.InRange`, `Settings.RangeKept`, `Settings.KeepsRange` — the ends of the sliders, the
  order of the bounds, and the condition on the events;
* `Settings.seeking_range_kept_iff` — **when the range stays a range.**
-/

import TinderFirestore.SettingsStore

set_option relaxedAutoImplicit false
set_option autoImplicit false

namespace Settings

open Firestore Profile Swift EventRun

variable {Image : Type*}

/-! ### One session -/

/-- What can happen in one session. -/
inductive SessionEvent (Image : Type*)
  /-- Something happens on the screen. -/
  | screen (e : Event Image)
  /-- The Save button is tapped. -/
  | saveHandle

/-- **What an event does** in one session, whose writes are left outstanding. -/
def Session.step (P : Platform) (c : Session Image) :
    SessionEvent Image → Option (Session Image)
  | .screen e =>
    (Settings.step P c.screen e).map fun screen =>
      { c with screen, edited := c.edited ++ editedKeys c.screen e }
  | .saveHandle => some c.saveHandle

/-! ### The bounds -/

/-- A bound, unless it is unset: absent, or -1. -/
def setBound (bound : Option Int64) : Option Int64 := bound.filter fun n => n ≠ -1

/-- The bounds that a profile was stored with: both unset, or a range between the ends of the
sliders. -/
def StoredRange (u : User) : Prop :=
  (setBound u.minSeekingAge = none ∧ setBound u.maxSeekingAge = none) ∨
    ∃ min max, u.minSeekingAge = some min ∧ u.maxSeekingAge = some max ∧
      18 ≤ min ∧ min ≤ max ∧ max ≤ 100

/-- The bounds that are set lie between the ends of the sliders. -/
structure InRange (u : User) : Prop where
  min : ∀ n, setBound u.minSeekingAge = some n → 18 ≤ n ∧ n ≤ 100
  max : ∀ n, setBound u.maxSeekingAge = some n → 18 ≤ n ∧ n ≤ 100

/-- The bounds are in order, if both are set. -/
def Ordered (u : User) : Prop :=
  ∀ min max, setBound u.minSeekingAge = some min → setBound u.maxSeekingAge = some max → min ≤ max

/-- The stored bounds are in order. -/
def SavedOrdered (d : Dictionary) : Prop :=
  ∃ min max, d "minSeekingAge" = some (.int min) ∧ d "maxSeekingAge" = some (.int max) ∧ min ≤ max

/-- The range is a range: on the screen when both bounds are set, and in every document saved. -/
structure RangeKept (c : Session Image) : Prop where
  screen : ∀ u, c.screen.user = some u → ∀ min max, setBound u.minSeekingAge = some min →
    setBound u.maxSeekingAge = some max → 18 ≤ min ∧ min ≤ max ∧ max ≤ 100
  saved : ∀ w ∈ c.pending, SavedOrdered w.data

/-- No slider is moved past the other bound, and nothing is saved while the lower bound alone is
set. -/
def KeepsRange (c : Session Image) : SessionEvent Image → Prop
  | .screen (.minAgeChanged position) => ∀ u max, c.screen.rangeCell.isSome →
      c.screen.user = some u → setBound u.maxSeekingAge = some max → intOfSlider position.val ≤ max
  | .screen (.maxAgeChanged position) => ∀ u min, c.screen.rangeCell.isSome →
      c.screen.user = some u → setBound u.minSeekingAge = some min → min ≤ intOfSlider position.val
  | .saveHandle => ∀ u, c.currentUser.isSome → c.screen.user = some u →
      (setBound u.minSeekingAge).isSome → (setBound u.maxSeekingAge).isSome
  | _ => True

theorem setBound_eq_some {bound : Option Int64} {n : Int64} :
    setBound bound = some n ↔ bound = some n ∧ n ≠ -1 := by
  simp [setBound]

theorem StoredRange.inRange {u : User} (h : StoredRange u) : InRange u := by
  rcases h with ⟨hmin, hmax⟩ | ⟨min, max, hmin, hmax, hlow, hle, hhigh⟩
  · exact ⟨fun n hn => absurd (hmin.symm.trans hn) (by simp),
      fun n hn => absurd (hmax.symm.trans hn) (by simp)⟩
  · constructor
    · intro n hn
      obtain rfl := Option.some_inj.1 (hmin.symm.trans (setBound_eq_some.1 hn).1)
      exact ⟨hlow, Int64.le_trans hle hhigh⟩
    · intro n hn
      obtain rfl := Option.some_inj.1 (hmax.symm.trans (setBound_eq_some.1 hn).1)
      exact ⟨Int64.le_trans hlow hle, hhigh⟩

theorem StoredRange.ordered {u : User} (h : StoredRange u) : Ordered u := by
  intro min max hmin hmax
  rcases h with ⟨hno, -⟩ | ⟨min', max', hmin', hmax', -, hle, -⟩
  · exact absurd (hno.symm.trans hmin) (by simp)
  · obtain rfl := Option.some_inj.1 (hmin'.symm.trans (setBound_eq_some.1 hmin).1)
    obtain rfl := Option.some_inj.1 (hmax'.symm.trans (setBound_eq_some.1 hmax).1)
    exact hle

/-- The position of a slider is a bound that is set and lies between its ends. -/
theorem setBound_intOfSlider (position : SliderPosition) :
    setBound (some (intOfSlider position.val)) = some (intOfSlider position.val) ∧
      18 ≤ intOfSlider position.val ∧ intOfSlider position.val ≤ 100 := by
  obtain ⟨hlow, hhigh⟩ := intOfSlider_toInt_mem (a := 18) (b := 100) (by decide) (by decide)
    position.property.1 position.property.2
  have hlow' : (18 : Int64) ≤ intOfSlider position.val := Int64.le_iff_toInt_le.2 hlow
  have hhigh' : intOfSlider position.val ≤ 100 := Int64.le_iff_toInt_le.2 hhigh
  refine ⟨setBound_eq_some.2 ⟨rfl, fun hneg => ?_⟩, hlow', hhigh'⟩
  rw [hneg] at hlow'
  exact absurd hlow' (by decide)

/-! ### What an event does to the bounds -/

section Step

variable {P : Platform} {vc : SettingsViewController Image} {u : User}

/-- **What an event does to the bounds** of a profile that has been loaded: nothing, or it is a move
of a slider on the screen and sets the bound of this slider. -/
theorem handle_bounds (hu : vc.user = some u) (hloading : vc.loading = false) {e : Event Image}
    (hpossible : possible vc e = true) :
    ∃ u', (handle P vc e).user = some u' ∧
      ((u'.minSeekingAge = u.minSeekingAge ∧ u'.maxSeekingAge = u.maxSeekingAge ∧
          ∀ position, vc.rangeCell.isSome →
            e ≠ .minAgeChanged position ∧ e ≠ .maxAgeChanged position) ∨
        (∃ position, e = .minAgeChanged position ∧ vc.rangeCell.isSome ∧
          u'.minSeekingAge = some (intOfSlider position.val) ∧ u'.maxSeekingAge = u.maxSeekingAge) ∨
        ∃ position, e = .maxAgeChanged position ∧ vc.rangeCell.isSome ∧
          u'.minSeekingAge = u.minSeekingAge ∧
          u'.maxSeekingAge = some (intOfSlider position.val)) := by
  cases e with
  | loadFailed error => exact absurd hpossible (by simp [possible, hloading])
  | loaded data => exact absurd hpossible (by simp [possible, hloading])
  | editingChanged sec text =>
      cases sec with
      | bio => exact ⟨u, hu, Or.inl ⟨rfl, rfl, by simp⟩⟩
      | _ => exact ⟨_, congrArg (Option.map _) hu, Or.inl ⟨rfl, rfl, by simp⟩⟩
  | minAgeChanged position =>
      cases hcell : vc.rangeCell with
      | none =>
          rw [handle_minAgeChanged_none P hcell]
          exact ⟨u, hu, Or.inl ⟨rfl, rfl, by simp⟩⟩
      | some cell =>
          rw [handle_minAgeChanged_some P hcell, hu]
          exact ⟨_, rfl, Or.inr (Or.inl ⟨position, rfl, rfl, rfl, rfl⟩)⟩
  | maxAgeChanged position =>
      cases hcell : vc.rangeCell with
      | none =>
          rw [handle_maxAgeChanged_none P hcell]
          exact ⟨u, hu, Or.inl ⟨rfl, rfl, by simp⟩⟩
      | some cell =>
          rw [handle_maxAgeChanged_some P hcell, hu]
          exact ⟨_, rfl, Or.inr (Or.inr ⟨position, rfl, rfl, rfl, rfl⟩)⟩
  | didFinishPickingMedia image =>
      obtain ⟨photos, hphotos⟩ := vc.didFinishPickingMedia_eq image
      rw [handle, hphotos]
      exact ⟨u, hu, Or.inl ⟨rfl, rfl, by simp⟩⟩
  | _ => exact ⟨u, hu, Or.inl ⟨rfl, rfl, by simp⟩⟩

end Step

/-! ### The invariants -/

/-- The profile has been loaded, and its bounds lie between the ends of the sliders. -/
structure LoadedInRange (c : Session Image) : Prop where
  loading : c.screen.loading = false
  user : ∃ u, c.screen.user = some u ∧ InRange u

/-- As long as every event has met the condition, the bounds are in order and were so in every
document saved. -/
structure RangeInv (c : Session Image) : Prop where
  inRange : LoadedInRange c
  ordered : ∀ u, c.screen.user = some u → Ordered u
  saved : ∀ w ∈ c.pending, SavedOrdered w.data

theorem RangeInv.rangeKept {c : Session Image} (h : RangeInv c) : RangeKept c := by
  refine ⟨fun u hu min max hmin hmax => ?_, h.saved⟩
  obtain ⟨v, hv, hrange⟩ := h.inRange.user
  obtain rfl := Option.some_inj.1 (hv.symm.trans hu)
  exact ⟨(hrange.min min hmin).1, h.ordered v hu min max hmin hmax, (hrange.max max hmax).2⟩

/-- Tapping Save leaves the screen alone. -/
theorem Session.saveHandle_screen (c : Session Image) : c.saveHandle.screen = c.screen := by
  unfold Session.saveHandle
  split <;> rfl

/-- A bound is saved as it is, or as -1 if it is unset. -/
theorem getD_eq_setBound (bound : Option Int64) :
    bound.getD (-1) = (setBound bound).getD (-1) := by
  cases bound with
  | none => rfl
  | some n =>
      by_cases hn : n = -1
      · subst hn
        rfl
      · rw [setBound_eq_some.2 ⟨rfl, hn⟩]

/-- What is saved is in order unless the lower bound alone is set. -/
theorem savedOrdered_saveDict_iff {u : User} (uid : String) (hrange : InRange u)
    (hordered : Ordered u) : SavedOrdered (saveDict uid (some u)) ↔
      ((setBound u.minSeekingAge).isSome → (setBound u.maxSeekingAge).isSome) := by
  have hsaved : SavedOrdered (saveDict uid (some u)) ↔
      u.minSeekingAge.getD (-1) ≤ u.maxSeekingAge.getD (-1) := by
    constructor
    · rintro ⟨min, max, hmin, hmax, hle⟩
      obtain rfl := Value.int.inj (Option.some_inj.1 hmin)
      obtain rfl := Value.int.inj (Option.some_inj.1 hmax)
      exact hle
    · intro hle
      exact ⟨_, _, rfl, rfl, hle⟩
  rw [hsaved, getD_eq_setBound, getD_eq_setBound u.maxSeekingAge]
  have hpos (n : Int64) (h : 18 ≤ n) : ¬ n ≤ -1 ∧ -1 ≤ n := by
    rw [Int64.le_iff_toInt_le, Int64.le_iff_toInt_le] at *
    have h18 : (18 : Int64).toInt = 18 := rfl
    have hneg : (-1 : Int64).toInt = -1 := rfl
    omega
  cases hmin : setBound u.minSeekingAge with
  | none =>
      refine iff_of_true ?_ (by simp)
      cases hmax : setBound u.maxSeekingAge with
      | none => exact Int64.le_refl _
      | some max => exact (hpos max (hrange.max max hmax).1).2
  | some min =>
      cases hmax : setBound u.maxSeekingAge with
      | none => exact iff_of_false (hpos min (hrange.min min hmin).1).1 (by simp)
      | some max => exact iff_of_true (hordered min max hmin hmax) (by simp)

section Step

variable {P : Platform} {c c' : Session Image} {e : SessionEvent Image}

/-- What happens on the screen, given what an event does to the bounds. -/
theorem Session.step_screen {e : Event Image} (h : c.step P (.screen e) = some c') :
    possible c.screen e = true ∧ c'.screen = handle P c.screen e ∧ c'.pending = c.pending := by
  obtain ⟨screen, hscreen, rfl⟩ := Option.map_eq_some_iff.1 h
  obtain ⟨hpossible, rfl⟩ := step_eq_some.1 hscreen
  exact ⟨hpossible, rfl, rfl⟩

/-- Every event keeps the bounds between the ends of the sliders. -/
theorem LoadedInRange.step (hI : LoadedInRange c) (h : c.step P e = some c') :
    LoadedInRange c' := by
  obtain ⟨hloading, u, hu, hrange⟩ := hI
  cases e with
  | saveHandle =>
      obtain rfl := Option.some_inj.1 h
      refine ⟨?_, u, ?_, hrange⟩ <;> rwa [Session.saveHandle_screen]
  | screen e =>
      obtain ⟨hpossible, hscreen, -⟩ := Session.step_screen h
      obtain ⟨u', hu', hcases⟩ := handle_bounds (P := P) hu hloading hpossible
      refine ⟨by rw [hscreen]; exact handle_loading hloading e, u', by rw [hscreen, hu'], ?_⟩
      rcases hcases with ⟨hmin, hmax, -⟩ | ⟨position, -, -, hmin, hmax⟩ |
        ⟨position, -, -, hmin, hmax⟩
      · exact ⟨hmin ▸ hrange.min, hmax ▸ hrange.max⟩
      · obtain ⟨hset, hbetween⟩ := setBound_intOfSlider position
        refine ⟨fun n hn => ?_, hmax ▸ hrange.max⟩
        rw [hmin, hset, Option.some_inj] at hn
        exact hn ▸ hbetween
      · obtain ⟨hset, hbetween⟩ := setBound_intOfSlider position
        refine ⟨hmin ▸ hrange.min, fun n hn => ?_⟩
        rw [hmax, hset, Option.some_inj] at hn
        exact hn ▸ hbetween

/-- An event after which the range is a range meets the condition. -/
theorem RangeInv.keepsRange (hI : RangeInv c) (h : c.step P e = some c') (hkept : RangeKept c') :
    KeepsRange c e := by
  obtain ⟨hloading, v, hv, hrange⟩ := hI.inRange
  cases e with
  | saveHandle =>
      intro u haccount hu
      obtain rfl := Option.some_inj.1 (hv.symm.trans hu)
      obtain ⟨uid, huid⟩ := Option.isSome_iff_exists.1 haccount
      obtain rfl := Option.some_inj.1 h
      refine (savedOrdered_saveDict_iff uid hrange (hI.ordered v hv)).1 ?_
      rw [Session.saveHandle_eq huid, hv] at hkept
      exact hkept.saved _ (List.mem_append_right _ List.mem_cons_self)
  | screen e =>
      obtain ⟨hpossible, hscreen, -⟩ := Session.step_screen h
      obtain ⟨u', hu', hcases⟩ := handle_bounds (P := P) hv hloading hpossible
      rw [← hscreen] at hu'
      cases e with
      | minAgeChanged position =>
          intro u max hcell hu hmax
          obtain rfl := Option.some_inj.1 (hv.symm.trans hu)
          rcases hcases with ⟨-, -, hno⟩ | ⟨position', heq, -, hmin, hmax'⟩ | ⟨position', heq, -⟩
          · exact absurd rfl (hno position hcell).1
          · obtain rfl := Event.minAgeChanged.inj heq
            rw [← hmax'] at hmax
            refine (hkept.screen u' hu' _ max ?_ hmax).2.1
            rw [hmin]
            exact (setBound_intOfSlider position).1
          · cases heq
      | maxAgeChanged position =>
          intro u min hcell hu hmin
          obtain rfl := Option.some_inj.1 (hv.symm.trans hu)
          rcases hcases with ⟨-, -, hno⟩ | ⟨position', heq, -⟩ | ⟨position', heq, -, hmin', hmax⟩
          · exact absurd rfl (hno position hcell).2
          · cases heq
          · obtain rfl := Event.maxAgeChanged.inj heq
            rw [← hmin'] at hmin
            refine (hkept.screen u' hu' min _ hmin ?_).2.1
            rw [hmax]
            exact (setBound_intOfSlider position).1
      | _ => trivial

/-- An event that meets the condition keeps the bounds of the copy in order. -/
theorem RangeInv.ordered_step (hI : RangeInv c) (h : c.step P e = some c')
    (hkeeps : KeepsRange c e) {u : User} (hu : c'.screen.user = some u) : Ordered u := by
  obtain ⟨hloading, v, hv, -⟩ := hI.inRange
  have hordered := hI.ordered v hv
  cases e with
  | saveHandle =>
      obtain rfl := Option.some_inj.1 h
      rw [Session.saveHandle_screen] at hu
      exact hI.ordered u hu
  | screen e =>
      obtain ⟨hpossible, hscreen, -⟩ := Session.step_screen h
      obtain ⟨u', hu', hcases⟩ := handle_bounds (P := P) hv hloading hpossible
      rw [hscreen, hu'] at hu
      obtain rfl := Option.some_inj.1 hu
      intro min max hmin hmax
      rcases hcases with ⟨hmin', hmax', -⟩ | ⟨position, rfl, hcell, hmin', hmax'⟩ |
        ⟨position, rfl, hcell, hmin', hmax'⟩
      · exact hordered min max (hmin' ▸ hmin) (hmax' ▸ hmax)
      · rw [hmin', (setBound_intOfSlider position).1, Option.some_inj] at hmin
        exact hmin ▸ hkeeps v max hcell hv (hmax' ▸ hmax)
      · rw [hmax', (setBound_intOfSlider position).1, Option.some_inj] at hmax
        exact hmax ▸ hkeeps v min hcell hv (hmin' ▸ hmin)

/-- It keeps the bounds of the saved documents in order, too. -/
theorem RangeInv.saved_step (hI : RangeInv c) (h : c.step P e = some c') (hkeeps : KeepsRange c e) :
    ∀ w ∈ c'.pending, SavedOrdered w.data := by
  cases e with
  | saveHandle =>
      obtain rfl := Option.some_inj.1 h
      obtain ⟨-, v, hv, hrange⟩ := hI.inRange
      cases haccount : c.currentUser with
      | none =>
          have hsame : c.saveHandle = c := by simp [Session.saveHandle, haccount]
          rw [hsame]
          exact hI.saved
      | some uid =>
          rw [Session.saveHandle_eq haccount]
          intro w hw
          rcases List.mem_append.1 hw with hw | hw
          · exact hI.saved w hw
          · obtain rfl := List.mem_singleton.1 hw
            rw [hv]
            exact (savedOrdered_saveDict_iff uid hrange (hI.ordered v hv)).2
              (hkeeps v (by rw [haccount]; rfl) hv)
  | screen e =>
      obtain ⟨-, -, hpending⟩ := Session.step_screen h
      rw [hpending]
      exact hI.saved

/-- **An event that meets the condition keeps the invariant.** -/
theorem RangeInv.step (hI : RangeInv c) (h : c.step P e = some c') (hkeeps : KeepsRange c e) :
    RangeInv c' :=
  ⟨hI.inRange.step h, fun _ => hI.ordered_step h hkeeps, hI.saved_step h hkeeps⟩

end Step

/-! ### The main result -/

/-- **When the range stays a range.**  A session has loaded a profile whose bounds were stored as a
range, or not at all, and any sequence of events and saves follows.  The bounds that are set always
lie between the ends of the sliders.  They are in order in every state, and so is every document
saved, exactly when no slider is moved past the other bound and nothing is saved while the lower
bound alone is set. -/
theorem seeking_range_kept_iff (P : Platform) {c₀ c : Session Image} {u₀ : User}
    {es : List (SessionEvent Image)} (hloading : c₀.screen.loading = false)
    (hu₀ : c₀.screen.user = some u₀) (hstored : StoredRange u₀) (hpending : c₀.pending = [])
    (hrun : run (Session.step P) c₀ es = some c) :
    (∃ u, c.screen.user = some u ∧ InRange u) ∧
    (StatesMeet (Session.step P) RangeKept c₀ es ↔
      StepsMeet (Session.step P) KeepsRange c₀ es) := by
  have hinRange : LoadedInRange c₀ := ⟨hloading, u₀, hu₀, hstored.inRange⟩
  constructor
  · have hend : LoadedInRange c :=
      invariant_run (I := LoadedInRange) (fun c e c' hI hstep => hI.step hstep) hinRange hrun
    exact hend.user
  · refine statesMeet_iff_stepsMeet (I := RangeInv) (fun c hI => hI.rangeKept)
      (fun c e c' hI hstep hkept => hI.keepsRange hstep hkept)
      (fun c e c' hI hstep hkeeps => hI.step hstep hkeeps) ?_ hrun
    refine ⟨hinRange, fun u hu => ?_, by simp [hpending]⟩
    obtain rfl := Option.some_inj.1 (hu₀.symm.trans hu)
    exact hstored.ordered

/-- Loading a profile that was saved with the range from 20 to 30. -/
def loadTwenties : List (SessionEvent ℕ) :=
  [.screen (.loaded (some (saveDict "u1" (some
      { name := none, age := none, profession := none, imageNames := [], uid := none,
        minSeekingAge := some 20, maxSeekingAge := some 30 })))),
    .screen .reloadData, .screen .rangeCellForRowAt]

/-- Moving the slider of the lower bound, and saving. -/
def moveMinAge (position : SliderPosition) : List (SessionEvent ℕ) :=
  [.screen (.minAgeChanged position), .saveHandle]

theorem seeking_range_kept_iff_twenties :
    ∃ c₀ c, run (Session.step plainPlatform) (.opened (some "u1")) loadTwenties = some c₀ ∧
      run (Session.step plainPlatform) c₀ (moveMinAge ⟨25, by decide⟩) = some c ∧
      (∃ u, c.screen.user = some u ∧ InRange u) ∧
      (StatesMeet (Session.step plainPlatform) RangeKept c₀ (moveMinAge ⟨25, by decide⟩) ↔
        StepsMeet (Session.step plainPlatform) KeepsRange c₀ (moveMinAge ⟨25, by decide⟩)) := by
  have hstored : StoredRange (User.init (saveDict "u1" (some
      { name := none, age := none, profession := none, imageNames := [], uid := none,
        minSeekingAge := some 20, maxSeekingAge := some 30 }))) :=
    Or.inr ⟨20, 30, rfl, rfl, by decide, by decide, by decide⟩
  exact ⟨_, _, rfl, rfl, seeking_range_kept_iff plainPlatform rfl rfl hstored rfl rfl⟩

/-- **A slider can be moved past the other one**: the range is from 50 to 30 then, and is saved. -/
theorem seeking_range_reversed :
    ∃ c₀ c u w, run (Session.step plainPlatform) (.opened (some "u1")) loadTwenties = some c₀ ∧
      run (Session.step plainPlatform) c₀ (moveMinAge ⟨50, by decide⟩) = some c ∧
      c.screen.user = some u ∧ u.minSeekingAge = some 50 ∧ u.maxSeekingAge = some 30 ∧
      c.pending = [w] ∧ w.data "minSeekingAge" = some (.int 50) ∧
      w.data "maxSeekingAge" = some (.int 30) ∧ ¬ RangeKept c := by
  refine ⟨_, _, _, _, rfl, rfl, rfl, rfl, rfl, rfl, rfl, rfl, fun h => ?_⟩
  exact absurd (h.screen _ rfl 50 30 rfl rfl).2.1 (by decide)

end Settings
