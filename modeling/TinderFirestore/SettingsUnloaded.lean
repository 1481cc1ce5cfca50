/-
**Saving before the profile has been loaded.**

Save takes a default for every field of a profile that is not there and writes the whole document.
So a tap of Save while the load is outstanding, or after it has failed, asks for a blank profile to
be written over the stored one.  Nothing is lost only if there is nothing to lose.

* `Settings.blankFields` — what Save writes when there is no copy of the profile;
* `Settings.CarriesOut` — an event carries a write out;
* `Settings.KeepsStored`, `Settings.OnlyBlank` — a Save from before the load leaves every stored
  field as it was; the stored document holds blank fields only;
* `Settings.unloaded_saves_keep_iff` — **when Saves from before the load destroy nothing.**
-/

import TinderFirestore.SettingsStore

set_option relaxedAutoImplicit false
set_option autoImplicit false

namespace Settings

open Firestore Profile EventRun

variable {Image : Type*}

/-! ### The blank profile -/

/-- The fields that Save writes when there is no copy of the profile. -/
def blankFields (uid : String) : List (String × Value) :=
  [("uid", .string uid), ("fullName", .string ""), ("image1Url", .string ""), ("age", .int (-1)),
    ("profession", .string ""), ("minSeekingAge", .int (-1)), ("maxSeekingAge", .int (-1))]

theorem saveDict_none_eq_some_iff {uid key : String} {value : Value} :
    saveDict uid none key = some value ↔ (key, value) ∈ blankFields uid := by
  have hkeys : ((blankFields uid).map Prod.fst).Nodup := by
    have : (blankFields uid).map Prod.fst = profileKeys := rfl
    rw [this]
    decide
  exact Dictionary.ofList_eq_some_iff hkeys

/-! ### Writes -/

/-- The event carries out the write `w`. -/
def CarriesOut (s : System Image) (e : SystemEvent Image) (w : Write) : Prop :=
  ∃ i c rest, e = .commit i ∧ s.sessions[i]? = some c ∧ c.pending = w :: rest

/-- Only a write that is carried out touches the store. -/
theorem System.Moves.users {P : Platform} {s s' : System Image} {e : SystemEvent Image}
    (h : System.Moves P s e s') :
    s'.users = s.users ∨ ∃ w, CarriesOut s e w ∧ s'.users = setData w.uid w.data s.users := by
  cases h with
  | committed hc hw => exact Or.inr ⟨_, ⟨_, _, _, rfl, hc, hw⟩, rfl⟩
  | _ => exact Or.inl rfl

/-- There is one write that an event can carry out, and it goes to the store. -/
theorem CarriesOut.users {P : Platform} {s s' : System Image} {e : SystemEvent Image} {w : Write}
    (h : CarriesOut s e w) (hstep : System.step P s e = some s') :
    s'.users = setData w.uid w.data s.users := by
  obtain ⟨i, c, rest, rfl, hc, hw⟩ := h
  have hmove := System.step_moves hstep
  cases hmove with
  | committed hc' hw' =>
      obtain rfl := Option.some_inj.1 (hc.symm.trans hc')
      obtain ⟨rfl, rfl⟩ := List.cons.inj (hw.symm.trans hw')
      rfl

/-- The outstanding writes were made by Save. -/
def MadeBySave (c : Session Image) : Prop := ∀ w ∈ c.pending, w.data = saveDict w.uid w.user

theorem madeBySave_step {P : Platform} {s s' : System Image} {e : SystemEvent Image}
    (hI : ∀ c ∈ s.sessions, MadeBySave c) (hmove : System.Moves P s e s') :
    ∀ c ∈ s'.sessions, MadeBySave c := by
  refine sessions_step hI ?_ hmove ?_ ?_ ?_ ?_ ?_ ?_
  · exact fun c b h => h
  · exact fun c data h _ => h
  · exact fun c data h _ => h
  · exact fun c error h => h
  · exact fun c e h _ => h
  · intro i c h _ _ w hw
    rw [Session.saveHandle] at hw
    split at hw
    · exact h w hw
    · rcases List.mem_append.1 hw with hw | hw
      · exact h w hw
      · obtain rfl := List.mem_singleton.1 hw
        rfl
  · intro c w rest h hw v hv
    exact h v (hw ▸ List.mem_cons_of_mem w hv)

/-! ### The main result -/

/-- Every session is that of a screen that has just been opened. -/
def System.Opened (s : System Image) : Prop :=
  ∀ c ∈ s.sessions, ∃ currentUser, c = Session.opened currentUser

/-- If the event carries out a Save that was tapped when the profile had not been loaded, every
field of every stored document keeps the value it had. -/
def KeepsStored (P : Platform) (s : System Image) (e : SystemEvent Image) : Prop :=
  ∀ w s', CarriesOut s e w → w.user = none → System.step P s e = some s' →
    ∀ document d, getDocument s.users document = some d →
      ∃ d', getDocument s'.users document = some d' ∧
        ∀ key value, d key = some value → d' key = some value

/-- If the event carries out a Save that was tapped when the profile had not been loaded, the
document that is stored for the account at that moment has blank fields only. -/
def OnlyBlank (s : System Image) (e : SystemEvent Image) : Prop :=
  ∀ w d, CarriesOut s e w → w.user = none → getDocument s.users w.uid = some d →
    ∀ key value, d key = some value → (key, value) ∈ blankFields w.uid

theorem keepsStored_iff_onlyBlank {P : Platform} {s s' : System Image} {e : SystemEvent Image}
    (hmade : ∀ c ∈ s.sessions, MadeBySave c) (hstep : System.step P s e = some s') :
    KeepsStored P s e ↔ OnlyBlank s e := by
  have hdata {w : Write} (hw : CarriesOut s e w) (hunloaded : w.user = none) :
      w.data = saveDict w.uid none := by
    obtain ⟨i, c, rest, -, hc, hpending⟩ := hw
    rw [hmade c (List.mem_of_getElem? hc) w (hpending ▸ List.mem_cons_self), hunloaded]
  constructor
  · intro h w d hw hunloaded hd key value hvalue
    obtain ⟨d', hd', hkept⟩ := h w s' hw hunloaded hstep w.uid d hd
    rw [hw.users hstep, getDocument_setData, Option.some_inj, hdata hw hunloaded] at hd'
    exact saveDict_none_eq_some_iff.1 (hd' ▸ hkept key value hvalue)
  · intro h w s'' hw hunloaded hstep'' document d hd
    rw [hw.users hstep'', hdata hw hunloaded]
    rcases eq_or_ne document w.uid with rfl | hne
    · refine ⟨_, getDocument_setData _ _ _, fun key value hvalue => ?_⟩
      exact saveDict_none_eq_some_iff.2 (h w d hw hunloaded hd key value hvalue)
    · exact ⟨d, by rw [getDocument_setData_of_ne _ _ hne, hd], fun _ _ => id⟩

/-- **When Saves from before the load destroy nothing.**  In a run, every Save that was tapped
before its profile had been loaded keeps every stored field exactly when each of them finds blank
fields only. -/
theorem unloaded_saves_keep_iff (P : Platform) {s₀ s : System Image}
    {es : List (SystemEvent Image)} (h₀ : s₀.Opened)
    (hrun : run (System.step P) s₀ es = some s) :
    StepsMeet (System.step P) (KeepsStored P) s₀ es ↔
      StepsMeet (System.step P) OnlyBlank s₀ es := by
  refine stepsMeet_congr (I := fun s => ∀ c ∈ s.sessions, MadeBySave c)
    (fun s e s' hI hstep => madeBySave_step hI (System.step_moves hstep))
    (fun s e s' hI hstep => keepsStored_iff_onlyBlank hI hstep) (fun c hc => ?_) hrun
  obtain ⟨currentUser, rfl⟩ := h₀ c hc
  exact fun w hw => absurd hw (by simp [Session.opened])

/-- One screen of a registered user. -/
def oneScreen : System ℕ where
  users := setData "u1" (saveInfoDictionary (some "Ann") "u1" "url") ∅
  sessions := [.opened (some "u1")]

/-- Save is tapped before the profile has come. -/
def earlySave : List (SystemEvent ℕ) :=
  [.evaluate 0, .saveHandle 0, .loadReply 0, .commit 0]

theorem oneScreen_opened : oneScreen.Opened := by
  intro c hc
  exact ⟨_, List.mem_singleton.1 hc⟩

theorem unloaded_saves_keep_iff_early :
    ∃ s, run (System.step plainPlatform) oneScreen earlySave = some s ∧
      (StepsMeet (System.step plainPlatform) (KeepsStored plainPlatform) oneScreen earlySave ↔
        StepsMeet (System.step plainPlatform) OnlyBlank oneScreen earlySave) :=
  ⟨_, rfl, unloaded_saves_keep_iff plainPlatform oneScreen_opened rfl⟩

/-- **A Save from before the load destroys the stored name**, although the profile has come by the
time it is carried out. -/
theorem early_save_destroys :
    ∃ s d d', run (System.step plainPlatform) oneScreen earlySave = some s ∧
      getDocument oneScreen.users "u1" = some d ∧ getDocument s.users "u1" = some d' ∧
      d "fullName" = some (.string "Ann") ∧ d' "fullName" = some (.string "") ∧
      ¬ StepsMeet (System.step plainPlatform) (KeepsStored plainPlatform) oneScreen earlySave := by
  refine ⟨_, _, _, rfl, rfl, rfl, rfl, rfl, fun h => ?_⟩
  have h₁ := (stepsMeet_cons rfl).1 h
  have h₂ := (stepsMeet_cons rfl).1 h₁.2
  have h₃ := (stepsMeet_cons rfl).1 h₂.2
  have h₄ := (stepsMeet_cons rfl).1 h₃.2
  obtain ⟨d', hd', hkept⟩ := h₄.1 _ _ ⟨0, _, [], rfl, rfl, rfl⟩ rfl rfl "u1" _ rfl
  have hname := hkept "fullName" (.string "Ann") rfl
  rw [← Option.some_inj.1 hd'] at hname
  exact absurd (Value.string.inj (Option.some_inj.1 hname)) (by decide)

end Settings
