/-
**Saving a profile and reading it back.**

The copy of a profile on the settings screen comes from a document that one of the two writers of
the app has written, and what Save writes is read back by the same initialiser.  The uid and the
photo make the round trip unchanged, and so does every field that is present; a field that is
absent comes back with the default that Save has for it.

* `Settings.WrittenFor` — the documents that the app writes for an account;
* `Settings.UidAndPhoto` — the invariant of the copy;
* `Settings.saved_profile_comes_back` — **what comes back of a profile that was saved.**
-/

import TinderFirestore.SettingsScreen

set_option relaxedAutoImplicit false
set_option autoImplicit false

namespace Settings

open Firestore Profile EventRun

variable {Image : Type*}

/-- The document is one that the registration or the settings screen writes for the account. -/
def WrittenFor (uid : String) (d : Dictionary) : Prop :=
  (∃ fullName imageURL, d = saveInfoDictionary fullName uid imageURL) ∨
    ∃ user, d = saveDict uid user

/-- The copy belongs to the account and has one photo. -/
structure UidAndPhoto (uid : String) (u : User) : Prop where
  uid : u.uid = some uid
  imageNames : ∃ imageURL, u.imageNames = [imageURL]

theorem WrittenFor.uidAndPhoto {uid : String} {d : Dictionary} (h : WrittenFor uid d) :
    UidAndPhoto uid (User.init d) := by
  rcases h with ⟨fullName, imageURL, rfl⟩ | ⟨user, rfl⟩
  · rw [User.init_saveInfoDictionary]
    exact ⟨rfl, imageURL, rfl⟩
  · exact ⟨rfl, _, rfl⟩

/-- Every copy that can be on the screen belongs to the account and has one photo. -/
theorem uidAndPhoto_run {P : Platform} {uid : String} {vc₀ vc : SettingsViewController Image}
    {es : List (Event Image)} (h₀ : vc₀.user = none)
    (hloads : ∀ d, .loaded (some d) ∈ es → WrittenFor uid d)
    (hrun : run (step P) vc₀ es = some vc) : ∀ u, vc.user = some u → UidAndPhoto uid u := by
  have hmeet : StepsMeet (step P) (fun _ e => ∀ d, e = .loaded (some d) → WrittenFor uid d)
      vc₀ es := (stepsMeet_events_iff hrun).2 fun e he d heq => hloads d (heq ▸ he)
  refine invariant_run_of_meet (I := fun vc => ∀ u, vc.user = some u → UidAndPhoto uid u) ?_ hmeet
    (by simp [h₀]) hrun
  intro vc e vc' hload hI hstep u hu
  obtain ⟨-, rfl⟩ := step_eq_some.1 hstep
  rcases handle_user P vc e with hsame | ⟨d, hd, huser⟩ | ⟨key, f, hedit, -, huser⟩
  · exact hI u (hsame ▸ hu)
  · rw [huser, Option.some_inj] at hu
    exact hu ▸ (hload d hd).uidAndPhoto
  · rw [huser, Option.map_eq_some_iff] at hu
    obtain ⟨v, hv, rfl⟩ := hu
    obtain ⟨huid, himage⟩ := hedit.keeps v
    exact ⟨huid.trans (hI v hv).uid, himage ▸ (hI v hv).imageNames⟩

/-- None of the fields that have a default is absent. -/
def Complete (u : User) : Prop :=
  u.name.isSome ∧ u.age.isSome ∧ u.profession.isSome ∧ u.minSeekingAge.isSome ∧
    u.maxSeekingAge.isSome

theorem some_getD_eq_iff {α : Type*} {o : Option α} {a : α} : some (o.getD a) = o ↔ o.isSome := by
  cases o <;> simp

/-- **What comes back of a profile that was saved**: the uid, the photo and every field that was
present, and the defaults of Save for the fields that were absent. -/
theorem saved_profile_comes_back (P : Platform) {uid : String}
    {vc : SettingsViewController Image} {es : List (Event Image)} {u : User}
    (hloads : ∀ d, .loaded (some d) ∈ es → WrittenFor uid d)
    (hrun : run (step P) (.viewDidLoad (some uid)) es = some vc) (hu : vc.user = some u) :
    User.init (saveDict uid vc.user) =
      { name := some (u.name.getD ""), age := some (u.age.getD (-1)),
        profession := some (u.profession.getD ""), imageNames := u.imageNames, uid := u.uid,
        minSeekingAge := some (u.minSeekingAge.getD (-1)),
        maxSeekingAge := some (u.maxSeekingAge.getD (-1)) } ∧
    (User.init (saveDict uid vc.user) = u ↔ Complete u) := by
  obtain ⟨huid, imageURL, himage⟩ := uidAndPhoto_run rfl hloads hrun u hu
  have hback : User.init (saveDict uid vc.user) =
      { name := some (u.name.getD ""), age := some (u.age.getD (-1)),
        profession := some (u.profession.getD ""), imageNames := u.imageNames, uid := u.uid,
        minSeekingAge := some (u.minSeekingAge.getD (-1)),
        maxSeekingAge := some (u.maxSeekingAge.getD (-1)) } := by
    rw [hu, User.init_saveDict, User.filled, huid, himage]
    rfl
  refine ⟨hback, ?_⟩
  rw [hback, User.ext_iff]
  simp only [some_getD_eq_iff, Complete, true_and]

/-- Loading the profile that a registration has left behind. -/
def loadRegistered : List (Event ℕ) :=
  [.loaded (some (saveInfoDictionary (some "Ann") "u1" "url")), .reloadData]

theorem saved_profile_comes_back_registered :
    ∃ (vc : SettingsViewController ℕ) (u : User),
      run (step plainPlatform) (.viewDidLoad (some "u1")) loadRegistered = some vc ∧
        vc.user = some u ∧ (User.init (saveDict "u1" vc.user) = u ↔ Complete u) := by
  have hloads : ∀ d, .loaded (some d) ∈ loadRegistered → WrittenFor "u1" d := by
    intro d hd
    simp only [loadRegistered, List.mem_cons, Event.loaded.injEq, Option.some_inj, reduceCtorEq,
      List.not_mem_nil, or_false] at hd
    exact Or.inl ⟨_, _, hd⟩
  exact ⟨_, _, rfl, rfl, (saved_profile_comes_back plainPlatform hloads rfl rfl).2⟩

/-- **An absent field does not stay absent**: a registered user who has never given an age comes
back from Save with the age -1. -/
theorem absent_age_comes_back :
    ∃ (vc : SettingsViewController ℕ) (u : User),
      run (step plainPlatform) (.viewDidLoad (some "u1")) loadRegistered = some vc ∧
        vc.user = some u ∧ u.age = none ∧
        (User.init (saveDict "u1" vc.user)).age = some (-1) :=
  ⟨_, _, rfl, rfl, rfl, rfl⟩

end Settings
