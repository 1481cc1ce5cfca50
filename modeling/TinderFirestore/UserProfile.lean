/-
**User profiles and their documents.**

The collection `users` holds one document for each profile.  Two places of the app write such a
document — the last step of a registration and the Save button of the settings screen — and one
initialiser reads it.  The writers have different key sets, and each has its own default for what
is absent; the reader takes a field of another type for an absent one.

* `Profile.User`, `Profile.User.init` — a profile, and how a document is read;
* `Profile.saveInfoDictionary` — the document that a registration writes;
* `Profile.saveDict` — the document that the settings screen writes;
* `Profile.CardViewModel`, `Profile.CardViewModel.init` — what a card shows of a profile;
* `Profile.User.filled` — a profile with the defaults of `saveDict` in its absent fields;
* `Profile.User.init_saveDict` — **what is read back from a saved profile**: the profile with its
  absent fields filled, under the uid it was saved for;
* `Profile.saveDict_congr` — a saved field depends on the field of the profile it is made from and
  on nothing else.
-/

import TinderFirestore.FirestoreStore

set_option relaxedAutoImplicit false
set_option autoImplicit false

namespace Profile

open Firestore

/-! ### Reading a profile -/

/-- A profile, as the app holds it. -/
@[ext] structure User where
  name : Option String
  age : Option Int64
  profession : Option String
  imageNames : List String
  uid : Option String
  minSeekingAge : Option Int64
  maxSeekingAge : Option Int64
  deriving DecidableEq

/-- `User.init(_ dictionary: [String: Any])`. -/
def User.init (dictionary : Dictionary) : User where
  name := (dictionary "fullName").bind Value.asString
  age := (dictionary "age").bind Value.asInt
  profession := (dictionary "profession").bind Value.asString
  imageNames := [((dictionary "image1Url").bind Value.asString).getD ""]
  uid := (dictionary "uid").bind Value.asString
  minSeekingAge := (dictionary "minSeekingAge").bind Value.asInt
  maxSeekingAge := (dictionary "maxSeekingAge").bind Value.asInt

/-! ### Writing a profile -/

/-- The document that `RegisterViewModel.saveInfoToFirestore` writes. -/
def saveInfoDictionary (fullName : Option String) (uid imageURL : String) : Dictionary :=
  Dictionary.ofList
    [("fullName", .string (fullName.getD "")),
     ("uid", .string uid),
     ("image1Url", .string imageURL)]

/-- The document that `SettingsViewController.saveHandle` writes.  The profile is `none` as long as
it has not been loaded. -/
def saveDict (uid : String) (user : Option User) : Dictionary :=
  Dictionary.ofList
    [("uid", .string uid),
     ("fullName", .string ((user.bind User.name).getD "")),
     ("image1Url", .string ((user.bind fun u => u.imageNames.head?).getD "")),
     ("age", .int ((user.bind User.age).getD (-1))),
     ("profession", .string ((user.bind User.profession).getD "")),
     ("minSeekingAge", .int ((user.bind User.minSeekingAge).getD (-1))),
     ("maxSeekingAge", .int ((user.bind User.maxSeekingAge).getD (-1)))]

/-- The fields of a document that the settings screen writes. -/
def profileKeys : List String :=
  ["uid", "fullName", "image1Url", "age", "profession", "minSeekingAge", "maxSeekingAge"]

/-- Nothing else is written. -/
theorem saveDict_eq_none_iff {uid : String} {user : Option User} {key : String} :
    saveDict uid user key = none ↔ key ∉ profileKeys := by
  simp only [saveDict, profileKeys, Dictionary.ofList_cons, Dictionary.ofList_nil]
  constructor
  · intro h hmem
    simp only [List.mem_cons, List.not_mem_nil, or_false] at hmem
    rcases hmem with rfl | rfl | rfl | rfl | rfl | rfl | rfl <;> simp at h
  · intro h
    simp only [List.mem_cons, List.not_mem_nil, or_false, not_or] at h
    simp [h]

/-- Both writers store the uid the document is addressed to. -/
theorem saveInfoDictionary_uid (fullName : Option String) (uid imageURL : String) :
    saveInfoDictionary fullName uid imageURL "uid" = some (.string uid) := rfl

theorem saveDict_uid (uid : String) (user : Option User) :
    saveDict uid user "uid" = some (.string uid) := rfl

/-! ### What is read back -/

/-- The profile with the defaults of `saveDict` in its absent fields. -/
def User.filled (u : User) : User where
  name := some (u.name.getD "")
  age := some (u.age.getD (-1))
  profession := some (u.profession.getD "")
  imageNames := [u.imageNames.head?.getD ""]
  uid := u.uid
  minSeekingAge := some (u.minSeekingAge.getD (-1))
  maxSeekingAge := some (u.maxSeekingAge.getD (-1))

/-- **What is read back from a saved profile.** -/
theorem User.init_saveDict (uid : String) (u : User) :
    User.init (saveDict uid (some u)) = { u.filled with uid := some uid } := rfl

/-- The profile that a registration leaves behind. -/
theorem User.init_saveInfoDictionary (fullName : Option String) (uid imageURL : String) :
    User.init (saveInfoDictionary fullName uid imageURL) =
      { name := some (fullName.getD ""), age := none, profession := none,
        imageNames := [imageURL], uid := some uid, minSeekingAge := none,
        maxSeekingAge := none } := rfl

/-- Two profiles agree on what is saved in a field. -/
def SameField (key : String) (u v : User) : Prop :=
  (key = "fullName" → u.name = v.name) ∧
  (key = "image1Url" → u.imageNames = v.imageNames) ∧
  (key = "age" → u.age = v.age) ∧
  (key = "profession" → u.profession = v.profession) ∧
  (key = "minSeekingAge" → u.minSeekingAge = v.minSeekingAge) ∧
  (key = "maxSeekingAge" → u.maxSeekingAge = v.maxSeekingAge)

theorem saveDict_congr {uid key : String} {u v : User} (h : SameField key u v) :
    saveDict uid (some u) key = saveDict uid (some v) key := by
  obtain ⟨hname, himage, hage, hprofession, hmin, hmax⟩ := h
  simp only [saveDict, Dictionary.ofList_cons, Dictionary.ofList_nil, Option.bind_some]
  split_ifs with h₁ h₂ h₃ h₄ h₅ h₆ h₇
  · rfl
  · rw [hname h₂]
  · rw [himage h₃]
  · rw [hage h₄]
  · rw [hprofession h₅]
  · rw [hmin h₆]
  · rw [hmax h₇]
  · rfl

/-! ### Cards -/

/-- What a card is about. -/
inductive ModelType
  | user
  | advertiser
  deriving DecidableEq

/-- What a card shows. -/
structure CardViewModel where
  imageNames : List String
  title : String
  subtitle : String
  body : String
  layoutType : ModelType
  selectedImageIndex : ℤ
  deriving DecidableEq

/-- `CardViewModel.init(user:)`. -/
def CardViewModel.init (user : User) : CardViewModel where
  imageNames := user.imageNames
  title := user.name.getD ""
  subtitle := toString (user.age.getD 0)
  body := user.profession.getD ""
  layoutType := .user
  selectedImageIndex := 0

end Profile
