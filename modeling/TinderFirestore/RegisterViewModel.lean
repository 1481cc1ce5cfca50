/-
**The registration screen.**

A registration is a chain of four remote calls — create the account, upload the photo, ask for its
download URL, write the profile document — each started by the callback of the one before.  The
callbacks read what they need when they run: the image when the account has been created, the name
and the signed-in account when the download URL has arrived.  In between, the form can be edited,
other registrations can be started and their replies can come in any order.

The model follows `RegisterViewModel`, `Bindable` and the part of `RegistrationViewController`
that is wired to them.  A registration is a call of `preformRegistration`; it is identified by its
position in the list of all of them, and the model keeps with it what it is waiting for and what it
has done so far.  The replies of the remote calls are events.  Two texts that `==` takes for equal
need not be the same: it compares their canonical representations.

Main definitions:

* `Register.Platform` — what the app relies on of the frameworks;
* `Register.RegisterViewModel`, `Register.RegistrationView` — the view model and what the
  controller shows of it;
* `Register.RemoteCall`, `Register.Registration` — a remote call, and one registration;
* `Register.Remote`, `Register.Screen` — the remote state, and the state of the system;
* `Register.Screen.preformRegistration`, `Register.Screen.saveImageToFirebase`,
  `Register.Screen.saveInfoToFirestore` — the three functions of the chain;
* `Register.step` — **what an event does**.
-/

import TinderFirestore.UserProfile

set_option relaxedAutoImplicit false
set_option autoImplicit false

namespace Register

open Firestore Profile

variable {Image Data : Type*}

/-! ### The view model and the view -/

/-- An error, as far as the app looks into it. -/
structure NSError where
  domain : String
  code : ℤ
  deriving DecidableEq

/-- What the app relies on of the frameworks: the JPEG data of an image (there may be none), the
text of an error, and the canonical representation of a text.  Only the empty text has that of the
empty text. -/
structure Platform (Image Data : Type*) where
  jpegData : Image → Option Data
  localizedDescription : NSError → String
  canonical : String → String
  eq_empty_of_canonical : ∀ text, canonical text = canonical "" → text = ""

/-- `==` of two texts. -/
def Platform.textEq (P : Platform Image Data) (a b : String) : Prop :=
  P.canonical a = P.canonical b

instance (P : Platform Image Data) (a b : String) : Decidable (P.textEq a b) :=
  inferInstanceAs (Decidable (_ = _))

theorem Platform.textEq.ne_empty {P : Platform Image Data} {a b : String} (h : P.textEq a b)
    (hb : b ≠ "") : a ≠ "" := by
  rintro rfl
  exact hb (P.eq_empty_of_canonical b h.symm)

/-- The fields of `RegisterViewModel`, those of its `Bindable`s included. -/
structure RegisterViewModel (Image : Type*) where
  isRegistering : Option Bool
  image : Option Image
  isFormValid : Option Bool
  fullName : Option String
  email : Option String
  pass : Option String
  confirmPass : Option String
  deriving DecidableEq

/-- The check in `isFormValidCheck`. -/
def RegisterViewModel.formValid (P : Platform Image Data) (vm : RegisterViewModel Image) : Bool :=
  Option.isSome do
    let fullName ← vm.fullName
    guard (fullName ≠ "")
    let email ← vm.email
    guard (email ≠ "")
    let pass ← vm.pass
    guard (pass ≠ "")
    let confirmPass ← vm.confirmPass
    guard (confirmPass ≠ "" ∧ P.textEq confirmPass pass)

/-- The guard of `preformRegistration`: the e-mail and the password it goes on with. -/
def RegisterViewModel.credentials (P : Platform Image Data) (vm : RegisterViewModel Image) :
    Option (String × String) := do
  let email ← vm.email
  guard (email ≠ "")
  let pass ← vm.pass
  guard (pass ≠ "")
  let confirmPass ← vm.confirmPass
  guard (confirmPass ≠ "")
  guard (P.textEq confirmPass pass)
  return (email, confirmPass)

/-- Whether the progress HUD is on the screen. -/
inductive HudPhase
  | hidden
  | shown
  | dismissing
  deriving DecidableEq

/-- The progress HUD. -/
structure HudView where
  phase : HudPhase
  textLabel : String
  detailTextLabel : String
  deriving DecidableEq

/-- What `RegistrationViewController` shows of the view model. -/
structure RegistrationView (Image : Type*) where
  photo : Option Image
  registerBtnEnabled : Bool
  hudView : HudView
  deriving DecidableEq

/-! ### Registrations -/

/-- A remote call with its arguments.  An upload also names the image its data was made from. -/
inductive RemoteCall (Image Data : Type*)
  | createUser (email password : String)
  | putData (path : String) (image : Image) (imageData : Data)
  | downloadURL (path : String)
  | setData (document : String) (data : Dictionary)

/-- One registration: the call it waits for, and what it has done so far. -/
structure Registration (Image Data : Type*) where
  /-- The remote call whose reply has not come yet. -/
  outstanding : Option (RemoteCall Image Data)
  /-- The remote calls it has made, in order. -/
  issued : List (RemoteCall Image Data)
  /-- The arguments its completion closure has been called with, in order. -/
  completions : List (Option NSError)
  /-- The account its `createUser` made. -/
  account : Option String
  /-- The download URL it was told. -/
  imageURL : Option String
  /-- The documents its `setData` wrote. -/
  written : List (String × Dictionary)

/-- A registration that has not done anything yet. -/
def Registration.new : Registration Image Data where
  outstanding := none
  issued := []
  completions := []
  account := none
  imageURL := none
  written := []

/-- A remote call is made. -/
def Registration.issue (call : RemoteCall Image Data) (g : Registration Image Data) :
    Registration Image Data :=
  { g with outstanding := some call, issued := g.issued ++ [call] }

/-- The completion closure is called. -/
def Registration.complete (error : Option NSError) (g : Registration Image Data) :
    Registration Image Data :=
  { g with completions := g.completions ++ [error] }

/-- The remote state: the signed-in account, the accounts that `createUser` made, and the
collection `users`. -/
structure Remote where
  currentUser : Option String
  accounts : List String
  users : Collection

/-- An account that has just been made: no other has its uid, and it has no document. -/
def Remote.Fresh (m : Remote) (uid : String) : Prop :=
  uid ∉ m.accounts ∧ getDocument m.users uid = none

instance (m : Remote) (uid : String) : Decidable (m.Fresh uid) :=
  inferInstanceAs (Decidable (_ ∧ _))

/-- A successful `createUser` makes an account and signs it in. -/
def Remote.signIn (uid : String) (m : Remote) : Remote :=
  { m with currentUser := some uid, accounts := uid :: m.accounts }

/-- A successful `setData` replaces the document. -/
def Remote.write (document : String) (data : Dictionary) (m : Remote) : Remote :=
  { m with users := setData document data m.users }

/-- The state of the system. -/
structure Screen (Image Data : Type*) where
  viewModel : RegisterViewModel Image
  view : RegistrationView Image
  remote : Remote
  registrations : List (Registration Image Data)

/-! ### The form -/

/-- `isFormValidCheck`, with the observer of `isFormValid`. -/
def Screen.isFormValidCheck (P : Platform Image Data) (s : Screen Image Data) :
    Screen Image Data :=
  { s with
    viewModel := { s.viewModel with isFormValid := some (s.viewModel.formValid P) }
    view := { s.view with registerBtnEnabled := s.viewModel.formValid P } }

/-- The text fields of the form. -/
inductive FormField
  | nameTF
  | emailTF
  | passTF
  | confirmPassTF
  deriving DecidableEq

/-- The assignment in `textDidChangeAction`, before the property's `didSet`. -/
def RegisterViewModel.setField (vm : RegisterViewModel Image) (sender : FormField)
    (text : Option String) : RegisterViewModel Image :=
  match sender with
  | .nameTF => { vm with fullName := text }
  | .emailTF => { vm with email := text }
  | .passTF => { vm with pass := text }
  | .confirmPassTF => { vm with confirmPass := text }

/-- `textDidChangeAction`. -/
def Screen.textDidChangeAction (P : Platform Image Data) (sender : FormField)
    (text : Option String) (s : Screen Image Data) : Screen Image Data :=
  { s with viewModel := s.viewModel.setField sender text }.isFormValidCheck P

/-- `image.value = image`, with the observer of `image`. -/
def Screen.setImage (image : Image) (s : Screen Image Data) : Screen Image Data :=
  { s with
    viewModel := { s.viewModel with image := some image }
    view := { s.view with photo := some image } }

/-- `isRegistering.value = b`, with the observer of `isRegistering`. -/
def Screen.setIsRegistering (b : Bool) (s : Screen Image Data) : Screen Image Data :=
  { s with
    viewModel := { s.viewModel with isRegistering := some b }
    view := { s.view with
      hudView := match b with
        | true => { s.view.hudView with phase := .shown, textLabel := "Registering" }
        -- `dismiss(afterDelay: 2)`, and both labels are cleared
        | false => { phase := .dismissing, textLabel := "", detailTextLabel := "" } } }

/-! ### The chain of remote calls -/

/-- A change to the registration at position `r`. -/
def Screen.modify (r : ℕ) (f : Registration Image Data → Registration Image Data)
    (s : Screen Image Data) : Screen Image Data :=
  { s with registrations := s.registrations.modify r f }

/-- The call of the completion closure, which `registerBtnHandle` made: it shows an error. -/
def Screen.complete (P : Platform Image Data) (r : ℕ) (error : Option NSError)
    (s : Screen Image Data) : Screen Image Data :=
  match error with
  | none => s.modify r (Registration.complete none)
  | some e =>
    { s with
      view := { s.view with
        hudView := { s.view.hudView with detailTextLabel := P.localizedDescription e } } }.modify r
          (Registration.complete (some e))

/-- `saveInfoToFirestore`, up to the reply of `setData`.  Without a signed-in account it returns
without calling the completion. -/
def Screen.saveInfoToFirestore (r : ℕ) (imageURL : String) (s : Screen Image Data) :
    Screen Image Data :=
  match s.remote.currentUser with
  | none => s
  | some uid =>
    s.modify r (Registration.issue
      (.setData uid (saveInfoDictionary s.viewModel.fullName uid imageURL)))

/-- `saveImageToFirebase`, up to the reply of `putData`.  Without an image, or without its JPEG
data, it returns without calling the completion. -/
def Screen.saveImageToFirebase (P : Platform Image Data) (r : ℕ) (filename : String)
    (s : Screen Image Data) : Screen Image Data :=
  match s.viewModel.image with
  | none => s
  | some image =>
    match P.jpegData image with
    | none => s
    | some imageData =>
      s.modify r (Registration.issue (.putData ("/images/" ++ filename) image imageData))

/-- The callback of `putData`. -/
def Screen.putDataCallback (P : Platform Image Data) (r : ℕ) (path : String)
    (error : Option NSError) (s : Screen Image Data) : Screen Image Data :=
  match error with
  | some e => s.complete P r (some e)
  | none => s.modify r (Registration.issue (.downloadURL path))

/-- The callback of `downloadURL`. -/
def Screen.downloadURLCallback (P : Platform Image Data) (r : ℕ)
    (reply : Except NSError (Option String)) (s : Screen Image Data) : Screen Image Data :=
  match reply with
  | .error e => s.complete P r (some e)
  -- `url?.absoluteString ?? ""`
  | .ok url => s.saveInfoToFirestore r (url.getD "")

/-- The callback of `createUser`. -/
def Screen.createUserCallback (P : Platform Image Data) (r : ℕ) (filename : String)
    (error : Option NSError) (s : Screen Image Data) : Screen Image Data :=
  -- the flag is reset last, after the completion closure has been called
  (match error with
    | some e => s.complete P r (some e)
    | none => s.saveImageToFirebase P r filename).setIsRegistering false

/-- The error of a form that does not pass the guard. -/
def localError : NSError where
  domain := ""
  code := 500

/-- `preformRegistration`, up to the reply of `createUser`. -/
def Screen.preformRegistration (P : Platform Image Data) (s : Screen Image Data) :
    Screen Image Data :=
  let r := s.registrations.length
  let s := { s with registrations := s.registrations ++ [Registration.new] }.setIsRegistering true
  match s.viewModel.credentials P with
  -- the flag is reset first, before the completion closure is called
  | none => (s.setIsRegistering false).complete P r (some localError)
  | some (email, confirmPass) => s.modify r (Registration.issue (.createUser email confirmPass))

/-! ### Events -/

/-- What can happen: the user edits the form, picks an image or starts a registration, a remote
call is answered, or the account is signed out. -/
inductive Event (Image : Type*)
  | textDidChange (sender : FormField) (text : Option String)
  | imagePicked (image : Image)
  | preformRegistration
  | createUserReply (r : ℕ) (reply : Except NSError String) (filename : String)
  | putDataReply (r : ℕ) (error : Option NSError)
  | downloadURLReply (r : ℕ) (reply : Except NSError (Option String))
  | setDataReply (r : ℕ) (error : Option NSError)
  | signOut

/-- The remote call that the registration at position `r` waits for. -/
def Screen.outstanding (s : Screen Image Data) (r : ℕ) : Option (RemoteCall Image Data) :=
  s.registrations[r]?.bind Registration.outstanding

/-- The reply to the registration at position `r` has come. -/
def Screen.answered (r : ℕ) (s : Screen Image Data) : Screen Image Data :=
  s.modify r fun g => { g with outstanding := none }

/-- The account of the registration at position `r` has been made. -/
def Screen.signedIn (r : ℕ) (uid : String) (s : Screen Image Data) : Screen Image Data :=
  { s with remote := s.remote.signIn uid }.modify r fun g => { g with account := some uid }

/-- The document of the registration at position `r` has been written. -/
def Screen.wrote (r : ℕ) (document : String) (data : Dictionary) (s : Screen Image Data) :
    Screen Image Data :=
  { s with remote := s.remote.write document data }.modify r
    fun g => { g with written := g.written ++ [(document, data)] }

/-- `createUser` answers.  The name of the file to upload, a new UUID, comes with the event. -/
def Screen.createUserReply (P : Platform Image Data) (r : ℕ) (reply : Except NSError String)
    (filename : String) (s : Screen Image Data) : Option (Screen Image Data) :=
  match s.outstanding r with
  | some (.createUser _ _) =>
    match reply with
    | .error e => some ((s.answered r).createUserCallback P r filename (some e))
    | .ok uid =>
      if s.remote.Fresh uid then
        some (((s.answered r).signedIn r uid).createUserCallback P r filename none)
      else none
  | _ => none

/-- `putData` answers. -/
def Screen.putDataReply (P : Platform Image Data) (r : ℕ) (error : Option NSError)
    (s : Screen Image Data) : Option (Screen Image Data) :=
  match s.outstanding r with
  | some (.putData path _ _) => some ((s.answered r).putDataCallback P r path error)
  | _ => none

/-- `downloadURL` answers. -/
def Screen.downloadURLReply (P : Platform Image Data) (r : ℕ)
    (reply : Except NSError (Option String)) (s : Screen Image Data) :
    Option (Screen Image Data) :=
  match s.outstanding r with
  | some (.downloadURL _) =>
    let told := (s.answered r).modify r fun g => { g with imageURL := reply.toOption.join }
    some (told.downloadURLCallback P r reply)
  | _ => none

/-- `setData` answers. -/
def Screen.setDataReply (P : Platform Image Data) (r : ℕ) (error : Option NSError)
    (s : Screen Image Data) : Option (Screen Image Data) :=
  match s.outstanding r with
  | some (.setData document data) =>
    match error with
    | some e => some ((s.answered r).complete P r (some e))
    | none => some (((s.answered r).wrote r document data).complete P r none)
  | _ => none

/-- **What an event does.**  A reply is possible only if the registration waits for it; a failed
call has no remote effect, and a new account is a fresh one. -/
def step (P : Platform Image Data) (s : Screen Image Data) :
    Event Image → Option (Screen Image Data)
  | .textDidChange sender text => some (s.textDidChangeAction P sender text)
  | .imagePicked image => some (s.setImage image)
  | .preformRegistration => some (s.preformRegistration P)
  | .createUserReply r reply filename => s.createUserReply P r reply filename
  | .putDataReply r error => s.putDataReply P r error
  | .downloadURLReply r reply => s.downloadURLReply P r reply
  | .setDataReply r error => s.setDataReply P r error
  | .signOut => some { s with remote := { s.remote with currentUser := none } }

/-- A state in which no registration has been started on this screen. -/
structure Screen.Started (s : Screen Image Data) : Prop where
  registrations : s.registrations = []
  accounts : s.remote.accounts = []

/-- No remote call is outstanding. -/
def Screen.Quiet (s : Screen Image Data) : Prop :=
  ∀ g ∈ s.registrations, g.outstanding = none

/-! ### A concrete screen -/

/-- A platform to compute with: an image is its JPEG data, or has none, and a text is its canonical
representation. -/
def plainPlatform : Platform (Option ℕ) ℕ where
  jpegData image := image
  localizedDescription e := e.domain
  canonical text := text
  eq_empty_of_canonical _ h := h

/-- A filled form with the given image, before the first registration. -/
def filledScreen (image : Option (Option ℕ)) : Screen (Option ℕ) ℕ where
  viewModel :=
    { isRegistering := none, image := image, isFormValid := some true, fullName := some "Ann",
      email := some "ann@mail", pass := some "secret", confirmPass := some "secret" }
  view :=
    { photo := image, registerBtnEnabled := true,
      hudView := { phase := .hidden, textLabel := "", detailTextLabel := "" } }
  remote := { currentUser := none, accounts := [], users := ∅ }
  registrations := []

end Register
