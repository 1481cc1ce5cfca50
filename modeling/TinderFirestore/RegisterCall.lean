/-
**One registration among many.**

`TinderFirestore/RegisterViewModel.lean` says what an event does to the whole screen.  Most of what
is worth knowing concerns a single registration: a reply moves the registration it answers one step
along its chain of remote calls, and leaves the others alone.  This module says so once, in a form
from which invariants of a registration follow by a case analysis over the replies.

Main definitions:

* `Register.started` — a registration right after `preformRegistration`;
* `Register.Answer` — **what a reply does to the registration it answers**, with one constructor
  for each way through the callbacks;
* `Register.Event.repliesTo` — the registration that an event replies to.

Main results:

* `Register.step_cases` — everything an event can do to the registrations and the remote state;
* `Register.tracked_registration` — **the tracking rule for one registration**: an invariant that
  its replies keep, with a condition on these replies, holds at the end of every run.
-/

import TinderFirestore.EventRun
import TinderFirestore.RegisterViewModel

set_option relaxedAutoImplicit false
set_option autoImplicit false

namespace Register

open Firestore Profile EventRun

variable {Image Data : Type*}

/-! ### The functions of the chain, part by part of the screen -/

section Frame

variable (P : Platform Image Data) (r : ℕ) (s : Screen Image Data)

section Modify

variable (f : Registration Image Data → Registration Image Data)

@[simp] theorem modify_registrations :
    (s.modify r f).registrations = s.registrations.modify r f := rfl

@[simp] theorem modify_remote : (s.modify r f).remote = s.remote := rfl

@[simp] theorem modify_viewModel : (s.modify r f).viewModel = s.viewModel := rfl

@[simp] theorem modify_view : (s.modify r f).view = s.view := rfl

end Modify

@[simp] theorem complete_registrations (error : Option NSError) :
    (s.complete P r error).registrations =
      s.registrations.modify r (Registration.complete error) := by
  cases error <;> rfl

@[simp] theorem complete_remote (error : Option NSError) :
    (s.complete P r error).remote = s.remote := by
  cases error <;> rfl

@[simp] theorem complete_viewModel (error : Option NSError) :
    (s.complete P r error).viewModel = s.viewModel := by
  cases error <;> rfl

@[simp] theorem complete_none_view : (s.complete P r none).view = s.view := rfl

@[simp] theorem complete_some_view (e : NSError) :
    (s.complete P r (some e)).view =
      { s.view with
        hudView := { s.view.hudView with detailTextLabel := P.localizedDescription e } } := rfl

@[simp] theorem setIsRegistering_registrations (b : Bool) :
    (s.setIsRegistering b).registrations = s.registrations := rfl

@[simp] theorem setIsRegistering_remote (b : Bool) :
    (s.setIsRegistering b).remote = s.remote := rfl

@[simp] theorem setIsRegistering_viewModel (b : Bool) :
    (s.setIsRegistering b).viewModel = { s.viewModel with isRegistering := some b } := rfl

@[simp] theorem setIsRegistering_true_view :
    (s.setIsRegistering true).view =
      { s.view with
        hudView := { s.view.hudView with phase := .shown, textLabel := "Registering" } } := rfl

@[simp] theorem setIsRegistering_false_view :
    (s.setIsRegistering false).view =
      { s.view with
        hudView := { phase := .dismissing, textLabel := "", detailTextLabel := "" } } := rfl

@[simp] theorem answered_registrations :
    (s.answered r).registrations =
      s.registrations.modify r fun g => { g with outstanding := none } := rfl

@[simp] theorem answered_remote : (s.answered r).remote = s.remote := rfl

@[simp] theorem answered_viewModel : (s.answered r).viewModel = s.viewModel := rfl

@[simp] theorem answered_view : (s.answered r).view = s.view := rfl

@[simp] theorem signedIn_registrations (uid : String) :
    (s.signedIn r uid).registrations =
      s.registrations.modify r fun g => { g with account := some uid } := rfl

@[simp] theorem signedIn_viewModel (uid : String) :
    (s.signedIn r uid).viewModel = s.viewModel := rfl

@[simp] theorem signedIn_view (uid : String) : (s.signedIn r uid).view = s.view := rfl

section Wrote

variable (document : String) (data : Dictionary)

@[simp] theorem wrote_registrations :
    (s.wrote r document data).registrations =
      s.registrations.modify r fun g => { g with written := g.written ++ [(document, data)] } := rfl

@[simp] theorem wrote_viewModel : (s.wrote r document data).viewModel = s.viewModel := rfl

@[simp] theorem wrote_view : (s.wrote r document data).view = s.view := rfl

end Wrote

@[simp] theorem saveInfoToFirestore_viewModel (imageURL : String) :
    (s.saveInfoToFirestore r imageURL).viewModel = s.viewModel := by
  unfold Screen.saveInfoToFirestore
  split <;> rfl

@[simp] theorem saveInfoToFirestore_view (imageURL : String) :
    (s.saveInfoToFirestore r imageURL).view = s.view := by
  unfold Screen.saveInfoToFirestore
  split <;> rfl

@[simp] theorem saveImageToFirebase_viewModel (filename : String) :
    (s.saveImageToFirebase P r filename).viewModel = s.viewModel := by
  unfold Screen.saveImageToFirebase
  split
  · rfl
  · split <;> rfl

@[simp] theorem saveImageToFirebase_view (filename : String) :
    (s.saveImageToFirebase P r filename).view = s.view := by
  unfold Screen.saveImageToFirebase
  split
  · rfl
  · split <;> rfl

end Frame

theorem modify_eq_set {α : Type*} {l : List α} {r : ℕ} {g : α} (h : l[r]? = some g) (f : α → α) :
    l.modify r f = l.set r (f g) := by
  obtain ⟨hr, rfl⟩ := List.getElem?_eq_some_iff.1 h
  refine List.ext_getElem? fun i => ?_
  rw [List.getElem?_modify, List.getElem?_set]
  rcases eq_or_ne r i with rfl | hne
  · simp [hr]
  · simp [hne]

@[simp] theorem modify_set {α : Type*} (l : List α) (r : ℕ) (g : α) (f : α → α) :
    (l.set r g).modify r f = l.set r (f g) := by
  rcases Nat.lt_or_ge r l.length with hr | hr
  · rw [modify_eq_set (g := g) (by simp [hr]), List.set_set]
  · rw [List.set_eq_of_length_le hr, List.set_eq_of_length_le hr, List.modify_eq_self hr]

/-- The registration whose reply can come, with its call. -/
theorem outstanding_eq_some {s : Screen Image Data} {r : ℕ} {call : RemoteCall Image Data}
    (h : s.outstanding r = some call) :
    ∃ g, s.registrations[r]? = some g ∧ g.outstanding = some call :=
  Option.bind_eq_some_iff.1 h

/-! ### What a reply does -/

/-- A registration right after `preformRegistration`: it has asked for an account, or it has ended
with the local error. -/
def started (P : Platform Image Data) (vm : RegisterViewModel Image) : Registration Image Data :=
  match vm.credentials P with
  | none => Registration.new.complete (some localError)
  | some (email, confirmPass) => Registration.new.issue (.createUser email confirmPass)

/-- **What a reply does** to the registration `g` at position `r` of the screen `s`, and to the
remote state. -/
inductive Answer (P : Platform Image Data) (s : Screen Image Data) (r : ℕ)
    (g : Registration Image Data) : Event Image → Registration Image Data → Remote → Prop
  /-- The account could not be made. -/
  | createUserFailed {email password filename : String} {e : NSError}
      (hcall : g.outstanding = some (.createUser email password)) :
      Answer P s r g (.createUserReply r (.error e) filename)
        { g with outstanding := none, completions := g.completions ++ [some e] } s.remote
  /-- The account has been made, but there is no image or it has no JPEG data. -/
  | noImageData {email password filename uid : String}
      (hcall : g.outstanding = some (.createUser email password))
      (hfresh : s.remote.Fresh uid)
      (himage : s.viewModel.image.bind P.jpegData = none) :
      Answer P s r g (.createUserReply r (.ok uid) filename)
        { g with outstanding := none, account := some uid } (s.remote.signIn uid)
  /-- The account has been made and the upload begins. -/
  | uploading {email password filename uid : String} {image : Image} {imageData : Data}
      (hcall : g.outstanding = some (.createUser email password))
      (hfresh : s.remote.Fresh uid)
      (himage : s.viewModel.image = some image) (hdata : P.jpegData image = some imageData) :
      Answer P s r g (.createUserReply r (.ok uid) filename)
        { g with
          outstanding := some (.putData ("/images/" ++ filename) image imageData)
          issued := g.issued ++ [.putData ("/images/" ++ filename) image imageData]
          account := some uid } (s.remote.signIn uid)
  /-- The upload failed. -/
  | putDataFailed {path : String} {image : Image} {imageData : Data} {e : NSError}
      (hcall : g.outstanding = some (.putData path image imageData)) :
      Answer P s r g (.putDataReply r (some e))
        { g with outstanding := none, completions := g.completions ++ [some e] } s.remote
  /-- The upload is done, and the download URL is asked for. -/
  | uploaded {path : String} {image : Image} {imageData : Data}
      (hcall : g.outstanding = some (.putData path image imageData)) :
      Answer P s r g (.putDataReply r none)
        { g with
          outstanding := some (.downloadURL path)
          issued := g.issued ++ [.downloadURL path] } s.remote
  /-- There is no download URL. -/
  | downloadURLFailed {path : String} {e : NSError}
      (hcall : g.outstanding = some (.downloadURL path)) :
      Answer P s r g (.downloadURLReply r (.error e))
        { g with
          outstanding := none, imageURL := none
          completions := g.completions ++ [some e] } s.remote
  /-- The download URL has come, but nobody is signed in. -/
  | noCurrentUser {path : String} {url : Option String}
      (hcall : g.outstanding = some (.downloadURL path)) (huser : s.remote.currentUser = none) :
      Answer P s r g (.downloadURLReply r (.ok url))
        { g with outstanding := none, imageURL := url } s.remote
  /-- The download URL has come, and the document is written. -/
  | writing {path : String} {url : Option String} {uid : String}
      (hcall : g.outstanding = some (.downloadURL path))
      (huser : s.remote.currentUser = some uid) :
      Answer P s r g (.downloadURLReply r (.ok url))
        { g with
          outstanding :=
            some (.setData uid (saveInfoDictionary s.viewModel.fullName uid (url.getD "")))
          issued := g.issued ++
            [.setData uid (saveInfoDictionary s.viewModel.fullName uid (url.getD ""))]
          imageURL := url } s.remote
  /-- The document could not be written. -/
  | setDataFailed {document : String} {data : Dictionary} {e : NSError}
      (hcall : g.outstanding = some (.setData document data)) :
      Answer P s r g (.setDataReply r (some e))
        { g with outstanding := none, completions := g.completions ++ [some e] } s.remote
  /-- The document has been written. -/
  | setDataDone {document : String} {data : Dictionary}
      (hcall : g.outstanding = some (.setData document data)) :
      Answer P s r g (.setDataReply r none)
        { g with
          outstanding := none
          completions := g.completions ++ [none]
          written := g.written ++ [(document, data)] } (s.remote.write document data)

/-- The registration that an event replies to. -/
def Event.repliesTo : Event Image → Option ℕ
  | .createUserReply r _ _ => some r
  | .putDataReply r _ => some r
  | .downloadURLReply r _ => some r
  | .setDataReply r _ => some r
  | _ => none

theorem Answer.repliesTo {P : Platform Image Data} {s : Screen Image Data} {r : ℕ}
    {g g' : Registration Image Data} {e : Event Image} {m : Remote} (h : Answer P s r g e g' m) :
    e.repliesTo = some r := by
  cases h <;> rfl

/-- Only a registration that waits for a reply gets one. -/
theorem Answer.outstanding {P : Platform Image Data} {s : Screen Image Data} {r : ℕ}
    {g g' : Registration Image Data} {e : Event Image} {m : Remote} (h : Answer P s r g e g' m) :
    ∃ call, g.outstanding = some call := by
  cases h <;> exact ⟨_, by assumption⟩

/-- What a reply leaves: the registration it answers has moved, and the others have not. -/
def Answered (P : Platform Image Data) (s : Screen Image Data) (e : Event Image)
    (s' : Screen Image Data) : Prop :=
  ∃ r g g', s.registrations[r]? = some g ∧ Answer P s r g e g' s'.remote ∧
    s'.registrations = s.registrations.set r g'

section Replies

variable {P : Platform Image Data} {s s' : Screen Image Data} {r : ℕ}

theorem answered_createUserReply {reply : Except NSError String} {filename : String}
    (h : s.createUserReply P r reply filename = some s') :
    Answered P s (.createUserReply r reply filename) s' := by
  unfold Screen.createUserReply at h
  split at h
  · next email password hcall =>
    obtain ⟨g, hg, hout⟩ := outstanding_eq_some hcall
    cases reply with
    | error e =>
        obtain rfl := Option.some_inj.1 h
        simp only [Screen.createUserCallback]
        refine ⟨r, g, _, hg, .createUserFailed hout, ?_⟩
        simp [modify_eq_set hg, Registration.complete]
    | ok uid =>
        dsimp only at h
        split_ifs at h with hfresh
        obtain rfl := Option.some_inj.1 h
        simp only [Screen.createUserCallback, Screen.saveImageToFirebase, signedIn_viewModel,
          answered_viewModel]
        cases himage : s.viewModel.image with
        | none =>
            refine ⟨r, g, _, hg, .noImageData hout hfresh (by simp [himage]), ?_⟩
            simp [modify_eq_set hg]
        | some image =>
            cases hdata : P.jpegData image with
            | none =>
                simp only [hdata]
                refine ⟨r, g, _, hg, .noImageData hout hfresh (by simp [himage, hdata]), ?_⟩
                simp [modify_eq_set hg]
            | some imageData =>
                simp only [hdata]
                refine ⟨r, g, _, hg, .uploading hout hfresh himage hdata, ?_⟩
                simp [modify_eq_set hg, Registration.issue]
  · simp at h

theorem answered_putDataReply {error : Option NSError} (h : s.putDataReply P r error = some s') :
    Answered P s (.putDataReply r error) s' := by
  unfold Screen.putDataReply at h
  split at h
  · next path image imageData hcall =>
    obtain ⟨g, hg, hout⟩ := outstanding_eq_some hcall
    obtain rfl := Option.some_inj.1 h
    cases error with
    | some e =>
        simp only [Screen.putDataCallback]
        refine ⟨r, g, _, hg, by simpa using .putDataFailed hout, ?_⟩
        simp [modify_eq_set hg, Registration.complete]
    | none =>
        refine ⟨r, g, _, hg, .uploaded hout, ?_⟩
        simp [Screen.putDataCallback, modify_eq_set hg, Registration.issue]
  · simp at h

theorem answered_downloadURLReply {reply : Except NSError (Option String)}
    (h : s.downloadURLReply P r reply = some s') :
    Answered P s (.downloadURLReply r reply) s' := by
  unfold Screen.downloadURLReply at h
  split at h
  · next path hcall =>
    obtain ⟨g, hg, hout⟩ := outstanding_eq_some hcall
    obtain rfl := Option.some_inj.1 h
    cases reply with
    | error e =>
        simp only [Screen.downloadURLCallback]
        refine ⟨r, g, _, hg, by simpa using .downloadURLFailed hout, ?_⟩
        simp [modify_eq_set hg, Registration.complete, Except.toOption]
    | ok url =>
        simp only [Screen.downloadURLCallback, Screen.saveInfoToFirestore, modify_remote,
          answered_remote, modify_viewModel, answered_viewModel]
        cases huser : s.remote.currentUser with
        | none =>
            refine ⟨r, g, _, hg, .noCurrentUser hout huser, ?_⟩
            simp [modify_eq_set hg, Except.toOption]
        | some uid =>
            refine ⟨r, g, _, hg, .writing hout huser, ?_⟩
            simp [modify_eq_set hg, Except.toOption, Registration.issue]
  · simp at h

theorem answered_setDataReply {error : Option NSError} (h : s.setDataReply P r error = some s') :
    Answered P s (.setDataReply r error) s' := by
  unfold Screen.setDataReply at h
  split at h
  · next document data hcall =>
    obtain ⟨g, hg, hout⟩ := outstanding_eq_some hcall
    cases error with
    | some e =>
        obtain rfl := Option.some_inj.1 h
        refine ⟨r, g, _, hg, by simpa using .setDataFailed hout, ?_⟩
        simp [modify_eq_set hg, Registration.complete]
    | none =>
        obtain rfl := Option.some_inj.1 h
        refine ⟨r, g, _, hg, by simpa using .setDataDone hout, ?_⟩
        simp [modify_eq_set hg, Registration.complete]
  · simp at h

end Replies

theorem preformRegistration_registrations (P : Platform Image Data) (s : Screen Image Data) :
    (s.preformRegistration P).registrations = s.registrations ++ [started P s.viewModel] := by
  have hvm : ({ s with registrations := s.registrations ++ [Registration.new] }.setIsRegistering
      true).viewModel.credentials P = s.viewModel.credentials P := rfl
  have hset (f : Registration Image Data → Registration Image Data) :
      (s.registrations ++ [Registration.new]).modify s.registrations.length f =
        s.registrations ++ [f Registration.new] := by
    rw [modify_eq_set (g := Registration.new) (by simp)]
    simp
  rw [Screen.preformRegistration, hvm]
  cases hc : s.viewModel.credentials P with
  | none => simp [started, hc, hset]
  | some c => simp [started, hc, hset]

theorem preformRegistration_remote (P : Platform Image Data) (s : Screen Image Data) :
    (s.preformRegistration P).remote = s.remote := by
  rw [Screen.preformRegistration]
  split <;> simp

/-- **What an event can do** to the registrations and to the remote state: it concerns neither a
registration nor the stored data, or it starts a registration, or it replies to one. -/
theorem step_cases {P : Platform Image Data} {s s' : Screen Image Data} {e : Event Image}
    (h : step P s e = some s') :
    (e.repliesTo = none ∧ s'.registrations = s.registrations ∧
      s'.remote.accounts = s.remote.accounts ∧ s'.remote.users = s.remote.users) ∨
    (e.repliesTo = none ∧ s'.remote = s.remote ∧
      s'.registrations = s.registrations ++ [started P s.viewModel]) ∨
    Answered P s e s' := by
  cases e with
  | textDidChange sender text =>
      obtain rfl := Option.some_inj.1 h
      exact Or.inl ⟨rfl, rfl, rfl, rfl⟩
  | imagePicked image =>
      obtain rfl := Option.some_inj.1 h
      exact Or.inl ⟨rfl, rfl, rfl, rfl⟩
  | signOut =>
      obtain rfl := Option.some_inj.1 h
      exact Or.inl ⟨rfl, rfl, rfl, rfl⟩
  | preformRegistration =>
      obtain rfl := Option.some_inj.1 h
      exact Or.inr (Or.inl ⟨rfl, preformRegistration_remote P s,
        preformRegistration_registrations P s⟩)
  | createUserReply r reply filename => exact Or.inr (Or.inr (answered_createUserReply h))
  | putDataReply r error => exact Or.inr (Or.inr (answered_putDataReply h))
  | downloadURLReply r reply => exact Or.inr (Or.inr (answered_downloadURLReply h))
  | setDataReply r error => exact Or.inr (Or.inr (answered_setDataReply h))

/-- A reply moves the registration it answers. -/
theorem answered_of_repliesTo {P : Platform Image Data} {s s' : Screen Image Data}
    {e : Event Image} {r : ℕ} (h : step P s e = some s') (hr : e.repliesTo = some r) :
    Answered P s e s' := by
  rcases step_cases h with ⟨hno, -⟩ | ⟨hno, -⟩ | hans
  · rw [hno] at hr
    exact absurd hr (by simp)
  · rw [hno] at hr
    exact absurd hr (by simp)
  · exact hans

/-! ### Invariants of one registration -/

/-- The condition `C`, asked only of the replies to the registration at position `r`. -/
def At (r : ℕ) (C : Screen Image Data → Event Image → Prop) (s : Screen Image Data)
    (e : Event Image) : Prop :=
  e.repliesTo = some r → C s e

/-- A condition on replies holds along a run when it holds of the replies to each registration. -/
theorem stepsMeet_iff_forall_at {P : Platform Image Data}
    {C : Screen Image Data → Event Image → Prop} (hC : ∀ s e, e.repliesTo = none → C s e)
    {s : Screen Image Data} {es : List (Event Image)} :
    StepsMeet (step P) C s es ↔ ∀ r, StepsMeet (step P) (At r C) s es := by
  rw [← stepsMeet_forall]
  constructor
  · exact StepsMeet.imp fun s e h r _ => h
  · refine StepsMeet.imp fun s e h => ?_
    cases hr : e.repliesTo with
    | none => exact hC s e hr
    | some r => exact h r hr

/-- The registration at position `r`, if it has been started, meets the invariant `I`; as long as it
has not been, no condition on it has failed. -/
def Tracked (I : Prop → Registration Image Data → Prop) (r : ℕ) (b : Prop)
    (s : Screen Image Data) : Prop :=
  (∀ g, s.registrations[r]? = some g → I b g) ∧ (s.registrations[r]? = none → b)

section Tracked

variable {P : Platform Image Data} {I : Prop → Registration Image Data → Prop} {r : ℕ} {b : Prop}
  {s s' : Screen Image Data}

/-- A registration is started, perhaps the one at position `r`. -/
theorem Tracked.append {vm : RegisterViewModel Image} (h : Tracked I r b s)
    (hstart : I True (started P vm))
    (hregs : s'.registrations = s.registrations ++ [started P vm]) : Tracked I r b s' := by
  obtain ⟨hI, hb⟩ := h
  refine ⟨fun g hg => ?_, fun hnone => ?_⟩
  · rw [hregs] at hg
    rcases Nat.lt_or_ge r s.registrations.length with hr | hr
    · rw [List.getElem?_append_left hr] at hg
      exact hI g hg
    · -- it is the one that is started, and nothing has happened to it
      have hbTrue : b = True := eq_true (hb (List.getElem?_eq_none hr))
      rw [List.getElem?_append_right hr] at hg
      have hmem := List.mem_of_getElem? hg
      rw [List.mem_singleton] at hmem
      rw [hbTrue, hmem]
      exact hstart
  · rw [hregs] at hnone
    refine hb (List.getElem?_eq_none ?_)
    have hlen := List.getElem?_eq_none_iff.1 hnone
    rw [List.length_append] at hlen
    omega

/-- The registration at position `r` is answered. -/
theorem Tracked.set {g g' : Registration Image Data} {b' : Prop}
    (hg : s.registrations[r]? = some g) (hI : I b' g')
    (hregs : s'.registrations = s.registrations.set r g') : Tracked I r b' s' := by
  obtain ⟨hlt, -⟩ := List.getElem?_eq_some_iff.1 hg
  refine ⟨fun g₁ hg₁ => ?_, fun hnone => ?_⟩
  · rw [hregs, List.getElem?_set_self hlt, Option.some_inj] at hg₁
    exact hg₁ ▸ hI
  · rw [hregs, List.getElem?_set_self hlt] at hnone
    exact absurd hnone (by simp)

theorem Tracked.congr (h : Tracked I r b s)
    (hregs : s'.registrations[r]? = s.registrations[r]?) : Tracked I r b s' := by
  rwa [Tracked, hregs]

/-- A step that does not answer the registration leaves the condition on it as it was. -/
theorem and_at_of_ne {C : Screen Image Data → Event Image → Prop} {e : Event Image}
    (hne : e.repliesTo ≠ some r) : (b ∧ At r C s e) = b :=
  propext (and_iff_left fun heq => absurd heq hne)

end Tracked

/-- On a screen without registrations, none has been started. -/
theorem not_started {s : Screen Image Data} (h : s.registrations = []) (r : ℕ) :
    s.registrations[r]? = none := by
  rw [h, List.getElem?_nil]

/-- **The tracking rule for one registration.**  `C` is a condition on the replies to the
registration at position `r`, which is not started yet; the first argument of `I` says whether it
has held so far. -/
theorem tracked_registration {P : Platform Image Data} {r : ℕ}
    {C : Screen Image Data → Event Image → Prop} {I : Prop → Registration Image Data → Prop}
    (hstart : ∀ vm, I True (started P vm))
    (hanswer : ∀ b s g e g' m, s.registrations[r]? = some g → I b g → Answer P s r g e g' m →
      I (b ∧ C s e) g')
    {s₀ s : Screen Image Data} {es : List (Event Image)}
    (h₀ : s₀.registrations[r]? = none) (hrun : run (step P) s₀ es = some s) :
    (∀ g, s.registrations[r]? = some g → I (StepsMeet (step P) (At r C) s₀ es) g) ∧
      (s.registrations[r]? = none → StepsMeet (step P) (At r C) s₀ es) := by
  have hrule := tracked_run (C := At r C) (b := True) (I := Tracked I r) ?_
    (by simp [Tracked, h₀]) hrun
  · simpa only [Tracked, true_and] using hrule
  intro b s e s' h hstep
  rcases step_cases hstep with ⟨hno, hregs, -⟩ | ⟨hno, -, hregs⟩ | ⟨r', g, g', hg, hans, hregs⟩
  · -- nothing happened to the registrations
    rw [and_at_of_ne (by simp [hno])]
    exact h.congr (by rw [hregs])
  · rw [and_at_of_ne (by simp [hno])]
    exact h.append (hstart _) hregs
  · rcases eq_or_ne r' r with rfl | hne
    · have hcond : (b ∧ At r' C s e) = (b ∧ C s e) := by simp [At, hans.repliesTo]
      rw [hcond]
      exact Tracked.set hg (hanswer b s g e g' _ hg (h.1 g hg) hans) hregs
    · have hother : e.repliesTo ≠ some r := by
        rw [hans.repliesTo]
        exact fun h => hne (Option.some_inj.1 h)
      rw [and_at_of_ne hother]
      exact h.congr (by rw [hregs, List.getElem?_set_ne hne])

end Register
