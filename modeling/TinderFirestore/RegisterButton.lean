/-
**The button and the guard.**

The form is checked twice.  Each edit of a field checks it and enables or disables the button; a
tap of the button checks it again, with a guard that is written differently and does not look at
the name.  The two agree: the button is enabled exactly when the three texts are there and the
password is confirmed, and then the guard lets the registration pass, with the e-mail and the
confirmed password that are in the fields.  Both compare the two passwords with `==`, so they can
differ in how they are spelled; the one that is sent is the confirmation.

* `Register.typed` — the texts that the user has left in the fields;
* `Register.Screen.fields`, `Register.fields_run` — **the view model holds what has been typed**;
* `Register.registerBtn_agrees_with_guard` — **the button and the guard agree**, after any sequence
  of events.
-/

import TinderFirestore.RegisterForm

set_option relaxedAutoImplicit false
set_option autoImplicit false

namespace Register

open Firestore Profile EventRun

variable {Image Data : Type*}

/-! ### What has been typed -/

/-- An event, seen from the text fields. -/
def Event.typeInto (texts : FormField → Option String) : Event Image → FormField → Option String
  | .textDidChange sender text => Function.update texts sender text
  | _ => texts

/-- The texts that the user has left in the fields, from the first event to the last. -/
def typed (es : List (Event Image)) : FormField → Option String :=
  es.foldl Event.typeInto fun _ => none

/-- What the view model holds for the text fields. -/
def Screen.fields (s : Screen Image Data) : FormField → Option String
  | .nameTF => s.viewModel.fullName
  | .emailTF => s.viewModel.email
  | .passTF => s.viewModel.pass
  | .confirmPassTF => s.viewModel.confirmPass

theorem setField_fields (P : Platform Image Data) (s : Screen Image Data) (sender : FormField)
    (text : Option String) :
    (s.textDidChangeAction P sender text).fields = Function.update s.fields sender text := by
  funext field
  by_cases h : field = sender
  · subst h
    rw [Function.update_self]
    cases field <;> rfl
  · rw [Function.update_of_ne h]
    cases field <;> cases sender <;> first | rfl | exact absurd rfl h

/-- Only typing changes what the view model holds for the fields. -/
theorem step_fields {P : Platform Image Data} {s s' : Screen Image Data} {e : Event Image}
    (h : step P s e = some s') : s'.fields = e.typeInto s.fields := by
  rcases step_form h with ⟨sender, text, rfl, rfl⟩ | ⟨hno, hform⟩
  · exact setField_fields P s sender text
  · have hsame : e.typeInto s.fields = s.fields := by
      cases e with
      | textDidChange sender text => exact absurd rfl (hno sender text)
      | _ => rfl
    rw [hsame]
    simp only [Screen.form, Prod.mk.injEq] at hform
    obtain ⟨⟨hname, hemail, hpass, hconfirm⟩, -⟩ := hform
    funext field
    cases field with
    | nameTF => exact hname
    | emailTF => exact hemail
    | passTF => exact hpass
    | confirmPassTF => exact hconfirm

theorem fields_run {P : Platform Image Data} {s t : Screen Image Data} {es : List (Event Image)}
    (hrun : run (step P) s es = some t) : t.fields = es.foldl Event.typeInto s.fields := by
  induction es generalizing s with
  | nil =>
      rw [run_nil, Option.some_inj] at hrun
      rw [hrun, List.foldl_nil]
  | cons e es ih =>
      obtain ⟨s', hs', hrun'⟩ := run_cons_eq_some.1 hrun
      rw [List.foldl_cons, ← step_fields hs', ih hrun']

/-- The loaded screen has nothing in its fields, so they hold what has been typed. -/
theorem fields_eq_typed {P : Platform Image Data} {m : Remote} {s : Screen Image Data}
    {es : List (Event Image)} (hrun : run (step P) (Screen.loaded m) es = some s) :
    s.fields = typed es := by
  have hempty : (Screen.loaded m : Screen Image Data).fields = fun _ => none := by
    funext field
    cases field <;> rfl
  rw [fields_run hrun, hempty, typed]

/-! ### The guard -/

/-- The guard lets a form pass whose e-mail and password are there and whose password is
confirmed; it goes on with the confirmation. -/
theorem credentials_eq_some {P : Platform Image Data} {vm : RegisterViewModel Image}
    {email pass confirmPass : String} (hemail : vm.email = some email) (hemail0 : email ≠ "")
    (hpass : vm.pass = some pass) (hpass0 : pass ≠ "")
    (hconfirm : vm.confirmPass = some confirmPass) (heq : P.textEq confirmPass pass) :
    vm.credentials P = some (email, confirmPass) := by
  simp [RegisterViewModel.credentials, hemail, hemail0, hpass, hpass0, hconfirm, heq,
    heq.ne_empty hpass0]

/-- What `preformRegistration` does with such a form: it asks for an account with this e-mail and
this password, and calls no completion. -/
theorem preformRegistration_issues {P : Platform Image Data} {s : Screen Image Data}
    {email confirmPass : String} (h : s.viewModel.credentials P = some (email, confirmPass)) :
    (s.preformRegistration P).registrations = s.registrations ++
      [Registration.new.issue (.createUser email confirmPass)] := by
  rw [preformRegistration_registrations, started, h]

/-! ### The main result -/

/-- **The button and the guard agree**, in every state that the loaded screen can reach.  The button
is enabled exactly when the name, the e-mail and the password that have been typed are not empty and
the confirmation is equal to the password; and when it is enabled, a tap asks for an account with
exactly this e-mail and this confirmed password, and ends nothing with the local error. -/
theorem registerBtn_agrees_with_guard (P : Platform Image Data) {m : Remote}
    {s : Screen Image Data} {es : List (Event Image)}
    (hrun : run (step P) (Screen.loaded m) es = some s) :
    (s.view.registerBtnEnabled = true ↔ ∃ fullName email pass confirmPass,
      typed es .nameTF = some fullName ∧ fullName ≠ "" ∧
      typed es .emailTF = some email ∧ email ≠ "" ∧
      typed es .passTF = some pass ∧ pass ≠ "" ∧
      typed es .confirmPassTF = some confirmPass ∧ P.textEq confirmPass pass) ∧
    (s.view.registerBtnEnabled = true → ∃ email pass confirmPass s' g,
      typed es .emailTF = some email ∧ typed es .passTF = some pass ∧
      typed es .confirmPassTF = some confirmPass ∧ P.textEq confirmPass pass ∧
      step P s .preformRegistration = some s' ∧ s'.registrations = s.registrations ++ [g] ∧
      g.outstanding = some (.createUser email confirmPass) ∧
      g.issued = [.createUser email confirmPass] ∧ g.completions = []) := by
  have hfields := fields_eq_typed hrun
  have hname : s.viewModel.fullName = typed es .nameTF := congrFun hfields .nameTF
  have hemail : s.viewModel.email = typed es .emailTF := congrFun hfields .emailTF
  have hpass : s.viewModel.pass = typed es .passTF := congrFun hfields .passTF
  have hconfirm : s.viewModel.confirmPass = typed es .confirmPassTF :=
    congrFun hfields .confirmPassTF
  have hbutton : s.view.registerBtnEnabled = true ↔ ∃ fullName email pass confirmPass,
      typed es .nameTF = some fullName ∧ fullName ≠ "" ∧
      typed es .emailTF = some email ∧ email ≠ "" ∧
      typed es .passTF = some pass ∧ pass ≠ "" ∧
      typed es .confirmPassTF = some confirmPass ∧ P.textEq confirmPass pass := by
    rw [registerBtnEnabled_run hrun, formValid_iff, hname, hemail, hpass, hconfirm]
  refine ⟨hbutton, fun henabled => ?_⟩
  obtain ⟨-, email, pass, confirmPass, -, -, he, he0, hp, hp0, hc, heq⟩ := hbutton.1 henabled
  have hguard := credentials_eq_some (hemail.trans he) he0 (hpass.trans hp) hp0
    (hconfirm.trans hc) heq
  exact ⟨email, pass, confirmPass, _, _, he, hp, hc, heq, rfl, preformRegistration_issues hguard,
    rfl, rfl, rfl⟩

/-- A platform that knows one letter with two spellings: the accent after the letter is another
spelling of the accented letter. -/
def accentPlatform : Platform (Option ℕ) ℕ where
  jpegData image := image
  localizedDescription e := e.domain
  canonical text := if text = "e\u0301" then "\u00e9" else text
  eq_empty_of_canonical text h := by
    have hempty : (if "" = "e\u0301" then "\u00e9" else "") = "" := by decide
    rw [hempty] at h
    split_ifs at h
    · exact absurd h (by decide)
    · exact h

/-- The password is confirmed in its other spelling. -/
def respelledForm : List (Event (Option ℕ)) :=
  [.textDidChange .nameTF (some "Ann"), .textDidChange .emailTF (some "ann@mail"),
    .textDidChange .passTF (some "\u00e9"), .textDidChange .confirmPassTF (some "e\u0301")]

/-- The spelling of the confirmation is sent. -/
theorem registerBtn_agrees_with_guard_filled :
    ∃ s, run (step accentPlatform) (Screen.loaded emptyRemote) respelledForm = some s ∧
      s.view.registerBtnEnabled = true ∧ ∃ email pass confirmPass s' g,
        typed respelledForm .emailTF = some email ∧ typed respelledForm .passTF = some pass ∧
        typed respelledForm .confirmPassTF = some confirmPass ∧
        accentPlatform.textEq confirmPass pass ∧
        step accentPlatform s .preformRegistration = some s' ∧
        s'.registrations = s.registrations ++ [g] ∧
        g.outstanding = some (.createUser email confirmPass) ∧
        g.issued = [.createUser email confirmPass] ∧ g.completions = [] := by
  have hrun : run (step accentPlatform) (Screen.loaded emptyRemote) respelledForm = some _ := rfl
  exact ⟨_, hrun, rfl, (registerBtn_agrees_with_guard accentPlatform hrun).2 rfl⟩

end Register
