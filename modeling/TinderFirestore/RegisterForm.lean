/-
**Which form a registration writes.**

A registration takes the e-mail and the password from the form when it starts.  The image it takes
when its account has been made, and the name when its download URL has come; by then the form may
have been edited.  It uploads and writes what the form held at its start exactly when, at these two
moments, the form still holds it.

* `Register.Screen.loaded` — the screen right after it has been loaded;
* `Register.registerBtnEnabled_run` — on it, the button is always enabled exactly when the form
  passes the check;
* `Register.Registration.WritesForm` — what the registration uploads and writes is what a form
  held;
* `Register.FormKept` — the condition on the two replies;
* `Register.registration_writes_form_iff` — **a registration writes the form it was started with
  exactly when the form is kept at these two moments.**
-/

import TinderFirestore.RegisterCall

set_option relaxedAutoImplicit false
set_option autoImplicit false

namespace Register

open Firestore Profile EventRun

variable {Image Data : Type*}

/-! ### The button and the form -/

/-- The form passes the check when the name, the e-mail and the password are there and not empty,
and the password is confirmed. -/
theorem formValid_iff {P : Platform Image Data} {vm : RegisterViewModel Image} :
    vm.formValid P = true ↔ ∃ fullName email pass confirmPass,
      vm.fullName = some fullName ∧ fullName ≠ "" ∧ vm.email = some email ∧ email ≠ "" ∧
      vm.pass = some pass ∧ pass ≠ "" ∧
      vm.confirmPass = some confirmPass ∧ P.textEq confirmPass pass := by
  rw [RegisterViewModel.formValid, Option.isSome_iff_exists]
  simp only [Option.bind_eq_bind, Option.bind_eq_some_iff, Option.guard_eq_some', exists_and_left]
  constructor
  · rintro ⟨-, fullName, hname, hname0, -, email, hemail, hemail0, -, pass, hpass, hpass0, -,
      confirmPass, hconfirm, -, heq⟩
    exact ⟨fullName, hname, hname0, email, hemail, hemail0, pass, hpass, hpass0, confirmPass,
      hconfirm, heq⟩
  · rintro ⟨fullName, hname, hname0, email, hemail, hemail0, pass, hpass, hpass0, confirmPass,
      hconfirm, heq⟩
    exact ⟨(), fullName, hname, hname0, (), email, hemail, hemail0, (), pass, hpass, hpass0, (),
      confirmPass, hconfirm, heq.ne_empty hpass0, heq⟩

/-- What the button depends on: the four fields, and the button itself. -/
def Screen.form (s : Screen Image Data) :
    (Option String × Option String × Option String × Option String) × Bool :=
  ((s.viewModel.fullName, s.viewModel.email, s.viewModel.pass, s.viewModel.confirmPass),
    s.view.registerBtnEnabled)

theorem preformRegistration_form (P : Platform Image Data) (s : Screen Image Data) :
    (s.preformRegistration P).form = s.form := by
  unfold Screen.preformRegistration
  dsimp only
  split <;> simp [Screen.form]

/-- Only an edit of the form changes the form or the button. -/
theorem step_form {P : Platform Image Data} {s s' : Screen Image Data} {e : Event Image}
    (h : step P s e = some s') :
    (∃ sender text, e = .textDidChange sender text ∧ s' = s.textDidChangeAction P sender text) ∨
      (∀ sender text, e ≠ .textDidChange sender text) ∧ s'.form = s.form := by
  cases e with
  | textDidChange sender text =>
      exact Or.inl ⟨sender, text, rfl, (Option.some_inj.1 h).symm⟩
  | imagePicked image => exact Or.inr ⟨by simp, by rw [← Option.some_inj.1 h]; rfl⟩
  | signOut => exact Or.inr ⟨by simp, by rw [← Option.some_inj.1 h]; rfl⟩
  | preformRegistration =>
      exact Or.inr ⟨by simp, by rw [← Option.some_inj.1 h]; exact preformRegistration_form P s⟩
  | createUserReply r reply filename =>
      refine Or.inr ⟨by simp, ?_⟩
      simp only [step, Screen.createUserReply] at h
      split at h
      · split at h
        · rw [← Option.some_inj.1 h]
          simp [Screen.createUserCallback, Screen.form]
        · split_ifs at h
          rw [← Option.some_inj.1 h]
          simp [Screen.createUserCallback, Screen.form]
      · simp at h
  | putDataReply r error =>
      refine Or.inr ⟨by simp, ?_⟩
      simp only [step, Screen.putDataReply] at h
      split at h
      · rw [← Option.some_inj.1 h]
        cases error <;> simp [Screen.putDataCallback, Screen.form]
      · simp at h
  | downloadURLReply r reply =>
      refine Or.inr ⟨by simp, ?_⟩
      simp only [step, Screen.downloadURLReply] at h
      split at h
      · rw [← Option.some_inj.1 h]
        cases reply <;> simp [Screen.downloadURLCallback, Screen.form]
      · simp at h
  | setDataReply r error =>
      refine Or.inr ⟨by simp, ?_⟩
      simp only [step, Screen.setDataReply] at h
      split at h
      · split at h <;>
        · rw [← Option.some_inj.1 h]
          simp [Screen.form]
      · simp at h

/-- The screen right after it has been loaded, with whatever is stored remotely. -/
def Screen.loaded (m : Remote) : Screen Image Data where
  viewModel :=
    { isRegistering := none, image := none, isFormValid := none, fullName := none, email := none,
      pass := none, confirmPass := none }
  view :=
    { photo := none, registerBtnEnabled := false,
      hudView := { phase := .hidden, textLabel := "", detailTextLabel := "" } }
  remote := m
  registrations := []

/-- **The button tells whether the form passes the check**, in every state that the loaded screen
can reach. -/
theorem registerBtnEnabled_run {P : Platform Image Data} {m : Remote} {s : Screen Image Data}
    {es : List (Event Image)} (hrun : run (step P) (Screen.loaded m) es = some s) :
    s.view.registerBtnEnabled = s.viewModel.formValid P := by
  refine invariant_run (I := fun s => s.view.registerBtnEnabled = s.viewModel.formValid P) ?_ rfl
    hrun
  intro s e s' hI hstep
  rcases step_form hstep with ⟨sender, text, -, rfl⟩ | ⟨-, hform⟩
  · rfl
  · simp only [Screen.form, Prod.mk.injEq] at hform
    obtain ⟨⟨hname, hemail, hpass, hconfirm⟩, hbtn⟩ := hform
    rw [hbtn, hI, RegisterViewModel.formValid, RegisterViewModel.formValid, hname, hemail, hpass,
      hconfirm]

/-! ### What a registration takes from the form -/

/-- The images the registration uploads and the names it asks to be written are those of a form. -/
def Registration.WritesForm (vm : RegisterViewModel Image) (g : Registration Image Data) : Prop :=
  (∀ path image imageData, .putData path image imageData ∈ g.issued → vm.image = some image) ∧
    ∀ uid data, .setData uid data ∈ g.issued →
      data "fullName" = some (.string (vm.fullName.getD ""))

/-- When an upload begins the form holds the image of `vm`, and when a write begins it holds the
name of `vm`. -/
def FormKept (P : Platform Image Data) (vm : RegisterViewModel Image) (s : Screen Image Data) :
    Event Image → Prop
  | .createUserReply _ (.ok _) _ => ∀ image imageData, s.viewModel.image = some image →
      P.jpegData image = some imageData → vm.image = some image
  | .downloadURLReply _ (.ok _) => ∀ uid, s.remote.currentUser = some uid →
      s.viewModel.fullName.getD "" = vm.fullName.getD ""
  | _ => True

/-- Making one more call adds what this call says about the form. -/
theorem writesForm_append {vm : RegisterViewModel Image} {g g' : Registration Image Data}
    {call : RemoteCall Image Data} (hissued : g'.issued = g.issued ++ [call]) :
    g'.WritesForm vm ↔ g.WritesForm vm ∧
      (∀ path image imageData, call = .putData path image imageData → vm.image = some image) ∧
      ∀ uid data, call = .setData uid data →
        data "fullName" = some (.string (vm.fullName.getD "")) := by
  simp only [Registration.WritesForm, hissued, List.mem_append, List.mem_singleton]
  constructor
  · rintro ⟨hput, hset⟩
    exact ⟨⟨fun p i d h => hput p i d (Or.inl h), fun u d h => hset u d (Or.inl h)⟩,
      fun p i d h => hput p i d (Or.inr h.symm), fun u d h => hset u d (Or.inr h.symm)⟩
  · rintro ⟨⟨hput, hset⟩, hput', hset'⟩
    exact ⟨fun p i d h => h.elim (hput p i d) fun h => hput' p i d h.symm,
      fun u d h => h.elim (hset u d) fun h => hset' u d h.symm⟩

/-- What is known of a registration when `b` says whether the form was kept. -/
structure FormInv (vm : RegisterViewModel Image) (b : Prop) (g : Registration Image Data) :
    Prop where
  writesForm : b ↔ g.WritesForm vm
  outstanding : ∀ call, g.outstanding = some call → call ∈ g.issued
  written : ∀ uid data, (uid, data) ∈ g.written → .setData uid data ∈ g.issued

theorem formInv_started (P : Platform Image Data) (vm vm' : RegisterViewModel Image) :
    FormInv vm True (started P vm') := by
  rw [started]
  cases vm'.credentials P with
  | none =>
      exact ⟨by simp [Registration.WritesForm, Registration.complete, Registration.new],
        by simp [Registration.complete, Registration.new],
        by simp [Registration.complete, Registration.new]⟩
  | some c =>
      exact ⟨by simp [Registration.WritesForm, Registration.issue, Registration.new],
        by simp [Registration.issue, Registration.new],
        by simp [Registration.issue, Registration.new]⟩

/-- A reply after which no call is made. -/
theorem FormInv.ended {vm : RegisterViewModel Image} {b : Prop} {g g' : Registration Image Data}
    (hI : FormInv vm b g) (hout : g'.outstanding = none) (hissued : g'.issued = g.issued)
    (hwritten : ∀ w ∈ g'.written, w ∈ g.written ∨ .setData w.1 w.2 ∈ g.issued) :
    FormInv vm b g' := by
  refine ⟨?_, by simp [hout], fun uid data hmem => ?_⟩
  · rw [hI.writesForm, Registration.WritesForm, Registration.WritesForm, hissued]
  · rw [hissued]
    exact (hwritten _ hmem).elim (hI.written uid data) id

/-- A reply after which a call is made. -/
theorem FormInv.issued {vm : RegisterViewModel Image} {b c : Prop} {g g' : Registration Image Data}
    {call : RemoteCall Image Data} (hI : FormInv vm b g) (hout : g'.outstanding = some call)
    (hissued : g'.issued = g.issued ++ [call]) (hwritten : g'.written = g.written)
    (hcall : c ↔ (∀ path image imageData, call = .putData path image imageData →
      vm.image = some image) ∧ ∀ uid data, call = .setData uid data →
        data "fullName" = some (.string (vm.fullName.getD ""))) :
    FormInv vm (b ∧ c) g' := by
  refine ⟨?_, fun call' h => ?_, fun uid data hmem => ?_⟩
  · rw [writesForm_append hissued, hI.writesForm, hcall]
  · rw [hout, Option.some_inj] at h
    simp [hissued, h]
  · rw [hissued]
    exact List.mem_append_left _ (hI.written uid data (hwritten ▸ hmem))

theorem formInv_answer {P : Platform Image Data} {vm : RegisterViewModel Image} {r : ℕ} (b : Prop)
    (s : Screen Image Data) (g : Registration Image Data) (e : Event Image)
    (g' : Registration Image Data) (m : Remote) (_ : s.registrations[r]? = some g)
    (hI : FormInv vm b g) (hans : Answer P s r g e g' m) :
    FormInv vm (b ∧ FormKept P vm s e) g' := by
  have hI' : FormInv vm (b ∧ True) g := by rwa [and_true]
  cases hans with
  | createUserFailed => exact hI'.ended rfl rfl fun w hw => Or.inl hw
  | noImageData _ _ himage =>
      have hkept (uid filename : String) :
          FormKept P vm s (.createUserReply r (.ok uid) filename) ↔ True := by
        refine iff_true_intro fun image imageData hi hd => ?_
        simp [hi, hd] at himage
      rw [propext (hkept _ _)]
      exact hI'.ended rfl rfl fun w hw => Or.inl hw
  | uploading _ _ himage hdata =>
      refine hI.issued rfl rfl rfl ⟨fun h => ⟨fun _ image imageData hcall => ?_, by simp⟩, ?_⟩
      · cases hcall
        exact h _ _ himage hdata
      · rintro ⟨hput, -⟩ image imageData hi -
        rw [himage, Option.some_inj] at hi
        exact hi ▸ hput _ _ _ rfl
  | putDataFailed => exact hI'.ended rfl rfl fun w hw => Or.inl hw
  | uploaded => exact hI.issued rfl rfl rfl (by simp [FormKept])
  | downloadURLFailed => exact hI'.ended rfl rfl fun w hw => Or.inl hw
  | noCurrentUser _ huser =>
      have hkept (url : Option String) :
          FormKept P vm s (.downloadURLReply r (.ok url)) ↔ True := by simp [FormKept, huser]
      rw [propext (hkept _)]
      exact hI'.ended rfl rfl fun w hw => Or.inl hw
  | writing _ huser =>
      refine hI.issued rfl rfl rfl ?_
      simp [FormKept, huser, saveInfoDictionary, Dictionary.ofList_cons]
  | setDataFailed => exact hI'.ended rfl rfl fun w hw => Or.inl hw
  | setDataDone hcall =>
      refine hI'.ended rfl rfl fun w hw => ?_
      rcases List.mem_append.1 hw with hw | hw
      · exact Or.inl hw
      · rw [List.mem_singleton] at hw
        subst hw
        exact Or.inr (hI.outstanding _ hcall)

/-! ### The main result -/

/-- A registration that has been started stays in the list. -/
theorem registrations_length_run {P : Platform Image Data} {s t : Screen Image Data}
    {es : List (Event Image)} (hrun : run (step P) s es = some t) :
    s.registrations.length ≤ t.registrations.length := by
  refine invariant_run (I := fun t => s.registrations.length ≤ t.registrations.length) ?_ le_rfl
    hrun
  intro t e t' ht hstep
  rcases step_cases hstep with ⟨-, hregs, -⟩ | ⟨-, -, hregs⟩ | ⟨r, g, g', -, -, hregs⟩
  · rwa [hregs]
  · rw [hregs, List.length_append]
    omega
  · rwa [hregs, List.length_set]

/-- **Which form a registration writes.**  A registration that is started with the enabled button,
whatever registrations have been started before it, finds a non-empty name in the form.  It uploads
the image and writes the name that the form held at this moment exactly when the form still holds
this image when the upload begins, and this name when the write begins. -/
theorem registration_writes_form_iff (P : Platform Image Data) {m : Remote}
    {s₀ s : Screen Image Data} {es₀ es : List (Event Image)}
    (hload : run (step P) (Screen.loaded m) es₀ = some s₀)
    (henabled : s₀.view.registerBtnEnabled = true)
    (hrun : run (step P) s₀ (.preformRegistration :: es) = some s) :
    ∃ fullName g, s₀.viewModel.fullName = some fullName ∧ fullName ≠ "" ∧
      s.registrations[s₀.registrations.length]? = some g ∧
      (∀ uid data, (uid, data) ∈ g.written → .setData uid data ∈ g.issued) ∧
      (g.WritesForm s₀.viewModel ↔
        StepsMeet (step P) (At s₀.registrations.length (FormKept P s₀.viewModel)) s₀
          (.preformRegistration :: es)) := by
  rw [registerBtnEnabled_run hload] at henabled
  obtain ⟨fullName, -, -, -, hname, hname0, -⟩ := formValid_iff.1 henabled
  have hrule := tracked_registration (r := s₀.registrations.length)
    (formInv_started P s₀.viewModel) formInv_answer (List.getElem?_eq_none le_rfl) hrun
  have hstarted : s₀.registrations.length < s.registrations.length := by
    obtain ⟨s₁, hs₁, hrun₁⟩ := run_cons_eq_some.1 hrun
    have hstays := registrations_length_run hrun₁
    rw [← Option.some_inj.1 hs₁, preformRegistration_registrations, List.length_append] at hstays
    exact hstays
  obtain ⟨g, hg⟩ : ∃ g, s.registrations[s₀.registrations.length]? = some g :=
    ⟨_, List.getElem?_eq_getElem hstarted⟩
  have hI := hrule.1 g hg
  exact ⟨fullName, g, hname, hname0, hg, hI.written, hI.writesForm.symm⟩

/-- Filling in the form of a loaded screen. -/
def fillForm : List (Event (Option ℕ)) :=
  [.textDidChange .nameTF (some "Ann"), .textDidChange .emailTF (some "ann@mail"),
    .textDidChange .passTF (some "secret"), .textDidChange .confirmPassTF (some "secret"),
    .imagePicked (some 7)]

/-- Nobody is signed in, and nothing is stored. -/
def emptyRemote : Remote where
  currentUser := none
  accounts := []
  users := ∅

/-- The replies of a registration whose photo is replaced and whose name is cleared on the way. -/
def editedReplies : List (Event (Option ℕ)) :=
  [.imagePicked (some 8), .createUserReply 0 (.ok "u1") "photo", .textDidChange .nameTF (some ""),
    .putDataReply 0 none, .downloadURLReply 0 (.ok (some "url")), .setDataReply 0 none]

/-- A registration whose account is refused, before the next is started. -/
def refusedOnce : List (Event (Option ℕ)) :=
  fillForm ++ [.preformRegistration,
    .createUserReply 0 (.error { domain := "in use", code := 17007 }) "photo",
    .textDidChange .emailTF (some "ann@post")]

/-- The replies of the next one, whose photo is replaced on the way. -/
def editedRetry : List (Event (Option ℕ)) :=
  [.imagePicked (some 8), .createUserReply 1 (.ok "u1") "photo", .putDataReply 1 none]

theorem registration_writes_form_iff_edited :
    ∃ s₀ s, run (step plainPlatform) (Screen.loaded emptyRemote) refusedOnce = some s₀ ∧
      run (step plainPlatform) s₀ (.preformRegistration :: editedRetry) = some s ∧
      ∃ fullName g, s₀.viewModel.fullName = some fullName ∧ fullName ≠ "" ∧
        s.registrations[1]? = some g ∧
        (∀ uid data, (uid, data) ∈ g.written → .setData uid data ∈ g.issued) ∧
        (g.WritesForm s₀.viewModel ↔
          StepsMeet (step plainPlatform) (At 1 (FormKept plainPlatform s₀.viewModel)) s₀
            (.preformRegistration :: editedRetry)) :=
  have hload : run (step plainPlatform) (Screen.loaded emptyRemote) refusedOnce = some _ := rfl
  ⟨_, _, rfl, rfl, registration_writes_form_iff plainPlatform hload rfl rfl⟩

/-- **A registration that was edited on the way**: it uploads an image the form did not hold when
it was started, and writes an empty name. -/
theorem registration_writes_edited_form :
    ∃ s₀ s g data, run (step plainPlatform) (Screen.loaded emptyRemote) fillForm = some s₀ ∧
      s₀.view.registerBtnEnabled = true ∧ s₀.viewModel.image = some (some 7) ∧
      run (step plainPlatform) s₀ (.preformRegistration :: editedReplies) = some s ∧
      s.registrations[0]? = some g ∧ .putData "/images/photo" (some 8) 8 ∈ g.issued ∧
      ("u1", data) ∈ g.written ∧ data "fullName" = some (.string "") ∧
      ¬ g.WritesForm s₀.viewModel := by
  refine ⟨_, _, _, _, rfl, rfl, rfl, rfl, rfl, ?_, List.mem_singleton.2 rfl, rfl, fun h => ?_⟩
  · exact List.mem_cons_of_mem _ List.mem_cons_self
  · have himage := h.1 _ _ _ (List.mem_cons_of_mem _ List.mem_cons_self)
    exact absurd (Option.some_inj.1 himage) (by decide)

end Register
