/-
**When a registration notifies its caller.**

`preformRegistration` hands its completion closure down the chain of remote calls.  Every reply
that carries an error calls it, and so does the last reply; but three guards on the way return
without a word — there is no image, the image has no JPEG data, nobody is signed in.  A caller is
notified exactly once, with a nil error if and only if a document was written, precisely when none
of the three is met.

* `Register.Registration.NotifiedOnce` — the completion has been called exactly once, and with a
  nil error if and only if something holds;
* `Register.Heard` — a reply does not come when one of the three guards would swallow it;
* `Register.OwnUser` — the download URL comes while the account of the registration is signed in;
* `Register.preformRegistration_notifies_iff` — **a registration that waits for nothing has
  notified its caller exactly when every reply was heard**, and the document it reports is the one
  of its own account exactly when, besides, no other account was signed in at the wrong moment.
-/

import TinderFirestore.RegisterCall

set_option relaxedAutoImplicit false
set_option autoImplicit false

namespace Register

open Firestore Profile EventRun

variable {Image Data : Type*}

/-! ### What is to be shown -/

/-- The completion has been called exactly once, and with a nil error if and only if `wrote`. -/
def Registration.NotifiedOnce (g : Registration Image Data) (wrote : Prop) : Prop :=
  ∃ error, g.completions = [error] ∧ (error = none ↔ wrote)

/-- The registration has written a document. -/
def Registration.Wrote (g : Registration Image Data) : Prop :=
  ∃ document data, (document, data) ∈ g.written

/-- The registration has written the document of the account it made. -/
def Registration.WroteOwn (g : Registration Image Data) : Prop :=
  ∃ uid data, g.account = some uid ∧ (uid, data) ∈ g.written

theorem Registration.not_wrote_of_nil {g : Registration Image Data} (h : g.written = []) :
    ¬ g.Wrote := by
  rintro ⟨document, data, hmem⟩
  simp [h] at hmem

theorem Registration.wrote_of_ne_nil {g : Registration Image Data} (h : g.written ≠ []) :
    g.Wrote := by
  obtain ⟨⟨document, data⟩, hmem⟩ := List.exists_mem_of_ne_nil _ h
  exact ⟨document, data, hmem⟩

/-! ### The conditions -/

/-- The event is not a success that one of the three guards swallows: when an account has been made
there is an image with JPEG data, and when a download URL has come somebody is signed in. -/
def Heard (P : Platform Image Data) (s : Screen Image Data) : Event Image → Prop
  | .createUserReply _ (.ok _) _ => (s.viewModel.image.bind P.jpegData).isSome
  | .downloadURLReply _ (.ok _) => s.remote.currentUser.isSome
  | _ => True

/-- When the download URL of a registration has come, no account but the one it made is signed
in. -/
def OwnUser (s : Screen Image Data) : Event Image → Prop
  | .downloadURLReply r (.ok _) => ∀ g uid, s.registrations[r]? = some g →
      s.remote.currentUser = some uid → g.account = some uid
  | _ => True

/-! ### The invariants -/

/-- What is known of a registration when `b` says whether every reply was heard. -/
def HeardInv (b : Prop) (g : Registration Image Data) : Prop :=
  match g.outstanding with
  | some _ => b ∧ g.completions = [] ∧ g.written = []
  | none => (b → g.NotifiedOnce g.Wrote) ∧ (¬ b → g.completions = [])

theorem heardInv_started (P : Platform Image Data) (vm : RegisterViewModel Image) :
    HeardInv True (started P vm) := by
  rw [started]
  cases vm.credentials P with
  | none =>
      refine ⟨fun _ => ⟨some localError, rfl, ?_⟩, fun h => absurd trivial h⟩
      simp [Registration.Wrote, Registration.complete, Registration.new]
  | some c => exact ⟨trivial, rfl, rfl⟩

/-- A reply that fails calls the completion with its error. -/
theorem heardInv_failed {b c : Prop} {g : Registration Image Data} {error : NSError}
    {imageURL : Option String} (hb : b) (hc : c) (hcompl : g.completions = [])
    (hwritten : g.written = []) :
    HeardInv (b ∧ c) { g with
      outstanding := none, imageURL := imageURL
      completions := g.completions ++ [some error] } := by
  refine ⟨fun _ => ⟨some error, by simp [hcompl], ?_⟩, fun h => absurd ⟨hb, hc⟩ h⟩
  exact iff_of_false (by simp) (Registration.not_wrote_of_nil hwritten)

/-- A silent one does not call it at all. -/
theorem heardInv_silent {b c : Prop} {g : Registration Image Data} (hc : ¬ c)
    (hout : g.outstanding = none) (hcompl : g.completions = []) : HeardInv (b ∧ c) g := by
  rw [HeardInv, hout]
  exact ⟨fun h => absurd h.2 hc, fun _ => hcompl⟩

theorem heardInv_answer {P : Platform Image Data} {r : ℕ} (b : Prop) (s : Screen Image Data)
    (g : Registration Image Data) (e : Event Image) (g' : Registration Image Data) (m : Remote)
    (_ : s.registrations[r]? = some g) (hI : HeardInv b g) (hans : Answer P s r g e g' m) :
    HeardInv (b ∧ Heard P s e) g' := by
  cases hans with
  | createUserFailed hcall =>
      rw [HeardInv, hcall] at hI
      obtain ⟨hb, hcompl, hwritten⟩ := hI
      exact heardInv_failed hb trivial hcompl hwritten
  | noImageData hcall _ himage =>
      rw [HeardInv, hcall] at hI
      exact heardInv_silent (by simp [Heard, himage]) rfl hI.2.1
  | uploading hcall _ himage hdata =>
      rw [HeardInv, hcall] at hI
      exact ⟨⟨hI.1, by simp [Heard, himage, hdata]⟩, hI.2⟩
  | putDataFailed hcall =>
      rw [HeardInv, hcall] at hI
      obtain ⟨hb, hcompl, hwritten⟩ := hI
      exact heardInv_failed hb trivial hcompl hwritten
  | uploaded hcall =>
      rw [HeardInv, hcall] at hI
      exact ⟨⟨hI.1, trivial⟩, hI.2⟩
  | downloadURLFailed hcall =>
      rw [HeardInv, hcall] at hI
      obtain ⟨hb, hcompl, hwritten⟩ := hI
      exact heardInv_failed hb trivial hcompl hwritten
  | noCurrentUser hcall huser =>
      rw [HeardInv, hcall] at hI
      exact heardInv_silent (by simp [Heard, huser]) rfl hI.2.1
  | writing hcall huser =>
      rw [HeardInv, hcall] at hI
      exact ⟨⟨hI.1, by simp [Heard, huser]⟩, hI.2⟩
  | setDataFailed hcall =>
      rw [HeardInv, hcall] at hI
      obtain ⟨hb, hcompl, hwritten⟩ := hI
      exact heardInv_failed hb trivial hcompl hwritten
  | @setDataDone document data hcall =>
      rw [HeardInv, hcall] at hI
      obtain ⟨hb, hcompl, hwritten⟩ := hI
      -- the only reply that calls the completion without an error
      refine ⟨fun _ => ⟨none, by simp [hcompl], ?_⟩, fun h => absurd ⟨hb, trivial⟩ h⟩
      simp only [true_iff]
      exact ⟨document, data, by simp⟩

/-- What is known of a registration when `b` says whether its own account was signed in when its
download URL came. -/
def OwnInv (b : Prop) (g : Registration Image Data) : Prop :=
  match g.outstanding with
  | some (.setData document _) => g.written = [] ∧ (b ↔ g.account = some document)
  | some _ => g.written = [] ∧ b
  | none => ∀ w ∈ g.written, (b ↔ g.account = some w.1)

theorem ownInv_started (P : Platform Image Data) (vm : RegisterViewModel Image) :
    OwnInv True (started P vm) := by
  rw [started]
  cases vm.credentials P with
  | none => simp [OwnInv, Registration.complete, Registration.new]
  | some c => exact ⟨rfl, trivial⟩

theorem ownInv_answer {P : Platform Image Data} {r : ℕ} (b : Prop) (s : Screen Image Data)
    (g : Registration Image Data) (e : Event Image) (g' : Registration Image Data) (m : Remote)
    (hg : s.registrations[r]? = some g) (hI : OwnInv b g) (hans : Answer P s r g e g' m) :
    OwnInv (b ∧ OwnUser s e) g' := by
  cases hans with
  | createUserFailed hcall =>
      simp only [OwnInv, hcall] at hI
      simp [OwnInv, hI.1]
  | noImageData hcall =>
      simp only [OwnInv, hcall] at hI
      simp [OwnInv, hI.1]
  | uploading hcall =>
      simp only [OwnInv, hcall] at hI
      simp [OwnInv, OwnUser, hI.1, hI.2]
  | putDataFailed hcall =>
      simp only [OwnInv, hcall] at hI
      simp [OwnInv, hI.1]
  | uploaded hcall =>
      simp only [OwnInv, hcall] at hI
      simp [OwnInv, OwnUser, hI.1, hI.2]
  | downloadURLFailed hcall =>
      simp only [OwnInv, hcall] at hI
      simp [OwnInv, hI.1]
  | noCurrentUser hcall =>
      simp only [OwnInv, hcall] at hI
      simp [OwnInv, hI.1]
  | writing hcall huser =>
      simp only [OwnInv, hcall] at hI
      simp [OwnInv, OwnUser, hI.1, hI.2, huser, hg]
  | setDataFailed hcall =>
      simp only [OwnInv, hcall] at hI
      simp [OwnInv, hI.1]
  | setDataDone hcall =>
      simp only [OwnInv, hcall] at hI
      simp [OwnInv, OwnUser, hI.1, hI.2]

/-- What is known of a registration when `b` says whether no write of it has succeeded. -/
def UnwrittenInv (b : Prop) (g : Registration Image Data) : Prop :=
  match g.outstanding with
  | some _ => g.written = [] ∧ b
  | none => b ↔ g.written = []

theorem unwrittenInv_started (P : Platform Image Data) (vm : RegisterViewModel Image) :
    UnwrittenInv True (started P vm) := by
  rw [started]
  cases vm.credentials P with
  | none => simp [UnwrittenInv, Registration.complete, Registration.new]
  | some c => exact ⟨rfl, trivial⟩

theorem unwrittenInv_answer {P : Platform Image Data} {r : ℕ} (b : Prop) (s : Screen Image Data)
    (g : Registration Image Data) (e : Event Image) (g' : Registration Image Data) (m : Remote)
    (_ : s.registrations[r]? = some g) (hI : UnwrittenInv b g) (hans : Answer P s r g e g' m) :
    UnwrittenInv (b ∧ e ≠ .setDataReply r none) g' := by
  obtain ⟨call, hcall⟩ := hans.outstanding
  simp only [UnwrittenInv, hcall] at hI
  cases hans <;> simp [UnwrittenInv, hI.1, hI.2]

/-! ### The main result -/

/-- **When a registration notifies its caller.**  Once it waits for no reply, its completion has
been called exactly once, with a nil error if and only if it wrote a document, precisely when every
reply was heard.  That document is the one of the account it made, precisely when moreover its own
account was signed in when the download URL came, or the write failed. -/
theorem preformRegistration_notifies_iff (P : Platform Image Data) {s₀ s : Screen Image Data}
    {es : List (Event Image)} {r : ℕ} {g : Registration Image Data}
    (h₀ : s₀.registrations = []) (hrun : run (step P) s₀ es = some s)
    (hg : s.registrations[r]? = some g) (hquiet : g.outstanding = none) :
    (g.NotifiedOnce g.Wrote ↔ StepsMeet (step P) (At r (Heard P)) s₀ es) ∧
    (g.NotifiedOnce g.WroteOwn ↔ StepsMeet (step P) (At r (Heard P)) s₀ es ∧
      (StepsMeet (step P) (At r OwnUser) s₀ es ∨ ∀ e ∈ es, e ≠ .setDataReply r none)) := by
  have hnone := not_started h₀ r
  have hheard := (tracked_registration (heardInv_started P) heardInv_answer hnone hrun).1 g hg
  have hown := (tracked_registration (ownInv_started P) ownInv_answer hnone hrun).1 g hg
  have hwritten :=
    (tracked_registration (unwrittenInv_started P) unwrittenInv_answer hnone hrun).1 g hg
  have hrefused : StepsMeet (step P) (At r fun _ e => e ≠ .setDataReply r none) s₀ es ↔
      ∀ e ∈ es, e ≠ .setDataReply r none := by
    refine (stepsMeet_events_iff hrun).trans ⟨fun h e he heq => ?_, fun h e he _ => h e he⟩
    exact h e he (by rw [heq]; rfl) heq
  rw [hrefused] at hwritten
  simp only [HeardInv, OwnInv, UnwrittenInv, hquiet] at hheard hown hwritten
  have hfirst : g.NotifiedOnce g.Wrote ↔ StepsMeet (step P) (At r (Heard P)) s₀ es := by
    refine ⟨fun ⟨error, hcompl, _⟩ => ?_, hheard.1⟩
    by_contra hnot
    simp [hheard.2 hnot] at hcompl
  refine ⟨hfirst, ?_⟩
  constructor
  · rintro ⟨error, hcompl, herror⟩
    have hH : StepsMeet (step P) (At r (Heard P)) s₀ es := by
      by_contra hnot
      simp [hheard.2 hnot] at hcompl
    refine ⟨hH, ?_⟩
    rcases eq_or_ne g.written [] with hnil | hne
    · exact Or.inr (hwritten.2 hnil)
    · -- a write that succeeded was reported, so it was the one of the own account
      obtain ⟨error', hcompl', herror'⟩ := hheard.1 hH
      have hnil : error = none := by
        have : error = error' := by simpa [hcompl] using hcompl'
        rw [this]
        exact herror'.2 (Registration.wrote_of_ne_nil hne)
      obtain ⟨uid, data, haccount, hmem⟩ := herror.1 hnil
      exact Or.inl ((hown _ hmem).2 haccount)
  · rintro ⟨hH, hcase⟩
    obtain ⟨error, hcompl, herror⟩ := hheard.1 hH
    refine ⟨error, hcompl, herror.trans ⟨?_, ?_⟩⟩
    · rintro ⟨document, data, hmem⟩
      rcases hcase with hO | hno
      · exact ⟨document, data, (hown _ hmem).1 hO, hmem⟩
      · rw [hwritten.1 hno] at hmem
        exact absurd hmem List.not_mem_nil
    · rintro ⟨uid, data, -, hmem⟩
      exact ⟨uid, data, hmem⟩

/-- A registration that runs through. -/
theorem preformRegistration_notifies_iff_done :
    ∃ s g, run (step plainPlatform) (filledScreen (some (some 7)))
        [.preformRegistration, .createUserReply 0 (.ok "u1") "photo", .putDataReply 0 none,
          .downloadURLReply 0 (.ok (some "url")), .setDataReply 0 none] = some s ∧
      s.registrations[0]? = some g ∧ g.outstanding = none ∧
      (g.NotifiedOnce g.Wrote ↔ StepsMeet (step plainPlatform) (At 0 (Heard plainPlatform))
        (filledScreen (some (some 7)))
        [.preformRegistration, .createUserReply 0 (.ok "u1") "photo", .putDataReply 0 none,
          .downloadURLReply 0 (.ok (some "url")), .setDataReply 0 none]) :=
  ⟨_, _, rfl, rfl, rfl, (preformRegistration_notifies_iff plainPlatform rfl rfl rfl rfl).1⟩

/-- **A registration without an image never notifies its caller**: the account is made, and then
nothing is outstanding and nothing has been said. -/
theorem preformRegistration_silent :
    ∃ s g, run (step plainPlatform) (filledScreen none)
        [.preformRegistration, .createUserReply 0 (.ok "u1") "photo"] = some s ∧
      s.registrations[0]? = some g ∧ g.outstanding = none ∧ ¬ g.NotifiedOnce g.Wrote :=
  ⟨_, _, rfl, rfl, rfl, by rintro ⟨error, hcompl, -⟩; cases hcompl⟩

end Register
