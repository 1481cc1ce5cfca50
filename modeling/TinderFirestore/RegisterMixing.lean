/-
**Whose document a registration writes.**

The last step of a registration asks for the signed-in account again, although `createUser` told
it which account it made.  While a photo is being uploaded another registration can make and sign
in its own account, so a registration can come to write the document of another one.  It writes
its own exactly when the account it made is still the signed-in one at the moment its download URL
comes.

* `Register.Registration.KeepsToItself` — everything the registration writes is addressed to the
  account it made, and carries that uid and the download URL of the image it uploaded;
* `Register.NotMixed` — the condition on the arrival of a download URL;
* `Register.registrations_keep_to_themselves_iff` — **the registrations of a run do not mix exactly
  when the condition holds at every arrival.**
-/

import TinderFirestore.RegisterCall

set_option relaxedAutoImplicit false
set_option autoImplicit false

namespace Register

open Firestore Profile EventRun

variable {Image Data : Type*}

/-! ### What is to be shown -/

/-- A write the registration may make: to the document of the account it made, with that uid and
with the download URL of the file it uploaded. -/
def Registration.OwnData (g : Registration Image Data) (uid : String) (data : Dictionary) : Prop :=
  g.account = some uid ∧ data "uid" = some (.string uid) ∧
    ∃ path image imageData url, .putData path image imageData ∈ g.issued ∧
      .downloadURL path ∈ g.issued ∧ g.imageURL = some url ∧
      data "image1Url" = some (.string url)

/-- Everything the registration asks to be written, and everything it has written, is its own. -/
def Registration.KeepsToItself (g : Registration Image Data) : Prop :=
  (∀ uid data, .setData uid data ∈ g.issued → g.OwnData uid data) ∧
    ∀ uid data, (uid, data) ∈ g.written → g.account = some uid

/-- When a download URL comes while somebody is signed in, it is there, and the signed-in account is
the one this registration made. -/
def NotMixed (s : Screen Image Data) : Event Image → Prop
  | .downloadURLReply r (.ok url) => ∀ g uid, s.registrations[r]? = some g →
      s.remote.currentUser = some uid → g.account = some uid ∧ url.isSome
  | _ => True

/-! ### The invariant -/

/-- A registration that has not come to its `setData` has not asked for a write. -/
def Registration.NoWrite (g : Registration Image Data) : Prop :=
  (∀ uid data, .setData uid data ∉ g.issued) ∧ g.written = []

theorem Registration.NoWrite.keepsToItself {g : Registration Image Data} (h : g.NoWrite) :
    g.KeepsToItself :=
  ⟨fun uid data hmem => absurd hmem (h.1 uid data), fun uid data hmem => by simp [h.2] at hmem⟩

section Writes

variable {g g' : Registration Image Data} {uid : String} {data : Dictionary}

/-- A call that is no `setData` asks for no write. -/
theorem Registration.NoWrite.issue {call : RemoteCall Image Data} (h : g.NoWrite)
    (hcall : ∀ uid data, call ≠ .setData uid data) (hissued : g'.issued = g.issued ++ [call])
    (hwritten : g'.written = g.written) : g'.NoWrite := by
  refine ⟨fun uid data hmem => ?_, by rw [hwritten, h.2]⟩
  rw [hissued, List.mem_append, List.mem_singleton] at hmem
  rcases hmem with hmem | hmem
  · exact h.1 uid data hmem
  · exact hcall uid data hmem.symm

/-- The first `setData` of a registration is all that it has asked for. -/
theorem Registration.NoWrite.keepsToItself_iff (h : g.NoWrite) (url : Option String)
    (hg' : g' = { g with
      outstanding := some (.setData uid data)
      issued := g.issued ++ [.setData uid data]
      imageURL := url }) :
    g'.KeepsToItself ↔ g'.OwnData uid data := by
  subst hg'
  constructor
  · rintro ⟨hown, -⟩
    exact hown uid data (List.mem_append_right _ (List.mem_singleton_self _))
  · intro hown
    refine ⟨fun uid' data' hmem => ?_, fun uid' data' hmem => ?_⟩
    · rcases List.mem_append.1 hmem with hmem | hmem
      · exact absurd hmem (h.1 uid' data')
      · obtain ⟨rfl, rfl⟩ := RemoteCall.setData.inj (List.mem_singleton.1 hmem)
        exact hown
    · exact absurd (h.2 ▸ hmem) List.not_mem_nil

/-- A document that has been written is the one that was asked for. -/
theorem Registration.KeepsToItself.wrote_iff (hset : .setData uid data ∈ g.issued) :
    Registration.KeepsToItself { g with
        outstanding := none
        completions := g.completions ++ [none]
        written := g.written ++ [(uid, data)] } ↔ g.KeepsToItself := by
  constructor
  · rintro ⟨hissued, hwritten⟩
    exact ⟨hissued, fun uid' data' hmem => hwritten uid' data' (List.mem_append_left _ hmem)⟩
  · rintro ⟨hissued, hwritten⟩
    refine ⟨hissued, fun uid' data' hmem => ?_⟩
    rcases List.mem_append.1 hmem with hmem | hmem
    · exact hwritten uid' data' hmem
    · obtain ⟨rfl, rfl⟩ := Prod.mk.inj (List.mem_singleton.1 hmem)
      exact (hissued uid' data' hset).1

end Writes

/-- What is known of a registration when `b` says whether it has met the condition. -/
def MixingInv (b : Prop) (g : Registration Image Data) : Prop :=
  match g.outstanding with
  | some (.createUser _ _) => b ∧ g.NoWrite
  | some (.putData path image imageData) =>
    b ∧ g.NoWrite ∧ .putData path image imageData ∈ g.issued
  | some (.downloadURL path) =>
    b ∧ g.NoWrite ∧ .downloadURL path ∈ g.issued ∧
      ∃ image imageData, .putData path image imageData ∈ g.issued
  | some (.setData uid data) =>
    (b ↔ g.KeepsToItself) ∧ .setData uid data ∈ g.issued
  | none => b ↔ g.KeepsToItself

theorem mixingInv_started (P : Platform Image Data) (vm : RegisterViewModel Image) :
    MixingInv True (started P vm) := by
  rw [started]
  cases vm.credentials P with
  | none =>
      simp [MixingInv, Registration.KeepsToItself, Registration.complete, Registration.new]
  | some c => simp [MixingInv, Registration.NoWrite, Registration.issue, Registration.new]

/-- Ending without a further call changes nothing about the writes. -/
theorem mixingInv_ended {b : Prop} {g g' : Registration Image Data} (hb : b) (hno : g.NoWrite)
    (hout : g'.outstanding = none) (hissued : g'.issued = g.issued)
    (hwritten : g'.written = g.written) : MixingInv b g' := by
  have hno' : g'.NoWrite := ⟨by rw [hissued]; exact hno.1, by rw [hwritten]; exact hno.2⟩
  simp only [MixingInv, hout]
  exact iff_of_true hb hno'.keepsToItself

theorem mixingInv_answer {P : Platform Image Data} {r : ℕ} (b : Prop) (s : Screen Image Data)
    (g : Registration Image Data) (e : Event Image) (g' : Registration Image Data) (m : Remote)
    (hg : s.registrations[r]? = some g) (hI : MixingInv b g) (hans : Answer P s r g e g' m) :
    MixingInv (b ∧ NotMixed s e) g' := by
  cases hans with
  | createUserFailed hcall =>
      simp only [MixingInv, hcall] at hI
      exact mixingInv_ended ⟨hI.1, trivial⟩ hI.2 rfl rfl rfl
  | noImageData hcall =>
      simp only [MixingInv, hcall] at hI
      exact mixingInv_ended ⟨hI.1, trivial⟩ hI.2 rfl rfl rfl
  | uploading hcall =>
      simp only [MixingInv, hcall] at hI
      obtain ⟨hb, hno⟩ := hI
      exact ⟨⟨hb, trivial⟩, hno.issue (fun uid data => by simp) rfl rfl, by simp⟩
  | putDataFailed hcall =>
      simp only [MixingInv, hcall] at hI
      exact mixingInv_ended ⟨hI.1, trivial⟩ hI.2.1 rfl rfl rfl
  | @uploaded path image imageData hcall =>
      simp only [MixingInv, hcall] at hI
      obtain ⟨hb, hno, hput⟩ := hI
      exact ⟨⟨hb, trivial⟩, hno.issue (fun uid data => by simp) rfl rfl, by simp, image, imageData,
        List.mem_append_left _ hput⟩
  | downloadURLFailed hcall =>
      simp only [MixingInv, hcall] at hI
      exact mixingInv_ended ⟨hI.1, trivial⟩ hI.2.1 rfl rfl rfl
  | noCurrentUser hcall huser =>
      simp only [MixingInv, hcall] at hI
      exact mixingInv_ended ⟨hI.1, by simp [NotMixed, huser]⟩ hI.2.1 rfl rfl rfl
  | @writing path url uid hcall huser =>
      simp only [MixingInv, hcall] at hI
      obtain ⟨hb, hno, hurl, image, imageData, hput⟩ := hI
      simp only [MixingInv]
      refine ⟨?_, by simp⟩
      -- it writes to the account that is signed in now, whichever that is
      have hcond : (b ∧ NotMixed s (.downloadURLReply r (.ok url))) ↔
          (g.account = some uid ∧ url.isSome) := by
        simp [NotMixed, hg, huser, hb]
      rw [hcond, hno.keepsToItself_iff url rfl]
      constructor
      · rintro ⟨haccount, hsome⟩
        obtain ⟨u, rfl⟩ := Option.isSome_iff_exists.1 hsome
        exact ⟨haccount, rfl, path, image, imageData, u, List.mem_append_left _ hput,
          List.mem_append_left _ hurl, rfl, rfl⟩
      · rintro ⟨haccount, -, -, -, -, u, -, -, hu, -⟩
        have hu : url = some u := hu
        exact ⟨haccount, by simp [hu]⟩
  | setDataFailed hcall =>
      simp only [MixingInv, hcall] at hI
      simp only [MixingInv, NotMixed, and_true]
      exact hI.1
  | @setDataDone document data hcall =>
      simp only [MixingInv, hcall] at hI
      obtain ⟨hiff, hset⟩ := hI
      simp only [MixingInv, NotMixed, and_true]
      rw [hiff, Registration.KeepsToItself.wrote_iff hset]

/-! ### The main result -/

theorem notMixed_of_repliesTo_eq_none (s : Screen Image Data) (e : Event Image)
    (h : e.repliesTo = none) : NotMixed s e := by
  cases e with
  | downloadURLReply r reply => exact absurd h (by simp [Event.repliesTo])
  | _ => trivial

/-- **The registrations of a run do not mix** — whatever is written belongs to the registration that
writes it — exactly when every download URL comes while the signed-in account, if there is one, is
the one that its registration made. -/
theorem registrations_keep_to_themselves_iff (P : Platform Image Data) {s₀ s : Screen Image Data}
    {es : List (Event Image)} (h₀ : s₀.registrations = []) (hrun : run (step P) s₀ es = some s) :
    (∀ g ∈ s.registrations, g.KeepsToItself) ↔ StepsMeet (step P) NotMixed s₀ es := by
  rw [stepsMeet_iff_forall_at notMixed_of_repliesTo_eq_none]
  have hrule (r : ℕ) := tracked_registration (r := r) (mixingInv_started P) mixingInv_answer
    (not_started h₀ r) hrun
  have hkeeps {b : Prop} {g : Registration Image Data} (hI : MixingInv b g) :
      b ↔ g.KeepsToItself := by
    unfold MixingInv at hI
    split at hI
    · exact iff_of_true hI.1 hI.2.keepsToItself
    · exact iff_of_true hI.1 hI.2.1.keepsToItself
    · exact iff_of_true hI.1 hI.2.1.keepsToItself
    · exact hI.1
    · exact hI
  constructor
  · intro h r
    cases hg : s.registrations[r]? with
    | none => exact (hrule r).2 hg
    | some g => exact (hkeeps ((hrule r).1 g hg)).2 (h g (List.mem_of_getElem? hg))
  · intro h g hmem
    obtain ⟨r, hg⟩ := List.mem_iff_getElem?.1 hmem
    exact (hkeeps ((hrule r).1 g hg)).1 (h r)

/-- The events of two registrations with different e-mails, the second of which makes its account
while the photo of the first is being uploaded. -/
def overlappingRun : List (Event (Option ℕ)) :=
  [.preformRegistration, .createUserReply 0 (.ok "u1") "photo1",
    .textDidChange .emailTF (some "bob@mail"), .preformRegistration,
    .createUserReply 1 (.ok "u2") "photo2", .putDataReply 0 none,
    .downloadURLReply 0 (.ok (some "url1")), .setDataReply 0 none]

theorem registrations_keep_to_themselves_iff_overlapping :
    ∃ s, run (step plainPlatform) (filledScreen (some (some 7))) overlappingRun = some s ∧
      ((∀ g ∈ s.registrations, g.KeepsToItself) ↔
        StepsMeet (step plainPlatform) NotMixed (filledScreen (some (some 7))) overlappingRun) :=
  ⟨_, rfl, registrations_keep_to_themselves_iff plainPlatform rfl rfl⟩

/-- **Two registrations mix**: the first, which made the account `u1`, writes the document of
`u2`. -/
theorem registrations_mix :
    ∃ s g data, run (step plainPlatform) (filledScreen (some (some 7))) overlappingRun = some s ∧
      s.registrations[0]? = some g ∧ g.account = some "u1" ∧ ("u2", data) ∈ g.written ∧
      ¬ g.KeepsToItself := by
  refine ⟨_, _, _, rfl, rfl, rfl, List.mem_singleton.2 rfl, fun h => ?_⟩
  have haccount := h.2 "u2" _ (List.mem_singleton.2 rfl)
  exact absurd (Option.some_inj.1 haccount) (by decide)

end Register
