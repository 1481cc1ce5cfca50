/-
**Which accounts have a profile document.**

The account is the first thing a registration makes and the document the last, and nothing on the
way takes the account back.  So an account may well be without a document when its registration is
over; it has one exactly when a write addressed to it has succeeded, and, as long as registrations
do not mix, exactly when the registration that made it has reported success.

* `Register.Accounts` — the invariant that ties accounts, registrations and documents together;
* `Register.Answer.effect` — what a reply does to the account and the writes of a registration;
* `Register.account_has_document_iff` — **which accounts have a document**, in every state that a
  run can reach.
-/

import TinderFirestore.RegisterCompletion

set_option relaxedAutoImplicit false
set_option autoImplicit false

namespace Register

open Firestore Profile EventRun

variable {Image Data : Type*}

/-! ### What a reply does to the remote state -/

/-- A reply does nothing to the remote state, or makes an account, or writes a document. -/
theorem Answer.effect {P : Platform Image Data} {s : Screen Image Data} {r : ℕ}
    {g g' : Registration Image Data} {e : Event Image} {m : Remote} (h : Answer P s r g e g' m) :
    (∀ email password, g'.outstanding ≠ some (.createUser email password)) ∧
    ((g'.account = g.account ∧ g'.written = g.written ∧ m = s.remote) ∨
      (∃ uid, (∃ email password, g.outstanding = some (.createUser email password)) ∧
        s.remote.Fresh uid ∧ g'.account = some uid ∧ g'.written = g.written ∧
        m = s.remote.signIn uid) ∨
      ∃ document data, g'.account = g.account ∧ g'.written = g.written ++ [(document, data)] ∧
        m = s.remote.write document data) := by
  cases h with
  | noImageData hcall hfresh =>
      exact ⟨by simp, Or.inr (Or.inl ⟨_, ⟨_, _, hcall⟩, hfresh, rfl, rfl, rfl⟩)⟩
  | uploading hcall hfresh =>
      exact ⟨by simp, Or.inr (Or.inl ⟨_, ⟨_, _, hcall⟩, hfresh, rfl, rfl, rfl⟩)⟩
  | setDataDone => exact ⟨by simp, Or.inr (Or.inr ⟨_, _, rfl, rfl, rfl⟩)⟩
  | _ => exact ⟨by simp, Or.inl ⟨rfl, rfl, rfl⟩⟩

/-! ### Accounts and documents -/

/-- How the accounts, the registrations and the documents hang together. -/
structure Accounts (s : Screen Image Data) : Prop where
  /-- The accounts are those that registrations made. -/
  made : ∀ uid, uid ∈ s.remote.accounts ↔
    ∃ (r : ℕ) (g : Registration Image Data), s.registrations[r]? = some g ∧ g.account = some uid
  /-- No two registrations made the same account. -/
  unique : ∀ (r₁ r₂ : ℕ) (g₁ g₂ : Registration Image Data) (uid : String),
    s.registrations[r₁]? = some g₁ → s.registrations[r₂]? = some g₂ →
    g₁.account = some uid → g₂.account = some uid → r₁ = r₂
  /-- A registration that waits for its account has none. -/
  waiting : ∀ (r : ℕ) (g : Registration Image Data) (email password : String),
    s.registrations[r]? = some g → g.outstanding = some (RemoteCall.createUser email password) →
    g.account = none
  /-- What has been written is stored. -/
  stored : ∀ (r : ℕ) (g : Registration Image Data) (document : String) (data : Dictionary),
    s.registrations[r]? = some g → (document, data) ∈ g.written →
    (getDocument s.remote.users document).isSome
  /-- The document of an account has been written by a registration. -/
  documented : ∀ uid ∈ s.remote.accounts, (getDocument s.remote.users uid).isSome →
    ∃ (r : ℕ) (g : Registration Image Data) (data : Dictionary),
      s.registrations[r]? = some g ∧ (uid, data) ∈ g.written

theorem Accounts.start {s : Screen Image Data} (h : s.Started) : Accounts s := by
  refine ⟨fun uid => ?_, ?_, ?_, ?_, ?_⟩ <;> simp [h.registrations, h.accounts]

/-- The entries of a list in which one has been replaced. -/
theorem getElem?_set_eq_some_iff {α : Type*} {l : List α} {r i : ℕ} {a b : α} (hr : r < l.length) :
    (l.set r a)[i]? = some b ↔ (i = r ∧ b = a) ∨ (i ≠ r ∧ l[i]? = some b) := by
  rcases eq_or_ne i r with rfl | hne
  · simp [hr, eq_comm]
  · simp [hne, List.getElem?_set_ne hne.symm]

/-- A registration that has just been started has neither an account nor a write. -/
theorem started_blank (P : Platform Image Data) (vm : RegisterViewModel Image) :
    (started P vm).account = none ∧ (started P vm).written = [] := by
  rw [started]
  cases vm.credentials P <;> exact ⟨rfl, rfl⟩

/-- The invariant only looks at the registrations, the accounts and the documents. -/
theorem Accounts.congr {s s' : Screen Image Data} (h : Accounts s)
    (hregs : s'.registrations = s.registrations)
    (haccounts : s'.remote.accounts = s.remote.accounts)
    (husers : s'.remote.users = s.remote.users) : Accounts s' := by
  refine ⟨?_, ?_, ?_, ?_, ?_⟩
  · rw [hregs, haccounts]
    exact h.made
  · rw [hregs]
    exact h.unique
  · rw [hregs]
    exact h.waiting
  · rw [hregs, husers]
    exact h.stored
  · rw [hregs, haccounts, husers]
    exact h.documented

/-- Starting a registration. -/
theorem Accounts.append {s s' : Screen Image Data} (h : Accounts s) {g₀ : Registration Image Data}
    (hblank : g₀.account = none ∧ g₀.written = [])
    (hregs : s'.registrations = s.registrations ++ [g₀]) (hremote : s'.remote = s.remote) :
    Accounts s' := by
  have hold {r : ℕ} {g : Registration Image Data} (hg : s'.registrations[r]? = some g) :
      s.registrations[r]? = some g ∨ g = g₀ := by
    rw [hregs] at hg
    rcases Nat.lt_or_ge r s.registrations.length with hr | hr
    · exact Or.inl (by rwa [List.getElem?_append_left hr] at hg)
    · rw [List.getElem?_append_right hr] at hg
      exact Or.inr (List.mem_singleton.1 (List.mem_of_getElem? hg))
  have hnew {r : ℕ} {g : Registration Image Data} (hg : s.registrations[r]? = some g) :
      s'.registrations[r]? = some g := by
    rw [hregs, List.getElem?_append_left (List.getElem?_eq_some_iff.1 hg).1, hg]
  have hacc {r : ℕ} {g : Registration Image Data} {uid : String}
      (hg : s'.registrations[r]? = some g) (ha : g.account = some uid) :
      s.registrations[r]? = some g := by
    refine (hold hg).resolve_right fun heq => ?_
    simp [heq, hblank.1] at ha
  refine ⟨fun uid => ?_, ?_, ?_, ?_, ?_⟩
  · rw [hremote, h.made]
    exact ⟨fun ⟨r, g, hg, ha⟩ => ⟨r, g, hnew hg, ha⟩, fun ⟨r, g, hg, ha⟩ => ⟨r, g, hacc hg ha, ha⟩⟩
  · intro r₁ r₂ g₁ g₂ uid hg₁ hg₂ ha₁ ha₂
    exact h.unique r₁ r₂ g₁ g₂ uid (hacc hg₁ ha₁) (hacc hg₂ ha₂) ha₁ ha₂
  · intro r g email password hg hout
    rcases hold hg with hg | rfl
    · exact h.waiting r g email password hg hout
    · exact hblank.1
  · intro r g document data hg hmem
    rw [hremote]
    rcases hold hg with hg | rfl
    · exact h.stored r g document data hg hmem
    · simp [hblank.2] at hmem
  · rw [hremote]
    intro uid huid hdoc
    obtain ⟨r, g, data, hg, hmem⟩ := h.documented uid huid hdoc
    exact ⟨r, g, data, hnew hg, hmem⟩

/-- The registrations of `s'` are those of `s`, with `g'` in the place of `g`. -/
structure Replaced (s s' : Screen Image Data) (r : ℕ) (g g' : Registration Image Data) : Prop where
  before : s.registrations[r]? = some g
  after : s'.registrations = s.registrations.set r g'
  noCall : ∀ email password, g'.outstanding ≠ some (RemoteCall.createUser email password)

section Replaced

variable {s s' : Screen Image Data} {r : ℕ} {g g' : Registration Image Data}

theorem Replaced.entry (hrep : Replaced s s' r g g') {i : ℕ} {k : Registration Image Data} :
    s'.registrations[i]? = some k ↔
      (i = r ∧ k = g') ∨ (i ≠ r ∧ s.registrations[i]? = some k) := by
  rw [hrep.after]
  exact getElem?_set_eq_some_iff (List.getElem?_eq_some_iff.1 hrep.before).1

theorem Replaced.self (hrep : Replaced s s' r g g') : s'.registrations[r]? = some g' :=
  hrep.entry.2 (Or.inl ⟨rfl, rfl⟩)

theorem Replaced.waiting (hrep : Replaced s s' r g g') (h : Accounts s) (i : ℕ)
    (k : Registration Image Data) (email password : String) (hk : s'.registrations[i]? = some k)
    (hout : k.outstanding = some (RemoteCall.createUser email password)) : k.account = none := by
  rcases hrep.entry.1 hk with ⟨rfl, rfl⟩ | ⟨-, hk⟩
  · exact absurd hout (hrep.noCall email password)
  · exact h.waiting i k email password hk hout

/-- Who has an account is not changed by a reply that gives none. -/
theorem Replaced.account (hrep : Replaced s s' r g g') (haccount : g'.account = g.account) {i : ℕ}
    {uid : String} :
    (∃ k : Registration Image Data, s'.registrations[i]? = some k ∧ k.account = some uid) ↔
      ∃ k : Registration Image Data, s.registrations[i]? = some k ∧ k.account = some uid := by
  rcases eq_or_ne i r with rfl | hne
  · simp [hrep.self, hrep.before, haccount]
  · rw [hrep.after, List.getElem?_set_ne hne.symm]

/-- A write that was there before is still there. -/
theorem Replaced.written (hrep : Replaced s s' r g g') (hsub : ∀ w ∈ g.written, w ∈ g'.written)
    {document : String}
    (h : ∃ (i : ℕ) (k : Registration Image Data) (data : Dictionary),
      s.registrations[i]? = some k ∧ (document, data) ∈ k.written) :
    ∃ (i : ℕ) (k : Registration Image Data) (data : Dictionary),
      s'.registrations[i]? = some k ∧ (document, data) ∈ k.written := by
  obtain ⟨i, k, data, hk, hmem⟩ := h
  rcases eq_or_ne i r with rfl | hne
  · rw [hrep.before, Option.some_inj] at hk
    exact ⟨i, g', data, hrep.self, hsub _ (hk ▸ hmem)⟩
  · exact ⟨i, k, data, hrep.entry.2 (Or.inr ⟨hne, hk⟩), hmem⟩

/-- A reply that makes no account: only the new write has to be stored. -/
theorem Accounts.sameAccount (h : Accounts s) (hrep : Replaced s s' r g g')
    (haccount : g'.account = g.account) (haccounts : s'.remote.accounts = s.remote.accounts)
    (hstored : ∀ document data, (document, data) ∈ g'.written →
      (getDocument s'.remote.users document).isSome)
    (hkept : ∀ document, (getDocument s.remote.users document).isSome →
      (getDocument s'.remote.users document).isSome)
    (hdocumented : ∀ document, (getDocument s'.remote.users document).isSome →
      (∃ data, (document, data) ∈ g'.written) ∨ (getDocument s.remote.users document).isSome)
    (hsub : ∀ w ∈ g.written, w ∈ g'.written) : Accounts s' := by
  refine ⟨fun uid => ?_, ?_, hrep.waiting h, ?_, ?_⟩
  · rw [haccounts, h.made]
    exact ⟨fun ⟨i, hi⟩ => ⟨i, (hrep.account haccount).2 hi⟩,
      fun ⟨i, hi⟩ => ⟨i, (hrep.account haccount).1 hi⟩⟩
  · intro i j k₁ k₂ uid hk₁ hk₂ ha₁ ha₂
    obtain ⟨l₁, hl₁, hb₁⟩ := (hrep.account haccount).1 ⟨k₁, hk₁, ha₁⟩
    obtain ⟨l₂, hl₂, hb₂⟩ := (hrep.account haccount).1 ⟨k₂, hk₂, ha₂⟩
    exact h.unique i j l₁ l₂ uid hl₁ hl₂ hb₁ hb₂
  · intro i k document data hk hmem
    rcases hrep.entry.1 hk with ⟨rfl, rfl⟩ | ⟨-, hk⟩
    · exact hstored document data hmem
    · exact hkept document (h.stored i k document data hk hmem)
  · intro uid huid hdoc
    rw [haccounts] at huid
    rcases hdocumented uid hdoc with ⟨data, hmem⟩ | hdoc
    · exact ⟨r, g', data, hrep.self, hmem⟩
    · exact hrep.written hsub (h.documented uid huid hdoc)

/-- A reply that makes an account: before, it belonged to nobody and had no document. -/
theorem Accounts.newAccount (h : Accounts s) (hrep : Replaced s s' r g g') {uid₀ : String}
    (hnone : g.account = none) (hfresh : s.remote.Fresh uid₀) (haccount : g'.account = some uid₀)
    (hwritten : g'.written = g.written) (hremote : s'.remote = s.remote.signIn uid₀) :
    Accounts s' := by
  have hnew {i : ℕ} {k : Registration Image Data} (hk : s.registrations[i]? = some k) :
      k.account ≠ some uid₀ := fun ha => hfresh.1 ((h.made uid₀).2 ⟨i, k, hk, ha⟩)
  refine ⟨fun uid => ?_, ?_, hrep.waiting h, ?_, ?_⟩
  · rw [hremote, Remote.signIn, List.mem_cons, h.made]
    constructor
    · rintro (rfl | ⟨i, k, hk, ha⟩)
      · exact ⟨r, g', hrep.self, haccount⟩
      · rcases eq_or_ne i r with rfl | hne
        · rw [hrep.before, Option.some_inj] at hk
          rw [← hk, hnone] at ha
          exact absurd ha (by simp)
        · exact ⟨i, k, hrep.entry.2 (Or.inr ⟨hne, hk⟩), ha⟩
    · rintro ⟨i, k, hk, ha⟩
      rcases hrep.entry.1 hk with ⟨rfl, rfl⟩ | ⟨-, hk⟩
      · rw [haccount, Option.some_inj] at ha
        exact Or.inl ha.symm
      · exact Or.inr ⟨i, k, hk, ha⟩
  · intro i j k₁ k₂ uid hk₁ hk₂ ha₁ ha₂
    rcases hrep.entry.1 hk₁ with ⟨rfl, rfl⟩ | ⟨-, hk₁⟩ <;>
      rcases hrep.entry.1 hk₂ with ⟨rfl, rfl⟩ | ⟨-, hk₂⟩
    · rfl
    · rw [haccount, Option.some_inj] at ha₁
      exact absurd (ha₁ ▸ ha₂) (hnew hk₂)
    · rw [haccount, Option.some_inj] at ha₂
      exact absurd (ha₂ ▸ ha₁) (hnew hk₁)
    · exact h.unique i j k₁ k₂ uid hk₁ hk₂ ha₁ ha₂
  · intro i k document data hk hmem
    rw [hremote]
    rcases hrep.entry.1 hk with ⟨rfl, rfl⟩ | ⟨-, hk⟩
    · exact h.stored i g document data hrep.before (hwritten ▸ hmem)
    · exact h.stored i k document data hk hmem
  · intro uid huid hdoc
    rw [hremote] at huid hdoc
    rcases List.mem_cons.1 huid with rfl | huid
    · have hno : getDocument s.remote.users uid = none := hfresh.2
      exact absurd hdoc (by simp [Remote.signIn, hno])
    · exact hrep.written (fun w hw => hwritten ▸ hw) (h.documented uid huid hdoc)

end Replaced

/-- Replying to a registration. -/
theorem Accounts.answered {P : Platform Image Data} {s s' : Screen Image Data} {e : Event Image}
    (h : Accounts s) (hans : Answered P s e s') : Accounts s' := by
  obtain ⟨r, g, g', hg, hans, hregs⟩ := hans
  obtain ⟨hnocall, heffect⟩ := hans.effect
  have hrep : Replaced s s' r g g' := ⟨hg, hregs, hnocall⟩
  rcases heffect with ⟨haccount, hwritten, hm⟩ | ⟨uid, ⟨email, password, hcall⟩, hfresh, haccount,
    hwritten, hm⟩ | ⟨document, data, haccount, hwritten, hm⟩
  · refine h.sameAccount hrep haccount (congrArg Remote.accounts hm) (fun document data hmem => ?_)
      (fun document hdoc => ?_) (fun document hdoc => Or.inr ?_) (fun w hw => hwritten ▸ hw)
    · rw [hm]
      exact h.stored r g document data hg (hwritten ▸ hmem)
    · rwa [hm]
    · rwa [hm] at hdoc
  · exact h.newAccount hrep (h.waiting r g email password hg hcall) hfresh haccount hwritten hm
  · refine h.sameAccount hrep haccount (by rw [hm, Remote.write]) (fun d v hmem => ?_)
      (fun d hdoc => ?_) (fun d hdoc => ?_) (fun w hw => by simp [hwritten, hw])
    · rw [hm, Remote.write, isSome_getDocument_setData]
      rw [hwritten, List.mem_append, List.mem_singleton] at hmem
      rcases hmem with hmem | heq
      · exact Or.inr (h.stored r g d v hg hmem)
      · exact Or.inl (Prod.mk.inj heq).1
    · rw [hm, Remote.write, isSome_getDocument_setData]
      exact Or.inr hdoc
    · rw [hm, Remote.write, isSome_getDocument_setData] at hdoc
      rcases hdoc with rfl | hdoc
      · exact Or.inl ⟨data, by simp [hwritten]⟩
      · exact Or.inr hdoc

theorem accounts_run {P : Platform Image Data} {s₀ s : Screen Image Data} {es : List (Event Image)}
    (h₀ : s₀.Started) (hrun : run (step P) s₀ es = some s) : Accounts s := by
  refine invariant_run (fun t e t' ht hstep => ?_) (Accounts.start h₀) hrun
  rcases step_cases hstep with ⟨-, hregs, haccounts, husers⟩ | ⟨-, hremote, hregs⟩ | hans
  · exact ht.congr hregs haccounts husers
  · exact ht.append (started_blank P _) hregs hremote
  · exact ht.answered hans

/-! ### Reports -/

/-- A registration reports success exactly when it has written. -/
def ReportInv (g : Registration Image Data) : Prop :=
  match g.outstanding with
  | some _ => g.completions = [] ∧ g.written = []
  | none => g.completions = [none] ↔ g.written ≠ []

theorem ReportInv.iff {g : Registration Image Data} (h : ReportInv g) :
    g.completions = [none] ↔ g.written ≠ [] := by
  unfold ReportInv at h
  split at h
  · simp [h.1, h.2]
  · exact h

theorem reportInv_started (P : Platform Image Data) (vm : RegisterViewModel Image) :
    ReportInv (started P vm) := by
  rw [started]
  cases vm.credentials P with
  | none => simp [ReportInv, Registration.complete, Registration.new]
  | some c => exact ⟨rfl, rfl⟩

theorem reportInv_answer {P : Platform Image Data} {r : ℕ} (s : Screen Image Data)
    (g : Registration Image Data) (e : Event Image) (g' : Registration Image Data) (m : Remote)
    (hI : ReportInv g) (hans : Answer P s r g e g' m) : ReportInv g' := by
  obtain ⟨call, hcall⟩ := hans.outstanding
  simp only [ReportInv, hcall] at hI
  cases hans <;> simp [ReportInv, hI.1, hI.2]

/-- A registration whose own account was signed in at the right moment writes no other document. -/
theorem OwnInv.account {b : Prop} {g : Registration Image Data} (h : OwnInv b g) (hb : b) :
    ∀ w ∈ g.written, g.account = some w.1 := by
  unfold OwnInv at h
  split at h
  · simp [h.1]
  · simp [h.1]
  · exact fun w hw => (h w hw).1 hb

/-! ### The main result -/

theorem ownUser_of_repliesTo_eq_none (s : Screen Image Data) (e : Event Image)
    (h : e.repliesTo = none) : OwnUser s e := by
  cases e with
  | downloadURLReply r reply => exact absurd h (by simp [Event.repliesTo])
  | _ => trivial

/-- **Which accounts have a document.**  In every state that a run can reach, the accounts are
those that registrations made, and an account has a document exactly when a registration has
written to it.  If every download URL came while no other account was signed in, it has one exactly
when the registration that made the account has reported success. -/
theorem account_has_document_iff (P : Platform Image Data) {s₀ s : Screen Image Data}
    {es : List (Event Image)} (h₀ : s₀.Started) (hrun : run (step P) s₀ es = some s) :
    (∀ uid, uid ∈ s.remote.accounts ↔ ∃ g ∈ s.registrations, g.account = some uid) ∧
    (∀ uid ∈ s.remote.accounts, (getDocument s.remote.users uid).isSome ↔
      ∃ g ∈ s.registrations, ∃ data, (uid, data) ∈ g.written) ∧
    (StepsMeet (step P) OwnUser s₀ es → ∀ g ∈ s.registrations, ∀ uid, g.account = some uid →
      ((getDocument s.remote.users uid).isSome ↔ g.completions = [none])) := by
  have hacc := accounts_run h₀ hrun
  have hdoc : ∀ uid ∈ s.remote.accounts, (getDocument s.remote.users uid).isSome ↔
      ∃ g ∈ s.registrations, ∃ data, (uid, data) ∈ g.written := by
    intro uid huid
    constructor
    · intro h
      obtain ⟨r, g, data, hg, hmem⟩ := hacc.documented uid huid h
      exact ⟨g, List.mem_of_getElem? hg, data, hmem⟩
    · rintro ⟨g, hg, data, hmem⟩
      obtain ⟨r, hr⟩ := List.mem_iff_getElem?.1 hg
      exact hacc.stored r g uid data hr hmem
  refine ⟨fun uid => ?_, hdoc, fun hown g hg uid haccount => ?_⟩
  · rw [hacc.made]
    constructor
    · rintro ⟨r, g, hg, ha⟩
      exact ⟨g, List.mem_of_getElem? hg, ha⟩
    · rintro ⟨g, hg, ha⟩
      obtain ⟨r, hr⟩ := List.mem_iff_getElem?.1 hg
      exact ⟨r, g, hr, ha⟩
  · rw [stepsMeet_iff_forall_at ownUser_of_repliesTo_eq_none] at hown
    have hreport (r : ℕ) := (tracked_registration (r := r) (C := fun _ _ => True)
      (I := fun _ g => ReportInv g) (reportInv_started P)
      (fun _ s g e g' m _ hI hans => reportInv_answer s g e g' m hI hans)
      (not_started h₀.registrations r) hrun).1
    have hinv (r : ℕ) := (tracked_registration (r := r) (ownInv_started P) ownInv_answer
      (not_started h₀.registrations r) hrun).1
    obtain ⟨r, hr⟩ := List.mem_iff_getElem?.1 hg
    rw [hdoc uid ((hacc.made uid).2 ⟨r, g, hr, haccount⟩), (hreport r g hr).iff]
    constructor
    · rintro ⟨k, hk, data, hmem⟩
      -- the writer made the account it wrote to, so it is the registration itself
      obtain ⟨i, hi⟩ := List.mem_iff_getElem?.1 hk
      have hki := (hinv i k hi).account (hown i) _ hmem
      obtain rfl := hacc.unique i r k g uid hi hr hki haccount
      rw [hi, Option.some_inj] at hr
      exact hr ▸ List.ne_nil_of_mem hmem
    · intro hne
      obtain ⟨⟨document, data⟩, hmem⟩ := List.exists_mem_of_ne_nil _ hne
      have hdocument := (hinv r g hr).account (hown r) _ hmem
      rw [haccount, Option.some_inj] at hdocument
      exact ⟨g, hg, data, hdocument ▸ hmem⟩

/-- An upload that fails. -/
def failedUpload : List (Event (Option ℕ)) :=
  [.preformRegistration, .createUserReply 0 (.ok "u1") "photo",
    .putDataReply 0 (some { domain := "storage", code := -13000 })]

theorem account_has_document_iff_failed :
    ∃ s g, run (step plainPlatform) (filledScreen (some (some 7))) failedUpload = some s ∧
      g ∈ s.registrations ∧ g.account = some "u1" ∧
      ((getDocument s.remote.users "u1").isSome ↔ g.completions = [none]) := by
  refine ⟨_, _, rfl, List.mem_singleton.2 rfl, rfl, ?_⟩
  have hrun : run (step plainPlatform) (filledScreen (some (some 7))) failedUpload = some _ := rfl
  have h := account_has_document_iff plainPlatform ⟨rfl, rfl⟩ hrun
  have hown : StepsMeet (step plainPlatform) OwnUser (filledScreen (some (some 7))) failedUpload :=
    (stepsMeet_cons rfl).2 ⟨trivial, (stepsMeet_cons rfl).2
      ⟨trivial, (stepsMeet_cons rfl).2 ⟨trivial, stepsMeet_nil _ _ _⟩⟩⟩
  exact h.2.2 hown _ (List.mem_singleton.2 rfl) _ rfl

/-- **A registration that fails leaves its account behind**: its caller has been told the error,
nothing is outstanding, and the account has no document. -/
theorem failed_registration_leaves_account :
    ∃ s g error, run (step plainPlatform) (filledScreen (some (some 7))) failedUpload = some s ∧
      s.Quiet ∧ s.registrations[0]? = some g ∧ g.completions = [some error] ∧
      "u1" ∈ s.remote.accounts ∧ getDocument s.remote.users "u1" = none := by
  refine ⟨_, _, _, rfl, fun g hg => ?_, rfl, rfl, List.mem_singleton.2 rfl, rfl⟩
  obtain rfl := List.mem_singleton.1 hg
  rfl

end Register
