/-
**Settings screens over one store.**

Any number of settings screens, on any number of devices, work on the collection `users`.  Each
reads the document of its account once; the backend reads it at one moment and the reply comes
later.  Each tap of Save writes the whole document from the copy that the screen holds at that
moment; the backend carries the writes of one device out in the order in which they were made, each
at some later moment, or refuses them.

Main definitions:

* `Settings.Write`, `Settings.Session`, `Settings.System` — a write, one screen with its
  outstanding writes, and all screens over the store;
* `Settings.Session.saveHandle` — the target of the Save button;
* `Settings.System.step` — **what an event does**.

Main results:

* `Settings.System.step_moves` — the steps of the system, one by one;
* `Settings.sessions_step` — the invariant rule for the sessions;
* `Settings.sessionInv_step` — **what a session knows**: its copy and its outstanding writes differ
  from the document it has read in the fields it has edited only.
-/

import TinderFirestore.SettingsScreen

set_option relaxedAutoImplicit false
set_option autoImplicit false

namespace Settings

open Firestore Profile EventRun

variable {Image : Type*}

/-! ### The system -/

/-- A call of `setData` that is outstanding. -/
structure Write where
  uid : String
  data : Dictionary
  /-- The copy of the profile it was made from, if there was one.  This and the next fields are
  bookkeeping, nothing depends on them. -/
  user : Option User
  /-- The document that the session had read. -/
  read : Option (Option Dictionary)
  /-- The fields that had been edited by then. -/
  edited : List String

/-- One settings screen. -/
structure Session (Image : Type*) where
  /-- The uid of `Auth.auth().currentUser`. -/
  currentUser : Option String
  screen : SettingsViewController Image
  /-- What the backend has read for `getDocument`, once it has; there may be no document. -/
  read : Option (Option Dictionary)
  /-- The outstanding writes, in the order in which they were made. -/
  pending : List Write
  /-- The fields that have been edited since the profile was loaded.  This and the next field
  are bookkeeping, nothing depends on them. -/
  edited : List String
  /-- No write of another session has been carried out since the document was read. -/
  current : Bool

/-- A screen that has just been opened. -/
def Session.opened (currentUser : Option String) : Session Image where
  currentUser := currentUser
  screen := .viewDidLoad currentUser
  read := none
  pending := []
  edited := []
  current := true

/-- The store and the sessions. -/
structure System (Image : Type*) where
  users : Collection
  sessions : List (Session Image)

/-- The target of the Save button. -/
def Session.saveHandle (c : Session Image) : Session Image :=
  match c.currentUser with
  | none => c
  | some uid =>
    { c with pending := c.pending ++
        [{ uid, data := saveDict uid c.screen.user, user := c.screen.user, read := c.read,
           edited := c.edited }] }

/-- What can happen in the session at position `i`. -/
inductive SystemEvent (Image : Type*)
  /-- The backend reads the document of the account. -/
  | evaluate (i : ℕ)
  /-- The completion handler of `getDocument` gets what was read. -/
  | loadReply (i : ℕ)
  /-- The completion handler of `getDocument` gets an error. -/
  | loadError (i : ℕ) (error : String)
  /-- Anything else that happens on the screen. -/
  | screen (i : ℕ) (e : Event Image)
  /-- The Save button is tapped. -/
  | saveHandle (i : ℕ)
  /-- The backend carries out the oldest outstanding write. -/
  | commit (i : ℕ)
  /-- The backend refuses the oldest outstanding write. -/
  | refuse (i : ℕ)

/-- The event is the reply of `getDocument`. -/
def Event.isLoadReply : Event Image → Bool
  | .loadFailed _ => true
  | .loaded _ => true
  | _ => false

namespace System

def setSession (s : System Image) (i : ℕ) (c : Session Image) : System Image :=
  { s with sessions := s.sessions.set i c }

/-- A write of the session at position `i` is carried out. -/
def commit (s : System Image) (i : ℕ) (c : Session Image) (w : Write) (rest : List Write) :
    System Image where
  users := setData w.uid w.data s.users
  sessions := (s.sessions.map fun c => { c with current := false }).set i { c with pending := rest }

/-- **What an event does**, if it can happen. -/
def step (P : Platform) (s : System Image) : SystemEvent Image → Option (System Image)
  | .evaluate i =>
    s.sessions[i]?.bind fun c => c.currentUser.bind fun uid =>
      if c.screen.loading ∧ c.read.isNone then
        some (s.setSession i { c with read := some (getDocument s.users uid), current := true })
      else none
  | .loadReply i =>
    s.sessions[i]?.bind fun c => c.read.bind fun data =>
      (Settings.step P c.screen (.loaded data)).map fun screen => s.setSession i { c with screen }
  | .loadError i error =>
    s.sessions[i]?.bind fun c =>
      (Settings.step P c.screen (.loadFailed error)).map fun screen =>
        s.setSession i { c with screen }
  | .screen i e =>
    s.sessions[i]?.bind fun c =>
      if e.isLoadReply then none
      else
        (Settings.step P c.screen e).map fun screen =>
          s.setSession i { c with screen, edited := c.edited ++ editedKeys c.screen e }
  | .saveHandle i => s.sessions[i]?.map fun c => s.setSession i c.saveHandle
  | .commit i =>
    s.sessions[i]?.bind fun c =>
      match c.pending with
      | [] => none
      -- the writes of one client are carried out in the order in which it made them
      | w :: rest => some (s.commit i c w rest)
  | .refuse i =>
    s.sessions[i]?.bind fun c =>
      match c.pending with
      | [] => none
      | _ :: rest => some (s.setSession i { c with pending := rest })

/-- The steps, one case each. -/
inductive Moves (P : Platform) (s : System Image) : SystemEvent Image → System Image → Prop
  | evaluated {i : ℕ} {c : Session Image} {uid : String} (hc : s.sessions[i]? = some c)
      (huid : c.currentUser = some uid) (hread : c.read = none) :
      Moves P s (.evaluate i)
        (s.setSession i { c with read := some (getDocument s.users uid), current := true })
  | loaded {i : ℕ} {c : Session Image} {data : Option Dictionary} (hc : s.sessions[i]? = some c)
      (hread : c.read = some data) :
      Moves P s (.loadReply i)
        (s.setSession i { c with screen := handle P c.screen (.loaded data) })
  | loadFailed {i : ℕ} {c : Session Image} {error : String} (hc : s.sessions[i]? = some c) :
      Moves P s (.loadError i error)
        (s.setSession i { c with screen := handle P c.screen (.loadFailed error) })
  | screen {i : ℕ} {c : Session Image} {e : Event Image} (hc : s.sessions[i]? = some c)
      (he : e.isLoadReply = false) :
      Moves P s (.screen i e)
        (s.setSession i { c with
          screen := handle P c.screen e, edited := c.edited ++ editedKeys c.screen e })
  | saved {i : ℕ} {c : Session Image} (hc : s.sessions[i]? = some c) :
      Moves P s (.saveHandle i) (s.setSession i c.saveHandle)
  | committed {i : ℕ} {c : Session Image} {w : Write} {rest : List Write}
      (hc : s.sessions[i]? = some c) (hw : c.pending = w :: rest) :
      Moves P s (.commit i) (s.commit i c w rest)
  | refused {i : ℕ} {c : Session Image} {w : Write} {rest : List Write}
      (hc : s.sessions[i]? = some c) (hw : c.pending = w :: rest) :
      Moves P s (.refuse i) (s.setSession i { c with pending := rest })

/-- **The steps of the system, one by one.** -/
theorem step_moves {P : Platform} {s s' : System Image} {e : SystemEvent Image}
    (h : step P s e = some s') : Moves P s e s' := by
  cases e with
  | evaluate i =>
      obtain ⟨c, hc, h⟩ := Option.bind_eq_some_iff.1 h
      obtain ⟨uid, huid, h⟩ := Option.bind_eq_some_iff.1 h
      obtain ⟨⟨-, hread⟩, h⟩ := Option.ite_none_right_eq_some.1 h
      obtain rfl := Option.some_inj.1 h
      exact .evaluated hc huid (Option.isNone_iff_eq_none.1 hread)
  | loadReply i =>
      obtain ⟨c, hc, h⟩ := Option.bind_eq_some_iff.1 h
      obtain ⟨data, hread, h⟩ := Option.bind_eq_some_iff.1 h
      obtain ⟨screen, hscreen, rfl⟩ := Option.map_eq_some_iff.1 h
      obtain ⟨-, rfl⟩ := step_eq_some.1 hscreen
      exact .loaded hc hread
  | loadError i error =>
      obtain ⟨c, hc, h⟩ := Option.bind_eq_some_iff.1 h
      obtain ⟨screen, hscreen, rfl⟩ := Option.map_eq_some_iff.1 h
      obtain ⟨-, rfl⟩ := step_eq_some.1 hscreen
      exact .loadFailed hc
  | screen i e =>
      obtain ⟨c, hc, h⟩ := Option.bind_eq_some_iff.1 h
      obtain ⟨he, h⟩ := Option.ite_none_left_eq_some.1 h
      obtain ⟨screen, hscreen, rfl⟩ := Option.map_eq_some_iff.1 h
      obtain ⟨-, rfl⟩ := step_eq_some.1 hscreen
      exact .screen hc (Bool.not_eq_true _ ▸ he)
  | saveHandle i =>
      obtain ⟨c, hc, rfl⟩ := Option.map_eq_some_iff.1 h
      exact .saved hc
  | commit i =>
      obtain ⟨c, hc, h⟩ := Option.bind_eq_some_iff.1 h
      split at h
      · exact absurd h (by simp)
      · next w rest hw =>
          obtain rfl := Option.some_inj.1 h
          exact .committed hc hw
  | refuse i =>
      obtain ⟨c, hc, h⟩ := Option.bind_eq_some_iff.1 h
      split at h
      · exact absurd h (by simp)
      · next w rest hw =>
          obtain rfl := Option.some_inj.1 h
          exact .refused hc hw

end System

/-! ### The sessions after a step -/

theorem System.mem_setSession {s : System Image} {i : ℕ} {c k : Session Image}
    (h : k ∈ (s.setSession i c).sessions) : k ∈ s.sessions ∨ k = c :=
  List.mem_or_eq_of_mem_set h

theorem System.mem_commit {s : System Image} {i : ℕ} {c k : Session Image} {w : Write}
    {rest : List Write} (h : k ∈ (s.commit i c w rest).sessions) :
    (∃ c' ∈ s.sessions, k = { c' with current := false }) ∨ k = { c with pending := rest } := by
  rcases List.mem_or_eq_of_mem_set h with h | rfl
  · obtain ⟨c', hc', rfl⟩ := List.mem_map.1 h
    exact Or.inl ⟨c', hc', rfl⟩
  · exact Or.inr rfl

/-- A property of sessions that every event keeps, and that does not depend on what other sessions
have written, is kept by the system. -/
theorem sessions_step {I : Session Image → Prop} {P : Platform} {s s' : System Image}
    {e : SystemEvent Image} (hI : ∀ c ∈ s.sessions, I c)
    (hcurrent : ∀ c b, I c → I { c with current := b })
    (hmove : System.Moves P s e s')
    (hread : ∀ c data, I c → c.read = none → I { c with read := some data })
    (hloaded : ∀ c data, I c → c.read = some data →
      I { c with screen := handle P c.screen (.loaded data) })
    (hfailed : ∀ c error, I c → I { c with screen := handle P c.screen (.loadFailed error) })
    (hscreen : ∀ c e, I c → e.isLoadReply = false →
      I { c with screen := handle P c.screen e, edited := c.edited ++ editedKeys c.screen e })
    (hsave : ∀ i c, I c → e = .saveHandle i → s.sessions[i]? = some c → I c.saveHandle)
    (hrest : ∀ c w rest, I c → c.pending = w :: rest → I { c with pending := rest }) :
    ∀ c ∈ s'.sessions, I c := by
  have hset {i : ℕ} {c c' : Session Image} (hc : s.sessions[i]? = some c) (hc' : I c → I c') :
      ∀ k ∈ (s.setSession i c').sessions, I k := by
    intro k hk
    rcases System.mem_setSession hk with hk | rfl
    · exact hI k hk
    · exact hc' (hI c (List.mem_of_getElem? hc))
  cases hmove with
  | evaluated hc huid hno =>
      exact hset hc fun h => hcurrent _ true (hread _ _ h hno)
  | loaded hc hdata => exact hset hc fun h => hloaded _ _ h hdata
  | loadFailed hc => exact hset hc fun h => hfailed _ _ h
  | screen hc he => exact hset hc fun h => hscreen _ _ h he
  | saved hc => exact hset hc fun h => hsave _ _ h rfl hc
  | refused hc hw => exact hset hc fun h => hrest _ _ _ h hw
  | committed hc hw =>
      intro k hk
      rcases System.mem_commit hk with ⟨c', hc', rfl⟩ | rfl
      · exact hcurrent c' false (hI c' hc')
      · exact hrest _ _ _ (hI _ (List.mem_of_getElem? hc)) hw

/-! ### What a session knows -/

/-- What Save makes of a profile that was loaded from a document and not edited. -/
def reencoded (uid : String) (d : Dictionary) : Dictionary := saveDict uid (some (User.init d))

/-- Reading a saved profile and saving it again changes nothing. -/
theorem reencoded_saveDict (uid : String) (user : Option User) :
    reencoded uid (saveDict uid user) = saveDict uid user := by
  cases user <;> rfl

/-- The dictionary differs from the document that has been read in the edited fields only. -/
def CopyOf (uid : String) (read : Option (Option Dictionary)) (data : Dictionary)
    (edited : List String) : Prop :=
  ∃ base, read = some (some base) ∧ ∀ key, key ∉ edited → data key = reencoded uid base key

/-- What is known of a session for the account `uid` that saves nothing before the profile has been
loaded. -/
structure SessionInv (uid : String) (c : Session Image) : Prop where
  account : c.currentUser = some uid
  user : ∀ u, c.screen.user = some u → CopyOf uid c.read (saveDict uid (some u)) c.edited
  pending : ∀ w ∈ c.pending, w.uid = uid ∧ w.data = saveDict uid w.user ∧ w.read = c.read ∧
    CopyOf uid w.read w.data w.edited
  mono : c.pending.Pairwise fun w w' => w.edited ⊆ w'.edited
  le : ∀ w ∈ c.pending, w.edited ⊆ c.edited

theorem SessionInv.opened (uid : String) :
    SessionInv uid (Session.opened (some uid) : Session Image) := by
  refine ⟨rfl, fun u hu => absurd hu ?_, ?_, List.Pairwise.nil, ?_⟩ <;>
    simp [Session.opened, SettingsViewController.viewDidLoad]

/-- A screen event other than the reply of `getDocument` changes what would be saved in the fields
it edits only. -/
theorem saveDict_handle {P : Platform} {vc : SettingsViewController Image} {e : Event Image}
    (he : e.isLoadReply = false) {u' : User} (hu' : (handle P vc e).user = some u')
    (uid : String) : ∃ u, vc.user = some u ∧ ∀ key, key ∉ editedKeys vc e →
      saveDict uid (some u') key = saveDict uid (some u) key := by
  rcases handle_user P vc e with hsame | ⟨d, rfl, -⟩ | ⟨key, f, hedit, hkey, huser⟩
  · exact ⟨u', hsame ▸ hu', fun _ _ => rfl⟩
  · exact absurd he (by simp [Event.isLoadReply])
  · rw [huser, Option.map_eq_some_iff] at hu'
    obtain ⟨u, hu, rfl⟩ := hu'
    refine ⟨u, hu, fun key' hkey' => saveDict_congr (hedit.sameField ?_ u)⟩
    rintro rfl
    exact hkey' (hkey (by simp [hu]))

/-- What Save does when somebody is signed in. -/
theorem Session.saveHandle_eq {c : Session Image} {uid : String} (h : c.currentUser = some uid) :
    c.saveHandle = { c with pending := c.pending ++
      [{ uid, data := saveDict uid c.screen.user, user := c.screen.user, read := c.read,
         edited := c.edited }] } := by
  obtain ⟨currentUser, screen, read, pending, edited, current⟩ := c
  obtain rfl : currentUser = some uid := h
  rfl

theorem SessionInv.saveHandle {uid : String} {c : Session Image} (h : SessionInv uid c)
    (hloaded : c.screen.user.isSome) : SessionInv uid c.saveHandle := by
  obtain ⟨u, hu⟩ := Option.isSome_iff_exists.1 hloaded
  rw [Session.saveHandle_eq h.account]
  refine ⟨h.account, h.user, fun w hw => ?_, ?_, fun w hw => ?_⟩
  · rcases List.mem_append.1 hw with hw | hw
    · exact h.pending w hw
    · obtain rfl := List.mem_singleton.1 hw
      refine ⟨rfl, rfl, rfl, ?_⟩
      rw [hu]
      exact h.user u hu
  · refine List.pairwise_append.2 ⟨h.mono, List.pairwise_singleton _ _, fun w hw w' hw' => ?_⟩
    obtain rfl := List.mem_singleton.1 hw'
    exact h.le w hw
  · rcases List.mem_append.1 hw with hw | hw
    · exact h.le w hw
    · obtain rfl := List.mem_singleton.1 hw
      exact List.Subset.refl _

/-- A profile is saved when it has been loaded. -/
def LoadedFirst (s : System Image) : SystemEvent Image → Prop
  | .saveHandle i => s.sessions[i]?.all fun c => c.screen.user.isSome
  | _ => True

instance (s : System Image) : DecidablePred (LoadedFirst s)
  | .saveHandle _ => inferInstanceAs (Decidable (_ = true))
  | .evaluate _ | .loadReply _ | .loadError .. | .screen .. | .commit _ | .refuse _ =>
    isTrue trivial

theorem sessionInv_step {P : Platform} {uid : String} {s s' : System Image}
    {e : SystemEvent Image} (hI : ∀ c ∈ s.sessions, SessionInv uid c) (hfirst : LoadedFirst s e)
    (hmove : System.Moves P s e s') : ∀ c ∈ s'.sessions, SessionInv uid c := by
  refine sessions_step hI ?_ hmove ?_ ?_ ?_ ?_ ?_ ?_
  · rintro c b ⟨haccount, huser, hpending, hmono, hle⟩
    exact ⟨haccount, huser, hpending, hmono, hle⟩
  · -- nothing has been loaded or saved before the document has been read
    rintro c data ⟨haccount, huser, hpending, hmono, hle⟩ hread
    refine ⟨haccount, fun u hu => ?_, fun w hw => ?_, hmono, hle⟩
    · obtain ⟨base, hbase, -⟩ := huser u hu
      exact absurd (hread.symm.trans hbase) (by simp)
    · obtain ⟨-, -, hwread, base, hbase, -⟩ := hpending w hw
      exact absurd (hread.symm.trans (hwread.symm.trans hbase)) (by simp)
  · rintro c data ⟨haccount, huser, hpending, hmono, hle⟩ hread
    refine ⟨haccount, fun u hu => ?_, hpending, hmono, hle⟩
    cases data with
    | none => exact huser u hu
    | some d =>
        have huser : u = User.init d := by
          simpa [handle, SettingsViewController.fetchCurrentUserReply, eq_comm] using hu
        exact ⟨d, hread, fun key _ => by rw [huser]; rfl⟩
  · rintro c error ⟨haccount, huser, hpending, hmono, hle⟩
    exact ⟨haccount, huser, hpending, hmono, hle⟩
  · rintro c e ⟨haccount, huser, hpending, hmono, hle⟩ he
    refine ⟨haccount, fun u' hu' => ?_, hpending, hmono, fun w hw key hkey =>
      List.mem_append_left _ (hle w hw hkey)⟩
    obtain ⟨u, hu, hsame⟩ := saveDict_handle he hu' uid
    obtain ⟨base, hbase, hcopy⟩ := huser u hu
    refine ⟨base, hbase, fun key hkey => ?_⟩
    rw [List.mem_append, not_or] at hkey
    rw [hsame key hkey.2, hcopy key hkey.1]
  · rintro i c hc rfl hi
    rw [LoadedFirst, hi] at hfirst
    exact hc.saveHandle hfirst
  · rintro c w rest ⟨haccount, huser, hpending, hmono, hle⟩ hw
    rw [hw] at hpending hmono hle
    exact ⟨haccount, huser, fun v hv => hpending v (List.mem_cons_of_mem w hv), hmono.of_cons,
      fun v hv => hle v (List.mem_cons_of_mem w hv)⟩

end Settings
