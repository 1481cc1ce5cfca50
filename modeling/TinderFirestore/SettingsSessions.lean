/-
**Settings sessions that overlap.**

Save writes the whole document from a copy that may be old, so the last Save to be carried out
decides every field: those its session has edited, and those it has not.  An edit of another
session survives only if it was there when this one read the document.  If no session saves over
what it has not seen, the seven fields behave as if every Save had written its edits alone.

* `Settings.noteSave` — the history of the writes that were carried out;
* `Settings.UpToDate` — a write is carried out when no other session has written since its own read
  the document;
* `Settings.StoreInv`, `Settings.CurrentInv` — what is stored, and what sessions that are up to
  date know of it;
* `Settings.last_save_decides` — **what is stored after any interleaving of sessions.**
-/

import TinderFirestore.RecordMerge
import TinderFirestore.SettingsStore

set_option relaxedAutoImplicit false
set_option autoImplicit false

namespace Settings

open Firestore Profile EventRun RecordMerge

variable {Image : Type*}

/-! ### The writes that were carried out -/

/-- The history of a run: the writes in the order in which they were carried out. -/
def noteSave (s : System Image) (e : SystemEvent Image) (_s' : System Image) (saves : List Write) :
    List Write :=
  match e with
  | .commit i =>
    match s.sessions[i]? with
    | some { pending := w :: _, .. } => saves ++ [w]
    | _ => saves
  | _ => saves

theorem noteSave_commit {s s' : System Image} {i : ℕ} {c : Session Image} {w : Write}
    {rest saves : List Write} (hc : s.sessions[i]? = some c) (hw : c.pending = w :: rest) :
    noteSave s (.commit i) s' saves = saves ++ [w] := by
  obtain ⟨currentUser, screen, read, pending, edited, current⟩ := c
  obtain rfl : pending = w :: rest := hw
  simp only [noteSave, hc]

/-- The document after the writes. -/
def lastData (d₀ : Dictionary) (saves : List Write) : Dictionary :=
  (saves.getLast?.map Write.data).getD d₀

@[simp] theorem lastData_append (d₀ : Dictionary) (saves : List Write) (w : Write) :
    lastData d₀ (saves ++ [w]) = w.data := by
  simp [lastData]

/-- Every session is that of a screen that has just been opened for the account. -/
def System.OpenedFor (uid : String) (s : System Image) : Prop :=
  ∀ c ∈ s.sessions, c = Session.opened (some uid)

/-- A write is carried out when no write of another session has been since its own session read the
document. -/
def UpToDate (s : System Image) : SystemEvent Image → Prop
  | .commit i => s.sessions[i]?.all Session.current
  | _ => True

instance (s : System Image) : DecidablePred (UpToDate s)
  | .commit _ => inferInstanceAs (Decidable (_ = true))
  | .evaluate _ | .loadReply _ | .loadError .. | .screen .. | .saveHandle _ | .refuse _ =>
    isTrue trivial

/-! ### What is stored -/

/-- The last write is what is stored, and every write was made from a copy. -/
structure StoreInv (uid : String) (d₀ : Dictionary) (s : System Image) (saves : List Write) :
    Prop where
  stored : getDocument s.users uid = some (lastData d₀ saves)
  fromCopy : ∀ w ∈ saves, w.data = saveDict uid w.user ∧ CopyOf uid w.read w.data w.edited

theorem StoreInv.step {P : Platform} {uid : String} {d₀ : Dictionary} {s s' : System Image}
    {e : SystemEvent Image} {saves : List Write} (h : StoreInv uid d₀ s saves)
    (hI : ∀ c ∈ s.sessions, SessionInv uid c) (hmove : System.Moves P s e s') :
    StoreInv uid d₀ s' (noteSave s e s' saves) := by
  cases hmove with
  | @committed i c w rest hc hw =>
      rw [noteSave_commit hc hw]
      obtain ⟨huid, hdata, -, hcopy⟩ :=
        (hI c (List.mem_of_getElem? hc)).pending w (hw ▸ List.mem_cons_self)
      constructor
      · rw [lastData_append, System.commit, huid, getDocument_setData]
      · intro v hv
        rcases List.mem_append.1 hv with hv | hv
        · exact h.fromCopy v hv
        · obtain rfl := List.mem_singleton.1 hv
          exact ⟨hdata, hcopy⟩
  | _ => exact ⟨h.stored, h.fromCopy⟩

/-! ### Sessions that are up to date -/

/-- The session, if it is up to date, has read a document that differs from the stored one `d` in
the fields it has edited only; and so it was when it asked for the writes that are outstanding. -/
def KnowsStored (uid : String) (d : Dictionary) (c : Session Image) : Prop :=
  c.current = true → ∀ base, c.read = some (some base) →
    (∀ key, key ∉ c.edited → reencoded uid d key = reencoded uid base key) ∧
    ∀ w ∈ c.pending, ∀ key, key ∉ w.edited → reencoded uid d key = reencoded uid base key

theorem KnowsStored.congr {uid : String} {d : Dictionary} {c c' : Session Image}
    (h : KnowsStored uid d c) (hread : c'.read = c.read) (hcurrent : c'.current = c.current)
    (hedited : c.edited ⊆ c'.edited)
    (hpending : ∀ w ∈ c'.pending, w ∈ c.pending ∨ w.edited = c.edited) :
    KnowsStored uid d c' := by
  intro hcur base hbase
  obtain ⟨hkeys, hwrites⟩ := h (hcurrent ▸ hcur) base (hread ▸ hbase)
  refine ⟨fun key hkey => hkeys key fun hmem => hkey (hedited hmem), fun w hw key hkey => ?_⟩
  rcases hpending w hw with hw | hw
  · exact hwrites w hw key hkey
  · exact hkeys key (hw ▸ hkey)

/-- The stored document is what the edits alone would have made of the original one, and the
sessions that are up to date know it. -/
structure CurrentInv (uid : String) (d₀ : Dictionary) (s : System Image) (saves : List Write) :
    Prop where
  replayed : reencoded uid (lastData d₀ saves) =
    replay Write.edited Write.data (reencoded uid d₀) saves
  knows : ∀ c ∈ s.sessions, KnowsStored uid (lastData d₀ saves) c

/-- A write that is carried out while its session is up to date adds its edits to what is stored,
and no other session is up to date any more. -/
theorem CurrentInv.committed {uid : String} {d₀ : Dictionary} {s : System Image}
    {saves : List Write} {i : ℕ} {c : Session Image} {w : Write} {rest : List Write}
    (h : CurrentInv uid d₀ s saves) (hI : SessionInv uid c) (hcurrent : c.current = true)
    (hc : s.sessions[i]? = some c) (hw : c.pending = w :: rest) :
    CurrentInv uid d₀ (s.commit i c w rest) (saves ++ [w]) := by
  have hmem := List.mem_of_getElem? hc
  obtain ⟨-, hdata, hread, base, hbase, hcopy⟩ := hI.pending w (hw ▸ List.mem_cons_self)
  rw [hread] at hbase
  have hre : reencoded uid w.data = w.data := by
    rw [hdata]
    exact reencoded_saveDict uid w.user
  constructor
  · -- outside its edits the write repeats what is stored
    have hsame := (h.knows c hmem hcurrent base hbase).2 w (hw ▸ List.mem_cons_self)
    have hwhole : overlay w.edited w.data (reencoded uid (lastData d₀ saves)) = w.data :=
      overlay_eq_iff.2 fun key hkey => (hsame key hkey).trans (hcopy key hkey).symm
    rw [lastData_append, hre, replay_append, ← h.replayed]
    exact hwhole.symm
  · intro k hk
    rw [lastData_append]
    rcases System.mem_commit hk with ⟨c', -, rfl⟩ | rfl
    · exact fun hno => absurd hno (by simp)
    · intro _ base' hbase'
      obtain rfl := Option.some_inj.1 (Option.some_inj.1 (hbase.symm.trans hbase'))
      have hmono := hI.mono
      rw [hw] at hmono
      rw [hre]
      refine ⟨fun key hkey => hcopy key fun hmem => hkey ?_, fun v hv key hkey =>
        hcopy key fun hmem => hkey ?_⟩
      · exact hI.le w (hw ▸ List.mem_cons_self) hmem
      · exact List.rel_of_pairwise_cons hmono hv hmem

theorem CurrentInv.step {P : Platform} {uid : String} {d₀ : Dictionary} {s s' : System Image}
    {e : SystemEvent Image} {saves : List Write} (h : CurrentInv uid d₀ s saves)
    (hI : ∀ c ∈ s.sessions, SessionInv uid c) (hstore : StoreInv uid d₀ s saves)
    (hup : UpToDate s e) (hmove : System.Moves P s e s') :
    CurrentInv uid d₀ s' (noteSave s e s' saves) := by
  have hset {i : ℕ} {c c' : Session Image} (hc : s.sessions[i]? = some c)
      (hc' : KnowsStored uid (lastData d₀ saves) c → KnowsStored uid (lastData d₀ saves) c') :
      CurrentInv uid d₀ (s.setSession i c') saves := by
    refine ⟨h.replayed, fun k hk => ?_⟩
    rcases System.mem_setSession hk with hk | rfl
    · exact h.knows k hk
    · exact hc' (h.knows c (List.mem_of_getElem? hc))
  cases hmove with
  | @evaluated i c uid' hc huid hread =>
      have hc' := hI c (List.mem_of_getElem? hc)
      refine hset hc fun _ _ base hbase => ⟨fun key _ => ?_, fun w hw => ?_⟩
      · -- what has been read is what is stored
        obtain rfl := Option.some_inj.1 (hc'.account.symm.trans huid)
        rw [hstore.stored, Option.some_inj, Option.some_inj] at hbase
        rw [hbase]
      · obtain ⟨-, -, hwread, base', hbase', -⟩ := hc'.pending w hw
        exact absurd (hread.symm.trans (hwread.symm.trans hbase')) (by simp)
  | loaded hc hread =>
      exact hset hc fun hk => hk.congr rfl rfl (List.Subset.refl _) fun w hw => Or.inl hw
  | loadFailed hc =>
      exact hset hc fun hk => hk.congr rfl rfl (List.Subset.refl _) fun w hw => Or.inl hw
  | screen hc he =>
      exact hset hc fun hk => hk.congr rfl rfl (List.subset_append_left _ _) fun w hw => Or.inl hw
  | @saved i c hc =>
      have hc' := hI c (List.mem_of_getElem? hc)
      rw [Session.saveHandle_eq hc'.account]
      refine hset hc fun hk => hk.congr rfl rfl (List.Subset.refl _) fun w hw => ?_
      rcases List.mem_append.1 hw with hw | hw
      · exact Or.inl hw
      · rw [List.mem_singleton.1 hw]
        exact Or.inr rfl
  | @refused i c w rest hc hw =>
      refine hset hc fun hk => hk.congr rfl rfl (List.Subset.refl _) fun v hv => Or.inl ?_
      exact hw ▸ List.mem_cons_of_mem w hv
  | @committed i c w rest hc hw =>
      have hcurrent : c.current = true := by simpa [UpToDate, hc] using hup
      rw [noteSave_commit hc hw]
      exact h.committed (hI c (List.mem_of_getElem? hc)) hcurrent hc hw

/-! ### Runs -/

section Runs

variable {P : Platform} {uid : String} {d₀ : Dictionary} {s₀ s : System Image}
  {es : List (SystemEvent Image)} {saves : List Write}

theorem sessionInv_opened (h₀ : s₀.OpenedFor uid) : ∀ c ∈ s₀.sessions, SessionInv uid c :=
  fun c hc => h₀ c hc ▸ SessionInv.opened uid

theorem StoreInv.start (hstored : getDocument s₀.users uid = some d₀) : StoreInv uid d₀ s₀ [] :=
  ⟨hstored, by simp⟩

theorem CurrentInv.start (h₀ : s₀.OpenedFor uid) : CurrentInv uid d₀ s₀ [] := by
  refine ⟨rfl, fun c hc => ?_⟩
  rw [h₀ c hc]
  exact fun _ base hbase => absurd hbase (by simp [Session.opened])

theorem storeInv_run (h₀ : s₀.OpenedFor uid) (hstored : getDocument s₀.users uid = some d₀)
    (hloaded : StepsMeet (System.step P) LoadedFirst s₀ es)
    (hrun : run (withHistory (System.step P) noteSave) (s₀, []) es = some (s, saves)) :
    StoreInv uid d₀ s saves := by
  have h := invariant_run_withHistory_of_meet
    (I := fun s saves => (∀ c ∈ s.sessions, SessionInv uid c) ∧ StoreInv uid d₀ s saves) ?_ hloaded
    ⟨sessionInv_opened h₀, .start hstored⟩ hrun
  · exact h.2
  · rintro s saves e s' hfirst ⟨hI, hstore⟩ hstep
    have hmove := System.step_moves hstep
    exact ⟨sessionInv_step hI hfirst hmove, hstore.step hI hmove⟩

theorem currentInv_run (h₀ : s₀.OpenedFor uid) (hstored : getDocument s₀.users uid = some d₀)
    (hloaded : StepsMeet (System.step P) LoadedFirst s₀ es)
    (hup : StepsMeet (System.step P) UpToDate s₀ es)
    (hrun : run (withHistory (System.step P) noteSave) (s₀, []) es = some (s, saves)) :
    CurrentInv uid d₀ s saves := by
  have h := invariant_run_withHistory_of_meet
    (I := fun s saves => (∀ c ∈ s.sessions, SessionInv uid c) ∧ StoreInv uid d₀ s saves ∧
      CurrentInv uid d₀ s saves) ?_ (stepsMeet_and hloaded hup)
    ⟨sessionInv_opened h₀, .start hstored, .start h₀⟩ hrun
  · exact h.2.2
  · rintro s saves e s' ⟨hfirst, hup⟩ ⟨hI, hstore, hcur⟩ hstep
    have hmove := System.step_moves hstep
    exact ⟨sessionInv_step hI hfirst hmove, hstore.step hI hmove, hcur.step hI hstore hup hmove⟩

/-- What is stored after a write is the document of a profile. -/
theorem StoreInv.lastData_eq (h : StoreInv uid d₀ s saves) (hne : saves ≠ []) :
    ∃ user, lastData d₀ saves = saveDict uid user := by
  obtain ⟨before, w, rfl⟩ := (List.eq_nil_or_concat saves).resolve_left hne
  rw [List.concat_eq_append, lastData_append]
  exact ⟨w.user, (h.fromCopy w (by simp)).1⟩

/-- What is stored after a write is what the edits alone would have made of the original document,
if the sessions were up to date. -/
theorem CurrentInv.lastData_eq (h : CurrentInv uid d₀ s saves) (hstore : StoreInv uid d₀ s saves)
    (hne : saves ≠ []) :
    lastData d₀ saves = replay Write.edited Write.data (reencoded uid d₀) saves := by
  obtain ⟨user, huser⟩ := hstore.lastData_eq hne
  rw [← h.replayed, huser, reencoded_saveDict]

end Runs

/-! ### The main result -/

/-- **What is stored after any interleaving of sessions** of one account, each of which saves when
it has loaded the profile.  The last write decides the whole document, and it repeats what its
session had read wherever it was not edited.  If every write was carried out when no other session
had written since its own read the document, then each field has the value of the last write that
edited it, and a field that no write edited has its original value, if that is one that reading and
saving keeps. -/
theorem last_save_decides (P : Platform) {uid : String} {d₀ : Dictionary} {s₀ s : System Image}
    {es : List (SystemEvent Image)} {saves : List Write} (h₀ : s₀.OpenedFor uid)
    (hstored : getDocument s₀.users uid = some d₀)
    (hloaded : StepsMeet (System.step P) LoadedFirst s₀ es)
    (hrun : run (withHistory (System.step P) noteSave) (s₀, []) es = some (s, saves)) :
    getDocument s.users uid = some (lastData d₀ saves) ∧
    (∀ w ∈ saves, w.data = saveDict uid w.user ∧ CopyOf uid w.read w.data w.edited) ∧
    (saves ≠ [] → ∀ key, key ∉ profileKeys → lastData d₀ saves key = none) ∧
    (StepsMeet (System.step P) UpToDate s₀ es → ∀ key,
      (∀ before w after, saves = before ++ w :: after → key ∈ w.edited →
        (∀ v ∈ after, key ∉ v.edited) → lastData d₀ saves key = w.data key) ∧
      ((∀ w ∈ saves, key ∉ w.edited) → reencoded uid d₀ key = d₀ key →
        lastData d₀ saves key = d₀ key)) := by
  have hstore := storeInv_run h₀ hstored hloaded hrun
  refine ⟨hstore.stored, hstore.fromCopy, fun hne key hkey => ?_, fun hup key => ?_⟩
  · obtain ⟨user, huser⟩ := hstore.lastData_eq hne
    rw [huser]
    exact saveDict_eq_none_iff.2 hkey
  · have hcurrent := currentInv_run h₀ hstored hloaded hup hrun
    constructor
    · intro before w after hsaves hw hafter
      rw [hcurrent.lastData_eq hstore (by simp [hsaves]), hsaves]
      exact replay_eq_last hw hafter
    · intro hunedited hkept
      rcases eq_or_ne saves [] with rfl | hne
      · rfl
      · rw [hcurrent.lastData_eq hstore hne, replay_eq_start hunedited, hkept]

/-- A profile with a field that the app does not know. -/
def storedProfile : Dictionary :=
  Dictionary.ofList
    [("uid", .string "u1"), ("fullName", .string "Ann"), ("image1Url", .string "url"),
      ("age", .int 30), ("profession", .string "Cook"), ("minSeekingAge", .int 20),
      ("maxSeekingAge", .int 40), ("bio", .string "Hello")]

/-- Two screens of one account. -/
def twoScreens : System ℕ where
  users := setData "u1" storedProfile ∅
  sessions := [.opened (some "u1"), .opened (some "u1")]

/-- One session loads the profile, edits the name and saves; then the other does so with the
profession. -/
def oneAfterTheOther : List (SystemEvent ℕ) :=
  [.evaluate 0, .loadReply 0, .screen 0 (.editingChanged .name (some "Eve")), .saveHandle 0,
    .commit 0, .evaluate 1, .loadReply 1,
    .screen 1 (.editingChanged .profession (some "Chef")), .saveHandle 1, .commit 1]

theorem last_save_decides_one_after_the_other :
    ∃ s saves d, run (withHistory (System.step plainPlatform) noteSave) (twoScreens, [])
        oneAfterTheOther = some (s, saves) ∧ getDocument s.users "u1" = some d ∧
      d "fullName" = some (.string "Eve") ∧ d "profession" = some (.string "Chef") ∧
      d "age" = storedProfile "age" := by
  have hrun : run (withHistory (System.step plainPlatform) noteSave) (twoScreens, [])
      oneAfterTheOther = some (_, _) := rfl
  have hopened : twoScreens.OpenedFor "u1" := by
    intro c hc
    simpa [twoScreens] using hc
  have hloaded : StepsMeet (System.step plainPlatform) LoadedFirst twoScreens oneAfterTheOther := by
    decide
  have hup : StepsMeet (System.step plainPlatform) UpToDate twoScreens oneAfterTheOther := by
    decide
  obtain ⟨hstored, -, -, hkeys⟩ := last_save_decides plainPlatform hopened rfl hloaded hrun
  refine ⟨_, _, _, hrun, hstored, ?_, ?_, ?_⟩
  · exact ((hkeys hup "fullName").1 [] _ [_] rfl (by decide) (by decide)).trans rfl
  · exact ((hkeys hup "profession").1 [_] _ [] rfl (by decide) (by decide)).trans rfl
  · exact (hkeys hup "age").2 (by decide) rfl

/-- Both sessions load the profile before one of them saves. -/
def atTheSameTime : List (SystemEvent ℕ) :=
  [.evaluate 0, .evaluate 1, .loadReply 0, .loadReply 1,
    .screen 0 (.editingChanged .name (some "Eve")),
    .screen 1 (.editingChanged .profession (some "Chef")), .saveHandle 0, .saveHandle 1,
    .commit 0, .commit 1]

/-- **An update is lost**: two sessions have edited different fields and all is saved, but the name
is the old one again; and a field that the app does not know is gone. -/
theorem edited_name_is_lost :
    ∃ s saves d w v, run (withHistory (System.step plainPlatform) noteSave) (twoScreens, [])
        atTheSameTime = some (s, saves) ∧ getDocument s.users "u1" = some d ∧
      StepsMeet (System.step plainPlatform) LoadedFirst twoScreens atTheSameTime ∧
      (∀ c ∈ s.sessions, c.pending = []) ∧ saves = [w, v] ∧
      "fullName" ∈ w.edited ∧ "fullName" ∉ v.edited ∧
      w.data "fullName" = some (.string "Eve") ∧ d "fullName" = some (.string "Ann") ∧
      storedProfile "bio" = some (.string "Hello") ∧ d "bio" = none := by
  refine ⟨_, _, _, _, _, rfl, rfl, by decide, fun c hc => ?_, rfl, by decide, by decide, rfl, rfl,
    rfl, rfl⟩
  rcases List.mem_cons.1 hc with rfl | hc
  · rfl
  · rw [List.mem_singleton.1 hc]

end Settings
