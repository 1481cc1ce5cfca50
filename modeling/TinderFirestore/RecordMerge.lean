/-
**Records that are written whole.**

A record gives each key a value.  A client that has read it edits some keys of its copy and writes
the whole copy back.  What was meant is less: the edited keys are to take their new values, and the
others are to keep what is stored by then.

Main definitions:

* `RecordMerge.overlay` — a record in which the edited keys have taken their new values;
* `RecordMerge.replay` — a record after a list of writes of which only the edited keys count.

Main results:

* `RecordMerge.overlay_eq_iff` — **writing the whole copy is what was meant** exactly when the copy
  is up to date on the keys that were not edited;
* `RecordMerge.replay_eq_last`, `RecordMerge.replay_eq_start` — a key has the value of the last
  write that edited it, and its first value if there is none.
-/

import Mathlib.Data.List.Basic

set_option relaxedAutoImplicit false
set_option autoImplicit false

namespace RecordMerge

variable {κ ν ω : Type*} [DecidableEq κ]

/-- The record in which the edited keys have taken the values of `data`. -/
def overlay (edited : List κ) (data record : κ → ν) : κ → ν :=
  fun key => if key ∈ edited then data key else record key

/-- **Writing the whole copy is what was meant** exactly when the copy is up to date elsewhere. -/
theorem overlay_eq_iff {edited : List κ} {data record : κ → ν} :
    overlay edited data record = data ↔ ∀ key, key ∉ edited → record key = data key := by
  constructor
  · intro h key hkey
    have hkeyed := congrFun h key
    rwa [overlay, if_neg hkey] at hkeyed
  · intro h
    funext key
    by_cases hkey : key ∈ edited
    · rw [overlay, if_pos hkey]
    · rw [overlay, if_neg hkey, h key hkey]

section Replay

variable (edited : ω → List κ) (data : ω → κ → ν)

/-- The record after a list of writes of which only the edited keys count. -/
def replay (record : κ → ν) (writes : List ω) : κ → ν :=
  writes.foldl (fun r w => overlay (edited w) (data w) r) record

theorem replay_cons (record : κ → ν) (w : ω) (writes : List ω) :
    replay edited data record (w :: writes) =
      replay edited data (overlay (edited w) (data w) record) writes := rfl

theorem replay_append (record : κ → ν) (writes writes' : List ω) :
    replay edited data record (writes ++ writes') =
      replay edited data (replay edited data record writes) writes' :=
  List.foldl_append

variable {edited data}

/-- A key that no write has edited has its first value. -/
theorem replay_eq_start {record : κ → ν} {writes : List ω} {key : κ}
    (h : ∀ w ∈ writes, key ∉ edited w) : replay edited data record writes key = record key := by
  induction writes generalizing record with
  | nil => rfl
  | cons w writes ih =>
      rw [replay_cons, ih fun v hv => h v (List.mem_cons_of_mem w hv), overlay,
        if_neg (h w List.mem_cons_self)]

/-- A key has the value of the last write that edited it. -/
theorem replay_eq_last {record : κ → ν} {before after : List ω} {w : ω} {key : κ}
    (hw : key ∈ edited w) (hafter : ∀ v ∈ after, key ∉ edited v) :
    replay edited data record (before ++ w :: after) key = data w key := by
  rw [replay_append, replay_cons, replay_eq_start hafter, overlay, if_pos hw]

end Replay

end RecordMerge
