/-
**A stream to the backend.**

The Firestore client talks to the backend over two streams, one for the queries it listens to and
one for its writes.  A stream is started, opens when the credentials have come, and ends when it is
stopped or when it fails; after a failure it waits before it starts again.  A stream on which there
is nothing to do is marked as idle, and stopped after a while unless something is written to it.

Main definitions:

* `FirestoreClient.RemoteStream` with `start`, `write`, `markIdle`, `closed` — a stream and what is
  done with it;
* `FirestoreClient.ErrorCode` — why a stream fails, and whether it is of use to try again.

Main results:

* `FirestoreClient.RemoteStream.start_spec` — **a stream that has not been started can be**.
-/

import Mathlib.Data.List.Basic

set_option relaxedAutoImplicit false
set_option autoImplicit false

namespace FirestoreClient

/-! ### Errors -/

/-- `Error`, but for `Ok`. -/
inductive ErrorCode
  | cancelled
  | unknown
  | invalidArgument
  | deadlineExceeded
  | notFound
  | alreadyExists
  | permissionDenied
  | resourceExhausted
  | failedPrecondition
  | aborted
  | outOfRange
  | unimplemented
  | internal
  | unavailable
  | dataLoss
  | unauthenticated
  deriving DecidableEq

namespace ErrorCode

/-- `Datastore::IsPermanentError`. -/
def isPermanentError : ErrorCode → Bool
  | cancelled | unknown | deadlineExceeded | resourceExhausted | internal | unavailable
  | unauthenticated => false
  | invalidArgument | notFound | alreadyExists | permissionDenied | failedPrecondition | aborted
  | outOfRange | unimplemented | dataLoss => true

/-- `Datastore::IsPermanentWriteError`. -/
def isPermanentWriteError (error : ErrorCode) : Bool :=
  error.isPermanentError && decide (error ≠ aborted)

end ErrorCode

/-! ### Streams -/

/-- `Stream::State`. -/
inductive StreamState
  | initial
  | starting
  | opened
  | error
  | backoff
  deriving DecidableEq

/-- A stream: its state, and whether its idleness timer is running. -/
structure RemoteStream where
  state : StreamState
  idlenessTimer : Bool

namespace RemoteStream

/-- A stream that has not been used. -/
def init : RemoteStream where
  state := .initial
  idlenessTimer := false

def IsOpen (s : RemoteStream) : Prop := s.state = .opened

def IsStarted (s : RemoteStream) : Prop := s.state = .starting ∨ s.state = .backoff ∨ s.IsOpen

instance (s : RemoteStream) : Decidable s.IsOpen := inferInstanceAs (Decidable (s.state = .opened))

instance (s : RemoteStream) : Decidable s.IsStarted :=
  inferInstanceAs (Decidable (s.state = .starting ∨ s.state = .backoff ∨ s.state = .opened))

/-- `Start`: after an error it backs off first. -/
def start (s : RemoteStream) : Option RemoteStream :=
  match s.state with
  | .error => some { s with state := .backoff }
  | .initial => some { s with state := .starting }
  | _ => none

/-- `ResumeStartWithCredentials` and `OnStreamStart`. -/
def onStreamStart (s : RemoteStream) : Option RemoteStream :=
  if s.state = .starting then some { s with state := .opened } else none

/-- What `BackoffAndTryRestarting` has scheduled. -/
def backoffElapsed (s : RemoteStream) : Option RemoteStream :=
  if s.state = .backoff then start { s with state := .initial } else none

/-- `InhibitBackoff`. -/
def inhibitBackoff (s : RemoteStream) : Option RemoteStream :=
  if s.IsStarted then none else some { s with state := .initial }

/-- `MarkIdle`. -/
def markIdle (s : RemoteStream) : RemoteStream :=
  if s.IsOpen then { s with idlenessTimer := true } else s

/-- `Write` ends the idleness. -/
def write (s : RemoteStream) : Option RemoteStream :=
  if s.IsOpen then some { s with idlenessTimer := false } else none

/-- What `Close` makes of the stream, before it tells anybody. -/
def closed (graceful : Bool) : RemoteStream where
  state := if graceful then .initial else .error
  idlenessTimer := false

/-! ### What is done with a stream -/

variable {s s' : RemoteStream}

theorem IsOpen.isStarted (h : s.IsOpen) : s.IsStarted := Or.inr (Or.inr h)

theorem not_isStarted_closed (graceful : Bool) : ¬ (closed graceful).IsStarted := by
  cases graceful <;> simp [closed, IsStarted, IsOpen]

/-- **A stream that has not been started can be**; it is not open then. -/
theorem start_spec (h : ¬ s.IsStarted) :
    ∃ s', s.start = some s' ∧ s'.IsStarted ∧ ¬ s'.IsOpen ∧ s'.idlenessTimer = s.idlenessTimer := by
  obtain ⟨state, timer⟩ := s
  cases state with
  | initial => exact ⟨_, rfl, Or.inl rfl, by simp [IsOpen], rfl⟩
  | error => exact ⟨_, rfl, Or.inr (Or.inl rfl), by simp [IsOpen], rfl⟩
  | starting => exact absurd (Or.inl rfl) h
  | backoff => exact absurd (Or.inr (Or.inl rfl)) h
  | opened => exact absurd (Or.inr (Or.inr rfl)) h

@[simp] theorem markIdle_state (s : RemoteStream) : s.markIdle.state = s.state := by
  rw [markIdle]
  split <;> rfl

theorem write_eq (h : s.IsOpen) : s.write = some { s with idlenessTimer := false } := if_pos h

end RemoteStream

end FirestoreClient
