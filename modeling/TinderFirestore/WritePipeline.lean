/-
**The write pipeline.**

The client sends its queued batches to the backend in order, several of them before the first is
answered.  The answers do not say which batch they are for: they have to come in the same order.
The batches that have been sent or are about to be are in the pipeline of the remote store; the
first of them is the next one to be answered.  Batches are found in the queue by the difference of
their ids.

Main definitions:

* `FirestoreClient.RemoteWrites` with `fillWritePipeline`, `onWriteStreamHandshakeComplete` — the
  half of the remote store that sends writes;
* `FirestoreClient.RemoteWrites.Inv` — what holds of it.

Main results:

* `FirestoreClient.MutationQueue.nextMutationBatchAfterBatchId_take` — **in a queue with consecutive
  ids, the next batch is found**;
* `FirestoreClient.RemoteWrites.fillWritePipeline_spec` — **a filled pipeline has the first batches
  of the queue**, and a stream to send them on.
-/

import TinderFirestore.LocalStore
import TinderFirestore.RemoteStream

set_option relaxedAutoImplicit false
set_option autoImplicit false

namespace FirestoreClient

variable {κ : Type*}

/-! ### Finding batches by their ids -/

/-- `kBatchIdUnknown`. -/
def batchIdUnknown : ℤ := -1

namespace MutationQueue

/-- `IndexOfBatchId`: it may be out of range. -/
def indexOfBatchId (q : MutationQueue κ) (batchId : ℤ) : ℤ :=
  match q.queue with
  | [] => 0
  | firstBatch :: _ => batchId - firstBatch.batchId

/-- `NextMutationBatchAfterBatchId`. -/
def nextMutationBatchAfterBatchId (q : MutationQueue κ) (batchId : ℤ) : Option (MutationBatch κ) :=
  let rawIndex := q.indexOfBatchId (batchId + 1)
  let index := if rawIndex < 0 then 0 else rawIndex.toNat
  q.queue[index]?

/-- `GetHighestUnacknowledgedBatchId`. -/
def getHighestUnacknowledgedBatchId (q : MutationQueue κ) : ℤ :=
  if q.queue.isEmpty then batchIdUnknown else (q.nextBatchId : ℤ) - 1

variable {q : MutationQueue κ}

theorem Consecutive.start (h : q.Consecutive) : q.start.Consecutive := by
  unfold MutationQueue.start
  split
  · next hempty =>
      rw [List.isEmpty_iff] at hempty
      refine ⟨?_, ?_⟩
      · simp only [hempty, List.map_nil, List.length_nil, List.range'_zero]
      · simp only [hempty, List.length_nil, Nat.zero_lt_one]
  · exact h

/-- A batch is added at the end, under the next id. -/
theorem Consecutive.append (h : q.Consecutive) {batch : MutationBatch κ}
    (hid : batch.batchId = q.nextBatchId) :
    ({ queue := q.queue ++ [batch], nextBatchId := q.nextBatchId + 1 } :
      MutationQueue κ).Consecutive := by
  have hused := h.used
  refine ⟨?_, ?_⟩
  · simp only [List.map_append, h.ids, List.map_cons, List.map_nil, hid, List.length_append,
      List.length_singleton, List.range'_concat]
    rw [show q.nextBatchId + 1 - (q.queue.length + 1) = q.nextBatchId - q.queue.length by omega]
    congr 2
    omega
  · simp only [List.length_append, List.length_singleton]
    omega

/-- The first batch is removed. -/
theorem Consecutive.tail (h : q.Consecutive) {batch : MutationBatch κ}
    {rest : List (MutationBatch κ)} (hqueue : q.queue = batch :: rest) :
    ({ q with queue := rest } : MutationQueue κ).Consecutive := by
  have hids := h.ids
  have hused := h.used
  rw [hqueue] at hids hused
  simp only [List.map_cons, List.length_cons, List.range'_succ, List.cons.injEq] at hids hused
  refine ⟨?_, ?_⟩
  · simp only
    rw [hids.2]
    congr 1
    omega
  · simp only
    omega

/-- The id of the last batch. -/
def lastBatchId (batches : List (MutationBatch κ)) : ℤ :=
  match batches.getLast? with
  | none => batchIdUnknown
  | some batch => batch.batchId

/-- **In a queue with consecutive ids, the next batch is the one that follows.** -/
theorem nextMutationBatchAfterBatchId_take (h : q.Consecutive) {n : ℕ} (hn : n ≤ q.queue.length) :
    q.nextMutationBatchAfterBatchId (lastBatchId (q.queue.take n)) = q.queue[n]? := by
  have hused := h.used
  cases hqueue : q.queue with
  | nil => simp [nextMutationBatchAfterBatchId, hqueue]
  | cons first rest =>
      have hfirst : first.batchId = q.nextBatchId - q.queue.length := by
        have hhead : q.queue[0]? = some first := by rw [hqueue]; rfl
        have hzero := h.batchId_eq hhead
        omega
      have hindex : q.indexOfBatchId (lastBatchId (q.queue.take n) + 1) =
          if n = 0 then -(first.batchId : ℤ) else n := by
        rw [indexOfBatchId, hqueue, lastBatchId]
        simp only
        cases n with
        | zero =>
            rw [List.take_zero, List.getLast?_nil, batchIdUnknown]
            simp
        | succ n =>
            have hlt : n < q.queue.length := by omega
            have hlast : ((first :: rest).take (n + 1)).getLast? = some q.queue[n] := by
              rw [← hqueue, List.getLast?_take, if_neg (by omega)]
              simp [hlt]
            have hid := h.batchId_eq (List.getElem?_eq_getElem hlt)
            rw [hlast, if_neg (by omega)]
            simp only [hid]
            omega
      unfold nextMutationBatchAfterBatchId
      rw [← hqueue, hindex]
      dsimp only
      congr 1
      by_cases hzero : n = 0
      · rw [if_pos hzero]
        split <;> omega
      · rw [if_neg hzero]
        split <;> omega

end MutationQueue

/-! ### Sending batches -/

/-- `kMaxPendingWrites`. -/
def maxPendingWrites : ℕ := 10

/-- The half of the remote store that sends writes.  `unanswered` are the requests on the stream
that the backend has not answered. -/
structure RemoteWrites (κ : Type*) where
  writePipeline : List (MutationBatch κ)
  writeStream : RemoteStream
  handshakeComplete : Bool
  unanswered : List (List (Mutation κ))

namespace RemoteWrites

def start : RemoteWrites κ where
  writePipeline := []
  writeStream := .init
  handshakeComplete := false
  unanswered := []

/-- Batches can be sent. -/
def IsWritable (w : RemoteWrites κ) : Prop := w.writeStream.IsOpen ∧ w.handshakeComplete = true

instance (w : RemoteWrites κ) : Decidable w.IsWritable :=
  inferInstanceAs (Decidable (w.writeStream.IsOpen ∧ w.handshakeComplete = true))

/-- `WriteStream::WriteMutations`. -/
def writeMutations (w : RemoteWrites κ) (mutations : List (Mutation κ)) :
    Option (RemoteWrites κ) :=
  if w.IsWritable then
    w.writeStream.write.map fun writeStream =>
      { w with writeStream := writeStream, unanswered := w.unanswered ++ [mutations] }
  else none

/-- `CanAddToWritePipeline`. -/
def CanAddToWritePipeline (network : Bool) (w : RemoteWrites κ) : Prop :=
  network = true ∧ w.writePipeline.length < maxPendingWrites

instance (network : Bool) (w : RemoteWrites κ) : Decidable (w.CanAddToWritePipeline network) :=
  inferInstanceAs (Decidable (network = true ∧ w.writePipeline.length < maxPendingWrites))

/-- `AddToWritePipeline`. -/
def addToWritePipeline (network : Bool) (w : RemoteWrites κ) (batch : MutationBatch κ) :
    Option (RemoteWrites κ) :=
  if w.CanAddToWritePipeline network then
    let w := { w with writePipeline := w.writePipeline ++ [batch] }
    if w.IsWritable then w.writeMutations batch.mutations else some w
  else none

/-- The loop of `FillWritePipeline`: each round adds a batch, so there are at most
`kMaxPendingWrites` rounds. -/
def fillLoop (network : Bool) (q : MutationQueue κ) :
    ℕ → ℤ → RemoteWrites κ → Option (RemoteWrites κ)
  | 0, _, w => some w
  | rounds + 1, lastBatchIdRetrieved, w =>
      if w.CanAddToWritePipeline network then
        match q.nextMutationBatchAfterBatchId lastBatchIdRetrieved with
        | none =>
            if w.writePipeline.isEmpty then some { w with writeStream := w.writeStream.markIdle }
            else some w
        | some batch =>
            (w.addToWritePipeline network batch).bind (fillLoop network q rounds batch.batchId)
      else some w

/-- `ShouldStartWriteStream`. -/
def ShouldStartWriteStream (network : Bool) (w : RemoteWrites κ) : Prop :=
  network = true ∧ ¬ w.writeStream.IsStarted ∧ w.writePipeline ≠ []

instance (network : Bool) (w : RemoteWrites κ) : Decidable (w.ShouldStartWriteStream network) :=
  decidable_of_iff (network = true ∧ ¬ w.writeStream.IsStarted ∧ w.writePipeline.isEmpty = false)
    (by rw [ShouldStartWriteStream, Bool.eq_false_iff, Ne, List.isEmpty_iff])

/-- `StartWriteStream`. -/
def startWriteStream (network : Bool) (w : RemoteWrites κ) : Option (RemoteWrites κ) :=
  if w.ShouldStartWriteStream network then
    w.writeStream.start.map fun writeStream => { w with writeStream := writeStream }
  else none

/-- What `FillWritePipeline` and `OnWriteStreamClose` end with. -/
def startIfNeeded (network : Bool) (w : RemoteWrites κ) : Option (RemoteWrites κ) :=
  if w.ShouldStartWriteStream network then w.startWriteStream network else some w

/-- `FillWritePipeline`. -/
def fillWritePipeline (network : Bool) (q : MutationQueue κ) (w : RemoteWrites κ) :
    Option (RemoteWrites κ) :=
  (fillLoop network q maxPendingWrites (MutationQueue.lastBatchId w.writePipeline) w).bind
    (startIfNeeded network)

/-- `WriteStream::WriteHandshake`. -/
def writeHandshake (w : RemoteWrites κ) : Option (RemoteWrites κ) :=
  if w.handshakeComplete then none
  else w.writeStream.write.map fun writeStream => { w with writeStream := writeStream }

/-- The write stream opens, and `OnWriteStreamOpen`. -/
def onWriteStreamOpen (w : RemoteWrites κ) : Option (RemoteWrites κ) :=
  w.writeStream.onStreamStart.bind fun writeStream =>
    writeHandshake { w with writeStream := writeStream }

/-- The handshake is complete, and `OnWriteStreamHandshakeComplete`: the pipeline is sent. -/
def onWriteStreamHandshakeComplete (w : RemoteWrites κ) : Option (RemoteWrites κ) :=
  w.writePipeline.foldlM (fun w write => w.writeMutations write.mutations)
    { w with handshakeComplete := true }

/-- The backend has answered the first batch. -/
def answered (w : RemoteWrites κ) : RemoteWrites κ :=
  { w with
    writePipeline := w.writePipeline.tail
    unanswered := w.unanswered.tail }

/-- The write stream ends: nothing on it is answered any more. -/
def closed (graceful : Bool) (w : RemoteWrites κ) : RemoteWrites κ :=
  { w with
    writeStream := .closed graceful
    unanswered := [] }

/-- `Stop` of the write stream, and `OnWriteStreamClose`: the stream must not be needed. -/
def stopWriteStream (network : Bool) (w : RemoteWrites κ) : Option (RemoteWrites κ) :=
  if w.writeStream.IsStarted then
    if (w.closed true).ShouldStartWriteStream network then none
    else some { w.closed true with handshakeComplete := false }
  else some w

/-- What `DisableNetworkInternal` does about the writes. -/
def disableNetworkInternal (w : RemoteWrites κ) : Option (RemoteWrites κ) :=
  (w.stopWriteStream false).map fun w => { w with writePipeline := [] }

/-! ### What holds of the pipeline -/

/-- What holds of the pipeline before it is filled: it has the first batches of the queue, what is
unanswered on the stream is just these, and the stream is not idle if there is something to send. -/
structure Ready (network : Bool) (queue : List (MutationBatch κ)) (w : RemoteWrites κ) : Prop where
  batches : w.writePipeline = queue.take w.writePipeline.length
  bounded : w.writePipeline.length ≤ maxPendingWrites
  disabled : network = false → w.writePipeline = [] ∧ ¬ w.writeStream.IsStarted
  unanswered : w.unanswered =
    if w.IsWritable then w.writePipeline.map MutationBatch.mutations else []
  idle : w.writeStream.idlenessTimer = true → w.IsWritable ∧ w.writePipeline = []
  waiting : w.writeStream.IsStarted → ¬ w.IsWritable → w.writePipeline ≠ []

/-- The pipeline is full, or has the whole queue, and there is a stream to send it on. -/
structure Filled (network : Bool) (queue : List (MutationBatch κ)) (w : RemoteWrites κ) : Prop
    extends Ready network queue w where
  full : network = true → w.writePipeline = queue.take maxPendingWrites
  started : w.writePipeline ≠ [] → w.writeStream.IsStarted

/-- **What holds of the half of the remote store that sends writes.** -/
structure Inv (network : Bool) (queue : List (MutationBatch κ)) (w : RemoteWrites κ) : Prop
    extends Filled network queue w where
  handshake : w.handshakeComplete = true → w.writeStream.IsOpen

variable {network : Bool} {queue : List (MutationBatch κ)} {w : RemoteWrites κ}

/-- With no network there is nothing to do. -/
theorem inv_disabled (hempty : w.writePipeline = []) (hstopped : ¬ w.writeStream.IsStarted)
    (hhandshake : w.handshakeComplete = false) (hunanswered : w.unanswered = [])
    (htimer : w.writeStream.idlenessTimer = false) : w.Inv false queue := by
  refine ⟨⟨⟨by rw [hempty]; rfl, by rw [hempty]; exact Nat.zero_le _,
    fun _ => ⟨hempty, hstopped⟩, ?_, fun hidle => ?_, fun hstarted => absurd hstarted hstopped⟩,
    fun hon => absurd hon (by simp), fun hne => absurd hempty hne⟩, fun hcomplete => ?_⟩
  · rw [if_neg fun hwritable => hstopped hwritable.1.isStarted, hunanswered]
  · exact absurd (htimer.symm.trans hidle) (by simp)
  · exact absurd (hhandshake.symm.trans hcomplete) (by simp)

theorem inv_start : (start : RemoteWrites κ).Inv false queue :=
  inv_disabled rfl (by simp [start, RemoteStream.init, RemoteStream.IsStarted,
    RemoteStream.IsOpen]) rfl rfl rfl

theorem writeMutations_eq (h : w.IsWritable) (mutations : List (Mutation κ)) :
    w.writeMutations mutations = some { w with
      writeStream := { w.writeStream with idlenessTimer := false }
      unanswered := w.unanswered ++ [mutations] } := by
  rw [writeMutations, if_pos h, RemoteStream.write_eq h.1, Option.map_some]

/-- One more batch of the queue is put into the pipeline, and sent if that is possible. -/
theorem addToWritePipeline_spec (h : w.Ready network queue)
    (hcan : w.CanAddToWritePipeline network) {batch : MutationBatch κ}
    (hbatch : queue[w.writePipeline.length]? = some batch) :
    ∃ w', w.addToWritePipeline network batch = some w' ∧ w'.Ready network queue ∧
      w'.writePipeline = w.writePipeline ++ [batch] ∧
      w'.handshakeComplete = w.handshakeComplete ∧
      w'.writeStream.state = w.writeStream.state := by
  have hbatches : w.writePipeline ++ [batch] =
      queue.take (w.writePipeline ++ [batch]).length := by
    rw [List.length_append, List.length_singleton, List.take_add_one, ← h.batches, hbatch]
    rfl
  have hbounded : (w.writePipeline ++ [batch]).length ≤ maxPendingWrites := by
    rw [List.length_append, List.length_singleton]
    exact hcan.2
  have hne : w.writePipeline ++ [batch] ≠ [] := by simp
  have hdisabled {p : Prop} (hoff : network = false) : p := by
    rw [hcan.1] at hoff
    exact absurd hoff (by simp)
  unfold addToWritePipeline
  rw [if_pos hcan]
  set w₁ : RemoteWrites κ := { w with writePipeline := w.writePipeline ++ [batch] }
  by_cases hwritable : w.IsWritable
  · have hwritable₁ : w₁.IsWritable := hwritable
    refine ⟨_, (if_pos hwritable₁).trans (writeMutations_eq hwritable₁ _), ⟨hbatches, hbounded,
      hdisabled, ?_, fun hidle => absurd hidle (by simp), fun _ _ => hne⟩, rfl, rfl, rfl⟩
    refine Eq.trans ?_ (if_pos hwritable).symm
    have hunanswered := h.unanswered
    rw [if_pos hwritable] at hunanswered
    change w.unanswered ++ [batch.mutations] = (w.writePipeline ++ [batch]).map _
    rw [hunanswered, List.map_append]
    rfl
  · have hwritable₁ : ¬ w₁.IsWritable := hwritable
    refine ⟨w₁, if_neg hwritable₁, ⟨hbatches, hbounded, hdisabled, ?_, fun hidle => ?_,
      fun _ _ => hne⟩, rfl, rfl, rfl⟩
    · rw [if_neg hwritable₁]
      exact h.unanswered.trans (if_neg hwritable)
    · exact absurd (h.idle hidle).1 hwritable

/-- With nothing to send, the stream is marked as idle if it is open. -/
theorem Ready.markIdle (h : w.Ready network queue) (hempty : w.writePipeline = []) :
    Ready network queue { w with writeStream := w.writeStream.markIdle } := by
  unfold RemoteStream.markIdle
  split
  · next hopen =>
      refine ⟨h.batches, h.bounded, h.disabled, h.unanswered, fun _ => ⟨?_, hempty⟩, h.waiting⟩
      by_contra hwritable
      exact h.waiting hopen.isStarted hwritable hempty
  · exact h

/-- **The loop** goes on until the pipeline is full or has the whole queue. -/
theorem fillLoop_spec {q : MutationQueue κ} (hq : q.Consecutive) {rounds : ℕ}
    (h : w.Ready network q.queue)
    (hrounds : maxPendingWrites ≤ w.writePipeline.length + rounds) :
    ∃ w', fillLoop network q rounds (MutationQueue.lastBatchId w.writePipeline) w = some w' ∧
      w'.Ready network q.queue ∧
      (network = true → w'.writePipeline = q.queue.take maxPendingWrites) ∧
      w'.handshakeComplete = w.handshakeComplete ∧
      w'.writeStream.state = w.writeStream.state := by
  induction rounds generalizing w with
  | zero =>
      have hlength : w.writePipeline.length = maxPendingWrites := le_antisymm h.bounded hrounds
      exact ⟨w, rfl, h, fun _ => hlength ▸ h.batches, rfl, rfl⟩
  | succ rounds ih =>
      rw [fillLoop]
      by_cases hcan : w.CanAddToWritePipeline network
      · rw [if_pos hcan]
        have hlength : w.writePipeline.length ≤ q.queue.length := by
          rw [h.batches, List.length_take]
          exact Nat.min_le_right _ _
        have hnext : q.nextMutationBatchAfterBatchId (MutationQueue.lastBatchId w.writePipeline) =
            q.queue[w.writePipeline.length]? := by
          conv_lhs => rw [h.batches]
          exact MutationQueue.nextMutationBatchAfterBatchId_take hq hlength
        rw [hnext]
        cases hbatch : q.queue[w.writePipeline.length]? with
        | none =>
            rw [List.getElem?_eq_none_iff] at hbatch
            have hall : w.writePipeline = q.queue.take maxPendingWrites := by
              rw [List.take_of_length_le (hbatch.trans h.bounded)]
              conv_lhs => rw [h.batches]
              exact List.take_of_length_le hbatch
            by_cases hempty : w.writePipeline = []
            · refine ⟨{ w with writeStream := w.writeStream.markIdle }, ?_,
                h.markIdle hempty, fun _ => hall, rfl, RemoteStream.markIdle_state _⟩
              rw [hempty]
              rfl
            · refine ⟨w, ?_, h, fun _ => hall, rfl, rfl⟩
              simp only [List.isEmpty_iff, hempty, if_false]
        | some batch =>
            obtain ⟨w₁, hadd, hready₁, hpipeline₁, hhandshake₁, hstate₁⟩ :=
              addToWritePipeline_spec h hcan hbatch
            obtain ⟨w', hrun, hready', hfull', hhandshake', hstate'⟩ := ih hready₁ (by
              rw [hpipeline₁, List.length_append, List.length_singleton]
              omega)
            refine ⟨w', ?_, hready', hfull', hhandshake'.trans hhandshake₁,
              hstate'.trans hstate₁⟩
            have hlast : MutationQueue.lastBatchId w₁.writePipeline = batch.batchId := by
              rw [hpipeline₁, MutationQueue.lastBatchId, List.getLast?_concat]
            rw [hlast] at hrun
            simp only [hadd, Option.bind_some, hrun]
      · refine ⟨w, if_neg hcan, h, fun hon => ?_, rfl, rfl⟩
        have hlength : maxPendingWrites ≤ w.writePipeline.length :=
          Nat.le_of_not_lt fun hlt => hcan ⟨hon, hlt⟩
        rw [← le_antisymm h.bounded hlength]
        exact h.batches

/-- **A stream is started if it is needed.** -/
theorem startIfNeeded_spec (h : w.Ready network queue)
    (hfull : network = true → w.writePipeline = queue.take maxPendingWrites) :
    ∃ w', w.startIfNeeded network = some w' ∧ w'.Filled network queue ∧
      w'.writePipeline = w.writePipeline ∧ w'.handshakeComplete = w.handshakeComplete ∧
      (w'.writeStream.IsOpen ↔ w.writeStream.IsOpen) := by
  unfold startIfNeeded
  split
  · next hshould =>
      obtain ⟨hon, hstopped, hne⟩ := hshould
      obtain ⟨writeStream, hstart, hstarted, hopen, htimer⟩ := RemoteStream.start_spec hstopped
      have hwritable : ¬ w.IsWritable := fun hwritable => hstopped hwritable.1.isStarted
      have hwritable' : ¬ IsWritable { w with writeStream := writeStream } :=
        fun hwritable => hopen hwritable.1
      refine ⟨{ w with writeStream := writeStream }, ?_, ⟨⟨h.batches, h.bounded,
        fun hoff => absurd (hon.symm.trans hoff) (by simp), ?_, fun hidle => ?_, fun _ _ => hne⟩,
        hfull, fun _ => hstarted⟩, rfl, rfl, ?_⟩
      · rw [startWriteStream, if_pos ⟨hon, hstopped, hne⟩, hstart, Option.map_some]
      · rw [if_neg hwritable']
        exact h.unanswered.trans (if_neg hwritable)
      · exact absurd (h.idle (htimer.symm.trans hidle)).1 hwritable
      · exact iff_of_false hopen fun hopen' => hstopped hopen'.isStarted
  · next hshould =>
      refine ⟨w, rfl, ⟨h, hfull, fun hne => ?_⟩, rfl, rfl, Iff.rfl⟩
      by_contra hstopped
      refine hshould ⟨?_, hstopped, hne⟩
      rw [← Bool.not_eq_false]
      exact fun hoff => hne (h.disabled hoff).1

/-- **A filled pipeline has the first batches of the queue**, and a stream to send them on. -/
theorem fillWritePipeline_spec {q : MutationQueue κ} (hq : q.Consecutive)
    (h : w.Ready network q.queue) :
    ∃ w', w.fillWritePipeline network q = some w' ∧ w'.Filled network q.queue ∧
      w'.handshakeComplete = w.handshakeComplete ∧
      (w'.writeStream.IsOpen ↔ w.writeStream.IsOpen) := by
  obtain ⟨w₁, hloop, hready₁, hfull₁, hhandshake₁, hstate₁⟩ :=
    fillLoop_spec hq h (Nat.le_add_left maxPendingWrites _)
  obtain ⟨w', hstart, hfilled, -, hhandshake, hopen⟩ := startIfNeeded_spec hready₁ hfull₁
  refine ⟨w', ?_, hfilled, hhandshake.trans hhandshake₁, hopen.trans ?_⟩
  · rw [fillWritePipeline, hloop]
    exact hstart
  · rw [RemoteStream.IsOpen, hstate₁]
    rfl

/-- The pipeline is filled again while the handshake is as it was. -/
theorem fillWritePipeline_inv {q : MutationQueue κ} (hq : q.Consecutive)
    (h : w.Ready network q.queue) (hhandshake : w.handshakeComplete = true → w.writeStream.IsOpen) :
    ∃ w', w.fillWritePipeline network q = some w' ∧ w'.Inv network q.queue := by
  obtain ⟨w', hfill, hfilled, hsame, hopen⟩ := fillWritePipeline_spec hq h
  exact ⟨w', hfill, hfilled, fun hcomplete => hopen.2 (hhandshake (hsame ▸ hcomplete))⟩

/-- A stream that is not open has to complete its handshake when it is. -/
theorem Filled.forgetHandshake (h : w.Filled network queue) (hopen : ¬ w.writeStream.IsOpen) :
    Inv network queue { w with handshakeComplete := false } := by
  have hwritable : ¬ w.IsWritable := fun hwritable => hopen hwritable.1
  have hwritable' : ¬ IsWritable { w with handshakeComplete := false } :=
    fun hwritable => hopen hwritable.1
  refine ⟨⟨⟨h.batches, h.bounded, h.disabled, ?_, fun hidle => ?_, fun hstarted _ => ?_⟩, h.full,
    h.started⟩, fun hcomplete => absurd hcomplete (by simp)⟩
  · rw [if_neg hwritable']
    exact h.unanswered.trans (if_neg hwritable)
  · exact absurd (h.idle hidle).1 hwritable
  · exact h.waiting hstarted hwritable

/-! ### What happens to the pipeline -/

/-- A new batch waits behind the others. -/
theorem Ready.append (h : w.Ready network queue) (batch : MutationBatch κ) :
    w.Ready network (queue ++ [batch]) := by
  refine ⟨?_, h.bounded, h.disabled, h.unanswered, h.idle, h.waiting⟩
  have hlength : w.writePipeline.length ≤ queue.length := by
    rw [h.batches, List.length_take]
    exact Nat.min_le_right _ _
  rw [List.take_append_of_le_length hlength]
  exact h.batches

/-- The network is there again. -/
theorem Ready.enabled (h : w.Ready false queue) (queue' : List (MutationBatch κ)) :
    w.Ready true queue' := by
  obtain ⟨hempty, hstopped⟩ := h.disabled rfl
  exact ⟨by rw [hempty]; rfl, h.bounded, fun hoff => absurd hoff (by simp), h.unanswered, h.idle,
    h.waiting⟩

theorem onWriteStreamOpen_spec (h : w.Inv network queue)
    (hstate : w.writeStream.state = .starting) :
    ∃ w', w.onWriteStreamOpen = some w' ∧ w'.Inv network queue := by
  have hclosed : ¬ w.writeStream.IsOpen := by
    rw [RemoteStream.IsOpen, hstate]
    simp
  have hstarted : w.writeStream.IsStarted := Or.inl hstate
  have hincomplete : w.handshakeComplete = false := by
    rw [← Bool.not_eq_true]
    exact fun hcomplete => hclosed (h.handshake hcomplete)
  have hwritable : ¬ w.IsWritable := fun hwritable => hclosed hwritable.1
  refine ⟨{ w with writeStream := { state := .opened, idlenessTimer := false } }, ?_,
    ⟨⟨h.batches, h.bounded, fun hoff => absurd hstarted (h.disabled hoff).2, ?_,
      fun hidle => absurd hidle (by simp), fun _ _ => h.waiting hstarted hwritable⟩, h.full,
      fun _ => Or.inr (Or.inr rfl)⟩, fun _ => rfl⟩
  · rw [onWriteStreamOpen, RemoteStream.onStreamStart, if_pos hstate, Option.bind_some,
      writeHandshake, hincomplete]
    rfl
  · rw [if_neg fun hwritable' => by
      rw [IsWritable, hincomplete] at hwritable'
      exact absurd hwritable'.2 (by simp)]
    exact h.unanswered.trans (if_neg hwritable)

/-- Several batches are sent, one after the other. -/
theorem foldlM_writeMutations (h : w.IsWritable) (batches : List (MutationBatch κ)) :
    ∃ writeStream, batches.foldlM (fun w write => w.writeMutations write.mutations) w =
        some { w with
          writeStream := writeStream
          unanswered := w.unanswered ++ batches.map MutationBatch.mutations } ∧
      writeStream.state = w.writeStream.state ∧
      (batches ≠ [] → writeStream.idlenessTimer = false) := by
  induction batches generalizing w with
  | nil => exact ⟨w.writeStream, by rw [List.map_nil, List.append_nil]; rfl, rfl, fun hne =>
      absurd rfl hne⟩
  | cons batch batches ih =>
      obtain ⟨writeStream, hrun, hstate, htimer⟩ := ih (w := { w with
        writeStream := { w.writeStream with idlenessTimer := false }
        unanswered := w.unanswered ++ [batch.mutations] }) h
      refine ⟨writeStream, ?_, hstate, fun _ => ?_⟩
      · simp only [List.append_assoc, List.singleton_append] at hrun
        rw [List.foldlM_cons, writeMutations_eq h, List.map_cons]
        exact hrun
      · cases batches with
        | nil =>
            have hsame := congrArg (fun w => w.map RemoteWrites.writeStream) hrun
            exact congrArg RemoteStream.idlenessTimer (Option.some.inj hsame).symm
        | cons => exact htimer (by simp)

theorem onWriteStreamHandshakeComplete_spec (h : w.Inv network queue)
    (hopen : w.writeStream.IsOpen) (hincomplete : w.handshakeComplete = false) :
    ∃ w', w.onWriteStreamHandshakeComplete = some w' ∧ w'.Inv network queue := by
  have hwritable : ¬ w.IsWritable := by
    rw [IsWritable, hincomplete]
    simp
  have hne : w.writePipeline ≠ [] := h.waiting hopen.isStarted hwritable
  have hwritable₁ : IsWritable { w with handshakeComplete := true } := ⟨hopen, rfl⟩
  obtain ⟨writeStream, hrun, hstate, htimer⟩ :=
    foldlM_writeMutations hwritable₁ w.writePipeline
  have hopen' : writeStream.IsOpen := hstate.trans hopen
  refine ⟨_, hrun, ⟨⟨h.batches, h.bounded,
    fun hoff => absurd hopen.isStarted (h.disabled hoff).2, ?_, fun hidle => ?_, fun _ _ => hne⟩,
    h.full, fun _ => hopen'.isStarted⟩, fun _ => hopen'⟩
  · have hnone : w.unanswered = [] := h.unanswered.trans (if_neg hwritable)
    refine Eq.trans ?_ (if_pos (show IsWritable _ from ⟨hopen', rfl⟩)).symm
    rw [hnone, List.nil_append]
  · exact absurd hidle (by rw [htimer hne]; simp)

/-- **The first request that is not answered is for the first batch of the pipeline**, and this is
the first batch of the queue. -/
theorem Inv.first (h : w.Inv network queue) {request : List (Mutation κ)}
    {requests : List (List (Mutation κ))} (hrequest : w.unanswered = request :: requests) :
    ∃ batch rest, queue = batch :: rest ∧ batch.mutations = request ∧
      w.writePipeline = batch :: w.writePipeline.tail ∧ w.IsWritable := by
  have hunanswered := h.unanswered
  rw [hrequest] at hunanswered
  split at hunanswered
  · next hwritable =>
      cases hpipeline : w.writePipeline with
      | nil => rw [hpipeline] at hunanswered; exact absurd hunanswered (by simp)
      | cons batch batches =>
          rw [hpipeline, List.map_cons, List.cons.injEq] at hunanswered
          have hbatches := h.batches
          rw [hpipeline, List.length_cons] at hbatches
          cases hqueue : queue with
          | nil => rw [hqueue] at hbatches; exact absurd hbatches (by simp)
          | cons first rest =>
              rw [hqueue, List.take_succ_cons, List.cons.injEq] at hbatches
              exact ⟨first, rest, rfl, hbatches.1 ▸ hunanswered.1.symm, by
                rw [hbatches.1, List.tail_cons], hwritable⟩
  · exact absurd hunanswered (by simp)

/-- The first batch of the pipeline is done with. -/
theorem Ready.answered (h : w.Ready network queue) {batch : MutationBatch κ}
    {rest : List (MutationBatch κ)} (hqueue : queue = batch :: rest)
    (hpipeline : w.writePipeline = batch :: w.writePipeline.tail) (hwritable : w.IsWritable) :
    w.answered.Ready network rest := by
  have hbatches := h.batches
  rw [hpipeline, hqueue, List.length_cons, List.take_succ_cons, List.cons.injEq] at hbatches
  have hbounded := h.bounded
  rw [hpipeline, List.length_cons] at hbounded
  refine ⟨hbatches.2, (Nat.le_succ _).trans hbounded, fun hoff => ?_, ?_, fun hidle => ?_,
    fun _ hno => absurd hwritable hno⟩
  · exact absurd (h.disabled hoff).1 (by rw [hpipeline]; simp)
  · have hunanswered := h.unanswered
    rw [if_pos hwritable, hpipeline, List.map_cons] at hunanswered
    refine Eq.trans ?_ (if_pos (show w.answered.IsWritable from hwritable)).symm
    change w.unanswered.tail = _
    rw [hunanswered]
    rfl
  · exact absurd (h.idle hidle).2 (by rw [hpipeline]; simp)

/-- The stream has failed, and its requests with it. -/
theorem Inv.failed (h : w.Inv network queue) (hstarted : w.writeStream.IsStarted)
    (graceful : Bool) : (w.closed graceful).Ready network queue := by
  have hstopped : ¬ (w.closed graceful).writeStream.IsStarted :=
    RemoteStream.not_isStarted_closed graceful
  have hwritable : ¬ (w.closed graceful).IsWritable :=
    fun hwritable => hstopped hwritable.1.isStarted
  refine ⟨h.batches, h.bounded, fun hoff => absurd hstarted (h.disabled hoff).2, ?_,
    fun hidle => absurd hidle (by simp [RemoteWrites.closed, RemoteStream.closed]),
    fun hstarted' => absurd hstarted' hstopped⟩
  rw [if_neg hwritable]
  rfl

/-- The first batch of the pipeline has been refused, with the stream. -/
theorem Ready.rejected (h : w.Ready network queue) (hstopped : ¬ w.writeStream.IsStarted)
    {batch : MutationBatch κ} {rest : List (MutationBatch κ)} (hqueue : queue = batch :: rest)
    {batches : List (MutationBatch κ)} (hpipeline : w.writePipeline = batch :: batches) :
    Ready network rest { w with
      writePipeline := batches
      writeStream := { w.writeStream with state := .initial } } := by
  have hbatches := h.batches
  rw [hpipeline, hqueue, List.length_cons, List.take_succ_cons, List.cons.injEq] at hbatches
  have hbounded := h.bounded
  rw [hpipeline, List.length_cons] at hbounded
  have hwritable : ¬ w.IsWritable := fun hwritable => hstopped hwritable.1.isStarted
  refine ⟨hbatches.2, (Nat.le_succ _).trans hbounded, fun hoff => ?_, ?_, fun hidle => ?_,
    fun hstarted => absurd hstarted (by simp [RemoteStream.IsStarted, RemoteStream.IsOpen])⟩
  · exact absurd (h.disabled hoff).1 (by rw [hpipeline]; simp)
  · refine Eq.trans ?_ (if_neg fun hwritable' => ?_).symm
    · exact h.unanswered.trans (if_neg hwritable)
    · exact absurd hwritable'.1 (by simp [RemoteStream.IsOpen])
  · exact absurd (h.idle hidle).1 hwritable

/-- **A stream that is not needed can be stopped.** -/
theorem stopWriteStream_spec (h : w.Inv network queue) (hempty : w.writePipeline = []) :
    ∃ w', w.stopWriteStream network = some w' ∧ w'.Inv network queue := by
  unfold stopWriteStream
  split
  · next hstarted =>
      have hready : (w.closed true).Ready network queue := h.failed hstarted true
      have hfilled : (w.closed true).Filled network queue :=
        ⟨hready, h.full, fun hne => absurd hempty hne⟩
      refine ⟨_, if_neg fun hshould => hshould.2.2 hempty, hfilled.forgetHandshake fun hopen => ?_⟩
      exact RemoteStream.not_isStarted_closed true hopen.isStarted
  · exact ⟨w, rfl, h⟩

/-- **Without the network, the stream is stopped and the pipeline is empty.** -/
theorem disableNetworkInternal_spec (h : w.Inv network queue)
    (queue' : List (MutationBatch κ)) :
    ∃ w', w.disableNetworkInternal = some w' ∧ w'.Inv false queue' := by
  unfold disableNetworkInternal stopWriteStream
  split
  · rw [if_neg fun hshould => Bool.false_ne_true hshould.1]
    exact ⟨_, rfl, inv_disabled rfl (RemoteStream.not_isStarted_closed true) rfl rfl rfl⟩
  · next hstopped =>
      have hwritable : ¬ w.IsWritable := fun hwritable => hstopped hwritable.1.isStarted
      refine ⟨_, rfl, inv_disabled rfl hstopped ?_ (h.unanswered.trans (if_neg hwritable)) ?_⟩
      · rw [← Bool.not_eq_true]
        exact fun hcomplete => hstopped (h.handshake hcomplete).isStarted
      · rw [← Bool.not_eq_true]
        exact fun hidle => hwritable (h.idle hidle).1

end RemoteWrites

/-! ### The front of the queue -/

theorem MutationQueue.start_queue (q : MutationQueue κ) : q.start.queue = q.queue := by
  rw [MutationQueue.start]
  split <;> rfl

/-- The id of the first batch is that of no other. -/
theorem MutationQueue.Consecutive.ne_of_tail {q : MutationQueue κ} (h : q.Consecutive)
    {first : MutationBatch κ} {rest : List (MutationBatch κ)} (hqueue : q.queue = first :: rest)
    {batch : MutationBatch κ} (hbatch : batch ∈ rest) : batch.batchId ≠ first.batchId := by
  obtain ⟨n, hn⟩ := List.mem_iff_getElem?.1 hbatch
  have hfirst : q.queue[0]? = some first := by
    rw [hqueue]
    rfl
  have hnext : q.queue[n + 1]? = some batch := by
    rw [hqueue]
    exact hn
  have hzero := h.batchId_eq hfirst
  have hsucc := h.batchId_eq hnext
  omega

/-- The front of the pipeline is the front of the queue. -/
theorem RemoteWrites.Ready.head {network : Bool} {queue : List (MutationBatch κ)}
    {w : RemoteWrites κ} (h : w.Ready network queue) {batch : MutationBatch κ}
    {batches : List (MutationBatch κ)} (hpipeline : w.writePipeline = batch :: batches) :
    ∃ rest, queue = batch :: rest := by
  have hbatches := h.batches
  rw [hpipeline, List.length_cons] at hbatches
  cases queue with
  | nil => exact absurd hbatches (by simp)
  | cons first rest =>
      rw [List.take_succ_cons, List.cons.injEq] at hbatches
      exact ⟨rest, by rw [hbatches.1]⟩

/-- Without the network the queue does not matter. -/
theorem RemoteWrites.Inv.offline {queue : List (MutationBatch κ)} {w : RemoteWrites κ}
    (h : w.Inv false queue) (queue' : List (MutationBatch κ)) : w.Inv false queue' := by
  obtain ⟨hempty, hstopped⟩ := h.disabled rfl
  exact ⟨⟨⟨by rw [hempty]; rfl, h.bounded, h.disabled, h.unanswered, h.idle, h.waiting⟩,
    fun hon => absurd hon (by simp), h.started⟩, h.handshake⟩

/-- The stream is started again when it has backed off. -/
theorem RemoteWrites.Inv.backoffElapsed {network : Bool} {queue : List (MutationBatch κ)}
    {w : RemoteWrites κ} (h : w.Inv network queue) (hstate : w.writeStream.state = .backoff) :
    ∃ writeStream, w.writeStream.backoffElapsed = some writeStream ∧
      Inv network queue { w with writeStream := writeStream } := by
  have hstarted : w.writeStream.IsStarted := Or.inr (Or.inl hstate)
  have hclosed : ¬ w.writeStream.IsOpen := by
    rw [RemoteStream.IsOpen, hstate]
    simp
  have hwritable : ¬ w.IsWritable := fun hwritable => hclosed hwritable.1
  refine ⟨{ w.writeStream with state := .starting }, ?_, ⟨⟨h.batches, h.bounded,
    fun hoff => absurd hstarted (h.disabled hoff).2, ?_, fun hidle => ?_,
    fun _ _ => h.waiting hstarted hwritable⟩, h.full, fun _ => Or.inl rfl⟩, fun hcomplete => ?_⟩
  · rw [RemoteStream.backoffElapsed, if_pos hstate]
    rfl
  · rw [if_neg fun hwritable' => absurd hwritable'.1 (by simp [RemoteStream.IsOpen])]
    exact h.unanswered.trans (if_neg hwritable)
  · exact absurd (h.idle hidle).1 hwritable
  · exact absurd (h.handshake hcomplete) hclosed

/-- Only the first batch of the queue can be removed. -/
theorem removeMutationBatch_eq {q q' : MutationQueue κ} {batchId : ℕ} {batch : MutationBatch κ}
    (h : q.removeMutationBatch batchId = some (batch, q')) :
    ∃ rest, q.queue = batch :: rest ∧ q' = { q with queue := rest } := by
  rw [MutationQueue.removeMutationBatch] at h
  split at h
  · exact absurd h (by simp)
  · next head rest hqueue =>
      split at h
      · simp only [Option.some.injEq, Prod.mk.injEq] at h
        exact ⟨rest, h.1 ▸ hqueue, h.2.symm⟩
      · exact absurd h (by simp)

end FirestoreClient
