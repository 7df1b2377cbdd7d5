import Muxocket.Channel
import Muxocket.Lib.Run

/-!
# The channel table

The table of the open channels, the queues of early frames and the closed identifiers are
three maps over identifiers, changed under one lock.  `Table` collects what the functions
that work under the lock read and change.

Nothing that is done to a channel touches the three maps, except that a channel that is
finalized is taken from the table.  Opening a channel also delivers the early frames kept for
it, and may so end the channel at once.
-/

namespace Muxocket

/-- What the functions that work under the lock of the table read and change. -/
structure Table where
  now : Int
  channels : Nat → Option Nat
  ids : Nat → Nat
  pending : AList fun _ : Nat => PendingQueue
  pendingBytes : Int
  closedIDs : AList fun _ : Nat => Int

namespace Session

/-- The table of a session. -/
def table (s : Session) : Table where
  now := s.now
  channels := s.channels
  ids := fun h => (s.heap h).id
  pending := s.pending
  pendingBytes := s.pendingBytes
  closedIDs := s.closedIDs

/-! ### What leaves the table alone -/

/-- A change of a channel that keeps its identifier. -/
@[simp]
theorem table_update {f : Channel → Channel} (hf : ∀ c, (f c).id = c.id) (h : Nat) (s : Session) :
  (s.update h f).table = s.table
  := by
  have hids : ∀ k, ((s.update h f).heap k).id = (s.heap k).id := by
    intro k
    by_cases hk : k = h
    · rw [hk, heap_update_self, hf]
    · rw [heap_update_of_ne hk]
  simp only [table, hids]
  rfl

/-- Credit is returned. -/
theorem Paid.table_eq {s s' : Session} (h : s.Paid s') :
  s'.table = s.table
  := by
  rw [h]
  rfl

/-- A control frame is queued. -/
theorem table_of_writeControlFrameNonBlocking {cfg : SessionConfig} {f : WriteFrame}
    {s s' : Session} (h : s.writeControlFrameNonBlocking cfg f = some s') :
  s'.table = s.table
  := by
  unfold writeControlFrameNonBlocking at h
  split at h
  · contradiction
  · split at h <;> (obtain rfl := Option.some.inj h; rfl)

section

variable (cfg : SessionConfig) (h : Nat) (s : Session)

/-- Credit of the session is returned. -/
@[simp]
theorem table_creditSession (n : Nat) :
  (s.creditSession cfg n).table = s.table
  := by
  unfold creditSession
  split
  · exact (paid_sessionOnRead cfg _ s).table_eq
  · rfl

/-- A reset is queued. -/
@[simp]
theorem table_sendReset (id offset : Nat) :
  (s.sendReset cfg id offset).table = s.table
  := by
  unfold sendReset offerControlFrame
  split
  · rfl
  · split <;> rfl

/-- A reset is queued, unless one was lately. -/
@[simp]
theorem table_resetPeer (force : Bool) :
  (s.resetPeer cfg force h).table = s.table
  := by
  unfold resetPeer
  dsimp only
  split
  · rfl
  · split
    · rfl
    · simp

/-- An acknowledgement is queued. -/
@[simp]
theorem table_sendAck (offset : Nat) :
  (s.sendAck cfg h offset).table = s.table
  := by
  unfold sendAck
  dsimp only
  split
  · simp
  · split
    · rename_i hs
      simp [table_of_writeControlFrameNonBlocking hs]
    · simp

/-- An acknowledgement is put off. -/
@[simp]
theorem table_scheduleDelayedAck (offset : Nat) :
  (s.scheduleDelayedAck cfg h offset).table = s.table
  := by
  unfold scheduleDelayedAck
  dsimp only
  split
  · simp
  · split
    · simp
    · split
      · simp
      · simp

/-- Data in order is acknowledged. -/
@[simp]
theorem table_ackInOrder (length : Nat) :
  (s.ackInOrder cfg h length).table = s.table
  := by
  unfold ackInOrder
  dsimp only
  split
  · apply table_sendAck
  · split
    · simp
    · simp

/-- Data is put on the ring. -/
@[simp]
theorem table_feed (p : Bytes) :
  (s.feed cfg h p).table = s.table
  := by
  have hpush : ∀ c : Channel, (c.push p).id = c.id := by
    intro c
    unfold Channel.push
    split <;> rfl
  unfold feed
  split
  · exact table_update hpush h s
  · split
    · apply table_resetPeer
    · rfl

@[simp]
theorem table_dropFed (n : Nat) :
  (s.dropFed cfg h n).table = s.table
  := by
  simp [dropFed]

/-- The next data of a stream is fed. -/
@[simp]
theorem table_feedNext (p : Bytes) :
  (s.feedNext cfg h p).table = s.table
  := by
  simp only [feedNext, table_update, implies_true]
  split <;> simp

/-- The data that waited for it is fed. -/
@[simp]
theorem table_feedWaiting (fuel : Nat) :
  (s.feedWaiting cfg h fuel).table = s.table
  := by
  induction fuel generalizing s with
  | zero => rfl
  | succ fuel ih =>
      unfold feedWaiting
      split
      · rfl
      · simp [ih]

/-- Data out of order is kept. -/
@[simp]
theorem table_keepEarly (offset : Nat) (p : Bytes) :
  (s.keepEarly cfg h offset p).table = s.table
  := by
  refine table_update ?_ h s
  intro c
  split
  · rfl
  · split
    · rfl
    · split <;> rfl

/-- Data is fed, or its credit returned. -/
@[simp]
theorem table_feedOrCredit (p : Bytes) :
  (s.feedOrCredit cfg h p).table = s.table
  := by
  unfold feedOrCredit
  dsimp only
  split
  · apply table_feed
  · simp [(paid_creditDiscarded cfg _ _).table_eq]

/-- The end of a stream is queued. -/
@[simp]
theorem table_sendFinLocked :
  (s.sendFinLocked cfg h).table = s.table
  := by
  have hregister : ∀ f,
      (if cfg.reliability then s.registerUnacked h f else s).table = s.table := by
    intro f
    split
    · simp only [registerUnacked, table_update, implies_true]
      split <;> rfl
    · rfl
  have hwrite : ∀ {f : WriteFrame} {s s' : Session},
      s.writeDataFrameNonBlocking cfg f = some s' → s'.table = s.table := by
    intro f s s' hs
    unfold writeDataFrameNonBlocking at hs
    split at hs
    · contradiction
    · obtain ⟨-, rfl⟩ := Run.guard hs
      rfl
  have hqueued : ∀ s₁ : Session, s₁.table = s.table →
      (s₁.update h fun c => { c with finQueued := true, finSent := true }).table = s.table := by
    intro s₁ hs₁
    simpa using hs₁
  have hlate : ∀ (s₁ : Session) (fs : List WriteFrame),
      (if s₁.closed then s₁ else { s₁ with lateWrites := fs }).table = s₁.table := by
    intro s₁ fs
    split <;> rfl
  unfold sendFinLocked
  dsimp only
  split
  · rename_i hs
    rw [hwrite hs]
    exact hqueued _ (hregister _)
  · rw [hlate]
    exact hqueued _ (hregister _)

/-- A channel is closed for writing. -/
@[simp]
theorem table_closeWrite (busy : Bool) :
  (s.closeWrite cfg busy h).table = s.table
  := by
  unfold closeWrite
  split
  · rfl
  · split
    · simp
    · simp

/-- Nothing is retransmitted any more. -/
@[simp]
theorem table_cleanupReliability :
  (s.cleanupReliability h).table = s.table
  := by
  unfold cleanupReliability
  simp only [table_update, implies_true]
  split <;> rfl

/-- A ring is closed. -/
@[simp]
theorem table_closeRing :
  (s.closeRing h).table = s.table
  := by
  refine table_update ?_ h s
  intro c
  split <;> rfl

end

/-! ### What takes channels from the table -/

/-- The one session becomes the other without its table changing, except that channels are
taken from it. -/
inductive Retires (cfg : SessionConfig) (s : Session) : Session → Prop
  | same {s' : Session} : s'.table = s.table → Retires cfg s s'
  | remove {s₁ s' : Session} (h : Nat) :
      Retires cfg s s₁ → s'.table = (s₁.removeChannelIf cfg h).table → Retires cfg s s'

section

variable {cfg : SessionConfig} (h : Nat) (s : Session)

theorem Retires.trans {s s₁ s' : Session} (h : s.Retires cfg s₁) (h' : s₁.Retires cfg s') :
  s.Retires cfg s'
  := by
  induction h' with
  | same htable =>
      cases h with
      | same htable' => exact .same (htable.trans htable')
      | remove h hfirst htable' => exact .remove h hfirst (htable.trans htable')
  | remove h _ htable ih => exact .remove h ih htable

/-- What the table is like before does not matter but for the table. -/
theorem Retires.of_table {s s₁ s' : Session} (htable : s₁.table = s.table) (h : s₁.Retires cfg s') :
  s.Retires cfg s'
  := Retires.trans (.same htable) h

/-- A channel that is finalized is taken. -/
theorem retires_finalize :
  s.Retires cfg (s.finalize cfg h)
  := by
  unfold finalize
  split
  · exact .same rfl
  · refine .remove h (.same ?_) rfl
    simp

theorem retires_maybeFinalize :
  s.Retires cfg (s.maybeFinalize cfg h)
  := by
  unfold maybeFinalize
  split
  · apply retires_finalize
  · exact .same rfl

theorem retires_remoteClose :
  s.Retires cfg (s.remoteClose cfg h)
  := by
  refine .of_table ?_ (retires_maybeFinalize h _)
  simp

theorem retires_closeFinished :
  s.Retires cfg (s.closeFinished cfg h)
  := by
  unfold closeFinished
  split
  · apply retires_remoteClose
  · exact .same rfl

/-- Data may finish a channel. -/
theorem retires_feedReliablePayload (offset : Nat) (p : Bytes) :
  s.Retires cfg (s.feedReliablePayload cfg h offset p)
  := by
  unfold feedReliablePayload feedInOrder
  dsimp only
  split
  · exact .same (by simp)
  · split
    · exact .same (by simp)
    · split
      · refine .of_table ?_ (retires_closeFinished h _)
        simp only [table_ackInOrder, table_feedWaiting]
        split <;> simp
      · split <;> exact .same (by simp)

/-- The end of a stream may finish it. -/
theorem retires_handleFinReliable (finOffset : Nat) :
  s.Retires cfg (s.handleFinReliable cfg h finOffset)
  := by
  unfold handleFinReliable
  dsimp only
  split
  · exact .same rfl
  · refine .of_table ?_ (retires_closeFinished h _)
    simp

theorem retires_peerReset (busy : Bool) :
  s.Retires cfg (s.peerReset cfg busy h)
  := by
  refine .of_table ?_ (retires_maybeFinalize h _)
  simp

/-- An early frame is delivered. -/
theorem retires_deliver (f : PendingFrame) :
  s.Retires cfg (s.deliver cfg h f)
  := by
  unfold deliver receiveData receiveEnd
  split
  · split
    · apply retires_feedReliablePayload
    · exact .same (by simp)
  · split
    · apply retires_handleFinReliable
    · apply retires_remoteClose
  · apply retires_peerReset
  · exact .same rfl

/-- The early frames of a channel are delivered. -/
theorem retires_deliverPending (frames : List PendingFrame) :
  s.Retires cfg (s.deliverPending cfg h frames)
  := by
  induction frames generalizing s with
  | nil => exact .same rfl
  | cons f frames ih => exact (retires_deliver h s f).trans (ih _)

end

end Session

end Muxocket
