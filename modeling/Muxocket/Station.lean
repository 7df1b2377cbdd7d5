import Mathlib.Logic.Relation
import Muxocket.World

/-!
# Sessions in the middle of an operation

An operation of a session is a sequence of small moves, each of which does one thing: it
closes a direction of a channel, pushes a buffer, returns credit, queues a frame.  `Station`
is a session in the middle of an operation, with what it has in hand then, and `Move` lists
all the moves there are, with what is known when each of them is made.  An invariant of
sessions is proved by going through the moves.
-/

namespace Muxocket

/-- A session in the middle of an operation: `hand` are the frames received and not yet
dealt with, `owed` is the number of bytes whose session credit is still to be returned,
`feeding` is the channel whose early chunks are being fed, `batch` are the frames taken from
the queues of the writer, and `out` those that are ready to be written. -/
structure Station where
  sess : Session
  hand : List PacketFrame := []
  owed : Nat := 0
  feeding : Option Nat := none
  batch : List WriteFrame := []
  out : List WriteFrame := []

/-- What is known of the run a session takes part in: the identifiers it opens at most once,
those whose channels it does not give up, whether every window update for a channel comes
while the channel is open, whether the application reads, and the identifiers for which data
may come when their channels have been closed recently. -/
structure Rules where
  once : Nat → Prop
  kept : Nat → Prop
  updates : Prop
  reads : Prop := True
  late : Nat → Prop := fun _ => True

/-- An early frame as it was received. -/
def PendingFrame.packet (id : Nat) (f : PendingFrame) : PacketFrame where
  dataLength := f.data.length
  flag := f.flag
  chID := id
  offset := f.offset
  data := f.data

/-- What an unacknowledged frame says, without the times of its transmissions. -/
def UnackedFrame.content (f : UnackedFrame) : Nat × Bytes × Bool :=
  (f.offset, f.data, f.fin)

/-- The two channels differ in nothing but timers and marks that no other channel, and no
frame, depends on. -/
def Channel.Alike (c c' : Channel) : Prop :=
  c' = { c with lastRst := c'.lastRst, closeTimer := c'.closeTimer, giveUp := c'.giveUp
                inOrderPackets := c'.inOrderPackets }

/-- A control frame that refers to no channel and carries no credit. -/
def WriteFrame.Plain (f : WriteFrame) : Prop :=
  (f.flag = .rst ∨ f.flag = .ping ∨ f.flag = .pong)
    ∧ f = { flag := f.flag, chID := f.chID, offset := f.offset }

namespace Flow

/-- What a call that counts `n` bytes as consumed leaves of a window. -/
def onRead (n : Int) (sf : Flow) : Flow :=
  if (sf.consume n).threshold ≤ (sf.consume n).consumed then (sf.consume n).flushUpdate
  else sf.consume n

/-- Whether such a call queues a window update. -/
def queues (n : Int) (sf : Flow) : Bool :=
  decide ((sf.consume n).threshold ≤ (sf.consume n).consumed) && (sf.consume n).needsFrame

/-- Take `n` bytes of credit. -/
def deduct (n : Int) (sf : Flow) : Flow :=
  { sf with sendCredits := int32 (sf.sendCredits - n) }

end Flow

namespace Channel

variable (cfg : SessionConfig)

/-- A channel that keeps a frame for retransmission. -/
def register (u : UnackedFrame) (c : Channel) : Channel :=
  if cfg.reliability then { c with unacked := c.unacked ++ [u], inARQ := true } else c

/-- A channel that has sent the end of its stream. -/
def finish (now : Int) (c : Channel) : Channel :=
  { c.register cfg { offset := c.writeOffset, data := [], fin := true, sentAt := now,
                     retransmits := 0 } with
    finQueued := true, finSent := true }

/-- A channel whose stream is closed and ended. -/
def closeFin (now : Int) (c : Channel) : Channel :=
  finish cfg now { c with writeClosed := true }

/-- A channel whose stream was closed while the write lock was taken, and is ended now. -/
def lateFin (now : Int) (c : Channel) : Channel :=
  finish cfg now { c with finWaiting := false }

/-- A channel that has sent a chunk of its stream, and spent credit for it. -/
def send (now : Int) (p : Bytes) (c : Channel) : Channel :=
  { c.register cfg { offset := c.writeOffset, data := p, fin := false, sentAt := now,
                     retransmits := 0 } with
    writeOffset := c.writeOffset + p.length, sent := c.sent ++ [p], flow := c.flow.deduct p.length }

/-- A channel that is finalized. -/
def retire (c : Channel) : Channel :=
  let c := { c with ackTimer := false, closeTimer := false, unacked := [], inARQ := false
                    reorderMap := none, done := true }
  if c.drainable = false ∨ c.buffers = [] then
    { c with ring := none, lost := c.lost + c.unread }
  else c

/-- A channel that has got the chunk it waits for: a closed one drops it. -/
def feed (p : Bytes) (c : Channel) : Channel :=
  if c.closed then
    { c with dropped := c.dropped + p.length, readOffset := c.readOffset + p.length }
  else
    let c := c.push p
    { c with readOffset := c.readOffset + p.length }

/-- A channel that has got the chunk it waits for from those that came early. -/
def feedEarly (p : Bytes) (c : Channel) : Channel :=
  feed p { c with reorderMap := c.reorderMap.map (·.erase c.readOffset) }

/-- A channel that has forgotten the frames an acknowledgement covers. -/
def acked (ackOffset : Nat) (c : Channel) : Channel :=
  let new := c.unacked.dropWhile fun f => decide (f.end_ ≤ ackOffset)
  { c with unacked := new, inARQ := c.inARQ && !decide (new = [] ∧ c.unacked ≠ []) }

/-- A channel the application has closed. -/
def shut (c : Channel) : Channel :=
  { c with closed := true }

/-- A channel that is given up. -/
def abandon (c : Channel) : Channel :=
  { c with
    writeClosed := true, finQueued := true, closed := true, readDone := true, giveUp := false }

/-- A channel whose unread bytes are discarded. -/
def drain (c : Channel) : Channel :=
  { c with drained := true, ring := none, dropped := c.dropped + c.unread }

/-- A channel that has dropped `n` bytes it did not take. -/
def refuse (n : Nat) (c : Channel) : Channel :=
  { c with dropped := c.dropped + n }

/-- A channel whose peer has ended its stream. -/
def remoteFin (c : Channel) : Channel :=
  { c with drainable := true, readDone := true }

/-- A channel that keeps a chunk that came early. -/
def keepEarly (offset : Nat) (p : Bytes) (c : Channel) : Channel :=
  { c with reorderMap := c.reorderMap.map (·.insert offset p) }

/-- A channel that has learnt where the stream of its peer ends. -/
def gotFin (offset : Nat) (c : Channel) : Channel :=
  { c with hasFin := true, finOffset := offset }

/-- A channel that acknowledges what it has received. -/
def ack (c : Channel) : Channel :=
  { c with ackOffset := c.cumulativeAckLocked, ackPending := true }

/-- A channel whose acknowledgement has been sent. -/
def ackSent (c : Channel) : Channel :=
  { c with ackPending := false }

/-- A channel whose peer discards what it gets. -/
def reset (c : Channel) : Channel :=
  { c with resetByPeer := true }

/-- A channel the retransmission timer does not scan. -/
def idle (c : Channel) : Channel :=
  { c with inARQ := false }

/-- A channel that has got credit. -/
def credit (n : Nat) (c : Channel) : Channel :=
  { c with flow := c.flow.addCredits (int32 n) }

/-- A channel whose window update has been sent. -/
def updSent (c : Channel) : Channel :=
  { c with flow := c.flow.resolved }

/-- A channel from which the application has taken `p`, and whose ring then holds `bufs`. -/
def take (p : Bytes) (bufs : List Bytes) (c : Channel) : Channel :=
  { c with ring := some bufs, delivered := c.delivered ++ p
           flow := c.flow.onRead (int32 p.length) }

end Channel

namespace Session

/-- The channels the timer scans when the channel `h` has a frame to retransmit. -/
def arqJoin (cfg : SessionConfig) (h : Nat) (s : Session) : List Nat :=
  if cfg.reliability = false ∨ (s.heap h).inARQ ∨ h ∈ s.arqSet then s.arqSet else s.arqSet ++ [h]

/-- The channels the timer scans when `h` is not one of them any more. -/
def arqLeave (h : Nat) (s : Session) : List Nat :=
  if (s.heap h).inARQ then s.arqSet.filter (· ≠ h) else s.arqSet

/-- Queue the end of the stream of a channel, with the data or late, and change the channel
by `g`. -/
def queueFin (cfg : SessionConfig) (late : Bool) (h : Nat) (g : Channel → Channel) (s : Session) :
    Session :=
  let f := finFrame (s.heap h).id (s.heap h).writeOffset
  { s.update h g with
    arqSet := s.arqJoin cfg h
    writes := if late then s.writes else s.writes ++ [f]
    lateWrites := if late then s.lateWrites ++ [f] else s.lateWrites }

/-- Spend credit for a chunk of the stream of a channel, register it and queue it. -/
def spend (cfg : SessionConfig) (h : Nat) (p : Bytes) (s : Session) : Session :=
  { s.update h (Channel.send cfg s.now p) with
    arqSet := s.arqJoin cfg h
    flow := { s.flow with toFlow :=
      if s.flow.enabled then s.flow.deduct p.length else s.flow.toFlow }
    writes := s.writes ++ [dataFrame (s.heap h).id (s.heap h).writeOffset p] }

/-- Release what a channel keeps, and take it from the table. -/
def retire (h : Nat) (s : Session) : Session :=
  { s.update h Channel.retire with
    arqSet := s.arqLeave h
    channels :=
      if s.channels (s.heap h).id = some h then Function.update s.channels (s.heap h).id none
      else s.channels }

/-- Queue a control frame if it is needed: with the others where there is room, and late
otherwise. -/
def queueNew (cfg : SessionConfig) (need : Bool) (f : WriteFrame) (s : Session) : Session :=
  { s with
    ctrlQueue := s.ctrlQueue ++
      if need && decide (s.ctrlQueue.length < cfg.ctrlDepth) then [f] else []
    lateCtrl := s.lateCtrl ++
      if need && !decide (s.ctrlQueue.length < cfg.ctrlDepth) then [f] else [] }

/-- Acknowledge what a channel has received, by a new frame or by one that is queued. -/
def acknowledge (cfg : SessionConfig) (h : Nat) (s : Session) : Session :=
  (s.update h Channel.ack).queueNew cfg
      (!(s.heap h).ackPending) { flag := .ack, chID := (s.heap h).id, ackCh := some h }

/-- Return session credit for `n` bytes. -/
def creditCore (cfg : SessionConfig) (n : Int) (s : Session) : Session :=
  { s with flow := { s.flow with toFlow := s.flow.onRead n } }.queueNew cfg (s.flow.queues n)
    { flag := .upd, sessionFlow := true }

/-- The application takes `p` from a channel, whose ring then holds `bufs`. -/
def takeCore (cfg : SessionConfig) (h : Nat) (p : Bytes) (bufs : List Bytes) (s : Session) :
    Session :=
  (s.update h (Channel.take p bufs)).queueNew cfg ((s.heap h).flow.queues (int32 p.length))
      { flag := .upd, chID := (s.heap h).id, streamFlow := some h }

/-- Forget the frames of a channel an acknowledgement covers. -/
def acked (h ackOffset : Nat) (s : Session) : Session :=
  { s.update h (Channel.acked ackOffset) with
    arqSet :=
      if (s.heap h).unacked ≠ []
          ∧ ((s.heap h).unacked.dropWhile fun f => decide (f.end_ ≤ ackOffset)) = [] then
        s.arqLeave h
      else s.arqSet }

/-- Take a channel without unacknowledged frames from those the timer scans. -/
def arqIdle (h : Nat) (s : Session) : Session :=
  { s.update h Channel.idle with arqSet := s.arqSet.filter (· ≠ h) }

end Session

/-- A window update with its length, after the frames that are ready. -/
def mergeUpdate (out : List WriteFrame) (f : WriteFrame) (delta : Int) : List WriteFrame :=
  if delta ≤ 0 then out else mergeInto out { f with length := delta.toNat }

/-- What may happen to a channel alone. -/
inductive Touch (cfg : SessionConfig) (r : Rules) (c : Channel) : Channel → Prop
  | alike {c' : Channel} : c.Alike c' → Touch cfg r c c'
  /-- The application closes the channel, which has no ring. -/
  | shut : c.drained = true → Touch cfg r c c.shut
  /-- The stream is to be ended, but the write lock is taken. -/
  | deferFin : c.writeClosed = false →
      Touch cfg r c { c with writeClosed := true, finWaiting := true }
  /-- The channel is given up, and its ring is kept if there is one. -/
  | abandon : ¬ r.kept c.id → c.drainable = true ∨ c.drained = true → Touch cfg r c c.abandon
  /-- The stream of the peer has been received to its end. -/
  | remoteDone : cfg.reliability = true → c.hasFin = true → c.finOffset ≤ c.readOffset →
      Touch cfg r c c.remoteFin
  /-- The next acknowledgement will carry what has been received. -/
  | noteAck : Touch cfg r c { c with ackOffset := c.cumulativeAckLocked }
  /-- The timer of the delayed acknowledgement is stopped or set. -/
  | ackTimer (b : Bool) : (b = true → c.reorderMap.isSome = true) →
      Touch cfg r c { c with ackTimer := b }
  /-- Buffers without bytes are taken from the ring. -/
  | trim {bufs : List Bytes} : r.reads → c.ring.isSome = true →
      c.buffers.flatten = bufs.flatten → Touch cfg r c { c with ring := some bufs }
  /-- The application finds the end of the stream. -/
  | eof : r.reads → c.readDone = true → c.buffers.flatten = [] →
      Touch cfg r c { c with ring := none }
  /-- Unacknowledged frames are sent again. -/
  | retime {us : List UnackedFrame} :
      us.map UnackedFrame.content = c.unacked.map UnackedFrame.content →
      Touch cfg r c { c with unacked := us }

/-! ### What stays as it is -/

namespace Channel

/-- A chunk on the ring changes nothing else. -/
@[simp]
theorem rest_push (p : Bytes) (c : Channel) :
  (c.push p).id = c.id ∧ (c.push p).flow = c.flow ∧ (c.push p).writeOffset = c.writeOffset
    ∧ (c.push p).sent = c.sent ∧ (c.push p).delivered = c.delivered
    ∧ (c.push p).dropped = c.dropped ∧ (c.push p).readOffset = c.readOffset
    ∧ (c.push p).reorderMap = c.reorderMap
  := by
  unfold push
  split <;> simp

@[simp]
theorem rest_feed (p : Bytes) (c : Channel) :
  (c.feed p).id = c.id ∧ (c.feed p).flow = c.flow ∧ (c.feed p).writeOffset = c.writeOffset
    ∧ (c.feed p).sent = c.sent ∧ (c.feed p).delivered = c.delivered
  := by
  unfold feed
  split <;> simp

/-- A chunk that is fed changes what has been read, and the ring. -/
theorem feed_eq (p : Bytes) (c : Channel) :
  c.feed p = { c with readOffset := c.readOffset + p.length, ring := (c.feed p).ring
                      pushed := (c.feed p).pushed, dropped := (c.feed p).dropped
                      lost := (c.feed p).lost }
  := by
  unfold feed push
  split
  · rfl
  · split <;> rfl

theorem push_eq (p : Bytes) (c : Channel) :
  c.push p = { c with
    ring := (c.push p).ring, pushed := (c.push p).pushed, lost := (c.push p).lost }
  := by
  unfold push
  split <;> rfl

theorem retire_eq (c : Channel) :
  c.retire = { c with ackTimer := false, closeTimer := false, unacked := [], inARQ := false
                      reorderMap := none, done := true, ring := c.retire.ring
                      lost := c.retire.lost }
  := by
  unfold retire
  dsimp only
  split <;> rfl

/-- Frames are kept for retransmission apart from everything else. -/
theorem register_eq (cfg : SessionConfig) (u : UnackedFrame) (c : Channel) :
  c.register cfg u = { c with
    unacked := (c.register cfg u).unacked, inARQ := (c.register cfg u).inARQ }
  := by
  unfold register
  split <;> rfl

@[simp]
theorem rest_register (cfg : SessionConfig) (u : UnackedFrame) (c : Channel) :
  (c.register cfg u).id = c.id ∧ (c.register cfg u).flow = c.flow
    ∧ (c.register cfg u).writeOffset = c.writeOffset ∧ (c.register cfg u).sent = c.sent
    ∧ (c.register cfg u).pushed = c.pushed ∧ (c.register cfg u).delivered = c.delivered
    ∧ (c.register cfg u).dropped = c.dropped
  := by
  rw [register_eq]
  simp

@[simp]
theorem rest_retire (c : Channel) :
  c.retire.id = c.id ∧ c.retire.flow = c.flow ∧ c.retire.writeOffset = c.writeOffset
    ∧ c.retire.sent = c.sent ∧ c.retire.pushed = c.pushed ∧ c.retire.delivered = c.delivered
    ∧ c.retire.dropped = c.dropped
  := by
  unfold retire
  dsimp only
  split <;> simp

end Channel

/-- What happens to a channel alone touches neither its books nor what it reads. -/
structure Touch.Keeps (c c' : Channel) : Prop where
  id : c'.id = c.id
  flow : c'.flow = c.flow
  writeOffset : c'.writeOffset = c.writeOffset
  sent : c'.sent = c.sent
  pushed : c'.pushed = c.pushed
  delivered : c'.delivered = c.delivered
  dropped : c'.dropped = c.dropped
  reading : (c'.reorderMap, c'.readOffset) = (c.reorderMap, c.readOffset)

variable {cfg : SessionConfig} {r : Rules} {c c' : Channel}

theorem Touch.keeps (h : Touch cfg r c c') :
  Touch.Keeps c c'
  := by
  cases h with
  | alike halike =>
      rw [halike]
      constructor <;> rfl
  | _ => constructor <;> rfl

/-- What may happen to a channel in a move of a session with the frames `hand` in hand. -/
inductive Alter (cfg : SessionConfig) (r : Rules) (hand : List PacketFrame) (c : Channel) :
    Channel → Prop
  | touch {c' : Channel} : Touch cfg r c c' → Alter cfg r hand c c'
  | fin (now : Int) : c.writeClosed = false → Alter cfg r hand c (c.closeFin cfg now)
  | lateFin (now : Int) : c.finWaiting = true → Alter cfg r hand c (c.lateFin cfg now)
  | drain : Alter cfg r hand c c.shut.drain
  | giveUp : ¬ r.kept c.id → Alter cfg r hand c c.abandon.drain
  | retire : c.done = false → c.finQueued = true → c.readDone = true →
      c.unacked = [] ∨ ¬ r.kept c.id → Alter cfg r hand c c.retire
  | refuse (f : PacketFrame) : f ∈ hand → f.flag = .data → c.id = f.chID →
      cfg.reliability = false → c.closed = true → Alter cfg r hand c (c.refuse f.data.length)
  | push (f : PacketFrame) : f ∈ hand → f.flag = .data → c.id = f.chID → cfg.reliability = false →
      c.closed = false → Alter cfg r hand c (c.push f.data)
  | remoteFin (f : PacketFrame) : f ∈ hand → f.flag = .fin → c.id = f.chID →
      cfg.reliability = false → Alter cfg r hand c c.remoteFin
  | feed (f : PacketFrame) : f ∈ hand → f.flag = .data → c.id = f.chID → cfg.reliability = true →
      c.reorderMap.isSome = true → f.offset = c.readOffset → Alter cfg r hand c (c.feed f.data)
  | feedEarly (p : Bytes) : cfg.reliability = true →
      (c.reorderMap.bind fun m => m.lookup c.readOffset) = some p →
      Alter cfg r hand c (c.feedEarly p)
  | keepEarly (f : PacketFrame) : f ∈ hand → f.flag = .data → c.id = f.chID →
      cfg.reliability = true → c.reorderMap.isSome = true → c.readOffset < f.offset →
      Alter cfg r hand c (c.keepEarly f.offset f.data)
  | gotFin (f : PacketFrame) : f ∈ hand → f.flag = .fin → c.id = f.chID →
      cfg.reliability = true → c.reorderMap.isSome = true → Alter cfg r hand c (c.gotFin f.offset)
  | reset (f : PacketFrame) : f ∈ hand → f.flag = .rst → c.id = f.chID →
      c.reorderMap.isSome = true → Alter cfg r hand c c.reset
  | ack : c.reorderMap.isSome = true → Alter cfg r hand c c.ack
  | ackSent : Alter cfg r hand c c.ackSent
  | acked (f : PacketFrame) : f ∈ hand → f.flag = .ack → c.id = f.chID →
      Alter cfg r hand c (c.acked f.offset)
  | idle : c.unacked = [] → Alter cfg r hand c c.idle
  | credit (f : PacketFrame) : f ∈ hand → f.flag = .upd → c.id = f.chID →
      Alter cfg r hand c (c.credit f.dataLength)
  | updSent : Alter cfg r hand c c.updSent
  | take (p : Bytes) (bufs : List Bytes) : r.reads →
      c.buffers.flatten = p ++ bufs.flatten → p ≠ [] → Alter cfg r hand c (c.take p bufs)
  | send (now : Int) (p : Bytes) : c.closed = false → c.writeClosed = false → p ≠ [] →
      (p.length : Int) ≤ c.flow.sendCredits → Alter cfg r hand c (c.send cfg now p)

/-- What is closed, ended or received stays so. -/
structure Alter.Grows (c c' : Channel) : Prop where
  closed : c.closed = true → c'.closed = true
  readDone : c.readDone = true → c'.readDone = true
  finQueued : c.finQueued = true → c'.finQueued = true
  finSent : c.finSent = true → c'.finSent = true
  done : c.done = true → c'.done = true
  hasFin : c.hasFin = true → c'.hasFin = true
  readOffset : c.readOffset ≤ c'.readOffset

theorem Alter.grows {hand : List PacketFrame} (h : Alter cfg r hand c c') :
  Alter.Grows c c'
  := by
  cases h with
  | touch htouch =>
      cases htouch with
      | alike halike =>
          rw [halike]
          exact ⟨id, id, id, id, id, id, le_rfl⟩
      | shut => exact ⟨fun _ => rfl, id, id, id, id, id, le_rfl⟩
      | abandon => exact ⟨fun _ => rfl, fun _ => rfl, fun _ => rfl, id, id, id, le_rfl⟩
      | remoteDone => exact ⟨id, fun _ => rfl, id, id, id, id, le_rfl⟩
      | _ => exact ⟨id, id, id, id, id, id, le_rfl⟩
  | fin now | lateFin now =>
      simp only [Channel.closeFin, Channel.lateFin, Channel.finish]
      rw [Channel.register_eq]
      exact ⟨id, id, fun _ => rfl, fun _ => rfl, id, id, le_rfl⟩
  | send now p =>
      rw [Channel.send, Channel.register_eq]
      exact ⟨id, id, id, id, id, id, le_rfl⟩
  | drain => exact ⟨fun _ => rfl, id, id, id, id, id, le_rfl⟩
  | giveUp => exact ⟨fun _ => rfl, fun _ => rfl, fun _ => rfl, id, id, id, le_rfl⟩
  | retire =>
      rw [Channel.retire_eq]
      exact ⟨id, id, id, id, fun _ => rfl, id, le_rfl⟩
  | push f =>
      rw [Channel.push_eq]
      exact ⟨id, id, id, id, id, id, le_rfl⟩
  | remoteFin f => exact ⟨id, fun _ => rfl, id, id, id, id, le_rfl⟩
  | feed f =>
      rw [Channel.feed_eq]
      exact ⟨id, id, id, id, id, id, Nat.le_add_right _ _⟩
  | feedEarly p =>
      rw [Channel.feedEarly, Channel.feed_eq]
      exact ⟨id, id, id, id, id, id, Nat.le_add_right _ _⟩
  | gotFin f => exact ⟨id, id, id, id, id, fun _ => rfl, le_rfl⟩
  | _ => exact ⟨id, id, id, id, id, id, le_rfl⟩

namespace Station

/-- The moves of a session. -/
inductive Move (cfg : SessionConfig) (r : Rules) (t : Station) : Station → Prop
  | touch (h : Nat) (f : Channel → Channel) : h < t.sess.next →
      Touch cfg r (t.sess.heap h) (f (t.sess.heap h)) →
      Move cfg r t { t with sess := t.sess.update h f }
  | clock (now : Int) (ids : AList fun _ : Nat => Int) (n : Nat) :
      Move cfg r t
        { t with sess := { t.sess with now := now, closedIDs := ids, unknownChannelErrors := n } }
  /-- A control frame is queued.  A reset is for a channel that has been closed and whose peer
  may still write, or for one that was closed recently. -/
  | offer (f : WriteFrame) : f.Plain →
      (f.flag = .rst → r.late f.chID ∨ ∃ h < t.sess.next, (t.sess.heap h).id = f.chID
        ∧ (t.sess.heap h).closed = true ∧ (t.sess.heap h).readDone = false) →
      Move cfg r t { t with sess := { t.sess with ctrlQueue := t.sess.ctrlQueue ++ [f] } }
  /-- The stream of a channel is ended. -/
  | fin (h : Nat) (late : Bool) : h < t.sess.next → (t.sess.heap h).writeClosed = false →
      Move cfg r t { t with sess := t.sess.queueFin cfg late h (Channel.closeFin cfg t.sess.now) }
  | lateFin (h : Nat) (late : Bool) : h < t.sess.next → (t.sess.heap h).finWaiting = true →
      Move cfg r t { t with sess := t.sess.queueFin cfg late h (Channel.lateFin cfg t.sess.now) }
  | lateWrite (i : Nat) (f : WriteFrame) : t.sess.lateWrites[i]? = some f →
      Move cfg r t { t with sess :=
        { t.sess with writes := t.sess.writes ++ [f], lateWrites := t.sess.lateWrites.eraseIdx i } }
  | joinCtrl (i : Nat) (f : WriteFrame) : t.sess.lateCtrl[i]? = some f →
      Move cfg r t { t with sess :=
        { t.sess with
          ctrlQueue := t.sess.ctrlQueue ++ [f], lateCtrl := t.sess.lateCtrl.eraseIdx i } }
  /-- A channel is closed, and what has not been read of it is discarded. -/
  | drain (h : Nat) : h < t.sess.next →
      Move cfg r t { t with
        sess := t.sess.update h fun c => c.shut.drain
        owed := t.owed + (t.sess.heap h).unread }
  | giveUp (h : Nat) : h < t.sess.next → ¬ r.kept (t.sess.heap h).id →
      Move cfg r t { t with
        sess := t.sess.update h fun c => c.abandon.drain
        owed := t.owed + (t.sess.heap h).unread }
  | retire (h : Nat) : h < t.sess.next → (t.sess.heap h).done = false →
      (t.sess.heap h).finQueued = true → (t.sess.heap h).readDone = true →
      ((t.sess.heap h).unacked = [] ∨ ¬ r.kept (t.sess.heap h).id) →
      Move cfg r t { t with sess := t.sess.retire h }
  /-- Session credit is returned, if the session has flow control. -/
  | credit (n : Nat) : 0 < n → n ≤ t.owed → t.sess.flow.enabled = true →
      Move cfg r t { t with sess := t.sess.creditCore cfg (int32 n), owed := t.owed - n }
  | forgive (n : Nat) : n ≤ t.owed → t.sess.flow.enabled = false →
      Move cfg r t { t with owed := t.owed - n }
  /-- Early frames are taken from where they were kept, for a channel that is opened. -/
  | unstash (id : Nat) (q : PendingQueue) : t.sess.pending.lookup id = some q →
      (r.once id → ∀ h < t.sess.next, (t.sess.heap h).id ≠ id) →
      Move cfg r t { t with
        sess := { t.sess with pendingBytes := t.sess.pendingBytes - q.bytes
                              pending := t.sess.pending.erase id }
        hand := q.frames.map (PendingFrame.packet id) ++ t.hand }
  /-- Early frames are dropped. -/
  | expire (id : Nat) (q : PendingQueue) : t.sess.pending.lookup id = some q →
      Move cfg r t { t with
        sess := { t.sess with
          pendingBytes := t.sess.pendingBytes - q.bytes
          pending := t.sess.pending.erase id
          discarded := t.sess.discarded ++ q.frames.map fun f => (id, f.data.length) }
        owed := if cfg.reliability then t.owed else t.owed + q.bytes }
  | stash (f : PacketFrame) (rest : List PacketFrame) : t.hand = f :: rest →
      t.sess.channels f.chID = none →
      (early : f.flag = .data ∨ (f.flag = .fin ∨ f.flag = .rst) ∧ f.data = []) →
      Move cfg r t { t with
        sess := t.sess.keepPending cfg f.chID
          { flag := f.flag, offset := f.offset, data := f.data, early := early }
        hand := rest }
  /-- A frame is dropped for which there is no channel. -/
  | discard (f : PacketFrame) (rest : List PacketFrame) : t.hand = f :: rest → f.flag ≠ .upd →
      Move cfg r t { t with
        sess := t.sess.noteDiscarded f.chID f.data.length
        hand := rest
        owed := if cfg.reliability then t.owed else t.owed + f.data.length }
  /-- A frame is ignored. -/
  | pass (f : PacketFrame) (rest : List PacketFrame) : t.hand = f :: rest → f.flag ≠ .upd →
      cfg.reliability = true ∨ f.flag ≠ .data ∨ f.data = [] →
      Move cfg r t { t with hand := rest }
  /-- Data comes to a closed channel without retransmissions. -/
  | refuse (f : PacketFrame) (rest : List PacketFrame) (h : Nat) : t.hand = f :: rest →
      f.flag = .data → h < t.sess.next → (t.sess.heap h).id = f.chID → cfg.reliability = false →
      (t.sess.heap h).closed = true →
      Move cfg r t { t with
        sess := t.sess.update h (Channel.refuse f.data.length)
        hand := rest
        owed := t.owed + f.data.length }
  /-- Data comes to an open channel without retransmissions. -/
  | push (f : PacketFrame) (rest : List PacketFrame) (h : Nat) : t.hand = f :: rest →
      f.flag = .data → h < t.sess.next → (t.sess.heap h).id = f.chID → cfg.reliability = false →
      (t.sess.heap h).closed = false →
      Move cfg r t { t with sess := t.sess.update h (Channel.push f.data), hand := rest }
  | remoteFin (f : PacketFrame) (rest : List PacketFrame) (h : Nat) : t.hand = f :: rest →
      f.flag = .fin → h < t.sess.next → (t.sess.heap h).id = f.chID → cfg.reliability = false →
      Move cfg r t { t with
        sess := t.sess.update h Channel.remoteFin
        hand := rest }
  /-- The chunk a channel with retransmissions waits for comes. -/
  | feed (f : PacketFrame) (rest : List PacketFrame) (h : Nat) : t.hand = f :: rest →
      f.flag = .data → h < t.sess.next → (t.sess.heap h).id = f.chID → cfg.reliability = true →
      (t.sess.heap h).reorderMap.isSome = true → f.offset = (t.sess.heap h).readOffset →
      t.feeding = none →
      Move cfg r t { t with
        sess := t.sess.update h (Channel.feed f.data)
        hand := rest
        owed := if (t.sess.heap h).closed then t.owed + f.data.length else t.owed
        feeding := some h }
  | feedEarly (h : Nat) (p : Bytes) : h < t.sess.next → cfg.reliability = true →
      t.feeding = some h → t.sess.waiting h = some p →
      Move cfg r t { t with
        sess := t.sess.update h (Channel.feedEarly p)
        owed := if (t.sess.heap h).closed then t.owed + p.length else t.owed }
  | fed (h : Nat) : t.feeding = some h → t.sess.waiting h = none →
      Move cfg r t { t with feeding := none }
  /-- A chunk comes before the one a channel waits for. -/
  | early (f : PacketFrame) (rest : List PacketFrame) (h : Nat) (m : AList fun _ : Nat => Bytes) :
      t.hand = f :: rest → f.flag = .data → h < t.sess.next → (t.sess.heap h).id = f.chID →
      cfg.reliability = true → (t.sess.heap h).reorderMap = some m →
      (t.sess.heap h).readOffset < f.offset → m.lookup f.offset = none →
      Move cfg r t { t with
        sess := t.sess.update h (Channel.keepEarly f.offset f.data)
        hand := rest }
  | gotFin (f : PacketFrame) (rest : List PacketFrame) (h : Nat) : t.hand = f :: rest →
      f.flag = .fin → h < t.sess.next → (t.sess.heap h).id = f.chID → cfg.reliability = true →
      (t.sess.heap h).reorderMap.isSome = true →
      Move cfg r t { t with
        sess := t.sess.update h (Channel.gotFin f.offset)
        hand := rest }
  /-- A reset comes. -/
  | reset (f : PacketFrame) (rest : List PacketFrame) (h : Nat) : t.hand = f :: rest →
      f.flag = .rst → h < t.sess.next → (t.sess.heap h).id = f.chID →
      (t.sess.heap h).reorderMap.isSome = true →
      Move cfg r t { t with sess := t.sess.update h Channel.reset, hand := rest }
  | ack (h : Nat) : h < t.sess.next → (t.sess.heap h).reorderMap.isSome = true →
      Move cfg r t { t with sess := t.sess.acknowledge cfg h }
  | acked (f : PacketFrame) (rest : List PacketFrame) (h : Nat) : t.hand = f :: rest →
      f.flag = .ack → h < t.sess.next → (t.sess.heap h).id = f.chID →
      Move cfg r t { t with sess := t.sess.acked h f.offset, hand := rest }
  | idle (h : Nat) : h < t.sess.next → (t.sess.heap h).unacked = [] →
      Move cfg r t { t with sess := t.sess.arqIdle h }
  | resend (h : Nat) (u : UnackedFrame) : h < t.sess.next →
      u.content ∈ (t.sess.heap h).unacked.map UnackedFrame.content →
      Move cfg r t { t with sess :=
        { t.sess with writes := t.sess.writes ++ [u.frame (t.sess.heap h).id] } }
  /-- A window update comes. -/
  | updStream (f : PacketFrame) (rest : List PacketFrame) (h : Nat) : t.hand = f :: rest →
      f.flag = .upd → h < t.sess.next → (t.sess.heap h).id = f.chID →
      Move cfg r t { t with
        sess := t.sess.update h (Channel.credit f.dataLength)
        hand := rest }
  | updSession (f : PacketFrame) (rest : List PacketFrame) : t.hand = f :: rest →
      f.flag = .upd → f.chID = 0 →
      Move cfg r t { t with
        sess := { t.sess with flow :=
          { t.sess.flow with toFlow := t.sess.flow.addCredits (int32 f.dataLength) } }
        hand := rest }
  | updLate (f : PacketFrame) (rest : List PacketFrame) : t.hand = f :: rest →
      f.flag = .upd → f.chID ≠ 0 → t.sess.channels f.chID = none → ¬ r.updates →
      Move cfg r t { t with hand := rest }
  /-- A channel is opened. -/
  | publish (id : Nat) : id ≠ 0 → t.sess.channels id = none → t.sess.pending.lookup id = none →
      (r.once id → ∀ h < t.sess.next, (t.sess.heap h).id ≠ id) →
      Move cfg r t { t with sess := t.sess.publish cfg id }
  /-- The application reads from a channel. -/
  | take (h : Nat) (p : Bytes) (bufs : List Bytes) : h < t.sess.next →
      r.reads → (t.sess.heap h).buffers.flatten = p ++ bufs.flatten → p ≠ [] →
      Move cfg r t { t with
        sess := t.sess.takeCore cfg h p bufs
        owed := t.owed + p.length }
  /-- The application writes to a channel. -/
  | write (h : Nat) (p : Bytes) : h < t.sess.next → (t.sess.heap h).closed = false →
      (t.sess.heap h).writeClosed = false → p ≠ [] →
      (p.length : Int) ≤ (t.sess.heap h).flow.sendCredits →
      (t.sess.flow.enabled = true → (p.length : Int) ≤ t.sess.flow.sendCredits) →
      Move cfg r t { t with sess := t.sess.spend cfg h p }
  /-- The writer takes a frame for its batch. -/
  | collectCtrl (f : WriteFrame) (q : List WriteFrame) : t.sess.ctrlQueue = f :: q →
      Move cfg r t { t with sess := { t.sess with ctrlQueue := q }, batch := t.batch ++ [f] }
  | collectData (f : WriteFrame) (q : List WriteFrame) : t.sess.writes = f :: q →
      Move cfg r t { t with sess := { t.sess with writes := q }, batch := t.batch ++ [f] }
  /-- A frame of the batch is made ready. -/
  | ready (f : WriteFrame) (rest : List WriteFrame) : t.batch = f :: rest → f.ackCh = none →
      f.streamFlow = none → f.sessionFlow = false →
      Move cfg r t { t with batch := rest, out := mergeInto t.out f }
  | readyAck (f : WriteFrame) (rest : List WriteFrame) (h : Nat) : t.batch = f :: rest →
      f.ackCh = some h → f.streamFlow = none → f.sessionFlow = false →
      Move cfg r t { t with
        sess := t.sess.update h Channel.ackSent
        batch := rest
        out := mergeInto t.out { f with offset := (t.sess.heap h).ackOffset } }
  | readyStream (f : WriteFrame) (rest : List WriteFrame) (h : Nat) : t.batch = f :: rest →
      f.ackCh = none → f.streamFlow = some h → f.sessionFlow = false →
      Move cfg r t { t with
        sess := t.sess.update h Channel.updSent
        batch := rest
        out := mergeUpdate t.out f (t.sess.heap h).flow.unflushed }
  | readySession (f : WriteFrame) (rest : List WriteFrame) : t.batch = f :: rest →
      f.ackCh = none → f.streamFlow = none → f.sessionFlow = true →
      Move cfg r t { t with
        sess := { t.sess with flow := { t.sess.flow with toFlow := t.sess.flow.resolved } }
        batch := rest
        out := mergeUpdate t.out f t.sess.flow.unflushed }

variable {cfg : SessionConfig} {r : Rules}

theorem alter_update {hand : List PacketFrame} {s : Session} {h : Nat} {f : Channel → Channel}
    (hf : Alter cfg r hand (s.heap h) (f (s.heap h))) (k : Nat) :
  (s.update h f).heap k = s.heap k ∨ Alter cfg r hand (s.heap k) ((s.update h f).heap k)
  := by
  by_cases hk : k = h
  · right
    subst hk
    rwa [Session.heap_update_self]
  · left
    apply Session.heap_update_of_ne hk

/-- A move changes no channel but in one of these ways. -/
theorem Move.alter {t t' : Station} (hm : Move cfg r t t') {k : Nat} (hk : k < t.sess.next) :
  t'.sess.heap k = t.sess.heap k ∨ Alter cfg r t.hand (t.sess.heap k) (t'.sess.heap k)
  := by
  have hfirst : ∀ {f : PacketFrame} {rest : List PacketFrame}, t.hand = f :: rest → f ∈ t.hand := by
    intro f rest hhand
    simp [hhand]
  cases hm with
  | touch h f hh hf => apply alter_update (.touch hf)
  | fin h late hh hw => apply alter_update (.fin t.sess.now hw)
  | lateFin h late hh hw => apply alter_update (.lateFin t.sess.now hw)
  | drain h hh => apply alter_update (f := fun c => c.shut.drain) .drain
  | giveUp h hh hkept => apply alter_update (f := fun c => c.abandon.drain) (.giveUp hkept)
  | retire h hh hdone hfin hread hunacked => apply alter_update (.retire hdone hfin hread hunacked)
  | refuse f rest h hhand hflag hh hid hrel hclosed =>
      apply alter_update (.refuse f (hfirst hhand) hflag hid hrel hclosed)
  | push f rest h hhand hflag hh hid hrel hclosed =>
      apply alter_update (.push f (hfirst hhand) hflag hid hrel hclosed)
  | remoteFin f rest h hhand hflag hh hid hrel =>
      apply alter_update (.remoteFin f (hfirst hhand) hflag hid hrel)
  | feed f rest h hhand hflag hh hid hrel hmap hoffset =>
      apply alter_update (.feed f (hfirst hhand) hflag hid hrel hmap hoffset)
  | feedEarly h p hh hrel hfeeding hwaiting => apply alter_update (.feedEarly p hrel hwaiting)
  | early f rest h m hhand hflag hh hid hrel hmap hlt =>
      apply alter_update (.keepEarly f (hfirst hhand) hflag hid hrel (by simp [hmap]) hlt)
  | gotFin f rest h hhand hflag hh hid hrel hmap =>
      apply alter_update (.gotFin f (hfirst hhand) hflag hid hrel hmap)
  | reset f rest h hhand hflag hh hid hmap =>
      apply alter_update (.reset f (hfirst hhand) hflag hid hmap)
  | ack h hh hmap => apply alter_update (.ack hmap)
  | acked f rest h hhand hflag hh hid => apply alter_update (.acked f (hfirst hhand) hflag hid)
  | idle h hh hunacked => apply alter_update (.idle hunacked)
  | updStream f rest h hhand hflag hh hid =>
      apply alter_update (.credit f (hfirst hhand) hflag hid)
  | take h p bufs hh hreads hbufs hp => apply alter_update (.take p bufs hreads hbufs hp)
  | write h p hh hclosed hw hp hcredit =>
      apply alter_update (.send t.sess.now p hclosed hw hp hcredit)
  | readyAck f rest h => apply alter_update .ackSent
  | readyStream f rest h => apply alter_update .updSent
  | publish id =>
      left
      have hne : k ≠ t.sess.next := by omega
      simp [Session.publish, hne]
  | _ =>
      left
      rfl

/-- A sequence of moves. -/
abbrev Moves (cfg : SessionConfig) (r : Rules) : Station → Station → Prop :=
  Relation.ReflTransGen (Move cfg r)

end Station

end Muxocket
