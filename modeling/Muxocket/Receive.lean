import Muxocket.Channel

/-!
# Receiving frames

What a session does with the frames it receives.  The reader of a stream transport and
that of a datagram transport have a dispatch each; they agree on everything but frames of
data, and on the length a reset may have.
-/

namespace Muxocket

/-- Whether a reader goes on after a frame, drops the transport, or has found the session
closed. -/
inductive Verdict where
  | next
  | disconnect
  | closed
deriving DecidableEq, Repr

namespace Session

variable (cfg : SessionConfig)

/-- Acknowledge: an acknowledgement, of use only with retransmissions. -/
def receiveAck (id offset : Nat) (s : Session) : Session :=
  if cfg.reliability then
    match s.channels id with
    | some h => s.onAck cfg h offset
    | none => s
  else s

/-- A window update, of the session if the identifier is zero. -/
def receiveUpd (id length : Nat) (s : Session) : Session :=
  if id = 0 then { s with flow := { s.flow with toFlow := s.flow.addCredits (int32 length) } }
  else
    match s.channels id with
    | some h => s.update h fun c => { c with flow := c.flow.addCredits (int32 length) }
    | none => s

/-- The end of a stream.  It is kept, like data, for a channel that is not open yet. -/
def receiveFin (id offset : Nat) (s : Session) : Session :=
  match s.channels id with
  | some h => s.receiveEnd cfg h offset
  | none =>
      if s.closed ∨ s.recentlyClosed id then s
      else
        ((s.recentlyClosedLocked id).stashLocked cfg id
          { flag := .fin, offset := offset, data := [] }).2

/-- A reset.  It is kept for a channel that is not open yet if other frames are. -/
def receiveRst (busy : Bool) (id offset : Nat) (s : Session) : Session :=
  match s.channels id with
  | some h => s.peerReset cfg busy h
  | none =>
      if s.closed then s
      else if (s.pending.lookup id).isSome then
        (s.stashLocked cfg id { flag := .rst, offset := offset, data := [] }).2
      else s

/-- Data for a channel this session does not know.  Too much of it closes the session. -/
def unknownChannel (id n : Nat) (s : Session) : Verdict × Session :=
  let s := (s.noteDiscarded id n).creditDiscarded cfg n
  let s := { s with unknownChannelErrors := (s.unknownChannelErrors + 1) % 2 ^ 32 }
  if cfg.maxUnknownChannelErrors < s.unknownChannelErrors then (.closed, s.closeSession cfg)
  else (.next, s)

/-- Data on a stream transport. -/
def streamData (id offset : Nat) (p : Bytes) (s : Session) : Verdict × Session :=
  match s.channels id with
  | some h => (.next, s.receiveData cfg h offset p)
  | none =>
      if s.closed then s.unknownChannel cfg id p.length
      else if s.recentlyClosed id then
        (.next, ((s.noteDiscarded id p.length).creditDiscarded cfg p.length).sendReset cfg id 0)
      else
        let r := (s.recentlyClosedLocked id).stashLocked cfg id
          { flag := .data, offset := offset, data := p }
        if r.1 then (.next, r.2) else r.2.unknownChannel cfg id p.length

/-- Data on a datagram transport: early data is dropped, and so is, without its credit,
what a channel does not take. -/
def datagramData (id offset : Nat) (p : Bytes) (s : Session) : Session :=
  match s.channels id with
  | some h =>
      if cfg.reliability then s.feedReliablePayload cfg h offset p
      else if s.takes h then s.feed cfg h p
      else (s.feed cfg h p).update h fun c => { c with lost := c.lost + p.length }
  | none => (s.noteDiscarded id p.length).creditDiscarded cfg p.length

/-- The frames the two readers treat alike. -/
def receiveControl (busy : Bool) (f : PacketFrame) (s : Session) : Verdict × Session :=
  match f.flag with
  | .ack => (.next, s.receiveAck cfg f.chID f.offset)
  | .upd => (.next, s.receiveUpd f.chID f.dataLength)
  | .fin => (.next, s.receiveFin cfg f.chID f.offset)
  | .rst => (.next, s.receiveRst cfg busy f.chID f.offset)
  | .ping => (.next, s.offerControlFrame cfg { flag := .pong })
  | .goaway => (.closed, { s with goAwayRecv := true }.closeSession cfg)
  | .pong | .noop | .data => (.next, s)

/-- A frame on a stream transport. -/
def receiveStream (busy : Bool) (f : PacketFrame) (s : Session) : Verdict × Session :=
  match f.flag with
  | .data =>
      if f.dataLength = 0 then (.next, s)
      else if cfg.maxFrameDataSize < f.dataLength ∨ maxAllocSize < f.dataLength then
        (.disconnect, s)
      else s.streamData cfg f.chID f.offset f.data
  | .rst => if f.dataLength ≠ 0 then (.disconnect, s) else s.receiveControl cfg busy f
  | _ => s.receiveControl cfg busy f

/-- A frame on a datagram transport. -/
def receiveDatagram (busy : Bool) (f : PacketFrame) (s : Session) : Verdict × Session :=
  match f.flag with
  | .data =>
      if f.dataLength = 0 then (.next, s)
      else (.next, s.datagramData cfg f.chID f.offset f.data)
  | _ => s.receiveControl cfg busy f

/-! ### What does not close a session -/

section

variable (h : Nat)

theorem closed_maybeFinalize (s : Session) :
  (s.maybeFinalize cfg h).closed = s.closed
  := by
  unfold maybeFinalize
  split <;> simp

theorem closed_sendAck (offset : Nat) (s : Session) :
  (s.sendAck cfg h offset).closed = s.closed
  := by
  unfold sendAck writeControlFrameNonBlocking
  grind [closed_update]

theorem closed_resetPeer (force : Bool) (s : Session) :
  (s.resetPeer cfg force h).closed = s.closed
  := by
  unfold resetPeer sendReset offerControlFrame
  grind [closed_update]

theorem closed_feed (p : Bytes) (s : Session) :
  (s.feed cfg h p).closed = s.closed
  := by
  unfold feed push
  grind [closed_update, closed_resetPeer]

theorem closed_feedNext (p : Bytes) (s : Session) :
  (s.feedNext cfg h p).closed = s.closed
  := by
  unfold feedNext dropFed
  grind [closed_update, closed_feed, closed_creditSession]

theorem closed_feedWaiting (fuel : Nat) (s : Session) :
  (s.feedWaiting cfg h fuel).closed = s.closed
  := by
  induction fuel generalizing s with
  | zero => rfl
  | succ fuel ih =>
      unfold feedWaiting
      split
      · rfl
      · simp [ih, closed_feedNext]

theorem closed_closeFinished (s : Session) :
  (s.closeFinished cfg h).closed = s.closed
  := by
  unfold closeFinished remoteClose
  split <;> simp [closed_maybeFinalize]

theorem closed_feedReliablePayload (offset : Nat) (p : Bytes) (s : Session) :
  (s.feedReliablePayload cfg h offset p).closed = s.closed
  := by
  unfold feedReliablePayload feedInOrder ackInOrder scheduleDelayedAck keepEarly dropFed
  grind [closed_update, closed_sendAck, closed_feedNext, closed_feedWaiting, closed_resetPeer,
    closed_closeFinished, closed_creditSession]

theorem closed_receiveData (offset : Nat) (p : Bytes) (s : Session) :
  (s.receiveData cfg h offset p).closed = s.closed
  := by
  unfold receiveData feedOrCredit
  grind [closed_feedReliablePayload, closed_feed, closed_creditDiscarded, closed_update]

theorem closed_receiveEnd (offset : Nat) (s : Session) :
  (s.receiveEnd cfg h offset).closed = s.closed
  := by
  unfold receiveEnd handleFinReliable remoteClose
  grind [closed_sendAck, closed_closeFinished, closed_maybeFinalize, closed_update]

theorem closed_closeWrite (busy : Bool) (s : Session) :
  (s.closeWrite cfg busy h).closed = s.closed
  := by
  unfold closeWrite sendFinLocked registerUnacked arqAdd writeDataFrameNonBlocking
  grind [closed_update]

end

/-- Of the frames the two readers treat alike, only one that says that the peer has closed the
session closes it. -/
theorem receiveControl_next (busy : Bool) {f : PacketFrame}
    (hflag : f.flag ≠ .goaway) (s : Session) :
  (s.receiveControl cfg busy f).1 = .next ∧ (s.receiveControl cfg busy f).2.closed = s.closed
  := by
  have hstash := fun g s => (beside_stashLocked cfg f.chID g s).closed_eq
  have hlook := (beside_recentlyClosedLocked f.chID s).closed_eq
  unfold receiveControl receiveAck onAck receiveUpd receiveFin receiveRst peerReset arqRemove
    offerControlFrame
  grind [closed_update, closed_maybeFinalize, closed_receiveEnd, closed_closeWrite]

end Session

end Muxocket
