import Mathlib.Data.List.AList
import Mathlib.Logic.Function.Basic
import Muxocket.Flow

/-!
# Channels and sessions

The state of a session and of its channels.  Channels live in the `heap` of their session,
and a reference to a channel is its index there: the table `channels` maps an identifier
to the channel now open under it, while a channel that has been finalized stays in the
heap, for the application may still read from it.

The last fields of a channel are its history: `sent` are the chunks its stream was cut
into, `pushed` the bytes put on its ring, `delivered` those the application got, `dropped`
the number of bytes discarded with their session credit returned, `lost` the number of
those pushed on a ring that was closed already, and `finSent` says that the end of the
stream has been registered.  The history `discarded` of a session lists the frames discarded
for which there was no channel, with their identifiers and the numbers of their bytes.  No
function of the model depends on them.
-/

namespace Muxocket

/-- A frame kept for retransmission until it is acknowledged. -/
structure UnackedFrame where
  offset : Nat
  data : Bytes
  fin : Bool
  sentAt : Int
  retransmits : Nat
deriving DecidableEq, Repr

/-- The offset an acknowledgement must reach to cover the frame.  The end of a stream
counts for one byte. -/
def UnackedFrame.end_ (f : UnackedFrame) : Nat :=
  if f.fin then f.offset + 1 else f.offset + f.data.length

/-- The frame that sends, or sends again, an unacknowledged frame. -/
def UnackedFrame.frame (id : Nat) (f : UnackedFrame) : WriteFrame :=
  if f.fin then finFrame id f.offset else dataFrame id f.offset f.data

/-- A channel. -/
structure Channel where
  id : Nat
  ring : Option (List Bytes)
  flow : Flow
  closed : Bool
  readDone : Bool
  drainable : Bool
  drained : Bool
  writeClosed : Bool
  finQueued : Bool
  finWaiting : Bool
  resetByPeer : Bool
  lastRst : Int
  closeTimer : Bool
  giveUp : Bool
  done : Bool
  writeOffset : Nat
  readOffset : Nat
  unacked : List UnackedFrame
  reorderMap : Option (AList fun _ : Nat => Bytes)
  finOffset : Nat
  hasFin : Bool
  inARQ : Bool
  ackOffset : Nat
  ackPending : Bool
  ackTimer : Bool
  inOrderPackets : Nat
  sent : List Bytes
  pushed : Bytes
  delivered : Bytes
  dropped : Nat
  lost : Nat
  finSent : Bool

/-- The channel that has just been opened under an identifier. -/
@[simp]
def newChannel (cfg : SessionConfig) (id : Nat) : Channel where
  id := id
  ring := some []
  flow := newStreamFlow (int32 cfg.initialStreamWindow)
  closed := false
  readDone := false
  drainable := false
  drained := false
  writeClosed := false
  finQueued := false
  finWaiting := false
  resetByPeer := false
  lastRst := 0
  closeTimer := false
  giveUp := false
  done := false
  writeOffset := 0
  readOffset := 0
  unacked := []
  reorderMap := some ∅
  finOffset := 0
  hasFin := false
  inARQ := false
  ackOffset := 0
  ackPending := false
  ackTimer := false
  inOrderPackets := 0
  sent := []
  pushed := []
  delivered := []
  dropped := 0
  lost := 0
  finSent := false

namespace Channel

/-- The buffers of the ring that have not been consumed. -/
def buffers (c : Channel) : List Bytes :=
  c.ring.getD []

/-- The number of bytes in the ring. -/
def unread (c : Channel) : Nat :=
  c.buffers.flatten.length

/-- The offset up to which everything has been received, the end of the stream counting
for one byte. -/
def cumulativeAckLocked (c : Channel) : Nat :=
  if c.hasFin ∧ c.finOffset ≤ c.readOffset then c.finOffset + 1 else c.readOffset

end Channel

/-- An early frame: one that arrived for a channel that is not open.  Only data, the end of
a stream and resets are kept, and only data has a payload. -/
structure PendingFrame where
  flag : Flag
  offset : Nat
  data : Bytes
  early : flag = .data ∨ (flag = .fin ∨ flag = .rst) ∧ data = [] := by simp
deriving DecidableEq, Repr

/-- The number of payload bytes in a list of early frames. -/
def pendingLength (frames : List PendingFrame) : Nat :=
  (frames.map fun f => f.data.length).sum

/-- The early frames of a channel, with the number of their payload bytes. -/
structure PendingQueue where
  frames : List PendingFrame
  bytes : Nat
  expires : Int
  bytes_eq : bytes = pendingLength frames

/-- A session. -/
structure Session where
  now : Int
  closed : Bool
  goAwayRecv : Bool
  heap : Nat → Channel
  next : Nat
  channels : Nat → Option Nat
  flow : SessionFlow
  writes : List WriteFrame
  lateWrites : List WriteFrame
  ctrlQueue : List WriteFrame
  lateCtrl : List WriteFrame
  arqSet : List Nat
  pending : AList fun _ : Nat => PendingQueue
  pendingBytes : Int
  closedIDs : AList fun _ : Nat => Int
  unknownChannelErrors : Nat
  discarded : List (Nat × Nat)

/-- The session that has just been created, at time `now`. -/
@[simp]
def newSession (cfg : SessionConfig) (now : Int) : Session where
  now := now
  closed := false
  goAwayRecv := false
  heap := fun _ => newChannel cfg 0
  next := 0
  channels := fun _ => none
  flow := newSessionFlow (int32 cfg.initialSessionWindow)
  writes := []
  lateWrites := []
  ctrlQueue := []
  lateCtrl := []
  arqSet := []
  pending := ∅
  pendingBytes := 0
  closedIDs := ∅
  unknownChannelErrors := 0
  discarded := []

namespace Session

variable (cfg : SessionConfig)

/-- Change the channel `h`. -/
def update (h : Nat) (f : Channel → Channel) (s : Session) : Session :=
  { s with heap := Function.update s.heap h (f (s.heap h)) }

@[simp]
theorem heap_update_self (h : Nat) (f : Channel → Channel) (s : Session) :
  (s.update h f).heap h = f (s.heap h)
  := by
  simp [update]

theorem heap_update_of_ne {h k : Nat} (hne : k ≠ h) (f : Channel → Channel) (s : Session) :
  (s.update h f).heap k = s.heap k
  := by
  simp [update, hne]

@[simp]
theorem update_update (h : Nat) (f g : Channel → Channel) (s : Session) :
  (s.update h f).update h g = s.update h fun c => g (f c)
  := by
  simp [update]

/-- Note that `n` bytes have been discarded for the identifier `id`. -/
def noteDiscarded (id n : Nat) (s : Session) : Session :=
  { s with discarded := s.discarded ++ [(id, n)] }

/-- Queue a data frame, unless the session is closed.  Senders that wait for room in the
queue are served in the order they came, so they are part of the queue. -/
def writeDataFrame (f : WriteFrame) (s : Session) : Option Session :=
  if s.closed then none else some { s with writes := s.writes ++ [f] }

/-- Queue a data frame if there is room for it now. -/
def writeDataFrameNonBlocking (f : WriteFrame) (s : Session) : Option Session :=
  if s.closed then none
  else if s.writes.length < cfg.queueDepth then some { s with writes := s.writes ++ [f] }
  else none

/-- Queue a control frame, unless the session is closed.  Without room in the queue, a
goroutine of its own holds the frame until there is. -/
def writeControlFrameNonBlocking (f : WriteFrame) (s : Session) : Option Session :=
  if s.closed then none
  else if s.ctrlQueue.length < cfg.ctrlDepth then
    some { s with ctrlQueue := s.ctrlQueue ++ [f] }
  else some { s with lateCtrl := s.lateCtrl ++ [f] }

/-- Queue a control frame that may be lost when there is no room for it. -/
def offerControlFrame (f : WriteFrame) (s : Session) : Session :=
  if s.ctrlQueue.length < cfg.ctrlDepth then { s with ctrlQueue := s.ctrlQueue ++ [f] }
  else s

/-- Tell the peer that this side discards what it gets for a channel. -/
def sendReset (id offset : Nat) (s : Session) : Session :=
  if s.closed then s
  else s.offerControlFrame cfg { flag := .rst, chID := id, offset := offset }

/-- Put a channel among those the retransmission timer scans. -/
def arqAdd (h : Nat) (s : Session) : Session :=
  { s with arqSet := if h ∈ s.arqSet then s.arqSet else s.arqSet ++ [h] }

/-- Take a channel from those the retransmission timer scans. -/
def arqRemove (h : Nat) (s : Session) : Session :=
  { s with arqSet := s.arqSet.filter (· ≠ h) }

/-! ### Returning credit -/

/-- Hand what has been consumed of the session window to a window update. -/
def flushSessionUpdate (s : Session) : Session :=
  let s' := { s with flow := { s.flow with toFlow := s.flow.flushUpdate } }
  if s.flow.needsFrame then
    match s'.writeControlFrameNonBlocking cfg { flag := .upd, sessionFlow := true } with
    | some s'' => s''
    | none => { s' with flow := { s'.flow with updPending := false } }
  else s'

/-- Count `n` bytes of the session window as consumed. -/
def sessionOnRead (n : Int) (s : Session) : Session :=
  let s' := { s with flow := { s.flow with toFlow := s.flow.consume n } }
  if s'.flow.threshold ≤ s'.flow.consumed then s'.flushSessionUpdate cfg else s'

/-- Hand what has been consumed of the window of a channel to a window update. -/
def flushStreamUpdate (h : Nat) (s : Session) : Session :=
  let s' := s.update h fun c => { c with flow := c.flow.flushUpdate }
  if (s.heap h).flow.needsFrame then
    match s'.writeControlFrameNonBlocking cfg
      { flag := .upd, chID := (s.heap h).id, streamFlow := some h } with
    | some s'' => s''
    | none => s'.update h fun c => { c with flow := { c.flow with updPending := false } }
  else s'

/-- Return session credit for `n` bytes of a channel, if the session has flow control. -/
def creditSession (n : Nat) (s : Session) : Session :=
  if s.flow.enabled ∧ 0 < n then s.sessionOnRead cfg (int32 n) else s

/-- Count `n` bytes of the window of a channel as consumed. -/
def streamConsume (h : Nat) (n : Int) (s : Session) : Session :=
  let s' := s.update h fun c => { c with flow := c.flow.consume n }
  if (s'.heap h).flow.threshold ≤ (s'.heap h).flow.consumed then s'.flushStreamUpdate cfg h else s'

/-- Count `n` bytes of a channel as consumed, in its window and in that of the session. -/
def streamOnRead (h n : Nat) (s : Session) : Session :=
  if n = 0 then s
  else
    let s' := s.streamConsume cfg h (int32 n)
    if s'.flow.enabled then s'.sessionOnRead cfg (int32 n) else s'

/-- Return session credit for `n` bytes that no application will read.  With
retransmissions none is returned: what is sent again is credited when it is read. -/
def creditDiscarded (n : Nat) (s : Session) : Session :=
  if cfg.reliability ∨ ¬ s.flow.enabled ∨ n = 0 then s else s.sessionOnRead cfg (int32 n)

end Session

end Muxocket
