import Muxocket.Stash

/-!
# Closing channels

A channel is closed in each direction separately.  `closeWrite` ends the stream this side
writes, `remoteClose` the stream it reads, and a channel with both ended and everything
acknowledged is finalized: its buffers are released and its identifier is free again.
`close` also discards what has not been read, and `localClose` gives the channel up without
waiting for the peer.

A close that finds the write lock taken by a writer leaves it to a goroutine of its own,
marked by `finWaiting`, to end the stream when the lock is free; the argument `busy` of
these functions says that the lock is taken.
-/

namespace Muxocket

namespace Session

variable (cfg : SessionConfig)

/-- Discard, once, what the application has not read of a channel, and return its session
credit. -/
def drainRing (h : Nat) (s : Session) : Session :=
  if (s.heap h).drained then s
  else
    (s.creditSession cfg (s.heap h).unread).update h fun c =>
      { c with drained := true, ring := none, dropped := c.dropped + c.unread }

/-- Release what a channel keeps for retransmission and reassembly, and stop its timers. -/
def cleanupReliability (h : Nat) (s : Session) : Session :=
  let s := if (s.heap h).inARQ then s.arqRemove h else s
  s.update h fun c =>
    { c with ackTimer := false, closeTimer := false, unacked := [], inARQ := false
             reorderMap := none }

/-- Close the ring of a channel, unless the application may still read what is in it. -/
def closeRing (h : Nat) (s : Session) : Session :=
  s.update h fun c =>
    if c.drainable = false ∨ c.buffers = [] then
      { c with ring := none, lost := c.lost + c.unread }
    else c

/-- Finalize a channel, once. -/
def finalize (h : Nat) (s : Session) : Session :=
  if (s.heap h).done then s
  else
    (((s.cleanupReliability h).closeRing h).update h fun c =>
      { c with done := true }).removeChannelIf cfg h

/-- Finalize a channel if both its streams have ended and nothing is unacknowledged. -/
def maybeFinalize (h : Nat) (s : Session) : Session :=
  if (s.heap h).finQueued ∧ (s.heap h).readDone ∧ (s.heap h).unacked = [] then
    s.finalize cfg h
  else s

/-- End the stream a channel reads. -/
def remoteClose (h : Nat) (s : Session) : Session :=
  (s.update h fun c => { c with drainable := true, readDone := true }).maybeFinalize cfg h

/-- Keep a frame for retransmission. -/
def registerUnacked (h : Nat) (f : UnackedFrame) (s : Session) : Session :=
  let s := if (s.heap h).inARQ then s else s.arqAdd h
  s.update h fun c => { c with unacked := c.unacked ++ [f], inARQ := true }

/-- Send the frame that ends the stream a channel writes. -/
def sendFinLocked (h : Nat) (s : Session) : Session :=
  let c := s.heap h
  let f := finFrame c.id c.writeOffset
  let s :=
    if cfg.reliability then
      s.registerUnacked h
        { offset := c.writeOffset, data := [], fin := true, sentAt := s.now, retransmits := 0 }
    else s
  let s := s.update h fun c => { c with finQueued := true, finSent := true }
  match s.writeDataFrameNonBlocking cfg f with
  | some s => s
  | none => if s.closed then s else { s with lateWrites := s.lateWrites ++ [f] }

/-- End, once, the stream a channel writes. -/
def closeWrite (busy : Bool) (h : Nat) (s : Session) : Session :=
  if (s.heap h).writeClosed then s
  else if busy then s.update h fun c => { c with writeClosed := true, finWaiting := true }
  else (s.update h fun c => { c with writeClosed := true }).sendFinLocked cfg h

/-- End the stream of a close that found the write lock taken. -/
def lateFin (h : Nat) (s : Session) : Session :=
  if (s.heap h).finWaiting then
    ((s.update h fun c => { c with finWaiting := false }).sendFinLocked cfg h).maybeFinalize cfg h
  else s

/-- End the stream the application writes. -/
def CloseWrite (busy : Bool) (h : Nat) (s : Session) : Session :=
  if s.closed then s else (s.closeWrite cfg busy h).maybeFinalize cfg h

/-- Tell the peer of a channel that this side discards what it gets.  Unless `force` is
set, this is done at most once in each retransmission timeout. -/
def resetPeer (force : Bool) (h : Nat) (s : Session) : Session :=
  let c := s.heap h
  if c.readDone then s
  else if ¬ force ∧ s.now - c.lastRst < cfg.retransmitTimeout then s
  else (s.update h fun c => { c with lastRst := s.now }).sendReset cfg c.id c.writeOffset

/-- Close both directions of a channel. -/
def Close (busy : Bool) (h : Nat) (s : Session) : Session :=
  let s := s.closeWrite cfg busy h
  let s :=
    if (s.heap h).closed then s
    else
      let s := (s.update h fun c => { c with closed := true }).drainRing cfg h
      if (s.heap h).readDone then s
      else
        (s.resetPeer cfg true h).update h fun c =>
          { c with closeTimer := decide (0 < cfg.channelCloseTimeout) && !c.done }
  s.maybeFinalize cfg h

/-- Give a channel up. -/
def localClose (h : Nat) (s : Session) : Session :=
  let s := s.update h fun c =>
    { c with writeClosed := true, finQueued := true, closed := true, readDone := true
             giveUp := false }
  let s := if (s.heap h).drainable then s else s.drainRing cfg h
  s.finalize cfg h

/-- End both streams of a channel whose peer has closed the session. -/
def peerGone (h : Nat) (s : Session) : Session :=
  (s.update h fun c =>
    { c with writeClosed := true, finQueued := true, drainable := true
             readDone := true }).finalize cfg h

/-- Stop writing to a channel the peer discards. -/
def peerReset (busy : Bool) (h : Nat) (s : Session) : Session :=
  ((s.update h fun c => { c with resetByPeer := true }).closeWrite cfg busy h).maybeFinalize cfg h

/-- The channels in the table of a session. -/
def activeChannels (s : Session) : List Nat :=
  (List.range s.next).filter fun h => decide (s.channels (s.heap h).id = some h)

/-- End every channel of a list of channels of a session that closes. -/
def closeChannels (cfg : SessionConfig) : List Nat → Session → Session
  | [], s => s
  | h :: hs, s =>
      (if s.goAwayRecv then s.peerGone cfg h else s.localClose cfg h).closeChannels cfg hs

/-- Close a session, once. -/
def closeSession (s : Session) : Session :=
  if s.closed then s
  else
    { s with closed := true, channels := fun _ => none, pending := ∅, closedIDs := ∅
             pendingBytes := 0, arqSet := [] }.closeChannels cfg s.activeChannels

/-! ### A closed session stays closed -/

theorem Beside.closed_eq {s s' : Session} (h : s.Beside s') :
  s'.closed = s.closed
  := by
  rw [h]

@[simp]
theorem closed_update (h : Nat) (f : Channel → Channel) (s : Session) :
  (s.update h f).closed = s.closed
  := rfl

@[simp]
theorem closed_noteDiscarded (id n : Nat) (s : Session) :
  (s.noteDiscarded id n).closed = s.closed
  := rfl

@[simp]
theorem closed_creditSession (n : Nat) (s : Session) :
  (s.creditSession cfg n).closed = s.closed
  := by
  unfold creditSession
  split
  · apply (paid_sessionOnRead cfg _ s).beside.closed_eq
  · rfl

@[simp]
theorem closed_creditDiscarded (n : Nat) (s : Session) :
  (s.creditDiscarded cfg n).closed = s.closed
  := (paid_creditDiscarded cfg n s).beside.closed_eq

@[simp]
theorem closed_releasePendingLocked (id : Nat) (q : PendingQueue) (s : Session) :
  (s.releasePendingLocked cfg id q).closed = s.closed
  := (beside_releasePendingLocked cfg id q s).closed_eq

@[simp]
theorem closed_pruneLocked (s : Session) :
  (s.pruneLocked cfg).closed = s.closed
  := (beside_pruneLocked cfg s).closed_eq

/-- Taking a channel from the table changes no channel, and does not close the session. -/
theorem heap_removeChannelIf (h : Nat) (s : Session) :
  (s.removeChannelIf cfg h).heap = s.heap ∧ (s.removeChannelIf cfg h).closed = s.closed
  := by
  unfold removeChannelIf
  dsimp only
  split
  · rw [beside_markClosedLocked cfg]
    exact ⟨rfl, rfl⟩
  · exact ⟨rfl, rfl⟩

@[simp]
theorem closed_finalize (h : Nat) (s : Session) :
  (s.finalize cfg h).closed = s.closed
  := by
  have hclean : (s.cleanupReliability h).closed = s.closed := by
    unfold cleanupReliability
    split <;> rfl
  unfold finalize
  split
  · rfl
  · simp [heap_removeChannelIf, closeRing, hclean]

@[simp]
theorem closed_localClose (h : Nat) (s : Session) :
  (s.localClose cfg h).closed = s.closed
  := by
  unfold localClose drainRing
  grind [closed_finalize, closed_update, closed_creditSession]

@[simp]
theorem closed_closeChannels (hs : List Nat) (s : Session) :
  (s.closeChannels cfg hs).closed = s.closed
  := by
  induction hs generalizing s with
  | nil => rfl
  | cons h hs ih =>
      unfold closeChannels
      split <;> simp [ih, peerGone]

/-- Closing a session leaves it closed. -/
theorem closed_closeSession (s : Session) :
  (s.closeSession cfg).closed = true
  := by
  unfold closeSession
  split
  · assumption
  · simp

/-- A channel that is finalized with nothing unacknowledged has nothing unacknowledged. -/
theorem unacked_maybeFinalize {h : Nat} {s : Session} (hnil : (s.heap h).unacked = []) :
  ((s.maybeFinalize cfg h).heap h).unacked = []
  := by
  have hclose : ∀ s : Session, ((s.closeRing h).heap h).unacked = (s.heap h).unacked := by
    intro s
    simp only [closeRing, heap_update_self]
    split <;> rfl
  unfold maybeFinalize finalize
  split
  · split
    · exact hnil
    · simp [heap_removeChannelIf, hclose, cleanupReliability]
  · exact hnil

end Session

end Muxocket
