import Muxocket.Close

/-!
# Retransmission and reassembly

The receiving side of a channel puts the chunks of its stream back in order, keeping those
that come too early in `reorderMap`, and acknowledges what it has up to the first gap.  The
sending side keeps every frame in `unacked` until an acknowledgement covers it, and sends
it again when it is due.
-/

namespace Muxocket

/-- A channel with one more buffer on its ring.  A ring that is closed does not keep it. -/
def Channel.push (p : Bytes) (c : Channel) : Channel :=
  match c.ring with
  | some bufs => { c with ring := some (bufs ++ [p]), pushed := c.pushed ++ p }
  | none => { c with lost := c.lost + p.length }

namespace Session

variable (cfg : SessionConfig)

/-! ### Acknowledgements -/

/-- Queue an acknowledgement, or let the one already queued carry the new offset. -/
def sendAck (h offset : Nat) (s : Session) : Session :=
  let pending := (s.heap h).ackPending
  let s := s.update h fun c =>
    { c with ackTimer := false, ackOffset := offset, ackPending := true }
  if pending then s
  else
    match s.writeControlFrameNonBlocking cfg
      { flag := .ack, chID := (s.heap h).id, ackCh := some h } with
    | some s => s
    | none => s.update h fun c => { c with ackPending := false }

/-- Acknowledge later, unless an acknowledgement is queued or none may be delayed. -/
def scheduleDelayedAck (h offset : Nat) (s : Session) : Session :=
  let s := s.update h fun c => { c with ackOffset := offset }
  if (s.heap h).ackPending then s
  else if cfg.ackInterval ≤ 0 then s.sendAck cfg h offset
  else if (s.heap h).buffers ≠ [] then s
  else s.update h fun c => { c with ackTimer := true }

/-- The delayed acknowledgement is due. -/
def ackTimerFired (h : Nat) (s : Session) : Session :=
  if (s.heap h).ackTimer then s.sendAck cfg h (s.heap h).cumulativeAckLocked else s

/-! ### Receiving -/

/-- Put a buffer on the ring of a channel. -/
def push (h : Nat) (p : Bytes) (s : Session) : Session :=
  s.update h (Channel.push p)

/-- Whether a channel takes what it is fed. -/
def takes (h : Nat) (s : Session) : Bool :=
  !(s.heap h).closed && !s.closed

/-- Feed a buffer to a channel.  One that is closed does not take it, and without
retransmissions it says so to the peer. -/
def feed (h : Nat) (p : Bytes) (s : Session) : Session :=
  if s.takes h then s.push h p
  else if (s.heap h).closed ∧ ¬ cfg.reliability then s.resetPeer cfg false h
  else s

/-- Return the session credit of `n` bytes a channel did not take. -/
def dropFed (h n : Nat) (s : Session) : Session :=
  (s.update h fun c => { c with dropped := c.dropped + n }).creditSession cfg n

/-- Feed the chunk a channel waits for. -/
def feedNext (h : Nat) (p : Bytes) (s : Session) : Session :=
  let s' := s.feed cfg h p
  (if s.takes h then s' else s'.dropFed cfg h p.length).update h fun c =>
    { c with readOffset := c.readOffset + p.length }

/-- The chunk a channel waits for, if it came early. -/
def waiting (h : Nat) (s : Session) : Option Bytes :=
  (s.heap h).reorderMap.bind fun m => m.lookup (s.heap h).readOffset

/-- Feed the chunks that came early, as long as the one the channel waits for is among
them.  There are at most `fuel` of them. -/
def feedWaiting (cfg : SessionConfig) (h : Nat) : Nat → Session → Session
  | 0, s => s
  | fuel + 1, s =>
      match s.waiting h with
      | none => s
      | some p =>
          ((s.update h fun c =>
            { c with reorderMap := c.reorderMap.map (·.erase c.readOffset) }).feedNext cfg h
              p).feedWaiting cfg h fuel

/-- The number of chunks of a channel that came early. -/
def early (h : Nat) (s : Session) : Nat :=
  match (s.heap h).reorderMap with
  | some m => m.entries.length
  | none => 0

/-- Whether the stream a channel reads has come to its end. -/
def finished (h : Nat) (s : Session) : Bool :=
  (s.heap h).hasFin && decide ((s.heap h).finOffset ≤ (s.heap h).readOffset)

/-- End the stream a channel reads if it has come to its end. -/
def closeFinished (h : Nat) (s : Session) : Session :=
  if s.finished h then s.remoteClose cfg h else s

/-- Acknowledge a chunk of `length` bytes that came in order: at once when the stream has
ended, for every `streamingAckRatio`-th chunk, and for large chunks if so configured, and
later otherwise. -/
def ackInOrder (h length : Nat) (s : Session) : Session :=
  let offset := (s.heap h).cumulativeAckLocked
  if s.finished h ∨ cfg.streamingAckRatio ≤ 1 then s.sendAck cfg h offset
  else
    let n := ((s.heap h).inOrderPackets + 1) % 2 ^ 32
    let s := s.update h fun c => { c with inOrderPackets := n }
    if n % cfg.streamingAckRatio = 0
        ∨ cfg.maxFrameDataSize ≤ length ∧ cfg.immediateACKForLargePackets then
      s.sendAck cfg h offset
    else s.scheduleDelayedAck cfg h offset

/-- Feed the chunk a channel waits for, and those after it that came early. -/
def feedInOrder (h : Nat) (p : Bytes) (s : Session) : Session :=
  let s' := s.feedNext cfg h p
  let s' := if s.takes h then s' else s'.resetPeer cfg false h
  ((s'.feedWaiting cfg h (s'.early h)).ackInOrder cfg h p.length).closeFinished cfg h

/-- Keep a chunk that came early, unless it is too far ahead or here already. -/
def keepEarly (h offset : Nat) (p : Bytes) (s : Session) : Session :=
  s.update h fun c =>
    match c.reorderMap with
    | none => c
    | some m =>
        if cfg.maxReorderBytes < offset - c.readOffset then c
        else if (m.lookup offset).isSome then c
        else { c with reorderMap := some (m.insert offset p) }

/-- Feed a chunk of the stream a channel reads, in any order. -/
def feedReliablePayload (h offset : Nat) (p : Bytes) (s : Session) : Session :=
  let c := s.heap h
  if c.reorderMap.isNone then s.dropFed cfg h p.length
  else if offset + p.length ≤ c.readOffset then s.sendAck cfg h c.cumulativeAckLocked
  else if offset = c.readOffset then s.feedInOrder cfg h p
  else if c.readOffset < offset then
    (s.keepEarly cfg h offset p).sendAck cfg h c.cumulativeAckLocked
  else s.sendAck cfg h c.cumulativeAckLocked

/-- Note where the stream a channel reads ends. -/
def handleFinReliable (h finOffset : Nat) (s : Session) : Session :=
  if (s.heap h).reorderMap.isNone then s
  else
    let s := s.update h fun c => { c with hasFin := true, finOffset := finOffset }
    (s.sendAck cfg h (s.heap h).cumulativeAckLocked).closeFinished cfg h

/-! ### Sending again -/

/-- Forget the frames an acknowledgement covers. -/
def onAck (h ackOffset : Nat) (s : Session) : Session :=
  let old := (s.heap h).unacked
  let new := old.dropWhile fun f => decide (f.end_ ≤ ackOffset)
  let s' := s.update h fun c => { c with unacked := new }
  if new = [] ∧ old ≠ [] then
    let s' := if (s'.heap h).inARQ then s'.arqRemove h else s'
    (s'.update h fun c => { c with inARQ := false }).maybeFinalize cfg h
  else s'

/-- Go through unacknowledged frames at time `now`: the frames with the times of those that
are due set anew, the frames to send again, and whether one of them has been sent too
often. -/
def dueFrames (cfg : SessionConfig) (now : Int) :
    List UnackedFrame → List UnackedFrame × List UnackedFrame × Bool
  | [] => ([], [], false)
  | f :: fs =>
      if now - f.sentAt < cfg.retransmitTimeout * 2 ^ min f.retransmits 6 then
        let r := dueFrames cfg now fs
        (f :: r.1, r.2.1, r.2.2)
      else
        let g := { f with sentAt := now, retransmits := f.retransmits + 1 }
        if cfg.maxRetransmit < g.retransmits then (g :: fs, [], true)
        else
          let r := dueFrames cfg now fs
          (g :: r.1, g :: r.2.1, r.2.2)

/-- Queue frames of a channel to be sent again. -/
def sendRetransmissions (h : Nat) : List UnackedFrame → Session → Session
  | [], s => s
  | f :: fs, s =>
      match s.writeDataFrame (f.frame (s.heap h).id) with
      | some s => s.sendRetransmissions h fs
      | none => s

/-- Send again the frames of a channel that are due.  A channel of which a frame has been
sent too often is marked to be given up. -/
def checkRetransmissions (h : Nat) (s : Session) : Session :=
  let r := dueFrames cfg s.now (s.heap h).unacked
  (s.update h fun c => { c with unacked := r.1, giveUp := c.giveUp || r.2.2 }).sendRetransmissions h
    r.2.1

/-- Send again every unacknowledged frame of a channel. -/
def retransmitAllUnacked (h : Nat) (s : Session) : Session :=
  let fs := (s.heap h).unacked.map fun f => { f with sentAt := s.now }
  (s.update h fun c => { c with unacked := fs }).sendRetransmissions h fs

/-- The retransmission timer looks at the channel `h`. -/
def arqScan (h : Nat) (s : Session) : Session :=
  if (s.heap h).unacked = [] then
    ((s.arqRemove h).update h fun c => { c with inARQ := false }).maybeFinalize cfg h
  else s.checkRetransmissions cfg h

/-- The retransmission timer looks at every channel of a list. -/
def arqScanAll (cfg : SessionConfig) : List Nat → Session → Session
  | [], s => s
  | h :: hs, s => (s.arqScan cfg h).arqScanAll cfg hs

/-- A tick of the retransmission timer. -/
def arqTick (s : Session) : Session :=
  s.arqScanAll cfg s.arqSet

end Session

end Muxocket
