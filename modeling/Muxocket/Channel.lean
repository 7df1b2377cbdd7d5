import Muxocket.Reliability

/-!
# Opening, writing and reading channels

The operations of the application on its channels.  A channel is opened by its label,
which is coded into the identifier its frames carry.  The loop of `Write`, and that of
`ReadFrom`, cuts what it is given into chunks as the credit allows; `writeChunk` is one
turn of it, which waits while there is no credit.
-/

namespace Muxocket

/-! ### Labels -/

/-- The value of a character of a label. -/
def labelDigit (c : UInt8) : Option Nat :=
  if 48 ≤ c.toNat ∧ c.toNat ≤ 57 then some (c.toNat - 48)
  else if 97 ≤ c.toNat ∧ c.toNat ≤ 122 then some (c.toNat - 97 + 10)
  else if 65 ≤ c.toNat ∧ c.toNat ≤ 90 then some (c.toNat - 65 + 10)
  else none

/-- The identifier of a label whose first characters have the value `n`. -/
def labelValue (n : Nat) : Bytes → Option Nat
  | [] => some n
  | c :: label => (labelDigit c).bind fun val => labelValue ((n * 36 + val + 1) % 2 ^ 32) label

/-- The identifier of a label. -/
def stringToUint32 (label : Bytes) : Option Nat :=
  if label.length = 0 ∨ 6 < label.length then none else labelValue 0 label

namespace Session

variable (cfg : SessionConfig)

/-! ### Opening -/

/-- Feed a buffer to a channel without retransmissions, and return its session credit if
the channel does not take it. -/
def feedOrCredit (h : Nat) (p : Bytes) (s : Session) : Session :=
  let s' := s.feed cfg h p
  if s.takes h then s'
  else
    (s'.update h fun c => { c with dropped := c.dropped + p.length }).creditDiscarded cfg p.length

/-- A frame of data for an open channel. -/
def receiveData (h offset : Nat) (p : Bytes) (s : Session) : Session :=
  if cfg.reliability then s.feedReliablePayload cfg h offset p else s.feedOrCredit cfg h p

/-- The frame that ends the stream an open channel reads. -/
def receiveEnd (h offset : Nat) (s : Session) : Session :=
  if cfg.reliability then s.handleFinReliable cfg h offset else s.remoteClose cfg h

/-- An early frame for a channel that has been opened now. -/
def deliver (h : Nat) (f : PendingFrame) (s : Session) : Session :=
  match f.flag with
  | .data => s.receiveData cfg h f.offset f.data
  | .fin => s.receiveEnd cfg h f.offset
  | .rst => s.peerReset cfg false h
  | _ => s

/-- The early frames of a channel, in the order they came. -/
def deliverPending (cfg : SessionConfig) (h : Nat) : List PendingFrame → Session → Session
  | [], s => s
  | f :: frames, s => (s.deliver cfg h f).deliverPending cfg h frames

/-- Put a new channel in the table. -/
def publish (id : Nat) (s : Session) : Session :=
  { s with heap := Function.update s.heap s.next (newChannel cfg id)
           next := s.next + 1
           channels := Function.update s.channels id (some s.next)
           closedIDs := s.closedIDs.erase id }

/-- Open a channel under an identifier, and deliver the early frames kept for it. -/
def openID (id : Nat) (s : Session) : Option Session :=
  if s.closed ∨ (s.channels id).isSome then none
  else
    match s.pending.lookup id with
    | none => some (s.publish cfg id)
    | some q =>
        if q.expires < s.now then some ((s.releasePendingLocked cfg id q).publish cfg id)
        else
          let s' := { s with pendingBytes := s.pendingBytes - q.bytes
                             pending := s.pending.erase id }
          some ((s'.publish cfg id).deliverPending cfg s.next q.frames)

/-- Open a channel by its label. -/
def openChannel (label : Bytes) (s : Session) : Option Session :=
  (stringToUint32 label).bind fun id => s.openID cfg id

/-! ### Writing -/

/-- What a writer gets who asks for credit: credit, with the session it was taken from, or
the news that there is none now, or that the channel does not take data any more. -/
inductive Acquired where
  | granted (sz : Nat) (s : Session)
  | wait
  | closed

/-- Take credit for at most `desired` bytes, from the window of the session first. -/
def acquireCredits (h desired : Nat) (s : Session) : Acquired :=
  let c := s.heap h
  if c.closed ∨ c.writeClosed ∨ s.closed then .closed
  else
    match grantedCredits c.flow s.flow (int32 desired) with
    | none => .wait
    | some take =>
        let session := if s.flow.enabled then s.flow.tryDeduct take else some s.flow.toFlow
        match session, c.flow.tryDeduct take with
        | some ss, some sf =>
            .granted take.toNat
              ({ s with flow := { s.flow with toFlow := ss } }.update h fun c =>
                { c with flow := sf })
        | _, _ => .wait

/-- Give back credit to both windows. -/
def refund (h n : Nat) (s : Session) : Session :=
  let s := s.update h fun c => { c with flow := c.flow.refund (int32 n) }
  if s.flow.enabled then { s with flow := { s.flow with toFlow := s.flow.refund (int32 n) } } else s

/-- Send a chunk of the stream a channel writes. -/
def queueDataLocked (h : Nat) (p : Bytes) (s : Session) : Session :=
  let c := s.heap h
  let s := s.update h fun c =>
    { c with writeOffset := c.writeOffset + p.length, sent := c.sent ++ [p] }
  let s :=
    if cfg.reliability then
      s.registerUnacked h
        { offset := c.writeOffset, data := p, fin := false, sentAt := s.now, retransmits := 0 }
    else s
  match s.writeDataFrame (dataFrame c.id c.writeOffset p) with
  | some s => s
  | none => s.refund h p.length

/-- One turn of the loop of `Write`, or of `ReadFrom`, with the bytes `b` still to send. -/
def writeChunk (h : Nat) (b : Bytes) (s : Session) : Option Session :=
  if b = [] then none
  else
    match s.acquireCredits h (min b.length cfg.maxFrameDataSize) with
    | .granted sz s => some (s.queueDataLocked cfg h (b.take sz))
    | .wait => none
    | .closed => none

/-! ### Reading -/

/-- Whether the application may not read from a channel any more. -/
def readAborted (h : Nat) (s : Session) : Bool :=
  (s.heap h).closed || (s.closed && !(s.heap h).drainable)

/-- At most `n` bytes of a list of buffers, and what is left of the buffers. -/
def takeBytes : Nat → List Bytes → Bytes × List Bytes
  | _, [] => ([], [])
  | n, b :: bufs =>
      if b.length ≤ n then
        let r := takeBytes (n - b.length) bufs
        (b ++ r.1, r.2)
      else (b.take n, b.drop n :: bufs)

/-- What reading from a channel gives. -/
inductive ReadResult where
  | data (p : Bytes)
  | eof
  | closedPipe
  | wait
deriving DecidableEq, Repr

/-- The application takes the bytes `p` from a channel, whose ring then holds `bufs`. -/
def consumeRing (h : Nat) (p : Bytes) (bufs : List Bytes) (s : Session) : Session :=
  (s.update h fun c =>
    { c with ring := some bufs, delivered := c.delivered ++ p }).streamOnRead cfg h p.length

/-- Read at most `n` bytes from a channel. -/
def Read (h n : Nat) (s : Session) : ReadResult × Session :=
  if n = 0 then (.data [], s)
  else if s.readAborted h then (.closedPipe, s)
  else
    let r := takeBytes n (s.heap h).buffers
    if r.1 ≠ [] then (.data r.1, s.consumeRing cfg h r.1 r.2)
    else if (s.heap h).readDone then (.eof, s.update h fun c => { c with ring := none })
    else (.wait, s)

/-- One turn of the loop of `WriteTo`, of whose oldest buffer the writer accepts `n`
bytes. -/
def writeToChunk (h n : Nat) (s : Session) : Session :=
  if s.readAborted h then s
  else
    match (s.heap h).buffers with
    | [] => s
    | b :: bufs =>
        if n = 0 then s
        else if n < b.length then s.consumeRing cfg h (b.take n) (b.drop n :: bufs)
        else s.consumeRing cfg h b bufs

end Session

end Muxocket
