import Muxocket.Lib.Ownership
import Muxocket.Lib.Run
import Muxocket.Lib.Sums
import Muxocket.World

/-!
# The buffers of received frames

A frame that is received is in a buffer taken from the allocator.  On its way the buffer is kept
by the stash of the session, by the map of early chunks or the ring of a channel, or by the
operation under way, until it is put back.  Some branches put it back where the frame is refused,
and some leave that to their caller.

Here an operation is a list of tasks, each of which has the buffers it works with.  A step does
what the first task does and replaces it by the tasks that are left of it.  An operation begins
when nothing is left of the one before it.  Buffers are numbered in the order in which they are
taken; a buffer that is put back and taken again has then another number.  Where the code puts
buffers back before it forgets the entries that refer to them, both under a lock, the entries are
forgotten first.  When a channel has ended its writing side, and when a reader is at work and has
its lock, is up to the surroundings.
-/

namespace Muxocket

namespace Buffers

/-- A slot of a ring: what is left to read in a buffer. -/
structure Slot where
  length : Nat
  head : Nat
deriving DecidableEq, Repr

/-- A chunk that came early. -/
structure ReorderFrame where
  length : Nat
  head : Nat
deriving DecidableEq, Repr

/-- A frame in the stash. -/
structure PendingFrame where
  flag : Flag
  offset : Nat := 0
  length : Nat := 0
  pBuf : Option Nat := none
deriving DecidableEq, Repr

/-- The frames stashed for a channel. -/
structure PendingQueue where
  frames : List PendingFrame
  expires : Int
deriving DecidableEq, Repr

/-- The receiving side of a channel. -/
structure Channel where
  id : Nat
  closed : Bool := false
  readDone : Bool := false
  drainable : Bool := false
  /-- The ring has been drained, which is done once. -/
  drained : Bool := false
  done : Bool := false
  /-- The stream the channel writes has been ended, and all of it acknowledged. -/
  writeEnded : Bool := false
  reorderMap : Option (AList fun _ : Nat => ReorderFrame) := some ∅
  readOffset : Nat := 0
  hasFin : Bool := false
  finOffset : Nat := 0
  /-- The slots of the ring, unless it is closed. -/
  ring : Option (List Slot) := some []

/-- The buffers of the chunks that came early. -/
def Channel.early (c : Channel) : List Nat :=
  match c.reorderMap with
  | none => []
  | some m => m.entries.map fun e => e.2.head

/-- A frame as it arrives. -/
structure Arrival where
  flag : Flag
  id : Nat := 0
  offset : Nat := 0
  length : Nat := 0
deriving DecidableEq, Repr

/-- Who puts back a buffer a channel refuses. -/
inductive OnError where
  /-- `feedPayload` does. -/
  | callee
  /-- The caller of `feed` does. -/
  | caller
  /-- The caller of `feed` does not. -/
  | nobody
deriving DecidableEq, Repr

/-- What is left to do of an operation. -/
inductive Task where
  | put (b : Nat)
  /-- Put back the buffers of frames of the stash. -/
  | release (frames : List PendingFrame)
  /-- Put back the buffers of the chunks that came early. -/
  | putAll (bs : List Nat)
  /-- A frame with data on a stream transport has been read into `b`. -/
  | data (id offset length b : Nat)
  /-- The frames of a datagram from one on.  `first` says that it is the first, `whole` that the
  last of them ends where the datagram ends; a frame with an unknown flag is `none`. -/
  | datagram (b : Nat) (first whole : Bool) (frames : List (Option Arrival))
  | fin (id offset : Nat)
  | rst (id offset : Nat)
  | stash (id : Nat) (f : PendingFrame)
  /-- Drop what has expired of the queues with the given identifiers. -/
  | prune (ids : List Nat)
  | deliverPending (h : Nat) (frames : List PendingFrame)
  | feed (onError : OnError) (h length b : Nat)
  | feedReliable (h offset length b : Nat)
  /-- Feed the chunks that came early and are now waited for. -/
  | feedWaiting (h : Nat)
  /-- End the stream a channel reads if all of it has been fed. -/
  | closeFinished (h : Nat)
  | handleFin (h offset : Nat)
  | remoteClose (h : Nat)
  | maybeFinalize (h : Nat)
  | finalize (h : Nat)
  | closeRing (h : Nat)
  | removeChannelIf (h : Nat)
  /-- Remember that a channel has been closed, after the stash has been looked at. -/
  | remember (id : Nat)
  /-- Remember it, after the stash has been pruned. -/
  | note (id : Nat)
  | drainRing (h : Nat)
  /-- Pop what is on the ring, and close it. -/
  | popAll (h : Nat)
  | partialRead (h n : Nat)
  | localClose (h : Nat) (busy : Bool)
  | peerGone (h : Nat)
  | closeSession (graceful : Bool) (busy : List Nat)
deriving DecidableEq, Repr

/-- A session: its channels, the stash, the number of buffers taken from the allocator, those put
back, and what is left to do of the operation under way. -/
structure State where
  now : Int := 0
  closed : Bool := false
  channels : AList fun _ : Nat => Nat := ∅
  heap : List Channel := []
  pending : AList fun _ : Nat => PendingQueue := ∅
  closedIDs : AList fun _ : Nat => Int := ∅
  next : Nat := 0
  returned : List Nat := []
  work : List Task := []

namespace State

variable (cfg : SessionConfig)

/-- Go on with some tasks. -/
def push (ts : List Task) (s : State) : State :=
  { s with work := ts ++ s.work }

/-- Change a channel. -/
def set (h : Nat) (c : Channel) (s : State) : State :=
  { s with heap := s.heap.set h c }

/-- Take a buffer from the allocator. -/
def get (s : State) : State :=
  { s with next := s.next + 1 }

/-- Whether a channel was closed recently. -/
def recentlyClosed (id : Nat) (s : State) : Bool :=
  match s.closedIDs.lookup id with
  | some t => decide (s.now ≤ t)
  | none => false

/-- The bytes in the stash. -/
def pendingBytes (s : State) : Nat :=
  (s.pending.entries.map fun e => (e.2.frames.map PendingFrame.length).sum).sum

/-- Whether the limits, which are below `2 ^ 63`, leave room for one more frame in the stash. -/
def hasRoom (id : Nat) (f : PendingFrame) (s : State) : Bool :=
  (match s.pending.lookup id with
    | some q => decide (q.frames.length < cfg.maxPendingEarlyFramesPerSession)
    | none => decide (s.pending.entries.length < cfg.maxPendingChannels))
  && decide (s.pendingBytes + f.length ≤ cfg.maxPendingEarlyBytesPerSession)

/-- Keep a frame in the stash. -/
def keepPending (id : Nat) (f : PendingFrame) (s : State) : State :=
  let q := (s.pending.lookup id).getD ⟨[], s.now + cfg.pendingEarlyFramesTTL⟩
  { s with pending := s.pending.insert id { q with frames := q.frames ++ [f] } }

/-- Prune the stash, and go on with some tasks. -/
def pruneThen (ts : List Task) (s : State) : State :=
  s.push (.prune s.pending.keys :: ts)

/-- Put a buffer on the ring of a channel.  A closed ring puts it back. -/
def ringPush (h : Nat) (c : Channel) (length b : Nat) (s : State) : State :=
  match c.ring with
  | none => s.push [.put b]
  | some slots => s.set h { c with ring := some (slots ++ [⟨length, b⟩]) }

/-- A channel is fed a buffer it may refuse. -/
def feed (onError : OnError) (h length b : Nat) (s : State) : State :=
  match s.heap[h]? with
  | none => s
  | some c =>
      if c.closed ∨ s.closed then
        match onError with
        | .callee | .caller => s.push [.put b]
        | .nobody => s
      else s.ringPush h c length b

/-- A reliable channel is fed a chunk of the stream it reads, in any order. -/
def feedReliablePayload (h offset length b : Nat) (s : State) : State :=
  match s.heap[h]? with
  | none => s
  | some c =>
      match c.reorderMap with
      | none => s.push [.put b]
      | some m =>
          if offset + length ≤ c.readOffset then s.push [.put b]
          else if offset = c.readOffset then
            (s.set h { c with readOffset := c.readOffset + length }).push
              [.feed .callee h length b, .feedWaiting h, .closeFinished h]
          else if c.readOffset < offset then
            if cfg.maxReorderBytes < offset - c.readOffset then s.push [.put b]
            else if (m.lookup offset).isSome then s.push [.put b]
            else s.set h { c with reorderMap := some (m.insert offset ⟨length, b⟩) }
          else s.push [.put b]

/-- Feed the next of the chunks that came early, if it is waited for. -/
def feedWaiting (h : Nat) (s : State) : State :=
  match s.heap[h]? with
  | none => s
  | some c =>
      match c.reorderMap with
      | none => s
      | some m =>
          match m.lookup c.readOffset with
          | none => s
          | some f =>
              (s.set h
                { c with
                  reorderMap := some (m.erase c.readOffset)
                  readOffset := c.readOffset + f.length }).push
                [.feed .callee h f.length f.head, .feedWaiting h]

/-- The end of the stream a channel reads. -/
def handleFin (h offset : Nat) (s : State) : State :=
  match s.heap[h]? with
  | none => s
  | some c =>
      if cfg.reliability then
        if c.reorderMap.isNone then s
        else
          (s.set h { c with hasFin := true, finOffset := offset }).push
            (if offset ≤ c.readOffset then [.remoteClose h] else [])
      else s.push [.remoteClose h]

/-- Finalize a channel, once. -/
def finalize (h : Nat) (s : State) : State :=
  match s.heap[h]? with
  | none => s
  | some c =>
      if c.done then s
      else
        (s.set h { c with done := true, reorderMap := none }).push
          [.putAll c.early, .closeRing h, .removeChannelIf h]

/-- Close the ring of a channel, unless the application may still read what is in it. -/
def closeRing (h : Nat) (s : State) : State :=
  match s.heap[h]? with
  | none => s
  | some c =>
      if c.drainable = false ∨ c.ring = some [] then s.set h { c with ring := none } else s

/-- Forget a channel that is finalized, unless a newer channel has taken its identifier, and drop
what is stashed for it. -/
def removeChannelIf (h : Nat) (s : State) : State :=
  match s.heap[h]? with
  | none => s
  | some c =>
      if s.channels.lookup c.id = some h then
        let s := { s with channels := s.channels.erase c.id }
        match s.pending.lookup c.id with
        | none => s.push [.remember c.id]
        | some q =>
            { s with pending := s.pending.erase c.id }.push [.release q.frames, .remember c.id]
      else s

/-- Forget the closed identifier that expires first, if there are too many. -/
def evictFull (s : State) : State :=
  if maxClosedIDs ≤ s.closedIDs.entries.length then
    match Session.oldest s.closedIDs.entries with
    | none => s
    | some e => { s with closedIDs := s.closedIDs.erase e.1 }
  else s

/-- Drop the next of some queues of the stash, if it has expired. -/
def prune (ids : List Nat) (s : State) : State :=
  match ids with
  | [] => { s with closedIDs := Session.unexpired s.now s.closedIDs.entries s.closedIDs }
  | id :: ids =>
      match s.pending.lookup id with
      | none => s.push [.prune ids]
      | some q =>
          if q.expires < s.now then
            { s with pending := s.pending.erase id }.push [.release q.frames, .prune ids]
          else s.push [.prune ids]

/-- Deliver the next of the frames stashed for a channel. -/
def deliverPending (cfg : SessionConfig) (h : Nat) (frames : List PendingFrame) (s : State) :
    State :=
  match frames with
  | [] => s
  | f :: frames =>
      match f.flag, f.pBuf with
      | .data, some b =>
          s.push
            [if cfg.reliability then .feedReliable h f.offset f.length b
              else .feed .caller h f.length b,
              .deliverPending h frames]
      | .fin, _ => s.push [.handleFin h f.offset, .deliverPending h frames]
      | .rst, _ => s.push [.maybeFinalize h, .deliverPending h frames]
      | _, _ => s.push [.deliverPending h frames]

/-- Read up to `n` bytes. -/
def partialRead (h n : Nat) (s : State) : State :=
  match s.heap[h]? with
  | none => s
  | some c =>
      match c.ring with
      | none | some [] => s
      | some (slot :: slots) =>
          if slot.length = 0 then
            (s.set h { c with ring := some slots }).push [.put slot.head]
          else if n < slot.length then
            s.set h { c with ring := some ({ slot with length := slot.length - n } :: slots) }
          else
            (s.set h { c with ring := some slots }).push
              [.put slot.head, .partialRead h (n - slot.length)]

/-- Pop what is on the ring of a channel, and close it. -/
def popAll (h : Nat) (s : State) : State :=
  match s.heap[h]? with
  | none => s
  | some c =>
      match c.ring with
      | none | some [] => s.set h { c with ring := none }
      | some (slot :: slots) =>
          (s.set h { c with ring := some slots }).push [.put slot.head, .popAll h]

/-- The next frame of a datagram.  A frame that is all of the datagram takes its buffer along;
another is copied.  A goodbye and an unknown flag end the loop, and the buffer is lost. -/
def datagram (cfg : SessionConfig) (b : Nat) (first whole : Bool)
    (frames : List (Option Arrival)) (s : State) : State :=
  match frames with
  | [] => s.push [.put b]
  | none :: _ => s
  | some f :: frames =>
      let rest := .datagram b false whole frames
      match f.flag with
      | .data =>
          match s.channels.lookup f.id with
          | none => s.push [rest]
          | some h =>
              if f.length = 0 then s.push [rest]
              else if first ∧ whole ∧ frames = [] then
                s.push
                  [if cfg.reliability then .feedReliable h f.offset f.length b
                    else .feed .callee h f.length b]
              else
                s.get.push
                  [if cfg.reliability then .feedReliable h f.offset f.length s.next
                    else .feed .nobody h f.length s.next,
                    rest]
      | .fin => s.push [.fin f.id f.offset, rest]
      | .rst => s.push [.rst f.id f.offset, rest]
      | .goaway => s.push [.closeSession true []]
      | _ => s.push [rest]

/-- What there is to do about the stash when the session is closed. -/
def dropStash (s : State) : List Task :=
  s.pending.entries.map fun e => .release e.2.frames

/-- What there is to do about the channels when the session is closed. -/
def endChannels (graceful : Bool) (busy : List Nat) (s : State) : List Task :=
  s.channels.entries.map fun e =>
    if graceful then .peerGone e.2 else .localClose e.2 (decide (e.2 ∈ busy))

/-- Close the session: what is stashed is dropped, and the channels are ended. -/
def closeSession (graceful : Bool) (busy : List Nat) (s : State) : State :=
  if s.closed then s
  else
    { s with closed := true, channels := ∅, pending := ∅, closedIDs := ∅ }.push
      (s.dropStash ++ s.endChannels graceful busy)

/-- Change a channel, if there is one, and go on with some tasks. -/
def modify (h : Nat) (f : Channel → Channel) (ts : List Task) (s : State) : State :=
  match s.heap[h]? with
  | none => s
  | some c => (s.set h (f c)).push ts

/-- What a task does. -/
def run (s : State) : Task → State
  | .put b => { s with returned := b :: s.returned }
  | .release [] => s
  | .release (f :: frames) => s.push (f.pBuf.toList.map Task.put ++ [.release frames])
  | .putAll [] => s
  | .putAll (b :: bs) => s.push [.put b, .putAll bs]
  | .data id offset length b =>
      match s.channels.lookup id with
      | some h =>
          s.push
            [if cfg.reliability then .feedReliable h offset length b
              else .feed .caller h length b]
      | none =>
          if s.closed ∨ s.recentlyClosed id then s.push [.put b]
          else s.pruneThen [.stash id ⟨.data, offset, length, some b⟩]
  | .datagram b first whole frames => s.datagram cfg b first whole frames
  | .fin id offset =>
      match s.channels.lookup id with
      | some h => s.push [.handleFin h offset]
      | none =>
          if s.closed ∨ s.recentlyClosed id then s
          else s.pruneThen [.stash id ⟨.fin, offset, 0, none⟩]
  | .rst id offset =>
      match s.channels.lookup id with
      | some h => s.push [.maybeFinalize h]
      | none =>
          if s.closed ∨ (s.pending.lookup id).isNone ∨ s.recentlyClosed id then s
          else s.pruneThen [.stash id ⟨.rst, offset, 0, none⟩]
  | .stash id f =>
      if s.hasRoom cfg id f then s.keepPending cfg id f else s.push (f.pBuf.toList.map Task.put)
  | .prune ids => s.prune ids
  | .deliverPending h frames => s.deliverPending cfg h frames
  | .feed onError h length b => s.feed onError h length b
  | .feedReliable h offset length b => s.feedReliablePayload cfg h offset length b
  | .feedWaiting h => s.feedWaiting h
  | .closeFinished h =>
      match s.heap[h]? with
      | none => s
      | some c => if c.hasFin ∧ c.finOffset ≤ c.readOffset then s.push [.remoteClose h] else s
  | .handleFin h offset => s.handleFin cfg h offset
  | .remoteClose h =>
      s.modify h (fun c => { c with drainable := true, readDone := true }) [.maybeFinalize h]
  | .maybeFinalize h =>
      match s.heap[h]? with
      | none => s
      | some c => if c.writeEnded ∧ c.readDone then s.push [.finalize h] else s
  | .finalize h => s.finalize h
  | .closeRing h => s.closeRing h
  | .removeChannelIf h => s.removeChannelIf h
  | .remember id =>
      if cfg.reliability then
        if maxClosedIDs ≤ s.closedIDs.entries.length then s.pruneThen [.note id]
        else s.push [.note id]
      else s
  | .note id =>
      let s := s.evictFull
      { s with closedIDs := s.closedIDs.insert id (s.now + cfg.closedChannelFrameLingerTTL) }
  | .drainRing h =>
      match s.heap[h]? with
      | none => s
      | some c => if c.drained then s else (s.set h { c with drained := true }).push [.popAll h]
  | .popAll h => s.popAll h
  | .partialRead h n => s.partialRead h n
  | .localClose h busy =>
      match s.heap[h]? with
      | none => s
      | some c =>
          (s.set h { c with closed := true, readDone := true, writeEnded := true }).push
            (if c.drainable ∨ busy then [.finalize h] else [.drainRing h, .finalize h])
  | .peerGone h =>
      s.modify h (fun c => { c with drainable := true, readDone := true, writeEnded := true })
        [.finalize h]
  | .closeSession graceful busy => s.closeSession graceful busy

end State

/-- What the receiving side of a session is asked to do. -/
inductive Event where
  /-- The operation under way goes on. -/
  | advance
  /-- A frame arrives on a stream transport.  `ok` says whether all of its payload does. -/
  | stream (f : Arrival) (ok : Bool)
  /-- A datagram arrives. -/
  | datagram (whole : Bool) (frames : List (Option Arrival))
  | openChannel (id : Nat)
  /-- `Read`: up to `n` bytes are read. -/
  | read (h n : Nat)
  /-- `WriteTo`: of the first buffer on the ring `n` bytes are written and consumed. -/
  | writeTo (h n : Nat)
  /-- `WriteTo` looks at the ring once more before it waits, and drops an empty buffer. -/
  | peek (h : Nat)
  /-- `Read` or `WriteTo` finds the end of the stream, and closes the ring. -/
  | eof (h : Nat)
  /-- A reader that gives up drains the ring. -/
  | abort (h : Nat)
  /-- `Close`.  `busy` says that a reader has the lock. -/
  | close (h : Nat) (busy : Bool)
  /-- A channel is given up. -/
  | localClose (h : Nat) (busy : Bool)
  /-- The writing side of a channel has ended, or has not. -/
  | writeEnded (h : Nat) (ended : Bool)
  | pruneExpiredPending
  | closeSession (busy : List Nat)
  | tick (n : Nat)
deriving Repr

namespace State

/-- What an operation begins with. -/
def start (cfg : SessionConfig) (s : State) : Event → State
  | .advance => s
  | .stream f ok =>
      if s.closed then s
      else
        match f.flag with
        | .data =>
            if f.length = 0 ∨ cfg.maxFrameDataSize < f.length ∨ maxAllocSize < f.length then s
            else if ok then s.get.push [.data f.id f.offset f.length s.next]
            else s.get.push [.put s.next]
        | .fin => s.push [.fin f.id f.offset]
        | .rst => if f.length = 0 then s.push [.rst f.id f.offset] else s
        | .goaway => s.push [.closeSession true []]
        | _ => s
  | .datagram whole frames =>
      if s.closed then s else s.get.push [.datagram s.next true whole frames]
  | .openChannel id =>
      if s.closed ∨ (s.channels.lookup id).isSome then s
      else
        let h := s.heap.length
        let s' :=
          { s with
            heap := s.heap ++ [{ id := id }]
            channels := s.channels.insert id h
            closedIDs := s.closedIDs.erase id }
        match s.pending.lookup id with
        | none => s'
        | some q =>
            { s' with pending := s.pending.erase id }.push
              [if q.expires < s.now then .release q.frames else .deliverPending h q.frames]
  | .read h n => s.push [.partialRead h n]
  | .writeTo h n =>
      match s.heap[h]? with
      | none => s
      | some c =>
          match c.ring with
          | none | some [] => s
          | some (slot :: slots) =>
              if slot.length ≤ n then
                (s.set h { c with ring := some slots }).push [.put slot.head]
              else
                s.set h { c with ring := some ({ slot with length := slot.length - n } :: slots) }
  | .peek h =>
      match s.heap[h]? with
      | none => s
      | some c =>
          match c.ring with
          | none | some [] => s
          | some (slot :: slots) =>
              if slot.length = 0 then s.set h { c with ring := some slots } else s
  | .eof h =>
      match s.heap[h]? with
      | none => s
      | some c => if c.readDone ∧ c.ring = some [] then s.set h { c with ring := none } else s
  | .abort h =>
      match s.heap[h]? with
      | none => s
      | some c =>
          if c.closed ∨ s.closed ∧ c.drainable = false then s.push [.drainRing h] else s
  | .close h busy =>
      match s.heap[h]? with
      | none => s
      | some c =>
          (s.set h { c with closed := true }).push
            (if c.closed ∨ busy then [.maybeFinalize h] else [.drainRing h, .maybeFinalize h])
  | .localClose h busy => s.push [.localClose h busy]
  | .writeEnded h ended =>
      s.modify h (fun c => { c with writeEnded := ended }) [.maybeFinalize h]
  | .pruneExpiredPending => s.pruneThen []
  | .closeSession busy => s.push [.closeSession false busy]
  | .tick n => { s with now := s.now + n }

/-- A step of a session: the operation under way goes on, or the next begins. -/
def step (cfg : SessionConfig) (s : State) (e : Event) : Option State :=
  match s.work, e with
  | t :: work, .advance => some ({ s with work := work }.run cfg t)
  | [], .advance | _ :: _, _ => none
  | [], e => some (s.start cfg e)

end State

end Buffers

end Muxocket
