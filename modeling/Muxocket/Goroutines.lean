import Muxocket.Flow
import Muxocket.Lib.Locks
import Muxocket.Lib.Run

/-!
# The goroutines of a session

`readLoop`, `arqLoop` and the goroutines of the application as processes that wait for each
other.  A process waits for a lock: `readMu`, `feedMu` or `writeMu` of a channel, or the end of
a call of `finalize` or of `Session.Close` another process is in.  It also waits for the
notification of a reader, for credit, and for the writer that `WriteTo` was given.  A process is
a stack of tasks, the calls it is in, with the current one on top.  What a process does between
two places where it may wait is a few steps.

The writer that `WriteTo` was given may be anything: a file, a pipe that another goroutine reads
from, or a wrapper of a channel.  There, and between its calls, a goroutine may wait for any other
process, or for a frame.  A call that such a writer makes is made by another goroutine, for which
the first one waits.

Of the channels we keep what decides who waits.  The ring is the number of its buffers, and
whether a frame completes a stream with retransmissions is part of the frame.
-/

namespace Muxocket

namespace Goroutines

/-- The locks: the mutexes of a channel, its `finalizeOnce`, and `closeOnce` of the session. -/
inductive Mutex where
  | readMu (h : Nat)
  | feedMu (h : Nat)
  | writeMu (h : Nat)
  | finalizeOnce (h : Nat)
  | closeOnce
deriving DecidableEq, Repr

/-- The processes: the two loops of the session, and the goroutines that the application, the
timers and the session start. -/
inductive Proc where
  | readLoop
  | arqLoop
  | goroutine (n : Nat)
deriving DecidableEq, Repr

/-- A channel.  `listed` says that it is in the table of the session, `known` that `OpenChannel`
has returned it, `finWaiting` that a goroutine has been started to end its stream, `giveUp` that
one has been started to close it, and `cleaned` that `finalize` has released what is kept for
retransmission. -/
structure Channel where
  listed : Bool := false
  known : Bool := false
  ring : Nat := 0
  notify : Bool := false
  waitState : Bool := false
  closed : Bool := false
  readDone : Bool := false
  drainable : Bool := false
  writeClosed : Bool := false
  finQueued : Bool := false
  finWaiting : Bool := false
  closeTimer : Bool := false
  giveUp : Bool := false
  unacked : Nat := 0
  cleaned : Bool := false
  finalized : Bool := false
  flow : Flow
  winNotify : Bool := false

/-- What the processes share.  The channels from `next` on have not been opened, and are as
`newChannel` makes them but for the table.  `closed` says that the session is closed, and `ended`
that a call of `Session.Close` has returned. -/
structure Data where
  heap : Nat → Channel
  next : Nat
  flow : SessionFlow
  closed : Bool
  goAwayRecv : Bool
  ended : Bool

namespace Data

/-- Change a channel. -/
def update (h : Nat) (f : Channel → Channel) (d : Data) : Data :=
  { d with heap := Function.update d.heap h (f (d.heap h)) }

/-- Whether reading from a channel has become pointless. -/
def readAborted (h : Nat) (d : Data) : Bool :=
  (d.heap h).closed || (d.closed && !(d.heap h).drainable)

/-- Whether a `Write` to a channel fails at once. -/
def writeAborted (h : Nat) (d : Data) : Bool :=
  (d.heap h).closed || (d.heap h).writeClosed || d.closed

/-- Put buffers on the ring of a channel, and wake the reader that waits for them. -/
def feed (h n : Nat) (d : Data) : Data :=
  if (d.heap h).closed || d.closed then d
  else d.update h fun c => { c with ring := c.ring + n, notify := c.notify || c.waitState }

/-- The end of the stream of a channel is registered and queued. -/
def sendFin (cfg : SessionConfig) (h : Nat) (d : Data) : Data :=
  d.update h fun c =>
    { c with finQueued := true, unacked := if cfg.reliability then c.unacked + 1 else c.unacked }

/-- Discard what has not been read from a channel, unless its ring is in use. -/
def tryDrainRing (busy : Mutex → Bool) (h : Nat) (d : Data) : Data :=
  if busy (.readMu h) then d else d.update h fun c => { c with ring := 0 }

/-- The channels in the table. -/
def active (d : Data) : List Nat :=
  (List.range d.next).filter fun h => (d.heap h).listed

end Data

/-- An early frame: what it puts on the ring, and whether it completes the stream, with
retransmissions. -/
inductive Early where
  | data (fed : Nat) (whole : Bool)
  | fin (whole : Bool)
  | rst
deriving DecidableEq, Repr

/-- What `WriteTo` writes to: a channel of the same session, or another writer. -/
inductive Sink where
  | channel (h : Nat)
  | other
deriving DecidableEq, Repr

/-- A call that reads from a channel. -/
inductive Call where
  | read
  | writeTo (w : Sink)
deriving DecidableEq, Repr

/-- The tasks of processes. -/
inductive Task where
  | unlock (m : Mutex)
  /-- The loop that reads frames. -/
  | onData (h fed : Nat) (whole : Bool)
  | onFin (h : Nat) (whole : Bool)
  | onAck (h n : Nat)
  | addCredits (h delta : Nat)
  | addSessionCredits (delta : Nat)
  | peerReset (h : Nat)
  | deliver (h : Nat) (f : Early)
  /-- The end of a channel. -/
  | remoteClose (h : Nat)
  | wakeReader (h : Nat)
  | wakeWriter (h : Nat)
  | maybeFinalize (h : Nat)
  | finalize (h : Nat)
  | takeRing (h : Nat)
  | closeRing (h : Nat)
  | remove (h : Nat)
  | closeWrite (h : Nat)
  | lateFin (h : Nat)
  | sendFin (h : Nat)
  | closeChannel (h : Nat)
  | localClose (h : Nat)
  | shut (h : Nat)
  | endRead (h : Nat)
  | tryDrain (h : Nat)
  | peerGone (h : Nat)
  | closeSession
  | sessionEnd
  /-- The application opens a channel, and early frames are delivered to it. -/
  | openChannel (frames : List Early)
  | publish (h : Nat)
  /-- The application reads.  `saw` says that the reader has seen the end of the stream once. -/
  | read (h : Nat) (call : Call)
  | scan (h : Nat) (call : Call) (saw : Bool)
  | park (h : Nat) (call : Call) (saw : Bool)
  | recheck (h : Nat) (call : Call) (saw : Bool)
  | confirm (h : Nat) (call : Call) (saw : Bool)
  | select (h : Nat) (call : Call) (saw : Bool)
  | output (h : Nat) (saw : Bool)
  | passed (h dst : Nat) (saw : Bool)
  | drainAborted (h : Nat)
  /-- The application writes. -/
  | write (h n : Nat)
  | acquire (h n : Nat)
  | awaitCredit (h n : Nat)
deriving DecidableEq, Repr

/-- The process is in the `Write` of a writer that is not a channel of this session. -/
def Task.isOutput : Task → Bool
  | .output _ _ => true
  | _ => false

/-- What a task does: what becomes of the shared data, the tasks it leads to, and those after
them.  If the task takes a lock, the lock is held for the tasks `body`. -/
structure Effect where
  data : Data
  body : List Task := []
  tail : List Task := []

/-- The lock a task takes. -/
def Task.needs (d : Data) : Task → Option Mutex
  | .onData h _ _ => some (.feedMu h)
  | .onFin h _ => some (.feedMu h)
  | .finalize h => if (d.heap h).finalized then none else some (.finalizeOnce h)
  | .takeRing h => some (.readMu h)
  | .lateFin h => some (.writeMu h)
  | .closeSession => if d.ended then none else some .closeOnce
  | .openChannel frames => if d.closed ∨ frames = [] then none else some (.feedMu d.next)
  | .read h _ => some (.readMu h)
  | .write h _ => some (.writeMu h)
  | _ => none

/-- What a reader that finds nothing in the ring goes on with, if the stream has ended. -/
def atEnd (h : Nat) (call : Call) (saw : Bool) : List Task :=
  if saw then [] else [.scan h call true]

/-- What a task does.  `busy` are the locks that are taken, `k` is the number of buffers or bytes
that a call is about, and `ok` whether a call succeeds, where this is not decided by the data.
There is no effect while the process waits. -/
def Task.run (cfg : SessionConfig) (busy : Mutex → Bool) (k : Nat) (ok : Bool) (d : Data) :
    Task → Option Effect
  | .unlock _ => none
  | .onData h fed whole => some { data := d, body := [.deliver h (.data fed whole)] }
  | .onFin h whole => some { data := d, body := [.deliver h (.fin whole)] }
  | .onAck h n =>
      if cfg.reliability = false ∨ (d.heap h).unacked = 0 ∨ n = 0 then some { data := d }
      else some {
        data := d.update h fun c => { c with unacked := c.unacked - n }
        body := if (d.heap h).unacked ≤ n then [.maybeFinalize h] else [] }
  | .addCredits h delta =>
      some { data := d.update h fun c =>
        { c with flow := c.flow.addCredits (int32 delta), winNotify := true } }
  | .addSessionCredits delta =>
      some { data := { d with
        flow := { d.flow with toFlow := d.flow.addCredits (int32 delta) }
        heap := fun h =>
          { d.heap h with winNotify := (d.heap h).winNotify || (d.heap h).listed } } }
  | .peerReset h => some { data := d, body := [.closeWrite h, .maybeFinalize h] }
  | .deliver h (.data fed whole) =>
      if cfg.reliability then
        if (d.heap h).cleaned then some { data := d }
        else some { data := d.feed h fed, body := if whole then [.remoteClose h] else [] }
      else some { data := d.feed h 1 }
  | .deliver h (.fin whole) =>
      if cfg.reliability = true ∧ ((d.heap h).cleaned = true ∨ whole = false) then
        some { data := d }
      else some { data := d, body := [.remoteClose h] }
  | .deliver h .rst => some { data := d, body := [.peerReset h] }
  | .remoteClose h => some {
      data := d.update h fun c => { c with drainable := true, readDone := true }
      body := [.wakeReader h, .wakeWriter h, .maybeFinalize h] }
  | .wakeReader h => some { data := d.update h fun c => { c with notify := true } }
  | .wakeWriter h => some { data := d.update h fun c => { c with winNotify := true } }
  | .maybeFinalize h => some {
      data := d
      body := if (d.heap h).finQueued ∧ (d.heap h).readDone ∧ (d.heap h).unacked = 0 then
        [.finalize h] else [] }
  | .finalize h =>
      if (d.heap h).finalized then some { data := d }
      else some {
        data := d.update h fun c => { c with closeTimer := false, unacked := 0, cleaned := true }
        body := [.takeRing h, .remove h] }
  | .takeRing h => some { data := d, body := [.closeRing h] }
  | .closeRing h => some {
      data := d.update h fun c => { c with ring := if c.drainable then c.ring else 0 } }
  | .remove h => some {
      data := d.update h fun c => { c with listed := false, finalized := true } }
  | .closeWrite h =>
      if (d.heap h).writeClosed then some { data := d }
      else if busy (.writeMu h) then some {
        data := d.update h fun c =>
          { c with writeClosed := true, winNotify := true, finWaiting := true } }
      else some {
        data := (d.update h fun c =>
          { c with writeClosed := true, winNotify := true }).sendFin cfg h }
  | .lateFin h => some { data := d, body := [.sendFin h], tail := [.maybeFinalize h] }
  | .sendFin h => some { data := d.sendFin cfg h }
  | .closeChannel h =>
      if (d.heap h).closed then some { data := d }
      else some {
        data := (d.update h fun c =>
          { c with closed := true, notify := true, winNotify := true
                   closeTimer := !c.readDone && decide (0 < cfg.channelCloseTimeout)
                     && !c.finalized }).tryDrainRing busy h }
  | .localClose h => some {
      data := d.update h fun c => { c with writeClosed := true, finQueued := true }
      body := [.shut h] }
  | .shut h => some { data := d.update h fun c => { c with closed := true }, body := [.endRead h] }
  | .endRead h => some {
      data := d.update h fun c => { c with readDone := true }
      body := [.wakeReader h, .wakeWriter h, .tryDrain h, .finalize h] }
  | .tryDrain h => some { data := if (d.heap h).drainable then d else d.tryDrainRing busy h }
  | .peerGone h => some {
      data := d.update h fun c =>
        { c with writeClosed := true, finQueued := true, drainable := true, readDone := true }
      body := [.wakeReader h, .wakeWriter h, .finalize h] }
  | .closeSession =>
      if d.ended then some { data := d }
      else some {
        data := { d with closed := true, heap := fun h => { d.heap h with listed := false } }
        body := d.active.map (fun h => if d.goAwayRecv then .peerGone h else .localClose h)
          ++ [.sessionEnd] }
  | .sessionEnd => some { data := { d with ended := true } }
  | .openChannel frames =>
      if d.closed then some { data := d }
      else some {
        data := { d.update d.next fun c => { c with listed := true } with next := d.next + 1 }
        body := frames.map (.deliver d.next)
        tail := [.publish d.next] }
  | .publish h => some { data := d.update h fun c => { c with known := true } }
  | .read h call => some { data := d, body := [.scan h call false], tail := [.drainAborted h] }
  | .scan h call saw =>
      if 0 < (d.heap h).ring then
        match call with
        | .read => some { data := d.update h fun c => { c with ring := c.ring - k } }
        | .writeTo .other => some { data := d, body := [.output h saw] }
        | .writeTo (.channel dst) =>
            if d.writeAborted dst then some { data := d }
            else some { data := d, body := [.write dst (k + 1), .passed h dst saw] }
      else if d.readAborted h then some { data := d }
      else if (d.heap h).readDone then some { data := d, body := atEnd h call saw }
      else some { data := d, body := [.park h call saw] }
  | .park h call saw => some {
      data := d.update h fun c => { c with waitState := true }
      body := [.recheck h call saw] }
  | .recheck h call saw =>
      if 0 < (d.heap h).ring then
        match call with
        | .read => some {
            data := d.update h fun c =>
              { c with waitState := false, notify := false, ring := c.ring - k } }
        | .writeTo _ => some {
            data := d.update h fun c => { c with waitState := false, notify := false }
            body := [.scan h call saw] }
      else some { data := d, body := [.confirm h call saw] }
  | .confirm h call saw =>
      if d.readAborted h then some { data := d.update h fun c => { c with waitState := false } }
      else if (d.heap h).readDone then some {
        data := d.update h fun c => { c with waitState := false }
        body :=
          match call with
          | .read => atEnd h call saw
          | .writeTo _ => [.scan h call saw] }
      else some { data := d, body := [.select h call saw] }
  | .select h call saw =>
      if (d.heap h).notify ∧ (ok ∨ (d.heap h).closed = false) then some {
        data := d.update h fun c => { c with notify := false, waitState := false }
        body := [.scan h call saw] }
      else if (d.heap h).closed then some {
        data :=
          match call with
          | .read => d
          | .writeTo _ => d.update h fun c => { c with waitState := false } }
      else none
  | .output h saw =>
      if ok then some {
        data := d.update h fun c => { c with ring := c.ring - 1 }
        body := [.scan h (.writeTo .other) saw] }
      else some { data := d }
  | .passed h dst saw =>
      if ok then some {
        data := d.update h fun c => { c with ring := c.ring - 1 }
        body := [.scan h (.writeTo (.channel dst)) saw] }
      else some { data := d }
  | .drainAborted h => some { data := if d.readAborted h then d.tryDrainRing busy h else d }
  | .write h n =>
      some { data := d, body := if (d.heap h).writeClosed then [] else [.acquire h n] }
  | .acquire h n =>
      if n = 0 ∨ d.writeAborted h = true then some { data := d }
      else
        match grantedCredits (d.heap h).flow d.flow (int32 (min n cfg.maxFrameDataSize)) with
        | none => some { data := d, body := [.awaitCredit h n] }
        | some taken => some {
            data := { d.update h fun c =>
                { c with
                  flow := (c.flow.tryDeduct taken).getD c.flow
                  unacked := if cfg.reliability then c.unacked + 1 else c.unacked } with
              flow := { d.flow with toFlow :=
                if d.flow.enabled then (d.flow.tryDeduct taken).getD d.flow.toFlow
                else d.flow.toFlow } }
            body := [.acquire h (n - taken.toNat)] }
  | .awaitCredit h n =>
      if (d.heap h).winNotify ∧ (ok ∨ ((d.heap h).closed || d.closed) = false) then some {
        data := d.update h fun c => { c with winNotify := false }
        body := [.acquire h n] }
      else if (d.heap h).closed || d.closed then some { data := d }
      else none

/-- What a goroutine waits for in code of the application: another process, which may be one that
reads from a pipe, or a frame of this session, as in a wrapper of a channel. -/
inductive Wait where
  | process (p : Proc)
  | frame
deriving DecidableEq, Repr

/-- The processes of a session.  The goroutines are those below `goroutines`, and `outside` is
what they wait for in code of the application. -/
structure State where
  data : Data
  locks : Locks Proc Mutex Task
  goroutines : Nat
  outside : Proc → Option Wait

/-- A frame for a channel in the table, or for the session.  `fed` is the number of buffers that
go on the ring, and `whole` says that the stream is complete, with retransmissions; `n` is the
number of frames an acknowledgement covers.  A `stray` frame is one too many of those for
channels that are not open. -/
inductive Frame where
  | data (h fed : Nat) (whole : Bool)
  | fin (h : Nat) (whole : Bool)
  | ack (h n : Nat)
  | upd (h delta : Nat)
  | updSession (delta : Nat)
  | rst (h : Nat)
  | goAway
  | stray
deriving DecidableEq, Repr

/-- The channel a frame is for. -/
def Frame.channel : Frame → Option Nat
  | .data h _ _ | .fin h _ | .ack h _ | .upd h _ | .rst h => some h
  | .updSession _ | .goAway | .stray => none

/-- What the loop that reads frames does with a frame. -/
def Frame.tasks : Frame → List Task
  | .data h fed whole => [.onData h fed whole]
  | .fin h whole => [.onFin h whole]
  | .ack h n => [.onAck h n]
  | .upd h delta => [.addCredits h delta]
  | .updSession delta => [.addSessionCredits delta]
  | .rst h => [.peerReset h]
  | .goAway | .stray => [.closeSession]

/-- What a goroutine can be started for: a call of the application, the end of a stream that was
closed while its write lock was taken, or the closing of a channel by a timer. -/
inductive Request where
  | openChannel (frames : List Early)
  | read (h : Nat)
  | writeTo (h : Nat) (w : Sink)
  | write (h n : Nat)
  | closeWrite (h : Nat)
  | close (h : Nat)
  | closeSession
  | lateFin (h : Nat)
  | localClose (h : Nat)
deriving DecidableEq, Repr

/-- Whether a goroutine can be started.  The application uses channels `OpenChannel` has
returned, and calls that fail at once need no goroutine. -/
def Request.ready (d : Data) : Request → Bool
  | .openChannel _ | .closeSession => true
  | .read h | .writeTo h .other => (d.heap h).known && !d.readAborted h
  | .writeTo h (.channel dst) => (d.heap h).known && (d.heap dst).known && !d.readAborted h
  | .write h _ => (d.heap h).known && !d.writeAborted h
  | .closeWrite h => (d.heap h).known && !d.closed
  | .close h => (d.heap h).known
  | .lateFin h => (d.heap h).finWaiting
  | .localClose h => (d.heap h).closeTimer || (d.heap h).giveUp

/-- What a goroutine does. -/
def Request.tasks : Request → List Task
  | .openChannel frames => [.openChannel frames]
  | .read h => [.read h .read]
  | .writeTo h w => [.read h (.writeTo w)]
  | .write h n => [.write h n]
  | .closeWrite h => [.closeWrite h, .maybeFinalize h]
  | .close h => [.closeWrite h, .closeChannel h, .maybeFinalize h]
  | .closeSession => [.closeSession]
  | .lateFin h => [.lateFin h]
  | .localClose h => [.localClose h]

/-- The marks of goroutines that have been started are removed. -/
def Request.begin (d : Data) : Request → Data
  | .lateFin h => d.update h fun c => { c with finWaiting := false }
  | .localClose h => d.update h fun c => { c with closeTimer := false, giveUp := false }
  | _ => d

/-- What can happen: a goroutine is created, a frame comes, `arqLoop` looks at a channel and may
give it up, a goroutine starts a call, it begins or ceases to wait in code of the application, or
a process goes on. -/
inductive Event where
  | go
  | receive (f : Frame)
  | tick (h : Nat) (giveUp : Bool)
  | call (n : Nat) (r : Request)
  | wait (n : Nat) (w : Option Wait)
  | run (p : Proc) (k : Nat) (ok : Bool)
deriving DecidableEq, Repr

namespace State

/-- Whether there is such a process. -/
def isAlive (s : State) : Proc → Bool
  | .goroutine n => decide (n < s.goroutines)
  | _ => true

/-- The locks that are taken. -/
def busy (s : State) (m : Mutex) : Bool :=
  (s.locks.holder m).isSome

/-- A process goes on with the task on top of its stack. -/
def advance (cfg : SessionConfig) (p : Proc) (k : Nat) (ok : Bool) (s : State) : Option State :=
  match s.locks.stack p with
  | [] => none
  | .unlock m :: rest => some { s with locks := s.locks.drop p m rest }
  | t :: rest =>
      (t.run cfg s.busy k ok s.data).bind fun e =>
        match t.needs s.data with
        | none =>
            some { s with data := e.data, locks := s.locks.reply p (e.body ++ e.tail ++ rest) }
        | some m =>
            if s.busy m then none
            else some { s with
              data := e.data
              locks := s.locks.take p m (e.body ++ .unlock m :: (e.tail ++ rest)) }

/-- An idle process gets something to do. -/
def begin (p : Proc) (d : Data) (tasks : List Task) (s : State) : Option State :=
  if s.isAlive p ∧ s.outside p = none ∧ s.locks.stack p = [] then
    some { s with data := d, locks := s.locks.reply p tasks }
  else none

/-- What happens to the processes of a session. -/
def step (cfg : SessionConfig) (s : State) : Event → Option State
  | .go => some { s with goroutines := s.goroutines + 1 }
  | .receive f =>
      if s.data.closed = false ∧ f.channel.all fun h => (s.data.heap h).listed then
        s.begin .readLoop { s.data with goAwayRecv := s.data.goAwayRecv || decide (f = .goAway) }
          f.tasks
      else none
  | .tick h giveUp =>
      if cfg.reliability = true ∧ s.data.closed = false ∧ (s.data.heap h).listed = true then
        if (s.data.heap h).unacked = 0 then s.begin .arqLoop s.data [.maybeFinalize h]
        else s.begin .arqLoop
          (s.data.update h fun c => { c with giveUp := c.giveUp || giveUp }) []
      else none
  | .call n r => if r.ready s.data then s.begin (.goroutine n) (r.begin s.data) r.tasks else none
  | .wait n w =>
      if s.isAlive (.goroutine n) ∧ (s.locks.stack (.goroutine n)).head?.all Task.isOutput then
        some { s with outside := Function.update s.outside (.goroutine n) w }
      else none
  | .run p k ok => if s.isAlive p ∧ s.outside p = none then s.advance cfg p k ok else none

/-- A new session. -/
def init (cfg : SessionConfig) : State where
  data := {
    heap := fun _ => { flow := newStreamFlow (int32 cfg.initialStreamWindow) }
    next := 0
    flow := newSessionFlow (int32 cfg.initialSessionWindow)
    closed := false
    goAwayRecv := false
    ended := false }
  locks := { stack := fun _ => [], holder := fun _ => none }
  goroutines := 0
  outside := fun _ => none

/-! ### Waiting -/

/-- The process a process waits for, if it waits for a lock, or for that process in code of the
application. -/
def waitsFor (s : State) (p : Proc) : Option Proc :=
  match s.outside p with
  | some (.process q) => some q
  | some .frame => none
  | none => (s.locks.stack p).head?.bind fun t => (t.needs s.data).bind s.locks.holder

/-- A process is about to do a task. -/
def Next (s : State) (t : Task) : Prop :=
  (s.locks.stack .readLoop).head? = some t ∨ (s.locks.stack .arqLoop).head? = some t
    ∨ ∃ n < s.goroutines, (s.locks.stack (.goroutine n)).head? = some t

instance (s : State) (t : Task) : Decidable (s.Next t) := by
  unfold Next
  infer_instance

/-- A process with these tasks waits for a frame: it is a reader that has not been notified, or a
writer without credit, of a channel that is not closed, and no process is about to wake it. -/
def Starved (s : State) : List Task → Prop
  | .select h _ _ :: _ =>
      (s.data.heap h).notify = false ∧ (s.data.heap h).closed = false ∧ ¬ s.Next (.wakeReader h)
  | .awaitCredit h _ :: _ =>
      (s.data.heap h).winNotify = false ∧ ((s.data.heap h).closed || s.data.closed) = false
        ∧ ¬ s.Next (.wakeWriter h)
  | _ => False

instance (s : State) (tasks : List Task) : Decidable (s.Starved tasks) := by
  unfold Starved
  split <;> infer_instance

/-- The process waits for a frame, in code of the application or in a call. -/
def AwaitsFrame (s : State) (p : Proc) : Prop :=
  s.outside p = some .frame ∨ s.Starved (s.locks.stack p)

instance (s : State) (p : Proc) : Decidable (s.AwaitsFrame p) := by
  unfold AwaitsFrame
  infer_instance

end State

end Goroutines

end Muxocket
