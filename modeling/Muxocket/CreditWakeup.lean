import Muxocket.Flow
import Muxocket.Lib.Run
import Muxocket.Wakeup

/-!
# Waking the writers of a session

A writer needs credit of its channel and of the session.  `AcquireCredits` loads both counters,
and waits if one of them is not positive, until it gets a token or the channel or the session is
closed.  Otherwise it deducts what it takes from the counter of the session, and then from the
counter of its channel; if the second fails it gives the first back.  Whoever adds credit to a
channel leaves a token for its writer afterwards, whoever adds credit to the session leaves one
for the writer of every channel in the table, and whoever closes the writing side of a channel
leaves one as well.  There is room for one token for each writer.

Every one of these atomic operations is a step of its own, for any number of channels, each with
one writer, and for any number of goroutines that add credit or close something.  The tasks of
a goroutine form a stack: a task is done by replacing it with the tasks it leads to.
-/

namespace Muxocket.CreditWakeup

open Wakeup (Once)

/-! ### Credit, tokens and flags -/

/-- The fields of a channel that its writer and the other goroutines share.  `winNotify` says
that there is a token, and `closeChan` that this channel of the language is closed. -/
structure Channel where
  sendCredits : Int
  winNotify : Bool := false
  closed : Bool := false
  closeChan : Bool := false
  writeClosed : Bool := false
  finQueued : Bool := false
  opened : Bool := false
  writeOnce : Once := .fresh
  closeOnce : Once := .fresh

/-- A session with its channels.  `readers` is the number of goroutines that hold the lock of
the table for reading. -/
structure Session (ι : Type) where
  channel : ι → Channel
  sendCredits : Int
  enabled : Bool
  closed : Bool := false
  die : Bool := false
  closeOnce : Once := .fresh
  table : List ι := []
  readers : Nat := 0

variable {ι κ : Type} [DecidableEq ι] [DecidableEq κ]

/-- Change the fields of a channel. -/
def Session.update (i : ι) (f : Channel → Channel) (s : Session ι) : Session ι :=
  { s with channel := Function.update s.channel i (f (s.channel i)) }

/-- The credit of the session as a writer sees it. -/
def Session.avail (s : Session ι) : Int :=
  if s.enabled then s.sendCredits else 2 ^ 30

/-! ### The goroutines that add credit and close -/

/-- What a goroutine does next.

* `addStream`, `wakeWriter`: add credit to a channel, and leave a token for its writer;
* `addSession`, `lockTable`, `wakeAll`: add credit to the session, and go through the table;
* `writeOnce`, `storeWriteClosed`, `writeOnceDone`: what is done once when the writing side of a
  channel is closed, where `closeWrite` also wakes the writer;
* `closeOnce`, `storeClosed`, `closeCloseChan`, `closeOnceDone`: what is done once when a channel
  is closed, where `Close` also wakes the writer;
* `storeFinQueued`, `maybeFinalize`, `finalize`: the end of a channel, which leaves the table;
* `sessionOnce`, `storeSessionClosed`, `closeDie`, `clearTable`, `sessionOnceDone`: `Close` of the
  session, which ends every channel in the table, by `peerGone` if the peer has said goodbye. -/
inductive Task (ι : Type) where
  | addStream (i : ι) (n : Int)
  | wakeWriter (i : ι)
  | addSession (n : Int)
  | lockTable
  | wakeAll (todo : List ι)
  | writeOnce (i : ι) (wakes : Bool)
  | storeWriteClosed (i : ι)
  | writeOnceDone (i : ι)
  | closeOnce (i : ι) (wakes : Bool)
  | storeClosed (i : ι)
  | closeCloseChan (i : ι)
  | closeOnceDone (i : ι)
  | storeFinQueued (i : ι)
  | maybeFinalize (i : ι)
  | finalize (i : ι)
  | sessionOnce (graceful : Bool)
  | storeSessionClosed
  | closeDie (graceful : Bool)
  | clearTable (graceful : Bool)
  | sessionOnceDone

/-- What a task leaves open: which channel of the table comes next, and whether a channel is
finalized, which also depends on its reading side. -/
inductive Choice (ι : Type) where
  | go
  | skip
  | visit (i : ι)

/-- The tasks of `localClose`. -/
def localClose (i : ι) : List (Task ι) :=
  [.writeOnce i false, .storeFinQueued i, .closeOnce i false, .wakeWriter i, .finalize i]

/-- The tasks of `peerGone`. -/
def peerGone (i : ι) : List (Task ι) :=
  [.writeOnce i false, .storeFinQueued i, .wakeWriter i, .finalize i]

/-- The tasks by which a session takes credit back. -/
def sessionRefund (n : Int) : List (Task ι) :=
  if n ≤ 0 then [] else [.addSession n]

/-- What becomes of a session by a task, and the tasks it leads to; `none` while the goroutine
has to wait. -/
def Task.perform (s : Session ι) : Task ι → Choice ι → Option (Session ι × List (Task ι))
  | .addStream i n, .go =>
      some (s.update i fun c => { c with sendCredits := int32 (c.sendCredits + n) },
        [.wakeWriter i])
  | .wakeWriter i, .go => some (s.update i fun c => { c with winNotify := true }, [])
  | .addSession n, .go =>
      some ({ s with sendCredits := int32 (s.sendCredits + n) }, [.lockTable])
  | .lockTable, .go => some ({ s with readers := s.readers + 1 }, [.wakeAll s.table])
  | .wakeAll [], .go => some ({ s with readers := s.readers - 1 }, [])
  | .wakeAll (j :: todo), .visit i =>
      if i ∈ j :: todo then
        some (s.update i fun c => { c with winNotify := true }, [.wakeAll ((j :: todo).erase i)])
      else none
  | .writeOnce i wakes, .go =>
      match (s.channel i).writeOnce with
      | .fresh =>
          some (s.update i fun c => { c with writeOnce := .running }, .storeWriteClosed i
            :: (if wakes then [.wakeWriter i] else []) ++ [.writeOnceDone i])
      | .running => none
      | .finished => some (s, [])
  | .storeWriteClosed i, .go => some (s.update i fun c => { c with writeClosed := true }, [])
  | .writeOnceDone i, .go => some (s.update i fun c => { c with writeOnce := .finished }, [])
  | .closeOnce i wakes, .go =>
      match (s.channel i).closeOnce with
      | .fresh =>
          some (s.update i fun c => { c with closeOnce := .running }, .storeClosed i
            :: .closeCloseChan i :: (if wakes then [.wakeWriter i] else []) ++ [.closeOnceDone i])
      | .running => none
      | .finished => some (s, [])
  | .storeClosed i, .go => some (s.update i fun c => { c with closed := true }, [])
  | .closeCloseChan i, .go => some (s.update i fun c => { c with closeChan := true }, [])
  | .closeOnceDone i, .go => some (s.update i fun c => { c with closeOnce := .finished }, [])
  | .storeFinQueued i, .go => some (s.update i fun c => { c with finQueued := true }, [])
  | .maybeFinalize i, .go => some (s, if (s.channel i).finQueued then [.finalize i] else [])
  | .maybeFinalize _, .skip => some (s, [])
  | .finalize i, .go =>
      if s.readers = 0 then some ({ s with table := s.table.erase i }, []) else none
  | .sessionOnce graceful, .go =>
      match s.closeOnce with
      | .fresh =>
          some ({ s with closeOnce := .running }, [.storeSessionClosed, .closeDie graceful,
            .sessionOnceDone])
      | .running => none
      | .finished => some (s, [])
  | .storeSessionClosed, .go => some ({ s with closed := true }, [])
  | .closeDie graceful, .go => some ({ s with die := true }, [.clearTable graceful])
  | .clearTable graceful, .go =>
      if s.readers = 0 then
        some ({ s with table := [] },
          s.table.flatMap fun i => if graceful then peerGone i else localClose i)
      else none
  | .sessionOnceDone, .go => some ({ s with closeOnce := .finished }, [])
  | _, _ => none

/-- The calls that goroutines make. -/
inductive Request (ι : Type) where
  | addCredits (i : ι) (delta : Int)
  | sessionAddCredits (delta : Int)
  | refund (i : ι) (n : Int)
  | closeWrite (i : ι)
  | close (i : ι)
  | peerReset (i : ι)
  | remoteClose (i : ι)
  | localClose (i : ι)
  | closeSession (graceful : Bool)

/-- The tasks of a call. -/
def Request.tasks (s : Session ι) : Request ι → List (Task ι)
  | .addCredits i delta => if delta ≤ 0 then [] else [.addStream i delta]
  | .sessionAddCredits delta => if delta ≤ 0 then [] else [.addSession delta]
  | .refund i n =>
      if n ≤ 0 then [] else .addStream i n :: (if s.enabled then sessionRefund n else [])
  | .closeWrite i => [.writeOnce i true, .maybeFinalize i]
  | .close i => [.writeOnce i true, .closeOnce i true, .maybeFinalize i]
  | .peerReset i => [.writeOnce i true, .maybeFinalize i]
  | .remoteClose i => [.wakeWriter i, .maybeFinalize i]
  | .localClose i => CreditWakeup.localClose i
  | .closeSession graceful => [.sessionOnce graceful]

/-! ### The writers -/

/-- Where a writer is in `AcquireCredits`, with what it asks for.

* `loadClosed`, `loadWriteClosed`, `loadSessionClosed`: asks whether it may still write;
* `loadStream`, `loadSession`: loads the counters, with what it has loaded first;
* `recheckClosed`, `recheckSession`: has found no credit, asks again whether something is closed;
* `parked`: waiting for a token, or for the channel or the session to be closed;
* `sessionLoad`, `sessionCas`: deducts from the counter of the session, with what it takes and
  what it has loaded;
* `streamLoad`, `streamCas`: deducts from the counter of its channel;
* `refunding`: gives the credit of the session back. -/
inductive Writer where
  | idle
  | loadClosed (desired : Int)
  | loadWriteClosed (desired : Int)
  | loadSessionClosed (desired : Int)
  | loadStream (desired : Int)
  | loadSession (desired cAvail : Int)
  | recheckClosed (desired : Int)
  | recheckSession (desired : Int)
  | parked (desired : Int)
  | sessionLoad (desired take : Int)
  | sessionCas (desired take curr : Int)
  | streamLoad (desired take : Int)
  | streamCas (desired take curr : Int)
  | refunding (desired : Int)
deriving DecidableEq, Repr

/-- Which of the things a waiting writer waits for it gets. -/
inductive Event where
  | go
  | closed
  | die

/-- What a step of a writer gives: the session, where the writer is, and the tasks by which it
gives credit back. -/
structure Turn (ι : Type) where
  session : Session ι
  writer : Writer
  tasks : List (Task ι) := []

/-- What a writer does when it has loaded both counters. -/
def decideTake (s : Session ι) (desired avail : Int) : Writer :=
  if avail ≤ 0 then .recheckClosed desired
  else if s.enabled then .sessionLoad desired (min desired avail)
  else .streamLoad desired (min desired avail)

/-- A step of the writer of channel `i`, whose tasks are done. -/
def Writer.step (s : Session ι) (i : ι) : Writer → Event → Option (Turn ι)
  | .loadClosed d, .go =>
      some { session := s, writer := if (s.channel i).closed then .idle else .loadWriteClosed d }
  | .loadWriteClosed d, .go =>
      some { session := s
             writer := if (s.channel i).writeClosed then .idle else .loadSessionClosed d }
  | .loadSessionClosed d, .go =>
      some { session := s, writer := if s.closed then .idle else .loadStream d }
  | .loadStream d, .go =>
      some { session := s, writer := .loadSession d (s.channel i).sendCredits }
  | .loadSession d cAvail, .go =>
      some { session := s, writer := decideTake s d (min cAvail s.avail) }
  | .recheckClosed d, .go =>
      some { session := s, writer := if (s.channel i).closed then .idle else .recheckSession d }
  | .recheckSession d, .go =>
      some { session := s, writer := if s.closed then .idle else .parked d }
  | .parked d, .go =>
      if (s.channel i).winNotify then
        some { session := s.update i fun c => { c with winNotify := false }
               writer := .loadClosed d }
      else none
  | .parked _, .closed =>
      if (s.channel i).closeChan then some { session := s, writer := .idle } else none
  | .parked _, .die => if s.die then some { session := s, writer := .idle } else none
  | .sessionLoad d take, .go =>
      some { session := s
             writer := if s.sendCredits < take then .loadClosed d
               else .sessionCas d take s.sendCredits }
  | .sessionCas d take curr, .go =>
      if s.sendCredits = curr then
        some { session := { s with sendCredits := int32 (curr - take) }
               writer := .streamLoad d take }
      else some { session := s, writer := .sessionLoad d take }
  | .streamLoad d take, .go =>
      if (s.channel i).sendCredits < take then
        some { session := s, writer := .refunding d
               tasks := if s.enabled then sessionRefund take else [] }
      else some { session := s, writer := .streamCas d take (s.channel i).sendCredits }
  | .streamCas d take curr, .go =>
      if (s.channel i).sendCredits = curr then
        some { session := s.update i fun c => { c with sendCredits := int32 (curr - take) }
               writer := .idle }
      else some { session := s, writer := .streamLoad d take }
  | .refunding d, .go => some { session := s, writer := .loadClosed d }
  | _, _ => none

/-! ### The session with its writers and goroutines -/

/-- A session, its writers, and the tasks of the goroutines and of the writers. -/
structure State (ι κ : Type) where
  session : Session ι
  writer : ι → Writer
  tasks : κ ⊕ ι → List (Task ι)

/-- What happens next: a channel is opened, a writer asks for credit or takes its next step, a
goroutine makes a call, somebody does a task, or the frame that ends the stream of a channel
is queued. -/
inductive Action (ι κ : Type) where
  | openChannel (i : ι)
  | acquire (i : ι) (desired : Int)
  | writer (i : ι) (e : Event)
  | call (k : κ) (r : Request ι)
  | perform (p : κ ⊕ ι) (o : Choice ι)
  | sendFin (i : ι)

namespace State

/-- A new session, and the windows its channels get. -/
def init (cfg : SessionConfig) : State ι κ where
  session :=
    { channel := fun _ =>
        { sendCredits := (newStreamFlow (int32 cfg.initialStreamWindow)).sendCredits }
      sendCredits := (newSessionFlow (int32 cfg.initialSessionWindow)).sendCredits
      enabled := (newSessionFlow (int32 cfg.initialSessionWindow)).enabled }
  writer _ := .idle
  tasks _ := []

/-- A step of the session.  The frame that ends a stream is queued under the lock of the writer,
after the writing side has been closed. -/
def step (s : State ι κ) : Action ι κ → Option (State ι κ)
  | .openChannel i =>
      if (s.session.channel i).opened = false ∧ s.session.readers = 0 then
        some { s with session := { s.session.update i fun c => { c with opened := true } with
          table := i :: s.session.table } }
      else none
  | .acquire i desired =>
      if s.writer i = .idle ∧ (s.session.channel i).opened ∧ 0 < desired ∧ desired < 2 ^ 31 then
        some { s with writer := Function.update s.writer i (.loadClosed desired) }
      else none
  | .writer i e =>
      if s.tasks (.inr i) = [] then
        ((s.writer i).step s.session i e).map fun t =>
          { session := t.session
            writer := Function.update s.writer i t.writer
            tasks := Function.update s.tasks (.inr i) t.tasks }
      else none
  | .call k r =>
      if s.tasks (.inl k) = [] then
        some { s with tasks := Function.update s.tasks (.inl k) (r.tasks s.session) }
      else none
  | .perform p o =>
      match s.tasks p with
      | [] => none
      | t :: rest =>
          (t.perform s.session o).map fun r =>
            { s with session := r.1, tasks := Function.update s.tasks p (r.2 ++ rest) }
  | .sendFin i =>
      if (s.session.channel i).writeClosed ∧ s.writer i = .idle then
        some { s with session := s.session.update i fun c => { c with finQueued := true } }
      else none

end State

end Muxocket.CreditWakeup
