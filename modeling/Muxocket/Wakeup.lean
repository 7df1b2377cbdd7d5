import Mathlib.Logic.Function.Basic
import Muxocket.Lib.Run
import Muxocket.ReadLoop

/-!
# Waking the reader of a channel

A call of `Read` or `WriteTo` that finds nothing stores `stateWaiting`, looks into the ring and
at the flags once more, and then waits for a token or for the channel to be closed.  Whoever
puts a buffer into the ring loads `waitState` afterwards and leaves a token if it is
`stateWaiting`; whoever ends the stream leaves a token in any case.  There is room for one
token, and the reader also takes one away when it finds something at its second look.

Every one of these atomic operations is a step of its own here, for one reader that makes any
calls, and for any number of goroutines that feed the channel, end its stream or close it.  The
tasks of a goroutine form a stack: a task is done by replacing it with the tasks it leads to.
A buffer that is fed is not empty.
-/

namespace Muxocket.Wakeup

open ReadLoop (Call Choice dropFront)

/-- The state of something that is done once: others who want to do it wait until it is done. -/
inductive Once where
  | fresh
  | running
  | finished
deriving DecidableEq, Repr

/-- The fields of a channel that its reader and the other goroutines share.  The ring is `none`
when it is closed; `waiting` says that `waitState` is `stateWaiting`, `notify` that there is a
token, and `closeChan` that this channel of the language is closed. -/
structure Channel where
  ring : Option (List Bytes) := some []
  waiting : Bool := false
  notify : Bool := false
  closeChan : Bool := false
  closed : Bool := false
  sessionClosed : Bool := false
  drainable : Bool := false
  readDone : Bool := false
  readMu : Bool := false
  closeOnce : Once := .fresh
  finalizeOnce : Once := .fresh
deriving DecidableEq, Repr

/-- The buffers in the ring, the oldest first. -/
def Channel.buffers (c : Channel) : List Bytes :=
  c.ring.getD []

/-! ### The goroutines that feed, end and close a channel -/

/-- What a goroutine does next.

* `feed`, `loadSessionClosed`, `push`, `loadWaitState`: the operations of `feed` in their order,
  the first of which loads `closed`;
* `wakeReader`: leave a token, if there is none;
* `closeOnce`, `storeClosed`, `closeCloseChan`, `closeOnceDone`: what is done once when a channel
  is closed, where `Close` also wakes the reader and discards what is in the ring;
* `tryDrainRing`, `drainRing`: discard what is in the ring, unless `readMu` is held;
* `drainUnlessDrainable`: the same, if the ring is not to be read to its end;
* `maybeFinalize`, `finalize`, `lockReadMu`, `loadDrainable`, `loadLength`, `closeRing`,
  `finalizeOnceDone`: the end of the channel. -/
inductive Task where
  | feed (p : Bytes)
  | loadSessionClosed (p : Bytes)
  | push (p : Bytes)
  | loadWaitState
  | wakeReader
  | storeDrainable
  | storeReadDone
  | closeOnce (drains : Bool)
  | storeClosed
  | closeCloseChan
  | closeOnceDone
  | tryDrainRing
  | drainRing
  | drainUnlessDrainable
  | maybeFinalize
  | finalize
  | lockReadMu
  | loadDrainable
  | loadLength
  | closeRing
  | unlockReadMu
  | finalizeOnceDone
deriving DecidableEq, Repr

/-- What becomes of a channel by a task, and the tasks it leads to; `none` while the goroutine
has to wait.  Whether the channel is to be finalized depends on its writing side, which is not
part of the model, and is given by `ends`. -/
def Task.perform (c : Channel) (ends : Bool) : Task → Option (Channel × List Task)
  | .feed p => some (c, if c.closed then [] else [.loadSessionClosed p])
  | .loadSessionClosed p => some (c, if c.sessionClosed then [] else [.push p])
  | .push p => some ({ c with ring := c.ring.map (· ++ [p]) }, [.loadWaitState])
  | .loadWaitState => some (c, if c.waiting then [.wakeReader] else [])
  | .wakeReader => some ({ c with notify := true }, [])
  | .storeDrainable => some ({ c with drainable := true }, [])
  | .storeReadDone => some ({ c with readDone := true }, [.wakeReader])
  | .closeOnce drains =>
      match c.closeOnce with
      | .fresh =>
          some ({ c with closeOnce := .running }, [.storeClosed, .closeCloseChan]
            ++ (if drains then [.wakeReader, .tryDrainRing] else []) ++ [.closeOnceDone])
      | .running => none
      | .finished => some (c, [])
  | .storeClosed => some ({ c with closed := true }, [])
  | .closeCloseChan => some ({ c with closeChan := true }, [])
  | .closeOnceDone => some ({ c with closeOnce := .finished }, [])
  | .tryDrainRing =>
      if c.readMu then some (c, [])
      else some ({ c with readMu := true }, [.drainRing, .unlockReadMu])
  | .drainRing => some ({ c with ring := none }, [])
  | .drainUnlessDrainable => some (c, if c.drainable then [] else [.tryDrainRing])
  | .maybeFinalize => some (c, if ends && c.readDone then [.finalize] else [])
  | .finalize =>
      match c.finalizeOnce with
      | .fresh => some ({ c with finalizeOnce := .running }, [.lockReadMu])
      | .running => none
      | .finished => some (c, [])
  | .lockReadMu =>
      if c.readMu then none
      else some ({ c with readMu := true }, [.loadDrainable, .unlockReadMu, .finalizeOnceDone])
  | .loadDrainable => some (c, if c.drainable then [.loadLength] else [.closeRing])
  | .loadLength => some (c, if c.buffers.length = 0 then [.closeRing] else [])
  | .closeRing => some ({ c with ring := none }, [])
  | .unlockReadMu => some ({ c with readMu := false }, [])
  | .finalizeOnceDone => some ({ c with finalizeOnce := .finished }, [])

/-- The calls that other goroutines make on a channel. -/
inductive Request where
  | feed (p : Bytes)
  | remoteClose
  | close
  | localClose
  | peerGone
deriving DecidableEq, Repr

/-- The tasks of a call. -/
def Request.tasks : Request → List Task
  | .feed p => [.feed p]
  | .remoteClose => [.storeDrainable, .storeReadDone, .maybeFinalize]
  | .close => [.closeOnce true, .maybeFinalize]
  | .localClose => [.closeOnce false, .storeReadDone, .drainUnlessDrainable, .finalize]
  | .peerGone => [.storeDrainable, .storeReadDone, .finalize]

/-! ### The reader -/

/-- The call of the reader, and whether it has seen before that the stream has ended. -/
structure Pass where
  call : Call
  sawDone : Bool := false
deriving DecidableEq, Repr

/-- A place where a call asks whether reading has been aborted: before it takes the lock, before
it announces itself, afterwards, and when it has released the lock. -/
inductive Spot where
  | entry (c : Call)
  | first (l : Pass)
  | second (l : Pass)
  | leave
deriving DecidableEq, Repr

/-- Where the reader is.

* `loadClosed`, `loadSessionClosed`, `loadDrainable`: in `readAborted`;
* `locking`: about to lock `readMu`;
* `scanning`: about to look into the ring, with the number of bytes a `Read` has found so far;
* `writing`: has handed the oldest buffer to the writer of a `WriteTo`;
* `loadReadDone`: about to load `readDone` for the first time;
* `announcing`: about to store `stateWaiting`;
* `rescanning`: about to look into the ring for the second time;
* `found`, `swallowing`: has found bytes at its second look, is about to store `stateIdle`, and
  then to take the token away;
* `loadReadDoneAgain`: about to load `readDone` for the second time;
* `withdrawing`: about to store `stateIdle` because reading has been aborted, or because the
  stream has ended;
* `parked`: waiting for a token or for the channel to be closed;
* `waking`: has got the token, about to store `stateIdle`;
* `closingRing`: about to close the ring at the end of the stream;
* `unlocking`: about to release `readMu`;
* `draining`, `drainingRing`, `unlockingDrained`: discards what is in the ring, if it gets
  `readMu`. -/
inductive Reader where
  | idle
  | loadClosed (k : Spot)
  | loadSessionClosed (k : Spot)
  | loadDrainable (k : Spot)
  | locking (c : Call)
  | scanning (l : Pass) (acc : Nat)
  | writing (l : Pass) (b : Bytes)
  | loadReadDone (l : Pass)
  | announcing (l : Pass)
  | rescanning (l : Pass)
  | found (l : Pass) (n : Nat)
  | swallowing (l : Pass) (n : Nat)
  | loadReadDoneAgain (l : Pass)
  | withdrawing (l : Pass) (aborted : Bool)
  | parked (l : Pass)
  | waking (l : Pass)
  | closingRing
  | unlocking
  | draining
  | drainingRing
  | unlockingDrained
deriving DecidableEq, Repr

/-- Reading has not been aborted. -/
def Spot.pass : Spot → Reader
  | .entry c => .locking c
  | .first l => .loadReadDone l
  | .second l => .loadReadDoneAgain l
  | .leave => .idle

/-- Reading has been aborted. -/
def Spot.abort : Spot → Reader
  | .entry _ => .idle
  | .first _ => .unlocking
  | .second l => .withdrawing l true
  | .leave => .draining

/-- Look into the ring: `PartialRead` into what is left of the buffer of a `Read` that has
found `acc` bytes, or `Peek`. -/
def Pass.scan (c : Channel) (l : Pass) (acc : Nat) : Channel × Reader :=
  match l.call, c.buffers with
  | .read _, [] => (c, if acc = 0 then .loadClosed (.first l) else .unlocking)
  | .read n, b :: bufs =>
      if n ≤ acc then (c, .unlocking)
      else
        ({ c with ring := some (dropFront (n - acc) (b :: bufs)) },
          .scanning l (acc + min (n - acc) b.length))
  | .writeTo, [] => (c, .loadClosed (.first l))
  | .writeTo, b :: _ => (c, .writing l b)

/-- Look into the ring for the second time: a `Read` takes what it finds. -/
def Pass.rescan (c : Channel) (l : Pass) : Channel × Reader :=
  match l.call, c.buffers with
  | _, [] => (c, .loadClosed (.second l))
  | .read n, b :: bufs =>
      ({ c with ring := some (dropFront n (b :: bufs)) }, .found l (min n b.length))
  | .writeTo, _ :: _ => (c, .found l 0)

/-- The stream has ended, as a call finds out when there is nothing in the ring.  It looks into
the ring once more. -/
def Pass.finish (l : Pass) : Reader :=
  if l.sawDone then .closingRing else .scanning { l with sawDone := true } 0

/-- A step of the reader. -/
def Reader.step (c : Channel) : Reader → Choice → Option (Channel × Reader)
  | .idle, .start call => some (c, if call = .read 0 then .idle else .loadClosed (.entry call))
  | .loadClosed k, .go => some (c, if c.closed then k.abort else .loadSessionClosed k)
  | .loadSessionClosed k, .go => some (c, if c.sessionClosed then .loadDrainable k else k.pass)
  | .loadDrainable k, .go => some (c, if c.drainable then k.pass else k.abort)
  | .locking call, .go =>
      if c.readMu then none else some ({ c with readMu := true }, .scanning { call := call } 0)
  | .scanning l acc, .go => some (l.scan c acc)
  | .writing l b, .accept n fails =>
      if n ≤ b.length then
        some (if n = 0 then c else { c with ring := c.ring.map (dropFront n) },
          if fails ∨ n < b.length then .unlocking else .scanning l 0)
      else none
  | .loadReadDone l, .go => some (c, if c.readDone then l.finish else .announcing l)
  | .announcing l, .go => some ({ c with waiting := true }, .rescanning l)
  | .rescanning l, .go => some (l.rescan c)
  | .found l n, .go => some ({ c with waiting := false }, .swallowing l n)
  | .swallowing l n, .go => some ({ c with notify := false }, .scanning l n)
  | .loadReadDoneAgain l, .go =>
      some (c, if c.readDone then .withdrawing l false else .parked l)
  | .withdrawing l aborted, .go =>
      some ({ c with waiting := false },
        if aborted then .unlocking else if l.call = .writeTo then .scanning l 0 else l.finish)
  | .parked l, .go =>
      if c.notify then some ({ c with notify := false }, .waking l) else none
  | .parked l, .abandon =>
      if c.closeChan then
        some (c, if l.call = .writeTo then .withdrawing l true else .unlocking)
      else none
  | .waking l, .go => some ({ c with waiting := false }, .scanning l 0)
  | .closingRing, .go => some ({ c with ring := none }, .unlocking)
  | .unlocking, .go => some ({ c with readMu := false }, .loadClosed .leave)
  | .draining, .go =>
      some (if c.readMu then (c, .idle) else ({ c with readMu := true }, .drainingRing))
  | .drainingRing, .go => some ({ c with ring := none }, .unlockingDrained)
  | .unlockingDrained, .go => some ({ c with readMu := false }, .idle)
  | _, _ => none

/-! ### The channel with its goroutines -/

/-- A channel, its reader, and the tasks of the other goroutines. -/
structure State (ι : Type) where
  channel : Channel
  reader : Reader
  tasks : ι → List Task

/-- What happens next: a step of the reader, a call of a goroutine, its next task, or the mark
of the session that it is closed. -/
inductive Action (ι : Type) where
  | reader (o : Choice)
  | call (i : ι) (r : Request)
  | perform (i : ι) (ends : Bool)
  | closeSession

variable {ι : Type} [DecidableEq ι]

namespace State

/-- A new channel. -/
def init : State ι where
  channel := {}
  reader := .idle
  tasks _ := []

/-- A step of the channel. -/
def step (s : State ι) : Action ι → Option (State ι)
  | .reader o =>
      (s.reader.step s.channel o).map fun r => { s with channel := r.1, reader := r.2 }
  | .call i r =>
      if s.tasks i = [] ∧ r ≠ .feed [] then
        some { s with tasks := Function.update s.tasks i r.tasks }
      else none
  | .perform i ends =>
      match s.tasks i with
      | [] => none
      | t :: rest =>
          (t.perform s.channel ends).map fun r =>
            { s with channel := r.1, tasks := Function.update s.tasks i (r.2 ++ rest) }
  | .closeSession => some { s with channel := { s.channel with sessionClosed := true } }

end State

/-! ### What the reader and the goroutines know of each other -/

/-- The reader has announced itself. -/
def Reader.announced : Reader → Prop
  | .rescanning _ => True
  | .loadClosed (.second _) => True
  | .loadSessionClosed (.second _) => True
  | .loadDrainable (.second _) => True
  | .loadReadDoneAgain _ => True
  | .parked _ => True
  | _ => False

/-- The reader has announced itself and then found the ring empty. -/
def Reader.lookedAgain (r : Reader) : Prop :=
  r.announced ∧ ∀ l, r ≠ .rescanning l

/-- The reader waits. -/
def Reader.isParked : Reader → Prop
  | .parked _ => True
  | _ => False

/-- A goroutine that is about to leave a token. -/
def wakes (tasks : List Task) : Prop :=
  tasks.head? = some .wakeReader

/-- A goroutine that leaves a token for a reader that has announced itself. -/
def serves (tasks : List Task) : Prop :=
  wakes tasks ∨ tasks.head? = some .loadWaitState

/-- What a task leaves of a channel: it does not touch `waitState`, it takes no token away, and
when it puts something into the ring or ends the stream, the goroutine goes on to see to the
reader. -/
structure Task.Leaves (c c' : Channel) (tasks : List Task) : Prop where
  waiting : c'.waiting = c.waiting
  notify : c.notify = true → c'.notify = true
  closeChan : c.closeChan = true → c'.closeChan = true
  buffers : c'.buffers = [] ∨ c'.buffers = c.buffers ∨ tasks = [.loadWaitState]
  readDone : c'.readDone = c.readDone ∨ tasks = [.wakeReader]

variable {c c' : Channel} {ends : Bool} {t : Task} {tasks : List Task} {r r' : Reader}

section

variable (h : t.perform c ends = some (c', tasks))

include h

theorem Task.leaves_perform :
  Task.Leaves c c' tasks
  := by
  cases t
  all_goals
    simp only [Task.perform] at h
    try split at h
    all_goals
      first
      | contradiction
      | cases h
        constructor <;> simp [Channel.buffers]

/-- A task by which a goroutine no longer serves the reader has left a token, if the reader has
announced itself. -/
theorem Task.serves_perform {rest : List Task} (hserves : serves (t :: rest))
    (hwaiting : c.waiting = true) :
  c'.notify = true ∨ serves (tasks ++ rest)
  := by
  obtain hwakes | hload := hserves
  · obtain rfl : t = .wakeReader := by simpa [wakes] using hwakes
    obtain ⟨rfl, -⟩ := Prod.mk.inj (Option.some.inj h)
    left
    rfl
  · obtain rfl : t = .loadWaitState := by simpa using hload
    obtain ⟨-, rfl⟩ := Prod.mk.inj (Option.some.inj h)
    right; left
    simp [hwaiting, wakes]

theorem Task.wakes_perform {rest : List Task} (hwakes : wakes (t :: rest)) :
  c'.notify = true
  := by
  obtain rfl : t = .wakeReader := by simpa [wakes] using hwakes
  obtain ⟨rfl, -⟩ := Prod.mk.inj (Option.some.inj h)
  rfl

end

/-- What a step of the reader leaves: a reader that has announced itself has stored
`stateWaiting`, one that has looked again has found the ring empty or takes nothing away, and
one that waits has found that the stream has not ended. -/
structure Reader.Leaves (c : Channel) (r : Reader) (c' : Channel) (r' : Reader) : Prop where
  waiting : r'.announced → c'.waiting = true ∨ r.announced ∧ c' = c
  buffers : r'.lookedAgain → c'.buffers = [] ∨ r.lookedAgain ∧ c' = c
  parked : r'.isParked → c'.readDone = false

/-- A step to a place where the reader has not announced itself. -/
theorem Reader.Leaves.of_not_announced (hr' : ¬ r'.announced) (hparked : ¬ r'.isParked) :
  Reader.Leaves c r c' r'
  := by
  constructor
  · intro h
    contradiction
  · intro h
    exact absurd h.1 hr'
  · intro h
    contradiction

/-- A step that changes nothing, of a reader that has looked again and does not wait yet. -/
theorem Reader.Leaves.of_lookedAgain (hr : r.lookedAgain) (hparked : ¬ r'.isParked) :
  Reader.Leaves c r c r'
  := by
  constructor
  · intro _
    exact Or.inr ⟨hr.1, rfl⟩
  · intro _
    exact Or.inr ⟨hr, rfl⟩
  · intro h
    contradiction

theorem Reader.Leaves.pass {k : Spot} (hr : ∀ l, k = .second l → r.lookedAgain) :
  Reader.Leaves c r c k.pass
  := by
  cases k with
  | second l => apply of_lookedAgain (hr l rfl) id
  | entry | first | leave => apply of_not_announced <;> exact id

theorem Reader.Leaves.abort (k : Spot) :
  Reader.Leaves c r c' k.abort
  := by
  cases k <;> apply of_not_announced <;> exact id

theorem Pass.leaves_scan (c : Channel) (l : Pass) (acc : Nat) :
  Reader.Leaves c (.scanning l acc) (l.scan c acc).1 (l.scan c acc).2
  := by
  apply Reader.Leaves.of_not_announced
  all_goals
    unfold Pass.scan
    grind [Reader.announced, Reader.isParked]

theorem Pass.leaves_finish (l : Pass) :
  Reader.Leaves c r c' l.finish
  := by
  unfold Pass.finish
  split <;> apply Reader.Leaves.of_not_announced <;> exact id

theorem Pass.leaves_rescan (c : Channel) (l : Pass) :
  Reader.Leaves c (.rescanning l) (l.rescan c).1 (l.rescan c).2
  := by
  unfold Pass.rescan
  split
  · rename_i hbuffers
    constructor
    · intro _
      exact Or.inr ⟨trivial, rfl⟩
    · intro _
      exact Or.inl hbuffers
    · intro h
      contradiction
  · apply Reader.Leaves.of_not_announced <;> exact id
  · apply Reader.Leaves.of_not_announced <;> exact id

theorem Reader.leaves_step {o : Choice} (h : r.step c o = some (c', r')) :
  Reader.Leaves c r c' r'
  := by
  unfold Reader.step at h
  split at h
  case h_2 k =>
    cases h
    split
    · apply Leaves.abort
    · cases k with
      | second l => refine Leaves.of_lookedAgain ⟨trivial, by simp⟩ id
      | _ => apply Leaves.of_not_announced <;> exact id
  case h_3 k =>
    cases h
    split
    · cases k with
      | second l => refine Leaves.of_lookedAgain ⟨trivial, by simp⟩ id
      | _ => apply Leaves.of_not_announced <;> exact id
    · apply Leaves.pass
      rintro l rfl
      exact ⟨trivial, by simp⟩
  case h_4 k =>
    cases h
    split
    · apply Leaves.pass
      rintro l rfl
      exact ⟨trivial, by simp⟩
    · apply Leaves.abort
  case h_6 l acc =>
    obtain ⟨rfl, rfl⟩ := Prod.mk.inj (Option.some.inj h)
    apply Pass.leaves_scan
  case h_8 l =>
    cases h
    split
    · apply Pass.leaves_finish
    · apply Leaves.of_not_announced <;> exact id
  case h_9 l =>
    cases h
    constructor
    · intro _
      exact Or.inl rfl
    · intro h
      exact absurd rfl (h.2 l)
    · intro h
      contradiction
  case h_10 l =>
    obtain ⟨rfl, rfl⟩ := Prod.mk.inj (Option.some.inj h)
    apply Pass.leaves_rescan
  case h_13 l =>
    cases h
    split
    · apply Leaves.of_not_announced <;> exact id
    · rename_i hdone
      constructor
      · intro _
        exact Or.inr ⟨trivial, rfl⟩
      · intro _
        exact Or.inr ⟨⟨trivial, by simp⟩, rfl⟩
      · intro _
        simpa using hdone
  case h_14 l aborted =>
    cases h
    split
    · apply Leaves.of_not_announced <;> exact id
    · split
      · apply Leaves.of_not_announced <;> exact id
      · apply Pass.leaves_finish
  all_goals
    try split at h
    all_goals
      first
      | contradiction
      | cases h
        apply Leaves.of_not_announced <;> grind [Reader.announced, Reader.isParked]

/-! ### No reader sleeps on what it waits for -/

namespace State

/-- A reader that has announced itself has stored `stateWaiting`.  What comes into the ring
after its second look is followed by a token, and so is the end of the stream. -/
structure Inv (s : State ι) : Prop where
  announced : s.reader.announced → s.channel.waiting = true
  data : s.reader.lookedAgain → s.channel.buffers = [] ∨ s.channel.notify = true
    ∨ ∃ i, serves (s.tasks i)
  done : s.reader.isParked → s.channel.readDone = false ∨ s.channel.notify = true
    ∨ ∃ i, wakes (s.tasks i)

omit [DecidableEq ι] in
theorem inv_init :
  (init : State ι).Inv
  := by
  constructor
  · intro h
    contradiction
  · intro h
    exact absurd h.1 id
  · intro h
    contradiction

omit [DecidableEq ι] in
theorem Inv.reader {s : State ι} (hs : s.Inv) {o : Choice} {c : Channel} {r : Reader}
    (h : s.reader.step s.channel o = some (c, r)) :
  ({ s with channel := c, reader := r } : State ι).Inv
  := by
  have hleaves := Reader.leaves_step h
  constructor
  · intro hr
    obtain hwaiting | ⟨hannounced, rfl⟩ := hleaves.waiting hr
    · exact hwaiting
    · exact hs.announced hannounced
  · intro hr
    obtain hbuffers | ⟨hlooked, rfl⟩ := hleaves.buffers hr
    · exact Or.inl hbuffers
    · exact hs.data hlooked
  · intro hr
    exact Or.inl (hleaves.parked hr)

/-- A goroutine that neither serves the reader nor is about to wake it gets other tasks. -/
theorem Inv.call {s : State ι} (hs : s.Inv) {i : ι} (hi : s.tasks i = []) (tasks : List Task) :
  ({ s with tasks := Function.update s.tasks i tasks } : State ι).Inv
  := by
  have hne : ∀ j t, (s.tasks j).head? = some t → j ≠ i := by
    rintro j t ht rfl
    simp [hi] at ht
  constructor
  · exact hs.announced
  · intro hr
    refine (hs.data hr).imp id (Or.imp id ?_)
    rintro ⟨j, hj⟩
    have hji : j ≠ i := hj.elim (hne j _) (hne j _)
    exact ⟨j, by simpa [hji] using hj⟩
  · intro hr
    refine (hs.done hr).imp id (Or.imp id ?_)
    rintro ⟨j, hj⟩
    exact ⟨j, by simpa [hne j _ hj] using hj⟩

theorem Inv.perform {s : State ι} (hs : s.Inv) {i : ι} {ends : Bool} {t : Task}
    {rest tasks : List Task} {c : Channel} (hi : s.tasks i = t :: rest)
    (h : t.perform s.channel ends = some (c, tasks)) :
  ({ s with channel := c, tasks := Function.update s.tasks i (tasks ++ rest) } : State ι).Inv
  := by
  have hleaves := Task.leaves_perform h
  constructor
  · intro hr
    rw [← hs.announced hr]
    apply hleaves.waiting
  · intro hr
    obtain hbuffers | hnotify | ⟨j, hj⟩ := hs.data hr
    · obtain hnil | hsame | rfl := hleaves.buffers
      · exact Or.inl hnil
      · exact Or.inl (hsame.trans hbuffers)
      · right; right
        exact ⟨i, by simp [serves]⟩
    · right; left
      exact hleaves.notify hnotify
    · by_cases hji : j = i
      · subst hji
        rw [hi] at hj
        obtain hnotify | hserves := Task.serves_perform h hj (hs.announced hr.1)
        · exact Or.inr (Or.inl hnotify)
        · right; right
          exact ⟨j, by simpa using hserves⟩
      · right; right
        exact ⟨j, by simpa [hji] using hj⟩
  · intro hr
    obtain hdone | hnotify | ⟨j, hj⟩ := hs.done hr
    · obtain hsame | rfl := hleaves.readDone
      · exact Or.inl (hsame.trans hdone)
      · right; right
        exact ⟨i, by simp [wakes]⟩
    · right; left
      exact hleaves.notify hnotify
    · by_cases hji : j = i
      · subst hji
        rw [hi] at hj
        right; left
        exact Task.wakes_perform h hj
      · right; right
        exact ⟨j, by simpa [hji] using hj⟩

theorem inv_step {s s' : State ι} {a : Action ι} (hs : s.Inv) (hstep : s.step a = some s') :
  s'.Inv
  := by
  cases a with
  | reader o =>
      obtain ⟨⟨c, r⟩, h, rfl⟩ := Option.map_eq_some_iff.mp hstep
      apply hs.reader h
  | call i r =>
      obtain ⟨⟨hi, -⟩, h⟩ := Option.ite_none_right_eq_some.mp hstep
      cases h
      apply hs.call hi
  | perform i ends =>
      simp only [step] at hstep
      split at hstep
      · contradiction
      · rename_i t rest hi
        obtain ⟨⟨c, tasks⟩, h, rfl⟩ := Option.map_eq_some_iff.mp hstep
        apply hs.perform hi h
  | closeSession =>
      cases hstep
      exact ⟨hs.announced, hs.data, hs.done⟩

/-- A reader that waits while no other goroutine is in the middle of a call has a token, or the
channel is closed, or there is nothing to wake it for: the ring is empty and the stream has not
ended. -/
theorem nothing_to_read_of_parked
    (s : State ι) (hrun : Run step (fun _ _ => True) init s) (l : Pass)
    (hparked : s.reader = .parked l) (hquiet : ∀ i, s.tasks i = []) :
  s.channel.notify = true ∨ s.channel.closeChan = true
    ∨ s.channel.buffers = [] ∧ s.channel.readDone = false
  := by
  have hinv : s.Inv := hrun.invariant (fun _ _ _ hs _ => inv_step hs) inv_init
  have hdata := hinv.data (by rw [hparked]; exact ⟨trivial, by simp⟩)
  have hdone := hinv.done (by rw [hparked]; trivial)
  simp only [hquiet, serves, wakes, List.head?_nil, reduceCtorEq, or_self, exists_false,
    or_false] at hdata hdone
  obtain hbuffers | hnotify := hdata
  · obtain hopen | hnotify := hdone
    · right; right
      exact ⟨hbuffers, hopen⟩
    · exact Or.inl hnotify
  · exact Or.inl hnotify

/-- An instance: a call of `Read` waits, and then a buffer is fed. -/
theorem nothing_to_read_of_parked_feed :
  ∃ s : State Unit, Run step (fun _ _ => True) init s ∧ s.reader = .parked ⟨.read 4, false⟩
    ∧ s.channel.buffers = [[7]]
    ∧ (s.channel.notify = true ∨ s.channel.closeChan = true
      ∨ s.channel.buffers = [] ∧ s.channel.readDone = false)
  := by
  obtain ⟨s, hrun, hparked, hbuffers, hquiet⟩ :=
    Run.exists_of_exec step (fun _ _ => True) (init : State Unit)
      (List.flatten [[.reader (.start (.read 4))], List.replicate 12 (.reader .go),
        [.call () (.feed [7])], List.replicate 5 (.perform () false)])
      (fun s => s.reader = .parked ⟨.read 4, false⟩ ∧ s.channel.buffers = [[7]] ∧ s.tasks () = [])
      (by decide +kernel)
  use s, hrun, hparked, hbuffers
  exact nothing_to_read_of_parked s hrun ⟨.read 4, false⟩ hparked fun _ => hquiet

end State

end Muxocket.Wakeup
