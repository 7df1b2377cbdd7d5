import Muxocket.Lib.Run
import Muxocket.ReadLoop

/-!
# Waking the reader of a packet connection

The listener of a datagram transport puts every datagram into the queue of the connection it
belongs to, then loads `waitState`, and leaves a token if it is `stateWaiting`.  The connection
is read by `Read` during the handshake and by `ReadPacket` afterwards.  `Read` stores
`stateWaiting` when it has found the queue empty, and looks into the queue once more before it
waits.  `ReadPacket` stores `stateWaiting` and waits: a datagram that comes between its look
into the queue and its store is not seen by anybody, if the listener loads `waitState` before
the store as well.

Every atomic operation is a step of its own, for the listener, one reader and a call of `Close`.
A datagram that is fed is not empty.
-/

namespace Muxocket.PacketWakeup

open ReadLoop (dropFront)

/-- The fields of a packet connection.  The queue is `none` when it is closed; `waiting` says
that `waitState` is `stateWaiting`, `notify` that there is a token, and `die` that this channel
of the language is closed. -/
structure Conn where
  queue : Option (List Bytes) := some []
  waiting : Bool := false
  notify : Bool := false
  closed : Bool := false
  listenerClosed : Bool := false
  die : Bool := false
  readMu : Bool := false
deriving DecidableEq, Repr

/-- What is queued, the oldest first. -/
def Conn.queued (c : Conn) : List Bytes :=
  c.queue.getD []

/-! ### The listener -/

/-- Where the loop of the listener is in `feed`, whose operations are loading `closed`, pushing,
loading `waitState`, and leaving a token. -/
inductive Feed where
  | idle
  | loadClosed (p : Bytes)
  | push (p : Bytes)
  | loadWaitState
  | wakeReader
deriving DecidableEq, Repr

/-- The next operation of `feed`. -/
def Feed.next (c : Conn) : Feed → Option (Conn × Feed)
  | .idle => none
  | .loadClosed p => some (c, if c.closed then .idle else .push p)
  | .push p => some ({ c with queue := c.queue.map (· ++ [p]) }, .loadWaitState)
  | .loadWaitState => some (c, if c.waiting then .wakeReader else .idle)
  | .wakeReader => some ({ c with notify := true }, .idle)

/-- Where the call of `Close` is: before it marks the connection as closed, before it closes
`die`, and before each of the operations by which it discards what is queued and then closes the
queue, each time under `readMu`. -/
inductive Closer where
  | fresh
  | closeDie
  | lockToDrain
  | drain
  | unlockDrained
  | lockToClose
  | closeQueue
  | unlockClosed
  | finished
deriving DecidableEq, Repr

/-- The next operation of `Close`. -/
def Closer.next (c : Conn) : Closer → Option (Conn × Closer)
  | .fresh => some ({ c with closed := true }, .closeDie)
  | .closeDie => some ({ c with die := true }, .lockToDrain)
  | .lockToDrain => if c.readMu then none else some ({ c with readMu := true }, .drain)
  | .drain => some ({ c with queue := c.queue.map fun _ => [] }, .unlockDrained)
  | .unlockDrained => some ({ c with readMu := false }, .lockToClose)
  | .lockToClose => if c.readMu then none else some ({ c with readMu := true }, .closeQueue)
  | .closeQueue => some ({ c with queue := none }, .unlockClosed)
  | .unlockClosed => some ({ c with readMu := false }, .finished)
  | .finished => none

/-! ### The reader -/

/-- A call of the reader: `Read` into `n` bytes, or `ReadPacket`. -/
inductive Call where
  | read (n : Nat)
  | readPacket
deriving DecidableEq, Repr

/-- A place where a call asks whether the connection or its listener is closed: before it takes
the lock, when it has found the queue empty, in `Read` also when it has found it empty for the
second time, and when `Read` returns. -/
inductive Spot where
  | entry (call : Call)
  | first (call : Call)
  | second (n : Nat)
  | leave
deriving DecidableEq, Repr

/-- Where the reader is.

* `loadClosed`, `loadListenerClosed`: asks whether it is closed;
* `locking`: about to lock `readMu`;
* `deadline`: about to look whether the deadline of a `Read` has passed;
* `scanning`: about to call `PartialRead`, with the number of bytes a `Read` has found so far;
* `popping`: about to call `Pop` in `ReadPacket`;
* `announcing`: about to store `stateWaiting`;
* `rescanning`: in `Read`, about to look into the queue for the second time;
* `found`, `swallowing`: has found bytes at its second look, is about to store `stateIdle`, and
  then to take the token away;
* `withdrawing`: about to store `stateIdle` and to return from `Read`;
* `parked`: waiting for a token, for the connection to be closed, or in `Read` for its deadline;
* `waking`: has got the token, about to store `stateIdle`;
* `draining`: discards what is queued, when `Read` returns from a closed connection;
* `unlocking`: about to release `readMu`. -/
inductive Reader where
  | idle
  | loadClosed (k : Spot)
  | loadListenerClosed (k : Spot)
  | locking (call : Call)
  | deadline (n : Nat)
  | scanning (n acc : Nat)
  | popping
  | announcing (call : Call)
  | rescanning (n : Nat)
  | found (n acc : Nat)
  | swallowing (n acc : Nat)
  | withdrawing
  | parked (call : Call)
  | waking (call : Call)
  | draining
  | unlocking
deriving DecidableEq, Repr

/-- What a step of the reader leaves open: the call that begins, and which of the things it waits
for a waiting reader gets. -/
inductive Choice where
  | go
  | start (call : Call)
  | die
  | timeout
deriving DecidableEq, Repr

/-- The beginning of the loop of a call. -/
def Call.loop : Call → Reader
  | .read n => .scanning n 0
  | .readPacket => .popping

/-- The return from a call that holds `readMu`. -/
def Call.leave : Call → Reader
  | .read _ => .loadClosed .leave
  | .readPacket => .unlocking

/-- Neither the connection nor its listener is closed. -/
def Spot.pass : Spot → Reader
  | .entry call => .locking call
  | .first call => .announcing call
  | .second n => .parked (.read n)
  | .leave => .unlocking

/-- The connection or its listener is closed. -/
def Spot.abort : Spot → Reader
  | .entry _ => .idle
  | .first call => call.leave
  | .second _ => .withdrawing
  | .leave => .draining

/-- `PartialRead` into what is left of the buffer of a `Read` that has found `acc` bytes. -/
def scan (c : Conn) (n acc : Nat) : Conn × Reader :=
  match c.queued with
  | [] => (c, if acc = 0 then .loadClosed (.first (.read n)) else .loadClosed .leave)
  | b :: bufs =>
      if n ≤ acc then (c, .loadClosed .leave)
      else
        ({ c with queue := some (dropFront (n - acc) (b :: bufs)) },
          .scanning n (acc + min (n - acc) b.length))

/-- `PartialRead` after the reader has announced itself. -/
def rescan (c : Conn) (n : Nat) : Conn × Reader :=
  match c.queued with
  | [] => (c, .loadClosed (.second n))
  | b :: bufs => ({ c with queue := some (dropFront n (b :: bufs)) }, .found n (min n b.length))

/-- `Pop`, whose result `ReadPacket` returns. -/
def pop (c : Conn) : Conn × Reader :=
  match c.queued with
  | [] => (c, .loadClosed (.first .readPacket))
  | _ :: bufs => ({ c with queue := some bufs }, .unlocking)

/-- A step of the reader. -/
def Reader.step (c : Conn) : Reader → Choice → Option (Conn × Reader)
  | .idle, .start call => some (c, if call = .read 0 then .idle else .loadClosed (.entry call))
  | .loadClosed k, .go => some (c, if c.closed then k.abort else .loadListenerClosed k)
  | .loadListenerClosed k, .go => some (c, if c.listenerClosed then k.abort else k.pass)
  | .locking (.read n), .go =>
      if c.readMu then none else some ({ c with readMu := true }, .deadline n)
  | .locking .readPacket, .go =>
      if c.readMu then none else some ({ c with readMu := true }, .popping)
  | .deadline n, .go => some (c, .scanning n 0)
  | .deadline _, .timeout => some (c, .loadClosed .leave)
  | .scanning n acc, .go => some (scan c n acc)
  | .popping, .go => some (pop c)
  | .announcing (.read n), .go => some ({ c with waiting := true }, .rescanning n)
  | .announcing .readPacket, .go => some ({ c with waiting := true }, .parked .readPacket)
  | .rescanning n, .go => some (rescan c n)
  | .found n acc, .go => some ({ c with waiting := false }, .swallowing n acc)
  | .swallowing n acc, .go => some ({ c with notify := false }, .scanning n acc)
  | .withdrawing, .go => some ({ c with waiting := false }, .loadClosed .leave)
  | .parked call, .go =>
      if c.notify then some ({ c with notify := false }, .waking call) else none
  | .parked call, .die =>
      if c.die then some (c, if call = .readPacket then .unlocking else .withdrawing) else none
  | .parked (.read _), .timeout => some (c, .withdrawing)
  | .waking call, .go => some ({ c with waiting := false }, call.loop)
  | .draining, .go => some ({ c with queue := c.queue.map fun _ => [] }, .unlocking)
  | .unlocking, .go => some ({ c with readMu := false }, .idle)
  | _, _ => none

/-! ### The connection -/

/-- A connection with the goroutines that use it. -/
structure State where
  conn : Conn := {}
  feed : Feed := .idle
  closer : Closer := .fresh
  reader : Reader := .idle

/-- What happens next: a step of the reader, a datagram that the listener finds for this
connection, the next operation of `feed` or of `Close`, or the mark of the listener that it is
closed. -/
inductive Action where
  | reader (o : Choice)
  | receive (p : Bytes)
  | feed
  | close
  | closeListener

namespace State

/-- A step of the connection. -/
def step (s : State) : Action → Option State
  | .reader o => (s.reader.step s.conn o).map fun r => { s with conn := r.1, reader := r.2 }
  | .receive p =>
      if s.feed = .idle ∧ p ≠ [] then some { s with feed := .loadClosed p } else none
  | .feed => (s.feed.next s.conn).map fun r => { s with conn := r.1, feed := r.2 }
  | .close => (s.closer.next s.conn).map fun r => { s with conn := r.1, closer := r.2 }
  | .closeListener => some { s with conn := { s.conn with listenerClosed := true } }

end State

/-- `ReadPacket` has found the queue empty and has not stored `stateWaiting` yet. -/
def Reader.unannounced : Reader → Bool
  | .loadClosed (.first .readPacket) => true
  | .loadListenerClosed (.first .readPacket) => true
  | .announcing .readPacket => true
  | _ => false

/-- A step that does not come at a bad moment: the listener does not load `waitState` when
`ReadPacket` has found the queue empty, has not stored `stateWaiting` yet, and a datagram is
queued. -/
def State.Timely (s : State) : Action → Prop
  | .feed => s.feed = .loadWaitState → s.reader.unannounced = true → s.conn.queued = []
  | _ => True

instance (s : State) (a : Action) : Decidable (s.Timely a) := by
  cases a <;> unfold State.Timely <;> infer_instance

/-! ### What the reader and the listener know of each other -/

/-- The reader has announced itself. -/
def Reader.announced : Reader → Prop
  | .rescanning _ => True
  | .loadClosed (.second _) => True
  | .loadListenerClosed (.second _) => True
  | .parked _ => True
  | _ => False

/-- The reader has looked into the queue for the last time before it waits. -/
def Reader.lookedLast (r : Reader) : Prop :=
  r.unannounced = true ∨ r.announced ∧ ∀ n, r ≠ .rescanning n

/-- The listener has pushed a datagram and will look whether the reader has announced itself, or
has seen that it has. -/
def Feed.serves (f : Feed) : Prop :=
  f = .loadWaitState ∨ f = .wakeReader

/-- What a step of the reader leaves: a reader that has announced itself has stored
`stateWaiting`, and one that has looked for the last time has found the queue empty. -/
structure Reader.Leaves (c : Conn) (r : Reader) (c' : Conn) (r' : Reader) : Prop where
  waiting : r'.announced → c'.waiting = true ∨ r.announced ∧ c' = c
  queued : r'.lookedLast → c'.queued = [] ∨ r.lookedLast ∧ c'.queued = c.queued
    ∧ c'.notify = c.notify

variable {c c' : Conn} {r r' : Reader}

/-- A step to a place where the reader is not about to wait. -/
theorem Reader.Leaves.of_not_lookedLast (hr' : ¬ r'.announced) (hlast : r'.unannounced = false) :
  Reader.Leaves c r c' r'
  := by
  constructor
  · intro h
    contradiction
  · rintro (h | h)
    · rw [hlast] at h
      contradiction
    · exact absurd h.1 hr'

/-- A step that changes nothing, of a reader that has looked for the last time. -/
theorem Reader.Leaves.of_lookedLast (hr : r.lookedLast) (hr' : r'.announced → r.announced) :
  Reader.Leaves c r c r'
  := by
  constructor
  · intro h
    exact Or.inr ⟨hr' h, rfl⟩
  · intro _
    exact Or.inr ⟨hr, rfl, rfl⟩

theorem Call.leaves_leave (call : Call) :
  Reader.Leaves c r c' call.leave
  := by
  cases call <;> exact Reader.Leaves.of_not_lookedLast id rfl

theorem Spot.leaves_abort (k : Spot) :
  Reader.Leaves c r c' k.abort
  := by
  cases k with
  | first call => apply Call.leaves_leave
  | _ => exact Reader.Leaves.of_not_lookedLast id rfl

theorem Spot.leaves_loadClosed (k : Spot) :
  Reader.Leaves c (.loadClosed k) c (.loadListenerClosed k)
  := by
  cases k with
  | first call =>
      cases call with
      | read n => exact Reader.Leaves.of_not_lookedLast id rfl
      | readPacket => exact Reader.Leaves.of_lookedLast (Or.inl rfl) id
  | second n => exact Reader.Leaves.of_lookedLast (Or.inr ⟨trivial, by simp⟩) id
  | _ => exact Reader.Leaves.of_not_lookedLast id rfl

theorem Spot.leaves_pass (k : Spot) :
  Reader.Leaves c (.loadListenerClosed k) c k.pass
  := by
  cases k with
  | first call =>
      cases call with
      | read n => exact Reader.Leaves.of_not_lookedLast id rfl
      | readPacket => exact Reader.Leaves.of_lookedLast (Or.inl rfl) id
  | second n => exact Reader.Leaves.of_lookedLast (Or.inr ⟨trivial, by simp⟩) id
  | _ => exact Reader.Leaves.of_not_lookedLast id rfl

theorem leaves_scan (c : Conn) (n acc : Nat) :
  Reader.Leaves c (.scanning n acc) (scan c n acc).1 (scan c n acc).2
  := by
  apply Reader.Leaves.of_not_lookedLast
  all_goals
    unfold scan
    grind [Reader.announced, Reader.unannounced]

theorem leaves_rescan (c : Conn) (n : Nat) :
  Reader.Leaves c (.rescanning n) (rescan c n).1 (rescan c n).2
  := by
  unfold rescan
  split
  · rename_i hqueued
    constructor
    · intro _
      exact Or.inr ⟨trivial, rfl⟩
    · intro _
      exact Or.inl hqueued
  · exact Reader.Leaves.of_not_lookedLast id rfl

theorem leaves_pop (c : Conn) :
  Reader.Leaves c .popping (pop c).1 (pop c).2
  := by
  unfold pop
  split
  · rename_i hqueued
    constructor
    · intro h
      contradiction
    · intro _
      exact Or.inl hqueued
  · exact Reader.Leaves.of_not_lookedLast id rfl

theorem Reader.leaves_step {o : Choice} (h : r.step c o = some (c', r')) :
  Reader.Leaves c r c' r'
  := by
  unfold Reader.step at h
  split at h
  case h_2 k =>
    cases h
    split
    · apply Spot.leaves_abort
    · apply Spot.leaves_loadClosed
  case h_3 k =>
    cases h
    split
    · apply Spot.leaves_abort
    · apply Spot.leaves_pass
  case h_8 n acc =>
    obtain ⟨rfl, rfl⟩ := Prod.mk.inj (Option.some.inj h)
    apply leaves_scan
  case h_9 =>
    obtain ⟨rfl, rfl⟩ := Prod.mk.inj (Option.some.inj h)
    apply leaves_pop
  case h_10 n =>
    cases h
    constructor
    · intro _
      exact Or.inl rfl
    · rintro (h | h)
      · contradiction
      · exact absurd rfl (h.2 n)
  case h_11 =>
    cases h
    constructor
    · intro _
      exact Or.inl rfl
    · intro _
      exact Or.inr ⟨Or.inl rfl, rfl, rfl⟩
  case h_12 n =>
    obtain ⟨rfl, rfl⟩ := Prod.mk.inj (Option.some.inj h)
    apply leaves_rescan
  case h_19 call =>
    cases h
    cases call <;> exact Leaves.of_not_lookedLast id rfl
  all_goals
    try split at h
    all_goals
      first
      | contradiction
      | cases h
        apply Leaves.of_not_lookedLast <;> grind [Reader.announced, Reader.unannounced]

/-- `Close` touches neither `waitState` nor the token, and only discards what is queued. -/
theorem Closer.leaves_next {k k' : Closer} (h : k.next c = some (c', k')) :
  c'.waiting = c.waiting ∧ c'.notify = c.notify ∧ (c'.queued = c.queued ∨ c'.queued = [])
  := by
  cases k
  case drain =>
    obtain ⟨rfl, -⟩ := Prod.mk.inj (Option.some.inj h)
    use rfl, rfl
    right
    cases c.queue <;> simp [Conn.queued]
  all_goals
    simp only [Closer.next] at h
    try split at h
    all_goals
      first
      | contradiction
      | obtain ⟨rfl, -⟩ := Prod.mk.inj (Option.some.inj h)
        simp [Conn.queued]

/-! ### No datagram waits behind a reader that waits -/

namespace State

/-- A reader that has announced itself has stored `stateWaiting`.  What is queued after its last
look is followed by a token. -/
structure Inv (s : State) : Prop where
  announced : s.reader.announced → s.conn.waiting = true
  queued : s.reader.lookedLast → s.conn.queued = [] ∨ s.conn.notify = true ∨ s.feed.serves

variable {s : State} {c : Conn}

theorem Inv.reader (hs : s.Inv) {o : Choice} {r : Reader}
    (h : s.reader.step s.conn o = some (c, r)) :
  ({ s with conn := c, reader := r } : State).Inv
  := by
  have hleaves := Reader.leaves_step h
  constructor
  · intro hr
    obtain hwaiting | ⟨hannounced, rfl⟩ := hleaves.waiting hr
    · exact hwaiting
    · exact hs.announced hannounced
  · intro hr
    obtain hqueued | ⟨hlast, hsame, hnotify⟩ := hleaves.queued hr
    · exact Or.inl hqueued
    · dsimp only
      rw [hsame, hnotify]
      exact hs.queued hlast

theorem Inv.feed (hs : s.Inv) (htimely : s.Timely .feed) {f : Feed}
    (h : s.feed.next s.conn = some (c, f)) :
  ({ s with conn := c, feed := f } : State).Inv
  := by
  cases hfeed : s.feed with
  | idle =>
      rw [hfeed] at h
      contradiction
  | loadClosed p =>
      rw [hfeed] at h
      cases h
      refine ⟨hs.announced, fun hr => ?_⟩
      refine (hs.queued hr).imp id (Or.imp id fun hserves => ?_)
      simp [Feed.serves, hfeed] at hserves
  | push p =>
      rw [hfeed] at h
      cases h
      exact ⟨hs.announced, fun _ => Or.inr (Or.inr (Or.inl rfl))⟩
  | loadWaitState =>
      rw [hfeed] at h
      cases h
      refine ⟨hs.announced, fun hr => ?_⟩
      obtain hlate | hannounced := hr
      · exact Or.inl (htimely hfeed hlate)
      · right; right; right
        simp [hs.announced hannounced.1]
  | wakeReader =>
      rw [hfeed] at h
      cases h
      exact ⟨hs.announced, fun _ => Or.inr (Or.inl rfl)⟩

theorem Inv.close (hs : s.Inv) {k : Closer} (h : s.closer.next s.conn = some (c, k)) :
  ({ s with conn := c, closer := k } : State).Inv
  := by
  obtain ⟨hwaiting, hnotify, hqueued⟩ := Closer.leaves_next h
  constructor
  · intro hr
    exact hwaiting.trans (hs.announced hr)
  · intro hr
    obtain hsame | hnil := hqueued
    · dsimp only
      rw [hsame, hnotify]
      exact hs.queued hr
    · exact Or.inl hnil

theorem inv_step {s' : State} {a : Action} (hs : s.Inv) (ha : s.Timely a)
    (hstep : s.step a = some s') :
  s'.Inv
  := by
  cases a with
  | reader o =>
      obtain ⟨⟨c, r⟩, h, rfl⟩ := Option.map_eq_some_iff.mp hstep
      apply hs.reader h
  | receive p =>
      obtain ⟨⟨hidle, -⟩, h⟩ := Option.ite_none_right_eq_some.mp hstep
      cases h
      refine ⟨hs.announced, fun hr => ?_⟩
      refine (hs.queued hr).imp id (Or.imp id fun hserves => ?_)
      simp [Feed.serves, hidle] at hserves
  | feed =>
      obtain ⟨⟨c, f⟩, h, rfl⟩ := Option.map_eq_some_iff.mp hstep
      apply hs.feed ha h
  | close =>
      obtain ⟨⟨c, k⟩, h, rfl⟩ := Option.map_eq_some_iff.mp hstep
      apply hs.close h
  | closeListener =>
      cases hstep
      exact ⟨hs.announced, hs.queued⟩

/-- In a run in which the listener never loads `waitState` at a bad moment, a reader that waits
while the listener is not in the middle of `feed` has a token, or nothing is queued. -/
theorem nothing_queued_of_parked
    (s : State) (hrun : Run step Timely {} s) (call : Call) (hparked : s.reader = .parked call)
    (hquiet : s.feed = .idle) :
  s.conn.queued = [] ∨ s.conn.notify = true
  := by
  have hinit : ({} : State).Inv := by
    constructor
    · intro h
      contradiction
    · rintro (h | h)
      · contradiction
      · exact absurd h.1 id
  have hinv : s.Inv := hrun.invariant (fun _ _ _ => inv_step) hinit
  have hqueued := hinv.queued (by rw [hparked]; exact Or.inr ⟨trivial, by simp⟩)
  simpa [Feed.serves, hquiet] using hqueued

/-- An instance: a call of `ReadPacket` waits, and then a datagram comes. -/
theorem nothing_queued_of_parked_receive :
  ∃ s, Run step Timely {} s ∧ s.reader = .parked .readPacket ∧ s.conn.queued = [[7]]
    ∧ (s.conn.queued = [] ∨ s.conn.notify = true)
  := by
  obtain ⟨s, hrun, hparked, hqueued, hquiet⟩ := Run.exists_of_exec step Timely {}
    (List.flatten [[.reader (.start .readPacket)], List.replicate 7 (.reader .go),
      [.receive [7]], List.replicate 4 .feed])
    (fun s => s.reader = .parked .readPacket ∧ s.conn.queued = [[7]] ∧ s.feed = .idle)
    (by decide +kernel)
  use s, hrun, hparked, hqueued
  exact nothing_queued_of_parked s hrun .readPacket hparked hquiet

/-- A datagram that waits behind a reader that waits: it is pushed, and `waitState` is loaded,
after `ReadPacket` has found the queue empty and before it stores `stateWaiting`. -/
theorem queued_behind_parked :
  ∃ s, Run step (fun _ _ => True) {} s ∧ s.reader = .parked .readPacket ∧ s.feed = .idle
    ∧ ¬ (s.conn.queued = [] ∨ s.conn.notify = true)
  := by
  apply Run.exists_of_exec step (fun _ _ => True) {}
    (List.flatten [[.reader (.start .readPacket)], List.replicate 6 (.reader .go),
      [.receive [7]], List.replicate 3 .feed, [.reader .go]])
  decide +kernel

end State

end Muxocket.PacketWakeup
