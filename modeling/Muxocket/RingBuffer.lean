import Mathlib.Data.UInt
import Mathlib.Logic.Function.Basic
import Muxocket.Lib.Run
import Muxocket.Lib.Segments
import Muxocket.Frame

/-!
# The ring buffer, step by step

A channel hands what it receives to its reader in a ring: a chain of chunks of slots, at whose
end one producer pushes and at whose beginning one consumer takes.  A chunk that the consumer
has left is kept for the producer in `freeChunk`, and small chunks go back to a pool that all
rings share.

Here the operations of the ring are sequences of steps, each of which reads or writes shared
memory once, and the steps of the producers and consumers of any number of rings may come in any
order.  The consumer of a ring is whoever holds the read lock of its channel, so `Close` is one
of its operations.  The last fields of a ring and the field `loose` of the memory are history,
on which no step depends.
-/

namespace Muxocket.RingBuffer

/-- The minimum number of slots of a chunk. -/
def minChunkCap : Nat := 16

/-- The maximum number of slots of a chunk. -/
def maxChunkCap : Nat := 64 * 2 ^ 10

/-- The maximum number of slots of a chunk that is kept. -/
def maxRecycleSlots : Nat := 2 ^ 10

/-- A slot of a chunk: the bytes that are left of a buffer, and a reference to the buffer. -/
structure Slot where
  buf : Bytes
  head : Option Nat
deriving DecidableEq, Repr

/-- A slot without a buffer. -/
def noSlot : Slot := ⟨[], none⟩

/-- A chunk. -/
abbrev Chunk := Segment Slot

/-- A chunk as it is allocated. -/
def zeroChunk (cap : Nat) : Chunk where
  slots := fun _ => noSlot
  cap := cap
  tail := 0
  next := none

/-- The least power of two, from `cap` on, that is not below a capacity.  No capacity is above
`maxChunkCap`, which is the sixteenth. -/
def doubled (capacity : Nat) : Nat → Nat → Nat
  | 0, cap => cap
  | fuel + 1, cap => if cap < capacity then doubled capacity fuel (cap * 2) else cap

/-- The parts of a chunk that are cleared before it is used again, one after the other. -/
inductive Wipe where
  | slots
  | tail
  | next
deriving DecidableEq, Repr

/-- The part that is cleared after this one. -/
def Wipe.after : Wipe → Option Wipe
  | .slots => some .tail
  | .tail => some .next
  | .next => none

/-- A chunk of which a part is cleared. -/
def Wipe.apply : Wipe → Chunk → Chunk
  | .slots, c => { c with slots := fun _ => noSlot }
  | .tail, c => { c with tail := 0 }
  | .next, c => { c with next := none }

/-! ### Producers -/

/-- What a chunk is allocated for: a new ring, or a push of `x` after the chunk `pc`, which is
full. -/
inductive Purpose where
  | ring
  | push (x : Slot) (pc : Nat)
deriving DecidableEq, Repr

/-- Where a producer is. -/
inductive Producer where
  /-- The ring has not been made. -/
  | unborn
  /-- In `newChunk`. -/
  | allocating (p : Purpose) (capacity : Nat)
  /-- In `newChunk`, with a chunk of the pool. -/
  | resetting (p : Purpose) (a : Nat) (w : Wipe)
  /-- With the chunk `a`, which is not in the chain yet. -/
  | linking (p : Purpose) (a : Nat)
  | idle
  /-- In `feed`, where the channel was not closed. -/
  | checked (x : Slot)
  /-- In `Push`, which has read `pChunk`. -/
  | pushing (x : Slot) (pc : Nat)
  /-- The chunk `pc` is full. -/
  | full (x : Slot) (pc : Nat)
  /-- In `Length`. -/
  | measuring (x : Slot) (pc : Nat) (pushed : Nat)
  | lagging (x : Slot) (pc : Nat) (lag : Nat)
  /-- Clearing a chunk from the free list, to reuse it or to return it to the pool. -/
  | wiping (x : Slot) (pc : Nat) (a : Nat) (reuse : Bool) (w : Wipe)
  | returning (x : Slot) (pc : Nat) (a : Nat)
  /-- The chunk `a` is in the chain, and `pChunk` is not set. -/
  | linked (x : Slot) (a : Nat)
  /-- About to store the slot. -/
  | storing (x : Slot) (pc : Nat)
  /-- About to store the tail. -/
  | stored (x : Slot) (pc : Nat) (idx : Nat)
  /-- About to store the number of slots pushed. -/
  | counting
deriving DecidableEq, Repr

/-! ### Consumers -/

/-- The operations of the consumer that look at the oldest slot. -/
inductive Call where
  | pop
  | partialRead (n : Nat)
  | peek
  | advance (n : Nat)
deriving DecidableEq, Repr

/-- What the caller gets to see of the oldest slot. -/
def Call.shows : Call → Slot → List Slot
  | .pop, x => [x]
  | .partialRead n, x => [{ x with buf := x.buf.take n }]
  | .peek, x => if x.buf = [] then [] else [x]
  | .advance _, _ => []

/-- The number of bytes that the call takes from the oldest slot. -/
def Call.eats : Call → Nat
  | .pop => 0
  | .partialRead n => n
  | .peek => 0
  | .advance n => n

/-- Whether the call removes the oldest slot. -/
def Call.removes (c : Call) (x : Slot) : Bool :=
  decide (c = .pop) || decide (x.buf.drop c.eats = [])

/-- What happens to the queue that a ring is: a push has its slot in it, a call finds the oldest
slot, or it finds none. -/
inductive Event where
  | put (x : Slot)
  | took (c : Call) (x : Slot)
  | missed (c : Call)
deriving DecidableEq, Repr

/-- What a consumer does after it has recycled a chunk: it goes on to the next chunk, or goes on
with `Close`. -/
inductive After where
  | move (c : Call) (due : Nat) (n : Nat)
  | closeRing
  | free (next : Option Nat)
deriving DecidableEq, Repr

/-- Where a consumer is.  The numbers `due` are how many pushes were complete when its call
began. -/
inductive Consumer where
  | idle
  /-- At the chunk `cc`. -/
  | looking (c : Call) (due : Nat) (cc : Nat)
  /-- At the end of the chunk `cc`. -/
  | atEnd (c : Call) (due : Nat) (cc : Nat)
  /-- About to leave the chunk `cc` for the next. -/
  | leaving (c : Call) (due : Nat) (cc n : Nat)
  /-- In `recycleChunk`. -/
  | wiping (k : After) (a : Nat) (w : Wipe)
  | returning (k : After) (a : Nat)
  | moving (c : Call) (due : Nat) (n : Nat)
  /-- About to look at the oldest slot. -/
  | taking (c : Call) (cc : Nat)
  /-- About to store the number of slots popped. -/
  | counting
  /-- In `Close`, about to empty the free list. -/
  | closing
  /-- About to read `cChunk`. -/
  | closingRing
  /-- About to clear `cChunk`. -/
  | closingConsumer (cur : Option Nat)
  /-- About to clear `pChunk`. -/
  | closingProducer (cur : Option Nat)
  /-- About to recycle the chunks from `cur` on. -/
  | freeing (cur : Option Nat)
deriving DecidableEq, Repr

/-- Where a consumer is after it has recycled a chunk. -/
def After.resume : After → Consumer
  | .move c due n => .moving c due n
  | .closeRing => .closingRing
  | .free next => .freeing next

/-! ### The state -/

/-- A ring. -/
structure Ring where
  cChunk : Option Nat
  cHead : Nat
  cachedTail : Nat
  popped : Nat
  totalPopped : Nat
  freeChunk : Option Nat
  pChunk : Option Nat
  pushed : Nat
  totalPushed : Nat
  /-- Whether the channel of the ring is closed. -/
  closed : Bool
  producer : Producer
  consumer : Consumer
  /-- The slots pushed. -/
  puts : List Slot
  /-- The slots popped. -/
  gets : List Slot
  /-- What callers got to see. -/
  shown : List Slot
  /-- The calls of the consumer. -/
  calls : List Call
  /-- For every call that found the ring empty, how many pushes were complete when it began, and
  how many slots had been removed when it found the ring empty. -/
  empties : List (Nat × Nat)
  /-- What happened to the queue. -/
  log : List Event
  /-- Whether `Close` has been called. -/
  ended : Bool
deriving DecidableEq

/-- A ring that has not been made. -/
def unbornRing : Ring where
  cChunk := none
  cHead := 0
  cachedTail := 0
  popped := 0
  totalPopped := 0
  freeChunk := none
  pChunk := none
  pushed := 0
  totalPushed := 0
  closed := false
  producer := .unborn
  consumer := .idle
  puts := []
  gets := []
  shown := []
  calls := []
  empties := []
  log := []
  ended := false

/-- The memory of all rings.  `loose` says of a chunk that it has been handed to a free list or
to the pool, and not been put in a chain since. -/
structure State where
  chunks : Nat → Chunk
  made : Nat
  pool : List Nat
  rings : Nat → Ring
  loose : Nat → Bool

namespace State

/-- No rings. -/
def init : State where
  chunks := fun _ => zeroChunk 0
  made := 0
  pool := []
  rings := fun _ => unbornRing
  loose := fun _ => false

/-- Change a ring. -/
def setRing (r : Nat) (f : Ring → Ring) (s : State) : State :=
  { s with rings := Function.update s.rings r (f (s.rings r)) }

/-- Change a chunk. -/
def setChunk (a : Nat) (f : Chunk → Chunk) (s : State) : State :=
  { s with chunks := Function.update s.chunks a (f (s.chunks a)) }

/-- Say where the producer of a ring is. -/
def setProducer (r : Nat) (p : Producer) (s : State) : State :=
  s.setRing r fun R => { R with producer := p }

/-- Say where the consumer of a ring is. -/
def setConsumer (r : Nat) (c : Consumer) (s : State) : State :=
  s.setRing r fun R => { R with consumer := c }

/-- Allocate a chunk. -/
def make (cap : Nat) (s : State) : State :=
  { s with chunks := Function.update s.chunks s.made (zeroChunk cap), made := s.made + 1 }

/-- Put a chunk in the pool. -/
def put (a : Nat) (s : State) : State :=
  { s with pool := a :: s.pool, loose := Function.update s.loose a true }

/-- Note that a chunk has been put in a chain. -/
def tie (a : Nat) (s : State) : State :=
  { s with loose := Function.update s.loose a false }

/-- Note that a chunk has been handed to a free list. -/
def untie (a : Nat) (s : State) : State :=
  { s with loose := Function.update s.loose a true }

/-! ### Steps of a producer -/

/-- `newChunk`: small chunks come from the pool, where `pick` says which one, if any, the pool
gives; without one it makes a new chunk. -/
def newChunk (r : Nat) (p : Purpose) (capacity : Nat) (pick : Option Nat) (s : State) :
    Option State :=
  if capacity ≤ minChunkCap then
    match pick with
    | some i =>
        (s.pool[i]?).map fun a =>
          { s with pool := s.pool.eraseIdx i }.setProducer r (.resetting p a .tail)
    | none => some ((s.make minChunkCap).setProducer r (.resetting p s.made .tail))
  else some ((s.make (doubled capacity 16 1)).setProducer r (.linking p s.made))

/-- The capacity of the chunk after a full one, with `lag` slots in the ring. -/
def nextCap (cap lag : Nat) : Nat :=
  if cap ≤ lag then (if maxChunkCap < cap * 2 then maxChunkCap else cap * 2) else cap

/-- `Push` empties the free list: without a backlog the chunk there is recycled and a small one
is allocated, and with a backlog the chunk is reused, or one is allocated. -/
def grow (r : Nat) (x : Slot) (pc lag : Nat) (s : State) : State :=
  let R := s.rings r
  let s := s.setRing r fun R => { R with freeChunk := none }
  if lag = 0 then
    match R.freeChunk with
    | some a =>
        if (s.chunks a).cap = minChunkCap then s.setProducer r (.wiping x pc a false .slots)
        else s.setProducer r (.allocating (.push x pc) minChunkCap)
    | none => s.setProducer r (.allocating (.push x pc) minChunkCap)
  else
    match R.freeChunk with
    | some a => s.setProducer r (.wiping x pc a true .slots)
    | none => s.setProducer r (.allocating (.push x pc) (nextCap (s.chunks pc).cap lag))

/-- The next step of the producer of a ring. -/
def produce (r : Nat) (pick : Option Nat) (s : State) : Option State :=
  let R := s.rings r
  match R.producer with
  | .unborn => some (s.setProducer r (.allocating .ring 8))
  | .allocating p capacity => s.newChunk r p capacity pick
  | .resetting p a w =>
      some ((s.setChunk a w.apply).setProducer r
        (match w.after with
          | some w => .resetting p a w
          | none => .linking p a))
  | .linking .ring a =>
      some ((s.tie a).setRing r fun R =>
        { R with cChunk := some a, pChunk := some a, producer := .idle })
  | .linking (.push x pc) a =>
      some (((s.tie a).setChunk pc fun c => { c with next := some a }).setProducer r (.linked x a))
  | .idle => none
  | .checked x =>
      match R.pChunk with
      | none => some (s.setProducer r .idle)
      | some pc =>
          some (s.setRing r fun R =>
            { R with producer := .pushing x pc, puts := R.puts ++ [x] })
  | .pushing x pc =>
      if (s.chunks pc).cap ≤ (s.chunks pc).tail then some (s.setProducer r (.full x pc))
      else some (s.setProducer r (.storing x pc))
  | .full x pc => some (s.setProducer r (.measuring x pc R.totalPushed))
  | .measuring x pc pushed => some (s.setProducer r (.lagging x pc (pushed - R.totalPopped)))
  | .lagging x pc lag => some (s.grow r x pc lag)
  | .wiping x pc a reuse w =>
      some ((s.setChunk a w.apply).setProducer r
        (match w.after with
          | some w => .wiping x pc a reuse w
          | none => if reuse then .linking (.push x pc) a else .returning x pc a))
  | .returning x pc a =>
      some ((s.put a).setProducer r (.allocating (.push x pc) minChunkCap))
  | .linked x a => some (s.setRing r fun R => { R with pChunk := some a, producer := .storing x a })
  | .storing x pc =>
      some ((s.setChunk pc fun c =>
        { c with slots := Function.update c.slots c.tail x }).setProducer r
          (.stored x pc (s.chunks pc).tail))
  | .stored x pc idx =>
      some ((s.setChunk pc fun c => { c with tail := idx + 1 }).setRing r fun R =>
        { R with producer := .counting, log := R.log ++ [.put x] })
  | .counting =>
      some (s.setRing r fun R =>
        { R with pushed := R.pushed + 1, totalPushed := R.pushed + 1, producer := .idle })

/-- `feed` looks whether the channel of a ring is closed, and calls `Push` if it is not. -/
def feed (r : Nat) (x : Slot) (s : State) : Option State :=
  if (s.rings r).producer = .idle then
    if (s.rings r).closed then some s else some (s.setProducer r (.checked x))
  else none

/-! ### Steps of a consumer -/

/-- A call finds the ring empty. -/
def report (r : Nat) (c : Call) (due : Nat) (s : State) : State :=
  s.setRing r fun R =>
    { R with consumer := .idle, empties := R.empties ++ [(due, R.popped)]
             log := R.log ++ [.missed c] }

/-- Whether a ring is made and its consumer has nothing to do. -/
def ready (r : Nat) (s : State) : Bool :=
  decide ((s.rings r).consumer = .idle)
    && match (s.rings r).producer with
      | .unborn | .allocating .ring _ | .resetting .ring _ _ | .linking .ring _ => false
      | _ => true

/-- The consumer of a ring begins a call. -/
def call (r : Nat) (c : Call) (s : State) : Option State :=
  if s.ready r then
    let s := s.setRing r fun R => { R with calls := R.calls ++ [c] }
    match (s.rings r).cChunk with
    | none => some (s.report r c (s.rings r).totalPushed)
    | some cc => some (s.setConsumer r (.looking c (s.rings r).totalPushed cc))
  else none

/-- The consumer of a ring begins `Close`. -/
def close (r : Nat) (s : State) : Option State :=
  if s.ready r then some (s.setRing r fun R => { R with consumer := .closing, ended := true })
  else none

/-- `recycleChunk`: small chunks are cleared and go to the pool. -/
def recycleChunk (r : Nat) (k : After) (a : Nat) (s : State) : State :=
  if (s.chunks a).cap = minChunkCap then s.setConsumer r (.wiping k a .slots)
  else s.setConsumer r k.resume

/-- The consumer leaves a chunk, which goes to the free list if it is not too large, and recycles
the one that was there. -/
def leave (r : Nat) (c : Call) (due cc n : Nat) (s : State) : State :=
  if (s.chunks cc).cap ≤ maxRecycleSlots then
    let R := s.rings r
    let s := (s.untie cc).setRing r fun R => { R with freeChunk := some cc }
    match R.freeChunk with
    | some a => s.recycleChunk r (.move c due n) a
    | none => s.setConsumer r (.moving c due n)
  else s.setConsumer r (.moving c due n)

/-- The consumer looks at the oldest slot, and removes it or takes bytes from it. -/
def take (r : Nat) (c : Call) (cc : Nat) (s : State) : State :=
  let R := s.rings r
  let x := (s.chunks cc).slots R.cHead
  let s := s.setRing r fun R =>
    { R with shown := R.shown ++ c.shows x, gets := if c = .pop then R.gets ++ [x] else R.gets
             log := R.log ++ [.took c x] }
  let store := fun y => s.setChunk cc fun ch =>
    { ch with slots := Function.update ch.slots R.cHead y }
  if c.removes x then
    (store noSlot).setRing r fun R =>
      { R with cHead := R.cHead + 1, popped := R.popped + 1, consumer := .counting }
  else (store { x with buf := x.buf.drop c.eats }).setConsumer r .idle

/-- The next step of the consumer of a ring. -/
def consume (r : Nat) (s : State) : Option State :=
  let R := s.rings r
  match R.consumer with
  | .idle => none
  | .looking c due cc =>
      if R.cHead < R.cachedTail then some (s.setConsumer r (.taking c cc))
      else
        let s := s.setRing r fun R => { R with cachedTail := (s.chunks cc).tail }
        if R.cHead < (s.chunks cc).tail then some (s.setConsumer r (.taking c cc))
        else if (s.chunks cc).cap ≤ R.cHead then some (s.setConsumer r (.atEnd c due cc))
        else some (s.report r c due)
  | .atEnd c due cc =>
      match (s.chunks cc).next with
      | none => some (s.report r c due)
      | some n => some (s.setConsumer r (.leaving c due cc n))
  | .leaving c due cc n => some (s.leave r c due cc n)
  | .wiping k a w =>
      some ((s.setChunk a w.apply).setConsumer r
        (match w.after with
          | some w => .wiping k a w
          | none => .returning k a))
  | .returning k a => some ((s.put a).setConsumer r k.resume)
  | .moving c due n =>
      some (s.setRing r fun R =>
        { R with cChunk := some n, cHead := 0, cachedTail := 0, consumer := .looking c due n })
  | .taking c cc => some (s.take r c cc)
  | .counting => some (s.setRing r fun R => { R with totalPopped := R.popped, consumer := .idle })
  | .closing =>
      let s := s.setRing r fun R => { R with freeChunk := none }
      match R.freeChunk with
      | some a => some (s.recycleChunk r .closeRing a)
      | none => some (s.setConsumer r .closingRing)
  | .closingRing => some (s.setConsumer r (.closingConsumer R.cChunk))
  | .closingConsumer cur =>
      some (s.setRing r fun R => { R with cChunk := none, consumer := .closingProducer cur })
  | .closingProducer cur =>
      some (s.setRing r fun R => { R with pChunk := none, consumer := .freeing cur })
  | .freeing none => some (s.setConsumer r .idle)
  | .freeing (some a) => some (s.recycleChunk r (.free (s.chunks a).next) a)

end State

/-- What can happen. -/
inductive Action where
  /-- `feed` is called for a ring. -/
  | feed (r : Nat) (x : Slot)
  | produce (r : Nat) (pick : Option Nat)
  /-- The consumer of a ring begins a call. -/
  | call (r : Nat) (c : Call)
  | close (r : Nat)
  | consume (r : Nat)
  /-- The channel of a ring is closed. -/
  | shut (r : Nat)
  /-- The pool forgets a chunk. -/
  | evict (i : Nat)
deriving DecidableEq, Repr

/-- What becomes of the rings by an action, if it can happen. -/
def State.step (s : State) : Action → Option State
  | .feed r x => s.feed r x
  | .produce r pick => s.produce r pick
  | .call r c => s.call r c
  | .close r => s.close r
  | .consume r => s.consume r
  | .shut r => some (s.setRing r fun R => { R with closed := true })
  | .evict i => some { s with pool := s.pool.eraseIdx i }

end Muxocket.RingBuffer
