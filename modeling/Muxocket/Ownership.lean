import Mathlib.Order.Nat
import Muxocket.ByteQueue

/-!
# Who owns a chunk

Every chunk has at most one owner: the pool, the chain of a ring, the free list of a ring, or
the producer or the consumer of a ring, who is about to hand it on.  Only a ring that owns a chunk
writes to it, which is why rings that share the pool do not disturb each other, as long as no
`Close` takes the chain from under a `Push`.
-/

namespace Muxocket.RingBuffer

open Function

open Segment

/-- Who owns a chunk. -/
inductive Owner where
  | nobody
  | pool
  | chain (r : Nat)
  | spare (r : Nat)
  | producer (r : Nat)
  | consumer (r : Nat)
deriving DecidableEq, Repr

/-- The ring an owner belongs to. -/
@[simp]
def Owner.ring : Owner → Option Nat
  | .nobody | .pool => none
  | .chain r | .spare r | .producer r | .consumer r => some r

/-- What has not the owner of a chunk is another one. -/
theorem ne_of_owner {own : Nat → Owner} {a b : Nat} {o : Owner} (howner : own a = o)
    (hb : own b ≠ o) :
  b ≠ a
  := by
  rintro rfl
  exact hb howner

namespace Producer

/-- The chunk a producer has for itself. -/
@[simp]
def held : Producer → Option Nat
  | .resetting _ a _ | .linking _ a | .wiping _ _ a _ _ | .returning _ _ a => some a
  | _ => none

/-- The chunk a push found in `pChunk`, or has put there. -/
@[simp]
def target : Producer → Option Nat
  | .allocating (.push _ pc) _ | .resetting (.push _ pc) _ _ | .linking (.push _ pc) _
  | .pushing _ pc | .full _ pc | .measuring _ pc _ | .lagging _ pc _ | .wiping _ pc _ _ _
  | .returning _ pc _ | .storing _ pc | .stored _ pc _ => some pc
  | _ => none

/-- The slot of a push that has read `pChunk` and not stored the tail. -/
@[simp]
def pending : Producer → List Slot
  | .allocating (.push x _) _ | .resetting (.push x _) _ _ | .linking (.push x _) _
  | .pushing x _ | .full x _ | .measuring x _ _ | .lagging x _ _ | .wiping x _ _ _ _
  | .returning x _ _ | .linked x _ | .storing x _ | .stored x _ _ => [x]
  | _ => []

/-- Whether the ring is not made yet. -/
@[simp]
def making : Producer → Bool
  | .unborn | .allocating .ring _ | .resetting .ring _ _ | .linking .ring _ => true
  | _ => false

/-- What is known of the chunks a producer works with. -/
def Phase (chunks : Nat → Chunk) (chain : List Nat) : Producer → Prop
  | .allocating (.push _ pc) _ | .full _ pc | .measuring _ pc _ | .lagging _ pc _
  | .returning _ pc _ => (chunks pc).tail = (chunks pc).cap
  | .resetting .ring a w => w = .next → (chunks a).tail = 0
  | .resetting (.push _ pc) a w | .wiping _ pc a _ w =>
      (chunks pc).tail = (chunks pc).cap ∧ (w = .next → (chunks a).tail = 0)
  | .linking .ring a => (chunks a).tail = 0 ∧ (chunks a).next = none
  | .linking (.push _ pc) a =>
      (chunks pc).tail = (chunks pc).cap ∧ (chunks a).tail = 0 ∧ (chunks a).next = none
  | .linked _ a => chain.getLast? = some a ∧ (chunks a).tail = 0
  | .storing _ pc => (chunks pc).tail < (chunks pc).cap
  | .stored x pc idx =>
      idx = (chunks pc).tail ∧ (chunks pc).tail < (chunks pc).cap ∧ (chunks pc).slots idx = x
  | _ => True

end Producer

/-- A producer goes on with what it does, before it counts a push. -/
def Producer.Steady (p p' : Producer) : Prop :=
  p'.making = p.making ∧ p'.pending = p.pending ∧ p ≠ .counting ∧ p' ≠ .counting

/-- The producer of a ring whose chain is `as`. -/
structure ProducerOk (chunks : Nat → Chunk) (own : Nat → Owner) (r : Nat) (R : Ring)
    (as : List Nat) : Prop where
  held : ∀ a, R.producer.held = some a → own a = .producer r
  target : ∀ pc, R.producer.target = some pc → as.getLast? = some pc
  last : (∀ x a, R.producer ≠ .linked x a) → R.pChunk = as.getLast?
  making : R.producer.making = true → as = []
  phase : R.producer.Phase chunks as

/-- What the consumer has read of the first chunk of its chain. -/
def Window (chunks : Nat → Chunk) (R : Ring) (as : List Nat) : Prop :=
  ∀ cc, as.head? = some cc → R.cHead ≤ R.cachedTail ∧ R.cachedTail ≤ (chunks cc).tail

/-- Where a consumer is that is not recycling a chunk.  The chunks `ds` are those that `Close` has
still to recycle. -/
def Place (chunks : Nat → Chunk) (R : Ring) (as ds : List Nat) : Consumer → Prop
  | .idle | .counting | .closing | .closingRing => R.cChunk = as.head? ∧ Window chunks R as
  | .looking _ due cc =>
      R.cChunk = as.head? ∧ Window chunks R as ∧ as.head? = some cc ∧ due ≤ R.pushed
  | .atEnd _ due cc =>
      R.cChunk = as.head? ∧ Window chunks R as ∧ as.head? = some cc ∧ due ≤ R.pushed
        ∧ (chunks cc).tail = (chunks cc).cap ∧ R.cHead = (chunks cc).cap
  | .leaving _ due cc n =>
      R.cChunk = as.head? ∧ Window chunks R as ∧ as.head? = some cc ∧ due ≤ R.pushed
        ∧ (chunks cc).tail = (chunks cc).cap ∧ R.cHead = (chunks cc).cap
        ∧ (chunks cc).next = some n
  | .moving _ due n => as.head? = some n ∧ due ≤ R.pushed
  | .taking _ cc =>
      R.cChunk = as.head? ∧ Window chunks R as ∧ as.head? = some cc ∧ R.cHead < R.cachedTail
  | .closingConsumer cur => R.cChunk = as.head? ∧ Window chunks R as ∧ cur = as.head?
  | .closingProducer cur => R.cChunk = none ∧ Window chunks R as ∧ cur = as.head?
  | .freeing cur => R.cChunk = none ∧ as = [] ∧ cur = ds.head?
  | .wiping _ _ _ | .returning _ _ => False

/-- The chunk a consumer is recycling. -/
@[simp]
def Consumer.held : Consumer → Option Nat
  | .wiping _ a _ | .returning _ a => some a
  | _ => none

/-- Where a consumer is when it has recycled the chunk it is recycling. -/
@[simp]
def Consumer.place : Consumer → Consumer
  | .wiping k _ _ | .returning k _ => k.resume
  | c => c

/-- The call a consumer is in. -/
@[simp]
def Consumer.call : Consumer → Option Call
  | .looking c _ _ | .atEnd c _ _ | .leaving c _ _ _ | .moving c _ _ | .taking c _ => some c
  | _ => none

/-- Whether a consumer is in `Close`. -/
@[simp]
def Consumer.closes : Consumer → Bool
  | .closing | .closingRing | .closingConsumer _ | .closingProducer _ | .freeing _ => true
  | _ => false

/-- The consumer of a ring whose chain is `as`. -/
structure ConsumerOk (chunks : Nat → Chunk) (own : Nat → Owner) (r : Nat) (R : Ring)
    (as ds : List Nat) : Prop where
  held : ∀ a, R.consumer.held = some a → own a = .consumer r ∧ a ∉ ds
  place : Place chunks R as ds R.consumer.place
  spare : ∀ a, R.freeChunk = some a → own a = .spare r
  dying : ∀ a ∈ ds, own a = .consumer r
  nodup : ds.Nodup
  threaded : Threaded chunks ds
  called : ∀ c, R.consumer.place.call = some c → c ∈ R.calls
  closes : R.consumer.place.closes = true → R.ended = true

/-- The chain of a ring. -/
structure ChainOk (chunks : Nat → Chunk) (own : Nat → Owner) (r : Nat) (as : List Nat) : Prop where
  owned : ∀ a ∈ as, own a = .chain r
  nodup : as.Nodup
  threaded : Threaded chunks as
  full : ∀ a ∈ as.dropLast, (chunks a).tail = (chunks a).cap
  bound : ∀ a ∈ as, (chunks a).tail ≤ (chunks a).cap

/-- Slots of which the first has lost its first `e` bytes. -/
def eat (e : Nat) : List Slot → List Slot
  | [] => []
  | x :: xs => { x with buf := x.buf.drop e } :: xs

/-- The index of the oldest slot in the first chunk of the chain. -/
def Ring.start (R : Ring) : Nat :=
  match R.consumer.place with
  | .moving _ _ _ => 0
  | _ => R.cHead

/-- The consumer has called nothing but `Pop`. -/
def Ring.PopsOnly (R : Ring) : Prop :=
  ∀ c ∈ R.calls, c = .pop

/-- What is in a ring, and what has been. -/
structure ContentOk (chunks : Nat → Chunk) (R : Ring) (as : List Nat) : Prop where
  content : as ≠ [] → ∃ e rest, R.puts.drop R.popped = rest ++ R.producer.pending
    ∧ live chunks R.start as = eat e rest ∧ (R.PopsOnly → e = 0)
  pushed : R.pushed + R.producer.pending.length + (if R.producer = .counting then 1 else 0)
    = R.puts.length
  total : R.totalPushed = R.pushed
  shown : ∀ y ∈ R.shown, ∃ x ∈ R.puts, y.head = x.head ∧ y.buf <:+: x.buf
  gets : R.PopsOnly → R.gets = R.puts.take R.popped
  popped : R.popped ≤ R.puts.length
  empties : R.ended = false → ∀ e ∈ R.empties, e.1 ≤ e.2
  made : R.ended = false → R.producer.making = false → as ≠ []
  new : R.producer.making = true →
    R.consumer = .idle ∧ R.cHead = 0 ∧ R.cachedTail = 0 ∧ R.puts = [] ∧ R.log = []
  replayed : as ≠ [] → replay R.log = some (live chunks R.start as)
  logged : R.puts = R.log.flatMap Event.puts ++ R.producer.pending
  counted : R.consumer ≠ .counting → R.totalPopped = R.popped

/-- A ring whose chain is `as`, and of which the chunks `ds` are to be recycled. -/
structure RingOk (chunks : Nat → Chunk) (own : Nat → Owner) (r : Nat) (R : Ring)
    (as ds : List Nat) : Prop where
  chain : ChainOk chunks own r as
  producer : ProducerOk chunks own r R as
  consumer : ConsumerOk chunks own r R as ds
  content : ContentOk chunks R as

/-- The memory of all rings, with the owners of the chunks, the chains of the rings, and the
chunks that are to be recycled. -/
structure State.Owned (own : Nat → Owner) (chain dying : Nat → List Nat) (s : State) : Prop where
  pool : ∀ a ∈ s.pool, own a = .pool
  nodup : s.pool.Nodup
  unmade : ∀ a, s.made ≤ a → own a = .nobody
  cap : ∀ a, own a ≠ .nobody → 0 < (s.chunks a).cap
  tied : ∀ a r, own a = .chain r → s.loose a = false
  ring : ∀ r, RingOk s.chunks own r (s.rings r) (chain r) (dying r)

/-! ### What a ring does not notice -/

section

variable {chunks chunks' : Nat → Chunk} {own own' : Nat → Owner} {r : Nat} {R R' : Ring}
  {as as' ds : List Nat}

theorem ChainOk.congr (h : ChainOk chunks own r as)
    (hsame : ∀ a ∈ as, (chunks' a).next = (chunks a).next ∧ (chunks' a).tail = (chunks a).tail
      ∧ (chunks' a).cap = (chunks a).cap ∧ own' a = own a) :
  ChainOk chunks' own' r as
  where
  owned a ha := by rw [(hsame a ha).2.2.2, h.owned a ha]
  nodup := h.nodup
  threaded := h.threaded.congr fun a ha => (hsame a ha).1
  full a ha := by
    obtain ⟨-, htail, hcap, -⟩ := hsame a ((List.dropLast_sublist as).subset ha)
    rw [htail, hcap, h.full a ha]
  bound a ha := by
    obtain ⟨-, htail, hcap, -⟩ := hsame a ha
    rw [htail, hcap]
    exact h.bound a ha

theorem ChainOk.frame (h : ChainOk chunks own r as)
    (hsame : ∀ a ∈ as, chunks' a = chunks a ∧ own' a = own a) :
  ChainOk chunks' own' r as
  := by
  apply h.congr
  intro a ha
  obtain ⟨hchunk, howner⟩ := hsame a ha
  rw [hchunk]
  exact ⟨rfl, rfl, rfl, howner⟩

/-- The producer depends on the end of the chain, and on what its chunks hold beyond their
tails. -/
theorem ProducerOk.congr (h : ProducerOk chunks own r R as) (hproducer : R'.producer = R.producer)
    (hpChunk : R'.pChunk = R.pChunk) (hlast : as'.getLast? = as.getLast?)
    (hheld : ∀ a, R.producer.held = some a → chunks' a = chunks a ∧ own' a = own a)
    (hchain : ∀ a ∈ as, (chunks' a).tail = (chunks a).tail ∧ (chunks' a).cap = (chunks a).cap
      ∧ (chunks' a).slots (chunks a).tail = (chunks a).slots (chunks a).tail) :
  ProducerOk chunks' own' r R' as'
  := by
  have htarget : ∀ pc, R.producer.target = some pc → pc ∈ as :=
    fun pc hpc => List.mem_of_getLast? (h.target pc hpc)
  constructor
  · intro a ha
    rw [hproducer] at ha
    rw [(hheld a ha).2, h.held a ha]
  · rw [hproducer, hlast]
    exact h.target
  · rw [hproducer, hpChunk, hlast]
    exact h.last
  · rw [hproducer]
    intro hmaking
    have hnil := h.making hmaking
    subst hnil
    simpa using hlast
  · rw [hproducer]
    have hphase := h.phase
    cases hp : R.producer with
    | linked x a =>
        rw [hp] at hphase
        obtain ⟨ha, htail⟩ := hphase
        exact ⟨hlast.trans ha, (hchain a (List.mem_of_getLast? ha)).1.trans htail⟩
    | allocating p n =>
        cases p with
        | ring => trivial
        | push x pc =>
            have hpc := hchain pc (htarget pc (by simp [hp]))
            simp only [hp, Producer.Phase] at hphase ⊢
            rw [hpc.1, hpc.2.1, hphase]
    | resetting p a w | linking p a =>
        have ha := (hheld a (by simp [hp])).1
        cases p with
        | ring =>
            simp only [hp, Producer.Phase] at hphase ⊢
            rwa [ha]
        | push x pc =>
            have hpc := hchain pc (htarget pc (by simp [hp]))
            simp only [hp, Producer.Phase] at hphase ⊢
            rwa [ha, hpc.1, hpc.2.1]
    | wiping x pc a reuse w =>
        have ha := (hheld a (by simp [hp])).1
        have hpc := hchain pc (htarget pc (by simp [hp]))
        simp only [hp, Producer.Phase] at hphase ⊢
        rwa [ha, hpc.1, hpc.2.1]
    | full x pc | measuring x pc n | lagging x pc n | returning x pc a | storing x pc =>
        have hpc := hchain pc (htarget pc (by simp [hp]))
        simp only [hp, Producer.Phase] at hphase ⊢
        rwa [hpc.1, hpc.2.1]
    | stored x pc idx =>
        have hpc := hchain pc (htarget pc (by simp [hp]))
        simp only [hp, Producer.Phase] at hphase ⊢
        obtain ⟨rfl, hlt, hslot⟩ := hphase
        rw [hpc.1, hpc.2.1, hpc.2.2]
        exact ⟨rfl, hlt, hslot⟩
    | unborn | idle | checked | pushing | counting => trivial

/-- What a producer may do to a chunk of the chain. -/
structure Grows (c c' : Chunk) : Prop where
  cap : c'.cap = c.cap
  tail : c.tail ≤ c'.tail
  full : c.tail = c.cap → c'.tail = c.tail
  next : ∀ n, c.next = some n → c'.next = some n

theorem Grows.refl (c : Chunk) :
  Grows c c
  := ⟨rfl, le_rfl, fun _ => rfl, fun _ h => h⟩

/-- The consumer does not mind what the producer does to the chain. -/
theorem Place.grows {c : Consumer} (h : Place chunks R as ds c) (hcChunk : R'.cChunk = R.cChunk)
    (hcHead : R'.cHead = R.cHead) (hcachedTail : R'.cachedTail = R.cachedTail)
    (hpushed : R.pushed ≤ R'.pushed) (hhead : as'.head? = as.head?)
    (hgrows : ∀ a ∈ as, Grows (chunks a) (chunks' a)) :
  Place chunks' R' as' ds c
  := by
  have hwindow : Window chunks R as → Window chunks' R' as' := by
    intro hwindow cc hcc
    rw [hhead] at hcc
    obtain ⟨hle, hle'⟩ := hwindow cc hcc
    rw [hcHead, hcachedTail]
    exact ⟨hle, hle'.trans (hgrows cc (List.mem_of_head? hcc)).tail⟩
  have hfull : ∀ cc, as.head? = some cc → (chunks cc).tail = (chunks cc).cap →
      R.cHead = (chunks cc).cap →
      (chunks' cc).tail = (chunks' cc).cap ∧ R'.cHead = (chunks' cc).cap := by
    intro cc hcc htail hcHead'
    have hgrows := hgrows cc (List.mem_of_head? hcc)
    rw [hcHead, hgrows.cap, hgrows.full htail]
    exact ⟨htail, hcHead'⟩
  cases c with
  | idle | counting | closing | closingRing =>
      obtain ⟨h₁, h₂⟩ := h
      exact ⟨by rw [hcChunk, hhead, h₁], hwindow h₂⟩
  | looking c due cc =>
      obtain ⟨h₁, h₂, h₃, h₄⟩ := h
      exact ⟨by rw [hcChunk, hhead, h₁], hwindow h₂, hhead.trans h₃, h₄.trans hpushed⟩
  | atEnd c due cc =>
      obtain ⟨h₁, h₂, h₃, h₄, h₅, h₆⟩ := h
      exact ⟨by rw [hcChunk, hhead, h₁], hwindow h₂, hhead.trans h₃, h₄.trans hpushed,
        hfull cc h₃ h₅ h₆⟩
  | leaving c due cc n =>
      obtain ⟨h₁, h₂, h₃, h₄, h₅, h₆, h₇⟩ := h
      obtain ⟨h₅, h₆⟩ := hfull cc h₃ h₅ h₆
      exact ⟨by rw [hcChunk, hhead, h₁], hwindow h₂, hhead.trans h₃, h₄.trans hpushed, h₅, h₆,
        (hgrows cc (List.mem_of_head? h₃)).next n h₇⟩
  | moving c due n => exact ⟨hhead.trans h.1, h.2.trans hpushed⟩
  | taking c cc =>
      obtain ⟨h₁, h₂, h₃, h₄⟩ := h
      exact ⟨by rw [hcChunk, hhead, h₁], hwindow h₂, hhead.trans h₃, by rwa [hcHead, hcachedTail]⟩
  | closingConsumer cur =>
      obtain ⟨h₁, h₂, h₃⟩ := h
      exact ⟨by rw [hcChunk, hhead, h₁], hwindow h₂, h₃.trans hhead.symm⟩
  | closingProducer cur =>
      obtain ⟨h₁, h₂, h₃⟩ := h
      exact ⟨by rw [hcChunk, h₁], hwindow h₂, h₃.trans hhead.symm⟩
  | freeing cur =>
      obtain ⟨h₁, rfl, h₃⟩ := h
      exact ⟨by rw [hcChunk, h₁], by simpa using hhead, h₃⟩
  | wiping | returning => exact h.elim

theorem ConsumerOk.grows (h : ConsumerOk chunks own r R as ds)
    (hconsumer : R'.consumer = R.consumer) (hcChunk : R'.cChunk = R.cChunk)
    (hcHead : R'.cHead = R.cHead) (hcachedTail : R'.cachedTail = R.cachedTail)
    (hcalls : R'.calls = R.calls) (hended : R'.ended = R.ended) (hpushed : R.pushed ≤ R'.pushed)
    (hhead : as'.head? = as.head?) (hgrows : ∀ a ∈ as, Grows (chunks a) (chunks' a))
    (hspare : ∀ a, R'.freeChunk = some a → own' a = .spare r)
    (hown : ∀ a, own a = .consumer r → own' a = .consumer r)
    (hnext : ∀ a ∈ ds, (chunks' a).next = (chunks a).next) :
  ConsumerOk chunks' own' r R' as' ds
  where
  held a ha := by
    rw [hconsumer] at ha
    exact ⟨hown a (h.held a ha).1, (h.held a ha).2⟩
  place := by
    rw [hconsumer]
    exact h.place.grows hcChunk hcHead hcachedTail hpushed hhead hgrows
  spare := hspare
  dying a ha := hown a (h.dying a ha)
  nodup := h.nodup
  threaded := h.threaded.congr hnext
  called := by
    rw [hconsumer, hcalls]
    exact h.called
  closes := by
    rw [hconsumer, hended]
    exact h.closes

/-- A ring does not notice what happens to chunks it does not own. -/
theorem RingOk.frame (h : RingOk chunks own r R as ds)
    (hsame : ∀ a, (own a).ring = some r → chunks' a = chunks a ∧ own' a = own a) :
  RingOk chunks' own' r R as ds
  := by
  have hchain : ∀ a ∈ as, chunks' a = chunks a ∧ own' a = own a := by
    intro a ha
    exact hsame a (by simp [h.chain.owned a ha])
  have hdying : ∀ a ∈ ds, chunks' a = chunks a ∧ own' a = own a := by
    intro a ha
    exact hsame a (by simp [h.consumer.dying a ha])
  refine ⟨h.chain.frame hchain, ?_, ?_, ?_⟩
  · apply h.producer.congr rfl rfl rfl
    · intro a ha
      exact hsame a (by simp [h.producer.held a ha])
    · intro a ha
      rw [(hchain a ha).1]
      exact ⟨rfl, rfl, rfl⟩
  · apply h.consumer.grows rfl rfl rfl rfl rfl rfl le_rfl rfl
    · intro a ha
      rw [(hchain a ha).1]
      exact Grows.refl _
    · intro a ha
      have hspare := h.consumer.spare a ha
      rw [(hsame a (by simp [hspare])).2, hspare]
    · intro a ha
      rw [(hsame a (by simp [ha])).2, ha]
    · intro a ha
      rw [(hdying a ha).1]
  · refine { h.content with content := ?_, replayed := ?_ }
    · rw [live_congr fun a ha => (hchain a ha).1]
      exact h.content.content
    · rw [live_congr fun a ha => (hchain a ha).1]
      exact h.content.replayed

/-- A producer that goes on leaves the content of its ring as it is. -/
theorem ContentOk.produce (h : ContentOk chunks R as) {p : Producer} (pChunk spare : Option Nat)
    (hsteady : R.producer.Steady p) (hlive : live chunks' R.start as' = live chunks R.start as)
    (hnil : as' = [] ↔ as = []) :
  ContentOk chunks' { R with producer := p, pChunk := pChunk, freeChunk := spare } as'
  := by
  obtain ⟨hmaking, hpending, hcounting, hcounting'⟩ := hsteady
  have hstart : { R with producer := p, pChunk := pChunk, freeChunk := spare }.start = R.start :=
    rfl
  refine { h with content := ?_, pushed := ?_, made := ?_, new := ?_, replayed := ?_, logged := ?_ }
  · rw [hstart, hlive, hpending, ne_eq, hnil]
    exact h.content
  · have hpushed := h.pushed
    rw [if_neg hcounting] at hpushed
    rw [hpending, if_neg hcounting', hpushed]
  · rw [hmaking, ne_eq, hnil]
    exact h.made
  · rw [hmaking]
    exact h.new
  · rw [hstart, hlive, ne_eq, hnil]
    exact h.replayed
  · rw [hpending]
    exact h.logged

/-- What a producer does outside the chain of its ring. -/
theorem RingOk.produce (h : RingOk chunks own r R as ds) {p : Producer} {spare : Option Nat}
    (hsame : ∀ a, own a = .chain r ∨ own a = .consumer r → chunks' a = chunks a ∧ own' a = own a)
    (hspare : ∀ a, spare = some a → own' a = .spare r) (hsteady : R.producer.Steady p)
    (hproducer : ProducerOk chunks' own' r { R with producer := p, freeChunk := spare } as) :
  RingOk chunks' own' r { R with producer := p, freeChunk := spare } as ds
  := by
  have hchain : ∀ a ∈ as, chunks' a = chunks a ∧ own' a = own a :=
    fun a ha => hsame a (.inl (h.chain.owned a ha))
  refine ⟨h.chain.frame hchain, hproducer, ?_, ?_⟩
  · refine h.consumer.grows rfl rfl rfl rfl rfl rfl le_rfl rfl ?_ hspare ?_ ?_
    · intro a ha
      rw [(hchain a ha).1]
      exact Grows.refl _
    · intro a ha
      rw [(hsame a (.inr ha)).2, ha]
    · intro a ha
      rw [(hsame a (.inr (h.consumer.dying a ha))).1]
  · exact h.content.produce _ _ hsteady (live_congr fun a ha => (hchain a ha).1) Iff.rfl

/-- What happens to the queue of a ring when its consumer takes nothing from it: nothing, or the
consumer finds it empty. -/
def Ring.Misses (R R' : Ring) (q : List Slot) : Prop :=
  R'.log = R.log ∨ ∃ c, R'.log = R.log ++ [.missed c] ∧ q = []

theorem Ring.Misses.replay {q : List Slot} (h : R.Misses R' q) (hreplay : replay R.log = some q) :
  RingBuffer.replay R'.log = some q
  := by
  obtain heq | ⟨c, heq, rfl⟩ := h
  · rw [heq, hreplay]
  · rw [heq, replay_append, hreplay]
    rfl

theorem Ring.Misses.puts {q : List Slot} (h : R.Misses R' q) :
  R'.log.flatMap Event.puts = R.log.flatMap Event.puts
  := by
  obtain heq | ⟨c, heq, -⟩ := h <;> simp [heq, Event.puts]

/-- What a step of a consumer leaves as it is that takes nothing from the queue `q` of its ring. -/
structure Ring.Rests (R R' : Ring) (q : List Slot) : Prop where
  making : R.producer.making = false
  producer : (R'.producer, R'.pChunk) = (R.producer, R.pChunk)
  puts : (R'.puts, R'.pushed, R'.totalPushed) = (R.puts, R.pushed, R.totalPushed)
  gets : (R'.gets, R'.shown, R'.popped) = (R.gets, R.shown, R.popped)
  log : R.Misses R' q
  counted : R'.consumer ≠ .counting → R'.totalPopped = R'.popped
  calls : R'.PopsOnly → R.PopsOnly
  ended : R'.ended = false → R.ended = false
  empties : R'.ended = false → ∀ e ∈ R'.empties, e.1 ≤ e.2

/-- What a consumer does that takes nothing from the chain of its ring. -/
theorem RingOk.consume (h : RingOk chunks own r R as ds) (ds' : List Nat)
    (hsame : ∀ a, own a = .chain r ∨ own a = .producer r → chunks' a = chunks a ∧ own' a = own a)
    (hrests : R.Rests R' (live chunks R.start as)) (hstart : as ≠ [] → R'.start = R.start)
    (hconsumer : ConsumerOk chunks' own' r R' as ds') :
  RingOk chunks' own' r R' as ds'
  := by
  have hchain : ∀ a ∈ as, chunks' a = chunks a ∧ own' a = own a :=
    fun a ha => hsame a (.inl (h.chain.owned a ha))
  obtain ⟨hnew, hproducer, hputs, hgets, hlog, hcounted, hcalls, hended, hempties⟩ := hrests
  simp only [Prod.mk.injEq] at hproducer hputs hgets
  obtain ⟨hproducer, hpChunk⟩ := hproducer
  obtain ⟨hputs, hpushed, htotal⟩ := hputs
  obtain ⟨hgets, hshown, hpopped⟩ := hgets
  refine ⟨h.chain.frame hchain, ?_, hconsumer, ?_⟩
  · apply h.producer.congr hproducer hpChunk rfl
    · intro a ha
      exact hsame a (.inr (h.producer.held a ha))
    · intro a ha
      rw [(hchain a ha).1]
      exact ⟨rfl, rfl, rfl⟩
  · obtain ⟨hcontent, hpushed', htotal', hshown', hgets', hpopped', -, hmade, -, hreplayed, hlogged,
      -⟩ := h.content
    constructor
    · intro hne
      obtain ⟨e, rest, hrest, hlive, he⟩ := hcontent hne
      refine ⟨e, rest, ?_, ?_, fun honly => he (hcalls honly)⟩
      · rw [hputs, hpopped, hproducer, hrest]
      · rw [live_congr fun a ha => (hchain a ha).1, hstart hne, hlive]
    · rw [hpushed, hproducer, hputs]
      exact hpushed'
    · rw [htotal, hpushed]
      exact htotal'
    · rw [hshown, hputs]
      exact hshown'
    · intro honly
      rw [hgets, hputs, hpopped]
      exact hgets' (hcalls honly)
    · rw [hpopped, hputs]
      exact hpopped'
    · exact hempties
    · rw [hproducer]
      exact fun hend => hmade (hended hend)
    · rw [hproducer, hnew]
      simp
    · intro hne
      rw [live_congr fun a ha => (hchain a ha).1, hstart hne]
      exact hlog.replay (hreplayed hne)
    · rw [hputs, hlog.puts, hproducer]
      exact hlogged
    · exact hcounted

end

/-! ### Steps -/

namespace State

variable {s : State} {own : Nat → Owner} {chain dying : Nat → List Nat}

/-- There is an owner for every chunk. -/
def Sound (s : State) : Prop :=
  ∃ own chain dying, s.Owned own chain dying

variable {a r : Nat} {f : Ring → Ring} {as ds : List Nat}

section

variable (h : s.Owned own chain dying)

include h

/-- A step of a ring, by which chunks it owns, or that no ring owns, may change and get a new
owner. -/
theorem Owned.change {s' : State} (own' : Nat → Owner) {R : Ring} (as ds : List Nat)
    (hrings : s'.rings = update s.rings r R)
    (hframe : ∀ b q, (own b).ring = some q → q ≠ r → s'.chunks b = s.chunks b ∧ own' b = own b)
    (hpool : ∀ b ∈ s'.pool, own' b = .pool) (hnodup : s'.pool.Nodup)
    (hunmade : ∀ b, s'.made ≤ b → own' b = .nobody)
    (hcap : ∀ b, own' b ≠ .nobody → 0 < (s'.chunks b).cap)
    (htied : ∀ b q, own' b = .chain q → s'.loose b = false)
    (hring : RingOk s'.chunks own' r R as ds) :
  s'.Sound
  := by
  refine ⟨own', update chain r as, update dying r ds, hpool, hnodup, hunmade,
    hcap, htied, ?_⟩
  intro q
  rw [hrings]
  by_cases hq : q = r
  · subst hq
    simpa using hring
  · simp only [update_of_ne hq]
    apply (h.ring q).frame
    intro b hb
    exact hframe b q hb hq

/-- A step of a ring by which no chunk changes. -/
theorem Owned.setRing (hring : RingOk s.chunks own r (f (s.rings r)) as ds) :
  (s.setRing r f).Sound
  := h.change own as ds rfl (fun _ _ _ _ => ⟨rfl, rfl⟩) h.pool h.nodup h.unmade h.cap h.tied hring

/-- A step of a ring by which a chunk it owns changes. -/
theorem Owned.setChunk {g : Chunk → Chunk} (howner : (own a).ring = some r)
    (hcap : (g (s.chunks a)).cap = (s.chunks a).cap)
    (hring : RingOk (update s.chunks a (g (s.chunks a))) own r (f (s.rings r)) as ds) :
  ((s.setChunk a g).setRing r f).Sound
  := by
  refine h.change own as ds rfl ?_ h.pool h.nodup h.unmade ?_ h.tied hring
  · intro b q hb hq
    have hba : b ≠ a := by
      rintro rfl
      rw [howner] at hb
      exact hq (Option.some.inj hb).symm
    simp [State.setRing, State.setChunk, hba]
  · intro b hb
    have hb := h.cap b hb
    by_cases hba : b = a
    · subst hba
      simpa [State.setRing, State.setChunk, hcap] using hb
    · simpa [State.setRing, State.setChunk, hba] using hb

/-- A step of a ring by which a chunk changes its owner. -/
theorem Owned.setOwner {o : Owner} (howner : (own a).ring = some r) (ho : o.ring = some r)
    (hchain : o ≠ .chain r)
    (hring : RingOk s.chunks (update own a o) r (f (s.rings r)) as ds) :
  (s.setRing r f).Sound
  := by
  have hne : ∀ {b : Nat}, (own b).ring ≠ some r → b ≠ a := by
    rintro b hb rfl
    exact hb howner
  refine h.change _ as ds rfl ?_ ?_ h.nodup ?_ ?_ ?_ hring
  · intro b q hb hq
    have hba : b ≠ a := hne (by rwa [hb, ne_eq, Option.some.injEq])
    simp [State.setRing, hba]
  · intro b hb
    have hb := h.pool b hb
    rw [update_of_ne (hne (by simp [hb])), hb]
  · intro b hb
    have hb := h.unmade b hb
    rw [update_of_ne (hne (by simp [hb])), hb]
  · intro b hb
    apply h.cap b
    rintro hnobody
    rw [update_of_ne (hne (by simp [hnobody]))] at hb
    exact hb hnobody
  · intro b q hb
    by_cases hba : b = a
    · subst hba
      rw [update_self] at hb
      rw [hb] at ho
      obtain rfl : q = r := by simpa using ho
      exact absurd hb hchain
    · rw [update_of_ne hba] at hb
      exact h.tied b q hb

/-- A step of a ring by which a chunk it owns goes to the pool. -/
theorem Owned.putChunk (howner : (own a).ring = some r)
    (hring : RingOk s.chunks (update own a .pool) r (f (s.rings r)) as ds) :
  ((s.put a).setRing r f).Sound
  := by
  have hne : ∀ {b : Nat}, (own b).ring ≠ some r → b ≠ a := by
    rintro b hb rfl
    exact hb howner
  refine h.change _ as ds rfl ?_ ?_ ?_ ?_ ?_ ?_ hring
  · intro b q hb hq
    exact ⟨rfl, update_of_ne (hne (by rwa [hb, ne_eq, Option.some.injEq])) _ _⟩
  · intro b hb
    by_cases hba : b = a
    · simp [hba]
    · rw [update_of_ne hba]
      exact h.pool b ((List.mem_cons.mp hb).resolve_left hba)
  · refine List.nodup_cons.mpr ⟨?_, h.nodup⟩
    intro ha
    simp [h.pool a ha] at howner
  · intro b hb
    have hb := h.unmade b hb
    rw [update_of_ne (hne (by simp [hb])), hb]
  · intro b hb
    apply h.cap b
    intro hnobody
    rw [update_of_ne (hne (by simp [hnobody]))] at hb
    exact hb hnobody
  · intro b q hb
    have hba : b ≠ a := by
      rintro rfl
      simp at hb
    rw [update_of_ne hba] at hb
    simpa [State.setRing, State.put, hba] using h.tied b q hb

end

end State

end Muxocket.RingBuffer
