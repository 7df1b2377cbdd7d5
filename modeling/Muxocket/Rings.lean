import Muxocket.Histories

/-!
# Rings in any order of steps

A ring hands over what was pushed to it, in order, whatever the order of the steps of its producer
and its consumer.  Rings share chunks through the pool, and still show nothing of each other's
buffers, if no `Close` clears `pChunk` in the middle of a push.
-/

namespace Muxocket.RingBuffer

/-- Whether an action does not begin to close a ring. -/
def Action.keepsOpen : Action → Bool
  | .close _ => false
  | _ => true

/-- The chunk of which the next step of a consumer reads a slot, the tail or the link, in a call
other than `Close`. -/
def Consumer.reads : Consumer → Option Nat
  | .looking _ _ cc | .atEnd _ _ cc | .taking _ cc => some cc
  | _ => none

namespace State

variable {s s' : State} {own : Nat → Owner} {chain dying : Nat → List Nat}

/-! ### Runs -/

section

variable (h : s.Owned own chain dying)

include h

theorem Owned.feed {r : Nat} {x : Slot} (hstep : s.feed r x = some s') :
  s'.Sound
  := by
  unfold State.feed at hstep
  split at hstep
  · rename_i hp
    split at hstep
    · cases hstep
      exact ⟨own, chain, dying, h⟩
    · cases hstep
      exact h.setRing ((h.ring r).goTo (by simp) (by simp)
        (by simp [hp]) (by simp [Producer.Steady, hp]) trivial)
  · contradiction

theorem Owned.call {r : Nat} {c : Call} (hstep : s.call r c = some s') :
  s'.Sound
  := by
  have hr := h.ring r
  have hplace := hr.consumer.place
  unfold State.call at hstep
  split at hstep
  · rename_i hready
    obtain ⟨hc, hnew⟩ := ready_iff.mp hready
    rw [hc] at hplace
    have honly : ∀ R : Ring, R.calls = (s.rings r).calls ++ [c] → R.PopsOnly →
        (s.rings r).PopsOnly := by
      intro R hcalls honly c' hc'
      exact honly c' (by simp [hcalls, hc'])
    dsimp only at hstep
    split at hstep
    · rename_i hnone
      cases hstep
      rw [State.report, setRing_setRing]
      have hnil : chain r = [] := by
        have hhead := hplace.1
        rw [show (s.rings r).cChunk = none by simpa [State.setRing] using hnone] at hhead
        exact List.head?_eq_none_iff.mp hhead.symm
      refine h.setRing (hr.wander ⟨hnew, rfl, rfl, rfl, .inr ⟨c, rfl, ?_⟩,
        fun _ => hr.content.counted (by simp [hc]), honly _ rfl, fun hend => hend, ?_⟩ rfl
        (fun _ => ?_) rfl hplace ?_ ?_)
      · simp [hnil, Segment.live]
      · intro hend
        exact absurd hnil (hr.content.made hend hnew)
      · simp [Ring.start, hc]
      · simp
      · simp
    · rename_i cc hcc
      cases hstep
      rw [setConsumer, setRing_setRing]
      have hcc : (s.rings r).cChunk = some cc := by simpa [State.setRing] using hcc
      refine h.setRing (hr.wander ⟨hnew, rfl, rfl, rfl, .inl rfl,
        fun _ => hr.content.counted (by simp [hc]), honly _ rfl, fun hend => hend,
        hr.content.empties⟩ rfl (fun _ => ?_) rfl ?_ ?_ ?_)
      · simp [Ring.start, hc]
      · refine ⟨hplace.1, hplace.2, hplace.1.symm.trans hcc, ?_⟩
        simp [State.setRing, hr.content.total]
      · intro c' hc'
        obtain rfl : c = c' := by simpa using hc'
        simp
      · simp
  · contradiction

theorem Owned.close {r : Nat} (hstep : s.close r = some s') :
  s'.Sound
  := by
  have hr := h.ring r
  have hplace := hr.consumer.place
  unfold State.close at hstep
  split at hstep
  · rename_i hready
    obtain ⟨hc, hnew⟩ := ready_iff.mp hready
    rw [hc] at hplace
    cases hstep
    refine h.setRing (hr.wander ⟨hnew, rfl, rfl, rfl, .inl rfl,
      fun _ => hr.content.counted (by simp [hc]), fun honly => honly, by simp, by simp⟩ rfl
      (fun _ => ?_) rfl hplace ?_ (fun _ => rfl))
    · simp [Ring.start, hc]
    · simp
  · contradiction

end

/-- `Close` does not clear `pChunk` while a push is between its read of `pChunk` and its store of
the tail. -/
def Calm (s : State) : Action → Prop
  | .consume r =>
      match (s.rings r).consumer with
      | .closingProducer _ => (s.rings r).producer.pending = []
      | _ => True
  | _ => True

instance (s : State) (a : Action) : Decidable (s.Calm a) := by
  unfold Calm
  split
  · split <;> infer_instance
  · infer_instance

/-- Every step leaves each chunk with one owner. -/
theorem Owned.step (h : s.Owned own chain dying) {a : Action} (hcalm : s.Calm a)
    (hstep : s.step a = some s') :
  s'.Sound
  := by
  cases a with
  | feed r x => exact h.feed hstep
  | produce r pick => exact h.produce hstep
  | call r c => exact h.call hstep
  | close r => exact h.close hstep
  | consume r =>
      refine h.consume ?_ hstep
      intro cur hcur
      simpa [Calm, hcur] using hcalm
  | shut r =>
      cases hstep
      obtain ⟨hchain, hproducer, hconsumer, hcontent⟩ := h.ring r
      exact h.setRing ⟨hchain, { hproducer with }, { hconsumer with }, { hcontent with }⟩
  | evict i =>
      cases hstep
      exact ⟨own, chain, dying, fun a ha => h.pool a (List.mem_of_mem_eraseIdx ha),
        h.nodup.eraseIdx i, h.unmade, h.cap, h.tied, h.ring⟩

theorem owned_init :
  init.Owned (fun _ => .nobody) (fun _ => []) (fun _ => [])
  := by
  refine ⟨by simp [init], by simp [init], by simp, by simp, by simp, ?_⟩
  intro r
  refine ⟨⟨by simp, by simp, trivial, by simp, by simp⟩, ⟨?_, ?_, ?_, ?_, ?_⟩,
    ⟨?_, ?_, ?_, ?_, ?_, ?_, ?_, ?_⟩, ⟨?_, ?_, ?_, ?_, ?_, ?_, ?_, ?_, ?_, ?_, ?_, ?_⟩⟩ <;>
    simp [init, unbornRing, Producer.Phase, Place, Window, Segment.Threaded]

/-- In every run in which no `Close` clears `pChunk` in the middle of a push, each chunk has one
owner. -/
theorem sound_of_run (hrun : Run State.step Calm init s) :
  s.Sound
  := by
  apply hrun.invariant (I := Sound)
  · rintro s a s' ⟨own, chain, dying, h⟩ hcalm hstep
    exact h.step hcalm hstep
  · exact ⟨_, _, _, owned_init⟩

/-! ### Isolation -/

/-- Any number of rings that share the pool, in any order of their steps: what the caller of `Pop`,
`PartialRead` or `Peek` gets to see of a ring is part of a buffer that was pushed to that ring, if
no `Close` clears `pChunk` while a push is between its read of `pChunk` and its store of the
tail. -/
theorem shown_of_pushed (s : State) (hrun : Run State.step Calm init s) (r : Nat) (y : Slot)
    (hy : y ∈ (s.rings r).shown) :
  ∃ x ∈ (s.rings r).puts, y.head = x.head ∧ y.buf <:+: x.buf
  := by
  obtain ⟨own, chain, dying, h⟩ := sound_of_run hrun
  exact (h.ring r).content.shown y hy

/-- The steps by which a ring is made, with a chunk from the pool if `pick` is given. -/
def making (r : Nat) (pick : Option Nat) : List Action :=
  .produce r none :: .produce r pick :: List.replicate 3 (.produce r none)

/-- The steps of a push that finds room in its chunk. -/
def pushing (r : Nat) (x : Slot) : List Action :=
  .feed r x :: List.replicate 5 (.produce r none)

/-- A ring is closed, and another one that takes its chunk from the pool shows what was pushed to
it. -/
theorem shown_of_pushed_reused :
  ∃ s : State, (s.rings 1).shown = [⟨[2], some 8⟩]
    ∧ ∃ x ∈ (s.rings 1).puts, some 8 = x.head ∧ [2] <:+: x.buf
  := by
  obtain ⟨s, hrun, hshown⟩ := Run.exists_of_exec State.step Calm init
    (making 0 none ++ pushing 0 ⟨[1], some 7⟩ ++ .close 0 :: List.replicate 10 (.consume 0)
      ++ making 1 (some 0) ++ pushing 1 ⟨[2], some 8⟩ ++ [.call 1 .peek, .consume 1, .consume 1])
    (fun s => (s.rings 1).shown = [⟨[2], some 8⟩]) (by decide +kernel)
  exact ⟨s, hshown, shown_of_pushed s hrun 1 ⟨[2], some 8⟩ (by simp [hshown])⟩

/-- The producer of one ring has read `pChunk` when `Close` recycles the chunk.  Another ring takes
it from the pool, and its consumer pops a buffer that was never pushed to it. -/
theorem shown_of_other_ring :
  ∃ s : State, Run State.step (fun _ _ => True) init s
    ∧ (s.rings 1).shown = [⟨[1], some 7⟩] ∧ (s.rings 1).puts = []
    ∧ (s.rings 0).puts = [⟨[1], some 7⟩]
  := by
  apply Run.exists_of_exec State.step (fun _ _ => True) init
    (making 0 none ++ [.feed 0 ⟨[1], some 7⟩, .produce 0 none, .produce 0 none, .shut 0]
      ++ .close 0 :: List.replicate 10 (.consume 0) ++ making 1 (some 0)
      ++ [.produce 0 none, .produce 0 none, .call 1 .pop, .consume 1, .consume 1])
  decide +kernel

/-! ### Order -/

/-- One producer and one consumer for each of any number of rings, none of which is closed, in any
order of their steps.  What a consumer that calls nothing but `Pop` has popped is the beginning of
what was pushed; the slots the two use are within their chunks; the consumer reads no slot, tail or
link of a chunk that has been handed to a free list or the pool and not been put in a chain since;
and a call that finds the ring empty has seen everything popped that was pushed before it began. -/
theorem popped_in_order (s : State) (hrun : Run State.step (fun _ a => a.keepsOpen = true) init s)
    (r : Nat) (hpops : (s.rings r).PopsOnly) :
  (s.rings r).gets <+: (s.rings r).puts
    ∧ (∀ x pc, (s.rings r).producer = .storing x pc → (s.chunks pc).tail < (s.chunks pc).cap)
    ∧ (∀ c cc, (s.rings r).consumer = .taking c cc → (s.rings r).cHead < (s.chunks cc).cap)
    ∧ (∀ a, (s.rings r).consumer.reads = some a → s.loose a = false)
    ∧ (∀ e ∈ (s.rings r).empties, e.1 ≤ e.2)
  := by
  have hopen : s.Sound ∧ ∀ q, (s.rings q).ended = false := by
    apply hrun.invariant (I := fun s => s.Sound ∧ ∀ q, (s.rings q).ended = false)
    · rintro s a s' ⟨⟨own, chain, dying, h⟩, hended⟩ ha hstep
      have hclose : ∀ q, a ≠ .close q := by
        rintro q rfl
        contradiction
      refine ⟨h.step ?_ hstep, fun q => ((turn_step hstep q).ended (hclose q)).trans (hended q)⟩
      cases a with
      | consume r =>
          cases hc : (s.rings r).consumer with
          | closingProducer cur =>
              have hclosed := (h.ring r).consumer.closes (by rw [hc]; rfl)
              simp [hended r] at hclosed
          | _ => simp [Calm, hc]
      | _ => trivial
    · exact ⟨⟨_, _, _, owned_init⟩, fun _ => rfl⟩
  obtain ⟨⟨own, chain, dying, h⟩, hended⟩ := hopen
  have hr := h.ring r
  have hplace := hr.consumer.place
  refine ⟨?_, ?_, ?_, ?_, hr.content.empties (hended r)⟩
  · rw [hr.content.gets hpops]
    exact List.take_prefix _ _
  · intro x pc hp
    have hphase := hr.producer.phase
    rw [hp] at hphase
    exact hphase
  · intro c cc hc
    rw [hc] at hplace
    obtain ⟨-, hwindow, hcc, hlt⟩ := hplace
    have hle := (hwindow cc hcc).2
    have hbound := hr.chain.bound cc (List.mem_of_head? hcc)
    omega
  · intro a ha
    have hhead : (chain r).head? = some a := by
      cases hc : (s.rings r).consumer with
      | looking c due cc | atEnd c due cc | taking c cc =>
          rw [hc] at hplace ha
          obtain rfl : cc = a := by simpa [Consumer.reads] using ha
          exact hplace.2.2.1
      | _ => simp [hc, Consumer.reads] at ha
    exact h.tied a r (hr.chain.owned a (List.mem_of_head? hhead))

/-- Two buffers are pushed and one is popped. -/
theorem popped_in_order_two_pushed :
  ∃ s : State, (s.rings 0).gets = [⟨[1], some 7⟩] ∧ [⟨[1], some 7⟩] <+: (s.rings 0).puts
  := by
  obtain ⟨s, hrun, hgets, hpops⟩ := Run.exists_of_exec State.step (fun _ a => a.keepsOpen = true)
    init
    (making 0 none ++ pushing 0 ⟨[1], some 7⟩ ++ pushing 0 ⟨[2], some 8⟩
      ++ .call 0 .pop :: List.replicate 3 (.consume 0))
    (fun s => (s.rings 0).gets = [⟨[1], some 7⟩] ∧ ∀ c ∈ (s.rings 0).calls, c = .pop)
    (by decide +kernel)
  have horder := popped_in_order s hrun 0 hpops
  rw [hgets] at horder
  exact ⟨s, hgets, horder.1⟩

end State

end Muxocket.RingBuffer
