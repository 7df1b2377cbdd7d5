import Muxocket.Rings

/-!
# Calls and pushes return

A call of a consumer that goes on comes to its end, whatever chunks it has to leave on its way, and
so does a push.  The call has then found one slot, or nothing, and the slot of the push is in the
queue.
-/

namespace Muxocket.RingBuffer

open Segment

/-! ### Calls return -/

/-- The parts that are cleared after this one. -/
def Wipe.rank : Wipe → Nat
  | .slots => 2
  | .tail => 1
  | .next => 0

/-- The chunk a consumer in a call is at, or goes to. -/
def Consumer.chunk : Consumer → Option Nat
  | .looking _ _ cc | .atEnd _ _ cc | .leaving _ _ cc _ | .taking _ cc => some cc
  | .moving _ _ n => some n
  | _ => none

/-- How far a consumer in a call is from its end, apart from the chunks before it. -/
@[simp]
def Consumer.rank : Consumer → Nat
  | .wiping _ _ w => 6 + w.rank
  | .returning _ _ => 5
  | .moving _ _ _ => 4
  | .looking _ _ _ => 3
  | .atEnd _ _ _ | .taking _ _ => 2
  | .leaving _ _ _ _ => 1
  | _ => 0

/-- How far a producer is from the end of its push. -/
@[simp]
def Producer.rank : Producer → Nat
  | .pushing _ _ => 20
  | .full _ _ => 19
  | .measuring _ _ _ => 18
  | .lagging _ _ _ => 17
  | .wiping _ _ _ _ w => 14 + w.rank
  | .returning _ _ _ => 13
  | .allocating _ _ => 12
  | .resetting _ _ w => 9 + w.rank
  | .linking _ _ => 8
  | .linked _ _ => 7
  | .storing _ _ => 6
  | .stored _ _ _ => 5
  | _ => 0

namespace State

variable {s s' : State} {own : Nat → Owner} {chain dying : Nat → List Nat} {r : Nat}

/-- The chain of a ring begins with the chunk its consumer is at in a call. -/
theorem Owned.head_eq (h : s.Owned own chain dying) {c : Call}
    (hcall : (s.rings r).consumer.place.call = some c) :
  (chain r).head? = (s.rings r).consumer.place.chunk
  := by
  have hplace := (h.ring r).consumer.place
  generalize (s.rings r).consumer.place = p at hplace hcall
  cases p with
  | looking c due cc | atEnd c due cc | leaving c due cc n | taking c cc => exact hplace.2.2.1
  | moving c due n => exact hplace.1
  | _ => simp at hcall

/-- What a step of a consumer in a call leads to: the call has found a slot or nothing, or it is
closer to its end. -/
def Serves (c : Call) (n : Nat) (r : Nat) (s s' : State) : Prop :=
  (∃ e : Event, e.call = some c ∧ (s'.rings r).log = (s.rings r).log ++ [e]
      ∧ ((s'.rings r).consumer = .idle ∨ (s'.rings r).consumer = .counting))
    ∨ (s'.rings r).consumer.place.call = some c ∧ (s'.rings r).log = (s.rings r).log
      ∧ ∃ as, Threaded s'.chunks as ∧ as.head? = (s'.rings r).consumer.place.chunk
        ∧ 10 * as.length + (s'.rings r).consumer.rank < n

/-- A consumer that goes on in its call, at the same chunk. -/
theorem Owned.serves_setRing (h : s.Owned own chain dying) {c : Call}
    (hcall : (s.rings r).consumer.place.call = some c) {t : State} (hrings : t.rings = s.rings)
    (hthreaded : Threaded t.chunks (chain r)) {f : Ring → Ring}
    (hlog : (f (s.rings r)).log = (s.rings r).log)
    (hcall' : (f (s.rings r)).consumer.place.call = (s.rings r).consumer.place.call)
    (hchunk : (f (s.rings r)).consumer.place.chunk = (s.rings r).consumer.place.chunk)
    (hrank : (f (s.rings r)).consumer.rank < (s.rings r).consumer.rank) :
  Serves c (10 * (chain r).length + (s.rings r).consumer.rank) r s (t.setRing r f)
  := by
  have hring : (t.setRing r f).rings r = f (s.rings r) := by
    simp [State.setRing, hrings]
  right
  rw [hring]
  refine ⟨hcall'.trans hcall, hlog, chain r, hthreaded, ?_, by omega⟩
  rw [hchunk]
  exact h.head_eq hcall

/-- A consumer that has left a chunk goes on to the next, with the chunk in the free list first. -/
theorem leave_ring (s : State) (r : Nat) (c : Call) (due cc n : Nat) :
  (s.leave r c due cc n).chunks = s.chunks ∧ ((s.leave r c due cc n).rings r).log = (s.rings r).log
    ∧ ((s.leave r c due cc n).rings r).consumer.place = .moving c due n
    ∧ ((s.leave r c due cc n).rings r).consumer.rank ≤ 8
  := by
  unfold leave
  split
  · dsimp only
    split
    · unfold recycleChunk
      split
      · simp [setConsumer, setRing, untie, After.resume, Wipe.rank]
      · simp [setConsumer, setRing, untie, After.resume]
    · simp [setConsumer, setRing, untie]
  · simp [setConsumer, setRing]

/-- A call that has begun takes a step, and is closer to its end. -/
theorem Owned.serve (h : s.Owned own chain dying) {c : Call}
    (hcall : (s.rings r).consumer.place.call = some c) :
  ∃ s', s.consume r = some s'
    ∧ Serves c (10 * (chain r).length + (s.rings r).consumer.rank) r s s'
  := by
  have hr := h.ring r
  have hthreaded := hr.chain.threaded
  have hplace := hr.consumer.place
  have hgo := fun {t f} => h.serves_setRing (t := t) (f := f) hcall
  cases hc : (s.rings r).consumer with
  | idle | counting | closing | closingRing | closingConsumer | closingProducer | freeing =>
      simp [hc] at hcall
  | looking c' due cc =>
      obtain rfl : c' = c := by simpa [hc] using hcall
      rw [hc] at hgo
      simp only [State.consume, hc]
      split
      · exact ⟨_, rfl, hgo rfl hthreaded rfl rfl rfl (by simp)⟩
      · split
        · refine ⟨_, rfl, ?_⟩
          rw [setConsumer, setRing_setRing]
          exact hgo rfl hthreaded rfl rfl rfl (by simp)
        · split
          · refine ⟨_, rfl, ?_⟩
            rw [setConsumer, setRing_setRing]
            exact hgo rfl hthreaded rfl rfl rfl (by simp)
          · refine ⟨_, rfl, .inl ⟨.missed c', rfl, ?_⟩⟩
            simp [State.report, State.setRing]
  | atEnd c' due cc =>
      obtain rfl : c' = c := by simpa [hc] using hcall
      rw [hc] at hgo
      simp only [State.consume, hc]
      split
      · refine ⟨_, rfl, .inl ⟨.missed c', rfl, ?_⟩⟩
        simp [State.report, State.setRing]
      · exact ⟨_, rfl, hgo rfl hthreaded rfl rfl rfl (by simp)⟩
  | leaving c' due cc n =>
      obtain rfl : c' = c := by simpa [hc] using hcall
      rw [hc] at hplace
      obtain ⟨-, -, hcc, -, -, -, hnext⟩ := hplace
      obtain ⟨hchunks, hlog, hplace', hrank⟩ := leave_ring s r c' due cc n
      refine ⟨s.leave r c' due cc n, by simp [State.consume, hc], .inr ?_⟩
      rw [hchunks, hlog, hplace']
      obtain ⟨rest, hrest⟩ : ∃ rest, chain r = cc :: rest := by
        cases hchain : chain r with
        | nil => simp [hchain] at hcc
        | cons a rest => exact ⟨rest, by simpa [hchain] using hcc⟩
      rw [hrest] at hthreaded ⊢
      refine ⟨rfl, rfl, rest, hthreaded.2, ?_, ?_⟩
      · rw [← hthreaded.1, hnext]
        rfl
      · rw [List.length_cons]
        omega
  | wiping k a w =>
      rw [hc] at hgo
      have howner := (hr.consumer.held a (by simp [hc])).1
      have hthreaded' : Threaded (s.setChunk a w.apply).chunks (chain r) := by
        refine hthreaded.congr fun b hb => ?_
        have hne : b ≠ a := by
          rintro rfl
          rw [hr.chain.owned b hb] at howner
          contradiction
        simp [State.setChunk, hne]
      simp only [State.consume, hc]
      refine ⟨_, rfl, hgo rfl hthreaded' rfl ?_ ?_ ?_⟩
      · cases w <;> rfl
      · cases w <;> rfl
      · cases w <;> simp [Wipe.after, Wipe.rank]
  | returning k a =>
      rw [hc] at hgo hcall
      obtain ⟨c', due, n, rfl⟩ : ∃ c' due n, k = .move c' due n := by
        cases k with
        | move c' due n => exact ⟨c', due, n, rfl⟩
        | _ => simp [After.resume] at hcall
      simp only [State.consume, hc]
      refine ⟨_, rfl, hgo rfl hthreaded rfl rfl rfl ?_⟩
      simp [After.resume]
  | moving c' due n =>
      rw [hc] at hgo
      simp only [State.consume, hc]
      exact ⟨_, rfl, hgo rfl hthreaded rfl rfl rfl (by simp)⟩
  | taking c' cc =>
      obtain rfl : c' = c := by simpa [hc] using hcall
      refine ⟨s.take r c' cc, by simp only [State.consume, hc], .inl
        ⟨.took c' ((s.chunks cc).slots (s.rings r).cHead), rfl, ?_⟩⟩
      unfold State.take
      dsimp only
      split <;> simp [State.setConsumer, State.setRing, State.setChunk]

/-- A call that has begun returns, if its consumer goes on, and it has found one slot or nothing. -/
theorem Owned.call_returns (h : s.Owned own chain dying) {c : Call}
    (hcall : (s.rings r).consumer.place.call = some c) :
  ∃ s', Run State.step (fun _ a => a = .consume r) s s' ∧ (s'.rings r).consumer = .idle
    ∧ ∃ e : Event, e.call = some c ∧ (s'.rings r).log = (s.rings r).log ++ [e]
  := by
  refine Run.exists_of_progress (I := fun n s' =>
    (∃ own chain dying, s'.Owned own chain dying ∧ (s'.rings r).consumer.place.call = some c
      ∧ (s'.rings r).log = (s.rings r).log
      ∧ n = 10 * (chain r).length + (s'.rings r).consumer.rank + 1)
    ∨ n = 0 ∧ (s'.rings r).consumer = .counting
      ∧ ∃ e : Event, e.call = some c ∧ (s'.rings r).log = (s.rings r).log ++ [e]) ?_
    (.inl ⟨own, chain, dying, h, hcall, rfl, rfl⟩)
  rintro n s₁ (⟨own₁, chain₁, dying₁, h₁, hcall₁, hlog₁, rfl⟩ | ⟨rfl, hc, e, he, hlog⟩)
  · obtain ⟨s₂, hstep, hserves⟩ := h₁.serve hcall₁
    refine ⟨.consume r, s₂, rfl, hstep, ?_⟩
    rcases hserves with ⟨e, he, hlog, hidle | hcounting⟩ | ⟨hcall₂, hlog, as, has, hhead, hlt⟩
    · exact .inl ⟨hidle, e, he, by rw [hlog, hlog₁]⟩
    · exact .inr ⟨0, by omega, .inr ⟨rfl, hcounting, e, he, by rw [hlog, hlog₁]⟩⟩
    · obtain ⟨own₂, chain₂, dying₂, h₂⟩ := h₁.consume (r := r) (by
        intro cur hcur
        simp [hcur] at hcall₁) hstep
      have hchain : chain₂ r = as :=
        (h₂.ring r).chain.threaded.unique has ((h₂.head_eq hcall₂).trans hhead.symm)
      refine .inr ⟨_, ?_, .inl ⟨own₂, chain₂, dying₂, h₂, hcall₂, hlog.trans hlog₁, rfl⟩⟩
      rw [hchain]
      omega
  · refine ⟨.consume r, s₁.setRing r fun R => { R with totalPopped := R.popped, consumer := .idle },
      rfl, by simp only [State.step, State.consume, hc], .inl ?_⟩
    simp only [State.setRing, Function.update_self, true_and]
    exact ⟨e, he, hlog⟩

/-- What a step of a push of `x` leads to: the slot is in the queue, or the push is closer to its
end. -/
def Stores (x : Slot) (n : Nat) (r : Nat) (s s' : State) : Prop :=
  (s'.rings r).producer = .counting ∧ (s'.rings r).log = (s.rings r).log ++ [.put x]
    ∨ (s'.rings r).producer.pending = [x] ∧ (s'.rings r).log = (s.rings r).log
      ∧ (s'.rings r).producer.rank < n

/-- A push that has read `pChunk` takes a step, and is closer to its end. -/
theorem push_step {x : Slot} (hpending : (s.rings r).producer.pending = [x]) :
  ∃ s', s.produce r none = some s' ∧ Stores x (s.rings r).producer.rank r s s'
  := by
  have hgo : ∀ (s₀ : State) (f : Ring → Ring), s₀.rings = s.rings →
      (f (s.rings r)).log = (s.rings r).log →
      (f (s.rings r)).producer.pending = (s.rings r).producer.pending →
      (f (s.rings r)).producer.rank < (s.rings r).producer.rank →
      Stores x (s.rings r).producer.rank r s (s₀.setRing r f) := by
    intro s₀ f hrings hlog hpending' hrank
    have hring : (s₀.setRing r f).rings r = f (s.rings r) := by simp [setRing, hrings]
    right
    rw [hring]
    exact ⟨hpending'.trans hpending, hlog, hrank⟩
  cases hp : (s.rings r).producer with
  | unborn | idle | checked | counting => simp [hp] at hpending
  | allocating p capacity =>
      rw [hp] at hgo
      simp only [produce, hp, newChunk]
      split
      · exact ⟨_, rfl, hgo _ _ rfl rfl (by cases p <;> rfl) (by simp [Wipe.rank])⟩
      · exact ⟨_, rfl, hgo _ _ rfl rfl (by cases p <;> rfl) (by simp)⟩
  | resetting p a w =>
      rw [hp] at hgo
      simp only [produce, hp]
      refine ⟨_, rfl, hgo _ _ rfl rfl ?_ ?_⟩
      · cases w <;> cases p <;> rfl
      · cases w <;> simp [Wipe.after, Wipe.rank]
  | linking p a =>
      cases p with
      | ring => simp [hp] at hpending
      | push y pc =>
          rw [hp] at hgo
          simp only [produce, hp]
          exact ⟨_, rfl, hgo _ _ rfl rfl rfl (by simp)⟩
  | pushing y pc =>
      rw [hp] at hgo
      simp only [produce, hp]
      split
      · exact ⟨_, rfl, hgo _ _ rfl rfl rfl (by simp)⟩
      · exact ⟨_, rfl, hgo _ _ rfl rfl rfl (by simp)⟩
  | full y pc | measuring y pc n | returning y pc a | linked y a | storing y pc =>
      rw [hp] at hgo
      simp only [produce, hp]
      exact ⟨_, rfl, hgo _ _ rfl rfl rfl (by simp)⟩
  | wiping y pc a reuse w =>
      rw [hp] at hgo
      simp only [produce, hp]
      refine ⟨_, rfl, hgo _ _ rfl rfl ?_ ?_⟩
      · cases w <;> cases reuse <;> rfl
      · cases w <;> cases reuse <;> simp [Wipe.after, Wipe.rank]
  | lagging y pc lag =>
      rw [hp] at hgo
      simp only [produce, hp]
      refine ⟨_, rfl, ?_⟩
      have hgrow : ∀ p : Producer, p.pending = [y] → p.rank < 17 →
          Stores x 17 r s
            ((s.setRing r fun R => { R with freeChunk := none }).setProducer r p) := by
        intro p hpending' hrank
        rw [setProducer, setRing_setRing]
        exact hgo _ _ rfl rfl hpending' hrank
      unfold grow
      dsimp only
      split
      · split
        · split
          · exact hgrow _ rfl (by simp [Wipe.rank])
          · exact hgrow _ rfl (by simp)
        · exact hgrow _ rfl (by simp)
      · split
        · exact hgrow _ rfl (by simp [Wipe.rank])
        · exact hgrow _ rfl (by simp)
  | stored y pc idx =>
      obtain rfl : y = x := by simpa [hp] using hpending
      simp only [produce, hp]
      refine ⟨_, rfl, .inl ?_⟩
      simp [setRing, setChunk]

/-- A push that has read `pChunk` returns, if its producer goes on, and its slot is in the queue. -/
theorem push_returns {x : Slot} (hpending : (s.rings r).producer.pending = [x]) :
  ∃ s', Run State.step (fun _ a => a = .produce r none) s s' ∧ (s'.rings r).producer = .idle
    ∧ (s'.rings r).log = (s.rings r).log ++ [.put x]
  := by
  refine Run.exists_of_progress (I := fun n s' =>
    (s'.rings r).producer.pending = [x] ∧ (s'.rings r).log = (s.rings r).log
      ∧ n = (s'.rings r).producer.rank + 1
    ∨ n = 0 ∧ (s'.rings r).producer = .counting
      ∧ (s'.rings r).log = (s.rings r).log ++ [.put x]) ?_ (.inl ⟨hpending, rfl, rfl⟩)
  rintro n s₁ (⟨hpending₁, hlog₁, rfl⟩ | ⟨rfl, hp, hlog⟩)
  · obtain ⟨s₂, hstep, ⟨hp, hlog⟩ | ⟨hpending₂, hlog, hlt⟩⟩ := push_step hpending₁
    · exact ⟨.produce r none, s₂, rfl, hstep,
        .inr ⟨0, by omega, .inr ⟨rfl, hp, by rw [hlog, hlog₁]⟩⟩⟩
    · exact ⟨.produce r none, s₂, rfl, hstep, .inr ⟨_, by omega, .inl ⟨hpending₂, hlog.trans hlog₁,
        rfl⟩⟩⟩
  · refine ⟨.produce r none, s₁.setRing r fun R =>
      { R with pushed := R.pushed + 1, totalPushed := R.pushed + 1, producer := .idle }, rfl,
      by simp only [step, produce, hp], .inl ?_⟩
    simp only [setRing, Function.update_self, true_and]
    exact hlog

end State

end Muxocket.RingBuffer
