import Muxocket.Popping

/-!
# The history of a ring

What a step may do to the history of a ring is said once for every kind of step: a push is begun
and its slot comes into the queue, a call is begun, finds the oldest slot or finds the ring empty,
and `Close` begins.  All other steps leave the history as it is.
-/

namespace Muxocket.RingBuffer

/-- The slot with which `feed` was called, if `Push` has not read `pChunk` yet. -/
@[simp]
def Producer.feeding : Producer → Option Slot
  | .checked x => some x
  | _ => none

/-- What the history of a ring depends on. -/
structure Face where
  ended : Bool
  puts : List Slot
  log : List Event
  feeding : Option Slot
  call : Option Call

/-- What the history of a ring depends on. -/
@[simp]
def Ring.face (R : Ring) : Face where
  ended := R.ended
  puts := R.puts
  log := R.log
  feeding := R.producer.feeding
  call := R.consumer.place.call

/-- What an action may do to the history of the ring `r`. -/
inductive Turn (r : Nat) (F : Face) : Action → Face → Prop
  | quiet (a : Action) : Turn r F a F
  | feed (x : Slot) : Turn r F (.feed r x) { F with feeding := some x }
  | refuse (a : Action) : Turn r F a { F with feeding := none }
  | begin (a : Action) (x : Slot) : F.feeding = some x →
      Turn r F a { F with feeding := none, puts := F.puts ++ [x] }
  | put (a : Action) (x : Slot) : Turn r F a { F with log := F.log ++ [.put x] }
  | call (c : Call) : Turn r F (.call r c) { F with call := some c }
  | fail (c : Call) : F.call = none → Turn r F (.call r c) { F with log := F.log ++ [.missed c] }
  | take (a : Action) (c : Call) (x : Slot) : F.call = some c →
      Turn r F a { F with call := none, log := F.log ++ [.took c x] }
  | miss (a : Action) (c : Call) : F.call = some c →
      Turn r F a { F with call := none, log := F.log ++ [.missed c] }
  | close : Turn r F (.close r) { F with ended := true }

/-- Only an action that begins to close a ring marks it as closed. -/
theorem Turn.ended {r : Nat} {F F' : Face} {a : Action} (h : Turn r F a F') (ha : a ≠ .close r) :
  F'.ended = F.ended
  := by
  cases h with
  | close => contradiction
  | _ => rfl

namespace State

variable {s s' : State} {r : Nat}

variable {s₀ : State} {a : Action} {f : Ring → Ring}

/-- A step of one ring leaves the other rings as they are. -/
theorem turn_of_update (hrings : s₀.rings = s.rings)
    (h : Turn r (s.rings r).face a (f (s.rings r)).face) (q : Nat) :
  Turn q (s.rings q).face a ((s₀.setRing r f).rings q).face
  := by
  by_cases hq : q = r
  · subst hq
    simpa [setRing, hrings] using h
  · simp only [setRing, hrings, Function.update_of_ne hq]
    exact Turn.quiet a

/-- A step that leaves the history of every ring as it is. -/
theorem turn_of_face (a : Action) (hrings : s₀.rings = s.rings)
    (h : (f (s.rings r)).face = (s.rings r).face) (q : Nat) :
  Turn q (s.rings q).face a ((s₀.setRing r f).rings q).face
  := by
  apply turn_of_update hrings
  rw [h]
  exact Turn.quiet a

/-- A producer that neither begins nor ends a push leaves the history as it is. -/
theorem face_setProducer (R : Ring) {p : Producer} (hp : p.feeding = R.producer.feeding) :
  Ring.face { R with producer := p } = R.face
  := by
  rw [Ring.face, hp, Ring.face]

theorem turn_produce {pick : Option Nat} (hstep : s.produce r pick = some s') (q : Nat) :
  Turn q (s.rings q).face (.produce r pick) (s'.rings q).face
  := by
  have hgo : ∀ (s₀ : State) (p : Producer), s₀.rings = s.rings →
      p.feeding = (s.rings r).producer.feeding →
      Turn q (s.rings q).face (.produce r pick) ((s₀.setProducer r p).rings q).face :=
    fun s₀ p hrings hp => turn_of_face _ hrings (face_setProducer _ hp) q
  unfold produce at hstep
  cases hp : (s.rings r).producer with
  | idle => simp [hp] at hstep
  | unborn | full | measuring | storing | returning =>
      obtain rfl : _ = s' := by simpa [hp] using hstep
      exact hgo _ _ rfl (by simp [hp])
  | resetting p a w =>
      obtain rfl : _ = s' := by simpa [hp] using hstep
      exact hgo _ _ rfl (by cases w <;> simp [hp, Wipe.after])
  | wiping x pc a reuse w =>
      obtain rfl : _ = s' := by simpa [hp] using hstep
      exact hgo _ _ rfl (by cases w <;> cases reuse <;> simp [hp, Wipe.after])
  | linking p a =>
      cases p <;> obtain rfl : _ = s' := by simpa [hp] using hstep
      · refine turn_of_face _ (by rfl) ?_ q
        simp [hp]
      · exact hgo _ _ rfl (by simp [hp])
  | linked x a | counting =>
      obtain rfl : _ = s' := by simpa [hp] using hstep
      refine turn_of_face _ (by rfl) ?_ q
      simp [hp]
  | checked x =>
      simp only [hp] at hstep
      split at hstep <;> obtain rfl := Option.some.inj hstep <;> refine turn_of_update (by rfl) ?_ q
      · exact Turn.refuse _
      · exact Turn.begin _ x (by simp [hp])
  | pushing x pc =>
      simp only [hp] at hstep
      split at hstep <;> obtain rfl := Option.some.inj hstep <;>
        exact hgo _ _ rfl (by simp [hp])
  | allocating p capacity =>
      simp only [hp, newChunk] at hstep
      split at hstep
      · split at hstep
        · obtain ⟨a, -, rfl⟩ := Option.map_eq_some_iff.mp hstep
          exact hgo _ _ rfl (by simp [hp])
        · cases hstep
          exact hgo _ _ rfl (by simp [hp])
      · cases hstep
        exact hgo _ _ rfl (by simp [hp])
  | stored x pc idx =>
      obtain rfl : _ = s' := by simpa [hp] using hstep
      refine turn_of_update (by rfl) ?_ q
      simpa [hp] using
        Turn.put (r := r) (F := (s.rings r).face) (.produce r pick) x
  | lagging x pc lag =>
      obtain rfl : _ = s' := by simpa [hp] using hstep
      have hgrow : ∀ p : Producer, p.feeding = none →
          Turn q (s.rings q).face (.produce r pick) (((s.setRing r fun R =>
            { R with freeChunk := none }).setProducer r p).rings q).face := by
        intro p hfeeding
        rw [setProducer, setRing_setRing]
        refine turn_of_face _ (by rfl) ?_ q
        simp only [Ring.face, hp, hfeeding]
        rfl
      unfold grow
      dsimp only
      split
      · split
        · split <;> exact hgrow _ rfl
        · exact hgrow _ rfl
      · split <;> exact hgrow _ rfl

theorem turn_recycleChunk {k : After} {b : Nat} (hrings : s₀.rings = s.rings)
    (h : ∀ c : Consumer, c.place = k.resume →
      (Ring.face { f (s.rings r) with consumer := c }) = (s.rings r).face) (q : Nat) :
  Turn q (s.rings q).face a (((s₀.setRing r f).recycleChunk r k b).rings q).face
  := by
  obtain ⟨c, hc, heq⟩ := recycleChunk_eq (s₀.setRing r f) r k b
  rw [heq, setConsumer, setRing_setRing]
  exact turn_of_face a hrings (h c hc.place) q

theorem turn_consume (hstep : s.consume r = some s') (q : Nat) :
  Turn q (s.rings q).face (.consume r) (s'.rings q).face
  := by
  have hgo : ∀ (s₀ : State) (f : Ring → Ring), s₀.rings = s.rings →
      (f (s.rings r)).face = (s.rings r).face →
      Turn q (s.rings q).face (.consume r) ((s₀.setRing r f).rings q).face :=
    fun s₀ f hrings hf => turn_of_face _ hrings hf q
  unfold consume at hstep
  cases hc : (s.rings r).consumer with
  | idle => simp [hc] at hstep
  | moving | counting | closingRing | closingConsumer | closingProducer =>
      obtain rfl : _ = s' := by simpa [hc] using hstep
      exact hgo _ _ rfl (by simp [hc])
  | wiping k a w =>
      obtain rfl : _ = s' := by simpa [hc] using hstep
      exact hgo _ _ rfl (by cases w <;> simp [hc, Wipe.after])
  | returning k a =>
      obtain rfl : _ = s' := by simpa [hc] using hstep
      exact hgo _ _ rfl (by cases k <;> simp [hc, After.resume])
  | looking c due cc =>
      simp only [hc] at hstep
      split at hstep
      · cases hstep
        exact hgo _ _ rfl (by simp [hc])
      · split at hstep
        · cases hstep
          rw [setConsumer, setRing_setRing]
          exact hgo _ _ rfl (by simp [hc])
        · split at hstep <;> cases hstep
          · rw [setConsumer, setRing_setRing]
            exact hgo _ _ rfl (by simp [hc])
          · rw [report, setRing_setRing]
            refine turn_of_update (by rfl) ?_ q
            exact Turn.miss _ c (by simp [hc])
  | atEnd c due cc =>
      simp only [hc] at hstep
      split at hstep <;> cases hstep
      · refine turn_of_update (by rfl) ?_ q
        exact Turn.miss _ c (by simp [hc])
      · exact hgo _ _ rfl (by simp [hc])
  | leaving c due cc n =>
      obtain rfl : _ = s' := by simpa [hc] using hstep
      unfold leave
      split
      · dsimp only
        split
        · refine turn_recycleChunk (by rfl) ?_ q
          intro c' hc'
          simp only [Ring.face, hc, hc']
          rfl
        · rw [setConsumer, setRing_setRing]
          exact hgo _ _ rfl (by simp [hc])
      · exact hgo _ _ rfl (by simp [hc])
  | taking c cc =>
      obtain rfl : _ = s' := by simpa [hc] using hstep
      unfold take
      dsimp only
      split
      · rw [setRing_setChunk]
        refine turn_of_update (by rfl) ?_ q
        exact Turn.take _ c _ (by simp [hc])
      · rw [setConsumer, setRing_setChunk]
        refine turn_of_update (by rfl) ?_ q
        exact Turn.take _ c _ (by simp [hc])
  | closing =>
      simp only [hc] at hstep
      split at hstep <;> cases hstep
      · refine turn_recycleChunk (by rfl) ?_ q
        intro c' hc'
        simp only [Ring.face, hc, hc']
        rfl
      · rw [setConsumer, setRing_setRing]
        exact hgo _ _ rfl (by simp [hc])
  | freeing cur =>
      cases cur with
      | none =>
          obtain rfl : _ = s' := by simpa [hc] using hstep
          exact hgo _ _ rfl (by simp [hc])
      | some a =>
          obtain rfl : _ = s' := by simpa [hc] using hstep
          obtain ⟨c, hc', heq⟩ := recycleChunk_eq s r (.free (s.chunks a).next) a
          rw [heq]
          refine hgo _ _ rfl ?_
          simp only [Ring.face, hc, hc'.place]
          rfl

/-- A call can start at an idle consumer, unless the producer makes the ring. -/
theorem ready_iff :
  s.ready r = true ↔ (s.rings r).consumer = .idle ∧ (s.rings r).producer.making = false
  := by
  unfold ready
  rw [Bool.and_eq_true, decide_eq_true_iff]
  apply and_congr_right
  intro _
  cases (s.rings r).producer with
  | allocating p | resetting p | linking p => cases p <;> simp
  | _ => simp

/-- What a step may do to the history of a ring. -/
theorem turn_step (hstep : s.step a = some s') (q : Nat) :
  Turn q (s.rings q).face a (s'.rings q).face
  := by
  cases a with
  | produce r pick => exact turn_produce hstep q
  | consume r => exact turn_consume hstep q
  | feed r x =>
      simp only [step, feed] at hstep
      split at hstep
      · split at hstep <;> cases hstep
        · exact Turn.quiet _
        · refine turn_of_update (by rfl) ?_ q
          exact Turn.feed x
      · contradiction
  | call r c =>
      simp only [step, call] at hstep
      split at hstep
      · rename_i hready
        obtain ⟨hidle, -⟩ := ready_iff.mp hready
        split at hstep <;> cases hstep
        · rw [report, setRing_setRing]
          refine turn_of_update (by rfl) ?_ q
          have hnone : (s.rings r).face.call = none := by
            simp [hidle]
          simpa [hidle] using Turn.fail (r := r) c hnone
        · rw [setConsumer, setRing_setRing]
          refine turn_of_update (by rfl) ?_ q
          exact Turn.call c
      · contradiction
  | close r =>
      simp only [step, close] at hstep
      split at hstep
      · rename_i hready
        obtain ⟨hidle, -⟩ := ready_iff.mp hready
        cases hstep
        refine turn_of_update (by rfl) ?_ q
        simpa [hidle] using
          Turn.close (r := r) (F := (s.rings r).face)
      · contradiction
  | shut r =>
      cases hstep
      exact turn_of_face _ rfl rfl q
  | evict i =>
      cases hstep
      exact Turn.quiet _

end State

end Muxocket.RingBuffer
