import Muxocket.Returning

/-!
# Rings are queues of bytes

Whatever the order of the steps of its producer and its consumer, and whatever chunks it grows by,
leaves and reuses, an open ring is a queue of bytes for every mix of `Pop`, `PartialRead`, `Peek`
and `Advance`.  A call and a push that are left alone return.
-/

namespace Muxocket.RingBuffer

open Segment

/-- `Length`. -/
def Ring.length (R : Ring) : Nat :=
  if R.totalPopped ≤ R.totalPushed then R.totalPushed - R.totalPopped else 0

/-! ### What may be asked of a ring -/

/-- How many bytes are left, after an event, of the buffer that was peeked last, if `n` were left
before. -/
def Event.peeked (n : Nat) : Event → Nat
  | .put _ => n
  | .took .peek x => x.buf.length
  | .took c x => n - (c.consumes x.buf).length
  | .missed .peek => 0
  | .missed _ => n

/-- How many bytes are left of the buffer that was peeked last. -/
def peeked (log : List Event) : Nat :=
  log.foldl Event.peeked 0

theorem peeked_append (log : List Event) (e : Event) :
  peeked (log ++ [e]) = e.peeked (peeked log)
  := by
  simp [peeked]

/-- The number of bytes of the oldest slot. -/
def front : List Slot → Nat
  | [] => 0
  | x :: _ => x.buf.length

theorem Event.peeked_le {log : List Event} {q q' : List Slot} {e : Event}
    (hqueue : Queues log q) (hle : RingBuffer.peeked log ≤ front q) (h : e.apply q = some q') :
  e.peeked (RingBuffer.peeked log) ≤ front q'
  := by
  cases e with
  | put y =>
      obtain rfl : q ++ [y] = q' := by simpa [Event.apply] using h
      cases q with
      | nil => exact hle.trans (Nat.zero_le _)
      | cons x q => exact hle
  | missed c =>
      cases q with
      | nil =>
          obtain rfl : [] = q' := by simpa [Event.apply] using h
          cases c <;> first | exact hle | exact Nat.zero_le _
      | cons x q => simp [Event.apply] at h
  | took c x =>
      cases q with
      | nil => simp [Event.apply] at h
      | cons y q =>
          obtain ⟨rfl, rfl⟩ := Run.guard h
          have hx := hqueue.nonempty x (by simp)
          simp only [front] at hle
          by_cases hpeek : c = .peek
          · subst hpeek
            simp [Event.peeked, Call.leaves, Call.removes, Call.eats, hx, front]
          · have heq : Event.peeked (RingBuffer.peeked log) (.took c x)
                = RingBuffer.peeked log - (c.consumes x.buf).length := by
              cases c <;> first | rfl | contradiction
            rw [heq]
            rcases c.removes_cases hx with ⟨-, hall⟩ | ⟨hr, hlt, hpart⟩
            · rw [hall]
              omega
            · rw [Call.leaves, if_neg (by simp [hr]), hpart]
              simp only [front, List.length_drop, List.length_take]
              omega

/-- What is left of the buffer that was peeked last is left of the oldest slot. -/
theorem peeked_le {log : List Event} {q : List Slot} (h : replay log = some q)
    (hne : ∀ x ∈ log.flatMap Event.puts, x.buf ≠ []) :
  peeked log ≤ front q
  := by
  induction log using List.reverseRecOn generalizing q with
  | nil => exact Nat.zero_le _
  | append_singleton log e ih =>
      rw [replay_append] at h
      obtain ⟨q₀, hq₀, hq⟩ := Option.bind_eq_some_iff.mp h
      have hne₀ : ∀ x ∈ log.flatMap Event.puts, x.buf ≠ [] :=
        fun x hx => hne x (by simp only [List.flatMap_append, List.mem_append]; exact .inl hx)
      rw [peeked_append]
      exact Event.peeked_le (queues_of_replay hq₀ hne₀) (ih hq₀ hne₀) hq

/-- An action that is allowed while the ring `r` is open: buffers that are pushed to it are not
empty, and `Advance` is called for no more than is left of the buffer that was peeked last. -/
def Asks (r : Nat) (log : List Event) : Action → Prop
  | .close q => q ≠ r
  | .feed q x => q = r → x.buf ≠ []
  | .call q (.advance n) => q = r → n ≤ peeked log
  | _ => True

instance (r : Nat) (log : List Event) (a : Action) : Decidable (Asks r log a) := by
  unfold Asks
  split <;> infer_instance

/-- What is kept of the history of an open ring. -/
structure Face.Fits (F : Face) : Prop where
  ended : F.ended = false
  feeding : ∀ x, F.feeding = some x → x.buf ≠ []
  puts : ∀ x ∈ F.puts, x.buf ≠ []
  calling : ∀ n, F.call = some (.advance n) → n ≤ peeked F.log
  advanced : ∀ n x, .took (.advance n) x ∈ F.log → n ≤ x.buf.length

/-- `Advance` goes no further than the buffer it finds. -/
theorem Face.Fits.within {F : Face} (h : F.Fits) {x : Slot} {n : Nat} {q : List Slot}
    (hcall : F.call = some (.advance n))
    (hreplay : replay (F.log ++ [.took (.advance n) x]) = some q)
    (hputs : ∀ y ∈ F.log.flatMap Event.puts, y ∈ F.puts) :
  n ≤ x.buf.length
  := by
  obtain ⟨q₀, q₁, hq₀, hq₁⟩ := replay_split hreplay
  have hle := peeked_le hq₀ fun y hy => h.puts y (hputs y hy)
  cases q₀ with
  | nil => simp [Event.apply] at hq₁
  | cons y q₀ =>
      obtain ⟨rfl, -⟩ := Option.ite_none_right_eq_some.mp hq₁
      exact (h.calling n hcall).trans hle

theorem Turn.fits {r : Nat} {F F' : Face} {a : Action} (h : Turn r F a F') (hfits : F.Fits)
    (hasks : Asks r F.log a) {q : List Slot} (hreplay : replay F'.log = some q)
    (hputs : ∀ y ∈ F.log.flatMap Event.puts, y ∈ F.puts) :
  F'.Fits
  := by
  have hadd : ∀ e, (∀ n x, e ≠ .took (.advance n) x) →
      ∀ n x, Event.took (.advance n) x ∈ F.log ++ [e] → n ≤ x.buf.length := by
    intro e he n x hmem
    rcases List.mem_append.mp hmem with hmem | hmem
    · exact hfits.advanced n x hmem
    · exact absurd (List.mem_singleton.mp hmem).symm (he n x)
  cases h with
  | quiet => exact hfits
  | feed x => exact { hfits with feeding := fun y hy => by cases hy; exact hasks rfl }
  | refuse => exact { hfits with feeding := fun _ hy => by cases hy }
  | begin _ x hx =>
      refine { hfits with feeding := fun _ hy => by cases hy
                          puts := ?_ }
      intro y hy
      rcases List.mem_append.mp hy with hy | hy
      · exact hfits.puts y hy
      · rw [List.mem_singleton.mp hy]
        exact hfits.feeding x hx
  | put _ x =>
      refine { hfits with calling := ?_, advanced := hadd _ (by simp) }
      intro n hn
      rw [peeked_append]
      exact hfits.calling n hn
  | call c =>
      refine { hfits with calling := ?_ }
      intro n hn
      obtain rfl : c = .advance n := by simpa using hn
      exact hasks rfl
  | fail c hnone =>
      refine { hfits with calling := ?_, advanced := hadd _ (by simp) }
      intro n hn
      simp [hnone] at hn
  | take _ c x hc =>
      refine { hfits with calling := by simp, advanced := ?_ }
      by_cases hadvance : ∃ n, c = .advance n
      · obtain ⟨n, rfl⟩ := hadvance
        intro m y hmem
        rcases List.mem_append.mp hmem with hmem | hmem
        · exact hfits.advanced m y hmem
        · obtain ⟨h₁, rfl⟩ := Event.took.inj (List.mem_singleton.mp hmem)
          obtain rfl := Call.advance.inj h₁
          exact hfits.within hc hreplay hputs
      · apply hadd
        rintro n y heq
        exact hadvance ⟨n, (Event.took.inj heq).1⟩
  | miss _ c hc => exact { hfits with calling := by simp, advanced := hadd _ (by simp) }
  | close => exact absurd rfl hasks

namespace State

variable {s s' : State} {own : Nat → Owner} {chain dying : Nat → List Nat} {r : Nat}

/-! ### Open rings -/

/-- What is unread after everything in a log. -/
def left (log : List Event) : List Slot :=
  unread (log.flatMap Event.puts) (log.flatMap Event.consumes).length

/-- The steps of any number of rings, of which the ring `r` stays open and is used as it may be. -/
def Uses (r : Nat) (s : State) (a : Action) : Prop :=
  s.Calm a ∧ Asks r (s.rings r).log a

instance (r : Nat) (s : State) (a : Action) : Decidable (Uses r s a) :=
  inferInstanceAs (Decidable (_ ∧ _))

/-- The log of an open ring can be replayed, and leaves what is in its chunks. -/
theorem Owned.replays (h : s.Owned own chain dying) (hended : (s.rings r).ended = false) :
  ∃ q, replay (s.rings r).log = some q ∧ ((s.rings r).producer.making = false →
    chain r ≠ [] ∧ q = live s.chunks (s.rings r).start (chain r))
  := by
  have hr := h.ring r
  by_cases hmaking : (s.rings r).producer.making = true
  · obtain ⟨-, -, -, -, hlog⟩ := hr.content.new hmaking
    exact ⟨[], by simp [hlog, replay], by simp [-Producer.making, hmaking]⟩
  · have hne := hr.content.made hended (by simpa using hmaking)
    exact ⟨_, hr.content.replayed hne, fun _ => ⟨hne, rfl⟩⟩

theorem Owned.mem_puts (h : s.Owned own chain dying) {x : Slot}
    (hx : x ∈ (s.rings r).log.flatMap Event.puts) :
  x ∈ (s.rings r).puts
  := by
  rw [(h.ring r).content.logged]
  exact List.mem_append_left _ hx

/-- In every run in which a ring is used as it may be, its history is that of an open ring. -/
theorem fits_of_run (hrun : Run State.step (Uses r) init s) :
  s.Sound ∧ (s.rings r).face.Fits
  := by
  apply hrun.invariant (I := fun s => s.Sound ∧ (s.rings r).face.Fits)
  · rintro s a s' ⟨⟨own, chain, dying, h⟩, hfits⟩ ⟨hcalm, hasks⟩ hstep
    have hsound := h.step hcalm hstep
    have hturn := turn_step hstep r
    have hclose : a ≠ .close r := by
      rintro rfl
      exact hasks rfl
    obtain ⟨own', chain', dying', h'⟩ := hsound
    obtain ⟨q, hq, -⟩ := h'.replays (r := r) ((hturn.ended hclose).trans hfits.ended)
    exact ⟨⟨own', chain', dying', h'⟩, hturn.fits hfits hasks hq fun y hy => h.mem_puts hy⟩
  · refine ⟨⟨_, _, _, owned_init⟩, rfl, ?_, ?_, ?_, ?_⟩ <;>
      simp [init, unbornRing]

section

variable (h : s.Owned own chain dying)

include h

/-- A call that begins returns, if its consumer goes on, and it has found one slot or nothing. -/
theorem Owned.call_serves {c : Call} (hcall : s.call r c = some s') :
  ∃ s₁ e, Run State.step (fun _ a => a = .consume r) s' s₁ ∧ (s₁.rings r).consumer = .idle
    ∧ e.call = some c ∧ (s₁.rings r).log = (s.rings r).log ++ [e]
  := by
  obtain ⟨own', chain', dying', h'⟩ := h.call hcall
  unfold State.call at hcall
  split at hcall
  · dsimp only at hcall
    split at hcall
    · cases hcall
      refine ⟨_, .missed c, Run.refl _, ?_, rfl, ?_⟩ <;> simp [State.report, State.setRing]
    · cases hcall
      obtain ⟨s₁, hrun, hidle, e, he, hlog⟩ := h'.call_returns (r := r) (c := c)
        (by simp [State.setConsumer, State.setRing])
      refine ⟨s₁, e, hrun, hidle, he, ?_⟩
      rw [hlog]
      simp [State.setConsumer, State.setRing]
  · contradiction

/-- A push that begins returns, if its producer goes on, and its slot is in the queue. -/
theorem Owned.feed_stores (hended : (s.rings r).ended = false)
    (hclosed : (s.rings r).closed = false) {x : Slot} (hfeed : s.feed r x = some s') :
  ∃ s₁, Run State.step (fun _ a => a = .produce r none) s' s₁ ∧ (s₁.rings r).producer = .idle
    ∧ (s₁.rings r).log = (s.rings r).log ++ [.put x]
  := by
  have hr := h.ring r
  unfold State.feed at hfeed
  split at hfeed
  · rename_i hidle
    have hne : chain r ≠ [] := hr.content.made hended (by simp [hidle])
    obtain ⟨pc, hpc⟩ : ∃ pc, (s.rings r).pChunk = some pc := by
      rw [hr.producer.last (by simp [hidle])]
      exact ⟨_, List.getLast?_eq_some_getLast hne⟩
    rw [if_neg (by simp [hclosed])] at hfeed
    cases hfeed
    have hstep : (s.setProducer r (.checked x)).produce r none
        = some ((s.setProducer r (.checked x)).setRing r fun R =>
          { R with producer := .pushing x pc, puts := R.puts ++ [x] }) := by
      simp [State.produce, State.setProducer, State.setRing, hpc]
    obtain ⟨s₁, hrun, hidle₁, hlog⟩ := push_returns (r := r) (x := x) (s := (s.setProducer r
      (.checked x)).setRing r fun R => { R with producer := .pushing x pc, puts := R.puts ++ [x] })
      (by simp [State.setRing])
    refine ⟨s₁, Run.head rfl hstep hrun, hidle₁, ?_⟩
    rw [hlog]
    simp [State.setProducer, State.setRing]
  · contradiction

/-- With no push and no call under way, `Length` is the number of slots in the chunks of a ring. -/
theorem Owned.length_eq (hne : chain r ≠ []) (hproducer : (s.rings r).producer = .idle)
    (hconsumer : (s.rings r).consumer = .idle) :
  (s.rings r).length = (live s.chunks (s.rings r).start (chain r)).length
  := by
  have hr := h.ring r
  obtain ⟨e, rest, hrest, hlive, -⟩ := hr.content.content hne
  have hpushed := hr.content.pushed
  have hpopped := hr.content.popped
  have hlength := congrArg List.length hrest
  have heat : (eat e rest).length = rest.length := by cases rest <;> rfl
  rw [hproducer] at hpushed hlength
  rw [hlive, heat, Ring.length, hr.content.total, hr.content.counted (by simp [hconsumer])]
  simp only [Producer.pending, List.append_nil, List.length_drop, List.length_nil, Nat.add_zero,
    reduceCtorEq, if_false] at hpushed hlength
  rw [if_pos (by omega)]
  omega

end

/-- An open ring, in any order of the steps of its producer and its consumer and of those of other
rings that share the pool.  Buffers pushed to it are not empty, and `Advance` is called for no more
than is left of the buffer that was peeked last.

At any time, the bytes consumed are the beginning of those pushed, and the references returned,
followed by those of the buffers of which something is unread, are the references pushed.  A call
finds the unread rest of the oldest buffer, which is what `Peek` returns, and it finds nothing only
if nothing is unread.  `Advance` stays within the buffer it finds.  With no push and no call under
way, `Length` is the number of buffers of which something is unread.  A call or a push that begins
returns, if no other step comes between. -/
theorem ring_is_byte_queue (r : Nat) (s : State) (hrun : Run State.step (Uses r) init s) :
  (s.rings r).puts = (s.rings r).log.flatMap Event.puts ++ (s.rings r).producer.pending
    ∧ (∀ earlier, earlier <+: (s.rings r).log →
        earlier.flatMap Event.consumes <+: (earlier.flatMap Event.puts).flatMap Slot.buf
          ∧ earlier.flatMap Event.returns ++ (left earlier).map Slot.head
            = (earlier.flatMap Event.puts).map Slot.head)
    ∧ (∀ earlier c x later, (s.rings r).log = earlier ++ .took c x :: later →
        (left earlier).head? = some x ∧ (c = .peek → c.shows x = (left earlier).take 1))
    ∧ (∀ earlier c later, (s.rings r).log = earlier ++ .missed c :: later → left earlier = [])
    ∧ (∀ n x, .took (.advance n) x ∈ (s.rings r).log → n ≤ x.buf.length)
    ∧ ((s.rings r).producer = .idle → (s.rings r).consumer = .idle →
        (s.rings r).length = (left (s.rings r).log).length)
    ∧ (∀ c s', s.call r c = some s' →
        ∃ s₁ e, Run State.step (fun _ a => a = .consume r) s' s₁ ∧ (s₁.rings r).consumer = .idle
          ∧ e.call = some c ∧ (s₁.rings r).log = (s.rings r).log ++ [e])
    ∧ (∀ x s', (s.rings r).closed = false → s.feed r x = some s' →
        ∃ s₁, Run State.step (fun _ a => a = .produce r none) s' s₁ ∧ (s₁.rings r).producer = .idle
          ∧ (s₁.rings r).log = (s.rings r).log ++ [.put x])
  := by
  obtain ⟨⟨own, chain, dying, h⟩, hfits⟩ := fits_of_run hrun
  obtain ⟨q, hq, hlive⟩ := h.replays (r := r) hfits.ended
  have hne : ∀ x ∈ (s.rings r).log.flatMap Event.puts, x.buf ≠ [] :=
    fun x hx => hfits.puts x (h.mem_puts hx)
  have hqueues : ∀ earlier q₀, earlier <+: (s.rings r).log → replay earlier = some q₀ →
      Queues earlier q₀ := by
    rintro earlier q₀ ⟨later, hlater⟩ hq₀
    refine queues_of_replay hq₀ fun x hx => hne x ?_
    rw [← hlater, List.flatMap_append]
    exact List.mem_append_left _ hx
  have hsplit : ∀ earlier e later, (s.rings r).log = earlier ++ e :: later →
      ∃ q₀ q₁, Queues earlier q₀ ∧ e.apply q₀ = some q₁ := by
    intro earlier e later hlog
    obtain ⟨q₀, q₁, hq₀, hq₁⟩ := replay_split (hlog ▸ hq)
    exact ⟨q₀, q₁, hqueues earlier q₀ ⟨_, hlog.symm⟩ hq₀, hq₁⟩
  have hprefix : ∀ earlier, earlier <+: (s.rings r).log → ∃ q₀, Queues earlier q₀ := by
    rintro earlier ⟨later, hlater⟩
    cases later with
    | nil =>
        rw [List.append_nil] at hlater
        exact ⟨q, hqueues earlier q ⟨[], by simpa using hlater⟩ (hlater ▸ hq)⟩
    | cons e later =>
        obtain ⟨q₀, -, hq₀, -⟩ := hsplit earlier e later hlater.symm
        exact ⟨q₀, hq₀⟩
  refine ⟨(h.ring r).content.logged, ?_, ?_, ?_, hfits.advanced, ?_, ?_, ?_⟩
  · intro earlier hearlier
    obtain ⟨q₀, hq₀⟩ := hprefix earlier hearlier
    refine ⟨⟨_, hq₀.bytes⟩, ?_⟩
    rw [left, hq₀.unread]
    exact hq₀.heads
  · intro earlier c x later hlog
    obtain ⟨q₀, q₁, hq₀, hq₁⟩ := hsplit earlier _ later hlog
    cases q₀ with
    | nil => simp [Event.apply] at hq₁
    | cons y q₀ =>
        obtain ⟨rfl, -⟩ := Option.ite_none_right_eq_some.mp hq₁
        rw [left, hq₀.unread]
        refine ⟨rfl, ?_⟩
        rintro rfl
        simp [Call.shows, hq₀.nonempty x (by simp)]
  · intro earlier c later hlog
    obtain ⟨q₀, q₁, hq₀, hq₁⟩ := hsplit earlier _ later hlog
    cases q₀ with
    | nil => exact hq₀.unread
    | cons y q₀ => simp [Event.apply] at hq₁
  · intro hproducer hconsumer
    obtain ⟨hchain, rfl⟩ := hlive (by simp [hproducer])
    rw [h.length_eq hchain hproducer hconsumer, left,
      (hqueues _ _ List.prefix_rfl hq).unread]
  · intro c s' hcall
    exact h.call_serves hcall
  · intro x s' hclosed hfeed
    exact h.feed_stores hfits.ended hclosed hfeed

/-- Seventeen buffers are pushed, one more than the first chunk has slots.  The first is peeked and
consumed in two calls, fifteen are popped, and of the last one, in the next chunk, a byte is
read. -/
theorem ring_is_byte_queue_next_chunk :
  ∃ s : State, (left (s.rings 0).log).map Slot.buf = [[4, 5]] ∧ (s.rings 0).length = 1
  := by
  obtain ⟨s, hrun, hleft, hproducer, hconsumer⟩ := Run.exists_of_exec State.step (Uses 0) init
    (List.flatten [making 0 none, (List.replicate 16 (pushing 0 ⟨[1, 2, 3], some 7⟩)).flatten,
      .feed 0 ⟨[3, 4, 5], some 8⟩ :: List.replicate 11 (.produce 0 none),
      .call 0 .peek :: List.replicate 2 (.consume 0),
      .call 0 (.advance 2) :: List.replicate 2 (.consume 0),
      .call 0 (.partialRead 9) :: List.replicate 3 (.consume 0),
      (List.replicate 15 (.call 0 .pop :: List.replicate 3 (.consume 0))).flatten,
      .call 0 (.partialRead 1) :: List.replicate 6 (.consume 0)])
    (fun s => (left (s.rings 0).log).map Slot.buf = [[4, 5]] ∧ (s.rings 0).producer = .idle
      ∧ (s.rings 0).consumer = .idle) (by decide +kernel)
  obtain ⟨-, -, -, -, -, hlength, -⟩ := ring_is_byte_queue 0 s hrun
  refine ⟨s, hleft, ?_⟩
  rw [hlength hproducer hconsumer]
  simpa using congrArg List.length hleft

end State

end Muxocket.RingBuffer
