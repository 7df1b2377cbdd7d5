import Muxocket.Ownership

/-!
# The steps of a producer

Every step of a producer leaves each chunk with one owner.
-/

namespace Muxocket.RingBuffer

open Function Producer

open Segment

section

variable {chunks chunks' : Nat → Chunk} {own own' : Nat → Owner} {r : Nat} {R : Ring}
  {as ds : List Nat}

/-- A producer that only goes on. -/
theorem RingOk.goTo (h : RingOk chunks own r R as ds) {p : Producer}
    (hheld : ∀ a, p.held = some a → own a = .producer r)
    (htarget : ∀ pc, p.target = some pc → as.getLast? = some pc)
    (hlinked : ∀ x a, R.producer ≠ .linked x a) (hsteady : R.producer.Steady p)
    (hphase : p.Phase chunks as) :
  RingOk chunks own r { R with producer := p } as ds
  := by
  apply h.produce (fun _ _ => ⟨rfl, rfl⟩) h.consumer.spare hsteady
  refine ⟨hheld, htarget, fun _ => h.producer.last hlinked, ?_, hphase⟩
  intro hmade
  exact h.producer.making (hsteady.1 ▸ hmade)

variable {x : Slot} {a pc : Nat}

section

variable (h : RingOk chunks own r R as ds)

include h

/-- A producer that has read `pChunk`. -/
theorem RingOk.begin (hp : R.producer = .checked x) (hpc : R.pChunk = some pc) :
  RingOk chunks own r { R with producer := .pushing x pc, puts := R.puts ++ [x] } as ds
  := by
  have hlast : as.getLast? = some pc := by
    rw [← h.producer.last (by simp [hp]), hpc]
  have hpopped := h.content.popped
  refine ⟨h.chain, ?_, ?_, ?_⟩
  · refine ⟨by simp, ?_, fun _ => hpc.trans hlast.symm, by simp,
      trivial⟩
    intro pc' hpc'
    obtain rfl : pc = pc' := by simpa using hpc'
    exact hlast
  · exact h.consumer.grows rfl rfl rfl rfl rfl rfl le_rfl rfl (fun a _ => Grows.refl _)
      h.consumer.spare (fun _ ha => ha) (fun _ _ => rfl)
  · have hpushed := h.content.pushed
    refine { h.content with content := ?_, pushed := ?_, shown := ?_, gets := ?_, popped := ?_
                            made := ?_, new := ?_, logged := ?_ }
    · intro hne
      obtain ⟨e, rest, hrest, hlive⟩ := h.content.content hne
      refine ⟨e, rest, ?_, hlive⟩
      simp only [hp, pending, List.append_nil] at hrest ⊢
      rw [List.drop_append_of_le_length hpopped, hrest]
    · simpa [hp] using hpushed
    · intro y hy
      obtain ⟨x', hx', hpart⟩ := h.content.shown y hy
      exact ⟨x', by simp [hx'], hpart⟩
    · intro honly
      rw [List.take_append_of_le_length hpopped]
      exact h.content.gets honly
    · exact hpopped.trans (by simp)
    · intro hend _
      exact h.content.made hend (by simp [hp])
    · simp
    · simpa [hp] using h.content.logged

/-- A producer that has set `pChunk`. -/
theorem RingOk.setPChunk (hp : R.producer = .linked x a)
    (hcap : ∀ b, own b ≠ .nobody → 0 < (chunks b).cap) :
  RingOk chunks own r { R with pChunk := some a, producer := .storing x a } as ds
  := by
  have hphase := h.producer.phase
  rw [hp] at hphase
  obtain ⟨hlast, htail⟩ := hphase
  have howner := h.chain.owned a (List.mem_of_getLast? hlast)
  refine ⟨h.chain, ?_, ?_, ?_⟩
  · refine ⟨by simp, ?_, fun _ => hlast.symm, by simp, ?_⟩
    · intro pc hpc
      obtain rfl : a = pc := by simpa using hpc
      exact hlast
    · simp only [Producer.Phase, htail]
      exact hcap a (by simp [howner])
  · exact h.consumer.grows rfl rfl rfl rfl rfl rfl le_rfl rfl (fun a _ => Grows.refl _)
      h.consumer.spare (fun _ ha => ha) (fun _ _ => rfl)
  · exact h.content.produce _ _ (by simp [Steady, hp]) rfl Iff.rfl

/-- A producer that has counted its push. -/
theorem RingOk.count (hp : R.producer = .counting) :
  RingOk chunks own r
    { R with pushed := R.pushed + 1, totalPushed := R.pushed + 1, producer := .idle } as ds
  := by
  refine ⟨h.chain, ?_, ?_, ?_⟩
  · exact ⟨by simp, by simp,
      fun _ => h.producer.last (by simp [hp]), by simp, trivial⟩
  · exact h.consumer.grows rfl rfl rfl rfl rfl rfl (Nat.le_succ _) rfl (fun a _ => Grows.refl _)
      h.consumer.spare (fun _ ha => ha) (fun _ _ => rfl)
  · refine { h.content with content := ?_, pushed := ?_, total := rfl, made := ?_, new := ?_
                            logged := ?_ }
    · have hcontent := h.content.content
      rw [hp] at hcontent
      exact hcontent
    · simpa [hp] using h.content.pushed
    · intro hend _
      exact h.content.made hend (by simp [hp])
    · simp
    · simpa [hp] using h.content.logged

end

theorem ConsumerOk.start_le (h : ConsumerOk chunks own r R as ds) {cc : Nat}
    (hcc : as.head? = some cc) :
  R.start ≤ (chunks cc).tail
  := by
  have hplace := h.place
  have hwindow : Window chunks R as → R.cHead ≤ (chunks cc).tail :=
    fun hwindow => (hwindow cc hcc).1.trans (hwindow cc hcc).2
  unfold Ring.start
  generalize R.consumer.place = c at hplace ⊢
  cases c with
  | moving => exact Nat.zero_le _
  | freeing cur =>
      obtain ⟨-, rfl, -⟩ := hplace
      simp at hcc
  | wiping | returning => exact hplace.elim
  | idle | counting | closing | closingRing => exact hwindow hplace.2
  | _ => exact hwindow hplace.2.1

theorem eat_append (e : Nat) (xs : List Slot) (x : Slot) :
  ∃ e', eat e xs ++ [x] = eat e' (xs ++ [x]) ∧ (e = 0 → e' = 0)
  := by
  cases xs with
  | nil => exact ⟨0, rfl, fun _ => rfl⟩
  | cons y xs => exact ⟨e, rfl, fun he => he⟩

section

variable (h : RingOk chunks own r R as ds)

include h

/-- A producer that has stored the slot. -/
theorem RingOk.storeSlot (hp : R.producer = .storing x pc) (hchunks : chunks' = update chunks pc
      { chunks pc with slots := update (chunks pc).slots (chunks pc).tail x }) :
  RingOk chunks' own r { R with producer := .stored x pc (chunks pc).tail } as ds
  := by
  have hlast := h.producer.target pc (by simp [hp])
  have hroom := h.producer.phase
  rw [hp] at hroom
  have hsame : ∀ a, (chunks' a).next = (chunks a).next ∧ (chunks' a).tail = (chunks a).tail
      ∧ (chunks' a).cap = (chunks a).cap
      ∧ ∀ j < (chunks a).tail, (chunks' a).slots j = (chunks a).slots j := by
    intro a
    by_cases ha : a = pc
    · subst ha
      simp only [hchunks, update_self, true_and]
      intro j hj
      exact update_of_ne (by omega) _ _
    · simp [hchunks, ha]
  refine ⟨?_, ?_, ?_, ?_⟩
  · apply h.chain.congr
    intro a _
    exact ⟨(hsame a).1, (hsame a).2.1, (hsame a).2.2.1, rfl⟩
  · refine ⟨by simp, ?_, fun _ => h.producer.last (by simp [hp]),
      by simp, ?_⟩
    · intro pc' hpc'
      obtain rfl : pc = pc' := by simpa using hpc'
      exact hlast
    · simp only [Producer.Phase, (hsame pc).2.1, (hsame pc).2.2.1, true_and]
      exact ⟨hroom, by simp [hchunks]⟩
  · refine h.consumer.grows rfl rfl rfl rfl rfl rfl le_rfl rfl ?_ h.consumer.spare (fun _ ha => ha)
      (fun a _ => (hsame a).1)
    intro a _
    obtain ⟨hnext, htail, hcap, -⟩ := hsame a
    exact ⟨hcap, htail.ge, fun _ => htail, fun n hn => hnext.trans hn⟩
  · apply h.content.produce _ _ (by simp [Steady, hp]) _ Iff.rfl
    exact live_congr_slots fun a _ => ⟨(hsame a).2.1, (hsame a).2.2.2⟩

/-- A producer that has stored the tail. -/
theorem RingOk.storeTail {idx : Nat} (hp : R.producer = .stored x pc idx)
    (hchunks : chunks' = update chunks pc { chunks pc with tail := idx + 1 }) :
  RingOk chunks' own r { R with producer := .counting, log := R.log ++ [.put x] } as ds
  := by
  have hlast := h.producer.target pc (by simp [hp])
  have hphase := h.producer.phase
  rw [hp] at hphase
  obtain ⟨rfl, hroom, hslot⟩ := hphase
  obtain ⟨before, rfl⟩ := List.getLast?_eq_some_iff.mp hlast
  have hbefore : ∀ a ∈ before, chunks' a = chunks a := by
    intro a ha
    have hne : a ≠ pc := by
      rintro rfl
      exact (List.nodup_append.mp h.chain.nodup).2.2 a ha a (by simp) rfl
    simp [hchunks, hne]
  have hpc : chunks' pc = { chunks pc with tail := (chunks pc).tail + 1 } := by simp [hchunks]
  have hnext : ∀ a, (chunks' a).next = (chunks a).next ∧ (chunks' a).cap = (chunks a).cap := by
    intro a
    by_cases ha : a = pc
    · subst ha
      simp [hpc]
    · simp [hchunks, ha]
  refine ⟨?_, ?_, ?_, ?_⟩
  · refine ⟨h.chain.owned, h.chain.nodup, h.chain.threaded.congr fun a _ => (hnext a).1, ?_, ?_⟩
    · intro a ha
      rw [List.dropLast_concat] at ha
      rw [hbefore a ha]
      exact h.chain.full a (by simpa using ha)
    · intro a ha
      rcases List.mem_append.mp ha with ha' | ha'
      · rw [hbefore a ha']
        exact h.chain.bound a ha
      · obtain rfl := List.mem_singleton.mp ha'
        rw [hpc]
        exact hroom
  · exact ⟨by simp, by simp,
      fun _ => h.producer.last (by simp [hp]), by simp, trivial⟩
  · refine h.consumer.grows rfl rfl rfl rfl rfl rfl le_rfl rfl ?_ h.consumer.spare (fun _ ha => ha)
      (fun a _ => (hnext a).1)
    intro a ha
    rcases List.mem_append.mp ha with ha' | ha'
    · rw [hbefore a ha']
      exact Grows.refl _
    · obtain rfl := List.mem_singleton.mp ha'
      rw [hpc]
      exact ⟨rfl, Nat.le_succ _, fun hfull => by omega, fun n hn => hn⟩
  · have hlive : live chunks' R.start (before ++ [pc])
        = live chunks R.start (before ++ [pc]) ++ [x] := by
      apply live_last hbefore
      intro j hj hj'
      rw [← hslot]
      refine filled_push ?_ (by simp [hpc]) (by simp [hpc])
      by_cases hnil : before = []
      · rw [hj hnil]
        exact h.consumer.start_le (by simp [hnil])
      · rw [hj' hnil]
        exact Nat.zero_le _
    refine { h.content with content := ?_, pushed := ?_, made := ?_, new := ?_, replayed := ?_
                            logged := ?_ }
    · intro hne
      obtain ⟨e, rest, hrest, hlive', he⟩ := h.content.content hne
      obtain ⟨e', heat, he'⟩ := eat_append e rest x
      refine ⟨e', rest ++ [x], ?_, ?_, fun honly => he' (he honly)⟩
      · simpa [hp] using hrest
      · rw [← heat, ← hlive']
        exact hlive
    · simpa [hp] using h.content.pushed
    · intro hend _
      exact h.content.made hend (by simp [hp])
    · simp
    · intro hne
      rw [replay_append, h.content.replayed hne]
      exact congrArg some hlive.symm
    · simpa [hp, Event.puts] using h.content.logged

/-- A producer that has put a chunk in the chain. -/
theorem RingOk.link (hp : R.producer = .linking (.push x pc) a)
    (hchunks : chunks' = update chunks pc { chunks pc with next := some a })
    (hown : own' = update own a (.chain r)) :
  RingOk chunks' own' r { R with producer := .linked x a } (as ++ [a]) ds
  := by
  have hlast := h.producer.target pc (by simp [hp])
  have howner := h.producer.held a (by simp [hp])
  have hphase := h.producer.phase
  rw [hp] at hphase
  obtain ⟨hfull, htail, hnone⟩ := hphase
  obtain ⟨before, rfl⟩ := List.getLast?_eq_some_iff.mp hlast
  have hfresh (b : Nat) := ne_of_owner (b := b) howner
  have hmem : ∀ b ∈ before ++ [pc], b ≠ a := by
    intro b hb
    exact hfresh b (by simp [h.chain.owned b hb])
  have hbefore : ∀ b ∈ before, chunks' b = chunks b := by
    intro b hb
    have hne : b ≠ pc := by
      rintro rfl
      exact (List.nodup_append.mp h.chain.nodup).2.2 b hb b (by simp) rfl
    simp [hchunks, hne]
  have ha : chunks' a = chunks a := by
    simp [hchunks, (hmem pc (by simp)).symm]
  have hsame : ∀ b, (chunks' b).tail = (chunks b).tail ∧ (chunks' b).cap = (chunks b).cap
      ∧ (chunks' b).slots = (chunks b).slots := by
    intro b
    by_cases hb : b = pc
    · subst hb
      simp [hchunks]
    · simp [hchunks, hb]
  refine ⟨?_, ?_, ?_, ?_⟩
  · constructor
    · intro b hb
      rcases List.mem_append.mp hb with hb | hb
      · rw [hown, update_of_ne (hmem b hb), h.chain.owned b hb]
      · simp [hown, List.mem_singleton.mp hb]
    · rw [List.nodup_append]
      refine ⟨h.chain.nodup, by simp, ?_⟩
      intro b hb c hc
      rw [List.mem_singleton.mp hc]
      exact hmem b hb
    · exact h.chain.threaded.append (fun b hb => by rw [hbefore b hb]) (by simp [hchunks])
        (by rw [ha, hnone])
    · intro b hb
      rw [List.dropLast_concat] at hb
      rw [(hsame b).1, (hsame b).2.1]
      rcases List.mem_append.mp hb with hb | hb
      · exact h.chain.full b (by simpa using hb)
      · rw [List.mem_singleton.mp hb, hfull]
    · intro b hb
      rw [(hsame b).1, (hsame b).2.1]
      rcases List.mem_append.mp hb with hb | hb
      · exact h.chain.bound b hb
      · rw [List.mem_singleton.mp hb, htail]
        exact Nat.zero_le _
  · refine ⟨by simp, by simp, fun hne => absurd rfl (hne x a),
      by simp, ?_⟩
    exact ⟨by simp, by rw [ha, htail]⟩
  · refine h.consumer.grows rfl rfl rfl rfl rfl rfl le_rfl ?_ ?_ ?_ ?_ ?_
    · cases before <;> rfl
    · intro b hb
      obtain ⟨htail', hcap', -⟩ := hsame b
      refine ⟨hcap', htail'.ge, fun _ => htail', ?_⟩
      intro n hn
      rcases List.mem_append.mp hb with hb | hb
      · rw [hbefore b hb, hn]
      · rw [List.mem_singleton.mp hb, h.chain.threaded.next_last] at hn
        contradiction
    · intro b hb
      have hspare := h.consumer.spare b hb
      rw [hown, update_of_ne (hfresh b (by simp [hspare])), hspare]
    · intro b hb
      rw [hown, update_of_ne (hfresh b (by simp [hb])), hb]
    · intro b hb
      have hne : b ≠ pc := by
        rintro rfl
        have hchain := h.chain.owned b (by simp)
        rw [h.consumer.dying b hb] at hchain
        contradiction
      simp [hchunks, hne]
  · apply h.content.produce _ _ (by simp [Steady, hp]) _ (by simp)
    rw [live_append _ (by simp), filled_eq_nil (by rw [ha, htail]), List.append_nil,
      live_congr_slots fun b _ => ⟨(hsame b).1, fun j _ => by rw [(hsame b).2.2]⟩]

/-- A ring that has been made. -/
theorem RingOk.create (hp : R.producer = .linking .ring a) (hown : own' = update own a (.chain r)) :
  RingOk chunks own' r { R with cChunk := some a, pChunk := some a, producer := .idle } [a] ds
  := by
  obtain rfl := h.producer.making (by simp [hp])
  have howner := h.producer.held a (by simp [hp])
  have hphase := h.producer.phase
  rw [hp] at hphase
  obtain ⟨htail, hnone⟩ := hphase
  obtain ⟨hidle, hcHead, hcachedTail, hputs, hlog⟩ := h.content.new (by simp [hp])
  have hpopped : R.popped = 0 := by
    have hpopped := h.content.popped
    rw [hputs] at hpopped
    simpa using hpopped
  have hfresh (b : Nat) := ne_of_owner (b := b) howner
  refine ⟨?_, ?_, ?_, ?_⟩
  · exact ⟨by simp [hown], by simp, ⟨hnone, trivial⟩, by simp, by simp [htail]⟩
  · exact ⟨by simp, by simp, fun _ => rfl,
      by simp, trivial⟩
  · constructor
    · simp [hidle]
    · simp only [hidle, Consumer.place, Place]
      refine ⟨rfl, ?_⟩
      intro cc _
      simp [hcHead, hcachedTail]
    · intro b hb
      have hspare := h.consumer.spare b hb
      rw [hown, update_of_ne (hfresh b (by simp [hspare])), hspare]
    · intro b hb
      have hdying := h.consumer.dying b hb
      rw [hown, update_of_ne (hfresh b (by simp [hdying])), hdying]
    · exact h.consumer.nodup
    · exact h.consumer.threaded
    · exact h.consumer.called
    · exact h.consumer.closes
  · refine { h.content with content := ?_, pushed := ?_, made := ?_, new := ?_, replayed := ?_
                            logged := ?_ }
    · intro _
      refine ⟨0, [], by simp [hputs], ?_, fun _ => rfl⟩
      simp [live, filled_eq_nil, htail, eat]
    · simpa [hp] using h.content.pushed
    · simp
    · simp
    · simp [hlog, replay, live, filled_eq_nil, htail]
    · simp [hputs, hlog]

end

end

namespace State

variable {s s' : State} {own : Nat → Owner} {chain dying : Nat → List Nat} {r : Nat}

theorem setRing_setRing (f g : Ring → Ring) :
  (s.setRing r f).setRing r g = s.setRing r fun R => g (f R)
  := by
  simp [setRing]

variable {purpose : Purpose} {a : Nat}

/-- A chunk that belongs to no ring comes to a producer in `newChunk`. -/
theorem Owned.gain (h : s.Owned own chain dying) {capacity : Nat} {c : Chunk} {p : Producer}
    (hp : (s.rings r).producer = .allocating purpose capacity)
    (hnext : p = .resetting purpose a .tail ∨ p = .linking purpose a ∧ c.tail = 0 ∧ c.next = none)
    (hring : (own a).ring = none) (made : Nat) (pool : List Nat)
    (hpool : ∀ b ∈ pool, b ∈ s.pool ∧ b ≠ a) (hnodup : pool.Nodup) (hmade : s.made ≤ made)
    (ha : a < made) (hcap : 0 < c.cap) :
  Sound ({ s with chunks := update s.chunks a c, made := made, pool := pool }.setProducer r
    p)
  := by
  have hne : ∀ {b q : Nat}, (own b).ring = some q → b ≠ a := by
    rintro b q hb rfl
    rw [hring] at hb
    contradiction
  have hr := h.ring r
  have hheld : p.held = some a := by
    rcases hnext with rfl | ⟨rfl, -⟩ <;> rfl
  have hsame : p.target = (s.rings r).producer.target ∧ (s.rings r).producer.Steady p := by
    rw [hp]
    rcases hnext with rfl | ⟨rfl, -⟩ <;> cases purpose <;> exact ⟨rfl, rfl, rfl, nofun, nofun⟩
  obtain ⟨htarget, hsteady⟩ := hsame
  have hphase : p.Phase (update s.chunks a c) (chain r) := by
    have hfull := hr.producer.phase
    rw [hp] at hfull
    cases purpose with
    | ring =>
        rcases hnext with rfl | ⟨rfl, hblank⟩
        · simp [Producer.Phase]
        · simpa [Producer.Phase] using hblank
    | push x pc =>
        have hmem := List.mem_of_getLast? (hr.producer.target pc (by simp [hp]))
        have hpc : pc ≠ a := hne (q := r) (by simp [hr.chain.owned pc hmem])
        rcases hnext with rfl | ⟨rfl, hblank⟩
        · simpa [Producer.Phase, hpc] using hfull
        · simpa [Producer.Phase, hpc, hblank] using hfull
  refine h.change (update own a (.producer r)) (chain r) (dying r) rfl ?_ ?_ hnodup ?_ ?_
    ?_ ?_
  · intro b q hb _
    simp [State.setProducer, State.setRing, hne hb]
  · intro b hb
    obtain ⟨hb, hba⟩ := hpool b hb
    rw [update_of_ne hba, h.pool b hb]
  · intro b (hb : made ≤ b)
    rw [update_of_ne (by omega), h.unmade b (by omega)]
  · intro b hb
    by_cases hba : b = a
    · subst hba
      simpa [State.setProducer, State.setRing] using hcap
    · simp only [update_of_ne hba] at hb
      simpa [State.setProducer, State.setRing, hba] using h.cap b hb
  · intro b q hb
    by_cases hba : b = a
    · simp [hba] at hb
    · rw [update_of_ne hba] at hb
      exact h.tied b q hb
  · refine hr.produce ?_ ?_ hsteady ?_
    · intro b hb
      have hba : b ≠ a := by
        rcases hb with hb | hb <;> exact hne (q := r) (by simp [hb])
      simp [State.setProducer, State.setRing, hba]
    · intro b hb
      have hspare := hr.consumer.spare b hb
      rw [update_of_ne (hne (q := r) (by simp [hspare])), hspare]
    · refine ⟨?_, ?_, fun _ => hr.producer.last (by simp [hp]), ?_, hphase⟩
      · intro b hb
        obtain rfl : a = b := Option.some.inj (hheld.symm.trans hb)
        simp
      · intro pc hpc
        exact hr.producer.target pc (htarget ▸ hpc)
      · intro hmade
        exact hr.producer.making (hsteady.1 ▸ hmade)

theorem doubled_pos (capacity fuel : Nat) {cap : Nat} (h : 0 < cap) :
  0 < doubled capacity fuel cap
  := by
  induction fuel generalizing cap with
  | zero => exact h
  | succ fuel ih =>
      unfold doubled
      split
      · exact ih (by omega)
      · exact h

/-- `newChunk` gives a producer a chunk for itself. -/
theorem Owned.newChunk (h : s.Owned own chain dying) {capacity : Nat} {pick : Option Nat}
    (hp : (s.rings r).producer = .allocating purpose capacity)
    (hstep : s.newChunk r purpose capacity pick = some s') :
  s'.Sound
  := by
  have hmake : ∀ cap p, 0 < cap →
      (p = .resetting purpose s.made .tail ∨ p = .linking purpose s.made) →
      ((s.make cap).setProducer r p).Sound := by
    intro cap p hcap hnext
    have howner := h.unmade s.made le_rfl
    refine h.gain hp (hnext.imp_right fun hlinking => ⟨hlinking, rfl, rfl⟩) ?_ (s.made + 1) s.pool
      ?_ h.nodup (Nat.le_succ _) (Nat.lt_succ_self _) hcap
    · simp [howner]
    · intro b hb
      refine ⟨hb, ?_⟩
      rintro rfl
      rw [h.pool _ hb] at howner
      contradiction
  unfold State.newChunk at hstep
  split at hstep
  · split at hstep
    · obtain ⟨a, ha, rfl⟩ := Option.map_eq_some_iff.mp hstep
      rename_i i
      have howner := h.pool a (List.mem_of_getElem? ha)
      have hself : update s.chunks a (s.chunks a) = s.chunks := update_eq_self a _
      have hgain := h.gain (r := r) (a := a) (c := s.chunks a) hp (.inl rfl)
        (by simp [howner]) s.made (s.pool.eraseIdx i)
      rw [hself] at hgain
      refine hgain ?_ (h.nodup.eraseIdx i) le_rfl ?_ (h.cap a (by simp [howner]))
      · intro b hb
        refine ⟨List.mem_of_mem_eraseIdx hb, ?_⟩
        rintro rfl
        obtain ⟨j, hj, heq⟩ := List.mem_eraseIdx_iff_getElem?.mp hb
        have hlt := (List.getElem?_eq_some_iff.mp ha).1
        exact hj.symm ((List.getElem?_inj hlt h.nodup).mp (ha.trans heq.symm))
      · by_contra hle
        rw [h.unmade a (by omega)] at howner
        contradiction
    · cases hstep
      exact hmake _ _ (by decide) (.inl rfl)
  · cases hstep
    exact hmake _ _ (doubled_pos _ _ Nat.one_pos) (.inr rfl)

theorem cap_apply (w : Wipe) (c : Chunk) :
  (w.apply c).cap = c.cap
  := by
  cases w <;> rfl

section

variable (h : s.Owned own chain dying)

include h

/-- A producer clears a part of the chunk it has for itself. -/
theorem Owned.wipe {w : Wipe} {p : Producer} (hheld : (s.rings r).producer.held = some a)
    (hheld' : p.held = some a) (htarget : p.target = (s.rings r).producer.target)
    (hsteady : (s.rings r).producer.Steady p) (hphase : (∀ pc ∈ chain r, pc ≠ a) →
      p.Phase (update s.chunks a (w.apply (s.chunks a))) (chain r)) :
  Sound ((s.setChunk a w.apply).setProducer r p)
  := by
  have hr := h.ring r
  have howner := hr.producer.held a hheld
  have hne {b : Nat} := ne_of_owner (b := b) howner
  have hlinked : ∀ x b, (s.rings r).producer ≠ .linked x b := by
    intro x b hp
    simp [hp] at hheld
  refine h.setChunk (by simp [howner]) (cap_apply w _) (hr.produce ?_ hr.consumer.spare
    hsteady ⟨?_, ?_, fun _ => hr.producer.last hlinked, ?_, ?_⟩)
  · intro b hb
    have hba : b ≠ a := by
      rcases hb with hb | hb <;> exact hne (by simp [hb])
    simp [hba]
  · intro b hb
    obtain rfl : a = b := Option.some.inj (hheld'.symm.trans hb)
    exact howner
  · intro pc hpc
    exact hr.producer.target pc (htarget ▸ hpc)
  · intro hmade
    exact hr.producer.making (hsteady.1 ▸ hmade)
  · apply hphase
    intro pc hpc
    exact hne (by simp [hr.chain.owned pc hpc])

/-- A producer empties the free list. -/
theorem Owned.grow {x : Slot} {pc lag : Nat} (hp : (s.rings r).producer = .lagging x pc lag) :
  (s.grow r x pc lag).Sound
  := by
  have hr := h.ring r
  have hlast := hr.producer.target pc (by simp [hp])
  have hfull := hr.producer.phase
  rw [hp] at hfull
  have hallocate : ∀ n, ((s.setRing r fun R => { R with freeChunk := none }).setProducer r
      (.allocating (.push x pc) n)).Sound := by
    intro n
    rw [State.setProducer, setRing_setRing]
    refine h.setRing (hr.produce (fun _ _ => ⟨rfl, rfl⟩) (by simp)
      (by simp [Steady, hp])
      ⟨by simp, ?_, fun _ => hr.producer.last (by simp [hp]), ?_, hfull⟩)
    · intro pc' hpc'
      obtain rfl : pc = pc' := by simpa using hpc'
      exact hlast
    · simp
  have hwipe : ∀ a reuse, (s.rings r).freeChunk = some a →
      ((s.setRing r fun R => { R with freeChunk := none }).setProducer r
        (.wiping x pc a reuse .slots)).Sound := by
    intro a reuse ha
    have hspare := hr.consumer.spare a ha
    rw [State.setProducer, setRing_setRing]
    refine h.setOwner (a := a) (o := .producer r) (by simp [hspare]) rfl (by simp)
      (hr.produce ?_ (by simp) (by simp [Steady, hp])
        ⟨?_, ?_, fun _ => hr.producer.last (by simp [hp]), ?_, ⟨hfull, by simp⟩⟩)
    · intro b hb
      have hba : b ≠ a := by
        rintro rfl
        rcases hb with hb | hb <;> simp [hspare] at hb
      simp [hba]
    · intro b hb
      obtain rfl : a = b := by simpa using hb
      simp
    · intro pc' hpc'
      obtain rfl : pc = pc' := by simpa using hpc'
      exact hlast
    · simp
  unfold State.grow
  dsimp only
  split
  · split
    · rename_i a ha
      split
      · exact hwipe a false ha
      · exact hallocate _
    · exact hallocate _
  · split
    · rename_i a ha
      exact hwipe a true ha
    · exact hallocate _

/-- A producer returns a chunk to the pool. -/
theorem Owned.returnChunk {x : Slot} {pc : Nat} (hp : (s.rings r).producer = .returning x pc a)
    (n : Nat) :
  ((s.put a).setProducer r (.allocating (.push x pc) n)).Sound
  := by
  have hr := h.ring r
  have hlast := hr.producer.target pc (by simp [hp])
  have hfull := hr.producer.phase
  rw [hp] at hfull
  have howner := hr.producer.held a (by simp [hp])
  have hne {b : Nat} := ne_of_owner (b := b) howner
  refine h.putChunk (by simp [howner]) (hr.produce ?_ ?_
    (by simp [Steady, hp]) ⟨by simp, ?_, fun _ => hr.producer.last (by simp [hp]), ?_, hfull⟩)
  · intro b hb
    have hba : b ≠ a := by
      rcases hb with hb | hb <;> exact hne (by simp [hb])
    exact ⟨rfl, update_of_ne hba _ _⟩
  · intro b hb
    have hspare := hr.consumer.spare b hb
    rw [update_of_ne (hne (by simp [hspare])), hspare]
  · intro pc' hpc'
    obtain rfl : pc = pc' := by simpa using hpc'
    exact hlast
  · simp

/-- A producer puts a chunk in the chain. -/
theorem Owned.link (hp : (s.rings r).producer = .linking purpose a)
    (hstep : s.produce r none = some s') :
  s'.Sound
  := by
  have hr := h.ring r
  have howner := hr.producer.held a (by simp [hp])
  have hne {b : Nat} := ne_of_owner (b := b) howner
  have hframe : ∀ b q, (own b).ring = some q → q ≠ r →
      update own a (.chain r) b = own b := by
    intro b q hb hq
    apply update_of_ne
    rintro rfl
    rw [howner] at hb
    exact hq (Option.some.inj hb).symm
  have hpool : ∀ b ∈ s.pool, update own a (.chain r) b = .pool := by
    intro b hb
    have hb := h.pool b hb
    rw [update_of_ne (hne (by simp [hb])), hb]
  have hunmade : ∀ b, s.made ≤ b → update own a (.chain r) b = .nobody := by
    intro b hb
    have hb := h.unmade b hb
    rw [update_of_ne (hne (by simp [hb])), hb]
  have hcap : ∀ b, update own a (.chain r) b ≠ .nobody → 0 < (s.chunks b).cap := by
    intro b hb
    apply h.cap b
    intro hnobody
    rw [update_of_ne (hne (by simp [hnobody]))] at hb
    exact hb hnobody
  have htied : ∀ b q, update own a (.chain r) b = .chain q →
      update s.loose a false b = false := by
    intro b q hb
    by_cases hba : b = a
    · simp [hba]
    · rw [update_of_ne hba] at hb ⊢
      exact h.tied b q hb
  cases purpose with
  | ring =>
      simp only [State.produce, hp, Option.some.injEq] at hstep
      subst hstep
      exact h.change _ [a] (dying r) rfl (fun b q hb hq => ⟨rfl, hframe b q hb hq⟩) hpool h.nodup
        hunmade hcap htied (hr.create hp rfl)
  | push x pc =>
      simp only [State.produce, hp, Option.some.injEq] at hstep
      subst hstep
      have hlast := hr.producer.target pc (by simp [hp])
      have hchain := hr.chain.owned pc (List.mem_of_getLast? hlast)
      refine h.change _ (chain r ++ [a]) (dying r) rfl ?_ hpool h.nodup hunmade ?_ htied
        (hr.link hp rfl rfl)
      · intro b q hb hq
        refine ⟨update_of_ne ?_ _ _, hframe b q hb hq⟩
        rintro rfl
        rw [hchain] at hb
        exact hq (Option.some.inj hb).symm
      · intro b hb
        have hb := hcap b hb
        by_cases hbpc : b = pc
        · subst hbpc
          simpa [State.setProducer, State.setRing, State.setChunk, State.tie] using hb
        · simpa [State.setProducer, State.setRing, State.setChunk, State.tie, hbpc] using hb

/-- Every step of a producer leaves each chunk with one owner. -/
theorem Owned.produce {pick : Option Nat} (hstep : s.produce r pick = some s') :
  s'.Sound
  := by
  have hr := h.ring r
  have htarget : ∀ {pc : Nat}, (s.rings r).producer.target = some pc →
      ∀ pc', some pc = some pc' → (chain r).getLast? = some pc' :=
    fun hpc pc' heq => hr.producer.target pc' (hpc.trans heq)
  have hphase := hr.producer.phase
  unfold State.produce at hstep
  cases hp : (s.rings r).producer with
  | unborn =>
      obtain rfl : _ = s' := by simpa [hp] using hstep
      exact h.setRing (hr.goTo (by simp) (by simp) (by simp [hp])
        (by simp [Steady, hp]) trivial)
  | allocating p capacity =>
      simp only [hp] at hstep
      exact h.newChunk hp hstep
  | resetting p a w =>
      obtain rfl : _ = s' := by simpa [hp] using hstep
      rw [hp] at hphase
      apply h.wipe (a := a) (by rw [hp]; rfl)
      · cases w <;> rfl
      · cases w <;> cases p <;> rw [hp] <;> rfl
      · cases w <;> cases p <;> simp [Steady, hp, Wipe.after]
      · intro hchain
        cases p with
        | ring =>
            cases w with
            | next => exact ⟨by simpa [Wipe.apply] using hphase rfl, by simp [Wipe.apply]⟩
            | _ => simp [Wipe.after, Wipe.apply, Producer.Phase]
        | push x pc =>
            have hpc : pc ≠ a := hchain pc (List.mem_of_getLast?
              (hr.producer.target pc (by simp [hp])))
            cases w with
            | next =>
                refine ⟨by simpa [hpc] using hphase.1, ?_, by simp [Wipe.apply]⟩
                simpa [Wipe.apply] using hphase.2 rfl
            | _ => simpa [Wipe.after, Wipe.apply, Producer.Phase, hpc] using hphase.1
  | linking p a =>
      apply h.link hp
      rw [← hstep]
      cases p <;> simp [State.produce, hp]
  | idle => simp [hp] at hstep
  | checked x =>
      simp only [hp] at hstep
      split at hstep
      · cases hstep
        exact h.setRing (hr.goTo (by simp) (by simp) (by simp [hp])
          (by simp [Steady, hp]) trivial)
      · rename_i pc hpc
        cases hstep
        exact h.setRing (hr.begin hp hpc)
  | pushing x pc =>
      have hpc : (s.rings r).producer.target = some pc := by rw [hp]; rfl
      have hbound := hr.chain.bound pc (List.mem_of_getLast? (htarget hpc pc rfl))
      simp only [hp] at hstep
      split at hstep
      · cases hstep
        refine h.setRing (hr.goTo (by simp) (htarget hpc) (by simp [hp])
          (by simp [Steady, hp]) ?_)
        simp only [Producer.Phase]
        omega
      · cases hstep
        refine h.setRing (hr.goTo (by simp) (htarget hpc) (by simp [hp])
          (by simp [Steady, hp]) ?_)
        simp only [Producer.Phase]
        omega
  | full x pc | measuring x pc n =>
      have hpc : (s.rings r).producer.target = some pc := by rw [hp]; rfl
      obtain rfl : _ = s' := by simpa [hp] using hstep
      rw [hp] at hphase
      exact h.setRing (hr.goTo (by simp) (htarget hpc) (by simp [hp])
        (by simp [Steady, hp]) hphase)
  | lagging x pc lag =>
      obtain rfl : _ = s' := by simpa [hp] using hstep
      exact h.grow hp
  | wiping x pc a reuse w =>
      obtain rfl : _ = s' := by simpa [hp] using hstep
      rw [hp] at hphase
      apply h.wipe (a := a) (by rw [hp]; rfl)
      · cases w <;> cases reuse <;> rfl
      · cases w <;> cases reuse <;> rw [hp] <;> rfl
      · cases w <;> cases reuse <;> simp [Steady, hp, Wipe.after]
      · intro hchain
        have hpc : pc ≠ a := hchain pc (List.mem_of_getLast?
          (hr.producer.target pc (by simp [hp])))
        cases w with
        | next =>
            cases reuse with
            | true =>
                refine ⟨by simpa [hpc] using hphase.1, ?_, by simp [Wipe.apply]⟩
                simpa [Wipe.apply] using hphase.2 rfl
            | false => simpa [Wipe.after, Wipe.apply, Producer.Phase, hpc] using hphase.1
        | _ => simpa [Wipe.after, Wipe.apply, Producer.Phase, hpc] using hphase.1
  | returning x pc a =>
      obtain rfl : _ = s' := by simpa [hp] using hstep
      exact h.returnChunk hp _
  | linked x a =>
      obtain rfl : _ = s' := by simpa [hp] using hstep
      exact h.setRing (hr.setPChunk hp h.cap)
  | storing x pc =>
      have hlast := hr.producer.target pc (by simp [hp])
      have hchain := hr.chain.owned pc (List.mem_of_getLast? hlast)
      obtain rfl : _ = s' := by simpa [hp] using hstep
      exact h.setChunk (by simp [hchain]) rfl (hr.storeSlot hp rfl)
  | stored x pc idx =>
      have hlast := hr.producer.target pc (by simp [hp])
      have hchain := hr.chain.owned pc (List.mem_of_getLast? hlast)
      obtain rfl : _ = s' := by simpa [hp] using hstep
      exact h.setChunk (by simp [hchain]) rfl (hr.storeTail hp rfl)
  | counting =>
      obtain rfl : _ = s' := by simpa [hp] using hstep
      exact h.setRing (hr.count hp)

end

end State

end Muxocket.RingBuffer
