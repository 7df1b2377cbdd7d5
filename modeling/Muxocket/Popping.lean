import Muxocket.Pushing

/-!
# The steps of a consumer

Every step of a consumer leaves each chunk with one owner, if `Close` does not clear `pChunk` in
the middle of a push.
-/

namespace Muxocket.RingBuffer

open Function

open Segment

section

variable {chunks chunks' : Nat → Chunk} {own own' : Nat → Owner} {r : Nat} {R R' : Ring}
  {as ds : List Nat}

/-- A ring that is being made has no consumer yet. -/
theorem RingOk.made (h : RingOk chunks own r R as ds) (hc : R.consumer ≠ .idle) :
  R.producer.making = false
  := by
  by_contra hmaking
  exact hc (h.content.new (by simpa using hmaking)).1

/-- A step by which a consumer goes on, and calls nothing. -/
theorem RingOk.rests (h : RingOk chunks own r R as ds)
    (hc : R.consumer ≠ .idle ∧ R.consumer ≠ .counting) {cChunk free : Option Nat}
    {cHead cachedTail : Nat} {c : Consumer} :
  R.Rests { R with
    cChunk := cChunk, cHead := cHead, cachedTail := cachedTail, freeChunk := free
    consumer := c } (live chunks R.start as)
  := ⟨h.made hc.1, rfl, rfl, rfl, .inl rfl, fun _ => h.content.counted hc.2, fun honly => honly,
    fun hend => hend, h.content.empties⟩

/-- A consumer that only goes on. -/
theorem RingOk.wander (h : RingOk chunks own r R as ds)
    (hrests : R.Rests R' (live chunks R.start as)) (hfree : R'.freeChunk = R.freeChunk)
    (hstart : as ≠ [] → R'.start = R.start) (hheld : R'.consumer.held = none)
    (hplace : Place chunks R' as ds R'.consumer.place)
    (hcalled : ∀ c, R'.consumer.place.call = some c → c ∈ R'.calls)
    (hcloses : R'.consumer.place.closes = true → R'.ended = true) :
  RingOk chunks own r R' as ds
  := by
  refine h.consume ds (fun _ _ => ⟨rfl, rfl⟩) hrests hstart ⟨?_, hplace, ?_, h.consumer.dying,
    h.consumer.nodup, h.consumer.threaded, hcalled, hcloses⟩
  · simp [-Consumer.held, hheld]
  · rw [hfree]
    exact h.consumer.spare

/-- A ring in which a call finds nothing: every push that was complete when it began has been
popped. -/
theorem RingOk.due_le (h : RingOk chunks own r R as ds) {due : Nat} (hne : as ≠ [])
    (hempty : live chunks R.start as = []) (hdue : due ≤ R.pushed) :
  due ≤ R.popped
  := by
  obtain ⟨e, rest, hrest, hlive, -⟩ := h.content.content hne
  have hnil : rest = [] := by
    cases rest with
    | nil => rfl
    | cons x rest => simp [hempty, eat] at hlive
  have hlength := congrArg List.length hrest
  rw [hnil, List.nil_append, List.length_drop] at hlength
  have hpushed := h.content.pushed
  omega

/-- A chunk that is not full, or has no next one, is the last of its chain. -/
theorem ChainOk.eq_singleton (h : ChainOk chunks own r as) {cc : Nat} (hcc : as.head? = some cc)
    (hlast : (chunks cc).tail < (chunks cc).cap ∨ (chunks cc).next = none) :
  as = [cc]
  := by
  cases as with
  | nil => simp at hcc
  | cons a as =>
      obtain rfl : a = cc := by simpa using hcc
      cases as with
      | nil => rfl
      | cons b as =>
          rcases hlast with hlt | hnone
          · have hfull := h.full a (by simp)
            omega
          · have hnext := h.threaded.1
            simp [hnone] at hnext

section

variable (h : RingOk chunks own r R as ds)

include h

/-- A consumer that loads the tail of its chunk, or does not need to. -/
theorem RingOk.look {c : Call} {due cc : Nat} (hc : R.consumer = .looking c due cc) {t : Nat}
    (ht : R.cHead ≤ t ∧ t ≤ (chunks cc).tail)
    {c' : Consumer} (hc' : c' = .taking c cc ∧ R.cHead < t
      ∨ c' = .atEnd c due cc ∧ (chunks cc).tail ≤ R.cHead ∧ (chunks cc).cap ≤ R.cHead) :
  RingOk chunks own r { R with cachedTail := t, consumer := c' } as ds
  := by
  have hplace := h.consumer.place
  rw [hc] at hplace
  obtain ⟨hcChunk, -, hcc, hdue⟩ := hplace
  have hbound := h.chain.bound cc (List.mem_of_head? hcc)
  have hwindow : Window chunks { R with cachedTail := t, consumer := c' } as := by
    intro cc' hcc'
    obtain rfl : cc = cc' := by simpa [hcc] using hcc'
    exact ht
  have hstart : Ring.start { R with cachedTail := t, consumer := c' } = R.start := by
    rcases hc' with ⟨rfl, -⟩ | ⟨rfl, -⟩ <;> simp [Ring.start, hc]
  refine h.wander (h.rests (by simp [hc])) rfl (fun _ => hstart) ?_ ?_ ?_ ?_
  · rcases hc' with ⟨rfl, -⟩ | ⟨rfl, -⟩ <;> rfl
  · rcases hc' with ⟨rfl, hlt⟩ | ⟨rfl, htail, hcap⟩
    · exact ⟨hcChunk, hwindow, hcc, hlt⟩
    · refine ⟨hcChunk, hwindow, hcc, hdue, ?_, ?_⟩
      · omega
      · dsimp only
        omega
  · have hcalled := h.consumer.called
    rw [hc] at hcalled
    rcases hc' with ⟨rfl, -⟩ | ⟨rfl, -⟩ <;> exact hcalled
  · rcases hc' with ⟨rfl, -⟩ | ⟨rfl, -⟩ <;> simp

/-- A consumer that finds the ring empty. -/
theorem RingOk.report {c : Call} {due cc : Nat} (hcChunk : R.cChunk = as.head?)
    (hcc : as.head? = some cc) (hnew : R.producer.making = false) (hstart : R.start = R.cHead)
    (hcounting : R.consumer ≠ .counting) (hempty : (chunks cc).tail ≤ R.cHead)
    (hlast : (chunks cc).tail < (chunks cc).cap ∨ (chunks cc).next = none) (hdue : due ≤ R.pushed)
    {t : Nat} (ht : R.cHead ≤ t ∧ t ≤ (chunks cc).tail) :
  RingOk chunks own r
    { R with cachedTail := t, consumer := .idle, empties := R.empties ++ [(due, R.popped)]
             log := R.log ++ [.missed c] } as ds
  := by
  have has := h.chain.eq_singleton hcc hlast
  have hlive : live chunks R.start as = [] := by
    rw [has, hstart]
    simp [live, filled_eq_nil hempty]
  have hdue' := h.due_le (by simp [has]) hlive hdue
  refine h.wander ⟨hnew, rfl, rfl, rfl, .inr ⟨c, rfl, hlive⟩, fun _ => h.content.counted hcounting,
    fun honly => honly, fun hend => hend, ?_⟩ rfl (fun _ => ?_) rfl ?_
    (by simp) (by simp)
  · intro hend e he
    rcases List.mem_append.mp he with he | he
    · exact h.content.empties hend e he
    · rw [List.mem_singleton.mp he]
      exact hdue'
  · rw [hstart]
    rfl
  · refine ⟨hcChunk, ?_⟩
    intro cc' hcc'
    obtain rfl : cc = cc' := by simpa [hcc] using hcc'
    exact ht

/-- A consumer that leaves a chunk, which is not in the chain any more. -/
theorem RingOk.leave {c : Call} {due cc n : Nat} (hc : R.consumer = .leaving c due cc n)
    {c' : Consumer} {free : Option Nat}
    (hown : ∀ a, own a = .producer r ∨ own a = .consumer r ∨ own a = .chain r ∧ a ≠ cc →
      own' a = own a) (hspare : ∀ a, free = some a → own' a = .spare r)
    (hheld : ∀ a, c'.held = some a → own' a = .consumer r ∧ a ∉ ds)
    (hplace : c'.place = .moving c due n) :
  RingOk chunks own' r { R with freeChunk := free, consumer := c' } as.tail ds
  := by
  have hnew := h.made (by simp [hc])
  have hold := h.consumer.place
  rw [hc] at hold
  obtain ⟨-, -, hcc, hdue, htail, hcHead, hnext⟩ := hold
  obtain ⟨rest, rfl⟩ : ∃ rest, as = cc :: n :: rest := by
    cases as with
    | nil => simp at hcc
    | cons a as =>
        obtain rfl : a = cc := by simpa using hcc
        have hthread := h.chain.threaded.1
        rw [hnext] at hthread
        cases as with
        | nil => simp at hthread
        | cons b rest =>
            obtain rfl : n = b := by simpa using hthread
            exact ⟨rest, rfl⟩
  have hne : ∀ a ∈ n :: rest, a ≠ cc := by
    rintro a ha rfl
    exact (List.nodup_cons.mp h.chain.nodup).1 ha
  have hsame : ∀ a ∈ n :: rest, own' a = own a := by
    intro a ha
    exact hown a (.inr (.inr ⟨h.chain.owned a (List.mem_cons_of_mem _ ha), hne a ha⟩))
  rw [List.tail_cons]
  refine ⟨?_, ?_, ?_, ?_⟩
  · constructor
    · intro a ha
      rw [hsame a ha]
      exact h.chain.owned a (List.mem_cons_of_mem _ ha)
    · exact (List.nodup_cons.mp h.chain.nodup).2
    · exact h.chain.threaded.2
    · intro a ha
      exact h.chain.full a (by simp [ha])
    · intro a ha
      exact h.chain.bound a (List.mem_cons_of_mem _ ha)
  · refine h.producer.congr rfl rfl ?_ ?_ ?_
    · simp
    · intro a ha
      exact ⟨rfl, hown a (.inl (h.producer.held a ha))⟩
    · intro a _
      exact ⟨rfl, rfl, rfl⟩
  · constructor
    · exact hheld
    · rw [hplace]
      exact ⟨rfl, hdue⟩
    · exact hspare
    · intro a ha
      rw [hown a (.inr (.inl (h.consumer.dying a ha)))]
      exact h.consumer.dying a ha
    · exact h.consumer.nodup
    · exact h.consumer.threaded
    · have hcalled := h.consumer.called
      rw [hc] at hcalled
      rw [hplace]
      exact hcalled
    · simp [-Consumer.place, hplace]
  · have hlive : live chunks R.start (cc :: n :: rest)
        = live chunks (Ring.start { R with freeChunk := free, consumer := c' }) (n :: rest) := by
      have hstart : Ring.start { R with freeChunk := free, consumer := c' } = 0 := by
        simp [-Consumer.place, Ring.start, hplace]
      have hstart' : R.start = R.cHead := by
        simp [Ring.start, hc]
      rw [hstart, hstart', live, filled_eq_nil (by omega), List.nil_append]
    refine { h.content with content := ?_, made := ?_, new := ?_, replayed := ?_, counted := ?_ }
    · intro _
      obtain ⟨e, rest', hrest, hlive', he⟩ := h.content.content (by simp)
      exact ⟨e, rest', hrest, hlive.symm.trans hlive', he⟩
    · simp
    · simp [-Producer.making, hnew]
    · intro _
      rw [← hlive]
      exact h.content.replayed (by simp)
    · exact fun _ => h.content.counted (by simp [hc])

end

/-- What a call shows of a slot is part of its buffer. -/
theorem Call.shows_infix {c : Call} {x y : Slot} (hy : y ∈ c.shows x) :
  y.head = x.head ∧ y.buf <:+: x.buf
  := by
  cases c with
  | pop =>
      obtain rfl := List.mem_singleton.mp hy
      exact ⟨rfl, List.infix_rfl⟩
  | partialRead n =>
      obtain rfl := List.mem_singleton.mp hy
      exact ⟨rfl, (List.take_prefix _ _).isInfix⟩
  | peek =>
      by_cases hnil : x.buf = []
      · simp [Call.shows, hnil] at hy
      · obtain rfl : y = x := by simpa [Call.shows, hnil] using hy
        exact ⟨rfl, List.infix_rfl⟩
  | advance n => simp [Call.shows] at hy

theorem eat_zero (xs : List Slot) :
  eat 0 xs = xs
  := by
  cases xs <;> rfl

/-- A consumer that looks at the oldest slot, and stores `y` there.  If the slot is removed,
`k` is one, and otherwise it is zero. -/
theorem RingOk.take (h : RingOk chunks own r R as ds) {c : Call} {cc : Nat} {x y : Slot}
    (hc : R.consumer = .taking c cc) (hx : x = (chunks cc).slots R.cHead)
    (hchunks : chunks' = update chunks cc
      { chunks cc with slots := update (chunks cc).slots R.cHead y })
    {k : Nat} {c' : Consumer}
    (hk : c.removes x = true ∧ k = 1 ∧ c' = .counting
      ∨ c.removes x = false ∧ k = 0 ∧ c' = .idle ∧ y = { x with buf := x.buf.drop c.eats }) :
  RingOk chunks' own r
    { R with shown := R.shown ++ c.shows x, gets := if c = .pop then R.gets ++ [x] else R.gets
             log := R.log ++ [.took c x]
             cHead := R.cHead + k, popped := R.popped + k, consumer := c' } as ds
  := by
  have hnew := h.made (by simp [hc])
  have hplace := h.consumer.place
  rw [hc] at hplace
  obtain ⟨hcChunk, hwindow, hcc, hlt⟩ := hplace
  have hle := (hwindow cc hcc).2
  have hkle : R.cHead + k ≤ R.cachedTail := by
    rcases hk with ⟨-, rfl, -⟩ | ⟨-, rfl, -⟩ <;> omega
  have hcalled : c ∈ R.calls := h.consumer.called c (by rw [hc]; rfl)
  have hc'held : c'.held = none ∧ c'.place = c' ∧ c'.call = none ∧ c'.closes = false := by
    rcases hk with ⟨-, -, rfl⟩ | ⟨-, -, rfl, -⟩ <;> exact ⟨rfl, rfl, rfl, rfl⟩
  obtain ⟨hheld', hplace', hcall', hcloses'⟩ := hc'held
  have hsame : ∀ a, (chunks' a).next = (chunks a).next ∧ (chunks' a).tail = (chunks a).tail
      ∧ (chunks' a).cap = (chunks a).cap := by
    intro a
    by_cases ha : a = cc
    · subst ha
      simp [hchunks]
    · simp [hchunks, ha]
  refine ⟨?_, ?_, ?_, ?_⟩
  · apply h.chain.congr
    intro a _
    exact ⟨(hsame a).1, (hsame a).2.1, (hsame a).2.2, rfl⟩
  · refine h.producer.congr rfl rfl rfl ?_ ?_
    · intro a ha
      have hne : a ≠ cc := by
        rintro rfl
        have howner := h.producer.held a ha
        rw [h.chain.owned a (List.mem_of_head? hcc)] at howner
        contradiction
      simp [hchunks, hne]
    · intro a _
      refine ⟨(hsame a).2.1, (hsame a).2.2, ?_⟩
      by_cases ha : a = cc
      · subst ha
        simp only [hchunks, update_self]
        exact update_of_ne (by omega) _ _
      · simp [hchunks, ha]
  · constructor
    · simp [-Consumer.held, hheld']
    · have hwindow' : ∀ cc', as.head? = some cc' →
          R.cHead + k ≤ R.cachedTail ∧ R.cachedTail ≤ (chunks' cc').tail := by
        intro cc' hcc'
        rw [(hsame cc').2.1]
        exact ⟨hkle, (hwindow cc' hcc').2⟩
      rcases hk with ⟨-, -, rfl⟩ | ⟨-, -, rfl, -⟩ <;> exact ⟨hcChunk, hwindow'⟩
    · exact h.consumer.spare
    · exact h.consumer.dying
    · exact h.consumer.nodup
    · exact h.consumer.threaded.congr fun a _ => (hsame a).1
    · rw [hplace', hcall']
      nofun
    · rw [hplace', hcloses']
      nofun
  · obtain ⟨tail, rfl⟩ : ∃ tail, as = cc :: tail := by
      cases as with
      | nil => simp at hcc
      | cons a as => exact ⟨as, by simpa using hcc⟩
    obtain ⟨e, rest, hrest, hlive, he⟩ := h.content.content (by simp)
    have hstart : R.start = R.cHead := by simp [Ring.start, hc]
    have hstart' : Ring.start { R with
        shown := R.shown ++ c.shows x, gets := if c = .pop then R.gets ++ [x] else R.gets
        log := R.log ++ [.took c x]
        cHead := R.cHead + k, popped := R.popped + k, consumer := c' } = R.cHead + k := by
      rcases hk with ⟨-, -, rfl⟩ | ⟨-, -, rfl, -⟩ <;> rfl
    have hreplay := h.content.replayed (by simp)
    rw [hstart, live, filled_eq_cons (by omega), ← hx] at hlive hreplay
    obtain ⟨z, rest, rfl⟩ : ∃ z rest', rest = z :: rest' := by
      cases rest with
      | nil => simp [eat] at hlive
      | cons z rest => exact ⟨z, rest, rfl⟩
    simp only [eat, List.cons_append, List.cons.injEq] at hlive
    obtain ⟨hxz, hlive⟩ := hlive
    have hzmem : z ∈ R.puts := List.mem_of_mem_drop (by rw [hrest]; simp)
    have hlength := congrArg List.length hrest
    simp only [List.length_drop, List.length_append, List.length_cons] at hlength
    have hlater : (chunks' cc).filled (R.cHead + 1) ++ live chunks' 0 tail = rest := by
      rw [← hlive]
      congr 1
      · apply filled_congr (hsame cc).2.1
        intro j hj _
        simp only [hchunks, update_self]
        exact update_of_ne (by omega) _ _
      · apply live_congr
        intro a ha
        have hne : a ≠ cc := by
          rintro rfl
          exact (List.nodup_cons.mp h.chain.nodup).1 ha
        simp [hchunks, hne]
    have hlive' : live chunks' (R.cHead + k) (cc :: tail) = c.leaves x rest := by
      rcases hk with ⟨hremoves, rfl, -⟩ | ⟨hremoves, rfl, -, hy⟩
      · rw [live, hlater, Call.leaves, if_pos hremoves]
      · rw [Nat.add_zero, live, filled_eq_cons (by rw [(hsame cc).2.1]; omega), List.cons_append,
          hlater, Call.leaves, if_neg (by simp [hremoves])]
        simp [hchunks, hy]
    refine { h.content with content := ?_, shown := ?_, gets := ?_, popped := ?_, made := ?_
                            new := ?_, replayed := ?_, logged := ?_, counted := ?_ }
    · intro _
      rw [hstart', hlive']
      rcases hk with ⟨hremoves, rfl, -⟩ | ⟨hremoves, rfl, -⟩
      · refine ⟨0, rest, ?_, ?_, fun _ => rfl⟩
        · rw [← List.drop_drop, hrest]
          simp
        · rw [Call.leaves, if_pos hremoves, eat_zero]
      · refine ⟨e + c.eats, z :: rest, hrest, ?_, ?_⟩
        · rw [Call.leaves, if_neg (by simp [hremoves]), hxz]
          simp [eat, List.drop_drop]
        · intro honly
          simp [honly c hcalled, Call.removes] at hremoves
    · intro y' hy'
      rcases List.mem_append.mp hy' with hy' | hy'
      · exact h.content.shown y' hy'
      · obtain ⟨hhead, hinfix⟩ := Call.shows_infix hy'
        refine ⟨z, hzmem, ?_, ?_⟩
        · rw [hhead, hxz]
        · rw [hxz] at hinfix
          exact hinfix.trans (List.drop_suffix _ _).isInfix
    · intro honly
      have hpop := honly c hcalled
      have hzero := he honly
      subst hpop
      rcases hk with ⟨-, rfl, -⟩ | ⟨hremoves, -⟩
      · have hxz' : x = z := by simpa [hzero] using hxz
        rw [if_pos rfl, h.content.gets honly, hxz', List.take_add_one]
        have hget := congrArg List.head? hrest
        rw [List.head?_drop] at hget
        simp [hget]
      · simp [Call.removes] at hremoves
    · rcases hk with ⟨-, rfl, -⟩ | ⟨-, rfl, -⟩ <;> dsimp only <;> omega
    · simp
    · simp [-Producer.making, hnew]
    · intro _
      rw [replay_append, hreplay, hstart', hlive']
      simp [Event.apply, hlive]
    · simpa [Event.puts] using h.content.logged
    · intro hcounting
      rcases hk with ⟨-, -, rfl⟩ | ⟨-, rfl, -⟩
      · contradiction
      · exact h.content.counted (by simp [hc])

/-- A ring whose `pChunk` is cleared by `Close`, with no push under way. -/
theorem RingOk.closeProducer (h : RingOk chunks own r R as ds) {cur : Option Nat}
    (hc : R.consumer = .closingProducer cur) (hcalm : R.producer.pending = [])
    (hown : ∀ a, own' a = if a ∈ as then .consumer r else own a) :
  RingOk chunks own' r { R with pChunk := none, consumer := .freeing cur } [] as
  := by
  have hnew := h.made (by simp [hc])
  have hplace := h.consumer.place
  rw [hc] at hplace
  obtain ⟨hcChunk, -, rfl⟩ := hplace
  have hended : R.ended = true := h.consumer.closes (by rw [hc]; rfl)
  have hidle : R.producer.held = none ∧ R.producer.target = none
      ∧ (∀ x a, R.producer ≠ .linked x a) ∧ R.producer.Phase chunks [] := by
    generalize R.producer = p at hcalm hnew
    cases p with
    | allocating p | resetting p | linking p =>
        cases p <;> simp at hcalm hnew
    | unborn => simp at hnew
    | idle | checked | counting => simp [Producer.Phase]
    | _ => simp at hcalm
  obtain ⟨hheld, htarget, hlinked, hphase⟩ := hidle
  refine ⟨⟨by simp, by simp, trivial, by simp, by simp⟩, ?_, ?_, ?_⟩
  · exact ⟨by rw [hheld]; simp, by rw [htarget]; simp, fun _ => rfl, fun _ => rfl, hphase⟩
  · constructor
    · simp
    · exact ⟨hcChunk, rfl, rfl⟩
    · intro a ha
      have hspare := h.consumer.spare a ha
      have hmem : a ∉ as := by
        intro hmem
        rw [h.chain.owned a hmem] at hspare
        contradiction
      rw [hown, if_neg hmem, hspare]
    · intro a ha
      rw [hown, if_pos ha]
    · exact h.chain.nodup
    · exact h.chain.threaded
    · simp
    · exact fun _ => hended
  · refine { h.content with content := ?_, made := ?_, new := ?_, replayed := ?_, counted := ?_ }
    · simp
    · simp [hended]
    · simp [-Producer.making, hnew]
    · simp
    · exact fun _ => h.content.counted (by simp [hc])

end

/-- A consumer that recycles the chunk `a`, or does not need to, and goes on with `k`. -/
structure Recycles (k : After) (a : Nat) (c : Consumer) : Prop where
  held : ∀ b, c.held = some b → b = a
  place : c.place = k.resume

namespace State

variable {s s' : State} {own : Nat → Owner} {chain dying : Nat → List Nat} {r : Nat}

theorem setRing_setChunk (a : Nat) (f g : Ring → Ring) (k : Chunk → Chunk) :
  ((s.setRing r f).setChunk a k).setRing r g = (s.setChunk a k).setRing r fun R => g (f R)
  := by
  simp [setRing, setChunk]

theorem recycleChunk_eq (s : State) (r : Nat) (k : After) (a : Nat) :
  ∃ c, Recycles k a c ∧ s.recycleChunk r k a = s.setConsumer r c
  := by
  unfold recycleChunk
  split
  · refine ⟨.wiping k a .slots, ⟨?_, rfl⟩, rfl⟩
    intro b hb
    simpa using hb.symm
  · refine ⟨k.resume, ⟨?_, ?_⟩, rfl⟩
    · cases k <;> simp [After.resume]
    · cases k <;> rfl

section

variable (h : s.Owned own chain dying)

include h

/-- A consumer leaves a chunk, and the chunk of the free list if there is one. -/
theorem Owned.letGo {c : Call} {due cc n : Nat} (hc : (s.rings r).consumer = .leaving c due cc n)
    (own' : Nat → Owner) {loose : Nat → Bool} {free : Option Nat} {c' : Consumer}
    (hloose : ∀ b, b ≠ cc → loose b = s.loose b) (hcc' : own' cc = .spare r)
    (hold : ∀ a, (s.rings r).freeChunk = some a → own' a = .spare r ∨ own' a = .consumer r)
    (hown : ∀ b, b ≠ cc → (s.rings r).freeChunk ≠ some b → own' b = own b)
    (hspare : ∀ a, free = some a → own' a = .spare r)
    (hheld : ∀ a, c'.held = some a → (s.rings r).freeChunk = some a ∧ own' a = .consumer r)
    (hplace : c'.place = .moving c due n) :
  Sound { s with
    loose := loose
    rings := update s.rings r { s.rings r with freeChunk := free, consumer := c' } }
  := by
  have hr := h.ring r
  have hpl := hr.consumer.place
  rw [hc] at hpl
  have hcc := hr.chain.owned cc (List.mem_of_head? hpl.2.2.1)
  have hsame : ∀ b, own b ≠ .spare r → b ≠ cc → own' b = own b := by
    intro b hb hne
    exact hown b hne fun hfree => hb (hr.consumer.spare b hfree)
  have hnew : ∀ b, own' b = own b ∨ own' b = .spare r ∨ own' b = .consumer r := by
    intro b
    by_cases hbc : b = cc
    · rw [hbc, hcc']
      exact .inr (.inl rfl)
    · by_cases hfree : (s.rings r).freeChunk = some b
      · exact .inr (hold b hfree)
      · exact .inl (hown b hbc hfree)
  refine h.change own' (chain r).tail (dying r) rfl ?_ ?_ h.nodup ?_ ?_ ?_
    (hr.leave hc ?_ hspare ?_ hplace)
  · intro b q hb hq
    refine ⟨rfl, hsame b ?_ ?_⟩
    · intro hsp
      rw [hsp] at hb
      exact hq (Option.some.inj hb).symm
    · rintro rfl
      rw [hcc] at hb
      exact hq (Option.some.inj hb).symm
  · intro b hb
    have hb := h.pool b hb
    rw [hsame b (by simp [hb]), hb]
    rintro rfl
    simp [hcc] at hb
  · intro b hb
    have hb := h.unmade b hb
    rw [hsame b (by simp [hb]), hb]
    rintro rfl
    simp [hcc] at hb
  · intro b hb
    apply h.cap b
    intro hnobody
    apply hb
    rw [hsame b (by simp [hnobody]), hnobody]
    rintro rfl
    simp [hcc] at hnobody
  · intro b q hb
    have hbc : b ≠ cc := by
      rintro rfl
      simp [hcc'] at hb
    have hold : own b = .chain q := by
      rcases hnew b with heq | heq | heq
      · rwa [heq] at hb
      · simp [heq] at hb
      · simp [heq] at hb
    exact (hloose b hbc).trans (h.tied b q hold)
  · intro b hb
    apply hsame b
    · rcases hb with hb | hb | ⟨hb, -⟩ <;> simp [hb]
    · rintro rfl
      rcases hb with hb | hb | ⟨-, hne⟩
      · simp [hcc] at hb
      · simp [hcc] at hb
      · exact hne rfl
  · intro a ha
    obtain ⟨hfree, howner⟩ := hheld a ha
    refine ⟨howner, ?_⟩
    intro hmem
    have hspare' := hr.consumer.spare a hfree
    rw [hr.consumer.dying a hmem] at hspare'
    contradiction

theorem Owned.leave {c : Call} {due cc n : Nat} (hc : (s.rings r).consumer = .leaving c due cc n) :
  (s.leave r c due cc n).Sound
  := by
  have hr := h.ring r
  have hplace := hr.consumer.place
  rw [hc] at hplace
  have hcc := hr.chain.owned cc (List.mem_of_head? hplace.2.2.1)
  have hne : ∀ {a : Nat}, (s.rings r).freeChunk = some a → a ≠ cc := by
    rintro a ha rfl
    have hspare := hr.consumer.spare a ha
    rw [hcc] at hspare
    contradiction
  have hspare : ∀ a, (s.rings r).freeChunk = some a → update own cc (.spare r) a = .spare r := by
    intro a ha
    rw [update_of_ne (hne ha)]
    exact hr.consumer.spare a ha
  unfold State.leave
  split
  · dsimp only
    cases hfree : (s.rings r).freeChunk with
    | none =>
        dsimp only
        rw [setConsumer, setRing_setRing]
        refine h.letGo hc (update own cc (.spare r)) ?_ ?_ ?_ ?_ ?_ ?_ rfl
        · intro b hb
          exact update_of_ne hb _ _
        · simp
        · simp [hfree]
        · intro b hb _
          exact update_of_ne hb _ _
        · intro a ha
          obtain rfl : cc = a := by simpa using ha
          simp
        · simp
    | some a =>
        dsimp only
        obtain ⟨c', hc', heq⟩ := recycleChunk_eq
          ((s.untie cc).setRing r fun R => { R with freeChunk := some cc }) r (.move c due n) a
        rw [heq, setConsumer, setRing_setRing]
        refine h.letGo hc (update (update own cc (.spare r)) a (.consumer r)) ?_ ?_ ?_
          ?_ ?_ ?_ hc'.place
        · intro b hb
          exact update_of_ne hb _ _
        · rw [update_of_ne (hne hfree).symm, update_self]
        · intro b hb
          obtain rfl : a = b := by simpa [hfree] using hb
          right
          simp
        · intro b hb hb'
          have hba : b ≠ a := by
            rintro rfl
            exact hb' hfree
          rw [update_of_ne hba, update_of_ne hb]
        · intro b hb
          obtain rfl : cc = b := by simpa using hb
          rw [update_of_ne (hne hfree).symm, update_self]
        · intro b hb
          obtain rfl := hc'.held b hb
          exact ⟨hfree, by simp⟩
  · refine h.letGo hc (update own cc (.spare r)) (fun _ _ => rfl) (by simp)
      (fun a ha => .inl (hspare a ha)) ?_ hspare (by simp) rfl
    intro b hb _
    exact update_of_ne hb _ _

/-- A consumer clears a part of the chunk it is recycling. -/
theorem Owned.wipeHeld {k : After} {a : Nat} {w : Wipe} {c : Consumer}
    (hc : (s.rings r).consumer = .wiping k a w) (hc' : c.held = some a ∧ c.place = k.resume) :
  ((s.setChunk a w.apply).setConsumer r c).Sound
  := by
  have hr := h.ring r
  obtain ⟨howner, hdying⟩ := hr.consumer.held a (by simp [hc])
  have hplace : (s.rings r).consumer.place = k.resume := by rw [hc]; rfl
  have hne {b : Nat} := ne_of_owner (b := b) howner
  have hsame : ∀ b ∈ chain r,
      update s.chunks a (w.apply (s.chunks a)) b = s.chunks b := by
    intro b hb
    exact update_of_ne (hne (by simp [hr.chain.owned b hb])) _ _
  refine h.setChunk (by simp [howner]) (cap_apply w _) (hr.consume (dying r) ?_
    (hr.rests (by simp [hc])) ?_
    ⟨?_, ?_, hr.consumer.spare, hr.consumer.dying, hr.consumer.nodup, ?_, ?_, ?_⟩)
  · intro b hb
    have hba : b ≠ a := by
      rcases hb with hb | hb <;> exact hne (by simp [hb])
    simp [hba]
  · intro _
    simp [-Consumer.place, Ring.start, hplace, hc'.2]
  · intro b hb
    obtain rfl : a = b := Option.some.inj (hc'.1.symm.trans hb)
    exact ⟨howner, hdying⟩
  · rw [hc'.2, ← hplace]
    refine hr.consumer.place.grows rfl rfl rfl le_rfl rfl ?_
    intro b hb
    rw [hsame b hb]
    exact Grows.refl _
  · refine hr.consumer.threaded.congr fun b hb => ?_
    have hba : b ≠ a := by
      rintro rfl
      exact hdying hb
    simp [hba]
  · rw [hc'.2, ← hplace]
    exact hr.consumer.called
  · rw [hc'.2, ← hplace]
    exact hr.consumer.closes

/-- A consumer returns a chunk to the pool. -/
theorem Owned.returnHeld {k : After} {a : Nat} (hc : (s.rings r).consumer = .returning k a) :
  ((s.put a).setConsumer r k.resume).Sound
  := by
  have hr := h.ring r
  obtain ⟨howner, hdying⟩ := hr.consumer.held a (by simp [hc])
  have hplace : (s.rings r).consumer.place = k.resume := by rw [hc]; rfl
  have hresume : k.resume.held = none ∧ k.resume.place = k.resume := by
    cases k <;> exact ⟨rfl, rfl⟩
  have hne {b : Nat} := ne_of_owner (b := b) howner
  refine h.putChunk (by simp [howner]) (hr.consume (dying r) ?_
    (hr.rests (by simp [hc])) ?_ ⟨?_, ?_, ?_, ?_, hr.consumer.nodup, hr.consumer.threaded, ?_, ?_⟩)
  · intro b hb
    have hba : b ≠ a := by
      rcases hb with hb | hb <;> exact hne (by simp [hb])
    exact ⟨rfl, update_of_ne hba _ _⟩
  · intro _
    simp [-Consumer.place, Ring.start, hplace, hresume.2]
  · simp [-Consumer.held, hresume.1]
  · rw [hresume.2, ← hplace]
    exact hr.consumer.place.grows rfl rfl rfl le_rfl rfl fun b _ => Grows.refl _
  · intro b hb
    have hspare := hr.consumer.spare b hb
    rw [update_of_ne (hne (by simp [hspare])), hspare]
  · intro b hb
    have hba : b ≠ a := by
      rintro rfl
      exact hdying hb
    rw [update_of_ne hba]
    exact hr.consumer.dying b hb
  · rw [hresume.2, ← hplace]
    exact hr.consumer.called
  · rw [hresume.2, ← hplace]
    exact hr.consumer.closes

/-- `Close` empties the free list. -/
theorem Owned.closeFree (hc : (s.rings r).consumer = .closing) (hstep : s.consume r = some s') :
  s'.Sound
  := by
  have hr := h.ring r
  have hplace := hr.consumer.place
  have hended := hr.consumer.closes
  rw [hc] at hplace hended
  simp only [State.consume, hc] at hstep
  split at hstep
  · rename_i a ha
    cases hstep
    have hspare := hr.consumer.spare a ha
    obtain ⟨c, hc', heq⟩ := recycleChunk_eq (s.setRing r fun R => { R with freeChunk := none }) r
      .closeRing a
    rw [heq, setConsumer, setRing_setRing]
    refine h.setOwner (a := a) (o := .consumer r) (by simp [hspare]) rfl (by simp)
      (hr.consume (dying r) ?_ (hr.rests (by simp [hc])) ?_
        ⟨?_, ?_, by simp, ?_, hr.consumer.nodup, hr.consumer.threaded, ?_, ?_⟩)
    · intro b hb
      have hba : b ≠ a := by
        rintro rfl
        rcases hb with hb | hb <;> simp [hspare] at hb
      simp [hba]
    · intro _
      simp only [Ring.start, hc'.place, hc]
      rfl
    · intro b hb
      obtain rfl := hc'.held b hb
      refine ⟨by simp, ?_⟩
      intro hmem
      rw [hr.consumer.dying b hmem] at hspare
      contradiction
    · rw [hc'.place]
      exact hplace
    · intro b hb
      have hba : b ≠ a := by
        rintro rfl
        rw [hr.consumer.dying b hb] at hspare
        contradiction
      rw [update_of_ne hba]
      exact hr.consumer.dying b hb
    · simp [-Consumer.place, hc'.place, After.resume]
    · intro _
      exact hended rfl
  · rename_i hnone
    cases hstep
    rw [setConsumer, setRing_setRing]
    refine h.setRing (hr.wander (hr.rests (by simp [hc])) ?_ ?_ rfl hplace ?_ (fun _ => hended rfl))
    · simp [hnone]
    · intro _
      simp [Ring.start, hc]
    · simp

/-- `Close` clears `pChunk`, with no push under way. -/
theorem Owned.clearProducer {cur : Option Nat} (hc : (s.rings r).consumer = .closingProducer cur)
    (hcalm : (s.rings r).producer.pending = []) :
  (s.setRing r fun R => { R with pChunk := none, consumer := .freeing cur }).Sound
  := by
  have hr := h.ring r
  have hchain : ∀ {b : Nat}, own b ≠ .chain r → b ∉ chain r := by
    intro b hb hmem
    exact hb (hr.chain.owned b hmem)
  refine h.change (fun a => if a ∈ chain r then .consumer r else own a) [] (chain r) rfl ?_ ?_
    h.nodup ?_ ?_ ?_ (hr.closeProducer hc hcalm fun _ => rfl)
  · intro b q hb hq
    have hmem : b ∉ chain r := by
      apply hchain
      intro heq
      rw [heq] at hb
      exact hq (Option.some.inj hb).symm
    simp [State.setRing, hmem]
  · intro b hb
    have hb := h.pool b hb
    simp [hchain (b := b) (by simp [hb]), hb]
  · intro b hb
    have hb := h.unmade b hb
    simp [hchain (b := b) (by simp [hb]), hb]
  · intro b hb
    apply h.cap b
    intro hnobody
    simp [hchain (b := b) (by simp [hnobody]), hnobody] at hb
  · intro b q hb
    split at hb
    · contradiction
    · exact h.tied b q hb

/-- `Close` recycles a chunk of the chain. -/
theorem Owned.freeNext {a : Nat} (hc : (s.rings r).consumer = .freeing (some a)) :
  (s.recycleChunk r (.free (s.chunks a).next) a).Sound
  := by
  have hr := h.ring r
  have hplace := hr.consumer.place
  have hended := hr.consumer.closes
  rw [hc] at hplace hended
  obtain ⟨hcChunk, hnil, hhead⟩ := hplace
  obtain ⟨rest, hrest⟩ : ∃ rest, dying r = a :: rest := by
    cases hdying : dying r with
    | nil => simp [hdying] at hhead
    | cons b rest =>
        obtain rfl : a = b := by simpa [hdying] using hhead
        exact ⟨rest, rfl⟩
  have hthreaded := hr.consumer.threaded
  have hnodup := hr.consumer.nodup
  rw [hrest] at hthreaded hnodup
  obtain ⟨c, hc', heq⟩ := recycleChunk_eq s r (.free (s.chunks a).next) a
  rw [heq]
  refine h.setRing (hr.consume rest (fun _ _ => ⟨rfl, rfl⟩) (hr.rests (by simp [hc]))
    (fun hne => absurd hnil hne) ⟨?_, ?_, hr.consumer.spare, ?_, ?_, ?_, ?_, ?_⟩)
  · intro b hb
    obtain rfl := hc'.held b hb
    exact ⟨hr.consumer.dying b (by simp [hrest]), (List.nodup_cons.mp hnodup).1⟩
  · rw [hc'.place]
    exact ⟨hcChunk, hnil, hthreaded.1⟩
  · intro b hb
    exact hr.consumer.dying b (by simp [hrest, hb])
  · exact (List.nodup_cons.mp hnodup).2
  · exact hthreaded.2
  · simp [-Consumer.place, hc'.place, After.resume]
  · intro _
    exact hended rfl

/-- Every step of a consumer leaves each chunk with one owner, if `Close` does not clear `pChunk`
in the middle of a push. -/
theorem Owned.consume
    (hcalm : ∀ cur, (s.rings r).consumer = .closingProducer cur → (s.rings r).producer.pending = [])
    (hstep : s.consume r = some s') :
  s'.Sound
  := by
  have hr := h.ring r
  have hplace := hr.consumer.place
  have hcalled := hr.consumer.called
  have hended := hr.consumer.closes
  cases hc : (s.rings r).consumer with
  | idle => simp [State.consume, hc] at hstep
  | looking c due cc =>
      have hnew := hr.made (by simp [hc])
      rw [hc] at hplace
      obtain ⟨hcChunk, hwindow, hcc, hdue⟩ := hplace
      obtain ⟨hle, hle'⟩ := hwindow cc hcc
      simp only [State.consume, hc] at hstep
      split at hstep
      · rename_i hlt
        cases hstep
        exact h.setRing (hr.look hc ⟨hle, hle'⟩ (.inl ⟨rfl, hlt⟩))
      · split at hstep
        · rename_i hlt
          cases hstep
          rw [setConsumer, setRing_setRing]
          exact h.setRing (hr.look hc ⟨by omega, le_rfl⟩ (.inl ⟨rfl, hlt⟩))
        · rename_i hge
          split at hstep
          · rename_i hcap
            cases hstep
            rw [setConsumer, setRing_setRing]
            exact h.setRing (hr.look hc ⟨by omega, le_rfl⟩
              (.inr ⟨rfl, Nat.le_of_not_lt hge, hcap⟩))
          · rename_i hcap
            have hge : (s.chunks cc).tail ≤ (s.rings r).cHead := Nat.le_of_not_lt hge
            have hcap : (s.rings r).cHead < (s.chunks cc).cap := Nat.lt_of_not_le hcap
            cases hstep
            rw [State.report, setRing_setRing]
            refine h.setRing (hr.report (t := (s.chunks cc).tail) hcChunk hcc hnew ?_
              (by simp [hc]) hge (.inl (by omega)) hdue
              ⟨by omega, le_rfl⟩)
            simp [Ring.start, hc]
  | atEnd c due cc =>
      have hnew := hr.made (by simp [hc])
      rw [hc] at hplace hcalled
      obtain ⟨hcChunk, hwindow, hcc, hdue, htail, hcHead⟩ := hplace
      have hstart : (s.rings r).start = (s.rings r).cHead := by
        simp [Ring.start, hc]
      simp only [State.consume, hc] at hstep
      split at hstep
      · rename_i hnone
        cases hstep
        exact h.setRing (hr.report hcChunk hcc hnew hstart (by simp [hc]) (by omega) (.inr hnone)
          hdue (hwindow cc hcc))
      · rename_i n hn
        cases hstep
        refine h.setRing (hr.wander (hr.rests (by simp [hc])) rfl (fun _ => hstart.symm) rfl ?_
          hcalled ?_)
        · exact ⟨hcChunk, hwindow, hcc, hdue, htail, hcHead, hn⟩
        · simp
  | leaving c due cc n =>
      obtain rfl : _ = s' := by simpa [State.consume, hc] using hstep
      exact h.leave hc
  | wiping k a w =>
      obtain rfl : _ = s' := by simpa [State.consume, hc] using hstep
      apply h.wipeHeld hc
      cases w <;> exact ⟨rfl, rfl⟩
  | returning k a =>
      obtain rfl : _ = s' := by simpa [State.consume, hc] using hstep
      exact h.returnHeld hc
  | moving c due n =>
      rw [hc] at hplace hcalled
      obtain ⟨hn, hdue⟩ := hplace
      obtain rfl : _ = s' := by simpa [State.consume, hc] using hstep
      refine h.setRing (hr.wander (hr.rests (by simp [hc])) rfl (fun _ => ?_) rfl ?_ hcalled ?_)
      · simp [Ring.start, hc]
      · refine ⟨hn.symm, ?_, hn, hdue⟩
        intro cc _
        exact ⟨le_rfl, Nat.zero_le _⟩
      · simp
  | taking c cc =>
      rw [hc] at hplace
      have hcc := hr.chain.owned cc (List.mem_of_head? hplace.2.2.1)
      obtain rfl : _ = s' := by simpa [State.consume, hc] using hstep
      unfold State.take
      dsimp only
      split
      · rename_i hremoves
        rw [setRing_setChunk]
        exact h.setChunk (by simp [hcc]) rfl
          (hr.take hc rfl rfl (.inl ⟨hremoves, rfl, rfl⟩))
      · rename_i hremoves
        rw [setConsumer, setRing_setChunk]
        exact h.setChunk (by simp [hcc]) rfl
          (hr.take hc rfl rfl (.inr ⟨by simpa using hremoves, rfl, rfl, rfl⟩))
  | counting =>
      rw [hc] at hplace
      obtain rfl : _ = s' := by simpa [State.consume, hc] using hstep
      refine h.setRing (hr.wander ⟨hr.made (by simp [hc]), rfl, rfl, rfl, .inl rfl, fun _ => rfl,
        fun honly => honly, fun hend => hend, hr.content.empties⟩ rfl (fun _ => ?_) rfl hplace
        ?_ ?_)
      · simp [Ring.start, hc]
      · simp
      · simp
  | closing => exact h.closeFree hc hstep
  | closingRing =>
      rw [hc] at hplace hended
      obtain rfl : _ = s' := by simpa [State.consume, hc] using hstep
      refine h.setRing (hr.wander (hr.rests (by simp [hc])) rfl (fun _ => ?_) rfl ?_ ?_
        (fun _ => hended rfl))
      · simp [Ring.start, hc]
      · exact ⟨hplace.1, hplace.2, hplace.1⟩
      · simp
  | closingConsumer cur =>
      rw [hc] at hplace hended
      obtain rfl : _ = s' := by simpa [State.consume, hc] using hstep
      refine h.setRing (hr.wander (hr.rests (by simp [hc])) rfl (fun _ => ?_) rfl ?_ ?_
        (fun _ => hended rfl))
      · simp [Ring.start, hc]
      · exact ⟨rfl, hplace.2.1, hplace.2.2⟩
      · simp
  | closingProducer cur =>
      obtain rfl : _ = s' := by simpa [State.consume, hc] using hstep
      exact h.clearProducer hc (hcalm cur hc)
  | freeing cur =>
      cases cur with
      | none =>
          rw [hc] at hplace
          obtain ⟨hcChunk, hnil, -⟩ := hplace
          obtain rfl : _ = s' := by simpa [State.consume, hc] using hstep
          refine h.setRing (hr.wander (hr.rests (by simp [hc])) rfl (fun hne => absurd hnil hne) rfl
            ?_ ?_ ?_)
          · refine ⟨by simpa [hnil] using hcChunk, ?_⟩
            simp [hnil, Window]
          · simp
          · simp
      | some a =>
          obtain rfl : _ = s' := by simpa [State.consume, hc] using hstep
          exact h.freeNext hc

end

end State

end Muxocket.RingBuffer
