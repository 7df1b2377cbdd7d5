import Muxocket.Cutting

/-!
# The frames of a stream partition it

However calls of `Write` and `ReadFrom` on one channel interleave, the frames they queue are
consecutive chunks of the stream, and those of one call carry what the call had to send.  This
rests on two things: only the holder of the write lock takes an offset and queues a frame, and
nobody writes to the buffer of a frame that has got its offset.
-/

namespace Muxocket

open Function

namespace Cutting

namespace State

/-- The frames of a call follow each other, and no other frame has come after them while the
call holds the lock. -/
def Block (s : State) (i : Nat) : Prop :=
  ∃ before after, s.queued = before ++ s.framesOf i ++ after ∧ (s.writeMu = some i → after = [])

/-- The frames that have got an offset are consecutive chunks of the stream, their buffers are
not written to any more, and what each call has queued are the first bytes it had to send. -/
structure Sound (cfg : SessionConfig) (s : State) : Prop where
  lock : ∀ i, s.writeMu = some i ↔ (s.spot i).inside = true
  parts : s.taken.map (fun q => (q.offset, s.payload q)) = chunks 0 (s.taken.map s.payload)
  offset : s.writeOffset = (s.taken.map s.payload).flatten.length
  sizes : ∀ q ∈ s.taken, 1 ≤ q.length ∧ q.length ≤ cfg.maxFrameDataSize
    ∧ (s.payload q).length = q.length ∧ q.pBuf < s.next
  buffers : ∀ i b, (s.spot i).buffer = some b → b < s.next ∧ ∀ q ∈ s.taken, q.pBuf ≠ b
  distinct : ∀ i j b, (s.spot i).buffer = some b → (s.spot j).buffer = some b → i = j
  calls : ∀ i, (s.spot i).Fits cfg s.mem i (s.call i) (s.input i)
  accepted : ∀ i, s.accepted i = (s.input i).take (s.spot i).count
  block : ∀ i b, s.call i = some (.write b) → s.Block i

theorem sound_init (cfg : SessionConfig) :
  ({} : State).Sound cfg
  where
  lock i := by simp [Spot.inside]
  parts := rfl
  offset := rfl
  sizes := nofun
  buffers := nofun
  distinct := nofun
  calls i := ⟨rfl, rfl⟩
  accepted i := rfl
  block := nofun

section

variable {cfg : SessionConfig} {s s' : State} {i : Nat} {p : Spot}

theorem hand_of_inside (hs : s.Sound cfg) (hi : (s.spot i).inside = true) :
  s.hand = (s.spot i).hand
  := by
  rw [hand, (hs.lock i).mpr hi]

variable {q : Queued} {job : Job} {sent : Nat} {keep : Bool}

theorem payload_congr (h : s'.mem q.pBuf = s.mem q.pBuf) :
  s'.payload q = s.payload q
  := by
  rw [payload, payload, h]

/-- The hand of a call that is not the holder of the lock is empty. -/
theorem mem_taken_of_hand (hs : s.Sound cfg) {j : Nat} (hq : q ∈ (s.spot j).hand) :
  q ∈ s.taken
  := by
  have hinside : (s.spot j).inside = true := by
    cases hp : s.spot j <;> simp_all [Spot.hand, Spot.inside]
  rw [taken, hand_of_inside hs hinside]
  apply List.mem_append_right _ hq

/-- A call takes a step that gives no frame an offset and queues none. -/
theorem Sound.move (hs : s.Sound cfg) (hspot : s'.spot = update s.spot i p)
    (hqueued : s'.queued = s.queued) (hhand : s'.hand = s.hand)
    (hoffset : s'.writeOffset = s.writeOffset) (hnext : s.next ≤ s'.next)
    (hlock : ∀ j, s'.writeMu = some j ↔ (s'.spot j).inside = true)
    (hcall : ∀ j, j ≠ i → s'.call j = s.call j) (hinput : ∀ j, j ≠ i → s'.input j = s.input j)
    (hmem : ∀ b, (s.spot i).buffer ≠ some b → b < s.next → s'.mem b = s.mem b)
    (hbuffer : ∀ b, p.buffer = some b → (s.spot i).buffer = some b ∨ s.next ≤ b ∧ b < s'.next)
    (hfits : p.Fits cfg s'.mem i (s'.call i) (s'.input i))
    (haccepted : (s'.input i).take p.count = (s.input i).take (s.spot i).count)
    (hothers : ∀ j, j ≠ i → s'.writeMu = some j → s.writeMu = some j)
    (hblock : ∀ b, s'.call i = some (.write b) → s.framesOf i = []
      ∨ s.call i = some (.write b) ∧ (s'.writeMu = some i → s.writeMu = some i)) :
  s'.Sound cfg
  := by
  have htaken : s'.taken = s.taken := by
    rw [taken, taken, hqueued, hhand]
  have hself : s'.spot i = p := by
    rw [hspot, update_self]
  have hother : ∀ j, j ≠ i → s'.spot j = s.spot j := by
    intro j hj
    rw [hspot, update_of_ne hj]
  have hframe : ∀ q ∈ s.taken, s'.mem q.pBuf = s.mem q.pBuf := by
    intro q hq
    apply hmem _ _ (hs.sizes q hq).2.2.2
    intro hown
    exact (hs.buffers i _ hown).2 q hq rfl
  have hpayload : ∀ q ∈ s.taken, s'.payload q = s.payload q := fun q hq =>
    payload_congr (hframe q hq)
  have hmap : s.taken.map s'.payload = s.taken.map s.payload := List.map_congr_left hpayload
  have hframesOf : ∀ j, s'.framesOf j = s.framesOf j := by
    intro j
    rw [framesOf, framesOf, hqueued]
  have hacc : ∀ j, s'.accepted j = s.accepted j := by
    intro j
    rw [State.accepted, State.accepted, hframesOf]
    congr 1
    apply List.map_congr_left
    intro q hq
    apply hpayload
    exact List.mem_append_left _ (List.mem_of_mem_filter hq)
  have hbufs : ∀ j b, (s'.spot j).buffer = some b →
      (s.spot j).buffer = some b ∨ j = i ∧ s.next ≤ b ∧ b < s'.next := by
    intro j b hb
    by_cases hj : j = i
    · subst hj
      rw [hself] at hb
      exact (hbuffer b hb).imp id fun h => ⟨rfl, h⟩
    · left
      rwa [hother j hj] at hb
  refine ⟨hlock, ?_, ?_, ?_, ?_, ?_, ?_, ?_, ?_⟩
  · rw [htaken, hmap, ← hs.parts]
    apply List.map_congr_left
    intro q hq
    rw [hpayload q hq]
  · rw [htaken, hmap, hoffset, hs.offset]
  · intro q hq
    rw [htaken] at hq
    obtain ⟨hpos, hle, hlen, hlt⟩ := hs.sizes q hq
    exact ⟨hpos, hle, by rwa [hpayload q hq], by omega⟩
  · intro j b hb
    rw [htaken]
    rcases hbufs j b hb with hb | ⟨-, hge, hlt⟩
    · obtain ⟨hlt, hne⟩ := hs.buffers j b hb
      exact ⟨by omega, hne⟩
    · refine ⟨hlt, fun q hq heq => ?_⟩
      have := (hs.sizes q hq).2.2.2
      omega
  · intro j k b hj hk
    rcases hbufs j b hj with hj | ⟨rfl, hge, -⟩ <;> rcases hbufs k b hk with hk | ⟨rfl, hge', -⟩
    · exact hs.distinct j k b hj hk
    · have := (hs.buffers j b hj).1
      omega
    · have := (hs.buffers k b hk).1
      omega
    · rfl
  · intro j
    by_cases hj : j = i
    · subst hj
      rwa [hself]
    · rw [hother j hj, hcall j hj, hinput j hj]
      apply (hs.calls j).congr
      · intro b hb
        apply hmem b _ (hs.buffers j b hb).1
        intro hown
        exact hj (hs.distinct j i b hb hown)
      · intro q hq
        apply hframe q (mem_taken_of_hand hs hq)
  · intro j
    rw [hacc, hs.accepted]
    by_cases hj : j = i
    · subst hj
      rw [hself, haccepted]
    · rw [hother j hj, hinput j hj]
  · intro j b hb
    unfold Block
    rw [hframesOf, hqueued]
    by_cases hj : j = i
    · subst hj
      rcases hblock b hb with hnone | ⟨hb, hheld⟩
      · exact ⟨s.queued, [], by simp [hnone], fun _ => rfl⟩
      · obtain ⟨before, after, heq, hafter⟩ := hs.block j b hb
        exact ⟨before, after, heq, fun h => hafter (hheld h)⟩
    · obtain ⟨before, after, heq, hafter⟩ := hs.block j b (by rwa [hcall j hj] at hb)
      exact ⟨before, after, heq, fun h => hafter (hothers j hj h)⟩

theorem hand_goto (hp : p.hand = (s.spot i).hand) :
  (s.goto i p).hand = s.hand
  := by
  unfold hand goto
  dsimp only
  split
  · rename_i j _
    by_cases hj : j = i
    · subst hj
      rw [update_self, hp]
    · rw [update_of_ne hj]
  · rfl

section

variable (hs : s.Sound cfg)

include hs

theorem lock_goto (hp : p.inside = (s.spot i).inside) (j : Nat) :
  s.writeMu = some j ↔ ((s.goto i p).spot j).inside = true
  := by
  unfold goto
  dsimp only
  by_cases hj : j = i
  · subst hj
    rw [update_self, hp, hs.lock]
  · rw [update_of_ne hj, hs.lock]

/-- A call goes on, and nothing else changes. -/
theorem Sound.goto {p₀ : Spot} (hspot : s.spot i = p₀) (hinside : p.inside = p₀.inside)
    (hhand : p.hand = p₀.hand) (hcount : p.count = p₀.count)
    (hbuffer : ∀ b, p.buffer = some b → p₀.buffer = some b)
    (hfits : p.Fits cfg s.mem i (s.call i) (s.input i)) :
  (s.goto i p).Sound cfg
  := by
  subst hspot
  refine hs.move rfl rfl (hand_goto hhand) rfl le_rfl (lock_goto hs hinside) (fun _ _ => rfl)
    (fun _ _ => rfl) (fun _ _ _ => rfl) (fun b hb => .inl (hbuffer b hb)) hfits ?_
    (fun _ _ h => h) (fun b hb => .inr ⟨hb, id⟩)
  rw [hcount]
  rfl

/-- A call that has queued no bytes has queued no frames. -/
theorem framesOf_eq_nil (hi : s.accepted i = []) :
  s.framesOf i = []
  := by
  rw [List.eq_nil_iff_forall_not_mem]
  intro q hq
  have hmem : q ∈ s.taken := List.mem_append_left _ (List.mem_of_mem_filter hq)
  obtain ⟨hpos, -, hlen, -⟩ := hs.sizes q hmem
  have hnil : s.payload q = [] := List.flatten_eq_nil_iff.mp hi _ (List.mem_map_of_mem hq)
  rw [hnil] at hlen
  simp at hlen
  omega

theorem Sound.input_eq {b : Bytes} (hb : s.call i = some (.write b)) :
  s.input i = b
  := by
  have hcalls := hs.calls i
  rw [hb] at hcalls
  exact hcalls.input_eq

/-- A buffer is allocated. -/
theorem Sound.alloc (content : Bytes) :
  (s.alloc content).Sound cfg
  := by
  refine hs.move (i := 0) (p := s.spot 0) (update_eq_self 0 s.spot).symm rfl rfl rfl
    (Nat.le_succ _) hs.lock (fun _ _ => rfl) (fun _ _ => rfl) ?_ (fun b hb => .inl hb) ?_ rfl
    (fun _ _ h => h) (fun b hb => .inr ⟨hb, id⟩)
  · intro b _ hb
    apply update_of_ne
    omega
  · apply (hs.calls 0).congr
    · intro b hb
      apply update_of_ne
      have := (hs.buffers 0 b hb).1
      omega
    · intro q hq
      apply update_of_ne
      have := (hs.sizes q (mem_taken_of_hand hs hq)).2.2.2
      omega

/-- A call begins. -/
theorem Sound.start (hi : s.spot i = .idle) (c : WriteCall) :
  (s.start i c).Sound cfg
  := by
  have hcalls := hs.calls i
  have haccepted := hs.accepted i
  rw [hi] at hcalls haccepted
  have hnone := framesOf_eq_nil hs haccepted
  cases c with
  | write b =>
      refine hs.move (i := i) rfl rfl (hand_goto (s := s) ?_) rfl le_rfl (lock_goto hs ?_)
        (fun j hj => update_of_ne hj _ _) (fun j hj => update_of_ne hj _ _)
        (fun _ _ _ => rfl) ?_ ?_ ?_ (fun _ _ h => h) (fun _ _ => .inl hnone)
      · split <;> simp [hi, Spot.hand]
      · split <;> simp [hi, Spot.inside]
      · split <;> simp [Spot.buffer]
      · split <;> simp [Spot.Fits, State.start, bytes]
      · split <;> simp [hi, Spot.count]
  | readFrom =>
      refine hs.move (i := i) rfl rfl (hand_goto (s := s) ?_) rfl le_rfl (lock_goto hs ?_)
        (fun j hj => update_of_ne hj _ _) (fun j hj => rfl)
        (fun _ _ _ => rfl) ?_ ?_ ?_ (fun _ _ h => h) (fun _ _ => .inl hnone)
      · simp [hi, Spot.hand]
      · simp [hi, Spot.inside]
      · simp [Spot.buffer]
      · simp [Spot.Fits, State.start, bytes, hcalls.2]
      · simp [hi, Spot.count]

/-- A frame gets an offset: the next bytes of a call, in a buffer nobody writes to any more. -/
theorem Sound.take {sz : Nat} {keep' : Bool} (hspot : s.spot i = .granted job sent keep sz)
    (hcall : q.call = i) (hoffset : q.offset = s.writeOffset) (hlength : q.length = sz)
    (hbuf : q.pBuf < s.next) (hpayload : s.payload q = ((s.input i).drop (job.base + sent)).take sz)
    (hfree : ∀ j, (s.spot j).buffer = some q.pBuf → j = i ∧ keep' = false)
    (hkeep : keep' = false → sent + sz = job.size) :
  ((s.take cfg q).goto i (.queueing job sent keep' q)).Sound cfg
  := by
  have hcalls := hs.calls i
  rw [hspot] at hcalls
  obtain ⟨hjob, rfl, hlt, hpos, hsz⟩ := hcalls
  have hinput := hjob.length_input
  obtain ⟨hsize, hmax⟩ := hjob.desired_le sent
  have hlen : (s.payload q).length = q.length := by
    rw [hpayload, List.length_take, List.length_drop]
    omega
  have hheld : s.writeMu = some i := by
    rw [hs.lock, hspot]
    rfl
  have hqueued : s.taken = s.queued := by
    simp [taken, hand, hheld, hspot, Spot.hand]
  have htaken : ((s.take cfg q).goto i (.queueing job sent keep' q)).taken = s.taken ++ [q] := by
    rw [hqueued]
    simp [taken, hand, State.take, hheld, Spot.hand]
  have hother : ∀ j, j ≠ i →
      ((s.take cfg q).goto i (.queueing job sent keep' q)).spot j = s.spot j :=
    fun j hj => update_of_ne hj _ _
  have hself : ((s.take cfg q).goto i (.queueing job sent keep' q)).spot i
      = .queueing job sent keep' q := update_self _ _ _
  have hbufs : ∀ j b,
      (((s.take cfg q).goto i (.queueing job sent keep' q)).spot j).buffer = some b →
      (s.spot j).buffer = some b ∧ b ≠ q.pBuf := by
    intro j b hb
    by_cases hj : j = i
    · subst hj
      rw [hself] at hb
      have hkeep' : keep' = true := by
        cases job with
        | write b => contradiction
        | relay total buf n rerr => exact (Option.ite_none_right_eq_some.mp hb).1
      subst hkeep'
      have hown : (s.spot j).buffer = some b := by
        rw [hspot]
        exact hb
      refine ⟨hown, ?_⟩
      rintro rfl
      have := (hfree j hown).2
      contradiction
    · rw [hother j hj] at hb
      refine ⟨hb, ?_⟩
      rintro rfl
      exact hj (hfree j hb).1
  refine ⟨?_, ?_, ?_, ?_, ?_, ?_, ?_, ?_, ?_⟩
  · apply lock_goto (s := s) hs
    rw [hspot]
    rfl
  · rw [htaken, List.map_append, List.map_append, chunks_append]
    congr 1
    · exact hs.parts
    · simp only [List.map_singleton, chunks, hoffset, hs.offset, Nat.zero_add]
      rfl
  · rw [htaken, List.map_append, List.flatten_append, List.length_append]
    change s.writeOffset + q.length
      = (s.taken.map s.payload).flatten.length + [s.payload q].flatten.length
    rw [hs.offset, ← hlen, List.flatten_singleton]
  · intro r hr
    rw [htaken, List.mem_append, List.mem_singleton] at hr
    rcases hr with hr | rfl
    · exact hs.sizes r hr
    · exact ⟨by omega, by omega, hlen, hbuf⟩
  · intro j b hb
    obtain ⟨hb, hne⟩ := hbufs j b hb
    refine ⟨(hs.buffers j b hb).1, ?_⟩
    intro r hr
    rw [htaken, List.mem_append, List.mem_singleton] at hr
    rcases hr with hr | rfl
    · exact (hs.buffers j b hb).2 r hr
    · exact hne.symm
  · intro j k b hj hk
    exact hs.distinct j k b (hbufs j b hj).1 (hbufs k b hk).1
  · intro j
    by_cases hj : j = i
    · subst hj
      rw [hself]
      refine ⟨hjob.of_keep fun _ => rfl, by omega, ?_, hcall, ?_⟩
      · intro h
        rw [hlength]
        apply hkeep h
      · rw [hlength]
        exact hlength ▸ hpayload
    · rw [hother j hj]
      exact hs.calls j
  · intro j
    by_cases hj : j = i
    · subst hj
      rw [hself]
      have haccepted := hs.accepted j
      rw [hspot] at haccepted
      exact haccepted
    · rw [hother j hj]
      exact hs.accepted j
  · exact hs.block

/-- A frame is queued. -/
theorem Sound.queue (hspot : s.spot i = .queueing job sent keep q) :
  ((s.push q).goto i (.sending job (sent + q.length) keep)).Sound cfg
  := by
  have hcalls := hs.calls i
  rw [hspot] at hcalls
  obtain ⟨hjob, hle, hkeep, rfl, hpayload⟩ := hcalls
  have hheld : s.writeMu = some q.call := by
    rw [hs.lock, hspot]
    rfl
  have htaken : ((s.push q).goto q.call (.sending job (sent + q.length) keep)).taken = s.taken := by
    simp [taken, hand, push, hheld, hspot, Spot.hand]
  have hother : ∀ j, j ≠ q.call →
      ((s.push q).goto q.call (.sending job (sent + q.length) keep)).spot j = s.spot j :=
    fun j hj => update_of_ne hj _ _
  have hself : ((s.push q).goto q.call (.sending job (sent + q.length) keep)).spot q.call
      = .sending job (sent + q.length) keep :=
    update_self _ _ _
  have hframes : ∀ j, j ≠ q.call →
      ((s.push q).goto q.call (.sending job (sent + q.length) keep)).framesOf j
        = s.framesOf j := by
    intro j hj
    simp [framesOf, push, hj.symm]
  have hown : ((s.push q).goto q.call (.sending job (sent + q.length) keep)).framesOf q.call
      = s.framesOf q.call ++ [q] := by
    simp [framesOf, push]
  have hbufs : ∀ j,
      (((s.push q).goto q.call (.sending job (sent + q.length) keep)).spot j).buffer
        = (s.spot j).buffer := by
    intro j
    by_cases hj : j = q.call
    · rw [hj, hself, hspot]
      rfl
    · rw [hother j hj]
  refine ⟨?_, ?_, ?_, ?_, ?_, ?_, ?_, ?_, ?_⟩
  · apply lock_goto (s := s) hs
    rw [hspot]
    rfl
  · rw [htaken]
    exact hs.parts
  · rw [htaken]
    exact hs.offset
  · rw [htaken]
    exact hs.sizes
  · intro j b hb
    rw [htaken]
    apply hs.buffers j b
    rwa [hbufs] at hb
  · intro j k b hj hk
    rw [hbufs] at hj hk
    exact hs.distinct j k b hj hk
  · intro j
    by_cases hj : j = q.call
    · rw [hj, hself]
      exact ⟨hjob, hle, hkeep⟩
    · rw [hother j hj]
      exact hs.calls j
  · intro j
    by_cases hj : j = q.call
    · have haccepted := hs.accepted q.call
      rw [hspot] at haccepted
      rw [hj, hself, State.accepted, hown, List.map_append, List.flatten_append]
      change s.accepted q.call ++ _ = (s.input q.call).take (job.base + (sent + q.length))
      rw [haccepted, ← Nat.add_assoc, List.take_add]
      simp only [List.map_singleton, List.flatten_singleton]
      congr 1
    · rw [hother j hj, State.accepted, hframes j hj]
      exact hs.accepted j
  · intro j b hb
    unfold Block
    by_cases hj : j = q.call
    · subst hj
      obtain ⟨before, after, heq, hafter⟩ := hs.block q.call b hb
      obtain rfl := hafter hheld
      refine ⟨before, [], ?_, fun _ => rfl⟩
      rw [hown]
      simp [push, heq]
    · obtain ⟨before, after, heq, hafter⟩ := hs.block j b hb
      refine ⟨before, after ++ [q], ?_, ?_⟩
      · rw [hframes j hj]
        simp [push, heq]
      · intro h
        have hsame : some j = some q.call := by
          rw [← hheld]
          exact h.symm
        exact absurd (Option.some.inj hsame) hj

/-- The source of a `ReadFrom` gives what it gives. -/
theorem Sound.fill {total buf n : Nat} (hspot : s.spot i = .reading total buf) {content : Bytes}
    (hcontent : n ≤ content.length) (hn : n ≤ cfg.maxFrameDataSize) (rerr : Option SourceError) :
  ((s.fill i buf content n).goto i
    (if 0 < n then .locking (.relay total buf n rerr)
    else afterRead total (some buf) rerr)).Sound cfg
  := by
  have hcalls := hs.calls i
  rw [hspot] at hcalls
  obtain ⟨hcall, hinput⟩ := hcalls
  have hout : (if 0 < n then Spot.locking (.relay total buf n rerr)
      else afterRead total (some buf) rerr).Outside cfg (update s.mem buf content) i
        (s.call i) (s.input i ++ content.take n) total (some buf) := by
    have htake : (content.take n).length = n := by
      rw [List.length_take]
      omega
    split
    · refine ⟨rfl, rfl, rfl, fun _ h => h, hcall, hn, ?_, ?_⟩
      · rw [List.length_append, htake, hinput]
      · intro _
        rw [update_self, ← hinput, List.drop_left]
    · apply outside_afterRead _ _ _ hcall
      rw [List.length_append, htake, hinput]
      omega
  refine hs.move rfl rfl (hand_goto (s := s.fill i buf content n) ?_) rfl le_rfl
    (lock_goto hs ?_) (fun _ _ => rfl) (fun j hj => update_of_ne hj _ _) ?_ ?_ ?_ ?_
    (fun _ _ h => h) (fun b hb => .inr ⟨hb, id⟩)
  · rw [hout.hand]
    exact (congrArg Spot.hand hspot).symm
  · rw [hout.inside, hspot]
    rfl
  · intro b hb _
    apply update_of_ne
    rintro rfl
    rw [hspot] at hb
    exact hb rfl
  · intro b hb
    left
    rw [hspot]
    apply hout.buffer b hb
  · simpa [State.fill] using hout.fits
  · rw [hout.count, hspot]
    simp [State.fill, Spot.count, ← hinput]

/-- A call takes the lock. -/
theorem Sound.enter (hspot : s.spot i = .locking job) (hfree : s.writeMu = none) :
  ({ s with writeMu := some i }.goto i (.checking job)).Sound cfg
  := by
  have hcalls := hs.calls i
  have haccepted := hs.accepted i
  rw [hspot] at hcalls haccepted
  have houtside : ∀ j, (s.spot j).inside = false := by
    intro j
    by_contra hin
    have := (hs.lock j).mpr (by simpa using hin)
    simp [hfree] at this
  refine hs.move rfl rfl ?_ rfl le_rfl ?_ (fun _ _ => rfl) (fun _ _ => rfl) (fun _ _ _ => rfl)
    ?_ hcalls ?_ ?_ ?_
  · simp [hand, hfree, Spot.hand]
  · intro j
    by_cases hj : j = i
    · subst hj
      simp [Spot.inside]
    · simp [update_of_ne hj, houtside j, Ne.symm hj]
  · intro b hb
    left
    rw [hspot]
    exact hb
  · rw [hspot]
    rfl
  · intro j hj hheld
    exact absurd (Option.some.inj hheld).symm hj
  · intro b hb
    left
    apply framesOf_eq_nil hs
    cases job with
    | write b' =>
        rw [haccepted]
        rfl
    | relay total buf n rerr =>
        have hsame : some (WriteCall.write b) = some .readFrom := hb.symm.trans hcalls.1
        simp at hsame

/-- A call releases the lock. -/
theorem Sound.leave {err : Option Failure} (hspot : s.spot i = .unlocking job sent keep err) :
  ({ s with writeMu := none }.goto i (job.leave sent keep err)).Sound cfg
  := by
  have hcalls := hs.calls i
  rw [hspot] at hcalls
  have hout : (job.leave sent keep err).Outside cfg s.mem i (s.call i) (s.input i)
      (job.base + sent) (job.buffer keep) := hcalls.1.outside_leave hcalls.2.1 hcalls.2.2
  have hheld : s.writeMu = some i := by
    rw [hs.lock, hspot]
    rfl
  refine hs.move rfl rfl ?_ rfl le_rfl ?_ (fun _ _ => rfl) (fun _ _ => rfl) (fun _ _ _ => rfl)
    ?_ hout.fits ?_ nofun (fun b hb => .inr ⟨hb, nofun⟩)
  · simp [hand, hheld, hspot, Spot.hand]
  · intro j
    by_cases hj : j = i
    · subst hj
      simp [hout.inside]
    · have hother : (s.spot j).inside = false := by
        by_contra hin
        have hsame := (hs.lock j).mpr (by simpa using hin)
        rw [hheld] at hsame
        exact hj (Option.some.inj hsame).symm
      simp [update_of_ne hj, hother]
  · intro b hb
    left
    rw [hspot]
    exact hout.buffer b hb
  · rw [hout.count, hspot]
    rfl

/-- Every step of a call keeps what is known. -/
theorem Sound.advance {o : Choice} (hstep : s.advance cfg i (s.spot i) o = some s') :
  s'.Sound cfg
  := by
  have hcalls := hs.calls i
  have hstopped : s.call i ≠ none → ∀ err,
      (Spot.returned 0 err).Fits cfg s.mem i (s.call i) (s.input i) :=
    fun hcall err => ⟨hcall, Nat.zero_le _, fun b => hs.input_eq⟩
  generalize hspot : s.spot i = p at hstep hcalls
  unfold State.advance at hstep
  split at hstep
  case h_1 c =>
    cases hstep
    cases hclosed : s.closed with
    | true => exact hs.goto hspot rfl rfl rfl nofun (hstopped (by simp [hcalls.1]) _)
    | false => exact hs.goto hspot rfl rfl rfl nofun hcalls
  case h_2 c =>
    cases hstep
    cases hclosed : s.writeClosed with
    | true => exact hs.goto hspot rfl rfl rfl nofun (hstopped (by simp [hcalls.1]) _)
    | false =>
        cases c with
        | write b => exact hs.goto hspot rfl rfl rfl nofun hcalls
        | readFrom =>
            exact hs.goto hspot rfl rfl rfl nofun ⟨hcalls.1, by simp [hcalls.2, bytes]⟩
  case h_3 total buf =>
    cases hstep
    exact hs.goto hspot rfl rfl rfl (fun _ h => h) hcalls
  case h_4 total =>
    cases hstep
    refine hs.move rfl rfl (hand_goto (s := s.alloc []) ?_) rfl (Nat.le_succ _)
      (lock_goto (s := s) hs ?_) (fun _ _ => rfl) (fun _ _ => rfl) ?_ ?_ hcalls ?_
      (fun _ _ h => h) (fun b hb => .inr ⟨hb, id⟩)
    · exact (congrArg Spot.hand hspot).symm
    · rw [hspot]
      rfl
    · intro b _ hb
      apply update_of_ne
      omega
    · intro b hb
      right
      cases hb
      exact ⟨le_rfl, Nat.lt_succ_self _⟩
    · rw [hspot]
      rfl
  case h_5 total buf content n rerr =>
    obtain ⟨hsize, rfl⟩ := Run.guard hstep
    exact hs.fill hspot (by omega) hsize.2 rerr
  case h_6 job =>
    obtain ⟨hfree, rfl⟩ := Run.guard hstep
    exact hs.enter hspot hfree
  case h_7 job =>
    cases hstep
    cases hrefused : job.refused s with
    | true | false => exact hs.goto hspot rfl rfl rfl (fun _ h => h) ⟨hcalls, Nat.zero_le _, nofun⟩
  case h_8 job sent keep =>
    split at hstep
    · contradiction
    · cases hstep
      have hle := hcalls.2.1
      exact hs.goto hspot rfl rfl rfl (fun _ h => h) ⟨hcalls.1, hle, fun _ => by omega⟩
  case h_9 job sent keep sz =>
    obtain ⟨⟨hlt, hpos, hle⟩, hstep⟩ := Option.ite_none_right_eq_some.mp hstep
    cases hstep
    have hkeep : keep = true := by
      by_contra hgone
      have := hcalls.2.2 (by simpa using hgone)
      omega
    exact hs.goto hspot rfl rfl rfl (fun _ h => h) ⟨hcalls.1, hkeep, hlt, hpos, hle⟩
  case h_10 job sent keep =>
    obtain ⟨hlt, rfl⟩ := Run.guard hstep
    exact hs.goto hspot rfl rfl rfl (fun _ h => h) ⟨hcalls.1, hcalls.2.1, nofun⟩
  case h_12 job sent keep q =>
    cases hstep
    apply hs.queue hspot
  case h_11 job sent keep sz =>
    obtain ⟨hjob, rfl, hlt, hpos, hle⟩ := hcalls
    split at hstep
    · rename_i buf hbuf
      cases hstep
      cases job with
      | write b => contradiction
      | relay total buf' n rerr =>
          obtain ⟨⟨rfl, rfl, -⟩, hsame⟩ := Option.ite_none_right_eq_some.mp hbuf
          obtain rfl := Option.some.inj hsame
          have hown : (s.spot i).buffer = some buf' := by
            rw [hspot]
            rfl
          apply hs.take hspot rfl rfl rfl (hs.buffers i buf' hown).1
          · rw [payload, hjob.2.2.2 rfl]
            symm
            apply List.take_of_length_le
            rw [List.length_drop, hjob.length_input]
            simp [WriteJob.base, WriteJob.size]
          · intro j hj
            exact ⟨hs.distinct j i buf' hj hown, rfl⟩
          · intro _
            simp [WriteJob.size]
    · cases hstep
      apply (hs.alloc _).take hspot rfl rfl rfl (Nat.lt_succ_self _)
      · rw [payload, State.alloc]
        dsimp only
        rw [update_self, hjob.slice_eq, List.take_take, min_self]
      · intro j hj
        have := (hs.buffers j _ hj).1
        simp at this
      · nofun
  case h_13 job sent keep err =>
    cases hstep
    exact hs.leave hspot
  case h_14 => contradiction

theorem Sound.step {a : Action} (hstep : s.step cfg a = some s') :
  s'.Sound cfg
  := by
  cases a with
  | start i c =>
      obtain ⟨hidle, rfl⟩ := Run.guard hstep
      apply hs.start hidle
  | advance i o => apply hs.advance hstep
  | close | closeWrite =>
      cases hstep
      exact ⟨hs.lock, hs.parts, hs.offset, hs.sizes, hs.buffers, hs.distinct, hs.calls, hs.accepted,
        hs.block⟩

end

theorem sound_of_run (hrun : Run (step cfg) (fun _ _ => True) {} s) :
  s.Sound cfg
  := by
  refine hrun.invariant (I := fun s => s.Sound cfg) ?_ (sound_init cfg)
  intro s a s' hs _ hstep
  apply hs.step hstep

end

/-- What calls of `Write` and `ReadFrom` on one channel queue, whatever credit they are granted,
whatever their sources give and however they interleave.  The frames are consecutive chunks of
the stream, from its start to the offset of the next frame, but for a frame whose offset has been
taken and that is about to be queued, and each of them has a byte at least and fits a frame.
What a `Write` has queued is one piece of the stream.  What a call has queued are the first bytes
it had to send, and it returns how many they are. -/
theorem cut_without_gaps (cfg : SessionConfig) (s : State)
    (hrun : Run (step cfg) (fun _ _ => True) {} s) :
  (s.taken.map (fun q => (q.offset, s.payload q)) = chunks 0 (s.taken.map s.payload)
      ∧ s.writeOffset = (s.taken.map s.payload).flatten.length
      ∧ (s.writeMu = none → s.taken = s.queued)
      ∧ ∀ q ∈ s.queued, 1 ≤ q.length ∧ q.length ≤ cfg.maxFrameDataSize
        ∧ (s.payload q).length = q.length)
    ∧ (∀ i b, s.call i = some (.write b) → s.input i = b
      ∧ ∃ before after, s.queued = before ++ s.framesOf i ++ after)
    ∧ (∀ i, s.accepted i <+: s.input i)
    ∧ ∀ i n err, s.spot i = .returned n err → n = ((s.framesOf i).map Queued.length).sum
  := by
  have hs := sound_of_run hrun
  have hlength : ∀ q ∈ s.queued, (s.payload q).length = q.length := by
    intro q hq
    exact (hs.sizes q (List.mem_append_left _ hq)).2.2.1
  refine ⟨⟨hs.parts, hs.offset, ?_, ?_⟩, ?_, ?_, ?_⟩
  · intro hfree
    simp [taken, hand, hfree]
  · intro q hq
    obtain ⟨hpos, hle, hlen, -⟩ := hs.sizes q (List.mem_append_left _ hq)
    exact ⟨hpos, hle, hlen⟩
  · intro i b hb
    obtain ⟨before, after, heq, -⟩ := hs.block i b hb
    exact ⟨hs.input_eq hb, before, after, heq⟩
  · intro i
    rw [hs.accepted]
    apply List.take_prefix
  · intro i n err hreturned
    have hcalls := hs.calls i
    have haccepted := congrArg List.length (hs.accepted i)
    rw [hreturned] at hcalls haccepted
    rw [List.length_take, Spot.count, min_eq_left hcalls.2.1, State.accepted,
      List.length_flatten, List.map_map] at haccepted
    rw [← haccepted]
    congr 1
    apply List.map_congr_left
    intro q hq
    apply hlength q (List.mem_of_mem_filter hq)

/-- Two calls, of which one reads from a source, share a channel. -/
theorem cut_without_gaps_two_calls :
  ∃ s, Run (step { defaultConfig with maxFrameDataSize := 4 }.newSession) (fun _ _ => True) {} s
    ∧ s.queued.map (fun q => (q.call, q.offset, s.payload q))
      = [(0, 0, [1, 2, 3, 4]), (0, 4, [5]), (1, 5, [7, 8])]
    ∧ s.spot 1 = .returned 2 none
    ∧ 2 = ((s.framesOf 1).map Queued.length).sum
  := by
  obtain ⟨s, hrun, hqueued, hreturned⟩ := Run.exists_of_exec
    (step { defaultConfig with maxFrameDataSize := 4 }.newSession) (fun _ _ => True) {}
    (List.flatten
      [[.start 0 (.write [1, 2, 3, 4, 5]), .start 1 .readFrom],
      List.replicate 4 (.advance 0 .go), List.replicate 3 (.advance 1 .go),
      [.advance 0 (.grant 4), .advance 1 (.source [7, 8, 9, 9] 2 (some .eof))],
      List.replicate 2 (.advance 0 .go), [.advance 0 (.grant 1)],
      List.replicate 4 (.advance 0 .go), List.replicate 2 (.advance 1 .go),
      [.advance 1 (.grant 2)], List.replicate 4 (.advance 1 .go)])
    (fun s => s.queued.map (fun q => (q.call, q.offset, s.payload q))
        = [(0, 0, [1, 2, 3, 4]), (0, 4, [5]), (1, 5, [7, 8])]
      ∧ s.spot 1 = .returned 2 none)
    (by decide +kernel)
  exact ⟨s, hrun, hqueued, hreturned, (cut_without_gaps _ s hrun).2.2.2 1 2 none hreturned⟩

end State

end Cutting

end Muxocket
