import Muxocket.Delivery
import Muxocket.Lib.Intervals

/-!
# What a channel keeps for reassembly

A channel keeps the chunks that come too early, each under its offset, and feeds one of them when
it reads exactly at this offset.  A chunk that starts more than `maxReorderBytes` ahead of where
the channel reads is dropped.  This bounds the number of bytes that are kept if the chunks that
are kept do not overlap, as those of an honest peer.  Chunks that overlap may start at every
single offset, and when the channel has read past the offset of a chunk it is kept for good.
-/

namespace Muxocket

/-! ### What the parts of a call leave of the chunks that are kept -/

namespace Session

variable (cfg : SessionConfig)

theorem heap_sessionOnRead (n : Int) (s : Session) :
  (s.sessionOnRead cfg n).heap = s.heap
  := by
  unfold sessionOnRead flushSessionUpdate writeControlFrameNonBlocking
  grind

theorem reading_dropFed (h n : Nat) (s : Session) :
  ((s.dropFed cfg h n).heap h).reading = (s.heap h).reading
  := by
  unfold dropFed creditSession
  split
  · rw [heap_sessionOnRead, heap_update_self]
    rfl
  · rw [heap_update_self]
    rfl

theorem reading_resetPeer (force : Bool) (h : Nat) (s : Session) :
  ((s.resetPeer cfg force h).heap h).reading = (s.heap h).reading
  := by
  obtain ⟨lastRst, hheap⟩ := Station.heap_resetPeer cfg s force h
  rw [hheap]
  rfl

theorem reading_sendAck (h offset : Nat) (s : Session) :
  ((s.sendAck cfg h offset).heap h).reading = (s.heap h).reading
  := by
  unfold sendAck writeControlFrameNonBlocking
  dsimp only
  grind [Channel.reading, heap_update_self]

theorem reading_push (p : Bytes) (c : Channel) :
  (c.push p).reading = c.reading
  := by
  unfold Channel.push
  split <;> rfl

theorem reading_feed (h : Nat) (p : Bytes) (s : Session) :
  ((s.feed cfg h p).heap h).reading = (s.heap h).reading
  := by
  unfold feed
  split_ifs
  · rw [push, heap_update_self, reading_push]
  · apply reading_resetPeer
  · rfl

theorem reading_feedNext (h : Nat) (p : Bytes) (s : Session) :
  ((s.feedNext cfg h p).heap h).reading
    = ((s.heap h).reorderMap, (s.heap h).readOffset + p.length)
  := by
  have hfed : ((if s.takes h then s.feed cfg h p
      else (s.feed cfg h p).dropFed cfg h p.length).heap h).reading = (s.heap h).reading := by
    split
    · apply reading_feed
    · rw [reading_dropFed, reading_feed]
  obtain ⟨hmap, hoffset⟩ := Prod.mk.inj hfed
  unfold feedNext
  rw [heap_update_self]
  simp only [Channel.reading, hmap, hoffset]

theorem reading_scheduleDelayedAck (h offset : Nat) (s : Session) :
  ((s.scheduleDelayedAck cfg h offset).heap h).reading = (s.heap h).reading
  := by
  unfold scheduleDelayedAck
  dsimp only
  split_ifs
  · rw [heap_update_self]
    rfl
  · rw [reading_sendAck, heap_update_self]
    rfl
  · rw [heap_update_self]
    rfl
  · rw [heap_update_self, heap_update_self]
    rfl

theorem reading_ackInOrder (h length : Nat) (s : Session) :
  ((s.ackInOrder cfg h length).heap h).reading = (s.heap h).reading
  := by
  unfold ackInOrder
  dsimp only
  split_ifs
  · apply reading_sendAck
  · rw [reading_sendAck, heap_update_self]
    rfl
  · rw [reading_scheduleDelayedAck, heap_update_self]
    rfl

theorem reading_finalize (h : Nat) (s : Session) :
  ((s.finalize cfg h).heap h).reading = (s.heap h).reading
    ∨ ((s.finalize cfg h).heap h).reorderMap = none
  := by
  unfold finalize
  split
  · exact Or.inl rfl
  · right
    have hclean : ((s.cleanupReliability h).heap h).reorderMap = none := by
      simp [cleanupReliability]
    rw [(heap_removeChannelIf _ _ _).1, heap_update_self, closeRing, heap_update_self]
    dsimp only
    split
    · exact hclean
    · exact hclean

theorem reading_closeFinished (h : Nat) (s : Session) :
  ((s.closeFinished cfg h).heap h).reading = (s.heap h).reading
    ∨ ((s.closeFinished cfg h).heap h).reorderMap = none
  := by
  have hupdate : ((s.update h fun c => { c with drainable := true, readDone := true }).heap
      h).reading = (s.heap h).reading := by
    rw [heap_update_self]
    rfl
  unfold closeFinished remoteClose maybeFinalize
  split_ifs
  · apply (reading_finalize cfg h _).imp_left
    exact fun heq => heq.trans hupdate
  · exact Or.inl hupdate
  · exact Or.inl rfl

end Session

/-! ### Chunks that lie apart -/

/-- The chunks `m` that a channel keeps that reads at `offset`: they lie ahead of it, but not too
far, and apart from each other. -/
structure Stowed (cfg : SessionConfig) (m : AList fun _ : Nat => Bytes) (offset : Nat) : Prop where
  ahead : ∀ o p, m.lookup o = some p → offset ≤ o
  near : ∀ o p, m.lookup o = some p → o ≤ offset + cfg.maxReorderBytes
  size : ∀ o p, m.lookup o = some p → p.length ≤ cfg.maxFrameDataSize
  apart : ∀ o p o' p', m.lookup o = some p → m.lookup o' = some p' → o < o' → o + p.length ≤ o'

/-- The number of bytes a channel keeps for reassembly. -/
def Channel.heldBytes (c : Channel) : Nat :=
  match c.reorderMap with
  | some m => (m.entries.map fun e => e.2.length).sum
  | none => 0

/-- The chunks of a channel are stowed, and none of them could be fed. -/
def Channel.Shelved (cfg : SessionConfig) (c : Channel) : Prop :=
  ∀ m, c.reorderMap = some m → Stowed cfg m c.readOffset ∧ m.lookup c.readOffset = none

namespace Stowed

variable {cfg : SessionConfig} {m : AList fun _ : Nat => Bytes} {offset : Nat}

section

variable (hm : Stowed cfg m offset)

include hm

/-- What is stowed has a bound. -/
theorem sum_le (hnone : m.lookup offset = none) :
  (m.entries.map fun e => e.2.length).sum ≤ cfg.maxReorderBytes + cfg.maxFrameDataSize
  := by
  have hlookup : ∀ e ∈ m.entries, m.lookup e.1 = some e.2 := fun e he =>
    AList.mem_lookup_iff.mpr he
  have hstrict : ∀ e ∈ m.entries, offset < e.1 := by
    intro e he
    have hle := hm.ahead e.1 e.2 (hlookup e he)
    have hne : offset ≠ e.1 := by
      intro heq
      rw [heq, hlookup e he] at hnone
      contradiction
    omega
  have hlimits : (offset + cfg.maxReorderBytes + cfg.maxFrameDataSize) - (offset + 1)
      ≤ cfg.maxReorderBytes + cfg.maxFrameDataSize := by
    omega
  refine le_trans (sum_length_le_of_apart (fun e => e.1) _ m.nodupKeys.nodup ?_ ?_ ?_) hlimits
  · intro e he
    have hnear := hm.near e.1 e.2 (hlookup e he)
    have hsize := hm.size e.1 e.2 (hlookup e he)
    have := hstrict e he
    omega
  · rintro ⟨o, p⟩ he ⟨o', p'⟩ he' heq
    obtain rfl : o = o' := heq
    have hsame := (hlookup ⟨o, p⟩ he).symm.trans (hlookup ⟨o, p'⟩ he')
    obtain rfl : p = p' := Option.some.inj hsame
    rfl
  · intro e he e' he' hlt
    exact hm.apart e.1 e.2 e'.1 e'.2 (hlookup e he) (hlookup e' he') hlt

/-- A channel goes on reading behind a chunk that lies apart from what is stowed. -/
theorem advance {n : Nat} (hahead : ∀ o p, m.lookup o = some p → offset + n ≤ o) :
  Stowed cfg m (offset + n)
  := by
  refine ⟨hahead, fun o p hp => ?_, hm.size, hm.apart⟩
  have := hm.near o p hp
  omega

/-- A chunk that can be fed is taken away. -/
theorem erase {p : Bytes} (hp : m.lookup offset = some p) :
  Stowed cfg (m.erase offset) (offset + p.length)
  := by
  have hold : ∀ o q, (m.erase offset).lookup o = some q → o ≠ offset ∧ m.lookup o = some q := by
    intro o q hq
    have hne : o ≠ offset := by
      rintro rfl
      simp at hq
    rw [AList.lookup_erase_ne hne] at hq
    exact ⟨hne, hq⟩
  have herase : Stowed cfg (m.erase offset) offset := by
    refine ⟨?_, ?_, ?_, ?_⟩
    · exact fun o q hq => hm.ahead o q (hold o q hq).2
    · exact fun o q hq => hm.near o q (hold o q hq).2
    · exact fun o q hq => hm.size o q (hold o q hq).2
    · exact fun o q o' q' hq hq' => hm.apart o q o' q' (hold o q hq).2 (hold o' q' hq').2
  apply herase.advance
  intro o q hq
  obtain ⟨hne, hq⟩ := hold o q hq
  have hle := hm.ahead o q hq
  exact hm.apart offset p o q hp hq (by omega)

/-- A chunk that lies apart is stowed. -/
theorem insert {o : Nat} {p : Bytes} (hahead : offset ≤ o)
    (hnear : o ≤ offset + cfg.maxReorderBytes) (hsize : p.length ≤ cfg.maxFrameDataSize)
    (hapart : ∀ o' p', m.lookup o' = some p' → o' + p'.length ≤ o ∨ o + p.length ≤ o') :
  Stowed cfg (m.insert o p) offset
  := by
  have hcases : ∀ o' p', (m.insert o p).lookup o' = some p' →
      o' = o ∧ p' = p ∨ m.lookup o' = some p' := by
    intro o' p' hp'
    by_cases heq : o' = o
    · subst heq
      rw [AList.lookup_insert] at hp'
      exact Or.inl ⟨rfl, (Option.some.inj hp').symm⟩
    · rw [AList.lookup_insert_ne heq] at hp'
      exact Or.inr hp'
  constructor
  · intro o' p' hp'
    obtain ⟨rfl, -⟩ | hold := hcases o' p' hp'
    · exact hahead
    · exact hm.ahead o' p' hold
  · intro o' p' hp'
    obtain ⟨rfl, -⟩ | hold := hcases o' p' hp'
    · exact hnear
    · exact hm.near o' p' hold
  · intro o' p' hp'
    obtain ⟨-, rfl⟩ | hold := hcases o' p' hp'
    · exact hsize
    · exact hm.size o' p' hold
  · intro o₁ p₁ o₂ p₂ h₁ h₂ hlt
    obtain ⟨rfl, rfl⟩ | hold₁ := hcases o₁ p₁ h₁
    · obtain ⟨rfl, -⟩ | hold₂ := hcases o₂ p₂ h₂
      · omega
      · have := hapart o₂ p₂ hold₂
        omega
    · obtain ⟨rfl, rfl⟩ | hold₂ := hcases o₂ p₂ h₂
      · have := hapart o₁ p₁ hold₁
        omega
      · exact hm.apart o₁ p₁ o₂ p₂ hold₁ hold₂ hlt

end

end Stowed

namespace Session

variable {cfg : SessionConfig} {h : Nat}

/-- Feeding the chunks that came early leaves the others stowed, and none that could be fed. -/
theorem shelved_feedWaiting (fuel : Nat) {s : Session} {m : AList fun _ : Nat => Bytes}
    (hmap : (s.heap h).reorderMap = some m) (hm : Stowed cfg m (s.heap h).readOffset)
    (hfuel : m.entries.length ≤ fuel) :
  ((s.feedWaiting cfg h fuel).heap h).Shelved cfg
  := by
  induction fuel generalizing s m with
  | zero =>
      intro m' hm'
      obtain rfl : m = m' := Option.some.inj (hmap.symm.trans hm')
      use hm
      cases hp : m.lookup (s.heap h).readOffset with
      | none => exact hp
      | some p =>
          have := (perm_erase_entries hp).length_eq
          rw [List.length_cons] at this
          omega
  | succ fuel ih =>
      unfold feedWaiting
      split
      · rename_i hnone
        intro m' hm'
        obtain rfl : m = m' := Option.some.inj (hmap.symm.trans hm')
        use hm
        simpa [waiting, hmap] using hnone
      · rename_i p hp
        have hp : m.lookup (s.heap h).readOffset = some p := by
          simpa [waiting, hmap] using hp
        have hreading := reading_feedNext cfg h p (s.update h fun c =>
          { c with reorderMap := c.reorderMap.map (·.erase c.readOffset) })
        rw [heap_update_self] at hreading
        obtain ⟨hmap', hoffset⟩ := Prod.mk.inj hreading
        dsimp only at hmap' hoffset
        rw [hmap, Option.map_some] at hmap'
        apply ih hmap'
        · rw [hoffset]
          exact hm.erase hp
        · have := (perm_erase_entries hp).length_eq
          rw [List.length_cons] at this
          omega

end Session

theorem Channel.Shelved.of_reading {cfg : SessionConfig} {c c' : Channel} (hc : c.Shelved cfg)
    (h : c'.reading = c.reading ∨ c'.reorderMap = none) :
  c'.Shelved cfg
  := by
  obtain hsame | hnone := h
  · obtain ⟨hmap, hoffset⟩ := Prod.mk.inj hsame
    intro m hm
    rw [hoffset]
    apply hc
    rw [← hmap, hm]
  · intro m hm
    rw [hnone] at hm
    contradiction

/-- The chunk `p` at `offset` lies apart from every chunk that a channel keeps under another
offset, or before where the channel reads. -/
def Channel.LiesApart (c : Channel) (offset : Nat) (p : Bytes) : Prop :=
  c.readOffset ≤ offset → ∀ m, c.reorderMap = some m →
    ∀ o q, m.lookup o = some q → o = offset ∨ o + q.length ≤ offset ∨ offset + p.length ≤ o

namespace Session

variable {cfg : SessionConfig} {h : Nat}

section

variable {s : Session} {p : Bytes} (hs : (s.heap h).Shelved cfg)

include hs

theorem shelved_feedInOrder (hapart : (s.heap h).LiesApart (s.heap h).readOffset p)
    (hmap : (s.heap h).reorderMap.isSome = true) :
  ((s.feedInOrder cfg h p).heap h).Shelved cfg
  := by
  obtain ⟨m, hm⟩ := Option.isSome_iff_exists.mp hmap
  obtain ⟨hstowed, hnone⟩ := hs m hm
  have hahead : ∀ o q, m.lookup o = some q → (s.heap h).readOffset + p.length ≤ o := by
    intro o q hq
    have hle := hstowed.ahead o q hq
    obtain rfl | hbefore | hafter := hapart le_rfl m hm o q hq
    · rw [hq] at hnone
      contradiction
    · obtain rfl : o = (s.heap h).readOffset := by omega
      rw [hq] at hnone
      contradiction
    · exact hafter
  have hfed : ((if s.takes h then s.feedNext cfg h p
      else (s.feedNext cfg h p).resetPeer cfg false h).heap h).reading
      = (some m, (s.heap h).readOffset + p.length) := by
    split
    · rw [reading_feedNext, hm]
    · rw [reading_resetPeer, reading_feedNext, hm]
  obtain ⟨hmap', hoffset⟩ := Prod.mk.inj hfed
  unfold feedInOrder
  apply Channel.Shelved.of_reading _ (reading_closeFinished cfg h _)
  apply Channel.Shelved.of_reading _ (Or.inl (reading_ackInOrder cfg h _ _))
  apply shelved_feedWaiting _ hmap'
  · rw [hoffset]
    exact hstowed.advance hahead
  · simp only [early, hmap', le_refl]

theorem shelved_keepEarly {offset : Nat} (hsize : p.length ≤ cfg.maxFrameDataSize)
    (hapart : (s.heap h).LiesApart offset p)
    (hahead : (s.heap h).readOffset < offset) :
  ((s.keepEarly cfg h offset p).heap h).Shelved cfg
  := by
  unfold keepEarly
  rw [heap_update_self]
  split
  · exact hs
  · rename_i m hm
    obtain ⟨hstowed, hnone⟩ := hs m hm
    split_ifs with hfar hhere
    · exact hs
    · exact hs
    · have hnew : m.lookup offset = none := by simpa using hhere
      intro m' hm'
      obtain rfl : m.insert offset p = m' := Option.some.inj hm'
      constructor
      · refine hstowed.insert hahead.le (by omega) hsize fun o q hq => ?_
        obtain rfl | hcases := hapart hahead.le m hm o q hq
        · rw [hq] at hnew
          contradiction
        · exact hcases
      · rw [AList.lookup_insert_ne hahead.ne]
        exact hnone

/-- A channel whose frames are so shelved stays so when it gets a chunk that lies apart from what
it keeps. -/
theorem shelved_feedReliablePayload {offset : Nat} (hsize : p.length ≤ cfg.maxFrameDataSize)
    (hapart : (s.heap h).LiesApart offset p) :
  ((s.feedReliablePayload cfg h offset p).heap h).Shelved cfg
  := by
  unfold feedReliablePayload
  dsimp only
  split_ifs with hnone hold hnext hahead
  · exact hs.of_reading (Or.inl (reading_dropFed cfg h _ s))
  · exact hs.of_reading (Or.inl (reading_sendAck cfg h _ s))
  · subst hnext
    apply shelved_feedInOrder hs hapart
    apply Option.isSome_iff_ne_none.mpr
    simpa using hnone
  · apply Channel.Shelved.of_reading _ (Or.inl (reading_sendAck cfg h _ _))
    apply shelved_keepEarly hs hsize hapart hahead
  · exact hs.of_reading (Or.inl (reading_sendAck cfg h _ s))

end

end Session

/-! ### What is kept has a bound -/

namespace Reordering

/-- What happens to a session: the channel is fed a chunk, or something else. -/
inductive Action where
  | feed (offset : Nat) (p : Bytes)
  | other (f : Session → Session)

/-- A step of the session of channel `h`. -/
def step (cfg : SessionConfig) (h : Nat) (s : Session) : Action → Option Session
  | .feed offset p => some (s.feedReliablePayload cfg h offset p)
  | .other f => some (f s)

/-- What a peer and the rest of the program can do: the chunks of a peer are not longer than a
frame, and nothing else feeds the channel or gives it chunks to keep. -/
def Possible (cfg : SessionConfig) (h : Nat) (s : Session) : Action → Prop
  | .feed _ p => p.length ≤ cfg.maxFrameDataSize
  | .other f => ((f s).heap h).readOffset = (s.heap h).readOffset
      ∧ (((f s).heap h).reorderMap = (s.heap h).reorderMap ∨ ((f s).heap h).reorderMap = none)

/-- A step by which the channel gets no chunk that overlaps one it keeps. -/
def Untangled (h : Nat) (s : Session) : Action → Prop
  | .feed offset p => (s.heap h).LiesApart offset p
  | .other _ => True

/-- What a channel keeps has a bound, and it keeps nothing that it has read past. -/
def Bounded (cfg : SessionConfig) (c : Channel) : Prop :=
  c.heldBytes ≤ cfg.maxReorderBytes + cfg.maxFrameDataSize
    ∧ ∀ m, c.reorderMap = some m → ∀ o q, m.lookup o = some q → c.readOffset < o + q.length

theorem bounded_of_shelved {cfg : SessionConfig} {c : Channel} (hc : c.Shelved cfg) :
  Bounded cfg c
  := by
  constructor
  · unfold Channel.heldBytes
    split
    · rename_i m hm
      obtain ⟨hstowed, hnone⟩ := hc m hm
      exact hstowed.sum_le hnone
    · exact Nat.zero_le _
  · intro m hm o q hq
    obtain ⟨hstowed, hnone⟩ := hc m hm
    have hle := hstowed.ahead o q hq
    have hne : o ≠ c.readOffset := by
      rintro rfl
      rw [hq] at hnone
      contradiction
    omega

/-- What a channel keeps for reassembly has a bound in every run in which it gets no chunk that
overlaps one it keeps. -/
theorem bounded_of_untangled
    (cfg : SessionConfig) (h : Nat) (s₀ s : Session) (hnew : (s₀.heap h).reorderMap = some ∅)
    (hrun : Run (step cfg h) (fun s a => Possible cfg h s a ∧ Untangled h s a) s₀ s) :
  Bounded cfg (s.heap h)
  := by
  apply bounded_of_shelved
  refine hrun.invariant (I := fun s => (s.heap h).Shelved cfg) ?_ ?_
  · rintro s (⟨offset, p⟩ | f) s' hs ⟨hpossible, huntangled⟩ hstep
    · cases hstep
      apply Session.shelved_feedReliablePayload hs hpossible huntangled
    · cases hstep
      obtain ⟨hoffset, hmap⟩ := hpossible
      apply hs.of_reading
      exact hmap.imp_left fun hmap => Prod.ext hmap hoffset
  · intro m hm
    obtain rfl : ∅ = m := Option.some.inj (hnew.symm.trans hm)
    refine ⟨⟨?_, ?_, ?_, ?_⟩, rfl⟩ <;> simp

/-- Settings with a stream window of one byte and frames of four. -/
def tinyConfig : SessionConfig :=
  { defaultConfig with
    initialStreamWindow := 1, maxFrameDataSize := 4, reliability := true }.newSession

/-- The third byte of a stream comes first, and then the second.  Both are kept. -/
theorem bounded_of_untangled_two_bytes :
  ∃ s, Run (step tinyConfig 0) (fun s a => Possible tinyConfig 0 s a ∧ Untangled 0 s a)
      (newSession tinyConfig 0) s
    ∧ (s.heap 0).heldBytes = 2 ∧ Bounded tinyConfig (s.heap 0)
  := by
  have hfirst : Run (step tinyConfig 0)
      (fun s a => Possible tinyConfig 0 s a ∧ Untangled 0 s a) (newSession tinyConfig 0)
      ((newSession tinyConfig 0).feedReliablePayload tinyConfig 0 2 [8]) := by
    refine Run.tail (.feed 2 [8]) (Run.refl _) ⟨by unfold Possible; decide, ?_⟩ rfl
    intro _ m hm o q hq
    obtain rfl : ∅ = m := Option.some.inj hm
    contradiction
  have hkept : ((((newSession tinyConfig 0).feedReliablePayload tinyConfig 0 2 [8]).heap
      0).reorderMap.map AList.entries) = some [⟨2, [8]⟩] := by
    decide +kernel
  have hrun := Run.tail (.feed 1 [7]) hfirst ⟨by unfold Possible; decide, ?_⟩ rfl
  · refine ⟨_, hrun, by decide +kernel, ?_⟩
    exact bounded_of_untangled tinyConfig 0 _ _ rfl hrun
  · intro _ m hm o q hq
    rw [hm, Option.map_some, Option.some.injEq] at hkept
    have hmem := AList.mem_lookup_iff.mp hq
    rw [hkept, List.mem_singleton] at hmem
    cases hmem
    decide

/-- The session of channel `h` when the channel has been fed chunks. -/
def feedAll (cfg : SessionConfig) (h : Nat) (chunks : List (Nat × Bytes)) (s : Session) : Session :=
  chunks.foldl (fun s f => s.feedReliablePayload cfg h f.1 f.2) s

theorem run_feedAll {cfg : SessionConfig} {h : Nat} (chunks : List (Nat × Bytes))
    (hsize : ∀ f ∈ chunks, f.2.length ≤ cfg.maxFrameDataSize) (s : Session) :
  Run (step cfg h) (Possible cfg h) s (feedAll cfg h chunks s)
  := by
  induction chunks generalizing s with
  | nil => apply Run.refl
  | cons f chunks ih =>
      apply Run.head (a := .feed f.1 f.2) (hsize f List.mem_cons_self) rfl
      exact ih (fun g hg => hsize g (List.mem_cons_of_mem f hg)) _

/-- Two chunks that overlap, and then the beginning of the stream: the channel keeps eight bytes,
where six are the bound, and it has read past all of them. -/
theorem not_bounded_overlapping :
  ∃ s, Run (step tinyConfig 0) (Possible tinyConfig 0) (newSession tinyConfig 0) s
    ∧ ¬ (s.heap 0).heldBytes ≤ tinyConfig.maxReorderBytes + tinyConfig.maxFrameDataSize
    ∧ ∃ o q, ((s.heap 0).reorderMap.bind fun m => m.lookup o) = some q
      ∧ ¬ (s.heap 0).readOffset < o + q.length
  := by
  refine ⟨_, run_feedAll [(1, [1, 2, 3, 4]), (2, [2, 3, 4, 5]), (0, [0, 1, 2, 3]),
    (4, [4, 5, 6, 7])] (by decide) _, by decide +kernel, ?_⟩
  refine ⟨1, [1, 2, 3, 4], ?_, ?_⟩ <;> decide +kernel

end Reordering

end Muxocket
