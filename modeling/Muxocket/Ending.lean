import Muxocket.Reading
import Muxocket.Sending

/-!
# Closed sessions

What a session does after it has been closed: it ends its channels, its writer flushes what is
queued, and its readers read what is left in the rings.  None of this adds to the streams it
has written, and none of it queues frames.
-/

namespace Muxocket

/-! ### The frames of a batch -/

/-- A frame of the control queue that is neither part of a stream nor the goodbye of a
session. -/
structure WriteFrame.Aside (f : WriteFrame) : Prop where
  data : f.flag ≠ .data
  fin : f.flag ≠ .fin
  goaway : f.flag ≠ .goaway
  pBuf : f.pBuf = none

variable {f : WriteFrame}

theorem WriteFrame.Control.aside {s : Session} (hf : f.Control s) :
  f.Aside
  := by
  cases hf with
  | plain hplain =>
      obtain ⟨hflag, heq⟩ := hplain
      rcases hflag with hflag | hflag | hflag <;>
        exact ⟨by simp [hflag], by simp [hflag], by simp [hflag], by rw [heq]⟩
  | _ => exact ⟨by simp, by simp, by simp, rfl⟩

/-- A frame is a part of a stream that is queued in `writes`, or is none. -/
def WriteFrame.From (writes : List WriteFrame) (f : WriteFrame) : Prop :=
  f.Aside ∨ f.Stream ∧ f ∈ writes

theorem WriteFrame.From.aside {writes : List WriteFrame} (hf : f.From writes)
    (hdata : f.flag ≠ .data) (hfin : f.flag ≠ .fin) :
  f.Aside
  := by
  rcases hf with hf | ⟨hstream, -⟩
  · exact hf
  · cases hstream with
    | data => exact absurd rfl hdata
    | fin => exact absurd rfl hfin

theorem from_mergeInto {writes out : List WriteFrame} (hout : ∀ g ∈ out, g.From writes)
    (hf : f.From writes) :
  ∀ g ∈ mergeInto out f, g.From writes
  := by
  intro g hg
  rcases mem_mergeInto hg with hg | rfl | ⟨k, hk, hflag, -, ⟨hack, rfl⟩ | ⟨hupd, rfl⟩⟩
  · exact hout g hg
  · exact hf
  · have haside := (hout k hk).aside (by simp [hflag, hack]) (by simp [hflag, hack])
    exact .inl ⟨haside.data, haside.fin, haside.goaway, haside.pBuf⟩
  · have haside := (hout k hk).aside (by simp [hflag, hupd]) (by simp [hflag, hupd])
    exact .inl ⟨haside.data, haside.fin, haside.goaway, haside.pBuf⟩

namespace Session

/-! ### What lasts -/

/-- The two sessions have the same channels, which have written the same streams. -/
structure SameStreams (s s' : Session) : Prop where
  next : s'.next = s.next
  author : ∀ h, (s'.heap h).id = (s.heap h).id ∧ (s'.heap h).sent = (s.heap h).sent
    ∧ (s'.heap h).finSent = (s.heap h).finSent

/-- What a session keeps when it does not write, open or receive: its streams, and its marks.
Nothing is queued. -/
structure Lasts (s s' : Session) : Prop extends SameStreams s s' where
  closed : s'.closed = s.closed
  goAwayRecv : s'.goAwayRecv = s.goAwayRecv
  writes : s'.writes ⊆ s.writes
  ctrl : s'.ctrlQueue ⊆ s.ctrlQueue

theorem Lasts.refl (s : Session) :
  s.Lasts s
  := ⟨⟨rfl, fun _ => ⟨rfl, rfl, rfl⟩⟩, rfl, rfl, fun _ h => h, fun _ h => h⟩

variable {s s' s₁ s₂ s₃ : Session}

theorem SameStreams.trans (h : s₁.SameStreams s₂) (h' : s₂.SameStreams s₃) :
  s₁.SameStreams s₃
  where
  next := h'.next.trans h.next
  author k := ⟨(h'.author k).1.trans (h.author k).1, (h'.author k).2.1.trans (h.author k).2.1,
    (h'.author k).2.2.trans (h.author k).2.2⟩

theorem Lasts.trans (h : s₁.Lasts s₂) (h' : s₂.Lasts s₃) :
  s₁.Lasts s₃
  where
  toSameStreams := h.toSameStreams.trans h'.toSameStreams
  closed := h'.closed.trans h.closed
  goAwayRecv := h'.goAwayRecv.trans h.goAwayRecv
  writes := fun _ hf => h.writes (h'.writes hf)
  ctrl := fun _ hf => h.ctrl (h'.ctrl hf)

theorem lasts_update {k : Nat} {f : Channel → Channel} (hid : (f (s.heap k)).id = (s.heap k).id)
    (hsent : (f (s.heap k)).sent = (s.heap k).sent)
    (hfin : (f (s.heap k)).finSent = (s.heap k).finSent) :
  s.Lasts (s.update k f)
  := by
  refine ⟨⟨rfl, fun h => ?_⟩, rfl, rfl, fun _ h => h, fun _ h => h⟩
  by_cases hk : h = k
  · subst hk
    rw [heap_update_self]
    exact ⟨hid, hsent, hfin⟩
  · rw [heap_update_of_ne hk]
    exact ⟨rfl, rfl, rfl⟩

/-- What the writer of a session leaves as it is, besides: the table, and what concerns the
readers. -/
structure Flushes (s s' : Session) : Prop extends Lasts s s' where
  channels : s'.channels = s.channels
  ring : ∀ h, (s'.heap h).ring = (s.heap h).ring
  marks : ∀ h, (s'.heap h).closed = (s.heap h).closed ∧ (s'.heap h).readDone = (s.heap h).readDone
    ∧ (s'.heap h).drainable = (s.heap h).drainable
  delivered : ∀ h, (s'.heap h).delivered = (s.heap h).delivered

theorem Flushes.refl (s : Session) :
  s.Flushes s
  := ⟨.refl s, rfl, fun _ => rfl, fun _ => ⟨rfl, rfl, rfl⟩, fun _ => rfl⟩

theorem Flushes.trans (h : s₁.Flushes s₂) (h' : s₂.Flushes s₃) :
  s₁.Flushes s₃
  where
  toLasts := h.toLasts.trans h'.toLasts
  channels := h'.channels.trans h.channels
  ring k := (h'.ring k).trans (h.ring k)
  marks k := ⟨(h'.marks k).1.trans (h.marks k).1, (h'.marks k).2.1.trans (h.marks k).2.1,
    (h'.marks k).2.2.trans (h.marks k).2.2⟩
  delivered k := (h'.delivered k).trans (h.delivered k)

theorem flushes_update {k : Nat} {g : Channel → Channel} (hg : ∃ sf ackPending,
      g (s.heap k) = { s.heap k with flow := sf, ackPending := ackPending }) :
  s.Flushes (s.update k g)
  := by
  obtain ⟨sf, ackPending, hg⟩ := hg
  have hheap : ∀ h, ∃ sf ackPending,
      (s.update k g).heap h = { s.heap h with flow := sf, ackPending := ackPending } := by
    intro h
    by_cases hk : h = k
    · subst hk
      rw [heap_update_self]
      exact ⟨sf, ackPending, hg⟩
    · rw [heap_update_of_ne hk]
      exact ⟨_, _, rfl⟩
  have hlasts : s.Lasts (s.update k g) := by
    apply lasts_update <;> rw [hg]
  refine ⟨hlasts, rfl, fun h => ?_, fun h => ?_, fun h => ?_⟩ <;>
    obtain ⟨sf, ackPending, heq⟩ := hheap h <;> simp [heq]

/-- The streams of the session are as they were. -/
theorem SameStreams.sentBy_eq (h : s.SameStreams s') (id : Nat) :
  s'.sentBy id = s.sentBy id
  := by
  have hauthor : s'.author id = s.author id := by
    unfold Session.author
    rw [h.next]
    congr 1
    funext k
    rw [(h.author k).1]
  unfold sentBy ofAuthor
  rw [hauthor]
  congr 2
  funext k
  rw [(h.author k).2.1]

theorem SameStreams.ended_iff (h : s.SameStreams s') (id : Nat) :
  s'.Ended id ↔ s.Ended id
  := by
  unfold Ended
  rw [h.next]
  constructor
  · rintro ⟨k, hk, hid, hfin⟩
    exact ⟨k, hk, (h.author k).1.symm.trans hid, (h.author k).2.2.symm.trans hfin⟩
  · rintro ⟨k, hk, hid, hfin⟩
    exact ⟨k, hk, (h.author k).1.trans hid, (h.author k).2.2.trans hfin⟩

/-! ### The writer -/

theorem flushes_resolveFrame (f : WriteFrame) (s : Session) :
  s.Flushes (s.resolveFrame f).2
  := by
  have hack : ∀ s : Session, s.Flushes (s.resolveAck f).2 := by
    intro s
    unfold resolveAck
    split
    · dsimp only
      apply flushes_update
      exact ⟨_, _, rfl⟩
    · exact .refl s
  have hstream : ∀ (f : WriteFrame) (s : Session), s.Flushes (s.resolveStreamUpd f).2 := by
    intro f s
    unfold resolveStreamUpd
    split
    · dsimp only
      apply flushes_update
      exact ⟨_, _, rfl⟩
    · exact .refl s
  have hsession : ∀ (f : WriteFrame) (s : Session), s.Flushes (s.resolveSessionUpd f).2 := by
    intro f s
    unfold resolveSessionUpd
    split
    · exact ⟨⟨⟨rfl, fun _ => ⟨rfl, rfl, rfl⟩⟩, rfl, rfl, fun _ h => h, fun _ h => h⟩, rfl,
        fun _ => rfl, fun _ => ⟨rfl, rfl, rfl⟩, fun _ => rfl⟩
    · exact .refl s
  have hboth := (hack s).trans (hstream (s.resolveAck f).1 (s.resolveAck f).2)
  unfold resolveFrame resolveUpd
  split
  · rename_i heq
    rw [heq] at hboth
    exact hboth
  · rename_i heq
    rw [heq] at hboth
    exact hboth.trans (hsession _ _)

/-- What becomes of a frame when it is resolved. -/
theorem from_resolveFrame {writes : List WriteFrame} {f g : WriteFrame} (hf : f.From writes)
    (hg : (s.resolveFrame f).1 = some g) :
  g.From writes
  := by
  rcases hf with haside | ⟨hstream, hmem⟩
  · left
    have hsame : g.flag = f.flag ∧ g.pBuf = f.pBuf := by
      unfold resolveFrame resolveUpd resolveAck resolveStreamUpd resolveSessionUpd at hg
      grind
    exact ⟨hsame.1 ▸ haside.data, hsame.1 ▸ haside.fin, hsame.1 ▸ haside.goaway,
      hsame.2.trans haside.pBuf⟩
  · right
    have hsame : g = f := by
      cases hstream with
      | _ =>
          rw [resolveFrame_plain rfl rfl rfl] at hg
          exact (Option.some.inj hg).symm
    exact hsame ▸ ⟨hstream, hmem⟩

theorem compactFrom_spec {writes : List WriteFrame} (frames : List WriteFrame) :
  ∀ (out : List WriteFrame) (s : Session), (∀ f ∈ out, f.From writes) →
    (∀ f ∈ frames, f.From writes) →
    (∀ f ∈ (s.compactFrom out frames).1, f.From writes) ∧ s.Flushes (s.compactFrom out frames).2
  := by
  induction frames with
  | nil => exact fun out s hout _ => ⟨hout, .refl s⟩
  | cons f frames ih =>
      intro out s hout hframes
      obtain ⟨hf, hrest⟩ := List.forall_mem_cons.mp hframes
      rw [compactFrom_cons]
      have hmerged : ∀ k ∈ (s.resolveFrame f).1.elim out (mergeInto out), k.From writes := by
        cases hg : (s.resolveFrame f).1 with
        | none => exact hout
        | some g => exact from_mergeInto hout (from_resolveFrame hf hg)
      obtain ⟨hfrom, hmore⟩ := ih _ _ hmerged hrest
      exact ⟨hfrom, (flushes_resolveFrame f s).trans hmore⟩

theorem flushes_queues {writes ctrlQueue : List WriteFrame} (hwrites : writes ⊆ s.writes)
    (hctrl : ctrlQueue ⊆ s.ctrlQueue) :
  s.Flushes { s with writes := writes, ctrlQueue := ctrlQueue }
  := ⟨⟨⟨rfl, fun _ => ⟨rfl, rfl, rfl⟩⟩, rfl, rfl, hwrites, hctrl⟩, rfl, fun _ => rfl,
    fun _ => ⟨rfl, rfl, rfl⟩, fun _ => rfl⟩

theorem flushes_collect {picks : List Bool} {frames : List WriteFrame}
    (hcollect : s.collect picks = some (frames, s')) :
  s.Flushes s'
  := by
  induction picks generalizing s frames with
  | nil =>
      cases hcollect
      exact .refl _
  | cons pick picks ih =>
      obtain ⟨f, q, rest, rfl, ⟨hq, hrest⟩ | ⟨hq, hrest⟩⟩ := collect_cons hcollect <;>
        refine (flushes_queues ?_ ?_).trans (ih hrest) <;> simp [hq]

/-- What the writer puts on the transport is part of a stream that was queued, or of none. -/
theorem writeBatch_spec {picks : List Bool} {packets : List PacketFrame}
    (hwrites : ∀ f ∈ s.writes, f.Stream) (hctrl : ∀ f ∈ s.ctrlQueue, f.Aside)
    (hbatch : s.writeBatch picks = some (packets, s')) :
  (∀ f ∈ packets, ∃ g : WriteFrame, g.From s.writes ∧ f = g.packet) ∧ s.Flushes s'
  := by
  unfold writeBatch at hbatch
  obtain ⟨-, hbatch⟩ := Option.ite_none_right_eq_some.mp hbatch
  obtain ⟨⟨frames, s₁⟩, hcollect, heq⟩ := Option.map_eq_some_iff.mp hbatch
  obtain ⟨rfl, rfl⟩ := Prod.mk.inj heq
  have hfrom : ∀ f ∈ frames, f.From s.writes := by
    intro f hf
    rcases Station.mem_collect hcollect hf with hf | hf
    · exact .inr ⟨hwrites f hf, hf⟩
    · exact .inl (hctrl f hf)
  obtain ⟨hout, hmore⟩ := compactFrom_spec frames [] s₁ nofun hfrom
  refine ⟨fun f hf => ?_, (flushes_collect hcollect).trans hmore⟩
  obtain ⟨g, hg, rfl⟩ := List.mem_map.mp hf
  exact ⟨g, hout g hg, rfl⟩

/-! ### Closed sessions -/

section

variable (cfg : SessionConfig) {s : Session}

section

variable (hclosed : s.closed = true)

include hclosed

theorem lasts_sessionOnRead (n : Int) :
  s.Lasts (s.sessionOnRead cfg n)
  := by
  have hsame : ∀ s' : Session, s'.heap = s.heap → s'.next = s.next → s'.closed = s.closed →
      s'.goAwayRecv = s.goAwayRecv → s'.writes = s.writes → s'.ctrlQueue = s.ctrlQueue →
      s.Lasts s' := by
    intro s' hheap hnext hclosed hgone hwrites hctrl
    exact ⟨⟨hnext, fun h => by simp [hheap]⟩, hclosed, hgone, by simp [hwrites], by simp [hctrl]⟩
  unfold sessionOnRead flushSessionUpdate writeControlFrameNonBlocking
  dsimp only
  rw [if_pos hclosed]
  split
  · split <;> exact hsame _ rfl rfl rfl rfl rfl rfl
  · exact hsame _ rfl rfl rfl rfl rfl rfl

theorem lasts_streamConsume (k : Nat) (n : Int) :
  s.Lasts (s.streamConsume cfg k n)
  := by
  have hconsume : s.Lasts (s.update k fun c => { c with flow := c.flow.consume n }) := by
    apply lasts_update <;> rfl
  unfold streamConsume
  dsimp only
  split
  · apply hconsume.trans
    generalize hs' : s.update k (fun c => { c with flow := c.flow.consume n }) = s' at *
    have hclosed' : s'.closed = true := hconsume.closed.trans hclosed
    have hflush : s'.Lasts (s'.update k fun c => { c with flow := c.flow.flushUpdate }) := by
      apply lasts_update <;> rfl
    unfold flushStreamUpdate writeControlFrameNonBlocking
    dsimp only
    rw [if_pos (hflush.closed.trans hclosed')]
    split
    · apply hflush.trans
      apply lasts_update <;> rfl
    · exact hflush
  · exact hconsume

theorem lasts_consumeRing (k : Nat) (p : Bytes) (bufs : List Bytes) :
  s.Lasts (s.consumeRing cfg k p bufs)
  := by
  have htake : s.Lasts (s.update k fun c =>
      { c with ring := some bufs, delivered := c.delivered ++ p }) := by
    apply lasts_update <;> rfl
  have hconsume := htake.trans
    (lasts_streamConsume cfg (htake.closed.trans hclosed) k (int32 p.length))
  unfold consumeRing streamOnRead
  split
  · exact htake
  · dsimp only
    split
    · exact hconsume.trans (lasts_sessionOnRead cfg (hconsume.closed.trans hclosed) _)
    · exact hconsume

theorem lasts_drainRing (k : Nat) :
  s.Lasts (s.drainRing cfg k)
  := by
  unfold drainRing
  split
  · exact .refl s
  · have hcredit : s.Lasts (s.creditSession cfg (s.heap k).unread) := by
      unfold creditSession
      split
      · exact lasts_sessionOnRead cfg hclosed _
      · exact .refl s
    apply hcredit.trans
    apply lasts_update <;> rfl

end

end

end Session

/-! ### Ending channels -/

/-- What becomes of a channel of a session that is closed, by its application, or by the
goodbye of its peer if `gone` says so. -/
structure Channel.Ends (gone : Bool) (c c' : Channel) : Prop where
  readDone : c'.readDone = true
  drainable : gone = true → c'.drainable = true
  closed : c'.closed = (c.closed || !gone)
  delivered : c'.delivered = c.delivered
  buffers : c'.buffers = c.buffers ∨ gone = false ∧ c'.buffers = []

namespace Session

variable (cfg : SessionConfig) {s : Session}

/-- A channel that is not in the table is finalized. -/
theorem finalize_eq (hnone : ∀ id, s.channels id = none) (k : Nat) :
  s.finalize cfg k = s
    ∨ s.finalize cfg k = { s.update k Channel.retire with arqSet := s.arqLeave k }
  := by
  unfold finalize
  split
  · exact .inl rfl
  · right
    rw [Station.retire_eq, removeChannelIf]
    simp [hnone, update]

/-- What becomes of a session in whose table there is no channel when a channel is ended. -/
structure EndsOne (k : Nat) (s s' : Session) : Prop extends Lasts s s' where
  channels : s'.channels = s.channels
  other : ∀ h, h ≠ k → s'.heap h = s.heap h
  ends : (s.heap k).Ends s.goAwayRecv (s'.heap k)

theorem EndsOne.finalize {s' : Session} {k : Nat} (hs : s.EndsOne k s')
    (hnone : ∀ id, s.channels id = none) :
  s.EndsOne k (s'.finalize cfg k)
  := by
  have hnone' : ∀ id, s'.channels id = none := by
    rw [hs.channels]
    exact hnone
  rcases finalize_eq cfg hnone' k with heq | heq
  · rwa [heq]
  · rw [heq]
    have hretire : ∀ c : Channel, c.retire.id = c.id ∧ c.retire.sent = c.sent
        ∧ c.retire.finSent = c.finSent ∧ c.retire.readDone = c.readDone
        ∧ c.retire.drainable = c.drainable ∧ c.retire.closed = c.closed
        ∧ c.retire.delivered = c.delivered
        ∧ (c.retire.buffers = c.buffers ∨ c.drainable = false ∧ c.retire.buffers = []) := by
      intro c
      unfold Channel.retire
      dsimp only
      split
      · rename_i hcond
        refine ⟨rfl, rfl, rfl, rfl, rfl, rfl, rfl, ?_⟩
        rcases hcond with hdrainable | hempty
        · exact .inr ⟨hdrainable, rfl⟩
        · exact .inl hempty.symm
      · exact ⟨rfl, rfl, rfl, rfl, rfl, rfl, rfl, .inl rfl⟩
    obtain ⟨hid, hsent, hfin, hread, hdrainable, hclosed, hdelivered, hbuffers⟩ :=
      hretire (s'.heap k)
    have hlasts : s'.Lasts { s'.update k Channel.retire with arqSet := s'.arqLeave k } := by
      have hupdate : s'.Lasts (s'.update k Channel.retire) := lasts_update hid hsent hfin
      exact ⟨⟨rfl, hupdate.author⟩, rfl, rfl, fun _ h => h, fun _ h => h⟩
    refine ⟨hs.toLasts.trans hlasts, hs.channels, fun h hh => ?_, ?_⟩
    · exact (heap_update_of_ne hh _ _).trans (hs.other h hh)
    · have hself : ({ s'.update k Channel.retire with arqSet := s'.arqLeave k } : Session).heap k
          = (s'.heap k).retire := heap_update_self k _ s'
      rw [hself]
      have hends := hs.ends
      refine ⟨hread.trans hends.readDone, fun hgone => hdrainable.trans (hends.drainable hgone),
        hclosed.trans hends.closed, hdelivered.trans hends.delivered, ?_⟩
      rcases hbuffers with hsame | ⟨hnot, hnil⟩
      · rw [hsame]
        exact hends.buffers
      · right
        refine ⟨?_, hnil⟩
        by_contra hgone
        rw [hends.drainable (by simpa using hgone)] at hnot
        contradiction

/-- A channel whose peer has said goodbye is ended. -/
theorem endsOne_peerGone (hnone : ∀ id, s.channels id = none) (hgone : s.goAwayRecv = true)
    (k : Nat) :
  s.EndsOne k (s.peerGone cfg k)
  := by
  refine EndsOne.finalize cfg ⟨?_, rfl, fun h hh => heap_update_of_ne hh _ _, ?_⟩ hnone
  · apply lasts_update <;> rfl
  · rw [heap_update_self, hgone]
    exact ⟨rfl, fun _ => rfl, by simp, rfl, .inl rfl⟩

/-- A channel of a session that closes is ended. -/
theorem endsOne_localClose (hclosed : s.closed = true) (hnone : ∀ id, s.channels id = none)
    (hgone : s.goAwayRecv = false) (k : Nat) :
  s.EndsOne k (s.localClose cfg k)
  := by
  have habandon : s.EndsOne k (s.update k Channel.abandon) := by
    refine ⟨?_, rfl, fun h hh => heap_update_of_ne hh _ _, ?_⟩
    · apply lasts_update <;> rfl
    · rw [heap_update_self, hgone]
      exact ⟨rfl, nofun, by simp [Channel.abandon], rfl, .inl rfl⟩
  unfold localClose
  dsimp only
  split
  · exact habandon.finalize cfg hnone
  · refine EndsOne.finalize cfg ?_ hnone
    obtain ⟨c, halone, hclosed', hread, -, hdelivered, hbuffers⟩ :=
      alone_drainRing cfg k (s.update k Channel.abandon)
    have hlasts := lasts_drainRing cfg (s := s.update k Channel.abandon) hclosed k
    have hends := habandon.ends
    refine ⟨habandon.toLasts.trans hlasts, ?_, fun h hh => ?_, ?_⟩
    · exact halone.channels
    · exact (halone.of_ne hh).trans (habandon.other h hh)
    · have hdrain : (s.heap k).Ends s.goAwayRecv c := by
        refine ⟨hread.trans hends.readDone, fun h => ?_, hclosed'.trans hends.closed,
          hdelivered.trans hends.delivered, ?_⟩
        · rw [hgone] at h
          contradiction
        · rcases hbuffers with hsame | hnil
          · rw [hsame]
            exact hends.buffers
          · exact .inr ⟨hgone, hnil⟩
      rw [← halone.self] at hdrain
      exact hdrain

/-- What becomes of a session when its channels are ended. -/
structure EndsAll (ks : List Nat) (s s' : Session) : Prop extends Lasts s s' where
  channels : s'.channels = s.channels
  other : ∀ h, h ∉ ks → s'.heap h = s.heap h
  ends : ∀ h ∈ ks, (s.heap h).Ends s.goAwayRecv (s'.heap h)

theorem endsAll_closeChannels {ks : List Nat} (hnodup : ks.Nodup) (hclosed : s.closed = true)
    (hnone : ∀ id, s.channels id = none) :
  s.EndsAll ks (s.closeChannels cfg ks)
  := by
  induction ks generalizing s with
  | nil => exact ⟨.refl s, rfl, fun _ _ => rfl, nofun⟩
  | cons k ks ih =>
      obtain ⟨hk, hnodup⟩ := List.nodup_cons.mp hnodup
      unfold closeChannels
      have hone : s.EndsOne k (if s.goAwayRecv then s.peerGone cfg k else s.localClose cfg k) := by
        split
        · rename_i hgone
          exact endsOne_peerGone cfg hnone hgone k
        · rename_i hgone
          exact endsOne_localClose cfg hclosed hnone (by simpa using hgone) k
      generalize (if s.goAwayRecv then s.peerGone cfg k else s.localClose cfg k) = s' at hone
      have hrest := ih (s := s') hnodup (hone.closed.trans hclosed) (by rwa [hone.channels])
      refine ⟨hone.toLasts.trans hrest.toLasts, hrest.channels.trans hone.channels, ?_, ?_⟩
      · intro h hh
        obtain ⟨hne, hnot⟩ := List.ne_and_not_mem_of_not_mem_cons hh
        rw [hrest.other h hnot, hone.other h hne]
      · intro h hh
        by_cases heq : h = k
        · subst heq
          rw [hrest.other h hk]
          exact hone.ends
        · have hmem := List.mem_of_ne_of_mem heq hh
          rw [← hone.goAwayRecv, ← hone.other h heq]
          exact hrest.ends h hmem

/-- What becomes of a session that is marked as closed when its channels are ended. -/
theorem endsAll_endChannels (hclosed : s.closed = true) :
  s.Lasts (s.endChannels cfg) ∧ (∀ id, (s.endChannels cfg).channels id = none)
    ∧ (∀ h, h ∉ s.activeChannels → (s.endChannels cfg).heap h = s.heap h)
    ∧ ∀ h ∈ s.activeChannels, (s.heap h).Ends s.goAwayRecv ((s.endChannels cfg).heap h)
  := by
  have hnodup : s.activeChannels.Nodup := List.Nodup.filter _ List.nodup_range
  have hall := endsAll_closeChannels cfg hnodup (s := { s with
    channels := fun _ => none, pending := ∅, closedIDs := ∅, pendingBytes := 0, arqSet := [] })
    hclosed (fun _ => rfl)
  refine ⟨?_, fun id => congrFun hall.channels id, hall.other, hall.ends⟩
  exact ⟨⟨hall.next, hall.author⟩, hall.closed, hall.goAwayRecv, hall.writes, hall.ctrl⟩

end Session

end Muxocket
