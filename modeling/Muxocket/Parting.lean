import Muxocket.Conveyance
import Muxocket.Credit
import Muxocket.Ending

/-!
# Streams of sessions that close

What is certain of two sessions with retransmissions: what has been delivered to a reader,
followed by what is in its ring, is the beginning of the stream, and nothing comes after its
end.  A session that is closed does not add to its streams either.

The sessions that are not closed go on as they would if the closed ones had stopped before they
were closed.  So we keep the world as it was, whose sessions are open, beside the world as it is.
-/

namespace Muxocket

namespace Session

/-- The stream that the session writes for an identifier is final. -/
def Final (id : Nat) (s : Session) : Prop :=
  s.Ended id ∨ s.closed = true

/-- What stays of the streams of a session: its channels keep their identifiers, and what is
final stays as it is. -/
structure Keeps (s s' : Session) : Prop where
  next : s.next ≤ s'.next
  ids : ∀ k < s.next, (s'.heap k).id = (s.heap k).id
  final : ∀ id, s.Final id → s'.sentBy id = s.sentBy id ∧ s'.Final id

theorem Keeps.refl (s : Session) :
  s.Keeps s
  := ⟨le_rfl, fun _ _ => rfl, fun _ h => ⟨rfl, h⟩⟩

theorem Keeps.trans {s₁ s₂ s₃ : Session} (h : s₁.Keeps s₂) (h' : s₂.Keeps s₃) :
  s₁.Keeps s₃
  where
  next := h.next.trans h'.next
  ids k hk := (h'.ids k (lt_of_lt_of_le hk h.next)).trans (h.ids k hk)
  final id hfinal := by
    obtain ⟨hsent, hfinal'⟩ := h.final id hfinal
    obtain ⟨hsent', hfinal''⟩ := h'.final id hfinal'
    exact ⟨hsent'.trans hsent, hfinal''⟩

variable {s s' : Session}

theorem SameStreams.keeps (h : s.SameStreams s') (hclosed : s.closed = true → s'.closed = true) :
  s.Keeps s'
  where
  next := h.next.ge
  ids k _ := (h.author k).1
  final id hfinal := ⟨h.sentBy_eq id, hfinal.imp (h.ended_iff id).mpr hclosed⟩

theorem Lasts.keeps (h : s.Lasts s') :
  s.Keeps s'
  := h.toSameStreams.keeps fun hclosed => h.closed.trans hclosed

/-- The channels of the session are as they were, and it is not opened again. -/
theorem leaves_of_heap (hnext : s'.next = s.next) (hheap : s'.heap = s.heap)
    (hclosed : s.closed = true → s'.closed = true) :
  s.Leaves s'
  where
  next := hnext.ge
  closed := hclosed
  heap k _ := by
    rw [hheap]
    exact .refl _
  fresh k hk hk' := by omega

theorem sameStreams_of_heap (hnext : s'.next = s.next) (hheap : s'.heap = s.heap) :
  s.SameStreams s'
  := ⟨hnext, fun h => by simp [hheap]⟩

end Session

/-- A channel that is ended leaves its reader what it knows. -/
theorem Channel.Ends.leaves {gone : Bool} {c c' : Channel} (hc : c.Ends gone c') :
  c.Leaves c'
  where
  closed hopen := by
    have hclosed := hc.closed
    rw [hopen] at hclosed
    simp_all
  readDone _ := hc.readDone
  front hopen b bufs hbufs := by
    rcases hc.buffers with hsame | ⟨hgone, -⟩
    · exact ⟨bufs, hsame.trans hbufs⟩
    · have hclosed := hc.closed
      rw [hopen, hgone] at hclosed
      simp at hclosed
  still _ hnil := by
    rcases hc.buffers with hsame | ⟨-, hempty⟩
    · rw [hsame, hnil]
    · rw [hempty]
      rfl
  delivered := hc.delivered

variable {s : Session}

/-- The readers of a closed session wait while its channels are ended. -/
theorem Session.leaves_endChannels (cfg : SessionConfig) (hclosed : s.closed = true) :
  s.Leaves (s.endChannels cfg)
  := by
  obtain ⟨hlasts, -, hother, hends⟩ := endsAll_endChannels cfg hclosed
  refine ⟨hlasts.next.ge, fun _ => hlasts.closed.trans hclosed, fun k _ => ?_, ?_⟩
  · by_cases hk : k ∈ s.activeChannels
    · exact (hends k hk).leaves
    · rw [hother k hk]
      exact .refl _
  · intro k hk hk'
    rw [hlasts.next] at hk'
    omega

/-! ### Two sessions -/

namespace Net

variable {cfg : Side → SessionConfig} {terms : Terms} {n n' : Net}

/-- The terms of runs over a transport that may lose frames, in which the applications read
nothing. -/
def silentTerms : Terms where
  rules _ := { once := fun _ => True, kept := fun _ => False, updates := False, reads := False }
  ordered := False

/-- Two sessions with retransmissions whose rings are in order. -/
structure Certain (n : Net) : Prop extends Reliable n where
  tidy : ∀ d, ∀ h < (n.st d).sess.next, ((n.st d).sess.heap h).Tidy

theorem certain_init (cfg : Side → SessionConfig) (now : Side → Int) :
  (ofWorld (World.init cfg now)).Certain
  where
  toReliable := reliable_init cfg now
  tidy d h hh := by
    simp at hh

theorem Step.certain (hstep : Step cfg terms n n') (hshape : n.Shape)
    (hrel : ∀ d, (cfg d).reliability = true) (honce : ∀ d id, (terms.rules d).once id)
    (hn : n.Certain) :
  n'.Certain
  where
  toReliable := hstep.reliable hshape hrel honce hn.toReliable
  tidy d := hstep.tidy (hn.tidy d)

theorem Certain.follows (hn : n.Certain) {e : Side} {k : Nat} (hk : k < (n.st e).sess.next) :
  ((n.st e).sess.heap k).Follows ((n.st e.other).sess.sentBy ((n.st e).sess.heap k).id)
    ((n.st e.other).sess.Ended ((n.st e).sess.heap k).id)
  := by
  have hfollows := (hn.delivers e.other ((n.st e).sess.heap k).id).follows
  rw [Side.other_other] at hfollows
  exact hfollows k hk rfl

/-- What has been delivered to a reader and what is in its ring is the stream up to where it
reads. -/
theorem Certain.delivered (hn : n.Certain) {e : Side} {k : Nat} (hk : k < (n.st e).sess.next)
    (hclosed : ((n.st e).sess.heap k).closed = false) :
  ((n.st e).sess.heap k).delivered ++ ((n.st e).sess.heap k).buffers.flatten
    = ((n.st e.other).sess.sentBy ((n.st e).sess.heap k).id).flatten.take
      ((n.st e).sess.heap k).readOffset
  := by
  rw [← (hn.follows hk).pushed hclosed, hn.tidy e k hk hclosed (hn.lost e k hk)]

/-- Steps without reading leave the readers what they know, since nothing comes after the end of
a stream. -/
theorem Step.leaves_certain (hstep : Step cfg terms n n') (hquiet : ∀ d, ¬ (terms.rules d).reads)
    (hshape : n.Shape) (hrel : ∀ d, (cfg d).reliability = true)
    (honce : ∀ d id, (terms.rules d).once id) (hn : n.Certain) (d : Side) :
  (n.st d).sess.Leaves (n'.st d).sess
  := by
  rcases hstep.sess_or_move d with hsame | hmove
  · rw [hsame]
    exact .refl _
  · apply hmove.leaves (hquiet d) (hshape.st d).ring
    intro h hh p hread hclosed hgets
    rcases hgets with ⟨hrel', -⟩ | ⟨-, hoffset⟩
    · rw [hrel d] at hrel'
      contradiction
    · obtain ⟨hended, hall⟩ := (hn.follows hh).done hread hclosed
      obtain ⟨hsent, -⟩ := hstep.ended hshape (honce d.other _)
        (hn.delivers d.other _).sends.single hended
      have hbound := ((hstep.certain hshape hrel honce hn).follows
        (lt_of_lt_of_le hh hmove.closed_next.2)).bound
      rw [hmove.id_eq hh, hsent] at hbound
      exact List.eq_nil_of_length_eq_zero (by omega)

theorem Step.keeps (hstep : Step cfg terms n n') (hshape : n.Shape)
    (honce : ∀ d id, (terms.rules d).once id) (hn : n.Certain) {d : Side}
    (hopen : (n.st d).sess.closed = false) :
  (n.st d).sess.Keeps (n'.st d).sess
  := by
  rcases hstep.sess_or_move d with hsame | hmove
  · rw [hsame]
    exact .refl _
  · refine ⟨hmove.closed_next.2, fun k hk => hmove.id_eq hk, fun id hfinal => ?_⟩
    have hended : (n.st d).sess.Ended id := hfinal.resolve_right (by simp [hopen])
    obtain ⟨hsent, hended'⟩ := hstep.ended hshape (honce d id)
      (hn.delivers d id).sends.single hended
    exact ⟨hsent, .inl hended'⟩

/-- What stays certain of two open sessions in their steps. -/
theorem Steps.certain (hsteps : Steps cfg terms n n') (hshape : n.Shape)
    (hrel : ∀ d, (cfg d).reliability = true) (honce : ∀ d id, (terms.rules d).once id)
    (hopen : ∀ d, (n.st d).sess.closed = false) (hn : n.Certain) :
  n'.Shape ∧ n'.Certain ∧ ∀ d, (n.st d).sess.Keeps (n'.st d).sess
  := by
  have hall := hsteps.invariant (I := fun n' => n'.Certain
    ∧ ∀ d, (n'.st d).sess.closed = false ∧ (n.st d).sess.Keeps (n'.st d).sess) ?_ hshape
    ⟨hn, fun d => ⟨hopen d, .refl _⟩⟩
  · exact ⟨hall.1, hall.2.1, fun d => (hall.2.2 d).2⟩
  · rintro n₁ n₂ hshape₁ ⟨hn₁, hkeeps⟩ hstep
    refine ⟨hstep.certain hshape₁ hrel honce hn₁, fun d => ?_⟩
    obtain ⟨hopen₁, hkeep⟩ := hkeeps d
    have hmarks := Steps.marks_eq (.single hstep) d
    exact ⟨hmarks.1.trans hopen₁, hkeep.trans (hstep.keeps hshape₁ honce hn₁ hopen₁)⟩

theorem Steps.leaves_certain (hsteps : Steps cfg silentTerms n n') (hshape : n.Shape)
    (hrel : ∀ d, (cfg d).reliability = true) (hn : n.Certain) (d : Side) :
  (n.st d).sess.Leaves (n'.st d).sess
  := by
  have hall := hsteps.invariant (I := fun n' => n'.Certain
    ∧ (n.st d).sess.Leaves (n'.st d).sess) ?_ hshape ⟨hn, .refl _⟩
  · exact hall.2.2
  · rintro n₁ n₂ hshape₁ ⟨hn₁, hleaves⟩ hstep
    exact ⟨hstep.certain hshape₁ hrel (fun _ _ => trivial) hn₁,
      hleaves.trans (hstep.leaves_certain (fun _ h => h) hshape₁ hrel (fun _ _ => trivial) hn₁ d)⟩

/-- Frames of the streams of a session, and frames that are part of no stream, are put on the
transport. -/
theorem Certain.sendMore (hn : n.Certain) (hshape : n.Shape) {d : Side} {fs : List PacketFrame}
    (hsound : ∀ f ∈ fs, f.Sound) (hgenuine : ∀ f ∈ fs, n.Genuine d f.chID f) :
  (n.setLink d (n.link d ++ fs)).Shape ∧ (n.setLink d (n.link d ++ fs)).Certain
  := by
  constructor
  · refine ⟨hshape.st, ?_⟩
    refine (Function.forall_update_iff n.link fun _ fs => ∀ f ∈ fs, f.Sound).mpr
      ⟨?_, fun e _ => hshape.link e⟩
    intro f hf
    exact (List.mem_append.mp hf).elim (hshape.link d f) (hsound f)
  · refine ⟨⟨fun e id => ?_, hn.got, hn.lost⟩, hn.tidy⟩
    obtain ⟨hsends, hflying, harrived, hfollows, hahead⟩ := hn.delivers e id
    refine ⟨hsends, fun f hf hid => ?_, harrived, hfollows, hahead⟩
    by_cases he : e = d
    · subst he
      rcases List.mem_append.mp (by simpa using hf) with hf | hf
      · exact hflying f hf hid
      · subst hid
        exact hgenuine f hf
    · exact hflying f (by simpa [he] using hf) hid

end Net

namespace World

/-- The bytes `b` are the whole of the stream that the channel `k` at the side `e` reads, and
the stream is final. -/
def Whole (e : Side) (k : Nat) (w : World) (b : Bytes) : Prop :=
  b = ((w.sess e.other).sentBy ((w.sess e).heap k).id).flatten
    ∧ (w.sess e.other).Final ((w.sess e).heap k).id

theorem Whole.keeps {w w' : World} (hkeeps : ∀ d, (w.sess d).Keeps (w'.sess d)) {e : Side}
    {k : Nat} (hk : k < (w.sess e).next) {b : Bytes} (hb : w.Whole e k b) :
  w'.Whole e k b
  := by
  obtain ⟨hsent, hfinal⟩ := (hkeeps e.other).final _ hb.2
  unfold Whole
  rw [(hkeeps e).ids k hk, hsent]
  exact ⟨hb.1, hfinal⟩

end World

/-! ### The world before the sessions closed -/

/-- What is left in the queues of a closed session is part of its streams, or of none. -/
structure Session.Leftover (s : Session) : Prop where
  writes : ∀ f ∈ s.writes, f.Stream
  genuine : ∀ f ∈ s.writes, f.packet.PartOf (s.sentBy f.chID) (s.Ended f.chID)
  ctrl : ∀ f ∈ s.ctrlQueue, f.Aside

theorem Session.Leftover.of_subset {s' : Session} (hs : s.Leftover) (hsame : s.SameStreams s')
    (hwrites : s'.writes ⊆ s.writes) (hctrl : s'.ctrlQueue ⊆ s.ctrlQueue) :
  s'.Leftover
  where
  writes f hf := hs.writes f (hwrites hf)
  genuine f hf := by
    rw [hsame.sentBy_eq, propext (hsame.ended_iff f.chID)]
    exact hs.genuine f (hwrites hf)
  ctrl f hf := hs.ctrl f (hctrl hf)

/-- What the writer of a closed session puts on the transport. -/
theorem Session.Leftover.packets {s' : Session} (hs : s.Leftover) {picks : List Bool}
    {packets : List PacketFrame} (hbatch : s.writeBatch picks = some (packets, s')) :
  (∀ f ∈ packets, f.Sound ∧ f.PartOf (s.sentBy f.chID) (s.Ended f.chID) ∧ f.flag ≠ .goaway)
    ∧ s.Flushes s'
  := by
  obtain ⟨hpackets, hflushes⟩ := writeBatch_spec hs.writes hs.ctrl hbatch
  refine ⟨fun f hf => ?_, hflushes⟩
  obtain ⟨g, hg, rfl⟩ := hpackets f hf
  rcases hg with haside | ⟨hstream, hmem⟩
  · refine ⟨Net.sound_of_ready ?_, PacketFrame.partOf_of_ne haside.data haside.fin, haside.goaway⟩
    rw [WriteFrame.Ready, if_neg haside.data]
    exact haside.pBuf
  · refine ⟨Net.sound_of_ready (Station.ready_stream hstream).1, hs.genuine g hmem, ?_⟩
    intro hflag
    cases hstream <;> cases hflag

namespace World

variable {cfg : Side → SessionConfig} {g w w' : World}

@[simp]
theorem sess_setSess (d : Side) (s : Session) (w : World) :
  (w.setSess d s).sess d = s
  := by
  simp [setSess]

variable {d e : Side} {s : Session}

theorem sess_setSess_of_ne (he : e ≠ d) (s : Session) (w : World) :
  (w.setSess d s).sess e = w.sess e
  := by
  simp [setSess, he]

/-- What is so of the session that changes is so of both. -/
theorem forall_setSess {R : Session → Session → Prop} (hrefl : ∀ s, R s s) (hs : R (w.sess d) s)
    (e : Side) :
  R (w.sess e) ((w.setSess d s).sess e)
  := by
  by_cases he : e = d
  · subst he
    rwa [sess_setSess]
  · rw [sess_setSess_of_ne he]
    exact hrefl _

/-- `g` is the world before its sessions were closed, but for the frames in flight: its sessions
are open, and have written the same streams. -/
structure Parted (g w : World) : Prop where
  link : g.link = w.link
  opened : ∀ d, (g.sess d).closed = false
  same : ∀ d, (w.sess d).closed = false → g.sess d = w.sess d
  streams : ∀ d, (g.sess d).SameStreams (w.sess d)
  shape : (Net.ofWorld g).Shape
  net : (Net.ofWorld g).Certain
  left : ∀ d, (w.sess d).closed = true → (w.sess d).Leftover
  goaway : ∀ d, ∀ f ∈ w.link d, f.flag = .goaway → (w.sess d).closed = true
  gone : ∀ d, (w.sess d).goAwayRecv = true → ∀ e, (w.sess e).closed = true

theorem parted_init (cfg : Side → SessionConfig) (now : Side → Int) :
  (init cfg now).Parted (init cfg now)
  where
  link := rfl
  opened _ := rfl
  same _ _ := rfl
  streams _ := ⟨rfl, fun _ => ⟨rfl, rfl, rfl⟩⟩
  shape := Net.shape_init cfg now
  net := Net.certain_init cfg now
  left _ hclosed := by
    simp [init] at hclosed
  goaway _ := nofun
  gone _ hgone := by
    simp [init] at hgone

section

variable (hw : g.Parted w)

include hw

/-- What an open session has in its queues. -/
theorem Parted.leftover (hopen : (w.sess d).closed = false) :
  (w.sess d).Leftover
  := by
  have hsame := hw.same d hopen
  have hqueue := (hw.shape.st d).queue
  have hsends := fun id => (hw.net.delivers d id).sends
  simp only [Net.ofWorld, hsame] at hqueue hsends
  refine ⟨hqueue.writes, fun f hf => ?_, fun f hf => ?_⟩
  · exact (hsends f.chID).queued f (by simp [Station.queued, hf]) rfl
  · exact (hqueue.ctrl f (List.mem_append_left _ hf)).aside

/-- What has been delivered to a reader of an open session and what is in its ring is the stream
up to where it reads. -/
theorem Parted.delivered (hopen : (w.sess e).closed = false) {k : Nat} (hk : k < (w.sess e).next)
    (hclosed : ((w.sess e).heap k).closed = false) :
  ((w.sess e).heap k).delivered ++ ((w.sess e).heap k).buffers.flatten
    = ((w.sess e.other).sentBy ((w.sess e).heap k).id).flatten.take ((w.sess e).heap k).readOffset
  := by
  have hdelivered := hw.net.delivered (e := e) (k := k)
  simp only [Net.ofWorld, hw.same e hopen, ← (hw.streams e.other).sentBy_eq] at hdelivered
  exact hdelivered hk hclosed

/-- A reader of an open session that has seen the end of its stream has got the whole of it. -/
theorem Parted.whole (hopen : (w.sess e).closed = false) {k : Nat} (hk : k < (w.sess e).next)
    (hclosed : ((w.sess e).heap k).closed = false) (hread : ((w.sess e).heap k).readDone = true) :
  w.Whole e k (((w.sess e).heap k).delivered ++ ((w.sess e).heap k).buffers.flatten)
  := by
  have hfollows := hw.net.follows (e := e) (k := k)
  simp only [Net.ofWorld, hw.same e hopen, ← (hw.streams e.other).sentBy_eq,
    ← propext ((hw.streams e.other).ended_iff _)] at hfollows
  obtain ⟨hended, hoffset⟩ := (hfollows hk).done hread hclosed
  refine ⟨?_, .inl hended⟩
  rw [hw.delivered hopen hk hclosed, hoffset, List.take_length]

/-- A closed session goes on. -/
theorem Parted.lasts (hclosed : (w.sess d).closed = true) (hlasts : (w.sess d).Lasts s) :
  g.Parted (w.setSess d s)
  := by
  have hmarks := forall_setSess (R := fun s s' => s'.closed = s.closed
    ∧ s'.goAwayRecv = s.goAwayRecv) (fun _ => ⟨rfl, rfl⟩) ⟨hlasts.closed, hlasts.goAwayRecv⟩
  refine ⟨hw.link, hw.opened, fun e hopen => ?_, fun e => ?_, hw.shape, hw.net,
    fun e hclosed' => ?_, fun e f hf hflag => ?_, fun e hgone e' => ?_⟩
  · rw [(hmarks e).1] at hopen
    by_cases he : e = d
    · subst he
      simp [hclosed] at hopen
    · rw [sess_setSess_of_ne he]
      exact hw.same e hopen
  · by_cases he : e = d
    · subst he
      rw [sess_setSess]
      exact (hw.streams e).trans hlasts.toSameStreams
    · rw [sess_setSess_of_ne he]
      exact hw.streams e
  · by_cases he : e = d
    · subst he
      rw [sess_setSess]
      exact (hw.left e hclosed).of_subset hlasts.toSameStreams hlasts.writes hlasts.ctrl
    · rw [sess_setSess_of_ne he] at hclosed' ⊢
      exact hw.left e hclosed'
  · rw [(hmarks e).1]
    exact hw.goaway e f hf hflag
  · rw [(hmarks e).2] at hgone
    rw [(hmarks e').1]
    exact hw.gone e hgone e'

/-- Frames of a session are put on the transport. -/
theorem Parted.sendMore {fs : List PacketFrame} (hsound : ∀ f ∈ fs, f.Sound)
    (hgenuine : ∀ f ∈ fs, f.PartOf ((w.sess d).sentBy f.chID) ((w.sess d).Ended f.chID))
    (hgoaway : ∀ f ∈ fs, f.flag = .goaway → (w.sess d).closed = true) :
  (g.setLink d (g.link d ++ fs)).Parted (w.setLink d (w.link d ++ fs))
  := by
  have hgenuine' : ∀ f ∈ fs, (Net.ofWorld g).Genuine d f.chID f := by
    intro f hf
    have hpart := hgenuine f hf
    rw [(hw.streams d).sentBy_eq, propext ((hw.streams d).ended_iff _)] at hpart
    exact hpart
  obtain ⟨hshape, hnet⟩ := hw.net.sendMore hw.shape hsound hgenuine'
  refine ⟨?_, hw.opened, hw.same, hw.streams, hshape, hnet, hw.left, fun e f hf hflag => ?_,
    hw.gone⟩
  · simp [hw.link]
  · by_cases he : e = d
    · subst he
      simp only [setLink, Function.update_self] at hf
      rcases List.mem_append.mp hf with hf | hf
      · exact hw.goaway e f hf hflag
      · exact hgoaway f hf hflag
    · simp only [setLink, Function.update_of_ne he] at hf
      exact hw.goaway e f hf hflag

/-- A session is closed, which has written the streams it had written. -/
theorem Parted.mark (hclosed : s.closed = true) (hsame : (w.sess d).SameStreams s)
    (hleft : s.Leftover) (hgone : s.goAwayRecv = true → (w.sess d.other).closed = true) :
  g.Parted (w.setSess d s)
  := by
  have hmore := forall_setSess (w := w) (d := d) (s := s)
    (R := fun s s' => s.closed = true → s'.closed = true) (fun _ h => h) fun _ => hclosed
  refine ⟨hw.link, hw.opened, fun e hopen => ?_, fun e => ?_, hw.shape, hw.net,
    fun e hclosed' => ?_, fun e f hf hflag => hmore e (hw.goaway e f hf hflag), fun e hgone' => ?_⟩
  · by_cases he : e = d
    · subst he
      simp [hclosed] at hopen
    · rw [sess_setSess_of_ne he] at hopen ⊢
      exact hw.same e hopen
  · by_cases he : e = d
    · subst he
      rw [sess_setSess]
      exact (hw.streams e).trans hsame
    · rw [sess_setSess_of_ne he]
      exact hw.streams e
  · by_cases he : e = d
    · subst he
      rwa [sess_setSess]
    · rw [sess_setSess_of_ne he] at hclosed' ⊢
      exact hw.left e hclosed'
  · by_cases he : e = d
    · subst he
      rw [sess_setSess] at hgone'
      intro e'
      rcases Net.eq_or_other e e' with rfl | rfl
      · rwa [sess_setSess]
      · exact hmore _ (hgone hgone')
    · rw [sess_setSess_of_ne he] at hgone'
      exact fun e' => hmore e' (hw.gone e hgone' e')

end

/-! ### Steps of the open sessions -/

/-- What an action that closes no session leaves of the world before the sessions closed: a
session that acts is open, and the others stay as they are. -/
def Beside (g w g' w' : World) : Prop :=
  ∀ e, (w.sess e).closed = false ∧ (w'.sess e).closed = false ∧ g'.sess e = w'.sess e
    ∨ g'.sess e = g.sess e ∧ w'.sess e = w.sess e

theorem Parted.steps (hw : g.Parted w) {g' : World} {terms : Terms}
    (hrel : ∀ d, (cfg d).reliability = true) (honce : ∀ d id, (terms.rules d).once id)
    (hsteps : Net.Steps cfg terms (Net.ofWorld g) (Net.ofWorld g')) (hlink : g'.link = w'.link)
    (hbeside : g.Beside w g' w')
    (hgoaway : ∀ e, ∀ f ∈ w'.link e, f.flag = .goaway → f ∈ w.link e) :
  g'.Parted w' ∧ ∀ e, (w.sess e).Keeps (w'.sess e)
  := by
  obtain ⟨hshape, hnet, hkeeps⟩ := hsteps.certain hw.shape hrel honce hw.opened hw.net
  have hmore : ∀ e, (w.sess e).closed = true → (w'.sess e).closed = true := by
    intro e hclosed
    rcases hbeside e with ⟨hopen, -, -⟩ | ⟨-, hsame⟩
    · simp [hclosed] at hopen
    · rwa [hsame]
  refine ⟨⟨hlink, fun e => ?_, fun e hopen => ?_, fun e => ?_, hshape, hnet, fun e hclosed => ?_,
    fun e f hf hflag => hmore e (hw.goaway e f (hgoaway e f hf hflag) hflag),
    fun e hgone => ?_⟩, fun e => ?_⟩
  all_goals rcases hbeside e with ⟨hopen₁, hopen₂, hsame⟩ | ⟨hpast, hsame⟩
  · rwa [hsame]
  · rw [hpast]
    exact hw.opened e
  · exact hsame
  · rw [hpast, hsame]
    exact hw.same e (hsame ▸ hopen)
  · rw [hsame]
    exact ⟨rfl, fun _ => ⟨rfl, rfl, rfl⟩⟩
  · rw [hpast, hsame]
    exact hw.streams e
  · simp [hopen₂] at hclosed
  · rw [hsame] at hclosed ⊢
    exact hw.left e hclosed
  · have hmarks : (g'.sess e).goAwayRecv = (g.sess e).goAwayRecv := (hsteps.marks_eq e).2
    rw [hsame, hw.same e hopen₁, hgone] at hmarks
    have hclosed := hw.gone e hmarks.symm e
    simp [hopen₁] at hclosed
  · rw [hsame] at hgone
    exact fun e' => hmore e' (hw.gone e hgone e')
  · rw [← hw.same e hopen₁, ← hsame]
    exact hkeeps e
  · rw [hsame]
    exact .refl _

/-- The session that does an action. -/
def actor : Action → Option Side
  | .op d _ | .flush d _ | .recv d _ _ | .recvDatagram d _ _ => some d
  | .drop _ _ | .dup _ _ => none

/-- An action of an open session could be done before the others were closed. -/
theorem Parted.act (hw : g.Parted w) {a : Action} (hopen : ∀ d ∈ actor a, (w.sess d).closed = false)
    (hstep : w.step cfg a = some w')
    (hopen' : ∀ d ∈ actor a, (w'.sess d).closed = false) :
  ∃ g', g.step cfg a = some g' ∧ g'.link = w'.link ∧ g.Beside w g' w'
    ∧ ∀ e, ∀ f ∈ w'.link e, f.flag = .goaway → f ∈ w.link e
  := by
  have hbeside : ∀ {d : Side} {s : Session} {g' w' : World}, (w.sess d).closed = false →
      s.closed = false → g'.sess = (g.setSess d s).sess → w'.sess = (w.setSess d s).sess →
      g.Beside w g' w' := by
    intro d s g' w' hopen hopen' hg' hw' e
    rw [hg', hw']
    by_cases he : e = d
    · subst he
      left
      simpa [setSess] using ⟨hopen, hopen'⟩
    · right
      simp [setSess, he]
  have hsub : ∀ (d : Side) (fs : List PacketFrame), (∀ f ∈ fs, f.flag = .goaway → f ∈ w.link d) →
      ∀ e, ∀ f ∈ (w.setLink d fs).link e, f.flag = .goaway → f ∈ w.link e := by
    intro d fs hfs e f hf hflag
    by_cases he : e = d
    · subst he
      exact hfs f (by simpa using hf) hflag
    · simpa [he] using hf
  have hlink : ∀ (d : Side) (fs : List PacketFrame),
      (g.setLink d fs).link = (w.setLink d fs).link := by
    intro d fs
    simp [hw.link]
  cases a with
  | op d o =>
      have hd := hopen d rfl
      obtain ⟨s, hs, rfl⟩ := Option.map_eq_some_iff.mp hstep
      refine ⟨g.setSess d s, ?_, hw.link, hbeside hd ?_ rfl rfl, fun _ _ hf _ => hf⟩
      · simp [step, hw.same d hd, hs]
      · simpa [setSess] using hopen' d rfl
  | flush d picks =>
      have hd := hopen d rfl
      obtain ⟨⟨packets, s⟩, hs, rfl⟩ := Option.map_eq_some_iff.mp hstep
      refine ⟨(g.setSess d s).setLink d (g.link d ++ packets), ?_, ?_, hbeside hd ?_ rfl rfl, ?_⟩
      · simp [step, hw.same d hd, hs]
      · rw [hw.link]
        exact hlink d _
      · simpa [setSess] using hopen' d rfl
      · apply hsub d
        intro f hf hflag
        rcases List.mem_append.mp hf with hf | hf
        · exact hf
        · exact absurd hflag (((hw.leftover hd).packets hs).1 f hf).2.2
  | recv d i busy | recvDatagram d i busy =>
      have hd := hopen d rfl
      obtain ⟨f, hf, rfl⟩ := Option.map_eq_some_iff.mp hstep
      refine ⟨(g.setSess d _).setLink d.other ((w.link d.other).eraseIdx i), ?_, hlink d.other _,
        hbeside hd ?_ rfl rfl, ?_⟩
      · simp [step, hw.link, hf, hw.same d hd]
      · simpa [setSess] using hopen' d rfl
      · apply hsub d.other
        exact fun f hf _ => List.mem_of_mem_eraseIdx hf
  | drop d i =>
      obtain ⟨f, hf, rfl⟩ := Option.map_eq_some_iff.mp hstep
      refine ⟨g.setLink d ((w.link d).eraseIdx i), ?_, hlink d _, fun _ => .inr ⟨rfl, rfl⟩, ?_⟩
      · simp [step, hw.link, hf]
      · apply hsub d
        exact fun f hf _ => List.mem_of_mem_eraseIdx hf
  | dup d i =>
      obtain ⟨f, hf, rfl⟩ := Option.map_eq_some_iff.mp hstep
      refine ⟨g.setLink d (w.link d ++ [f]), ?_, hlink d _, fun _ => .inr ⟨rfl, rfl⟩, ?_⟩
      · simp [step, hw.link, hf]
      · apply hsub d
        intro g hg _
        rcases List.mem_append.mp hg with hg | hg
        · exact hg
        · obtain rfl := List.mem_singleton.mp hg
          exact List.mem_of_getElem? hf

/-- An action of an open session does not close it, unless it is closed by a frame that it
receives.  Then it is closed in the end. -/
theorem Parted.open_or_closes (hw : g.Parted w) (hrel : ∀ d, (cfg d).reliability = true)
    {terms : Terms} {a : Action} (hallows : Net.Allows cfg terms g a)
    (hopen : ∀ d ∈ actor a, (w.sess d).closed = false) (hhears : Peers.hearsGoAway w a = none)
    (hstep : w.step cfg a = some w') :
  (∀ d ∈ actor a, (w'.sess d).closed = false)
    ∨ ∃ d i f s, (w.sess d).closed = false ∧ (w.link d.other)[i]? = some f
      ∧ Station.Moves (cfg d) (terms.rules d) { sess := g.sess d, hand := [f] } { sess := s }
      ∧ (terms.ordered → i = 0) ∧ f.flag ≠ .goaway
      ∧ w' = (w.setSess d (s.closeSession (cfg d))).setLink d.other ((w.link d.other).eraseIdx i)
  := by
  cases a with
  | op d o =>
      left
      intro e he
      obtain rfl : d = e := Option.some.inj he
      have hd := hopen d rfl
      obtain ⟨s, hs, rfl⟩ := Option.map_eq_some_iff.mp hstep
      rw [← hw.same d hd] at hs
      have hmoves : Station.Moves (cfg d) (terms.rules d) { sess := g.sess d } { sess := s } :=
        Station.moves_perform (t := { sess := g.sess d }) (hw.opened d) rfl rfl
          (hw.shape.st d).scan.scans (hw.shape.st d).timed hallows hs
      simpa [setSess] using hmoves.closed_next.1.trans (hw.opened d)
  | flush d picks =>
      left
      intro e he
      obtain rfl : d = e := Option.some.inj he
      have hd := hopen d rfl
      obtain ⟨⟨packets, s⟩, hs, rfl⟩ := Option.map_eq_some_iff.mp hstep
      simpa [setSess] using ((hw.leftover hd).packets hs).2.closed.trans hd
  | recv d i busy =>
      have hd := hopen d rfl
      obtain ⟨f, hf, rfl⟩ := Option.map_eq_some_iff.mp hstep
      have hgoaway : f.flag ≠ .goaway := by
        intro hflag
        simp [Peers.hearsGoAway, hf, hflag] at hhears
      have hlink : (g.link d.other)[i]? = some f := by rwa [hw.link]
      obtain ⟨hordered, hlate, hprompt, -⟩ := hallows
      obtain ⟨s, hmoves, hres⟩ : ∃ s, Station.Moves (cfg d) (terms.rules d)
          { sess := g.sess d, hand := [f] } { sess := s } ∧ _ :=
        Station.moves_receiveStream_or (t := { sess := g.sess d, hand := [f] }) (hw.opened d)
          (hw.shape.st d).tabled rfl rfl (hw.shape.link _ f (List.mem_of_getElem? hlink))
          (hlate f hlink) (hprompt f hlink) busy hgoaway (.inl (hrel d))
      simp only [hw.same d hd] at hres
      rcases hres with hres | hres
      · left
        intro e he
        obtain rfl : d = e := Option.some.inj he
        have hclosed : s.closed = false := hmoves.closed_next.1.trans (hw.opened d)
        simpa [setSess, hres] using hclosed
      · right
        exact ⟨d, i, f, s, hd, hf, hmoves, hordered, hgoaway, by rw [hres]⟩
  | recvDatagram d i busy =>
      left
      intro e he
      obtain rfl : d = e := Option.some.inj he
      have hd := hopen d rfl
      obtain ⟨f, hf, rfl⟩ := Option.map_eq_some_iff.mp hstep
      have hgoaway : f.flag ≠ .goaway := by
        intro hflag
        simp [Peers.hearsGoAway, hf, hflag] at hhears
      have hlink : (g.link d.other)[i]? = some f := by rwa [hw.link]
      obtain ⟨hordered, hlate, -⟩ := hallows
      have hmoves : Station.Moves (cfg d) (terms.rules d) _ _ :=
        Station.moves_receiveDatagram (hrel d) (t := { sess := g.sess d, hand := [f] })
          (hw.opened d) (hw.shape.st d).tabled rfl rfl
          (hw.shape.link _ f (List.mem_of_getElem? hlink))
          (hlate f hlink) busy hgoaway
      have hclosed := hmoves.closed_next.1.trans (hw.opened d)
      simp only [Station.put, hw.same d hd] at hclosed
      simpa [setSess] using hclosed
  | drop | dup => exact .inl (by simp [actor])

end World

end Muxocket
