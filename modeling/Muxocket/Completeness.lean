import Muxocket.Parting

/-!
# The end of a stream certifies that it is complete

With retransmissions a reader that reports the end of a stream has returned all that its peer
has written, whatever the transport does and whichever of the sessions is closed.  This needs
that a session which hears the goodbye of its peer has got all that was written on the channels
whose end it has not seen, since it takes the goodbye for their end.
-/

namespace Muxocket

open Session

open ReadLoop

namespace World

variable {g w w' : World} {d : Side} {k : Nat} {r : Reader}

/-- What is known of a channel of a closed session that is not closed itself, and of its reader.
If its stream has ended, or its peer has said goodbye, it has the whole of the stream, and
the reader does not throw it away. -/
structure Settled (w : World) (d : Side) (k : Nat) (r : Reader) : Prop where
  drainable : ((w.sess d).heap k).readDone = true → ((w.sess d).heap k).drainable = true
  whole : ((w.sess d).heap k).readDone = true ∨ (w.sess d).goAwayRecv = true →
    w.Whole d k (((w.sess d).heap k).delivered ++ ((w.sess d).heap k).buffers.flatten)
  calm : ((w.sess d).heap k).readDone = true ∨ (w.sess d).goAwayRecv = true → r ≠ .draining
  alive : ((w.sess d).heap k).readDone = false →
    (w.sess d).channels ((w.sess d).heap k).id = some k

/-- Nothing has changed for the reader. -/
theorem Settled.of_eq (hk : w.Settled d k r)
    (hgone : (w'.sess d).goAwayRecv = (w.sess d).goAwayRecv)
    (hread : ((w'.sess d).heap k).readDone = ((w.sess d).heap k).readDone)
    (hdrainable : ((w'.sess d).heap k).drainable = ((w.sess d).heap k).drainable)
    (hbytes : ((w.sess d).heap k).readDone = true ∨ (w.sess d).goAwayRecv = true →
      ((w'.sess d).heap k).delivered ++ ((w'.sess d).heap k).buffers.flatten
        = ((w.sess d).heap k).delivered ++ ((w.sess d).heap k).buffers.flatten)
    (hchannels : (w'.sess d).channels = (w.sess d).channels)
    (hkeeps : ∀ e, (w.sess e).Keeps (w'.sess e)) (hlt : k < (w.sess d).next) {r' : Reader}
    (hcalm : ((w.sess d).heap k).readDone = true ∨ (w.sess d).goAwayRecv = true → r' ≠ .draining) :
  w'.Settled d k r'
  where
  drainable h := hdrainable.trans (hk.drainable (hread.symm.trans h))
  whole h := by
    rw [hread, hgone] at h
    rw [hbytes h]
    exact (hk.whole h).keeps hkeeps hlt
  calm h := by
    rw [hread, hgone] at h
    exact hcalm h
  alive h := by
    rw [hchannels, (hkeeps d).ids k hlt]
    exact hk.alive (hread.symm.trans h)

/-- The channels of a closed session are ended. -/
theorem Settled.endChannels (hk : w.Settled d k r) (cfg : SessionConfig)
    (hclosed : (w.sess d).closed = true) (hlt : k < (w.sess d).next)
    (hopen : (((w.sess d).endChannels cfg).heap k).closed = false) :
  (w.setSess d ((w.sess d).endChannels cfg)).Settled d k r
  := by
  obtain ⟨hlasts, hnone, hother, hends⟩ := endsAll_endChannels cfg hclosed
  generalize (w.sess d).endChannels cfg = s at *
  have hself : (w.setSess d s).sess d = s := sess_setSess d s w
  have hkeeps := forall_setSess Session.Keeps.refl hlasts.keeps
  by_cases hmem : k ∈ (w.sess d).activeChannels
  · have hend := hends k hmem
    have hgone : (w.sess d).goAwayRecv = true := by
      have hclosed' := hend.closed
      rw [hopen] at hclosed'
      simp_all
    have hbuffers : (s.heap k).buffers = ((w.sess d).heap k).buffers := by
      rcases hend.buffers with hsame | ⟨hnot, -⟩
      · exact hsame
      · simp [hgone] at hnot
    constructor
    · intro _
      rw [hself]
      exact hend.drainable hgone
    · intro _
      rw [hself, hend.delivered, hbuffers]
      exact (hk.whole (.inr hgone)).keeps hkeeps hlt
    · exact fun _ => hk.calm (.inr hgone)
    · intro hread
      rw [hself, hend.readDone] at hread
      contradiction
  · have hheap := hother k hmem
    have hread : ((w.sess d).heap k).readDone = true := by
      by_contra hread
      refine hmem (List.mem_filter.mpr ⟨List.mem_range.mpr hlt, ?_⟩)
      simpa using hk.alive (by simpa using hread)
    constructor
    · rw [hself, hheap]
      exact hk.drainable
    · intro _
      rw [hself, hheap]
      exact (hk.whole (.inl hread)).keeps hkeeps hlt
    · exact fun _ => hk.calm (.inl hread)
    · intro hread'
      rw [hself, hheap, hread] at hread'
      contradiction

/-- An open session is closed, which may have heard the goodbye of its peer. -/
theorem Parted.settled (hw : g.Parted w) (hopen : (w.sess d).closed = false)
    (hlt : k < (w.sess d).next) (hclosed : ((w.sess d).heap k).closed = false) {whole : Prop}
    (hknows : r.Knows ((w.sess d).view k) whole) {s : Session} (hheap : s.heap = (w.sess d).heap)
    (hchannels : s.channels = (w.sess d).channels)
    (hgone : s.goAwayRecv = true → (w.sess d.other).closed = true
      ∧ (((w.sess d).heap k).readDone = false → ((w.sess d).heap k).readOffset
        = ((w.sess d.other).sentBy ((w.sess d).heap k).id).flatten.length)) :
  (w.setSess d s).Settled d k r
  := by
  have hself : (w.setSess d s).sess d = s := sess_setSess d s w
  have hother : (w.setSess d s).sess d.other = w.sess d.other :=
    sess_setSess_of_ne (Side.other_ne d) s w
  have hshape := hw.shape.st d
  simp only [Net.ofWorld, hw.same d hopen] at hshape
  constructor
  · rw [hself, hheap]
    intro hread
    exact ((hshape.ring k hlt).readDone hread).resolve_right (by simp [hclosed])
  · unfold Whole
    rw [hself, hother, hheap]
    intro h
    by_cases hread : ((w.sess d).heap k).readDone = true
    · exact hw.whole hopen hlt hclosed hread
    · obtain ⟨hclosed', hall⟩ := hgone (h.resolve_left hread)
      refine ⟨?_, .inr hclosed'⟩
      rw [hw.delivered hopen hlt hclosed, hall (by simpa using hread), List.take_length]
  · rintro - rfl
    rcases hknows with h | h
    · simp [view, hclosed] at h
    · simp [view, hopen] at h
  · rw [hself, hheap, hchannels]
    intro hread
    apply hshape.table.live k hlt
    by_contra hdone
    have hfinalized := ((hshape.streams k hlt).finalized (by simpa using hdone)).1
    simp [hread] at hfinalized

end World

/-! ### Readers of closed sessions -/

/-- A reader throws away what is in its ring when it has found its channel closed, or the ring
not drainable. -/
theorem ReadLoop.Reader.step_draining {v : Shared} {r : Reader} {o : Choice} {t : Turn}
    (hstep : r.step v o = some t) (hdraining : t.reader = .draining) :
  v.closed = true ∨ v.drainable = false ∧ r.probes = true
  := by
  have hpass : ∀ k : Spot, (k.pass v).reader ≠ .draining := by
    intro k
    cases k <;> simp [Spot.pass]
  unfold Reader.step at hstep
  split at hstep
  · cases hstep
    split at hdraining <;> simp_all
  · cases hstep
    split at hdraining
    · left
      assumption
    · split at hdraining
      · contradiction
      · exact absurd hdraining (hpass _)
  · cases hstep
    split at hdraining
    · exact absurd hdraining (hpass _)
    · rename_i hnot
      right
      exact ⟨by simpa using hnot, rfl⟩
  · split at hstep
    · contradiction
    · cases hstep
      contradiction
  · cases hstep
    unfold Pass.scan at hdraining
    split at hdraining <;> first | contradiction | (split at hdraining <;> contradiction)
  · split at hstep
    · cases hstep
      unfold Pass.accept at hdraining
      split at hdraining <;> contradiction
    · contradiction
  · cases hstep
    dsimp only at hdraining
    split at hdraining <;> contradiction
  · cases hstep
    unfold Pass.finish at hdraining
    split at hdraining
    · split at hdraining
      · contradiction
      · split at hdraining <;> contradiction
    · split at hdraining <;> contradiction
  · cases hstep
    contradiction
  · split at hstep
    · cases hstep
      contradiction
    · contradiction
  · cases hstep
    contradiction
  · cases hstep
    contradiction
  · contradiction

namespace Peers

variable {G : Side → Nat → World → Bytes → Prop} {cfg : Side → SessionConfig} {p p' : Peers}

/-- What a step of a reader does in a closed session: the bytes that have been delivered and
those in the ring stay the same together, unless they are thrown away. -/
structure Turns (e : Side) (k : Nat) (s : Session) (c : Channel) (p p' : Peers) : Prop where
  world : p'.world = p.world.setSess e s
  lasts : (p.world.sess e).Lasts s
  alone : (p.world.sess e).Alone k c s
  closed : c.closed = ((p.world.sess e).heap k).closed
  readDone : c.readDone = ((p.world.sess e).heap k).readDone
  drainable : c.drainable = ((p.world.sess e).heap k).drainable
  bytes : p.reader e k ≠ .draining → c.delivered ++ c.buffers.flatten
    = ((p.world.sess e).heap k).delivered ++ ((p.world.sess e).heap k).buffers.flatten
  drains : p'.reader e k = .draining → ((p.world.sess e).heap k).closed = true
    ∨ ((p.world.sess e).heap k).drainable = false ∧ (p.reader e k).probes = true

theorem reader_afterCall (e : Side) (k : Nat) (s : Session) (r : Reader) (out : Bytes)
    (report : Option Report) (p : Peers) :
  (p.afterCall e k s r out report).reader e k = r
  := by
  simp [afterCall]

variable {d e : Side} {k : Nat} {o : Choice} {w : World} {a : Action}

/-- A step of a reader is no step of another one. -/
theorem reader_call {e' : Side} {k' : Nat} (hcall : p.call cfg e k o = some p')
    (hne : ¬ (e' = e ∧ k' = k)) :
  p'.reader e' k' = p.reader e' k'
  := by
  have hother : ∀ s r out report,
      (p.afterCall e k s r out report).reader e' k' = p.reader e' k' := by
    intro s r out report
    by_cases he : e' = e
    · subst he
      have hk : k' ≠ k := fun heq => hne ⟨rfl, heq⟩
      simp [afterCall, hk]
    · simp [afterCall, he]
  rcases (call_cases hcall).2 with ⟨_, _, _, _, _, rfl⟩ | ⟨_, _, _, _, _, _, _, rfl⟩ | ⟨_, rfl⟩
    | ⟨_, _, _, rfl⟩ | ⟨_, _, _, _, _, rfl⟩ <;> apply hother

theorem Reads.turns (hp : p.Reads G) (hclosed : (p.world.sess e).closed = true)
    (hwhole : p.Ends G e k) (hcall : p.call cfg e k o = some p') :
  ∃ s c, p.Turns e k s c p'
  := by
  obtain ⟨hk, hcases⟩ := call_cases hcall
  have hconsume : ∀ (b : Bytes) (bufs : List Bytes) (r : Reader) (out : Bytes),
      b ++ bufs.flatten = ((p.world.sess e).heap k).buffers.flatten → r ≠ .draining →
      ∃ c, p.Turns e k ((p.world.sess e).consumeRing (cfg e) k b bufs) c
        (p.afterCall e k ((p.world.sess e).consumeRing (cfg e) k b bufs) r out none) := by
    intro b bufs r out hbytes hr
    obtain ⟨sf, halone⟩ := alone_consumeRing (cfg e) k b bufs (p.world.sess e)
    refine ⟨_, rfl, lasts_consumeRing (cfg e) hclosed k b bufs, halone, rfl, rfl, rfl,
      fun _ => ?_, fun h => absurd ((reader_afterCall ..).symm.trans h) hr⟩
    rw [← hbytes]
    exact List.append_assoc _ _ _
  have hstay : ∀ (r : Reader) (out : Bytes) (report : Option Report),
      (r = .draining → ((p.world.sess e).heap k).closed = true
        ∨ ((p.world.sess e).heap k).drainable = false ∧ (p.reader e k).probes = true) →
      p.Turns e k (p.world.sess e) ((p.world.sess e).heap k)
        (p.afterCall e k (p.world.sess e) r out report) := by
    intro r out report hr
    exact ⟨rfl, .refl _, .refl k _, rfl, rfl, rfl, fun _ => rfl,
      fun h => hr ((reader_afterCall ..).symm.trans h)⟩
  rcases hcases with ⟨n, sawDone, again, acc, hreader, rfl⟩
    | ⟨l, b, n, fails, hreader, hn, hle, rfl⟩
    | ⟨hreader, rfl⟩ | ⟨l, b, hreader, rfl⟩ | ⟨t, ht, hwrite, hdrain, hread, rfl⟩
  · unfold readRing
    dsimp only
    split
    · exact ⟨_, _, hstay _ _ _ (by simp)⟩
    · exact ⟨_, hconsume _ _ _ _ (Station.takeBytes_flatten n _).symm (by simp)⟩
  · have hr : (if fails = true ∨ n < b.length then Reader.unlocking else .scanning l [])
        ≠ .draining := by
      split <;> simp
    unfold advance
    split
    · exact ⟨_, _, hstay _ _ _ fun h => absurd h hr⟩
    · rename_i b' bufs hbufs
      refine ⟨_, hconsume _ _ _ _ ?_ hr⟩
      rw [hbufs, List.flatten_cons, take_dropFront]
  · obtain ⟨c, halone, hclosed', hread, hdrainable, -, -⟩ :=
      alone_drainRing (cfg e) k (p.world.sess e)
    refine ⟨_, c, rfl, lasts_drainRing (cfg e) hclosed k, halone, hclosed', hread, hdrainable,
      fun h => absurd hreader h, fun h => ?_⟩
    rw [reader_afterCall] at h
    contradiction
  · exact ⟨_, _, hstay _ _ _ (by simp)⟩
  · have hlearns := hp.learns hwhole hk ht hwrite hdrain hread
    by_cases hreport : t.report = some .eof
    · obtain ⟨hunlocking, hdone, hempty, -⟩ := hlearns.eof hreport
      rw [if_pos hreport, hunlocking]
      refine ⟨_, _, rfl, ?_, alone_update k _ _, rfl, rfl, rfl, fun _ => ?_, fun h => ?_⟩
      · apply lasts_update <;> rfl
      · change ((p.world.sess e).heap k).buffers.flatten = [] at hempty
        rw [hempty]
        rfl
      · rw [reader_afterCall] at h
        contradiction
    · rw [if_neg hreport]
      exact ⟨_, _, hstay _ _ _ fun h => Reader.step_draining ht h⟩

/-! ### Runs -/

/-- Two sessions with their readers, of which `g` is the world before the sessions closed. -/
structure Certified (g : World) (p : Peers) : Prop where
  parted : g.Parted p.world
  settled : ∀ d, (p.world.sess d).closed = true → ∀ k < (p.world.sess d).next,
    ((p.world.sess d).heap k).closed = false → p.world.Settled d k (p.reader d k)
  reads : p.Reads World.Whole

theorem certified_init (cfg : Side → SessionConfig) (now : Side → Int) :
  (init cfg now).Certified (World.init cfg now)
  where
  parted := World.parted_init cfg now
  settled d hclosed := by
    simp [init] at hclosed
  reads := by
    refine ⟨fun _ _ => trivial, ?_, fun _ _ _ => ⟨rfl, rfl⟩, by simp [init]⟩
    intro e k hk
    simp [init] at hk

variable {g : World}

section

variable (hp : p.Certified g)

include hp

/-- The sessions go on while the readers wait.  A session that stays closed stays settled. -/
theorem Certified.world {g' : World} {gone : Side → Bool} (hparted : g'.Parted w)
    (hleaves : ∀ e, (p.world.sess e).Leaves (w.sess e))
    (hkeeps : ∀ e, (p.world.sess e).Keeps (w.sess e))
    (hsettled : ∀ d, (w.sess d).closed = true → ∀ k < (w.sess d).next,
      ((w.sess d).heap k).closed = false → w.Settled d k (p.reader d k)) :
  Certified g' { p with world := w, gone := gone }
  := ⟨hparted, hsettled, hp.reads.world hleaves fun _ _ hk _ hb => hb.keeps hkeeps hk⟩

theorem Certified.whole (hk : k < (p.world.sess e).next) :
  p.Ends World.Whole e k
  := by
  intro hread hclosed hempty
  have hwhole : p.world.Whole e k (((p.world.sess e).heap k).delivered
      ++ ((p.world.sess e).heap k).buffers.flatten) := by
    by_cases hopen : (p.world.sess e).closed = true
    · exact (hp.settled e hopen k hk hclosed).whole (.inl hread)
    · exact hp.parted.whole (by simpa using hopen) hk hclosed hread
  rwa [hempty, List.append_nil] at hwhole

/-- A channel of a session that is as it was stays settled. -/
theorem Certified.settled_of_same (hkeeps : ∀ e, (p.world.sess e).Keeps (w.sess e))
    (hsame : w.sess d = p.world.sess d) (hclosed : (w.sess d).closed = true)
    (hk : k < (w.sess d).next) (hopen : ((w.sess d).heap k).closed = false) :
  w.Settled d k (p.reader d k)
  := by
  rw [hsame] at hclosed hk hopen
  have hsettled := hp.settled d hclosed k hk hopen
  refine hsettled.of_eq ?_ ?_ ?_ (fun _ => ?_) ?_ hkeeps hk hsettled.calm <;> rw [hsame]

/-- A step of a reader of an open session. -/
theorem Certified.call_open (hrel : ∀ d, (cfg d).reliability = true)
    (hopen : (p.world.sess e).closed = false) (hcall : p.call cfg e k o = some p') :
  ∃ g', p'.Certified g'
  := by
  have hk := (call_cases hcall).1
  have hwhole := hp.whole hk
  obtain ⟨s, hs, hmoves⟩ := hp.reads.moves_call
    (r := (Net.lossyTerms (fun _ _ => True) fun _ _ => False).rules e) hopen trivial hwhole hcall
  rw [← hp.parted.same e hopen] at hmoves
  have hsteps : Net.Steps cfg _ (Net.ofWorld g) (Net.ofWorld (g.setSess e s)) :=
    Net.steps_setSess hmoves
  have hopen' : s.closed = false := by
    have hmarks := (hsteps.marks_eq e).1
    simp only [Net.ofWorld, World.setSess, Function.update_self] at hmarks
    rw [hmarks]
    exact hp.parted.opened e
  have hbeside : g.Beside p.world (g.setSess e s) p'.world := by
    intro e'
    rw [hs]
    by_cases he : e' = e
    · subst he
      left
      simpa using ⟨hopen, hopen'⟩
    · right
      simp [he]
  obtain ⟨hparted, hkeeps⟩ := hp.parted.steps hrel (fun _ _ => trivial) hsteps
    (by rw [hs]; exact hp.parted.link) hbeside (fun e f hf _ => by rw [hs] at hf; exact hf)
  refine ⟨_, hparted, fun d hclosed k' hk' hchannel => ?_,
    hp.reads.call hcall hwhole fun _ _ hk _ hb => hb.keeps hkeeps hk⟩
  have hne : d ≠ e := by
    rintro rfl
    simp [hs, hopen'] at hclosed
  rw [reader_call hcall fun h => hne h.1]
  exact hp.settled_of_same hkeeps (by simp [hs, hne]) hclosed hk' hchannel

/-- A step of a reader of a closed session. -/
theorem Certified.call_closed (hclosed : (p.world.sess e).closed = true)
    (htimely : (p.reader e k).probes = true → (p.world.sess e).goAwayRecv = true →
      ((p.world.sess e).heap k).drainable = true ∨ ((p.world.sess e).heap k).closed = true)
    (hcall : p.call cfg e k o = some p') :
  p'.Certified g
  := by
  have hk := (call_cases hcall).1
  have hwhole := hp.whole hk
  obtain ⟨s, c, hturns⟩ := hp.reads.turns hclosed hwhole hcall
  have hkeeps : ∀ e', (p.world.sess e').Keeps (p'.world.sess e') := by
    rw [hturns.world]
    exact World.forall_setSess Session.Keeps.refl hturns.lasts.keeps
  refine ⟨?_, fun d hclosed' k' hk' hopen => ?_,
    hp.reads.call hcall hwhole fun _ _ hk _ hb => hb.keeps hkeeps hk⟩
  · rw [hturns.world]
    exact hp.parted.lasts hclosed hturns.lasts
  by_cases he : d = e
  · subst he
    have hself : p'.world.sess d = s := by simp [hturns.world]
    rw [hself] at hk' hopen
    rw [hturns.lasts.next] at hk'
    by_cases hkk : k' = k
    · subst hkk
      rw [hturns.alone.self, hturns.closed] at hopen
      have hsettled := hp.settled d hclosed k' hk hopen
      refine hsettled.of_eq ?_ ?_ ?_ (fun h => ?_) ?_ hkeeps hk fun h hdrains => ?_
      · rw [hself, hturns.lasts.goAwayRecv]
      · rw [hself, hturns.alone.self, hturns.readDone]
      · rw [hself, hturns.alone.self, hturns.drainable]
      · rw [hself, hturns.alone.self]
        exact hturns.bytes (hsettled.calm h)
      · rw [hself, hturns.alone.channels]
      · rcases hturns.drains hdrains with hshut | ⟨hnot, hprobes⟩
        · simp [hopen] at hshut
        · have hdrainable : ((p.world.sess d).heap k').drainable = true := by
            rcases h with hread | hgone
            · exact hsettled.drainable hread
            · exact (htimely hprobes hgone).resolve_right (by simp [hopen])
          simp [hnot] at hdrainable
    · rw [hturns.alone.of_ne hkk] at hopen
      have hsettled := hp.settled d hclosed k' hk' hopen
      rw [reader_call hcall fun h => hkk h.2]
      refine hsettled.of_eq ?_ ?_ ?_ (fun h => ?_) ?_ hkeeps hk' hsettled.calm
      · rw [hself, hturns.lasts.goAwayRecv]
      · rw [hself, hturns.alone.of_ne hkk]
      · rw [hself, hturns.alone.of_ne hkk]
      · rw [hself, hturns.alone.of_ne hkk]
      · rw [hself, hturns.alone.channels]
  · rw [reader_call hcall fun h => he h.1]
    exact hp.settled_of_same hkeeps (by simp [hturns.world, he]) hclosed' hk' hopen

/-- The open sessions make steps in which nothing is read. -/
theorem Certified.steps (hrel : ∀ d, (cfg d).reliability = true) {g' : World}
    (hsteps : Net.Steps cfg Net.silentTerms (Net.ofWorld g) (Net.ofWorld g'))
    (hlink : g'.link = w.link) (hbeside : g.Beside p.world g' w)
    (hgoaway : ∀ e, ∀ f ∈ w.link e, f.flag = .goaway → f ∈ p.world.link e) :
  Certified g' { p with world := w }
  := by
  obtain ⟨hparted, hkeeps⟩ :=
    hp.parted.steps hrel (fun _ _ => trivial) hsteps hlink hbeside hgoaway
  apply hp.world hparted _ hkeeps
  · intro d hclosed k hk hopen
    rcases hbeside d with ⟨-, hopen', -⟩ | ⟨-, hsame⟩
    · simp [hopen'] at hclosed
    · exact hp.settled_of_same hkeeps hsame hclosed hk hopen
  · intro e
    rcases hbeside e with ⟨hopen, -, hsame⟩ | ⟨-, hsame⟩
    · rw [← hp.parted.same e hopen, ← hsame]
      exact hsteps.leaves_certain hp.parted.shape hrel hp.parted.net e
    · rw [hsame]
      exact .refl _

/-- An open session is closed, which may have heard the goodbye of its peer. -/
theorem Certified.mark (hopen : (p.world.sess d).closed = false) {s : Session}
    (hnext : s.next = (p.world.sess d).next) (hheap : s.heap = (p.world.sess d).heap)
    (hchannels : s.channels = (p.world.sess d).channels)
    (hwrites : s.writes = (p.world.sess d).writes)
    (hctrl : s.ctrlQueue = (p.world.sess d).ctrlQueue) (hclosed : s.closed = true)
    (hgone : s.goAwayRecv = true → (p.world.sess d.other).closed = true
      ∧ ∀ k < (p.world.sess d).next, ((p.world.sess d).heap k).closed = false →
        ((p.world.sess d).heap k).readDone = false → ((p.world.sess d).heap k).readOffset
          = ((p.world.sess d.other).sentBy ((p.world.sess d).heap k).id).flatten.length) :
  Certified g { p with world := p.world.setSess d s }
  := by
  have hsame := sameStreams_of_heap hnext hheap
  have hkeeps := World.forall_setSess Session.Keeps.refl (hsame.keeps fun _ => hclosed)
  have hleaves := World.forall_setSess Session.Leaves.refl
    (leaves_of_heap hnext hheap fun _ => hclosed)
  apply hp.world _ hleaves hkeeps
  · intro e hclosed' k hk hopen'
    by_cases he : e = d
    · subst he
      rw [World.sess_setSess] at hk hopen'
      rw [hnext] at hk
      rw [hheap] at hopen'
      exact hp.parted.settled hopen hk hopen' (hp.reads.knows e k) hheap hchannels
        fun h => ⟨(hgone h).1, (hgone h).2 k hk hopen'⟩
    · exact hp.settled_of_same hkeeps (World.sess_setSess_of_ne he _ _) hclosed' hk hopen'
  · apply hp.parted.mark hclosed hsame _ fun h => (hgone h).1
    apply (hp.parted.leftover hopen).of_subset hsame
    · rw [hwrites]
      exact List.Subset.refl _
    · rw [hctrl]
      exact List.Subset.refl _

/-- The channels of a closed session are ended. -/
theorem Certified.endChannels (cfg : SessionConfig) (hclosed : (p.world.sess d).closed = true) :
  Certified g { p with world := p.world.setSess d ((p.world.sess d).endChannels cfg) }
  := by
  obtain ⟨hlasts, -⟩ := endsAll_endChannels cfg hclosed
  have hends := leaves_endChannels cfg hclosed
  have hkeeps := World.forall_setSess Session.Keeps.refl hlasts.keeps
  have hleaves := World.forall_setSess Session.Leaves.refl hends
  apply hp.world (hp.parted.lasts hclosed hlasts) hleaves hkeeps
  intro e hclosed' k hk hopen
  by_cases he : e = d
  · subst he
    rw [World.sess_setSess] at hk hopen
    rw [hlasts.next] at hk
    exact (hp.settled e hclosed k hk ((hends.heap k hk).closed hopen)).endChannels cfg hclosed hk
      hopen
  · exact hp.settled_of_same hkeeps (World.sess_setSess_of_ne he _ _) hclosed' hk hopen

/-- Frames of a closed session are put on the transport. -/
theorem Certified.sendMore {fs : List PacketFrame} {gone : Side → Bool}
    (hclosed : (p.world.sess d).closed = true) (hsound : ∀ f ∈ fs, f.Sound)
    (hgenuine : ∀ f ∈ fs,
      f.PartOf ((p.world.sess d).sentBy f.chID) ((p.world.sess d).Ended f.chID)) :
  ∃ g', Certified g' { p with world := p.world.setLink d (p.world.link d ++ fs), gone := gone }
  := by
  have hparted := hp.parted.sendMore hsound hgenuine fun _ _ _ => hclosed
  refine ⟨_, hp.world hparted (fun _ => .refl _) (fun _ => .refl _) ?_⟩
  intro e hclosed' k hk hopen
  exact hp.settled_of_same (w := p.world.setLink d _) (fun _ => .refl _) rfl hclosed' hk hopen

/-- The writer of a closed session flushes its queues. -/
theorem Certified.flush_closed {picks : List Bool} (hclosed : (p.world.sess d).closed = true)
    (hstep : p.world.step cfg (.flush d picks) = some w) :
  ∃ g', Certified g' { p with world := w }
  := by
  obtain ⟨⟨packets, s⟩, hs, rfl⟩ := Option.map_eq_some_iff.mp hstep
  obtain ⟨hpackets, hflushes⟩ := (hp.parted.left d hclosed).packets hs
  have hbuffers : ∀ k, (s.heap k).buffers = ((p.world.sess d).heap k).buffers := by
    intro k
    rw [Channel.buffers, Channel.buffers, hflushes.ring]
  have hstill : (p.world.sess d).Leaves s := by
    refine ⟨hflushes.next.ge, fun h => hflushes.closed.trans h, fun k _ => ?_, fun k hk hk' => ?_⟩
    · obtain ⟨hclosed', hread, -⟩ := hflushes.marks k
      refine ⟨fun h => hclosed'.symm.trans h, fun h => hread.trans h, fun _ b bufs hbufs => ?_,
        fun _ h => ?_, hflushes.delivered k⟩
      · exact ⟨bufs, (hbuffers k).trans hbufs⟩
      · rw [hbuffers, h]
    · rw [hflushes.next] at hk'
      omega
  have hkeeps := World.forall_setSess Session.Keeps.refl hflushes.toLasts.keeps
  have hmarked : Certified g { p with world := p.world.setSess d s } := by
    apply hp.world (hp.parted.lasts hclosed hflushes.toLasts)
      (World.forall_setSess Session.Leaves.refl hstill) hkeeps
    intro e hclosed' k hk hopen
    by_cases he : e = d
    · subst he
      obtain ⟨hsame, hread, hdrainable⟩ := hflushes.marks k
      rw [World.sess_setSess] at hk hopen
      rw [hflushes.next] at hk
      rw [hsame] at hopen
      have hsettled := hp.settled e hclosed k hk hopen
      apply hsettled.of_eq _ _ _ _ _ hkeeps hk hsettled.calm <;> rw [World.sess_setSess]
      · exact hflushes.goAwayRecv
      · exact hread
      · exact hdrainable
      · rw [hflushes.delivered, hbuffers]
        exact fun _ => rfl
      · exact hflushes.channels
    · exact hp.settled_of_same hkeeps (World.sess_setSess_of_ne he _ _) hclosed' hk hopen
  apply hmarked.sendMore
  · rw [World.sess_setSess, hflushes.closed, hclosed]
  · exact fun f hf => (hpackets f hf).1
  · intro f hf
    rw [World.sess_setSess, hflushes.toLasts.sentBy_eq, propext (hflushes.toLasts.ended_iff _)]
    exact (hpackets f hf).2.1

end

theorem allows_silent (hrel : ∀ d, (cfg d).reliability = true) (henabled : p.enabled a = true)
    (honce : w.OpensOnce a) :
  Net.Allows cfg Net.silentTerms w a
  := by
  apply Net.allows_lossy hrel not_false (fun _ _ => trivial) (fun _ => not_false)
  rintro d o rfl
  exact honce.follows (fun _ _ => not_false) (.inr (not_reads_of_enabled henabled))

/-- A session that acts is open, unless it flushes its queues. -/
theorem actor_open_or_flush (henabled : p.enabled a = true) :
  (∀ d ∈ World.actor a, (p.world.sess d).closed = false)
    ∨ ∃ d picks, a = .flush d picks ∧ (p.world.sess d).closed = true
  := by
  cases a with
  | op d o =>
      left
      intro e he
      obtain rfl : d = e := Option.some.inj he
      cases o with
      | read | writeTo => simp [enabled] at henabled
      | _ => simpa [enabled] using henabled
  | flush d picks =>
      cases hclosed : (p.world.sess d).closed with
      | true => exact .inr ⟨d, picks, rfl, hclosed⟩
      | false =>
          left
          intro e he
          obtain rfl : d = e := Option.some.inj he
          exact hclosed
  | recv d i busy | recvDatagram d i busy =>
      left
      intro e he
      obtain rfl : d = e := Option.some.inj he
      simpa [enabled] using henabled
  | drop | dup => exact .inl nofun

section

variable (hp : p.Certified g)

include hp

/-- What a session opens for the first time, it had not opened before either. -/
theorem Certified.opensOnce (hopen : ∀ d ∈ World.actor a, (p.world.sess d).closed = false)
    (honce : p.world.OpensOnce a) :
  g.OpensOnce a
  := by
  cases a with
  | op d o =>
      cases o with
      | openChannel label =>
          rw [World.OpensOnce, hp.parted.same d (hopen d rfl)]
          exact honce
      | _ => trivial
  | _ => trivial

/-- An action that closes no session. -/
theorem Certified.act (hrel : ∀ d, (cfg d).reliability = true)
    (hallows : Net.Allows cfg Net.silentTerms g a)
    (hopen : ∀ d ∈ World.actor a, (p.world.sess d).closed = false)
    (hstep : p.world.step cfg a = some w)
    (hopen' : ∀ d ∈ World.actor a, (w.sess d).closed = false) :
  ∃ g', Certified g' { p with world := w }
  := by
  obtain ⟨g', hg', hlink, hbeside, hgoaway⟩ := hp.parted.act hopen hstep hopen'
  have hopened : ∀ e, (g'.sess e).closed = false := by
    intro e
    rcases hbeside e with ⟨-, hopen, hsame⟩ | ⟨hpast, -⟩
    · rwa [hsame]
    · rw [hpast]
      exact hp.parted.opened e
  have hsteps := Net.steps_of_step hp.parted.shape hp.parted.opened hopened hallows hg'
  exact ⟨g', hp.steps hrel hsteps hlink hbeside hgoaway⟩

/-- The application closes a session. -/
theorem Certified.close (hopen : (p.world.sess d).closed = false) :
  Certified g { p with world := p.world.setSess d (p.world.sess d).markClosed }
  := by
  apply hp.mark hopen <;> try rfl
  intro hgone
  have hclosed := hp.parted.gone d hgone d
  simp [hopen] at hclosed

/-- An open session closes itself because of a frame that it receives. -/
theorem Certified.closes (hrel : ∀ d, (cfg d).reliability = true) {i : Nat} {f : PacketFrame}
    {s : Session} (hopen : (p.world.sess d).closed = false)
    (hf : (p.world.link d.other)[i]? = some f)
    (hmoves : Station.Moves (cfg d) (Net.silentTerms.rules d) { sess := g.sess d, hand := [f] }
      { sess := s }) (hw : w = (p.world.setSess d (s.closeSession (cfg d))).setLink d.other
      ((p.world.link d.other).eraseIdx i)) :
  ∃ g', Certified g' { p with world := w }
  := by
  have hlink : (g.link d.other)[i]? = some f := by rwa [hp.parted.link]
  have hsteps : Net.Steps cfg Net.silentTerms _ _ := Net.steps_recv hlink False.elim hmoves
  have hopened : s.closed = false := hmoves.closed_next.1.trans (hp.parted.opened d)
  obtain ⟨w₁, hw₁⟩ : ∃ w₁, w₁ = (p.world.setSess d s).setLink d.other
    ((p.world.link d.other).eraseIdx i) := ⟨_, rfl⟩
  have hself : w₁.sess d = s := by
    rw [hw₁]
    exact World.sess_setSess d s p.world
  obtain ⟨g', hread⟩ : ∃ g', Certified g' { p with world := w₁ } := by
    refine ⟨_, hp.steps hrel hsteps ?_ (fun e => ?_) fun e f' hf' _ => ?_⟩
    · simp [hw₁, hp.parted.link]
    · by_cases he : e = d
      · subst he
        left
        simpa [hw₁] using ⟨hopen, hopened⟩
      · right
        simp [hw₁, he]
    · by_cases he : e = d.other
      · subst he
        simp only [hw₁, World.setLink, Function.update_self] at hf'
        exact List.mem_of_mem_eraseIdx hf'
      · simpa [hw₁, he] using hf'
  have hclose := hread.close (d := d) (by rwa [hself])
  have hend := hclose.endChannels (cfg d) (d := d) (by simp [markClosed])
  have hworld : w = (w₁.setSess d s.markClosed).setSess d (s.markClosed.endChannels (cfg d)) := by
    rw [hw, hw₁, closeSession_eq _ hopened]
    simp
  simp only [World.sess_setSess, hself] at hend
  rw [← hworld] at hend
  exact ⟨_, hend⟩

end

end Peers

/-! ### Completeness -/

/-- When a session hears the goodbye of its peer, it has got all that its peer has written on
the channels that it has not closed and whose end it has not seen. -/
def World.HearsAll (w : World) : Action → Prop
  | .recv d i _ | .recvDatagram d i _ =>
      ∀ f ∈ (w.link d.other)[i]?, f.flag = .goaway → ∀ k < (w.sess d).next,
        ((w.sess d).heap k).closed = false → ((w.sess d).heap k).readDone = false →
        ((w.sess d).heap k).readOffset
          = ((w.sess d.other).sentBy ((w.sess d).heap k).id).flatten.length
  | _ => True

instance (w : World) (a : Action) : Decidable (w.HearsAll a) :=
  match a with
  | .recv .. | .recvDatagram .. => by
      dsimp only [World.HearsAll]
      infer_instance
  | .op .. | .flush .. | .drop .. | .dup .. => .isTrue trivial

namespace Peers

variable {cfg : Side → SessionConfig} {p p' : Peers} {g : World}

/-- An event of a run in which no label is opened a second time, the sessions that hear a goodbye
have got everything, and no reader that has found its session closed by a goodbye looks whether
the ring is drainable before that has been stored. -/
def Timely (p : Peers) : Event → Prop
  | .act a => p.world.OpensOnce a ∧ p.world.HearsAll a
  | .call e k _ =>
      (p.reader e k).probes = true → (p.world.sess e).goAwayRecv = true →
        ((p.world.sess e).heap k).drainable = true ∨ ((p.world.sess e).heap k).closed = true
  | .close _ => True
  | .endChannels _ => True
  | .goAway _ => True

instance (p : Peers) (a : Event) : Decidable (p.Timely a) :=
  match a with
  | .act _ | .call .. => by
      dsimp only [Timely]
      infer_instance
  | .close _ | .endChannels _ | .goAway _ => .isTrue trivial

section

variable (hp : p.Certified g) (hrel : ∀ d, (cfg d).reliability = true)

include hp hrel

/-- A session hears the goodbye of its peer. -/
theorem Certified.hears {a : Action} (henabled : p.enabled a = true) (hall : p.world.HearsAll a)
    {w : World} (hhears : hearsGoAway p.world a = some w) :
  ∃ g', Certified g' { p with world := w }
  := by
  have hlose : ∀ (d : Side) (i : Nat) (f : PacketFrame), (p.world.link d.other)[i]? = some f →
      ∃ g', Certified g' { p with world := p.world.setLink d.other
                                    ((p.world.link d.other).eraseIdx i) } := by
    intro d i f hf
    apply hp.act hrel (a := .drop d.other i) ⟨not_false, fun f _ _ => not_false⟩ nofun _ nofun
    simp [World.step, hf]
  have hmark : ∀ (d : Side) (i : Nat) (f : PacketFrame), (p.world.sess d).closed = false →
      (p.world.link d.other)[i]? = some f → f.flag = .goaway →
      (∀ k < (p.world.sess d).next, ((p.world.sess d).heap k).closed = false →
        ((p.world.sess d).heap k).readDone = false → ((p.world.sess d).heap k).readOffset
          = ((p.world.sess d.other).sentBy ((p.world.sess d).heap k).id).flatten.length) →
      ∃ g', Certified g' { p with
        world := (p.world.setSess d
          { p.world.sess d with goAwayRecv := true }.markClosed).setLink d.other
            ((p.world.link d.other).eraseIdx i) } := by
    intro d i f hopen hf hflag hall
    obtain ⟨g', hg'⟩ := hlose d i f hf
    have hclosed := hp.parted.goaway d.other f (List.mem_of_getElem? hf) hflag
    have hmarked := hg'.mark (s := markClosed { p.world.sess d with goAwayRecv := true })
      hopen rfl rfl rfl rfl rfl rfl fun _ => ⟨hclosed, hall⟩
    exact ⟨g', hmarked⟩
  cases a with
  | recv d i busy | recvDatagram d i busy =>
      obtain ⟨f, hf, hw⟩ := Option.bind_eq_some_iff.mp hhears
      obtain ⟨hflag, rfl⟩ := Run.guard hw
      exact hmark d i f (by simpa [enabled] using henabled) hf hflag (hall f hf hflag)
  | _ => contradiction

/-- Two sessions and their readers go on. -/
theorem Certified.step {a : Event} (htimely : p.Timely a) (hstep : p.step cfg a = some p') :
  ∃ g', p'.Certified g'
  := by
  cases a with
  | act a =>
      obtain ⟨honce, hall⟩ := htimely
      obtain ⟨henabled, hstep⟩ := Option.ite_none_right_eq_some.mp hstep
      cases hhears : hearsGoAway p.world a with
      | some w =>
          rw [hhears] at hstep
          cases hstep
          exact hp.hears hrel henabled hall hhears
      | none =>
          rw [hhears] at hstep
          obtain ⟨w, hw, rfl⟩ := Option.map_eq_some_iff.mp hstep
          rcases actor_open_or_flush henabled with hopen | ⟨d, picks, rfl, hclosed⟩
          · have hallows := allows_silent hrel henabled (hp.opensOnce hopen honce)
            rcases hp.parted.open_or_closes hrel hallows hopen hhears hw
              with hopen' | ⟨d, i, f, s, hd, hf, hmoves, -, -, rfl⟩
            · exact hp.act hrel hallows hopen hw hopen'
            · exact hp.closes hrel hd hf hmoves rfl
          · exact hp.flush_closed hclosed hw
  | call e k o =>
      by_cases hclosed : (p.world.sess e).closed = true
      · exact ⟨g, hp.call_closed hclosed htimely hstep⟩
      · exact hp.call_open hrel (by simpa using hclosed) hstep
  | close d =>
      obtain ⟨hopen, hp'⟩ := Option.ite_none_left_eq_some.mp hstep
      obtain rfl := Option.some.inj hp'
      exact ⟨g, hp.close (by simpa using hopen)⟩
  | endChannels d =>
      obtain ⟨hclosed, hp'⟩ := Option.ite_none_right_eq_some.mp hstep
      obtain rfl := Option.some.inj hp'
      exact ⟨g, hp.endChannels (cfg d) hclosed⟩
  | goAway d =>
      obtain ⟨⟨hclosed, -⟩, hp'⟩ := Option.ite_none_right_eq_some.mp hstep
      obtain rfl := Option.some.inj hp'
      apply hp.sendMore hclosed
      · simp [PacketFrame.Sound, WriteFrame.packet, WriteFrame.payload]
      · intro f hf
        obtain rfl := List.mem_singleton.mp hf
        apply PacketFrame.partOf_of_ne <;> simp [WriteFrame.packet]

end

/-- With retransmissions, and with every label opened at most once at each side, the end of a
stream is reported only when all that the peer has written has been returned, whatever the
transport does and whichever session is closed, if the sessions that hear a goodbye have got
everything, and no reader looks whether its ring is drainable too early. -/
theorem eof_complete (cfg : Side → SessionConfig) (now : Side → Int) (p : Peers)
    (hrel : ∀ d, (cfg d).reliability = true)
    (hrun : Run (Peers.step cfg) Peers.Timely (Peers.init cfg now) p) (e : Side) (k : Nat)
    (b : Bytes) (hb : (e, k, b) ∈ p.eofs) :
  b = ((p.world.sess e.other).sentBy ((p.world.sess e).heap k).id).flatten
    ∧ (p.world.sess e.other).Final ((p.world.sess e).heap k).id
  := by
  obtain ⟨g, hp⟩ : ∃ g, p.Certified g := by
    apply hrun.invariant (I := fun p => ∃ g, p.Certified g) _ ⟨_, certified_init cfg now⟩
    rintro p a p' ⟨g, hp⟩ htimely hstep
    exact hp.step hrel htimely hstep
  exact (hp.reads.eofs _ hb).2

/-- Three bytes are written, and received twice.  Then the writer closes its session and says
goodbye.  A `Read` returns the three bytes, and the next one the end of the stream. -/
theorem eof_complete_goodbye :
  ∃ p : Peers, p.eofs = [(.right, 0, [1, 2, 3])]
    ∧ ∀ b, (.right, 0, b) ∈ p.eofs → b = ((p.world.sess .left).sentBy 11).flatten
      ∧ (p.world.sess .left).Final 11
  := by
  obtain ⟨p, hrun, heofs, hid⟩ := Run.exists_of_exec
    (Peers.step fun _ => smallConfig true) Peers.Timely
    (Peers.init (fun _ => smallConfig true) fun _ => 0)
    (List.flatten [[.act (.op .left (.openChannel [97])), .act (.op .right (.openChannel [97])),
      .act (.op .left (.write 0 [1, 2, 3])), .act (.flush .left [false]), .act (.dup .left 0),
      .act (.recv .right 0 false), .act (.recv .right 0 false), .close .left, .endChannels .left,
      .goAway .left, .act (.recv .right 0 false), .endChannels .right,
      .call .right 0 (.start (.read 4))],
      List.replicate 7 (.call .right 0 .go),
      [.call .right 0 (.start (.read 4))],
      List.replicate 11 (.call .right 0 .go)])
    (fun p => p.eofs = [(.right, 0, [1, 2, 3])] ∧ ((p.world.sess .right).heap 0).id = 11)
    (by decide +kernel)
  refine ⟨p, heofs, fun b hb => ?_⟩
  have hwhole := eof_complete (fun _ => smallConfig true) (fun _ => 0) p (fun _ => rfl) hrun .right
    0 b hb
  rwa [hid] at hwhole

/-- Three bytes are written, and the transport loses them.  Then the writer closes its session
and says goodbye, and a `Read` returns the end of the stream, though nothing has been
returned. -/
theorem eof_incomplete_after_goodbye :
  ∃ p : Peers, Run (Peers.step fun _ => smallConfig true) (fun _ _ => True)
      (Peers.init (fun _ => smallConfig true) fun _ => 0) p
    ∧ p.eofs = [(.right, 0, [])] ∧ ((p.world.sess .right).heap 0).id = 11
    ∧ ((p.world.sess .left).sentBy 11).flatten = [1, 2, 3]
  := Run.exists_of_exec (Peers.step fun _ => smallConfig true) (fun _ _ => True)
    (Peers.init (fun _ => smallConfig true) fun _ => 0)
    (List.flatten [[.act (.op .left (.openChannel [97])), .act (.op .right (.openChannel [97])),
      .act (.op .left (.write 0 [1, 2, 3])), .act (.flush .left [false]), .act (.drop .left 0),
      .close .left, .endChannels .left, .goAway .left, .act (.recv .right 0 false),
      .endChannels .right, .call .right 0 (.start (.read 2))],
      List.replicate 11 (.call .right 0 .go)])
    (fun p => p.eofs = [(.right, 0, [])] ∧ ((p.world.sess .right).heap 0).id = 11
      ∧ ((p.world.sess .left).sentBy 11).flatten = [1, 2, 3])
    (by decide +kernel)

end Peers

end Muxocket
