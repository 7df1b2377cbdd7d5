import Muxocket.Sending

/-!
# Delivery with retransmissions

The reader of a stream puts its chunks back in order, whatever the transport does to the
frames: what it has put on its ring is always the beginning of the stream, what it keeps of
later chunks is as it was written, and it sees the end of the stream only after all of it.
-/

namespace Muxocket

/-! ### The reader -/

/-- The reader's part of a stream with the chunks `sent`, which has ended if `ended` says so. -/
structure Channel.Follows (sent : List Bytes) (ended : Prop) (c : Channel) : Prop where
  entries : ∀ m, c.reorderMap = some m → ∀ off p, m.lookup off = some p →
    (off, p) ∈ chunks 0 sent
  bound : c.readOffset ≤ sent.flatten.length
  pushed : c.closed = false → c.pushed = sent.flatten.take c.readOffset
  fin : c.hasFin = true → ended ∧ c.finOffset = sent.flatten.length
  done : c.readDone = true → c.closed = false → ended ∧ c.readOffset = sent.flatten.length

namespace Channel

variable {cfg : SessionConfig} {r : Rules} {hand : List PacketFrame} {c c' : Channel}
  {sent : List Bytes} {ended : Prop}

theorem follows_new (cfg : SessionConfig) (id : Nat) :
  (newChannel cfg id).Follows sent ended
  := by
  constructor <;> simp

section

variable (hc : c.Follows sent ended)

include hc

/-- The reader's part of a stream stays so while the stream grows. -/
theorem Follows.mono {ps : List Bytes} {ended' : Prop} (hended : ended → ps = [] ∧ ended') :
  c.Follows (sent ++ ps) ended'
  where
  entries m hm off p hp := by
    rw [chunks_append]
    exact List.mem_append_left _ (hc.entries m hm off p hp)
  bound := by
    have hbound := hc.bound
    simp only [List.flatten_append, List.length_append]
    omega
  pushed hclosed := by
    rw [hc.pushed hclosed, List.flatten_append, List.take_append_of_le_length hc.bound]
  fin hhas := by
    obtain ⟨hend, hoffset⟩ := hc.fin hhas
    obtain ⟨rfl, hend'⟩ := hended hend
    exact ⟨hend', by simpa using hoffset⟩
  done hread hclosed := by
    obtain ⟨hend, hoffset⟩ := hc.done hread hclosed
    obtain ⟨rfl, hend'⟩ := hended hend
    exact ⟨hend', by simpa using hoffset⟩

/-- What a reader has got of its stream does not depend on the other parts of its channel. -/
theorem Follows.of_eq (hmap : c'.reorderMap = c.reorderMap ∨ c'.reorderMap = none)
    (hoffset : c'.readOffset = c.readOffset) (hpushed : c'.pushed = c.pushed)
    (hfin : c'.hasFin = c.hasFin) (hfinOffset : c'.finOffset = c.finOffset)
    (hopen : c'.closed = false → c.closed = false ∧ c'.readDone = c.readDone) :
  c'.Follows sent ended
  where
  entries m hm := by
    rcases hmap with heq | heq
    · exact hc.entries m (by rw [← heq, hm])
    · simp [heq] at hm
  bound := by
    rw [hoffset]
    exact hc.bound
  pushed hclosed := by
    rw [hpushed, hoffset]
    exact hc.pushed (hopen hclosed).1
  fin hhas := by
    rw [hfinOffset]
    exact hc.fin (by rw [← hfin, hhas])
  done hread hclosed := by
    obtain ⟨hclosed', heq⟩ := hopen hclosed
    rw [hoffset]
    exact hc.done (by rw [← heq, hread]) hclosed'

/-- A reader that gets the chunk it waits for. -/
theorem Follows.feed (hring : c.RingOk) {p : Bytes} (hp : (c.readOffset, p) ∈ chunks 0 sent) :
  (c.feed p).Follows sent ended
  := by
  have hend := end_le_of_mem_chunks hp
  rw [Nat.zero_add] at hend
  have hnil : c.readDone = true → c.closed = false → p = [] := by
    intro hread hclosed
    have hoffset := (hc.done hread hclosed).2
    apply List.eq_nil_of_length_eq_zero
    omega
  have hpushed : c.closed = false →
      (c.push p).pushed = sent.flatten.take (c.readOffset + p.length) := by
    intro hopen
    rw [← take_append_of_mem_chunks hp, ← hc.pushed hopen]
    unfold Channel.push
    split
    · rfl
    · rename_i hnone
      rcases hring.ring hnone with hclosed | hread
      · simp [hclosed] at hopen
      · rw [hnil hread hopen, List.append_nil]
  have hfeed : (c.feed p).readOffset = c.readOffset + p.length
      ∧ (c.feed p).reorderMap = c.reorderMap ∧ (c.feed p).hasFin = c.hasFin
      ∧ (c.feed p).finOffset = c.finOffset ∧ (c.feed p).readDone = c.readDone
      ∧ (c.feed p).closed = c.closed
      ∧ (c.closed = false → (c.feed p).pushed = (c.push p).pushed) := by
    unfold Channel.feed Channel.push
    grind
  obtain ⟨hread, hmap, hfin, hfinOffset, hdone, hclosed, hsame⟩ := hfeed
  constructor
  · rw [hmap]
    exact hc.entries
  · rwa [hread]
  · rw [hclosed, hread]
    intro hopen
    rw [hsame hopen, hpushed hopen]
  · rw [hfin, hfinOffset]
    exact hc.fin
  · rw [hdone, hclosed, hread]
    intro hdone' hopen
    rw [hnil hdone' hopen]
    exact hc.done hdone' hopen

theorem Follows.eraseEarly (offset : Nat) :
  Follows sent ended { c with reorderMap := c.reorderMap.map (·.erase offset) }
  := by
  refine ⟨?_, hc.bound, hc.pushed, hc.fin, hc.done⟩
  intro m' hm' off p hp
  obtain ⟨m, hm, rfl⟩ := Option.map_eq_some_iff.mp hm'
  by_cases hoff : off = offset
  · rw [hoff, AList.lookup_erase] at hp
    contradiction
  · rw [AList.lookup_erase_ne hoff] at hp
    exact hc.entries m hm off p hp

/-- A channel goes on as the reader of a stream while the frames it gets are part of it. -/
theorem Follows.alter (hring : c.RingOk) (hrel : cfg.reliability = true)
    (hhand : ∀ f ∈ hand, f.chID = c.id → f.PartOf sent ended) (halter : Alter cfg r hand c c') :
  c'.Follows sent ended
  := by
  cases halter with
  | touch htouch =>
      cases htouch with
      | alike halike =>
          rw [halike]
          exact hc.of_eq (.inl rfl) rfl rfl rfl rfl fun hopen => ⟨hopen, rfl⟩
      | shut | abandon =>
          exact hc.of_eq (.inl rfl) rfl rfl rfl rfl fun hopen => by contradiction
      | remoteDone _ hhas hle =>
          refine ⟨hc.entries, hc.bound, hc.pushed, hc.fin, ?_⟩
          intro _ _
          obtain ⟨hend, hoffset⟩ := hc.fin hhas
          have hbound := hc.bound
          refine ⟨hend, ?_⟩
          simp only [remoteFin]
          omega
      | _ => exact hc.of_eq (.inl rfl) rfl rfl rfl rfl fun hopen => ⟨hopen, rfl⟩
  | fin now | lateFin now | send now p =>
      simp only [closeFin, Channel.lateFin, finish, Channel.send, register]
      split <;> exact hc.of_eq (.inl rfl) rfl rfl rfl rfl fun hopen => ⟨hopen, rfl⟩
  | drain | giveUp => exact hc.of_eq (.inl rfl) rfl rfl rfl rfl fun hopen => by contradiction
  | retire =>
      simp only [retire]
      split <;> exact hc.of_eq (.inr rfl) rfl rfl rfl rfl fun hopen => ⟨hopen, rfl⟩
  | refuse f hf hflag hid hrel' | push f hf hflag hid hrel' | remoteFin f hf hflag hid hrel' =>
      simp [hrel] at hrel'
  | feed f hf hflag hid _ _ hoffset =>
      apply hc.feed hring
      rw [← hoffset]
      exact (hhand f hf hid.symm).data hflag
  | feedEarly p _ hwaiting =>
      obtain ⟨m, hm, hp⟩ := Option.bind_eq_some_iff.mp hwaiting
      have hmem := hc.entries m hm _ _ hp
      exact (hc.eraseEarly c.readOffset).feed
        ⟨hring.drained, hring.closed, hring.readDone, hring.ring⟩ hmem
  | keepEarly f hf hflag hid =>
      refine ⟨?_, hc.bound, hc.pushed, hc.fin, hc.done⟩
      intro m' hm' off q hq
      obtain ⟨m, hm, rfl⟩ := Option.map_eq_some_iff.mp hm'
      by_cases hoff : off = f.offset
      · subst hoff
        obtain rfl : f.data = q := by simpa using hq
        exact (hhand f hf hid.symm).data hflag
      · rw [AList.lookup_insert_ne hoff] at hq
        exact hc.entries m hm off q hq
  | gotFin f hf hflag hid =>
      exact ⟨hc.entries, hc.bound, hc.pushed, fun _ => (hhand f hf hid.symm).fin hflag, hc.done⟩
  | _ => exact hc.of_eq (.inl rfl) rfl rfl rfl rfl fun hopen => ⟨hopen, rfl⟩

end

/-- What a channel keeps of later chunks, and where it reads. -/
def reading (c : Channel) : Option (AList fun _ : Nat => Bytes) × Nat :=
  (c.reorderMap, c.readOffset)

theorem reading_register (cfg : SessionConfig) (u : UnackedFrame) (c : Channel) :
  (c.register cfg u).reading = c.reading
  := by
  rw [register_eq]
  rfl

theorem reading_feed (p : Bytes) (c : Channel) :
  (c.feed p).reading = (c.reorderMap, c.readOffset + p.length)
  := by
  unfold Channel.feed Channel.push reading
  grind

theorem reading_feedEarly (p : Bytes) (c : Channel) :
  (c.feedEarly p).reading
    = (c.reorderMap.map (·.erase c.readOffset), c.readOffset + p.length)
  := reading_feed p _

end Channel

namespace Station

variable {cfg : SessionConfig} {r : Rules} {t t' : Station}

variable {id : Nat} {f : PacketFrame}

theorem mem_arrived :
  f ∈ t.arrived id ↔ (f ∈ t.sess.stashed id ∨ f ∈ t.hand) ∧ f.chID = id
  := by
  simp [arrived, or_and_right]

/-- What a session has got for an identifier stays as it was. -/
theorem Move.mem_arrived (hm : Move cfg r t t') (hf : f ∈ t'.arrived id) :
  ∃ g ∈ t.arrived id, g.flag = f.flag ∧ g.offset = f.offset ∧ g.data = f.data
  := by
  obtain ⟨g, hg, heq⟩ := List.mem_map.mp
    ((hm.arrived_sublist id).subset (List.mem_map_of_mem hf))
  exact ⟨g, hg, by simpa using heq⟩

/-- A channel keeps no chunk it could feed, except while its early chunks are being fed. -/
def Ahead (k : Nat) (t : Station) : Prop :=
  ∀ m, (t.sess.heap k).reorderMap = some m → ∀ off p, m.lookup off = some p →
    (t.sess.heap k).readOffset ≤ off
      ∧ (t.feeding ≠ some k → (t.sess.heap k).readOffset < off)

theorem Ahead.of_eq {k : Nat} (ht : t.Ahead k)
    (hreading : (t'.sess.heap k).reading = (t.sess.heap k).reading)
    (hfeeding : t'.feeding = t.feeding) :
  t'.Ahead k
  := by
  obtain ⟨hmap, hoffset⟩ := Prod.mk.inj hreading
  unfold Ahead
  rw [hmap, hoffset, hfeeding]
  exact ht

/-- The chunks a channel keeps come after those it has fed. -/
theorem Move.ahead (hm : Move cfg r t t') (hrel : cfg.reliability = true) {k : Nat}
    (hk : k < t.sess.next) {sent : List Bytes} {ended : Prop}
    (hfollows : (t.sess.heap k).Follows sent ended)
    (hhand : ∀ f ∈ t.hand, f.chID = (t.sess.heap k).id → f.PartOf sent ended) (ht : t.Ahead k) :
  t'.Ahead k
  := by
  have hkeep : ∀ {h : Nat} {g : Channel → Channel},
      (g (t.sess.heap h)).reading = (t.sess.heap h).reading →
      ((t.sess.update h g).heap k).reading = (t.sess.heap k).reading :=
    fun hg => Session.apply_heap_update Channel.reading hg k
  cases hm with
  | touch h g hh hg => exact ht.of_eq (hkeep hg.keeps.reading) rfl
  | fin h late | lateFin h late =>
      exact ht.of_eq (hkeep (Channel.reading_register cfg _ _)) rfl
  | write h p => exact ht.of_eq (hkeep (Channel.reading_register cfg _ _)) rfl
  | drain h => exact ht.of_eq (hkeep (g := fun c => c.shut.drain) rfl) rfl
  | giveUp h => exact ht.of_eq (hkeep (g := fun c => c.abandon.drain) rfl) rfl
  | gotFin f rest h | reset f rest h | acked f rest h | updStream f rest h | ack h | idle h | take h
  | readyAck f rest h | readyStream f rest h => exact ht.of_eq (hkeep rfl) rfl
  | refuse f rest h _ _ _ _ hrel' | push f rest h _ _ _ _ hrel'
  | remoteFin f rest h _ _ _ _ hrel' => simp [hrel] at hrel'
  | publish id =>
      refine ht.of_eq ?_ rfl
      simp [Session.publish, Nat.ne_of_lt hk]
  | retire h =>
      by_cases hkh : k = h
      · subst hkh
        intro m hm
        simp [Session.retire, Channel.retire] at hm
        grind
      · exact ht.of_eq (congrArg _ (Session.heap_update_of_ne hkh _ _)) rfl
  | feed f rest h hhand' hflag hh hid _ _ hoffset hfeeding =>
      by_cases hkh : k = h
      · subst hkh
        have hchunk := (hhand f (by simp [hhand']) hid.symm).data hflag
        obtain ⟨hmap, hread⟩ := Prod.mk.inj (Channel.reading_feed f.data (t.sess.heap k))
        intro m hm off p hp
        simp only [Session.heap_update_self, hmap] at hm
        have hlt := (ht m hm off p hp).2 (by simp [hfeeding])
        have hle := end_le_of_lt hchunk (hfollows.entries m hm off p hp) (by omega)
        simp only [Session.heap_update_self, hread]
        exact ⟨by omega, fun hne => absurd rfl hne⟩
      · intro m hm off p hp
        rw [Session.heap_update_of_ne hkh] at hm ⊢
        have hlt := (ht m hm off p hp).2 (by simp [hfeeding])
        exact ⟨le_of_lt hlt, fun _ => hlt⟩
  | feedEarly h p hh _ hfeeding hwaiting =>
      by_cases hkh : k = h
      · subst hkh
        obtain ⟨m, hm, hp⟩ := Option.bind_eq_some_iff.mp hwaiting
        obtain ⟨hmap, hread⟩ := Prod.mk.inj (Channel.reading_feedEarly p (t.sess.heap k))
        intro m' hm' off q hq
        simp only [Session.heap_update_self, hmap, hm] at hm'
        obtain rfl : m.erase (t.sess.heap k).readOffset = m' := by simpa using hm'
        have hne : off ≠ (t.sess.heap k).readOffset := by
          rintro rfl
          rw [AList.lookup_erase] at hq
          contradiction
        rw [AList.lookup_erase_ne hne] at hq
        have hge := (ht m hm off q hq).1
        have hle := end_le_of_lt (hfollows.entries m hm _ p hp) (hfollows.entries m hm off q hq)
          (by omega)
        simp only [Session.heap_update_self, hread]
        exact ⟨hle, fun hne => absurd hfeeding hne⟩
      · exact ht.of_eq (congrArg _ (Session.heap_update_of_ne hkh _ _)) rfl
  | fed h hfeeding hwaiting =>
      intro m (hm : (t.sess.heap k).reorderMap = some m) off p hp
      obtain ⟨hle, hlt⟩ := ht m hm off p hp
      refine ⟨hle, fun _ => ?_⟩
      by_cases hkh : k = h
      · subst hkh
        have hne : off ≠ (t.sess.heap k).readOffset := by
          rintro rfl
          simp [Session.waiting, hm, hp] at hwaiting
        simp only
        omega
      · apply hlt
        rw [hfeeding]
        intro heq
        exact hkh (Option.some.inj heq).symm
  | early f rest h m hhand' hflag hh hid _ hm hlt =>
      by_cases hkh : k = h
      · subst hkh
        intro m' hm' off p hp
        obtain rfl : m.insert f.offset f.data = m' := by
          simpa [Channel.keepEarly, hm] using hm'
        simp only [Session.heap_update_self, Channel.keepEarly]
        by_cases hoff : off = f.offset
        · rw [hoff]
          exact ⟨le_of_lt hlt, fun _ => hlt⟩
        · rw [AList.lookup_insert_ne hoff] at hp
          exact ht m hm off p hp
      · exact ht.of_eq (congrArg _ (Session.heap_update_of_ne hkh _ _)) rfl
  | _ => exact ht

end Station

namespace Net

variable {cfg : Side → SessionConfig} {terms : Terms} {n n' : Net}

/-! ### Two sessions -/

/-- The frame is part of the stream that the side `d` writes for an identifier. -/
def Genuine (d : Side) (id : Nat) (n : Net) (f : PacketFrame) : Prop :=
  f.PartOf ((n.st d).sess.sentBy id) ((n.st d).sess.Ended id)

/-- The stream that the side `d` writes for an identifier reaches the other side as it was
written. -/
structure Delivers (d : Side) (id : Nat) (n : Net) : Prop where
  sends : (n.st d).Sends id
  flying : ∀ f ∈ n.link d, f.chID = id → n.Genuine d id f
  arrived : ∀ f ∈ (n.st d.other).arrived id, n.Genuine d id f
  follows : ∀ k < (n.st d.other).sess.next, ((n.st d.other).sess.heap k).id = id →
    ((n.st d.other).sess.heap k).Follows ((n.st d).sess.sentBy id) ((n.st d).sess.Ended id)
  ahead : ∀ k < (n.st d.other).sess.next, ((n.st d.other).sess.heap k).id = id →
    (n.st d.other).Ahead k

variable {d : Side} {id : Nat} {t : Station}

/-- A move of the writer. -/
theorem Delivers.write (hn : n.Delivers d id) (hshape : n.Shape) (hrel : (cfg d).reliability = true)
    (honce : (terms.rules d).once id) (hmove : Station.Move (cfg d) (terms.rules d) (n.st d) t) :
  (n.put d t).Delivers d id
  := by
  have hother : (n.put d t).st d.other = n.st d.other := st_put_of_ne (Side.other_ne d) t n
  have hgenuine : ∀ f, n.Genuine d id f → (n.put d t).Genuine d id f := by
    intro f hf
    unfold Genuine
    rw [st_put]
    exact hmove.partOf (hshape.st d) honce hn.sends.single hf
  obtain ⟨ps, heq, hps⟩ := hmove.sentBy_append (hshape.st d) honce hn.sends.single
  constructor
  · rw [st_put]
    exact hmove.sends (hshape.st d) hrel honce hn.sends
  · intro f hf hid
    exact hgenuine f (hn.flying f hf hid)
  · rw [hother]
    intro f hf
    exact hgenuine f (hn.arrived f hf)
  · rw [hother, st_put, heq]
    intro k hk hid
    exact (hn.follows k hk hid).mono fun hended => ⟨hps hended, hmove.ended hended⟩
  · rw [hother]
    exact hn.ahead

/-- A move of the reader. -/
theorem Delivers.read (hn : n.Delivers d id) (hshape : n.Shape)
    (hrel : (cfg d.other).reliability = true)
    (hmove : Station.Move (cfg d.other) (terms.rules d.other) (n.st d.other) t) :
  (n.put d.other t).Delivers d id
  := by
  have hother : (n.put d.other t).st d = n.st d := st_put_of_ne (Side.ne_other d) t n
  have hhand : ∀ f ∈ (n.st d.other).hand, f.chID = id → n.Genuine d id f := by
    intro f hf hid
    exact hn.arrived f (Station.mem_arrived.mpr ⟨.inr hf, hid⟩)
  constructor
  · rw [hother]
    exact hn.sends
  · unfold Genuine
    rw [hother]
    exact hn.flying
  · unfold Genuine
    rw [st_put, hother]
    intro f hf
    obtain ⟨g, hg, hflag, hoffset, hdata⟩ := hmove.mem_arrived hf
    have hg := hn.arrived g hg
    exact ⟨hflag ▸ hoffset ▸ hdata ▸ hg.data, hflag ▸ hoffset ▸ hg.fin⟩
  · rw [st_put, hother]
    intro k hk hid
    by_cases hlt : k < (n.st d.other).sess.next
    · rw [hmove.id_eq hlt] at hid
      have hfollows := hn.follows k hlt hid
      rcases hmove.alter hlt with hsame | halter
      · rwa [hsame]
      · refine hfollows.alter ((hshape.st d.other).ring k hlt) hrel ?_ halter
        intro f hf hidf
        exact hhand f hf (hidf.trans hid)
    · rw [hmove.heap_new hk hlt]
      apply Channel.follows_new
  · rw [st_put]
    intro k hk hid
    by_cases hlt : k < (n.st d.other).sess.next
    · rw [hmove.id_eq hlt] at hid
      refine hmove.ahead hrel hlt (hn.follows k hlt hid) ?_ (hn.ahead k hlt hid)
      intro f hf hidf
      exact hhand f hf (hidf.trans hid)
    · intro m hm off p hp
      rw [hmove.heap_new hk hlt] at hm
      obtain rfl : ∅ = m := by simpa using hm
      simp at hp

/-- Frames that go from one place to the next stay part of the stream. -/
theorem Delivers.carry (hn : n.Delivers d id) (hcarries : Carries n n') :
  n'.Delivers d id
  := by
  obtain ⟨hand, out, heq, -, hout⟩ := hcarries.st d
  obtain ⟨hand', out', heq', hhand', -⟩ := hcarries.st d.other
  rw [Side.other_other] at hhand'
  have hgenuine : n'.Genuine d id = n.Genuine d id := by
    funext f
    simp only [Genuine, heq]
  obtain ⟨⟨hsingle, hregistered, hsends⟩, hflying, harrived, hfollows, hahead⟩ := hn
  constructor
  · rw [heq]
    refine ⟨hsingle, hregistered, ?_⟩
    intro f hf hid
    apply hsends f _ hid
    simp only [Station.queued, List.mem_append] at hf ⊢
    grind
  · rw [hgenuine]
    intro f hf hid
    rcases hcarries.link d f hf with hf | ⟨g, hg, rfl⟩
    · exact hflying f hf hid
    · exact hsends g (by simp [Station.queued, hg]) hid
  · rw [hgenuine, heq']
    intro f hf
    obtain ⟨hf, hid⟩ := Station.mem_arrived.mp hf
    rcases hf with hf | hf
    · exact harrived f (Station.mem_arrived.mpr ⟨.inl hf, hid⟩)
    · rcases hhand' f hf with hf | hf
      · exact harrived f (Station.mem_arrived.mpr ⟨.inr hf, hid⟩)
      · exact hflying f hf hid
  · rw [heq, heq']
    exact hfollows
  · rw [heq']
    exact hahead

/-- Steps keep a stream as it was written, whatever the transport does. -/
theorem Step.delivers (hstep : Step cfg terms n n') (hshape : n.Shape)
    (hrel : ∀ d, (cfg d).reliability = true) (honce : (terms.rules d).once id)
    (hn : n.Delivers d id) :
  n'.Delivers d id
  := by
  rcases hstep.carries with ⟨e, t, hmove, rfl⟩ | hcarries
  · rcases eq_or_other d e with rfl | rfl
    · exact hn.write hshape (hrel _) honce hmove
    · exact hn.read hshape (hrel _) hmove
  · exact hn.carry hcarries

theorem delivers_init (cfg : Side → SessionConfig) (now : Side → Int) (d : Side) (id : Nat) :
  (ofWorld (World.init cfg now)).Delivers d id
  := by
  constructor
  · constructor
    · intro h hh
      simp at hh
    · intro h hh
      simp at hh
    · simp [Station.queued]
  · simp
  · simp [Station.arrived, Session.stashed]
  · intro k hk
    simp at hk
  · intro k hk
    simp at hk

/-- The transport may lose, duplicate and reorder frames. -/
def lossyTerms (once kept : Side → Nat → Prop) : Terms where
  rules e := { once := once e, kept := kept e, updates := False }
  ordered := False

/-- With retransmissions, nothing is asked of a transport that may lose frames. -/
theorem allows_lossy {terms : Terms} (hrel : ∀ d, (cfg d).reliability = true)
    (hordered : ¬ terms.ordered) (hlate : ∀ d id, (terms.rules d).late id)
    (hupdates : ∀ d, ¬ (terms.rules d).updates) {w : World} {a : Action}
    (hop : ∀ e o, a = .op e o → o.Follows (terms.rules e) (w.sess e)) :
  Allows cfg terms w a
  := by
  have hontime : ∀ e i, OnTime terms w e i := by
    intro e i f _ hupdate
    exact absurd hupdate (hupdates e)
  have hspares : ∀ e i, Spares terms w e i :=
    fun e i => ⟨hordered, fun f _ _ => hupdates e.other⟩
  cases a with
  | op e o => exact hop e o rfl
  | flush e picks => trivial
  | recv e i busy =>
      exact ⟨fun h => absurd h hordered, hontime e i, prompt_of_late (hlate e) w i, .inl (hrel e)⟩
  | recvDatagram e i busy => exact ⟨fun h => absurd h hordered, hontime e i, hrel e⟩
  | drop e i | dup e i => exact hspares e i

end Net

namespace World

/-- An action that does not open the label of an identifier a second time at the side `d`. -/
def OpensLabelOnce (d : Side) (id : Nat) (w : World) : Action → Prop
  | .op e (.openChannel label) =>
      e = d → stringToUint32 label = some id → ∀ h < (w.sess e).next, ((w.sess e).heap h).id ≠ id
  | _ => True

instance (d : Side) (id : Nat) (w : World) (a : Action) : Decidable (w.OpensLabelOnce d id a) :=
  match a with
  | .op _ (.openChannel _) => by
      dsimp only [OpensLabelOnce]
      infer_instance
  | .op _ (.write ..) | .op _ (.read ..) | .op _ (.writeTo ..) | .op _ (.closeWrite ..)
  | .op _ (.close ..) | .op _ (.lateFin _) | .op _ (.localClose _) | .op _ (.ackTimer _)
  | .op _ .arqTick | .op _ (.retransmitAllUnacked _) | .op _ .prune | .op _ .ping
  | .op _ (.lateWrite _) | .op _ (.lateCtrl _) | .op _ (.tick _) => .isTrue trivial
  | .flush .. | .recv .. | .recvDatagram .. | .drop .. | .dup .. => .isTrue trivial

/-- What one side writes with retransmissions reaches the other side as it was written. -/
theorem delivers_of_run {cfg : Side → SessionConfig} {now : Side → Int} {w : World}
    (hrel : ∀ d, (cfg d).reliability = true) {d : Side} {id : Nat}
    (hrun : Run (World.step cfg) (fun w a => w.StaysOpen cfg a ∧ w.OpensLabelOnce d id a)
      (World.init cfg now) w) :
  (Net.ofWorld w).Shape ∧ (Net.ofWorld w).Delivers d id
  := by
  apply Net.invariant_of_run (Net.lossyTerms (fun e i => e = d ∧ i = id) fun _ _ => False) _ _ _
    (Net.delivers_init cfg now d id) hrun
  · rintro w a ⟨-, honce⟩
    apply Net.allows_lossy hrel not_false (fun _ _ => trivial) (fun _ => not_false)
    rintro e o rfl
    cases o with
    | openChannel label =>
        rintro i hi ⟨rfl, rfl⟩
        exact honce rfl hi
    | _ => simp [Op.Follows, Net.lossyTerms]
  · rintro w a w' ⟨hopen, -⟩ hstep e
    apply hopen.closed_eq hstep
  · intro n n' hshape hn hstep
    exact hstep.delivers hshape hrel ⟨rfl, rfl⟩ hn

/-- Delivery of one stream between two sessions with retransmissions, over a transport that may
drop, duplicate, delay and reorder frames.  The channel `h` writes the stream and the channel
`k` of the other side, which the application has not closed, reads it.  What has been put on
the ring of the reader is the stream up to where it reads, every chunk it keeps is further on
and what the stream has there, and it sees the end of the stream when it has all of it. -/
theorem reliable_delivery (cfg : Side → SessionConfig) (now : Side → Int) (w : World)
    (hrel : ∀ d, (cfg d).reliability = true) (d : Side) (id : Nat)
    (hrun : Run (World.step cfg) (fun w a => w.StaysOpen cfg a ∧ w.OpensLabelOnce d id a)
      (World.init cfg now) w)
    (h : Nat) (hh : h < (w.sess d).next) (hidh : ((w.sess d).heap h).id = id)
    (k : Nat) (hk : k < (w.sess d.other).next) (hidk : ((w.sess d.other).heap k).id = id)
    (hopen : ((w.sess d.other).heap k).closed = false) :
  ((w.sess d.other).heap k).pushed
      = ((w.sess d).heap h).sent.flatten.take ((w.sess d.other).heap k).readOffset
    ∧ ((w.sess d.other).heap k).readOffset ≤ ((w.sess d).heap h).sent.flatten.length
    ∧ (∀ m, ((w.sess d.other).heap k).reorderMap = some m → ∀ off p, m.lookup off = some p →
      ((w.sess d.other).heap k).readOffset < off
        ∧ (((w.sess d).heap h).sent.flatten.drop off).take p.length = p)
    ∧ (((w.sess d.other).heap k).readDone = true →
      ((w.sess d).heap h).finSent = true
        ∧ ((w.sess d.other).heap k).readOffset = ((w.sess d).heap h).sent.flatten.length)
  := by
  obtain ⟨-, hdelivers⟩ := delivers_of_run hrel hrun
  have hsingle : (w.sess d).Single id := hdelivers.sends.single
  have hfollows : ((w.sess d.other).heap k).Follows ((w.sess d).sentBy id) ((w.sess d).Ended id) :=
    hdelivers.follows k hk hidk
  rw [hsingle.sentBy_eq hh hidh, propext (hsingle.ended_iff hh hidh)] at hfollows
  refine ⟨hfollows.pushed hopen, hfollows.bound, ?_, fun hread => hfollows.done hread hopen⟩
  intro m hm off p hp
  constructor
  · exact (hdelivers.ahead k hk hidk m hm off p hp).2 (by simp)
  · obtain ⟨before, after, hflatten, hoff⟩ := mem_chunks (hfollows.entries m hm off p hp)
    rw [hflatten, hoff, Nat.zero_add, List.append_assoc, List.drop_left, List.take_left]

/-- Two chunks are written and the second one comes first, and twice. -/
theorem reliable_delivery_reordered :
  ∃ w : World,
    ((w.sess .right).heap 0).pushed
        = ((w.sess .left).heap 0).sent.flatten.take ((w.sess .right).heap 0).readOffset
      ∧ ((w.sess .right).heap 0).readOffset = 5
  := by
  obtain ⟨w, hrun, hnext, hid, hnext', hid', hopen, hread⟩ :=
    Run.exists_of_exec (World.step fun _ => smallConfig true)
      (fun w a => w.StaysOpen (fun _ => smallConfig true) a ∧ w.OpensLabelOnce .left 11 a)
      (World.init (fun _ => smallConfig true) fun _ => 0)
      [.op .left (.openChannel [97]), .op .left (.write 0 [1, 2, 3]), .op .left (.write 0 [4, 5]),
        .flush .left [false, false], .dup .left 1, .op .right (.openChannel [97]),
        .recv .right 1 false, .recv .right 1 false, .recv .right 0 false]
      (fun w => (w.sess .left).next = 1 ∧ ((w.sess .left).heap 0).id = 11
        ∧ (w.sess .right).next = 1 ∧ ((w.sess .right).heap 0).id = 11
        ∧ ((w.sess .right).heap 0).closed = false ∧ ((w.sess .right).heap 0).readOffset = 5)
      (by decide +kernel)
  have hdelivery := reliable_delivery (fun _ => smallConfig true) (fun _ => 0) w (fun _ => rfl)
    .left 11 hrun 0 (by omega) hid 0 (by simp [Side.other, hnext']) hid' hopen
  exact ⟨w, hdelivery.1, hread⟩

end World

end Muxocket
