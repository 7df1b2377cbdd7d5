import Muxocket.Lib.Chunks
import Muxocket.Order

/-!
# The frames of a stream

With retransmissions every frame of a stream is a chunk of it, with the offset where the chunk
starts, or its end.  A channel keeps the last of these frames, in their order, until they are
acknowledged.
-/

namespace Muxocket

open UnackedFrame

/-- The frame is part of the stream with the chunks `sent`, which has ended if `fin` says so. -/
structure PacketFrame.PartOf (sent : List Bytes) (fin : Prop) (f : PacketFrame) : Prop where
  data : f.flag = .data → (f.offset, f.data) ∈ chunks 0 sent
  fin : f.flag = .fin → fin ∧ f.offset = sent.flatten.length

variable {sent : List Bytes} {fin : Prop} {f : PacketFrame} {cfg : SessionConfig}

theorem PacketFrame.PartOf.mono {ps : List Bytes} {fin' : Prop} (hf : f.PartOf sent fin)
    (hfin : fin → ps = [] ∧ fin') :
  f.PartOf (sent ++ ps) fin'
  := by
  constructor
  · intro hflag
    rw [chunks_append]
    exact List.mem_append_left _ (hf.data hflag)
  · intro hflag
    obtain ⟨hended, hoffset⟩ := hf.fin hflag
    obtain ⟨rfl, hended'⟩ := hfin hended
    exact ⟨hended', by simpa using hoffset⟩

theorem PacketFrame.partOf_of_ne (hdata : f.flag ≠ .data) (hfin : f.flag ≠ .fin) :
  f.PartOf sent fin
  := ⟨fun hflag => absurd hflag hdata, fun hflag => absurd hflag hfin⟩

/-! ### Unacknowledged frames -/

/-- The frames of the stream a channel has written, with its end if it has been sent. -/
def Channel.entries (c : Channel) : List (Nat × Bytes × Bool) :=
  (chunks 0 c.sent).map (fun x => (x.1, x.2, false))
    ++ if c.finSent then [(c.sent.flatten.length, [], true)] else []

/-- The unacknowledged frames of a channel are the last ones of its stream. -/
def Channel.Registered (c : Channel) : Prop :=
  c.unacked.map content <:+ c.entries

variable {c c' : Channel}

theorem Channel.partOf_entries {u : UnackedFrame} (hu : u.content ∈ c.entries) (id : Nat) :
  (u.frame id).packet.PartOf c.sent (c.finSent = true)
  := by
  obtain ⟨offset, data, fin, sentAt, retransmits⟩ := u
  simp only [content, entries, List.mem_append, List.mem_map, Prod.mk.injEq] at hu
  rcases hu with ⟨x, hx, rfl, rfl, rfl⟩ | hu
  · constructor
    · intro _
      simp only [frame, Bool.false_eq_true, if_false, WriteFrame.packet,
        payload_dataFrame]
      exact hx
    · intro hflag
      contradiction
  · split at hu
    · rename_i hended
      obtain ⟨rfl, rfl, rfl⟩ : offset = c.sent.flatten.length ∧ data = [] ∧ fin = true := by
        simpa using hu
      constructor
      · intro hflag
        contradiction
      · intro _
        exact ⟨hended, rfl⟩
    · contradiction

theorem Channel.entries_send {p : Bytes} (hsent : c'.sent = c.sent ++ [p])
    (hfin : c.finSent = false) (hfin' : c'.finSent = false) :
  c'.entries = c.entries ++ [(c.sent.flatten.length, p, false)]
  := by
  simp [entries, hsent, hfin, hfin', chunks_append, chunks]

theorem Channel.entries_finish (hsent : c'.sent = c.sent) (hfin : c.finSent = false)
    (hfin' : c'.finSent = true) :
  c'.entries = c.entries ++ [(c.sent.flatten.length, [], true)]
  := by
  simp [entries, hsent, hfin, hfin']

theorem Channel.entries_congr (hsent : c'.sent = c.sent) (hfin : c'.finSent = c.finSent) :
  c'.entries = c.entries
  := by
  simp [entries, hsent, hfin]

/-- What a channel writes and registers: nothing, a chunk of an open stream, or the end of a
stream that has not been ended. -/
inductive Channel.Extends (cfg : SessionConfig) (c c' : Channel) : Prop
  | same : c'.sent = c.sent → c'.finSent = c.finSent →
      c'.unacked.map content <:+ c.unacked.map content →
      Extends cfg c c'
  | chunk (p : Bytes) : c'.sent = c.sent ++ [p] → c.finSent = false → c'.finSent = false →
      c'.unacked.map content
        = c.unacked.map content
          ++ (if cfg.reliability then [(c.writeOffset, p, false)] else []) →
      Extends cfg c c'
  | fin : c'.sent = c.sent → c.finSent = false → c'.finSent = true →
      c'.unacked.map content
        = c.unacked.map content
          ++ (if cfg.reliability then [(c.writeOffset, [], true)] else []) →
      Extends cfg c c'

theorem Channel.extends_alter {r : Rules} {hand : List PacketFrame} (hc : c.EndOk)
    (halter : Alter cfg r hand c c') :
  c.Extends cfg c'
  := by
  have hsuffix : ∀ us : List UnackedFrame,
      us.map content <:+ us.map content := fun _ => List.suffix_rfl
  cases halter with
  | touch htouch =>
      cases htouch with
      | alike halike =>
          rw [halike]
          exact .same rfl rfl (hsuffix _)
      | @retime us hus => exact .same rfl rfl (hus ▸ hsuffix _)
      | _ => exact .same rfl rfl (hsuffix _)
  | fin now hopen =>
      have hfin : c.finSent = false := by
        by_contra hended
        simp [hc.finSent (by simpa using hended)] at hopen
      refine .fin ?_ hfin rfl ?_ <;>
        simp only [closeFin, finish, register] <;> split <;> simp [content]
  | lateFin now hwaiting =>
      refine .fin ?_ (hc.finWaiting hwaiting).2 rfl ?_ <;>
        simp only [lateFin, finish, register] <;> split <;> simp [content]
  | send now p hclosed hopen =>
      have hfin : c.finSent = false := by
        by_contra hended
        simp [hc.finSent (by simpa using hended)] at hopen
      refine .chunk p rfl hfin ?_ ?_ <;>
        simp only [send, register] <;> split <;> simp [content, hfin]
  | retire =>
      unfold retire
      dsimp only
      split
      · exact .same rfl rfl (by simp)
      · exact .same rfl rfl (by simp)
  | push f =>
      unfold push
      split <;> exact .same rfl rfl (hsuffix _)
  | feed f | feedEarly p =>
      simp only [feedEarly, feed, push]
      split
      · exact .same rfl rfl (hsuffix _)
      · split <;> exact .same rfl rfl (hsuffix _)
  | acked f => exact .same rfl rfl ((List.dropWhile_suffix _).map _)
  | _ => exact .same rfl rfl (hsuffix _)

/-- With retransmissions, every frame is registered when it is sent. -/
theorem Channel.Registered.extends (hrel : cfg.reliability = true) (hc : c.Registered)
    (hend : c.EndOk) (hextends : c.Extends cfg c') :
  c'.Registered
  := by
  unfold Registered at hc ⊢
  have hconcat : ∀ x, c.unacked.map content ++ [x] <:+ c.entries ++ [x] := by
    intro x
    obtain ⟨before, heq⟩ := hc
    exact ⟨before, by rw [← List.append_assoc, heq]⟩
  cases hextends with
  | same hsent hfin hunacked =>
      rw [entries_congr hsent hfin]
      exact hunacked.trans hc
  | chunk p hsent hfin hfin' hunacked =>
      rw [entries_send hsent hfin hfin', hunacked, if_pos hrel, hend.offset]
      apply hconcat
  | fin hsent hfin hfin' hunacked =>
      rw [entries_finish hsent hfin hfin', hunacked, if_pos hrel, hend.offset]
      apply hconcat

namespace Session

/-- The channel that writes the stream for an identifier. -/
def author (id : Nat) (s : Session) : Option Nat :=
  (List.range s.next).find? fun h => (s.heap h).id == id

/-- What the channel for an identifier has, if there is one. -/
def ofAuthor {α : Type} (g : Channel → List α) (id : Nat) (s : Session) : List α :=
  ((s.author id).map fun h => g (s.heap h)).getD []

/-- The chunks of the stream that has been written for an identifier. -/
def sentBy (id : Nat) (s : Session) : List Bytes :=
  s.ofAuthor Channel.sent id

variable {h id : Nat} {s : Session}

variable {α : Type}

theorem Single.ofAuthor_eq (hs : s.Single id) (hh : h < s.next) (hid : (s.heap h).id = id)
    (g : Channel → List α) :
  s.ofAuthor g id = g (s.heap h)
  := by
  have hauthor : s.author id = some h := by
    cases hfind : s.author id with
    | none =>
        have hnot := List.find?_eq_none.mp hfind h (List.mem_range.mpr hh)
        simp [hid] at hnot
    | some k =>
        have hk := List.find?_some hfind
        have hmem := List.mem_range.mp (List.mem_of_find?_eq_some hfind)
        rw [hs k hmem h hh (by simpa using hk) hid]
  simp [ofAuthor, hauthor]

theorem ofAuthor_eq_nil (hs : ∀ h < s.next, (s.heap h).id ≠ id) (g : Channel → List α) :
  s.ofAuthor g id = []
  := by
  have hauthor : s.author id = none := by
    apply List.find?_eq_none.mpr
    intro h hh
    simpa using hs h (List.mem_range.mp hh)
  simp [ofAuthor, hauthor]

theorem Single.sentBy_eq (hs : s.Single id) (hh : h < s.next) (hid : (s.heap h).id = id) :
  s.sentBy id = (s.heap h).sent
  := hs.ofAuthor_eq hh hid Channel.sent

theorem Single.ended_iff (hs : s.Single id) (hh : h < s.next) (hid : (s.heap h).id = id) :
  s.Ended id ↔ (s.heap h).finSent = true
  := by
  constructor
  · rintro ⟨k, hk, hidk, hfin⟩
    rwa [hs h hh k hk hid hidk]
  · intro hfin
    exact ⟨h, hh, hid, hfin⟩

end Session

namespace Station

variable {cfg : SessionConfig} {r : Rules} {t t' : Station}

/-- A channel that a move adds to a session is a new one. -/
theorem Move.heap_new (hm : Move cfg r t t') {h : Nat} (hh : h < t'.sess.next)
    (hnew : ¬ h < t.sess.next) :
  t'.sess.heap h = newChannel cfg (t'.sess.heap h).id
  := by
  rcases hm.next_eq with heq | ⟨id, _, _, _, _, rfl⟩
  · omega
  · obtain rfl : h = t.sess.next := by
      simp only [Session.publish] at hh
      omega
    simp [Session.publish]

variable {id : Nat} {f : WriteFrame}

/-- What the channel for an identifier has changes only when that channel does. -/
theorem Move.ofAuthor_eq {α : Type} (hm : Move cfg r t t') (honce : r.once id)
    (hsingle : t.sess.Single id) {g : Channel → List α} (hnew : g (newChannel cfg id) = [])
    (hsame : ∀ k < t.sess.next, (t.sess.heap k).id = id →
      g (t'.sess.heap k) = g (t.sess.heap k)) :
  t'.sess.ofAuthor g id = t.sess.ofAuthor g id
  := by
  have hsingle' := hm.single honce hsingle
  by_cases hex : ∃ h < t.sess.next, (t.sess.heap h).id = id
  · obtain ⟨h, hh, hid⟩ := hex
    rw [hsingle.ofAuthor_eq hh hid,
      hsingle'.ofAuthor_eq (lt_of_lt_of_le hh hm.closed_next.2) (by rw [hm.id_eq hh, hid])]
    exact hsame h hh hid
  · have hnone : ∀ h < t.sess.next, (t.sess.heap h).id ≠ id := by
      intro h hh hid
      exact hex ⟨h, hh, hid⟩
    rw [Session.ofAuthor_eq_nil hnone]
    by_cases hex' : ∃ h < t'.sess.next, (t'.sess.heap h).id = id
    · obtain ⟨h, hh, hid⟩ := hex'
      have hfresh : ¬ h < t.sess.next := by
        intro hlt
        rw [hm.id_eq hlt] at hid
        exact hnone h hlt hid
      rw [hsingle'.ofAuthor_eq hh hid, hm.heap_new hh hfresh, hid, hnew]
    · apply Session.ofAuthor_eq_nil
      intro h hh hid
      exact hex' ⟨h, hh, hid⟩

/-- A stream grows until it has ended. -/
theorem Move.sentBy_append (hm : Move cfg r t t') (hshape : t.Shape) (honce : r.once id)
    (hsingle : t.sess.Single id) :
  ∃ ps, t'.sess.sentBy id = t.sess.sentBy id ++ ps ∧ (t.sess.Ended id → ps = [])
  := by
  have hsingle' := hm.single honce hsingle
  by_cases hex : ∃ h < t.sess.next, (t.sess.heap h).id = id
  · obtain ⟨h, hh, hid⟩ := hex
    have hh' : h < t'.sess.next := lt_of_lt_of_le hh hm.closed_next.2
    have hid' : (t'.sess.heap h).id = id := by rw [hm.id_eq hh, hid]
    rw [hsingle.sentBy_eq hh hid, hsingle'.sentBy_eq hh' hid', hsingle.ended_iff hh hid]
    rcases hm.alter hh with hsame | halter
    · exact ⟨[], by simp [hsame], fun _ => rfl⟩
    · cases Channel.extends_alter (hshape.streams h hh) halter with
      | same hsent | fin hsent => exact ⟨[], by simp [hsent], fun _ => rfl⟩
      | chunk p hsent hfin => exact ⟨[p], hsent, fun hended => by simp [hfin] at hended⟩
  · refine ⟨[], ?_, fun _ => rfl⟩
    rw [List.append_nil]
    apply hm.ofAuthor_eq honce hsingle rfl
    intro h hh hid
    exact absurd ⟨h, hh, hid⟩ hex

variable {out : List WriteFrame} {g : WriteFrame}

theorem changed_mergeInto (hg : g ∈ mergeInto out f) :
  g ∈ out ∨ g = f ∨ g.flag = .ack ∨ g.flag = .upd
  := by
  rcases mem_mergeInto hg with hg | hg | ⟨k, -, hflag, -, ⟨hf, rfl⟩ | ⟨hf, rfl⟩⟩ <;> simp_all

theorem mem_mergeUpdate {delta : Int} (hf : f.flag = .upd) (hg : g ∈ mergeUpdate out f delta) :
  g ∈ out ∨ g.flag = .ack ∨ g.flag = .upd
  := by
  unfold mergeUpdate at hg
  split at hg
  · exact .inl hg
  · rcases changed_mergeInto hg with hg | rfl | hg
    · exact .inl hg
    · exact .inr (.inr hf)
    · exact .inr hg

/-- The writer makes the frames of its batch ready as they are, but acknowledgements and window
updates. -/
theorem Move.mem_out (hm : Move cfg r t t') (hshape : t.Shape) (hf : f ∈ t'.out) :
  f ∈ t.out ++ t.batch ∨ f.flag = .ack ∨ f.flag = .upd
  := by
  cases hm with
  | ready g rest hbatch =>
      have hmem := changed_mergeInto hf
      rw [hbatch]
      grind
  | readyAck g rest h hbatch hack =>
      obtain ⟨-, rfl⟩ := ack_of_batch hshape.queue hbatch hack
      have hmem := changed_mergeInto hf
      grind
  | readyStream g rest h hbatch hack hstream =>
      obtain ⟨-, rfl⟩ := upd_of_batch hshape.queue hbatch hstream
      exact (mem_mergeUpdate rfl hf).imp_left (List.mem_append_left _)
  | readySession g rest hbatch hack hstream hsession =>
      obtain rfl := session_of_batch hshape.queue hbatch hsession
      exact (mem_mergeUpdate rfl hf).imp_left (List.mem_append_left _)
  | _ => exact .inl (List.mem_append_left _ hf)

/-- The frames of streams that a session has queued. -/
def queued (t : Station) : List WriteFrame :=
  t.out ++ t.batch ++ t.sess.writes ++ t.sess.lateWrites

theorem mem_queueFin {late : Bool} {h : Nat} {g : Channel → Channel}
    (hf : f ∈ t.out ++ t.batch ++ (t.sess.queueFin cfg late h g).writes
      ++ (t.sess.queueFin cfg late h g).lateWrites) :
  f ∈ t.queued ∨ f = finFrame (t.sess.heap h).id (t.sess.heap h).writeOffset
  := by
  unfold queued
  simp only [Session.queueFin, List.mem_append] at hf ⊢
  grind

/-- With retransmissions, the frames of streams that are queued are registered. -/
theorem Move.mem_queued (hm : Move cfg r t t') (hshape : t.Shape) (hrel : cfg.reliability = true)
    (hf : f ∈ t'.queued) :
  f ∈ t.queued ∨ (f.flag ≠ .data ∧ f.flag ≠ .fin)
    ∨ ∃ h < t'.sess.next, ∃ u : UnackedFrame,
      u.content ∈ (t'.sess.heap h).unacked.map content
        ∧ f = u.frame (t'.sess.heap h).id
  := by
  have hout := hm.mem_out (f := f) hshape
  unfold queued at hf ⊢
  cases hm with
  | fin h late hh | lateFin h late hh =>
      have hqueue := mem_queueFin (t := t) (f := f) hf
      refine hqueue.imp_right fun heq => .inr
        ⟨h, hh, ⟨(t.sess.heap h).writeOffset, [], true, t.sess.now, 0⟩, ?_, ?_⟩
      · simp [Session.queueFin, Channel.closeFin, Channel.lateFin, Channel.finish, Channel.register,
          hrel]
      · simp [heq, Session.queueFin, Channel.closeFin, Channel.lateFin, Channel.finish,
          frame]
  | lateWrite i g hg =>
      have := List.mem_of_getElem? hg
      have hsub := fun h => List.mem_of_mem_eraseIdx (l := t.sess.lateWrites) (i := i) (a := f) h
      simp only [List.mem_append, List.mem_singleton] at hf ⊢
      grind
  | resend h u hh hu =>
      simp only [List.mem_append, List.mem_singleton] at hf ⊢
      rcases hf with (hf | hf | rfl) | hf
      · exact .inl (.inl (.inl hf))
      · exact .inl (.inl (.inr hf))
      · exact .inr (.inr ⟨h, hh, u, hu, rfl⟩)
      · exact .inl (.inr hf)
  | write h p hh =>
      simp only [Session.spend, List.mem_append, List.mem_singleton] at hf ⊢
      rcases hf with (hf | hf | rfl) | hf
      · exact .inl (.inl (.inl hf))
      · exact .inl (.inl (.inr hf))
      · refine .inr (.inr ⟨h, hh, ⟨(t.sess.heap h).writeOffset, p, false, t.sess.now, 0⟩, ?_, ?_⟩)
        · simp [Session.update, Channel.send, Channel.register, hrel]
        · simp [Session.update, Channel.send, frame]
      · exact .inl (.inr hf)
  | collectCtrl g q hq =>
      have hflag := flag_control (hshape.queue.ctrl g (by simp [hq]))
      simp only [List.mem_append, List.mem_singleton] at hf ⊢
      grind
  | collectData g q hq =>
      simp only [List.mem_append, hq, List.mem_cons] at hf ⊢
      grind
  | ready g rest hbatch | readyAck g rest h hbatch | readyStream g rest h hbatch
  | readySession g rest hbatch =>
      simp only [Session.update, List.mem_append, hbatch, List.mem_cons] at hf hout ⊢
      grind
  | _ => exact .inl hf

/-- What a session with retransmissions sends for an identifier it opens once. -/
structure Sends (id : Nat) (t : Station) : Prop where
  single : t.sess.Single id
  registered : ∀ h < t.sess.next, (t.sess.heap h).Registered
  queued : ∀ f ∈ t.queued, f.chID = id →
    f.packet.PartOf (t.sess.sentBy id) (t.sess.Ended id)

/-- What is part of a stream stays so while the stream grows. -/
theorem Move.partOf (hm : Move cfg r t t') (hshape : t.Shape) (honce : r.once id)
    (hsingle : t.sess.Single id) {f : PacketFrame}
    (hf : f.PartOf (t.sess.sentBy id) (t.sess.Ended id)) :
  f.PartOf (t'.sess.sentBy id) (t'.sess.Ended id)
  := by
  obtain ⟨ps, heq, hps⟩ := hm.sentBy_append hshape honce hsingle
  rw [heq]
  exact hf.mono fun hended => ⟨hps hended, hm.ended hended⟩

/-- Moves keep what is sent part of the stream. -/
theorem Move.sends (hm : Move cfg r t t') (hshape : t.Shape) (hrel : cfg.reliability = true)
    (honce : r.once id) (ht : t.Sends id) :
  t'.Sends id
  := by
  have hsingle := hm.single honce ht.single
  have hregistered : ∀ h < t'.sess.next, (t'.sess.heap h).Registered := by
    intro h hh
    by_cases hlt : h < t.sess.next
    · have hold := ht.registered h hlt
      rcases hm.alter hlt with hsame | halter
      · rwa [hsame]
      · have hend := hshape.streams h hlt
        exact hold.extends hrel hend (Channel.extends_alter hend halter)
    · rw [hm.heap_new hh hlt]
      apply List.nil_suffix
  refine ⟨hsingle, hregistered, ?_⟩
  intro f hf hid
  rcases hm.mem_queued hshape hrel hf with hf | ⟨hdata, hfin⟩ | ⟨h, hh, u, hu, rfl⟩
  · exact hm.partOf hshape honce ht.single (ht.queued f hf hid)
  · exact PacketFrame.partOf_of_ne hdata hfin
  · have hidh : (t'.sess.heap h).id = id := by
      rw [← hid]
      unfold frame
      split <;> rfl
    rw [hsingle.sentBy_eq hh hidh, propext (hsingle.ended_iff hh hidh)]
    exact Channel.partOf_entries ((hregistered h hh).subset hu) _

end Station

/-- A stream that has ended stays as it is. -/
theorem Net.Step.ended {cfg : Side → SessionConfig} {terms : Terms} {n n' : Net}
    (hstep : Net.Step cfg terms n n') (hshape : n.Shape) {d : Side} {id : Nat}
    (honce : (terms.rules d).once id) (hsingle : (n.st d).sess.Single id)
    (hended : (n.st d).sess.Ended id) :
  (n'.st d).sess.sentBy id = (n.st d).sess.sentBy id ∧ (n'.st d).sess.Ended id
  := by
  rcases hstep.sess_or_move d with hsame | hmove
  · rw [hsame]
    exact ⟨rfl, hended⟩
  · obtain ⟨ps, hps, hnil⟩ := hmove.sentBy_append (hshape.st d) honce hsingle
    rw [hps, hnil hended, List.append_nil]
    exact ⟨rfl, hmove.ended hended⟩

end Muxocket
