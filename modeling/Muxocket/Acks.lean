import Mathlib.Data.List.TakeWhile
import Muxocket.Delivery

/-!
# Acknowledgements

A writer with retransmissions forgets a frame only when an acknowledgement covers it, and no
acknowledgement covers more than the reader has received.  So what the reader does not have,
the writer keeps, and the retransmission timer finds it.
-/

namespace Muxocket

/-! ### The frames of a writer -/

/-- The offset an acknowledgement must reach to cover a frame of a stream. -/
def entryEnd (x : Nat × Bytes × Bool) : Nat :=
  if x.2.2 then x.1 + 1 else x.1 + x.2.1.length

theorem entryEnd_content (u : UnackedFrame) :
  entryEnd u.content = u.end_
  := rfl

namespace Channel

variable {cfg : SessionConfig} {r : Rules} {hand : List PacketFrame} {c c' : Channel}

/-- The frames of a stream are in the order of their ends. -/
theorem entries_sorted (hc : c.EndOk) :
  c.entries.Pairwise fun x y => entryEnd x < entryEnd y
  := by
  have hchunks : ((chunks 0 c.sent).map fun x => (x.1, x.2, false)).Pairwise
      fun x y => entryEnd x < entryEnd y := by
    rw [List.pairwise_map]
    refine (pairwise_chunks 0 c.sent).imp_of_mem ?_
    rintro ⟨a, p⟩ ⟨b, q⟩ _ hq hle
    have hpos := List.length_pos_of_ne_nil (hc.chunks q (mem_of_mem_chunks hq))
    simp only [entryEnd] at hle ⊢
    simp
    omega
  unfold entries
  rw [List.pairwise_append]
  refine ⟨hchunks, ?_, ?_⟩
  · split <;> simp
  · intro x hx y hy
    obtain ⟨⟨off, p⟩, hp, rfl⟩ := List.mem_map.mp hx
    have hend := end_le_of_mem_chunks hp
    split at hy
    · obtain rfl := List.mem_singleton.mp hy
      simp only [entryEnd, Bool.false_eq_true, if_false, if_true]
      omega
    · contradiction

/-- A frame that is kept for retransmission leaves only when an acknowledgement covers it. -/
theorem mem_unacked_alter (hkept : r.kept c.id) (halter : Alter cfg r hand c c')
    {x : Nat × Bytes × Bool} (hx : x ∈ c.unacked.map UnackedFrame.content) :
  x ∈ c'.unacked.map UnackedFrame.content
    ∨ ∃ f ∈ hand, f.flag = .ack ∧ f.chID = c.id ∧ entryEnd x ≤ f.offset
  := by
  cases halter with
  | touch htouch =>
      left
      cases htouch with
      | alike halike => rwa [halike]
      | @retime us hus => rwa [hus]
      | _ => exact hx
  | fin now | lateFin now | send now p =>
      left
      simp only [closeFin, Channel.lateFin, finish, Channel.send, register]
      split
      · rw [List.map_append]
        exact List.mem_append_left _ hx
      · exact hx
  | retire _ _ _ hunacked =>
      rcases hunacked with hnil | hnot
      · simp [hnil] at hx
      · exact absurd hkept hnot
  | push f =>
      left
      unfold Channel.push
      split <;> exact hx
  | feed f | feedEarly p =>
      left
      simp only [feedEarly, Channel.feed, Channel.push]
      split
      · exact hx
      · split <;> exact hx
  | acked f hf hflag hid =>
      obtain ⟨u, hu, rfl⟩ := List.mem_map.mp hx
      rw [← List.takeWhile_append_dropWhile (l := c.unacked)
        (p := fun g : UnackedFrame => decide (g.end_ ≤ f.offset))] at hu
      rcases List.mem_append.mp hu with hu | hu
      · right
        have hend := List.mem_takeWhile_imp hu
        exact ⟨f, hf, hflag, hid.symm, by simpa [entryEnd_content] using hend⟩
      · left
        exact List.mem_map_of_mem hu
  | _ => exact .inl hx

/-! ### What a reader has received -/

variable {sent : List Bytes} {ended : Prop}

/-- What a reader acknowledges grows. -/
theorem cumulativeAck_mono (hc : c.Follows sent ended) (hc' : c'.Follows sent ended)
    (halter : Alter cfg r hand c c') :
  c.cumulativeAckLocked ≤ c'.cumulativeAckLocked
  := by
  have hread := halter.grows.readOffset
  have hfin := halter.grows.hasFin
  have hbound := hc.bound
  have hbound' := hc'.bound
  unfold cumulativeAckLocked
  by_cases hhas : c.hasFin = true
  · have hoffset := (hc.fin hhas).2
    have hoffset' := (hc'.fin (hfin hhas)).2
    simp only [hhas, hfin hhas, true_and]
    split <;> split <;> omega
  · rw [if_neg fun hdone => hhas hdone.1]
    split
    · rename_i hdone
      have hoffset' := (hc'.fin hdone.1).2
      omega
    · omega

/-- The offset of the acknowledgements of a channel is at most what it has received. -/
theorem ackOffset_alter (hc : c.Follows sent ended) (hc' : c'.Follows sent ended)
    (halter : Alter cfg r hand c c') (hack : c.ackOffset ≤ c.cumulativeAckLocked) :
  c'.ackOffset ≤ c'.cumulativeAckLocked
  := by
  have hmono := cumulativeAck_mono hc hc' halter
  have hsame : c'.ackOffset = c.ackOffset ∨ c'.ackOffset = c.cumulativeAckLocked := by
    cases halter with
    | touch htouch =>
        cases htouch with
        | alike halike =>
            left
            rw [halike]
        | noteAck => exact .inr rfl
        | _ => exact .inl rfl
    | fin now | lateFin now | send now p =>
        left
        simp only [closeFin, Channel.lateFin, finish, Channel.send, register]
        split <;> rfl
    | retire =>
        left
        simp only [retire]
        split <;> rfl
    | push f =>
        left
        unfold Channel.push
        split <;> rfl
    | feed f | feedEarly p =>
        left
        simp only [feedEarly, Channel.feed, Channel.push]
        split
        · rfl
        · split <;> rfl
    | ack => exact .inr rfl
    | _ => exact .inl rfl
  omega

theorem Follows.le_readOffset (hc : c.Follows sent ended) {offset : Nat}
    (hack : offset ≤ c.cumulativeAckLocked) (hle : offset ≤ sent.flatten.length) :
  offset ≤ c.readOffset
  := by
  unfold cumulativeAckLocked at hack
  split at hack
  · rename_i hdone
    have hoffset := (hc.fin hdone.1).2
    omega
  · exact hack

/-- The reader has all that the writer has written, and knows that it is all. -/
structure HasAll (writer reader : Channel) : Prop where
  ended : writer.finSent = true
  hasFin : reader.hasFin = true
  finOffset : reader.finOffset = writer.writeOffset
  received : writer.writeOffset ≤ reader.readOffset

/-- A writer that keeps what its reader has not received keeps all of the stream from some place
on which the reader has reached. -/
theorem Registered.covers (hc : c.Registered) (hend : c.EndOk) {reader : Channel}
    (hreader : reader.Follows c.sent ended)
    (hkept : ∀ x ∈ c.entries, x ∈ c.unacked.map UnackedFrame.content
      ∨ entryEnd x ≤ reader.cumulativeAckLocked) :
  ∃ lo ps, lo ≤ reader.readOffset ∧ lo + ps.flatten.length = c.writeOffset
    ∧ (c.unacked.map UnackedFrame.content
          = (chunks lo ps).map (fun x => (x.1, x.2, false))
            ++ (if c.finSent then [(c.writeOffset, [], true)] else [])
      ∨ c.unacked = [] ∧ ps = [] ∧ c.finSent = true
        ∧ c.writeOffset < reader.cumulativeAckLocked)
  := by
  obtain ⟨before, hsplit⟩ := hc
  have hbefore : ∀ x ∈ before, entryEnd x ≤ reader.cumulativeAckLocked := by
    intro x hx
    rcases hkept x (by simp [← hsplit, hx]) with hmem | hle
    · have hsorted := entries_sorted hend
      rw [← hsplit, List.pairwise_append] at hsorted
      have hlt := hsorted.2.2 x hx x hmem
      omega
    · exact hle
  have hlength : ∀ ps qs, c.sent = ps ++ qs →
      (∀ x ∈ chunks 0 ps, (x.1, x.2, false) ∈ before) → ps.flatten.length ≤ reader.readOffset := by
    intro ps qs hsent hmem
    apply hreader.le_readOffset
    · apply length_flatten_le
      intro x hx
      exact hbefore _ (hmem x hx)
    · simp [hsent]
  unfold entries at hsplit
  rcases List.append_eq_append_iff.mp hsplit with ⟨last, hchunks, hunacked⟩
    | ⟨first, hbefore', hfin⟩
  · obtain ⟨cs, ds, hcs, rfl, rfl⟩ := List.map_eq_append_iff.mp hchunks
    obtain ⟨ps, qs, hsent, rfl, rfl⟩ := chunks_eq_append hcs
    refine ⟨ps.flatten.length, qs, ?_, ?_, .inl ?_⟩
    · apply hlength ps qs hsent
      intro x hx
      exact List.mem_map_of_mem hx
    · simp [hend.offset, hsent]
    · rw [hunacked, hend.offset, Nat.zero_add]
  · refine ⟨c.writeOffset, [], ?_, rfl, ?_⟩
    · rw [hend.offset]
      apply hlength c.sent [] (by simp)
      intro x hx
      rw [hbefore']
      exact List.mem_append_left _ (List.mem_map_of_mem hx)
    · cases first with
      | nil =>
          left
          rw [List.nil_append] at hfin
          rw [← hfin, hend.offset]
          rfl
      | cons x first =>
          right
          split at hfin
          · rename_i hended
            obtain ⟨rfl, hrest⟩ := List.cons.inj hfin
            obtain ⟨-, hnil⟩ := List.append_eq_nil_iff.mp hrest.symm
            have hlt := hbefore (c.sent.flatten.length, [], true) (by simp [hbefore'])
            simp only [entryEnd, if_true] at hlt
            refine ⟨List.map_eq_nil_iff.mp hnil, rfl, hended, ?_⟩
            rw [hend.offset]
            omega
          · contradiction

end Channel

/-- A channel of the session for an identifier has received its stream up to the offset. -/
def Session.Reaches (id offset : Nat) (s : Session) : Prop :=
  ∃ k < s.next, (s.heap k).id = id ∧ offset ≤ (s.heap k).cumulativeAckLocked

namespace Station

variable {cfg : SessionConfig} {r : Rules} {t t' : Station}

/-- An acknowledgement that is ready has the offset of one that was made. -/
theorem ack_mergeInto {out : List WriteFrame} {f g : WriteFrame} (hg : g ∈ mergeInto out f)
    (hflag : g.flag = .ack) :
  ∃ g' ∈ f :: out, g'.flag = .ack ∧ g'.chID = g.chID ∧ g'.offset = g.offset
  := by
  rcases mem_mergeInto hg with hg | rfl | ⟨k, hk, hkf, hid, ⟨hack, rfl⟩ | ⟨hupd, rfl⟩⟩
  · exact ⟨g, List.mem_cons_of_mem f hg, hflag, rfl, rfl⟩
  · exact ⟨g, List.mem_cons_self, hflag, rfl, rfl⟩
  · rcases max_choice k.offset f.offset with hmax | hmax
    · exact ⟨k, List.mem_cons_of_mem f hk, hflag, rfl, hmax.symm⟩
    · exact ⟨f, List.mem_cons_self, hack, hid.symm, hmax.symm⟩
  · rw [hkf, hupd] at hflag
    contradiction

/-- An acknowledgement that is made ready has the offset its channel has then. -/
theorem Move.ack_out (hm : Move cfg r t t') (hshape : t.Shape) {g : WriteFrame} (hg : g ∈ t'.out)
    (hflag : g.flag = .ack) :
  (∃ g' ∈ t.out, g'.flag = .ack ∧ g'.chID = g.chID ∧ g'.offset = g.offset)
    ∨ ∃ k < t.sess.next, (t.sess.heap k).id = g.chID ∧ g.offset = (t.sess.heap k).ackOffset
  := by
  have hkeep : g ∈ t.out → ∃ g' ∈ t.out, g'.flag = .ack ∧ g'.chID = g.chID ∧ g'.offset = g.offset :=
    fun hg => ⟨g, hg, hflag, rfl, rfl⟩
  have hupdate : ∀ (f : WriteFrame) (delta : Int), f.flag = .upd → g ∈ mergeUpdate t.out f delta →
      ∃ g' ∈ t.out, g'.flag = .ack ∧ g'.chID = g.chID ∧ g'.offset = g.offset := by
    intro f delta hf hg
    unfold mergeUpdate at hg
    split at hg
    · exact hkeep hg
    · obtain ⟨g', hg', hack, heq⟩ := ack_mergeInto hg hflag
      rcases List.mem_cons.mp hg' with rfl | hg'
      · simp [hf] at hack
      · exact ⟨g', hg', hack, heq⟩
  cases hm with
  | ready f rest hbatch hnone =>
      left
      obtain ⟨g', hg', hack, heq⟩ := ack_mergeInto hg hflag
      rcases List.mem_cons.mp hg' with rfl | hg'
      · rcases hshape.queue.batch g' (by simp [hbatch]) with hstream | hcontrol
        · cases hstream <;> contradiction
        · cases hcontrol with
          | plain hplain => rcases hplain.1 with h | h | h <;> simp [h] at hack
          | ack => contradiction
          | _ => contradiction
      · exact ⟨g', hg', hack, heq⟩
  | readyAck f rest h hbatch hack =>
      obtain ⟨hh, rfl⟩ := ack_of_batch hshape.queue hbatch hack
      obtain ⟨g', hg', hack, hid, hoffset⟩ := ack_mergeInto hg hflag
      rcases List.mem_cons.mp hg' with rfl | hg'
      · exact .inr ⟨h, hh, hid, hoffset.symm⟩
      · exact .inl ⟨g', hg', hack, hid, hoffset⟩
  | readyStream f rest h hbatch hack hstream =>
      obtain ⟨-, rfl⟩ := upd_of_batch hshape.queue hbatch hstream
      exact .inl (hupdate _ _ rfl hg)
  | readySession f rest hbatch hack hstream hsession =>
      obtain rfl := session_of_batch hshape.queue hbatch hsession
      exact .inl (hupdate _ _ rfl hg)
  | _ => exact .inl (hkeep hg)

/-- A session gets acknowledgements from the transport only. -/
theorem Move.ack_hand (hm : Move cfg r t t') {f : PacketFrame} (hf : f ∈ t'.hand)
    (hflag : f.flag = .ack) :
  f ∈ t.hand
  := by
  rcases hm.mem_hand hf with hf | ⟨id, q, g, -, -, rfl⟩
  · exact hf
  · have hearly := g.early
    rw [show g.flag = .ack from hflag] at hearly
    simp at hearly

/-- With retransmissions, a frame of a stream is kept for retransmission when it is new. -/
theorem mem_entries_alter {hand : List PacketFrame} {c c' : Channel}
    (hrel : cfg.reliability = true) (hc : c.EndOk) (halter : Alter cfg r hand c c')
    {x : Nat × Bytes × Bool} (hx : x ∈ c'.entries) :
  x ∈ c.entries ∨ x ∈ c'.unacked.map UnackedFrame.content
  := by
  have hoffset := hc.offset
  cases Channel.extends_alter hc halter with
  | same hsent hfin =>
      left
      rwa [← Channel.entries_congr hsent hfin]
  | chunk p hsent hfin hfin' hunacked =>
      rw [Channel.entries_send hsent hfin hfin', List.mem_append, List.mem_singleton] at hx
      rw [hunacked, if_pos hrel, hoffset]
      exact hx.imp_right fun heq => by simp [heq]
  | fin hsent hfin hfin' hunacked =>
      rw [Channel.entries_finish hsent hfin hfin', List.mem_append, List.mem_singleton] at hx
      rw [hunacked, if_pos hrel, hoffset]
      exact hx.imp_right fun heq => by simp [heq]

end Station

namespace Net

variable {cfg : Side → SessionConfig} {terms : Terms} {n n' : Net}

/-- The frame does not acknowledge more of a stream than the side `d` has received. -/
def Honest (d : Side) (id : Nat) (n : Net) (f : PacketFrame) : Prop :=
  f.flag = .ack → f.chID = id → (n.st d).sess.Reaches id f.offset

/-- The stream that the side `d` writes for an identifier reaches the other side, and `d` keeps
what has not been acknowledged. -/
structure Acknowledges (d : Side) (id : Nat) (n : Net) : Prop extends Delivers d id n where
  offsets : ∀ k < (n.st d.other).sess.next, ((n.st d.other).sess.heap k).id = id →
    ((n.st d.other).sess.heap k).ackOffset ≤ ((n.st d.other).sess.heap k).cumulativeAckLocked
  out : ∀ f ∈ (n.st d.other).out, n.Honest d.other id f.packet
  link : ∀ f ∈ n.link d.other, n.Honest d.other id f
  hand : ∀ f ∈ (n.st d).hand, n.Honest d.other id f
  kept : ∀ h < (n.st d).sess.next, ((n.st d).sess.heap h).id = id →
    ∀ x ∈ ((n.st d).sess.heap h).entries,
      x ∈ ((n.st d).sess.heap h).unacked.map UnackedFrame.content
        ∨ (n.st d.other).sess.Reaches id (entryEnd x)

variable {d : Side} {id : Nat}

/-- A move of the writer. -/
theorem Acknowledges.write (hn : n.Acknowledges d id) (hshape : n.Shape)
    (hrel : (cfg d).reliability = true) (honce : (terms.rules d).once id)
    (hkept : (terms.rules d).kept id) {t : Station}
    (hmove : Station.Move (cfg d) (terms.rules d) (n.st d) t) :
  (n.put d t).Acknowledges d id
  := by
  have hother : (n.put d t).st d.other = n.st d.other := st_put_of_ne (Side.other_ne d) t n
  have hhonest : (n.put d t).Honest d.other id = n.Honest d.other id := by
    funext f
    simp only [Honest, hother]
  refine ⟨hn.toDelivers.write hshape hrel honce hmove, ?_, ?_, ?_, ?_, ?_⟩
  · rw [hother]
    exact hn.offsets
  · rw [hother, hhonest]
    exact hn.out
  · rw [hhonest]
    exact hn.link
  · rw [st_put, hhonest]
    intro f hf hflag
    exact hn.hand f (hmove.ack_hand hf hflag) hflag
  · rw [st_put, hother]
    intro h hh hid x hx
    by_cases hlt : h < (n.st d).sess.next
    · rw [hmove.id_eq hlt] at hid
      rcases hmove.alter hlt with hsame | halter
      · rw [hsame] at hx ⊢
        exact hn.kept h hlt hid x hx
      · rcases Station.mem_entries_alter hrel ((hshape.st d).streams h hlt) halter hx with hx | hx
        · rcases hn.kept h hlt hid x hx with hx | hreaches
          · rcases Channel.mem_unacked_alter (hid ▸ hkept) halter hx with hx
              | ⟨f, hf, hflag, hidf, hle⟩
            · exact .inl hx
            · obtain ⟨k, hk, hidk, hoffset⟩ := hn.hand f hf hflag (hidf.trans hid)
              exact .inr ⟨k, hk, hidk, hle.trans hoffset⟩
          · exact .inr hreaches
        · exact .inl hx
    · rw [hmove.heap_new hh hlt] at hx
      simp [Channel.entries, chunks] at hx

/-- A move of the reader. -/
theorem Acknowledges.read (hn : n.Acknowledges d id) (hshape : n.Shape)
    (hrel : (cfg d.other).reliability = true) {t : Station}
    (hmove : Station.Move (cfg d.other) (terms.rules d.other) (n.st d.other) t) :
  (n.put d.other t).Acknowledges d id
  := by
  have hother : (n.put d.other t).st d = n.st d := st_put_of_ne (Side.ne_other d) t n
  have hdelivers := hn.toDelivers.read hshape hrel hmove
  have hfollows := hdelivers.follows
  rw [st_put, hother] at hfollows
  have hreaches : ∀ offset, (n.st d.other).sess.Reaches id offset → t.sess.Reaches id offset := by
    rintro offset ⟨k, hk, hid, hle⟩
    have hk' := lt_of_lt_of_le hk hmove.closed_next.2
    have hid' : (t.sess.heap k).id = id := by rw [hmove.id_eq hk, hid]
    refine ⟨k, hk', hid', ?_⟩
    rcases hmove.alter hk with hsame | halter
    · rwa [hsame]
    · exact hle.trans (Channel.cumulativeAck_mono (hn.follows k hk hid)
        (hfollows k hk' hid') halter)
  have hhonest : ∀ f, n.Honest d.other id f → (n.put d.other t).Honest d.other id f := by
    intro f hf hflag hid
    rw [st_put]
    exact hreaches _ (hf hflag hid)
  refine ⟨hdelivers, ?_, ?_, ?_, ?_, ?_⟩
  · rw [st_put]
    intro k hk hid
    by_cases hlt : k < (n.st d.other).sess.next
    · have hid' := hid
      rw [hmove.id_eq hlt] at hid'
      have hack := hn.offsets k hlt hid'
      rcases hmove.alter hlt with hsame | halter
      · rwa [hsame]
      · exact Channel.ackOffset_alter (hn.follows k hlt hid') (hfollows k hk hid) halter hack
    · rw [hmove.heap_new hk hlt]
      exact Nat.zero_le _
  · rw [st_put]
    intro f hf hflag hid
    rw [st_put]
    rcases hmove.ack_out (hshape.st d.other) hf hflag with ⟨g, hg, hflag', hid', hoffset⟩
      | ⟨k, hk, hidk, hoffset⟩
    · have hg := hreaches _ (hn.out g hg hflag' (hid'.trans hid))
      rwa [show f.packet.offset = g.packet.offset from hoffset.symm]
    · apply hreaches
      refine ⟨k, hk, hidk.trans hid, ?_⟩
      exact hoffset.trans_le (hn.offsets k hk (hidk.trans hid))
  · intro f hf
    exact hhonest f (hn.link f hf)
  · rw [hother]
    intro f hf
    exact hhonest f (hn.hand f hf)
  · rw [st_put, hother]
    intro h hh hid x hx
    exact (hn.kept h hh hid x hx).imp_right (hreaches _)

/-- Acknowledgements that go from one place to the next stay honest. -/
theorem Acknowledges.carry (hn : n.Acknowledges d id) (hcarries : Carries n n') :
  n'.Acknowledges d id
  := by
  obtain ⟨hand, out, heq, hhand, -⟩ := hcarries.st d
  obtain ⟨hand', out', heq', -, hout'⟩ := hcarries.st d.other
  have hhonest : n'.Honest d.other id = n.Honest d.other id := by
    funext f
    simp only [Honest, heq']
  refine ⟨hn.toDelivers.carry hcarries, ?_, ?_, ?_, ?_, ?_⟩
  · rw [heq']
    exact hn.offsets
  · rw [hhonest, heq']
    intro f hf
    exact hn.out f (hout' hf)
  · rw [hhonest]
    intro f hf
    rcases hcarries.link _ f hf with hf | ⟨g, hg, rfl⟩
    · exact hn.link f hf
    · exact hn.out g hg
  · rw [hhonest, heq]
    intro f hf
    rcases hhand f hf with hf | hf
    · exact hn.hand f hf
    · exact hn.link f hf
  · rw [heq, heq']
    exact hn.kept

/-- Steps keep what has not been acknowledged, whatever the transport does. -/
theorem Step.acknowledges (hstep : Step cfg terms n n') (hshape : n.Shape)
    (hrel : ∀ d, (cfg d).reliability = true) (honce : (terms.rules d).once id)
    (hkept : (terms.rules d).kept id) (hn : n.Acknowledges d id) :
  n'.Acknowledges d id
  := by
  rcases hstep.carries with ⟨e, t, hmove, rfl⟩ | hcarries
  · rcases eq_or_other d e with rfl | rfl
    · exact hn.write hshape (hrel _) honce hkept hmove
    · exact hn.read hshape (hrel _) hmove
  · exact hn.carry hcarries

/-- A channel whose stream has ended, and which keeps nothing of it, has a peer that has all of
it. -/
theorem Acknowledges.hasAll (hn : n.Acknowledges d id) (hshape : n.Shape) {h : Nat}
    (hh : h < (n.st d).sess.next) (hid : ((n.st d).sess.heap h).id = id)
    (hfin : ((n.st d).sess.heap h).finSent = true)
    (hunacked : ((n.st d).sess.heap h).unacked = []) :
  ∃ k < (n.st d.other).sess.next, ((n.st d.other).sess.heap k).id = id
    ∧ ((n.st d).sess.heap h).HasAll ((n.st d.other).sess.heap k)
  := by
  have hoffset := ((hshape.st d).streams h hh).offset
  have hlast : (((n.st d).sess.heap h).sent.flatten.length, [], true)
      ∈ ((n.st d).sess.heap h).entries := by
    simp [Channel.entries, hfin]
  rcases hn.kept h hh hid _ hlast with hmem | ⟨k, hk, hidk, hle⟩
  · simp [hunacked] at hmem
  · refine ⟨k, hk, hidk, ?_⟩
    have hfollows := hn.follows k hk hidk
    rw [hn.sends.single.sentBy_eq hh hid] at hfollows
    have hbound := hfollows.bound
    simp only [entryEnd, if_true, Channel.cumulativeAckLocked] at hle
    split at hle
    · rename_i hdone
      have hend := (hfollows.fin hdone.1).2
      exact ⟨hfin, hdone.1, by omega, by omega⟩
    · omega

theorem acknowledges_init (cfg : Side → SessionConfig) (now : Side → Int) (d : Side) (id : Nat) :
  (ofWorld (World.init cfg now)).Acknowledges d id
  := by
  refine ⟨delivers_init cfg now d id, ?_, ?_, ?_, ?_, ?_⟩
  · intro k hk
    simp at hk
  · simp
  · simp
  · simp
  · intro h hh
    simp at hh

end Net

theorem unacked_onAck (cfg : SessionConfig) (h ackOffset : Nat) (s : Session) :
  ((s.onAck cfg h ackOffset).heap h).unacked
    = (s.heap h).unacked.dropWhile fun f => decide (f.end_ ≤ ackOffset)
  := by
  simp only [Session.onAck]
  split
  · rename_i hnil
    rw [Session.unacked_maybeFinalize, hnil.1]
    split <;> simpa [Session.arqRemove] using hnil.1
  · simp

namespace World

/-- An action that does not give up a channel of an identifier at the side `d`. -/
def KeepsLabel (d : Side) (id : Nat) (w : World) : Action → Prop
  | .op e (.localClose h) => e = d → ((w.sess e).heap h).id ≠ id
  | _ => True

instance (d : Side) (id : Nat) (w : World) (a : Action) : Decidable (w.KeepsLabel d id a) := by
  unfold KeepsLabel
  split <;> infer_instance

/-- An action of a run in which an identifier is opened at most once at each side, and is kept
at the side `d`. -/
def Retains (cfg : Side → SessionConfig) (d : Side) (id : Nat) (w : World) (a : Action) : Prop :=
  w.StaysOpen cfg a ∧ (∀ e, w.OpensLabelOnce e id a) ∧ w.KeepsLabel d id a

/-- A run in which an identifier is opened at most once at each side is in accord with what is
known of it. -/
theorem allows_label {cfg : Side → SessionConfig} (hrel : ∀ d, (cfg d).reliability = true)
    {id : Nat} {kept : Side → Nat → Prop} {w : World} {a : Action}
    (honce : ∀ e, w.OpensLabelOnce e id a)
    (hkept : ∀ e h, a = .op e (.localClose h) → ¬ kept e ((w.sess e).heap h).id) :
  Net.Allows cfg (Net.lossyTerms (fun _ i => i = id) kept) w a
  := by
  apply Net.allows_lossy hrel not_false (fun _ _ => trivial) (fun _ => not_false)
  rintro e o rfl
  cases o with
  | openChannel label =>
      rintro i hi rfl
      apply honce e rfl hi
  | localClose h => apply hkept e h rfl
  | _ => simp [Op.Follows, Net.lossyTerms]

/-- What one side writes with retransmissions it keeps until the other side has it. -/
theorem acknowledges_of_run {cfg : Side → SessionConfig} {now : Side → Int} {w : World}
    (hrel : ∀ d, (cfg d).reliability = true) {d : Side} {id : Nat}
    (hrun : Run (World.step cfg) (Retains cfg d id) (World.init cfg now) w) :
  (Net.ofWorld w).Shape ∧ (Net.ofWorld w).Acknowledges d id ∧ ∀ e, (w.sess e).Single id
  := by
  have hinit : ∀ e, ((Net.ofWorld (World.init cfg now)).st e).sess.Single id := by
    intro e h hh
    simp at hh
  apply Net.invariant_of_run (Net.lossyTerms (fun _ i => i = id) fun e i => e = d ∧ i = id)
    (I := fun n => n.Acknowledges d id ∧ ∀ e, (n.st e).sess.Single id) _ _ _
    ⟨Net.acknowledges_init cfg now d id, hinit⟩ hrun
  · rintro w a ⟨-, honce, hkeeps⟩
    apply allows_label hrel honce
    rintro e h rfl ⟨rfl, hid⟩
    apply hkeeps rfl hid
  · rintro w a w' ⟨hopen, -⟩ hstep e
    apply hopen.closed_eq hstep
  · rintro n n' hshape ⟨hn, hsingle⟩ hstep
    refine ⟨hstep.acknowledges hshape hrel rfl ⟨rfl, rfl⟩ hn, ?_⟩
    intro e
    rcases hstep.sess_or_move e with hsame | hmove
    · rw [hsame]
      exact hsingle e
    · exact hmove.single rfl (hsingle e)

/-- Acknowledgement of one stream between two sessions with retransmissions, over a transport
that may drop, duplicate, delay and reorder frames.  The channel `h` writes the stream, and is
not given up, and the channel `k` of the other side reads it.  The frames the writer keeps are
in order, and are all there is of the stream from an offset on which the reader has reached,
unless the reader has all of the stream with its end.  No acknowledgement, be it queued or in
flight, is beyond what the reader has received, an acknowledgement removes the frames it
covers, and the retransmission timer scans a channel with unacknowledged frames. -/
theorem unacked_until_received (cfg : Side → SessionConfig) (now : Side → Int) (w : World)
    (hrel : ∀ d, (cfg d).reliability = true) (d : Side) (id : Nat)
    (hrun : Run (World.step cfg)
      (fun w a => w.StaysOpen cfg a ∧ (∀ e, w.OpensLabelOnce e id a) ∧ w.KeepsLabel d id a)
      (World.init cfg now) w)
    (h : Nat) (hh : h < (w.sess d).next) (hidh : ((w.sess d).heap h).id = id)
    (k : Nat) (hk : k < (w.sess d.other).next) (hidk : ((w.sess d.other).heap k).id = id) :
  (∃ lo ps, lo ≤ ((w.sess d.other).heap k).readOffset
      ∧ lo + ps.flatten.length = ((w.sess d).heap h).writeOffset
      ∧ (((w.sess d).heap h).unacked.map UnackedFrame.content
            = (chunks lo ps).map (fun x => (x.1, x.2, false))
              ++ (if ((w.sess d).heap h).finSent then [(((w.sess d).heap h).writeOffset, [], true)]
                else [])
        ∨ ((w.sess d).heap h).unacked = [] ∧ ps = [] ∧ ((w.sess d).heap h).finSent = true
          ∧ ((w.sess d).heap h).writeOffset < ((w.sess d.other).heap k).cumulativeAckLocked))
    ∧ ((w.sess d).heap h).unacked.Pairwise (fun f g => f.end_ < g.end_)
    ∧ ((w.sess d.other).heap k).ackOffset ≤ ((w.sess d.other).heap k).cumulativeAckLocked
    ∧ (∀ f ∈ w.path d.other, f.flag = .ack → f.chID = id →
      f.offset ≤ ((w.sess d.other).heap k).cumulativeAckLocked)
    ∧ (∀ ackOffset, (((w.sess d).onAck (cfg d) h ackOffset).heap h).unacked
      = ((w.sess d).heap h).unacked.filter fun f => decide (ackOffset < f.end_))
    ∧ (((w.sess d).heap h).unacked ≠ [] →
      ((w.sess d).heap h).inARQ = true ∧ h ∈ (w.sess d).arqSet)
  := by
  obtain ⟨hshape, hn, hsingle⟩ := acknowledges_of_run hrel hrun
  have hend : ((w.sess d).heap h).EndOk := (hshape.st d).streams h hh
  have hregistered : ((w.sess d).heap h).Registered := hn.sends.registered h hh
  have hfollows : ((w.sess d.other).heap k).Follows ((w.sess d).sentBy id) ((w.sess d).Ended id) :=
    hn.follows k hk hidk
  rw [(hsingle d).sentBy_eq hh hidh] at hfollows
  have hreaches : ∀ offset, (w.sess d.other).Reaches id offset →
      offset ≤ ((w.sess d.other).heap k).cumulativeAckLocked := by
    rintro offset ⟨k', hk', hid', hle⟩
    rwa [hsingle d.other k hk k' hk' hidk hid']
  have hsorted : ((w.sess d).heap h).unacked.Pairwise fun f g => f.end_ < g.end_ := by
    have hpairwise := (Channel.entries_sorted hend).sublist hregistered.sublist
    rwa [List.pairwise_map] at hpairwise
  refine ⟨?_, hsorted, hn.offsets k hk hidk, ?_, ?_, ?_⟩
  · apply hregistered.covers hend hfollows
    intro x hx
    exact (hn.kept h hh hidh x hx).imp_right (hreaches _)
  · intro f hf hflag hid
    rcases List.mem_append.mp hf with hf | hf
    · obtain ⟨g, hg, rfl⟩ := List.mem_map.mp hf
      have hqueue := (hshape.st d.other).queue
      simp only [List.mem_append] at hg
      rcases hg with (hg | hg) | hg
      · cases hqueue.ctrl g (List.mem_append.mpr hg) with
        | plain hplain =>
            rcases hplain.1 with heq | heq | heq <;> simp [WriteFrame.packet, heq] at hflag
        | ack => exact Nat.zero_le _
        | _ => contradiction
      · obtain ⟨_, _, rfl⟩ := hqueue.late g hg
        contradiction
      · cases hqueue.writes g hg <;> contradiction
    · exact hreaches _ (hn.link f hf hflag hid)
  · intro ackOffset
    rw [unacked_onAck, dropWhile_eq_filter]
    · congr 1
      funext f
      rw [← decide_not, decide_eq_decide]
      omega
    · refine hsorted.imp ?_
      intro f g hlt hle
      simp only [decide_eq_true_eq] at hle ⊢
      omega
  · intro hne
    have harmed := (hshape.st d).armed h hh hne
    exact ⟨harmed, (hshape.st d).scan.scanned h hh harmed⟩

/-- Two chunks are written and the second one is lost.  The first one comes twice, and is
acknowledged. -/
theorem unacked_until_received_lost :
  ∃ w : World,
    (∃ lo ps, lo ≤ ((w.sess .right).heap 0).readOffset
        ∧ lo + ps.flatten.length = ((w.sess .left).heap 0).writeOffset
        ∧ (((w.sess .left).heap 0).unacked.map UnackedFrame.content
              = (chunks lo ps).map (fun x => (x.1, x.2, false))
                ++ (if ((w.sess .left).heap 0).finSent then
                    [(((w.sess .left).heap 0).writeOffset, [], true)]
                  else [])
          ∨ ((w.sess .left).heap 0).unacked = [] ∧ ps = []
            ∧ ((w.sess .left).heap 0).finSent = true
            ∧ ((w.sess .left).heap 0).writeOffset
              < ((w.sess .right).heap 0).cumulativeAckLocked))
      ∧ ((w.sess .left).heap 0).unacked.length = 1
      ∧ ((w.sess .right).heap 0).readOffset = 3
  := by
  obtain ⟨w, hrun, hnext, hid, hnext', hid', hlength, hread⟩ :=
    Run.exists_of_exec (World.step fun _ => smallConfig true)
      (fun w a => w.StaysOpen (fun _ => smallConfig true) a
        ∧ (∀ e, w.OpensLabelOnce e 11 a) ∧ w.KeepsLabel .left 11 a)
      (World.init (fun _ => smallConfig true) fun _ => 0)
      [.op .left (.openChannel [97]), .op .left (.write 0 [1, 2, 3]), .op .left (.write 0 [4, 5]),
        .flush .left [false, false], .dup .left 0, .drop .left 1, .op .right (.openChannel [97]),
        .recv .right 0 false, .recv .right 0 false, .flush .right [true], .recv .left 0 false]
      (fun w => (w.sess .left).next = 1 ∧ ((w.sess .left).heap 0).id = 11
        ∧ (w.sess .right).next = 1 ∧ ((w.sess .right).heap 0).id = 11
        ∧ ((w.sess .left).heap 0).unacked.length = 1 ∧ ((w.sess .right).heap 0).readOffset = 3)
      (by decide +kernel)
  have hreceived := unacked_until_received (fun _ => smallConfig true) (fun _ => 0) w (fun _ => rfl)
    .left 11 hrun 0 (by omega) hid 0 (by simp [Side.other, hnext']) hid'
  exact ⟨w, hreceived.1, hlength, hread⟩

end World

end Muxocket
