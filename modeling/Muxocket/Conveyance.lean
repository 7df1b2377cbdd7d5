import Muxocket.Sending

/-!
# A stream over an ordered transport

Without retransmissions, and over an ordered transport, the data of a stream is conveyed as it
was written.  What has been put on the ring of the reader, followed by the data that is kept
for a channel that is not open yet, in flight and queued, is the stream, unless some of its
data was dropped before the channel was opened.
-/

namespace Muxocket

open Session WriteFrame
open Channel (buffers closeFin finish pushed send unread)

/-- The data for an identifier in a list of frames. -/
def cargo (id : Nat) (fs : List PacketFrame) : Bytes :=
  ((fs.filter fun f => decide (f.chID = id ∧ f.flag = .data)).map (·.data)).flatten

section

variable (id : Nat) (f : PacketFrame) (fs fs' : List PacketFrame)

@[simp]
theorem cargo_nil :
  cargo id [] = []
  := rfl

@[simp]
theorem cargo_cons :
  cargo id (f :: fs) = (if f.chID = id ∧ f.flag = .data then f.data else []) ++ cargo id fs
  := by
  by_cases h : f.chID = id ∧ f.flag = .data <;> simp [cargo, h]

@[simp]
theorem cargo_append :
  cargo id (fs ++ fs') = cargo id fs ++ cargo id fs'
  := by
  simp [cargo]

theorem cargo_eq_nil_of_data {id : Nat} {fs : List PacketFrame}
    (hnil : ∀ f ∈ fs, f.chID = id → f.flag = .data → f.data = []) :
  cargo id fs = []
  := by
  rw [cargo, List.flatten_eq_nil_iff]
  intro p hp
  obtain ⟨f, hf, rfl⟩ := List.mem_map.mp hp
  obtain ⟨hmem, hdata⟩ := List.mem_filter.mp hf
  obtain ⟨hid, hflag⟩ := of_decide_eq_true hdata
  exact hnil f hmem hid hflag

theorem cargo_eq_nil {id : Nat} {fs : List PacketFrame} (hnil : .data ∉ marks id fs) :
  cargo id fs = []
  := by
  apply cargo_eq_nil_of_data
  intro f hf hid hflag
  refine absurd ?_ hnil
  rw [marks, List.mem_map]
  exact ⟨f, by simp [hf, hid, hflag], hflag⟩

theorem cargo_of_ne {id' : Nat} (hne : id' ≠ id) (frames : List PendingFrame) :
  cargo id (frames.map (PendingFrame.packet id')) = []
  := by
  induction frames with
  | nil => rfl
  | cons f frames ih => simp [ih, PendingFrame.packet, hne]

end

/-! ### Rings -/

/-- What has been put on the ring of an open channel has been delivered or is in the ring. -/
def Channel.Tidy (c : Channel) : Prop :=
  c.closed = false → c.lost = 0 → c.pushed = c.delivered ++ c.buffers.flatten

variable {c : Channel}

theorem Channel.Tidy.push (hc : c.Tidy) (p : Bytes) :
  (c.push p).Tidy
  := by
  unfold Channel.push Tidy
  split
  · rename_i bufs hring
    intro hclosed hlost
    have hpushed := hc hclosed hlost
    simp [buffers, hring] at hpushed ⊢
    simp [hpushed]
  · intro hclosed hlost
    exact hc hclosed (by simp only at hlost; omega)

theorem Channel.Tidy.feed (hc : c.Tidy) (p : Bytes) :
  (c.feed p).Tidy
  := by
  have hpush := hc.push p
  unfold Channel.feed
  split
  · exact hc
  · exact hpush

theorem Channel.Tidy.alter {cfg : SessionConfig} {r : Rules} {hand : List PacketFrame}
    {c' : Channel} (hc : c.Tidy) (halter : Alter cfg r hand c c') :
  c'.Tidy
  := by
  cases halter with
  | touch htouch =>
      cases htouch with
      | alike halike =>
          rw [halike]
          exact hc
      | shut | abandon => exact fun hclosed => by contradiction
      | trim _ _ hbufs | eof _ _ hbufs =>
          intro hclosed hlost
          have hpushed := hc hclosed hlost
          rw [hbufs] at hpushed
          exact hpushed
      | _ => exact hc
  | fin now | lateFin now | send now p =>
      simp only [closeFin, Channel.lateFin, finish, send, register]
      split <;> exact hc
  | drain | giveUp => exact fun hclosed => by contradiction
  | retire =>
      unfold retire Tidy
      dsimp only
      split
      · intro hclosed hlost
        simp only [unread, buffers] at hlost
        have hnil : c.buffers.flatten = [] := by
          apply List.eq_nil_of_length_eq_zero
          simp only [buffers]
          omega
        have hpushed := hc hclosed (by omega)
        rw [hnil] at hpushed
        exact hpushed
      · exact hc
  | push f => exact hc.push f.data
  | feed f => exact hc.feed f.data
  | feedEarly p =>
      exact Tidy.feed
        (c := { c with reorderMap := c.reorderMap.map (·.erase c.readOffset) }) hc p
  | take p bufs _ hbufs =>
      intro hclosed hlost
      have hpushed := hc hclosed hlost
      rw [hbufs, ← List.append_assoc] at hpushed
      exact hpushed
  | _ => exact hc

/-- What has been put on the ring of the channel for an identifier. -/
def Session.pushedBy (id : Nat) (s : Session) : Bytes :=
  s.ofAuthor pushed id

/-- No data for an identifier has been dropped before its channel was opened. -/
def Session.Retains (id : Nat) (s : Session) : Prop :=
  ∀ e ∈ s.discarded, e.1 = id → e.2 = 0

/-- The channels for an identifier are open. -/
def Session.Unclosed (id : Nat) (s : Session) : Prop :=
  ∀ h < s.next, (s.heap h).id = id → (s.heap h).closed = false

/-- No data is kept for a channel that is open. -/
def Session.Unstashed (id : Nat) (s : Session) : Prop :=
  ∀ h < s.next, (s.heap h).id = id → (s.heap h).closed = false → .data ∉ marks id (s.stashed id)

namespace Station

variable {cfg : SessionConfig} {r : Rules} {t t' : Station}

/-- The data of a stream that its reader has got and not dealt with. -/
def inbound (id : Nat) (t : Station) : Bytes :=
  cargo id (t.sess.stashed id ++ t.hand)

/-- The data of a stream that its writer has not put on the transport. -/
def outbound (id : Nat) (t : Station) : Bytes :=
  cargo id ((t.out ++ t.batch ++ t.sess.writes).map packet)

/-! ### The reader -/

variable {id : Nat}

/-- The reader puts the data of a stream on the ring in its order, and loses none of it. -/
theorem Move.pushed_inbound (hm : Move cfg r t t')
    (hring : ∀ h < t.sess.next, (t.sess.heap h).RingOk) (hrel : cfg.reliability = false)
    (honce : r.once id) (hsingle : t.sess.Single id) (hretains : t'.sess.Retains id)
    (hunclosed : t'.sess.Unclosed id) (hearly : t.sess.Unstashed id)
    (hdata : ∀ f ∈ t.hand, f.flag = .data → ∀ h < t.sess.next, (t.sess.heap h).id = f.chID →
      (t.sess.heap h).closed = false → (t.sess.heap h).readDone = false) :
  t'.sess.pushedBy id ++ t'.inbound id = t.sess.pushedBy id ++ t.inbound id
  := by
  have hkeep : ∀ {h : Nat} {g : Channel → Channel},
      (g (t.sess.heap h)).pushed = (t.sess.heap h).pushed →
      ∀ k < t.sess.next, (t.sess.heap k).id = id →
        ((t.sess.update h g).heap k).pushed = (t.sess.heap k).pushed :=
    fun hg k _ _ => apply_heap_update pushed hg k
  have hpushed : (∀ k < t.sess.next, (t.sess.heap k).id = id →
      (t'.sess.heap k).pushed = (t.sess.heap k).pushed) → t'.inbound id = t.inbound id →
      t'.sess.pushedBy id ++ t'.inbound id = t.sess.pushedBy id ++ t.inbound id := by
    intro hsame hin
    rw [pushedBy, hm.ofAuthor_eq honce hsingle rfl hsame, hin]
    rfl
  have hsingle' := hm.single honce hsingle
  have hzero : ∀ {n : Nat}, (id, n) ∈ t'.sess.discarded → n = 0 := fun hmem => hretains _ hmem rfl
  have hdrop : ∀ {f : PacketFrame} {rest : List PacketFrame}, t.hand = f :: rest →
      (f.chID = id → f.flag = .data → f.data = []) →
      cargo id (t.sess.stashed id ++ rest) = t.inbound id := by
    intro f rest hhand hnil
    rw [inbound, hhand, cargo_append, cargo_append, cargo_cons]
    split
    · rename_i hf
      rw [hnil hf.1 hf.2, List.nil_append]
    · rw [List.nil_append]
  cases hm with
  | touch h g hh hg => exact hpushed (hkeep hg.keeps.pushed) rfl
  | fin h late | lateFin h late | write h p =>
      refine hpushed (hkeep ?_) rfl
      simp [closeFin, Channel.lateFin, finish, send]
  | drain h => exact hpushed (hkeep (g := fun c => c.shut.drain) rfl) rfl
  | giveUp h => exact hpushed (hkeep (g := fun c => c.abandon.drain) rfl) rfl
  | retire h => exact hpushed (hkeep (g := Channel.retire) (by simp)) rfl
  | idle h | ack h | take h | readyAck f rest h | readyStream f rest h =>
      exact hpushed (hkeep rfl) rfl
  | publish id' =>
      refine hpushed (fun k hk _ => ?_) rfl
      simp [Session.publish, Nat.ne_of_lt hk]
  | unstash id' q hq =>
      refine hpushed (fun _ _ _ => rfl) ?_
      by_cases hid : id' = id
      · subst hid
        simp [inbound, stashed, hq]
      · simp [inbound, stashed, AList.lookup_erase_ne (Ne.symm hid), cargo_of_ne _ hid]
  | expire id' q hq =>
      refine hpushed (fun _ _ _ => rfl) ?_
      by_cases hid : id' = id
      · subst hid
        have hnil : cargo id' (q.frames.map (PendingFrame.packet id')) = [] := by
          apply cargo_eq_nil_of_data
          intro f hf _ _
          obtain ⟨g, hg, rfl⟩ := List.mem_map.mp hf
          apply List.eq_nil_of_length_eq_zero
          apply hzero
          exact List.mem_append_right _ (List.mem_map.mpr ⟨g, hg, rfl⟩)
        simp [inbound, stashed, hq, hnil]
      · simp [inbound, stashed, AList.lookup_erase_ne (Ne.symm hid)]
  | stash f rest hhand hnone early =>
      refine hpushed (fun _ _ _ => rfl) ?_
      by_cases hid : f.chID = id
      · subst hid
        cases hlookup : t.sess.pending.lookup f.chID <;>
          simp [inbound, stashed, keepPending, hlookup, hhand, PendingQueue.new,
            PendingQueue.push, PendingFrame.packet]
      · simp [inbound, stashed, keepPending, AList.lookup_insert_ne (Ne.symm hid),
          hhand, hid]
  | discard f rest hhand hflag =>
      refine hpushed (fun _ _ _ => rfl) (hdrop hhand ?_)
      rintro rfl _
      apply List.eq_nil_of_length_eq_zero
      apply hzero
      simp [noteDiscarded]
  | pass f rest hhand _ hpass =>
      refine hpushed (fun _ _ _ => rfl) (hdrop hhand ?_)
      intro _ hflag
      simpa [hrel, hflag] using hpass
  | refuse f rest h hhand hflag hh hid hrel' hclosed =>
      refine hpushed (hkeep rfl) (hdrop hhand ?_)
      intro hf _
      have hopen := hunclosed h hh (by simpa [Channel.refuse] using hid.trans hf)
      simp [Channel.refuse, hclosed] at hopen
  | push f rest h hhand hflag hh hid hrel' hclosed =>
      by_cases hf : f.chID = id
      · have hidh : (t.sess.heap h).id = id := hid.trans hf
        have hread := hdata f (by simp [hhand]) hflag h hh hid hclosed
        have hpush : (Channel.push f.data (t.sess.heap h)).pushed
            = (t.sess.heap h).pushed ++ f.data := by
          unfold Channel.push
          split
          · rfl
          · rename_i hnone
            rcases (hring h hh).ring hnone with hclosed' | hread'
            · simp [hclosed] at hclosed'
            · simp [hread] at hread'
        have hpushed' := hsingle'.ofAuthor_eq (h := h) hh (by simpa using hidh) pushed
        rw [heap_update_self, hpush] at hpushed'
        rw [pushedBy, hpushed', pushedBy, hsingle.ofAuthor_eq hh hidh]
        have hnil := cargo_eq_nil (hearly h hh hidh hclosed)
        have hstashed : (t.sess.update h (Channel.push f.data)).stashed id
            = t.sess.stashed id := rfl
        simp [inbound, hhand, hf, hflag, hstashed, hnil]
      · refine hpushed (fun k _ hk => ?_) (hdrop hhand fun hf' => absurd hf' hf)
        have hne : k ≠ h := by
          rintro rfl
          exact hf (hid.symm.trans hk)
        rw [heap_update_of_ne hne]
  | remoteFin f rest h hhand hflag | reset f rest h hhand hflag | acked f rest h hhand hflag
  | updStream f rest h hhand hflag =>
      exact hpushed (hkeep rfl) (hdrop hhand fun _ hdata' => by simp [hflag] at hdata')
  | updSession f rest hhand hflag | updLate f rest hhand hflag =>
      exact hpushed (fun _ _ _ => rfl) (hdrop hhand fun _ hdata' => by simp [hflag] at hdata')
  | feed f rest h hhand hflag hh hid hrel' | early f rest h m hhand hflag hh hid hrel'
  | gotFin f rest h hhand hflag hh hid hrel' => simp [hrel] at hrel'
  | feedEarly h p hh hrel' => simp [hrel] at hrel'
  | _ => exact hpushed (fun _ _ _ => rfl) rfl

/-- Data is kept only while there is no channel for it in the table. -/
theorem Move.mem_stashed (hm : Move cfg r t t') (hdata : .data ∈ marks id (t'.sess.stashed id)) :
  .data ∈ marks id (t.sess.stashed id)
    ∨ ∃ f ∈ t.hand, f.flag = .data ∧ f.chID = id ∧ t.sess.channels id = none
  := by
  cases hm with
  | unstash id' q hq | expire id' q hq =>
      by_cases hid : id' = id
      · subst hid
        simp [stashed] at hdata
      · left
        simpa [stashed, AList.lookup_erase_ne (Ne.symm hid)] using hdata
  | stash f rest hhand hnone early =>
      by_cases hid : f.chID = id
      · subst hid
        by_cases hflag : f.flag = .data
        · exact .inr ⟨f, by simp [hhand], hflag, rfl, hnone⟩
        · left
          cases hlookup : t.sess.pending.lookup f.chID with
          | none =>
              simp [stashed, keepPending, hlookup, PendingQueue.new, PendingQueue.push,
                PendingFrame.packet, Ne.symm hflag] at hdata
          | some q =>
              simpa [stashed, keepPending, hlookup, PendingQueue.push, PendingFrame.packet,
                Ne.symm hflag] using hdata
      · left
        simpa [stashed, keepPending, AList.lookup_insert_ne (Ne.symm hid)] using hdata
  | _ => exact .inl hdata

/-- No data comes for a channel that has been taken from the table, so none is kept for it. -/
theorem Move.unstashed (hm : Move cfg r t t') (hshape : t.Shape) (ht : t.sess.Unstashed id)
    (hread : ∀ f ∈ t.hand, f.flag = .data → ∀ h < t.sess.next, (t.sess.heap h).id = f.chID →
      (t.sess.heap h).closed = false → (t.sess.heap h).readDone = false) :
  t'.sess.Unstashed id
  := by
  intro k hk hid hclosed hdata
  by_cases hlt : k < t.sess.next
  · have hclosed' := hm.closed_eq hlt hclosed
    rw [hm.id_eq hlt] at hid
    rcases hm.mem_stashed hdata with hdata | ⟨f, hf, hflag, hidf, hnone⟩
    · exact ht k hlt hid hclosed' hdata
    · have hreading := hread f hf hflag k hlt (hid.trans hidf.symm) hclosed'
      have hdone : (t.sess.heap k).done = false := by
        by_contra hdone
        have hfinal := (hshape.streams k hlt).finalized (by simpa using hdone)
        simp [hreading] at hfinal
      have hlive := hshape.table.live k hlt hdone
      rw [hid, hnone] at hlive
      contradiction
  · rcases hm.next_eq with heq | ⟨id', _, _, hlookup, _, rfl⟩
    · omega
    · obtain rfl : k = t.sess.next := by
        simp only [Session.publish] at hk
        omega
      obtain rfl : id' = id := by simpa [Session.publish] using hid
      simp [stashed, Session.publish, hlookup] at hdata

/-! ### The writer -/

theorem cargo_mergeInto (id : Nat) (out : List WriteFrame) (f : WriteFrame) :
  cargo id ((mergeInto out f).map packet)
    = cargo id (out.map packet) ++ cargo id [f.packet]
  := by
  rcases mergeInto_cases out f with heq | ⟨hf, before, g, after, rfl, hg, -, heq⟩
    | ⟨hf, before, g, after, rfl, hg, -, heq⟩
  · simp [heq]
  · simp [heq, packet, hf, hg]
  · simp [heq, packet, hf, hg]

theorem cargo_mergeUpdate (id : Nat) (out : List WriteFrame) {f : WriteFrame} (hf : f.flag = .upd)
    (delta : Int) :
  cargo id ((mergeUpdate out f delta).map packet) = cargo id (out.map packet)
  := by
  unfold mergeUpdate
  split
  · rfl
  · rw [cargo_mergeInto]
    simp [packet, hf]

theorem outbound_queueFin (cfg : SessionConfig) (late : Bool) (h : Nat) (g : Channel → Channel)
    (id : Nat) :
  outbound id { t with sess := t.sess.queueFin cfg late h g } = t.outbound id
  := by
  cases late <;> simp [outbound, queueFin, packet, finFrame]

/-- Without retransmissions, the writer queues what it writes, once and in its order. -/
theorem Move.sentBy_outbound (hm : Move cfg r t t') (hshape : t.Shape)
    (hunacked : ∀ h < t.sess.next, (t.sess.heap h).unacked = []) (honce : r.once id)
    (hsingle : t.sess.Single id) :
  ∃ p, (t'.sess.sentBy id).flatten = (t.sess.sentBy id).flatten ++ p
    ∧ t'.outbound id = t.outbound id ++ p
  := by
  have hsingle' := hm.single honce hsingle
  have hkeep : ∀ {h : Nat} {g : Channel → Channel},
      (g (t.sess.heap h)).sent = (t.sess.heap h).sent →
      ∀ k < t.sess.next, (t.sess.heap k).id = id →
        ((t.sess.update h g).heap k).sent = (t.sess.heap k).sent :=
    fun hg k _ _ => apply_heap_update Channel.sent hg k
  have hsent : (∀ k < t.sess.next, (t.sess.heap k).id = id →
      (t'.sess.heap k).sent = (t.sess.heap k).sent) → t'.outbound id = t.outbound id →
      ∃ p, (t'.sess.sentBy id).flatten = (t.sess.sentBy id).flatten ++ p
        ∧ t'.outbound id = t.outbound id ++ p := by
    intro hsame hout
    use []
    rw [sentBy, hm.ofAuthor_eq honce hsingle rfl hsame, hout, List.append_nil,
      List.append_nil]
    exact ⟨rfl, rfl⟩
  cases hm with
  | touch h g hh hg => exact hsent (hkeep hg.keeps.sent) rfl
  | fin h late | lateFin h late =>
      refine hsent (hkeep ?_) (outbound_queueFin cfg late h _ id)
      simp [closeFin, Channel.lateFin, finish]
  | lateWrite i f hf =>
      obtain ⟨id', offset, rfl⟩ := hshape.queue.late f (List.mem_of_getElem? hf)
      refine hsent (fun _ _ _ => rfl) ?_
      simp [outbound, packet, finFrame]
  | resend h u hh hu =>
      rw [hunacked h hh] at hu
      contradiction
  | write h p hh =>
      have hself : ((t.sess.spend cfg h p).heap h).sent = (t.sess.heap h).sent ++ [p] := by
        simp [spend, send]
      by_cases heq : (t.sess.heap h).id = id
      · have hid : ((t.sess.spend cfg h p).heap h).id = id := by
          simpa [spend, send] using heq
        use p
        rw [hsingle'.sentBy_eq hh hid, hself, hsingle.sentBy_eq hh heq, List.flatten_append]
        constructor
        · simp
        · simp [outbound, spend, packet, dataFrame, heq, payload]
      · refine hsent (fun k _ hk => ?_) ?_
        · have hne : k ≠ h := by
            rintro rfl
            exact heq hk
          exact congrArg Channel.sent (heap_update_of_ne hne _ _)
        · simp [outbound, spend, packet, dataFrame, heq]
  | drain h => exact hsent (hkeep (g := fun c => c.shut.drain) rfl) rfl
  | giveUp h => exact hsent (hkeep (g := fun c => c.abandon.drain) rfl) rfl
  | retire h => exact hsent (hkeep (g := Channel.retire) (by simp)) rfl
  | push f rest h => exact hsent (hkeep (g := Channel.push _) (by simp)) rfl
  | feed f rest h => exact hsent (hkeep (g := Channel.feed _) (by simp)) rfl
  | feedEarly h p => exact hsent (hkeep (by simp [Channel.feedEarly])) rfl
  | refuse f rest h | remoteFin f rest h | early f rest h | gotFin f rest h | reset f rest h | ack h
  | acked f rest h | idle h | updStream f rest h | take h => exact hsent (hkeep rfl) rfl
  | publish id' =>
      refine hsent (fun k hk _ => ?_) rfl
      simp [Session.publish, Nat.ne_of_lt hk]
  | collectCtrl f q hq =>
      refine hsent (fun _ _ _ => rfl) ?_
      have hflag : f.flag ≠ .data ∧ f.flag ≠ .fin :=
        flag_control (hshape.queue.ctrl f (by simp [hq]))
      simp [outbound, packet, hflag]
  | collectData f q hq =>
      refine hsent (fun _ _ _ => rfl) ?_
      simp [outbound, hq]
  | ready f rest hbatch =>
      refine hsent (fun _ _ _ => rfl) ?_
      simp [outbound, hbatch, cargo_mergeInto]
  | readyAck f rest h hbatch hack =>
      obtain ⟨-, rfl⟩ := ack_of_batch hshape.queue hbatch hack
      refine hsent (hkeep rfl) ?_
      simp [outbound, hbatch, cargo_mergeInto, packet, update]
  | readyStream f rest h hbatch hack hstream =>
      obtain ⟨-, rfl⟩ := upd_of_batch hshape.queue hbatch hstream
      refine hsent (hkeep rfl) ?_
      simp [outbound, hbatch, cargo_mergeUpdate, packet, update]
  | readySession f rest hbatch hack hstream hsession =>
      obtain rfl := session_of_batch hshape.queue hbatch hsession
      refine hsent (fun _ _ _ => rfl) ?_
      simp [outbound, hbatch, cargo_mergeUpdate, packet]
  | _ => exact hsent (fun _ _ _ => rfl) rfl

/-- What has been dropped stays on record. -/
theorem Move.retains (hm : Move cfg r t t') (hretains : t'.sess.Retains id) :
  t.sess.Retains id
  := by
  cases hm with
  | expire id' q hq | discard f rest hhand =>
      exact fun e he => hretains e (List.mem_append_left _ he)
  | _ => exact hretains

theorem Move.unclosed (hm : Move cfg r t t') (hunclosed : t'.sess.Unclosed id) :
  t.sess.Unclosed id
  := by
  intro h hh hid
  apply hm.closed_eq hh
  apply hunclosed h (lt_of_lt_of_le hh hm.closed_next.2)
  rw [hm.id_eq hh, hid]

end Station

namespace Net

variable {cfg : Side → SessionConfig} {terms : Terms} {n n' : Net}

/-! ### Two sessions -/

/-- The data that the side `d` writes for an identifier is put on the ring of the other side,
kept there, in flight or queued, unless some of it has been dropped or its channel has been
closed. -/
structure Conveys (d : Side) (id : Nat) (n : Net) : Prop where
  kept : (n.st d.other).sess.Retains id → (n.st d.other).sess.Unclosed id →
    (n.st d.other).sess.pushedBy id ++ (n.st d.other).inbound id ++ cargo id (n.link d)
        ++ (n.st d).outbound id
      = ((n.st d).sess.sentBy id).flatten
  unstashed : (n.st d.other).sess.Unstashed id

variable {d : Side} {id : Nat}

/-- A move of the writer. -/
theorem Conveys.write (hn : n.Conveys d id) (hshape : n.Shape)
    (hunacked : ∀ h < (n.st d).sess.next, ((n.st d).sess.heap h).unacked = [])
    (honce : (terms.rules d).once id) (hsingle : (n.st d).sess.Single id) {t : Station}
    (hmove : Station.Move (cfg d) (terms.rules d) (n.st d) t) :
  (n.put d t).Conveys d id
  := by
  have hother : (n.put d t).st d.other = n.st d.other := st_put_of_ne (Side.other_ne d) t n
  obtain ⟨p, hsent, hout⟩ := hmove.sentBy_outbound (hshape.st d) hunacked honce hsingle
  constructor
  · rw [hother, st_put]
    intro hretains hunclosed
    rw [hsent, hout, ← List.append_assoc, ← hn.kept hretains hunclosed]
    rfl
  · rw [hother]
    exact hn.unstashed

/-- A move of the reader. -/
theorem Conveys.read (hn : n.Conveys d id) (hshape : n.Shape) (horderly : ∀ id, n.Orderly d id)
    (honce : (terms.rules d.other).once id) (hrel : (cfg d.other).reliability = false)
    (hsingle : (n.st d.other).sess.Single id) {t : Station}
    (hmove : Station.Move (cfg d.other) (terms.rules d.other) (n.st d.other) t) :
  (n.put d.other t).Conveys d id
  := by
  have hother : (n.put d.other t).st d = n.st d := st_put_of_ne (Side.ne_other d) t n
  have hread : ∀ f ∈ (n.st d.other).hand, f.flag = .data → ∀ h < (n.st d.other).sess.next,
      ((n.st d.other).sess.heap h).id = f.chID → ((n.st d.other).sess.heap h).closed = false →
      ((n.st d.other).sess.heap h).readDone = false :=
    fun f hf hflag h hh hid hclosed => (horderly f.chID).readDone_eq hf hflag hh hid hclosed
  constructor
  · rw [st_put, hother]
    intro hretains hunclosed
    rw [hmove.pushed_inbound (hshape.st d.other).ring hrel honce hsingle hretains hunclosed
      hn.unstashed hread]
    exact hn.kept (hmove.retains hretains) (hmove.unclosed hunclosed)
  · rw [st_put]
    exact hmove.unstashed (hshape.st d.other) hn.unstashed hread

/-- Frames that go from one place to the next take the data with them. -/
theorem Conveys.of_sess (hn : n.Conveys d id) (hsess : ∀ e, (n'.st e).sess = (n.st e).sess)
    (hcargo : (n'.st d.other).inbound id ++ cargo id (n'.link d) ++ (n'.st d).outbound id
      = (n.st d.other).inbound id ++ cargo id (n.link d) ++ (n.st d).outbound id) :
  n'.Conveys d id
  := by
  obtain ⟨hkept, hunstashed⟩ := hn
  constructor
  · rw [hsess, hsess]
    intro hretains hunclosed
    have hkept := hkept hretains hunclosed
    simp only [List.append_assoc] at hcargo hkept ⊢
    rw [hcargo]
    exact hkept
  · rwa [hsess]

/-- Steps over an ordered transport convey the data of a stream. -/
theorem Step.conveys (hstep : Step cfg terms n n') (hshape : n.Shape) (hordered : terms.ordered)
    (honce : ∀ d, (terms.rules d).once id) (hrel : ∀ d, (cfg d).reliability = false)
    (hn : n.Lossless cfg) (hconveys : n.Conveys d id) :
  n'.Conveys d id
  := by
  cases hstep with
  | move e t hmove =>
      rcases eq_or_other d e with rfl | rfl
      · exact hconveys.write hshape (hn.unacked _) (honce _) (hn.orderly _ id).single hmove
      · exact hconveys.read hshape (hn.orderly d) (honce _) (hrel _) (hn.orderly _ id).single hmove
  | send e =>
      apply hconveys.of_sess
      · exact sess_put (e := e) (t := { n.st e with out := [] }) rfl
      · rcases eq_or_other d e with rfl | rfl
        · simp [put, Station.outbound, Side.other_ne]
        · simp [put, Side.ne_other, Station.inbound]
  | grab e i f hf hhand hzero =>
      apply hconveys.of_sess
      · exact sess_put (e := e) (t := { n.st e with hand := [f] }) rfl
      · rcases eq_or_other d e with rfl | rfl
        · simp [put, Station.outbound, Side.other_ne, Side.ne_other]
        · obtain rfl := hzero hordered
          rw [Side.other_other] at hf
          obtain ⟨fs, hlink⟩ := List.head?_eq_some_iff.mp (List.head?_eq_getElem?.trans hf)
          simp [put, Station.inbound, Side.ne_other, hhand, hlink]
  | lose e i f hf hnot | dup e i f hf hnot => contradiction

theorem conveys_init (cfg : Side → SessionConfig) (now : Side → Int) (d : Side) (id : Nat) :
  (ofWorld (World.init cfg now)).Conveys d id
  := by
  have hnone : ∀ e, ∀ h < ((ofWorld (World.init cfg now)).st e).sess.next,
      (((ofWorld (World.init cfg now)).st e).sess.heap h).id ≠ id := by
    intro e h hh
    simp at hh
  constructor
  · intro _ _
    rw [pushedBy, ofAuthor_eq_nil (hnone _), sentBy,
      ofAuthor_eq_nil (hnone _)]
    simp [Station.inbound, Station.outbound, stashed]
  · intro h hh
    simp at hh

/-- Two sessions without retransmissions that convey their streams, and whose rings are in
order. -/
structure Faithful (cfg : Side → SessionConfig) (n : Net) : Prop extends Lossless cfg n where
  conveys : ∀ d id, n.Conveys d id
  tidy : ∀ d, ∀ h < (n.st d).sess.next, ((n.st d).sess.heap h).Tidy

theorem Step.tidy (hstep : Step cfg terms n n')
    (hn : ∀ h < (n.st d).sess.next, ((n.st d).sess.heap h).Tidy) :
  ∀ h < (n'.st d).sess.next, ((n'.st d).sess.heap h).Tidy
  := by
  intro h hh
  rcases hstep.sess_or_move d with hsame | hmove
  · rw [hsame] at hh ⊢
    exact hn h hh
  · by_cases hlt : h < (n.st d).sess.next
    · rcases hmove.alter hlt with hsame | halter
      · rw [hsame]
        exact hn h hlt
      · exact (hn h hlt).alter halter
    · rw [hmove.heap_new hh hlt]
      exact fun _ _ => rfl

theorem Step.faithful (hstep : Step cfg terms n n') (hshape : n.Shape) (hordered : terms.ordered)
    (honce : ∀ d id, (terms.rules d).once id) (hrel : ∀ d, (cfg d).reliability = false)
    (hn : n.Faithful cfg) :
  n'.Faithful cfg
  where
  toLossless := hstep.lossless hshape hordered honce hrel hn.toLossless
  conveys d id :=
    hstep.conveys hshape hordered (fun d => honce d id) hrel hn.toLossless (hn.conveys d id)
  tidy d := hstep.tidy (hn.tidy d)

theorem faithful_init (cfg : Side → SessionConfig) (now : Side → Int) :
  (ofWorld (World.init cfg now)).Faithful cfg
  where
  toLossless := lossless_init cfg now
  conveys := conveys_init cfg now
  tidy d h hh := by
    simp at hh

/-- What the reader of a channel has got is the beginning of the stream that its peer has
written, and all of it when the reader has seen the end of the stream. -/
theorem Faithful.delivered (hn : n.Faithful cfg) {k : Nat} (hk : k < (n.st d.other).sess.next)
    (hclosed : ((n.st d.other).sess.heap k).closed = false)
    (hretains : (n.st d.other).sess.Retains ((n.st d.other).sess.heap k).id) :
  ∃ rest, ((n.st d).sess.sentBy ((n.st d.other).sess.heap k).id).flatten
      = ((n.st d.other).sess.heap k).delivered
        ++ ((n.st d.other).sess.heap k).buffers.flatten ++ rest
    ∧ (((n.st d.other).sess.heap k).readDone = true →
      rest = [] ∧ (n.st d).sess.Ended ((n.st d.other).sess.heap k).id)
  := by
  generalize hid : ((n.st d.other).sess.heap k).id = id at *
  have hsingle := (hn.orderly d.other id).single
  have hunclosed : (n.st d.other).sess.Unclosed id := by
    intro h hh hidh
    rw [hsingle h hh k hk hidh hid, hclosed]
  have hkept := (hn.conveys d id).kept hretains hunclosed
  rw [pushedBy, hsingle.ofAuthor_eq hk hid,
    hn.tidy d.other k hk hclosed (hn.lost d.other k hk)] at hkept
  refine ⟨_, by rw [← hkept, List.append_assoc _ _ ((n.st d).outbound id),
    List.append_assoc _ ((n.st d.other).inbound id)], ?_⟩
  intro hread
  obtain ⟨hended, hdata⟩ := (hn.orderly d id).seen k hk hid hread hclosed
  have hstashed := cargo_eq_nil ((hn.conveys d id).unstashed k hk hid hclosed)
  simp only [coming, List.mem_append, not_or] at hdata
  have hhand := cargo_eq_nil hdata.1.1
  have hlink := cargo_eq_nil hdata.1.2
  have hout : (n.st d).outbound id = [] := cargo_eq_nil hdata.2
  simp [Station.inbound, hstashed, hhand, hlink, hout, hended]

end Net

end Muxocket
