import Muxocket.Accounts

/-!
# Accounts of data

Without retransmissions a byte that has been written is in one place until it is consumed: in
a queue of its writer, in flight, among the early frames or in the ring of its reader.  The
accounts of the two sides say how many bytes are where, and every move keeps them.
-/

namespace Muxocket

open WriteFrame
open Session (keepPending spend total update)
open Channel (buffers closeFin finish send unread)

/-- The number of early bytes kept for the identifiers `K` selects. -/
def Session.stash (K : Nat → Bool) (s : Session) : Int :=
  (s.pending.entries.map fun e => if K e.1 then (e.2.bytes : Int) else 0).sum

/-- The bytes that have been put in a channel. -/
def Channel.got (c : Channel) : Int :=
  c.unread + c.delivered.length + c.dropped + c.lost

namespace Station

/-- The bytes written for the identifiers `K` selects that have left the queues of the
writer. -/
def sent (K : Nat → Bool) (t : Station) : Int :=
  t.sess.total K (fun c => c.writeOffset)
    - pay K ((t.out ++ t.batch ++ t.sess.writes).map packet)

/-- The bytes of the identifiers `K` selects that have arrived. -/
def got (K : Nat → Bool) (t : Station) : Int :=
  pay K t.hand + t.sess.stash K + t.sess.total K Channel.got + t.sess.discards K

variable {cfg : SessionConfig} {r : Rules} {t t' : Station}

/-! ### What is sent -/

variable {f : WriteFrame} {K : Nat → Bool} {c : Channel}

theorem payload_control {s : Session} (hf : f.Control s) :
  f.packet.data = []
  := by
  have hpBuf := (ready_control hf).2
  simp [packet, payload, hpBuf]

theorem pay_mergeInto {out : List WriteFrame} (hout : ∀ g ∈ out, g.Ready)
    (hf : f.flag = .ack ∨ f.flag = .upd → f.packet.data = []) :
  pay K ((mergeInto out f).map packet)
    = pay K (out.map packet) + pay K [f.packet]
  := by
  rcases mergeInto_cases out f with heq | ⟨hack, before, g, after, rfl, hg, -, heq⟩
    | ⟨hupd, before, g, after, rfl, hg, hid, heq⟩
  · rw [heq]
    simp
  · have hpBuf : g.pBuf = none := by
      simpa [WriteFrame.Ready, hg] using hout g (by simp)
    rw [heq]
    simp [packet, payload, hpBuf] at hf ⊢
    simp [hf (.inl hack)]
  · have hpBuf : g.pBuf = none := by
      simpa [WriteFrame.Ready, hg] using hout g (by simp)
    rw [heq]
    simp [packet, payload, hpBuf] at hf ⊢
    simp [hf (.inr hupd)]

theorem pay_mergeUpdate {out : List WriteFrame} (delta : Int) (hout : ∀ g ∈ out, g.Ready)
    (hf : f.pBuf = none) :
  pay K ((mergeUpdate out f delta).map packet) = pay K (out.map packet)
  := by
  unfold mergeUpdate
  split
  · rfl
  · have hnil : ({ f with length := delta.toNat } : WriteFrame).packet.data = [] := by
      simp [packet, payload, hf]
    rw [pay_mergeInto hout (fun _ => hnil)]
    simp [hnil]

theorem sent_update {h : Nat} (hheap : t'.sess.heap = Function.update t.sess.heap h c)
    (hnext : t'.sess.next = t.sess.next) (hid : c.id = (t.sess.heap h).id)
    (hoffset : c.writeOffset = (t.sess.heap h).writeOffset)
    (hpay : pay K ((t'.out ++ t'.batch ++ t'.sess.writes).map packet)
      = pay K ((t.out ++ t.batch ++ t.sess.writes).map packet)) :
  t'.sent K = t.sent K
  := by
  unfold sent total
  rw [hheap, hnext, hpay]
  congr 1
  apply sumOver_update_of_eq hid
  intro _
  rw [hoffset]

theorem pay_fin (K : Nat → Bool) (ws : List WriteFrame) (id offset : Nat) (late : Bool) :
  pay K ((if late then ws else ws ++ [finFrame id offset]).map packet)
    = pay K (ws.map packet)
  := by
  split <;> simp [packet]

/-- Without retransmissions, moves keep the account of what is sent. -/
theorem Move.sent_eq (hm : Move cfg r t t') (K : Nat → Bool) (hshape : t.Shape)
    (hunacked : ∀ h < t.sess.next, (t.sess.heap h).unacked = []) :
  t'.sent K = t.sent K
  := by
  cases hm with
  | touch h f hh hf =>
      exact sent_update (h := h) rfl rfl hf.keeps.id hf.keeps.writeOffset rfl
  | fin h late | lateFin h late =>
      refine sent_update (h := h) rfl rfl ?_ ?_ ?_
      · simp [closeFin, Channel.lateFin, finish]
      · simp [closeFin, Channel.lateFin, finish]
      · simp only [List.map_append, pay_append, Session.queueFin, pay_fin]
  | retire h | push f rest h | feed f rest h | feedEarly h p =>
      refine sent_update (h := h) rfl rfl ?_ ?_ rfl <;> simp [Channel.feedEarly]
  | drain h | giveUp h | refuse f rest h | remoteFin f rest h | early f rest h | gotFin f rest h
  | reset f rest h
  | ack h | acked f rest h | idle h | updStream f rest h | take h =>
      exact sent_update (h := h) rfl rfl rfl rfl rfl
  | lateWrite i f hf =>
      obtain ⟨id, offset, rfl⟩ := hshape.queue.late f (List.mem_of_getElem? hf)
      simp [sent, total, packet]
  | resend h u hh hu =>
      rw [hunacked h hh] at hu
      contradiction
  | publish id' =>
      simp only [sent, total, Session.publish]
      rw [sumOver_succ]
      simp
  | write h p hh =>
      simp only [sent, total, spend, update]
      rw [sumOver_update hh (by simp [send])]
      simp only [send, List.map_append, pay_append, List.map_cons, List.map_nil, pay_cons,
        pay_nil, packet, payload_dataFrame]
      by_cases hK : K (t.sess.heap h).id = true
      · simp only [dataFrame, hK, if_true]
        push_cast
        omega
      · simp only [dataFrame, hK]
        simp
  | collectCtrl f q hq =>
      have hzero := payload_control (hshape.queue.ctrl f (by simp [hq]))
      simp [sent, hzero, total]
  | collectData f q hq =>
      simp only [sent, total, hq, List.map_append, List.map_cons, List.map_nil, pay_append,
        pay_cons, pay_nil]
      omega
  | ready f rest hbatch hack hstream hsession =>
      have hflag := plain_of_batch hshape.queue hbatch hack hstream hsession
      simp only [sent, hbatch, List.map_append, pay_append, List.map_cons]
      rw [pay_mergeInto hshape.queue.out (by simp [hflag])]
      simp only [pay_cons, pay_nil]
      omega
  | readyAck f rest h hbatch hack =>
      obtain ⟨hh, rfl⟩ := ack_of_batch hshape.queue hbatch hack
      refine sent_update (h := h) rfl rfl rfl rfl ?_
      simp only [hbatch, List.map_append, pay_append, List.map_cons]
      rw [pay_mergeInto hshape.queue.out (by simp [packet, payload])]
      simp [packet, payload]
      rfl
  | readyStream f rest h hbatch hack hstream =>
      obtain ⟨hh, rfl⟩ := upd_of_batch hshape.queue hbatch hstream
      refine sent_update (h := h) rfl rfl rfl rfl ?_
      simp only [hbatch, List.map_append, pay_append, List.map_cons]
      rw [pay_mergeUpdate _ hshape.queue.out rfl]
      simp [packet, payload]
      rfl
  | readySession f rest hbatch hack hstream hsession =>
      obtain rfl := session_of_batch hshape.queue hbatch hsession
      simp only [sent, hbatch, List.map_append, pay_append, List.map_cons]
      rw [pay_mergeUpdate _ hshape.queue.out rfl]
      simp [packet, payload]
      rfl
  | _ => rfl

/-! ### What has arrived -/

theorem unread_touch {c' : Channel} (htouch : Touch cfg r c c') :
  c'.unread = c.unread ∧ c'.lost = c.lost
  := by
  cases htouch with
  | alike halike =>
      rw [halike]
      exact ⟨rfl, rfl⟩
  | @trim bufs _ hsome hbufs | eof _ hread hbufs =>
      refine ⟨?_, rfl⟩
      simp only [unread]
      rw [hbufs]
      rfl
  | _ => exact ⟨rfl, rfl⟩

theorem got_touch {c' : Channel} (htouch : Touch cfg r c c') :
  c'.got = c.got
  := by
  obtain ⟨hunread, hlost⟩ := unread_touch htouch
  rw [Channel.got, hunread, hlost, htouch.keeps.delivered, htouch.keeps.dropped]
  rfl

theorem got_push (p : Bytes) (c : Channel) :
  (c.push p).got = c.got + p.length
  := by
  unfold Channel.push
  split
  · rename_i bufs hring
    simp only [Channel.got, unread, buffers, hring, Option.getD_some,
      List.flatten_append, List.flatten_cons, List.flatten_nil, List.append_nil, List.length_append]
    push_cast
    omega
  · rename_i hring
    simp only [Channel.got, unread, buffers, hring]
    push_cast
    omega

theorem got_register (u : UnackedFrame) (c : Channel) :
  (c.register cfg u).got = c.got
  := by
  rw [Channel.register_eq]
  rfl

theorem got_retire (c : Channel) :
  c.retire.got = c.got
  := by
  unfold Channel.retire
  dsimp only
  split
  · simp only [Channel.got, unread, buffers, Option.getD_none, List.flatten_nil,
      List.length_nil]
    push_cast
    omega
  · rfl

theorem pay_early (K : Nat → Bool) (id : Nat) (frames : List PendingFrame) :
  pay K (frames.map (PendingFrame.packet id)) = if K id then (pendingLength frames : Int) else 0
  := by
  induction frames with
  | nil => simp [pendingLength]
  | cons f frames ih =>
      rw [List.map_cons, pay_cons, ih]
      by_cases hK : K id = true
      · simp [PendingFrame.packet, pendingLength, hK]
      · simp [PendingFrame.packet, hK]

theorem stash_keepPending (K : Nat → Bool) (id : Nat) (f : PendingFrame) (s : Session) :
  (s.keepPending cfg id f).stash K = s.stash K + if K id then (f.data.length : Int) else 0
  := by
  simp only [Session.stash, keepPending, sum_insert_entries]
  cases hq : s.pending.lookup id with
  | some q =>
      have hsum := sum_erase_entries (fun e : Sigma fun _ : Nat => PendingQueue =>
        if K e.1 then (e.2.bytes : Int) else 0) hq
      rw [← hsum]
      simp only [Option.getD_some, PendingQueue.push]
      split <;> push_cast <;> omega
  | none =>
      rw [erase_of_lookup hq]
      simp only [Option.getD_none, PendingQueue.push, PendingQueue.new]
      split <;> simp [add_comm]

theorem got_update {h : Nat} (hh : h < t.sess.next)
    (hheap : t'.sess.heap = Function.update t.sess.heap h c) (hnext : t'.sess.next = t.sess.next)
    (hid : c.id = (t.sess.heap h).id) (hpending : t'.sess.pending = t.sess.pending)
    (hdiscarded : t'.sess.discarded = t.sess.discarded)
    (hgot : pay K t'.hand + (if K (t.sess.heap h).id then c.got - (t.sess.heap h).got else 0)
      = pay K t.hand) :
  t'.got K = t.got K
  := by
  unfold got total Session.stash Session.discards
  rw [hheap, hnext, hpending, hdiscarded, sumOver_update hh hid]
  omega

/-- Without retransmissions, moves keep the account of what has arrived. -/
theorem Move.got_eq (hm : Move cfg r t t') (K : Nat → Bool) (hshape : t.Shape)
    (hrel : cfg.reliability = false) :
  t'.got K = t.got K
  := by
  have hempty : ∀ {f : PacketFrame} {rest : List PacketFrame}, t.hand = f :: rest → f.flag ≠ .data →
      pay K rest = pay K t.hand := by
    intro f rest hhand hflag
    have hdata : f.data = [] := by
      simpa [PacketFrame.Sound, hflag] using hshape.queue.hand f (by simp [hhand])
    simp [hhand, hdata]
  have hpop : ∀ {f : PacketFrame} {rest : List PacketFrame} {h : Nat}, t.hand = f :: rest →
      (t.sess.heap h).id = f.chID →
      pay K rest + (if K (t.sess.heap h).id then (f.data.length : Int) else 0) = pay K t.hand := by
    intro f rest h hhand hid
    rw [hhand, pay_cons, hid]
    omega
  cases hm with
  | touch h f hh hf =>
      refine got_update hh rfl rfl hf.keeps.id rfl rfl ?_
      simp [got_touch hf]
  | fin h late hh =>
      refine got_update hh rfl rfl (by simp [closeFin, finish]) rfl rfl ?_
      have hsame : (closeFin cfg t.sess.now (t.sess.heap h)).got = (t.sess.heap h).got :=
        got_register _ _
      simp [hsame]
  | lateFin h late hh =>
      refine got_update hh rfl rfl (by simp [Channel.lateFin, finish]) rfl rfl ?_
      have hsame : (Channel.lateFin cfg t.sess.now (t.sess.heap h)).got = (t.sess.heap h).got :=
        got_register _ _
      simp [hsame]
  | write h p hh =>
      refine got_update hh rfl rfl (by simp [send]) rfl rfl ?_
      have hsame : (send cfg t.sess.now p (t.sess.heap h)).got = (t.sess.heap h).got :=
        got_register _ _
      simp [hsame]
  | retire h hh =>
      refine got_update hh rfl rfl (by simp) rfl rfl ?_
      simp [got_retire]
  | drain h hh | giveUp h hh =>
      refine got_update hh rfl rfl rfl rfl rfl ?_
      simp [Channel.got, Channel.drain, Channel.shut, Channel.abandon, unread,
        buffers]
      intro _
      omega
  | take h p bufs hh _ hbufs =>
      refine got_update hh rfl rfl rfl rfl rfl ?_
      have hread : (t.sess.heap h).unread = p.length + bufs.flatten.length := by
        rw [unread, hbufs, List.length_append]
      have hgot : (Channel.take p bufs (t.sess.heap h)).got = (t.sess.heap h).got := by
        simp only [Channel.got, hread]
        simp only [Channel.take, unread, buffers, Option.getD_some,
          List.length_append]
        push_cast
        omega
      simp [hgot]
  | push f rest h hhand hflag hh hid =>
      refine got_update hh rfl rfl (by simp) rfl rfl ?_
      rw [← hpop hhand hid, got_push]
      simp
  | refuse f rest h hhand hflag hh hid =>
      refine got_update hh rfl rfl rfl rfl rfl ?_
      rw [← hpop hhand hid]
      simp [Channel.got, Channel.refuse, unread, buffers]
  | feed f rest h hhand hflag hh hid hrel' | feedEarly h p hh hrel'
  | early f rest h m hhand hflag hh hid hrel' | gotFin f rest h hhand hflag hh hid hrel' =>
      simp [hrel] at hrel'
  | ack h hh | idle h hh =>
      refine got_update hh rfl rfl rfl rfl rfl ?_
      simp [Channel.got, Channel.ack, Channel.idle, unread, buffers]
  | remoteFin f rest h hhand hflag hh | reset f rest h hhand hflag hh
  | acked f rest h hhand hflag hh | updStream f rest h hhand hflag hh =>
      refine got_update hh rfl rfl rfl rfl rfl ?_
      rw [← hempty hhand (by simp [hflag])]
      simp [Channel.got, Channel.remoteFin, Channel.reset, Channel.acked, Channel.credit,
        unread, buffers]
  | unstash id q hq | expire id q hq =>
      have hsum := sum_erase_entries (fun e : Sigma fun _ : Nat => PendingQueue =>
        if K e.1 then (e.2.bytes : Int) else 0) hq
      dsimp only at hsum
      simp only [got, total, Session.stash, Session.discards, pay_append, pay_early,
        List.map_append, List.sum_append, sum_early]
      rw [← hsum, ← q.bytes_eq]
      omega
  | stash f rest hhand hnone early =>
      simp only [got, stash_keepPending, hhand, pay_cons]
      simp only [total, Session.discards, keepPending]
      omega
  | discard f rest hhand hflag =>
      simp only [got, total, Session.stash, Session.discards, Session.noteDiscarded, hhand,
        pay_cons, List.map_append, List.map_cons, List.map_nil, List.sum_append, List.sum_cons,
        List.sum_nil]
      omega
  | pass f rest hhand hflag hpass =>
      have hrest : pay K rest = pay K t.hand := by
        rcases hpass with hrel' | hflag' | hdata
        · simp [hrel] at hrel'
        · apply hempty hhand hflag'
        · simp [hhand, hdata]
      simp only [got, hrest]
  | updSession f rest hhand hflag =>
      simp only [got, hempty hhand (by simp [hflag])]
      rfl
  | updLate f rest hhand hflag => simp only [got, hempty hhand (by simp [hflag])]
  | publish id' =>
      simp only [got, total, Session.publish]
      rw [sumOver_succ]
      simp [Channel.got, unread, buffers, Session.stash, Session.discards]
  | readyAck f rest h hbatch hack =>
      obtain ⟨hh, -⟩ := ack_of_batch hshape.queue hbatch hack
      refine got_update hh rfl rfl rfl rfl rfl ?_
      simp [Channel.got, Channel.ackSent, unread, buffers]
  | readyStream f rest h hbatch hack hstream =>
      obtain ⟨hh, -⟩ := upd_of_batch hshape.queue hbatch hstream
      refine got_update hh rfl rfl rfl rfl rfl ?_
      simp [Channel.got, Channel.updSent, unread, buffers]
  | _ => rfl

/-- The number of early bytes a session counts is that of the early frames it keeps. -/
theorem Move.pendingBytes_eq (hm : Move cfg r t t')
    (ht : t.sess.pendingBytes = t.sess.stash fun _ => true) :
  t'.sess.pendingBytes = t'.sess.stash fun _ => true
  := by
  cases hm with
  | unstash id q hq | expire id q hq =>
      have hsum := sum_erase_entries (fun e : Sigma fun _ : Nat => PendingQueue =>
        if (fun _ => true) e.1 then (e.2.bytes : Int) else 0) hq
      simp only [Session.stash, if_true] at ht hsum ⊢
      omega
  | stash f rest hhand hnone early =>
      rw [stash_keepPending, ← ht]
      simp [keepPending]
  | _ => apply ht

/-- Without retransmissions, no frame is kept to be sent again. -/
theorem Move.unacked_nil (hm : Move cfg r t t') (hrel : cfg.reliability = false)
    (ht : ∀ h < t.sess.next, (t.sess.heap h).unacked = []) :
  ∀ h < t'.sess.next, (t'.sess.heap h).unacked = []
  := by
  apply hm.forall_channel (P := fun c => c.unacked = []) (fun _ _ => rfl) _ ht
  intro c c' hc halter
  cases halter with
  | touch htouch =>
      cases htouch with
      | alike halike =>
          rw [halike]
          apply hc
      | @retime us hus => simpa [hc] using hus
      | _ => apply hc
  | fin now | lateFin now | send now p =>
      simpa [closeFin, Channel.lateFin, finish, send, Channel.register, hrel]
        using hc
  | retire =>
      simp only [Channel.retire]
      split <;> rfl
  | push f =>
      unfold Channel.push
      split <;> apply hc
  | feed f hf hflag hid hrel' | feedEarly p hrel' => simp [hrel] at hrel'
  | acked f => simp [Channel.acked, hc]
  | _ => apply hc

end Station

end Muxocket
