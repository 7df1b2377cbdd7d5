import Muxocket.Ledger

/-!
# The end of a stream comes last

Without retransmissions, and over an ordered transport, the end of a stream reaches its reader
after all of its data.  So no data comes to a channel whose reader has seen the end of the
stream, and no byte is lost between the rings.
-/

namespace Muxocket

open Session WriteFrame
open Channel (buffers closeFin finish register send unread)

/-- The frames of a stream in a list of frames: what is data, and what its end. -/
def marks (id : Nat) (fs : List PacketFrame) : List Flag :=
  (fs.filter fun f => decide (f.chID = id ∧ (f.flag = .data ∨ f.flag = .fin))).map (·.flag)

section

variable (id : Nat) (f : PacketFrame) (fs fs' : List PacketFrame)

@[simp]
theorem marks_nil :
  marks id [] = []
  := rfl

@[simp]
theorem marks_cons :
  marks id (f :: fs)
    = (if f.chID = id ∧ (f.flag = .data ∨ f.flag = .fin) then [f.flag] else []) ++ marks id fs
  := by
  by_cases h : f.chID = id ∧ (f.flag = .data ∨ f.flag = .fin) <;> simp [marks, h]

@[simp]
theorem marks_append :
  marks id (fs ++ fs') = marks id fs ++ marks id fs'
  := by
  simp [marks]

theorem marks_of_ne {id' : Nat} (hne : id' ≠ id) (frames : List PendingFrame) :
  marks id (frames.map (PendingFrame.packet id')) = []
  := by
  induction frames with
  | nil => rfl
  | cons f frames ih => simp [ih, PendingFrame.packet, hne]

end

/-- The early frames that are kept for an identifier. -/
def Session.stashed (id : Nat) (s : Session) : List PacketFrame :=
  ((s.pending.lookup id).map fun q => q.frames.map (PendingFrame.packet id)).getD []

/-- The stream for an identifier has been ended. -/
def Session.Ended (id : Nat) (s : Session) : Prop :=
  ∃ h < s.next, (s.heap h).id = id ∧ (s.heap h).finSent = true

/-- A channel that is finalized has nothing unread that the application could not read any
more. -/
theorem Channel.RingOk.lost_retire {c : Channel} (hc : c.RingOk) (hread : c.readDone = true)
    (hlost : c.lost = 0) :
  c.retire.lost = 0
  := by
  have hunread : c.drainable = false → c.unread = 0 := by
    intro hdrainable
    have hclosed : c.closed = true := by
      simpa [hdrainable] using hc.readDone hread
    have hdrained : c.drained = true := by
      simpa [hdrainable] using hc.closed hclosed
    simp [unread, buffers, (hc.drained hdrained).1]
  unfold Channel.retire
  dsimp only
  split
  · rename_i hcond
    rcases hcond with hdrainable | hbuffers
    · simpa [hlost, unread, buffers] using hunread hdrainable
    · simp_all [unread, buffers]
  · exact hlost

namespace Station

variable {cfg : SessionConfig} {r : Rules} {t t' : Station}

/-- The frames of a stream that its reader has got and not dealt with. -/
def incoming (id : Nat) (t : Station) : List Flag :=
  marks id (t.sess.stashed id ++ t.hand)

/-- The frames of a stream that its writer has not put on the transport. -/
def outgoing (id : Nat) (t : Station) : List Flag :=
  marks id ((t.out ++ t.batch ++ t.sess.writes).map packet)

/-! ### The reader -/

/-- The frames for an identifier that a session has got and not dealt with. -/
def arrived (id : Nat) (t : Station) : List PacketFrame :=
  (t.sess.stashed id ++ t.hand).filter fun f => decide (f.chID = id)

/-- A session deals with the frames for an identifier in their order. -/
theorem Move.arrived_sublist (hm : Move cfg r t t') (id : Nat) :
  ((t'.arrived id).map fun f => (f.flag, f.offset, f.data)).Sublist
    ((t.arrived id).map fun f => (f.flag, f.offset, f.data))
  := by
  unfold arrived
  cases hm with
  | unstash id' q hq =>
      by_cases hid : id' = id
      · subst hid
        simp [stashed, hq]
      · simp [stashed, AList.lookup_erase_ne (Ne.symm hid), PendingFrame.packet, hid]
  | expire id' q hq =>
      by_cases hid : id' = id
      · subst hid
        simp [stashed, hq]
      · simp [stashed, AList.lookup_erase_ne (Ne.symm hid)]
  | stash f rest hhand hnone early =>
      by_cases hid : f.chID = id
      · subst hid
        cases hlookup : t.sess.pending.lookup f.chID <;>
          simp [stashed, keepPending, hlookup, hhand, PendingQueue.new,
            PendingQueue.push, PendingFrame.packet]
      · simp [stashed, keepPending, AList.lookup_insert_ne (Ne.symm hid), hhand, hid]
  | discard f rest hhand | pass f rest hhand | refuse f rest h hhand
  | push f rest h hhand | remoteFin f rest h hhand | feed f rest h hhand | early f rest h m hhand
  | gotFin f rest h hhand | reset f rest h hhand | acked f rest h hhand | updStream f rest h hhand
  | updSession f rest hhand | updLate f rest hhand =>
      rw [hhand]
      apply List.Sublist.map
      apply List.Sublist.filter
      exact (List.sublist_cons_self f rest).append_left _
  | _ => apply List.Sublist.refl

/-- The reader deals with the frames of a stream in their order, and drops some of them. -/
theorem Move.incoming_sublist (hm : Move cfg r t t') (id : Nat) :
  (t'.incoming id).Sublist (t.incoming id)
  := by
  have hincoming : ∀ t : Station, t.incoming id
      = (((t.arrived id).map fun f => (f.flag, f.offset, f.data)).filter fun x =>
        decide (x.1 = .data ∨ x.1 = .fin)).map Prod.fst := by
    intro t
    simp [incoming, marks, arrived, List.filter_map, Function.comp_def, List.filter_filter,
      Bool.and_comm]
  rw [hincoming, hincoming]
  exact ((hm.arrived_sublist id).filter _).map _

variable {id k : Nat} {f : WriteFrame} {c c' : Channel}

/-- No early frames come back for a channel that has been opened. -/
theorem Move.hand_subset (hm : Move cfg r t t') (honce : r.once id) (hk : k < t.sess.next)
    (hid : (t.sess.heap k).id = id) :
  marks id t'.hand ⊆ marks id t.hand
  := by
  cases hm with
  | unstash id' q hq hguard =>
      have hne : id' ≠ id := by
        rintro rfl
        exact hguard honce k hk hid
      simp [marks_of_ne _ hne]
  | stash f rest hhand | discard f rest hhand | pass f rest hhand | refuse f rest h hhand
  | push f rest h hhand | remoteFin f rest h hhand | feed f rest h hhand | early f rest h m hhand
  | gotFin f rest h hhand | reset f rest h hhand | acked f rest h hhand | updStream f rest h hhand
  | updSession f rest hhand | updLate f rest hhand =>
      rw [hhand, marks_cons]
      apply List.subset_append_right
  | _ => apply List.Subset.refl

/-! ### The writer -/

theorem marks_mergeInto (id : Nat) (out : List WriteFrame) (f : WriteFrame) :
  marks id ((mergeInto out f).map packet)
    = marks id (out.map packet) ++ marks id [f.packet]
  := by
  rcases mergeInto_cases out f with heq | ⟨hf, before, g, after, rfl, hg, -, heq⟩
    | ⟨hf, before, g, after, rfl, hg, -, heq⟩
  · simp [heq]
  · simp [heq, packet, hf, hg]
  · simp [heq, packet, hf, hg]

theorem marks_mergeUpdate (id : Nat) (out : List WriteFrame) (hf : f.flag = .upd) (delta : Int) :
  marks id ((mergeUpdate out f delta).map packet) = marks id (out.map packet)
  := by
  unfold mergeUpdate
  split
  · rfl
  · rw [marks_mergeInto]
    simp [packet, hf]

/-- A stream that has been ended stays so. -/
theorem Move.ended (hm : Move cfg r t t') (ht : t.sess.Ended id) :
  t'.sess.Ended id
  := by
  obtain ⟨h, hh, hid, hfin⟩ := ht
  refine ⟨h, lt_of_lt_of_le hh hm.closed_next.2, ?_, ?_⟩
  · rw [hm.id_eq hh, hid]
  · rcases hm.alter hh with hsame | halter
    · rw [hsame, hfin]
    · exact halter.grows.finSent hfin

theorem ended_queueFin (cfg : SessionConfig) {s : Session} (late : Bool) {h : Nat}
    {g : Channel → Channel} (hh : h < s.next) (hid : (g (s.heap h)).id = (s.heap h).id)
    (hfin : (g (s.heap h)).finSent = true) :
  (s.queueFin cfg late h g).Ended (s.heap h).id
  := by
  refine ⟨h, hh, ?_, ?_⟩ <;> simpa [queueFin]

/-- Only the end of a stream is queued late. -/
theorem Move.late_ended (hm : Move cfg r t t') (hf : f ∈ t'.sess.lateWrites) :
  f ∈ t.sess.lateWrites ∨ t'.sess.Ended f.chID
  := by
  cases hm with
  | fin h late hh | lateFin h late hh =>
      have hended : Session.Ended _ _ := ended_queueFin cfg late hh
        (g := closeFin cfg t.sess.now) (by simp [closeFin, finish]) rfl
      have hended' : Session.Ended _ _ := ended_queueFin cfg late hh
        (g := Channel.lateFin cfg t.sess.now) (by simp [Channel.lateFin, finish]) rfl
      simp only [queueFin] at hf
      split at hf
      · rcases List.mem_append.mp hf with hf | hf
        · left
          exact hf
        · right
          obtain rfl := List.mem_singleton.mp hf
          first | exact hended | exact hended'
      · left
        exact hf
  | lateWrite i g hg =>
      left
      apply List.mem_of_mem_eraseIdx hf
  | _ => exact .inl hf

/-- What a queued end of a stream adds to the frames of its writer. -/
theorem outgoing_queueFin (cfg : SessionConfig) (late : Bool) {h : Nat} {g : Channel → Channel}
    (hh : h < t.sess.next) (hid : (g (t.sess.heap h)).id = (t.sess.heap h).id)
    (hfin : (g (t.sess.heap h)).finSent = true) (id : Nat) :
  outgoing id { t with sess := t.sess.queueFin cfg late h g } = t.outgoing id
    ∨ outgoing id { t with sess := t.sess.queueFin cfg late h g } = t.outgoing id ++ [.fin]
      ∧ (t.sess.queueFin cfg late h g).Ended id
  := by
  have hended := ended_queueFin cfg late hh hid hfin
  cases late with
  | true => exact .inl rfl
  | false =>
      by_cases heq : (t.sess.heap h).id = id
      · right
        refine ⟨?_, heq ▸ hended⟩
        simp [outgoing, queueFin, packet, finFrame, heq]
      · left
        simp [outgoing, queueFin, packet, finFrame, heq]

theorem flag_control {s : Session} (hf : f.Control s) :
  f.flag ≠ .data ∧ f.flag ≠ .fin
  := by
  cases hf with
  | plain hplain => rcases hplain.1 with hflag | hflag | hflag <;> simp [hflag]
  | _ => simp

/-- Without retransmissions, the writer adds to the frames of a stream only its end, or data
while the stream is open. -/
theorem Move.outgoing_eq (hm : Move cfg r t t') (hshape : t.Shape)
    (hunacked : ∀ h < t.sess.next, (t.sess.heap h).unacked = []) (id : Nat) :
  t'.outgoing id = t.outgoing id
    ∨ (t'.outgoing id = t.outgoing id ++ [.fin]
      ∧ (t'.sess.Ended id ∨ ∃ f ∈ t.sess.lateWrites, f.chID = id))
    ∨ (t'.outgoing id = t.outgoing id ++ [.data]
      ∧ ∃ h < t.sess.next, (t.sess.heap h).id = id ∧ (t.sess.heap h).writeClosed = false)
  := by
  cases hm with
  | fin h late hh =>
      rcases outgoing_queueFin cfg late (g := closeFin cfg t.sess.now) hh
        (by simp [closeFin, finish]) rfl id with heq | ⟨heq, hended⟩
      · exact .inl heq
      · exact .inr (.inl ⟨heq, .inl hended⟩)
  | lateFin h late hh =>
      rcases outgoing_queueFin cfg late (g := Channel.lateFin cfg t.sess.now) hh
        (by simp [Channel.lateFin, finish]) rfl id with heq | ⟨heq, hended⟩
      · exact .inl heq
      · exact .inr (.inl ⟨heq, .inl hended⟩)
  | lateWrite i f hf =>
      obtain ⟨id', offset, rfl⟩ := hshape.queue.late f (List.mem_of_getElem? hf)
      by_cases heq : id' = id
      · right
        left
        refine ⟨?_, .inr ⟨_, List.mem_of_getElem? hf, heq⟩⟩
        simp [outgoing, packet, finFrame, heq]
      · left
        simp [outgoing, packet, finFrame, heq]
  | resend h u hh hu =>
      rw [hunacked h hh] at hu
      contradiction
  | write h p hh hclosed hwrite =>
      by_cases heq : (t.sess.heap h).id = id
      · right
        right
        refine ⟨?_, h, hh, heq, hwrite⟩
        simp [outgoing, spend, packet, dataFrame, heq]
      · left
        simp [outgoing, spend, packet, dataFrame, heq]
  | collectCtrl f q hq =>
      left
      have hflag : f.flag ≠ .data ∧ f.flag ≠ .fin :=
        flag_control (hshape.queue.ctrl f (by simp [hq]))
      simp [outgoing, packet, hflag]
  | collectData f q hq =>
      left
      simp [outgoing, hq]
  | ready f rest hbatch =>
      left
      simp [outgoing, hbatch, marks_mergeInto]
  | readyAck f rest h hbatch hack =>
      left
      obtain ⟨-, rfl⟩ := ack_of_batch hshape.queue hbatch hack
      simp [outgoing, hbatch, marks_mergeInto, packet, update]
  | readyStream f rest h hbatch hack hstream =>
      left
      obtain ⟨-, rfl⟩ := upd_of_batch hshape.queue hbatch hstream
      simp [outgoing, hbatch, marks_mergeUpdate, packet, update]
  | readySession f rest hbatch hack hstream hsession =>
      left
      obtain rfl := session_of_batch hshape.queue hbatch hsession
      simp [outgoing, hbatch, marks_mergeUpdate, packet]
  | _ => exact .inl rfl

/-- A session that opens an identifier once has at most one channel for it. -/
theorem Move.single (hm : Move cfg r t t') (honce : r.once id) (ht : t.sess.Single id) :
  t'.sess.Single id
  := by
  rcases hm.next_eq with heq | ⟨id', _, _, _, honce', rfl⟩
  · intro h hh k hk hid hid'
    rw [heq] at hh hk
    rw [hm.id_eq hh] at hid
    rw [hm.id_eq hk] at hid'
    exact ht h hh k hk hid hid'
  · intro h hh k hk hid hid'
    simp only [Session.publish] at hh hk hid hid'
    have hold : ∀ j < t.sess.next, id' = id → (t.sess.heap j).id ≠ id := by
      rintro j hj rfl
      exact honce' honce j hj
    by_cases hnew : h = t.sess.next
    · by_cases hnew' : k = t.sess.next
      · rw [hnew, hnew']
      · subst hnew
        rw [Function.update_self] at hid
        rw [Function.update_of_ne hnew'] at hid'
        exact absurd hid' (hold k (by omega) hid)
    · by_cases hnew' : k = t.sess.next
      · subst hnew'
        rw [Function.update_self] at hid'
        rw [Function.update_of_ne hnew] at hid
        exact absurd hid (hold h (by omega) hid')
      · rw [Function.update_of_ne hnew] at hid
        rw [Function.update_of_ne hnew'] at hid'
        exact ht h (by omega) k (by omega) hid hid'

/-! ### Rings -/

/-- A channel that is closed stays so. -/
theorem closed_alter {hand : List PacketFrame} (halter : Alter cfg r hand c c')
    (hclosed : c'.closed = false) :
  c.closed = false
  := by
  have hgrows := halter.grows.closed
  grind

theorem Move.closed_eq (hm : Move cfg r t t') (hk : k < t.sess.next)
    (hclosed : (t'.sess.heap k).closed = false) :
  (t.sess.heap k).closed = false
  := by
  rcases hm.alter hk with hsame | halter
  · rwa [hsame] at hclosed
  · exact closed_alter halter hclosed

theorem readDone_touch (htouch : Touch cfg r c c') (hrel : cfg.reliability = false)
    (hdone : c'.readDone = true) (hopen : c'.closed = false) :
  c.readDone = true ∧ c.closed = false
  := by
  cases htouch with
  | alike halike =>
      rw [halike] at hdone hopen
      exact ⟨hdone, hopen⟩
  | remoteDone hrel' => simp [hrel] at hrel'
  | shut | abandon => contradiction
  | _ => exact ⟨hdone, hopen⟩

/-- Without retransmissions, the reader of an open channel has seen the end of its stream only
when the end has come. -/
theorem Move.readDone (hm : Move cfg r t t') (hrel : cfg.reliability = false)
    (hk : k < t.sess.next) (hdone : (t'.sess.heap k).readDone = true)
    (hopen : (t'.sess.heap k).closed = false) :
  ((t.sess.heap k).readDone = true ∧ (t.sess.heap k).closed = false)
    ∨ ∃ f, t.hand = f :: t'.hand ∧ f.flag = .fin ∧ f.chID = (t.sess.heap k).id
  := by
  have hkeep : ∀ {h : Nat} {g : Channel → Channel},
      ((g (t.sess.heap h)).readDone = true → (g (t.sess.heap h)).closed = false →
        (t.sess.heap h).readDone = true ∧ (t.sess.heap h).closed = false) →
      ((t.sess.update h g).heap k).readDone = true → ((t.sess.update h g).heap k).closed = false →
      (t.sess.heap k).readDone = true ∧ (t.sess.heap k).closed = false := by
    intro h g hg
    by_cases hkh : k = h
    · subst hkh
      simpa using hg
    · rw [heap_update_of_ne hkh]
      exact And.intro
  cases hm with
  | remoteFin f rest h hhand hflag hh hid =>
      by_cases hkh : k = h
      · subst hkh
        exact .inr ⟨f, hhand, hflag, hid.symm⟩
      · left
        rw [heap_update_of_ne hkh] at hdone hopen
        exact ⟨hdone, hopen⟩
  | touch h f hh hf => exact .inl (hkeep (readDone_touch hf hrel) hdone hopen)
  | fin h late | lateFin h late | write h p | retire h =>
      left
      refine hkeep (h := h) ?_ hdone hopen
      simp only [closeFin, Channel.lateFin, finish, send, register,
        Channel.retire]
      split <;> exact And.intro
  | drain h =>
      exact .inl (hkeep (h := h) (g := fun c => c.shut.drain)
        (fun _ hclosed => by contradiction) hdone hopen)
  | giveUp h =>
      exact .inl (hkeep (h := h) (g := fun c => c.abandon.drain)
        (fun _ hclosed => by contradiction) hdone hopen)
  | push f rest h =>
      left
      refine hkeep (h := h) ?_ hdone hopen
      unfold Channel.push
      split <;> exact And.intro
  | refuse f rest h | reset f rest h | acked f rest h | updStream f rest h | ack h | idle h
  | take h | readyAck f rest h | readyStream f rest h =>
      exact .inl (hkeep (h := h) And.intro hdone hopen)
  | feed f rest h hhand hflag hh hid hrel' | early f rest h m hhand hflag hh hid hrel'
  | gotFin f rest h hhand hflag hh hid hrel' => simp [hrel] at hrel'
  | feedEarly h p hh hrel' => simp [hrel] at hrel'
  | publish id =>
      left
      simpa [Session.publish, Nat.ne_of_lt hk] using And.intro hdone hopen
  | _ => exact .inl ⟨hdone, hopen⟩

/-- Without retransmissions, no byte is lost between the rings if no data comes for a reader
that has seen the end of its stream. -/
theorem Move.lost_eq_zero (hm : Move cfg r t t') (hrel : cfg.reliability = false)
    (hring : ∀ h < t.sess.next, (t.sess.heap h).RingOk)
    (hlost : ∀ h < t.sess.next, (t.sess.heap h).lost = 0)
    (hdata : ∀ f ∈ t.hand, f.flag = .data → ∀ h < t.sess.next, (t.sess.heap h).id = f.chID →
      (t.sess.heap h).closed = false → (t.sess.heap h).readDone = false) :
  ∀ h < t'.sess.next, (t'.sess.heap h).lost = 0
  := by
  intro h hh
  by_cases hlt : h < t.sess.next
  · rcases hm.alter hlt with hsame | halter
    · rw [hsame, hlost h hlt]
    · have hring := hring h hlt
      have hzero := hlost h hlt
      have hdata := fun f hf hflag hid => hdata f hf hflag h hlt hid
      generalize t.sess.heap h = c at *
      generalize t'.sess.heap h = c' at *
      cases halter with
      | touch htouch =>
          cases htouch with
          | alike halike => rw [halike, hzero]
          | _ => exact hzero
      | fin now | lateFin now | send now p =>
          simp only [closeFin, Channel.lateFin, finish, send,
            register]
          split <;> exact hzero
      | retire hdone hfin hread => exact hring.lost_retire hread hzero
      | push f hf hflag hid hrel hclosed =>
          unfold Channel.push
          split
          · exact hzero
          · rename_i hnone
            have hread := hdata f hf hflag hid hclosed
            rcases hring.ring hnone with hclosed' | hread'
            · simp [hclosed] at hclosed'
            · simp [hread] at hread'
      | feed f hf hflag hid hrel' | feedEarly p hrel' => simp [hrel] at hrel'
      | _ => exact hzero
  · rcases hm.next_eq with heq | ⟨id, _, _, _, _, rfl⟩
    · omega
    · have hnew : h = t.sess.next := by
        simp only [Session.publish] at hh
        omega
      subst hnew
      simp [Session.publish]

end Station

namespace Net

variable {cfg : Side → SessionConfig} {terms : Terms} {n n' : Net}

/-! ### Streams in flight -/

/-- The frames of the stream for an identifier that the side `d` writes, up to those that are
handled next. -/
def coming (d : Side) (id : Nat) (n : Net) : List Flag :=
  marks id (n.st d.other).hand ++ marks id (n.link d) ++ (n.st d).outgoing id

/-- The frames of the stream for an identifier that the side `d` writes. -/
def chain (d : Side) (id : Nat) (n : Net) : List Flag :=
  marks id ((n.st d.other).sess.stashed id) ++ n.coming d id

theorem chain_eq (d : Side) (id : Nat) (n : Net) :
  n.chain d id = (n.st d.other).incoming id ++ marks id (n.link d) ++ (n.st d).outgoing id
  := by
  simp [chain, coming, Station.incoming]

/-- The end of the stream for an identifier comes after its data. -/
structure Orderly (d : Side) (id : Nat) (n : Net) : Prop where
  single : (n.st d).sess.Single id
  sorted : (n.chain d id).Pairwise fun a b => a = .fin → b ≠ .data
  ended : .fin ∈ n.chain d id → (n.st d).sess.Ended id
  late : ∀ f ∈ (n.st d).sess.lateWrites, f.chID = id → (n.st d).sess.Ended id
  seen : ∀ k < (n.st d.other).sess.next, ((n.st d.other).sess.heap k).id = id →
    ((n.st d.other).sess.heap k).readDone = true →
    ((n.st d.other).sess.heap k).closed = false →
    (n.st d).sess.Ended id ∧ .data ∉ n.coming d id

variable {d : Side} {id : Nat}

section

variable (hn : n.Orderly d id)

include hn

/-- A stream that has ended is not written to any more. -/
theorem Orderly.writeClosed (hshape : n.Shape) (hended : (n.st d).sess.Ended id) {h : Nat}
    (hh : h < (n.st d).sess.next) (hid : ((n.st d).sess.heap h).id = id) :
  ((n.st d).sess.heap h).writeClosed = true
  := by
  obtain ⟨k, hk, hidk, hfin⟩ := hended
  obtain rfl := hn.single h hh k hk hid hidk
  exact ((hshape.st d).streams h hh).finSent hfin

/-- A move of the writer keeps the end of a stream after its data. -/
theorem Orderly.write (hshape : n.Shape) (honce : (terms.rules d).once id)
    (hunacked : ∀ h < (n.st d).sess.next, ((n.st d).sess.heap h).unacked = []) {t : Station}
    (hmove : Station.Move (cfg d) (terms.rules d) (n.st d) t) :
  (n.put d t).Orderly d id
  := by
  have hother : (n.put d t).st d.other = n.st d.other := st_put_of_ne (Side.other_ne d) t n
  have hlate : ∀ f ∈ t.sess.lateWrites, f.chID = id → t.sess.Ended id := by
    rintro f hf rfl
    rcases hmove.late_ended hf with hf | hended
    · exact hmove.ended (hn.late f hf rfl)
    · exact hended
  have hsingle : t.sess.Single id := hmove.single honce hn.single
  obtain ⟨fs, hfs, hkind⟩ : ∃ fs, t.outgoing id = (n.st d).outgoing id ++ fs
      ∧ (fs = [] ∨ fs = [.fin] ∧ t.sess.Ended id
        ∨ fs = [.data] ∧ ¬ (n.st d).sess.Ended id) := by
    rcases hmove.outgoing_eq (hshape.st d) hunacked id with heq | ⟨heq, hfin⟩
      | ⟨heq, h, hh, hid, hwrite⟩
    · exact ⟨[], by simpa using heq, .inl rfl⟩
    · refine ⟨_, heq, .inr (.inl ⟨rfl, ?_⟩)⟩
      rcases hfin with hended | ⟨f, hf, hid⟩
      · exact hended
      · exact hmove.ended (hn.late f hf hid)
    · refine ⟨_, heq, .inr (.inr ⟨rfl, ?_⟩)⟩
      intro hended
      simp [hn.writeClosed hshape hended hh hid] at hwrite
  have hcoming : (n.put d t).coming d id = n.coming d id ++ fs := by
    simp only [coming, st_put, hother, hfs, List.append_assoc]
    rfl
  have hchain : (n.put d t).chain d id = n.chain d id ++ fs := by
    simp only [chain, hother, hcoming, List.append_assoc]
  refine ⟨by rwa [st_put], ?_, ?_, by rwa [st_put], ?_⟩
  · rw [hchain, List.pairwise_append]
    have hended := hn.ended
    refine ⟨hn.sorted, ?_, ?_⟩ <;> grind
  · rw [hchain, st_put]
    intro hfin
    rcases List.mem_append.mp hfin with hfin | hfin
    · exact hmove.ended (hn.ended hfin)
    · grind
  · rw [hother, hcoming, st_put]
    intro k hk hid hread hclosed
    obtain ⟨hended, hdata⟩ := hn.seen k hk hid hread hclosed
    refine ⟨hmove.ended hended, ?_⟩
    grind

/-- A move of the reader keeps the end of a stream after its data. -/
theorem Orderly.read (honce : (terms.rules d.other).once id)
    (hrel : (cfg d.other).reliability = false) {t : Station}
    (hmove : Station.Move (cfg d.other) (terms.rules d.other) (n.st d.other) t) :
  (n.put d.other t).Orderly d id
  := by
  have hother : (n.put d.other t).st d = n.st d := st_put_of_ne (Side.ne_other d) t n
  have hchain : ((n.put d.other t).chain d id).Sublist (n.chain d id) := by
    rw [chain_eq, chain_eq, st_put, hother]
    apply List.Sublist.append_right
    apply List.Sublist.append_right
    apply hmove.incoming_sublist
  have hcoming : (n.put d.other t).coming d id
      = marks id t.hand ++ marks id (n.link d) ++ (n.st d).outgoing id := by
    rw [coming, st_put, hother]
    rfl
  refine ⟨?_, hn.sorted.sublist hchain, ?_, ?_, ?_⟩
  · rw [hother]
    exact hn.single
  · intro hfin
    rw [hother]
    exact hn.ended (hchain.subset hfin)
  · rw [hother]
    exact hn.late
  · rw [st_put, hother]
    intro k hk hid hread hclosed
    have hk' : k < (n.st d.other).sess.next := by
      by_contra hnew
      rcases hmove.next_eq with heq | ⟨_, _, _, _, _, rfl⟩
      · omega
      · obtain rfl : k = (n.st d.other).sess.next := by
          simp only [Session.publish] at hk
          omega
        simp [Session.publish] at hread
    rw [hmove.id_eq hk'] at hid
    rcases hmove.readDone hrel hk' hread hclosed with ⟨hread, hclosed⟩ | ⟨f, hhand, hflag, hf⟩
    · obtain ⟨hended, hdata⟩ := hn.seen k hk' hid hread hclosed
      have hsubset := hmove.hand_subset honce hk' hid
      refine ⟨hended, ?_⟩
      rw [hcoming]
      grind [coming]
    · have hsplit : n.chain d id = marks id ((n.st d.other).sess.stashed id)
          ++ .fin :: (n.put d.other t).coming d id := by
        rw [hcoming, chain, coming, hhand]
        simp [hf, hid, hflag]
      constructor
      · apply hn.ended
        simp [hsplit]
      · have hsorted := hn.sorted
        rw [hsplit, List.pairwise_append] at hsorted
        intro hdata
        exact (List.pairwise_cons.mp hsorted.2.1).1 _ hdata rfl rfl

theorem Orderly.of_eq (hsess : ∀ e, (n'.st e).sess = (n.st e).sess)
    (hcoming : n'.coming d id = n.coming d id) :
  n'.Orderly d id
  := by
  have hchain : n'.chain d id = n.chain d id := by
    rw [chain, chain, hsess, hcoming]
  obtain ⟨hsingle, hsorted, hended, hlate, hseen⟩ := hn
  constructor
  · rwa [hsess]
  · rwa [hchain]
  · rwa [hchain, hsess]
  · rwa [hsess]
  · rwa [hsess, hsess, hcoming]

end

/-- A change beside the sessions leaves them alone. -/
theorem sess_put {e : Side} {t : Station} (ht : t.sess = (n.st e).sess) :
  ∀ e', ((n.put e t).st e').sess = (n.st e').sess
  := (Function.forall_update_iff n.st fun e' t => t.sess = (n.st e').sess).mpr
    ⟨ht, fun _ _ => rfl⟩

/-- Steps over an ordered transport keep the end of a stream after its data. -/
theorem Step.orderly (hstep : Step cfg terms n n') (hshape : n.Shape) (hordered : terms.ordered)
    (honce : ∀ d, (terms.rules d).once id) (hrel : ∀ d, (cfg d).reliability = false)
    (hunacked : ∀ d, ∀ h < (n.st d).sess.next, ((n.st d).sess.heap h).unacked = [])
    (hn : n.Orderly d id) :
  n'.Orderly d id
  := by
  cases hstep with
  | move e t hmove =>
      rcases eq_or_other d e with rfl | rfl
      · exact hn.write hshape (honce _) (hunacked _) hmove
      · exact hn.read (honce _) (hrel _) hmove
  | send e =>
      apply hn.of_eq
      · exact sess_put (e := e) (t := { n.st e with out := [] }) rfl
      · rcases eq_or_other d e with rfl | rfl
        · simp [coming, put, Station.outgoing, Side.other_ne]
        · simp [coming, put, Side.ne_other]
  | grab e i f hf hhand hzero =>
      apply hn.of_eq
      · exact sess_put (e := e) (t := { n.st e with hand := [f] }) rfl
      · rcases eq_or_other d e with rfl | rfl
        · simp [coming, put, Station.outgoing, Side.other_ne, Side.ne_other]
        · obtain rfl := hzero hordered
          rw [Side.other_other] at hf
          obtain ⟨fs, hlink⟩ := List.head?_eq_some_iff.mp (List.head?_eq_getElem?.trans hf)
          simp [coming, put, Station.outgoing, Side.ne_other, hhand, hlink]
  | lose e i f hf hnot | dup e i f hf hnot => contradiction

/-- The books of two sessions balance, and no byte has been lost. -/
structure Lossless (cfg : Side → SessionConfig) (n : Net) : Prop extends Ledger cfg n where
  orderly : ∀ d id, n.Orderly d id
  lost : ∀ d, ∀ h < (n.st d).sess.next, ((n.st d).sess.heap h).lost = 0

/-- No data comes for a reader that has seen the end of its stream. -/
theorem Orderly.readDone_eq {f : PacketFrame} (hn : n.Orderly d f.chID)
    (hf : f ∈ (n.st d.other).hand) (hflag : f.flag = .data) {h : Nat}
    (hh : h < (n.st d.other).sess.next) (hid : ((n.st d.other).sess.heap h).id = f.chID)
    (hclosed : ((n.st d.other).sess.heap h).closed = false) :
  ((n.st d.other).sess.heap h).readDone = false
  := by
  by_contra hread
  obtain ⟨-, hdata⟩ := hn.seen h hh hid (by simpa using hread) hclosed
  apply hdata
  simp only [coming, List.mem_append]
  left
  left
  rw [marks, List.mem_map]
  exact ⟨f, by simpa [hflag] using hf, hflag⟩

theorem Step.lossless (hstep : Step cfg terms n n') (hshape : n.Shape) (hordered : terms.ordered)
    (honce : ∀ d id, (terms.rules d).once id) (hrel : ∀ d, (cfg d).reliability = false)
    (hn : n.Lossless cfg) :
  n'.Lossless cfg
  where
  toLedger := hstep.ledger hshape hordered hrel hn.toLedger
  orderly d id := hstep.orderly hshape hordered (fun d => honce d id) hrel hn.unacked
    (hn.orderly d id)
  lost d := by
    rcases hstep.sess_or_move d with hsame | hmove
    · rw [hsame]
      apply hn.lost
    · apply hmove.lost_eq_zero (hrel d) (hshape.st d).ring (hn.lost d)
      intro f hf hflag h hh hid hclosed
      have horderly := hn.orderly d.other f.chID
      obtain hother : d.other.other = d := Side.other_other d
      have hdone := horderly.readDone_eq (h := h) (f := f)
      rw [hother] at hdone
      exact hdone hf hflag hh hid hclosed

theorem lossless_init (cfg : Side → SessionConfig) (now : Side → Int) :
  (ofWorld (World.init cfg now)).Lossless cfg
  where
  toLedger := ledger_init cfg now
  orderly d id := by
    constructor
    · intro h hh
      simp at hh
    · simp [chain, coming, Station.outgoing, stashed]
    · simp [chain, coming, Station.outgoing, stashed]
    · simp
    · intro k hk
      simp at hk
  lost d h hh := by
    simp at hh

/-- Both sessions open each label at most once, and the transport is ordered and lossless. -/
def onceTerms : Terms where
  rules _ := { once := fun _ => True, kept := fun _ => False, updates := False }
  ordered := True

end Net

namespace World

/-- An action that does not open a label a second time at one side.  Labels that differ in
the case of their letters are the same. -/
def OpensOnce (w : World) : Action → Prop
  | .op d (.openChannel label) =>
      ∀ id ∈ stringToUint32 label, ∀ h < (w.sess d).next, ((w.sess d).heap h).id ≠ id
  | _ => True

instance (w : World) (a : Action) : Decidable (w.OpensOnce a) := by
  unfold OpensOnce
  split <;> infer_instance

/-- An operation that opens no label a second time follows rules that ask for nothing else. -/
theorem OpensOnce.follows {w : World} {d : Side} {o : Op} {r : Rules}
    (honce : w.OpensOnce (.op d o))
    (hkept : ∀ h, o = .localClose h → ¬ r.kept ((w.sess d).heap h).id)
    (hreads : r.reads ∨ ∀ h n, o ≠ .read h n ∧ o ≠ .writeTo h n) :
  o.Follows r (w.sess d)
  := by
  cases o with
  | openChannel label =>
      intro id hid _ h hh
      exact honce id hid h hh
  | localClose h => exact hkept h rfl
  | read h n | writeTo h n => simpa [Op.Follows] using hreads
  | _ => trivial

/-- Session credit is conserved between two sessions with the same window and without
retransmissions, over an ordered, lossless transport, if each label is opened at most once by
each of them.  What is not left of the window is queued or in flight, early or unread, or on
its way back. -/
theorem session_window_conserved (cfg : Side → SessionConfig) (now : Side → Int) (w : World)
    (S : Nat) (hrel : ∀ d, (cfg d).reliability = false)
    (hwindow : ∀ d, (cfg d).initialSessionWindow = S) (hlt : S < 2 ^ 31)
    (hrun : Run (World.step cfg)
      (fun w a => w.InOrder cfg a ∧ w.StaysOpen cfg a ∧ w.OpensOnce a) (World.init cfg now) w)
    (d : Side) :
  (w.sess d).flow.sendCredits + pay (fun _ => true) (w.path d) + (w.sess d.other).pendingBytes
      + (w.sess d.other).total (fun _ => true) (fun c => c.unread)
      + (w.sess d.other).flow.consumed + (w.sess d.other).flow.unflushed
      + credits 0 (w.path d.other)
    = S
  := by
  obtain ⟨hshape, hlossless⟩ : (Net.ofWorld w).Shape ∧ (Net.ofWorld w).Lossless cfg := by
    apply Net.invariant_of_run Net.onceTerms _ _ _ (Net.lossless_init cfg now) hrun
    · rintro w a ⟨horder, -, honce⟩
      apply Net.allows_inOrder (fun _ _ => trivial) (fun _ => not_false) horder
      rintro d o rfl
      exact honce.follows (fun _ _ => not_false) (.inl trivial)
    · rintro w a w' ⟨-, hopen, -⟩ hstep d
      apply hopen.closed_eq hstep
    · intro n n' hshape hn hstep
      apply hstep.lossless hshape trivial (fun _ _ => trivial) hrel hn
  have hsum := session_window_sum hrel hshape hlossless.toLedger (fun e => by rwa [hwindow]) d
  have hlost : (w.sess d.other).total (fun _ => true) (fun c => c.lost) = 0 := by
    apply total_eq_zero
    intro h hh _
    exact_mod_cast hlossless.lost d.other h hh
  rw [hwindow] at hsum
  omega

/-- Three bytes are written to a channel that is read, and two to one that is not open at the
other side. -/
theorem session_window_conserved_early :
  ∃ w : World,
    (w.sess .left).flow.sendCredits + pay (fun _ => true) (w.path .left)
        + (w.sess .right).pendingBytes
        + (w.sess .right).total (fun _ => true) (fun c => c.unread)
        + (w.sess .right).flow.consumed + (w.sess .right).flow.unflushed
        + credits 0 (w.path .right)
      = 16
    ∧ (w.sess .left).flow.sendCredits = 11 ∧ (w.sess .right).pendingBytes = 2
  := by
  obtain ⟨w, hrun, hcredits, hpending⟩ := Run.exists_of_exec (World.step fun _ => smallConfig false)
    (fun w a => w.InOrder (fun _ => smallConfig false) a
      ∧ w.StaysOpen (fun _ => smallConfig false) a ∧ w.OpensOnce a)
    (World.init (fun _ => smallConfig false) fun _ => 0)
    [.op .left (.openChannel [97]), .op .left (.openChannel [98]), .op .right (.openChannel [97]),
      .op .left (.write 0 [1, 2, 3]), .op .left (.write 1 [4, 5]), .flush .left [false, false],
      .recv .right 0 false, .recv .right 0 false, .op .right (.read 0 1)]
    (fun w => (w.sess .left).flow.sendCredits = 11 ∧ (w.sess .right).pendingBytes = 2)
    (by decide +kernel)
  have hsum := session_window_conserved (fun _ => smallConfig false) (fun _ => 0) w 16
    (fun _ => rfl) (fun _ => rfl) (by decide) hrun .left
  exact ⟨w, hsum, hcredits, hpending⟩

end World

end Muxocket
