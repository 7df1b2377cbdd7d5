import Muxocket.Acks

/-!
# Flow control with retransmissions

What a reader has got of a stream, in whatever way, is what it has put in order, so no credit
is returned for a byte that was not written.  Window updates are not sent again, and a lost one
takes its credit with it; while none is lost, the credit of two sessions is conserved.
-/

namespace Muxocket

open Session

/-! ### Sums over identifiers -/

variable {g g' : Channel → Int} {s : Session}

theorem Session.total_fiberwise (ids : Finset Nat) (hids : ∀ h < s.next, (s.heap h).id ∈ ids) :
  s.total (fun _ => true) g = ∑ id ∈ ids, s.total (· == id) g
  := by
  unfold total sumOver
  rw [Finset.sum_comm]
  apply Finset.sum_congr rfl
  intro h hh
  have hmem := hids h (Finset.mem_range.mp hh)
  simp [hmem]

theorem Session.total_mono {K : Nat → Bool} (hle : ∀ h < s.next, g (s.heap h) ≤ g' (s.heap h)) :
  s.total K g ≤ s.total K g'
  := by
  unfold total sumOver
  apply Finset.sum_le_sum
  intro h hh
  have hle := hle h (Finset.mem_range.mp hh)
  split <;> omega

/-- What has been written for an identifier that is opened once. -/
theorem Session.Single.total_writeOffset {id : Nat} (hs : s.Single id)
    (hends : ∀ h < s.next, (s.heap h).EndOk) :
  s.total (· == id) (fun c => c.writeOffset) = (s.sentBy id).flatten.length
  := by
  by_cases hex : ∃ h < s.next, (s.heap h).id = id
  · obtain ⟨h, hh, hid⟩ := hex
    rw [hs.total_eq hh hid, hs.sentBy_eq hh hid, (hends h hh).offset]
  · have hnone : ∀ h < s.next, (s.heap h).id ≠ id := fun h hh hid => hex ⟨h, hh, hid⟩
    rw [sentBy, ofAuthor_eq_nil hnone]
    apply total_eq_zero
    intro h hh hid
    exact absurd (by simpa using hid) (hnone h hh)

/-- A sum over the channels of two sessions, identifier by identifier. -/
theorem Session.total_le_total {s' : Session}
    (hle : ∀ id, s.total (· == id) g ≤ s'.total (· == id) g') :
  s.total (fun _ => true) g ≤ s'.total (fun _ => true) g'
  := by
  let ids := (Finset.range s.next).image (fun h => (s.heap h).id)
    ∪ (Finset.range s'.next).image (fun h => (s'.heap h).id)
  rw [total_fiberwise (s := s) ids, total_fiberwise (s := s') ids]
  · exact Finset.sum_le_sum fun id _ => hle id
  · intro h hh
    exact Finset.mem_union_right _ (Finset.mem_image_of_mem _ (Finset.mem_range.mpr hh))
  · intro h hh
    exact Finset.mem_union_left _ (Finset.mem_image_of_mem _ (Finset.mem_range.mpr hh))

/-! ### What a reader has got -/

namespace Channel

variable {cfg : SessionConfig} {r : Rules} {hand : List PacketFrame} {c c' : Channel}

theorem got_feed (p : Bytes) (c : Channel) :
  (c.feed p).got - (c.feed p).readOffset = c.got - c.readOffset
  := by
  have hpush := Station.got_push p c
  have hread : (c.push p).readOffset = c.readOffset := by
    unfold Channel.push
    split <;> rfl
  unfold Channel.feed
  split
  · simp only [Channel.got, Channel.unread, Channel.buffers]
    push_cast
    omega
  · have hsame : Channel.got { c.push p with readOffset := (c.push p).readOffset + p.length }
        = (c.push p).got := rfl
    rw [hsame, hpush]
    simp only [hread]
    push_cast
    omega

/-- With retransmissions, what has been put in a channel is what it has put in order. -/
theorem got_alter (hrel : cfg.reliability = true) (halter : Alter cfg r hand c c') :
  c'.got - c'.readOffset = c.got - c.readOffset
  := by
  have hkeep : c'.got = c.got → c'.reading = c.reading →
      c'.got - c'.readOffset = c.got - c.readOffset := by
    intro hgot hreading
    rw [hgot, show c'.readOffset = c.readOffset from congrArg Prod.snd hreading]
  have hdrain : ∀ c : Channel, c.drain.got = c.got := by
    intro c
    simp only [drain, Channel.got, Channel.unread, Channel.buffers, Option.getD_none,
      List.flatten_nil, List.length_nil]
    push_cast
    omega
  cases halter with
  | touch htouch => exact hkeep (Station.got_touch htouch) htouch.keeps.reading
  | fin now | lateFin now | send now p =>
      exact hkeep (Station.got_register _ _) (reading_register cfg _ _)
  | drain => exact congrArg (· - (c.readOffset : Int)) (hdrain c.shut)
  | giveUp => exact congrArg (· - (c.readOffset : Int)) (hdrain c.abandon)
  | retire =>
      have hread : c.retire.readOffset = c.readOffset := by
        simp only [retire]
        split <;> rfl
      rw [Station.got_retire, hread]
  | refuse f _ _ _ hrel' | push f _ _ _ hrel' | remoteFin f _ _ _ hrel' => simp [hrel] at hrel'
  | feed f => exact got_feed f.data c
  | feedEarly p => exact got_feed p _
  | take p bufs _ hbufs =>
      have hlength := congrArg List.length hbufs
      simp only [List.length_append] at hlength
      simp only [take, Channel.got, Channel.unread, Channel.buffers, Option.getD_some,
        List.length_append] at hlength ⊢
      push_cast
      omega
  | _ => rfl

/-- A channel that has queued the end of its stream, and is not given up, has sent it, and has
nothing unacknowledged when it is finalized. -/
structure Settled (c : Channel) : Prop where
  finSent : c.finQueued = true → c.finSent = true
  unacked : c.done = true → c.unacked = []

theorem Settled.alter (hc : c.Settled) (hend : c.EndOk) (hkept : r.kept c.id)
    (halter : Alter cfg r hand c c') :
  c'.Settled
  := by
  obtain ⟨hfin, hunacked⟩ := hc
  have hopen : c.done = true → c.writeClosed = true ∧ c.finSent = true := by
    intro hdone
    have hsent := hfin (hend.finalized hdone).2
    exact ⟨hend.finSent hsent, hsent⟩
  cases halter with
  | touch htouch =>
      cases htouch with
      | alike halike =>
          rw [halike]
          exact ⟨hfin, hunacked⟩
      | abandon hnot => exact absurd hkept hnot
      | @retime us hus =>
          refine ⟨hfin, ?_⟩
          intro hdone
          rw [hunacked hdone] at hus
          exact List.map_eq_nil_iff.mp hus
      | _ => exact ⟨hfin, hunacked⟩
  | giveUp hnot => exact absurd hkept hnot
  | fin now hw =>
      simp only [closeFin, finish, register]
      split <;> constructor <;> grind
  | lateFin now hw =>
      have hfinSent := (hend.finWaiting hw).2
      simp only [Channel.lateFin, finish, register]
      split <;> constructor <;> grind
  | send now p _ hw =>
      simp only [Channel.send, register]
      split <;> constructor <;> grind
  | retire _ hqueued =>
      simp only [retire]
      split <;> exact ⟨hfin, fun _ => rfl⟩
  | push f =>
      unfold Channel.push
      split <;> exact ⟨hfin, hunacked⟩
  | feed f | feedEarly p =>
      simp only [feedEarly, Channel.feed, Channel.push]
      split
      · exact ⟨hfin, hunacked⟩
      · split <;> exact ⟨hfin, hunacked⟩
  | acked f =>
      refine ⟨hfin, ?_⟩
      intro hdone
      simp [acked, hunacked hdone]
  | _ => exact ⟨hfin, hunacked⟩

/-- With retransmissions, no byte is put on a ring that is closed. -/
theorem Follows.lost_alter {sent : List Bytes} {ended : Prop} (hc : c.Follows sent ended)
    (hring : c.RingOk) (hrel : cfg.reliability = true)
    (hhand : ∀ f ∈ hand, f.chID = c.id → f.PartOf sent ended) (halter : Alter cfg r hand c c')
    (hlost : c.lost = 0) :
  c'.lost = 0
  := by
  have hfeed : ∀ {c : Channel} {p : Bytes}, c.Follows sent ended → c.RingOk → c.lost = 0 →
      (c.readOffset, p) ∈ chunks 0 sent → (c.feed p).lost = 0 := by
    intro c p hc hring hlost hp
    have hend := end_le_of_mem_chunks hp
    unfold Channel.feed Channel.push
    split
    · exact hlost
    · rename_i hopen
      have hopen : c.closed = false := by simpa using hopen
      split
      · exact hlost
      · rename_i hnone
        rcases hring.ring hnone with hclosed | hread
        · simp [hclosed] at hopen
        · have hoffset := (hc.done hread hopen).2
          simp only
          omega
  cases halter with
  | touch htouch => rw [(Station.unread_touch htouch).2, hlost]
  | fin now | lateFin now | send now p =>
      simp only [closeFin, Channel.lateFin, finish, Channel.send, register]
      split <;> exact hlost
  | retire _ _ hread => exact hring.lost_retire hread hlost
  | refuse f _ _ _ hrel' | push f _ _ _ hrel' | remoteFin f _ _ _ hrel' => simp [hrel] at hrel'
  | feed f hf hflag hid _ _ hoffset =>
      apply hfeed hc hring hlost
      rw [← hoffset]
      exact (hhand f hf hid.symm).data hflag
  | feedEarly p _ hwaiting =>
      obtain ⟨m, hm, hp⟩ := Option.bind_eq_some_iff.mp hwaiting
      refine hfeed (c := { c with reorderMap := c.reorderMap.map (·.erase c.readOffset) })
        (hc.eraseEarly _) ⟨hring.drained, hring.closed, hring.readDone, hring.ring⟩ hlost
        (hc.entries m hm _ _ hp)
  | _ => exact hlost

end Channel

namespace Net

variable {cfg : Side → SessionConfig} {terms : Terms} {n n' : Net}

/-- Every stream of two sessions with retransmissions reaches its reader, which has got what it
has put in order, and has lost none of it. -/
structure Reliable (n : Net) : Prop where
  delivers : ∀ d id, n.Delivers d id
  got : ∀ d, ∀ h < (n.st d).sess.next,
    ((n.st d).sess.heap h).got = ((n.st d).sess.heap h).readOffset
  lost : ∀ d, ∀ h < (n.st d).sess.next, ((n.st d).sess.heap h).lost = 0

theorem Step.reliable (hstep : Step cfg terms n n') (hshape : n.Shape)
    (hrel : ∀ d, (cfg d).reliability = true) (honce : ∀ d id, (terms.rules d).once id)
    (hn : n.Reliable) :
  n'.Reliable
  where
  delivers d id := hstep.delivers hshape hrel (honce d id) (hn.delivers d id)
  got d := by
    rcases hstep.sess_or_move d with hsame | hmove
    · rw [hsame]
      exact hn.got d
    · apply hmove.forall_channel (P := fun c => c.got = c.readOffset) _ _ (hn.got d)
      · intro id _
        rfl
      · intro c c' hc halter
        have hgot := Channel.got_alter (hrel d) halter
        omega
  lost d := by
    rcases hstep.sess_or_move d with hsame | hmove
    · rw [hsame]
      exact hn.lost d
    · intro h hh
      by_cases hlt : h < (n.st d).sess.next
      · rcases hmove.alter hlt with hsame | halter
        · rw [hsame]
          exact hn.lost d h hlt
        · have hdelivers := hn.delivers d.other ((n.st d).sess.heap h).id
          have hfollows := hdelivers.follows
          have harrived := hdelivers.arrived
          rw [Side.other_other] at hfollows harrived
          refine (hfollows h hlt rfl).lost_alter ((hshape.st d).ring h hlt) (hrel d) ?_ halter
            (hn.lost d h hlt)
          intro f hf hid
          exact harrived f (Station.mem_arrived.mpr ⟨.inr hf, hid⟩)
      · rw [hmove.heap_new hh hlt]
        rfl

theorem reliable_init (cfg : Side → SessionConfig) (now : Side → Int) :
  (ofWorld (World.init cfg now)).Reliable
  := by
  constructor
  · exact fun d id => delivers_init cfg now d id
  · intro d h hh
    simp at hh
  · intro d h hh
    simp at hh

section

variable (hn : n.Reliable) (hshape : n.Shape)

include hn hshape

/-- A reader is not ahead of its writer. -/
theorem Reliable.readOffset_le (d : Side) (id : Nat) :
  (n.st d.other).sess.total (· == id) (fun c => c.readOffset)
    ≤ (n.st d).sess.total (· == id) (fun c => c.writeOffset)
  := by
  have hdelivers := hn.delivers d id
  rw [hdelivers.sends.single.total_writeOffset (hshape.st d).streams]
  have hsingle : (n.st d.other).sess.Single id := (hn.delivers d.other id).sends.single
  by_cases hex : ∃ k < (n.st d.other).sess.next, ((n.st d.other).sess.heap k).id = id
  · obtain ⟨k, hk, hid⟩ := hex
    rw [hsingle.total_eq hk hid]
    exact_mod_cast (hdelivers.follows k hk hid).bound
  · rw [total_eq_zero]
    · exact Int.natCast_nonneg _
    · intro k hk hid
      exact absurd ⟨k, hk, by simpa using hid⟩ hex

theorem Reliable.covered (d : Side) (id : Nat) :
  n.Covered d id
  := by
  refine le_trans (total_mono ?_) (hn.readOffset_le hshape d id)
  intro h hh
  have hgot := hn.got d.other h hh
  unfold Channel.got at hgot
  omega

theorem Reliable.coveredSession (hrel : ∀ d, (cfg d).reliability = true) (d : Side) :
  n.CoveredSession cfg d
  := by
  unfold CoveredSession
  rw [hrel, if_pos rfl, add_zero]
  apply total_le_total
  intro id
  refine le_trans (total_mono ?_) (hn.readOffset_le hshape d id)
  intro h hh
  have hgot := hn.got d.other h hh
  unfold Channel.got at hgot
  omega

end

/-! ### Window updates that are not lost -/

/-- The credit of two sessions with retransmissions is accounted for. -/
structure Funded (cfg : Side → SessionConfig) (n : Net) : Prop extends Reliable n where
  stream : ∀ d id, id ≠ 0 → n.StreamOk cfg d id
  session : (∀ d, (cfg d).initialSessionWindow < 2 ^ 31) → ∀ d, n.SessionOk cfg d

theorem Step.funded (hstep : Step cfg terms n n') (hshape : n.Shape)
    (hrel : ∀ d, (cfg d).reliability = true) (honce : ∀ d id, (terms.rules d).once id)
    (hupdates : ∀ d, (terms.rules d).updates) (hn : n.Funded cfg) :
  n'.Funded cfg
  where
  toReliable := hstep.reliable hshape hrel honce hn.toReliable
  stream d id hid := by
    apply hstep.streamOk hshape hid (hn.stream d id hid) (hn.delivers d id).sends.single
      (hn.covered hshape d id) (.inr (hupdates d)) (.inl (hupdates d))
  session hwindow d := by
    apply hstep.sessionOk hshape (hn.session hwindow d) (hwindow d)
      (hn.coveredSession hshape hrel d) (.inr (hupdates d))

/-- Both sessions open each label at most once, and the transport loses no window update. -/
def updateTerms : Terms where
  rules _ := { once := fun _ => True, kept := fun _ => False, updates := True }
  ordered := False

end Net

namespace World

/-- An action that neither loses nor duplicates a window update, nor hands one over for a channel
that is not open. -/
def SparesUpdates (w : World) : Action → Prop
  | .op _ _ => True
  | .flush _ _ => True
  | .recv d i _ | .recvDatagram d i _ =>
      ∀ f ∈ (w.link d.other)[i]?, f.flag = .upd → f.chID ≠ 0 →
        ((w.sess d).channels f.chID).isSome = true
  | .drop d i | .dup d i => ∀ f ∈ (w.link d)[i]?, f.flag ≠ .upd

instance (w : World) (a : Action) : Decidable (w.SparesUpdates a) :=
  match a with
  | .op .. | .flush .. => .isTrue trivial
  | .recv .. | .recvDatagram .. | .drop .. | .dup .. => by
      dsimp only [SparesUpdates]
      infer_instance

variable {cfg : Side → SessionConfig} {w : World}

theorem allows_of_sparesUpdates (hrel : ∀ d, (cfg d).reliability = true) {a : Action}
    (honce : w.OpensOnce a) (hspares : w.SparesUpdates a) :
  Net.Allows cfg Net.updateTerms w a
  := by
  cases a with
  | op d o => exact honce.follows (fun _ _ => not_false) (.inl trivial)
  | flush d picks => trivial
  | recv d i busy =>
      refine ⟨False.elim, ?_, Net.prompt_of_late (fun _ => trivial) w i, .inl (hrel d)⟩
      intro f hf _
      exact hspares f hf
  | recvDatagram d i busy =>
      refine ⟨False.elim, ?_, hrel d⟩
      intro f hf _
      exact hspares f hf
  | drop d i | dup d i =>
      refine ⟨not_false, ?_⟩
      intro f hf hflag
      exact absurd hflag (hspares f hf)

/-- When nothing is in flight and every channel has been read to its end, all of the session credit
is with the writer, or consumed by the reader and not yet returned. -/
theorem session_credit_settled {d : Side} (hrel : ∀ d, (cfg d).reliability = true)
    (hsession : (Net.ofWorld w).SessionOk cfg d) (hcovered : (Net.ofWorld w).CoveredSession cfg d)
    (hlink : w.link d.other = []) (hread : ∀ h < (w.sess d).next,
      (w.sess d).total (· == ((w.sess d).heap h).id) (fun c => c.writeOffset)
        ≤ (w.sess d.other).total (· == ((w.sess d).heap h).id)
          (fun c => c.delivered.length + c.dropped)) :
  (w.sess d).flow.sendCredits + (w.sess d.other).flow.consumed
    + (w.sess d.other).flow.unflushed = (cfg d).initialSessionWindow
  := by
  have hbalance := hsession.balance
  have hge : (w.sess d).total (fun _ => true) (fun c => c.writeOffset)
      ≤ (w.sess d.other).total (fun _ => true) (fun c => c.delivered.length + c.dropped) := by
    apply total_le_total
    intro id
    by_cases hex : ∃ h < (w.sess d).next, ((w.sess d).heap h).id = id
    · obtain ⟨h, hh, rfl⟩ := hex
      exact hread h hh
    · rw [total_eq_zero]
      · apply total_nonneg
        intro k _ _
        omega
      · intro h hh hid
        exact absurd ⟨h, hh, by simpa using hid⟩ hex
  simp only [Net.CoveredSession, Net.ofWorld, hrel, if_true] at hcovered
  simp only [Net.sessionBalance, Station.spentSession, Station.returningSession, Net.ofWorld,
    hrel, credits_nil, List.map_nil, hlink, if_true] at hbalance
  omega

end World

/-! ### Channels that end -/

namespace Net

variable {cfg : Side → SessionConfig} {terms : Terms} {n n' : Net}

/-- The session credit of two sessions with retransmissions is accounted for, and their channels
end only when all of their streams has been received. -/
structure Solvent (cfg : Side → SessionConfig) (n : Net) : Prop extends Reliable n where
  acknowledges : ∀ d id, n.Acknowledges d id
  settled : ∀ d, ∀ h < (n.st d).sess.next, ((n.st d).sess.heap h).Settled
  session : (∀ d, (cfg d).initialSessionWindow < 2 ^ 31) → ∀ d, n.SessionOk cfg d

theorem Step.solvent (hstep : Step cfg terms n n') (hshape : n.Shape)
    (hrel : ∀ d, (cfg d).reliability = true) (hordered : terms.ordered)
    (honce : ∀ d id, (terms.rules d).once id) (hkept : ∀ d id, (terms.rules d).kept id)
    (hn : n.Solvent cfg) :
  n'.Solvent cfg
  where
  toReliable := hstep.reliable hshape hrel honce hn.toReliable
  acknowledges d id :=
    hstep.acknowledges hshape hrel (honce d id) (hkept d id) (hn.acknowledges d id)
  settled d := by
    rcases hstep.sess_or_move d with hsame | hmove
    · rw [hsame]
      exact hn.settled d
    · intro h hh
      by_cases hlt : h < (n.st d).sess.next
      · rcases hmove.alter hlt with hsame | halter
        · rw [hsame]
          exact hn.settled d h hlt
        · exact (hn.settled d h hlt).alter ((hshape.st d).streams h hlt) (hkept d _) halter
      · rw [hmove.heap_new hh hlt]
        constructor <;> intro <;> contradiction
  session hwindow d := by
    apply hstep.sessionOk hshape (hn.session hwindow d) (hwindow d)
      (hn.coveredSession hshape hrel d) (.inl hordered)

/-- A stream whose writer is finalized has been received. -/
theorem Solvent.writeOffset_le (hn : n.Solvent cfg) (hshape : n.Shape) {d : Side} {h : Nat}
    (hh : h < (n.st d).sess.next) (hdone : ((n.st d).sess.heap h).done = true) :
  ∃ k < (n.st d.other).sess.next,
    ((n.st d.other).sess.heap k).id = ((n.st d).sess.heap h).id
      ∧ ((n.st d).sess.heap h).writeOffset ≤ ((n.st d.other).sess.heap k).readOffset
  := by
  have hsettled := hn.settled d h hh
  have hfin := hsettled.finSent (((hshape.st d).streams h hh).finalized hdone).2
  obtain ⟨k, hk, hid, hall⟩ := (hn.acknowledges d _).hasAll hshape hh rfl hfin
    (hsettled.unacked hdone)
  exact ⟨k, hk, hid, hall.received⟩

/-- Both sessions open each label at most once and give up no channel, and the transport is
ordered and lossless. -/
def keptTerms : Terms where
  rules _ := { once := fun _ => True, kept := fun _ => True, updates := False }
  ordered := True

end Net

namespace World

/-- An action that gives up no channel. -/
def KeepsChannels : Action → Prop
  | .op _ (.localClose _) => False
  | _ => True

instance (a : Action) : Decidable (KeepsChannels a) :=
  match a with
  | .op _ (.localClose _) => .isFalse id
  | .op _ (.openChannel _) | .op _ (.write ..) | .op _ (.read ..) | .op _ (.writeTo ..)
  | .op _ (.closeWrite ..) | .op _ (.close ..) | .op _ (.lateFin _) | .op _ (.ackTimer _)
  | .op _ .arqTick | .op _ (.retransmitAllUnacked _) | .op _ .prune | .op _ .ping
  | .op _ (.lateWrite _) | .op _ (.lateCtrl _) | .op _ (.tick _) => .isTrue trivial
  | .flush .. | .recv .. | .recvDatagram .. | .drop .. | .dup .. => .isTrue trivial

end World

end Muxocket
