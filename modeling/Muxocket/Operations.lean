import Muxocket.Labels
import Muxocket.Lib.Run
import Muxocket.Moves

/-!
# Complete operations

The complete operations of a session, the receipt of a frame and the batches of the writer
are sequences of moves, from a session that is open and has nothing in hand to one that has
nothing in hand.
-/

namespace Muxocket

open Session
open Channel (closeFin feedEarly finish refuse register send)

/-- The table of a session leads to channels of its heap that can reassemble. -/
def Session.Tabled (s : Session) : Prop :=
  ∀ id h, s.channels id = some h →
    h < s.next ∧ (s.heap h).id = id ∧ (s.heap h).reorderMap.isSome = true

/-- A channel that is not finalized, and that waits for an acknowledgement before it can be. -/
def Channel.Fresh (c : Channel) : Prop :=
  c.reorderMap.isSome = true ∧ (c.finQueued = true → c.unacked ≠ [])

/-- A frame as a writer makes it: data, and nothing else, has a payload, of the length the
header says. -/
def PacketFrame.Sound (f : PacketFrame) : Prop :=
  if f.flag = .data then f.dataLength = f.data.length else f.data = []

/-- A frame for the writer that takes its fields from at most one place. -/
def WriteFrame.OneRef (f : WriteFrame) : Prop :=
  f.ackCh = none ∧ f.streamFlow = none ∨ f.ackCh = none ∧ f.sessionFlow = false
    ∨ f.streamFlow = none ∧ f.sessionFlow = false

/-- What the rules ask of an operation of a session. -/
def Op.Follows (r : Rules) (s : Session) : Op → Prop
  | .openChannel label =>
      ∀ id, stringToUint32 label = some id → r.once id → ∀ h < s.next, (s.heap h).id ≠ id
  | .localClose h => ¬ r.kept (s.heap h).id
  | .read _ _ => r.reads
  | .writeTo _ _ => r.reads
  | _ => True

/-! ### Channels keep their identifiers -/

theorem Alter.id_eq {cfg : SessionConfig} {r : Rules} {hand : List PacketFrame} {c c' : Channel}
    (h : Alter cfg r hand c c') :
  c'.id = c.id
  := by
  cases h with
  | touch htouch => exact htouch.keeps.id
  | fin now => simp [closeFin, finish]
  | lateFin now => simp [Channel.lateFin, finish]
  | send now p => simp [Channel.send]
  | retire | push f | feed f => simp
  | feedEarly p => simp [Channel.feedEarly]
  | _ => rfl

namespace Station

variable {cfg : SessionConfig} {r : Rules}

variable {t t' : Station} {h : Nat} {f : PacketFrame} {rest : List PacketFrame} {s s' : Session}
  {picks : List Bool} {frames : List WriteFrame}

/-- Moves keep the identifiers of channels. -/
theorem Move.id_eq (hm : Move cfg r t t') {k : Nat} (hk : k < t.sess.next) :
  (t'.sess.heap k).id = (t.sess.heap k).id
  := by
  rcases hm.alter hk with hsame | halter
  · rw [hsame]
  · apply halter.id_eq

theorem Moves.id_eq (hm : Moves cfg r t t') {k : Nat} (hk : k < t.sess.next) :
  (t'.sess.heap k).id = (t.sess.heap k).id
  := by
  induction hm with
  | refl => rfl
  | tail hmoves hmove ih =>
      rw [hmove.id_eq (lt_of_lt_of_le hk (Moves.closed_next hmoves).2), ih]

/-! ### Receiving on an open channel -/

theorem creditDiscarded_eq (hrel : cfg.reliability = false) (n : Nat) (s : Session) :
  s.creditDiscarded cfg n = s.creditSession cfg n
  := by
  unfold creditDiscarded creditSession
  by_cases henabled : s.flow.enabled = true
  · by_cases hn : n = 0
    · simp [hn]
    · have hpos : 0 < n := by omega
      simp [hrel, henabled, hn, hpos]
  · simp [henabled]

/-- Data arrives without retransmissions. -/
theorem moves_feedOrCredit (hrel : cfg.reliability = false) (hopen : t.sess.closed = false)
    (hh : h < t.sess.next) (hhand : t.hand = f :: rest) (hflag : f.flag = .data)
    (hid : (t.sess.heap h).id = f.chID) :
  Moves cfg r t ((t.withHand rest).put (t.sess.feedOrCredit cfg h f.data))
  := by
  unfold feedOrCredit feed takes
  by_cases hclosed : (t.sess.heap h).closed = true
  · simp only [hclosed, hrel, Bool.not_true, Bool.false_and, Bool.false_eq_true, if_false,
      not_false_eq_true, and_self, if_true, creditDiscarded_eq]
    apply Moves.andThen (moves_resetPeer hh hclosed false) hopen hh
    intro hopen₁ hh₁
    obtain ⟨lastRst, hheap⟩ := heap_resetPeer cfg t.sess false h
    have hmove : Move cfg r (t.put (t.sess.resetPeer cfg false h)) _ :=
      Move.refuse f rest h hhand hflag hh₁ (by simp [put, hheap, hid]) hrel
        (by simp [put, hheap, hclosed])
    refine .head hmove ?_
    apply moves_creditSession (t := (t.withHand rest).put
      ((t.sess.resetPeer cfg false h).update h (refuse f.data.length))) hopen₁
  · simp only [hclosed, hopen, Bool.not_false, Bool.and_self, if_true]
    exact .single (Move.push f rest h hhand hflag hh hid hrel (by simpa using hclosed))

section

variable (hopen : t.sess.closed = false) (hh : h < t.sess.next) (hhand : t.hand = f :: rest)

include hopen hh hhand

/-- Data arrives. -/
theorem moves_receiveData (hflag : f.flag = .data) (hid : (t.sess.heap h).id = f.chID)
    (hmap : cfg.reliability = true → (t.sess.heap h).reorderMap.isSome = true)
    (hfeeding : t.feeding = none) :
  Moves cfg r t ((t.withHand rest).put (t.sess.receiveData cfg h f.offset f.data))
  := by
  unfold receiveData
  split
  · rename_i hrel
    apply moves_feedReliablePayload hrel hopen hh hhand hflag hid (hmap hrel) hfeeding
  · rename_i hrel
    apply moves_feedOrCredit (by simpa using hrel) hopen hh hhand hflag hid

/-- The end of a stream arrives. -/
theorem moves_receiveEnd (hflag : f.flag = .fin) (hid : (t.sess.heap h).id = f.chID) :
  Moves cfg r t ((t.withHand rest).put (t.sess.receiveEnd cfg h f.offset))
  := by
  unfold receiveEnd
  split
  · rename_i hrel
    apply moves_handleFinReliable hrel hopen hh hhand hflag hid
  · rename_i hrel
    have hmove : Move cfg r t _ :=
      Move.remoteFin f rest h hhand hflag hh hid (by simpa using hrel)
    apply Moves.andThen (.single hmove) hopen hh
    intro hopen' hh'
    apply moves_maybeFinalize hopen' hh'

end

/-! ### Opening -/

/-- The channel `h` of a session with retransmissions has been opened, and no acknowledgement
for it has come: it is not finalized, for the end of its stream is not acknowledged. -/
def Fresh (h : Nat) (t : Station) : Prop :=
  h < t.sess.next ∧ (t.sess.heap h).Fresh ∧ ∀ f ∈ t.hand, f.flag ≠ .ack

/-- The rules of a run of which nothing is known but that no channel is given up. -/
def Rules.calm : Rules where
  once _ := False
  kept _ := True
  updates := False

/-- A fresh channel stays so without acknowledgements. -/
theorem fresh_alter (hrel : cfg.reliability = true) {hand : List PacketFrame} {c c' : Channel}
    (halter : Alter cfg Rules.calm hand c c') (hhand : ∀ f ∈ hand, f.flag ≠ .ack) (hc : c.Fresh) :
  c'.Fresh
  := by
  obtain ⟨hmap, hfin⟩ := hc
  cases halter with
  | touch htouch =>
      cases htouch with
      | alike halike =>
          rw [halike]
          exact ⟨hmap, hfin⟩
      | abandon hkept => exact absurd trivial hkept
      | @retime us hus =>
          refine ⟨hmap, ?_⟩
          intro hfinQueued hempty
          apply hfin hfinQueued
          have hempty : us = [] := hempty
          simpa [hempty] using hus.symm
      | _ => exact ⟨hmap, hfin⟩
  | fin now =>
      simpa [Channel.Fresh, closeFin, finish, register, hrel] using hmap
  | lateFin now =>
      simpa [Channel.Fresh, Channel.lateFin, finish, register, hrel] using hmap
  | send now p => simpa [Channel.Fresh, send, register, hrel] using hmap
  | giveUp hkept => exact absurd trivial hkept
  | retire hdone hfinQueued hread hunacked =>
      rcases hunacked with hunacked | hkept
      · exact absurd hunacked (hfin hfinQueued)
      · exact absurd trivial hkept
  | push f hf hflag hid hnrel => simp [hrel] at hnrel
  | feed f =>
      unfold Channel.feed Channel.push
      grind [Channel.Fresh]
  | feedEarly p =>
      unfold feedEarly Channel.feed Channel.push
      grind [Channel.Fresh]
  | keepEarly f =>
      unfold Channel.keepEarly
      refine ⟨?_, hfin⟩
      simpa using hmap
  | acked f hf hflag => exact absurd hflag (hhand f hf)
  | _ => exact ⟨hmap, hfin⟩

/-- What is in hand was, or is an early frame. -/
theorem Move.mem_hand (hm : Move cfg r t t') (hf : f ∈ t'.hand) :
  f ∈ t.hand
    ∨ ∃ id q g, t.sess.pending.lookup id = some q ∧ g ∈ q.frames ∧ f = g.packet id
  := by
  cases hm with
  | unstash id q hq =>
      rcases List.mem_append.mp hf with hf | hf
      · obtain ⟨g, hg, rfl⟩ := List.mem_map.mp hf
        right
        exact ⟨id, q, g, hq, hg, rfl⟩
      · left
        apply hf
  | stash g rest hhand | discard g rest hhand | pass g rest hhand | refuse g rest h hhand
  | push g rest h hhand | remoteFin g rest h hhand | feed g rest h hhand | early g rest h m hhand
  | gotFin g rest h hhand | reset g rest h hhand | acked g rest h hhand | updStream g rest h hhand
  | updSession g rest hhand | updLate g rest hhand =>
      left
      rw [hhand]
      apply List.mem_cons_of_mem _ hf
  | _ => exact .inl hf

theorem Move.fresh (hrel : cfg.reliability = true) (hm : Move cfg Rules.calm t t')
    (hfresh : t.Fresh h) :
  t'.Fresh h
  := by
  obtain ⟨hh, hfresh, hhand⟩ := hfresh
  refine ⟨lt_of_lt_of_le hh hm.closed_next.2, ?_, ?_⟩
  · rcases hm.alter hh with hsame | halter
    · rw [hsame]
      apply hfresh
    · apply fresh_alter hrel halter hhand hfresh
  · intro f hf
    rcases hm.mem_hand hf with hf | ⟨id, q, g, hq, hg, rfl⟩
    · apply hhand f hf
    · have := g.early
      simp only [PendingFrame.packet]
      grind

theorem Moves.fresh (hrel : cfg.reliability = true) (hm : Moves cfg Rules.calm t t')
    (hfresh : t.Fresh h) :
  t'.Fresh h
  := by
  induction hm with
  | refl => apply hfresh
  | tail _ hmove ih => apply hmove.fresh hrel ih

/-- A channel without retransmissions that has been opened, and that ends its own stream only
when it is reset. -/
def Obedient (c : Channel) : Prop :=
  c.finQueued = true ∨ c.reorderMap = none → c.resetByPeer = true

theorem obedient_maybeFinalize (hs : Obedient (s.heap h)) :
  Obedient ((s.maybeFinalize cfg h).heap h)
  := by
  unfold maybeFinalize finalize
  split
  · rename_i hcond
    split
    · exact hs
    · intro _
      have hreset := hs (.inl hcond.1)
      simp only [heap_removeChannelIf, heap_update_self, closeRing,
        cleanupReliability]
      split <;> split <;> simpa [arqRemove] using hreset
  · exact hs

/-- Data does not end the own stream. -/
theorem obedient_feedOrCredit (p : Bytes) (hs : Obedient (s.heap h)) :
  Obedient ((s.feedOrCredit cfg h p).heap h)
  := by
  have hcredit : ∀ s : Session, (s.creditDiscarded cfg p.length).heap = s.heap := by
    intro s
    rw [paid_creditDiscarded cfg p.length s]
  have hfeed : Obedient ((s.feed cfg h p).heap h) := by
    unfold feed
    split
    · rw [push, heap_update_self]
      unfold Channel.push
      split <;> exact hs
    · split
      · obtain ⟨_, hheap⟩ := heap_resetPeer cfg s false h
        rw [hheap]
        exact hs
      · exact hs
  unfold feedOrCredit
  dsimp only
  split
  · exact hfeed
  · rw [hcredit, heap_update_self]
    exact hfeed

theorem reset_closeWrite (busy : Bool) (hs : (s.heap h).resetByPeer = true) :
  ((s.closeWrite cfg busy h).heap h).resetByPeer = true
  := by
  unfold closeWrite sendFinLocked writeDataFrameNonBlocking
    registerUnacked
  grind [heap_update_self, update, arqAdd]

/-- Early frames end the stream of a channel without retransmissions only by resetting it. -/
theorem obedient_deliver (hrel : cfg.reliability = false) (f : PendingFrame)
    (hs : Obedient (s.heap h)) :
  Obedient ((s.deliver cfg h f).heap h)
  := by
  unfold deliver
  split
  · rw [receiveData, if_neg (by simp [hrel])]
    apply obedient_feedOrCredit _ hs
  · rw [receiveEnd, if_neg (by simp [hrel]), remoteClose]
    apply obedient_maybeFinalize
    rw [heap_update_self]
    exact hs
  · apply obedient_maybeFinalize
    intro _
    apply reset_closeWrite
    simp
  · exact hs

section

variable (hopen : t.sess.closed = false) (hh : h < t.sess.next)
  (hfresh : cfg.reliability = true → t.Fresh h)
  (hobedient : cfg.reliability = false → Obedient (t.sess.heap h))

include hopen hh hfresh hobedient

/-- An early frame is delivered. -/
theorem moves_deliver {f : PendingFrame} (hhand : t.hand = f.packet (t.sess.heap h).id :: rest)
    (hfeeding : t.feeding = none) :
  Moves cfg r t ((t.withHand rest).put (t.sess.deliver cfg h f))
  := by
  unfold deliver
  split
  · rename_i hflag
    apply moves_receiveData (f := f.packet (t.sess.heap h).id) hopen hh hhand hflag rfl
      (fun hrel => (hfresh hrel).2.1.1) hfeeding
  · rename_i hflag
    apply moves_receiveEnd (f := f.packet (t.sess.heap h).id) hopen hh hhand hflag rfl
  · rename_i hflag
    apply moves_peerReset (f := f.packet (t.sess.heap h).id) hopen hh hhand hflag rfl
    cases hrel : cfg.reliability with
    | true => exact .inl (hfresh hrel).2.1.1
    | false =>
        cases hmap : (t.sess.heap h).reorderMap with
        | some m => exact .inl rfl
        | none => exact .inr (hobedient hrel (.inr hmap))
  · have := f.early
    grind

/-- The early frames of a channel are delivered. -/
theorem moves_deliverPending {frames : List PendingFrame}
    (hhand : t.hand = frames.map (PendingFrame.packet (t.sess.heap h).id) ++ rest)
    (hfeeding : t.feeding = none) :
  Moves cfg r t ((t.withHand rest).put (t.sess.deliverPending cfg h frames))
  := by
  induction frames generalizing t with
  | nil =>
      obtain rfl : t.hand = rest := by simpa using hhand
      exact .refl
  | cons f frames ih =>
      have hfirst : ∀ r : Rules, Moves cfg r t _ :=
        fun r => moves_deliver hopen hh hfresh hobedient hhand hfeeding
      apply Moves.andThen (hfirst r) hopen hh
      intro hopen' hh'
      apply ih hopen' hh'
      · intro hrel
        apply Moves.fresh hrel (hfirst Rules.calm) (hfresh hrel)
      · intro hrel
        apply obedient_deliver hrel f (hobedient hrel)
      · rw [(hfirst r).id_eq hh]
        rfl
      · apply hfeeding

end

/-- The early frames kept for a channel are delivered when it has been published. -/
theorem moves_published (hopen : t.sess.closed = false) (id : Nat) (frames : List PendingFrame)
    (hhand : t.hand = frames.map (PendingFrame.packet id)) (hfeeding : t.feeding = none) :
  Moves cfg r (t.put (t.sess.publish cfg id))
    ((t.withHand []).put ((t.sess.publish cfg id).deliverPending cfg t.sess.next frames))
  := by
  have hchannel : (t.sess.publish cfg id).heap t.sess.next = newChannel cfg id := by
    simp [publish]
  have hnew : t.sess.next < (t.sess.publish cfg id).next := Nat.lt_succ_self _
  apply moves_deliverPending (t := t.put (t.sess.publish cfg id)) hopen hnew
  · intro _
    refine ⟨hnew, ?_, ?_⟩
    · simp [put, hchannel, Channel.Fresh]
    · intro f hf
      obtain ⟨g, -, rfl⟩ : ∃ g, g ∈ frames ∧ g.packet id = f := by
        simpa [put, hhand] using hf
      have := g.early
      simp only [PendingFrame.packet]
      grind
  · intro _
    simp [put, hchannel, Obedient]
  · simp [put, hchannel, hhand]
  · apply hfeeding

/-- A channel that is not open is opened in three parts: the early frames kept for it are taken
or dropped, it is published, and the frames that were taken are delivered. -/
theorem exists_openID (hopen : t.sess.closed = false) (hhand : t.hand = [])
    (hfeeding : t.feeding = none) {id : Nat} (hs : t.sess.openID cfg id = some s) :
  ∃ t₁ : Station,
    (∀ r : Rules, (r.once id → ∀ h < t.sess.next, (t.sess.heap h).id ≠ id) → Moves cfg r t t₁)
    ∧ (∀ r : Rules, Moves cfg r (t₁.put (t₁.sess.publish cfg id)) (t.put s))
    ∧ t₁.sess.heap = t.sess.heap ∧ t₁.sess.next = t.sess.next
    ∧ t₁.sess.channels id = none ∧ t₁.sess.pending.lookup id = none
  := by
  unfold openID at hs
  split at hs
  · contradiction
  · rename_i hcond
    have hnone : t.sess.channels id = none := by
      simpa [hopen] using hcond
    split at hs
    · rename_i hlookup
      cases hs
      exact ⟨t, fun _ _ => .refl, fun _ => .refl, rfl, rfl, hnone, hlookup⟩
    · rename_i q hlookup
      split at hs
      · cases hs
        refine ⟨_, fun r _ => moves_releasePendingLocked hopen hlookup, fun _ => .refl, ?_⟩
        rw [put, pending_releasePendingLocked, beside_releasePendingLocked cfg id q t.sess]
        exact ⟨rfl, rfl, hnone, by simp⟩
      · cases hs
        refine ⟨_, fun r honce => .single (Move.unstash id q hlookup honce), fun r => ?_, rfl, rfl,
          hnone, by simp⟩
        have hdeliver : Moves cfg r _ _ := moves_published
          (t := { t with
            sess := { t.sess with pendingBytes := t.sess.pendingBytes - q.bytes
                                  pending := t.sess.pending.erase id }
            hand := q.frames.map (PendingFrame.packet id) ++ t.hand })
          hopen id q.frames (by simp [hhand]) hfeeding
        apply hdeliver.of_eq
        simp [put, withHand, hhand]

/-- Opening a channel that is not open. -/
theorem moves_openID (hopen : t.sess.closed = false) (hhand : t.hand = [])
    (hfeeding : t.feeding = none) {id : Nat} (hid : id ≠ 0)
    (honce : r.once id → ∀ h < t.sess.next, (t.sess.heap h).id ≠ id)
    (hs : t.sess.openID cfg id = some s) :
  Moves cfg r t (t.put s)
  := by
  obtain ⟨t₁, hfirst, hlast, hheap, hnext, hnone, hlookup⟩ :=
    exists_openID hopen hhand hfeeding hs
  have hpublish : Move cfg r t₁ _ := Move.publish id hid hnone hlookup (by rwa [hheap, hnext])
  exact (hfirst r honce).trans (.head hpublish (hlast r))

/-! ### Writing and reading -/

/-- What is granted is within both windows. -/
theorem grantedCredits_bounds {sf : Flow} {ss : SessionFlow} {d take : Int} (hd : 0 < d)
    (htake : grantedCredits sf ss d = some take) :
  0 < take ∧ take ≤ d ∧ take ≤ sf.sendCredits ∧ (ss.enabled = true → take ≤ ss.sendCredits)
  := by
  unfold grantedCredits at htake
  by_cases henabled : ss.enabled = true
  · simp only [henabled, if_true, Option.ite_none_left_eq_some, Option.some.injEq] at htake ⊢
    omega
  · simp only [henabled, Bool.false_eq_true, if_false, Option.ite_none_left_eq_some,
      Option.some.injEq, false_implies, and_true] at htake ⊢
    omega

theorem tryDeduct_eq {n : Int} {sf sf' : Flow} (h : sf.tryDeduct n = some sf') :
  sf' = sf.deduct n
  := by
  unfold Flow.tryDeduct at h
  split at h
  · contradiction
  · exact (Option.some.inj h).symm

/-- Credit that is granted is positive and at most what was asked for, and both windows had
it. -/
theorem acquireCredits_granted {d sz : Nat} (hd : 0 < d) (hlt : d < 2 ^ 31)
    (hs : s.acquireCredits h d = .granted sz s') :
  0 < sz ∧ sz ≤ d ∧ (s.heap h).closed = false ∧ (s.heap h).writeClosed = false
    ∧ (sz : Int) ≤ (s.heap h).flow.sendCredits
    ∧ (s.flow.enabled = true → (sz : Int) ≤ s.flow.sendCredits)
    ∧ s' = { s with flow := { s.flow with toFlow :=
        if s.flow.enabled then s.flow.deduct sz else s.flow.toFlow } }.update h fun c =>
          { c with flow := c.flow.deduct sz }
  := by
  unfold acquireCredits at hs
  dsimp only at hs
  split at hs
  · contradiction
  · rename_i hcond
    simp only [not_or, Bool.not_eq_true] at hcond
    split at hs
    · contradiction
    · rename_i take htake
      rw [int32_of_mem (by omega) (by omega)] at htake
      obtain ⟨hpos, hle, hstream, hsess⟩ := grantedCredits_bounds (by omega) htake
      have hcast : ((take.toNat : Nat) : Int) = take := Int.toNat_of_nonneg hpos.le
      split at hs
      · rename_i ss sf hss hsf
        injection hs with hsz hs
        subst hsz
        have hsession : ss = if s.flow.enabled then s.flow.deduct take else s.flow.toFlow := by
          split at hss
          · rename_i henabled
            rw [if_pos henabled, tryDeduct_eq hss]
          · rename_i henabled
            rw [if_neg henabled]
            exact (Option.some.inj hss).symm
        rw [hcast]
        refine ⟨by omega, by omega, hcond.1, hcond.2.1, hstream, hsess, ?_⟩
        rw [← hs, tryDeduct_eq hsf, hsession]
        rfl
      · contradiction

/-- A turn of the loop of a writer spends credit for a chunk and queues it. -/
theorem writeChunk_open {b : Bytes} (hopen : s.closed = false)
    (hs : s.writeChunk cfg h b = some s') :
  ∃ p, p ≠ [] ∧ (s.heap h).closed = false ∧ (s.heap h).writeClosed = false
    ∧ (p.length : Int) ≤ (s.heap h).flow.sendCredits
    ∧ (s.flow.enabled = true → (p.length : Int) ≤ s.flow.sendCredits)
    ∧ s' = s.spend cfg h p
  := by
  unfold writeChunk at hs
  split at hs
  · contradiction
  · rename_i hb
    split at hs
    · rename_i sz s₁ hacquire
      have hlength : 0 < b.length := List.length_pos_iff.mpr hb
      have hframe := cfg.frame_pos
      have hmax : cfg.maxFrameDataSize ≤ 262144 := cfg.frame_le
      obtain ⟨hpos, hle, hclosed, hw, hstream, hsess, rfl⟩ :=
        acquireCredits_granted (by omega) (by omega) hacquire
      have hp : (b.take sz).length = sz := by
        rw [List.length_take]
        omega
      cases hs
      refine ⟨b.take sz, ?_, hclosed, hw, by rwa [hp], by rwa [hp], ?_⟩
      · intro hnil
        simp [hnil] at hp
        omega
      · unfold queueDataLocked spend registerUnacked arqJoin
          send register
        by_cases hrel : cfg.reliability = true
        · by_cases harq : (s.heap h).inARQ = true
          · simp [hrel, harq, writeDataFrame, hopen, update, hp]
          · simp [hrel, harq, writeDataFrame, hopen, update, hp, arqAdd]
        · simp [hrel, writeDataFrame, hopen, update, hp]
    · contradiction
    · contradiction

/-- What is taken and what is left is what there was. -/
theorem takeBytes_flatten (n : Nat) (bufs : List Bytes) :
  bufs.flatten = (takeBytes n bufs).1 ++ (takeBytes n bufs).2.flatten
  := by
  induction bufs generalizing n with
  | nil => rfl
  | cons b bufs ih =>
      unfold takeBytes
      split
      · simp only [List.flatten_cons, List.append_assoc]
        rw [← ih]
      · simp only [List.flatten_cons]
        rw [← List.append_assoc, List.take_append_drop]

theorem takeBytes_eq_nil {n : Nat} (hn : 0 < n) {bufs : List Bytes}
    (h : (takeBytes n bufs).1 = []) :
  bufs.flatten = []
  := by
  induction bufs generalizing n with
  | nil => rfl
  | cons b bufs ih =>
      unfold takeBytes at h
      split at h
      · simp only [List.append_eq_nil_iff] at h
        obtain ⟨rfl, hrest⟩ := h
        simpa using ih (n := n) hn (by simpa using hrest)
      · simp only [List.take_eq_nil_iff] at h
        rcases h with h | rfl
        · omega
        · simp at *

/-- An empty buffer at the front of a ring is dropped. -/
theorem moves_consumeEmpty (hh : h < t.sess.next) (hreads : r.reads) {bufs : List Bytes}
    (hbufs : (t.sess.heap h).buffers = [] :: bufs) :
  Moves cfg r t (t.put (t.sess.consumeRing cfg h [] bufs))
  := by
  have htrim : t.sess.consumeRing cfg h [] bufs
      = t.sess.update h fun c => { c with ring := some bufs } := by
    simp [consumeRing, streamOnRead]
  rw [htrim]
  apply moves_touch hh (fun c => { c with ring := some bufs })
  apply Touch.trim hreads
  · unfold Channel.buffers at hbufs
    cases hring : (t.sess.heap h).ring with
    | none => simp [hring] at hbufs
    | some _ => rfl
  · simp [hbufs]

section

variable (hopen : t.sess.closed = false) (hh : h < t.sess.next) (hreads : r.reads)

include hopen hh hreads

/-- Data is read off a ring. -/
theorem moves_consumeRing {p : Bytes} {bufs : List Bytes}
    (hbufs : (t.sess.heap h).buffers.flatten = p ++ bufs.flatten) (hp : p ≠ []) :
  Moves cfg r t (t.put (t.sess.consumeRing cfg h p bufs))
  := by
  rw [consumeRing_open hopen h hp]
  have hmove : Move cfg r t _ := Move.take h p bufs hh hreads hbufs hp
  refine .head hmove ?_
  apply moves_creditSession (t := t.put (t.sess.takeCore cfg h p bufs)) hopen

/-- A channel is read. -/
theorem moves_Read (n : Nat) :
  Moves cfg r t (t.put (t.sess.Read cfg h n).2)
  := by
  unfold Session.Read
  split
  · exact .refl
  · rename_i hn
    split
    · exact .refl
    · dsimp only
      split
      · rename_i hp
        apply moves_consumeRing hopen hh hreads (takeBytes_flatten n _) hp
      · rename_i hp
        split
        · rename_i hread
          apply moves_touch hh (fun c => { c with ring := none })
          apply Touch.eof hreads hread
          apply takeBytes_eq_nil (by omega : 0 < n)
          simpa using hp
        · exact .refl

/-- The front of a ring is written elsewhere. -/
theorem moves_writeToChunk (n : Nat) :
  Moves cfg r t (t.put (t.sess.writeToChunk cfg h n))
  := by
  unfold writeToChunk
  split
  · exact .refl
  · split
    · exact .refl
    · rename_i b bufs hbufs
      split
      · exact .refl
      · rename_i hn
        split
        · rename_i hlt
          apply moves_consumeRing hopen hh hreads
          · simp only [hbufs, List.flatten_cons]
            rw [← List.append_assoc, List.take_append_drop]
          · intro hnil
            rw [List.take_eq_nil_iff] at hnil
            grind
        · by_cases hb : b = []
          · subst hb
            apply moves_consumeEmpty hh hreads hbufs
          · apply moves_consumeRing hopen hh hreads (by simp [hbufs]) hb

end

/-! ### Receiving a frame -/

section

variable (hopen : t.sess.closed = false) (hhand : t.hand = f :: rest)
  (hnone : t.sess.channels f.chID = none)

include hopen hhand hnone

/-- An early frame is kept, or there is no room for it. -/
theorem moves_stashLocked (early : f.flag = .data ∨ (f.flag = .fin ∨ f.flag = .rst) ∧ f.data = [])
    {b : Bool} (hs : t.sess.stashLocked cfg f.chID
      { flag := f.flag, offset := f.offset, data := f.data, early := early } = (b, s)) :
  if b then Moves cfg r t ((t.withHand rest).put s)
  else Moves cfg r t (t.put s) ∧ s.closed = false
  := by
  unfold stashLocked at hs
  dsimp only at hs
  split at hs
  · obtain ⟨rfl, rfl⟩ := Prod.mk.inj hs
    exact ⟨.refl, hopen⟩
  · obtain ⟨ids, hids⟩ := recentlyClosedLocked_eq f.chID t.sess
    rw [hids] at hs
    have hprune : Moves cfg r t (t.put ({ t.sess with closedIDs := ids }.pruneLocked cfg)) :=
      (moves_clock t ids).trans
        (moves_pruneLocked (t := t.put { t.sess with closedIDs := ids }) hopen)
    have hopen' : ({ t.sess with closedIDs := ids }.pruneLocked cfg).closed = false := by
      simp [hopen]
    have hnone' : ({ t.sess with closedIDs := ids }.pruneLocked cfg).channels f.chID = none := by
      rw [beside_pruneLocked cfg _]
      apply hnone
    generalize { t.sess with closedIDs := ids }.pruneLocked cfg = s₁ at *
    split at hs
    · obtain ⟨rfl, rfl⟩ := Prod.mk.inj hs
      have hmove : Move cfg r (t.put s₁) _ := Move.stash (t := t.put s₁) f rest hhand hnone' early
      apply hprune.tail hmove
    · obtain ⟨rfl, rfl⟩ := Prod.mk.inj hs
      exact ⟨hprune, hopen'⟩

/-- A frame that is not kept is dropped. -/
theorem moves_stash_or_pass (early : (f.flag = .fin ∨ f.flag = .rst) ∧ f.data = []) :
  Moves cfg r t ((t.withHand rest).put (t.sess.stashLocked cfg f.chID
    { flag := f.flag, offset := f.offset, data := f.data, early := .inr early }).2)
  := by
  generalize hs : t.sess.stashLocked cfg f.chID _ = res
  have hmoves := moves_stashLocked (r := r) hopen hhand hnone (.inr early) (b := res.1) hs
  split at hmoves
  · apply hmoves
  · apply hmoves.1.trans
    apply moves_pass (t := t.put res.2) hhand (by grind) (by grind)

end

section

variable (hopen : t.sess.closed = false) (htabled : t.sess.Tabled) (hhand : t.hand = f :: rest)

include hopen htabled hhand

/-- The end of a stream arrives, known or early. -/
theorem moves_receiveFin (hflag : f.flag = .fin) (hdata : f.data = []) :
  Moves cfg r t ((t.withHand rest).put (t.sess.receiveFin cfg f.chID f.offset))
  := by
  have hpass : Moves cfg r t (t.withHand rest) :=
    moves_pass hhand (by simp [hflag]) (by simp [hflag])
  unfold receiveFin
  split
  · rename_i h hchannel
    obtain ⟨hh, hid, -⟩ := htabled _ _ hchannel
    apply moves_receiveEnd hopen hh hhand hflag hid
  · rename_i hnone
    split
    · apply hpass
    · obtain ⟨ids, hids⟩ := recentlyClosedLocked_eq f.chID t.sess
      rw [hids]
      apply (moves_clock t ids).trans
      have hstash : Moves cfg r _ _ := moves_stash_or_pass
        (t := t.put { t.sess with closedIDs := ids }) hopen hhand hnone ⟨.inl hflag, hdata⟩
      simp only [hflag, hdata] at hstash
      apply hstash

/-- A reset arrives. -/
theorem moves_receiveRst (hflag : f.flag = .rst) (hdata : f.data = []) (busy : Bool) :
  Moves cfg r t ((t.withHand rest).put (t.sess.receiveRst cfg busy f.chID f.offset))
  := by
  have hpass : Moves cfg r t (t.withHand rest) :=
    moves_pass hhand (by simp [hflag]) (by simp [hflag])
  unfold receiveRst
  split
  · rename_i h hchannel
    obtain ⟨hh, hid, hmap⟩ := htabled _ _ hchannel
    apply moves_peerReset hopen hh hhand hflag hid (.inl hmap)
  · rename_i hnone
    split
    · apply hpass
    · split
      · have hstash : Moves cfg r t _ := moves_stash_or_pass hopen hhand hnone
          ⟨.inr hflag, hdata⟩
        simp only [hflag, hdata] at hstash
        apply hstash
      · apply hpass

end

/-- Credit arrives. -/
theorem moves_receiveUpd (htabled : t.sess.Tabled) (hhand : t.hand = f :: rest)
    (hflag : f.flag = .upd)
    (hlate : r.updates → f.chID ≠ 0 → (t.sess.channels f.chID).isSome = true) :
  Moves cfg r t ((t.withHand rest).put (t.sess.receiveUpd f.chID f.dataLength))
  := by
  unfold receiveUpd
  split
  · rename_i hid
    exact .single (Move.updSession f rest hhand hflag hid)
  · rename_i hid
    split
    · rename_i h hchannel
      obtain ⟨hh, heq, -⟩ := htabled _ _ hchannel
      exact .single (Move.updStream f rest h hhand hflag hh heq)
    · rename_i hnone
      apply Relation.ReflTransGen.single
      apply Move.updLate f rest hhand hflag hid hnone
      intro hupdates
      simpa [hnone] using hlate hupdates hid

/-- A frame both readers treat alike. -/
theorem moves_receiveControl (hopen : t.sess.closed = false) (htabled : t.sess.Tabled)
    (hhand : t.hand = f :: rest) (hsound : f.Sound) (hflag : f.flag ≠ .data)
    (hlate : r.updates → f.flag = .upd → f.chID ≠ 0 → (t.sess.channels f.chID).isSome = true)
    (busy : Bool) (hgoaway : f.flag ≠ .goaway) :
  Moves cfg r t ((t.withHand rest).put (t.sess.receiveControl cfg busy f).2)
  := by
  have hdata : f.data = [] := by
    simpa [PacketFrame.Sound, hflag] using hsound
  have hpass : f.flag ≠ .upd → Moves cfg r t (t.withHand rest) :=
    fun hupd => moves_pass hhand hupd (.inr (.inl hflag))
  unfold receiveControl
  cases hf : f.flag with
  | ack =>
      dsimp only
      unfold receiveAck
      split
      · split
        · rename_i h hchannel
          obtain ⟨hh, hid, -⟩ := htabled _ _ hchannel
          apply moves_onAck hopen hh hhand hf hid
        · apply hpass (by simp [hf])
      · apply hpass (by simp [hf])
  | upd => apply moves_receiveUpd htabled hhand hf (fun hupdates => hlate hupdates hf)
  | fin => apply moves_receiveFin hopen htabled hhand hf hdata
  | rst => apply moves_receiveRst hopen htabled hhand hf hdata
  | ping =>
      apply (hpass (by simp [hf])).trans
      apply moves_offerControlFrame (t.withHand rest) ⟨.inr (.inr rfl), rfl⟩
      simp
  | goaway => exact absurd hf hgoaway
  | pong | noop => apply hpass (by simp [hf])
  | data => exact absurd hf hflag

/-- Data for an unknown channel is dropped, and the session may be closed then. -/
theorem moves_unknownChannel (hopen : t.sess.closed = false) (hhand : t.hand = f :: rest)
    (hflag : f.flag = .data) :
  ∃ s, Moves cfg r t ((t.withHand rest).put s)
    ∧ ((t.sess.unknownChannel cfg f.chID f.data.length).2 = s
      ∨ (t.sess.unknownChannel cfg f.chID f.data.length).2 = s.closeSession cfg)
  := by
  have hdiscard : Moves cfg r t _ := moves_discard hopen hhand (by simp [hflag])
  unfold unknownChannel
  dsimp only
  generalize (t.sess.noteDiscarded f.chID f.data.length).creditDiscarded cfg f.data.length = s₁ at *
  refine ⟨_, hdiscard.tail (Move.clock s₁.now s₁.closedIDs
    ((s₁.unknownChannelErrors + 1) % 2 ^ 32)), ?_⟩
  split
  · exact .inr rfl
  · exact .inl rfl

section

variable (hopen : t.sess.closed = false) (htabled : t.sess.Tabled) (hfeeding : t.feeding = none)
  (hhand : t.hand = f :: rest)

include hopen htabled hfeeding hhand

/-- Data on a stream transport. -/
theorem moves_streamData (hflag : f.flag = .data)
    (hgone : t.sess.channels f.chID = none → t.sess.recentlyClosed f.chID = true → r.late f.chID) :
  ∃ s, Moves cfg r t ((t.withHand rest).put s)
    ∧ ((t.sess.streamData cfg f.chID f.offset f.data).2 = s
      ∨ (t.sess.streamData cfg f.chID f.offset f.data).2 = s.closeSession cfg)
  := by
  unfold streamData
  split
  · rename_i h hchannel
    obtain ⟨hh, hid, hmap⟩ := htabled _ _ hchannel
    exact ⟨_, moves_receiveData hopen hh hhand hflag hid (fun _ => hmap) hfeeding, .inl rfl⟩
  · rename_i hnone
    simp only [hopen, Bool.false_eq_true, if_false]
    split
    · rename_i hrecent
      exact ⟨_, (moves_discard hopen hhand (by simp [hflag])).trans
        (moves_sendReset _ 0 (.inl (hgone hnone hrecent))), .inl rfl⟩
    · obtain ⟨ids, hids⟩ := recentlyClosedLocked_eq f.chID t.sess
      rw [hids]
      generalize hs : stashLocked cfg f.chID _ _ = res
      have hclock : Moves cfg r t _ := moves_clock t ids
      have hstash := moves_stashLocked (r := r) (t := t.put { t.sess with closedIDs := ids }) hopen
        hhand hnone (.inl hflag) (b := res.1) (s := res.2)
        (by simpa only [hflag, put] using hs)
      split at hstash
      · rename_i hkept
        rw [if_pos hkept]
        exact ⟨_, hclock.trans hstash, .inl rfl⟩
      · rename_i hkept
        rw [if_neg hkept]
        obtain ⟨s, hmoves, hres⟩ :=
          moves_unknownChannel (r := r) (t := t.put res.2) hstash.2 hhand hflag
        exact ⟨s, (hclock.trans hstash.1).trans hmoves, hres⟩

variable (hsound : f.Sound)
  (hlate : r.updates → f.flag = .upd → f.chID ≠ 0 → (t.sess.channels f.chID).isSome = true)
  (hgone : f.flag = .data → t.sess.channels f.chID = none →
    t.sess.recentlyClosed f.chID = true → r.late f.chID) (busy : Bool)

include hsound hlate hgone

/-- A frame on a stream transport, by which the session may be closed in the end.  Without
retransmissions, the transport is not given up for it. -/
theorem moves_receiveStream_or (hgoaway : f.flag ≠ .goaway)
    (hverdict : cfg.reliability = true ∨ (t.sess.receiveStream cfg busy f).1 ≠ .disconnect) :
  ∃ s, Moves cfg r t ((t.withHand rest).put s)
    ∧ ((t.sess.receiveStream cfg busy f).2 = s
      ∨ (t.sess.receiveStream cfg busy f).2 = s.closeSession cfg)
  := by
  unfold receiveStream at hverdict ⊢
  split
  · rename_i hflag
    simp only [hflag] at hverdict
    split
    · rename_i hzero
      refine ⟨_, moves_pass hhand (by simp [hflag]) (.inr (.inr ?_)), .inl rfl⟩
      simpa [PacketFrame.Sound, hflag, hzero, eq_comm] using hsound
    · rename_i hzero
      rw [if_neg hzero] at hverdict
      split
      · rename_i hlarge
        rw [if_pos hlarge] at hverdict
        exact ⟨_, moves_pass hhand (by simp [hflag]) (.inl (by simpa using hverdict)), .inl rfl⟩
      · exact moves_streamData hopen htabled hfeeding hhand hflag (hgone hflag)
  · rename_i hflag
    split
    · exact ⟨_, moves_pass hhand (by simp [hflag]) (by simp [hflag]), .inl rfl⟩
    · exact ⟨_, moves_receiveControl hopen htabled hhand hsound (by simp [hflag]) hlate busy
        hgoaway, .inl rfl⟩
  · rename_i hdata hrst
    exact ⟨_, moves_receiveControl hopen htabled hhand hsound hdata hlate busy hgoaway, .inl rfl⟩

/-- A frame on a stream transport by which the session is not closed. -/
theorem moves_receiveStream
    (hclosed : (t.sess.receiveStream cfg busy f).2.closed = false)
    (hverdict : cfg.reliability = true ∨ (t.sess.receiveStream cfg busy f).1 ≠ .disconnect) :
  Moves cfg r t ((t.withHand rest).put (t.sess.receiveStream cfg busy f).2)
  := by
  have hgoaway : f.flag ≠ .goaway := by
    intro hflag
    simp [receiveStream, receiveControl, hflag, closed_closeSession]
      at hclosed
  obtain ⟨s, hmoves, hres | hres⟩ :=
    moves_receiveStream_or hopen htabled hfeeding hhand hsound hlate hgone busy hgoaway hverdict
  · rwa [hres]
  · simp [hres, closed_closeSession] at hclosed

end

/-- A frame on a datagram transport, with retransmissions. -/
theorem moves_receiveDatagram (hrel : cfg.reliability = true) (hopen : t.sess.closed = false)
    (htabled : t.sess.Tabled) (hfeeding : t.feeding = none) (hhand : t.hand = f :: rest)
    (hsound : f.Sound)
    (hlate : r.updates → f.flag = .upd → f.chID ≠ 0 → (t.sess.channels f.chID).isSome = true)
    (busy : Bool) (hgoaway : f.flag ≠ .goaway) :
  Moves cfg r t ((t.withHand rest).put (t.sess.receiveDatagram cfg busy f).2)
  := by
  unfold receiveDatagram
  split
  · rename_i hflag
    split
    · apply moves_pass hhand (by simp [hflag]) (.inl hrel)
    · unfold datagramData
      split
      · rename_i h hchannel
        obtain ⟨hh, hid, hmap⟩ := htabled _ _ hchannel
        rw [if_pos hrel]
        apply moves_feedReliablePayload hrel hopen hh hhand hflag hid hmap hfeeding
      · apply moves_discard hopen hhand (by simp [hflag])
  · rename_i hflag
    apply moves_receiveControl hopen htabled hhand hsound hflag hlate busy hgoaway

/-! ### Complete operations and batches -/

theorem moves_lateWrite {i : Nat} (hs : t.sess.lateWrite i = some s) :
  Moves cfg r t (t.put s)
  := by
  obtain ⟨f, hf, rfl⟩ := Option.map_eq_some_iff.mp hs
  exact .single (Move.lateWrite i f hf)

theorem moves_joinCtrl {i : Nat} (hs : t.sess.joinCtrl i = some s) :
  Moves cfg r t (t.put s)
  := by
  obtain ⟨f, hf, rfl⟩ := Option.map_eq_some_iff.mp hs
  exact .single (Move.joinCtrl i f hf)

/-- A complete operation of an open session is a sequence of moves. -/
theorem moves_perform (hopen : t.sess.closed = false) (hhand : t.hand = [])
    (hfeeding : t.feeding = none) (harq : ∀ h ∈ t.sess.arqSet, h < t.sess.next)
    (htimed : ∀ h < t.sess.next, (t.sess.heap h).ackTimer = true →
      (t.sess.heap h).reorderMap.isSome = true) {o : Op} (hfollows : o.Follows r t.sess)
    (hs : t.sess.perform cfg o = some s) :
  Moves cfg r t (t.put s)
  := by
  cases o with
  | openChannel label =>
      obtain ⟨id, hid, hs⟩ := Option.bind_eq_some_iff.mp hs
      apply moves_openID hopen hhand hfeeding (Nat.ne_of_gt (stringToUint32_bounds hid).1)
        (hfollows id hid) hs
  | write h b =>
      obtain ⟨hh, hs⟩ := Option.ite_none_right_eq_some.mp hs
      obtain ⟨p, hp, hclosed, hw, hstream, hsess, rfl⟩ := writeChunk_open hopen hs
      exact .single (Move.write h p hh hclosed hw hp hstream hsess)
  | read h n =>
      obtain ⟨hh, rfl⟩ := Run.guard hs
      apply moves_Read hopen hh hfollows
  | writeTo h n =>
      obtain ⟨hh, rfl⟩ := Run.guard hs
      apply moves_writeToChunk hopen hh hfollows
  | closeWrite busy h =>
      obtain ⟨hh, rfl⟩ := Run.guard hs
      apply moves_CloseWrite hopen hh
  | close busy h =>
      obtain ⟨hh, rfl⟩ := Run.guard hs
      apply moves_Close hopen hh
  | lateFin h =>
      obtain ⟨hh, rfl⟩ := Run.guard hs
      apply moves_lateFin hopen hh
  | localClose h =>
      obtain ⟨hcond, rfl⟩ := Run.guard hs
      apply moves_localClose hopen hcond.1 hfollows
  | ackTimer h =>
      obtain ⟨hh, rfl⟩ := Run.guard hs
      apply moves_ackTimerFired hopen hh (htimed h hh)
  | arqTick =>
      cases hs
      apply moves_arqScanAll hopen harq
  | retransmitAllUnacked h =>
      obtain ⟨hh, rfl⟩ := Run.guard hs
      apply moves_retransmitAllUnacked hopen hh
  | prune =>
      cases hs
      apply moves_pruneLocked hopen
  | ping =>
      cases hs
      apply moves_offerControlFrame t ⟨.inr (.inl rfl), rfl⟩
      simp
  | lateWrite i => apply moves_lateWrite hs
  | lateCtrl i => apply moves_joinCtrl hs
  | tick d =>
      cases hs
      exact .single (Move.clock (t.sess.now + d) t.sess.closedIDs t.sess.unknownChannelErrors)

/-- A batch is collected. -/
theorem moves_collect (hs : t.sess.collect picks = some (frames, s)) :
  Moves cfg r t { t with sess := s, batch := t.batch ++ frames }
  := by
  induction picks generalizing t frames with
  | nil =>
      cases hs
      simpa using Relation.ReflTransGen.refl
  | cons pick picks ih =>
      obtain ⟨f, q, rest, rfl, ⟨hq, hrest⟩ | ⟨hq, hrest⟩⟩ := collect_cons hs
      · have hmove : Move cfg r t _ := Move.collectCtrl f q hq
        refine .head hmove ?_
        simpa using ih (t := { t with sess := { t.sess with ctrlQueue := q }
                                      batch := t.batch ++ [f] }) hrest
      · have hmove : Move cfg r t _ := Move.collectData f q hq
        refine .head hmove ?_
        simpa using ih (t := { t with sess := { t.sess with writes := q }
                                      batch := t.batch ++ [f] }) hrest

/-- A batch is filled in and merged. -/
theorem moves_compactFrom (hbatch : t.batch = frames) (hrefs : ∀ f ∈ frames, f.OneRef) :
  Moves cfg r t { t with
    sess := (t.sess.compactFrom t.out frames).2
    batch := []
    out := (t.sess.compactFrom t.out frames).1 }
  := by
  induction frames generalizing t with
  | nil =>
      refine Moves.of_eq .refl ?_
      simp [compactFrom, Merging.collect, ← hbatch]
  | cons f frames ih =>
      have hnext : ∀ s' out', Move cfg r t { t with sess := s', batch := frames, out := out' } →
          t.sess.compactFrom t.out (f :: frames) = s'.compactFrom out' frames →
          Moves cfg r t { t with
            sess := (t.sess.compactFrom t.out (f :: frames)).2
            batch := []
            out := (t.sess.compactFrom t.out (f :: frames)).1 } := by
        intro s' out' hmove heq
        rw [heq]
        refine .head hmove ?_
        apply ih (t := { t with sess := s', batch := frames, out := out' }) rfl
        intro g hg
        apply hrefs g (List.mem_cons_of_mem _ hg)
      cases hack : f.ackCh with
      | some h =>
          obtain ⟨hstream, hsession⟩ : f.streamFlow = none ∧ f.sessionFlow = false := by
            have := hrefs f List.mem_cons_self
            simpa [WriteFrame.OneRef, hack] using this
          apply hnext _ _ (Move.readyAck f frames h hbatch hack hstream hsession)
          rw [compactFrom_cons, resolveFrame, resolveAck_some hack]
          dsimp only
          rw [resolveUpd_plain]
          · rfl
          · exact hstream
          · exact hsession
      | none =>
          cases hstream : f.streamFlow with
          | some h =>
              have hsession : f.sessionFlow = false := by
                have := hrefs f List.mem_cons_self
                simpa [WriteFrame.OneRef, hack, hstream] using this
              apply hnext _ _ (Move.readyStream f frames h hbatch hack hstream hsession)
              rw [compactFrom_cons, resolveFrame, resolveAck_none hack,
                resolveUpd_stream hstream hsession]
              unfold mergeUpdate
              split <;> rfl
          | none =>
              cases hsession : f.sessionFlow with
              | true =>
                  apply hnext _ _ (Move.readySession f frames hbatch hack hstream hsession)
                  rw [compactFrom_cons, resolveFrame, resolveAck_none hack,
                    resolveUpd_session hstream hsession]
                  unfold mergeUpdate
                  split <;> rfl
              | false =>
                  apply hnext _ _ (Move.ready f frames hbatch hack hstream hsession)
                  rw [compactFrom_cons, resolveFrame_plain hstream hack hsession]
                  rfl

theorem mem_collect (hs : s.collect picks = some (frames, s')) {f : WriteFrame} (hf : f ∈ frames) :
  f ∈ s.writes ∨ f ∈ s.ctrlQueue
  := by
  induction picks generalizing s frames with
  | nil =>
      cases hs
      contradiction
  | cons pick picks ih =>
      obtain ⟨g, q, rest, rfl, ⟨hq, hrest⟩ | ⟨hq, hrest⟩⟩ := collect_cons hs <;>
        grind

/-- A batch of the writer. -/
theorem moves_writeBatch (cfg : SessionConfig) (r : Rules) (hbatch : t.batch = [])
    (hout : t.out = []) (hwrites : ∀ f ∈ t.sess.writes, f.OneRef)
    (hctrl : ∀ f ∈ t.sess.ctrlQueue, f.OneRef) {packets : List PacketFrame}
    (hs : t.sess.writeBatch picks = some (packets, s)) :
  ∃ out : List WriteFrame, packets = out.map WriteFrame.packet
    ∧ Moves cfg r t { t with sess := s, out := out }
  := by
  obtain ⟨-, hs⟩ := Option.ite_none_right_eq_some.mp hs
  obtain ⟨res, hres, heq⟩ := Option.map_eq_some_iff.mp hs
  obtain ⟨rfl, rfl⟩ := Prod.mk.inj heq
  use (res.2.compactAndResolveControlFrames res.1).1, rfl
  apply (moves_collect hres).trans
  have hrefs : ∀ f ∈ res.1, f.OneRef := by
    intro f hf
    rcases mem_collect hres hf with hf | hf
    · apply hwrites f hf
    · apply hctrl f hf
  have hcompact : Moves cfg r _ _ := moves_compactFrom
    (t := { t with sess := res.2, batch := t.batch ++ res.1 }) (by simp [hbatch]) hrefs
  apply hcompact.of_eq
  simp [compactAndResolveControlFrames, hbatch, hout]

end Station

end Muxocket
