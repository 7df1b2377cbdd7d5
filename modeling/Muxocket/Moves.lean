import Muxocket.Lib.Sums
import Muxocket.Station

/-!
# Operations as moves

Every operation of an open session is a sequence of moves.  There is one lemma for each
function of the model, in the order of the model.
-/

namespace Muxocket

open Session
open Channel (abandon buffers cumulativeAckLocked feedEarly finish gotFin reset shut take unread)

/-! ### Functions of open sessions -/

namespace Session

variable {cfg : SessionConfig} {s : Session}

section

variable (hopen : s.closed = false)

include hopen

/-- A control frame of an open session is queued. -/
theorem writeControlFrameNonBlocking_open (f : WriteFrame) :
  s.writeControlFrameNonBlocking cfg f = some (s.queueNew cfg true f)
  := by
  unfold writeControlFrameNonBlocking queueNew
  by_cases hroom : s.ctrlQueue.length < cfg.ctrlDepth
  · simp [hopen, hroom]
  · simp [hopen, hroom]

theorem writeDataFrame_open (f : WriteFrame) :
  s.writeDataFrame f = some { s with writes := s.writes ++ [f] }
  := by
  rw [writeDataFrame, if_neg (by simp [hopen])]

/-- An open session returns its credit. -/
theorem sessionOnRead_open (n : Int) :
  s.sessionOnRead cfg n = s.creditCore cfg n
  := by
  unfold sessionOnRead flushSessionUpdate creditCore Flow.onRead Flow.queues
  by_cases hthreshold : (s.flow.consume n).threshold ≤ (s.flow.consume n).consumed
  · by_cases hneeds : (s.flow.consume n).needsFrame
    · simp only [hthreshold, if_true, hneeds, decide_true, Bool.true_and]
      rw [writeControlFrameNonBlocking_open (by exact hopen)]
    · simp [hthreshold, hneeds, queueNew]
  · simp [hthreshold, queueNew]

theorem creditSession_update (n h : Nat) (f : Channel → Channel) :
  (s.update h f).creditSession cfg n = (s.creditSession cfg n).update h f
  := by
  by_cases hcond : s.flow.enabled = true ∧ 0 < n
  · rw [creditSession, creditSession, if_pos hcond, if_pos (by exact hcond),
      sessionOnRead_open hopen, sessionOnRead_open (by exact hopen)]
    rfl
  · rw [creditSession, creditSession, if_neg hcond, if_neg (by exact hcond)]

/-- What is read off a ring gives credit back. -/
theorem consumeRing_open (h : Nat) {p : Bytes} (hp : p ≠ []) (bufs : List Bytes) :
  s.consumeRing cfg h p bufs = (s.takeCore cfg h p bufs).creditSession cfg p.length
  := by
  have hconsume : (s.update h fun c =>
        { c with ring := some bufs, delivered := c.delivered ++ p }).streamConsume cfg h
          (int32 p.length)
      = s.takeCore cfg h p bufs := by
    unfold streamConsume flushStreamUpdate takeCore take Flow.onRead Flow.queues
    generalize int32 p.length = n
    by_cases hthreshold :
        ((s.heap h).flow.consume n).threshold ≤ ((s.heap h).flow.consume n).consumed
    · by_cases hneeds : ((s.heap h).flow.consume n).needsFrame
      · simp only [update, Function.update_self, hthreshold, if_true, hneeds, decide_true,
          Bool.true_and, Function.update_idem]
        rw [writeControlFrameNonBlocking_open (by exact hopen)]
      · simp [update, hthreshold, hneeds, queueNew]
    · simp [update, hthreshold, queueNew]
  have hlength : 0 < p.length := List.length_pos_iff.mpr hp
  simp only [consumeRing, streamOnRead, hconsume, creditSession, hlength, and_true]
  simp [hp]

end

/-- The end of a stream is queued, at once or late. -/
theorem sendFinLocked_open (cfg : SessionConfig) (hopen : s.closed = false) (h : Nat) :
  ∃ late, s.sendFinLocked cfg h = s.queueFin cfg late h (finish cfg s.now)
  := by
  use !decide (s.writes.length < cfg.queueDepth)
  unfold sendFinLocked queueFin arqJoin finish Channel.register
  by_cases hrel : cfg.reliability = true
  · by_cases harq : (s.heap h).inARQ = true
    · by_cases hroom : s.writes.length < cfg.queueDepth
      · simp [hrel, harq, hroom, registerUnacked, writeDataFrameNonBlocking, update, hopen]
      · simp [hrel, harq, hroom, registerUnacked, writeDataFrameNonBlocking, update, hopen]
    · by_cases hroom : s.writes.length < cfg.queueDepth
      · simp [hrel, harq, hroom, registerUnacked, writeDataFrameNonBlocking, update, hopen, arqAdd]
      · simp [hrel, harq, hroom, registerUnacked, writeDataFrameNonBlocking, update, hopen, arqAdd]
  · by_cases hroom : s.writes.length < cfg.queueDepth
    · simp [hrel, hroom, writeDataFrameNonBlocking, update, hopen]
    · simp [hrel, hroom, writeDataFrameNonBlocking, update, hopen]

/-- What is done to a channel before its end is queued. -/
theorem queueFin_update {late : Bool} {h : Nat} {f : Channel → Channel}
    (hid : (f (s.heap h)).id = (s.heap h).id)
    (hoffset : (f (s.heap h)).writeOffset = (s.heap h).writeOffset)
    (harq : (f (s.heap h)).inARQ = (s.heap h).inARQ) (g : Channel → Channel) :
  (s.update h f).queueFin cfg late h g = s.queueFin cfg late h fun c => g (f c)
  := by
  simp only [queueFin, arqJoin, update_update, heap_update_self, hid, hoffset, harq]
  rfl

end Session

namespace Station

variable {cfg : SessionConfig} {r : Rules}

/-- The station with another session. -/
def put (s : Session) (t : Station) : Station :=
  { t with sess := s }

/-- The station with other frames in hand. -/
def withHand (hand : List PacketFrame) (t : Station) : Station :=
  { t with hand := hand }

/-- The station with `n` more bytes of session credit to return. -/
def owe (n : Nat) (t : Station) : Station :=
  { t with owed := t.owed + n }

variable {t t' : Station} {h : Nat} {f : PacketFrame} {rest : List PacketFrame} {s : Session}

theorem Moves.of_eq {t₁ t₂ : Station} (h : Moves cfg r t t₁) (he : t₁ = t₂) :
  Moves cfg r t t₂
  := he ▸ h

/-- Moves do not close a session, and forget no channel. -/
theorem Move.closed_next (hm : Move cfg r t t') :
  t'.sess.closed = t.sess.closed ∧ t.sess.next ≤ t'.sess.next
  := by
  cases hm with
  | publish id => exact ⟨rfl, Nat.le_succ _⟩
  | _ => exact ⟨rfl, le_rfl⟩

theorem Move.goAwayRecv_eq (hm : Move cfg r t t') :
  t'.sess.goAwayRecv = t.sess.goAwayRecv
  := by
  cases hm with
  | _ => rfl

/-- Moves neither close a session nor remove a channel from its heap. -/
theorem Moves.closed_next (hm : Moves cfg r t t') :
  t'.sess.closed = t.sess.closed ∧ t.sess.next ≤ t'.sess.next
  := by
  induction hm with
  | refl => exact ⟨rfl, le_rfl⟩
  | tail _ hmove ih =>
      obtain ⟨h₁, h₂⟩ := hmove.closed_next
      exact ⟨h₁.trans ih.1, ih.2.trans h₂⟩

/-- Moves of an open session followed by moves that need it open. -/
theorem Moves.andThen {t₁ t₂ : Station} (hfirst : Moves cfg r t t₁)
    (hopen : t.sess.closed = false) (hh : h < t.sess.next)
    (hnext : t₁.sess.closed = false → h < t₁.sess.next → Moves cfg r t₁ t₂) :
  Moves cfg r t t₂
  := by
  obtain ⟨h₁, h₂⟩ := hfirst.closed_next
  exact hfirst.trans (hnext (h₁.trans hopen) (lt_of_lt_of_le hh h₂))

/-- The credit that is owed is returned. -/
theorem moves_creditSession (hopen : t.sess.closed = false) (n : Nat) :
  Moves cfg r (t.owe n) (t.put (t.sess.creditSession cfg n))
  := by
  unfold creditSession
  rw [sessionOnRead_open hopen]
  by_cases hn : 0 < n
  · by_cases henabled : t.sess.flow.enabled = true
    · have hmove : Move cfg r (t.owe n) _ := Move.credit n hn (by simp [owe]) henabled
      apply Moves.of_eq (.single hmove)
      simp [owe, put, henabled, hn]
    · have hmove : Move cfg r (t.owe n) _ := Move.forgive n (by simp [owe])
        (by simpa [owe] using henabled)
      apply Moves.of_eq (.single hmove)
      simp [owe, put, henabled]
  · simp only [hn, and_false, if_false]
    obtain rfl : n = 0 := by omega
    exact .refl

/-- The data of a frame is discarded. -/
theorem moves_discard (hopen : t.sess.closed = false) (hhand : t.hand = f :: rest)
    (hf : f.flag ≠ .upd) :
  Moves cfg r t ((t.withHand rest).put
    ((t.sess.noteDiscarded f.chID f.data.length).creditDiscarded cfg f.data.length))
  := by
  have hmove : Move cfg r t _ := Move.discard f rest hhand hf
  refine .head hmove ?_
  by_cases hrel : cfg.reliability = true
  · refine Moves.of_eq .refl ?_
    simp [creditDiscarded, hrel, put, withHand]
  · have hcredit : Moves cfg r _ _ := moves_creditSession
      (t := (t.withHand rest).put (t.sess.noteDiscarded f.chID f.data.length)) hopen f.data.length
    simp only [hrel, Bool.false_eq_true, if_false]
    apply Moves.of_eq hcredit
    simp only [creditSession, creditDiscarded, hrel, put, withHand]
    grind

/-! ### Early frames -/

/-- Return the credit of the frames of a list, one after the other. -/
def creditFrames (cfg : SessionConfig) (frames : List PendingFrame) (s : Session) : Session :=
  frames.foldl (fun s f => s.creditDiscarded cfg f.data.length) s

/-- The record of what is discarded does not matter. -/
theorem creditDiscarded_noted (hopen : s.closed = false) (n : Nat) (discarded : List (Nat × Nat)) :
  { s with discarded := discarded }.creditDiscarded cfg n
    = { s.creditDiscarded cfg n with discarded := discarded }
  := by
  unfold creditDiscarded
  split
  · rfl
  · rw [sessionOnRead_open (by exact hopen), sessionOnRead_open hopen]
    rfl

/-- Returning the credit of early frames does not depend on which of them are kept. -/
theorem creditPending_with (hopen : s.closed = false) (id : Nat) (bytes : Int)
    (pending : AList fun _ : Nat => PendingQueue) (frames : List PendingFrame) :
  { s with pendingBytes := bytes, pending := pending }.creditPending cfg id frames
    = { s.creditPending cfg id frames with pendingBytes := bytes, pending := pending }
  := by
  have hstep : ∀ s : Session, s.closed = false → ∀ n,
      { s with pendingBytes := bytes, pending := pending }.creditDiscarded cfg n
        = { s.creditDiscarded cfg n with pendingBytes := bytes, pending := pending } := by
    intro s hs n
    unfold creditDiscarded
    split
    · rfl
    · rw [sessionOnRead_open (by exact hs), sessionOnRead_open hs]
      rfl
  induction frames generalizing s with
  | nil => rfl
  | cons f frames ih =>
      unfold creditPending
      rw [← ih (by simpa using hopen)]
      congr 1
      exact hstep (s.noteDiscarded id f.data.length) hopen f.data.length

/-- Noting the frames that are dropped first, and then returning their credit, comes to the
same as doing both frame by frame. -/
theorem creditPending_eq_creditFrames (hopen : s.closed = false) (id : Nat)
    (frames : List PendingFrame) :
  s.creditPending cfg id frames
    = creditFrames cfg frames
      { s with discarded := s.discarded ++ frames.map fun f => (id, f.data.length) }
  := by
  induction frames generalizing s with
  | nil => simp [creditPending, creditFrames]
  | cons f frames ih =>
      have hopen' : ((s.noteDiscarded id f.data.length).creditDiscarded cfg f.data.length).closed
          = false := by
        simpa using hopen
      unfold creditPending
      rw [ih hopen']
      simp only [creditFrames, List.foldl_cons]
      congr 1
      have hnoted : (s.noteDiscarded id f.data.length).creditDiscarded cfg f.data.length = _ :=
        creditDiscarded_noted hopen _ _
      rw [creditDiscarded_noted hopen, hnoted]
      simp

theorem owe_owe (n m : Nat) (t : Station) :
  (t.owe n).owe m = t.owe (n + m)
  := by
  simp [owe, add_assoc]

/-- Early frames give their credit back. -/
theorem moves_creditFrames (hopen : t.sess.closed = false) (frames : List PendingFrame) :
  Moves cfg r (t.owe (if cfg.reliability then 0 else pendingLength frames))
    (t.put (creditFrames cfg frames t.sess))
  := by
  induction frames generalizing t with
  | nil =>
      have hnone : (if cfg.reliability then 0 else pendingLength []) = 0 := by
        split <;> rfl
      rw [hnone]
      exact .refl
  | cons f frames ih =>
      have hopen' : ((t.sess.creditDiscarded cfg f.data.length)).closed = false := by
        simpa using hopen
      have hrest : Moves cfg r _ _ :=
        ih (t := t.put (t.sess.creditDiscarded cfg f.data.length)) hopen'
      apply Relation.ReflTransGen.trans _ hrest
      by_cases hrel : cfg.reliability = true
      · refine Moves.of_eq .refl ?_
        simp [hrel, put, owe, creditDiscarded]
      · have hcredit : Moves cfg r _ _ :=
          moves_creditSession (t := t.owe (pendingLength frames)) hopen f.data.length
        rw [owe_owe] at hcredit
        simp only [hrel, Bool.false_eq_true, if_false, pendingLength, List.map_cons, List.sum_cons]
        rw [add_comm]
        apply Moves.of_eq hcredit
        simp only [creditSession, creditDiscarded, hrel, put, owe, pendingLength]
        grind

theorem releasePendingLocked_eq (cfg : SessionConfig) (hopen : s.closed = false) (id : Nat)
    (q : PendingQueue) :
  s.releasePendingLocked cfg id q
    = { s with pendingBytes := s.pendingBytes - q.bytes
               pending := s.pending.erase id }.creditPending cfg id q.frames
  := by
  rw [creditPending_with hopen]
  unfold releasePendingLocked
  rw [paid_creditPending cfg id q.frames s]

/-- A queue of early frames is released. -/
theorem moves_releasePendingLocked (hopen : t.sess.closed = false) {id : Nat} {q : PendingQueue}
    (hq : t.sess.pending.lookup id = some q) :
  Moves cfg r t (t.put (t.sess.releasePendingLocked cfg id q))
  := by
  have hmove : Move cfg r t _ := Move.expire id q hq
  refine .head hmove ?_
  rw [releasePendingLocked_eq cfg hopen id q,
    creditPending_eq_creditFrames (s := { t.sess with
      pendingBytes := t.sess.pendingBytes - q.bytes, pending := t.sess.pending.erase id }) hopen]
  have hcredit : Moves cfg r _ _ := moves_creditFrames
    (t := t.put { t.sess with
      pendingBytes := t.sess.pendingBytes - q.bytes
      pending := t.sess.pending.erase id
      discarded := t.sess.discarded ++ q.frames.map fun f => (id, f.data.length) }) hopen q.frames
  rw [← q.bytes_eq] at hcredit
  have howed : t.owed + (if cfg.reliability then 0 else q.bytes)
      = if cfg.reliability then t.owed else t.owed + q.bytes := by
    split <;> rfl
  simp only [put, owe, howed] at hcredit ⊢
  exact hcredit

/-- The queues that have expired are released. -/
theorem moves_releaseExpired (hopen : t.sess.closed = false)
    {queues : List (Sigma fun _ : Nat => PendingQueue)} (hnodup : (queues.map Sigma.fst).Nodup)
    (hqueues : ∀ e ∈ queues, t.sess.pending.lookup e.1 = some e.2) :
  Moves cfg r t (t.put (t.sess.releaseExpired cfg queues))
  := by
  induction queues generalizing t with
  | nil => exact .refl
  | cons e queues ih =>
      rw [List.map_cons, List.nodup_cons] at hnodup
      unfold releaseExpired
      split
      · have hfirst : Moves cfg r t _ :=
          moves_releasePendingLocked hopen (hqueues e List.mem_cons_self)
        apply hfirst.trans
        apply ih
        · simpa [put] using hopen
        · exact hnodup.2
        · intro e' he'
          have hne : e'.1 ≠ e.1 := by
            intro heq
            apply hnodup.1
            rw [← heq]
            exact List.mem_map_of_mem he'
          rw [put, pending_releasePendingLocked, AList.lookup_erase_ne hne]
          exact hqueues e' (List.mem_cons_of_mem e he')
      · apply ih hopen hnodup.2
        intro e' he'
        exact hqueues e' (List.mem_cons_of_mem e he')

theorem moves_clock (t : Station) (ids : AList fun _ : Nat => Int) :
  Moves cfg r t (t.put { t.sess with closedIDs := ids })
  := .single (Move.clock t.sess.now ids t.sess.unknownChannelErrors)

/-- What has expired is pruned. -/
theorem moves_pruneLocked (hopen : t.sess.closed = false) :
  Moves cfg r t (t.put (t.sess.pruneLocked cfg))
  := by
  have hexpired : Moves cfg r t (t.put (t.sess.releaseExpired cfg t.sess.pending.entries)) := by
    apply moves_releaseExpired hopen t.sess.pending.nodupKeys
    intro e he
    exact AList.mem_lookup_iff.mpr he
  exact hexpired.trans (moves_clock _ _)

/-- The oldest closed identifier is forgotten. -/
theorem moves_evictOldest (t : Station) :
  Moves cfg r t (t.put t.sess.evictOldest)
  := by
  unfold evictOldest
  split
  · exact .refl
  · exact moves_clock t _

/-- The early frames of an identifier are dropped. -/
theorem moves_dropEarly (hopen : t.sess.closed = false) (id : Nat) :
  Moves cfg r t (t.put (t.sess.dropEarly cfg id))
  := by
  unfold dropEarly
  split
  · rename_i q hq
    exact moves_releasePendingLocked hopen hq
  · exact .refl

/-- An identifier is marked as closed. -/
theorem moves_markClosedLocked (hopen : t.sess.closed = false) (id : Nat) :
  Moves cfg r t (t.put (t.sess.markClosedLocked cfg id))
  := by
  have hopen' : (t.sess.dropEarly cfg id).closed = false :=
    (beside_dropEarly cfg id t.sess).closed_eq.trans hopen
  have hprune : ∀ s : Session, s.closed = false →
      Moves cfg r (t.put s) (t.put (s.pruneFull cfg)) := by
    intro s hs
    unfold pruneFull
    split
    · exact moves_pruneLocked (t := t.put s) hs
    · exact .refl
  have hevict : ∀ s : Session, Moves cfg r (t.put s) (t.put s.evictFull) := by
    intro s
    unfold evictFull
    split
    · exact moves_evictOldest (t.put s)
    · exact .refl
  apply (moves_dropEarly hopen id).trans
  simp only [markClosedLocked]
  split
  · exact ((hprune _ hopen').trans (hevict _)).trans (moves_clock (t.put _) _)
  · exact .refl

/-! ### Closing -/

/-- Something happens to a channel alone. -/
theorem moves_touch (hh : h < t.sess.next) (f : Channel → Channel)
    (hf : Touch cfg r (t.sess.heap h) (f (t.sess.heap h))) :
  Moves cfg r t (t.put (t.sess.update h f))
  := .single (Move.touch h f hh hf)

theorem moves_alike (hh : h < t.sess.next) (f : Channel → Channel)
    (hf : (t.sess.heap h).Alike (f (t.sess.heap h))) :
  Moves cfg r t (t.put (t.sess.update h f))
  := moves_touch hh f (.alike hf)

/-- A control frame is offered. -/
theorem moves_offerControlFrame (t : Station) {f : WriteFrame} (hf : f.Plain)
    (hreset : f.flag = .rst → r.late f.chID ∨ ∃ h < t.sess.next, (t.sess.heap h).id = f.chID
      ∧ (t.sess.heap h).closed = true ∧ (t.sess.heap h).readDone = false) :
  Moves cfg r t (t.put (t.sess.offerControlFrame cfg f))
  := by
  unfold offerControlFrame
  split
  · exact .single (Move.offer f hf hreset)
  · exact .refl

/-- A reset is offered. -/
theorem moves_sendReset (t : Station) {id : Nat} (offset : Nat)
    (hreset : r.late id ∨ ∃ h < t.sess.next, (t.sess.heap h).id = id
      ∧ (t.sess.heap h).closed = true ∧ (t.sess.heap h).readDone = false) :
  Moves cfg r t (t.put (t.sess.sendReset cfg id offset))
  := by
  unfold sendReset
  split
  · exact .refl
  · apply moves_offerControlFrame t ⟨.inl rfl, rfl⟩
    intro _
    apply hreset

/-- A channel is closed by `g`, and what has not been read of it is discarded. -/
theorem moves_drainRing (hopen : t.sess.closed = false) (hh : h < t.sess.next)
    (g : Channel → Channel) (hdrained : (g (t.sess.heap h)).drained = (t.sess.heap h).drained)
    (hunread : (g (t.sess.heap h)).unread = (t.sess.heap h).unread)
    (htouch : (t.sess.heap h).drained = true → Touch cfg r (t.sess.heap h) (g (t.sess.heap h)))
    (hmove : Move cfg r t { t with
      sess := t.sess.update h fun c => (g c).drain
      owed := t.owed + (t.sess.heap h).unread }) :
  Moves cfg r t (t.put ((t.sess.update h g).drainRing cfg h))
  := by
  unfold drainRing
  rw [heap_update_self, hdrained, hunread]
  split
  · rename_i hcond
    apply moves_touch hh g (htouch hcond)
  · have hcredit : Moves cfg r _ _ := moves_creditSession
      (t := t.put (t.sess.update h fun c => (g c).drain)) hopen (t.sess.heap h).unread
    refine .head hmove ?_
    apply hcredit.of_eq
    simp only [put]
    rw [creditSession_update hopen, creditSession_update hopen,
      update_update]
    rfl

/-- What finalizing does to a channel. -/
theorem retire_eq (h : Nat) (s : Session) :
  ((s.cleanupReliability h).closeRing h).update h (fun c => { c with done := true })
    = { s.update h Channel.retire with arqSet := s.arqLeave h }
  := by
  unfold cleanupReliability closeRing arqLeave Channel.retire
  by_cases harq : (s.heap h).inARQ = true
  · simp only [harq, if_true, update, arqRemove, Function.update_self,
      Function.update_idem]
    grind [buffers, unread]
  · simp only [harq, update, Function.update_self, Function.update_idem]
    grind [buffers, unread]

section

variable (hopen : t.sess.closed = false) (hh : h < t.sess.next)

include hopen hh

/-- A channel is finalized. -/
theorem moves_finalize (hfin : (t.sess.heap h).finQueued = true)
    (hread : (t.sess.heap h).readDone = true)
    (hunacked : (t.sess.heap h).unacked = [] ∨ ¬ r.kept (t.sess.heap h).id) :
  Moves cfg r t (t.put (t.sess.finalize cfg h))
  := by
  unfold finalize
  by_cases hdone : (t.sess.heap h).done = true
  · simp only [hdone, if_true]
    exact .refl
  · have hmove : Move cfg r t (t.put (t.sess.retire h)) :=
      Move.retire h hh (by simpa using hdone) hfin hread hunacked
    have hid : ((t.sess.update h Channel.retire).heap h).id = (t.sess.heap h).id := by
      simp only [update, Function.update_self, Channel.retire]
      split <;> rfl
    simp only [hdone, retire_eq]
    unfold removeChannelIf
    simp only [hid]
    refine .head hmove ?_
    by_cases hlisted : t.sess.channels (t.sess.heap h).id = some h
    · have hmark : Moves cfg r _ _ := moves_markClosedLocked (t := t.put (t.sess.retire h)) hopen
        (t.sess.heap h).id
      apply Moves.of_eq hmark
      simp [put, retire, hlisted, update]
    · apply Moves.of_eq .refl
      simp [put, retire, hlisted, update]

theorem moves_maybeFinalize :
  Moves cfg r t (t.put (t.sess.maybeFinalize cfg h))
  := by
  unfold maybeFinalize
  split
  · rename_i hcond
    obtain ⟨hfin, hread, hunacked⟩ := hcond
    exact moves_finalize hopen hh hfin hread (.inl hunacked)
  · exact .refl

/-- A channel is closed for writing. -/
theorem moves_closeWrite (busy : Bool) :
  Moves cfg r t (t.put (t.sess.closeWrite cfg busy h))
  := by
  unfold closeWrite
  by_cases hw : (t.sess.heap h).writeClosed = true
  · simp only [hw, if_true]
    exact .refl
  · have hw' : (t.sess.heap h).writeClosed = false := by simpa using hw
    simp only [hw', Bool.false_eq_true, if_false]
    split
    · exact moves_touch hh _ (.deferFin hw')
    · obtain ⟨late, hlate⟩ := sendFinLocked_open cfg
        (s := t.sess.update h fun c => { c with writeClosed := true }) hopen h
      rw [hlate, queueFin_update rfl rfl rfl]
      exact .single (Move.fin h late hh hw')

/-- The end of a stream is queued after the last write. -/
theorem moves_lateFin :
  Moves cfg r t (t.put (t.sess.lateFin cfg h))
  := by
  unfold lateFin
  by_cases hw : (t.sess.heap h).finWaiting = true
  · obtain ⟨late, hlate⟩ := sendFinLocked_open cfg
      (s := t.sess.update h fun c => { c with finWaiting := false }) hopen h
    rw [if_pos hw, hlate, queueFin_update rfl rfl rfl]
    have hmove : Move cfg r t _ := Move.lateFin h late hh hw
    apply Moves.andThen (.single hmove) hopen hh
    intro hopen' hh'
    exact moves_maybeFinalize hopen' hh'
  · rw [if_neg hw]
    exact .refl

theorem moves_CloseWrite (busy : Bool) :
  Moves cfg r t (t.put (t.sess.CloseWrite cfg busy h))
  := by
  unfold Session.CloseWrite
  simp only [hopen, Bool.false_eq_true, if_false]
  apply Moves.andThen (moves_closeWrite hopen hh busy) hopen hh
  intro hopen' hh'
  exact moves_maybeFinalize hopen' hh'

end

/-- A channel that has been closed tells its peer. -/
theorem moves_resetPeer (hh : h < t.sess.next) (hclosed : (t.sess.heap h).closed = true)
    (force : Bool) :
  Moves cfg r t (t.put (t.sess.resetPeer cfg force h))
  := by
  unfold resetPeer
  dsimp only
  split
  · exact .refl
  · rename_i hread
    split
    · exact .refl
    · apply (moves_alike hh (fun c => { c with lastRst := t.sess.now }) rfl).trans
      apply moves_sendReset
      refine .inr ⟨h, hh, ?_⟩
      simpa [put, hclosed] using hread

theorem heap_creditSession (cfg : SessionConfig) (n : Nat) (s : Session) :
  (s.creditSession cfg n).heap = s.heap
  := by
  unfold creditSession
  split
  · rw [paid_sessionOnRead cfg _ s]
  · rfl

theorem heap_drainRing (cfg : SessionConfig) (h : Nat) (s : Session) :
  (s.drainRing cfg h).heap h
    = if (s.heap h).drained then s.heap h
      else { s.heap h with drained := true, ring := none
                           dropped := (s.heap h).dropped + (s.heap h).unread }
  := by
  unfold drainRing
  split
  · rfl
  · rw [heap_update_self, heap_creditSession]

section

variable (hopen : t.sess.closed = false) (hh : h < t.sess.next)

include hopen hh

/-- A channel is closed. -/
theorem moves_Close (busy : Bool) :
  Moves cfg r t (t.put (t.sess.Close cfg busy h))
  := by
  have hshut : ∀ s : Session, s.closed = false → h < s.next →
      Moves cfg r (t.put s) (t.put (if (s.heap h).closed then s else
        let s := (s.update h fun c => { c with closed := true }).drainRing cfg h
        if (s.heap h).readDone then s
        else
          (s.resetPeer cfg true h).update h fun c =>
            { c with closeTimer := decide (0 < cfg.channelCloseTimeout) && !c.done })) := by
    intro s hopen hh
    split
    · exact .refl
    · have hdrain : Moves cfg r (t.put s) _ := moves_drainRing (t := t.put s) hopen hh shut
        rfl rfl .shut (Move.drain h hh)
      apply Moves.andThen hdrain hopen hh
      intro hopen'' hh''
      dsimp only
      split
      · exact .refl
      · have hclosed : (((s.update h shut).drainRing cfg h).heap h).closed = true := by
          rw [heap_drainRing]
          split <;> simp [shut]
        apply Moves.andThen (moves_resetPeer hh'' hclosed true) hopen'' hh''
        intro _ hh₃
        exact moves_alike hh₃ _ rfl
  unfold Session.Close
  apply Moves.andThen (moves_closeWrite hopen hh busy) hopen hh
  intro hopen' hh'
  apply Moves.andThen (hshut _ hopen' hh') hopen' hh'
  intro hopen'' hh''
  exact moves_maybeFinalize hopen'' hh''

/-- A channel is given up. -/
theorem moves_localClose (hkept : ¬ r.kept (t.sess.heap h).id) :
  Moves cfg r t (t.put (t.sess.localClose cfg h))
  := by
  have hheap := heap_drainRing cfg h (t.sess.update h abandon)
  rw [heap_update_self] at hheap
  have hfinalize : ∀ s : Session, s.closed = false → h < s.next →
      (s.heap h = (t.sess.heap h).abandon ∨ s.heap h = (t.sess.heap h).abandon.drain) →
      Moves cfg r (t.put s) (t.put (s.finalize cfg h)) := by
    intro s hs hhs hcases
    apply moves_finalize (t := t.put s) hs hhs
    · rcases hcases with hc | hc <;> rw [put, hc] <;> rfl
    · rcases hcases with hc | hc <;> rw [put, hc] <;> rfl
    · right
      rcases hcases with hc | hc <;> rw [put, hc] <;> apply hkept
  unfold localClose
  dsimp only
  split
  · rename_i hdrainable
    rw [heap_update_self] at hdrainable
    have habandon : Moves cfg r t _ := moves_touch hh abandon (.abandon hkept (.inl hdrainable))
    apply Moves.andThen habandon hopen hh
    intro hopen' hh'
    apply hfinalize _ hopen' hh' (.inl (by simp [put]))
  · have hdrain : Moves cfg r t _ := moves_drainRing hopen hh abandon rfl rfl
      (fun hdrained => .abandon hkept (.inr hdrained)) (Move.giveUp h hh hkept)
    apply Moves.andThen hdrain hopen hh
    intro hopen' hh'
    apply hfinalize _ hopen' hh'
    simp only [put]
    rw [hheap]
    split
    · left
      rfl
    · right
      rfl

/-- A reset comes for a channel that is not finalized, or that has got one before. -/
theorem moves_peerReset (hhand : t.hand = f :: rest) (hflag : f.flag = .rst)
    (hid : (t.sess.heap h).id = f.chID)
    (hmap : (t.sess.heap h).reorderMap.isSome = true ∨ (t.sess.heap h).resetByPeer = true)
    (busy : Bool) :
  Moves cfg r t ((t.withHand rest).put (t.sess.peerReset cfg busy h))
  := by
  have hreset : Moves cfg r t ((t.withHand rest).put (t.sess.update h reset)) := by
    rcases hmap with hmap | hagain
    · exact .single (Move.reset f rest h hhand hflag hh hid hmap)
    · have hsame : t.sess.update h reset = t.sess := by
        have hagain : (t.sess.heap h).reset = t.sess.heap h := by
          rw [reset, ← hagain]
        simp [update, hagain]
      rw [hsame]
      exact .single (Move.pass f rest hhand (by simp [hflag]) (.inr (.inl (by simp [hflag]))))
  unfold peerReset
  apply Moves.andThen hreset hopen hh
  intro hopen' hh'
  apply Moves.andThen (moves_closeWrite hopen' hh' busy) hopen' hh'
  intro hopen'' hh''
  exact moves_maybeFinalize hopen'' hh''

end

/-- A stream of which all has arrived ends. -/
theorem moves_closeFinished (hopen : t.sess.closed = false) (hrel : cfg.reliability = true)
    (hh : h < t.sess.next) :
  Moves cfg r t (t.put (t.sess.closeFinished cfg h))
  := by
  unfold closeFinished
  split
  · rename_i hfin
    simp only [finished, Bool.and_eq_true, decide_eq_true_eq] at hfin
    have htouch : Moves cfg r t _ := moves_touch hh (fun c =>
      { c with drainable := true, readDone := true }) (.remoteDone hrel hfin.1 hfin.2)
    apply Moves.andThen htouch hopen hh
    intro hopen' hh'
    exact moves_maybeFinalize hopen' hh'
  · exact .refl

/-! ### Retransmission and reassembly -/

theorem sendAck_open (hopen : s.closed = false) (h : Nat) :
  s.sendAck cfg h (s.heap h).cumulativeAckLocked
    = (s.update h fun c => { c with ackTimer := false }).acknowledge cfg h
  := by
  unfold sendAck acknowledge Channel.ack
  by_cases hpending : (s.heap h).ackPending = true
  · simp [hpending, update, queueNew, cumulativeAckLocked]
  · simp only [hpending, Bool.false_eq_true, if_false]
    rw [writeControlFrameNonBlocking_open (by exact hopen)]
    by_cases hroom : s.ctrlQueue.length < cfg.ctrlDepth
    · simp [hpending, hroom, update, queueNew, cumulativeAckLocked]
    · simp [hpending, hroom, update, queueNew, cumulativeAckLocked]

section

variable (hopen : t.sess.closed = false) (hh : h < t.sess.next)

include hopen hh

/-- What has been received is acknowledged. -/
theorem moves_sendAck (hmap : (t.sess.heap h).reorderMap.isSome = true) {offset : Nat}
    (hoffset : offset = (t.sess.heap h).cumulativeAckLocked) :
  Moves cfg r t (t.put (t.sess.sendAck cfg h offset))
  := by
  rw [hoffset, sendAck_open hopen]
  have htimer : Moves cfg r t _ := moves_touch hh (fun c => { c with ackTimer := false })
    (.ackTimer false (by simp))
  apply Moves.andThen htimer hopen hh
  intro _ hh'
  exact .single (Move.ack h hh' (by simpa [put] using hmap))

/-- An acknowledgement is put off. -/
theorem moves_scheduleDelayedAck (hmap : (t.sess.heap h).reorderMap.isSome = true) {offset : Nat}
    (hoffset : offset = (t.sess.heap h).cumulativeAckLocked) :
  Moves cfg r t (t.put (t.sess.scheduleDelayedAck cfg h offset))
  := by
  unfold scheduleDelayedAck
  have hnote : Moves cfg r t (t.put (t.sess.update h fun c => { c with ackOffset := offset })) := by
    subst hoffset
    have htouch : Moves cfg r t _ := moves_touch hh
      (fun c => { c with ackOffset := c.cumulativeAckLocked }) .noteAck
    exact htouch
  apply Moves.andThen hnote hopen hh
  intro hopen' hh'
  dsimp only
  split
  · exact .refl
  · split
    · apply moves_sendAck hopen' hh'
      · simpa [put] using hmap
      · simpa [put, update, cumulativeAckLocked] using hoffset
    · split
      · exact .refl
      · apply moves_touch hh' (fun c => { c with ackTimer := true })
        apply Touch.ackTimer
        intro _
        simpa [put] using hmap

/-- The timer of the acknowledgements fires. -/
theorem moves_ackTimerFired
    (hmap : (t.sess.heap h).ackTimer = true → (t.sess.heap h).reorderMap.isSome = true) :
  Moves cfg r t (t.put (t.sess.ackTimerFired cfg h))
  := by
  unfold ackTimerFired
  split
  · rename_i htimer
    exact moves_sendAck hopen hh (hmap htimer) rfl
  · exact .refl

theorem moves_ackInOrder (hmap : (t.sess.heap h).reorderMap.isSome = true) (length : Nat) :
  Moves cfg r t (t.put (t.sess.ackInOrder cfg h length))
  := by
  unfold ackInOrder
  dsimp only
  split
  · exact moves_sendAck hopen hh hmap rfl
  · have hcount : Moves cfg r t _ := moves_alike hh (fun c => { c with inOrderPackets :=
      ((t.sess.heap h).inOrderPackets + 1) % 2 ^ 32 }) rfl
    apply Moves.andThen hcount hopen hh
    intro hopen' hh'
    have hoffset : (t.sess.heap h).cumulativeAckLocked
        = ((t.put (t.sess.update h fun c => { c with inOrderPackets :=
            ((t.sess.heap h).inOrderPackets + 1) % 2 ^ 32 })).sess.heap h).cumulativeAckLocked := by
      simp [put, update, cumulativeAckLocked]
    have hmap' : ((t.put (t.sess.update h fun c => { c with inOrderPackets :=
        ((t.sess.heap h).inOrderPackets + 1) % 2 ^ 32 })).sess.heap h).reorderMap.isSome
          = true := by
      simpa [put] using hmap
    split
    · exact moves_sendAck hopen' hh' hmap' hoffset
    · exact moves_scheduleDelayedAck hopen' hh' hmap' hoffset

end

theorem feedNext_open (hrel : cfg.reliability = true) (hopen : s.closed = false) (h : Nat)
    (p : Bytes) :
  s.feedNext cfg h p
    = if (s.heap h).closed then (s.update h (Channel.feed p)).creditSession cfg p.length
      else s.update h (Channel.feed p)
  := by
  unfold feedNext feed takes dropFed
  by_cases hclosed : (s.heap h).closed = true
  · simp only [hclosed, hopen, hrel, Bool.not_true, Bool.false_and, Bool.false_eq_true, if_false,
      not_true, and_false, if_true]
    rw [← creditSession_update (by exact hopen)]
    simp [update, Channel.feed, hclosed]
  · simp only [hclosed, hopen]
    simp [update, push, Channel.feed, hclosed]

/-- One frame less waits for its turn. -/
theorem early_feedEarly {p : Bytes} (hwaiting : s.waiting h = some p) :
  (s.update h (feedEarly p)).early h + 1 = s.early h
  := by
  obtain ⟨m, hm, hp⟩ := Option.bind_eq_some_iff.mp hwaiting
  have hlength := (perm_erase_entries hp).length_eq
  have hmap : (feedEarly p (s.heap h)).reorderMap
      = some (m.erase (s.heap h).readOffset) := by
    unfold feedEarly Channel.feed Channel.push
    grind
  simp only [early, heap_update_self, hmap, hm, hlength, List.length_cons]

/-- Feeding the early chunks ends when the channel does not have the one it waits for. -/
theorem moves_feedWaiting (hrel : cfg.reliability = true) (hopen : t.sess.closed = false)
    (hh : h < t.sess.next) (hfeeding : t.feeding = some h) {fuel : Nat}
    (hfuel : t.sess.early h ≤ fuel) :
  Moves cfg r t ({ t with feeding := none }.put (t.sess.feedWaiting cfg h fuel))
  := by
  induction fuel generalizing t with
  | zero =>
      have hnone : t.sess.waiting h = none := by
        cases hw : t.sess.waiting h with
        | none => rfl
        | some p =>
            have := early_feedEarly hw
            omega
      exact .single (Move.fed h hfeeding hnone)
  | succ fuel ih =>
      unfold feedWaiting
      split
      · rename_i hnone
        exact .single (Move.fed h hfeeding hnone)
      · rename_i p hw
        have hmove : Move cfg r t _ := Move.feedEarly h p hh hrel hfeeding hw
        have hearly := early_feedEarly hw
        have hnext := feedNext_open hrel (s := t.sess.update h fun c =>
          { c with reorderMap := c.reorderMap.map (·.erase c.readOffset) }) hopen h p
        rw [update_update, heap_update_self] at hnext
        rw [hnext]
        refine .head hmove ?_
        by_cases hclosed : (t.sess.heap h).closed = true
        · have hcredit : Moves cfg r _ _ := moves_creditSession
            (t := t.put (t.sess.update h (feedEarly p))) hopen p.length
          simp only [hclosed, if_true]
          apply Moves.andThen hcredit hopen hh
          intro hopen' hh'
          apply ih hopen' hh' hfeeding
          have hsame : ((t.sess.update h (feedEarly p)).creditSession cfg p.length).early h
              = (t.sess.update h (feedEarly p)).early h := by
            rw [early, heap_creditSession]
            rfl
          simp only [put, hsame]
          omega
        · simp only [hclosed, Bool.false_eq_true, if_false]
          apply ih (t := t.put (t.sess.update h (feedEarly p))) hopen hh hfeeding
          simp only [put]
          omega

theorem heap_resetPeer (cfg : SessionConfig) (s : Session) (force : Bool) (h : Nat) :
  ∃ lastRst, (s.resetPeer cfg force h).heap h = { s.heap h with lastRst := lastRst }
  := by
  unfold resetPeer sendReset offerControlFrame
  dsimp only
  split
  · exact ⟨_, rfl⟩
  · split
    · exact ⟨_, rfl⟩
    · use s.now
      split
      · simp
      · split <;> simp [update]

section

variable (hrel : cfg.reliability = true)

include hrel

/-- A channel that is fed can still reassemble. -/
theorem isSome_reorderMap_feedNext (hopen : s.closed = false) (p : Bytes)
    (hmap : (s.heap h).reorderMap.isSome = true) :
  ((s.feedNext cfg h p).heap h).reorderMap.isSome = true ∧ (s.feedNext cfg h p).closed = false
  := by
  have hfeed : ((s.update h (Channel.feed p)).heap h).reorderMap = (s.heap h).reorderMap := by
    rw [heap_update_self]
    unfold Channel.feed Channel.push
    grind
  rw [feedNext_open hrel hopen]
  split
  · rw [heap_creditSession, hfeed]
    exact ⟨hmap, by simpa using hopen⟩
  · rw [hfeed]
    exact ⟨hmap, hopen⟩

theorem isSome_reorderMap_feedWaiting (hopen : s.closed = false) (fuel : Nat)
    (hmap : (s.heap h).reorderMap.isSome = true) :
  ((s.feedWaiting cfg h fuel).heap h).reorderMap.isSome = true
  := by
  induction fuel generalizing s with
  | zero => exact hmap
  | succ fuel ih =>
      unfold feedWaiting
      split
      · exact hmap
      · rename_i p _
        obtain ⟨hmap', hopen'⟩ := isSome_reorderMap_feedNext hrel (h := h)
          (s := s.update h fun c =>
            { c with reorderMap := c.reorderMap.map (·.erase c.readOffset) }) hopen p
          (by simpa using hmap)
        exact ih hopen' hmap'

/-- The chunk a channel waits for is fed, with those after it that came early. -/
theorem moves_feedInOrder (hopen : t.sess.closed = false) (hh : h < t.sess.next)
    (hhand : t.hand = f :: rest) (hflag : f.flag = .data) (hid : (t.sess.heap h).id = f.chID)
    (hmap : (t.sess.heap h).reorderMap.isSome = true)
    (hoffset : f.offset = (t.sess.heap h).readOffset) (hfeeding : t.feeding = none) :
  Moves cfg r t ((t.withHand rest).put (t.sess.feedInOrder cfg h f.data))
  := by
  have hmove : Move cfg r t _ :=
    Move.feed f rest h hhand hflag hh hid hrel hmap hoffset hfeeding
  have hfeed : Moves cfg r t (({ t with feeding := some h }.withHand rest).put
      (t.sess.feedNext cfg h f.data)) := by
    rw [feedNext_open hrel hopen]
    by_cases hclosed : (t.sess.heap h).closed = true
    · refine .head hmove ?_
      have hcredit : Moves cfg r _ _ := moves_creditSession
        (t := ({ t with feeding := some h }.withHand rest).put
          (t.sess.update h (Channel.feed f.data))) hopen f.data.length
      simp only [hclosed, if_true]
      exact hcredit
    · simp only [hclosed] at hmove ⊢
      exact .single hmove
  unfold feedInOrder
  apply Moves.andThen hfeed hopen hh
  intro hopen₁ hh₁
  obtain ⟨hmap₁, -⟩ := isSome_reorderMap_feedNext hrel hopen f.data hmap
  have hmap₂ : ((if t.sess.takes h then t.sess.feedNext cfg h f.data
      else (t.sess.feedNext cfg h f.data).resetPeer cfg false h).heap h).reorderMap.isSome
        = true := by
    split
    · exact hmap₁
    · obtain ⟨_, hheap⟩ := heap_resetPeer cfg (t.sess.feedNext cfg h f.data) false h
      rw [hheap]
      exact hmap₁
  have hreset : Moves cfg r (({ t with feeding := some h }.withHand rest).put
        (t.sess.feedNext cfg h f.data))
      (({ t with feeding := some h }.withHand rest).put
        (if t.sess.takes h then t.sess.feedNext cfg h f.data
          else (t.sess.feedNext cfg h f.data).resetPeer cfg false h)) := by
    split
    · exact .refl
    · rename_i htakes
      refine moves_resetPeer hh₁ ?_ false
      have hclosed : (t.sess.heap h).closed = true := by
        simpa [takes, hopen] using htakes
      simp only [put, feedNext_open hrel hopen, hclosed, if_true]
      rw [heap_creditSession]
      simp [Channel.feed, hclosed]
  apply Moves.andThen hreset hopen₁ hh₁
  intro hopen₂ hh₂
  apply Moves.andThen (moves_feedWaiting hrel hopen₂ hh₂ rfl le_rfl) hopen₂ hh₂
  intro hopen₃ hh₃
  have hmap₃ := fun fuel => isSome_reorderMap_feedWaiting hrel hopen₂ fuel hmap₂
  apply Moves.andThen (moves_ackInOrder hopen₃ hh₃ (hmap₃ _) f.data.length) hopen₃ hh₃
  intro hopen₄ hh₄
  apply Moves.of_eq (moves_closeFinished hopen₄ hrel hh₄)
  simp only [put, withHand, hfeeding]

end

/-- A frame is ignored. -/
theorem moves_pass (hhand : t.hand = f :: rest) (hflag : f.flag ≠ .upd)
    (hpass : cfg.reliability = true ∨ f.flag ≠ .data ∨ f.data = []) :
  Moves cfg r t (t.withHand rest)
  := .single (Move.pass f rest hhand hflag hpass)

/-- Data out of order is kept. -/
theorem moves_keepEarly (hrel : cfg.reliability = true) (hh : h < t.sess.next)
    (hhand : t.hand = f :: rest) (hflag : f.flag = .data) (hid : (t.sess.heap h).id = f.chID)
    (hoffset : (t.sess.heap h).readOffset < f.offset) :
  Moves cfg r t ((t.withHand rest).put (t.sess.keepEarly cfg h f.offset f.data))
  := by
  have hpass : ∀ g : Channel → Channel, g (t.sess.heap h) = t.sess.heap h →
      Moves cfg r t ((t.withHand rest).put (t.sess.update h g)) := by
    intro g hg
    apply Moves.of_eq (moves_pass hhand (by simp [hflag]) (.inl hrel))
    simp [put, withHand, update, hg]
  unfold keepEarly
  cases hmap : (t.sess.heap h).reorderMap with
  | none =>
      apply hpass
      simp [hmap]
  | some m =>
      by_cases hfar : cfg.maxReorderBytes < f.offset - (t.sess.heap h).readOffset
      · apply hpass
        simp [hmap, hfar]
      · cases hlookup : m.lookup f.offset with
        | some p =>
            apply hpass
            simp [hmap, hfar, hlookup]
        | none =>
            have hmove : Move cfg r t _ :=
              Move.early f rest h m hhand hflag hh hid hrel hmap hoffset hlookup
            apply Moves.of_eq (.single hmove)
            simp [put, withHand, update, Channel.keepEarly, hmap, hfar, hlookup]

section

variable (hrel : cfg.reliability = true) (hopen : t.sess.closed = false) (hh : h < t.sess.next)
  (hhand : t.hand = f :: rest)

include hrel hopen hh hhand

/-- A chunk for a channel with retransmissions, in any order. -/
theorem moves_feedReliablePayload (hflag : f.flag = .data) (hid : (t.sess.heap h).id = f.chID)
    (hmap : (t.sess.heap h).reorderMap.isSome = true) (hfeeding : t.feeding = none) :
  Moves cfg r t ((t.withHand rest).put (t.sess.feedReliablePayload cfg h f.offset f.data))
  := by
  have hack : Moves cfg r t ((t.withHand rest).put
      (t.sess.sendAck cfg h (t.sess.heap h).cumulativeAckLocked)) := by
    have hpass : Moves cfg r t _ := moves_pass hhand (by simp [hflag]) (.inl hrel)
    exact hpass.trans (moves_sendAck (t := t.withHand rest) hopen hh hmap rfl)
  unfold feedReliablePayload
  dsimp only
  rw [if_neg (by simpa [Option.isNone_iff_eq_none, Option.isSome_iff_ne_none] using hmap)]
  split
  · exact hack
  · split
    · rename_i heq
      exact moves_feedInOrder hrel hopen hh hhand hflag hid hmap heq hfeeding
    · split
      · rename_i hlt
        have hearly : Moves cfg r t _ := moves_keepEarly hrel hh hhand hflag hid hlt
        apply Moves.andThen hearly hopen hh
        intro hopen' hh'
        apply moves_sendAck hopen' hh'
        · simp only [put, keepEarly, heap_update_self]
          grind
        · simp only [put, keepEarly, heap_update_self, cumulativeAckLocked]
          grind
      · exact hack

/-- The end of a stream arrives. -/
theorem moves_handleFinReliable (hflag : f.flag = .fin) (hid : (t.sess.heap h).id = f.chID) :
  Moves cfg r t ((t.withHand rest).put (t.sess.handleFinReliable cfg h f.offset))
  := by
  unfold handleFinReliable
  split
  · apply moves_pass hhand (by simp [hflag]) (.inl hrel)
  · rename_i hmap
    have hmap : (t.sess.heap h).reorderMap.isSome = true := by
      simpa [Option.isSome_iff_ne_none, Option.isNone_iff_eq_none] using hmap
    have hmove : Move cfg r t _ := Move.gotFin f rest h hhand hflag hh hid hrel hmap
    apply Moves.andThen (.single hmove) hopen hh
    intro hopen₁ hh₁
    have hmap₁ : ((t.sess.update h (gotFin f.offset)).heap h).reorderMap.isSome = true := by
      rwa [heap_update_self]
    apply Moves.andThen (moves_sendAck hopen₁ hh₁ hmap₁ rfl) hopen₁ hh₁
    intro hopen₂ hh₂
    apply moves_closeFinished hopen₂ hrel hh₂

end

theorem onAck_eq (cfg : SessionConfig) (s : Session) (h ackOffset : Nat) :
  s.onAck cfg h ackOffset = s.acked h ackOffset
    ∨ s.onAck cfg h ackOffset = (s.acked h ackOffset).maybeFinalize cfg h
  := by
  unfold onAck acked Channel.acked arqLeave
  by_cases hempty : ((s.heap h).unacked.dropWhile fun f => decide (f.end_ ≤ ackOffset)) = []
      ∧ (s.heap h).unacked ≠ []
  · right
    by_cases harq : (s.heap h).inARQ = true
    · simp [hempty.1, hempty.2, harq, update, arqRemove]
    · simp [hempty.1, hempty.2, harq, update]
  · left
    have hempty' : ¬ ((s.heap h).unacked ≠ []
        ∧ ((s.heap h).unacked.dropWhile fun f => decide (f.end_ ≤ ackOffset)) = []) := by
      rwa [and_comm]
    simp only [hempty, hempty', if_false, update, decide_false, Bool.not_false,
      Bool.and_true]

/-- An acknowledgement arrives. -/
theorem moves_onAck (hopen : t.sess.closed = false) (hh : h < t.sess.next)
    (hhand : t.hand = f :: rest) (hflag : f.flag = .ack) (hid : (t.sess.heap h).id = f.chID) :
  Moves cfg r t ((t.withHand rest).put (t.sess.onAck cfg h f.offset))
  := by
  have hmove : Moves cfg r t ((t.withHand rest).put (t.sess.acked h f.offset)) :=
    .single (Move.acked f rest h hhand hflag hh hid)
  rcases onAck_eq cfg t.sess h f.offset with heq | heq
  · rw [heq]
    apply hmove
  · rw [heq]
    apply Moves.andThen hmove hopen hh
    intro hopen' hh'
    apply moves_maybeFinalize hopen' hh'

/-- The frames that are due are unacknowledged, and only the times of a frame change. -/
theorem dueFrames_content (cfg : SessionConfig) (now : Int) (us : List UnackedFrame) :
  (dueFrames cfg now us).1.map UnackedFrame.content = us.map UnackedFrame.content
    ∧ ∀ u ∈ (dueFrames cfg now us).2.1, u.content ∈ us.map UnackedFrame.content
  := by
  induction us with
  | nil => simp [dueFrames]
  | cons u us ih =>
      unfold dueFrames
      dsimp only
      split
      · simp only [List.map_cons, ih.1, List.mem_cons, true_and]
        intro v hv
        right
        apply ih.2 v hv
      · split
        · simp [UnackedFrame.content]
        · simp only [List.map_cons, ih.1, List.mem_cons]
          constructor
          · rfl
          · rintro v (rfl | hv)
            · left
              rfl
            · right
              apply ih.2 v hv

section

variable (hopen : t.sess.closed = false) (hh : h < t.sess.next)

include hopen hh

/-- Frames that are kept are sent again. -/
theorem moves_sendRetransmissions {us : List UnackedFrame}
    (hus : ∀ u ∈ us, u.content ∈ (t.sess.heap h).unacked.map UnackedFrame.content) :
  Moves cfg r t (t.put (t.sess.sendRetransmissions h us))
  := by
  induction us generalizing t with
  | nil => exact .refl
  | cons u us ih =>
      have hmove : Move cfg r t _ := Move.resend h u hh (hus u List.mem_cons_self)
      rw [sendRetransmissions, writeDataFrame_open hopen]
      refine .head hmove ?_
      apply ih (t := t.put { t.sess with writes := t.sess.writes ++ [u.frame (t.sess.heap h).id] })
        hopen hh
      intro v hv
      apply hus v (List.mem_cons_of_mem u hv)

/-- Frames whose time is up are sent again. -/
theorem moves_checkRetransmissions :
  Moves cfg r t (t.put (t.sess.checkRetransmissions cfg h))
  := by
  obtain ⟨hsame, hdue⟩ := dueFrames_content cfg t.sess.now (t.sess.heap h).unacked
  unfold checkRetransmissions
  dsimp only
  generalize hr : dueFrames cfg t.sess.now (t.sess.heap h).unacked = due at hsame hdue
  have hretime : Moves cfg r t _ := moves_touch hh (fun c => { c with unacked := due.1 })
    (.retime hsame)
  apply Moves.andThen hretime hopen hh
  intro hopen₁ hh₁
  have hgiveUp : Moves cfg r _ _ :=
    moves_alike hh₁ (fun c => { c with giveUp := c.giveUp || due.2.2 }) rfl
  apply Moves.andThen hgiveUp hopen₁ hh₁
  intro hopen₂ hh₂
  simp only [put, update_update] at hopen₂ hh₂ ⊢
  apply moves_sendRetransmissions (t := t.put (t.sess.update h fun c =>
    { c with unacked := due.1, giveUp := c.giveUp || due.2.2 })) hopen₂ hh₂
  intro u hu
  simp only [put, heap_update_self, hsame]
  apply hdue u hu

theorem moves_retransmitAllUnacked :
  Moves cfg r t (t.put (t.sess.retransmitAllUnacked h))
  := by
  unfold retransmitAllUnacked
  dsimp only
  generalize hus : ((t.sess.heap h).unacked.map fun f => { f with sentAt := t.sess.now }) = us
  have hsame : us.map UnackedFrame.content = (t.sess.heap h).unacked.map UnackedFrame.content := by
    simp [← hus, UnackedFrame.content, Function.comp_def]
  have hretime : Moves cfg r t _ := moves_touch hh (fun c => { c with unacked := us })
    (.retime hsame)
  apply Moves.andThen hretime hopen hh
  intro hopen₁ hh₁
  apply moves_sendRetransmissions hopen₁ hh₁
  intro u hu
  simp only [put, heap_update_self]
  apply List.mem_map_of_mem hu

end

/-- The scan looks at its channels. -/
theorem moves_arqScanAll (hopen : t.sess.closed = false) {hs : List Nat}
    (hhs : ∀ h ∈ hs, h < t.sess.next) :
  Moves cfg r t (t.put (t.sess.arqScanAll cfg hs))
  := by
  induction hs generalizing t with
  | nil => exact .refl
  | cons h hs ih =>
      have hh : h < t.sess.next := hhs h List.mem_cons_self
      have hscan : Moves cfg r t (t.put (t.sess.arqScan cfg h)) := by
        unfold arqScan
        split
        · rename_i hempty
          apply Moves.andThen (.single (Move.idle h hh hempty)) hopen hh
          intro hopen' hh'
          apply moves_maybeFinalize hopen' hh'
        · apply moves_checkRetransmissions hopen hh
      obtain ⟨hclosed, hnext⟩ := hscan.closed_next
      apply hscan.trans
      apply ih
      · rw [hclosed, hopen]
      · intro k hk
        apply lt_of_lt_of_le (hhs k (List.mem_cons_of_mem h hk)) hnext

end Station

end Muxocket
