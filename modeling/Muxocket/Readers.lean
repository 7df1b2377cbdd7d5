import Muxocket.Receive

/-!
# The two readers

A session reads frames from a stream or from datagrams, and has a dispatch for each.  They
treat a frame alike unless it is data for which there is no channel, or data that a channel
without retransmissions does not take.
-/

namespace Muxocket

/-- What can be seen of a channel: everything but its history. -/
def Channel.visible (c : Channel) : Channel :=
  { c with sent := [], pushed := [], delivered := [], dropped := 0, lost := 0, finSent := false }

/-- What can be seen of a session: everything but its history. -/
def Session.visible (s : Session) : Session :=
  { s with heap := fun h => (s.heap h).visible, discarded := [] }

/-- A frame as a peer sends it, other than a window update: data is not empty and not longer
than a frame may be, and no other frame has a length. -/
structure PacketFrame.WellFormed (cfg : SessionConfig) (f : PacketFrame) : Prop where
  upd : f.flag ≠ .upd
  data : f.flag = .data →
    f.dataLength = f.data.length ∧ 0 < f.dataLength ∧ f.dataLength ≤ cfg.maxFrameDataSize
  empty : f.flag ≠ .data → f.dataLength = 0

namespace Session

/-- The two readers treat the frame alike.  Data must be for a channel that is open: one with
retransmissions, one that takes the data, or one of a session without flow control.  Other data
is for a channel that was closed recently, and there is no room for the reset that the reader
of a stream sends. -/
def ReadersAgree (cfg : SessionConfig) (f : PacketFrame) (s : Session) : Prop :=
  f.flag = .data →
    match s.channels f.chID with
    | some h => cfg.reliability = true ∨ s.takes h = true ∨ s.flow.enabled = false
    | none =>
        s.closed = false ∧ s.recentlyClosed f.chID = true
          ∧ cfg.ctrlDepth ≤ (s.creditDiscarded cfg f.data.length).ctrlQueue.length

/-! ### Credit -/

theorem flow_sessionOnRead (cfg : SessionConfig) (n : Int) (s : Session) :
  ((s.sessionOnRead cfg n).flow.consumed, (s.sessionOnRead cfg n).flow.unflushed)
    = if (s.flow.consume n).threshold ≤ (s.flow.consume n).consumed then
        ((s.flow.consume n).flushUpdate.consumed, (s.flow.consume n).flushUpdate.unflushed)
      else ((s.flow.consume n).consumed, (s.flow.consume n).unflushed)
  := by
  unfold sessionOnRead flushSessionUpdate writeControlFrameNonBlocking
  dsimp only
  split
  · split
    · split
      · rename_i hs
        split at hs
        · contradiction
        · split at hs <;> (obtain rfl := Option.some.inj hs; rfl)
      · rfl
    · rfl
  · rfl

/-- A counter that wraps comes back only after a whole turn. -/
theorem int32_add_ne {x n : Int} (hpos : 0 < n) (hlt : n < 2 ^ 31) :
  int32 (x + n) ≠ x
  := by
  unfold int32
  split <;> omega

/-- Credit that is returned shows. -/
theorem flow_sessionOnRead_ne (cfg : SessionConfig) {n : Nat} (hpos : 0 < n) (hlt : n < 2 ^ 31)
    (s : Session) :
  (s.sessionOnRead cfg (int32 n)).flow ≠ s.flow
  := by
  intro heq
  have hflow := flow_sessionOnRead cfg (int32 n) s
  have hn : int32 n = n := int32_of_mem (by omega) (by omega)
  have hconsumed : int32 (s.flow.consumed + n) ≠ s.flow.consumed :=
    int32_add_ne (by omega) (by omega)
  have hmost : int32 (s.flow.consumed + n) < 2 ^ 31 := by
    unfold int32
    split <;> omega
  rw [heq, hn] at hflow
  simp only [Flow.flushUpdate, Flow.consume] at hflow
  by_cases hdue : s.flow.threshold ≤ int32 (s.flow.consumed + n)
  · by_cases hnone : int32 (s.flow.consumed + n) ≤ 0
    · simp only [hdue, hnone, if_true, Prod.mk.injEq] at hflow
      rw [hflow.1, zero_add, hn] at hnone
      omega
    · simp only [hdue, hnone, if_true, if_false, Prod.mk.injEq] at hflow
      exact int32_add_ne (by omega) hmost hflow.2.symm
  · simp only [hdue, if_false, Prod.mk.injEq] at hflow
    exact hconsumed hflow.1.symm

/-! ### Early frames -/

/-- A queue of early frames is kept until it expires. -/
theorem lookup_releaseExpired (cfg : SessionConfig) (id : Nat)
    (queues : List (Sigma fun _ : Nat => PendingQueue)) (s : Session) :
  ((s.releaseExpired cfg queues).pending.lookup id = none
      ∨ (s.releaseExpired cfg queues).pending.lookup id = s.pending.lookup id)
    ∧ ((∀ e ∈ queues, e.1 = id → s.now ≤ e.2.expires) →
      (s.releaseExpired cfg queues).pending.lookup id = s.pending.lookup id)
  := by
  induction queues generalizing s with
  | nil => exact ⟨.inr rfl, fun _ => rfl⟩
  | cons e queues ih =>
      unfold releaseExpired
      split
      · rename_i hexpired
        obtain ⟨hor, hfresh⟩ := ih (s.releasePendingLocked cfg e.1 e.2)
        have hpaid := paid_creditPending cfg e.1 e.2.frames s
        have hnow : (s.releasePendingLocked cfg e.1 e.2).now = s.now := by
          rw [releasePendingLocked, hpaid]
        have hpending : (s.releasePendingLocked cfg e.1 e.2).pending = s.pending.erase e.1 := by
          rw [releasePendingLocked, hpaid]
        rw [hnow] at hfresh
        rw [hpending] at hor hfresh
        by_cases hid : e.1 = id
        · subst hid
          rw [AList.lookup_erase, or_self] at hor
          refine ⟨.inl hor, ?_⟩
          intro hall
          have hle := hall e List.mem_cons_self rfl
          omega
        · rw [AList.lookup_erase_ne (Ne.symm hid)] at hor hfresh
          exact ⟨hor, fun hall => hfresh fun e' he' => hall e' (List.mem_cons_of_mem _ he')⟩
      · obtain ⟨hor, hfresh⟩ := ih s
        exact ⟨hor, fun hall => hfresh fun e' he' => hall e' (List.mem_cons_of_mem _ he')⟩

variable {cfg : SessionConfig} {s : Session} {id offset : Nat} {p : Bytes}

/-- An early frame that is kept shows, if the early frames of a new channel do not expire at
once. -/
theorem pending_keepPending_ne (hTTL : 0 ≤ cfg.pendingEarlyFramesTTL) (id : Nat)
    (f : PendingFrame) (s : Session) :
  ((s.pruneLocked cfg).keepPending cfg id f).pending ≠ s.pending
  := by
  intro heq
  obtain ⟨hor, hfresh⟩ := lookup_releaseExpired cfg id s.pending.entries s
  have hnow : (s.pruneLocked cfg).now = s.now := by
    rw [beside_pruneLocked cfg s]
  have hlookup := congrArg (AList.lookup id) heq
  simp only [keepPending, AList.lookup_insert, hnow] at hlookup
  have hpruned : (s.pruneLocked cfg).pending = (s.releaseExpired cfg s.pending.entries).pending :=
    rfl
  rw [hpruned] at hlookup
  cases hq : (s.releaseExpired cfg s.pending.entries).pending.lookup id with
  | some q =>
      rw [hq] at hor hlookup
      rcases hor with hnone | hsame
      · contradiction
      · rw [← hlookup] at hsame
        have hlength := congrArg (fun q => q.map fun q => q.frames.length) hsame
        simp [PendingQueue.push] at hlength
  | none =>
      rw [hq] at hfresh hlookup
      have hstays : ∀ e ∈ s.pending.entries, e.1 = id → s.now ≤ e.2.expires := by
        rintro ⟨i, q⟩ he rfl
        have hmem := AList.mem_lookup_iff.mpr he
        rw [Option.mem_def, ← hlookup] at hmem
        cases hmem
        simp only [Option.getD_none, PendingQueue.push, PendingQueue.new]
        omega
      rw [← hfresh hstays] at hlookup
      contradiction

/-- An early frame that is kept shows. -/
theorem pending_stashLocked_ne (hTTL : 0 ≤ cfg.pendingEarlyFramesTTL) {id : Nat}
    {f : PendingFrame} {s : Session} (hkept : (s.stashLocked cfg id f).1 = true) :
  (s.stashLocked cfg id f).2.pending ≠ s.pending
  := by
  obtain ⟨ids, hids⟩ := recentlyClosedLocked_eq id s
  unfold stashLocked at hkept ⊢
  rw [hids] at hkept ⊢
  grind [pending_keepPending_ne]

/-! ### Data -/

/-- Data for an unknown channel shows. -/
theorem unknownChannel_ne (cfg : SessionConfig) (id n : Nat) {s' : Session}
    (hclosed : s'.closed = s.closed) (herrors : s'.unknownChannelErrors = s.unknownChannelErrors) :
  (s.unknownChannel cfg id n).2.visible ≠ s'.visible
  := by
  have hpaid := paid_creditDiscarded cfg n (s.noteDiscarded id n)
  have hcount : ((s.noteDiscarded id n).creditDiscarded cfg n).unknownChannelErrors
      = s.unknownChannelErrors := by
    rw [hpaid]
    rfl
  intro heq
  have herrors' : (s.unknownChannel cfg id n).2.unknownChannelErrors = s.unknownChannelErrors := by
    have hsame := congrArg Session.unknownChannelErrors heq
    exact hsame.trans herrors
  have hclosed' : (s.unknownChannel cfg id n).2.closed = s.closed := by
    have hsame := congrArg Session.closed heq
    exact hsame.trans hclosed
  have hlt : ∀ x : Nat, (x + 1) % 2 ^ 32 ≠ x := by
    intro x
    omega
  unfold unknownChannel at herrors' hclosed'
  dsimp only at herrors' hclosed'
  split at herrors'
  · rename_i hmany
    rw [if_pos hmany, closed_closeSession] at hclosed'
    unfold closeSession at herrors'
    rw [if_pos (by simp [← hclosed'])] at herrors'
    rw [hcount] at herrors'
    exact hlt _ herrors'
  · rw [hcount] at herrors'
    exact hlt _ herrors'

theorem flow_feed (cfg : SessionConfig) (h : Nat) (p : Bytes) (s : Session) :
  (s.feed cfg h p).flow = s.flow
  := by
  unfold feed resetPeer sendReset offerControlFrame
  dsimp only
  split
  · rfl
  · split
    · split
      · rfl
      · split
        · rfl
        · split
          · rfl
          · split <;> rfl
    · rfl

/-- Data for a channel that is open. -/
theorem visible_receiveData_iff {h : Nat} (hpos : 0 < p.length) (hlt : p.length < 2 ^ 31)
    (hopen : s.channels id = some h) :
  (s.receiveData cfg h offset p).visible = (s.datagramData cfg id offset p).visible
    ↔ cfg.reliability = true ∨ s.takes h = true ∨ s.flow.enabled = false
  := by
  unfold receiveData datagramData feedOrCredit
  rw [hopen]
  dsimp only
  by_cases hrel : cfg.reliability = true
  · simp [hrel]
  by_cases htakes : s.takes h = true
  · simp [hrel, htakes]
  rw [if_neg hrel, if_neg hrel, if_neg htakes, if_neg htakes]
  simp only [hrel, htakes]
  generalize hfed : s.feed cfg h p = s'
  have hflow : s'.flow = s.flow := by
    rw [← hfed, flow_feed]
  have hsame : (s'.update h fun c => { c with dropped := c.dropped + p.length }).visible
      = (s'.update h fun c => { c with lost := c.lost + p.length }).visible := by
    simp only [visible, update]
    congr 1
    funext k
    by_cases hk : k = h
    · subst hk
      simp [Channel.visible]
    · simp [hk]
  cases henabled : s.flow.enabled with
  | false =>
      unfold creditDiscarded
      rw [if_pos (by simp [update, hflow, henabled]), hsame]
      simp
  | true =>
      have hcredit := flow_sessionOnRead_ne cfg hpos hlt
        (s'.update h fun c => { c with dropped := c.dropped + p.length })
      refine iff_of_false ?_ (by simp)
      intro heq
      apply hcredit
      have heq := congrArg Session.flow heq
      unfold creditDiscarded at heq
      rw [if_neg] at heq
      · exact heq
      · simp only [update, hrel, hflow, henabled]
        simp
        intro hnil
        simp [hnil] at hpos

theorem ctrlQueue_noteDiscarded (cfg : SessionConfig) (id m n : Nat) (s : Session) :
  ((s.noteDiscarded id m).creditDiscarded cfg n).ctrlQueue = (s.creditDiscarded cfg n).ctrlQueue
  := by
  unfold creditDiscarded sessionOnRead flushSessionUpdate writeControlFrameNonBlocking noteDiscarded
  grind

/-- A reset for a channel that was closed shows if there is room for it. -/
theorem visible_sendReset_iff (id offset : Nat) (hopen : s.closed = false) :
  (s.sendReset cfg id offset).visible = s.visible ↔ cfg.ctrlDepth ≤ s.ctrlQueue.length
  := by
  unfold sendReset offerControlFrame
  simp only [hopen, Bool.false_eq_true, if_false]
  split
  · rename_i hroom
    refine iff_of_false ?_ (by omega)
    intro heq
    have hlength := congrArg (fun s => s.ctrlQueue.length) heq
    simp [visible] at hlength
  · rename_i hfull
    exact iff_of_true rfl (by omega)

/-- Data for which there is no channel and no session, or for a channel that was closed
recently. -/
theorem visible_streamData_iff (hnone : s.channels id = none)
    (hlate : s.closed = true ∨ s.recentlyClosed id = true) :
  (s.streamData cfg id offset p).2.visible = (s.datagramData cfg id offset p).visible
    ↔ s.closed = false ∧ s.recentlyClosed id = true
      ∧ cfg.ctrlDepth ≤ (s.creditDiscarded cfg p.length).ctrlQueue.length
  := by
  unfold streamData datagramData
  rw [hnone]
  dsimp only
  have hpaid := paid_creditDiscarded cfg p.length (s.noteDiscarded id p.length)
  have hclosed : ((s.noteDiscarded id p.length).creditDiscarded cfg p.length).closed
      = s.closed := by
    rw [hpaid]
    rfl
  have herrors : ((s.noteDiscarded id p.length).creditDiscarded cfg p.length).unknownChannelErrors
      = s.unknownChannelErrors := by
    rw [hpaid]
    rfl
  by_cases hover : s.closed = true
  · rw [if_pos hover]
    exact iff_of_false (unknownChannel_ne cfg id p.length hclosed herrors) (by simp [hover])
  rw [if_neg hover]
  have hover : s.closed = false := by simpa using hover
  have hrecent : s.recentlyClosed id = true := by simpa [hover] using hlate
  rw [if_pos hrecent, visible_sendReset_iff id 0 (hclosed.trans hover), ctrlQueue_noteDiscarded]
  simp [hover, hrecent]

/-- Data that comes early is kept, or counted, by the reader of a stream, and dropped by that of
datagrams. -/
theorem visible_streamData_ne (hTTL : 0 ≤ cfg.pendingEarlyFramesTTL)
    (hnone : s.channels id = none) (hopen : s.closed = false)
    (hearly : s.recentlyClosed id = false) :
  (s.streamData cfg id offset p).2.visible ≠ (s.datagramData cfg id offset p).visible
  := by
  unfold streamData datagramData
  rw [hnone]
  simp only [hopen, hearly, Bool.false_eq_true, if_false]
  have hpaid := paid_creditDiscarded cfg p.length (s.noteDiscarded id p.length)
  obtain ⟨ids, hids⟩ := recentlyClosedLocked_eq id s
  rw [hids]
  split
  · rename_i hstashed
    intro heq
    apply pending_stashLocked_ne hTTL hstashed
    have hpending := congrArg Session.pending heq
    rw [hpaid] at hpending
    exact hpending
  · have hbeside := beside_stashLocked cfg id { flag := .data, offset := offset, data := p }
      { s with closedIDs := ids }
    apply unknownChannel_ne
    · rw [hpaid, hbeside]
      rfl
    · rw [hpaid, hbeside]
      rfl

/-! ### Frames -/

/-- The two readers agree on everything but data. -/
theorem receiveStream_eq {f : PacketFrame} (hf : f.WellFormed cfg) (hflag : f.flag ≠ .data)
    (busy : Bool) (s : Session) :
  s.receiveStream cfg busy f = s.receiveDatagram cfg busy f
  := by
  unfold receiveStream receiveDatagram
  cases hcase : f.flag with
  | data => contradiction
  | rst => simp [hf.empty hflag]
  | _ => rfl

/-- A frame that a peer sends, other than a window update, as the reader of a stream and that of
datagrams treat it, in any state of the session.  If the conditions of `ReadersAgree` are met,
they leave the session in the same state.  If they are not met then they do not, in a session
that keeps early frames for some time. -/
theorem readers_agree_iff (cfg : SessionConfig) (busy : Bool) (f : PacketFrame)
    (hf : f.WellFormed cfg) (s : Session) :
  (s.ReadersAgree cfg f →
      (s.receiveStream cfg busy f).2.visible = (s.receiveDatagram cfg busy f).2.visible)
    ∧ (0 ≤ cfg.pendingEarlyFramesTTL →
      (s.receiveStream cfg busy f).2.visible = (s.receiveDatagram cfg busy f).2.visible →
      s.ReadersAgree cfg f)
  := by
  by_cases hflag : f.flag = .data
  · obtain ⟨hlength, hpos, hle⟩ := hf.data hflag
    have hmax := hle.trans cfg.frame_le
    have hlt : f.data.length < 2 ^ 31 := by
      unfold maxAllocSize at hmax
      omega
    have hstream : (s.receiveStream cfg busy f) = s.streamData cfg f.chID f.offset f.data := by
      unfold receiveStream
      rw [hflag]
      simp only
      rw [if_neg (by omega), if_neg (by omega)]
    have hdatagram : (s.receiveDatagram cfg busy f).2
        = s.datagramData cfg f.chID f.offset f.data := by
      unfold receiveDatagram
      rw [hflag]
      simp only
      rw [if_neg (by omega)]
    rw [hstream, hdatagram]
    unfold ReadersAgree
    cases hopen : s.channels f.chID with
    | some h =>
        have hiff : (s.receiveData cfg h f.offset f.data).visible
            = (s.datagramData cfg f.chID f.offset f.data).visible ↔ _ :=
          visible_receiveData_iff (hlength ▸ hpos) hlt hopen
        have hdata : (s.streamData cfg f.chID f.offset f.data).2
            = s.receiveData cfg h f.offset f.data := by
          simp [streamData, hopen]
        rw [hdata]
        exact ⟨fun h => hiff.mpr (h hflag), fun _ h _ => hiff.mp h⟩
    | none =>
        by_cases hlate : s.closed = true ∨ s.recentlyClosed f.chID = true
        · have hiff : (s.streamData cfg f.chID f.offset f.data).2.visible
              = (s.datagramData cfg f.chID f.offset f.data).visible ↔ _ :=
            visible_streamData_iff hopen hlate
          exact ⟨fun h => hiff.mpr (h hflag), fun _ h _ => hiff.mp h⟩
        · rw [not_or, Bool.not_eq_true, Bool.not_eq_true] at hlate
          constructor
          · intro h
            have hrecent := (h hflag).2.1
            simp [hlate.2] at hrecent
          · intro hTTL heq
            exact absurd heq (visible_streamData_ne hTTL hopen hlate.1 hlate.2)
  · constructor
    · intro _
      rw [receiveStream_eq hf hflag]
    · intro _ _ hdata
      contradiction

/-- Data for a channel that is open. -/
theorem readers_agree_open :
  (((newSession defaultConfig.newSession 0).publish defaultConfig.newSession 11).receiveStream
      defaultConfig.newSession false
      { dataLength := 1, flag := .data, chID := 11, offset := 0, data := [1] }).2.visible
    = (((newSession defaultConfig.newSession 0).publish defaultConfig.newSession 11).receiveDatagram
      defaultConfig.newSession false
      { dataLength := 1, flag := .data, chID := 11, offset := 0, data := [1] }).2.visible
  := by
  apply (readers_agree_iff defaultConfig.newSession false
    { dataLength := 1, flag := .data, chID := 11, offset := 0, data := [1] }
    ⟨by decide, by decide, by decide⟩ _).1
  intro _
  right
  left
  rfl

/-- Data for a channel that is not open yet is kept by the reader of a stream, and dropped by that
of datagrams. -/
theorem readers_differ_early :
  PacketFrame.WellFormed defaultConfig.newSession
      { dataLength := 1, flag := .data, chID := 11, offset := 0, data := [1] }
    ∧ ((newSession defaultConfig.newSession 0).receiveStream defaultConfig.newSession false
      { dataLength := 1, flag := .data, chID := 11, offset := 0
        data := [1] }).2.visible.pendingBytes = 1
    ∧ ((newSession defaultConfig.newSession 0).receiveDatagram defaultConfig.newSession false
      { dataLength := 1, flag := .data, chID := 11, offset := 0
        data := [1] }).2.visible.pendingBytes = 0
  := by
  refine ⟨⟨by decide, by decide, by decide⟩, ?_, ?_⟩ <;> decide +kernel

end Session

end Muxocket
