import Mathlib.Data.List.AList
import Muxocket.Lib.Run
import Muxocket.World

/-!
# The acknowledgement of a reliable channel

The acknowledgement of what a reliable channel has received is shared by three parties that run
side by side: the reader of the session, which feeds the frames of the channel; the callback of
the timer that delays acknowledgements; and the batch writer, which asks for the offset of an
acknowledgement only when it writes it.  The first two send it with `sendAck`, which stops the
timer, stores the offset, swaps the flag `ackPending` and queues a frame, one after the other.
The reader does so under `reorderMu`.  The callback computes its offset under `reorderMu` and
sends it after it has released it.

As long as the acknowledgement that is due is delayed only when the ring of the channel is
empty, and nothing is received while a callback has an offset in hand, the acknowledgement is
written, queued or delayed whenever nobody is at work.  Neither is ensured by the code.
-/

namespace Muxocket

namespace DelayedAck

/-- What a party has still to do about the acknowledgement. -/
inductive Proc
  /-- Nothing. -/
  | idle
  /-- The callback waits for `reorderMu`, under which it computes the offset. -/
  | locking
  /-- `sendAck` stops the timer. -/
  | stopping (offset : Nat)
  /-- `sendAck` stores the offset. -/
  | storing (offset : Nat)
  /-- `sendAck` swaps the flag. -/
  | swapping
  /-- `sendAck` queues a frame. -/
  | queueing
  /-- `scheduleDelayedAck` stores the offset. -/
  | scheduling (offset : Nat)
  /-- `scheduleDelayedAck` looks at the flag and at the interval. -/
  | checking (offset : Nat)
  /-- `scheduleDelayedAck` looks at the ring. -/
  | probing
  /-- `scheduleDelayedAck` arms the timer. -/
  | arming
deriving DecidableEq

namespace Proc

/-- The party has an offset in hand. -/
def Carries : Proc → Prop
  | stopping _ | storing _ | scheduling _ | checking _ => True
  | _ => False

/-- The party does what a callback does, which is `sendAck` and what comes before. -/
def OfCallback : Proc → Prop
  | scheduling _ | checking _ | probing | arming => False
  | _ => True

/-- The party is going to store the offset. -/
def Sends : Proc → Prop
  | locking | stopping _ | storing _ | scheduling _ => True
  | _ => False

/-- The party has stored the offset and not yet seen to it that it is sent. -/
def Stored : Proc → Prop
  | swapping | checking _ | probing | arming => True
  | _ => False

/-- The offset the party works with, if any, is `n`. -/
def Holds (n : Nat) : Proc → Prop
  | stopping o | storing o | scheduling o | checking o => o = n
  | _ => True

instance (p : Proc) : Decidable p.Carries := by
  unfold Carries
  split <;> infer_instance

theorem holds_of_not_carries {p : Proc} (h : ¬ p.Carries) (n : Nat) :
  p.Holds n
  := by
  cases p with
  | stopping _ | storing _ | scheduling _ | checking _ => exact absurd trivial h
  | _ => trivial

end Proc

/-- The receiving side of a reliable channel, with the parties that acknowledge its frames.  Of
the frames only the lengths matter. -/
structure State where
  /-- Whether the application has closed the channel. -/
  closed : Bool := false
  /-- The number of buffers on the ring. -/
  ring : Nat := 0
  readOffset : Nat := 0
  reorderMap : AList fun _ : Nat => Nat := ∅
  hasFin : Bool := false
  finOffset : Nat := 0
  inOrderPackets : Nat := 0
  ackOffset : Nat := 0
  ackPending : Bool := false
  /-- Whether the timer is armed. -/
  armed : Bool := false
  /-- The number of acknowledgements on the way to the writer. -/
  queued : Nat := 0
  /-- What the reader of the session does.  It holds `reorderMu` unless it does nothing. -/
  receiver : Proc := .idle
  /-- What the callbacks of the timer do. -/
  callbacks : List Proc := []
  /-- Whether the writer has cleared the flag for a frame and not yet loaded its offset. -/
  resolving : Bool := false
  /-- The acknowledgement of the batch of the writer. -/
  batch : Option Nat := none
  /-- The offsets of the acknowledgements written. -/
  written : List Nat := []

namespace State

/-- The parties at work on the acknowledgement, besides the writer. -/
def procs (s : State) : List Proc :=
  s.receiver :: s.callbacks

/-- The stream has been received up to its end. -/
def finished (s : State) : Prop :=
  s.hasFin = true ∧ s.finOffset ≤ s.readOffset

instance (s : State) : Decidable s.finished := by
  unfold finished
  infer_instance

/-- The offset of the acknowledgement that is due. -/
def cumulativeAckLocked (s : State) : Nat :=
  if s.finished then s.finOffset + 1 else s.readOffset

/-- The offset of the last acknowledgement written.  Before the first, nothing has been
acknowledged. -/
def lastAck (s : State) : Nat :=
  s.written.getLastD 0

/-! ### Receiving -/

/-- Feed the chunk the channel waits for.  A closed channel does not put it on the ring. -/
def feedNext (length : Nat) (s : State) : State :=
  { s with
    readOffset := s.readOffset + length
    ring := if s.closed then s.ring else s.ring + 1 }

/-- Feed the chunks that came early and are now waited for. -/
def feedWaiting : Nat → State → State
  | 0, s => s
  | fuel + 1, s =>
      match s.reorderMap.lookup s.readOffset with
      | none => s
      | some length =>
          feedWaiting fuel
            (feedNext length { s with reorderMap := s.reorderMap.erase s.readOffset })

/-- Acknowledge a chunk fed in order, at once or later. -/
def ackInOrder (cfg : SessionConfig) (length : Nat) (s : State) : State :=
  let offset := s.cumulativeAckLocked
  if s.finished ∨ cfg.streamingAckRatio ≤ 1 then { s with receiver := .stopping offset }
  else
    let n := (s.inOrderPackets + 1) % 2 ^ 32
    let s := { s with inOrderPackets := n }
    if n % cfg.streamingAckRatio = 0
        ∨ cfg.maxFrameDataSize ≤ length ∧ cfg.immediateACKForLargePackets then
      { s with receiver := .stopping offset }
    else { s with receiver := .scheduling offset }

/-- Keep a chunk that came early, unless it is too far ahead or here already. -/
def keepEarly (cfg : SessionConfig) (offset length : Nat) (s : State) : State :=
  if cfg.maxReorderBytes < offset - s.readOffset then s
  else if (s.reorderMap.lookup offset).isSome then s
  else { s with reorderMap := s.reorderMap.insert offset length }

/-- The frame is fed under `reorderMu`; what is left to the reader is to acknowledge it. -/
def feedReliablePayload (cfg : SessionConfig) (offset length : Nat) (s : State) : State :=
  if offset + length ≤ s.readOffset then { s with receiver := .stopping s.cumulativeAckLocked }
  else if offset = s.readOffset then
    ackInOrder cfg length
      (feedWaiting s.reorderMap.entries.length (s.feedNext length))
  else if s.readOffset < offset then
    { s.keepEarly cfg offset length with receiver := .stopping s.cumulativeAckLocked }
  else { s with receiver := .stopping s.cumulativeAckLocked }

/-- The end of the stream is noted under `reorderMu`. -/
def handleFinReliable (finOffset : Nat) (s : State) : State :=
  let s := { s with hasFin := true, finOffset := finOffset }
  { s with receiver := .stopping s.cumulativeAckLocked }

/-! ### Acknowledging -/

/-- What a party does next, and what it has then still to do. -/
def run (cfg : SessionConfig) (s : State) : Proc → Option (State × Proc)
  | .idle => none
  | .locking =>
      if s.receiver = .idle then some (s, .stopping s.cumulativeAckLocked) else none
  | .stopping offset => some ({ s with armed := false }, .storing offset)
  | .storing offset => some ({ s with ackOffset := offset }, .swapping)
  | .swapping =>
      if s.ackPending then some (s, .idle) else some ({ s with ackPending := true }, .queueing)
  | .queueing => some ({ s with queued := s.queued + 1 }, .idle)
  | .scheduling offset => some ({ s with ackOffset := offset }, .checking offset)
  | .checking offset =>
      if s.ackPending then some (s, .idle)
      else if cfg.ackInterval ≤ 0 then some (s, .stopping offset)
      else some (s, .probing)
  | .probing => if 0 < s.ring then some (s, .idle) else some (s, .arming)
  | .arming => some ({ s with armed := true }, .idle)

end State

/-- What happens to the receiving side of a channel. -/
inductive Event
  /-- A chunk of the stream is received. -/
  | receive (offset length : Nat)
  /-- The end of the stream is received. -/
  | fin
  /-- The reader of the session goes on. -/
  | receiver
  /-- The timer fires. -/
  | fire
  /-- A callback of the timer goes on. -/
  | callback (i : Nat)
  /-- The writer comes to an acknowledgement of its batch, and clears the flag. -/
  | take
  /-- The writer loads the offset of the acknowledgement, which it merges with the one before. -/
  | resolve
  /-- The writer hands its batch to the transport. -/
  | flush
  /-- The application takes buffers off the ring. -/
  | read (n : Nat)
  /-- The application closes the channel. -/
  | close

namespace State

/-- A step of a channel that reads a stream of `total` bytes and is not finalized. -/
def step (cfg : SessionConfig) (total : Nat) (s : State) : Event → Option State
  | .receive offset length =>
      if s.receiver = .idle ∧ 0 < length ∧ offset + length ≤ total then
        some (s.feedReliablePayload cfg offset length)
      else none
  | .fin => if s.receiver = .idle then some (s.handleFinReliable total) else none
  | .receiver => (s.run cfg s.receiver).map fun r => { r.1 with receiver := r.2 }
  | .fire =>
      if s.armed then some { s with armed := false, callbacks := s.callbacks ++ [.locking] }
      else none
  | .callback i =>
      s.callbacks[i]?.bind fun p =>
        (s.run cfg p).map fun r => { r.1 with callbacks := r.1.callbacks.set i r.2 }
  | .take =>
      if 0 < s.queued ∧ s.resolving = false then
        some { s with queued := s.queued - 1, ackPending := false, resolving := true }
      else none
  | .resolve =>
      if s.resolving then
        some { s with
          resolving := false
          batch := some (max (s.batch.getD 0) s.ackOffset) }
      else none
  | .flush =>
      if s.resolving then none
      else s.batch.map fun o => { s with batch := none, written := s.written ++ [o] }
  | .read n => some { s with ring := s.ring - n }
  | .close => some { s with closed := true }

/-- No party is at work on the acknowledgement. -/
def Quiet (s : State) : Prop :=
  (∀ p ∈ s.procs, p = .idle) ∧ s.resolving = false ∧ s.batch = none

/-- The acknowledgement that is due has been written, is queued, or is delayed. -/
def OnItsWay (s : State) : Prop :=
  s.lastAck = s.cumulativeAckLocked
    ∨ (s.ackPending = true ∧ 0 < s.queued) ∧ s.ackOffset = s.cumulativeAckLocked
    ∨ s.armed = true

/-- An event by which nothing is received while a callback has an offset in hand, and the ring is
empty when a delayed acknowledgement comes to look at it. -/
def Orderly (s : State) : Event → Prop
  | .receive _ _ | .fin => ∀ p ∈ s.callbacks, ¬ p.Carries
  | .receiver => s.receiver = .probing → s.ring = 0
  | _ => True

instance (s : State) (e : Event) : Decidable (s.Orderly e) := by
  unfold Orderly
  split <;> infer_instance

instance (s : State) : Decidable s.Quiet := by
  unfold Quiet
  infer_instance

instance (s : State) : Decidable s.OnItsWay := by
  unfold OnItsWay
  infer_instance

/-! ### What receiving does -/

/-- What is received is part of a stream of `total` bytes. -/
structure Fits (total : Nat) (s : State) : Prop where
  read : s.readOffset ≤ total
  early : ∀ offset length, s.reorderMap.lookup offset = some length → offset + length ≤ total
  fin : s.hasFin = true → s.finOffset = total

/-- `s'` is `s` after some chunks have been fed. -/
structure Feeds (total : Nat) (s s' : State) : Prop where
  fits : s'.Fits total
  read_le : s.readOffset ≤ s'.readOffset
  rest : ∃ m k, s' = { s with readOffset := s'.readOffset, reorderMap := m, ring := k }

variable {length offset total : Nat} {s s' s₁ : State} {p p' : Proc} {cfg : SessionConfig}

theorem Fits.feedNext (hs : s.Fits total) (hlength : s.readOffset + length ≤ total) :
  Feeds total s (s.feedNext length)
  where
  fits := ⟨hlength, hs.early, hs.fin⟩
  read_le := Nat.le_add_right _ _
  rest := ⟨_, _, rfl⟩

theorem Feeds.trans {s₂ : State} (h₁ : Feeds total s s₁) (h₂ : Feeds total s₁ s₂) :
  Feeds total s s₂
  where
  fits := h₂.fits
  read_le := h₁.read_le.trans h₂.read_le
  rest := by
    obtain ⟨_, _, h₁⟩ := h₁.rest
    obtain ⟨m, k, h₂⟩ := h₂.rest
    use m, k
    rw [h₂, h₁]

/-- The chunk taken out of those that came early is part of the stream, as are the others. -/
theorem Fits.erase (hs : s.Fits total) (offset : Nat) :
  Feeds total s { s with reorderMap := s.reorderMap.erase offset }
  where
  fits := by
    refine ⟨hs.read, ?_, hs.fin⟩
    intro o length h
    rcases eq_or_ne o offset with rfl | hne
    · rw [AList.lookup_erase] at h
      contradiction
    · rw [AList.lookup_erase_ne hne] at h
      exact hs.early o length h
  read_le := le_rfl
  rest := ⟨_, _, rfl⟩

theorem Fits.feedWaiting (fuel : Nat) (hs : s.Fits total) :
  Feeds total s (s.feedWaiting fuel)
  := by
  induction fuel generalizing s with
  | zero => exact ⟨hs, le_rfl, _, _, rfl⟩
  | succ fuel ih =>
      unfold State.feedWaiting
      split
      · exact ⟨hs, le_rfl, _, _, rfl⟩
      · rename_i length hlength
        have herase := hs.erase s.readOffset
        have hnext := herase.fits.feedNext (hs.early _ _ hlength)
        exact (herase.trans hnext).trans (ih hnext.fits)

theorem Fits.keepEarly (cfg : SessionConfig) (hs : s.Fits total)
    (hlength : offset + length ≤ total) :
  Feeds total s (s.keepEarly cfg offset length)
  := by
  unfold State.keepEarly
  split
  · exact ⟨hs, le_rfl, _, _, rfl⟩
  split
  · exact ⟨hs, le_rfl, _, _, rfl⟩
  · refine ⟨⟨hs.read, ?_, hs.fin⟩, le_rfl, _, _, rfl⟩
    intro o n h
    rcases eq_or_ne o offset with rfl | hne
    · rw [AList.lookup_insert, Option.some.injEq] at h
      omega
    · rw [AList.lookup_insert_ne hne] at h
      exact hs.early o n h

theorem cumulativeAckLocked_keepEarly (cfg : SessionConfig) (offset length : Nat) (s : State) :
  (s.keepEarly cfg offset length).cumulativeAckLocked = s.cumulativeAckLocked
  := by
  unfold keepEarly
  split
  · rfl
  split
  · rfl
  · rfl

/-- What is due to be acknowledged only grows as the stream is received. -/
theorem cumulativeAckLocked_le (hs : s.Fits total) (hs' : s'.Fits total)
    (hread : s.readOffset ≤ s'.readOffset) (hfin : s.hasFin = true → s'.hasFin = true) :
  s.cumulativeAckLocked ≤ s'.cumulativeAckLocked
  := by
  have hle := hs'.read
  unfold cumulativeAckLocked
  split
  · rename_i h
    have hend := hs.fin h.1
    have hend' := hs'.fin (hfin h.1)
    have hfinished : s'.finished := ⟨hfin h.1, by have := h.2; omega⟩
    rw [if_pos hfinished, hend, hend']
  · split
    · rename_i h
      have hend' := hs'.fin h.1
      have := hs.read
      omega
    · exact hread

/-- `s'` is `s` after a frame has been received: the reader goes on to send the acknowledgement
that is now due. -/
structure Receives (total : Nat) (s s' : State) : Prop where
  fits : s'.Fits total
  le : s.cumulativeAckLocked ≤ s'.cumulativeAckLocked
  sends : s'.receiver.Sends
  holds : s'.receiver.Holds s'.cumulativeAckLocked
  rest : ∃ r m k f o n p, s' =
    { s with
      readOffset := r, reorderMap := m, ring := k, hasFin := f, finOffset := o,
      inOrderPackets := n, receiver := p }

/-- The reader goes on to send the acknowledgement when it has fed some chunks. -/
theorem Feeds.receives (hs : s.Fits total) (h : Feeds total s s') (n : Nat) (hsends : p.Sends)
    (hholds : p.Holds s'.cumulativeAckLocked) :
  Receives total s { s' with inOrderPackets := n, receiver := p }
  := by
  obtain ⟨m, k, hrest⟩ := h.rest
  have hfin : s'.hasFin = s.hasFin := by rw [hrest]
  have hle := cumulativeAckLocked_le hs h.fits h.read_le (by rw [hfin]; exact id)
  refine ⟨⟨h.fits.read, h.fits.early, h.fits.fin⟩, hle, hsends, hholds, ?_⟩
  use s'.readOffset, m, k, s.hasFin, s.finOffset, n, p
  rw [hrest]

theorem Fits.feedReliablePayload (cfg : SessionConfig) (hs : s.Fits total)
    (hlength : offset + length ≤ total) :
  Receives total s (s.feedReliablePayload cfg offset length)
  := by
  have hsame : Feeds total s s := ⟨hs, le_rfl, _, _, rfl⟩
  unfold State.feedReliablePayload
  split
  · exact hsame.receives hs _ trivial rfl
  split
  · rename_i hoffset
    have hnext := hs.feedNext (hoffset ▸ hlength)
    have hfed := hnext.trans (hnext.fits.feedWaiting s.reorderMap.entries.length)
    unfold ackInOrder
    split
    · exact hfed.receives hs _ trivial rfl
    dsimp only
    split
    · exact hfed.receives hs _ trivial rfl
    · exact hfed.receives hs _ trivial rfl
  split
  · have hkept := hs.keepEarly cfg hlength
    refine hkept.receives hs _ trivial ?_
    exact (s.cumulativeAckLocked_keepEarly cfg offset length).symm
  · exact hsame.receives hs _ trivial rfl

theorem Fits.handleFinReliable (hs : s.Fits total) :
  Receives total s (s.handleFinReliable total)
  := by
  have hfits : (s.handleFinReliable total).Fits total := ⟨hs.read, hs.early, fun _ => rfl⟩
  refine ⟨hfits, ?_, trivial, rfl, _, _, _, _, _, _, _, rfl⟩
  exact cumulativeAckLocked_le hs hfits le_rfl fun _ => rfl

/-! ### The acknowledgement is under way -/

/-- Somebody sees to it that the acknowledgement that is due is sent. -/
def Covered (s : State) : Prop :=
  s.armed = true ∨ (∃ p ∈ s.procs, p.Sends) ∨
    s.ackOffset = s.cumulativeAckLocked ∧
      (s.ackPending = true ∨ (∃ p ∈ s.procs, p.Stored) ∨ s.resolving = true
        ∨ s.batch = some s.cumulativeAckLocked ∨ s.lastAck = s.cumulativeAckLocked)

/-- The offsets of the acknowledgements written, to be written and stored go up. -/
structure Climbs (s : State) : Prop where
  written : s.written.Pairwise (· ≤ ·)
  batch : ∀ o ∈ s.batch, (∀ w ∈ s.written, w ≤ o) ∧ o ≤ s.ackOffset
  stored : ∀ w ∈ s.written, w ≤ s.ackOffset
  due : s.ackOffset ≤ s.cumulativeAckLocked

/-- What holds of a channel nothing is received by while an offset is in hand. -/
structure Acks (total : Nat) (s : State) : Prop where
  fits : s.Fits total
  holds : ∀ p ∈ s.procs, p.Holds s.cumulativeAckLocked
  climbs : s.Climbs
  pending : s.ackPending = true → 0 < s.queued ∨ .queueing ∈ s.procs
  covered : s.Covered

/-- A quiet channel has its acknowledgement on its way. -/
theorem Acks.onItsWay (hs : s.Acks total) (hquiet : s.Quiet) :
  s.OnItsWay
  := by
  obtain ⟨hidle, hresolving, hbatch⟩ := hquiet
  obtain harmed | ⟨p, hp, hsends⟩ | ⟨hoffset, hcovered⟩ := hs.covered
  · exact Or.inr (Or.inr harmed)
  · rw [hidle p hp] at hsends
    contradiction
  obtain hpending | ⟨p, hp, hstored⟩ | h | h | hlast := hcovered
  · obtain hqueued | hqueueing := hs.pending hpending
    · exact Or.inr (Or.inl ⟨⟨hpending, hqueued⟩, hoffset⟩)
    · have := hidle _ hqueueing
      contradiction
  · rw [hidle p hp] at hstored
    contradiction
  · rw [hresolving] at h
    contradiction
  · rw [hbatch] at h
    contradiction
  · exact Or.inl hlast

/-! ### Every step keeps it under way -/

/-- Receiving a frame leaves it to the reader to send the acknowledgement that is now due. -/
theorem Receives.acks (h : Receives total s s') (hs : s.Acks total) (hidle : s.receiver = .idle)
    (hclear : ∀ p ∈ s.callbacks, ¬ p.Carries) :
  s'.Acks total
  := by
  obtain ⟨hfits, hle, hsends, hholds, r, m, k, f, o, n, p, rfl⟩ := h
  refine ⟨hfits, ?_, ?_, ?_, ?_⟩
  · intro q hq
    obtain rfl | hq := List.mem_cons.mp hq
    · exact hholds
    · exact Proc.holds_of_not_carries (hclear q hq) _
  · exact ⟨hs.climbs.written, hs.climbs.batch, hs.climbs.stored, hs.climbs.due.trans hle⟩
  · intro hpending
    obtain hqueued | hqueueing := hs.pending hpending
    · exact Or.inl hqueued
    · obtain heq | hmem := List.mem_cons.mp hqueueing
      · rw [hidle] at heq
        contradiction
      · exact Or.inr (List.mem_cons_of_mem _ hmem)
  · exact Or.inr (Or.inl ⟨p, List.mem_cons_self, hsends⟩)

/-- In `l'` a party of `l` has gone on from `p` to `p'`. -/
structure Replaces (p p' : Proc) (l l' : List Proc) : Prop where
  new : p' ∈ l'
  kept : ∀ q ∈ l, q = p ∨ q ∈ l'
  only : ∀ q ∈ l', q = p' ∨ q ∈ l

theorem Replaces.cons (p p' : Proc) (l : List Proc) :
  Replaces p p' (p :: l) (p' :: l)
  where
  new := List.mem_cons_self
  kept _ hq := (List.mem_cons.mp hq).imp id (List.mem_cons_of_mem _)
  only _ hq := (List.mem_cons.mp hq).imp id (List.mem_cons_of_mem _)

theorem Replaces.set (p' : Proc) {l : List Proc} {i : Nat} (h : l[i]? = some p) (q : Proc) :
  Replaces p p' (q :: l) (q :: l.set i p')
  := by
  obtain ⟨hi, rfl⟩ := List.getElem?_eq_some_iff.mp h
  refine ⟨?_, ?_, ?_⟩
  · apply List.mem_cons_of_mem
    exact List.mem_set hi p'
  · intro x hx
    obtain rfl | hx := List.mem_cons.mp hx
    · exact Or.inr List.mem_cons_self
    · obtain ⟨j, hj, rfl⟩ := List.getElem_of_mem hx
      rcases eq_or_ne i j with rfl | hne
      · exact Or.inl rfl
      · refine Or.inr (List.mem_cons_of_mem _ ?_)
        have hset : j < (l.set i p').length := by rwa [List.length_set]
        rw [← List.getElem_set_ne hne (a := p') hset]
        apply List.getElem_mem
  · intro x hx
    obtain rfl | hx := List.mem_cons.mp hx
    · exact Or.inr List.mem_cons_self
    · exact (List.mem_or_eq_of_mem_set hx).symm.imp_right (List.mem_cons_of_mem _)

/-- A party that is not about to send the offset goes on. -/
theorem Covered.replace (hs : s.Covered) (hrep : Replaces p p' s.procs s'.procs) (hp : ¬ p.Sends)
    (harmed : s'.armed = s.armed) (hstored : s.ackOffset = s.cumulativeAckLocked → s'.Covered) :
  s'.Covered
  := by
  obtain h | ⟨q, hq, hsends⟩ | ⟨hoffset, -⟩ := hs
  · exact Or.inl (harmed.trans h)
  · obtain rfl | hq := hrep.kept q hq
    · contradiction
    · exact Or.inr (Or.inl ⟨q, hq, hsends⟩)
  · exact hstored hoffset

/-- What is stored is what is due. -/
theorem Climbs.store (hs : s.Climbs) (h : offset = s.cumulativeAckLocked) (r : Proc)
    (cs : List Proc) :
  Climbs { s with ackOffset := offset, receiver := r, callbacks := cs }
  where
  written := hs.written
  batch o ho := ⟨(hs.batch o ho).1, (hs.batch o ho).2.trans (hs.due.trans_eq h.symm)⟩
  stored w hw := (hs.stored w hw).trans (hs.due.trans_eq h.symm)
  due := h.le

/-- A party that goes on leaves the acknowledgement under way, unless it finds the ring not
empty. -/
theorem Acks.run {r : Proc} {cs : List Proc} (hs : s.Acks total) (hp : p ∈ s.procs)
    (hrun : s.run cfg p = some (s₁, p')) (hring : p = .probing → s.ring = 0)
    (hrep : Replaces p p' s.procs (r :: cs)) :
  Acks total { s₁ with receiver := r, callbacks := cs }
  := by
  obtain ⟨hread, hearly, hfin⟩ := hs.fits
  obtain ⟨hwritten, hbatch, hstored, hdue⟩ := hs.climbs
  have hholds (hp' : p'.Holds s.cumulativeAckLocked) :
      ∀ q ∈ r :: cs, q.Holds s.cumulativeAckLocked := by
    intro q hq
    obtain rfl | hq := hrep.only q hq
    · exact hp'
    · exact hs.holds q hq
  have hpending (hne : p ≠ .queueing) (h : s.ackPending = true) :
      0 < s.queued ∨ .queueing ∈ r :: cs := by
    obtain hqueued | hqueueing := hs.pending h
    · exact Or.inl hqueued
    · obtain rfl | hmem := hrep.kept _ hqueueing
      · contradiction
      · exact Or.inr hmem
  have hoffset := hs.holds p hp
  cases p with
  | idle => contradiction
  | locking =>
      obtain ⟨-, heq⟩ := Run.guard hrun
      cases heq
      refine ⟨⟨hread, hearly, hfin⟩, hholds rfl, ⟨hwritten, hbatch, hstored, hdue⟩,
        hpending nofun, ?_⟩
      exact Or.inr (Or.inl ⟨_, hrep.new, trivial⟩)
  | stopping offset =>
      cases hrun
      refine ⟨⟨hread, hearly, hfin⟩, hholds hoffset, ⟨hwritten, hbatch, hstored, hdue⟩,
        hpending nofun, ?_⟩
      exact Or.inr (Or.inl ⟨_, hrep.new, trivial⟩)
  | storing offset =>
      cases hrun
      refine ⟨⟨hread, hearly, hfin⟩, hholds trivial, hs.climbs.store hoffset r cs,
        hpending nofun, ?_⟩
      exact Or.inr (Or.inr ⟨hoffset, Or.inr (Or.inl ⟨_, hrep.new, trivial⟩)⟩)
  | scheduling offset =>
      cases hrun
      refine ⟨⟨hread, hearly, hfin⟩, hholds hoffset, hs.climbs.store hoffset r cs,
        hpending nofun, ?_⟩
      exact Or.inr (Or.inr ⟨hoffset, Or.inr (Or.inl ⟨_, hrep.new, trivial⟩)⟩)
  | swapping =>
      dsimp only [State.run] at hrun
      split at hrun
      · rename_i h
        cases hrun
        refine ⟨⟨hread, hearly, hfin⟩, hholds trivial, ⟨hwritten, hbatch, hstored, hdue⟩,
          hpending nofun, ?_⟩
        refine hs.covered.replace hrep id rfl fun hoffset => ?_
        exact Or.inr (Or.inr ⟨hoffset, Or.inl h⟩)
      · cases hrun
        refine ⟨⟨hread, hearly, hfin⟩, hholds trivial, ⟨hwritten, hbatch, hstored, hdue⟩,
          fun _ => Or.inr hrep.new, ?_⟩
        refine hs.covered.replace hrep id rfl fun hoffset => ?_
        exact Or.inr (Or.inr ⟨hoffset, Or.inl rfl⟩)
  | queueing =>
      cases hrun
      refine ⟨⟨hread, hearly, hfin⟩, hholds trivial, ⟨hwritten, hbatch, hstored, hdue⟩,
        fun _ => Or.inl (Nat.succ_pos _), ?_⟩
      obtain h | ⟨q, hq, hsends⟩ | ⟨hoffset, hcovered⟩ := hs.covered
      · exact Or.inl h
      · obtain rfl | hq := hrep.kept q hq
        · contradiction
        · exact Or.inr (Or.inl ⟨q, hq, hsends⟩)
      · refine Or.inr (Or.inr ⟨hoffset, hcovered.imp_right (Or.imp_left ?_)⟩)
        rintro ⟨q, hq, hq'⟩
        obtain rfl | hq := hrep.kept q hq
        · contradiction
        · exact ⟨q, hq, hq'⟩
  | checking offset =>
      dsimp only [State.run] at hrun
      split at hrun
      · rename_i h
        cases hrun
        refine ⟨⟨hread, hearly, hfin⟩, hholds trivial, ⟨hwritten, hbatch, hstored, hdue⟩,
          hpending nofun, ?_⟩
        refine hs.covered.replace hrep id rfl fun hoffset => ?_
        exact Or.inr (Or.inr ⟨hoffset, Or.inl h⟩)
      split at hrun
      · cases hrun
        refine ⟨⟨hread, hearly, hfin⟩, hholds hoffset, ⟨hwritten, hbatch, hstored, hdue⟩,
          hpending nofun, ?_⟩
        exact Or.inr (Or.inl ⟨_, hrep.new, trivial⟩)
      · cases hrun
        refine ⟨⟨hread, hearly, hfin⟩, hholds trivial, ⟨hwritten, hbatch, hstored, hdue⟩,
          hpending nofun, ?_⟩
        refine hs.covered.replace hrep id rfl fun hoffset => ?_
        exact Or.inr (Or.inr ⟨hoffset, Or.inr (Or.inl ⟨_, hrep.new, trivial⟩)⟩)
  | probing =>
      dsimp only [State.run] at hrun
      rw [if_neg (by have := hring rfl; omega)] at hrun
      cases hrun
      refine ⟨⟨hread, hearly, hfin⟩, hholds trivial, ⟨hwritten, hbatch, hstored, hdue⟩,
        hpending nofun, ?_⟩
      refine hs.covered.replace hrep id rfl fun hoffset => ?_
      exact Or.inr (Or.inr ⟨hoffset, Or.inr (Or.inl ⟨_, hrep.new, trivial⟩)⟩)
  | arming =>
      cases hrun
      refine ⟨⟨hread, hearly, hfin⟩, hholds trivial, ⟨hwritten, hbatch, hstored, hdue⟩,
        hpending nofun, ?_⟩
      exact Or.inl rfl

/-- A party that goes on does not interfere with what the others do. -/
theorem run_procs (hrun : s.run cfg p = some (s₁, p')) :
  s₁.receiver = s.receiver ∧ s₁.callbacks = s.callbacks
  := by
  cases p with
  | idle => contradiction
  | locking =>
      obtain ⟨-, heq⟩ := Run.guard hrun
      cases heq
      exact ⟨rfl, rfl⟩
  | swapping | probing =>
      dsimp only [State.run] at hrun
      split at hrun <;> cases hrun <;> exact ⟨rfl, rfl⟩
  | checking _ =>
      dsimp only [State.run] at hrun
      split at hrun
      · cases hrun
        exact ⟨rfl, rfl⟩
      split at hrun <;> cases hrun <;> exact ⟨rfl, rfl⟩
  | _ =>
      cases hrun
      exact ⟨rfl, rfl⟩

/-- The callback of the timer is going to send the acknowledgement that is then due. -/
theorem Acks.fire (hs : s.Acks total) :
  Acks total { s with armed := false, callbacks := s.callbacks ++ [.locking] }
  := by
  have hprocs : procs { s with armed := false, callbacks := s.callbacks ++ [.locking] } =
      s.procs ++ [.locking] := rfl
  obtain ⟨⟨hread, hearly, hfin⟩, hholds, ⟨hwritten, hbatch, hstored, hdue⟩, hpending, -⟩ := hs
  refine ⟨⟨hread, hearly, hfin⟩, ?_, ⟨hwritten, hbatch, hstored, hdue⟩, ?_, ?_⟩
  · intro p hp
    rw [hprocs, List.mem_append, List.mem_singleton] at hp
    obtain hp | rfl := hp
    · exact hholds p hp
    · trivial
  · intro h
    rw [hprocs]
    exact (hpending h).imp_right (List.mem_append_left _)
  · refine Or.inr (Or.inl ⟨.locking, ?_, trivial⟩)
    rw [hprocs]
    apply List.mem_concat_self

/-- The writer clears the flag, and is going to load the offset. -/
theorem Acks.take (hs : s.Acks total) :
  Acks total { s with queued := s.queued - 1, ackPending := false, resolving := true }
  := by
  obtain ⟨⟨hread, hearly, hfin⟩, hholds, ⟨hwritten, hbatch, hstored, hdue⟩, -, hcovered⟩ := hs
  refine ⟨⟨hread, hearly, hfin⟩, hholds, ⟨hwritten, hbatch, hstored, hdue⟩, nofun, ?_⟩
  refine hcovered.imp_right (Or.imp_right ?_)
  rintro ⟨hoffset, -⟩
  exact ⟨hoffset, Or.inr (Or.inr (Or.inl rfl))⟩

/-- The offset the writer loads is none below those it has loaded before. -/
theorem Acks.resolve (hs : s.Acks total) :
  Acks total { s with resolving := false, batch := some (max (s.batch.getD 0) s.ackOffset) }
  := by
  have hmax : max (s.batch.getD 0) s.ackOffset = s.ackOffset := by
    apply max_eq_right
    cases hbatch : s.batch with
    | none => exact Nat.zero_le _
    | some o => exact (hs.climbs.batch o hbatch).2
  obtain ⟨⟨hread, hearly, hfin⟩, hholds, ⟨hwritten, -, hstored, hdue⟩, hpending, hcovered⟩ := hs
  rw [hmax]
  refine ⟨⟨hread, hearly, hfin⟩, hholds, ⟨hwritten, ?_, hstored, hdue⟩, hpending, ?_⟩
  · intro o ho
    obtain rfl := Option.mem_some_iff.mp ho
    exact ⟨hstored, le_rfl⟩
  · refine hcovered.imp_right (Or.imp_right ?_)
    rintro ⟨hoffset, -⟩
    exact ⟨hoffset, Or.inr (Or.inr (Or.inr (Or.inl (congrArg some hoffset))))⟩

theorem lastAck_le {o : Nat} (h : ∀ w ∈ s.written, w ≤ o) :
  s.lastAck ≤ o
  := by
  unfold lastAck
  rw [List.getLastD_eq_getLast?]
  cases hlast : s.written.getLast? with
  | none => exact Nat.zero_le _
  | some w => exact h w (List.mem_of_getLast? hlast)

/-- The writer hands over an acknowledgement. -/
theorem Acks.flush {o : Nat} (hs : s.Acks total) (hbatch : s.batch = some o) :
  Acks total { s with batch := none, written := s.written ++ [o] }
  := by
  obtain ⟨hle, ho⟩ := hs.climbs.batch o hbatch
  obtain ⟨⟨hread, hearly, hfin⟩, hholds, ⟨hwritten, -, hstored, hdue⟩, hpending, hcovered⟩ := hs
  refine ⟨⟨hread, hearly, hfin⟩, hholds, ⟨?_, nofun, ?_, hdue⟩, hpending, ?_⟩
  · rw [List.pairwise_append]
    refine ⟨hwritten, List.pairwise_singleton _ _, ?_⟩
    intro w hw o' ho'
    obtain rfl := List.mem_singleton.mp ho'
    exact hle w hw
  · intro w hw
    obtain hw | hw := List.mem_append.mp hw
    · exact hstored w hw
    · rw [List.mem_singleton.mp hw]
      exact ho
  · refine hcovered.imp_right (Or.imp_right ?_)
    rintro ⟨hoffset, hrest⟩
    refine ⟨hoffset, ?_⟩
    have hlast : lastAck { s with batch := none, written := s.written ++ [o] } = o := by
      exact List.getLastD_concat
    obtain h | h | h | h | h := hrest
    · exact Or.inl h
    · exact Or.inr (Or.inl h)
    · exact Or.inr (Or.inr (Or.inl h))
    · rw [hbatch, Option.some.injEq] at h
      exact Or.inr (Or.inr (Or.inr (Or.inr (hlast.trans h))))
    · refine Or.inr (Or.inr (Or.inr (Or.inr (hlast.trans ?_))))
      apply le_antisymm (ho.trans hdue)
      exact h.symm.trans_le (lastAck_le hle)

/-- A callback goes on as a callback. -/
theorem run_ofCallback (hrun : s.run cfg p = some (s₁, p')) (hp : p.OfCallback) :
  p'.OfCallback
  := by
  cases p with
  | idle | scheduling _ | checking _ | probing | arming => contradiction
  | locking =>
      obtain ⟨-, heq⟩ := Run.guard hrun
      cases heq
      trivial
  | swapping =>
      dsimp only [State.run] at hrun
      split at hrun <;> cases hrun <;> trivial
  | _ =>
      cases hrun
      trivial

theorem Acks.step {e : Event} (hs : s.Acks total) (hcallbacks : ∀ p ∈ s.callbacks, p.OfCallback)
    (horderly : s.Orderly e) (hstep : s.step cfg total e = some s') :
  s'.Acks total
  := by
  cases e with
  | receive offset length =>
      obtain ⟨⟨hidle, -, hlength⟩, heq⟩ := Option.ite_none_right_eq_some.mp hstep
      cases heq
      exact (hs.fits.feedReliablePayload cfg hlength).acks hs hidle horderly
  | fin =>
      obtain ⟨hidle, rfl⟩ := Run.guard hstep
      exact hs.fits.handleFinReliable.acks hs hidle horderly
  | receiver =>
      obtain ⟨⟨s₁, p'⟩, hrun, rfl⟩ := Option.map_eq_some_iff.mp hstep
      refine hs.run List.mem_cons_self hrun horderly ?_
      rw [(run_procs hrun).2]
      apply Replaces.cons
  | fire =>
      obtain ⟨harmed, rfl⟩ := Run.guard hstep
      exact hs.fire
  | callback i =>
      obtain ⟨p, hp, hmap⟩ := Option.bind_eq_some_iff.mp hstep
      obtain ⟨⟨s₁, p'⟩, hrun, rfl⟩ := Option.map_eq_some_iff.mp hmap
      obtain ⟨hreceiver, hothers⟩ := run_procs hrun
      have hmem := List.mem_of_getElem? hp
      refine hs.run (List.mem_cons_of_mem _ hmem) hrun ?_ ?_
      · rintro rfl
        exact absurd (hcallbacks _ hmem) id
      · rw [hreceiver, hothers]
        exact Replaces.set p' hp s.receiver
  | take =>
      obtain ⟨-, rfl⟩ := Run.guard hstep
      exact hs.take
  | resolve =>
      obtain ⟨-, rfl⟩ := Run.guard hstep
      exact hs.resolve
  | flush =>
      obtain ⟨-, hmap⟩ := Option.ite_none_left_eq_some.mp hstep
      obtain ⟨o, hbatch, rfl⟩ := Option.map_eq_some_iff.mp hmap
      exact hs.flush hbatch
  | read _ | close =>
      cases hstep
      obtain ⟨⟨hread, hearly, hfin⟩, hholds, ⟨hwritten, hbatch, hstored, hdue⟩, hpending,
        hcovered⟩ := hs
      exact ⟨⟨hread, hearly, hfin⟩, hholds, ⟨hwritten, hbatch, hstored, hdue⟩, hpending,
        hcovered⟩

theorem step_ofCallback {e : Event} (hs : ∀ p ∈ s.callbacks, p.OfCallback) (hfits : s.Fits total)
    (hstep : s.step cfg total e = some s') :
  ∀ p ∈ s'.callbacks, p.OfCallback
  := by
  cases e with
  | receive offset length =>
      obtain ⟨⟨-, -, hlength⟩, heq⟩ := Option.ite_none_right_eq_some.mp hstep
      cases heq
      obtain ⟨r, m, k, f, o, n, p, hrest⟩ := (hfits.feedReliablePayload cfg hlength).rest
      rw [hrest]
      exact hs
  | receiver =>
      obtain ⟨⟨s₁, p'⟩, hrun, rfl⟩ := Option.map_eq_some_iff.mp hstep
      dsimp only
      rw [(run_procs hrun).2]
      exact hs
  | fire =>
      obtain ⟨-, rfl⟩ := Run.guard hstep
      intro p hp
      obtain hp | hp := List.mem_append.mp hp
      · exact hs p hp
      · rw [List.mem_singleton.mp hp]
        trivial
  | callback i =>
      obtain ⟨p, hp, hmap⟩ := Option.bind_eq_some_iff.mp hstep
      obtain ⟨⟨s₁, p'⟩, hrun, rfl⟩ := Option.map_eq_some_iff.mp hmap
      dsimp only
      rw [(run_procs hrun).2]
      intro q hq
      obtain hq | rfl := List.mem_or_eq_of_mem_set hq
      · exact hs q hq
      · exact run_ofCallback hrun (hs p (List.mem_of_getElem? hp))
  | flush =>
      obtain ⟨-, hmap⟩ := Option.ite_none_left_eq_some.mp hstep
      obtain ⟨o, -, rfl⟩ := Option.map_eq_some_iff.mp hmap
      exact hs
  | read _ | close =>
      cases hstep
      exact hs
  | _ =>
      obtain ⟨-, rfl⟩ := Run.guard hstep
      exact hs

theorem acks_init (total : Nat) :
  Acks total {}
  where
  fits := ⟨Nat.zero_le _, nofun, nofun⟩
  holds := by
    intro p hp
    rw [List.mem_singleton.mp hp]
    trivial
  climbs := ⟨List.Pairwise.nil, nofun, nofun, Nat.zero_le _⟩
  pending := nofun
  covered := Or.inr (Or.inr ⟨rfl, Or.inr (Or.inr (Or.inr (Or.inr rfl)))⟩)

/-! ### Acknowledgements that are on their way -/

/-- In every run of a channel in which nothing is received while a callback of the timer has an
offset in hand, and a delayed acknowledgement finds the ring empty, the acknowledgement that is
due is written, queued or delayed whenever no party is at work, and the offsets of the
acknowledgements written never go backwards. -/
theorem ack_on_its_way (cfg : SessionConfig) (total : Nat) (s : State)
    (hrun : Run (State.step cfg total) Orderly {} s) :
  (s.Quiet → s.OnItsWay) ∧ s.written.Pairwise (· ≤ ·)
  := by
  have hacks : s.Acks total ∧ ∀ p ∈ s.callbacks, p.OfCallback := by
    refine Run.invariant (I := fun s => s.Acks total ∧ ∀ p ∈ s.callbacks, p.OfCallback) ?_ hrun
      ⟨acks_init total, nofun⟩
    rintro s e s' ⟨hs, hcallbacks⟩ horderly hstep
    exact ⟨hs.step hcallbacks horderly hstep, step_ofCallback hcallbacks hs.fits hstep⟩
  exact ⟨hacks.1.onItsWay, hacks.1.climbs.written⟩

/-- The application reads a chunk before its delayed acknowledgement looks at the ring; the timer
is armed and fires, and the acknowledgement of three bytes is written. -/
theorem ack_on_its_way_delayed :
  ∃ s, Run (State.step (smallConfig true) 5) Orderly {} s ∧ s.Quiet ∧ s.written = [3] ∧
    s.OnItsWay
  := by
  obtain ⟨s, hrun, hquiet, hwritten⟩ :=
    Run.exists_of_exec (State.step (smallConfig true) 5) Orderly {}
      [.receive 0 3, .receiver, .receiver, .read 1, .receiver, .receiver, .fire, .callback 0,
        .callback 0, .callback 0, .callback 0, .callback 0, .take, .resolve, .flush]
      (fun s => s.Quiet ∧ s.written = [3]) (by decide +kernel)
  exact ⟨s, hrun, hquiet, hwritten, (ack_on_its_way _ _ s hrun).1 hquiet⟩

/-- A chunk of three bytes is received, and its delayed acknowledgement finds the chunk itself on
the ring: nobody is going to acknowledge it. -/
theorem ack_skipped :
  ∃ s, Run (State.step (smallConfig true) 3) (fun _ _ => True) {} s ∧ s.Quiet ∧
    s.readOffset = 3 ∧ ¬ s.OnItsWay
  := by
  apply Run.exists_of_exec (State.step (smallConfig true) 3) (fun _ _ => True) {}
    [.receive 0 3, .receiver, .receiver, .receiver]
  decide +kernel

/-- A callback computes its offset, and sends it after the next chunk has been received and
acknowledged: the acknowledgements written go backwards. -/
theorem ack_goes_back :
  ∃ s, Run (State.step (smallConfig true) 5) (fun _ _ => True) {} s ∧ s.Quiet ∧
    s.written = [5, 3] ∧ ¬ s.OnItsWay
  := by
  apply Run.exists_of_exec (State.step (smallConfig true) 5) (fun _ _ => True) {}
    [.receive 0 3, .receiver, .receiver, .read 1, .receiver, .receiver, .fire, .callback 0,
      .receive 3 2, .receiver, .receiver, .receiver, .receiver, .take, .resolve, .flush,
      .callback 0, .callback 0, .callback 0, .callback 0, .take, .resolve, .flush]
  decide +kernel

end State

end DelayedAck

end Muxocket
