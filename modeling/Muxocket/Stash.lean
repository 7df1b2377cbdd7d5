import Muxocket.State

/-!
# Early frames and closed identifiers

There is no frame that opens a channel, so frames may arrive for a channel before this
side opens it.  They are kept in `pending`, within limits and for a limited time.  With
retransmissions, the identifiers of the channels closed last are kept in `closedIDs`, so
that late frames are told from early ones.
-/

namespace Muxocket

/-- The queue `q` with one more frame. -/
def PendingQueue.push (q : PendingQueue) (f : PendingFrame) : PendingQueue where
  frames := q.frames ++ [f]
  bytes := q.bytes + f.data.length
  expires := q.expires
  bytes_eq := by simp [q.bytes_eq, pendingLength]

/-- The empty queue. -/
def PendingQueue.new (expires : Int) : PendingQueue where
  frames := []
  bytes := 0
  expires := expires
  bytes_eq := rfl

namespace Session

variable (cfg : SessionConfig)

/-- Return the credit of every frame of a list of early frames. -/
def creditPending (cfg : SessionConfig) (id : Nat) : List PendingFrame → Session → Session
  | [], s => s
  | f :: frames, s =>
      ((s.noteDiscarded id f.data.length).creditDiscarded cfg f.data.length).creditPending cfg id
        frames

/-- Drop the early frames `q` of the identifier `id` and return their credit. -/
def releasePendingLocked (id : Nat) (q : PendingQueue) (s : Session) : Session :=
  let s := s.creditPending cfg id q.frames
  { s with pendingBytes := s.pendingBytes - q.bytes, pending := s.pending.erase id }

/-- Drop those of a list of early queues that have expired. -/
def releaseExpired (cfg : SessionConfig) :
    List (Sigma fun _ : Nat => PendingQueue) → Session → Session
  | [], s => s
  | e :: queues, s =>
      if e.2.expires < s.now then
        (s.releasePendingLocked cfg e.1 e.2).releaseExpired cfg queues
      else s.releaseExpired cfg queues

/-- The closed identifiers that have not expired at time `now`. -/
def unexpired (now : Int) :
    List (Sigma fun _ : Nat => Int) → (AList fun _ : Nat => Int) → AList fun _ : Nat => Int
  | [], ids => ids
  | e :: entries, ids => unexpired now entries (if e.2 < now then ids.erase e.1 else ids)

/-- Drop the early queues and the closed identifiers that have expired. -/
def pruneLocked (s : Session) : Session :=
  let s := s.releaseExpired cfg s.pending.entries
  { s with closedIDs := unexpired s.now s.closedIDs.entries s.closedIDs }

/-- The entry that expires first of a list of entries. -/
def oldest : List (Sigma fun _ : Nat => Int) → Option (Sigma fun _ : Nat => Int)
  | [] => none
  | e :: entries =>
      match oldest entries with
      | none => some e
      | some e' => if e'.2 < e.2 then some e' else some e

/-- Forget the closed identifier that expires first. -/
def evictOldest (s : Session) : Session :=
  match oldest s.closedIDs.entries with
  | none => s
  | some e => { s with closedIDs := s.closedIDs.erase e.1 }

/-- Drop the early frames for a channel. -/
def dropEarly (id : Nat) (s : Session) : Session :=
  match s.pending.lookup id with
  | some q => s.releasePendingLocked cfg id q
  | none => s

/-- Prune a session that remembers as many closed identifiers as it may. -/
def pruneFull (s : Session) : Session :=
  if maxClosedIDs ≤ s.closedIDs.entries.length then s.pruneLocked cfg else s

/-- Make room for one more closed identifier. -/
def evictFull (s : Session) : Session :=
  if maxClosedIDs ≤ s.closedIDs.entries.length then s.evictOldest else s

/-- Remember that the channel `id` has been closed, and drop the early frames for it. -/
def markClosedLocked (id : Nat) (s : Session) : Session :=
  let s := s.dropEarly cfg id
  if cfg.reliability then
    let s := (s.pruneFull cfg).evictFull
    { s with closedIDs := s.closedIDs.insert id (s.now + cfg.closedChannelFrameLingerTTL) }
  else s

/-- Whether the channel `id` was closed recently. -/
def recentlyClosed (id : Nat) (s : Session) : Bool :=
  match s.closedIDs.lookup id with
  | some t => decide (s.now ≤ t)
  | none => false

/-- The session after it has looked whether the channel `id` was closed recently: an
expired entry is forgotten. -/
def recentlyClosedLocked (id : Nat) (s : Session) : Session :=
  match s.closedIDs.lookup id with
  | some t => if t < s.now then { s with closedIDs := s.closedIDs.erase id } else s
  | none => s

/-- Whether the limits leave room for one more early frame.  The code converts the limits to
signed integers first, which changes no limit below `2 ^ 63`. -/
def hasRoom (id : Nat) (f : PendingFrame) (s : Session) : Bool :=
  (match s.pending.lookup id with
    | some q => decide (q.frames.length < cfg.maxPendingEarlyFramesPerSession)
    | none => decide (s.pending.entries.length < cfg.maxPendingChannels))
  && decide (s.pendingBytes + f.data.length ≤ cfg.maxPendingEarlyBytesPerSession)

/-- Keep an early frame. -/
def keepPending (id : Nat) (f : PendingFrame) (s : Session) : Session :=
  let q := (s.pending.lookup id).getD (.new (s.now + cfg.pendingEarlyFramesTTL))
  { s with pending := s.pending.insert id (q.push f)
           pendingBytes := s.pendingBytes + f.data.length }

/-- Keep an early frame if the limits allow it, and tell whether they did. -/
def stashLocked (id : Nat) (f : PendingFrame) (s : Session) : Bool × Session :=
  if s.recentlyClosed id then (false, s)
  else
    let s := (s.recentlyClosedLocked id).pruneLocked cfg
    if s.hasRoom cfg id f then (true, s.keepPending cfg id f) else (false, s)

/-- Forget a channel that is finalized, unless a newer channel has taken its identifier. -/
def removeChannelIf (h : Nat) (s : Session) : Session :=
  let id := (s.heap h).id
  if s.channels id = some h then
    { s with channels := Function.update s.channels id none }.markClosedLocked cfg id
  else s

/-! ### What returning credit leaves alone -/

/-- The two sessions differ in nothing but the window of the session and the control queue. -/
def Paid (s s' : Session) : Prop :=
  s' = { s with flow := s'.flow, ctrlQueue := s'.ctrlQueue, lateCtrl := s'.lateCtrl
                discarded := s'.discarded }

/-- The two sessions differ in nothing but these, the early frames and the closed identifiers. -/
def Beside (s s' : Session) : Prop :=
  s' = { s with flow := s'.flow, ctrlQueue := s'.ctrlQueue, lateCtrl := s'.lateCtrl
                pending := s'.pending, pendingBytes := s'.pendingBytes
                closedIDs := s'.closedIDs, discarded := s'.discarded }

theorem Paid.trans {s₁ s₂ s₃ : Session} (h : s₁.Paid s₂) (h' : s₂.Paid s₃) :
  s₁.Paid s₃
  := by
  unfold Paid at h h'
  rw [h] at h'
  exact h'

theorem Beside.trans {s₁ s₂ s₃ : Session} (h : s₁.Beside s₂) (h' : s₂.Beside s₃) :
  s₁.Beside s₃
  := by
  unfold Beside at h h'
  rw [h] at h'
  exact h'

theorem Paid.beside {s s' : Session} (h : s.Paid s') :
  s.Beside s'
  := by
  unfold Paid at h
  rw [h]
  rfl

theorem paid_sessionOnRead (n : Int) (s : Session) :
  s.Paid (s.sessionOnRead cfg n)
  := by
  unfold sessionOnRead flushSessionUpdate writeControlFrameNonBlocking
  dsimp only
  split
  · split
    · split
      · rename_i hs
        split at hs
        · contradiction
        · split at hs <;> (obtain rfl := Option.some.inj hs; rfl)
      · rfl
    · rfl
  · rfl

theorem paid_creditDiscarded (n : Nat) (s : Session) :
  s.Paid (s.creditDiscarded cfg n)
  := by
  unfold creditDiscarded
  split
  · rfl
  · apply paid_sessionOnRead

theorem paid_creditPending (id : Nat) (frames : List PendingFrame) (s : Session) :
  s.Paid (s.creditPending cfg id frames)
  := by
  induction frames generalizing s with
  | nil => rfl
  | cons f frames ih =>
      have hnote : s.Paid (s.noteDiscarded id f.data.length) := rfl
      exact (hnote.trans (paid_creditDiscarded cfg _ _)).trans (ih _)

theorem beside_releasePendingLocked (id : Nat) (q : PendingQueue) (s : Session) :
  s.Beside (s.releasePendingLocked cfg id q)
  := by
  apply (paid_creditPending cfg id q.frames s).beside.trans
  rfl

theorem pending_releasePendingLocked (id : Nat) (q : PendingQueue) (s : Session) :
  (s.releasePendingLocked cfg id q).pending = s.pending.erase id
  := by
  unfold releasePendingLocked
  rw [paid_creditPending cfg id q.frames s]

theorem beside_releaseExpired (queues : List (Sigma fun _ : Nat => PendingQueue)) (s : Session) :
  s.Beside (s.releaseExpired cfg queues)
  := by
  induction queues generalizing s with
  | nil => rfl
  | cons e queues ih =>
      unfold releaseExpired
      split
      · exact (beside_releasePendingLocked cfg _ _ _).trans (ih _)
      · apply ih

theorem beside_pruneLocked (s : Session) :
  s.Beside (s.pruneLocked cfg)
  := by
  apply (beside_releaseExpired cfg s.pending.entries s).trans
  rfl

theorem recentlyClosedLocked_eq (id : Nat) (s : Session) :
  ∃ ids, s.recentlyClosedLocked id = { s with closedIDs := ids }
  := by
  unfold recentlyClosedLocked
  split
  · split <;> exact ⟨_, rfl⟩
  · exact ⟨_, rfl⟩

theorem beside_recentlyClosedLocked (id : Nat) (s : Session) :
  s.Beside (s.recentlyClosedLocked id)
  := by
  obtain ⟨ids, hids⟩ := recentlyClosedLocked_eq id s
  rw [hids]
  rfl

theorem beside_stashLocked (id : Nat) (f : PendingFrame) (s : Session) :
  s.Beside (s.stashLocked cfg id f).2
  := by
  have hprune := (beside_recentlyClosedLocked id s).trans (beside_pruneLocked cfg _)
  unfold stashLocked
  split
  · rfl
  · dsimp only
    split
    · exact hprune.trans rfl
    · exact hprune

theorem beside_dropEarly (id : Nat) (s : Session) :
  s.Beside (s.dropEarly cfg id)
  := by
  unfold dropEarly
  split
  · apply beside_releasePendingLocked
  · rfl

theorem beside_pruneFull (s : Session) :
  s.Beside (s.pruneFull cfg)
  := by
  unfold pruneFull
  split
  · apply beside_pruneLocked
  · rfl

theorem beside_evictFull (s : Session) :
  s.Beside s.evictFull
  := by
  unfold evictFull evictOldest
  split
  · split <;> rfl
  · rfl

/-- Making room for one more closed identifier. -/
theorem beside_makeRoom (id : Nat) (s : Session) :
  s.Beside ((s.dropEarly cfg id).pruneFull cfg).evictFull
  := ((beside_dropEarly cfg id s).trans (beside_pruneFull cfg _)).trans (beside_evictFull _)

theorem beside_markClosedLocked (id : Nat) (s : Session) :
  s.Beside (s.markClosedLocked cfg id)
  := by
  unfold markClosedLocked
  dsimp only
  split
  · apply (beside_makeRoom cfg id s).trans
    rfl
  · apply beside_dropEarly

end Session

end Muxocket
