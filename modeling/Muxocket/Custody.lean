import Muxocket.Buffers

/-!
# Received buffers have one owner

The buffers kept by the tasks of the operation under way, by the channels and by the stash, and
those that have been put back, are collected in one multiset.  A task passes the buffers it has on
to other tasks, to a channel, to the stash or to the allocator, or loses them; none of it takes
more out than it puts in.  So no buffer is in two places, and none is put back twice or while
something still refers to it.
-/

namespace Muxocket

namespace Buffers

/-- The buffer of a frame in the stash, if it has one. -/
def PendingFrame.bufs (f : PendingFrame) : Multiset Nat :=
  f.pBuf.toList

/-- The buffers of frames in the stash. -/
def stashed (frames : List PendingFrame) : Multiset Nat :=
  (frames.map PendingFrame.bufs).sum

/-- The buffers on the ring of a channel. -/
def Channel.ringed (c : Channel) : List Nat :=
  match c.ring with
  | none => []
  | some slots => slots.map Slot.head

/-- The buffers a channel keeps, in the slots of its ring and in the chunks that came early. -/
def Channel.bufs (c : Channel) : Multiset Nat :=
  c.ringed + c.early

/-- The buffers a task has. -/
@[simp]
def Task.bufs : Task → Multiset Nat
  | .put b | .data _ _ _ b | .datagram b _ _ _ | .feed _ _ _ b | .feedReliable _ _ _ b => {b}
  | .release frames | .deliverPending _ frames => stashed frames
  | .putAll bs => bs
  | .stash _ f => f.bufs
  | _ => 0

/-- The buffers tasks have. -/
def inHand (ts : List Task) : Multiset Nat :=
  (ts.map Task.bufs).sum

namespace State

/-- The buffers the channels keep. -/
def inChannels (s : State) : Multiset Nat :=
  (s.heap.map Channel.bufs).sum

/-- The buffers in the stash. -/
def inStash (s : State) : Multiset Nat :=
  (s.pending.entries.map fun e => stashed e.2.frames).sum

/-- All buffers, as often as they are kept by something or have been put back. -/
def all (s : State) : Multiset Nat :=
  inHand s.work + s.inChannels + s.inStash + s.returned

end State

/-! ### Moving buffers -/

namespace Channel

theorem bufs_ring (c : Channel) (slots : List Slot) :
  { c with ring := some slots }.bufs = (slots.map Slot.head : List Nat) + (c.early : Multiset Nat)
  := rfl

/-- The buffers of a channel with a ring. -/
theorem bufs_of_ring {c : Channel} {slots : List Slot} (h : c.ring = some slots) :
  c.bufs = (slots.map Slot.head : List Nat) + (c.early : Multiset Nat)
  := by
  rw [bufs, ringed, h]

theorem bufs_ring_none_le (c : Channel) :
  { c with ring := none }.bufs ≤ c.bufs
  := by
  apply add_le_add_left
  apply Multiset.zero_le

/-- The buffers of a channel that keeps data. -/
theorem bufs_of_reorderMap {c : Channel} {m : AList fun _ : Nat => ReorderFrame}
    (h : c.reorderMap = some m) :
  c.bufs = (c.ringed : Multiset Nat) + (m.entries.map fun e => e.2.head : List Nat)
  := by
  rw [bufs, early, h]

end Channel

@[simp]
theorem inHand_nil :
  inHand [] = 0
  := rfl

/-- The buffers of a task and of the rest. -/
@[simp]
theorem inHand_cons (t : Task) (ts : List Task) :
  inHand (t :: ts) = t.bufs + inHand ts
  := by
  rw [inHand, List.map_cons, List.sum_cons, inHand]

@[simp]
theorem inHand_append (ts ts' : List Task) :
  inHand (ts ++ ts') = inHand ts + inHand ts'
  := by
  rw [inHand, List.map_append, List.sum_append, inHand, inHand]

@[simp]
theorem stashed_nil :
  stashed [] = 0
  := rfl

@[simp]
theorem stashed_cons (f : PendingFrame) (frames : List PendingFrame) :
  stashed (f :: frames) = f.bufs + stashed frames
  := by
  rw [stashed, List.map_cons, List.sum_cons, stashed]

theorem stashed_append (frames frames' : List PendingFrame) :
  stashed (frames ++ frames') = stashed frames + stashed frames'
  := by
  rw [stashed, List.map_append, List.sum_append, stashed, stashed]

/-- The buffers that are to be returned. -/
theorem inHand_put (bs : List Nat) :
  inHand (bs.map Task.put) = bs
  := by
  induction bs with
  | nil => rfl
  | cons b bs ih =>
      rw [List.map_cons, inHand_cons, ih]
      rfl

namespace State

/-- `s'` is `s` after a task with the buffers `m` has been done, without taking a buffer from the
allocator. -/
structure Keeps (m : Multiset Nat) (s s' : State) : Prop where
  next : s'.next = s.next
  all : s'.all ≤ m + s.all

variable {m : Multiset Nat} {s : State}

theorem Keeps.refl :
  Keeps m s s
  := ⟨rfl, Multiset.le_add_left _ _⟩

variable {l : List Task} {s' : State}

/-- The task is replaced by others. -/
theorem Keeps.push (h : inHand l ≤ m) :
  Keeps m s (s.push l)
  := by
  refine ⟨rfl, ?_⟩
  have hall : (s.push l).all = inHand l + s.all := by
    simp only [State.all, State.push, inHand_append, inChannels, inStash]
    abel
  rw [hall]
  apply add_le_add_left h

/-- A channel changes, and the task is replaced by others. -/
theorem Keeps.set {h : Nat} {c c' : Channel} (hc : s.heap[h]? = some c)
    (hle : inHand l + c'.bufs ≤ m + c.bufs) :
  Keeps m s ((s.set h c').push l)
  := by
  refine ⟨rfl, ?_⟩
  obtain ⟨r, hold, hnew⟩ := exists_sum_set Channel.bufs hc c'
  have hall : s.all = c.bufs + (inHand s.work + r + s.inStash + s.returned) := by
    rw [State.all, inChannels, hold]
    abel
  have hall' : ((s.set h c').push l).all
      = inHand l + c'.bufs + (inHand s.work + r + s.inStash + s.returned) := by
    simp only [State.all, State.push, State.set, inHand_append, inChannels, inStash, hnew]
    abel
  rw [hall, hall', ← add_assoc m]
  apply add_le_add_left hle

section

variable (hnext : s'.next = s.next) (hwork : s'.work = l ++ s.work) (hheap : s'.heap = s.heap)
  (hreturned : s'.returned = s.returned)

include hnext hwork hheap hreturned

/-- The stash changes, and the task is replaced by others. -/
theorem Keeps.stash (hle : inHand l + s'.inStash ≤ m + s.inStash) :
  Keeps m s s'
  := by
  refine ⟨hnext, ?_⟩
  have hall : s.all = s.inStash + (inHand s.work + s.inChannels + s.returned) := by
    rw [State.all]
    abel
  have hall' : s'.all
      = inHand l + s'.inStash + (inHand s.work + s.inChannels + s.returned) := by
    rw [State.all, hwork, inHand_append, inChannels, hheap, hreturned, ← inChannels]
    abel
  rw [hall, hall', ← add_assoc m]
  apply add_le_add_left hle

/-- Nothing changes that has to do with buffers, and the task is replaced by others. -/
theorem Keeps.same (hpending : s'.pending = s.pending) (hle : inHand l ≤ m) :
  Keeps m s s'
  := by
  refine Keeps.stash hnext hwork hheap hreturned ?_
  rw [inStash, hpending, ← inStash]
  apply add_le_add_left hle

end

/-! ### What a task does with its buffers -/

/-- A buffer is returned. -/
theorem keeps_put (b : Nat) :
  Keeps {b} s { s with returned := b :: s.returned }
  := by
  refine ⟨rfl, le_of_eq ?_⟩
  simp only [all, inChannels, inStash, ← Multiset.cons_coe, ← Multiset.singleton_add]
  abel

theorem keeps_push_put (b : Nat) :
  Keeps {b} s (s.push [.put b])
  := by
  apply Keeps.push
  simp

theorem keeps_pruneThen (h : inHand l ≤ m) :
  Keeps m s (s.pruneThen l)
  := by
  apply Keeps.push
  simpa using h

/-- A buffer is put on a ring. -/
theorem keeps_ringPush {h : Nat} {c : Channel} (hc : s.heap[h]? = some c) (length b : Nat) :
  Keeps {b} s (s.ringPush h c length b)
  := by
  unfold ringPush
  split
  · apply keeps_push_put
  · rename_i slots hring
    apply Keeps.set hc (l := [])
    rw [Channel.bufs_ring, Channel.bufs_of_ring hring, List.map_append, ← Multiset.coe_add,
      List.map_singleton, Multiset.coe_singleton, inHand_nil]
    apply le_of_eq
    abel

/-- A buffer is fed, or returned. -/
theorem keeps_feed (onError : OnError) (h length b : Nat) :
  Keeps {b} s (s.feed onError h length b)
  := by
  unfold feed
  split
  · apply Keeps.refl
  · rename_i c hc
    split
    · split
      · apply keeps_push_put
      · apply keeps_push_put
      · apply Keeps.refl
    · apply keeps_ringPush hc

variable (cfg : SessionConfig)

/-- Data is fed, kept or dropped. -/
theorem keeps_feedReliablePayload (h offset length b : Nat) :
  Keeps {b} s (s.feedReliablePayload cfg h offset length b)
  := by
  unfold feedReliablePayload
  split
  · apply Keeps.refl
  · rename_i c hc
    split
    · apply keeps_push_put
    · rename_i early hmap
      split
      · apply keeps_push_put
      split
      · apply Keeps.set hc
        simp [Channel.bufs, Channel.ringed, Channel.early]
      split
      · split
        · apply keeps_push_put
        split
        · apply keeps_push_put
        · rename_i hnone
          apply Keeps.set hc (l := [])
          have hinsert : (early.insert offset ⟨length, b⟩).entries
              = ⟨offset, ⟨length, b⟩⟩ :: early.entries :=
            congrArg _ (erase_of_lookup (Option.not_isSome_iff_eq_none.mp hnone))
          rw [Channel.bufs_of_reorderMap hmap, Channel.bufs_of_reorderMap rfl, hinsert,
            List.map_cons, ← Multiset.cons_coe, ← Multiset.singleton_add, inHand_nil, zero_add]
          apply le_of_eq
          apply add_left_comm
      · apply keeps_push_put

/-- Data that waited is fed. -/
theorem keeps_feedWaiting (h : Nat) :
  Keeps 0 s (s.feedWaiting h)
  := by
  unfold feedWaiting
  split
  · apply Keeps.refl
  · rename_i c hc
    split
    · apply Keeps.refl
    · rename_i early hmap
      split
      · apply Keeps.refl
      · rename_i f hf
        apply Keeps.set hc
        have hperm := Multiset.coe_eq_coe.mpr ((perm_erase_entries hf).map fun e => e.2.head)
        rw [Channel.bufs_of_reorderMap hmap, Channel.bufs_of_reorderMap rfl, hperm,
          List.map_cons, ← Multiset.cons_coe, ← Multiset.singleton_add]
        simp only [inHand_cons, inHand_nil, Task.bufs, add_zero, zero_add]
        apply le_of_eq
        apply add_left_comm

theorem keeps_handleFin (h offset : Nat) :
  Keeps 0 s (s.handleFin cfg h offset)
  := by
  unfold handleFin
  split
  · apply Keeps.refl
  · rename_i c hc
    split
    · split
      · apply Keeps.refl
      · apply Keeps.set hc
        have hnone : inHand (if offset ≤ c.readOffset then [.remoteClose h] else []) = 0 := by
          split
          · simp
          · rfl
        rw [hnone]
        exact le_rfl
    · apply Keeps.push
      simp

theorem keeps_finalize (h : Nat) :
  Keeps 0 s (s.finalize h)
  := by
  unfold finalize
  split
  · apply Keeps.refl
  · rename_i c hc
    split
    · apply Keeps.refl
    · apply Keeps.set hc
      have hnew : { c with done := true, reorderMap := none }.bufs = (c.ringed : Multiset Nat) :=
        add_zero _
      simp only [inHand_cons, inHand_nil, Task.bufs, hnew, add_zero, zero_add]
      apply le_of_eq
      apply add_comm

/-- A ring is closed. -/
theorem keeps_closeRing (h : Nat) :
  Keeps 0 s (s.closeRing h)
  := by
  unfold closeRing
  split
  · apply Keeps.refl
  · rename_i c hc
    split
    · apply Keeps.set hc (l := [])
      rw [inHand_nil, zero_add, zero_add]
      apply Channel.bufs_ring_none_le
    · apply Keeps.refl

/-- A queue is taken out of the stash. -/
theorem inStash_erase {id : Nat} {q : PendingQueue} (hq : s.pending.lookup id = some q) :
  s.inStash = stashed q.frames + { s with pending := s.pending.erase id }.inStash
  := by
  rw [inStash, ((perm_erase_entries hq).map fun e => stashed e.2.frames).sum_eq, List.map_cons,
    List.sum_cons, inStash]

/-- A channel leaves the table. -/
theorem keeps_removeChannelIf (h : Nat) :
  Keeps 0 s (s.removeChannelIf h)
  := by
  unfold removeChannelIf
  split
  · apply Keeps.refl
  · rename_i c hc
    split
    · dsimp only
      split
      · refine Keeps.same rfl rfl rfl rfl rfl ?_
        simp
      · rename_i q hq
        refine Keeps.stash rfl rfl rfl rfl ?_
        rw [inStash_erase hq]
        simp [inStash, push]
    · apply Keeps.refl

/-- Early frames that have expired are released. -/
theorem keeps_prune (ids : List Nat) :
  Keeps 0 s (s.prune ids)
  := by
  unfold prune
  split
  · refine Keeps.same (l := []) rfl rfl rfl rfl rfl ?_
    simp
  · split
    · apply Keeps.push
      simp
    · rename_i q hq
      split
      · refine Keeps.stash rfl rfl rfl rfl ?_
        rw [inStash_erase hq]
        simp [inStash, push]
      · apply Keeps.push
        simp

/-- An early frame is kept, or released. -/
theorem keeps_keepPending (id : Nat) (f : PendingFrame) :
  Keeps f.bufs s (s.keepPending cfg id f)
  := by
  unfold keepPending
  refine Keeps.stash (l := []) rfl rfl rfl rfl ?_
  have hinsert (q : PendingQueue) :
      { s with pending := s.pending.insert id q }.inStash
        = stashed q.frames + { s with pending := s.pending.erase id }.inStash := by
    rw [inStash, AList.entries_insert, List.map_cons, List.sum_cons]
    rfl
  dsimp only
  rw [hinsert, stashed_append, stashed_cons, stashed_nil, add_zero, inHand_nil, zero_add]
  apply le_of_eq
  cases hq : s.pending.lookup id with
  | none =>
      rw [Option.getD_none, stashed_nil, zero_add, inStash, erase_of_lookup hq, inStash]
  | some q =>
      rw [Option.getD_some, inStash_erase hq, add_comm (stashed q.frames), add_assoc]

/-- Early frames are delivered. -/
theorem keeps_deliverPending (h : Nat) (frames : List PendingFrame) :
  Keeps (stashed frames) s (s.deliverPending cfg h frames)
  := by
  unfold deliverPending
  split
  · apply Keeps.refl
  · rename_i f frames
    rw [stashed_cons]
    split
    · rename_i b _ hb
      have hbufs : f.bufs = {b} := by rw [PendingFrame.bufs, hb]; rfl
      apply Keeps.push
      rw [hbufs]
      split <;> simp
    all_goals
      apply Keeps.push
      refine le_of_eq_of_le ?_ (Multiset.le_add_left (stashed frames) f.bufs)
      simp

/-- A channel is read. -/
theorem keeps_partialRead (h n : Nat) :
  Keeps 0 s (s.partialRead h n)
  := by
  unfold partialRead
  split
  · apply Keeps.refl
  · rename_i c hc
    split
    · apply Keeps.refl
    · apply Keeps.refl
    · rename_i slot slots hring
      split
      · apply Keeps.set hc
        rw [Channel.bufs_of_ring hring, Channel.bufs_ring]
        simp
      split
      · apply Keeps.set hc (l := [])
        rw [Channel.bufs_of_ring hring, Channel.bufs_ring]
        simp
      · apply Keeps.set hc
        rw [Channel.bufs_of_ring hring, Channel.bufs_ring]
        simp

/-- A ring is emptied. -/
theorem keeps_popAll (h : Nat) :
  Keeps 0 s (s.popAll h)
  := by
  unfold popAll
  split
  · apply Keeps.refl
  · rename_i c hc
    split
    · apply Keeps.set hc (l := [])
      rw [inHand_nil, zero_add, zero_add]
      apply Channel.bufs_ring_none_le
    · apply Keeps.set hc (l := [])
      rw [inHand_nil, zero_add, zero_add]
      apply Channel.bufs_ring_none_le
    · rename_i slot slots hring
      apply Keeps.set hc
      rw [Channel.bufs_of_ring hring, Channel.bufs_ring]
      simp

/-- A session is closed. -/
theorem keeps_closeSession (graceful : Bool) (busy : List Nat) :
  Keeps 0 s (s.closeSession graceful busy)
  := by
  have hdrop : inHand s.dropStash = s.inStash := by
    rw [dropStash, inHand, List.map_map]
    rfl
  have hend : inHand (s.endChannels graceful busy) = 0 := by
    rw [endChannels, inHand, List.map_map]
    apply List.sum_eq_zero
    intro x hx
    obtain ⟨e, -, rfl⟩ := List.mem_map.mp hx
    dsimp only [Function.comp]
    split <;> rfl
  unfold closeSession
  split
  · apply Keeps.refl
  · refine Keeps.stash rfl rfl rfl rfl ?_
    rw [inHand_append, hdrop, hend, add_zero, zero_add]
    exact (add_zero _).le

theorem keeps_modify (h : Nat) (f : Channel → Channel) (hf : ∀ c, (f c).bufs = c.bufs)
    (hl : inHand l ≤ m) :
  Keeps m s (s.modify h f l)
  := by
  unfold modify
  split
  · apply Keeps.refl
  · rename_i c hc
    apply Keeps.set hc
    rw [hf]
    apply add_le_add_left hl

/-- What holds of the buffers of a session goes on to hold when a task is done. -/
theorem Keeps.owned (h : Keeps m s s') (hs : Owned s.next (m + s.all)) :
  Owned s'.next s'.all
  := by
  rw [h.next]
  apply hs.mono h.all

/-- A buffer is taken from the allocator, and the task is replaced by others. -/
theorem owned_get (hs : Owned s.next (m + s.all)) (hl : inHand l ≤ {s.next} + m) :
  Owned (s.get.push l).next (s.get.push l).all
  := by
  have hall : (s.get.push l).all = inHand l + s.all := by
    simp only [State.all, State.push, State.get, inHand_append, inChannels, inStash]
    abel
  rw [hall]
  apply hs.take.mono
  rw [← Multiset.singleton_add, ← add_assoc]
  apply add_le_add_left hl

/-- A datagram is cut into frames. -/
theorem owned_datagram (b : Nat) (first whole : Bool)
    (frames : List (Option Arrival)) (hs : Owned s.next ({b} + s.all)) :
  Owned (s.datagram cfg b first whole frames).next (s.datagram cfg b first whole frames).all
  := by
  have hgo {l : List Task} (hl : inHand l ≤ {b}) : Owned (s.push l).next (s.push l).all :=
    (Keeps.push hl).owned hs
  unfold datagram
  split
  · apply hgo
    simp
  · apply Keeps.refl.owned hs
  · dsimp only
    split
    · split
      · apply hgo
        simp
      split
      · apply hgo
        simp
      split
      · apply hgo
        split <;> simp
      · apply owned_get hs
        split <;> simp
    · apply hgo
      simp
    · apply hgo
      simp
    · apply hgo
      simp
    · apply hgo
      simp

/-- A task keeps each buffer in one place. -/
theorem owned_run (t : Task) (hs : Owned s.next (t.bufs + s.all)) :
  Owned (s.run cfg t).next (s.run cfg t).all
  := by
  cases t with
  | put b => apply (keeps_put b).owned hs
  | release frames =>
      cases frames with
      | nil => apply Keeps.refl.owned hs
      | cons f frames =>
          apply (Keeps.push ?_).owned hs
          rw [inHand_append, inHand_put]
          simp [PendingFrame.bufs]
  | putAll bs =>
      cases bs with
      | nil => apply Keeps.refl.owned hs
      | cons b bs =>
          apply (Keeps.push ?_).owned hs
          simp
  | data id offset length b =>
      dsimp only [State.run]
      split
      · apply (Keeps.push ?_).owned hs
        split <;> simp
      split
      · apply (keeps_push_put b).owned hs
      · apply (keeps_pruneThen ?_).owned hs
        simp [PendingFrame.bufs]
  | datagram b first whole frames => apply owned_datagram cfg b first whole frames hs
  | fin id offset | rst id offset =>
      dsimp only [State.run]
      split
      · apply (Keeps.push ?_).owned hs
        simp
      split
      · apply Keeps.refl.owned hs
      · apply (keeps_pruneThen ?_).owned hs
        simp [PendingFrame.bufs]
  | stash id f =>
      dsimp only [State.run]
      split
      · apply (keeps_keepPending cfg id f).owned hs
      · apply (Keeps.push ?_).owned hs
        rw [inHand_put]
        apply le_rfl
  | prune ids => apply (keeps_prune ids).owned hs
  | deliverPending h frames => apply (keeps_deliverPending cfg h frames).owned hs
  | feed onError h length b => apply (keeps_feed onError h length b).owned hs
  | feedReliable h offset length b =>
      apply (keeps_feedReliablePayload cfg h offset length b).owned hs
  | feedWaiting h => apply (keeps_feedWaiting h).owned hs
  | closeFinished h | maybeFinalize h =>
      dsimp only [State.run]
      split
      · apply Keeps.refl.owned hs
      split
      · apply (Keeps.push ?_).owned hs
        simp
      · apply Keeps.refl.owned hs
  | handleFin h offset => apply (keeps_handleFin cfg h offset).owned hs
  | remoteClose h | peerGone h =>
      refine Keeps.owned (keeps_modify h _ ?_ ?_) hs
      · exact fun _ => rfl
      · simp
  | finalize h => apply (keeps_finalize h).owned hs
  | closeRing h => apply (keeps_closeRing h).owned hs
  | removeChannelIf h => apply (keeps_removeChannelIf h).owned hs
  | remember id =>
      dsimp only [State.run]
      split
      · split
        · apply (keeps_pruneThen ?_).owned hs
          simp
        · apply (Keeps.push ?_).owned hs
          simp
      · apply Keeps.refl.owned hs
  | note id =>
      have hevict : Keeps 0 s s.evictFull := by
        unfold evictFull
        split
        · split
          · apply Keeps.refl
          · refine Keeps.same (l := []) rfl rfl rfl rfl rfl ?_
            simp
        · apply Keeps.refl
      apply Keeps.owned ?_ hs
      exact ⟨hevict.next, hevict.all⟩
  | drainRing h =>
      dsimp only [State.run]
      split
      · apply Keeps.refl.owned hs
      · rename_i c hc
        split
        · apply Keeps.refl.owned hs
        · apply (Keeps.set hc ?_).owned hs
          simp [Channel.bufs, Channel.ringed, Channel.early]
  | popAll h => apply (keeps_popAll h).owned hs
  | partialRead h n => apply (keeps_partialRead h n).owned hs
  | localClose h busy =>
      dsimp only [State.run]
      split
      · apply Keeps.refl.owned hs
      · rename_i c hc
        apply (Keeps.set hc ?_).owned hs
        split <;> simp [Channel.bufs, Channel.ringed, Channel.early]
  | closeSession graceful busy => apply (keeps_closeSession graceful busy).owned hs

/-! ### Operations -/

theorem keeps_openChannel (id : Nat) :
  Keeps 0 s (s.start cfg (.openChannel id))
  := by
  have hheap (s' : State) (hheap : s'.heap = s.heap ++ [{ id := id }]) :
      s'.inChannels = s.inChannels := by
    rw [inChannels, hheap, List.map_append, List.sum_append]
    exact add_zero _
  dsimp only [start]
  split
  · apply Keeps.refl
  split
  · refine ⟨rfl, ?_⟩
    rw [zero_add, all, hheap _ rfl]
    apply le_rfl
  · rename_i q hq
    refine ⟨rfl, ?_⟩
    have hhand : inHand
        [if q.expires < s.now then .release q.frames else .deliverPending s.heap.length q.frames]
          = stashed q.frames := by
      split <;> simp
    rw [zero_add, all, hheap _ rfl, all, inStash_erase hq]
    simp only [push, inHand_append, hhand, inStash]
    apply le_of_eq
    abel

/-- So does the start of a call. -/
theorem owned_start (e : Event) (hs : Owned s.next s.all) :
  Owned (s.start cfg e).next (s.start cfg e).all
  := by
  have hs : Owned s.next (0 + s.all) := (zero_add s.all).symm ▸ hs
  have hgo {l : List Task} (hl : inHand l ≤ 0) : Owned (s.push l).next (s.push l).all :=
    (Keeps.push hl).owned hs
  cases e with
  | advance => apply Keeps.refl.owned hs
  | stream f ok =>
      dsimp only [start]
      split
      · apply Keeps.refl.owned hs
      split
      · split
        · apply Keeps.refl.owned hs
        split
        · apply owned_get hs
          simp
        · apply owned_get hs
          simp
      · apply hgo
        simp
      · split
        · apply hgo
          simp
        · apply Keeps.refl.owned hs
      · apply hgo
        simp
      · apply Keeps.refl.owned hs
  | datagram whole frames =>
      dsimp only [start]
      split
      · apply Keeps.refl.owned hs
      · apply owned_get hs
        simp
  | openChannel id => apply (keeps_openChannel cfg id).owned hs
  | read h n | localClose h busy | closeSession busy =>
      apply hgo
      simp
  | writeTo h n =>
      dsimp only [start]
      split
      · apply Keeps.refl.owned hs
      · rename_i c hc
        split
        · apply Keeps.refl.owned hs
        · apply Keeps.refl.owned hs
        · rename_i slot slots hring
          split
          · apply (Keeps.set hc ?_).owned hs
            rw [Channel.bufs_of_ring hring, Channel.bufs_ring]
            simp
          · apply (Keeps.set hc (l := []) ?_).owned hs
            rw [Channel.bufs_of_ring hring, Channel.bufs_ring]
            simp
  | peek h =>
      dsimp only [start]
      split
      · apply Keeps.refl.owned hs
      · rename_i c hc
        split
        · apply Keeps.refl.owned hs
        · apply Keeps.refl.owned hs
        · rename_i slot slots hring
          split
          · apply (Keeps.set hc (l := []) ?_).owned hs
            rw [Channel.bufs_of_ring hring, Channel.bufs_ring, List.map_cons, ← Multiset.cons_coe,
              inHand_nil, zero_add, zero_add]
            apply add_le_add_left
            apply Multiset.le_cons_self
          · apply Keeps.refl.owned hs
  | eof h =>
      dsimp only [start]
      split
      · apply Keeps.refl.owned hs
      · rename_i c hc
        split
        · apply (Keeps.set hc (l := []) ?_).owned hs
          rw [inHand_nil, zero_add, zero_add]
          apply Channel.bufs_ring_none_le
        · apply Keeps.refl.owned hs
  | abort h =>
      dsimp only [start]
      split
      · apply Keeps.refl.owned hs
      split
      · apply hgo
        simp
      · apply Keeps.refl.owned hs
  | close h busy =>
      dsimp only [start]
      split
      · apply Keeps.refl.owned hs
      · rename_i c hc
        apply (Keeps.set hc ?_).owned hs
        split <;> simp [Channel.bufs, Channel.ringed, Channel.early]
  | writeEnded h ended =>
      refine Keeps.owned (keeps_modify h _ ?_ ?_) hs
      · exact fun _ => rfl
      · simp
  | pruneExpiredPending =>
      apply (keeps_pruneThen ?_).owned hs
      simp
  | tick n =>
      refine Keeps.owned (Keeps.same (l := []) rfl rfl rfl rfl rfl ?_) hs
      simp

theorem owned_step {cfg : SessionConfig} {e : Event} (hs : Owned s.next s.all)
    (hstep : s.step cfg e = some s') :
  Owned s'.next s'.all
  := by
  unfold step at hstep
  split at hstep
  · rename_i t work hwork
    cases hstep
    apply owned_run
    have hall : s.all = t.bufs + { s with work := work }.all := by
      rw [all, hwork, inHand_cons]
      simp only [all, inChannels, inStash]
      abel
    rw [← hall]
    apply hs
  · contradiction
  · contradiction
  · cases hstep
    apply owned_start cfg _ hs

/-- In every state a session reaches by its receive-side operations, before, during and after each
of them, a buffer is kept at most once by the operation, a ring, an early chunk or the stash, and
is put back at most once and not while one of them refers to it. -/
theorem buffers_have_one_owner (cfg : SessionConfig) (s : State)
    (hrun : Run (State.step cfg) (fun _ _ => True) {} s) :
  (inHand s.work + s.inChannels + s.inStash + s.returned).Nodup
  := by
  have howned : Owned s.next s.all := by
    refine Run.invariant (I := fun s => Owned s.next s.all) ?_ hrun Owned.zero
    intro s e s' hs _ hstep
    apply owned_step hs hstep
  apply howned.nodup

/-- A frame is stashed and then delivered, another comes early in a datagram with an
acknowledgement, what can be read is read, and the channel is given up: the datagram, the first
frame and the second are put back in this order. -/
theorem buffers_have_one_owner_closed :
  ∃ s, Run (State.step (smallConfig true)) (fun _ _ => True) {} s ∧ s.work = [] ∧
    s.returned = [2, 0, 1] ∧ (inHand s.work + s.inChannels + s.inStash + s.returned).Nodup
  := by
  obtain ⟨s, hrun, hwork, hreturned⟩ :=
    Run.exists_of_exec (State.step (smallConfig true)) (fun _ _ => True) {}
      (List.flatten [[.stream ⟨.data, 11, 0, 3⟩ true], List.replicate 3 .advance, [.openChannel 11],
        List.replicate 6 .advance,
        [.datagram true [some ⟨.data, 11, 5, 2⟩, some ⟨.ack, 11, 0, 0⟩]],
        List.replicate 5 .advance, [.read 0 3], List.replicate 3 .advance,
        [.localClose 0 false], List.replicate 11 .advance])
      (fun s => s.work = [] ∧ s.returned = [2, 0, 1]) (by decide +kernel)
  exact ⟨s, hrun, hwork, hreturned, buffers_have_one_owner _ s hrun⟩

end State

end Buffers

end Muxocket
