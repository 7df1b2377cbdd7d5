import Muxocket.Lib.RefCount
import Muxocket.Lib.Run
import Muxocket.Lib.Sums

/-!
# References to the frames kept for retransmission

A frame that is kept for retransmission is shared by the list of its channel and by the write
frames that send it: one for its first transmission, and one more for every time it is sent
again.  Its buffer goes back to the allocator when the last of them is done with it.

The model follows the references.  An operation that has taken references, and is about to queue
frames with them or to give them back, is a `Hand`; the batch writer moves references from the
queue to its batch, writes, and gives them back.  Under the lock of the list of a channel an
operation does what it does in one step.  The buffer of a frame is numbered as the frame; a frame
that ends a stream has none.  Acknowledgements and window updates, the only frames the writer
merges, have no references.
-/

namespace Muxocket

namespace References

/-- What is fixed of a frame that is kept for retransmission, and its channel. -/
structure Frame where
  chan : Nat := 0
  offset : Nat := 0
  length : Nat := 0
  fin : Bool := false
deriving DecidableEq, Repr

/-- The offset an acknowledgement must reach to cover the frame. -/
def Frame.end_ (f : Frame) : Nat :=
  if f.fin then f.offset + 1 else f.offset + f.length

/-- A channel: the frames it keeps, and the end of what was written to it. -/
structure Channel where
  unacked : List Nat := []
  writeOffset : Nat := 0
deriving DecidableEq, Repr

/-- An operation with the references it has: it is about to queue the frames, one after the
other, or to give the references back. -/
inductive Hand where
  | sending (fs : List Nat)
  | releasing (fs : List Nat)
deriving DecidableEq, Repr

/-- The references of an operation. -/
def Hand.frames : Hand → List Nat
  | .sending fs => fs
  | .releasing fs => fs

theorem frames_sending (fs : List Nat) :
  (Hand.sending fs).frames = fs
  := rfl

theorem frames_releasing (fs : List Nat) :
  (Hand.releasing fs).frames = fs
  := rfl

/-- What the batch writer does: it fills its batch, or gives the references of a batch that was
written, or given up, back. -/
inductive Writer where
  | collecting
  | releasing
deriving DecidableEq, Repr

/-- A session: its frames with their counts, its channels, the data queue and the batch of the
writer, and the operations under way. -/
structure State where
  frame : Nat → Frame := fun _ => {}
  counts : RefCount := {}
  chans : List Channel
  writes : List Nat := []
  batch : List Nat := []
  writer : Writer := .collecting
  hands : List Hand := []
  closed : Bool := false

/-- What can happen. -/
inductive Event where
  | queueData (c n : Nat)
  | sendFin (c : Nat)
  | checkRetransmissions (c : Nat) (due : List Nat)
  | retransmitAllUnacked (c : Nat)
  | send (i : Nat)
  | fail (i : Nat)
  | release (i : Nat)
  | onAck (c ackOffset : Nat)
  | cleanupReliability (c : Nat)
  | collect
  | write
  | releaseBatch
  | drain
  | close
deriving DecidableEq, Repr

namespace State

/-- Make a frame that is kept for retransmission, put it in the list of its channel, and go on to
queue it. -/
def newUnackedFrame (c : Nat) (ch : Channel) (length : Nat) (fin : Bool) (s : State) : State :=
  { s with
    frame := Function.update s.frame s.counts.born
      { chan := c, offset := ch.writeOffset, length := length, fin := fin }
    counts := s.counts.new 2
    chans := s.chans.set c
      { unacked := ch.unacked ++ [s.counts.born], writeOffset := ch.writeOffset + length }
    hands := s.hands ++ [.sending [s.counts.born]] }

/-- Take references to frames of a channel, and go on to queue them once more. -/
def sendAgain (fs : List Nat) (s : State) : State :=
  { s with counts := s.counts.retainAll fs, hands := s.hands ++ [.sending fs] }

/-- Give back the references to the frames that an acknowledgement covers. -/
def onAck (c ackOffset : Nat) (ch : Channel) (s : State) : State :=
  let covered := fun f => decide ((s.frame f).end_ ≤ ackOffset)
  { s with
    counts := s.counts.releaseAll (ch.unacked.takeWhile covered)
    chans := s.chans.set c { ch with unacked := ch.unacked.dropWhile covered } }

/-- Take the list of a channel, and go on to give back its references. -/
def cleanupReliability (c : Nat) (ch : Channel) (s : State) : State :=
  { s with
    chans := s.chans.set c { ch with unacked := [] }
    hands := s.hands ++ [.releasing ch.unacked] }

/-- Queue the next frame of an operation. -/
def send (i : Nat) (s : State) : Option State :=
  match s.hands[i]? with
  | some (.sending (f :: fs)) =>
      some { s with writes := s.writes ++ [f], hands := s.hands.set i (.sending fs) }
  | _ => none

/-- The session is closed, and an operation gives up. -/
def fail (i : Nat) (s : State) : Option State :=
  match s.hands[i]? with
  | some (.sending fs) => some { s with hands := s.hands.set i (.releasing fs) }
  | _ => none

/-- An operation gives back its next reference. -/
def release (i : Nat) (s : State) : Option State :=
  match s.hands[i]? with
  | some (.releasing (f :: fs)) =>
      some { s with counts := s.counts.release f, hands := s.hands.set i (.releasing fs) }
  | _ => none

/-- The writer gives back the next reference of its batch. -/
def releaseBatch (s : State) : State :=
  match s.batch with
  | [] => { s with writer := .collecting }
  | f :: batch => { s with counts := s.counts.release f, batch := batch }

/-- What becomes of a session by an event, if it can happen. -/
def step (s : State) : Event → Option State
  | .queueData c n => (s.chans[c]?).map fun ch => s.newUnackedFrame c ch n false
  | .sendFin c => (s.chans[c]?).map fun ch => s.newUnackedFrame c ch 0 true
  | .checkRetransmissions c due =>
      (s.chans[c]?).bind fun ch =>
        if due.Sublist ch.unacked then some (s.sendAgain due) else none
  | .retransmitAllUnacked c => (s.chans[c]?).map fun ch => s.sendAgain ch.unacked
  | .send i => s.send i
  | .fail i => if s.closed then s.fail i else none
  | .release i => s.release i
  | .onAck c ackOffset => (s.chans[c]?).map fun ch => s.onAck c ackOffset ch
  | .cleanupReliability c => (s.chans[c]?).map fun ch => s.cleanupReliability c ch
  | .collect =>
      match s.writer, s.writes with
      | .collecting, f :: writes => some { s with writes := writes, batch := s.batch ++ [f] }
      | _, _ => none
  | .write => if s.writer = .collecting then some { s with writer := .releasing } else none
  | .releaseBatch => if s.writer = .releasing then some s.releaseBatch else none
  | .drain =>
      match s.closed, s.writes with
      | true, f :: writes =>
          some { s with counts := s.counts.release f, writes := writes }
      | _, _ => none
  | .close => some { s with closed := true }

/-- A session with `n` channels. -/
def init (n : Nat) : State where
  chans := List.replicate n {}

/-- The buffers that have been returned to the allocator. -/
def returned (s : State) : List Nat :=
  s.counts.freed.filter fun f => !(s.frame f).fin

/-! ### The references of a session -/

/-- The references that the lists of the channels, the queue, the batch and the operations
have. -/
def held (s : State) : Multiset Nat :=
  (s.chans.map fun ch => (ch.unacked : Multiset Nat)).sum + s.writes + s.batch
    + (s.hands.map fun h => (h.frames : Multiset Nat)).sum

theorem mem_held {f : Nat} {s : State} :
  f ∈ s.held ↔ (∃ ch ∈ s.chans, f ∈ ch.unacked) ∨ f ∈ s.writes ∨ f ∈ s.batch
    ∨ ∃ h ∈ s.hands, f ∈ h.frames
  := by
  have hsum : ∀ {α : Type} (g : α → List Nat) (l : List α),
      f ∈ (l.map fun x => (g x : Multiset Nat)).sum ↔ ∃ x ∈ l, f ∈ g x := by
    intro α g l
    induction l with
    | nil => simp
    | cons x l ih => simp [ih]
  simp only [held, Multiset.mem_add, Multiset.mem_coe, or_assoc]
  rw [hsum Channel.unacked, hsum Hand.frames]

/-- The counts of the frames are the numbers of references to them, and the list of a channel has
frames of the channel, each once. -/
structure Counted (s : State) : Prop where
  agrees : s.counts.Agrees s.held
  chans : ∀ c ch, s.chans[c]? = some ch →
    ch.unacked.Nodup ∧ ∀ f ∈ ch.unacked, (s.frame f).chan = c

namespace Counted

variable {s : State}

variable {c i : Nat} {ch : Channel} {s' : State}

theorem mem_of_unacked (hch : s.chans[c]? = some ch) {f : Nat} (hf : f ∈ ch.unacked) :
  f ∈ s.held
  := mem_held.mpr (.inl ⟨ch, List.mem_of_getElem? hch, hf⟩)

/-- The list of a channel is replaced by a part of it. -/
theorem chans_set (hs : s.Counted) {ch' : Channel} (hch : s.chans[c]? = some ch)
    (hsub : ch'.unacked.Sublist ch.unacked) (d : Nat) (dh : Channel)
    (hdh : (s.chans.set c ch')[d]? = some dh) :
  dh.unacked.Nodup ∧ ∀ f ∈ dh.unacked, (s.frame f).chan = d
  := by
  rw [List.getElem?_set] at hdh
  split at hdh
  · rename_i heq
    subst heq
    obtain ⟨-, rfl⟩ := Run.guard hdh
    obtain ⟨hnodup, hchan⟩ := hs.chans c ch hch
    exact ⟨hnodup.sublist hsub, fun f hf => hchan f (hsub.subset hf)⟩
  · exact hs.chans d dh hdh

section

variable (hs : s.Counted) (hch : s.chans[c]? = some ch)

include hs hch

theorem newUnackedFrame (length : Nat) (fin : Bool) :
  (s.newUnackedFrame c ch length fin).Counted
  := by
  have hborn : ∀ f ∈ s.held, f ≠ s.counts.born := fun f hf =>
    Nat.ne_of_lt (hs.agrees.bound f hf)
  constructor
  · have hnew := hs.agrees.new (n := 2) (by decide)
    obtain ⟨m, hold, hset⟩ := exists_sum_set (fun ch : Channel => (ch.unacked : Multiset Nat)) hch
      { unacked := ch.unacked ++ [s.counts.born], writeOffset := ch.writeOffset + length }
    have hheld : (s.newUnackedFrame c ch length fin).held
        = s.held + Multiset.replicate 2 s.counts.born := by
      simp only [held, State.newUnackedFrame, hold, hset, List.map_append, List.sum_append,
        List.map_cons, List.map_nil, List.sum_cons, List.sum_nil, frames_sending,
        ← Multiset.coe_add, Multiset.coe_singleton, Multiset.replicate_succ,
        Multiset.replicate_zero, ← Multiset.singleton_add]
      abel
    rw [hheld]
    exact hnew
  · intro d dh hdh
    simp only [State.newUnackedFrame, List.getElem?_set] at hdh
    split at hdh
    · rename_i heq
      subst heq
      obtain ⟨-, rfl⟩ := Run.guard hdh
      obtain ⟨hnodup, hchan⟩ := hs.chans c ch hch
      have hnew : s.counts.born ∉ ch.unacked := fun hmem =>
        hborn _ (mem_of_unacked hch hmem) rfl
      refine ⟨?_, ?_⟩
      · dsimp only
        rw [← List.concat_eq_append]
        exact hnodup.concat hnew
      · intro f hf
        rcases List.mem_append.mp hf with hf | hf
        · have hne := hborn f (mem_of_unacked hch hf)
          simpa [State.newUnackedFrame, hne] using hchan f hf
        · obtain rfl := List.mem_singleton.mp hf
          simp [State.newUnackedFrame]
    · obtain ⟨hnodup, hchan⟩ := hs.chans d dh hdh
      refine ⟨hnodup, ?_⟩
      intro f hf
      have hne := hborn f (mem_of_unacked hdh hf)
      simpa [State.newUnackedFrame, hne] using hchan f hf

theorem sendAgain {fs : List Nat} (hfs : fs.Sublist ch.unacked) :
  (s.sendAgain fs).Counted
  := by
  refine ⟨?_, hs.chans⟩
  have hretain := hs.agrees.retainAll (l := fs) fun f hf => mem_of_unacked hch (hfs.subset hf)
  have hheld : (s.sendAgain fs).held = s.held + fs := by
    simp only [held, State.sendAgain, List.map_append, List.sum_append, List.map_cons,
      List.map_nil, List.sum_cons, List.sum_nil, frames_sending]
    abel
  rw [hheld]
  exact hretain

theorem onAck (ackOffset : Nat) :
  (s.onAck c ackOffset ch).Counted
  := by
  refine ⟨?_, hs.chans_set hch (List.dropWhile_sublist _)⟩
  apply RefCount.Agrees.releaseAll
  obtain ⟨m, hold, hset⟩ := exists_sum_set (fun ch : Channel => (ch.unacked : Multiset Nat)) hch
    { ch with unacked :=
      ch.unacked.dropWhile fun f => decide ((s.frame f).end_ ≤ ackOffset) }
  have hsplit := List.takeWhile_append_dropWhile
    (p := fun f => decide ((s.frame f).end_ ≤ ackOffset)) (l := ch.unacked)
  have hagrees := hs.agrees
  rw [held, hold, ← hsplit, ← Multiset.coe_add] at hagrees
  simp only [held, State.onAck, hset]
  convert hagrees using 1
  abel

theorem cleanupReliability :
  (s.cleanupReliability c ch).Counted
  := by
  refine ⟨?_, hs.chans_set hch (List.nil_sublist _)⟩
  obtain ⟨m, hold, hset⟩ := exists_sum_set (fun ch : Channel => (ch.unacked : Multiset Nat)) hch
    { ch with unacked := [] }
  have hheld : (s.cleanupReliability c ch).held = s.held := by
    simp only [held, State.cleanupReliability, hold, hset, List.map_append, List.sum_append,
      List.map_cons, List.map_nil, List.sum_cons, List.sum_nil, frames_releasing, Multiset.coe_nil]
    abel
  rw [hheld]
  exact hs.agrees

end

section

variable (hs : s.Counted)

include hs

/-- References change hands. -/
theorem pass (hframe : s'.frame = s.frame) (hcounts : s'.counts = s.counts)
    (hchans : s'.chans = s.chans) (hheld : s'.held = s.held) :
  s'.Counted
  := by
  refine ⟨?_, ?_⟩
  · rw [hcounts, hheld]
    exact hs.agrees
  · rw [hframe, hchans]
    exact hs.chans

/-- A reference is given back. -/
theorem giveBack {f : Nat} (hframe : s'.frame = s.frame) (hcounts : s'.counts = s.counts.release f)
    (hchans : s'.chans = s.chans) (hheld : s.held = f ::ₘ s'.held) :
  s'.Counted
  := by
  refine ⟨?_, ?_⟩
  · rw [hcounts]
    apply RefCount.Agrees.release
    rw [← hheld]
    exact hs.agrees
  · rw [hframe, hchans]
    exact hs.chans

theorem send (h : s.send i = some s') :
  s'.Counted
  := by
  unfold State.send at h
  split at h
  · rename_i f fs hi
    cases h
    obtain ⟨m, hold, hset⟩ := exists_sum_set (fun h : Hand => (h.frames : Multiset Nat)) hi
      (.sending fs)
    refine hs.pass rfl rfl rfl ?_
    simp only [held, hold, hset, frames_sending, ← Multiset.coe_add, ← Multiset.cons_coe,
      Multiset.coe_nil, ← Multiset.singleton_add]
    abel
  · contradiction

theorem fail (h : s.fail i = some s') :
  s'.Counted
  := by
  unfold State.fail at h
  split at h
  · rename_i fs hi
    cases h
    obtain ⟨m, hold, hset⟩ := exists_sum_set (fun h : Hand => (h.frames : Multiset Nat)) hi
      (.releasing fs)
    refine hs.pass rfl rfl rfl ?_
    simp only [held, hold, hset, frames_sending, frames_releasing]
  · contradiction

theorem release (h : s.release i = some s') :
  s'.Counted
  := by
  unfold State.release at h
  split at h
  · rename_i f fs hi
    cases h
    obtain ⟨m, hold, hset⟩ := exists_sum_set (fun h : Hand => (h.frames : Multiset Nat)) hi
      (.releasing fs)
    refine hs.giveBack rfl rfl rfl ?_
    simp only [held, hold, hset, frames_releasing, ← Multiset.cons_coe, ← Multiset.singleton_add]
    abel
  · contradiction

theorem releaseBatch :
  s.releaseBatch.Counted
  := by
  unfold State.releaseBatch
  split
  · exact hs.pass rfl rfl rfl rfl
  · rename_i f batch hbatch
    refine hs.giveBack rfl rfl rfl ?_
    simp only [held, hbatch, ← Multiset.cons_coe, ← Multiset.singleton_add]
    abel

theorem step {e : Event} (h : s.step e = some s') :
  s'.Counted
  := by
  cases e with
  | queueData c n =>
      obtain ⟨ch, hch, rfl⟩ := Option.map_eq_some_iff.mp h
      exact hs.newUnackedFrame hch n false
  | sendFin c =>
      obtain ⟨ch, hch, rfl⟩ := Option.map_eq_some_iff.mp h
      exact hs.newUnackedFrame hch 0 true
  | checkRetransmissions c due =>
      obtain ⟨ch, hch, h⟩ := Option.bind_eq_some_iff.mp h
      obtain ⟨hdue, rfl⟩ := Run.guard h
      exact hs.sendAgain hch hdue
  | retransmitAllUnacked c =>
      obtain ⟨ch, hch, rfl⟩ := Option.map_eq_some_iff.mp h
      exact hs.sendAgain hch (List.Sublist.refl _)
  | send i => exact hs.send h
  | fail i =>
      obtain ⟨-, h⟩ := Option.ite_none_right_eq_some.mp h
      exact hs.fail h
  | release i => exact hs.release h
  | onAck c ackOffset =>
      obtain ⟨ch, hch, rfl⟩ := Option.map_eq_some_iff.mp h
      exact hs.onAck hch ackOffset
  | cleanupReliability c =>
      obtain ⟨ch, hch, rfl⟩ := Option.map_eq_some_iff.mp h
      exact hs.cleanupReliability hch
  | collect =>
      dsimp only [State.step] at h
      split at h
      · rename_i f writes _ hwrites
        cases h
        refine hs.pass rfl rfl rfl ?_
        simp only [held, hwrites, ← Multiset.coe_add, ← Multiset.cons_coe, Multiset.coe_nil,
          ← Multiset.singleton_add]
        abel
      · contradiction
  | write =>
      obtain ⟨-, rfl⟩ := Run.guard h
      exact hs.pass rfl rfl rfl rfl
  | releaseBatch =>
      obtain ⟨-, rfl⟩ := Run.guard h
      exact hs.releaseBatch
  | drain =>
      dsimp only [State.step] at h
      split at h
      · rename_i f writes _ hwrites
        cases h
        refine hs.giveBack rfl rfl rfl ?_
        simp only [held, hwrites, ← Multiset.cons_coe, ← Multiset.singleton_add]
        abel
      · contradiction
  | close =>
      cases h
      exact hs.pass rfl rfl rfl rfl

end

end Counted

theorem counted_init (n : Nat) :
  (init n).Counted
  := by
  refine ⟨?_, ?_⟩
  · have hheld : (init n).held = 0 := by
      simp [held, init]
    rw [hheld]
    exact RefCount.agrees_empty
  · intro c ch hch
    obtain rfl : {} = ch := by
      rw [init, List.getElem?_replicate] at hch
      exact Option.some.inj (Option.ite_none_right_eq_some.mp hch).2
    simp

/-- The number of references to a frame that operations have who are about to queue it. -/
def aboutToSend (f : Nat) (s : State) : Nat :=
  (s.hands.map fun
    | .sending fs => fs.count f
    | .releasing _ => 0).sum

/-- The number of references to a frame that operations are giving back. -/
def aboutToRelease (f : Nat) (s : State) : Nat :=
  (s.hands.map fun
    | .sending _ => 0
    | .releasing fs => fs.count f).sum

theorem count_held (f : Nat) (s : State) :
  s.held.count f
    = (s.chans.map fun ch => ch.unacked.count f).sum + s.writes.count f + s.batch.count f
      + s.aboutToSend f + s.aboutToRelease f
  := by
  have hchans : ∀ l : List Channel, (l.map fun ch => (ch.unacked : Multiset Nat)).sum.count f
      = (l.map fun ch => ch.unacked.count f).sum := by
    intro l
    induction l with
    | nil => rfl
    | cons ch l ih => simp [ih]
  have hhands : (s.hands.map fun h => (h.frames : Multiset Nat)).sum.count f
      = s.aboutToSend f + s.aboutToRelease f := by
    unfold aboutToSend aboutToRelease
    induction s.hands with
    | nil => rfl
    | cons h l ih =>
        simp only [List.map_cons, List.sum_cons, Multiset.count_add, ih, Multiset.coe_count]
        cases h with
        | sending fs =>
            simp only [frames_sending]
            omega
        | releasing fs =>
            simp only [frames_releasing]
            omega
  simp only [held, Multiset.count_add, hchans, hhands, Multiset.coe_count]
  omega

/-- A frame is in no list but that of its channel, and at most once. -/
theorem Counted.count_unacked {s : State} (hs : s.Counted) (f : Nat) :
  (s.chans.map fun ch => ch.unacked.count f).sum
    = if ∃ ch, s.chans[(s.frame f).chan]? = some ch ∧ f ∈ ch.unacked then 1 else 0
  := by
  have hothers : ∀ i ch, s.chans[i]? = some ch → i ≠ (s.frame f).chan → ch.unacked.count f = 0 := by
    intro i ch hch hne
    rw [List.count_eq_zero]
    intro hmem
    exact hne ((hs.chans i ch hch).2 f hmem).symm
  rw [sum_eq_getElem _ hothers]
  split
  · rename_i hmem
    obtain ⟨ch, hch, hmem⟩ := hmem
    rw [hch]
    exact List.count_eq_one_of_mem (hs.chans _ ch hch).1 hmem
  · rename_i hnone
    cases hch : s.chans[(s.frame f).chan]? with
    | none => rfl
    | some ch => exact List.count_eq_zero.mpr fun hmem => hnone ⟨ch, hch, hmem⟩

/-- The references to the frames kept for retransmission are counted.  In every state, the count
of a frame is one if it is in the list of its channel, plus the number of queued, batched and
about to be queued frames that refer to it, plus the number of references to it that are just
being given back.  Its buffer is returned once, when its count is zero, and not while a queued,
batched or about to be queued frame, or the list of its channel, refers to it. -/
theorem references_counted {n : Nat} {s : State} (hrun : Run step (fun _ _ => True) (init n) s) :
  (∀ f < s.counts.born, s.counts.refs f
      = (if ∃ ch, s.chans[(s.frame f).chan]? = some ch ∧ f ∈ ch.unacked then 1 else 0)
        + s.writes.count f + s.batch.count f + s.aboutToSend f + s.aboutToRelease f)
    ∧ s.returned.Nodup
    ∧ (∀ f < s.counts.born, f ∈ s.returned ↔ s.counts.refs f = 0 ∧ (s.frame f).fin = false)
    ∧ ∀ f, (∃ ch ∈ s.chans, f ∈ ch.unacked) ∨ f ∈ s.writes ∨ f ∈ s.batch
        ∨ (∃ h ∈ s.hands, f ∈ h.frames) → f ∉ s.returned
  := by
  have hs : s.Counted := by
    apply Run.invariant (I := Counted) _ hrun (counted_init n)
    intro s e s' hs _ h
    exact hs.step h
  refine ⟨?_, hs.agrees.nodup.filter _, ?_, ?_⟩
  · intro f hf
    rw [hs.agrees.refs f hf, count_held, hs.count_unacked]
    push_cast
    rfl
  · intro f hf
    simp [returned, hs.agrees.freed, hf]
  · intro f hf hreturned
    have hheld : f ∈ s.held := mem_held.mpr hf
    exact (hs.agrees.not_freed hheld).1 (List.mem_filter.mp hreturned).1

/-- A frame is acknowledged while it is queued and about to be sent again; its buffer is returned
when it has been written twice. -/
theorem references_counted_sent_twice :
  ∃ s, Run step (fun _ _ => True) (init 1) s ∧ (s.counts.born = 1 ∧ s.returned = [0])
    ∧ s.counts.refs 0 = 0
  := by
  obtain ⟨s, hrun, hborn, hreturned⟩ := Run.exists_of_exec step (fun _ _ => True) (init 1)
    [.queueData 0 5, .send 0, .checkRetransmissions 0 [0], .onAck 0 5, .collect, .write,
      .releaseBatch, .releaseBatch, .send 1, .collect, .write, .releaseBatch]
    (fun s => s.counts.born = 1 ∧ s.returned = [0]) (by decide +kernel)
  have hzero := (references_counted hrun).2.2.1 0 (by omega)
  rw [hreturned] at hzero
  exact ⟨s, hrun, ⟨hborn, hreturned⟩, (hzero.mp List.mem_cons_self).1⟩

end State

end References

end Muxocket
