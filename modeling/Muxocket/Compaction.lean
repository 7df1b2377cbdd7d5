import Mathlib.Data.List.Range
import Mathlib.Logic.Function.Basic
import Muxocket.WriteScheduler

/-!
# Compaction in place

The writer compacts a batch in the array that holds it, with one index for the frame it looks at
and one for the end of what it keeps.  A frame that is dropped or merged is released and its
place is cleared; one that is kept is moved to the end of what is kept.

The array does what `Session.compactFrom` does with lists.  What that keeps of a batch is read off
the list of the frames as they are resolved.
-/

namespace Muxocket

open Function

open WriteFrame

/-! ### The loop -/

/-- A frame in the array.  As history we keep where it was when the loop began. -/
structure Slot where
  frame : WriteFrame
  origin : Nat
deriving DecidableEq, Repr

/-- The loop at work: the array, in which a place may be cleared, the number of frames that are
kept, and the session.  As history we keep which frames have been released. -/
structure Compaction where
  frames : Nat → Option Slot
  outIdx : Nat
  sess : Session
  released : List Nat

namespace Compaction

/-- Release the frame at a place, and clear the place. -/
def release (i : Nat) (c : Compaction) : Compaction :=
  { c with
    frames := update c.frames i none
    released := c.released ++ ((c.frames i).map Slot.origin).toList }

/-- Change the frame at a place. -/
def modify (i : Nat) (g : WriteFrame → WriteFrame) (c : Compaction) : Compaction :=
  { c with
    frames := update c.frames i
      ((c.frames i).map fun x => { x with frame := g x.frame }) }

/-- The first of the frames that are kept into which a frame can be merged. -/
def search (f : WriteFrame) (c : Compaction) : Option Nat :=
  (List.range c.outIdx).find? fun j => (c.frames j).any fun x => f.meets x.frame

/-- Keep the frame at a place. -/
def keep (i : Nat) (c : Compaction) : Compaction :=
  { c with
    frames :=
      if c.outIdx = i then c.frames
      else update (update c.frames c.outIdx (c.frames i)) i none
    outIdx := c.outIdx + 1 }

/-- The body of the loop, for the frame at a place. -/
def body (c : Compaction) (i : Nat) : Compaction :=
  match c.frames i with
  | none => c
  | some x =>
      match c.sess.resolveFrame x.frame with
      | (none, s) => release i { c with sess := s }
      | (some f, s) =>
          let c := modify i (fun _ => f) { c with sess := s }
          match c.search f with
          | some j => release i (modify j (fun g => g.absorb f) c)
          | none => c.keep i

/-- The loop over a batch of `n` frames. -/
def loop (n : Nat) (c : Compaction) : Compaction :=
  (List.range n).foldl body c

/-- The array with a batch. -/
def ofBatch (batch : List WriteFrame) (s : Session) : Compaction where
  frames i := (batch[i]?).map fun f => { frame := f, origin := i }
  outIdx := 0
  sess := s
  released := []

end Compaction

/-! ### The array does what is done with lists -/

namespace Compaction

/-- The loop has looked at the first `i` frames of a batch and keeps `out`: it is at the front of
the array, the places after it are cleared, and every other frame has been released once. -/
structure Progress (batch : List WriteFrame) (i : Nat) (out : List Slot) (c : Compaction) :
    Prop where
  front : ∀ j < i, c.frames j = out[j]?
  rest : ∀ j, i ≤ j → c.frames j = (batch[j]?).map fun f => { frame := f, origin := j }
  outIdx : c.outIdx = out.length
  le : out.length ≤ i
  released : (c.released ++ out.map Slot.origin).Perm (List.range i)

theorem progress_ofBatch (batch : List WriteFrame) (s : Session) :
  (ofBatch batch s).Progress batch 0 []
  := ⟨nofun, fun _ _ => rfl, rfl, le_rfl, .refl _⟩

section

variable {batch : List WriteFrame} {i : Nat} {out : List Slot} {c : Compaction}

/-- The loop has looked at one more frame. -/
theorem Progress.next (hc : c.Progress batch i out) {c' : Compaction} {out' : List Slot}
    (hframes : ∀ j, c'.frames j = if j ≤ i then out'[j]? else c.frames j)
    (hout : c'.outIdx = out'.length) (hle : out'.length ≤ i + 1)
    (hreleased : (c'.released ++ out'.map Slot.origin).Perm
      (c.released ++ out.map Slot.origin ++ [i])) :
  c'.Progress batch (i + 1) out'
  where
  front j hj := by
    rw [hframes, if_pos (by omega)]
  rest j hj := by
    rw [hframes, if_neg (by omega)]
    apply hc.rest j (by omega)
  outIdx := hout
  le := hle
  released := by
    rw [List.range_succ]
    apply hreleased.trans (hc.released.append_right [i])

theorem released_append (xs ys : List Nat) (i : Nat) :
  (xs ++ [i] ++ ys).Perm (xs ++ ys ++ [i])
  := by
  rw [List.append_assoc, List.append_assoc]
  apply List.Perm.append_left
  apply List.perm_append_comm

variable {x : Slot}

section

variable (hc : c.Progress batch i out) (hx : c.frames i = some x) (hi : x.origin = i)

include hc hx hi

/-- The next frame is dropped. -/
theorem Progress.drop (s : Session) :
  (release i { c with sess := s }).Progress batch (i + 1) out
  := by
  refine hc.next ?_ hc.outIdx (Nat.le_succ_of_le hc.le) ?_
  · intro j
    rcases lt_trichotomy j i with hj | rfl | hj
    · simp [release, update_of_ne hj.ne, hc.front j hj, hj.le]
    · simp [release, List.getElem?_eq_none hc.le]
    · simp [release, update_of_ne hj.ne', hj]
  · simp only [release, hx, Option.map_some, Option.toList_some, hi]
    apply released_append

/-- The next frame is merged into one that is kept. -/
theorem Progress.merge (s : Session) (f : WriteFrame) {j : Nat} (hj : j < out.length) :
  (release i (modify j (fun g => g.absorb f) (modify i (fun _ => f) { c with sess := s }))).Progress
    batch (i + 1) (out.set j { out[j] with frame := out[j].frame.absorb f })
  := by
  have hji : j ≠ i := by
    have := hc.le
    omega
  have hlen : (out.set j { out[j] with frame := out[j].frame.absorb f }).length = out.length := by
    simp
  have hle := hc.le
  refine hc.next ?_ (by rw [hlen]; exact hc.outIdx) (by omega) ?_
  · intro k
    rcases lt_trichotomy k i with hk | rfl | hk
    · by_cases hkj : k = j
      · subst hkj
        simp [release, modify, update_of_ne hk.ne, hc.front k hk, hk.le, hj]
      · simp [release, modify, update_of_ne hk.ne, update_of_ne hkj, hc.front k hk,
          hk.le, List.getElem?_set_ne (Ne.symm hkj)]
    · simp [release, hc.le]
    · have hkj : k ≠ j := by
        have := hc.le
        omega
      simp [release, modify, update_of_ne hk.ne', update_of_ne hkj, hk]
  · have horigin : (out.set j { out[j] with frame := out[j].frame.absorb f }).map Slot.origin
        = out.map Slot.origin := by
      rw [List.map_set]
      apply List.ext_getElem
      · simp
      · intro k _ _
        simp only [List.getElem_set, List.getElem_map]
        split
        · rename_i heq
          simp [heq]
        · rfl
    rw [horigin]
    simp only [release, modify, update_of_ne hji.symm, update_self, hx,
      Option.map_some, Option.toList_some, hi]
    apply released_append

/-- The next frame is kept. -/
theorem Progress.keep (s : Session) (f : WriteFrame) :
  (Compaction.keep i (modify i (fun _ => f) { c with sess := s })).Progress batch (i + 1)
    (out ++ [⟨f, i⟩])
  := by
  have hle := hc.le
  refine hc.next ?_ (by simp [Compaction.keep, modify, hc.outIdx]) (by simp; omega) ?_
  · intro k
    have hslot : ({ x with frame := f } : Slot) = ⟨f, i⟩ := by
      simp [hi]
    simp only [Compaction.keep, modify, hc.outIdx, update_self, hx, Option.map_some, hslot]
    split
    · rename_i heq
      rcases lt_trichotomy k i with hk | rfl | hk
      · simp [update_of_ne hk.ne, hc.front k hk, hk.le, List.getElem?_append_left (heq ▸ hk)]
      · simp [← heq]
      · simp [update_of_ne hk.ne', hk]
    · rename_i hne
      rcases lt_trichotomy k i with hk | rfl | hk
      · by_cases hlast : k = out.length
        · subst hlast
          simp [update_of_ne hk.ne, hk.le]
        · rw [update_of_ne hk.ne, update_of_ne hlast, update_of_ne hk.ne,
            hc.front k hk, if_pos hk.le]
          rw [List.getElem?_append, List.getElem?_singleton]
          grind
      · rw [update_self, if_pos le_rfl, List.getElem?_eq_none (by simp; omega)]
      · rw [update_of_ne hk.ne', update_of_ne (by omega),
          update_of_ne hk.ne', if_neg (by omega)]
  · simp [Compaction.keep, modify]

end

end

variable {out : List Slot}

/-- What the search looks at are the frames that are kept. -/
theorem Progress.search_eq {batch : List WriteFrame} {i : Nat} {c : Compaction}
    (hc : c.Progress batch i out) (f : WriteFrame) (s : Session) {j : Nat} (hj : j < out.length) :
  ((modify i (fun _ => f) { c with sess := s }).frames j).any (fun x => f.meets x.frame)
    = f.meets out[j].frame
  := by
  have hji : j < i := lt_of_lt_of_le hj hc.le
  simp [modify, update_of_ne hji.ne, hc.front j hji, hj]

theorem mergeInto_set {f : WriteFrame} {j : Nat} (hj : j < out.length)
    (hmeets : f.meets out[j].frame = true) (hfirst : ∀ x ∈ out.take j, f.meets x.frame = false) :
  mergeInto (out.map Slot.frame) f
    = (out.set j { out[j] with frame := out[j].frame.absorb f }).map Slot.frame
  := by
  have hsplit : out.map Slot.frame
      = (out.take j).map Slot.frame ++ out[j].frame :: (out.drop (j + 1)).map Slot.frame := by
    rw [← List.map_cons, ← List.map_append, ← List.drop_eq_getElem_cons hj, List.take_append_drop]
  rw [hsplit, mergeInto, Merging.insert_of_first _ hmeets, List.set_eq_take_append_cons_drop,
    if_pos hj, List.map_append, List.map_cons]
  intro g hg
  obtain ⟨x, hx, rfl⟩ := List.mem_map.mp hg
  apply hfirst x hx

/-- The frame after those the loop has looked at, and what becomes of it. -/
theorem Progress.body {batch : List WriteFrame} {i : Nat} {c : Compaction}
    (hc : c.Progress batch i out) (hi : i < batch.length) :
  ∃ out', (c.body i).Progress batch (i + 1) out'
    ∧ c.sess.compactFrom (out.map Slot.frame) (batch.drop i)
      = (c.body i).sess.compactFrom (out'.map Slot.frame) (batch.drop (i + 1))
  := by
  have hx : c.frames i = some ⟨batch[i], i⟩ := by
    simp [hc.rest i le_rfl, hi]
  rw [List.drop_eq_getElem_cons hi, Session.compactFrom_cons]
  unfold Compaction.body
  rw [hx]
  dsimp only
  generalize c.sess.resolveFrame batch[i] = r
  obtain ⟨resolved, s⟩ := r
  cases resolved with
  | none => exact ⟨out, hc.drop hx rfl s, rfl⟩
  | some f =>
      dsimp only
      split
      · rename_i j hfound
        obtain ⟨hmeets, hj, hfirst⟩ := List.find?_range_eq_some.mp hfound
        have hj : j < out.length := by
          rw [← hc.outIdx]
          exact List.mem_range.mp hj
        refine ⟨_, hc.merge hx rfl s f hj, ?_⟩
        rw [Option.elim_some, mergeInto_set hj]
        · rfl
        · rwa [hc.search_eq f s hj] at hmeets
        · intro x hx
          obtain ⟨k, hk, rfl⟩ := List.mem_take_iff_getElem.mp hx
          have hnot := hfirst k (by omega)
          rw [hc.search_eq f s (by omega)] at hnot
          simpa using hnot
      · rename_i hnone
        refine ⟨_, hc.keep hx rfl s f, ?_⟩
        rw [Option.elim_some, mergeInto, Merging.insert_of_forall, List.map_append]
        · rfl
        · intro g hg
          obtain ⟨y, hy, rfl⟩ := List.mem_map.mp hg
          obtain ⟨k, hk, rfl⟩ := List.mem_iff_getElem.mp hy
          have hnot := List.find?_range_eq_none.mp hnone k (by rw [← hc.outIdx] at hk; exact hk)
          rw [hc.search_eq f s hk] at hnot
          simpa using hnot

/-- The loop does with the array what `compactFrom` does with lists. -/
theorem progress_loop (batch : List WriteFrame) (s : Session) (n : Nat) (hn : n ≤ batch.length) :
  ∃ out, (loop n (ofBatch batch s)).Progress batch n out
    ∧ s.compactFrom [] batch
      = (loop n (ofBatch batch s)).sess.compactFrom (out.map Slot.frame) (batch.drop n)
  := by
  induction n with
  | zero => exact ⟨[], progress_ofBatch batch s, rfl⟩
  | succ n ih =>
      obtain ⟨out, hprogress, heq⟩ := ih (by omega)
      obtain ⟨out', hprogress', heq'⟩ := hprogress.body (by omega)
      refine ⟨out', ?_, ?_⟩
      · rw [loop, List.range_succ, List.foldl_append]
        exact hprogress'
      · rw [heq, heq', loop, loop, List.range_succ, List.foldl_append]
        rfl

end Compaction

/-! ### The frames of a batch as they are resolved -/

/-- The frames of a batch as they are resolved one after the other, without those that return
nothing. -/
def Session.resolveAll : List WriteFrame → Session → List WriteFrame
  | [], _ => []
  | f :: frames, s => (s.resolveFrame f).1.toList ++ resolveAll frames (s.resolveFrame f).2

theorem Session.compactFrom_fst (out frames : List WriteFrame) (s : Session) :
  (s.compactFrom out frames).1 = (s.resolveAll frames).foldl mergeInto out
  := by
  induction frames generalizing out s with
  | nil => rfl
  | cons f frames ih =>
      rw [compactFrom_cons, ih, resolveAll, List.foldl_append]
      cases (s.resolveFrame f).1 <;> rfl

namespace WriteFrame

/-- A frame that refers to no channel and no window. -/
def isPlain (f : WriteFrame) : Bool :=
  decide (f.ackCh = none ∧ f.streamFlow = none ∧ f.sessionFlow = false)

/-- A frame that refers to a window. -/
def isUpdate (f : WriteFrame) : Bool :=
  f.streamFlow.isSome || f.sessionFlow

/-- A frame and what it is when it has been resolved: an acknowledgement gets the offset of its
channel, the length of a window update may change, and all else stays as it is. -/
structure Filled (s : Session) (f g : WriteFrame) : Prop where
  eq : g = { f with
    offset := f.ackCh.elim f.offset fun h => (s.heap h).ackOffset
    length := g.length }
  length : f.isUpdate = false → g.length = f.length

end WriteFrame

namespace Session

/-- What the resolved frames `rs` of a batch are.  Frames that refer to nothing are among them as
they were.  Of the others only window updates are left out.  For a window to which frames refer
one of them is left, with what the window has to return, or none if that is nothing. -/
structure Resolved (s : Session) (batch rs : List WriteFrame) : Prop where
  plain : rs.filter isPlain = batch.filter isPlain
  filled : ∃ kept : List WriteFrame, kept.Sublist batch
    ∧ kept.filter (fun f => !f.isUpdate) = batch.filter (fun f => !f.isUpdate)
    ∧ List.Forall₂ (WriteFrame.Filled s) kept rs
  stream : ∀ h, (∀ f ∈ batch, f.streamFlow = some h → f.sessionFlow = false) →
    (rs.filter fun f => f.streamFlow = some h).map length
      = if 0 < (s.heap h).flow.unflushed ∧ ∃ f ∈ batch, f.streamFlow = some h then
          [(s.heap h).flow.unflushed.toNat]
        else []
  session : (∀ f ∈ batch, f.sessionFlow = true → f.streamFlow = none) →
    (rs.filter sessionFlow).map length
      = if 0 < s.flow.unflushed ∧ ∃ f ∈ batch, f.sessionFlow = true then
          [s.flow.unflushed.toNat]
        else []

theorem resolveAck_spec (f : WriteFrame) (s : Session) :
  (s.resolveAck f).1
      = { f with offset := f.ackCh.elim f.offset fun h => (s.heap h).ackOffset }
    ∧ (s.resolveAck f).2.flow = s.flow
    ∧ ∀ h, ((s.resolveAck f).2.heap h).ackOffset = (s.heap h).ackOffset
      ∧ ((s.resolveAck f).2.heap h).flow = (s.heap h).flow
  := by
  unfold resolveAck
  split
  · rename_i k hack
    have hoffset : (f.ackCh.elim f.offset fun h => (s.heap h).ackOffset)
        = (s.heap k).ackOffset := by
      rw [hack, Option.elim_some]
    refine ⟨by rw [hoffset], rfl, fun h => ?_⟩
    by_cases hk : h = k
    · simp [hk]
    · simp [heap_update_of_ne hk]
  · rename_i hack
    have hoffset : (f.ackCh.elim f.offset fun h => (s.heap h).ackOffset) = f.offset := by
      rw [hack, Option.elim_none]
    exact ⟨by rw [hoffset], rfl, fun _ => ⟨rfl, rfl⟩⟩

theorem resolveUpd_both {f : WriteFrame} {h : Nat} (hstream : f.streamFlow = some h)
    (hsession : f.sessionFlow = true) (s : Session) :
  s.resolveUpd f = (if (s.heap h).flow.unflushed ≤ 0 ∨ s.flow.unflushed ≤ 0 then none
      else some { f with length := s.flow.unflushed.toNat },
    { s.update h fun c => { c with flow := c.flow.resolved } with
      flow := if (s.heap h).flow.unflushed ≤ 0 then s.flow
        else { s.flow with toFlow := s.flow.resolved } })
  := by
  by_cases hle : (s.heap h).flow.unflushed ≤ 0 <;>
    simp [resolveUpd, resolveStreamUpd, hstream, resolveSessionUpd, hsession, hle, update]

theorem resolveUpd_spec (f : WriteFrame) (s : Session) :
  (∀ g ∈ (s.resolveUpd f).1, g = { f with length := g.length })
    ∧ (f.isUpdate = false → (s.resolveUpd f).1 = some f)
    ∧ (f.sessionFlow = false → (s.resolveUpd f).2.flow = s.flow)
    ∧ ∀ h, ((s.resolveUpd f).2.heap h).ackOffset = (s.heap h).ackOffset
      ∧ (f.streamFlow ≠ some h → ((s.resolveUpd f).2.heap h).flow = (s.heap h).flow)
  := by
  have hlength {c : Prop} [Decidable c] {n : Nat} {g : WriteFrame}
      (hg : g ∈ if c then none else some { f with length := n }) :
      g = { f with length := g.length } := by
    cases (Option.ite_none_left_eq_some.mp hg).2
    rfl
  have hheap {k : Nat} (hstream : f.streamFlow = some k) (h : Nat) :
      ((s.update k fun c => { c with flow := c.flow.resolved }).heap h).ackOffset
        = (s.heap h).ackOffset
      ∧ (f.streamFlow ≠ some h →
        ((s.update k fun c => { c with flow := c.flow.resolved }).heap h).flow
          = (s.heap h).flow) := by
    by_cases hk : h = k
    · simp [hk, hstream]
    · simp [heap_update_of_ne hk]
  rcases Option.eq_none_or_eq_some f.streamFlow with hstream | ⟨k, hstream⟩ <;>
    rcases Bool.eq_false_or_eq_true f.sessionFlow with hsession | hsession
  · rw [resolveUpd_session hstream hsession]
    exact ⟨fun g => hlength, by simp [isUpdate, hsession], by simp [hsession],
      fun _ => ⟨rfl, fun _ => rfl⟩⟩
  · rw [resolveUpd_plain hstream hsession]
    exact ⟨fun g hg => by cases hg; rfl, fun _ => rfl, fun _ => rfl, fun _ => ⟨rfl, fun _ => rfl⟩⟩
  · rw [resolveUpd_both hstream hsession]
    exact ⟨fun g => hlength, by simp [isUpdate, hsession], by simp [hsession],
      hheap hstream⟩
  · rw [resolveUpd_stream hstream hsession]
    exact ⟨fun g => hlength, by simp [isUpdate, hstream], fun _ => rfl, hheap hstream⟩

theorem resolveFrame_spec (f : WriteFrame) (s : Session) :
  (∀ g ∈ (s.resolveFrame f).1, f.Filled s g)
    ∧ (f.isUpdate = false → (s.resolveFrame f).1 ≠ none)
    ∧ ∀ h, ((s.resolveFrame f).2.heap h).ackOffset = (s.heap h).ackOffset
  := by
  obtain ⟨hf, -, hack⟩ := resolveAck_spec f s
  obtain ⟨hframe, hplain, -, hheap⟩ := resolveUpd_spec (s.resolveAck f).1 (s.resolveAck f).2
  have hsame : (s.resolveAck f).1.isUpdate = f.isUpdate := by
    rw [hf]
    rfl
  rw [hsame] at hplain
  refine ⟨fun g hg => ⟨?_, fun hnot => ?_⟩, fun hnot => ?_, fun h => ?_⟩
  · rw [hframe g hg, hf]
  · have heq := Option.some.inj ((hplain hnot).symm.trans hg)
    rw [← heq, hf]
  · rw [resolveFrame, hplain hnot]
    exact Option.some_ne_none _
  · exact (hheap h).1.trans (hack h).1

theorem filled_resolveAll (batch : List WriteFrame) (s : Session) :
  ∃ kept : List WriteFrame, kept.Sublist batch
    ∧ kept.filter (fun f => !f.isUpdate) = batch.filter (fun f => !f.isUpdate)
    ∧ List.Forall₂ (WriteFrame.Filled s) kept (s.resolveAll batch)
  := by
  induction batch generalizing s with
  | nil => exact ⟨[], .refl _, rfl, .nil⟩
  | cons f batch ih =>
      obtain ⟨hfilled, hsome, hoffset⟩ := resolveFrame_spec f s
      obtain ⟨kept, hsub, hfilter, hrs⟩ := ih (s.resolveFrame f).2
      have hrs : List.Forall₂ (WriteFrame.Filled s) kept
          ((s.resolveFrame f).2.resolveAll batch) := by
        apply hrs.imp
        rintro f g ⟨heq, hlength⟩
        simp only [hoffset] at heq
        exact ⟨heq, hlength⟩
      rw [resolveAll]
      cases hg : (s.resolveFrame f).1 with
      | none =>
          have hupdate : f.isUpdate = true := by
            by_contra h
            exact hsome (by simpa using h) hg
          exact ⟨kept, hsub.cons f, by simp [hupdate, hfilter], hrs⟩
      | some g =>
          exact ⟨f :: kept, hsub.cons_cons f, by simp [List.filter_cons, hfilter],
            .cons (hfilled g hg) hrs⟩

/-- Resolving does not change what a frame refers to. -/
theorem filter_resolveFrame {p : WriteFrame → Bool} {f : WriteFrame} (hp : p f = false)
    (hsame : ∀ offset length, p { f with offset := offset, length := length } = p f) (s : Session) :
  (s.resolveFrame f).1.toList.filter p = []
  := by
  rw [List.filter_eq_nil_iff]
  intro g hg
  rw [((resolveFrame_spec f s).1 g (by simpa using hg)).eq, hsame, hp]
  exact Bool.false_ne_true

theorem plain_resolveAll (batch : List WriteFrame) (s : Session) :
  (s.resolveAll batch).filter isPlain = batch.filter isPlain
  := by
  induction batch generalizing s with
  | nil => rfl
  | cons f batch ih =>
      have hf : (s.resolveFrame f).1.toList.filter isPlain
          = [f].filter isPlain := by
        cases hplain : f.isPlain with
        | true =>
            simp only [isPlain, decide_eq_true_eq] at hplain
            rw [resolveFrame_plain hplain.2.1 hplain.1 hplain.2.2]
            rfl
        | false =>
            rw [List.filter_cons_of_neg (by simp [hplain]), List.filter_nil]
            apply filter_resolveFrame hplain fun _ _ => rfl
      rw [resolveAll, List.filter_append, hf, ih, ← List.filter_append, List.singleton_append]

/-- The frames that refer to a window, of which `v` is to be returned. -/
theorem update_resolveAll {p : WriteFrame → Bool} {v : Session → Int} {batch : List WriteFrame}
    (h : ∀ f ∈ batch, ∀ s : Session,
      ((s.resolveFrame f).1.toList.filter p).map length
          = (if p f = true ∧ 0 < v s then [(v s).toNat] else [])
        ∧ v (s.resolveFrame f).2 = if p f then 0 else v s)
    (s : Session) :
  ((s.resolveAll batch).filter p).map length
    = if 0 < v s ∧ ∃ f ∈ batch, p f = true then [(v s).toNat] else []
  := by
  induction batch generalizing s with
  | nil => simp [resolveAll]
  | cons f batch ih =>
      obtain ⟨hf, hbatch⟩ := List.forall_mem_cons.mp h
      obtain ⟨hlength, hv⟩ := hf s
      rw [resolveAll, List.filter_append, List.map_append, hlength, ih hbatch, hv]
      cases hpf : p f <;> simp [hpf]

theorem resolved_resolveAll (batch : List WriteFrame) (s : Session) :
  s.Resolved batch (s.resolveAll batch)
  := by
  refine ⟨plain_resolveAll batch s, filled_resolveAll batch s, fun h hone => ?_, fun hone => ?_⟩
  · suffices hstream : ∀ f ∈ batch, ∀ s : Session, _ by
      simpa using update_resolveAll (p := fun f => f.streamFlow = some h)
        (v := fun s => (s.heap h).flow.unflushed) hstream s
    intro f hf s
    obtain ⟨heq, -, hack⟩ := resolveAck_spec f s
    obtain ⟨-, -, -, hheap⟩ := resolveUpd_spec (s.resolveAck f).1 (s.resolveAck f).2
    by_cases hstream : f.streamFlow = some h
    · have hframe := resolveUpd_stream (f := (s.resolveAck f).1) (h := h) (by rw [heq, hstream])
        (by rw [heq, hone f hf hstream]) (s.resolveAck f).2
      rw [resolveFrame, hframe, (hack h).2]
      by_cases hle : (s.heap h).flow.unflushed ≤ 0
      · simp [hle, not_lt.mpr hle, hstream, Flow.resolved]
      · simp [hle, not_le.mp hle, hstream, heq, Flow.resolved]
    · rw [filter_resolveFrame (by simpa using hstream) fun _ _ => rfl, resolveFrame,
        (hheap h).2 (by rwa [heq]), (hack h).2]
      simp [hstream]
  · apply update_resolveAll (p := sessionFlow) (v := fun s => s.flow.unflushed)
    intro f hf s
    obtain ⟨heq, hack, -⟩ := resolveAck_spec f s
    obtain ⟨-, -, hflow, -⟩ := resolveUpd_spec (s.resolveAck f).1 (s.resolveAck f).2
    cases hsession : f.sessionFlow with
    | true =>
        have hframe := resolveUpd_session (f := (s.resolveAck f).1)
          (by rw [heq, hone f hf hsession]) (by rw [heq, hsession]) (s.resolveAck f).2
        rw [resolveFrame, hframe, hack]
        by_cases hle : s.flow.unflushed ≤ 0
        · simp [hle, not_lt.mpr hle, Flow.resolved]
        · simp [hle, not_le.mp hle, hsession, heq, Flow.resolved]
    | false =>
        rw [filter_resolveFrame hsession fun _ _ => rfl, resolveFrame,
          hflow (by rw [heq, hsession]), hack]
        simp

end Session

/-! ### What is kept of a batch -/

namespace WriteFrame

/-- A frame of a kind for a channel. -/
def isOf (flag : Flag) (id : Nat) (f : WriteFrame) : Bool :=
  decide (f.flag = flag ∧ f.chID = id)

/-- Neither an acknowledgement nor a window update. -/
def isOther (f : WriteFrame) : Bool :=
  decide (f.flag ≠ .ack ∧ f.flag ≠ .upd)

end WriteFrame

/-- What is kept of the resolved frames `rs` of a batch: the frames that are neither
acknowledgements nor window updates in their order, one acknowledgement for each channel that has
one, with the greatest offset, and one window update, with the sum of the lengths as a 32-bit
number. -/
structure Condensed (rs out : List WriteFrame) : Prop where
  other : out.filter isOther = rs.filter isOther
  acks : ∀ id, (out.filter (isOf .ack id)).map offset
    = ((rs.filter (isOf .ack id)).map offset).max?.toList
  upds : ∀ id, (out.filter (isOf .upd id)).map (fun f => f.length % 2 ^ 32)
    = if rs.filter (isOf .upd id) = [] then []
      else [((rs.filter (isOf .upd id)).map length).sum % 2 ^ 32]

/-- A frame is merged into one of its own kind and channel, which stays what it is. -/
theorem WriteFrame.kind_of_meets {k : Flag → Nat → Bool} {f g : WriteFrame} (h : f.meets g = true) :
  k g.flag g.chID = k f.flag f.chID
    ∧ k (g.absorb f).flag (g.absorb f).chID = k f.flag f.chID
  := by
  simp only [meets, decide_eq_true_eq] at h
  obtain ⟨⟨hf, hg⟩ | ⟨hf, hg⟩, hid⟩ := h <;> simp [absorb, hf, hg, hid]

theorem offset_foldl_absorb (fs : List WriteFrame) (g : WriteFrame)
    (hfs : ∀ f ∈ fs, f.flag = .ack) :
  (fs.foldl absorb g).offset = (fs.map offset).foldl max g.offset
  := by
  induction fs generalizing g with
  | nil => rfl
  | cons f fs ih =>
      obtain ⟨hf, hfs⟩ := List.forall_mem_cons.mp hfs
      have hmax : (g.absorb f).offset = max g.offset f.offset := by
        rw [absorb, if_pos hf]
        dsimp only
        split <;> omega
      rw [List.foldl_cons, ih _ hfs, hmax]
      rfl

theorem length_foldl_absorb (fs : List WriteFrame) (g : WriteFrame)
    (hfs : ∀ f ∈ fs, f.flag = .upd) :
  (fs.foldl absorb g).length % 2 ^ 32
    = (g.length + (fs.map length).sum) % 2 ^ 32
  := by
  induction fs generalizing g with
  | nil => rfl
  | cons f fs ih =>
      obtain ⟨hf, hfs⟩ := List.forall_mem_cons.mp hfs
      have hadd : (g.absorb f).length = (g.length + f.length) % 2 ^ 32 := by
        rw [absorb, if_neg (by simp [hf])]
      rw [List.foldl_cons, ih _ hfs, hadd, List.map_cons, List.sum_cons, Nat.mod_add_mod,
        Nat.add_assoc]

/-- The acknowledgements, or the window updates, for a channel are merged to one. -/
theorem filter_foldl_mergeInto {flag : Flag} (hflag : flag = .ack ∨ flag = .upd) (id : Nat)
    (rs : List WriteFrame) :
  rs.filter (isOf flag id) = []
      ∧ (rs.foldl mergeInto []).filter (isOf flag id) = []
    ∨ ∃ g fs, rs.filter (isOf flag id) = g :: fs ∧ (∀ f ∈ fs, f.flag = flag)
      ∧ (rs.foldl mergeInto []).filter (isOf flag id) = [fs.foldl absorb g]
  := by
  have hkind {f g : WriteFrame} (h : f.meets g = true) :
      g.isOf flag id = f.isOf flag id ∧ (g.absorb f).isOf flag id = f.isOf flag id :=
    kind_of_meets (k := fun a b => decide (a = flag ∧ b = id)) h
  have hmeets {f g : WriteFrame} (hf : f.isOf flag id = true) (hg : g.isOf flag id = true) :
      f.meets g = true := by
    simp only [isOf, decide_eq_true_eq] at hf hg
    rcases hflag with rfl | rfl <;> simp [meets, hf, hg]
  have hfilter : (rs.foldl mergeInto []).filter (isOf flag id)
      = (rs.filter (isOf flag id)).foldl mergeInto [] :=
    Merging.filter_foldl_insert hkind rs []
  cases hrs : rs.filter (isOf flag id) with
  | nil =>
      rw [hrs] at hfilter
      exact .inl ⟨rfl, hfilter⟩
  | cons g fs =>
      have hall : ∀ f ∈ g :: fs, f.isOf flag id = true := by
        intro f hf
        rw [← hrs] at hf
        exact (List.mem_filter.mp hf).2
      obtain ⟨hg, hfs⟩ := List.forall_mem_cons.mp hall
      have hone : (g :: fs).foldl mergeInto [] = [fs.foldl absorb g] :=
        Merging.foldl_insert_of_meets hkind hmeets fs hg hfs
      rw [hrs] at hfilter
      refine .inr ⟨g, fs, rfl, fun f hf => ?_, hfilter.trans hone⟩
      have := hfs f hf
      simp only [isOf, decide_eq_true_eq] at this
      exact this.1

theorem condensed_foldl (rs : List WriteFrame) :
  Condensed rs (rs.foldl mergeInto [])
  := by
  refine ⟨?_, fun id => ?_, fun id => ?_⟩
  · have hkind {f g : WriteFrame} (h : f.meets g = true) :
        g.isOther = f.isOther ∧ (g.absorb f).isOther = f.isOther :=
      kind_of_meets (k := fun flag _ => decide (flag ≠ .ack ∧ flag ≠ .upd)) h
    refine (Merging.filter_foldl_insert hkind rs []).trans (Merging.foldl_insert_of_not ?_ [])
    intro f hf g
    simp only [isOther, List.mem_filter, decide_eq_true_eq] at hf
    simp [meets, hf]
  · obtain ⟨hrs, hout⟩ | ⟨g, fs, hrs, hfs, hout⟩ := filter_foldl_mergeInto (.inl rfl) id rs
    · rw [hrs, hout]
      rfl
    · rw [hrs, hout, List.map_singleton, offset_foldl_absorb fs g hfs, List.map_cons,
        List.max?_cons']
      rfl
  · obtain ⟨hrs, hout⟩ | ⟨g, fs, hrs, hfs, hout⟩ := filter_foldl_mergeInto (.inr rfl) id rs
    · rw [hrs, hout]
      rfl
    · rw [hrs, hout, List.map_singleton, length_foldl_absorb fs g hfs]
      rfl

/-- What the loop makes of a batch, whatever the channels and windows are that its frames refer
to.  The frames that are kept are at the front of the array, as many as it returns, and the places
after them are cleared.  They are what is kept of the frames of the batch as they are resolved,
which are the frames of the batch with the offsets and lengths filled in, without window updates
that return nothing.  Every other frame of the batch has been released once, and none that is
kept. -/
theorem compaction_keeps_meaning (batch : List WriteFrame) (s : Session) :
  ∃ out : List Slot,
    (Compaction.loop batch.length (.ofBatch batch s)).outIdx = out.length
    ∧ (∀ j < out.length,
      (Compaction.loop batch.length (.ofBatch batch s)).frames j = out[j]?)
    ∧ (∀ j, out.length ≤ j → j < batch.length →
      (Compaction.loop batch.length (.ofBatch batch s)).frames j = none)
    ∧ ((Compaction.loop batch.length (.ofBatch batch s)).released ++ out.map Slot.origin).Perm
      (List.range batch.length)
    ∧ s.Resolved batch (s.resolveAll batch)
    ∧ Condensed (s.resolveAll batch) (out.map Slot.frame)
    ∧ s.compactAndResolveControlFrames batch
      = (out.map Slot.frame, (Compaction.loop batch.length (.ofBatch batch s)).sess)
  := by
  obtain ⟨out, hprogress, heq⟩ := Compaction.progress_loop batch s batch.length le_rfl
  rw [List.drop_length] at heq
  refine ⟨out, hprogress.outIdx, ?_, ?_, hprogress.released, s.resolved_resolveAll batch, ?_, heq⟩
  · intro j hj
    apply hprogress.front j (lt_of_lt_of_le hj hprogress.le)
  · intro j hout hj
    rw [hprogress.front j hj, List.getElem?_eq_none hout]
  · have hfst : out.map Slot.frame = (s.resolveAll batch).foldl mergeInto [] := by
      rw [← Session.compactFrom_fst, heq]
      rfl
    rw [hfst]
    apply condensed_foldl

end Muxocket
