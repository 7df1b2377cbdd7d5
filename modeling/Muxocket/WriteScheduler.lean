import Muxocket.Lib.Merging
import Muxocket.Receive

/-!
# The writer

The writer takes frames from the data queue and the control queue in batches.  Before a
batch is written, its acknowledgements and window updates get the offsets and lengths that
are current then, updates with nothing to return are dropped, and what is left of both is
merged to at most one frame of each kind for each channel.
-/

namespace Muxocket

/-! ### Compaction -/

/-- Whether a frame is merged into another. -/
def WriteFrame.meets (f g : WriteFrame) : Bool :=
  decide ((f.flag = .ack ∧ g.flag = .ack ∨ f.flag = .upd ∧ g.flag = .upd) ∧ g.chID = f.chID)

/-- A frame into which another is merged: an acknowledgement has the larger offset, and a window
update the sum of the lengths. -/
def WriteFrame.absorb (g f : WriteFrame) : WriteFrame :=
  if f.flag = .ack then { g with offset := if g.offset < f.offset then f.offset else g.offset }
  else { g with length := (g.length + f.length) % 2 ^ 32 }

/-- A frame taken into a batch, after those that are ready: it is merged into the first of its
kind and its channel. -/
def mergeInto (out : List WriteFrame) (f : WriteFrame) : List WriteFrame :=
  Merging.insert WriteFrame.meets WriteFrame.absorb out f

/-- A frame of a batch is put behind those that are ready, or merged into one of them. -/
theorem mergeInto_cases (out : List WriteFrame) (f : WriteFrame) :
  mergeInto out f = out ++ [f]
    ∨ (f.flag = .ack ∧ ∃ before g after, out = before ++ g :: after ∧ g.flag = .ack
      ∧ g.chID = f.chID
      ∧ mergeInto out f = before ++ { g with offset := max g.offset f.offset } :: after)
    ∨ (f.flag = .upd ∧ ∃ before g after, out = before ++ g :: after ∧ g.flag = .upd
      ∧ g.chID = f.chID
      ∧ mergeInto out f = before ++ { g with length := (g.length + f.length) % 2 ^ 32 } :: after)
  := by
  obtain ⟨-, heq⟩ | ⟨before, g, after, hout, hmeets, heq⟩ := Merging.insert_cases
    WriteFrame.meets WriteFrame.absorb out f
  · exact .inl heq
  · right
    simp only [WriteFrame.meets, decide_eq_true_eq] at hmeets
    obtain ⟨⟨hf, hg⟩ | ⟨hf, hg⟩, hid⟩ := hmeets
    · have hmax : (if g.offset < f.offset then f.offset else g.offset) = max g.offset f.offset := by
        split <;> omega
      rw [WriteFrame.absorb, if_pos hf, hmax] at heq
      exact .inl ⟨hf, before, g, after, hout, hg, hid, heq⟩
    · rw [WriteFrame.absorb, if_neg (by simp [hf])] at heq
      exact .inr ⟨hf, before, g, after, hout, hg, hid, heq⟩

/-- What becomes of the frames that are ready. -/
theorem mem_mergeInto {out : List WriteFrame} {f g : WriteFrame} (hg : g ∈ mergeInto out f) :
  g ∈ out ∨ g = f ∨ ∃ k ∈ out, k.flag = f.flag ∧ k.chID = f.chID
    ∧ (f.flag = .ack ∧ g = { k with offset := max k.offset f.offset }
      ∨ f.flag = .upd ∧ g = { k with length := (k.length + f.length) % 2 ^ 32 })
  := by
  rcases mergeInto_cases out f with heq | ⟨hf, before, k, after, rfl, hk, hid, heq⟩
    | ⟨hf, before, k, after, rfl, hk, hid, heq⟩ <;>
    rw [heq] at hg <;> grind

namespace Session

/-- Give an acknowledgement the offset its channel has now. -/
def resolveAck (f : WriteFrame) (s : Session) : WriteFrame × Session :=
  match f.ackCh with
  | some h =>
      ({ f with offset := (s.heap h).ackOffset },
        s.update h fun c => { c with ackPending := false })
  | none => (f, s)

/-- Give a window update of a channel the length its flow has now.  There is none if the
flow has nothing to return. -/
def resolveStreamUpd (f : WriteFrame) (s : Session) : Option WriteFrame × Session :=
  match f.streamFlow with
  | some h =>
      let delta := (s.heap h).flow.unflushed
      (if delta ≤ 0 then none else some { f with length := delta.toNat },
        s.update h fun c => { c with flow := c.flow.resolved })
  | none => (some f, s)

/-- Give a window update of the session the length its flow has now. -/
def resolveSessionUpd (f : WriteFrame) (s : Session) : Option WriteFrame × Session :=
  if f.sessionFlow then
    let delta := s.flow.unflushed
    (if delta ≤ 0 then none else some { f with length := delta.toNat },
      { s with flow := { s.flow with toFlow := s.flow.resolved } })
  else (some f, s)

/-- Give a window update its length. -/
def resolveUpd (f : WriteFrame) (s : Session) : Option WriteFrame × Session :=
  match s.resolveStreamUpd f with
  | (none, s) => (none, s)
  | (some f, s) => s.resolveSessionUpd f

/-- Resolve a frame of a batch. -/
def resolveFrame (f : WriteFrame) (s : Session) : Option WriteFrame × Session :=
  (s.resolveAck f).2.resolveUpd (s.resolveAck f).1

section

variable {f : WriteFrame} {h : Nat}

theorem resolveAck_some (hack : f.ackCh = some h) (s : Session) :
  s.resolveAck f = ({ f with offset := (s.heap h).ackOffset },
    s.update h fun c => { c with ackPending := false })
  := by
  unfold resolveAck
  split <;> simp_all

theorem resolveAck_none (hack : f.ackCh = none) (s : Session) :
  s.resolveAck f = (f, s)
  := by
  simp [resolveAck, hack]

theorem resolveUpd_stream (hstream : f.streamFlow = some h) (hsession : f.sessionFlow = false)
    (s : Session) :
  s.resolveUpd f = (if (s.heap h).flow.unflushed ≤ 0 then none
      else some { f with length := (s.heap h).flow.unflushed.toNat },
    s.update h fun c => { c with flow := c.flow.resolved })
  := by
  by_cases hle : (s.heap h).flow.unflushed ≤ 0 <;>
    simp [resolveUpd, resolveStreamUpd, hstream, resolveSessionUpd, hsession, hle]

variable (hstream : f.streamFlow = none)

include hstream

theorem resolveUpd_session (hsession : f.sessionFlow = true) (s : Session) :
  s.resolveUpd f = (if s.flow.unflushed ≤ 0 then none
      else some { f with length := s.flow.unflushed.toNat },
    { s with flow := { s.flow with toFlow := s.flow.resolved } })
  := by
  simp [resolveUpd, resolveStreamUpd, hstream, resolveSessionUpd, hsession]

theorem resolveUpd_plain (hsession : f.sessionFlow = false) (s : Session) :
  s.resolveUpd f = (some f, s)
  := by
  simp [resolveUpd, resolveStreamUpd, hstream, resolveSessionUpd, hsession]

/-- A frame that refers to nothing is written as it is. -/
theorem resolveFrame_plain (hack : f.ackCh = none) (hsession : f.sessionFlow = false)
    (s : Session) :
  s.resolveFrame f = (some f, s)
  := by
  rw [resolveFrame, resolveAck_none hack, resolveUpd_plain hstream hsession]

end

/-- Resolve and merge the frames of a batch, the first of which have become `out`. -/
def compactFrom (out frames : List WriteFrame) (s : Session) : List WriteFrame × Session :=
  Merging.collect resolveFrame mergeInto out frames s

theorem compactFrom_cons (out frames : List WriteFrame) (f : WriteFrame) (s : Session) :
  s.compactFrom out (f :: frames)
    = (s.resolveFrame f).2.compactFrom ((s.resolveFrame f).1.elim out (mergeInto out)) frames
  := rfl

/-- Resolve and merge the frames of a batch. -/
def compactAndResolveControlFrames (frames : List WriteFrame) (s : Session) :
    List WriteFrame × Session :=
  s.compactFrom [] frames

/-- Take frames from the queues: from the control queue where `picks` says so, and from
the data queue elsewhere. -/
def collect : List Bool → Session → Option (List WriteFrame × Session)
  | [], s => some ([], s)
  | true :: picks, s =>
      match s.ctrlQueue with
      | [] => none
      | f :: q => (collect picks { s with ctrlQueue := q }).map fun r => (f :: r.1, r.2)
  | false :: picks, s =>
      match s.writes with
      | [] => none
      | f :: q => (collect picks { s with writes := q }).map fun r => (f :: r.1, r.2)

/-- The first frame that is taken is at the head of its queue. -/
theorem collect_cons {s s' : Session} {pick : Bool} {picks : List Bool} {frames : List WriteFrame}
    (hs : s.collect (pick :: picks) = some (frames, s')) :
  ∃ f q rest, frames = f :: rest
    ∧ (s.ctrlQueue = f :: q ∧ { s with ctrlQueue := q }.collect picks = some (rest, s')
      ∨ s.writes = f :: q ∧ { s with writes := q }.collect picks = some (rest, s'))
  := by
  cases pick with
  | true | false =>
      unfold collect at hs
      split at hs
      · contradiction
      · rename_i f q hq
        obtain ⟨res, hres, heq⟩ := Option.map_eq_some_iff.mp hs
        obtain ⟨rfl, rfl⟩ := Prod.mk.inj heq
        refine ⟨f, q, res.1, rfl, ?_⟩
        simp [hq, hres]

/-- A batch of the writer: the frames it puts on the transport. -/
def writeBatch (picks : List Bool) (s : Session) : Option (List PacketFrame × Session) :=
  if picks.length ≤ maxBatchFramesInWriter then
    (s.collect picks).map fun r =>
      let out := r.2.compactAndResolveControlFrames r.1
      (out.1.map WriteFrame.packet, out.2)
  else none

end Session

end Muxocket
