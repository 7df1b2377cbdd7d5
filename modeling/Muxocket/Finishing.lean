import Mathlib.Data.PNat.Basic
import Muxocket.Frame
import Muxocket.Lib.Run
import Muxocket.World

/-!
# The last frame of a stream

The frames of a stream are made by calls of `Write` and `ReadFrom`, and the frame that ends it by
`closeWrite`, which `CloseWrite`, `Close` and a reset by the peer call.  A call of `Write` holds
`writeMu` while it makes and queues its frames.  `closeWrite` first sets `writeClosed`, and then
makes the last frame under `writeMu`; if it does not get the lock at once it leaves that to a
goroutine, and if the data queue is full it leaves queueing the frame to another.

Here every one of these steps is a step of its own.  A call that waits for `writeMu` may get it
whenever it is free.  A frame that is kept for retransmission may be sent again at any time.  The
writer takes frames from the two queues as they come, with those of other channels, and compacts a
batch as `Session.compactFrom` does, whatever the session is then.  The session stays open.
-/

namespace Muxocket

namespace Finishing

/-- Where a frame in the queues comes from: not from the channel, from the channel for the first
time, or from the channel once more. -/
inductive Origin where
  | elsewhere
  | first
  | again
deriving DecidableEq, Repr

/-- A frame in the queues, without its payload. -/
structure Frame extends WriteFrame where
  origin : Origin := .elsewhere
deriving DecidableEq, Repr

namespace Frame

/-- A frame of the channel. -/
def mine (f : Frame) : Bool :=
  f.origin ≠ .elsewhere

/-- A frame with data of the channel that is sent for the first time. -/
def isData (f : Frame) : Bool :=
  f.flag = .data ∧ f.origin = .first

/-- A frame that ends the stream of the channel. -/
def isFin (f : Frame) : Bool :=
  f.flag = .fin ∧ f.mine

/-- A frame that is part of a stream, and refers to no channel or window. -/
def Streams (f : Frame) : Prop :=
  (f.flag = .data ∨ f.flag = .fin) ∧ f.ackCh = none ∧ f.streamFlow = none ∧ f.sessionFlow = false

/-- A frame of the channel is part of its stream. -/
def Plain (f : Frame) : Prop :=
  f.mine = true → f.Streams

/-- Resolve a frame, which stays one of its channel. -/
def resolve (f : Frame) (s : Session) : Option Frame × Session :=
  ((s.resolveFrame f.toWriteFrame).1.map fun g => { f with toWriteFrame := g },
    (s.resolveFrame f.toWriteFrame).2)

/-- Whether a frame is merged into another. -/
def meets (f g : Frame) : Bool :=
  f.toWriteFrame.meets g.toWriteFrame

/-- A frame into which another is merged. -/
def absorb (g f : Frame) : Frame :=
  { g with toWriteFrame := g.toWriteFrame.absorb f.toWriteFrame }

end Frame

/-- The frames of a batch as the writer compacts them. -/
def compact (frames : List Frame) (s : Session) : List Frame :=
  (Merging.collect Frame.resolve (Merging.insert Frame.meets Frame.absorb) [] frames s).1

/-- What the holder of `writeMu` does. -/
inductive Holder where
  /-- The lock is free. -/
  | free
  /-- A call of `Write`, or of `ReadFrom`, for `n` bytes looks whether it may write. -/
  | checking (n : Nat) (readFrom : Bool)
  /-- It has `n` bytes left, and looks whether it may go on. -/
  | looping (n : Nat)
  /-- It acquires credit for some of them. -/
  | taking (n : Nat)
  /-- It makes a frame of `sz` bytes, and has then `rest` bytes left. -/
  | making (sz : ℕ+) (rest : Nat)
  /-- It queues a frame. -/
  | sending (f : Frame) (rest : Nat)
  /-- `closeWrite` has the lock. -/
  | closer
deriving DecidableEq

/-- What `closeWrite` does. -/
inductive Closer where
  /-- It has not been called. -/
  | idle
  /-- It sets `writeClosed`. -/
  | closing
  /-- It tries to lock `writeMu`. -/
  | trying
  /-- Its goroutine waits for `writeMu`. -/
  | waiting
  /-- It makes the frame that ends the stream. -/
  | making
  /-- It tries to queue the frame. -/
  | queueing (f : Frame)
  /-- Its goroutine waits until there is room in the queue. -/
  | late (f : Frame)
  /-- It has queued the frame. -/
  | finished
  /-- The channel was closed without such a frame. -/
  | aborted
deriving DecidableEq, Repr

/-- The sending side of a channel, the queues and the batch of the writer. -/
structure State where
  closed : Bool := false
  writeClosed : Bool := false
  finQueued : Bool := false
  writeOffset : Nat := 0
  /-- Who holds `writeMu`, and what they do. -/
  holder : Holder := .free
  closer : Closer := .idle
  /-- The frames made, which a reliable channel keeps for retransmission. -/
  made : List Frame := []
  /-- The frames of the channel that have been queued, in order. -/
  queued : List Frame := []
  writes : List Frame := []
  ctrlQueue : List Frame := []
  batch : List Frame := []
  /-- The frames handed to the transport. -/
  wire : List Frame := []

/-- What can happen. -/
inductive Event where
  /-- A call of `Write` or `ReadFrom` gets the lock. -/
  | lock (n : Nat) (readFrom : Bool)
  /-- The call that has the lock goes on. -/
  | write
  /-- It gets credit for `sz` bytes. -/
  | take (sz : ℕ+)
  /-- It finds no credit, and tries again when it is woken. -/
  | retry
  /-- It finds that the channel has been closed while it waited for credit. -/
  | giveUp
  /-- `closeWrite` is called by `CloseWrite`, by `Close` or by `peerReset`. -/
  | closeWrite
  /-- `closeWrite` goes on. -/
  | finish
  /-- The rest of `Close`. -/
  | close
  /-- A close timeout or a retransmission that was given up closes the channel. -/
  | localClose
  /-- The frame at a place in the list of those made is sent again. -/
  | resend (i : Nat)
  /-- A frame that is not of the channel is queued. -/
  | other (f : Frame)
  /-- A frame is put on the control queue. -/
  | control (f : Frame)
  /-- The writer takes a frame from the data queue. -/
  | collect
  /-- The writer takes a frame from the control queue. -/
  | collectControl
  /-- The writer hands its batch to the transport.  Its acknowledgements and window updates are
  resolved with the session as it is then. -/
  | flush (sess : Session)

namespace State

/-- Put a frame of the channel on the data queue. -/
def queue (f : Frame) (s : State) : State :=
  { s with writes := s.writes ++ [f], queued := s.queued ++ [f] }

/-- There is room in the data queue. -/
def room (cfg : SessionConfig) (s : State) : Prop :=
  s.writes.length < cfg.queueDepth

instance (cfg : SessionConfig) (s : State) : Decidable (s.room cfg) := by
  unfold room
  infer_instance

/-- The next frame with data. -/
def nextData (id sz : Nat) (s : State) : Frame where
  flag := .data
  chID := id
  length := sz
  offset := s.writeOffset
  origin := .first

/-- The frame that ends the stream. -/
def lastFrame (id : Nat) (s : State) : Frame where
  flag := .fin
  chID := id
  offset := s.writeOffset
  origin := .first

/-- Make a frame of `sz` bytes. -/
def queueDataLocked (id sz rest : Nat) (s : State) : State :=
  { s with
    writeOffset := s.writeOffset + sz
    made := s.made ++ [s.nextData id sz]
    holder := .sending (s.nextData id sz) rest }

/-- Make the frame that ends the stream. -/
def sendFinLocked (id : Nat) (s : State) : State :=
  { s with
    made := s.made ++ [s.lastFrame id]
    finQueued := true
    closer := .queueing (s.lastFrame id) }

/-- The call of `Write` or `ReadFrom` that has the lock goes on. -/
def write (cfg : SessionConfig) (id : Nat) (s : State) : Option State :=
  match s.holder with
  | .checking n readFrom =>
      if s.writeClosed ∨ readFrom ∧ s.closed then some { s with holder := .free }
      else some { s with holder := .looping n }
  | .looping n =>
      if n = 0 ∨ s.closed ∨ s.writeClosed then some { s with holder := .free }
      else some { s with holder := .taking n }
  | .making sz rest => some (s.queueDataLocked id sz rest)
  | .sending f rest =>
      if s.room cfg then some { s.queue f with holder := .looping rest } else none
  | _ => none

/-- `closeWrite` goes on. -/
def finish (cfg : SessionConfig) (id : Nat) (s : State) : Option State :=
  match s.closer with
  | .closing => some { s with writeClosed := true, closer := .trying }
  | .trying =>
      if s.holder = .free then some { s with holder := .closer, closer := .making }
      else some { s with closer := .waiting }
  | .waiting =>
      if s.holder = .free then some { s with holder := .closer, closer := .making } else none
  | .making => some (s.sendFinLocked id)
  | .queueing f =>
      if s.room cfg then some { s.queue f with holder := .free, closer := .finished }
      else some { s with holder := .free, closer := .late f }
  | .late f => if s.room cfg then some { s.queue f with closer := .finished } else none
  | _ => none

/-- What becomes of the channel with the given id by an event, if it can happen. -/
def step (cfg : SessionConfig) (id : Nat) (s : State) : Event → Option State
  | .lock n readFrom =>
      if s.holder = .free then some { s with holder := .checking n readFrom } else none
  | .write => s.write cfg id
  | .take sz =>
      match s.holder with
      | .taking n =>
          if sz ≤ n ∧ sz ≤ cfg.maxFrameDataSize then
            some { s with holder := .making sz (n - sz) }
          else none
      | _ => none
  | .retry =>
      match s.holder with
      | .taking n => some { s with holder := .looping n }
      | _ => none
  | .giveUp =>
      match s.holder, s.closed with
      | .taking _, true => some { s with holder := .free }
      | _, _ => none
  | .closeWrite => if s.closer = .idle then some { s with closer := .closing } else none
  | .finish => s.finish cfg id
  | .close => some { s with closed := true }
  | .localClose =>
      if s.closer = .idle then
        some { s with writeClosed := true, finQueued := true, closed := true, closer := .aborted }
      else some { s with finQueued := true, closed := true }
  | .resend i =>
      (s.made[i]?).bind fun f =>
        if cfg.reliability ∧ s.room cfg then some (s.queue { f with origin := .again }) else none
  | .other f =>
      if f.mine = false ∧ s.room cfg then some { s with writes := s.writes ++ [f] } else none
  | .control f =>
      if f.mine = false then some { s with ctrlQueue := s.ctrlQueue ++ [f] } else none
  | .collect =>
      match s.writes with
      | [] => none
      | f :: writes => some { s with writes := writes, batch := s.batch ++ [f] }
  | .collectControl =>
      match s.ctrlQueue with
      | [] => none
      | f :: ctrlQueue => some { s with ctrlQueue := ctrlQueue, batch := s.batch ++ [f] }
  | .flush sess => some { s with batch := [], wire := s.wire ++ compact s.batch sess }

/-- The frames with data made. -/
def data (s : State) : List Frame :=
  s.made.filter Frame.isData

/-- The frames cover a stream from an offset on, one after the other. -/
def Contiguous : Nat → List Frame → Prop
  | _, [] => True
  | offset, f :: frames =>
      f.offset = offset ∧ 0 < f.length ∧ Contiguous (offset + f.length) frames

/-- The number of bytes in frames. -/
def bytes (frames : List Frame) : Nat :=
  (frames.map fun f => f.length).sum

end State

/-! ### Compaction keeps the frames of the channel -/

namespace Frame

variable {f : Frame}

theorem plain_of_not_mine (hf : f.mine = false) :
  f.Plain
  := by
  intro h
  rw [hf] at h
  contradiction

theorem filter_mine_cons (hf : f.mine = false) (frames : List Frame) :
  (f :: frames).filter mine = frames.filter mine
  := List.filter_cons_of_neg (Bool.not_eq_true _ ▸ hf)

/-- A frame that is merged is not of the channel. -/
theorem Plain.not_mine (hf : f.Plain) (hflag : f.flag = .ack ∨ f.flag = .upd) :
  f.mine = false
  := by
  by_contra h
  have := (hf (Bool.eq_true_of_not_eq_false h)).1
  rcases hflag with hflag | hflag <;> simp [hflag] at this

/-- Resolving leaves the frames of the channel as they are. -/
theorem Plain.resolve (hf : f.Plain) (s : Session) :
  (f.resolve s).1.toList.filter mine = [f].filter mine ∧ ∀ g ∈ (f.resolve s).1, g.Plain
  := by
  cases hmine : f.mine with
  | true =>
      obtain ⟨-, hack, hstream, hsession⟩ := hf hmine
      rw [Frame.resolve, Session.resolveFrame_plain hstream hack hsession]
      exact ⟨rfl, fun g hg => by cases hg; exact hf⟩
  | false =>
      have hnot : ∀ g ∈ (f.resolve s).1, g.mine = false := by
        rintro g hg
        obtain ⟨k, -, rfl⟩ := Option.map_eq_some_iff.mp hg
        exact hmine
      refine ⟨?_, fun g hg => plain_of_not_mine (hnot g hg)⟩
      rw [filter_mine_cons hmine, List.filter_nil, List.filter_eq_nil_iff]
      intro g hg
      rw [hnot g (by simpa using hg)]
      exact Bool.false_ne_true

end Frame

/-- The frames of the channel go through a batch as they are. -/
theorem filter_compact {frames : List Frame} (hframes : ∀ f ∈ frames, f.Plain) (s : Session) :
  (compact frames s).filter Frame.mine = frames.filter Frame.mine
  := by
  apply Merging.filter_collect (Q := Frame.Plain) (fun hf => hf.resolve _) ?_
    (List.forall_mem_nil _) hframes
  intro f g hf hg hmeets
  simp only [Frame.meets, WriteFrame.meets, decide_eq_true_eq] at hmeets
  have hmine := hg.not_mine (hmeets.1.imp And.right And.right)
  exact ⟨hf.not_mine (hmeets.1.imp And.left And.left), hmine, hmine, Frame.plain_of_not_mine hmine⟩

/-! ### The frames made and queued -/

/-- The frame a call of `Write` has made and not yet queued. -/
def Holder.pending : Holder → List Frame
  | .sending f _ => [f]
  | _ => []

/-- No frame with data is going to be made. -/
def Holder.Over : Holder → Prop
  | .free | .checking _ _ | .closer => True
  | _ => False

/-- `closeWrite` has not yet made the frame that ends the stream, or is not going to. -/
def Closer.Before : Closer → Prop
  | .idle | .closing | .trying | .waiting | .making | .aborted => True
  | _ => False

/-- `closeWrite` has the lock. -/
def Closer.Locked : Closer → Prop
  | .making | .queueing _ => True
  | _ => False

/-- `closeWrite` has set `writeClosed`. -/
def Closer.Closed : Closer → Prop
  | .idle | .closing => False
  | _ => True

/-- The frame `closeWrite` is going to queue. -/
def Closer.pending : Closer → List Frame
  | .queueing f | .late f => [f]
  | _ => []

theorem Holder.Over.pending {h : Holder} (hover : h.Over) :
  h.pending = []
  := by
  cases h with
  | sending _ _ => contradiction
  | _ => rfl

theorem Frame.not_isFin {f : Frame} (hf : f.isData = true) :
  f.isFin = false
  := by
  simp only [isData, decide_eq_true_eq] at hf
  simp [isFin, hf.1]

theorem Frame.not_isData {f : Frame} (hf : f.isFin = true) :
  f.isData = false
  := by
  rw [Bool.eq_false_iff]
  intro h
  rw [not_isFin h] at hf
  contradiction

namespace State

/-- The frames that end the stream. -/
def fins (s : State) : List Frame :=
  s.made.filter Frame.isFin

/-- What holds of the frames of a channel: those with data are made one after the other and
queued as they are made, and none is made when one that ends the stream has been made. -/
structure Ends (s : State) : Prop where
  contiguous : Contiguous 0 s.data
  offset : s.writeOffset = bytes s.data
  data : s.data = s.queued.filter Frame.isData ++ s.holder.pending
  origin : ∀ f ∈ s.made, f.origin = .first ∧ f.Streams
  before : s.closer.Before → s.fins = []
  one : s.fins.length ≤ 1
  exact : ∀ f ∈ s.fins, f.offset = s.writeOffset
  holder : s.fins ≠ [] → s.holder.Over
  pending : ∀ f ∈ s.closer.pending, f ∈ s.fins
  closed : s.closer.Closed → s.writeClosed = true
  locked : s.closer.Locked ↔ s.holder = .closer
  known : ∀ f ∈ s.queued, f.isFin → s.fins ≠ []
  complete : ∀ l₁ f l₂, s.queued = l₁ ++ f :: l₂ → f.isFin → l₁.filter Frame.isData = s.data

/-- What holds of the queues: the frames of the channel come in the order in which they were
queued. -/
structure Passes (s : State) : Prop where
  queued : (s.wire ++ s.batch ++ s.writes).filter Frame.mine = s.queued
  plain : ∀ f ∈ s.batch ++ s.writes, f.Plain
  control : ∀ f ∈ s.ctrlQueue, f.mine = false

variable {f : Frame} {s s' : State} {cfg : SessionConfig} {id : Nat}

theorem contiguous_append {offset : Nat} {frames : List Frame} (h : Contiguous offset frames)
    (hoffset : f.offset = offset + bytes frames) (hlength : 0 < f.length) :
  Contiguous offset (frames ++ [f])
  := by
  induction frames generalizing offset with
  | nil => exact ⟨hoffset, hlength, trivial⟩
  | cons g frames ih =>
      obtain ⟨hg, hpos, hrest⟩ := h
      refine ⟨hg, hpos, ih hrest ?_⟩
      rw [hoffset, bytes, bytes, List.map_cons, List.sum_cons, Nat.add_assoc]

theorem contiguous_of_prefix {offset : Nat} {l₁ l₂ : List Frame}
    (h : Contiguous offset (l₁ ++ l₂)) :
  Contiguous offset l₁
  := by
  induction l₁ generalizing offset with
  | nil => trivial
  | cons f l₁ ih => exact ⟨h.1, h.2.1, ih h.2.2⟩

theorem bytes_append (l₁ l₂ : List Frame) :
  bytes (l₁ ++ l₂) = bytes l₁ + bytes l₂
  := by
  rw [bytes, List.map_append, List.sum_append, bytes, bytes]

theorem ends_init :
  Ends {}
  where
  contiguous := trivial
  offset := rfl
  data := rfl
  origin := nofun
  before _ := rfl
  one := Nat.zero_le _
  exact := nofun
  holder h := absurd rfl h
  pending := nofun
  closed := nofun
  locked := ⟨nofun, nofun⟩
  known := nofun
  complete := by simp

/-- A step by which no frame is made or queued. -/
theorem Ends.turn (hs : s.Ends)
    (hlog : (s'.made, s'.queued, s'.writeOffset) = (s.made, s.queued, s.writeOffset))
    (hholder : s'.holder.pending = s.holder.pending)
    (hover : s.fins ≠ [] → s'.holder.Over) (hbefore : s'.closer.Before → s.fins = [])
    (hpending : ∀ f ∈ s'.closer.pending, f ∈ s.fins)
    (hclosed : s'.closer.Closed → s'.writeClosed = true)
    (hlocked : s'.closer.Locked ↔ s'.holder = .closer) :
  s'.Ends
  := by
  simp only [Prod.mk.injEq] at hlog
  obtain ⟨hmade, hqueued, hoffset⟩ := hlog
  have hdata : s'.data = s.data := by rw [State.data, hmade, State.data]
  have hfins : s'.fins = s.fins := by rw [State.fins, hmade, State.fins]
  constructor
  · exact hdata ▸ hs.contiguous
  · rw [hoffset, hdata]
    exact hs.offset
  · rw [hdata, hqueued, hholder]
    exact hs.data
  · rw [hmade]
    exact hs.origin
  · rw [hfins]
    exact hbefore
  · rw [hfins]
    exact hs.one
  · rw [hfins, hoffset]
    exact hs.exact
  · rw [hfins]
    exact hover
  · rw [hfins]
    exact hpending
  · exact hclosed
  · exact hlocked
  · rw [hqueued, hfins]
    exact hs.known
  · rw [hqueued, hdata]
    exact hs.complete

/-- A frame is made by a call of `Write`. -/
theorem Ends.queueDataLocked (hs : s.Ends) (id : Nat) {sz : ℕ+} {rest : Nat}
    (hholder : s.holder = .making sz rest) :
  Ends (s.queueDataLocked id sz rest)
  := by
  have hnone : s.fins = [] := by
    by_contra h
    have := hs.holder h
    rw [hholder] at this
    contradiction
  have hdata : (s.queueDataLocked id sz rest).data = s.data ++ [s.nextData id sz] :=
    List.filter_append ..
  have hfins : (s.queueDataLocked id sz rest).fins = s.fins ++ [] := List.filter_append ..
  rw [hnone, List.append_nil] at hfins
  constructor
  · rw [hdata]
    apply contiguous_append hs.contiguous
    · rw [Nat.zero_add]
      exact hs.offset
    · exact sz.pos
  · rw [hdata, bytes_append, ← hs.offset]
    rfl
  · have hclean := hs.data
    rw [hholder] at hclean
    rw [hdata, hclean.trans (List.append_nil _)]
    rfl
  · intro f hf
    obtain hf | hf := List.mem_append.mp hf
    · exact hs.origin f hf
    · rw [List.mem_singleton.mp hf]
      exact ⟨rfl, .inl rfl, rfl, rfl, rfl⟩
  · exact fun _ => hfins
  · rw [hfins]
    exact Nat.zero_le _
  · rw [hfins]
    exact nofun
  · exact fun h => absurd hfins h
  · intro f hf
    have := hs.pending f hf
    rw [hnone] at this
    contradiction
  · exact hs.closed
  · refine ⟨fun h => ?_, nofun⟩
    have := hs.locked.mp h
    rw [hholder] at this
    contradiction
  · exact fun f hf hfin => absurd hnone (hs.known f hf hfin)
  · intro l₁ f l₂ heq hfin
    have hmem : f ∈ s.queued := heq ▸ List.mem_append_cons_self
    exact absurd hnone (hs.known f hmem hfin)

/-- The frame that ends the stream is made. -/
theorem Ends.sendFinLocked (hs : s.Ends) (id : Nat) (hcloser : s.closer = .making) :
  Ends (s.sendFinLocked id)
  := by
  have hnone : s.fins = [] := hs.before (hcloser ▸ trivial)
  have hholder : s.holder = .closer := hs.locked.mp (hcloser ▸ trivial)
  have hdata : (s.sendFinLocked id).data = s.data ++ [] := List.filter_append ..
  have hfins : (s.sendFinLocked id).fins = s.fins ++ [s.lastFrame id] := List.filter_append ..
  rw [List.append_nil] at hdata
  rw [hnone, List.nil_append] at hfins
  constructor
  · rw [hdata]
    exact hs.contiguous
  · rw [hdata]
    exact hs.offset
  · rw [hdata]
    exact hs.data
  · intro f hf
    obtain hf | hf := List.mem_append.mp hf
    · exact hs.origin f hf
    · rw [List.mem_singleton.mp hf]
      exact ⟨rfl, .inr rfl, rfl, rfl, rfl⟩
  · exact nofun
  · rw [hfins]
    exact le_rfl
  · rw [hfins]
    intro f hf
    rw [List.mem_singleton.mp hf]
    rfl
  · intro _
    rw [show (s.sendFinLocked id).holder = s.holder from rfl, hholder]
    trivial
  · rw [hfins]
    exact fun f hf => hf
  · exact fun _ => hs.closed (hcloser ▸ trivial)
  · exact ⟨fun _ => hholder, fun _ => trivial⟩
  · rw [hfins]
    exact fun _ _ _ => List.cons_ne_nil _ _
  · rw [hdata]
    exact hs.complete

/-- A frame at the end of the queue: what is before a frame that ends the stream. -/
theorem complete_concat {data queued : List Frame}
    (h : ∀ l₁ g l₂, queued = l₁ ++ g :: l₂ → g.isFin → l₁.filter Frame.isData = data)
    (hf : f.isFin → queued.filter Frame.isData = data) :
  ∀ l₁ g l₂, queued ++ [f] = l₁ ++ g :: l₂ → g.isFin → l₁.filter Frame.isData = data
  := by
  intro l₁ g l₂ heq hg
  obtain rfl | ⟨l₂', x, rfl⟩ := List.eq_nil_or_concat l₂
  · obtain ⟨rfl, hfg⟩ := List.append_inj' heq rfl
    obtain rfl := List.singleton_inj.mp hfg
    exact hf hg
  · rw [List.concat_eq_append, ← List.cons_append, ← List.append_assoc] at heq
    exact h l₁ g l₂' (List.append_inj_left' heq rfl) hg

section

variable (hs : s.Ends)

include hs

/-- A frame with data is queued. -/
theorem Ends.queueData {rest : Nat} (hholder : s.holder = .sending f rest) :
  Ends { s.queue f with holder := .looping rest }
  := by
  have hdata := hs.data
  rw [hholder, Holder.pending] at hdata
  have hf : f.isData = true := by
    have hmem : f ∈ s.data := hdata ▸ List.mem_concat_self
    exact (List.mem_filter.mp hmem).2
  have hnone : s.fins = [] := by
    by_contra h
    have := hs.holder h
    rw [hholder] at this
    contradiction
  obtain ⟨hcontiguous, hoffset, -, horigin, hbefore, hone, hexact, -, hpending, hclosed, hlocked,
    hknown, hcomplete⟩ := hs
  refine ⟨hcontiguous, hoffset, ?_, horigin, hbefore, hone, hexact, fun h => absurd hnone h,
    hpending, hclosed, ?_, ?_, ?_⟩
  · refine hdata.trans (Eq.trans ?_ (List.append_nil _).symm)
    rw [queue, List.filter_append, List.filter_singleton, hf]
    rfl
  · rw [hholder] at hlocked
    exact ⟨fun h => absurd (hlocked.mp h) nofun, nofun⟩
  · intro g hg hfin
    obtain hg | hg := List.mem_append.mp hg
    · exact hknown g hg hfin
    · rw [List.mem_singleton.mp hg, Frame.not_isFin hf] at hfin
      contradiction
  · apply complete_concat hcomplete
    rw [Frame.not_isFin hf]
    exact nofun

/-- A frame other than those with data is queued, one that ends the stream when no call of
`Write` is at work. -/
theorem Ends.queueOther (hdata : f.isData = false) (hfin : f.isFin = true → s.fins ≠ []) :
  Ends (s.queue f)
  := by
  obtain ⟨hcontiguous, hoffset, hqueued, horigin, hbefore, hone, hexact, hover, hpending, hclosed,
    hlocked, hknown, hcomplete⟩ := hs
  refine ⟨hcontiguous, hoffset, ?_, horigin, hbefore, hone, hexact, hover, hpending, hclosed,
    hlocked, ?_, ?_⟩
  · rw [queue, List.filter_append, List.filter_singleton, hdata]
    refine hqueued.trans ?_
    rw [cond_false, List.append_nil]
  · intro g hg hgfin
    obtain hg | hg := List.mem_append.mp hg
    · exact hknown g hg hgfin
    · rw [List.mem_singleton.mp hg] at hgfin
      exact hfin hgfin
  · apply complete_concat hcomplete
    intro h
    have hnone := (hover (hfin h)).pending
    rw [hnone, List.append_nil] at hqueued
    exact hqueued.symm

/-- Once a frame that ends the stream has been made, the channel is closed for writing. -/
theorem Ends.writeClosed (hfins : s.fins ≠ []) :
  s.writeClosed = true
  := by
  apply hs.closed
  cases hcloser : s.closer with
  | idle | closing => exact absurd (hs.before (hcloser ▸ trivial)) hfins
  | _ => trivial

/-- The frame that ends the stream is queued. -/
theorem Ends.queueFin (hf : f ∈ s.closer.pending) :
  Ends (s.queue f) ∧ f ∈ s.fins
  := by
  have hfins := hs.pending f hf
  have hfin : f.isFin = true := (List.mem_filter.mp hfins).2
  exact ⟨hs.queueOther (Frame.not_isData hfin) fun _ => List.ne_nil_of_mem hfins, hfins⟩

end

/-! ### The frames in the queues -/

section

variable (hs : s.Passes)

include hs

/-- A step by which the queues stay as they are. -/
theorem Passes.turn (hsame : (s'.queued, s'.writes, s'.ctrlQueue, s'.batch, s'.wire)
      = (s.queued, s.writes, s.ctrlQueue, s.batch, s.wire)) :
  s'.Passes
  := by
  simp only [Prod.mk.injEq] at hsame
  obtain ⟨hqueued, hwrites, hctrl, hbatch, hwire⟩ := hsame
  constructor
  · rw [hqueued, hwrites, hbatch, hwire]
    exact hs.queued
  · rw [hwrites, hbatch]
    exact hs.plain
  · rw [hctrl]
    exact hs.control

/-- A frame of the channel is queued. -/
theorem Passes.queue (hmine : f.mine = true) (hstreams : f.Streams) :
  (s.queue f).Passes
  where
  queued := by
    rw [State.queue, ← List.append_assoc, List.filter_append, hs.queued, List.filter_singleton,
      hmine]
    rfl
  plain := by
    rw [State.queue, ← List.append_assoc]
    intro g hg
    obtain hg | hg := List.mem_append.mp hg
    · exact hs.plain g hg
    · rw [List.mem_singleton.mp hg]
      exact fun _ => hstreams
  control := hs.control

/-- A frame that is not of the channel is queued. -/
theorem Passes.other (hmine : f.mine = false) :
  Passes { s with writes := s.writes ++ [f] }
  where
  queued := by
    rw [← List.append_assoc, List.filter_append, hs.queued, Frame.filter_mine_cons hmine]
    apply List.append_nil
  plain := by
    rw [← List.append_assoc]
    intro g hg
    obtain hg | hg := List.mem_append.mp hg
    · exact hs.plain g hg
    · rw [List.mem_singleton.mp hg]
      exact Frame.plain_of_not_mine hmine
  control := hs.control

/-- The writer takes a frame from the control queue. -/
theorem Passes.collectControl {rest : List Frame} (hctrl : s.ctrlQueue = f :: rest) :
  Passes { s with ctrlQueue := rest, batch := s.batch ++ [f] }
  := by
  have hcontrol := hs.control
  rw [hctrl, List.forall_mem_cons] at hcontrol
  obtain ⟨hmine, hrest⟩ := hcontrol
  refine ⟨?_, ?_, hrest⟩
  · rw [← hs.queued]
    simp only [List.filter_append, Frame.filter_mine_cons hmine, List.filter_nil,
      List.append_nil]
  · intro g hg
    rw [List.append_assoc, List.mem_append, List.mem_append, List.mem_singleton] at hg
    obtain hg | rfl | hg := hg
    · exact hs.plain g (List.mem_append_left _ hg)
    · exact Frame.plain_of_not_mine hmine
    · exact hs.plain g (List.mem_append_right _ hg)

/-- The writer hands its batch to the transport. -/
theorem Passes.flush (sess : Session) :
  Passes { s with batch := [], wire := s.wire ++ compact s.batch sess }
  := by
  have hbatch : ∀ f ∈ s.batch, f.Plain := fun f hf => hs.plain f (List.mem_append_left _ hf)
  have hcompact := filter_compact hbatch sess
  refine ⟨?_, fun f hf => hs.plain f (List.mem_append_right _ hf), hs.control⟩
  rw [← hs.queued]
  simp only [List.filter_append, hcompact, List.append_nil]

end

/-! ### Every step -/

/-- What holds of the channel and of the queues. -/
structure Sound (s : State) : Prop extends Ends s, Passes s

section

variable (hs : s.Sound)

include hs

/-- A frame that has been made can be queued. -/
theorem Sound.pass (hf : f ∈ s.made) :
  (s.queue f).Passes
  := by
  obtain ⟨horigin, hstreams⟩ := hs.origin f hf
  exact hs.toPasses.queue (by simp [Frame.mine, horigin]) hstreams

/-- The holder of the lock is not `closeWrite`, before and after. -/
theorem Sound.hold {h₀ h : Holder} (hholder : s.holder = h₀) (hne : h₀ ≠ .closer)
    (hne' : h ≠ .closer) (hpending : h.pending = h₀.pending) (hover : s.fins ≠ [] → h.Over) :
  Sound { s with holder := h }
  := by
  subst hholder
  refine ⟨hs.toEnds.turn rfl hpending hover hs.before hs.pending hs.closed ?_,
    hs.toPasses.turn rfl⟩
  exact ⟨fun hlocked => absurd (hs.locked.mp hlocked) hne, fun heq => absurd heq hne'⟩

theorem Sound.write (hwrite : s.write cfg id = some s') :
  s'.Sound
  := by
  unfold State.write at hwrite
  cases hholder : s.holder with
    rw [hholder] at hwrite
  | checking | looping =>
      dsimp only at hwrite
      split at hwrite
      · cases hwrite
        exact hs.hold hholder nofun nofun rfl fun _ => trivial
      · rename_i hopen
        cases hwrite
        refine hs.hold hholder nofun nofun rfl fun hfins => ?_
        simp [hs.writeClosed hfins] at hopen
  | making sz rest =>
      cases hwrite
      exact ⟨hs.queueDataLocked id hholder, hs.toPasses.turn rfl⟩
  | sending f rest =>
      obtain ⟨-, rfl⟩ := Run.guard hwrite
      have hdata : f ∈ s.data := by
        rw [hs.data, hholder]
        exact List.mem_concat_self
      exact ⟨hs.queueData hholder, (hs.pass (List.mem_filter.mp hdata).1).turn rfl⟩
  | _ => contradiction

/-- `closeWrite` gets the lock. -/
theorem Sound.lockFin (hfree : s.holder = .free) (hbefore : s.closer.Before)
    (hclosed : s.closer.Closed) :
  Sound { s with holder := .closer, closer := .making }
  := by
  refine ⟨hs.toEnds.turn rfl ?_ (fun _ => trivial) (fun _ => hs.before hbefore) nofun
    (fun _ => hs.closed hclosed) ⟨fun _ => rfl, fun _ => trivial⟩, hs.toPasses.turn rfl⟩
  rw [hfree]
  rfl

theorem Sound.finish (hfinish : s.finish cfg id = some s') :
  s'.Sound
  := by
  have hlocked := hs.locked
  unfold State.finish at hfinish
  cases hcloser : s.closer with
    rw [hcloser] at hfinish hlocked
  | closing =>
      cases hfinish
      have hnone := hs.before (hcloser ▸ trivial)
      exact ⟨hs.toEnds.turn rfl rfl (fun h => absurd hnone h) (fun _ => hnone) nofun
        (fun _ => rfl) hlocked, hs.toPasses.turn rfl⟩
  | trying =>
      dsimp only at hfinish
      split at hfinish
      · rename_i hfree
        cases hfinish
        exact hs.lockFin hfree (hcloser ▸ trivial) (hcloser ▸ trivial)
      · cases hfinish
        have hnone := hs.before (hcloser ▸ trivial)
        exact ⟨hs.toEnds.turn rfl rfl (fun h => absurd hnone h) (fun _ => hnone) nofun
          (fun _ => hs.closed (hcloser ▸ trivial)) hlocked, hs.toPasses.turn rfl⟩
  | waiting =>
      obtain ⟨hfree, rfl⟩ := Run.guard hfinish
      exact hs.lockFin hfree (hcloser ▸ trivial) (hcloser ▸ trivial)
  | making =>
      cases hfinish
      exact ⟨hs.sendFinLocked id hcloser, hs.toPasses.turn rfl⟩
  | queueing f =>
      have hholder : s.holder = .closer := hlocked.mp trivial
      have hpending : Holder.free.pending = s.holder.pending := by rw [hholder]; rfl
      have hclosed := hs.closed (hcloser ▸ trivial)
      obtain ⟨hqueue, hf⟩ := hs.queueFin (f := f) (hcloser ▸ List.mem_singleton_self f)
      dsimp only at hfinish
      split at hfinish
      · cases hfinish
        exact ⟨hqueue.turn rfl hpending (fun _ => trivial) nofun nofun (fun _ => hclosed)
          ⟨nofun, nofun⟩, (hs.pass (List.mem_filter.mp hf).1).turn rfl⟩
      · cases hfinish
        refine ⟨hs.toEnds.turn rfl hpending (fun _ => trivial) nofun ?_ (fun _ => hclosed)
          ⟨nofun, nofun⟩, hs.toPasses.turn rfl⟩
        intro g hg
        rw [List.mem_singleton.mp hg]
        exact hf
  | late f =>
      obtain ⟨-, rfl⟩ := Run.guard hfinish
      obtain ⟨hqueue, hf⟩ := hs.queueFin (f := f) (hcloser ▸ List.mem_singleton_self f)
      exact ⟨hqueue.turn rfl rfl hs.holder nofun nofun (fun _ => hs.closed (hcloser ▸ trivial))
        hlocked, (hs.pass (List.mem_filter.mp hf).1).turn rfl⟩
  | _ => contradiction

/-- A step that has to do with the queues only. -/
theorem Sound.queues (hsame : (s'.made, s'.queued, s'.writeOffset, s'.writeClosed, s'.holder,
      s'.closer) = (s.made, s.queued, s.writeOffset, s.writeClosed, s.holder, s.closer))
    (hpasses : s'.Passes) :
  s'.Sound
  := by
  simp only [Prod.mk.injEq] at hsame
  obtain ⟨hmade, hqueued, hoffset, hclosed, hholder, hcloser⟩ := hsame
  refine ⟨hs.toEnds.turn (by rw [hmade, hqueued, hoffset]) (by rw [hholder]) ?_ ?_ ?_ ?_ ?_,
    hpasses⟩
  · rw [hholder]
    exact hs.holder
  · rw [hcloser]
    exact hs.before
  · rw [hcloser]
    exact hs.pending
  · rw [hcloser, hclosed]
    exact hs.closed
  · rw [hcloser, hholder]
    exact hs.locked

theorem Sound.step {e : Event} (hstep : s.step cfg id e = some s') :
  s'.Sound
  := by
  cases e with
  | lock n readFrom =>
      obtain ⟨hfree, rfl⟩ := Run.guard hstep
      exact hs.hold hfree nofun nofun rfl fun _ => trivial
  | write => exact hs.write hstep
  | take sz =>
      dsimp only [State.step] at hstep
      split at hstep
      · rename_i n hholder
        obtain ⟨-, rfl⟩ := Run.guard hstep
        refine hs.hold hholder nofun nofun rfl fun hfins => ?_
        exact absurd (hs.holder hfins) (by rw [hholder]; nofun)
      · contradiction
  | retry =>
      dsimp only [State.step] at hstep
      split at hstep
      · rename_i n hholder
        cases hstep
        refine hs.hold hholder nofun nofun rfl fun hfins => ?_
        exact absurd (hs.holder hfins) (by rw [hholder]; nofun)
      · contradiction
  | giveUp =>
      dsimp only [State.step] at hstep
      split at hstep
      · rename_i n hholder _
        cases hstep
        exact hs.hold hholder nofun nofun rfl fun _ => trivial
      · contradiction
  | closeWrite =>
      obtain ⟨hidle, rfl⟩ := Run.guard hstep
      have hnone := hs.before (hidle ▸ trivial)
      have hlocked := hs.locked
      rw [hidle] at hlocked
      exact ⟨hs.toEnds.turn rfl rfl hs.holder (fun _ => hnone) nofun nofun hlocked,
        hs.toPasses.turn rfl⟩
  | finish => exact hs.finish hstep
  | localClose =>
      dsimp only [State.step] at hstep
      split at hstep
      · rename_i hidle
        cases hstep
        have hnone := hs.before (hidle ▸ trivial)
        have hlocked := hs.locked
        rw [hidle] at hlocked
        exact ⟨hs.toEnds.turn rfl rfl hs.holder (fun _ => hnone) nofun (fun _ => rfl) hlocked,
          hs.toPasses.turn rfl⟩
      · cases hstep
        exact hs.queues rfl (hs.toPasses.turn rfl)
  | close =>
      cases hstep
      exact hs.queues rfl (hs.toPasses.turn rfl)
  | resend i =>
      obtain ⟨f, hf, hite⟩ := Option.bind_eq_some_iff.mp hstep
      obtain ⟨-, rfl⟩ := Run.guard hite
      have hmade := List.mem_of_getElem? hf
      refine ⟨hs.queueOther (by simp [Frame.isData]) fun hfin => ?_,
        hs.toPasses.queue rfl (hs.origin f hmade).2⟩
      have hflag : f.flag = .fin := by
        simp only [Frame.isFin, decide_eq_true_eq] at hfin
        exact hfin.1
      have hfin' : f.isFin = true := by
        simp [Frame.isFin, Frame.mine, hflag, (hs.origin f hmade).1]
      exact List.ne_nil_of_mem (List.mem_filter.mpr ⟨hmade, hfin'⟩)
  | other f =>
      obtain ⟨⟨hmine, -⟩, heq⟩ := Option.ite_none_right_eq_some.mp hstep
      cases heq
      exact hs.queues rfl (hs.toPasses.other hmine)
  | control f =>
      obtain ⟨hmine, rfl⟩ := Run.guard hstep
      refine hs.queues rfl ⟨hs.queued, hs.plain, ?_⟩
      intro g hg
      obtain hg | hg := List.mem_append.mp hg
      · exact hs.control g hg
      · rw [List.mem_singleton.mp hg]
        exact hmine
  | collect =>
      dsimp only [State.step] at hstep
      split at hstep
      · contradiction
      · rename_i f writes hwrites
        cases hstep
        have hmove : s.batch ++ [f] ++ writes = s.batch ++ s.writes := by
          rw [hwrites, List.append_assoc, List.singleton_append]
        refine hs.queues rfl ⟨?_, ?_, hs.control⟩
        · rw [List.append_assoc, hmove, ← List.append_assoc]
          exact hs.queued
        · rw [hmove]
          exact hs.plain
  | collectControl =>
      dsimp only [State.step] at hstep
      split at hstep
      · contradiction
      · rename_i f rest hctrl
        cases hstep
        exact hs.queues rfl (hs.toPasses.collectControl hctrl)
  | flush sess =>
      cases hstep
      exact hs.queues rfl (hs.toPasses.flush sess)

end

/-! ### The end of the stream -/

/-- The frames that end the stream come after all frames with data, of which there are none
left. -/
def FinLast (data frames : List Frame) : Prop :=
  ∀ l₁ f l₂, frames = l₁ ++ f :: l₂ → f.isFin →
    l₁.filter Frame.isData = data ∧ l₂.filter Frame.isData = []

theorem filter_isData_mine (frames : List Frame) :
  (frames.filter Frame.mine).filter Frame.isData = frames.filter Frame.isData
  := by
  rw [List.filter_filter]
  apply List.filter_congr
  intro f _
  cases hf : f.isData with
  | false => rfl
  | true =>
      simp only [Frame.isData, decide_eq_true_eq] at hf
      simp [Frame.mine, hf.2]

theorem Ends.finLast (hs : s.Ends) :
  FinLast s.data s.queued
  := by
  intro l₁ f l₂ heq hfin
  have hbefore := hs.complete l₁ f l₂ heq hfin
  refine ⟨hbefore, ?_⟩
  have hdata := hs.data
  rw [heq, List.filter_append, List.filter_cons, Frame.not_isData hfin, hbefore,
    List.append_assoc, if_neg Bool.false_ne_true, List.self_eq_append_right] at hdata
  exact (List.append_eq_nil_iff.mp hdata).1

/-- What holds of the queue holds of the wire. -/
theorem Passes.finLast (hs : s.Passes) {data : List Frame} (h : FinLast data s.queued) :
  FinLast data s.wire
  := by
  intro l₁ f l₂ heq hfin
  have hmine : f.mine = true := by
    simp only [Frame.isFin, decide_eq_true_eq] at hfin
    exact hfin.2
  have hqueued := hs.queued
  rw [heq, List.append_assoc, List.append_assoc, List.cons_append, List.filter_append,
    List.filter_cons_of_pos hmine, List.filter_append] at hqueued
  obtain ⟨hbefore, hafter⟩ := h _ f _ hqueued.symm hfin
  rw [filter_isData_mine] at hbefore
  rw [List.filter_append, List.append_eq_nil_iff, filter_isData_mine] at hafter
  exact ⟨hbefore, hafter.1⟩

theorem Passes.contiguous (hs : s.Passes) (hends : s.Ends) :
  Contiguous 0 (s.wire.filter Frame.isData)
  := by
  have hcontiguous := hends.contiguous
  rw [hends.data, ← hs.queued, List.append_assoc, List.filter_append, List.filter_append,
    filter_isData_mine, List.append_assoc] at hcontiguous
  exact contiguous_of_prefix hcontiguous

/-- In every run of a channel, at most one frame that ends the stream is made, and its offset is
the number of bytes of all frames with data.  No frame with data is queued for the first time
after a frame that ends the stream, and on the wire the frames with data follow one another, all
of them before any frame that ends the stream. -/
theorem fin_last_and_exact (cfg : SessionConfig) (id : Nat) (s : State)
    (hrun : Run (State.step cfg id) (fun _ _ => True) {} s) :
  s.fins.length ≤ 1 ∧ (∀ f ∈ s.fins, f.offset = bytes s.data) ∧ FinLast s.data s.queued ∧
    Contiguous 0 (s.wire.filter Frame.isData) ∧ FinLast s.data s.wire
  := by
  obtain ⟨hends, hpasses⟩ : s.Sound := by
    refine Run.invariant (I := Sound) ?_ hrun ⟨ends_init, rfl, nofun, nofun⟩
    rintro s e s' hs - hstep
    exact hs.step hstep
  refine ⟨hends.one, ?_, hends.finLast, hpasses.contiguous hends,
    hpasses.finLast hends.finLast⟩
  intro f hf
  rw [hends.exact f hf, hends.offset]

/-- A call of `Write` is caught by `CloseWrite` between its frames; it queues the one it has made
and the frame that ends the stream waits for the lock. -/
theorem fin_last_and_exact_interrupted :
  ∃ s, Run (State.step (smallConfig true) 11) (fun _ _ => True) {} s ∧
    s.wire.map (fun f => (f.flag, f.offset, f.length)) = [(.data, 0, 3), (.ack, 7, 0), (.fin, 3, 0)]
    ∧ FinLast s.data s.wire
  := by
  obtain ⟨s, hrun, hwire⟩ :=
    Run.exists_of_exec (State.step (smallConfig true) 11) (fun _ _ => True) {}
      [.lock 5 false, .write, .write, .take ⟨3, by decide⟩, .closeWrite, .finish, .write, .finish,
        .write, .write, .finish, .finish, .finish,
        .control { flag := .ack, chID := 11, ackCh := some 0 }, .collect, .collectControl, .collect,
        .flush ((newSession (smallConfig true) 0).update 0 fun c => { c with ackOffset := 7 })]
      (fun s => s.wire.map (fun f => (f.flag, f.offset, f.length))
        = [(.data, 0, 3), (.ack, 7, 0), (.fin, 3, 0)]) (by decide +kernel)
  exact ⟨s, hrun, hwire, (fin_last_and_exact _ _ s hrun).2.2.2.2⟩

end State

end Finishing

end Muxocket
