import Mathlib.Data.List.Basic

/-!
# Frames

The frames two sessions exchange.  A frame consists of a header, whose fields are the
length, the flag, the channel identifier and the stream offset, and of a payload, which
only a frame of flag `data` has.  `WriteFrame` is a frame queued for the writer, which may
still refer to the channel or to the flow whose state fixes its offset or its length;
`PacketFrame` is a frame as the reader of the other side finds it.
-/

namespace Muxocket

/-- A byte string. -/
abbrev Bytes : Type := List UInt8

/-- The largest buffer the allocator hands out. -/
def maxAllocSize : Nat := 256 * 1024

/-- The largest number of frames in a batch of the writer. -/
def maxBatchFramesInWriter : Nat := 24

/-- The largest number of recently closed identifiers a session remembers. -/
def maxClosedIDs : Nat := 64

/-- The flags of the protocol. -/
inductive Flag where
  | data
  | noop
  | fin
  | ping
  | pong
  | upd
  | ack
  | goaway
  | rst
deriving DecidableEq, Repr

/-- The byte that stands for a flag in a header. -/
def Flag.toByte : Flag → UInt8
  | .data => 1
  | .noop => 2
  | .fin => 3
  | .ping => 4
  | .pong => 5
  | .upd => 6
  | .ack => 7
  | .goaway => 8
  | .rst => 9

/-- The flag a header byte stands for, if it is a known one. -/
def Flag.ofByte (b : UInt8) : Option Flag :=
  if b = 1 then some .data
  else if b = 2 then some .noop
  else if b = 3 then some .fin
  else if b = 4 then some .ping
  else if b = 5 then some .pong
  else if b = 6 then some .upd
  else if b = 7 then some .ack
  else if b = 8 then some .goaway
  else if b = 9 then some .rst
  else none

@[simp]
theorem Flag.ofByte_toByte (flag : Flag) :
  Flag.ofByte flag.toByte = some flag
  := by
  cases flag <;> rfl

/-- A frame queued for the writer.  `ackCh` and `streamFlow` are references to channels;
an acknowledgement takes its offset from `ackCh`, and a window update its length from the
flow it refers to, when the batch it is in is written. -/
structure WriteFrame where
  flag : Flag
  chID : Nat := 0
  pBuf : Option Bytes := none
  length : Nat := 0
  offset : Nat := 0
  ackCh : Option Nat := none
  streamFlow : Option Nat := none
  sessionFlow : Bool := false
deriving DecidableEq, Repr

/-- The payload the writer appends to the header of a frame. -/
def WriteFrame.payload (f : WriteFrame) : Bytes :=
  match f.pBuf with
  | some p => if 0 < f.length then p.take f.length else []
  | none => []

/-- A frame as the reader finds it: the fields of its header and its payload. -/
structure PacketFrame where
  dataLength : Nat
  flag : Flag
  chID : Nat
  offset : Nat
  data : Bytes
deriving DecidableEq, Repr

/-- The frame the reader of the other side should find for a written frame. -/
def WriteFrame.packet (f : WriteFrame) : PacketFrame where
  dataLength := f.length
  flag := f.flag
  chID := f.chID
  offset := f.offset
  data := f.payload

/-- The frame of a chunk of a stream. -/
def dataFrame (id offset : Nat) (p : Bytes) : WriteFrame :=
  { flag := .data, chID := id, pBuf := some p, length := p.length, offset := offset }

/-- The frame that ends a stream of length `offset`. -/
def finFrame (id offset : Nat) : WriteFrame :=
  { flag := .fin, chID := id, offset := offset }

@[simp]
theorem payload_dataFrame (id offset : Nat) (p : Bytes) :
  (dataFrame id offset p).payload = p
  := by
  cases p with
  | nil => rfl
  | cons b p => simp [dataFrame, WriteFrame.payload]

@[simp]
theorem payload_finFrame (id offset : Nat) :
  (finFrame id offset).payload = []
  := rfl

end Muxocket
