import Mathlib.Data.UInt
import Mathlib.Order.MinMax
import Muxocket.Frame

/-!
# Configuration

`Config` is what an application configures, `SessionConfig` the private copy a session
keeps, with zero values replaced by defaults and the frame size clamped to what the
allocator supports.  Durations are in nanoseconds.
-/

namespace Muxocket

/-- The window of a stream that does not configure one. -/
def defaultInitialStreamWindow : Nat := 1 * 1024 * 1024

/-- The window of a session that does not configure one. -/
def defaultInitialSessionWindow : Nat := 4 * 1024 * 1024

/-- A window update is due when this fraction of a window has been consumed. -/
def defaultWindowUpdateRatio : Int := 4

/-- The frame size of a session that does not configure one. -/
def defaultMaxFrameDataLen : Nat := 32 * 1024

/-- A millisecond, in nanoseconds. -/
def millisecond : Int := 1000000

/-- The settings of a session. -/
structure Config where
  maxFrameDataSize : Nat
  maxWriteBufferSize : Nat
  initialStreamWindow : Nat
  initialSessionWindow : Nat
  maxUnknownChannelErrors : Nat
  reliability : Bool
  retransmitTimeout : Int
  maxRetransmit : Int
  ackInterval : Int
  streamingAckRatio : Nat
  immediateACKForLargePackets : Bool
  allowConnectionResumption : Bool
  maxPendingChannels : Nat
  maxPendingEarlyFramesPerSession : Nat
  maxPendingEarlyBytesPerSession : Nat
  pendingEarlyFramesTTL : Int
  closedChannelFrameLingerTTL : Int
  channelCloseTimeout : Int
deriving DecidableEq, Repr

/-- The settings of an application that leaves everything to the package. -/
def defaultConfig : Config where
  maxFrameDataSize := defaultMaxFrameDataLen
  maxWriteBufferSize := 32
  initialStreamWindow := defaultInitialStreamWindow
  initialSessionWindow := defaultInitialSessionWindow
  maxUnknownChannelErrors := 128
  reliability := false
  retransmitTimeout := 150 * millisecond
  maxRetransmit := 16
  ackInterval := 10 * millisecond
  streamingAckRatio := 2
  immediateACKForLargePackets := false
  allowConnectionResumption := false
  maxPendingChannels := 4
  maxPendingEarlyFramesPerSession := 8
  maxPendingEarlyBytesPerSession := 0
  pendingEarlyFramesTTL := 3000 * millisecond
  closedChannelFrameLingerTTL := 5000 * millisecond
  channelCloseTimeout := 4000 * millisecond

/-- A value, or a default for it when it is not set. -/
def orDefault {α : Type} [DecidableEq α] [Zero α] (x default : α) : α :=
  if x = 0 then default else x

/-- The settings a session works with. -/
structure SessionConfig extends Config where
  frame_pos : 0 < maxFrameDataSize
  frame_le : maxFrameDataSize ≤ maxAllocSize
  stream_pos : 0 < initialStreamWindow
  session_pos : 0 < initialSessionWindow

/-- The frame size of a session: the configured one or a default, clamped to what the
allocator supports. -/
def Config.frameSize (c : Config) : Nat :=
  min (orDefault c.maxFrameDataSize defaultMaxFrameDataLen) maxAllocSize

/-- The number of early frames a session keeps for a channel. -/
def Config.earlyFrames (c : Config) : Nat :=
  orDefault c.maxPendingEarlyFramesPerSession 8

/-- The number of early bytes a session keeps: the configured one, at most what the early
frames of one channel can hold. -/
def Config.earlyBytes (c : Config) : Nat :=
  let most := c.earlyFrames * c.frameSize % 2 ^ 64
  min (orDefault c.maxPendingEarlyBytesPerSession most) most

theorem orDefault_pos {x default : Nat} (h : 0 < default) :
  0 < orDefault x default
  := by
  unfold orDefault
  split <;> omega

/-- The private copy of its settings a session makes. -/
def Config.newSession (c : Config) : SessionConfig where
  maxFrameDataSize := c.frameSize
  maxWriteBufferSize := c.maxWriteBufferSize
  initialStreamWindow := orDefault c.initialStreamWindow defaultInitialStreamWindow
  initialSessionWindow := orDefault c.initialSessionWindow defaultInitialSessionWindow
  maxUnknownChannelErrors := orDefault c.maxUnknownChannelErrors 128
  reliability := c.reliability
  retransmitTimeout := orDefault c.retransmitTimeout (150 * millisecond)
  maxRetransmit := orDefault c.maxRetransmit 16
  ackInterval := c.ackInterval
  streamingAckRatio := orDefault c.streamingAckRatio 2
  immediateACKForLargePackets := c.immediateACKForLargePackets
  allowConnectionResumption := c.allowConnectionResumption
  maxPendingChannels := orDefault c.maxPendingChannels 4
  maxPendingEarlyFramesPerSession := c.earlyFrames
  maxPendingEarlyBytesPerSession := c.earlyBytes
  pendingEarlyFramesTTL := orDefault c.pendingEarlyFramesTTL (3000 * millisecond)
  closedChannelFrameLingerTTL := orDefault c.closedChannelFrameLingerTTL (5000 * millisecond)
  channelCloseTimeout := orDefault c.channelCloseTimeout (4000 * millisecond)
  frame_pos := by
    rw [Config.frameSize, lt_min_iff]
    constructor
    · apply orDefault_pos
      decide
    · decide
  frame_le := min_le_right _ _
  stream_pos := orDefault_pos (by decide)
  session_pos := orDefault_pos (by decide)

/-- The depth of the data queue of the writer. -/
def Config.queueDepth (c : Config) : Nat :=
  if c.maxWriteBufferSize = 0 then 128 else c.maxWriteBufferSize

/-- The depth of the control queue of the writer. -/
def Config.ctrlDepth (c : Config) : Nat :=
  max c.queueDepth 128

/-- How far ahead of the next byte it waits for a channel keeps frames. -/
def Config.maxReorderBytes (c : Config) : Nat :=
  c.initialStreamWindow * 2

end Muxocket
