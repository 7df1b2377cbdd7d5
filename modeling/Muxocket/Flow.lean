import Mathlib.Data.Int.ModEq
import Muxocket.Config

/-!
# Credit

The credit a sender may spend and the credit a receiver has to return.  A receiver counts
what has been read in `consumed`, moves it to `unflushed` when a quarter of the window has
been consumed, and lets a queued window update carry all of `unflushed` when it is written.
`Flow` is the state of one window, of a channel or of a session.  Its counters are 32-bit
integers, so every sum is taken by `int32`.
-/

namespace Muxocket

/-- The 32-bit integer a sum or difference of 32-bit integers wraps to. -/
def int32 (x : Int) : Int :=
  if 2 ^ 31 ≤ x % 2 ^ 32 then x % 2 ^ 32 - 2 ^ 32 else x % 2 ^ 32

theorem int32_of_mem {x : Int} (h₁ : -(2 ^ 31) ≤ x) (h₂ : x < 2 ^ 31) :
  int32 x = x
  := by
  unfold int32
  split <;> omega

theorem int32_lt (x : Int) :
  int32 x < 2 ^ 31
  := by
  unfold int32
  split <;> omega

/-- The state of a window: `sendCredits` is what this side may still send, the other
counters and the flag are about what it has to return. -/
structure Flow where
  sendCredits : Int
  consumed : Int
  threshold : Int
  updPending : Bool
  unflushed : Int
deriving DecidableEq, Repr

/-- A window of the given size, none of it used. -/
def Flow.new (initialWindow : Int) : Flow where
  sendCredits := initialWindow
  consumed := 0
  threshold := max (initialWindow / defaultWindowUpdateRatio) 1
  updPending := false
  unflushed := 0

/-- The window of a channel. -/
def newStreamFlow (initialWindow : Int) : Flow :=
  Flow.new (if initialWindow ≤ 0 then int32 defaultInitialStreamWindow else initialWindow)

/-- The window of a session.  A session without a positive window has no flow control. -/
structure SessionFlow extends Flow where
  enabled : Bool
deriving DecidableEq, Repr

/-- The window of a session. -/
def newSessionFlow (initialWindow : Int) : SessionFlow :=
  if initialWindow ≤ 0 then
    { sendCredits := 0, consumed := 0, threshold := 0, updPending := false, unflushed := 0,
      enabled := false }
  else
    { toFlow := Flow.new initialWindow, enabled := true }

namespace Flow

/-- Take `n` bytes of credit, if there are that many. -/
def tryDeduct (n : Int) (sf : Flow) : Option Flow :=
  if sf.sendCredits < n then none
  else some { sf with sendCredits := int32 (sf.sendCredits - n) }

/-- Give back credit that was taken and not used. -/
def refund (n : Int) (sf : Flow) : Flow :=
  if n ≤ 0 then sf else { sf with sendCredits := int32 (sf.sendCredits + n) }

/-- Add the credit of a window update. -/
def addCredits (delta : Int) (sf : Flow) : Flow :=
  if delta ≤ 0 then sf else { sf with sendCredits := int32 (sf.sendCredits + delta) }

/-- Whether `flushUpdate` has to queue a window update, none being queued already. -/
def needsFrame (sf : Flow) : Bool :=
  decide (0 < sf.consumed) && !sf.updPending

/-- Move what has been consumed to what the next window update carries. -/
def flushUpdate (sf : Flow) : Flow :=
  if sf.consumed ≤ 0 then { sf with consumed := 0 }
  else { sf with consumed := 0, unflushed := int32 (sf.unflushed + sf.consumed),
                 updPending := true }

/-- Count `n` bytes as consumed. -/
def consume (n : Int) (sf : Flow) : Flow :=
  { sf with consumed := int32 (sf.consumed + n) }

/-- What the writer leaves of a window whose update it resolves. -/
def resolved (sf : Flow) : Flow :=
  { sf with unflushed := 0, updPending := false }

end Flow

/-- The credit a writer gets who wants `desired` bytes: as many as both windows allow.
There is none while one of the windows is used up. -/
def grantedCredits (sf : Flow) (ss : SessionFlow) (desired : Int) : Option Int :=
  let sAvail := if ss.enabled then ss.sendCredits else 2 ^ 30
  let avail := min sf.sendCredits sAvail
  if avail ≤ 0 then none else some (min desired avail)

end Muxocket
