import Muxocket.WriteScheduler

/-!
# Two sessions and the network between them

`World` is a session at each side and the frames in flight from each side to the other.
An action is a complete operation of one of the sessions, or a move of the network: it
delivers a frame in flight to the reader of a stream or of a datagram transport, drops one
or duplicates one.  An ordered lossless transport delivers the oldest frame only, and
neither drops nor duplicates.
-/

namespace Muxocket

/-- The two sides. -/
inductive Side where
  | left
  | right
deriving DecidableEq, Repr

instance (p : Side → Prop) [DecidablePred p] : Decidable (∀ d, p d) :=
  decidable_of_iff (p .left ∧ p .right)
    ⟨fun h d => by
      cases d
      · exact h.1
      · exact h.2,
    fun h => ⟨h .left, h .right⟩⟩

/-- The other side. -/
def Side.other : Side → Side
  | .left => .right
  | .right => .left

@[simp]
theorem Side.other_other (d : Side) :
  d.other.other = d
  := by
  cases d <;> rfl

@[simp]
theorem Side.other_ne (d : Side) :
  d.other ≠ d
  := by
  cases d <;> simp [Side.other]

@[simp]
theorem Side.ne_other (d : Side) :
  d ≠ d.other
  := by
  cases d <;> simp [Side.other]

/-- Two sessions, with the frames in flight from each of them. -/
structure World where
  sess : Side → Session
  link : Side → List PacketFrame

/-- The complete operations of a session, those its application starts and those its own
goroutines and timers do. -/
inductive Op where
  | openChannel (label : Bytes)
  | write (h : Nat) (b : Bytes)
  | read (h n : Nat)
  | writeTo (h n : Nat)
  | closeWrite (busy : Bool) (h : Nat)
  | close (busy : Bool) (h : Nat)
  | lateFin (h : Nat)
  | localClose (h : Nat)
  | ackTimer (h : Nat)
  | arqTick
  | retransmitAllUnacked (h : Nat)
  | prune
  | ping
  | lateWrite (i : Nat)
  | lateCtrl (i : Nat)
  | tick (d : Nat)

namespace Session

/-- A frame a goroutine of its own held joins the data queue. -/
def lateWrite (i : Nat) (s : Session) : Option Session :=
  (s.lateWrites[i]?).map fun f =>
    { s with writes := s.writes ++ [f], lateWrites := s.lateWrites.eraseIdx i }

/-- A frame a goroutine of its own held joins the control queue. -/
def joinCtrl (i : Nat) (s : Session) : Option Session :=
  (s.lateCtrl[i]?).map fun f =>
    { s with ctrlQueue := s.ctrlQueue ++ [f], lateCtrl := s.lateCtrl.eraseIdx i }

/-- An operation of a session, if it can be done now.  A channel is given up when its close
timer fires or when a frame of it has been sent too often. -/
def perform (cfg : SessionConfig) (s : Session) : Op → Option Session
  | .openChannel label => s.openChannel cfg label
  | .write h b => if h < s.next then s.writeChunk cfg h b else none
  | .read h n => if h < s.next then some (s.Read cfg h n).2 else none
  | .writeTo h n => if h < s.next then some (s.writeToChunk cfg h n) else none
  | .closeWrite busy h => if h < s.next then some (s.CloseWrite cfg busy h) else none
  | .close busy h => if h < s.next then some (s.Close cfg busy h) else none
  | .lateFin h => if h < s.next then some (s.lateFin cfg h) else none
  | .localClose h =>
      if h < s.next ∧ ((s.heap h).closeTimer ∨ (s.heap h).giveUp) then some (s.localClose cfg h)
      else none
  | .ackTimer h => if h < s.next then some (s.ackTimerFired cfg h) else none
  | .arqTick => some (s.arqTick cfg)
  | .retransmitAllUnacked h => if h < s.next then some (s.retransmitAllUnacked h) else none
  | .prune => some (s.pruneLocked cfg)
  | .ping => some (s.offerControlFrame cfg { flag := .ping })
  | .lateWrite i => s.lateWrite i
  | .lateCtrl i => s.joinCtrl i
  | .tick d => some { s with now := s.now + d }

end Session

/-- What can happen in a world. -/
inductive Action where
  | op (d : Side) (o : Op)
  | flush (d : Side) (picks : List Bool)
  | recv (d : Side) (i : Nat) (busy : Bool)
  | recvDatagram (d : Side) (i : Nat) (busy : Bool)
  | drop (d : Side) (i : Nat)
  | dup (d : Side) (i : Nat)

namespace World

/-- Change the session of a side. -/
@[simp]
def setSess (d : Side) (s : Session) (w : World) : World :=
  { w with sess := Function.update w.sess d s }

/-- Change the frames in flight from a side. -/
@[simp]
def setLink (d : Side) (fs : List PacketFrame) (w : World) : World :=
  { w with link := Function.update w.link d fs }

/-- What becomes of a world by an action, if it can happen. -/
def step (cfg : Side → SessionConfig) (w : World) : Action → Option World
  | .op d o => ((w.sess d).perform (cfg d) o).map fun s => w.setSess d s
  | .flush d picks =>
      ((w.sess d).writeBatch picks).map fun r =>
        (w.setSess d r.2).setLink d (w.link d ++ r.1)
  | .recv d i busy =>
      ((w.link d.other)[i]?).map fun f =>
        (w.setSess d ((w.sess d).receiveStream (cfg d) busy f).2).setLink d.other
          ((w.link d.other).eraseIdx i)
  | .recvDatagram d i busy =>
      ((w.link d.other)[i]?).map fun f =>
        (w.setSess d ((w.sess d).receiveDatagram (cfg d) busy f).2).setLink d.other
          ((w.link d.other).eraseIdx i)
  | .drop d i =>
      ((w.link d)[i]?).map fun _ => w.setLink d ((w.link d).eraseIdx i)
  | .dup d i =>
      ((w.link d)[i]?).map fun f => w.setLink d (w.link d ++ [f])

/-- Two new sessions with nothing in flight. -/
@[simp]
def init (cfg : Side → SessionConfig) (now : Side → Int) : World where
  sess d := newSession (cfg d) (now d)
  link _ := []

end World

/-- Settings with small windows, for runs of a few steps. -/
def smallConfig (reliability : Bool) : SessionConfig :=
  Config.newSession { defaultConfig with
    initialStreamWindow := 8
    initialSessionWindow := 16
    reliability := reliability }

end Muxocket
