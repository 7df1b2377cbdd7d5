import Muxocket.Lib.Run
import Muxocket.Channel

/-!
# Early frames and the opening of their channel, step by step

The reader of a stream transport looks for the channel of a frame without taking the lock of the
table, and once more under the lock before it keeps the frame for later.  `OpenChannel` takes the
frames that were kept, holds `feedMu` of the new channel while it delivers them, and puts the
channel in the table before that.

Here the two run side by side for one identifier, one step at a time, with what else may happen to
the session in between.  `arrived`, `applied`, `early`, `since` and `lost` are history.  What is
done about a frame that is lost, with its credit and with the peer, is left to the other steps.
-/

namespace Muxocket.EarlyFrames

/-- The goroutines that take locks. -/
inductive Party where
  | reader
  | opener
deriving DecidableEq, Repr

/-- What the reader finds out about a frame under the lock of the table: it has a channel, it is
kept, or it is not. -/
inductive Found where
  | channel (h : Nat)
  | kept
  | lost
deriving DecidableEq, Repr

/-- Where the reader is. -/
inductive Reader where
  | idle
  /-- With a frame, about to look for its channel. -/
  | read (f : PendingFrame)
  /-- There was no channel, and `channelsMu` is to be locked. -/
  | missing (f : PendingFrame)
  /-- Holding `channelsMu`. -/
  | locked (f : PendingFrame)
  /-- About to release `channelsMu`. -/
  | unlocking (f : PendingFrame) (r : Found)
  /-- About to lock `feedMu` of the channel. -/
  | found (f : PendingFrame) (h : Nat)
  /-- Holding `feedMu`. -/
  | feeding (f : PendingFrame) (h : Nat)
  /-- About to release `feedMu`. -/
  | fed
deriving DecidableEq, Repr

/-- Where `OpenChannel` is. -/
inductive Opener where
  | idle
  /-- About to lock `channelsMu`. -/
  | locking
  | locked
  /-- There is a channel already. -/
  | failing
  | failed
  /-- With the frames that were kept, if there are any. -/
  | taken (frames : Option (List PendingFrame))
  /-- Holding `feedMu` if there are frames, and about to put the channel in the table. -/
  | held (frames : Option (List PendingFrame))
  /-- About to release `channelsMu`. -/
  | published (frames : Option (List PendingFrame)) (h : Nat)
  /-- In `deliverPending`. -/
  | delivering (frames : List PendingFrame) (h : Nat)
  /-- About to lock `channelsMu` again. -/
  | relocking (h : Nat)
  | relocked (h : Nat)
  | done (h : Nat)
deriving DecidableEq, Repr

/-- The session, the two locks, the two goroutines, and what has happened. -/
structure State where
  session : Session
  channelsMu : Option Party
  feedMu : Option Party
  reader : Reader
  opener : Opener
  /-- The frames that the reader has read. -/
  arrived : List PendingFrame
  /-- The frames handed to a channel, with the channel. -/
  applied : List (Nat × PendingFrame)
  /-- The frames that were kept when the channel was opened. -/
  early : List PendingFrame
  /-- How many frames had arrived when the channel was put in the table. -/
  since : Nat
  /-- The frames that the stash refused or let expire, or that came too late. -/
  lost : List PendingFrame

/-- The frames kept for an identifier. -/
def stash (id : Nat) (s : Session) : List PendingFrame :=
  match s.pending.lookup id with
  | some q => q.frames
  | none => []

/-- The frames kept for an identifier, if they have expired. -/
def expired (id : Nat) (s : Session) : List PendingFrame :=
  match s.pending.lookup id with
  | some q => if q.expires < s.now then q.frames else []
  | none => []

/-- The session in which frames may have arrived for an identifier that is not open. -/
def init (id : Nat) (session : Session) : State where
  session := session
  channelsMu := none
  feedMu := none
  reader := .idle
  opener := .idle
  arrived := stash id session
  applied := []
  early := []
  since := 0
  lost := []

/-- What the reader does under the lock of the table, with the frames that are lost by it. -/
def check (cfg : SessionConfig) (id : Nat) (f : PendingFrame) (s : Session) :
    Found × Session × List PendingFrame :=
  match s.channels id with
  | some h => (.channel h, s, [])
  | none =>
      if s.closed ∨ s.recentlyClosed id then (.lost, s, [f])
      else
        let r := (s.recentlyClosedLocked id).stashLocked cfg id f
        if r.1 then (.kept, r.2, expired id s) else (.lost, r.2, expired id s ++ [f])

namespace State

variable (cfg : SessionConfig) (id : Nat)

/-- The next step of the reader. -/
def read (s : State) : Option State :=
  match s.reader with
  | .idle => none
  | .read f =>
      if s.channelsMu = none then
        match s.session.channels id with
        | some h => some { s with reader := .found f h }
        | none => some { s with reader := .missing f }
      else none
  | .missing f =>
      if s.channelsMu = none then
        some { s with channelsMu := some .reader, reader := .locked f }
      else none
  | .locked f =>
      let r := check cfg id f s.session
      some { s with session := r.2.1, reader := .unlocking f r.1, lost := s.lost ++ r.2.2 }
  | .unlocking f (.channel h) => some { s with channelsMu := none, reader := .found f h }
  | .unlocking _ .kept => some { s with channelsMu := none, reader := .idle }
  | .unlocking _ .lost => some { s with channelsMu := none, reader := .idle }
  | .found f h =>
      if s.feedMu = none then some { s with feedMu := some .reader, reader := .feeding f h }
      else none
  | .feeding f h =>
      some { s with
        session := s.session.deliver cfg h f, applied := s.applied ++ [(h, f)], reader := .fed }
  | .fed => some { s with feedMu := none, reader := .idle }

/-- `OpenChannel` takes the frames that were kept, unless they have expired. -/
def takePending (s : State) : State :=
  match s.session.pending.lookup id with
  | none => { s with opener := .taken none }
  | some q =>
      if q.expires < s.session.now then
        { s with session := s.session.releasePendingLocked cfg id q, opener := .taken none
                 lost := s.lost ++ q.frames }
      else
        { s with session := { s.session with pendingBytes := s.session.pendingBytes - q.bytes
                                             pending := s.session.pending.erase id }
                 opener := .taken (some q.frames), early := q.frames }

/-- The next step of `OpenChannel`. -/
def openNext (s : State) : Option State :=
  match s.opener with
  | .idle | .failed | .done _ => none
  | .locking =>
      if s.channelsMu = none then some { s with channelsMu := some .opener, opener := .locked }
      else none
  | .locked =>
      if (s.session.channels id).isSome then some { s with opener := .failing }
      else some (s.takePending cfg id)
  | .failing => some { s with channelsMu := none, opener := .failed }
  | .taken none => some { s with opener := .held none }
  | .taken (some frames) =>
      if s.feedMu = none then
        some { s with feedMu := some .opener, opener := .held (some frames) }
      else none
  | .held frames =>
      some { s with session := s.session.publish cfg id, since := s.arrived.length
                    opener := .published frames s.session.next }
  | .published none h => some { s with channelsMu := none, opener := .relocking h }
  | .published (some frames) h =>
      some { s with channelsMu := none, opener := .delivering frames h }
  | .delivering (f :: frames) h =>
      some { s with session := s.session.deliver cfg h f, applied := s.applied ++ [(h, f)]
                    opener := .delivering frames h }
  | .delivering [] h => some { s with feedMu := none, opener := .relocking h }
  | .relocking h =>
      if s.channelsMu = none then some { s with channelsMu := some .opener, opener := .relocked h }
      else none
  | .relocked h => some { s with channelsMu := none, opener := .done h }

end State

/-- What can happen. -/
inductive Action where
  /-- A frame of the identifier is read from the transport. -/
  | arrive (f : PendingFrame)
  | read
  /-- `OpenChannel` is called. -/
  | call
  | openNext
  /-- Something else happens to the session. -/
  | other (session : Session)

/-- What becomes of the state by an action, if it can happen. -/
def State.step (cfg : SessionConfig) (id : Nat) (s : State) : Action → Option State
  | .arrive f =>
      if s.reader = .idle ∧ (f.flag = .fin ∨ f.flag = .data ∧ f.data ≠ []) then
        some { s with reader := .read f, arrived := s.arrived ++ [f] }
      else none
  | .read => s.read cfg id
  | .call =>
      if s.opener = .idle then
        some { s with opener := if s.session.closed then .failed else .locking }
      else none
  | .openNext => s.openNext cfg id
  | .other session =>
      let dropped := if (session.pending.lookup id).isSome then [] else stash id s.session
      some { s with session := session, lost := s.lost ++ dropped }

/-- What else happens to the session does not open the channel and keeps no frame for it. -/
def Meanwhile (id : Nat) (s : State) : Action → Prop
  | .other session =>
      (session.channels id = s.session.channels id ∨ session.channels id = none)
        ∧ (session.pending.lookup id = s.session.pending.lookup id
          ∨ session.pending.lookup id = none)
  | _ => True

/-! ### Where frames are, and who holds the locks -/

namespace Reader

/-- The frame that the reader has and that is neither kept nor handed to a channel. -/
def frames : Reader → List PendingFrame
  | .read f | .missing f | .locked f | .unlocking f (.channel _) | .found f _ | .feeding f _ => [f]
  | _ => []

/-- The channel that the reader has found for its frame. -/
def handle : Reader → Option Nat
  | .unlocking _ (.channel h) | .found _ h | .feeding _ h => some h
  | _ => none

/-- The frame for which the reader has found the channel. -/
def bound (r : Reader) : List PendingFrame :=
  if r.handle = none then [] else r.frames

/-- Whether the reader holds `channelsMu`. -/
def locks : Reader → Bool
  | .locked _ | .unlocking _ _ => true
  | _ => false

/-- Whether the reader holds `feedMu`. -/
def feeds : Reader → Bool
  | .feeding _ _ | .fed => true
  | _ => false

end Reader

namespace Opener

/-- The frames that are taken and not delivered. -/
def frames : Opener → List PendingFrame
  | .taken frames | .held frames | .published frames _ => frames.getD []
  | .delivering frames _ => frames
  | _ => []

/-- The channel that has been put in the table. -/
def handle : Opener → Option Nat
  | .published _ h | .delivering _ h | .relocking h | .relocked h | .done h => some h
  | _ => none

/-- Whether the frames kept have been taken. -/
def took : Opener → Bool
  | .taken _ | .held _ => true
  | o => o.handle.isSome

/-- Whether `OpenChannel` holds `channelsMu`. -/
def locks : Opener → Bool
  | .locked | .failing | .taken _ | .held _ | .published _ _ | .relocked _ => true
  | _ => false

/-- Whether `OpenChannel` holds `feedMu`. -/
def feeds : Opener → Bool
  | .held frames | .published frames _ => frames.isSome
  | .delivering _ _ => true
  | _ => false

/-- Whether `OpenChannel` is not being called. -/
def rests : Opener → Bool
  | .idle | .failed | .done _ => true
  | _ => false

end Opener

end Muxocket.EarlyFrames
