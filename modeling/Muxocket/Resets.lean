import Mathlib.Logic.Function.Basic
import Muxocket.Lib.Run
import Muxocket.Wakeup
import Muxocket.World
import Muxocket.WriteCalls

/-!
# How a reset is reported to writers

A peer that has closed a channel sends a reset.  `peerReset` notes it, and then closes the writing
side as `CloseWrite` does.  Calls of `Write` and `ReadFrom` look at the writing side when they
begin, when they have the write lock, and each time they ask for credit.  They report the reset by
`writeErr`, except that `ReadFrom` reports what `AcquireCredits` returns as it is.

Any number of calls and of goroutines that close the writing side run one atomic operation at a
time, on a channel that its own side has not closed, of a session that stays open.  Of what a
`ReadFrom` has read only the number of bytes is kept.  `queued` and `cause` are history: the
frames that were queued, by call and length, and who has closed the writing side.
-/

namespace Muxocket.Resets

open Function

open Wakeup (Once)

/-! ### Calls -/

/-- What a call returns as an error: `ErrChannelReset`, `io.ErrClosedPipe`, or an error of the
source of a `ReadFrom`. -/
inductive WriteError where
  | channelReset
  | closedPipe
  | source
deriving DecidableEq, Repr

/-- What a call sends. -/
abbrev Job := WriteJob Unit

/-- Where a call is.

* `entering`: about to look at the writing side;
* `failing`: has found it closed, and is about to find out why;
* `fetching`: waits for its source;
* `locking`: about to lock `writeMu`;
* `checking`: has the lock, and looks at the writing side again;
* `sending`: at the head of the loop that sends, with the number of bytes sent;
* `acquiring`: in `AcquireCredits`, about to look at the writing side;
* `bidding`: about to take credit;
* `parked`: waits for a token;
* `granted`: has credit for `sz` bytes;
* `refused`: `AcquireCredits` has returned `io.ErrClosedPipe`;
* `reporting`: about to find out why the writing side is closed;
* `unlocking`: about to unlock `writeMu`;
* `returned`: has returned a count, and an error if there was one. -/
inductive Place where
  | idle
  | entering (call : WriteCall)
  | failing
  | fetching (total : Nat)
  | locking (job : Job)
  | checking (job : Job)
  | sending (job : Job) (sent : Nat)
  | acquiring (job : Job) (sent : Nat)
  | bidding (job : Job) (sent : Nat)
  | parked (job : Job) (sent : Nat)
  | granted (job : Job) (sent sz : Nat)
  | refused (job : Job) (sent : Nat)
  | reporting (job : Job) (sent : Nat)
  | unlocking (job : Job) (sent : Nat) (err : Option WriteError)
  | returned (n : Nat) (err : Option WriteError)
deriving DecidableEq, Repr

/-- Who closes the writing side. -/
inductive Cause where
  | reset
  | closeWrite
deriving DecidableEq, Repr

/-- Where a goroutine is that closes the writing side.

* `storing`: in `peerReset`, about to note the reset;
* `entering`: about to call `closeWrite`, of which only the first call does anything;
* `running`, `waking`, `trying`, `leaving`: about to close the writing side, to leave a token for
  the writer, to send the FIN if the write lock is free, and to end. -/
inductive Closer where
  | idle
  | storing
  | entering (c : Cause)
  | running (c : Cause)
  | waking
  | trying
  | leaving
deriving DecidableEq, Repr

/-- The channel with the calls and the goroutines.  `avail` is the credit there is, of the channel
and of its session, and `lateFins` the number of goroutines that wait to send the FIN. -/
structure State where
  resetByPeer : Bool := false
  writeClosed : Bool := false
  winNotify : Bool := false
  finQueued : Bool := false
  lateFins : Nat := 0
  writeOnce : Once := .fresh
  writeMu : Option Nat := none
  avail : Nat := 0
  place : Nat → Place := fun _ => .idle
  closer : Nat → Closer := fun _ => .idle
  queued : List (Nat × Nat) := []
  cause : Option Cause := none

/-- What can happen: a call begins or takes a step, its source gives it bytes, it loses the credit
it has seen to another channel of the session and tries again, a goroutine begins to close the
writing side or takes a step, the FIN is sent, or the credit changes, of which the writer may be
notified. -/
inductive Action where
  | start (i : Nat) (c : WriteCall)
  | advance (i : Nat)
  | source (i n : Nat) (rerr : Option SourceError)
  | retry (i : Nat)
  | peerReset (k : Nat)
  | closeWrite (k : Nat)
  | close (k : Nat)
  | lateFin
  | credit (n : Nat) (notify : Bool)
deriving DecidableEq, Repr

/-- Where a `ReadFrom` goes when it is done with what it has read. -/
def afterRead (total : Nat) : Option SourceError → Place :=
  SourceError.after (.returned total) .source (.fetching total)

/-- Where a call goes when it has released the lock. -/
def Job.leave : Nat → Option WriteError → Job → Place :=
  WriteJob.leave .returned fun total _ => afterRead total

namespace State

/-- A call goes on. -/
def goto (i : Nat) (p : Place) (s : State) : State :=
  { s with place := update s.place i p }

/-- A goroutine that closes the writing side goes on. -/
def turn (k : Nat) (q : Closer) (s : State) : State :=
  { s with closer := update s.closer k q }

/-- Why the writing side is closed. -/
def writeErr (s : State) : WriteError :=
  if s.resetByPeer then .channelReset else .closedPipe

/-- A step of a call, which is somewhere. -/
def advance (cfg : SessionConfig) (i : Nat) (s : State) : Place → Option State
  | .entering c =>
      some (s.goto i
        (if s.writeClosed then .failing
        else
          match c with
          | .write b => .locking (.write b)
          | .readFrom => .fetching 0))
  | .failing => some (s.goto i (.returned 0 (some s.writeErr)))
  | .locking job =>
      if s.writeMu = none then some ({ s with writeMu := some i }.goto i (.checking job)) else none
  | .checking job =>
      some (s.goto i (if s.writeClosed then .reporting job 0 else .sending job 0))
  | .sending job sent =>
      some (s.goto i
        (if sent < job.size then .acquiring job sent else .unlocking job sent none))
  | .acquiring job sent =>
      some (s.goto i (if s.writeClosed then .refused job sent else .bidding job sent))
  | .bidding job sent =>
      if s.avail = 0 then some (s.goto i (.parked job sent))
      else
        let sz := min (job.desired cfg sent) s.avail
        some ({ s with avail := s.avail - sz }.goto i (.granted job sent sz))
  | .parked job sent =>
      if s.winNotify then some ({ s with winNotify := false }.goto i (.acquiring job sent))
      else none
  | .granted job sent sz =>
      some ({ s with queued := s.queued ++ [(i, sz)] }.goto i (.sending job (sent + sz)))
  | .refused job sent =>
      match job with
      | .write _ => some (s.goto i (.reporting job sent))
      | .relay .. => some (s.goto i (.unlocking job sent (some .closedPipe)))
  | .reporting job sent => some (s.goto i (.unlocking job sent (some s.writeErr)))
  | .unlocking job sent err => some ({ s with writeMu := none }.goto i (job.leave sent err))
  | .idle | .fetching _ | .returned _ _ => none

/-- A step of a goroutine that closes the writing side. -/
def close (k : Nat) (s : State) : Closer → Option State
  | .idle => none
  | .storing => some ({ s with resetByPeer := true }.turn k (.entering .reset))
  | .entering c =>
      match s.writeOnce with
      | .fresh => some ({ s with writeOnce := .running }.turn k (.running c))
      | .running => none
      | .finished => some (s.turn k .idle)
  | .running c => some ({ s with writeClosed := true, cause := some c }.turn k .waking)
  | .waking => some ({ s with winNotify := true }.turn k .trying)
  | .trying =>
      if s.writeMu = none then some ({ s with finQueued := true }.turn k .leaving)
      else some ({ s with lateFins := s.lateFins + 1 }.turn k .leaving)
  | .leaving => some ({ s with writeOnce := .finished }.turn k .idle)

/-- What becomes of a channel by an action, if it can happen. -/
def step (cfg : SessionConfig) (s : State) : Action → Option State
  | .start i c =>
      if s.place i = .idle then
        some (s.goto i (if c = .write [] then .returned 0 none else .entering c))
      else none
  | .advance i => s.advance cfg i (s.place i)
  | .source i n rerr =>
      match s.place i with
      | .fetching total =>
          if n ≤ cfg.maxFrameDataSize then
            some (s.goto i
              (if 0 < n then .locking (.relay total () n rerr) else afterRead total rerr))
          else none
      | _ => none
  | .retry i =>
      match s.place i with
      | .bidding job sent => some (s.goto i (.acquiring job sent))
      | _ => none
  | .peerReset k => if s.closer k = .idle then some (s.turn k .storing) else none
  | .closeWrite k => if s.closer k = .idle then some (s.turn k (.entering .closeWrite)) else none
  | .close k => s.close k (s.closer k)
  | .lateFin =>
      if 0 < s.lateFins ∧ s.writeMu = none then
        some { s with lateFins := s.lateFins - 1, finQueued := true }
      else none
  | .credit n notify => some { s with avail := n, winNotify := s.winNotify || notify }

/-- The number of bytes that a call has queued. -/
def sentBy (i : Nat) (s : State) : Nat :=
  ((s.queued.filter fun q => q.1 = i).map Prod.snd).sum

end State

/-- Whether a `ReadFrom` has passed the check under the lock and needs more credit. -/
def Place.needsCredit : Place → Bool
  | .sending (.relay _ _ n _) sent => sent < n
  | .acquiring (.relay ..) _ | .bidding (.relay ..) _ | .parked (.relay ..) _ => true
  | .granted (.relay _ _ n _) sent sz => sent + sz < n
  | _ => false

namespace State

/-- A reset does not close the writing side while the call that holds the write lock is a
`ReadFrom` that needs more credit. -/
def Spares (s : State) : Action → Prop
  | .close k =>
      s.closer k = .running .reset → ∀ i ∈ s.writeMu, (s.place i).needsCredit = false
  | _ => True

instance (s : State) (a : Action) : Decidable (s.Spares a) :=
  match a with
  | .close _ => by
      dsimp only [Spares]
      infer_instance
  | .start .. | .advance _ | .source .. | .retry _ | .peerReset _ | .closeWrite _ | .lateFin
  | .credit .. => .isTrue trivial

/-! ### Who closes the writing side -/

end State

/-- Whether a goroutine is in what is done once. -/
@[simp]
def Closer.inside : Closer → Bool
  | .running _ | .waking | .trying | .leaving => true
  | _ => false

/-- What holds for a goroutine that closes the writing side. -/
def Closer.Sound (resetByPeer : Bool) (cause : Option Cause) : Closer → Prop
  | .entering c => c = .reset → resetByPeer = true
  | .running c => cause = none ∧ (c = .reset → resetByPeer = true)
  | _ => True

namespace State

/-- The writing side is closed at most once, and by a reset only after the reset was noted. -/
structure Closes (s : State) : Prop where
  flag : s.writeClosed = s.cause.isSome
  reset : s.cause = some .reset → s.resetByPeer = true
  closers : ∀ k, (s.closer k).Sound s.resetByPeer s.cause
  fresh : s.writeOnce = .fresh → s.cause = none
  inside : ∀ k, (s.closer k).inside = true → s.writeOnce = .running
  alone : ∀ k l, (s.closer k).inside = true → (s.closer l).inside = true → k = l

theorem closes_init (avail : Nat) :
  Closes { avail := avail }
  where
  flag := rfl
  reset := by simp
  closers _ := trivial
  fresh _ := rfl
  inside := by simp
  alone := by simp

variable {cfg : SessionConfig} {s s' : State}

section

variable (hs : s.Closes)

include hs

/-- What has nothing to do with closing. -/
theorem Closes.congr (hflag : s'.writeClosed = s.writeClosed)
    (hreset : s'.resetByPeer = s.resetByPeer) (hcause : s'.cause = s.cause)
    (honce : s'.writeOnce = s.writeOnce) (hcloser : s'.closer = s.closer) :
  s'.Closes
  where
  flag := by rw [hflag, hcause, hs.flag]
  reset := by
    rw [hcause, hreset]
    exact hs.reset
  closers := by
    rw [hcause, hreset, hcloser]
    exact hs.closers
  fresh := by
    rw [honce, hcause]
    exact hs.fresh
  inside := by
    rw [hcloser, honce]
    exact hs.inside
  alone := by
    rw [hcloser]
    exact hs.alone

/-- A goroutine goes on, outside of what is done once, after the reset may have been noted. -/
theorem Closes.turn {k : Nat} {q : Closer} {reset : Bool}
    (hmono : s.resetByPeer = true → reset = true) (hq : q.Sound reset s.cause)
    (hinside : q.inside = true → (s.closer k).inside = true) :
  Closes ({ s with resetByPeer := reset }.turn k q)
  := by
  have hback : ∀ l, ((update s.closer k q) l).inside = true →
      (s.closer l).inside = true := by
    intro l hl
    by_cases hlk : l = k
    · subst hlk
      rw [update_self] at hl
      exact hinside hl
    · rwa [update_of_ne hlk] at hl
  constructor
  case flag => exact hs.flag
  case reset => exact fun hc => hmono (hs.reset hc)
  case closers =>
    refine (forall_update_iff s.closer fun _ q => q.Sound reset s.cause).mpr ⟨hq, ?_⟩
    intro l _
    have hl := hs.closers l
    cases hcl : s.closer l with
    | entering c =>
        rw [hcl] at hl
        exact fun hc => hmono (hl hc)
    | running c =>
        rw [hcl] at hl
        exact ⟨hl.1, fun hc => hmono (hl.2 hc)⟩
    | _ => trivial
  case fresh => exact hs.fresh
  case inside => exact fun l hl => hs.inside l (hback l hl)
  case alone => exact fun l m hl hm => hs.alone l m (hback l hl) (hback m hm)

/-- The first goroutine begins to close the writing side. -/
theorem Closes.enter {k : Nat} {c : Cause} (hfresh : s.writeOnce = .fresh)
    (hc : c = .reset → s.resetByPeer = true) :
  Closes ({ s with writeOnce := .running }.turn k (.running c))
  := by
  have hnone : ∀ l, (s.closer l).inside = false := by
    intro l
    by_contra hl
    have honce := hs.inside l (by simpa using hl)
    simp [hfresh] at honce
  have hself : ∀ l, ((update s.closer k (.running c)) l).inside = true → l = k := by
    intro l hl
    by_contra hne
    rw [update_of_ne hne, hnone l] at hl
    contradiction
  constructor
  case flag => exact hs.flag
  case reset => exact hs.reset
  case closers =>
    refine (forall_update_iff s.closer
      fun _ q => q.Sound s.resetByPeer s.cause).mpr ⟨⟨hs.fresh hfresh, hc⟩, ?_⟩
    exact fun l _ => hs.closers l
  case fresh =>
    intro h
    contradiction
  case inside => exact fun _ _ => rfl
  case alone => exact fun l m hl hm => (hself l hl).trans (hself m hm).symm

/-- The writing side is closed. -/
theorem Closes.shut {k : Nat} {c : Cause} (hc : s.closer k = .running c) :
  Closes ({ s with writeClosed := true, cause := some c }.turn k .waking)
  := by
  have hk := hs.closers k
  rw [hc] at hk
  have hin : (s.closer k).inside = true := by simp [hc]
  have hback : ∀ l, ((update s.closer k .waking) l).inside = true →
      (s.closer l).inside = true := by
    intro l hl
    by_cases hlk : l = k
    · rwa [hlk]
    · rwa [update_of_ne hlk] at hl
  constructor
  case flag => rfl
  case reset =>
    intro h
    exact hk.2 (Option.some.inj h)
  case closers =>
    refine (forall_update_iff s.closer
      fun _ q => q.Sound s.resetByPeer (some c)).mpr ⟨trivial, ?_⟩
    intro l hl
    have hsound := hs.closers l
    cases hcl : s.closer l with
    | entering d =>
        rw [hcl] at hsound
        exact hsound
    | running d => exact absurd (hs.alone l k (by simp [hcl]) hin) hl
    | _ => trivial
  case fresh =>
    intro hfresh
    have honce : s.writeOnce = .running := hs.inside k hin
    exact absurd (hfresh.symm.trans honce) (by simp)
  case inside => exact fun l hl => hs.inside l (hback l hl)
  case alone => exact fun l m hl hm => hs.alone l m (hback l hl) (hback m hm)

/-- The writing side has been closed. -/
theorem Closes.leave {k : Nat} (hc : s.closer k = .leaving) :
  Closes ({ s with writeOnce := .finished }.turn k .idle)
  := by
  have hnone : ∀ l, ((update s.closer k .idle) l).inside = false := by
    intro l
    by_cases hlk : l = k
    · simp [hlk]
    · rw [update_of_ne hlk]
      by_contra hl
      exact hlk (hs.alone l k (by simpa using hl) (by simp [hc]))
  constructor
  case flag => exact hs.flag
  case reset => exact hs.reset
  case closers =>
    refine (forall_update_iff s.closer
      fun _ q => q.Sound s.resetByPeer s.cause).mpr ⟨trivial, ?_⟩
    exact fun l _ => hs.closers l
  case fresh =>
    intro h
    contradiction
  case inside =>
    intro l hl
    rw [State.turn, hnone l] at hl
    contradiction
  case alone =>
    intro l m hl
    rw [State.turn, hnone l] at hl
    contradiction

/-- Every step of a goroutine that closes the writing side. -/
theorem Closes.close {k : Nat} (hstep : s.close k (s.closer k) = some s') :
  s'.Closes
  := by
  have hk := hs.closers k
  cases hc : s.closer k with
  | idle => simp [State.close, hc] at hstep
  | storing =>
      obtain rfl : _ = s' := by simpa [State.close, hc] using hstep
      exact hs.turn (fun _ => rfl) (fun _ => rfl) (by simp)
  | entering c =>
      rw [hc] at hk
      simp only [State.close, hc] at hstep
      split at hstep
      · rename_i hfresh
        cases hstep
        exact hs.enter hfresh hk
      · contradiction
      · cases hstep
        exact hs.turn (fun h => h) trivial (by simp)
  | running c =>
      obtain rfl : _ = s' := by simpa [State.close, hc] using hstep
      exact hs.shut hc
  | waking =>
      obtain rfl : _ = s' := by simpa [State.close, hc] using hstep
      have hwoken : Closes { s with winNotify := true } := hs.congr rfl rfl rfl rfl rfl
      exact hwoken.turn (fun h => h) trivial (by simp [hc])
  | trying =>
      have hsent : Closes { s with finQueued := true } := hs.congr rfl rfl rfl rfl rfl
      have hlate : Closes { s with lateFins := s.lateFins + 1 } := hs.congr rfl rfl rfl rfl rfl
      simp only [State.close, hc] at hstep
      split at hstep
      · cases hstep
        exact hsent.turn (fun h => h) trivial (by simp [hc])
      · cases hstep
        exact hlate.turn (fun h => h) trivial (by simp [hc])
  | leaving =>
      obtain rfl : _ = s' := by simpa [State.close, hc] using hstep
      exact hs.leave hc

/-- A step of a call has nothing to do with closing. -/
theorem Closes.advance {i : Nat} {p : Place} (hstep : s.advance cfg i p = some s') :
  s'.Closes
  := by
  cases p with
  | idle | fetching | returned => contradiction
  | locking | parked =>
      obtain ⟨-, rfl⟩ := Run.guard hstep
      exact hs.congr rfl rfl rfl rfl rfl
  | bidding job sent =>
      simp only [State.advance] at hstep
      split at hstep
      · cases hstep
        exact hs.congr rfl rfl rfl rfl rfl
      · cases hstep
        exact hs.congr rfl rfl rfl rfl rfl
  | refused job sent =>
      cases job with
      | write | relay =>
          cases hstep
          exact hs.congr rfl rfl rfl rfl rfl
  | entering | failing | checking | sending | acquiring | granted | reporting | unlocking =>
      cases hstep
      exact hs.congr rfl rfl rfl rfl rfl

/-- What a call finds out about a writing side that a reset has closed. -/
theorem Closes.writeErr_eq (hcause : s.cause = some .reset) :
  s.writeErr = .channelReset
  := by
  rw [writeErr, hs.reset hcause, if_pos rfl]

end

/-- A source gives bytes to a call that waits for them. -/
theorem source_eq {i n : Nat} {rerr : Option SourceError}
    (hstep : s.step cfg (.source i n rerr) = some s') :
  ∃ total, s.place i = .fetching total ∧
    s.goto i (if 0 < n then .locking (.relay total () n rerr) else afterRead total rerr) = s'
  := by
  simp only [State.step] at hstep
  split at hstep
  · rename_i total hi
    obtain ⟨-, hstep⟩ := Option.ite_none_right_eq_some.mp hstep
    exact ⟨total, hi, Option.some.inj hstep⟩
  · contradiction

/-- A call that has lost a bid for credit begins again. -/
theorem retry_eq {i : Nat} (hstep : s.step cfg (.retry i) = some s') :
  ∃ job sent, s.place i = .bidding job sent ∧ s.goto i (.acquiring job sent) = s'
  := by
  simp only [State.step] at hstep
  split at hstep
  · rename_i job sent hi
    exact ⟨job, sent, hi, Option.some.inj hstep⟩
  · contradiction

/-- Every step keeps that the writing side is closed once. -/
theorem Closes.step (hs : s.Closes) {a : Action} (hstep : s.step cfg a = some s') :
  s'.Closes
  := by
  cases a with
  | close k => exact hs.close hstep
  | start i c | lateFin =>
      obtain ⟨-, rfl⟩ := Run.guard hstep
      exact hs.congr rfl rfl rfl rfl rfl
  | advance i => exact hs.advance hstep
  | source i n rerr =>
      obtain ⟨total, -, rfl⟩ := source_eq hstep
      exact hs.congr rfl rfl rfl rfl rfl
  | retry i =>
      obtain ⟨job, sent, -, rfl⟩ := retry_eq hstep
      exact hs.congr rfl rfl rfl rfl rfl
  | peerReset k =>
      obtain ⟨-, rfl⟩ := Run.guard hstep
      exact hs.turn (fun h => h) trivial (by simp)
  | closeWrite k =>
      obtain ⟨-, rfl⟩ := Run.guard hstep
      exact hs.turn (fun h => h) (by simp [Closer.Sound]) (by simp)
  | credit n notify =>
      cases hstep
      exact hs.congr rfl rfl rfl rfl rfl

end State

end Muxocket.Resets
