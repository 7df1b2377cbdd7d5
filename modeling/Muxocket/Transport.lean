import Muxocket.Lib.Run
import Mathlib.Logic.Function.Basic

/-!
# The transport of a session

A session that allows resumption outlives its transport.  Whoever finds the transport broken
calls `handleDisconnect`, which drops it, marks the session as suspended and starts a grace
timer; a handshake at the listener, or one of the dialer, calls `resumeWithConnection` with a
new transport, which takes the place of whatever is there.  Any number of goroutines are in
these functions, in the writer's reaction to a failed write and in `Close` at the same time.

The transport is kept in two places, `conn` of the session and `conn` of the writer.  The first
is used under the lock `connMu` only, so that taking the lock, changing it and counting the
epoch is one step; the transport of the writer and the mark `suspended` are seen without the
lock, so setting each of them is a step of its own.

Transports are numbered.  As history we keep the changes of the transport, which transports
have been offered to the session, which have been closed, and the nonces that the listener
accepted with their transports.
-/

namespace Muxocket

namespace Transport

/-- Who calls `handleDisconnect`: a reader or the keepalive loop, with the transport that
failed, or the writer, whose write to the transport `w` failed. -/
inductive Caller where
  | reader (failed : Option Nat)
  | writer (w : Nat)
deriving DecidableEq, Repr

/-- The transport that failed. -/
def Caller.failed : Caller → Option Nat
  | .reader failed => failed
  | .writer w => some w

/-- Who calls `resumeWithConnection`: a handshake of the listener with a nonce, or the
dialer. -/
inductive Resumer where
  | listener (nonce : Nat)
  | dialer
deriving DecidableEq, Repr

/-- Where a goroutine is.

* `idle`: has not been started;
* `reporting k`: in `handleDisconnect`, is about to see whether the session is closed;
* `locking k`: is about to take the lock and to drop the transport;
* `muting k old e`: has dropped `old` and counted the epoch `e`, is about to take the transport
  from the writer;
* `suspending k old e`: is about to mark the session as suspended and to release the lock;
* `hangingUp k old e`: is about to close `old` and to start the grace timer;
* `writing w`: the writer writes to `w`;
* `rechecking w`: has reported that the write failed, is about to see whether `w` is still the
  transport of the writer;
* `clearing w`: has seen that it is, is about to take it from the writer if it still is;
* `looking n c`: a handshake of the listener is about to look for the session;
* `screening n c`: is about to compare its nonce with that of the session;
* `loading n c`: has verified the request, is about to load the nonce of the session;
* `swapping n c cur`: has loaded the nonce `cur`, is about to compare and swap;
* `answering n c`: has replaced the nonce, is about to answer;
* `refusing c`: has failed, is about to close its connection;
* `dialing c`: the dialer is about to see whether the session is closed;
* `exchanging c`: is about to exchange messages with the listener;
* `confirming c`: is about to see once more whether the session is closed;
* `attaching r c`: in `resumeWithConnection`, is about to take the lock and to attach `c`;
* `rewiring r c old`: has put `c` in the place of `old`, is about to give it to the writer;
* `waking r c old`: is about to mark the session as not suspended and to release the lock;
* `replacing r c old`: is about to close the transport that was replaced;
* `resumed r c`: has reported success;
* `closing`: in `Close`, has marked the session as closed, is about to close its transport;
* `forgetting`: is about to take the session from the table of the listener;
* `done`: has returned. -/
inductive Proc where
  | idle
  | reporting (k : Caller)
  | locking (k : Caller)
  | muting (k : Caller) (old e : Nat)
  | suspending (k : Caller) (old e : Nat)
  | hangingUp (k : Caller) (old e : Nat)
  | writing (w : Nat)
  | rechecking (w : Nat)
  | clearing (w : Nat)
  | looking (n c : Nat)
  | screening (n c : Nat)
  | loading (n c : Nat)
  | swapping (n c cur : Nat)
  | answering (n c : Nat)
  | refusing (c : Nat)
  | dialing (c : Nat)
  | exchanging (c : Nat)
  | confirming (c : Nat)
  | attaching (r : Resumer) (c : Nat)
  | rewiring (r : Resumer) (c : Nat) (old : Option Nat)
  | waking (r : Resumer) (c : Nat) (old : Option Nat)
  | replacing (r : Resumer) (c : Nat) (old : Option Nat)
  | resumed (r : Resumer) (c : Nat)
  | closing
  | forgetting
  | done
deriving DecidableEq, Repr

/-- A goroutine that has returned, or has not been started. -/
def Proc.Quiet : Proc → Prop
  | .idle => True
  | .resumed _ _ => True
  | .done => True
  | _ => False

/-- Where the grace timer of an epoch is: not started, running, past the test that the session
is suspended, past the test of the epoch, or stopped by one of the tests. -/
inductive Timer where
  | off
  | armed
  | loaded
  | expired
  | stale
deriving DecidableEq, Repr

/-- A change of the transport: one was dropped, or one was attached, to a session that was
closed already or not. -/
inductive Change where
  | drop (old : Nat)
  | swap (r : Resumer) (c : Nat) (closed : Bool)
deriving DecidableEq, Repr

/-- A session with its goroutines.  `known` says that it is in the table of the listener, and
`first` is the transport it was created on. -/
structure State where
  allowConnectionResumption : Bool
  first : Nat
  conn : Option Nat
  writerConn : Option Nat
  suspended : Bool
  connEpoch : Nat
  closed : Bool
  known : Bool
  nonce : Nat
  connMu : Option Nat
  proc : Nat → Proc
  timer : Nat → Timer
  history : List Change
  offered : List Nat
  shut : List Nat
  accepted : List (Nat × Nat)

/-- A session that has just been created on the transport `c`. -/
def init (allow : Bool) (c : Nat) : State where
  allowConnectionResumption := allow
  first := c
  conn := some c
  writerConn := some c
  suspended := false
  connEpoch := 0
  closed := false
  known := true
  nonce := 0
  connMu := none
  proc := fun _ => .idle
  timer := fun _ => .off
  history := []
  offered := [c]
  shut := []
  accepted := []

/-- What a goroutine does when `handleDisconnect` returns. -/
def Caller.back : Caller → Proc
  | .reader _ => .done
  | .writer w => .rechecking w

namespace State

/-- A goroutine goes on. -/
def setProc (p : Nat) (q : Proc) (s : State) : State :=
  { s with proc := Function.update s.proc p q }

/-- A transport is closed. -/
def shutDown (c : Nat) (s : State) : State :=
  { s with shut := s.shut ++ [c] }

/-- Take the lock and drop the transport, unless it is another than the one that failed. -/
def drop (p : Nat) (k : Caller) (s : State) : State :=
  match s.conn with
  | none => s.setProc p k.back
  | some old =>
      if k.failed.isSome ∧ k.failed ≠ some old then s.setProc p k.back
      else
        { s with
          connMu := some p
          conn := none
          connEpoch := s.connEpoch + 1
          history := s.history ++ [Change.drop old] }.setProc p (.muting k old (s.connEpoch + 1))

/-- Take the lock and put a transport in the place of the one that is there. -/
def attach (p : Nat) (r : Resumer) (c : Nat) (s : State) : State :=
  { s with
    connMu := some p
    conn := some c
    connEpoch := s.connEpoch + 1
    history := s.history ++ [Change.swap r c s.closed] }.setProc p (.rewiring r c s.conn)

/-- Close the transport that is there. -/
def sealConn (s : State) : State :=
  match s.conn with
  | some c => s.shutDown c
  | none => s

/-- Close the transport that was replaced. -/
def replace (c : Nat) (old : Option Nat) (s : State) : State :=
  match old with
  | some d => if d ≠ c then s.shutDown d else s
  | none => s

/-- Compare the nonce of the session with the one that was loaded, and replace it. -/
def compareAndSwap (p n c cur : Nat) (s : State) : State :=
  if s.nonce = cur then
    { s with nonce := n, accepted := s.accepted ++ [(n, c)] }.setProc p (.answering n c)
  else s.setProc p (.loading n c)

/-- The next step of a goroutine.  The argument `ok` says whether what it does with its
transport succeeds. -/
def advance (p : Nat) (ok : Bool) (s : State) : Option State :=
  match s.proc p with
  | .reporting k =>
      some (s.setProc p
        (if s.closed ∨ ¬ s.allowConnectionResumption then k.back else .locking k))
  | .locking k => if s.connMu = none then some (s.drop p k) else none
  | .muting k old e => some ({ s with writerConn := none }.setProc p (.suspending k old e))
  | .suspending k old e =>
      some ({ s with suspended := true, connMu := none }.setProc p (.hangingUp k old e))
  | .hangingUp k old e =>
      some ({ s with timer := Function.update s.timer e .armed }.shutDown old |>.setProc p k.back)
  | .writing w => some (s.setProc p (if ok then .done else .reporting (.writer w)))
  | .rechecking w => some (s.setProc p (if s.writerConn = some w then .clearing w else .done))
  | .clearing w =>
      some ({ s with
        writerConn := if s.writerConn = some w then none else s.writerConn }.setProc p .done)
  | .looking n c =>
      some (s.setProc p (if s.known ∧ ¬ s.closed then .screening n c else .refusing c))
  | .screening n c => some (s.setProc p (if n ≤ s.nonce then .refusing c else .loading n c))
  | .loading n c =>
      some (s.setProc p (if n ≤ s.nonce then .refusing c else .swapping n c s.nonce))
  | .swapping n c cur => some (s.compareAndSwap p n c cur)
  | .answering n c =>
      some (s.setProc p (if ok then .attaching (.listener n) c else .refusing c))
  | .refusing c => some ((s.shutDown c).setProc p .done)
  | .dialing c => some (s.setProc p (if s.closed then .done else .exchanging c))
  | .exchanging c => some (s.setProc p (if ok then .confirming c else .done))
  | .confirming c => some (s.setProc p (if s.closed then .done else .attaching .dialer c))
  | .attaching r c => if s.connMu = none then some (s.attach p r c) else none
  | .rewiring r c old => some ({ s with writerConn := some c }.setProc p (.waking r c old))
  | .waking r c old =>
      some ({ s with suspended := false, connMu := none }.setProc p (.replacing r c old))
  | .replacing r c old => some ((s.replace c old).setProc p (.resumed r c))
  | .closing => if s.connMu = none then some (s.sealConn.setProc p .forgetting) else none
  | .forgetting => some ({ s with known := false }.setProc p .done)
  | .idle => none
  | .resumed _ _ => none
  | .done => none

end State

/-- What can happen. -/
inductive Event where
  | report (p : Nat) (failed : Option Nat)
  | write (p : Nat)
  | handshake (p n c : Nat)
  | dial (p c : Nat)
  | close (p : Nat)
  | advance (p : Nat) (ok : Bool)
  | fire (e : Nat)
  | check (e : Nat)
deriving DecidableEq, Repr

namespace State

/-- A goroutine is started. -/
def start (p : Nat) (q : Proc) (s : State) : Option State :=
  if s.proc p = .idle then some (s.setProc p q) else none

/-- A goroutine is started with a transport that has not been used before. -/
def offer (p c : Nat) (q : Proc) (s : State) : Option State :=
  if c ∈ s.offered then none else { s with offered := s.offered ++ [c] }.start p q

/-- What becomes of a session by an event, if it can happen. -/
def step (s : State) : Event → Option State
  | .report p failed => s.start p (.reporting (.reader failed))
  | .write p => s.writerConn.bind fun w => s.start p (.writing w)
  | .handshake p n c => s.offer p c (.looking n c)
  | .dial p c => s.offer p c (.dialing c)
  | .close p =>
      if s.closed then s.start p .done else { s with closed := true }.start p .closing
  | .advance p ok => s.advance p ok
  | .fire e =>
      if s.timer e = .armed then
        some { s with timer := Function.update s.timer e (if s.suspended then .loaded else .stale) }
      else none
  | .check e =>
      if s.timer e = .loaded then
        some { s with
          timer := Function.update s.timer e (if s.connEpoch = e then .expired else .stale) }
      else none

/-! ### Transports that are offered to a session -/

/-- The transports that have been attached to a session. -/
def attached (s : State) : List Nat :=
  s.first :: s.history.filterMap fun
    | .drop _ => none
    | .swap _ c _ => some c

end State

/-- The transport a goroutine brings that has not been attached. -/
def Proc.offers : Proc → Option Nat
  | .looking _ c => some c
  | .screening _ c => some c
  | .loading _ c => some c
  | .swapping _ c _ => some c
  | .answering _ c => some c
  | .refusing c => some c
  | .dialing c => some c
  | .exchanging c => some c
  | .confirming c => some c
  | .attaching _ c => some c
  | _ => none

namespace State

/-- Closing a transport changes nothing else. -/
theorem replace_eq (c : Nat) (old : Option Nat) (s : State) :
  ∃ shut, s.replace c old = { s with shut := shut }
  := by
  unfold replace
  split
  · split <;> exact ⟨_, rfl⟩
  · exact ⟨_, rfl⟩

theorem sealConn_eq (s : State) :
  ∃ shut, s.sealConn = { s with shut := shut }
  := by
  unfold sealConn
  split <;> exact ⟨_, rfl⟩

/-! ### What a step does to the transport -/

/-- The transport does not change, or it is dropped. -/
structure Keeps (s s' : State) : Prop where
  first : s'.first = s.first
  change : s'.conn = s.conn ∧ s'.history = s.history ∧ s'.connEpoch = s.connEpoch
    ∨ ∃ old, s.conn = some old ∧ s'.conn = none ∧ s'.history = s.history ++ [.drop old]
      ∧ s'.connEpoch = s.connEpoch + 1

variable {s s' : State} {p : Nat}

theorem Keeps.attached (h : s.Keeps s') :
  s'.attached = s.attached
  := by
  unfold State.attached
  rw [h.first]
  rcases h.change with ⟨-, hhistory, -⟩ | ⟨old, -, -, hhistory, -⟩
  · rw [hhistory]
  · rw [hhistory]
    simp

theorem Keeps.conn (h : s.Keeps s') :
  s'.conn = s.conn ∨ s'.conn = none
  := by
  rcases h.change with ⟨hconn, -⟩ | ⟨old, -, hconn, -⟩
  · exact .inl hconn
  · exact .inr hconn

/-- A goroutine goes on with the transport it brings, or without one, and attaches none. -/
structure Turns (s : State) (p : Nat) (s' : State) : Prop extends Keeps s s' where
  proc : ∃ q, s'.proc = Function.update s.proc p q
    ∧ (q.offers = (s.proc p).offers ∨ q.offers = none)
  offered : s'.offered = s.offered

theorem turns_setProc {q : Proc} (hq : q.offers = (s.proc p).offers ∨ q.offers = none) :
  s.Turns p (s.setProc p q)
  where
  first := rfl
  change := .inl ⟨rfl, rfl, rfl⟩
  proc := ⟨q, rfl, hq⟩
  offered := rfl

theorem turns_drop (k : Caller) :
  s.Turns p (s.drop p k)
  := by
  have hback : k.back.offers = none := by
    cases k <;> rfl
  unfold drop
  split
  · exact turns_setProc (.inr hback)
  · rename_i old hold
    split
    · exact turns_setProc (.inr hback)
    · exact ⟨⟨rfl, .inr ⟨old, hold, rfl, rfl, rfl⟩⟩, ⟨_, rfl, .inr rfl⟩, rfl⟩

/-- A step of a goroutine attaches no transport, or the one it brings. -/
theorem advance_cases {ok : Bool} (h : s.advance p ok = some s') :
  s.Turns p s' ∨ ∃ r c, s.proc p = .attaching r c ∧ s.connMu = none ∧ s' = s.attach p r c
  := by
  have hsame : ∀ {s' : State} (q : Proc), s'.first = s.first → s'.conn = s.conn →
      s'.history = s.history → s'.connEpoch = s.connEpoch → s'.offered = s.offered →
      s'.proc = Function.update s.proc p q →
      q.offers = (s.proc p).offers ∨ q.offers = none → s.Turns p s' := by
    intro s' q hfirst hconn hhistory hepoch hoffered hproc hq
    exact ⟨⟨hfirst, .inl ⟨hconn, hhistory, hepoch⟩⟩, ⟨q, hproc, hq⟩, hoffered⟩
  have hback : ∀ k : Caller, k.back.offers = none := by
    intro k
    cases k <;> rfl
  unfold State.advance at h
  cases hp : s.proc p with rw [hp] at h
  | idle | resumed _ _ | done => contradiction
  | reporting k =>
      cases h
      refine .inl (turns_setProc (.inr ?_))
      split
      · exact hback k
      · rfl
  | writing _ | rechecking _ | looking _ _ | screening _ _ | loading _ _ | answering _ _
  | dialing _ | exchanging _ | confirming _ =>
      cases h
      refine .inl (turns_setProc ?_)
      rw [hp]
      split <;> simp [Proc.offers]
  | locking k =>
      obtain ⟨-, rfl⟩ := Run.guard h
      exact .inl (turns_drop k)
  | muting _ _ _ | suspending _ _ _ | clearing _ | rewiring _ _ _ | waking _ _ _ | refusing _
  | forgetting =>
      cases h
      exact .inl (hsame _ rfl rfl rfl rfl rfl rfl (.inr rfl))
  | hangingUp k _ _ =>
      cases h
      exact .inl (hsame _ rfl rfl rfl rfl rfl rfl (.inr (hback k)))
  | swapping n c cur =>
      cases h
      have hoffers : (s.proc p).offers = some c := by
        rw [hp]
        rfl
      left
      unfold compareAndSwap
      split
      · exact hsame _ rfl rfl rfl rfl rfl rfl (.inl hoffers.symm)
      · exact turns_setProc (.inl hoffers.symm)
  | attaching r c =>
      obtain ⟨hlock, h⟩ := Option.ite_none_right_eq_some.mp h
      exact .inr ⟨r, c, rfl, hlock, (Option.some.inj h).symm⟩
  | replacing r c old =>
      cases h
      obtain ⟨shut, hshut⟩ := replace_eq c old s
      rw [hshut]
      exact .inl (hsame _ rfl rfl rfl rfl rfl rfl (.inr rfl))
  | closing =>
      obtain ⟨-, rfl⟩ := Run.guard h
      obtain ⟨shut, hshut⟩ := sealConn_eq s
      rw [hshut]
      exact .inl (hsame _ rfl rfl rfl rfl rfl rfl (.inr rfl))

/-- A step attaches no transport, or the one a goroutine brings. -/
theorem step_cases {e : Event} (h : s.step e = some s') :
  s.Keeps s' ∨ ∃ p ok r c, e = .advance p ok ∧ s.proc p = .attaching r c ∧ s' = s.attach p r c
  := by
  have hstart : ∀ {s s' : State} {p : Nat} {q : Proc}, s.start p q = some s' → s.Keeps s' := by
    intro s s' p q h
    obtain ⟨-, rfl⟩ := Run.guard h
    exact ⟨rfl, .inl ⟨rfl, rfl, rfl⟩⟩
  have hoffer : ∀ {p c : Nat} {q : Proc}, s.offer p c q = some s' → s.Keeps s' := by
    intro p c q h
    obtain ⟨-, h⟩ := Option.ite_none_left_eq_some.mp h
    exact ⟨(hstart h).first, (hstart h).change⟩
  cases e with
  | report p failed => exact .inl (hstart h)
  | write p =>
      obtain ⟨w, -, h⟩ := Option.bind_eq_some_iff.mp h
      exact .inl (hstart h)
  | handshake p n c | dial p c => exact .inl (hoffer h)
  | close p =>
      left
      dsimp only [State.step] at h
      split at h
      · exact hstart h
      · exact ⟨(hstart h).first, (hstart h).change⟩
  | advance p ok =>
      rcases advance_cases h with hturns | ⟨r, c, hp, -, hs'⟩
      · exact .inl hturns.toKeeps
      · exact .inr ⟨p, ok, r, c, rfl, hp, hs'⟩
  | fire e | check e =>
      obtain ⟨-, rfl⟩ := Run.guard h
      exact .inl ⟨rfl, .inl ⟨rfl, rfl, rfl⟩⟩

theorem attached_attach (p : Nat) (r : Resumer) (c : Nat) (s : State) :
  (s.attach p r c).attached = s.attached ++ [c]
  := by
  simp [State.attach, State.attached, setProc]

end State

/-! ### Transports are not attached twice -/

/-- No two goroutines bring the same transport, nor one that has been attached. -/
structure State.Fresh (s : State) : Prop where
  offered : ∀ p c, (s.proc p).offers = some c → c ∈ s.offered
  distinct : ∀ p p' c, (s.proc p).offers = some c → (s.proc p').offers = some c → p = p'
  unattached : ∀ p c, (s.proc p).offers = some c → c ∉ s.attached
  attached : ∀ c ∈ s.attached, c ∈ s.offered
  conn : ∀ c, s.conn = some c → c ∈ s.attached

namespace State

theorem fresh_init (allow : Bool) (c : Nat) :
  (init allow c).Fresh
  := by
  constructor
  · intro p d hd
    cases hd
  · intro p p' d hd
    cases hd
  · intro p d hd
    cases hd
  · intro d hd
    exact hd
  · intro d hd
    obtain rfl : c = d := Option.some.inj hd
    exact List.mem_cons_self

namespace Fresh

variable {s s' : State} {p : Nat} {q : Proc}

section

variable (hs : s.Fresh)

include hs

/-- A goroutine goes on with the transport it brings, or without one. -/
theorem turn (h : s.Turns p s') :
  s'.Fresh
  := by
  have hoffers : ∀ p' c, (s'.proc p').offers = some c → (s.proc p').offers = some c := by
    intro p' c hc
    obtain ⟨q, hproc, hq⟩ := h.proc
    rw [hproc] at hc
    by_cases heq : p' = p
    · subst heq
      rw [Function.update_self] at hc
      rcases hq with hq | hq
      · rwa [hq] at hc
      · rw [hq] at hc
        contradiction
    · rwa [Function.update_of_ne heq] at hc
  constructor
  · intro p' c hc
    rw [h.offered]
    exact hs.offered p' c (hoffers p' c hc)
  · intro p₁ p₂ c h₁ h₂
    exact hs.distinct p₁ p₂ c (hoffers p₁ c h₁) (hoffers p₂ c h₂)
  · intro p' c hc
    rw [h.attached]
    exact hs.unattached p' c (hoffers p' c hc)
  · rw [h.attached, h.offered]
    exact hs.attached
  · intro c hc
    rw [h.attached]
    rcases h.conn with hconn | hconn
    · exact hs.conn c (hconn ▸ hc)
    · rw [hconn] at hc
      contradiction

/-- A goroutine attaches the transport it brings. -/
theorem attach {r : Resumer} {c : Nat} (hp : s.proc p = .attaching r c) :
  (s.attach p r c).Fresh
  := by
  have hc : (s.proc p).offers = some c := by
    rw [hp]
    rfl
  have hattached := attached_attach p r c s
  have hoffers : ∀ p' d, ((s.attach p r c).proc p').offers = some d →
      p' ≠ p ∧ (s.proc p').offers = some d := by
    intro p' d hd
    by_cases heq : p' = p
    · subst heq
      simp [State.attach, setProc, Proc.offers] at hd
    · simp only [State.attach, setProc, Function.update_of_ne heq] at hd
      exact ⟨heq, hd⟩
  constructor
  · intro p' d hd
    exact hs.offered p' d (hoffers p' d hd).2
  · intro p₁ p₂ d h₁ h₂
    exact hs.distinct p₁ p₂ d (hoffers p₁ d h₁).2 (hoffers p₂ d h₂).2
  · intro p' d hd
    obtain ⟨hne, hd'⟩ := hoffers p' d hd
    rw [hattached, List.mem_append, List.mem_singleton]
    rintro (hmem | rfl)
    · exact hs.unattached p' d hd' hmem
    · exact hne (hs.distinct p' p d hd' hc)
  · intro d hd
    rw [hattached, List.mem_append, List.mem_singleton] at hd
    rcases hd with hd | rfl
    · exact hs.attached d hd
    · exact hs.offered p d hc
  · intro d hd
    obtain rfl : c = d := Option.some.inj hd
    rw [hattached]
    exact List.mem_append_right _ List.mem_cons_self

/-- A goroutine is started with a transport that has not been used before. -/
theorem offer {c : Nat} (hq : q.offers = some c) (hoffer : s.offer p c q = some s') :
  s'.Fresh
  := by
  unfold State.offer at hoffer
  obtain ⟨hnew, hstart⟩ := Option.ite_none_left_eq_some.mp hoffer
  obtain ⟨hidle, hs'⟩ := Option.ite_none_right_eq_some.mp hstart
  obtain rfl := Option.some.inj hs'
  have hoffers : ∀ p' d, (Function.update s.proc p q p').offers = some d →
      (p' = p ∧ d = c) ∨ (s.proc p').offers = some d := by
    intro p' d hd
    by_cases heq : p' = p
    · subst heq
      rw [Function.update_self, hq] at hd
      exact .inl ⟨rfl, (Option.some.inj hd).symm⟩
    · rw [Function.update_of_ne heq] at hd
      exact .inr hd
  constructor
  · intro p' d hd
    simp only [setProc, List.mem_append, List.mem_singleton]
    rcases hoffers p' d hd with ⟨-, rfl⟩ | hd
    · exact .inr rfl
    · exact .inl (hs.offered p' d hd)
  · intro p₁ p₂ d h₁ h₂
    rcases hoffers p₁ d h₁ with ⟨hp₁, hd⟩ | h₁'
    · rcases hoffers p₂ d h₂ with ⟨hp₂, -⟩ | h₂'
      · rw [hp₁, hp₂]
      · exact absurd (hs.offered p₂ d h₂') (hd ▸ hnew)
    · rcases hoffers p₂ d h₂ with ⟨-, hd⟩ | h₂'
      · exact absurd (hs.offered p₁ d h₁') (hd ▸ hnew)
      · exact hs.distinct p₁ p₂ d h₁' h₂'
  · intro p' d hd hmem
    rcases hoffers p' d hd with ⟨-, rfl⟩ | hd
    · exact hnew (hs.attached d hmem)
    · exact hs.unattached p' d hd hmem
  · intro d hd
    exact List.mem_append_left _ (hs.attached d hd)
  · exact hs.conn

/-- A step of a goroutine. -/
theorem advance {ok : Bool} (h : s.advance p ok = some s') :
  s'.Fresh
  := by
  rcases advance_cases h with hturns | ⟨r, c, hp, -, rfl⟩
  · exact hs.turn hturns
  · exact hs.attach hp

/-- A goroutine is started without a transport. -/
theorem start (hq : q.offers = none) (h : s.start p q = some s') :
  s'.Fresh
  := by
  obtain ⟨-, rfl⟩ := Run.guard h
  exact hs.turn (turns_setProc (.inr hq))

theorem step {e : Event} (h : s.step e = some s') :
  s'.Fresh
  := by
  cases e with
  | report p failed => exact hs.start rfl h
  | write p =>
      obtain ⟨w, -, h⟩ := Option.bind_eq_some_iff.mp h
      exact hs.start rfl h
  | handshake p n c | dial p c => exact hs.offer rfl h
  | close p =>
      dsimp only [State.step] at h
      split at h
      · exact hs.start rfl h
      · have hclosed : Fresh { s with closed := true } :=
          ⟨hs.offered, hs.distinct, hs.unattached, hs.attached, hs.conn⟩
        exact hclosed.start rfl h
  | advance p ok => exact hs.advance h
  | fire e | check e =>
      obtain ⟨-, rfl⟩ := Run.guard h
      exact ⟨hs.offered, hs.distinct, hs.unattached, hs.attached, hs.conn⟩

end

end Fresh

/-- A transport has been attached, and is not attached any more. -/
def Replaced (c : Nat) (s : State) : Prop :=
  c ∈ s.attached ∧ s.conn ≠ some c

/-- A transport that has been dropped or replaced stays so. -/
theorem Replaced.step {s s' : State} {e : Event} {c : Nat} (hc : s.Replaced c) (hfresh : s.Fresh)
    (h : s.step e = some s') :
  s'.Replaced c
  := by
  rcases step_cases h with hkeeps | ⟨p, ok, r, d, -, hp, rfl⟩
  · refine ⟨hkeeps.attached ▸ hc.1, ?_⟩
    rcases hkeeps.conn with hconn | hconn
    · exact hconn ▸ hc.2
    · simp [hconn]
  · refine ⟨attached_attach p r d s ▸ List.mem_append_left _ hc.1, ?_⟩
    have hnew : d ∉ s.attached := by
      apply hfresh.unattached p
      rw [hp]
      rfl
    rintro heq
    exact hnew (Option.some.inj heq ▸ hc.1)

end State

end Transport

end Muxocket
