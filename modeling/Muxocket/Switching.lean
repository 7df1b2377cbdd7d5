import Muxocket.Transport

/-!
# Switching transports

While nobody holds the lock of the transport, a session is suspended exactly if it has no
transport, and the writer has the same transport as the session.  Between two steps of a
goroutine that holds the lock this may fail, but what is the case then is known from where the
goroutine is.

The writer, after a failed write, looks at its transport without the lock and takes away the one
that failed.  It never does: by then that transport has been dropped or replaced, and a transport
is not attached twice.
-/

namespace Muxocket

namespace Transport

namespace State

/-- A transport has been dropped or replaced, and the writer does not have it. -/
def Gone (w : Nat) (s : State) : Prop :=
  w ∈ s.attached ∧ s.conn ≠ some w ∧ s.writerConn ≠ some w

/-- Unless the transport has changed since the epoch `e`, the session is suspended. -/
def Graced (e : Nat) (s : State) : Prop :=
  e ≤ s.connEpoch ∧ (e = s.connEpoch → s.conn = none ∧ s.suspended = true)

/-- What is known of the transport from where a goroutine is. -/
def Ok (s : State) (p : Nat) : Proc → Prop
  | .reporting (.writer w) => w ∈ s.attached
  | .locking (.writer w) => w ∈ s.attached
  | .muting k _ e =>
      s.connMu = some p ∧ s.conn = none ∧ e = s.connEpoch
        ∧ ∀ w, k = .writer w → w ∈ s.attached
  | .suspending k _ e =>
      s.connMu = some p ∧ s.conn = none ∧ s.writerConn = none ∧ e = s.connEpoch
        ∧ ∀ w, k = .writer w → w ∈ s.attached
  | .hangingUp k _ e => s.Graced e ∧ ∀ w, k = .writer w → s.Gone w
  | .writing w => w ∈ s.attached
  | .rechecking w => s.Gone w
  | .clearing w => s.Gone w
  | .rewiring _ c _ => s.connMu = some p ∧ s.conn = some c
  | .waking _ c _ => s.connMu = some p ∧ s.conn = some c ∧ s.writerConn = some c
  | _ => True

/-- The transport of an open session is in order. -/
structure Switches (s : State) : Prop where
  allow : s.allowConnectionResumption = true
  opened : s.closed = false
  epoch : s.connEpoch = s.history.length
  free : s.connMu = none → s.suspended = s.conn.isNone ∧ s.writerConn = s.conn
  writer : ∀ w, s.writerConn = some w → w ∈ s.attached
  procs : ∀ p, s.Ok p (s.proc p)
  timers : ∀ e, s.timer e ≠ .off → s.Graced e

theorem switches_init (c : Nat) :
  (init true c).Switches
  where
  allow := rfl
  opened := rfl
  epoch := rfl
  free := fun _ => ⟨rfl, rfl⟩
  writer := by
    intro w hw
    obtain rfl : c = w := Option.some.inj hw
    exact List.mem_cons_self
  procs := fun _ => trivial
  timers := fun _ h => absurd rfl h

section

variable {s s' : State} {p : Nat} {q : Proc}

/-- What is known from where a goroutine is stays true when another holds the lock or takes
it. -/
theorem Ok.other {p' : Nat} (h : s.Ok p' q) (hne : p' ≠ p)
    (hlock : s.connMu = none ∨ s.connMu = some p) (hattached : ∀ c ∈ s.attached, c ∈ s'.attached)
    (hgraced : ∀ e, s.Graced e → s'.Graced e) (hgone : ∀ w, s.Gone w → s'.Gone w) :
  s'.Ok p' q
  := by
  have hfree : s.connMu ≠ some p' := by
    rcases hlock with hlock | hlock
    · simp [hlock]
    · simpa [hlock] using Ne.symm hne
  cases q with
  | reporting k | locking k =>
      cases k with
      | reader _ => trivial
      | writer w => exact hattached w h
  | writing w => exact hattached w h
  | muting _ _ _ | suspending _ _ _ | rewiring _ _ _ | waking _ _ _ => exact absurd h.1 hfree
  | hangingUp k old e => exact ⟨hgraced e h.1, fun w hw => hgone w (h.2 w hw)⟩
  | rechecking w | clearing w => exact hgone w h
  | _ => trivial

namespace Switches

/-- A goroutine goes on and changes nothing. -/
theorem turn (hs : s.Switches) (hq : s.Ok p q) :
  (s.setProc p q).Switches
  where
  allow := hs.allow
  opened := hs.opened
  epoch := hs.epoch
  free := hs.free
  writer := hs.writer
  procs := (Function.forall_update_iff s.proc fun p' q' => s.Ok p' q').mpr
    ⟨hq, fun p' _ => hs.procs p'⟩
  timers := hs.timers

/-- A goroutine that holds the lock, or takes it, goes on. -/
theorem change (hs : s.Switches) (hproc : s'.proc = Function.update s.proc p q)
    (hallow : s'.allowConnectionResumption = s.allowConnectionResumption)
    (hclosed : s'.closed = s.closed) (htimer : s'.timer = s.timer)
    (hepoch : s'.connEpoch = s'.history.length)
    (hlock : s.connMu = none ∨ s.connMu = some p)
    (hfree : s'.connMu = none → s'.suspended = s'.conn.isNone ∧ s'.writerConn = s'.conn)
    (hwriter : ∀ w, s'.writerConn = some w → w ∈ s'.attached)
    (hattached : ∀ c ∈ s.attached, c ∈ s'.attached)
    (hgraced : ∀ e, s.Graced e → s'.Graced e) (hgone : ∀ w, s.Gone w → s'.Gone w)
    (hself : s'.Ok p q) :
  s'.Switches
  := by
  refine ⟨hallow ▸ hs.allow, hclosed ▸ hs.opened, hepoch, hfree, hwriter, ?_, ?_⟩
  · rw [hproc, Function.forall_update_iff s.proc fun p' q' => s'.Ok p' q']
    exact ⟨hself, fun p' hne => (hs.procs p').other hne hlock hattached hgraced hgone⟩
  · intro e he
    rw [htimer] at he
    exact hgraced e (hs.timers e he)

variable {k : Caller} {c e : Nat} {r : Resumer}

/-- The return of `handleDisconnect`. -/
theorem ok_back (hk : ∀ w, k = .writer w → s.Gone w) :
  s.Ok p k.back
  := by
  cases k with
  | reader _ => trivial
  | writer w => exact hk w rfl

section

variable (hs : s.Switches)

include hs

theorem locking (hp : s.proc p = .locking k) (hlock : s.connMu = none) :
  (s.drop p k).Switches
  := by
  have hattached : ∀ w, k = .writer w → w ∈ s.attached := by
    rintro w rfl
    have hok := hs.procs p
    rwa [hp] at hok
  obtain ⟨hsuspended, hwriter⟩ := hs.free hlock
  unfold drop
  split
  · rename_i hnone
    apply hs.turn (ok_back _)
    intro w hw
    refine ⟨hattached w hw, ?_, ?_⟩ <;> simp [hwriter, hnone]
  · rename_i old hold
    split
    · rename_i hstale
      apply hs.turn (ok_back _)
      rintro w rfl
      have hne : some old ≠ some w := Ne.symm hstale.2
      exact ⟨hattached w rfl, hold ▸ hne, hwriter ▸ hold ▸ hne⟩
    · have hsame : State.attached
          { s with history := s.history ++ [Change.drop old] } = s.attached := by
        simp [State.attached]
      refine hs.change rfl rfl rfl rfl ?_ (.inl hlock) ?_ ?_ ?_ ?_ ?_ ?_
      · simp [setProc, hs.epoch]
      · simp [setProc]
      · intro w hw
        exact hsame ▸ hs.writer w hw
      · intro c hc
        exact hsame ▸ hc
      · intro e he
        refine ⟨Nat.le_succ_of_le he.1, ?_⟩
        intro heq
        exact absurd he.1 (heq ▸ Nat.not_succ_le_self _)
      · intro w hw
        refine ⟨hsame ▸ hw.1, ?_, hw.2.2⟩
        simp [setProc]
      · exact ⟨rfl, rfl, rfl, fun w hw => hsame ▸ hattached w hw⟩

theorem muting {old : Nat} (hp : s.proc p = .muting k old e) :
  ({ s with writerConn := none }.setProc p (.suspending k old e)).Switches
  := by
  have hok := hs.procs p
  rw [hp] at hok
  obtain ⟨hlock, hconn, he, hk⟩ := hok
  refine hs.change rfl rfl rfl rfl hs.epoch (.inr hlock) ?_ ?_ (fun c hc => hc)
    (fun e he => he) ?_ ?_
  · intro h
    rw [setProc, hlock] at h
    contradiction
  · intro w hw
    contradiction
  · intro w hw
    exact ⟨hw.1, hw.2.1, by simp [setProc]⟩
  · exact ⟨hlock, hconn, rfl, he, hk⟩

theorem suspending {old : Nat} (hp : s.proc p = .suspending k old e) :
  ({ s with suspended := true, connMu := none }.setProc p (.hangingUp k old e)).Switches
  := by
  have hok := hs.procs p
  rw [hp] at hok
  obtain ⟨hlock, hconn, hwriter, he, hk⟩ := hok
  refine hs.change rfl rfl rfl rfl hs.epoch (.inr hlock) ?_ hs.writer (fun c hc => hc) ?_
    (fun w hw => hw) ?_
  · intro _
    simp [setProc, hconn, hwriter]
  · intro e' he'
    exact ⟨he'.1, fun heq => ⟨(he'.2 heq).1, rfl⟩⟩
  · refine ⟨⟨Nat.le_of_eq he, fun _ => ⟨hconn, rfl⟩⟩, ?_⟩
    intro w hw
    refine ⟨hk w hw, ?_, ?_⟩ <;> simp [setProc, hconn, hwriter]

theorem attaching (hfresh : s.Fresh) (hp : s.proc p = .attaching r c) (hlock : s.connMu = none) :
  (s.attach p r c).Switches
  := by
  have hnew : c ∉ s.attached := by
    apply hfresh.unattached p
    rw [hp]
    rfl
  have hmore : ∀ d ∈ s.attached, d ∈ (s.attach p r c).attached := by
    intro d hd
    rw [attached_attach]
    exact List.mem_append_left _ hd
  refine hs.change rfl rfl rfl rfl ?_ (.inl hlock) (fun h => nomatch h) ?_ hmore ?_ ?_ ?_
  · simp [State.attach, setProc, hs.epoch]
  · intro w hw
    exact hmore w (hs.writer w hw)
  · intro e he
    refine ⟨Nat.le_succ_of_le he.1, ?_⟩
    intro heq
    exact absurd he.1 (heq ▸ Nat.not_succ_le_self _)
  · intro w hw
    refine ⟨hmore w hw.1, ?_, hw.2.2⟩
    intro heq
    exact hnew (Option.some.inj heq ▸ hw.1)
  · exact ⟨rfl, rfl⟩

theorem rewiring (hfresh : s.Fresh) {old : Option Nat} (hp : s.proc p = .rewiring r c old) :
  ({ s with writerConn := some c }.setProc p (.waking r c old)).Switches
  := by
  have hok := hs.procs p
  rw [hp] at hok
  obtain ⟨hlock, hconn⟩ := hok
  refine hs.change rfl rfl rfl rfl hs.epoch (.inr hlock) ?_ ?_ (fun c hc => hc)
    (fun e he => he) ?_ ?_
  · intro h
    rw [setProc, hlock] at h
    contradiction
  · intro w hw
    obtain rfl : c = w := Option.some.inj hw
    exact hfresh.conn c hconn
  · intro w hw
    exact ⟨hw.1, hw.2.1, fun heq => hw.2.1 (hconn.trans heq)⟩
  · exact ⟨hlock, hconn, rfl⟩

theorem waking {old : Option Nat} (hp : s.proc p = .waking r c old) :
  ({ s with suspended := false, connMu := none }.setProc p (.replacing r c old)).Switches
  := by
  have hok := hs.procs p
  rw [hp] at hok
  obtain ⟨hlock, hconn, hwriter⟩ := hok
  refine hs.change rfl rfl rfl rfl hs.epoch (.inr hlock) ?_ hs.writer (fun c hc => hc) ?_
    (fun w hw => hw) trivial
  · intro _
    simp [setProc, hconn, hwriter]
  · intro e he
    refine ⟨he.1, ?_⟩
    intro heq
    have hnone := (he.2 heq).1
    rw [hconn] at hnone
    contradiction

/-- The timers are set, or go on. -/
theorem of_timer {timer : Nat → Timer} (htimer : ∀ e, timer e ≠ .off → s.Graced e) :
  Switches { s with timer := timer }
  := ⟨hs.allow, hs.opened, hs.epoch, hs.free, hs.writer, hs.procs, htimer⟩

/-- The nonces and the transports that are closed do not matter. -/
theorem of_rest (known : Bool) (nonce : Nat) (shut : List Nat) (accepted : List (Nat × Nat)) :
  Switches { s with known := known, nonce := nonce, shut := shut, accepted := accepted }
  := ⟨hs.allow, hs.opened, hs.epoch, hs.free, hs.writer, hs.procs, hs.timers⟩

theorem advance (hfresh : s.Fresh) {ok : Bool} (h : s.advance p ok = some s') :
  s'.Switches
  := by
  have hok := hs.procs p
  unfold State.advance at h
  cases hp : s.proc p with rw [hp] at h hok
  | idle | resumed _ _ | done => contradiction
  | reporting k =>
      cases h
      apply hs.turn
      rw [if_neg (by simp [hs.opened, hs.allow])]
      cases k with
      | reader _ => trivial
      | writer w => exact hok
  | writing w =>
      cases h
      apply hs.turn
      split
      · trivial
      · exact hok
  | rechecking w =>
      cases h
      apply hs.turn
      rw [if_neg hok.2.2]
      trivial
  | clearing w =>
      cases h
      rw [if_neg hok.2.2]
      exact hs.turn trivial
  | looking _ _ | screening _ _ | loading _ _ | answering _ _ | dialing _ | exchanging _
  | confirming _ =>
      cases h
      apply hs.turn
      split <;> trivial
  | locking k =>
      obtain ⟨hlock, rfl⟩ := Run.guard h
      exact hs.locking hp hlock
  | muting k old e =>
      cases h
      exact hs.muting hp
  | suspending k old e =>
      cases h
      exact hs.suspending hp
  | hangingUp k old e =>
      cases h
      have hset : ∀ e', Function.update s.timer e .armed e' ≠ .off → s.Graced e' := by
        rw [Function.forall_update_iff s.timer fun e' t => t ≠ .off → s.Graced e']
        exact ⟨fun _ => hok.1, fun e' _ => hs.timers e'⟩
      exact ((hs.of_timer hset).of_rest _ _ _ _).turn (ok_back hok.2)
  | swapping n c cur =>
      cases h
      unfold compareAndSwap
      split
      · exact (hs.of_rest _ _ _ _).turn trivial
      · exact hs.turn trivial
  | refusing c =>
      cases h
      exact (hs.of_rest _ _ _ _).turn trivial
  | attaching r c =>
      obtain ⟨hlock, rfl⟩ := Run.guard h
      exact hs.attaching hfresh hp hlock
  | rewiring r c old =>
      cases h
      exact hs.rewiring hfresh hp
  | waking r c old =>
      cases h
      exact hs.waking hp
  | replacing r c old =>
      cases h
      obtain ⟨shut, hshut⟩ := replace_eq c old s
      rw [hshut]
      exact (hs.of_rest _ _ shut _).turn trivial
  | closing =>
      obtain ⟨-, rfl⟩ := Run.guard h
      obtain ⟨shut, hshut⟩ := sealConn_eq s
      rw [hshut]
      exact (hs.of_rest _ _ shut _).turn trivial
  | forgetting =>
      cases h
      exact (hs.of_rest _ _ _ _).turn trivial

theorem start (h : s.start p q = some s') (hq : s.Ok p q) :
  s'.Switches
  := by
  obtain ⟨-, rfl⟩ := Run.guard h
  exact hs.turn hq

theorem offer (h : s.offer p c q = some s') (hq : ∀ s : State, s.Ok p q) :
  s'.Switches
  := by
  obtain ⟨-, h⟩ := Option.ite_none_left_eq_some.mp h
  have hoffered : Switches { s with offered := s.offered ++ [c] } :=
    ⟨hs.allow, hs.opened, hs.epoch, hs.free, hs.writer, hs.procs, hs.timers⟩
  exact hoffered.start h (hq _)

theorem timer_update (he : s.timer e ≠ .off) (t : Timer) :
  Switches { s with timer := Function.update s.timer e t }
  := by
  apply hs.of_timer
  rw [Function.forall_update_iff s.timer fun e' t => t ≠ .off → s.Graced e']
  exact ⟨fun _ => hs.timers e he, fun e' _ => hs.timers e'⟩

end

end Switches

end

/-- An event of a session that nobody closes. -/
def StaysOpen (_ : State) : Event → Prop
  | .close _ => False
  | _ => True

instance (s : State) (e : Event) : Decidable (s.StaysOpen e) :=
  match e with
  | .close _ => .isFalse id
  | .report .. | .write _ | .handshake .. | .dial .. | .advance .. | .fire _ | .check _ =>
      .isTrue trivial

variable {s s' : State}

theorem Switches.step {e : Event} (hs : s.Switches) (hfresh : s.Fresh) (hopen : s.StaysOpen e)
    (h : s.step e = some s') :
  s'.Switches
  := by
  cases e with
  | report p failed => exact hs.start h trivial
  | write p =>
      obtain ⟨w, hw, h⟩ := Option.bind_eq_some_iff.mp h
      exact hs.start h (hs.writer w hw)
  | handshake p n c | dial p c => exact hs.offer h fun _ => trivial
  | close p => exact hopen.elim
  | advance p ok => exact hs.advance hfresh h
  | fire e | check e =>
      obtain ⟨he, rfl⟩ := Run.guard h
      exact hs.timer_update (by simp [he]) _

/-- The transport is in order along every run of an open session. -/
theorem switches_of_run {c : Nat} (hrun : Run step StaysOpen (init true c) s) :
  s.Switches ∧ s.Fresh
  := by
  apply Run.invariant (I := fun s => s.Switches ∧ s.Fresh) _ hrun
  · exact ⟨switches_init c, fresh_init true c⟩
  · intro s e s' hs hopen h
    exact ⟨hs.1.step hs.2 hopen h, hs.2.step h⟩

/-- The epoch never goes back, and counts every change of the transport. -/
theorem connEpoch_step {e : Event} (h : s.step e = some s') :
  s.connEpoch ≤ s'.connEpoch
    ∧ (s'.conn ≠ s.conn ∨ s'.history ≠ s.history → s.connEpoch < s'.connEpoch)
  := by
  rcases step_cases h with hkeeps | ⟨p, ok, r, c, -, -, rfl⟩
  · rcases hkeeps.change with ⟨hconn, hhistory, hepoch⟩ | ⟨old, -, -, -, hepoch⟩
    · simp [hconn, hhistory, hepoch]
    · simp [hepoch]
  · simp [attach, setProc]

theorem connEpoch_le_of_run {P : State → Event → Prop} (hrun : Run step P s s') :
  s.connEpoch ≤ s'.connEpoch
  := by
  apply Run.invariant (I := fun t => s.connEpoch ≤ t.connEpoch) _ hrun (Nat.le_refl _)
  intro t e t' ht _ h
  exact Nat.le_trans ht (connEpoch_step h).1

end State

/-- The transport whose failure a goroutine is about to report, or has reported. -/
def Proc.notice : Proc → Option Nat
  | .reporting k => k.failed
  | .locking k => k.failed
  | .rechecking w => some w
  | .clearing w => some w
  | _ => none

namespace State

/-- A failure notice for a transport that has been replaced changes nothing. -/
theorem Switches.notice {s s' : State} {p c : Nat} {ok : Bool} (hs : s.Switches)
    (hnotice : (s.proc p).notice = some c) (hc : s.Replaced c) (h : s.advance p ok = some s') :
  ∃ q, s' = s.setProc p q ∧ (q.notice = some c ∨ q = .done)
  := by
  have hback : ∀ k : Caller, k.failed = some c → k.back.notice = some c ∨ k.back = .done := by
    intro k hk
    cases k with
    | reader _ => exact .inr rfl
    | writer w => exact .inl hk
  have hok := hs.procs p
  unfold State.advance at h
  cases hp : s.proc p with rw [hp] at h hok hnotice
  | reporting k =>
      refine ⟨_, (Option.some.inj h).symm, ?_⟩
      split
      · exact hback k hnotice
      · exact .inl hnotice
  | locking k =>
      obtain ⟨hlock, h⟩ := Option.ite_none_right_eq_some.mp h
      have hfailed : k.failed = some c := hnotice
      refine ⟨k.back, ?_, hback k hfailed⟩
      rw [← Option.some.inj h]
      unfold drop
      split
      · rfl
      · rename_i old hold
        rw [if_pos]
        rw [hfailed, ← hold]
        exact ⟨rfl, Ne.symm hc.2⟩
  | rechecking w =>
      refine ⟨_, (Option.some.inj h).symm, .inr ?_⟩
      rw [if_neg hok.2.2]
  | clearing w =>
      refine ⟨.done, ?_, .inr rfl⟩
      rw [← Option.some.inj h, if_neg hok.2.2]
  | _ => contradiction

/-- Switching transports is consistent.  In every state of a run of an open session that was
created on a transport: if nobody is changing the transport, the session is suspended exactly
if it has none, and the writer has the same; a step of a goroutine that reports the failure of
a transport that has been replaced changes nothing, and the transport stays replaced; the epoch
is greater after every change of the transport; and if a grace timer has been started and its
test succeeds later on, the session is suspended, without a transport, and in the epoch of the
timer. -/
theorem switching_consistent {c : Nat} {s : State} (hrun : Run step StaysOpen (init true c) s) :
  (s.connMu = none → (s.suspended ↔ s.conn = none) ∧ s.writerConn = s.conn)
    ∧ (∀ d, s.Replaced d →
      (∀ p ok s', (s.proc p).notice = some d → s.step (.advance p ok) = some s' →
        ∃ q, s' = s.setProc p q ∧ (q.notice = some d ∨ q = .done))
      ∧ ∀ e s', s.step e = some s' → s'.Replaced d)
    ∧ (∀ e s', s.step e = some s' → s.connEpoch ≤ s'.connEpoch
      ∧ (s'.conn ≠ s.conn ∨ s'.history ≠ s.history → s.connEpoch < s'.connEpoch))
    ∧ ∀ e s₁ s₂, s.timer e ≠ .off → Run step StaysOpen s s₁ →
      s₁.step (.check e) = some s₂ → s₂.timer e = .expired →
      s.suspended ∧ s.conn = none ∧ s.connEpoch = e
  := by
  obtain ⟨hs, hfresh⟩ := switches_of_run hrun
  refine ⟨?_, ?_, fun e s' => connEpoch_step, ?_⟩
  · intro hlock
    obtain ⟨hsuspended, hwriter⟩ := hs.free hlock
    rw [hsuspended, Option.isNone_iff_eq_none]
    exact ⟨Iff.rfl, hwriter⟩
  · intro d hd
    exact ⟨fun p ok s' hnotice h => hs.notice hnotice hd h, fun e s' h => hd.step hfresh h⟩
  · intro e s₁ s₂ hset hlater hcheck hexpired
    obtain ⟨-, rfl⟩ := Run.guard hcheck
    have hepoch : s₁.connEpoch = e := by
      by_contra hne
      simp [hne] at hexpired
    obtain ⟨hle, hgraced⟩ := hs.timers e hset
    have heq : e = s.connEpoch := by
      have hmono := connEpoch_le_of_run hlater
      omega
    obtain ⟨hconn, hsuspended⟩ := hgraced heq
    exact ⟨hsuspended, hconn, heq.symm⟩

/-- A transport fails, and a handshake of the listener brings another. -/
theorem switching_consistent_resumed :
  ∃ s, Run step StaysOpen (init true 0) s ∧ (s.connMu = none ∧ s.conn = some 5 ∧ s.connEpoch = 2)
    ∧ ¬ s.suspended ∧ s.writerConn = some 5
  := by
  obtain ⟨s, hrun, hlock, hconn, hepoch⟩ := Run.exists_of_exec step StaysOpen (init true 0)
    (List.flatten [[.report 0 (some 0)], List.replicate 5 (.advance 0 true), [.handshake 1 1 5],
      List.replicate 9 (.advance 1 true)])
    (fun s => s.connMu = none ∧ s.conn = some 5 ∧ s.connEpoch = 2) (by decide +kernel)
  obtain ⟨hsuspended, hwriter⟩ := (switching_consistent hrun).1 hlock
  refine ⟨s, hrun, ⟨hlock, hconn, hepoch⟩, ?_, hwriter.trans hconn⟩
  rw [hsuspended, hconn]
  simp

end State

end Transport

end Muxocket
