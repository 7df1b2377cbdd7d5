import Muxocket.Lib.Run
import Muxocket.WriteScheduler

/-!
# Coalescing window updates

Readers count what they consume in a window and hand it to the writer, which sends it in
window updates.  Both work on the atomic fields of the window without a lock.  A call of
`OnRead` adds to `consumed`; when the threshold is reached it takes all of `consumed`, adds
it to `unflushed`, and queues an update if it can set `updPending`.  The writer takes an
update from its queue, takes all of `unflushed`, resets `updPending` and sends the update.

Here every one of these atomic operations is a step of its own, for any number of readers
and one writer of a session that is open.  The writer empties `unflushed` before it resets
`updPending`, so a reader whose turn comes in between finds an update pending that will not
carry its credit.  Credit is left behind by no run in which this does not happen.
-/

namespace Muxocket

namespace Coalesce

/-- Where a reader is in its call. -/
inductive ReaderPc where
  | idle
  /-- The threshold has been reached, `consumed` is taken next. -/
  | swap
  /-- The credit taken is added to `unflushed` next. -/
  | accumulate (curr : Int)
  /-- `updPending` is set next, unless it is set already. -/
  | cas
  /-- The update is queued next. -/
  | enqueue
deriving DecidableEq, Repr

/-- Where the writer is with an update. -/
inductive WriterPc where
  | idle
  /-- `unflushed` is taken next. -/
  | swap
  /-- `updPending` is reset next. -/
  | store (delta : Int)
  /-- The update is sent next, if it carries any credit. -/
  | emit (delta : Int)
deriving DecidableEq, Repr

/-- A window with its readers, its writer, the number of its updates that are queued and the
lengths of those that have been sent. -/
structure State (ι : Type) where
  flow : Flow
  reader : ι → ReaderPc
  writer : WriterPc
  queued : Nat
  emitted : List Int

/-- The atomic operations: those of reader `i`, which begins a call for `n` bytes with
`onRead`, and those of the writer. -/
inductive Action (ι : Type) where
  | onRead (i : ι) (n : Int)
  | swapConsumed (i : ι)
  | addUnflushed (i : ι)
  | cas (i : ι)
  | enqueue (i : ι)
  | dequeue
  | swapUnflushed
  | storePending
  | emit

variable {ι : Type} [DecidableEq ι]

namespace State

/-- A new window, with nothing going on. -/
def init (initialWindow : Int) : State ι where
  flow := .new initialWindow
  reader _ := .idle
  writer := .idle
  queued := 0
  emitted := []

/-- Reader `i` goes on to `pc`. -/
def goto (i : ι) (pc : ReaderPc) (s : State ι) : State ι :=
  { s with reader := Function.update s.reader i pc }

/-- What becomes of a window by an atomic operation, if its turn can come. -/
def step (s : State ι) : Action ι → Option (State ι)
  | .onRead i n =>
      if s.reader i = .idle then
        let flow := s.flow.consume n
        some ({ s with flow := flow }.goto i
          (if flow.threshold ≤ flow.consumed then .swap else .idle))
      else none
  | .swapConsumed i =>
      if s.reader i = .swap then
        some ({ s with flow := { s.flow with consumed := 0 } }.goto i
          (if s.flow.consumed ≤ 0 then .idle else .accumulate s.flow.consumed))
      else none
  | .addUnflushed i =>
      match s.reader i with
      | .accumulate curr =>
          some ({ s with flow := { s.flow with unflushed := int32 (s.flow.unflushed + curr) } }.goto
            i .cas)
      | _ => none
  | .cas i =>
      if s.reader i = .cas then
        if s.flow.updPending then some (s.goto i .idle)
        else some ({ s with flow := { s.flow with updPending := true } }.goto i .enqueue)
      else none
  | .enqueue i =>
      if s.reader i = .enqueue then some ({ s with queued := s.queued + 1 }.goto i .idle)
      else none
  | .dequeue =>
      if s.writer = .idle ∧ 0 < s.queued then
        some { s with writer := .swap, queued := s.queued - 1 }
      else none
  | .swapUnflushed =>
      if s.writer = .swap then
        some { s with flow := { s.flow with unflushed := 0 }, writer := .store s.flow.unflushed }
      else none
  | .storePending =>
      match s.writer with
      | .store delta =>
          some { s with flow := { s.flow with updPending := false }, writer := .emit delta }
      | _ => none
  | .emit =>
      match s.writer with
      | .emit delta =>
          some { s with writer := .idle
                        emitted := if delta ≤ 0 then s.emitted else s.emitted ++ [delta] }
      | _ => none

/-- No call is in the middle of its steps, and no update is queued. -/
structure Quiescent (s : State ι) : Prop where
  reader : ∀ i, s.reader i = .idle
  writer : s.writer = .idle
  queued : s.queued = 0

/-- The writer has emptied `unflushed` and not yet reset `updPending`, while there is new
credit. -/
def overtaken (s : State ι) : Bool :=
  match s.writer with
  | .store _ => decide (s.flow.unflushed ≠ 0)
  | _ => false

/-- An operation that does not try to set `updPending` at such a moment. -/
def Timely (s : State ι) : Action ι → Prop
  | .cas _ => s.overtaken = false
  | _ => True

instance (s : State ι) (a : Action ι) : Decidable (s.Timely a) := by
  cases a <;> unfold Timely <;> infer_instance

/-- There is an update that the writer will give all of `unflushed`. -/
def Carried (s : State ι) : Prop :=
  (∃ i, s.reader i = .enqueue) ∨ 0 < s.queued ∨ s.writer = .swap

/-- Credit in `unflushed` is carried by an update, or a reader will see to that; and a
pending update has not been emptied, unless the writer is about to reset `updPending`. -/
structure Inv (s : State ι) : Prop where
  unflushed : s.flow.unflushed ≠ 0 → (∃ i, s.reader i = .cas) ∨ s.Carried
  pending : s.flow.updPending = true → s.Carried ∨ ∃ delta, s.writer = .store delta

omit [DecidableEq ι] in
theorem Carried.mono {s s' : State ι}
    (hreader : ∀ i, s.reader i = .enqueue → s'.reader i = .enqueue) (hqueued : s.queued ≤ s'.queued)
    (hwriter : s.writer = .swap → s'.writer = .swap) (hs : s.Carried) :
  s'.Carried
  := by
  rcases hs with ⟨i, hi⟩ | hpos | hswap
  · left
    exact ⟨i, hreader i hi⟩
  · right; left
    omega
  · right; right
    exact hwriter hswap

theorem goto_eq_of_ne {s : State ι} {i j : ι} {pc pc' : ReaderPc} (hj : s.reader j = pc')
    (hi : s.reader i ≠ pc') :
  (s.goto i pc).reader j = pc'
  := by
  have hne : j ≠ i := by
    rintro rfl
    contradiction
  simp [goto, hne, hj]

omit [DecidableEq ι] in
theorem inv_init (initialWindow : Int) :
  (init initialWindow : State ι).Inv
  := by
  constructor <;> simp [init, Flow.new]

/-- A reader that neither is about to set `updPending` nor about to queue an update may go
anywhere. -/
theorem Inv.goto {s : State ι} (hs : s.Inv) {i : ι} (hcas : s.reader i ≠ .cas)
    (henqueue : s.reader i ≠ .enqueue) (pc : ReaderPc) :
  (s.goto i pc).Inv
  := by
  have hcarried : s.Carried → (s.goto i pc).Carried :=
    Carried.mono (fun j hj => goto_eq_of_ne hj henqueue) le_rfl id
  constructor
  · intro hun
    rcases hs.unflushed hun with ⟨j, hj⟩ | hc
    · left
      exact ⟨j, goto_eq_of_ne hj hcas⟩
    · right
      exact hcarried hc
  · intro hpend
    rcases hs.pending hpend with hc | hstore
    · left
      exact hcarried hc
    · right
      exact hstore

/-- Every atomic operation keeps the invariant, unless it tries to set `updPending` when the
writer has been overtaken. -/
theorem inv_step {s s' : State ι} {a : Action ι} (hs : s.Inv) (ha : s.Timely a)
    (hstep : s.step a = some s') :
  s'.Inv
  := by
  cases a with
  | onRead i n =>
      simp only [step] at hstep
      split at hstep
      · rename_i hi
        cases hstep
        have hflow : ({ s with flow := s.flow.consume n } : State ι).Inv :=
          ⟨hs.unflushed, hs.pending⟩
        apply hflow.goto
        · simp [hi]
        · simp [hi]
      · contradiction
  | swapConsumed i =>
      simp only [step] at hstep
      split at hstep
      · rename_i hi
        cases hstep
        have hflow : ({ s with flow := { s.flow with consumed := 0 } } : State ι).Inv :=
          ⟨hs.unflushed, hs.pending⟩
        apply hflow.goto
        · simp [hi]
        · simp [hi]
      · contradiction
  | addUnflushed i =>
      simp only [step] at hstep
      split at hstep
      · rename_i curr hi
        cases hstep
        constructor
        · intro _
          left
          use i
          simp [State.goto]
        · apply (hs.goto _ _ _).pending
          · simp [hi]
          · simp [hi]
      · contradiction
  | cas i =>
      simp only [step] at hstep
      split at hstep
      · rename_i hi
        split at hstep
        · rename_i hpend
          cases hstep
          have hcarried : s.Carried → (s.goto i .idle).Carried :=
            Carried.mono (fun j hj => goto_eq_of_ne hj (by simp [hi])) le_rfl id
          constructor
          · intro hun
            right
            rcases hs.pending hpend with hc | hstore
            · exact hcarried hc
            · obtain ⟨delta, hdelta⟩ := hstore
              simp only [Timely, overtaken, hdelta, decide_eq_false_iff_not] at ha
              contradiction
          · intro _
            exact (hs.pending hpend).imp_left hcarried
        · cases hstep
          have hcarried : ({ s with flow := { s.flow with updPending := true } }.goto i
              .enqueue).Carried := by
            left
            use i
            simp [State.goto]
          exact ⟨fun _ => Or.inr hcarried, fun _ => Or.inl hcarried⟩
      · contradiction
  | enqueue i =>
      simp only [step] at hstep
      split at hstep
      · cases hstep
        have hcarried : ({ s with queued := s.queued + 1 }.goto i .idle).Carried := by
          right; left
          exact Nat.succ_pos _
        exact ⟨fun _ => Or.inr hcarried, fun _ => Or.inl hcarried⟩
      · contradiction
  | dequeue =>
      simp only [step] at hstep
      split at hstep
      · cases hstep
        have hcarried : ({ s with writer := .swap, queued := s.queued - 1 } : State ι).Carried :=
          Or.inr (Or.inr rfl)
        exact ⟨fun _ => Or.inr hcarried, fun _ => Or.inl hcarried⟩
      · contradiction
  | swapUnflushed =>
      simp only [step] at hstep
      split at hstep
      · cases hstep
        exact ⟨fun hun => absurd rfl hun, fun _ => Or.inr ⟨_, rfl⟩⟩
      · contradiction
  | storePending =>
      simp only [step] at hstep
      split at hstep
      · rename_i delta hw
        cases hstep
        constructor
        · intro hun
          apply (hs.unflushed hun).imp_right
          exact Carried.mono (fun _ h => h) le_rfl (by simp [hw])
        · intro hpend
          contradiction
      · contradiction
  | emit =>
      simp only [step] at hstep
      split at hstep
      · rename_i delta hw
        cases hstep
        have hcarried : s.Carried → ({ s with
            writer := .idle
            emitted := if delta ≤ 0 then s.emitted else s.emitted ++ [delta] } : State ι).Carried :=
          Carried.mono (fun _ h => h) le_rfl (by simp [hw])
        constructor
        · intro hun
          exact (hs.unflushed hun).imp_right hcarried
        · intro hpend
          rcases hs.pending hpend with hc | ⟨delta', hstore⟩
          · left
            exact hcarried hc
          · simp [hw] at hstore
      · contradiction

/-- No credit is left behind by a run all of whose attempts to set `updPending` are timely:
when no call is in the middle of its steps and no update is queued, nothing is unflushed. -/
theorem unflushed_eq_zero
    (initialWindow : Int) (s : State ι) (hrun : Run step Timely (init initialWindow) s)
    (hs : s.Quiescent) :
  s.flow.unflushed = 0
  := by
  have hinv : s.Inv := hrun.invariant (fun _ _ _ => inv_step) (inv_init initialWindow)
  by_contra hun
  rcases hinv.unflushed hun with ⟨i, hi⟩ | ⟨i, hi⟩ | hpos | hswap
  · simp [hs.reader i] at hi
  · simp [hs.reader i] at hi
  · simp [hs.queued] at hpos
  · simp [hs.writer] at hswap

/-- Two readers share one update: the second adds its credit before the update of the first is
queued, and the writer sends the credit of both. -/
theorem unflushed_eq_zero_two_readers :
  ∃ s : State Bool, Run step Timely (init 4) s ∧ s.emitted = [5] ∧ s.flow.unflushed = 0
  := by
  obtain ⟨s, hrun, htest⟩ := Run.exists_of_exec step Timely (init 4)
    [.onRead false 3, .swapConsumed false, .addUnflushed false, .cas false, .onRead true 2,
      .swapConsumed true, .addUnflushed true, .cas true, .enqueue false, .dequeue,
      .swapUnflushed, .storePending, .emit]
    (fun s => (∀ i, s.reader i = .idle) ∧ s.writer = .idle ∧ s.queued = 0 ∧ s.emitted = [5])
    (by decide)
  obtain ⟨hreader, hwriter, hqueued, hemitted⟩ := htest
  use s, hrun, hemitted
  exact unflushed_eq_zero 4 s hrun ⟨hreader, hwriter, hqueued⟩

/-- Credit left behind: a second call of a reader comes between the two operations of the
writer, and its byte stays in `unflushed` with no update to carry it. -/
theorem unflushed_ne_zero_second_call :
  ∃ s : State Unit, Run step (fun _ _ => True) (init 4) s ∧ s.Quiescent ∧ s.flow.unflushed ≠ 0
  := by
  obtain ⟨s, hrun, htest⟩ := Run.exists_of_exec step (fun _ _ => True) (init 4)
    [.onRead () 3, .swapConsumed (), .addUnflushed (), .cas (), .enqueue (), .dequeue,
      .swapUnflushed, .onRead () 1, .swapConsumed (), .addUnflushed (), .cas (), .storePending,
      .emit]
    (fun s => s.reader () = .idle ∧ s.writer = .idle ∧ s.queued = 0 ∧ s.flow.unflushed ≠ 0)
    (by decide)
  obtain ⟨hreader, hwriter, hqueued, hun⟩ := htest
  exact ⟨s, hrun, ⟨fun _ => hreader, hwriter, hqueued⟩, hun⟩

end State

/-! ### The operations without interruption

The rest of the development treats a call as one operation of the session.  Such an operation
is a run of the atomic ones. -/

/-- The number of queued updates of the session window. -/
def queuedUpdates (s : Session) : Nat :=
  s.ctrlQueue.countP (·.sessionFlow) + s.lateCtrl.countP (·.sessionFlow)

/-- The atomic state `c` has the session window of `s`, and as many updates queued. -/
structure Shows (c : State ι) (s : Session) : Prop where
  flow : c.flow = s.flow.toFlow
  queued : c.queued = queuedUpdates s

/-- The atomic operations of a reader that has reached the threshold, one after the other:
they move what has been consumed, and queue an update if none is pending. -/
theorem run_flushUpdate (c : State ι) {i : ι} (hi : c.reader i = .swap) :
  Run State.step (fun _ _ => True) c
    ({ c with flow := c.flow.flushUpdate,
              queued := c.queued + if c.flow.needsFrame then 1 else 0 }.goto i .idle)
  := by
  by_cases hpos : c.flow.consumed ≤ 0
  · have hrun : exec State.step (fun _ _ => True) c [.swapConsumed i]
        = some ({ c with flow := c.flow.flushUpdate }.goto i .idle) := by
      simp [exec, State.step, State.goto, hi, hpos, Flow.flushUpdate]
    have hneeds : c.flow.needsFrame = false := by
      simp [Flow.needsFrame, not_lt.mpr hpos]
    simpa [hneeds] using Run.of_exec hrun
  · by_cases hpend : c.flow.updPending = true
    · have hrun : exec State.step (fun _ _ => True) c [.swapConsumed i, .addUnflushed i, .cas i]
          = some ({ c with flow := c.flow.flushUpdate }.goto i .idle) := by
        simp [exec, State.step, State.goto, hi, hpos, hpend, Flow.flushUpdate]
      simpa [Flow.needsFrame, hpend] using Run.of_exec hrun
    · have hrun : exec State.step (fun _ _ => True) c
            [.swapConsumed i, .addUnflushed i, .cas i, .enqueue i]
          = some ({ c with flow := c.flow.flushUpdate, queued := c.queued + 1 }.goto i .idle) := by
        simp [exec, State.step, State.goto, hi, hpos, hpend, Flow.flushUpdate]
      have hneeds : c.flow.needsFrame = true := by
        simp only [Flow.needsFrame, Bool.and_eq_true, decide_eq_true_eq, Bool.not_eq_true']
        exact ⟨by omega, by simpa using hpend⟩
      simpa [hneeds] using Run.of_exec hrun

/-- An open session hands what has been consumed to an update as those operations do. -/
theorem flushSessionUpdate_eq (cfg : SessionConfig) {s : Session} (hopen : s.closed = false) :
  (s.flushSessionUpdate cfg).flow.toFlow = s.flow.flushUpdate
    ∧ queuedUpdates (s.flushSessionUpdate cfg)
      = queuedUpdates s + if s.flow.needsFrame then 1 else 0
  := by
  unfold Session.flushSessionUpdate Session.writeControlFrameNonBlocking queuedUpdates
  by_cases hneeds : s.flow.needsFrame
  · by_cases hroom : s.ctrlQueue.length < cfg.ctrlDepth
    · simp only [hneeds, hopen, hroom, if_true]
      grind
    · simp only [hneeds, hopen, hroom, if_true, if_false]
      grind
  · simp [hneeds]

/-- A complete call for the session window is a run of the atomic operations of a reader. -/
theorem run_sessionOnRead (cfg : SessionConfig) {s : Session} (hopen : s.closed = false)
    {c : State ι} (hc : Shows c s) {i : ι} (hi : c.reader i = .idle) (n : Int) :
  ∃ c', Run State.step (fun _ _ => True) c c' ∧ Shows c' (s.sessionOnRead cfg n)
    ∧ c'.reader = c.reader ∧ c'.writer = c.writer
  := by
  obtain ⟨hflow, hqueued⟩ := hc
  have hback : Function.update c.reader i .idle = c.reader := by
    rw [← hi, Function.update_eq_self]
  by_cases hthreshold : (s.flow.consume n).threshold ≤ (s.flow.consume n).consumed
  · have hfirst : c.step (.onRead i n)
        = some ({ c with flow := c.flow.consume n }.goto i .swap) := by
      simp [State.step, hi, hflow, hthreshold]
    have hrest := run_flushUpdate ({ c with flow := c.flow.consume n }.goto i .swap) (i := i)
      (by simp [State.goto])
    obtain ⟨hflow', hqueued'⟩ := flushSessionUpdate_eq cfg
      (s := { s with flow := { s.flow with toFlow := s.flow.consume n } }) hopen
    refine ⟨_, Run.head trivial hfirst hrest, ⟨?_, ?_⟩, ?_, rfl⟩
    · simp only [Session.sessionOnRead, hthreshold, if_true, hflow', State.goto, hflow]
    · simp only [Session.sessionOnRead, hthreshold, if_true, hqueued', State.goto, hflow, hqueued]
      rfl
    · simpa [State.goto] using hback
  · have hfirst : c.step (.onRead i n)
        = some ({ c with flow := c.flow.consume n }.goto i .idle) := by
      simp [State.step, hi, hflow, hthreshold]
    refine ⟨_, Run.head trivial hfirst (Run.refl _), ⟨?_, ?_⟩, hback, rfl⟩
    · simp only [Session.sessionOnRead, hthreshold, if_false, State.goto, hflow]
    · simp only [Session.sessionOnRead, hthreshold, if_false, State.goto, hqueued]
      rfl

/-- The writer resolves an update of the session window, when nothing comes in between, by a
run of its atomic operations. -/
theorem run_resolveSessionUpd {s : Session} {c : State ι} (hflow : c.flow = s.flow.toFlow)
    (hidle : c.writer = .idle) (hqueued : 0 < c.queued) {f : WriteFrame}
    (hf : f.sessionFlow = true) :
  ∃ c', Run State.step (fun _ _ => True) c c'
    ∧ c'.flow = (s.resolveSessionUpd f).2.flow.toFlow
    ∧ c'.emitted = c.emitted ++ ((s.resolveSessionUpd f).1.map fun f => (f.length : Int)).toList
    ∧ c'.queued = c.queued - 1 ∧ c'.reader = c.reader ∧ c'.writer = .idle
  := by
  have hrun : exec State.step (fun _ _ => True) c
        [.dequeue, .swapUnflushed, .storePending, .emit]
      = some { c with flow := c.flow.resolved, queued := c.queued - 1,
                      emitted := if c.flow.unflushed ≤ 0 then c.emitted
                        else c.emitted ++ [c.flow.unflushed] } := by
    simp [exec, State.step, hidle, hqueued, Flow.resolved]
  refine ⟨_, Run.of_exec hrun, ?_, ?_, rfl, rfl, hidle⟩
  · simp [Session.resolveSessionUpd, hf, hflow]
  · by_cases hun : s.flow.unflushed ≤ 0
    · simp [Session.resolveSessionUpd, hf, hflow, hun]
    · have hpos : 0 ≤ s.flow.unflushed := by omega
      simp [Session.resolveSessionUpd, hf, hflow, hun, hpos]

end Coalesce

end Muxocket
