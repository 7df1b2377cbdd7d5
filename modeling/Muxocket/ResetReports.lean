import Muxocket.Resets

/-!
# The error a writer gets after a reset

The calls of `Write` and `ReadFrom` agree with the write lock, count the bytes they queue, and
report a reset that has closed the writing side, as long as no reset closes it while a `ReadFrom`
that has passed its check needs more credit.
-/

namespace Muxocket.Resets

/-! ### The places of a call -/

namespace Place

/-- Whether a call holds the write lock. -/
def inside : Place → Bool
  | .checking _ | .sending _ _ | .acquiring _ _ | .bidding _ _ | .parked _ _ | .granted _ _ _
  | .refused _ _ | .reporting _ _ | .unlocking _ _ _ => true
  | _ => false

/-- The number of bytes a call counts as sent. -/
def count : Place → Nat
  | .fetching total => total
  | .locking job | .checking job => job.base
  | .sending job sent | .acquiring job sent | .bidding job sent | .parked job sent
  | .granted job sent _ | .refused job sent | .reporting job sent | .unlocking job sent _ =>
      job.base + sent
  | .returned n _ => n
  | _ => 0

/-- What an error says about the writing side. -/
def Reports (cause : Option Cause) (e : WriteError) : Prop :=
  e = .source ∨ cause ≠ none ∧ (cause = some .reset → e = .channelReset)

/-- What a call has seen of the writing side.  `ReadFrom` does not ask for credit when a reset has
closed it. -/
def Sound (cause : Option Cause) : Place → Prop
  | .failing | .reporting _ _ => cause ≠ none
  | .refused job _ => cause ≠ none ∧ (cause = some .reset → ∃ b, job = .write b)
  | .unlocking _ _ (some e) | .returned _ (some e) => Reports cause e
  | p => cause = some .reset → p.needsCredit = false

variable {p : Place}

theorem inside_of_needsCredit (h : p.needsCredit = true) :
  p.inside = true
  := by
  cases p <;> simp [needsCredit, inside] at h ⊢

theorem count_afterRead (total : Nat) (rerr : Option SourceError) :
  (afterRead total rerr).count = total ∧ (afterRead total rerr).inside = false
  := by
  rcases rerr with _ | _ | _ <;> exact ⟨rfl, rfl⟩

theorem count_leave (job : Job) (sent : Nat) (err : Option WriteError) :
  (job.leave sent err).count = job.base + sent ∧ (job.leave sent err).inside = false
  := by
  cases job with
  | write b => simp [Job.leave, WriteJob.leave, count, inside, WriteJob.base]
  | relay total _ n rerr =>
      cases err with
      | some e => simp [Job.leave, WriteJob.leave, count, inside, WriteJob.base]
      | none => exact count_afterRead (total + sent) rerr

theorem sound_afterRead (cause : Option Cause) (total : Nat) (rerr : Option SourceError) :
  (afterRead total rerr).Sound cause
  := by
  rcases rerr with _ | _ | _
  · exact fun _ => rfl
  · exact fun _ => rfl
  · exact .inl rfl

theorem sound_leave {cause : Option Cause} {job : Job} {sent : Nat} {err : Option WriteError}
    (h : (unlocking job sent err).Sound cause) :
  (job.leave sent err).Sound cause
  := by
  cases job with
  | write b =>
      cases err with
      | some e => exact h
      | none => exact fun _ => rfl
  | relay total _ n rerr =>
      cases err with
      | some e => exact h
      | none => apply sound_afterRead

/-- When the writing side is closed, the calls that have reported something have failed for another
reason. -/
theorem Sound.close (h : p.Sound none) {c : Cause} (hc : c = .reset → p.needsCredit = false) :
  p.Sound (some c)
  := by
  have hreports : ∀ e, Reports none e → Reports (some c) e := by
    rintro e (he | ⟨hne, -⟩)
    · exact .inl he
    · contradiction
  have hneeds : some c = some .reset → p.needsCredit = false :=
    fun heq => hc (Option.some.inj heq)
  cases p with
  | failing | reporting => exact absurd rfl h
  | refused => exact absurd rfl h.1
  | unlocking job sent err | returned n err =>
      cases err with
      | some e => exact hreports e h
      | none => exact hneeds
  | _ => exact hneeds

end Place

namespace State

/-- The calls agree with the write lock, with what they have queued, and with the writing side. -/
structure Calls (s : State) : Prop where
  lock : ∀ i, (s.place i).inside = true ↔ s.writeMu = some i
  counts : ∀ i, (s.place i).count = s.sentBy i
  sound : ∀ i, (s.place i).Sound s.cause

theorem calls_init (avail : Nat) :
  Calls { avail := avail }
  where
  lock := by simp [Place.inside]
  counts := by simp [Place.count, sentBy]
  sound i := by simp [Place.Sound, Place.needsCredit]

variable {cfg : SessionConfig} {s s' : State}

section

variable (hs : s.Calls)

include hs

variable {i sent : Nat} {job : Job}

/-- A call goes on, and what it shares with the others stays as it is. -/
theorem Calls.goto {t : State} (hplace : t.place = s.place) (hmu : t.writeMu = s.writeMu)
    (hqueued : t.queued = s.queued) (hcause : t.cause = s.cause) {p q : Place} (hi : s.place i = q)
    (hinside : p.inside = q.inside) (hcount : p.count = q.count) (hsound : p.Sound s.cause) :
  (t.goto i p).Calls
  := by
  have hsent : ∀ j, (t.goto i p).sentBy j = s.sentBy j := by
    intro j
    simp [sentBy, State.goto, hqueued]
  constructor
  case lock =>
    rw [State.goto, hmu, hplace]
    refine (Function.forall_update_iff s.place
      fun j q => q.inside = true ↔ s.writeMu = some j).mpr ⟨?_, fun j _ => hs.lock j⟩
    rw [hinside, ← hi]
    exact hs.lock i
  case counts =>
    simp only [hsent]
    rw [State.goto, hplace]
    refine (Function.forall_update_iff s.place
      fun j q => q.count = s.sentBy j).mpr ⟨?_, fun j _ => hs.counts j⟩
    rw [hcount, ← hi]
    exact hs.counts i
  case sound =>
    rw [State.goto, hcause, hplace]
    exact (Function.forall_update_iff s.place
      fun _ q => q.Sound s.cause).mpr ⟨hsound, fun j _ => hs.sound j⟩

/-- A call takes the write lock. -/
theorem Calls.lockMu (hfree : s.writeMu = none) (hi : s.place i = .locking job) :
  Calls ({ s with writeMu := some i }.goto i (.checking job))
  := by
  have hsent : ∀ j, State.sentBy j ({ s with writeMu := some i }.goto i (.checking job))
      = s.sentBy j := fun _ => rfl
  have hcount := hs.counts i
  rw [hi] at hcount
  constructor
  case lock =>
    refine (Function.forall_update_iff s.place
      fun j q => q.inside = true ↔ some i = some j).mpr ⟨by simp [Place.inside], ?_⟩
    intro j hj
    have hlock := hs.lock j
    rw [hfree] at hlock
    simpa [Ne.symm hj] using hlock
  case counts =>
    simp only [hsent]
    exact (Function.forall_update_iff s.place
      fun j q => q.count = s.sentBy j).mpr ⟨hcount, fun j _ => hs.counts j⟩
  case sound =>
    exact (Function.forall_update_iff s.place
      fun _ q => q.Sound s.cause).mpr ⟨fun _ => rfl, fun j _ => hs.sound j⟩

/-- A call releases the write lock. -/
theorem Calls.unlockMu {err : Option WriteError} (hi : s.place i = .unlocking job sent err) :
  Calls ({ s with writeMu := none }.goto i (job.leave sent err))
  := by
  have hsent : ∀ j, State.sentBy j ({ s with writeMu := none }.goto i (job.leave sent err))
      = s.sentBy j := fun _ => rfl
  have hcount := hs.counts i
  have hsound := hs.sound i
  have hlock := hs.lock i
  rw [hi] at hcount hsound hlock
  obtain ⟨hleave, houtside⟩ := Place.count_leave job sent err
  constructor
  case lock =>
    refine (Function.forall_update_iff s.place
      fun j q => q.inside = true ↔ none = some j).mpr ⟨by simp [houtside], ?_⟩
    intro j hj
    have hother := hs.lock j
    rw [hlock.mp rfl] at hother
    simpa [Ne.symm hj] using hother
  case counts =>
    simp only [hsent]
    exact (Function.forall_update_iff s.place
      fun j q => q.count = s.sentBy j).mpr ⟨hleave.trans hcount, fun j _ => hs.counts j⟩
  case sound =>
    exact (Function.forall_update_iff s.place
      fun _ q => q.Sound s.cause).mpr ⟨Place.sound_leave hsound, fun j _ => hs.sound j⟩

/-- A call queues a frame. -/
theorem Calls.queue {sz : Nat} (hi : s.place i = .granted job sent sz) :
  Calls ({ s with queued := s.queued ++ [(i, sz)] }.goto i (.sending job (sent + sz)))
  := by
  have hsent : ∀ j, State.sentBy j
      ({ s with queued := s.queued ++ [(i, sz)] }.goto i (.sending job (sent + sz)))
        = s.sentBy j + if i = j then sz else 0 := by
    intro j
    by_cases hj : i = j <;> simp [sentBy, State.goto, List.filter_append, hj]
  have hcount := hs.counts i
  have hsound := hs.sound i
  have hlock := hs.lock i
  rw [hi] at hcount hsound hlock
  constructor
  case lock =>
    exact (Function.forall_update_iff s.place
      fun j q => q.inside = true ↔ s.writeMu = some j).mpr ⟨hlock, fun j _ => hs.lock j⟩
  case counts =>
    simp only [hsent]
    refine (Function.forall_update_iff s.place
      fun j q => q.count = s.sentBy j + if i = j then sz else 0).mpr ⟨?_, ?_⟩
    · rw [if_pos rfl, ← hcount]
      exact (Nat.add_assoc _ _ _).symm
    · intro j hj
      rw [if_neg (Ne.symm hj)]
      exact hs.counts j
  case sound =>
    refine (Function.forall_update_iff s.place
      fun _ q => q.Sound s.cause).mpr ⟨?_, fun j _ => hs.sound j⟩
    cases job with
    | write b => exact fun _ => rfl
    | relay total _ n rerr => exact hsound

/-- The writing side is closed, by a reset only if no `ReadFrom` needs more credit. -/
theorem Calls.shut (hopen : s.cause = none) {c : Cause}
    (hspares : c = .reset → ∀ i ∈ s.writeMu, (s.place i).needsCredit = false) {k : Nat}
    {q : Closer} :
  Calls ({ s with writeClosed := true, cause := some c }.turn k q)
  := by
  refine ⟨hs.lock, hs.counts, ?_⟩
  intro i
  have hsound := hs.sound i
  rw [hopen] at hsound
  apply hsound.close
  intro hc
  by_contra hneeds
  have hneeds : (s.place i).needsCredit = true := by simpa using hneeds
  have hlock := (hs.lock i).mp (Place.inside_of_needsCredit hneeds)
  rw [hspares hc i hlock] at hneeds
  contradiction

/-- Every step of a call. -/
theorem Calls.advance (hcloses : s.Closes) (hstep : s.advance cfg i (s.place i) = some s') :
  s'.Calls
  := by
  have hclosed : s.writeClosed = true → s.cause ≠ none := by
    intro hflag
    rwa [hcloses.flag, Option.isSome_iff_ne_none] at hflag
  have hopen : ¬ s.writeClosed = true → s.cause ≠ some .reset := by
    intro hflag hcause
    simp [hcloses.flag, hcause] at hflag
  have hreports : s.cause ≠ none → Place.Reports s.cause s.writeErr :=
    fun hne => .inr ⟨hne, hcloses.writeErr_eq⟩
  have hmove : ∀ {p q : Place}, s.place i = q → p.inside = q.inside → p.count = q.count →
      p.Sound s.cause → (s.goto i p).Calls :=
    hs.goto rfl rfl rfl rfl
  have hsound := hs.sound i
  cases hi : s.place i with
  | idle | fetching | returned => simp [State.advance, hi] at hstep
  | entering c =>
      rw [hi] at hstep
      cases hstep
      split
      · rename_i hflag
        exact hmove hi rfl rfl (hclosed hflag)
      · cases c with
        | write b | readFrom => exact hmove hi rfl rfl fun _ => rfl
  | failing | reporting job sent =>
      rw [hi] at hsound hstep
      cases hstep
      exact hmove hi rfl rfl (hreports hsound)
  | locking job =>
      rw [hi] at hstep
      obtain ⟨hfree, rfl⟩ := Run.guard hstep
      exact hs.lockMu hfree hi
  | checking job =>
      rw [hi] at hstep
      cases hstep
      split
      · rename_i hflag
        exact hmove hi rfl rfl (hclosed hflag)
      · rename_i hflag
        exact hmove hi rfl rfl fun hcause => absurd hcause (hopen hflag)
  | sending job sent =>
      rw [hi] at hsound hstep
      cases hstep
      split
      · rename_i hmore
        refine hmove hi (by rfl) (by rfl) ?_
        cases job with
        | write b => exact fun _ => rfl
        | relay total _ n rerr =>
            intro hcause
            have hnot : sent < n ↔ False := by simpa [Place.needsCredit] using hsound hcause
            exact (hnot.mp hmore).elim
      · exact hmove hi rfl rfl fun _ => rfl
  | acquiring job sent =>
      rw [hi] at hsound hstep
      cases hstep
      split
      · rename_i hflag
        refine hmove hi rfl rfl ⟨hclosed hflag, ?_⟩
        intro hcause
        cases job with
        | write b => exact ⟨b, rfl⟩
        | relay total _ n rerr => exact absurd (hsound hcause) (by simp [Place.needsCredit])
      · rename_i hflag
        exact hmove hi rfl rfl fun hcause => absurd hcause (hopen hflag)
  | bidding job sent =>
      rw [hi] at hsound hstep
      simp only [State.advance] at hstep
      split at hstep
      · cases hstep
        refine hmove hi (by rfl) (by rfl) ?_
        cases job with
        | write b | relay total _ n rerr => exact hsound
      · cases hstep
        refine hs.goto (by rfl) (by rfl) (by rfl) (by rfl) hi (by rfl) (by rfl) ?_
        cases job with
        | write b => exact fun _ => rfl
        | relay total _ n rerr =>
            exact fun hcause => absurd (hsound hcause) (by simp [Place.needsCredit])
  | parked job sent =>
      rw [hi] at hsound hstep
      obtain ⟨-, rfl⟩ := Run.guard hstep
      refine hs.goto (by rfl) (by rfl) (by rfl) (by rfl) hi (by rfl) (by rfl) ?_
      cases job with
      | write b | relay total _ n rerr => exact hsound
  | granted job sent sz =>
      rw [hi] at hstep
      cases hstep
      exact hs.queue hi
  | refused job sent =>
      rw [hi] at hsound hstep
      cases job with
      | write b =>
          cases hstep
          exact hmove hi rfl rfl hsound.1
      | relay total _ n rerr =>
          cases hstep
          refine hmove hi rfl rfl (.inr ⟨hsound.1, ?_⟩)
          intro hcause
          obtain ⟨b, hb⟩ := hsound.2 hcause
          contradiction
  | unlocking job sent err =>
      rw [hi] at hstep
      cases hstep
      exact hs.unlockMu hi

/-- A step of a goroutine that closes the writing side. -/
theorem Calls.close (hcloses : s.Closes) {k : Nat} (hspares : s.Spares (.close k))
    (hstep : s.close k (s.closer k) = some s') :
  s'.Calls
  := by
  have hk := hcloses.closers k
  cases hc : s.closer k with
  | idle => simp [State.close, hc] at hstep
  | running c =>
      rw [hc] at hk hstep
      cases hstep
      exact hs.shut hk.1 fun hreset => hspares (by rw [hc, hreset])
  | entering c =>
      simp only [State.close, hc] at hstep
      split at hstep
      · cases hstep
        exact ⟨hs.lock, hs.counts, hs.sound⟩
      · contradiction
      · cases hstep
        exact ⟨hs.lock, hs.counts, hs.sound⟩
  | trying =>
      simp only [State.close, hc] at hstep
      split at hstep
      · cases hstep
        exact ⟨hs.lock, hs.counts, hs.sound⟩
      · cases hstep
        exact ⟨hs.lock, hs.counts, hs.sound⟩
  | storing | waking | leaving =>
      rw [hc] at hstep
      cases hstep
      exact ⟨hs.lock, hs.counts, hs.sound⟩

/-! ### Runs -/

/-- Every step keeps that the calls report what has happened. -/
theorem Calls.step (hcloses : s.Closes) {a : Action} (hspares : s.Spares a)
    (hstep : s.step cfg a = some s') :
  s'.Calls
  := by
  cases a with
  | advance i => exact hs.advance hcloses hstep
  | close k => exact hs.close hcloses hspares hstep
  | start i c =>
      obtain ⟨hi, rfl⟩ := Run.guard hstep
      split
      · exact hs.goto rfl rfl rfl rfl hi rfl rfl fun _ => rfl
      · exact hs.goto rfl rfl rfl rfl hi rfl rfl fun _ => rfl
  | source i n rerr =>
      obtain ⟨total, hi, rfl⟩ := source_eq hstep
      split
      · exact hs.goto rfl rfl rfl rfl hi rfl rfl fun _ => rfl
      · obtain ⟨hcount, hinside⟩ := Place.count_afterRead total rerr
        exact hs.goto rfl rfl rfl rfl hi hinside hcount (Place.sound_afterRead _ _ _)
  | retry i =>
      obtain ⟨job, sent, hi, rfl⟩ := retry_eq hstep
      have hsound := hs.sound i
      rw [hi] at hsound
      refine hs.goto (by rfl) (by rfl) (by rfl) (by rfl) hi (by rfl) (by rfl) ?_
      cases job with
      | write b | relay total _ n rerr => exact hsound
  | peerReset k | closeWrite k | lateFin =>
      obtain ⟨-, rfl⟩ := Run.guard hstep
      exact ⟨hs.lock, hs.counts, hs.sound⟩
  | credit n notify =>
      cases hstep
      exact ⟨hs.lock, hs.counts, hs.sound⟩

end

/-- A call on a channel whose writing side a reset has closed reports the reset, or an error of its
own source, and the number of bytes it has queued. -/
theorem reset_reported (cfg : SessionConfig) (avail : Nat) (s : State)
    (hrun : Run (State.step cfg) State.Spares { avail := avail } s) (i n : Nat)
    (err : Option WriteError) (hret : s.place i = .returned n err) :
  n = s.sentBy i ∧
    ∀ e, err = some e → e ≠ .source → s.cause = some .reset → e = .channelReset
  := by
  have hinv : s.Closes ∧ s.Calls := by
    apply hrun.invariant (I := fun s => s.Closes ∧ s.Calls)
    · rintro t a t' ⟨hcloses, hcalls⟩ hspares hstep
      exact ⟨hcloses.step hstep, hcalls.step hcloses hspares hstep⟩
    · exact ⟨closes_init avail, calls_init avail⟩
  have hcount := hinv.2.counts i
  have hsound := hinv.2.sound i
  rw [hret] at hcount hsound
  refine ⟨hcount, ?_⟩
  rintro e rfl hsource hcause
  obtain hown | ⟨-, hreset⟩ := hsound
  · contradiction
  · exact hreset hcause

/-- A `Write` waits for credit when the reset arrives. -/
theorem reset_reported_waiting :
  ∃ s, Run (State.step (smallConfig true)) State.Spares { avail := 8 } s ∧
    s.place 0 = .returned 8 (some .channelReset) ∧ s.cause = some .reset ∧ 8 = s.sentBy 0
  := by
  obtain ⟨s, hrun, hplace, hcause⟩ :=
    Run.exists_of_exec (State.step (smallConfig true)) State.Spares { avail := 8 }
      ([.start 0 (.write (List.replicate 16 0))] ++ List.replicate 10 (.advance 0) ++ [.peerReset 1]
        ++ List.replicate 6 (.close 1) ++ List.replicate 5 (.advance 0))
      (fun s => s.place 0 = .returned 8 (some .channelReset) ∧ s.cause = some .reset)
      (by decide +kernel)
  exact ⟨s, hrun, hplace, hcause, (reset_reported _ _ s hrun 0 8 _ hplace).1⟩

/-- A `ReadFrom` waits for credit when the reset arrives, and reports that the pipe is closed. -/
theorem readFrom_reports_closedPipe :
  ∃ s, Run (State.step (smallConfig true)) (fun _ _ => True) { avail := 8 } s ∧
    s.place 0 = .returned 8 (some .closedPipe) ∧ s.cause = some .reset
  :=
  Run.exists_of_exec (State.step (smallConfig true)) (fun _ _ => True) { avail := 8 }
    ([.start 0 .readFrom, .advance 0, .source 0 16 none] ++ List.replicate 9 (.advance 0)
      ++ [.peerReset 1] ++ List.replicate 6 (.close 1) ++ List.replicate 4 (.advance 0))
    (fun s => s.place 0 = .returned 8 (some .closedPipe) ∧ s.cause = some .reset)
    (by decide +kernel)

end State

end Muxocket.Resets
