import Muxocket.Publishing
import Muxocket.World

/-!
# Early frames come first, once and in order

The reader waits for `OpenChannel` only while it delivers the frames that were kept, and
`OpenChannel` waits for the reader only while it looks at the table.  So both come to rest, and by
then the channel has had every frame, in the order in which they arrived.
-/

namespace Muxocket.EarlyFrames

/-! ### Neither waits for the other for ever -/

/-- How far the reader is from the end of a frame. -/
def Reader.rank : Reader → Nat
  | .idle => 0
  | .fed => 1
  | .feeding _ _ => 2
  | .found _ _ => 3
  | .unlocking _ _ => 4
  | .locked _ => 5
  | .missing _ => 6
  | .read _ => 7

/-- How far `OpenChannel` is from its end, with `n` frames kept. -/
def Opener.rank (n : Nat) (o : Opener) : Nat :=
  match o with
  | .idle | .failed | .done _ => 0
  | .locking => 9 + n
  | .locked => 8 + n
  | .failing => 1
  | .taken frames => 7 + (frames.getD []).length
  | .held frames => 6 + (frames.getD []).length
  | .published frames _ => 5 + (frames.getD []).length
  | .delivering frames _ => 3 + frames.length
  | .relocking _ => 2
  | .relocked _ => 1

theorem Opener.rank_eq {o : Opener} (hhandle : o.handle ≠ none) (n m : Nat) :
  o.rank n = o.rank m
  := by
  cases o with
  | locking | locked => simp [Opener.handle] at hhandle
  | _ => rfl

theorem Opener.rank_le (o : Opener) (n : Nat) :
  o.rank (n + 1) ≤ o.rank n + 1
  := by
  cases o <;> simp [Opener.rank] <;> omega

theorem Opener.rank_mono {o : Opener} {n m : Nat} (h : n ≤ m) :
  o.rank n ≤ o.rank m
  := by
  cases o <;> simp [Opener.rank] <;> omega

variable (cfg : SessionConfig)

theorem length_stashLocked (id : Nat) (f : PendingFrame) (s : Session) :
  (stash id (s.stashLocked cfg id f).2).length ≤ (stash id s).length + 1
  := by
  have hprune : (stash id ((s.recentlyClosedLocked id).pruneLocked cfg)).length
      ≤ (stash id s).length := by
    rw [← (stash_recentlyClosedLocked id s).1]
    generalize s.recentlyClosedLocked id = s
    obtain ⟨hnone | hsame, -⟩ := Session.lookup_releaseExpired cfg id s.pending.entries s
    · have hnone : (s.pruneLocked cfg).pending.lookup id = none := hnone
      simp [stash, hnone]
    · have hsame : (s.pruneLocked cfg).pending.lookup id = s.pending.lookup id := hsame
      simp [stash, hsame]
  unfold Session.stashLocked
  split
  · exact Nat.le_succ _
  · dsimp only
    split
    · rw [stash_keepPending, List.length_append, List.length_singleton]
      omega
    · exact hprune.trans (Nat.le_succ _)

/-- At most one more frame is kept by the reader. -/
theorem length_check (id : Nat) (f : PendingFrame) (s : Session) :
  (stash id (check cfg id f s).2.1).length ≤ (stash id s).length + 1
  := by
  have hstash := length_stashLocked cfg id f (s.recentlyClosedLocked id)
  rw [(stash_recentlyClosedLocked id s).1] at hstash
  unfold check
  split
  · exact Nat.le_succ _
  · split
    · exact Nat.le_succ _
    · dsimp only
      split <;> exact hstash

namespace State

variable {id : Nat} {s : State}

/-- How far the reader and `OpenChannel` are from having nothing to do. -/
def rank (id : Nat) (s : State) : Nat :=
  2 * s.reader.rank + s.opener.rank (stash id s.session).length

/-- The reader takes a step if it does not have to wait. -/
theorem Sound.read_moves (hs : s.Sound id) (hidle : s.reader ≠ .idle)
    (hmu : s.reader.locks = false → s.reader.feeds = false →
      s.channelsMu = none ∧ s.feedMu = none) :
  ∃ s', s.read cfg id = some s' ∧ s'.rank id < s.rank id
  := by
  unfold State.read
  cases hr : s.reader with
  | idle => contradiction
  | read f =>
      obtain ⟨hmu, -⟩ := hmu (by rw [hr]; rfl) (by rw [hr]; rfl)
      simp only [hmu, if_true]
      split
      · exact ⟨_, rfl, by simp [State.rank, hr, Reader.rank]⟩
      · exact ⟨_, rfl, by simp [State.rank, hr, Reader.rank]⟩
  | missing f =>
      obtain ⟨hmu, -⟩ := hmu (by rw [hr]; rfl) (by rw [hr]; rfl)
      simp only [hmu, if_true]
      exact ⟨_, rfl, by simp [State.rank, hr, Reader.rank]⟩
  | locked f =>
      refine ⟨_, rfl, ?_⟩
      have hlength := length_check cfg id f s.session
      have hle := (Opener.rank_mono (o := s.opener) hlength).trans (s.opener.rank_le _)
      simp only [State.rank, hr, Reader.rank]
      omega
  | unlocking f r =>
      cases r <;> exact ⟨_, rfl, by simp [State.rank, hr, Reader.rank]⟩
  | found f h =>
      obtain ⟨-, hfeed⟩ := hmu (by rw [hr]; rfl) (by rw [hr]; rfl)
      simp only [hfeed, if_true]
      exact ⟨_, rfl, by simp [State.rank, hr, Reader.rank]⟩
  | feeding f h =>
      have hhandle := hs.handle h (by simp [hr, Reader.handle])
      refine ⟨_, rfl, ?_⟩
      simp only [State.rank, hr, Reader.rank]
      rw [Opener.rank_eq (by simp [hhandle]) _ (stash id s.session).length]
      omega
  | fed => exact ⟨_, rfl, by simp [State.rank, hr, Reader.rank]⟩

/-- `OpenChannel` takes a step if it does not have to wait. -/
theorem open_moves (id : Nat) (hrests : s.opener.rests = false)
    (hmu : s.opener.locks = false → s.opener.feeds = false → s.channelsMu = none)
    (hfeed : s.opener.feeds = false → s.feedMu = none) :
  ∃ s', s.openNext cfg id = some s' ∧ s'.rank id < s.rank id
  := by
  unfold State.openNext
  cases ho : s.opener with
  | idle | failed | done => simp [ho, Opener.rests] at hrests
  | locking | relocking =>
      have hmu := hmu (by rw [ho]; rfl) (by rw [ho]; rfl)
      simp only [hmu, if_true]
      exact ⟨_, rfl, by simp [State.rank, ho, Opener.rank]⟩
  | locked =>
      dsimp only
      split
      · refine ⟨_, rfl, ?_⟩
        simp only [State.rank, ho, Opener.rank]
        omega
      · refine ⟨_, rfl, ?_⟩
        unfold State.takePending
        cases hq : s.session.pending.lookup id with
        | none =>
            simp only [State.rank, ho, Opener.rank, Option.getD_none, List.length_nil]
            omega
        | some q =>
            dsimp only
            split
            · simp only [State.rank, ho, Opener.rank, Option.getD_none, List.length_nil]
              omega
            · simp [State.rank, ho, Opener.rank, stash, hq]
  | failing | relocked | held frames => exact ⟨_, rfl, by simp [State.rank, ho, Opener.rank]⟩
  | taken frames =>
      cases frames with
      | none => exact ⟨_, rfl, by simp [State.rank, ho, Opener.rank]⟩
      | some frames =>
          have hfeed := hfeed (by rw [ho]; rfl)
          simp only [hfeed, if_true]
          exact ⟨_, rfl, by simp [State.rank, ho, Opener.rank]⟩
  | published frames h | delivering frames h =>
      cases frames <;> exact ⟨_, rfl, by simp [State.rank, ho, Opener.rank]⟩

/-- While one of the two has something to do, one of them takes a step. -/
theorem Sound.moves (hs : s.Sound id)
    (h : ¬ (s.reader = .idle ∧ s.opener.rests = true)) :
  ∃ a s', (a = .read ∨ a = .openNext) ∧ s.step cfg id a = some s' ∧ s'.rank id < s.rank id
  := by
  have hmu := hs.channelsMu
  have hfeed := hs.feedMu
  have hfree : ∀ {m : Option Party} {r o : Bool},
      Holds m r o → r = false → o = false → m = none := by
    intro m r o hm hr ho
    cases m with
    | none => rfl
    | some p => cases p <;> simp [Holds, hr, ho] at hm
  by_cases hbusy : s.reader.locks = true ∨ s.reader.feeds = true
  · have hidle : s.reader ≠ .idle := by
      intro hidle
      simp [hidle, Reader.locks, Reader.feeds] at hbusy
    obtain ⟨s', hstep, hrank⟩ := hs.read_moves cfg hidle (by
      intro hlocks hfeeds
      simp [hlocks, hfeeds] at hbusy)
    exact ⟨.read, s', .inl rfl, hstep, hrank⟩
  · obtain ⟨hlocks, hfeeds⟩ : s.reader.locks = false ∧ s.reader.feeds = false := by
      simpa using hbusy
    by_cases hrests : s.opener.rests = true
    · have hidle : s.reader ≠ .idle := fun hidle => h ⟨hidle, hrests⟩
      have hopener : s.opener.locks = false ∧ s.opener.feeds = false := by
        cases ho : s.opener <;> simp [ho, Opener.rests, Opener.locks, Opener.feeds] at hrests ⊢
      obtain ⟨s', hstep, hrank⟩ := hs.read_moves cfg hidle fun _ _ =>
        ⟨hfree hmu hlocks hopener.1, hfree hfeed hfeeds hopener.2⟩
      exact ⟨.read, s', .inl rfl, hstep, hrank⟩
    · obtain ⟨s', hstep, hrank⟩ := open_moves cfg id (by simpa using hrests)
        (fun ho _ => hfree hmu hlocks ho) (fun ho => hfree hfeed hfeeds ho)
      exact ⟨.openNext, s', .inr rfl, hstep, hrank⟩

/-- If no other frame arrives, the reader and `OpenChannel` come to rest. -/
theorem Sound.comes_to_rest (hs : s.Sound id) :
  ∃ s', Run (State.step cfg id) (fun _ a => a = .read ∨ a = .openNext) s s'
    ∧ s'.reader = .idle ∧ s'.opener.rests = true
  := by
  by_cases hrest : s.reader = .idle ∧ s.opener.rests = true
  · exact ⟨s, Run.refl s, hrest⟩
  · refine Run.exists_of_progress (I := fun n s => s.Sound id ∧ s.rank id = n
      ∧ ¬ (s.reader = .idle ∧ s.opener.rests = true)) ?_ ⟨hs, rfl, hrest⟩
    rintro n s ⟨hs, rfl, hbusy⟩
    obtain ⟨a, s', ha, hstep, hlt⟩ := hs.moves cfg hbusy
    refine ⟨a, s', ha, hstep, ?_⟩
    have hm : Meanwhile id s a := by
      rcases ha with rfl | rfl <;> trivial
    by_cases hrest' : s'.reader = .idle ∧ s'.opener.rests = true
    · exact .inl hrest'
    · exact .inr ⟨s'.rank id, hlt, hs.step hm hstep, rfl, hrest'⟩

end State

/-! ### Order -/

/-- Whether something else leaves the channel and its frames alone is not computed. -/
noncomputable instance (id : Nat) (s : State) (a : Action) : Decidable (Meanwhile id s a) :=
  match a with
  | .other _ => Classical.propDecidable _
  | .arrive _ | .read | .call | .openNext => .isTrue trivial

/-- The reader of a stream transport and `OpenChannel` for one identifier, in any order of their
steps, with other things that happen to the session in between.

If no frame has been refused, has expired or came too late, the frames handed to the channel are
the first of those that arrived, in the same order and each once.  The frames that were kept had
arrived before the channel was in the table, and all of them have been handed to the channel when
one is that arrived afterwards.  When the reader is idle and `OpenChannel` has returned, every frame
has been handed to the channel, if it is still in the table.  In any case the two come to rest, if
no other frame arrives. -/
theorem early_frames_first (cfg : SessionConfig) (id : Nat) (session : Session)
    (hchannel : session.channels id = none) (s : State)
    (hrun : Run (State.step cfg id) (Meanwhile id) (init id session) s) :
  (s.lost = [] → ∀ h, s.opener.handle = some h →
      (∀ e ∈ s.applied, e.1 = h)
        ∧ s.applied.map Prod.snd <+: s.arrived
        ∧ s.early <+: s.arrived.take s.since
        ∧ (s.since < s.applied.length → s.early <+: s.applied.map Prod.snd)
        ∧ (s.session.channels id = some h → s.reader = .idle → s.opener = .done h →
          s.applied.map Prod.snd = s.arrived))
    ∧ ∃ s', Run (State.step cfg id) (fun _ a => a = .read ∨ a = .openNext) s s'
      ∧ s'.reader = .idle ∧ s'.opener.rests = true
  := by
  have hs := State.sound_of_run hchannel hrun
  refine ⟨?_, hs.comes_to_rest cfg⟩
  intro hlost h hhandle
  have hne : s.opener.handle ≠ none := by simp [hhandle]
  have hprefix : s.applied.map Prod.snd <+: s.arrived :=
    (List.prefix_append _ _).trans (hs.order_left hlost hne)
  have hearly := hs.early hlost hne
  refine ⟨?_, hprefix, hearly, ?_, ?_⟩
  · intro e he
    have heq := hs.applied e he
    rw [hhandle] at heq
    exact (Option.some.inj heq).symm
  · intro hlt
    apply List.prefix_of_prefix_length_le (hearly.trans (List.take_prefix _ _)) hprefix
    have hlength := hearly.length_le
    rw [List.length_take] at hlength
    rw [List.length_map]
    omega
  · intro hc hr ho
    have halive : s.Alive id := .inr (by rw [hc]; rfl)
    have hnone := hs.taken halive hlost (Opener.took_of_handle hne)
    rw [hs.frames halive hlost, hr, ho, State.stash_eq_nil hnone]
    simp [Reader.frames, Opener.frames]

/-- The first byte comes before the channel is opened, and the FIN while it is. -/
theorem early_frames_first_fin :
  ∃ s, Run (State.step (smallConfig true) 11) (Meanwhile 11)
      (init 11 (newSession (smallConfig true) 0)) s
    ∧ s.since = 1
    ∧ s.early <+: s.applied.map Prod.snd
    ∧ s.applied.map Prod.snd = [{ flag := .data, offset := 0, data := [1] },
      { flag := .fin, offset := 1, data := [] }]
  := by
  obtain ⟨s, hrun, hlost, hchannel, hsince, hlength, hr, ho, harrived⟩ := Run.exists_of_exec
    (State.step (smallConfig true) 11) (Meanwhile 11) (init 11 (newSession (smallConfig true) 0))
    [.arrive { flag := .data, offset := 0, data := [1] }, .read, .call, .read, .read, .read,
      .openNext, .openNext, .openNext, .openNext, .arrive { flag := .fin, offset := 1, data := [] },
      .openNext, .read, .openNext, .openNext, .read, .read, .read, .openNext, .openNext]
    (fun s => s.lost = [] ∧ s.session.channels 11 = some 0 ∧ s.since = 1 ∧ s.applied.length = 2
      ∧ s.reader = .idle ∧ s.opener = .done 0
      ∧ s.arrived = [{ flag := .data, offset := 0, data := [1] },
        { flag := .fin, offset := 1, data := [] }]) (by decide +kernel)
  obtain ⟨-, -, -, hearly, hall⟩ := (early_frames_first (smallConfig true) 11
    (newSession (smallConfig true) 0) rfl s hrun).1 hlost 0 (by rw [ho]; rfl)
  refine ⟨s, hrun, hsince, hearly (by omega), ?_⟩
  rw [hall hchannel hr ho, harrived]

end Muxocket.EarlyFrames
