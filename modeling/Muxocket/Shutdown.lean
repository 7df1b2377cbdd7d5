import Muxocket.Transport

/-!
# The transports of a closed session

`Close` marks the session as closed, and later closes the transport it finds.  A transport that
has been attached is closed by the goroutine that dropped or replaced it, or it is the one that
is attached now and closed by `Close`.  This fails for a transport that is attached to a session
that is closed already: `Close` may have looked for the transport before, and from then on
nobody closes it.  Both callers of `resumeWithConnection` check that the session is not closed,
but neither in the same step.
-/

namespace Muxocket

namespace Transport

/-- The transport a goroutine is going to close, of those that have been attached. -/
def Proc.closes : Proc → Option Nat
  | .muting _ old _ => some old
  | .suspending _ old _ => some old
  | .hangingUp _ old _ => some old
  | .rewiring _ _ old => old
  | .waking _ _ old => old
  | .replacing _ _ old => old
  | _ => none

/-- A goroutine that replaces a transport replaces it by another. -/
def Proc.Differs : Proc → Prop
  | .rewiring _ c old => old ≠ some c
  | .waking _ c old => old ≠ some c
  | .replacing _ c old => old ≠ some c
  | _ => True

namespace State

/-- Every transport that has been attached is closed, or is going to be closed by somebody, as
long as none is attached to a closed session. -/
structure Settles (s : State) : Prop where
  kept : ∀ c ∈ s.attached, c ∈ s.shut ∨ s.conn = some c ∨ ∃ p, (s.proc p).closes = some c
  differs : ∀ p, (s.proc p).Differs
  sealed : s.closed → (∃ p, s.proc p = .closing) ∨ ∀ c, s.conn = some c → c ∈ s.shut
  early : ∀ r c, .swap r c true ∉ s.history

theorem settles_init (allow : Bool) (c : Nat) :
  (init allow c).Settles
  where
  kept := by
    intro d hd
    rw [State.attached, List.mem_cons] at hd
    rcases hd with rfl | hd
    · exact .inr (.inl rfl)
    · contradiction
  differs := fun _ => trivial
  sealed := fun h => nomatch h
  early := fun _ _ h => nomatch h

namespace Settles

variable {s s' : State} {p : Nat} {q : Proc}

/-- A goroutine goes on, and attaches no transport. -/
theorem change (hs : s.Settles) (hproc : s'.proc = Function.update s.proc p q)
    (hkeeps : s.Keeps s') (hclosed : s'.closed = s.closed) (hshut : ∀ c ∈ s.shut, c ∈ s'.shut)
    (hconn : ∀ c, s.conn = some c → s'.conn = some c ∨ q.closes = some c)
    (hcloses : ∀ c, (s.proc p).closes = some c → q.closes = some c ∨ c ∈ s'.shut)
    (hdiffers : q.Differs)
    (hclosing : s.proc p = .closing → ∀ c, s'.conn = some c → c ∈ s'.shut) :
  s'.Settles
  := by
  constructor
  · intro c hc
    rw [hkeeps.attached] at hc
    rw [hproc]
    rcases hs.kept c hc with hc | hc | ⟨p', hc⟩
    · exact .inl (hshut c hc)
    · rcases hconn c hc with hc | hc
      · exact .inr (.inl hc)
      · exact .inr (.inr ⟨p, by rw [Function.update_self, hc]⟩)
    · by_cases heq : p' = p
      · subst heq
        rcases hcloses c hc with hc | hc
        · exact .inr (.inr ⟨p', by rw [Function.update_self, hc]⟩)
        · exact .inl hc
      · exact .inr (.inr ⟨p', by rw [Function.update_of_ne heq, hc]⟩)
  · rw [hproc, Function.forall_update_iff s.proc fun _ q' => q'.Differs]
    exact ⟨hdiffers, fun p' _ => hs.differs p'⟩
  · intro h
    rw [hproc]
    have hless : ∀ c, s'.conn = some c → s.conn = some c := by
      intro c hc
      rcases hkeeps.conn with hsame | hnone
      · rwa [hsame] at hc
      · rw [hnone] at hc
        contradiction
    rcases hs.sealed (hclosed ▸ h) with ⟨p', hp'⟩ | hsealed
    · by_cases heq : p' = p
      · subst heq
        exact .inr (hclosing hp')
      · exact .inl ⟨p', by rw [Function.update_of_ne heq, hp']⟩
    · exact .inr fun c hc => hshut c (hsealed c (hless c hc))
  · intro r c hmem
    rcases hkeeps.change with ⟨-, hhistory, -⟩ | ⟨old, -, -, hhistory, -⟩
    · exact hs.early r c (hhistory ▸ hmem)
    · rw [hhistory, List.mem_append, List.mem_singleton] at hmem
      rcases hmem with hmem | hmem
      · exact hs.early r c hmem
      · contradiction

/-- A goroutine goes on, and changes nothing. -/
theorem turn (hs : s.Settles) (hp : (s.proc p).closes = none) (hclosing : s.proc p ≠ .closing)
    (hq : q.Differs) :
  (s.setProc p q).Settles
  := by
  refine hs.change rfl ⟨rfl, .inl ⟨rfl, rfl, rfl⟩⟩ rfl (fun _ h => h) (fun _ h => .inl h) ?_ hq ?_
  · intro c hc
    rw [hp] at hc
    contradiction
  · intro h
    exact absurd h hclosing

theorem differs_back (k : Caller) :
  k.back.Differs ∧ k.back.closes = none
  := by
  cases k <;> exact ⟨trivial, rfl⟩

section

variable (hs : s.Settles)

include hs

theorem locking {k : Caller} (hp : s.proc p = .locking k) :
  (s.drop p k).Settles
  := by
  have hquiet : (s.setProc p k.back).Settles := by
    apply hs.turn _ _ (differs_back k).1
    · rw [hp]
      rfl
    · simp [hp]
  unfold drop
  split
  · exact hquiet
  · rename_i old hold
    split
    · exact hquiet
    · refine hs.change rfl ⟨rfl, .inr ⟨old, hold, rfl, rfl, rfl⟩⟩ rfl
        (fun _ h => h) ?_ ?_ trivial ?_
      · intro c hc
        exact .inr (hold.symm.trans hc)
      · intro c hc
        rw [hp] at hc
        contradiction
      · intro h
        rw [hp] at h
        contradiction

/-- A transport is attached to a session that is not closed. -/
theorem attach (hfresh : s.Fresh) {r : Resumer} {c : Nat} (hp : s.proc p = .attaching r c)
    (hopen : s.closed = false) :
  (s.attach p r c).Settles
  := by
  have hnew : c ∉ s.attached := by
    apply hfresh.unattached p
    rw [hp]
    rfl
  constructor
  · intro d hd
    rw [attached_attach, List.mem_append, List.mem_singleton] at hd
    rcases hd with hd | rfl
    · rcases hs.kept d hd with hd | hd | ⟨p', hd⟩
      · exact .inl hd
      · refine .inr (.inr ⟨p, ?_⟩)
        simp [State.attach, setProc, Proc.closes, hd]
      · have hne : p' ≠ p := by
          rintro rfl
          rw [hp] at hd
          contradiction
        refine .inr (.inr ⟨p', ?_⟩)
        simpa [State.attach, setProc, hne] using hd
    · exact .inr (.inl rfl)
  · refine (Function.forall_update_iff s.proc fun _ q' => q'.Differs).mpr ⟨?_, ?_⟩
    · intro heq
      exact hnew (hfresh.conn c heq)
    · exact fun p' _ => hs.differs p'
  · intro h
    rw [State.attach, setProc, hopen] at h
    contradiction
  · intro r' d hmem
    rw [State.attach, setProc, hopen, List.mem_append, List.mem_singleton] at hmem
    rcases hmem with hmem | hmem
    · exact hs.early r' d hmem
    · simp at hmem

/-- `Close` closes the transport it finds. -/
theorem closing (hp : s.proc p = .closing) :
  (s.sealConn.setProc p .forgetting).Settles
  := by
  have hnone : ∀ c, (s.proc p).closes = some c → False := by
    intro c hc
    rw [hp] at hc
    contradiction
  unfold sealConn
  split
  · rename_i c hc
    refine hs.change rfl ⟨rfl, .inl ⟨rfl, rfl, rfl⟩⟩ rfl ?_ (fun _ h => .inl h)
      (fun c hc => (hnone c hc).elim) trivial ?_
    · exact fun d hd => List.mem_append_left _ hd
    · intro _ d hd
      obtain rfl : c = d := Option.some.inj (hc.symm.trans hd)
      exact List.mem_append_right _ List.mem_cons_self
  · rename_i hc
    refine hs.change rfl ⟨rfl, .inl ⟨rfl, rfl, rfl⟩⟩ rfl (fun _ h => h) (fun _ h => .inl h)
      (fun c hc => (hnone c hc).elim) trivial ?_
    intro _ d hd
    exact nomatch hc.symm.trans hd

theorem advance (hfresh : s.Fresh) {ok : Bool}
    (hopen : ∀ r c, s.proc p = .attaching r c → s.closed = false) (h : s.advance p ok = some s') :
  s'.Settles
  := by
  have hsame : ∀ {s' : State} (q : Proc), s'.proc = Function.update s.proc p q →
      s.Keeps s' → s'.closed = s.closed → s'.conn = s.conn → (∀ c ∈ s.shut, c ∈ s'.shut) →
      (∀ c, (s.proc p).closes = some c → q.closes = some c ∨ c ∈ s'.shut) → q.Differs →
      s.proc p ≠ .closing → s'.Settles := by
    intro s' q hproc hkeeps hclosed hconn hshut hcloses hdiffers hclosing
    refine hs.change hproc hkeeps hclosed hshut ?_ hcloses hdiffers ?_
    · intro c hc
      exact .inl (hconn ▸ hc)
    · exact fun h => absurd h hclosing
  have hdiffers := hs.differs p
  unfold State.advance at h
  cases hp : s.proc p with rw [hp] at h hdiffers hsame
  | idle | resumed _ _ | done => contradiction
  | reporting k =>
      cases h
      apply hs.turn
      · rw [hp]
        rfl
      · simp [hp]
      · split
        · exact (differs_back k).1
        · trivial
  | writing _ | rechecking _ | looking _ _ | screening _ _ | loading _ _ | answering _ _
  | dialing _ | exchanging _ | confirming _ =>
      cases h
      apply hs.turn
      · rw [hp]
        rfl
      · simp [hp]
      · split <;> trivial
  | locking k =>
      obtain ⟨-, rfl⟩ := Run.guard h
      exact hs.locking hp
  | muting _ _ _ | suspending _ _ _ | clearing _ | rewiring _ _ _ | waking _ _ _ | forgetting =>
      cases h
      exact hsame _ rfl ⟨rfl, .inl ⟨rfl, rfl, rfl⟩⟩ rfl rfl (fun _ h => h) (fun _ h => .inl h)
        hdiffers nofun
  | hangingUp k old e =>
      cases h
      refine hsame _ rfl ⟨rfl, .inl ⟨rfl, rfl, rfl⟩⟩ rfl rfl ?_ ?_ (differs_back k).1 nofun
      · exact fun c hc => List.mem_append_left _ hc
      · rintro c hc
        obtain rfl : old = c := Option.some.inj hc
        exact .inr (List.mem_append_right _ List.mem_cons_self)
  | swapping n c cur =>
      cases h
      unfold compareAndSwap
      split
      · exact hsame _ rfl ⟨rfl, .inl ⟨rfl, rfl, rfl⟩⟩ rfl rfl (fun _ h => h) nofun trivial nofun
      · exact hsame _ rfl ⟨rfl, .inl ⟨rfl, rfl, rfl⟩⟩ rfl rfl (fun _ h => h) nofun trivial nofun
  | refusing c =>
      cases h
      refine hsame _ rfl ⟨rfl, .inl ⟨rfl, rfl, rfl⟩⟩ rfl rfl ?_ nofun trivial nofun
      exact fun c hc => List.mem_append_left _ hc
  | attaching r c =>
      obtain ⟨-, rfl⟩ := Run.guard h
      exact hs.attach hfresh hp (hopen r c hp)
  | replacing r c old =>
      cases h
      cases old with
      | none =>
          exact hsame _ rfl ⟨rfl, .inl ⟨rfl, rfl, rfl⟩⟩ rfl rfl (fun _ h => h) nofun trivial nofun
      | some d =>
          have hne : d ≠ c := fun heq => hdiffers (congrArg some heq)
          rw [replace, if_pos hne]
          refine hsame _ rfl ⟨rfl, .inl ⟨rfl, rfl, rfl⟩⟩ rfl rfl ?_ ?_ trivial nofun
          · exact fun c hc => List.mem_append_left _ hc
          · intro d' hd'
            obtain rfl : d = d' := Option.some.inj hd'
            exact .inr (List.mem_append_right _ List.mem_cons_self)
  | closing =>
      obtain ⟨-, rfl⟩ := Run.guard h
      exact hs.closing hp

theorem start (h : s.start p q = some s') (hq : q.Differs) :
  s'.Settles
  := by
  obtain ⟨hidle, rfl⟩ := Run.guard h
  apply hs.turn _ _ hq
  · rw [hidle]
    rfl
  · simp [hidle]

theorem offer {c : Nat} (h : s.offer p c q = some s') (hq : q.Differs) :
  s'.Settles
  := by
  obtain ⟨-, h⟩ := Option.ite_none_left_eq_some.mp h
  have hoffered : Settles { s with offered := s.offered ++ [c] } :=
    ⟨hs.kept, hs.differs, hs.sealed, hs.early⟩
  exact hoffered.start h hq

/-- The session is marked as closed by a goroutine that goes on to close its transport. -/
theorem close (h : State.start p .closing { s with closed := true } = some s') :
  s'.Settles
  := by
  obtain ⟨hidle, rfl⟩ := Run.guard h
  have hidle' : s.proc p = .idle := hidle
  have hturn : (s.setProc p .closing).Settles := by
    refine hs.turn ?_ ?_ trivial
    · rw [hidle']
      rfl
    · simp [hidle']
  exact ⟨hturn.kept, hturn.differs, fun _ => .inl ⟨p, Function.update_self _ _ _⟩, hturn.early⟩

end

end Settles

/-- An event by which no transport is attached to a closed session. -/
def AttachesOpen (s : State) : Event → Prop
  | .advance p _ =>
      match s.proc p with
      | .attaching _ _ => s.closed = false
      | _ => True
  | _ => True

instance (s : State) (e : Event) : Decidable (s.AttachesOpen e) :=
  match e with
  | .advance p _ => by
      dsimp only [AttachesOpen]
      exact match s.proc p with
        | .attaching .. => inferInstanceAs (Decidable (s.closed = false))
        | .idle | .reporting _ | .locking _ | .muting .. | .suspending .. | .hangingUp ..
        | .writing _ | .rechecking _ | .clearing _ | .looking .. | .screening .. | .loading ..
        | .swapping .. | .answering .. | .refusing _ | .dialing _ | .exchanging _ | .confirming _
        | .rewiring .. | .waking .. | .replacing .. | .resumed .. | .closing | .forgetting
        | .done => .isTrue trivial
  | .report .. | .write _ | .handshake .. | .dial .. | .close _ | .fire _ | .check _ =>
      .isTrue trivial

theorem Settles.step {s s' : State} {e : Event} (hs : s.Settles) (hfresh : s.Fresh)
    (hopen : s.AttachesOpen e) (h : s.step e = some s') :
  s'.Settles
  := by
  cases e with
  | report p failed => exact hs.start h trivial
  | write p =>
      obtain ⟨w, -, h⟩ := Option.bind_eq_some_iff.mp h
      exact hs.start h trivial
  | handshake p n c | dial p c => exact hs.offer h trivial
  | close p =>
      dsimp only [State.step] at h
      split at h
      · exact hs.start h trivial
      · exact hs.close h
  | advance p ok =>
      refine hs.advance hfresh ?_ h
      intro r c hp
      simpa only [AttachesOpen, hp] using hopen
  | fire e | check e =>
      obtain ⟨-, rfl⟩ := Run.guard h
      exact ⟨hs.kept, hs.differs, hs.sealed, hs.early⟩

end State

end Transport

end Muxocket
