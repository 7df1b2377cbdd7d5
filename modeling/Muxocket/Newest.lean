import Muxocket.Transport

/-!
# The newest resumption

The handshakes of the listener that ask for the resumption of one session are put in order by
their nonces, in the compare-and-swap.  Each attaches its transport later, after it has written
its answer, and does not look at the nonce again.  So the transport of the session is that of
the handshake that attached last, which is the newest one if they attach in the order of their
nonces.
-/

namespace Muxocket

namespace Transport

/-- A change of the transport by a handshake with a nonce below `n`, if by a handshake. -/
def Change.Below (n : Nat) : Change → Prop
  | .swap (.listener m) _ _ => m < n
  | _ => True

instance (n : Nat) (x : Change) : Decidable (x.Below n) := by
  unfold Change.Below
  split <;> infer_instance

namespace State

/-- An event of a session of which nothing is going on but handshakes of the listener, each of
which can write its answer. -/
def Handshaking (s : State) : Event → Prop
  | .handshake _ _ _ => True
  | .advance p ok =>
      match s.proc p with
      | .answering _ _ => ok = true
      | _ => True
  | _ => False

/-- An event by which a handshake attaches its transport only if those that have attached theirs
have smaller nonces. -/
def InOrder (s : State) (e : Event) : Prop :=
  s.Handshaking e ∧
    match e with
    | .advance p _ =>
        match s.proc p with
        | .attaching (.listener n) _ => ∀ x ∈ s.history, x.Below n
        | _ => True
    | _ => True

instance (s : State) (e : Event) : Decidable (s.Handshaking e) := by
  unfold Handshaking
  split
  · infer_instance
  · split <;> infer_instance
  · infer_instance

instance (s : State) (e : Event) : Decidable (s.InOrder e) := by
  unfold InOrder
  refine @instDecidableAnd _ _ inferInstance ?_
  split
  · split <;> infer_instance
  · infer_instance

/-- What is known of a goroutine when there are only handshakes of the listener. -/
def Ranks (s : State) : Proc → Prop
  | .idle | .looking _ _ | .screening _ _ | .loading _ _ | .swapping _ _ _ | .refusing _
  | .resumed _ _ | .done => True
  | .answering n c => (n, c) ∈ s.accepted
  | .attaching (.listener n) c => (n, c) ∈ s.accepted
  | .rewiring _ _ old => ∀ d, old = some d → s.Replaced d
  | .waking _ _ old => ∀ d, old = some d → s.Replaced d
  | .replacing _ _ old => ∀ d, old = some d → s.Replaced d
  | _ => False

/-- What is known of a goroutine stays true. -/
theorem Ranks.mono {s s' : State} {q : Proc} (h : s.Ranks q)
    (haccepted : ∀ x ∈ s.accepted, x ∈ s'.accepted)
    (hreplaced : ∀ d, s.Replaced d → s'.Replaced d) :
  s'.Ranks q
  := by
  cases q with
  | answering n c => exact haccepted _ h
  | attaching r c =>
      cases r with
      | listener n => exact haccepted _ h
      | dialer => exact h
  | rewiring _ _ _ | waking _ _ _ | replacing _ _ _ => exact fun d hd => hreplaced d (h d hd)
  | _ => exact h

/-- A handshake whose nonce was accepted has not attached its transport yet, or has. -/
def Arrives (s : State) (n c : Nat) : Prop :=
  (∃ p, s.proc p = .answering n c ∨ s.proc p = .attaching (.listener n) c)
    ∨ ∃ b, .swap (.listener n) c b ∈ s.history

/-- The transport of a session is that of the handshake with the greatest nonce of those that
have attached theirs, and it is not closed. -/
structure Ranked (s : State) : Prop where
  procs : ∀ p, s.Ranks (s.proc p)
  arrives : ∀ n c, (n, c) ∈ s.accepted → s.Arrives n c
  accepted : ∀ n c b, .swap (.listener n) c b ∈ s.history → (n, c) ∈ s.accepted
  top : ∀ n c b, .swap (.listener n) c b ∈ s.history →
    (∀ m d b', .swap (.listener m) d b' ∈ s.history → m ≤ n) → s.conn = some c
  shut : ∀ d ∈ s.shut, d ∈ s.offered ∧ s.conn ≠ some d ∧ ∀ p, (s.proc p).offers ≠ some d

theorem ranked_init (c : Nat) :
  (init true c).Ranked
  := ⟨fun _ => trivial, nofun, nofun, nofun, nofun⟩

/-- A session that has lost the transport it was created on, by the report of a goroutine, and
waits for a resumption. -/
def lost (p c : Nat) : State :=
  { init true c with
    conn := none
    writerConn := none
    suspended := true
    connEpoch := 1
    proc := Function.update (fun _ => .idle) p .done
    timer := Function.update (fun _ => .off) 1 .armed
    history := [.drop c]
    shut := [c] }

/-- The report of a goroutine leads to that state. -/
theorem exec_lost (p c : Nat) :
  exec step (fun _ _ => True) (init true c)
    (.report p (some c) :: List.replicate 5 (.advance p true)) = some (lost p c)
  := by
  simp [exec, step, start, State.advance, setProc, State.drop, shutDown, lost, init,
    Caller.failed, Caller.back, List.replicate]

theorem fresh_lost (p c : Nat) :
  (lost p c).Fresh
  := by
  apply Run.invariant (I := Fresh) _ (Run.of_exec (exec_lost p c)) (fresh_init true c)
  exact fun _ _ _ hs _ h => hs.step h

theorem ranked_lost (p c : Nat) :
  (lost p c).Ranked
  := by
  refine ⟨?_, nofun, by simp [lost], by simp [lost], ?_⟩
  · exact (Function.forall_update_iff _ fun _ q => (lost p c).Ranks q).mpr
      ⟨trivial, fun _ _ => trivial⟩
  · intro d hd
    refine ⟨hd, nofun, ?_⟩
    exact (Function.forall_update_iff _ fun _ q => Proc.offers q ≠ some d).mpr ⟨nofun, nofun⟩

namespace Ranked

variable {s s' : State} {p : Nat} {q : Proc}

/-- A handshake goes on, and does not close or attach a transport. -/
theorem turn (hs : s.Ranked) (hq : s.Ranks q)
    (hoffers : ∀ d ∈ s.shut, (s.proc p).offers ≠ some d → q.offers ≠ some d)
    (harrives : ∀ n c, s.proc p = .answering n c ∨ s.proc p = .attaching (.listener n) c →
      q = .answering n c ∨ q = .attaching (.listener n) c) :
  (s.setProc p q).Ranked
  := by
  constructor
  · exact (Function.forall_update_iff s.proc fun _ q' => s.Ranks q').mpr
      ⟨hq, fun p' _ => hs.procs p'⟩
  · intro n c hmem
    rcases hs.arrives n c hmem with ⟨p', hp'⟩ | hswap
    · left
      by_cases heq : p' = p
      · subst heq
        refine ⟨p', ?_⟩
        simpa [setProc] using harrives n c hp'
      · refine ⟨p', ?_⟩
        simpa [setProc, heq] using hp'
    · exact .inr hswap
  · exact hs.accepted
  · exact hs.top
  · intro d hd
    obtain ⟨hoffered, hconn, hnobody⟩ := hs.shut d hd
    refine ⟨hoffered, hconn, ?_⟩
    refine (Function.forall_update_iff s.proc fun _ q' => q'.offers ≠ some d).mpr ⟨?_, ?_⟩
    · exact hoffers d hd (hnobody p)
    · exact fun p' _ => hnobody p'

/-- The compare-and-swap succeeds. -/
theorem accept (hs : s.Ranked) {n c cur : Nat} (hp : s.proc p = .swapping n c cur) :
  (State.setProc p (.answering n c)
    { s with nonce := n, accepted := s.accepted ++ [(n, c)] }).Ranked
  := by
  have hmore : ∀ x ∈ s.accepted, x ∈ s.accepted ++ [(n, c)] := fun x hx =>
    List.mem_append_left _ hx
  constructor
  · refine (Function.forall_update_iff s.proc fun _ q' => Ranks
      { s with nonce := n, accepted := s.accepted ++ [(n, c)] } q').mpr ⟨?_, ?_⟩
    · exact List.mem_append_right _ List.mem_cons_self
    · exact fun p' _ => (hs.procs p').mono hmore fun _ h => h
  · intro m d hmem
    rcases List.mem_append.mp hmem with hmem | hmem
    · rcases hs.arrives m d hmem with ⟨p', hp'⟩ | hswap
      · have hne : p' ≠ p := by
          rintro rfl
          simp [hp] at hp'
        refine .inl ⟨p', ?_⟩
        simpa [setProc, hne] using hp'
      · exact .inr hswap
    · obtain ⟨rfl, rfl⟩ := Prod.mk.inj (List.mem_singleton.mp hmem)
      exact .inl ⟨p, .inl (Function.update_self _ _ _)⟩
  · exact fun m d b h => hmore _ (hs.accepted m d b h)
  · exact hs.top
  · intro d hd
    obtain ⟨hoffered, hconn, hnobody⟩ := hs.shut d hd
    refine ⟨hoffered, hconn, ?_⟩
    refine (Function.forall_update_iff s.proc fun _ q' => q'.offers ≠ some d).mpr ⟨?_, ?_⟩
    · have hc := hnobody p
      rwa [hp] at hc
    · exact fun p' _ => hnobody p'

/-- A transport is closed that nobody is going to attach, and that is not attached. -/
theorem shutDown (hs : s.Ranked) {c : Nat} (hoffered : c ∈ s.offered) (hconn : s.conn ≠ some c)
    (hnobody : ∀ p, (s.proc p).offers ≠ some c) :
  (s.shutDown c).Ranked
  := by
  refine ⟨hs.procs, hs.arrives, hs.accepted, hs.top, ?_⟩
  intro d hd
  rcases List.mem_append.mp hd with hd | hd
  · exact hs.shut d hd
  · obtain rfl := List.mem_singleton.mp hd
    exact ⟨hoffered, hconn, hnobody⟩

section

variable (hs : s.Ranked) (hfresh : s.Fresh)

include hs hfresh

/-- A handshake attaches its transport whose nonce is greater than those of the handshakes that
have attached theirs. -/
theorem attach {n c : Nat} (hp : s.proc p = .attaching (.listener n) c)
    (hbelow : ∀ x ∈ s.history, x.Below n) :
  (s.attach p (.listener n) c).Ranked
  := by
  have hoffers : (s.proc p).offers = some c := by
    rw [hp]
    rfl
  have hnew := hfresh.unattached p c hoffers
  have hreplaced : ∀ d ∈ s.attached, (s.attach p (.listener n) c).Replaced d := by
    intro d hd
    refine ⟨attached_attach p _ c s ▸ List.mem_append_left _ hd, ?_⟩
    intro heq
    exact hnew (Option.some.inj heq ▸ hd)
  have hswap : ∀ {m d b}, .swap (.listener m) d b ∈ (s.attach p (.listener n) c).history →
      .swap (.listener m) d b ∈ s.history ∨ m = n ∧ d = c := by
    intro m d b hmem
    rcases List.mem_append.mp hmem with hmem | hmem
    · exact .inl hmem
    · have heq := List.mem_singleton.mp hmem
      simp only [Change.swap.injEq, Resumer.listener.injEq] at heq
      exact .inr ⟨heq.1, heq.2.1⟩
  have hlast : .swap (.listener n) c s.closed ∈ (s.attach p (.listener n) c).history :=
    List.mem_append_right _ List.mem_cons_self
  have haccepted : (n, c) ∈ s.accepted := by
    have hranks := hs.procs p
    rwa [hp] at hranks
  constructor
  · refine (Function.forall_update_iff s.proc fun _ q' => Ranks
      (s.attach p (.listener n) c) q').mpr ⟨?_, ?_⟩
    · exact fun d hd => hreplaced d (hfresh.conn d hd)
    · exact fun p' _ => (hs.procs p').mono (fun _ h => h) fun d hd => hreplaced d hd.1
  · intro m d hmem
    rcases hs.arrives m d hmem with ⟨p', hp'⟩ | ⟨b, hb⟩
    · by_cases heq : p' = p
      · subst heq
        simp only [hp, reduceCtorEq, Proc.attaching.injEq, Resumer.listener.injEq, false_or] at hp'
        obtain ⟨rfl, rfl⟩ := hp'
        exact .inr ⟨s.closed, hlast⟩
      · refine .inl ⟨p', ?_⟩
        simpa [State.attach, setProc, heq] using hp'
    · exact .inr ⟨b, List.mem_append_left _ hb⟩
  · intro m d b hmem
    rcases hswap hmem with hmem | ⟨rfl, rfl⟩
    · exact hs.accepted m d b hmem
    · exact haccepted
  · intro m d b hmem htop
    rcases hswap hmem with hmem | ⟨rfl, rfl⟩
    · have hlt : m < n := hbelow _ hmem
      have hle := htop n c s.closed hlast
      omega
    · rfl
  · intro d hd
    obtain ⟨hoffered, hconn, hnobody⟩ := hs.shut d hd
    refine ⟨hoffered, ?_, ?_⟩
    · intro heq
      obtain rfl : c = d := Option.some.inj heq
      exact hnobody p hoffers
    · refine (Function.forall_update_iff s.proc fun _ q' => q'.offers ≠ some d).mpr ⟨?_, ?_⟩
      · simp [Proc.offers]
      · exact fun p' _ => hnobody p'

/-- A handshake that has failed closes its connection. -/
theorem refusing {c : Nat} (hp : s.proc p = .refusing c) :
  ((s.shutDown c).setProc p .done).Ranked
  := by
  have hoffers : (s.proc p).offers = some c := by
    rw [hp]
    rfl
  have hturn : (s.setProc p .done).Ranked := by
    refine hs.turn trivial nofun ?_
    simp [hp]
  refine hturn.shutDown (hfresh.offered p c hoffers) ?_ ?_
  · intro heq
    exact hfresh.unattached p c hoffers (hfresh.conn c heq)
  · refine (Function.forall_update_iff s.proc fun _ q' => q'.offers ≠ some c).mpr ⟨nofun, ?_⟩
    intro p' hne hp'
    exact hne (hfresh.distinct p' p c hp' hoffers)

/-- A handshake closes the transport that it has replaced. -/
theorem replacing {r : Resumer} {c : Nat} {old : Option Nat} (hp : s.proc p = .replacing r c old) :
  ((s.replace c old).setProc p (.resumed r c)).Ranked
  := by
  have hturn : (s.setProc p (.resumed r c)).Ranked := by
    refine hs.turn trivial nofun ?_
    simp [hp]
  have hranks := hs.procs p
  rw [hp] at hranks
  unfold replace
  split
  · rename_i d
    obtain ⟨hattached, hconn⟩ := hranks d rfl
    split
    · refine hturn.shutDown (hfresh.attached d hattached) hconn ?_
      refine (Function.forall_update_iff s.proc fun _ q' => q'.offers ≠ some d).mpr ⟨nofun, ?_⟩
      exact fun p' _ hp' => hfresh.unattached p' d hp' hattached
    · exact hturn
  · exact hturn

theorem advance {ok : Bool} (horder : s.InOrder (.advance p ok)) (h : s.advance p ok = some s') :
  s'.Ranked
  := by
  have hranks := hs.procs p
  obtain ⟨hanswers, hbelow⟩ := horder
  unfold State.advance at h
  dsimp only [Handshaking] at hanswers
  dsimp only at hbelow
  cases hp : s.proc p with rw [hp] at h hranks hanswers hbelow
  | idle | resumed _ _ | done => contradiction
  | looking _ _ | screening _ _ | loading _ _ =>
      cases h
      apply hs.turn
      · split <;> trivial
      · rw [hp]
        split <;> exact fun _ _ h => h
      · simp [hp]
  | swapping n c cur =>
      cases h
      unfold compareAndSwap
      split
      · exact hs.accept hp
      · refine hs.turn trivial ?_ ?_
        · rw [hp]
          exact fun _ _ h => h
        · simp [hp]
  | answering n c =>
      cases h
      dsimp only at hanswers
      rw [if_pos hanswers]
      refine hs.turn ?_ ?_ ?_
      · exact hranks
      · rw [hp]
        exact fun _ _ h => h
      · simp [hp]
  | refusing c =>
      cases h
      exact hs.refusing hfresh hp
  | attaching r c =>
      cases r with
      | listener n =>
          obtain ⟨-, rfl⟩ := Run.guard h
          exact hs.attach hfresh hp hbelow
      | dialer => exact hranks.elim
  | rewiring _ _ _ | waking _ _ _ =>
      cases h
      have hrest : ∀ writerConn suspended connMu, Ranked
          { s with writerConn := writerConn, suspended := suspended, connMu := connMu } :=
        fun _ _ _ => ⟨hs.procs, hs.arrives, hs.accepted, hs.top, hs.shut⟩
      refine (hrest _ _ _).turn ?_ ?_ ?_
      · exact hranks
      · rw [hp]
        exact fun _ _ h => h
      · simp [hp]
  | replacing r c old =>
      cases h
      exact hs.replacing hfresh hp
  | _ => exact hranks.elim

theorem step {e : Event} (horder : s.InOrder e) (h : s.step e = some s') :
  s'.Ranked
  := by
  cases e with
  | handshake p n c =>
      obtain ⟨hnew, h⟩ := Option.ite_none_left_eq_some.mp h
      obtain ⟨hidle, rfl⟩ := Run.guard h
      have hidle' : s.proc p = .idle := hidle
      have hoffered : Ranked { s with offered := s.offered ++ [c] } := by
        refine ⟨hs.procs, hs.arrives, hs.accepted, hs.top, ?_⟩
        intro d hd
        obtain ⟨hmem, hrest⟩ := hs.shut d hd
        exact ⟨List.mem_append_left _ hmem, hrest⟩
      refine hoffered.turn trivial ?_ ?_
      · intro d hd _ heq
        obtain rfl : c = d := Option.some.inj heq
        exact hnew (hs.shut c hd).1
      · simp [hidle']
  | advance p ok => exact hs.advance hfresh horder h
  | _ => exact horder.1.elim

end

end Ranked

/-- If the handshakes of the listener that resume a session attach their transports in the order
of their nonces, and nothing else is going on, then once all have returned the transport of the
session is that of the handshake with the greatest nonce that was accepted, and has not been
closed.  The session still has the transport it was created on, or has lost it. -/
theorem newest_resumption_wins {c : Nat} {s₀ s : State}
    (hstart : s₀ = init true c ∨ ∃ p, s₀ = lost p c) (hrun : Run step InOrder s₀ s)
    (hquiet : ∀ p, (s.proc p).Quiet) {n d : Nat} (hmem : (n, d) ∈ s.accepted)
    (hgreatest : ∀ x ∈ s.accepted, x.1 ≤ n) :
  s.conn = some d ∧ d ∉ s.shut
  := by
  have hranked : s.Ranked ∧ s.Fresh := by
    apply Run.invariant (I := fun s => s.Ranked ∧ s.Fresh) _ hrun
    · rcases hstart with rfl | ⟨p, rfl⟩
      · exact ⟨ranked_init c, fresh_init true c⟩
      · exact ⟨ranked_lost p c, fresh_lost p c⟩
    · intro s e s' hs horder h
      exact ⟨hs.1.step hs.2 horder h, hs.2.step h⟩
  obtain ⟨hs, -⟩ := hranked
  have hconn : s.conn = some d := by
    rcases hs.arrives n d hmem with ⟨p, hp⟩ | ⟨b, hb⟩
    · have hp' := hquiet p
      rcases hp with hp | hp <;> exact (hp ▸ hp').elim
    · apply hs.top n d b hb
      exact fun m d' b' hm => hgreatest _ (hs.accepted m d' b' hm)
  exact ⟨hconn, fun hd => (hs.shut d hd).2.1 hconn⟩

/-- Two handshakes with a session that has lost its transport attach theirs in the order of
their nonces. -/
theorem newest_resumption_wins_in_order :
  ∃ s, Run step InOrder (lost 2 0) s ∧ ((∀ p, (s.proc p).Quiet)
      ∧ (2, 6) ∈ s.accepted ∧ ∀ x ∈ s.accepted, x.1 ≤ 2)
    ∧ s.conn = some 6 ∧ 6 ∉ s.shut
  := by
  have hexec : exec step InOrder (lost 2 0)
      (List.flatten [[.handshake 0 1 5], List.replicate 4 (.advance 0 true), [.handshake 1 2 6],
        List.replicate 4 (.advance 1 true), List.replicate 5 (.advance 0 true),
        List.replicate 5 (.advance 1 true)]) = some _ := rfl
  obtain ⟨s, hrun, hquiet, hmem, hgreatest⟩ : ∃ s, Run step InOrder (lost 2 0) s
      ∧ (∀ p, (s.proc p).Quiet) ∧ (2, 6) ∈ s.accepted ∧ ∀ x ∈ s.accepted, x.1 ≤ 2 := by
    refine ⟨_, Run.of_exec hexec, ?_, ?_, ?_⟩
    · rintro (_ | _ | _ | p) <;> trivial
    · decide
    · decide
  exact ⟨s, hrun, ⟨hquiet, hmem, hgreatest⟩,
    newest_resumption_wins (.inr ⟨2, rfl⟩) hrun hquiet hmem hgreatest⟩

/-- The older of two handshakes attaches its transport after the newer one, and closes the
transport of the newer one. -/
theorem older_resumption_wins :
  ∃ s, Run step Handshaking (init true 0) s ∧ (∀ p, (s.proc p).Quiet)
    ∧ s.accepted = [(1, 5), (2, 6)] ∧ s.conn = some 5 ∧ 6 ∈ s.shut
  := by
  have hexec : exec step Handshaking (init true 0)
      (List.flatten [[.handshake 0 1 5], List.replicate 4 (.advance 0 true), [.handshake 1 2 6],
        List.replicate 9 (.advance 1 true), List.replicate 5 (.advance 0 true)]) = some _ := rfl
  refine ⟨_, Run.of_exec hexec, ?_, ?_, ?_, ?_⟩
  · rintro (_ | _ | p) <;> trivial
  · decide
  · decide
  · decide

end State

end Transport

end Muxocket
