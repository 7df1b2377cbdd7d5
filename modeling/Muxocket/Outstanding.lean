import Muxocket.Delivery

/-!
# What is outstanding

What two sessions still have to do is not forgotten.  A tick of the retransmission timer queues
every unacknowledged frame that is due, or gives its channel up.  Credit for bytes that have been
read stays below a threshold, or a window update is queued for it.  The table has the channels that
are not finalized.  Without retransmissions every byte that has been written is in one place.
-/

namespace Muxocket

/-! ### The retransmission timer -/

/-- The frame has waited for an acknowledgement as long as it has to. -/
abbrev UnackedFrame.Due (cfg : SessionConfig) (now : Int) (u : UnackedFrame) : Prop :=
  cfg.retransmitTimeout * 2 ^ min u.retransmits 6 ≤ now - u.sentAt

namespace Session

variable {cfg : SessionConfig} {s : Session} {h : Nat} {u : UnackedFrame}

/-- What the timer leaves of a session when it has looked at the channel `h`. -/
structure Scanned (h : Nat) (s s' : Session) : Prop where
  closed : s'.closed = s.closed
  now : s'.now = s.now
  writes : s.writes <+: s'.writes
  heap : ∀ k, k ≠ h → s'.heap k = s.heap k
  giveUp : (s.heap h).giveUp = true → (s'.heap h).giveUp = true

theorem Scanned.trans {s₁ s₂ : Session} (h₁ : s.Scanned h s₁) (h₂ : s₁.Scanned h s₂) :
  s.Scanned h s₂
  := ⟨h₂.closed.trans h₁.closed, h₂.now.trans h₁.now, h₁.writes.trans h₂.writes,
    fun k hk => (h₂.heap k hk).trans (h₁.heap k hk), fun hup => h₂.giveUp (h₁.giveUp hup)⟩

theorem mem_dueFrames {now : Int} {us : List UnackedFrame} (hu : u ∈ us) (hdue : u.Due cfg now)
    (id : Nat) :
  (dueFrames cfg now us).2.2 = true
    ∨ u.frame id ∈ (dueFrames cfg now us).2.1.map (UnackedFrame.frame id)
  := by
  induction us with
  | nil => contradiction
  | cons v us ih =>
      have hsame : ∀ now n, UnackedFrame.frame id { u with sentAt := now, retransmits := n }
          = u.frame id := fun _ _ => rfl
      unfold dueFrames
      rcases List.mem_cons.mp hu with rfl | hu <;> grind

theorem sendRetransmissions_open (us : List UnackedFrame) (hopen : s.closed = false) :
  s.sendRetransmissions h us
    = { s with writes := s.writes ++ us.map (UnackedFrame.frame (s.heap h).id) }
  := by
  induction us generalizing s with
  | nil => simp [sendRetransmissions]
  | cons u us ih =>
      rw [sendRetransmissions, writeDataFrame_open hopen]
      refine (ih (by exact hopen)).trans ?_
      simp

theorem scanned_update {s' : Session} {c : Channel} (hclosed : s'.closed = s.closed)
    (hnow : s'.now = s.now) (hwrites : s.writes <+: s'.writes)
    (hheap : s'.heap = Function.update s.heap h c)
    (hc : (s.heap h).giveUp = true → c.giveUp = true) :
  s.Scanned h s'
  := by
  refine ⟨hclosed, hnow, hwrites, fun k hk => ?_, ?_⟩
  · rw [hheap, Function.update_of_ne hk]
  · rwa [hheap, Function.update_self]

theorem checkRetransmissions_open (cfg : SessionConfig) (hopen : s.closed = false) (h : Nat) :
  s.Scanned h (s.checkRetransmissions cfg h)
    ∧ (s.checkRetransmissions cfg h).writes = s.writes
      ++ (dueFrames cfg s.now (s.heap h).unacked).2.1.map (UnackedFrame.frame (s.heap h).id)
    ∧ ((dueFrames cfg s.now (s.heap h).unacked).2.2 = true →
      ((s.checkRetransmissions cfg h).heap h).giveUp = true)
  := by
  rw [checkRetransmissions, sendRetransmissions_open (s := s.update h _) _ hopen]
  refine ⟨scanned_update rfl rfl (List.prefix_append _ _) rfl fun hup => ?_, ?_, fun hmany => ?_⟩
  · simp [hup]
  · simp [update]
  · simp [hmany]

theorem scanned_finalize (cfg : SessionConfig) (h : Nat) (s : Session) :
  s.Scanned h (s.finalize cfg h)
  := by
  have hretire : (s.heap h).giveUp = true → (s.heap h).retire.giveUp = true := by
    rw [Channel.retire_eq]
    exact fun hup => hup
  unfold finalize
  split
  · exact ⟨rfl, rfl, List.prefix_rfl, fun _ _ => rfl, fun hup => hup⟩
  · rw [Station.retire_eq, removeChannelIf]
    dsimp only
    split
    · rw [beside_markClosedLocked cfg]
      exact scanned_update rfl rfl List.prefix_rfl rfl hretire
    · exact scanned_update rfl rfl List.prefix_rfl rfl hretire

theorem scanned_arqScan (cfg : SessionConfig) (hopen : s.closed = false) (h : Nat) :
  s.Scanned h (s.arqScan cfg h)
  := by
  unfold arqScan
  split
  · have hleave : s.Scanned h ((s.arqRemove h).update h fun c => { c with inARQ := false }) :=
      scanned_update rfl rfl List.prefix_rfl rfl fun hup => hup
    unfold maybeFinalize
    split
    · exact hleave.trans (scanned_finalize cfg h _)
    · exact hleave
  · exact (checkRetransmissions_open cfg hopen h).1

theorem arqScanAll_keeps (cfg : SessionConfig) (h : Nat) (hs : List Nat)
    (hopen : s.closed = false) :
  s.writes <+: (s.arqScanAll cfg hs).writes
    ∧ ((s.heap h).giveUp = true → ((s.arqScanAll cfg hs).heap h).giveUp = true)
  := by
  induction hs generalizing s with
  | nil => exact ⟨List.prefix_rfl, id⟩
  | cons k hs ih =>
      have hscan := scanned_arqScan cfg hopen k
      obtain ⟨hwrites, hup⟩ := ih (hscan.closed.trans hopen)
      refine ⟨hscan.writes.trans hwrites, fun hold => hup ?_⟩
      by_cases hk : h = k
      · subst hk
        exact hscan.giveUp hold
      · rwa [hscan.heap h hk]

/-- The timer queues every frame that is due, or gives its channel up. -/
theorem arqScanAll_due {hs : List Nat} (hh : h ∈ hs) (hopen : s.closed = false)
    (hu : u ∈ (s.heap h).unacked) (hdue : u.Due cfg s.now) :
  ∃ new, (s.arqScanAll cfg hs).writes = s.writes ++ new
    ∧ (u.frame (s.heap h).id ∈ new ∨ ((s.arqScanAll cfg hs).heap h).giveUp = true)
  := by
  induction hs generalizing s with
  | nil => contradiction
  | cons k hs ih =>
      have hscan := scanned_arqScan cfg hopen k
      have hopen' := hscan.closed.trans hopen
      by_cases hk : h = k
      · subst hk
        obtain ⟨⟨new, hnew⟩, hup⟩ := arqScanAll_keeps cfg h hs hopen'
        rw [arqScan, if_neg (List.ne_nil_of_mem hu)] at hnew hup
        obtain ⟨-, hwrites, hmany⟩ := checkRetransmissions_open cfg hopen h
        rw [arqScanAll, arqScan, if_neg (List.ne_nil_of_mem hu)]
        refine ⟨_, by rw [← hnew, hwrites, List.append_assoc], ?_⟩
        rcases mem_dueFrames hu hdue (s.heap h).id with hoften | hsend
        · exact .inr (hup (hmany hoften))
        · exact .inl (List.mem_append_left _ hsend)
      · obtain ⟨new, hnew⟩ := hscan.writes
        have hsame := hscan.heap h hk
        obtain ⟨new', hnew', hdone⟩ := ih ((List.mem_cons.mp hh).resolve_left hk) hopen'
          (by rwa [hsame]) (by rwa [hscan.now])
        refine ⟨new ++ new', by rw [arqScanAll, hnew', ← hnew, List.append_assoc], ?_⟩
        rw [hsame] at hdone
        exact hdone.imp_left (List.mem_append_right _)

end Session

namespace World

variable {cfg : Side → SessionConfig} {now : Side → Int} {w : World}

/-- An action that closes no session.  The transport is ordered and lossless, or the sessions
retransmit. -/
def Carries (cfg : Side → SessionConfig) (w : World) (a : Action) : Prop :=
  w.StaysOpen cfg a ∧ ((∀ d, (cfg d).reliability = true) ∨ w.InOrder cfg a)

instance (a : Action) : Decidable (w.Carries cfg a) := by
  unfold Carries
  infer_instance

theorem updates_of_run (hrun : Run (World.step cfg) (Carries cfg) (World.init cfg now) w) :
  (Net.ofWorld w).Shape ∧ ∀ d, (w.sess d).closed = false ∧ Station.Updates { sess := w.sess d }
  := by
  have hrules : ∀ w e o, Op.Follows ((Net.lossyTerms (fun _ _ => False) fun _ _ => False).rules e)
      (World.sess w e) o := by
    intro w e o
    cases o <;> simp [Op.Follows, Net.lossyTerms]
  apply Net.invariant_of_run (Net.lossyTerms (fun _ _ => False) fun _ _ => False) (I := fun n =>
    ∀ d, (n.st d).sess.closed = false ∧ (n.st d).Updates) _ _ _ _ hrun
  · rintro w a ⟨-, hrel | horder⟩
    · exact Net.allows_lossy hrel not_false (fun _ _ => trivial) (fun _ => not_false)
        fun e o _ => hrules w e o
    · exact Net.allows_inOrder (fun _ _ => trivial) (fun _ => not_false) horder
        fun e o _ => hrules w e o
  · rintro w a w' ⟨hopen, -⟩ hstep e
    exact hopen.closed_eq hstep e
  · intro n n' _ hn hstep d
    exact ⟨(Net.Steps.marks_eq (.single hstep) d).1.trans (hn d).1,
      hstep.updates (fun d => (hn d).2) d⟩
  · exact fun d => ⟨rfl, Station.updates_new (now d)⟩

/-- Retransmission, in every world that two sessions reach: a tick of the timer queues every
unacknowledged frame that is due, or gives its channel up. -/
theorem retransmitted_when_due (hrun : Run (World.step cfg) (Carries cfg) (World.init cfg now) w)
    (d : Side) (h : Nat) (hh : h < (w.sess d).next) (u : UnackedFrame)
    (hu : u ∈ ((w.sess d).heap h).unacked) (hdue : u.Due (cfg d) (w.sess d).now) :
  ∃ new, ((w.sess d).arqTick (cfg d)).writes = (w.sess d).writes ++ new
    ∧ (u.frame ((w.sess d).heap h).id ∈ new
      ∨ (((w.sess d).arqTick (cfg d)).heap h).giveUp = true)
  := by
  obtain ⟨hshape, hupdates⟩ := updates_of_run hrun
  have harmed : ((w.sess d).heap h).Armed := (hshape.st d).armed h hh
  have hscanned := (hshape.st d).scan.scanned h hh (harmed (List.ne_nil_of_mem hu))
  exact Session.arqScanAll_due hscanned (hupdates d).1 hu hdue

/-- A frame is lost, and its channel sends it again when the timer fires. -/
theorem retransmitted_when_lost :
  ∃ w : World, w.link .left = [] ∧ ∃ new,
    ((w.sess .left).arqTick (smallConfig true)).writes = (w.sess .left).writes ++ new
      ∧ (dataFrame 11 0 [1] ∈ new
        ∨ (((w.sess .left).arqTick (smallConfig true)).heap 0).giveUp = true)
  := by
  obtain ⟨w, hrun, hlost, hnext, u, hu, hframe, hdue⟩ := Run.exists_of_exec
    (World.step fun _ => smallConfig true) (Carries fun _ => smallConfig true)
    (World.init (fun _ => smallConfig true) fun _ => 0)
    [.op .left (.openChannel [97]), .op .left (.write 0 [1]), .flush .left [false], .drop .left 0,
      .op .left (.tick 1000000000)]
    (fun w => w.link .left = [] ∧ 0 < (w.sess .left).next ∧ ∃ u ∈ ((w.sess .left).heap 0).unacked,
      u.frame ((w.sess .left).heap 0).id = dataFrame 11 0 [1]
        ∧ u.Due (smallConfig true) (w.sess .left).now)
    (by decide +kernel)
  have hsent := retransmitted_when_due hrun .left 0 hnext u hu hdue
  rw [hframe] at hsent
  exact ⟨w, hlost, hsent⟩

/-- Window updates, in every world that two sessions reach: credit for what has been read is below
the threshold of its window, and credit that is to be returned has a frame queued that will
return it. -/
theorem credit_returned (hrun : Run (World.step cfg) (Carries cfg) (World.init cfg now) w)
    (d : Side) :
  (∀ h < (w.sess d).next,
      ((w.sess d).heap h).flow.consumed < ((w.sess d).heap h).flow.threshold
        ∧ (((w.sess d).heap h).flow.unflushed ≠ 0 →
          ∃ f ∈ (w.sess d).ctrlQueue ++ (w.sess d).lateCtrl, f.streamFlow = some h))
    ∧ ((w.sess d).flow.enabled = true →
      (w.sess d).flow.consumed < (w.sess d).flow.threshold
        ∧ ((w.sess d).flow.unflushed ≠ 0 →
          ∃ f ∈ (w.sess d).ctrlQueue ++ (w.sess d).lateCtrl, f.sessionFlow = true))
  := by
  obtain ⟨hshape, hupdates⟩ := updates_of_run hrun
  have hcontrols : Station.controls { sess := w.sess d }
      = (w.sess d).ctrlQueue ++ (w.sess d).lateCtrl := List.append_nil _
  obtain ⟨hstream, hsession, hwindow⟩ := (hupdates d).2
  rw [← hcontrols]
  refine ⟨fun h hh => ?_, fun henabled => ?_⟩
  · have hflow := (hshape.st d).windows h hh
    exact ⟨hflow.consumed, fun hne => hstream h hh (hflow.unflushed hne)⟩
  · have hflow := hwindow henabled
    exact ⟨hflow.consumed, fun hne => hsession (hflow.unflushed hne)⟩

/-- Six bytes have been read, and the update for them is queued. -/
theorem credit_returned_read :
  ∃ w : World, ((w.sess .right).heap 0).flow.unflushed = 6
    ∧ ∃ f ∈ (w.sess .right).ctrlQueue ++ (w.sess .right).lateCtrl, f.streamFlow = some 0
  := by
  obtain ⟨w, hrun, hnext, hread⟩ := Run.exists_of_exec
    (World.step fun _ => smallConfig true) (Carries fun _ => smallConfig true)
    (World.init (fun _ => smallConfig true) fun _ => 0)
    [.op .left (.openChannel [97]), .op .right (.openChannel [97]),
      .op .left (.write 0 [1, 2, 3, 4, 5, 6]), .flush .left [false], .recv .right 0 false,
      .op .right (.read 0 6)]
    (fun w => 0 < (w.sess .right).next ∧ ((w.sess .right).heap 0).flow.unflushed = 6)
    (by decide +kernel)
  exact ⟨w, hread, ((credit_returned hrun .right).1 0 hnext).2 (by omega)⟩

/-- The table of a session, in every world that two sessions reach: it has the channels that are
not finalized, so that no two of them have one identifier, and frames are kept early only for
identifiers without one. -/
theorem table_iff_live (hrun : Run (World.step cfg) (Carries cfg) (World.init cfg now) w)
    (d : Side) (id h : Nat) :
  ((w.sess d).channels id = some h
      ↔ h < (w.sess d).next ∧ ((w.sess d).heap h).id = id ∧ ((w.sess d).heap h).done = false)
    ∧ (((w.sess d).pending.lookup id).isSome = true → (w.sess d).channels id = none)
  := by
  obtain ⟨htabled, hlive, hstashed⟩ := ((updates_of_run hrun).1.st d).table
  refine ⟨⟨htabled id h, ?_⟩, hstashed id⟩
  rintro ⟨hh, rfl, hdone⟩
  exact hlive h hh hdone

/-- A label is opened, given up and opened again. -/
theorem table_iff_live_again :
  ∃ w : World, ((w.sess .left).heap 0).id = 11 ∧ ((w.sess .left).heap 0).done = true
    ∧ ((w.sess .left).heap 1).id = 11 ∧ ((w.sess .left).heap 1).done = false
  := by
  obtain ⟨w, hrun, hid, hdone, hagain⟩ := Run.exists_of_exec
    (World.step fun _ => smallConfig true) (Carries fun _ => smallConfig true)
    (World.init (fun _ => smallConfig true) fun _ => 0)
    [.op .left (.openChannel [97]), .op .left (.close false 0), .op .left (.localClose 0),
      .op .left (.openChannel [97])]
    (fun w => ((w.sess .left).heap 0).id = 11 ∧ ((w.sess .left).heap 0).done = true
      ∧ (w.sess .left).channels 11 = some 1) (by decide +kernel)
  exact ⟨w, hid, hdone, ((table_iff_live hrun .left 11 1).1.mp hagain).2⟩

/-- Every byte that one side has written for some identifiers, without retransmissions over an
ordered, lossless transport, is in one place: queued or in flight, kept early or unread, or it
has been delivered, dropped, lost or discarded. -/
theorem bytes_in_one_place (hrel : ∀ d, (cfg d).reliability = false)
    (hrun : w.ReachedInOrder cfg now) (d : Side) (K : Nat → Bool) :
  (w.sess d).total K (fun c => c.writeOffset)
    = pay K (w.path d) + (w.sess d.other).stash K
      + (w.sess d.other).total K (fun c => c.unread)
      + (w.sess d.other).total K (fun c => c.delivered.length)
      + (w.sess d.other).total K (fun c => c.dropped)
      + (w.sess d.other).total K (fun c => c.lost) + (w.sess d.other).discards K
  := by
  obtain ⟨hshape, hledger⟩ := Net.ledger_of_run hrel hrun
  rw [pay_path hshape]
  simpa [pay] using hledger.written_eq d K

/-- Of three bytes, one is in flight, one unread and one delivered. -/
theorem bytes_in_one_place_each :
  ∃ w : World, pay (· == 11) (w.path .left) = 1
    ∧ (w.sess .right).total (· == 11) (fun c => c.delivered.length) = 1
    ∧ (w.sess .left).total (· == 11) (fun c => c.writeOffset) = 3
  := by
  obtain ⟨w, hrun, hpath, hread, hrest⟩ := ReachedInOrder.exists_of_exec
    (fun _ => smallConfig false) (fun _ => 0)
    [.op .left (.openChannel [97]), .op .right (.openChannel [97]), .op .left (.write 0 [1, 2]),
      .op .left (.write 0 [3]), .flush .left [false], .recv .right 0 false, .op .right (.read 0 1)]
    (fun w => pay (· == 11) (w.path .left) = 1
      ∧ (w.sess .right).total (· == 11) (fun c => c.delivered.length) = 1
      ∧ (w.sess .right).stash (· == 11) = 0
      ∧ (w.sess .right).total (· == 11) (fun c => c.unread) = 1
      ∧ (w.sess .right).total (· == 11) (fun c => c.dropped) = 0
      ∧ (w.sess .right).total (· == 11) (fun c => c.lost) = 0
      ∧ (w.sess .right).discards (· == 11) = 0)
    (by decide +kernel)
  have hsum := bytes_in_one_place (fun _ => rfl) hrun .left (· == 11)
  simp only [Side.other] at hsum
  exact ⟨w, hpath, hread, by omega⟩

end World

end Muxocket
