import Muxocket.Balance
import Muxocket.Updates

/-!
# Flow control without retransmissions

Over an ordered, lossless transport two sessions without retransmissions never lose track of
their credit.  What is not left of a window is somewhere else: in a queue, in flight, unread,
or on its way back.
-/

namespace Muxocket

open Session
open WriteFrame (packet)

namespace World

/-- The frames queued by the side `d` or in flight from it. -/
def path (d : Side) (w : World) : List PacketFrame :=
  ((w.sess d).ctrlQueue ++ (w.sess d).lateCtrl ++ (w.sess d).lateWrites
    ++ (w.sess d).writes).map packet ++ w.link d

/-- An action over an ordered, lossless transport for streams that does not drop it. -/
def InOrder (cfg : Side → SessionConfig) (w : World) : Action → Prop
  | .op _ _ => True
  | .flush _ _ => True
  | .recv d i busy =>
      i = 0 ∧ ∀ f ∈ (w.link d.other)[i]?, ((w.sess d).receiveStream (cfg d) busy f).1 ≠ .disconnect
  | .recvDatagram _ _ _ => False
  | .drop _ _ => False
  | .dup _ _ => False

/-- An action that closes none of the sessions. -/
def StaysOpen (cfg : Side → SessionConfig) (w : World) (a : Action) : Prop :=
  ((w.step cfg a).all fun w' => !(w'.sess .left).closed && !(w'.sess .right).closed) = true

instance (cfg : Side → SessionConfig) (w : World) (a : Action) : Decidable (w.InOrder cfg a) := by
  cases a <;> unfold InOrder <;> infer_instance

instance (cfg : Side → SessionConfig) (w : World) (a : Action) : Decidable (w.StaysOpen cfg a) := by
  unfold StaysOpen
  infer_instance

/-- The world is reached from two new sessions over an ordered, lossless transport, and none of
the sessions is ever closed. -/
def ReachedInOrder (cfg : Side → SessionConfig) (now : Side → Int) (w : World) : Prop :=
  Run (World.step cfg) (fun w a => w.InOrder cfg a ∧ w.StaysOpen cfg a) (World.init cfg now) w

/-- Actions in order lead to a world that is reached. -/
theorem ReachedInOrder.exists_of_exec (cfg : Side → SessionConfig) (now : Side → Int)
    (actions : List Action) (Q : World → Prop) [DecidablePred Q]
    (h : (exec (World.step cfg) (fun w a => w.InOrder cfg a ∧ w.StaysOpen cfg a)
      (World.init cfg now) actions).any (fun w => decide (Q w)) = true) :
  ∃ w : World, w.ReachedInOrder cfg now ∧ Q w
  := Run.exists_of_exec _ _ _ actions Q h

theorem StaysOpen.closed_eq {cfg : Side → SessionConfig} {w w' : World} {a : Action}
    (hopen : w.StaysOpen cfg a) (hstep : w.step cfg a = some w') (d : Side) :
  (w'.sess d).closed = false
  := by
  have hboth : (w'.sess .left).closed = false ∧ (w'.sess .right).closed = false := by
    simpa [StaysOpen, hstep] using hopen
  cases d
  · exact hboth.1
  · exact hboth.2

end World

/-- No channel of the session that has had the identifier is finalized. -/
def Session.Unfinished (id : Nat) (s : Session) : Prop :=
  ∀ h < s.next, (s.heap h).id = id → (s.heap h).done = false

theorem Session.Unfinished.single {id : Nat} {s : Session} (hs : s.Unfinished id)
    (htable : Station.TableOk s) :
  s.Single id
  := by
  intro h hh k hk hid hid'
  have hlive := htable.live h hh (hs h hh hid)
  have hlive' := htable.live k hk (hs k hk hid')
  rw [hid] at hlive
  rw [hid', hlive] at hlive'
  exact Option.some.inj hlive'

theorem Session.unfinished_of_one {s : Session} (hnext : s.next = 1)
    (hdone : (s.heap 0).done = false) (id : Nat) :
  s.Unfinished id
  := by
  intro h hh _
  obtain rfl : h = 0 := by omega
  exact hdone

/-- What is not finalized after a move was not finalized before it. -/
theorem Station.Move.unfinished {cfg : SessionConfig} {r : Rules} {t t' : Station}
    (hm : Station.Move cfg r t t') {id : Nat} (ht : t'.sess.Unfinished id) :
  t.sess.Unfinished id
  := by
  intro h hh hid
  have hid' := hm.id_eq hh
  have hnext : t.sess.next ≤ t'.sess.next := by
    rcases hm.next_eq with heq | ⟨_, _, _, _, _, rfl⟩
    · omega
    · simp [Session.publish]
  have hdone := ht h (by omega) (by rw [hid', hid])
  rcases hm.table with ⟨-, -, hsame⟩ | ⟨k, -, rfl⟩ | ⟨id', -, -, -, rfl⟩
  · rw [← hsame, hdone]
  · rw [Station.done_retire] at hdone
    split at hdone
    · contradiction
    · exact hdone
  · simpa [Session.publish, Function.update_of_ne (Nat.ne_of_lt hh)] using hdone

/-! ### Sums over sessions -/

theorem Session.discards_nonneg (K : Nat → Bool) (s : Session) :
  0 ≤ s.discards K
  := by
  apply List.sum_nonneg
  intro x hx
  obtain ⟨e, -, rfl⟩ := List.mem_map.mp hx
  split <;> omega

theorem Session.stash_nonneg (K : Nat → Bool) (s : Session) :
  0 ≤ s.stash K
  := by
  apply List.sum_nonneg
  intro x hx
  obtain ⟨e, -, rfl⟩ := List.mem_map.mp hx
  split <;> omega

theorem total_got (K : Nat → Bool) (s : Session) :
  s.total K Channel.got
    = s.total K (fun c => c.unread) + s.total K (fun c => c.delivered.length)
      + s.total K (fun c => c.dropped) + s.total K (fun c => c.lost)
  := by
  unfold Channel.got
  rw [total_add, total_add, total_add]

namespace Net

variable {cfg : Side → SessionConfig} {terms : Terms} {n n' : Net}

/-! ### Data -/

/-- Without retransmissions every byte that has been written is in one place. -/
structure Carried (n : Net) : Prop where
  unacked : ∀ d, ∀ h < (n.st d).sess.next, ((n.st d).sess.heap h).unacked = []
  pending : ∀ d, (n.st d).sess.pendingBytes = (n.st d).sess.stash fun _ => true
  goods : ∀ d K, n.goodsBalance d K = 0

theorem Step.carried (hstep : Step cfg terms n n') (hshape : n.Shape) (hordered : terms.ordered)
    (hrel : ∀ d, (cfg d).reliability = false) (hn : n.Carried) :
  n'.Carried
  where
  unacked d := by
    rcases hstep.sess_or_move d with hsame | hmove
    · rw [hsame]
      apply hn.unacked
    · apply hmove.unacked_nil (hrel d) (hn.unacked d)
  pending d := by
    rcases hstep.sess_or_move d with hsame | hmove
    · rw [hsame, hn.pending]
    · apply hmove.pendingBytes_eq (hn.pending d)
  goods d K := by
    rw [hstep.goodsBalance_eq hshape hordered hrel hn.unacked, hn.goods]

/-- Where the bytes are that the side `d` has written. -/
theorem Carried.written_eq (hn : n.Carried) (d : Side) (K : Nat → Bool) :
  (n.st d).sess.total K (fun c => c.writeOffset)
    = pay K (((n.st d).out ++ (n.st d).batch ++ (n.st d).sess.writes).map packet)
      + pay K (n.link d) + pay K (n.st d.other).hand + (n.st d.other).sess.stash K
      + (n.st d.other).sess.total K (fun c => c.unread)
      + (n.st d.other).sess.total K (fun c => c.delivered.length)
      + (n.st d.other).sess.total K (fun c => c.dropped)
      + (n.st d.other).sess.total K (fun c => c.lost) + (n.st d.other).sess.discards K
  := by
  have hgoods := hn.goods d K
  simp only [goodsBalance, Station.sent, Station.got, total_got] at hgoods
  omega

theorem Carried.covered (hn : n.Carried) (d : Side) (id : Nat) :
  n.Covered d id
  := by
  have hwritten := hn.written_eq d (· == id)
  have hpay := pay_nonneg (· == id)
    (((n.st d).out ++ (n.st d).batch ++ (n.st d).sess.writes).map packet)
  have hlink := pay_nonneg (· == id) (n.link d)
  have hhand := pay_nonneg (· == id) (n.st d.other).hand
  have hstash := stash_nonneg (· == id) (n.st d.other).sess
  have hdropped := total_natCast_nonneg (· == id) Channel.dropped (n.st d.other).sess
  have hlost := total_natCast_nonneg (· == id) Channel.lost (n.st d.other).sess
  have hdiscards := discards_nonneg (· == id) (n.st d.other).sess
  unfold Covered
  rw [total_add]
  omega

theorem Carried.coveredSession (hn : n.Carried) (hrel : ∀ d, (cfg d).reliability = false)
    (d : Side) :
  n.CoveredSession cfg d
  := by
  have hwritten := hn.written_eq d fun _ => true
  have hpay := pay_nonneg (fun _ => true)
    (((n.st d).out ++ (n.st d).batch ++ (n.st d).sess.writes).map packet)
  have hlink := pay_nonneg (fun _ => true) (n.link d)
  have hhand := pay_nonneg (fun _ => true) (n.st d.other).hand
  have hstash := stash_nonneg (fun _ => true) (n.st d.other).sess
  have hunread := total_natCast_nonneg (fun _ => true) Channel.unread (n.st d.other).sess
  have hlost := total_natCast_nonneg (fun _ => true) Channel.lost (n.st d.other).sess
  unfold CoveredSession
  rw [total_add, hrel, if_neg (by simp)]
  omega

/-! ### Credit -/

/-- The bytes and the credit of two sessions without retransmissions are accounted for: the
credit of an identifier until its channel is finalized where it is spent, and that of the
session if the windows of the sessions are 32-bit integers. -/
structure Ledger (cfg : Side → SessionConfig) (n : Net) : Prop extends Carried n where
  stream : ∀ d id, id ≠ 0 → (n.st d).sess.Unfinished id → n.StreamOk cfg d id
  session : (∀ d, (cfg d).initialSessionWindow < 2 ^ 31) → ∀ d, n.SessionOk cfg d
  updates : ∀ d, (n.st d).Updates

/-- A channel that is neither finalized nor in the table has not been opened, so no credit
comes for it. -/
theorem StreamOk.credits_hand {d : Side} {id : Nat} (hn : n.StreamOk cfg d id)
    (htable : Station.TableOk (n.st d).sess) (hunfinished : (n.st d).sess.Unfinished id)
    (hcover : n.Covered d id) (hnone : (n.st d).sess.channels id = none) :
  credits id (n.st d).hand = 0
  := by
  have hnew : ∀ g, (n.st d).sess.total (· == id) g = 0 := by
    intro g
    apply total_eq_zero
    intro h hh hid
    obtain rfl : ((n.st d).sess.heap h).id = id := by simpa using hid
    have hlive := htable.live h hh (hunfinished h hh rfl)
    rw [hnone] at hlive
    contradiction
  have hbalance := hn.balance
  unfold streamBalance Station.spent Station.returning at hbalance
  rw [hnew, total_returning] at hbalance
  unfold Covered at hcover
  rw [total_add, hnew] at hcover
  have hreturning := hn.returning_nonneg
  have hunread := total_natCast_nonneg (· == id) Channel.unread (n.st d.other).sess
  have hhand := credits_nonneg id (n.st d).hand
  have hlink := credits_nonneg id (n.link d.other)
  have hout := credits_nonneg id ((n.st d.other).out.map packet)
  omega

theorem Step.ledger (hstep : Step cfg terms n n') (hshape : n.Shape) (hordered : terms.ordered)
    (hrel : ∀ d, (cfg d).reliability = false) (hn : n.Ledger cfg) :
  n'.Ledger cfg
  where
  toCarried := hstep.carried hshape hordered hrel hn.toCarried
  stream d id hid hunfinished' := by
    have htable := (hshape.st d).table
    have hcover := hn.covered d id
    have hunfinished : (n.st d).sess.Unfinished id := by
      rcases hstep.sess_or_move d with hsame | hmove
      · rwa [← hsame]
      · apply hmove.unfinished hunfinished'
    have hstream := hn.stream d id hid hunfinished
    apply hstep.streamOk hshape hid hstream (hunfinished.single htable) hcover (.inl hordered)
    right
    apply hstream.credits_hand htable hunfinished hcover
  session hwindow d := by
    apply hstep.sessionOk hshape (hn.session hwindow d) (hwindow d)
      (hn.coveredSession hrel d) (.inl hordered)
  updates := hstep.updates hn.updates

theorem streamOk_init (cfg : Side → SessionConfig) (now : Side → Int) (d : Side) (id : Nat) :
  (ofWorld (World.init cfg now)).StreamOk cfg d id
  := by
  constructor
  · simp [streamBalance, Station.spent, Station.returning, total, sumOver]
  · intro h hh
    simp at hh
  · intro h hh
    simp at hh

theorem sessionOk_init (now : Side → Int) (hwindow : ∀ d, (cfg d).initialSessionWindow < 2 ^ 31)
    (d : Side) :
  (ofWorld (World.init cfg now)).SessionOk cfg d
  := by
  have hflow : ∀ e, (newSession (cfg e) (now e)).flow
      = { toFlow := Flow.new (cfg e).initialSessionWindow, enabled := true } := by
    intro e
    have hlt := hwindow e
    have hpos := (cfg e).session_pos
    simp only [newSession, newSessionFlow]
    rw [int32_of_mem (by omega) (by omega), if_neg (by omega)]
  constructor
  · have hd := hflow d
    have he := hflow d.other
    simp only [sessionBalance, Station.spentSession, Station.returningSession, ofWorld, World.init,
      hd, he]
    simp [Flow.new, total, sumOver, discards]
  · intro e
    simp only [ofWorld, World.init, hflow e]
  · simp only [ofWorld, World.init, hflow d, Flow.new]
    omega
  · simp only [ofWorld, World.init, hflow d.other, Flow.new, le_refl]
  · simp only [ofWorld, World.init, hflow d.other, Flow.new, le_refl]

theorem ledger_init (cfg : Side → SessionConfig) (now : Side → Int) :
  (ofWorld (World.init cfg now)).Ledger cfg
  where
  unacked d h hh := by
    simp at hh
  pending d := by
    simp [stash]
  goods d K := by
    simp [goodsBalance, Station.sent, Station.got, stash, total, discards, sumOver]
  stream d id _ _ := streamOk_init cfg now d id
  session hwindow d := sessionOk_init now hwindow d
  updates d := Station.updates_new (now d)

/-- Nothing is known of what the sessions do, but the transport is ordered and lossless. -/
def inOrderTerms : Terms where
  rules _ := { once := fun _ => False, kept := fun _ => False, updates := False }
  ordered := True

/-- Over an ordered, lossless transport, something is asked of the operations alone. -/
theorem allows_inOrder {terms : Terms} {w : World} {a : Action}
    (hlate : ∀ d id, (terms.rules d).late id) (hupdates : ∀ d, ¬ (terms.rules d).updates)
    (horder : w.InOrder cfg a)
    (hop : ∀ d o, a = .op d o → o.Follows (terms.rules d) (w.sess d)) :
  Allows cfg terms w a
  := by
  cases a with
  | op d o => exact hop d o rfl
  | flush d picks => trivial
  | recv d i busy =>
      refine ⟨fun _ => horder.1, ?_, prompt_of_late (hlate d) w i, .inr fun f hf => horder.2 f hf⟩
      intro f _ hupdate
      exact absurd hupdate (hupdates d)
  | recvDatagram | drop | dup => exact horder.elim

/-- The books of two sessions without retransmissions balance in every world that is reached
over an ordered, lossless transport. -/
theorem ledger_of_run {now : Side → Int} {w : World} (hrel : ∀ d, (cfg d).reliability = false)
    (hrun : w.ReachedInOrder cfg now) :
  (ofWorld w).Shape ∧ (ofWorld w).Ledger cfg
  := by
  apply invariant_of_run inOrderTerms _ _ _ (ledger_init cfg now) hrun
  · rintro w a ⟨horder, -⟩
    apply allows_inOrder (fun _ _ => trivial) (fun _ => not_false) horder
    rintro d o rfl
    cases o <;> simp [Op.Follows, inOrderTerms]
  · rintro w a w' ⟨-, hopen⟩ hstep d
    apply hopen.closed_eq hstep
  · intro n n' hshape hn hstep
    apply hstep.ledger hshape trivial hrel hn

end Net

namespace World

/-! ### What is queued or in flight -/

variable {w : World} {cfg : Side → SessionConfig}

section

variable (hshape : (Net.ofWorld w).Shape)

include hshape

theorem pay_path (d : Side) (K : Nat → Bool) :
  pay K (w.path d) = pay K ((w.sess d).writes.map packet) + pay K (w.link d)
  := by
  have hqueue := (hshape.st d).queue
  have hctrl : pay K (((w.sess d).ctrlQueue ++ (w.sess d).lateCtrl).map packet) = 0 := by
    apply pay_eq_zero
    intro f hf
    obtain ⟨g, hg, rfl⟩ := List.mem_map.mp hf
    apply Station.payload_control (hqueue.ctrl g hg)
  have hlate : pay K ((w.sess d).lateWrites.map packet) = 0 := by
    apply pay_eq_zero
    intro f hf
    obtain ⟨g, hg, rfl⟩ := List.mem_map.mp hf
    obtain ⟨id, offset, rfl⟩ := hqueue.late g hg
    rfl
  unfold path
  rw [List.map_append, List.map_append, pay_append, pay_append, pay_append, hctrl, hlate]
  omega

theorem credits_path (d : Side) (id : Nat) :
  credits id (w.path d) = credits id (w.link d)
  := by
  have hqueue := (hshape.st d).queue
  unfold path
  rw [credits_append, credits_eq_zero, zero_add]
  intro f hf
  obtain ⟨g, hg, rfl⟩ := List.mem_map.mp hf
  rcases List.mem_append.mp hg with hg | hg
  · rcases List.mem_append.mp hg with hg | hg
    · cases hqueue.ctrl g hg with
      | plain hplain =>
          rw [hplain.2]
          intro _
          rfl
      | _ =>
          intro _
          rfl
    · obtain ⟨id, offset, rfl⟩ := hqueue.late g hg
      intro hflag
      contradiction
  · cases hqueue.writes g hg with
    | _ =>
        intro hflag
        contradiction

/-! ### The window of a channel -/

/-- What is not left of the window of a channel is somewhere else. -/
theorem stream_window_sum (hledger : (Net.ofWorld w).Ledger cfg) {d : Side} {h : Nat}
    (hh : h < (w.sess d).next) {id : Nat} (hid : ((w.sess d).heap h).id = id)
    (hunfinished : (w.sess d).Unfinished id) :
  ((w.sess d).heap h).flow.sendCredits
      + pay (· == id) (w.path d) + (w.sess d.other).stash (· == id)
      + (w.sess d.other).total (· == id) (fun c => c.unread)
      + (w.sess d.other).total (· == id) (fun c => c.flow.consumed + c.flow.unflushed)
      + credits id (w.path d.other)
      + ((w.sess d.other).total (· == id) (fun c => c.dropped + c.lost)
        + (w.sess d.other).discards (· == id))
    = (cfg d).window
  := by
  have hne : id ≠ 0 := by
    rw [← hid]
    apply (hshape.st d).named h hh
  have hsingle := hunfinished.single (hshape.st d).table
  have hbalance := (hledger.stream d id hne hunfinished).balance
  have hwritten := hledger.written_eq d (· == id)
  simp only [Net.streamBalance, Station.spent, Station.returning, Net.ofWorld, total_returning,
    hsingle.total_eq hh hid, Channel.spent, credits_nil, List.map_nil] at hbalance
  simp only [Net.ofWorld, hsingle.total_eq hh hid, List.nil_append, pay_nil] at hwritten
  rw [pay_path hshape, credits_path hshape, total_add (g := fun c => (c.dropped : Int))]
  omega

end

/-- Flow control of one channel, between two sessions with the same window and without
retransmissions, over an ordered, lossless transport.  Until the sending side finalizes the
channel, what is not left of the window is queued, in flight, early or unread, or was consumed
or discarded by the receiving side and not yet returned.  So the credit stays within the
window, the credit that is granted is at most what was asked for, and no more than the window
is ever unread. -/
theorem stream_window_conserved (cfg : Side → SessionConfig) (now : Side → Int) (w : World)
    (W : Nat) (hrel : ∀ d, (cfg d).reliability = false)
    (hwindow : ∀ d, (cfg d).initialStreamWindow = W) (hlt : W < 2 ^ 31)
    (hrun : w.ReachedInOrder cfg now)
    (d : Side) (h : Nat) (hh : h < (w.sess d).next) (id : Nat) (hid : ((w.sess d).heap h).id = id)
    (hunfinished : (w.sess d).Unfinished id) :
  ((w.sess d).heap h).flow.sendCredits
      + pay (· == id) (w.path d) + (w.sess d.other).stash (· == id)
      + (w.sess d.other).total (· == id) (fun c => c.unread)
      + (w.sess d.other).total (· == id) (fun c => c.flow.consumed + c.flow.unflushed)
      + credits id (w.path d.other)
      + ((w.sess d.other).total (· == id) (fun c => c.dropped + c.lost)
        + (w.sess d.other).discards (· == id))
    = W
    ∧ 0 ≤ ((w.sess d).heap h).flow.sendCredits ∧ ((w.sess d).heap h).flow.sendCredits ≤ W
    ∧ (∀ desired sz s', 0 < desired → desired < 2 ^ 31 →
      (w.sess d).acquireCredits h desired = .granted sz s' → 1 ≤ sz ∧ sz ≤ desired)
    ∧ (w.sess d.other).total (· == id) (fun c => c.unread) ≤ W
  := by
  obtain ⟨hshape, hledger⟩ := Net.ledger_of_run hrel hrun
  have hne : id ≠ 0 := by
    rw [← hid]
    apply (hshape.st d).named h hh
  have hstream := hledger.stream d id hne hunfinished
  have hwindow' : (cfg d).window = W := by
    rw [SessionConfig.window_eq (by rw [hwindow]; exact hlt), hwindow]
  have hsum := stream_window_sum hshape hledger hh hid hunfinished
  have hspend := hstream.spend h hh hid
  have hpath := pay_nonneg (· == id) (w.path d)
  have hcredits := credits_nonneg id (w.path d.other)
  have hstash := (w.sess d.other).stash_nonneg (· == id)
  have hdiscards := (w.sess d.other).discards_nonneg (· == id)
  have hunread := (w.sess d.other).total_natCast_nonneg (· == id) Channel.unread
  have hlost := (w.sess d.other).total_natCast_nonneg (· == id) fun c => c.dropped + c.lost
  have hreturning := hstream.returning_nonneg
  push_cast at hlost
  simp only [Net.ofWorld] at hspend hreturning
  refine ⟨by omega, hspend, by omega, ?_, by omega⟩
  intro desired sz s' hpos hdesired hgranted
  have hbounds := Station.acquireCredits_granted hpos hdesired hgranted
  exact ⟨hbounds.1, hbounds.2.1⟩

/-- Three bytes are written, two of them read, and the credit for these is returned. -/
theorem stream_window_conserved_two_read :
  ∃ w : World,
    ((w.sess .left).heap 0).flow.sendCredits + pay (· == 11) (w.path .left)
        + (w.sess .right).stash (· == 11)
        + (w.sess .right).total (· == 11) (fun c => c.unread)
        + (w.sess .right).total (· == 11) (fun c => c.flow.consumed + c.flow.unflushed)
        + credits 11 (w.path .right)
        + ((w.sess .right).total (· == 11) (fun c => c.dropped + c.lost)
          + (w.sess .right).discards (· == 11)) = 8
      ∧ ((w.sess .left).heap 0).flow.sendCredits = 7
  := by
  obtain ⟨w, hrun, htest⟩ := ReachedInOrder.exists_of_exec (fun _ => smallConfig false)
    (fun _ => 0)
    [.op .left (.openChannel [97]), .op .left (.write 0 [1, 2, 3]), .flush .left [false],
      .op .right (.openChannel [97]), .recv .right 0 false, .op .right (.read 0 2),
      .flush .right [true], .recv .left 0 false]
    (fun w => (w.sess .left).next = 1 ∧ ((w.sess .left).heap 0).id = 11
      ∧ ((w.sess .left).heap 0).done = false ∧ ((w.sess .left).heap 0).flow.sendCredits = 7)
    (by decide +kernel)
  obtain ⟨hnext, hid, hdone, hcredits⟩ := htest
  have hunfinished := unfinished_of_one hnext hdone 11
  have hsum := stream_window_conserved (fun _ => smallConfig false) (fun _ => 0) w 8 (fun _ => rfl)
    (fun _ => rfl) (by decide) hrun .left 0 (by omega) 11 hid hunfinished
  exact ⟨w, hsum.1, hcredits⟩

/-! ### The window of a session -/

/-- What is not left of the window of a session is somewhere else. -/
theorem session_window_sum (hrel : ∀ d, (cfg d).reliability = false)
    (hshape : (Net.ofWorld w).Shape) (hledger : (Net.ofWorld w).Ledger cfg)
    (hwindow : ∀ d, (cfg d).initialSessionWindow < 2 ^ 31) (d : Side) :
  (w.sess d).flow.sendCredits + pay (fun _ => true) (w.path d) + (w.sess d.other).pendingBytes
      + (w.sess d.other).total (fun _ => true) (fun c => c.unread)
      + (w.sess d.other).flow.consumed + (w.sess d.other).flow.unflushed
      + credits 0 (w.path d.other)
      + (w.sess d.other).total (fun _ => true) (fun c => c.lost)
    = (cfg d).initialSessionWindow
  := by
  have hbalance := (hledger.session hwindow d).balance
  have hwritten := hledger.written_eq d fun _ => true
  have hpending := hledger.pending d.other
  simp only [Net.sessionBalance, Station.spentSession, Station.returningSession, Net.ofWorld,
    total_add, hrel, credits_nil, List.map_nil] at hbalance
  simp only [Net.ofWorld, List.nil_append, pay_nil] at hwritten hpending
  rw [pay_path hshape, credits_path hshape, hpending]
  simp at hbalance
  omega

/-! ### Stalls -/

theorem stash_eq_zero {s : Session} (htable : Station.TableOk s) {h id : Nat} (hh : h < s.next)
    (hid : (s.heap h).id = id) (hdone : (s.heap h).done = false) :
  s.stash (· == id) = 0
  := by
  have hlive := htable.live h hh hdone
  rw [hid] at hlive
  apply List.sum_eq_zero
  intro x hx
  obtain ⟨e, he, rfl⟩ := List.mem_map.mp hx
  have hne : e.1 ≠ id := by
    rintro rfl
    have hsome : (s.pending.lookup e.1).isSome = true := by
      rw [AList.lookup_isSome, AList.mem_keys]
      exact List.mem_map.mpr ⟨e, he, rfl⟩
    rw [htable.stashed e.1 hsome] at hlive
    contradiction
  simp [hne]

/-- When a side has nothing queued, no credit waits for a window update. -/
theorem unflushed_of_quiet (hshape : (Net.ofWorld w).Shape) (hledger : (Net.ofWorld w).Ledger cfg)
    {d : Side} (hquiet : w.path d = []) :
  (∀ h < (w.sess d).next, ((w.sess d).heap h).flow.unflushed = 0)
    ∧ ((w.sess d).flow.enabled = true → (w.sess d).flow.unflushed = 0)
  := by
  have hqueues : (w.sess d).ctrlQueue = [] ∧ (w.sess d).lateCtrl = [] := by
    simp only [path, List.append_eq_nil_iff, List.map_eq_nil_iff] at hquiet
    exact hquiet.1.1.1
  apply (hledger.updates d).unflushed_of_flushed (hshape.st d).windows hqueues.1 hqueues.2

end World

end Muxocket
