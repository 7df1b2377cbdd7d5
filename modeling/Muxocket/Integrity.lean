import Muxocket.Conveyance
import Muxocket.Reading

/-!
# The integrity of streams

Without retransmissions, and over an ordered, lossless transport, what the calls of a reader
return is the beginning of what its peer has written, and the end of the stream is reported
only when all of it has been returned and the peer has ended it.

While no reader makes a step, the two sessions take nothing from a ring, so what the readers
know stays true.  A step of a reader is one of the moves of its session.
-/

namespace Muxocket

namespace Net

variable {cfg : Side → SessionConfig} {terms : Terms} {n n' : Net}

/-- The terms of runs in which the applications read nothing. -/
def quietTerms : Terms where
  rules _ := { once := fun _ => True, kept := fun _ => False, updates := False, reads := False }
  ordered := True

/-- Steps without reading leave the readers what they know. -/
theorem Step.leaves (hstep : Step cfg terms n n') (hquiet : ∀ d, ¬ (terms.rules d).reads)
    (hshape : n.Shape) (hrel : ∀ d, (cfg d).reliability = false) (hn : n.Lossless cfg) (d : Side) :
  (n.st d).sess.Leaves (n'.st d).sess
  := by
  rcases hstep.sess_or_move d with hsame | hmove
  · rw [hsame]
    exact .refl _
  · apply hmove.leaves (hquiet d) (hshape.st d).ring
    intro h hh p hread hclosed hgets
    rcases hgets with ⟨-, f, hf, hflag, hid, -⟩ | ⟨hrel', -⟩
    · have hdone := (hn.orderly d.other f.chID).readDone_eq (h := h)
      rw [Side.other_other] at hdone
      rw [hdone hf hflag hh hid hclosed] at hread
      contradiction
    · rw [hrel d] at hrel'
      contradiction

/-- The bytes `b` are the whole of the stream that the channel `k` at the side `e` reads, and
the stream has ended, unless the channel has been closed or something of it has been
dropped. -/
def Complete (e : Side) (k : Nat) (n : Net) (b : Bytes) : Prop :=
  ((n.st e).sess.heap k).closed = false → (n.st e).sess.Retains ((n.st e).sess.heap k).id →
    b = ((n.st e.other).sess.sentBy ((n.st e).sess.heap k).id).flatten
      ∧ (n.st e.other).sess.Ended ((n.st e).sess.heap k).id

/-- Nothing comes after the end of a stream. -/
theorem Step.complete (hstep : Step cfg terms n n') (hshape : n.Shape)
    (honce : ∀ d id, (terms.rules d).once id) (hsingle : ∀ d id, (n.st d).sess.Single id)
    {e : Side} {k : Nat} (hk : k < (n.st e).sess.next) {b : Bytes} (hb : n.Complete e k b) :
  n'.Complete e k b
  := by
  have hreader : ((n'.st e).sess.heap k).id = ((n.st e).sess.heap k).id
      ∧ (((n'.st e).sess.heap k).closed = false → ((n.st e).sess.heap k).closed = false)
      ∧ ∀ id, (n'.st e).sess.Retains id → (n.st e).sess.Retains id := by
    rcases hstep.sess_or_move e with hsame | hmove
    · rw [hsame]
      exact ⟨rfl, fun h => h, fun _ h => h⟩
    · exact ⟨hmove.id_eq hk, hmove.closed_eq hk, fun _ => hmove.retains⟩
  obtain ⟨hid, hclosed, hretains⟩ := hreader
  intro hclosed' hretains'
  rw [hid] at hretains' ⊢
  obtain ⟨rfl, hended⟩ := hb (hclosed hclosed') (hretains _ hretains')
  obtain ⟨hsent, hended'⟩ := hstep.ended hshape (honce e.other _) (hsingle e.other _) hended
  exact ⟨by rw [hsent], hended'⟩

/-- A reader that has seen the end of its stream, and finds nothing in its ring, has got the
whole of it. -/
theorem Faithful.complete (hn : n.Faithful cfg) {e : Side} {k : Nat} (hk : k < (n.st e).sess.next)
    (hread : ((n.st e).sess.heap k).readDone = true)
    (hempty : ((n.st e).sess.heap k).buffers.flatten = []) :
  n.Complete e k ((n.st e).sess.heap k).delivered
  := by
  intro hclosed hretains
  have hdelivered := hn.delivered (d := e.other) (k := k)
  rw [Side.other_other] at hdelivered
  obtain ⟨rest, hsent, hdone⟩ := hdelivered hk hclosed hretains
  obtain ⟨rfl, hended⟩ := hdone hread
  rw [hempty, List.append_nil, List.append_nil] at hsent
  exact ⟨hsent.symm, hended⟩

/-- What two faithful sessions keep in their steps: they stay faithful, and a stream that is
complete stays complete. -/
theorem Steps.complete (hsteps : Steps cfg terms n n') (hshape : n.Shape) (hordered : terms.ordered)
    (honce : ∀ d id, (terms.rules d).once id) (hrel : ∀ d, (cfg d).reliability = false)
    (hn : n.Faithful cfg) :
  n'.Shape ∧ n'.Faithful cfg
    ∧ ∀ e, ∀ k < (n.st e).sess.next, ∀ b, n.Complete e k b → n'.Complete e k b
  := by
  have hall : n'.Shape ∧ n'.Faithful cfg ∧ ∀ e, (n.st e).sess.next ≤ (n'.st e).sess.next
      ∧ ∀ k < (n.st e).sess.next, ∀ b, n.Complete e k b → n'.Complete e k b := by
    apply hsteps.invariant (I := fun n' => n'.Faithful cfg
      ∧ ∀ e, (n.st e).sess.next ≤ (n'.st e).sess.next
        ∧ ∀ k < (n.st e).sess.next, ∀ b, n.Complete e k b → n'.Complete e k b) _ hshape
    · exact ⟨hn, fun e => ⟨le_refl _, fun _ _ _ h => h⟩⟩
    · rintro n₁ n₂ hshape₁ ⟨hn₁, hkeep⟩ hstep
      refine ⟨hstep.faithful hshape₁ hordered honce hrel hn₁, fun e => ?_⟩
      obtain ⟨hnext, hcomplete⟩ := hkeep e
      have hgrow : (n₁.st e).sess.next ≤ (n₂.st e).sess.next := by
        rcases hstep.sess_or_move e with hsame | hmove
        · rw [hsame]
        · exact hmove.closed_next.2
      refine ⟨le_trans hnext hgrow, fun k hk b hb => ?_⟩
      exact hstep.complete hshape₁ honce (fun d id => (hn₁.orderly d id).single)
        (lt_of_lt_of_le hk hnext) (hcomplete k hk b hb)
  exact ⟨hall.1, hall.2.1, fun e => (hall.2.2 e).2⟩

/-- Sequences of steps without reading leave the readers what they know. -/
theorem Steps.leaves (hsteps : Steps cfg quietTerms n n') (hshape : n.Shape)
    (hrel : ∀ d, (cfg d).reliability = false) (hn : n.Faithful cfg) (d : Side) :
  (n.st d).sess.Leaves (n'.st d).sess
  := by
  have hall : n'.Shape ∧ n'.Faithful cfg ∧ (n.st d).sess.Leaves (n'.st d).sess := by
    apply hsteps.invariant (I := fun n' => n'.Faithful cfg
      ∧ (n.st d).sess.Leaves (n'.st d).sess) _ hshape ⟨hn, .refl _⟩
    rintro n₁ n₂ hshape₁ ⟨hn₁, hleaves⟩ hstep
    exact ⟨hstep.faithful hshape₁ trivial (fun _ _ => trivial) hrel hn₁,
      hleaves.trans (hstep.leaves (fun _ h => h) hshape₁ hrel hn₁.toLossless d)⟩
  exact hall.2.2

end Net

namespace Peers

variable {cfg : Side → SessionConfig} {p p' : Peers}

/-- An event of a run over an ordered, lossless transport, by which no session is closed and no
label is opened a second time. -/
def InOrder (cfg : Side → SessionConfig) (p : Peers) : Event → Prop
  | .act a => p.world.InOrder cfg a ∧ p.world.StaysOpen cfg a ∧ p.world.OpensOnce a
  | .call _ _ _ => True
  | .close _ => False
  | .endChannels _ => False
  | .goAway _ => False

instance (cfg : Side → SessionConfig) (p : Peers) (a : Event) : Decidable (p.InOrder cfg a) := by
  cases a <;> unfold InOrder <;> infer_instance

/-- Two faithful sessions with their readers. -/
structure Faithful (cfg : Side → SessionConfig) (p : Peers) : Prop where
  opened : ∀ d, (p.world.sess d).closed = false
  shape : (Net.ofWorld p.world).Shape
  net : (Net.ofWorld p.world).Faithful cfg
  reads : p.Reads fun e k w b => (Net.ofWorld w).Complete e k b

theorem allows_quiet {a : Action} (henabled : p.enabled a = true) (horder : p.world.InOrder cfg a)
    (honce : p.world.OpensOnce a) :
  Net.Allows cfg Net.quietTerms p.world a
  := by
  apply Net.allows_inOrder (fun _ _ => trivial) (fun _ => not_false) horder
  rintro d o rfl
  exact honce.follows (fun _ _ => not_false) (.inr (not_reads_of_enabled henabled))

/-- A session that hears the goodbye of its peer is closed. -/
theorem hearsGoAway_eq_none {a : Action} (horder : p.world.InOrder cfg a)
    (hopen : p.world.StaysOpen cfg a) :
  hearsGoAway p.world a = none
  := by
  cases a with
  | recv d i busy =>
      cases hf : (p.world.link d.other)[i]? with
      | none => simp [hearsGoAway, hf]
      | some f =>
          by_cases hflag : f.flag = .goaway
          · have hstep : p.world.step cfg (.recv d i busy) = some ((p.world.setSess d
                ((p.world.sess d).receiveStream (cfg d) busy f).2).setLink d.other
                  ((p.world.link d.other).eraseIdx i)) := by
              simp [World.step, hf]
            have hclosed := hopen.closed_eq hstep d
            simp [Session.receiveStream, Session.receiveControl, hflag,
              Session.closed_closeSession] at hclosed
          · simp [hearsGoAway, hf, hflag]
  | recvDatagram => exact horder.elim
  | _ => rfl

/-- Two faithful sessions and their readers stay faithful. -/
theorem Faithful.step (hp : p.Faithful cfg) (hrel : ∀ d, (cfg d).reliability = false) {a : Event}
    (horder : p.InOrder cfg a) (hstep : p.step cfg a = some p') :
  p'.Faithful cfg
  := by
  cases a with
  | act a =>
      obtain ⟨hinOrder, hstays, honce⟩ := horder
      obtain ⟨henabled, hstep⟩ := Option.ite_none_right_eq_some.mp hstep
      rw [hearsGoAway_eq_none hinOrder hstays] at hstep
      obtain ⟨w, hw, rfl⟩ := Option.map_eq_some_iff.mp hstep
      have hopen := hstays.closed_eq hw
      have hsteps := Net.steps_of_step hp.shape hp.opened hopen
        (allows_quiet henabled hinOrder honce) hw
      obtain ⟨hshape, hnet, hcomplete⟩ :=
        hsteps.complete hp.shape trivial (fun _ _ => trivial) hrel hp.net
      exact ⟨hopen, hshape, hnet, hp.reads.world (hsteps.leaves hp.shape hrel hp.net) hcomplete⟩
  | call e k o =>
      have hk := (call_cases hstep).1
      have hwhole : p.Ends (fun e k w => (Net.ofWorld w).Complete e k) e k :=
        fun hread _ hempty => hp.net.complete hk hread hempty
      have hsteps : Net.Steps cfg Net.onceTerms _ _ :=
        hp.reads.steps_call (hp.opened e) trivial hwhole hstep
      obtain ⟨hshape, hnet, hcomplete⟩ :=
        hsteps.complete hp.shape trivial (fun _ _ => trivial) hrel hp.net
      refine ⟨?_, hshape, hnet, hp.reads.call hstep hwhole hcomplete⟩
      intro d
      exact (hsteps.marks_eq d).1.trans (hp.opened d)
  | close | endChannels | goAway => exact horder.elim

theorem faithful_init (cfg : Side → SessionConfig) (now : Side → Int) :
  (Peers.init cfg now).Faithful cfg
  where
  opened _ := rfl
  shape := Net.shape_init cfg now
  net := Net.faithful_init cfg now
  reads := by
    refine ⟨fun _ _ => trivial, ?_, fun _ _ _ => ⟨rfl, rfl⟩, nofun⟩
    intro e k hk
    simp [Peers.init] at hk

/-- Without retransmissions, over an ordered, lossless transport and with every label opened at
most once at each side, the calls of a reader return the beginning of what its peer has
written, while its side does not close the channel and no early frame of it is dropped.  The
end of the stream is reported when the peer has ended it, and all of it has been returned. -/
theorem stream_integrity (cfg : Side → SessionConfig) (now : Side → Int) (p : Peers)
    (hrel : ∀ d, (cfg d).reliability = false)
    (hrun : Run (Peers.step cfg) (Peers.InOrder cfg) (Peers.init cfg now) p) (d : Side) (k id : Nat)
    (hk : k < (p.world.sess d.other).next) (hid : ((p.world.sess d.other).heap k).id = id)
    (hclosed : ((p.world.sess d.other).heap k).closed = false)
    (hretains : (p.world.sess d.other).Retains id) :
  p.returned d.other k <+: ((p.world.sess d).sentBy id).flatten
    ∧ ∀ b, (d.other, k, b) ∈ p.eofs →
      b = ((p.world.sess d).sentBy id).flatten ∧ (p.world.sess d).Ended id
  := by
  have hp : p.Faithful cfg := by
    apply hrun.invariant (I := Peers.Faithful cfg) _ (faithful_init cfg now)
    intro p a p' hp horder hstep
    exact hp.step hrel horder hstep
  subst hid
  constructor
  · obtain ⟨rest, hsent, -⟩ := hp.net.delivered (d := d) hk hclosed hretains
    rw [hp.reads.same d.other k hk hclosed]
    exact ⟨_, (List.append_assoc _ _ _).symm.trans hsent.symm⟩
  · intro b hb
    have hcomplete := (hp.reads.eofs _ hb).2 hclosed hretains
    rwa [Side.other_other] at hcomplete

/-- Five bytes are written in two chunks and the stream is ended.  A `Read` returns two bytes, a
`WriteTo` two more before its writer fails, and another one the rest and the end of the
stream. -/
theorem stream_integrity_short_writes :
  ∃ p : Peers, p.returned .right 0 <+: ((p.world.sess .left).sentBy 11).flatten
    ∧ (∀ b, (Side.right, 0, b) ∈ p.eofs →
      b = ((p.world.sess .left).sentBy 11).flatten ∧ (p.world.sess .left).Ended 11)
    ∧ p.eofs.map (fun x => x.2.2) = [[1, 2, 3, 4, 5]]
  := by
  obtain ⟨p, hrun, hnext, hid, hclosed, hdiscarded, heofs⟩ := Run.exists_of_exec
    (Peers.step fun _ => smallConfig false) (Peers.InOrder fun _ => smallConfig false)
    (Peers.init (fun _ => smallConfig false) fun _ => 0)
    (List.flatten [[.act (.op .left (.openChannel [97])), .act (.op .right (.openChannel [97])),
      .act (.op .left (.write 0 [1, 2, 3])), .act (.op .left (.write 0 [4, 5])),
      .act (.op .left (.closeWrite false 0)), .act (.flush .left [false, false, false]),
      .act (.recv .right 0 false), .call .right 0 (.start (.read 2))],
      List.replicate 5 (.call .right 0 .go),
      [.act (.recv .right 0 false), .act (.recv .right 0 false),
        .call .right 0 (.start .writeTo)],
      List.replicate 3 (.call .right 0 .go),
      [.call .right 0 (.accept 1 false), .call .right 0 .go, .call .right 0 (.accept 1 true),
        .call .right 0 .go, .call .right 0 .go, .call .right 0 (.start .writeTo)],
      List.replicate 3 (.call .right 0 .go),
      [.call .right 0 (.accept 1 false)],
      List.replicate 6 (.call .right 0 .go)])
    (fun p => 0 < (p.world.sess .right).next ∧ ((p.world.sess .right).heap 0).id = 11
      ∧ ((p.world.sess .right).heap 0).closed = false
      ∧ (p.world.sess .right).discarded.length = 0
      ∧ p.eofs.map (fun x => x.2.2) = [[1, 2, 3, 4, 5]])
    (by decide +kernel)
  have hretains : (p.world.sess .right).Retains 11 := by
    rw [Session.Retains, List.eq_nil_of_length_eq_zero hdiscarded]
    nofun
  obtain ⟨hbegins, hends⟩ := stream_integrity (fun _ => smallConfig false) (fun _ => 0) p
    (fun _ => rfl) hrun .left 0 11 hnext hid hclosed hretains
  exact ⟨p, hbegins, hends, heofs⟩

end Peers

end Muxocket
