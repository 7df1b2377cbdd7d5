import Muxocket.Credit

/-!
# Agreement on the end of a channel

A channel with retransmissions is finalized when it has queued the end of its stream, has seen
the end of its peer's stream, and has nothing unacknowledged.  Unless it has been given up, each
of the three says something of both ends: the end of the stream is registered before it counts
as queued, the end of the peer's stream counts as seen only when all before it has been received,
and a frame is acknowledged only when the peer has it.  So a channel that is finalized in this
way has all of its peer's stream, and its peer has all of its own.

The three conditions are read one after the other, without a common lock.  This makes no
difference, for none of them is lost while the channel is not given up.
-/

namespace Muxocket

namespace Channel

variable {cfg : SessionConfig} {r : Rules} {hand : List PacketFrame} {c c' : Channel}

/-- A channel that has seen the end of its peer's stream has received all before it. -/
def Complete (c : Channel) : Prop :=
  c.readDone = true → c.hasFin = true ∧ c.finOffset ≤ c.readOffset

theorem complete_new (cfg : SessionConfig) (id : Nat) :
  (newChannel cfg id).Complete
  := by
  intro hread
  contradiction

theorem settled_new (cfg : SessionConfig) (id : Nat) :
  (newChannel cfg id).Settled
  := by
  constructor <;> intro <;> contradiction

/-- A channel that is not given up sees the end of a stream when it has all of it. -/
theorem Complete.alter {sent : List Bytes} {ended : Prop} (hc : c.Complete)
    (hfollows : c.Follows sent ended) (hrel : cfg.reliability = true) (hkept : r.kept c.id)
    (hhand : ∀ f ∈ hand, f.chID = c.id → f.PartOf sent ended) (halter : Alter cfg r hand c c') :
  c'.Complete
  := by
  have hgrow : ∀ {c c' : Channel}, c.Complete → c'.readDone = c.readDone →
      c'.hasFin = c.hasFin → c'.finOffset = c.finOffset → c.readOffset ≤ c'.readOffset →
      c'.Complete := by
    intro c c' hc hdone hfin hoffset hle hread
    rw [hdone] at hread
    obtain ⟨hhas, hread⟩ := hc hread
    rw [hfin, hoffset]
    exact ⟨hhas, hread.trans hle⟩
  have hfeed : ∀ {c : Channel} (p : Bytes), c.Complete → (c.feed p).Complete := by
    intro c p hc
    apply hgrow hc <;> unfold Channel.feed Channel.push <;> grind
  cases halter with
  | touch htouch =>
      cases htouch with
      | alike halike =>
          rw [halike]
          apply hc
      | abandon hnot => exact absurd hkept hnot
      | remoteDone _ hhas hle => exact fun _ => ⟨hhas, hle⟩
      | _ => apply hc
  | giveUp hnot => exact absurd hkept hnot
  | fin now | lateFin now | send now p =>
      simp only [closeFin, Channel.lateFin, finish, Channel.send, register]
      split <;> apply hc
  | retire =>
      simp only [retire]
      split <;> apply hc
  | refuse f hf hflag hid hrel' | push f hf hflag hid hrel' | remoteFin f hf hflag hid hrel' =>
      simp [hrel] at hrel'
  | feed f => apply hfeed f.data hc
  | feedEarly p =>
      apply hfeed p
      apply hc
  | gotFin f hf hflag hid =>
      intro hread
      obtain ⟨hhas, hle⟩ := hc hread
      have hoffset := (hfollows.fin hhas).2
      have hoffset' := ((hhand f hf hid.symm).fin hflag).2
      refine ⟨rfl, ?_⟩
      simp only [gotFin]
      omega
  | _ => apply hc

/-- What is read when a channel is to be finalized stays so, and so does that it is finalized. -/
structure Nearer (c c' : Channel) : Prop where
  finQueued : c.finQueued = true → c'.finQueued = true
  readDone : c.readDone = true → c'.readDone = true
  done : c.done = true → c'.done = true

theorem Nearer.refl (c : Channel) :
  c.Nearer c
  := ⟨fun h => h, fun h => h, fun h => h⟩

theorem Nearer.trans {c₁ c₂ c₃ : Channel} (h : c₁.Nearer c₂) (h' : c₂.Nearer c₃) :
  c₁.Nearer c₃
  := ⟨h'.finQueued ∘ h.finQueued, h'.readDone ∘ h.readDone, h'.done ∘ h.done⟩

theorem nearer_alter (halter : Alter cfg r hand c c') :
  c.Nearer c'
  := ⟨halter.grows.finQueued, halter.grows.readDone, halter.grows.done⟩

end Channel

theorem Session.done_finalize (cfg : SessionConfig) (h : Nat) (s : Session) :
  ((s.finalize cfg h).heap h).done = true
  := by
  unfold Session.finalize
  split
  · assumption
  · rw [(Session.heap_removeChannelIf cfg h _).1, Session.heap_update_self]

namespace Net

variable {cfg : Side → SessionConfig} {terms : Terms} {n n' : Net}

/-! ### Two sessions -/

/-- The streams of both sides for an identifier are delivered, the side `d` keeps what it has
written until the other side has it, and its channels end in accord with this. -/
structure Concludes (d : Side) (id : Nat) (n : Net) : Prop extends Acknowledges d id n where
  back : n.Delivers d.other id
  settled : ∀ h < (n.st d).sess.next, ((n.st d).sess.heap h).id = id →
    ((n.st d).sess.heap h).Settled
  complete : ∀ h < (n.st d).sess.next, ((n.st d).sess.heap h).id = id →
    ((n.st d).sess.heap h).Complete

variable {d : Side}

theorem Step.concludes (hstep : Step cfg terms n n') (hshape : n.Shape)
    (hrel : ∀ d, (cfg d).reliability = true) {id : Nat} (honce : ∀ e, (terms.rules e).once id)
    (hkept : (terms.rules d).kept id) (hn : n.Concludes d id) :
  n'.Concludes d id
  := by
  have hchannels : ∀ h < (n'.st d).sess.next, ((n'.st d).sess.heap h).id = id →
      ((n'.st d).sess.heap h).Settled ∧ ((n'.st d).sess.heap h).Complete := by
    intro h hh hid
    rcases hstep.sess_or_move d with hsame | hmove
    · rw [hsame] at hh hid ⊢
      exact ⟨hn.settled h hh hid, hn.complete h hh hid⟩
    · by_cases hlt : h < (n.st d).sess.next
      · rw [hmove.id_eq hlt] at hid
        rcases hmove.alter hlt with hsame | halter
        · rw [hsame]
          exact ⟨hn.settled h hlt hid, hn.complete h hlt hid⟩
        · have hback := hn.back
          have hfollows := hback.follows
          have harrived := hback.arrived
          rw [Side.other_other] at hfollows harrived
          constructor
          · apply (hn.settled h hlt hid).alter ((hshape.st d).streams h hlt) _ halter
            rwa [hid]
          · apply (hn.complete h hlt hid).alter (hfollows h hlt hid) (hrel d) _ _ halter
            · rwa [hid]
            · intro f hf hidf
              apply harrived f (Station.mem_arrived.mpr ⟨.inr hf, hidf.trans hid⟩)
      · rw [hmove.heap_new hh hlt]
        exact ⟨Channel.settled_new _ _, Channel.complete_new _ _⟩
  exact {
    toAcknowledges := hstep.acknowledges hshape hrel (honce d) hkept hn.toAcknowledges
    back := hstep.delivers hshape hrel (honce d.other) hn.back
    settled := fun h hh hid => (hchannels h hh hid).1
    complete := fun h hh hid => (hchannels h hh hid).2 }

theorem concludes_init (cfg : Side → SessionConfig) (now : Side → Int) (d : Side) (id : Nat) :
  (ofWorld (World.init cfg now)).Concludes d id
  := by
  refine ⟨acknowledges_init cfg now d id, delivers_init cfg now d.other id, ?_, ?_⟩
  · intro h hh
    simp at hh
  · intro h hh
    simp at hh

/-- A channel that has seen the end of its peer's stream has all of it. -/
theorem Concludes.hasAll {id : Nat} (hn : n.Concludes d id) (hshape : n.Shape) {h k : Nat}
    (hh : h < (n.st d).sess.next) (hidh : ((n.st d).sess.heap h).id = id)
    (hk : k < (n.st d.other).sess.next) (hidk : ((n.st d.other).sess.heap k).id = id)
    (hread : ((n.st d).sess.heap h).readDone = true) :
  ((n.st d.other).sess.heap k).HasAll ((n.st d).sess.heap h)
  := by
  have hback := hn.back
  have hfollows := hback.follows
  rw [Side.other_other] at hfollows
  obtain ⟨hhas, hle⟩ := hn.complete h hh hidh hread
  obtain ⟨hended, hoffset⟩ := (hfollows h hh hidh).fin hhas
  rw [hback.sends.single.sentBy_eq hk hidk] at hoffset
  have hwritten := ((hshape.st d.other).streams k hk).offset
  exact ⟨(hback.sends.single.ended_iff hk hidk).mp hended, hhas, by omega, by omega⟩

/-- What no change of a channel takes away stays through any steps. -/
theorem Steps.stays (hsteps : Steps cfg terms n n') {k : Nat} (hk : k < (n.st d).sess.next) :
  k < (n'.st d).sess.next ∧ ((n'.st d).sess.heap k).id = ((n.st d).sess.heap k).id
    ∧ ((n.st d).sess.heap k).Nearer ((n'.st d).sess.heap k)
  := by
  induction hsteps with
  | refl => exact ⟨hk, rfl, Channel.Nearer.refl _⟩
  | tail _ hstep ih =>
      obtain ⟨hlt, hid, hnearer⟩ := ih
      rcases hstep.sess_or_move d with hsame | hmove
      · rw [hsame]
        exact ⟨hlt, hid, hnearer⟩
      · refine ⟨lt_of_lt_of_le hlt hmove.closed_next.2, (hmove.id_eq hlt).trans hid, ?_⟩
        rcases hmove.alter hlt with hsame | halter
        · rwa [hsame]
        · apply hnearer.trans (Channel.nearer_alter halter)

end Net

namespace World

variable {cfg : Side → SessionConfig} {now : Side → Int} {w w' : World} {id : Nat}

/-! ### Runs -/

/-- The sessions of a world are open and have the shape of sessions. -/
structure Sound (w : World) : Prop where
  isOpen : ∀ d, (w.sess d).closed = false
  shape : (Net.ofWorld w).Shape

/-- A step of two open sessions leaves them open and in shape, and takes nothing from their
channels that counts for the end of a channel. -/
theorem Sound.step (hw : w.Sound) (hrel : ∀ d, (cfg d).reliability = true) {a : Action}
    (hopen : w.StaysOpen cfg a) (honce : ∀ e, w.OpensLabelOnce e id a)
    (hstep : w.step cfg a = some w') :
  w'.Sound ∧ ∀ d, ∀ k < (w.sess d).next, k < (w'.sess d).next
    ∧ ((w'.sess d).heap k).id = ((w.sess d).heap k).id
    ∧ ((w.sess d).heap k).Nearer ((w'.sess d).heap k)
  := by
  have hopen' := hopen.closed_eq hstep
  have hallows : Net.Allows cfg (Net.lossyTerms (fun _ i => i = id) fun _ _ => False) w a := by
    apply allows_label hrel honce
    intros
    exact not_false
  have hsteps := Net.steps_of_step hw.shape hw.isOpen hopen' hallows hstep
  have hkeep := hsteps.invariant (I := fun _ => True) (fun _ _ _ _ _ => trivial) hw.shape trivial
  refine ⟨⟨hopen', hkeep.1⟩, ?_⟩
  intro d k hk
  apply hsteps.stays hk

theorem sound_init (cfg : Side → SessionConfig) (now : Side → Int) :
  (World.init cfg now).Sound
  := ⟨fun _ => rfl, Net.shape_init cfg now⟩

theorem Sound.run (hw : w.Sound) (hrel : ∀ d, (cfg d).reliability = true)
    (hrun : Run (World.step cfg) (fun w a => w.StaysOpen cfg a ∧ ∀ e, w.OpensLabelOnce e id a)
      w w') :
  w'.Sound ∧ ∀ d, ∀ k < (w.sess d).next, k < (w'.sess d).next
    ∧ ((w'.sess d).heap k).id = ((w.sess d).heap k).id
    ∧ ((w.sess d).heap k).Nearer ((w'.sess d).heap k)
  := by
  apply hrun.invariant (I := fun w' => w'.Sound ∧ ∀ d, ∀ k < (w.sess d).next,
    k < (w'.sess d).next ∧ ((w'.sess d).heap k).id = ((w.sess d).heap k).id
      ∧ ((w.sess d).heap k).Nearer ((w'.sess d).heap k))
  · rintro w₁ a w₂ ⟨hsound, hstays⟩ ⟨hopen, honce⟩ hstep
    obtain ⟨hsound', hstays'⟩ := hsound.step hrel hopen honce hstep
    refine ⟨hsound', ?_⟩
    intro d k hk
    obtain ⟨hlt, hid, hnearer⟩ := hstays d k hk
    obtain ⟨hlt', hid', hnearer'⟩ := hstays' d k hlt
    exact ⟨hlt', hid'.trans hid, hnearer.trans hnearer'⟩
  · refine ⟨hw, ?_⟩
    intro d k hk
    exact ⟨hk, rfl, Channel.Nearer.refl _⟩

variable {d : Side}

/-- In a run in which no channel of an identifier is given up at the side `d`, its channels end
in accord with what both sides have received. -/
theorem concludes_of_run (hrel : ∀ d, (cfg d).reliability = true)
    (hrun : Run (World.step cfg) (Retains cfg d id) (World.init cfg now) w) :
  (Net.ofWorld w).Shape ∧ (Net.ofWorld w).Concludes d id
  := by
  apply Net.invariant_of_run (Net.lossyTerms (fun _ i => i = id) fun e i => e = d ∧ i = id) _ _ _
    (Net.concludes_init cfg now d id) hrun
  · rintro w a ⟨-, honce, hkeeps⟩
    apply allows_label hrel honce
    rintro e h rfl ⟨rfl, hid⟩
    apply hkeeps rfl hid
  · rintro w a w' ⟨hopen, -⟩ hstep e
    apply hopen.closed_eq hstep
  · intro n n' hshape hn hstep
    apply hstep.concludes hshape hrel (fun _ => rfl) ⟨rfl, rfl⟩ hn

/-- A channel that is given up is finalized. -/
theorem done_localClose {k : Nat} {a : Action} (ha : a = .op d (.localClose k))
    (hstep : w.step cfg a = some w') :
  k < (w.sess d).next ∧ ((w'.sess d).heap k).done = true
  := by
  subst ha
  obtain ⟨s, hs, rfl⟩ := Option.map_eq_some_iff.mp hstep
  obtain ⟨hcond, rfl⟩ := Run.guard hs
  refine ⟨hcond.1, ?_⟩
  simp only [World.setSess, Function.update_self, Session.localClose]
  apply Session.done_finalize

/-- As long as no channel of an identifier is finalized at a side, none has been given up
there. -/
theorem keepsLabel_of_not_done (hrel : ∀ d, (cfg d).reliability = true)
    (hrun : Run (World.step cfg) (fun w a => w.StaysOpen cfg a ∧ ∀ e, w.OpensLabelOnce e id a)
      (World.init cfg now) w)
    (hdone : ∀ k < (w.sess d).next, ((w.sess d).heap k).id = id →
      ((w.sess d).heap k).done = false) :
  Run (World.step cfg) (Retains cfg d id) (World.init cfg now) w
  := by
  induction hrun with
  | refl => apply Run.refl
  | @tail w₁ w₂ a hrun hP hstep ih =>
      obtain ⟨hsound, -⟩ := (sound_init cfg now).run hrel hrun
      obtain ⟨-, hstays⟩ := hsound.step hrel hP.1 hP.2 hstep
      have hdone₁ : ∀ k < (w₁.sess d).next, ((w₁.sess d).heap k).id = id →
          ((w₂.sess d).heap k).done = false := by
        intro k hk hid
        obtain ⟨hlt, hid', -⟩ := hstays d k hk
        apply hdone k hlt (hid'.trans hid)
      have hkeeps : w₁.KeepsLabel d id a := by
        unfold KeepsLabel
        split
        · rename_i k
          rintro rfl hid
          obtain ⟨hk, hgone⟩ := done_localClose rfl hstep
          rw [hdone₁ k hk hid] at hgone
          contradiction
        · trivial
      refine Run.tail a (ih ?_) ⟨hP.1, hP.2, hkeeps⟩ hstep
      intro k hk hid
      by_contra hnot
      obtain ⟨-, -, hnearer⟩ := hstays d k hk
      have hgone := hnearer.done (by simpa using hnot)
      rw [hdone₁ k hk hid] at hgone
      contradiction

/-- A channel with retransmissions is about to be finalized: the end of its stream was queued in
the state `w₁`, the end of its peer's stream had been seen in a later state `w₂`, and nothing was
unacknowledged in a still later state `w₃`, and the channel has not been given up.  Then both
ends have all of the other end's stream in `w₃`. -/
theorem agreement_of_reads (hrel : ∀ d, (cfg d).reliability = true) {w₁ w₂ w₃ : World}
    (hrun₁ : Run (World.step cfg) (Retains cfg d id) (World.init cfg now) w₁)
    (hrun₂ : Run (World.step cfg) (Retains cfg d id) w₁ w₂)
    (hrun₃ : Run (World.step cfg) (Retains cfg d id) w₂ w₃)
    {h : Nat} (hh : h < (w₁.sess d).next) (hid : ((w₁.sess d).heap h).id = id)
    (hfin : ((w₁.sess d).heap h).finQueued = true) (hread : ((w₂.sess d).heap h).readDone = true)
    (hunacked : ((w₃.sess d).heap h).unacked = []) :
  ∃ k < (w₃.sess d.other).next, ((w₃.sess d.other).heap k).id = id
    ∧ ((w₃.sess d).heap h).HasAll ((w₃.sess d.other).heap k)
    ∧ ((w₃.sess d.other).heap k).HasAll ((w₃.sess d).heap h)
    ∧ ∀ x ∈ ((w₃.sess d).heap h).entries,
      entryEnd x ≤ ((w₃.sess d.other).heap k).cumulativeAckLocked
  := by
  have hpair : ∀ {w w' : World}, Run (World.step cfg) (Retains cfg d id) w w' →
      Run (World.step cfg) (fun w a => w.StaysOpen cfg a ∧ ∀ e, w.OpensLabelOnce e id a) w w' :=
    fun hrun => hrun.mono fun _ _ hP => ⟨hP.1, hP.2.1⟩
  obtain ⟨hsound₁, -⟩ := (sound_init cfg now).run hrel (hpair hrun₁)
  obtain ⟨hsound₂, hstays₂⟩ := hsound₁.run hrel (hpair hrun₂)
  obtain ⟨-, hstays₃⟩ := hsound₂.run hrel (hpair hrun₃)
  obtain ⟨hh₂, hid₂, hnearer₂⟩ := hstays₂ d h hh
  obtain ⟨hh₃, hid₃, hnearer₃⟩ := hstays₃ d h hh₂
  have hid : ((w₃.sess d).heap h).id = id := by rw [hid₃, hid₂, hid]
  obtain ⟨hshape, hn⟩ := concludes_of_run hrel ((hrun₁.trans hrun₂).trans hrun₃)
  have hended := (hn.settled h hh₃ hid).finSent ((hnearer₂.trans hnearer₃).finQueued hfin)
  obtain ⟨k, hk, hidk, hall⟩ := hn.toAcknowledges.hasAll hshape hh₃ hid hended hunacked
  refine ⟨k, hk, hidk, hall, hn.hasAll hshape hh₃ hid hk hidk (hnearer₃.readDone hread), ?_⟩
  intro x hx
  rcases hn.kept h hh₃ hid x hx with hmem | ⟨k', hk', hid', hle⟩
  · simp [hunacked] at hmem
  · rwa [hn.back.sends.single k' hk' k hk hid' hidk] at hle

/-- Agreement on the end of a channel between two sessions with retransmissions, over a transport
that may drop, duplicate, delay and reorder frames, whichever of the ends is closed, half closed
or reset, and when.  If a step finalizes the channel `h` of the side `d`, and does not give it
up, then the channel `k` of the other side has all that `h` has written and knows that it is all,
and `h` has all that `k` has written and knows that it is all.  In particular `k` has received
every frame of the stream of `h`, its end included. -/
theorem close_agreement (cfg : Side → SessionConfig) (now : Side → Int) (w w' : World)
    (hrel : ∀ d, (cfg d).reliability = true) (d : Side) (id : Nat)
    (hrun : Run (World.step cfg) (fun w a => w.StaysOpen cfg a ∧ ∀ e, w.OpensLabelOnce e id a)
      (World.init cfg now) w)
    (a : Action) (hopen : w.StaysOpen cfg a) (honce : ∀ e, w.OpensLabelOnce e id a)
    (hstep : w.step cfg a = some w')
    (h : Nat) (hh : h < (w'.sess d).next) (hid : ((w'.sess d).heap h).id = id)
    (hbefore : h < (w.sess d).next → ((w.sess d).heap h).done = false)
    (hdone : ((w'.sess d).heap h).done = true) (habort : a ≠ .op d (.localClose h)) :
  ∃ k < (w'.sess d.other).next, ((w'.sess d.other).heap k).id = id
    ∧ ((w'.sess d).heap h).HasAll ((w'.sess d.other).heap k)
    ∧ ((w'.sess d.other).heap k).HasAll ((w'.sess d).heap h)
    ∧ ∀ x ∈ ((w'.sess d).heap h).entries,
      entryEnd x ≤ ((w'.sess d.other).heap k).cumulativeAckLocked
  := by
  have hrun' := Run.tail a hrun ⟨hopen, honce⟩ hstep
  obtain ⟨hsound, -⟩ := (sound_init cfg now).run hrel hrun
  obtain ⟨hsound', hstays⟩ := hsound.step hrel hopen honce hstep
  have hsingle : (w'.sess d).Single id :=
    (delivers_of_run hrel (hrun'.mono fun _ _ hP => ⟨hP.1, hP.2 d⟩)).2.sends.single
  have hone : ∀ k < (w.sess d).next, ((w.sess d).heap k).id = id → k = h := by
    intro k hk hidk
    obtain ⟨hlt, heq, -⟩ := hstays d k hk
    apply hsingle k hlt h hh (heq.trans hidk) hid
  have hkept := keepsLabel_of_not_done hrel (d := d) hrun (by
    intro k hk hidk
    obtain rfl := hone k hk hidk
    apply hbefore hk)
  have hkeeps : w.KeepsLabel d id a := by
    unfold KeepsLabel
    split
    · rename_i k
      rintro rfl hidk
      obtain rfl := hone k (done_localClose rfl hstep).1 hidk
      apply habort rfl
    · trivial
  have hrun'' := Run.tail a hkept ⟨hopen, honce, hkeeps⟩ hstep
  obtain ⟨hread, hfin⟩ := (hsound'.shape.st d).streams h hh |>.finalized hdone
  have hunacked := ((concludes_of_run hrel hrun'').2.settled h hh hid).unacked hdone
  apply agreement_of_reads hrel hrun'' (Run.refl _) (Run.refl _) hh hid hfin hread hunacked

/-- Three bytes are written and lost, and both ends close their streams.  The bytes are sent again,
the end of the stream comes before them, and the last acknowledgement finalizes the writer. -/
theorem close_agreement_retransmitted :
  ∃ w : World, ((w.sess .left).heap 0).done = true ∧ ((w.sess .right).heap 0).done = false
    ∧ ((w.sess .left).heap 0).sent = [[1, 2, 3]]
    ∧ ((w.sess .left).heap 0).HasAll ((w.sess .right).heap 0)
    ∧ ((w.sess .right).heap 0).HasAll ((w.sess .left).heap 0)
  := by
  obtain ⟨w, hrun, hw⟩ :=
    Run.exists_of_exec (World.step fun _ => smallConfig true)
      (fun w a => w.StaysOpen (fun _ => smallConfig true) a ∧ ∀ e, w.OpensLabelOnce e 11 a)
      (World.init (fun _ => smallConfig true) fun _ => 0)
      [.op .left (.openChannel [97]), .op .right (.openChannel [97]),
        .op .left (.write 0 [1, 2, 3]), .op .left (.closeWrite false 0),
        .flush .left [false, false], .drop .left 0, .recv .right 0 false,
        .op .right (.closeWrite false 0), .flush .right [true, false], .recv .left 0 false,
        .recv .left 0 false, .op .left (.retransmitAllUnacked 0), .flush .left [true, false, false],
        .recv .right 1 false, .flush .right [true]]
      (fun w => (w.StaysOpen (fun _ => smallConfig true) (.recv .left 0 false)
          ∧ ∀ e, w.OpensLabelOnce e 11 (.recv .left 0 false))
        ∧ ((w.sess .left).next = 1 ∧ ((w.sess .left).heap 0).done = false)
        ∧ (w.step (fun _ => smallConfig true) (.recv .left 0 false)).any (fun w' =>
          decide ((w'.sess .left).next = 1 ∧ ((w'.sess .left).heap 0).id = 11
            ∧ ((w'.sess .left).heap 0).done = true
            ∧ (w'.sess .right).next = 1 ∧ ((w'.sess .right).heap 0).done = false
            ∧ ((w'.sess .left).heap 0).sent = [[1, 2, 3]])) = true)
      (by decide +kernel)
  obtain ⟨⟨hopen, honce⟩, ⟨-, hbefore⟩, hlast⟩ := hw
  obtain ⟨w', hstep, hw'⟩ := (Option.any_eq_true _ _).mp hlast
  obtain ⟨hnext, hid, hdone, hnext', hdone', hsent⟩ := of_decide_eq_true hw'
  obtain ⟨k, hk, -, hall, hback, -⟩ := close_agreement (fun _ => smallConfig true) (fun _ => 0) w w'
    (fun _ => rfl) .left 11 hrun (.recv .left 0 false) hopen honce hstep 0 (by omega) hid
    (fun _ => hbefore) hdone (by simp)
  obtain rfl : k = 0 := by
    simp only [Side.other] at hk
    omega
  exact ⟨w', hdone, hdone', hsent, hall, hback⟩

end World

end Muxocket
