import Muxocket.Lib.Run
import Muxocket.Shape

/-!
# Runs of two sessions as sequences of moves

`Net` is two sessions in the middle of their operations, with the frames in flight between
them.  A step of it is a move of one of the sessions, or a frame handed from one of the parts
to the next.  Every run of a `World`, whose steps are complete operations, is a sequence of
steps of the `Net`, so what the steps keep holds in every world a run reaches.
-/

namespace Muxocket

/-- Two sessions in the middle of their operations. -/
structure Net where
  st : Side → Station
  link : Side → List PacketFrame

/-- What is known of a run: the rules its sessions follow, and whether the transport is
ordered and lossless. -/
structure Terms where
  rules : Side → Rules
  ordered : Prop

namespace Net

/-- Change the session of a side. -/
def put (d : Side) (t : Station) (n : Net) : Net :=
  { n with st := Function.update n.st d t }

/-- Change the frames in flight from a side. -/
@[simp]
def setLink (d : Side) (fs : List PacketFrame) (n : Net) : Net :=
  { n with link := Function.update n.link d fs }

/-- The steps of two sessions.  A transport that is ordered and lossless hands over the oldest
frame, and loses and duplicates none. -/
inductive Step (cfg : Side → SessionConfig) (terms : Terms) (n : Net) : Net → Prop
  | move (d : Side) (t : Station) : Station.Move (cfg d) (terms.rules d) (n.st d) t →
      Step cfg terms n (n.put d t)
  | send (d : Side) :
      Step cfg terms n ((n.put d { n.st d with out := [] }).setLink d
        (n.link d ++ (n.st d).out.map WriteFrame.packet))
  | grab (d : Side) (i : Nat) (f : PacketFrame) : (n.link d.other)[i]? = some f →
      (n.st d).hand = [] → (terms.ordered → i = 0) →
      Step cfg terms n ((n.put d { n.st d with hand := [f] }).setLink d.other
        ((n.link d.other).eraseIdx i))
  | lose (d : Side) (i : Nat) (f : PacketFrame) : (n.link d)[i]? = some f → ¬ terms.ordered →
      (f.flag = .upd → ¬ (terms.rules d.other).updates) →
      Step cfg terms n (n.setLink d ((n.link d).eraseIdx i))
  | dup (d : Side) (i : Nat) (f : PacketFrame) : (n.link d)[i]? = some f → ¬ terms.ordered →
      (f.flag = .upd → ¬ (terms.rules d.other).updates) →
      Step cfg terms n (n.setLink d (n.link d ++ [f]))

/-- A sequence of steps. -/
abbrev Steps (cfg : Side → SessionConfig) (terms : Terms) : Net → Net → Prop :=
  Relation.ReflTransGen (Step cfg terms)

/-- The two sessions have the shape of sessions, and the frames between them that of frames. -/
structure Shape (n : Net) : Prop where
  st : ∀ d, (n.st d).Shape
  link : ∀ d, ∀ f ∈ n.link d, f.Sound

variable {cfg : Side → SessionConfig} {terms : Terms} {n n' : Net}

theorem sound_of_ready {f : WriteFrame} (hf : f.Ready) :
  f.packet.Sound
  := by
  by_cases hflag : f.flag = .data
  · simpa [WriteFrame.Ready, PacketFrame.Sound, WriteFrame.packet, hflag] using hf
  · have hpBuf : f.pBuf = none := by
      simpa [WriteFrame.Ready, hflag] using hf
    simp [PacketFrame.Sound, WriteFrame.packet, hflag, WriteFrame.payload, hpBuf]

variable {t : Station} {d : Side} {w : World}

/-- Moving frames to and from a session does not change its shape. -/
theorem shape_frames (ht : t.Shape) {hand : List PacketFrame} {out : List WriteFrame}
    (hhand : ∀ f ∈ hand, f.Sound) (hout : ∀ f ∈ out, f.Ready) :
  Station.Shape { t with hand := hand, out := out }
  where
  ring := ht.ring
  streams := ht.streams
  armed := ht.armed
  timed := ht.timed
  windows := ht.windows
  named := ht.named
  table := ht.table
  scan := ht.scan
  queue := ⟨ht.queue.writes, ht.queue.late, ht.queue.ctrl, ht.queue.batch, hout, hhand⟩

/-- The session of the side `d` has given up frames that are written out, or has been handed some
that are in flight. -/
def Brings (n : Net) (d : Side) (t : Station) : Prop :=
  ∃ hand out, t = { n.st d with hand := hand, out := out }
    ∧ (∀ f ∈ hand, f ∈ (n.st d).hand ∨ f ∈ n.link d.other) ∧ out ⊆ (n.st d).out

/-- The frames were in flight from the side `d`, or written out there. -/
def Flies (n : Net) (d : Side) (fs : List PacketFrame) : Prop :=
  ∀ f ∈ fs, f ∈ n.link d ∨ ∃ g ∈ (n.st d).out, f = g.packet

/-- Frames go from one place to the next. -/
structure Carries (n n' : Net) : Prop where
  st : ∀ d, n.Brings d (n'.st d)
  link : ∀ d, n.Flies d (n'.link d)

theorem Carries.refl (n : Net) :
  Carries n n
  := ⟨fun _ => ⟨_, _, rfl, fun _ => .inl, fun _ hf => hf⟩, fun _ _ => .inl⟩

theorem Carries.put (hn : Carries n n') (ht : n.Brings d t) :
  Carries n (n'.put d t)
  := ⟨(Function.forall_update_iff n'.st n.Brings).mpr ⟨ht, fun e _ => hn.st e⟩, hn.link⟩

theorem Carries.setLink {fs : List PacketFrame} (hn : Carries n n') (hfs : n.Flies d fs) :
  Carries n (n'.setLink d fs)
  := ⟨hn.st, (Function.forall_update_iff n'.link n.Flies).mpr ⟨hfs, fun e _ => hn.link e⟩⟩

/-- A step is a move of one of the sessions, or frames go from one place to the next. -/
theorem Step.carries (hstep : Step cfg terms n n') :
  (∃ d t, Station.Move (cfg d) (terms.rules d) (n.st d) t ∧ n' = n.put d t) ∨ Carries n n'
  := by
  have hrefl := Carries.refl n
  cases hstep with
  | move d t hmove => exact .inl ⟨d, t, hmove, rfl⟩
  | send d =>
      refine .inr ((hrefl.put ⟨_, _, rfl, fun _ => .inl, List.nil_subset _⟩).setLink ?_)
      intro f hf
      grind
  | grab d i f hf =>
      have hmem := List.mem_of_getElem? hf
      refine .inr ((hrefl.put ⟨_, _, rfl, ?_, fun _ hg => hg⟩).setLink ?_)
      · intro g hg
        obtain rfl := List.mem_singleton.mp hg
        exact .inr hmem
      · exact fun g hg => .inl (List.mem_of_mem_eraseIdx hg)
  | lose d i f hf => exact .inr (hrefl.setLink fun g hg => .inl (List.mem_of_mem_eraseIdx hg))
  | dup d i f hf =>
      have hmem := List.mem_of_getElem? hf
      refine .inr (hrefl.setLink ?_)
      intro g hg
      grind

theorem shape_put (hn : n.Shape) (ht : t.Shape) :
  (n.put d t).Shape
  := ⟨(Function.forall_update_iff n.st fun _ t => t.Shape).mpr ⟨ht, fun e _ => hn.st e⟩, hn.link⟩

/-- Steps keep the shape of the sessions and of the frames. -/
theorem Step.shape (hstep : Step cfg terms n n') (hn : n.Shape) :
  n'.Shape
  := by
  rcases hstep.carries with ⟨d, t, hmove, rfl⟩ | hcarries
  · exact shape_put hn (hmove.shape (hn.st d))
  · constructor
    · intro d
      obtain ⟨hand, out, heq, hhand, hout⟩ := hcarries.st d
      rw [heq]
      apply shape_frames (hn.st d)
      · intro f hf
        exact (hhand f hf).elim ((hn.st d).queue.hand f) (hn.link d.other f)
      · intro f hf
        exact (hn.st d).queue.out f (hout hf)
    · intro d f hf
      rcases hcarries.link d f hf with hf | ⟨g, hg, rfl⟩
      · exact hn.link d f hf
      · exact sound_of_ready ((hn.st d).queue.out g hg)

/-! ### Worlds -/

/-- The two sessions of a world, between their operations. -/
@[simp]
def ofWorld (w : World) : Net where
  st d := { sess := w.sess d }
  link := w.link

theorem ofWorld_setSess (w : World) (d : Side) (s : Session) :
  ofWorld (w.setSess d s) = (ofWorld w).put d { sess := s }
  := by
  simp only [ofWorld, put, World.setSess]
  congr 1
  funext e
  by_cases he : e = d
  · subst he
    simp
  · simp [he]

theorem ofWorld_setLink (w : World) (d : Side) (fs : List PacketFrame) :
  ofWorld (w.setLink d fs) = (ofWorld w).setLink d fs
  := rfl

theorem put_self (w : World) (d : Side) :
  (ofWorld w).put d { sess := w.sess d } = ofWorld w
  := by
  simp [put]

theorem st_put (n : Net) (d : Side) (t : Station) :
  (n.put d t).st d = t
  := by
  simp [put]

theorem put_put (n : Net) (d : Side) (t t' : Station) :
  (n.put d t).put d t' = n.put d t'
  := by
  simp [put]

theorem put_setLink (n : Net) (d e : Side) (t : Station) (fs : List PacketFrame) :
  (n.setLink e fs).put d t = (n.put d t).setLink e fs
  := rfl

/-- Moves of a session are steps of the two. -/
theorem steps_of_moves {t' : Station} (hm : Station.Moves (cfg d) (terms.rules d) t t') :
  Steps cfg terms (n.put d t) (n.put d t')
  := by
  induction hm with
  | refl => apply Relation.ReflTransGen.refl
  | tail _ hmove ih =>
      apply ih.tail
      have hstep : Step cfg terms _ _ := Step.move (n := n.put d _) d _
        (by simpa [put] using hmove)
      rwa [put_put] at hstep

/-- Every window update for a channel comes while the channel is in the table, if the rules
say so. -/
def OnTime (terms : Terms) (w : World) (d : Side) (i : Nat) : Prop :=
  ∀ f, (w.link d.other)[i]? = some f → (terms.rules d).updates → f.flag = .upd → f.chID ≠ 0 →
    ((w.sess d).channels f.chID).isSome = true

/-- Data for a channel that has been closed recently comes only if the rules say so. -/
def Prompt (terms : Terms) (w : World) (d : Side) (i : Nat) : Prop :=
  ∀ f, (w.link d.other)[i]? = some f → f.flag = .data → (w.sess d).channels f.chID = none →
    (w.sess d).recentlyClosed f.chID = true → (terms.rules d).late f.chID

theorem prompt_of_late {terms : Terms} (hlate : ∀ id, (terms.rules d).late id) (w : World)
    (i : Nat) :
  Prompt terms w d i
  := fun f _ _ _ _ => hlate f.chID

/-- The transport may lose and duplicate the frame. -/
def Spares (terms : Terms) (w : World) (d : Side) (i : Nat) : Prop :=
  ¬ terms.ordered
    ∧ ∀ f, (w.link d)[i]? = some f → f.flag = .upd → ¬ (terms.rules d.other).updates

/-- An action of a run that is in accord with what is known of it. -/
def Allows (cfg : Side → SessionConfig) (terms : Terms) (w : World) : Action → Prop
  | .op d o => o.Follows (terms.rules d) (w.sess d)
  | .flush _ _ => True
  | .recv d i busy =>
      (terms.ordered → i = 0) ∧ OnTime terms w d i ∧ Prompt terms w d i
        ∧ ((cfg d).reliability = true ∨ ∀ f, (w.link d.other)[i]? = some f →
          ((w.sess d).receiveStream (cfg d) busy f).1 ≠ .disconnect)
  | .recvDatagram d i _ =>
      (terms.ordered → i = 0) ∧ OnTime terms w d i ∧ (cfg d).reliability = true
  | .drop d i => Spares terms w d i
  | .dup d i => Spares terms w d i

theorem steps_setSess {s : Session}
    (hm : Station.Moves (cfg d) (terms.rules d) { sess := w.sess d } { sess := s }) :
  Steps cfg terms (ofWorld w) (ofWorld (w.setSess d s))
  := by
  rw [ofWorld_setSess]
  have hsteps : Steps cfg terms _ _ := steps_of_moves (n := ofWorld w) hm
  rwa [put_self] at hsteps

/-- A frame is handed over and dealt with. -/
theorem steps_recv {i : Nat} {f : PacketFrame} {s : Session} (hf : (w.link d.other)[i]? = some f)
    (hordered : terms.ordered → i = 0)
    (hm : Station.Moves (cfg d) (terms.rules d) { sess := w.sess d, hand := [f] } { sess := s }) :
  Steps cfg terms (ofWorld w)
    (ofWorld ((w.setSess d s).setLink d.other ((w.link d.other).eraseIdx i)))
  := by
  have hgrab : Step cfg terms (ofWorld w) _ := Step.grab d i f hf rfl hordered
  apply Relation.ReflTransGen.head hgrab
  rw [ofWorld_setLink, ofWorld_setSess, ← put_setLink, ← put_setLink]
  apply steps_of_moves hm

/-- An action of a world is a sequence of steps of its sessions. -/
theorem steps_of_step {w' : World} {a : Action} (hshape : (ofWorld w).Shape)
    (hopen : ∀ d, (w.sess d).closed = false) (hopen' : ∀ d, (w'.sess d).closed = false)
    (hallows : Allows cfg terms w a) (hstep : w.step cfg a = some w') :
  Steps cfg terms (ofWorld w) (ofWorld w')
  := by
  cases a with
  | op d o =>
      obtain ⟨s, hs, rfl⟩ := Option.map_eq_some_iff.mp hstep
      apply steps_setSess
      apply Station.moves_perform (t := { sess := w.sess d }) (hopen d) rfl rfl
        (hshape.st d).scan.scans (hshape.st d).timed hallows hs
  | flush d picks =>
      obtain ⟨⟨packets, s⟩, hs, rfl⟩ := Option.map_eq_some_iff.mp hstep
      obtain ⟨out, rfl, hm⟩ := Station.moves_writeBatch (cfg d) (terms.rules d)
        (t := { sess := w.sess d }) rfl rfl (fun f hf => (hshape.st d).oneRef (.inl hf))
        (fun f hf => (hshape.st d).oneRef (.inr hf)) hs
      have hsteps : Steps cfg terms (ofWorld w) ((ofWorld w).put d { sess := s, out := out }) := by
        have hmoves : Steps cfg terms _ _ := steps_of_moves (n := ofWorld w) hm
        rwa [put_self] at hmoves
      apply hsteps.tail
      have hsend : Step cfg terms ((ofWorld w).put d { sess := s, out := out }) _ := Step.send d
      rw [put_put, st_put] at hsend
      rw [ofWorld_setLink, ofWorld_setSess]
      apply hsend
  | recv d i busy =>
      obtain ⟨f, hf, rfl⟩ := Option.map_eq_some_iff.mp hstep
      obtain ⟨hordered, hlate, hprompt, hverdict⟩ := hallows
      apply steps_recv hf hordered
      apply Station.moves_receiveStream (t := { sess := w.sess d, hand := [f] }) (hopen d)
        (hshape.st d).tabled rfl rfl (hshape.link _ f (List.mem_of_getElem? hf)) (hlate f hf)
        (hprompt f hf) busy
      · simpa using hopen' d
      · rcases hverdict with hrel | hverdict
        · left
          apply hrel
        · right
          apply hverdict f hf
  | recvDatagram d i busy =>
      obtain ⟨f, hf, rfl⟩ := Option.map_eq_some_iff.mp hstep
      obtain ⟨hordered, hlate, hrel⟩ := hallows
      apply steps_recv hf hordered
      apply Station.moves_receiveDatagram hrel (t := { sess := w.sess d, hand := [f] }) (hopen d)
        (hshape.st d).tabled rfl rfl (hshape.link _ f (List.mem_of_getElem? hf)) (hlate f hf) busy
      intro hflag
      simpa [Session.receiveDatagram, Session.receiveControl, hflag,
        Session.closed_closeSession] using hopen' d
  | drop d i =>
      obtain ⟨f, hf, rfl⟩ := Option.map_eq_some_iff.mp hstep
      exact .single (Step.lose d i f hf hallows.1 (hallows.2 f hf))
  | dup d i =>
      obtain ⟨f, hf, rfl⟩ := Option.map_eq_some_iff.mp hstep
      exact .single (Step.dup d i f hf hallows.1 (hallows.2 f hf))

theorem Steps.invariant {I : Net → Prop}
    (hkeep : ∀ n n', n.Shape → I n → Step cfg terms n n' → I n') (hsteps : Steps cfg terms n n')
    (hn : n.Shape) (hI : I n) :
  n'.Shape ∧ I n'
  := by
  induction hsteps with
  | refl => exact ⟨hn, hI⟩
  | tail _ hstep ih => exact ⟨hstep.shape ih.1, hkeep _ _ ih.1 ih.2 hstep⟩

theorem shape_init (cfg : Side → SessionConfig) (now : Side → Int) :
  (ofWorld (World.init cfg now)).Shape
  := by
  refine ⟨fun d => Station.shape_new (now d), ?_⟩
  intro d f hf
  contradiction

variable (terms) in
/-- What holds of two new sessions, and is kept by every step of two sessions in shape, holds
in every world that is reached by a run in accord with what is known of it. -/
theorem invariant_of_run {P : World → Action → Prop}
    (hallows : ∀ w a, P w a → Allows cfg terms w a)
    (hopen : ∀ w a w', P w a → w.step cfg a = some w' → ∀ d, (w'.sess d).closed = false)
    {I : Net → Prop} (hkeep : ∀ n n', n.Shape → I n → Step cfg terms n n' → I n')
    {now : Side → Int} (hinit : I (ofWorld (World.init cfg now)))
    (hrun : Run (World.step cfg) P (World.init cfg now) w) :
  (ofWorld w).Shape ∧ I (ofWorld w)
  := by
  have hall : (∀ d, (w.sess d).closed = false) ∧ (ofWorld w).Shape ∧ I (ofWorld w) := by
    apply hrun.invariant (I := fun w =>
      (∀ d, (w.sess d).closed = false) ∧ (ofWorld w).Shape ∧ I (ofWorld w))
    · rintro w a w' ⟨hopen₁, hshape, hI⟩ hP hstep
      have hopen₂ := hopen w a w' hP hstep
      have hsteps := steps_of_step hshape hopen₁ hopen₂ (hallows w a hP) hstep
      exact ⟨hopen₂, hsteps.invariant hkeep hshape hI⟩
    · exact ⟨fun _ => rfl, shape_init cfg now, hinit⟩
  apply hall.2

end Net

end Muxocket
