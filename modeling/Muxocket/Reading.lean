import Muxocket.Calls
import Muxocket.Order

/-!
# What readers know

A reader that has seen the end of the stream and then finds the ring empty knows that it has
got everything, whatever happens between the loads of its loop.  We say what a reader knows at
each place of its loop, and show that this stays true when the rest of the session takes no
bytes from the ring, and that the steps of the readers lead from what is known to what is
known.
-/

namespace Muxocket

open Session

open ReadLoop

namespace ReadLoop

/-- A pass of a call that wants some bytes, and that has seen the end of the stream only if it
has ended. -/
def Pass.Ok (v : Shared) (l : Pass) : Prop :=
  l.call ≠ .read 0 ∧ (l.sawDone = true → v.readDone = true)

/-- What a reader knows, where `whole` says that it has returned all there is.  One that has
seen the end of the stream and found the ring empty has returned everything, unless the channel
is closed. -/
def Reader.Knows (v : Shared) (whole : Prop) : Reader → Prop
  | .idle => True
  | .checking (.entry c) => c ≠ .read 0
  | .checking (.loop l) =>
      l.Ok v ∧ (l.sawDone = true → v.buffers.flatten = [] ∧ (v.closed = false → whole))
  | .checking .leave => True
  | .probing (.entry c) => v.sessionClosed = true ∧ c ≠ .read 0
  | .probing (.loop l) =>
      v.sessionClosed = true ∧ l.Ok v ∧ (l.sawDone = true → v.buffers.flatten = [] ∧ whole)
  | .probing .leave => v.sessionClosed = true
  | .locking c => c ≠ .read 0
  | .scanning l _ => l.Ok v
  | .writing l b => l.Ok v ∧ (v.closed = false → ∃ bufs, v.buffers = b :: bufs)
  | .crediting _ _ _ => False
  | .ending l => l.Ok v ∧ (l.sawDone = true → v.buffers.flatten = [] ∧ whole)
  | .parked l => l.Ok v
  | .unlocking => True
  | .draining => v.closed = true ∨ v.sessionClosed = true

/-- What the rest of a session leaves of what its readers know. -/
structure Shared.Leaves (v v' : Shared) : Prop where
  closed : v'.closed = false → v.closed = false
  sessionClosed : v.sessionClosed = true → v'.sessionClosed = true
  readDone : v.readDone = true → v'.readDone = true
  front : v'.closed = false → ∀ b bufs, v.buffers = b :: bufs → ∃ bufs', v'.buffers = b :: bufs'
  still : v.readDone = true → v.buffers.flatten = [] → v'.buffers.flatten = []

theorem Shared.Leaves.refl (v : Shared) :
  v.Leaves v
  where
  closed h := h
  sessionClosed h := h
  readDone h := h
  front _ _ bufs h := ⟨bufs, h⟩
  still _ h := h

variable {v : Shared} {whole : Prop} {r : Reader}

/-- What a reader knows stays true. -/
theorem Reader.Knows.leaves {v' : Shared} {whole' : Prop} (hr : r.Knows v whole)
    (hv : v.Leaves v') (hwhole : whole → whole') :
  r.Knows v' whole'
  := by
  have hok : ∀ {l : Pass}, l.Ok v → l.Ok v' := fun hl => ⟨hl.1, fun hsaw => hv.readDone (hl.2 hsaw)⟩
  match r, hr with
  | .idle, _ => trivial
  | .checking (.entry _), h => exact h
  | .checking (.loop l), ⟨hl, h⟩ =>
      refine ⟨hok hl, fun hsaw => ⟨hv.still (hl.2 hsaw) (h hsaw).1, fun hclosed => ?_⟩⟩
      exact hwhole ((h hsaw).2 (hv.closed hclosed))
  | .checking .leave, _ => trivial
  | .probing (.entry _), ⟨hs, h⟩ => exact ⟨hv.sessionClosed hs, h⟩
  | .probing (.loop l), ⟨hs, hl, h⟩ =>
      exact ⟨hv.sessionClosed hs, hok hl,
        fun hsaw => ⟨hv.still (hl.2 hsaw) (h hsaw).1, hwhole (h hsaw).2⟩⟩
  | .probing .leave, h => exact hv.sessionClosed h
  | .locking _, h => exact h
  | .scanning _ _, h => exact hok h
  | .writing _ _, ⟨hl, h⟩ =>
      refine ⟨hok hl, fun hclosed => ?_⟩
      obtain ⟨bufs, hbufs⟩ := h (hv.closed hclosed)
      exact hv.front hclosed _ bufs hbufs
  | .ending l, ⟨hl, h⟩ =>
      exact ⟨hok hl, fun hsaw => ⟨hv.still (hl.2 hsaw) (h hsaw).1, hwhole (h hsaw).2⟩⟩
  | .parked _, h => exact hok h
  | .unlocking, _ => trivial
  | .draining, h =>
      refine h.imp (fun hclosed => ?_) hv.sessionClosed
      by_contra hopen
      simp [hv.closed (by simpa using hopen)] at hclosed

/-- What a step of a reader that takes nothing from the ring leads to. -/
structure Turn.Learns (v : Shared) (whole : Prop) (t : Turn) : Prop where
  out : t.out = []
  knows : t.reader.Knows v whole
  eof : t.report = some .eof →
    t.reader = .unlocking ∧ v.readDone = true ∧ v.buffers.flatten = [] ∧ whole

theorem Turn.Learns.goTo {v' : Shared} {report : Option Report} (hr : r.Knows v whole)
    (hreport : report ≠ some .eof) :
  Turn.Learns v whole { shared := v', reader := r, report := report }
  := ⟨rfl, hr, fun heof => absurd heof hreport⟩

theorem Spot.learns_pass {k : Spot}
    (hk : (Reader.probing k).Knows { v with sessionClosed := true } whole) :
  (k.pass v).Learns v whole
  := by
  cases k with
  | entry c | loop l => exact .goTo hk.2 nofun
  | leave => exact .goTo trivial nofun

/-- A reader that takes nothing from the ring. -/
theorem Reader.step_learns {o : Choice} {t : Turn}
    (hwhole : v.readDone = true → v.closed = false → v.buffers.flatten = [] → whole)
    (hread : ∀ n sawDone again acc, r ≠ .scanning ⟨.read n, sawDone, again⟩ acc)
    (hwrite : ∀ l b, r ≠ .writing l b) (hdrain : r ≠ .draining) (hr : r.Knows v whole)
    (hstep : r.step v o = some t) :
  t.Learns v whole
  := by
  unfold Reader.step at hstep
  split at hstep
  · cases hstep
    split
    · exact .goTo trivial nofun
    · exact .goTo (by assumption) nofun
  · rename_i k
    cases hstep
    split
    · cases k <;> exact .goTo (by simp_all [Reader.Knows]) nofun
    · rename_i hclosed
      have hopen : v.closed = false := by simpa using hclosed
      split
      · rename_i hsession
        refine .goTo ?_ nofun
        cases k with
        | entry c => exact ⟨hsession, hr⟩
        | loop l => exact ⟨hsession, hr.1, fun hsaw => ⟨(hr.2 hsaw).1, (hr.2 hsaw).2 hopen⟩⟩
        | leave => exact hsession
      · apply Spot.learns_pass
        cases k with
        | entry c => exact ⟨rfl, hr⟩
        | loop l => exact ⟨rfl, hr.1, fun hsaw => ⟨(hr.2 hsaw).1, (hr.2 hsaw).2 hopen⟩⟩
        | leave => rfl
  · rename_i k
    cases hstep
    split
    · apply Spot.learns_pass
      cases k with
      | entry c | loop l => exact ⟨rfl, hr.2⟩
      | leave => rfl
    · cases k with
      | entry c | loop l => exact .goTo trivial nofun
      | leave => exact .goTo (Or.inr hr) nofun
  · split at hstep
    · contradiction
    · cases hstep
      exact .goTo ⟨hr, nofun⟩ nofun
  · rename_i l acc
    cases hstep
    have hcall : ∀ n, l.call ≠ .read n := by
      rintro n hcall
      exact hread n l.sawDone l.again acc (by rw [← hcall])
    unfold Pass.scan
    split
    · rename_i n hcall' hbufs
      exact absurd hcall' (hcall n)
    · rename_i n b bufs hcall' hbufs
      exact absurd hcall' (hcall n)
    · rename_i hcall' hbufs
      refine .goTo ⟨hr, fun hsaw => ?_⟩ nofun
      have hnil : v.buffers.flatten = [] := by rw [hbufs]; rfl
      exact ⟨hnil, fun hclosed => hwhole (hr.2 hsaw) hclosed hnil⟩
    · rename_i b bufs hcall' hbufs
      split
      · exact .goTo hr nofun
      · exact .goTo ⟨hr, fun _ => ⟨bufs, hbufs⟩⟩ nofun
  · rename_i l b n fails
    exact absurd rfl (hwrite l b)
  · exact hr.elim
  · rename_i l
    cases hstep
    obtain ⟨hl, hfound⟩ := hr
    unfold Pass.finish
    split
    · rename_i hdone
      split
      · exact .goTo hl nofun
      · split
        · rename_i hsaw
          exact ⟨rfl, trivial, fun _ => ⟨rfl, hdone, hfound hsaw⟩⟩
        · exact .goTo ⟨hl.1, fun _ => hdone⟩ nofun
    · split
      · exact .goTo hl nofun
      · exact .goTo hl nofun
  · cases hstep
    exact .goTo hr nofun
  · split at hstep
    · cases hstep
      exact .goTo trivial nofun
    · contradiction
  · cases hstep
    exact .goTo trivial nofun
  · exact absurd rfl hdrain
  · contradiction

end ReadLoop

/-! ### Taking from a ring -/

namespace Session

/-- The two sessions differ in nothing but their windows, their control queues, and the channel
`k`, which has become `c`. -/
structure Alone (k : Nat) (c : Channel) (s s' : Session) : Prop where
  heap : s'.heap = Function.update s.heap k c
  next : s'.next = s.next
  closed : s'.closed = s.closed
  channels : s'.channels = s.channels

theorem Alone.refl (k : Nat) (s : Session) :
  s.Alone k (s.heap k) s
  := ⟨(Function.update_eq_self k s.heap).symm, rfl, rfl, rfl⟩

variable {k : Nat} {c : Channel} {s s' : Session}

theorem Alone.self (h : s.Alone k c s') :
  s'.heap k = c
  := by
  rw [h.heap, Function.update_self]

theorem Alone.of_ne {j : Nat} (h : s.Alone k c s') (hj : j ≠ k) :
  s'.heap j = s.heap j
  := by
  rw [h.heap, Function.update_of_ne hj]

theorem Alone.paid {s'' : Session} (h : s.Alone k c s') (hpaid : s'.Paid s'') :
  s.Alone k c s''
  := by
  rw [hpaid]
  exact ⟨h.heap, h.next, h.closed, h.channels⟩

theorem alone_update (k : Nat) (f : Channel → Channel) (s : Session) :
  s.Alone k (f (s.heap k)) (s.update k f)
  := ⟨rfl, rfl, rfl, rfl⟩

theorem Alone.update (h : s.Alone k c s') (f : Channel → Channel) :
  s.Alone k (f c) (s'.update k f)
  := by
  constructor
  · rw [Session.update, h.heap, Function.update_self, Function.update_idem]
  · exact h.next
  · exact h.closed
  · exact h.channels

theorem alone_flushStreamUpdate (cfg : SessionConfig) (k : Nat) (s : Session) :
  ∃ sf, s.Alone k { s.heap k with flow := sf } (s.flushStreamUpdate cfg k)
  := by
  unfold flushStreamUpdate writeControlFrameNonBlocking
  dsimp only
  have hupdate := alone_update k (fun c => { c with flow := c.flow.flushUpdate }) s
  split
  · split
    · rename_i s' hs
      split at hs
      · contradiction
      · split at hs
        · cases hs
          exact ⟨_, hupdate.heap, rfl, rfl, rfl⟩
        · cases hs
          exact ⟨_, hupdate.heap, rfl, rfl, rfl⟩
    · exact ⟨_, hupdate.update fun c => { c with flow := { c.flow with updPending := false } }⟩
  · exact ⟨_, hupdate⟩

theorem alone_streamConsume (cfg : SessionConfig) (k : Nat) (n : Int) (s : Session) :
  ∃ sf, s.Alone k { s.heap k with flow := sf } (s.streamConsume cfg k n)
  := by
  unfold streamConsume
  dsimp only
  have hupdate := alone_update k (fun c => { c with flow := c.flow.consume n }) s
  split
  · obtain ⟨sf, hflush⟩ := alone_flushStreamUpdate cfg k
      (s.update k fun c => { c with flow := c.flow.consume n })
    refine ⟨sf, ?_, hflush.next, hflush.closed, hflush.channels⟩
    rw [hflush.heap, hupdate.heap, Function.update_idem, Function.update_self]
  · exact ⟨_, hupdate⟩

/-- What the application takes from a channel. -/
theorem alone_consumeRing (cfg : SessionConfig) (k : Nat) (p : Bytes) (bufs : List Bytes)
    (s : Session) :
  ∃ sf, s.Alone k
    { s.heap k with ring := some bufs, delivered := (s.heap k).delivered ++ p, flow := sf }
    (s.consumeRing cfg k p bufs)
  := by
  unfold consumeRing streamOnRead
  have hupdate := alone_update k
    (fun c => { c with ring := some bufs, delivered := c.delivered ++ p }) s
  split
  · exact ⟨_, hupdate⟩
  · obtain ⟨sf, hconsume⟩ := alone_streamConsume cfg k (int32 p.length)
      (s.update k fun c => { c with ring := some bufs, delivered := c.delivered ++ p })
    have hboth : s.Alone k
        { s.heap k with ring := some bufs, delivered := (s.heap k).delivered ++ p, flow := sf }
        ((s.update k fun c => { c with
          ring := some bufs, delivered := c.delivered ++ p }).streamConsume cfg k
            (int32 p.length)) := by
      refine ⟨?_, hconsume.next, hconsume.closed, hconsume.channels⟩
      rw [hconsume.heap, hupdate.heap, Function.update_idem, Function.update_self]
    use sf
    dsimp only
    split
    · exact hboth.paid (paid_sessionOnRead cfg _ _)
    · exact hboth

/-- Discarding what is in a ring is not delivering it. -/
theorem alone_drainRing (cfg : SessionConfig) (k : Nat) (s : Session) :
  ∃ c, s.Alone k c (s.drainRing cfg k) ∧ c.closed = (s.heap k).closed
    ∧ c.readDone = (s.heap k).readDone ∧ c.drainable = (s.heap k).drainable
    ∧ c.delivered = (s.heap k).delivered ∧ (c.buffers = (s.heap k).buffers ∨ c.buffers = [])
  := by
  unfold drainRing
  split
  · exact ⟨s.heap k, .refl k s, rfl, rfl, rfl, rfl, .inl rfl⟩
  · have hcredit : s.Alone k (s.heap k) (s.creditSession cfg (s.heap k).unread) := by
      have hself : s.Alone k (s.heap k) s := .refl k s
      unfold creditSession
      split
      · exact hself.paid (paid_sessionOnRead cfg _ _)
      · exact hself
    exact ⟨_, hcredit.update _, rfl, rfl, rfl, rfl, .inr rfl⟩

end Session

/-- What becomes of a channel while its reader waits. -/
structure Channel.Leaves (c c' : Channel) : Prop where
  closed : c'.closed = false → c.closed = false
  readDone : c.readDone = true → c'.readDone = true
  front : c'.closed = false → ∀ b bufs, c.buffers = b :: bufs → ∃ bufs', c'.buffers = b :: bufs'
  still : c.readDone = true → c.buffers.flatten = [] → c'.buffers.flatten = []
  delivered : c'.delivered = c.delivered

theorem Channel.Leaves.refl (c : Channel) :
  c.Leaves c
  := ⟨fun h => h, fun h => h, fun _ _ bufs h => ⟨bufs, h⟩, fun _ h => h, rfl⟩

theorem Channel.Leaves.trans {c₁ c₂ c₃ : Channel} (h : c₁.Leaves c₂) (h' : c₂.Leaves c₃) :
  c₁.Leaves c₃
  where
  closed hclosed := h.closed (h'.closed hclosed)
  readDone hdone := h'.readDone (h.readDone hdone)
  front hclosed b bufs hbufs := by
    obtain ⟨bufs', hbufs'⟩ := h.front (h'.closed hclosed) b bufs hbufs
    exact h'.front hclosed b bufs' hbufs'
  still hdone hnil := h'.still (h.readDone hdone) (h.still hdone hnil)
  delivered := h'.delivered.trans h.delivered

namespace Session

/-- What becomes of a session while its readers wait: nothing is delivered to them, and what
they know stays true. -/
structure Leaves (s s' : Session) : Prop where
  next : s.next ≤ s'.next
  closed : s.closed = true → s'.closed = true
  heap : ∀ k < s.next, (s.heap k).Leaves (s'.heap k)
  fresh : ∀ k, s.next ≤ k → k < s'.next → (s'.heap k).delivered = []

theorem Leaves.view {s s' : Session} (h : s.Leaves s') {k : Nat} (hk : k < s.next) :
  (s.view k).Leaves (s'.view k)
  where
  closed := (h.heap k hk).closed
  sessionClosed := h.closed
  readDone := (h.heap k hk).readDone
  front := (h.heap k hk).front
  still := (h.heap k hk).still

theorem Leaves.refl (s : Session) :
  s.Leaves s
  := ⟨le_refl _, fun h => h, fun _ _ => .refl _, fun _ _ _ => by omega⟩

theorem Leaves.trans {s₁ s₂ s₃ : Session} (h : s₁.Leaves s₂) (h' : s₂.Leaves s₃) :
  s₁.Leaves s₃
  where
  next := le_trans h.next h'.next
  closed hclosed := h'.closed (h.closed hclosed)
  heap k hk := (h.heap k hk).trans (h'.heap k (lt_of_lt_of_le hk h.next))
  fresh k hk hk' := by
    by_cases hlt : k < s₂.next
    · rw [(h'.heap k hlt).delivered, h.fresh k hk hlt]
    · exact h'.fresh k (by omega) hk'

end Session

/-! ### Moves that take nothing from a ring -/

namespace Channel

variable {cfg : SessionConfig} {r : Rules} {hand : List PacketFrame} {c c' : Channel}

/-- The chunk `p` is put on the ring of a channel. -/
def Gets (cfg : SessionConfig) (hand : List PacketFrame) (p : Bytes) (c c' : Channel) : Prop :=
  cfg.reliability = false ∧ (∃ f ∈ hand, f.flag = .data ∧ c.id = f.chID ∧ f.data = p)
    ∨ cfg.reliability = true ∧ c'.readOffset = c.readOffset + p.length

theorem buffers_push (p : Bytes) (c : Channel) :
  (c.push p).buffers = c.buffers ∨ (c.push p).buffers = c.buffers ++ [p]
  := by
  unfold Channel.push
  split
  · rename_i bufs hring
    right
    simp [Channel.buffers, hring]
  · exact .inl rfl

theorem buffers_feed (hrel : cfg.reliability = true) (p : Bytes) {c₀ : Channel}
    (hbuffers : c₀.buffers = c.buffers) (hclosed : c₀.closed = c.closed)
    (hoffset : c₀.readOffset = c.readOffset) :
  (c₀.feed p).buffers = c.buffers
    ∨ ∃ q, (c₀.feed p).buffers = c.buffers ++ [q] ∧ c.closed = false ∧ c.Gets cfg hand q (c₀.feed p)
  := by
  unfold Channel.feed
  split
  · exact .inl hbuffers
  · rename_i hopen
    rcases buffers_push p c₀ with hsame | hpush
    · exact .inl (hsame.trans hbuffers)
    · right
      refine ⟨p, ?_, by simpa [hclosed] using hopen, .inr ⟨hrel, ?_⟩⟩
      · exact hpush.trans (by rw [hbuffers])
      · unfold Channel.push
        split <;> simp [hoffset]

/-- What may happen to a ring from which nothing is taken: it stays, it is closed, or something
is put on it. -/
theorem buffers_alter (hquiet : ¬ r.reads) (halter : Alter cfg r hand c c') :
  c'.buffers = c.buffers
    ∨ (c'.buffers = []
      ∧ (c'.closed = true ∨ c.buffers = [] ∨ c.drainable = false ∧ c.readDone = true))
    ∨ ∃ p, c'.buffers = c.buffers ++ [p] ∧ c.closed = false ∧ c.Gets cfg hand p c'
  := by
  cases halter with
  | touch htouch =>
      cases htouch with
      | alike halike =>
          rw [halike]
          exact .inl rfl
      | trim hreads | eof hreads => exact absurd hreads hquiet
      | _ => exact .inl rfl
  | fin now | lateFin now | send now p =>
      simp only [closeFin, Channel.lateFin, finish, Channel.send, register]
      split <;> exact .inl rfl
  | drain | giveUp => exact .inr (.inl ⟨rfl, .inl rfl⟩)
  | retire _ _ hread =>
      simp only [retire]
      split
      · rename_i hcond
        refine .inr (.inl ⟨rfl, .inr ?_⟩)
        rcases hcond with hdrainable | hbuffers
        · exact .inr ⟨hdrainable, hread⟩
        · exact .inl hbuffers
      · exact .inl rfl
  | push f hf hflag hid hrel hclosed =>
      rcases buffers_push f.data c with hsame | hpush
      · exact .inl hsame
      · exact .inr (.inr ⟨f.data, hpush, hclosed, .inl ⟨hrel, f, hf, hflag, hid, rfl⟩⟩)
  | feed f hf hflag hid hrel => exact (buffers_feed hrel f.data rfl rfl rfl).imp_right .inr
  | feedEarly p hrel => exact (buffers_feed hrel p rfl rfl rfl).imp_right .inr
  | take p bufs hreads => exact absurd hreads hquiet
  | _ => exact .inl rfl

theorem delivered_alter (hquiet : ¬ r.reads) (halter : Alter cfg r hand c c') :
  c'.delivered = c.delivered
  := by
  cases halter with
  | touch htouch =>
      cases htouch with
      | alike halike => rw [halike]
      | _ => rfl
  | fin now | lateFin now | send now p =>
      simp only [closeFin, Channel.lateFin, finish, Channel.send, register]
      split <;> rfl
  | retire =>
      simp only [retire]
      split <;> rfl
  | push f =>
      unfold Channel.push
      split <;> rfl
  | feed f | feedEarly p =>
      simp only [Channel.feedEarly, Channel.feed, Channel.push]
      split
      · rfl
      · split <;> rfl
  | take p bufs hreads => exact absurd hreads hquiet
  | _ => rfl

/-- A channel from which nothing is taken leaves its reader what it knows, if nothing comes
after the end of the stream. -/
theorem leaves_alter (hquiet : ¬ r.reads) (hring : c.RingOk) (halter : Alter cfg r hand c c')
    (hgets : ∀ p, c.readDone = true → c.closed = false → c.Gets cfg hand p c' → p = []) :
  c.Leaves c'
  where
  closed := Station.closed_alter halter
  readDone := halter.grows.readDone
  front hopen b bufs hbufs := by
    rcases buffers_alter hquiet halter with hsame | ⟨hnil, hclosed | hempty | ⟨hdrainable, hread⟩⟩
      | ⟨p, hpush, _⟩
    · exact ⟨bufs, hsame.trans hbufs⟩
    · simp [hopen] at hclosed
    · simp [hempty] at hbufs
    · have hclosed := Station.closed_alter halter hopen
      rcases hring.readDone hread with hdrainable' | hclosed'
      · simp [hdrainable] at hdrainable'
      · simp [hclosed] at hclosed'
    · exact ⟨bufs ++ [p], by rw [hpush, hbufs]; rfl⟩
  still hdone hnil := by
    rcases buffers_alter hquiet halter with hsame | ⟨hempty, _⟩ | ⟨p, hpush, hclosed, hp⟩
    · rw [hsame, hnil]
    · rw [hempty]
      rfl
    · rw [hpush, List.flatten_append, hnil, hgets p hdone hclosed hp]
      rfl
  delivered := delivered_alter hquiet halter

end Channel

/-- A move that takes nothing from a ring leaves the readers what they know. -/
theorem Station.Move.leaves {cfg : SessionConfig} {r : Rules} {t t' : Station}
    (hm : Station.Move cfg r t t') (hquiet : ¬ r.reads)
    (hring : ∀ h < t.sess.next, (t.sess.heap h).RingOk)
    (hgets : ∀ h < t.sess.next, ∀ p, (t.sess.heap h).readDone = true →
      (t.sess.heap h).closed = false →
      (t.sess.heap h).Gets cfg t.hand p (t'.sess.heap h) → p = []) :
  t.sess.Leaves t'.sess
  where
  next := hm.closed_next.2
  closed hclosed := hm.closed_next.1.trans hclosed
  heap k hk := by
    rcases hm.alter hk with hsame | halter
    · rw [hsame]
      exact .refl _
    · exact Channel.leaves_alter hquiet (hring k hk) halter (hgets k hk)
  fresh k hk hk' := by
    rcases hm.next_eq with heq | ⟨id, _, _, _, _, rfl⟩
    · omega
    · obtain rfl : k = t.sess.next := by
        simp only [Session.publish] at hk'
        omega
      simp [Session.publish]

/-! ### Moves of readers -/

namespace Station

variable {cfg : SessionConfig} {r : Rules} {t : Station}

variable {h : Nat}

section

variable (hopen : t.sess.closed = false) (hh : h < t.sess.next)

include hopen hh

theorem moves_readRing (hreads : r.reads) (n : Nat) :
  Moves cfg r t (t.put (t.sess.readRing cfg h n).2)
  := by
  unfold readRing
  dsimp only
  split
  · exact .refl
  · rename_i hp
    exact moves_consumeRing hopen hh hreads (takeBytes_flatten n _) hp

theorem moves_advance (hreads : r.reads) {n : Nat} (hn : 0 < n) :
  Moves cfg r t (t.put (t.sess.advance cfg h n))
  := by
  unfold advance
  split
  · exact .refl
  · rename_i b bufs hbufs
    by_cases hb : b = []
    · subst hb
      have hmoves : Moves cfg r t _ := moves_consumeEmpty hh hreads hbufs
      simpa [dropFront] using hmoves
    · apply moves_consumeRing hopen hh hreads
      · rw [hbufs, List.flatten_cons, take_dropFront]
      · simp [List.take_eq_nil_iff, hb]
        omega

/-- The reader of a closed channel discards what is in its ring. -/
theorem moves_drainRing_closed (hclosed : (t.sess.heap h).closed = true) :
  Moves cfg r t (t.put (t.sess.drainRing cfg h))
  := by
  have hshut : t.sess.update h Channel.shut = t.sess := by
    have hself : (t.sess.heap h).shut = t.sess.heap h := by
      rw [Channel.shut, ← hclosed]
    rw [Session.update, hself, Function.update_eq_self]
  have hmoves : Moves cfg r t _ := moves_drainRing hopen hh Channel.shut rfl rfl Touch.shut
    (Move.drain h hh)
  rwa [hshut] at hmoves

end

end Station

/-! ### Readers -/

namespace Peers

variable {G : Side → Nat → World → Bytes → Prop} {cfg : Side → SessionConfig} {p p' : Peers}

/-- The readers of two sessions.  What the calls of a reader have returned is what was
delivered, and each reader knows what it may know, and has reported the end of a stream only
when that was so.  `G e k w b` says that `b` is all there is for the channel `k` at the side
`e`. -/
structure Reads (G : Side → Nat → World → Bytes → Prop) (p : Peers) : Prop where
  knows : ∀ e k, (p.reader e k).Knows ((p.world.sess e).view k) (G e k p.world (p.returned e k))
  same : ∀ e, ∀ k < (p.world.sess e).next, ((p.world.sess e).heap k).closed = false →
    p.returned e k = ((p.world.sess e).heap k).delivered
  fresh : ∀ e k, (p.world.sess e).next ≤ k → p.reader e k = .idle ∧ p.returned e k = []
  eofs : ∀ x ∈ p.eofs, x.2.1 < (p.world.sess x.1).next ∧ G x.1 x.2.1 p.world x.2.2

/-- The readers wait while the rest of the sessions goes on. -/
theorem Reads.world (hp : p.Reads G) {w : World} {gone : Side → Bool}
    (hleaves : ∀ e, (p.world.sess e).Leaves (w.sess e))
    (hG : ∀ e, ∀ k < (p.world.sess e).next, ∀ b, G e k p.world b → G e k w b) :
  Reads G { p with world := w, gone := gone }
  where
  knows e k := by
    by_cases hk : k < (p.world.sess e).next
    · exact (hp.knows e k).leaves ((hleaves e).view hk) (hG e k hk _)
    · dsimp only
      rw [(hp.fresh e k (by omega)).1]
      trivial
  same e k hk hclosed := by
    by_cases hlt : k < (p.world.sess e).next
    · have hsame := hp.same e k hlt (((hleaves e).heap k hlt).closed hclosed)
      rw [((hleaves e).heap k hlt).delivered]
      exact hsame
    · have hreturned := (hp.fresh e k (by omega)).2
      rw [(hleaves e).fresh k (by omega) hk]
      exact hreturned
  fresh e k hk := hp.fresh e k (le_trans (hleaves e).next hk)
  eofs x hx := by
    obtain ⟨hk, hx⟩ := hp.eofs x hx
    exact ⟨lt_of_lt_of_le hk (hleaves _).next, hG _ _ hk _ hx⟩

variable {e : Side} {k : Nat} {o : Choice}

/-- A reader makes a step, in which the channel `k` becomes `c`. -/
theorem Reads.afterCall (hp : p.Reads G) {s : Session} {c : Channel} {r : Reader} {out : Bytes}
    {report : Option Report} (hk : k < (p.world.sess e).next)
    (halone : (p.world.sess e).Alone k c s)
    (hsame : c.closed = false → p.returned e k ++ out = c.delivered)
    (hG : ∀ e', ∀ k' < (p.world.sess e').next, ∀ b, G e' k' p.world b →
      G e' k' (p.world.setSess e s) b)
    (hknows : r.Knows (s.view k) (G e k (p.world.setSess e s) (p.returned e k ++ out)))
    (heof : report = some .eof → G e k (p.world.setSess e s) (p.returned e k ++ out)) :
  (p.afterCall e k s r out report).Reads G
  := by
  have hsess : ∀ e', ((p.world.setSess e s).sess e').next = (p.world.sess e').next := by
    intro e'
    by_cases he : e' = e
    · subst he
      simpa using halone.next
    · simp [he]
  have hother : ∀ e' k', ¬ (e' = e ∧ k' = k) →
      (p.afterCall e k s r out report).reader e' k' = p.reader e' k'
        ∧ (p.afterCall e k s r out report).returned e' k' = p.returned e' k'
        ∧ ((p.world.setSess e s).sess e').heap k' = (p.world.sess e').heap k'
        ∧ ((p.world.setSess e s).sess e').view k' = (p.world.sess e').view k' := by
    intro e' k' hne
    by_cases he : e' = e
    · subst he
      have hk' : k' ≠ k := fun heq => hne ⟨rfl, heq⟩
      simp [Peers.afterCall, view, halone.of_ne hk', halone.closed, hk']
    · simp [Peers.afterCall, he]
  constructor
  · intro e' k'
    by_cases hself : e' = e ∧ k' = k
    · obtain ⟨rfl, rfl⟩ := hself
      simpa [Peers.afterCall] using hknows
    · obtain ⟨hreader, hreturned, _, hview⟩ := hother e' k' hself
      rw [hreader, hreturned]
      by_cases hk' : k' < (p.world.sess e').next
      · have hleaves : ((p.world.sess e').view k').Leaves
          (((p.world.setSess e s).sess e').view k') := by
          rw [hview]
          exact .refl _
        exact (hp.knows e' k').leaves hleaves (hG e' k' hk' _)
      · rw [(hp.fresh e' k' (by omega)).1]
        trivial
  · intro e' k' hk' hopen
    by_cases hself : e' = e ∧ k' = k
    · obtain ⟨rfl, rfl⟩ := hself
      simp only [Peers.afterCall, World.setSess, Function.update_self, halone.self] at hopen ⊢
      exact hsame hopen
    · obtain ⟨_, hreturned, hheap, _⟩ := hother e' k' hself
      change ((((p.world.setSess e s).sess e').heap k').closed = false) at hopen
      rw [hreturned]
      change _ = (((p.world.setSess e s).sess e').heap k').delivered
      rw [hheap] at hopen ⊢
      exact hp.same e' k' (lt_of_lt_of_eq hk' (hsess e')) hopen
  · intro e' k' hk'
    have hk'' : (p.world.sess e').next ≤ k' := (hsess e').symm.trans_le hk'
    obtain ⟨hreader, hreturned, _⟩ := hother e' k' (by rintro ⟨rfl, rfl⟩; omega)
    rw [hreader, hreturned]
    exact hp.fresh e' k' hk''
  · intro x hx
    have hold : x ∈ p.eofs → x.2.1 < ((p.world.setSess e s).sess x.1).next
        ∧ G x.1 x.2.1 (p.world.setSess e s) x.2.2 := by
      intro hx
      obtain ⟨hlt, hG'⟩ := hp.eofs x hx
      exact ⟨lt_of_lt_of_eq hlt (hsess x.1).symm, hG _ _ hlt _ hG'⟩
    unfold Peers.afterCall at hx
    dsimp only at hx
    split at hx
    · rename_i hreport
      rcases List.mem_append.mp hx with hx | hx
      · exact hold hx
      · obtain rfl := List.mem_singleton.mp hx
        exact ⟨lt_of_lt_of_eq hk (hsess e).symm, heof hreport⟩
    · exact hold hx

/-- There is nothing more for a reader that has seen the end of its stream and finds the ring
empty. -/
def Ends (G : Side → Nat → World → Bytes → Prop) (p : Peers) (e : Side) (k : Nat) : Prop :=
  ((p.world.sess e).heap k).readDone = true → ((p.world.sess e).heap k).closed = false →
    ((p.world.sess e).heap k).buffers.flatten = [] →
    G e k p.world ((p.world.sess e).heap k).delivered

theorem Reads.learns (hp : p.Reads G) (hwhole : p.Ends G e k) (hk : k < (p.world.sess e).next)
    {t : Turn} (ht : (p.reader e k).step ((p.world.sess e).view k) o = some t)
    (hwrite : ∀ l b, p.reader e k ≠ .writing l b) (hdrain : p.reader e k ≠ .draining)
    (hread : ∀ n sawDone again acc, p.reader e k ≠ .scanning ⟨.read n, sawDone, again⟩ acc) :
  t.Learns ((p.world.sess e).view k) (G e k p.world (p.returned e k))
  := by
  refine Reader.step_learns (fun hdone hclosed hempty => ?_) hread hwrite hdrain (hp.knows e k) ht
  rw [hp.same e k hk hclosed]
  exact hwhole hdone hclosed hempty

/-- A step of a reader keeps what the readers know. -/
theorem Reads.call (hp : p.Reads G) (hcall : p.call cfg e k o = some p')
    (hwhole : p.Ends G e k)
    (hG : ∀ e', ∀ k' < (p.world.sess e').next, ∀ b, G e' k' p.world b → G e' k' p'.world b) :
  p'.Reads G
  := by
  have hknows := hp.knows e k
  have hself : (p.world.sess e).Alone k ((p.world.sess e).heap k) (p.world.sess e) := .refl k _
  obtain ⟨hk, hcases⟩ := call_cases hcall
  have hsame := hp.same e k hk
  rcases hcases with ⟨n, sawDone, again, acc, hreader, rfl⟩
    | ⟨l, b, n, fails, hreader, hn, hle, rfl⟩
    | ⟨hreader, rfl⟩ | ⟨l, b, hreader, rfl⟩ | ⟨t, ht, hwrite, hdrain, hread, rfl⟩
  · rw [hreader] at hknows
    generalize hb : takeBytes n ((p.world.sess e).heap k).buffers = b
    by_cases hnil : b.1 = []
    · have hring : (p.world.sess e).readRing (cfg e) k n = ([], p.world.sess e) := by
        simp [readRing, hb, hnil]
      rw [hring] at hG ⊢
      refine hp.afterCall hk hself (by simpa using hsame) hG ?_ nofun
      rw [if_pos rfl, List.append_nil]
      have hpos : 0 < n := by
        by_contra hzero
        exact hknows.1 (by simp [Nat.eq_zero_of_not_pos hzero])
      have hempty := Station.takeBytes_eq_nil hpos (hb ▸ hnil)
      refine ⟨hknows, fun hsaw => ⟨hempty, fun hclosed => ?_⟩⟩
      rw [hsame hclosed]
      exact hG e k hk _ (hwhole (hknows.2 hsaw) hclosed hempty)
    · obtain ⟨sf, halone⟩ := alone_consumeRing (cfg e) k b.1 b.2 (p.world.sess e)
      have hring : (p.world.sess e).readRing (cfg e) k n
          = (b.1, (p.world.sess e).consumeRing (cfg e) k b.1 b.2) := by
        simp [readRing, hb, hnil]
      rw [hring] at hG ⊢
      refine hp.afterCall hk halone ?_ hG ?_ nofun
      · intro hclosed
        rw [hsame hclosed]
      · rw [if_neg hnil]
        trivial
  · rw [hreader] at hknows
    obtain ⟨hl, hfront⟩ := hknows
    obtain ⟨c, halone, hclosed, hdone, hdelivered⟩ : ∃ c, (p.world.sess e).Alone k c
        ((p.world.sess e).advance (cfg e) k n) ∧ c.closed = ((p.world.sess e).heap k).closed
        ∧ c.readDone = ((p.world.sess e).heap k).readDone
        ∧ (c.closed = false → c.delivered = ((p.world.sess e).heap k).delivered ++ b.take n) := by
      unfold advance
      split
      · rename_i hnone
        refine ⟨_, hself, rfl, rfl, fun hclosed => ?_⟩
        obtain ⟨bufs, hbufs⟩ := hfront hclosed
        exact absurd (hnone.symm.trans hbufs) (by simp)
      · rename_i b' bufs hbufs
        obtain ⟨sf, halone⟩ := alone_consumeRing (cfg e) k (b'.take n)
          (dropFront n (b' :: bufs)) (p.world.sess e)
        refine ⟨_, halone, rfl, rfl, fun hclosed => ?_⟩
        obtain ⟨bufs', hbufs'⟩ := hfront hclosed
        obtain ⟨rfl, -⟩ := List.cons.inj (hbufs.symm.trans hbufs')
        rfl
    refine hp.afterCall hk halone ?_ hG ?_ nofun
    · intro hopen
      rw [hdelivered hopen, hsame (hclosed ▸ hopen)]
    · split
      · trivial
      · refine ⟨hl.1, fun hsaw => ?_⟩
        have hread := hl.2 hsaw
        simp only [view, halone.self, hdone] at hread ⊢
        exact hread
  · obtain ⟨c, halone, hclosed, hdone, -, hdelivered, -⟩ :=
      alone_drainRing (cfg e) k (p.world.sess e)
    refine hp.afterCall hk halone ?_ hG trivial nofun
    intro hopen
    rw [List.append_nil, hdelivered, hsame (hclosed ▸ hopen)]
  · exact hp.afterCall hk hself (by simpa using hsame) hG trivial nofun
  · have hlearns := hp.learns hwhole hk ht hwrite hdrain hread
    by_cases hreport : t.report = some .eof
    · obtain ⟨hunlocking, hdone, hempty, hall⟩ := hlearns.eof hreport
      simp only [if_pos hreport] at hG ⊢
      rw [hlearns.out, hunlocking]
      refine hp.afterCall hk (alone_update k _ _) (by simpa using hsame) hG trivial ?_
      intro _
      rw [List.append_nil]
      exact hG e k hk _ hall
    · simp only [if_neg hreport] at hG ⊢
      rw [hlearns.out]
      refine hp.afterCall hk hself (by simpa using hsame) hG ?_ (fun h => absurd h hreport)
      rw [List.append_nil]
      exact hlearns.knows.leaves (.refl _) (hG e k hk _)

/-- A step of a reader changes nothing but its session, and makes moves if it is open. -/
theorem Reads.moves_call (hp : p.Reads G) {r : Rules} (hopen : (p.world.sess e).closed = false)
    (hreads : r.reads) (hwhole : p.Ends G e k) (hcall : p.call cfg e k o = some p') :
  ∃ s, p'.world = p.world.setSess e s
    ∧ Station.Moves (cfg e) r { sess := p.world.sess e } { sess := s }
  := by
  have hknows := hp.knows e k
  obtain ⟨hk, hcases⟩ := call_cases hcall
  rcases hcases with ⟨n, sawDone, again, acc, hreader, rfl⟩
    | ⟨l, b, n, fails, hreader, hn, hle, rfl⟩
    | ⟨hreader, rfl⟩ | ⟨l, b, hreader, rfl⟩ | ⟨t, ht, hwrite, hdrain, hread, rfl⟩
  · exact ⟨_, rfl, Station.moves_readRing (t := { sess := p.world.sess e }) hopen hk hreads n⟩
  · exact ⟨_, rfl, Station.moves_advance (t := { sess := p.world.sess e }) hopen hk hreads hn⟩
  · rw [hreader] at hknows
    have hclosed : ((p.world.sess e).heap k).closed = true := by
      rcases hknows with hclosed | hclosed
      · exact hclosed
      · simp [view, hopen] at hclosed
    exact ⟨_, rfl,
      Station.moves_drainRing_closed (t := { sess := p.world.sess e }) hopen hk hclosed⟩
  · exact ⟨_, rfl, .refl⟩
  · have hlearns := hp.learns hwhole hk ht hwrite hdrain hread
    by_cases hreport : t.report = some .eof
    · obtain ⟨-, hdone, hempty, -⟩ := hlearns.eof hreport
      rw [if_pos hreport]
      exact ⟨_, rfl, Station.moves_touch (t := { sess := p.world.sess e }) hk
        (fun c => { c with ring := none }) (Touch.eof hreads hdone hempty)⟩
    · rw [if_neg hreport]
      exact ⟨_, rfl, .refl⟩

/-- A step of a reader of an open session is a sequence of steps of two sessions. -/
theorem Reads.steps_call (hp : p.Reads G) {terms : Terms}
    (hopen : (p.world.sess e).closed = false) (hreads : (terms.rules e).reads)
    (hwhole : p.Ends G e k) (hcall : p.call cfg e k o = some p') :
  Net.Steps cfg terms (Net.ofWorld p.world) (Net.ofWorld p'.world)
  := by
  obtain ⟨s, hs, hmoves⟩ := hp.moves_call hopen hreads hwhole hcall
  rw [hs]
  exact Net.steps_setSess hmoves

end Peers

end Muxocket
