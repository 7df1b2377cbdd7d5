import Muxocket.Net
import Muxocket.ReadLoop

/-!
# Two sessions and their readers

`Peers` is two sessions with a reader for each of their channels, which calls `Read` and
`WriteTo` and goes through their loops step by step, while everything else goes on.  The steps
of a reader are those of its loop, with two exceptions: what a `Read` finds in the ring, and
what the writer of a `WriteTo` accepts, is taken from the ring in one step with the return of
its credit, since nobody else takes from the ring while the reader holds its lock.

A session is closed by its application, or by the goodbye of its peer, in two steps: it is
marked as closed, and then its channels are ended.  A session that was closed by its
application says goodbye in the end.
-/

namespace Muxocket

open ReadLoop

namespace Session

/-- What the reader of a channel shares with the rest of the session. -/
def view (k : Nat) (s : Session) : Shared where
  ring := (s.heap k).ring
  closed := (s.heap k).closed
  sessionClosed := s.closed
  drainable := (s.heap k).drainable
  readDone := (s.heap k).readDone

/-- Take at most `n` bytes from the ring of a channel, and return their credit. -/
def readRing (cfg : SessionConfig) (k n : Nat) (s : Session) : Bytes × Session :=
  let r := takeBytes n (s.heap k).buffers
  if r.1 = [] then ([], s) else (r.1, s.consumeRing cfg k r.1 r.2)

/-- Take `n` bytes of the oldest buffer in the ring of a channel, and return their credit. -/
def advance (cfg : SessionConfig) (k n : Nat) (s : Session) : Session :=
  match (s.heap k).buffers with
  | [] => s
  | b :: bufs => s.consumeRing cfg k (b.take n) (dropFront n (b :: bufs))

/-- Mark a session as closed. -/
def markClosed (s : Session) : Session :=
  { s with closed := true }

/-- End the channels of a session that is marked as closed. -/
def endChannels (cfg : SessionConfig) (s : Session) : Session :=
  { s with channels := fun _ => none, pending := ∅, closedIDs := ∅, pendingBytes := 0
           arqSet := [] }.closeChannels cfg s.activeChannels

/-- A session is closed by marking it as closed and ending its channels. -/
theorem closeSession_eq (cfg : SessionConfig) {s : Session} (hopen : s.closed = false) :
  s.closeSession cfg = s.markClosed.endChannels cfg
  := by
  unfold closeSession
  rw [if_neg (by simp [hopen])]
  rfl

end Session

/-- Two sessions with the readers of their channels.  `gone` says that the writer of a session
has sent its last frame.  As history we keep the bytes that the calls of each reader have
returned, and for each end of a stream that was reported the bytes that had been returned
then. -/
structure Peers where
  world : World
  gone : Side → Bool
  reader : Side → Nat → Reader
  returned : Side → Nat → Bytes
  eofs : List (Side × Nat × Bytes)

/-- What can happen: an action of the world, a step of a reader, or a step of the closing of a
session. -/
inductive Event where
  | act (a : Action)
  | call (e : Side) (k : Nat) (o : Choice)
  | close (d : Side)
  | endChannels (d : Side)
  | goAway (d : Side)

namespace Peers

/-- Two new sessions. -/
def init (cfg : Side → SessionConfig) (now : Side → Int) : Peers where
  world := World.init cfg now
  gone _ := false
  reader _ _ := .idle
  returned _ _ := []
  eofs := []

/-- The reader of a channel has made a step that hands `out` to the application. -/
def afterCall (e : Side) (k : Nat) (s : Session) (r : Reader) (out : Bytes)
    (report : Option Report) (p : Peers) : Peers :=
  { p with
    world := p.world.setSess e s
    reader := Function.update p.reader e (Function.update (p.reader e) k r)
    returned := Function.update p.returned e
      (Function.update (p.returned e) k (p.returned e k ++ out))
    eofs :=
      if report = some .eof then p.eofs ++ [(e, k, p.returned e k ++ out)] else p.eofs }

/-- A step of the reader of the channel `k` at the side `e`. -/
def call (cfg : Side → SessionConfig) (e : Side) (k : Nat) (o : Choice) (p : Peers) :
    Option Peers :=
  let s := p.world.sess e
  if k < s.next then
    match p.reader e k, o with
    | .scanning ⟨.read n, sawDone, again⟩ _, .go =>
        let x := s.readRing (cfg e) k n
        some (p.afterCall e k x.2
          (if x.1 = [] then .checking (.loop ⟨.read n, sawDone, again⟩) else .unlocking) x.1 none)
    | .writing l b, .accept n fails =>
        if b.length < n then none
        else if n = 0 then some (p.afterCall e k s .unlocking [] none)
        else
          some (p.afterCall e k (s.advance (cfg e) k n)
            (if fails ∨ n < b.length then .unlocking else .scanning l []) (b.take n) none)
    | .draining, .go => some (p.afterCall e k (s.drainRing (cfg e) k) .idle [] none)
    | r, o =>
        (r.step (s.view k) o).map fun t =>
          p.afterCall e k
            (if t.report = some .eof then s.update k fun c => { c with ring := none } else s)
            t.reader t.out t.report
  else none

/-- Whether an action can happen in a session that may be closed.  A closed session only
flushes its queues, and applications read by calls. -/
def enabled (p : Peers) : Action → Bool
  | .op _ (.read _ _) => false
  | .op _ (.writeTo _ _) => false
  | .op d _ => !(p.world.sess d).closed
  | .flush d _ => !p.gone d
  | .recv d _ _ => !(p.world.sess d).closed
  | .recvDatagram d _ _ => !(p.world.sess d).closed
  | .drop _ _ => true
  | .dup _ _ => true

theorem not_reads_of_enabled {p : Peers} {d : Side} {o : Op} (henabled : p.enabled (.op d o) = true)
    (h n : Nat) :
  o ≠ .read h n ∧ o ≠ .writeTo h n
  := by
  constructor <;> rintro rfl <;> contradiction

/-- What becomes of a world by an action by which a session hears the goodbye of its peer. -/
def hearsGoAway (w : World) : Action → Option World
  | .recv d i _ | .recvDatagram d i _ =>
      ((w.link d.other)[i]?).bind fun f =>
        if f.flag = .goaway then
          some ((w.setSess d { w.sess d with goAwayRecv := true }.markClosed).setLink d.other
            ((w.link d.other).eraseIdx i))
        else none
  | _ => none

/-- What becomes of two sessions by an event, if it can happen. -/
def step (cfg : Side → SessionConfig) (p : Peers) : Event → Option Peers
  | .act a =>
      if p.enabled a then
        match hearsGoAway p.world a with
        | some w => some { p with world := w }
        | none => (p.world.step cfg a).map fun w => { p with world := w }
      else none
  | .call e k o => p.call cfg e k o
  | .close d =>
      if (p.world.sess d).closed then none
      else some { p with world := p.world.setSess d (p.world.sess d).markClosed }
  | .endChannels d =>
      if (p.world.sess d).closed then
        some { p with world := p.world.setSess d ((p.world.sess d).endChannels (cfg d)) }
      else none
  | .goAway d =>
      if (p.world.sess d).closed ∧ (p.world.sess d).goAwayRecv = false ∧ p.gone d = false then
        some { p with
          world := p.world.setLink d
            (p.world.link d ++ [({ flag := .goaway } : WriteFrame).packet])
          gone := Function.update p.gone d true }
      else none

/-! ### A step of a reader -/

/-- What a step of a reader does: it takes what a `Read` wants or what a writer has accepted,
it drains the ring, or it goes on in its loop. -/
theorem call_cases {cfg : Side → SessionConfig} {e : Side} {k : Nat} {o : Choice} {p p' : Peers}
    (hcall : p.call cfg e k o = some p') :
  k < (p.world.sess e).next
    ∧ ((∃ n sawDone again acc, p.reader e k = .scanning ⟨.read n, sawDone, again⟩ acc
        ∧ p' = p.afterCall e k ((p.world.sess e).readRing (cfg e) k n).2
          (if ((p.world.sess e).readRing (cfg e) k n).1 = [] then
            .checking (.loop ⟨.read n, sawDone, again⟩) else .unlocking)
          ((p.world.sess e).readRing (cfg e) k n).1 none)
      ∨ (∃ l b n fails, p.reader e k = .writing l b ∧ 0 < n ∧ n ≤ b.length
        ∧ p' = p.afterCall e k ((p.world.sess e).advance (cfg e) k n)
          (if fails = true ∨ n < b.length then .unlocking else .scanning l []) (b.take n) none)
      ∨ (p.reader e k = .draining
        ∧ p' = p.afterCall e k ((p.world.sess e).drainRing (cfg e) k) .idle [] none)
      ∨ (∃ l b, p.reader e k = .writing l b
        ∧ p' = p.afterCall e k (p.world.sess e) .unlocking [] none)
      ∨ (∃ t, (p.reader e k).step ((p.world.sess e).view k) o = some t
        ∧ (∀ l b, p.reader e k ≠ .writing l b) ∧ p.reader e k ≠ .draining
        ∧ (∀ n sawDone again acc, p.reader e k ≠ .scanning ⟨.read n, sawDone, again⟩ acc)
        ∧ p' = p.afterCall e k
          (if t.report = some .eof then
            (p.world.sess e).update k fun c => { c with ring := none } else p.world.sess e)
          t.reader t.out t.report))
  := by
  unfold call at hcall
  dsimp only at hcall
  obtain ⟨hk, hstep⟩ := Option.ite_none_right_eq_some.mp hcall
  clear hcall
  refine ⟨hk, ?_⟩
  split at hstep
  · rename_i n sawDone again acc hreader
    cases hstep
    exact .inl ⟨n, sawDone, again, acc, hreader, rfl⟩
  · rename_i l b n fails hreader
    split at hstep
    · contradiction
    · rename_i hle
      split at hstep
      · cases hstep
        exact .inr (.inr (.inr (.inl ⟨l, b, hreader, rfl⟩)))
      · cases hstep
        exact .inr (.inl ⟨l, b, n, fails, hreader, by omega, by omega, rfl⟩)
  · rename_i hreader
    cases hstep
    exact .inr (.inr (.inl ⟨hreader, rfl⟩))
  · rename_i o _ _ hread hwrite hdrain
    obtain ⟨t, ht, rfl⟩ := Option.map_eq_some_iff.mp hstep
    refine .inr (.inr (.inr (.inr ⟨t, ht, ?_, ?_, ?_, rfl⟩)))
    · intro l b heq
      rw [heq] at ht
      cases o with
      | accept n fails => exact hwrite l b n fails heq rfl
      | _ => simp [Reader.step] at ht
    · intro heq
      rw [heq] at ht
      cases o with
      | go => exact hdrain heq rfl
      | _ => simp [Reader.step] at ht
    · intro n sawDone again acc heq
      rw [heq] at ht
      cases o with
      | go => exact hread n sawDone again acc heq rfl
      | _ => simp [Reader.step] at ht

end Peers

end Muxocket
