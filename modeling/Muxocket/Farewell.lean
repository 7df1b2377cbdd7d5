import Muxocket.Lib.Run
import Muxocket.ReadLoop

/-!
# A reader while the peer says goodbye

When a session receives the frame by which its peer says goodbye it closes itself, and every
channel is left such that the application can still read what is in its ring.  This takes
several steps: that the peer is gone is recorded, the session is marked as closed, and then
each channel in turn gets its marks.  A reader of the channel may run at any time.

The model is of one channel, which the application does not close, and of its reader.
-/

namespace Muxocket.Farewell

open ReadLoop

/-- Where the goroutine is that reads the frames of the session.

* `reading`: between two frames;
* `ending`: the frame that ends the stream of the channel has made what is in the ring
  drainable;
* `goAway`: has recorded that the peer is gone;
* `closing`: has marked the session as closed, and goes through its channels;
* `peerGone`: has made what is in the ring of this channel drainable;
* `finished`: is done with this channel. -/
inductive Closer where
  | reading
  | ending
  | goAway
  | closing
  | peerGone
  | finished
deriving DecidableEq, Repr

/-- A report of a call after the peer has said goodbye, with the bytes that were handed to the
application of those the ring held when the session heard of it, and with all these bytes. -/
structure Notice where
  report : Report
  returned : Bytes
  owed : Bytes
deriving DecidableEq, Repr

/-- A channel, its reader, and the goroutine that reads the frames of its session.  As history
we keep the bytes that were handed to the application, and how many bytes had been taken from
the ring, and what it held, when the session heard that the peer is gone. -/
structure State where
  shared : Shared := {}
  goAwayRecv : Bool := false
  done : Bool := false
  closer : Closer := .reading
  reader : Reader := .idle
  returned : Bytes := []
  taken : Nat := 0
  owed : Bytes := []
  notices : List Notice := []

/-- What happens next: a step of the reader, a frame of data or the frame that ends the stream
or the goodbye of the peer, a step of the goroutine that reads frames, or the end of the
channel. -/
inductive Action where
  | reader (o : Choice)
  | feed (p : Bytes)
  | fin
  | goAway
  | next
  | finalize

namespace State

/-- What the application is told. -/
def notify (returned : Bytes) (report : Option Report) (s : State) : List Notice :=
  match report with
  | none => s.notices
  | some report =>
      if s.goAwayRecv then
        s.notices ++ [{ report := report, returned := returned.drop s.taken, owed := s.owed }]
      else s.notices

/-- A step of the reader. -/
def read (o : Choice) (s : State) : Option State :=
  (s.reader.step s.shared o).map fun t =>
    { s with
      shared := t.shared
      reader := t.reader
      returned := s.returned ++ t.out
      notices := s.notify (s.returned ++ t.out) t.report }

/-- Put a buffer into the ring. -/
def feed (p : Bytes) (s : State) : State :=
  { s with shared := { s.shared with ring := s.shared.ring.map (· ++ [p]) } }

/-- The next step of the goroutine that reads frames: of `remoteClose`, of `Session.Close`, or
of `peerGone`. -/
def next (s : State) : Option State :=
  match s.closer with
  | .reading => none
  | .ending => some { s with shared := { s.shared with readDone := true }, closer := .reading }
  | .goAway =>
      some { s with shared := { s.shared with sessionClosed := true }, closer := .closing }
  | .closing =>
      if s.done then some { s with closer := .finished }
      else some { s with shared := { s.shared with drainable := true }, closer := .peerGone }
  | .peerGone => some { s with shared := { s.shared with readDone := true }, closer := .finished }
  | .finished => none

/-- The end of the channel: its ring is closed, unless there is something left to read. -/
def finalize (s : State) : Option State :=
  if s.done ∨ s.shared.readMu ∨ s.shared.readDone = false then none
  else if s.shared.drainable = false ∨ s.shared.buffers.length = 0 then
    some { s with shared := { s.shared with ring := none }, done := true }
  else some { s with done := true }

/-- A step of the channel. -/
def step (s : State) : Action → Option State
  | .reader o => s.read o
  | .feed p => if s.closer = .reading ∧ p ≠ [] ∧ s.done = false then some (s.feed p) else none
  | .fin =>
      if s.closer = .reading ∧ s.done = false then
        some { s with shared := { s.shared with drainable := true }, closer := .ending }
      else none
  | .goAway =>
      if s.closer = .reading then
        some { s with
          goAwayRecv := true
          closer := .goAway
          taken := (s.returned ++ s.reader.pending).length
          owed := s.shared.buffers.flatten }
      else none
  | .next => s.next
  | .finalize => s.finalize

/-- A step that does not come at a bad moment: no reader that has seen the session closed looks
whether the ring is drainable before it has been made so, and no data comes after the end of
the stream. -/
def Timely (s : State) : Action → Prop
  | .reader _ => s.reader.probes = true → s.shared.drainable = true
  | .feed _ => s.shared.readDone = false
  | _ => True

instance (s : State) (a : Action) : Decidable (s.Timely a) := by
  cases a <;> (unfold Timely; infer_instance)

/-! ### Nothing is lost -/

/-- What holds in every state if every step comes in time. -/
structure Kept (s : State) : Prop where
  closed : s.shared.closed = false
  drainable : s.shared.readDone = true → s.shared.drainable = true
  closer : s.closer = .ending ∨ s.closer = .peerGone → s.shared.drainable = true
  fits : s.reader.Fits s.shared
  goAwayRecv : s.goAwayRecv = false ↔ s.closer = .reading ∨ s.closer = .ending
  taken : s.taken ≤ (s.returned ++ s.reader.pending).length
  owed : s.goAwayRecv = true →
    (s.returned ++ s.reader.pending).drop s.taken ++ s.shared.buffers.flatten = s.owed
  notices : ∀ n ∈ s.notices, n.returned = n.owed

theorem Kept.init :
  Kept {}
  := by
  constructor <;> simp [Reader.Fits]

variable {s s' : State}

section

variable (hs : s.Kept)

include hs

/-- A report is made when everything has been returned. -/
theorem Kept.notify {t : Turn} (hsound : t.Sound s.shared s.reader) :
  ∀ n ∈ s.notify (s.returned ++ t.out) t.report, n.returned = n.owed
  := by
  unfold State.notify
  split
  · exact hs.notices
  · rename_i report hreport
    split
    · rename_i hgone
      intro n hn
      rcases List.mem_append.mp hn with hn | hn
      · exact hs.notices n hn
      · obtain rfl := List.mem_singleton.mp hn
        obtain hnone | ⟨_, _, hbufs, hpending⟩ := hsound.report
        · rw [hnone] at hreport
          contradiction
        · obtain ⟨p, htaken, hp⟩ := hsound.kept
          have howed := hs.owed hgone
          have hnil : p = [] := by
            rw [hbufs] at hp
            exact (List.append_eq_nil_iff.mp hp.symm).1
          have hout : t.out = [] := by
            rw [hpending, hnil] at htaken
            exact (List.append_eq_nil_iff.mp htaken).1
          rw [hbufs, hpending] at howed
          simpa [hout] using howed
    · exact hs.notices

theorem Kept.read {o : Choice} (hin : s.Timely (.reader o)) (hstep : s.read o = some s') :
  s'.Kept
  := by
  obtain ⟨t, ht, rfl⟩ := Option.map_eq_some_iff.mp hstep
  have hsound := Reader.step_sound hs.closed hin hs.fits ht
  obtain ⟨p, htaken, hp⟩ := hsound.kept
  have hreturned : s.returned ++ t.out ++ t.reader.pending
      = s.returned ++ s.reader.pending ++ p := by
    rw [List.append_assoc, htaken, List.append_assoc]
  constructor
  · exact hsound.flags.closed.trans hs.closed
  · intro hdone
    rw [hsound.flags.readDone] at hdone
    exact hsound.flags.drainable.trans (hs.drainable hdone)
  · intro hcloser
    exact hsound.flags.drainable.trans (hs.closer hcloser)
  · exact hsound.fits
  · exact hs.goAwayRecv
  · have htaken' := hs.taken
    dsimp only
    rw [hreturned, List.length_append]
    omega
  · intro hgone
    dsimp only
    rw [hreturned, List.drop_append_of_le_length hs.taken, List.append_assoc, ← hp]
    exact hs.owed hgone
  · exact hs.notify hsound

/-- The rest of the session changes the flags of a channel or puts something into its ring. -/
theorem Kept.change {v : Shared} {closer : Closer} {done : Bool}
    (hclosed : v.closed = s.shared.closed) (hdone : s.shared.readDone = true → v.readDone = true)
    (hready : v.readDone = true → v.drainable = true)
    (hcloser : closer = .ending ∨ closer = .peerGone → v.drainable = true)
    (hgone : s.goAwayRecv = false ↔ closer = .reading ∨ closer = .ending) {more : List Bytes}
    (hbufs : v.buffers = s.shared.buffers ++ more)
    (hmore : more ≠ [] → s.shared.readDone = false ∧ s.goAwayRecv = false) :
  Kept { s with shared := v, closer := closer, done := done }
  := by
  constructor
  · exact hclosed.trans hs.closed
  · exact hready
  · exact hcloser
  · apply hs.fits.extend hdone hbufs
    intro hd
    by_contra hne
    rw [(hmore hne).1] at hd
    contradiction
  · exact hgone
  · exact hs.taken
  · intro hg
    have hnil : more = [] := by
      by_contra hne
      rw [(hmore hne).2] at hg
      contradiction
    dsimp only
    rw [hbufs, hnil, List.append_nil]
    exact hs.owed hg
  · exact hs.notices

theorem Kept.feed (hcloser : s.closer = .reading) (hdone : s.shared.readDone = false) (p : Bytes) :
  (s.feed p).Kept
  := by
  obtain hring | ⟨bufs, hring⟩ := Option.eq_none_or_eq_some s.shared.ring
  · have hbufs : { s.shared with ring := s.shared.ring.map (· ++ [p]) }.buffers
        = s.shared.buffers ++ [] := by
      simp [Shared.buffers, hring]
    exact hs.change rfl (fun h => h) hs.drainable hs.closer hs.goAwayRecv hbufs
      (fun h => absurd rfl h)
  · have hbufs : { s.shared with ring := s.shared.ring.map (· ++ [p]) }.buffers
        = s.shared.buffers ++ [p] := by
      simp [Shared.buffers, hring]
    exact hs.change rfl (fun h => h) hs.drainable hs.closer hs.goAwayRecv hbufs
      (fun _ => ⟨hdone, hs.goAwayRecv.mpr (Or.inl hcloser)⟩)

/-- The peer says goodbye. -/
theorem Kept.goAway :
  Kept { s with
    goAwayRecv := true
    closer := .goAway
    taken := (s.returned ++ s.reader.pending).length
    owed := s.shared.buffers.flatten }
  := by
  constructor
  · exact hs.closed
  · exact hs.drainable
  · simp
  · exact hs.fits
  · simp
  · exact Nat.le_refl _
  · intro _
    dsimp only
    rw [List.drop_length, List.nil_append]
  · exact hs.notices

/-- The goroutine that reads frames changes a flag. -/
theorem Kept.next (hstep : s.next = some s') :
  s'.Kept
  := by
  have hgone := hs.goAwayRecv
  unfold State.next at hstep
  split at hstep
  · contradiction
  · rename_i hcloser
    cases hstep
    have hdrain := hs.closer (Or.inl hcloser)
    exact hs.change rfl (fun _ => rfl) (fun _ => hdrain) (fun _ => hdrain)
      (by simpa [hcloser] using hgone) (List.append_nil _).symm (fun h => absurd rfl h)
  · rename_i hcloser
    cases hstep
    exact hs.change rfl (fun h => h) hs.drainable (by simp) (by simpa [hcloser] using hgone)
      (List.append_nil _).symm (fun h => absurd rfl h)
  · rename_i hcloser
    split at hstep
    · cases hstep
      exact hs.change rfl (fun h => h) hs.drainable (by simp) (by simpa [hcloser] using hgone)
        (List.append_nil _).symm (fun h => absurd rfl h)
    · cases hstep
      exact hs.change rfl (fun h => h) (fun _ => rfl) (fun _ => rfl)
        (by simpa [hcloser] using hgone) (List.append_nil _).symm (fun h => absurd rfl h)
  · rename_i hcloser
    cases hstep
    have hdrain := hs.closer (Or.inr hcloser)
    exact hs.change rfl (fun _ => rfl) (fun _ => hdrain) (fun _ => hdrain)
      (by simpa [hcloser] using hgone) (List.append_nil _).symm (fun h => absurd rfl h)
  · contradiction

/-- The end of a channel closes only an empty ring. -/
theorem Kept.finalize (hstep : s.finalize = some s') :
  s'.Kept
  := by
  unfold State.finalize at hstep
  split at hstep
  · contradiction
  · rename_i hready
    have hdrain : s.shared.drainable = true := by
      apply hs.drainable
      by_contra hdone
      exact hready (Or.inr (Or.inr (by simpa using hdone)))
    split at hstep
    · rename_i hclose
      cases hstep
      have hbufs : s.shared.buffers = [] := by
        rcases hclose with hfalse | hlen
        · rw [hdrain] at hfalse
          contradiction
        · exact List.length_eq_zero_iff.mp hlen
      exact hs.change rfl (fun h => h) hs.drainable hs.closer hs.goAwayRecv
        (by rw [hbufs]; rfl) (fun h => absurd rfl h)
    · cases hstep
      exact hs.change rfl (fun h => h) hs.drainable hs.closer hs.goAwayRecv
        (List.append_nil _).symm (fun h => absurd rfl h)

theorem Kept.step {a : Action} (hin : s.Timely a) (hstep : s.step a = some s') :
  s'.Kept
  := by
  cases a with
  | reader o => exact hs.read hin hstep
  | feed p =>
      obtain ⟨⟨hcloser, _⟩, heq⟩ := Option.ite_none_right_eq_some.mp hstep
      cases heq
      exact hs.feed hcloser hin p
  | fin =>
      obtain ⟨⟨hcloser, _⟩, heq⟩ := Option.ite_none_right_eq_some.mp hstep
      cases heq
      have hgone := hs.goAwayRecv
      exact hs.change rfl (fun h => h) (fun _ => rfl) (fun _ => rfl)
        (by simpa [hcloser] using hgone) (List.append_nil _).symm (fun h => absurd rfl h)
  | goAway =>
      obtain ⟨_, rfl⟩ := Run.guard hstep
      exact hs.goAway
  | next => exact hs.next hstep
  | finalize => exact hs.finalize hstep

end

/-- What was in the ring of a channel when the peer said goodbye is handed to the application
before any call reports that the pipe is closed or that the stream has ended, in every run in
which no reader that has seen the session closed looks at the channel before its ring has been
made drainable, and in which no data comes after the end of the stream. -/
theorem returned_before_report {s : State} (hrun : Run step Timely {} s) :
  ∀ n ∈ s.notices, n.returned = n.owed
  :=
  (hrun.invariant (I := Kept) (fun _ _ _ hs hin hstep => hs.step hin hstep) Kept.init).notices

/-- A reader that takes one of two bytes before the goodbye and the other one after it, with
`WriteTo`, and then is told that the stream has ended. -/
theorem returned_before_report_two_calls :
  ∃ s, Run step Timely {} s ∧ s.notices = [⟨.eof, [2], [2]⟩] ∧ ∀ n ∈ s.notices, n.returned = n.owed
  := by
  obtain ⟨s, hrun, hs⟩ := Run.exists_of_exec step Timely {}
    (List.flatten [[.feed [1, 2], .reader (.start (.read 1))], List.replicate 5 (.reader .go),
      [.goAway], List.replicate 2 (.reader .go), [.next, .next, .next, .finalize],
      [.reader (.start .writeTo)], List.replicate 4 (.reader .go),
      [.reader (.accept 1 false)], List.replicate 10 (.reader .go)])
    (fun s => s.notices = [⟨.eof, [2], [2]⟩]) (by decide +kernel)
  exact ⟨s, hrun, hs, returned_before_report hrun⟩

/-- A `Read` that has got what it wanted finds the session closed and the channel not yet
drainable.  It discards what is in the ring, and the next `Read` is told that the stream has
ended. -/
theorem lost_before_drainable :
  ∃ s, Run step (fun _ _ => True) {} s ∧ s.notices = [⟨.eof, [], [2]⟩]
  := by
  apply Run.exists_of_exec step (fun _ _ => True) {}
    (List.flatten [[.feed [1, 2], .reader (.start (.read 1))], List.replicate 5 (.reader .go),
      [.goAway, .next], List.replicate 4 (.reader .go), [.next, .next, .finalize],
      [.reader (.start (.read 1))], List.replicate 11 (.reader .go)])
    (fun s => s.notices = [⟨.eof, [], [2]⟩])
  decide +kernel

end State

end Muxocket.Farewell
