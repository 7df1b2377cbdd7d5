import Muxocket.Frame

/-!
# The loops of Read and WriteTo

Both calls look into the ring of the channel again and again until they find something.  In
between they load the flags that the channel and its session have, one after the other, and
whatever else the session does may happen between two of these loads.  The model has a step
for every load and for every access to the ring.

A buffer in the ring is never empty, since a frame of data without bytes is not fed to a
channel.
-/

namespace Muxocket.ReadLoop

/-- What the readers of a channel share with the rest of the session.  The ring is `none` when
it is closed, and `readMu` is set while somebody holds the lock of the consumer. -/
structure Shared where
  ring : Option (List Bytes) := some []
  readMu : Bool := false
  closed : Bool := false
  sessionClosed : Bool := false
  drainable : Bool := false
  readDone : Bool := false
deriving DecidableEq, Repr

/-- The buffers in the ring, the oldest first. -/
def Shared.buffers (v : Shared) : List Bytes :=
  v.ring.getD []

/-- What is in the buffers of a ring after `n` bytes of its oldest buffer have been taken. -/
def dropFront (n : Nat) : List Bytes → List Bytes
  | [] => []
  | b :: bufs => if n < b.length then b.drop n :: bufs else bufs

/-- A call of the application: `Read` into `n` bytes, or `WriteTo`. -/
inductive Call where
  | read (n : Nat)
  | writeTo
deriving DecidableEq, Repr

/-- What a call reports that brings no data. -/
inductive Report where
  | closedPipe
  | eof
deriving DecidableEq, Repr

/-- A pass of the loop of a call.  The call may have seen before that the stream has ended,
and it may look for the second time, after it has announced that it is going to wait. -/
structure Pass where
  call : Call
  sawDone : Bool
  again : Bool
deriving DecidableEq, Repr

/-- A place where a call asks whether reading has been aborted: before it takes the lock, in
its loop, and after it has released the lock. -/
inductive Spot where
  | entry (c : Call)
  | loop (l : Pass)
  | leave
deriving DecidableEq, Repr

/-- Where the reader of a channel is.

* `checking`: about to load `closed`, and then the flag of the session;
* `probing`: has seen that the session is closed, about to load `drainable`;
* `locking`: about to lock `readMu`;
* `scanning`: about to look into the ring, with what a `Read` has found so far;
* `writing`: about to hand the oldest buffer to the writer;
* `crediting`: about to return the credit for what has been taken, and then to leave or not;
* `ending`: about to load `readDone`;
* `parked`: waiting to be woken;
* `unlocking`: about to release `readMu`;
* `draining`: about to discard what is in the ring, unless `readMu` is held. -/
inductive Reader where
  | idle
  | checking (k : Spot)
  | probing (k : Spot)
  | locking (c : Call)
  | scanning (l : Pass) (acc : Bytes)
  | writing (l : Pass) (b : Bytes)
  | crediting (l : Pass) (p : Bytes) (leaves : Bool)
  | ending (l : Pass)
  | parked (l : Pass)
  | unlocking
  | draining
deriving DecidableEq, Repr

/-- What a step of the reader leaves open: the call that begins, and what the writer of a
`WriteTo` accepts. -/
inductive Choice where
  | go
  | start (c : Call)
  | accept (n : Nat) (fails : Bool)
  | abandon
deriving DecidableEq, Repr

/-- What a step of the reader gives. -/
structure Turn where
  shared : Shared
  reader : Reader
  out : Bytes := []
  report : Option Report := none

/-- Reading has not been aborted. -/
def Spot.pass (v : Shared) : Spot → Turn
  | .entry c => { shared := v, reader := .locking c }
  | .loop l => { shared := v, reader := .ending l }
  | .leave => { shared := v, reader := .idle }

/-- Reading has been aborted. -/
def Spot.abort (v : Shared) : Spot → Turn
  | .entry _ => { shared := v, reader := .idle, report := some .closedPipe }
  | .loop _ => { shared := v, reader := .unlocking, report := some .closedPipe }
  | .leave => { shared := v, reader := .draining }

/-- Look into the ring: `PartialRead` into what is left of the buffer of a `Read` that has
found `acc`, or `Peek`. -/
def Pass.scan (v : Shared) (l : Pass) (acc : Bytes) : Turn :=
  match l.call, v.buffers with
  | .read _, [] =>
      if acc = [] then { shared := v, reader := .checking (.loop l) }
      else { shared := v, reader := .crediting l acc true }
  | .read n, b :: _ =>
      if n ≤ acc.length then { shared := v, reader := .crediting l acc true }
      else
        { shared := { v with ring := some (dropFront (n - acc.length) v.buffers) }
          reader := .scanning l (acc ++ b.take (n - acc.length)) }
  | .writeTo, [] => { shared := v, reader := .checking (.loop l) }
  | .writeTo, b :: _ =>
      if l.again then { shared := v, reader := .scanning { l with again := false } [] }
      else { shared := v, reader := .writing l b }

/-- The writer has accepted `n` bytes of the buffer `b`. -/
def Pass.accept (v : Shared) (l : Pass) (b : Bytes) (n : Nat) (fails : Bool) : Turn :=
  if n = 0 then { shared := v, reader := .unlocking }
  else
    { shared := { v with ring := some (dropFront n v.buffers) }
      reader := .crediting l (b.take n) (fails || decide (n < b.length))
      out := b.take n }

/-- Load `readDone` after the ring has been found empty. -/
def Pass.finish (v : Shared) (l : Pass) : Turn :=
  if v.readDone then
    if l.call = .writeTo ∧ l.again = true then
      { shared := v, reader := .scanning { l with again := false } [] }
    else if l.sawDone then
      { shared := { v with ring := none }, reader := .unlocking, report := some .eof }
    else { shared := v, reader := .scanning { l with sawDone := true, again := false } [] }
  else if l.again then { shared := v, reader := .parked l }
  else { shared := v, reader := .scanning { l with again := true } [] }

/-- A step of the reader of a channel. -/
def Reader.step (v : Shared) : Reader → Choice → Option Turn
  | .idle, .start c =>
      some { shared := v, reader := if c = .read 0 then .idle else .checking (.entry c) }
  | .checking k, .go =>
      some (if v.closed then k.abort v
        else if v.sessionClosed then { shared := v, reader := .probing k } else k.pass v)
  | .probing k, .go => some (if v.drainable then k.pass v else k.abort v)
  | .locking c, .go =>
      if v.readMu then none
      else some { shared := { v with readMu := true }, reader := .scanning ⟨c, false, false⟩ [] }
  | .scanning l acc, .go => some (l.scan v acc)
  | .writing l b, .accept n fails => if n ≤ b.length then some (l.accept v b n fails) else none
  | .crediting l p leaves, .go =>
      some { shared := v
             reader := if leaves then .unlocking else .scanning l []
             out := if l.call = .writeTo then [] else p }
  | .ending l, .go => some (l.finish v)
  | .parked l, .go => some { shared := v, reader := .scanning { l with again := false } [] }
  | .parked _, .abandon =>
      if v.closed then some { shared := v, reader := .unlocking, report := some .closedPipe }
      else none
  | .unlocking, .go =>
      some { shared := { v with readMu := false }, reader := .checking .leave }
  | .draining, .go =>
      some { shared := if v.readMu then v else { v with ring := none }, reader := .idle }
  | _, _ => none

/-- The bytes that a call has taken from the ring and not yet handed to the application. -/
def Reader.pending : Reader → Bytes
  | .scanning _ acc => acc
  | .crediting l p _ => if l.call = .writeTo then [] else p
  | _ => []

/-- Whether a reader has seen that the session is closed, and is about to look whether the
ring is drainable. -/
def Reader.probes : Reader → Bool
  | .probing _ => true
  | _ => false

/-! ### What a reader knows -/

/-- What a reader that does not find reading aborted knows of the ring and of the end of the
stream: the buffer it hands to the writer is the oldest one, and a call that has seen the end
of the stream before and now has found the ring empty finds it empty still. -/
def Reader.Fits (v : Shared) : Reader → Prop
  | .scanning l acc =>
      (l.call = .writeTo → acc = []) ∧ (l.sawDone = true → v.readDone = true)
  | .writing l b =>
      l.call = .writeTo ∧ (l.sawDone = true → v.readDone = true) ∧ ∃ bufs, v.buffers = b :: bufs
  | .crediting l _ _ => l.sawDone = true → v.readDone = true
  | .checking (.loop l) => l.sawDone = true → v.readDone = true ∧ v.buffers = []
  | .probing (.loop l) => l.sawDone = true → v.readDone = true ∧ v.buffers = []
  | .ending l => l.sawDone = true → v.readDone = true ∧ v.buffers = []
  | .parked l => l.sawDone = true → v.readDone = true
  | .draining => False
  | _ => True

/-- The flags are as they were. -/
structure Shared.SameFlags (v v' : Shared) : Prop where
  closed : v'.closed = v.closed
  sessionClosed : v'.sessionClosed = v.sessionClosed
  drainable : v'.drainable = v.drainable
  readDone : v'.readDone = v.readDone

/-- A step that loses nothing: the bytes it takes from the ring are its first ones, and they
come after those that had been taken and not handed out.  Only the end of the stream is
reported, when nothing is left. -/
structure Turn.Sound (v : Shared) (r : Reader) (t : Turn) : Prop where
  flags : v.SameFlags t.shared
  fits : t.reader.Fits t.shared
  kept : ∃ p, t.out ++ t.reader.pending = r.pending ++ p
    ∧ v.buffers.flatten = p ++ t.shared.buffers.flatten
  report : t.report = none
    ∨ t.report = some .eof ∧ v.readDone = true ∧ v.buffers = [] ∧ r.pending = []

/-- Taking bytes of the oldest buffer takes the first bytes of the ring. -/
theorem take_dropFront (n : Nat) (b : Bytes) (bufs : List Bytes) :
  b.take n ++ (dropFront n (b :: bufs)).flatten = b ++ bufs.flatten
  := by
  by_cases hn : n < b.length
  · rw [dropFront, if_pos hn, List.flatten_cons, ← List.append_assoc, List.take_append_drop]
  · rw [dropFront, if_neg hn, List.take_of_length_le (by omega)]

variable {v : Shared} {r : Reader} {l : Pass}

/-- A reader that only goes elsewhere. -/
theorem Turn.Sound.goTo {r' : Reader} (hfits : r'.Fits v) (hpending : r'.pending = r.pending) :
  Turn.Sound v r { shared := v, reader := r' }
  := by
  constructor
  · exact ⟨rfl, rfl, rfl, rfl⟩
  · exact hfits
  · exact ⟨[], by simp [hpending], rfl⟩
  · exact Or.inl rfl

theorem Pass.scan_sound {acc : Bytes} (hfits : (Reader.scanning l acc).Fits v) :
  (l.scan v acc).Sound v (.scanning l acc)
  := by
  obtain ⟨hacc, hsaw⟩ := hfits
  unfold Pass.scan
  split
  · rename_i hcall hbufs
    split
    · rename_i hnil
      exact Turn.Sound.goTo (fun h => ⟨hsaw h, hbufs⟩) hnil.symm
    · exact Turn.Sound.goTo hsaw (by simp [Reader.pending, hcall])
  · rename_i n b bufs hcall hbufs
    split
    · exact Turn.Sound.goTo hsaw (by simp [Reader.pending, hcall])
    · constructor
      · exact ⟨rfl, rfl, rfl, rfl⟩
      · exact ⟨fun h => by simp [hcall] at h, hsaw⟩
      · use b.take (n - acc.length), rfl
        rw [hbufs, List.flatten_cons, ← take_dropFront (n - acc.length) b bufs]
        rfl
      · exact Or.inl rfl
  · rename_i hcall hbufs
    exact Turn.Sound.goTo (fun h => ⟨hsaw h, hbufs⟩) (hacc hcall).symm
  · rename_i b bufs hcall hbufs
    split
    · exact Turn.Sound.goTo ⟨fun _ => rfl, hsaw⟩ (hacc hcall).symm
    · exact Turn.Sound.goTo ⟨hcall, hsaw, bufs, hbufs⟩ (hacc hcall).symm

theorem Pass.accept_sound {b : Bytes} (n : Nat) (fails : Bool)
    (hfits : (Reader.writing l b).Fits v) :
  (l.accept v b n fails).Sound v (.writing l b)
  := by
  obtain ⟨hcall, hsaw, bufs, hbufs⟩ := hfits
  unfold Pass.accept
  split
  · exact Turn.Sound.goTo trivial rfl
  · constructor
    · exact ⟨rfl, rfl, rfl, rfl⟩
    · exact hsaw
    · use b.take n, by simp [Reader.pending, hcall]
      rw [hbufs, List.flatten_cons, ← take_dropFront n b bufs]
      rfl
    · exact Or.inl rfl

theorem Pass.finish_sound (hfits : (Reader.ending l).Fits v) :
  (l.finish v).Sound v (.ending l)
  := by
  unfold Pass.finish
  split
  · rename_i hdone
    split
    · exact Turn.Sound.goTo ⟨fun _ => rfl, fun _ => hdone⟩ rfl
    · split
      · rename_i hsaw
        obtain ⟨_, hbufs⟩ := hfits hsaw
        constructor
        · exact ⟨rfl, rfl, rfl, rfl⟩
        · trivial
        · exact ⟨[], rfl, by rw [hbufs]; rfl⟩
        · exact Or.inr ⟨rfl, hdone, hbufs, rfl⟩
      · exact Turn.Sound.goTo ⟨fun _ => rfl, fun _ => hdone⟩ rfl
  · split
    · exact Turn.Sound.goTo (fun h => (hfits h).1) rfl
    · exact Turn.Sound.goTo ⟨fun _ => rfl, fun h => (hfits h).1⟩ rfl

theorem Spot.pass_sound {k : Spot} (hr : r = .checking k ∨ r = .probing k) (hfits : r.Fits v) :
  (k.pass v).Sound v r
  := by
  cases k with
  | entry c | leave => obtain rfl | rfl := hr <;> exact Turn.Sound.goTo trivial rfl
  | loop l => obtain rfl | rfl := hr <;> exact Turn.Sound.goTo hfits rfl

/-- A step of a reader loses nothing, if the channel has not been closed, and if a reader that
has seen the session closed finds what is in the ring drainable. -/
theorem Reader.step_sound {o : Choice} {t : Turn} (hclosed : v.closed = false)
    (hprobe : r.probes = true → v.drainable = true) (hfits : r.Fits v)
    (hstep : r.step v o = some t) :
  t.Sound v r
  := by
  unfold Reader.step at hstep
  split at hstep
  · cases hstep
    split
    · exact Turn.Sound.goTo trivial rfl
    · exact Turn.Sound.goTo trivial rfl
  · rename_i k
    cases hstep
    rw [if_neg (by simp [hclosed])]
    split
    · cases k <;> exact Turn.Sound.goTo hfits rfl
    · exact Spot.pass_sound (Or.inl rfl) hfits
  · rename_i k
    cases hstep
    rw [if_pos (hprobe rfl)]
    exact Spot.pass_sound (Or.inr rfl) hfits
  · split at hstep
    · contradiction
    · cases hstep
      constructor
      · exact ⟨rfl, rfl, rfl, rfl⟩
      · exact ⟨fun _ => rfl, fun h => by contradiction⟩
      · exact ⟨[], rfl, rfl⟩
      · exact Or.inl rfl
  · cases hstep
    exact Pass.scan_sound hfits
  · split at hstep
    · cases hstep
      exact Pass.accept_sound _ _ hfits
    · contradiction
  · rename_i l p leaves
    cases hstep
    constructor
    · exact ⟨rfl, rfl, rfl, rfl⟩
    · split
      · trivial
      · exact ⟨fun _ => rfl, hfits⟩
    · exact ⟨[], by cases leaves <;> simp [Reader.pending], rfl⟩
    · exact Or.inl rfl
  · cases hstep
    exact Pass.finish_sound hfits
  · cases hstep
    exact Turn.Sound.goTo ⟨fun _ => rfl, hfits⟩ rfl
  · simp [hclosed] at hstep
  · cases hstep
    constructor
    · exact ⟨rfl, rfl, rfl, rfl⟩
    · trivial
    · exact ⟨[], rfl, rfl⟩
    · exact Or.inl rfl
  · exact hfits.elim
  · contradiction

/-- What a reader knows stays true while the stream goes on, and after its end while nothing
is put into the ring. -/
theorem Reader.Fits.extend {v' : Shared} (hfits : r.Fits v)
    (hdone : v.readDone = true → v'.readDone = true) {more : List Bytes}
    (hbufs : v'.buffers = v.buffers ++ more) (hmore : v.readDone = true → more = []) :
  r.Fits v'
  := by
  have hempty : v.readDone = true ∧ v.buffers = [] → v'.readDone = true ∧ v'.buffers = [] := by
    rintro ⟨hd, hb⟩
    rw [hbufs, hb, hmore hd]
    exact ⟨hdone hd, rfl⟩
  match r, hfits with
  | .idle, _ => trivial
  | .checking (.entry _), _ => trivial
  | .checking (.loop _), h => exact fun hsaw => hempty (h hsaw)
  | .checking .leave, _ => trivial
  | .probing (.entry _), _ => trivial
  | .probing (.loop _), h => exact fun hsaw => hempty (h hsaw)
  | .probing .leave, _ => trivial
  | .locking _, _ => trivial
  | .scanning _ _, ⟨hacc, h⟩ => exact ⟨hacc, fun hsaw => hdone (h hsaw)⟩
  | .writing _ _, ⟨hcall, h, bufs, hb⟩ =>
      exact ⟨hcall, fun hsaw => hdone (h hsaw), bufs ++ more, by rw [hbufs, hb]; rfl⟩
  | .crediting _ _ _, h => exact fun hsaw => hdone (h hsaw)
  | .ending _, h => exact fun hsaw => hempty (h hsaw)
  | .parked _, h => exact fun hsaw => hdone (h hsaw)
  | .unlocking, _ => trivial

end Muxocket.ReadLoop
