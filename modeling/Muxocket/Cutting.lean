import Mathlib.Logic.Function.Basic
import Muxocket.Lib.Chunks
import Muxocket.Lib.Run
import Muxocket.WriteCalls

/-!
# How a stream is cut into frames

Any number of calls of `Write` and `ReadFrom` work on one channel of an open session.  A call
takes the write lock, acquires credit for as much as it may, puts that many bytes into a buffer,
takes the offset of the frame and queues it, and goes on until it has sent what it has.  `Write`
holds the lock for all of its bytes.  `ReadFrom` takes it for what one read of its source gives;
it hands over the buffer it has read into when it can, and copies from it otherwise.

Buffers are modelled by name, with their contents: a frame refers to a buffer, and what it
carries is what the buffer holds when the frame is written to the transport.
-/

namespace Muxocket

namespace Cutting

/-- Why a call ends early. -/
inductive Failure where
  | closed
  | credit
  | source
deriving DecidableEq, Repr

/-- What a call sends, with the name of the buffer of a `ReadFrom`. -/
abbrev Job := WriteJob Nat

/-- A frame with data, and the call it is from. -/
structure Queued where
  call : Nat
  offset : Nat
  pBuf : Nat
  length : Nat
deriving DecidableEq, Repr

/-- Where a call is.

* `entering`, `entered`: about to load `closed`, and then `writeClosed`;
* `fetching`: at the head of the loop of `ReadFrom`, with its spare buffer;
* `reading`: waits for its source to fill a buffer;
* `locking`: about to lock `writeMu`;
* `checking`: about to look whether the channel has been closed meanwhile;
* `sending`: at the head of the loop that sends, with the number of bytes sent, and whether the
  buffer of a `ReadFrom` is still its own;
* `granted`: has acquired credit for `sz` bytes;
* `queueing`: has taken the offset of a frame, and is about to queue it;
* `unlocking`: about to unlock `writeMu`;
* `returned`: has returned a count, and an error if there was one. -/
inductive Spot where
  | idle
  | entering (call : WriteCall)
  | entered (call : WriteCall)
  | fetching (total : Nat) (spare : Option Nat)
  | reading (total buf : Nat)
  | locking (job : Job)
  | checking (job : Job)
  | sending (job : Job) (sent : Nat) (keep : Bool)
  | granted (job : Job) (sent : Nat) (keep : Bool) (sz : Nat)
  | queueing (job : Job) (sent : Nat) (keep : Bool) (q : Queued)
  | unlocking (job : Job) (sent : Nat) (keep : Bool) (err : Option Failure)
  | returned (n : Nat) (err : Option Failure)
deriving DecidableEq, Repr

/-- The channel and the calls.  `mem` are the contents of the buffers, of which `next` have been
allocated.  As history we keep what was called, and what each call has got to send: the argument
of a `Write`, and what the source of a `ReadFrom` has given so far. -/
structure State where
  closed : Bool := false
  writeClosed : Bool := false
  writeMu : Option Nat := none
  writeOffset : Nat := 0
  queued : List Queued := []
  unacked : List Queued := []
  mem : Nat → Bytes := fun _ => []
  next : Nat := 0
  spot : Nat → Spot := fun _ => .idle
  call : Nat → Option WriteCall := fun _ => none
  input : Nat → Bytes := fun _ => []

/-- What a step leaves open: how much credit is granted, if any, and what a source gives. -/
inductive Choice where
  | go
  | grant (sz : Nat)
  | refuse
  | source (content : Bytes) (n : Nat) (rerr : Option SourceError)
deriving DecidableEq, Repr

/-- What can happen: a call begins, a call takes a step, or somebody closes the channel. -/
inductive Action where
  | start (i : Nat) (c : WriteCall)
  | advance (i : Nat) (o : Choice)
  | close
  | closeWrite
deriving DecidableEq, Repr

namespace Job

/-- The bytes that are copied into a frame of `sz` bytes. -/
def slice (mem : Nat → Bytes) (sent sz : Nat) : Job → Bytes
  | .write b => (b.drop sent).take sz
  | .relay _ buf n _ => (((mem buf).take n).drop sent).take sz

/-- The buffer that becomes the payload of a frame of `sz` bytes without being copied.  With
retransmissions small reads are copied. -/
def handsOver (cfg : SessionConfig) (sent sz : Nat) : Job → Option Nat
  | .write _ => none
  | .relay _ buf n _ =>
      if sent = 0 ∧ sz = n ∧ ¬ (cfg.reliability = true ∧ n ≤ cfg.maxFrameDataSize / 2) then some buf
      else none

/-- Whether a call that has got the lock sends nothing.  `Write` looks at one flag only. -/
def refused (s : State) : Job → Bool
  | .write _ => s.writeClosed
  | .relay _ _ _ _ => s.closed || s.writeClosed

end Job

/-- Where a `ReadFrom` goes when it is done with what it has read. -/
def afterRead (total : Nat) (spare : Option Nat) : Option SourceError → Spot :=
  SourceError.after (.returned total) .source (.fetching total spare)

/-- Where a call goes when it has released the lock. -/
def Job.leave (sent : Nat) (keep : Bool) (err : Option Failure) : Job → Spot :=
  WriteJob.leave .returned (fun total buf => afterRead total (if keep then some buf else none)) sent
    err

namespace State

/-- A call goes on. -/
@[simp]
def goto (i : Nat) (p : Spot) (s : State) : State :=
  { s with spot := Function.update s.spot i p }

/-- Take an offset for a frame, and register it. -/
def take (cfg : SessionConfig) (q : Queued) (s : State) : State :=
  { s with
    writeOffset := s.writeOffset + q.length
    unacked := if cfg.reliability then s.unacked ++ [q] else s.unacked }

/-- Queue a frame. -/
def push (q : Queued) (s : State) : State :=
  { s with queued := s.queued ++ [q] }

/-- A buffer with some contents. -/
def alloc (content : Bytes) (s : State) : State :=
  { s with mem := Function.update s.mem s.next content, next := s.next + 1 }

/-- The source of a call fills its buffer, and gives the first `n` bytes of it. -/
def fill (i buf : Nat) (content : Bytes) (n : Nat) (s : State) : State :=
  { s with
    mem := Function.update s.mem buf content
    input := Function.update s.input i (s.input i ++ content.take n) }

/-- A call begins. -/
def start (i : Nat) (c : WriteCall) (s : State) : State :=
  match c with
  | .write b =>
      { s with
        call := Function.update s.call i (some c)
        input := Function.update s.input i b }.goto i
          (if b = [] then .returned 0 none else .entering c)
  | .readFrom => { s with call := Function.update s.call i (some c) }.goto i (.entering c)

/-- A step of a call, which is somewhere. -/
def advance (cfg : SessionConfig) (i : Nat) (s : State) : Spot → Choice → Option State
  | .entering c, .go =>
      some (s.goto i (if s.closed then .returned 0 (some .closed) else .entered c))
  | .entered c, .go =>
      some (s.goto i
        (if s.writeClosed then .returned 0 (some .closed)
        else
          match c with
          | .write b => .locking (.write b)
          | .readFrom => .fetching 0 none))
  | .fetching total (some buf), .go => some (s.goto i (.reading total buf))
  | .fetching total none, .go => some ((s.alloc []).goto i (.reading total s.next))
  | .reading total buf, .source content n rerr =>
      if content.length = cfg.maxFrameDataSize ∧ n ≤ cfg.maxFrameDataSize then
        some ((s.fill i buf content n).goto i
          (if 0 < n then .locking (.relay total buf n rerr) else afterRead total (some buf) rerr))
      else none
  | .locking job, .go =>
      if s.writeMu = none then some ({ s with writeMu := some i }.goto i (.checking job)) else none
  | .checking job, .go =>
      some (s.goto i
        (if job.refused s then .unlocking job 0 true (some .closed) else .sending job 0 true))
  | .sending job sent keep, .go =>
      if sent < job.size then none else some (s.goto i (.unlocking job sent keep none))
  | .sending job sent keep, .grant sz =>
      if sent < job.size ∧ 1 ≤ sz ∧ sz ≤ job.desired cfg sent then
        some (s.goto i (.granted job sent keep sz))
      else none
  | .sending job sent keep, .refuse =>
      if sent < job.size then some (s.goto i (.unlocking job sent keep (some .credit))) else none
  | .granted job sent keep sz, .go =>
      match job.handsOver cfg sent sz with
      | some buf =>
          let q : Queued := ⟨i, s.writeOffset, buf, sz⟩
          some ((s.take cfg q).goto i (.queueing job sent false q))
      | none =>
          let q : Queued := ⟨i, s.writeOffset, s.next, sz⟩
          some (((s.alloc (job.slice s.mem sent sz)).take cfg q).goto i (.queueing job sent keep q))
  | .queueing job sent keep q, .go =>
      some ((s.push q).goto i (.sending job (sent + q.length) keep))
  | .unlocking job sent keep err, .go =>
      some ({ s with writeMu := none }.goto i (job.leave sent keep err))
  | _, _ => none

/-- What becomes of a channel by an action, if it can happen. -/
def step (cfg : SessionConfig) (s : State) : Action → Option State
  | .start i c => if s.spot i = .idle then some (s.start i c) else none
  | .advance i o => s.advance cfg i (s.spot i) o
  | .close => some { s with closed := true }
  | .closeWrite => some { s with writeClosed := true }

/-! ### What has been queued -/

/-- What a frame carries. -/
def payload (s : State) (q : Queued) : Bytes :=
  (s.mem q.pBuf).take q.length

/-- The frames a call has queued. -/
def framesOf (s : State) (i : Nat) : List Queued :=
  s.queued.filter fun q => q.call = i

/-- The bytes a call has queued. -/
def accepted (s : State) (i : Nat) : Bytes :=
  ((s.framesOf i).map s.payload).flatten

end State

/-- The frame a call is about to queue. -/
def Spot.hand : Spot → List Queued
  | .queueing _ _ _ q => [q]
  | _ => []

namespace State

/-- The frame that has got its offset and is not queued yet, if there is one. -/
def hand (s : State) : List Queued :=
  match s.writeMu with
  | some i => (s.spot i).hand
  | none => []

/-- The frames that have got an offset. -/
def taken (s : State) : List Queued :=
  s.queued ++ s.hand

end State

/-! ### What the calls keep -/

/-- The buffer a job may still write to. -/
def Job.buffer (keep : Bool) : Job → Option Nat
  | .write _ => none
  | .relay _ buf _ _ => if keep then some buf else none

namespace Spot

/-- Whether a call holds the write lock. -/
def inside : Spot → Bool
  | .checking _ | .sending _ _ _ | .granted _ _ _ _ | .queueing _ _ _ _ | .unlocking _ _ _ _ => true
  | _ => false

/-- The number of bytes a call counts as sent. -/
def count : Spot → Nat
  | .fetching total _ | .reading total _ => total
  | .locking job | .checking job => job.base
  | .sending job sent _ | .granted job sent _ _ | .queueing job sent _ _
  | .unlocking job sent _ _ => job.base + sent
  | .returned n _ => n
  | _ => 0

/-- The buffer a call may still write to. -/
def buffer : Spot → Option Nat
  | .fetching _ spare => spare
  | .reading _ buf => some buf
  | .locking job | .checking job => job.buffer true
  | .sending job _ keep | .granted job _ keep _ | .queueing job _ keep _
  | .unlocking job _ keep _ => job.buffer keep
  | _ => none

end Spot

/-- What a job has to do with its call: the bytes of a `Write` are what it has to send, and the
buffer of a `ReadFrom` holds the last of what its source has given. -/
def Job.Fits (cfg : SessionConfig) (mem : Nat → Bytes) (c : Option WriteCall) (input : Bytes)
    (keep : Bool) : Job → Prop
  | .write b => c = some (.write b) ∧ input = b
  | .relay total buf n _ =>
      c = some .readFrom ∧ n ≤ cfg.maxFrameDataSize ∧ input.length = total + n
        ∧ (keep = true → (mem buf).take n = input.drop total)

variable {cfg : SessionConfig} {mem : Nat → Bytes} {c : Option WriteCall} {input : Bytes}
  {keep : Bool}
  {job : Job} {i : Nat}

theorem Job.Fits.length_input (hjob : job.Fits cfg mem c input keep) :
  input.length = job.base + job.size
  := by
  cases job with
  | write b => simp [hjob.2, WriteJob.base, WriteJob.size]
  | relay total buf n rerr => exact hjob.2.2.1

/-- No more is asked for than there is, and no more than fits a frame. -/
theorem Job.Fits.desired_le (hjob : job.Fits cfg mem c input keep) (sent : Nat) :
  job.desired cfg sent ≤ job.size - sent ∧ job.desired cfg sent ≤ cfg.maxFrameDataSize
  := by
  cases job with
  | write b => exact ⟨min_le_left _ _, min_le_right _ _⟩
  | relay total buf n rerr =>
      refine ⟨le_rfl, ?_⟩
      have := hjob.2.1
      simp only [WriteJob.desired]
      omega

/-- What is copied into a frame are the next bytes of the call. -/
theorem Job.Fits.slice_eq (hjob : job.Fits cfg mem c input true) (sent sz : Nat) :
  job.slice mem sent sz = (input.drop (job.base + sent)).take sz
  := by
  cases job with
  | write b => simp [slice, WriteJob.base, hjob.2]
  | relay total buf n rerr =>
      rw [slice, hjob.2.2.2 rfl, List.drop_drop]
      rfl

/-- What is known of a job that gives its buffer away. -/
theorem Job.Fits.of_keep {keep' : Bool} (hjob : job.Fits cfg mem c input keep)
    (hkeep : keep' = true → keep = true) :
  job.Fits cfg mem c input keep'
  := by
  cases job with
  | write b => exact hjob
  | relay total buf n rerr =>
      exact ⟨hjob.1, hjob.2.1, hjob.2.2.1, fun h => hjob.2.2.2 (hkeep h)⟩

/-- What a call has to send when it begins. -/
def bytes : WriteCall → Bytes
  | .write b => b
  | .readFrom => []

/-- What is known of a call by where it is. -/
def Spot.Fits (cfg : SessionConfig) (mem : Nat → Bytes) (i : Nat) (c : Option WriteCall)
    (input : Bytes) : Spot → Prop
  | .idle => c = none ∧ input = []
  | .entering call | .entered call => c = some call ∧ input = bytes call
  | .fetching total _ | .reading total _ => c = some .readFrom ∧ input.length = total
  | .locking job | .checking job => job.Fits cfg mem c input true
  | .sending job sent keep =>
      job.Fits cfg mem c input keep ∧ sent ≤ job.size ∧ (keep = false → sent = job.size)
  | .granted job sent keep sz =>
      job.Fits cfg mem c input keep ∧ keep = true ∧ sent < job.size ∧ 1 ≤ sz
        ∧ sz ≤ job.desired cfg sent
  | .queueing job sent keep q =>
      job.Fits cfg mem c input keep ∧ sent + q.length ≤ job.size
        ∧ (keep = false → sent + q.length = job.size) ∧ q.call = i
        ∧ (mem q.pBuf).take q.length = (input.drop (job.base + sent)).take q.length
  | .unlocking job sent keep err =>
      job.Fits cfg mem c input keep ∧ sent ≤ job.size ∧ (err = none → sent = job.size)
  | .returned n _ => c ≠ none ∧ n ≤ input.length ∧ ∀ b, c = some (.write b) → input = b

/-- What a `Write` has to send is its argument. -/
theorem Spot.Fits.input_eq {b : Bytes} {p : Spot} (hp : p.Fits cfg mem i (some (.write b)) input) :
  input = b
  := by
  have hjob : ∀ {job : Job} {keep : Bool}, job.Fits cfg mem (some (.write b)) input keep →
      input = b := by
    intro job keep hfits
    cases job with
    | write b' =>
        obtain ⟨hsame, rfl⟩ := hfits
        simpa using hsame.symm
    | relay total buf n rerr => simp [Job.Fits] at hfits
  cases p with
  | idle | fetching total spare | reading total buf => simp [Fits] at hp
  | entering call | entered call =>
      obtain ⟨hsame, rfl⟩ := hp
      cases hsame
      rfl
  | locking job | checking job => exact hjob hp
  | returned n err => exact hp.2.2 b rfl
  | _ => exact hjob hp.1

/-- What is known of a call depends on the buffers it refers to only. -/
theorem Spot.Fits.congr {mem' : Nat → Bytes} {p : Spot} (hp : p.Fits cfg mem i c input)
    (hbuffer : ∀ b, p.buffer = some b → mem' b = mem b)
    (hhand : ∀ q ∈ p.hand, mem' q.pBuf = mem q.pBuf) :
  p.Fits cfg mem' i c input
  := by
  have hjob : ∀ {job : Job} {keep : Bool}, job.Fits cfg mem c input keep →
      (∀ b, job.buffer keep = some b → mem' b = mem b) → job.Fits cfg mem' c input keep := by
    intro job keep hfits hsame
    cases job with
    | write b => exact hfits
    | relay total buf n rerr =>
        refine ⟨hfits.1, hfits.2.1, hfits.2.2.1, ?_⟩
        intro hkeep
        rw [hsame buf (by simp [Job.buffer, hkeep])]
        exact hfits.2.2.2 hkeep
  cases p with
  | locking job | checking job => exact hjob hp hbuffer
  | sending job sent keep | granted job sent keep sz | unlocking job sent keep err =>
      exact ⟨hjob hp.1 hbuffer, hp.2⟩
  | queueing job sent keep q =>
      refine ⟨hjob hp.1 hbuffer, hp.2.1, hp.2.2.1, hp.2.2.2.1, ?_⟩
      rw [hhand q (List.mem_singleton_self q)]
      exact hp.2.2.2.2
  | _ => exact hp

/-- Where a call may go when it gives up the lock, having sent `count` bytes in all. -/
structure Spot.Outside (cfg : SessionConfig) (mem : Nat → Bytes) (i : Nat) (c : Option WriteCall)
    (input : Bytes) (count : Nat) (buffer : Option Nat) (p : Spot) : Prop where
  inside : p.inside = false
  hand : p.hand = []
  count : p.count = count
  buffer : ∀ b, p.buffer = some b → buffer = some b
  fits : p.Fits cfg mem i c input

theorem outside_afterRead (cfg : SessionConfig) (mem : Nat → Bytes) (i : Nat) {total : Nat}
    (hc : c = some .readFrom) (hinput : input.length = total) (spare : Option Nat)
    (rerr : Option SourceError) :
  (afterRead total spare rerr).Outside cfg mem i c input total spare
  := by
  have hreturned : ∀ err, (Spot.returned total err).Outside cfg mem i c input total spare := by
    intro err
    exact ⟨rfl, rfl, rfl, nofun, by simp [hc], hinput.ge, by simp [hc]⟩
  match rerr with
  | some .eof => exact hreturned none
  | some .failure => exact hreturned (some .source)
  | none => exact ⟨rfl, rfl, rfl, fun _ h => h, hc, hinput⟩

theorem Job.Fits.outside_leave (hjob : job.Fits cfg mem c input keep) {sent : Nat}
    {err : Option Failure} (hle : sent ≤ job.size) (hdone : err = none → sent = job.size) :
  (job.leave sent keep err).Outside cfg mem i c input (job.base + sent) (job.buffer keep)
  := by
  have hinput := hjob.length_input
  cases job with
  | write b =>
      obtain ⟨rfl, rfl⟩ := hjob
      exact ⟨rfl, rfl, (Nat.zero_add _).symm, nofun, by simp, hle, by simp⟩
  | relay total buf n rerr =>
      simp only [WriteJob.size, WriteJob.base] at hle hdone hinput
      cases err with
      | some e =>
          exact ⟨rfl, rfl, rfl, nofun, by simp [hjob.1], by omega, by simp [hjob.1]⟩
      | none =>
          obtain rfl := hdone rfl
          apply outside_afterRead cfg mem i hjob.1 hinput

end Cutting

end Muxocket
