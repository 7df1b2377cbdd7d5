import Mathlib.Algebra.Order.BigOperators.Group.List
import Muxocket.Lib.BigEndian
import Muxocket.Lib.Reader
import Muxocket.WriteScheduler

/-!
# Frames on the wire

A frame is written as a header of 17 bytes, followed by its payload.  On a stream transport
frames are written back to back, on a datagram transport whole frames are packed into
datagrams.  `streamReadLoop` and `datagramFrames` are the loops that read them back, with
the session they act on; they record the frames they parse.
-/

namespace Muxocket

open Session

/-! ### Headers -/

/-- The header of a frame. -/
def putHeader (f : WriteFrame) : Bytes :=
  bigEndian 4 f.length ++ ([f.flag.toByte] ++ (bigEndian 4 f.chID ++ bigEndian 8 f.offset))

/-- The bytes of a frame. -/
def encodeFrame (f : WriteFrame) : Bytes :=
  putHeader f ++ f.payload

/-- The bytes of a list of frames. -/
def encodeFrames (fs : List WriteFrame) : Bytes :=
  (fs.map encodeFrame).flatten

/-- The fields of a header. -/
structure Header where
  length : Nat
  flag : UInt8
  chID : Nat
  offset : Nat
deriving DecidableEq, Repr

/-- The fields of the header a byte string starts with. -/
def readHeader (h : Bytes) : Header where
  length := ofBigEndian (h.take 4)
  flag := (h.drop 4).headD 0
  chID := ofBigEndian ((h.drop 5).take 4)
  offset := ofBigEndian ((h.drop 9).take 8)

/-- The fields of a frame fit the widths they have in a header. -/
structure WriteFrame.Fits (f : WriteFrame) : Prop where
  length_lt : f.length < 2 ^ 32
  chID_lt : f.chID < 2 ^ 32
  offset_lt : f.offset < 2 ^ 64

@[simp]
theorem length_putHeader (f : WriteFrame) :
  (putHeader f).length = 17
  := by
  simp [putHeader]

@[simp]
theorem length_encodeFrame (f : WriteFrame) :
  (encodeFrame f).length = 17 + f.payload.length
  := by
  simp [encodeFrame]

@[simp]
theorem encodeFrames_nil :
  encodeFrames [] = []
  := rfl

@[simp]
theorem encodeFrames_cons (f : WriteFrame) (fs : List WriteFrame) :
  encodeFrames (f :: fs) = encodeFrame f ++ encodeFrames fs
  := rfl

theorem encodeFrames_append (fs gs : List WriteFrame) :
  encodeFrames (fs ++ gs) = encodeFrames fs ++ encodeFrames gs
  := by
  simp [encodeFrames]

variable {f : WriteFrame} {cfg : SessionConfig} {r : List Bytes}

/-- Reading a header gives back the fields of the frame it was written for. -/
theorem readHeader_putHeader (hf : f.Fits) (rest : Bytes) :
  readHeader (putHeader f ++ rest) = ⟨f.length, f.flag.toByte, f.chID, f.offset⟩
  := by
  have hlength : (putHeader f ++ rest).take 4 = bigEndian 4 f.length := by
    rw [putHeader, List.append_assoc, List.take_append_of_le_length (by simp)]
    simp
  have hflag : (putHeader f ++ rest).drop 4
      = f.flag.toByte :: (bigEndian 4 f.chID ++ (bigEndian 8 f.offset ++ rest)) := by
    rw [putHeader, List.append_assoc, List.drop_append_of_le_length (by simp)]
    simp
  have hchID : (putHeader f ++ rest).drop 5
      = bigEndian 4 f.chID ++ (bigEndian 8 f.offset ++ rest) := by
    rw [← List.drop_drop (i := 1) (j := 4), hflag]
    rfl
  have hoffset : (putHeader f ++ rest).drop 9 = bigEndian 8 f.offset ++ rest := by
    rw [← List.drop_drop (i := 4) (j := 5), hchID, List.drop_append_of_le_length (by simp)]
    simp
  rw [readHeader, hlength, hflag, hchID, hoffset, List.take_append_of_le_length (by simp),
    List.take_append_of_le_length (by simp), List.take_of_length_le (by simp),
    List.take_of_length_le (by simp), ofBigEndian_bigEndian, ofBigEndian_bigEndian,
    ofBigEndian_bigEndian]
  · rfl
  · apply lt_of_lt_of_le hf.offset_lt
    decide
  · apply lt_of_lt_of_le hf.chID_lt
    decide
  · apply lt_of_lt_of_le hf.length_lt
    decide

/-! ### Streams of frames -/

/-- What a reader has done: the frames it parsed, each with the position of its header,
why it stopped, and the session it left. -/
structure ReadTrace where
  frames : List (Nat × PacketFrame)
  verdict : Verdict
  session : Session

/-- The trace of a reader that parsed a frame before. -/
def ReadTrace.cons (x : Nat × PacketFrame) (t : ReadTrace) : ReadTrace :=
  { t with frames := x :: t.frames }

/-- The payload that follows a header.  Only a frame of data of an admissible length has
one. -/
def readPayload (cfg : SessionConfig) (flag : Flag) (n : Nat) (r : List Bytes) :
    Option (Bytes × List Bytes) :=
  if flag = .data ∧ n ≤ cfg.maxFrameDataSize ∧ n ≤ maxAllocSize then readFull n r
  else some ([], r)

/-- What the rest of the program does while a reader works: `before` happens to the session
before the reader looks at the frame at a position, `after` once it has taken that frame,
and `busy` says whether the lock of the channel is then held elsewhere. -/
structure Surroundings where
  before : Nat → Session → Session
  after : Nat → Session → Session
  busy : Nat → Bool

/-- The loop of the reader of a stream transport, from a position on. -/
def streamReadFrom (cfg : SessionConfig) (env : Surroundings) :
    Nat → Nat → List Bytes → Session → ReadTrace
  | 0, _, _, s => ⟨[], .next, s⟩
  | fuel + 1, pos, r, s =>
      if (env.before pos s).closed then ⟨[], .closed, env.before pos s⟩
      else
        match readFull 17 r with
        | none => ⟨[], .disconnect, env.before pos s⟩
        | some (header, r) =>
            match Flag.ofByte (readHeader header).flag with
            | none => ⟨[], .disconnect, env.before pos s⟩
            | some flag =>
                match readPayload cfg flag (readHeader header).length r with
                | none => ⟨[], .disconnect, env.before pos s⟩
                | some (p, r) =>
                    let f : PacketFrame := ⟨(readHeader header).length, flag,
                      (readHeader header).chID, (readHeader header).offset, p⟩
                    match (env.after pos (env.before pos s)).receiveStream cfg (env.busy pos) f with
                    | (.next, s) =>
                        (streamReadFrom cfg env fuel (pos + 17 + p.length) r s).cons (pos, f)
                    | (v, s) => ⟨[(pos, f)], v, s⟩

/-- The reader of a stream transport.  A frame takes a byte at least, so the loop ends. -/
def streamReadLoop (cfg : SessionConfig) (env : Surroundings) (r : List Bytes) (s : Session) :
    ReadTrace :=
  streamReadFrom cfg env (r.flatten.length + 1) 0 r s

/-- The frames of a list with the positions their headers have when they are written one
after the other. -/
def framePositions : Nat → List WriteFrame → List (Nat × PacketFrame)
  | _, [] => []
  | pos, f :: fs => (pos, f.packet) :: framePositions (pos + 17 + f.payload.length) fs

/-- The session that takes the frame at a position, and what it makes of it. -/
def Surroundings.receive (cfg : SessionConfig) (env : Surroundings) (pos : Nat) (f : WriteFrame)
    (s : Session) : Verdict × Session :=
  (env.after pos (env.before pos s)).receiveStream cfg (env.busy pos) f.packet

/-- The session has counted as many frames for unknown channels as it may. -/
def Session.Full (cfg : SessionConfig) (s : Session) : Prop :=
  cfg.maxUnknownChannelErrors < (s.unknownChannelErrors + 1) % 2 ^ 32

/-- Why a reader stops after `k` of the frames that are written from a position on: the rest of
the program has closed the session, or the last of these frames says that the peer closes the
session, or it is data for an unknown channel, one frame too many.  None of the frames before
closes the session. -/
inductive Halts (cfg : SessionConfig) (env : Surroundings) :
    Nat → List WriteFrame → Session → Nat → Prop
  | closed {pos fs s} (hclosed : (env.before pos s).closed = true) :
      Halts cfg env pos fs s 0
  | goaway {pos f fs s} (hflag : f.flag = .goaway) :
      Halts cfg env pos (f :: fs) s 1
  | unknown {pos f fs s s₁} (htaken : s₁ = env.after pos (env.before pos s))
      (hflag : f.flag = .data) (hnone : s₁.channels f.chID = none)
      (hfull : s₁.Full cfg) :
      Halts cfg env pos (f :: fs) s 1
  | next {pos k f fs s s₁} (htaken : s₁ = env.after pos (env.before pos s))
      (hkeeps : (env.receive cfg pos f s).2.closed = s₁.closed)
      (hrest : Halts cfg env (pos + 17 + f.payload.length) fs (env.receive cfg pos f s).2 k) :
      Halts cfg env pos (f :: fs) s (k + 1)

/-- The frames a trace has parsed are those of a list written from a position on, in order
and each at the position of its header: all of them, or those before a reason to stop. -/
def ReadTrace.Parses (cfg : SessionConfig) (env : Surroundings) (s : Session) (pos : Nat)
    (fs : List WriteFrame) (t : ReadTrace) : Prop :=
  ∃ k, k ≤ fs.length
    ∧ t.frames = (framePositions pos fs).take k
    ∧ (k = fs.length ∧ t.verdict = .disconnect
      ∨ t.verdict = .closed ∧ t.session.closed = true ∧ Halts cfg env pos fs s k)

/-- A frame the writer can write: data has a payload of an admissible length, and other
frames have none. -/
structure WriteFrame.Written (cfg : SessionConfig) (f : WriteFrame) : Prop where
  fits : f.Fits
  length_data : f.flag = .data →
    1 ≤ f.length ∧ f.length ≤ cfg.maxFrameDataSize ∧ f.payload.length = f.length
  no_payload : f.flag ≠ .data → f.pBuf = none
  length_rst : f.flag = .rst → f.length = 0

theorem WriteFrame.Written.payload_eq_nil (hf : f.Written cfg) (hflag : f.flag ≠ .data) :
  f.payload = []
  := by
  simp [WriteFrame.payload, hf.no_payload hflag]

/-- After the header of a written frame the reader takes exactly its payload. -/
theorem readPayload_written (hf : f.Written cfg) {tail : Bytes}
    (hr : r.flatten = f.payload ++ tail) :
  ∃ r', readPayload cfg f.flag f.length r = some (f.payload, r') ∧ r'.flatten = tail
  := by
  unfold readPayload
  by_cases hflag : f.flag = .data
  · obtain ⟨_, hmax, hlength⟩ := hf.length_data hflag
    have halloc : f.length ≤ maxAllocSize := le_trans hmax cfg.frame_le
    rw [if_pos ⟨hflag, hmax, halloc⟩]
    obtain ⟨r', hread, hrest⟩ := readFull_of_le f.length r (by simp [hr, hlength])
    use r'
    rw [hread, hrest, hr, ← hlength]
    simp
  · rw [if_neg (by simp [hflag])]
    use r
    rw [hr, hf.payload_eq_nil hflag]
    simp

/-- A reader goes on with a session that it has not closed, or it has closed the session and
there is a reason for it. -/
def Session.Passes (s : Session) (reason : Prop) (v : Verdict × Session) : Prop :=
  v.1 = .next ∧ v.2.closed = s.closed ∨ v.1 = .closed ∧ v.2.closed = true ∧ reason

theorem passes_unknownChannel (cfg : SessionConfig) (id n : Nat) (s : Session) :
  s.Passes (s.Full cfg) (s.unknownChannel cfg id n)
  := by
  unfold unknownChannel
  rw [paid_creditDiscarded cfg n (s.noteDiscarded id n)]
  dsimp only [noteDiscarded]
  split
  · rename_i hfull
    exact .inr ⟨rfl, closed_closeSession cfg _, hfull⟩
  · exact .inl ⟨rfl, rfl⟩

theorem passes_streamData (cfg : SessionConfig) (id offset : Nat) (p : Bytes) (s : Session) :
  s.Passes (s.channels id = none ∧ s.Full cfg) (s.streamData cfg id offset p)
  := by
  unfold streamData
  split
  · exact .inl ⟨rfl, closed_receiveData cfg _ offset p s⟩
  · rename_i hnone
    split
    · exact (passes_unknownChannel cfg id p.length s).imp_right fun h => ⟨h.1, h.2.1, hnone, h.2.2⟩
    split
    · left
      unfold sendReset offerControlFrame
      grind [closed_creditDiscarded, closed_noteDiscarded]
    · have hbeside := (beside_recentlyClosedLocked id s).trans
        (beside_stashLocked cfg id { flag := .data, offset := offset, data := p } _)
      dsimp only
      generalize stashLocked cfg id _ _ = res at hbeside ⊢
      split
      · exact .inl ⟨rfl, hbeside.closed_eq⟩
      · have hunknown := passes_unknownChannel cfg id p.length res.2
        have hcount : res.2.unknownChannelErrors = s.unknownChannelErrors := by rw [hbeside]
        simp only [Session.Passes, Session.Full, hbeside.closed_eq, hcount] at hunknown
        exact hunknown.imp_right fun h => ⟨h.1, h.2.1, hnone, h.2.2⟩

/-- A written frame that closes the session says that the peer closes it, or it is data for an
unknown channel. -/
theorem passes_receiveStream (hf : f.Written cfg) (busy : Bool) (s : Session) :
  s.Passes (f.flag = .goaway ∨ f.flag = .data ∧ s.channels f.chID = none ∧ s.Full cfg)
    (s.receiveStream cfg busy f.packet)
  := by
  by_cases hgoaway : f.flag = .goaway
  · have heq : s.receiveStream cfg busy f.packet
        = (.closed, { s with goAwayRecv := true }.closeSession cfg) := by
      simp [receiveStream, WriteFrame.packet, hgoaway, receiveControl]
    rw [heq]
    exact .inr ⟨rfl, closed_closeSession cfg _, .inl hgoaway⟩
  by_cases hdata : f.flag = .data
  · obtain ⟨hpos, hmax, -⟩ := hf.length_data hdata
    have halloc : f.length ≤ maxAllocSize := le_trans hmax cfg.frame_le
    have heq : s.receiveStream cfg busy f.packet
        = s.streamData cfg f.chID f.offset f.payload := by
      simp only [receiveStream, WriteFrame.packet, hdata]
      rw [if_neg (by omega), if_neg (by omega)]
    rw [heq]
    exact (passes_streamData cfg f.chID f.offset f.payload s).imp_right
      fun h => ⟨h.1, h.2.1, .inr ⟨hdata, h.2.2⟩⟩
  · left
    have hreset := hf.length_rst
    have hcontrol := receiveControl_next cfg busy (f := f.packet) hgoaway s
    unfold receiveStream
    grind [WriteFrame.packet]

/-- Where the bytes of a written frame come next, the reader parses that frame, and goes on
behind it unless the session has been closed. -/
theorem streamReadFrom_written {env : Surroundings} (fuel pos : Nat) (hf : f.Written cfg)
    {tail : Bytes} (hr : r.flatten = encodeFrame f ++ tail) {s : Session}
    (hopen : (env.before pos s).closed = false) :
  ∃ r', r'.flatten = tail
    ∧ streamReadFrom cfg env (fuel + 1) pos r s
      = match env.receive cfg pos f s with
        | (.next, s) =>
            (streamReadFrom cfg env fuel (pos + 17 + f.payload.length) r' s).cons (pos, f.packet)
        | (v, s) => ⟨[(pos, f.packet)], v, s⟩
  := by
  have hr' : r.flatten = putHeader f ++ (f.payload ++ tail) := by
    rw [hr, encodeFrame, List.append_assoc]
  obtain ⟨r₁, hread, hrest⟩ := readFull_of_le 17 r (by rw [hr']; simp)
  rw [hr', List.take_append_of_le_length (by simp),
    List.take_of_length_le (by simp)] at hread
  rw [hr', List.drop_append_of_le_length (by simp), List.drop_of_length_le (by simp),
    List.nil_append] at hrest
  obtain ⟨r₂, hpayload, hrest₂⟩ := readPayload_written hf hrest
  have hheader : readHeader (putHeader f) = ⟨f.length, f.flag.toByte, f.chID, f.offset⟩ := by
    simpa using readHeader_putHeader hf.fits []
  use r₂, hrest₂
  simp only [streamReadFrom, hopen, hread, hheader, Flag.ofByte_toByte, hpayload]
  rfl

/-- From any position on, the reader parses the frames written there, each at the position
its header has, until the session is closed. -/
theorem streamReadFrom_encodeFrames {env : Surroundings} {fs : List WriteFrame}
    (hfs : ∀ f ∈ fs, f.Written cfg) {fuel : Nat} (hfuel : fs.length < fuel) (pos : Nat)
    (hr : r.flatten = encodeFrames fs) (s : Session) :
  (streamReadFrom cfg env fuel pos r s).Parses cfg env s pos fs
  := by
  induction fs generalizing fuel pos r s with
  | nil =>
      use 0
      cases fuel with
      | zero => simp at hfuel
      | succ fuel =>
          have hend : readFull 17 r = none := by
            apply readFull_of_lt
            simp [hr]
          by_cases hclosed : (env.before pos s).closed
          · simp [streamReadFrom, hclosed, framePositions, Halts.closed hclosed]
          · simp [streamReadFrom, hclosed, hend, framePositions]
  | cons f fs ih =>
      obtain ⟨fuel, rfl⟩ := Nat.exists_eq_add_one_of_ne_zero (Nat.ne_zero_of_lt hfuel)
      by_cases hopen : (env.before pos s).closed = false
      · have hf := hfs f List.mem_cons_self
        obtain ⟨r', hr', hloop⟩ := streamReadFrom_written fuel pos hf hr hopen
        have hreceive := passes_receiveStream hf (env.busy pos) (env.after pos (env.before pos s))
        rw [hloop]
        obtain ⟨hnext, hkeeps⟩ | ⟨hclosed, hover, hreason⟩ := hreceive
        · obtain ⟨k, hk, hframes, hend⟩ := ih (fun g hg => hfs g (List.mem_cons_of_mem f hg))
            (by simpa using hfuel) (pos + 17 + f.payload.length) hr' (env.receive cfg pos f s).2
          have hpair : env.receive cfg pos f s = (.next, (env.receive cfg pos f s).2) :=
            Prod.ext hnext rfl
          rw [hpair]
          refine ⟨k + 1, by simpa using hk, by simp [ReadTrace.cons, hframes, framePositions], ?_⟩
          obtain ⟨hall, hverdict⟩ | ⟨hverdict, hover, hhalts⟩ := hend
          · exact .inl ⟨by simpa using hall, hverdict⟩
          · exact .inr ⟨hverdict, hover, .next rfl hkeeps hhalts⟩
        · have hpair : env.receive cfg pos f s = (.closed, (env.receive cfg pos f s).2) :=
            Prod.ext hclosed rfl
          rw [hpair]
          refine ⟨1, by simp, by simp [framePositions], .inr ⟨rfl, hover, ?_⟩⟩
          obtain hflag | ⟨hflag, hnone, hfull⟩ := hreason
          · exact .goaway hflag
          · exact .unknown rfl hflag hnone hfull
      · use 0
        simp [streamReadFrom, hopen, Halts.closed (by simpa using hopen)]

theorem length_le_length_encodeFrames (fs : List WriteFrame) :
  fs.length ≤ (encodeFrames fs).length
  := by
  induction fs with
  | nil => simp
  | cons f fs ih =>
      rw [encodeFrames_cons, List.length_append, length_encodeFrame, List.length_cons]
      omega

/-- The stream format round-trips: however the bytes of written frames are cut into reads,
and whatever the state of the session is and the rest of the program does to it, the reader
parses the frames that were written, in order and each at the position of its header.  It
stops before the last of them only when the rest of the program has closed the session, or at a
frame that closes it. -/
theorem streamReadLoop_encodeFrames
    (cfg : SessionConfig) (env : Surroundings) (fs : List WriteFrame)
    (hfs : ∀ f ∈ fs, f.Written cfg) (r : List Bytes) (hr : r.flatten = encodeFrames fs)
    (s : Session) :
  (streamReadLoop cfg env r s).Parses cfg env s 0 fs
  := by
  apply streamReadFrom_encodeFrames hfs _ 0 hr s
  rw [hr]
  exact Nat.lt_succ_of_le (length_le_length_encodeFrames fs)

/-- An instance: a window update, whose length counts no bytes of the stream, before data
for an unknown channel, both cut within their headers. -/
theorem streamReadLoop_upd_data :
  (streamReadLoop defaultConfig.newSession ⟨fun _ s => s, fun _ s => s, fun _ => false⟩
    [[0, 0], [1, 0, 6, 0, 0, 0, 0, 0, 0, 0, 0, 0, 0, 0, 0, 0],
      [0, 0, 2, 1, 0, 0, 0, 9, 0, 0, 0, 0, 0, 0, 0, 5, 7], [8]]
    (newSession defaultConfig.newSession 0)).Parses defaultConfig.newSession
      ⟨fun _ s => s, fun _ s => s, fun _ => false⟩ (newSession defaultConfig.newSession 0) 0
      [{ flag := .upd, length := 256 }, dataFrame 9 5 [7, 8]]
  := by
  apply streamReadLoop_encodeFrames
  · intro f hf
    simp only [List.mem_cons, List.not_mem_nil, or_false] at hf
    rcases hf with rfl | rfl
    · constructor <;> first | constructor | skip
      all_goals decide
    · constructor <;> first | constructor | skip
      all_goals decide
  · decide

end Muxocket
