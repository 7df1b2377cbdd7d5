import Muxocket.Wire

/-!
# Frames in datagrams

On a datagram transport the writer packs whole frames into datagrams, each as full as the
limit allows, and the reader takes every datagram apart again.  The reader skips the number
of bytes the header gives as length, whether or not the frame has a payload.  So a list of
frames comes back exactly if it has no window update: the length of a window update is an
amount of credit, and no bytes of that number follow it.
-/

namespace Muxocket

/-! ### Packing -/

/-- Write what is waiting, if there is anything. -/
def flushBuf (buf : Bytes) : List Bytes :=
  if buf = [] then [] else [buf]

/-- The datagrams written for frames when `buf` is waiting to be written.  A frame over the
limit is written on its own. -/
def packFrames (limit : Nat) : Bytes → List WriteFrame → List Bytes
  | buf, [] => flushBuf buf
  | buf, f :: frames =>
      let need := 17 + f.payload.length
      if limit < need then flushBuf buf ++ encodeFrame f :: packFrames limit [] frames
      else if limit < buf.length + need then
        flushBuf buf ++ packFrames limit (encodeFrame f) frames
      else packFrames limit (buf ++ encodeFrame f) frames

/-- The datagrams a batch is written as, none of the writes failing. -/
def flushDatagrams (frames : List WriteFrame) (maxSize : Int) : List Bytes :=
  packFrames (max maxSize 17).toNat [] frames

/-- Frames that go into one datagram: they fit, or there is only one. -/
def Packs (limit : Nat) (g : List WriteFrame) : Prop :=
  g ≠ [] ∧ ((encodeFrames g).length ≤ limit ∨ ∃ f, g = [f] ∧ limit < (encodeFrame f).length)

variable {fs : List WriteFrame} {cfg : SessionConfig}

theorem encodeFrames_ne_nil (hfs : fs ≠ []) :
  encodeFrames fs ≠ []
  := by
  obtain ⟨f, fs, rfl⟩ := List.exists_cons_of_ne_nil hfs
  apply List.ne_nil_of_length_pos
  rw [encodeFrames_cons, List.length_append, length_encodeFrame]
  omega

theorem flushBuf_encodeFrames {limit : Nat} (hfs : (encodeFrames fs).length ≤ limit) :
  ∃ groups : List (List WriteFrame),
    flushBuf (encodeFrames fs) = groups.map encodeFrames ∧ groups.flatten = fs
    ∧ ∀ g ∈ groups, Packs limit g
  := by
  cases fs with
  | nil =>
      use []
      simp [flushBuf]
  | cons f fs =>
      use [f :: fs]
      have hne : encodeFrames (f :: fs) ≠ [] := encodeFrames_ne_nil (by simp)
      simp only [flushBuf, hne, if_false]
      simpa [Packs] using Or.inl hfs

/-- Each datagram holds whole frames, as many as fit, and together they hold the frames in
order. -/
theorem packFrames_encodeFrames (limit : Nat) (buf : List WriteFrame)
    (hbuf : (encodeFrames buf).length ≤ limit) (frames : List WriteFrame) :
  ∃ groups : List (List WriteFrame),
    packFrames limit (encodeFrames buf) frames = groups.map encodeFrames
    ∧ groups.flatten = buf ++ frames ∧ ∀ g ∈ groups, Packs limit g
  := by
  induction frames generalizing buf with
  | nil => simpa [packFrames] using flushBuf_encodeFrames hbuf
  | cons f frames ih =>
      obtain ⟨flushed, hflushed, hflatten, hpacks⟩ := flushBuf_encodeFrames hbuf
      simp only [packFrames]
      split_ifs with hover hfull
      · obtain ⟨groups, hgroups, hframes, hall⟩ := ih [] (by simp)
        have hone : Packs limit [f] := by
          refine ⟨by simp, .inr ⟨f, rfl, ?_⟩⟩
          rwa [length_encodeFrame]
        use flushed ++ [f] :: groups
        rw [encodeFrames_nil] at hgroups
        refine ⟨by simp [hflushed, hgroups], by simp [hflatten, hframes], ?_⟩
        intro g hg
        rw [List.mem_append, List.mem_cons] at hg
        rcases hg with hg | rfl | hg
        · apply hpacks g hg
        · apply hone
        · apply hall g hg
      · obtain ⟨groups, hgroups, hframes, hall⟩ := ih [f] (by simp; omega)
        use flushed ++ groups
        rw [encodeFrames_cons, encodeFrames_nil, List.append_nil] at hgroups
        refine ⟨by simp [hflushed, hgroups], by simp [hflatten, hframes], ?_⟩
        intro g hg
        rcases List.mem_append.mp hg with hg | hg
        · apply hpacks g hg
        · apply hall g hg
      · have hfits : (encodeFrames (buf ++ [f])).length ≤ limit := by
          rw [encodeFrames_append, encodeFrames_cons, encodeFrames_nil, List.append_nil,
            List.length_append, length_encodeFrame]
          omega
        obtain ⟨groups, hgroups, hframes, hall⟩ := ih (buf ++ [f]) hfits
        use groups
        rw [encodeFrames_append, encodeFrames_cons, encodeFrames_nil, List.append_nil] at hgroups
        exact ⟨hgroups, by simp [hframes], hall⟩

/-! ### Taking datagrams apart -/

/-- The loop of the reader over the frames of a datagram, from a position on, of which the
bytes `data` are left. -/
def datagramFramesFrom (cfg : SessionConfig) (env : Surroundings) :
    Nat → Nat → Bytes → Session → ReadTrace
  | 0, _, _, s => ⟨[], .next, s⟩
  | fuel + 1, pos, data, s =>
      let h := readHeader data
      if data.length < 17 ∨ data.length < 17 + h.length then ⟨[], .next, s⟩
      else
        match Flag.ofByte h.flag with
        | none => ⟨[], .disconnect, s⟩
        | some flag =>
            let f : PacketFrame := ⟨h.length, flag, h.chID, h.offset,
              if flag = .data then (data.drop 17).take h.length else []⟩
            match (env.after pos s).receiveDatagram cfg (env.busy pos) f with
            | (.next, s) =>
                (datagramFramesFrom cfg env fuel (pos + 17 + h.length)
                  (data.drop (17 + h.length)) s).cons (pos, f)
            | (v, s) => ⟨[(pos, f)], v, s⟩

/-- What the reader does with a datagram. -/
def datagramFrames (cfg : SessionConfig) (env : Surroundings) (data : Bytes) (s : Session) :
    ReadTrace :=
  datagramFramesFrom cfg env (data.length + 1) 0 data s

/-- The frames the reader finds in datagrams, when `σ` are the sessions it finds. -/
def recovered (cfg : SessionConfig) (env : Surroundings) :
    (Nat → Session) → List Bytes → List PacketFrame
  | _, [] => []
  | σ, data :: datagrams =>
      (datagramFrames cfg env data (σ 0)).frames.map (·.2)
        ++ recovered cfg env (fun i => σ (i + 1)) datagrams

/-- A frame the writer can write on a datagram transport of a session that stays open: its
length is that of its payload, or an amount of credit. -/
structure WriteFrame.Packed (cfg : SessionConfig) (f : WriteFrame) : Prop
    extends f.Written cfg where
  not_goaway : f.flag ≠ .goaway
  length_upd : f.flag = .upd → 0 < f.length
  length_other : f.flag ≠ .data → f.flag ≠ .upd → f.length = 0

theorem receiveDatagram_next {busy : Bool} {f : PacketFrame} (hflag : f.flag ≠ .goaway)
    (s : Session) :
  (s.receiveDatagram cfg busy f).1 = .next
  := by
  unfold Session.receiveDatagram Session.receiveControl
  grind

/-- The lengths in the headers the reader finds are never more than the bytes it has. -/
theorem sum_datagramFramesFrom (cfg : SessionConfig) (env : Surroundings) (fuel pos : Nat)
    (data : Bytes) (s : Session) :
  ((datagramFramesFrom cfg env fuel pos data s).frames.map fun x => 17 + x.2.dataLength).sum
    ≤ data.length
  := by
  induction fuel generalizing pos data s with
  | zero => simp [datagramFramesFrom]
  | succ fuel ih =>
      unfold datagramFramesFrom
      dsimp only
      split
      · simp
      · rename_i hlength
        split
        · simp
        · split
          · rename_i s' _
            have := ih (pos + 17 + (readHeader data).length)
              (data.drop (17 + (readHeader data).length)) s'
            simp only [ReadTrace.cons, List.map_cons, List.sum_cons]
            rw [List.length_drop] at this
            omega
          · simp
            omega

/-- Where the bytes of a packed frame come next, and its length is that of its payload, the
reader finds that frame and goes on behind it. -/
theorem datagramFramesFrom_packed {f : WriteFrame} (hf : f.Packed cfg)
    (hlength : f.length = f.payload.length) (env : Surroundings) (fuel pos : Nat) (tail : Bytes)
    (s : Session) :
  ∃ s', datagramFramesFrom cfg env (fuel + 1) pos (encodeFrame f ++ tail) s
    = (datagramFramesFrom cfg env fuel (pos + 17 + f.length) tail s').cons (pos, f.packet)
  := by
  have hheader : readHeader (encodeFrame f ++ tail)
      = ⟨f.length, f.flag.toByte, f.chID, f.offset⟩ := by
    rw [encodeFrame, List.append_assoc]
    exact readHeader_putHeader hf.fits (f.payload ++ tail)
  have hrest : (encodeFrame f ++ tail).drop (17 + f.length) = tail := by
    rw [List.drop_append, List.drop_of_length_le (by simp [hlength])]
    simp [hlength]
  have hpayload : (if f.flag = .data then ((encodeFrame f ++ tail).drop 17).take f.length else [])
      = f.payload := by
    split
    · rw [encodeFrame, List.append_assoc, List.drop_append, List.drop_of_length_le (by simp)]
      simp [hlength]
    · rename_i hflag
      rw [hf.payload_eq_nil hflag]
  have henough : ¬ ((encodeFrame f ++ tail).length < 17
      ∨ (encodeFrame f ++ tail).length < 17 + f.length) := by
    simp only [List.length_append, length_encodeFrame]
    omega
  have hnext : ((env.after pos s).receiveDatagram cfg (env.busy pos) f.packet).1 = .next :=
    receiveDatagram_next hf.not_goaway (env.after pos s)
  rcases hres : (env.after pos s).receiveDatagram cfg (env.busy pos) f.packet with ⟨v, s'⟩
  rw [hres] at hnext
  obtain rfl : v = .next := hnext
  use s'
  simp only [datagramFramesFrom, hheader, hrest, hpayload, henough, Flag.ofByte_toByte, if_false]
  change (match (env.after pos s).receiveDatagram cfg (env.busy pos) f.packet with
    | (.next, s) => (datagramFramesFrom cfg env fuel (pos + 17 + f.length) tail s).cons
        (pos, f.packet)
    | (v, s) => ⟨[(pos, f.packet)], v, s⟩) = _
  rw [hres]

/-- A datagram of packed frames, none of them a window update, is taken apart into these
frames. -/
theorem datagramFramesFrom_encodeFrames (hfs : ∀ f ∈ fs, f.Packed cfg)
    (hupd : ∀ f ∈ fs, f.flag ≠ .upd) (env : Surroundings) {fuel : Nat} (hfuel : fs.length ≤ fuel)
    (pos : Nat) (s : Session) :
  (datagramFramesFrom cfg env fuel pos (encodeFrames fs) s).frames.map (·.2)
    = fs.map WriteFrame.packet
  := by
  induction fs generalizing fuel pos s with
  | nil =>
      cases fuel with
      | zero => rfl
      | succ fuel => simp [datagramFramesFrom]
  | cons f fs ih =>
      have hf := hfs f List.mem_cons_self
      obtain ⟨fuel, rfl⟩ : ∃ n, fuel = n + 1 :=
        Nat.exists_eq_add_one_of_ne_zero (Nat.ne_zero_of_lt hfuel)
      have hlength : f.length = f.payload.length := by
        by_cases hflag : f.flag = .data
        · rw [(hf.length_data hflag).2.2]
        · rw [hf.length_other hflag (hupd f List.mem_cons_self), hf.payload_eq_nil hflag]
          rfl
      obtain ⟨s', hloop⟩ := datagramFramesFrom_packed hf hlength env fuel pos (encodeFrames fs) s
      rw [encodeFrames_cons, hloop]
      simp only [ReadTrace.cons, List.map_cons]
      rw [ih (fun g hg => hfs g (List.mem_cons_of_mem f hg))
        (fun g hg => hupd g (List.mem_cons_of_mem f hg)) (by simpa using hfuel)]

theorem recovered_encodeFrames {groups : List (List WriteFrame)}
    (hfs : ∀ f ∈ groups.flatten, f.Packed cfg) (hupd : ∀ f ∈ groups.flatten, f.flag ≠ .upd)
    (env : Surroundings) (σ : Nat → Session) :
  recovered cfg env σ (groups.map encodeFrames) = groups.flatten.map WriteFrame.packet
  := by
  induction groups generalizing σ with
  | nil => rfl
  | cons fs groups ih =>
      simp only [List.flatten_cons, List.mem_append] at hfs hupd
      have hhead : (datagramFrames cfg env (encodeFrames fs) (σ 0)).frames.map (·.2)
          = fs.map WriteFrame.packet := by
        apply datagramFramesFrom_encodeFrames
        · intro f hf
          exact hfs f (Or.inl hf)
        · intro f hf
          exact hupd f (Or.inl hf)
        · have := length_le_length_encodeFrames fs
          omega
      simp only [List.map_cons, recovered, List.flatten_cons, List.map_append, hhead]
      rw [ih (fun f hf => hfs f (Or.inr hf)) (fun f hf => hupd f (Or.inr hf))]

theorem sum_recovered (cfg : SessionConfig) (env : Surroundings) (σ : Nat → Session)
    (datagrams : List Bytes) :
  ((recovered cfg env σ datagrams).map fun f => 17 + f.dataLength).sum
    ≤ datagrams.flatten.length
  := by
  induction datagrams generalizing σ with
  | nil => simp [recovered]
  | cons data datagrams ih =>
      have hhead := sum_datagramFramesFrom cfg env (data.length + 1) 0 data (σ 0)
      have htail := ih fun i => σ (i + 1)
      simp only [recovered, datagramFrames, List.map_append, List.map_map, List.sum_append,
        List.flatten_cons, List.length_append]
      exact Nat.add_le_add hhead htail

theorem length_encodeFrames (fs : List WriteFrame) :
  (encodeFrames fs).length = (fs.map fun f => 17 + f.payload.length).sum
  := by
  induction fs with
  | nil => rfl
  | cons f fs ih => simp [ih]

theorem flatten_map_encodeFrames (groups : List (List WriteFrame)) :
  (groups.map encodeFrames).flatten = encodeFrames groups.flatten
  := by
  induction groups with
  | nil => rfl
  | cons fs groups ih => simp [ih, encodeFrames_append]

theorem length_payload_le (f : WriteFrame) :
  f.payload.length ≤ f.length
  := by
  unfold WriteFrame.payload
  split
  · split <;> simp
  · simp

/-- A batch written as datagrams comes back as the frames that were written exactly if it
has no window update, whatever the limit of a datagram is, whatever sessions the reader
finds and whatever the rest of the program does to them. -/
theorem recovered_flushDatagrams_iff
    (cfg : SessionConfig) (env : Surroundings) (σ : Nat → Session) (frames : List WriteFrame)
    (hframes : ∀ f ∈ frames, f.Packed cfg) (maxSize : Int) :
  recovered cfg env σ (flushDatagrams frames maxSize) = frames.map WriteFrame.packet
    ↔ ∀ f ∈ frames, f.flag ≠ .upd
  := by
  obtain ⟨groups, hgroups, hflatten, -⟩ :=
    packFrames_encodeFrames (max maxSize 17).toNat [] (by simp) frames
  rw [encodeFrames_nil] at hgroups
  rw [List.nil_append] at hflatten
  rw [flushDatagrams, hgroups]
  constructor
  · intro hrecovered f hf hupd
    have hle := sum_recovered cfg env σ (groups.map encodeFrames)
    rw [hrecovered, flatten_map_encodeFrames, hflatten, length_encodeFrames, List.map_map] at hle
    have hlt : (frames.map fun f => 17 + f.payload.length).sum
        < (frames.map fun f => 17 + f.length).sum := by
      apply List.sum_lt_sum
      · intro g _
        exact Nat.add_le_add_left (length_payload_le g) 17
      · use f, hf
        have := (hframes f hf).length_upd hupd
        rw [(hframes f hf).payload_eq_nil (by simp [hupd])]
        simpa using this
    exact absurd hle (Nat.not_le_of_lt hlt)
  · intro hupd
    subst hflatten
    exact recovered_encodeFrames hframes hupd env σ

/-- An instance: data, an acknowledgement and the end of a stream, in a limit that forces
two datagrams. -/
theorem recovered_data_ack_fin :
  recovered defaultConfig.newSession ⟨fun _ s => s, fun _ s => s, fun _ => false⟩
      (fun _ => newSession defaultConfig.newSession 0)
      (flushDatagrams
        [dataFrame 9 0 [7, 8], { flag := .ack, chID := 9, offset := 300 }, finFrame 9 2] 40)
    = [dataFrame 9 0 [7, 8], { flag := .ack, chID := 9, offset := 300 },
        finFrame 9 2].map WriteFrame.packet
  := by
  apply (recovered_flushDatagrams_iff _ _ _ _ _ _).2
  · decide
  · intro f hf
    simp only [List.mem_cons, List.not_mem_nil, or_false] at hf
    rcases hf with rfl | rfl | rfl
    all_goals
      constructor
      · constructor
        · constructor <;> decide
        all_goals decide
      all_goals decide

/-- A window update of 256 bytes and the end of a stream behind it: the reader takes the
amount of credit for the length of a payload the datagram does not hold, and finds neither
of the two frames. -/
theorem recovered_upd_fin :
  (∀ f ∈ [{ flag := .upd, length := 256 }, finFrame 9 2],
      WriteFrame.Packed defaultConfig.newSession f)
    ∧ recovered defaultConfig.newSession ⟨fun _ s => s, fun _ s => s, fun _ => false⟩
        (fun _ => newSession defaultConfig.newSession 0)
        (flushDatagrams [{ flag := .upd, length := 256 }, finFrame 9 2] 1400)
      = []
    ∧ [{ flag := .upd, length := 256 }, finFrame 9 2].map WriteFrame.packet ≠ []
  := by
  constructor
  · intro f hf
    simp only [List.mem_cons, List.not_mem_nil, or_false] at hf
    rcases hf with rfl | rfl
    all_goals
      constructor
      · constructor
        · constructor <;> decide
        all_goals decide
      all_goals decide
  · decide

end Muxocket
