import Muxocket.Datagram
import Muxocket.Negotiation
import Muxocket.Partition

/-!
# The size of datagrams

The listener on a datagram transport clamps the size of frames so that one fits a datagram, and
the dialer adopts that size and sends datagrams with room for one such frame.  So no datagram of
either side is too large for the listener.
-/

namespace Muxocket

/-- The greatest datagram a listener sends. -/
def Listener.maxDatagramSize (ln : Listener) : Int :=
  if ln.mtu = 0 then 1400 else ln.mtu

/-- Whether a listener drops a datagram because of its size.  It reads into a buffer that is a
little larger than a datagram may be. -/
def Listener.dropsOversize (ln : Listener) (datagram : Bytes) : Bool :=
  decide (ln.mtu < min datagram.length (min (ln.mtu + 64) maxAllocSize))

/-- A frame a session sends carries nothing, or what a call has queued on a channel. -/
def WriteFrame.Sent (cfg : SessionConfig) (f : WriteFrame) : Prop :=
  f.pBuf = none ∨ ∃ s q, Run (Cutting.State.step cfg) (fun _ _ => True) {} s ∧ q ∈ s.queued
    ∧ f.pBuf = some (s.payload q)

theorem WriteFrame.Sent.length_payload_le {cfg : SessionConfig} {f : WriteFrame} (hf : f.Sent cfg) :
  f.payload.length ≤ cfg.maxFrameDataSize
  := by
  rcases hf with hnone | ⟨s, q, hrun, hq, hsome⟩
  · simp [WriteFrame.payload, hnone]
  · obtain ⟨-, hle, hlength, -⟩ :=
      (Cutting.State.sound_of_run hrun).sizes q (List.mem_append_left _ hq)
    simp only [WriteFrame.payload, hsome]
    split
    · rw [List.length_take]
      omega
    · simp

theorem flushDatagrams_groups (frames : List WriteFrame) (maxSize : Int) :
  ∃ groups : List (List WriteFrame), flushDatagrams frames maxSize = groups.map encodeFrames
    ∧ groups.flatten = frames ∧ ∀ g ∈ groups, Packs (max maxSize 17).toNat g
  := by
  obtain ⟨groups, hgroups, hflatten, hpacks⟩ :=
    packFrames_encodeFrames (max maxSize 17).toNat [] (by simp) frames
  exact ⟨groups, hgroups, by simpa using hflatten, hpacks⟩

/-- A datagram is not longer than its limit and the frames allow. -/
theorem length_flushDatagrams_le {frames : List WriteFrame} {maxSize : Int} {n : Nat}
    (hlimit : (max maxSize 17).toNat ≤ n) (hframes : ∀ f ∈ frames, 17 + f.payload.length ≤ n)
    {d : Bytes} (hd : d ∈ flushDatagrams frames maxSize) :
  d.length ≤ n
  := by
  obtain ⟨groups, hgroups, hflatten, hpacks⟩ := flushDatagrams_groups frames maxSize
  rw [hgroups] at hd
  obtain ⟨g, hg, rfl⟩ := List.mem_map.mp hd
  rcases (hpacks g hg).2 with hfits | ⟨f, rfl, -⟩
  · omega
  · have hf : f ∈ frames := by
      rw [← hflatten]
      exact List.mem_flatten.mpr ⟨[f], hg, List.mem_singleton_self f⟩
    simpa using hframes f hf

/-- A frame of a session of a listener on a datagram transport fits a datagram. -/
theorem frameSize_clamp {mtu : Nat} (hmtu : 64 ≤ mtu) (c : Config) :
  (c.clamp mtu).frameSize + 17 ≤ mtu
  := by
  have hle : orDefault (c.clamp mtu).maxFrameDataSize defaultMaxFrameDataLen ≤ mtu - 17 := by
    unfold Config.clamp orDefault
    split_ifs with hclamp hzero hzero
    · simp only at hzero
      omega
    · simp
    · omega
    · omega
  have hmin := min_le_left (orDefault (c.clamp mtu).maxFrameDataSize defaultMaxFrameDataLen)
    maxAllocSize
  unfold Config.frameSize
  omega

/-- The limits of a listener on a datagram transport, and of its sessions. -/
theorem limits_of_listenPacket {mtu : Int} {config : Option Config} {ln : Listener}
    (hln : listenPacket mtu config = some ln) :
  64 ≤ ln.mtu ∧ ln.mtu ≤ 65535 ∧ ln.mtu = mtu.toNat
    ∧ ln.newSession.maxFrameDataSize + 17 ≤ ln.mtu
  := by
  unfold listenPacket at hln
  split at hln
  · contradiction
  · cases hln
    have hlow : 64 ≤ mtu.toNat := by
      omega
    exact ⟨hlow, by dsimp only; omega, rfl, frameSize_clamp hlow _⟩

/-- The size of frames a dialer has adopted is that of its session. -/
theorem frameSize_of_negotiatedConfig {own c : Config} {resp : ResponderHandshakeMessage}
    (hc : negotiatedConfig own resp = .ok c) :
  c.newSession.maxFrameDataSize = c.maxFrameDataSize
  := by
  unfold negotiatedConfig at hc
  split at hc
  · contradiction
  · rename_i hframe
    split at hc
    · contradiction
    · obtain rfl := Except.ok.inj hc
      simp only [Config.newSession, Config.frameSize, orDefault]
      rw [if_neg (by omega), min_eq_left (by omega)]

theorem dropsOversize_eq_false {ln : Listener} {d : Bytes} (hd : d.length ≤ ln.mtu) :
  ln.dropsOversize d = false
  := by
  have hmin := min_le_left d.length (min (ln.mtu + 64) maxAllocSize)
  simp only [Listener.dropsOversize, decide_eq_false_iff_not]
  omega

/-- The datagrams a batch is written as are not empty and hold the frames one after the other,
each of them whole frames, and none is over the limit unless it holds a single frame.  When a
dialer has got a session from a listener on a datagram transport, no datagram with frames of
either of them is dropped by the listener because of its size. -/
theorem datagrams_exact_and_bounded :
  (∀ (frames : List WriteFrame) (maxSize : Int),
    (∀ d ∈ flushDatagrams frames maxSize, d ≠ [])
      ∧ (flushDatagrams frames maxSize).flatten = encodeFrames frames
      ∧ ∃ groups : List (List WriteFrame), flushDatagrams frames maxSize = groups.map encodeFrames
        ∧ groups.flatten = frames
        ∧ ∀ g ∈ groups, (encodeFrames g).length ≤ (max maxSize 17).toNat
          ∨ ∃ f, g = [f] ∧ (max maxSize 17).toNat < (encodeFrame f).length)
    ∧ ∀ (κ : Type) (K : Keys κ) (mtu : Int) (config own : Option Config) (ln : Listener)
      (sid request : Bytes) (priv : κ) (pieces : List Bytes) (rest : Bytes) (d : Dialed),
      listenPacket mtu config = some ln → ln.config.Words →
      pieces.flatten = ln.buildResponderHandshake K sid 0 priv request ++ rest →
      dial K own request pieces = .ok d →
      ∀ frames : List WriteFrame, ∀ datagram : Bytes,
        (∀ f ∈ frames, f.Sent ln.newSession) ∧ datagram ∈ flushDatagrams frames ln.maxDatagramSize
          ∨ (∀ f ∈ frames, f.Sent d.session) ∧ datagram ∈ flushDatagrams frames d.maxOut →
        (datagram.length : Int) ≤ mtu ∧ ln.dropsOversize datagram = false
  := by
  constructor
  · intro frames maxSize
    obtain ⟨groups, hgroups, hflatten, hpacks⟩ := flushDatagrams_groups frames maxSize
    refine ⟨?_, ?_, groups, hgroups, hflatten, fun g hg => (hpacks g hg).2⟩
    · intro d hd
      rw [hgroups] at hd
      obtain ⟨g, hg, rfl⟩ := List.mem_map.mp hd
      apply encodeFrames_ne_nil (hpacks g hg).1
    · rw [hgroups, flatten_map_encodeFrames, hflatten]
  · intro κ K mtu config own ln sid request priv pieces rest d hln hw hpieces hdial frames datagram
      hsent
    obtain ⟨hlow, hhigh, hmtu, hsize⟩ := limits_of_listenPacket hln
    obtain ⟨c, hc, rfl⟩ := negotiatedConfig_of_dial hw hpieces hdial
    have hframe := (sameParameters_of_negotiatedConfig hc).1.frame
    have hlength : datagram.length ≤ ln.mtu := by
      rcases hsent with ⟨hsent, hmem⟩ | ⟨hsent, hmem⟩
      · apply length_flushDatagrams_le _ _ hmem
        · unfold Listener.maxDatagramSize
          split <;> omega
        · intro f hf
          have := (hsent f hf).length_payload_le
          omega
      · apply length_flushDatagrams_le _ _ hmem
        · have hsame := frameSize_of_negotiatedConfig hc
          have hmin := min_le_left (c.maxFrameDataSize + 17) maxUDPPayload
          simp only [Config.dialed]
          omega
        · intro f hf
          have hle : f.payload.length ≤ c.newSession.maxFrameDataSize :=
            (hsent f hf).length_payload_le
          omega
    exact ⟨by omega, dropsOversize_eq_false hlength⟩

/-- A listener for datagrams of 64 bytes. -/
def shortListener : Listener where
  sessionConfig := some (defaultConfig.clamp 64)
  allowConnectionResumption := true
  mtu := 64

/-- A datagram is filled to the last byte by a frame of the agreed size. -/
theorem datagrams_exact_and_bounded_full :
  ∃ d, listenPacket 64 none = some shortListener
    ∧ dial sumKeys none sumRequest
      [shortListener.buildResponderHandshake sumKeys (List.replicate 32 8) 0 7 sumRequest] = .ok d
    ∧ ∀ datagram ∈ flushDatagrams [dataFrame 11 0 (List.replicate 47 1), finFrame 11 47] d.maxOut,
      (datagram.length : Int) ≤ 64 ∧ shortListener.dropsOversize datagram = false
  := by
  have hpieces :
      [shortListener.buildResponderHandshake sumKeys (List.replicate 32 8) 0 7 sumRequest].flatten
        = shortListener.buildResponderHandshake sumKeys (List.replicate 32 8) 0 7 sumRequest
          ++ [] := by
    simp
  have hw : shortListener.config.Words := ⟨by decide, by decide, by decide⟩
  have hdial := dial_answer sumKeys _ _ _ _ none hw hpieces
  refine ⟨(defaultConfig.clamp 64).dialed, rfl, hdial, ?_⟩
  intro datagram hmem
  apply datagrams_exact_and_bounded.2 _ sumKeys 64 none none _ _ _ _ _ _ _ rfl hw hpieces hdial
  right
  refine ⟨?_, hmem⟩
  intro f hf
  rw [List.mem_cons, List.mem_singleton] at hf
  rcases hf with rfl | rfl
  · right
    obtain ⟨s, hrun, hpayload⟩ := Run.exists_of_exec
      (Cutting.State.step (defaultConfig.clamp 64).newSession) (fun _ _ => True) {}
      (List.flatten [[.start 0 (.write (List.replicate 47 1))],
        List.replicate 4 (.advance 0 .go), [.advance 0 (.grant 47)],
        List.replicate 2 (.advance 0 .go)])
      (fun s => s.queued.map s.payload = [List.replicate 47 1])
      (by decide +kernel)
    obtain ⟨q, hq, heq⟩ := List.mem_map.mp (hpayload ▸ List.mem_singleton_self _)
    exact ⟨s, q, hrun, hq, by simp [dataFrame, heq]⟩
  · left
    rfl

end Muxocket
