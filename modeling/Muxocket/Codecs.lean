import Muxocket.Negotiation

/-!
# Handshake messages are read as they were written

The two messages of a handshake have the same form: fields of fixed lengths, of which the last one
is the length of the public key, then the key, the length of the signature and the signature.  Each
is read as it was written, and what the reader takes as signed is what the writer has signed.

Whatever comes from the peer, the parsers do not read beyond its end, and what they take from it
is, but for the signature, in the part that the signature covers.
-/

namespace Muxocket

open InitiatorHandshakeMessage

/-! ### Accesses that are checked -/

/-- The bytes from `i` to `j` of a message.  The program stops if the message is too short. -/
def slice (i j : Nat) (data : Bytes) : Option Bytes :=
  if i ≤ j ∧ j ≤ data.length then some ((data.drop i).take (j - i)) else none

variable {i : Nat} {data : Bytes}

theorem slice_eq_some {j : Nat} (hij : i ≤ j) (hj : j ≤ data.length) :
  slice i j data = some ((data.drop i).take (j - i))
  := by
  rw [slice, if_pos ⟨hij, hj⟩]

theorem getElem?_eq_headD (hi : i < data.length) :
  data[i]? = some ((data.drop i).headD 0)
  := by
  rw [List.drop_eq_getElem_cons hi, List.getElem?_eq_getElem hi]
  rfl

/-- The end of a message, with its accesses to the message: the public key from `i` on, the length
of the signature, and the signature. -/
def checkedKeys {ε μ : Type} (i : Nat) (noKey noSignature : ε) (message : Bytes → UInt8 → Bytes → μ)
    (publicKeyLen : UInt8) (data : Bytes) : Option (Except ε μ) :=
  let pubEnd := i + publicKeyLen.toNat
  if data.length < pubEnd + 1 then some (.error noKey)
  else
    (slice i pubEnd data).bind fun publicKey =>
    data[pubEnd]?.bind fun signatureLen =>
    let sigEnd := pubEnd + 1 + signatureLen.toNat
    if data.length < sigEnd then some (.error noSignature)
    else
      (slice (pubEnd + 1) sigEnd data).map fun signature =>
        .ok (message publicKey signatureLen signature)

/-- `parseInitiatorHandshakeMessage`, with its accesses to the message. -/
def checkedInitiator (data : Bytes) : Option (Except HandshakeError InitiatorHandshakeMessage) :=
  if data.length < minInitiatorHandshakeLen then some (.error .malformedHandshake)
  else
    data[0]?.bind fun (protocolVersion : UInt8) =>
    (slice 1 33 data).bind fun sessionID =>
    (slice 33 35 data).bind fun nonce =>
    (slice 35 67 data).bind fun random =>
    data[67]?.bind fun (publicKeyLen : UInt8) =>
    checkedKeys 68 .publicKeyOutOfBounds .signatureOutOfBounds
      (fun publicKey signatureLen signature =>
        { protocolVersion := protocolVersion
          sessionID := sessionID
          nonce := ofBigEndian nonce
          random := random
          publicKeyLen := publicKeyLen.toNat
          publicKey := publicKey
          signatureLen := signatureLen.toNat
          signature := signature })
      publicKeyLen data

/-- `parseResponderHandshakeMessage`, with its accesses to the message. -/
def checkedResponder (data : Bytes) : Option (Except DialError ResponderHandshakeMessage) :=
  if data.length < responderPayloadLen then some (.error .tooShort)
  else
    data[0]?.bind fun (protocolVersion : UInt8) =>
    (slice 1 33 data).bind fun sessionID =>
    (slice 33 35 data).bind fun nonce =>
    (slice 35 39 data).bind fun initialStreamWindow =>
    (slice 39 43 data).bind fun initialSessionWindow =>
    (slice 43 47 data).bind fun windowUpdateRatio =>
    (slice 47 51 data).bind fun maxFrameDataLen =>
    data[51]?.bind fun (reliability : UInt8) =>
    data[52]?.bind fun (allowConnectionResumption : UInt8) =>
    data[53]?.bind fun (publicKeyLen : UInt8) =>
    checkedKeys 54 .publicKeyOutOfBounds .signatureOutOfBounds
      (fun publicKey signatureLen signature =>
        { protocolVersion := protocolVersion
          sessionID := sessionID
          nonce := ofBigEndian nonce
          initialStreamWindow := ofBigEndian initialStreamWindow
          initialSessionWindow := ofBigEndian initialSessionWindow
          windowUpdateRatio := ofBigEndian windowUpdateRatio
          maxFrameDataLen := ofBigEndian maxFrameDataLen
          reliability := reliability == 1
          allowConnectionResumption := allowConnectionResumption == 1
          publicKeyLen := publicKeyLen.toNat
          publicKey := publicKey
          signatureLen := signatureLen.toNat
          signature := signature })
      publicKeyLen data

theorem checkedKeys_eq {ε μ : Type} (i : Nat) (noKey noSignature : ε)
    (message : Bytes → UInt8 → Bytes → μ) (publicKeyLen : UInt8) (data : Bytes) :
  checkedKeys i noKey noSignature message publicKeyLen data
    = some (
      if data.length < i + publicKeyLen.toNat + 1 then .error noKey
      else if data.length < i + 1 + publicKeyLen.toNat
          + ((data.drop (i + publicKeyLen.toNat)).headD 0).toNat then .error noSignature
      else .ok (message ((data.drop i).take publicKeyLen.toNat)
        ((data.drop (i + publicKeyLen.toNat)).headD 0)
        ((data.drop (i + 1 + publicKeyLen.toNat)).take
          ((data.drop (i + publicKeyLen.toNat)).headD 0).toNat)))
  := by
  have hshift : i + publicKeyLen.toNat + 1 = i + 1 + publicKeyLen.toNat := by omega
  unfold checkedKeys
  dsimp only
  by_cases hkey : data.length < i + publicKeyLen.toNat + 1
  · rw [if_pos hkey, if_pos hkey]
  · rw [if_neg hkey, if_neg hkey, slice_eq_some (by omega) (by omega),
      getElem?_eq_headD (by omega), Option.bind_some, Option.bind_some, hshift]
    split
    · rfl
    · rw [slice_eq_some (by omega) (by omega)]
      simp

/-- The listener does not read beyond the end of a message. -/
theorem checkedInitiator_eq (data : Bytes) :
  checkedInitiator data = some (parseInitiatorHandshakeMessage data)
  := by
  unfold checkedInitiator parseInitiatorHandshakeMessage
  by_cases hshort : data.length < minInitiatorHandshakeLen
  · rw [if_pos hshort, if_pos hshort]
  · rw [if_neg hshort, if_neg hshort]
    rw [minInitiatorHandshakeLen] at hshort
    simp only [getElem?_eq_headD (show 0 < data.length by omega),
      getElem?_eq_headD (show 67 < data.length by omega),
      slice_eq_some (show 1 ≤ 33 by decide) (show 33 ≤ data.length by omega),
      slice_eq_some (show 33 ≤ 35 by decide) (show 35 ≤ data.length by omega),
      slice_eq_some (show 35 ≤ 67 by decide) (show 67 ≤ data.length by omega),
      Option.bind_some, checkedKeys_eq]
    rfl

/-- The dialer does not read beyond the end of a message. -/
theorem checkedResponder_eq (data : Bytes) :
  checkedResponder data = some (parseResponderHandshakeMessage data)
  := by
  unfold checkedResponder parseResponderHandshakeMessage
  by_cases hshort : data.length < responderPayloadLen
  · rw [if_pos hshort, if_pos hshort]
  · rw [if_neg hshort, if_neg hshort]
    rw [responderPayloadLen] at hshort
    simp only [getElem?_eq_headD (show 0 < data.length by omega),
      getElem?_eq_headD (show 51 < data.length by omega),
      getElem?_eq_headD (show 52 < data.length by omega),
      getElem?_eq_headD (show 53 < data.length by omega),
      slice_eq_some (show 1 ≤ 33 by decide) (show 33 ≤ data.length by omega),
      slice_eq_some (show 33 ≤ 35 by decide) (show 35 ≤ data.length by omega),
      slice_eq_some (show 35 ≤ 39 by decide) (show 39 ≤ data.length by omega),
      slice_eq_some (show 39 ≤ 43 by decide) (show 43 ≤ data.length by omega),
      slice_eq_some (show 43 ≤ 47 by decide) (show 47 ≤ data.length by omega),
      slice_eq_some (show 47 ≤ 51 by decide) (show 51 ≤ data.length by omega),
      Option.bind_some, checkedKeys_eq]
    rfl

/-! ### Keys and signatures inside the message -/

/-- After `n` bytes of a message come a public key, the length of a signature, and the signature. -/
structure KeysInside (n : Nat) (data publicKey signature : Bytes)
    (publicKeyLen signatureLen : Nat) : Prop where
  fixed : n ≤ data.length
  key : publicKey.length = publicKeyLen
  sig : signature.length = signatureLen
  inside : data.take n ++ publicKey ++ [UInt8.ofNat signatureLen] ++ signature <+: data

theorem keysInside_of_le {n k m : Nat} (hm : ((data.drop (n + k)).headD 0).toNat = m)
    (hle : n + 1 + k + m ≤ data.length) :
  KeysInside n data ((data.drop n).take k) ((data.drop (n + 1 + k)).take m) k m
  := by
  have hshift : n + 1 + k = n + k + 1 := by omega
  have hbyte : [UInt8.ofNat m] = (data.drop (n + k)).take 1 := by
    have hlt : n + k < data.length := by omega
    rw [List.drop_eq_getElem_cons hlt] at hm ⊢
    rw [← hm]
    simp only [List.headD_cons, UInt8.ofNat_toNat, List.take_succ_cons, List.take_zero]
  constructor
  case fixed => omega
  case key =>
    rw [List.length_take, List.length_drop]
    omega
  case sig =>
    rw [List.length_take, List.length_drop]
    omega
  case inside =>
    rw [hbyte, hshift, ← List.take_add, ← List.take_add, ← List.take_add]
    apply List.take_prefix

theorem eq_ofBytes_of_parseInitiator {msg : InitiatorHandshakeMessage}
    (h : parseInitiatorHandshakeMessage data = .ok msg) :
  msg = .ofBytes data ∧ 69 + publicKeyLen data + msg.signatureLen ≤ data.length
  := by
  unfold parseInitiatorHandshakeMessage at h
  split_ifs at h with hshort hkey hsig
  obtain rfl := Except.ok.inj h
  exact ⟨rfl, Nat.not_lt.mp hsig⟩

theorem eq_ofBytes_of_parseResponder {msg : ResponderHandshakeMessage}
    (h : parseResponderHandshakeMessage data = .ok msg) :
  msg = .ofBytes data ∧ 55 + responderKeyLen data + msg.signatureLen ≤ data.length
  := by
  unfold parseResponderHandshakeMessage at h
  split_ifs at h with hshort hkey hsig
  obtain rfl := Except.ok.inj h
  exact ⟨rfl, Nat.not_lt.mp hsig⟩

/-! ### What the signature covers -/

theorem headD_drop_take {k : Nat} (hi : i < k) :
  ((data.take k).drop i).headD 0 = (data.drop i).headD 0
  := by
  rw [List.drop_take, List.headD_eq_head?_getD, List.headD_eq_head?_getD, List.head?_take,
    if_neg (by omega)]

/-- But for its signature, the message of an initiator is that of the part that is signed. -/
theorem ofBytes_eq_signedData (data : Bytes) :
  ofBytes data
    = { ofBytes (signedData data) with
        signatureLen := (ofBytes data).signatureLen
        signature := (ofBytes data).signature }
  := by
  have hlen : publicKeyLen (signedData data) = publicKeyLen data := by
    rw [publicKeyLen, signedData, headD_drop_take (by omega)]
    rfl
  have hversion : (signedData data).headD 0 = data.headD 0 :=
    headD_drop_take (i := 0) (by omega)
  have hfield : ∀ i n, i + n ≤ 68 + publicKeyLen data →
      ((signedData data).drop i).take n = (data.drop i).take n :=
    fun i n h => take_drop_of_take h
  simp only [ofBytes, hlen, hversion]
  rw [hfield 1 32 (by omega), hfield 33 2 (by omega), hfield 35 32 (by omega),
    hfield 68 _ (by omega)]

/-- The part of the message of a responder that its signature covers. -/
def responderSignedData (data : Bytes) : Bytes :=
  data.take (54 + responderKeyLen data)

/-- But for its signature, the message of a responder is that of the part that is signed. -/
theorem ofBytes_eq_responderSignedData (data : Bytes) :
  ResponderHandshakeMessage.ofBytes data
    = { ResponderHandshakeMessage.ofBytes (responderSignedData data) with
        signatureLen := (ResponderHandshakeMessage.ofBytes data).signatureLen
        signature := (ResponderHandshakeMessage.ofBytes data).signature }
  := by
  have hbyte : ∀ i, i < 54 + responderKeyLen data →
      ((responderSignedData data).drop i).headD 0 = (data.drop i).headD 0 :=
    fun i h => headD_drop_take h
  have hlen : responderKeyLen (responderSignedData data) = responderKeyLen data := by
    rw [responderKeyLen, hbyte 53 (by omega)]
    rfl
  have hversion : (responderSignedData data).headD 0 = data.headD 0 :=
    hbyte 0 (by omega)
  have hfield : ∀ i n, i + n ≤ 54 + responderKeyLen data →
      ((responderSignedData data).drop i).take n = (data.drop i).take n :=
    fun i n h => take_drop_of_take h
  simp only [ResponderHandshakeMessage.ofBytes, hlen, hversion]
  rw [hfield 1 32 (by omega), hfield 33 2 (by omega), hfield 35 4 (by omega),
    hfield 39 4 (by omega), hfield 43 4 (by omega), hfield 47 4 (by omega),
    hfield 54 _ (by omega), hbyte 51 (by omega), hbyte 52 (by omega)]

/-! ### Round trips -/

section

variable {κ : Type} (K : Keys κ)

/-- The message of an initiator, with its length. -/
def initiatorPacket (priv : κ) (sessionID : Bytes) (nonce : Nat) (random : Bytes) : Bytes :=
  let payload := buildInitiatorHandshake (K.sign priv) sessionID nonce random (K.publicKey priv)
  bigEndian 2 payload.length ++ payload

/-- What an initiator says in its message. -/
def initiatorMessage (priv : κ) (sessionID : Bytes) (nonce : Nat) (random : Bytes) :
    InitiatorHandshakeMessage where
  protocolVersion := protocolVersion
  sessionID := sessionID
  nonce := nonce
  random := random
  publicKeyLen := publicKeySize
  publicKey := K.publicKey priv
  signatureLen := signatureSize
  signature := K.sign priv (initiatorSignedMessage sessionID nonce random (K.publicKey priv))

variable (priv : κ) {sessionID random : Bytes} (nonce : Nat)

theorem drop_initiatorPacket :
  (initiatorPacket K priv sessionID nonce random).drop 2
    = buildInitiatorHandshake (K.sign priv) sessionID nonce random (K.publicKey priv)
  := by
  rw [initiatorPacket]
  apply List.drop_left' (length_bigEndian _ _)

section

variable (hid : sessionID.length = 32) (hrandom : random.length = 32)

include hid hrandom

theorem length_initiatorSignedMessage :
  (initiatorSignedMessage sessionID nonce random (K.publicKey priv)).length = 100
  := by
  simp [initiatorSignedMessage, hid, hrandom, K.length_publicKey, publicKeySize]

theorem publicKeyLen_initiatorPacket :
  publicKeyLen ((initiatorPacket K priv sessionID nonce random).drop 2) = publicKeySize
  := by
  rw [drop_initiatorPacket]
  simp [publicKeyLen, buildInitiatorHandshake, initiatorSignedMessage, List.drop_append, hid,
    hrandom, K.length_publicKey, publicKeySize]

/-- The signature of an initiator covers what a listener checks it for. -/
theorem signedData_initiatorPacket :
  signedData ((initiatorPacket K priv sessionID nonce random).drop 2)
    = initiatorSignedMessage sessionID nonce random (K.publicKey priv)
  := by
  rw [signedData, publicKeyLen_initiatorPacket K priv nonce hid hrandom, drop_initiatorPacket,
    buildInitiatorHandshake, List.append_assoc]
  apply List.take_left'
  apply length_initiatorSignedMessage K priv nonce hid hrandom

theorem length_initiatorPacket :
  ((initiatorPacket K priv sessionID nonce random).drop 2).length = minInitiatorHandshakeLen
  := by
  rw [drop_initiatorPacket, buildInitiatorHandshake, List.length_append, List.length_append,
    length_initiatorSignedMessage K priv nonce hid hrandom, K.length_sign]
  rfl

theorem ofBytes_initiatorPacket (hnonce : nonce < 2 ^ 16) :
  ofBytes ((initiatorPacket K priv sessionID nonce random).drop 2)
    = initiatorMessage K priv sessionID nonce random
  := by
  have hnonce : ofBigEndian (bigEndian 2 nonce) = nonce := ofBigEndian_bigEndian hnonce
  rw [ofBytes, publicKeyLen_initiatorPacket K priv nonce hid hrandom,
    drop_initiatorPacket]
  simp [initiatorMessage, buildInitiatorHandshake, initiatorSignedMessage, List.drop_append,
    List.drop_eq_nil_of_le, hid, hrandom, K.length_publicKey, K.length_sign, publicKeySize,
    signatureSize, hnonce, K.take_sign]

/-- A listener parses the message of an initiator. -/
theorem parse_initiatorPacket (hnonce : nonce < 2 ^ 16) :
  parseInitiatorHandshakeMessage ((initiatorPacket K priv sessionID nonce random).drop 2)
    = .ok (initiatorMessage K priv sessionID nonce random)
  := by
  have hsigLen : ((((initiatorPacket K priv sessionID nonce random).drop 2).drop
      (68 + publicKeySize)).headD 0).toNat = signatureSize := by
    have hmessage := ofBytes_initiatorPacket K priv nonce hid hrandom hnonce
    have hfield := congrArg signatureLen hmessage
    rwa [ofBytes, publicKeyLen_initiatorPacket K priv nonce hid hrandom]
      at hfield
  rw [parseInitiatorHandshakeMessage, length_initiatorPacket K priv nonce hid hrandom,
    publicKeyLen_initiatorPacket K priv nonce hid hrandom, hsigLen,
    ofBytes_initiatorPacket K priv nonce hid hrandom hnonce]
  rfl

end

/-- The identifier of a session that has the length of one is written as it is. -/
theorem copied_of_length {n : Nat} {b : Bytes} (h : b.length = n) :
  copied n b = b
  := by
  rw [copied, h, Nat.sub_self, List.replicate_zero, List.append_nil]
  apply List.take_of_length_le (Nat.le_of_eq h)

/-- Handshake messages, with public keys of 32 bytes and signatures of 64 bytes.

The message of an initiator and the answer of a listener are parsed into what they were built
from, and each signature covers exactly what the other side verifies it for.  The parsers never
read beyond the end of what they are given.  If they succeed, the public key and the signature lie
in it, and everything but the signature and its length depends on the signed part alone. -/
theorem handshakes_read_as_written :
  (∀ priv sessionID nonce random, sessionID.length = 32 → random.length = 32 → nonce < 2 ^ 16 →
      parseInitiatorHandshakeMessage ((initiatorPacket K priv sessionID nonce random).drop 2)
          = .ok (initiatorMessage K priv sessionID nonce random)
        ∧ ((initiatorPacket K priv sessionID nonce random).drop 2).take
            (68 + (initiatorMessage K priv sessionID nonce random).publicKeyLen)
          = initiatorSignedMessage sessionID nonce random (K.publicKey priv))
    ∧ (∀ (ln : Listener) sid nonce priv request, ln.config.Words → sid.length = 32 →
      nonce < 2 ^ 16 →
      parseResponderHandshakeMessage ((ln.buildResponderHandshake K sid nonce priv request).drop 2)
          = .ok (ln.message K sid nonce priv request)
        ∧ (ln.message K sid nonce priv request).sessionID = sid
        ∧ ((ln.buildResponderHandshake K sid nonce priv request).drop 2).take
            (54 + (ln.message K sid nonce priv request).publicKeyLen)
          = ln.responderFields sid nonce (K.publicKey priv))
    ∧ (∀ data, checkedInitiator data = some (parseInitiatorHandshakeMessage data)
      ∧ ∀ msg, parseInitiatorHandshakeMessage data = .ok msg →
        KeysInside 68 data msg.publicKey msg.signature msg.publicKeyLen msg.signatureLen
          ∧ ∀ data' msg', parseInitiatorHandshakeMessage data' = .ok msg' →
            data'.take (68 + msg'.publicKeyLen) = data.take (68 + msg.publicKeyLen) →
            msg' = { msg with signatureLen := msg'.signatureLen, signature := msg'.signature })
    ∧ ∀ data, checkedResponder data = some (parseResponderHandshakeMessage data)
      ∧ ∀ msg, parseResponderHandshakeMessage data = .ok msg →
        KeysInside 54 data msg.publicKey msg.signature msg.publicKeyLen msg.signatureLen
          ∧ ∀ data' msg', parseResponderHandshakeMessage data' = .ok msg' →
            data'.take (54 + msg'.publicKeyLen) = data.take (54 + msg.publicKeyLen) →
            msg' = { msg with signatureLen := msg'.signatureLen, signature := msg'.signature }
  := by
  refine ⟨?_, ?_, ?_, ?_⟩
  · intro priv sessionID nonce random hid hrandom hnonce
    refine ⟨parse_initiatorPacket K priv nonce hid hrandom hnonce, ?_⟩
    have hsigned := signedData_initiatorPacket K priv nonce hid hrandom
    rwa [signedData, publicKeyLen_initiatorPacket K priv nonce hid hrandom] at hsigned
  · intro ln sid nonce priv request hw hsid hnonce
    have hdrop : (ln.buildResponderHandshake K sid nonce priv request).drop 2
        = ln.responderPayload K sid nonce priv request := by
      rw [Listener.buildResponderHandshake]
      apply List.drop_left' (length_bigEndian _ _)
    rw [hdrop]
    refine ⟨parse_responderPayload K ln sid nonce priv request hnonce hw, ?_, ?_⟩
    · exact copied_of_length hsid
    · have hfields := take_responderPayload K ln sid nonce priv request
      rwa [K.length_publicKey] at hfields
  · intro data
    refine ⟨checkedInitiator_eq data, ?_⟩
    intro msg hmsg
    obtain ⟨rfl, hle⟩ := eq_ofBytes_of_parseInitiator hmsg
    refine ⟨keysInside_of_le rfl hle, ?_⟩
    intro data' msg' hmsg' hsigned
    obtain ⟨rfl, -⟩ := eq_ofBytes_of_parseInitiator hmsg'
    have hsigned : signedData data' = signedData data := hsigned
    rw [ofBytes_eq_signedData data', ofBytes_eq_signedData data, hsigned]
  · intro data
    refine ⟨checkedResponder_eq data, ?_⟩
    intro msg hmsg
    obtain ⟨rfl, hle⟩ := eq_ofBytes_of_parseResponder hmsg
    refine ⟨keysInside_of_le rfl hle, ?_⟩
    intro data' msg' hmsg' hsigned
    obtain ⟨rfl, -⟩ := eq_ofBytes_of_parseResponder hmsg'
    have hsigned : responderSignedData data' = responderSignedData data := hsigned
    rw [ofBytes_eq_responderSignedData data', ofBytes_eq_responderSignedData data, hsigned]

end

/-- A request for a new session and the answer of a listener to it are parsed. -/
theorem handshakes_read_as_written_exchange :
  parseInitiatorHandshakeMessage
      ((initiatorPacket sumKeys 3 (List.replicate 32 0) 0 (List.replicate 32 5)).drop 2)
    = .ok (initiatorMessage sumKeys 3 (List.replicate 32 0) 0 (List.replicate 32 5))
    ∧ parseResponderHandshakeMessage (((listen none).buildResponderHandshake sumKeys
        (List.replicate 32 8) 0 7 sumRequest).drop 2)
      = .ok ((listen none).message sumKeys (List.replicate 32 8) 0 7 sumRequest)
    ∧ ((listen none).message sumKeys (List.replicate 32 8) 0 7 sumRequest).sessionID
      = List.replicate 32 8
  := by
  obtain ⟨hinitiator, hresponder, -⟩ := handshakes_read_as_written sumKeys
  obtain ⟨hanswer, hsid, -⟩ := hresponder (listen none) (List.replicate 32 8) 0 7 sumRequest
    ⟨by decide, by decide, by decide⟩ List.length_replicate (by decide)
  refine ⟨?_, hanswer, hsid⟩
  exact (hinitiator 3 _ 0 _ List.length_replicate List.length_replicate (by decide)).1

end Muxocket
