import Muxocket.Config
import Muxocket.Handshake
import Muxocket.Lib.Reader

/-!
# The negotiation of a session

The listener decides the parameters of a session and advertises them in its answer to the
request of a dialer.  The dialer checks the answer, adopts the parameters in a copy of its own
settings, and both sides start a session.

The listener advertises its settings as they are, before a session puts defaults in the place
of what is not set.  Whether it offers resumption is a flag of the listener, not of its
settings.
-/

namespace Muxocket

/-- The length of a signature. -/
def signatureSize : Nat := 64

/-- The least length of the message of a responder. -/
def responderPayloadLen : Nat := 151

/-- The greatest number that fits a signed 32-bit integer. -/
def maxInt32 : Nat := 2147483647

/-- The greatest length of a datagram. -/
def maxUDPPayload : Nat := 65535

/-- What the hash of a request begins with. -/
def transcriptLabel : Bytes :=
  ("muxocket/v2 responder transcript".toList.map fun c => UInt8.ofNat c.toNat) ++ [0]

/-- What the packages for cryptography provide: the public key of a private key, signatures,
and a hash. -/
structure Keys (κ : Type) where
  publicKey : κ → Bytes
  sign : κ → Bytes → Bytes
  verify : Bytes → Bytes → Bytes → Bool
  hash : Bytes → Bytes
  length_publicKey : ∀ priv, (publicKey priv).length = publicKeySize
  length_sign : ∀ priv message, (sign priv message).length = signatureSize
  verify_sign : ∀ priv message, verify (publicKey priv) message (sign priv message) = true

theorem Keys.take_sign {κ : Type} (K : Keys κ) (priv : κ) (message : Bytes) :
  (K.sign priv message).take 64 = K.sign priv message
  := by
  apply List.take_of_length_le
  rw [K.length_sign, signatureSize]

/-- The message of a responder. -/
structure ResponderHandshakeMessage where
  protocolVersion : UInt8
  sessionID : Bytes
  nonce : Nat
  initialStreamWindow : Nat
  initialSessionWindow : Nat
  windowUpdateRatio : Nat
  maxFrameDataLen : Nat
  reliability : Bool
  allowConnectionResumption : Bool
  publicKeyLen : Nat
  publicKey : Bytes
  signatureLen : Nat
  signature : Bytes
deriving DecidableEq, Repr

/-- Why a dialer does not get a session. -/
inductive DialError where
  | connection
  | invalidLength (length : Nat)
  | tooShort
  | publicKeyOutOfBounds
  | signatureOutOfBounds
  | protocolVersionMismatch
  | malformedHandshake
  | invalidSignature
  | invalidNonce
  | sessionIDMismatch
  | maxFrameDataSize (length : Nat)
  | windowSizes
deriving DecidableEq, Repr

/-! ### The listener -/

/-- A listener, with the settings it was given.  `allowConnectionResumption` is a setting of
the listener itself.  The maximal size of a datagram is 0 if the transport is a stream. -/
structure Listener where
  sessionConfig : Option Config
  allowConnectionResumption : Bool
  mtu : Nat
deriving DecidableEq, Repr

/-- Listen on a stream transport. -/
def listen (config : Option Config) : Listener where
  sessionConfig := some (config.getD defaultConfig)
  allowConnectionResumption := true
  mtu := 0

/-- The settings of a listener on a datagram transport: a frame must fit a datagram. -/
def Config.clamp (mtu : Nat) (c : Config) : Config :=
  if c.maxFrameDataSize = 0 ∨ mtu - 17 < c.maxFrameDataSize then
    { c with maxFrameDataSize := mtu - 17 }
  else c

/-- Listen on a datagram transport, unless the maximal size of a datagram is out of range. -/
def listenPacket (mtu : Int) (config : Option Config) : Option Listener :=
  if mtu < 64 ∨ 65535 < mtu ∨ maxAllocSize < mtu then none
  else some
    { sessionConfig := some ((config.getD defaultConfig).clamp mtu.toNat)
      allowConnectionResumption := true
      mtu := mtu.toNat }

/-- The settings of the sessions of a listener. -/
def Listener.config (ln : Listener) : Config :=
  ln.sessionConfig.getD defaultConfig

/-- The settings of the session a listener starts. -/
def Listener.newSession (ln : Listener) : SessionConfig :=
  ln.config.newSession

/-- The first bytes of a string, with zeros where it is too short. -/
def copied (n : Nat) (b : Bytes) : Bytes :=
  b.take n ++ List.replicate (n - b.length) 0

/-- A flag in a message. -/
def flagByte (b : Bool) : UInt8 :=
  if b then 1 else 0

/-- The fields of the answer of a listener that its signature covers. -/
def Listener.responderFields (ln : Listener) (sid : Bytes) (nonce : Nat) (pub : Bytes) : Bytes :=
  [protocolVersion] ++ copied 32 sid ++ bigEndian 2 nonce
    ++ bigEndian 4 ln.config.initialStreamWindow ++ bigEndian 4 ln.config.initialSessionWindow
    ++ bigEndian 4 defaultWindowUpdateRatio.toNat ++ bigEndian 4 ln.config.maxFrameDataSize
    ++ [flagByte ln.config.reliability] ++ [flagByte ln.allowConnectionResumption]
    ++ [UInt8.ofNat pub.length] ++ pub

section

variable {κ : Type} (K : Keys κ)

/-- What a responder signs: its own fields, and a hash of the request. -/
def responderSignedMessage (responderFields initiatorPayload : Bytes) : Bytes :=
  responderFields ++ K.hash (transcriptLabel ++ initiatorPayload)

/-- The answer of a listener, without its length. -/
def Listener.responderPayload (ln : Listener) (sid : Bytes) (nonce : Nat) (priv : κ)
    (initiatorPayload : Bytes) : Bytes :=
  let fields := ln.responderFields sid nonce (K.publicKey priv)
  let sig := K.sign priv (responderSignedMessage K fields initiatorPayload)
  fields ++ [UInt8.ofNat sig.length] ++ sig

/-- The answer of a listener. -/
def Listener.buildResponderHandshake (ln : Listener) (sid : Bytes) (nonce : Nat) (priv : κ)
    (initiatorPayload : Bytes) : Bytes :=
  let payload := ln.responderPayload K sid nonce priv initiatorPayload
  bigEndian 2 payload.length ++ payload

/-! ### The dialer -/

/-- The length of the public key in the message of a responder. -/
def responderKeyLen (data : Bytes) : Nat :=
  ((data.drop 53).headD 0).toNat

/-- The length of the signature in the message of a responder. -/
def responderSignatureLen (data : Bytes) : Nat :=
  ((data.drop (54 + responderKeyLen data)).headD 0).toNat

/-- The fields of the message of a responder, each at its place. -/
def ResponderHandshakeMessage.ofBytes (data : Bytes) : ResponderHandshakeMessage where
  protocolVersion := data.headD 0
  sessionID := (data.drop 1).take 32
  nonce := ofBigEndian ((data.drop 33).take 2)
  initialStreamWindow := ofBigEndian ((data.drop 35).take 4)
  initialSessionWindow := ofBigEndian ((data.drop 39).take 4)
  windowUpdateRatio := ofBigEndian ((data.drop 43).take 4)
  maxFrameDataLen := ofBigEndian ((data.drop 47).take 4)
  reliability := (data.drop 51).headD 0 == 1
  allowConnectionResumption := (data.drop 52).headD 0 == 1
  publicKeyLen := responderKeyLen data
  publicKey := (data.drop 54).take (responderKeyLen data)
  signatureLen := responderSignatureLen data
  signature := (data.drop (55 + responderKeyLen data)).take (responderSignatureLen data)

/-- Parse the message of a responder. -/
def parseResponderHandshakeMessage (data : Bytes) : Except DialError ResponderHandshakeMessage :=
  if data.length < responderPayloadLen then .error .tooShort
  else if data.length < 54 + responderKeyLen data + 1 then .error .publicKeyOutOfBounds
  else if data.length < 55 + responderKeyLen data + responderSignatureLen data then
    .error .signatureOutOfBounds
  else .ok (.ofBytes data)

/-- Check the message of a responder to a request, for the session `sid` with `nonce`. -/
def checkResponder (sid : Bytes) (nonce : Nat) (request respBuf : Bytes)
    (resp : ResponderHandshakeMessage) : Except DialError ResponderHandshakeMessage :=
  if resp.protocolVersion ≠ protocolVersion then .error .protocolVersionMismatch
  else if resp.publicKey.length ≠ publicKeySize ∨ resp.signature.length ≠ signatureSize then
    .error .malformedHandshake
  else if ¬ K.verify resp.publicKey
      (responderSignedMessage K (respBuf.take (54 + resp.publicKeyLen)) request)
      resp.signature then
    .error .invalidSignature
  else if nonce ≠ 0 ∧ resp.nonce ≠ nonce then .error .invalidNonce
  else if ¬ isZeroID sid ∧ resp.sessionID ≠ sid then .error .sessionIDMismatch
  else .ok resp

/-- What a dialer makes of the answer to its request, which comes in pieces. -/
def initiatorExchange (sid : Bytes) (nonce : Nat) (request : Bytes) (pieces : List Bytes) :
    Except DialError ResponderHandshakeMessage :=
  match readFull 2 pieces with
  | none => .error .connection
  | some (lenBuf, rest) =>
      let respLen := ofBigEndian lenBuf
      if respLen < responderPayloadLen ∨ maxHandshakeLen < respLen then
        .error (.invalidLength respLen)
      else
        match readFull respLen rest with
        | none => .error .connection
        | some (respBuf, _) =>
            match parseResponderHandshakeMessage respBuf with
            | .error e => .error e
            | .ok resp => checkResponder K sid nonce request respBuf resp

end

/-- The settings of a dialer with the parameters a listener has advertised. -/
def negotiatedConfig (own : Config) (resp : ResponderHandshakeMessage) : Except DialError Config :=
  if resp.maxFrameDataLen = 0 ∨ maxAllocSize < resp.maxFrameDataLen then
    .error (.maxFrameDataSize resp.maxFrameDataLen)
  else if resp.initialStreamWindow = 0 ∨ maxInt32 < resp.initialStreamWindow
      ∨ maxInt32 < resp.initialSessionWindow then
    .error .windowSizes
  else .ok { own with
    initialStreamWindow := resp.initialStreamWindow
    initialSessionWindow := resp.initialSessionWindow
    maxFrameDataSize := resp.maxFrameDataLen
    reliability := resp.reliability
    allowConnectionResumption :=
      own.allowConnectionResumption && resp.allowConnectionResumption }

/-- What a dialer starts: a session, and the greatest datagram it sends if the transport is a
datagram transport. -/
structure Dialed where
  session : SessionConfig
  maxOut : Nat

/-- The session with some settings, and datagrams that have room for the greatest frame. -/
def Config.dialed (c : Config) : Dialed where
  session := c.newSession
  maxOut := min (c.maxFrameDataSize + 17) maxUDPPayload

/-- What a dialer starts when it has got the answer to its request for a new session. -/
def dial {κ : Type} (K : Keys κ) (own : Option Config) (request : Bytes) (pieces : List Bytes) :
    Except DialError Dialed :=
  match initiatorExchange K (List.replicate 32 0) 0 request pieces with
  | .error e => .error e
  | .ok resp =>
      if resp.nonce ≠ 0 then .error .invalidNonce
      else (negotiatedConfig (own.getD defaultConfig) resp).map Config.dialed

/-! ### The answer of a listener is read as it was written -/

@[simp]
theorem length_copied (n : Nat) (b : Bytes) :
  (copied n b).length = n
  := by
  simp only [copied, List.length_append, List.length_take, List.length_replicate]
  omega

@[simp]
theorem flagByte_eq_one (b : Bool) :
  (flagByte b == 1) = b
  := by
  cases b <;> rfl

/-- The numbers a listener advertises fit 32 bits, as those of the settings do. -/
structure Config.Words (c : Config) : Prop where
  stream : c.initialStreamWindow < 2 ^ 32
  session : c.initialSessionWindow < 2 ^ 32
  frame : c.maxFrameDataSize < 2 ^ 32

section

variable {κ : Type} (K : Keys κ) (ln : Listener) (sid : Bytes) (nonce : Nat) (priv : κ)
  (request : Bytes)

/-- What a listener says in its answer. -/
def Listener.message : ResponderHandshakeMessage where
  protocolVersion := protocolVersion
  sessionID := copied 32 sid
  nonce := nonce
  initialStreamWindow := ln.config.initialStreamWindow
  initialSessionWindow := ln.config.initialSessionWindow
  windowUpdateRatio := defaultWindowUpdateRatio.toNat
  maxFrameDataLen := ln.config.maxFrameDataSize
  reliability := ln.config.reliability
  allowConnectionResumption := ln.allowConnectionResumption
  publicKeyLen := publicKeySize
  publicKey := K.publicKey priv
  signatureLen := signatureSize
  signature := K.sign priv
    (responderSignedMessage K (ln.responderFields sid nonce (K.publicKey priv)) request)

@[simp]
theorem length_responderFields :
  (ln.responderFields sid nonce (K.publicKey priv)).length = 86
  := by
  simp [Listener.responderFields, K.length_publicKey, publicKeySize]

@[simp]
theorem length_responderPayload :
  (ln.responderPayload K sid nonce priv request).length = responderPayloadLen
  := by
  simp [Listener.responderPayload, K.length_sign, signatureSize, responderPayloadLen]

theorem responderKeyLen_responderPayload :
  responderKeyLen (ln.responderPayload K sid nonce priv request) = publicKeySize
  := by
  simp [responderKeyLen, Listener.responderPayload, Listener.responderFields, List.drop_append,
    K.length_publicKey, publicKeySize]

theorem responderSignatureLen_responderPayload :
  responderSignatureLen (ln.responderPayload K sid nonce priv request) = signatureSize
  := by
  rw [responderSignatureLen, responderKeyLen_responderPayload]
  simp [Listener.responderPayload, K.length_sign, publicKeySize, signatureSize]

theorem ofBytes_responderPayload (hnonce : nonce < 2 ^ 16) (hw : ln.config.Words) :
  ResponderHandshakeMessage.ofBytes (ln.responderPayload K sid nonce priv request)
    = ln.message K sid nonce priv request
  := by
  have hword : ∀ {x : Nat}, x < 2 ^ 32 → ofBigEndian (bigEndian 4 x) = x := by
    intro x hx
    apply ofBigEndian_bigEndian hx
  have hratio := hword (x := defaultWindowUpdateRatio.toNat) (by decide)
  have hnonce : ofBigEndian (bigEndian 2 nonce) = nonce := ofBigEndian_bigEndian hnonce
  rw [ResponderHandshakeMessage.ofBytes, responderKeyLen_responderPayload,
    responderSignatureLen_responderPayload]
  simp [Listener.message, Listener.responderPayload, Listener.responderFields, List.drop_append,
    List.drop_eq_nil_of_le, K.length_publicKey, K.length_sign, publicKeySize, signatureSize,
    hword hw.stream, hword hw.session, hword hw.frame, hratio, hnonce, K.take_sign]

/-- A dialer parses the answer of a listener. -/
theorem parse_responderPayload (hnonce : nonce < 2 ^ 16) (hw : ln.config.Words) :
  parseResponderHandshakeMessage (ln.responderPayload K sid nonce priv request)
    = .ok (ln.message K sid nonce priv request)
  := by
  rw [parseResponderHandshakeMessage, responderKeyLen_responderPayload,
    responderSignatureLen_responderPayload, length_responderPayload,
    ofBytes_responderPayload K ln sid nonce priv request hnonce hw]
  rfl

/-- The signature of a listener covers the fields of its answer. -/
theorem take_responderPayload :
  (ln.responderPayload K sid nonce priv request).take (54 + (K.publicKey priv).length)
    = ln.responderFields sid nonce (K.publicKey priv)
  := by
  rw [Listener.responderPayload, List.append_assoc, List.take_append_of_le_length]
  · apply List.take_of_length_le
    simp [K.length_publicKey, publicKeySize]
  · simp [K.length_publicKey, publicKeySize]

/-- A dialer finds nothing wrong with the answer of a listener to its own request. -/
theorem checkResponder_message :
  checkResponder K (List.replicate 32 0) 0 request (ln.responderPayload K sid nonce priv request)
      (ln.message K sid nonce priv request)
    = .ok (ln.message K sid nonce priv request)
  := by
  have hzero : isZeroID (List.replicate 32 0) = true := by
    decide
  have hfields := take_responderPayload K ln sid nonce priv request
  simp only [checkResponder, Listener.message, K.length_publicKey, K.length_sign, hzero]
  rw [← K.length_publicKey priv, hfields, K.verify_sign]
  simp

variable {pieces : List Bytes} {rest : Bytes}

/-- However the answer of a listener is cut into pieces, a dialer reads it as it was written. -/
theorem initiatorExchange_answer (hnonce : nonce < 2 ^ 16) (hw : ln.config.Words)
    (hpieces : pieces.flatten = ln.buildResponderHandshake K sid nonce priv request ++ rest) :
  initiatorExchange K (List.replicate 32 0) 0 request pieces
    = .ok (ln.message K sid nonce priv request)
  := by
  have hlength := length_responderPayload K ln sid nonce priv request
  have hsplit : pieces.flatten = bigEndian 2 responderPayloadLen
      ++ (ln.responderPayload K sid nonce priv request ++ rest) := by
    rw [hpieces, Listener.buildResponderHandshake, hlength, List.append_assoc]
  obtain ⟨tail, hread, htail⟩ := readFull_of_le 2 pieces (by simp [hsplit])
  have hfirst : pieces.flatten.take 2 = bigEndian 2 responderPayloadLen := by
    simp [hsplit]
  have htail : tail.flatten = ln.responderPayload K sid nonce priv request ++ rest := by
    simp [htail, hsplit]
  obtain ⟨left, hread', -⟩ := readFull_of_le responderPayloadLen tail (by simp [htail])
  have hbody : tail.flatten.take responderPayloadLen
      = ln.responderPayload K sid nonce priv request := by
    rw [htail, ← hlength, List.take_left]
  have hlen : ofBigEndian (bigEndian 2 responderPayloadLen) = responderPayloadLen := by
    apply ofBigEndian_bigEndian
    decide
  rw [hfirst] at hread
  rw [hbody] at hread'
  simp only [initiatorExchange, hread, hlen, hread',
    parse_responderPayload K ln sid nonce priv request hnonce hw]
  rw [if_neg (by decide)]
  apply checkResponder_message

/-- A dialer gets a session with the parameters the listener has advertised, if it can work
with them. -/
theorem dial_answer (own : Option Config) (hw : ln.config.Words)
    (hpieces : pieces.flatten = ln.buildResponderHandshake K sid 0 priv request ++ rest) :
  dial K own request pieces
    = (negotiatedConfig (own.getD defaultConfig) (ln.message K sid 0 priv request)).map
      Config.dialed
  := by
  rw [dial, initiatorExchange_answer K ln sid 0 priv request (by decide) hw hpieces]
  rfl

end

/-! ### The parameters of the two sessions -/

/-- Two sessions work with the same parameters. -/
structure SessionConfig.SameParameters (c c' : SessionConfig) : Prop where
  stream : c'.initialStreamWindow = c.initialStreamWindow
  session : c'.initialSessionWindow = c.initialSessionWindow
  frame : c'.maxFrameDataSize = c.maxFrameDataSize
  reliability : c'.reliability = c.reliability

instance (c c' : SessionConfig) : Decidable (c.SameParameters c') :=
  decidable_of_iff
    (c'.initialStreamWindow = c.initialStreamWindow
      ∧ c'.initialSessionWindow = c.initialSessionWindow
      ∧ c'.maxFrameDataSize = c.maxFrameDataSize ∧ c'.reliability = c.reliability)
    ⟨fun h => ⟨h.1, h.2.1, h.2.2.1, h.2.2.2⟩, fun h => ⟨h.1, h.2, h.3, h.4⟩⟩

variable {κ : Type} {K : Keys κ} {ln : Listener} {sid request : Bytes} {priv : κ}

/-- A dialer that gets a session has the parameters of the listener's session, and allows
resumption if it and the listener do. -/
theorem sameParameters_of_negotiatedConfig {own c : Config}
    (hc : negotiatedConfig own (ln.message K sid 0 priv request) = .ok c) :
  ln.newSession.SameParameters c.newSession
    ∧ c.newSession.allowConnectionResumption
      = (own.allowConnectionResumption && ln.allowConnectionResumption)
  := by
  unfold negotiatedConfig at hc
  split at hc
  · contradiction
  · split at hc
    · contradiction
    · obtain rfl := Except.ok.inj hc
      exact ⟨⟨rfl, rfl, rfl, rfl⟩, rfl⟩

/-- A dialer that gets a session has settings it could work with. -/
theorem negotiatedConfig_of_dial (hw : ln.config.Words) {own : Option Config} {pieces : List Bytes}
    {rest : Bytes}
    (hpieces : pieces.flatten = ln.buildResponderHandshake K sid 0 priv request ++ rest)
    {d : Dialed} (hdial : dial K own request pieces = .ok d) :
  ∃ c, negotiatedConfig (own.getD defaultConfig) (ln.message K sid 0 priv request) = .ok c
    ∧ d = c.dialed
  := by
  rw [dial_answer K ln sid priv request own hw hpieces] at hdial
  cases hc : negotiatedConfig (own.getD defaultConfig) (ln.message K sid 0 priv request) with
  | error e =>
      rw [hc] at hdial
      contradiction
  | ok c =>
      rw [hc] at hdial
      exact ⟨c, rfl, (Except.ok.inj hdial).symm⟩

/-- The session of a dialer has the parameters of the listener's, and allows resumption only if
the listener's does, just in case the settings of the listener allow it or the dialer and the
listener do not both. -/
theorem negotiated_iff {κ : Type} (K : Keys κ) (ln : Listener) (hw : ln.config.Words)
    (own : Option Config) (sid request : Bytes) (priv : κ) (pieces : List Bytes) (rest : Bytes)
    (hpieces : pieces.flatten = ln.buildResponderHandshake K sid 0 priv request ++ rest)
    (d : Dialed) (hdial : dial K own request pieces = .ok d) :
  (ln.newSession.SameParameters d.session
      ∧ (d.session.allowConnectionResumption = true →
        ln.newSession.allowConnectionResumption = true))
    ↔ ((own.getD defaultConfig).allowConnectionResumption = true →
        ln.allowConnectionResumption = true → ln.config.allowConnectionResumption = true)
  := by
  obtain ⟨c, hc, rfl⟩ := negotiatedConfig_of_dial hw hpieces hdial
  obtain ⟨hsame, hallow⟩ := sameParameters_of_negotiatedConfig hc
  have hown : ln.newSession.allowConnectionResumption = ln.config.allowConnectionResumption := rfl
  have hsession : c.dialed.session = c.newSession := rfl
  rw [hsession, hallow, hown, Bool.and_eq_true, and_imp]
  constructor
  · intro h
    apply h.2
  · intro h
    exact ⟨hsame, h⟩

/-- Keys of one byte, that sign by adding up. -/
def sumKeys : Keys UInt8 where
  publicKey b := List.replicate publicKeySize b
  sign b message := List.replicate signatureSize (message.foldl (· + ·) b)
  verify pub message sig :=
    sig == List.replicate signatureSize (message.foldl (· + ·) (pub.headD 0))
  hash message := List.replicate 32 (message.foldl (· + ·) 0)
  length_publicKey _ := List.length_replicate
  length_sign _ _ := List.length_replicate
  verify_sign b _ := by
    simp [publicKeySize, List.replicate_succ]

/-- The request of a dialer for a new session. -/
def sumRequest : Bytes :=
  buildInitiatorHandshake (sumKeys.sign 3) (List.replicate 32 0) 0 (List.replicate 32 5)
    (sumKeys.publicKey 3)

/-- Settings that allow resumption. -/
def resumableConfig : Config :=
  { defaultConfig with allowConnectionResumption := true }

/-- Both sides allow resumption. -/
theorem negotiated_iff_both :
  (listen resumableConfig).newSession.SameParameters resumableConfig.newSession
    ∧ (resumableConfig.newSession.allowConnectionResumption = true →
      (listen resumableConfig).newSession.allowConnectionResumption = true)
  := by
  have hpieces : [(listen resumableConfig).buildResponderHandshake sumKeys
        (List.replicate 32 8) 0 7 sumRequest].flatten
      = (listen resumableConfig).buildResponderHandshake sumKeys
        (List.replicate 32 8) 0 7 sumRequest ++ [] := by
    simp
  have hw : (listen resumableConfig).config.Words := ⟨by decide, by decide, by decide⟩
  have hdial := dial_answer sumKeys _ _ _ _ resumableConfig hw hpieces
  apply (negotiated_iff sumKeys _ hw resumableConfig _ _ _ _ _ hpieces _ hdial).2
  intro _ _
  rfl

/-- A listener that was given no settings offers resumption, but its session will not wait for
it as that of the dialer does. -/
theorem resumption_one_sided :
  ∃ d, dial sumKeys resumableConfig sumRequest
      [(listen none).buildResponderHandshake sumKeys (List.replicate 32 8) 0 7 sumRequest] = .ok d
    ∧ d.session.allowConnectionResumption = true
    ∧ (listen none).newSession.allowConnectionResumption = false
  := by
  have hpieces : [(listen none).buildResponderHandshake sumKeys
        (List.replicate 32 8) 0 7 sumRequest].flatten
      = (listen none).buildResponderHandshake sumKeys (List.replicate 32 8) 0 7 sumRequest
        ++ [] := by
    simp
  have hw : (listen none).config.Words := ⟨by decide, by decide, by decide⟩
  have hdial := dial_answer sumKeys _ _ _ _ resumableConfig hw hpieces
  exact ⟨resumableConfig.dialed, hdial, rfl, rfl⟩

end Muxocket
