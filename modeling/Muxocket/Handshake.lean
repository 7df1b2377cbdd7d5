import Muxocket.Frame
import Muxocket.Lib.BigEndian

/-!
# Handshake messages

The message by which an initiator asks for a session, or for the resumption of one.  Its
signature covers everything before it: the version of the protocol, the identifier of the
session, the nonce, a random string and the public key.
-/

namespace Muxocket

/-- The version of the protocol. -/
def protocolVersion : UInt8 := 1

/-- The least length of the message of an initiator. -/
def minInitiatorHandshakeLen : Nat := 165

/-- The greatest length of a handshake message. -/
def maxHandshakeLen : Nat := 512

/-- The length of a public key. -/
def publicKeySize : Nat := 32

/-- The message of an initiator. -/
structure InitiatorHandshakeMessage where
  protocolVersion : UInt8
  sessionID : Bytes
  nonce : Nat
  random : Bytes
  publicKeyLen : Nat
  publicKey : Bytes
  signatureLen : Nat
  signature : Bytes
deriving DecidableEq, Repr

/-- Why a handshake fails. -/
inductive HandshakeError where
  | tooShort
  | tooLong
  | malformedHandshake
  | publicKeyOutOfBounds
  | signatureOutOfBounds
  | protocolVersionMismatch
  | resumptionDisabled
  | sessionNotFound
  | invalidNonce
  | invalidPublicKey
  | invalidSignature
  | nonceOfNewSession
  | publicKeySize
  | connection
deriving DecidableEq, Repr

/-- Whether an identifier stands for no session. -/
def isZeroID (id : Bytes) : Bool :=
  id.all fun b => b == 0

/-- The length of the public key in the message of an initiator. -/
def publicKeyLen (data : Bytes) : Nat :=
  ((data.drop 67).headD 0).toNat

/-- The part of the message of an initiator that its signature covers. -/
def signedData (data : Bytes) : Bytes :=
  data.take (68 + publicKeyLen data)

/-- The fields of the message of an initiator, each at its place. -/
def InitiatorHandshakeMessage.ofBytes (data : Bytes) : InitiatorHandshakeMessage where
  protocolVersion := data.headD 0
  sessionID := (data.drop 1).take 32
  nonce := ofBigEndian ((data.drop 33).take 2)
  random := (data.drop 35).take 32
  publicKeyLen := Muxocket.publicKeyLen data
  publicKey := (data.drop 68).take (Muxocket.publicKeyLen data)
  signatureLen := ((data.drop (68 + Muxocket.publicKeyLen data)).headD 0).toNat
  signature := (data.drop (69 + Muxocket.publicKeyLen data)).take
    ((data.drop (68 + Muxocket.publicKeyLen data)).headD 0).toNat

/-- Parse the message of an initiator. -/
def parseInitiatorHandshakeMessage (data : Bytes) :
    Except HandshakeError InitiatorHandshakeMessage :=
  if data.length < minInitiatorHandshakeLen then .error .malformedHandshake
  else if data.length < 68 + publicKeyLen data + 1 then .error .publicKeyOutOfBounds
  else if data.length
      < 69 + publicKeyLen data + ((data.drop (68 + publicKeyLen data)).headD 0).toNat then
    .error .signatureOutOfBounds
  else .ok (.ofBytes data)

/-- What an initiator signs. -/
def initiatorSignedMessage (sessionID : Bytes) (nonce : Nat) (random publicKey : Bytes) : Bytes :=
  [protocolVersion] ++ sessionID ++ bigEndian 2 nonce ++ random
    ++ [UInt8.ofNat publicKey.length] ++ publicKey

/-- The message of an initiator, without its length. -/
def buildInitiatorHandshake (sign : Bytes → Bytes) (sessionID : Bytes) (nonce : Nat)
    (random publicKey : Bytes) : Bytes :=
  let signed := initiatorSignedMessage sessionID nonce random publicKey
  signed ++ [UInt8.ofNat (sign signed).length] ++ sign signed

/-! ### What is signed has the fields of the message -/

theorem take_drop_of_take {data : Bytes} {i n k : Nat} (hk : i + n ≤ k) :
  ((data.take k).drop i).take n = (data.drop i).take n
  := by
  rw [List.drop_take, List.take_take, Nat.min_eq_left (by omega)]

/-- The signed part of a message has its identifier and its nonce. -/
theorem ofBytes_signedData (data : Bytes) :
  (InitiatorHandshakeMessage.ofBytes (signedData data)).sessionID
      = (InitiatorHandshakeMessage.ofBytes data).sessionID
    ∧ (InitiatorHandshakeMessage.ofBytes (signedData data)).nonce
      = (InitiatorHandshakeMessage.ofBytes data).nonce
  := by
  constructor
  · apply take_drop_of_take
    omega
  · simp only [InitiatorHandshakeMessage.ofBytes, signedData]
    rw [take_drop_of_take (by omega)]

section

variable {sessionID random publicKey : Bytes} {nonce : Nat}

/-- What an initiator signs has its identifier. -/
theorem sessionID_initiatorSignedMessage (hid : sessionID.length = 32) :
  (InitiatorHandshakeMessage.ofBytes
    (initiatorSignedMessage sessionID nonce random publicKey)).sessionID = sessionID
  := by
  simp [InitiatorHandshakeMessage.ofBytes, initiatorSignedMessage, ← hid]

/-- What an initiator signs has its nonce. -/
theorem nonce_initiatorSignedMessage (hid : sessionID.length = 32) (hnonce : nonce < 2 ^ 16) :
  (InitiatorHandshakeMessage.ofBytes
    (initiatorSignedMessage sessionID nonce random publicKey)).nonce = nonce
  := by
  have hdrop : (initiatorSignedMessage sessionID nonce random publicKey).drop 33
      = bigEndian 2 nonce ++ (random ++ [UInt8.ofNat publicKey.length] ++ publicKey) := by
    simp [initiatorSignedMessage, ← hid]
  rw [InitiatorHandshakeMessage.ofBytes]
  dsimp only
  rw [hdrop, List.take_append_of_le_length (by simp), List.take_of_length_le (by simp),
    ofBigEndian_bigEndian (by simpa using hnonce)]

/-- The message of an initiator has its public key. -/
theorem publicKey_buildInitiatorHandshake (sign : Bytes → Bytes) (hid : sessionID.length = 32)
    (hrandom : random.length = 32) (hkey : publicKey.length = publicKeySize) :
  (InitiatorHandshakeMessage.ofBytes
    (buildInitiatorHandshake sign sessionID nonce random publicKey)).publicKey = publicKey
  := by
  have hdrop : (buildInitiatorHandshake sign sessionID nonce random publicKey).drop 67
      = UInt8.ofNat publicKey.length :: (publicKey
        ++ ([UInt8.ofNat (sign (initiatorSignedMessage sessionID nonce random publicKey)).length]
          ++ sign (initiatorSignedMessage sessionID nonce random publicKey))) := by
    have hfront : ([protocolVersion] ++ sessionID ++ bigEndian 2 nonce ++ random).length = 67 := by
      simp [hid, hrandom]
    rw [← hfront, buildInitiatorHandshake]
    simp only [initiatorSignedMessage, List.append_assoc]
    simp [← List.append_assoc]
  have hlen : publicKeyLen (buildInitiatorHandshake sign sessionID nonce random publicKey)
      = publicKey.length := by
    rw [publicKeyLen, hdrop, hkey]
    rfl
  rw [InitiatorHandshakeMessage.ofBytes]
  dsimp only
  rw [hlen, ← List.drop_drop (i := 1) (j := 67), hdrop]
  simp

end

end Muxocket
