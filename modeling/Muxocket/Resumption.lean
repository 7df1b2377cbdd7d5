import Mathlib.Data.UInt
import Mathlib.Data.List.Nodup
import Muxocket.Handshake
import Muxocket.Lib.Run

/-!
# The resumption of sessions

A listener runs any number of handshakes at once, each in a goroutine of its own.  The first
message of a dialer asks for a new session; later ones, with the identifier of the session and
a nonce, ask for its resumption.  What is kept for a session is the public key of its
initiator and the greatest nonce that has been accepted, which a handshake loads and replaces
by a compare-and-swap.

Everything that anybody has signed is kept as history.  A dialer signs requests for its own
session, with the nonces of its counter; the holders of other keys sign what they like.
Anybody may send any message to the listener.
-/

namespace Muxocket

open Function

namespace Resumption

/-- The signatures: what the holder of a public key signs a message with, and whether a
signature of a message is valid for a public key. -/
structure Scheme where
  sign : Bytes → Bytes → Bytes
  verify : Bytes → Bytes → Bytes → Bool

/-- What a listener keeps for a session. -/
structure ActiveSession where
  id : Bytes := []
  initiatorPublicKey : Bytes := []
  nonce : Nat := 0
  closed : Bool := false

/-- Where a handshake is.

* `waiting`: there is no connection yet;
* `received raw`: has read the message;
* `resuming raw`: is about to look up the session;
* `found raw h`: has found the session;
* `checked raw h`: has found the nonce to be greater than that of the session;
* `swapping raw h`: has verified the key and the signature, and is about to load the nonce;
* `loaded raw h cur`: has loaded the nonce `cur`, and is about to compare and swap;
* `accepted raw h`: has replaced the nonce, and is about to answer;
* `answered raw h`: has answered, and is about to hand the connection to the session;
* `resumed raw h`: is done;
* `fresh raw`: the message asks for a new session;
* `starting raw`: has verified the signature, and is about to choose an identifier;
* `answering n`: has chosen the `n`-th identifier, and is about to answer;
* `saving n`: has answered, and is about to save the session;
* `started h`: is done;
* `failed e`: has failed. -/
inductive Handshake where
  | waiting
  | received (raw : Bytes)
  | resuming (raw : Bytes)
  | found (raw : Bytes) (h : Nat)
  | checked (raw : Bytes) (h : Nat)
  | swapping (raw : Bytes) (h : Nat)
  | loaded (raw : Bytes) (h cur : Nat)
  | accepted (raw : Bytes) (h : Nat)
  | answered (raw : Bytes) (h : Nat)
  | resumed (raw : Bytes) (h : Nat)
  | fresh (raw : Bytes)
  | starting (raw : Bytes)
  | answering (n : Nat)
  | saving (n : Nat)
  | started (h : Nat)
  | failed (e : HandshakeError)
deriving DecidableEq, Repr

/-- A dialer, with the message by which it asked for its session.  As history we count its
attempts to resume the session. -/
structure Dialer where
  publicKey : Bytes := []
  request : Bytes := []
  sessionID : Option Bytes := none
  nonce : Nat := 0
  busy : Bool := false
  attempts : Nat := 0

/-- A listener with its handshakes, and the dialers.  `sessions` counts the sessions that were
started and `dialers` the dialers; `table` is the listener's table of sessions.  As history we
keep the identifiers that were chosen, each with the message it was chosen for, which of them
were sent in an answer, what was signed, and the requests that were accepted with their
sessions, in the order of their compare-and-swap. -/
structure State where
  allowConnectionResumption : Bool := true
  session : Nat → ActiveSession := fun _ => {}
  sessions : Nat := 0
  table : Bytes → Option Nat := fun _ => none
  handshake : Nat → Handshake := fun _ => .waiting
  issued : List (Bytes × Bytes) := []
  answers : List Nat := []
  dialer : Nat → Dialer := fun _ => {}
  dialers : Nat := 0
  signed : List (Bytes × Bytes) := []
  accepted : List (Nat × Bytes) := []

/-- What a handshake meets in its next step: nothing, a connection that fails, or an identifier
from the source of random bytes. -/
inductive Choice where
  | go
  | connFails
  | randomID (sid : Bytes)
deriving DecidableEq, Repr

/-- What can happen. -/
inductive Event where
  | arrive (i : Nat) (raw : Bytes)
  | advance (i : Nat) (c : Choice)
  | close (h : Nat)
  | forget (h : Nat)
  | dial (publicKey random : Bytes)
  | establish (j n : Nat)
  | attempt (j : Nat) (random : Bytes)
  | finish (j : Nat)
  | sign (publicKey message : Bytes)

/-- The identifier of a message for a new session. -/
def zeroID : Bytes := List.replicate 32 0

/-- Whether a nonce is accepted by a session whose nonce is `cur`. -/
def validNonce (cur nonce : Nat) : Bool :=
  decide (cur < nonce ∧ nonce ≠ 0)

/-- The identifier in a message. -/
def sessionIDOf (raw : Bytes) : Bytes :=
  (InitiatorHandshakeMessage.ofBytes raw).sessionID

/-- The nonce in a message. -/
def nonceOf (raw : Bytes) : Nat :=
  (InitiatorHandshakeMessage.ofBytes raw).nonce

/-- The public key in a message. -/
def publicKeyOf (raw : Bytes) : Bytes :=
  (InitiatorHandshakeMessage.ofBytes raw).publicKey

/-- Whether a public key has signed a message. -/
def Scheme.verifies (S : Scheme) (publicKey raw : Bytes) : Bool :=
  S.verify publicKey (signedData raw) (InitiatorHandshakeMessage.ofBytes raw).signature

namespace State

/-- A handshake goes on. -/
def setHandshake (i : Nat) (p : Handshake) (s : State) : State :=
  { s with handshake := update s.handshake i p }

/-- Change what is kept for a session. -/
def setSession (h : Nat) (a : ActiveSession) (s : State) : State :=
  { s with session := update s.session h a }

/-- Change a dialer. -/
def setDialer (j : Nat) (d : Dialer) (s : State) : State :=
  { s with dialer := update s.dialer j d }

/-- The session that is found for an identifier. -/
def getSession (sid : Bytes) (s : State) : Option Nat :=
  (s.table sid).filter fun h => !(s.session h).closed

/-- Which way a message goes that has been read. -/
def dispatch (raw : Bytes) (s : State) : Handshake :=
  if raw.length < minInitiatorHandshakeLen then .failed .tooShort
  else if maxHandshakeLen < raw.length then .failed .tooLong
  else
    match parseInitiatorHandshakeMessage raw with
    | .error e => .failed e
    | .ok m =>
        if m.protocolVersion ≠ protocolVersion then .failed .protocolVersionMismatch
        else if isZeroID m.sessionID then .fresh raw
        else if s.allowConnectionResumption then .resuming raw
        else .failed .resumptionDisabled

/-- Check the key and the signature of a request for resumption. -/
def checkKey (S : Scheme) (raw : Bytes) (h : Nat) (s : State) : Handshake :=
  if (publicKeyOf raw).length ≠ publicKeySize
      ∨ publicKeyOf raw ≠ (s.session h).initiatorPublicKey then
    .failed .invalidPublicKey
  else if S.verifies (s.session h).initiatorPublicKey raw then .swapping raw h
  else .failed .invalidSignature

/-- Check a request for a new session. -/
def checkFresh (S : Scheme) (raw : Bytes) : Handshake :=
  if nonceOf raw ≠ 0 then .failed .nonceOfNewSession
  else if (publicKeyOf raw).length ≠ publicKeySize then .failed .publicKeySize
  else if S.verifies (publicKeyOf raw) raw then .starting raw
  else .failed .invalidSignature

/-- Accept a request for the resumption of a session. -/
def accept (i : Nat) (raw : Bytes) (h : Nat) (s : State) : State :=
  { s with
    session := update s.session h { s.session h with nonce := nonceOf raw }
    accepted := s.accepted ++ [(h, raw)]
    handshake := update s.handshake i (.accepted raw h) }

/-- Compare the nonce of a session with the one that was loaded, and replace it. -/
def compareAndSwap (i : Nat) (raw : Bytes) (h cur : Nat) (s : State) : State :=
  if (s.session h).nonce = cur then s.accept i raw h
  else s.setHandshake i (.swapping raw h)

/-- Save the session with an identifier that was chosen for a message. -/
def saveSession (i : Nat) (x : Bytes × Bytes) (s : State) : State :=
  { s with
    session := update s.session s.sessions
      { id := x.1, initiatorPublicKey := publicKeyOf x.2, nonce := 0, closed := false }
    sessions := s.sessions + 1
    table := update s.table x.1 (some s.sessions) }.setHandshake i (.started s.sessions)

/-- A step of a handshake. -/
def advance (S : Scheme) (i : Nat) (c : Choice) (s : State) : Option State :=
  match s.handshake i, c with
  | .received raw, .go => some (s.setHandshake i (s.dispatch raw))
  | .resuming raw, .go =>
      some (s.setHandshake i
        (match s.getSession (sessionIDOf raw) with
        | some h => .found raw h
        | none => .failed .sessionNotFound))
  | .found raw h, .go =>
      some (s.setHandshake i
        (if validNonce (s.session h).nonce (nonceOf raw) then .checked raw h
        else .failed .invalidNonce))
  | .checked raw h, .go => some (s.setHandshake i (s.checkKey S raw h))
  | .swapping raw h, .go =>
      some (s.setHandshake i
        (if nonceOf raw ≤ (s.session h).nonce then .failed .invalidNonce
        else .loaded raw h (s.session h).nonce))
  | .loaded raw h cur, .go => some (s.compareAndSwap i raw h cur)
  | .accepted raw h, .go => some (s.setHandshake i (.answered raw h))
  | .accepted _ _, .connFails => some (s.setHandshake i (.failed .connection))
  | .answered raw h, .go => some (s.setHandshake i (.resumed raw h))
  | .fresh raw, .go => some (s.setHandshake i (checkFresh S raw))
  | .starting raw, .randomID sid =>
      some ({ s with issued := s.issued ++ [(sid, raw)] }.setHandshake i
        (.answering s.issued.length))
  | .answering n, .go => some ({ s with answers := s.answers ++ [n] }.setHandshake i (.saving n))
  | .answering _, .connFails => some (s.setHandshake i (.failed .connection))
  | .saving n, .go => (s.issued[n]?).map fun x => s.saveSession i x
  | _, _ => none

/-- A dialer makes an attempt to resume its session. -/
def attempt (j : Nat) (random : Bytes) (s : State) : Option State :=
  let d := s.dialer j
  match d.sessionID with
  | none => none
  | some sid =>
      if d.busy ∨ random.length ≠ 32 then none
      else
        let next := (d.nonce + 1) % 2 ^ 32
        if 65535 < next then
          some (s.setDialer j { d with nonce := next, attempts := d.attempts + 1 })
        else
          some ({ s with
            signed := s.signed
              ++ [(d.publicKey, initiatorSignedMessage sid next random d.publicKey)] }.setDialer j
            { d with nonce := next, attempts := d.attempts + 1, busy := true })

/-- What becomes of a listener and the dialers by an event, if it can happen. -/
def step (S : Scheme) (s : State) : Event → Option State
  | .arrive i raw =>
      if s.handshake i = .waiting then some (s.setHandshake i (.received raw)) else none
  | .advance i c => s.advance S i c
  | .close h =>
      if h < s.sessions then some (s.setSession h { s.session h with closed := true }) else none
  | .forget h =>
      if (s.session h).closed ∧ s.table (s.session h).id = some h then
        some { s with table := update s.table (s.session h).id none }
      else none
  | .dial publicKey random =>
      if publicKey.length = publicKeySize ∧ random.length = 32 then
        some ({ s with
          dialers := s.dialers + 1
          signed := s.signed
            ++ [(publicKey, initiatorSignedMessage zeroID 0 random publicKey)] }.setDialer s.dialers
          { publicKey := publicKey
            request := buildInitiatorHandshake (S.sign publicKey) zeroID 0 random publicKey })
      else none
  | .establish j n =>
      (s.issued[n]?).bind fun x =>
        if j < s.dialers ∧ (s.dialer j).sessionID = none ∧ n ∈ s.answers
            ∧ x.2 = (s.dialer j).request then
          some (s.setDialer j { s.dialer j with sessionID := some x.1 })
        else none
  | .attempt j random => if j < s.dialers then s.attempt j random else none
  | .finish j =>
      if j < s.dialers ∧ (s.dialer j).busy then
        some (s.setDialer j { s.dialer j with busy := false })
      else none
  | .sign publicKey message => some { s with signed := s.signed ++ [(publicKey, message)] }

/-- An event of a run in which nobody forges a signature of a key, random identifiers and
requests do not repeat, and the keys in `honest` are used by dialers only. -/
def Fair (S : Scheme) (honest : Bytes → Bool) (s : State) : Event → Prop
  | .advance i .go =>
      match s.handshake i with
      | .checked raw h =>
          S.verifies (s.session h).initiatorPublicKey raw = true →
            ((s.session h).initiatorPublicKey, signedData raw) ∈ s.signed
      | _ => True
  | .advance _ (.randomID sid) => sid.length = 32 ∧ ∀ x ∈ s.issued, x.1 ≠ sid
  | .dial publicKey random =>
      ∀ j < s.dialers,
        (s.dialer j).request ≠ buildInitiatorHandshake (S.sign publicKey) zeroID 0 random publicKey
  | .sign publicKey _ => honest publicKey = false
  | _ => True

instance (S : Scheme) (honest : Bytes → Bool) (s : State) (a : Event) :
    Decidable (s.Fair S honest a) := by
  unfold Fair
  split
  · split <;> infer_instance
  all_goals infer_instance

/-! ### Handshakes -/

/-- A request names the session that was found for it. -/
def Names (s : State) (raw : Bytes) (h : Nat) : Prop :=
  h < s.sessions ∧ (s.session h).id = sessionIDOf raw

/-- A request names its session, and is signed by the initiator of the session. -/
def Signed (s : State) (raw : Bytes) (h : Nat) : Prop :=
  s.Names raw h ∧ ((s.session h).initiatorPublicKey, signedData raw) ∈ s.signed

end State

/-- What is known of a request, by where its handshake is. -/
def Handshake.Ok (s : State) : Handshake → Prop
  | .found raw h => s.Names raw h
  | .checked raw h => s.Names raw h
  | .swapping raw h => s.Signed raw h
  | .loaded raw h cur => s.Signed raw h ∧ cur < nonceOf raw
  | _ => True

/-- The identifier that a handshake has chosen and not yet used. -/
def Handshake.issues : Handshake → Option Nat
  | .answering n => some n
  | .saving n => some n
  | _ => none

namespace State

variable {S : Scheme} {honest : Bytes → Bool} {s s' : State}

/-- The table of a listener leads to sessions with the identifier. -/
def TableOk (s : State) : Prop :=
  ∀ sid h, s.table sid = some h → h < s.sessions ∧ (s.session h).id = sid

variable {h i j : Nat} {raw : Bytes} {p : Handshake}

/-- What a step of a handshake does: it goes on to where it may be, accepts a request, chooses
an identifier, answers, or saves a session. -/
theorem advance_cases (honest : Bytes → Bool) {c : Choice} (hstep : s.advance S i c = some s') :
  (∃ p, s' = s.setHandshake i p ∧ p.issues = none
      ∧ (s.TableOk → s.Fair S honest (.advance i c) → (s.handshake i).Ok s → p.Ok s))
    ∨ (∃ raw h cur, s.handshake i = .loaded raw h cur ∧ (s.session h).nonce = cur
      ∧ s' = s.accept i raw h)
    ∨ (∃ raw sid, c = .randomID sid
      ∧ s' = { s with issued := s.issued ++ [(sid, raw)] }.setHandshake i
        (.answering s.issued.length))
    ∨ (∃ n, s.handshake i = .answering n
      ∧ s' = { s with answers := s.answers ++ [n] }.setHandshake i (.saving n))
    ∨ (∃ n x, s.handshake i = .saving n ∧ s.issued[n]? = some x ∧ s' = s.saveSession i x)
  := by
  unfold advance at hstep
  split at hstep
  · rename_i raw hi
    cases hstep
    refine .inl ⟨_, rfl, ?_⟩
    unfold dispatch
    repeat' split
    all_goals exact ⟨rfl, fun _ _ _ => trivial⟩
  · rename_i raw hi
    cases hstep
    refine .inl ⟨_, rfl, ?_⟩
    split
    · rename_i h hget
      refine ⟨rfl, fun htable _ _ => ?_⟩
      obtain ⟨hsome, -⟩ := Option.filter_eq_some_iff.mp hget
      exact htable _ h hsome
    · exact ⟨rfl, fun _ _ _ => trivial⟩
  · rename_i raw h hi
    cases hstep
    refine .inl ⟨_, rfl, ?_⟩
    split
    · refine ⟨rfl, fun _ _ hok => ?_⟩
      rwa [hi] at hok
    · exact ⟨rfl, fun _ _ _ => trivial⟩
  · rename_i raw h hi
    cases hstep
    refine .inl ⟨_, rfl, ?_⟩
    unfold checkKey
    split
    · exact ⟨rfl, fun _ _ _ => trivial⟩
    split
    · rename_i hverifies
      refine ⟨rfl, fun _ hfair hok => ?_⟩
      rw [Fair, hi] at hfair
      rw [hi] at hok
      exact ⟨hok, hfair hverifies⟩
    · exact ⟨rfl, fun _ _ _ => trivial⟩
  · rename_i raw h hi
    cases hstep
    refine .inl ⟨_, rfl, ?_⟩
    split
    · exact ⟨rfl, fun _ _ _ => trivial⟩
    · rename_i hlt
      refine ⟨rfl, fun _ _ hok => ?_⟩
      rw [hi] at hok
      exact ⟨hok, by omega⟩
  · rename_i raw h cur hi
    cases hstep
    unfold compareAndSwap
    split
    · rename_i hcur
      exact .inr (.inl ⟨raw, h, cur, hi, hcur, rfl⟩)
    · refine .inl ⟨_, rfl, rfl, fun _ _ hok => ?_⟩
      rw [hi] at hok
      exact hok.1
  · cases hstep
    exact .inl ⟨_, rfl, rfl, fun _ _ _ => trivial⟩
  · cases hstep
    exact .inl ⟨_, rfl, rfl, fun _ _ _ => trivial⟩
  · cases hstep
    exact .inl ⟨_, rfl, rfl, fun _ _ _ => trivial⟩
  · cases hstep
    refine .inl ⟨_, rfl, ?_⟩
    unfold checkFresh
    repeat' split
    all_goals exact ⟨rfl, fun _ _ _ => trivial⟩
  · rename_i raw sid hi
    cases hstep
    exact .inr (.inr (.inl ⟨raw, sid, rfl, rfl⟩))
  · rename_i n hi
    cases hstep
    exact .inr (.inr (.inr (.inl ⟨n, hi, rfl⟩)))
  · cases hstep
    exact .inl ⟨_, rfl, rfl, fun _ _ _ => trivial⟩
  · rename_i n hi
    obtain ⟨x, hx, rfl⟩ := Option.map_eq_some_iff.mp hstep
    exact .inr (.inr (.inr (.inr ⟨n, x, hi, hx, rfl⟩)))
  · contradiction

/-! ### The sessions of a listener -/

/-- Sessions keep their identifiers and keys, and what has been signed stays signed. -/
structure Grows (s s' : State) : Prop where
  sessions : s.sessions ≤ s'.sessions
  session : ∀ h < s.sessions, (s'.session h).id = (s.session h).id
    ∧ (s'.session h).initiatorPublicKey = (s.session h).initiatorPublicKey
  signed : s.signed ⊆ s'.signed

/-- A session keeps its identifier and its key when its nonce changes or when it is closed. -/
theorem session_update {a : ActiveSession} (hid : a.id = (s.session h).id)
    (hkey : a.initiatorPublicKey = (s.session h).initiatorPublicKey) :
  ∀ k, (update s.session h a k).id = (s.session k).id
    ∧ (update s.session h a k).initiatorPublicKey = (s.session k).initiatorPublicKey
  := (forall_update_iff s.session fun k b => b.id = (s.session k).id
    ∧ b.initiatorPublicKey = (s.session k).initiatorPublicKey).mpr
    ⟨⟨hid, hkey⟩, fun _ _ => ⟨rfl, rfl⟩⟩

theorem Names.grows (hnames : s.Names raw h) (hgrows : s.Grows s') :
  s'.Names raw h
  := by
  obtain ⟨hh, hid⟩ := hnames
  exact ⟨lt_of_lt_of_le hh hgrows.sessions, (hgrows.session h hh).1.trans hid⟩

theorem Signed.grows (hsigned : s.Signed raw h) (hgrows : s.Grows s') :
  s'.Signed raw h
  := by
  obtain ⟨hnames, hmem⟩ := hsigned
  refine ⟨hnames.grows hgrows, ?_⟩
  rw [(hgrows.session h hnames.1).2]
  exact hgrows.signed hmem

theorem ok_grows (hok : p.Ok s) (hgrows : s.Grows s') :
  p.Ok s'
  := by
  cases p with
  | found raw h | checked raw h => exact State.Names.grows hok hgrows
  | swapping raw h => exact State.Signed.grows hok hgrows
  | loaded raw h cur => exact ⟨hok.1.grows hgrows, hok.2⟩
  | _ => trivial

/-- The identifiers of a listener: no two of them are the same, the table leads to sessions
with the identifier, and every session has an identifier that was chosen for the message whose
key it has.  The identifier that a handshake has chosen and not yet used is not that of a
session, nor that of another handshake. -/
structure Listed (s : State) : Prop where
  issued : (s.issued.map Prod.fst).Nodup
  length : ∀ x ∈ s.issued, x.1.length = 32
  table : s.TableOk
  origin : ∀ h < s.sessions, ∃ raw, ((s.session h).id, raw) ∈ s.issued
    ∧ (s.session h).initiatorPublicKey = publicKeyOf raw
  ids : ∀ h < s.sessions, ∀ k < s.sessions, (s.session h).id = (s.session k).id → h = k
  unused : ∀ i n, (s.handshake i).issues = some n → n < s.issued.length
    ∧ (∀ x, s.issued[n]? = some x → ∀ h < s.sessions, (s.session h).id ≠ x.1)
    ∧ ∀ k, (s.handshake k).issues = some n → k = i

/-- The sessions and the identifiers are as they were. -/
structure SameList (s s' : State) : Prop where
  sessions : s'.sessions = s.sessions
  session : ∀ h, (s'.session h).id = (s.session h).id
    ∧ (s'.session h).initiatorPublicKey = (s.session h).initiatorPublicKey
  issued : s'.issued = s.issued
  table : ∀ sid h, s'.table sid = some h → s.table sid = some h
  unused : ∀ i n, (s'.handshake i).issues = some n → (s.handshake i).issues = some n

theorem Listed.same (hs : s.Listed) (hsame : s.SameList s') :
  s'.Listed
  where
  issued := by
    rw [hsame.issued]
    exact hs.issued
  length := by
    rw [hsame.issued]
    exact hs.length
  table sid h hget := by
    rw [hsame.sessions, (hsame.session h).1]
    exact hs.table sid h (hsame.table sid h hget)
  origin h hh := by
    rw [hsame.sessions] at hh
    rw [(hsame.session h).1, (hsame.session h).2, hsame.issued]
    exact hs.origin h hh
  ids h hh k hk heq := by
    rw [hsame.sessions] at hh hk
    rw [(hsame.session h).1, (hsame.session k).1] at heq
    exact hs.ids h hh k hk heq
  unused i n hn := by
    obtain ⟨hlt, hunused, hone⟩ := hs.unused i n (hsame.unused i n hn)
    rw [hsame.issued, hsame.sessions]
    refine ⟨hlt, fun x hx h hh => ?_, fun k hk => hone k (hsame.unused k n hk)⟩
    rw [(hsame.session h).1]
    exact hunused x hx h hh

theorem sameList_setHandshake (hp : ∀ n, p.issues = some n → (s.handshake i).issues = some n) :
  s.SameList (s.setHandshake i p)
  where
  sessions := rfl
  session _ := ⟨rfl, rfl⟩
  issued := rfl
  table _ _ h := h
  unused := (forall_update_iff s.handshake fun k q =>
    ∀ n, q.issues = some n → (s.handshake k).issues = some n).mpr ⟨hp, fun _ _ _ hn => hn⟩

/-- Choose an identifier that was not chosen before. -/
theorem Listed.choose (hs : s.Listed) {sid : Bytes} (hlen : sid.length = 32)
    (hfresh : ∀ x ∈ s.issued, x.1 ≠ sid) :
  ({ s with issued := s.issued ++ [(sid, raw)] }.setHandshake i
    (.answering s.issued.length)).Listed
  where
  issued := by
    simp only [setHandshake, List.map_append, List.map_cons, List.map_nil]
    apply List.Nodup.append hs.issued (List.nodup_singleton sid)
    intro id hid hmem
    obtain ⟨x, hx, rfl⟩ := List.mem_map.mp hid
    exact hfresh x hx (List.mem_singleton.mp hmem)
  length x hx := by
    rcases List.mem_append.mp hx with hx | hx
    · exact hs.length x hx
    · obtain rfl := List.mem_singleton.mp hx
      exact hlen
  table := hs.table
  origin h hh := by
    obtain ⟨raw', hmem, hkey⟩ := hs.origin h hh
    exact ⟨raw', List.mem_append_left _ hmem, hkey⟩
  ids := hs.ids
  unused k n hn := by
    have hsession : ∀ h < s.sessions, (s.session h).id ≠ sid := by
      intro h hh
      obtain ⟨raw', hmem, -⟩ := hs.origin h hh
      exact hfresh _ hmem
    have hold : ∀ k n, k ≠ i → (({ s with issued := s.issued ++ [(sid, raw)] }.setHandshake i
        (.answering s.issued.length)).handshake k).issues = some n →
        (s.handshake k).issues = some n := by
      intro k n hk hn
      simpa [setHandshake, hk] using hn
    have hnew : ∀ n, (({ s with issued := s.issued ++ [(sid, raw)] }.setHandshake i
        (.answering s.issued.length)).handshake i).issues = some n → n = s.issued.length := by
      intro n hn
      simp only [setHandshake, update_self, Handshake.issues, Option.some.injEq] at hn
      exact hn.symm
    simp only [setHandshake, List.length_append, List.length_singleton]
    by_cases hk : k = i
    · subst hk
      obtain rfl := hnew n hn
      refine ⟨by omega, fun x hx => ?_, fun k' hk' => ?_⟩
      · simp only [List.getElem?_concat_length, Option.some.injEq] at hx
        subst hx
        exact hsession
      · by_contra hne
        have hlt := (hs.unused k' _ (hold k' _ hne hk')).1
        omega
    · obtain ⟨hlt, hunused, hone⟩ := hs.unused k n (hold k n hk hn)
      refine ⟨by omega, fun x hx => ?_, fun k' hk' => ?_⟩
      · rw [List.getElem?_append_left hlt] at hx
        exact hunused x hx
      · by_cases hki : k' = i
        · subst hki
          have := hnew n hk'
          omega
        · exact hone k' (hold k' n hki hk')

/-- Save a session with its identifier. -/
theorem Listed.save (hs : s.Listed) {n : Nat} {x : Bytes × Bytes} (hi : s.handshake i = .saving n)
    (hx : s.issued[n]? = some x) :
  (s.saveSession i x).Listed
  := by
  obtain ⟨-, hunused, hone⟩ := hs.unused i n (by rw [hi]; rfl)
  have hold : ∀ h < s.sessions, (s.saveSession i x).session h = s.session h := by
    intro h hh
    simp [saveSession, setHandshake, Nat.ne_of_lt hh]
  have hnew : (s.saveSession i x).session s.sessions
      = { id := x.1, initiatorPublicKey := publicKeyOf x.2, nonce := 0, closed := false } := by
    simp [saveSession, setHandshake]
  have hcases : ∀ h < (s.saveSession i x).sessions, h < s.sessions ∨ h = s.sessions := by
    intro h hh
    simp only [saveSession, setHandshake] at hh
    omega
  refine ⟨hs.issued, hs.length, ?_, ?_, ?_, ?_⟩
  · intro sid h hget
    simp only [saveSession, setHandshake] at hget ⊢
    by_cases hsid : sid = x.1
    · subst hsid
      simp only [update_self, Option.some.injEq] at hget
      subst hget
      simp
    · rw [update_of_ne hsid] at hget
      obtain ⟨hlt, hid⟩ := hs.table sid h hget
      refine ⟨by omega, ?_⟩
      rw [update_of_ne (Nat.ne_of_lt hlt)]
      exact hid
  · intro h hh
    rcases hcases h hh with hlt | rfl
    · rw [hold h hlt]
      exact hs.origin h hlt
    · rw [hnew]
      exact ⟨x.2, List.mem_of_getElem? hx, rfl⟩
  · intro h hh k hk heq
    rcases hcases h hh with hlt | rfl <;> rcases hcases k hk with hlt' | rfl
    · rw [hold h hlt, hold k hlt'] at heq
      exact hs.ids h hlt k hlt' heq
    · rw [hold h hlt, hnew] at heq
      exact absurd heq (hunused x hx h hlt)
    · rw [hold k hlt', hnew] at heq
      exact absurd heq.symm (hunused x hx k hlt')
    · rfl
  · intro k m hm
    have hk : k ≠ i := by
      rintro rfl
      simp [saveSession, setHandshake, Handshake.issues] at hm
    have hother : ∀ k', ((s.saveSession i x).handshake k').issues = some m →
        (s.handshake k').issues = some m := by
      intro k' hk'
      by_cases hki : k' = i
      · subst hki
        simp [saveSession, setHandshake, Handshake.issues] at hk'
      · simpa [saveSession, setHandshake, hki] using hk'
    obtain ⟨hlt, hunused', hone'⟩ := hs.unused k m (hother k hm)
    refine ⟨hlt, fun y hy h hh => ?_, fun k' hk' => hone' k' (hother k' hk')⟩
    rcases hcases h hh with hlt' | rfl
    · rw [hold h hlt']
      exact hunused' y hy h hlt'
    · rw [hnew]
      intro heq
      have hmn : m = n := by
        apply (List.getElem?_inj (by simpa using hlt) hs.issued).mp
        rw [List.getElem?_map, List.getElem?_map, hx]
        change s.issued[m]? = some y at hy
        rw [hy]
        exact congrArg some heq.symm
      subst hmn
      exact hk (hone k (hother k hm))

/-! ### What has been accepted -/

/-- What has been accepted: the requests of each session are signed by its initiator and in
the order of their nonces, and its nonce is that of the last one. -/
structure Accepts (s : State) : Prop where
  ok : ∀ i, (s.handshake i).Ok s
  signed : ∀ x ∈ s.accepted, s.Signed x.2 x.1 ∧ nonceOf x.2 ≤ (s.session x.1).nonce
  order : s.accepted.Pairwise fun x y => x.1 = y.1 → nonceOf x.2 < nonceOf y.2
  last : ∀ h < s.sessions, (s.session h).nonce = 0
    ∨ ∃ x ∈ s.accepted, x.1 = h ∧ nonceOf x.2 = (s.session h).nonce

/-- Nothing is accepted in a step that leaves the nonces as they are. -/
theorem Accepts.grows (hs : s.Accepts) (hgrows : s.Grows s') (haccepted : s'.accepted = s.accepted)
    (hnonce : ∀ h < s.sessions, (s'.session h).nonce = (s.session h).nonce)
    (hnew : ∀ h, s.sessions ≤ h → h < s'.sessions → (s'.session h).nonce = 0)
    (hok : ∀ i, (s.handshake i).Ok s → s'.handshake i = s.handshake i ∨ (s'.handshake i).Ok s) :
  s'.Accepts
  where
  ok i := by
    rcases hok i (hs.ok i) with heq | hi
    · rw [heq]
      exact ok_grows (hs.ok i) hgrows
    · exact ok_grows hi hgrows
  signed x hx := by
    rw [haccepted] at hx
    obtain ⟨hsigned, hle⟩ := hs.signed x hx
    rw [hnonce _ hsigned.1.1]
    exact ⟨hsigned.grows hgrows, hle⟩
  order := by
    rw [haccepted]
    exact hs.order
  last h hh := by
    by_cases hlt : h < s.sessions
    · rw [hnonce h hlt, haccepted]
      exact hs.last h hlt
    · exact .inl (hnew h (by omega) hh)

theorem Accepts.setHandshake (hs : s.Accepts) (hp : p.Ok s) :
  (s.setHandshake i p).Accepts
  := by
  have hgrows : s.Grows (s.setHandshake i p) :=
    ⟨le_refl _, fun _ _ => ⟨rfl, rfl⟩, fun _ h => h⟩
  apply hs.grows hgrows rfl (fun _ _ => rfl)
  · intro h hle hlt
    exact absurd hlt (not_lt.mpr hle)
  · exact (forall_update_iff s.handshake fun k q =>
      (s.handshake k).Ok s → q = s.handshake k ∨ q.Ok s).mpr
        ⟨fun _ => .inr hp, fun _ _ _ => .inl rfl⟩

theorem grows_accept (i : Nat) (raw : Bytes) (h : Nat) (s : State) :
  s.Grows (s.accept i raw h)
  := by
  refine ⟨le_refl _, fun k _ => ?_, fun _ hx => hx⟩
  apply session_update <;> rfl

/-- A request is accepted. -/
theorem Accepts.accept (hs : s.Accepts) {cur : Nat} (hi : s.handshake i = .loaded raw h cur)
    (hcur : (s.session h).nonce = cur) :
  (s.accept i raw h).Accepts
  := by
  have hloaded := hs.ok i
  rw [hi] at hloaded
  obtain ⟨hsigned, hlt⟩ := hloaded
  rw [← hcur] at hlt
  have hgrows := grows_accept i raw h s
  constructor
  · intro k
    by_cases hk : k = i
    · subst hk
      simp [State.accept, Handshake.Ok]
    · have hsame : (s.accept i raw h).handshake k = s.handshake k := by
        simp [State.accept, hk]
      rw [hsame]
      exact ok_grows (hs.ok k) hgrows
  · intro x hx
    rcases List.mem_append.mp hx with hx | hx
    · obtain ⟨hsigned', hle⟩ := hs.signed x hx
      refine ⟨hsigned'.grows hgrows, ?_⟩
      by_cases hxh : x.1 = h
      · rw [hxh] at hle
        simp only [State.accept, hxh, update_self]
        omega
      · simpa [State.accept, hxh] using hle
    · obtain rfl := List.mem_singleton.mp hx
      refine ⟨hsigned.grows hgrows, ?_⟩
      simp [State.accept]
  · apply List.pairwise_append.mpr
    refine ⟨hs.order, List.pairwise_singleton _ _, ?_⟩
    intro x hx y hy hxy
    obtain rfl := List.mem_singleton.mp hy
    have hle := (hs.signed x hx).2
    rw [hxy] at hle
    exact lt_of_le_of_lt hle hlt
  · intro k hk
    by_cases hkh : k = h
    · subst hkh
      exact .inr ⟨(k, raw), by simp [State.accept], rfl, by simp [State.accept]⟩
    · simp only [State.accept, update_of_ne hkh]
      rcases hs.last k hk with hzero | ⟨x, hx, hxk⟩
      · exact .inl hzero
      · exact .inr ⟨x, List.mem_append_left _ hx, hxk⟩

/-! ### Dialers -/

/-- The dialers: each asked for its session with a message of its own, which has its key, and
has the identifier that was chosen for this message.  What has been signed with an honest key
is a request for a new session, or that of an attempt of a dialer. -/
structure Dialed (honest : Bytes → Bool) (s : State) : Prop where
  key : ∀ j < s.dialers, publicKeyOf (s.dialer j).request = (s.dialer j).publicKey
  counter : ∀ j < s.dialers, (s.dialer j).nonce = (s.dialer j).attempts % 2 ^ 32
  requests : ∀ j < s.dialers, ∀ k < s.dialers, (s.dialer j).request = (s.dialer k).request → j = k
  sessionID : ∀ j < s.dialers, ∀ sid, (s.dialer j).sessionID = some sid →
    (sid, (s.dialer j).request) ∈ s.issued
  signed : ∀ x ∈ s.signed, honest x.1 = true → nonceOf x.2 = 0
    ∨ ∃ j < s.dialers, (s.dialer j).publicKey = x.1
      ∧ (s.dialer j).sessionID = some (sessionIDOf x.2) ∧ nonceOf x.2 ≤ (s.dialer j).attempts

section

variable (hs : s.Dialed honest)

include hs

/-- A step that no dialer makes. -/
theorem Dialed.same (hdialers : s'.dialers = s.dialers) (hdialer : s'.dialer = s.dialer)
    (hissued : s.issued ⊆ s'.issued)
    (hsigned : ∀ x ∈ s'.signed, x ∈ s.signed ∨ honest x.1 = false) :
  s'.Dialed honest
  where
  key := by
    rw [hdialers, hdialer]
    exact hs.key
  counter := by
    rw [hdialers, hdialer]
    exact hs.counter
  requests := by
    rw [hdialers, hdialer]
    exact hs.requests
  sessionID := by
    rw [hdialers, hdialer]
    exact fun j hj sid hsid => hissued (hs.sessionID j hj sid hsid)
  signed x hx hhonest := by
    rw [hdialers, hdialer]
    rcases hsigned x hx with hold | hnot
    · exact hs.signed x hold hhonest
    · rw [hhonest] at hnot
      contradiction

/-- A dialer changes, and keeps its message and its key. -/
theorem Dialed.setDialer {d : Dialer} {signed : List (Bytes × Bytes)}
    (hrequest : d.request = (s.dialer j).request) (hkey : d.publicKey = (s.dialer j).publicKey)
    (hattempts : (s.dialer j).attempts ≤ d.attempts) (hcounter : d.nonce = d.attempts % 2 ^ 32)
    (hold : ∀ sid, (s.dialer j).sessionID = some sid → d.sessionID = some sid)
    (hnew : ∀ sid, d.sessionID = some sid → (sid, d.request) ∈ s.issued)
    (hsigned : ∀ x ∈ signed, x ∈ s.signed ∨ j < s.dialers ∧ d.publicKey = x.1
      ∧ d.sessionID = some (sessionIDOf x.2) ∧ nonceOf x.2 ≤ d.attempts) :
  ({ s with signed := signed }.setDialer j d).Dialed honest
  := by
  have hself : ({ s with signed := signed }.setDialer j d).dialer j = d := by
    simp [State.setDialer]
  have hother : ∀ k, k ≠ j → ({ s with signed := signed }.setDialer j d).dialer k = s.dialer k := by
    intro k hk
    simp [State.setDialer, hk]
  have hrequests : ∀ k, (({ s with signed := signed }.setDialer j d).dialer k).request
      = (s.dialer k).request := by
    intro k
    by_cases hk : k = j
    · subst hk
      rw [hself, hrequest]
    · rw [hother k hk]
  constructor
  · intro k hk
    rw [hrequests, hs.key k hk]
    by_cases hkj : k = j
    · subst hkj
      rw [hself, hkey]
    · rw [hother k hkj]
  · intro k hk
    by_cases hkj : k = j
    · subst hkj
      rw [hself, hcounter]
    · rw [hother k hkj, hs.counter k hk]
  · intro k hk k' hk' heq
    rw [hrequests, hrequests] at heq
    exact hs.requests k hk k' hk' heq
  · intro k hk sid hsid
    by_cases hkj : k = j
    · subst hkj
      rw [hself] at hsid ⊢
      exact hnew sid hsid
    · rw [hother k hkj] at hsid ⊢
      exact hs.sessionID k hk sid hsid
  · intro x hx hhonest
    rcases hsigned x hx with hmem | ⟨hj, hx⟩
    · rcases hs.signed x hmem hhonest with hzero | ⟨k, hk, hpub, hsid, hle⟩
      · exact .inl hzero
      · refine .inr ⟨k, hk, ?_⟩
        by_cases hkj : k = j
        · subst hkj
          rw [hself]
          exact ⟨hkey.trans hpub, hold _ hsid, le_trans hle hattempts⟩
        · rw [hother k hkj]
          exact ⟨hpub, hsid, hle⟩
    · refine .inr ⟨j, hj, ?_⟩
      rwa [hself]

/-- A new dialer asks for a session. -/
theorem Dialed.dial {publicKey random : Bytes} (hkey : publicKey.length = publicKeySize)
    (hrandom : random.length = 32) (hfresh : ∀ j < s.dialers,
      (s.dialer j).request ≠ buildInitiatorHandshake (S.sign publicKey) zeroID 0 random publicKey) :
  ({ s with
    dialers := s.dialers + 1
    signed := s.signed
      ++ [(publicKey, initiatorSignedMessage zeroID 0 random publicKey)] }.setDialer s.dialers
    { publicKey := publicKey
      request :=
        buildInitiatorHandshake (S.sign publicKey) zeroID 0 random publicKey }).Dialed honest
  := by
  have hzero : zeroID.length = 32 := rfl
  have hcases : ∀ j < s.dialers + 1, j < s.dialers ∨ j = s.dialers := by
    intro j hj
    omega
  constructor
  · intro j hj
    rcases hcases j hj with hlt | rfl
    · simpa [State.setDialer, Nat.ne_of_lt hlt] using hs.key j hlt
    · simp only [State.setDialer, update_self]
      exact publicKey_buildInitiatorHandshake _ hzero hrandom hkey
  · intro j hj
    rcases hcases j hj with hlt | rfl
    · simpa [State.setDialer, Nat.ne_of_lt hlt] using hs.counter j hlt
    · simp [State.setDialer]
  · intro j hj k hk heq
    rcases hcases j hj with hlt | rfl <;> rcases hcases k hk with hlt' | rfl
    · simp only [State.setDialer, update_of_ne (Nat.ne_of_lt hlt),
        update_of_ne (Nat.ne_of_lt hlt')] at heq
      exact hs.requests j hlt k hlt' heq
    · simp only [State.setDialer, update_of_ne (Nat.ne_of_lt hlt),
        update_self] at heq
      exact absurd heq (hfresh j hlt)
    · simp only [State.setDialer, update_of_ne (Nat.ne_of_lt hlt'),
        update_self] at heq
      exact absurd heq.symm (hfresh k hlt')
    · rfl
  · intro j hj sid hsid
    rcases hcases j hj with hlt | rfl
    · simp only [State.setDialer, update_of_ne (Nat.ne_of_lt hlt)] at hsid ⊢
      exact hs.sessionID j hlt sid hsid
    · simp [State.setDialer] at hsid
  · intro x hx hhonest
    rcases List.mem_append.mp hx with hx | hx
    · rcases hs.signed x hx hhonest with hnonce | ⟨j, hj, hx⟩
      · exact .inl hnonce
      · refine .inr ⟨j, Nat.lt_succ_of_lt hj, ?_⟩
        simpa [State.setDialer, Nat.ne_of_lt hj] using hx
    · obtain rfl := List.mem_singleton.mp hx
      exact .inl (nonce_initiatorSignedMessage hzero (by decide))

/-- An attempt of a dialer. -/
theorem Dialed.attempt (hlisted : s.Listed) {random : Bytes} (hj : j < s.dialers)
    (hstep : s.attempt j random = some s') :
  s'.Dialed honest
  := by
  unfold State.attempt at hstep
  dsimp only at hstep
  split at hstep
  · contradiction
  rename_i sid hsid
  obtain ⟨-, hstep⟩ := Option.ite_none_left_eq_some.mp hstep
  have hissued := hs.sessionID j hj sid hsid
  have hcounter : ((s.dialer j).nonce + 1) % 2 ^ 32 = ((s.dialer j).attempts + 1) % 2 ^ 32 := by
    rw [hs.counter j hj]
    simp
  have hold : ∀ sid', (s.dialer j).sessionID = some sid' →
      (sid', (s.dialer j).request) ∈ s.issued := hs.sessionID j hj
  split at hstep
  · cases hstep
    exact hs.setDialer rfl rfl (Nat.le_succ _) hcounter (fun _ h => h) hold
      (fun x hx => .inl hx)
  · rename_i hle
    cases hstep
    refine hs.setDialer rfl rfl (Nat.le_succ _) hcounter (fun _ h => h) hold ?_
    intro x hx
    rcases List.mem_append.mp hx with hx | hx
    · exact .inl hx
    · obtain rfl := List.mem_singleton.mp hx
      have hlen := hlisted.length _ hissued
      refine .inr ⟨hj, rfl, ?_, ?_⟩
      · rw [sessionIDOf, sessionID_initiatorSignedMessage hlen]
        exact hsid
      · rw [nonceOf, nonce_initiatorSignedMessage hlen (by omega), hcounter]
        exact Nat.mod_le _ _

end

/-! ### Runs -/

/-- What holds in every run. -/
structure Sound (honest : Bytes → Bool) (s : State) : Prop where
  listed : s.Listed
  accepts : s.Accepts
  dialed : s.Dialed honest

section

variable (hs : s.Sound honest)

include hs

/-- Nothing but the dialers and what is signed changes. -/
theorem Sound.of_dialed (hsessions : s'.sessions = s.sessions) (hsession : s'.session = s.session)
    (hissued : s'.issued = s.issued) (htable : s'.table = s.table)
    (hhandshake : s'.handshake = s.handshake) (haccepted : s'.accepted = s.accepted)
    (hsigned : s.signed ⊆ s'.signed) (hdialed : s'.Dialed honest) :
  s'.Sound honest
  where
  listed := hs.listed.same
    ⟨hsessions, fun h => by simp [hsession], hissued, fun sid h hget => by rwa [← htable],
      fun i n hn => by rwa [← hhandshake]⟩
  accepts := hs.accepts.grows ⟨hsessions.ge, fun h _ => by simp [hsession], hsigned⟩ haccepted
    (fun h _ => by rw [hsession]) (fun h hle hlt => by omega) (fun i _ => by simp [hhandshake])
  dialed := hdialed

theorem Sound.setHandshake (hissues : p.issues = none) (hok : p.Ok s) :
  (s.setHandshake i p).Sound honest
  where
  listed := hs.listed.same (sameList_setHandshake (by simp [hissues]))
  accepts := hs.accepts.setHandshake hok
  dialed := hs.dialed.same rfl rfl (fun _ h => h) fun _ hx => .inl hx

/-- A step of a handshake. -/
theorem Sound.advance {c : Choice} (hfair : s.Fair S honest (.advance i c))
    (hstep : s.advance S i c = some s') :
  s'.Sound honest
  := by
  rcases advance_cases honest hstep with ⟨p, rfl, hissues, hok⟩
    | ⟨raw, h, cur, hi, hcur, rfl⟩ | ⟨raw, sid, rfl, rfl⟩ | ⟨n, hi, rfl⟩ | ⟨n, x, hi, hx, rfl⟩
  · exact hs.setHandshake hissues (hok hs.listed.table hfair (hs.accepts.ok i))
  · refine ⟨?_, hs.accepts.accept hi hcur,
      hs.dialed.same rfl rfl (fun _ h => h) fun _ hx => .inl hx⟩
    have hsame := sameList_setHandshake (s := s) (i := i) (p := .accepted raw h) nofun
    refine hs.listed.same ⟨rfl, ?_, rfl, fun _ _ hget => hget, hsame.unused⟩
    apply session_update <;> rfl
  · refine ⟨hs.listed.choose hfair.1 hfair.2, ?_, ?_⟩
    · refine Accepts.setHandshake (p := .answering _) ?_ trivial
      exact hs.accepts.grows ⟨le_refl _, fun _ _ => ⟨rfl, rfl⟩, fun _ h => h⟩ rfl (fun _ _ => rfl)
        (fun h hle hlt => absurd hlt (not_lt.mpr hle)) (fun _ _ => .inl rfl)
    · exact hs.dialed.same rfl rfl (List.subset_append_left _ _) fun _ hx => .inl hx
  · have hanswers : State.Sound honest { s with answers := s.answers ++ [n] } :=
      hs.of_dialed rfl rfl rfl rfl rfl rfl (fun _ h => h)
        (hs.dialed.same rfl rfl (fun _ h => h) fun _ hx => .inl hx)
    refine ⟨hanswers.listed.same (sameList_setHandshake ?_), hanswers.accepts.setHandshake trivial,
      hanswers.dialed.same rfl rfl (fun _ h => h) fun _ hx => .inl hx⟩
    intro m hm
    dsimp only
    rw [hi]
    exact hm
  · refine ⟨hs.listed.save hi hx, ?_, hs.dialed.same rfl rfl (fun _ h => h) fun _ hx => .inl hx⟩
    have hold : ∀ h < s.sessions, (s.saveSession i x).session h = s.session h := by
      intro h hh
      simp [saveSession, State.setHandshake, Nat.ne_of_lt hh]
    have hgrows : s.Grows (s.saveSession i x) :=
      ⟨Nat.le_succ _, fun h hh => by simp [hold h hh], fun _ h => h⟩
    apply hs.accepts.grows hgrows rfl (fun h hh => by rw [hold h hh])
    · intro h hle hlt
      obtain rfl : h = s.sessions := by
        simp only [saveSession, State.setHandshake] at hlt
        omega
      simp [saveSession, State.setHandshake]
    · intro k _
      by_cases hk : k = i
      · subst hk
        right
        simp [saveSession, State.setHandshake, Handshake.Ok]
      · left
        simp [saveSession, State.setHandshake, hk]

/-- Every event of a run keeps what holds. -/
theorem Sound.step {a : Event} (hfair : s.Fair S honest a) (hstep : s.step S a = some s') :
  s'.Sound honest
  := by
  cases a with
  | arrive i raw =>
      obtain ⟨-, rfl⟩ := Run.guard hstep
      exact hs.setHandshake rfl trivial
  | advance i c => exact hs.advance hfair hstep
  | close h =>
      obtain ⟨-, rfl⟩ := Run.guard hstep
      have hsession := session_update (s := s) (h := h) (a := { s.session h with closed := true })
        rfl rfl
      have hnonce := (forall_update_iff (a := h) (b := { s.session h with closed := true })
        s.session fun k b => b.nonce = (s.session k).nonce).mpr ⟨rfl, fun _ _ => rfl⟩
      refine ⟨?_, ?_, hs.dialed.same rfl rfl (fun _ h => h) fun _ hx => .inl hx⟩
      · exact hs.listed.same ⟨rfl, hsession, rfl, fun _ _ hget => hget, fun _ _ hn => hn⟩
      · exact hs.accepts.grows ⟨le_refl _, fun k _ => hsession k, fun _ h => h⟩ rfl
          (fun k _ => hnonce k) (fun _ hle hlt => absurd hlt (not_lt.mpr hle)) (fun _ _ => .inl rfl)
  | forget h =>
      obtain ⟨-, rfl⟩ := Run.guard hstep
      refine ⟨?_, ?_, hs.dialed.same rfl rfl (fun _ h => h) fun _ hx => .inl hx⟩
      · refine hs.listed.same ⟨rfl, fun _ => ⟨rfl, rfl⟩, rfl, ?_, fun _ _ hn => hn⟩
        intro sid k hget
        by_cases hsid : sid = (s.session h).id
        · simp [hsid] at hget
        · simpa [hsid] using hget
      · exact hs.accepts.grows ⟨le_refl _, fun _ _ => ⟨rfl, rfl⟩, fun _ h => h⟩ rfl
          (fun _ _ => rfl) (fun _ hle hlt => absurd hlt (not_lt.mpr hle)) (fun _ _ => .inl rfl)
  | dial publicKey random =>
      obtain ⟨⟨hkey, hrandom⟩, hstep⟩ := Option.ite_none_right_eq_some.mp hstep
      cases hstep
      exact hs.of_dialed rfl rfl rfl rfl rfl rfl (List.subset_append_left _ _)
        (hs.dialed.dial hkey hrandom hfair)
  | establish j n =>
      obtain ⟨x, hx, hstep⟩ := Option.bind_eq_some_iff.mp hstep
      obtain ⟨⟨hj, hnone, -, hrequest⟩, hstep⟩ := Option.ite_none_right_eq_some.mp hstep
      cases hstep
      refine hs.of_dialed rfl rfl rfl rfl rfl rfl (fun _ h => h)
        (hs.dialed.setDialer rfl rfl (le_refl _) (hs.dialed.counter j hj) ?_ ?_ fun _ hx => .inl hx)
      · intro sid hsid
        rw [hnone] at hsid
        contradiction
      · intro sid hsid
        cases hsid
        dsimp only
        rw [← hrequest]
        exact List.mem_of_getElem? hx
  | attempt j random =>
      obtain ⟨hj, hstep⟩ := Option.ite_none_right_eq_some.mp hstep
      have hdialed := hs.dialed.attempt hs.listed hj hstep
      unfold State.attempt at hstep
      dsimp only at hstep
      split at hstep
      · contradiction
      obtain ⟨-, hstep⟩ := Option.ite_none_left_eq_some.mp hstep
      split at hstep
      · cases hstep
        exact hs.of_dialed rfl rfl rfl rfl rfl rfl (fun _ h => h) hdialed
      · cases hstep
        exact hs.of_dialed rfl rfl rfl rfl rfl rfl (List.subset_append_left _ _) hdialed
  | finish j =>
      obtain ⟨⟨hj, -⟩, hstep⟩ := Option.ite_none_right_eq_some.mp hstep
      cases hstep
      exact hs.of_dialed rfl rfl rfl rfl rfl rfl (fun _ h => h)
        (hs.dialed.setDialer rfl rfl (le_refl _) (hs.dialed.counter j hj) (fun _ h => h)
          (hs.dialed.sessionID j hj) fun _ hx => .inl hx)
  | sign publicKey message =>
      cases hstep
      refine hs.of_dialed rfl rfl rfl rfl rfl rfl (List.subset_append_left _ _)
        (hs.dialed.same rfl rfl (fun _ h => h) fun x hx => ?_)
      rcases List.mem_append.mp hx with hx | hx
      · exact .inl hx
      · obtain rfl := List.mem_singleton.mp hx
        exact .inr hfair

end

theorem sound_init (honest : Bytes → Bool) (allow : Bool) :
  State.Sound honest { allowConnectionResumption := allow }
  where
  listed := ⟨List.nodup_nil, nofun, nofun, nofun, nofun, nofun⟩
  accepts := ⟨fun _ => trivial, nofun, List.Pairwise.nil, nofun⟩
  dialed := ⟨nofun, nofun, nofun, nofun, nofun⟩

/-- What a session has accepted comes from the attempts of its dialer. -/
theorem Sound.nonce_le (hs : s.Sound honest) (hj : j < s.dialers) (hh : h < s.sessions)
    (hhonest : honest (s.dialer j).publicKey = true)
    (hsid : (s.dialer j).sessionID = some (s.session h).id) :
  (s.session h).nonce ≤ (s.dialer j).attempts
  := by
  rcases hs.accepts.last h hh with hzero | ⟨x, hx, rfl, hnonce⟩
  · omega
  · obtain ⟨⟨⟨-, hid⟩, hsigned⟩, -⟩ := hs.accepts.signed x hx
    obtain ⟨raw, hissued, hkey⟩ := hs.listed.origin x.1 hh
    have hone : ∀ k < s.dialers, (s.dialer k).sessionID = some (s.session x.1).id →
        (s.dialer k).request = raw := by
      intro k hk hk'
      have hmem := hs.dialed.sessionID k hk _ hk'
      exact (Prod.ext_iff.mp (List.inj_on_of_nodup_map hs.listed.issued hmem hissued rfl)).2
    rw [hkey, ← hone j hj hsid, hs.dialed.key j hj] at hsigned
    obtain ⟨hsessionID, hnonceOf⟩ := ofBytes_signedData x.2
    rcases hs.dialed.signed _ hsigned hhonest with hzero | ⟨k, hk, -, hk', hle⟩
    · rw [← hnonce, nonceOf, ← hnonceOf]
      exact le_of_eq_of_le hzero (Nat.zero_le _)
    · have hksid : (s.dialer k).sessionID = some (s.session x.1).id := by
        rw [hk', sessionIDOf, hsessionID, hid, sessionIDOf]
      obtain rfl : k = j := by
        apply hs.dialed.requests k hk j hj
        rw [hone k hk hksid, hone j hj hsid]
      rw [← hnonce, nonceOf, ← hnonceOf]
      exact hle

/-- The resumption of sessions is safe against replays, and never stuck.  The requests that
are accepted for a session have increasing nonces, no request is accepted twice, and each was
signed with the key of the initiator of the session.  The nonce of a session is at most that
of its dialer, until the counter of the dialer wraps around; so the next attempt has a valid
nonce, and it stays valid until a request with it is accepted, as long as there are nonces. -/
theorem resumption_safe (S : Scheme) (honest : Bytes → Bool) (allow : Bool) (s : State)
    (hrun : Run (State.step S) (State.Fair S honest) { allowConnectionResumption := allow } s) :
  (s.accepted.Pairwise fun x y => x.1 = y.1 → nonceOf x.2 < nonceOf y.2)
    ∧ (s.accepted.map fun x => x.2).Nodup
    ∧ (∀ x ∈ s.accepted, x.1 < s.sessions
      ∧ (∃ raw, ((s.session x.1).id, raw) ∈ s.issued
        ∧ (s.session x.1).initiatorPublicKey = publicKeyOf raw)
      ∧ ((s.session x.1).initiatorPublicKey, signedData x.2) ∈ s.signed)
    ∧ ∀ j < s.dialers, ∀ h < s.sessions, honest (s.dialer j).publicKey = true →
      (s.dialer j).sessionID = some (s.session h).id →
      ((s.dialer j).attempts < 2 ^ 32 → (s.session h).nonce ≤ (s.dialer j).nonce)
        ∧ ((s.dialer j).attempts < 65535 →
          validNonce (s.session h).nonce ((s.dialer j).nonce + 1) = true)
        ∧ (0 < (s.dialer j).attempts → (s.dialer j).attempts ≤ 65535 →
          (∀ x ∈ s.accepted, x.1 = h → nonceOf x.2 ≠ (s.dialer j).nonce) →
          validNonce (s.session h).nonce (s.dialer j).nonce = true)
  := by
  have hs : s.Sound honest := by
    apply hrun.invariant (I := State.Sound honest) _ (sound_init honest allow)
    intro s a s' hs hfair hstep
    exact hs.step hfair hstep
  refine ⟨hs.accepts.order, ?_, ?_, ?_⟩
  · rw [List.Nodup, List.pairwise_map]
    apply hs.accepts.order.imp_of_mem
    intro x y hx hy hlt heq
    obtain ⟨⟨⟨hxs, hxid⟩, -⟩, -⟩ := hs.accepts.signed x hx
    obtain ⟨⟨⟨hys, hyid⟩, -⟩, -⟩ := hs.accepts.signed y hy
    have hsame : x.1 = y.1 := hs.listed.ids _ hxs _ hys (by rw [hxid, hyid, heq])
    have hnonce := hlt hsame
    rw [heq] at hnonce
    omega
  · intro x hx
    have hsigned := (hs.accepts.signed x hx).1
    exact ⟨hsigned.1.1, hs.listed.origin x.1 hsigned.1.1, hsigned.2⟩
  · intro j hj h hh hhonest hsid
    have hle := hs.nonce_le hj hh hhonest hsid
    have hcounter := hs.dialed.counter j hj
    refine ⟨fun hlt => ?_, fun hlt => ?_, fun hpos hlt hnew => ?_⟩
    · omega
    · simp only [validNonce, decide_eq_true_eq]
      omega
    · have hne : (s.session h).nonce ≠ (s.dialer j).nonce := by
        rcases hs.accepts.last h hh with hzero | ⟨x, hx, rfl, hnonce⟩
        · omega
        · rw [← hnonce]
          exact hnew x hx rfl
      simp only [validNonce, decide_eq_true_eq]
      omega

/-- Signatures that are made of the key and of the message. -/
def sumScheme : Scheme where
  sign publicKey message := List.replicate 64 (publicKey.sum + message.sum)
  verify publicKey message signature :=
    decide (signature = List.replicate 64 (publicKey.sum + message.sum))

/-- A request is replayed while it is accepted, and the answer to it is lost.  The replay loads
the same nonce and loses the compare-and-swap; the next attempt is accepted. -/
theorem resumption_safe_replay :
  ∃ s : State, (s.accepted.Pairwise fun x y => x.1 = y.1 → nonceOf x.2 < nonceOf y.2)
    ∧ (s.accepted.map fun x => x.2).Nodup
    ∧ (s.session 0).nonce ≤ (s.dialer 0).nonce
    ∧ validNonce (s.session 0).nonce ((s.dialer 0).nonce + 1) = true
    ∧ s.accepted.map (fun x => nonceOf x.2) = [1, 2]
  := by
  let key : Bytes := List.replicate 32 7
  let sid : Bytes := List.replicate 32 9
  let request (id : Bytes) (nonce : Nat) (random : UInt8) : Bytes :=
    buildInitiatorHandshake (sumScheme.sign key) id nonce (List.replicate 32 random) key
  obtain ⟨s, hrun, hdialers, hsessions, hhonest, hsid, hattempts, haccepted⟩ := Run.exists_of_exec
    (State.step sumScheme) (State.Fair sumScheme fun k => k == key)
    { allowConnectionResumption := true }
    (List.flatten [[.dial key (List.replicate 32 0), .arrive 0 (request zeroID 0 0), .advance 0 .go,
      .advance 0 .go, .advance 0 (.randomID sid), .advance 0 .go, .advance 0 .go, .establish 0 0,
      .attempt 0 (List.replicate 32 1), .arrive 1 (request sid 1 1), .arrive 2 (request sid 1 1)],
      List.replicate 5 (.advance 1 .go), List.replicate 5 (.advance 2 .go),
      [.advance 1 .go, .advance 2 .go, .advance 2 .go, .advance 1 .connFails, .finish 0,
        .attempt 0 (List.replicate 32 2), .arrive 3 (request sid 2 2)],
      List.replicate 8 (.advance 3 .go)])
    (fun s => 0 < s.dialers ∧ 0 < s.sessions ∧ ((s.dialer 0).publicKey == key) = true
      ∧ (s.dialer 0).sessionID = some (s.session 0).id ∧ (s.dialer 0).attempts = 2
      ∧ s.accepted.map (fun x => nonceOf x.2) = [1, 2])
    (by decide +kernel)
  obtain ⟨horder, hnodup, -, hdialer⟩ :=
    resumption_safe sumScheme (fun k => k == key) true s hrun
  obtain ⟨hle, hnext, -⟩ := hdialer 0 hdialers 0 hsessions hhonest hsid
  exact ⟨s, horder, hnodup, hle (by omega), hnext (by omega), haccepted⟩

end State

end Resumption

end Muxocket
