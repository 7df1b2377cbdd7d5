import Mathlib.Logic.Function.Basic
import Muxocket.Lib.Run

/-!
# The peers of a packet listener

A packet listener has one socket.  Its read loop hands every datagram to the sub-connection of
the address it comes from, which it looks up in a map, and registers a new sub-connection if
there is none or the one that is there is closed.  Besides `peerConns`, by the string of the
address, there are maps for UDP and for IP addresses, in which the lookup is made if the address
is of that kind.

`Close` of a sub-connection marks it as closed and then deletes the entries of its address, by
the address: if a datagram comes in between, the entries are those of the new sub-connection.

Addresses are numbered, a number standing for each of the keys of the address, and `kind` tells
of which kind an address is.
-/

namespace Muxocket

open Function

namespace PacketListener

/-- The kinds of addresses. -/
inductive Kind where
  | udp
  | ip
  | other
deriving DecidableEq, Repr

/-- Where a sub-connection is: registered and open, marked as closed with its entries not yet
deleted, or gone. -/
inductive Phase where
  | opened
  | closing
  | removed
deriving DecidableEq, Repr

/-- Where the read loop is: waiting for a datagram, past the lookup of the address `a` of one,
about to register a sub-connection, or about to feed the datagram to a sub-connection. -/
inductive Reader where
  | waiting
  | found (a : Nat) (sub : Option Nat)
  | creating (a : Nat)
  | feeding (a sub : Nat)
deriving DecidableEq, Repr

/-- A packet listener.  Sub-connections are numbered in the order they are registered.  As
history we keep the datagrams that were fed, by their addresses, with the sub-connections that
took them. -/
structure State where
  peerUDPConns : Nat → Option Nat := fun _ => none
  peerIPConns : Nat → Option Nat := fun _ => none
  peerConns : Nat → Option Nat := fun _ => none
  subs : Nat := 0
  addr : Nat → Nat := fun _ => 0
  phase : Nat → Phase := fun _ => .removed
  reader : Reader := .waiting
  fed : List (Nat × Nat) := []

/-- What can happen: a datagram from the address `a` arrives, the read loop goes on, or a
sub-connection is closed, in two steps. -/
inductive Event where
  | arrive (a : Nat)
  | read
  | close (i : Nat)
  | delete (i : Nat)
deriving DecidableEq, Repr

variable (kind : Nat → Kind)

namespace State

/-- The sub-connection that is found for an address. -/
def lookup (a : Nat) (s : State) : Option Nat :=
  match kind a with
  | .udp => s.peerUDPConns a
  | .ip => s.peerIPConns a
  | .other => s.peerConns a

/-- Register a new sub-connection for an address. -/
def register (a : Nat) (s : State) : State :=
  { s with
    peerUDPConns :=
      if kind a = .udp then update s.peerUDPConns a (some s.subs) else s.peerUDPConns
    peerIPConns :=
      if kind a = .ip then update s.peerIPConns a (some s.subs) else s.peerIPConns
    peerConns := update s.peerConns a (some s.subs)
    subs := s.subs + 1
    addr := update s.addr s.subs a
    phase := update s.phase s.subs .opened
    reader := .feeding a s.subs }

/-- Delete the entries of the address of a sub-connection. -/
def deleteEntries (i : Nat) (s : State) : State :=
  let a := s.addr i
  { s with
    peerUDPConns :=
      if kind a = .udp then update s.peerUDPConns a none else s.peerUDPConns
    peerIPConns :=
      if kind a = .ip then update s.peerIPConns a none else s.peerIPConns
    peerConns := update s.peerConns a none
    phase := update s.phase i .removed }

/-- Whether a sub-connection is marked as closed. -/
def isClosed (i : Nat) (s : State) : Bool :=
  decide (s.phase i ≠ .opened)

/-- The next step of the read loop. -/
def read (s : State) : Option State :=
  match s.reader with
  | .waiting => none
  | .found a none => some { s with reader := .creating a }
  | .found a (some i) =>
      some { s with reader := if s.isClosed i then .creating a else .feeding a i }
  | .creating a => some (s.register kind a)
  | .feeding a i =>
      some { s with
        reader := .waiting, fed := if s.isClosed i then s.fed else s.fed ++ [(a, i)] }

/-- What becomes of a listener by an event, if it can happen. -/
def step (s : State) : Event → Option State
  | .arrive a =>
      if s.reader = .waiting then some { s with reader := .found a (s.lookup kind a) } else none
  | .read => s.read kind
  | .close i =>
      if i < s.subs ∧ s.phase i = .opened then
        some { s with phase := update s.phase i .closing }
      else none
  | .delete i => if s.phase i = .closing then some (s.deleteEntries kind i) else none

/-- An event by which no sub-connection is registered for an address while one of that address
is marked as closed with its entries not yet deleted. -/
def Separate (s : State) : Event → Prop
  | .read =>
      match s.reader with
      | .creating a => ∀ i < s.subs, s.addr i = a → s.phase i ≠ .closing
      | _ => True
  | _ => True

instance (s : State) (e : Event) : Decidable (s.Separate e) := by
  unfold Separate
  split
  · split <;> infer_instance
  · infer_instance

/-! ### The maps refer to the open sub-connections -/

/-- All maps that are used for the address of a sub-connection refer to it. -/
def Registered (i : Nat) (s : State) : Prop :=
  (kind (s.addr i) = .udp → s.peerUDPConns (s.addr i) = some i)
    ∧ (kind (s.addr i) = .ip → s.peerIPConns (s.addr i) = some i)
    ∧ s.peerConns (s.addr i) = some i

variable {kind}

theorem Registered.lookup {i : Nat} {s : State} (h : s.Registered kind i) :
  s.lookup kind (s.addr i) = some i
  := by
  unfold State.lookup
  split
  · rename_i hk
    exact h.1 hk
  · rename_i hk
    exact h.2.1 hk
  · exact h.2.2

/-- Of the sub-connections of an address only `o` may be other than gone. -/
def Sole (a : Nat) (o : Option Nat) (s : State) : Prop :=
  ∀ i < s.subs, s.addr i = a → o ≠ some i → s.phase i = .removed

/-- What is known from where the read loop is. -/
def Reads (s : State) : Reader → Prop
  | .waiting => True
  | .found a o => s.Sole a o
  | .creating a => ∀ i < s.subs, s.addr i = a → s.phase i ≠ .opened
  | .feeding a i => s.Sole a (some i)

/-- Sub-connections are closed, and stay closed. -/
structure Closes (s s' : State) : Prop where
  subs : s'.subs = s.subs
  addr : s'.addr = s.addr
  removed : ∀ i, s.phase i = .removed → s'.phase i = .removed
  opened : ∀ i, s'.phase i = .opened → s.phase i = .opened

theorem Reads.closes {s s' : State} {r : Reader} (hr : s.Reads r) (h : s.Closes s') :
  s'.Reads r
  := by
  have hsole : ∀ a o, s.Sole a o → s'.Sole a o := by
    intro a o ho i hi ha hne
    rw [h.subs] at hi
    rw [h.addr] at ha
    exact h.removed i (ho i hi ha hne)
  cases r with
  | waiting => trivial
  | found a o => exact hsole a o hr
  | creating a =>
      intro i hi ha hopen
      rw [h.subs] at hi
      rw [h.addr] at ha
      exact hr i hi ha (h.opened i hopen)
  | feeding a i => exact hsole a (some i) hr

variable (kind)

/-- The maps of a listener refer to the sub-connections that are not gone. -/
structure Filed (s : State) : Prop where
  registered : ∀ i < s.subs, s.phase i ≠ .removed → s.Registered kind i
  fresh : ∀ i, s.subs ≤ i → s.phase i = .removed
  reads : s.Reads s.reader

theorem filed_init :
  Filed kind {}
  := ⟨nofun, fun _ _ => rfl, trivial⟩

namespace Filed

variable {kind} {s s' : State}

section

variable (hs : s.Filed kind)

include hs

/-- Two sub-connections of one address are not both there. -/
theorem sole (a : Nat) :
  s.Sole a (s.lookup kind a)
  := by
  intro i hi ha hne
  by_contra hphase
  apply hne
  rw [← ha]
  exact (hs.registered i hi hphase).lookup

theorem arrive (a : Nat) :
  Filed kind { s with reader := .found a (s.lookup kind a) }
  := ⟨hs.registered, hs.fresh, hs.sole a⟩

theorem close {i : Nat} (hi : i < s.subs) (hopen : s.phase i = .opened) :
  Filed kind { s with phase := update s.phase i .closing }
  := by
  have hcloses : s.Closes { s with phase := update s.phase i .closing } := by
    refine ⟨rfl, rfl, ?_, ?_⟩
    · intro j hj
      have hne : j ≠ i := by
        rintro rfl
        rw [hopen] at hj
        contradiction
      exact (update_of_ne hne _ _).trans hj
    · intro j hj
      by_cases heq : j = i
      · rw [heq]
        exact hopen
      · exact (update_of_ne heq _ _).symm.trans hj
  refine ⟨?_, ?_, hs.reads.closes hcloses⟩
  · intro j hj hphase
    apply hs.registered j hj
    intro h
    exact hphase (hcloses.removed j h)
  · intro j hj
    exact hcloses.removed j (hs.fresh j hj)

/-- The entries of the address of a sub-connection that is not gone are its own. -/
theorem entries_eq {i : Nat} (hphase : s.phase i ≠ .removed) :
  i < s.subs ∧ s.Registered kind i
  := by
  have hi : i < s.subs := by
    by_contra hle
    exact hphase (hs.fresh i (Nat.le_of_not_lt hle))
  exact ⟨hi, hs.registered i hi hphase⟩

end

/-- The entries of another address stay. -/
theorem registered_delete {i j : Nat} (hne : s.addr j ≠ s.addr i) (hj : s.Registered kind j) :
  (s.deleteEntries kind i).Registered kind j
  := by
  refine ⟨?_, ?_, ?_⟩
  · intro hk
    have hold := hj.1 hk
    simp only [deleteEntries]
    split
    · simpa [hne] using hold
    · exact hold
  · intro hk
    have hold := hj.2.1 hk
    simp only [deleteEntries]
    split
    · simpa [hne] using hold
    · exact hold
  · simpa [deleteEntries, hne] using hj.2.2

section

variable (hs : s.Filed kind)

include hs

theorem delete {i : Nat} (hclosing : s.phase i = .closing) :
  (s.deleteEntries kind i).Filed kind
  := by
  obtain ⟨hi, hreg⟩ := hs.entries_eq (i := i) (by simp [hclosing])
  have hcloses : s.Closes (s.deleteEntries kind i) := by
    refine ⟨rfl, rfl, ?_, ?_⟩
    · intro j hj
      by_cases heq : j = i
      · simp [deleteEntries, heq]
      · simpa [deleteEntries, heq] using hj
    · intro j hj
      by_cases heq : j = i
      · simp [deleteEntries, heq] at hj
      · simpa [deleteEntries, heq] using hj
  refine ⟨?_, ?_, hs.reads.closes hcloses⟩
  · intro j hj hphase
    have hne : j ≠ i := by
      rintro rfl
      simp [deleteEntries] at hphase
    have hthere : s.phase j ≠ .removed := fun h => hphase (hcloses.removed j h)
    refine registered_delete ?_ (hs.registered j hj hthere)
    intro heq
    have hj' := (hs.registered j hj hthere).2.2
    rw [heq, hreg.2.2] at hj'
    exact hne (Option.some.inj hj').symm
  · intro j hj
    exact hcloses.removed j (hs.fresh j hj)

/-- A sub-connection is registered for an address all of whose sub-connections are gone. -/
theorem register {a : Nat} (hgone : ∀ i < s.subs, s.addr i = a → s.phase i = .removed) :
  (s.register kind a).Filed kind
  := by
  have hold : ∀ i < s.subs, (s.register kind a).addr i = s.addr i
      ∧ (s.register kind a).phase i = s.phase i := by
    intro i hi
    simp [State.register, Nat.ne_of_lt hi]
  refine ⟨?_, ?_, ?_⟩
  · intro i hi hphase
    rcases Nat.lt_succ_iff_lt_or_eq.mp hi with hi | rfl
    · obtain ⟨haddr, hsame⟩ := hold i hi
      rw [hsame] at hphase
      have hne : s.addr i ≠ a := fun heq => hphase (hgone i hi heq)
      obtain ⟨hudp, hip, hconns⟩ := hs.registered i hi hphase
      unfold Registered
      rw [haddr]
      refine ⟨?_, ?_, ?_⟩
      · intro hk
        simp only [State.register]
        split
        · simpa [hne] using hudp hk
        · exact hudp hk
      · intro hk
        simp only [State.register]
        split
        · simpa [hne] using hip hk
        · exact hip hk
      · simpa [State.register, hne] using hconns
    · unfold Registered
      have haddr : (s.register kind a).addr s.subs = a := by
        simp [State.register]
      rw [haddr]
      refine ⟨?_, ?_, ?_⟩
      · intro hk
        simp [State.register, hk]
      · intro hk
        simp [State.register, hk]
      · simp [State.register]
  · intro i hi
    have hlt : s.subs < i := hi
    simpa [State.register, Nat.ne_of_gt hlt] using hs.fresh i (Nat.le_of_lt hlt)
  · intro i hi ha hne
    rcases Nat.lt_succ_iff_lt_or_eq.mp hi with hi | rfl
    · obtain ⟨haddr, hsame⟩ := hold i hi
      rw [hsame]
      exact hgone i hi (haddr ▸ ha)
    · exact absurd rfl hne

theorem read (hseparate : s.Separate .read) (h : s.read kind = some s') :
  s'.Filed kind
  := by
  have hreads := hs.reads
  dsimp only [Separate] at hseparate
  unfold State.read at h
  split at h
  · contradiction
  · rename_i a hr
    cases h
    rw [hr] at hreads
    refine ⟨hs.registered, hs.fresh, ?_⟩
    intro i hi ha hopen
    have hremoved := hreads i hi ha nofun
    rw [hopen] at hremoved
    contradiction
  · rename_i a i hr
    cases h
    rw [hr] at hreads
    refine ⟨hs.registered, hs.fresh, ?_⟩
    dsimp only
    split
    · rename_i hclosed
      intro j hj ha hopen
      by_cases heq : i = j
      · rw [isClosed, decide_eq_true_eq, heq] at hclosed
        exact hclosed hopen
      · have hremoved := hreads j hj ha fun h => heq (Option.some.inj h)
        have hopen' : s.phase j = .opened := hopen
        rw [hopen'] at hremoved
        contradiction
    · exact hreads
  · rename_i a hr
    cases h
    rw [hr] at hreads hseparate
    apply hs.register
    intro i hi ha
    have hclosing := hseparate i hi ha
    have hopen := hreads i hi ha
    cases hphase : s.phase i with
    | opened => exact absurd hphase hopen
    | closing => exact absurd hphase hclosing
    | removed => rfl
  · cases h
    exact ⟨hs.registered, hs.fresh, trivial⟩

theorem step {e : Event} (hseparate : s.Separate e) (h : s.step kind e = some s') :
  s'.Filed kind
  := by
  cases e with
  | arrive a =>
      obtain ⟨-, rfl⟩ := Run.guard h
      exact hs.arrive a
  | read => exact hs.read hseparate h
  | close i =>
      obtain ⟨hi, rfl⟩ := Run.guard h
      exact hs.close hi.1 hi.2
  | delete i =>
      obtain ⟨hclosing, rfl⟩ := Run.guard h
      exact hs.delete hclosing

end

end Filed

/-- If no sub-connection is registered for an address while another one of that address is marked
as closed with its entries not yet deleted, then closing a sub-connection deletes its own entries
only, all maps refer to the sub-connections that are open, and a datagram from the address of an
open sub-connection is looked up as, and fed to, that one. -/
theorem registration_kept {s : State} (hrun : Run (step kind) Separate {} s) :
  (∀ i s', s.step kind (.delete i) = some s' → ∀ a j, j ≠ i →
    (s.peerUDPConns a = some j → s'.peerUDPConns a = some j)
      ∧ (s.peerIPConns a = some j → s'.peerIPConns a = some j)
      ∧ (s.peerConns a = some j → s'.peerConns a = some j))
    ∧ ∀ i < s.subs, s.phase i = .opened →
      s.Registered kind i ∧ s.lookup kind (s.addr i) = some i
        ∧ s.reader ≠ .creating (s.addr i) ∧ ∀ j, s.reader = .feeding (s.addr i) j → j = i
  := by
  have hs : s.Filed kind := by
    apply Run.invariant (I := Filed kind) _ hrun (filed_init kind)
    intro s e s' hs hseparate h
    exact hs.step hseparate h
  refine ⟨?_, ?_⟩
  · intro i s' h a j hne
    obtain ⟨hclosing, rfl⟩ := Run.guard h
    obtain ⟨-, hudp, hip, hconns⟩ := hs.entries_eq (i := i) (by simp [hclosing])
    have hother : ∀ {m : Nat → Option Nat}, m (s.addr i) = some i → m a = some j →
        update m (s.addr i) none a = some j := by
      intro m hi hj
      have ha : a ≠ s.addr i := by
        rintro rfl
        rw [hi] at hj
        exact hne (Option.some.inj hj).symm
      rw [update_of_ne ha, hj]
    simp only [deleteEntries]
    refine ⟨?_, ?_, hother hconns⟩
    · split
      · rename_i hk
        exact hother (hudp hk)
      · exact id
    · split
      · rename_i hk
        exact hother (hip hk)
      · exact id
  · intro i hi hopen
    have hreg := hs.registered i hi (by simp [hopen])
    have hreads := hs.reads
    refine ⟨hreg, hreg.lookup, ?_, ?_⟩
    · intro hr
      rw [hr] at hreads
      exact hreads i hi rfl hopen
    · intro j hr
      rw [hr] at hreads
      by_contra hne
      have hremoved := hreads i hi rfl fun h => hne (Option.some.inj h)
      rw [hopen] at hremoved
      contradiction

/-- A sub-connection is closed and gone before the next datagram of its address comes. -/
theorem registration_kept_reopened :
  ∃ s, Run (step fun _ => .udp) Separate {} s ∧ (s.phase 1 = .opened ∧ s.addr 1 = 7)
    ∧ s.lookup (fun _ => .udp) 7 = some 1
  := by
  obtain ⟨s, hrun, hsubs, hopen, haddr⟩ := Run.exists_of_exec (step fun _ => .udp) Separate {}
    [.arrive 7, .read, .read, .read, .close 0, .delete 0, .arrive 7, .read, .read, .read]
    (fun s => 1 < s.subs ∧ s.phase 1 = .opened ∧ s.addr 1 = 7) (by decide +kernel)
  have hlookup := ((registration_kept _ hrun).2 1 hsubs hopen).2.1
  rw [haddr] at hlookup
  exact ⟨s, hrun, ⟨hopen, haddr⟩, hlookup⟩

/-- A datagram comes while the sub-connection of its address is marked as closed and its entries
are not deleted yet.  The entries of the new sub-connection are deleted, and the next datagram is
fed to a third one while the second is open. -/
theorem registration_lost :
  ∃ s, Run (step fun _ => .udp) (fun _ _ => True) {} s
    ∧ 1 < s.subs ∧ s.phase 1 = .opened ∧ s.addr 1 = 7 ∧ s.peerConns 7 ≠ some 1
    ∧ s.peerUDPConns 7 ≠ some 1 ∧ (7, 2) ∈ s.fed
  := Run.exists_of_exec (step fun _ => .udp) (fun _ _ => True) {}
    [.arrive 7, .read, .read, .read, .close 0, .arrive 7, .read, .read, .delete 0, .read,
      .arrive 7, .read, .read, .read]
    _ (by decide +kernel)

end State

end PacketListener

end Muxocket
