import Mathlib.Logic.Relation
import Muxocket.Goroutines
import Muxocket.World

/-!
# Who waits for whom

The loops of a session wait for three kinds of locks: `feedMu`, while early frames are delivered
to a channel, the end of `finalize` or of `Session.Close` in another process, and `readMu`, when
they finalize a channel themselves.  Only the last can be held for long, by a reader.  The stream
of the peer has ended then, so a reader of the channel does not wait for a frame, and has been or
is being woken.  But `WriteTo` holds `readMu` while it writes, and when it writes to a channel of
the same session, it may wait for credit there.  The window update that brings it is a frame,
which `readLoop` does not read while it waits for `readMu`.  The same may happen when it writes to
a pipe whose reader writes to a channel.
-/

namespace Muxocket

namespace Goroutines

/-! ### The tasks -/

namespace Task

/-- The lock under which a task is done. -/
def owns : Task → Option Mutex
  | .unlock m => some m
  | .scan h _ _ | .park h _ _ | .recheck h _ _ | .confirm h _ _ | .select h _ _ | .output h _
  | .passed h _ _ => some (.readMu h)
  | _ => none

/-- The tasks of a reader of a channel. -/
def Reading (h : Nat) (call : Call) : Task → Prop
  | .scan h' call' _ | .park h' call' _ | .recheck h' call' _ | .confirm h' call' _
  | .select h' call' _ => h' = h ∧ call' = call
  | _ => False

/-- The tasks of those who have taken `readMu` of a channel. -/
def Reads (h : Nat) : Task → Prop
  | .scan h' _ _ | .park h' _ _ | .recheck h' _ _ | .confirm h' _ _ | .select h' _ _
  | .output h' _ | .passed h' _ _ | .closeRing h' => h' = h
  | _ => False

/-- The tasks of a `Write` to a channel. -/
def Writes : Task → Prop
  | .unlock (.writeMu _) | .write _ _ | .acquire _ _ | .awaitCredit _ _ => True
  | _ => False

/-- The task releases `readMu` of a channel. -/
def unlocksReadMu : Task → Bool
  | .unlock (.readMu _) => true
  | _ => false

/-- The process is in a `Write`, to a channel or to another writer. -/
def isWriting : Task → Bool
  | .write _ _ | .acquire _ _ | .awaitCredit _ _ | .output _ _ => true
  | _ => false

/-- The tasks of the loops, and of what else ends channels. -/
def Handles : Task → Prop
  | .lateFin _ | .openChannel _ | .read _ _ | .scan _ _ _ | .park _ _ _ | .recheck _ _ _
  | .confirm _ _ _ | .select _ _ _ | .output _ _ | .passed _ _ _ | .write _ _ | .acquire _ _
  | .awaitCredit _ _ => False
  | _ => True

/-- The tasks a process has to do before it releases a lock. -/
def Under : Mutex → Task → Prop
  | .readMu h, t => t.Reads h ∨ t.Writes
  | .writeMu _, _ => True
  | _, t => t.Handles

/-- A channel is finalized when the stream of the peer has ended. -/
def Apt (d : Data) : Task → Prop
  | .finalize h | .takeRing h => (d.heap h).readDone = true
  | _ => True

/-- The tasks `body` and `tail` a task leads to, when the data becomes `d'`. -/
inductive Leads (d' : Data) : Task → List Task → List Task → Prop
  | nothing (t : Task) : (∀ m, t ≠ .unlock m) → Leads d' t [] []
  | onData (h fed : Nat) (whole : Bool) :
      Leads d' (.onData h fed whole) [.deliver h (.data fed whole)] []
  | onFin (h : Nat) (whole : Bool) : Leads d' (.onFin h whole) [.deliver h (.fin whole)] []
  | onAck (h n : Nat) : Leads d' (.onAck h n) [.maybeFinalize h] []
  | peerReset (h : Nat) : Leads d' (.peerReset h) [.closeWrite h, .maybeFinalize h] []
  | deliver (h : Nat) (f : Early) : Leads d' (.deliver h f) [.remoteClose h] []
  | deliverRst (h : Nat) : Leads d' (.deliver h .rst) [.peerReset h] []
  | remoteClose (h : Nat) :
      Leads d' (.remoteClose h) [.wakeReader h, .wakeWriter h, .maybeFinalize h] []
  | maybeFinalize (h : Nat) : (d'.heap h).readDone = true →
      Leads d' (.maybeFinalize h) [.finalize h] []
  | finalize (h : Nat) : Leads d' (.finalize h) [.takeRing h, .remove h] []
  | takeRing (h : Nat) : Leads d' (.takeRing h) [.closeRing h] []
  | lateFin (h : Nat) : Leads d' (.lateFin h) [.sendFin h] [.maybeFinalize h]
  | localClose (h : Nat) : Leads d' (.localClose h) [.shut h] []
  | shut (h : Nat) : Leads d' (.shut h) [.endRead h] []
  | endRead (h : Nat) : (d'.heap h).readDone = true →
      Leads d' (.endRead h) [.wakeReader h, .wakeWriter h, .tryDrain h, .finalize h] []
  | peerGone (h : Nat) : (d'.heap h).readDone = true →
      Leads d' (.peerGone h) [.wakeReader h, .wakeWriter h, .finalize h] []
  | closeSession (hs : List Nat) (gone : Bool) :
      Leads d' .closeSession
        (hs.map (fun h => if gone then .peerGone h else .localClose h) ++ [.sessionEnd]) []
  | openChannel (frames : List Early) (h : Nat) :
      Leads d' (.openChannel frames) (frames.map (.deliver h)) [.publish h]
  | read (h : Nat) (call : Call) : Leads d' (.read h call) [.scan h call false] [.drainAborted h]
  | scanOther (h : Nat) (saw : Bool) : Leads d' (.scan h (.writeTo .other) saw) [.output h saw] []
  | output (h : Nat) (saw : Bool) : Leads d' (.output h saw) [.scan h (.writeTo .other) saw] []
  | relay (h dst n : Nat) (saw : Bool) :
      Leads d' (.scan h (.writeTo (.channel dst)) saw) [.write dst n, .passed h dst saw] []
  | passed (h dst : Nat) (saw : Bool) :
      Leads d' (.passed h dst saw) [.scan h (.writeTo (.channel dst)) saw] []
  | write (h n : Nat) : Leads d' (.write h n) [.acquire h n] []
  | acquire (h n n' : Nat) : Leads d' (.acquire h n) [.acquire h n'] []
  | awaitCredit (h n : Nat) : Leads d' (.acquire h n) [.awaitCredit h n] []
  | granted (h n : Nat) : Leads d' (.awaitCredit h n) [.acquire h n] []
  | again {t u : Task} {h : Nat} {call : Call} : t.Reading h call → u.Reading h call →
      (∀ saw, u = .select h call saw → (d'.heap h).readDone = false) → Leads d' t [u] []

variable {cfg : SessionConfig} {busy : Mutex → Bool} {k : Nat} {ok : Bool} {d : Data} {t : Task}
  {e : Effect}

variable {h : Nat} {call : Call}

theorem leads_atEnd {d' : Data} (ht : t.Reading h call) (hnot : ∀ m, t ≠ .unlock m) (saw : Bool) :
  Leads d' t (atEnd h call saw) []
  := by
  unfold atEnd
  split
  · apply Leads.nothing t hnot
  · refine Leads.again (u := .scan h call true) ht ⟨rfl, rfl⟩ ?_
    intro saw hselect
    contradiction

/-- What a task leads to. -/
theorem run_leads (h : t.run cfg busy k ok d = some e) :
  Leads e.data t e.body e.tail
  := by
  cases t with
  | unlock m => contradiction
  | onData | onFin | peerReset | remoteClose | takeRing | lateFin | localClose | shut | read =>
      cases h
      constructor
  | endRead | peerGone =>
      cases h
      constructor
      simp [Data.update]
  | closeSession =>
      simp only [run] at h
      split at h <;> cases h
      · exact .nothing _ (by simp)
      · exact .closeSession d.active d.goAwayRecv
  | onAck | finalize | openChannel | output | passed | write | acquire | awaitCredit | closeWrite
  | closeChannel =>
      simp only [run] at h
      repeat' split at h
      all_goals first | contradiction | cases h
      all_goals first | exact .nothing _ (by simp) | constructor
  | deliver h' f =>
      cases f
      all_goals
        simp only [run] at h
        repeat' split at h
      all_goals
        cases h
        first
        | exact .nothing _ (by simp)
        | constructor
  | maybeFinalize h' =>
      cases h
      dsimp only
      split
      · rename_i hall
        exact .maybeFinalize h' hall.2.1
      · exact .nothing _ (by simp)
  | scan h' call saw =>
      have hreading : (Task.scan h' call saw).Reading h' call := ⟨rfl, rfl⟩
      simp only [run] at h
      split at h
      · repeat' split at h
        all_goals
          cases h
          first
          | exact .nothing _ (by simp)
          | exact .scanOther h' saw
          | exact .relay h' _ (k + 1) saw
      · split at h
        · cases h
          exact .nothing _ (by simp)
        · split at h
          · cases h
            exact leads_atEnd hreading (by simp) saw
          · cases h
            exact .again (u := .park h' call saw) hreading ⟨rfl, rfl⟩ (by simp)
  | park h' call saw =>
      cases h
      exact .again (u := .recheck h' call saw) (h := h') ⟨rfl, rfl⟩ ⟨rfl, rfl⟩ (by simp)
  | recheck h' call saw =>
      simp only [run] at h
      split at h
      · split at h
        · cases h
          exact .nothing _ (by simp)
        · rename_i w
          cases h
          exact .again (u := .scan h' (.writeTo w) saw) (h := h') ⟨rfl, rfl⟩ ⟨rfl, rfl⟩ (by simp)
      · cases h
        exact .again (u := .confirm h' call saw) (h := h') ⟨rfl, rfl⟩ ⟨rfl, rfl⟩ (by simp)
  | confirm h' call saw =>
      have hreading : (Task.confirm h' call saw).Reading h' call := ⟨rfl, rfl⟩
      simp only [run] at h
      split at h
      · cases h
        exact .nothing _ (by simp)
      · split at h
        · cases h
          cases call with
          | read => exact leads_atEnd hreading (by simp) saw
          | writeTo w => exact .again (u := .scan h' (.writeTo w) saw) hreading ⟨rfl, rfl⟩ (by simp)
        · rename_i hread
          cases h
          exact .again (u := .select h' call saw) hreading ⟨rfl, rfl⟩
            (fun _ _ => by simpa using hread)
  | select h' call saw =>
      simp only [run] at h
      split at h
      · cases h
        exact .again (u := .scan h' call saw) (h := h') ⟨rfl, rfl⟩ ⟨rfl, rfl⟩ (by simp)
      · split at h
        · cases h
          exact .nothing _ (by simp)
        · contradiction
  | _ =>
      cases h
      exact .nothing _ (by simp)

/-! ### What tasks lead to -/

variable {d' : Data} {body tail : List Task}

section

variable (ht : t.Reading h call)

include ht

theorem Reading.owns :
  t.owns = some (.readMu h)
  := by
  cases t with
  | scan | park | recheck | confirm | select => rw [← ht.1, Task.owns]
  | _ => exact ht.elim

theorem Reading.reads_iff {h' : Nat} :
  t.Reads h' ↔ h = h'
  := by
  cases t with
  | scan | park | recheck | confirm | select => rw [← ht.1, Task.Reads]
  | _ => exact ht.elim

theorem Reading.apt :
  t.Apt d
  := by
  cases t with
  | scan | park | recheck | confirm | select => trivial
  | _ => exact ht.elim

theorem Reading.not_handles :
  ¬ t.Handles
  := by
  cases t with
  | scan | park | recheck | confirm | select => exact id
  | _ => exact ht.elim

end

/-- What `Session.Close` goes through. -/
theorem forall_closing {P : Task → Prop} (hgone : ∀ h, P (.peerGone h))
    (hlocal : ∀ h, P (.localClose h)) (hend : P .sessionEnd) (hs : List Nat) (gone : Bool) :
  ∀ u ∈ hs.map (fun h => if gone then Task.peerGone h else .localClose h) ++ [.sessionEnd], P u
  := by
  rw [List.forall_mem_append, List.forall_mem_map]
  refine ⟨?_, by simpa using hend⟩
  intro h _
  split
  · apply hgone
  · apply hlocal

/-- What `OpenChannel` goes through. -/
theorem forall_opening {P : Task → Prop} (hdeliver : ∀ f, P (.deliver h f))
    (hpublish : P (.publish h)) (frames : List Early) :
  ∀ u ∈ frames.map (Task.deliver h) ++ [.publish h], P u
  := by
  rw [List.forall_mem_append, List.forall_mem_map]
  exact ⟨fun f _ => hdeliver f, by simpa using hpublish⟩

section

variable (ht : Leads d' t body tail)

include ht

theorem Leads.ne_unlock :
  ∀ u ∈ body ++ tail, ∀ m, u ≠ .unlock m
  := by
  cases ht with
  | again _ hu =>
      intro u hmem m
      obtain rfl := List.mem_singleton.mp hmem
      rintro rfl
      exact hu
  | closeSession hs gone =>
      rw [List.append_nil]
      apply forall_closing <;> simp
  | openChannel frames h => apply forall_opening <;> simp
  | _ => simp

theorem Leads.owns_body :
  ∀ u ∈ body, u.owns = none ∨ u.owns = t.owns
    ∨ ∃ h call, t = .read h call ∧ u.owns = some (.readMu h)
  := by
  cases ht with
  | again ht hu =>
      intro u hmem
      obtain rfl := List.mem_singleton.mp hmem
      right
      left
      rw [ht.owns, hu.owns]
  | closeSession hs gone => apply forall_closing <;> simp [Task.owns]
  | openChannel frames h =>
      intro u hu
      obtain ⟨f, -, rfl⟩ := List.mem_map.mp hu
      exact .inl rfl
  | _ => simp [Task.owns]

theorem Leads.owns_tail :
  ∀ u ∈ tail, u.owns = none
  := by
  cases ht <;> simp [Task.owns]

theorem Leads.handles (hhandles : t.Handles) :
  ∀ u ∈ body ++ tail, u.Handles
  := by
  cases ht with
  | again ht => exact absurd hhandles ht.not_handles
  | closeSession hs gone =>
      rw [List.append_nil]
      apply forall_closing <;> simp [Task.Handles]
  | lateFin | openChannel | read | scanOther | output | relay | passed | write | acquire
  | awaitCredit | granted => exact hhandles.elim
  | _ => simp [Task.Handles]

/-- A reader goes on reading, or writes. -/
theorem Leads.reads (hunder : t.Under (.readMu h)) :
  ∀ u ∈ body ++ tail, u.Under (.readMu h)
  := by
  cases ht with
  | nothing => simp
  | again ht hu =>
      intro u hmem
      obtain rfl := List.mem_singleton.mp hmem
      left
      rw [hu.reads_iff]
      obtain hreads | hwrites := hunder
      · exact ht.reads_iff.mp hreads
      · cases t <;> simp [Reading, Writes] at ht hwrites
  | scanOther | output | relay | passed => simpa [Under, Reads, Writes] using hunder
  | write | acquire | awaitCredit | granted => simp [Under, Writes]
  | _ => exact hunder.elim False.elim False.elim

theorem Leads.apt (hapt : t.Apt d)
    (hread : ∀ h, (d.heap h).readDone = true → (d'.heap h).readDone = true) :
  ∀ u ∈ body ++ tail, u.Apt d'
  := by
  cases ht with
  | again ht hu =>
      intro u hmem
      obtain rfl := List.mem_singleton.mp hmem
      exact hu.apt
  | maybeFinalize h hdone | endRead h hdone | peerGone h hdone => simpa [Task.Apt] using hdone
  | finalize h => simpa [Task.Apt] using hread h hapt
  | closeSession hs gone =>
      rw [List.append_nil]
      apply forall_closing <;> simp [Task.Apt]
  | openChannel frames h => apply forall_opening <;> simp [Task.Apt]
  | _ => simp [Task.Apt]

end

theorem Apt.mono (ht : t.Apt d)
    (hread : ∀ h, (d.heap h).readDone = true → (d'.heap h).readDone = true) :
  t.Apt d'
  := by
  cases t with
  | finalize h | takeRing h => exact hread h ht
  | _ => exact ht

/-- A task that takes a lock is not done under one. -/
theorem owns_of_needs {m : Mutex} (hneeds : t.needs d = some m) :
  t.owns = none
  := by
  cases t <;> first | rfl | contradiction

/-- A reader takes no lock while it reads. -/
theorem Reads.needs (ht : t.Reads h) :
  t.needs d = none
  := by
  cases t <;> first | rfl | exact ht.elim

/-- One who holds `readMu` takes no lock but for writing. -/
theorem writes_unlock (ht : t.Under (.readMu h)) {m : Mutex} (hneeds : t.needs d = some m) :
  (unlock m).Writes
  := by
  obtain hreads | hwrites := ht
  · rw [hreads.needs] at hneeds
    contradiction
  · cases t <;> simp [Writes, needs] at hwrites hneeds
    subst hneeds
    trivial

theorem Handles.isOutput (ht : t.Handles) :
  t.isOutput = false
  := by
  cases t <;> first | rfl | exact ht.elim

/-- The tasks done under a lock that a task takes. -/
theorem Leads.under (ht : Leads d' t body tail) {m : Mutex} (hneeds : t.needs d = some m) :
  ∀ u ∈ body, u.Under m
  := by
  cases ht with
  | nothing => simp
  | again ht => cases t <;> simp [Task.needs, Task.Reading] at hneeds ht
  | onData h fed whole | onFin h whole | lateFin h | write h | takeRing h | read h call =>
      cases hneeds
      simp [Under, Handles, Reads]
  | finalize h =>
      obtain ⟨-, hm⟩ := Option.ite_none_left_eq_some.mp hneeds
      cases hm
      simp [Under, Handles]
  | closeSession hs gone =>
      obtain ⟨-, hm⟩ := Option.ite_none_left_eq_some.mp hneeds
      cases hm
      apply forall_closing <;> simp [Under, Handles]
  | openChannel frames h =>
      obtain ⟨-, hm⟩ := Option.ite_none_left_eq_some.mp hneeds
      cases hm
      intro u hu
      obtain ⟨f, -, rfl⟩ := List.mem_map.mp hu
      trivial
  | _ => contradiction

/-! ### What tasks do to the channels -/

/-- What is kept of a channel by a task that leads to the tasks `body`. -/
structure Keeps (t : Task) (body : List Task) (h : Nat) (c c' : Channel) : Prop where
  readDone : c.readDone = true → c'.readDone = true
  closed : c.closed = true → c'.closed = true
  notify : c.notify = true → c'.notify = true ∨ t.owns = some (.readMu h)
  woken : c'.readDone = true → c.readDone = true ∨ body.head? = some (.wakeReader h)

theorem Keeps.refl (t : Task) (body : List Task) (h : Nat) (c : Channel) :
  t.Keeps body h c c
  := ⟨id, id, .inl, .inl⟩

theorem keeps_update {f : Channel → Channel} (hf : t.Keeps body h (d.heap h) (f (d.heap h)))
    (h' : Nat) :
  t.Keeps body h' (d.heap h') ((d.update h f).heap h')
  := by
  by_cases heq : h' = h
  · subst heq
    simpa [Data.update] using hf
  · simpa [Data.update, heq] using Keeps.refl t body h' (d.heap h')

theorem update_update (h : Nat) (f g : Channel → Channel) :
  (d.update h f).update h g = d.update h (fun c => g (f c))
  := by
  simp [Data.update]

theorem keeps_tryDrainRing (h h' : Nat) :
  t.Keeps body h' (d.heap h') ((d.tryDrainRing busy h).heap h')
  := by
  unfold Data.tryDrainRing
  split
  · apply Keeps.refl
  · apply keeps_update
    exact ⟨id, id, .inl, .inl⟩

theorem keeps_feed (h n h' : Nat) :
  t.Keeps body h' (d.heap h') ((d.feed h n).heap h')
  := by
  unfold Data.feed
  split
  · apply Keeps.refl
  · apply keeps_update
    exact ⟨id, id, fun hnotify => .inl (by simp [hnotify]), .inl⟩

/-- What tasks keep of the channels. -/
theorem run_keeps (h : t.run cfg busy k ok d = some e) (h' : Nat) :
  t.Keeps e.body h' (d.heap h') (e.data.heap h')
  := by
  cases t with
  | unlock m => contradiction
  | onData h₀ | onFin h₀ | peerReset h₀ | maybeFinalize h₀ | takeRing h₀ | lateFin h₀ | read h₀
  | write h₀ | sessionEnd =>
      cases h
      apply Keeps.refl
  | addCredits h₀ | wakeWriter h₀ | closeRing h₀ | remove h₀ | sendFin h₀ | localClose h₀
  | publish h₀ | park h₀ =>
      cases h
      dsimp only
      apply keeps_update
      exact ⟨id, id, .inl, .inl⟩
  | addSessionCredits delta =>
      cases h
      exact ⟨id, id, .inl, .inl⟩
  | wakeReader h₀ =>
      cases h
      dsimp only
      apply keeps_update
      exact ⟨id, id, fun _ => .inl rfl, .inl⟩
  | remoteClose h₀ | endRead h₀ | peerGone h₀ =>
      cases h
      by_cases heq : h' = h₀
      · subst heq
        simp only [Data.update, Function.update_self]
        exact ⟨fun _ => rfl, id, .inl, fun _ => .inr rfl⟩
      · simpa [Data.update, heq] using Keeps.refl _ _ h' (d.heap h')
  | shut h₀ =>
      cases h
      dsimp only
      apply keeps_update
      exact ⟨id, fun _ => rfl, .inl, .inl⟩
  | tryDrain h₀ | drainAborted h₀ =>
      cases h
      dsimp only
      split <;> first | apply Keeps.refl | apply keeps_tryDrainRing
  | onAck h₀ | finalize h₀ | openChannel frames | output h₀ | passed h₀ | scan h₀ | acquire h₀
  | awaitCredit h₀ =>
      simp only [run] at h
      repeat' split at h
      all_goals first | contradiction | cases h
      all_goals first
        | apply Keeps.refl
        | dsimp only
          apply keeps_update
          exact ⟨id, id, .inl, .inl⟩
  | deliver h₀ early =>
      cases early with
      | data fed whole =>
          simp only [run] at h
          repeat' split at h
          all_goals cases h
          all_goals first | apply Keeps.refl | apply keeps_feed
      | fin whole =>
          simp only [run] at h
          split at h <;> obtain rfl := Option.some.inj h <;> apply Keeps.refl
      | rst =>
          cases h
          apply Keeps.refl
  | closeWrite h₀ =>
      simp only [run] at h
      repeat' split at h
      all_goals cases h
      · apply Keeps.refl
      · dsimp only
        apply keeps_update
        exact ⟨id, id, .inl, .inl⟩
      · simp only [Data.sendFin, update_update]
        apply keeps_update
        exact ⟨id, id, .inl, .inl⟩
  | closeChannel h₀ =>
      simp only [run] at h
      split at h <;> cases h
      · apply Keeps.refl
      · simp only [Data.tryDrainRing, update_update]
        split <;> apply keeps_update <;> exact ⟨id, fun _ => rfl, fun _ => .inl rfl, .inl⟩
  | closeSession =>
      simp only [run] at h
      split at h <;> cases h
      · apply Keeps.refl
      · exact ⟨id, id, .inl, .inl⟩
  | recheck h₀ call saw | confirm h₀ call saw | select h₀ call saw =>
      simp only [run] at h
      repeat' split at h
      all_goals first | contradiction | cases h
      all_goals first
        | apply Keeps.refl
        | dsimp only
          apply keeps_update
          exact ⟨id, id, fun _ => .inr rfl, .inl⟩

/-- The task is that of a reader that waits to be notified. -/
def Parked : Task → Prop
  | .select _ _ _ => True
  | _ => False

/-- A task leads to nothing but waiting, if it leads to that, and only while the stream has not
ended. -/
theorem Leads.parked (ht : Leads d' t body tail) :
  ∀ u ∈ body ++ tail, u.Parked → body = [u] ∧ tail = []
    ∧ ∀ h call saw, u = .select h call saw → (d'.heap h).readDone = false
  := by
  cases ht with
  | @again t u h call ht hu hselect =>
      intro v hv _
      obtain rfl := List.mem_singleton.mp hv
      refine ⟨rfl, rfl, ?_⟩
      rintro h' call' saw rfl
      obtain ⟨rfl, rfl⟩ := hu
      exact hselect saw rfl
  | closeSession hs gone =>
      rw [List.append_nil]
      apply forall_closing <;> simp [Parked]
  | openChannel frames h => apply forall_opening <;> simp [Parked]
  | _ => simp [Parked]

end Task

namespace State

variable {cfg : SessionConfig} {s s' : State} {p : Proc}

variable {k : Nat} {ok : Bool} {t : Task} {rest tasks : List Task}

/-- How a process goes on: it releases a lock, or does the task on top of its stack, which may
take a lock. -/
theorem advance_cases (h : s.advance cfg p k ok = some s') :
  (∃ m rest, s.locks.stack p = .unlock m :: rest ∧ s' = { s with locks := s.locks.drop p m rest })
    ∨ ∃ t rest e, s.locks.stack p = t :: rest ∧ (∀ m, t ≠ .unlock m)
      ∧ t.run cfg s.busy k ok s.data = some e
      ∧ (t.needs s.data = none
          ∧ s' = { s with data := e.data, locks := s.locks.reply p (e.body ++ e.tail ++ rest) }
        ∨ ∃ m, t.needs s.data = some m ∧ s.locks.holder m = none
          ∧ s' = { s with
              data := e.data
              locks := s.locks.take p m (e.body ++ .unlock m :: (e.tail ++ rest)) })
  := by
  unfold advance at h
  split at h
  · contradiction
  · rename_i m rest hp
    cases h
    exact .inl ⟨m, rest, hp, rfl⟩
  · rename_i t rest hne hp
    obtain ⟨e, he, h⟩ := Option.bind_eq_some_iff.mp h
    refine .inr ⟨t, rest, e, hp, ?_, he, ?_⟩
    · rintro m rfl
      exact hne m rfl
    · split at h
      · rename_i hneeds
        cases h
        exact .inl ⟨hneeds, rfl⟩
      · rename_i m hneeds
        obtain ⟨hfree, h⟩ := Option.ite_none_left_eq_some.mp h
        cases h
        exact .inr ⟨m, hneeds, by simpa [busy] using hfree, rfl⟩

theorem next_iff :
  s.Next t ↔ ∃ p, s.isAlive p = true ∧ (s.locks.stack p).head? = some t
  := by
  constructor
  · rintro (h | h | ⟨n, hn, h⟩)
    · exact ⟨.readLoop, rfl, h⟩
    · exact ⟨.arqLoop, rfl, h⟩
    · exact ⟨.goroutine n, by simpa [isAlive] using hn, h⟩
  · rintro ⟨p, halive, h⟩
    cases p with
    | readLoop => exact .inl h
    | arqLoop => exact .inr (.inl h)
    | goroutine n => exact .inr (.inr ⟨n, by simpa [isAlive] using halive, h⟩)

/-! ### The order of waiting -/

/-- The locks are held for the tasks they are for, the loops have nothing to do but to handle
frames and to end channels, a reader that waits although the stream has ended has been, or is about
to be, woken, and only a goroutine that is in no call, or in the `Write` of a writer that is not a
channel, waits in code of the application. -/
structure Ordered (s : State) : Prop where
  sound : s.locks.Sound .unlock Task.owns
  guards : s.locks.Guards .unlock Task.Under
  apt : ∀ p, ∀ t ∈ s.locks.stack p, t.Apt s.data
  loops : ∀ p, p = .readLoop ∨ p = .arqLoop → ∀ t ∈ s.locks.stack p, t.Handles
  parked : ∀ p, ∀ t ∈ (s.locks.stack p).tail, ¬ t.Parked
  notified : ∀ p h call saw, (s.locks.stack p).head? = some (.select h call saw) →
    (s.data.heap h).readDone = true →
    (s.data.heap h).notify = true ∨ (s.data.heap h).closed = true ∨ s.Next (.wakeReader h)
  alive : ∀ p, s.isAlive p = true ∨ s.locks.stack p = []
  inside : ∀ p, s.outside p = none
    ∨ (∃ n, p = .goroutine n) ∧ (s.locks.stack p).head?.all Task.isOutput = true

/-- A process goes on when another one is about to do a task. -/
theorem Next.of_ne {u : Task} (hnext : s.Next u) {d' : Data} {l' : Locks Proc Mutex Task}
    (hstack : ∀ q, l'.stack q = if q = p then tasks else s.locks.stack q)
    (hp : (s.locks.stack p).head? ≠ some u) :
  Next { s with data := d', locks := l' } u
  := by
  obtain ⟨q, halive, hq⟩ := next_iff.mp hnext
  refine next_iff.mpr ⟨q, halive, ?_⟩
  rw [hstack, if_neg]
  · exact hq
  · rintro rfl
    exact hp hq

section

variable (hs : s.Ordered)

include hs

/-- The task above others is gone, and those below it are not those of a reader that waits. -/
theorem Ordered.not_select (hp : s.locks.stack p = t :: rest) {h : Nat} {call : Call} {saw : Bool} :
  .select h call saw ∉ rest
  := by
  intro hmem
  apply hs.parked p (.select h call saw)
  · rwa [hp]
  · trivial

variable (halive : s.isAlive p = true) (hinside : s.outside p = none)

include halive hinside

/-- One stack is replaced, and the order is kept. -/
theorem Ordered.replace {d' : Data} {l' : Locks Proc Mutex Task}
    (hsound : l'.Sound .unlock Task.owns) (hguards : l'.Guards .unlock Task.Under)
    (hstack : ∀ q, l'.stack q = if q = p then tasks else s.locks.stack q)
    (hread : ∀ h, (s.data.heap h).readDone = true → (d'.heap h).readDone = true)
    (hapt : ∀ t ∈ tasks, t.Apt d')
    (hloops : p = .readLoop ∨ p = .arqLoop → ∀ t ∈ tasks, t.Handles)
    (hparked : ∀ t ∈ tasks.tail, ¬ t.Parked)
    (hself : ∀ h call saw, tasks.head? = some (.select h call saw) → (d'.heap h).readDone = false)
    (hothers : ∀ q ≠ p, ∀ h call saw, (s.locks.stack q).head? = some (.select h call saw) →
      (d'.heap h).readDone = true →
      (d'.heap h).notify = true ∨ (d'.heap h).closed = true
        ∨ Next { s with data := d', locks := l' } (.wakeReader h)) :
  Ordered { s with data := d', locks := l' }
  := by
  refine ⟨hsound, hguards, ?_, ?_, ?_, ?_, ?_, ?_⟩
  · intro q t ht
    rw [hstack] at ht
    split at ht
    · exact hapt t ht
    · exact (hs.apt q t ht).mono hread
  · intro q hq t ht
    rw [hstack] at ht
    split at ht
    · rename_i heq
      subst heq
      exact hloops hq t ht
    · exact hs.loops q hq t ht
  · intro q t ht
    rw [hstack] at ht
    split at ht
    · exact hparked t ht
    · exact hs.parked q t ht
  · intro q h call saw hq hread'
    rw [hstack] at hq
    split at hq
    · rw [hself h call saw hq] at hread'
      contradiction
    · rename_i hne
      exact hothers q hne h call saw hq hread'
  · intro q
    rw [hstack]
    split
    · rename_i heq
      subst heq
      exact .inl halive
    · exact hs.alive q
  · intro q
    rw [hstack]
    split
    · rename_i heq
      subst heq
      exact .inl hinside
    · exact hs.inside q

theorem Ordered.drop {m : Mutex} (hp : s.locks.stack p = .unlock m :: rest) :
  Ordered { s with locks := s.locks.drop p m rest }
  := by
  have hstack := fun q => Locks.stack_drop (l := s.locks) (p := p) q m rest
  have hmem : ∀ t ∈ rest, t ∈ s.locks.stack p := by
    intro t ht
    rw [hp]
    exact List.mem_cons_of_mem _ ht
  refine hs.replace halive hinside (hs.sound.drop (fun _ => rfl) hp)
    (hs.guards.drop (fun _ _ h => Task.unlock.inj h) hp) hstack (fun _ h => h) ?_ ?_ ?_ ?_ ?_
  · intro t ht
    apply hs.apt p t (hmem t ht)
  · intro hloop t ht
    apply hs.loops p hloop t (hmem t ht)
  · intro t ht
    apply hs.parked p
    rw [hp]
    exact List.mem_of_mem_tail ht
  · intro h call saw hhead
    exact absurd (List.mem_of_mem_head? hhead) (hs.not_select hp)
  · intro q _ h call saw hq hread
    rcases hs.notified q h call saw hq hread with hnotify | hclosed | hnext
    · exact .inl hnotify
    · exact .inr (.inl hclosed)
    · refine .inr (.inr (hnext.of_ne hstack ?_))
      simp [hp]

/-- A process does the task on top of its stack, and may take a lock. -/
theorem Ordered.run (locking : List Task) {e : Effect}
    (hp : s.locks.stack p = t :: rest) (he : t.run cfg s.busy k ok s.data = some e)
    {l' : Locks Proc Mutex Task} (hlocking : ∀ u ∈ locking, ∃ m, u = .unlock m)
    (hsound : l'.Sound .unlock Task.owns) (hguards : l'.Guards .unlock Task.Under)
    (hstack : ∀ q, l'.stack q
      = if q = p then e.body ++ locking ++ (e.tail ++ rest) else s.locks.stack q) :
  Ordered { s with data := e.data, locks := l' }
  := by
  have hleads := Task.run_leads he
  have hkeeps := Task.run_keeps he
  have htop : t ∈ s.locks.stack p := by simp [hp]
  have hrest : ∀ u ∈ rest, u ∈ s.locks.stack p := by
    intro u hu
    rw [hp]
    exact List.mem_cons_of_mem _ hu
  have hcases : ∀ u ∈ e.body ++ locking ++ (e.tail ++ rest),
      u ∈ e.body ++ e.tail ∨ (∃ m, u = .unlock m) ∨ u ∈ rest := by
    intro u hu
    simp only [List.mem_append] at hu ⊢
    grind
  have hparked : ∀ u ∈ e.body ++ locking ++ (e.tail ++ rest), u.Parked →
      e.body = [u] ∧ ∀ h call saw, u = .select h call saw → (e.data.heap h).readDone = false := by
    intro u hu hparked
    rcases hcases u hu with hu | ⟨m, rfl⟩ | hu
    · obtain ⟨hbody, -, hselect⟩ := hleads.parked u hu hparked
      exact ⟨hbody, hselect⟩
    · exact hparked.elim
    · refine absurd hparked (hs.parked p u ?_)
      rwa [hp]
  apply hs.replace halive hinside hsound hguards hstack (fun h => (hkeeps h).readDone)
  · intro u hu
    rcases hcases u hu with hu | ⟨m, rfl⟩ | hu
    · apply hleads.apt (hs.apt p t htop) (fun h => (hkeeps h).readDone) u hu
    · trivial
    · exact (hs.apt p u (hrest u hu)).mono fun h => (hkeeps h).readDone
  · intro hloop u hu
    rcases hcases u hu with hu | ⟨m, rfl⟩ | hu
    · apply hleads.handles (hs.loops p hloop t htop) u hu
    · trivial
    · apply hs.loops p hloop u (hrest u hu)
  · intro u hu hwaits
    obtain ⟨hbody, -⟩ := hparked u (List.mem_of_mem_tail hu) hwaits
    simp only [hbody, List.cons_append, List.nil_append, List.tail_cons, List.mem_append] at hu
    rcases hu with hu | hu | hu
    · obtain ⟨m, rfl⟩ := hlocking u hu
      exact hwaits
    · obtain ⟨-, hnil, -⟩ := hleads.parked u (List.mem_append_right _ hu) hwaits
      simp [hnil] at hu
    · apply hs.parked p u _ hwaits
      rwa [hp]
  · intro h call saw hhead
    apply (hparked _ (List.mem_of_mem_head? hhead) trivial).2 h call saw rfl
  · intro q hq h call saw hhead hread
    rcases (hkeeps h).woken hread with hbefore | hwoken
    · rcases hs.notified q h call saw hhead hbefore with hnotify | hclosed | hnext
      · rcases (hkeeps h).notify hnotify with hnotify | howns
        · exact .inl hnotify
        · have hmine := hs.sound.own p t htop _ howns
          have htheirs := hs.sound.own q _ (List.mem_of_mem_head? hhead) (.readMu h) rfl
          rw [hmine] at htheirs
          exact absurd (Option.some.inj htheirs).symm hq
      · exact .inr (.inl ((hkeeps h).closed hclosed))
      · by_cases hwake : t = .wakeReader h
        · subst hwake
          cases he
          left
          simp [Data.update]
        · refine .inr (.inr (hnext.of_ne hstack ?_))
          simpa [hp] using hwake
    · right
      right
      apply next_iff.mpr
      refine ⟨p, halive, ?_⟩
      rw [hstack, if_pos rfl, List.append_assoc, List.head?_append, hwoken]
      rfl

theorem Ordered.advance (h : s.advance cfg p k ok = some s') :
  s'.Ordered
  := by
  rcases advance_cases h with ⟨m, rest, hp, rfl⟩ | ⟨t, rest, e, hp, hne, he, hlocks⟩
  · apply hs.drop halive hinside hp
  · have hleads := Task.run_leads he
    have hunder : ∀ m, t.Under m → ∀ u ∈ e.body ++ e.tail, u.Under m := by
      intro m ht
      cases m with
      | readMu h => exact hleads.reads ht
      | writeMu h =>
          intros
          trivial
      | feedMu h | finalizeOnce h | closeOnce => exact hleads.handles ht
    rcases hlocks with ⟨hneeds, rfl⟩ | ⟨m, hneeds, hfree, rfl⟩
    · refine hs.run halive hinside [] hp he (by simp) ?_ ?_ ?_
      · apply hs.sound.reply hp _ hleads.ne_unlock
        intro u hu
        rcases List.mem_append.mp hu with hu | hu
        · rcases hleads.owns_body u hu with hnone | hsame | ⟨h, call, rfl, -⟩
          · exact .inl hnone
          · exact .inr hsame
          · contradiction
        · exact .inl (hleads.owns_tail u hu)
      · apply hs.guards.reply hp hne hunder
      · intro q
        rw [Locks.stack_reply]
        simp
    · refine hs.run halive hinside [.unlock m] hp he (by simp) ?_ ?_ ?_
      · apply hs.sound.take (fun _ => rfl) hp hfree _ _ hleads.ne_unlock
        · intro u hu
          rcases hleads.owns_body u hu with hnone | hsame | ⟨h, call, rfl, hread⟩
          · exact .inl hnone
          · exact .inl (hsame.trans (Task.owns_of_needs hneeds))
          · exact .inr (hread.trans hneeds)
        · intro u hu
          exact .inl (hleads.owns_tail u hu)
      · apply hs.guards.take hp hne (hleads.under hneeds)
        intro m' ht
        refine ⟨?_, hunder m' ht⟩
        cases m' with
        | readMu h => exact .inr (Task.writes_unlock ht hneeds)
        | _ => trivial
      · intro q
        rw [Locks.stack_take]
        simp

end

/-- The channels differ in nothing that decides whether a reader waits. -/
def Alike (c c' : Channel) : Prop :=
  c'.readDone = c.readDone ∧ c'.notify = c.notify ∧ c'.closed = c.closed

theorem alike_update {d : Data} {h : Nat} {f : Channel → Channel}
    (hf : Alike (d.heap h) (f (d.heap h))) (h' : Nat) :
  Alike (d.heap h') ((d.update h f).heap h')
  := by
  by_cases heq : h' = h
  · subst heq
    simpa [Data.update] using hf
  · simp [Data.update, heq, Alike]

/-- An idle process gets something to do. -/
theorem Ordered.begin (hs : s.Ordered) {d : Data} (h : s.begin p d tasks = some s')
    (hdata : ∀ h, Alike (s.data.heap h) (d.heap h))
    (hfresh : ∀ t ∈ tasks, t.owns = none ∧ t.Apt d)
    (hloops : p = .readLoop ∨ p = .arqLoop → ∀ t ∈ tasks, t.Handles) :
  s'.Ordered
  := by
  obtain ⟨⟨halive, hinside, hp⟩, h⟩ := Option.ite_none_right_eq_some.mp h
  cases h
  have hstack := fun q => Locks.stack_reply (l := s.locks) (p := p) q tasks
  have hparked : ∀ t ∈ tasks, ¬ t.Parked := by
    intro t ht hwaits
    cases t with
    | select =>
        have hnone := (hfresh _ ht).1
        contradiction
    | _ => exact hwaits
  refine hs.replace halive hinside ?_ (hs.guards.start hp tasks) hstack (fun h hread => ?_)
    (fun t ht => (hfresh t ht).2) hloops ?_ ?_ ?_
  · apply hs.sound.start (fun t ht => (hfresh t ht).1)
    rintro t ht m rfl
    have hnone := (hfresh _ ht).1
    contradiction
  · rw [(hdata h).1]
    exact hread
  · intro t ht
    exact hparked t (List.mem_of_mem_tail ht)
  · intro h call saw hhead
    exact absurd trivial (hparked _ (List.mem_of_mem_head? hhead))
  · intro q _ h call saw hq hread
    obtain ⟨hsame, hnotify', hclosed'⟩ := hdata h
    rw [hsame] at hread
    rw [hnotify', hclosed']
    rcases hs.notified q h call saw hq hread with hnotify | hclosed | hnext
    · exact .inl hnotify
    · exact .inr (.inl hclosed)
    · refine .inr (.inr (hnext.of_ne hstack ?_))
      simp [hp]

theorem Ordered.step (hs : s.Ordered) {e : Event} (h : s.step cfg e = some s') :
  s'.Ordered
  := by
  cases e with
  | go =>
      cases h
      have hmore : ∀ p, s.isAlive p = true →
          isAlive { s with goroutines := s.goroutines + 1 } p = true := by
        intro p hp
        cases p with
        | goroutine n =>
            simp only [isAlive, decide_eq_true_eq] at hp ⊢
            omega
        | _ => rfl
      refine ⟨hs.sound, hs.guards, hs.apt, hs.loops, hs.parked, ?_,
        fun p => (hs.alive p).imp_left (hmore p), hs.inside⟩
      intro p h call saw hp hread
      refine (hs.notified p h call saw hp hread).imp_right (Or.imp_right fun hnext => ?_)
      obtain ⟨q, halive, hq⟩ := next_iff.mp hnext
      exact next_iff.mpr ⟨q, hmore q halive, hq⟩
  | receive f =>
      obtain ⟨-, h⟩ := Option.ite_none_right_eq_some.mp h
      refine hs.begin h (fun _ => ⟨rfl, rfl, rfl⟩) ?_ ?_
      · cases f <;> simp [Frame.tasks, Task.owns, Task.Apt]
      · cases f <;> simp [Frame.tasks, Task.Handles]
  | tick h' giveUp =>
      obtain ⟨-, h⟩ := Option.ite_none_right_eq_some.mp h
      split at h
      · refine hs.begin h (fun _ => ⟨rfl, rfl, rfl⟩) ?_ ?_
        · simp [Task.owns, Task.Apt]
        · simp [Task.Handles]
      · refine hs.begin h ?_ (by simp) (by simp)
        apply alike_update
        exact ⟨rfl, rfl, rfl⟩
  | call n r =>
      obtain ⟨-, h⟩ := Option.ite_none_right_eq_some.mp h
      refine hs.begin h ?_ ?_ (by simp)
      · cases r with
        | lateFin | localClose =>
            dsimp only [Request.begin]
            apply alike_update
            exact ⟨rfl, rfl, rfl⟩
        | _ => exact fun _ => ⟨rfl, rfl, rfl⟩
      · cases r <;> simp [Request.tasks, Task.owns, Task.Apt]
  | wait n w =>
      obtain ⟨⟨halive, houtput⟩, h⟩ := Option.ite_none_right_eq_some.mp h
      cases h
      refine ⟨hs.sound, hs.guards, hs.apt, hs.loops, hs.parked, hs.notified, hs.alive, ?_⟩
      intro p
      by_cases hp : p = .goroutine n
      · subst hp
        exact .inr ⟨⟨n, rfl⟩, houtput⟩
      · simpa [hp] using hs.inside p
  | run p k ok =>
      obtain ⟨⟨halive, hinside⟩, h⟩ := Option.ite_none_right_eq_some.mp h
      exact hs.advance halive hinside h

theorem ordered_init (cfg : SessionConfig) :
  (init cfg).Ordered
  := by
  refine ⟨⟨?_, ?_⟩, ?_, ?_, ?_, ?_, ?_, fun _ => .inr rfl, fun _ => .inl rfl⟩
  · intro p t ht
    contradiction
  · intro p above m below h
    simp [init] at h
  · intro p m h
    contradiction
  · intro p t ht
    contradiction
  · intro p _ t ht
    contradiction
  · intro p t ht
    contradiction
  · intro p h call saw hp
    contradiction

/-! ### Waiting -/

/-- The process is in a `Write` and holds `readMu` of a channel: it is in the `Write` that
`WriteTo` makes. -/
def Writing (s : State) (p : Proc) : Bool :=
  (s.locks.stack p).head?.any Task.isWriting && (s.locks.stack p).any Task.unlocksReadMu

/-- The process handles a frame or ends a channel, or it reads from a channel after the stream has
ended. -/
def Calm (s : State) (p : Proc) : Prop :=
  s.outside p = none ∧ ∀ t ∈ (s.locks.stack p).head?,
    t.Handles ∨ ∃ h, t.Reads h ∧ (s.data.heap h).readDone = true

section

variable (hs : s.Ordered) {p q : Proc}

include hs

/-- One who holds a lock releases it. -/
theorem Ordered.unlock_mem {m : Mutex} (hm : s.locks.holder m = some p) :
  .unlock m ∈ s.locks.stack p
  := by
  obtain ⟨above, below, hstack, -⟩ := hs.guards p m hm
  rw [hstack]
  simp

/-- A process that handles a frame or ends a channel is in no code of the application. -/
theorem Ordered.outside_eq_none {t : Task} (hp : (s.locks.stack p).head? = some t)
    (ht : t.isOutput = false) :
  s.outside p = none
  := by
  obtain hnone | ⟨-, houtput⟩ := hs.inside p
  · exact hnone
  · simp [hp, ht] at houtput

/-- A process that handles a frame or ends a channel waits for nothing but such processes, readers
of channels whose stream has ended, and writers. -/
theorem Ordered.calm (hp : s.Calm p) (hwaits : s.waitsFor p = some q) :
  s.Calm q ∨ s.Writing q = true
  := by
  unfold waitsFor at hwaits
  rw [hp.1] at hwaits
  obtain ⟨t, ht, hwaits⟩ := Option.bind_eq_some_iff.mp hwaits
  obtain ⟨m, hneeds, hholder⟩ := Option.bind_eq_some_iff.mp hwaits
  have hhandles : t.Handles := by
    rcases hp.2 t ht with hhandles | ⟨h, hreads, -⟩
    · exact hhandles
    · rw [hreads.needs] at hneeds
      contradiction
  have hapt := hs.apt p t (List.mem_of_mem_head? ht)
  have hlast := hs.unlock_mem hholder
  obtain ⟨u, rest, hq⟩ := List.exists_cons_of_ne_nil (List.ne_nil_of_mem hlast)
  have hcalm : u.isOutput = false → (u.Handles ∨ ∃ h, u.Reads h ∧ (s.data.heap h).readDone = true) →
      s.Calm q := by
    intro houtput hu
    refine ⟨hs.outside_eq_none (by simp [hq]) houtput, ?_⟩
    simpa [hq] using hu
  rcases hs.guards.head hholder hq with hunder | rfl
  · cases m with
    | readMu h =>
        by_cases hwriting : u.isWriting = true
        · right
          have hholds : (s.locks.stack q).any Task.unlocksReadMu = true :=
            List.any_eq_true.mpr ⟨_, hlast, rfl⟩
          rw [Writing, hholds, hq]
          simpa using hwriting
        · left
          have hdone : (s.data.heap h).readDone = true := by
            cases t with
            | takeRing h' =>
                obtain ⟨rfl⟩ : h' = h := by simpa [Task.needs] using hneeds
                exact hapt
            | read => exact hhandles.elim
            | _ => simp [Task.needs] at hneeds
          apply hcalm
          · cases u <;> first | rfl | exact absurd rfl hwriting
          · rcases hunder with hreads | hwrites
            · exact .inr ⟨h, hreads, hdone⟩
            · left
              cases u <;> trivial
    | writeMu h =>
        cases t with
        | lateFin | write => exact hhandles.elim
        | _ => simp [Task.needs] at hneeds
    | feedMu h | finalizeOnce h | closeOnce =>
        exact .inl (hcalm (Task.Handles.isOutput hunder) (.inl hunder))
  · exact .inl (hcalm rfl (.inl trivial))

/-- The loops do not write. -/
theorem Ordered.writing (hp : s.Writing p = true) :
  ∃ n < s.goroutines, p = .goroutine n
  := by
  obtain ⟨t, ht, hwriting⟩ : ∃ t, (s.locks.stack p).head? = some t ∧ t.isWriting = true := by
    cases hhead : (s.locks.stack p).head? with
    | none => simp [Writing, hhead] at hp
    | some t => exact ⟨t, rfl, by simp_all [Writing]⟩
  have hloops : ¬ (p = .readLoop ∨ p = .arqLoop) := by
    intro hloop
    have hhandles := hs.loops p hloop t (List.mem_of_mem_head? ht)
    cases t <;> simp [Task.isWriting, Task.Handles] at hwriting hhandles
  cases p with
  | goroutine n =>
      refine ⟨n, ?_, rfl⟩
      rcases hs.alive (.goroutine n) with halive | hnil
      · simpa [isAlive] using halive
      · simp [hnil] at ht
  | _ => simp at hloops

/-- Such a process does not wait for a frame. -/
theorem Ordered.not_awaits (hp : s.Calm p) :
  ¬ s.AwaitsFrame p
  := by
  rintro (houtside | hstarved)
  · rw [hp.1] at houtside
    contradiction
  unfold Starved at hstarved
  split at hstarved
  · rename_i h call saw rest hstack
    obtain ⟨hnotify, hclosed, hnext⟩ := hstarved
    rcases hp.2 (.select h call saw) (by simp [hstack]) with hhandles | ⟨h', hreads, hread⟩
    · exact hhandles
    · obtain rfl : h = h' := hreads
      rcases hs.notified p h call saw (by simp [hstack]) hread with hnotify' | hclosed' | hnext'
      · simp [hnotify] at hnotify'
      · simp [hclosed] at hclosed'
      · exact hnext hnext'
  · rename_i h n rest hstack
    rcases hp.2 (.awaitCredit h n) (by simp [hstack]) with hhandles | ⟨h', hreads, -⟩
    · exact hhandles
    · exact hreads
  · exact hstarved

end

/-- The loops of a session do not wait for a lock whose holder waits, directly or through others,
for a frame, if no goroutine waits for one in the `Write` that `WriteTo` makes. -/
theorem loops_wait_for_no_frame (cfg : SessionConfig) (s : State)
    (hrun : Run (step cfg) (fun _ _ => True) (init cfg) s)
    (hwriters : ∀ n < s.goroutines, s.Writing (.goroutine n) = true → ∀ q,
      Relation.ReflTransGen (fun p q => s.waitsFor p = some q) (.goroutine n) q →
      ¬ s.AwaitsFrame q)
    (p : Proc) (hp : p = .readLoop ∨ p = .arqLoop) (q : Proc)
    (hwaits : Relation.TransGen (fun p q => s.waitsFor p = some q) p q) :
  ¬ s.AwaitsFrame q
  := by
  have hs : s.Ordered := by
    apply hrun.invariant (I := Ordered) _ (ordered_init cfg)
    intro s e s' hs _ hstep
    exact hs.step hstep
  have hcalm : s.Calm q ∨ ∃ w, s.Writing w = true
      ∧ Relation.ReflTransGen (fun p q => s.waitsFor p = some q) w q := by
    have hloop : s.Calm p := by
      refine ⟨?_, fun t ht => .inl (hs.loops p hp t (List.mem_of_mem_head? ht))⟩
      rcases hs.inside p with hnone | ⟨⟨n, rfl⟩, -⟩
      · exact hnone
      · simp at hp
    induction hwaits with
    | single hwaits => exact (hs.calm hloop hwaits).imp_right fun hw => ⟨_, hw, .refl⟩
    | tail _ hwaits ih =>
        rcases ih with hcalm | ⟨w, hw, hreach⟩
        · exact (hs.calm hcalm hwaits).imp_right fun hw => ⟨_, hw, .refl⟩
        · exact .inr ⟨w, hw, hreach.tail hwaits⟩
  rcases hcalm with hcalm | ⟨w, hw, hreach⟩
  · exact hs.not_awaits hcalm
  · obtain ⟨n, hn, rfl⟩ := hs.writing hw
    exact hwriters n hn hw q hreach

/-- A channel is written to a pipe with `WriteTo` when the end of its stream comes.  `readLoop`
waits for `readMu`, which the writer holds, and the writer waits for the goroutine that reads from
the pipe and writes to another channel, which has credit. -/
theorem loops_wait_for_no_frame_output :
  ∃ s : State, s.waitsFor .readLoop = some (.goroutine 1)
    ∧ s.waitsFor (.goroutine 1) = some (.goroutine 2)
    ∧ (s.locks.stack (.goroutine 2)).head? = some (.acquire 1 4)
    ∧ ¬ s.AwaitsFrame (.goroutine 2)
  := by
  obtain ⟨s, hrun, hloop, hpipe, hhead, hlast, hawaits, hwriting⟩ :=
    Run.exists_of_exec (step (smallConfig false)) (fun _ _ => True) (init (smallConfig false))
      (List.flatten [List.replicate 3 .go, [.call 0 (.openChannel [])],
        List.replicate 2 (.run (.goroutine 0) 0 true), [.call 0 (.openChannel [])],
        List.replicate 2 (.run (.goroutine 0) 0 true), [.call 0 (.closeWrite 0)],
        List.replicate 2 (.run (.goroutine 0) 0 true), [.receive (.data 0 1 false)],
        List.replicate 3 (.run .readLoop 0 true), [.call 1 (.writeTo 0 .other)],
        List.replicate 2 (.run (.goroutine 1) 0 true), [.call 2 (.write 1 4),
          .run (.goroutine 2) 0 true, .wait 1 (some (.process (.goroutine 2))),
          .receive (.fin 0 false)], List.replicate 7 (.run .readLoop 0 true)])
      (fun s => s.waitsFor .readLoop = some (.goroutine 1)
        ∧ s.waitsFor (.goroutine 1) = some (.goroutine 2)
        ∧ (s.locks.stack (.goroutine 2)).head? = some (.acquire 1 4)
        ∧ s.waitsFor (.goroutine 2) = none
        ∧ (¬ s.AwaitsFrame (.goroutine 1) ∧ ¬ s.AwaitsFrame (.goroutine 2))
        ∧ ∀ n < s.goroutines, s.Writing (.goroutine n) = true → n = 1)
      (by decide +kernel)
  refine ⟨s, hloop, hpipe, hhead, ?_⟩
  refine loops_wait_for_no_frame (smallConfig false) s hrun ?_ .readLoop (.inl rfl) (.goroutine 2)
    (.tail (.single hloop) hpipe)
  intro n hn hw q hreach
  obtain rfl := hwriting n hn hw
  rcases hreach.cases_head with rfl | ⟨p, hp, hreach⟩
  · exact hawaits.1
  · obtain rfl := Option.some.inj (hp.symm.trans hpipe)
    rcases hreach.cases_head with rfl | ⟨p, hp, -⟩
    · exact hawaits.2
    · simp [hlast] at hp

/-- A channel is written to another channel of the same session, whose window is used up, when the
end of its stream comes.  `readLoop` waits for `readMu`, whose holder waits for credit. -/
theorem readLoop_waits_for_credit :
  ∃ s : State, Run (step (smallConfig false)) (fun _ _ => True) (init (smallConfig false)) s
    ∧ Relation.TransGen (fun p q => s.waitsFor p = some q) .readLoop (.goroutine 1)
    ∧ s.AwaitsFrame (.goroutine 1)
  := by
  obtain ⟨s, hrun, hwaits, hawaits⟩ := Run.exists_of_exec (step (smallConfig false))
    (fun _ _ => True) (init (smallConfig false))
    (List.flatten [[.go, .go, .call 0 (.openChannel [])],
      List.replicate 2 (.run (.goroutine 0) 0 true),
      [.call 0 (.openChannel [])], List.replicate 2 (.run (.goroutine 0) 0 true),
      [.call 0 (.closeWrite 0)], List.replicate 2 (.run (.goroutine 0) 0 true),
      [.call 0 (.write 1 8)], List.replicate 4 (.run (.goroutine 0) 0 true),
      [.receive (.data 0 1 false)], List.replicate 3 (.run .readLoop 0 true),
      [.call 1 (.writeTo 0 (.channel 1))], List.replicate 4 (.run (.goroutine 1) 0 true),
      [.receive (.fin 0 false)], List.replicate 7 (.run .readLoop 0 true)])
    (fun s => s.waitsFor .readLoop = some (.goroutine 1) ∧ s.AwaitsFrame (.goroutine 1))
    (by decide +kernel)
  exact ⟨s, hrun, .single hwaits, hawaits⟩

end State

end Goroutines

end Muxocket
