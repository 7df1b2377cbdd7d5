import Muxocket.CreditWakeup

/-!
# What writers and other goroutines leave of the credit

Three things that hold for each step on its own.  The tasks of a goroutine come in a sensible
order: whoever closes the writing side of a channel wakes its writer afterwards, and a channel
leaves the table only when its writing side has been closed.  A task that adds credit leads to
tasks that leave tokens, and no task takes a token away.  A writer touches nothing but the
counters and its own token, and nothing at all between having seen its channel open and waiting.
-/

namespace Muxocket.CreditWakeup

open Wakeup (Once)

variable {ι : Type} [DecidableEq ι]

/-! ### Stacks of tasks -/

/-- Whether a task may be done, when the writing sides of the channels `known` have been closed
and the tasks `rest` are left. -/
def Task.Fits (known : ι → Prop) (rest : List (Task ι)) : Task ι → Prop
  | .writeOnce i wakes => wakes = false → .wakeWriter i ∈ rest
  | .storeWriteClosed i => .wakeWriter i ∈ rest
  | .writeOnceDone i => known i
  | .storeFinQueued i => known i
  | .finalize i => known i
  | _ => True

/-- The channels whose writing sides are closed after a task. -/
def Task.closing (known : ι → Prop) : Task ι → ι → Prop
  | .writeOnce i _ => fun j => j = i ∨ known j
  | .storeWriteClosed i => fun j => j = i ∨ known j
  | _ => known

/-- Every task of a stack may be done when its turn comes. -/
def Sound (known : ι → Prop) : List (Task ι) → Prop
  | [] => True
  | t :: rest => t.Fits known rest ∧ Sound (t.closing known) rest

omit [DecidableEq ι] in
theorem Task.Fits.mono {known known' : ι → Prop} (h : ∀ i, known i → known' i) {t : Task ι}
    {rest : List (Task ι)} (ht : t.Fits known rest) :
  t.Fits known' rest
  := by
  cases t <;> first | exact ht | exact h _ ht

omit [DecidableEq ι] in
theorem Task.closing_mono {known known' : ι → Prop} (h : ∀ i, known i → known' i) (t : Task ι)
    (i : ι) (hi : t.closing known i) :
  t.closing known' i
  := by
  cases t <;> first | exact h i hi | exact hi.imp id (h i)

omit [DecidableEq ι] in
theorem Sound.mono {known known' : ι → Prop} (h : ∀ i, known i → known' i) {tasks : List (Task ι)}
    (hs : Sound known tasks) :
  Sound known' tasks
  := by
  induction tasks generalizing known known' with
  | nil => trivial
  | cons t rest ih => exact ⟨hs.1.mono h, ih (t.closing_mono h) hs.2⟩

omit [DecidableEq ι] in
theorem Task.Fits.append {known : ι → Prop} {t : Task ι} {rest : List (Task ι)}
    (ht : t.Fits known rest) (tasks : List (Task ι)) :
  t.Fits known (rest ++ tasks)
  := by
  cases t with
  | writeOnce i wakes => exact fun h => List.mem_append_left _ (ht h)
  | storeWriteClosed i => exact List.mem_append_left _ ht
  | _ => exact ht

omit [DecidableEq ι] in
theorem Task.le_closing (known : ι → Prop) (t : Task ι) (i : ι) (hi : known i) :
  t.closing known i
  := by
  cases t <;> first | exact hi | exact Or.inr hi

omit [DecidableEq ι] in
theorem Sound.append {known : ι → Prop} {tasks rest : List (Task ι)} (hs : Sound known tasks)
    (hrest : Sound known rest) :
  Sound known (tasks ++ rest)
  := by
  induction tasks generalizing known with
  | nil => exact hrest
  | cons t tasks ih =>
      use hs.1.append rest
      exact ih hs.2 (hrest.mono (t.le_closing known))

omit [DecidableEq ι] in
theorem sound_localClose (known : ι → Prop) (i : ι) :
  Sound known (localClose i)
  := by
  simp [Sound, localClose, Task.Fits, Task.closing]

omit [DecidableEq ι] in
theorem sound_peerGone (known : ι → Prop) (i : ι) :
  Sound known (peerGone i)
  := by
  simp [Sound, peerGone, Task.Fits, Task.closing]

omit [DecidableEq ι] in
theorem sound_flatMap (known : ι → Prop) (f : ι → List (Task ι)) (hf : ∀ i, Sound known (f i))
    (table : List ι) :
  Sound known (table.flatMap f)
  := by
  induction table with
  | nil => trivial
  | cons i table ih =>
      rw [List.flatMap_cons]
      apply (hf i).append ih

omit [DecidableEq ι] in
theorem Request.sound_tasks (known : ι → Prop) (s : Session ι) (r : Request ι) :
  Sound known (r.tasks s)
  := by
  cases r with
  | localClose i => apply sound_localClose
  | addCredits | sessionAddCredits | refund =>
      simp only [Request.tasks, sessionRefund]
      split_ifs <;> simp [Sound, Task.Fits]
  | closeWrite | close | peerReset | remoteClose | closeSession =>
      simp [Request.tasks, Sound, Task.Fits]

/-! ### What a task leaves -/

@[simp]
theorem channel_update (s : Session ι) (i j : ι) (f : Channel → Channel) :
  (s.update i f).channel j = if j = i then f (s.channel i) else s.channel j
  := Function.update_apply _ _ _ _

/-- What a task leaves of channel `i`: credit that it adds is followed by a token, no token is
taken away, and only some tasks change the flags that a channel goes through at its end. -/
structure Channel.Leaves (i : ι) (c c' : Channel) (t : Task ι) (tasks : List (Task ι)) :
    Prop where
  stream : c'.sendCredits = c.sendCredits
    ∨ .wakeWriter i ∈ tasks ∧ c'.sendCredits < 2 ^ 31
  notify : c.winNotify = true → c'.winNotify = true
  opened : c'.opened = c.opened
  closes : c.writeClosed = true → c'.writeClosed = true
  writeClosed : c'.writeClosed = true → c.writeClosed = true ∨ t = .storeWriteClosed i
  writeOnce : c'.writeOnce = .finished → c.writeOnce = .finished ∨ t = .writeOnceDone i
  finQueued : c'.finQueued = true → c.finQueued = true ∨ t = .storeFinQueued i

/-- What a task leaves of a session: credit that it adds is followed by tokens for the channels
in the table, and a channel leaves the table when it ends, or when the session does. -/
structure Task.Leaves (s s' : Session ι) (t : Task ι) (tasks : List (Task ι)) : Prop where
  channel : ∀ i, Channel.Leaves i (s.channel i) (s'.channel i) t tasks
  session : s'.sendCredits = s.sendCredits ∨ .lockTable ∈ tasks ∧ s'.sendCredits < 2 ^ 31
  enabled : s'.enabled = s.enabled
  die : s.die = true → s'.die = true
  table : ∀ i ∈ s.table, i ∈ s'.table ∨ t = .finalize i ∨ ∃ graceful, t = .clearTable graceful
  clear : ∀ graceful, .clearTable graceful ∈ tasks → s'.die = true

omit [DecidableEq ι] in
theorem Channel.Leaves.refl (i : ι) (c : Channel) (t : Task ι) (tasks : List (Task ι)) :
  Channel.Leaves i c c t tasks
  := by
  constructor <;> simp +contextual

variable {s s' : Session ι} {t : Task ι} {tasks : List (Task ι)} {o : Choice ι} {i : ι} {r : Writer}

/-- A task that changes one channel. -/
theorem Task.Leaves.update (i : ι) {f : Channel → Channel}
    (hf : Channel.Leaves i (s.channel i) (f (s.channel i)) t tasks)
    (hclear : ∀ graceful, .clearTable graceful ∉ tasks) :
  Task.Leaves s (s.update i f) t tasks
  := by
  constructor
  · intro j
    rw [channel_update]
    split
    · rename_i hj
      subst hj
      exact hf
    · apply Channel.Leaves.refl
  · exact Or.inl rfl
  · rfl
  · exact id
  · intro j hj
    exact Or.inl hj
  · intro graceful h
    exact absurd h (hclear graceful)

theorem Task.leaves_perform (h : t.perform s o = some (s', tasks)) :
  Task.Leaves s s' t tasks
  := by
  unfold Task.perform at h
  split at h
  case h_1 i n =>
    cases h
    apply Task.Leaves.update
    · constructor
      case stream => exact Or.inr ⟨List.mem_singleton_self _, int32_lt _⟩
      all_goals simp +contextual
    · simp
  case h_3 n =>
    cases h
    constructor
    case channel => exact fun i => .refl i _ _ _
    case session => exact Or.inr ⟨List.mem_singleton_self _, int32_lt _⟩
    all_goals simp +contextual
  case h_17 i =>
    obtain ⟨-, heq⟩ := Run.guard h
    cases heq
    constructor
    case channel => exact fun i => .refl i _ _ _
    case table =>
      intro j hj
      by_cases hji : j = i
      · subst hji
        exact Or.inr (Or.inl rfl)
      · left
        exact (List.mem_erase_of_ne hji).mpr hj
    all_goals simp
  case h_21 graceful =>
    obtain ⟨-, heq⟩ := Run.guard h
    cases heq
    constructor
    case channel => exact fun i => .refl i _ _ _
    case clear =>
      intro g hg
      obtain ⟨i, -, hi⟩ := List.mem_flatMap.mp hg
      split at hi <;> simp [peerGone, localClose] at hi
    all_goals simp
  all_goals
    try split at h
    all_goals
      first
      | contradiction
      | cases h
        first
        | apply Task.Leaves.update
          · constructor <;> simp +contextual
          · simp
        | constructor
          · exact fun i => .refl i _ _ _
          all_goals simp +contextual

/-- A task by which a goroutine leaves a token for the writer of channel `i` on its way through
the table. -/
def Task.visits (table : List ι) (i : ι) : Task ι → Prop
  | .lockTable => i ∈ table
  | .wakeAll todo => i ∈ todo
  | _ => False

theorem Task.visits_perform (h : t.perform s o = some (s', tasks)) (hi : t.visits s.table i) :
  (s'.channel i).winNotify = true ∨ ∃ u ∈ tasks, u.visits s'.table i
  := by
  cases t with
  | lockTable =>
      cases o with
      | go =>
          cases h
          right
          exact ⟨_, List.mem_singleton_self _, hi⟩
      | _ => contradiction
  | wakeAll todo =>
      cases todo with
      | nil => exact absurd hi List.not_mem_nil
      | cons j todo =>
          cases o with
          | visit k =>
              obtain ⟨-, heq⟩ := Run.guard h
              cases heq
              by_cases hik : i = k
              · left
                simp [hik]
              · right
                exact ⟨_, List.mem_singleton_self _, (List.mem_erase_of_ne hik).mpr hi⟩
          | _ => contradiction
  | _ => contradiction

theorem Task.wakeWriter_perform (h : (Task.wakeWriter i).perform s o = some (s', tasks)) :
  (s'.channel i).winNotify = true
  := by
  cases o with
  | go =>
      obtain ⟨rfl, -⟩ := Prod.mk.inj (Option.some.inj h)
      simp
  | _ => contradiction

/-- The tasks that a task leads to may be done when their turn comes, and so may those that were
left. -/
theorem Task.sound_perform {rest : List (Task ι)} (h : t.perform s o = some (s', tasks))
    (honce : ∀ i, (s.channel i).writeOnce = .finished → (s.channel i).writeClosed = true)
    (hfin : ∀ i, (s.channel i).finQueued = true → (s.channel i).writeClosed = true)
    (hsound : Sound (fun i => (s.channel i).writeClosed = true) (t :: rest)) :
  Sound (fun i => (s'.channel i).writeClosed = true) (tasks ++ rest)
  := by
  obtain ⟨hfits, hrest⟩ := hsound
  have hcloses := fun i => ((Task.leaves_perform h).channel i).closes
  unfold Task.perform at h
  split at h
  case h_7 i wakes =>
    split at h
    · cases h
      have hwake : .wakeWriter i
          ∈ (if wakes then [Task.wakeWriter i] else []) ++ [.writeOnceDone i] ++ rest := by
        cases wakes with
        | false => simp [hfits rfl]
        | true => simp
      have hdone : Sound (fun j => j = i ∨ (s.channel j).writeClosed = true)
          ((if wakes then [Task.wakeWriter i] else []) ++ [.writeOnceDone i]) := by
        cases wakes <;> simp [Sound, Task.Fits, Task.closing]
      have hsound : Sound (fun j => (s.channel j).writeClosed = true)
          (.storeWriteClosed i :: ((if wakes then [Task.wakeWriter i] else []) ++ [.writeOnceDone i]
            ++ rest)) :=
        ⟨hwake, hdone.append hrest⟩
      apply hsound.mono hcloses
    · contradiction
    · rename_i hfinished
      cases h
      refine hrest.mono ?_
      rintro j (rfl | hj)
      · exact honce j hfinished
      · exact hj
  case h_8 i =>
    cases h
    refine hrest.mono ?_
    rintro j (rfl | hj)
    · simp
    · exact hcloses j hj
  case h_10 i wakes =>
    split at h
    · cases h
      refine Sound.append ?_ (hrest.mono hcloses)
      cases wakes <;> simp [Sound, Task.Fits]
    · contradiction
    · cases h
      exact hrest
  case h_15 i =>
    cases h
    split
    · rename_i hqueued
      exact ⟨hfin i hqueued, hrest⟩
    · exact hrest
  case h_21 graceful =>
    obtain ⟨-, heq⟩ := Run.guard h
    cases heq
    refine Sound.append (sound_flatMap _ _ (fun i => ?_) _) hrest
    split
    · apply sound_peerGone
    · apply sound_localClose
  all_goals
    try split at h
    all_goals
      first
      | contradiction
      | cases h
        refine Sound.append ?_ (hrest.mono hcloses)
        simp [Sound, Task.Fits]

/-! ### What a step of a writer leaves -/

/-- The writer has seen that the writing side of its channel was open. -/
def Writer.sawOpen : Writer → Prop
  | .loadSessionClosed _ => True
  | .loadStream _ => True
  | .loadSession _ _ => True
  | .recheckClosed _ => True
  | .recheckSession _ => True
  | .parked _ => True
  | _ => False

/-- The writer has found no credit. -/
def Writer.foundNothing : Writer → Prop
  | .recheckClosed _ => True
  | .recheckSession _ => True
  | .parked _ => True
  | _ => False

theorem Writer.sawOpen_of_foundNothing (h : r.foundNothing) :
  r.sawOpen
  := by
  cases r <;> trivial

/-- A writer asks for a positive amount and takes one, which is not more than what it has
loaded. -/
def Writer.Ok : Writer → Prop
  | .idle => True
  | .loadClosed d => 0 < d
  | .loadWriteClosed d => 0 < d
  | .loadSessionClosed d => 0 < d
  | .loadStream d => 0 < d
  | .loadSession d _ => 0 < d
  | .recheckClosed d => 0 < d
  | .recheckSession d => 0 < d
  | .parked d => 0 < d
  | .sessionLoad d take => 0 < d ∧ 0 < take
  | .sessionCas d take curr => 0 < d ∧ 0 < take ∧ take ≤ curr
  | .streamLoad d take => 0 < d ∧ 0 < take
  | .streamCas d take curr => 0 < d ∧ 0 < take ∧ take ≤ curr
  | .refunding d => 0 < d

/-- What a step of the writer of channel `i` leaves: it touches nothing but the counters and its
own token, and nothing at all on its way from having seen its channel open to waiting. -/
structure Writer.Leaves (s : Session ι) (i : ι) (r : Writer) (t : Turn ι) : Prop where
  ok : t.writer.Ok
  table : t.session.table = s.table
  enabled : t.session.enabled = s.enabled
  die : t.session.die = s.die
  others : ∀ j, j ≠ i → t.session.channel j = s.channel j
  flags : ∀ j, (t.session.channel j).opened = (s.channel j).opened
    ∧ (t.session.channel j).writeClosed = (s.channel j).writeClosed
    ∧ (t.session.channel j).writeOnce = (s.channel j).writeOnce
    ∧ (t.session.channel j).finQueued = (s.channel j).finQueued
  stream : (t.session.channel i).sendCredits = (s.channel i).sendCredits
    ∨ (t.session.channel i).sendCredits < 2 ^ 31
  session : t.session.sendCredits = s.sendCredits
    ∨ 0 < s.sendCredits ∧ t.session.sendCredits < 2 ^ 31
  tasks : t.tasks = [] ∨ ∃ n, t.tasks = [.addSession n]
  started : t.writer ≠ .idle → r ≠ .idle
  same : t.writer.sawOpen → t.session = s
  sawOpen : t.writer.sawOpen → r.sawOpen ∨ (s.channel i).writeClosed = false
  loaded : ∀ d c, t.writer = .loadSession d c → c = (s.channel i).sendCredits
  foundNothing : t.writer.foundNothing → r.foundNothing
    ∨ ∃ d c, r = .loadSession d c ∧ (c ≤ 0 ∨ s.enabled = true ∧ s.sendCredits ≤ 0)

omit [DecidableEq ι] in
/-- A step that changes nothing but the place where the writer is. -/
theorem Writer.Leaves.goTo {s : Session ι} {i : ι} {r r' : Writer} (hok : r'.Ok)
    (hstarted : r' ≠ .idle → r ≠ .idle) 
    (hopen : r'.sawOpen → r.sawOpen ∨ (s.channel i).writeClosed = false)
    (hloaded : ∀ d c, r' = .loadSession d c → c = (s.channel i).sendCredits)
    (hnothing : r'.foundNothing → r.foundNothing
      ∨ ∃ d c, r = .loadSession d c ∧ (c ≤ 0 ∨ s.enabled = true ∧ s.sendCredits ≤ 0)) :
  Writer.Leaves s i r { session := s, writer := r' }
  where
  ok := hok
  table := rfl
  enabled := rfl
  die := rfl
  others _ _ := rfl
  flags _ := ⟨rfl, rfl, rfl, rfl⟩
  stream := Or.inl rfl
  session := Or.inl rfl
  tasks := Or.inl rfl
  started := hstarted
  same _ := rfl
  sawOpen := hopen
  loaded := hloaded
  foundNothing := hnothing

omit [DecidableEq ι] in
/-- A step to a place where the writer has not looked yet whether its channel is open. -/
theorem Writer.Leaves.goBack {s : Session ι} {i : ι} {r r' : Writer} (hok : r'.Ok)
    (hstarted : r ≠ .idle) (hopen : ¬ r'.sawOpen) :
  Writer.Leaves s i r { session := s, writer := r' }
  := by
  apply goTo hok (fun _ => hstarted) (fun h => absurd h hopen)
  · rintro d c rfl
    exact absurd trivial hopen
  · intro h
    cases r' <;> first | exact absurd trivial hopen | exact absurd h id

theorem Writer.leaves_step {e : Event} {t : Turn ι} (hr : r.Ok) (h : r.step s i e = some t) :
  Writer.Leaves s i r t
  := by
  unfold Writer.step at h
  split at h
  case h_1 d =>
    cases h
    split
    · refine Leaves.goBack (by exact trivial) (by simp) (by simp [sawOpen])
    · refine Leaves.goBack (by exact hr) (by simp) (by simp [sawOpen])
  case h_2 d =>
    cases h
    split
    · refine Leaves.goBack (by exact trivial) (by simp) (by simp [sawOpen])
    · rename_i hopen
      refine Leaves.goTo (by exact hr) (by simp) ?_ (by simp) ?_
      · intro _
        right
        simpa using hopen
      · exact False.elim
  case h_3 d =>
    cases h
    split
    · refine Leaves.goBack (by exact trivial) (by simp) (by simp [sawOpen])
    · refine Leaves.goTo (by exact hr) (by simp) ?_ (by simp) ?_
      · intro _
        left
        trivial
      · exact False.elim
  case h_4 d =>
    cases h
    refine Leaves.goTo (by exact hr) (by simp) ?_ ?_ ?_
    · intro _
      left
      trivial
    · rintro d c h
      cases h
      rfl
    · exact False.elim
  case h_5 d c =>
    cases h
    unfold decideTake
    split
    · rename_i hshort
      refine Leaves.goTo (by exact hr) (by simp) ?_ (by simp) ?_
      · intro _
        left
        trivial
      · intro _
        right
        use d, c, rfl
        unfold Session.avail at hshort
        split at hshort <;> simp_all
    · have htake : 0 < min d (min c s.avail) := by
        have : 0 < d := hr
        omega
      split
      · refine Leaves.goBack (by exact ⟨hr, htake⟩) (by simp) (by simp [sawOpen])
      · refine Leaves.goBack (by exact ⟨hr, htake⟩) (by simp) (by simp [sawOpen])
  case h_6 d | h_7 d =>
    cases h
    split
    · refine Leaves.goBack (by exact trivial) (by simp) (by simp [sawOpen])
    · refine Leaves.goTo (by exact hr) (by simp) ?_ (by simp) ?_
      · intro _
        left
        trivial
      · intro _
        left
        trivial
  case h_8 d =>
    obtain ⟨-, rfl⟩ := Run.guard h
    constructor
    case ok => exact hr
    case others =>
      intro j hj
      simp [hj]
    case flags =>
      intro j
      rw [channel_update]
      split <;> simp_all
    all_goals simp [sawOpen, foundNothing, Session.update]
  case h_11 d take =>
    cases h
    split
    · refine Leaves.goBack (by exact hr.1) (by simp) (by simp [sawOpen])
    · rename_i hle
      refine Leaves.goBack (by exact ⟨hr.1, hr.2, not_lt.mp hle⟩) (by simp) (by simp [sawOpen])
  case h_12 d take curr =>
    obtain ⟨hd, htake, hle⟩ := hr
    split at h
    · rename_i hcurr
      cases h
      constructor
      case ok => exact ⟨hd, htake⟩
      case session =>
        right
        exact ⟨by omega, int32_lt _⟩
      all_goals simp [sawOpen, foundNothing]
    · cases h
      refine Leaves.goBack (by exact ⟨hd, htake⟩) (by simp) (by simp [sawOpen])
  case h_13 d take =>
    split at h
    · cases h
      constructor
      case ok => exact hr.1
      case tasks =>
        simp only [sessionRefund]
        split_ifs <;> simp
      all_goals simp [sawOpen, foundNothing]
    · rename_i hle
      cases h
      refine Leaves.goBack (by exact ⟨hr.1, hr.2, not_lt.mp hle⟩) (by simp) (by simp [sawOpen])
  case h_14 d take curr =>
    split at h
    · cases h
      constructor
      case ok => trivial
      case others =>
        intro j hj
        simp [hj]
      case flags =>
        intro j
        rw [channel_update]
        split <;> simp_all
      case stream =>
        right
        rw [channel_update, if_pos rfl]
        exact int32_lt _
      all_goals simp [sawOpen, foundNothing, Session.update]
    · cases h
      refine Leaves.goBack (by exact ⟨hr.1, hr.2.1⟩) (by simp) (by simp [sawOpen])
  case h_15 d =>
    cases h
    refine Leaves.goBack (by exact hr) (by simp) (by simp [sawOpen])
  case h_9 | h_10 =>
    obtain ⟨-, rfl⟩ := Run.guard h
    refine Leaves.goBack (by exact trivial) (by simp) (by simp [sawOpen])
  case h_16 => contradiction

end Muxocket.CreditWakeup
