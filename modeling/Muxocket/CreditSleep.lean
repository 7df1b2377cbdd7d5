import Muxocket.CreditTasks

/-!
# No writer sleeps while there is credit

Credit that comes, or the end of a channel, after a writer has looked for it is followed by a
token, by whoever has added the credit or closed the channel.  A channel that has left the table
is not visited any more when credit of the session comes, but by then its writing side has been
closed, and its writer has been woken for this reason.
-/

namespace Muxocket.CreditWakeup

variable {ι κ : Type} [DecidableEq ι] [DecidableEq κ]

namespace State

/-- Somebody is about to leave a token for the writer of channel `i`. -/
def Owed (s : State ι κ) (i : ι) : Prop :=
  ∃ p, .wakeWriter i ∈ s.tasks p

/-- Somebody is about to leave a token for the writer of channel `i` on the way through the
table. -/
def Visited (s : State ι κ) (i : ι) : Prop :=
  ∃ p, ∃ t ∈ s.tasks p, t.visits s.session.table i

/-- The writer of channel `i` does not have to wait for anything else. -/
def Woken (s : State ι κ) (i : ι) : Prop :=
  s.session.die = true ∨ (s.session.channel i).winNotify = true ∨ s.Owed i

/-- Credit or the end of its channel that a writer has not seen is followed by a token. -/
structure Inv (s : State ι κ) : Prop where
  bounded : s.session.sendCredits < 2 ^ 31 ∧ ∀ i, (s.session.channel i).sendCredits < 2 ^ 31
  writeOnce : ∀ i, (s.session.channel i).writeOnce = .finished →
    (s.session.channel i).writeClosed = true
  finQueued : ∀ i, (s.session.channel i).finQueued = true →
    (s.session.channel i).writeClosed = true
  sound : ∀ p, Sound (fun i => (s.session.channel i).writeClosed = true) (s.tasks p)
  clear : ∀ p graceful, .clearTable graceful ∈ s.tasks p → s.session.die = true
  opened : ∀ i, s.writer i ≠ .idle → (s.session.channel i).opened = true
  table : ∀ i, (s.session.channel i).opened = true →
    i ∈ s.session.table ∨ (s.session.channel i).writeClosed = true ∨ s.session.die = true
  ok : ∀ i, (s.writer i).Ok
  sawOpen : ∀ i, (s.writer i).sawOpen →
    s.Woken i ∨ (s.session.channel i).writeClosed = false
  loaded : ∀ i d c, s.writer i = .loadSession d c → c ≤ 0 →
    s.Woken i ∨ (s.session.channel i).sendCredits ≤ 0
  foundNothing : ∀ i, (s.writer i).foundNothing → s.Woken i ∨ s.Visited i
    ∨ (s.session.channel i).sendCredits ≤ 0 ∨ s.session.enabled = true ∧ s.session.sendCredits ≤ 0

omit [DecidableEq ι] [DecidableEq κ] in
theorem inv_init (cfg : SessionConfig) :
  (init cfg : State ι κ).Inv
  := by
  constructor
  case bounded =>
    constructor
    · unfold init newSessionFlow
      dsimp only
      split
      · decide
      · exact int32_lt _
    · intro i
      unfold init newStreamFlow
      dsimp only [Flow.new]
      split <;> exact int32_lt _
  case ok => exact fun _ => trivial
  case sound => exact fun _ => trivial
  all_goals simp [init, Writer.sawOpen, Writer.foundNothing]

section

variable {s s' : State ι κ} {i : ι}

omit [DecidableEq ι] [DecidableEq κ] in
theorem Woken.mono (hdie : s.session.die = true → s'.session.die = true)
    (hnotify : (s.session.channel i).winNotify = true → (s'.session.channel i).winNotify = true)
    (htasks : ∀ q, ∀ u ∈ s.tasks q, u ∈ s'.tasks q) (hi : s.Woken i) :
  s'.Woken i
  := by
  obtain h | h | ⟨q, hq⟩ := hi
  · exact Or.inl (hdie h)
  · exact Or.inr (Or.inl (hnotify h))
  · right; right
    exact ⟨q, htasks q _ hq⟩

omit [DecidableEq ι] [DecidableEq κ] in
theorem Visited.mono (htable : i ∈ s.session.table → i ∈ s'.session.table)
    (htasks : ∀ q, ∀ u ∈ s.tasks q, u ∈ s'.tasks q) (hi : s.Visited i) :
  s'.Visited i
  := by
  obtain ⟨q, u, hu, hvisits⟩ := hi
  refine ⟨q, u, htasks q u hu, ?_⟩
  cases u with
  | lockTable => exact htable hvisits
  | wakeAll todo => exact hvisits
  | _ => exact absurd hvisits id

end

/-! #### Tasks -/

section

variable {s : State ι κ} {p : κ ⊕ ι} {t : Task ι} {rest tasks : List (Task ι)} {o : Choice ι}
  {σ : Session ι}

/-- What is left when somebody has done a task. -/
def after (s : State ι κ) (p : κ ⊕ ι) (σ : Session ι) (tasks : List (Task ι)) : State ι κ :=
  { s with session := σ, tasks := Function.update s.tasks p tasks }

theorem tasks_after (s : State ι κ) (p q : κ ⊕ ι) (σ : Session ι) (tasks : List (Task ι)) :
  (s.after p σ tasks).tasks q = if q = p then tasks else s.tasks q
  := Function.update_apply _ _ _ _

/-- A task that was to be done is done, or is still to be done. -/
theorem mem_tasks_after (σ : Session ι) (tasks : List (Task ι)) (hp : s.tasks p = t :: rest)
    {u : Task ι} {q : κ ⊕ ι} (hu : u ∈ s.tasks q) :
  u = t ∨ u ∈ (s.after p σ (tasks ++ rest)).tasks q
  := by
  rw [tasks_after]
  split
  · rename_i hq
    subst hq
    rw [hp, List.mem_cons] at hu
    exact hu.imp id (List.mem_append_right _)
  · exact Or.inr hu

theorem Woken.perform {i : ι} (hi : s.Woken i) (hp : s.tasks p = t :: rest)
    (h : t.perform s.session o = some (σ, tasks)) :
  (s.after p σ (tasks ++ rest)).Woken i
  := by
  have hleaves := Task.leaves_perform h
  obtain hdie | hnotify | ⟨q, hq⟩ := hi
  · exact Or.inl (hleaves.die hdie)
  · right; left
    exact (hleaves.channel i).notify hnotify
  · obtain rfl | hq := mem_tasks_after σ tasks hp hq
    · right; left
      exact Task.wakeWriter_perform h
    · right; right
      exact ⟨q, hq⟩

/-- Whoever is about to visit a channel does so, unless the channel leaves the table before, and
then its writer is woken. -/
theorem Visited.perform (hs : s.Inv) {i : ι} (hi : s.Visited i)
    (hopen : s.Woken i ∨ (s.session.channel i).writeClosed = false) (hp : s.tasks p = t :: rest)
    (h : t.perform s.session o = some (σ, tasks)) :
  (s.after p σ (tasks ++ rest)).Woken i ∨ (s.after p σ (tasks ++ rest)).Visited i
  := by
  have hleaves := Task.leaves_perform h
  have hsound : Sound (fun i => (s.session.channel i).writeClosed = true) (t :: rest) := by
    rw [← hp]
    apply hs.sound
  obtain ⟨q, u, hu, hvisits⟩ := hi
  obtain rfl | hu' := mem_tasks_after σ tasks hp hu
  · obtain hnotify | ⟨v, hv, hvisits⟩ := Task.visits_perform h hvisits
    · left
      exact Or.inr (Or.inl hnotify)
    · right
      refine ⟨p, v, ?_, hvisits⟩
      rw [tasks_after, if_pos rfl]
      exact List.mem_append_left _ hv
  · cases u with
    | lockTable =>
        obtain htable | rfl | ⟨graceful, rfl⟩ := hleaves.table i hvisits
        · right
          exact ⟨q, _, hu', htable⟩
        · left
          have hclosed : (s.session.channel i).writeClosed = true := hsound.1
          rw [hclosed] at hopen
          exact (hopen.resolve_right (by simp)).perform hp h
        · left
          refine Woken.perform (Or.inl ?_) hp h
          apply hs.clear p graceful
          rw [hp]
          exact List.mem_cons_self
    | wakeAll todo =>
        right
        exact ⟨q, _, hu', hvisits⟩
    | _ => exact absurd hvisits id

theorem Inv.perform (hs : s.Inv) (hp : s.tasks p = t :: rest)
    (h : t.perform s.session o = some (σ, tasks)) :
  (s.after p σ (tasks ++ rest)).Inv
  := by
  have hleaves := Task.leaves_perform h
  have hsound : Sound (fun i => (s.session.channel i).writeClosed = true) (t :: rest) := by
    rw [← hp]
    apply hs.sound
  have hmem : ∀ u ∈ tasks ++ rest, u ∈ (s.after p σ (tasks ++ rest)).tasks p := by
    intro u hu
    rwa [tasks_after, if_pos rfl]
  have hopen : ∀ i, (s.writer i).sawOpen → (s.after p σ (tasks ++ rest)).Woken i
      ∨ (σ.channel i).writeClosed = false := by
    intro i hi
    obtain hwoken | hfalse := hs.sawOpen i hi
    · exact Or.inl (hwoken.perform hp h)
    · by_cases hclosed : (σ.channel i).writeClosed = true
      · obtain hold | rfl := (hleaves.channel i).writeClosed hclosed
        · rw [hold] at hfalse
          contradiction
        · left; right; right
          exact ⟨p, hmem _ (List.mem_append_right _ hsound.1)⟩
      · right
        simpa using hclosed
  have htable : ∀ i, (σ.channel i).opened = true →
      i ∈ σ.table ∨ (σ.channel i).writeClosed = true ∨ σ.die = true := by
    intro i hi
    rw [(hleaves.channel i).opened] at hi
    obtain hin | hclosed | hdie := hs.table i hi
    · obtain hin' | rfl | ⟨graceful, rfl⟩ := hleaves.table i hin
      · exact Or.inl hin'
      · right; left
        exact (hleaves.channel i).closes hsound.1
      · right; right
        apply hleaves.die
        apply hs.clear p graceful
        rw [hp]
        exact List.mem_cons_self
    · right; left
      exact (hleaves.channel i).closes hclosed
    · right; right
      exact hleaves.die hdie
  constructor
  case bounded =>
    constructor
    · obtain hsame | ⟨-, hlt⟩ := hleaves.session
      · exact hsame ▸ hs.bounded.1
      · exact hlt
    · intro i
      obtain hsame | ⟨-, hlt⟩ := (hleaves.channel i).stream
      · exact hsame ▸ hs.bounded.2 i
      · exact hlt
  case writeOnce =>
    intro i hi
    obtain hold | rfl := (hleaves.channel i).writeOnce hi
    · exact (hleaves.channel i).closes (hs.writeOnce i hold)
    · exact (hleaves.channel i).closes hsound.1
  case finQueued =>
    intro i hi
    obtain hold | rfl := (hleaves.channel i).finQueued hi
    · exact (hleaves.channel i).closes (hs.finQueued i hold)
    · exact (hleaves.channel i).closes hsound.1
  case sound =>
    intro q
    rw [tasks_after]
    split
    · exact Task.sound_perform h hs.writeOnce hs.finQueued hsound
    · exact (hs.sound q).mono fun i => (hleaves.channel i).closes
  case clear =>
    intro q graceful hq
    rw [tasks_after] at hq
    split at hq
    · obtain htasks | hrest := List.mem_append.mp hq
      · exact hleaves.clear graceful htasks
      · apply hleaves.die
        apply hs.clear p graceful
        rw [hp]
        exact List.mem_cons_of_mem _ hrest
    · exact hleaves.die (hs.clear q graceful hq)
  case opened =>
    intro i hi
    exact (hleaves.channel i).opened.trans (hs.opened i hi)
  case table => exact htable
  case ok => exact hs.ok
  case sawOpen => exact hopen
  case loaded =>
    intro i d c hi hc
    obtain hwoken | hle := hs.loaded i d c hi hc
    · exact Or.inl (hwoken.perform hp h)
    · obtain hsame | ⟨hwake, -⟩ := (hleaves.channel i).stream
      · right
        exact hsame.trans_le hle
      · left; right; right
        exact ⟨p, hmem _ (List.mem_append_left _ hwake)⟩
  case foundNothing =>
    intro i hi
    have hsaw : (s.writer i).sawOpen := Writer.sawOpen_of_foundNothing hi
    obtain hwoken | hvisited | hstream | ⟨henabled, hsession⟩ := hs.foundNothing i hi
    · exact Or.inl (hwoken.perform hp h)
    · exact (hvisited.perform hs (hs.sawOpen i hsaw) hp h).imp id Or.inl
    · obtain hsame | ⟨hwake, -⟩ := (hleaves.channel i).stream
      · right; right; left
        exact hsame.trans_le hstream
      · left; right; right
        exact ⟨p, hmem _ (List.mem_append_left _ hwake)⟩
    · obtain hsame | ⟨hlock, -⟩ := hleaves.session
      · right; right; right
        exact ⟨hleaves.enabled.trans henabled, hsame.trans_le hsession⟩
      · have hwriter : s.writer i ≠ .idle := by
          intro hidle
          rw [hidle] at hsaw
          exact hsaw
        obtain hin | hclosed | hdie :=
          htable i ((hleaves.channel i).opened.trans (hs.opened i hwriter))
        · right; left
          exact ⟨p, _, hmem _ (List.mem_append_left _ hlock), hin⟩
        · left
          apply (hopen i hsaw).resolve_right
          simp [hclosed]
        · left; left
          exact hdie

end

/-! #### Writers -/

section

variable {s : State ι κ} {i : ι} {t : Turn ι}

/-- What is left when the writer of channel `i` has taken a step. -/
def turn (s : State ι κ) (i : ι) (t : Turn ι) : State ι κ :=
  { session := t.session
    writer := Function.update s.writer i t.writer
    tasks := Function.update s.tasks (.inr i) t.tasks }

theorem writer_turn (s : State ι κ) (i j : ι) (t : Turn ι) :
  (s.turn i t).writer j = if j = i then t.writer else s.writer j
  := Function.update_apply _ _ _ _

theorem tasks_turn (s : State ι κ) (i : ι) (q : κ ⊕ ι) (t : Turn ι) :
  (s.turn i t).tasks q = if q = .inr i then t.tasks else s.tasks q
  := Function.update_apply _ _ _ _

theorem mem_tasks_turn (hi : s.tasks (.inr i) = []) (q : κ ⊕ ι) (u : Task ι) (hu : u ∈ s.tasks q) :
  u ∈ (s.turn i t).tasks q
  := by
  rw [tasks_turn, if_neg]
  · exact hu
  · rintro rfl
    simp [hi] at hu

theorem Inv.turn (hs : s.Inv) (hi : s.tasks (.inr i) = [])
    (h : Writer.Leaves s.session i (s.writer i) t) :
  (s.turn i t).Inv
  := by
  have hclosed : ∀ j, (t.session.channel j).writeClosed = (s.session.channel j).writeClosed :=
    fun j => (h.flags j).2.1
  have hchannel : ∀ j, ((s.turn i t).writer j).sawOpen →
      t.session.channel j = s.session.channel j := by
    intro j hj
    by_cases hji : j = i
    · rw [writer_turn, if_pos hji] at hj
      rw [h.same hj]
    · exact h.others j hji
  have hwoken : ∀ j, t.session.channel j = s.session.channel j → s.Woken j →
      (s.turn i t).Woken j := by
    intro j hj
    apply Woken.mono
    · exact h.die.trans
    · exact fun hnotify => (congrArg Channel.winNotify hj).trans hnotify
    · exact mem_tasks_turn hi
  have hshort : s.session.sendCredits ≤ 0 → t.session.sendCredits = s.session.sendCredits := by
    intro hle
    obtain hsame | ⟨hpos, -⟩ := h.session
    · exact hsame
    · omega
  constructor
  case bounded =>
    constructor
    · obtain hsame | ⟨-, hlt⟩ := h.session
      · exact hsame ▸ hs.bounded.1
      · exact hlt
    · intro j
      change (t.session.channel j).sendCredits < 2 ^ 31
      by_cases hji : j = i
      · subst hji
        obtain hsame | hlt := h.stream
        · exact hsame ▸ hs.bounded.2 j
        · exact hlt
      · rw [h.others j hji]
        exact hs.bounded.2 j
  case writeOnce =>
    intro j hj
    change (t.session.channel j).writeClosed = true
    rw [hclosed]
    apply hs.writeOnce
    rw [← (h.flags j).2.2.1]
    exact hj
  case finQueued =>
    intro j hj
    change (t.session.channel j).writeClosed = true
    rw [hclosed]
    apply hs.finQueued
    rw [← (h.flags j).2.2.2]
    exact hj
  case sound =>
    intro q
    rw [tasks_turn]
    split
    · obtain hnil | ⟨n, hn⟩ := h.tasks
      · rw [hnil]
        trivial
      · rw [hn]
        exact ⟨trivial, trivial⟩
    · refine (hs.sound q).mono fun j hj => ?_
      change (t.session.channel j).writeClosed = true
      rwa [hclosed]
  case clear =>
    intro q graceful hq
    rw [tasks_turn] at hq
    split at hq
    · obtain hnil | ⟨n, hn⟩ := h.tasks <;> simp_all
    · exact h.die.trans (hs.clear q graceful hq)
  case opened =>
    intro j hj
    refine (h.flags j).1.trans (hs.opened j ?_)
    rw [writer_turn] at hj
    split at hj
    · rename_i hji
      subst hji
      exact h.started hj
    · exact hj
  case table =>
    intro j hj
    change j ∈ t.session.table ∨ (t.session.channel j).writeClosed = true ∨ t.session.die = true
    rw [h.table, hclosed, h.die]
    apply hs.table
    rw [← (h.flags j).1]
    exact hj
  case ok =>
    intro j
    rw [writer_turn]
    split
    · exact h.ok
    · exact hs.ok j
  case sawOpen =>
    intro j hj
    have hsame := hchannel j hj
    change _ ∨ (t.session.channel j).writeClosed = false
    rw [hsame]
    rw [writer_turn] at hj
    split at hj
    · rename_i hji
      subst hji
      obtain hsaw | hopen := h.sawOpen hj
      · exact (hs.sawOpen j hsaw).imp (hwoken j hsame) id
      · exact Or.inr hopen
    · exact (hs.sawOpen j hj).imp (hwoken j hsame) id
  case loaded =>
    intro j d c hj hc
    have hsame := hchannel j (by rw [hj]; trivial)
    change _ ∨ (t.session.channel j).sendCredits ≤ 0
    rw [hsame]
    rw [writer_turn] at hj
    split at hj
    · rename_i hji
      subst hji
      right
      rwa [← h.loaded d c hj]
    · exact (hs.loaded j d c hj hc).imp (hwoken j hsame) id
  case foundNothing =>
    intro j hj
    have hsame := hchannel j (Writer.sawOpen_of_foundNothing hj)
    have hold : s.Woken j ∨ s.Visited j ∨ (s.session.channel j).sendCredits ≤ 0
        ∨ s.session.enabled = true ∧ s.session.sendCredits ≤ 0 := by
      rw [writer_turn] at hj
      split at hj
      · rename_i hji
        subst hji
        obtain hnothing | ⟨d, c, hw, hc | hshort⟩ := h.foundNothing hj
        · exact hs.foundNothing j hnothing
        · exact (hs.loaded j d c hw hc).imp id fun hle => Or.inr (Or.inl hle)
        · exact Or.inr (Or.inr (Or.inr hshort))
      · exact hs.foundNothing j hj
    obtain hold | hvisited | hstream | ⟨henabled, hsession⟩ := hold
    · exact Or.inl (hwoken j hsame hold)
    · right; left
      refine hvisited.mono (fun hin => ?_) (mem_tasks_turn hi)
      change j ∈ t.session.table
      rwa [h.table]
    · right; right; left
      change (t.session.channel j).sendCredits ≤ 0
      rwa [hsame]
    · right; right; right
      exact ⟨h.enabled.trans henabled, (hshort hsession).trans_le hsession⟩

end

/-! #### The other steps -/

/-- What a step leaves that touches neither credit nor tokens nor the writing side of a channel,
and does no task: channels may be added to the table and tasks to stacks, the end of a stream
may be queued, and a writer may begin. -/
structure Extends (s s' : State ι κ) : Prop where
  sendCredits : s'.session.sendCredits = s.session.sendCredits
  enabled : s'.session.enabled = s.session.enabled
  die : s'.session.die = s.session.die
  channel : ∀ i, ∃ opened finQueued, s'.session.channel i
    = { s.session.channel i with opened := opened, finQueued := finQueued }
  finQueued : ∀ i, (s'.session.channel i).finQueued = true →
    (s.session.channel i).finQueued = true ∨ (s.session.channel i).writeClosed = true
  opened : ∀ i, (s.session.channel i).opened = true → (s'.session.channel i).opened = true
  published : ∀ i, (s'.session.channel i).opened = true →
    (s.session.channel i).opened = true ∨ i ∈ s'.session.table
  table : ∀ i ∈ s.session.table, i ∈ s'.session.table
  tasks : ∀ q, s'.tasks q = s.tasks q
    ∨ s.tasks q = [] ∧ Sound (fun i => (s.session.channel i).writeClosed = true) (s'.tasks q)
      ∧ ∀ graceful, .clearTable graceful ∉ s'.tasks q
  writer : ∀ i, s'.writer i = s.writer i
    ∨ (s.session.channel i).opened = true ∧ ∃ d, 0 < d ∧ s'.writer i = .loadClosed d

omit [DecidableEq ι] [DecidableEq κ] in
theorem Inv.extends {s s' : State ι κ} (hs : s.Inv) (h : s.Extends s') :
  s'.Inv
  := by
  have hfields : ∀ i, (s'.session.channel i).sendCredits = (s.session.channel i).sendCredits
      ∧ (s'.session.channel i).winNotify = (s.session.channel i).winNotify
      ∧ (s'.session.channel i).writeClosed = (s.session.channel i).writeClosed
      ∧ (s'.session.channel i).writeOnce = (s.session.channel i).writeOnce := by
    intro i
    obtain ⟨opened, finQueued, hi⟩ := h.channel i
    rw [hi]
    exact ⟨rfl, rfl, rfl, rfl⟩
  have htasks : ∀ q, ∀ u ∈ s.tasks q, u ∈ s'.tasks q := by
    intro q u hu
    obtain hsame | ⟨hnil, -⟩ := h.tasks q
    · rwa [hsame]
    · simp [hnil] at hu
  have hwoken : ∀ i, s.Woken i → s'.Woken i := fun i =>
    Woken.mono h.die.trans (hfields i).2.1.trans htasks
  have hclosed : (fun i => (s'.session.channel i).writeClosed = true)
      = fun i => (s.session.channel i).writeClosed = true := by
    funext i
    rw [(hfields i).2.2.1]
  have hwriter : ∀ i, (s'.writer i).sawOpen → s'.writer i = s.writer i := by
    intro i hi
    obtain hsame | ⟨-, d, -, hd⟩ := h.writer i
    · exact hsame
    · rw [hd] at hi
      exact absurd hi id
  constructor
  case bounded =>
    rw [h.sendCredits]
    use hs.bounded.1
    intro i
    rw [(hfields i).1]
    exact hs.bounded.2 i
  case writeOnce =>
    intro i
    rw [(hfields i).2.2.1, (hfields i).2.2.2]
    apply hs.writeOnce
  case finQueued =>
    intro i hi
    rw [(hfields i).2.2.1]
    exact (h.finQueued i hi).elim (hs.finQueued i) id
  case sound =>
    intro q
    rw [hclosed]
    obtain hsame | ⟨-, hsound, -⟩ := h.tasks q
    · rw [hsame]
      apply hs.sound
    · exact hsound
  case clear =>
    intro q graceful hq
    obtain hsame | ⟨-, -, hclear⟩ := h.tasks q
    · rw [h.die]
      apply hs.clear q graceful
      rwa [← hsame]
    · exact absurd hq (hclear graceful)
  case opened =>
    intro i hi
    apply h.opened
    obtain hsame | ⟨hopened, -⟩ := h.writer i
    · apply hs.opened
      rwa [← hsame]
    · exact hopened
  case table =>
    intro i hi
    rw [(hfields i).2.2.1, h.die]
    obtain hold | hin := h.published i hi
    · exact (hs.table i hold).imp (h.table i) id
    · exact Or.inl hin
  case ok =>
    intro i
    obtain hsame | ⟨-, d, hd, hw⟩ := h.writer i
    · rw [hsame]
      apply hs.ok
    · rw [hw]
      exact hd
  case sawOpen =>
    intro i hi
    rw [(hfields i).2.2.1]
    apply (hs.sawOpen i (by rwa [← hwriter i hi])).imp (hwoken i) id
  case loaded =>
    intro i d c hi hc
    rw [(hfields i).1]
    rw [hwriter i (by rw [hi]; trivial)] at hi
    apply (hs.loaded i d c hi hc).imp (hwoken i) id
  case foundNothing =>
    intro i hi
    rw [(hfields i).1, h.enabled, h.sendCredits]
    rw [hwriter i (Writer.sawOpen_of_foundNothing hi)] at hi
    exact (hs.foundNothing i hi).imp (hwoken i) (Or.imp (Visited.mono (h.table i) htasks) id)

omit [DecidableEq κ] in
theorem extends_openChannel (s : State ι κ) (i : ι) :
  s.Extends { s with session := { s.session.update i fun c => { c with opened := true } with
    table := i :: s.session.table } }
  := by
  constructor
  case channel =>
    intro j
    by_cases hji : j = i
    · subst hji
      exact ⟨true, (s.session.channel j).finQueued, by simp⟩
    · exact ⟨(s.session.channel j).opened, (s.session.channel j).finQueued, by simp [hji]⟩
  case tasks => exact fun _ => Or.inl rfl
  case writer => exact fun _ => Or.inl rfl
  all_goals grind [channel_update, Session.update]

omit [DecidableEq κ] in
theorem extends_acquire {s : State ι κ} {i : ι} {desired : Int}
    (hopened : (s.session.channel i).opened = true) (hpos : 0 < desired) :
  s.Extends { s with writer := Function.update s.writer i (.loadClosed desired) }
  := by
  constructor
  case channel => exact fun j => ⟨_, _, rfl⟩
  case tasks => exact fun _ => Or.inl rfl
  case writer =>
    intro j
    by_cases hji : j = i
    · subst hji
      right
      use hopened, desired, hpos
      simp
    · left
      simp [hji]
  all_goals simp +contextual

theorem extends_call {s : State ι κ} {k : κ} (hk : s.tasks (.inl k) = []) (r : Request ι) :
  s.Extends { s with tasks := Function.update s.tasks (.inl k) (r.tasks s.session) }
  := by
  constructor
  case channel => exact fun j => ⟨_, _, rfl⟩
  case tasks =>
    intro q
    by_cases hq : q = .inl k
    · subst hq
      right
      dsimp only
      rw [Function.update_self]
      use hk, r.sound_tasks _ s.session
      intro graceful
      cases r <;> simp [Request.tasks, sessionRefund, localClose]
    · left
      simp [hq]
  case writer => exact fun _ => Or.inl rfl
  all_goals simp +contextual

omit [DecidableEq κ] in
theorem extends_sendFin {s : State ι κ} {i : ι}
    (hclosed : (s.session.channel i).writeClosed = true) :
  s.Extends { s with session := s.session.update i fun c => { c with finQueued := true } }
  := by
  constructor
  case channel =>
    intro j
    by_cases hji : j = i
    · subst hji
      exact ⟨(s.session.channel j).opened, true, by simp⟩
    · exact ⟨(s.session.channel j).opened, (s.session.channel j).finQueued, by simp [hji]⟩
  case tasks => exact fun _ => Or.inl rfl
  case writer => exact fun _ => Or.inl rfl
  all_goals grind [channel_update, Session.update]

theorem inv_step {s s' : State ι κ} {a : Action ι κ} (hs : s.Inv) (hstep : s.step a = some s') :
  s'.Inv
  := by
  cases a with
  | openChannel i =>
      obtain ⟨-, rfl⟩ := Run.guard hstep
      apply hs.extends (extends_openChannel s i)
  | acquire i desired =>
      obtain ⟨⟨-, hopened, hpos, -⟩, h⟩ := Option.ite_none_right_eq_some.mp hstep
      cases h
      apply hs.extends (extends_acquire hopened hpos)
  | writer i e =>
      obtain ⟨hi, h⟩ := Option.ite_none_right_eq_some.mp hstep
      obtain ⟨t, ht, rfl⟩ := Option.map_eq_some_iff.mp h
      apply hs.turn hi (Writer.leaves_step (hs.ok i) ht)
  | call k r =>
      obtain ⟨hk, rfl⟩ := Run.guard hstep
      apply hs.extends (extends_call hk r)
  | perform p o =>
      simp only [step] at hstep
      split at hstep
      · contradiction
      · rename_i t rest hp
        obtain ⟨⟨σ, tasks⟩, h, rfl⟩ := Option.map_eq_some_iff.mp hstep
        apply hs.perform hp h
  | sendFin i =>
      obtain ⟨⟨hclosed, -⟩, h⟩ := Option.ite_none_right_eq_some.mp hstep
      cases h
      apply hs.extends (extends_sendFin hclosed)

/-- The counters after a step of the writer of channel `i` by which it deducts what it takes. -/
def Deducts (s s' : State ι κ) (i : ι) : Prop :=
  (∀ d take curr, s.writer i = .sessionCas d take curr →
      s'.session.sendCredits = s.session.sendCredits ∨ 0 ≤ s'.session.sendCredits)
    ∧ ∀ d take curr, s.writer i = .streamCas d take curr →
      (s'.session.channel i).sendCredits = (s.session.channel i).sendCredits
        ∨ 0 ≤ (s'.session.channel i).sendCredits

theorem Inv.deducts {s s' : State ι κ} (hs : s.Inv) {i : ι} {e : Event}
    (hstep : s.step (.writer i e) = some s') :
  s.Deducts s' i
  := by
  obtain ⟨-, h⟩ := Option.ite_none_right_eq_some.mp hstep
  obtain ⟨t, ht, rfl⟩ := Option.map_eq_some_iff.mp h
  have hok := hs.ok i
  have hnonneg : ∀ take curr, take ≤ curr → 0 < take → curr < 2 ^ 31 →
      0 ≤ int32 (curr - take) := by
    intro take curr hle hpos hlt
    rw [int32_of_mem] <;> omega
  constructor
  · intro d take curr hw
    rw [hw] at ht hok
    cases e with
    | go =>
        simp only [Writer.step] at ht
        split at ht
        · rename_i hcurr
          cases ht
          right
          exact hnonneg take curr hok.2.2 hok.2.1 (hcurr ▸ hs.bounded.1)
        · cases ht
          exact Or.inl rfl
    | _ => contradiction
  · intro d take curr hw
    rw [hw] at ht hok
    cases e with
    | go =>
        simp only [Writer.step] at ht
        split at ht
        · rename_i hcurr
          cases ht
          right
          dsimp only
          rw [channel_update, if_pos rfl]
          exact hnonneg take curr hok.2.2 hok.2.1 (hcurr ▸ hs.bounded.2 i)
        · cases ht
          exact Or.inl rfl
    | _ => contradiction

/-- A writer that waits while nobody is in the middle of adding credit or of closing something
has a token, or its channel or the session is closed, or there is nothing to wake it for: one of
its counters is not positive, and the writing side of its channel is open.  And no writer makes
a counter negative. -/
theorem no_credit_of_parked
    (cfg : SessionConfig) (s : State ι κ) (hrun : Run step (fun _ _ => True) (init cfg) s) :
  (∀ i d, s.writer i = .parked d → (∀ p, s.tasks p = []) →
      (s.session.channel i).winNotify = true ∨ (s.session.channel i).closeChan = true
        ∨ s.session.die = true
        ∨ min (s.session.channel i).sendCredits s.session.avail ≤ 0
          ∧ (s.session.channel i).writeClosed = false)
    ∧ ∀ i e s', s.step (.writer i e) = some s' → s.Deducts s' i
  := by
  have hinv : s.Inv := hrun.invariant (fun _ _ _ hs _ => inv_step hs) (inv_init cfg)
  constructor
  · intro i d hparked hquiet
    have hsaw := hinv.sawOpen i (by rw [hparked]; trivial)
    have hnothing := hinv.foundNothing i (by rw [hparked]; trivial)
    simp only [Woken, Owed, Visited, hquiet, List.not_mem_nil, false_and, exists_false, or_false,
      false_or] at hsaw hnothing
    obtain (hdie | hnotify) | hopen := hsaw
    · exact Or.inr (Or.inr (Or.inl hdie))
    · exact Or.inl hnotify
    · obtain (hdie | hnotify) | hstream | ⟨henabled, hsession⟩ := hnothing
      · exact Or.inr (Or.inr (Or.inl hdie))
      · exact Or.inl hnotify
      · right; right; right
        exact ⟨min_le_of_left_le hstream, hopen⟩
      · right; right; right
        refine ⟨min_le_of_right_le ?_, hopen⟩
        rwa [Session.avail, if_pos henabled]
  · intro i e s' hstep
    apply hinv.deducts hstep

/-- An instance: a writer uses the window of its channel up and waits for one more byte, and then
credit comes. -/
theorem no_credit_of_parked_addCredits :
  ∃ s : State Unit Unit,
    Run step (fun _ _ => True)
        (init { defaultConfig with initialStreamWindow := 4 }.newSession) s
      ∧ s.writer () = .parked 1 ∧ (s.session.channel ()).sendCredits = 2
      ∧ ((s.session.channel ()).winNotify = true ∨ (s.session.channel ()).closeChan = true
        ∨ s.session.die = true
        ∨ min (s.session.channel ()).sendCredits s.session.avail ≤ 0
          ∧ (s.session.channel ()).writeClosed = false)
  := by
  obtain ⟨s, hrun, hparked, hcredits, hcaller, hwriter⟩ :=
    Run.exists_of_exec step (fun _ _ => True)
      (init { defaultConfig with initialStreamWindow := 4 }.newSession : State Unit Unit)
      (List.flatten [[.openChannel (), .acquire () 4], List.replicate 9 (.writer () .go),
        [.acquire () 1], List.replicate 7 (.writer () .go), [.call () (.addCredits () 2)],
        List.replicate 2 (.perform (.inl ()) .go)])
      (fun s => s.writer () = .parked 1 ∧ (s.session.channel ()).sendCredits = 2
        ∧ (s.tasks (.inl ())).length = 0 ∧ (s.tasks (.inr ())).length = 0)
      (by decide +kernel)
  use s, hrun, hparked, hcredits
  apply (no_credit_of_parked _ s hrun).1 () 1 hparked
  rintro (_ | _)
  · exact List.length_eq_zero_iff.mp hcaller
  · exact List.length_eq_zero_iff.mp hwriter

end State

end Muxocket.CreditWakeup
