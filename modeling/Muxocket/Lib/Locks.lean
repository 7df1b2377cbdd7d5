import Mathlib.Logic.Function.Basic
import Mathlib.Data.List.Basic

/-!
# Locks held by stacks of tasks

A process is a stack of tasks.  A task is done by replacing it with the tasks it leads to.  It
may take a lock, which is then held while the tasks above the task that releases it are on the
stack.  Some tasks are done under a lock only: a task `t` with `owns t = some m` is done by the
process that holds `m`.

`Sound` says that the locks are held accordingly, and `Guards cls` that the holder of a lock `m`
has nothing to do before it releases it but tasks of the class `cls m`.
-/

/-- The stacks of processes, and the processes that hold the locks. -/
structure Locks (P M T : Type) where
  stack : P → List T
  holder : M → Option P

namespace Locks

variable {P M T : Type} (release : M → T) (owns : T → Option M) (cls : M → T → Prop)

/-- The task on top of a stack is replaced, or a process that is idle gets tasks. -/
def reply [DecidableEq P] (p : P) (tasks : List T) (l : Locks P M T) : Locks P M T :=
  { l with stack := Function.update l.stack p tasks }

/-- A lock is taken. -/
def take [DecidableEq P] [DecidableEq M] (p : P) (m : M) (tasks : List T) (l : Locks P M T) :
    Locks P M T where
  stack := Function.update l.stack p tasks
  holder := Function.update l.holder m (some p)

/-- A lock is released. -/
def drop [DecidableEq P] [DecidableEq M] (p : P) (m : M) (tasks : List T) (l : Locks P M T) :
    Locks P M T where
  stack := Function.update l.stack p tasks
  holder := Function.update l.holder m none

/-- A task that is done under a lock is on the stack of the process that holds the lock, and
above the task that releases it. -/
structure Sound (l : Locks P M T) : Prop where
  own : ∀ p, ∀ t ∈ l.stack p, ∀ m, owns t = some m → l.holder m = some p
  last : ∀ p above m below, l.stack p = above ++ release m :: below →
    ∀ t ∈ below, owns t ≠ some m

/-- The tasks above the one that releases a lock are of the class of the lock. -/
def Guards (l : Locks P M T) : Prop :=
  ∀ p m, l.holder m = some p → ∃ above below, l.stack p = above ++ release m :: below
    ∧ ∀ t ∈ above, cls m t

variable {release owns cls} {l : Locks P M T} {p : P} {t : T} {rest : List T}

/-- The top of a stack whose process holds a lock is of the class of the lock, or releases it. -/
theorem Guards.head (hl : l.Guards release cls) {m : M} (hm : l.holder m = some p)
    (hp : l.stack p = t :: rest) :
  cls m t ∨ t = release m
  := by
  obtain ⟨above, below, heq, hcls⟩ := hl p m hm
  rw [hp] at heq
  cases above with
  | nil => exact .inr (List.cons.inj heq).1
  | cons u above =>
      obtain ⟨rfl, -⟩ := List.cons.inj heq
      exact .inl (hcls t (by simp))

/-! ### Steps of a process -/

/-- A split of a list that begins with tasks that release nothing is a split of the rest. -/
theorem split_append {m : M} (tasks : List T) {above below : List T}
    (hno : ∀ u ∈ tasks, u ≠ release m) (hsplit : tasks ++ rest = above ++ release m :: below) :
  ∃ above', above = tasks ++ above' ∧ rest = above' ++ release m :: below
  := by
  induction tasks generalizing above with
  | nil => exact ⟨above, rfl, hsplit⟩
  | cons u tasks ih =>
      cases above with
      | nil =>
          obtain ⟨hu, -⟩ := List.cons.inj hsplit
          exact absurd hu (hno u (by simp))
      | cons v above =>
          obtain ⟨rfl, htail⟩ := List.cons.inj hsplit
          obtain ⟨above', rfl, hrest⟩ := ih (fun u hu => hno u (by simp [hu])) htail
          exact ⟨above', rfl, hrest⟩

section

variable [DecidableEq P]

theorem stack_reply (q : P) (tasks : List T) :
  (l.reply p tasks).stack q = if q = p then tasks else l.stack q
  := Function.update_apply _ _ _ _

/-- An idle process gets tasks that are done without a lock. -/
theorem Sound.start (hl : l.Sound release owns) {tasks : List T}
    (howns : ∀ u ∈ tasks, owns u = none) (hno : ∀ u ∈ tasks, ∀ m, u ≠ release m) :
  (l.reply p tasks).Sound release owns
  := by
  constructor
  · intro q u hu m hm
    rw [stack_reply] at hu
    split at hu
    · rw [howns u hu] at hm
      contradiction
    · exact hl.own q u hu m hm
  · intro q above m below heq
    rw [stack_reply] at heq
    split at heq
    · rw [← List.append_nil tasks] at heq
      obtain ⟨above', -, hnil⟩ := split_append _ (fun u hu => hno u hu m) heq
      simp at hnil
    · exact hl.last q above m below heq

/-- A task leads to tasks that are done under the same lock as itself, or under none. -/
theorem Sound.reply (hl : l.Sound release owns) (hp : l.stack p = t :: rest) {tasks : List T}
    (howns : ∀ u ∈ tasks, owns u = none ∨ owns u = owns t) (hno : ∀ u ∈ tasks, ∀ m, u ≠ release m) :
  (l.reply p (tasks ++ rest)).Sound release owns
  := by
  constructor
  · intro q u hu m hm
    rw [stack_reply] at hu
    split at hu
    · rename_i hq
      subst hq
      rcases List.mem_append.mp hu with hu | hu
      · rcases howns u hu with hnone | hsame
        · rw [hnone] at hm
          contradiction
        · exact hl.own q t (by simp [hp]) m (by rw [← hsame, hm])
      · exact hl.own q u (by simp [hp, hu]) m hm
    · exact hl.own q u hu m hm
  · intro q above m below heq
    rw [stack_reply] at heq
    split at heq
    · rename_i hq
      subst hq
      obtain ⟨above', -, hrest⟩ := split_append _ (fun u hu => hno u hu m) heq
      exact hl.last q (t :: above') m below (by rw [hp, hrest, List.cons_append])
    · exact hl.last q above m below heq

variable [DecidableEq M]

theorem stack_take (q : P) (m : M) (tasks : List T) :
  (l.take p m tasks).stack q = if q = p then tasks else l.stack q
  := Function.update_apply _ _ _ _

theorem stack_drop (q : P) (m : M) (tasks : List T) :
  (l.drop p m tasks).stack q = if q = p then tasks else l.stack q
  := Function.update_apply _ _ _ _

/-- A task takes a lock for the tasks `body`, and releases it before the tasks `tail`. -/
theorem Sound.take (hl : l.Sound release owns) (hrelease : ∀ m, owns (release m) = some m)
    (hp : l.stack p = t :: rest) {m : M} (hm : l.holder m = none) {body tail : List T}
    (hbody : ∀ u ∈ body, owns u = none ∨ owns u = some m)
    (htail : ∀ u ∈ tail, owns u = none ∨ owns u = owns t)
    (hno : ∀ u ∈ body ++ tail, ∀ m, u ≠ release m) :
  (l.take p m (body ++ release m :: (tail ++ rest))).Sound release owns
  := by
  have hfree : ∀ q, ∀ u ∈ l.stack q, owns u ≠ some m := by
    intro q u hu howns
    rw [hl.own q u hu m howns] at hm
    contradiction
  have hkeep : ∀ q, ∀ u ∈ l.stack q, ∀ m', owns u = some m' →
      (Function.update l.holder m (some p)) m' = some q := by
    intro q u hu m' hm'
    have hne : m' ≠ m := by
      rintro rfl
      exact hfree q u hu hm'
    rw [Function.update_of_ne hne]
    exact hl.own q u hu m' hm'
  have htop : t ∈ l.stack p := by simp [hp]
  constructor
  · intro q u hu m' hm'
    rw [stack_take] at hu
    split at hu
    · rename_i hq
      subst hq
      have hcases : owns u = some m ∨ (∃ v ∈ l.stack q, owns v = some m') := by
        simp only [List.mem_append, List.mem_cons] at hu
        rcases hu with hu | rfl | hu | hu
        · rcases hbody u hu with hnone | hsome
          · rw [hnone] at hm'
            contradiction
          · exact .inl hsome
        · exact .inl (hrelease m)
        · rcases htail u hu with hnone | hsame
          · rw [hnone] at hm'
            contradiction
          · exact .inr ⟨t, htop, by rw [← hsame, hm']⟩
        · exact .inr ⟨u, by simp [hp, hu], hm'⟩
      rcases hcases with hsome | ⟨v, hv, hv'⟩
      · obtain rfl : m = m' := Option.some.inj (hsome.symm.trans hm')
        exact Function.update_self _ _ _
      · exact hkeep q v hv m' hv'
    · exact hkeep q u hu m' hm'
  · intro q above m' below heq
    rw [stack_take] at heq
    split at heq
    · rename_i hq
      subst hq
      obtain ⟨above', -, hrest⟩ :=
        split_append _ (fun u hu => hno u (List.mem_append_left _ hu) m') heq
      cases above' with
      | nil =>
          obtain ⟨htop', rfl⟩ := List.cons.inj hrest
          have hsame : m = m' := by
            have howns := congrArg owns htop'
            rw [hrelease, hrelease] at howns
            exact Option.some.inj howns
          subst hsame
          intro u hu
          rcases List.mem_append.mp hu with hu | hu
          · rcases htail u hu with hnone | hsame
            · simp [hnone]
            · rw [hsame]
              exact hfree q t htop
          · exact hfree q u (by simp [hp, hu])
      | cons v above' =>
          obtain ⟨-, hrest⟩ := List.cons.inj hrest
          obtain ⟨above'', -, hrest⟩ :=
            split_append _ (fun u hu => hno u (List.mem_append_right _ hu) m') hrest
          exact hl.last q (t :: above'') m' below (by rw [hp, hrest, List.cons_append])
    · exact hl.last q above m' below heq

/-- A process releases a lock it holds. -/
theorem Sound.drop (hl : l.Sound release owns) {m : M} (hrelease : ∀ m, owns (release m) = some m)
    (hp : l.stack p = release m :: rest) :
  (l.drop p m rest).Sound release owns
  := by
  have hholder := hl.own p (release m) (by simp [hp]) m (hrelease m)
  have hkeep : ∀ q, ∀ u ∈ l.stack q, ∀ m', owns u = some m' → m' ≠ m →
      (Function.update l.holder m none) m' = some q := by
    intro q u hu m' hm' hne
    rw [Function.update_of_ne hne]
    exact hl.own q u hu m' hm'
  constructor
  · intro q u hu m' hm'
    rw [stack_drop] at hu
    split at hu
    · rename_i hq
      subst hq
      apply hkeep q u (by simp [hp, hu]) m' hm'
      rintro rfl
      exact hl.last q [] m' rest hp u hu hm'
    · rename_i hq
      apply hkeep q u hu m' hm'
      rintro rfl
      have heq := hl.own q u hu m' hm'
      rw [hholder] at heq
      exact hq (Option.some.inj heq).symm
  · intro q above m' below heq
    rw [stack_drop] at heq
    split at heq
    · rename_i hq
      subst hq
      exact hl.last q (release m :: above) m' below (by rw [hp, heq, List.cons_append])
    · exact hl.last q above m' below heq

end

/-! ### The tasks done under a lock -/

section

variable (hl : l.Guards release cls)

include hl

/-- Tasks are put on a stack in place of those above the tasks that release locks. -/
theorem Guards.replace [DecidableEq P] {tasks : List T} {l' : Locks P M T}
    (hstack : ∀ q, l'.stack q = if q = p then tasks else l.stack q) {m : M} {q : P}
    (hm : l.holder m = some q)
    (htasks : ∀ above below, l.stack p = above ++ release m :: below → (∀ u ∈ above, cls m u) →
      ∃ above', tasks = above' ++ release m :: below ∧ ∀ u ∈ above', cls m u) :
  ∃ above below, l'.stack q = above ++ release m :: below ∧ ∀ u ∈ above, cls m u
  := by
  obtain ⟨above, below, heq, hcls⟩ := hl q m hm
  rw [hstack]
  split
  · rename_i hq
    subst hq
    obtain ⟨above', heq', hcls'⟩ := htasks above below heq hcls
    exact ⟨above', below, heq', hcls'⟩
  · exact ⟨above, below, heq, hcls⟩

theorem Guards.start [DecidableEq P] (hp : l.stack p = []) (tasks : List T) :
  (l.reply p tasks).Guards release cls
  := by
  intro q m hm
  apply hl.replace (fun q => stack_reply q tasks) hm
  intro above below heq
  simp [hp] at heq

theorem Guards.reply [DecidableEq P] (hp : l.stack p = t :: rest) (ht : ∀ m, t ≠ release m)
    {tasks : List T} (hcls : ∀ m, cls m t → ∀ u ∈ tasks, cls m u) :
  (l.reply p (tasks ++ rest)).Guards release cls
  := by
  intro q m hm
  apply hl.replace (fun q => stack_reply q _) hm
  intro above below heq habove
  rw [hp] at heq
  obtain ⟨above', rfl, hrest⟩ := split_append [t] (by simpa using ht m) heq
  refine ⟨tasks ++ above', by rw [hrest, List.append_assoc], ?_⟩
  intro u hu
  rcases List.mem_append.mp hu with hu | hu
  · exact hcls m (habove t (by simp)) u hu
  · exact habove u (by simp [hu])

theorem Guards.take [DecidableEq P] [DecidableEq M] (hp : l.stack p = t :: rest)
    (ht : ∀ m, t ≠ release m) {m : M} {body tail : List T} (hbody : ∀ u ∈ body, cls m u)
    (hcls : ∀ m', cls m' t → cls m' (release m) ∧ ∀ u ∈ body ++ tail, cls m' u) :
  (l.take p m (body ++ release m :: (tail ++ rest))).Guards release cls
  := by
  intro q m' hm'
  by_cases hsame : m' = m
  · subst hsame
    obtain rfl : p = q := by simpa [Locks.take] using hm'
    refine ⟨body, tail ++ rest, ?_, hbody⟩
    rw [stack_take, if_pos rfl]
  · have hm : l.holder m' = some q := by simpa [Locks.take, hsame] using hm'
    apply hl.replace (fun q => stack_take q m _) hm
    intro above below heq habove
    rw [hp] at heq
    obtain ⟨above', rfl, hrest⟩ := split_append [t] (by simpa using ht m') heq
    obtain ⟨hrel, hboth⟩ := hcls m' (habove t (by simp))
    refine ⟨body ++ release m :: (tail ++ above'), by simp [hrest], ?_⟩
    intro u hu
    simp only [List.mem_append, List.mem_cons] at hu hboth
    rcases hu with hu | rfl | hu | hu
    · exact hboth u (.inl hu)
    · exact hrel
    · exact hboth u (.inr hu)
    · exact habove u (by simp [hu])

theorem Guards.drop [DecidableEq P] [DecidableEq M] (hinj : Function.Injective release) {m : M}
    (hp : l.stack p = release m :: rest) :
  (l.drop p m rest).Guards release cls
  := by
  intro q m' hm'
  have hne : m' ≠ m := by
    rintro rfl
    simp [Locks.drop] at hm'
  have hm : l.holder m' = some q := by simpa [Locks.drop, hne] using hm'
  apply hl.replace (fun q => stack_drop q m rest) hm
  intro above below heq habove
  rw [hp] at heq
  obtain ⟨above', rfl, hrest⟩ := split_append [release m]
    (by simpa using fun h => hne (hinj h).symm) heq
  exact ⟨above', hrest, fun u hu => habove u (by simp [hu])⟩

end

end Locks
