import Mathlib.Logic.Basic

/-!
# Runs

A system is given by a partial function that says what becomes of a state by an action.  A
run is a sequence of steps, each of which meets a condition on the state before the step and
on the action.
-/

variable {σ α : Type} (step : σ → α → Option σ) (P : σ → α → Prop)

/-- `Run step P s s'`: a run leads from `s` to `s'`, all of whose steps meet `P`. -/
inductive Run : σ → σ → Prop
  | refl (s : σ) : Run s s
  | tail {s s₁ s₂ : σ} (a : α) : Run s s₁ → P s₁ a → step s₁ a = some s₂ → Run s s₂

variable {step P}

/-- A step that is possible under a condition only. -/
theorem Run.guard {p : Prop} [Decidable p] {s s' : σ} (h : (if p then some s else none) = some s') :
  p ∧ s = s'
  := by
  obtain ⟨hp, heq⟩ := Option.ite_none_right_eq_some.mp h
  exact ⟨hp, Option.some.inj heq⟩

/-- What holds at the start of a run and is kept by every step holds at its end. -/
theorem Run.invariant {I : σ → Prop} (hstep : ∀ s a s', I s → P s a → step s a = some s' → I s')
    {s s' : σ} (hrun : Run step P s s') (hs : I s) :
  I s'
  := by
  induction hrun with
  | refl => exact hs
  | tail a _ hP hstep' ih => exact hstep _ a _ ih hP hstep'

theorem Run.mono {Q : σ → α → Prop} (h : ∀ s a, P s a → Q s a) {s s' : σ} (hrun : Run step P s s') :
  Run step Q s s'
  := by
  induction hrun with
  | refl => apply Run.refl
  | tail a _ hP hstep ih => apply Run.tail a ih (h _ a hP) hstep

theorem Run.trans {s s₁ s₂ : σ} (hrun : Run step P s s₁) (hrun' : Run step P s₁ s₂) :
  Run step P s s₂
  := by
  induction hrun' with
  | refl => apply hrun
  | tail a _ hP hstep ih => apply Run.tail a ih hP hstep

/-- A run reaches its goal if every state on its way has a step that reaches the goal or a state
that is closer to it. -/
theorem Run.exists_of_progress {Q : σ → Prop} {I : Nat → σ → Prop}
    (hstep : ∀ n s, I n s → ∃ a s', P s a ∧ step s a = some s' ∧ (Q s' ∨ ∃ m < n, I m s')) {n : Nat}
    {s : σ} (hs : I n s) :
  ∃ s', Run step P s s' ∧ Q s'
  := by
  induction n using Nat.strongRecOn generalizing s with
  | ind n ih =>
      obtain ⟨a, s₁, hP, hstep₁, hQ | ⟨m, hm, hI⟩⟩ := hstep n s hs
      · exact ⟨s₁, Run.tail a (Run.refl s) hP hstep₁, hQ⟩
      · obtain ⟨s', hrun, hQ⟩ := ih m hm hI
        exact ⟨s', Run.trans (Run.tail a (Run.refl s) hP hstep₁) hrun, hQ⟩

variable (step P)

/-- The state a list of actions leads to, if every one of them can be done and meets the
condition. -/
def exec [∀ s a, Decidable (P s a)] : σ → List α → Option σ
  | s, [] => some s
  | s, a :: actions => if P s a then (step s a).bind fun s => exec s actions else none

variable {step P}

theorem Run.head {s s₁ s₂ : σ} {a : α} (hP : P s a) (hstep : step s a = some s₁)
    (hrun : Run step P s₁ s₂) :
  Run step P s s₂
  := by
  induction hrun with
  | refl => exact Run.tail a (Run.refl s) hP hstep
  | tail b _ hP' hstep' ih => exact Run.tail b ih hP' hstep'

/-- What a list of actions leads to is reached by a run. -/
theorem Run.of_exec [∀ s a, Decidable (P s a)] {actions : List α} {s s' : σ}
    (h : exec step P s actions = some s') :
  Run step P s s'
  := by
  induction actions generalizing s with
  | nil =>
      obtain rfl : s = s' := Option.some.inj h
      exact Run.refl s
  | cons a actions ih =>
      unfold exec at h
      split at h
      · rename_i hP
        obtain ⟨s₁, hstep, hrest⟩ := Option.bind_eq_some_iff.mp h
        exact Run.head hP hstep (ih hrest)
      · contradiction

variable (step P)

/-- A state a list of actions leads to, of which something can be checked. -/
theorem Run.exists_of_exec [∀ s a, Decidable (P s a)] (s : σ) (actions : List α) (Q : σ → Prop)
    [DecidablePred Q] (h : (exec step P s actions).any (fun s => decide (Q s)) = true) :
  ∃ s', Run step P s s' ∧ Q s'
  := by
  obtain ⟨s', hs', hQ⟩ := (Option.any_eq_true _ _).mp h
  exact ⟨s', Run.of_exec hs', of_decide_eq_true hQ⟩
