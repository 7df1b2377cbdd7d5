import Mathlib.Algebra.BigOperators.Group.Finset.Piecewise
import Mathlib.Algebra.BigOperators.Ring.Finset
import Mathlib.Data.List.AList
import Mathlib.Tactic.Abel

/-!
# Sums that change in one place

Sums over the values of a map below a bound, and over the entries of an association list,
when one of the values changes.
-/

variable {M : Type} [AddCommGroup M]

variable {α N : Type} {l : List α} {a : α} {β : α → Type} {s m m' : AList β} {b : β a}

/-- The sum over a map below a bound, when one of the values changes. -/
theorem sum_range_update (g : α → M) (m : Nat → α) {n k : Nat} (hk : k < n) (a : α) :
  ∑ i ∈ Finset.range n, g (Function.update m k a i)
    = ∑ i ∈ Finset.range n, g (m i) + (g a - g (m k))
  := by
  have hmem : k ∈ Finset.range n := Finset.mem_range.mpr hk
  have hcomp : (fun i => g (Function.update m k a i))
      = Function.update (fun i => g (m i)) k (g a) := by
    funext i
    by_cases hi : i = k
    · subst hi
      simp
    · simp [hi]
  rw [hcomp, Finset.sum_update_of_mem hmem, Finset.sdiff_singleton_eq_erase,
    ← Finset.add_sum_erase _ _ hmem]
  abel

/-- The sum over a list without one of its elements. -/
theorem sum_eraseIdx (g : α → M) {i : Nat} (ha : l[i]? = some a) :
  ((l.eraseIdx i).map g).sum + g a = (l.map g).sum
  := by
  obtain ⟨hi, rfl⟩ := List.getElem?_eq_some_iff.mp ha
  rw [← ((List.getElem_cons_eraseIdx_perm hi).map g).sum_eq]
  simp [add_comm]

/-- The sums over a list before and after one of its elements is replaced. -/
theorem exists_sum_set [AddCommMonoid N] (g : α → N) {i : Nat} (ha : l[i]? = some a) (b : α) :
  ∃ m, (l.map g).sum = g a + m ∧ ((l.set i b).map g).sum = g b + m
  := by
  obtain ⟨hi, rfl⟩ := List.getElem?_eq_some_iff.mp ha
  refine ⟨((l.eraseIdx i).map g).sum, ?_, ?_⟩
  · rw [← ((List.getElem_cons_eraseIdx_perm hi).map g).sum_eq, List.map_cons, List.sum_cons]
  · rw [((List.set_perm_cons_eraseIdx hi b).map g).sum_eq, List.map_cons, List.sum_cons]

/-- The sum over a list of which one element counts only. -/
theorem sum_eq_getElem [AddCommMonoid N] (g : α → N) {k : Nat}
    (h : ∀ i a, l[i]? = some a → i ≠ k → g a = 0) :
  (l.map g).sum = (l[k]?.map g).getD 0
  := by
  induction l generalizing k with
  | nil => simp
  | cons b l ih =>
      cases k with
      | zero =>
          have hrest : (l.map g).sum = 0 := by
            apply List.sum_eq_zero
            intro x hx
            obtain ⟨a, ha, rfl⟩ := List.mem_map.mp hx
            obtain ⟨i, hi⟩ := List.getElem?_of_mem ha
            exact h (i + 1) a hi (Nat.succ_ne_zero i)
          simp [hrest]
      | succ k =>
          have hb : g b = 0 := h 0 b rfl (Nat.succ_ne_zero k).symm
          rw [List.map_cons, List.sum_cons, hb, zero_add, List.getElem?_cons_succ]
          apply ih
          intro i a ha hne
          exact h (i + 1) a ha fun heq => hne (Nat.succ.inj heq)

/-- The entries of an association list are one of them and those without its key. -/
theorem perm_erase_entries [DecidableEq α] (hb : s.lookup a = some b) :
  s.entries.Perm (⟨a, b⟩ :: (s.erase a).entries)
  := by
  have hmem : a ∈ s.entries.keys := by
    rw [← AList.keys, ← AList.mem_keys, ← AList.lookup_isSome, hb]
    rfl
  obtain ⟨b', l₁, l₂, hnot, hl, hk⟩ := List.exists_of_kerase hmem
  have hb' : b' = b := by
    have hlookup : s.lookup a = some b' := by
      rw [← Option.mem_def, AList.mem_lookup_iff, hl]
      simp
    rw [hlookup] at hb
    apply Option.some.inj hb
  have herase : (s.erase a).entries = s.entries.kerase a := rfl
  rw [herase, hk, hl, hb']
  apply List.perm_middle

/-- The sum over an association list without one of its keys. -/
theorem sum_erase_entries [DecidableEq α] (g : Sigma β → M) (hb : s.lookup a = some b) :
  ((s.erase a).entries.map g).sum + g ⟨a, b⟩ = (s.entries.map g).sum
  := by
  rw [((perm_erase_entries hb).map g).sum_eq, List.map_cons, List.sum_cons, add_comm]

/-- The sum over an association list with one more key, or with another value for a key. -/
theorem sum_insert_entries [DecidableEq α] (g : Sigma β → M) (s : AList β) (a : α) (b : β a) :
  ((s.insert a b).entries.map g).sum = g ⟨a, b⟩ + ((s.erase a).entries.map g).sum
  := rfl

theorem erase_of_lookup [DecidableEq α] (ha : s.lookup a = none) :
  (s.erase a).entries = s.entries
  := by
  apply List.kerase_of_notMem_keys
  rw [← AList.keys, ← AList.mem_keys, ← AList.lookup_eq_none, ha]

/-! ### Association lists with fewer entries -/

theorem lookup_of_sublist [DecidableEq α] (hsub : m.entries.Sublist m'.entries)
    (hb : m.lookup a = some b) :
  m'.lookup a = some b
  := AList.mem_lookup_iff.mpr (hsub.subset (AList.mem_lookup_iff.mp hb))

theorem lookup_none_of_sublist [DecidableEq α] (hsub : m.entries.Sublist m'.entries)
    (ha : m'.lookup a = none) :
  m.lookup a = none
  := by
  rw [Option.eq_none_iff_forall_ne_some]
  intro b hb
  rw [lookup_of_sublist hsub hb] at ha
  contradiction
