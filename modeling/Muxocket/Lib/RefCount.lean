import Mathlib.Data.Multiset.Count
import Mathlib.Data.Multiset.Replicate
import Mathlib.Logic.Function.Basic

/-!
# Reference counts

Objects are numbered in the order they are made.  Each has a count, and is freed when its count
reaches zero.  The counts agree with a multiset of references if the count of every object is the
number of references to it.  Who holds a reference does not matter, so handing one on changes
nothing.
-/

/-- The counts of the objects made so far, and the objects that have been freed, in order. -/
structure RefCount where
  born : Nat := 0
  refs : Nat → Int := fun _ => 0
  freed : List Nat := []

namespace RefCount

/-- Make an object with the count `n`. -/
def new (n : Nat) (r : RefCount) : RefCount :=
  { r with born := r.born + 1, refs := Function.update r.refs r.born n }

/-- Take one more reference to an object. -/
def retain (a : Nat) (r : RefCount) : RefCount :=
  { r with refs := Function.update r.refs a (r.refs a + 1) }

/-- Give a reference to an object back, and free it if that was the last one. -/
def release (a : Nat) (r : RefCount) : RefCount :=
  { r with
    refs := Function.update r.refs a (r.refs a - 1)
    freed := if r.refs a - 1 = 0 then r.freed ++ [a] else r.freed }

/-- The counts are the numbers of references, and the objects without references are those that
have been freed, each of them once. -/
structure Agrees (held : Multiset Nat) (r : RefCount) : Prop where
  refs : ∀ a < r.born, r.refs a = held.count a
  bound : ∀ a ∈ held, a < r.born
  nodup : r.freed.Nodup
  freed : ∀ a, a ∈ r.freed ↔ a < r.born ∧ r.refs a = 0

theorem agrees_empty :
  Agrees 0 {}
  := ⟨nofun, nofun, List.nodup_nil, by simp⟩

namespace Agrees

variable {held : Multiset Nat} {r : RefCount} {a : Nat}

/-- An object with references has not been freed. -/
theorem not_freed (h : Agrees held r) (ha : a ∈ held) :
  a ∉ r.freed ∧ 0 < r.refs a
  := by
  have hborn := h.bound a ha
  have hcount := Multiset.count_pos.mpr ha
  have hrefs := h.refs a hborn
  refine ⟨?_, by omega⟩
  intro hfreed
  have hzero := ((h.freed a).mp hfreed).2
  omega

theorem new (h : Agrees held r) {n : Nat} (hn : 0 < n) :
  Agrees (held + Multiset.replicate n r.born) (r.new n)
  := by
  have hfresh : r.born ∉ held := fun hmem => Nat.lt_irrefl _ (h.bound _ hmem)
  refine ⟨?_, ?_, h.nodup, ?_⟩
  · intro a ha
    rw [Multiset.count_add, Multiset.count_replicate]
    rcases Nat.lt_succ_iff_lt_or_eq.mp ha with ha | rfl
    · have hne : a ≠ r.born := Nat.ne_of_lt ha
      simpa [RefCount.new, hne, Ne.symm hne] using h.refs a ha
    · simp [RefCount.new, Multiset.count_eq_zero.mpr hfresh]
  · intro a ha
    rcases Multiset.mem_add.mp ha with ha | ha
    · exact Nat.lt_succ_of_lt (h.bound a ha)
    · rw [Multiset.eq_of_mem_replicate ha]
      exact Nat.lt_succ_self _
  · intro a
    by_cases heq : a = r.born
    · subst heq
      have hnot : r.born ∉ r.freed := fun hmem => Nat.lt_irrefl _ ((h.freed _).mp hmem).1
      simp only [RefCount.new, hnot, Function.update_self, false_iff]
      omega
    · have hlt : a < r.born + 1 ↔ a < r.born := by omega
      simpa [RefCount.new, heq, hlt] using h.freed a

theorem retain (h : Agrees held r) (ha : a ∈ held) :
  Agrees (a ::ₘ held) (r.retain a)
  := by
  obtain ⟨hnot, hpos⟩ := h.not_freed ha
  refine ⟨?_, ?_, h.nodup, ?_⟩
  · intro b hb
    by_cases heq : b = a
    · subst heq
      simpa [RefCount.retain] using h.refs b hb
    · simpa [RefCount.retain, heq] using h.refs b hb
  · intro b hb
    rcases Multiset.mem_cons.mp hb with rfl | hb
    · exact h.bound b ha
    · exact h.bound b hb
  · intro b
    by_cases heq : b = a
    · subst heq
      simp only [RefCount.retain, hnot, Function.update_self, false_iff]
      omega
    · simpa [RefCount.retain, heq] using h.freed b

theorem release (h : Agrees (a ::ₘ held) r) :
  Agrees held (r.release a)
  := by
  have hmem : a ∈ a ::ₘ held := Multiset.mem_cons_self a held
  obtain ⟨hnot, hpos⟩ := h.not_freed hmem
  have hborn := h.bound a hmem
  refine ⟨?_, ?_, ?_, ?_⟩
  · intro b hb
    have hrefs := h.refs b hb
    by_cases heq : b = a
    · subst heq
      rw [Multiset.count_cons_self] at hrefs
      simp only [RefCount.release, Function.update_self]
      omega
    · rw [Multiset.count_cons_of_ne heq] at hrefs
      simpa [RefCount.release, heq] using hrefs
  · intro b hb
    exact h.bound b (Multiset.mem_cons_of_mem hb)
  · simp only [RefCount.release]
    split
    · rw [← List.concat_eq_append]
      exact h.nodup.concat hnot
    · exact h.nodup
  · intro b
    have hfreed := h.freed b
    by_cases heq : b = a
    · subst heq
      simp only [RefCount.release, Function.update_self]
      split <;> simp_all
    · simp only [RefCount.release, Function.update_of_ne heq]
      split
      · simpa [heq] using hfreed
      · exact hfreed

end Agrees

/-- Take one more reference to every object of a list. -/
def retainAll (l : List Nat) (r : RefCount) : RefCount :=
  l.foldl (fun r a => r.retain a) r

/-- Give back the references of a list. -/
def releaseAll (l : List Nat) (r : RefCount) : RefCount :=
  l.foldl (fun r a => r.release a) r

theorem Agrees.retainAll {held : Multiset Nat} {r : RefCount} {l : List Nat} (h : Agrees held r)
    (hl : ∀ a ∈ l, a ∈ held) :
  Agrees (held + l) (r.retainAll l)
  := by
  induction l generalizing held r with
  | nil => simpa [RefCount.retainAll] using h
  | cons a l ih =>
      have hmore := ih (h.retain (hl a List.mem_cons_self)) fun b hb =>
        Multiset.mem_cons_of_mem (hl b (List.mem_cons_of_mem a hb))
      rw [← Multiset.cons_coe, Multiset.add_cons, ← Multiset.cons_add]
      exact hmore

theorem Agrees.releaseAll {held : Multiset Nat} {r : RefCount} {l : List Nat}
    (h : Agrees (held + l) r) :
  Agrees held (r.releaseAll l)
  := by
  induction l generalizing r with
  | nil => simpa [RefCount.releaseAll] using h
  | cons a l ih =>
      apply ih
      apply Agrees.release
      rwa [← Multiset.cons_coe, Multiset.add_cons] at h

end RefCount
