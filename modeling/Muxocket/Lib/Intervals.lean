import Mathlib.Data.UInt
import Mathlib.Algebra.BigOperators.Group.Finset.Basic
import Mathlib.Algebra.Order.BigOperators.Group.Finset
import Mathlib.Order.Interval.Finset.Nat

/-!
# Intervals that lie apart

Intervals of natural numbers, given by their starts and lengths, that lie apart from each other
between two bounds are together not longer than the distance of the bounds.
-/

variable {α : Type} [DecidableEq α]

theorem sum_length_le_of_apart (start length : α → Nat) {l : List α} (hl : l.Nodup) {a b : Nat}
    (hin : ∀ x ∈ l, a ≤ start x ∧ start x + length x ≤ b)
    (hinj : ∀ x ∈ l, ∀ y ∈ l, start x = start y → x = y)
    (hapart : ∀ x ∈ l, ∀ y ∈ l, start x < start y → start x + length x ≤ start y) :
  (l.map length).sum ≤ b - a
  := by
  have hdisjoint : (l.toFinset : Set α).PairwiseDisjoint
      fun x => Finset.Ico (start x) (start x + length x) := by
    intro x hx y hy hxy
    rw [Finset.mem_coe, List.mem_toFinset] at hx hy
    apply Finset.disjoint_left.mpr
    intro n hnx hny
    rw [Finset.mem_Ico] at hnx hny
    obtain hlt | heq | hlt := Nat.lt_trichotomy (start x) (start y)
    · have := hapart x hx y hy hlt
      omega
    · exact hxy (hinj x hx y hy heq)
    · have := hapart y hy x hx hlt
      omega
  have hsubset : l.toFinset.biUnion (fun x => Finset.Ico (start x) (start x + length x))
      ⊆ Finset.Ico a b := by
    intro n hn
    obtain ⟨x, hx, hnx⟩ := Finset.mem_biUnion.mp hn
    have := hin x (List.mem_toFinset.mp hx)
    rw [Finset.mem_Ico] at hnx ⊢
    omega
  calc
    (l.map length).sum = ∑ x ∈ l.toFinset, length x := (List.sum_toFinset length hl).symm
    _ = (l.toFinset.biUnion fun x => Finset.Ico (start x) (start x + length x)).card := by
      rw [Finset.card_biUnion hdisjoint]
      simp
    _ ≤ (Finset.Ico a b).card := Finset.card_le_card hsubset
    _ = b - a := Nat.card_Ico a b
