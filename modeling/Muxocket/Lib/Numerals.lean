import Mathlib.Algebra.Ring.Nat
import Mathlib.Data.List.Induction

/-!
# Numerals without a zero

In the bijective numeral system with base `b` the digits `0, …, b - 1` count as `1, …, b`.  Every
number has exactly one numeral, and the numbers of the numerals of at most `k` digits are those up
to `b * ones b k`.
-/

namespace Numeral

/-- The number of a numeral whose first digits, the most significant ones, have the number `n`. -/
def value (b n : Nat) : List Nat → Nat
  | [] => n
  | d :: ds => value b (n * b + d + 1) ds

/-- The number of the numeral of `k` digits that are all `0`. -/
def ones (b : Nat) : Nat → Nat
  | 0 => 0
  | k + 1 => ones b k * b + 1

variable {b : Nat}

@[simp]
theorem value_nil (n : Nat) :
  value b n [] = n
  := rfl

theorem value_append (n : Nat) (ds es : List Nat) :
  value b n (ds ++ es) = value b (value b n ds) es
  := by
  induction ds generalizing n with
  | nil => rfl
  | cons d ds ih => apply ih

@[simp]
theorem value_concat (n : Nat) (ds : List Nat) (d : Nat) :
  value b n (ds ++ [d]) = value b n ds * b + d + 1
  := by
  rw [value_append]
  rfl

theorem ones_mono (hb : 0 < b) {k l : Nat} (h : k ≤ l) :
  ones b k ≤ ones b l
  := by
  induction h with
  | refl => exact Nat.le_refl _
  | step _ ih =>
      apply Nat.le_trans ih
      apply Nat.le_succ_of_le
      apply Nat.le_mul_of_pos_right _ hb

/-- The numerals of `k` digits have the numbers from `ones b k` to `b * ones b k`. -/
theorem value_bounds (ds : List Nat) (hds : ∀ d ∈ ds, d < b) :
  ones b ds.length ≤ value b 0 ds ∧ value b 0 ds ≤ b * ones b ds.length
  := by
  induction ds using List.reverseRecOn with
  | nil => exact ⟨Nat.le_refl _, Nat.zero_le _⟩
  | append_singleton ds d ih =>
      obtain ⟨hlow, hhigh⟩ := ih fun x hx => hds x (List.mem_append_left _ hx)
      have hd : d < b := hds d (by simp)
      have hlow := Nat.mul_le_mul_right b hlow
      have hhigh := Nat.mul_le_mul_right b hhigh
      rw [value_concat, List.length_append, List.length_singleton, ones]
      rw [Nat.mul_add, ← Nat.mul_assoc]
      omega

/-- A number has at most one numeral. -/
theorem value_injective {ds es : List Nat} (hds : ∀ d ∈ ds, d < b) (hes : ∀ d ∈ es, d < b)
    (h : value b 0 ds = value b 0 es) :
  ds = es
  := by
  induction ds using List.reverseRecOn generalizing es with
  | nil =>
      cases es using List.reverseRecOn with
      | nil => rfl
      | append_singleton es e => simp at h
  | append_singleton ds d ih =>
      cases es using List.reverseRecOn with
      | nil => simp at h
      | append_singleton es e =>
          rw [value_concat, value_concat] at h
          have hd : d < b := hds d (by simp)
          have he : e < b := hes e (by simp)
          have hsum : value b 0 ds * b + d = value b 0 es * b + e := Nat.succ.inj h
          have hdigit : d = e := by
            have hmod := congrArg (· % b) hsum
            simpa [Nat.mod_eq_of_lt hd, Nat.mod_eq_of_lt he] using hmod
          subst hdigit
          have hrest : value b 0 ds = value b 0 es :=
            Nat.eq_of_mul_eq_mul_right (by omega) (Nat.add_right_cancel hsum)
          rw [ih (fun x hx => hds x (List.mem_append_left _ hx))
            (fun x hx => hes x (List.mem_append_left _ hx)) hrest]

end Numeral
