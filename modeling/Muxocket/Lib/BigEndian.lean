import Mathlib.Data.Nat.Basic
import Mathlib.Tactic.Ring

/-!
# Big-endian numbers

`bigEndian k n` are the `k` bytes of `n`, the most significant first, and `ofBigEndian`
is the number a byte string stands for.
-/

/-- The lowest `k` bytes of `n`, the most significant first. -/
def bigEndian : Nat → Nat → List UInt8
  | 0, _ => []
  | k + 1, n => bigEndian k (n / 256) ++ [UInt8.ofNat n]

/-- The number a byte string stands for, with `n` in front of it. -/
def ofBigEndianFrom (n : Nat) (bytes : List UInt8) : Nat :=
  bytes.foldl (fun n b => n * 256 + b.toNat) n

/-- The number a byte string stands for. -/
def ofBigEndian (bytes : List UInt8) : Nat :=
  ofBigEndianFrom 0 bytes

@[simp]
theorem length_bigEndian (k n : Nat) :
  (bigEndian k n).length = k
  := by
  induction k generalizing n with
  | zero => rfl
  | succ k ih => simp [bigEndian, ih]

theorem ofBigEndianFrom_bigEndian (k : Nat) :
  ∀ n m : Nat, n < 256 ^ k → ofBigEndianFrom m (bigEndian k n) = m * 256 ^ k + n
  := by
  induction k with
  | zero =>
      intro n m h
      simp only [pow_zero, Nat.lt_one_iff] at h
      simp [bigEndian, ofBigEndianFrom, h]
  | succ k ih =>
      intro n m h
      have hdiv : n / 256 < 256 ^ k := by
        rw [pow_succ] at h
        exact Nat.div_lt_of_lt_mul (by rwa [Nat.mul_comm] at h)
      have hbyte : (UInt8.ofNat n).toNat = n % 256 := by
        simp
      have hsplit := Nat.div_add_mod n 256
      rw [bigEndian, ofBigEndianFrom, List.foldl_append]
      have hfront := ih (n / 256) m hdiv
      rw [ofBigEndianFrom] at hfront
      rw [hfront, List.foldl_cons, List.foldl_nil, hbyte, pow_succ, Nat.add_mul, ← Nat.mul_assoc]
      omega

/-- A number that fits is recovered from its bytes. -/
theorem ofBigEndian_bigEndian {k n : Nat} (h : n < 256 ^ k) :
  ofBigEndian (bigEndian k n) = n
  := by
  rw [ofBigEndian, ofBigEndianFrom_bigEndian k n 0 h]
  simp
