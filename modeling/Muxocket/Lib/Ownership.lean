import Mathlib.Data.Multiset.UnionInter

/-!
# Ownership

Tokens are numbered in the order in which they are taken.  The places where tokens are kept make
up a multiset, each token as often as it is kept.  If every token is kept at most once, it stays
so when tokens are moved or lost, and when a new one is taken.
-/

/-- Of the tokens below `next`, each is kept at most once in `m`, and no others are. -/
structure Owned (next : Nat) (m : Multiset Nat) : Prop where
  nodup : m.Nodup
  bound : ∀ b ∈ m, b < next

namespace Owned

variable {next : Nat} {m m' : Multiset Nat}

theorem zero :
  Owned 0 0
  := ⟨Multiset.nodup_zero, fun _ hb => absurd hb (Multiset.notMem_zero _)⟩

/-- Tokens are moved, or some are lost. -/
theorem mono (h : Owned next m) (hle : m' ≤ m) :
  Owned next m'
  := ⟨Multiset.nodup_of_le hle h.nodup, fun b hb => h.bound b (Multiset.mem_of_le hle hb)⟩

/-- A new token is taken. -/
theorem take (h : Owned next m) :
  Owned (next + 1) (next ::ₘ m)
  := by
  constructor
  · rw [Multiset.nodup_cons]
    exact ⟨fun hmem => (h.bound next hmem).false, h.nodup⟩
  · intro b hb
    obtain rfl | hb := Multiset.mem_cons.mp hb
    · apply Nat.lt_succ_self
    · apply Nat.lt_succ_of_lt (h.bound b hb)

end Owned
