import Mathlib.Data.List.Basic
import Mathlib.Logic.Function.Basic

/-!
# Queues in linked segments

A queue may be kept in a chain of segments of slots.  Every segment has a capacity, the number
`tail` of its slots that have been filled, and a link to the next one.  The memory maps addresses
to segments, and a chain is a list of addresses.
-/

/-- A segment of a queue. -/
structure Segment (α : Type) where
  slots : Nat → α
  cap : Nat
  tail : Nat
  next : Option Nat

namespace Segment

variable {α : Type} {mem mem' : Nat → Segment α}

/-- The filled slots of a segment, from the one with index `i` on. -/
def filled (s : Segment α) (i : Nat) : List α :=
  (List.range' i (s.tail - i)).map s.slots

/-- The slots of a chain that hold the queue: those filled, without the first `i` of the first
segment. -/
def live (mem : Nat → Segment α) : Nat → List Nat → List α
  | _, [] => []
  | i, a :: chain => (mem a).filled i ++ live mem 0 chain

/-- Every segment of a chain has a link to the next one, and the last one has none. -/
def Threaded (mem : Nat → Segment α) : List Nat → Prop
  | [] => True
  | a :: chain => (mem a).next = chain.head? ∧ Threaded mem chain

variable {s s' : Segment α} {i a : Nat} {chain before : List Nat}

theorem filled_eq_nil (h : s.tail ≤ i) :
  s.filled i = []
  := by
  simp [filled, h]

theorem filled_eq_cons (h : i < s.tail) :
  s.filled i = s.slots i :: s.filled (i + 1)
  := by
  obtain ⟨k, hk⟩ : ∃ k, s.tail - i = k + 1 := ⟨s.tail - i - 1, by omega⟩
  have hk' : s.tail - (i + 1) = k := by omega
  simp [filled, hk, hk', List.range'_succ]

theorem filled_congr (htail : s'.tail = s.tail)
    (hslots : ∀ j, i ≤ j → j < s.tail → s'.slots j = s.slots j) :
  s'.filled i = s.filled i
  := by
  unfold filled
  rw [htail]
  apply List.map_congr_left
  intro j hj
  rw [List.mem_range'_1] at hj
  exact hslots j hj.1 (by omega)

/-- One more slot is filled. -/
theorem filled_push (hi : i ≤ s.tail) (htail : s'.tail = s.tail + 1) (hslots : s'.slots = s.slots) :
  s'.filled i = s.filled i ++ [s.slots s.tail]
  := by
  obtain ⟨k, hk⟩ : ∃ k, s.tail = i + k := ⟨s.tail - i, by omega⟩
  have hk' : s'.tail - i = k + 1 := by omega
  simp [filled, hslots, hk, hk', List.range'_concat]

/-- The queue depends on the filled slots only. -/
theorem live_congr_slots (h : ∀ a ∈ chain, (mem' a).tail = (mem a).tail
      ∧ ∀ j < (mem a).tail, (mem' a).slots j = (mem a).slots j) :
  live mem' i chain = live mem i chain
  := by
  induction chain generalizing i with
  | nil => rfl
  | cons a chain ih =>
      obtain ⟨htail, hslots⟩ := h a (by simp)
      simp only [live, filled_congr htail fun j _ hj => hslots j hj,
        ih fun b hb => h b (by simp [hb])]

theorem live_congr (h : ∀ a ∈ chain, mem' a = mem a) :
  live mem' i chain = live mem i chain
  := by
  apply live_congr_slots
  intro a ha
  rw [h a ha]
  exact ⟨rfl, fun _ _ => rfl⟩

theorem live_append (i : Nat) (hne : chain ≠ []) (a : Nat) :
  live mem i (chain ++ [a]) = live mem i chain ++ (mem a).filled 0
  := by
  induction chain generalizing i with
  | nil => contradiction
  | cons b chain ih =>
      cases chain with
      | nil => simp [live]
      | cons c chain =>
          have ih := ih 0 (by simp)
          simp only [List.cons_append, live] at ih ⊢
          rw [ih]
          simp

/-- What changes in the last segment of a chain changes the queue at its end. -/
theorem live_last (hbefore : ∀ b ∈ before, mem' b = mem b) {ys : List α}
    (hfilled : ∀ j, (before = [] → j = i) → (before ≠ [] → j = 0) →
      (mem' a).filled j = (mem a).filled j ++ ys) :
  live mem' i (before ++ [a]) = live mem i (before ++ [a]) ++ ys
  := by
  by_cases hnil : before = []
  · subst hnil
    simp [live, hfilled i (fun _ => rfl) (fun h => absurd rfl h)]
  · rw [live_append i hnil, live_append i hnil, live_congr hbefore,
      hfilled 0 (fun h => absurd h hnil) (fun _ => rfl), List.append_assoc]

theorem Threaded.congr (h : Threaded mem chain)
    (hnext : ∀ a ∈ chain, (mem' a).next = (mem a).next) :
  Threaded mem' chain
  := by
  induction chain with
  | nil => trivial
  | cons a chain ih =>
      exact ⟨(hnext a (by simp)).trans h.1, ih h.2 fun b hb => hnext b (by simp [hb])⟩

/-- A chain with one more segment at its end. -/
theorem Threaded.append {b : Nat} (h : Threaded mem (before ++ [b]))
    (hbefore : ∀ c ∈ before, (mem' c).next = (mem c).next) (hb : (mem' b).next = some a)
    (ha : (mem' a).next = none) :
  Threaded mem' (before ++ [b] ++ [a])
  := by
  induction before with
  | nil => exact ⟨hb, ha, trivial⟩
  | cons c before ih =>
      refine ⟨?_, ih h.2 fun d hd => hbefore d (by simp [hd])⟩
      rw [hbefore c (by simp), h.1]
      cases before <;> rfl

/-- The links determine a chain from its first segment on. -/
theorem Threaded.unique {chain' : List Nat} (h : Threaded mem chain) (h' : Threaded mem chain')
    (hhead : chain.head? = chain'.head?) :
  chain = chain'
  := by
  induction chain generalizing chain' with
  | nil => exact (List.head?_eq_none_iff.mp hhead.symm).symm
  | cons a chain ih =>
      cases chain' with
      | nil => simp at hhead
      | cons b chain' =>
          obtain rfl : a = b := by simpa using hhead
          rw [ih h.2 h'.2 (h.1.symm.trans h'.1)]

theorem Threaded.next_last (h : Threaded mem (before ++ [a])) :
  (mem a).next = none
  := by
  induction before with
  | nil => exact h.1
  | cons b before ih => exact ih h.2

end Segment
