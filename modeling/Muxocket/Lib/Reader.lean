import Mathlib.Data.List.Basic

/-!
# Readers

A reader hands out a stream in pieces: reading into a buffer gives what the next piece
holds, at most as much as the buffer takes.  A piece may be empty, and after the last piece
the stream has ended.  `readFull` reads until a buffer is full.
-/

variable {α : Type}

/-- Read exactly `n` items, and what is left of the pieces.  There are none if the stream
ends before. -/
def readFull : Nat → List (List α) → Option (List α × List (List α))
  | 0, pieces => some ([], pieces)
  | _ + 1, [] => none
  | n + 1, p :: pieces =>
      if n + 1 < p.length then some (p.take (n + 1), p.drop (n + 1) :: pieces)
      else (readFull (n + 1 - p.length) pieces).map fun r => (p ++ r.1, r.2)

/-- However a stream is cut into pieces, reading gives its first items and leaves the
rest. -/
theorem readFull_of_le (n : Nat) (pieces : List (List α)) (h : n ≤ pieces.flatten.length) :
  ∃ rest, readFull n pieces = some (pieces.flatten.take n, rest)
    ∧ rest.flatten = pieces.flatten.drop n
  := by
  induction pieces generalizing n with
  | nil =>
      obtain rfl : n = 0 := by simpa using h
      use []
      simp [readFull]
  | cons p pieces ih =>
      cases n with
      | zero =>
          use p :: pieces
          simp [readFull]
      | succ n =>
          rw [List.flatten_cons, List.length_append] at h
          by_cases hlt : n + 1 < p.length
          · use p.drop (n + 1) :: pieces
            simp only [readFull, hlt, if_true, List.flatten_cons]
            constructor
            · rw [List.take_append_of_le_length (Nat.le_of_lt hlt)]
            · rw [List.drop_append_of_le_length (Nat.le_of_lt hlt)]
          · obtain ⟨rest, hread, hrest⟩ := ih (n + 1 - p.length) (by omega)
            use rest
            simp only [readFull, hlt, if_false, hread, Option.map_some, List.flatten_cons]
            rw [List.take_append, List.drop_append, hrest,
              List.take_of_length_le (by omega : p.length ≤ n + 1),
              List.drop_of_length_le (by omega : p.length ≤ n + 1)]
            simp

/-- A stream that ends too early gives nothing. -/
theorem readFull_of_lt (n : Nat) (pieces : List (List α)) (h : pieces.flatten.length < n) :
  readFull n pieces = none
  := by
  induction pieces generalizing n with
  | nil =>
      cases n with
      | zero => simp at h
      | succ n => rfl
  | cons p pieces ih =>
      rw [List.flatten_cons, List.length_append] at h
      cases n with
      | zero => omega
      | succ n =>
          rw [readFull, if_neg (by omega), ih _ (by omega)]
          rfl
