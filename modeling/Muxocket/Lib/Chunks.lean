import Mathlib.Data.List.Basic

/-!
# Chunks

A list cut into chunks, each of them with the offset at which it starts.
-/

variable {α : Type}

/-- The chunks of a list, the first of which starts at the offset `start`. -/
def chunks (start : Nat) : List (List α) → List (Nat × List α)
  | [] => []
  | p :: ps => (start, p) :: chunks (start + p.length) ps

theorem chunks_append (start : Nat) (ps qs : List (List α)) :
  chunks start (ps ++ qs) = chunks start ps ++ chunks (start + ps.flatten.length) qs
  := by
  induction ps generalizing start with
  | nil => rfl
  | cons p ps ih =>
      simp only [List.cons_append, chunks, ih, List.flatten_cons, List.length_append]
      rw [Nat.add_assoc]

section

variable {start off : Nat} {ps : List (List α)} {p : List α} (h : (off, p) ∈ chunks start ps)

include h

/-- A chunk lies within the list, and is what the list has at its offset. -/
theorem mem_chunks :
  ∃ before after, ps.flatten = before ++ p ++ after ∧ off = start + before.length
  := by
  induction ps generalizing start with
  | nil => contradiction
  | cons q ps ih =>
      rcases List.mem_cons.mp h with heq | h
      · obtain ⟨rfl, rfl⟩ := Prod.mk.inj heq
        exact ⟨[], ps.flatten, by simp, by simp⟩
      · obtain ⟨before, after, hflatten, hoff⟩ := ih h
        refine ⟨q ++ before, after, by simp [hflatten], ?_⟩
        rw [hoff, List.length_append, Nat.add_assoc]

theorem mem_of_mem_chunks :
  p ∈ ps
  := by
  induction ps generalizing start with
  | nil => contradiction
  | cons q ps ih =>
      rcases List.mem_cons.mp h with heq | h
      · obtain ⟨-, rfl⟩ := Prod.mk.inj heq
        apply List.mem_cons_self
      · exact List.mem_cons_of_mem _ (ih h)

theorem end_le_of_mem_chunks :
  off + p.length ≤ start + ps.flatten.length
  := by
  obtain ⟨before, after, hflatten, rfl⟩ := mem_chunks h
  rw [hflatten]
  simp only [List.length_append]
  omega

end

/-- Every chunk ends before the next one starts. -/
theorem pairwise_chunks (start : Nat) (ps : List (List α)) :
  (chunks start ps).Pairwise fun x y => x.1 + x.2.length ≤ y.1
  := by
  induction ps generalizing start with
  | nil => apply List.Pairwise.nil
  | cons p ps ih =>
      refine List.Pairwise.cons ?_ (ih _)
      rintro ⟨off, q⟩ hq
      obtain ⟨before, _, _, rfl⟩ := mem_chunks hq
      exact Nat.le_add_right _ _

variable {start : Nat} {ps : List (List α)} {p : List α}

/-- No chunk starts within another. -/
theorem end_le_of_lt {a b : Nat} {q : List α} (hp : (a, p) ∈ chunks start ps)
    (hq : (b, q) ∈ chunks start ps) (hlt : a < b) :
  a + p.length ≤ b
  := by
  have hpairwise := pairwise_chunks start ps
  generalize chunks start ps = cs at *
  induction hpairwise with
  | nil => contradiction
  | cons hfirst _ ih =>
      rcases List.mem_cons.mp hp with rfl | hp'
      · rcases List.mem_cons.mp hq with heq | hq'
        · obtain ⟨rfl, -⟩ := Prod.mk.inj heq
          omega
        · exact hfirst _ hq'
      · rcases List.mem_cons.mp hq with rfl | hq'
        · have hle := hfirst _ hp'
          simp only at hle
          omega
        · exact ih hp' hq'

/-- What has been received up to a chunk, with the chunk. -/
theorem take_append_of_mem_chunks {off : Nat} (h : (off, p) ∈ chunks 0 ps) :
  ps.flatten.take off ++ p = ps.flatten.take (off + p.length)
  := by
  obtain ⟨before, after, hflatten, rfl⟩ := mem_chunks h
  rw [hflatten, Nat.zero_add, ← List.length_append, List.append_assoc, List.take_left,
    ← List.append_assoc, List.take_left]

/-- The first chunks of a list, and the others, are the chunks of two lists. -/
theorem chunks_eq_append {cs ds : List (Nat × List α)} (h : chunks start ps = cs ++ ds) :
  ∃ qs rs, ps = qs ++ rs ∧ cs = chunks start qs ∧ ds = chunks (start + qs.flatten.length) rs
  := by
  induction cs generalizing start ps with
  | nil => exact ⟨[], ps, rfl, rfl, by simpa using h.symm⟩
  | cons c cs ih =>
      cases ps with
      | nil => contradiction
      | cons p ps =>
          obtain ⟨rfl, hrest⟩ := List.cons.inj h
          obtain ⟨qs, rs, rfl, rfl, rfl⟩ := ih hrest
          refine ⟨p :: qs, rs, rfl, rfl, ?_⟩
          rw [List.flatten_cons, List.length_append, Nat.add_assoc]

/-- A list is as long as the end of its last chunk. -/
theorem length_flatten_le {n : Nat} (h : ∀ x ∈ chunks 0 ps, x.1 + x.2.length ≤ n) :
  ps.flatten.length ≤ n
  := by
  rcases List.eq_nil_or_concat ps with rfl | ⟨qs, p, rfl⟩
  · exact Nat.zero_le _
  · have hlast := h (qs.flatten.length, p) (by simp [chunks_append, chunks])
    simpa using hlast

/-- What is dropped from the front of a list in order is all there is to drop. -/
theorem dropWhile_eq_filter {β : Type} {p : β → Bool} {l : List β}
    (h : l.Pairwise fun x y => p y = true → p x = true) :
  l.dropWhile p = l.filter fun x => !p x
  := by
  induction h with
  | nil => rfl
  | @cons x l hfirst _ ih =>
      by_cases hx : p x = true
      · simp [hx, ih]
      · have hrest : ∀ y ∈ l, (!p y) = true := by
          intro y hy
          by_contra hnot
          exact hx (hfirst y hy (by simpa using hnot))
        simp [hx, List.filter_eq_self.mpr hrest]
