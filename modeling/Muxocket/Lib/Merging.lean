import Mathlib.Data.List.Basic

/-!
# Merging

A loop goes through a list and collects what becomes of its values.  A value is first resolved
with a state, by which it may be dropped.  Then it is merged into the first of those collected
that it meets, or is put behind them.
-/

namespace Merging

variable {α σ : Type*}

/-- Merge a value into the first of a list that it meets, or put it at the end. -/
def insert (meets : α → α → Bool) (absorb : α → α → α) : List α → α → List α
  | [], f => [f]
  | g :: out, f => if meets f g then absorb g f :: out else g :: insert meets absorb out f

/-- Resolve the values of a list, and insert them into those collected before. -/
def collect (resolve : α → σ → Option α × σ) (put : List α → α → List α) (out : List α) :
    List α → σ → List α × σ
  | [], s => (out, s)
  | f :: fs, s =>
      collect resolve put ((resolve f s).1.elim out (put out)) fs (resolve f s).2

section

variable {meets : α → α → Bool} {absorb : α → α → α} {out : List α} {f : α}

theorem insert_of_forall (h : ∀ g ∈ out, meets f g = false) :
  insert meets absorb out f = out ++ [f]
  := by
  induction out with
  | nil => rfl
  | cons g out ih =>
      obtain ⟨hg, hout⟩ := List.forall_mem_cons.mp h
      simp [insert, hg, ih hout]

theorem insert_of_first {before after : List α} {g : α} (h : ∀ k ∈ before, meets f k = false)
    (hg : meets f g = true) :
  insert meets absorb (before ++ g :: after) f = before ++ absorb g f :: after
  := by
  induction before with
  | nil => simp [insert, hg]
  | cons k before ih =>
      obtain ⟨hk, hbefore⟩ := List.forall_mem_cons.mp h
      simp [insert, hk, ih hbefore]

/-- A value is put at the end if it meets none, and is merged into the first it meets
otherwise. -/
theorem insert_cases (meets : α → α → Bool) (absorb : α → α → α) (out : List α) (f : α) :
  (∀ g ∈ out, meets f g = false) ∧ insert meets absorb out f = out ++ [f]
    ∨ ∃ before g after, out = before ++ g :: after ∧ meets f g = true
      ∧ insert meets absorb out f = before ++ absorb g f :: after
  := by
  cases hfind : out.find? (meets f) with
  | none =>
      have hnone : ∀ g ∈ out, meets f g = false := by
        simpa using hfind
      exact .inl ⟨hnone, insert_of_forall hnone⟩
  | some g =>
      obtain ⟨hg, before, after, rfl, hbefore⟩ := List.find?_eq_some_iff_append.mp hfind
      exact .inr ⟨before, g, after, rfl, hg, insert_of_first (by simpa using hbefore) hg⟩

section

variable {p : α → Bool} (hp : ∀ {f g}, meets f g = true → p g = p f ∧ p (absorb g f) = p f)

include hp

/-- What is merged is of one kind, so the values of a kind are merged among themselves. -/
theorem filter_foldl_insert (fs out : List α) :
  (fs.foldl (insert meets absorb) out).filter p
    = (fs.filter p).foldl (insert meets absorb) (out.filter p)
  := by
  have hinsert (out : List α) (f : α) : (insert meets absorb out f).filter p
      = if p f then insert meets absorb (out.filter p) f else out.filter p := by
    induction out with
    | nil => simp [insert, List.filter_cons]
    | cons g out ih =>
        cases hmeets : meets f g with
        | true =>
            obtain ⟨hg, habsorb⟩ := hp hmeets
            cases hf : p f <;> simp [insert, hmeets, hg, habsorb, hf]
        | false => cases hg : p g <;> cases hf : p f <;> simp_all [insert]
  induction fs generalizing out with
  | nil => rfl
  | cons f fs ih =>
      rw [List.foldl_cons, ih, hinsert]
      cases hf : p f <;> simp [hf]

/-- Values of a kind of which each meets every other are merged to one. -/
theorem foldl_insert_of_meets (hmeets : ∀ {f g}, p f = true → p g = true → meets f g = true)
    (fs : List α) {g : α} (hg : p g = true) (hfs : ∀ f ∈ fs, p f = true) :
  fs.foldl (insert meets absorb) [g] = [fs.foldl absorb g]
  := by
  induction fs generalizing g with
  | nil => rfl
  | cons f fs ih =>
      obtain ⟨hf, hfs⟩ := List.forall_mem_cons.mp hfs
      have hfg := hmeets hf hg
      rw [List.foldl_cons, List.foldl_cons, insert, if_pos hfg]
      apply ih (by rw [(hp hfg).2, hf]) hfs

end

/-- Values that meet none are kept as they are. -/
theorem foldl_insert_of_not {fs : List α} (h : ∀ f ∈ fs, ∀ g, meets f g = false) (out : List α) :
  fs.foldl (insert meets absorb) out = out ++ fs
  := by
  induction fs generalizing out with
  | nil => simp
  | cons f fs ih =>
      obtain ⟨hf, hfs⟩ := List.forall_mem_cons.mp h
      rw [List.foldl_cons, insert_of_forall fun g _ => hf g, ih hfs, List.append_assoc,
        List.singleton_append]

end

/-- Values that are left as they are when they are resolved, and are not merged, are collected
in their order. -/
theorem filter_collect {resolve : α → σ → Option α × σ} {meets : α → α → Bool}
    {absorb : α → α → α} {p : α → Bool} {Q : α → Prop}
    (hresolve : ∀ {f s}, Q f → (resolve f s).1.toList.filter p = [f].filter p
      ∧ ∀ g ∈ (resolve f s).1, Q g)
    (hmeets : ∀ {f g}, Q f → Q g → meets f g = true →
      p f = false ∧ p g = false ∧ p (absorb g f) = false ∧ Q (absorb g f))
    {out fs : List α} (hout : ∀ f ∈ out, Q f) (hfs : ∀ f ∈ fs, Q f) (s : σ) :
  (collect resolve (insert meets absorb) out fs s).1.filter p = out.filter p ++ fs.filter p
  := by
  induction fs generalizing out s with
  | nil => simp [collect]
  | cons f fs ih =>
      obtain ⟨hf, hfs⟩ := List.forall_mem_cons.mp hfs
      obtain ⟨hp, hg⟩ := hresolve (s := s) hf
      have hcons : (f :: fs).filter p = (resolve f s).1.toList.filter p ++ fs.filter p := by
        rw [hp, ← List.filter_append, List.singleton_append]
      rw [hcons, collect]
      cases hresolved : (resolve f s).1 with
      | none => apply ih hout hfs
      | some g =>
          have hg := hg g hresolved
          rw [Option.elim_some]
          obtain ⟨-, hput⟩ | ⟨before, k, after, rfl, hk, hput⟩ := insert_cases meets absorb out g
          · rw [hput, ih _ hfs]
            · simp
            · simpa [or_imp, forall_and] using ⟨hout, hg⟩
          · obtain ⟨hpg, hpk, hpm, hm⟩ := hmeets hg (hout k (by simp)) hk
            rw [hput, ih _ hfs]
            · simp [hpg, hpk, hpm]
            · simp only [List.mem_append, List.mem_cons, or_imp, forall_and, forall_eq] at hout ⊢
              exact ⟨hout.1, hm, hout.2.2⟩

end Merging
