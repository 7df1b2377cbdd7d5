import Muxocket.Channel
import Muxocket.Lib.Numerals

/-!
# Labels and identifiers

A label is a numeral without a zero, to the base 36, whose digits are the characters `0` to `9` and
`a` to `z`, with `A` to `Z` for the same values.  So the labels of at most six characters in lower
case and the numbers from 1 to 2238976116 correspond to each other.  `uint32ToString` writes the
digits of a number from the last one to the first into a buffer of six bytes.
-/

namespace Muxocket

/-! ### Decoding an identifier -/

/-- Why an identifier has no label: it is out of bounds, or the buffer is too short for it, in
which case the program would stop. -/
inductive LabelError where
  | invalid
  | outOfRange
deriving DecidableEq, Repr

/-- The character for a digit. -/
def digitLabel (rem : Nat) : UInt8 :=
  if rem < 10 then UInt8.ofNat (48 + rem) else UInt8.ofNat (97 + (rem - 10))

/-- The loop of `uint32ToString`, where the characters from `idx` on have been written. -/
def labelLoop (idx n : Nat) (buf : Bytes) : Except LabelError Bytes :=
  match idx, n with
  | idx, 0 => .ok (buf.drop idx)
  | 0, _ + 1 => .error .outOfRange
  | idx + 1, n + 1 => labelLoop idx (n / 36) (buf.set idx (digitLabel (n % 36)))

/-- The label of an identifier. -/
def uint32ToString (n : Nat) : Except LabelError Bytes :=
  if n = 0 ∨ 2238976116 < n then .error .invalid else labelLoop 6 n (List.replicate 6 0)

/-! ### Characters -/

/-- The characters of labels. -/
def Alphanumeric (c : UInt8) : Prop :=
  48 ≤ c ∧ c ≤ 57 ∨ 65 ≤ c ∧ c ≤ 90 ∨ 97 ≤ c ∧ c ≤ 122

instance (c : UInt8) : Decidable (Alphanumeric c) :=
  inferInstanceAs (Decidable (_ ∨ _))

/-- A character in lower case. -/
def lowerCase (c : UInt8) : UInt8 :=
  if 65 ≤ c ∧ c ≤ 90 then c + 32 else c

theorem isSome_labelDigit (c : UInt8) :
  (labelDigit c).isSome ↔ Alphanumeric c
  := by
  simp only [labelDigit, Alphanumeric, UInt8.le_iff_toNat_le, UInt8.reduceToNat]
  split_ifs <;> simp <;> omega

variable {d k n : Nat} {label : Bytes}

theorem labelDigit_lt {c : UInt8} (h : labelDigit c = some d) :
  d < 36
  := by
  unfold labelDigit at h
  split_ifs at h <;> have h := Option.some.inj h <;> omega

/-- The character for the value of a character is that character in lower case. -/
theorem digitLabel_of_labelDigit {c : UInt8} (h : labelDigit c = some d) :
  digitLabel d = lowerCase c
  := by
  apply UInt8.toNat_inj.mp
  simp only [labelDigit] at h
  simp only [digitLabel, lowerCase, UInt8.le_iff_toNat_le, UInt8.reduceToNat]
  split_ifs at h ⊢ <;> have h := Option.some.inj h <;>
    simp only [UInt8.toNat_ofNat', UInt8.toNat_add, UInt8.reduceToNat] <;> omega

theorem labelDigit_digitLabel (h : d < 36) :
  labelDigit (digitLabel d) = some d
  := by
  have hnat : (digitLabel d).toNat = if d < 10 then 48 + d else 97 + (d - 10) := by
    unfold digitLabel
    split_ifs <;> rw [UInt8.toNat_ofNat'] <;> omega
  by_cases hd : d < 10
  · rw [if_pos hd] at hnat
    rw [labelDigit, hnat, if_pos (by omega), Nat.add_sub_cancel_left]
  · rw [if_neg hd] at hnat
    rw [labelDigit, hnat, if_neg (by omega), if_pos (by omega), Option.some.injEq]
    omega

/-! ### Encoding a label -/

/-- The characters of a label have these values. -/
def Spells (label : Bytes) (ds : List Nat) : Prop :=
  List.Forall₂ (fun c d => labelDigit c = some d) label ds

namespace Spells

variable {label : Bytes} {ds : List Nat}

section

variable (h : Spells label ds)

include h

theorem digits_lt :
  ∀ d ∈ ds, d < 36
  := by
  induction h with
  | nil => simp
  | cons hc _ ih =>
      intro d hd
      rcases List.mem_cons.mp hd with rfl | hd
      · exact labelDigit_lt hc
      · exact ih d hd

/-- The characters for the values of a label are the label in lower case. -/
theorem map_digitLabel :
  ds.map digitLabel = label.map lowerCase
  := by
  induction h with
  | nil => rfl
  | cons hc _ ih => rw [List.map_cons, List.map_cons, digitLabel_of_labelDigit hc, ih]

theorem map_labelDigit :
  (label.map lowerCase).map labelDigit = ds.map some
  := by
  rw [← h.map_digitLabel, List.map_map]
  apply List.map_congr_left
  intro d hd
  apply labelDigit_digitLabel (h.digits_lt d hd)

/-- Labels that are equal in lower case have the same values. -/
theorem eq_of_lowerCase {label' : Bytes} {ds' : List Nat} (h' : Spells label' ds')
    (hlower : label.map lowerCase = label'.map lowerCase) :
  ds = ds'
  := by
  apply List.map_injective_iff.mpr (Option.some_injective Nat)
  rw [← h.map_labelDigit, ← h'.map_labelDigit, hlower]

end

end Spells

/-- Every numeral is spelled by the characters for its digits. -/
theorem spells_map_digitLabel (ds : List Nat) (hds : ∀ d ∈ ds, d < 36) :
  Spells (ds.map digitLabel) ds
  := by
  induction ds with
  | nil => exact .nil
  | cons d ds ih =>
      apply List.Forall₂.cons
      · exact labelDigit_digitLabel (hds d List.mem_cons_self)
      · exact ih fun x hx => hds x (List.mem_cons_of_mem _ hx)

/-- A label has values exactly if all of its characters are letters or digits. -/
theorem exists_spells_iff (label : Bytes) :
  (∃ ds, Spells label ds) ↔ ∀ c ∈ label, Alphanumeric c
  := by
  induction label with
  | nil => simp [Spells]
  | cons c label ih =>
      rw [List.forall_mem_cons, ← ih, ← isSome_labelDigit, Option.isSome_iff_exists]
      constructor
      · rintro ⟨_, _ | ⟨hc, hlabel⟩⟩
        exact ⟨⟨_, hc⟩, _, hlabel⟩
      · rintro ⟨⟨d, hc⟩, ds, hlabel⟩
        exact ⟨d :: ds, .cons hc hlabel⟩

/-- One turn of the loop over a label stays below the largest number with one more digit. -/
theorem next_le (hn : n ≤ 36 * Numeral.ones 36 k) (hd : d < 36) :
  n * 36 + d + 1 ≤ 36 * Numeral.ones 36 (k + 1)
  := by
  rw [Numeral.ones]
  omega

/-- The largest number of a numeral with at most six digits, which is an `uint32`. -/
theorem ones_le (hk : k ≤ 6) :
  36 * Numeral.ones 36 k ≤ 2238976116
  := by
  apply Nat.mul_le_mul_left 36 (Numeral.ones_mono (by decide) hk)

/-- The loop over a label computes the number of the numeral. -/
theorem labelValue_eq_some_iff {m : Nat} (hn : n ≤ 36 * Numeral.ones 36 k)
    (hk : k + label.length ≤ 6) :
  labelValue n label = some m ↔ ∃ ds, Spells label ds ∧ Numeral.value 36 n ds = m
  := by
  induction label generalizing n k with
  | nil => simp [labelValue, Spells]
  | cons c label ih =>
      rw [List.length_cons] at hk
      have hnext : ∀ d, labelDigit c = some d →
          (labelValue ((n * 36 + d + 1) % 2 ^ 32) label = some m
            ↔ ∃ ds, Spells label ds ∧ Numeral.value 36 (n * 36 + d + 1) ds = m) := by
        intro d hd
        have hle := next_le hn (labelDigit_lt hd)
        have hbound := ones_le (k := k + 1) (by omega)
        rw [Nat.mod_eq_of_lt (by omega)]
        apply ih hle (by omega)
      rw [labelValue, Option.bind_eq_some_iff]
      constructor
      · rintro ⟨d, hd, hvalue⟩
        obtain ⟨ds, hlabel, hm⟩ := (hnext d hd).mp hvalue
        exact ⟨d :: ds, .cons hd hlabel, hm⟩
      · rintro ⟨_, _ | ⟨hd, hlabel⟩, hm⟩
        exact ⟨_, hd, (hnext _ hd).mpr ⟨_, hlabel, hm⟩⟩

/-- The identifier of a label is the number of the numeral that it spells. -/
theorem stringToUint32_eq_some_iff :
  stringToUint32 label = some n ↔ (1 ≤ label.length ∧ label.length ≤ 6)
    ∧ ∃ ds, Spells label ds ∧ Numeral.value 36 0 ds = n
  := by
  unfold stringToUint32
  by_cases hlength : label.length = 0 ∨ 6 < label.length
  · rw [if_pos hlength]
    simp only [reduceCtorEq, false_iff, not_and]
    omega
  · rw [if_neg hlength, labelValue_eq_some_iff (k := 0) (Nat.zero_le _) (by omega)]
    rw [and_iff_right (by omega)]

/-- Identifiers are in bounds. -/
theorem stringToUint32_bounds (h : stringToUint32 label = some n) :
  1 ≤ n ∧ n ≤ 2238976116
  := by
  obtain ⟨⟨hpos, hle⟩, ds, hlabel, rfl⟩ := stringToUint32_eq_some_iff.mp h
  obtain ⟨hlow, hhigh⟩ := Numeral.value_bounds ds hlabel.digits_lt
  rw [← List.Forall₂.length_eq hlabel] at hlow hhigh
  constructor
  · apply Nat.le_trans _ hlow
    apply Numeral.ones_mono (b := 36) (k := 1) (by decide) hpos
  · apply Nat.le_trans hhigh (ones_le hle)

/-! ### Decoding -/

/-- The loop writes the digits of a number before what it has written, if it has room. -/
theorem labelLoop_eq_ok {idx : Nat} (hn : n ≤ 36 * Numeral.ones 36 idx) (buf : Bytes)
    (hbuf : idx ≤ buf.length) :
  ∃ ds, labelLoop idx n buf = .ok (ds.map digitLabel ++ buf.drop idx)
    ∧ Numeral.value 36 0 ds = n ∧ (∀ d ∈ ds, d < 36) ∧ ds.length ≤ idx
  := by
  induction idx generalizing n buf with
  | zero =>
      obtain rfl : n = 0 := Nat.le_zero.mp hn
      exact ⟨[], by simp [labelLoop], rfl, by simp, Nat.le_refl _⟩
  | succ idx ih =>
      cases n with
      | zero => exact ⟨[], by simp [labelLoop], rfl, by simp, Nat.zero_le _⟩
      | succ n =>
          have hquot : n / 36 ≤ 36 * Numeral.ones 36 idx := by
            rw [Numeral.ones] at hn
            omega
          obtain ⟨ds, hloop, hvalue, hds, hlength⟩ :=
            ih hquot (buf.set idx (digitLabel (n % 36))) (by rw [List.length_set]; omega)
          refine ⟨ds ++ [n % 36], ?_, ?_, ?_, ?_⟩
          · have hidx : idx < (buf.set idx (digitLabel (n % 36))).length := by
              rw [List.length_set]
              omega
            rw [labelLoop, hloop, List.drop_eq_getElem_cons hidx, List.getElem_set_self,
              List.drop_set_of_lt (Nat.lt_succ_self idx)]
            simp
          · rw [Numeral.value_concat, hvalue]
            omega
          · intro d hd
            rcases List.mem_append.mp hd with hd | hd
            · exact hds d hd
            · rw [List.mem_singleton.mp hd]
              apply Nat.mod_lt _ (by decide)
          · rw [List.length_append, List.length_singleton]
            omega

/-- An identifier in bounds is decoded into the characters for its digits. -/
theorem uint32ToString_eq_ok (hpos : 1 ≤ n) (hle : n ≤ 2238976116) :
  ∃ ds, uint32ToString n = .ok (ds.map digitLabel)
    ∧ Numeral.value 36 0 ds = n ∧ (∀ d ∈ ds, d < 36) ∧ 1 ≤ ds.length ∧ ds.length ≤ 6
  := by
  have hones : n ≤ 36 * Numeral.ones 36 6 := hle
  obtain ⟨ds, hloop, hvalue, hds, hlength⟩ :=
    labelLoop_eq_ok hones (List.replicate 6 0) (by rw [List.length_replicate])
  refine ⟨ds, ?_, hvalue, hds, ?_, hlength⟩
  · rw [uint32ToString, if_neg (by omega), hloop]
    simp
  · cases ds with
    | nil => simp [← hvalue] at hpos
    | cons => simp

/-! ### Labels and identifiers correspond -/

/-- A label has an identifier exactly if it consists of one to six letters and digits.  The
computation of an identifier does not overflow.  The identifiers are the numbers from 1 to
2238976116, and two labels have the same exactly if they are equal in lower case.  An identifier is
decoded into the label in lower case, the label that a number is decoded into has that number as its
identifier, and the buffer for it is long enough. -/
theorem labels_correspond_to_identifiers :
  (∀ label, (∃ n, stringToUint32 label = some n)
      ↔ 1 ≤ label.length ∧ label.length ≤ 6 ∧ ∀ c ∈ label, Alphanumeric c)
    ∧ (∀ first c rest n d, (first ++ c :: rest).length ≤ 6 → labelValue 0 first = some n →
      labelDigit c = some d → n * 36 + d + 1 < 2 ^ 32)
    ∧ (∀ n, (∃ label, stringToUint32 label = some n) ↔ 1 ≤ n ∧ n ≤ 2238976116)
    ∧ (∀ label label' n n', stringToUint32 label = some n → stringToUint32 label' = some n' →
      (n = n' ↔ label.map lowerCase = label'.map lowerCase))
    ∧ (∀ label n, stringToUint32 label = some n → uint32ToString n = .ok (label.map lowerCase))
    ∧ (∀ n, 1 ≤ n → n ≤ 2238976116 →
      ∃ label, uint32ToString n = .ok label ∧ stringToUint32 label = some n)
    ∧ ∀ n, uint32ToString n ≠ .error .outOfRange
  := by
  have hdecode : ∀ label n, stringToUint32 label = some n →
      uint32ToString n = .ok (label.map lowerCase) := by
    intro label n h
    obtain ⟨hpos, hle⟩ := stringToUint32_bounds h
    obtain ⟨ds, hds, hvalue, hlt, -⟩ := uint32ToString_eq_ok hpos hle
    obtain ⟨-, es, hlabel, hvalue'⟩ := stringToUint32_eq_some_iff.mp h
    have heq : ds = es := Numeral.value_injective hlt hlabel.digits_lt (hvalue.trans hvalue'.symm)
    rw [hds, heq, hlabel.map_digitLabel]
  have hencode : ∀ n, 1 ≤ n → n ≤ 2238976116 →
      ∃ label, uint32ToString n = .ok label ∧ stringToUint32 label = some n := by
    intro n hpos hle
    obtain ⟨ds, hds, hvalue, hlt, hlength⟩ := uint32ToString_eq_ok hpos hle
    refine ⟨ds.map digitLabel, hds, stringToUint32_eq_some_iff.mpr ⟨?_, ds, ?_, hvalue⟩⟩
    · rw [List.length_map]
      exact hlength
    · exact spells_map_digitLabel ds hlt
  refine ⟨?_, ?_, ?_, ?_, hdecode, hencode, ?_⟩
  · intro label
    simp only [stringToUint32_eq_some_iff, ← exists_spells_iff]
    constructor
    · rintro ⟨n, hlength, ds, hlabel, -⟩
      exact ⟨hlength.1, hlength.2, ds, hlabel⟩
    · rintro ⟨hpos, hle, ds, hlabel⟩
      exact ⟨_, ⟨hpos, hle⟩, ds, hlabel, rfl⟩
  · intro first c rest n d hlength hn hd
    rw [List.length_append, List.length_cons] at hlength
    obtain ⟨ds, hfirst, rfl⟩ :=
      (labelValue_eq_some_iff (k := 0) (Nat.zero_le _) (by omega)).mp hn
    have hvalue := (Numeral.value_bounds ds hfirst.digits_lt).2
    have hle := next_le hvalue (labelDigit_lt hd)
    have hbound := ones_le (k := ds.length + 1) (by rw [← List.Forall₂.length_eq hfirst]; omega)
    omega
  · intro n
    constructor
    · rintro ⟨label, h⟩
      exact stringToUint32_bounds h
    · rintro ⟨hpos, hle⟩
      obtain ⟨label, -, h⟩ := hencode n hpos hle
      exact ⟨label, h⟩
  · intro label label' n n' h h'
    have hn := hdecode label n h
    have hn' := hdecode label' n' h'
    constructor
    · rintro rfl
      exact Except.ok.inj (hn.symm.trans hn')
    · intro hlower
      obtain ⟨-, ds, hlabel, rfl⟩ := stringToUint32_eq_some_iff.mp h
      obtain ⟨-, ds', hlabel', rfl⟩ := stringToUint32_eq_some_iff.mp h'
      rw [hlabel.eq_of_lowerCase hlabel' hlower]
  · intro n
    by_cases hbad : n = 0 ∨ 2238976116 < n
    · rw [uint32ToString, if_pos hbad]
      simp
    · obtain ⟨label, hlabel, -⟩ := hencode n (by omega) (by omega)
      simp [hlabel]

/-- The label `Web` is decoded as `web`. -/
theorem labels_correspond_to_identifiers_web :
  ∃ n, stringToUint32 [87, 101, 98] = some n ∧ uint32ToString n = .ok [119, 101, 98]
  := by
  obtain ⟨haccepts, -, -, -, hdecode, -⟩ := labels_correspond_to_identifiers
  obtain ⟨n, hn⟩ := (haccepts [87, 101, 98]).mpr (by simp [Alphanumeric])
  exact ⟨n, hn, hdecode _ n hn⟩

end Muxocket
