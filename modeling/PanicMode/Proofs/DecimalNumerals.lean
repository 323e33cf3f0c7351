import Mathlib.Algebra.Group.Int.Defs
import Mathlib.Data.List.Induction
import PanicMode.Report

namespace PanicMode

/-- One or more decimal digits and the number they stand for. Zeros in front change nothing. -/
inductive IsDigits : List Char → Nat → Prop
  | digit {d : Nat} (h : d < 10) : IsDigits [d.digitChar] d
  | place {cs : List Char} {n d : Nat} (front : IsDigits cs n) (h : d < 10) :
      IsDigits (cs ++ [d.digitChar]) (10 * n + d)

/-- A decimal numeral and its value. It has at most one sign. -/
inductive IsNumeral : List Char → Int → Prop
  | unsigned {cs : List Char} {n : Nat} (h : IsDigits cs n) : IsNumeral cs n
  | plus {cs : List Char} {n : Nat} (h : IsDigits cs n) : IsNumeral ('+' :: cs) n
  | minus {cs : List Char} {n : Nat} (h : IsDigits cs n) : IsNumeral ('-' :: cs) (-n)

/-- The numeral that a value is printed as. There is no minus sign before a zero either. -/
structure IsCanonical (cs : List Char) (v : Int) : Prop where
  isNumeral : IsNumeral cs v
  no_plus : '+' ∉ cs
  no_leading_zero : ∀ ds, cs = '0' :: ds ∨ cs = '-' :: '0' :: ds → cs = ['0']

theorem exists_digitChar_eq {c : Char} (h : c.isDigit = true) :
    ∃ d, d < 10 ∧ d.digitChar = c := by
  simp only [Char.isDigit, Bool.and_eq_true, decide_eq_true_eq, ge_iff_le,
    UInt32.le_iff_toNat_le] at h
  change 48 ≤ c.toNat ∧ c.toNat ≤ 57 at h
  refine ⟨c.toNat - 48, by omega, Char.toNat_inj.mp ?_⟩
  rw [Nat.toNat_digitChar_of_lt_ten (by omega)]
  omega

section

variable {cs : List Char} {n : Nat}

theorem isDigits_ofDigitChars (hne : cs ≠ []) (h : ∀ c ∈ cs, c.isDigit = true) :
    IsDigits cs (Nat.ofDigitChars 10 cs 0) := by
  induction cs using List.reverseRecOn with
  | nil => exact absurd rfl hne
  | append_singleton cs c ih =>
    obtain ⟨d, hd, hc⟩ := exists_digitChar_eq (h c (by simp))
    subst hc
    rw [Nat.ofDigitChars_append, Nat.ofDigitChars_cons_digitChar_of_lt_ten hd,
      Nat.ofDigitChars_nil]
    by_cases front : cs = []
    · subst front
      simpa using IsDigits.digit hd
    · exact .place (ih front fun c hc => h c (List.mem_append_left _ hc)) hd

theorem IsDigits.isDigit_of_mem (h : IsDigits cs n) : ∀ c ∈ cs, c.isDigit = true := by
  induction h with
  | digit hd => simpa using hd
  | place _ hd ih =>
    intro c hc
    rcases List.mem_append.mp hc with hc | hc
    · exact ih c hc
    · rw [List.mem_singleton.mp hc, Nat.isDigit_digitChar]
      exact decide_eq_true hd

theorem IsDigits.ne_nil (h : IsDigits cs n) : cs ≠ [] := by
  cases h <;> simp

theorem IsDigits.ofDigitChars_eq (h : IsDigits cs n) : Nat.ofDigitChars 10 cs 0 = n := by
  induction h with
  | digit hd => simp [Nat.ofDigitChars_cons_digitChar_of_lt_ten hd]
  | place _ hd ih =>
    rw [Nat.ofDigitChars_append, Nat.ofDigitChars_cons_digitChar_of_lt_ten hd,
      Nat.ofDigitChars_nil, ih]

theorem digitsValue?_eq_some_iff : digitsValue? cs = some n ↔ IsDigits cs n := by
  refine ⟨fun h => ?_, fun h => ?_⟩
  · unfold digitsValue? at h
    split at h
    next digits =>
      simp only [Bool.and_eq_true, Bool.not_eq_true', List.isEmpty_eq_false_iff,
        List.all_eq_true] at digits
      cases Option.some.inj h
      exact isDigits_ofDigitChars digits.1 digits.2
    next => cases h
  · have digits : (!cs.isEmpty && cs.all Char.isDigit) = true := by
      simpa [h.ne_nil] using h.isDigit_of_mem
    rw [digitsValue?, if_pos digits, h.ofDigitChars_eq]

end

/-- Digits are no sign. -/
theorem IsDigits.not_sign {c : Char} {cs : List Char} {n : Nat} (h : IsDigits (c :: cs) n) :
    c ≠ '+' ∧ c ≠ '-' := by
  have digit := h.isDigit_of_mem c (by simp)
  refine ⟨fun same => ?_, fun same => ?_⟩
  · simp [same] at digit
  · simp [same] at digit

theorem numeralValue?_of_isDigits {cs : List Char} {n : Nat} (h : IsDigits cs n) :
    numeralValue? cs = some (n : Int) := by
  unfold numeralValue?
  split
  next => exact absurd rfl h.not_sign.1
  next => exact absurd rfl h.not_sign.2
  next =>
    rw [digitsValue?_eq_some_iff.mpr h]
    rfl

theorem numeralValue?_eq_some_iff {cs : List Char} {v : Int} :
    numeralValue? cs = some v ↔ IsNumeral cs v := by
  refine ⟨fun h => ?_, fun h => ?_⟩
  · unfold numeralValue? at h
    split at h
    all_goals
      obtain ⟨m, hm, hv⟩ := Option.map_eq_some_iff.mp h
      obtain ⟨n, hn, cast⟩ := Option.bind_eq_some_iff.mp hm
      have digits := digitsValue?_eq_some_iff.mp hn
      cases Option.some.inj cast
      subst hv
    · exact .plus digits
    · exact .minus digits
    · exact .unsigned digits
  · cases h with
    | unsigned digits => exact numeralValue?_of_isDigits digits
    | plus digits =>
      rw [numeralValue?, digitsValue?_eq_some_iff.mpr digits]
      rfl
    | minus digits =>
      rw [numeralValue?, digitsValue?_eq_some_iff.mpr digits]
      rfl

/-- The reader takes exactly the numerals whose value fits in 64 bits. -/
theorem readInt64?_eq_some_iff {text : String} {v : Int} :
    readInt64? text = some v ↔ IsNumeral text.toList v ∧ -2 ^ 63 ≤ v ∧ v < 2 ^ 63 := by
  rw [readInt64?, Option.filter_eq_some_iff, numeralValue?_eq_some_iff]
  refine and_congr_right fun _ => ?_
  simp only [fitsInt64, Bool.and_eq_true, decide_eq_true_eq]
  omega

theorem isDigits_toDigits (n : Nat) : IsDigits (Nat.toDigits 10 n) n := by
  have digits := isDigits_ofDigitChars (Nat.toDigits_ne_nil (n := n) (b := 10))
    (fun c hc => Nat.isDigit_of_mem_toDigits (by decide) (by decide) hc)
  rwa [Nat.ofDigitChars_ten_toDigits] at digits

theorem toDigits_no_leading_zero {n : Nat} {ds : List Char}
    (h : Nat.toDigits 10 n = '0' :: ds) : n = 0 := by
  induction n using Nat.strongRecOn generalizing ds with
  | ind n ih =>
    by_cases small : n < 10
    · rw [Nat.toDigits_of_lt_base small] at h
      simpa using (List.cons.inj h).1
    · rw [Nat.toDigits_of_base_le (by decide) (by omega)] at h
      rcases List.append_eq_cons_iff.mp h with ⟨empty, _⟩ | ⟨front, hfront, _⟩
      · exact absurd empty Nat.toDigits_ne_nil
      · have := ih (n / 10) (by omega) hfront
        omega

theorem isCanonical_toDigits (n : Nat) : IsCanonical (Nat.toDigits 10 n) n where
  isNumeral := .unsigned (isDigits_toDigits n)
  no_plus h := by
    have digit := (isDigits_toDigits n).isDigit_of_mem _ h
    simp at digit
  no_leading_zero ds h := by
    rcases h with zero | signed
    · rw [toDigits_no_leading_zero zero, Nat.toDigits_zero]
    · have digits := isDigits_toDigits n
      rw [signed] at digits
      exact absurd rfl digits.not_sign.2

theorem isCanonical_minus_toDigits {n : Nat} (hn : n ≠ 0) :
    IsCanonical ('-' :: Nat.toDigits 10 n) (-n) where
  isNumeral := .minus (isDigits_toDigits n)
  no_plus h := by
    have plus : '+' ∈ Nat.toDigits 10 n := by simpa using h
    have digit := (isDigits_toDigits n).isDigit_of_mem _ plus
    simp at digit
  no_leading_zero ds h := by
    rcases h with zero | signed
    · simp at zero
    · exact absurd (toDigits_no_leading_zero (List.cons.inj signed).2) hn

theorem isCanonical_toString (v : Int) : IsCanonical (toString v).toList v := by
  rw [Int.toString_eq_repr, Int.repr_eq_if]
  split
  next nonneg =>
    have canonical := isCanonical_toDigits v.toNat
    rwa [← Nat.toList_repr, Int.toNat_of_nonneg nonneg] at canonical
  next negative =>
    have canonical := isCanonical_minus_toDigits (n := (-v).toNat) (by omega)
    rw [← Nat.toList_repr, Int.toNat_of_nonneg (by omega), Int.neg_neg] at canonical
    rwa [String.toList_append]

end PanicMode
