import Mathlib.Data.Char
import Mathlib.Data.List.Lex
import Screener.Frontend.FormatRules
import Screener.Frontend.ScreenerFormat

/-!
# The order of decimals

Both comparators order plain decimals as their values, except that `compareDecimal` puts
a negative zero below a zero.
-/

namespace Screener.Frontend

open Screener.Lib

/-! ## `compareDecimal` -/

theorem sign_comparison (a b : ℚ) : (comparison a b).sign = comparison a b := by
  unfold comparison
  split_ifs
  · rfl
  · rfl
  · rfl

theorem comparison_self (a : ℚ) : comparison a a = 0 := by simp [comparison]

/-- Zeros of two signs are told apart. -/
theorem compare_zeros {n m : Numeral} (hn : n.value = 0) (hm : m.value = 0)
    (hsign : n.negative ≠ m.negative) :
    (compareDecimal n.text m.text).sign ≠ comparison n.value m.value := by
  rw [hn, hm, comparison_self, compareDecimal]
  simp only [normalize_numeral]
  rw [if_pos hsign]
  split
  · decide
  · decide

theorem compareDecimal_iff (n m : Numeral) :
    (compareDecimal n.text m.text).sign = comparison n.value m.value ↔
      (n.value = 0 → m.value = 0 → n.negative = m.negative) := by
  constructor
  · intro h hn hm
    by_contra hsign
    exact compare_zeros hn hm hsign h
  · intro h
    have hcases : n.negative = m.negative ∨ n.magnitude ≠ 0 ∨ m.magnitude ≠ 0 := by
      simp only [ne_eq, ← Numeral.value_eq_zero_iff]
      by_cases hn : n.value = 0
      · by_cases hm : m.value = 0
        · exact .inl (h hn hm)
        · exact .inr (.inr hm)
      · exact .inr (.inl hn)
    rw [compare_numeral hcases, sign_comparison]

/-! ## `compareDecimalStrings` -/

theorem digits_numeral {n : Numeral} (h : n.negative = false) :
    digits n.text = (trimLeft n.whole, trimRight n.fraction) := by
  rw [digits, Numeral.text_of_nonneg h, splitPoint_unsigned]
  simp only [replace_leadingZeros n.wholeDigits n.nonempty, Pattern.replace_plus_finish]
  rfl

/-- Texts of one length decide before what follows them. -/
theorem localeCompare_append {a b : Text} (h : a.length = b.length) (x y : Text) :
    localeCompare (a ++ x) (b ++ y) =
      if localeCompare a b ≠ 0 then localeCompare a b else localeCompare x y := by
  induction a generalizing b with
  | nil =>
    rw [List.length_eq_zero_iff.mp h.symm]
    simp [localeCompare]
  | cons c a ih =>
    cases b with
    | nil => cases h
    | cons d b =>
      have hrest := ih (Nat.succ.inj h)
      rcases lt_trichotomy c d with hlt | rfl | hgt
      · have hfirst : ∀ u v : Text, localeCompare (c :: u) (d :: v) = -1 := fun u v => by
          simp [localeCompare, List.cons_lt_cons_iff, hlt]
        simp [hfirst]
      · have hsame : ∀ u v : Text, localeCompare (c :: u) (c :: v) = localeCompare u v :=
          fun u v => by simp [localeCompare]
        simp only [List.cons_append, hsame, hrest]
      · have hfirst : ∀ u v : Text, localeCompare (c :: u) (d :: v) = 1 := fun u v => by
          simp [localeCompare, List.cons_lt_cons_iff, hgt, hgt.asymm, hgt.ne']
        simp [hfirst]

theorem localeCompare_eq (a b : Text) :
    localeCompare a b = if a = b then 0 else if b < a then 1 else -1 := by
  rw [localeCompare]
  rcases lt_trichotomy a b with hlt | rfl | hgt
  · rw [if_pos hlt, if_neg hlt.ne, if_neg hlt.asymm]
  · simp
  · rw [if_neg hgt.asymm, if_pos hgt, if_neg hgt.ne', if_pos hgt]

/-- Numerals with whole parts of one length are compared by their digits. -/
theorem localeCompare_digits {n m : Numeral} (hn : n.negative = false) (hm : m.negative = false)
    (hlength : (trimLeft n.whole).length = (trimLeft m.whole).length) {width : Nat}
    (hwn : (trimRight n.fraction).length ≤ width) (hwm : (trimRight m.fraction).length ≤ width) :
    localeCompare (trimLeft n.whole ++ padEnd (trimRight n.fraction) width)
      (trimLeft m.whole ++ padEnd (trimRight m.fraction) width) = comparison n.value m.value := by
  have hdigits := compare_digits hwn hwm hlength 1
  rw [one_mul, normalize_numeral, normalize_numeral] at hdigits
  rw [Numeral.value_of_nonneg hn, Numeral.value_of_nonneg hm, ← hdigits, localeCompare_eq]
  rfl

theorem compareDecimalStrings_order {n m : Numeral} (hn : n.negative = false)
    (hm : m.negative = false) :
    (compareDecimalStrings n.text m.text).sign = comparison n.value m.value := by
  rw [compareDecimalStrings, digits_numeral hn, digits_numeral hm]
  simp only
  by_cases hlength : (trimLeft n.whole).length = (trimLeft m.whole).length
  · rw [if_neg (not_not.mpr hlength), ← localeCompare_append hlength,
      localeCompare_digits hn hm hlength (le_max_left _ _) (le_max_right _ _), sign_comparison]
  · rw [if_pos hlength, Numeral.value_of_nonneg hn, Numeral.value_of_nonneg hm, comparison]
    rcases lt_or_gt_of_ne hlength with hlt | hgt
    · rw [if_pos (magnitude_lt_of_length hlt)]
      exact Int.sign_eq_neg_one_of_neg (by omega)
    · have hless := magnitude_lt_of_length hgt
      rw [if_neg hless.asymm, if_pos hless]
      exact Int.sign_eq_one_of_pos (by omega)

/-! ## Both -/

/-- The comparators have the sign of the comparison of the values. -/
structure ComparesValues (n m : Numeral) : Prop where
  backtests : (compareDecimal n.text m.text).sign = comparison n.value m.value
  screener : n.negative = false → m.negative = false →
    (compareDecimalStrings n.text m.text).sign = comparison n.value m.value

/-- A negative zero is a zero with a sign. -/
theorem negative_zero_below : compareDecimal "-0".toList "0".toList = -1 ∧
    ∃ n m : Numeral, n.text = "-0".toList ∧ m.text = "0".toList ∧ n.value = m.value ∧
      ¬ComparesValues n m := by
  refine ⟨by decide +kernel, ⟨true, ['0'], [], by decide, isDigits_zeros 1, isDigits_zeros 0⟩,
    ⟨false, ['0'], [], by decide, isDigits_zeros 1, isDigits_zeros 0⟩, by decide, by decide,
    by decide +kernel, fun h => ?_⟩
  exact compare_zeros (by decide +kernel) (by decide +kernel) (by decide) h.backtests

/-- The comparators have the order of the values, apart from zeros of two signs. -/
theorem comparesValues_iff (n m : Numeral) :
    ComparesValues n m ↔ (n.value = 0 → m.value = 0 → n.negative = m.negative) := by
  rw [← compareDecimal_iff]
  constructor
  · exact fun h => h.backtests
  · exact fun h => ⟨h, compareDecimalStrings_order⟩

end Screener.Frontend
