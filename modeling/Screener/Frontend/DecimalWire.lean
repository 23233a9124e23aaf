import Screener.Frontend.FormatRules
import Screener.Lib.Rounding

/-!
# Decimals from the backend to the page

The backend sends its results, quantized to eight places, as Python's `str` writes them.
Below `0.000001` that is scientific notation, which the formatters do not read.
-/

namespace Screener.Frontend

open Screener.Lib

/-! ## What the backend sends -/

/-- `"%+d" % n`. -/
def signedInteger (n : ℤ) : Text := (if n < 0 then '-' else '+') :: Nat.toDigits 10 n.natAbs

/-- `Decimal.__str__` of a finite decimal. -/
def decimalStr (negative : Bool) (coefficient : Nat) (exponent : ℤ) : Text :=
  let int := Nat.toDigits 10 coefficient
  let leftdigits := exponent + int.length
  let dotplace := if exponent ≤ 0 ∧ -6 < leftdigits then leftdigits else 1
  let mantissa :=
    if dotplace ≤ 0 then '0' :: '.' :: (List.replicate (-dotplace).toNat '0' ++ int)
    else if int.length ≤ dotplace then int ++ List.replicate (dotplace - int.length).toNat '0'
    else int.take dotplace.toNat ++ '.' :: int.drop dotplace.toNat
  let exp := if leftdigits = dotplace then [] else 'E' :: signedInteger (leftdigits - dotplace)
  Numeral.signed negative (mantissa ++ exp)

/-- A decimal of eight places; zero has a sign too. -/
structure WireDecimal where
  negative : Bool
  coefficient : Nat
deriving DecidableEq, Repr

namespace WireDecimal

variable (d : WireDecimal)

def text : Text := decimalStr d.negative d.coefficient (-8)

def magnitude : ℚ := d.coefficient / 10 ^ 8

def value : ℚ := if d.negative then -d.magnitude else d.magnitude

end WireDecimal

/-- Whatever is quantized to eight places is sent as one of them. -/
theorem exists_wireDecimal {q : ℚ} (h : OnGrid 8 q) : ∃ d : WireDecimal, d.value = q := by
  obtain ⟨n, rfl⟩ := h
  refine ⟨⟨decide (n < 0), n.natAbs⟩, ?_⟩
  unfold WireDecimal.value WireDecimal.magnitude
  rcases lt_or_ge n 0 with hneg | hnonneg
  · have habs : (n.natAbs : ℚ) = -n := by
      rw [Nat.cast_natAbs, abs_of_neg hneg, Int.cast_neg]
    simp only [hneg, decide_true, if_true, habs, neg_div, neg_neg]
  · have habs : (n.natAbs : ℚ) = n := by rw [Nat.cast_natAbs, abs_of_nonneg hnonneg]
    simp only [not_lt.mpr hnonneg, decide_false, Bool.false_eq_true, if_false, habs]

/-! ## Plain notation -/

/-- The decimal in plain notation. -/
def WireDecimal.numeral (d : WireDecimal) : Numeral :=
  let int := Nat.toDigits 10 d.coefficient
  { negative := d.negative
    whole := orZero (int.take (int.length - 8))
    fraction := padStart (int.drop (int.length - 8)) 8
    nonempty := orZero_ne_nil _
    wholeDigits := isDigits_orZero ((isDigits_toDigits _).sublist (List.take_sublist _ _))
    fractionDigits := isDigits_padStart ((isDigits_toDigits _).sublist (List.drop_sublist _ _)) 8 }

theorem numeral_magnitude (d : WireDecimal) : d.numeral.magnitude = d.magnitude := by
  have hdrop : ((Nat.toDigits 10 d.coefficient).drop
      ((Nat.toDigits 10 d.coefficient).length - 8)).length ≤ 8 := by
    rw [List.length_drop]
    omega
  unfold Numeral.magnitude WireDecimal.magnitude WireDecimal.numeral
  simp only
  rw [digitsValue_point, length_padStart hdrop, digitsValue_toDigits]

theorem numeral_value (d : WireDecimal) : d.numeral.value = d.value := by
  unfold Numeral.value WireDecimal.value
  rw [numeral_magnitude]
  rfl

/-- From a coefficient of three digits on, no exponent is written. -/
theorem text_plain {d : WireDecimal} (h : 100 ≤ d.coefficient) : d.text = d.numeral.text := by
  have hlength : 2 < (Nat.toDigits 10 d.coefficient).length := by
    by_contra hshort
    have hlt := (Nat.length_toDigits_le_iff (by decide) (by decide)).mp (not_lt.mp hshort)
    omega
  have hdotplace : (-8 : ℤ) ≤ 0 ∧ (-6 : ℤ) < -8 + (Nat.toDigits 10 d.coefficient).length := by omega
  have hpointed : padStart ((Nat.toDigits 10 d.coefficient).drop
      ((Nat.toDigits 10 d.coefficient).length - 8)) 8 ≠ [] := by
    rw [← List.length_pos_iff, length_padStart]
    · decide
    · rw [List.length_drop]
      omega
  unfold WireDecimal.text decimalStr Numeral.text Numeral.unsigned Numeral.pointed
  simp only [if_pos hdotplace, if_true, List.append_nil]
  refine congrArg (Numeral.signed d.negative) ?_
  show _ = orZero _ ++ if padStart _ 8 = [] then [] else '.' :: padStart _ 8
  rw [if_neg hpointed]
  generalize Nat.toDigits 10 d.coefficient = int at hlength
  by_cases hshort : int.length ≤ 8
  · have hzero : int.length - 8 = 0 := by omega
    have hpoint : (-8 : ℤ) + int.length ≤ 0 := by omega
    have hpad : (-(-8 + (int.length : ℤ))).toNat = 8 - int.length := by omega
    rw [if_pos hpoint, hpad, hzero, List.take_zero, List.drop_zero]
    rfl
  · have hpoint : ¬ (-8 : ℤ) + int.length ≤ 0 := by omega
    have hinside : ¬ (int.length : ℤ) ≤ -8 + int.length := by omega
    have htake : (-8 + (int.length : ℤ)).toNat = int.length - 8 := by omega
    have hfull : 8 - (int.drop (int.length - 8)).length = 0 := by
      rw [List.length_drop]
      omega
    have hwhole : int.take (int.length - 8) ≠ [] := by
      rw [← List.length_pos_iff, List.length_take]
      omega
    rw [if_neg hpoint, if_neg hinside, htake, padStart, hfull, orZero, if_neg hwhole]
    rfl

/-! ## The contract -/

/-- The text is a numeral of the value. -/
def Shows (text : Text) (value : ℚ) : Prop := ∃ n : Numeral, n.text = text ∧ n.value = value

/-- What the page shows for one value. -/
structure Truthful (d : WireDecimal) : Prop where
  display : Shows (displayDecimal (some d.text)) d.value
  money : ∃ shown, money (some d.text) = shown ++ [' ', '원'] ∧ Shows shown d.value
  percent : ∃ shown, percent (some d.text) = shown ++ ['%'] ∧ Shows shown (100 * d.value)

/-- Two values are shown as they are and in their order. -/
structure WireContract (d e : WireDecimal) : Prop where
  left : Truthful d
  right : Truthful e
  order : compareDecimal d.text e.text = comparison d.value e.value

theorem abs_value (d : WireDecimal) : |d.value| = d.coefficient / 10 ^ 8 := by
  have hnonneg : 0 ≤ d.magnitude := by
    unfold WireDecimal.magnitude
    positivity
  unfold WireDecimal.value
  split
  · rw [abs_neg, abs_of_nonneg hnonneg]
    rfl
  · rw [abs_of_nonneg hnonneg]
    rfl

theorem plain_iff (d : WireDecimal) : 1 / 10 ^ 6 ≤ |d.value| ↔ 100 ≤ d.coefficient := by
  rw [abs_value, div_le_div_iff₀ (by positivity) (by positivity)]
  constructor
  · intro h
    have hcast : (100 : ℚ) ≤ d.coefficient := by linarith
    exact_mod_cast hcast
  · intro h
    have hcast : (100 : ℚ) ≤ d.coefficient := by exact_mod_cast h
    linarith

theorem truthful_of_plain {d : WireDecimal} (h : 100 ≤ d.coefficient) : Truthful d := by
  have htext := text_plain h
  have hdisplay : Shows (displayDecimal (some d.text)) d.value := by
    refine ⟨d.numeral.trim, ?_, ?_⟩
    · rw [htext]
      exact (strip_numeral _).symm
    · rw [Numeral.trim_value, numeral_value]
  refine ⟨hdisplay, ⟨_, rfl, hdisplay⟩, ⟨_, rfl, (hundredfold d.numeral).trim, ?_, ?_⟩⟩
  · rw [htext, decimalTimes100_numeral]
  · rw [Numeral.trim_value, hundredfold_value, numeral_value]

/-- Below, the exponent is shown. -/
theorem exponent_shown : ∀ coefficient < 100, ∀ negative : Bool,
    'E' ∈ displayDecimal (some (WireDecimal.text ⟨negative, coefficient⟩)) := by
  decide +kernel

theorem not_truthful_of_small {d : WireDecimal} (h : d.coefficient < 100) : ¬ Truthful d := by
  intro htruthful
  obtain ⟨n, htext, -⟩ := htruthful.display
  have hexponent := exponent_shown d.coefficient h d.negative
  rw [← htext] at hexponent
  rcases Numeral.mem_text hexponent with hsign | hpoint | hdigit
  · cases hsign
  · cases hpoint
  · cases hdigit

/-- **The wire contract.** Two values are shown as they are and in their order exactly if
neither is smaller than `0.000001`. -/
theorem wire_contract_iff (d e : WireDecimal) :
    WireContract d e ↔ 1 / 10 ^ 6 ≤ |d.value| ∧ 1 / 10 ^ 6 ≤ |e.value| := by
  rw [plain_iff, plain_iff]
  constructor
  · intro hcontract
    constructor
    · by_contra hsmall
      exact not_truthful_of_small (not_le.mp hsmall) hcontract.left
    · by_contra hsmall
      exact not_truthful_of_small (not_le.mp hsmall) hcontract.right
  · rintro ⟨hd, he⟩
    refine ⟨truthful_of_plain hd, truthful_of_plain he, ?_⟩
    have hnonzero : d.numeral.magnitude ≠ 0 := by
      have hpositive : (0 : ℚ) <
          d.coefficient := by exact_mod_cast (show 0 < d.coefficient by omega)
      rw [numeral_magnitude, WireDecimal.magnitude]
      positivity
    rw [text_plain hd, text_plain he, compare_numeral (.inr (.inl hnonzero)), numeral_value,
      numeral_value]

/-- A quantized zero is shown as `0E-8`, as a rate it is `0E-800%`, and it is above five. -/
theorem zero_breaks_contract :
    displayDecimal (some (WireDecimal.text ⟨false, 0⟩)) = "0E-8".toList ∧
      percent (some (WireDecimal.text ⟨false, 0⟩)) = "0E-800%".toList ∧
      compareDecimal (WireDecimal.text ⟨false, 0⟩) (WireDecimal.text ⟨false, 500000000⟩) = 1 ∧
      ¬ WireContract ⟨false, 0⟩ ⟨false, 500000000⟩ := by
  refine ⟨by decide +kernel, by decide +kernel, by decide +kernel, fun hcontract => ?_⟩
  exact not_truthful_of_small (by decide) hcontract.left

end Screener.Frontend
