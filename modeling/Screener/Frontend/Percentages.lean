import Screener.Frontend.FormatRules
import Screener.Frontend.ScreenerFormat

/-!
# Exact percentages

Both percent formatters move the point of a text by two places. `percent` keeps zeros that
it should not keep, and `formatPercent` forgets zeros that it should keep.
-/

namespace Screener.Frontend

open Screener.Lib

/-! ## `percent` -/

/-- What `percent` is for: a canonical numeral of a hundred times the value. -/
def PercentExact (n : Numeral) : Prop :=
  ∃ shown : Numeral, percent (some n.text) = shown.text ++ ['%'] ∧ shown.Canonical ∧
    shown.value = 100 * n.value

theorem allDigits_zero_iff (n : Numeral) : allDigits n = ['0'] ↔ n.value = 0 := by
  rw [Numeral.value_eq_zero_iff, Numeral.magnitude_eq_zero_iff]
  exact trimLeft_zero_iff (n.wholeDigits.append n.fractionDigits)

theorem hundredfold_whole_of_short {n : Numeral} (h : n.fraction.length ≤ 2) :
    (hundredfold n).whole = allDigits n ++ List.replicate (2 - n.fraction.length) '0' := by
  rw [hundredfold, if_pos h]

theorem hundredfold_whole_of_long {n : Numeral} (h : ¬n.fraction.length ≤ 2) :
    (hundredfold n).whole =
      orZero ((allDigits n).take ((allDigits n).length - (n.fraction.length - 2))) := by
  rw [hundredfold, if_neg h]

/-- A whole part that begins with a zero has no other digit, unless zero was filled up. -/
theorem hundredfold_whole_iff (n : Numeral) :
    (∀ rest, (hundredfold n).whole = '0' :: rest → rest = []) ↔
      n.value ≠ 0 ∨ 2 ≤ n.fraction.length := by
  obtain ⟨c, cs, hdigits⟩ := List.exists_cons_of_ne_nil (trimLeft_ne_nil (n.whole ++ n.fraction))
  have hall : allDigits n = c :: cs := hdigits
  by_cases hshort : n.fraction.length ≤ 2
  · rw [hundredfold_whole_of_short hshort]
    constructor
    · intro h
      by_contra hboth
      rw [not_or, not_not] at hboth
      have hzeros := h (List.replicate (2 - n.fraction.length) '0')
        (by rw [(allDigits_zero_iff n).mpr hboth.1]; rfl)
      rw [List.replicate_eq_nil_iff] at hzeros
      omega
    · intro h rest hrest
      rw [hall, List.cons_append, List.cons.injEq] at hrest
      obtain ⟨rfl, rfl⟩ := hrest
      obtain rfl := trimLeft_cons hdigits
      have hlong : 2 ≤ n.fraction.length :=
        h.resolve_left (not_not.mpr ((allDigits_zero_iff n).mp hall))
      rw [Nat.sub_eq_zero_of_le hlong]
      rfl
  · rw [hundredfold_whole_of_long hshort]
    refine iff_of_true ?_ (.inr (by omega))
    intro rest hrest
    unfold orZero at hrest
    split_ifs at hrest with hnil
    · exact (List.cons.inj hrest).2.symm
    · -- What is taken from the digits begins with a zero only if they are one zero.
      have htaken := List.take_prefix ((allDigits n).length - (n.fraction.length - 2)) (allDigits n)
      rw [hrest] at htaken
      obtain ⟨more, hmore⟩ := htaken
      have hnone : rest ++ more = [] := trimLeft_cons hmore.symm
      exact (List.append_eq_nil_iff.mp hnone).1

theorem canonical_trim_iff (n : Numeral) :
    n.trim.Canonical ↔ ∀ rest, n.whole = '0' :: rest → rest = [] :=
  ⟨fun h => h.whole, fun h => ⟨h, getLast?_trimRight n.fraction⟩⟩

theorem percentExact_iff_canonical (n : Numeral) :
    PercentExact n ↔ (hundredfold n).trim.Canonical := by
  have hpercent : percent (some n.text) = (hundredfold n).trim.text ++ ['%'] := by
    rw [percent, decimalTimes100_numeral]
  constructor
  · rintro ⟨shown, htext, hcanonical, -⟩
    rw [hpercent, List.append_cancel_right_eq] at htext
    exact text_injective htext ▸ hcanonical
  · intro h
    refine ⟨(hundredfold n).trim, hpercent, h, ?_⟩
    rw [Numeral.trim_value, hundredfold_value]

/-- `percent` is exact exactly if the value is not zero, or has two decimals at least. -/
theorem percent_exact_iff (n : Numeral) :
    PercentExact n ↔ n.value ≠ 0 ∨ 2 ≤ n.fraction.length := by
  rw [percentExact_iff_canonical, canonical_trim_iff, hundredfold_whole_iff]

/-- `0`. -/
def zero : Numeral where
  negative := false
  whole := ['0']
  fraction := []
  nonempty := by decide
  wholeDigits := isDigits_zeros 1
  fractionDigits := isDigits_zeros 0

/-- Zero is shown with two more zeros. -/
theorem percent_of_zero : percent (some "0".toList) = "000%".toList ∧ zero.text = "0".toList ∧
    ¬PercentExact zero := by
  refine ⟨by decide +kernel, by decide, ?_⟩
  rw [percentExact_iff_canonical]
  intro hcanonical
  have hwhole : (hundredfold zero).trim.whole = ['0', '0', '0'] := by decide +kernel
  cases hcanonical.whole _ hwhole

/-! ## The zeros that `formatPercent` leaves out -/

theorem endsAt_digits {before : Text} (h : IsDigits before) :
    pointDigits.endsAt before = false := by
  rw [Pattern.endsAt, List.any_eq_false]
  intro text htext
  cases text with
  | nil => simp [pointDigits, Pattern.run]
  | cons c cs =>
    have hdigit : c.isDigit = true :=
      h c (((List.mem_tails _ _).mp htext).subset List.mem_cons_self)
    have hpoint : c ≠ '.' := fun heq => by simp [heq] at hdigit
    simp [pointDigits, Pattern.run, isPoint, hpoint]

theorem endsAt_pointed (whole : Text) {passed : Text} (h : IsDigits passed) :
    pointDigits.endsAt (whole ++ '.' :: passed) = true := by
  rw [Pattern.endsAt, List.any_eq_true]
  refine ⟨'.' :: passed, (List.mem_tails _ _).mpr (List.suffix_append _ _), ?_⟩
  have hdigits : passed.all Char.isDigit = true := List.all_eq_true.mpr h
  have hmany := Pattern.greedy_finish Char.isDigit none some passed
  rw [if_pos hdigits] at hmany
  have hrun : (Pattern.seq pointDigits .finish).run some ⟨true, '.' :: passed, none⟩ =
      some ⟨true, [], none⟩ := hmany
  rw [hrun]
  rfl

/-- Nothing matches in the whole part. -/
theorem percentZeros_digit {before : Text} (h : IsDigits before) {c : Char} (hc : c.isDigit = true)
    (after : Text) : percentZeros before (c :: after) = none := by
  have hpoint : c ≠ '.' := fun heq => by simp [heq] at hc
  simp [percentZeros, fractionZeros, endsAt_digits h, pointZeros, Pattern.matchLength, Pattern.run,
    isPoint, hpoint]

/-- At the point: a fraction of zeros goes with it. -/
theorem percentZeros_point (before ds : Text) [Decidable (ds ≠ [] ∧ ∀ d ∈ ds, isZero d = true)] :
    percentZeros before ('.' :: ds) =
      if ds ≠ [] ∧ ∀ d ∈ ds, isZero d = true then some (ds.length + 1) else none := by
  have hpoint : pointZeros.matchLength before ('.' :: ds) =
      if ds ≠ [] ∧ ∀ d ∈ ds, isZero d = true then some (ds.length + 1) else none := by
    have hrun := Pattern.run_plus_finish isZero none true some ds
    have hmatch : pointZeros.run some ⟨!before.isEmpty, '.' :: ds, none⟩ = _ := hrun
    rw [Pattern.matchLength, hmatch]
    split_ifs
    · rfl
    · rfl
  have hnot : fractionZeros before ('.' :: ds) = none := by
    rw [fractionZeros, Pattern.matchLength_plus_finish]
    simp [isZero]
  rw [percentZeros, hpoint, hnot, Option.or_none]

/-- Behind the point: zeros up to the end match. -/
theorem percentZeros_fraction (whole : Text) {passed : Text} (h : IsDigits passed) {c : Char}
    (hc : c.isDigit = true) (after : Text) [Decidable (∀ d ∈ c :: after, isZero d = true)] :
    percentZeros (whole ++ '.' :: passed) (c :: after) =
      if ∀ d ∈ c :: after, isZero d = true then some (after.length + 1) else none := by
  have hpoint : c ≠ '.' := fun heq => by simp [heq] at hc
  have hnot : pointZeros.matchLength (whole ++ '.' :: passed) (c :: after) = none := by
    simp [pointZeros, Pattern.matchLength, Pattern.run, isPoint, hpoint]
  rw [percentZeros, hnot, Option.none_or, fractionZeros, if_pos (endsAt_pointed whole h),
    Pattern.matchLength_plus_finish]
  simp

theorem removeAll_fraction (whole : Text) {passed ds : Text} (hpassed : IsDigits passed)
    (h : IsDigits ds) :
    Pattern.removeAll percentZeros (whole ++ '.' :: passed) 0 ds = trimRight ds := by
  induction ds generalizing passed with
  | nil => rfl
  | cons c ds ih =>
    obtain ⟨hc, hds⟩ := List.forall_mem_cons.mp h
    have hmatch := percentZeros_fraction whole hpassed hc ds
    rw [trimRight_cons]
    split_ifs with hall
    · rw [if_pos hall] at hmatch
      exact Pattern.removeAll_of_whole hmatch
    · rw [if_neg hall] at hmatch
      have hnext : IsDigits (passed ++ [c]) :=
        hpassed.append (List.forall_mem_singleton.mpr hc)
      rw [Pattern.removeAll_of_none hmatch, List.append_assoc, List.cons_append, ih hnext hds]

/-- The zeros behind a fraction go, and the point with the last digit. -/
theorem removeAll_numeral {whole ds : Text} (hwhole : IsDigits whole) (h : IsDigits ds) :
    Pattern.removeAll percentZeros [] 0 (whole ++ Numeral.pointed ds) =
      whole ++ Numeral.pointed (trimRight ds) := by
  rw [Pattern.removeAll_append]
  · refine congrArg (whole ++ ·) ?_
    unfold Numeral.pointed
    by_cases hnil : ds = []
    · subst hnil
      rfl
    · rw [if_neg hnil]
      have hmatch := percentZeros_point whole ds
      by_cases hzeros : ∀ d ∈ ds, isZero d = true
      · rw [if_pos ⟨hnil, hzeros⟩] at hmatch
        rw [List.nil_append, Pattern.removeAll_of_whole hmatch,
          if_pos ((trimRight_zeros_iff ds).mpr hzeros)]
      · rw [if_neg fun hboth => hzeros hboth.2] at hmatch
        have hfraction := removeAll_fraction whole (isDigits_zeros 0) h
        rw [List.nil_append, Pattern.removeAll_of_none hmatch,
          if_neg fun htrim => hzeros ((trimRight_zeros_iff ds).mp htrim)]
        exact congrArg ('.' :: ·) hfraction
  · intro pre c post heq
    have hpre : IsDigits pre := fun d hd => hwhole d (heq ▸ List.mem_append_left _ hd)
    have hc : c.isDigit = true := hwhole c (heq ▸ List.mem_append_right _ List.mem_cons_self)
    exact percentZeros_digit hpre hc _

/-! ## `formatPercent` -/

/-- The digits that the point is put into. -/
def combined (n : Numeral) : Text := trimLeft (n.whole ++ padEnd n.fraction 2)

theorem isDigits_padEnd {ds : Text} (h : IsDigits ds) (width : Nat) : IsDigits (padEnd ds width) :=
  h.append (isDigits_zeros _)

theorem combined_ne_nil (n : Numeral) : combined n ≠ [] := trimLeft_ne_nil _

theorem isDigits_combined (n : Numeral) : IsDigits (combined n) :=
  isDigits_trimLeft (n.wholeDigits.append (isDigits_padEnd n.fractionDigits 2))

/-- Where the point is put. -/
def split (n : Numeral) : Nat := (combined n).length - (n.fraction.length - 2)

/-- The point before the last digits; where there are fewer digits than places, before all
of them. -/
def shifted (n : Numeral) : Numeral where
  negative := false
  whole := orZero ((combined n).take (split n))
  fraction := (combined n).drop (split n)
  nonempty := orZero_ne_nil _
  wholeDigits := isDigits_orZero ((isDigits_combined n).sublist (List.take_sublist _ _))
  fractionDigits := (isDigits_combined n).sublist (List.drop_sublist _ _)

theorem shifted_whole (n : Numeral) :
    (shifted n).whole = orZero ((combined n).take (split n)) := rfl

theorem shifted_fraction (n : Numeral) : (shifted n).fraction = (combined n).drop (split n) := rfl

theorem unsigned_shifted (n : Numeral) : (shifted n).unsigned =
    if split n = (combined n).length then combined n
    else orZero ((combined n).take (split n)) ++ '.' :: (combined n).drop (split n) := by
  rw [Numeral.unsigned, shifted_whole, shifted_fraction, Numeral.pointed]
  split_ifs with hnil hall hall
  · rw [hall, List.take_length, orZero, if_neg (combined_ne_nil n), List.append_nil]
  · rw [List.drop_eq_nil_iff] at hnil
    exact absurd (le_antisymm (Nat.sub_le _ _) hnil) hall
  · rw [hall, List.drop_length] at hnil
    exact absurd rfl hnil
  · rfl

theorem formatPercent_numeral {n : Numeral} (h : n.negative = false) :
    formatPercent (some n.text) = (shifted n).trim.text ++ ['%'] := by
  have hsome : n.whole ++ padEnd n.fraction 2 ≠ [] := List.append_ne_nil_of_left_ne_nil n.nonempty _
  have hcombined : leadingZeros.replace (fun _ => []) (n.whole ++ padEnd n.fraction 2) =
      combined n :=
    replace_leadingZeros (n.wholeDigits.append (isDigits_padEnd n.fractionDigits 2)) hsome
  have hresult := unsigned_shifted n
  rw [split] at hresult
  rw [formatPercent, Numeral.text_of_nonneg h, splitPoint_unsigned]
  simp only [hcombined]
  rw [← hresult, Numeral.unsigned,
    removeAll_numeral (shifted n).wholeDigits (shifted n).fractionDigits]
  rfl

theorem digitsValue_combined (n : Numeral) : digitsValue (combined n) =
    digitsValue (n.whole ++ n.fraction) * 10 ^ (2 - n.fraction.length) := by
  rw [combined, digitsValue_trimLeft, padEnd, ← List.append_assoc, digitsValue_append,
    digitsValue_zeros, List.length_replicate, Nat.add_zero]

theorem shifted_magnitude (n : Numeral) : (shifted n).magnitude =
    digitsValue (combined n) / 10 ^ min (n.fraction.length - 2) (combined n).length := by
  have hlength : (shifted n).fraction.length =
      min (n.fraction.length - 2) (combined n).length := by
    rw [shifted_fraction, List.length_drop, split]
    omega
  have hvalue : digitsValue ((shifted n).whole ++ (shifted n).fraction) =
      digitsValue (combined n) := by
    rw [shifted_whole, shifted_fraction, digitsValue_orZero_append, List.take_append_drop]
  rw [Numeral.magnitude, hvalue, hlength]

/-- A hundred times the value has two places less. -/
theorem hundred_magnitude (n : Numeral) :
    100 * n.magnitude = digitsValue (combined n) / 10 ^ (n.fraction.length - 2) := by
  have hpow : (10 : ℚ) ^ n.fraction.length ≠ 0 := by positivity
  have hplaces : (10 : ℚ) ^ (2 - n.fraction.length) * 10 ^ n.fraction.length =
      100 * 10 ^ (n.fraction.length - 2) := by
    rw [← pow_add, show (100 : ℚ) = 10 ^ 2 by norm_num, ← pow_add]
    refine congrArg (10 ^ ·) ?_
    omega
  rw [Numeral.magnitude, digitsValue_combined, Nat.cast_mul, Nat.cast_pow, Nat.cast_ofNat,
    ← mul_div_assoc, div_eq_div_iff hpow (by positivity), mul_assoc (digitsValue _ : ℚ), hplaces]
  ring

/-- There is a digit for every place exactly if the number is large enough. -/
theorem places_le_iff {n : Numeral} (hsome : digitsValue (combined n) ≠ 0) (places : Nat) :
    places ≤ (combined n).length ↔ 10 ^ places ≤ 10 * digitsValue (combined n) := by
  have hdigits := n.wholeDigits.append (isDigits_padEnd n.fractionDigits 2)
  rw [combined, digitsValue_trimLeft] at hsome ⊢
  cases places with
  | zero =>
    refine iff_of_true (Nat.zero_le _) ?_
    omega
  | succ places =>
    rw [le_length_trimLeft_iff hdigits hsome, Nat.pow_succ]
    omega

/-- No place is forgotten exactly if the value is zero or one thousandth at least. -/
theorem shifted_magnitude_iff (n : Numeral) :
    (shifted n).magnitude = 100 * n.magnitude ↔ n.magnitude = 0 ∨ 1 / 1000 ≤ n.magnitude := by
  have hhundred := hundred_magnitude n
  have hpow : (0 : ℚ) < 10 ^ (n.fraction.length - 2) := by positivity
  rw [shifted_magnitude, hhundred]
  by_cases hzero : digitsValue (combined n) = 0
  · rw [hzero, Nat.cast_zero, zero_div] at hhundred
    have hnone : n.magnitude = 0 := by linarith
    simp [hzero, hnone]
  · have hvalue : (0 : ℚ) < digitsValue (combined n) := by exact_mod_cast Nat.pos_of_ne_zero hzero
    have hpositive : n.magnitude ≠ 0 := by
      intro hnone
      rw [hnone, mul_zero, eq_comm, div_eq_zero_iff] at hhundred
      exact hhundred.elim hvalue.ne' hpow.ne'
    have hthousand : 10 * (digitsValue (combined n) : ℚ) =
        1000 * n.magnitude * 10 ^ (n.fraction.length - 2) := by
      rw [show (1000 : ℚ) * n.magnitude = 10 * (100 * n.magnitude) by ring, hhundred, mul_assoc,
        div_mul_cancel₀ _ hpow.ne']
    have hlarge : 1 / 1000 ≤ n.magnitude ↔
        10 ^ (n.fraction.length - 2) ≤ 10 * digitsValue (combined n) := by
      have hcast : 10 ^ (n.fraction.length - 2) ≤ 10 * digitsValue (combined n) ↔
          (10 : ℚ) ^ (n.fraction.length - 2) ≤ 10 * digitsValue (combined n) := by
        exact_mod_cast Iff.rfl
      rw [hcast, hthousand, le_mul_iff_one_le_left hpow, div_le_iff₀ (by norm_num), mul_comm]
    rw [or_iff_right hpositive, hlarge, ← places_le_iff hzero,
      div_eq_div_iff (by positivity) hpow.ne', mul_right_inj' hvalue.ne',
      pow_right_inj₀ (by norm_num) (by norm_num), eq_comm, min_eq_left_iff]

/-- What `formatPercent` is for: a numeral of a hundred times the value, without zeros
behind its fraction. -/
def ScreenerPercentExact (n : Numeral) : Prop :=
  ∃ shown : Numeral, formatPercent (some n.text) = shown.text ++ ['%'] ∧
    shown.fraction.getLast? ≠ some '0' ∧ shown.value = 100 * n.value

theorem screenerPercentExact_iff {n : Numeral} (h : n.negative = false) :
    ScreenerPercentExact n ↔ (shifted n).magnitude = 100 * n.magnitude := by
  have hshifted : (shifted n).trim.value = (shifted n).magnitude := Numeral.trim_value _
  unfold ScreenerPercentExact
  rw [formatPercent_numeral h, Numeral.value_of_nonneg h]
  constructor
  · rintro ⟨shown, htext, -, hshown⟩
    rw [List.append_cancel_right_eq] at htext
    rw [← hshifted, text_injective htext, hshown]
  · intro hexact
    exact ⟨(shifted n).trim, rfl, getLast?_trimRight _, hshifted.trans hexact⟩

/-- `0` followed by a fraction. -/
def zeroPoint (fraction : String) (h : fraction.toList.all Char.isDigit = true) : Numeral :=
  { zero with fraction := fraction.toList, fractionDigits := List.all_eq_true.mp h }

def halfPerMille : Numeral := zeroPoint "0005" (by decide)

/-- Five hundredths of a percent are shown as five tenths. -/
theorem formatPercent_of_halfPerMille : formatPercent (some "0.0005".toList) = "0.5%".toList ∧
    halfPerMille.text = "0.0005".toList ∧ ¬ScreenerPercentExact halfPerMille := by
  refine ⟨by decide +kernel, by decide +kernel, ?_⟩
  rw [screenerPercentExact_iff rfl, shifted_magnitude_iff]
  decide +kernel

/-- `formatPercent` is exact exactly if the value is zero or one thousandth at least. -/
theorem formatPercent_exact_iff (n : Numeral) (h : n.negative = false) :
    ScreenerPercentExact n ↔ n.value = 0 ∨ 1 / 1000 ≤ n.value := by
  rw [screenerPercentExact_iff h, shifted_magnitude_iff, Numeral.value_of_nonneg h]

theorem formatPercent_exact_iff_eighth : ScreenerPercentExact (zeroPoint "00125" (by decide)) :=
  (formatPercent_exact_iff _ rfl).mpr (.inr (by decide +kernel))

end Screener.Frontend
