import Mathlib.Data.Int.Log
import Screener.Lib.Rounding

/-!
# Rounding to significant digits

A positive number lies in one decade, from `10 ^ k` up to `10 ^ (k + 1)`, and the decade
says how many places its digits take. Rounding is then the rounding to these places: it
stays within the decade, so it is monotone across decades as well.
-/

namespace Screener.Lib

/-- `q` to `digits` significant digits, ties to the even neighbour. -/
def roundSignificant (digits : Nat) (q : ℚ) : ℚ :=
  let places : ℤ := digits - 1 - Int.log 10 |q|
  roundHalfEven (q * 10 ^ places) / 10 ^ places

section Significant

variable {digits : Nat} {q : ℚ}

theorem roundSignificant_zero (digits : Nat) : roundSignificant digits 0 = 0 := by
  have hzero : roundHalfEven 0 = 0 := by exact_mod_cast roundHalfEven_intCast 0
  rw [roundSignificant, zero_mul, hzero, Int.cast_zero, zero_div]

/-- A rounding does not leave its decade. -/
theorem roundSignificant_decade (hdigits : 0 < digits) (hq : 0 < q) :
    (10 : ℚ) ^ Int.log 10 q ≤ roundSignificant digits q ∧
      roundSignificant digits q ≤ 10 ^ (Int.log 10 q + 1) := by
  have hten : (10 : ℚ) ≠ 0 := by norm_num
  have hlow : (10 : ℚ) ^ Int.log 10 q ≤ q := by
    exact_mod_cast Int.zpow_log_le_self (b := 10) (by norm_num) hq
  have hhigh : q ≤ (10 : ℚ) ^ (Int.log 10 q + 1) := by
    exact_mod_cast (Int.lt_zpow_succ_log_self (b := 10) (by norm_num) q).le
  rw [roundSignificant, abs_of_pos hq]
  generalize Int.log 10 q = k at hlow hhigh
  have hscale : (0 : ℚ) < 10 ^ ((digits : ℤ) - 1 - k) := zpow_pos (by norm_num) _
  -- The ends of the decade are integers at its own scale.
  have hends : ∀ n : Nat, ((10 ^ n : ℤ) : ℚ) = 10 ^ ((n : ℤ) - digits + 1 + k) *
      10 ^ ((digits : ℤ) - 1 - k) := by
    intro n
    rw [← zpow_add₀ hten]
    have hsum : (n : ℤ) - digits + 1 + k + (digits - 1 - k) = n := by ring
    rw [hsum, zpow_natCast]
    push_cast
    rfl
  have hfirst : (10 : ℚ) ^ k * 10 ^ ((digits : ℤ) - 1 - k) = ((10 ^ (digits - 1) : ℤ) : ℚ) := by
    rw [hends]
    congr 2
    omega
  have hlast : (10 : ℚ) ^ (k + 1) * 10 ^ ((digits : ℤ) - 1 - k) = ((10 ^ digits : ℤ) : ℚ) := by
    rw [hends]
    congr 2
    omega
  constructor
  · rw [le_div_iff₀ hscale, hfirst]
    have h := roundHalfEven_mono (hfirst ▸ mul_le_mul_of_nonneg_right hlow hscale.le)
    rw [roundHalfEven_intCast] at h
    exact_mod_cast h
  · rw [div_le_iff₀ hscale, hlast]
    have h := roundHalfEven_mono (hlast ▸ mul_le_mul_of_nonneg_right hhigh hscale.le)
    rw [roundHalfEven_intCast] at h
    exact_mod_cast h

theorem roundSignificant_pos (hdigits : 0 < digits) (hq : 0 < q) : 0 < roundSignificant digits q :=
  (zpow_pos (by norm_num) _).trans_le (roundSignificant_decade hdigits hq).1

theorem roundSignificant_monotoneOn (hdigits : 0 < digits) :
    MonotoneOn (roundSignificant digits) (Set.Ici 0) := by
  intro a ha b _ hab
  rcases (Set.mem_Ici.mp ha).eq_or_lt with rfl | hpos
  · rw [roundSignificant_zero]
    rcases hab.eq_or_lt with rfl | hb
    · rw [roundSignificant_zero]
    · exact (roundSignificant_pos hdigits hb).le
  · have hb := hpos.trans_le hab
    rcases (Int.log_mono_right (b := 10) hpos hab).eq_or_lt with hsame | hlater
    · simp only [roundSignificant, abs_of_pos hpos, abs_of_pos hb, hsame]
      have hscale : (0 : ℚ) < 10 ^ ((digits : ℤ) - 1 - Int.log 10 b) := zpow_pos (by norm_num) _
      have h := roundHalfEven_mono (mul_le_mul_of_nonneg_right hab hscale.le)
      exact div_le_div_of_nonneg_right (by exact_mod_cast h) hscale.le
    · calc roundSignificant digits a
          ≤ 10 ^ (Int.log 10 a + 1) := (roundSignificant_decade hdigits hpos).2
        _ ≤ 10 ^ Int.log 10 b := zpow_le_zpow_right₀ (by norm_num) (by omega)
        _ ≤ roundSignificant digits b := (roundSignificant_decade hdigits hb).1

/-- What needs no more digits is kept. -/
theorem roundSignificant_of_onGrid {places whole : Nat} (h : OnGrid places q)
    (hq : |q| < 10 ^ whole) (hdigits : places + whole ≤ digits) :
    roundSignificant digits q = q := by
  by_cases hzero : q = 0
  · rw [hzero, roundSignificant_zero]
  obtain ⟨n, hn⟩ := h
  have hlog : Int.log 10 |q| < whole := by
    rw [← Int.lt_zpow_iff_log_lt (by norm_num) (abs_pos.mpr hzero)]
    exact_mod_cast hq
  obtain ⟨extra, hextra⟩ : ∃ extra : Nat, (digits : ℤ) - 1 - Int.log 10 |q| = places + extra :=
    ⟨((digits : ℤ) - 1 - Int.log 10 |q| - places).toNat, by omega⟩
  have hten : (10 : ℚ) ≠ 0 := by norm_num
  have hplaces : (10 : ℚ) ^ places ≠ 0 := by positivity
  have hscaled : q * 10 ^ ((places : ℤ) + extra) = ((n * 10 ^ extra : ℤ) : ℚ) := by
    rw [zpow_add₀ hten, zpow_natCast, zpow_natCast, ← mul_assoc, hn, div_mul_cancel₀ _ hplaces]
    push_cast
    rfl
  rw [roundSignificant, hextra, hscaled, roundHalfEven_intCast, ← hscaled]
  exact mul_div_cancel_right₀ _ (zpow_ne_zero _ hten)

theorem roundSignificant_neg (digits : Nat) (q : ℚ) :
    roundSignificant digits (-q) = -roundSignificant digits q := by
  simp only [roundSignificant, abs_neg, neg_mul, roundHalfEven_neg, Int.cast_neg, neg_div]

theorem abs_roundSignificant (hdigits : 0 < digits) (q : ℚ) :
    |roundSignificant digits q| = roundSignificant digits |q| := by
  rcases lt_trichotomy q 0 with hq | rfl | hq
  · have hpos := roundSignificant_pos hdigits (neg_pos.mpr hq)
    rw [roundSignificant_neg] at hpos
    rw [abs_of_neg hq, roundSignificant_neg, abs_of_neg (neg_pos.mp hpos)]
  · rw [abs_zero, roundSignificant_zero, abs_zero]
  · rw [abs_of_pos hq, abs_of_pos (roundSignificant_pos hdigits hq)]

theorem roundSignificant_zpow (hdigits : 0 < digits) (k : ℤ) :
    roundSignificant digits ((10 : ℚ) ^ k) = 10 ^ k := by
  have hten : (10 : ℚ) ≠ 0 := by norm_num
  have hlog : Int.log 10 ((10 : ℚ) ^ k) = k := by
    exact_mod_cast Int.log_zpow (R := ℚ) (b := 10) (by norm_num) k
  have hscaled : (10 : ℚ) ^ k * 10 ^ ((digits : ℤ) - 1 - k) = ((10 ^ (digits - 1) : ℤ) : ℚ) := by
    have hsum : k + ((digits : ℤ) - 1 - k) = ((digits - 1 : Nat) : ℤ) := by omega
    rw [← zpow_add₀ hten, hsum, zpow_natCast]
    push_cast
    rfl
  rw [roundSignificant, abs_of_pos (zpow_pos (by norm_num) k), hlog, hscaled, roundHalfEven_intCast,
    ← hscaled]
  exact mul_div_cancel_right₀ _ (zpow_ne_zero _ hten)

/-- A rounding in the decade that ends in `10 ^ whole` is one to the places it leaves. -/
theorem roundSignificant_of_decade {places whole : Nat} (hdigits : places + whole = digits)
    (hlow : (10 : ℚ) ^ ((whole : ℤ) - 1) ≤ q) (hhigh : q < 10 ^ whole) :
    roundSignificant digits q = quantizeWith roundHalfEven places q := by
  have hpos : 0 < q := (zpow_pos (by norm_num) _).trans_le hlow
  have hlog : Int.log 10 q = whole - 1 := by
    refine le_antisymm ?_ ?_
    · have h := (Int.lt_zpow_iff_log_lt (b := 10) (by norm_num) hpos).mp
        (show q < ((10 : Nat) : ℚ) ^ (whole : ℤ) by exact_mod_cast hhigh)
      omega
    · exact (Int.zpow_le_iff_le_log (b := 10) (by norm_num) hpos).mp (by exact_mod_cast hlow)
  have hplaces : (digits : ℤ) - 1 - Int.log 10 |q| = places := by
    rw [abs_of_pos hpos, hlog]
    omega
  rw [roundSignificant, hplaces, zpow_natCast, quantizeWith]

/-- Below an even bound of the last decade, rounding stays below it exactly with half a unit
to spare. -/
theorem abs_roundSignificant_lt_iff {places whole : Nat} (hdigits : places + whole = digits)
    (hwhole : 0 < digits) {n : ℤ} (heven : n % 2 = 0) (hlow : 10 ^ (digits - 1) < n)
    (hhigh : n ≤ 10 ^ digits) :
    |roundSignificant digits q| < n / 10 ^ places ↔ |q| < (n - 1 / 2) / 10 ^ places := by
  rw [abs_roundSignificant hwhole]
  have hscale : (0 : ℚ) < 10 ^ places := by positivity
  have hten : (10 : ℚ) ≠ 0 := by norm_num
  generalize hx : |q| = x
  have hnonneg : 0 ≤ x := hx ▸ abs_nonneg q
  -- The bound lies in the decade that ends in `10 ^ whole`.
  have hpow : (10 : ℚ) ^ ((whole : ℤ) - 1) * 10 ^ places = ((10 ^ (digits - 1) : ℤ) : ℚ) := by
    have hsum : (whole : ℤ) - 1 + places = ((digits - 1 : Nat) : ℤ) := by omega
    rw [← zpow_natCast (10 : ℚ) places, ← zpow_add₀ hten, hsum, zpow_natCast]
    push_cast
    rfl
  have hbound : (10 : ℚ) ^ ((whole : ℤ) - 1) ≤ (n - 1 / 2) / 10 ^ places := by
    have hstep : (((10 ^ (digits - 1) : ℤ) : ℚ)) + 1 ≤ n := by exact_mod_cast hlow
    rw [le_div_iff₀ hscale, hpow]
    linarith
  have hless : ((n : ℚ) - 1 / 2) / 10 ^ places < n / 10 ^ places :=
    div_lt_div_of_pos_right (by linarith) hscale
  have htop : (n : ℚ) / 10 ^ places ≤ 10 ^ whole := by
    have hn : (n : ℚ) ≤ ((10 ^ digits : ℤ) : ℚ) := by exact_mod_cast hhigh
    rw [div_le_iff₀ hscale, ← pow_add, add_comm, hdigits]
    push_cast at hn
    exact hn
  rcases lt_or_ge x ((10 : ℚ) ^ ((whole : ℤ) - 1)) with hbelow | habove
  · refine iff_of_true ?_ (hbelow.trans_le hbound)
    refine lt_of_le_of_lt ?_ (hbound.trans_lt hless)
    rw [← roundSignificant_zpow hwhole]
    exact roundSignificant_monotoneOn hwhole (Set.mem_Ici.mpr hnonneg)
      (Set.mem_Ici.mpr (hnonneg.trans hbelow.le)) hbelow.le
  rcases lt_or_ge x ((10 : ℚ) ^ whole) with hin | hout
  · have hscaled : 0 ≤ x * 10 ^ places := mul_nonneg hnonneg hscale.le
    have hrounded : 0 ≤ roundHalfEven (x * 10 ^ places) := by
      have h := roundHalfEven_mono hscaled
      rwa [show roundHalfEven 0 = 0 by exact_mod_cast roundHalfEven_intCast 0] at h
    rw [roundSignificant_of_decade hdigits habove hin, quantizeWith,
      div_lt_div_iff_of_pos_right hscale, lt_div_iff₀ hscale]
    have h := abs_roundHalfEven_lt_iff heven (q := x * 10 ^ places)
    rw [abs_of_nonneg hrounded, abs_of_nonneg hscaled] at h
    exact_mod_cast h
  · refine iff_of_false (not_lt.mpr ?_) (not_lt.mpr ((hless.le.trans htop).trans hout))
    have hkept := roundSignificant_zpow hwhole (whole : ℤ)
    rw [zpow_natCast] at hkept
    refine htop.trans (hkept.symm.le.trans ?_)
    exact roundSignificant_monotoneOn hwhole (Set.mem_Ici.mpr (by positivity))
      (Set.mem_Ici.mpr hnonneg) hout

/-- The rounding of a positive number does not reach the next whole number: below
`10 ^ (digits - 1)` more than half a unit of the last digit is left to it, and from there on,
where only whole numbers are kept, the number rounds to its own whole part. -/
def KeepsWhole (digits : Nat) (q : ℚ) : Prop :=
  if q < 10 ^ (digits - 1) then q + 10 ^ (Int.log 10 q + 1 - digits) / 2 < ⌊q⌋ + 1
  else roundSignificant digits q = ⌊q⌋

instance : Decidable (KeepsWhole digits q) := by unfold KeepsWhole; infer_instance

theorem floor_roundSignificant_iff (hdigits : 0 < digits) (hq : 0 < q) :
    ⌊roundSignificant digits q⌋ = ⌊q⌋ ↔ KeepsWhole digits q := by
  have hten : (10 : ℚ) ≠ 0 := by norm_num
  unfold KeepsWhole
  split
  · next hsmall =>
    have hlog : Int.log 10 q < (digits - 1 : Nat) :=
      (Int.lt_zpow_iff_log_lt (b := 10) (by norm_num) hq).mp (by exact_mod_cast hsmall)
    obtain ⟨places, hplaces⟩ :
        ∃ places : Nat, (digits : ℤ) - 1 - Int.log 10 q = (places + 1 : Nat) :=
      ⟨(digits - 2 - Int.log 10 q).toNat, by omega⟩
    have hunit : Int.log 10 q + 1 - digits = -((places + 1 : Nat) : ℤ) := by omega
    have hscale : (0 : ℚ) < 10 ^ (places + 1) := by positivity
    have hround : roundSignificant digits q = quantizeWith roundHalfEven (places + 1) q := by
      rw [roundSignificant, abs_of_pos hq, hplaces, zpow_natCast, quantizeWith]
    have hnonneg : 0 ≤ quantizeWith roundHalfEven (places + 1) q := by
      have h := roundSignificant_pos hdigits hq
      rw [hround] at h
      exact h.le
    have hkeep : (⌊q⌋ : ℚ) ≤ quantizeWith roundHalfEven (places + 1) q := by
      have h := quantizeWith_mono (places + 1) roundHalfEven_mono (Int.floor_le q)
      rwa [quantizeWith_intCast _ roundHalfEven_intCast] at h
    have hbound := @abs_quantizeWith_lt_iff (places + 1) (Nat.succ_pos places) (⌊q⌋ + 1) q
    rw [abs_of_nonneg hnonneg, abs_of_pos hq] at hbound
    rw [hround, Int.floor_eq_iff, and_iff_right hkeep, hunit, zpow_neg, zpow_natCast]
    push_cast at hbound
    rw [hbound, lt_sub_iff_add_lt, div_div, mul_comm (2 : ℚ), ← div_div, one_div]
  · next hlarge =>
    have hlog : ((digits - 1 : Nat) : ℤ) ≤ Int.log 10 q :=
      (Int.zpow_le_iff_le_log (b := 10) (by norm_num) hq).mp (by exact_mod_cast not_lt.mp hlarge)
    obtain ⟨zeros, hzeros⟩ : ∃ zeros : Nat, (digits : ℤ) - 1 - Int.log 10 q = -(zeros : ℤ) :=
      ⟨(Int.log 10 q - (digits - 1)).toNat, by omega⟩
    have hround : roundSignificant digits q =
        ((roundHalfEven (q * 10 ^ (-(zeros : ℤ))) * 10 ^ zeros : ℤ) : ℚ) := by
      rw [roundSignificant, abs_of_pos hq, hzeros, zpow_neg, zpow_natCast, div_inv_eq_mul]
      push_cast
      rfl
    rw [hround, Int.floor_intCast, Int.cast_inj]

end Significant

end Screener.Lib
