import Screener.Backtest.IndependentRules

/-!
# Which decimals can be quantized

In the context of a new thread a result is quantized to eight places within 28 digits, so it
has to stay half a unit of the eighth place below `10 ^ 20`. The same bound decides before the
result is rounded to its 28 digits, which makes the amounts of a trade bounds on its prices,
its quantity and its rates.
-/

namespace Screener.Backtest

open Screener.Lib
open Screener.Market (Date Symbol DailyBarRecord)

namespace DecimalContext

variable {c : DecimalContext}

/-! ## The operations of a context -/

theorem quantize_ok {q r : ℚ} : c.quantize q = .ok r ↔ c.Fits q ∧ Backtest.quantize q = r := by
  unfold quantize
  split <;> simp [*]

theorem divide_ok {a b q : ℚ} : c.divide a b = .ok q ↔ b ≠ 0 ∧ c.round (a / b) = q := by
  rw [divide, map_ok]
  simp only [Backtest.divide_ok]
  constructor
  · rintro ⟨_, ⟨hb, rfl⟩, rfl⟩
    exact ⟨hb, rfl⟩
  · rintro ⟨hb, rfl⟩
    exact ⟨_, ⟨hb, rfl⟩, rfl⟩

theorem round_natCast {n : Nat} (h : n < 10 ^ 20) : c.round n = n := by
  refine c.round_short _ ⟨n * 10 ^ 8, ?_⟩ ?_
  · push_cast
    exact (mul_div_cancel_right₀ _ (by norm_num)).symm
  · rw [Nat.abs_cast]
    exact_mod_cast h

theorem round_zero : c.round 0 = 0 := by exact_mod_cast c.round_natCast (n := 0) (by norm_num)

theorem round_nonneg {q : ℚ} (h : 0 ≤ q) : 0 ≤ c.round q := by
  rw [← c.round_zero]
  exact c.round_mono (Set.mem_Ici.mpr le_rfl) (Set.mem_Ici.mpr h) h

theorem round_le {q : ℚ} {n : Nat} (h : 0 ≤ q) (hq : q ≤ n) (hn : n < 10 ^ 20) : c.round q ≤ n := by
  rw [← c.round_natCast hn]
  exact c.round_mono (Set.mem_Ici.mpr h) (Set.mem_Ici.mpr (h.trans hq)) hq

/-- A result of at most `10 ^ 16` fits. -/
theorem fits_of_le {q : ℚ} (h : 0 ≤ q) (hq : q ≤ 10 ^ 16) : c.Fits q := by
  refine c.holds_short _ ?_
  have hlow := roundHalfEven_mono (show (0 : ℚ) ≤ q * 10 ^ 8 by positivity)
  have hhigh := roundHalfEven_mono (show q * 10 ^ 8 ≤ ((10 ^ 24 : ℤ) : ℚ) by push_cast; linarith)
  have hzero : roundHalfEven 0 = 0 := by exact_mod_cast roundHalfEven_intCast 0
  rw [hzero] at hlow
  rw [roundHalfEven_intCast] at hhigh
  rw [abs_of_nonneg hlow]
  omega

end DecimalContext

/-! ## The context of a new thread -/

open DecimalContext (default)

/-- A result with its 28 digits. -/
abbrev rounded (q : ℚ) : ℚ := DecimalContext.default.round q

/-- Half a unit of the eighth place below what 28 digits hold. -/
def decimalLimit : ℚ := 10 ^ 20 - 1 / 2 / 10 ^ 8

theorem decimalLimit_pos : 0 < decimalLimit := by norm_num [decimalLimit]

theorem default_fits {q : ℚ} : default.Fits q ↔ |q| < decimalLimit := by
  have hcoefficient : default.Fits q ↔ |roundHalfEven (q * 10 ^ 8)| < 10 ^ 28 := by
    rw [Int.abs_eq_natAbs]
    exact decide_eq_true_iff.trans ⟨fun h => by exact_mod_cast h, fun h => by exact_mod_cast h⟩
  have hscale : (0 : ℚ) < 10 ^ 8 := by norm_num
  rw [hcoefficient, abs_roundHalfEven_lt_iff (by norm_num), abs_mul, abs_of_pos hscale,
    ← lt_div_iff₀ hscale, decimalLimit]
  norm_num

/-- Rounded to 28 digits, a result fits exactly where it did before. -/
theorem default_fits_round {q : ℚ} : default.Fits (default.round q) ↔ |q| < decimalLimit := by
  have hlimit : decimalLimit < 10 ^ 20 := by norm_num [decimalLimit]
  have hbound := abs_roundSignificant_lt_iff (q := q) (show 8 + 20 = precision from rfl)
    precision_pos (n := 10 ^ 28) (by norm_num) (by norm_num [precision]) (by norm_num [precision])
  have heq : ((10 ^ 28 : ℤ) - 1 / 2 : ℚ) / 10 ^ 8 = decimalLimit := by norm_num [decimalLimit]
  have hrounded : roundSignificant precision q = default.round q := rfl
  rw [heq, hrounded, show ((10 ^ 28 : ℤ) : ℚ) / 10 ^ 8 = 10 ^ 20 by norm_num] at hbound
  rw [default_fits]
  refine ⟨fun h => hbound.mp (h.trans hlimit), fun h => ?_⟩
  have hround : |default.round q| = roundSignificant precision |q| :=
    abs_roundSignificant precision_pos q
  rcases lt_or_ge |q| ((10 : ℚ) ^ ((20 : ℤ) - 1)) with hsmall | hlarge
  · have hkept := roundSignificant_zpow precision_pos ((20 : ℤ) - 1)
    have hle := roundSignificant_monotoneOn precision_pos (Set.mem_Ici.mpr (abs_nonneg q))
      (Set.mem_Ici.mpr ((abs_nonneg q).trans hsmall.le)) hsmall.le
    rw [hkept, ← hround] at hle
    exact hle.trans_lt (by norm_num [decimalLimit])
  · -- In the last decade a rounded result is a multiple of the eighth place.
    have hgrid := roundSignificant_of_decade (show 8 + 20 = precision from rfl) hlarge
      (h.trans hlimit)
    have hless := hbound.mpr h
    rw [hround, hgrid, quantizeWith, div_lt_iff₀ (by norm_num)] at hless
    have hcoefficient : roundHalfEven (|q| * 10 ^ 8) ≤ 10 ^ 28 - 1 := by
      have hcast : roundHalfEven (|q| * 10 ^ 8) < (10 ^ 20 * 10 ^ 8 : ℤ) := by exact_mod_cast hless
      omega
    rw [hround, hgrid, quantizeWith, div_lt_iff₀ (by norm_num)]
    have hle : (roundHalfEven (|q| * 10 ^ 8) : ℚ) ≤ ((10 ^ 28 - 1 : ℤ) : ℚ) := by
      exact_mod_cast hcoefficient
    refine hle.trans_lt ?_
    norm_num [decimalLimit]

example : ¬ default.Fits (10 ^ 20) := by decide +kernel

theorem rounded_nonneg {q : ℚ} (h : 0 ≤ q) : 0 ≤ rounded q := DecimalContext.round_nonneg h

theorem rounded_lt_limit {q : ℚ} (h : 0 ≤ q) : rounded q < decimalLimit ↔ q < decimalLimit := by
  have hround := default_fits.symm.trans (default_fits_round (q := q))
  rwa [abs_of_nonneg h, abs_of_nonneg (rounded_nonneg h)] at hround

/-! ## Sums of quantized amounts -/

theorem DecimalContext.fits_of_onGrid {c : DecimalContext} {q : ℚ} (h : OnGrid 8 q)
    (hq : |q| < 10 ^ 20) : c.Fits q := by
  obtain ⟨n, rfl⟩ := h
  have hscale : (0 : ℚ) < 10 ^ 8 := by norm_num
  refine c.holds_short _ ?_
  rw [div_mul_cancel₀ _ hscale.ne', roundHalfEven_intCast]
  rw [abs_div, abs_of_pos hscale, div_lt_iff₀ hscale] at hq
  have hcast : ((|n| : ℤ) : ℚ) < ((10 ^ 28 : ℤ) : ℚ) := by
    push_cast
    linarith
  exact_mod_cast hcast

theorem sum_filter_neg_cons (value : ℚ) (rest : List ℚ) :
    ((value :: rest).filter (· < 0)).sum = min value 0 + (rest.filter (· < 0)).sum := by
  rw [List.filter_cons]
  rcases lt_or_ge value 0 with hneg | hnonneg
  · rw [if_pos (by simpa using hneg), List.sum_cons, min_eq_left hneg.le]
  · rw [if_neg (by simpa using hnonneg), min_eq_right hnonneg, zero_add]

theorem sum_filter_pos_cons (value : ℚ) (rest : List ℚ) :
    ((value :: rest).filter (0 < ·)).sum = max value 0 + (rest.filter (0 < ·)).sum := by
  rw [List.filter_cons]
  rcases lt_or_ge 0 value with hpos | hnonpos
  · rw [if_pos (by simpa using hpos), List.sum_cons, max_eq_left hpos.le]
  · rw [if_neg (by simpa using hnonpos), max_eq_right hnonpos, zero_add]

theorem sum_filter_neg_le (values : List ℚ) : (values.filter (· < 0)).sum ≤ 0 := by
  induction values with
  | nil => exact le_rfl
  | cons value rest ih =>
    rw [sum_filter_neg_cons]
    have hmin := min_le_right value 0
    linarith

theorem sum_filter_pos_ge (values : List ℚ) : 0 ≤ (values.filter (0 < ·)).sum := by
  induction values with
  | nil => exact le_rfl
  | cons value rest ih =>
    rw [sum_filter_pos_cons]
    have hmax := le_max_right value 0
    linarith

/-- Amounts whose profits and losses stay below `10 ^ 20` are summed without a rounding. -/
theorem DecimalContext.foldl_round_eq {c : DecimalContext} {values : List ℚ} {total : ℚ}
    (hgrid : ∀ value ∈ values, OnGrid 8 value) (htotal : OnGrid 8 total)
    (hlow : -10 ^ 20 < total + (values.filter (· < 0)).sum)
    (hhigh : total + (values.filter (0 < ·)).sum < 10 ^ 20) :
    values.foldl (fun total value => c.round (total + value)) total = total + values.sum := by
  induction values generalizing total with
  | nil => simp
  | cons value rest ih =>
    obtain ⟨hvalue, hrest⟩ := List.forall_mem_cons.mp hgrid
    have hlosses := sum_filter_neg_le rest
    have hwins := sum_filter_pos_ge rest
    have hsplit : -10 ^ 20 < total + value + (rest.filter (· < 0)).sum ∧
        total + value + (rest.filter (0 < ·)).sum < 10 ^ 20 := by
      rw [sum_filter_neg_cons] at hlow
      rw [sum_filter_pos_cons] at hhigh
      have hmin := min_le_left value 0
      have hmax := le_max_left value 0
      constructor <;> linarith
    have hsize : |total + value| < 10 ^ 20 := abs_lt.mpr ⟨by linarith, by linarith⟩
    rw [List.foldl_cons, c.round_short _ (htotal.add hvalue) hsize,
      ih hrest (htotal.add hvalue) hsplit.1 hsplit.2, List.sum_cons, add_assoc]

theorem DecimalContext.sum_eq {c : DecimalContext} {values : List ℚ}
    (hgrid : ∀ value ∈ values, OnGrid 8 value) (hlow : -10 ^ 20 < (values.filter (· < 0)).sum)
    (hhigh : (values.filter (0 < ·)).sum < 10 ^ 20) : c.sum values = values.sum := by
  have h := c.foldl_round_eq hgrid onGrid_zero (by rwa [zero_add]) (by rwa [zero_add])
  rwa [zero_add] at h

theorem sum_le_filter_pos (values : List ℚ) : values.sum ≤ (values.filter (0 < ·)).sum := by
  induction values with
  | nil => exact le_rfl
  | cons value rest ih =>
    rw [sum_filter_pos_cons, List.sum_cons]
    exact add_le_add (le_max_left value 0) ih

theorem filter_neg_le_sum (values : List ℚ) : (values.filter (· < 0)).sum ≤ values.sum := by
  induction values with
  | nil => exact le_rfl
  | cons value rest ih =>
    rw [sum_filter_neg_cons, List.sum_cons]
    exact add_le_add (min_le_left value 0) ih

theorem filter_nonneg {values : List ℚ} (hnonneg : ∀ value ∈ values, 0 ≤ value) :
    values.filter (· < 0) = [] := by
  rw [List.filter_eq_nil_iff]
  intro value hvalue
  simpa using hnonneg value hvalue

theorem filter_nonpos {values : List ℚ} (hnonpos : ∀ value ∈ values, value ≤ 0) :
    values.filter (0 < ·) = [] := by
  rw [List.filter_eq_nil_iff]
  intro value hvalue
  simpa using hnonpos value hvalue

theorem sum_filter_neg {values : List ℚ} (hnonpos : ∀ value ∈ values, value ≤ 0) :
    (values.filter (· < 0)).sum = values.sum := by
  induction values with
  | nil => rfl
  | cons value rest ih =>
    obtain ⟨hvalue, hrest⟩ := List.forall_mem_cons.mp hnonpos
    rw [sum_filter_neg_cons, min_eq_left hvalue, ih hrest, List.sum_cons]

theorem sum_filter_pos {values : List ℚ} (hnonneg : ∀ value ∈ values, 0 ≤ value) :
    (values.filter (0 < ·)).sum = values.sum := by
  induction values with
  | nil => rfl
  | cons value rest ih =>
    obtain ⟨hvalue, hrest⟩ := List.forall_mem_cons.mp hnonneg
    rw [sum_filter_pos_cons, max_eq_left hvalue, ih hrest, List.sum_cons]

theorem DecimalContext.sum_eq_of_nonneg {c : DecimalContext} {values : List ℚ}
    (hgrid : ∀ value ∈ values, OnGrid 8 value) (hnonneg : ∀ value ∈ values, 0 ≤ value)
    (h : values.sum < 10 ^ 20) : c.sum values = values.sum := by
  refine DecimalContext.sum_eq hgrid ?_ ?_
  · rw [filter_nonneg hnonneg]
    norm_num
  · rwa [sum_filter_pos hnonneg]

theorem DecimalContext.sum_eq_of_nonpos {c : DecimalContext} {values : List ℚ}
    (hgrid : ∀ value ∈ values, OnGrid 8 value) (hnonpos : ∀ value ∈ values, value ≤ 0)
    (h : -10 ^ 20 < values.sum) : c.sum values = values.sum := by
  refine DecimalContext.sum_eq hgrid ?_ ?_
  · rwa [sum_filter_neg hnonpos]
  · rw [filter_nonpos hnonpos]
    norm_num

theorem default_round_limit : default.round (10 ^ 20) = 10 ^ 20 := by
  have h := roundSignificant_zpow precision_pos ((20 : Nat) : ℤ)
  rwa [zpow_natCast] at h

theorem default_round_ge {q : ℚ} (h : 10 ^ 20 ≤ q) : 10 ^ 20 ≤ default.round q := by
  have hlimit : (0 : ℚ) ≤ 10 ^ 20 := by norm_num
  have hmono := default.round_mono (Set.mem_Ici.mpr hlimit) (Set.mem_Ici.mpr (hlimit.trans h)) h
  rwa [default_round_limit] at hmono

/-- A sum that has reached `10 ^ 20` does not come back below it. -/
theorem default_foldl_stays {values : List ℚ} {total : ℚ} (hnonneg : ∀ value ∈ values, 0 ≤ value)
    (h : 10 ^ 20 ≤ total) :
    10 ^ 20 ≤ values.foldl (fun total value => default.round (total + value)) total := by
  induction values generalizing total with
  | nil => exact h
  | cons value rest ih =>
    obtain ⟨hvalue, hrest⟩ := List.forall_mem_cons.mp hnonneg
    exact ih hrest (default_round_ge (by linarith))

theorem default_foldl_ge {values : List ℚ} {total : ℚ} (hgrid : ∀ value ∈ values, OnGrid 8 value)
    (hnonneg : ∀ value ∈ values, 0 ≤ value) (htotal : OnGrid 8 total) (hpos : 0 ≤ total)
    (h : 10 ^ 20 ≤ total + values.sum) :
    10 ^ 20 ≤ values.foldl (fun total value => default.round (total + value)) total := by
  induction values generalizing total with
  | nil => simpa using h
  | cons value rest ih =>
    obtain ⟨hvalue, hrest⟩ := List.forall_mem_cons.mp hnonneg
    obtain ⟨hvalueGrid, hrestGrid⟩ := List.forall_mem_cons.mp hgrid
    rcases lt_or_ge (total + value) (10 ^ 20) with hsmall | hlarge
    · have hsize : |total + value| < 10 ^ 20 := by rwa [abs_of_nonneg (by linarith)]
      have hkept := default.round_short _ (htotal.add hvalueGrid) hsize
      rw [List.foldl_cons, hkept]
      rw [List.sum_cons, ← add_assoc] at h
      exact ih hrestGrid hrest (htotal.add hvalueGrid) (by linarith) h
    · rw [List.foldl_cons]
      exact default_foldl_stays hrest (default_round_ge hlarge)

/-- A sum of profits can be quantized exactly where the profits stay below `10 ^ 20`. -/
theorem default_sum_fits {values : List ℚ} (hgrid : ∀ value ∈ values, OnGrid 8 value)
    (hnonneg : ∀ value ∈ values, 0 ≤ value) :
    default.Fits (default.sum values) ↔ values.sum < 10 ^ 20 := by
  constructor
  · intro hfits
    by_contra hlarge
    have hge := default_foldl_ge hgrid hnonneg onGrid_zero le_rfl (by linarith)
    have hlimit : decimalLimit < 10 ^ 20 := by norm_num [decimalLimit]
    have hlt := (le_abs_self _).trans_lt (default_fits.mp hfits)
    exact absurd (hlt.trans hlimit) (not_lt.mpr hge)
  · intro hsmall
    rw [DecimalContext.sum_eq_of_nonneg hgrid hnonneg hsmall]
    refine DecimalContext.fits_of_onGrid (onGrid_sum hgrid) ?_
    rwa [abs_of_nonneg (List.sum_nonneg hnonneg)]

theorem default_sum_neg (values : List ℚ) :
    default.sum (values.map (-·)) = -default.sum values := by
  have hfold : ∀ total : ℚ,
      (values.map (-·)).foldl (fun total value => default.round (total + value)) (-total) =
        -values.foldl (fun total value => default.round (total + value)) total := by
    induction values with
    | nil => intro total; rfl
    | cons value rest ih =>
      intro total
      have hround : default.round (-total + -value) = -default.round (total + value) := by
        rw [← neg_add]
        exact roundSignificant_neg precision _
      rw [List.map_cons, List.foldl_cons, List.foldl_cons, hround, ih]
  have h := hfold 0
  rwa [neg_zero] at h

theorem default_sum_fits_of_nonpos {values : List ℚ} (hgrid : ∀ value ∈ values, OnGrid 8 value)
    (hnonpos : ∀ value ∈ values, value ≤ 0) :
    default.Fits (default.sum values) ↔ -10 ^ 20 < values.sum := by
  have hgrid' : ∀ value ∈ values.map (-·), OnGrid 8 value :=
    List.forall_mem_map.mpr fun value hvalue => (hgrid value hvalue).neg
  have hnonneg : ∀ value ∈ values.map (-·), 0 ≤ value :=
    List.forall_mem_map.mpr fun value hvalue => neg_nonneg.mpr (hnonpos value hvalue)
  have hfits := default_sum_fits hgrid' hnonneg
  have hsum : (values.map (-·)).sum = -values.sum := (List.sum_neg values).symm
  rw [default_sum_neg, hsum, default_fits, abs_neg, ← default_fits] at hfits
  rw [hfits]
  exact neg_lt

end Screener.Backtest
