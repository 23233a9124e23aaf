import Screener.Lib.Scaling
import Screener.Market.ScreeningAgreement

/-!
# Setups do not see the unit of a price

An adjustment of prices multiplies a whole history. Every rule of a setup compares
prices with prices, or a quotient of two prices or two volumes with a bound of the
configuration, so it holds of the history in the one unit if it holds in the other.
-/

namespace Screener.Market

open Screener.Lib

/-- Prices times `k`, volumes times `j`. -/
def DailyBarRecord.scale (k : ℚ) (j : Nat) (bar : DailyBarRecord) : DailyBarRecord :=
  { bar with
    «open» := k * bar.open
    high := k * bar.high
    low := k * bar.low
    close := k * bar.close
    volume := j * bar.volume }

def rescale (k : ℚ) (j : Nat) (bars : List DailyBarRecord) : List DailyBarRecord :=
  bars.map (DailyBarRecord.scale k j)

/-! ## Windows -/

section Windows

variable {k : ℚ} {j : Nat} {bars : List DailyBarRecord}

theorem length_rescale : (rescale k j bars).length = bars.length := List.length_map _

theorem trailing_rescale (n : Nat) :
    trailing n (rescale k j bars) = rescale k j (trailing n bars) := (map_trailing _ n bars).symm

theorem priorBars_rescale (lookback : Nat) :
    priorBars lookback (rescale k j bars) = rescale k j (priorBars lookback bars) := by
  rw [priorBars, priorBars, trailing_rescale, rescale, rescale, List.map_dropLast]

theorem getLast?_rescale :
    (rescale k j bars).getLast? = bars.getLast?.map (DailyBarRecord.scale k j) := List.getLast?_map

theorem volumes_scale :
    volumes (rescale k j bars) = (volumes bars).map ((j : ℚ) * ·) := by
  simp only [volumes, rescale, List.map_map, Function.comp_def, DailyBarRecord.scale, Int.cast_mul,
    Int.cast_natCast]

theorem meanOver_scale (count : Nat) (k : ℚ) (values : List ℚ) :
    meanOver count (values.map (k * ·)) = k * meanOver count values := by
  rw [meanOver, meanOver, sum_map_scale, mul_div_assoc]

theorem ratioOr0_scale (hk : k ≠ 0) (a b : ℚ) : ratioOr0 (k * a) (k * b) = ratioOr0 a b := by
  unfold ratioOr0
  by_cases hb : b = 0
  · simp [hb]
  · rw [if_neg hb, if_neg (mul_ne_zero hk hb), mul_div_mul_left _ _ hk]

section Positive

variable (hk : 0 < k)
include hk

theorem highestOf_scale : highestOf (rescale k j bars) = k * highestOf bars := by
  have hmap : (rescale k j bars).map (·.high) = (bars.map (·.high)).map (k * ·) := by
    simp only [rescale, List.map_map, Function.comp_def, DailyBarRecord.scale]
  rw [highestOf, highestOf, hmap, max?_map (monotone_scale hk)]
  cases (bars.map (·.high)).max? with
  | none => exact (mul_zero k).symm
  | some high => rfl

theorem lowestOf_scale : lowestOf (rescale k j bars) = k * lowestOf bars := by
  have hmap : (rescale k j bars).map (·.low) = (bars.map (·.low)).map (k * ·) := by
    simp only [rescale, List.map_map, Function.comp_def, DailyBarRecord.scale]
  rw [lowestOf, lowestOf, hmap, min?_map (monotone_scale hk)]
  cases (bars.map (·.low)).min? with
  | none => exact (mul_zero k).symm
  | some low => rfl

theorem peakCloseOf_scale : peakCloseOf (rescale k j bars) = k * peakCloseOf bars := by
  have hmap : (rescale k j bars).map (·.close) = (bars.map (·.close)).map (k * ·) := by
    simp only [rescale, List.map_map, Function.comp_def, DailyBarRecord.scale]
  rw [peakCloseOf, peakCloseOf, hmap, max?_map (monotone_scale hk)]
  cases (bars.map (·.close)).max? with
  | none => exact (mul_zero k).symm
  | some close => rfl

/-! ## Indicators -/

theorem trueRange_scale (previous current : DailyBarRecord) :
    trueRange (previous.scale k j) (current.scale k j) = k * trueRange previous current := by
  have hdistance : ∀ a b : ℚ, |k * a - k * b| = k * |a - b| := by
    intro a b
    rw [← mul_sub, abs_mul, abs_of_pos hk]
  simp only [trueRange, DailyBarRecord.scale, hdistance]
  rw [← mul_sub, mul_max_of_nonneg _ _ hk.le, mul_max_of_nonneg _ _ hk.le]

theorem pairwise_trueRange_scale :
    pairwise trueRange (rescale k j bars) = (pairwise trueRange bars).map (k * ·) := by
  rw [rescale, pairwise_map, map_pairwise]
  congr 1
  funext previous current
  exact trueRange_scale hk previous current

theorem trueRanges_scale :
    trueRanges (rescale k j bars) = (trueRanges bars).map (k * ·) := by
  cases bars with
  | nil => rfl
  | cons first rest =>
    have hpairs : pairwise trueRange (rescale k j (first :: rest)) = _ :=
      pairwise_trueRange_scale hk
    rw [rescale, List.map_cons] at hpairs ⊢
    have hfirst : (first.scale k j).high - (first.scale k j).low = k * (first.high - first.low) :=
      (mul_sub k first.high first.low).symm
    simp only [trueRanges, hpairs, List.map_cons, hfirst]

end Positive

theorem simpleMovingAverage_scale (k : ℚ) (values : List ℚ) (period : Nat) :
    simpleMovingAverage (values.map (k * ·)) period =
      (simpleMovingAverage values period).map (k * ·) := by
  unfold simpleMovingAverage
  rw [List.length_map, ← map_trailing, sum_map_scale]
  split_ifs
  · rfl
  · exact congrArg some (mul_div_assoc _ _ _)

theorem exponentialMovingAverage_scale (k : ℚ) (values : List ℚ) (period : Nat) :
    exponentialMovingAverage (values.map (k * ·)) period =
      (exponentialMovingAverage values period).map (k * ·) := by
  unfold exponentialMovingAverage
  rw [List.length_map, ← List.map_take, ← List.map_drop, sum_map_scale, mul_div_assoc, smooth_scale]
  split_ifs
  · rfl
  · rfl

theorem averageTrueRange_scale (hk : 0 < k) (period : Nat) :
    averageTrueRange (rescale k j bars) period =
      (averageTrueRange bars period).map (k * ·) := by
  unfold averageTrueRange
  rw [length_rescale, trueRanges_scale hk, simpleMovingAverage_scale]
  split_ifs
  · rfl
  · rfl

end Windows

/-! ## Snapshots -/

/-- The indicators that the screening reads, in two units. -/
structure Scaled (k : ℚ) (i i' : IndicatorSnapshot) : Prop where
  sma20 : i'.sma20 = i.sma20.map (k * ·)
  sma60 : i'.sma60 = i.sma60.map (k * ·)
  ema20 : i'.ema20 = i.ema20.map (k * ·)
  atr14 : i'.atr14 = i.atr14.map (k * ·)

theorem snapshotOf_scale {k : ℚ} (hk : 0 < k) (j : Nat) (bars : List DailyBarRecord) :
    Scaled k (snapshotOf bars) (snapshotOf (rescale k j bars)) := by
  have hcloses : (rescale k j bars).map (·.close) = (bars.map (·.close)).map (k * ·) := by
    simp only [rescale, List.map_map, Function.comp_def, DailyBarRecord.scale]
  exact
    { sma20 := by simp only [snapshotOf, hcloses, simpleMovingAverage_scale]
      sma60 := by simp only [snapshotOf, hcloses, simpleMovingAverage_scale]
      ema20 := by simp only [snapshotOf, hcloses, exponentialMovingAverage_scale]
      atr14 := averageTrueRange_scale hk 14 }

section Rules

variable {k : ℚ} {i i' : IndicatorSnapshot} (hk : 0 < k) (h : Scaled k i i')
include hk h

theorem upward_scale : upward i' = upward i := by
  unfold upward
  rw [h.sma20, h.sma60]
  cases i.sma20 with
  | none => rfl
  | some sma20 =>
    cases i.sma60 with
    | none => rfl
    | some sma60 => simp [hk]

omit h in
theorem above_scale (close : ℚ) (average : Option ℚ) :
    above (k * close) (average.map (k * ·)) = above close average := by
  cases average with
  | none => rfl
  | some average => simp [above, hk]

omit h in
theorem emaDistance_scale (close : ℚ) (ema20 : Option ℚ) :
    emaDistance (k * close) (ema20.map (k * ·)) = emaDistance close ema20 := by
  cases ema20 with
  | none => simp [emaDistance]
  | some ema =>
    simp only [emaDistance, Option.map_some, Option.getD_some, mul_pos_iff_of_pos_left hk,
      ← mul_sub,
      abs_mul, abs_of_pos hk, mul_div_mul_left _ _ hk.ne']

end Rules

/-! ## The setups -/

/-- What a setup decides, without the amounts it shows. -/
def Evaluation.decision (e : Evaluation) : Bool × List (String × Bool) × ℚ :=
  (e.passed, e.rules, e.setupScore)

section Setups

variable {k : ℚ} {j : Nat} (hk : 0 < k) (hj : 1 ≤ j) (c : SwingScreeningConfig)
  (bars : List DailyBarRecord)
include hk hj

theorem box_rescale : (box c (rescale k j bars) (snapshotOf (rescale k j bars))).map (·.decision) =
    (box c bars (snapshotOf bars)).map (·.decision) := by
  have hi := snapshotOf_scale hk j bars
  have hjpos : (0 : ℚ) < j := Nat.cast_pos.mpr hj
  unfold box SwingScreeningValues.box
  rw [getLast?_rescale, priorBars_rescale]
  cases bars.getLast? with
  | none => rfl
  | some latest =>
    simp only [Option.map_some, length_rescale, highestOf_scale hk, lowestOf_scale hk,
      volumes_scale,
      meanOver_scale, upward_scale hk hi, hi.sma20, DailyBarRecord.scale, Int.cast_mul,
      Int.cast_natCast, ← mul_sub, ratioOr0_scale hk.ne', ratioOr0_scale hjpos.ne', above_scale hk,
      mul_le_mul_iff_right₀ hk, mul_pos_iff_of_pos_left hk]
    split
    · rfl
    · exact bind_map_congr fun _ => bind_map_congr fun _ => bind_map_congr fun _ =>
        bind_map_congr fun _ => rfl

theorem pullback_rescale :
    (pullback c (rescale k j bars) (snapshotOf (rescale k j bars))).map (·.decision) =
      (pullback c bars (snapshotOf bars)).map (·.decision) := by
  have hi := snapshotOf_scale hk j bars
  have hjpos : (0 : ℚ) < j := Nat.cast_pos.mpr hj
  have hema : ((snapshotOf bars).ema20.map (k * ·)).getD 0 =
      k * (snapshotOf bars).ema20.getD 0 := by
    cases (snapshotOf bars).ema20 with
    | none => exact (mul_zero k).symm
    | some ema => rfl
  have hprevious : ((priorBars 1 (rescale k j bars)).map (·.close)).getLastD 0 =
      k * ((priorBars 1 bars).map (·.close)).getLastD 0 := by
    have hcloses : (priorBars 1 (rescale k j bars)).map (·.close) =
        ((priorBars 1 bars).map (·.close)).map (k * ·) := by
      rw [priorBars_rescale]
      simp only [rescale, List.map_map, Function.comp_def, DailyBarRecord.scale]
    rw [hcloses, List.getLastD_eq_getLast?, List.getLastD_eq_getLast?, List.getLast?_map]
    cases ((priorBars 1 bars).map (·.close)).getLast? with
    | none => exact (mul_zero k).symm
    | some close => rfl
  unfold pullback SwingScreeningValues.pullback
  rw [getLast?_rescale, priorBars_rescale, hprevious]
  cases bars.getLast? with
  | none => rfl
  | some latest =>
    simp only [Option.map_some, length_rescale, trailing_rescale, peakCloseOf_scale hk,
      volumes_scale,
      meanOver_scale, upward_scale hk hi, hi.sma20, hi.sma60, hi.ema20, hema, emaDistance_scale hk,
      DailyBarRecord.scale, ← mul_sub, ratioOr0_scale hk.ne', ratioOr0_scale hjpos.ne',
      above_scale hk, mul_le_mul_iff_right₀ hk, mul_lt_mul_iff_right₀ hk,
      mul_pos_iff_of_pos_left hk]
    split
    · rfl
    · refine bind_map_congr fun _ => bind_map_congr fun _ => bind_map_congr fun _ =>
        bind_map_congr fun _ => bind_map_congr fun _ => ?_
      -- The band below `sma20` is left: its bound is a part of the average.
      cases (snapshotOf bars).sma20 with
      | none => rfl
      | some sma20 =>
        simp only [Option.map_some, mul_assoc, mul_le_mul_iff_right₀ hk]
        rfl

theorem contraction_rescale :
    (contraction c (rescale k j bars) (snapshotOf (rescale k j bars))).map (·.decision) =
      (contraction c bars (snapshotOf bars)).map (·.decision) := by
  have hi := snapshotOf_scale hk j bars
  have hjpos : (0 : ℚ) < j := Nat.cast_pos.mpr hj
  have htrailing : ∀ (n : Nat) (values : List ℚ),
      trailing n (values.map (k * ·)) = (trailing n values).map (k * ·) :=
    fun n values => (map_trailing _ n values).symm
  unfold contraction SwingScreeningValues.contraction
  rw [getLast?_rescale, priorBars_rescale, priorBars_rescale]
  cases bars.getLast? with
  | none => rfl
  | some latest =>
    simp only [Option.map_some, length_rescale, trailing_rescale, pairwise_trueRange_scale hk,
      List.length_map, htrailing, highestOf_scale hk, lowestOf_scale hk, volumes_scale,
      meanOver_scale, upward_scale hk hi, hi.sma20, DailyBarRecord.scale, Int.cast_mul,
      Int.cast_natCast, ← mul_sub, ratioOr0_scale hk.ne', ratioOr0_scale hjpos.ne', above_scale hk,
      mul_le_mul_iff_right₀ hk, mul_pos_iff_of_pos_left hk, mul_pos_iff_of_pos_left hjpos]
    split
    · rfl
    · exact bind_map_congr fun _ => bind_map_congr fun _ => bind_map_congr fun _ =>
        bind_map_congr fun _ => bind_map_congr fun _ => rfl

/-- The reasons that name an amount of money. -/
def absoluteReasons : List String := ["invalid_price", "insufficient_liquidity"]

omit hk hj in
theorem filter_reasons (rules : List (String × Bool)) (names : List String) :
    ((rules.filter fun rule => !rule.2).map (·.1)).filter (· ∉ names) =
      ((rules.filter fun rule => rule.1 ∉ names).filter fun rule => !rule.2).map (·.1) := by
  rw [List.filter_map, List.filter_filter, List.filter_filter]
  congr 1
  refine List.filter_congr fun rule _ => ?_
  rw [Bool.and_comm]
  rfl

/-- Only the minimum close and the minimum trading value see the unit. -/
theorem common_rescale :
    (common c (rescale k j bars) (snapshotOf (rescale k j bars))).reasons.filter
        (· ∉ absoluteReasons) =
      (common c bars (snapshotOf bars)).reasons.filter (· ∉ absoluteReasons) := by
  have hi := snapshotOf_scale hk j bars
  have hjpos : (0 : ℤ) < j := by omega
  unfold common SwingScreeningValues.commonOf
  rw [getLast?_rescale]
  cases bars.getLast? with
  | none => rfl
  | some latest =>
    simp only [Option.map_some, filter_reasons, length_rescale, hi.sma20, hi.sma60, hi.atr14,
      Option.isSome_map, DailyBarRecord.scale, mul_pos_iff_of_pos_left hjpos]
    cases (snapshotOf bars).atr14 with
    | none => simp [absoluteReasons, List.filter_cons]
    | some atr14 =>
      simp [absoluteReasons, List.filter_cons, mul_pos_iff_of_pos_left hk,
        mul_div_mul_left _ _ hk.ne']

end Setups

/-- A change of the unit of prices and of the lot of volumes changes no setup. -/
theorem setups_scale_free {k : ℚ} {j : Nat} (hk : 0 < k) (hj : 1 ≤ j) (c : SwingScreeningConfig)
    (bars : List DailyBarRecord) :
    let scaled := rescale k j bars
    (box c scaled (snapshotOf scaled)).map (·.decision) =
        (box c bars (snapshotOf bars)).map (·.decision) ∧
      (pullback c scaled (snapshotOf scaled)).map (·.decision) =
        (pullback c bars (snapshotOf bars)).map (·.decision) ∧
      (contraction c scaled (snapshotOf scaled)).map (·.decision) =
        (contraction c bars (snapshotOf bars)).map (·.decision) ∧
      (common c scaled (snapshotOf scaled)).reasons.filter (· ∉ absoluteReasons) =
        (common c bars (snapshotOf bars)).reasons.filter (· ∉ absoluteReasons) :=
  ⟨box_rescale hk hj c bars, pullback_rescale hk hj c bars, contraction_rescale hk hj c bars,
    common_rescale hk hj c bars⟩

/-- A split of ten to one of the history that passes as a pullback. -/
theorem setups_scale_free_sample :
    let scaled := rescale (1 / 10) 10 (historyFrom 9000)
    (pullback .default scaled (snapshotOf scaled)).map (·.decision) =
      (pullback .default (historyFrom 9000) (snapshotOf (historyFrom 9000))).map (·.decision) :=
  (setups_scale_free (by norm_num) (by norm_num) .default (historyFrom 9000)).2.1

end Screener.Market
