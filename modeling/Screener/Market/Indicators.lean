import Screener.Lib.Windows
import Screener.Market.DailyBars

/-!
# Technical indicators

Averages, true ranges and extremes over the latest bars of one symbol. Each is
missing where the series is shorter than its window. All but the exponential
average are local to a window: they do not see the bars before it.
-/

namespace Screener.Market

open Screener.Lib

def simpleMovingAverage (values : List ℚ) (period : Nat) : Option ℚ :=
  if values.length < period then none else some ((trailing period values).sum / period)

/-- Seeded with the simple average of the first complete window. -/
def exponentialMovingAverage (values : List ℚ) (period : Nat) : Option ℚ :=
  if values.length < period then none
  else some (smooth (2 / (period + 1 : Nat)) ((values.take period).sum / period)
    (values.drop period))

def trueRange (previous current : DailyBarRecord) : ℚ :=
  max (current.high - current.low)
    (max |current.high - previous.close| |current.low - previous.close|)

/-- The first bar's true range is its high-low range. -/
def trueRanges (bars : List DailyBarRecord) : List ℚ :=
  match bars with
  | [] => []
  | first :: _ => (first.high - first.low) :: pairwise trueRange bars

def averageTrueRange (bars : List DailyBarRecord) (period : Nat) : Option ℚ :=
  if bars.length < period then none else simpleMovingAverage (trueRanges bars) period

def averageVolume (bars : List DailyBarRecord) (period : Nat) : Option ℚ :=
  simpleMovingAverage (bars.map fun bar => (bar.volume : ℚ)) period

def highestHigh (bars : List DailyBarRecord) (period : Nat) : Option ℚ :=
  if bars.length < period then none else ((trailing period bars).map (·.high)).max?

def lowestLow (bars : List DailyBarRecord) (period : Nat) : Option ℚ :=
  if bars.length < period then none else ((trailing period bars).map (·.low)).min?

structure IndicatorSnapshot where
  sma5 : Option ℚ
  sma20 : Option ℚ
  sma60 : Option ℚ
  sma120 : Option ℚ
  ema20 : Option ℚ
  atr14 : Option ℚ
  avgVolume20 : Option ℚ
  highest20 : Option ℚ
  lowest20 : Option ℚ
  highest60 : Option ℚ
  lowest60 : Option ℚ
deriving DecidableEq, Repr

/-- Each bar is dated strictly after the one before it. -/
def Chronological (bars : List DailyBarRecord) : Prop :=
  bars.IsChain fun left right => left.tradingDate < right.tradingDate

instance (bars : List DailyBarRecord) : Decidable (Chronological bars) := by
  unfold Chronological; infer_instance

def snapshotOf (bars : List DailyBarRecord) : IndicatorSnapshot :=
  let closes := bars.map (·.close)
  { sma5 := simpleMovingAverage closes 5
    sma20 := simpleMovingAverage closes 20
    sma60 := simpleMovingAverage closes 60
    sma120 := simpleMovingAverage closes 120
    ema20 := exponentialMovingAverage closes 20
    atr14 := averageTrueRange bars 14
    avgVolume20 := averageVolume bars 20
    highest20 := highestHigh bars 20
    lowest20 := lowestLow bars 20
    highest60 := highestHigh bars 60
    lowest60 := lowestLow bars 60 }

/-- `IndicatorService.calculate`. -/
def calculate (bars : List DailyBarRecord) : Except String IndicatorSnapshot :=
  if Chronological bars then .ok (snapshotOf bars)
  else .error "bars must be ordered by unique ascending trading date"

/-! ## Locality -/

theorem simpleMovingAverage_local (period : Nat) :
    LocalTo period fun values => simpleMovingAverage values period := by
  intro values h
  simp only [simpleMovingAverage, length_trailing, min_eq_left h, lt_irrefl, if_false,
    not_lt.mpr h, trailing_trailing le_rfl]

theorem highestHigh_local (period : Nat) : LocalTo period fun bars => highestHigh bars period := by
  intro bars h
  simp only [highestHigh, length_trailing, min_eq_left h, lt_irrefl, if_false, not_lt.mpr h,
    trailing_trailing le_rfl]

theorem lowestLow_local (period : Nat) : LocalTo period fun bars => lowestLow bars period := by
  intro bars h
  simp only [lowestLow, length_trailing, min_eq_left h, lt_irrefl, if_false, not_lt.mpr h,
    trailing_trailing le_rfl]

theorem averageVolume_local (period : Nat) :
    LocalTo period fun bars => averageVolume bars period :=
  (simpleMovingAverage_local period).map _

theorem length_trueRanges (bars : List DailyBarRecord) :
    (trueRanges bars).length = bars.length := by
  cases bars with
  | nil => rfl
  | cons first rest => simp [trueRanges, length_pairwise]

/-- The latest true ranges, as long as they leave out the first bar's. -/
theorem trailing_trueRanges {period : Nat} {bars : List DailyBarRecord}
    (h : period + 1 ≤ bars.length) :
    trailing period (trueRanges bars) = trailing period (pairwise trueRange bars) := by
  cases bars with
  | nil => simp at h
  | cons first rest =>
    have hlength : period ≤ (pairwise trueRange (first :: rest)).length := by
      rw [length_pairwise]
      omega
    exact trailing_append_of_le [first.high - first.low] hlength

/-- One bar more than the window fixes the average true range. -/
theorem averageTrueRange_local (period : Nat) :
    LocalTo (period + 1) fun bars => averageTrueRange bars period := by
  intro bars h
  have hwindow : period + 1 ≤ (trailing (period + 1) bars).length := by
    rw [length_trailing]
    omega
  have hranges : trailing period (trueRanges (trailing (period + 1) bars)) =
      trailing period (trueRanges bars) := by
    rw [trailing_trueRanges hwindow, trailing_trueRanges h, pairwise_trailing trueRange h,
      trailing_trailing le_rfl]
  simp only [averageTrueRange, simpleMovingAverage, length_trueRanges, hranges]
  rw [if_neg (by omega), if_neg (by omega), if_neg (by omega), if_neg (by omega)]

/-- What two snapshots share when one was taken on the last bars only. -/
structure SameWindow (i j : IndicatorSnapshot) : Prop where
  sma5 : i.sma5 = j.sma5
  sma20 : i.sma20 = j.sma20
  sma60 : i.sma60 = j.sma60
  atr14 : i.atr14 = j.atr14
  avgVolume20 : i.avgVolume20 = j.avgVolume20
  highest20 : i.highest20 = j.highest20
  lowest20 : i.lowest20 = j.lowest20
  highest60 : i.highest60 = j.highest60
  lowest60 : i.lowest60 = j.lowest60

/-- Sixty bars fix every indicator but `sma120` and `ema20`. -/
theorem snapshotOf_trailing {n : Nat} {bars : List DailyBarRecord} (hn : 60 ≤ n)
    (h : n ≤ bars.length) : SameWindow (snapshotOf (trailing n bars)) (snapshotOf bars) where
  sma5 := ((simpleMovingAverage_local 5).map _).mono (by omega) bars h
  sma20 := ((simpleMovingAverage_local 20).map _).mono (by omega) bars h
  sma60 := ((simpleMovingAverage_local 60).map _).mono hn bars h
  atr14 := (averageTrueRange_local 14).mono (by omega) bars h
  avgVolume20 := (averageVolume_local 20).mono (by omega) bars h
  highest20 := (highestHigh_local 20).mono (by omega) bars h
  lowest20 := (lowestLow_local 20).mono (by omega) bars h
  highest60 := (highestHigh_local 60).mono hn bars h
  lowest60 := (lowestLow_local 60).mono hn bars h

theorem chronological_trailing {n : Nat} {bars : List DailyBarRecord} (h : Chronological bars) :
    Chronological (trailing n bars) :=
  h.suffix (trailing_suffix n bars)

/-! ## The exponential average remembers its seed -/

theorem exponentialMovingAverage_of_le {values : List ℚ} {period : Nat}
    (h : period ≤ values.length) :
    exponentialMovingAverage values period =
      some (smooth (2 / (period + 1 : Nat)) ((values.take period).sum / period)
        (values.drop period)) :=
  if_neg (not_lt.mpr h)

/-- The average over the last `n` values is the one over the whole series where
they agree when the window completes its first period. -/
theorem exponentialMovingAverage_trailing {n period : Nat} {values : List ℚ}
    (hn : period ≤ n) (h : n ≤ values.length)
    (hagree : simpleMovingAverage ((trailing n values).take period) period =
      exponentialMovingAverage (values.take (values.length - n + period)) period) :
    exponentialMovingAverage (trailing n values) period =
      exponentialMovingAverage values period := by
  have hlength : (trailing n values).length = n := by
    rw [length_trailing, min_eq_left h]
  have hwindow : period ≤ (trailing n values).length := by omega
  have htake : period ≤ (values.take (values.length - n + period)).length := by
    rw [List.length_take]
    omega
  -- Past its first period the window holds the same values as the whole series.
  have hrest : (trailing n values).drop period = values.drop (values.length - n + period) := by
    rw [trailing, List.drop_drop]
  have hsplit : values.drop period =
      (values.take (values.length - n + period)).drop period ++
        values.drop (values.length - n + period) := by
    rw [← List.drop_append_of_le_length htake, List.take_append_drop]
  have hseed : (values.take (values.length - n + period)).take period = values.take period := by
    rw [List.take_take]
    congr 1
    omega
  have hfirst : simpleMovingAverage ((trailing n values).take period) period =
      some (((trailing n values).take period).sum / period) := by
    have hperiodlength : ((trailing n values).take period).length = period := by
      rw [List.length_take, min_eq_left hwindow]
    rw [simpleMovingAverage, if_neg (by omega), trailing_of_le (by omega)]
  rw [hfirst, exponentialMovingAverage_of_le htake, hseed, Option.some_inj] at hagree
  rw [exponentialMovingAverage_of_le hwindow, exponentialMovingAverage_of_le (hn.trans h), hagree,
    hrest, hsplit, smooth_append]

end Screener.Market
