import Screener.Lib.DecimalValue
import Screener.Lib.Loop
import Screener.Lib.Rounding
import Screener.Market.Indicators

/-!
# Multi-setup swing screening

`MultiSetupSwingStrategy.evaluate`: the common filter and three setups, each
with its metrics, its rules and a score between 0 and 100. A score function
raises on a configuration whose bounds are not finite or in the wrong order, and
a rule raises on a NaN; an exception is given by its message. Decimal arithmetic
is exact, apart from the quantizations the source writes.
-/

namespace Screener.Market

open Screener.Lib

inductive Setup where
  | volatilityContractionBreakout
  | boxBreakout
  | trendPullback
deriving DecidableEq, Repr

namespace Setup

def name : Setup → String
  | .volatilityContractionBreakout => "volatility_contraction_breakout"
  | .boxBreakout => "box_breakout"
  | .trendPullback => "trend_pullback"

/-- `SETUP_ORDER`. -/
def order : List Setup := [.volatilityContractionBreakout, .boxBreakout, .trendPullback]

/-- `SETUP_ORDER.index(name)`. -/
def index (setup : Setup) : Nat := order.idxOf setup

end Setup

/-! ## Configuration -/

/-- The values of a configuration before its checks; a negative lookback is
refused as zero is, so lookbacks are naturals here. -/
structure SwingScreeningValues (δ : Type) where
  minimumHistoryBars : Nat
  minimumClose : δ
  minimumAverageTradingValue20 : δ
  maximumAtrPct : δ
  minimumCandidateScore : δ
  maximumCandidates : Nat
  boxLookback : Nat
  maximumBoxWidthPct : δ
  minimumBreakoutVolumeRatio : δ
  maximumScoredBreakoutPct : δ
  maximumScoredVolumeRatio : δ
  pullbackLookback : Nat
  pullbackVolumeLookback : Nat
  minimumPullbackDepthPct : δ
  idealPullbackDepthPct : δ
  maximumPullbackDepthPct : δ
  maximumEma20DistancePct : δ
  maximumPriorShortVolumeRatio : δ
  bestPriorShortVolumeRatio : δ
  maximumScoredReboundBodyPct : δ
  contractionRangeLookback : Nat
  contractionShortLookback : Nat
  contractionLongLookback : Nat
  maximumContractionRangePct : δ
  maximumTrueRangeContractionRatio : δ
  bestTrueRangeContractionRatio : δ
  contractionMaximumPriorShortVolumeRatio : δ
  contractionBestPriorShortVolumeRatio : δ
  maximumScoredBreakoutVolumeRatio : δ
deriving DecidableEq, Repr

namespace SwingScreeningValues

/-- The defaults of the fields. -/
def defaults : SwingScreeningValues ℚ where
  minimumHistoryBars := 61
  minimumClose := 1000
  minimumAverageTradingValue20 := 1000000000
  maximumAtrPct := 12 / 100
  minimumCandidateScore := 80
  maximumCandidates := 5
  boxLookback := 20
  maximumBoxWidthPct := 15 / 100
  minimumBreakoutVolumeRatio := 120 / 100
  maximumScoredBreakoutPct := 5 / 100
  maximumScoredVolumeRatio := 3
  pullbackLookback := 20
  pullbackVolumeLookback := 5
  minimumPullbackDepthPct := 3 / 100
  idealPullbackDepthPct := 6 / 100
  maximumPullbackDepthPct := 12 / 100
  maximumEma20DistancePct := 4 / 100
  maximumPriorShortVolumeRatio := 90 / 100
  bestPriorShortVolumeRatio := 50 / 100
  maximumScoredReboundBodyPct := 3 / 100
  contractionRangeLookback := 10
  contractionShortLookback := 5
  contractionLongLookback := 20
  maximumContractionRangePct := 8 / 100
  maximumTrueRangeContractionRatio := 70 / 100
  bestTrueRangeContractionRatio := 40 / 100
  contractionMaximumPriorShortVolumeRatio := 80 / 100
  contractionBestPriorShortVolumeRatio := 50 / 100
  maximumScoredBreakoutVolumeRatio := 3

/-- Values that are all finite. -/
def decimals (c : SwingScreeningValues ℚ) : SwingScreeningValues DecimalValue where
  minimumHistoryBars := c.minimumHistoryBars
  minimumClose := c.minimumClose
  minimumAverageTradingValue20 := c.minimumAverageTradingValue20
  maximumAtrPct := c.maximumAtrPct
  minimumCandidateScore := c.minimumCandidateScore
  maximumCandidates := c.maximumCandidates
  boxLookback := c.boxLookback
  maximumBoxWidthPct := c.maximumBoxWidthPct
  minimumBreakoutVolumeRatio := c.minimumBreakoutVolumeRatio
  maximumScoredBreakoutPct := c.maximumScoredBreakoutPct
  maximumScoredVolumeRatio := c.maximumScoredVolumeRatio
  pullbackLookback := c.pullbackLookback
  pullbackVolumeLookback := c.pullbackVolumeLookback
  minimumPullbackDepthPct := c.minimumPullbackDepthPct
  idealPullbackDepthPct := c.idealPullbackDepthPct
  maximumPullbackDepthPct := c.maximumPullbackDepthPct
  maximumEma20DistancePct := c.maximumEma20DistancePct
  maximumPriorShortVolumeRatio := c.maximumPriorShortVolumeRatio
  bestPriorShortVolumeRatio := c.bestPriorShortVolumeRatio
  maximumScoredReboundBodyPct := c.maximumScoredReboundBodyPct
  contractionRangeLookback := c.contractionRangeLookback
  contractionShortLookback := c.contractionShortLookback
  contractionLongLookback := c.contractionLongLookback
  maximumContractionRangePct := c.maximumContractionRangePct
  maximumTrueRangeContractionRatio := c.maximumTrueRangeContractionRatio
  bestTrueRangeContractionRatio := c.bestTrueRangeContractionRatio
  contractionMaximumPriorShortVolumeRatio := c.contractionMaximumPriorShortVolumeRatio
  contractionBestPriorShortVolumeRatio := c.contractionBestPriorShortVolumeRatio
  maximumScoredBreakoutVolumeRatio := c.maximumScoredBreakoutVolumeRatio

section Checks

variable {δ : Type}

def lookbacks (c : SwingScreeningValues δ) : List Nat :=
  [c.boxLookback, c.pullbackLookback, c.pullbackVolumeLookback, c.contractionRangeLookback,
    c.contractionShortLookback, c.contractionLongLookback]

/-- `required`: the bars that every setup window fits in. -/
def required (c : SwingScreeningValues δ) : Nat :=
  [c.boxLookback + 1, c.pullbackLookback + 1, c.pullbackVolumeLookback + 1,
    c.contractionRangeLookback + 1, c.contractionLongLookback + 2].foldl max 20

/-- `__post_init__`. -/
def postInit (c : SwingScreeningValues DecimalValue) : Except String Unit :=
  if 0 ∈ c.lookbacks then .error "lookbacks must be positive"
  else if c.pullbackLookback < c.pullbackVolumeLookback then .error "invalid pullback lookback"
  else if c.contractionLongLookback < c.contractionShortLookback then
    .error "invalid contraction lookback"
  else if c.minimumHistoryBars < c.required then .error "minimum_history_bars is unsafe"
  else if c.minimumCandidateScore = .nan then .error DecimalValue.invalidOperation
  else if ¬ (DecimalValue.le (0 : ℚ) c.minimumCandidateScore ∧
      c.minimumCandidateScore.le (100 : ℚ)) then
    .error "minimum_candidate_score must be between 0 and 100"
  else if c.maximumCandidates = 0 then .error "maximum_candidates must be positive"
  else .ok ()

end Checks

end SwingScreeningValues

/-- A configuration that exists has passed its checks. -/
structure DecimalConfig extends SwingScreeningValues DecimalValue where
  accepted : toSwingScreeningValues.postInit = .ok ()

/-- A configuration whose decimals are finite, as the program's own is. -/
structure SwingScreeningConfig extends SwingScreeningValues ℚ where
  accepted : toSwingScreeningValues.decimals.postInit = .ok ()

def SwingScreeningConfig.toDecimal (c : SwingScreeningConfig) : DecimalConfig :=
  ⟨c.decimals, c.accepted⟩

/-- `SwingScreeningConfig()`. -/
def SwingScreeningConfig.default : SwingScreeningConfig := ⟨.defaults, by decide +kernel⟩

/-- Every window of an accepted configuration fits in its history. -/
theorem DecimalConfig.fits (c : DecimalConfig) : c.required ≤ c.minimumHistoryBars := by
  have h := c.accepted
  unfold SwingScreeningValues.postInit at h
  split_ifs at h with _ _ _ hsafe
  exact not_lt.mp hsafe

/-! ## Scores -/

/-- `clamp_score`, of a finite value. -/
def clampScore (value : ℚ) : ℚ := min 100 (max 0 value)

def quantizeScore (value : ℚ) : ℚ := quantizeWith roundHalfUp 2 (clampScore value)

/-- `_finite`, of one value. -/
def finiteValue : DecimalValue → Except String ℚ
  | .finite value => .ok value
  | _ => .error "scores require finite Decimal values"

def highIsGood (value minimum maximum : DecimalValue) : Except String ℚ := do
  let value ← finiteValue value
  let minimum ← finiteValue minimum
  let maximum ← finiteValue maximum
  if maximum ≤ minimum then .error "maximum must exceed minimum"
  else .ok (quantizeScore ((value - minimum) / (maximum - minimum) * 100))

def lowIsGood (value best worst : DecimalValue) : Except String ℚ := do
  let value ← finiteValue value
  let best ← finiteValue best
  let worst ← finiteValue worst
  if worst ≤ best then .error "worst must exceed best"
  else .ok (quantizeScore ((worst - value) / (worst - best) * 100))

def triangularScore (value minimum ideal maximum : DecimalValue) : Except String ℚ := do
  let value ← finiteValue value
  let minimum ← finiteValue minimum
  let ideal ← finiteValue ideal
  let maximum ← finiteValue maximum
  if ¬ (minimum < ideal ∧ ideal < maximum) then .error "minimum < ideal < maximum is required"
  else if value ≤ ideal then highIsGood value minimum ideal
  else lowIsGood value ideal maximum

/-! ## Windows of bars -/

/-- `bars[-lookback - 1 : -1]`: the bars before the latest. -/
def priorBars (lookback : Nat) (bars : List DailyBarRecord) : List DailyBarRecord :=
  (trailing (lookback + 1) bars).dropLast

/-- `a / b if b else ZERO`. -/
def ratioOr0 (a b : ℚ) : ℚ := if b = 0 then 0 else a / b

def volumes (bars : List DailyBarRecord) : List ℚ := bars.map fun bar => (bar.volume : ℚ)

/-- `max(b.high for b in bars)`, of bars that are not empty. -/
def highestOf (bars : List DailyBarRecord) : ℚ := ((bars.map (·.high)).max?).getD 0

def lowestOf (bars : List DailyBarRecord) : ℚ := ((bars.map (·.low)).min?).getD 0

def peakCloseOf (bars : List DailyBarRecord) : ℚ := ((bars.map (·.close)).max?).getD 0

/-- `sum(values) / Decimal(count)`. -/
def meanOver (count : Nat) (values : List ℚ) : ℚ := values.sum / count

/-! ## The evaluations -/

structure Evaluation where
  passed : Bool
  setupScore : ℚ
  metrics : List (String × ℚ)
  rules : List (String × Bool)
deriving DecidableEq, Repr

/-- Where the history is too short for the setup. -/
def Evaluation.missing : Evaluation := ⟨false, 0, [], []⟩

def Evaluation.of (rules : List (String × Bool)) (metrics : List (String × ℚ)) (setupScore : ℚ) :
    Evaluation :=
  ⟨rules.all (·.2), setupScore, metrics, rules⟩

structure CommonEvaluation where
  passed : Bool
  reasons : List String
  metrics : List (String × ℚ)
deriving DecidableEq, Repr

/-- `i.sma20 is not None and i.sma60 is not None and i.sma20 > i.sma60`. -/
def upward (i : IndicatorSnapshot) : Bool :=
  match i.sma20, i.sma60 with
  | some sma20, some sma60 => sma60 < sma20
  | _, _ => false

/-- `average is not None and close > average`. -/
def above (close : ℚ) (average : Option ℚ) : Bool :=
  match average with
  | some average => average < close
  | none => false

/-- `i.ema20 or ZERO`, and the distance of a close from it. -/
def emaDistance (close : ℚ) (ema20 : Option ℚ) : ℚ :=
  if 0 < ema20.getD 0 then |close - ema20.getD 0| / ema20.getD 0 else 0

namespace SwingScreeningValues

open DecimalValue (comparable)

variable (c : SwingScreeningValues DecimalValue)

/-- The common filter of thresholds that are no NaN. -/
def commonOf (bars : List DailyBarRecord) (i : IndicatorSnapshot) : CommonEvaluation :=
  match bars.getLast? with
  | none => ⟨false, ["missing_target_bar"], []⟩
  | some latest =>
    let avg := if bars.length < 20 then 0
      else meanOver 20 ((trailing 20 bars).map fun b => b.close * b.volume)
    let atrPct : ℚ := match i.atr14 with
      | some atr14 => if 0 < latest.close then atr14 / latest.close else 0
      | none => 0
    let rules : List (String × Bool) :=
      [("insufficient_history", ¬ bars.length < c.minimumHistoryBars),
       ("invalid_price", c.minimumClose.le latest.close),
       ("zero_volume", 0 < latest.volume),
       ("missing_indicator", i.sma20.isSome && i.sma60.isSome && i.atr14.isSome),
       ("insufficient_liquidity", c.minimumAverageTradingValue20.le avg),
       ("excessive_volatility", DecimalValue.le atrPct c.maximumAtrPct)]
    let present (key : String) (value : Option ℚ) : List (String × ℚ) :=
      (value.map fun v => (key, v)).toList
    { passed := rules.all (·.2)
      reasons := (rules.filter fun rule => !rule.2).map (·.1)
      metrics := [("close", latest.close), ("latest_close", latest.close),
          ("average_trading_value_20", avg), ("atr_pct", atrPct)] ++
        present "sma20" i.sma20 ++ present "sma60" i.sma60 ++ present "ema20" i.ema20 ++
        present "atr14" i.atr14 }

/-- The thresholds of the common filter, which are compared where there is a bar. -/
def commonThresholds (bars : List DailyBarRecord) : List DecimalValue :=
  if bars = [] then [] else [c.minimumClose, c.minimumAverageTradingValue20, c.maximumAtrPct]

def common (bars : List DailyBarRecord) (i : IndicatorSnapshot) :
    Except String CommonEvaluation := do
  comparable (c.commonThresholds bars)
  return c.commonOf bars i

def box (bars : List DailyBarRecord) (i : IndicatorSnapshot) : Except String Evaluation :=
  let prior := priorBars c.boxLookback bars
  match bars.getLast? with
  | none => .ok .missing
  | some latest =>
    if prior.length < c.boxLookback then .ok .missing
    else do
      let hi := highestOf prior
      let lo := lowestOf prior
      let av := meanOver prior.length (volumes prior)
      let width := ratioOr0 (hi - lo) hi
      let breakout := ratioOr0 (latest.close - hi) hi
      let vr := ratioOr0 latest.volume av
      comparable ((if 0 < hi then [c.maximumBoxWidthPct] else []) ++
        [c.minimumBreakoutVolumeRatio])
      let rules : List (String × Bool) :=
        [("trend", upward i),
         ("above_sma20", above latest.close i.sma20),
         ("box_width", 0 < hi && DecimalValue.le width c.maximumBoxWidthPct),
         ("breakout", hi ≤ latest.close),
         ("volume", c.minimumBreakoutVolumeRatio.le vr),
         ("bullish", latest.open ≤ latest.close)]
      let narrow ← lowIsGood width (5 / 100 : ℚ) c.maximumBoxWidthPct
      let broken ← highIsGood breakout (0 : ℚ) c.maximumScoredBreakoutPct
      let traded ← highIsGood vr c.minimumBreakoutVolumeRatio c.maximumScoredVolumeRatio
      return .of rules
        [("previous_box_high", hi), ("previous_box_low", lo), ("box_width_pct", width),
          ("breakout_pct", breakout), ("previous_average_volume", av), ("volume_ratio", vr)]
        (quantizeScore (narrow * (35 / 100) + broken * (30 / 100) + traded * (35 / 100)))

def pullback (bars : List DailyBarRecord) (i : IndicatorSnapshot) : Except String Evaluation :=
  let prior := priorBars c.pullbackLookback bars
  match bars.getLast? with
  | none => .ok .missing
  | some latest =>
    if prior.length < c.pullbackLookback then .ok .missing
    else do
      let peak := peakCloseOf prior
      let depth := ratioOr0 (peak - latest.close) peak
      let ema := i.ema20.getD 0
      let dist := emaDistance latest.close i.ema20
      let av := meanOver prior.length (volumes prior)
      let short := meanOver c.pullbackVolumeLookback
        (volumes (trailing c.pullbackVolumeLookback prior))
      let vr := ratioOr0 short av
      let body := ratioOr0 (latest.close - latest.open) latest.open
      -- `bars[-2]` is there: the lookback is positive and `prior` is that long.
      let previousClose := ((priorBars 1 bars).map (·.close)).getLastD 0
      -- The upper bound of the depth is compared only where the lower one holds.
      comparable ([c.minimumPullbackDepthPct] ++
        (if c.minimumPullbackDepthPct.le depth then [c.maximumPullbackDepthPct] else []) ++
        [c.maximumEma20DistancePct, c.maximumPriorShortVolumeRatio])
      let rules : List (String × Bool) :=
        [("trend", upward i),
         ("above_sma60", above latest.close i.sma60),
         ("ema20", 0 < ema),
         ("depth", c.minimumPullbackDepthPct.le depth &&
            DecimalValue.le depth c.maximumPullbackDepthPct),
         ("ema_distance", DecimalValue.le dist c.maximumEma20DistancePct),
         ("sma20_band", match i.sma20 with
            | some sma20 => sma20 * (98 / 100) ≤ latest.close
            | none => false),
         ("rebound", previousClose < latest.close),
         ("bullish", latest.open ≤ latest.close),
         ("volume", DecimalValue.le vr c.maximumPriorShortVolumeRatio)]
      let deep ← triangularScore depth c.minimumPullbackDepthPct c.idealPullbackDepthPct
        c.maximumPullbackDepthPct
      let near ← lowIsGood dist (0 : ℚ) c.maximumEma20DistancePct
      let quiet ← lowIsGood vr c.bestPriorShortVolumeRatio c.maximumPriorShortVolumeRatio
      let rebound ← highIsGood body (0 : ℚ) c.maximumScoredReboundBodyPct
      return .of rules
        [("previous_peak_close", peak), ("pullback_depth_pct", depth),
          ("ema20_distance_pct", dist), ("prior_short_average_volume", short),
          ("previous_average_volume", av), ("prior_short_volume_ratio", vr),
          ("rebound_body_pct", body)]
        (quantizeScore (deep * (35 / 100) + near * (30 / 100) + quiet * (20 / 100) +
          rebound * (15 / 100)))

def contraction (bars : List DailyBarRecord) (i : IndicatorSnapshot) : Except String Evaluation :=
  let prior := priorBars c.contractionLongLookback bars
  match bars.getLast? with
  | none => .ok .missing
  | some latest =>
    if prior.length < c.contractionLongLookback ∨ bars.length < c.contractionLongLookback + 2 then
      .ok .missing
    else do
      let rng := trailing c.contractionRangeLookback prior
      let hi := highestOf rng
      let lo := lowestOf rng
      let rp := ratioOr0 (hi - lo) hi
      let trs := pairwise trueRange (priorBars (c.contractionLongLookback + 1) bars)
      let longtr := meanOver trs.length trs
      let shorttr := meanOver c.contractionShortLookback (trailing c.contractionShortLookback trs)
      let trr := ratioOr0 shorttr longtr
      let lv := meanOver prior.length (volumes prior)
      let sv := meanOver c.contractionShortLookback
        (volumes (trailing c.contractionShortLookback prior))
      let svr := ratioOr0 sv lv
      let bvr := ratioOr0 latest.volume lv
      comparable ((if 0 < hi then [c.maximumContractionRangePct] else []) ++
        (if 0 < longtr then [c.maximumTrueRangeContractionRatio] else []) ++
        (if 0 < lv then [c.contractionMaximumPriorShortVolumeRatio] else []) ++
        [c.minimumBreakoutVolumeRatio])
      let rules : List (String × Bool) :=
        [("trend", upward i),
         ("above_sma20", above latest.close i.sma20),
         ("range", 0 < hi && DecimalValue.le rp c.maximumContractionRangePct),
         ("true_range", 0 < longtr && DecimalValue.le trr c.maximumTrueRangeContractionRatio),
         ("volume_contraction",
          0 < lv && DecimalValue.le svr c.contractionMaximumPriorShortVolumeRatio),
         ("breakout", hi ≤ latest.close),
         ("breakout_volume", c.minimumBreakoutVolumeRatio.le bvr),
         ("bullish", latest.open ≤ latest.close)]
      let narrow ← lowIsGood rp (3 / 100 : ℚ) c.maximumContractionRangePct
      let calm ← lowIsGood trr c.bestTrueRangeContractionRatio c.maximumTrueRangeContractionRatio
      let quiet ← lowIsGood svr c.contractionBestPriorShortVolumeRatio
        c.contractionMaximumPriorShortVolumeRatio
      let traded ← highIsGood bvr c.minimumBreakoutVolumeRatio c.maximumScoredBreakoutVolumeRatio
      return .of rules
        [("previous_range_high", hi), ("previous_range_low", lo), ("contraction_range_pct", rp),
          ("prior_long_average_true_range", longtr), ("prior_short_average_true_range", shorttr),
          ("true_range_contraction_ratio", trr), ("prior_long_average_volume", lv),
          ("prior_short_average_volume", sv), ("prior_short_volume_ratio", svr),
          ("breakout_volume_ratio", bvr)]
        (quantizeScore (narrow * (30 / 100) + calm * (25 / 100) + quiet * (20 / 100) +
          traded * (25 / 100)))

end SwingScreeningValues

/-! ## The result -/

/-- A screening result; its dictionaries are lists of entries with distinct keys. -/
structure ScreeningResult where
  symbol : Symbol
  passed : Bool
  reasons : List String
  warnings : List String
  metrics : List (String × ℚ)
  matchedSetups : List Setup
  primarySetup : Option Setup
  setupScores : List (Setup × ℚ)
  setupMetrics : List (Setup × List (String × ℚ))
  ruleEvaluations : List (String × Bool)
deriving DecidableEq, Repr

/-- The evaluations of the three setups, in the order they are made. -/
structure Evaluations where
  box : Evaluation
  pullback : Evaluation
  contraction : Evaluation
deriving DecidableEq, Repr

def Evaluations.get (e : Evaluations) : Setup → Evaluation
  | .boxBreakout => e.box
  | .trendPullback => e.pullback
  | .volatilityContractionBreakout => e.contraction

/-- `min(matched, key=lambda name: (-scores[name], SETUP_ORDER.index(name)))`. -/
def primarySetupOf (score : Setup → ℚ) : List Setup → Option Setup
  | [] => none
  | setup :: rest =>
    match primarySetupOf score rest with
    | none => some setup
    | some other =>
      if score setup < score other ∨ (score setup = score other ∧ other.index < setup.index) then
        some other
      else some setup

def methods : List Setup := [.boxBreakout, .trendPullback, .volatilityContractionBreakout]

def resultOf (symbol : Symbol) (filter : CommonEvaluation) (e : Evaluations) : ScreeningResult :=
  let matched := Setup.order.filter fun setup => (e.get setup).passed && filter.passed
  { symbol
    passed := !matched.isEmpty
    reasons := filter.reasons
    warnings := []
    metrics := filter.metrics
    matchedSetups := matched
    primarySetup := primarySetupOf (fun setup => (e.get setup).setupScore) matched
    setupScores := matched.map fun setup => (setup, (e.get setup).setupScore)
    setupMetrics := methods.map fun setup => (setup, (e.get setup).metrics)
    ruleEvaluations := methods.flatMap fun setup =>
      (e.get setup).rules.map fun rule => (setup.name ++ ":" ++ rule.1, rule.2) }

/-- `bars[-1].symbol if bars else ""`. -/
def symbolOf (bars : List DailyBarRecord) : Symbol := (bars.getLast?.map (·.symbol)).getD ""

/-- `evaluate`, of any accepted configuration. -/
def DecimalConfig.evaluate (c : DecimalConfig) (bars : List DailyBarRecord)
    (i : IndicatorSnapshot) :
    Except String ScreeningResult := do
  let filter ← c.common bars i
  let box ← c.box bars i
  let pullback ← c.pullback bars i
  let contraction ← c.contraction bars i
  return resultOf (symbolOf bars) filter ⟨box, pullback, contraction⟩

/-! ## Finite configurations -/

section Finite

variable (c : SwingScreeningConfig) (bars : List DailyBarRecord) (i : IndicatorSnapshot)

/-- The common filter, which does not raise here. -/
def common : CommonEvaluation := c.decimals.commonOf bars i

def box : Except String Evaluation := c.decimals.box bars i

def pullback : Except String Evaluation := c.decimals.pullback bars i

def contraction : Except String Evaluation := c.decimals.contraction bars i

def evaluate : Except String ScreeningResult := c.toDecimal.evaluate bars i

theorem common_finite : c.decimals.common bars i = .ok (common c bars i) := by
  have hthresholds : DecimalValue.comparable (c.decimals.commonThresholds bars) = .ok () := by
    rw [DecimalValue.comparable_ok, SwingScreeningValues.commonThresholds]
    split_ifs
    · exact List.not_mem_nil
    · simp [SwingScreeningValues.decimals]
  rw [SwingScreeningValues.common, hthresholds]
  rfl

theorem evaluate_eq : evaluate c bars i = (do
    let box ← box c bars i
    let pullback ← pullback c bars i
    let contraction ← contraction c bars i
    return resultOf (symbolOf bars) (common c bars i) ⟨box, pullback, contraction⟩) := by
  have hfilter : c.toDecimal.common bars i = .ok (common c bars i) := common_finite c bars i
  rw [evaluate, DecimalConfig.evaluate, hfilter]
  rfl

theorem SwingScreeningConfig.fits : c.required ≤ c.minimumHistoryBars := c.toDecimal.fits

end Finite

end Screener.Market
