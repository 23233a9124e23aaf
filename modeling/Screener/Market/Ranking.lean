import Screener.Lib.DecimalText
import Screener.Market.Screening
import Mathlib.Data.List.Sort

/-!
# Scoring and ranking of passing results

`SwingCandidateRanker.rank`: a batch is validated, each result scored from its
metrics and its best matched setup, and the candidates ordered by score with
the ties broken by setup and symbol.
-/

namespace Screener.Market

open Screener.Lib

structure RankedCandidate where
  symbol : Symbol
  rank : Nat
  totalScore : ℚ
  componentScores : List (String × ℚ)
  sourceResult : ScreeningResult
  warnings : List String
deriving DecidableEq, Repr

/-- `not text.strip()`. -/
def blank (text : String) : Bool := DecimalText.strip text.toList = []

/-- `_validate_request`: the first offending result decides the message. -/
def validateRequest : List Symbol → List ScreeningResult → Except String Unit
  | _, [] => .ok ()
  | seen, result :: rest =>
    if result.passed = false then
      .error ("screening result for '" ++ result.symbol ++ "' did not pass")
    else if blank result.symbol then .error "screening result symbol must not be blank"
    else if result.symbol ∈ seen then .error ("duplicate symbol: " ++ result.symbol)
    else validateRequest (result.symbol :: seen) rest

/-- `_linear_score`. -/
def linearScore (value minimum maximum : ℚ) : ℚ :=
  if value ≤ minimum then 0
  else if maximum ≤ value then 100
  else quantizeScore ((value - minimum) / (maximum - minimum) * 100)

/-- `metrics.get(name, ZERO)`. -/
def metricOr0 (metrics : List (String × ℚ)) (name : String) : ℚ := (metrics.lookup name).getD 0

def trendScore (metrics : List (String × ℚ)) : ℚ :=
  let sma20 := metricOr0 metrics "sma20"
  let sma60 := metricOr0 metrics "sma60"
  linearScore (if 0 < sma60 then (sma20 - sma60) / sma60 else 0) 0 (20 / 100)

def liquidityScore (threshold : ℚ) (metrics : List (String × ℚ)) : ℚ :=
  let value := metricOr0 metrics "average_trading_value_20"
  linearScore (if 0 < threshold then value / threshold else 0) 1 5

def volatilityScore (metrics : List (String × ℚ)) : ℚ :=
  let atr := metricOr0 metrics "atr_pct"
  if atr ≤ 1 / 100 ∨ 12 / 100 ≤ atr then 0
  else if atr < 3 / 100 then linearScore atr (1 / 100) (3 / 100)
  else if atr ≤ 6 / 100 then 100
  else quantizeScore ((12 / 100 - atr) / (6 / 100) * 100)

/-- The best score among the matched setups. -/
def setupScoreOf (result : ScreeningResult) : ℚ :=
  ((result.matchedSetups.map fun setup => (result.setupScores.lookup setup).getD 0).max?).getD 0

variable (c : SwingScreeningConfig)

def scoreSwing (result : ScreeningResult) : RankedCandidate :=
  let trend := trendScore result.metrics
  let setup := setupScoreOf result
  let liquidity := liquidityScore c.minimumAverageTradingValue20 result.metrics
  let volatility := volatilityScore result.metrics
  { symbol := result.symbol
    rank := 1
    totalScore := quantizeScore (trend * (25 / 100) + setup * (45 / 100) +
      liquidity * (15 / 100) + volatility * (15 / 100))
    componentScores := [("trend", trend), ("setup", setup), ("liquidity", liquidity),
      ("volatility", volatility)]
    sourceResult := result
    warnings := result.warnings }

/-- The components of the sort key, each smaller first. -/
def sortKey (candidate : RankedCandidate) : ℚ × ℚ × Nat × Symbol :=
  (-candidate.totalScore, -metricOr0 candidate.componentScores "setup",
    (candidate.sourceResult.primarySetup.getD .trendPullback).index, candidate.symbol)

def rankedBefore (a b : RankedCandidate) : Prop :=
  let x := sortKey a
  let y := sortKey b
  x.1 < y.1 ∨ (x.1 = y.1 ∧ (x.2.1 < y.2.1 ∨ (x.2.1 = y.2.1 ∧ (x.2.2.1 < y.2.2.1 ∨
    (x.2.2.1 = y.2.2.1 ∧ x.2.2.2 ≤ y.2.2.2)))))

instance : DecidableRel rankedBefore := fun a b => by unfold rankedBefore; infer_instance

def rank (results : List ScreeningResult) : Except String (List RankedCandidate) := do
  validateRequest [] results
  return (((results.map (scoreSwing c)).insertionSort rankedBefore).zipIdx 1).map
    fun entry => { entry.1 with rank := entry.2 }

/-- The total score of one passing result, ranked alone. -/
theorem rank_singleton {result : ScreeningResult} (hpassed : result.passed = true)
    (hsymbol : blank result.symbol = false) :
    rank c [result] = .ok [scoreSwing c result] := by
  simp [rank, validateRequest, hpassed, hsymbol, bind, Except.bind, pure, Except.pure, scoreSwing]

end Screener.Market
