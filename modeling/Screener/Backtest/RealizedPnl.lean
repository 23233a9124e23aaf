import Screener.Backtest.SummaryAgreement
import Screener.Lib.RunningPeak

/-!
# The realized curve in closed form

The loop of `analyze_backtest_trades` keeps seven numbers at once. The P&L side is a
running peak, the counts are two streaks, and the order in which trades come in is sorted
away.
-/

namespace Screener.Backtest

open Screener.Lib
open Screener.Market (Date Symbol)

/-! ## The loop -/

abbrev nets (trades : List BacktestTrade) : List ℚ := trades.map (·.netPnl)

abbrev curveOf (ordered : List BacktestTrade) : RealizedCurve :=
  ordered.foldl RealizedCurve.step RealizedCurve.start

def RealizedCurve.pnl (s : RealizedCurve) : Peak ℚ := ⟨s.cumulative, s.peak, s.maxDrawdown⟩

theorem RealizedCurve.step_pnl (s : RealizedCurve) (t : BacktestTrade) :
    (s.step t).pnl = s.pnl.next t.netPnl := by
  unfold RealizedCurve.step DecimalContext.realizedStep
  split_ifs <;> rfl

theorem curveOf_concat (ordered : List BacktestTrade) (t : BacktestTrade) :
    curveOf (ordered ++ [t]) = (curveOf ordered).step t := by
  rw [curveOf, List.foldl_append]
  rfl

theorem curveOf_pnl (ordered : List BacktestTrade) :
    (curveOf ordered).pnl = Peak.of (nets ordered) := by
  induction ordered using List.reverseRecOn with
  | nil => rfl
  | append_singleton ordered t ih =>
    rw [curveOf_concat, RealizedCurve.step_pnl, ih, nets, nets, List.map_append]
    exact (Peak.of_concat _ _).symm

/-! ## The points -/

/-- The point after the trades `upTo`, the last of which is `t`. -/
structure PointAfter (upTo : List BacktestTrade) (t : BacktestTrade) (point : CumulativePoint) :
    Prop where
  sequence : point.sequence = upTo.length
  trade : point.tradeId = t.id ∧ point.exitDate = t.exitDate ∧ point.symbol = t.symbol ∧
    point.exitReason = t.exitReason ∧ point.netPnl = t.netPnl
  cumulative : point.cumulativeNetPnl = (nets upTo).sum
  peak : IsGreatest (partialSums (nets upTo)) point.runningPeak
  drawdown : point.realizedDrawdown = point.runningPeak - point.cumulativeNetPnl
  drawdown_nonneg : 0 ≤ point.realizedDrawdown

/-- What one step writes down. -/
theorem RealizedCurve.step_points (s : RealizedCurve) (t : BacktestTrade) :
    ∃ point : CumulativePoint, (s.step t).points = s.points ++ [point] ∧
      point.sequence = s.points.length + 1 ∧
      (point.tradeId = t.id ∧ point.exitDate = t.exitDate ∧ point.symbol = t.symbol ∧
        point.exitReason = t.exitReason ∧ point.netPnl = t.netPnl) ∧
      point.cumulativeNetPnl = (s.step t).cumulative ∧ point.runningPeak = (s.step t).peak ∧
      point.realizedDrawdown = (s.step t).peak - (s.step t).cumulative := by
  unfold RealizedCurve.step DecimalContext.realizedStep
  split_ifs <;> exact ⟨_, rfl, rfl, ⟨rfl, rfl, rfl, rfl, rfl⟩, rfl, rfl, rfl⟩

theorem curveOf_points_concat (ordered : List BacktestTrade) (t : BacktestTrade)
    (hlength : (curveOf ordered).points.length = ordered.length) :
    ∃ point, (curveOf (ordered ++ [t])).points = (curveOf ordered).points ++ [point] ∧
      PointAfter (ordered ++ [t]) t point := by
  obtain ⟨point, hpoints, hsequence, htrade, hcumulative, hpeak, hdrawdown⟩ :=
    (curveOf ordered).step_points t
  rw [← curveOf_concat] at hpoints hcumulative hpeak hdrawdown
  have hpnl := curveOf_pnl (ordered ++ [t])
  have htotal : (curveOf (ordered ++ [t])).cumulative = (nets (ordered ++ [t])).sum :=
    (congrArg Peak.total hpnl).trans (Peak.of_total _)
  have hhigh : (curveOf (ordered ++ [t])).peak = (Peak.of (nets (ordered ++ [t]))).high :=
    congrArg Peak.high hpnl
  have hle : (curveOf (ordered ++ [t])).cumulative ≤ (curveOf (ordered ++ [t])).peak := by
    rw [htotal, hhigh, ← Peak.of_total]
    exact Peak.total_le_high _
  refine ⟨point, hpoints, ?_⟩
  constructor
  case sequence => rw [hsequence, hlength, List.length_append, List.length_singleton]
  case trade => exact htrade
  case cumulative => rw [hcumulative, htotal]
  case peak =>
    rw [hpeak, hhigh]
    exact Peak.of_high _
  case drawdown => rw [hdrawdown, hpeak, hcumulative]
  case drawdown_nonneg =>
    rw [hdrawdown]
    exact sub_nonneg.mpr hle

/-- One point for each trade, in the order of the trades. -/
structure PointsFollow (ordered : List BacktestTrade) (points : List CumulativePoint) : Prop where
  length : points.length = ordered.length
  point : ∀ k t, ordered[k]? = some t →
    ∃ point, points[k]? = some point ∧ PointAfter (ordered.take (k + 1)) t point

theorem curveOf_points (ordered : List BacktestTrade) :
    PointsFollow ordered (curveOf ordered).points := by
  induction ordered using List.reverseRecOn with
  | nil => exact ⟨rfl, fun k t ht => by simp at ht⟩
  | append_singleton ordered t ih =>
    obtain ⟨last, hpoints, hlast⟩ := curveOf_points_concat ordered t ih.length
    rw [hpoints]
    constructor
    case length =>
      rw [List.length_append, List.length_append, ih.length]
      rfl
    case point =>
      apply forall_getElem?_concat
      · intro k u hu
        obtain ⟨point, hpoint, hafter⟩ := ih.point k u hu
        have hk : k < (curveOf ordered).points.length := (List.getElem?_eq_some_iff.mp hpoint).1
        refine ⟨point, ?_, ?_⟩
        · rw [List.getElem?_append_left hk, hpoint]
        · rw [List.take_append_of_le_length (by rw [← ih.length]; omega)]
          exact hafter
      · refine ⟨last, ?_, ?_⟩
        · rw [← ih.length, List.getElem?_concat_length]
        · rw [List.take_of_length_le (by simp)]
          exact hlast

/-! ## The streaks -/

/-- The length of the longest block of neighbours that all pass. -/
def LongestBlock (ordered : List BacktestTrade) (passes : BacktestTrade → Prop) (n : Nat) : Prop :=
  IsGreatest {n | ∃ block, block <:+: ordered ∧ (∀ t ∈ block, passes t) ∧ block.length = n} n

theorem longestBlock_longest {ordered : List BacktestTrade} {p : SignType → Bool}
    {passes : BacktestTrade → Prop} (hp : ∀ t, p (BacktestTrade.outcome t) = true ↔ passes t) :
    LongestBlock ordered passes (Streak.of p (ordered.map (·.outcome))).longest := by
  have h := Streak.isGreatest_longest (fun t : BacktestTrade => p t.outcome) ordered
  simp only [Streak.IsRun, hp, and_assoc] at h
  rw [Streak.of_map]
  exact h

theorem isWin_outcome (t : BacktestTrade) : isWin t.outcome = true ↔ 0 < t.netPnl := by
  rw [isWin, decide_eq_true_iff]
  exact sign_eq_one_iff

theorem isLoss_outcome (t : BacktestTrade) : isLoss t.outcome = true ↔ t.netPnl < 0 := by
  rw [isLoss, decide_eq_true_iff]
  exact sign_eq_neg_one_iff

/-! ## The analysis -/

/-- What the analysis says of the trades in order. -/
structure RealizedAnalysis (ordered : List BacktestTrade) (analysis : BacktestAnalysis) : Prop where
  points : PointsFollow ordered analysis.cumulativeRealizedPnl
  drawdown : IsGreatest (falls (nets ordered)) analysis.summary.maxRealizedPnlDrawdown
  wins : LongestBlock ordered (fun t => 0 < t.netPnl) analysis.summary.maxConsecutiveWins
  losses : LongestBlock ordered (fun t => t.netPnl < 0) analysis.summary.maxConsecutiveLosses

theorem analyzeBacktestTrades_realized (runId : UUID) (trades : List BacktestTrade) :
    RealizedAnalysis (trades.insertionSort realizedOrder) (analyzeBacktestTrades runId trades) := by
  have hpnl := curveOf_pnl (trades.insertionSort realizedOrder)
  obtain ⟨hwins, hlosses⟩ := realized_streaks .unlimited runId trades
  rw [analyzeBacktestTrades]
  constructor
  case points => exact curveOf_points _
  case drawdown =>
    have hfall := Peak.of_fall (nets (trades.insertionSort realizedOrder))
    rw [← hpnl] at hfall
    exact hfall
  case wins =>
    rw [hwins]
    exact longestBlock_longest isWin_outcome
  case losses =>
    rw [hlosses]
    exact longestBlock_longest isLoss_outcome

/-- **The realized curve.** In strict `(exit_date, symbol, id)` order, each point carries
the sum so far, the highest sum so far and the distance between them; the summary carries
the deepest fall and the longest streaks. No order of the input changes any of it. -/
theorem realizedPnl_specification (runId : UUID) {trades : List BacktestTrade}
    (hids : (trades.map (·.id)).Nodup) :
    (∃ ordered : List BacktestTrade, ordered.Perm trades ∧
        (ordered.Pairwise fun t u => realizedKey t < realizedKey u) ∧
        RealizedAnalysis ordered (analyzeBacktestTrades runId trades)) ∧
      ∀ other : List BacktestTrade, other.Perm trades →
        analyzeBacktestTrades runId other = analyzeBacktestTrades runId trades := by
  refine ⟨⟨_, List.perm_insertionSort realizedOrder trades, realizedOrder_strict hids,
    analyzeBacktestTrades_realized runId trades⟩, ?_⟩
  intro other hperm
  rw [analyzeBacktestTrades, DecimalContext.analyzeBacktestTrades,
    insertionSort_realizedOrder_perm hids hperm]
  rfl

/-- Three exits of one day, not in order. -/
def sameDayTrades : List BacktestTrade :=
  [plainTrade 2 "B" 1 3 (-2), plainTrade 1 "A" 1 3 5, plainTrade 3 "A" 2 3 (-4)]

theorem realizedPnl_specification_sameDay :
    (∃ ordered : List BacktestTrade, ordered.Perm sameDayTrades ∧
        (ordered.Pairwise fun t u => realizedKey t < realizedKey u) ∧
        RealizedAnalysis ordered (analyzeBacktestTrades 1 sameDayTrades)) ∧
      ∀ other : List BacktestTrade, other.Perm sameDayTrades →
        analyzeBacktestTrades 1 other = analyzeBacktestTrades 1 sameDayTrades :=
  realizedPnl_specification 1 (by decide)

end Screener.Backtest
