import Screener.Backtest.Independent

/-!
# The analysis of realized trades

`analyze_backtest_trades` reads the stored trades of a completed run in
`(exit_date, symbol, id)` order: totals, the realized curve with its streaks, and the
totals of each symbol, exit reason and month. Like the executors it is written for any
decimal context, its plain names for the one without a limit.
-/

namespace Screener.Backtest

open Screener.Lib
open Screener.Market (Date Symbol)

/-! ## The report -/

structure TradeStats where
  tradeCount : Nat
  winningTrades : Nat
  losingTrades : Nat
  breakevenTrades : Nat
  winRate : Option ℚ
  grossProfit : ℚ
  grossLoss : ℚ
  netProfit : ℚ
  averageTradePnl : Option ℚ
  averageHoldingDays : Option ℚ
  largestWin : Option ℚ
  largestLoss : Option ℚ
deriving DecidableEq, Repr

structure AnalysisSummary extends TradeStats where
  averageWin : Option ℚ
  averageLoss : Option ℚ
  profitFactor : Option ℚ
  maxConsecutiveWins : Nat
  maxConsecutiveLosses : Nat
  maxRealizedPnlDrawdown : ℚ
deriving DecidableEq, Repr

structure CumulativePoint where
  sequence : Nat
  tradeId : UUID
  exitDate : Date
  symbol : Symbol
  exitReason : BacktestExitReason
  netPnl : ℚ
  cumulativeNetPnl : ℚ
  runningPeak : ℚ
  realizedDrawdown : ℚ
  realizedDrawdownPct : Option ℚ
deriving DecidableEq, Repr

structure SymbolAnalysis extends TradeStats where
  symbol : Symbol
deriving DecidableEq, Repr

structure ExitReasonAnalysis where
  exitReason : BacktestExitReason
  tradeCount : Nat
  tradeShare : ℚ
  winningTrades : Nat
  losingTrades : Nat
  breakevenTrades : Nat
  winRate : Option ℚ
  netProfit : ℚ
  averageTradePnl : Option ℚ
  averageHoldingDays : Option ℚ
deriving DecidableEq, Repr

structure MonthAnalysis extends TradeStats where
  month : String
deriving DecidableEq, Repr

structure BacktestAnalysis where
  runId : UUID
  tradeCount : Nat
  summary : AnalysisSummary
  cumulativeRealizedPnl : List CumulativePoint
  bySymbol : List SymbolAnalysis
  byExitReason : List ExitReasonAnalysis
  byMonth : List MonthAnalysis
deriving DecidableEq, Repr

/-! ## Totals -/

namespace DecimalContext

variable (c : DecimalContext)

/-- `value / count if count else None`. -/
def perTrade (value : ℚ) (count : Nat) : Option ℚ :=
  if count = 0 then none else some (c.round (value / count))

/-- `_stats`. -/
def tradeStats (trades : List BacktestTrade) : TradeStats :=
  let wins := (trades.filter (·.netPnl > 0)).map (·.netPnl)
  let losses := (trades.filter (·.netPnl < 0)).map (·.netPnl)
  let count := trades.length
  let net := c.sum (trades.map (·.netPnl))
  { tradeCount := count
    winningTrades := wins.length
    losingTrades := losses.length
    breakevenTrades := count - wins.length - losses.length
    winRate := c.perTrade wins.length count
    grossProfit := c.sum wins
    grossLoss := c.sum losses
    netProfit := net
    averageTradePnl := c.perTrade net count
    averageHoldingDays := c.perTrade (c.sum (trades.map fun t => (t.holdingDays : ℚ))) count
    largestWin := wins.max?
    largestLoss := losses.min? }

end DecimalContext

def tradeStats (trades : List BacktestTrade) : TradeStats :=
  DecimalContext.unlimited.tradeStats trades

/-- `_groups`: the keys in the order of their first trades. -/
def groups {κ : Type} [DecidableEq κ] (key : BacktestTrade → κ) (trades : List BacktestTrade) :
    Dict κ (List BacktestTrade) :=
  trades.foldl (fun output t => output.set (key t) (output.getD (key t) [] ++ [t])) Dict.empty

/-! ## The realized curve -/

/-- The locals of the loop. -/
structure RealizedCurve where
  cumulative : ℚ
  peak : ℚ
  maxDrawdown : ℚ
  points : List CumulativePoint
  currentWins : Nat
  currentLosses : Nat
  maxWins : Nat
  maxLosses : Nat
deriving DecidableEq, Repr

def RealizedCurve.start : RealizedCurve := ⟨0, 0, 0, [], 0, 0, 0, 0⟩

def DecimalContext.realizedStep (c : DecimalContext) (s : RealizedCurve) (trade : BacktestTrade) :
    RealizedCurve :=
  let cumulative := c.round (s.cumulative + trade.netPnl)
  let peak := max s.peak cumulative
  let drawdown := c.round (peak - cumulative)
  let point : CumulativePoint :=
    { sequence := s.points.length + 1
      tradeId := trade.id
      exitDate := trade.exitDate
      symbol := trade.symbol
      exitReason := trade.exitReason
      netPnl := trade.netPnl
      cumulativeNetPnl := cumulative
      runningPeak := peak
      realizedDrawdown := drawdown
      realizedDrawdownPct := if peak > 0 then some (c.round (drawdown / peak)) else none }
  let s := { s with cumulative, peak, maxDrawdown := max s.maxDrawdown drawdown,
                    points := s.points ++ [point] }
  if trade.netPnl > 0 then
    { s with currentWins := s.currentWins + 1, currentLosses := 0,
             maxWins := max s.maxWins (s.currentWins + 1) }
  else if trade.netPnl < 0 then
    { s with currentLosses := s.currentLosses + 1, currentWins := 0,
             maxLosses := max s.maxLosses (s.currentLosses + 1) }
  else { s with currentWins := 0, currentLosses := 0 }

def RealizedCurve.step (s : RealizedCurve) (trade : BacktestTrade) : RealizedCurve :=
  DecimalContext.unlimited.realizedStep s trade

/-! ## The analysis -/

/-- `key=lambda t: (t.exit_date, t.symbol, t.id)`. -/
def realizedOrder (t u : BacktestTrade) : Prop :=
  t.exitDate < u.exitDate ∨ (t.exitDate = u.exitDate ∧ (t.symbol < u.symbol ∨
    (t.symbol = u.symbol ∧ t.id ≤ u.id)))

instance : DecidableRel realizedOrder := fun t u => by unfold realizedOrder; infer_instance

/-- The members of `BacktestExitReason` in the order of their definition. -/
def exitReasons : List BacktestExitReason :=
  [.stopLoss, .takeProfit, .maxHoldingDays, .endOfPeriod, .noEntryBar, .insufficientPositionSize]

/-- `exit_date.strftime("%Y-%m")`. -/
def monthOf (date : Date) : String :=
  let (year, month, _) := CivilDate.ofOrdinal date
  toString year ++ "-" ++ CivilDate.pad 2 month

namespace DecimalContext

variable (c : DecimalContext)

def analysisSummary (stats : TradeStats) (curve : RealizedCurve) : AnalysisSummary :=
  { stats with
    averageWin := c.perTrade stats.grossProfit stats.winningTrades
    averageLoss := c.perTrade stats.grossLoss stats.losingTrades
    profitFactor := if stats.grossLoss = 0 then none else
      some (c.round (stats.grossProfit / c.round |stats.grossLoss|))
    maxConsecutiveWins := curve.maxWins
    maxConsecutiveLosses := curve.maxLosses
    maxRealizedPnlDrawdown := curve.maxDrawdown }

/-- Sorted by symbol, then by net profit from the highest; both sorts are stable. -/
def symbolRows (ordered : List BacktestTrade) : List SymbolAnalysis :=
  (((groups (·.symbol) ordered).entries.map fun group =>
      ({ c.tradeStats group.2 with symbol := group.1 } : SymbolAnalysis)).insertionSort
    fun a b => a.symbol ≤ b.symbol).insertionSort fun a b => b.netProfit ≤ a.netProfit

def exitReasonRow (tradeCount : Nat) (exitReason : BacktestExitReason)
    (group : List BacktestTrade) : ExitReasonAnalysis :=
  let item := c.tradeStats group
  { exitReason
    tradeCount := item.tradeCount
    tradeShare := c.round (item.tradeCount / tradeCount)
    winningTrades := item.winningTrades
    losingTrades := item.losingTrades
    breakevenTrades := item.breakevenTrades
    winRate := item.winRate
    netProfit := item.netProfit
    averageTradePnl := item.averageTradePnl
    averageHoldingDays := item.averageHoldingDays }

def exitReasonRows (tradeCount : Nat) (ordered : List BacktestTrade) : List ExitReasonAnalysis :=
  exitReasons.filterMap fun reason =>
    ((groups (·.exitReason) ordered).get? reason).map (c.exitReasonRow tradeCount reason)

def monthRows (ordered : List BacktestTrade) : List MonthAnalysis :=
  ((groups (fun t => monthOf t.exitDate) ordered).entries.map fun group =>
      ({ c.tradeStats group.2 with month := group.1 } : MonthAnalysis)).insertionSort
    fun a b => a.month ≤ b.month

def analyzeBacktestTrades (runId : UUID) (trades : List BacktestTrade) : BacktestAnalysis :=
  let ordered := trades.insertionSort realizedOrder
  let stats := c.tradeStats ordered
  let curve := ordered.foldl c.realizedStep RealizedCurve.start
  { runId
    tradeCount := stats.tradeCount
    summary := c.analysisSummary stats curve
    cumulativeRealizedPnl := curve.points
    bySymbol := c.symbolRows ordered
    byExitReason := c.exitReasonRows stats.tradeCount ordered
    byMonth := c.monthRows ordered }

end DecimalContext

def symbolRows (ordered : List BacktestTrade) : List SymbolAnalysis :=
  DecimalContext.unlimited.symbolRows ordered

def exitReasonRow (tradeCount : Nat) (exitReason : BacktestExitReason)
    (group : List BacktestTrade) : ExitReasonAnalysis :=
  DecimalContext.unlimited.exitReasonRow tradeCount exitReason group

def exitReasonRows (tradeCount : Nat) (ordered : List BacktestTrade) : List ExitReasonAnalysis :=
  DecimalContext.unlimited.exitReasonRows tradeCount ordered

def monthRows (ordered : List BacktestTrade) : List MonthAnalysis :=
  DecimalContext.unlimited.monthRows ordered

def analyzeBacktestTrades (runId : UUID) (trades : List BacktestTrade) : BacktestAnalysis :=
  DecimalContext.unlimited.analyzeBacktestTrades runId trades

end Screener.Backtest
