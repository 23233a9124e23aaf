import Screener.Backtest.Portfolio
import Mathlib.Tactic.Ring

/-!
# The portfolio executor in exact arithmetic

The executor in the context without a limit, under the plain names, and each of its steps
written out: no result is rounded but where the source quantizes, and nothing raises for
the size of an amount.
-/

namespace Screener.Backtest

open Screener.Lib
open Screener.Market (Date Symbol DailyBarRecord)

/-! ## The values of a state -/

def OpenPosition.cost (p : OpenPosition) : ℚ := p.entryPrice * p.quantity + p.buyCommission

def OpenPosition.marketValue (p : OpenPosition) : ℚ := p.lastClose * p.quantity

namespace PortfolioState

def market (s : PortfolioState) : ℚ := s.positions.sum fun _ p => p.marketValue

def costs (s : PortfolioState) : ℚ := s.positions.sum fun _ p => p.cost

def unrealized (s : PortfolioState) : ℚ := s.positions.sum fun _ p => p.marketValue - p.cost

def equity (s : PortfolioState) : ℚ := s.cash + s.market

end PortfolioState

namespace DecimalContext

theorem unlimited_market (s : PortfolioState) : unlimited.market s = s.market := by
  rw [market, unlimited_sum, Dict.values, List.map_map]
  rfl

theorem unlimited_unrealized (s : PortfolioState) : unlimited.unrealized s = s.unrealized := by
  rw [unrealized, unlimited_sum, Dict.values, List.map_map]
  rfl

theorem unlimited_equity (s : PortfolioState) : unlimited.equity s = s.equity := by
  rw [equity, unlimited_market, PortfolioState.equity]
  rfl

end DecimalContext

/-! ## Sizing and exit rules -/

def decrementUntilAffordable (price commissionRate allowed : ℚ) (quantity : Nat) : Nat :=
  DecimalContext.unlimited.decrementUntilAffordable price commissionRate allowed quantity

theorem decrementUntilAffordable_succ (price commissionRate allowed : ℚ) (quantity : Nat) :
    decrementUntilAffordable price commissionRate allowed (quantity + 1) =
      if price * (quantity + 1 : Nat) * (1 + commissionRate) > allowed then
        decrementUntilAffordable price commissionRate allowed quantity
      else quantity + 1 := rfl

def affordableQuantity (target cash buffer price commissionRate : ℚ) :
    Nat × Option PortfolioSkipReason :=
  DecimalContext.unlimited.affordableQuantity target cash buffer price commissionRate

theorem affordableQuantity_eq (target cash buffer price commissionRate : ℚ) :
    affordableQuantity target cash buffer price commissionRate =
      if price ≤ 0 then (0, some .invalidPrice)
      else
        let spendable := cash - buffer
        if spendable ≤ 0 then (0, some .minimumCashBuffer)
        else
          let allowed := min target spendable
          let quantity := decrementUntilAffordable price commissionRate allowed
            (roundDown (allowed / price)).toNat
          if quantity = 0 then
            (0, some (if allowed < price then .quantityZero else .insufficientCash))
          else (quantity, none) := rfl

def exitTerms (position : OpenPosition) (bar : DailyBar) (p : BacktestParameters) (final : Bool) :
    Option (BacktestExitReason × ℚ) :=
  DecimalContext.unlimited.exitTerms position bar p final

theorem exitTerms_unfold (position : OpenPosition) (bar : DailyBar) (p : BacktestParameters)
    (final : Bool) :
    exitTerms position bar p final =
      if final then some (.endOfPeriod, bar.close)
      else
        let stop := position.entryPrice * (1 - p.stopLossPct)
        let target := position.entryPrice * (1 + p.takeProfitPct)
        if bar.open ≤ stop ∨ bar.low ≤ stop then
          some (.stopLoss, if bar.open ≤ stop then bar.open else stop)
        else if bar.open ≥ target ∨ bar.high ≥ target then
          some (.takeProfit, if bar.open ≥ target then bar.open else target)
        else if (position.holdingDays : ℤ) ≥ p.maxHoldingDays then
          some (.maxHoldingDays, bar.close)
        else none := rfl

/-! ## The events of a day -/

section Sale

variable (c : Context) (ledger : Ledger) (symbol : Symbol) (position : OpenPosition) (day : Date)
  (rawExit : ℚ) (reason : BacktestExitReason)

def closePosition : Ledger :=
  DecimalContext.unlimited.soldLedger c ledger symbol position day rawExit reason

/-- What a sale brings in: the notional less its commission and tax. -/
def proceeds : ℚ :=
  let sellNotional := rawExit * (1 - c.p.trading.slippageRate) * position.quantity
  sellNotional - sellNotional * c.p.trading.commissionRate - sellNotional * c.p.trading.sellTaxRate

/-- The unrounded profit a sale books. -/
def netProfit : ℚ :=
  let sellNotional := rawExit * (1 - c.p.trading.slippageRate) * position.quantity
  (rawExit * (1 - c.p.trading.slippageRate) - position.entryPrice) * position.quantity -
    (position.buyCommission + sellNotional * c.p.trading.commissionRate) -
    sellNotional * c.p.trading.sellTaxRate

@[simp] theorem closePosition_cash :
    (closePosition c ledger symbol position day rawExit reason).state.cash =
      ledger.state.cash + proceeds c position rawExit := rfl

@[simp] theorem closePosition_realizedPnl :
    (closePosition c ledger symbol position day rawExit reason).state.realizedPnl =
      ledger.state.realizedPnl + netProfit c position rawExit := rfl

@[simp] theorem closePosition_positions :
    (closePosition c ledger symbol position day rawExit reason).state.positions =
      ledger.state.positions.erase symbol := rfl

@[simp] theorem closePosition_journal :
    (closePosition c ledger symbol position day rawExit reason).journal =
      ledger.journal ++ [.closed day position reason (netProfit c position rawExit)
        (closePosition c ledger symbol position day rawExit reason).state] := rfl

theorem closePosition_eq :
    closePosition c ledger symbol position day rawExit reason =
      let exitPrice := rawExit * (1 - c.p.trading.slippageRate)
      let sellNotional := exitPrice * position.quantity
      let sellCommission := sellNotional * c.p.trading.commissionRate
      let tax := sellNotional * c.p.trading.sellTaxRate
      let gross := (exitPrice - position.entryPrice) * position.quantity
      let commission := position.buyCommission + sellCommission
      let net := gross - commission - tax
      let slippage :=
        ((position.entryPrice - position.entryRawPrice) + (rawExit - exitPrice)) * position.quantity
      let after : PortfolioState :=
        { ledger.state with
          cash := ledger.state.cash + (sellNotional - sellCommission - tax)
          realizedPnl := ledger.state.realizedPnl + net
          positions := ledger.state.positions.erase symbol }
      let trade : BacktestTrade :=
        { id := c.uuid4 ledger.drawnIds
          runId := c.run.id
          symbol
          signalDate := position.signal.signalDate
          entryDate := position.entryDate
          entryPrice := quantize position.entryPrice
          quantity := position.quantity
          exitDate := day
          exitPrice := quantize exitPrice
          exitReason := reason
          grossPnl := quantize gross
          commission := quantize commission
          tax := quantize tax
          slippageCost := quantize slippage
          netPnl := quantize net
          holdingDays := position.holdingDays }
      { ledger with
        state := after
        trades := ledger.trades ++ [trade]
        journal := ledger.journal ++ [.closed day position reason net after] } := rfl

/-- A sale books exactly what it brings in beyond the cost it removes. -/
theorem netProfit_eq : netProfit c position rawExit =
    proceeds c position rawExit - position.cost := by
  simp only [netProfit, proceeds, OpenPosition.cost]
  ring

end Sale

variable (c : Context)

def exitOne (day : Date) (bars : Dict Symbol DailyBar) (final : Bool) (ledger : Ledger)
    (symbol : Symbol) : Except ExecutionError Ledger :=
  DecimalContext.unlimited.exitOne c day bars final ledger symbol

def sizeEntry (state : PortfolioState) (symbol : Symbol) (effective : ℚ) :
    Nat × Option PortfolioSkipReason :=
  DecimalContext.unlimited.sizeEntry c state symbol effective

theorem sizeEntry_eq (state : PortfolioState) (symbol : Symbol) (effective : ℚ) :
    sizeEntry c state symbol effective =
      match slotSkip c state symbol with
      | some reason => (0, some reason)
      | none =>
        affordableQuantity (state.equity * c.p.positionSizePct) state.cash
          (c.p.initialCapital * c.p.minimumCashBufferPct) effective c.p.trading.commissionRate := by
  rw [sizeEntry, DecimalContext.sizeEntry, DecimalContext.unlimited_equity]
  rfl

/-- The effective price of a buy at the open. -/
def effectivePrice (bar : DailyBar) : ℚ := bar.open * (1 + c.p.trading.slippageRate)

/-- `required`: the notional with its commission. -/
def requiredCash (effective : ℚ) (quantity : Nat) : ℚ :=
  effective * quantity + effective * quantity * c.p.trading.commissionRate

def openPosition (ledger : Ledger) (signal : BacktestSignal) (day : Date) (bar : DailyBar)
    (quantity : Nat) : Ledger :=
  DecimalContext.unlimited.openPosition c ledger signal day bar quantity

theorem openPosition_eq (ledger : Ledger) (signal : BacktestSignal) (day : Date) (bar : DailyBar)
    (quantity : Nat) :
    openPosition c ledger signal day bar quantity =
      let effective := effectivePrice c bar
      let commission := effective * quantity * c.p.trading.commissionRate
      let position : OpenPosition :=
        { signal
          entryDate := day
          entryRawPrice := bar.open
          entryPrice := effective
          quantity
          buyCommission := commission
          lastClose := effective
          holdingDays := 0 }
      let after : PortfolioState :=
        { ledger.state with
          cash := ledger.state.cash - requiredCash c effective quantity
          positions := ledger.state.positions.set signal.symbol position }
      { ledger with
        state := after
        maximumOpen := max ledger.maximumOpen after.positions.size
        journal := ledger.journal ++ [.opened day position ledger.state after] } := rfl

def enterOne (day : Date) (bars : Dict Symbol DailyBar) (ledger : Ledger)
    (signal : BacktestSignal) : Except ExecutionError Ledger :=
  DecimalContext.unlimited.enterOne c day bars ledger signal

theorem enterOne_eq (day : Date) (bars : Dict Symbol DailyBar) (ledger : Ledger)
    (signal : BacktestSignal) :
    enterOne c day bars ledger signal =
      match bars.get? signal.symbol with
      | none => .error (.keyErrorSymbol signal.symbol)
      | some bar =>
        match sizeEntry c ledger.state signal.symbol (effectivePrice c bar) with
        | (_, some reason) => .ok (ledger.skip reason)
        | (quantity, none) =>
          if requiredCash c (effectivePrice c bar) quantity > ledger.state.cash then
            .ok (ledger.skip .insufficientCash)
          else .ok (openPosition c ledger signal day bar quantity) := rfl

def liquidateOne (day : Date) (bars : Dict Symbol DailyBar) (ledger : Ledger) (symbol : Symbol) :
    Except ExecutionError Ledger :=
  DecimalContext.unlimited.liquidateOne c day bars ledger symbol

def closeDay (day : Date) (bars : Dict Symbol DailyBar) (ledger : Ledger) : Ledger :=
  DecimalContext.unlimited.closedLedger c day bars ledger

theorem unlimited_closeDay (day : Date) (bars : Dict Symbol DailyBar) (ledger : Ledger) :
    DecimalContext.unlimited.closeDay c day bars ledger = .ok (closeDay c day bars ledger) :=
  if_pos fun amount _ => DecimalContext.unlimited_fits amount

theorem closeDay_eq (day : Date) (bars : Dict Symbol DailyBar) (ledger : Ledger) :
    closeDay c day bars ledger =
      let state :=
        { ledger.state with positions := ledger.state.positions.mapValues (markPosition bars) }
      let market := state.market
      let unrealized := state.unrealized
      let equity := state.cash + market
      let state := { state with runningPeak := max state.runningPeak equity }
      let drawdown := state.runningPeak - equity
      let snapshot : PortfolioSnapshot :=
        { id := c.uuid4 ledger.drawnIds
          runId := c.run.id
          tradingDate := day
          cash := quantize state.cash
          marketValue := quantize market
          realizedPnl := quantize state.realizedPnl
          unrealizedPnl := quantize unrealized
          totalEquity := quantize equity
          cumulativeReturn := quantize (equity / c.p.initialCapital - 1)
          runningPeakEquity := quantize state.runningPeak
          drawdown := quantize drawdown
          drawdownPct := quantize (drawdown / state.runningPeak)
          openPositionCount := state.positions.size }
      { ledger with
        state
        snapshots := ledger.snapshots ++ [snapshot]
        utilizationSum := ledger.utilizationSum + (if equity = 0 then 0 else market / equity)
        journal := ledger.journal ++ [.marked day market unrealized equity state] } := by
  simp only [closeDay, DecimalContext.closedLedger, DecimalContext.closedState,
    DecimalContext.snapshotAmounts, DecimalContext.unlimited_market,
    DecimalContext.unlimited_unrealized, DecimalContext.unlimited_equity,
    DecimalContext.unlimited_round]
  rfl

theorem closeDay_journal (day : Date) (bars : Dict Symbol DailyBar) (ledger : Ledger) :
    (closeDay c day bars ledger).journal = ledger.journal ++
      [.marked day (closeDay c day bars ledger).state.market
        (closeDay c day bars ledger).state.unrealized (closeDay c day bars ledger).state.equity
        (closeDay c day bars ledger).state] := by
  rw [closeDay_eq]
  rfl

def exitPhase (ledger : Ledger) (day : Date) : Except ExecutionError Ledger :=
  DecimalContext.unlimited.exitPhase c ledger day

def entryPhase (ledger : Ledger) (day : Date) : Except ExecutionError Ledger :=
  DecimalContext.unlimited.entryPhase c ledger day

def liquidationPhase (ledger : Ledger) (day : Date) : Except ExecutionError Ledger :=
  DecimalContext.unlimited.liquidationPhase c ledger day

theorem exitPhase_eq (ledger : Ledger) (day : Date) :
    exitPhase c ledger day =
      ledger.state.symbols.foldlM (exitOne c day (c.bars day) (c.final day)) ledger := rfl

theorem entryPhase_eq (ledger : Ledger) (day : Date) :
    entryPhase c ledger day = (c.entries day).foldlM (enterOne c day (c.bars day)) ledger := rfl

theorem liquidationPhase_eq (ledger : Ledger) (day : Date) :
    liquidationPhase c ledger day =
      if c.final day then ledger.state.symbols.foldlM (liquidateOne c day (c.bars day)) ledger
      else .ok ledger := rfl

def runDay (ledger : Ledger) (day : Date) : Except ExecutionError Ledger :=
  DecimalContext.unlimited.runDay c ledger day

/-! ## The run -/

def portfolioMetrics (p : PortfolioParameters) (totalSignals : Nat) (ledger : Ledger) :
    PortfolioMetrics :=
  DecimalContext.unlimited.portfolioMetrics p totalSignals ledger

theorem portfolioMetrics_eq (p : PortfolioParameters) (totalSignals : Nat) (ledger : Ledger) :
    portfolioMetrics p totalSignals ledger =
      let finalEquity := (ledger.snapshots.getLast?.map (·.totalEquity)).getD p.initialCapital
      { initialCapital := quantize p.initialCapital
        finalEquity := quantize finalEquity
        finalCash := quantize ledger.state.cash
        netProfit := quantize (finalEquity - p.initialCapital)
        totalReturn := quantize (finalEquity / p.initialCapital - 1)
        maxDrawdown := quantize (maximumOr0 (ledger.snapshots.map (·.drawdown)))
        maxDrawdownPct := quantize (maximumOr0 (ledger.snapshots.map (·.drawdownPct)))
        totalSignals
        enteredTrades := ledger.trades.length
        skippedSignals := ledger.skips.values.sum
        skipReasons := ledger.skips
        maximumOpenPositionsUsed := ledger.maximumOpen
        averageCapitalUtilization := quantize
          (if ledger.snapshots = [] then 0 else ledger.utilizationSum /
            ledger.snapshots.length) } := by
  simp only [portfolioMetrics, DecimalContext.portfolioMetrics, DecimalContext.metricAmounts,
    DecimalContext.unlimited_perCount, DecimalContext.unlimited_round]

/-- A completed run: what it read, the ledgers it began and ended with, its metrics. -/
structure PortfolioExecution extends PortfolioRun where
  metrics : PortfolioMetrics

/-- `PortfolioBacktestExecutor.execute`, up to the hand-over of the ledger's
trades and snapshots to the session, with the metrics that it then returns. -/
def executePortfolio (run : RunRequest) (generated : List BacktestSignal)
    (dailyBars : List DailyBarRecord) (uuid4 : Nat → UUID) :
    Except ExecutionError PortfolioExecution := do
  let x ← DecimalContext.unlimited.executePortfolio run generated dailyBars uuid4
  let metrics ← DecimalContext.unlimited.summarizePortfolio x
  return { x with metrics }

theorem unlimited_summarizePortfolio (x : PortfolioRun) :
    DecimalContext.unlimited.summarizePortfolio x =
      .ok (portfolioMetrics x.context.p x.totalSignals x.ledger) :=
  if_pos fun amount _ => DecimalContext.unlimited_fits amount

end Screener.Backtest
