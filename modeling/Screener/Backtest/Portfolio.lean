import Screener.Backtest.DecimalContext
import Screener.Backtest.Parameters
import Mathlib.Data.List.Sort
import Mathlib.Data.List.Dedup
import Mathlib.Order.Basic
import Mathlib.Data.String.Basic
import Mathlib.Tactic.Ring

/-!
# The portfolio executor

Shared-cash execution, day by day over a market-wide calendar: exits first, then
entries at the open, then forced liquidation of final-day entries, then the
closing marks and the snapshot. The ledger holds the locals of the day loop;
its journal records what each event did and is read by no transition. The
executor is written for any decimal context.
-/

namespace Screener.Backtest

open Screener.Lib
open Screener.Market (Date Symbol DailyBarRecord)

inductive PortfolioSkipReason where
  | maxOpenPositions
  | duplicateSymbol
  | insufficientCash
  | minimumCashBuffer
  | quantityZero
  | noEntryBar
  | invalidPrice
deriving DecidableEq, Repr

structure OpenPosition where
  signal : BacktestSignal
  entryDate : Date
  entryRawPrice : ℚ
  entryPrice : ℚ
  quantity : Nat
  buyCommission : ℚ
  lastClose : ℚ
  holdingDays : Nat
deriving DecidableEq, Repr

structure PortfolioState where
  initialCapital : ℚ
  cash : ℚ
  runningPeak : ℚ
  realizedPnl : ℚ
  positions : Dict Symbol OpenPosition
deriving DecidableEq, Repr

namespace PortfolioState

def create (capital : ℚ) : Except ExecutionError PortfolioState :=
  if capital ≤ 0 then .error (.valueError "initial capital must be positive")
  else .ok ⟨capital, capital, capital, 0, Dict.empty⟩

/-- `sorted(list(state.positions))`. -/
def symbols (s : PortfolioState) : List Symbol := s.positions.keys.insertionSort (· ≤ ·)

end PortfolioState

/-! ## Sizing and exit rules -/

namespace DecimalContext

variable (d : DecimalContext)

def cost (p : OpenPosition) : ℚ := d.round (d.round (p.entryPrice * p.quantity) + p.buyCommission)

def marketValue (p : OpenPosition) : ℚ := d.round (p.lastClose * p.quantity)

def market (s : PortfolioState) : ℚ := d.sum (s.positions.values.map d.marketValue)

def unrealized (s : PortfolioState) : ℚ :=
  d.sum (s.positions.values.map fun p => d.round (d.marketValue p - d.cost p))

def equity (s : PortfolioState) : ℚ := d.round (s.cash + d.market s)

/-- `while quantity > 0 and price * quantity * (1 + commission_rate) > allowed`. -/
def decrementUntilAffordable (price commissionRate allowed : ℚ) : Nat → Nat
  | 0 => 0
  | quantity + 1 =>
    if d.round (d.round (price * (quantity + 1 : Nat)) * d.round (1 + commissionRate)) >
      allowed then
      decrementUntilAffordable price commissionRate allowed quantity
    else quantity + 1

def affordableQuantity (target cash buffer price commissionRate : ℚ) :
    Nat × Option PortfolioSkipReason :=
  if price ≤ 0 then (0, some .invalidPrice)
  else
    let spendable := d.round (cash - buffer)
    if spendable ≤ 0 then (0, some .minimumCashBuffer)
    else
      let allowed := min target spendable
      -- A negative amount truncates to a quantity that the loop never enters.
      let quantity := d.decrementUntilAffordable price commissionRate allowed
        (roundDown (d.round (allowed / price))).toNat
      if quantity = 0 then (0, some (if allowed < price then .quantityZero else .insufficientCash))
      else (quantity, none)

def exitTerms (position : OpenPosition) (bar : DailyBar) (p : BacktestParameters) (final : Bool) :
    Option (BacktestExitReason × ℚ) :=
  if final then some (.endOfPeriod, bar.close)
  else
    let stop := d.round (position.entryPrice * d.round (1 - p.stopLossPct))
    let target := d.round (position.entryPrice * d.round (1 + p.takeProfitPct))
    if bar.open ≤ stop ∨ bar.low ≤ stop then
      some (.stopLoss, if bar.open ≤ stop then bar.open else stop)
    else if bar.open ≥ target ∨ bar.high ≥ target then
      some (.takeProfit, if bar.open ≥ target then bar.open else target)
    else if (position.holdingDays : ℤ) ≥ p.maxHoldingDays then some (.maxHoldingDays, bar.close)
    else none

end DecimalContext

/-! ## The ledger of the day loop -/

inductive Event where
  | closed (day : Date) (position : OpenPosition) (reason : BacktestExitReason) (net : ℚ)
      (after : PortfolioState)
  | opened (day : Date) (position : OpenPosition) (before after : PortfolioState)
  | marked (day : Date) (market unrealized equity : ℚ) (after : PortfolioState)
deriving DecidableEq, Repr

structure Ledger where
  state : PortfolioState
  trades : List BacktestTrade
  snapshots : List PortfolioSnapshot
  skips : Dict PortfolioSkipReason Nat
  maximumOpen : Nat
  utilizationSum : ℚ
  journal : List Event
deriving DecidableEq, Repr

def Ledger.start (state : PortfolioState) (skips : Dict PortfolioSkipReason Nat) : Ledger :=
  ⟨state, [], [], skips, 0, 0, []⟩

/-- `skips[reason] = skips.get(reason, 0) + 1`. -/
def countSkip (skips : Dict PortfolioSkipReason Nat) (reason : PortfolioSkipReason) :
    Dict PortfolioSkipReason Nat :=
  skips.set reason (skips.getD reason 0 + 1)

def Ledger.skip (ledger : Ledger) (reason : PortfolioSkipReason) : Ledger :=
  { ledger with skips := countSkip ledger.skips reason }

def Ledger.drawnIds (ledger : Ledger) : Nat := ledger.trades.length + ledger.snapshots.length

/-- What the day loop reads and never changes. -/
structure Context where
  run : RunRequest
  p : PortfolioParameters
  dates : List Date
  byDate : Dict Date (Dict Symbol DailyBar)
  entryEvents : Dict Date (List BacktestSignal)
  uuid4 : Nat → UUID

/-- The bar that decides an exit: the day's own, or on the final day the last
close known since entry. -/
def exitBar (bars : Dict Symbol DailyBar) (final : Bool) (day : Date) (symbol : Symbol)
    (position : OpenPosition) : Option DailyBar :=
  match bars.get? symbol with
  | some bar => some bar
  | none =>
    if final then
      some ⟨symbol, day, position.lastClose, position.lastClose, position.lastClose,
        position.lastClose⟩
    else none

/-- `position.holding_days += 1`. -/
def OpenPosition.held (p : OpenPosition) : OpenPosition :=
  { p with holdingDays := p.holdingDays + 1 }

def holdPosition (ledger : Ledger) (symbol : Symbol) (position : OpenPosition) : Ledger :=
  { ledger with
    state := { ledger.state with positions := ledger.state.positions.set symbol position.held } }

/-- The checks made before a signal is sized. -/
def slotSkip (c : Context) (state : PortfolioState) (symbol : Symbol) :
    Option PortfolioSkipReason :=
  if state.positions.contains symbol then some .duplicateSymbol
  else if c.p.maxOpenPositions ≤ state.positions.size then some .maxOpenPositions
  else none

/-- `position.last_close = bar.close` where the day has a bar. -/
def markPosition (bars : Dict Symbol DailyBar) (symbol : Symbol) (position : OpenPosition) :
    OpenPosition :=
  match bars.get? symbol with
  | some bar => { position with lastClose := bar.close }
  | none => position

def Context.bars (c : Context) (day : Date) : Dict Symbol DailyBar := c.byDate.getD day Dict.empty

def Context.final (c : Context) (day : Date) : Bool := decide (c.dates.getLast? = some day)

/-- The signals entered on `day`, in `(signal_date, symbol)` order. -/
def Context.entries (c : Context) (day : Date) : List BacktestSignal :=
  (c.entryEvents.getD day []).insertionSort BacktestSignal.le

/-- The decimals of a snapshot before they are quantized. -/
structure SnapshotAmounts where
  cash : ℚ
  marketValue : ℚ
  realizedPnl : ℚ
  unrealizedPnl : ℚ
  totalEquity : ℚ
  cumulativeReturn : ℚ
  runningPeakEquity : ℚ
  drawdown : ℚ
  drawdownPct : ℚ
deriving DecidableEq, Repr

def SnapshotAmounts.values (amounts : SnapshotAmounts) : List ℚ :=
  [amounts.cash, amounts.marketValue, amounts.realizedPnl, amounts.unrealizedPnl,
    amounts.totalEquity, amounts.cumulativeReturn, amounts.runningPeakEquity, amounts.drawdown,
    amounts.drawdownPct]

/-! ## The events of a day -/

namespace DecimalContext

variable (d : DecimalContext) (c : Context)

def sellNotional (position : OpenPosition) (rawExit : ℚ) : ℚ :=
  d.round (d.round (rawExit * d.round (1 - c.p.trading.slippageRate)) * position.quantity)

def sellCommission (position : OpenPosition) (rawExit : ℚ) : ℚ :=
  d.round (d.sellNotional c position rawExit * c.p.trading.commissionRate)

def sellTax (position : OpenPosition) (rawExit : ℚ) : ℚ :=
  d.round (d.sellNotional c position rawExit * c.p.trading.sellTaxRate)

/-- What a sale brings in: the notional less its commission and tax. -/
def proceeds (position : OpenPosition) (rawExit : ℚ) : ℚ :=
  d.round (d.round (d.sellNotional c position rawExit - d.sellCommission c position rawExit) -
    d.sellTax c position rawExit)

def saleAmounts (position : OpenPosition) (rawExit : ℚ) : TradeAmounts :=
  let exitPrice := d.round (rawExit * d.round (1 - c.p.trading.slippageRate))
  let tax := d.sellTax c position rawExit
  let gross := d.round (d.round (exitPrice - position.entryPrice) * position.quantity)
  let commission := d.round (position.buyCommission + d.sellCommission c position rawExit)
  let net := d.round (d.round (gross - commission) - tax)
  let slippage := d.round (d.round (d.round (position.entryPrice - position.entryRawPrice) +
    d.round (rawExit - exitPrice)) * position.quantity)
  { entryPrice := position.entryPrice, exitPrice, gross, commission, tax, slippage, net }

/-- The ledger after a sale whose amounts have been quantized. -/
def soldLedger (ledger : Ledger) (symbol : Symbol) (position : OpenPosition) (day : Date)
    (rawExit : ℚ) (reason : BacktestExitReason) : Ledger :=
  let amounts := d.saleAmounts c position rawExit
  let after : PortfolioState :=
    { ledger.state with
      cash := d.round (ledger.state.cash + d.proceeds c position rawExit)
      realizedPnl := d.round (ledger.state.realizedPnl + amounts.net)
      positions := ledger.state.positions.erase symbol }
  let trade : BacktestTrade :=
    { id := c.uuid4 ledger.drawnIds
      runId := c.run.id
      symbol
      signalDate := position.signal.signalDate
      entryDate := position.entryDate
      entryPrice := Backtest.quantize amounts.entryPrice
      quantity := position.quantity
      exitDate := day
      exitPrice := Backtest.quantize amounts.exitPrice
      exitReason := reason
      grossPnl := Backtest.quantize amounts.gross
      commission := Backtest.quantize amounts.commission
      tax := Backtest.quantize amounts.tax
      slippageCost := Backtest.quantize amounts.slippage
      netPnl := Backtest.quantize amounts.net
      holdingDays := position.holdingDays }
  { ledger with
    state := after
    trades := ledger.trades ++ [trade]
    journal := ledger.journal ++ [.closed day position reason amounts.net after] }

/-- The quantizations of the trade raise where one of its amounts does not fit. -/
def closePosition (ledger : Ledger) (symbol : Symbol) (position : OpenPosition) (day : Date)
    (rawExit : ℚ) (reason : BacktestExitReason) : Except ExecutionError Ledger :=
  if d.AmountsFit (d.saleAmounts c position rawExit) then
    .ok (d.soldLedger c ledger symbol position day rawExit reason)
  else .error .invalidOperation

def exitOne (day : Date) (bars : Dict Symbol DailyBar) (final : Bool) (ledger : Ledger)
    (symbol : Symbol) : Except ExecutionError Ledger :=
  match ledger.state.positions.get? symbol with
  | none => .error (.keyErrorSymbol symbol)
  | some position =>
    match exitBar bars final day symbol position with
    | none => .ok ledger
    | some bar =>
      let ledger := holdPosition ledger symbol position
      match d.exitTerms position.held bar c.p.trading final with
      | none => .ok ledger
      | some (reason, rawExit) => d.closePosition c ledger symbol position.held day rawExit reason

def sizeEntry (state : PortfolioState) (symbol : Symbol) (effective : ℚ) :
    Nat × Option PortfolioSkipReason :=
  match slotSkip c state symbol with
  | some reason => (0, some reason)
  | none =>
    d.affordableQuantity (d.round (d.equity state * c.p.positionSizePct)) state.cash
      (d.round (c.p.initialCapital * c.p.minimumCashBufferPct)) effective c.p.trading.commissionRate

/-- The effective price of a buy at the open. -/
def effectivePrice (bar : DailyBar) : ℚ :=
  d.round (bar.open * d.round (1 + c.p.trading.slippageRate))

def buyCommission (effective : ℚ) (quantity : Nat) : ℚ :=
  d.round (d.round (effective * quantity) * c.p.trading.commissionRate)

/-- `required`: the notional with its commission. -/
def requiredCash (effective : ℚ) (quantity : Nat) : ℚ :=
  d.round (d.round (effective * quantity) + d.buyCommission c effective quantity)

def openPosition (ledger : Ledger) (signal : BacktestSignal) (day : Date) (bar : DailyBar)
    (quantity : Nat) : Ledger :=
  let effective := d.effectivePrice c bar
  let position : OpenPosition :=
    { signal
      entryDate := day
      entryRawPrice := bar.open
      entryPrice := effective
      quantity
      buyCommission := d.buyCommission c effective quantity
      lastClose := effective
      holdingDays := 0 }
  let after : PortfolioState :=
    { ledger.state with
      cash := d.round (ledger.state.cash - d.requiredCash c effective quantity)
      positions := ledger.state.positions.set signal.symbol position }
  { ledger with
    state := after
    maximumOpen := max ledger.maximumOpen after.positions.size
    journal := ledger.journal ++ [.opened day position ledger.state after] }

def enterOne (day : Date) (bars : Dict Symbol DailyBar) (ledger : Ledger)
    (signal : BacktestSignal) : Except ExecutionError Ledger :=
  match bars.get? signal.symbol with
  | none => .error (.keyErrorSymbol signal.symbol)
  | some bar =>
    match d.sizeEntry c ledger.state signal.symbol (d.effectivePrice c bar) with
    | (_, some reason) => .ok (ledger.skip reason)
    | (quantity, none) =>
      if d.requiredCash c (d.effectivePrice c bar) quantity > ledger.state.cash then
        .ok (ledger.skip .insufficientCash)
      else .ok (d.openPosition c ledger signal day bar quantity)

def liquidateOne (day : Date) (bars : Dict Symbol DailyBar) (ledger : Ledger) (symbol : Symbol) :
    Except ExecutionError Ledger :=
  match ledger.state.positions.get? symbol with
  | none => .error (.keyErrorSymbol symbol)
  | some position =>
    if position.entryDate = day then
      match bars.get? symbol with
      | none => .error (.keyErrorSymbol symbol)
      | some bar => d.closePosition c ledger symbol position day bar.close .endOfPeriod
    else .ok ledger

/-- The state at the close of a day: its marks, and the peak with its equity. -/
def closedState (bars : Dict Symbol DailyBar) (state : PortfolioState) : PortfolioState :=
  let state := { state with positions := state.positions.mapValues (markPosition bars) }
  { state with runningPeak := max state.runningPeak (d.equity state) }

/-- The amounts of the snapshot of a closed state. -/
def snapshotAmounts (state : PortfolioState) : SnapshotAmounts :=
  let equity := d.equity state
  let drawdown := d.round (state.runningPeak - equity)
  { cash := state.cash
    marketValue := d.market state
    realizedPnl := state.realizedPnl
    unrealizedPnl := d.unrealized state
    totalEquity := equity
    cumulativeReturn := d.round (d.round (equity / c.p.initialCapital) - 1)
    runningPeakEquity := state.runningPeak
    drawdown
    drawdownPct := d.round (drawdown / state.runningPeak) }

/-- The ledger after a day whose snapshot has been quantized. -/
def closedLedger (day : Date) (bars : Dict Symbol DailyBar) (ledger : Ledger) : Ledger :=
  let state := d.closedState bars ledger.state
  let market := d.market state
  let equity := d.equity state
  let amounts := d.snapshotAmounts c state
  let snapshot : PortfolioSnapshot :=
    { id := c.uuid4 ledger.drawnIds
      runId := c.run.id
      tradingDate := day
      cash := Backtest.quantize amounts.cash
      marketValue := Backtest.quantize amounts.marketValue
      realizedPnl := Backtest.quantize amounts.realizedPnl
      unrealizedPnl := Backtest.quantize amounts.unrealizedPnl
      totalEquity := Backtest.quantize amounts.totalEquity
      cumulativeReturn := Backtest.quantize amounts.cumulativeReturn
      runningPeakEquity := Backtest.quantize amounts.runningPeakEquity
      drawdown := Backtest.quantize amounts.drawdown
      drawdownPct := Backtest.quantize amounts.drawdownPct
      openPositionCount := state.positions.size }
  { ledger with
    state
    snapshots := ledger.snapshots ++ [snapshot]
    utilizationSum :=
      d.round (ledger.utilizationSum + (if equity = 0 then 0 else d.round (market / equity)))
    journal := ledger.journal ++ [.marked day market (d.unrealized state) equity state] }

/-- The quantizations of the snapshot raise where one of its amounts does not fit. -/
def closeDay (day : Date) (bars : Dict Symbol DailyBar) (ledger : Ledger) :
    Except ExecutionError Ledger :=
  if ∀ amount ∈ (d.snapshotAmounts c (d.closedState bars ledger.state)).values, d.Fits amount then
    .ok (d.closedLedger c day bars ledger)
  else .error .invalidOperation

def exitPhase (ledger : Ledger) (day : Date) : Except ExecutionError Ledger :=
  ledger.state.symbols.foldlM (d.exitOne c day (c.bars day) (c.final day)) ledger

def entryPhase (ledger : Ledger) (day : Date) : Except ExecutionError Ledger :=
  (c.entries day).foldlM (d.enterOne c day (c.bars day)) ledger

def liquidationPhase (ledger : Ledger) (day : Date) : Except ExecutionError Ledger :=
  if c.final day then ledger.state.symbols.foldlM (d.liquidateOne c day (c.bars day)) ledger
  else .ok ledger

def runDay (ledger : Ledger) (day : Date) : Except ExecutionError Ledger := do
  let ledger ← d.exitPhase c ledger day
  let ledger ← d.entryPhase c ledger day
  let ledger ← d.liquidationPhase c ledger day
  d.closeDay c day (c.bars day) ledger

end DecimalContext

/-! ## Loading and scheduling -/

def inRange (run : RunRequest) (row : DailyBarRecord) : Bool :=
  run.startDate ≤ row.tradingDate && row.tradingDate ≤ run.endDate

/-- Every trading date of the range, of any symbol: distinct and ascending. -/
def calendar (run : RunRequest) (dailyBars : List DailyBarRecord) : List Date :=
  ((dailyBars.filter (inRange run)).map (·.tradingDate)).dedup.insertionSort (· ≤ ·)

def signalSymbols (signals : List BacktestSignal) : List Symbol :=
  (signals.map (·.symbol)).dedup.insertionSort (· ≤ ·)

/-- `order_by(trading_date, symbol)`. -/
def DailyBar.le (a b : DailyBar) : Prop :=
  a.tradingDate < b.tradingDate ∨ (a.tradingDate = b.tradingDate ∧ a.symbol ≤ b.symbol)

instance : DecidableRel DailyBar.le := fun a b => by unfold DailyBar.le; infer_instance

def loadBars (run : RunRequest) (dailyBars : List DailyBarRecord) (symbols : List Symbol) :
    List DailyBar :=
  (((dailyBars.filter (inRange run)).filter (·.symbol ∈ symbols)).map
    DailyBar.ofRecord).insertionSort
    DailyBar.le

/-- `by_date` under construction, with the keys already seen. -/
abbrev BarIndex := Dict Date (Dict Symbol DailyBar) × List (Symbol × Date)

def addBar (index : BarIndex) (row : DailyBar) : Except ExecutionError BarIndex :=
  if (row.symbol, row.tradingDate) ∈ index.2 then
    .error (.duplicateDailyBar row.symbol row.tradingDate)
  else
    .ok (index.1.set row.tradingDate
        ((index.1.getD row.tradingDate Dict.empty).set row.symbol row),
      (row.symbol, row.tradingDate) :: index.2)

def indexBars (rows : List DailyBar) :
    Except ExecutionError (Dict Date (Dict Symbol DailyBar)) := do
  let index ← rows.foldlM addBar (Dict.empty, [])
  return index.1

/-- The first day after the signal on which its symbol has a bar. The lookup
`by_date[day]` raises on a day that no signalled symbol traded. -/
def findEntryDate (byDate : Dict Date (Dict Symbol DailyBar)) (signal : BacktestSignal) :
    List Date → Except ExecutionError (Option Date)
  | [] => .ok none
  | day :: rest =>
    if signal.signalDate < day then
      match byDate.get? day with
      | none => .error (.keyErrorDate day)
      | some bars =>
        if bars.contains signal.symbol then .ok (some day) else findEntryDate byDate signal rest
    else findEntryDate byDate signal rest

abbrev Schedule := Dict Date (List BacktestSignal) × Dict PortfolioSkipReason Nat

def scheduleOne (dates : List Date) (byDate : Dict Date (Dict Symbol DailyBar))
    (schedule : Schedule) (signal : BacktestSignal) : Except ExecutionError Schedule := do
  match ← findEntryDate byDate signal dates with
  | none => return (schedule.1, countSkip schedule.2 .noEntryBar)
  | some day => return (schedule.1.set day (schedule.1.getD day [] ++ [signal]), schedule.2)

def scheduleSignals (dates : List Date) (byDate : Dict Date (Dict Symbol DailyBar))
    (signals : List BacktestSignal) : Except ExecutionError Schedule :=
  signals.foldlM (scheduleOne dates byDate) (Dict.empty, Dict.empty)

/-! ## The run -/

/-- The metrics dictionary; its decimals are rendered with `str` when stored. -/
structure PortfolioMetrics where
  initialCapital : ℚ
  finalEquity : ℚ
  finalCash : ℚ
  netProfit : ℚ
  totalReturn : ℚ
  maxDrawdown : ℚ
  maxDrawdownPct : ℚ
  totalSignals : Nat
  enteredTrades : Nat
  skippedSignals : Nat
  skipReasons : Dict PortfolioSkipReason Nat
  maximumOpenPositionsUsed : Nat
  averageCapitalUtilization : ℚ
deriving DecidableEq, Repr

/-- `max(values, default=ZERO)`. -/
def maximumOr0 (values : List ℚ) : ℚ := values.max?.getD 0

/-- The decimals of the metrics before they are quantized. -/
structure MetricAmounts where
  initialCapital : ℚ
  finalEquity : ℚ
  finalCash : ℚ
  netProfit : ℚ
  totalReturn : ℚ
  maxDrawdown : ℚ
  maxDrawdownPct : ℚ
  averageCapitalUtilization : ℚ
deriving DecidableEq, Repr

def MetricAmounts.values (amounts : MetricAmounts) : List ℚ :=
  [amounts.initialCapital, amounts.finalEquity, amounts.finalCash, amounts.netProfit,
    amounts.totalReturn, amounts.maxDrawdown, amounts.maxDrawdownPct,
    amounts.averageCapitalUtilization]

/-- What a run has when it comes to write its trades and snapshots. -/
structure PortfolioRun where
  context : Context
  start : Ledger
  ledger : Ledger
  totalSignals : Nat

namespace DecimalContext

variable (d : DecimalContext)

def metricAmounts (p : PortfolioParameters) (ledger : Ledger) : MetricAmounts :=
  let finalEquity := (ledger.snapshots.getLast?.map (·.totalEquity)).getD p.initialCapital
  { initialCapital := p.initialCapital
    finalEquity
    finalCash := ledger.state.cash
    netProfit := d.round (finalEquity - p.initialCapital)
    totalReturn := d.round (d.round (finalEquity / p.initialCapital) - 1)
    maxDrawdown := maximumOr0 (ledger.snapshots.map (·.drawdown))
    maxDrawdownPct := maximumOr0 (ledger.snapshots.map (·.drawdownPct))
    averageCapitalUtilization := d.perCount ledger.utilizationSum ledger.snapshots.length }

/-- The metrics of amounts that can be quantized. -/
def portfolioMetrics (p : PortfolioParameters) (totalSignals : Nat) (ledger : Ledger) :
    PortfolioMetrics :=
  let amounts := d.metricAmounts p ledger
  { initialCapital := Backtest.quantize amounts.initialCapital
    finalEquity := Backtest.quantize amounts.finalEquity
    finalCash := Backtest.quantize amounts.finalCash
    netProfit := Backtest.quantize amounts.netProfit
    totalReturn := Backtest.quantize amounts.totalReturn
    maxDrawdown := Backtest.quantize amounts.maxDrawdown
    maxDrawdownPct := Backtest.quantize amounts.maxDrawdownPct
    totalSignals
    enteredTrades := ledger.trades.length
    skippedSignals := ledger.skips.values.sum
    skipReasons := ledger.skips
    maximumOpenPositionsUsed := ledger.maximumOpen
    averageCapitalUtilization := Backtest.quantize amounts.averageCapitalUtilization }

/-- `metrics = {...}`, after the flush; its quantizations may raise. -/
def summarizePortfolio (x : PortfolioRun) : Except ExecutionError PortfolioMetrics :=
  if ∀ amount ∈ (d.metricAmounts x.context.p x.ledger).values, d.Fits amount then
    .ok (d.portfolioMetrics x.context.p x.totalSignals x.ledger)
  else .error .invalidOperation

/-- `PortfolioBacktestExecutor.execute`, up to the hand-over of the ledger's
trades and snapshots to the session. -/
def executePortfolio (run : RunRequest) (generated : List BacktestSignal)
    (dailyBars : List DailyBarRecord) (uuid4 : Nat → UUID) :
    Except ExecutionError PortfolioRun := do
  let p ← PortfolioParameters.parse run.parameters
  let signals := generated.insertionSort BacktestSignal.le
  let dates := calendar run dailyBars
  let byDate ← indexBars (loadBars run dailyBars (signalSymbols signals))
  let (entryEvents, skips) ← scheduleSignals dates byDate signals
  let state ← PortfolioState.create p.initialCapital
  let context : Context := { run, p, dates, byDate, entryEvents, uuid4 }
  let start := Ledger.start state skips
  let ledger ← dates.foldlM (d.runDay context) start
  return { context, start, ledger, totalSignals := signals.length }

end DecimalContext

end Screener.Backtest
