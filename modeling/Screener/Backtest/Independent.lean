import Screener.Backtest.Portfolio

/-!
# The independent executor

Every signal is simulated on its own: bought at the open of the first bar after
its date, sold at the first later bar that triggers an exit. The summary runs
over the trades in exit order. The executor is written for any decimal context;
its plain names stand for the one without a limit.
-/

namespace Screener.Backtest

open Screener.Lib
open Screener.Market (Date Symbol DailyBarRecord)

/-! ## One signal -/

def eligibleBars (run : RunRequest) (signal : BacktestSignal) (bars : List DailyBar) :
    List DailyBar :=
  (bars.filter fun bar => signal.signalDate < bar.tradingDate ∧
    bar.tradingDate ≤ run.endDate).insertionSort fun a b => a.tradingDate ≤ b.tradingDate

/-- The loop over the later bars; `holding` counts them from one. -/
def scanExit (stop target : ℚ) (maxHoldingDays : ℤ) :
    Nat → List DailyBar → Option (DailyBar × BacktestExitReason × ℚ)
  | _, [] => none
  | holding, bar :: rest =>
    if bar.open ≤ stop ∨ bar.low ≤ stop then
      some (bar, .stopLoss, if bar.open ≤ stop then bar.open else stop)
    else if bar.open ≥ target ∨ bar.high ≥ target then
      some (bar, .takeProfit, if bar.open ≥ target then bar.open else target)
    else if (holding : ℤ) ≥ maxHoldingDays then some (bar, .maxHoldingDays, bar.close)
    else scanExit stop target maxHoldingDays (holding + 1) rest

/-- A signal either becomes a trade or says why it does not. -/
inductive SignalOutcome where
  | trade (trade : BacktestTrade)
  | skipped (reason : BacktestExitReason)
deriving DecidableEq, Repr

namespace DecimalContext

variable (c : DecimalContext)

def entryPrice (p : BacktestParameters) (entryBar : DailyBar) : ℚ :=
  c.round (entryBar.open * c.round (1 + p.slippageRate))

/-- Where, why and at which raw price a signal bought on `entryBar` is sold. -/
def exitOf (p : BacktestParameters) (entryBar : DailyBar) (later : List DailyBar) :
    DailyBar × BacktestExitReason × ℚ :=
  let entryPrice := c.entryPrice p entryBar
  let last := later.getLast?.getD entryBar
  (scanExit (c.round (entryPrice * c.round (1 - p.stopLossPct)))
    (c.round (entryPrice * c.round (1 + p.takeProfitPct)))
    p.maxHoldingDays 1 later).getD (last, .endOfPeriod, last.close)

def tradeAmounts (p : BacktestParameters) (entryBar : DailyBar) (rawExit : ℚ) (quantity : Nat) :
    TradeAmounts :=
  let entryPrice := c.entryPrice p entryBar
  let exitPrice := c.round (rawExit * c.round (1 - p.slippageRate))
  let gross := c.round (c.round (exitPrice - entryPrice) * quantity)
  let buyNotional := c.round (entryPrice * quantity)
  let sellNotional := c.round (exitPrice * quantity)
  let commission := c.round (c.round (buyNotional + sellNotional) * p.commissionRate)
  let tax := c.round (sellNotional * p.sellTaxRate)
  let slippage := c.round (c.round (c.round (entryPrice - entryBar.open) +
    c.round (rawExit - exitPrice)) * quantity)
  let net := c.round (c.round (gross - commission) - tax)
  { entryPrice, exitPrice, gross, commission, tax, slippage, net }

def singleTrade (run : RunRequest) (signal : BacktestSignal) (p : BacktestParameters)
    (entryBar : DailyBar) (later : List DailyBar) (quantity : Nat) (id : UUID) : BacktestTrade :=
  let exit := c.exitOf p entryBar later
  let exitBar := exit.1
  let amounts := c.tradeAmounts p entryBar exit.2.2 quantity
  { id
    runId := run.id
    symbol := signal.symbol
    signalDate := signal.signalDate
    entryDate := entryBar.tradingDate
    entryPrice := Backtest.quantize amounts.entryPrice
    quantity
    exitDate := exitBar.tradingDate
    exitPrice := Backtest.quantize amounts.exitPrice
    exitReason := exit.2.1
    grossPnl := Backtest.quantize amounts.gross
    commission := Backtest.quantize amounts.commission
    tax := Backtest.quantize amounts.tax
    slippageCost := Backtest.quantize amounts.slippage
    netPnl := Backtest.quantize amounts.net
    holdingDays := if later = [] then 0 else later.idxOf exitBar + 1 }

/-- The quantizations of the trade raise where one of its amounts does not fit. -/
def simulateSignal (run : RunRequest) (signal : BacktestSignal) (bars : List DailyBar)
    (p : BacktestParameters) (id : UUID) : Except ExecutionError SignalOutcome :=
  match eligibleBars run signal bars with
  | [] => .ok (.skipped .noEntryBar)
  | entryBar :: later => do
    let shares ← c.divide p.positionSize (c.entryPrice p entryBar)
    let quantity := (roundDown shares).toNat
    if roundDown shares < 1 then .ok (.skipped .insufficientPositionSize)
    else if c.AmountsFit (c.tradeAmounts p entryBar (c.exitOf p entryBar later).2.2 quantity) then
      .ok (.trade (c.singleTrade run signal p entryBar later quantity id))
    else .error .invalidOperation

end DecimalContext

def exitOf (p : BacktestParameters) (entryBar : DailyBar) (later : List DailyBar) :
    DailyBar × BacktestExitReason × ℚ :=
  DecimalContext.unlimited.exitOf p entryBar later

def singleTrade (run : RunRequest) (signal : BacktestSignal) (p : BacktestParameters)
    (entryBar : DailyBar) (later : List DailyBar) (quantity : Nat) (id : UUID) : BacktestTrade :=
  DecimalContext.unlimited.singleTrade run signal p entryBar later quantity id

def simulateSignal (run : RunRequest) (signal : BacktestSignal) (bars : List DailyBar)
    (p : BacktestParameters) (id : UUID) : Except ExecutionError SignalOutcome :=
  DecimalContext.unlimited.simulateSignal run signal bars p id

/-! ## The summary -/

/-- The locals of the loop over the trades in exit order. -/
structure Curve where
  equity : ℚ
  peak : ℚ
  drawdown : ℚ
  maxWins : Nat
  maxLosses : Nat
  currentWins : Nat
  currentLosses : Nat
deriving DecidableEq, Repr

def Curve.start (capital : ℚ) : Curve := ⟨capital, capital, 0, 0, 0, 0, 0⟩

def DecimalContext.step (c : DecimalContext) (s : Curve) (trade : BacktestTrade) : Curve :=
  let equity := c.round (s.equity + trade.netPnl)
  let peak := max s.peak equity
  let drawdown := if peak = 0 then s.drawdown else
    max s.drawdown (c.round (c.round (peak - equity) / peak))
  if trade.netPnl > 0 then
    { s with equity, peak, drawdown, currentWins := s.currentWins + 1, currentLosses := 0,
             maxWins := max s.maxWins (s.currentWins + 1) }
  else if trade.netPnl < 0 then
    { s with equity, peak, drawdown, currentLosses := s.currentLosses + 1, currentWins := 0,
             maxLosses := max s.maxLosses (s.currentLosses + 1) }
  else { s with equity, peak, drawdown }

/-- `key=lambda t: (t.exit_date, t.entry_date, t.symbol, str(t.id))`; ids are of one width. -/
def exitOrder (t u : BacktestTrade) : Prop :=
  t.exitDate < u.exitDate ∨ (t.exitDate = u.exitDate ∧ (t.entryDate < u.entryDate ∨
    (t.entryDate = u.entryDate ∧ (t.symbol < u.symbol ∨ (t.symbol = u.symbol ∧ t.id ≤ u.id)))))

instance : DecidableRel exitOrder := fun t u => by unfold exitOrder; infer_instance

structure BacktestMetrics where
  initialCapital : ℚ
  totalSignals : Nat
  enteredTrades : Nat
  skippedSignals : ℤ
  winningTrades : Nat
  losingTrades : Nat
  winRate : ℚ
  grossProfit : ℚ
  grossLoss : ℚ
  netProfit : ℚ
  totalReturn : ℚ
  averageTradeReturn : ℚ
  averageHoldingDays : ℚ
  profitFactor : Option ℚ
  maxDrawdown : ℚ
  maxConsecutiveWins : Nat
  maxConsecutiveLosses : Nat
deriving DecidableEq, Repr

namespace DecimalContext

variable (c : DecimalContext)

/-- `ratio(gross_profit / abs(gross_loss)) if gross_loss else None`. -/
def profitFactor (grossProfit grossLoss : ℚ) : Except ExecutionError (Option ℚ) :=
  if grossLoss = 0 then .ok none
  else do
    let factor ← c.divide grossProfit (c.round |grossLoss|)
    let factor ← c.quantize factor
    return some factor

def calculateMetrics (trades : List BacktestTrade) (totalSignals : Nat) (p : BacktestParameters) :
    Except ExecutionError BacktestMetrics := do
  let wins := trades.filter (·.netPnl > 0)
  let losses := trades.filter (·.netPnl < 0)
  let grossProfit := c.sum (wins.map (·.netPnl))
  let grossLoss := c.sum (losses.map (·.netPnl))
  let net := c.sum (trades.map (·.netPnl))
  let curve := (trades.insertionSort exitOrder).foldl c.step (Curve.start p.initialCapital)
  let count := trades.length
  let initialCapital ← c.quantize p.initialCapital
  let winRate ← c.quantize (c.perCount wins.length count)
  let quantizedProfit ← c.quantize grossProfit
  let quantizedLoss ← c.quantize grossLoss
  let netProfit ← c.quantize net
  let totalReturn ← c.divide net p.initialCapital
  let totalReturn ← c.quantize totalReturn
  let returns ← trades.mapM fun t => c.divide t.netPnl (c.round (t.entryPrice * t.quantity))
  let averageTradeReturn ← c.quantize (c.perCount (c.sum returns) count)
  let averageHoldingDays ← c.quantize (c.perCount (trades.map fun t => (t.holdingDays : ℚ)).sum
    count)
  let profitFactor ← c.profitFactor grossProfit grossLoss
  let maxDrawdown ← c.quantize curve.drawdown
  return {
    initialCapital
    totalSignals
    enteredTrades := count
    skippedSignals := totalSignals - count
    winningTrades := wins.length
    losingTrades := losses.length
    winRate
    grossProfit := quantizedProfit
    grossLoss := quantizedLoss
    netProfit
    totalReturn
    averageTradeReturn
    averageHoldingDays
    profitFactor
    maxDrawdown
    maxConsecutiveWins := curve.maxWins
    maxConsecutiveLosses := curve.maxLosses }

end DecimalContext

/-! ## The run -/

/-- The bars of one symbol that a run may use. -/
def barsOf (run : RunRequest) (dailyBars : List DailyBarRecord) (symbol : Symbol) : List DailyBar :=
  loadBars run dailyBars [symbol]

/-- `bars[row.symbol].append(...)`, with the keys already seen. -/
def addSymbolBar (index : Dict Symbol (List DailyBar) × List (Symbol × Date)) (row : DailyBar) :
    Except ExecutionError (Dict Symbol (List DailyBar) × List (Symbol × Date)) :=
  if (row.symbol, row.tradingDate) ∈ index.2 then
    .error (.duplicateDailyBar row.symbol row.tradingDate)
  else
    .ok (index.1.set row.symbol (index.1.getD row.symbol [] ++ [row]),
      (row.symbol, row.tradingDate) :: index.2)

/-- `order_by(symbol, trading_date)`. -/
def DailyBar.symbolLe (a b : DailyBar) : Prop :=
  a.symbol < b.symbol ∨ (a.symbol = b.symbol ∧ a.tradingDate ≤ b.tradingDate)

instance : DecidableRel DailyBar.symbolLe := fun a b => by
  unfold DailyBar.symbolLe; infer_instance

/-- The trades so far; an id is drawn only for a signal that becomes a trade. -/
def DecimalContext.simulateNext (c : DecimalContext) (run : RunRequest) (p : BacktestParameters)
    (bars : Symbol → List DailyBar) (uuid4 : Nat → UUID) (trades : List BacktestTrade)
    (signal : BacktestSignal) : Except ExecutionError (List BacktestTrade) := do
  match ← c.simulateSignal run signal (bars signal.symbol) p (uuid4 trades.length) with
  | .trade trade => return trades ++ [trade]
  | .skipped _ => return trades

/-- The portfolio parameters that independent mode refuses, sorted by name. -/
def portfolioOnly : List String :=
  ["max_open_positions", "minimum_cash_buffer_pct", "position_size_pct", "position_sizing_mode"]

/-- What an independent run has computed when it comes to write its trades. -/
structure IndependentTrades where
  p : BacktestParameters
  trades : List BacktestTrade
  totalSignals : Nat
deriving DecidableEq, Repr

namespace DecimalContext

variable (c : DecimalContext)

/-- `execute` in independent mode, up to the hand-over of its trades to the session. -/
def executeIndependent (run : RunRequest) (generated : List BacktestSignal)
    (dailyBars : List DailyBarRecord) (uuid4 : Nat → UUID) :
    Except ExecutionError IndependentTrades := do
  let incompatible := portfolioOnly.filter fun key => run.parameters.contains key
  require (incompatible = []) ("portfolio parameters are incompatible with independent mode: " ++
    ", ".intercalate incompatible)
  let p ← BacktestParameters.parse run.parameters
  let signals := generated.insertionSort BacktestSignal.le
  let records := (loadBars run dailyBars (signalSymbols signals)).insertionSort DailyBar.symbolLe
  let (bars, _) ← records.foldlM addSymbolBar (Dict.empty, [])
  let trades ← signals.foldlM (c.simulateNext run p (bars.getD · []) uuid4) []
  return { p, trades, totalSignals := signals.length }

/-- `execute` in independent mode, less the rows that it writes. -/
def execute (run : RunRequest) (generated : List BacktestSignal)
    (dailyBars : List DailyBarRecord) (uuid4 : Nat → UUID) :
    Except ExecutionError BacktestMetrics := do
  let x ← c.executeIndependent run generated dailyBars uuid4
  c.calculateMetrics x.trades x.totalSignals x.p

end DecimalContext

def executeIndependent (run : RunRequest) (generated : List BacktestSignal)
    (dailyBars : List DailyBarRecord) (uuid4 : Nat → UUID) :
    Except ExecutionError IndependentTrades :=
  DecimalContext.unlimited.executeIndependent run generated dailyBars uuid4

/-! ## Exact arithmetic -/

theorem exitOf_unfold (p : BacktestParameters) (entryBar : DailyBar) (later : List DailyBar) :
    exitOf p entryBar later =
      let entryPrice := entryBar.open * (1 + p.slippageRate)
      let last := later.getLast?.getD entryBar
      (scanExit (entryPrice * (1 - p.stopLossPct)) (entryPrice * (1 + p.takeProfitPct))
        p.maxHoldingDays 1 later).getD (last, .endOfPeriod, last.close) := rfl

theorem singleTrade_eq (run : RunRequest) (signal : BacktestSignal) (p : BacktestParameters)
    (entryBar : DailyBar) (later : List DailyBar) (quantity : Nat) (id : UUID) :
    singleTrade run signal p entryBar later quantity id =
      let entryPrice := entryBar.open * (1 + p.slippageRate)
      let exit := exitOf p entryBar later
      let exitBar := exit.1
      let rawExit := exit.2.2
      let exitPrice := rawExit * (1 - p.slippageRate)
      let gross := (exitPrice - entryPrice) * quantity
      let buyNotional := entryPrice * quantity
      let sellNotional := exitPrice * quantity
      let commission := (buyNotional + sellNotional) * p.commissionRate
      let tax := sellNotional * p.sellTaxRate
      let slippage := ((entryPrice - entryBar.open) + (rawExit - exitPrice)) * quantity
      { id
        runId := run.id
        symbol := signal.symbol
        signalDate := signal.signalDate
        entryDate := entryBar.tradingDate
        entryPrice := quantize entryPrice
        quantity
        exitDate := exitBar.tradingDate
        exitPrice := quantize exitPrice
        exitReason := exit.2.1
        grossPnl := quantize gross
        commission := quantize commission
        tax := quantize tax
        slippageCost := quantize slippage
        netPnl := quantize (gross - commission - tax)
        holdingDays := if later = [] then 0 else later.idxOf exitBar + 1 } := rfl

theorem simulateSignal_eq (run : RunRequest) (signal : BacktestSignal) (bars : List DailyBar)
    (p : BacktestParameters) (id : UUID) :
    simulateSignal run signal bars p id =
      (match eligibleBars run signal bars with
      | [] => .ok (.skipped .noEntryBar)
      | entryBar :: later => do
        let shares ← divide p.positionSize (entryBar.open * (1 + p.slippageRate))
        if roundDown shares < 1 then .ok (.skipped .insufficientPositionSize)
        else .ok (.trade (singleTrade run signal p entryBar later (roundDown shares).toNat
          id))) := by
  rw [simulateSignal, DecimalContext.simulateSignal]
  cases eligibleBars run signal bars with
  | nil => rfl
  | cons entryBar later =>
    simp only [DecimalContext.unlimited_divide, DecimalContext.unlimited_amountsFit, if_true]
    rfl

end Screener.Backtest
