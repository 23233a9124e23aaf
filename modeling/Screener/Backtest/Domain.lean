import Screener.Lib.CivilDate
import Screener.Lib.DecimalText
import Screener.Lib.Dict
import Screener.Market.DailyBars

/-!
# Backtest runs, signals, bars and trades

The records the executors read and return, the lifecycle of a run, and the ways
an executor can fail. Amounts are exact rationals; generated ids are drawn from
a supply that the caller provides.
-/

namespace Screener.Backtest

open Screener.Lib
open Screener.Market (Date Symbol DailyBarRecord)

abbrev UUID := Nat

/-- A value of a JSON parameter dictionary. A float is carried by the decimal
that its `str` denotes. -/
inductive Value where
  | null
  | bool (b : Bool)
  | int (n : ℤ)
  | float (d : Dec)
  | str (s : String)
  | decimal (d : Dec)
  | list
  | dict
deriving DecidableEq, Repr

inductive BacktestStatus where
  | pending
  | running
  | completed
  | failed
deriving DecidableEq, Repr

inductive BacktestExitReason where
  | stopLoss
  | takeProfit
  | maxHoldingDays
  | endOfPeriod
  | noEntryBar
  | insufficientPositionSize
deriving DecidableEq, Repr

/-- The exceptions an executor raises; the first three are `BacktestExecutionError`s. -/
inductive ExecutionError where
  | unsupportedStrategy (message : String)
  | invalidParameters (message : String)
  | duplicateDailyBar (symbol : Symbol) (tradingDate : Date)
  | keyErrorDate (key : Date)
  | keyErrorSymbol (key : Symbol)
  | valueError (message : String)
  | divisionByZero
  | divisionUndefined
  | invalidOperation
deriving DecidableEq, Repr

def ExecutionError.failureCode : ExecutionError → String
  | .unsupportedStrategy _ => "UNSUPPORTED_STRATEGY"
  | .invalidParameters _ => "INVALID_PARAMETERS"
  | .duplicateDailyBar _ _ => "DUPLICATE_DAILY_BAR"
  | _ => "EXECUTION_FAILED"

/-- `str(exc)`; a key that is missing is shown by its `repr`. -/
def ExecutionError.message : ExecutionError → String
  | .unsupportedStrategy message | .invalidParameters message | .valueError message => message
  | .duplicateDailyBar symbol tradingDate =>
    "duplicate daily bar: " ++ symbol ++ " " ++ CivilDate.isoformat tradingDate
  | .keyErrorDate key => CivilDate.repr key
  | .keyErrorSymbol key => "'" ++ key ++ "'"
  | .divisionByZero => "[<class 'decimal.DivisionByZero'>]"
  | .divisionUndefined => "[<class 'decimal.DivisionUndefined'>]"
  | .invalidOperation => "[<class 'decimal.InvalidOperation'>]"

/-- `ArithmeticError`, the base of the decimal exceptions. -/
def ExecutionError.isArithmetic : ExecutionError → Bool
  | .divisionByZero | .divisionUndefined | .invalidOperation => true
  | _ => false

structure DailyBar where
  symbol : Symbol
  tradingDate : Date
  «open» : ℚ
  high : ℚ
  low : ℚ
  close : ℚ
deriving DecidableEq, Repr

def DailyBar.ofRecord (row : DailyBarRecord) : DailyBar :=
  ⟨row.symbol, row.tradingDate, row.open, row.high, row.low, row.close⟩

/-- A signal; the only signal type is `enter_long`. -/
structure BacktestSignal where
  symbol : Symbol
  signalDate : Date
deriving DecidableEq, Repr

/-- The order of `sorted(signals, key=lambda s: (s.signal_date, s.symbol))`. -/
def BacktestSignal.le (s t : BacktestSignal) : Prop :=
  s.signalDate < t.signalDate ∨ (s.signalDate = t.signalDate ∧ s.symbol ≤ t.symbol)

instance : DecidableRel BacktestSignal.le := fun s t => by
  unfold BacktestSignal.le; infer_instance

structure BacktestTrade where
  id : UUID
  runId : UUID
  symbol : Symbol
  signalDate : Date
  entryDate : Date
  entryPrice : ℚ
  quantity : Nat
  exitDate : Date
  exitPrice : ℚ
  exitReason : BacktestExitReason
  grossPnl : ℚ
  commission : ℚ
  tax : ℚ
  slippageCost : ℚ
  netPnl : ℚ
  holdingDays : Nat
deriving DecidableEq, Repr

structure PortfolioSnapshot where
  id : UUID
  runId : UUID
  tradingDate : Date
  cash : ℚ
  marketValue : ℚ
  realizedPnl : ℚ
  unrealizedPnl : ℚ
  totalEquity : ℚ
  cumulativeReturn : ℚ
  runningPeakEquity : ℚ
  drawdown : ℚ
  drawdownPct : ℚ
  openPositionCount : Nat
deriving DecidableEq, Repr

/-- What an executor reads of a run. -/
structure RunRequest where
  id : UUID
  startDate : Date
  endDate : Date
  parameters : Dict String Value
deriving DecidableEq, Repr

end Screener.Backtest
