import Screener.Backtest.Domain
import Screener.Lib.Loop
import Mathlib.Tactic.Linarith

/-!
# Parameter validation of both execution modes

`BacktestParameters.parse` and `PortfolioParameters.parse` read an untyped JSON
dictionary. A rejected dictionary names the offending parameter; what an
accepted one guarantees is `Accepted`, the only fact later modules use.
-/

namespace Screener.Backtest

open Screener.Lib

/-! ## `Decimal(str(value))` -/

inductive DecimalFailure where
  | invalidOperation
  | valueError
deriving DecidableEq, Repr

/-- `sys.get_int_max_str_digits()`: longer integers have no `str`. -/
def intMaxStrDigits : Nat := 4300

def Value.toDecimal : Value → Except DecimalFailure Dec
  | .int n => if 10 ^ intMaxStrDigits ≤ n.natAbs then .error .valueError else .ok (.finite n)
  | .float d => .ok d
  | .decimal d => .ok d
  | .str s =>
    match DecimalText.read s with
    | some d => .ok d
    | none => .error .invalidOperation
  | _ => .error .invalidOperation

def invalid {α : Type} (message : String) : Except ExecutionError α :=
  .error (.invalidParameters message)

def require (condition : Prop) [Decidable condition] (message : String) :
    Except ExecutionError Unit :=
  if condition then .ok () else invalid message

@[simp] theorem require_ok {condition : Prop} [Decidable condition] {message : String} {u : Unit} :
    require condition message = .ok u ↔ condition := by
  unfold require
  split <;> simp [invalid, *]

/-- Only a finite value is a parameter. -/
def finite (name : String) : Dec → Except ExecutionError ℚ
  | .finite q => .ok q
  | _ => invalid (name ++ " must be finite")

/-! ## Independent mode -/

structure BacktestParameters where
  initialCapital : ℚ
  positionSize : ℚ
  stopLossPct : ℚ
  takeProfitPct : ℚ
  maxHoldingDays : ℤ
  commissionRate : ℚ
  sellTaxRate : ℚ
  slippageRate : ℚ
deriving DecidableEq, Repr

namespace BacktestParameters

def defaults : BacktestParameters where
  initialCapital := 5000000
  positionSize := 500000
  stopLossPct := 5 / 100
  takeProfitPct := 10 / 100
  maxHoldingDays := 10
  commissionRate := 15 / 100000
  sellTaxRate := 15 / 10000
  slippageRate := 1 / 1000

/-- `decimal_value`: a bool is no number here although `bool` is an `int` in the
language; an integer too long for `str` escapes as a plain `ValueError`. -/
def decimalValue (supplied : Dict String Value) (name : String) (default : ℚ) :
    Except ExecutionError ℚ :=
  match supplied.getD name (.decimal (.finite default)) with
  | .null | .bool _ | .list | .dict => invalid (name ++ " must be numeric")
  | value =>
    match value.toDecimal with
    | .ok d => finite name d
    | .error .invalidOperation => invalid (name ++ " must be numeric")
    | .error .valueError =>
      .error (.valueError ("Exceeds the limit (4300 digits) for integer string conversion; " ++
        "use sys.set_int_max_str_digits() to increase the limit"))

def holdingDays (supplied : Dict String Value) : Except ExecutionError ℤ :=
  match supplied.getD "max_holding_days" (.int defaults.maxHoldingDays) with
  | .int n => .ok n
  | _ => invalid "max_holding_days must be an integer"

/-- The values supplied, each missing one at its default, before any range check. -/
def read (supplied : Dict String Value) : Except ExecutionError BacktestParameters := do
  let maxHoldingDays ← holdingDays supplied
  let initialCapital ← decimalValue supplied "initial_capital" defaults.initialCapital
  let positionSize ← decimalValue supplied "position_size" defaults.positionSize
  let stopLossPct ← decimalValue supplied "stop_loss_pct" defaults.stopLossPct
  let takeProfitPct ← decimalValue supplied "take_profit_pct" defaults.takeProfitPct
  let commissionRate ← decimalValue supplied "commission_rate" defaults.commissionRate
  let sellTaxRate ← decimalValue supplied "sell_tax_rate" defaults.sellTaxRate
  let slippageRate ← decimalValue supplied "slippage_rate" defaults.slippageRate
  return { initialCapital, positionSize, stopLossPct, takeProfitPct, maxHoldingDays,
           commissionRate, sellTaxRate, slippageRate }

def requireRate (name : String) (rate : ℚ) : Except ExecutionError Unit :=
  require (0 ≤ rate ∧ rate < 1) (name ++ " must be at least zero and less than one")

def validate (p : BacktestParameters) : Except ExecutionError Unit := do
  require (0 < p.initialCapital) "initial_capital must be greater than zero"
  require (0 < p.positionSize ∧ p.positionSize ≤ p.initialCapital)
    "position_size must be positive and no greater than initial_capital"
  requireRate "commission_rate" p.commissionRate
  requireRate "sell_tax_rate" p.sellTaxRate
  requireRate "slippage_rate" p.slippageRate
  require (0 < p.stopLossPct ∧ p.stopLossPct < 1)
    "stop_loss_pct must be greater than zero and less than one"
  require (0 < p.takeProfitPct ∧ p.takeProfitPct < 10)
    "take_profit_pct must be greater than zero and less than ten"
  require (1 ≤ p.maxHoldingDays) "max_holding_days must be at least one"

def parse (supplied : Dict String Value) : Except ExecutionError BacktestParameters := do
  let result ← read supplied
  validate result
  return result

/-- What validation guarantees. -/
structure Accepted (p : BacktestParameters) : Prop where
  capital : 0 < p.initialCapital
  position : 0 < p.positionSize ∧ p.positionSize ≤ p.initialCapital
  commission : 0 ≤ p.commissionRate ∧ p.commissionRate < 1
  tax : 0 ≤ p.sellTaxRate ∧ p.sellTaxRate < 1
  slippage : 0 ≤ p.slippageRate ∧ p.slippageRate < 1
  stopLoss : 0 < p.stopLossPct ∧ p.stopLossPct < 1
  takeProfit : 0 < p.takeProfitPct ∧ p.takeProfitPct < 10
  holding : 1 ≤ p.maxHoldingDays

/-- The range checks pass exactly on the accepted values. -/
theorem validate_ok {p : BacktestParameters} {u : Unit} : p.validate = .ok u ↔ p.Accepted := by
  simp only [validate, requireRate, bind_ok, require_ok, exists_const]
  constructor
  · rintro ⟨hcap, hpos, hcom, htax, hslip, hstop, htake, hhold⟩
    exact ⟨hcap, hpos, hcom, htax, hslip, hstop, htake, hhold⟩
  · intro h
    exact ⟨h.capital, h.position, h.commission, h.tax, h.slippage, h.stopLoss, h.takeProfit,
      h.holding⟩

theorem parse_ok {supplied : Dict String Value} {p : BacktestParameters} :
    parse supplied = .ok p ↔ read supplied = .ok p ∧ p.Accepted := by
  simp only [parse, bind_ok, validate_ok, exists_const, pure_ok]
  constructor
  · rintro ⟨q, hread, haccepted, rfl⟩
    exact ⟨hread, haccepted⟩
  · rintro ⟨hread, haccepted⟩
    exact ⟨p, hread, haccepted, rfl⟩

/-- The defaults pass their own validation. -/
theorem parse_empty : parse Dict.empty = .ok defaults := by decide +kernel

theorem defaults_accepted : defaults.Accepted := (parse_ok.mp parse_empty).2

end BacktestParameters

/-! ## Portfolio mode -/

structure PortfolioParameters where
  initialCapital : ℚ
  maxOpenPositions : ℤ
  positionSizePct : ℚ
  minimumCashBufferPct : ℚ
  positionSizingMode : String
  trading : BacktestParameters
deriving DecidableEq, Repr

namespace PortfolioParameters

def required : List String :=
  ["initial_capital", "max_open_positions", "position_sizing_mode", "position_size_pct",
   "minimum_cash_buffer_pct"]

/-- `dec`: here a `ValueError` of `str` is caught as well. -/
def dec (values : Dict String Value) (name : String) : Except ExecutionError ℚ :=
  match values.get? name with
  | none => .error (.keyErrorSymbol name)
  | some (.bool _) => invalid (name ++ " must be numeric")
  | some value =>
    match value.toDecimal with
    | .ok d => finite name d
    | .error _ => invalid (name ++ " must be numeric")

def maxOpen (values : Dict String Value) : Except ExecutionError ℤ :=
  match values.getD "max_open_positions" .null with
  | .int n => if n < 1 then invalid "max_open_positions must be a positive integer" else .ok n
  | _ => invalid "max_open_positions must be a positive integer"

theorem maxOpen_pos {values : Dict String Value} {n : ℤ} (h : maxOpen values = .ok n) : 1 ≤ n := by
  unfold maxOpen at h
  split at h
  · split at h
    · simp [invalid] at h
    · simp only [Except.ok.injEq] at h
      omega
  · simp [invalid] at h

def parse (values : Dict String Value) : Except ExecutionError PortfolioParameters := do
  let missing := required.filter fun key => !values.contains key
  require (missing = []) ("portfolio mode requires: " ++ ", ".intercalate missing)
  require (values.contains "position_size" = false)
    "position_size is incompatible with portfolio mode"
  let capital ← dec values "initial_capital"
  let size ← dec values "position_size_pct"
  let buffer ← dec values "minimum_cash_buffer_pct"
  require (0 < capital) "initial_capital must be greater than zero"
  let maximum ← maxOpen values
  require (0 < size ∧ size ≤ 1) "position_size_pct must be greater than zero and at most one"
  require (0 ≤ buffer ∧ buffer < 1)
    "minimum_cash_buffer_pct must be at least zero and less than one"
  require (values.getD "position_sizing_mode" .null = .str "fixed_fraction")
    "position_sizing_mode must be fixed_fraction"
  -- The notional that independent validation asks for is the capital itself.
  let trading ← BacktestParameters.parse (values.set "position_size" (.decimal (.finite capital)))
  return { initialCapital := capital, maxOpenPositions := maximum, positionSizePct := size,
           minimumCashBufferPct := buffer, positionSizingMode := "fixed_fraction", trading }

/-- What validation guarantees. -/
structure Accepted (p : PortfolioParameters) : Prop where
  capital : 0 < p.initialCapital
  positions : 1 ≤ p.maxOpenPositions
  size : 0 < p.positionSizePct ∧ p.positionSizePct ≤ 1
  buffer : 0 ≤ p.minimumCashBufferPct ∧ p.minimumCashBufferPct < 1
  trading : p.trading.Accepted

theorem parse_accepted {values : Dict String Value} {p : PortfolioParameters}
    (h : parse values = .ok p) : p.Accepted := by
  simp only [parse, bind_ok, require_ok, exists_const, pure_ok] at h
  obtain ⟨-, -, capital, -, size, -, buffer, -, hcap, maximum, hmax, hsize, hbuf, -, trading,
    htrading, rfl⟩ := h
  exact ⟨hcap, maxOpen_pos hmax, hsize, hbuf, (BacktestParameters.parse_ok.mp htrading).2⟩

end PortfolioParameters

end Screener.Backtest
