import Screener.Backtest.Domain
import Screener.Lib.Significant

/-!
# Decimal contexts

Every operation rounds its exact result to the digits of the context, and `quantize` raises
where they do not suffice. The executors compute in any context: in that of a new thread as
the program does, and in one without a limit where arithmetic is taken to be exact.
-/

namespace Screener.Backtest

open Screener.Lib

/-- `quantize(MONEY)` and `quantize(RATE)`: eight places, ties to even. -/
def quantize (q : ℚ) : ℚ := quantizeWith roundHalfEven 8 q

def divide (a b : ℚ) : Except ExecutionError ℚ :=
  if b = 0 then .error (if a = 0 then .divisionUndefined else .divisionByZero) else .ok (a / b)

/-- The decimals of a trade before they are quantized. -/
structure TradeAmounts where
  entryPrice : ℚ
  exitPrice : ℚ
  gross : ℚ
  commission : ℚ
  tax : ℚ
  slippage : ℚ
  net : ℚ
deriving DecidableEq, Repr

/-- How a result is rounded, and the coefficients that a quantized result may have.
Numbers of at most 28 digits are kept. -/
structure DecimalContext where
  round : ℚ → ℚ
  holds : ℤ → Bool
  round_mono : MonotoneOn round (Set.Ici 0)
  round_pos : ∀ q, 0 < q → 0 < round q
  round_short : ∀ q, OnGrid 8 q → |q| < 10 ^ 20 → round q = q
  holds_short : ∀ n : ℤ, |n| < 10 ^ 28 → holds n = true

/-- `getcontext().prec`. -/
def precision : Nat := 28

theorem precision_pos : 0 < precision := by decide

theorem precision_short (q : ℚ) (h : OnGrid 8 q) (hq : |q| < 10 ^ 20) :
    roundSignificant precision q = q :=
  roundSignificant_of_onGrid h hq (by decide)

theorem precision_holds (n : ℤ) (h : |n| < 10 ^ 28) :
    decide (n.natAbs < 10 ^ precision) = true := by
  rw [Int.abs_eq_natAbs] at h
  exact decide_eq_true (show n.natAbs < 10 ^ 28 by exact_mod_cast h)

namespace DecimalContext

/-- The context of a new thread. -/
def default : DecimalContext where
  round := roundSignificant precision
  holds n := n.natAbs < 10 ^ precision
  round_mono := roundSignificant_monotoneOn precision_pos
  round_pos _ := roundSignificant_pos precision_pos
  round_short := precision_short
  holds_short := precision_holds

example : default.round (2 / 3) = 6666666666666666666666666667 / 10 ^ 28 := by decide +kernel

/-- Exact arithmetic. -/
def unlimited : DecimalContext where
  round q := q
  holds _ := true
  round_mono := monotoneOn_id
  round_pos _ h := h
  round_short _ _ _ := rfl
  holds_short _ _ := rfl

@[simp] theorem unlimited_round (q : ℚ) : unlimited.round q = q := rfl

variable (c : DecimalContext)

def divide (a b : ℚ) : Except ExecutionError ℚ := (Backtest.divide a b).map c.round

/-- `q` can be quantized. -/
def Fits (q : ℚ) : Prop := c.holds (roundHalfEven (q * 10 ^ 8)) = true

instance (q : ℚ) : Decidable (c.Fits q) := by unfold Fits; infer_instance

/-- `value.quantize(MONEY)`. -/
def quantize (q : ℚ) : Except ExecutionError ℚ :=
  if c.Fits q then .ok (Backtest.quantize q) else .error .invalidOperation

/-- `sum(values, ZERO)`. -/
def sum (values : List ℚ) : ℚ := values.foldl (fun total value => c.round (total + value)) 0

/-- `value / count if count else ZERO`. -/
def perCount (value : ℚ) (count : Nat) : ℚ := if count = 0 then 0 else c.round (value / count)

theorem unlimited_divide (a b : ℚ) : unlimited.divide a b = Backtest.divide a b := by
  rw [divide]
  cases Backtest.divide a b <;> rfl

@[simp] theorem unlimited_fits (q : ℚ) : unlimited.Fits q := rfl

theorem unlimited_sum (values : List ℚ) : unlimited.sum values = values.sum :=
  List.sum_eq_foldl.symm

theorem unlimited_perCount {α : Type} (value : ℚ) (values : List α) :
    unlimited.perCount value values.length = if values = [] then 0 else value / values.length := by
  simp only [perCount, List.length_eq_zero_iff]
  rfl

/-- The amounts of a trade can be quantized. -/
structure AmountsFit (amounts : TradeAmounts) : Prop where
  entryPrice : c.Fits amounts.entryPrice
  exitPrice : c.Fits amounts.exitPrice
  gross : c.Fits amounts.gross
  commission : c.Fits amounts.commission
  tax : c.Fits amounts.tax
  slippage : c.Fits amounts.slippage
  net : c.Fits amounts.net

instance (amounts : TradeAmounts) : Decidable (c.AmountsFit amounts) :=
  decidable_of_iff (c.Fits amounts.entryPrice ∧ c.Fits amounts.exitPrice ∧ c.Fits amounts.gross ∧
    c.Fits amounts.commission ∧ c.Fits amounts.tax ∧ c.Fits amounts.slippage ∧ c.Fits amounts.net)
    ⟨fun ⟨entryPrice, exitPrice, gross, commission, tax, slippage, net⟩ =>
        ⟨entryPrice, exitPrice, gross, commission, tax, slippage, net⟩,
      fun h => ⟨h.entryPrice, h.exitPrice, h.gross, h.commission, h.tax, h.slippage, h.net⟩⟩

theorem unlimited_amountsFit (amounts : TradeAmounts) : unlimited.AmountsFit amounts :=
  ⟨rfl, rfl, rfl, rfl, rfl, rfl, rfl⟩

end DecimalContext

end Screener.Backtest
