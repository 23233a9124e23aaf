import Mathlib.Data.Rat.Defs
import Mathlib.Algebra.Order.Ring.Rat

/-!
# The `daily_bars` table

Prices are `Numeric(20,6)` columns and are read here as exact rationals. The
table carries its unique key and its two check constraints, so a table that the
database would refuse cannot be built.
-/

namespace Screener.Market

/-- A calendar date by its proleptic ordinal, as `date.toordinal()` numbers it. -/
abbrev Date := Nat

/-- `date.max.toordinal()`. -/
def maxDate : Date := 3652059

/-- A point of time in microseconds. -/
abbrev Instant := ℤ

abbrev Symbol := String

instance : LawfulBEq (Symbol × Date) := inferInstance

structure DailyBarRecord where
  symbol : Symbol
  tradingDate : Date
  «open» : ℚ
  high : ℚ
  low : ℚ
  close : ℚ
  volume : ℤ
deriving DecidableEq, Repr

/-- `ck_daily_bars_non_negative`. -/
def DailyBarRecord.NonNegative (r : DailyBarRecord) : Prop :=
  0 ≤ r.open ∧ 0 ≤ r.high ∧ 0 ≤ r.low ∧ 0 ≤ r.close ∧ 0 ≤ r.volume

/-- `ck_daily_bars_valid_ohlc`. -/
def DailyBarRecord.ValidOhlc (r : DailyBarRecord) : Prop :=
  r.open ≤ r.high ∧ r.close ≤ r.high ∧ r.low ≤ r.high ∧ r.low ≤ r.open ∧ r.low ≤ r.close

instance (r : DailyBarRecord) : Decidable r.NonNegative := by
  unfold DailyBarRecord.NonNegative; infer_instance

instance (r : DailyBarRecord) : Decidable r.ValidOhlc := by
  unfold DailyBarRecord.ValidOhlc; infer_instance

structure DailyBarTable where
  rows : List DailyBarRecord
  unique : (rows.map fun r => (r.symbol, r.tradingDate)).Nodup
  nonNegative : ∀ r ∈ rows, r.NonNegative
  validOhlc : ∀ r ∈ rows, r.ValidOhlc

end Screener.Market
