import Screener.Backtest.IndependentSafety

/-!
# What a sale has to keep below

The amounts of a trade before their last rounding, written out in the open at which it is
bought, the raw price at which it is sold and the rates. A trade is quantized where they stay
below the limit of the context.
-/

namespace Screener.Backtest

open Screener.Lib
open Screener.Market (Date)
open DecimalContext (default)

/-! ## One sale -/

/-- What a share costs that is bought at the open. -/
def paidPrice (p : BacktestParameters) (openPrice : ℚ) : ℚ :=
  rounded (openPrice * rounded (1 + p.slippageRate))

/-- What a share brings in that is sold at the raw price. -/
def soldPrice (p : BacktestParameters) (raw : ℚ) : ℚ :=
  rounded (raw * rounded (1 - p.slippageRate))

/-- What the sale earns, before its last rounding. -/
def netAmount (p : BacktestParameters) (openPrice raw : ℚ) (shares : Nat) : ℚ :=
  rounded (rounded (rounded (soldPrice p raw - paidPrice p openPrice) * shares) -
      rounded (rounded (rounded (paidPrice p openPrice * shares) +
        rounded (soldPrice p raw * shares)) * p.commissionRate)) -
    rounded (rounded (soldPrice p raw * shares) * p.sellTaxRate)

/-- Shares bought at an open and sold at a raw price, with the results of all operations but
the last ones rounded: no amount of the sale reaches the limit. -/
structure SaleWithin (p : BacktestParameters) (openPrice raw : ℚ) (shares : Nat) : Prop where
  gross : |rounded (soldPrice p raw - paidPrice p openPrice) * shares| < decimalLimit
  commission : |rounded (rounded (paidPrice p openPrice * shares) +
    rounded (soldPrice p raw * shares)) * p.commissionRate| < decimalLimit
  tax : |rounded (soldPrice p raw * shares) * p.sellTaxRate| < decimalLimit
  slippage : |rounded (rounded (paidPrice p openPrice - openPrice) +
    rounded (raw - soldPrice p raw)) * shares| < decimalLimit
  net : |netAmount p openPrice raw shares| < decimalLimit

/-- The two prices with their slippage do not reach it either. -/
structure PricesWithin (p : BacktestParameters) (openPrice raw : ℚ) : Prop where
  paid : |openPrice * rounded (1 + p.slippageRate)| < decimalLimit
  sold : |raw * rounded (1 - p.slippageRate)| < decimalLimit

section Sale

variable {p : BacktestParameters} {entryBar : DailyBar} {raw : ℚ} {shares : Nat}

theorem amountsFit_iff : default.AmountsFit (default.tradeAmounts p entryBar raw shares) ↔
    PricesWithin p entryBar.open raw ∧ SaleWithin p entryBar.open raw shares := by
  constructor
  · intro h
    exact ⟨⟨default_fits_round.mp h.entryPrice, default_fits_round.mp h.exitPrice⟩,
      ⟨default_fits_round.mp h.gross, default_fits_round.mp h.commission,
        default_fits_round.mp h.tax, default_fits_round.mp h.slippage, default_fits_round.mp h.net⟩⟩
  · rintro ⟨hprices, hsale⟩
    exact ⟨default_fits_round.mpr hprices.paid, default_fits_round.mpr hprices.sold,
      default_fits_round.mpr hsale.gross, default_fits_round.mpr hsale.commission,
      default_fits_round.mpr hsale.tax, default_fits_round.mpr hsale.slippage,
      default_fits_round.mpr hsale.net⟩

/-- A sale of nothing. -/
theorem SaleWithin.zero (p : BacktestParameters) (openPrice raw : ℚ) :
    SaleWithin p openPrice raw 0 := by
  have hzero : rounded 0 = 0 := DecimalContext.round_zero
  constructor <;> simpa [netAmount, hzero] using decimalLimit_pos

end Sale

/-! ## One signal -/

/-- `quantity` of a signal that is bought at the open. -/
def sharesAt (p : BacktestParameters) (openPrice : ℚ) : Nat :=
  ⌊rounded (p.positionSize / paidPrice p openPrice)⌋₊

/-- The exit rule of the shares that are bought at the open. -/
abbrev ruleAt (p : BacktestParameters) (openPrice : ℚ) : ExitRule :=
  default.exitRule p (paidPrice p openPrice)

/-- The entry bar opens above zero, and the shares that are bought there are sold within the
limit on the bar of the first exit. -/
structure SignalWithin (run : RunRequest) (p : BacktestParameters) (bars : List DailyBar)
    (entryBar : DailyBar) : Prop where
  opens : 0 < entryBar.open
  sale : ∀ exitBar reason held,
    FirstExit run (ruleAt p entryBar.open) bars entryBar exitBar reason held →
      SaleWithin p entryBar.open ((ruleAt p entryBar.open).fill exitBar reason)
        (sharesAt p entryBar.open)

section Signal

variable {p : BacktestParameters} {entryBar : DailyBar} {later : List DailyBar} {run : RunRequest}
  {signal : BacktestSignal} {table : NumericTable}

theorem shares_toNat (hp : p.Accepted) (hprice : 0 < paidPrice p entryBar.open) :
    (default.shares p entryBar).toNat = sharesAt p entryBar.open := by
  have hnonneg : 0 ≤ default.round (p.positionSize / paidPrice p entryBar.open) :=
    DecimalContext.round_nonneg (div_nonneg hp.position.1.le hprice.le)
  exact (congrArg Int.toNat (roundDown_of_nonneg hnonneg)).trans (Int.floor_toNat _)

/-- A sale on the bar of the first exit is one at the exit of the loop. -/
theorem forall_firstExit_iff {P : ℚ → Prop} {bars : List DailyBar} (hp : p.Accepted)
    (hdates : (bars.map (·.tradingDate)).Nodup)
    (heligible : eligibleBars run signal bars = entryBar :: later) :
    (∀ exitBar reason held, FirstExit run (default.exitRule p (default.entryPrice p entryBar)) bars
        entryBar exitBar reason held →
      P ((default.exitRule p (default.entryPrice p entryBar)).fill exitBar reason)) ↔
      P (default.exitOf p entryBar later).2.2 := by
  obtain ⟨hraw, hfirst⟩ := DecimalContext.exitOf_firstExit (d := default) hp hdates heligible
  constructor
  · intro h
    rw [hraw]
    exact h _ _ _ hfirst
  · intro h exitBar reason held hexit
    obtain ⟨rfl, rfl⟩ := hfirst.unique hdates hexit
    rw [← hraw]
    exact h

end Signal

end Screener.Backtest
