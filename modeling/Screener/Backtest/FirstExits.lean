import Screener.Backtest.SaleBounds

/-!
# When a signal takes its first exit

A signal is bought on its earliest bar, with the greatest quantity that the position size
covers, and sold on the first bar that triggers. The 28 digits of the context get in the way
twice: a quotient may be rounded up to the next whole number, and an amount may be too large
to be quantized.
-/

namespace Screener.Backtest

open Screener.Lib
open Screener.Market (Date)
open DecimalContext (default)

section Outcome

variable (run : RunRequest) (signal : BacktestSignal) (bars : List DailyBar)
  (p : BacktestParameters)

/-- The outcome for one entry bar: the greatest quantity that the position size buys, and for
a share or more the trade that ends at the first exit. -/
structure SoldAtFirstExit (entryBar : DailyBar) (quantity : Nat)
    (outcome : Except ExecutionError SignalOutcome) : Prop where
  greatest : IsGreatest {n : Nat | paidPrice p entryBar.open * n ≤ p.positionSize} quantity
  none_iff : outcome = .ok (.skipped .insufficientPositionSize) ↔ quantity = 0
  trade : 1 ≤ quantity → ∃ trade exitBar, outcome = .ok (.trade trade) ∧
    (trade.symbol, trade.signalDate) = (signal.symbol, signal.signalDate) ∧
    trade.entryDate = entryBar.tradingDate ∧
    trade.entryPrice = quantize (paidPrice p entryBar.open) ∧
    trade.quantity = quantity ∧ trade.exitDate = exitBar.tradingDate ∧
    FirstExit run (ruleAt p entryBar.open) bars entryBar exitBar trade.exitReason
      trade.holdingDays

/-- A signal without a bar says so; otherwise it is bought on its earliest bar and sold on the
first bar that triggers, or on the last one. -/
structure TakesFirstExit (outcome : Except ExecutionError SignalOutcome) : Prop where
  noEntry : outcome = .ok (.skipped .noEntryBar) ↔ ∀ bar ∈ bars, ¬ Eligible run signal bar
  entered : ∀ entryBar, IsEntryBar run signal bars entryBar →
    ∃ quantity, SoldAtFirstExit run signal bars p entryBar quantity outcome

/-- The quotient does not round up to another whole number, and where it is a share or more
the prices and amounts of the sale at the first exit stay below what can be quantized. -/
structure ExitWithin (entryBar : DailyBar) : Prop where
  quotient : KeepsWhole precision (p.positionSize / paidPrice p entryBar.open)
  sale : paidPrice p entryBar.open ≤ p.positionSize → ∀ exitBar reason held,
    FirstExit run (ruleAt p entryBar.open) bars entryBar exitBar reason held →
      PricesWithin p entryBar.open ((ruleAt p entryBar.open).fill exitBar reason) ∧
        SaleWithin p entryBar.open ((ruleAt p entryBar.open).fill exitBar reason)
          ⌊p.positionSize / paidPrice p entryBar.open⌋₊

end Outcome

section Entered

variable {run : RunRequest} {signal : BacktestSignal} {bars : List DailyBar}
  {p : BacktestParameters} {entryBar : DailyBar} {later : List DailyBar}

theorem shares_eq (hp : p.Accepted) (hprice : 0 < paidPrice p entryBar.open) :
    default.shares p entryBar = ⌊rounded (p.positionSize / paidPrice p entryBar.open)⌋ :=
  roundDown_of_nonneg (rounded_nonneg (div_nonneg hp.position.1.le hprice.le))

/-- The shares are as many as the position size covers where the quotient keeps its whole part. -/
theorem shares_eq_iff (hp : p.Accepted) (hprice : 0 < paidPrice p entryBar.open) :
    default.shares p entryBar = ⌊p.positionSize / paidPrice p entryBar.open⌋ ↔
      KeepsWhole precision (p.positionSize / paidPrice p entryBar.open) := by
  rw [shares_eq hp hprice]
  exact floor_roundSignificant_iff precision_pos (div_pos hp.position.1 hprice)

/-- What the sale of so many shares has to fit, at the exit of the loop. -/
theorem amountsFit_firstExit_iff (hp : p.Accepted) (hdates : (bars.map (·.tradingDate)).Nodup)
    (heligible : eligibleBars run signal bars = entryBar :: later) (shares : Nat) :
    default.AmountsFit
        (default.tradeAmounts p entryBar (default.exitOf p entryBar later).2.2 shares) ↔
      ∀ exitBar reason held,
        FirstExit run (ruleAt p entryBar.open) bars entryBar exitBar reason held →
          PricesWithin p entryBar.open ((ruleAt p entryBar.open).fill exitBar reason) ∧
            SaleWithin p entryBar.open ((ruleAt p entryBar.open).fill exitBar reason)
              shares := by
  rw [amountsFit_iff]
  exact (forall_firstExit_iff (P := fun raw => PricesWithin p entryBar.open raw ∧
    SaleWithin p entryBar.open raw shares) hp hdates heligible).symm

/-- A trade sells the shares that were bought, and a skip buys none. -/
theorem simulated_shares
    (heligible : eligibleBars run signal bars = entryBar :: later) {id : UUID} {quantity : Nat}
    (h : SoldAtFirstExit run signal bars p entryBar quantity
      (default.simulateSignal run signal bars p id)) :
    (default.shares p entryBar).toNat = quantity ∧ (1 ≤ quantity → default.AmountsFit
      (default.tradeAmounts p entryBar (default.exitOf p entryBar later).2.2 quantity)) := by
  rcases Nat.eq_zero_or_pos quantity with rfl | hone
  · have hskip := h.none_iff.mpr rfl
    rw [DecimalContext.simulateSignal_ok, heligible, DecimalContext.outcomeOf] at hskip
    obtain ⟨-, houtcome⟩ := hskip
    split at houtcome
    · next hnone => exact ⟨by omega, fun hone => absurd hone (by omega)⟩
    · cases houtcome
  · obtain ⟨trade, exitBar, htrade, -, -, -, hquantity, -, -⟩ := h.trade hone
    rw [DecimalContext.simulateSignal_ok, heligible, DecimalContext.outcomeOf] at htrade
    obtain ⟨hsafe, houtcome⟩ := htrade
    split at houtcome
    · cases houtcome
    · next hshares =>
      obtain rfl := SignalOutcome.trade.inj houtcome
      have hsold : (default.shares p entryBar).toNat = quantity := hquantity
      refine ⟨hsold, fun _ => ?_⟩
      rw [← hsold]
      exact hsafe.2 (not_lt.mp hshares)

theorem soldAtFirstExit_of_safe (hp : p.Accepted) (hdates : (bars.map (·.tradingDate)).Nodup)
    (heligible : eligibleBars run signal bars = entryBar :: later)
    (hsafe : default.SignalSafe p (entryBar :: later))
    (hgreatest : IsGreatest {n : Nat | paidPrice p entryBar.open * n ≤ p.positionSize}
      (default.shares p entryBar).toNat) (id : UUID) :
    SoldAtFirstExit run signal bars p entryBar (default.shares p entryBar).toNat
      (default.simulateSignal run signal bars p id) := by
  rw [← heligible] at hsafe
  have houtcome : default.simulateSignal run signal bars p id =
      .ok (default.outcomeOf run signal p id (eligibleBars run signal bars)) :=
    DecimalContext.simulateSignal_ok.mpr ⟨hsafe, rfl⟩
  rw [heligible, DecimalContext.outcomeOf] at houtcome
  refine ⟨hgreatest, ?_, fun hone => ?_⟩
  · rw [houtcome]
    split
    · next hnone => exact iff_of_true rfl (by omega)
    · next hsome => exact iff_of_false (by simp) (by omega)
  · rw [if_neg (by omega)] at houtcome
    obtain ⟨-, hfirst⟩ := DecimalContext.exitOf_firstExit (d := default) hp hdates heligible
    change FirstExit run (ruleAt p entryBar.open) bars entryBar _ _ _ at hfirst
    exact ⟨_, (default.exitOf p entryBar later).1, houtcome, rfl, rfl, rfl, rfl, rfl, hfirst⟩

theorem soldAtFirstExit_iff (hp : p.Accepted) (hdates : (bars.map (·.tradingDate)).Nodup)
    (heligible : eligibleBars run signal bars = entryBar :: later)
    (hprice : 0 < paidPrice p entryBar.open) (id : UUID) :
    (∃ quantity, SoldAtFirstExit run signal bars p entryBar quantity
        (default.simulateSignal run signal bars p id)) ↔ ExitWithin run bars p entryBar := by
  have hquotient := div_nonneg hp.position.1.le hprice.le
  have hcovered := isGreatest_quotient hprice hp.position.1.le
  have hone := one_le_roundDown_div hprice hp.position.1.le
  rw [roundDown_of_nonneg hquotient] at hone
  rw [roundDown_of_nonneg hquotient, Int.floor_toNat] at hcovered
  have hfloor := Int.floor_toNat (p.positionSize / paidPrice p entryBar.open)
  have hnonneg : 0 ≤ default.shares p entryBar := by
    rw [shares_eq hp hprice]
    exact Int.floor_nonneg.mpr (rounded_nonneg hquotient)
  have hfits := amountsFit_firstExit_iff hp hdates heligible
    ⌊p.positionSize / paidPrice p entryBar.open⌋₊
  constructor
  · rintro ⟨quantity, h⟩
    obtain ⟨hshares, hsale⟩ := simulated_shares heligible h
    obtain rfl := h.greatest.unique hcovered
    refine ⟨(shares_eq_iff hp hprice).mp ?_, fun hcover => ?_⟩
    · have hpos : 0 ≤ ⌊p.positionSize / paidPrice p entryBar.open⌋ := Int.floor_nonneg.mpr hquotient
      omega
    · have hcount := hone.mpr hcover
      exact hfits.mp (hsale (by omega))
  · intro h
    have hshares := (shares_eq_iff hp hprice).mpr h.quotient
    have hsafe : default.SignalSafe p (entryBar :: later) := by
      refine ⟨hprice.ne', fun hbought => ?_⟩
      rw [hshares] at hbought
      have hamounts := hfits.mpr (h.sale (hone.mp hbought))
      rwa [← hfloor, ← hshares] at hamounts
    rw [← hfloor, ← hshares] at hcovered
    exact ⟨_, soldAtFirstExit_of_safe hp hdates heligible hsafe hcovered id⟩

end Entered

/-- **When the first exit trigger is taken.** A signal is bought and sold as the rule says
exactly where the quotient keeps its whole part and the sale can be quantized. -/
theorem simulateSignal_firstExit_iff {run : RunRequest} {signal : BacktestSignal}
    {bars : List DailyBar} {p : BacktestParameters} (hp : p.Accepted)
    (hdates : (bars.map (·.tradingDate)).Nodup)
    (hprice : ∀ entryBar, IsEntryBar run signal bars entryBar → 0 < paidPrice p entryBar.open)
    (id : UUID) :
    TakesFirstExit run signal bars p (DecimalContext.default.simulateSignal run signal bars p id) ↔
      ∀ entryBar, IsEntryBar run signal bars entryBar → ExitWithin run bars p entryBar := by
  cases heligible : eligibleBars run signal bars with
  | nil =>
    have hnone : ∀ bar ∈ bars, ¬ Eligible run signal bar := by
      intro bar hbar hin
      have hmem := mem_eligibleBars.mpr ⟨hbar, hin⟩
      rw [heligible] at hmem
      exact List.not_mem_nil hmem
    have hskip : default.simulateSignal run signal bars p id = .ok (.skipped .noEntryBar) := by
      rw [DecimalContext.simulateSignal, heligible]
    refine iff_of_true ⟨iff_of_true hskip hnone, fun entryBar hentry => ?_⟩
      fun entryBar hentry => ?_
    · exact absurd hentry.eligible (hnone entryBar hentry.mem)
    · exact absurd hentry.eligible (hnone entryBar hentry.mem)
  | cons entryBar later =>
    have hentry := isEntryBar_head hdates heligible
    have hsold := soldAtFirstExit_iff hp hdates heligible (hprice entryBar hentry) id
    rw [forall_isEntryBar_iff hdates heligible]
    constructor
    · intro h
      exact hsold.mp (h.entered entryBar hentry)
    · intro h
      refine ⟨iff_of_false (fun hskip => ?_) fun hnone => hnone entryBar hentry.mem hentry.eligible,
        (forall_isEntryBar_iff hdates heligible).mpr (hsold.mpr h)⟩
      rw [DecimalContext.simulateSignal_ok, heligible, DecimalContext.outcomeOf] at hskip
      obtain ⟨-, hskip⟩ := hskip
      split at hskip <;> cases hskip

/-- Three days of a stock, not in their order; the last one falls through the stop. -/
def sampleDays : List DailyBar :=
  [⟨"A", 4, 97, 98, 80, 90⟩, ⟨"A", 2, 100, 103, 98, 101⟩, ⟨"A", 3, 101, 104, 99, 103⟩]

theorem sampleDays_eligible : eligibleBars ⟨7, 0, 10, Dict.empty⟩ ⟨"A", 1⟩ sampleDays =
    [⟨"A", 2, 100, 103, 98, 101⟩, ⟨"A", 3, 101, 104, 99, 103⟩, ⟨"A", 4, 97, 98, 80, 90⟩] := by
  decide +kernel

theorem simulateSignal_firstExit_sample :
    TakesFirstExit ⟨7, 0, 10, Dict.empty⟩ ⟨"A", 1⟩ sampleDays .defaults
      (DecimalContext.default.simulateSignal ⟨7, 0, 10, Dict.empty⟩ ⟨"A", 1⟩ sampleDays
        .defaults 5) := by
  have hp := BacktestParameters.defaults_accepted
  have hdates : (sampleDays.map (·.tradingDate)).Nodup := by decide
  have hprice : ∀ entryBar, IsEntryBar ⟨7, 0, 10, Dict.empty⟩ ⟨"A", 1⟩ sampleDays entryBar →
      0 < paidPrice .defaults entryBar.open := by
    rw [forall_isEntryBar_iff hdates sampleDays_eligible]
    decide +kernel
  refine (simulateSignal_firstExit_iff hp hdates hprice 5).mpr ?_
  rw [forall_isEntryBar_iff hdates sampleDays_eligible]
  refine ⟨by decide +kernel, fun _ => ?_⟩
  exact (amountsFit_firstExit_iff hp hdates sampleDays_eligible _).mp (by decide +kernel)

/-- A position size just below one. -/
def nearlyOne : BacktestParameters :=
  { BacktestParameters.defaults with
    initialCapital := 1, positionSize := 1 - 1 / 10 ^ 29, slippageRate := 0 }

def vastSize : BacktestParameters :=
  { BacktestParameters.defaults with initialCapital := 10 ^ 24, positionSize := 10 ^ 24 }

def priceOne : List DailyBar := [⟨"A", 2, 1, 1, 1, 1⟩]

theorem priceOne_entry :
    IsEntryBar ⟨7, 0, 10, Dict.empty⟩ ⟨"A", 1⟩ priceOne ⟨"A", 2, 1, 1, 1, 1⟩ := by
  have heligible : eligibleBars ⟨7, 0, 10, Dict.empty⟩ ⟨"A", 1⟩ priceOne =
      [⟨"A", 2, 1, 1, 1, 1⟩] := by decide +kernel
  exact isEntryBar_head (by decide) heligible

/-- The quotient of nearly one is rounded up to one, and a share is bought that the position
size does not cover; the amounts of the vast size cannot be quantized. -/
theorem nearlyOne_buys_share :
    (BacktestParameters.parse ⟨[("initial_capital", .int 1),
          ("position_size", .str "0.99999999999999999999999999999"), ("slippage_rate", .int 0)],
          by decide⟩ = .ok nearlyOne ∧
        DecimalContext.default.simulateSignal ⟨7, 0, 10, Dict.empty⟩ ⟨"A", 1⟩ priceOne nearlyOne 5 =
          .ok (.trade (DecimalContext.default.singleTrade ⟨7, 0, 10, Dict.empty⟩ ⟨"A", 1⟩ nearlyOne
            ⟨"A", 2, 1, 1, 1, 1⟩ [] 1 5)) ∧
        ¬ TakesFirstExit ⟨7, 0, 10, Dict.empty⟩ ⟨"A", 1⟩ priceOne nearlyOne
          (DecimalContext.default.simulateSignal ⟨7, 0, 10, Dict.empty⟩ ⟨"A", 1⟩ priceOne nearlyOne
            5)) ∧
      BacktestParameters.parse ⟨[("initial_capital", .str "1E+24"),
          ("position_size", .str "1E+24")], by decide⟩ = .ok vastSize ∧
        DecimalContext.default.simulateSignal ⟨7, 0, 10, Dict.empty⟩ ⟨"A", 1⟩ priceOne vastSize 5 =
          .error .invalidOperation ∧
        ¬ TakesFirstExit ⟨7, 0, 10, Dict.empty⟩ ⟨"A", 1⟩ priceOne vastSize
          (DecimalContext.default.simulateSignal ⟨7, 0, 10, Dict.empty⟩ ⟨"A", 1⟩ priceOne vastSize
            5) := by
  have hnearly : DecimalContext.default.simulateSignal ⟨7, 0, 10, Dict.empty⟩ ⟨"A", 1⟩ priceOne
      nearlyOne 5 = .ok (.trade (DecimalContext.default.singleTrade ⟨7, 0, 10, Dict.empty⟩ ⟨"A", 1⟩
        nearlyOne ⟨"A", 2, 1, 1, 1, 1⟩ [] 1 5)) := by decide +kernel
  have hvast : DecimalContext.default.simulateSignal ⟨7, 0, 10, Dict.empty⟩ ⟨"A", 1⟩ priceOne
      vastSize 5 = .error .invalidOperation := by decide +kernel
  refine ⟨⟨by decide +kernel, hnearly, fun h => ?_⟩, by decide +kernel, hvast, fun h => ?_⟩
  · obtain ⟨quantity, hsold⟩ := h.entered _ priceOne_entry
    have hnone : quantity = 0 := by
      by_contra hsome
      have hcover : (1 : ℚ) ≤ quantity := by exact_mod_cast Nat.one_le_iff_ne_zero.mpr hsome
      have hpaid : paidPrice nearlyOne 1 = 1 := by decide +kernel
      have hle : paidPrice nearlyOne 1 * quantity ≤ 1 - 1 / 10 ^ 29 := hsold.greatest.1
      rw [hpaid] at hle
      norm_num at hle
      linarith
    have hskip := hsold.none_iff.mpr hnone
    rw [hnearly] at hskip
    cases hskip
  · obtain ⟨quantity, hsold⟩ := h.entered _ priceOne_entry
    rcases Nat.eq_zero_or_pos quantity with hnone | hsome
    · have hskip := hsold.none_iff.mpr hnone
      rw [hvast] at hskip
      cases hskip
    · obtain ⟨trade, -, htrade, -⟩ := hsold.trade hsome
      rw [hvast] at htrade
      cases htrade

end Screener.Backtest
