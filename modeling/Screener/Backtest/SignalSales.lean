import Screener.Backtest.SaleBounds
import Screener.Backtest.TradeOrders

/-!
# The sales of a run

What each signal comes to, told from the bars: the shares that the open of its entry bar buys
are sold on the bar of the first exit. The trades of a run have these dates, notionals and net
amounts.
-/

namespace Screener.Backtest

open Screener.Lib
open Screener.Market (Date Symbol DailyBarRecord)
open DecimalContext (default)

/-- What a summary reads of a trade: its place in exit order, what was paid and what was
earned. -/
structure Sale where
  key : Date ×ₗ Date ×ₗ Symbol ×ₗ UUID
  notional : ℚ
  net : ℚ

def BacktestTrade.sale (t : BacktestTrade) : Sale :=
  ⟨exitKey t, rounded (t.entryPrice * t.quantity), t.netPnl⟩

/-- The shares that the open of `entryBar` buys, sold on `exitBar`. -/
def saleAt (p : BacktestParameters) (symbol : Symbol) (id : UUID) (entryBar exitBar : DailyBar)
    (reason : BacktestExitReason) : Sale :=
  let shares := sharesAt p entryBar.open
  let raw := (ruleAt p entryBar.open).fill exitBar reason
  { key := toLex (exitBar.tradingDate, toLex (entryBar.tradingDate, toLex (symbol, id)))
    notional := rounded (quantize (paidPrice p entryBar.open) * shares)
    net := quantize (rounded (netAmount p entryBar.open raw shares)) }

section Sales

variable (run : RunRequest) (rows : List DailyBarRecord) (p : BacktestParameters)
  (uuid4 : Nat → UUID)

/-- The sales of the signals in their order, with the ids from the `k`-th on. -/
inductive SalesOf : Nat → List BacktestSignal → List Sale → Prop
  | nil (k : Nat) : SalesOf k [] []
  | unsold {k signal signals sales} :
    (∀ entryBar, IsEntryBar run signal (barsOf run rows signal.symbol) entryBar →
      sharesAt p entryBar.open = 0) →
    SalesOf k signals sales → SalesOf k (signal :: signals) sales
  | sold {k signal signals sales entryBar exitBar reason held} :
    IsEntryBar run signal (barsOf run rows signal.symbol) entryBar →
    1 ≤ sharesAt p entryBar.open →
    FirstExit run (ruleAt p entryBar.open) (barsOf run rows signal.symbol) entryBar exitBar
      reason held →
    SalesOf (k + 1) signals sales →
    SalesOf k (signal :: signals)
      (saleAt p signal.symbol (uuid4 k) entryBar exitBar reason :: sales)

end Sales

variable {run : RunRequest} {table : NumericTable} {p : BacktestParameters}
  {uuid4 : Nat → UUID} {signal : BacktestSignal} {signals : List BacktestSignal}
  {entryBar : DailyBar} {later : List DailyBar} {k : Nat} {sales sales' : List Sale}

theorem laterBars_dates (run : RunRequest) (table : NumericTable) (signal : BacktestSignal) :
    ((barsOf run table.rows signal.symbol).map (·.tradingDate)).Nodup :=
  barsOf_dates (List.mem_singleton_self signal.symbol)
    (loadBars_distinct run table.toDailyBarTable [signal.symbol])

/-- The bars and the parameters settle the sales. -/
theorem SalesOf.unique (h : SalesOf run table.rows p uuid4 k signals sales)
    (h' : SalesOf run table.rows p uuid4 k signals sales') : sales = sales' := by
  induction h generalizing sales' with
  | nil k =>
    cases h'
    rfl
  | unsold hnone _ ih =>
    cases h' with
    | unsold _ hrest => exact ih hrest
    | sold hentry hone _ _ => exact absurd (hnone _ hentry) (by omega)
  | @sold k signal _ _ _ _ _ _ hentry hone hexit _ ih =>
    have hdates := laterBars_dates run table signal
    cases h' with
    | unsold hnone _ => exact absurd (hnone _ hentry) (by omega)
    | sold hentry' _ hexit' hrest =>
      obtain rfl := hentry.unique hdates hentry'
      obtain ⟨rfl, rfl⟩ := hexit.unique hdates hexit'
      rw [ih hrest]

/-- A signal that buys a share comes to a trade with the sale at its first exit. -/
theorem sale_singleTrade (hp : p.Accepted)
    (heligible : laterBars run table.rows signal = entryBar :: later)
    (hprice : 0 < paidPrice p entryBar.open) (id : UUID) :
    (default.singleTrade run signal p entryBar later (default.shares p entryBar).toNat id).sale =
      saleAt p signal.symbol id entryBar (default.exitOf p entryBar later).1
        (default.exitOf p entryBar later).2.1 := by
  obtain ⟨hraw, -⟩ := DecimalContext.exitOf_firstExit (d := default) hp
    (laterBars_dates run table signal) heligible
  rw [shares_toNat hp hprice, saleAt]
  refine congrArg₂ (Sale.mk _) rfl ?_
  exact congrArg (fun raw => quantize (rounded (netAmount p entryBar.open raw
    (sharesAt p entryBar.open)))) hraw

/-- The trades that safe signals come to are their sales. -/
theorem salesOf_fold (hp : p.Accepted)
    (hsafe : ∀ signal ∈ signals, default.SignalSafe p (laterBars run table.rows signal))
    (trades : List BacktestTrade) :
    ∃ rest, signals.foldl (fun trades signal => DecimalContext.appendOutcome trades
        (default.outcomeOf run signal p (uuid4 trades.length) (laterBars run table.rows signal)))
          trades = trades ++ rest ∧
      SalesOf run table.rows p uuid4 trades.length signals (rest.map BacktestTrade.sale) := by
  induction signals generalizing trades with
  | nil => exact ⟨[], (List.append_nil trades).symm, .nil _⟩
  | cons signal signals ih =>
    have hrest := fun other hother => hsafe other (List.mem_cons_of_mem signal hother)
    have hsafe := hsafe signal List.mem_cons_self
    have hdates := laterBars_dates run table signal
    rw [List.foldl_cons]
    cases heligible : laterBars run table.rows signal with
    | nil =>
      obtain ⟨rest, hfold, hsales⟩ := ih hrest trades
      exact ⟨rest, hfold, .unsold
        (fun _ hentry => absurd hentry (not_isEntryBar_of_nil heligible)) hsales⟩
    | cons entryBar later =>
      rw [heligible] at hsafe
      have hentry := isEntryBar_head hdates heligible
      have hbar : NumericBar entryBar :=
        NumericTable.bar (heligible ▸ List.mem_cons_self)
      have hopen := (DecimalContext.entryPrice_ne_zero (c := default) hp hbar).mp hsafe.1
      have hprice : 0 < paidPrice p entryBar.open :=
        hopen.trans_le (DecimalContext.open_le_entryPrice (c := default) hp hbar)
      have hshares := shares_toNat hp hprice
      by_cases hnone : default.shares p entryBar < 1
      · obtain ⟨rest, hfold, hsales⟩ := ih hrest trades
        refine ⟨rest, ?_, .unsold ((forall_isEntryBar_iff hdates heligible).mpr ?_) hsales⟩
        · rw [DecimalContext.outcomeOf, if_pos hnone]
          exact hfold
        · omega
      · obtain ⟨-, hexit⟩ := DecimalContext.exitOf_firstExit (d := default) hp hdates heligible
        have hsale := sale_singleTrade hp heligible hprice (uuid4 trades.length)
        generalize htrade : default.singleTrade run signal p entryBar later
          (default.shares p entryBar).toNat (uuid4 trades.length) = trade at hsale
        obtain ⟨rest, hfold, hsales⟩ := ih hrest (trades ++ [trade])
        refine ⟨trade :: rest, ?_, ?_⟩
        · rw [List.append_assoc] at hfold
          rw [DecimalContext.outcomeOf, if_neg hnone, htrade]
          exact hfold
        · rw [List.length_append] at hsales
          rw [List.map_cons, hsale]
          exact .sold hentry (by omega) hexit hsales

/-- The sales of a run of safe signals are those of its trades. -/
theorem salesOf_iff (hp : p.Accepted)
    (hsafe : ∀ signal ∈ signals, default.SignalSafe p (laterBars run table.rows signal)) :
    SalesOf run table.rows p uuid4 0 signals sales ↔
      sales = (default.tradesOf run table.rows p uuid4 signals).map BacktestTrade.sale := by
  obtain ⟨rest, hfold, hsales⟩ : ∃ rest, default.tradesOf run table.rows p uuid4 signals = rest ∧
      SalesOf run table.rows p uuid4 0 signals (rest.map BacktestTrade.sale) :=
    salesOf_fold hp hsafe []
  rw [hfold]
  constructor
  · intro h
    exact h.unique hsales
  · rintro rfl
    exact hsales

end Screener.Backtest
