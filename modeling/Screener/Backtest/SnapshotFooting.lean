import Screener.Backtest.Analysis
import Screener.Backtest.DailySnapshots

/-!
# What rounding does to the stored amounts

Every column is rounded on its own. The market value of a day is a sum of closing prices
with six decimals, so cash and market value still add up to the equity. Where nothing is
so short, each rounding moves an amount by half a unit of the eighth place.
-/

namespace Screener.Backtest

open Screener.Lib
open Screener.Market (Date Symbol DailyBarRecord)

variable {c : Context}

/-! ## The marks -/

/-- Every open position is marked at a price with six decimals. -/
def MarkedOnGrid (ledger : Ledger) : Prop :=
  ∀ symbol position, ledger.state.positions.get? symbol = some position →
    OnGrid 6 position.lastClose

/-- So it is at the end of `day`: what has no bar that day is marked already. -/
def MarkedBy (c : Context) (day : Date) (ledger : Ledger) : Prop :=
  ∀ symbol position, ledger.state.positions.get? symbol = some position →
    OnGrid 6 position.lastClose ∨ ∃ bar, (c.bars day).get? symbol = some bar

theorem markedBy_keptOn (day : Date) : KeptOn .unlimited c day (MarkedBy c day) where
  hold _ symbol position _ h hget _ _ := Dict.forall_get?_set h (h symbol position hget)
  exit ledger symbol position _ _ _ h hget _ _ := by
    have hheld : MarkedBy c day (holdPosition ledger symbol position) :=
      Dict.forall_get?_set h (h symbol position hget)
    exact Dict.forall_get?_erase hheld symbol
  skip _ _ h := h
  enter _ _ bar _ h _ hbar _ _ := Dict.forall_get?_set h (.inr ⟨bar, hbar⟩)
  liquidate _ symbol _ _ h _ _ _ := Dict.forall_get?_erase h symbol

/-- The closes that the day loop reads have six decimals. -/
def ClosesOnGrid (c : Context) : Prop :=
  ∀ day symbol bar, (c.bars day).get? symbol = some bar → OnGrid 6 bar.close

theorem MarkedBy.mark {day : Date} {ledger : Ledger} (h : MarkedBy c day ledger)
    (hcloses : ClosesOnGrid c) : MarkedOnGrid (closeDay c day (c.bars day) ledger) := by
  refine Dict.forall_get?_mapValues_iff.mpr ?_
  intro symbol position hget
  unfold markPosition
  cases hbar : (c.bars day).get? symbol with
  | some bar => exact hcloses day symbol bar hbar
  | none =>
    rcases h symbol position hget with hgrid | ⟨bar, hsome⟩
    · exact hgrid
    · rw [hbar] at hsome
      cases hsome

theorem MarkedOnGrid.runDay {day : Date} {ledger ledger' : Ledger} (hledger : MarkedOnGrid ledger)
    (hcloses : ClosesOnGrid c) (h : runDay c ledger day = .ok ledger') : MarkedOnGrid ledger' := by
  obtain ⟨liquidated, hmarked, rfl⟩ := (markedBy_keptOn day).runDay h fun symbol position hget =>
    .inl (hledger symbol position hget)
  exact hmarked.mark hcloses

theorem MarkedOnGrid.market {ledger : Ledger} (h : MarkedOnGrid ledger) :
    OnGrid 6 ledger.state.market :=
  Dict.sum_induction onGrid_zero (fun _ _ => OnGrid.add) fun symbol position hget =>
    (h symbol position hget).mul_natCast _

theorem runDays_market {days : List Date} {start ledger : Ledger} (hstart : MarkedOnGrid start)
    (hnone : start.closes = []) (hcloses : ClosesOnGrid c)
    (h : days.foldlM (runDay c) start = .ok ledger) :
    ∀ close ∈ ledger.closes, OnGrid 6 close.2.market := by
  have hI : MarkedOnGrid ledger ∧ ∀ close ∈ ledger.closes, OnGrid 6 close.2.market := by
    refine foldlM_invariant
      (fun l : Ledger => MarkedOnGrid l ∧ ∀ close ∈ l.closes, OnGrid 6 close.2.market) ?_ h
      ⟨hstart, by simp [hnone]⟩
    rintro day - s t ⟨hmarked, hmarkets⟩ hst
    have hafter := hmarked.runDay hcloses hst
    rw [(runDay_closed hst).closes]
    exact ⟨hafter, forall_mem_concat hmarkets hafter.market⟩
  exact hI.2

/-! ## Footing -/

structure Foots (s : PortfolioSnapshot) : Prop where
  equity : s.cash + s.marketValue = s.totalEquity
  peak : |s.runningPeakEquity - s.drawdown - s.totalEquity| ≤ 1 / 10 ^ 8

theorem SnapshotOf.foots {capital : ℚ} {day : Date} {state : PortfolioState} {s : PortfolioSnapshot}
    (h : SnapshotOf capital day state s) (hmarket : OnGrid 6 state.market) : Foots s := by
  constructor
  case equity =>
    have hfiner : OnGrid 7 state.market := hmarket.finer (by norm_num)
    rw [h.cash, h.marketValue, h.totalEquity, PortfolioState.equity]
    rw [show quantize (state.cash + state.market) = quantize state.cash + state.market from
      quantizeWith_add_onGrid hfiner state.cash]
    rw [show quantize state.market = state.market from
      quantizeWith_of_onGrid roundHalfEven_intCast (hfiner.finer (by norm_num))]
  case peak =>
    have hround := abs_quantizeWith_sub_sub_le 8 state.runningPeak
      (state.runningPeak - state.equity)
    rw [sub_sub_cancel] at hround
    rw [h.runningPeakEquity, h.drawdown, h.totalEquity]
    exact hround

section Execution

variable {run : RunRequest} {generated : List BacktestSignal} {dailyBars : List DailyBarRecord}
  {uuid4 : Nat → UUID} {execution : PortfolioExecution}

/-- **Footing.** Over bars with six decimals, the stored cash and market value of every day
add up to the stored equity, and the stored peak less the stored drawdown is within one unit
of the eighth place of it. -/
theorem snapshots_foot (h : executePortfolio run generated dailyBars uuid4 = .ok execution)
    (hprices : ∀ r ∈ dailyBars, ∀ price ∈ [r.open, r.high, r.low, r.close], OnGrid 6 price) :
    ∀ s ∈ execution.ledger.snapshots, Foots s := by
  have hcloses : ClosesOnGrid execution.context := by
    intro day symbol bar hbar
    obtain ⟨⟨row, hrow, rfl⟩, -⟩ := (execution_bar h).mp hbar
    exact hprices row hrow row.close (by simp)
  have hcurve := executePortfolio_curve h
  have hcompleted := executePortfolio_ok h
  have hdays := hcompleted.days
  rw [hcompleted.start] at hdays
  have hmarkets := runDays_market (fun symbol position hget => by cases hget) rfl hcloses hdays
  intro s hs
  obtain ⟨close, hclose, hof⟩ := hcurve.of_mem hs
  exact hof.foots (hmarkets close hclose)

end Execution

theorem snapshots_foot_sample :
    ∃ execution, executePortfolio sampleRun sampleSignals sampleBars id = .ok execution ∧
      ∀ s ∈ execution.ledger.snapshots, Foots s := by
  obtain ⟨execution, h⟩ := sampleRun_completes
  exact ⟨execution, h, snapshots_foot h (by decide +kernel)⟩

/-! ## Two ways to the net profit -/

section Execution

variable {run : RunRequest} {generated : List BacktestSignal} {dailyBars : List DailyBarRecord}
  {uuid4 : Nat → UUID} {execution : PortfolioExecution}

/-- The stored final equity is half a unit at most from the capital and all profits. -/
theorem finalEquity_near (h : executePortfolio run generated dailyBars uuid4 = .ok execution) :
    |(execution.ledger.snapshots.getLast?.map (·.totalEquity)).getD
      execution.context.p.initialCapital -
      (execution.context.p.initialCapital +
        (execution.ledger.journal.filterMap Event.closedNet?).sum)| ≤ 1 / 2 / 10 ^ 8 := by
  have hequity := executePortfolio_equity h
  rw [executePortfolio_cash h] at hequity
  have hcompleted := executePortfolio_ok h
  have hrun := hcompleted.days
  by_cases hdays : execution.context.dates = []
  · -- Without a date nothing is traded.
    rw [hdays, foldlM_nil_ok] at hrun
    rw [← hrun, hcompleted.start]
    norm_num [Ledger.start]
  · obtain ⟨day, before, ⟨last, hsnapshots, hof⟩, -, -⟩ := runDays_last hdays hrun
    rw [hsnapshots, List.getLast?_concat, Option.map_some, Option.getD_some, hequity,
      hof.totalEquity]
    exact abs_quantize_sub_le _

/-- **The two net profits.** The sum of the stored trades and the profit of the stored
equity differ by half a unit of the eighth place for each trade and two more. -/
theorem netProfit_paths (runId : UUID)
    (h : executePortfolio run generated dailyBars uuid4 = .ok execution)
    {stored : List BacktestTrade} (hstored : stored.Perm execution.ledger.trades) :
    |(analyzeBacktestTrades runId stored).summary.netProfit - execution.metrics.netProfit| ≤
      (stored.length + 2) * (1 / 2 / 10 ^ 8) := by
  have htrades := (executePortfolio_accounts h).trades
  have hfinal := abs_le.mp (finalEquity_near h)
  have hmetrics := (executePortfolio_ok h).metrics
  generalize execution.ledger.journal.filterMap Event.closedNet? = nets at htrades hfinal
  generalize hequity : (execution.ledger.snapshots.getLast?.map (·.totalEquity)).getD
    execution.context.p.initialCapital = equity at hfinal
  have hanalysis : (analyzeBacktestTrades runId stored).summary.netProfit =
      (nets.map quantize).sum := by
    have hsum : (analyzeBacktestTrades runId stored).summary.netProfit =
        ((stored.insertionSort realizedOrder).map (·.netPnl)).sum :=
      DecimalContext.unlimited_sum _
    rw [hsum, (((List.perm_insertionSort realizedOrder stored).trans hstored).map _).sum_eq,
      htrades]
  have hmetric : execution.metrics.netProfit =
      quantize (equity - execution.context.p.initialCapital) := by
    rw [hmetrics, ← hequity]
    rfl
  have hlength : stored.length = nets.length := by
    rw [hstored.length_eq, ← List.length_map (f := (·.netPnl)), htrades, List.length_map]
  have hnets : |(nets.map quantize).sum - nets.sum| ≤ nets.length * (1 / 2 / 10 ^ 8) :=
    abs_sum_quantizeWith_sub_le 8 nets
  have hround := abs_le.mp (abs_quantize_sub_le (equity - execution.context.p.initialCapital))
  have hall : ((nets.length : ℚ) + 2) * (1 / 2 / 10 ^ 8) =
      nets.length * (1 / 2 / 10 ^ 8) + 1 / 2 / 10 ^ 8 + 1 / 2 / 10 ^ 8 := by
    ring
  rw [abs_le] at hnets
  rw [hanalysis, hmetric, hlength, hall, abs_le]
  constructor <;> linarith

end Execution

theorem netProfit_paths_sample :
    ∃ execution, executePortfolio sampleRun sampleSignals sampleBars id = .ok execution ∧
      |(analyzeBacktestTrades 1 execution.ledger.trades).summary.netProfit -
          execution.metrics.netProfit| ≤
        (execution.ledger.trades.length + 2) * (1 / 2 / 10 ^ 8) := by
  obtain ⟨execution, h⟩ := sampleRun_completes
  exact ⟨execution, h, netProfit_paths 1 h (List.Perm.refl _)⟩

end Screener.Backtest
