import Screener.Backtest.PortfolioAccounting
import Screener.Backtest.PortfolioLoading

/-!
# The snapshots and the summary

Each day of the calendar ends in one snapshot, a rounding of the state that the day
leaves. The summary reads the snapshots, and so rounds twice what the last of them rounds
once.
-/

namespace Screener.Backtest

open Screener.Lib
open Screener.Market (Date Symbol DailyBarRecord)

variable {c : Context}

/-! ## One day -/

def Event.marked? : Event → Option (Date × PortfolioState)
  | .marked day _ _ _ after => some (day, after)
  | _ => none

/-- The days marked so far, each with the state it left. -/
def Ledger.closes (ledger : Ledger) : List (Date × PortfolioState) :=
  ledger.journal.filterMap Event.marked?

/-- The snapshot of a state, every amount rounded on its own. -/
structure SnapshotOf (capital : ℚ) (day : Date) (state : PortfolioState) (s : PortfolioSnapshot) :
    Prop where
  tradingDate : s.tradingDate = day
  cash : s.cash = quantize state.cash
  marketValue : s.marketValue = quantize state.market
  realizedPnl : s.realizedPnl = quantize state.realizedPnl
  unrealizedPnl : s.unrealizedPnl = quantize state.unrealized
  totalEquity : s.totalEquity = quantize state.equity
  cumulativeReturn : s.cumulativeReturn = quantize (state.equity / capital - 1)
  runningPeakEquity : s.runningPeakEquity = quantize state.runningPeak
  drawdown : s.drawdown = quantize (state.runningPeak - state.equity)
  drawdownPct : s.drawdownPct = quantize ((state.runningPeak - state.equity) / state.runningPeak)
  openPositionCount : s.openPositionCount = state.positions.size

theorem closeDay_snapshot (ledger : Ledger) (day : Date) (bars : Dict Symbol DailyBar) :
    ∃ s, (closeDay c day bars ledger).snapshots = ledger.snapshots ++ [s] ∧
      SnapshotOf c.p.initialCapital day (closeDay c day bars ledger).state s := by
  rw [closeDay_eq]
  exact ⟨_, rfl, rfl, rfl, rfl, rfl, rfl, rfl, rfl, rfl, rfl, rfl, rfl⟩

/-- What the loops of a day leave alone. -/
structure SameDays (before ledger : Ledger) : Prop where
  snapshots : ledger.snapshots = before.snapshots
  closes : ledger.closes = before.closes
  peak : ledger.state.runningPeak = before.state.runningPeak

theorem SameDays.close {before ledger : Ledger} (h : SameDays before ledger) (symbol : Symbol)
    (position : OpenPosition) (day : Date) (raw : ℚ) (reason : BacktestExitReason) :
    SameDays before (closePosition c ledger symbol position day raw reason) := by
  refine ⟨h.snapshots, ?_, h.peak⟩
  rw [← h.closes, Ledger.closes, closePosition_journal, List.filterMap_append]
  exact List.append_nil _

theorem sameDays_keptOn (before : Ledger) (day : Date) :
    KeptOn .unlimited c day (SameDays before) where
  hold _ _ _ _ h _ _ _ := ⟨h.snapshots, h.closes, h.peak⟩
  exit ledger symbol position _ reason raw h _ _ _ := by
    have hheld : SameDays before (holdPosition ledger symbol position) :=
      ⟨h.snapshots, h.closes, h.peak⟩
    exact hheld.close symbol position.held day raw reason
  skip _ _ h := ⟨h.snapshots, h.closes, h.peak⟩
  enter ledger signal bar quantity h _ _ _ _ := by
    refine ⟨h.snapshots, ?_, h.peak⟩
    rw [← h.closes]
    exact (List.filterMap_append (f := Event.marked?)).trans (List.append_nil _)
  liquidate _ symbol position bar h _ _ _ := h.close symbol position day bar.close .endOfPeriod

/-- A day adds the snapshot of the state it leaves. -/
structure DayClosed (c : Context) (day : Date) (before after : Ledger) : Prop where
  snapshots : ∃ s, after.snapshots = before.snapshots ++ [s] ∧
    SnapshotOf c.p.initialCapital day after.state s
  closes : after.closes = before.closes ++ [(day, after.state)]
  peak : after.state.runningPeak = max before.state.runningPeak after.state.equity

theorem runDay_closed {ledger ledger' : Ledger} {day : Date}
    (h : runDay c ledger day = .ok ledger') :
    DayClosed c day ledger ledger' := by
  obtain ⟨marked, hsame, rfl⟩ :=
    (sameDays_keptOn ledger day).closed h ⟨rfl, rfl, rfl⟩
  constructor
  case snapshots =>
    rw [← hsame.snapshots]
    exact closeDay_snapshot marked day (c.bars day)
  case closes =>
    rw [← hsame.closes, Ledger.closes, closeDay_journal, List.filterMap_append]
    rfl
  case peak =>
    rw [← hsame.peak, closeDay_eq]
    rfl

/-! ## The whole calendar -/

/-- The capital and the unrounded equities of the days. -/
def equities (capital : ℚ) (closes : List (Date × PortfolioState)) : Set ℚ :=
  insert capital {q | ∃ close ∈ closes, close.2.equity = q}

theorem equities_concat (capital : ℚ) (closes : List (Date × PortfolioState)) (day : Date)
    (state : PortfolioState) :
    equities capital (closes ++ [(day, state)]) =
      insert state.equity (equities capital closes) := by
  ext q
  simp only [equities, Set.mem_insert_iff, Set.mem_ofPred_eq, List.mem_append, List.mem_singleton]
  constructor
  · rintro (hq | ⟨close, hclose | rfl, rfl⟩)
    · exact .inr (.inl hq)
    · exact .inr (.inr ⟨close, hclose, rfl⟩)
    · exact .inl rfl
  · rintro (rfl | hq | ⟨close, hclose, rfl⟩)
    · exact .inr ⟨_, .inr rfl, rfl⟩
    · exact .inl hq
    · exact .inr ⟨close, .inl hclose, rfl⟩

/-- The snapshots after the days `days`: each is of the state its day left, whose peak is
the greatest equity so far. -/
structure DailyCurve (capital : ℚ) (days : List Date) (ledger : Ledger) : Prop where
  days : ledger.snapshots.map (·.tradingDate) = days
  length : ledger.closes.length = ledger.snapshots.length
  rows : ∀ k s, ledger.snapshots[k]? = some s → ∃ close, ledger.closes[k]? = some close ∧
    SnapshotOf capital close.1 close.2 s ∧
    IsGreatest (equities capital (ledger.closes.take (k + 1))) close.2.runningPeak
  peak : IsGreatest (equities capital ledger.closes) ledger.state.runningPeak

/-- Every snapshot is of a state that one of the days left. -/
theorem DailyCurve.of_mem {capital : ℚ} {days : List Date} {ledger : Ledger}
    (h : DailyCurve capital days ledger) {s : PortfolioSnapshot} (hs : s ∈ ledger.snapshots) :
    ∃ close ∈ ledger.closes, SnapshotOf capital close.1 close.2 s := by
  obtain ⟨k, hk⟩ := List.mem_iff_getElem?.mp hs
  obtain ⟨close, hclose, hof, -⟩ := h.rows k s hk
  exact ⟨close, List.mem_of_getElem? hclose, hof⟩

theorem DailyCurve.runDay {days : List Date} {ledger ledger' : Ledger} {day : Date}
    (hcurve : DailyCurve c.p.initialCapital days ledger) (h : runDay c ledger day = .ok ledger') :
    DailyCurve c.p.initialCapital (days ++ [day]) ledger' := by
  obtain ⟨⟨s, hsnapshots, hs⟩, hcloses, hpeak⟩ := runDay_closed h
  have hgreatest : IsGreatest (equities c.p.initialCapital ledger'.closes)
      ledger'.state.runningPeak := by
    rw [hcloses, equities_concat, hpeak, max_comm]
    exact hcurve.peak.insert _
  constructor
  case days =>
    rw [hsnapshots, List.map_append, hcurve.days, List.map_singleton, hs.tradingDate]
  case length =>
    rw [hsnapshots, hcloses, List.length_append, List.length_append, hcurve.length]
    rfl
  case rows =>
    rw [hsnapshots]
    apply forall_getElem?_concat
    · intro k other hother
      obtain ⟨close, hclose, hrow, hhigh⟩ := hcurve.rows k other hother
      have hk : k < ledger.closes.length := (List.getElem?_eq_some_iff.mp hclose).1
      rw [hcloses]
      refine ⟨close, ?_, hrow, ?_⟩
      · rw [List.getElem?_append_left hk, hclose]
      · rw [List.take_append_of_le_length (by omega)]
        exact hhigh
    · have hall : ledger'.closes.length ≤ ledger.snapshots.length + 1 := by
        rw [hcloses, List.length_append, hcurve.length, List.length_singleton]
      refine ⟨(day, ledger'.state), ?_, hs, ?_⟩
      · rw [hcloses, ← hcurve.length, List.getElem?_concat_length]
      · rw [List.take_of_length_le hall]
        exact hgreatest
  case peak => exact hgreatest

theorem runDays_curve {days : List Date} {start ledger : Ledger}
    (hstart : DailyCurve c.p.initialCapital [] start)
    (h : days.foldlM (runDay c) start = .ok ledger) :
    DailyCurve c.p.initialCapital days ledger := by
  refine foldlM_prefix_invariant (DailyCurve c.p.initialCapital) days ?_ h hstart
  intro earlier day later s t _ hs hst
  exact hs.runDay hst

/-- The last day of a nonempty calendar leaves the final state. -/
theorem runDays_last {days : List Date} {start ledger : Ledger} (hdays : days ≠ [])
    (h : days.foldlM (runDay c) start = .ok ledger) :
    ∃ day before, DayClosed c day before ledger := by
  rcases List.eq_nil_or_concat days with rfl | ⟨init, day, rfl⟩
  · exact absurd rfl hdays
  · rw [List.concat_eq_append, foldlM_append_ok] at h
    obtain ⟨before, -, hday⟩ := h
    obtain ⟨after, hafter, hdone⟩ := foldlM_cons_ok.mp hday
    obtain rfl := foldlM_nil_ok.mp hdone
    exact ⟨day, before, runDay_closed hafter⟩

section Execution

variable {run : RunRequest} {generated : List BacktestSignal} {dailyBars : List DailyBarRecord}
  {uuid4 : Nat → UUID} {execution : PortfolioExecution}

theorem executePortfolio_curve
    (h : executePortfolio run generated dailyBars uuid4 = .ok execution) :
    DailyCurve execution.context.p.initialCapital (calendar run dailyBars) execution.ledger := by
  have hcompleted := executePortfolio_ok h
  have hrun := hcompleted.days
  rw [hcompleted.dates, hcompleted.start] at hrun
  refine runDays_curve ?_ hrun
  constructor
  case days => rfl
  case length => rfl
  case rows =>
    intro k s hs
    cases hs
  case peak =>
    have hnone : equities execution.context.p.initialCapital [] =
        {execution.context.p.initialCapital} := by
      simp [equities]
    exact hnone ▸ isGreatest_singleton

/-! ## The summary -/

theorem quantize_quantize (q : ℚ) : quantize (quantize q) = quantize q :=
  quantizeWith_of_onGrid roundHalfEven_intCast (onGrid_quantizeWith _ _ _)

theorem abs_quantize_sub_le (q : ℚ) : |quantize q - q| ≤ 1 / 2 / 10 ^ 8 :=
  abs_quantizeWith_sub_le 8 q

theorem isGreatest_maximumOr0 {values : List ℚ} (h : values ≠ []) :
    IsGreatest {q | q ∈ values} (maximumOr0 values) := by
  cases hmax : values.max? with
  | none => exact absurd (List.max?_eq_none_iff.mp hmax) h
  | some q =>
    rw [maximumOr0, hmax, Option.getD_some]
    exact List.max?_eq_some_iff.mp hmax

/-- Rounding moves two amounts apart by one unit at most. -/
theorem abs_quantize_sub_quantize_le (q r : ℚ) :
    |quantize q - quantize r| ≤ |q - r| + 1 / 10 ^ 8 := by
  have hq := abs_le.mp (abs_quantize_sub_le q)
  have hr := abs_le.mp (abs_quantize_sub_le r)
  have hqr := abs_le.mp (le_refl |q - r|)
  rw [abs_le]
  constructor <;> linarith

/-- The return of a stored equity and the return of the equity before it was stored. -/
theorem abs_return_sub_le {capital : ℚ} (hcapital : 0 < capital) (equity : ℚ) :
    |quantize (quantize equity / capital - 1) - quantize (equity / capital - 1)| ≤
      (1 + 1 / 2 / capital) / 10 ^ 8 := by
  have hround := div_le_div_of_nonneg_right (abs_quantize_sub_le equity) hcapital.le
  calc |quantize (quantize equity / capital - 1) - quantize (equity / capital - 1)|
    _ ≤ |quantize equity / capital - 1 - (equity / capital - 1)| + 1 / 10 ^ 8 :=
      abs_quantize_sub_quantize_le _ _
    _ = |quantize equity - equity| / capital + 1 / 10 ^ 8 := by
      rw [sub_sub_sub_cancel_right, ← sub_div, abs_div, abs_of_pos hcapital]
    _ ≤ 1 / 2 / 10 ^ 8 / capital + 1 / 10 ^ 8 := by
      linarith
    _ = (1 + 1 / 2 / capital) / 10 ^ 8 := by
      ring

/-- What the summary says of the last snapshot and of the drawdown columns. -/
structure SummaryFollows (execution : PortfolioExecution) (last : PortfolioSnapshot) : Prop where
  finalEquity : execution.metrics.finalEquity = last.totalEquity
  finalCash : execution.metrics.finalCash = last.cash
  totalReturn : execution.metrics.totalReturn =
    quantize (last.totalEquity / execution.context.p.initialCapital - 1)
  totalReturn_near : |execution.metrics.totalReturn - last.cumulativeReturn| ≤
    (1 + 1 / 2 / execution.context.p.initialCapital) / 10 ^ 8
  totalReturn_onGrid : OnGrid 8 execution.ledger.state.equity →
    execution.metrics.totalReturn = last.cumulativeReturn
  maxDrawdown : IsGreatest {d | ∃ s ∈ execution.ledger.snapshots, s.drawdown = d}
    execution.metrics.maxDrawdown
  maxDrawdownPct : IsGreatest {d | ∃ s ∈ execution.ledger.snapshots, s.drawdownPct = d}
    execution.metrics.maxDrawdownPct
  netProfit : execution.metrics.netProfit =
    quantize (execution.metrics.finalEquity - execution.context.p.initialCapital)

/-- The largest of a rounded column is the column's maximum. -/
theorem isGreatest_column {snapshots : List PortfolioSnapshot} {column : PortfolioSnapshot → ℚ}
    (hne : snapshots ≠ []) (hrounded : ∀ s ∈ snapshots, ∃ q, column s = quantize q) :
    IsGreatest {d | ∃ s ∈ snapshots, column s = d}
      (quantize (maximumOr0 (snapshots.map column))) := by
  have hcolumns : snapshots.map column ≠ [] := fun hnil => hne (List.map_eq_nil_iff.mp hnil)
  have hmax := isGreatest_maximumOr0 hcolumns
  simp only [List.mem_map] at hmax
  obtain ⟨s, hs, hcolumn⟩ := hmax.1
  obtain ⟨q, hq⟩ := hrounded s hs
  rw [← hcolumn, hq, quantize_quantize, ← hq, hcolumn]
  exact hmax

theorem executePortfolio_summary {last : PortfolioSnapshot}
    (h : executePortfolio run generated dailyBars uuid4 = .ok execution)
    (hlast : execution.ledger.snapshots.getLast? = some last)
    (hof : ∃ day, SnapshotOf execution.context.p.initialCapital day execution.ledger.state last) :
    SummaryFollows execution last := by
  obtain ⟨day, hof⟩ := hof
  have hcurve := executePortfolio_curve h
  have hmetrics := (executePortfolio_ok h).metrics
  have hcapital := (executePortfolio_ok h).capital
  have hne : execution.ledger.snapshots ≠ [] := by
    rintro hnil
    rw [hnil] at hlast
    cases hlast
  have hequity : execution.metrics.finalEquity = last.totalEquity := by
    rw [hmetrics]
    simp only [portfolioMetrics_eq, hlast, Option.map_some, Option.getD_some, hof.totalEquity,
      quantize_quantize]
  have hreturn : execution.metrics.totalReturn =
      quantize (last.totalEquity / execution.context.p.initialCapital - 1) := by
    rw [hmetrics]
    simp only [portfolioMetrics_eq, hlast, Option.map_some, Option.getD_some]
  constructor
  case finalEquity => exact hequity
  case finalCash => rw [hmetrics, hof.cash]; rfl
  case totalReturn => exact hreturn
  case totalReturn_near =>
    rw [hreturn, hof.cumulativeReturn, hof.totalEquity]
    exact abs_return_sub_le hcapital execution.ledger.state.equity
  case totalReturn_onGrid =>
    intro hgrid
    rw [hreturn, hof.cumulativeReturn, hof.totalEquity]
    rw [show quantize execution.ledger.state.equity = execution.ledger.state.equity from
      quantizeWith_of_onGrid roundHalfEven_intCast hgrid]
  case maxDrawdown =>
    rw [hmetrics]
    refine isGreatest_column hne fun s hs => ?_
    obtain ⟨close, -, hof⟩ := hcurve.of_mem hs
    exact ⟨_, hof.drawdown⟩
  case maxDrawdownPct =>
    rw [hmetrics]
    refine isGreatest_column hne fun s hs => ?_
    obtain ⟨close, -, hof⟩ := hcurve.of_mem hs
    exact ⟨_, hof.drawdownPct⟩
  case netProfit =>
    rw [hequity, hmetrics]
    simp only [portfolioMetrics_eq, hlast, Option.map_some, Option.getD_some]

/-- **The summary and the curve.** A run over a nonempty calendar has one snapshot for each
of its dates in order, each with the greatest equity so far as its peak, and its summary
reads the last of them. The total return is taken of the stored equity, so it is near the
last cumulative return and equal to it where that equity needs no rounding. -/
theorem summary_follows_curve (h : executePortfolio run generated dailyBars uuid4 = .ok execution)
    (hdates : calendar run dailyBars ≠ []) :
    (calendar run dailyBars).Pairwise (· < ·) ∧
      DailyCurve execution.context.p.initialCapital (calendar run dailyBars) execution.ledger ∧
      ∃ last, execution.ledger.snapshots.getLast? = some last ∧ SummaryFollows execution last := by
  have hrun := (executePortfolio_ok h).days
  rw [(executePortfolio_ok h).dates] at hrun
  obtain ⟨day, before, ⟨last, hsnapshots, hof⟩, -, -⟩ := runDays_last hdates hrun
  have hlast : execution.ledger.snapshots.getLast? = some last := by
    rw [hsnapshots, List.getLast?_concat]
  exact ⟨calendar_pairwise run dailyBars, executePortfolio_curve h, last, hlast,
    executePortfolio_summary h hlast ⟨day, hof⟩⟩

end Execution

theorem summary_follows_curve_sample :
    ∃ execution, executePortfolio sampleRun sampleSignals sampleBars id = .ok execution ∧
      (calendar sampleRun sampleBars).Pairwise (· < ·) ∧
      DailyCurve execution.context.p.initialCapital (calendar sampleRun sampleBars)
        execution.ledger ∧
      ∃ last, execution.ledger.snapshots.getLast? = some last ∧ SummaryFollows execution last := by
  obtain ⟨execution, h⟩ := sampleRun_completes
  exact ⟨execution, h, summary_follows_curve h (by decide +kernel)⟩

/-! ## A capital of a tenth of a cent -/

def smallParameters : Dict String Value :=
  ⟨[("execution_mode", .str "portfolio"), ("initial_capital", .str "0.001"),
    ("max_open_positions", .int 1), ("position_sizing_mode", .str "fixed_fraction"),
    ("position_size_pct", .int 1), ("minimum_cash_buffer_pct", .int 0)], by decide⟩

/-- Three shares at `0.0003` leave `0.00099658135`; stored as `0.00099658`, it gives a
return of `-0.00342` in place of `-0.00341865`. -/
theorem small_capital_returns_differ :
    ∃ execution last, executePortfolio ⟨1, 2, 2, smallParameters⟩ [⟨"A", 1⟩]
        [⟨"A", 2, 0.0003, 0.0003, 0.0003, 0.0003, 0⟩] id = .ok execution ∧
      execution.ledger.snapshots.getLast? = some last ∧
      execution.metrics.totalReturn ≠ last.cumulativeReturn := by
  have hrun : (executePortfolio ⟨1, 2, 2, smallParameters⟩ [⟨"A", 1⟩]
      [⟨"A", 2, 0.0003, 0.0003, 0.0003, 0.0003, 0⟩] id).map (fun e =>
        (e.metrics.totalReturn, e.ledger.snapshots.getLast?.map (·.cumulativeReturn))) =
      .ok (-0.00342, some (-0.00341865)) := by
    decide +kernel
  obtain ⟨execution, h, heq⟩ := map_ok.mp hrun
  obtain ⟨hreturn, hmap⟩ := Prod.mk.inj heq
  obtain ⟨last, hlast, hcumulative⟩ := Option.map_eq_some_iff.mp hmap
  refine ⟨execution, last, h, hlast, ?_⟩
  rw [hreturn, hcumulative]
  norm_num

end Screener.Backtest
