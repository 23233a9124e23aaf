import Mathlib.Data.Sign.Basic
import Screener.Backtest.IndependentTotality
import Screener.Lib.Streak

/-!
# The two summaries of a run

`calculate_metrics` is stored with the run, `analyze_backtest_trades` is served from
its trades. Counts and totals agree. The streaks of the first pass over breakeven
trades, those of the second are broken by them, and the two read the trades of a day
in different orders. Both compute with 28 digits.
-/

namespace Screener.Backtest

open Screener.Lib
open Screener.Market (Date Symbol DailyBarRecord)
open DecimalContext (default)

/-! ## Outcomes in order -/

/-- A win, a loss or neither. -/
def BacktestTrade.outcome (t : BacktestTrade) : SignType := SignType.sign t.netPnl

abbrev isWin (outcome : SignType) : Bool := outcome = 1

abbrev isLoss (outcome : SignType) : Bool := outcome = -1

abbrev isBreakeven (outcome : SignType) : Bool := outcome = 0

/-- The outcomes as the metrics read them. -/
def exitOutcomes (trades : List BacktestTrade) : List SignType :=
  (trades.insertionSort exitOrder).map (·.outcome)

/-- The outcomes as the analysis reads them. -/
def realizedOutcomes (trades : List BacktestTrade) : List SignType :=
  (trades.insertionSort realizedOrder).map (·.outcome)

theorem outcome_cases (t : BacktestTrade) :
    (0 < t.netPnl ∧ t.outcome = 1) ∨ (t.netPnl < 0 ∧ t.outcome = -1) ∨
      (t.netPnl = 0 ∧ t.outcome = 0) := by
  rcases lt_trichotomy t.netPnl 0 with hneg | hzero | hpos
  · exact .inr (.inl ⟨hneg, sign_neg hneg⟩)
  · exact .inr (.inr ⟨hzero, by rw [BacktestTrade.outcome, hzero, sign_zero]⟩)
  · exact .inl ⟨hpos, sign_pos hpos⟩

/-! ## The streaks of the two loops -/

def Curve.wins (s : Curve) : Streak := ⟨s.currentWins, s.maxWins⟩

def Curve.losses (s : Curve) : Streak := ⟨s.currentLosses, s.maxLosses⟩

def RealizedCurve.wins (s : RealizedCurve) : Streak := ⟨s.currentWins, s.maxWins⟩

def RealizedCurve.losses (s : RealizedCurve) : Streak := ⟨s.currentLosses, s.maxLosses⟩

section Loops

variable (c : DecimalContext)

/-- The metrics leave a breakeven out. -/
theorem step_streaks (s : Curve) (t : BacktestTrade) :
    (c.step s t).wins = (if isBreakeven t.outcome then s.wins else s.wins.next (isWin t.outcome)) ∧
      (c.step s t).losses =
        if isBreakeven t.outcome then s.losses else s.losses.next (isLoss t.outcome) := by
  unfold DecimalContext.step
  rcases outcome_cases t with ⟨h, ho⟩ | ⟨h, ho⟩ | ⟨h, ho⟩
  · simp only [if_pos h, ho]
    exact ⟨rfl, rfl⟩
  · have hnot : ¬ t.netPnl > 0 := not_lt.mpr h.le
    simp only [if_neg hnot, if_pos h, ho]
    exact ⟨rfl, rfl⟩
  · simp only [h, ho, gt_iff_lt, lt_irrefl, if_false]
    exact ⟨rfl, rfl⟩

/-- The analysis ends both streaks at a breakeven. -/
theorem realizedStep_streaks (s : RealizedCurve) (t : BacktestTrade) :
    (c.realizedStep s t).wins = s.wins.next (isWin t.outcome) ∧
      (c.realizedStep s t).losses = s.losses.next (isLoss t.outcome) := by
  unfold DecimalContext.realizedStep
  rcases outcome_cases t with ⟨h, ho⟩ | ⟨h, ho⟩ | ⟨h, ho⟩
  · simp only [if_pos h, ho]
    exact ⟨rfl, rfl⟩
  · have hnot : ¬ t.netPnl > 0 := not_lt.mpr h.le
    simp only [if_neg hnot, if_pos h, ho]
    exact ⟨rfl, rfl⟩
  · simp only [h, ho, gt_iff_lt, lt_irrefl, if_false]
    exact ⟨rfl, rfl⟩

theorem run_streaks (trades : List BacktestTrade) (s : Curve) :
    (trades.foldl c.step s).wins =
        s.wins.through isWin ((trades.map (·.outcome)).filter fun o => !isBreakeven o) ∧
      (trades.foldl c.step s).losses =
        s.losses.through isLoss ((trades.map (·.outcome)).filter fun o => !isBreakeven o) := by
  induction trades generalizing s with
  | nil => exact ⟨rfl, rfl⟩
  | cons trade trades ih =>
    obtain ⟨hwins, hlosses⟩ := ih (c.step s trade)
    obtain ⟨hwin, hloss⟩ := step_streaks c s trade
    rw [List.foldl_cons, hwins, hlosses, hwin, hloss, List.map_cons, List.filter_cons]
    by_cases hbreakeven : isBreakeven trade.outcome = true
    · simp only [hbreakeven, if_true, Bool.not_true, Bool.false_eq_true, if_false, and_self]
    · simp only [Bool.not_eq_true] at hbreakeven
      simp only [hbreakeven, Bool.not_false, if_true, Bool.false_eq_true, if_false,
        Streak.through_cons, and_self]

theorem realizedRun_streaks (trades : List BacktestTrade) (s : RealizedCurve) :
    (trades.foldl c.realizedStep s).wins = s.wins.through isWin (trades.map (·.outcome)) ∧
      (trades.foldl c.realizedStep s).losses =
        s.losses.through isLoss (trades.map (·.outcome)) := by
  induction trades generalizing s with
  | nil => exact ⟨rfl, rfl⟩
  | cons trade trades ih =>
    obtain ⟨hwins, hlosses⟩ := ih (c.realizedStep s trade)
    obtain ⟨hwin, hloss⟩ := realizedStep_streaks c s trade
    rw [List.foldl_cons, hwins, hlosses, hwin, hloss, List.map_cons]
    exact ⟨rfl, rfl⟩

/-- The streaks of the analysis. -/
theorem realized_streaks (runId : UUID) (trades : List BacktestTrade) :
    (c.analyzeBacktestTrades runId trades).summary.maxConsecutiveWins =
        (Streak.of isWin (realizedOutcomes trades)).longest ∧
      (c.analyzeBacktestTrades runId trades).summary.maxConsecutiveLosses =
        (Streak.of isLoss (realizedOutcomes trades)).longest := by
  obtain ⟨hwins, hlosses⟩ :=
    realizedRun_streaks c (trades.insertionSort realizedOrder) .start
  exact ⟨congrArg Streak.longest hwins, congrArg Streak.longest hlosses⟩

end Loops

/-! ## Agreement -/

structure SummariesAgree (metrics : BacktestMetrics) (summary : AnalysisSummary) : Prop where
  winning : metrics.winningTrades = summary.winningTrades
  losing : metrics.losingTrades = summary.losingTrades
  grossProfit : metrics.grossProfit = summary.grossProfit
  grossLoss : metrics.grossLoss = summary.grossLoss
  netProfit : metrics.netProfit = summary.netProfit
  wins : metrics.maxConsecutiveWins = summary.maxConsecutiveWins
  losses : metrics.maxConsecutiveLosses = summary.maxConsecutiveLosses

/-- Rounded to eight places, each sum comes in the order of the list to what it comes to by
`exit_date, symbol, id`. -/
structure SumsAlike (trades : List BacktestTrade) : Prop where
  profit : quantize (default.grossProfit trades) =
    default.grossProfit (trades.insertionSort realizedOrder)
  loss : quantize (default.grossLoss trades) =
    default.grossLoss (trades.insertionSort realizedOrder)
  net : quantize (default.netProfit trades) =
    default.netProfit (trades.insertionSort realizedOrder)

/-- Every P&L is a multiple of `0.00000001`, as those of the executors are. Others may still
sum alike. -/
def TotalsAlike (trades : List BacktestTrade) : Prop :=
  (∀ t ∈ trades, OnGrid 8 t.netPnl) ∨ SumsAlike trades

/-- Trades of one outcome such that, by `exit_date, entry_date, symbol, id`, no trade of
the other stands between two of them. Breakevens may. -/
def ExitStreak (outcome : SignType → Bool) (trades streak : List BacktestTrade) : Prop :=
  Streak.Together exitKey (fun t => outcome t.outcome) (fun t => isBreakeven t.outcome) trades
    streak

/-- Trades of one outcome such that, by `exit_date, symbol, id`, no other trade stands
between two of them. -/
def RealizedStreak (outcome : SignType → Bool) (trades streak : List BacktestTrade) : Prop :=
  Streak.Together realizedKey (fun t => outcome t.outcome) (fun _ => false) trades streak

/-- As many wins can be found together in one order as in the other, and as many losses. -/
structure StreaksMatch (trades : List BacktestTrade) : Prop where
  wins : ∀ n, (∃ streak, ExitStreak isWin trades streak ∧ streak.length = n) ↔
    ∃ streak, RealizedStreak isWin trades streak ∧ streak.length = n
  losses : ∀ n, (∃ streak, ExitStreak isLoss trades streak ∧ streak.length = n) ↔
    ∃ streak, RealizedStreak isLoss trades streak ∧ streak.length = n

/-- Breakevens left out, the two orders read the same wins and losses. -/
def OrdersAlike (trades : List BacktestTrade) : Prop :=
  ((exitOutcomes trades).filter fun o => !isBreakeven o) =
    (realizedOutcomes trades).filter fun o => !isBreakeven o

/-- Some longest winning streak and some longest losing streak, breakevens left out,
have no breakeven inside. -/
structure StreaksUnbroken (trades : List BacktestTrade) : Prop where
  wins : Streak.LongestUnbroken isWin isBreakeven (realizedOutcomes trades)
  losses : Streak.LongestUnbroken isLoss isBreakeven (realizedOutcomes trades)

section Agreement

variable {trades : List BacktestTrade} {totalSignals : Nat} {p : BacktestParameters}
  {metrics : BacktestMetrics}

/-- What the metrics say of the trades: the sums could be quantized. -/
structure MetricsOf (trades : List BacktestTrade) (metrics : BacktestMetrics) : Prop where
  winning : metrics.winningTrades = (trades.filter (·.netPnl > 0)).length
  losing : metrics.losingTrades = (trades.filter (·.netPnl < 0)).length
  profit_fits : default.Fits (default.grossProfit trades)
  profit : metrics.grossProfit = quantize (default.grossProfit trades)
  loss_fits : default.Fits (default.grossLoss trades)
  loss : metrics.grossLoss = quantize (default.grossLoss trades)
  net : metrics.netProfit = quantize (default.netProfit trades)
  wins : metrics.maxConsecutiveWins =
    (Streak.of isWin ((exitOutcomes trades).filter fun o => !isBreakeven o)).longest
  losses : metrics.maxConsecutiveLosses =
    (Streak.of isLoss ((exitOutcomes trades).filter fun o => !isBreakeven o)).longest

theorem calculateMetrics_of (h : default.calculateMetrics trades totalSignals p = .ok metrics) :
    MetricsOf trades metrics := by
  simp only [DecimalContext.calculateMetrics, bind_ok, DecimalContext.quantize_ok, pure_ok] at h
  obtain ⟨_, -, _, -, _, ⟨hprofit, rfl⟩, _, ⟨hloss, rfl⟩, _, ⟨-, rfl⟩, _, -, _, -, _, -, _, -,
    _, -, _, -, _, -, rfl⟩ := h
  obtain ⟨hwins, hlosses⟩ :=
    run_streaks default (trades.insertionSort exitOrder) (Curve.start p.initialCapital)
  exact ⟨rfl, rfl, hprofit, rfl, hloss, rfl, rfl, congrArg Streak.longest hwins,
    congrArg Streak.longest hlosses⟩

/-- Multiples of `10 ^ -8` whose sums can be quantized are summed exactly, in any order. -/
theorem sumsAlike_of_onGrid (hgrid : ∀ t ∈ trades, OnGrid 8 t.netPnl)
    (hmetrics : MetricsOf trades metrics) : SumsAlike trades := by
  have hperm := List.perm_insertionSort realizedOrder trades
  have hnets : ∀ net ∈ trades.map BacktestTrade.netPnl, OnGrid 8 net :=
    List.forall_mem_map.mpr hgrid
  have hordered : ∀ net ∈ (trades.insertionSort realizedOrder).map BacktestTrade.netPnl,
      OnGrid 8 net := fun net hnet => hnets net ((hperm.map _).mem_iff.mp hnet)
  have hprofits := (profit_fits hnets).mp (grossProfit_eq trades ▸ hmetrics.profit_fits)
  have hlosses := (loss_fits hnets).mp (grossLoss_eq trades ▸ hmetrics.loss_fits)
  have hprofit : profitSum ((trades.insertionSort realizedOrder).map BacktestTrade.netPnl) =
      profitSum (trades.map BacktestTrade.netPnl) := ((hperm.map _).filter _).sum_eq
  have hloss : lossSum ((trades.insertionSort realizedOrder).map BacktestTrade.netPnl) =
      lossSum (trades.map BacktestTrade.netPnl) := ((hperm.map _).filter _).sum_eq
  obtain ⟨h₁, h₂, h₃⟩ := sums_eq hnets hprofits hlosses
  obtain ⟨k₁, k₂, k₃⟩ := sums_eq hordered (hprofit ▸ hprofits) (hloss ▸ hlosses)
  constructor
  · rw [grossProfit_eq, grossProfit_eq, h₁, k₁, hprofit]
    exact quantizeWith_of_onGrid roundHalfEven_intCast (onGrid_sum (profits_onGrid hnets))
  · rw [grossLoss_eq, grossLoss_eq, h₂, k₂, hloss]
    exact quantizeWith_of_onGrid roundHalfEven_intCast (onGrid_sum (losses_onGrid hnets))
  · rw [DecimalContext.netProfit, DecimalContext.netProfit, h₃, k₃, (hperm.map _).sum_eq]
    exact quantizeWith_of_onGrid roundHalfEven_intCast (onGrid_sum hnets)

theorem totalsAlike_iff (hmetrics : MetricsOf trades metrics) :
    TotalsAlike trades ↔ SumsAlike trades :=
  or_iff_right_of_imp fun hgrid => sumsAlike_of_onGrid hgrid hmetrics

/-- The counts always agree. -/
theorem summariesAgree_iff (runId : UUID) (hmetrics : MetricsOf trades metrics) :
    SummariesAgree metrics (default.analyzeBacktestTrades runId trades).summary ↔
      TotalsAlike trades ∧
        metrics.maxConsecutiveWins =
          (default.analyzeBacktestTrades runId trades).summary.maxConsecutiveWins ∧
        metrics.maxConsecutiveLosses =
          (default.analyzeBacktestTrades runId trades).summary.maxConsecutiveLosses := by
  have hcount : ∀ test : BacktestTrade → Bool, (trades.filter test).length =
      (((trades.insertionSort realizedOrder).filter test).map (·.netPnl)).length := by
    intro test
    rw [List.length_map]
    exact ((List.perm_insertionSort realizedOrder trades).filter test).length_eq.symm
  rw [totalsAlike_iff hmetrics]
  constructor
  · intro hagree
    exact ⟨⟨hmetrics.profit ▸ hagree.grossProfit, hmetrics.loss ▸ hagree.grossLoss,
      hmetrics.net ▸ hagree.netProfit⟩, hagree.wins, hagree.losses⟩
  · rintro ⟨hsums, hwins, hlosses⟩
    exact ⟨hmetrics.winning.trans (hcount _), hmetrics.losing.trans (hcount _),
      hmetrics.profit.trans hsums.profit, hmetrics.loss.trans hsums.loss,
      hmetrics.net.trans hsums.net, hwins, hlosses⟩

theorem exitStreak_iff {outcome : SignType → Bool} (hids : (trades.map (·.id)).Nodup)
    (houtcome : ∀ o, outcome o = true → isBreakeven o = false) {n : Nat} :
    n ≤ (Streak.of outcome ((exitOutcomes trades).filter fun o => !isBreakeven o)).longest ↔
      ∃ streak, ExitStreak outcome trades streak ∧ streak.length = n := by
  rw [exitOutcomes, List.filter_map, Streak.of_map]
  refine (Streak.le_longest_iff (exitOrder_strict hids) fun t => houtcome t.outcome).trans ?_
  exact exists_congr fun streak => and_congr_left fun _ =>
    Streak.together_perm (List.perm_insertionSort exitOrder trades)

theorem realizedStreak_iff {outcome : SignType → Bool} (hids : (trades.map (·.id)).Nodup)
    {n : Nat} : n ≤ (Streak.of outcome (realizedOutcomes trades)).longest ↔
      ∃ streak, RealizedStreak outcome trades streak ∧ streak.length = n := by
  have hall : (trades.insertionSort realizedOrder).filter (fun _ => !false) =
      trades.insertionSort realizedOrder := List.filter_eq_self.mpr fun _ _ => rfl
  rw [realizedOutcomes, Streak.of_map, ← hall]
  refine (Streak.le_longest_iff (realizedOrder_strict hids) fun _ _ => rfl).trans ?_
  exact exists_congr fun streak => and_congr_left fun _ =>
    Streak.together_perm (List.perm_insertionSort realizedOrder trades)

/-- The condition on the trades tells the lengths that the two readings count. -/
theorem streaksMatch_iff (hids : (trades.map (·.id)).Nodup) :
    StreaksMatch trades ↔
      (Streak.of isWin ((exitOutcomes trades).filter fun o => !isBreakeven o)).longest =
          (Streak.of isWin (realizedOutcomes trades)).longest ∧
        (Streak.of isLoss ((exitOutcomes trades).filter fun o => !isBreakeven o)).longest =
          (Streak.of isLoss (realizedOutcomes trades)).longest := by
  have hwin : ∀ o, isWin o = true → isBreakeven o = false := by decide
  have hloss : ∀ o, isLoss o = true → isBreakeven o = false := by decide
  have hsame : ∀ a b : Nat, a = b ↔ ∀ n, n ≤ a ↔ n ≤ b :=
    fun a b => ⟨fun heq n => by rw [heq], eq_of_forall_le_iff⟩
  rw [hsame, hsame]
  simp only [exitStreak_iff hids hwin, exitStreak_iff hids hloss, realizedStreak_iff hids]
  exact ⟨fun h => ⟨h.wins, h.losses⟩, fun h => ⟨h.1, h.2⟩⟩

/-- Where the orders are alike, only a breakeven inside a longest streak can tell the two
readings apart. -/
theorem streaksMatch_iff_unbroken (hids : (trades.map (·.id)).Nodup)
    (horder : OrdersAlike trades) : StreaksMatch trades ↔ StreaksUnbroken trades := by
  have hwin : ∀ o, isWin o = true → isBreakeven o = false := by decide
  have hloss : ∀ o, isLoss o = true → isBreakeven o = false := by decide
  rw [streaksMatch_iff hids, horder, Streak.longest_filter_iff hwin,
    Streak.longest_filter_iff hloss]
  exact ⟨fun h => ⟨h.1, h.2⟩, fun h => ⟨h.wins, h.losses⟩⟩

end Agreement

/-! ## The trades of the executors -/

section Executors

variable {c : DecimalContext} {run : RunRequest} {generated : List BacktestSignal}
  {dailyBars : List DailyBarRecord} {uuid4 : Nat → UUID}

/-- The P&L of an independent run is on the grid, as its column is. -/
theorem executeIndependent_onGrid {x : IndependentTrades}
    (h : c.executeIndependent run generated dailyBars uuid4 = .ok x) :
    ∀ t ∈ x.trades, OnGrid 8 t.netPnl :=
  executeIndependent_forall (fun _ _ _ _ _ _ => onGrid_quantizeWith _ _ _) h

/-- So is that of a portfolio run. -/
theorem executePortfolio_onGrid {x : PortfolioRun}
    (h : c.executePortfolio run generated dailyBars uuid4 = .ok x) :
    ∀ t ∈ x.ledger.trades, OnGrid 8 t.netPnl := by
  have hkept : Kept c x.context fun ledger => ∀ t ∈ ledger.trades, OnGrid 8 t.netPnl :=
    { hold := fun _ _ _ h _ => h
      exit := fun _ _ _ _ _ _ _ h _ _ _ => forall_mem_concat h (onGrid_quantizeWith _ _ _)
      skip := fun _ _ h => h
      enter := fun _ _ _ _ _ h _ _ _ => h
      liquidate := fun _ _ _ _ _ h _ _ => forall_mem_concat h (onGrid_quantizeWith _ _ _)
      mark := fun _ _ h => h }
  exact hkept.completed (DecimalContext.executePortfolio_ok h) fun skips _ => by
    simp [Ledger.start]

end Executors

/-! ## A breakeven and a later entry -/

/-- Bought on `entry` and sold on `exit` at a price of one. -/
def plainTrade (id : UUID) (symbol : Symbol) (entry exit : Date) (netPnl : ℚ) : BacktestTrade :=
  { id, runId := 1, symbol, signalDate := 0, entryDate := entry, entryPrice := 1, quantity := 1,
    exitDate := exit, exitPrice := 1, exitReason := .maxHoldingDays, grossPnl := netPnl,
    commission := 0, tax := 0, slippageCost := 0, netPnl, holdingDays := 1 }

/-- A win, a breakeven and a win on three days. -/
def breakevenTrades : List BacktestTrade :=
  [plainTrade 1 "A" 1 2 1, plainTrade 2 "A" 2 3 0, plainTrade 3 "A" 3 4 1]

/-- Three exits of one day: the entry dates put the loss last, the symbols put it between. -/
example : ¬ OrdersAlike
    [plainTrade 1 "A" 1 4 1, plainTrade 2 "B" 3 4 (-1), plainTrade 3 "C" 2 4 1] := by
  unfold OrdersAlike
  decide +kernel

end Screener.Backtest
