import Screener.Backtest.SignalSales

/-!
# When the independent executor raises an arithmetic error

What has to fit, as bounds: on the prices, the quantity and the rates of a sale, and on the
profits and losses that a summary adds up. A zero open is divided by; everything else that
fails does so at `10 ^ 20`.
-/

namespace Screener.Backtest

open Screener.Lib
open Screener.Market (Date maxDate Symbol DailyBarRecord DailyBarTable)
open DecimalContext (default)

/-! ## The signals -/

section Signal

variable {p : BacktestParameters} {run : RunRequest} {signal : BacktestSignal}
  {table : NumericTable}

/-- A signal that is bought on `entryBar` is safe where it opens above zero and its sale at the
exit of the loop keeps to the limit. -/
theorem signalSafe_cons_iff {entryBar : DailyBar} {later : List DailyBar} (hp : p.Accepted)
    (hbars : ∀ bar ∈ entryBar :: later, NumericBar bar) :
    default.SignalSafe p (entryBar :: later) ↔ 0 < entryBar.open ∧
      SaleWithin p entryBar.open (default.exitOf p entryBar later).2.2
        (sharesAt p entryBar.open) := by
  have hentry := hbars entryBar List.mem_cons_self
  have hopens := DecimalContext.entryPrice_ne_zero (c := default) hp hentry
  have hprices : PricesWithin p entryBar.open
      (default.exitOf p entryBar later).2.2 := by
    have h := DecimalContext.prices_fit (c := default) hp hbars 0
    exact ⟨default_fits_round.mp h.1, default_fits_round.mp h.2⟩
  rw [DecimalContext.SignalSafe, hopens]
  refine and_congr_right fun hopen => ?_
  have hprice : 0 < paidPrice p entryBar.open :=
    hopen.trans_le (DecimalContext.open_le_entryPrice (c := default) hp hentry)
  rw [← shares_toNat hp hprice, DecimalContext.amountsOf, amountsFit_iff]
  rcases lt_or_ge (default.shares p entryBar) 1 with hnone | hone
  · have hzero : (DecimalContext.default.shares p entryBar).toNat = 0 := by omega
    rw [hzero]
    exact iff_of_true (fun h => absurd h (not_le.mpr hnone))
      (SaleWithin.zero p _ _)
  · exact ⟨fun h => (h hone).2, fun h _ => ⟨hprices, h⟩⟩

theorem signalSafe_iff (hp : p.Accepted) :
    default.SignalSafe p (laterBars run table.rows signal) ↔
      ∀ entryBar, IsEntryBar run signal (barsOf run table.rows signal.symbol) entryBar →
        SignalWithin run p (barsOf run table.rows signal.symbol) entryBar := by
  have hdates := laterBars_dates run table signal
  cases heligible : laterBars run table.rows signal with
  | nil =>
    exact iff_of_true trivial fun _ hentry => absurd hentry (not_isEntryBar_of_nil heligible)
  | cons entryBar later =>
    have hbars : ∀ bar ∈ entryBar :: later, NumericBar bar := by
      rw [← heligible]
      exact fun bar hbar => NumericTable.bar hbar
    rw [forall_isEntryBar_iff hdates heligible, signalSafe_cons_iff hp hbars,
      ← forall_firstExit_iff (P := fun raw => SaleWithin p entryBar.open raw
        (sharesAt p entryBar.open)) hp hdates heligible]
    exact ⟨fun h => ⟨h.1, h.2⟩, fun h => ⟨h.opens, h.sale⟩⟩

end Signal

/-! ## The summary -/

/-- After each amount the distance from the peak, in units of the peak, is below the limit. -/
def DrawdownsWithin (equity peak : ℚ) : List ℚ → Prop
  | [] => True
  | net :: nets =>
    let equity := rounded (equity + net)
    let peak := max peak equity
    rounded (peak - equity) < decimalLimit * peak ∧ DrawdownsWithin equity peak nets

def profitSum (nets : List ℚ) : ℚ := (nets.filter (0 < ·)).sum

def lossSum (nets : List ℚ) : ℚ := (nets.filter (· < 0)).sum

/-- Bounds on the capital and on what the sales earned and lost. -/
structure SummaryWithin (p : BacktestParameters) (sales : List Sale) : Prop where
  capital : p.initialCapital < decimalLimit
  profits : profitSum (sales.map (·.net)) < 10 ^ 20
  losses : -10 ^ 20 < lossSum (sales.map (·.net))
  total : |(sales.map (·.net)).sum| < decimalLimit * p.initialCapital
  average : sales ≠ [] → |(sales.map fun sale => rounded (sale.net / sale.notional)).foldl
    (fun total value => rounded (total + value)) 0| < decimalLimit * sales.length
  factor : lossSum (sales.map (·.net)) ≠ 0 →
    profitSum (sales.map (·.net)) < decimalLimit * |lossSum (sales.map (·.net))|
  drawdowns : DrawdownsWithin p.initialCapital p.initialCapital
    ((sales.insertionSort (·.key ≤ ·.key)).map (·.net))

section Summary

variable {p : BacktestParameters} {trades : List BacktestTrade}

theorem step_equity (s : Curve) (t : BacktestTrade) :
    (default.step s t).equity = rounded (s.equity + t.netPnl) := by
  unfold DecimalContext.step
  split
  · rfl
  split <;> rfl

theorem step_peak (s : Curve) (t : BacktestTrade) :
    (default.step s t).peak = max s.peak (rounded (s.equity + t.netPnl)) := by
  unfold DecimalContext.step
  split
  · rfl
  split <;> rfl

theorem step_drawdown {s : Curve} (hpeak : 0 < s.peak) (t : BacktestTrade) :
    (default.step s t).drawdown = max s.drawdown (rounded
      (rounded ((default.step s t).peak - (default.step s t).equity) /
        (default.step s t).peak)) := by
  have hpeak' : max s.peak (rounded (s.equity + t.netPnl)) ≠ 0 :=
    (hpeak.trans_le (le_max_left _ _)).ne'
  rw [step_peak, step_equity]
  unfold DecimalContext.step
  split
  · exact if_neg hpeak'
  split <;> exact if_neg hpeak'

/-- The largest drawdown stays below the limit where each one does. -/
theorem drawdown_lt_iff {s : Curve} (hpeak : 0 < s.peak) (hdrawdown : 0 ≤ s.drawdown) :
    |(trades.foldl default.step s).drawdown| < decimalLimit ↔
      s.drawdown < decimalLimit ∧ DrawdownsWithin s.equity s.peak (trades.map (·.netPnl)) := by
  induction trades generalizing s with
  | nil =>
    rw [List.foldl_nil, abs_of_nonneg hdrawdown]
    exact (and_iff_left trivial).symm
  | cons t rest ih =>
    have hnext : 0 < (default.step s t).peak := by
      rw [step_peak]
      exact hpeak.trans_le (le_max_left _ _)
    have hgap : 0 ≤ (default.step s t).peak - (default.step s t).equity := by
      rw [step_peak, step_equity]
      exact sub_nonneg.mpr (le_max_right _ _)
    have hshare := div_nonneg (rounded_nonneg hgap) hnext.le
    have hmax : 0 ≤ (default.step s t).drawdown := by
      rw [step_drawdown hpeak]
      exact hdrawdown.trans (le_max_left _ _)
    rw [List.foldl_cons, ih hnext hmax, step_drawdown hpeak, max_lt_iff, rounded_lt_limit hshare,
      div_lt_iff₀ hnext, and_assoc, step_peak, step_equity]
    rfl

/-! What each line of the summary asks. -/

theorem grossProfit_eq (trades : List BacktestTrade) : default.grossProfit trades =
    default.sum ((trades.map BacktestTrade.netPnl).filter (0 < ·)) := by
  rw [List.filter_map]
  rfl

theorem grossLoss_eq (trades : List BacktestTrade) : default.grossLoss trades =
    default.sum ((trades.map BacktestTrade.netPnl).filter (· < 0)) := by
  rw [List.filter_map]
  rfl

theorem nonneg_of_profit {nets : List ℚ} : ∀ net ∈ nets.filter (0 < ·), 0 ≤ net :=
  fun _ hnet => (of_decide_eq_true (List.mem_filter.mp hnet).2).le

theorem nonpos_of_loss {nets : List ℚ} : ∀ net ∈ nets.filter (· < 0), net ≤ 0 :=
  fun _ hnet => (of_decide_eq_true (List.mem_filter.mp hnet).2).le

section Lines

variable {nets : List ℚ} (hgrid : ∀ net ∈ nets, OnGrid 8 net)
include hgrid

theorem profits_onGrid : ∀ net ∈ nets.filter (0 < ·), OnGrid 8 net := fun net hnet =>
  hgrid net (List.mem_of_mem_filter hnet)

theorem losses_onGrid : ∀ net ∈ nets.filter (· < 0), OnGrid 8 net := fun net hnet =>
  hgrid net (List.mem_of_mem_filter hnet)

theorem profit_fits : default.Fits (default.sum (nets.filter (0 < ·))) ↔
    profitSum nets < 10 ^ 20 :=
  default_sum_fits (profits_onGrid hgrid) nonneg_of_profit

theorem loss_fits : default.Fits (default.sum (nets.filter (· < 0))) ↔
    -10 ^ 20 < lossSum nets :=
  default_sum_fits_of_nonpos (losses_onGrid hgrid) nonpos_of_loss

/-- Within the bounds nothing of the sums is rounded off. -/
theorem sums_eq (hprofits : profitSum nets < 10 ^ 20) (hlosses : -10 ^ 20 < lossSum nets) :
    default.sum (nets.filter (0 < ·)) = profitSum nets ∧
      default.sum (nets.filter (· < 0)) = lossSum nets ∧ default.sum nets = nets.sum :=
  ⟨DecimalContext.sum_eq_of_nonneg (profits_onGrid hgrid) nonneg_of_profit hprofits,
    DecimalContext.sum_eq_of_nonpos (losses_onGrid hgrid) nonpos_of_loss hlosses,
    DecimalContext.sum_eq hgrid hlosses hprofits⟩

/-- The losses lose nothing more by a rounding. -/
theorem factor_fits (hsome : lossSum nets ≠ 0) (hlosses : -10 ^ 20 < lossSum nets) :
    default.Fits (rounded (profitSum nets / rounded |lossSum nets|)) ↔
      profitSum nets < decimalLimit * |lossSum nets| := by
  have hnonpos : lossSum nets ≤ 0 := sum_filter_neg_le nets
  have hnonneg : 0 ≤ profitSum nets := List.sum_nonneg nonneg_of_profit
  have hpos := abs_pos.mpr hsome
  have hkept : rounded |lossSum nets| = |lossSum nets| := by
    rw [abs_of_nonpos hnonpos] at hpos ⊢
    refine DecimalContext.default.round_short _ (onGrid_sum (losses_onGrid hgrid)).neg ?_
    rw [abs_of_pos hpos]
    linarith
  rw [hkept, default_fits_round, abs_div, abs_abs, abs_of_nonneg hnonneg, div_lt_iff₀ hpos]

end Lines

theorem averageReturn_fits : default.Fits (default.perCount (default.sum
    (trades.map default.tradeReturn)) trades.length) ↔ (trades.map BacktestTrade.sale ≠ [] →
      |default.sum (trades.map default.tradeReturn)| < decimalLimit * trades.length) := by
  rw [Ne, List.map_eq_nil_iff]
  unfold DecimalContext.perCount
  split
  · next hnone =>
    refine iff_of_true (DecimalContext.fits_of_le le_rfl (by norm_num)) fun hsome => ?_
    exact absurd (List.length_eq_zero_iff.mp hnone) hsome
  · next hsome =>
    have hcount : (0 : ℚ) < trades.length := by exact_mod_cast Nat.pos_of_ne_zero hsome
    rw [default_fits_round, abs_div, abs_of_pos hcount, div_lt_iff₀ hcount]
    exact ⟨fun h _ => h, fun h => h fun hnil => hsome (by rw [hnil]; rfl)⟩

theorem drawdown_fits (hp : p.Accepted) :
    default.Fits ((trades.insertionSort exitOrder).foldl default.step
      (Curve.start p.initialCapital)).drawdown ↔
        DrawdownsWithin p.initialCapital p.initialCapital
          (((trades.map BacktestTrade.sale).insertionSort (·.key ≤ ·.key)).map (·.net)) := by
  have hsorted : (trades.map BacktestTrade.sale).insertionSort (·.key ≤ ·.key) =
      (trades.insertionSort exitOrder).map BacktestTrade.sale :=
    (List.map_insertionSort exitOrder _ BacktestTrade.sale trades
      fun _ _ _ _ => exitOrder_iff).symm
  rw [hsorted, List.map_map]
  have hstart : (Curve.start p.initialCapital).drawdown < decimalLimit := decimalLimit_pos
  rw [default_fits, drawdown_lt_iff hp.capital le_rfl, and_iff_right hstart]
  rfl

theorem summaryFits_iff (hp : p.Accepted) (hgrid : ∀ t ∈ trades, OnGrid 8 t.netPnl) :
    default.SummaryFits p trades ↔ SummaryWithin p (trades.map BacktestTrade.sale) := by
  have hcapital : default.Fits p.initialCapital ↔ p.initialCapital < decimalLimit := by
    rw [default_fits, abs_of_pos hp.capital]
  have htotal : ∀ net : ℚ, default.Fits (rounded (net / p.initialCapital)) ↔
      |net| < decimalLimit * p.initialCapital := by
    intro net
    rw [default_fits_round, abs_div, abs_of_pos hp.capital, div_lt_iff₀ hp.capital]
  have hgrid : ∀ net ∈ trades.map (·.netPnl), OnGrid 8 net := List.forall_mem_map.mpr hgrid
  have hnets : (trades.map BacktestTrade.sale).map (·.net) = trades.map (·.netPnl) :=
    List.map_map
  have hreturns : (trades.map BacktestTrade.sale).map (fun sale =>
      rounded (sale.net / sale.notional)) = trades.map default.tradeReturn := List.map_map
  have hcount : (trades.map BacktestTrade.sale).length = trades.length := List.length_map _
  constructor
  · intro h
    have hprofit := h.profit
    have hloss := h.loss
    have hfactor := h.profitFactor
    have htotalReturn := (htotal _).mp h.totalReturn
    rw [grossProfit_eq] at hprofit hfactor
    rw [grossLoss_eq] at hloss hfactor
    have hprofits := (profit_fits hgrid).mp hprofit
    have hlosses := (loss_fits hgrid).mp hloss
    obtain ⟨hprofitSum, hlossSum, hnetSum⟩ := sums_eq hgrid hprofits hlosses
    rw [DecimalContext.netProfit, hnetSum] at htotalReturn
    rw [hprofitSum, hlossSum] at hfactor
    refine ⟨hcapital.mp h.capital, ?_, ?_, ?_, ?_, ?_, (drawdown_fits hp).mp h.drawdown⟩
    · rwa [hnets]
    · rwa [hnets]
    · rwa [hnets]
    · rw [hreturns, hcount]
      exact averageReturn_fits.mp h.averageReturn
    · rw [hnets]
      exact fun hsome => (factor_fits hgrid hsome hlosses).mp (hfactor hsome)
  · rintro ⟨hsmall, hprofits, hlosses, hnet, haverage, hfactor, hdrawdowns⟩
    rw [hnets] at hprofits hlosses hnet hfactor
    rw [hreturns, hcount] at haverage
    obtain ⟨hprofitSum, hlossSum, hnetSum⟩ := sums_eq hgrid hprofits hlosses
    refine ⟨hcapital.mpr hsmall, ?_, ?_, ?_, ?_, averageReturn_fits.mpr haverage, ?_,
      (drawdown_fits hp).mpr hdrawdowns⟩
    · rw [grossProfit_eq]
      exact (profit_fits hgrid).mpr hprofits
    · rw [grossLoss_eq]
      exact (loss_fits hgrid).mpr hlosses
    · rw [DecimalContext.netProfit, hnetSum]
      exact DecimalContext.fits_of_onGrid (onGrid_sum hgrid) (abs_lt.mpr
        ⟨hlosses.trans_le (filter_neg_le_sum _), (sum_le_filter_pos _).trans_lt hprofits⟩)
    · rw [DecimalContext.netProfit, hnetSum]
      exact (htotal _).mpr hnet
    · rw [grossProfit_eq, grossLoss_eq, hprofitSum, hlossSum]
      exact fun hsome => (factor_fits hgrid hsome hlosses).mpr (hfactor hsome)

end Summary

/-! ## Totality -/

/-- Every entry bar opens above zero and keeps its sale within the limit, and the sales of all
signals keep to the bounds of a summary. -/
structure RunWithin (run : RunRequest) (generated : List BacktestSignal)
    (rows : List DailyBarRecord) (uuid4 : Nat → UUID) (p : BacktestParameters) : Prop where
  signals : ∀ signal ∈ generated, ∀ entryBar,
    IsEntryBar run signal (barsOf run rows signal.symbol) entryBar →
      SignalWithin run p (barsOf run rows signal.symbol) entryBar
  summary : ∀ sales, SalesOf run rows p uuid4 0 (generated.insertionSort BacktestSignal.le) sales →
    SummaryWithin p sales

section Total

variable {run : RunRequest} {generated : List BacktestSignal} {table : NumericTable}
  {uuid4 : Nat → UUID} {p : BacktestParameters}

theorem summaryFits_tradesOf (hp : p.Accepted)
    (hsafe : ∀ signal ∈ generated, default.SignalSafe p (laterBars run table.rows signal)) :
    default.SummaryFits p (default.tradesOf run table.rows p uuid4
        (generated.insertionSort BacktestSignal.le)) ↔
      ∀ sales, SalesOf run table.rows p uuid4 0 (generated.insertionSort BacktestSignal.le) sales →
        SummaryWithin p sales := by
  have hsorted := DecimalContext.sorted_signals.mpr hsafe
  rw [summaryFits_iff hp fun t ht => (DecimalContext.tradesOf_sound hp hsorted t ht).grid]
  constructor
  · intro h sales hsales
    rw [(salesOf_iff hp hsorted).mp hsales]
    exact h
  · intro h
    exact h _ ((salesOf_iff hp hsorted).mpr rfl)

theorem safe_iff_within (hp : p.Accepted) :
    default.Safe run generated table.rows uuid4 p ↔ RunWithin run generated table.rows uuid4 p := by
  constructor
  · intro h
    exact ⟨fun signal hsignal => (signalSafe_iff hp).mp (h.signals signal hsignal),
      (summaryFits_tradesOf hp h.signals).mp h.summary⟩
  · intro h
    have hsafe := fun signal hsignal => (signalSafe_iff hp).mpr (h.signals signal hsignal)
    exact ⟨hsafe, (summaryFits_tradesOf hp hsafe).mpr h.summary⟩

end Total

/-- **Totality of independent mode.** No arithmetic error is raised exactly where each entry
bar opens above zero and the sales and their summary keep below `10 ^ 20`. -/
theorem independent_total_iff {run : RunRequest} {generated : List BacktestSignal}
    {table : NumericTable} {uuid4 : Nat → UUID} {p : BacktestParameters}
    (hparse : BacktestParameters.parse run.parameters = .ok p) :
    DecimalContext.default.Total run generated table.rows uuid4 p ↔
      RunWithin run generated table.rows uuid4 p :=
  (DecimalContext.total_iff_safe hparse).trans
    (safe_iff_within (BacktestParameters.parse_ok.mp hparse).2)

/-- Two days of one stock. -/
def pricedTable : NumericTable where
  rows := [⟨"A", 2, 100, 110, 90, 105, 1⟩, ⟨"A", 3, 100, 120, 90, 105, 1⟩]
  unique := by decide
  nonNegative := by decide
  validOhlc := by decide
  prices := by decide +kernel
  dates := by decide

theorem priced_total : DecimalContext.default.Total ⟨7, 0, 10, Dict.empty⟩ [⟨"A", 1⟩]
    pricedTable.rows id .defaults :=
  (independent_total_iff BacktestParameters.parse_empty).mpr
    ((safe_iff_within BacktestParameters.defaults_accepted).mp
      ⟨by decide +kernel, by decide +kernel⟩)

/-- A stock that opens at zero. -/
def zeroTable : NumericTable where
  rows := [⟨"A", 2, 0, 1, 0, 1, 1⟩]
  unique := by decide
  nonNegative := by decide
  validOhlc := by decide
  prices := by decide +kernel
  dates := by decide

theorem zero_open_divides :
    BacktestParameters.parse Dict.empty = .ok .defaults ∧
      DecimalContext.default.execute ⟨7, 0, 10, Dict.empty⟩ [⟨"A", 1⟩] zeroTable.rows id =
        .error .divisionByZero ∧
      ¬ DecimalContext.default.Total ⟨7, 0, 10, Dict.empty⟩ [⟨"A", 1⟩] zeroTable.rows id
        .defaults := by
  have hraises : DecimalContext.default.execute ⟨7, 0, 10, Dict.empty⟩ [⟨"A", 1⟩] zeroTable.rows
      id =
      .error .divisionByZero := by decide +kernel
  exact ⟨BacktestParameters.parse_empty, hraises, fun h => absurd (h.execute _ hraises) (by decide)⟩

end Screener.Backtest
