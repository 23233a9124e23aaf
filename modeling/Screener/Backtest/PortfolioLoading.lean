import Screener.Backtest.PortfolioRules

/-!
# The calendar and the bar index

The calendar is drawn from the bars of every symbol, the index only from those
of the signalled symbols. Both are described here by what they contain, so that
no later proof looks at how they are built.
-/

namespace Screener.Backtest

open Screener.Lib
open Screener.Market (Date Symbol DailyBarRecord DailyBarTable)

/-! ## The calendar -/

theorem mem_calendar {run : RunRequest} {dailyBars : List DailyBarRecord} {day : Date} :
    day ∈ calendar run dailyBars ↔
      (run.startDate ≤ day ∧ day ≤ run.endDate) ∧ ∃ row ∈ dailyBars, row.tradingDate = day := by
  simp only [calendar, List.mem_insertionSort, List.mem_dedup, List.mem_map, List.mem_filter,
    inRange, Bool.and_eq_true, decide_eq_true_eq]
  constructor
  · rintro ⟨row, ⟨hrow, hrange⟩, rfl⟩
    exact ⟨hrange, row, hrow, rfl⟩
  · rintro ⟨hrange, row, hrow, rfl⟩
    exact ⟨row, ⟨hrow, hrange⟩, rfl⟩

/-- The calendar is strictly ascending. -/
theorem calendar_pairwise (run : RunRequest) (dailyBars : List DailyBarRecord) :
    (calendar run dailyBars).Pairwise (· < ·) := by
  have hsorted := List.pairwise_insertionSort (· ≤ ·)
    ((dailyBars.filter (inRange run)).map (·.tradingDate)).dedup
  have hnodup : (calendar run dailyBars).Nodup :=
    (List.perm_insertionSort _ _).nodup_iff.mpr (List.nodup_dedup _)
  exact (hsorted.and hnodup).imp fun h => lt_of_le_of_ne h.1 h.2

theorem mem_signalSymbols {signals : List BacktestSignal} {symbol : Symbol} :
    symbol ∈ signalSymbols signals ↔ ∃ s ∈ signals, s.symbol = symbol := by
  simp [signalSymbols]

theorem mem_loadBars {run : RunRequest} {dailyBars : List DailyBarRecord} {symbols : List Symbol}
    {bar : DailyBar} :
    bar ∈ loadBars run dailyBars symbols ↔
      ∃ row ∈ dailyBars, (run.startDate ≤ row.tradingDate ∧ row.tradingDate ≤ run.endDate) ∧
        row.symbol ∈ symbols ∧ DailyBar.ofRecord row = bar := by
  simp only [loadBars, List.mem_insertionSort, List.mem_map, List.mem_filter, inRange,
    Bool.and_eq_true, decide_eq_true_eq]
  constructor
  · rintro ⟨row, ⟨⟨hrow, hrange⟩, hsymbol⟩, rfl⟩
    exact ⟨row, hrow, hrange, hsymbol, rfl⟩
  · rintro ⟨row, hrow, hrange, hsymbol, rfl⟩
    exact ⟨row, ⟨⟨hrow, hrange⟩, hsymbol⟩, rfl⟩

/-! ## The index -/

def DailyBar.key (bar : DailyBar) : Symbol × Date := (bar.symbol, bar.tradingDate)

/-- What `by_date` holds once `rows` are read; their keys are then distinct. -/
structure Indexes (rows : List DailyBar) (byDate : Dict Date (Dict Symbol DailyBar)) : Prop where
  keys : (rows.map DailyBar.key).Nodup
  days : ∀ day, day ∈ byDate.keys ↔ ∃ bar ∈ rows, bar.tradingDate = day
  bars : ∀ day symbol bar, (byDate.getD day Dict.empty).get? symbol = some bar ↔
    bar ∈ rows ∧ bar.symbol = symbol ∧ bar.tradingDate = day

theorem addBar_ok {index index' : BarIndex} {row : DailyBar} :
    addBar index row = .ok index' ↔ row.key ∉ index.2 ∧
      (index.1.set row.tradingDate ((index.1.getD row.tradingDate Dict.empty).set row.symbol row),
        row.key :: index.2) = index' := by
  unfold addBar DailyBar.key
  split <;> simp [*]

theorem Indexes.add {rows : List DailyBar} {byDate : Dict Date (Dict Symbol DailyBar)}
    (h : Indexes rows byDate) {row : DailyBar} (hnew : row.key ∉ rows.map DailyBar.key) :
    Indexes (rows ++ [row]) (byDate.set row.tradingDate
      ((byDate.getD row.tradingDate Dict.empty).set row.symbol row)) := by
  have hkey : ∀ bar ∈ rows, ¬ (bar.symbol = row.symbol ∧ bar.tradingDate = row.tradingDate) := by
    rintro bar hbar ⟨hs, hd⟩
    exact hnew (List.mem_map.mpr ⟨bar, hbar, by simp [DailyBar.key, hs, hd]⟩)
  constructor
  · rw [List.map_append, List.map_singleton, ← List.concat_eq_append, List.nodup_concat]
    exact ⟨hnew, h.keys⟩
  · intro day
    simp only [Dict.mem_keys_set, h.days day, List.mem_append, List.mem_singleton]
    constructor
    · rintro (rfl | ⟨bar, hbar, rfl⟩)
      · exact ⟨row, .inr rfl, rfl⟩
      · exact ⟨bar, .inl hbar, rfl⟩
    · rintro ⟨bar, hbar | rfl, rfl⟩
      · exact .inr ⟨bar, hbar, rfl⟩
      · exact .inl rfl
  · intro day symbol bar
    have hold := h.bars day symbol bar
    by_cases hday : day = row.tradingDate
    · subst hday
      simp only [Dict.getD, Dict.get?_set, if_true, Option.getD_some] at hold ⊢
      by_cases hsymbol : symbol = row.symbol
      · subst hsymbol
        simp only [if_true, Option.some.injEq, List.mem_append, List.mem_singleton]
        constructor
        · rintro rfl
          exact ⟨.inr rfl, rfl, rfl⟩
        · rintro ⟨hbar | rfl, hs, hd⟩
          · exact absurd ⟨hs, hd⟩ (hkey bar hbar)
          · rfl
      · rw [if_neg hsymbol, hold]
        simp only [List.mem_append, List.mem_singleton]
        constructor
        · rintro ⟨hbar, hs, hd⟩
          exact ⟨.inl hbar, hs, hd⟩
        · rintro ⟨hbar | rfl, hs, hd⟩
          · exact ⟨hbar, hs, hd⟩
          · exact absurd hs.symm hsymbol
    · simp only [Dict.getD, Dict.get?_set, if_neg hday] at hold ⊢
      rw [hold]
      simp only [List.mem_append, List.mem_singleton]
      constructor
      · rintro ⟨hbar, hs, hd⟩
        exact ⟨.inl hbar, hs, hd⟩
      · rintro ⟨hbar | rfl, hs, hd⟩
        · exact ⟨hbar, hs, hd⟩
        · exact absurd hd.symm hday

theorem indexBars_indexes {rows : List DailyBar} {byDate : Dict Date (Dict Symbol DailyBar)}
    (h : indexBars rows = .ok byDate) : Indexes rows byDate := by
  simp only [indexBars, bind_ok, pure_ok] at h
  obtain ⟨index, hrun, rfl⟩ := h
  have hinv := foldlM_prefix_invariant
    (fun pre (index : BarIndex) => Indexes pre index.1 ∧ ∀ key, key ∈ index.2 ↔
      key ∈ pre.map DailyBar.key) rows ?_ hrun ?_
  · exact hinv.1
  · rintro pre row post s t - ⟨hindex, hseen⟩ hadd
    obtain ⟨hnew, rfl⟩ := addBar_ok.mp hadd
    refine ⟨hindex.add fun hmem => hnew ((hseen row.key).mpr hmem), fun key => ?_⟩
    simp [hseen key, or_comm]
  · refine ⟨⟨List.nodup_nil, fun day => ?_, fun day symbol bar => ?_⟩, fun key => ?_⟩ <;>
      simp [Dict.getD]

/-- Rows with distinct keys are indexed without an error. -/
theorem indexBars_total {rows : List DailyBar} (hkeys : (rows.map DailyBar.key).Nodup) :
    ∃ byDate, indexBars rows = .ok byDate := by
  suffices hgen : ∀ (rows : List DailyBar) (index : BarIndex), (rows.map DailyBar.key).Nodup →
      (∀ row ∈ rows, row.key ∉ index.2) → ∃ t, rows.foldlM addBar index = .ok t by
    obtain ⟨t, ht⟩ := hgen rows (Dict.empty, []) hkeys (by simp)
    exact ⟨t.1, by simp [indexBars, ht, bind, Except.bind, pure, Except.pure]⟩
  intro rows
  induction rows with
  | nil => exact fun index _ _ => ⟨index, foldlM_nil_ok.mpr rfl⟩
  | cons row rest ih =>
    intro index hnodup hfresh
    rw [List.map_cons, List.nodup_cons] at hnodup
    have hadd := addBar_ok.mpr ⟨hfresh row List.mem_cons_self, rfl⟩
    have hrest : ∀ other ∈ rest, other.key ∉ row.key :: index.2 := by
      intro other hother
      simp only [List.mem_cons, not_or]
      refine ⟨fun heq => ?_, hfresh other (List.mem_cons_of_mem row hother)⟩
      exact hnodup.1 (heq ▸ List.mem_map_of_mem hother)
    obtain ⟨t, ht⟩ := ih (index.1.set row.tradingDate
      ((index.1.getD row.tradingDate Dict.empty).set row.symbol row), row.key :: index.2)
      hnodup.2 hrest
    exact ⟨t, foldlM_cons_ok.mpr ⟨_, hadd, ht⟩⟩

theorem loadBars_distinct (run : RunRequest) (table : DailyBarTable) (symbols : List Symbol) :
    ((loadBars run table.rows symbols).map DailyBar.key).Nodup := by
  have hperm := (List.perm_insertionSort DailyBar.le (((table.rows.filter (inRange run)).filter
    (·.symbol ∈ symbols)).map DailyBar.ofRecord)).map DailyBar.key
  refine hperm.nodup_iff.mpr ?_
  rw [List.map_map]
  exact table.unique.sublist ((List.filter_sublist.trans List.filter_sublist).map _)

/-- The unique key of the table keeps `DuplicateDailyBarError` from being raised. -/
theorem indexBars_table (run : RunRequest) (table : DailyBarTable) (symbols : List Symbol) :
    ∃ byDate, indexBars (loadBars run table.rows symbols) = .ok byDate :=
  indexBars_total (loadBars_distinct run table symbols)

/-- What a completed run looks up: the rows of its range and its signalled symbols. -/
theorem DecimalContext.Completed.bar {k : DecimalContext} {run : RunRequest}
    {generated : List BacktestSignal} {dailyBars : List DailyBarRecord} {x : PortfolioRun}
    (h : k.Completed run generated dailyBars x) {day : Date} {symbol : Symbol} {bar : DailyBar} :
    (x.context.bars day).get? symbol = some bar ↔
      (∃ row ∈ dailyBars, DailyBar.ofRecord row = bar) ∧
        (bar.symbol = symbol ∧ bar.tradingDate = day) ∧
        (run.startDate ≤ day ∧ day ≤ run.endDate) ∧
        symbol ∈ signalSymbols (generated.insertionSort BacktestSignal.le) := by
  refine ((indexBars_indexes h.index).bars day symbol bar).trans ?_
  rw [mem_loadBars]
  constructor
  · rintro ⟨⟨row, hrow, hrange, hsymbols, rfl⟩, rfl, rfl⟩
    exact ⟨⟨row, hrow, rfl⟩, ⟨rfl, rfl⟩, hrange, hsymbols⟩
  · rintro ⟨⟨row, hrow, rfl⟩, ⟨rfl, rfl⟩, hrange, hsymbols⟩
    exact ⟨⟨row, hrow, hrange, hsymbols, rfl⟩, rfl, rfl⟩

theorem execution_bar {run : RunRequest} {generated : List BacktestSignal}
    {dailyBars : List DailyBarRecord} {uuid4 : Nat → UUID} {execution : PortfolioExecution}
    (h : executePortfolio run generated dailyBars uuid4 = .ok execution) {day : Date}
    {symbol : Symbol} {bar : DailyBar} :
    (execution.context.bars day).get? symbol = some bar ↔
      (∃ row ∈ dailyBars, DailyBar.ofRecord row = bar) ∧
        (bar.symbol = symbol ∧ bar.tradingDate = day) ∧
        (run.startDate ≤ day ∧ day ≤ run.endDate) ∧
        symbol ∈ signalSymbols (generated.insertionSort BacktestSignal.le) :=
  (executePortfolio_ok h).toCompleted.bar

end Screener.Backtest
