import Screener.Market.PublishedRanking

/-!
# Reanalysis reads the past alone

What a run computes for a date depends on the eligible stocks and on the last bars of
each of them up to that date. Later bars, older bars, the rows of other stocks and the
order in which rows are stored do not matter.
-/

namespace Screener.Market

open Screener.Lib

/-! ## What a run may depend on -/

/-- The bars of a symbol after a date, up to the target. -/
def barsBetween (bars : BarTable) (symbol : Symbol) (date target : Date) : Nat :=
  bars.entries.countP fun entry => entry.1.1 = symbol ∧ date < entry.1.2 ∧ entry.1.2 ≤ target

/-- A bar among the last `n` of its symbol that are dated on or before the target. -/
structure RecentBar (n : Nat) (bars : BarTable) (target : Date) (symbol : Symbol)
    (row : DailyBarRecord) : Prop where
  stored : ∃ columns, bars.get? (symbol, row.tradingDate) = some columns ∧
    columns.record symbol row.tradingDate = row
  past : row.tradingDate ≤ target
  recent : barsBetween bars symbol row.tradingDate target < n

/-- Two markets agree on the eligible stocks and on the recent bars of each. -/
structure SameHistory (n : Nat) (target : Date) (market₁ market₂ : MarketDb) : Prop where
  stocks : ∀ symbol, market₁.stocks.IsEligible symbol ↔ market₂.stocks.IsEligible symbol
  bars : ∀ symbol, market₁.stocks.IsEligible symbol → ∀ row,
    RecentBar n market₁.bars target symbol row ↔ RecentBar n market₂.bars target symbol row

/-- What a run computes from a market: inputs, scan, rank, threshold and cut. -/
def analysisAt (c : SwingScreeningConfig) (market : MarketDb) (target : Date) :
    Except PyException Analysis := do
  let inputs ← loadInputs c market target
  let candidates ← (scan c inputs).mapError valueError
  let scored ← (rank c candidates).mapError valueError
  return analysisOf c inputs candidates scored

/-! ## The query -/

section Query

variable {n : Nat} {bars : BarTable} {target : Date} {symbol : Symbol} {row : DailyBarRecord}
  {stocks stocks₁ stocks₂ : StockTable}

theorem eligible_strict (stocks : StockTable) : stocks.eligible.Pairwise (· < ·) := by
  refine insertionSort_strict id ?_
  rw [List.map_id]
  exact stocks.nodup.sublist (List.filter_sublist.map Prod.fst)

theorem eligible_eq (h : ∀ symbol, stocks₁.IsEligible symbol ↔ stocks₂.IsEligible symbol) :
    stocks₁.eligible = stocks₂.eligible := by
  refine eq_of_mem_iff id (eligible_strict stocks₁) (eligible_strict stocks₂) fun s => ?_
  rw [StockTable.mem_eligible, StockTable.mem_eligible, h]

theorem barsUpTo_strict (bars : BarTable) (target : Date) (symbol : Symbol) :
    (barsUpTo bars target symbol).Pairwise fun a b => a.tradingDate < b.tradingDate := by
  refine insertionSort_strict DailyBarRecord.tradingDate ?_
  have hkeys : ((bars.entries.filter fun entry =>
      entry.1.1 = symbol ∧ entry.1.2 ≤ target).map Prod.fst).Nodup :=
    bars.nodup.sublist (List.filter_sublist.map Prod.fst)
  have hdates := List.Nodup.map_on (f := Prod.snd) ?_ hkeys
  · rw [List.map_map] at hdates ⊢
    exact hdates
  · -- The keys share their symbol.
    have hsymbol : ∀ key ∈ (bars.entries.filter fun entry =>
        entry.1.1 = symbol ∧ entry.1.2 ≤ target).map Prod.fst, key.1 = symbol := by
      intro key hkey
      obtain ⟨entry, hentry, rfl⟩ := List.mem_map.mp hkey
      exact (of_decide_eq_true (List.mem_filter.mp hentry).2).1
    exact fun x hx y hy hdate => Prod.ext ((hsymbol x hx).trans (hsymbol y hy).symm) hdate

theorem countP_barsUpTo (date : Date) :
    (barsUpTo bars target symbol).countP (fun bar => date < bar.tradingDate) =
      barsBetween bars symbol date target := by
  rw [barsUpTo, (List.perm_insertionSort _ _).countP_eq, List.countP_map, List.countP_filter,
    barsBetween]
  refine List.countP_congr fun entry _ => ?_
  simp only [Function.comp_apply, BarColumns.record, Bool.and_eq_true, decide_eq_true_eq]
  exact and_left_comm

theorem mem_recent : row ∈ trailing n (barsUpTo bars target symbol) ↔
    RecentBar n bars target symbol row := by
  rw [mem_trailing (barsUpTo_strict bars target symbol), mem_barsUpTo, countP_barsUpTo]
  constructor
  · exact fun ⟨⟨hstored, hpast⟩, hrecent⟩ => ⟨hstored, hpast, hrecent⟩
  · exact fun h => ⟨⟨h.stored, h.past⟩, h.recent⟩

end Query

/-! ## The computation -/

section Computation

variable {c : SwingScreeningConfig} {market₁ market₂ : MarketDb} {target : Date}

/-- The query gives the same groups in the same order. -/
theorem groupedBars_eq (h : SameHistory c.minimumHistoryBars target market₁ market₂) :
    groupedBars c market₁ target = groupedBars c market₂ target := by
  rw [groupedBars, groupedBars, eligible_eq h.stocks]
  refine List.map_congr_left fun symbol hsymbol => congrArg (Prod.mk symbol) ?_
  have heligible := (h.stocks symbol).mpr (StockTable.mem_eligible.mp hsymbol)
  have hstrict : ∀ bars : BarTable, (trailing c.minimumHistoryBars
      (barsUpTo bars target symbol)).Pairwise fun a b => a.tradingDate < b.tradingDate :=
    fun bars => (barsUpTo_strict bars target symbol).sublist (trailing_suffix _ _).sublist
  refine eq_of_mem_iff DailyBarRecord.tradingDate (hstrict market₁.bars) (hstrict market₂.bars)
    fun row => ?_
  rw [mem_recent, mem_recent]
  exact h.bars symbol heligible row

/-- The groups show all that a run may depend on. -/
theorem SameHistory.of_groupedBars
    (h : groupedBars c market₁ target = groupedBars c market₂ target) :
    SameHistory c.minimumHistoryBars target market₁ market₂ := by
  have heligible : market₁.stocks.eligible = market₂.stocks.eligible := by
    have hsymbols := congrArg (List.map Prod.fst) h
    simp only [groupedBars, List.map_map, Function.comp_def, List.map_id'] at hsymbols
    exact hsymbols
  refine ⟨fun symbol => ?_, fun symbol hsymbol row => ?_⟩
  · rw [← StockTable.mem_eligible, ← StockTable.mem_eligible, heligible]
  · rw [groupedBars, groupedBars, ← heligible] at h
    have hgroup := List.map_inj_left.mp h symbol (StockTable.mem_eligible.mpr hsymbol)
    rw [← mem_recent, ← mem_recent, (Prod.mk.inj hgroup).2]

theorem analysisAt_eq (h : SameHistory c.minimumHistoryBars target market₁ market₂) :
    analysisAt c market₁ target = analysisAt c market₂ target := by
  have hinputs : loadInputs c market₁ target = loadInputs c market₂ target := by
    rw [loadInputs, loadInputs, groupedBars_eq h]
  rw [analysisAt, analysisAt, hinputs]

end Computation

/-! ## Reanalyses -/

/-- A forced run on a date that has succeeded again. -/
structure Reanalyses (config : DailyConfig) (target : Date) (db after : PipelineDb) : Prop where
  run : ∃ env invocation result s, dailyRun config env invocation db = (.ok result, s) ∧
    result.status = .succeeded ∧ invocation.tradingDate = target ∧
    invocation.forceReanalysis = true ∧ s.db = after

variable {config : DailyConfig} {target : Date} {db₁ db₂ after₁ after₂ : PipelineDb}

/-- A reanalysis saves what is computed from the market that it is given. -/
theorem Reanalyses.analysisAt (h : Reanalyses config target db₁ after₁) :
    ∃ a, analysisAt config.screening db₁.market target = .ok a ∧
      listEntries after₁.entries target = a.ranked := by
  obtain ⟨env, invocation, result, s, hrun, hstatus, rfl, hforce, rfl⟩ := h.run
  obtain ⟨inputs, candidates, scored, row, hinputs, hscan, hrank, -, hsaved⟩ :=
    succeeded_analysed hrun hstatus
  rw [forced_market hrun hstatus hforce] at hinputs
  refine ⟨_, ?_, hsaved⟩
  rw [Market.analysisAt]
  exact bind_ok.mpr ⟨inputs, hinputs, bind_ok.mpr ⟨candidates, mapError_ok.mpr hscan,
    bind_ok.mpr ⟨scored, mapError_ok.mpr hrank, rfl⟩⟩⟩

/-- **Reanalysis is reproducible.** Markets that agree on the eligible stocks and on
the last bars of each up to the target give the same analysis, so that reanalyses of
the target save the same entries. -/
theorem reanalysis_reproducible
    (h : SameHistory config.screening.minimumHistoryBars target db₁.market db₂.market) :
    analysisAt config.screening db₁.market target = analysisAt config.screening db₂.market target ∧
      ∀ after₁ after₂, Reanalyses config target db₁ after₁ → Reanalyses config target db₂ after₂ →
        listEntries after₁.entries target = listEntries after₂.entries target := by
  have hsame := analysisAt_eq h
  refine ⟨hsame, ?_⟩
  intro after₁ after₂ h₁ h₂
  obtain ⟨a₁, ha₁, hsaved₁⟩ := h₁.analysisAt
  obtain ⟨a₂, ha₂, hsaved₂⟩ := h₂.analysisAt
  rw [ha₁, ha₂, Except.ok.injEq] at hsame
  rw [hsaved₁, hsaved₂, hsame]

/-- The rows of the rising stock in another order, with a later and an older bar, and
an inactive stock with a bar of the day. -/
def shuffledTables : PipelineDb where
  market := ⟨(Dict.empty.set "B" { sampleStock with isActive := false }).set "A" sampleStock,
    ([("A", risingBar 61 500000 9000000), ("B", risingBar 60 500000 9000000),
      ("A", { risingBar 0 500000 9000000 with tradingDate := 739700 })] ++
        (risingBars.map fun bar => ("A", bar)).reverse).foldl
      (fun bars row => bars.set (row.1, row.2.tradingDate) (columnsOf row.2)) Dict.empty,
    ⟨Dict.empty, Dict.empty⟩⟩
  executions := risingTables.executions
  entries := []

def shuffledRun : Except PyException PipelineResult × RunState :=
  dailyRun sampleDaily (sampleEnv (some 101) none) risingReanalysis shuffledTables

theorem reanalyses_of_status {db : PipelineDb}
    (h : (dailyRun sampleDaily (sampleEnv (some 101) none) risingReanalysis db).1.toOption.map
      (·.status) = some .succeeded) :
    Reanalyses sampleDaily 739824 db
      (dailyRun sampleDaily (sampleEnv (some 101) none) risingReanalysis db).2.db := by
  obtain ⟨result, hresult, hstatus⟩ := Option.map_eq_some_iff.mp h
  exact ⟨_, _, result, _, Prod.ext (toOption_eq_some.mp hresult) rfl, hstatus, rfl, rfl, rfl⟩

theorem reanalysis_reproducible_sample :
    analysisAt sampleDaily.screening risingTables.market 739824 =
        analysisAt sampleDaily.screening shuffledTables.market 739824 ∧
      listEntries risingRun.2.db.entries 739824 = listEntries shuffledRun.2.db.entries 739824 := by
  have hgroups : groupedBars sampleDaily.screening risingTables.market 739824 =
      groupedBars sampleDaily.screening shuffledTables.market 739824 := by
    decide +kernel
  have hrising : Reanalyses sampleDaily 739824 risingTables risingRun.2.db :=
    reanalyses_of_status (by decide +kernel)
  have hshuffled : Reanalyses sampleDaily 739824 shuffledTables shuffledRun.2.db :=
    reanalyses_of_status (by decide +kernel)
  have hboth := reanalysis_reproducible (SameHistory.of_groupedBars hgroups)
  exact ⟨hboth.1, hboth.2 _ _ hrising hshuffled⟩

end Screener.Market
