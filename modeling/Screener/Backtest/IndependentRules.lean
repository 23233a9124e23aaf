import Screener.Backtest.Independent
import Screener.Backtest.PortfolioLoading
import Screener.Lib.Sorted

/-!
# What an independent run computes

A signal sees only its own bars, by date. One inversion lemma says when it becomes a
trade and which one, and from it what the trades of a completed run are.
-/

namespace Screener.Backtest

open Screener.Lib
open Screener.Market (Date Symbol DailyBarRecord)

/-! ## The bars of one signal -/

section Eligible

variable {run : RunRequest} {rows : List DailyBarRecord} {signal : BacktestSignal}

/-- The bars after the signal, of its symbol and within the run, by date. -/
def laterBars (run : RunRequest) (rows : List DailyBarRecord) (signal : BacktestSignal) :
    List DailyBar :=
  eligibleBars run signal (barsOf run rows signal.symbol)

theorem mem_laterBars {bar : DailyBar} :
    bar ∈ laterBars run rows signal ↔
      (∃ row ∈ rows, DailyBar.ofRecord row = bar) ∧ bar.symbol = signal.symbol ∧
        (run.startDate ≤ bar.tradingDate ∧ bar.tradingDate ≤ run.endDate) ∧
        signal.signalDate < bar.tradingDate := by
  simp only [laterBars, eligibleBars, barsOf, List.mem_insertionSort, List.mem_filter,
    mem_loadBars, List.mem_singleton, decide_eq_true_eq]
  constructor
  · rintro ⟨⟨row, hrow, hrange, hsymbol, rfl⟩, hafter, -⟩
    exact ⟨⟨row, hrow, rfl⟩, hsymbol, hrange, hafter⟩
  · rintro ⟨⟨row, hrow, rfl⟩, hsymbol, hrange, hafter⟩
    exact ⟨⟨row, hrow, hrange, hsymbol, rfl⟩, hafter, hrange.2⟩

theorem laterBars_mem_calendar {bar : DailyBar} (h : bar ∈ laterBars run rows signal) :
    bar.tradingDate ∈ calendar run rows := by
  obtain ⟨⟨row, hrow, rfl⟩, -, hrange, -⟩ := mem_laterBars.mp h
  exact mem_calendar.mpr ⟨hrange, row, hrow, rfl⟩

/-- Narrowing the symbols keeps the keys distinct. -/
theorem loadBars_keys {symbols : List Symbol} {symbol : Symbol} (hsymbol : symbol ∈ symbols)
    (hkeys : ((loadBars run rows symbols).map DailyBar.key).Nodup) :
    ((barsOf run rows symbol).map DailyBar.key).Nodup := by
  have hwide : ((((rows.filter (inRange run)).filter (·.symbol ∈ symbols)).map
      DailyBar.ofRecord).map DailyBar.key).Nodup :=
    ((List.perm_insertionSort DailyBar.le _).map _).nodup_iff.mp hkeys
  have hsub : ((rows.filter (inRange run)).filter (·.symbol ∈ [symbol])).Sublist
      ((rows.filter (inRange run)).filter (·.symbol ∈ symbols)) := by
    apply List.monotone_filter_right
    intro row hrow
    simp only [List.mem_singleton, decide_eq_true_eq] at hrow
    simpa [hrow] using hsymbol
  exact ((List.perm_insertionSort DailyBar.le _).map _).nodup_iff.mpr
    (hwide.sublist ((hsub.map _).map _))

/-- Of one symbol, distinct keys are distinct dates. -/
theorem dates_nodup {bars : List DailyBar} {symbol : Symbol}
    (hkeys : (bars.map DailyBar.key).Nodup) (hsymbol : ∀ bar ∈ bars, bar.symbol = symbol) :
    (bars.map (·.tradingDate)).Nodup := by
  refine List.pairwise_map.mpr ?_
  refine (List.pairwise_map.mp hkeys).imp_of_mem fun {a b} ha hb hab hdate =>
    hab (Prod.ext ?_ hdate)
  exact (hsymbol a ha).trans (hsymbol b hb).symm

theorem eligibleBars_sorted {bars : List DailyBar} (hdates : (bars.map (·.tradingDate)).Nodup) :
    (eligibleBars run signal bars).Pairwise fun a b => a.tradingDate < b.tradingDate :=
  insertionSort_strict DailyBar.tradingDate (hdates.sublist (List.filter_sublist.map _))

theorem barsOf_symbol (run : RunRequest) (rows : List DailyBarRecord) (symbol : Symbol) :
    ∀ bar ∈ barsOf run rows symbol, bar.symbol = symbol := by
  intro bar hbar
  obtain ⟨row, -, -, hrow, rfl⟩ := mem_loadBars.mp hbar
  exact List.mem_singleton.mp hrow

theorem barsOf_dates {symbols : List Symbol} {symbol : Symbol} (hsymbol : symbol ∈ symbols)
    (hkeys : ((loadBars run rows symbols).map DailyBar.key).Nodup) :
    ((barsOf run rows symbol).map (·.tradingDate)).Nodup :=
  dates_nodup (loadBars_keys hsymbol hkeys) (barsOf_symbol run rows symbol)

/-- The bars of one symbol stand in strictly ascending order of their dates. -/
theorem laterBars_pairwise {symbols : List Symbol} (hsymbol : signal.symbol ∈ symbols)
    (hkeys : ((loadBars run rows symbols).map DailyBar.key).Nodup) :
    (laterBars run rows signal).Pairwise fun a b => a.tradingDate < b.tradingDate :=
  eligibleBars_sorted (barsOf_dates hsymbol hkeys)

end Eligible

/-! ## The bars of the executor -/

section Index

variable {run : RunRequest} {rows : List DailyBarRecord} {signals : List BacktestSignal}

theorem addSymbolBar_ok {index index' : Dict Symbol (List DailyBar) × List (Symbol × Date)}
    {row : DailyBar} :
    addSymbolBar index row = .ok index' ↔ row.key ∉ index.2 ∧
      (index.1.set row.symbol (index.1.getD row.symbol [] ++ [row]), row.key :: index.2) =
        index' := by
  unfold addSymbolBar DailyBar.key
  split <;> simp [*]

/-- What `bars` holds once `records` are read. -/
theorem symbolIndex_getD {records : List DailyBar}
    {index : Dict Symbol (List DailyBar) × List (Symbol × Date)}
    (h : records.foldlM addSymbolBar (Dict.empty, []) = .ok index) (symbol : Symbol) :
    index.1.getD symbol [] = records.filter (·.symbol = symbol) := by
  refine foldlM_prefix_invariant
    (fun pre (index : Dict Symbol (List DailyBar) × List (Symbol × Date)) =>
    index.1.getD symbol [] = pre.filter (·.symbol = symbol)) records ?_ h rfl
  rintro pre row post s t - hs hadd
  obtain ⟨-, rfl⟩ := addSymbolBar_ok.mp hadd
  rw [List.filter_append, ← hs]
  by_cases hsymbol : symbol = row.symbol
  · subst hsymbol
    simp [Dict.getD, Dict.get?_set]
  · simp [Dict.getD, Dict.get?_set, hsymbol, Ne.symm hsymbol]

/-- Rows that are read without an error have distinct keys. -/
theorem symbolIndex_keys {bars : List DailyBar}
    {index : Dict Symbol (List DailyBar) × List (Symbol × Date)}
    (h : (bars.insertionSort DailyBar.symbolLe).foldlM addSymbolBar (Dict.empty, []) = .ok index) :
    (bars.map DailyBar.key).Nodup := by
  have hperm := (List.perm_insertionSort DailyBar.symbolLe bars).map DailyBar.key
  refine hperm.nodup_iff.mp ?_
  refine (foldlM_prefix_invariant
    (fun pre (index : Dict Symbol (List DailyBar) × List (Symbol × Date)) =>
      (pre.map DailyBar.key).Nodup ∧ ∀ key, key ∈ index.2 ↔ key ∈ pre.map DailyBar.key)
    _ ?_ h ⟨List.nodup_nil, by simp⟩).1
  rintro pre row post s t - ⟨hnodup, hseen⟩ hadd
  obtain ⟨hnew, rfl⟩ := addSymbolBar_ok.mp hadd
  constructor
  · rw [List.map_append, List.map_singleton, ← List.concat_eq_append, List.nodup_concat]
    exact ⟨fun hmem => hnew ((hseen row.key).mpr hmem), hnodup⟩
  · intro key
    simp [hseen key, or_comm]

/-- A signal meets the same bars in the index as in its own selection. -/
theorem eligibleBars_index (hkeys : ((loadBars run rows (signalSymbols signals)).map
    DailyBar.key).Nodup) {signal : BacktestSignal} (hsignal : signal ∈ signals) :
    eligibleBars run signal
        (((loadBars run rows (signalSymbols signals)).insertionSort DailyBar.symbolLe).filter
          (·.symbol = signal.symbol)) =
      laterBars run rows signal := by
  have hsymbol : signal.symbol ∈ signalSymbols signals :=
    mem_signalSymbols.mpr ⟨signal, hsignal, rfl⟩
  have hperm := List.perm_insertionSort DailyBar.symbolLe
    (loadBars run rows (signalSymbols signals))
  have hone : ∀ bar ∈ ((loadBars run rows (signalSymbols signals)).insertionSort
      DailyBar.symbolLe).filter (·.symbol = signal.symbol), bar.symbol = signal.symbol :=
    fun bar hbar => by simpa using List.of_mem_filter hbar
  refine eq_of_mem_iff DailyBar.tradingDate (eligibleBars_sorted (dates_nodup ?_ hone))
    (laterBars_pairwise hsymbol hkeys) fun bar => ?_
  · exact ((hperm.map DailyBar.key).nodup_iff.mpr hkeys).sublist (List.filter_sublist.map _)
  · simp only [mem_laterBars, eligibleBars, List.mem_insertionSort, List.mem_filter, mem_loadBars,
      decide_eq_true_eq]
    constructor
    · rintro ⟨⟨⟨row, hrow, hrange, -, rfl⟩, hsame⟩, hafter, -⟩
      exact ⟨⟨row, hrow, rfl⟩, hsame, hrange, hafter⟩
    · rintro ⟨⟨row, hrow, rfl⟩, hsame, hrange, hafter⟩
      have hrowSymbol : row.symbol = signal.symbol := hsame
      exact ⟨⟨⟨row, hrow, hrange, hrowSymbol ▸ hsymbol, rfl⟩, hsame⟩, hafter, hrange.2⟩

end Index

/-! ## Becoming a trade -/

theorem divide_ok {a b q : ℚ} : divide a b = .ok q ↔ b ≠ 0 ∧ a / b = q := by
  unfold divide
  split
  · simp [*]
  · simp [*]

section Simulate

variable {run : RunRequest} {signal : BacktestSignal} {bars : List DailyBar}
  {p : BacktestParameters} {id : UUID}

theorem simulateSignal_eq_trade {trade : BacktestTrade} :
    simulateSignal run signal bars p id = .ok (.trade trade) ↔
      ∃ entryBar later, eligibleBars run signal bars = entryBar :: later ∧
        entryBar.open * (1 + p.slippageRate) ≠ 0 ∧
        1 ≤ roundDown (p.positionSize / (entryBar.open * (1 + p.slippageRate))) ∧
        singleTrade run signal p entryBar later
          (roundDown (p.positionSize / (entryBar.open * (1 + p.slippageRate)))).toNat id =
            trade := by
  rw [simulateSignal_eq]
  cases heligible : eligibleBars run signal bars with
  | nil => simp
  | cons entryBar later =>
    simp only [bind_ok, divide_ok]
    constructor
    · rintro ⟨_, ⟨hprice, rfl⟩, h⟩
      split at h
      · simp at h
      · rename_i hshares
        simp only [Except.ok.injEq, SignalOutcome.trade.injEq] at h
        exact ⟨entryBar, later, rfl, hprice, not_lt.mp hshares, h⟩
    · rintro ⟨first, rest, heq, hprice, hshares, rfl⟩
      obtain ⟨rfl, rfl⟩ := List.cons.inj heq
      exact ⟨_, ⟨hprice, rfl⟩, if_neg (not_lt.mpr hshares)⟩

theorem simulateSignal_single {c : DecimalContext} {t : BacktestTrade}
    (h : c.simulateSignal run signal bars p id = .ok (.trade t)) :
    ∃ entryBar later quantity, c.singleTrade run signal p entryBar later quantity id = t := by
  unfold DecimalContext.simulateSignal at h
  split at h
  · cases h
  · obtain ⟨shares, -, h⟩ := bind_ok.mp h
    dsimp only at h
    split_ifs at h
    · cases h
    · exact ⟨_, _, _, SignalOutcome.trade.inj (Except.ok.inj h)⟩

/-- Only the eligible bars matter. -/
theorem simulateSignal_congr {bars' : List DailyBar}
    (h : eligibleBars run signal bars = eligibleBars run signal bars') :
    simulateSignal run signal bars p id = simulateSignal run signal bars' p id := by
  rw [simulateSignal_eq, simulateSignal_eq, h]

end Simulate

/-! ## The trades of a run -/

/-- `trades` are what the signals come to one by one. -/
structure Simulated (run : RunRequest) (rows : List DailyBarRecord) (p : BacktestParameters)
    (signals : List BacktestSignal) (trades : List BacktestTrade) : Prop where
  mem : ∀ t ∈ trades, ∃ signal ∈ signals, ∃ id,
    simulateSignal run signal (barsOf run rows signal.symbol) p id = .ok (.trade t)
  all : ∀ signal ∈ signals, ∃ id outcome,
    simulateSignal run signal (barsOf run rows signal.symbol) p id = .ok outcome ∧
      ∀ t, outcome = .trade t → t ∈ trades
  order : (trades.map fun t => (⟨t.symbol, t.signalDate⟩ : BacktestSignal)).Sublist signals

section Run

variable {run : RunRequest} {rows : List DailyBarRecord} {p : BacktestParameters}

theorem Simulated.trade {signals : List BacktestSignal} {trades : List BacktestTrade}
    (h : Simulated run rows p signals trades) {signal : BacktestSignal} {id : UUID}
    {t : BacktestTrade}
    (ht : simulateSignal run signal (barsOf run rows signal.symbol) p id = .ok (.trade t)) :
    Simulated run rows p (signals ++ [signal]) (trades ++ [t]) := by
  constructor
  · refine forall_mem_concat (fun u hu => ?_) ⟨signal, by simp, id, ht⟩
    obtain ⟨s, hs, hrest⟩ := h.mem u hu
    exact ⟨s, List.mem_append_left _ hs, hrest⟩
  · refine forall_mem_concat (fun s hs => ?_) ⟨id, .trade t, ht, fun u hu => ?_⟩
    · obtain ⟨id', outcome, houtcome, hmem⟩ := h.all s hs
      exact ⟨id', outcome, houtcome, fun u hu => List.mem_append_left _ (hmem u hu)⟩
    · obtain rfl := SignalOutcome.trade.inj hu
      simp
  · obtain ⟨entryBar, later, -, -, -, rfl⟩ := simulateSignal_eq_trade.mp ht
    rw [List.map_append]
    exact h.order.append (List.Sublist.refl _)

theorem Simulated.skip {signals : List BacktestSignal} {trades : List BacktestTrade}
    (h : Simulated run rows p signals trades) {signal : BacktestSignal} {id : UUID}
    {reason : BacktestExitReason}
    (hskip : simulateSignal run signal (barsOf run rows signal.symbol) p id =
      .ok (.skipped reason)) : Simulated run rows p (signals ++ [signal]) trades := by
  constructor
  · intro u hu
    obtain ⟨s, hs, hrest⟩ := h.mem u hu
    exact ⟨s, List.mem_append_left _ hs, hrest⟩
  · exact forall_mem_concat h.all ⟨id, .skipped reason, hskip, fun _ hu => by cases hu⟩
  · exact h.order.trans (List.sublist_append_left _ _)

/-- What holds of a trade whatever it was bought for holds of every trade of a run. -/
theorem executeIndependent_forall {c : DecimalContext} {generated : List BacktestSignal}
    {uuid4 : Nat → UUID} {x : IndependentTrades} {P : BacktestTrade → Prop}
    (hP : ∀ signal p entryBar later quantity id,
      P (c.singleTrade run signal p entryBar later quantity id))
    (h : c.executeIndependent run generated rows uuid4 = .ok x) : ∀ t ∈ x.trades, P t := by
  simp only [DecimalContext.executeIndependent, bind_ok, pure_ok] at h
  obtain ⟨-, -, p, -, index, -, trades, htrades, rfl⟩ := h
  refine foldlM_invariant (fun trades : List BacktestTrade => ∀ t ∈ trades, P t) ?_ htrades
    (by simp)
  intro signal _ before after hbefore hnext
  obtain ⟨outcome, houtcome, hnext⟩ := bind_ok.mp hnext
  cases outcome with
  | trade trade =>
    obtain ⟨entryBar, later, quantity, rfl⟩ := simulateSignal_single houtcome
    rw [← pure_ok.mp hnext]
    exact forall_mem_concat hbefore (hP _ _ _ _ _ _)
  | skipped reason => exact pure_ok.mp hnext ▸ hbefore

/-- The stages of a completed run. -/
structure CompletedTrades (run : RunRequest) (generated : List BacktestSignal)
    (rows : List DailyBarRecord) (x : IndependentTrades) : Prop where
  parameters : BacktestParameters.parse run.parameters = .ok x.p
  mode : (portfolioOnly.filter fun key => run.parameters.contains key) = []
  keys : ((loadBars run rows (signalSymbols (generated.insertionSort BacktestSignal.le))).map
    DailyBar.key).Nodup
  total : x.totalSignals = generated.length
  simulated : Simulated run rows x.p (generated.insertionSort BacktestSignal.le) x.trades

theorem CompletedTrades.accepted {generated : List BacktestSignal} {x : IndependentTrades}
    (h : CompletedTrades run generated rows x) : x.p.Accepted :=
  (BacktestParameters.parse_ok.mp h.parameters).2

theorem executeIndependent_ok {generated : List BacktestSignal} {uuid4 : Nat → UUID}
    {x : IndependentTrades} (h : executeIndependent run generated rows uuid4 = .ok x) :
    CompletedTrades run generated rows x := by
  simp only [executeIndependent, DecimalContext.executeIndependent, bind_ok, pure_ok, require_ok,
    exists_const] at h
  obtain ⟨hmode, p, hparse, ⟨bars, seen⟩, hindex, trades, htrades, rfl⟩ := h
  have hkeys := symbolIndex_keys hindex
  refine ⟨hparse, hmode, hkeys, List.length_insertionSort _ _, ?_⟩
  refine foldlM_prefix_invariant (fun pre trades => Simulated run rows p pre trades) _ ?_ htrades
    ⟨by simp, by simp, by simp⟩
  intro pre signal post s t hsplit hs hnext
  have hsignal : signal ∈ generated.insertionSort BacktestSignal.le := by rw [hsplit]; simp
  have hbars : simulateSignal run signal (bars.getD signal.symbol []) p (uuid4 s.length) =
      simulateSignal run signal (barsOf run rows signal.symbol) p (uuid4 s.length) := by
    apply simulateSignal_congr
    rw [symbolIndex_getD hindex]
    exact eligibleBars_index hkeys hsignal
  obtain ⟨outcome, houtcome, hnext⟩ := bind_ok.mp hnext
  replace houtcome := hbars.symm.trans houtcome
  cases outcome with
  | trade trade =>
    rw [pure_ok] at hnext
    exact hnext ▸ hs.trade houtcome
  | skipped reason =>
    rw [pure_ok] at hnext
    exact hnext ▸ hs.skip houtcome

end Run

end Screener.Backtest
