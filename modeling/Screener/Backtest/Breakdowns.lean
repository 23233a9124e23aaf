import Mathlib.Algebra.BigOperators.Ring.List
import Mathlib.Algebra.BigOperators.Ring.Finset
import Screener.Backtest.Analysis
import Screener.Lib.Grouping
import Screener.Lib.Sorted

/-!
# The breakdowns of an analysis

The rows by symbol, exit reason and month are the statistics of the groups of the
trades. Every breakdown is lossless: each trade is in one group, so the counts and
profits of its rows sum to those of the summary.
-/

namespace Screener.Backtest

open Screener.Lib
open Screener.Market (Symbol)

/-! ## Statistics as sums -/

theorem groups_eq {κ : Type} [DecidableEq κ] (key : BacktestTrade → κ)
    (trades : List BacktestTrade) : groups key trades = collect key trades := rfl

section Stats

variable (trades : List BacktestTrade)

theorem tradeStats_tradeCount : (tradeStats trades).tradeCount = (trades.map fun _ => 1).sum := by
  simp [tradeStats, DecimalContext.tradeStats]

theorem tradeStats_winningTrades : (tradeStats trades).winningTrades =
    (trades.map fun t => if t.netPnl > 0 then 1 else 0).sum := by
  rw [← sum_map_filter]
  simp [tradeStats, DecimalContext.tradeStats]

theorem tradeStats_losingTrades : (tradeStats trades).losingTrades =
    (trades.map fun t => if t.netPnl < 0 then 1 else 0).sum := by
  rw [← sum_map_filter]
  simp [tradeStats, DecimalContext.tradeStats]

/-- What is neither a win nor a loss. -/
theorem tradeStats_breakevenTrades : (tradeStats trades).breakevenTrades =
    (trades.map fun t => if t.netPnl = 0 then 1 else 0).sum := by
  have hsplit : (tradeStats trades).tradeCount = (tradeStats trades).winningTrades +
      (tradeStats trades).losingTrades +
        (trades.map fun t => if t.netPnl = 0 then 1 else 0).sum := by
    rw [tradeStats_tradeCount, tradeStats_winningTrades, tradeStats_losingTrades,
      ← List.sum_map_add, ← List.sum_map_add]
    congr 1
    refine List.map_congr_left fun t _ => ?_
    rcases lt_trichotomy t.netPnl 0 with h | h | h
    · rw [if_neg h.not_gt, if_pos h, if_neg h.ne]
    · rw [if_neg (by rw [h]; exact lt_irrefl 0), if_neg (by rw [h]; exact lt_irrefl 0), if_pos h]
    · rw [if_pos h, if_neg h.not_gt, if_neg h.ne']
  have hrest : (tradeStats trades).breakevenTrades = (tradeStats trades).tradeCount -
      (tradeStats trades).winningTrades - (tradeStats trades).losingTrades := rfl
  omega

theorem tradeStats_netProfit : (tradeStats trades).netProfit = (trades.map (·.netPnl)).sum :=
  DecimalContext.unlimited_sum _

theorem tradeStats_grossProfit : (tradeStats trades).grossProfit =
    (trades.map fun t => if t.netPnl > 0 then t.netPnl else 0).sum :=
  (DecimalContext.unlimited_sum _).trans (sum_map_filter _ _ trades)

theorem tradeStats_grossLoss : (tradeStats trades).grossLoss =
    (trades.map fun t => if t.netPnl < 0 then t.netPnl else 0).sum :=
  (DecimalContext.unlimited_sum _).trans (sum_map_filter _ _ trades)

end Stats

/-! ## The groups -/

/-- The rows of a breakdown: one for each group of the trades, every trade in one group. -/
def BreaksDown {κ ρ : Type} (key : BacktestTrade → κ) (row : κ → List BacktestTrade → ρ)
    (trades : List BacktestTrade) (rows : List ρ) : Prop :=
  ∃ groups : List (κ × List BacktestTrade),
    rows.Perm (groups.map fun group => row group.1 group.2) ∧
    (groups.map Prod.fst).Nodup ∧
    (groups.flatMap Prod.snd).Perm trades ∧
    ∀ group ∈ groups, group.2 ≠ [] ∧ ∀ t ∈ group.2, key t = group.1

/-- The rows that show all statistics sum to the summary. -/
structure FootsTo (rows : List TradeStats) (total : TradeStats) : Prop where
  tradeCount : (rows.map (·.tradeCount)).sum = total.tradeCount
  winningTrades : (rows.map (·.winningTrades)).sum = total.winningTrades
  losingTrades : (rows.map (·.losingTrades)).sum = total.losingTrades
  breakevenTrades : (rows.map (·.breakevenTrades)).sum = total.breakevenTrades
  netProfit : (rows.map (·.netProfit)).sum = total.netProfit
  grossProfit : (rows.map (·.grossProfit)).sum = total.grossProfit
  grossLoss : (rows.map (·.grossLoss)).sum = total.grossLoss

/-- An exit reason row shows no gross amounts. -/
structure ReasonsFootTo (rows : List ExitReasonAnalysis) (total : TradeStats) : Prop where
  tradeCount : (rows.map (·.tradeCount)).sum = total.tradeCount
  winningTrades : (rows.map (·.winningTrades)).sum = total.winningTrades
  losingTrades : (rows.map (·.losingTrades)).sum = total.losingTrades
  breakevenTrades : (rows.map (·.breakevenTrades)).sum = total.breakevenTrades
  netProfit : (rows.map (·.netProfit)).sum = total.netProfit

section Pieces

variable {κ ρ : Type} [DecidableEq κ] {key : BacktestTrade → κ} {trades : List BacktestTrade}
  {pieces : List (κ × List BacktestTrade)}

theorem breaksDown_of_pieces (h : Pieces key trades pieces) {row : κ → List BacktestTrade → ρ}
    {rows : List ρ} (hrows : rows.Perm (pieces.map fun p => row p.1 p.2)) :
    BreaksDown key row trades rows :=
  ⟨pieces, hrows, h.keys_nodup, h.flatMap_perm, fun p hp =>
    ⟨h.nonempty p hp, fun _ => h.key_of_mem hp⟩⟩

/-- The statistics of the groups sum to those of all trades. -/
theorem footsTo_of_pieces (h : Pieces key trades pieces) :
    FootsTo (pieces.map fun p => tradeStats p.2) (tradeStats trades) := by
  constructor
  all_goals rw [List.map_map]
  · simpa only [Function.comp_def, tradeStats_tradeCount] using h.sum_eq _
  · simpa only [Function.comp_def, tradeStats_winningTrades] using h.sum_eq _
  · simpa only [Function.comp_def, tradeStats_losingTrades] using h.sum_eq _
  · simpa only [Function.comp_def, tradeStats_breakevenTrades] using h.sum_eq _
  · simpa only [Function.comp_def, tradeStats_netProfit] using h.sum_eq _
  · simpa only [Function.comp_def, tradeStats_grossProfit] using h.sum_eq _
  · simpa only [Function.comp_def, tradeStats_grossLoss] using h.sum_eq _

end Pieces

/-- The order of the rows does not matter to their sums. -/
theorem FootsTo.perm {rows rows' : List TradeStats} {total : TradeStats} (h : FootsTo rows total)
    (hperm : rows'.Perm rows) : FootsTo rows' total where
  tradeCount := (hperm.map _).sum_eq.trans h.tradeCount
  winningTrades := (hperm.map _).sum_eq.trans h.winningTrades
  losingTrades := (hperm.map _).sum_eq.trans h.losingTrades
  breakevenTrades := (hperm.map _).sum_eq.trans h.breakevenTrades
  netProfit := (hperm.map _).sum_eq.trans h.netProfit
  grossProfit := (hperm.map _).sum_eq.trans h.grossProfit
  grossLoss := (hperm.map _).sum_eq.trans h.grossLoss

/-! ## By symbol -/

def symbolRow (symbol : Symbol) (group : List BacktestTrade) : SymbolAnalysis :=
  { tradeStats group with symbol }

theorem symbolRows_perm (ordered : List BacktestTrade) : (symbolRows ordered).Perm
    ((collect (·.symbol) ordered).entries.map fun group => symbolRow group.1 group.2) :=
  (List.perm_insertionSort _ _).trans (List.perm_insertionSort _ _)

theorem symbolRows_symbols (ordered : List BacktestTrade) :
    ((symbolRows ordered).map (·.symbol)).Nodup := by
  refine (((symbolRows_perm ordered).map (·.symbol)).nodup_iff).mpr ?_
  rw [List.map_map]
  exact (collect_pieces (·.symbol) ordered).keys_nodup

/-- From the highest net profit, equal ones by symbol. -/
theorem symbolRows_sorted (ordered : List BacktestTrade) :
    (symbolRows ordered).Pairwise fun a b =>
      b.netProfit < a.netProfit ∨ (a.netProfit = b.netProfit ∧ a.symbol < b.symbol) := by
  have htotal : Std.Total fun a b : SymbolAnalysis => b.netProfit ≤ a.netProfit :=
    ⟨fun a b => le_total b.netProfit a.netProfit⟩
  have htrans : IsTrans SymbolAnalysis fun a b => b.netProfit ≤ a.netProfit :=
    ⟨fun _ _ _ hab hbc => hbc.trans hab⟩
  have hkeys : (((collect (·.symbol) ordered).entries.map fun group =>
      symbolRow group.1 group.2).map (·.symbol)).Nodup := by
    rw [List.map_map]
    exact (collect_pieces (·.symbol) ordered).keys_nodup
  have hstable := pairwise_insertionSort_stable
    (r := fun a b : SymbolAnalysis => b.netProfit ≤ a.netProfit) (insertionSort_strict _ hkeys)
  refine List.Pairwise.imp (fun {a b} hab => ?_) hstable
  rcases lt_or_eq_of_le hab.1 with hlt | heq
  · exact .inl hlt
  · exact .inr ⟨heq.symm, hab.2 heq.ge⟩

theorem symbolRows_footsTo (ordered : List BacktestTrade) :
    FootsTo ((symbolRows ordered).map (·.toTradeStats)) (tradeStats ordered) := by
  refine FootsTo.perm ?_ ((symbolRows_perm ordered).map _)
  rw [List.map_map]
  exact footsTo_of_pieces (collect_pieces (·.symbol) ordered)

/-! ## By exit reason -/

theorem mem_exitReasons (reason : BacktestExitReason) : reason ∈ exitReasons := by
  cases reason <;> decide

/-- The groups in the order of the reasons. -/
def reasonGroups (ordered : List BacktestTrade) :
    List (BacktestExitReason × List BacktestTrade) :=
  exitReasons.filterMap fun reason =>
    ((collect (·.exitReason) ordered).get? reason).map fun group => (reason, group)

theorem reasonGroups_pieces (ordered : List BacktestTrade) :
    Pieces (·.exitReason) ordered (reasonGroups ordered) :=
  collect_pieces_of_all (by decide) mem_exitReasons

theorem exitReasonRows_eq (count : Nat) (ordered : List BacktestTrade) :
    exitReasonRows count ordered =
      (reasonGroups ordered).map fun group => exitReasonRow count group.1 group.2 := by
  rw [reasonGroups, List.map_filterMap]
  refine List.filterMap_congr fun reason _ => ?_
  rw [Option.map_map]
  rfl

/-- A total that a row takes over from the statistics of its group. -/
theorem sum_exitReasonRows {M : Type} [AddCommMonoid M] {f : ExitReasonAnalysis → M}
    {g : TradeStats → M} {count : Nat} (ordered : List BacktestTrade)
    (h : ∀ reason group, f (exitReasonRow count reason group) = g (tradeStats group)) :
    ((exitReasonRows count ordered).map f).sum =
      (((reasonGroups ordered).map fun group => tradeStats group.2).map g).sum := by
  rw [exitReasonRows_eq, List.map_map, List.map_map]
  exact congrArg List.sum (List.map_congr_left fun group _ => h group.1 group.2)

theorem exitReasonRows_footTo (count : Nat) (ordered : List BacktestTrade) :
    ReasonsFootTo (exitReasonRows count ordered) (tradeStats ordered) := by
  have hfoots := footsTo_of_pieces (reasonGroups_pieces ordered)
  exact
    { tradeCount := (sum_exitReasonRows ordered fun _ _ => rfl).trans hfoots.tradeCount
      winningTrades := (sum_exitReasonRows ordered fun _ _ => rfl).trans hfoots.winningTrades
      losingTrades := (sum_exitReasonRows ordered fun _ _ => rfl).trans hfoots.losingTrades
      breakevenTrades := (sum_exitReasonRows ordered fun _ _ => rfl).trans hfoots.breakevenTrades
      netProfit := (sum_exitReasonRows ordered fun _ _ => rfl).trans hfoots.netProfit }

theorem exitReasonRows_reasons (count : Nat) (ordered : List BacktestTrade) :
    (exitReasonRows count ordered).map (·.exitReason) = (reasonGroups ordered).map Prod.fst := by
  rw [exitReasonRows_eq, List.map_map]
  rfl

theorem exitReasonRows_sublist (count : Nat) (ordered : List BacktestTrade) :
    ((exitReasonRows count ordered).map (·.exitReason)).Sublist exitReasons := by
  have hkeys : (reasonGroups ordered).map Prod.fst = exitReasons.filter fun reason =>
      ((collect (·.exitReason) ordered).get? reason).isSome := by
    rw [reasonGroups, List.map_filterMap, ← List.filterMap_eq_filter]
    refine List.filterMap_congr fun reason _ => ?_
    cases hget : (collect (·.exitReason) ordered).get? reason with
    | none => simp [hget, Option.guard]
    | some group => simp [hget, Option.guard]
  rw [exitReasonRows_reasons, hkeys]
  exact List.filter_sublist

/-- The shares of the reasons are the parts of a whole. -/
theorem exitReasonRows_shares (ordered : List BacktestTrade) :
    ((exitReasonRows ordered.length ordered).map (·.tradeShare)).sum =
      if ordered = [] then 0 else 1 := by
  have hcounts := (exitReasonRows_footTo ordered.length ordered).tradeCount
  have hshare : ∀ row ∈ exitReasonRows ordered.length ordered,
      row.tradeShare = (row.tradeCount : ℚ) * (1 / ordered.length) := by
    intro row hrow
    rw [exitReasonRows_eq] at hrow
    obtain ⟨group, -, rfl⟩ := List.mem_map.mp hrow
    exact div_eq_mul_one_div _ _
  have hcast : ((exitReasonRows ordered.length ordered).map fun row => (row.tradeCount : ℚ)).sum =
      ordered.length := by
    rw [← Nat.cast_inj (R := ℚ), Nat.cast_list_sum, List.map_map] at hcounts
    exact hcounts
  rw [List.map_congr_left hshare, List.sum_map_mul_right, hcast]
  by_cases hnil : ordered = []
  · simp [hnil]
  · rw [if_neg hnil]
    have hlength : (ordered.length : ℚ) ≠ 0 := by simpa using hnil
    exact mul_one_div_cancel hlength

/-! ## By month -/

def monthRow (month : String) (group : List BacktestTrade) : MonthAnalysis :=
  { tradeStats group with month }

theorem monthRows_perm (ordered : List BacktestTrade) : (monthRows ordered).Perm
    ((collect (fun t => monthOf t.exitDate) ordered).entries.map fun group =>
      monthRow group.1 group.2) := by
  rw [monthRows, DecimalContext.monthRows, groups_eq]
  exact (List.perm_insertionSort _ _).trans (.of_eq (List.map_congr_left fun _ _ => rfl))

theorem monthRows_sorted (ordered : List BacktestTrade) :
    (monthRows ordered).Pairwise fun a b => a.month < b.month := by
  rw [monthRows, DecimalContext.monthRows, groups_eq]
  refine insertionSort_strict (fun row : MonthAnalysis => row.month) ?_
  simp only [List.map_map, Function.comp_def]
  exact (collect_pieces (fun t : BacktestTrade => monthOf t.exitDate) ordered).keys_nodup

theorem monthRows_footsTo (ordered : List BacktestTrade) :
    FootsTo ((monthRows ordered).map (·.toTradeStats)) (tradeStats ordered) := by
  refine FootsTo.perm ?_ ((monthRows_perm ordered).map _)
  simp only [List.map_map, Function.comp_def]
  exact footsTo_of_pieces (collect_pieces (fun t : BacktestTrade => monthOf t.exitDate) ordered)

/-! ## The analysis -/

/-- What the breakdowns of an analysis are to the trades and to its summary. -/
structure Lossless (trades : List BacktestTrade) (analysis : BacktestAnalysis) : Prop where
  symbols : BreaksDown (·.symbol) symbolRow trades analysis.bySymbol
  reasons : BreaksDown (·.exitReason) (exitReasonRow trades.length) trades analysis.byExitReason
  months : BreaksDown (fun t => monthOf t.exitDate) monthRow trades analysis.byMonth
  symbols_foot : FootsTo (analysis.bySymbol.map (·.toTradeStats)) analysis.summary.toTradeStats
  reasons_foot : ReasonsFootTo analysis.byExitReason analysis.summary.toTradeStats
  months_foot : FootsTo (analysis.byMonth.map (·.toTradeStats)) analysis.summary.toTradeStats
  shares : (analysis.byExitReason.map (·.tradeShare)).sum = if trades = [] then 0 else 1
  symbols_order : analysis.bySymbol.Pairwise fun a b =>
    b.netProfit < a.netProfit ∨ (a.netProfit = b.netProfit ∧ a.symbol < b.symbol)
  reasons_order : (analysis.byExitReason.map (·.exitReason)).Sublist exitReasons
  months_order : analysis.byMonth.Pairwise fun a b => a.month < b.month
  symbols_nodup : (analysis.bySymbol.map (·.symbol)).Nodup
  reasons_nodup : (analysis.byExitReason.map (·.exitReason)).Nodup
  months_nodup : (analysis.byMonth.map (·.month)).Nodup

theorem BreaksDown.perm {κ ρ : Type} {key : BacktestTrade → κ} {row : κ → List BacktestTrade → ρ}
    {trades trades' : List BacktestTrade} {rows : List ρ} (h : BreaksDown key row trades rows)
    (hperm : trades.Perm trades') : BreaksDown key row trades' rows := by
  obtain ⟨groups, hrows, hkeys, hall, hgroup⟩ := h
  exact ⟨groups, hrows, hkeys, hall.trans hperm, hgroup⟩

theorem analyzeBacktestTrades_lossless (runId : UUID) (trades : List BacktestTrade) :
    Lossless trades (analyzeBacktestTrades runId trades) := by
  have hperm : (trades.insertionSort realizedOrder).Perm trades := List.perm_insertionSort _ _
  have hlength : (trades.insertionSort realizedOrder).length = trades.length := hperm.length_eq
  have hnil : trades.insertionSort realizedOrder = [] ↔ trades = [] := by
    rw [← List.length_eq_zero_iff, hlength, List.length_eq_zero_iff]
  generalize hordered : trades.insertionSort realizedOrder = ordered at hperm hlength hnil
  have hreasons : (analyzeBacktestTrades runId trades).byExitReason =
      exitReasonRows ordered.length ordered := by
    rw [← hordered]
    rfl
  have hsymbols : (analyzeBacktestTrades runId trades).bySymbol = symbolRows ordered := by
    rw [← hordered]
    rfl
  have hmonths : (analyzeBacktestTrades runId trades).byMonth = monthRows ordered := by
    rw [← hordered]
    rfl
  have hsummary : (analyzeBacktestTrades runId trades).summary.toTradeStats =
      tradeStats ordered := by
    rw [← hordered]
    rfl
  constructor
  case symbols =>
    rw [hsymbols]
    exact (breaksDown_of_pieces (collect_pieces _ ordered) (symbolRows_perm ordered)).perm hperm
  case reasons =>
    rw [hreasons, hlength, exitReasonRows_eq]
    exact (breaksDown_of_pieces (reasonGroups_pieces ordered) (List.Perm.refl _)).perm hperm
  case months =>
    rw [hmonths]
    exact (breaksDown_of_pieces (collect_pieces _ ordered) (monthRows_perm ordered)).perm hperm
  case symbols_foot => rw [hsymbols, hsummary]; exact symbolRows_footsTo ordered
  case reasons_foot => rw [hreasons, hsummary]; exact exitReasonRows_footTo _ ordered
  case months_foot => rw [hmonths, hsummary]; exact monthRows_footsTo ordered
  case shares =>
    rw [hreasons, exitReasonRows_shares]
    simp only [hnil]
  case symbols_order => rw [hsymbols]; exact symbolRows_sorted ordered
  case reasons_order => rw [hreasons]; exact exitReasonRows_sublist _ ordered
  case months_order => rw [hmonths]; exact monthRows_sorted ordered
  case symbols_nodup => rw [hsymbols]; exact symbolRows_symbols ordered
  case reasons_nodup =>
    rw [hreasons, exitReasonRows_reasons]
    exact (reasonGroups_pieces ordered).keys_nodup
  case months_nodup =>
    rw [hmonths]
    exact List.pairwise_map.mpr ((monthRows_sorted ordered).imp fun hlt => hlt.ne)

end Screener.Backtest
