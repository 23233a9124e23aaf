import Mathlib.Data.Prod.Lex
import Mathlib.Data.String.Basic
import Screener.Backtest.Service
import Screener.Lib.Paging
import Screener.Lib.Sorted

/-!
# Listing the trades of a run

`GET /backtests/{run_id}/trades`: the trades of a run, filtered, in the order of their entries,
from an offset on. The ids are a primary key, so the order leaves no tie.
-/

namespace Screener.Backtest

open Screener.Lib
open Screener.Market (Date Symbol)

/-- The values of `BacktestExitReason`. -/
def BacktestExitReason.value : BacktestExitReason → String
  | .stopLoss => "stop_loss"
  | .takeProfit => "take_profit"
  | .maxHoldingDays => "max_holding_days"
  | .endOfPeriod => "end_of_period"
  | .noEntryBar => "no_entry_bar"
  | .insufficientPositionSize => "insufficient_position_size"

def BacktestExitReason.all : List BacktestExitReason :=
  [.stopLoss, .takeProfit, .maxHoldingDays, .endOfPeriod, .noEntryBar, .insufficientPositionSize]

/-- `BacktestExitReason(value)`. -/
def BacktestExitReason.ofValue? (value : String) : Option BacktestExitReason :=
  all.find? (·.value = value)

/-! ## The repository -/

/-- `order_by(entry_date, symbol, id)`. -/
def listedOrder (t u : BacktestTrade) : Prop :=
  t.entryDate < u.entryDate ∨ (t.entryDate = u.entryDate ∧ (t.symbol < u.symbol ∨
    (t.symbol = u.symbol ∧ t.id ≤ u.id)))

instance : DecidableRel listedOrder := fun t u => by unfold listedOrder; infer_instance

/-- The two filters of a listing. -/
def Listed (symbol : Option Symbol) (exitReason : Option BacktestExitReason) (t : BacktestTrade) :
    Prop := (∀ s ∈ symbol, t.symbol = s) ∧ ∀ r ∈ exitReason, t.exitReason = r

instance (symbol : Option Symbol) (exitReason : Option BacktestExitReason) :
    DecidablePred (Listed symbol exitReason) := fun t => by
  unfold Listed; infer_instance

namespace Tables

variable (tables : Tables)

/-- The statement of `BacktestRepository.list_trades` without its offset and limit. -/
def listedTrades (runId : UUID) (symbol : Option Symbol) (exitReason : Option BacktestExitReason) :
    List BacktestTrade :=
  ((tables.tradesOf runId).filter (Listed symbol exitReason ·)).insertionSort listedOrder

/-- `BacktestRepository.list_trades`. -/
def listTrades (runId : UUID) (limit offset : Nat) (symbol : Option Symbol)
    (exitReason : Option BacktestExitReason) : List BacktestTrade :=
  pageAt limit offset (tables.listedTrades runId symbol exitReason)

/-- `BacktestService.list_trades`; a run that is not found is `none`. -/
def serviceListTrades (runId : UUID) (limit offset : Nat) (symbol : Option Symbol)
    (exitReason : Option BacktestExitReason) : Option (List BacktestTrade) :=
  (tables.runs.get? runId).map fun _ => tables.listTrades runId limit offset symbol exitReason

end Tables

/-! ## The route -/

structure TradesQuery where
  limit : Nat := 100
  offset : Nat := 0
  symbol : Option String := none
  exitReason : Option String := none

/-- `list_backtest_trades`: the trades, or the status of the failure. The parser of the path's
UUID is not part of the repository. -/
def listBacktestTrades (parseUuid : String → Option UUID) (tables : Tables) (runId : String)
    (query : TradesQuery) : Except Nat (List BacktestTrade) :=
  match parseUuid runId, query.exitReason.mapM BacktestExitReason.ofValue? with
  | some id, some exitReason =>
    if query.limit < 1 ∨ 500 < query.limit then .error 422
    else match tables.serviceListTrades id query.limit query.offset query.symbol exitReason with
      | none => .error 404
      | some trades => .ok trades
  | _, _ => .error 422

/-! ## What a listing is -/

def listedKey (t : BacktestTrade) : Date ×ₗ Symbol ×ₗ UUID :=
  toLex (t.entryDate, toLex (t.symbol, t.id))

theorem listedOrder_iff {t u : BacktestTrade} : listedOrder t u ↔ listedKey t ≤ listedKey u := by
  simp only [listedOrder, listedKey, Prod.Lex.toLex_le_toLex]

variable {tables : Tables} {runId : UUID} {symbol : Option Symbol}
  {exitReason : Option BacktestExitReason}

theorem mem_listedTrades {t : BacktestTrade} : t ∈ tables.listedTrades runId symbol exitReason ↔
    t ∈ tables.trades ∧ t.runId = runId ∧ Listed symbol exitReason t := by
  rw [Tables.listedTrades, (List.perm_insertionSort _ _).mem_iff, List.mem_filter, Tables.tradesOf,
    List.mem_filter, decide_eq_true_eq, decide_eq_true_eq, and_assoc]

instance : Std.Total listedOrder where
  total t u := by
    rw [listedOrder_iff, listedOrder_iff]
    exact le_total _ _

instance : IsTrans BacktestTrade listedOrder where
  trans t u v := by
    rw [listedOrder_iff, listedOrder_iff, listedOrder_iff]
    exact le_trans

theorem listedTrades_strict (hids : (tables.trades.map (·.id)).Nodup) :
    (tables.listedTrades runId symbol exitReason).Pairwise fun t u =>
      listedKey t < listedKey u := by
  have hperm := List.perm_insertionSort listedOrder
    ((tables.tradesOf runId).filter (Listed symbol exitReason ·))
  have hsub : ((tables.tradesOf runId).filter (Listed symbol exitReason ·)).Sublist tables.trades :=
    List.filter_sublist.trans List.filter_sublist
  have hdistinct : (tables.listedTrades runId symbol exitReason).Pairwise fun t u =>
      listedKey t ≠ listedKey u := by
    have hnodup := ((hperm.map BacktestTrade.id).nodup_iff).mpr (hids.sublist (hsub.map _))
    refine (List.pairwise_map.mp hnodup).imp fun {t u} hne heq => hne ?_
    simp only [listedKey, EmbeddingLike.apply_eq_iff_eq, Prod.mk.injEq] at heq
    exact heq.2.2
  have hsorted : (tables.listedTrades runId symbol exitReason).Pairwise listedOrder :=
    List.pairwise_insertionSort listedOrder _
  exact (hsorted.and hdistinct).imp fun htu => lt_of_le_of_ne (listedOrder_iff.mp htu.1) htu.2

end Screener.Backtest
