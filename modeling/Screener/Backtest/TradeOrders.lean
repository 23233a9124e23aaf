import Mathlib.Data.Prod.Lex
import Screener.Backtest.Analysis
import Screener.Lib.Sorted

/-!
# The two orders of the trades

The metrics read the trades by `exit_date, entry_date, symbol, id`, the analysis by
`exit_date, symbol, id`. Where the ids are distinct, both orders are strict.
-/

namespace Screener.Backtest

open Screener.Lib
open Screener.Market (Date Symbol)

def exitKey (t : BacktestTrade) : Date ×ₗ Date ×ₗ Symbol ×ₗ UUID :=
  toLex (t.exitDate, toLex (t.entryDate, toLex (t.symbol, t.id)))

def realizedKey (t : BacktestTrade) : Date ×ₗ Symbol ×ₗ UUID :=
  toLex (t.exitDate, toLex (t.symbol, t.id))

theorem exitOrder_iff {t u : BacktestTrade} : exitOrder t u ↔ exitKey t ≤ exitKey u := by
  simp only [exitOrder, exitKey, Prod.Lex.toLex_le_toLex]

theorem realizedOrder_iff {t u : BacktestTrade} :
    realizedOrder t u ↔ realizedKey t ≤ realizedKey u := by
  simp only [realizedOrder, realizedKey, Prod.Lex.toLex_le_toLex]

/-- Two trades with one key have one id. -/
theorem exitKey_id {t u : BacktestTrade} (h : exitKey t = exitKey u) : t.id = u.id :=
  congrArg (fun key : Date ×ₗ Date ×ₗ Symbol ×ₗ UUID => (ofLex (ofLex (ofLex key).2).2).2) h

theorem realizedKey_id {t u : BacktestTrade} (h : realizedKey t = realizedKey u) : t.id = u.id :=
  congrArg (fun key : Date ×ₗ Symbol ×ₗ UUID => (ofLex (ofLex key).2).2) h

section Order

variable {trades other : List BacktestTrade}

/-- An order by a key that tells the ids apart sorts strictly. -/
theorem insertionSort_order_strict {κ : Type} [LinearOrder κ] {key : BacktestTrade → κ}
    {order : BacktestTrade → BacktestTrade → Prop} [DecidableRel order]
    (horder : ∀ t u, order t u ↔ key t ≤ key u) (hkey : ∀ t u, key t = key u → t.id = u.id)
    (hids : (trades.map (·.id)).Nodup) :
    (trades.insertionSort order).Pairwise fun t u => key t < key u := by
  have hsame : order = fun t u => key t ≤ key u := by
    funext t u
    exact propext (horder t u)
  subst hsame
  have hkeys : (trades.map key).Nodup := by
    refine List.pairwise_map.mpr ((List.pairwise_map.mp hids).imp ?_)
    intro t u hne heq
    exact hne (hkey t u heq)
  convert insertionSort_strict key hkeys

theorem exitOrder_strict (hids : (trades.map (·.id)).Nodup) :
    (trades.insertionSort exitOrder).Pairwise fun t u => exitKey t < exitKey u :=
  insertionSort_order_strict (fun _ _ => exitOrder_iff) (fun _ _ => exitKey_id) hids

theorem realizedOrder_strict (hids : (trades.map (·.id)).Nodup) :
    (trades.insertionSort realizedOrder).Pairwise fun t u => realizedKey t < realizedKey u :=
  insertionSort_order_strict (fun _ _ => realizedOrder_iff) (fun _ _ => realizedKey_id) hids

/-- The order of the input is sorted away. -/
theorem insertionSort_realizedOrder_perm (hids : (trades.map (·.id)).Nodup)
    (hperm : other.Perm trades) :
    other.insertionSort realizedOrder = trades.insertionSort realizedOrder := by
  have hother : (other.map (·.id)).Nodup := (hperm.map (·.id)).nodup_iff.mpr hids
  apply eq_of_mem_iff realizedKey (realizedOrder_strict hother) (realizedOrder_strict hids)
  intro t
  rw [List.mem_insertionSort, List.mem_insertionSort, hperm.mem_iff]

end Order

end Screener.Backtest
