import Mathlib.Algebra.BigOperators.Ring.List
import Mathlib.Algebra.Order.Ring.Abs
import Screener.Lib.Windows

/-!
# Series under a change of unit

Sums, extremes, recursive averages and differences of neighbours are multiplied when
every value of a series is multiplied; quotients of two such values are not.
-/

namespace Screener.Lib

section Extremes

variable {α β : Type*} [LinearOrder α] [LinearOrder β] {f : α → β}

theorem max?_map (hf : Monotone f) (xs : List α) : (xs.map f).max? = xs.max?.map f := by
  cases xs with
  | nil => rfl
  | cons x xs =>
    simp only [List.map_cons, List.max?_cons', Option.map_some, List.foldl_map]
    exact congrArg some (List.foldl_hom f fun a b => (hf.map_max).symm)

theorem min?_map (hf : Monotone f) (xs : List α) : (xs.map f).min? = xs.min?.map f := by
  cases xs with
  | nil => rfl
  | cons x xs =>
    simp only [List.map_cons, List.min?_cons', Option.map_some, List.foldl_map]
    exact congrArg some (List.foldl_hom f fun a b => (hf.map_min).symm)

end Extremes

theorem pairwise_map {α β γ : Type*} (f : β → β → γ) (g : α → β) (xs : List α) :
    pairwise f (xs.map g) = pairwise (fun a b => f (g a) (g b)) xs := by
  rw [pairwise, pairwise, ← List.map_tail, List.zipWith_map]

theorem map_pairwise {α β γ : Type*} (f : α → α → β) (g : β → γ) (xs : List α) :
    (pairwise f xs).map g = pairwise (fun a b => g (f a b)) xs := by
  rw [pairwise, pairwise, List.map_zipWith]

variable {k : ℚ}

theorem sum_map_scale (k : ℚ) (xs : List ℚ) : (xs.map (k * ·)).sum = k * xs.sum := by
  rw [List.sum_map_mul_left, List.map_id']

theorem monotone_scale (hk : 0 < k) : Monotone fun x : ℚ => k * x :=
  fun _ _ h => mul_le_mul_of_nonneg_left h hk.le

theorem smooth_scale (k multiplier start : ℚ) (xs : List ℚ) :
    smooth multiplier (k * start) (xs.map (k * ·)) = k * smooth multiplier start xs := by
  induction xs generalizing start with
  | nil => rfl
  | cons x xs ih =>
    have hstep : (k * x - k * start) * multiplier + k * start =
        k * ((x - start) * multiplier + start) := by ring
    rw [List.map_cons, smooth, List.foldl_cons, hstep]
    exact ih _

end Screener.Lib
