import Mathlib.Algebra.Order.BigOperators.Group.List
import Mathlib.Algebra.Order.Field.Basic
import Mathlib.Order.Interval.Set.Defs
import Mathlib.Tactic.Ring

/-!
# Averages of lists

An average with weights that are not negative lies between bounds of its values.
-/

namespace Screener.Lib

variable {α 𝕜 : Type*} [Field 𝕜] [LinearOrder 𝕜] [IsStrictOrderedRing 𝕜]
  {xs : List α} {f w : α → 𝕜} {lo hi : 𝕜}

theorem weightedSum_bounds (hw : ∀ x ∈ xs, 0 ≤ w x) (hf : ∀ x ∈ xs, lo ≤ f x ∧ f x ≤ hi) :
    lo * (xs.map w).sum ≤ (xs.map fun x => f x * w x).sum ∧
      (xs.map fun x => f x * w x).sum ≤ hi * (xs.map w).sum := by
  induction xs with
  | nil => simp
  | cons x xs ih =>
    obtain ⟨hwx, hw⟩ := List.forall_mem_cons.mp hw
    obtain ⟨hfx, hf⟩ := List.forall_mem_cons.mp hf
    obtain ⟨hlo, hhi⟩ := ih hw hf
    simp only [List.map_cons, List.sum_cons, mul_add]
    exact ⟨add_le_add (mul_le_mul_of_nonneg_right hfx.1 hwx) hlo,
      add_le_add (mul_le_mul_of_nonneg_right hfx.2 hwx) hhi⟩

theorem weightedAverage_mem (hw : ∀ x ∈ xs, 0 ≤ w x) (hf : ∀ x ∈ xs, lo ≤ f x ∧ f x ≤ hi)
    (hpos : 0 < (xs.map w).sum) :
    (xs.map fun x => f x * w x).sum / (xs.map w).sum ∈ Set.Icc lo hi := by
  obtain ⟨hlo, hhi⟩ := weightedSum_bounds hw hf
  exact ⟨(le_div_iff₀ hpos).mpr hlo, (div_le_iff₀ hpos).mpr hhi⟩

theorem average_mem {values : List 𝕜} (hsome : values ≠ []) (h : ∀ v ∈ values, lo ≤ v ∧ v ≤ hi) :
    values.sum / values.length ∈ Set.Icc lo hi := by
  have hcount : (values.map fun _ => (1 : 𝕜)).sum = values.length := by simp
  have hpos : 0 < (values.map fun _ => (1 : 𝕜)).sum := by
    rw [hcount, Nat.cast_pos]
    exact List.length_pos_iff.mpr hsome
  have hmem := weightedAverage_mem (f := fun v => v) (w := fun _ : 𝕜 => (1 : 𝕜))
    (fun _ _ => zero_le_one) h hpos
  simpa only [mul_one, List.map_id', hcount] using hmem

end Screener.Lib
