import Mathlib.Data.List.TakeDrop
import Mathlib.Data.List.Range
import Mathlib.Data.Nat.Basic

/-!
# Pages of a list

The elements of a list from an offset on, up to a limit. A reader who goes on while a page is
full sees every element once, and ends on a page that is not full.
-/

namespace Screener.Lib

variable {α : Type*} {size offset : Nat} {xs : List α}

def pageAt (size offset : Nat) (xs : List α) : List α := (xs.drop offset).take size

theorem length_pageAt (size offset : Nat) (xs : List α) :
    (pageAt size offset xs).length = min size (xs.length - offset) := by
  rw [pageAt, List.length_take, List.length_drop]

/-- A page is full where the next one starts within the list. -/
theorem pageAt_full_iff (hsize : 0 < size) :
    (pageAt size offset xs).length = size ↔ offset + size ≤ xs.length := by
  rw [length_pageAt]
  omega

theorem pageAt_nil_iff (hsize : 0 < size) (hoffset : offset ≤ xs.length) :
    pageAt size offset xs = [] ↔ offset = xs.length := by
  rw [← List.length_eq_zero_iff, length_pageAt]
  omega

theorem flatMap_pageAt (size count : Nat) (xs : List α) :
    ((List.range count).flatMap fun k => pageAt size (size * k) xs) = xs.take (size * count) := by
  induction count with
  | zero => rw [Nat.mul_zero, List.take_zero, List.range_zero, List.flatMap_nil]
  | succ count ih =>
    rw [List.range_succ, List.flatMap_append, ih, Nat.mul_succ, List.take_add,
      List.flatMap_singleton,
      pageAt]

/-- The pages up to the first that is not full are the whole list. -/
theorem flatMap_pageAt_all (hsize : 0 < size) (xs : List α) :
    ((List.range (xs.length / size + 1)).flatMap fun k => pageAt size (size * k) xs) = xs := by
  rw [flatMap_pageAt, List.take_of_length_le]
  have hsplit := Nat.div_add_mod xs.length size
  have hmod := Nat.mod_lt xs.length hsize
  rw [Nat.mul_succ]
  omega

end Screener.Lib
