import Mathlib.Algebra.BigOperators.Group.List.Basic
import Mathlib.Algebra.Order.Group.Defs
import Mathlib.Algebra.Order.Group.Unbundled.Basic
import Mathlib.Data.List.Induction
import Mathlib.Order.Bounds.Image
import Mathlib.Order.Bounds.Lattice

/-!
# Running peaks

A loop that adds up a list keeps the highest total so far and the deepest fall from such a
peak. The peak is the greatest partial sum, the fall the greatest difference between a
partial sum and a later one.
-/

namespace Screener.Lib

structure Peak (M : Type*) where
  total : M
  high : M
  fall : M
deriving DecidableEq, Repr

section Sums

variable {M : Type*} [AddCommGroup M]

/-- The sums of the first `i` elements; of none it is zero. -/
def partialSums (xs : List M) : Set M := {s | ∃ i ≤ xs.length, s = (xs.take i).sum}

/-- How far a partial sum lies above a later one. -/
def falls (xs : List M) : Set M :=
  {d | ∃ i j, i ≤ j ∧ j ≤ xs.length ∧ d = (xs.take i).sum - (xs.take j).sum}

theorem partialSums_nil : partialSums ([] : List M) = {0} := by
  ext s
  simp [partialSums]

theorem falls_nil : falls ([] : List M) = {0} := by
  ext d
  simp only [falls, List.length_nil, List.take_nil, List.sum_nil, sub_zero, Set.mem_ofPred_eq,
    Set.mem_singleton_iff]
  constructor
  · rintro ⟨_, _, _, _, hd⟩
    exact hd
  · intro hd
    exact ⟨0, 0, le_rfl, le_rfl, hd⟩

/-- One more element adds the sum of all. -/
theorem partialSums_concat (xs : List M) (x : M) :
    partialSums (xs ++ [x]) = insert (xs.sum + x) (partialSums xs) := by
  ext s
  simp only [partialSums, Set.mem_insert_iff, Set.mem_ofPred_eq, List.length_append,
    List.length_singleton]
  constructor
  · rintro ⟨i, hi, rfl⟩
    rcases Nat.le_succ_iff.mp hi with hi | rfl
    · exact .inr ⟨i, hi, by rw [List.take_append_of_le_length hi]⟩
    · refine .inl ?_
      rw [List.take_of_length_le (by simp), List.sum_append, List.sum_singleton]
  · rintro (rfl | ⟨i, hi, rfl⟩)
    · refine ⟨xs.length + 1, le_rfl, ?_⟩
      rw [List.take_of_length_le (by simp), List.sum_append, List.sum_singleton]
    · exact ⟨i, Nat.le_succ_of_le hi, by rw [List.take_append_of_le_length hi]⟩

/-- One more element adds the falls to the new sum. -/
theorem falls_concat (xs : List M) (x : M) :
    falls (xs ++ [x]) =
      falls xs ∪ (fun s => s - (xs.sum + x)) '' partialSums (xs ++ [x]) := by
  have hall : ((xs ++ [x]).take (xs.length + 1)).sum = xs.sum + x := by
    rw [List.take_of_length_le (by simp), List.sum_append, List.sum_singleton]
  ext d
  simp only [falls, partialSums, Set.mem_union, Set.mem_image, Set.mem_ofPred_eq,
    List.length_append, List.length_singleton]
  constructor
  · rintro ⟨i, j, hij, hj, rfl⟩
    rcases Nat.le_succ_iff.mp hj with hj | rfl
    · refine .inl ⟨i, j, hij, hj, ?_⟩
      rw [List.take_append_of_le_length (hij.trans hj), List.take_append_of_le_length hj]
    · exact .inr ⟨_, ⟨i, hij, rfl⟩, by rw [hall]⟩
  · rintro (⟨i, j, hij, hj, rfl⟩ | ⟨_, ⟨i, hi, rfl⟩, rfl⟩)
    · refine ⟨i, j, hij, Nat.le_succ_of_le hj, ?_⟩
      rw [List.take_append_of_le_length (hij.trans hj), List.take_append_of_le_length hj]
    · exact ⟨i, xs.length + 1, hi, le_rfl, by rw [hall]⟩

end Sums

namespace Peak

variable {M : Type*} [AddCommGroup M] [LinearOrder M]

def start : Peak M := ⟨0, 0, 0⟩

def next (s : Peak M) (x : M) : Peak M :=
  let total := s.total + x
  let high := max s.high total
  ⟨total, high, max s.fall (high - total)⟩

def of (xs : List M) : Peak M := xs.foldl next start

theorem of_concat (xs : List M) (x : M) : of (xs ++ [x]) = (of xs).next x := by
  rw [of, List.foldl_append]
  rfl

theorem of_total (xs : List M) : (of xs).total = xs.sum := by
  induction xs using List.reverseRecOn with
  | nil => rfl
  | append_singleton xs x ih =>
    rw [of_concat, List.sum_append, List.sum_singleton, ← ih]
    rfl

theorem of_high (xs : List M) : IsGreatest (partialSums xs) (of xs).high := by
  induction xs using List.reverseRecOn with
  | nil =>
    rw [partialSums_nil]
    exact isGreatest_singleton
  | append_singleton xs x ih =>
    have hhigh : (of (xs ++ [x])).high = max (xs.sum + x) (of xs).high := by
      rw [of_concat, ← of_total, max_comm]
      rfl
    rw [partialSums_concat, hhigh]
    exact ih.insert _

theorem of_fall [IsOrderedAddMonoid M] (xs : List M) : IsGreatest (falls xs) (of xs).fall := by
  induction xs using List.reverseRecOn with
  | nil =>
    rw [falls_nil]
    exact isGreatest_singleton
  | append_singleton xs x ih =>
    have hfall : (of (xs ++ [x])).fall =
        max (of xs).fall ((of (xs ++ [x])).high - (xs.sum + x)) := by
      rw [of_concat, ← of_total]
      rfl
    have hmono : Monotone fun s : M => s - (xs.sum + x) := fun _ _ hab => sub_le_sub_right hab _
    rw [falls_concat, hfall]
    exact ih.union (hmono.map_isGreatest (of_high (xs ++ [x])))

/-- No total lies above the peak. -/
theorem total_le_high (xs : List M) : (of xs).total ≤ (of xs).high :=
  (of_high xs).2 ⟨xs.length, le_rfl, by rw [of_total, List.take_length]⟩

end Peak

end Screener.Lib
