import Mathlib.Algebra.Order.Ring.Rat
import Mathlib.Data.List.Chain
import Mathlib.Tactic.Ring

/-!
# Functions of the last values of a series

`trailing n` is the slice `xs[-n:]`. A function is local to `n` when it gives the
same value on the last `n` values as on the whole series; local functions
compose. A recursive average is not local: it remembers the value it starts from.
-/

namespace Screener.Lib

variable {α β γ : Type*}

/-- `xs[-n:]`, the whole series when it is shorter. -/
def trailing (n : Nat) (xs : List α) : List α := xs.drop (xs.length - n)

theorem length_trailing (n : Nat) (xs : List α) : (trailing n xs).length = min n xs.length := by
  rw [trailing, List.length_drop]
  omega

theorem trailing_of_le {n : Nat} {xs : List α} (h : xs.length ≤ n) : trailing n xs = xs := by
  rw [trailing, Nat.sub_eq_zero_of_le h, List.drop_zero]

theorem trailing_trailing {m n : Nat} (h : m ≤ n) (xs : List α) :
    trailing m (trailing n xs) = trailing m xs := by
  rw [trailing, length_trailing, trailing, trailing, List.drop_drop]
  congr 1
  omega

theorem map_trailing (f : α → β) (n : Nat) (xs : List α) :
    (trailing n xs).map f = trailing n (xs.map f) := by
  rw [trailing, trailing, List.map_drop, List.length_map]

theorem trailing_append_of_le {n : Nat} (xs : List α) {ys : List α} (h : n ≤ ys.length) :
    trailing n (xs ++ ys) = trailing n ys := by
  rw [trailing, trailing, List.length_append, List.drop_append]
  have hlength : xs.length ≤ xs.length + ys.length - n := by omega
  rw [List.drop_eq_nil_of_le hlength, List.nil_append]
  congr 1
  omega

theorem trailing_suffix (n : Nat) (xs : List α) : trailing n xs <:+ xs := List.drop_suffix _ _

theorem take_append_trailing (n : Nat) (xs : List α) :
    xs.take (xs.length - n) ++ trailing n xs = xs := List.take_append_drop _ _

/-! ## Local functions -/

def LocalTo (n : Nat) (f : List α → β) : Prop :=
  ∀ xs, n ≤ xs.length → f (trailing n xs) = f xs

namespace LocalTo

variable {m n : Nat} {f : List α → β} {g : List α → γ}

/-- A longer window serves as well. -/
theorem mono (h : LocalTo m f) (hmn : m ≤ n) : LocalTo n f := by
  intro xs hxs
  have hm : m ≤ (trailing n xs).length := by
    rw [length_trailing]
    omega
  rw [← h (trailing n xs) hm, trailing_trailing hmn, h xs (by omega)]

theorem trailing (n : Nat) : LocalTo n (Lib.trailing n : List α → List α) :=
  fun xs _ => trailing_trailing le_rfl xs

theorem comp (h : LocalTo n f) (k : β → γ) : LocalTo n (fun xs => k (f xs)) :=
  fun xs hxs => congrArg k (h xs hxs)

/-- A function of the values under `k`. -/
theorem map (h : LocalTo n g) (k : β → α) : LocalTo n (fun xs : List β => g (xs.map k)) := by
  intro xs hxs
  show g ((Lib.trailing n xs).map k) = g (xs.map k)
  rw [map_trailing]
  exact h _ (by rw [List.length_map]; exact hxs)

theorem getLast? (h : 0 < n) : LocalTo n (List.getLast? : List α → Option α) := by
  intro xs hxs
  have hne : Lib.trailing n xs ≠ [] := by
    intro hnil
    have hlength := length_trailing n xs
    rw [hnil, List.length_nil] at hlength
    omega
  conv_rhs => rw [← take_append_trailing n xs]
  rw [List.getLast?_append_of_ne_nil _ hne]

end LocalTo

theorem trailing_length_lt_iff {k n : Nat} (hk : k ≤ n) {xs : List α} (h : n ≤ xs.length) :
    (trailing n xs).length < k ↔ xs.length < k := by
  rw [length_trailing]
  omega

/-! ## Neighbouring values -/

/-- `[f previous current for previous, current in pairwise(xs)]`. -/
def pairwise (f : α → α → β) (xs : List α) : List β := List.zipWith f xs xs.tail

theorem length_pairwise (f : α → α → β) (xs : List α) : (pairwise f xs).length = xs.length - 1 := by
  rw [pairwise, List.length_zipWith, List.length_tail]
  omega

theorem pairwise_trailing (f : α → α → β) {n : Nat} {xs : List α} (h : n + 1 ≤ xs.length) :
    pairwise f (trailing (n + 1) xs) = trailing n (pairwise f xs) := by
  have hstart : (pairwise f xs).length - n = xs.length - (n + 1) := by
    rw [length_pairwise]
    omega
  rw [trailing, trailing, hstart, pairwise, pairwise, List.drop_zipWith, List.drop_tail,
    List.tail_drop]

/-! ## Recursive averages -/

/-- `ema = (value - ema) * multiplier + ema` over the values. -/
def smooth (multiplier : ℚ) (start : ℚ) (xs : List ℚ) : ℚ :=
  xs.foldl (fun ema value => (value - ema) * multiplier + ema) start

theorem smooth_append (multiplier start : ℚ) (xs ys : List ℚ) :
    smooth multiplier start (xs ++ ys) = smooth multiplier (smooth multiplier start xs) ys :=
  List.foldl_append

end Screener.Lib
