import Mathlib.Algebra.Order.Ring.Rat

/-!
# Decimals that may not be finite

A decimal is finite, an infinity or a NaN. Infinities compare with every number; to order a
NaN raises, which is kept apart from the comparison here.
-/

namespace Screener.Lib

inductive DecimalValue where
  | finite (value : ℚ)
  | infinite (negative : Bool)
  | nan
deriving DecidableEq, Repr

namespace DecimalValue

instance : Coe ℚ DecimalValue := ⟨finite⟩

/-- `a <= b`, for decimals that are no NaN. -/
def le : DecimalValue → DecimalValue → Bool
  | nan, _ => false
  | _, nan => false
  | infinite true, _ => true
  | _, infinite false => true
  | finite a, finite b => a ≤ b
  | _, _ => false

@[simp] theorem le_finite (a b : ℚ) : (finite a).le (finite b) = decide (a ≤ b) := rfl

/-- The message of the exception that the order of a NaN raises. -/
def invalidOperation : String := "[<class 'decimal.InvalidOperation'>]"

/-- No value that is compared is a NaN. -/
def comparable (values : List DecimalValue) : Except String Unit :=
  if nan ∈ values then .error invalidOperation else .ok ()

theorem comparable_ok {values : List DecimalValue} {u : Unit} :
    comparable values = .ok u ↔ nan ∉ values := by
  unfold comparable
  split_ifs with h
  · simp [h]
  · simp [h]

/-- Two finite decimals, the first below the second. -/
def Below (low high : DecimalValue) : Prop := ∃ a b : ℚ, low = a ∧ high = b ∧ a < b

theorem below_finite {a b : ℚ} : Below a b ↔ a < b := by
  constructor
  · rintro ⟨a', b', ha, hb, hlt⟩
    rw [finite.inj ha, finite.inj hb]
    exact hlt
  · exact fun hlt => ⟨a, b, rfl, rfl, hlt⟩

theorem Below.low_ne_nan {low high : DecimalValue} (h : Below low high) : nan ≠ low := by
  obtain ⟨a, b, rfl, -, -⟩ := h
  exact nofun

theorem Below.high_ne_nan {low high : DecimalValue} (h : Below low high) : nan ≠ high := by
  obtain ⟨a, b, -, rfl, -⟩ := h
  exact nofun

end DecimalValue

end Screener.Lib
