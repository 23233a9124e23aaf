import Mathlib.Algebra.Order.Floor.Ring
import Mathlib.Data.Int.ConditionallyCompleteOrder
import Mathlib.Algebra.Order.Round
import Mathlib.Data.Rat.Floor
import Mathlib.Order.Bounds.Basic
import Mathlib.Algebra.Ring.Int.Parity
import Mathlib.Tactic.Linarith
import Mathlib.Tactic.Positivity
import Mathlib.Tactic.Ring

/-!
# Decimal rounding of exact rationals

`quantizeWith round places` rounds to a multiple of `10 ^ -places`. A rounding
is given by its integer part alone, so the order lemmas are proved once for any
monotone rounding that fixes the integers.
-/

namespace Screener.Lib

/-- To the nearest integer, ties to the even neighbour. -/
def roundHalfEven (q : ℚ) : ℤ :=
  if q - ⌊q⌋ < 1 / 2 then ⌊q⌋
  else if 1 / 2 < q - ⌊q⌋ then ⌊q⌋ + 1
  else if ⌊q⌋ % 2 = 0 then ⌊q⌋ else ⌊q⌋ + 1

/-- To the nearest integer, ties away from zero. -/
def roundHalfUp (q : ℚ) : ℤ := if 0 ≤ q then ⌊q + 1 / 2⌋ else -⌊-q + 1 / 2⌋

/-- Towards zero. -/
def roundDown (q : ℚ) : ℤ := if 0 ≤ q then ⌊q⌋ else -⌊-q⌋

def quantizeWith (round : ℚ → ℤ) (places : Nat) (q : ℚ) : ℚ := round (q * 10 ^ places) / 10 ^ places

theorem floor_le_roundHalfEven (q : ℚ) : ⌊q⌋ ≤ roundHalfEven q := by
  unfold roundHalfEven
  split_ifs <;> omega

theorem roundHalfEven_le_floor_add_one (q : ℚ) : roundHalfEven q ≤ ⌊q⌋ + 1 := by
  unfold roundHalfEven
  split_ifs <;> omega

theorem roundHalfEven_mono : Monotone roundHalfEven := by
  intro a b hab
  rcases (Int.floor_le_floor hab).lt_or_eq with hlt | heq
  · have ha := roundHalfEven_le_floor_add_one a
    have hb := floor_le_roundHalfEven b
    omega
  · unfold roundHalfEven
    rw [heq]
    have hfrac : a - ⌊b⌋ ≤ b - ⌊b⌋ := by linarith
    split_ifs <;> first | omega | linarith

theorem roundHalfEven_intCast (n : ℤ) : roundHalfEven n = n := by
  simp [roundHalfEven]

theorem abs_roundHalfEven_sub_le (q : ℚ) : |(roundHalfEven q : ℚ) - q| ≤ 1 / 2 := by
  have hfloor := Int.floor_le q
  have hnext := Int.lt_floor_add_one q
  rw [abs_le]
  unfold roundHalfEven
  split_ifs <;> push_cast <;> constructor <;> linarith

theorem roundHalfEven_neg (q : ℚ) : roundHalfEven (-q) = -roundHalfEven q := by
  have hfloor := Int.floor_le q
  have hnext := Int.lt_floor_add_one q
  rcases hfloor.eq_or_lt with hwhole | hpart
  · rw [← hwhole, ← Int.cast_neg, roundHalfEven_intCast, roundHalfEven_intCast]
  · have hneg : ⌊-q⌋ = -⌊q⌋ - 1 := by
      rw [Int.floor_eq_iff]
      push_cast
      constructor <;> linarith
    unfold roundHalfEven
    rw [hneg]
    push_cast
    split_ifs <;> first | omega | linarith

/-- Half way between, the even neighbour is taken. -/
theorem roundHalfEven_half (n : ℤ) :
    roundHalfEven (n + 1 / 2) = if n % 2 = 0 then n else n + 1 := by
  have hfloor : ⌊(n : ℚ) + 1 / 2⌋ = n := by
    rw [Int.floor_eq_iff]
    constructor <;> linarith
  have hfrac : (n : ℚ) + 1 / 2 - n = 1 / 2 := by ring
  unfold roundHalfEven
  rw [hfloor, hfrac, if_neg (lt_irrefl _), if_neg (lt_irrefl _)]

/-- Below an even bound, rounding stays below it exactly with half a unit to spare. -/
theorem abs_roundHalfEven_lt_iff {n : ℤ} (heven : n % 2 = 0) {q : ℚ} :
    |roundHalfEven q| < n ↔ |q| < n - 1 / 2 := by
  have hround := abs_le.mp (abs_roundHalfEven_sub_le q)
  constructor
  · intro h
    have hbounds := abs_lt.mp h
    by_contra hq
    rcases le_abs.mp (not_lt.mp hq) with hup | hdown
    · have hmono := roundHalfEven_mono hup
      have htie := roundHalfEven_half (n - 1)
      rw [if_neg (by omega)] at htie
      rw [show ((n : ℚ) - 1 / 2) = ((n - 1 : ℤ) : ℚ) + 1 / 2 by push_cast; ring, htie] at hmono
      omega
    · have hmono := roundHalfEven_mono (show q ≤ ((-n : ℤ) : ℚ) + 1 / 2 by push_cast; linarith)
      have htie := roundHalfEven_half (-n)
      rw [if_pos (by omega)] at htie
      rw [htie] at hmono
      omega
  · intro h
    have hbounds := abs_lt.mp h
    have hlow : (-n : ℚ) < roundHalfEven q := by linarith
    have hhigh : (roundHalfEven q : ℚ) < n := by linarith
    exact abs_lt.mpr ⟨by exact_mod_cast hlow, by exact_mod_cast hhigh⟩

/-- An even number added does not move the parity that a tie looks at. -/
theorem roundHalfEven_add_even (q : ℚ) (n : ℤ) :
    roundHalfEven (q + (2 * n : ℤ)) = roundHalfEven q + 2 * n := by
  have hfloor : ⌊q + (2 * n : ℤ)⌋ = ⌊q⌋ + 2 * n := Int.floor_add_intCast q (2 * n)
  have hfrac : q + (2 * n : ℤ) - (⌊q⌋ + 2 * n : ℤ) = q - ⌊q⌋ := by
    push_cast
    ring
  have hparity : (⌊q⌋ + 2 * n) % 2 = ⌊q⌋ % 2 := by omega
  unfold roundHalfEven
  rw [hfloor, hfrac, hparity]
  split_ifs <;> ring

theorem roundHalfUp_intCast (n : ℤ) : roundHalfUp n = n := by
  have hhalf : ∀ m : ℤ, ⌊(m : ℚ) + 1 / 2⌋ = m := by
    intro m
    rw [Int.floor_eq_iff]
    constructor <;> linarith
  unfold roundHalfUp
  split_ifs
  · exact hhalf n
  · rw [← Int.cast_neg, hhalf (-n), neg_neg]

theorem roundHalfUp_mono : Monotone roundHalfUp := by
  intro p q hpq
  unfold roundHalfUp
  split_ifs with hp hq hq
  · exact Int.floor_mono (by linarith)
  · exact absurd (hp.trans hpq) hq
  · have hpos : (0 : ℤ) ≤ ⌊-p + 1 / 2⌋ := Int.floor_nonneg.mpr (by linarith)
    have hnonneg : (0 : ℤ) ≤ ⌊q + 1 / 2⌋ := Int.floor_nonneg.mpr (by linarith)
    omega
  · exact neg_le_neg (Int.floor_mono (by linarith))

theorem abs_roundHalfUp_sub_le (q : ℚ) : |(roundHalfUp q : ℚ) - q| ≤ 1 / 2 := by
  have hnear : ∀ r : ℚ, |(⌊r + 1 / 2⌋ : ℚ) - r| ≤ 1 / 2 := by
    intro r
    have hlow := Int.floor_le (r + 1 / 2)
    have hhigh := Int.lt_floor_add_one (r + 1 / 2)
    exact abs_le.mpr ⟨by linarith, by linarith⟩
  unfold roundHalfUp
  split_ifs
  · exact hnear q
  · have hflip : ((-⌊-q + 1 / 2⌋ : ℤ) : ℚ) - q = -((⌊-q + 1 / 2⌋ : ℚ) - -q) := by
      push_cast
      ring
    rw [hflip, abs_neg]
    exact hnear (-q)

theorem roundDown_of_nonneg {q : ℚ} (h : 0 ≤ q) : roundDown q = ⌊q⌋ := if_pos h

theorem le_toNat_roundDown {q : ℚ} (h : 0 ≤ q) {n : Nat} :
    n ≤ (roundDown q).toNat ↔ (n : ℚ) ≤ q := by
  rw [roundDown_of_nonneg h, Int.floor_toNat, Nat.le_floor_iff h]

/-- A price goes into an amount that is not below it. -/
theorem one_le_roundDown_div {amount price : ℚ} (hprice : 0 < price) (hamount : 0 ≤ amount) :
    1 ≤ roundDown (amount / price) ↔ price ≤ amount := by
  rw [roundDown_of_nonneg (div_nonneg hamount hprice.le), Int.le_floor, Int.cast_one,
    one_le_div hprice]

/-- How many times a price goes into an amount. -/
theorem isGreatest_quotient {amount price : ℚ} (hprice : 0 < price) (hamount : 0 ≤ amount) :
    IsGreatest {n : Nat | price * n ≤ amount} (roundDown (amount / price)).toNat := by
  have hle : ∀ n : Nat, n ≤ (roundDown (amount / price)).toNat ↔ price * n ≤ amount := by
    intro n
    rw [le_toNat_roundDown (div_nonneg hamount hprice.le), le_div_iff₀ hprice, mul_comm]
  exact ⟨(hle _).mp le_rfl, fun n hn => (hle n).mpr hn⟩

section Quantize

variable {round : ℚ → ℤ} (places : Nat)

theorem quantizeWith_mono (hmono : Monotone round) : Monotone (quantizeWith round places) := by
  intro a b hab
  have hscale : (0 : ℚ) < 10 ^ places := by positivity
  have h : round (a * 10 ^ places) ≤ round (b * 10 ^ places) :=
    hmono (mul_le_mul_of_nonneg_right hab hscale.le)
  exact div_le_div_of_nonneg_right (by exact_mod_cast h) hscale.le

theorem quantizeWith_intCast (hfix : ∀ n : ℤ, round n = n) (n : ℤ) :
    quantizeWith round places n = n := by
  have hscale : (10 : ℚ) ^ places ≠ 0 := by positivity
  have h : ((n : ℚ) * 10 ^ places) = ((n * 10 ^ places : ℤ) : ℚ) := by push_cast; rfl
  rw [quantizeWith, h, hfix]
  push_cast
  exact mul_div_cancel_right₀ _ hscale

/-- A rounding cannot leave an interval with integer ends. -/
theorem quantizeWith_mem_Icc (hmono : Monotone round) (hfix : ∀ n : ℤ, round n = n) {q : ℚ}
    {m n : ℤ} (hm : (m : ℚ) ≤ q) (hn : q ≤ n) :
    (m : ℚ) ≤ quantizeWith round places q ∧ quantizeWith round places q ≤ n := by
  have h := quantizeWith_mono places hmono
  exact ⟨quantizeWith_intCast places hfix m ▸ h hm, quantizeWith_intCast places hfix n ▸ h hn⟩

end Quantize

/-! ## Decimals of a fixed scale -/

/-- A multiple of `10 ^ -places`. -/
def OnGrid (places : Nat) (q : ℚ) : Prop := ∃ n : ℤ, q = n / 10 ^ places

section Grid

variable {round : ℚ → ℤ} {places : Nat} {q : ℚ}

theorem onGrid_iff : OnGrid places q ↔ (q * 10 ^ places).den = 1 := by
  have hscale : (10 : ℚ) ^ places ≠ 0 := by positivity
  constructor
  · rintro ⟨n, rfl⟩
    rw [div_mul_cancel₀ _ hscale, Rat.den_intCast]
  · intro hden
    refine ⟨(q * 10 ^ places).num, ?_⟩
    rw [eq_div_iff hscale]
    exact ((Rat.den_eq_one_iff _).mp hden).symm

instance : Decidable (OnGrid places q) := decidable_of_iff _ onGrid_iff.symm

theorem onGrid_quantizeWith (round : ℚ → ℤ) (places : Nat) (q : ℚ) :
    OnGrid places (quantizeWith round places q) := ⟨_, rfl⟩

theorem OnGrid.finer {finer : Nat} (h : OnGrid places q) (hle : places ≤ finer) :
    OnGrid finer q := by
  obtain ⟨n, rfl⟩ := h
  obtain ⟨extra, rfl⟩ := Nat.exists_eq_add_of_le hle
  refine ⟨n * 10 ^ extra, ?_⟩
  have hextra : (10 : ℚ) ^ extra ≠ 0 := by positivity
  push_cast
  rw [pow_add, mul_div_mul_right _ _ hextra]

theorem quantizeWith_of_onGrid (hfix : ∀ n : ℤ, round n = n) (h : OnGrid places q) :
    quantizeWith round places q = q := by
  obtain ⟨n, rfl⟩ := h
  have hscale : (10 : ℚ) ^ places ≠ 0 := by positivity
  rw [quantizeWith, div_mul_cancel₀ _ hscale, hfix]

/-- Half a unit of the last place at most, for a rounding to a nearest integer. -/
theorem abs_quantizeWith_sub_le_of (hround : ∀ r : ℚ, |(round r : ℚ) - r| ≤ 1 / 2) (places : Nat)
    (q : ℚ) : |quantizeWith round places q - q| ≤ 1 / 2 / 10 ^ places := by
  have hscale : (0 : ℚ) < 10 ^ places := by positivity
  have heq : quantizeWith round places q - q =
      ((round (q * 10 ^ places) : ℚ) - q * 10 ^ places) / 10 ^ places := by
    rw [sub_div, mul_div_cancel_right₀ _ hscale.ne']
    rfl
  rw [heq, abs_div, abs_of_pos hscale]
  exact div_le_div_of_nonneg_right (hround _) hscale.le

theorem abs_quantizeWith_sub_le (places : Nat) (q : ℚ) :
    |quantizeWith roundHalfEven places q - q| ≤ 1 / 2 / 10 ^ places :=
  abs_quantizeWith_sub_le_of abs_roundHalfEven_sub_le places q

/-- A whole bound is kept after the rounding by what keeps it with half a unit to spare. -/
theorem abs_quantizeWith_lt_iff {places : Nat} (hplaces : 0 < places) {n : ℤ} {q : ℚ} :
    |quantizeWith roundHalfEven places q| < n ↔ |q| < n - 1 / 2 / 10 ^ places := by
  have hscale : (0 : ℚ) < 10 ^ places := by positivity
  have heven : (n * 10 ^ places) % 2 = 0 := by
    obtain ⟨k, rfl⟩ := Nat.exists_eq_add_of_lt hplaces
    have htwo : n * 10 ^ (0 + k + 1) = 2 * (n * 10 ^ k * 5) := by ring
    rw [htwo, Int.mul_emod_right]
  have hrounded : |quantizeWith roundHalfEven places q| < n ↔
      |roundHalfEven (q * 10 ^ places)| < n * 10 ^ places := by
    rw [quantizeWith, abs_div, abs_of_pos hscale, div_lt_iff₀ hscale]
    constructor
    · intro h
      exact_mod_cast h
    · intro h
      exact_mod_cast h
  rw [hrounded, abs_roundHalfEven_lt_iff heven, abs_mul, abs_of_pos hscale]
  push_cast
  rw [← div_lt_div_iff_of_pos_right hscale, mul_div_cancel_right₀ _ hscale.ne', sub_div,
    mul_div_cancel_right₀ _ hscale.ne']

/-- What has a place less than is kept comes through the rounding as it is. -/
theorem quantizeWith_add_onGrid (h : OnGrid places q) (r : ℚ) :
    quantizeWith roundHalfEven (places + 1) (r + q) =
      quantizeWith roundHalfEven (places + 1) r + q := by
  obtain ⟨n, rfl⟩ := h
  have hscale : (10 : ℚ) ^ places ≠ 0 := by positivity
  have hshift : (r + n / 10 ^ places) * 10 ^ (places + 1) =
      r * 10 ^ (places + 1) + (2 * (5 * n) : ℤ) := by
    rw [add_mul, pow_succ, div_mul_eq_mul_div, mul_comm (10 ^ places : ℚ) 10, ← mul_assoc (n : ℚ),
      mul_div_cancel_right₀ _ hscale]
    push_cast
    ring
  rw [quantizeWith, hshift, roundHalfEven_add_even, quantizeWith, Int.cast_add, add_div, pow_succ]
  congr 1
  push_cast
  rw [div_eq_div_iff (by positivity) hscale]
  ring

/-- A difference of rounded amounts is a unit at most from the rounded difference. -/
theorem abs_quantizeWith_sub_sub_le (places : Nat) (q r : ℚ) :
    |quantizeWith roundHalfEven places q - quantizeWith roundHalfEven places r -
      quantizeWith roundHalfEven places (q - r)| ≤ 1 / 10 ^ places := by
  have hscale : (0 : ℚ) < 10 ^ places := by positivity
  have hq := abs_le.mp (abs_roundHalfEven_sub_le (q * 10 ^ places))
  have hr := abs_le.mp (abs_roundHalfEven_sub_le (r * 10 ^ places))
  have hqr := abs_le.mp (abs_roundHalfEven_sub_le ((q - r) * 10 ^ places))
  rw [sub_mul] at hqr
  -- Three halves of a unit bound a whole number of units.
  let units := roundHalfEven (q * 10 ^ places) - roundHalfEven (r * 10 ^ places) -
    roundHalfEven (q * 10 ^ places - r * 10 ^ places)
  have hlow : (-2 : ℚ) < units := by
    push_cast [units]
    linarith
  have hhigh : (units : ℚ) < 2 := by
    push_cast [units]
    linarith
  have hunits : |units| ≤ 1 := by
    have hlow' : -2 < units := by exact_mod_cast hlow
    have hhigh' : units < 2 := by exact_mod_cast hhigh
    rw [abs_le]
    omega
  have heq : quantizeWith roundHalfEven places q - quantizeWith roundHalfEven places r -
      quantizeWith roundHalfEven places (q - r) = units / 10 ^ places := by
    simp only [quantizeWith, units, sub_mul]
    push_cast
    ring
  rw [heq, abs_div, abs_of_pos hscale]
  exact div_le_div_of_nonneg_right (by exact_mod_cast hunits) hscale.le

theorem onGrid_zero : OnGrid places 0 := ⟨0, by simp⟩

theorem OnGrid.add {r : ℚ} (hq : OnGrid places q) (hr : OnGrid places r) :
    OnGrid places (q + r) := by
  obtain ⟨m, rfl⟩ := hq
  obtain ⟨n, rfl⟩ := hr
  refine ⟨m + n, ?_⟩
  push_cast
  ring

theorem OnGrid.neg (h : OnGrid places q) : OnGrid places (-q) := by
  obtain ⟨n, rfl⟩ := h
  refine ⟨-n, ?_⟩
  push_cast
  ring

theorem OnGrid.mul_natCast (h : OnGrid places q) (n : Nat) : OnGrid places (q * n) := by
  obtain ⟨m, rfl⟩ := h
  refine ⟨m * n, ?_⟩
  push_cast
  ring

theorem onGrid_sum {qs : List ℚ} (h : ∀ q ∈ qs, OnGrid places q) : OnGrid places qs.sum :=
  List.sum_induction _ (fun _ _ => OnGrid.add) onGrid_zero h

/-- Every term adds half a unit at most. -/
theorem abs_sum_quantizeWith_sub_le (places : Nat) (qs : List ℚ) :
    |(qs.map (quantizeWith roundHalfEven places)).sum - qs.sum| ≤
      qs.length * (1 / 2 / 10 ^ places) := by
  induction qs with
  | nil => simp
  | cons q qs ih =>
    have hq := abs_quantizeWith_sub_le places q
    rw [List.map_cons, List.sum_cons, List.sum_cons, List.length_cons, add_sub_add_comm]
    rw [Nat.cast_succ, add_mul, one_mul, add_comm (_ * _)]
    exact (abs_add_le _ _).trans (add_le_add hq ih)

end Grid

end Screener.Lib
