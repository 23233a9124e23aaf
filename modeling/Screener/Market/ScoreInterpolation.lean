import Screener.Market.ScreeningInvariants

/-!
# The shape of the scores

A score is a straight line between two ends, clamped and rounded. Rounding keeps its
direction and its ends, so a triangular score rises to the ideal and falls behind it.
-/

namespace Screener.Market

open Screener.Lib

theorem clampScore_mono : Monotone clampScore := fun _ _ h =>
  min_le_min le_rfl (max_le_max le_rfl h)

theorem quantizeScore_mono : Monotone quantizeScore := fun _ _ h =>
  quantizeWith_mono 2 roundHalfUp_mono (clampScore_mono h)

theorem quantizeScore_of_nonpos {value : ℚ} (h : value ≤ 0) : quantizeScore value = 0 := by
  have hclamp : clampScore value = ((0 : ℤ) : ℚ) := by
    rw [clampScore, max_eq_left h, Int.cast_zero]
    exact min_eq_right (by norm_num)
  rw [quantizeScore, hclamp, quantizeWith_intCast 2 roundHalfUp_intCast, Int.cast_zero]

theorem quantizeScore_of_large {value : ℚ} (h : 100 ≤ value) : quantizeScore value = 100 := by
  have hclamp : clampScore value = ((100 : ℤ) : ℚ) := by
    rw [clampScore, max_eq_right (le_trans (by norm_num) h), min_eq_left h]
    rfl
  rw [quantizeScore, hclamp, quantizeWith_intCast 2 roundHalfUp_intCast]
  rfl

/-! ## One line -/

/-- A score that rises from 0 at `low` to 100 at `high`. -/
structure Rises (score : ℚ → ℚ) (low high : ℚ) : Prop where
  monotone : Monotone score
  isScore : ∀ value, IsScore (score value)
  bottom : ∀ value ≤ low, score value = 0
  top : ∀ value, high ≤ value → score value = 100

/-- A score that falls from 100 at `low` to 0 at `high`. -/
structure Falls (score : ℚ → ℚ) (low high : ℚ) : Prop where
  antitone : Antitone score
  isScore : ∀ value, IsScore (score value)
  top : ∀ value ≤ low, score value = 100
  bottom : ∀ value, high ≤ value → score value = 0

section Line

variable {low high : ℚ}

/-- The score of `high_is_good` on a range that is in order. -/
def risingScore (low high value : ℚ) : ℚ := quantizeScore ((value - low) / (high - low) * 100)

/-- The score of `low_is_good` on a range that is in order. -/
def fallingScore (low high value : ℚ) : ℚ := quantizeScore ((high - value) / (high - low) * 100)

theorem highIsGood_rising (h : low < high) (value : ℚ) :
    highIsGood value low high = .ok (risingScore low high value) := if_neg h.not_ge

theorem lowIsGood_falling (h : low < high) (value : ℚ) :
    lowIsGood value low high = .ok (fallingScore low high value) := if_neg h.not_ge

theorem rises_risingScore (h : low < high) : Rises (risingScore low high) low high := by
  have hwidth : 0 < high - low := sub_pos.mpr h
  constructor
  case monotone =>
    intro a b hab
    apply quantizeScore_mono
    gcongr
  case isScore => exact fun value => isScore_quantizeScore _
  case bottom =>
    intro value hvalue
    apply quantizeScore_of_nonpos
    have hquotient := div_nonpos_of_nonpos_of_nonneg (sub_nonpos.mpr hvalue) hwidth.le
    linarith
  case top =>
    intro value hvalue
    apply quantizeScore_of_large
    have hquotient : 1 ≤ (value - low) / (high - low) := by
      rw [one_le_div hwidth]
      linarith
    linarith

/-- A rising score read from the other end. -/
theorem Rises.reflect {score : ℚ → ℚ} (h : Rises score low high) :
    Falls (fun value => score (low + high - value)) low high where
  antitone := by
    intro a b hab
    apply h.monotone
    linarith
  isScore value := h.isScore _
  top := by
    intro value hvalue
    apply h.top
    linarith
  bottom := by
    intro value hvalue
    apply h.bottom
    linarith

theorem fallingScore_eq (low high value : ℚ) :
    fallingScore low high value = risingScore low high (low + high - value) := by
  rw [fallingScore, risingScore, add_sub_assoc, add_sub_cancel_left]

theorem falls_fallingScore (h : low < high) : Falls (fallingScore low high) low high := by
  rw [show fallingScore low high = _ from funext (fallingScore_eq low high)]
  exact (rises_risingScore h).reflect

end Line

/-! ## Two lines -/

/-- A score that rises from 0 at `low` to 100 at `peak` and falls to 0 at `high`. -/
structure Peaks (score : ℚ → ℚ) (low peak high : ℚ) : Prop where
  isScore : ∀ value, IsScore (score value)
  top : score peak = 100
  rising : MonotoneOn score (Set.Iic peak)
  falling : AntitoneOn score (Set.Ici peak)
  before : ∀ value ≤ low, score value = 0
  behind : ∀ value, high ≤ value → score value = 0

/-- Two lines that meet at the top. -/
theorem Rises.peaks {left right : ℚ → ℚ} {low peak high : ℚ} (hleft : Rises left low peak)
    (hright : Falls right peak high) (hlow : low < peak) (hhigh : peak < high) :
    Peaks (fun value => if value ≤ peak then left value else right value) low peak high := by
  have hbefore : ∀ value ≤ peak, (if value ≤ peak then left value else right value) = left value :=
    fun value h => if_pos h
  -- At the peak both lines have their top.
  have hbehind : ∀ value, peak ≤ value →
      (if value ≤ peak then left value else right value) = right value := by
    intro value h
    split_ifs with hle
    · rw [le_antisymm hle h, hleft.top peak le_rfl, hright.top peak le_rfl]
    · rfl
  constructor
  case isScore =>
    intro value
    split_ifs
    · exact hleft.isScore value
    · exact hright.isScore value
  case top => exact (hbefore peak le_rfl).trans (hleft.top peak le_rfl)
  case rising =>
    intro a ha b hb hab
    simp only [hbefore a ha, hbefore b hb]
    exact hleft.monotone hab
  case falling =>
    intro a ha b hb hab
    simp only [hbehind a ha, hbehind b hb]
    exact hright.antitone hab
  case before =>
    intro value h
    exact (hbefore value (h.trans hlow.le)).trans (hleft.bottom value h)
  case behind =>
    intro value h
    exact (hbehind value (hhigh.le.trans h)).trans (hright.bottom value h)

theorem triangularScore_peak {low peak high : ℚ} (hlow : low < peak) (hhigh : peak < high)
    (value : ℚ) : triangularScore value low peak high =
      .ok (if value ≤ peak then risingScore low peak value else fallingScore peak high value) := by
  rw [triangularScore_finite, if_neg (not_not.mpr ⟨hlow, hhigh⟩)]
  split_ifs
  · exact highIsGood_rising hlow value
  · exact lowIsGood_falling hhigh value

/-- **Scores.** On ranges that are in order the score functions return scores that rise,
fall, and rise and fall. -/
theorem scores_interpolate :
    (∀ minimum maximum : ℚ, minimum < maximum → ∃ score, Rises score minimum maximum ∧
      ∀ value : ℚ, highIsGood value minimum maximum = .ok (score value)) ∧
    (∀ best worst : ℚ, best < worst → ∃ score, Falls score best worst ∧
      ∀ value : ℚ, lowIsGood value best worst = .ok (score value)) ∧
    ∀ minimum ideal maximum : ℚ, minimum < ideal → ideal < maximum →
      ∃ score, Peaks score minimum ideal maximum ∧
        ∀ value : ℚ, triangularScore value minimum ideal maximum = .ok (score value) := by
  refine ⟨fun minimum maximum h => ?_, fun best worst h => ?_,
    fun minimum ideal maximum hlow hhigh => ?_⟩
  · exact ⟨_, rises_risingScore h, highIsGood_rising h⟩
  · exact ⟨_, falls_fallingScore h, lowIsGood_falling h⟩
  · exact ⟨_, (rises_risingScore hlow).peaks (falls_fallingScore hhigh) hlow hhigh,
      triangularScore_peak hlow hhigh⟩

end Screener.Market
