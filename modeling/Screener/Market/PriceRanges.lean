import Mathlib.Tactic.Linarith
import Mathlib.Tactic.NormNum
import Screener.Market.MinuteAggregation
import Screener.Market.TechnicalAnalysis

/-!
# Prices that fit the quantizations

A quantization raises where its result has more than 28 digits. Ratios between prices that are
not too small and not too large have fewer, and so has every text of such a price.
-/

namespace Screener.Market

open Screener.Lib

variable {bars : List MinuteBar} {minutes : ℤ}

/-! ## Quantizations -/

theorem quantizeHalfUp_total {places : Nat} {value : ℚ} {n : ℤ} (h : |value * 10 ^ places| ≤ n)
    (hn : n < 10 ^ 28) : ∃ out, quantizeHalfUp places value = .ok out := by
  have hle : |roundHalfUp (value * 10 ^ places)| ≤ n := by
    obtain ⟨hlow, hhigh⟩ := abs_le.mp h
    have hbelow := roundHalfUp_mono hlow
    have habove := roundHalfUp_mono hhigh
    rw [← Int.cast_neg, roundHalfUp_intCast] at hbelow
    rw [roundHalfUp_intCast] at habove
    exact abs_le.mpr ⟨hbelow, habove⟩
  exact ⟨_, if_pos (hle.trans_lt hn)⟩

/-- A price from the least positive one of a price column up to the first that is too large. -/
def InPriceRange (price : ℚ) : Prop := 1 / 10 ^ 6 ≤ price ∧ price ≤ 10 ^ 14

instance (price : ℚ) : Decidable (InPriceRange price) := by unfold InPriceRange; infer_instance

theorem InPriceRange.between {low value high : ℚ} (hlow : InPriceRange low)
    (hhigh : InPriceRange high) (h : low ≤ value ∧ value ≤ high) : InPriceRange value :=
  ⟨hlow.1.trans h.1, h.2.trans hhigh.2⟩

theorem InPriceRange.pos {price : ℚ} (h : InPriceRange price) : 0 < price :=
  lt_of_lt_of_le (by norm_num) h.1

variable {price base : ℚ}

theorem ratio_total (hprice : 0 ≤ price) (hle : price ≤ 10 ^ 14) (hbase : InPriceRange base) :
    ∃ change, ratio price base = .ok change := by
  have hpos := hbase.pos
  have hquotient : price / base ≤ 10 ^ 20 := by
    rw [div_le_iff₀ hpos]
    linarith [hbase.1]
  have hnonneg : 0 ≤ price / base := div_nonneg hprice hpos.le
  have hbound : |(price - base) / base * 10 ^ 4| ≤ ((10 ^ 24 : ℤ) : ℚ) := by
    rw [sub_div, div_self hpos.ne', abs_le]
    norm_num at hquotient ⊢
    constructor
    · linarith
    · linarith
  obtain ⟨out, hout⟩ := quantizeHalfUp_total hbound (by norm_num)
  exact ⟨some out, by rw [ratio, if_neg hpos.not_ge, hout]; rfl⟩

theorem ratioTo_total (hprice : 0 ≤ price) (hle : price ≤ 10 ^ 14) {base : Option ℚ}
    (hbase : ∀ b, base = some b → InPriceRange b) : ∃ change, ratioTo price base = .ok change := by
  cases base with
  | none => exact ⟨none, rfl⟩
  | some b => exact ratio_total hprice hle (hbase b rfl)

/-! ## Bars -/

/-- Bars whose prices are all in range. -/
def Priced (bars : List MinuteBar) : Prop :=
  ∀ bar ∈ bars, InPriceRange bar.low ∧ InPriceRange bar.high

instance (bars : List MinuteBar) : Decidable (Priced bars) := by unfold Priced; infer_instance

theorem bar_covers (bar : MinuteBar) : bar.low ≤ bar.open ∧ bar.open ≤ bar.high ∧
    bar.low ≤ bar.close ∧ bar.close ≤ bar.high ∧ bar.low ≤ bar.high := by
  have hhigh := bar.highCovers
  have hlow := bar.lowCovers
  simp only [MinuteBarValues.HighCovers, MinuteBarValues.LowCovers, max_le_iff, le_min_iff]
    at hhigh hlow
  exact ⟨hlow.1, hhigh.1, hlow.2.1, hhigh.2.1, hhigh.2.2⟩

theorem Priced.open {bar : MinuteBar} (h : Priced bars) (hbar : bar ∈ bars) :
    InPriceRange bar.open :=
  (h bar hbar).1.between (h bar hbar).2 ⟨(bar_covers bar).1, (bar_covers bar).2.1⟩

theorem Priced.close {bar : MinuteBar} (h : Priced bars) (hbar : bar ∈ bars) :
    InPriceRange bar.close :=
  (h bar hbar).1.between (h bar hbar).2 ⟨(bar_covers bar).2.2.1, (bar_covers bar).2.2.2.1⟩

theorem create_values {v : MinuteBarValues} {bar : MinuteBar} (h : v.create = .ok bar) :
    bar.toMinuteBarValues = v := by
  unfold MinuteBarValues.create at h
  split_ifs at h
  rw [← Except.ok.inj h]

theorem eq_of_length_dedup {α β : Type} [DecidableEq β] {f : α → β} {xs : List α}
    (h : (xs.map f).dedup.length = 1) : ∀ a ∈ xs, ∀ b ∈ xs, f a = f b := by
  obtain ⟨c, hc⟩ := List.length_eq_one_iff.mp h
  have hall : ∀ a ∈ xs, f a = c := by
    intro a ha
    have hmem : f a ∈ (xs.map f).dedup := List.mem_dedup.mpr (List.mem_map_of_mem ha)
    rwa [hc, List.mem_singleton] at hmem
  intro a ha b hb
  rw [hall a ha, hall b hb]

/-- What the bar of a bucket has of the bars in it. -/
structure OfBucket (group : Stamp × List MinuteBar) (bar : MinuteBar) : Prop where
  timestamp : bar.timestamp = group.1
  currency : ∀ a ∈ group.2, ∀ b ∈ group.2, a.currency = b.currency
  low : ∃ a ∈ group.2, a.low = bar.low
  high : ∃ a ∈ group.2, a.high = bar.high

theorem aggregateBucket_inv {group : Stamp × List MinuteBar} {bar : MinuteBar}
    (h : aggregateBucket group = .ok bar) : OfBucket group bar := by
  obtain ⟨bucket, values⟩ := group
  cases values with
  | nil => cases h
  | cons first rest =>
    simp only [aggregateBucket] at h
    split_ifs at h with hmixed
    obtain ⟨hcurrencies, -⟩ := not_or.mp hmixed
    have hvalues := create_values h
    constructor
    case timestamp => exact congrArg MinuteBarValues.timestamp hvalues
    case currency => exact eq_of_length_dedup (not_not.mp hcurrencies)
    case low =>
      rw [hvalues]
      exact (isLeast_foldl_min (·.low) first rest).1
    case high =>
      rw [hvalues]
      exact (isGreatest_foldl_max (·.high) first rest).1

/-- The bars of a frame are in range where its bars are. -/
theorem Priced.frame (hminutes : 2 ≤ minutes) {frame : List MinuteBar} (h : Priced bars)
    (hframe : aggregateMinuteBars bars minutes = .ok frame) : Priced frame := by
  rw [aggregateMinuteBars_eq hminutes] at hframe
  split_ifs at hframe
  intro bar hbar
  obtain ⟨group, hgroup, hrun⟩ := (mem_mapM_ok hframe).mp hbar
  have hbucket := aggregateBucket_inv hrun
  obtain ⟨lowest, hlowest, hlow⟩ := hbucket.low
  obtain ⟨highest, hhighest, hhigh⟩ := hbucket.high
  rw [← hlow, ← hhigh]
  exact ⟨(h lowest (mem_of_group hgroup hlowest)).1, (h highest (mem_of_group hgroup hhighest)).2⟩

end Screener.Market
