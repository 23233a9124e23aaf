import Mathlib.Data.List.Induction
import Mathlib.Order.OrderDual
import Screener.Lib.Sorted
import Screener.Market.TechnicalAnalysis

/-!
# Supports and resistances

The supports of an analysis are the nearest prices at or below the current one among the
values of its summaries, and the resistances the nearest at or above it. Every level names
all the values that are at its price.
-/

namespace Screener.Market

open Screener.Lib

/-! ## Grouping the values -/

/-- What the values at a price stand for. -/
def basisAt (entries : List (Option ℚ × String)) (price : ℚ) : List String :=
  (entries.filter fun entry => entry.1 = some price).map (·.2)

theorem basisAt_concat (entries : List (Option ℚ × String)) (entry : Option ℚ × String)
    (price : ℚ) :
    basisAt (entries ++ [entry]) price =
      if entry.1 = some price then basisAt entries price ++
        [entry.2] else basisAt entries price := by
  unfold basisAt
  split_ifs with hprice
  · simp [List.filter_append, hprice]
  · simp [List.filter_append, hprice]

theorem mem_basisAt {entries : List (Option ℚ × String)} {price : ℚ} {label : String} :
    label ∈ basisAt entries price ↔ (some price, label) ∈ entries := by
  simp only [basisAt, List.mem_map, List.mem_filter, decide_eq_true_eq]
  constructor
  · rintro ⟨entry, ⟨hmem, hprice⟩, rfl⟩
    rw [← hprice]
    exact hmem
  · intro hmem
    exact ⟨_, ⟨hmem, rfl⟩, rfl⟩

theorem addLevel_none (grouped : Dict ℚ (List String)) (label : String) :
    addLevel grouped (none, label) = grouped := rfl

theorem addLevel_some (grouped : Dict ℚ (List String)) (value : ℚ) (label : String) :
    addLevel grouped (some value, label) =
      if 0 ≤ value then
        grouped.set value (if label ∈ grouped.getD value [] then grouped.getD value []
          else grouped.getD value [] ++ [label])
      else grouped := rfl

/-- Where no label occurs twice, the group of a price has all the labels at it. -/
theorem groupLevels_get? {entries : List (Option ℚ × String)} (hlabels : (entries.map (·.2)).Nodup)
    (price : ℚ) : (groupLevels entries).get? price =
      if 0 ≤ price ∧ basisAt entries price ≠ [] then some (basisAt entries price) else none := by
  induction entries using List.reverseRecOn with
  | nil => simp [groupLevels, basisAt]
  | append_singleton entries entry ih =>
    rw [List.map_append, List.map_singleton, List.nodup_append] at hlabels
    obtain ⟨hlabels, -, hnew⟩ := hlabels
    have ih := ih hlabels
    have hstep : groupLevels (entries ++ [entry]) = addLevel (groupLevels entries) entry := by
      rw [groupLevels, List.foldl_append]
      rfl
    rw [hstep, basisAt_concat]
    obtain ⟨value, label⟩ := entry
    cases value with
    | none =>
      simp only [addLevel_none, reduceCtorEq, if_false]
      exact ih
    | some value =>
      simp only [addLevel_some, Option.some_inj]
      by_cases hvalue : 0 ≤ value
      · rw [if_pos hvalue, Dict.get?_set]
        by_cases hprice : price = value
        · subst hprice
          have hbasis : (groupLevels entries).getD price [] = basisAt entries price := by
            rw [Dict.getD, ih]
            by_cases hnil : basisAt entries price = []
            · simp [hnil]
            · simp [hnil, hvalue]
          have hfresh : label ∉ basisAt entries price := by
            intro hmem
            exact hnew label (List.mem_map_of_mem (mem_basisAt.mp hmem)) label
              (List.mem_singleton_self label) rfl
          simp [hbasis, hfresh, hvalue]
        · rw [if_neg hprice, if_neg (Ne.symm hprice), ih]
      · rw [if_neg hvalue, ih]
        by_cases hprice : price = value
        · subst hprice
          simp [hvalue]
        · rw [if_neg (Ne.symm hprice)]

/-- What the values stand for, in their order. -/
def levelLabels (frame : String) : List String :=
  ["장중 VWAP", frame ++ " SMA20", "당일 저가", "당일 고가", "최근 20개 " ++ frame ++ "봉 저가",
    "최근 20개 " ++ frame ++ "봉 고가", "일봉 SMA20", "직전 20일 저가", "직전 20일 고가"]

theorem levelLabels_nodup (timeframe : Timeframe) : (levelLabels timeframe.name).Nodup := by
  cases timeframe with
  | oneMinute => decide +kernel
  | fiveMinutes => decide +kernel
  | tenMinutes => decide +kernel

theorem candidateLevels_labels (daily : DailyTechnicalSummary)
    (intraday : IntradayTechnicalSummary) :
    (candidateLevels daily intraday).map (·.2) = levelLabels intraday.timeframe.name := rfl

/-! ## The nearest levels -/

/-- Of the values on a side, at most three and the nearest first; each level has all the
labels at its price, and a value is left out only where three nearer ones are there. -/
structure NearestLevels (entries : List (Option ℚ × String)) (side : ℚ → Prop)
    (closer : ℚ → ℚ → Prop) (out : List PriceLevel) : Prop where
  nearestFirst : out.Pairwise fun a b => closer a.price b.price
  atMost : out.length ≤ maxLevels
  sound : ∀ level ∈ out, side level.price ∧ level.basis ≠ [] ∧
    level.basis = basisAt entries level.price
  complete : ∀ value label, (some value, label) ∈ entries → 0 ≤ value → side value →
    (∃ level ∈ out, level.price = value) ∨
      out.length = maxLevels ∧ ∀ level ∈ out, closer level.price value

variable {κ : Type} [LinearOrder κ] {entries : List (Option ℚ × String)}

theorem mem_groups (hlabels : (entries.map (·.2)).Nodup) {group : ℚ × List String} :
    group ∈ (groupLevels entries).entries ↔
      0 ≤ group.1 ∧ group.2 ≠ [] ∧ group.2 = basisAt entries group.1 := by
  rw [← Dict.get?_eq_some, groupLevels_get? hlabels]
  constructor
  · intro h
    obtain ⟨⟨hprice, hsome⟩, hbasis⟩ := Option.ite_none_right_eq_some.mp h
    rw [Option.some.injEq] at hbasis
    exact ⟨hprice, hbasis ▸ hsome, hbasis.symm⟩
  · rintro ⟨hprice, hsome, hbasis⟩
    rw [← hbasis, if_pos ⟨hprice, hsome⟩]

/-- A sorted side, cut off after three levels. -/
theorem nearest_of_side (hlabels : (entries.map (·.2)).Nodup) (side : ℚ → Prop) [DecidablePred side]
    {key : ℚ → κ} (hkey : Function.Injective key) :
    ∃ out, (((((groupLevels entries).entries.filter fun group => side group.1).insertionSort
        fun a b => key a.1 ≤ key b.1).take maxLevels).mapM PriceLevel.create) = .ok out ∧
      NearestLevels entries side (fun a b => key a < key b) out := by
  have hsorted : (((groupLevels entries).entries.filter fun group => side group.1).insertionSort
      fun a b => key a.1 ≤ key b.1).Pairwise fun a b => key a.1 < key b.1 := by
    refine insertionSort_strict (fun group : ℚ × List String => key group.1) ?_
    have hkeys := ((groupLevels entries).nodup.map hkey).sublist
      ((List.filter_sublist (p := fun group => side group.1)).map Prod.fst |>.map key)
    rwa [List.map_map] at hkeys
  have hmem : ∀ group, group ∈ ((groupLevels entries).entries.filter fun group =>
      side group.1).insertionSort (fun a b => key a.1 ≤ key b.1) ↔
        (0 ≤ group.1 ∧ group.2 ≠ [] ∧ group.2 = basisAt entries group.1) ∧ side group.1 := by
    intro group
    rw [List.mem_insertionSort, List.mem_filter, mem_groups hlabels, decide_eq_true_eq]
  generalize ((groupLevels entries).entries.filter fun group => side group.1).insertionSort
    (fun a b => key a.1 ≤ key b.1) = sorted at hsorted hmem
  have hnonneg : ∀ group ∈ sorted.take maxLevels, 0 ≤ group.1 := fun group hgroup =>
    ((hmem group).mp (List.mem_of_mem_take hgroup)).1.1
  obtain ⟨out, hout, hprices⟩ : ∃ out, (sorted.take maxLevels).mapM PriceLevel.create = .ok out ∧
      out.map (fun level => (level.price, level.basis)) = sorted.take maxLevels := by
    generalize sorted.take maxLevels = kept at hnonneg
    induction kept with
    | nil => exact ⟨[], rfl, rfl⟩
    | cons group rest ih =>
      obtain ⟨hgroup, hrest⟩ := List.forall_mem_cons.mp hnonneg
      obtain ⟨out, hout, hprices⟩ := ih hrest
      refine ⟨⟨group.1, group.2, hgroup⟩ :: out, ?_, congrArg _ hprices⟩
      rw [List.mapM_cons, PriceLevel.create, dif_pos hgroup, hout]
      rfl
  have hlevel : ∀ level ∈ out, (level.price, level.basis) ∈ sorted.take maxLevels := by
    intro level hin
    rw [← hprices]
    exact List.mem_map_of_mem hin
  refine ⟨out, hout, ?_⟩
  constructor
  case nearestFirst =>
    have htake := hsorted.sublist (List.take_sublist maxLevels sorted)
    rw [← hprices, List.pairwise_map] at htake
    exact htake
  case atMost =>
    have hlength := congrArg List.length hprices
    rw [List.length_map, List.length_take] at hlength
    omega
  case sound =>
    intro level hin
    obtain ⟨⟨-, hsome, hbasis⟩, hside⟩ := (hmem _).mp (List.mem_of_mem_take (hlevel level hin))
    exact ⟨hside, hsome, hbasis⟩
  case complete =>
    intro value label hentry hvalue hside
    have hin : (value, basisAt entries value) ∈ sorted :=
      (hmem _).mpr ⟨⟨hvalue, List.ne_nil_of_mem (mem_basisAt.mpr hentry), rfl⟩, hside⟩
    rcases mem_take_or_after hsorted hin with hkept | ⟨hfull, hafter⟩
    · rw [← hprices] at hkept
      obtain ⟨level, hmemLevel, heq⟩ := List.mem_map.mp hkept
      exact .inl ⟨level, hmemLevel, congrArg Prod.fst heq⟩
    · rw [← hprices, List.length_map] at hfull
      exact .inr ⟨hfull, fun level hin => hafter _ (hlevel level hin)⟩

/-- The two sides of every analysis. -/
theorem levels_sides (price : ℚ) (daily : DailyTechnicalSummary)
    (intraday : IntradayTechnicalSummary) :
    ∃ below above, levels price daily intraday = .ok ⟨below, above⟩ ∧
      NearestLevels (candidateLevels daily intraday) (· ≤ price) (fun a b => b < a) below ∧
      NearestLevels (candidateLevels daily intraday) (price ≤ ·) (fun a b => a < b) above := by
  have hlabels : ((candidateLevels daily intraday).map (·.2)).Nodup := by
    rw [candidateLevels_labels]
    exact levelLabels_nodup intraday.timeframe
  obtain ⟨below, hbelow, hsupports⟩ :=
    nearest_of_side hlabels (· ≤ price) OrderDual.toDual.injective
  obtain ⟨above, habove, hresistances⟩ := nearest_of_side hlabels (price ≤ ·) Function.injective_id
  refine ⟨below, above, ?_, hsupports, hresistances⟩
  exact bind_ok.mpr ⟨below, hbelow, bind_ok.mpr ⟨above, habove, rfl⟩⟩

/-- A nearest level bounds every value of its side, and there is one where a value is. -/
theorem NearestLevels.head {entries : List (Option ℚ × String)} {side : ℚ → Prop}
    {closer : ℚ → ℚ → Prop} {out : List PriceLevel} (h : NearestLevels entries side closer out)
    {value : ℚ} {label : String} (hentry : (some value, label) ∈ entries) (hvalue : 0 ≤ value)
    (hside : side value) : ∃ level, out.head? = some level ∧ (level.price = value ∨
      closer level.price value) := by
  cases out with
  | nil =>
    rcases h.complete value label hentry hvalue hside with ⟨level, hin, -⟩ | ⟨hfull, -⟩
    · exact absurd hin List.not_mem_nil
    · cases hfull
  | cons level rest =>
    refine ⟨level, rfl, ?_⟩
    rcases h.complete value label hentry hvalue hside with ⟨other, hin, hprice⟩ | ⟨-, hcloser⟩
    · rcases List.mem_cons.mp hin with rfl | hrest
      · exact .inl hprice
      · exact .inr (hprice ▸ List.rel_of_pairwise_cons h.nearestFirst hrest)
    · exact .inr (hcloser level List.mem_cons_self)

/-- The levels of every analysis are there: the nearest values on both sides of the price,
each with all it stands for. The first support is the highest value at or below the price
and the first resistance the lowest at or above it. -/
theorem levels_nearest (price : ℚ) (daily : DailyTechnicalSummary)
    (intraday : IntradayTechnicalSummary) :
    ∃ out, levels price daily intraday = .ok out ∧
      NearestLevels (candidateLevels daily intraday) (· ≤ price) (fun a b => b < a) out.supports ∧
      NearestLevels (candidateLevels daily intraday) (price ≤ ·) (fun a b => a < b)
        out.resistances ∧
      ∀ value label, (some value, label) ∈ candidateLevels daily intraday → 0 ≤ value →
        (value ≤ price → ∃ nearest, out.supports.head? = some nearest ∧
          value ≤ nearest.price ∧ nearest.price ≤ price) ∧
        (price ≤ value → ∃ nearest, out.resistances.head? = some nearest ∧
          nearest.price ≤ value ∧ price ≤ nearest.price) := by
  obtain ⟨below, above, hlevels, hbelow, habove⟩ := levels_sides price daily intraday
  refine ⟨⟨below, above⟩, hlevels, hbelow, habove, fun value label hentry hvalue => ⟨?_, ?_⟩⟩
  · intro hside
    obtain ⟨nearest, hhead, hnear⟩ := hbelow.head hentry hvalue hside
    have hsound := (hbelow.sound nearest (List.mem_of_head? hhead)).1
    exact ⟨nearest, hhead, hnear.elim (fun heq => heq.ge) fun hlt => hlt.le, hsound⟩
  · intro hside
    obtain ⟨nearest, hhead, hnear⟩ := habove.head hentry hvalue hside
    have hsound := (habove.sound nearest (List.mem_of_head? hhead)).1
    exact ⟨nearest, hhead, hnear.elim (fun heq => heq.le) fun hlt => hlt.le, hsound⟩

end Screener.Market
