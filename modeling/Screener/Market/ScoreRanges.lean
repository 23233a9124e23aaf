import Screener.Market.Ranking

/-!
# The ranges of the scores

Every setup scores its metrics against ranges that mix fields of the configuration
with literals. A score function raises on a range whose ends are out of order; the
checks of a configuration do not look at these ranges. A setup that has enough bars
always makes its scores, whether or not its rules hold.
-/

namespace Screener.Market

open Screener.Lib

/-! ## When a score is made -/

theorem finiteValue_ok {value : DecimalValue} {q : ℚ} : finiteValue value = .ok q ↔ value = q := by
  cases value with
  | finite v => simp [finiteValue]
  | infinite negative => simp [finiteValue]
  | nan => simp [finiteValue]

theorem highIsGood_finite (value minimum maximum : ℚ) : highIsGood value minimum maximum =
    if maximum ≤ minimum then .error "maximum must exceed minimum"
    else .ok (quantizeScore ((value - minimum) / (maximum - minimum) * 100)) := rfl

theorem lowIsGood_finite (value best worst : ℚ) : lowIsGood value best worst =
    if worst ≤ best then .error "worst must exceed best"
    else .ok (quantizeScore ((worst - value) / (worst - best) * 100)) := rfl

theorem triangularScore_finite (value minimum ideal maximum : ℚ) :
    triangularScore value minimum ideal maximum =
      if ¬ (minimum < ideal ∧ ideal < maximum) then
        .error "minimum < ideal < maximum is required"
      else if value ≤ ideal then highIsGood value minimum ideal
      else lowIsGood value ideal maximum := rfl

theorem highIsGood_total {value : ℚ} {minimum maximum : DecimalValue} :
    (∃ s, highIsGood value minimum maximum = .ok s) ↔ minimum.Below maximum := by
  constructor
  · rintro ⟨s, h⟩
    simp only [highIsGood, bind_ok, finiteValue_ok] at h
    obtain ⟨_, -, low, rfl, high, rfl, h⟩ := h
    split_ifs at h with hempty
    exact ⟨low, high, rfl, rfl, not_le.mp hempty⟩
  · rintro ⟨low, high, rfl, rfl, hlt⟩
    exact ⟨_, (highIsGood_finite _ _ _).trans (if_neg hlt.not_ge)⟩

theorem lowIsGood_total {value : ℚ} {best worst : DecimalValue} :
    (∃ s, lowIsGood value best worst = .ok s) ↔ best.Below worst := by
  constructor
  · rintro ⟨s, h⟩
    simp only [lowIsGood, bind_ok, finiteValue_ok] at h
    obtain ⟨_, -, low, rfl, high, rfl, h⟩ := h
    split_ifs at h with hempty
    exact ⟨low, high, rfl, rfl, not_le.mp hempty⟩
  · rintro ⟨low, high, rfl, rfl, hlt⟩
    exact ⟨_, (lowIsGood_finite _ _ _).trans (if_neg hlt.not_ge)⟩

theorem triangularScore_total {value : ℚ} {minimum ideal maximum : DecimalValue} :
    (∃ s, triangularScore value minimum ideal maximum = .ok s) ↔
      minimum.Below ideal ∧ ideal.Below maximum := by
  constructor
  · rintro ⟨s, h⟩
    simp only [triangularScore, bind_ok, finiteValue_ok] at h
    obtain ⟨_, -, low, rfl, peak, rfl, high, rfl, h⟩ := h
    by_cases horder : low < peak ∧ peak < high
    · exact ⟨⟨low, peak, rfl, rfl, horder.1⟩, ⟨peak, high, rfl, rfl, horder.2⟩⟩
    · rw [if_pos horder] at h
      cases h
  · rintro ⟨⟨low, peak, rfl, rfl, hlow⟩, hpeak⟩
    obtain ⟨peak', high, heq, rfl, hhigh⟩ := hpeak
    obtain rfl := DecimalValue.finite.inj heq
    rw [triangularScore_finite, if_neg (not_not.mpr ⟨hlow, hhigh⟩)]
    split_ifs
    · exact highIsGood_total.mpr ⟨low, peak, rfl, rfl, hlow⟩
    · exact lowIsGood_total.mpr ⟨peak, high, rfl, rfl, hhigh⟩

/-! ## The ranges that each setup needs -/

namespace SwingScreeningValues

/-- What the common filter compares is no NaN. -/
structure Ordered (c : SwingScreeningValues DecimalValue) : Prop where
  close : c.minimumClose ≠ .nan
  liquidity : c.minimumAverageTradingValue20 ≠ .nan
  volatility : c.maximumAtrPct ≠ .nan

/-- The ranges of the box setup are finite and in order. -/
structure BoxRanges (c : SwingScreeningValues DecimalValue) : Prop where
  width : DecimalValue.Below (5 / 100 : ℚ) c.maximumBoxWidthPct
  breakout : DecimalValue.Below (0 : ℚ) c.maximumScoredBreakoutPct
  volume : c.minimumBreakoutVolumeRatio.Below c.maximumScoredVolumeRatio

structure PullbackRanges (c : SwingScreeningValues DecimalValue) : Prop where
  shallow : c.minimumPullbackDepthPct.Below c.idealPullbackDepthPct
  deep : c.idealPullbackDepthPct.Below c.maximumPullbackDepthPct
  distance : DecimalValue.Below (0 : ℚ) c.maximumEma20DistancePct
  volume : c.bestPriorShortVolumeRatio.Below c.maximumPriorShortVolumeRatio
  rebound : DecimalValue.Below (0 : ℚ) c.maximumScoredReboundBodyPct

structure ContractionRanges (c : SwingScreeningValues DecimalValue) : Prop where
  range : DecimalValue.Below (3 / 100 : ℚ) c.maximumContractionRangePct
  trueRange : c.bestTrueRangeContractionRatio.Below c.maximumTrueRangeContractionRatio
  volume : c.contractionBestPriorShortVolumeRatio.Below c.contractionMaximumPriorShortVolumeRatio
  breakout : c.minimumBreakoutVolumeRatio.Below c.maximumScoredBreakoutVolumeRatio

/-- What the filter compares, and the ranges of every setup that `n` bars are enough for. -/
structure RangesFor (c : SwingScreeningValues DecimalValue) (n : Nat) : Prop where
  ordered : 0 < n → c.Ordered
  box : c.boxLookback < n → c.BoxRanges
  pullback : c.pullbackLookback < n → c.PullbackRanges
  contraction : c.contractionLongLookback + 1 < n → c.ContractionRanges

end SwingScreeningValues

/-! ## The windows -/

theorem length_priorBars (lookback : Nat) (bars : List DailyBarRecord) :
    (priorBars lookback bars).length = min (lookback + 1) bars.length - 1 := by
  rw [priorBars, List.length_dropLast, length_trailing]

variable {c : DecimalConfig} {bars : List DailyBarRecord} {i : IndicatorSnapshot}

theorem lookbacks_pos : 0 < c.boxLookback ∧ 0 < c.pullbackLookback ∧
    0 < c.contractionLongLookback := by
  have haccepted := c.accepted
  unfold SwingScreeningValues.postInit at haccepted
  split_ifs at haccepted with hlookbacks
  simp only [SwingScreeningValues.lookbacks, List.mem_cons, List.not_mem_nil, or_false,
    not_or] at hlookbacks
  omega

theorem priorBars_short_iff {lookback : Nat} (hpos : 0 < lookback) :
    (priorBars lookback bars).length < lookback ↔ bars.length ≤ lookback := by
  rw [length_priorBars]
  omega

/-! ## The setups -/

theorem common_ok_iff :
    (∃ e, c.common bars i = .ok e) ↔ (0 < bars.length → c.Ordered) := by
  simp only [SwingScreeningValues.common, bind_ok, DecimalValue.comparable_ok,
    SwingScreeningValues.commonThresholds]
  split_ifs with hnil
  · subst hnil
    exact ⟨fun _ hpos => absurd hpos (lt_irrefl 0), fun _ => ⟨_, (), List.not_mem_nil, rfl⟩⟩
  · have hpos := List.length_pos_iff.mpr hnil
    simp only [List.mem_cons, List.not_mem_nil, or_false, not_or, hpos, true_imp_iff]
    constructor
    · rintro ⟨_, _, ⟨hclose, hliquidity, hvolatility⟩, -⟩
      exact ⟨Ne.symm hclose, Ne.symm hliquidity, Ne.symm hvolatility⟩
    · intro h
      exact ⟨_, (), ⟨h.close.symm, h.liquidity.symm, h.volatility.symm⟩, rfl⟩

/-- A setup is evaluated where it has enough bars. -/
theorem setup_ok_iff {short : Prop} [Decidable short] {enough : Prop} (hshort : short ↔ ¬enough)
    (hsome : enough → bars ≠ []) {evaluation : DailyBarRecord → Except String Evaluation}
    {ranges : Prop} (h : ∀ latest, (∃ e, evaluation latest = .ok e) ↔ ranges) :
    (∃ e, (match bars.getLast? with
      | none => (.ok .missing : Except String Evaluation)
      | some latest => if short then .ok .missing else evaluation latest) = .ok e) ↔
        (enough → ranges) := by
  cases hlast : bars.getLast? with
  | none =>
    have hnil := List.getLast?_eq_none_iff.mp hlast
    exact ⟨fun _ henough => absurd hnil (hsome henough), fun _ => ⟨_, rfl⟩⟩
  | some latest =>
    simp only
    by_cases henough : enough
    · rw [if_neg fun hs => hshort.mp hs henough, h latest]
      exact ⟨fun hranges _ => hranges, fun hranges => hranges henough⟩
    · rw [if_pos (hshort.mpr henough)]
      exact ⟨fun _ h => absurd h henough, fun _ => ⟨_, rfl⟩⟩

theorem ne_nil_of_lt {n : Nat} (h : n < bars.length) : bars ≠ [] :=
  List.length_pos_iff.mp (Nat.zero_lt_of_lt h)

theorem box_ok_iff :
    (∃ e, c.box bars i = .ok e) ↔ (c.boxLookback < bars.length → c.BoxRanges) := by
  unfold SwingScreeningValues.box
  refine setup_ok_iff ?_ ne_nil_of_lt fun latest => ?_
  · rw [priorBars_short_iff lookbacks_pos.1, not_lt]
  simp only [bind_ok, DecimalValue.comparable_ok]
  constructor
  · rintro ⟨_, _, -, narrow, hwidth, broken, hbreakout, traded, hvolume, -⟩
    exact
      { width := lowIsGood_total.mp ⟨narrow, hwidth⟩
        breakout := highIsGood_total.mp ⟨broken, hbreakout⟩
        volume := highIsGood_total.mp ⟨traded, hvolume⟩ }
  · intro h
    obtain ⟨narrow, hwidth⟩ := lowIsGood_total.mpr h.width
    obtain ⟨broken, hbreakout⟩ := highIsGood_total.mpr h.breakout
    obtain ⟨traded, hvolume⟩ := highIsGood_total.mpr h.volume
    refine ⟨_, (), ?_, narrow, hwidth, broken, hbreakout, traded, hvolume, rfl⟩
    simp [h.width.high_ne_nan, h.volume.low_ne_nan, apply_ite (DecimalValue.nan ∈ ·)]

theorem pullback_ok_iff :
    (∃ e, c.pullback bars i = .ok e) ↔ (c.pullbackLookback < bars.length → c.PullbackRanges) := by
  unfold SwingScreeningValues.pullback
  refine setup_ok_iff ?_ ne_nil_of_lt fun latest => ?_
  · rw [priorBars_short_iff lookbacks_pos.2.1, not_lt]
  simp only [bind_ok, DecimalValue.comparable_ok]
  constructor
  · rintro ⟨_, _, -, deep, hdepth, near, hdistance, quiet, hvolume, rebound, hrebound, -⟩
    obtain ⟨hshallow, hdeep⟩ := triangularScore_total.mp ⟨deep, hdepth⟩
    exact
      { shallow := hshallow
        deep := hdeep
        distance := lowIsGood_total.mp ⟨near, hdistance⟩
        volume := lowIsGood_total.mp ⟨quiet, hvolume⟩
        rebound := highIsGood_total.mp ⟨rebound, hrebound⟩ }
  · intro h
    obtain ⟨deep, hdepth⟩ := triangularScore_total.mpr ⟨h.shallow, h.deep⟩
    obtain ⟨near, hdistance⟩ := lowIsGood_total.mpr h.distance
    obtain ⟨quiet, hvolume⟩ := lowIsGood_total.mpr h.volume
    obtain ⟨rebound, hrebound⟩ := highIsGood_total.mpr h.rebound
    refine ⟨_, (), ?_, deep, hdepth, near, hdistance, quiet, hvolume, rebound, hrebound, rfl⟩
    simp [h.shallow.low_ne_nan, h.deep.high_ne_nan, h.distance.high_ne_nan, h.volume.high_ne_nan,
      apply_ite (DecimalValue.nan ∈ ·)]

theorem contraction_ok_iff : (∃ e, c.contraction bars i = .ok e) ↔
    (c.contractionLongLookback + 1 < bars.length → c.ContractionRanges) := by
  unfold SwingScreeningValues.contraction
  refine setup_ok_iff ?_ ne_nil_of_lt fun latest => ?_
  · rw [priorBars_short_iff lookbacks_pos.2.2]
    omega
  simp only [bind_ok, DecimalValue.comparable_ok]
  constructor
  · rintro ⟨_, _, -, narrow, hrange, calm, htrue, quiet, hvolume, traded, hbreakout, -⟩
    exact
      { range := lowIsGood_total.mp ⟨narrow, hrange⟩
        trueRange := lowIsGood_total.mp ⟨calm, htrue⟩
        volume := lowIsGood_total.mp ⟨quiet, hvolume⟩
        breakout := highIsGood_total.mp ⟨traded, hbreakout⟩ }
  · intro h
    obtain ⟨narrow, hrange⟩ := lowIsGood_total.mpr h.range
    obtain ⟨calm, htrue⟩ := lowIsGood_total.mpr h.trueRange
    obtain ⟨quiet, hvolume⟩ := lowIsGood_total.mpr h.volume
    obtain ⟨traded, hbreakout⟩ := highIsGood_total.mpr h.breakout
    refine ⟨_, (), ?_, narrow, hrange, calm, htrue, quiet, hvolume, traded, hbreakout, rfl⟩
    simp [h.range.high_ne_nan, h.trueRange.high_ne_nan, h.volume.high_ne_nan,
      h.breakout.low_ne_nan, apply_ite (DecimalValue.nan ∈ ·)]

/-! ## The evaluation -/

/-- An evaluation returns exactly when nothing that the filter compares is a NaN and the ranges
of the setups it scores are finite and in order, whatever the bars and the indicators are. -/
theorem evaluate_returns_iff (c : DecimalConfig) (bars : List DailyBarRecord)
    (i : IndicatorSnapshot) :
    (∃ result, c.evaluate bars i = .ok result) ↔ c.RangesFor bars.length := by
  simp only [DecimalConfig.evaluate, bind_ok]
  constructor
  · rintro ⟨_, filter, hfilter, box, hbox, pullback, hpullback, contraction, hcontraction, -⟩
    exact
      { ordered := common_ok_iff.mp ⟨filter, hfilter⟩
        box := box_ok_iff.mp ⟨box, hbox⟩
        pullback := pullback_ok_iff.mp ⟨pullback, hpullback⟩
        contraction := contraction_ok_iff.mp ⟨contraction, hcontraction⟩ }
  · intro h
    obtain ⟨filter, hfilter⟩ := common_ok_iff.mpr h.ordered
    obtain ⟨box, hbox⟩ := box_ok_iff.mpr h.box
    obtain ⟨pullback, hpullback⟩ := pullback_ok_iff.mpr h.pullback
    obtain ⟨contraction, hcontraction⟩ := contraction_ok_iff.mpr h.contraction
    exact ⟨_, filter, hfilter, box, hbox, pullback, hpullback, contraction, hcontraction, rfl⟩

/-! ## A range that the checks let through -/

/-- A box may be at most as wide as a box of full score. -/
def narrowBox : DecimalConfig :=
  ⟨{ SwingScreeningValues.defaults.decimals with maximumBoxWidthPct := (5 / 100 : ℚ) },
    by decide +kernel⟩

def steadyBars (n : Nat) : List DailyBarRecord :=
  (List.range n).map fun k => ⟨"A", k + 1, 9000, 9000, 9000, 9000, 1000⟩

theorem evaluate_raises :
    (∀ bar ∈ steadyBars 21, bar.NonNegative ∧ bar.ValidOhlc ∧ bar.symbol = "A") ∧
      calculate (steadyBars 21) = .ok (snapshotOf (steadyBars 21)) ∧
      narrowBox.evaluate (steadyBars 21) (snapshotOf (steadyBars 21)) =
        .error "worst must exceed best" := by
  refine ⟨by decide +kernel, if_pos (by decide +kernel), by decide +kernel⟩

/-! ## Finite configurations -/

section Finite

variable {c : SwingScreeningConfig} {bars : List DailyBarRecord} {i : IndicatorSnapshot}

/-- What an evaluation that returns is made of. -/
theorem evaluate_ok {result : ScreeningResult} : evaluate c bars i = .ok result ↔
    ∃ e : Evaluations, box c bars i = .ok e.box ∧ pullback c bars i = .ok e.pullback ∧
      contraction c bars i = .ok e.contraction ∧
      result = resultOf (symbolOf bars) (common c bars i) e := by
  simp only [evaluate_eq, bind_ok, pure_ok]
  constructor
  · rintro ⟨box, hbox, pullback, hpullback, contraction, hcontraction, rfl⟩
    exact ⟨⟨box, pullback, contraction⟩, hbox, hpullback, hcontraction, rfl⟩
  · rintro ⟨e, hbox, hpullback, hcontraction, rfl⟩
    exact ⟨_, hbox, _, hpullback, _, hcontraction, rfl⟩

/-- The defaults are in order, so they are safe on every history. -/
theorem default_rangesFor (n : Nat) : SwingScreeningConfig.default.decimals.RangesFor n where
  ordered _ := ⟨by decide, by decide, by decide⟩
  box _ := by
    constructor <;> exact DecimalValue.below_finite.mpr (by decide +kernel)
  pullback _ := by
    constructor <;> exact DecimalValue.below_finite.mpr (by decide +kernel)
  contraction _ := by
    constructor <;> exact DecimalValue.below_finite.mpr (by decide +kernel)

end Finite

end Screener.Market
