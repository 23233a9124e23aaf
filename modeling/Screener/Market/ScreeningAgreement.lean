import Screener.Market.Ranking

/-!
# Screening the window and screening the history

The scheduled pipeline screens the last `minimum_history_bars` bars of a symbol
with the indicators of those bars; the realtime analysis screens the whole
history with its indicators. The two read the same values everywhere but in
`ema20`, which only the pullback setup uses.
-/

namespace Screener.Market

open Screener.Lib

variable {c : SwingScreeningConfig} {bars : List DailyBarRecord} {n : Nat}

/-! ## What each evaluation reads of the bars -/

theorem priorBars_local (lookback : Nat) : LocalTo (lookback + 1) (priorBars lookback) :=
  (LocalTo.trailing (lookback + 1)).comp List.dropLast

theorem lookbacks_fit (hn : c.required ≤ n) : 20 ≤ n ∧ c.boxLookback + 1 ≤ n ∧
    c.pullbackLookback + 1 ≤ n ∧ c.contractionLongLookback + 2 ≤ n := by
  simp only [SwingScreeningValues.required, List.foldl_cons, List.foldl_nil] at hn
  omega

section Windows

variable (hn : c.required ≤ n) (hlength : n ≤ bars.length)
include hn hlength

theorem latest_trailing : (trailing n bars).getLast? = bars.getLast? := by
  have hfit := lookbacks_fit hn
  exact LocalTo.getLast? (by omega) bars hlength

theorem box_trailing {i j : IndicatorSnapshot} (hij : SameWindow i j) :
    box c (trailing n bars) i = box c bars j := by
  have hfit := lookbacks_fit hn
  have hprior : priorBars c.decimals.boxLookback (trailing n bars) =
      priorBars c.decimals.boxLookback bars :=
    (priorBars_local c.boxLookback).mono hfit.2.1 bars hlength
  have hupward : upward i = upward j := by rw [upward, upward, hij.sma20, hij.sma60]
  unfold box SwingScreeningValues.box
  rw [hprior, latest_trailing hn hlength, hupward, hij.sma20]

theorem contraction_trailing {i j : IndicatorSnapshot} (hij : SameWindow i j) :
    contraction c (trailing n bars) i = contraction c bars j := by
  have hfit := lookbacks_fit hn
  have hprior : priorBars c.decimals.contractionLongLookback (trailing n bars) =
      priorBars c.decimals.contractionLongLookback bars :=
    (priorBars_local c.contractionLongLookback).mono (by omega) bars hlength
  have hranges : priorBars (c.decimals.contractionLongLookback + 1) (trailing n bars) =
      priorBars (c.decimals.contractionLongLookback + 1) bars :=
    (priorBars_local (c.contractionLongLookback + 1)).mono hfit.2.2.2 bars hlength
  have hshort : ((trailing n bars).length < c.decimals.contractionLongLookback + 2) =
      (bars.length < c.decimals.contractionLongLookback + 2) :=
    propext (trailing_length_lt_iff hfit.2.2.2 hlength)
  have hupward : upward i = upward j := by rw [upward, upward, hij.sma20, hij.sma60]
  unfold contraction SwingScreeningValues.contraction
  simp only [hprior, hranges, hshort, latest_trailing hn hlength, hupward, hij.sma20]

/-- The pullback setup also reads the exponential average. -/
theorem pullback_trailing {i j : IndicatorSnapshot} (hij : SameWindow i j)
    (hema : i.ema20 = j.ema20) : pullback c (trailing n bars) i = pullback c bars j := by
  have hfit := lookbacks_fit hn
  have hprior : priorBars c.decimals.pullbackLookback (trailing n bars) =
      priorBars c.decimals.pullbackLookback bars :=
    (priorBars_local c.pullbackLookback).mono hfit.2.2.1 bars hlength
  have hprevious : priorBars 1 (trailing n bars) = priorBars 1 bars :=
    (priorBars_local 1).mono (by omega) bars hlength
  have hupward : upward i = upward j := by rw [upward, upward, hij.sma20, hij.sma60]
  unfold pullback SwingScreeningValues.pullback
  rw [hprior, hprevious, latest_trailing hn hlength, hupward, hij.sma20, hij.sma60, hema]

end Windows

/-- Two common filters that agree but for the metric `ema20`. -/
structure SameFilter (x y : CommonEvaluation) : Prop where
  passed : x.passed = y.passed
  reasons : x.reasons = y.reasons
  metrics : ∀ name ≠ "ema20", metricOr0 x.metrics name = metricOr0 y.metrics name

theorem lookup_absent {name key : String} (h : name ≠ key) (value : Option ℚ)
    (before after : List (String × ℚ)) :
    (before ++ (value.map fun v => (key, v)).toList ++ after).lookup name =
      (before ++ after).lookup name := by
  cases value with
  | none => simp
  | some v =>
    have hbeq : (name == key) = false := beq_eq_false_iff_ne.mpr h
    simp [List.lookup_append, List.lookup_cons, hbeq]

theorem common_trailing (hn : c.required ≤ c.minimumHistoryBars)
    (hlength : c.minimumHistoryBars ≤ bars.length) {i j : IndicatorSnapshot}
    (hij : SameWindow i j) :
    SameFilter (common c (trailing c.minimumHistoryBars bars) i) (common c bars j) := by
  have hfit := lookbacks_fit hn
  have hrecent : trailing 20 (trailing c.minimumHistoryBars bars) = trailing 20 bars :=
    trailing_trailing hfit.1 bars
  have hshort : ((trailing c.minimumHistoryBars bars).length < 20) = (bars.length < 20) :=
    propext (trailing_length_lt_iff hfit.1 hlength)
  have hhistory : ((trailing c.minimumHistoryBars bars).length < c.decimals.minimumHistoryBars) =
      (bars.length < c.decimals.minimumHistoryBars) :=
    propext (trailing_length_lt_iff le_rfl hlength)
  unfold common SwingScreeningValues.commonOf
  rw [latest_trailing hn hlength]
  cases bars.getLast? with
  | none => exact ⟨rfl, rfl, fun _ _ => rfl⟩
  | some latest =>
    simp only [hrecent, hshort, hhistory, hij.sma20, hij.sma60, hij.atr14]
    refine ⟨rfl, rfl, fun name hname => ?_⟩
    rw [metricOr0, metricOr0, lookup_absent hname, lookup_absent hname]

/-! ## What the result shows of them -/

/-- The verdict on a symbol; a passing result is ranked, which may raise. -/
structure Verdict where
  passed : Bool
  matchedSetups : List Setup
  primarySetup : Option Setup
  setupScores : List (Setup × ℚ)
  totalScore : Except String (Option ℚ)
deriving DecidableEq, Repr

def totalScoreOf (c : SwingScreeningConfig) (result : ScreeningResult) :
    Except String (Option ℚ) :=
  if result.passed then (rank c [result]).map fun ranked => ranked.head?.map (·.totalScore)
  else .ok none

def verdictOf (c : SwingScreeningConfig) (result : ScreeningResult) : Verdict :=
  ⟨result.passed, result.matchedSetups, result.primarySetup, result.setupScores,
    totalScoreOf c result⟩

def screen (c : SwingScreeningConfig) (bars : List DailyBarRecord) :
    Except String ScreeningResult := do
  let indicators ← calculate bars
  evaluate c bars indicators

def verdict (c : SwingScreeningConfig) (bars : List DailyBarRecord) : Except String Verdict := do
  let result ← screen c bars
  return verdictOf c result

/-- The score with which the pullback setup is matched, if it is. -/
def pullbackShare (c : SwingScreeningConfig) (bars : List DailyBarRecord) :
    Except String (Option ℚ) := do
  let result ← screen c bars
  return result.setupScores.lookup .trendPullback

/-- Two results that agree but for the metric `ema20` and what is shown of single setups. -/
structure SameResult (x y : ScreeningResult) : Prop where
  symbol : x.symbol = y.symbol
  passed : x.passed = y.passed
  warnings : x.warnings = y.warnings
  matchedSetups : x.matchedSetups = y.matchedSetups
  primarySetup : x.primarySetup = y.primarySetup
  setupScores : x.setupScores = y.setupScores
  metrics : ∀ name ≠ "ema20", metricOr0 x.metrics name = metricOr0 y.metrics name

theorem totalScore_of_same {x y : ScreeningResult} (h : SameResult x y) :
    (scoreSwing c x).totalScore = (scoreSwing c y).totalScore := by
  have hsma20 := h.metrics "sma20" (by decide)
  have hsma60 := h.metrics "sma60" (by decide)
  have hvalue := h.metrics "average_trading_value_20" (by decide)
  have hatr := h.metrics "atr_pct" (by decide)
  simp only [scoreSwing, trendScore, liquidityScore, volatilityScore, setupScoreOf, hsma20, hsma60,
    hvalue, hatr, h.matchedSetups, h.setupScores]

theorem verdictOf_of_same {x y : ScreeningResult} (h : SameResult x y) :
    verdictOf c x = verdictOf c y := by
  have htotal : totalScoreOf c x = totalScoreOf c y := by
    unfold totalScoreOf
    rw [h.passed]
    cases hpassed : y.passed with
    | false => rfl
    | true =>
      have hx : x.passed = true := h.passed.trans hpassed
      cases hblank : blank y.symbol with
      | true =>
        simp [rank, validateRequest, hx, hpassed, h.symbol, hblank, bind, Except.bind]
      | false =>
        have hblank' : blank x.symbol = false := h.symbol ▸ hblank
        rw [if_pos rfl, if_pos rfl, rank_singleton c hx hblank', rank_singleton c hpassed hblank]
        simp only [Except.map, List.head?_cons, Option.map_some, totalScore_of_same h]
  rw [verdictOf, verdictOf, h.passed, h.matchedSetups, h.primarySetup, h.setupScores, htotal]

theorem primarySetupOf_mem {score : Setup → ℚ} {setups : List Setup} {setup : Setup}
    (h : primarySetupOf score setups = some setup) : setup ∈ setups := by
  induction setups with
  | nil => cases h
  | cons first rest ih =>
    unfold primarySetupOf at h
    cases hrest : primarySetupOf score rest with
    | none =>
      simp only [hrest, Option.some.injEq] at h
      exact h ▸ List.mem_cons_self
    | some other =>
      simp only [hrest] at h
      split_ifs at h with hbetter
      · exact List.mem_cons_of_mem first (ih (hrest.trans h))
      · rw [← Option.some.inj h]
        exact List.mem_cons_self

theorem primarySetupOf_congr {score score' : Setup → ℚ} {setups : List Setup}
    (h : ∀ setup ∈ setups, score setup = score' setup) :
    primarySetupOf score setups = primarySetupOf score' setups := by
  induction setups with
  | nil => rfl
  | cons setup rest ih =>
    have hrest := ih fun other hother => h other (List.mem_cons_of_mem setup hother)
    unfold primarySetupOf
    rw [hrest]
    cases hother : primarySetupOf score' rest with
    | none => rfl
    | some other =>
      have heq := h other (List.mem_cons_of_mem setup (primarySetupOf_mem hother))
      simp only [h setup List.mem_cons_self, heq]

/-- The share of the pullback setup in a result. -/
def shareOf (filter : CommonEvaluation) (e : Evaluations) : Option ℚ :=
  if e.pullback.passed && filter.passed then some e.pullback.setupScore else none

theorem lookup_filter_map {κ : Type} [DecidableEq κ] (key : κ) (keep : κ → Bool) (f : κ → ℚ)
    (keys : List κ) :
    ((keys.filter keep).map fun k => (k, f k)).lookup key =
      if key ∈ keys ∧ keep key = true then some (f key) else none := by
  induction keys with
  | nil => simp
  | cons k rest ih =>
    by_cases hkey : key = k
    · subst hkey
      cases hkeep : keep key with
      | true => simp [hkeep]
      | false => simp [hkeep, ih]
    · have hbeq : (key == k) = false := beq_eq_false_iff_ne.mpr hkey
      cases hkeep : keep k with
      | true => simp [hkeep, List.lookup_cons, hbeq, ih, hkey]
      | false => simp [hkeep, ih, hkey]

theorem lookup_setupScores (symbol : Symbol) (filter : CommonEvaluation) (e : Evaluations) :
    (resultOf symbol filter e).setupScores.lookup .trendPullback = shareOf filter e := by
  have hmem : Setup.trendPullback ∈ Setup.order := by decide
  simp only [resultOf, lookup_filter_map, hmem, true_and]
  rfl

theorem resultOf_same {symbol : Symbol} {f g : CommonEvaluation} {e e' : Evaluations}
    (hfilter : SameFilter f g) (hbox : e.box = e'.box)
    (hcontraction : e.contraction = e'.contraction)
    (hshare : shareOf f e = shareOf g e') :
    SameResult (resultOf symbol f e) (resultOf symbol g e') := by
  have hpullback : (e.pullback.passed && f.passed) = (e'.pullback.passed && g.passed) := by
    have hsome := congrArg Option.isSome hshare
    simpa [shareOf, apply_ite Option.isSome] using hsome
  have hmatched : ∀ setup, ((e.get setup).passed && f.passed) =
      ((e'.get setup).passed && g.passed) := by
    intro setup
    cases setup with
    | volatilityContractionBreakout =>
      show (e.contraction.passed && f.passed) = (e'.contraction.passed && g.passed)
      rw [hcontraction, hfilter.passed]
    | boxBreakout =>
      show (e.box.passed && f.passed) = (e'.box.passed && g.passed)
      rw [hbox, hfilter.passed]
    | trendPullback => exact hpullback
  have hsetups : (Setup.order.filter fun setup => (e.get setup).passed && f.passed) =
      Setup.order.filter fun setup => (e'.get setup).passed && g.passed :=
    List.filter_congr fun setup _ => hmatched setup
  have hscore : ∀ setup ∈ Setup.order.filter (fun setup => (e'.get setup).passed && g.passed),
      (e.get setup).setupScore = (e'.get setup).setupScore := by
    intro setup hsetup
    have hyes := (List.mem_filter.mp hsetup).2
    cases setup with
    | volatilityContractionBreakout => exact congrArg Evaluation.setupScore hcontraction
    | boxBreakout => exact congrArg Evaluation.setupScore hbox
    | trendPullback =>
      have hyes' : (e'.pullback.passed && g.passed) = true := hyes
      rw [shareOf, shareOf, hpullback, hyes', if_pos rfl, if_pos rfl, Option.some_inj] at hshare
      exact hshare
  constructor
  · rfl
  · simp only [resultOf, hsetups]
  · rfl
  · exact hsetups
  · simp only [resultOf, hsetups]
    exact primarySetupOf_congr hscore
  · simp only [resultOf, hsetups]
    exact List.map_congr_left fun setup hsetup => by rw [hscore setup hsetup]
  · exact hfilter.metrics

/-- Equal shares of the pullback setup make equal verdicts, the rest being equal. -/
theorem verdict_of_share {x y : Except String ScreeningResult} {symbol : Symbol}
    {f g : CommonEvaluation} {box contraction pullback pullback' : Except String Evaluation}
    (hx : x = do
      let box ← box
      let pullback ← pullback
      let contraction ← contraction
      return resultOf symbol f ⟨box, pullback, contraction⟩)
    (hy : y = do
      let box ← box
      let pullback ← pullback'
      let contraction ← contraction
      return resultOf symbol g ⟨box, pullback, contraction⟩)
    (hfilter : SameFilter f g)
    (hshare : (do let result ← x; return result.setupScores.lookup .trendPullback) =
      (do let result ← y; return result.setupScores.lookup .trendPullback :
        Except String (Option ℚ))) :
    (do let result ← x; return verdictOf c result) =
      (do let result ← y; return verdictOf c result : Except String Verdict) := by
  subst hx hy
  cases box with
  | error e => rfl
  | ok box =>
    cases contraction with
    | error e =>
      cases pullback with
      | error e' =>
        cases pullback' with
        | error e'' => exact congrArg Except.error (Except.error.inj hshare)
        | ok p => exact congrArg Except.error (Except.error.inj hshare)
      | ok p =>
        cases pullback' with
        | error e'' => exact congrArg Except.error (Except.error.inj hshare)
        | ok p' => rfl
    | ok contraction =>
      cases pullback with
      | error e' =>
        cases pullback' with
        | error e'' => exact congrArg Except.error (Except.error.inj hshare)
        | ok p => cases hshare
      | ok p =>
        cases pullback' with
        | error e'' => cases hshare
        | ok p' =>
          have hlookup := Except.ok.inj hshare
          rw [lookup_setupScores, lookup_setupScores] at hlookup
          exact congrArg Except.ok (verdictOf_of_same (resultOf_same hfilter rfl rfl hlookup))

/-- Equal setups and filters make equal shares. -/
theorem share_of_setups (symbol : Symbol) {f g : CommonEvaluation} (hfilter : f.passed = g.passed)
    (box pullback contraction : Except String Evaluation) :
    (do
      let box ← box
      let pullback ← pullback
      let contraction ← contraction
      return (resultOf symbol f ⟨box, pullback, contraction⟩).setupScores.lookup .trendPullback :
        Except String (Option ℚ)) = do
      let box ← box
      let pullback ← pullback
      let contraction ← contraction
      return (resultOf symbol g ⟨box, pullback, contraction⟩).setupScores.lookup
        .trendPullback := by
  simp only [lookup_setupScores, shareOf, hfilter]

theorem pullbackShare_of_verdict (bars : List DailyBarRecord) :
    pullbackShare c bars = (verdict c bars).map (·.setupScores.lookup .trendPullback) := by
  unfold pullbackShare verdict
  cases screen c bars <;> rfl

/-- **Window and history.** On at least `minimum_history_bars` bars the verdict of
the window is that of the history exactly when the pullback setup is matched by
both with one score or by neither. So it is when the two `ema20` agree, and they
do where the history's average, at the twentieth bar of the window, is the simple
mean of those twenty closes: from there on the two recursions are one. -/
theorem verdict_trailing_iff (hsixty : 60 ≤ c.minimumHistoryBars) (hbars : Chronological bars)
    (hlength : c.minimumHistoryBars ≤ bars.length) :
    let window := trailing c.minimumHistoryBars bars
    let closes := bars.map (·.close)
    (verdict c window = verdict c bars ↔ pullbackShare c window = pullbackShare c bars) ∧
      ((snapshotOf window).ema20 = (snapshotOf bars).ema20 → verdict c window = verdict c bars) ∧
      (simpleMovingAverage ((trailing c.minimumHistoryBars closes).take 20) 20 =
          exponentialMovingAverage
            (closes.take (closes.length - c.minimumHistoryBars + 20)) 20 →
        (snapshotOf window).ema20 = (snapshotOf bars).ema20) := by
  intro window closes
  have hij := snapshotOf_trailing hsixty hlength
  have hcalculate : calculate window = .ok (snapshotOf window) :=
    if_pos (chronological_trailing hbars)
  have hcalculate' : calculate bars = .ok (snapshotOf bars) := if_pos hbars
  have hsymbol : symbolOf window = symbolOf bars := by
    rw [symbolOf, symbolOf, latest_trailing c.fits hlength]
  have hwindow : screen c window = evaluate c window (snapshotOf window) := by
    rw [screen, hcalculate]
    rfl
  have hwhole : screen c bars = evaluate c bars (snapshotOf bars) := by
    rw [screen, hcalculate']
    rfl
  have hx : screen c window = do
      let box ← box c bars (snapshotOf bars)
      let pullback ← pullback c window (snapshotOf window)
      let contraction ← contraction c bars (snapshotOf bars)
      return resultOf (symbolOf bars) (common c window (snapshotOf window))
        ⟨box, pullback, contraction⟩ := by
    rw [hwindow, evaluate_eq, box_trailing c.fits hlength hij,
      contraction_trailing c.fits hlength hij,
      hsymbol]
  have hiff : verdict c window = verdict c bars ↔
      pullbackShare c window = pullbackShare c bars := by
    constructor
    · intro heq
      rw [pullbackShare_of_verdict, pullbackShare_of_verdict, heq]
    · exact verdict_of_share hx (hwhole.trans (evaluate_eq c bars _))
        (common_trailing c.fits hlength hij)
  refine ⟨hiff, fun hema => hiff.mpr ?_, ?_⟩
  · have hpullback := pullback_trailing c.fits hlength hij hema
    have hshare := share_of_setups (symbolOf bars)
      (common_trailing c.fits hlength hij).passed (box c bars (snapshotOf bars))
      (pullback c bars (snapshotOf bars)) (contraction c bars (snapshotOf bars))
    rw [pullbackShare, pullbackShare, hx, hwhole, hpullback, evaluate_eq]
    simpa only [bind_assoc, pure_bind] using hshare
  · intro hseed
    have hmap : window.map (·.close) = trailing c.minimumHistoryBars closes := map_trailing _ _ _
    have hcloses : c.minimumHistoryBars ≤ closes.length := by
      rw [List.length_map]
      exact hlength
    show exponentialMovingAverage (window.map (·.close)) 20 = exponentialMovingAverage closes 20
    rw [hmap]
    exact exponentialMovingAverage_trailing (by omega) hcloses hseed

/-! ## A price that leaves the window -/

def flatBar (day : Nat) (close : ℚ) (volume : ℤ) : DailyBarRecord :=
  ⟨"A", day, close, close + 50, close - 50, close, volume⟩

/-- Sixty-two bars; the window leaves out the first, at a hundred times the price
of the rest. The last twenty rise, fall back on low volume and turn up. -/
def historyFrom (firstClose : ℚ) : List DailyBarRecord :=
  [flatBar 0 firstClose 200000] ++
    (List.range 41).map (fun k => flatBar (k + 1) 9000 200000) ++
    (List.range 14).map (fun k => flatBar (k + 42) 10000 200000) ++
    (List.range 5).map (fun k => flatBar (k + 56) 9600 100000) ++
    [⟨"A", 61, 9650, 9750, 9600, 9700, 200000⟩]

/-- At a steady first price the two averages start from one value, so the
verdicts agree. -/
theorem verdict_trailing_iff_sample :
    verdict .default (trailing 61 (historyFrom 9000)) = verdict .default (historyFrom 9000) := by
  have hbars : Chronological (historyFrom 9000) := by decide +kernel
  have hseed : simpleMovingAverage ((trailing 61 ((historyFrom 9000).map (·.close))).take 20) 20 =
      exponentialMovingAverage (((historyFrom 9000).map (·.close)).take
        (((historyFrom 9000).map (·.close)).length - 61 + 20)) 20 := by
    decide +kernel
  obtain ⟨-, hagree, hema⟩ := verdict_trailing_iff (c := .default) (by decide) hbars (by decide)
  exact hagree (hema hseed)

/-- The window passes as a pullback; in the whole history the first price still
holds `ema20` seven per cent above the close, and nothing passes. -/
theorem verdict_differs :
    Chronological (historyFrom 1000000) ∧ (historyFrom 1000000).length = 62 ∧
      (∀ bar ∈ historyFrom 1000000, bar.NonNegative ∧ bar.ValidOhlc ∧ bar.symbol = "A") ∧
      (verdict .default (trailing 61 (historyFrom 1000000))).map
        (fun v => (v.passed, v.matchedSetups)) = .ok (true, [.trendPullback]) ∧
      (verdict .default (historyFrom 1000000)).map (fun v => (v.passed, v.matchedSetups)) =
        .ok (false, []) ∧
      verdict .default (trailing 61 (historyFrom 1000000)) ≠
        verdict .default (historyFrom 1000000) := by
  have hwindow : (verdict .default (trailing 61 (historyFrom 1000000))).map
      (fun v => (v.passed, v.matchedSetups)) = .ok (true, [.trendPullback]) := by
    decide +kernel
  have hwhole : (verdict .default (historyFrom 1000000)).map
      (fun v => (v.passed, v.matchedSetups)) = .ok (false, []) := by
    decide +kernel
  refine ⟨by decide +kernel, by decide, by decide +kernel, hwindow, hwhole, fun heq => ?_⟩
  rw [heq, hwhole] at hwindow
  cases hwindow

end Screener.Market
