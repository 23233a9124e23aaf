import Screener.Market.ScoreRanges
import Screener.Market.ScreeningAgreement

/-!
# What every screening result satisfies

An evaluation collects its rules, its matches, its scores and its primary setup in
separate passes over the setups. They agree on every path: a setup that is too short
shows no rules and never matches, and the primary setup is the one whose score the
ranker takes.
-/

namespace Screener.Market

open Screener.Lib

/-! ## Scores -/

theorem quantizeScore_bounds (value : ℚ) : 0 ≤ quantizeScore value ∧ quantizeScore value ≤ 100 := by
  have hlow : ((0 : ℤ) : ℚ) ≤ clampScore value := by
    rw [Int.cast_zero]
    exact le_min (by norm_num) (le_max_left 0 value)
  have hhigh : clampScore value ≤ ((100 : ℤ) : ℚ) := by
    push_cast
    exact min_le_left 100 (max 0 value)
  have h := quantizeWith_mem_Icc 2 roundHalfUp_mono roundHalfUp_intCast hlow hhigh
  rw [Int.cast_zero, Int.cast_ofNat] at h
  exact h

/-- Between 0 and 100, with two decimals. -/
structure IsScore (score : ℚ) : Prop where
  nonneg : 0 ≤ score
  le_hundred : score ≤ 100
  decimals : OnGrid 2 score

theorem isScore_quantizeScore (value : ℚ) : IsScore (quantizeScore value) :=
  ⟨(quantizeScore_bounds value).1, (quantizeScore_bounds value).2, onGrid_quantizeWith _ _ _⟩

theorem isScore_zero : IsScore 0 := ⟨le_rfl, by norm_num, onGrid_zero⟩

/-! ## One evaluation -/

/-- It passes exactly if it has made rules and all of them are true. -/
structure Evaluation.Sound (e : Evaluation) : Prop where
  passed_iff : e.passed = true ↔ e.rules ≠ [] ∧ ∀ rule ∈ e.rules, rule.2 = true
  score : IsScore e.setupScore

theorem Evaluation.missing_sound : Evaluation.missing.Sound :=
  ⟨by simp [Evaluation.missing], isScore_zero⟩

theorem Evaluation.of_sound {rules : List (String × Bool)} (h : rules ≠ [])
    (metrics : List (String × ℚ)) (value : ℚ) :
    (Evaluation.of rules metrics (quantizeScore value)).Sound :=
  ⟨by simp [Evaluation.of, h], isScore_quantizeScore value⟩

section Setups

variable {c : SwingScreeningConfig} {bars : List DailyBarRecord} {i : IndicatorSnapshot}
  {e : Evaluation}

/-- Too few bars show no setup; otherwise the latest bar is evaluated. -/
theorem setup_cases {short : Prop} {_ : Decidable short}
    {evaluation : DailyBarRecord → Except String Evaluation}
    (h : (match bars.getLast? with
      | none => (.ok .missing : Except String Evaluation)
      | some latest => if short then .ok .missing else evaluation latest) = .ok e) :
    e = .missing ∨ ∃ latest, evaluation latest = .ok e := by
  cases hlast : bars.getLast? with
  | none =>
    simp only [hlast, Except.ok.injEq] at h
    exact .inl h.symm
  | some latest =>
    simp only [hlast] at h
    split_ifs at h with hshort
    · exact .inl (Except.ok.inj h).symm
    · exact .inr ⟨latest, h⟩

theorem box_sound (h : box c bars i = .ok e) : e.Sound := by
  unfold box SwingScreeningValues.box at h
  obtain rfl | ⟨latest, hlatest⟩ := setup_cases h
  · exact Evaluation.missing_sound
  · simp only [bind_ok, pure_ok] at hlatest
    obtain ⟨_, -, _, -, _, -, _, -, rfl⟩ := hlatest
    exact Evaluation.of_sound (List.cons_ne_nil _ _) _ _

theorem pullback_sound (h : pullback c bars i = .ok e) : e.Sound := by
  unfold pullback SwingScreeningValues.pullback at h
  obtain rfl | ⟨latest, hlatest⟩ := setup_cases h
  · exact Evaluation.missing_sound
  · simp only [bind_ok, pure_ok] at hlatest
    obtain ⟨_, -, _, -, _, -, _, -, _, -, rfl⟩ := hlatest
    exact Evaluation.of_sound (List.cons_ne_nil _ _) _ _

theorem contraction_sound (h : contraction c bars i = .ok e) : e.Sound := by
  unfold contraction SwingScreeningValues.contraction at h
  obtain rfl | ⟨latest, hlatest⟩ := setup_cases h
  · exact Evaluation.missing_sound
  · simp only [bind_ok, pure_ok] at hlatest
    obtain ⟨_, -, _, -, _, -, _, -, _, -, rfl⟩ := hlatest
    exact Evaluation.of_sound (List.cons_ne_nil _ _) _ _

theorem common_passed_iff : (common c bars i).passed = true ↔ (common c bars i).reasons = [] := by
  unfold common SwingScreeningValues.commonOf
  cases bars.getLast? with
  | none => simp
  | some latest =>
    simp only [List.map_eq_nil_iff, List.filter_eq_nil_iff, List.all_eq_true, Bool.not_eq_true',
      Bool.not_eq_false]

end Setups

/-! ## The primary setup -/

theorem primarySetupOf_eq_none {score : Setup → ℚ} {setups : List Setup} :
    primarySetupOf score setups = none ↔ setups = [] := by
  cases setups with
  | nil => simp [primarySetupOf]
  | cons setup rest =>
    unfold primarySetupOf
    cases primarySetupOf score rest with
    | none => simp
    | some other =>
      simp only
      split_ifs <;> simp

/-- No setup of the list has a better score, or as good a score and an earlier place. -/
theorem primarySetupOf_best {score : Setup → ℚ} {setups : List Setup} {p : Setup}
    (h : primarySetupOf score setups = some p) :
    ∀ s ∈ setups, score s < score p ∨ (score s = score p ∧ p.index ≤ s.index) := by
  induction setups generalizing p with
  | nil => exact fun s hs => absurd hs List.not_mem_nil
  | cons first rest ih =>
    unfold primarySetupOf at h
    intro s hs
    cases hrest : primarySetupOf score rest with
    | none =>
      simp only [hrest, Option.some.injEq] at h
      rw [primarySetupOf_eq_none.mp hrest, List.mem_singleton] at hs
      rw [hs, h]
      exact .inr ⟨rfl, le_rfl⟩
    | some other =>
      simp only [hrest] at h
      have hother := ih hrest
      split_ifs at h with hbetter
      · obtain rfl := Option.some.inj h
        rcases List.mem_cons.mp hs with rfl | hs
        · exact hbetter.imp_right fun hsame => ⟨hsame.1, hsame.2.le⟩
        · exact hother s hs
      · obtain rfl := Option.some.inj h
        rcases List.mem_cons.mp hs with rfl | hs
        · exact .inr ⟨rfl, le_rfl⟩
        · rw [not_or, not_and, not_lt] at hbetter
          rcases hother s hs with hlt | ⟨heq, hindex⟩
          · exact .inl (hlt.trans_le hbetter.1)
          · rcases lt_or_eq_of_le hbetter.1 with hlt | hsame
            · exact .inl (heq ▸ hlt)
            · exact .inr ⟨heq.trans hsame, (not_lt.mp (hbetter.2 hsame.symm)).trans hindex⟩

/-! ## The rules of a setup in a result -/

/-- The rules of a setup, by the start of their keys. -/
def ScreeningResult.rulesOf (result : ScreeningResult) (setup : Setup) : List (String × Bool) :=
  result.ruleEvaluations.filter fun rule => (setup.name ++ ":").toList.isPrefixOf rule.1.toList

/-- The setup has evaluated a rule, and every rule it evaluated is true. -/
def ScreeningResult.satisfied (result : ScreeningResult) (setup : Setup) : Bool :=
  !(result.rulesOf setup).isEmpty && (result.rulesOf setup).all (·.2)

theorem isPrefixOf_name (setup other : Setup) (key : String) :
    (setup.name ++ ":").toList.isPrefixOf (other.name ++ ":" ++ key).toList =
      decide (other = setup) := by
  cases setup <;> cases other <;> simp [Setup.name, String.toList_append, List.isPrefixOf]

theorem rulesOf_resultOf (symbol : Symbol) (filter : CommonEvaluation) (e : Evaluations)
    (setup : Setup) : (resultOf symbol filter e).rulesOf setup =
      (e.get setup).rules.map fun rule => (setup.name ++ ":" ++ rule.1, rule.2) := by
  have hpart : ∀ other : Setup, (((e.get other).rules.map fun rule =>
      (other.name ++ ":" ++ rule.1, rule.2)).filter fun rule =>
        (setup.name ++ ":").toList.isPrefixOf rule.1.toList) =
      if other = setup then (e.get other).rules.map fun rule =>
        (other.name ++ ":" ++ rule.1, rule.2) else [] := by
    intro other
    rw [List.filter_map]
    simp only [Function.comp_def, isPrefixOf_name]
    split_ifs with heq <;> simp [heq]
  simp only [ScreeningResult.rulesOf, resultOf, methods, List.flatMap_cons, List.flatMap_nil,
    List.append_nil, List.filter_append, hpart]
  cases setup <;> simp

/-! ## The result -/

/-- What holds of every result of an evaluation. -/
structure ResultInvariants (result : ScreeningResult) : Prop where
  passed_iff_matched : result.passed = true ↔ result.matchedSetups ≠ []
  passed_iff_satisfied : result.passed = true ↔
    result.reasons = [] ∧ ∃ setup ∈ Setup.order, result.satisfied setup = true
  matched : result.matchedSetups =
    Setup.order.filter fun setup => decide (result.reasons = []) && result.satisfied setup
  matched_nodup : result.matchedSetups.Nodup
  score_keys : result.setupScores.map Prod.fst = result.matchedSetups
  scores : ∀ entry ∈ result.setupScores, IsScore entry.2
  no_primary : result.primarySetup = none ↔ result.matchedSetups = []
  primary : ∀ p, result.primarySetup = some p → p ∈ result.matchedSetups ∧
    ∃ best, result.setupScores.lookup p = some best ∧
      ∀ entry ∈ result.setupScores,
        entry.2 < best ∨ (entry.2 = best ∧ p.index ≤ entry.1.index)
  ranked : ∀ p, result.primarySetup = some p → ∀ ranking : SwingScreeningConfig,
    (scoreSwing ranking result).componentScores.lookup "setup" = result.setupScores.lookup p

section Results

variable {symbol : Symbol} {filter : CommonEvaluation} {e : Evaluations}

theorem satisfied_resultOf {setup : Setup} (h : (e.get setup).Sound) :
    (resultOf symbol filter e).satisfied setup = (e.get setup).passed := by
  rw [Bool.eq_iff_iff, h.passed_iff, ScreeningResult.satisfied, rulesOf_resultOf]
  simp

theorem matched_resultOf (hsound : ∀ setup, (e.get setup).Sound)
    (hfilter : filter.passed = true ↔ filter.reasons = []) :
    (resultOf symbol filter e).matchedSetups = Setup.order.filter fun setup =>
      decide ((resultOf symbol filter e).reasons = []) &&
        (resultOf symbol filter e).satisfied setup := by
  refine List.filter_congr fun setup _ => ?_
  have hreasons : decide ((resultOf symbol filter e).reasons = []) = filter.passed := by
    rw [Bool.eq_iff_iff, decide_eq_true_eq]
    exact hfilter.symm
  rw [satisfied_resultOf (hsound setup), hreasons, Bool.and_comm]

theorem lookup_setupScores_of_mem {setup : Setup}
    (h : setup ∈ (resultOf symbol filter e).matchedSetups) :
    (resultOf symbol filter e).setupScores.lookup setup = some (e.get setup).setupScore := by
  obtain ⟨hmem, hkeep⟩ := List.mem_filter.mp h
  simp only [resultOf, lookup_filter_map, hmem, hkeep, and_self, if_true]

/-- The ranker's maximum is the score of the primary setup. -/
theorem setupScoreOf_resultOf {p : Setup}
    (h : (resultOf symbol filter e).primarySetup = some p) :
    setupScoreOf (resultOf symbol filter e) = (e.get p).setupScore := by
  have hscores : (resultOf symbol filter e).matchedSetups.map (fun setup =>
      ((resultOf symbol filter e).setupScores.lookup setup).getD 0) =
        (resultOf symbol filter e).matchedSetups.map fun setup => (e.get setup).setupScore := by
    refine List.map_congr_left fun setup hsetup => ?_
    rw [lookup_setupScores_of_mem hsetup, Option.getD_some]
  have hbest : ((resultOf symbol filter e).matchedSetups.map fun setup =>
      (e.get setup).setupScore).max? = some (e.get p).setupScore := by
    rw [List.max?_eq_some_iff]
    refine ⟨List.mem_map_of_mem (primarySetupOf_mem h), ?_⟩
    intro score hscore
    obtain ⟨setup, hsetup, rfl⟩ := List.mem_map.mp hscore
    rcases primarySetupOf_best h setup hsetup with hlt | heq
    · exact hlt.le
    · exact heq.1.le
  rw [setupScoreOf, hscores, hbest, Option.getD_some]

theorem resultOf_invariants (hsound : ∀ setup, (e.get setup).Sound)
    (hfilter : filter.passed = true ↔ filter.reasons = []) :
    ResultInvariants (resultOf symbol filter e) := by
  have hmatched : (resultOf symbol filter e).matchedSetups = _ := matched_resultOf hsound hfilter
  have hpassed : (resultOf symbol filter e).passed = true ↔
      (resultOf symbol filter e).matchedSetups ≠ [] := by
    show (!(resultOf symbol filter e).matchedSetups.isEmpty) = true ↔ _
    rw [Bool.not_eq_true', List.isEmpty_eq_false_iff]
  constructor
  case passed_iff_matched => exact hpassed
  case passed_iff_satisfied =>
    rw [hpassed, hmatched, Ne, List.filter_eq_nil_iff]
    simp only [Bool.and_eq_true, decide_eq_true_eq]
    grind
  case matched => exact hmatched
  case matched_nodup => exact List.Nodup.filter _ (by decide)
  case score_keys =>
    show List.map Prod.fst (List.map _ _) = _
    rw [List.map_map]
    exact List.map_id _
  case scores =>
    intro entry hentry
    obtain ⟨setup, -, rfl⟩ := List.mem_map.mp hentry
    exact (hsound setup).score
  case no_primary => exact primarySetupOf_eq_none
  case primary =>
    intro p hp
    have hmem := primarySetupOf_mem hp
    refine ⟨hmem, (e.get p).setupScore, lookup_setupScores_of_mem hmem, ?_⟩
    intro entry hentry
    obtain ⟨setup, hsetup, rfl⟩ := List.mem_map.mp hentry
    exact primarySetupOf_best hp setup hsetup
  case ranked =>
    intro p hp ranking
    rw [lookup_setupScores_of_mem (primarySetupOf_mem hp), ← setupScoreOf_resultOf hp]
    rfl

end Results

theorem evaluations_sound {c : SwingScreeningConfig} {bars : List DailyBarRecord}
    {i : IndicatorSnapshot} {e : Evaluations} (hbox : box c bars i = .ok e.box)
    (hpullback : pullback c bars i = .ok e.pullback)
    (hcontraction : contraction c bars i = .ok e.contraction) (setup : Setup) :
    (e.get setup).Sound := by
  cases setup with
  | volatilityContractionBreakout => exact contraction_sound hcontraction
  | boxBreakout => exact box_sound hbox
  | trendPullback => exact pullback_sound hpullback

theorem evaluate_invariants {c : SwingScreeningConfig} {bars : List DailyBarRecord}
    {i : IndicatorSnapshot} {result : ScreeningResult} (h : evaluate c bars i = .ok result) :
    ResultInvariants result := by
  obtain ⟨e, hbox, hpullback, hcontraction, rfl⟩ := evaluate_ok.mp h
  exact resultOf_invariants (evaluations_sound hbox hpullback hcontraction) common_passed_iff

/-- The history that passes as a pullback. -/
theorem evaluate_invariants_sample :
    ∃ result, evaluate .default (historyFrom 9000) (snapshotOf (historyFrom 9000)) = .ok result ∧
      result.matchedSetups = [.trendPullback] ∧ ResultInvariants result := by
  have hmatched : (evaluate .default (historyFrom 9000) (snapshotOf (historyFrom 9000))).map
      (·.matchedSetups) = .ok [.trendPullback] := by
    decide +kernel
  obtain ⟨result, hresult, hsetups⟩ := map_ok.mp hmatched
  exact ⟨result, hresult, hsetups, evaluate_invariants hresult⟩

end Screener.Market
