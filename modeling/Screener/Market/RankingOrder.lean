import Screener.Market.PublishedRanking
import Screener.Market.ScreeningInvariants

/-!
# The order of a ranking

The ranker reads scores by key, looks up setups in a fixed order and builds a checked
model for each candidate. None of these raises on passing results of the strategy, and
the four parts of the sort key leave no tie, so the order of the input does not matter.
-/

namespace Screener.Market

open Screener.Lib

/-! ## The ranker with all that may raise -/

/-- `values[key]`: a missing key is a `KeyError`. -/
def itemOf {κ : Type} [DecidableEq κ] (name : κ → String) (values : List (κ × ℚ)) (key : κ) :
    Except String ℚ :=
  match values.lookup key with
  | some value => .ok value
  | none => .error (name key)

/-- The checks that `RankedCandidate` runs when one is built. -/
def RankedCandidate.checked (candidate : RankedCandidate) : Except String RankedCandidate :=
  if candidate.rank < 1 then .error "rank"
  else if ¬ (0 ≤ candidate.totalScore ∧ candidate.totalScore ≤ 100) then .error "total_score"
  else match candidate.componentScores.find? fun entry => ¬ (0 ≤ entry.2 ∧ entry.2 ≤ 100) with
    | some entry => .error ("component score '" ++ entry.1 ++ "' must be between 0 and 100")
    | none => .ok candidate

/-- The key that a candidate is sorted by, read from its components. -/
def sortKeyChecked (candidate : RankedCandidate) : Except String (ℚ × ℚ × Nat × Symbol) := do
  let setup ← itemOf id candidate.componentScores "setup"
  return (-candidate.totalScore, -setup,
    (candidate.sourceResult.primarySetup.getD .trendPullback).index, candidate.symbol)

variable (c : SwingScreeningConfig)

/-- `_score_swing`: the scores of the matched setups are read by their names. -/
def scoreSwingChecked (result : ScreeningResult) : Except String RankedCandidate := do
  let _scores ← result.matchedSetups.mapM (itemOf Setup.name result.setupScores)
  (scoreSwing c result).checked

def rankChecked (results : List ScreeningResult) : Except String (List RankedCandidate) := do
  validateRequest [] results
  let scored ← results.mapM (scoreSwingChecked c)
  let _keys ← scored.mapM sortKeyChecked
  return ((scored.insertionSort rankedBefore).zipIdx 1).map
    fun entry => { entry.1 with rank := entry.2 }

/-! ## Scores of a candidate -/

/-- The weights of the components. -/
def swingWeights : List (String × ℚ) :=
  [("trend", 25 / 100), ("setup", 45 / 100), ("liquidity", 15 / 100), ("volatility", 15 / 100)]

def weightedSum (candidate : RankedCandidate) : ℚ :=
  (swingWeights.map fun weight => metricOr0 candidate.componentScores weight.1 * weight.2).sum

def Bounded (score : ℚ) : Prop := 0 ≤ score ∧ score ≤ 100

theorem bounded_quantizeScore (value : ℚ) : Bounded (quantizeScore value) :=
  quantizeScore_bounds value

theorem bounded_zero : Bounded 0 := ⟨le_rfl, by norm_num⟩

theorem bounded_hundred : Bounded 100 := ⟨by norm_num, le_rfl⟩

theorem bounded_linearScore (value minimum maximum : ℚ) :
    Bounded (linearScore value minimum maximum) := by
  unfold linearScore
  split_ifs
  · exact bounded_zero
  · exact bounded_hundred
  · exact bounded_quantizeScore _

theorem bounded_volatilityScore (metrics : List (String × ℚ)) :
    Bounded (volatilityScore metrics) := by
  unfold volatilityScore
  simp only
  split_ifs
  · exact bounded_zero
  · exact bounded_linearScore _ _ _
  · exact bounded_hundred
  · exact bounded_quantizeScore _

variable {c}

/-- A score that is a weighted mean of scores is rounded, never clamped. -/
theorem abs_quantizeScore_sub_le {value : ℚ} (h : Bounded value) :
    |quantizeScore value - value| ≤ 5 / 1000 := by
  have hclamp : clampScore value = value := by
    rw [clampScore, max_eq_right h.1, min_eq_right h.2]
  have hround := abs_quantizeWith_sub_le_of abs_roundHalfUp_sub_le 2 value
  rw [quantizeScore, hclamp]
  exact hround.trans (by norm_num)

/-- What a candidate shows of its scores. -/
structure WellScored (candidate : RankedCandidate) : Prop where
  total : Bounded candidate.totalScore
  components : ∀ entry ∈ candidate.componentScores, Bounded entry.2
  close : |candidate.totalScore - weightedSum candidate| ≤ 5 / 1000

/-- Such a candidate passes the checks of its model. -/
theorem WellScored.checked {candidate : RankedCandidate} (h : WellScored candidate)
    (hrank : 1 ≤ candidate.rank) : candidate.checked = .ok candidate := by
  have htotal : 0 ≤ candidate.totalScore ∧ candidate.totalScore ≤ 100 := h.total
  have hcomponents : candidate.componentScores.find?
      (fun entry => ¬ (0 ≤ entry.2 ∧ entry.2 ≤ 100)) = none := by
    rw [List.find?_eq_none]
    intro entry hentry
    simpa [Bounded] using h.components entry hentry
  rw [RankedCandidate.checked, if_neg (not_lt.mpr hrank), if_neg (not_not.mpr htotal), hcomponents]

theorem scoreSwing_wellScored {result : ScreeningResult} (h : Bounded (setupScoreOf result)) :
    WellScored (scoreSwing c result) := by
  have htrend : Bounded (trendScore result.metrics) := bounded_linearScore _ _ _
  have hliquidity : Bounded (liquidityScore c.minimumAverageTradingValue20 result.metrics) :=
    bounded_linearScore _ _ _
  have hvolatility := bounded_volatilityScore result.metrics
  refine ⟨bounded_quantizeScore _, ?_, ?_⟩
  · intro entry hentry
    simp only [scoreSwing, List.mem_cons, List.not_mem_nil, or_false] at hentry
    rcases hentry with rfl | rfl | rfl | rfl
    · exact htrend
    · exact h
    · exact hliquidity
    · exact hvolatility
  · have hsum : weightedSum (scoreSwing c result) =
        trendScore result.metrics * (25 / 100) + setupScoreOf result * (45 / 100) +
          liquidityScore c.minimumAverageTradingValue20 result.metrics * (15 / 100) +
            volatilityScore result.metrics * (15 / 100) := by
      simp [weightedSum, swingWeights, scoreSwing, metricOr0, List.lookup_cons]
      ring
    rw [hsum]
    refine abs_quantizeScore_sub_le ⟨?_, ?_⟩
    · linarith [htrend.1, h.1, hliquidity.1, hvolatility.1]
    · linarith [htrend.2, h.2, hliquidity.2, hvolatility.2]

/-! ## Nothing raises -/

/-- A passed result of the strategy. -/
def PassedResult (result : ScreeningResult) : Prop :=
  result.passed = true ∧ ∃ screening bars i, evaluate screening bars i = .ok result

theorem scoreSwingChecked_ok {result : ScreeningResult} (h : PassedResult result) :
    scoreSwingChecked c result = .ok (scoreSwing c result) ∧ WellScored (scoreSwing c result) := by
  obtain ⟨hpassed, screening, bars, i, hevaluate⟩ := h
  obtain ⟨e, hbox, hpullback, hcontraction, rfl⟩ := evaluate_ok.mp hevaluate
  have hsound := evaluations_sound hbox hpullback hcontraction
  have hinvariants : ResultInvariants (resultOf (symbolOf bars) (common screening bars i) e) :=
    resultOf_invariants hsound common_passed_iff
  have hmatched := hinvariants.passed_iff_matched.mp hpassed
  obtain ⟨p, hp⟩ := Option.ne_none_iff_exists'.mp (mt hinvariants.no_primary.mp hmatched)
  have hscored : WellScored (scoreSwing c
      (resultOf (symbolOf bars) (common screening bars i) e)) := by
    refine scoreSwing_wellScored ?_
    rw [setupScoreOf_resultOf hp]
    exact ⟨(hsound p).score.nonneg, (hsound p).score.le_hundred⟩
  refine ⟨?_, hscored⟩
  obtain ⟨scores, hscores⟩ := mapM_total fun setup hsetup =>
    show ∃ s, itemOf Setup.name (resultOf (symbolOf bars) (common screening bars i) e).setupScores
        setup = .ok s from
      ⟨_, by rw [itemOf, lookup_setupScores_of_mem hsetup]⟩
  unfold scoreSwingChecked
  exact bind_ok.mpr ⟨scores, hscores, hscored.checked le_rfl⟩

theorem sortKeyChecked_scoreSwing (result : ScreeningResult) :
    sortKeyChecked (scoreSwing c result) = .ok (sortKey (scoreSwing c result)) := by
  simp [sortKeyChecked, sortKey, itemOf, scoreSwing, metricOr0, List.lookup_cons, bind, Except.bind,
    pure, Except.pure]

theorem validateRequest_of {seen : List Symbol} {results : List ScreeningResult}
    (h : ∀ r ∈ results, r.passed = true ∧ blank r.symbol = false ∧ r.symbol ∉ seen)
    (hnodup : (results.map (·.symbol)).Nodup) : validateRequest seen results = .ok () := by
  induction results generalizing seen with
  | nil => rfl
  | cons r rest ih =>
    obtain ⟨hpassed, hblank, hseen⟩ := h r List.mem_cons_self
    obtain ⟨hnew, hnodup⟩ := List.nodup_cons.mp hnodup
    unfold validateRequest
    rw [if_neg (by simp [hpassed]), if_neg (by simp [hblank]), if_neg hseen]
    refine ih (fun x hx => ?_) hnodup
    obtain ⟨hxpassed, hxblank, hxseen⟩ := h x (List.mem_cons_of_mem r hx)
    refine ⟨hxpassed, hxblank, fun hin => ?_⟩
    rcases List.mem_cons.mp hin with heq | hin
    · exact hnew (List.mem_map.mpr ⟨x, hx, heq⟩)
    · exact hxseen hin

/-- Passed results of the strategy, under distinct names. -/
structure Rankable (results : List ScreeningResult) : Prop where
  passed : ∀ r ∈ results, PassedResult r
  named : ∀ r ∈ results, blank r.symbol = false
  symbols : (results.map (·.symbol)).Nodup

/-- The candidates in their order, before they are numbered. -/
def orderedCandidates (c : SwingScreeningConfig) (results : List ScreeningResult) :
    List RankedCandidate :=
  (results.map (scoreSwing c)).insertionSort rankedBefore

def numbered (candidates : List RankedCandidate) : List RankedCandidate :=
  (candidates.zipIdx 1).map fun entry => { entry.1 with rank := entry.2 }

theorem rankChecked_eq {results : List ScreeningResult} (h : Rankable results) :
    rankChecked c results = .ok (numbered (orderedCandidates c results)) := by
  have hvalid : validateRequest [] results = .ok () :=
    validateRequest_of (fun r hr => ⟨(h.passed r hr).1, h.named r hr, List.not_mem_nil⟩) h.symbols
  have hscored : results.mapM (scoreSwingChecked c) = .ok (results.map (scoreSwing c)) :=
    mapM_ok_map fun r hr => (scoreSwingChecked_ok (h.passed r hr)).1
  have hkeys : (results.map (scoreSwing c)).mapM sortKeyChecked =
      .ok ((results.map (scoreSwing c)).map sortKey) := by
    refine mapM_ok_map fun candidate hcandidate => ?_
    obtain ⟨r, -, rfl⟩ := List.mem_map.mp hcandidate
    exact sortKeyChecked_scoreSwing r
  rw [rankChecked, hvalid]
  show (results.mapM (scoreSwingChecked c) >>= _) = _
  rw [hscored]
  show ((results.map (scoreSwing c)).mapM sortKeyChecked >>= _) = _
  rw [hkeys]
  rfl

/-- The checks change nothing: the ranking is the one without them. -/
theorem rankChecked_eq_rank {results : List ScreeningResult} (h : Rankable results) :
    rankChecked c results = rank c results := by
  have hvalid : validateRequest [] results = .ok () :=
    validateRequest_of (fun r hr => ⟨(h.passed r hr).1, h.named r hr, List.not_mem_nil⟩) h.symbols
  rw [rankChecked_eq h, rank, hvalid]
  rfl

/-! ## The order -/

theorem lexKey_symbol {a b : RankedCandidate} (h : lexKey a = lexKey b) : a.symbol = b.symbol := by
  simp only [lexKey, sortKey, EmbeddingLike.apply_eq_iff_eq, Prod.mk.injEq] at h
  exact h.2.2.2

/-- The last part of the key is the symbol, so distinct symbols leave no tie. -/
theorem orderedCandidates_strict {results : List ScreeningResult}
    (h : (results.map (·.symbol)).Nodup) :
    (orderedCandidates c results).Pairwise fun a b => lexKey a < lexKey b := by
  have hkeys : ((results.map (scoreSwing c)).map lexKey).Nodup := by
    rw [List.map_map]
    refine List.pairwise_map.mpr ((List.pairwise_map.mp h).imp fun {a b} hne heq => hne ?_)
    exact lexKey_symbol (a := scoreSwing c a) (b := scoreSwing c b) heq
  have hsorted := List.pairwise_insertionSort rankedBefore (results.map (scoreSwing c))
  have hdistinct : (orderedCandidates c results).Pairwise fun a b => lexKey a ≠ lexKey b :=
    List.pairwise_map.mp ((((List.perm_insertionSort _ _).map lexKey).nodup_iff).mpr hkeys)
  exact (hsorted.and hdistinct).imp fun hab =>
    lt_of_le_of_ne (rankedBefore_iff.mp hab.1) hab.2

theorem orderedCandidates_perm {results results' : List ScreeningResult}
    (h : (results.map (·.symbol)).Nodup) (hperm : results'.Perm results) :
    orderedCandidates c results' = orderedCandidates c results := by
  have hnodup : (results'.map (·.symbol)).Nodup := ((hperm.map _).nodup_iff).mpr h
  refine eq_of_mem_iff lexKey (orderedCandidates_strict hnodup) (orderedCandidates_strict h) ?_
  intro candidate
  rw [orderedCandidates, orderedCandidates, (List.perm_insertionSort _ _).mem_iff,
    (List.perm_insertionSort _ _).mem_iff, (hperm.map _).mem_iff]

/-- A numbering changes only the ranks. -/
theorem map_numbered {β : Type} {f : RankedCandidate → β}
    (hf : ∀ candidate rank, f { candidate with rank } = f candidate)
    (candidates : List RankedCandidate) : (numbered candidates).map f = candidates.map f := by
  rw [numbered, List.map_map]
  have hfst := List.zipIdx_map_fst 1 candidates
  conv_rhs => rw [← hfst, List.map_map]
  exact List.map_congr_left fun entry _ => hf entry.1 entry.2

theorem numbered_strict {candidates : List RankedCandidate}
    (h : candidates.Pairwise fun a b => lexKey a < lexKey b) :
    (numbered candidates).Pairwise fun a b => lexKey a < lexKey b := by
  have hmap := map_numbered (f := lexKey) (fun _ _ => rfl) candidates
  rw [← List.pairwise_map (f := lexKey) (R := (· < ·)), hmap, List.pairwise_map]
  exact h

/-! ## The ranking -/

/-- A ranking of some results: all of them, numbered in a total order. -/
structure RankingOf (results : List ScreeningResult) (ranked : List RankedCandidate) : Prop where
  inputs : (ranked.map (·.sourceResult)).Perm results
  ranks : ranked.map (·.rank) = List.range' 1 results.length
  sorted : ranked.Pairwise fun a b => lexKey a < lexKey b
  scores : ∀ candidate ∈ ranked, WellScored candidate

theorem swingRank_total (c : SwingScreeningConfig) {results : List ScreeningResult}
    (h : Rankable results) :
    (swingWeights.map Prod.snd).sum = 1 ∧
      ∃ ranked, rankChecked c results = .ok ranked ∧ RankingOf results ranked ∧
        ∀ results', results'.Perm results → rankChecked c results' = .ok ranked := by
  refine ⟨by norm_num [swingWeights], _, rankChecked_eq h, ?_, ?_⟩
  · have hperm : (orderedCandidates c results).Perm (results.map (scoreSwing c)) :=
      List.perm_insertionSort _ _
    constructor
    case inputs =>
      rw [map_numbered fun _ _ => rfl]
      have hsource : (results.map (scoreSwing c)).map (·.sourceResult) = results := by
        rw [List.map_map]
        exact List.map_id results
      exact (hperm.map _).trans (.of_eq hsource)
    case ranks =>
      have hlength : (orderedCandidates c results).length = results.length := by
        rw [hperm.length_eq, List.length_map]
      rw [numbered, List.map_map, ← hlength]
      exact List.zipIdx_map_snd 1 _
    case sorted => exact numbered_strict (orderedCandidates_strict h.symbols)
    case scores =>
      intro candidate hcandidate
      obtain ⟨entry, hentry, rfl⟩ := List.mem_map.mp hcandidate
      have hmem := hperm.mem_iff.mp (List.fst_mem_of_mem_zipIdx hentry)
      obtain ⟨result, hresult, heq⟩ := List.mem_map.mp hmem
      have hscored := (scoreSwingChecked_ok (c := c) (h.passed result hresult)).2
      rw [heq] at hscored
      exact ⟨hscored.total, hscored.components, hscored.close⟩
  · intro results' hperm
    have h' : Rankable results' :=
      { passed := fun r hr => h.passed r (hperm.mem_iff.mp hr)
        named := fun r hr => h.named r (hperm.mem_iff.mp hr)
        symbols := ((hperm.map _).nodup_iff).mpr h.symbols }
    rw [rankChecked_eq h', orderedCandidates_perm h.symbols hperm]

/-- Two symbols with one history: the tie is decided by the symbol, in either order. -/
theorem swingRank_total_sample :
    ∃ a b : ScreeningResult, a.symbol = "A" ∧ b.symbol = "B" ∧ ∃ ranked,
      rankChecked .default [b, a] = .ok ranked ∧ rankChecked .default [a, b] = .ok ranked ∧
        RankingOf [b, a] ranked := by
  let other := (historyFrom 9000).map fun bar => { bar with symbol := "B" }
  have ha : (evaluate .default (historyFrom 9000) (snapshotOf (historyFrom 9000))).map
      (fun r => (r.passed, r.symbol)) = .ok (true, "A") := by
    decide +kernel
  have hb : (evaluate .default other (snapshotOf other)).map
      (fun r => (r.passed, r.symbol)) = .ok (true, "B") := by
    decide +kernel
  obtain ⟨a, hevala, hviewa⟩ := map_ok.mp ha
  obtain ⟨b, hevalb, hviewb⟩ := map_ok.mp hb
  obtain ⟨hpassa, hsyma⟩ := Prod.mk.inj hviewa
  obtain ⟨hpassb, hsymb⟩ := Prod.mk.inj hviewb
  have hrankable : Rankable [b, a] := by
    constructor
    case passed =>
      intro r hr
      rcases List.mem_pair.mp hr with rfl | rfl
      · exact ⟨hpassb, _, _, _, hevalb⟩
      · exact ⟨hpassa, _, _, _, hevala⟩
    case named =>
      intro r hr
      rcases List.mem_pair.mp hr with rfl | rfl
      · rw [hsymb]
        decide
      · rw [hsyma]
        decide
    case symbols => simp [hsyma, hsymb]
  obtain ⟨-, ranked, hranked, hranking, hperm⟩ := swingRank_total .default hrankable
  exact ⟨a, b, hsyma, hsymb, ranked, hranked, hperm [a, b] (List.Perm.swap b a []), hranking⟩

end Screener.Market
