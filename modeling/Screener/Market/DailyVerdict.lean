import Screener.Market.CandlePages
import Screener.Market.PublishedRanking
import Screener.Market.ScreeningAgreement
import Screener.Market.ScreeningInvariants
import Screener.Market.TechnicalAnalysis

/-!
# The daily verdict of a symbol

The page of one instrument evaluates its daily bars by itself. A run of the batch over the
same bars matches the same setups, gives the same score, and keeps the symbol only if the
page says that it meets the threshold.
-/

namespace Screener.Market

open Screener.Lib

variable {c : SwingScreeningConfig} {inputs : List ScanInput} {candidates : List ScreeningResult}
  {scored : List RankedCandidate}

/-! ## One symbol in the batch -/

theorem validateInputs_ok {seen : List Symbol} (h : validateInputs seen inputs = .ok ()) :
    (∀ input ∈ inputs, validateInput input = .ok () ∧ input.symbol ∉ seen) ∧
      (inputs.map (·.symbol)).Nodup := by
  induction inputs generalizing seen with
  | nil => simp
  | cons input rest ih =>
    obtain ⟨_, hvalid, h⟩ := bind_ok.mp h
    split_ifs at h with hseen
    obtain ⟨hall, hnodup⟩ := ih h
    refine ⟨List.forall_mem_cons.mpr ⟨⟨hvalid, hseen⟩, fun other hother => ?_⟩, ?_⟩
    · obtain ⟨hother', hnew⟩ := hall other hother
      exact ⟨hother', fun hin => hnew (List.mem_cons_of_mem _ hin)⟩
    · rw [List.map_cons, List.nodup_cons]
      refine ⟨fun hin => ?_, hnodup⟩
      obtain ⟨other, hother, heq⟩ := List.mem_map.mp hin
      exact (hall other hother).2 (heq ▸ List.mem_cons_self)

/-- The result of an input is the strategy's, under the symbol of the input. -/
theorem evaluateInput_ok {input : ScanInput} {result : ScreeningResult}
    (h : evaluateInput c input = .ok result) :
    ∃ found, evaluate c input.bars input.indicators = .ok found ∧
      result = { found with symbol := input.symbol } := by
  obtain ⟨found, hfound, h⟩ := bind_ok.mp h
  refine ⟨found, hfound, ?_⟩
  split_ifs at h with hempty hsame
  · exact (Except.ok.inj h).symm
  · rw [← Except.ok.inj h, ← hsame]

/-- A scan has the result of an input exactly where it passed, and no other of its symbol. -/
theorem scan_of_input (hscan : scan c inputs = .ok candidates) {input : ScanInput}
    (hinput : input ∈ inputs) {found : ScreeningResult}
    (hfound : evaluate c input.bars input.indicators = .ok found) (result : ScreeningResult) :
    (result ∈ candidates ∧ result.symbol = input.symbol) ↔
      found.passed = true ∧ result = { found with symbol := input.symbol } := by
  obtain ⟨_, hvalid, hscan⟩ := bind_ok.mp hscan
  obtain ⟨results, hresults, hkept⟩ := bind_ok.mp hscan
  obtain rfl := Except.ok.inj hkept
  obtain ⟨-, hnodup⟩ := validateInputs_ok hvalid
  rw [List.mem_filter, mem_mapM_ok hresults]
  constructor
  · rintro ⟨⟨⟨other, hother, hresult⟩, hpassed⟩, hsymbol⟩
    obtain ⟨found', hfound', rfl⟩ := evaluateInput_ok hresult
    -- the symbols are distinct, so it is the result of this input
    obtain rfl : other = input := List.inj_on_of_nodup_map hnodup hother hinput hsymbol
    obtain rfl := Except.ok.inj (hfound'.symm.trans hfound)
    exact ⟨hpassed, rfl⟩
  · rintro ⟨hpassed, rfl⟩
    obtain ⟨result, -, hresult⟩ := mapM_ok_of_mem hresults hinput
    obtain ⟨found', hfound', rfl⟩ := evaluateInput_ok hresult
    obtain rfl := Except.ok.inj (hfound'.symm.trans hfound)
    exact ⟨⟨⟨input, hinput, hresult⟩, hpassed⟩, rfl⟩

/-- A ranking has a candidate for each result, scored by itself. -/
theorem rank_mem (h : rank c candidates = .ok scored) :
    (∀ x ∈ scored, x.sourceResult ∈ candidates ∧
      x = { scoreSwing c x.sourceResult with rank := x.rank }) ∧
      ∀ result ∈ candidates, ∃ x ∈ scored, x.sourceResult = result := by
  obtain ⟨_, -, h⟩ := bind_ok.mp h
  obtain rfl := Except.ok.inj h
  have hperm := List.perm_insertionSort rankedBefore (candidates.map (scoreSwing c))
  constructor
  · intro x hx
    obtain ⟨entry, hentry, rfl⟩ := List.mem_map.mp hx
    obtain ⟨result, hresult, heq⟩ :=
      List.mem_map.mp (hperm.mem_iff.mp (List.fst_mem_of_mem_zipIdx hentry))
    rw [← heq]
    exact ⟨hresult, rfl⟩
  · intro result hresult
    have hin : scoreSwing c result ∈ (candidates.map (scoreSwing c)).insertionSort rankedBefore :=
      hperm.mem_iff.mpr (List.mem_map_of_mem hresult)
    rw [← List.zipIdx_map_fst 1 ((candidates.map (scoreSwing c)).insertionSort rankedBefore)] at hin
    obtain ⟨entry, hentry, heq⟩ := List.mem_map.mp hin
    refine ⟨_, List.mem_map_of_mem hentry, ?_⟩
    show entry.1.sourceResult = result
    rw [heq]
    rfl

/-! ## The rules of the setups -/

theorem setupOfRule_name (setup : Setup) (rule : String) :
    setupOfRule (setup.name ++ ":" ++ rule) = setup.name := by
  cases setup <;> simp [setupOfRule, Setup.name, String.toList_append, List.takeWhile]

theorem name_injective {setup other : Setup} : setup.name = other.name ↔ setup = other := by
  cases setup <;> cases other <;> simp [Setup.name]

/-- The part of a key before its colon tells the setups apart as its start does. -/
theorem filter_setupOfRule (symbol : Symbol) (filter : CommonEvaluation) (e : Evaluations)
    (setup : Setup) : ((resultOf symbol filter e).ruleEvaluations.filter fun rule =>
      setupOfRule rule.1 = setup.name) = (resultOf symbol filter e).rulesOf setup := by
  refine List.filter_congr fun rule hrule => ?_
  obtain ⟨other, -, hother⟩ := List.mem_flatMap.mp hrule
  obtain ⟨key, -, rfl⟩ := List.mem_map.mp hother
  rw [setupOfRule_name, isPrefixOf_name, decide_eq_decide, name_injective]

theorem mem_progressOf {rules : List (String × Bool)} {name : String} {progress : SetupProgress} :
    (name, progress) ∈ progressOf rules ↔
      let group := rules.filter fun rule => setupOfRule rule.1 = name
      group ≠ [] ∧ progress = ⟨group.countP (·.2), group.length⟩ := by
  have hget : ∀ group, (name, group) ∈ (collect (fun rule => setupOfRule rule.1) rules).entries ↔
      group ≠ [] ∧ group = rules.filter fun rule => setupOfRule rule.1 = name := by
    intro group
    rw [← Dict.get?_eq_some, collect_get?]
    simp only [Option.ite_none_left_eq_some, Option.some.injEq]
    constructor
    · rintro ⟨hsome, rfl⟩
      exact ⟨hsome, rfl⟩
    · rintro ⟨hsome, rfl⟩
      exact ⟨hsome, rfl⟩
  simp only [progressOf, List.mem_map, Prod.mk.injEq]
  constructor
  · rintro ⟨⟨key, group⟩, hgroup, hkey, hprogress⟩
    obtain rfl : key = name := hkey
    obtain ⟨hsome, heq⟩ := (hget group).mp hgroup
    rw [← heq]
    exact ⟨hsome, hprogress.symm⟩
  · rintro ⟨hsome, rfl⟩
    exact ⟨(name, _), (hget _).mpr ⟨hsome, rfl⟩, rfl, rfl⟩

theorem satisfied_iff_complete {result : ScreeningResult} {setup : Setup} :
    result.satisfied setup = true ↔ result.rulesOf setup ≠ [] ∧
      (result.rulesOf setup).countP (·.2) = (result.rulesOf setup).length := by
  rw [ScreeningResult.satisfied, Bool.and_eq_true, Bool.not_eq_true', List.isEmpty_eq_false_iff,
    List.all_eq_true, List.countP_eq_length]

/-- A setup is matched where the common rules hold and its progress is complete. -/
theorem matched_iff_complete {records : List DailyBarRecord} {i : IndicatorSnapshot}
    {found : ScreeningResult} (h : evaluate c records i = .ok found) (setup : Setup) :
    setup ∈ found.matchedSetups ↔ found.reasons = [] ∧ ∃ progress,
      (setup.name, progress) ∈ progressOf found.ruleEvaluations ∧
        progress.passedRules = progress.totalRules := by
  obtain ⟨e, hbox, hpullback, hcontraction, rfl⟩ := evaluate_ok.mp h
  have hsound := evaluations_sound hbox hpullback hcontraction
  have hmem : setup ∈ Setup.order := by cases setup <;> decide
  rw [(resultOf_invariants hsound common_passed_iff).matched, List.mem_filter, Bool.and_eq_true,
    decide_eq_true_eq, satisfied_iff_complete]
  simp only [mem_progressOf, filter_setupOfRule]
  constructor
  · rintro ⟨-, hreasons, hsome, hcomplete⟩
    exact ⟨hreasons, _, ⟨hsome, rfl⟩, hcomplete⟩
  · rintro ⟨hreasons, progress, ⟨hsome, rfl⟩, hcomplete⟩
    exact ⟨hmem, hreasons, hsome, hcomplete⟩

/-! ## The verdict -/

/-- What the page of a symbol says, beside the ranking and what is kept of a batch. -/
structure SameVerdict (c : SwingScreeningConfig) (symbol : Symbol) (daily : DailyTechnicalSummary)
    (scored kept : List RankedCandidate) : Prop where
  passes : daily.screeningPassed = true ↔ ∃ x ∈ scored, x.symbol = symbol
  scores : ∀ x ∈ scored, x.symbol = symbol → daily.totalScore = some x.totalScore ∧
    daily.matchedSetups = x.sourceResult.matchedSetups ∧
    daily.primarySetup = x.sourceResult.primarySetup
  qualifies : daily.meetsScoreThreshold = true ↔
    ∃ x ∈ scored, x.symbol = symbol ∧ c.minimumCandidateScore ≤ x.totalScore
  keeps : (∃ x ∈ kept, x.symbol = symbol) → daily.meetsScoreThreshold = true
  cuts : daily.meetsScoreThreshold = true → (∀ x ∈ kept, x.symbol ≠ symbol) →
    kept.length = c.maximumCandidates ∧
      ∀ x ∈ kept, ∀ score ∈ daily.totalScore, score ≤ x.totalScore

theorem dailySummary_ok {bars : List DailyBar} {quote : QuoteSnapshot}
    {daily : DailyTechnicalSummary}
    (h : dailySummary c bars quote = .ok daily) : ∃ i found,
      calculate (bars.map (·.toDailyBarRecord)) = .ok i ∧
      evaluate c (bars.map (·.toDailyBarRecord)) i = .ok found ∧
      rankedScore c found = .ok daily.totalScore ∧ daily.screeningPassed = found.passed ∧
      daily.matchedSetups = found.matchedSetups ∧ daily.primarySetup = found.primarySetup ∧
      daily.meetsScoreThreshold = daily.totalScore.any (c.minimumCandidateScore ≤ ·) ∧
      daily.commonFailures = found.reasons ∧
        daily.setupProgress = progressOf found.ruleEvaluations := by
  obtain ⟨i, hi, h⟩ := bind_ok.mp h
  obtain ⟨quoteDate, -, h⟩ := bind_ok.mp h
  obtain ⟨found, hfound, h⟩ := bind_ok.mp h
  obtain ⟨score, hscore, h⟩ := bind_ok.mp h
  obtain ⟨change, -, h⟩ := bind_ok.mp h
  obtain rfl := Except.ok.inj h
  exact ⟨i, found, mapError_ok.mp hi, mapError_ok.mp hfound, mapError_ok.mp hscore, rfl, rfl, rfl,
    rfl, rfl, rfl⟩

theorem rankedScore_ok {found : ScreeningResult} {score : Option ℚ}
    (h : rankedScore c found = .ok score) :
    score = if found.passed then some (scoreSwing c found).totalScore else none := by
  unfold rankedScore at h
  split_ifs at h ⊢ with hpassed
  · obtain ⟨ranked, hranked, rfl⟩ := map_ok.mp h
    obtain ⟨_, hvalid, hranked⟩ := bind_ok.mp hranked
    obtain rfl := Except.ok.inj hranked
    rfl
  · exact (Except.ok.inj h).symm

/-- The candidate of an input in a ranking is there where its result passed, with its score. -/
theorem ranked_of_input (hscan : scan c inputs = .ok candidates)
    (hranked : rank c candidates = .ok scored)
    {input : ScanInput} (hinput : input ∈ inputs) {found : ScreeningResult}
    (hfound : evaluate c input.bars input.indicators = .ok found) :
    (found.passed = true → ∃ x ∈ scored, x.symbol = input.symbol) ∧
      ∀ x ∈ scored, x.symbol = input.symbol → found.passed = true ∧
        x.totalScore = (scoreSwing c found).totalScore ∧
        x.sourceResult = { found with symbol := input.symbol } := by
  have hin := scan_of_input hscan hinput hfound
  obtain ⟨hsound, hcomplete⟩ := rank_mem hranked
  constructor
  · intro hpassed
    obtain ⟨hmem, hsymbol⟩ := (hin _).mpr ⟨hpassed, rfl⟩
    obtain ⟨x, hx, hsource⟩ := hcomplete _ hmem
    refine ⟨x, hx, ?_⟩
    rw [(hsound x hx).2, hsource]
    exact hsymbol
  · intro x hx hsymbol
    obtain ⟨hmem, heq⟩ := hsound x hx
    rw [heq] at hsymbol
    obtain ⟨hpassed, hsource⟩ := (hin x.sourceResult).mp ⟨hmem, hsymbol⟩
    refine ⟨hpassed, ?_, hsource⟩
    rw [heq, hsource]
    rfl

/-- The page of an instrument and a batch with its bars say the same of the symbol, and a
setup is matched where the common rules hold and the progress shown for it is complete. -/
theorem daily_verdict_agrees {a : Analysis} {symbol : Symbol} {bars : List DailyBar}
    {i : IndicatorSnapshot} {quote : QuoteSnapshot} {daily : DailyTechnicalSummary}
    (hbatch : analyze c inputs = .ok a) (hi : calculate (bars.map (·.toDailyBarRecord)) = .ok i)
    (hinput : ⟨symbol, bars.map (·.toDailyBarRecord), i⟩ ∈ inputs)
    (hdaily : dailySummary c bars quote = .ok daily) :
    (∃ candidates scored, scan c inputs = .ok candidates ∧ rank c candidates = .ok scored ∧
      SameVerdict c symbol daily scored a.ranked) ∧
    ∀ setup, setup ∈ daily.matchedSetups ↔ daily.commonFailures = [] ∧ ∃ progress,
      (setup.name, progress) ∈ daily.setupProgress ∧
        progress.passedRules = progress.totalRules := by
  obtain ⟨i', found, hi', hfound, hscore, hpassed, hmatched, hprimary, hmeets, hfailures,
    hprogress⟩ :=
    dailySummary_ok hdaily
  obtain rfl : i' = i := Except.ok.inj (hi'.symm.trans hi)
  obtain ⟨candidates, hscan, hbatch⟩ := bind_ok.mp hbatch
  obtain ⟨scored, hranked, hbatch⟩ := bind_ok.mp hbatch
  obtain rfl := Except.ok.inj hbatch
  obtain ⟨hthere, hsame⟩ := ranked_of_input hscan hranked hinput hfound
  have htotal := rankedScore_ok hscore
  have hscored : ∀ x ∈ scored, x.symbol = symbol → daily.totalScore = some x.totalScore := by
    intro x hx hsymbol
    obtain ⟨hpassed, hx, -⟩ := hsame x hx hsymbol
    rw [htotal, if_pos hpassed, hx]
  have hqualifies : daily.meetsScoreThreshold = true ↔
      ∃ x ∈ scored, x.symbol = symbol ∧ c.minimumCandidateScore ≤ x.totalScore := by
    rw [hmeets]
    constructor
    · intro hany
      obtain ⟨score, hsome, hle⟩ := (Option.any_eq_true _ _).mp hany
      have hpasses : found.passed = true := by
        by_contra hnot
        rw [htotal, if_neg hnot] at hsome
        cases hsome
      obtain ⟨x, hx, hsymbol⟩ := hthere hpasses
      refine ⟨x, hx, hsymbol, ?_⟩
      rw [← Option.some.inj (hsome.symm.trans (hscored x hx hsymbol))]
      exact of_decide_eq_true hle
    · rintro ⟨x, hx, hsymbol, hle⟩
      rw [hscored x hx hsymbol]
      exact decide_eq_true hle
  refine ⟨⟨candidates, scored, hscan, hranked, ⟨?_, ?_, hqualifies, ?_, ?_⟩⟩, fun setup => ?_⟩
  · rw [hpassed]
    exact ⟨hthere, fun ⟨x, hx, hsymbol⟩ => (hsame x hx hsymbol).1⟩
  · intro x hx hsymbol
    obtain ⟨-, -, hsource⟩ := hsame x hx hsymbol
    rw [hsource]
    exact ⟨hscored x hx hsymbol, hmatched, hprimary⟩
  · rintro ⟨x, hx, hsymbol⟩
    obtain ⟨hin, hle⟩ := List.mem_filter.mp (List.mem_of_mem_take hx)
    exact hqualifies.mpr ⟨x, hin, hsymbol, of_decide_eq_true hle⟩
  · intro hmeets hnone
    obtain ⟨x, hx, hsymbol, hle⟩ := hqualifies.mp hmeets
    have hsorted := (rank_scores hranked).filter fun x =>
      decide (c.minimumCandidateScore ≤ x.totalScore)
    have hin : x ∈ scored.filter fun x => decide (c.minimumCandidateScore ≤ x.totalScore) :=
      List.mem_filter.mpr ⟨hx, decide_eq_true hle⟩
    rcases mem_take_or_after hsorted hin with hkept | ⟨hfull, hafter⟩
    · exact absurd hsymbol (hnone x hkept)
    · refine ⟨hfull, fun y hy score hsome => ?_⟩
      rw [hscored x hx hsymbol] at hsome
      rw [← Option.some.inj hsome]
      exact hafter y hy
  · rw [hmatched, hfailures, hprogress]
    exact matched_iff_complete hfound setup

/-! The history that passes as a pullback, in a batch of its own and on the page. -/

def pullbackBars : List DailyBar := (historyFrom 9000).filterMap fun bar => dailyBar? bar "toss" 0

theorem pullbackPrice_nonneg : (0 : ℚ) ≤ 9700 := by norm_num

theorem pullbackStamp_aware : (some kst).isSome := rfl

def pullbackQuote : QuoteSnapshot :=
  ⟨"A", 9700, ⟨739463 * dayLength, some kst⟩, none, pullbackPrice_nonneg, pullbackStamp_aware⟩

theorem daily_verdict_agrees_pullback : ∃ inputs a daily, analyze .default inputs = .ok a ∧
    a.candidateCount = 1 ∧ dailySummary .default pullbackBars pullbackQuote = .ok daily ∧
    daily.matchedSetups = [.trendPullback] ∧
    (∃ candidates scored, scan .default inputs = .ok candidates ∧
      rank .default candidates = .ok scored ∧ SameVerdict .default "A" daily scored a.ranked) ∧
    ∀ setup, setup ∈ daily.matchedSetups ↔ daily.commonFailures = [] ∧ ∃ progress,
      (setup.name, progress) ∈ daily.setupProgress ∧
        progress.passedRules = progress.totalRules := by
  let records := pullbackBars.map (·.toDailyBarRecord)
  have hi : calculate records = .ok (snapshotOf records) := by decide +kernel
  have hbatch : (analyze .default [⟨"A", records, snapshotOf records⟩]).map (·.candidateCount) =
      .ok 1 := by
    decide +kernel
  have hdaily : (dailySummary .default pullbackBars pullbackQuote).map (·.matchedSetups) =
      .ok [.trendPullback] := by
    decide +kernel
  obtain ⟨a, ha, hcount⟩ := map_ok.mp hbatch
  obtain ⟨daily, hdaily, hmatched⟩ := map_ok.mp hdaily
  exact ⟨_, a, daily, ha, hcount, hdaily, hmatched,
    daily_verdict_agrees ha hi (List.mem_singleton_self _) hdaily⟩

end Screener.Market
