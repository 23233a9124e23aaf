import Mathlib.Data.Prod.Lex
import Mathlib.Data.String.Basic
import Screener.Lib.Sorted
import Screener.Market.DailyRunSafety
import Screener.Market.PipelineEnvelope

/-!
# What a succeeded run has published

The ranker numbers all passing results before the run drops those below the minimum
score and cuts the rest. As the order is by score first, dropping keeps a prefix of
the ranking, so what is saved is ranked from 1 without a gap.
-/

namespace Screener.Market

open Screener.Lib

/-! ## The order of a ranking -/

/-- The sort key in lexicographic order. -/
def lexKey (candidate : RankedCandidate) : ℚ ×ₗ ℚ ×ₗ Nat ×ₗ Symbol :=
  let key := sortKey candidate
  toLex (key.1, toLex (key.2.1, toLex key.2.2))

theorem rankedBefore_iff {a b : RankedCandidate} : rankedBefore a b ↔ lexKey a ≤ lexKey b := by
  simp only [rankedBefore, lexKey, Prod.Lex.toLex_le_toLex]

instance : Std.Total rankedBefore where
  total a b := by
    rw [rankedBefore_iff, rankedBefore_iff]
    exact le_total _ _

instance : IsTrans RankedCandidate rankedBefore where
  trans a b c hab hbc := by
    rw [rankedBefore_iff] at *
    exact hab.trans hbc

theorem rankedBefore_score {a b : RankedCandidate} (h : rankedBefore a b) :
    b.totalScore ≤ a.totalScore := by
  have hkey : -a.totalScore ≤ -b.totalScore := by
    rcases h with h | h
    · exact h.le
    · exact h.1.le
  exact neg_le_neg_iff.mp hkey

section Rank

variable {c : SwingScreeningConfig} {results : List ScreeningResult} {scored : List RankedCandidate}

theorem rank_scores (h : rank c results = .ok scored) :
    scored.Pairwise fun a b => b.totalScore ≤ a.totalScore := by
  simp only [rank, bind_ok, pure_ok] at h
  obtain ⟨_, -, rfl⟩ := h
  have hsorted : ((results.map (scoreSwing c)).insertionSort rankedBefore).Pairwise
      fun a b => b.totalScore ≤ a.totalScore :=
    (List.pairwise_insertionSort rankedBefore _).imp rankedBefore_score
  rw [List.pairwise_map]
  have hfirst := List.zipIdx_map_fst 1 ((results.map (scoreSwing c)).insertionSort rankedBefore)
  rw [← hfirst, List.pairwise_map] at hsorted
  exact hsorted

theorem rank_ranks (h : rank c results = .ok scored) :
    scored.map (·.rank) = List.range' 1 scored.length := by
  simp only [rank, bind_ok, pure_ok] at h
  obtain ⟨_, -, rfl⟩ := h
  rw [List.map_map, List.length_map, List.length_zipIdx]
  exact List.zipIdx_map_snd 1 _

end Rank

/-! ## The inversion of a run -/

section Work

variable {config : DailyConfig} {env : RunEnv} {id : ExecutionId} {target : Date} {force : Bool}
  {s t : RunState} {record : WatchlistPipelineExecution}

theorem run_inSession_ok {α : Type} {step : RunStep} {a : α}
    {body : PipelineDb → Except PyException α × PipelineDb} :
    (inSession env step body).run s = .ok a t ↔
      env.faults step = none ∧ ∃ db, body s.db = (.ok a, db) ∧ s.publish db = t := by
  rw [run_inSession]
  cases hfault : env.faults step with
  | some exc => simp [raised]
  | none =>
    rcases hbody : body s.db with ⟨result, db⟩
    cases result with
    | ok b => simp [raised, and_assoc]
    | error exc => simp [raised]

theorem run_enterStage_market {next : PipelineStage} {u : Unit}
    (h : (enterStage env id next).run s = .ok u t) : t.db.market = s.db.market := by
  obtain ⟨_, v, hv, h⟩ := run_bind_ok.mp h
  cases hv
  obtain ⟨-, db, hbody, rfl⟩ := run_inSession_ok.mp h
  split_ifs at hbody
  · cases hbody
    rfl
  · cases (Prod.mk.inj hbody).1

theorem run_computing_ok {α : Type} {step : RunStep} {x : Except PyException α} {a : α}
    (h : (computing env step x).run s = .ok a t) : x = .ok a ∧ s = t := by
  obtain ⟨hx, rfl⟩ := run_raiseError_ok.mp h
  obtain ⟨_, -, hx⟩ := bind_ok.mp (mapError_ok.mp hx)
  exact ⟨hx, rfl⟩

/-- What a run that returns has loaded, computed and made visible. -/
structure Analysed (config : PipelineConfig) (env : RunEnv) (id : ExecutionId) (target : Date)
    (record : WatchlistPipelineExecution) (t : RunState) (inputs : List ScanInput)
    (candidates : List ScreeningResult) (scored : List RankedCandidate) : Prop where
  loaded : loadInputs config.screening t.db.market target = .ok inputs
  passing : scan config.screening inputs = .ok candidates
  ranked : rank config.screening candidates = .ok scored
  last : ∃ before row, before.executions.get? id = some row ∧
    record = config.success (analysisOf config.screening inputs candidates scored) env.finishedAt
      row ∧
    t.db = published config env id target (analysisOf config.screening inputs candidates scored)
      before

/-- A run that returns; one that is forced leaves the market as it was. -/
theorem work_returns (h : (work config env id target force).run s = .ok record t) :
    (∃ inputs candidates scored,
      Analysed config.toPipelineConfig env id target record t inputs candidates scored) ∧
      (force = true → t.db.market = s.db.market) := by
  unfold work at h
  simp only [run_bind_ok] at h
  obtain ⟨_, s₁, hsync, _, s₂, hindicators, inputs, s₃, hload, _, s₄, hscreening, _, s₅, hscanning,
    candidates,
    s₆, hscan, _, s₇, hranking, scored, s₈, hrank, _, s₉, hpersistence, hpersist⟩ := h
  obtain ⟨-, db, hread, rfl⟩ := run_inSession_ok.mp hload
  obtain ⟨hinputs, rfl⟩ := Prod.mk.inj hread
  obtain ⟨hcandidates, rfl⟩ := run_computing_ok hscan
  obtain ⟨hscored, rfl⟩ := run_computing_ok hrank
  obtain ⟨-, after, hsession, rfl⟩ := run_inSession_ok.mp hpersist
  -- No stage after the load changes the market.
  have hmarket : s₉.db.market = (s₂.publish s₂.db).db.market :=
    (run_enterStage_market hpersistence).trans ((run_enterStage_market hranking).trans
      ((run_enterStage_market hscanning).trans (run_enterStage_market hscreening)))
  unfold persistSession at hsession
  rcases hrequest : (persist config env id target (analysisOf config.screening inputs candidates
    scored)).request s₉.db with ⟨result, last⟩
  rw [hrequest] at hsession
  obtain ⟨hresult, rfl⟩ := Prod.mk.inj hsession
  obtain rfl := mapError_ok.mp hresult
  obtain ⟨⟨row, hrow, hrecord⟩, -, -, hpublished⟩ := persist_returns.mp hrequest
  have hlast : (s₉.publish last).db.market = s₂.db.market := by
    rw [← hpublished]
    exact hmarket
  constructor
  · refine ⟨inputs, candidates, scored, ?_, mapError_ok.mp hcandidates, mapError_ok.mp hscored,
      s₉.db, row, hrow, hrecord.symm, hpublished.symm⟩
    rw [← hinputs, hlast]
  · rintro rfl
    cases hsync
    exact hlast.trans (run_enterStage_market hindicators)

end Work

/-! ## The published candidates -/

section Published

variable {config : DailyConfig} {env : RunEnv} {invocation : Invocation} {db : PipelineDb}
  {result : PipelineResult} {s : RunState}

/-- A run whose result is a success has returned from its work. -/
theorem dailyRun_succeeded (h : dailyRun config env invocation db = (.ok result, s))
    (hstatus : result.status = .succeeded) :
    ∃ record, result = .of record ∧ (work config env env.reads.uuid4 invocation.tradingDate
      invocation.forceReanalysis).run (atWork config env invocation db) = .ok record s := by
  simp only [dailyRun] at h
  split_ifs at h with hweekend hrefused
  · cases h
    cases hstatus
  · cases h
    cases hstatus
  · cases hrun : (work config env env.reads.uuid4 invocation.tradingDate
      invocation.forceReanalysis).run (atWork config env invocation db) with
    | ok record t =>
      rw [hrun] at h
      cases h
      exact ⟨record, rfl, rfl⟩
    | error raisedAt t =>
      rw [hrun] at h
      simp only [recordFailure] at h
      split at h
      · cases (Prod.mk.inj h).1
      · cases h
        cases hstatus

/-- The passing results that reach the minimum score. -/
def qualifiedCount (c : SwingScreeningConfig) (scored : List RankedCandidate) : Nat :=
  scored.countP fun candidate => c.minimumCandidateScore ≤ candidate.totalScore

/-- The cut of a ranking: its first candidates, as many as qualify and as may be kept. -/
def topCandidates (c : SwingScreeningConfig) (scored : List RankedCandidate) :
    List RankedCandidate :=
  scored.take (min c.maximumCandidates (qualifiedCount c scored))

/-- Dropping below the minimum score and cutting keeps the top of the ranking. -/
theorem analysisOf_ranked {c : SwingScreeningConfig} {results : List ScreeningResult}
    {scored : List RankedCandidate} (h : rank c results = .ok scored) (inputs : List ScanInput) :
    (analysisOf c inputs results scored).ranked = topCandidates c scored := by
  have htaken : scored.filter (fun candidate => c.minimumCandidateScore ≤ candidate.totalScore) =
      scored.take (qualifiedCount c scored) := by
    refine filter_eq_take ((rank_scores h).imp fun hle hb => ?_)
    simp only [decide_eq_true_eq] at hb ⊢
    exact hb.trans hle
  show (scored.filter _).take _ = _
  rw [htaken, List.take_take, topCandidates]

/-- The saved entries of a date are the qualified top of its ranking, and the counters
of the result describe them. -/
structure PublishedTop (c : SwingScreeningConfig) (inputs : List ScanInput)
    (candidates : List ScreeningResult) (scored saved : List RankedCandidate)
    (result : PipelineResult) : Prop where
  top : saved = topCandidates c scored
  ranks : saved.map (·.rank) = List.range' 1 saved.length
  qualified : ∀ x ∈ saved, c.minimumCandidateScore ≤ x.totalScore
  best : ∀ x ∈ saved, ∀ y ∈ scored, y ∉ saved → y.totalScore ≤ x.totalScore
  screened : result.screenedCount = some inputs.length
  passing : result.candidateCount = some candidates.length
  qualifying : result.qualifiedCount = some (qualifiedCount c scored)
  persisted : result.persistedCount = some saved.length
  funnel : saved.length ≤ qualifiedCount c scored ∧
    qualifiedCount c scored ≤ candidates.length ∧ candidates.length ≤ inputs.length

theorem topCandidates_ranks {c : SwingScreeningConfig} {results : List ScreeningResult}
    {scored : List RankedCandidate} (h : rank c results = .ok scored) :
    (topCandidates c scored).map (·.rank) = List.range' 1 (topCandidates c scored).length := by
  rw [topCandidates, List.map_take, rank_ranks h, List.length_take]
  generalize min c.maximumCandidates (qualifiedCount c scored) = kept
  rcases Nat.le_total kept scored.length with hle | hle
  · rw [List.take_range'_of_length_ge hle, Nat.min_eq_left hle]
  · rw [List.take_range'_of_length_le hle, Nat.min_eq_right hle]

theorem topCandidates_qualified {c : SwingScreeningConfig} {results : List ScreeningResult}
    {scored : List RankedCandidate} (h : rank c results = .ok scored) {x : RankedCandidate}
    (hx : x ∈ topCandidates c scored) : c.minimumCandidateScore ≤ x.totalScore := by
  rw [← analysisOf_ranked h []] at hx
  have hkept := List.mem_of_mem_take hx
  exact of_decide_eq_true (List.mem_filter.mp hkept).2

/-- What is cut off never scores higher than what is kept. -/
theorem topCandidates_best {c : SwingScreeningConfig} {results : List ScreeningResult}
    {scored : List RankedCandidate} (h : rank c results = .ok scored) {x y : RankedCandidate}
    (hx : x ∈ topCandidates c scored) (hy : y ∈ scored) (hcut : y ∉ topCandidates c scored) :
    y.totalScore ≤ x.totalScore := by
  have hscores := rank_scores h
  have hsplit := List.take_append_drop (min c.maximumCandidates (qualifiedCount c scored)) scored
  rw [← hsplit, List.mem_append] at hy
  rw [← hsplit, List.pairwise_append] at hscores
  exact hscores.2.2 x hx y (hy.resolve_left hcut)

/-- What a run that succeeds has computed from its market, saved and recorded. -/
theorem succeeded_analysed (h : dailyRun config env invocation db = (.ok result, s))
    (hstatus : result.status = .succeeded) :
    ∃ inputs candidates scored row,
      loadInputs config.screening s.db.market invocation.tradingDate = .ok inputs ∧
      scan config.screening inputs = .ok candidates ∧
      rank config.screening candidates = .ok scored ∧
      result = .of (config.success (analysisOf config.screening inputs candidates scored)
        env.finishedAt row) ∧
      listEntries s.db.entries invocation.tradingDate =
        (analysisOf config.screening inputs candidates scored).ranked := by
  obtain ⟨record, rfl, hwork⟩ := dailyRun_succeeded h hstatus
  obtain ⟨⟨inputs, candidates, scored, hanalysed⟩, -⟩ := work_returns hwork
  obtain ⟨before, row, -, rfl, hlast⟩ := hanalysed.last
  have hranked : Ranked (analysisOf config.screening inputs candidates scored).ranked :=
    (rank_ranked hanalysed.ranked).2.sublist ((List.take_sublist _ _).trans List.filter_sublist)
  refine ⟨inputs, candidates, scored, row, hanalysed.loaded, hanalysed.passing, hanalysed.ranked,
    rfl, ?_⟩
  rw [hlast]
  exact listEntries_saved hranked (saveEntries_ranked _ _ hranked)

/-- A forced run reads the market that it is given. -/
theorem forced_market (h : dailyRun config env invocation db = (.ok result, s))
    (hstatus : result.status = .succeeded) (hforce : invocation.forceReanalysis = true) :
    s.db.market = db.market := by
  obtain ⟨record, -, hwork⟩ := dailyRun_succeeded h hstatus
  exact (work_returns hwork).2 hforce

/-- **The published watchlist.** A run that succeeds has saved the candidates of its
market that reach the minimum score, up to the maximum, in the order of their ranking,
with the counters that describe them. -/
theorem published_top (h : dailyRun config env invocation db = (.ok result, s))
    (hstatus : result.status = .succeeded) :
    ∃ inputs candidates scored,
      loadInputs config.screening s.db.market invocation.tradingDate = .ok inputs ∧
      scan config.screening inputs = .ok candidates ∧
      rank config.screening candidates = .ok scored ∧
      PublishedTop config.screening inputs candidates scored
        (listEntries s.db.entries invocation.tradingDate) result := by
  obtain ⟨inputs, candidates, scored, row, hinputs, hscan, hrank, rfl, hsaved⟩ :=
    succeeded_analysed h hstatus
  have hanalysis : analyze config.screening inputs =
      .ok (analysisOf config.screening inputs candidates scored) := by
    rw [analyze]
    exact bind_ok.mpr ⟨candidates, hscan, bind_ok.mpr ⟨scored, hrank, rfl⟩⟩
  have hcoherent := analyze_coherent hanalysis
  have hqualified : (analysisOf config.screening inputs candidates scored).qualifiedCount =
      qualifiedCount config.screening scored := List.countP_eq_length_filter.symm
  have hpersisted : (analysisOf config.screening inputs candidates scored).ranked.length =
      (topCandidates config.screening scored).length := by
    rw [analysisOf_ranked hrank]
  refine ⟨inputs, candidates, scored, hinputs, hscan, hrank, ?_⟩
  rw [hsaved, analysisOf_ranked hrank]
  exact {
    top := rfl
    ranks := topCandidates_ranks hrank
    qualified := fun x hx => topCandidates_qualified hrank hx
    best := fun x hx y hy hcut => topCandidates_best hrank hx hy hcut
    screened := rfl
    passing := rfl
    qualifying := congrArg some hqualified
    persisted := congrArg some hpersisted
    funnel := ⟨hpersisted ▸ hqualified ▸ hcoherent.persisted, hqualified ▸ hcoherent.qualified,
      hcoherent.candidates⟩ }

end Published

/-! ## A run with rivals -/

def columnsOf (bar : DailyBarRecord) : BarColumns :=
  ⟨bar.open, bar.high, bar.low, bar.close, bar.volume, "toss", none⟩

/-- One listed stock with the rising bars, and an earlier empty result of the day. -/
def risingTables : PipelineDb where
  market := ⟨Dict.empty.set "A" sampleStock,
    risingBars.foldl (fun bars bar => bars.set ("A", bar.tradingDate) (columnsOf bar)) Dict.empty,
    ⟨Dict.empty, Dict.empty⟩⟩
  executions := Dict.empty.set 101
    { newExecution 101 739824 .scheduled 0 with status := .succeeded, stage := .completed }
  entries := []

def risingReanalysis : Invocation := ⟨739824, .manualReanalysis, true⟩

/-- The reanalysis of the rising stock, which saves it. -/
def risingRun : Except PyException PipelineResult × RunState :=
  dailyRun sampleDaily (sampleEnv (some 101) none) risingReanalysis risingTables

/-- Three stocks with the rising bars, and one that trades half as much. -/
def rivals : List (Symbol × List DailyBarRecord) :=
  [("C", risingBars), ("D", risingBars.map fun bar => { bar with volume := bar.volume / 2 }),
    ("A", risingBars), ("B", risingBars)]

def rivalTables : PipelineDb where
  market := ⟨rivals.foldl (fun stocks rival => stocks.set rival.1 sampleStock) Dict.empty,
    rivals.foldl (fun bars rival => rival.2.foldl
      (fun bars bar => bars.set (rival.1, bar.tradingDate) (columnsOf bar)) bars) Dict.empty,
    ⟨Dict.empty, Dict.empty⟩⟩
  executions := risingTables.executions
  entries := []

def topTwo : SwingScreeningConfig :=
  ⟨{ SwingScreeningValues.defaults with maximumCandidates := 2 }, rfl⟩

def rivalDaily : DailyConfig := { sampleDaily with screening := topTwo }

def rivalRun : Except PyException PipelineResult × RunState :=
  dailyRun rivalDaily (sampleEnv (some 101) none) risingReanalysis rivalTables

/-- Four candidates, three of them with one score: the fourth does not qualify, and the
last symbol of the three is cut. -/
theorem published_top_sample :
    ∃ result, rivalRun.1 = .ok result ∧
      (result.candidateCount, result.qualifiedCount, result.persistedCount) =
        (some 4, some 3, some 2) ∧
      (listEntries rivalRun.2.db.entries 739824).map (fun c => (c.symbol, c.rank, c.totalScore)) =
        [("A", 1, 1653 / 20), ("B", 2, 1653 / 20)] ∧
      ∃ inputs candidates scored,
        loadInputs rivalDaily.screening rivalRun.2.db.market 739824 = .ok inputs ∧
        scan rivalDaily.screening inputs = .ok candidates ∧
        rank rivalDaily.screening candidates = .ok scored ∧
        PublishedTop rivalDaily.screening inputs candidates scored
          (listEntries rivalRun.2.db.entries 739824) result := by
  have hrun : rivalRun.1.toOption.map (fun result => (result.status, result.candidateCount,
        result.qualifiedCount, result.persistedCount)) =
        some (.succeeded, some 4, some 3, some 2) ∧
      (listEntries rivalRun.2.db.entries 739824).map (fun c => (c.symbol, c.rank, c.totalScore)) =
        [("A", 1, 1653 / 20), ("B", 2, 1653 / 20)] := by
    decide +kernel
  obtain ⟨result, hresult, hvalues⟩ := Option.map_eq_some_iff.mp hrun.1
  obtain ⟨hstatus, hcounts⟩ := Prod.mk.inj hvalues
  have hok := toOption_eq_some.mp hresult
  have hpair : rivalRun = (.ok result, rivalRun.2) := Prod.fst_eq_iff.mp hok
  have htop := published_top hpair hstatus
  exact ⟨result, hok, hcounts, hrun.2, htop⟩

end Screener.Market
