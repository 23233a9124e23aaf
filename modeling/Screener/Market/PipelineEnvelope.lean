import Screener.Market.PipelineFinality

/-!
# The published result of a date

`GET /screener/results/{date}` shows the counts of the succeeded execution that
started last together with the entries that were saved last. The two belong
together as long as the executions of a date succeed in the order in which they
started and no recovery takes a success back.
-/

namespace Screener.Market

open Screener.Lib

variable {config : PipelineConfig} {s t : System} {run : RunId} {action : PipelineAction}

/-! ## The endpoint -/

structure ScreenerResultsResponse where
  executionId : Option ExecutionId
  tradingDate : Date
  screenedCount : Option Nat
  setupPassedCount : Option Nat
  scoreQualifiedCount : Option Nat
  scoreThreshold : Option ℚ
  resultCount : Option Nat
  items : List RankedCandidate
deriving DecidableEq, Repr

namespace System

/-- `WatchlistRepository.exists`. -/
def watchlistExists (s : System) (tradingDate : Date) : Bool :=
  s.executions.values.any (fun row => row.tradingDate = tradingDate ∧ row.status = .succeeded) ||
    (s.executions.values.isEmpty && s.entries.any (·.tradingDate = tradingDate))

/-- The response for the execution that `latest_succeeded` returns; `none` is 404. -/
def results (s : System) (tradingDate : Date) (latest : Option ExecutionId) :
    Option ScreenerResultsResponse :=
  let items := listEntries s.entries tradingDate
  match latest.bind s.executions.get? with
  | none =>
    if s.watchlistExists tradingDate then
      some {
        executionId := none
        tradingDate := tradingDate
        screenedCount := none
        setupPassedCount := none
        scoreQualifiedCount := none
        scoreThreshold := none
        resultCount := some items.length
        items := items }
    else none
  | some row =>
    some {
      executionId := some row.id
      tradingDate := row.tradingDate
      screenedCount := row.screenedCount
      setupPassedCount := row.candidateCount
      scoreQualifiedCount := row.qualifiedCount
      scoreThreshold := row.scoreThreshold
      resultCount := row.persistedCount
      items := items }

/-- The date and the start of a succeeded execution. -/
def succeededAt (s : System) (id : ExecutionId) : Option (Date × Instant) :=
  (s.executions.get? id).bind fun row =>
    if row.status = .succeeded then some (row.tradingDate, row.startedAt) else none

end System

/-- The response shows the analysis that the returned execution saved. -/
structure Describes (response : ScreenerResultsResponse) (a : Analysis) : Prop where
  items : response.items = a.ranked
  resultCount : response.resultCount = some response.items.length
  screened : response.screenedCount = some a.screenedCount
  setupPassed : response.setupPassedCount = some a.candidateCount
  scoreQualified : response.scoreQualifiedCount = some a.qualifiedCount

/-- Whatever execution `latest_succeeded` may return, the response is coherent. -/
def Published (s : System) : Prop :=
  ∀ tradingDate id, s.executions.MayReturn tradingDate .succeeded (some id) →
    ∃ response a, s.results tradingDate (some id) = some response ∧ s.saved.get? id = some a ∧
      a.Coherent ∧ Describes response a

/-! ## The order of the successes -/

/-- A success is of the execution that started last among the succeeded ones of its
date, and a recovery finds the row that it has read as running not succeeded since. -/
def InStartOrder (config : PipelineConfig) (s : System) (run : RunId) : PipelineAction → Prop
  | .succeed _ _ =>
    match (s.workingOn run).bind s.executions.get? with
    | none => True
    | some row => ∀ other ∈ s.executions.values, other.tradingDate = row.tradingDate →
        other.status = .succeeded → other.startedAt < row.startedAt
  | .acquire now _ =>
    match s.recovers config run now with
    | none => True
    | some id => s.statusOf id ≠ some .succeeded
  | _ => True

instance : Decidable (InStartOrder config s run action) := by
  unfold InStartOrder
  split <;> first | infer_instance | (split <;> infer_instance)

/-- The machine of the schedules all of whose steps are in start order. -/
def orderedPipeline (config : PipelineConfig) : Machine System (RunId × PipelineAction) :=
  (pipeline config).restrict fun s a => InStartOrder config s a.1 a.2

/-- The entries of a date are those of its succeeded executions that started last. -/
def LatestSaved (s : System) : Prop :=
  ∀ id date started, s.succeededAt id = some (date, started) →
    (∀ other started', s.succeededAt other = some (date, started') → started' ≤ started) →
    ∃ a, s.saved.get? id = some a ∧ listEntries s.entries date = a.ranked

theorem LatestSaved.of_same (hs : LatestSaved s) (hrows : ∀ id, t.succeededAt id = s.succeededAt id)
    (hentries : t.entries = s.entries) (hsaved : t.saved = s.saved) : LatestSaved t := by
  intro id date started hid hlast
  rw [hrows] at hid
  rw [hsaved, hentries]
  refine hs id date started hid fun other started' hother => ?_
  exact hlast other started' ((hrows other).trans hother)

theorem succeededAt_eq_none {id : ExecutionId} {row : WatchlistPipelineExecution}
    (hrow : s.executions.get? id = some row) (hstatus : row.status ≠ .succeeded) :
    s.succeededAt id = none := by
  rw [System.succeededAt, hrow, Option.bind_some, if_neg hstatus]

theorem succeededAt_eq_some {id : ExecutionId} {date : Date} {started : Instant} :
    s.succeededAt id = some (date, started) ↔
      ∃ row, s.executions.get? id = some row ∧ row.status = .succeeded ∧
        row.tradingDate = date ∧ row.startedAt = started := by
  rw [System.succeededAt, Option.bind_eq_some_iff]
  refine exists_congr fun row => and_congr_right fun _ => ?_
  by_cases hstatus : row.status = .succeeded
  · simp [hstatus]
  · simp [hstatus]

/-- A recovery that finds its row not succeeded leaves the successes alone. -/
theorem succeededAt_acquired {result : AcquireResult} {invocation : Invocation} {now : Instant}
    {uuid4 : ExecutionId} (hfresh : uuid4 ∉ s.executions.keys)
    (hrecovered : ∀ id, result.recoveredExecutionId = some id → s.statusOf id ≠ some .succeeded)
    (ht : t.executions = s.acquireWrites result invocation now uuid4) (id : ExecutionId) :
    t.succeededAt id = s.succeededAt id := by
  cases hrow : s.executions.get? id with
  | none =>
    rw [System.succeededAt, System.succeededAt, ht, get?_acquireWrites, hrow]
    split_ifs <;> rfl
  | some row =>
    rw [System.succeededAt, System.succeededAt, ht, get?_acquireWrites_old hfresh hrow, hrow]
    split_ifs with hid
    · have hstatus : row.status ≠ .succeeded := by
        intro heq
        exact hrecovered id hid (by rw [System.statusOf, hrow, Option.map_some, heq])
      simp [recovered, hstatus]
    · rfl

/-- A success of the execution that started last shows its own entries. -/
theorem LatestSaved.succeed (hlatest : LatestSaved s) {id : ExecutionId}
    {row : WatchlistPipelineExecution} {r : PipelineRun} {now : Instant} {inputs : List ScanInput}
    {a : Analysis} {entries : List WatchlistEntryRecord}
    (hrow : s.executions.get? id = some row) (hnot : row.status ≠ .succeeded)
    (hdate : row.tradingDate = r.invocation.tradingDate)
    (hearlier : ∀ other started, s.succeededAt other = some (row.tradingDate, started) →
      started < row.startedAt)
    (ha : analyze config.screening inputs = .ok a)
    (he : saveEntries s.entries r.invocation.tradingDate a.ranked = .ok entries) :
    LatestSaved { s.setControl run r (.finished .succeeded) with
      executions := s.executions.modify id
        (finishedWith now config.screening.minimumCandidateScore a)
      entries := entries
      saved := s.saved.set id a } := by
  intro other date started hother hlast
  have hnone := succeededAt_eq_none hrow hnot
  have hrows : ∀ other, System.succeededAt { s.setControl run r (.finished .succeeded) with
      executions := s.executions.modify id
        (finishedWith now config.screening.minimumCandidateScore a)
      entries := entries
      saved := s.saved.set id a } other =
      if other = id then some (row.tradingDate, row.startedAt) else s.succeededAt other := by
    intro other
    simp only [System.succeededAt, Dict.get?_modify]
    split_ifs with hid
    · simp [hrow, finishedWith]
    · rfl
  rw [hrows] at hother
  show ∃ a', (s.saved.set id a).get? other = some a' ∧ listEntries entries date = a'.ranked
  rw [Dict.get?_set]
  split_ifs at hother ⊢ with hid
  · obtain ⟨rfl, rfl⟩ := Prod.mk.inj (Option.some.inj hother)
    refine ⟨a, rfl, ?_⟩
    rw [hdate]
    exact listEntries_saved (analyze_coherent ha).ranked he
  · have hlate := hlast id row.startedAt
    rw [hrows, if_pos rfl] at hlate
    -- On the same date the new success started after all the others.
    have hne : date ≠ row.tradingDate := by
      rintro rfl
      exact absurd (hlate rfl) (not_le.mpr (hearlier other started hother))
    rw [listEntries_other (hdate ▸ hne) he]
    refine hlatest other date started hother fun another started' hanother => ?_
    have hid' : another ≠ id := by
      rintro rfl
      rw [hnone] at hanother
      cases hanother
    exact hlast another started' (by rw [hrows, if_neg hid', hanother])

theorem latestSaved_step (hs : WellFormed s) (hlatest : LatestSaved s)
    (horder : InStartOrder config s run action) (h : s.step config run action = some t) :
    LatestSaved t := by
  cases step_stepped h with
  | quiet r control _ _ => exact hlatest.of_same (fun _ => rfl) rfl rfl
  | acquire hr hcontrol hfresh =>
    refine hlatest.of_same (succeededAt_acquired hfresh ?_ rfl) rfl rfl
    intro id hid
    simp only [InStartOrder, recovers_eq hr hcontrol, hid] at horder
    exact horder
  | @setStage r id stage hr hcontrol =>
    refine hlatest.of_same (fun other => ?_) rfl rfl
    simp only [System.succeededAt, Dict.get?_modify]
    split_ifs with hother
    · subst hother
      cases s.executions.get? other <;> rfl
    · rfl
  | fail hr hcontrol =>
    obtain ⟨row, hrow, hnot, -⟩ := hs.working hr hcontrol
    refine hlatest.of_same (fun other => ?_) rfl rfl
    simp only [System.succeededAt, Dict.get?_modify]
    split_ifs with hother
    · subst hother
      simp [hrow, hnot, failedAt]
    · rfl
  | succeed hr hcontrol ha he =>
    obtain ⟨row, hrow, hnot, hdate⟩ := hs.working hr hcontrol
    rw [InStartOrder, workingOn_eq hr hcontrol, Option.bind_some, hrow] at horder
    refine hlatest.succeed hrow hnot hdate ?_ ha he
    intro other started hother
    obtain ⟨old, hold, hstatus, hsame, rfl⟩ := succeededAt_eq_some.mp hother
    exact horder old (Dict.mem_values.mpr ⟨other, hold⟩) hsame hstatus

theorem orderedPipeline_latestSaved (h : (orderedPipeline config).Reachable s) : LatestSaved s := by
  refine h.invariant ?_ ?_
  · rintro s ⟨hexecutions, -, -⟩ id date started hid
    rw [System.succeededAt, hexecutions, Dict.get?_empty] at hid
    cases hid
  · intro s a t hreachable hs hst
    exact latestSaved_step (reachable_wellFormed hreachable.of_restrict) hs hst.1 hst.2

/-- **The published envelope.** In every state that steps in start order reach, the
response for a date with a succeeded execution shows the entries and the counts
of one analysis, the one saved by the execution that is returned. -/
theorem published_in_order (h : (orderedPipeline config).Reachable s) : Published s := by
  intro tradingDate id hreturned
  have hlatest := orderedPipeline_latestSaved h
  have hs := reachable_wellFormed h.of_restrict
  unfold Executions.MayReturn at hreturned
  cases hrow : s.executions.get? id with
  | none => simp [hrow] at hreturned
  | some row =>
    simp only [Option.bind_some, hrow] at hreturned
    obtain ⟨rfl, hstatus, hmax⟩ := hreturned
    have hid : s.succeededAt id = some (row.tradingDate, row.startedAt) :=
      succeededAt_eq_some.mpr ⟨row, hrow, hstatus, rfl, rfl⟩
    have hresults : s.results row.tradingDate (some id) =
        some ⟨some row.id, row.tradingDate, row.screenedCount, row.candidateCount,
          row.qualifiedCount, row.scoreThreshold, row.persistedCount,
          listEntries s.entries row.tradingDate⟩ := by
      rw [System.results, Option.bind_some, hrow]
    have hlast : ∀ other started, s.succeededAt other = some (row.tradingDate, started) →
        started ≤ row.startedAt := by
      intro other started hother
      obtain ⟨old, hold, hsucceeded, hdate, rfl⟩ := succeededAt_eq_some.mp hother
      exact hmax old (Dict.mem_values.mpr ⟨other, hold⟩) hdate hsucceeded
    obtain ⟨a, ha, hitems⟩ := hlatest id row.tradingDate row.startedAt hid hlast
    obtain ⟨a', ha', hcoherent, hcounted⟩ := hs.counted id row hrow hstatus
    have hsame : a' = a := Option.some.inj (ha'.symm.trans ha)
    subst hsame
    have hcount : row.persistedCount = some (listEntries s.entries row.tradingDate).length := by
      rw [hcounted.persisted, hitems]
    exact ⟨_, a', hresults, ha, hcoherent, hitems, hcount, hcounted.screened,
      hcounted.candidates, hcounted.qualified⟩

/-! ## Two executions of one date -/

/-- Take steps that are checked to be in start order. -/
def System.orderedSchedule (config : PipelineConfig) :
    System → List (RunId × PipelineAction) → Option System :=
  Machine.follow fun s a =>
    if InStartOrder config s a.1 a.2 then s.step config a.1 a.2 else none

theorem orderedSchedule_reachable {actions : List (RunId × PipelineAction)}
    (h : emptySystem.orderedSchedule config actions = some t) :
    (orderedPipeline config).Reachable t := by
  refine Machine.reachable_of_follow ?_ emptySystem_initial h
  intro s a u hst
  split_ifs at hst with horder
  exact ⟨horder, hst⟩

def risingBar (day : Nat) (close : ℚ) (volume : ℤ) : DailyBarRecord :=
  ⟨"A", day + 739764, close, close + 200, close - 200, close, volume⟩

/-- A stock that passes as a pullback on the Monday, with a score above 80. -/
def risingBars : List DailyBarRecord :=
  (List.range 41).map (fun k => risingBar k 7000 800000) ++
    (List.range 13).map (fun k => risingBar (k + 41) 9600 800000) ++
    [risingBar 54 10000 800000] ++
    (List.range 5).map (fun k => risingBar (k + 55) 9400 300000) ++
    [⟨"A", 739824, 9250, 9600, 9200, 9500, 800000⟩]

def rising : ScanInput := ⟨"A", risingBars, snapshotOf risingBars⟩

/-- A run that succeeds in time, with one entry. -/
theorem published_in_order_sample :
    ∃ s, (orderedPipeline defaultPipeline).Reachable s ∧
      s.executions.MayReturn 739824 .succeeded (some 101) ∧ Published s := by
  have hdone : (emptySystem.orderedSchedule defaultPipeline
      (slowRun ++ [(1, .succeed 60000000 [rising])])).map (fun s =>
        decide (s.executions.MayReturn 739824 .succeeded (some 101))) = some true := by
    decide +kernel
  obtain ⟨s, hs, hreturned⟩ := Option.map_eq_some_iff.mp hdone
  have hreachable : (orderedPipeline defaultPipeline).Reachable s :=
    orderedSchedule_reachable hs
  exact ⟨s, hreachable, of_decide_eq_true hreturned, published_in_order hreachable⟩

/-- Run 2 recovers the row of run 1 and publishes an empty result; run 1 then
finishes late and replaces the entries with its own. The response still comes
from run 2, which started last: it counts none and shows one. -/
theorem late_success_replaces_entries :
    ∃ s response, (pipeline defaultPipeline).Reachable s ∧
      s.executions.MayReturn 739824 .succeeded (some 102) ∧
      s.results 739824 (some 102) = some response ∧
      response.resultCount = some 0 ∧ response.items.length = 1 ∧ ¬ Published s := by
  have hlate : (emptySystem.schedule defaultPipeline
      (slowRun ++ reads 2 (some 101) none ++ [(2, .acquire 8000000000 102)] ++ works 2 ++
        [(2, .succeed 8060000000 []), (1, .succeed 8100000000 [rising])])).bind (fun s =>
          (s.results 739824 (some 102)).map fun response =>
            (decide (s.executions.MayReturn 739824 .succeeded (some 102)),
              response.resultCount, response.items.length)) = some (true, some 0, 1) := by
    decide +kernel
  obtain ⟨s, hs, hresponse⟩ := Option.bind_eq_some_iff.mp hlate
  obtain ⟨response, hresults, hvalues⟩ := Option.map_eq_some_iff.mp hresponse
  simp only [Prod.mk.injEq, decide_eq_true_eq] at hvalues
  obtain ⟨hreturned, hcount, hlength⟩ := hvalues
  refine ⟨s, response, schedule_reachable hs, hreturned, hresults, hcount, hlength, ?_⟩
  intro hpublished
  obtain ⟨response', a, hresults', -, -, hdescribes⟩ := hpublished 739824 102 hreturned
  have hsame : response' = response := Option.some.inj (hresults'.symm.trans hresults)
  have hcounts := hdescribes.resultCount
  rw [hsame, hcount, hlength] at hcounts
  cases hcounts

end Screener.Market
