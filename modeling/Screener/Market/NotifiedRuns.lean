import Screener.Market.Notifications

/-!
# Runs and what is told of them

The pipeline that the application runs announces the end of a run to every provider. The
announcement comes last: the message of a success counts the entries that readers find by then,
and that of a failure is posted only where they find the entries of before.
-/

namespace Screener.Market

open Screener.Lib SlackNotificationProvider

/-! ## The notifying pipeline -/

/-- `NotificationService.publish`: `gather` keeps the exception of a delivery as its result. -/
def publishAll (providers : List SlackNotificationProvider) (answers : Nat → Nat → PostOutcome)
    (event : NotificationEvent) : List (Option Delivery) :=
  providers.mapIdx fun i provider => provider.publish (answers i) event

/-- The event of a result, where its status has one. -/
def PipelineResult.event (result : PipelineResult) : Option NotificationEvent :=
  let event type : NotificationEvent :=
    ⟨type, result.tradingDate, result.executionId, result.persistedCount, result.errorCode⟩
  match result.status with
  | .succeeded => some (event .watchlistPublished)
  | .failed => some (event .watchlistFailed)
  | .running => none
  | .skipped => none

structure NotifiedRun where
  result : Except PyException PipelineResult
  state : RunState
  deliveries : List (Option Delivery)

/-- `NotificationPublishingPipeline.run`; `answers i` are those to the posts of provider `i`. -/
def notifyingRun (providers : List SlackNotificationProvider) (answers : Nat → Nat → PostOutcome)
    (config : DailyConfig) (env : RunEnv) (invocation : Invocation) (db : PipelineDb) :
    NotifiedRun :=
  match dailyRun config env invocation db with
  | (.error exc, s) => ⟨.error exc, s, []⟩
  | (.ok result, s) =>
    match result.event with
    | none => ⟨.ok result, s, []⟩
    | some event => ⟨.ok result, s, publishAll providers answers event⟩

/-! ## The truth of a message -/

variable {config : DailyConfig} {env : RunEnv} {invocation : Invocation} {db : PipelineDb}

variable {providers : List SlackNotificationProvider} {answers : Nat → Nat → PostOutcome}

theorem notifyingRun_event {result : PipelineResult} {s : RunState} {event : NotificationEvent}
    (hrun : dailyRun config env invocation db = (.ok result, s))
    (hevent : result.event = some event) :
    notifyingRun providers answers config env invocation db =
      ⟨.ok result, s, publishAll providers answers event⟩ := by
  rw [notifyingRun, hrun]
  dsimp only
  rw [hevent]

theorem notifyingRun_no_event {result : PipelineResult} {s : RunState}
    (hrun : dailyRun config env invocation db = (.ok result, s)) (hevent : result.event = none) :
    notifyingRun providers answers config env invocation db = ⟨.ok result, s, []⟩ := by
  rw [notifyingRun, hrun]
  dsimp only
  rw [hevent]

/-- What the database of `s` and its history say of the run on `target` is what `text` tells. -/
inductive Told (config : PipelineConfig) (before : PipelineDb) (id : ExecutionId) (target : Date)
    (s : RunState) : String → Prop
  | published (h : SucceededRun config before id target s) : Told config before id target s
      ("Watchlist published for " ++ CivilDate.isoformat target ++ ": " ++
        toString (s.db.entries.filter (·.tradingDate = target)).length ++ " candidates")
  | failed (step : RunStep) (h : FailedRun before id target step s) : Told config before id target s
      ("Watchlist pipeline failed for " ++ CivilDate.isoformat target ++ ": " ++
        (step.stage.value ++ "_failed"))

theorem stageFailed_ne_empty (stage : PipelineStage) : stage.value ++ "_failed" ≠ "" := by
  cases stage <;> decide

/-- The entries of a date that a save has written. -/
theorem entries_published {config : PipelineConfig} {id : ExecutionId} {target : Date}
    {a : Analysis}
    {now : PipelineDb} :
    ((published config env id target a now).entries.filter (·.tradingDate = target)).length =
      a.ranked.length := by
  have hothers : (now.entries.filter (·.tradingDate ≠ target)).filter
      (·.tradingDate = target) = [] := by
    rw [List.filter_filter, List.filter_eq_nil_iff]
    intro entry _
    simp
  have hown : (a.ranked.map (WatchlistEntryRecord.mk target)).filter (·.tradingDate = target) =
      a.ranked.map (WatchlistEntryRecord.mk target) := by
    rw [List.filter_eq_self]
    intro entry hentry
    obtain ⟨candidate, -, rfl⟩ := List.mem_map.mp hentry
    exact decide_eq_true rfl
  rw [published, List.filter_append, hothers, hown, List.nil_append, List.length_map]

/-- A run at work ends with a result that has an event, and its message is true. -/
theorem dailyRun_told (hanswers : env.Answers invocation db.executions)
    (hweekday : weekday invocation.tradingDate < 5)
    (hgranted : (acquisition config env invocation db).status = .acquired) :
    ∃ result event s, dailyRun config env invocation db = (.ok result, s) ∧
      result.event = some event ∧
      Told config.toPipelineConfig db env.reads.uuid4 invocation.tradingDate s event.text := by
  have hwork := atWork_working hgranted
  rw [dailyRun_acquired hweekday hgranted]
  cases hrun : (work config env env.reads.uuid4 invocation.tradingDate
      invocation.forceReanalysis).run (atWork config env invocation db) with
  | ok record s =>
    obtain ⟨market, inputs, a, hinputs, hanalysis, hcompleted⟩ := work_completed.of_ok hwork hrun
    obtain ⟨stage, rfl⟩ := hcompleted.written
    obtain ⟨now, -, hlast⟩ := hcompleted.last
    refine ⟨_, _, s, rfl, rfl, ?_⟩
    have htold := Told.published (hcompleted.succeededRun hanswers hinputs hanalysis)
    rw [hlast, entries_published] at htold
    exact htold
  | error raised s =>
    obtain ⟨step, exc⟩ := raised
    have hraises := work_completed.of_error hwork hrun
    have hfailed : FailedRun db env.reads.uuid4 invocation.tradingDate step
        (recordFailure env env.reads.uuid4 exc s).2 := recordFailure_failed hanswers hraises
    obtain ⟨stage, hown⟩ := hraises.db.own
    have hstage : s.stage = step.stage := hraises.stage
    simp only [recordFailure, hown] at hfailed ⊢
    refine ⟨_, _, _, rfl, rfl, ?_⟩
    have htext := text_failed invocation.tradingDate (some env.reads.uuid4) none
      (stageFailed_ne_empty s.stage)
    refine htext.symm ▸ ?_
    rw [hstage] at hfailed ⊢
    exact Told.failed step hfailed

/-- A run that is skipped has no event. -/
theorem dailyRun_untold
    (hskipped : ¬(weekday invocation.tradingDate < 5 ∧
      (acquisition config env invocation db).status = .acquired)) :
    ∃ result s, dailyRun config env invocation db = (.ok result, s) ∧ result.event = none := by
  rw [dailyRun]
  by_cases hweekend : 5 ≤ weekday invocation.tradingDate
  · rw [if_pos hweekend]
    exact ⟨_, _, rfl, rfl⟩
  · have hdenied : (acquisition config env invocation db).status ≠ .acquired :=
      fun hgranted => hskipped ⟨not_le.mp hweekend, hgranted⟩
    rw [if_neg hweekend]
    dsimp only
    rw [if_pos hdenied]
    exact ⟨_, _, rfl, rfl⟩

/-! ## The announcement -/

/-- Every provider has posted `text`, up to an attempt that ends its delivery. -/
structure Announced (providers : List SlackNotificationProvider)
    (answers : Nat → Nat → PostOutcome) (text : String) (deliveries : List (Option Delivery)) :
    Prop where
  length : deliveries.length = providers.length
  posted : ∀ i provider, providers[i]? = some provider → ∃ d last,
    deliveries[i]? = some (some d) ∧ PostedUntil provider (answers i) text last d

theorem publishAll_announced (providers : List SlackNotificationProvider)
    (answers : Nat → Nat → PostOutcome) (event : NotificationEvent) :
    Announced providers answers event.text (publishAll providers answers event) := by
  refine ⟨List.length_mapIdx, ?_⟩
  intro i provider hprovider
  obtain ⟨d, hpublish, last, hposted⟩ := publish_posted provider (answers i) event
  refine ⟨d, last, ?_, hposted⟩
  rw [publishAll, List.getElem?_mapIdx, hprovider, Option.map_some, hpublish]

/-- **Announcements are true and harm no run.** Whatever the posts meet, the run ends as it does
without them. A run that has acquired its date is announced once by every provider, all of them
with one message, and what readers find by then is what it tells; any other run posts nothing. -/
theorem runs_announced (providers : List SlackNotificationProvider)
    (answers : Nat → Nat → PostOutcome) (hanswers : env.Answers invocation db.executions) :
    let run := notifyingRun providers answers config env invocation db
    (run.result, run.state) = dailyRun config env invocation db ∧
      (weekday invocation.tradingDate < 5 ∧
          (acquisition config env invocation db).status = .acquired →
        ∃ text, Told config.toPipelineConfig db env.reads.uuid4 invocation.tradingDate run.state
          text ∧ Announced providers answers text run.deliveries) ∧
      (¬(weekday invocation.tradingDate < 5 ∧
          (acquisition config env invocation db).status = .acquired) → run.deliveries = []) := by
  by_cases hacquired : weekday invocation.tradingDate < 5 ∧
      (acquisition config env invocation db).status = .acquired
  · obtain ⟨result, event, s, hrun, hevent, htold⟩ :=
      dailyRun_told hanswers hacquired.1 hacquired.2
    dsimp only
    rw [notifyingRun_event hrun hevent, hrun]
    exact ⟨rfl, fun _ => ⟨_, htold, publishAll_announced providers answers event⟩,
      fun hskipped => absurd hacquired hskipped⟩
  · obtain ⟨result, s, hrun, hevent⟩ := dailyRun_untold hacquired
    dsimp only
    rw [notifyingRun_no_event hrun hevent, hrun]
    exact ⟨rfl, fun hgranted => absurd hgranted hacquired, fun _ => rfl⟩

/-! A last commit that fails, told to a channel that is busy at first. -/

def busyAtFirst (_ attempt : Nat) : PostOutcome :=
  if attempt = 0 then .response 503 else .response 200

theorem runs_announced_failed :
    let env := sampleEnv (some 101) (some offline)
    let text := "Watchlist pipeline failed for 2026-08-03: watchlist_persistence_failed"
    let run := notifyingRun [{}] busyAtFirst sampleDaily env sampleReanalysis sampleTables
    run.deliveries = [some ⟨[(text, .response 503), (text, .response 200)], [1 / 4], none⟩] ∧
      (run.result, run.state) = dailyRun sampleDaily env sampleReanalysis sampleTables ∧
      ∃ text, Told sampleDaily.toPipelineConfig sampleTables 102 sampleMonday run.state text ∧
        Announced [{}] busyAtFirst text run.deliveries := by
  have hanswers : (sampleEnv (some 101) (some offline)).Answers sampleReanalysis
      sampleTables.executions := by
    unfold RunEnv.Answers
    decide +kernel
  obtain ⟨hsame, hannounced, -⟩ := @runs_announced sampleDaily _ _ _ [{}] busyAtFirst hanswers
  exact ⟨by decide +kernel, hsame, hannounced ⟨by decide, rfl⟩⟩

end Screener.Market
