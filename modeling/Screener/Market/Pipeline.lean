import Screener.Lib.Dict
import Screener.Lib.Machine
import Screener.Market.Watchlist

/-!
# The daily watchlist pipeline

Any number of runs, of any dates, interleaved at their database steps. A run
acquires its date under a lock that `finish` does not take: it reads the running
row, reads the succeeded row, and then decides and writes. It then records its
stages one by one and finishes in one transaction with the save of its entries.
A run may stop for ever at any point.
-/

namespace Screener.Market

open Screener.Lib

abbrev ExecutionId := Nat

abbrev RunId := Nat

/-! ## Executions -/

inductive ExecutionStatus where
  | running
  | succeeded
  | failed
  | skipped
deriving DecidableEq, Repr

/-- `succeeded`, `failed` and `skipped` are final. -/
def ExecutionStatus.Finished (status : ExecutionStatus) : Prop := status ≠ .running

instance (status : ExecutionStatus) : Decidable status.Finished := by
  unfold ExecutionStatus.Finished; infer_instance

inductive PipelineStage where
  | resolvingTradingDate
  | duplicateCheck
  | marketSync
  | indicatorCalculation
  | screening
  | candidateScanning
  | candidateRanking
  | watchlistPersistence
  | completed
deriving DecidableEq, Repr

namespace PipelineStage

def value : PipelineStage → String
  | .resolvingTradingDate => "resolving_trading_date"
  | .duplicateCheck => "duplicate_check"
  | .marketSync => "market_sync"
  | .indicatorCalculation => "indicator_calculation"
  | .screening => "screening"
  | .candidateScanning => "candidate_scanning"
  | .candidateRanking => "candidate_ranking"
  | .watchlistPersistence => "watchlist_persistence"
  | .completed => "completed"

/-- The stage that a run enters after this one. -/
def next? : PipelineStage → Option PipelineStage
  | .marketSync => some .indicatorCalculation
  | .indicatorCalculation => some .screening
  | .screening => some .candidateScanning
  | .candidateScanning => some .candidateRanking
  | .candidateRanking => some .watchlistPersistence
  | _ => none

end PipelineStage

inductive TriggerType where
  | scheduled
  | manual
  | manualReanalysis
deriving DecidableEq, Repr

structure WatchlistPipelineExecution where
  id : ExecutionId
  tradingDate : Date
  triggerType : TriggerType
  status : ExecutionStatus
  stage : PipelineStage
  startedAt : Instant
  finishedAt : Option Instant
  screenedCount : Option Nat
  candidateCount : Option Nat
  qualifiedCount : Option Nat
  scoreThreshold : Option ℚ
  persistedCount : Option Nat
  skippedReason : Option String
  errorCode : Option String
  errorDetail : Option String
deriving DecidableEq, Repr

abbrev Executions := Dict ExecutionId WatchlistPipelineExecution

/-- What `where(trading_date, status).order_by(started_at.desc())` may return
first: no row where there is none, else one that started last. -/
def Executions.MayReturn (executions : Executions) (tradingDate : Date)
    (status : ExecutionStatus) (answer : Option ExecutionId) : Prop :=
  match answer.bind executions.get? with
  | none => answer = none ∧
      ∀ row ∈ executions.values, ¬ (row.tradingDate = tradingDate ∧ row.status = status)
  | some row => row.tradingDate = tradingDate ∧ row.status = status ∧
      ∀ other ∈ executions.values, other.tradingDate = tradingDate → other.status = status →
        other.startedAt ≤ row.startedAt

instance (executions : Executions) (tradingDate : Date) (status : ExecutionStatus)
    (answer : Option ExecutionId) : Decidable (executions.MayReturn tradingDate status answer) := by
  unfold Executions.MayReturn
  split <;> infer_instance

/-- The stale recovery of `acquire`; it writes the row it has read as running
without looking at it again. -/
def recovered (now : Instant) (row : WatchlistPipelineExecution) : WatchlistPipelineExecution :=
  { row with
    status := .failed
    finishedAt := some now
    errorCode := some "stale_execution_recovered"
    errorDetail := some "Execution exceeded stale timeout" }

/-- `finish` with `SUCCEEDED`, whatever the status it finds. -/
def finishedWith (now : Instant) (threshold : ℚ) (a : Analysis)
    (row : WatchlistPipelineExecution) : WatchlistPipelineExecution :=
  { row with
    status := .succeeded
    stage := .completed
    finishedAt := some now
    screenedCount := some a.screenedCount
    candidateCount := some a.candidateCount
    qualifiedCount := some a.qualifiedCount
    scoreThreshold := some threshold
    persistedCount := some a.ranked.length
    skippedReason := none
    errorCode := none
    errorDetail := none }

/-- `finish` with `FAILED`, whatever the status it finds. -/
def failedAt (now : Instant) (stage : PipelineStage) (exception : String)
    (row : WatchlistPipelineExecution) : WatchlistPipelineExecution :=
  { row with
    status := .failed
    stage := stage
    finishedAt := some now
    screenedCount := none
    candidateCount := none
    qualifiedCount := none
    scoreThreshold := none
    persistedCount := none
    skippedReason := none
    errorCode := some (stage.value ++ "_failed")
    errorDetail := some (String.ofList (exception.toList.take 200)) }

def newExecution (id : ExecutionId) (tradingDate : Date) (trigger : TriggerType) (now : Instant) :
    WatchlistPipelineExecution where
  id := id
  tradingDate := tradingDate
  triggerType := trigger
  status := .running
  stage := .duplicateCheck
  startedAt := now
  finishedAt := none
  screenedCount := none
  candidateCount := none
  qualifiedCount := none
  scoreThreshold := none
  persistedCount := none
  skippedReason := none
  errorCode := none
  errorDetail := none

/-! ## Acquisition -/

structure Invocation where
  tradingDate : Date
  trigger : TriggerType
  forceReanalysis : Bool
deriving DecidableEq, Repr

inductive AcquireStatus where
  | acquired
  | alreadyRunning
  | alreadyCompleted
  | priorSuccessRequired
deriving DecidableEq, Repr

def AcquireStatus.value : AcquireStatus → String
  | .acquired => "acquired"
  | .alreadyRunning => "already_running"
  | .alreadyCompleted => "already_completed"
  | .priorSuccessRequired => "prior_success_required"

/-- `ExecutionAcquireResult` without the row. -/
structure AcquireResult where
  status : AcquireStatus
  recoveredExecutionId : Option ExecutionId
deriving DecidableEq, Repr

/-- The decision of `acquire` on the two rows it has read; the running one with
the time at which it started. -/
def decideAcquire (staleAfter : Instant) (force : Bool) (running : Option (ExecutionId × Instant))
    (succeeded : Option ExecutionId) (now : Instant) : AcquireResult :=
  match running with
  | none =>
    if succeeded.isSome && !force then ⟨.alreadyCompleted, none⟩
    else if succeeded.isNone && force then ⟨.priorSuccessRequired, none⟩
    else ⟨.acquired, none⟩
  | some (id, startedAt) =>
    if now - staleAfter ≤ startedAt then ⟨.alreadyRunning, none⟩
    else if force && succeeded.isNone then ⟨.priorSuccessRequired, some id⟩
    else if !force && succeeded.isSome then ⟨.alreadyCompleted, some id⟩
    else ⟨.acquired, some id⟩

/-! ## Runs -/

/-- Where a run stands. `written` tells whether its current stage is recorded. -/
inductive Control where
  | waiting
  | locked
  | readRunning (running : Option (ExecutionId × Instant))
  | readBoth (running : Option (ExecutionId × Instant)) (succeeded : Option ExecutionId)
  | working (execution : ExecutionId) (stage : PipelineStage) (written : Bool)
  | skipped (reason : String)
  | finished (status : ExecutionStatus)
  | stopped
deriving DecidableEq, Repr

/-- The run holds the advisory lock of its date. -/
def Control.holdsLock : Control → Bool
  | .locked | .readRunning _ | .readBoth _ _ => true
  | _ => false

structure PipelineRun where
  invocation : Invocation
  control : Control
deriving DecidableEq, Repr

/-- `date.weekday()`: 0 is Monday. -/
def weekday (date : Date) : Nat := (date + 6) % 7

structure PipelineConfig where
  screening : SwingScreeningConfig
  staleAfter : Instant
  stalePositive : 0 < staleAfter

/-- The tables and the runs. `saved` records which analysis an execution has
persisted; no step reads it. -/
structure System where
  executions : Executions
  entries : List WatchlistEntryRecord
  runs : Dict RunId PipelineRun
  saved : Dict ExecutionId Analysis
deriving DecidableEq, Repr

inductive PipelineAction where
  | invoke (invocation : Invocation)
  | lock
  | readRunning (answer : Option ExecutionId)
  | readSucceeded (answer : Option ExecutionId)
  | acquire (now : Instant) (uuid4 : ExecutionId)
  | enterStage
  | setStage
  | succeed (now : Instant) (inputs : List ScanInput)
  | fail (now : Instant) (exception : String)
  | crash
deriving DecidableEq, Repr

namespace System

variable (s : System)

def setControl (run : RunId) (r : PipelineRun) (control : Control) : System :=
  { s with runs := s.runs.set run { r with control } }

def lockFree (tradingDate : Date) : Bool :=
  s.runs.values.all fun r => !(r.control.holdsLock && r.invocation.tradingDate = tradingDate)

/-- The first stage of a run's own work. -/
def firstStage (force : Bool) : PipelineStage :=
  if force then .indicatorCalculation else .marketSync

/-- The executions after the stale recovery, if the acquisition makes one. -/
def cleared (recoveredId : Option ExecutionId) (now : Instant) : Executions :=
  match recoveredId with
  | some id => s.executions.modify id (recovered now)
  | none => s.executions

/-- The writes of an acquisition: the recovery, then the new row. -/
def acquireWrites (result : AcquireResult) (invocation : Invocation) (now : Instant)
    (uuid4 : ExecutionId) : Executions :=
  if result.status = .acquired then
    (s.cleared result.recoveredExecutionId now).set uuid4
      (newExecution uuid4 invocation.tradingDate invocation.trigger now)
  else s.cleared result.recoveredExecutionId now

def acquireControl (result : AcquireResult) (invocation : Invocation) (uuid4 : ExecutionId) :
    Control :=
  match result.status with
  | .acquired => .working uuid4 (firstStage invocation.forceReanalysis) false
  | status => .skipped status.value

/-- One step of a run that is under way. -/
def advance (config : PipelineConfig) (run : RunId) (r : PipelineRun) :
    PipelineAction → Option System
  | .invoke _ => none
  | .lock =>
    if r.control = .waiting ∧ s.lockFree r.invocation.tradingDate then
      some (s.setControl run r .locked)
    else none
  | .readRunning answer =>
    if r.control = .locked ∧ s.executions.MayReturn r.invocation.tradingDate .running answer then
      some (s.setControl run r (.readRunning (answer.bind fun id =>
        (s.executions.get? id).map fun row => (id, row.startedAt))))
    else none
  | .readSucceeded answer =>
    match r.control with
    | .readRunning running =>
      if s.executions.MayReturn r.invocation.tradingDate .succeeded answer then
        some (s.setControl run r (.readBoth running answer))
      else none
    | _ => none
  | .acquire now uuid4 =>
    match r.control with
    | .readBoth running succeeded =>
      if uuid4 ∈ s.executions.keys then none
      else
        let result := decideAcquire config.staleAfter r.invocation.forceReanalysis running
          succeeded now
        some { s.setControl run r (acquireControl result r.invocation uuid4) with
          executions := s.acquireWrites result r.invocation now uuid4 }
    | _ => none
  | .enterStage =>
    match r.control with
    | .working id stage true => stage.next?.map fun next =>
      s.setControl run r (.working id next false)
    | _ => none
  | .setStage =>
    match r.control with
    | .working id stage false =>
      some { s.setControl run r (.working id stage true) with
        executions := s.executions.modify id fun row => { row with stage } }
    | _ => none
  | .succeed now inputs =>
    match r.control with
    | .working id .watchlistPersistence true =>
      match analyze config.screening inputs with
      | .error _ => none
      | .ok a =>
        match saveEntries s.entries r.invocation.tradingDate a.ranked with
        | .error _ => none
        | .ok entries => some { s.setControl run r (.finished .succeeded) with
            executions := s.executions.modify id
              (finishedWith now config.screening.minimumCandidateScore a)
            entries := entries
            saved := s.saved.set id a }
    | _ => none
  | .fail now exception =>
    match r.control with
    | .working id stage _ => some { s.setControl run r (.finished .failed) with
        executions := s.executions.modify id (failedAt now stage exception) }
    | _ => none
  | .crash => some (s.setControl run r .stopped)

/-- One step of the system; a new run begins by waiting, unless its date is a weekend. -/
def step (config : PipelineConfig) (run : RunId) (action : PipelineAction) : Option System :=
  match s.runs.get? run, action with
  | none, .invoke invocation =>
    some (s.setControl run ⟨invocation, .waiting⟩
      (if 5 ≤ weekday invocation.tradingDate then .skipped "weekend" else .waiting))
  | none, _ => none
  | some r, action => s.advance config run r action

/-- Before the first run; entries may be there from before executions were recorded. -/
def Initial : Prop := s.executions = Dict.empty ∧ s.runs = Dict.empty ∧ s.saved = Dict.empty

end System

def pipeline (config : PipelineConfig) : Machine System (RunId × PipelineAction) where
  init := System.Initial
  step s a t := s.step config a.1 a.2 = some t

end Screener.Market
