import Screener.Backtest.Independent
import Screener.Lib.Session

/-!
# The backtest service

A run is saved as pending and as running, executed, and saved once more as
completed or failed, all in the session of one request. Independent mode writes
its trades inside a savepoint, portfolio mode writes trades and snapshots
without one. What the database refuses, and why, is left to the environment.
-/

namespace Screener.Backtest

open Screener.Lib
open Screener.Market (Date Symbol DailyBarRecord)

/-! ## Runs -/

inductive BacktestResult where
  | independent (metrics : BacktestMetrics)
  | portfolio (metrics : PortfolioMetrics)
deriving DecidableEq, Repr

structure BacktestRun where
  id : UUID
  strategyName : String
  startDate : Date
  endDate : Date
  status : BacktestStatus
  strategyVersion : Option String
  parameters : Dict String Value
  result : Option BacktestResult
  failureCode : Option String
  failureMessage : Option String
deriving DecidableEq, Repr

def BacktestRun.request (run : BacktestRun) : RunRequest :=
  ⟨run.id, run.startDate, run.endDate, run.parameters⟩

/-- The exceptions of the service itself, beside the executor's. -/
inductive ServiceError where
  | execution (error : ExecutionError)
  | backtestRange (message : String)
  | valueError (message : String)
  | invalidTransition (current target : BacktestStatus)
deriving DecidableEq, Repr

def stripText (s : String) : String := String.ofList (DecimalText.strip s.toList)

namespace BacktestRun

def create (id : UUID) (strategyName : String) (startDate endDate : Date)
    (strategyVersion : Option String) (parameters : Dict String Value) :
    Except ServiceError BacktestRun :=
  if stripText strategyName = "" then .error (.valueError "strategy_name must not be blank")
  else if endDate < startDate then
    .error (.valueError "start_date must be on or before end_date")
  else
    .ok {
      id
      strategyName := stripText strategyName
      startDate
      endDate
      status := .pending
      strategyVersion := (strategyVersion.map stripText).filter (· ≠ "")
      parameters
      result := none
      failureCode := none
      failureMessage := none }

def requireStatus (run : BacktestRun) (current target : BacktestStatus) :
    Except ServiceError Unit :=
  if run.status = current then .ok () else .error (.invalidTransition run.status target)

def start (run : BacktestRun) : Except ServiceError BacktestRun := do
  run.requireStatus .pending .running
  return { run with status := .running }

def complete (run : BacktestRun) (result : BacktestResult) : Except ServiceError BacktestRun := do
  run.requireStatus .running .completed
  return { run with status := .completed, result := some result }

def fail (run : BacktestRun) (failureMessage : String) (failureCode : String) :
    Except ServiceError BacktestRun := do
  run.requireStatus .running .failed
  return { run with status := .failed, failureCode := some failureCode,
                    failureMessage := some failureMessage }

end BacktestRun

/-! ## Storage -/

/-- The three tables; the foreign keys of trades and snapshots hold by construction. -/
structure Tables where
  runs : Dict UUID BacktestRun
  trades : List BacktestTrade
  snapshots : List PortfolioSnapshot
  tradeRun : ∀ t ∈ trades, t.runId ∈ runs.keys
  snapshotRun : ∀ s ∈ snapshots, s.runId ∈ runs.keys

namespace Tables

def tradesOf (tables : Tables) (id : UUID) : List BacktestTrade :=
  tables.trades.filter (·.runId = id)

def snapshotsOf (tables : Tables) (id : UUID) : List PortfolioSnapshot :=
  tables.snapshots.filter (·.runId = id)

/-- `BacktestRepository.save`: update the run's row, or insert it. -/
def saveRun (tables : Tables) (run : BacktestRun) : Tables where
  runs := tables.runs.set run.id run
  trades := tables.trades
  snapshots := tables.snapshots
  tradeRun t ht := Dict.mem_keys_set.mpr (.inr (tables.tradeRun t ht))
  snapshotRun s hs := Dict.mem_keys_set.mpr (.inr (tables.snapshotRun s hs))

end Tables

/-- What a service call meets: the strategy's signals, the bars, the ids that are
drawn, and the reason, if any, for which the database refuses a batch of rows. -/
structure Environment where
  generated : BacktestRun → List BacktestSignal
  dailyBars : List DailyBarRecord
  uuid4 : Nat → UUID
  refusal : Tables → List BacktestTrade → List PortfolioSnapshot → Option String

variable (env : Environment)

def Tables.insertRows (tables : Tables) (trades : List BacktestTrade)
    (snapshots : List PortfolioSnapshot) : Except String Tables :=
  if h : (∀ t ∈ trades, t.runId ∈ tables.runs.keys) ∧ ∀ s ∈ snapshots, s.runId ∈ tables.runs.keys
  then match env.refusal tables trades snapshots with
    | some message => .error message
    | none => .ok {
        runs := tables.runs
        trades := tables.trades ++ trades
        snapshots := tables.snapshots ++ snapshots
        tradeRun := fun t ht => (List.mem_append.mp ht).elim (tables.tradeRun t) (h.1 t)
        snapshotRun := fun s hs => (List.mem_append.mp hs).elim (tables.snapshotRun s) (h.2 s) }
  else .error "violates foreign key constraint"

abbrev ServiceTransaction := Transaction Tables ServiceError

def save (run : BacktestRun) : ServiceTransaction Unit :=
  Transaction.flush fun tables => .ok (tables.saveRun run)

/-! ## Execution -/

def validateStrategyContract (strategyName : String) (strategyVersion : Option String) :
    Except ExecutionError (String × String) :=
  if stripText strategyName ≠ "watchlist_entry" ∨
      (strategyVersion.map stripText ≠ none ∧ strategyVersion.map stripText ≠ some "1") then
    .error (.unsupportedStrategy ("only strategy_name 'watchlist_entry' with strategy_version " ++
      "null or '1' is supported"))
  else .ok (stripText strategyName, "1")

def executionMode (run : BacktestRun) : Value :=
  run.parameters.getD "execution_mode" (.str "independent")

/-- What an executor writes, and the result it then returns or fails to compute. -/
structure Plan where
  trades : List BacktestTrade
  snapshots : List PortfolioSnapshot
  result : Except ExecutionError BacktestResult

/-- The executor up to its write, in the decimal context of its thread. -/
def plan (run : BacktestRun) : Except ExecutionError Plan := do
  let requested ← validateStrategyContract run.strategyName run.strategyVersion
  if requested ≠ ("watchlist_entry", "1") then
    throw (.unsupportedStrategy ("executor strategy 'watchlist_entry' version '1' " ++
      "does not match the requested strategy"))
  if executionMode run = .str "portfolio" then
    let x ← DecimalContext.default.executePortfolio run.request (env.generated run) env.dailyBars
      env.uuid4
    return ⟨x.ledger.trades, x.ledger.snapshots,
      (DecimalContext.default.summarizePortfolio x).map .portfolio⟩
  if executionMode run ≠ .str "independent" then
    throw (.invalidParameters "execution_mode must be independent or portfolio")
  let x ← DecimalContext.default.executeIndependent run.request (env.generated run) env.dailyBars
    env.uuid4
  return ⟨x.trades, [],
    (DecimalContext.default.calculateMetrics x.trades x.totalSignals x.p).map .independent⟩

def liftExecution {α : Type} (x : Except ExecutionError α) : ServiceTransaction α :=
  Transaction.lift (x.mapError .execution)

/-- `DatabaseBacktestExecutor.execute`: only independent mode opens a savepoint. -/
def execute (run : BacktestRun) : ServiceTransaction BacktestResult := do
  let planned ← liftExecution (plan env run)
  let write := Transaction.flush fun tables =>
    tables.insertRows env planned.trades planned.snapshots
  if executionMode run = .str "portfolio" then write else Transaction.nested write
  liftExecution planned.result

/-! ## The service call -/

def failureCode : Raised ServiceError → String
  | .app (.execution error) => error.failureCode
  | _ => "EXECUTION_FAILED"

def statusValue : BacktestStatus → String
  | .pending => "pending"
  | .running => "running"
  | .completed => "completed"
  | .failed => "failed"

/-- `str(exc)`. -/
def failureMessage : Raised ServiceError → String
  | .app (.execution error) => error.message
  | .app (.backtestRange message) | .app (.valueError message) => message
  | .app (.invalidTransition current target) =>
    "cannot transition from " ++ statusValue current ++ " to " ++ statusValue target
  | .rejected message => message
  | .pendingRollback => "This Session's transaction has been rolled back due to a previous " ++
    "exception during flush. To begin a new transaction with this Session, first issue " ++
    "Session.rollback()."

structure CreateRequest where
  strategyName : String
  startDate : Date
  endDate : Date
  strategyVersion : Option String
  parameters : Dict String Value

/-- The checks of `create` before anything is saved. -/
def newRun (maxRangeDays : ℤ) (id : UUID) (request : CreateRequest) :
    Except ServiceError BacktestRun := do
  let contract ← (validateStrategyContract request.strategyName request.strategyVersion).mapError
    .execution
  if (request.endDate : ℤ) - request.startDate > maxRangeDays then
    throw (.backtestRange ("date range cannot exceed " ++ toString maxRangeDays ++ " days"))
  BacktestRun.create id contract.1 request.startDate request.endDate contract.2 request.parameters

def create (maxRangeDays : ℤ) (id : UUID) (request : CreateRequest) :
    ServiceTransaction BacktestRun := do
  let run ← Transaction.lift (newRun maxRangeDays id request)
  save run
  let running ← Transaction.lift run.start
  save running
  match ← Transaction.attempt (execute env running) with
  | .error exc =>
    let failed ← Transaction.lift (running.fail (failureMessage exc) (failureCode exc))
    save failed
    return failed
  | .ok result =>
    let completed ← Transaction.lift (running.complete result)
    save completed
    return completed

/-- The service call in the session that `get_db_session` opens for its request. -/
def createRequest (maxRangeDays : ℤ) (id : UUID) (request : CreateRequest) (tables : Tables) :
    Except (Raised ServiceError) BacktestRun × Tables :=
  Transaction.request (create env maxRangeDays id request) tables

end Screener.Backtest
