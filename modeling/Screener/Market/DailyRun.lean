import Screener.Lib.Session
import Screener.Market.ExecutionOwnership
import Screener.Market.Sync

/-!
# One run of the daily watchlist pipeline

A run from its acquisition to its result, over the tables that it reads and
writes: the synchronization, the batch of scan inputs, the analysis and the
transaction that finishes the execution and replaces the entries. Every session
of the run may raise. `visible` keeps what others could see of the database, one
entry for each session that has ended.
-/

namespace Screener.Market

open Screener.Lib

structure PipelineDb where
  market : MarketDb
  executions : Executions
  entries : List WatchlistEntryRecord

/-! ## What readers see -/

/-- The dates of the succeeded executions. -/
def Executions.succeededDates (executions : Executions) : List Date :=
  (executions.values.filter (·.status = .succeeded)).map (·.tradingDate)

theorem Executions.mem_succeededDates {executions : Executions} {date : Date} :
    date ∈ executions.succeededDates ↔ ∃ id row, executions.get? id = some row ∧
      row.tradingDate = date ∧ row.status = .succeeded := by
  rw [succeededDates, List.mem_map]
  constructor
  · intro ⟨row, hrow, hdate⟩
    obtain ⟨hvalue, hstatus⟩ := List.mem_filter.mp hrow
    obtain ⟨id, hid⟩ := Dict.mem_values.mp hvalue
    exact ⟨id, row, hid, hdate, of_decide_eq_true hstatus⟩
  · intro ⟨id, row, hrow, hdate, hstatus⟩
    exact ⟨row, List.mem_filter.mpr ⟨Dict.mem_values.mpr ⟨id, hrow⟩, decide_eq_true hstatus⟩, hdate⟩

/-- Distinct dates, the newest first. -/
def newestFirst (dates : List Date) : List Date := dates.dedup.insertionSort (· ≥ ·)

namespace PipelineDb

variable (db : PipelineDb)

/-- The date of `latest`; entries without any execution are from before executions
were recorded. -/
def latestDate? : Option Date :=
  match db.executions.succeededDates.max? with
  | some date => some date
  | none => if db.executions.keys = [] then (db.entries.map (·.tradingDate)).max? else none

/-- `WatchlistRepository.latest`. -/
def latest : List RankedCandidate :=
  match db.latestDate? with
  | some date => listEntries db.entries date
  | none => []

/-- `WatchlistRepository.history`. -/
def history : List Date :=
  if db.executions.succeededDates = [] ∧ db.executions.keys = [] then
    newestFirst (db.entries.map (·.tradingDate))
  else newestFirst db.executions.succeededDates

end PipelineDb

/-! ## The scan inputs -/

/-- The symbols of the eligible stocks, in order. -/
def StockTable.eligible (stocks : StockTable) : List Symbol :=
  (stocks.keysWhere fun stock => decide stock.Eligible).insertionSort (· ≤ ·)

/-- The symbol is that of an active listed KOSPI common stock. -/
def StockTable.IsEligible (stocks : StockTable) (symbol : Symbol) : Prop :=
  ∃ stock, stocks.get? symbol = some stock ∧ stock.Eligible

theorem StockTable.mem_eligible {stocks : StockTable} {symbol : Symbol} :
    symbol ∈ stocks.eligible ↔ stocks.IsEligible symbol := by
  rw [eligible, List.mem_insertionSort, Dict.mem_keysWhere]
  exact exists_congr fun stock => and_congr_right fun _ => decide_eq_true_iff

def BarColumns.record (columns : BarColumns) (symbol : Symbol) (date : Date) : DailyBarRecord :=
  ⟨symbol, date, columns.open, columns.high, columns.low, columns.close, columns.volume⟩

/-- The rows of a symbol up to a date, by date. -/
def barsUpTo (bars : BarTable) (target : Date) (symbol : Symbol) : List DailyBarRecord :=
  ((bars.entries.filter fun entry => entry.1.1 = symbol ∧ entry.1.2 ≤ target).map fun entry =>
    entry.2.record entry.1.1 entry.1.2).insertionSort fun a b => a.tradingDate ≤ b.tradingDate

theorem mem_barsUpTo {bars : BarTable} {target : Date} {symbol : Symbol} {row : DailyBarRecord} :
    row ∈ barsUpTo bars target symbol ↔
      (∃ columns, bars.get? (symbol, row.tradingDate) = some columns ∧
        columns.record symbol row.tradingDate = row) ∧ row.tradingDate ≤ target := by
  rw [barsUpTo, List.mem_insertionSort, List.mem_map]
  simp only [List.mem_filter, decide_eq_true_eq]
  constructor
  · rintro ⟨⟨⟨other, date⟩, columns⟩, ⟨hentry, rfl, hdate⟩, rfl⟩
    exact ⟨⟨columns, Dict.get?_eq_some.mpr hentry, rfl⟩, hdate⟩
  · rintro ⟨⟨columns, hcolumns, hrow⟩, hdate⟩
    exact ⟨_, ⟨Dict.get?_eq_some.mp hcolumns, rfl, hdate⟩, hrow⟩

/-- The domain model of a row. -/
def validatedBar (row : DailyBarRecord) : Except PyException DailyBarRecord :=
  if row.NonNegative ∧ row.ValidOhlc then .ok row
  else .error ⟨"ValidationError", "validation error for DailyBar"⟩

/-- The rows of the query by symbol: the most recent ones of each eligible stock. -/
def groupedBars (c : SwingScreeningConfig) (market : MarketDb) (target : Date) :
    List (Symbol × List DailyBarRecord) :=
  market.stocks.eligible.map fun symbol =>
    (symbol, trailing c.minimumHistoryBars (barsUpTo market.bars target symbol))

/-- The last bar of a group is dated on the target. -/
def endsOn (target : Date) (bars : List DailyBarRecord) : Bool :=
  bars.getLast?.any (·.tradingDate = target)

/-- `_inputs`. -/
def loadInputs (c : SwingScreeningConfig) (market : MarketDb) (target : Date) :
    Except PyException (List ScanInput) := do
  let grouped ← (groupedBars c market target).mapM fun group => do
    let bars ← group.2.mapM validatedBar
    return (group.1, bars)
  (grouped.filter fun group => endsOn target group.2).mapM fun group => do
    let indicators ← (calculate group.2).mapError valueError
    return ⟨group.1, group.2, indicators⟩

/-! ## What a run meets -/

structure DailyConfig extends PipelineConfig where
  bars : BarSyncConfig

def PipelineConfig.acquireCall (config : PipelineConfig) (invocation : Invocation) : AcquireCall :=
  ⟨invocation.tradingDate, invocation.trigger, config.staleAfter, invocation.forceReanalysis⟩

/-- The points at which a run may raise. -/
inductive RunStep where
  | recordStage (stage : PipelineStage)
  | syncAll
  | loadInputs
  | scan
  | rank
  | persist
deriving DecidableEq, Repr

def RunStep.stage : RunStep → PipelineStage
  | .recordStage stage => stage
  | .syncAll => .marketSync
  | .loadInputs => .indicatorCalculation
  | .scan => .candidateScanning
  | .rank => .candidateRanking
  | .persist => .watchlistPersistence

/-- The statements of the last transaction that are refused, and its commit. -/
structure PersistFaults where
  finish : Option String := none
  delete : Option String := none
  insert : Option String := none
  commit : Option PyException := none

/-- The answers of the acquisition, the clocks and the provider, and what raises
beside the program's own errors. -/
structure RunEnv where
  reads : AcquireReads
  startedAt : Instant
  finishedAt : Instant
  stocks : StockSyncEnv
  stocksClock : RunClock
  bars : BarSyncEnv
  barsClock : RunClock
  faults : RunStep → Option PyException := fun _ => none
  statements : PersistFaults := {}

/-- The answers are those of the tables that the acquisition reads. -/
def RunEnv.Answers (env : RunEnv) (invocation : Invocation) (executions : Executions) : Prop :=
  executions.MayReturn invocation.tradingDate .running env.reads.running ∧
    executions.MayReturn invocation.tradingDate .succeeded env.reads.succeeded ∧
    env.reads.uuid4 ∉ executions.keys

structure PipelineResult where
  executionId : Option ExecutionId
  tradingDate : Date
  status : ExecutionStatus
  startedAt : Instant
  finishedAt : Option Instant
  stage : PipelineStage
  screenedCount : Option Nat
  candidateCount : Option Nat
  qualifiedCount : Option Nat
  scoreThreshold : Option ℚ
  persistedCount : Option Nat
  skippedReason : Option String
  errorCode : Option String
  triggerType : Option TriggerType
deriving DecidableEq, Repr

/-- `_result`. -/
def PipelineResult.of (record : WatchlistPipelineExecution) : PipelineResult where
  executionId := some record.id
  tradingDate := record.tradingDate
  status := record.status
  startedAt := record.startedAt
  finishedAt := record.finishedAt
  stage := record.stage
  screenedCount := record.screenedCount
  candidateCount := record.candidateCount
  qualifiedCount := record.qualifiedCount
  scoreThreshold := record.scoreThreshold
  persistedCount := record.persistedCount
  skippedReason := record.skippedReason
  errorCode := record.errorCode
  triggerType := some record.triggerType

def skippedResult (env : RunEnv) (invocation : Invocation) (stage : PipelineStage)
    (reason : String) : PipelineResult :=
  ⟨none, invocation.tradingDate, .skipped, env.startedAt, some env.finishedAt, stage, none, none,
    none, none, none, some reason, none, none⟩

/-! ## The steps -/

/-- The database, what has been visible of it, and the variable `stage`. -/
structure RunState where
  db : PipelineDb
  visible : List PipelineDb
  stage : PipelineStage

def RunState.publish (s : RunState) (db : PipelineDb) : RunState :=
  { s with db, visible := s.visible ++ [db] }

/-- A program of the run; an exception is named with the step that has raised it. -/
abbrev RunProgram := EStateM (RunStep × PyException) RunState

def lookupError : PyException := ⟨"LookupError", "pipeline execution disappeared"⟩

def raised : Option PyException → Except PyException Unit
  | some exc => .error exc
  | none => .ok ()

section Steps

variable (config : DailyConfig) (env : RunEnv) (id : ExecutionId) (target : Date)

/-- A session of its own, after which others see what it has committed. -/
def inSession {α : Type} (step : RunStep)
    (body : PipelineDb → Except PyException α × PipelineDb) : RunProgram α := fun s =>
  match raised (env.faults step) with
  | .error exc => .error (step, exc) s
  | .ok () => match body s.db with
    | (.ok a, db) => .ok a (s.publish db)
    | (.error exc, db) => .error (step, exc) (s.publish db)

/-- A computation without a session. -/
def computing {α : Type} (step : RunStep) (x : Except PyException α) : RunProgram α :=
  raiseError ((raised (env.faults step) >>= fun _ => x).mapError (step, ·))

/-- `stage = …`, then `_stage`. -/
def enterStage (stage : PipelineStage) : RunProgram Unit := do
  modify fun s => { s with stage }
  inSession env (.recordStage stage) fun db =>
    if id ∈ db.executions.keys then
      (.ok (), { db with executions := db.executions.modify id fun row => { row with stage } })
    else (.error lookupError, db)

/-- `SyncCoordinator.all`. -/
def syncAll (db : MarketDb) : Except PyException (List SyncResult) × MarketDb :=
  match runStockSync env.stocks env.stocksClock db with
  | (.error exc, db) => (.error exc, db)
  | (.ok stocks, db) => match runBarSync config.bars env.bars env.barsClock db with
    | (.error exc, db) => (.error exc, db)
    | (.ok bars, db) => (.ok [stocks, bars], db)

def syncSession (db : PipelineDb) : Except PyException (List SyncResult) × PipelineDb :=
  let (results, market) := syncAll config env db.market
  (results, { db with market })

/-- A normal run synchronizes the market, a forced one does not. -/
def syncPhase (force : Bool) : RunProgram Unit :=
  if force then pure ()
  else do
    enterStage env id .marketSync
    let _ ← inSession env .syncAll (syncSession config env)
    return ()

/-- The candidates that reach the minimum score, up to the maximum. -/
def analysisOf (c : SwingScreeningConfig) (inputs : List ScanInput)
    (candidates : List ScreeningResult) (scored : List RankedCandidate) : Analysis :=
  let qualified := scored.filter fun candidate => c.minimumCandidateScore ≤ candidate.totalScore
  ⟨inputs.length, candidates.length, qualified.length, qualified.take c.maximumCandidates⟩

/-- A statement of the last transaction. -/
def statement (fault : Option String) (write : PipelineDb → PipelineDb) :
    Transaction PipelineDb PyException Unit :=
  Transaction.flush fun db => match fault with
    | some message => .error message
    | none => .ok (write db)

/-- `finish` without its commit. -/
def finishSucceeded (a : Analysis) :
    Transaction PipelineDb PyException WatchlistPipelineExecution := do
  let call := successCall config.screening.minimumCandidateScore a
  let row ← Transaction.read fun db => match db.executions.get? id with
    | some row => .ok row
    | none => .error lookupError
  statement env.statements.finish fun db =>
    { db with executions := db.executions.modify id (call.write env.finishedAt) }
  return call.write env.finishedAt row

/-- `WatchlistRepository.save`: the deletion and the insertion share a savepoint. -/
def saveWatchlist (candidates : List RankedCandidate) :
    Transaction PipelineDb PyException Unit := do
  Transaction.lift ((validateCandidates [] [] candidates).mapError valueError)
  Transaction.nested do
    statement env.statements.delete fun db =>
      { db with entries := db.entries.filter (·.tradingDate ≠ target) }
    statement env.statements.insert fun db =>
      { db with entries := db.entries ++ candidates.map (WatchlistEntryRecord.mk target) }

/-- The transaction that makes the result visible. -/
def persist (a : Analysis) : Transaction PipelineDb PyException WatchlistPipelineExecution := do
  let record ← finishSucceeded config env id a
  saveWatchlist env target a.ranked
  Transaction.lift (raised env.statements.commit)
  return record

/-- The exception of a session as its caller meets it. -/
def sessionException : Raised PyException → PyException
  | .app exc => exc
  | .rejected message => ⟨"IntegrityError", message⟩
  | .pendingRollback => ⟨"PendingRollbackError", ""⟩

def persistSession (a : Analysis) (db : PipelineDb) :
    Except PyException WatchlistPipelineExecution × PipelineDb :=
  let (result, db) := (persist config env id target a).request db
  (result.mapError sessionException, db)

/-- The part of `run` inside `try`. -/
def work (force : Bool) : RunProgram WatchlistPipelineExecution := do
  syncPhase config env id force
  enterStage env id .indicatorCalculation
  let inputs ← inSession env .loadInputs fun db =>
    (loadInputs config.screening db.market target, db)
  enterStage env id .screening
  enterStage env id .candidateScanning
  let candidates ← computing env .scan ((scan config.screening inputs).mapError valueError)
  enterStage env id .candidateRanking
  let scored ← computing env .rank ((rank config.screening candidates).mapError valueError)
  enterStage env id .watchlistPersistence
  inSession env .persist
    (persistSession config env id target (analysisOf config.screening inputs candidates scored))

end Steps

/-! ## The run -/

section Run

variable (config : DailyConfig) (env : RunEnv) (invocation : Invocation) (db : PipelineDb)

/-- What `acquire` decides. -/
def acquisition : AcquireResult :=
  db.executions.acquireResult (config.acquireCall invocation) env.reads

/-- The database once the acquisition has ended. -/
def afterAcquire : PipelineDb :=
  { db with
    executions := (ofExecutions db.executions).acquireWrites (acquisition config env invocation db)
      invocation env.reads.now env.reads.uuid4 }

/-- A run that has acquired its date, before its first stage is recorded. -/
def atWork : RunState :=
  let db := afterAcquire config env invocation db
  ⟨db, [db], System.firstStage invocation.forceReanalysis⟩

/-- The handler: the failure is recorded in a fresh session. -/
def recordFailure (id : ExecutionId) (exc : PyException) (s : RunState) :
    Except PyException PipelineResult × RunState :=
  let call := failureCall s.stage exc.typeName
  match s.db.executions.get? id with
  | none => (.error lookupError, s)
  | some row => (.ok (.of (call.write env.finishedAt row)), s.publish { s.db with
      executions := s.db.executions.modify id (call.write env.finishedAt) })

/-- `DailyWatchlistPipeline.run`. -/
def dailyRun : Except PyException PipelineResult × RunState :=
  if 5 ≤ weekday invocation.tradingDate then
    (.ok (skippedResult env invocation .resolvingTradingDate "weekend"),
      ⟨db, [], .resolvingTradingDate⟩)
  else
    let status := (acquisition config env invocation db).status
    let s := atWork config env invocation db
    if status ≠ .acquired then
      (.ok (skippedResult env invocation .duplicateCheck status.value), s)
    else match (work config env env.reads.uuid4 invocation.tradingDate
        invocation.forceReanalysis).run s with
      | .ok record s => (.ok (.of record), s)
      | .error (_, exc) s => recordFailure env env.reads.uuid4 exc s

end Run

end Screener.Market
