import Screener.Lib.Rounding
import Screener.Market.Stocks

/-!
# Synchronization jobs

The stock master and the daily bars are brought into the database by two jobs
under one runner. The runner records each run before it starts and when it ends;
the bars are committed batch by batch. An environment says what a run meets: the
provider's answers and the statements that fail.
-/

namespace Screener.Market

open Screener.Lib

/-! ## Daily bars -/

/-- A bar that the domain model has validated. -/
structure DailyBar extends DailyBarRecord where
  source : String
  asOf : Instant
  nonNegative : toDailyBarRecord.NonNegative
  validOhlc : toDailyBarRecord.ValidOhlc
deriving DecidableEq

/-- The columns of a bar beside its unique key. -/
structure BarColumns where
  «open» : ℚ
  high : ℚ
  low : ℚ
  close : ℚ
  volume : ℤ
  source : String
  providerTimestamp : Option Instant
deriving DecidableEq, Repr

abbrev BarTable := Dict (Symbol × Date) BarColumns

/-- What a `Numeric(20, 6)` column makes of a price. -/
def numeric6 (price : ℚ) : ℚ := quantizeWith roundHalfUp 6 price

def BarColumns.stored (columns : BarColumns) : BarColumns :=
  { columns with
    «open» := numeric6 columns.open
    high := numeric6 columns.high
    low := numeric6 columns.low
    close := numeric6 columns.close }

namespace DailyBar

variable (bar : DailyBar)

def key : Symbol × Date := (bar.symbol, bar.tradingDate)

def columns : BarColumns :=
  ⟨bar.open, bar.high, bar.low, bar.close, bar.volume, bar.source, some bar.asOf⟩

def row : (Symbol × Date) × BarColumns := (bar.key, bar.columns)

/-- The columns hold the bar as it is. -/
def Storable : Prop := bar.columns.stored = bar.columns

end DailyBar

/-- The newest date of a symbol. -/
def latestDate (bars : BarTable) (symbol : Symbol) : Option Date :=
  ((bars.keys.filter (·.1 = symbol)).map Prod.snd).max?

/-! ## The database -/

inductive SyncStatus where
  | running
  | succeeded
  | failed
deriving DecidableEq, Repr

structure SyncJob where
  lastSuccessAt : Option Instant := none
  lastFailureAt : Option Instant := none
deriving DecidableEq, Repr

structure SyncJobRun where
  jobName : String
  startedAt : Instant
  status : SyncStatus
  finishedAt : Option Instant := none
  insertedRows : Nat := 0
  updatedRows : Nat := 0
  skippedRows : Nat := 0
  errorMessage : Option String := none
deriving DecidableEq, Repr

/-- `sync_jobs` and `sync_job_runs`. -/
structure SyncAudit where
  jobs : Dict String SyncJob
  runs : Dict Nat SyncJobRun

structure MarketDb where
  stocks : StockTable
  bars : BarTable
  audit : SyncAudit

namespace SyncAudit

variable (audit : SyncAudit)

def nextRunId : Nat := audit.runs.keys.foldr max 0 + 1

/-- `SyncJobRepository.start`. -/
def start (name : String) (now : Instant) : SyncAudit where
  jobs := if name ∈ audit.jobs.keys then audit.jobs else audit.jobs.set name {}
  runs := audit.runs.set audit.nextRunId { jobName := name, startedAt := now, status := .running }

/-- The job of a run. -/
def job? (id : Nat) : Option SyncJob :=
  (audit.runs.get? id).bind fun run => audit.jobs.get? run.jobName

/-- The truth of an optional text. -/
def isError (error : Option String) : Bool := error.any (· ≠ "")

/-- The writes of `SyncJobRepository.finish`. -/
def finish (id : Nat) (now : Instant) (result : UpsertResult) (error : Option String) :
    SyncAudit :=
  match audit.runs.get? id with
  | none => audit
  | some run =>
    { runs := audit.runs.set id { run with
        finishedAt := some now
        status := if isError error then .failed else .succeeded
        errorMessage := error
        insertedRows := result.inserted
        updatedRows := result.updated
        skippedRows := result.skipped }
      jobs := audit.jobs.modify run.jobName fun job =>
        if isError error then { job with lastFailureAt := some now }
        else { job with lastSuccessAt := some now } }

end SyncAudit

/-! ## The runner -/

structure RunClock where
  startedAt : Instant
  finishedAt : Instant
deriving DecidableEq, Repr

structure SyncResult where
  jobName : String
  status : String
  insertedRows : Nat
  updatedRows : Nat
  skippedRows : Nat
deriving DecidableEq, Repr

/-- What reading an attribute that has to be loaded again raises. -/
def missingGreenlet : PyException :=
  ⟨"MissingGreenlet", "greenlet_spawn has not been called; can't call await_only() here. " ++
    "Was IO attempted in an unexpected place?"⟩

abbrev MarketWork := Work MarketDb PyException

def startRun (name : String) (now : Instant) : MarketWork Nat := do
  let id ← Work.query none fun db => db.audit.nextRunId
  Work.write none fun db => { db with audit := db.audit.start name now }
  return id

def finishRun (id : Nat) (now : Instant) (result : UpsertResult) (error : Option String) :
    MarketWork Unit := do
  let job ← Work.query none fun db => db.audit.job? id
  if job.isNone then throw ⟨"AssertionError", ""⟩
  else Work.write none fun db => { db with audit := db.audit.finish id now result error }

/-- `str(exc)[:2000]`. -/
def PyException.text (exc : PyException) : String := String.ofList (exc.message.toList.take 2000)

/-- `_run_locked`; the handler reads the id of the run after its rollback. -/
def runLocked (name : String) (clock : RunClock) (sync : MarketWork UpsertResult) :
    MarketWork SyncResult := do
  let id ← startRun name clock.startedAt
  Work.commit none
  tryCatch
    (do
      let result ← sync
      Work.commit none
      finishRun id clock.finishedAt result none
      Work.commit none
      return ⟨name, "succeeded", result.inserted, result.updated, result.skipped⟩)
    (fun exc => do
      Work.rollback
      let id ← Work.loaded missingGreenlet id
      let stored ← Work.query none fun db => db.audit.runs.get? id
      if stored.isNone then throw exc
      else do
        finishRun id clock.finishedAt {} (some exc.text)
        Work.commit none
        throw exc)

/-- A run in a session of its own; what is not committed when it closes is lost. -/
def runJob (name : String) (clock : RunClock) (sync : MarketWork UpsertResult) (db : MarketDb) :
    Except PyException SyncResult × MarketDb :=
  match (runLocked name clock sync).run (UnitOfWork.start db) with
  | .ok result s => (.ok result, s.committed)
  | .error exc s => (.error exc, s.committed)

/-! ## The stock job -/

structure StockSyncEnv where
  source : MasterSource
  faults : Upsert.Faults PyException := {}

/-- `StockSyncService._sync`. -/
def syncStocks (env : StockSyncEnv) : MarketWork UpsertResult := do
  let snapshots ← raiseError (collectSnapshots env.source)
  Upsert.upsert (·.stocks) (fun stocks db => { db with stocks }) id env.faults
    (snapshots.map InstrumentSnapshot.row)

def runStockSync (env : StockSyncEnv) (clock : RunClock) :
    MarketDb → Except PyException SyncResult × MarketDb :=
  runJob "stock_master" clock (syncStocks env)

/-! ## The bar job -/

structure BarSyncConfig where
  historyYears : Nat
  batchSize : Nat
  positive : 0 < batchSize

/-- What a run of the bar job meets: the date, the provider, and the statements
that raise, upserts by symbol and commits by batch. -/
structure BarSyncEnv where
  today : Date
  dailyBars : Symbol → Date → Date → Except PyException (List DailyBar)
  active : Option PyException := none
  latest : Option PyException := none
  upserts : Symbol → Upsert.Faults PyException := fun _ => {}
  commits : Nat → Option PyException := fun _ => none

/-- `DailyBarRepository.upsert`. -/
def upsertBars (faults : Upsert.Faults PyException) (bars : List DailyBar) :
    MarketWork UpsertResult :=
  if (bars.map DailyBar.key).Nodup then
    Upsert.upsert (·.bars) (fun bars db => { db with bars }) BarColumns.stored faults
      (bars.map DailyBar.row)
  else throw (valueError "duplicate trading dates in batch")

section BarSync

variable (config : BarSyncConfig) (env : BarSyncEnv)

/-- What a date before `date.min` or after `date.max` raises. -/
def dateOverflow : PyException := ⟨"OverflowError", "date value out of range"⟩

/-- The first date that is asked for. -/
def startDate (latest : Option Date) : Except PyException Date :=
  match latest with
  | some date => if date < maxDate then .ok (date + 1) else .error dateOverflow
  | none =>
    if 365 * config.historyYears < env.today then .ok (env.today - 365 * config.historyYears)
    else .error dateOverflow

def syncSymbol (latest : Symbol → Option Date) (total : UpsertResult) (symbol : Symbol) :
    MarketWork UpsertResult := do
  let start ← raiseError (startDate config env (latest symbol))
  if env.today < start then return total
  else do
    let bars ← raiseError (env.dailyBars symbol start env.today)
    if bars.any (env.today < ·.tradingDate) then throw (valueError "future trading date")
    else do
      let value ← upsertBars (env.upserts symbol) bars
      return total.add value

def syncBatch (latest : Symbol → Option Date) (total : UpsertResult) (batch : List Symbol × Nat) :
    MarketWork UpsertResult := do
  let total ← batch.1.foldlM (syncSymbol config env latest) total
  Work.commit (env.commits batch.2)
  return total

/-- The batches of the active symbols, with their numbers. -/
def BarSyncConfig.batches (symbols : List Symbol) : List (List Symbol × Nat) :=
  (slices config.batchSize symbols).zipIdx

/-- `DailyBarRepository.latest_dates`. -/
def latestDates (symbols : List Symbol) : MarketWork (Symbol → Option Date) :=
  if symbols = [] then pure fun _ => none
  else Work.query env.latest fun db => latestDate db.bars

/-- `DailyBarSyncService._sync`. -/
def syncBars : MarketWork UpsertResult := do
  let symbols ← Work.query env.active fun db => db.stocks.active
  let latest ← latestDates env symbols
  (config.batches symbols).foldlM (syncBatch config env latest) {}

def runBarSync (clock : RunClock) : MarketDb → Except PyException SyncResult × MarketDb :=
  runJob "daily_bars" clock (syncBars config env)

end BarSync

end Screener.Market
