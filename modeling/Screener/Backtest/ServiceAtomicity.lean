import Screener.Backtest.IndependentRules
import Screener.Backtest.Service

/-!
# What a backtest request leaves behind

An execution fails before it writes, at its write, or after it; or it succeeds.
The modules above give the requests: which of these ways end in a stored run
that says what happened, with the rows of a success and none of a failure.
-/

namespace Screener.Backtest

open Screener.Lib
open Screener.Lib.Transaction
open Screener.Market (Date Symbol DailyBarRecord)

/-! ## The rows of an execution belong to its run -/

def Ledger.Owned (id : UUID) (ledger : Ledger) : Prop :=
  (∀ t ∈ ledger.trades, t.runId = id) ∧ ∀ s ∈ ledger.snapshots, s.runId = id

theorem kept_owned (d : DecimalContext) (c : Context) : Kept d c (Ledger.Owned c.run.id) where
  hold _ _ _ h _ := h
  exit _ _ _ _ _ _ _ h _ _ _ := ⟨forall_mem_concat h.1 rfl, h.2⟩
  skip _ _ h := h
  enter _ _ _ _ _ h _ _ _ := h
  liquidate _ _ _ _ _ h _ _ := ⟨forall_mem_concat h.1 rfl, h.2⟩
  mark _ _ h := ⟨h.1, forall_mem_concat h.2 rfl⟩

theorem executePortfolio_owned {d : DecimalContext} {run : RunRequest}
    {generated : List BacktestSignal} {dailyBars : List DailyBarRecord} {uuid4 : Nat → UUID}
    {x : PortfolioRun} (h : d.executePortfolio run generated dailyBars uuid4 = .ok x) :
    x.ledger.Owned run.id := by
  have hcompleted := DecimalContext.executePortfolio_ok h
  have howned := (kept_owned d x.context).completed hcompleted ?_
  · rwa [hcompleted.run_eq] at howned
  · intro skips _
    constructor
    · simp [Ledger.start]
    · simp [Ledger.start]

theorem executeIndependent_owned {d : DecimalContext} {run : RunRequest}
    {generated : List BacktestSignal} {dailyBars : List DailyBarRecord} {uuid4 : Nat → UUID}
    {x : IndependentTrades} (h : d.executeIndependent run generated dailyBars uuid4 = .ok x) :
    ∀ t ∈ x.trades, t.runId = run.id :=
  executeIndependent_forall (fun _ _ _ _ _ _ => rfl) h

variable {env : Environment}

/-! ## What the executor plans to write -/

theorem plan_cases {run : BacktestRun} {planned : Plan} (h : plan env run = .ok planned) :
    (executionMode run = .str "portfolio" ∧
      ∃ x, DecimalContext.default.executePortfolio run.request (env.generated run) env.dailyBars
          env.uuid4 = .ok x ∧
        planned = ⟨x.ledger.trades, x.ledger.snapshots,
          (DecimalContext.default.summarizePortfolio x).map .portfolio⟩) ∨
    (executionMode run = .str "independent" ∧
      ∃ x, DecimalContext.default.executeIndependent run.request (env.generated run) env.dailyBars
          env.uuid4 = .ok x ∧
        planned = ⟨x.trades, [], (DecimalContext.default.calculateMetrics x.trades x.totalSignals
          x.p).map .independent⟩) := by
  obtain ⟨requested, -, h⟩ := bind_ok.mp h
  by_cases hname : requested = ("watchlist_entry", "1")
  · by_cases hmode : executionMode run = .str "portfolio"
    · simp only [hname, hmode, ne_eq, not_true_eq_false, if_false, if_true] at h
      obtain ⟨e, he, h⟩ := bind_ok.mp h
      exact .inl ⟨hmode, e, he, (pure_ok.mp h).symm⟩
    · by_cases hindependent : executionMode run = .str "independent"
      · simp only [hname, hindependent, ne_eq, not_true_eq_false, if_false] at h
        obtain ⟨x, hx, h⟩ := bind_ok.mp h
        exact .inr ⟨hindependent, x, hx, (pure_ok.mp h).symm⟩
      · simp [hname, hmode, hindependent, throw, throwThe, MonadExceptOf.throw, bind,
          Except.bind] at h
  · simp [hname, throw, throwThe, MonadExceptOf.throw, bind, Except.bind] at h

theorem plan_owned {run : BacktestRun} {planned : Plan} (h : plan env run = .ok planned) :
    (∀ t ∈ planned.trades, t.runId = run.id) ∧ ∀ s ∈ planned.snapshots, s.runId = run.id := by
  rcases plan_cases h with ⟨-, e, he, rfl⟩ | ⟨-, x, hx, rfl⟩
  · exact executePortfolio_owned he
  · exact ⟨executeIndependent_owned hx, by simp⟩

/-! ## The ways an execution can end -/

inductive Way where
  | failsBeforeWriting (error : ExecutionError)
  | rejected (message : String)
  | failsAfterWriting (planned : Plan) (error : ExecutionError)
  | succeeds (planned : Plan) (result : BacktestResult)

/-- The way of `run` when its rows meet `tables`. -/
def way (env : Environment) (run : BacktestRun) (tables : Tables) : Way :=
  match plan env run with
  | .error error => .failsBeforeWriting error
  | .ok planned =>
    match tables.insertRows env planned.trades planned.snapshots with
    | .error message => .rejected message
    | .ok _ =>
      match planned.result with
      | .error error => .failsAfterWriting planned error
      | .ok result => .succeeds planned result

/-- The ways that the service can record in a mode: outside a savepoint no
rejection, and none in which rows are written before the failure. -/
def Way.recordable (mode : Value) : Way → Bool
  | .failsBeforeWriting _ | .succeeds _ _ => true
  | .rejected _ => mode ≠ .str "portfolio"
  | .failsAfterWriting planned _ => planned.trades = [] ∧ planned.snapshots = []

/-- What the request owes for the way its execution ended: a failed run with its
code and message and without rows, or a completed run with its result and
exactly the rows that were planned. -/
def Recorded (way : Way) (run : BacktestRun)
    (outcome : Except (Raised ServiceError) BacktestRun × Tables) : Prop :=
  ∃ stored, outcome.1 = .ok stored ∧ outcome.2.runs.get? run.id = some stored ∧
    match way with
    | .succeeds planned result =>
      stored = { run with status := .completed, result := some result } ∧
        outcome.2.tradesOf run.id = planned.trades ∧
        outcome.2.snapshotsOf run.id = planned.snapshots
    | .failsBeforeWriting error | .failsAfterWriting _ error =>
      stored = { run with status := .failed, failureCode := some error.failureCode,
                          failureMessage := some error.message } ∧
        outcome.2.tradesOf run.id = [] ∧ outcome.2.snapshotsOf run.id = []
    | .rejected message =>
      stored = { run with status := .failed, failureCode := some "EXECUTION_FAILED",
                          failureMessage := some message } ∧
        outcome.2.tradesOf run.id = [] ∧ outcome.2.snapshotsOf run.id = []

theorem way_cases (env : Environment) (run : BacktestRun) (tables : Tables) :
    (∃ error, plan env run = .error error ∧ way env run tables = .failsBeforeWriting error) ∨
    ∃ planned, plan env run = .ok planned ∧
      ((∃ message, tables.insertRows env planned.trades planned.snapshots = .error message ∧
        way env run tables = .rejected message) ∨
      ∃ written, tables.insertRows env planned.trades planned.snapshots = .ok written ∧
        ((∃ error, planned.result = .error error ∧
          way env run tables = .failsAfterWriting planned error) ∨
        ∃ result, planned.result = .ok result ∧
          way env run tables = .succeeds planned result)) := by
  unfold way
  cases hplan : plan env run with
  | error error => exact .inl ⟨error, rfl, rfl⟩
  | ok planned =>
    refine .inr ⟨planned, rfl, ?_⟩
    cases hinsert : tables.insertRows env planned.trades planned.snapshots with
    | error message => exact .inl ⟨message, rfl, by simp only [hinsert]⟩
    | ok written =>
      refine .inr ⟨written, rfl, ?_⟩
      cases hresult : planned.result with
      | error error => exact .inl ⟨error, rfl, by simp only [hinsert, hresult]⟩
      | ok result => exact .inr ⟨result, rfl, by simp only [hinsert, hresult]⟩

/-! ## The rows of a run in the tables -/

namespace Tables

variable {tables written : Tables} {id : UUID}

@[simp] theorem get?_saveRun (run : BacktestRun) :
    (tables.saveRun run).runs.get? run.id = some run := by
  simp [saveRun, Dict.get?_set]

/-- Rows refer to stored runs, so a run that is not stored has none. -/
theorem tradesOf_fresh (h : id ∉ tables.runs.keys) : tables.tradesOf id = [] := by
  rw [tradesOf, List.filter_eq_nil_iff]
  intro t ht heq
  exact h (of_decide_eq_true heq ▸ tables.tradeRun t ht)

theorem snapshotsOf_fresh (h : id ∉ tables.runs.keys) : tables.snapshotsOf id = [] := by
  rw [snapshotsOf, List.filter_eq_nil_iff]
  intro s hs heq
  exact h (of_decide_eq_true heq ▸ tables.snapshotRun s hs)

theorem insertRows_ok {trades : List BacktestTrade} {snapshots : List PortfolioSnapshot}
    (h : tables.insertRows env trades snapshots = .ok written) :
    written.trades = tables.trades ++ trades ∧
      written.snapshots = tables.snapshots ++ snapshots := by
  unfold insertRows at h
  split at h
  · split at h
    · cases h
    · simp only [Except.ok.injEq] at h
      rw [← h]
      exact ⟨rfl, rfl⟩
  · cases h

/-- A batch of rows of one run is added to the rows it has. -/
theorem tradesOf_insertRows {trades : List BacktestTrade} {snapshots : List PortfolioSnapshot}
    (h : tables.insertRows env trades snapshots = .ok written) (hid : ∀ t ∈ trades, t.runId = id) :
    written.tradesOf id = tables.tradesOf id ++ trades := by
  have hall : trades.filter (·.runId = id) = trades :=
    List.filter_eq_self.mpr fun t ht => decide_eq_true (hid t ht)
  rw [tradesOf, (insertRows_ok h).1, List.filter_append, hall]
  rfl

theorem snapshotsOf_insertRows {trades : List BacktestTrade} {snapshots : List PortfolioSnapshot}
    (h : tables.insertRows env trades snapshots = .ok written)
    (hid : ∀ s ∈ snapshots, s.runId = id) :
    written.snapshotsOf id = tables.snapshotsOf id ++ snapshots := by
  have hall : snapshots.filter (·.runId = id) = snapshots :=
    List.filter_eq_self.mpr fun s hs => decide_eq_true (hid s hs)
  rw [snapshotsOf, (insertRows_ok h).2, List.filter_append, hall]
  rfl

end Tables

/-! ## The executor in an open session -/

section Execute

variable {run : BacktestRun} {s : Session Tables} {planned : Plan}

theorem execute_fails {error : ExecutionError} (hplan : plan env run = .error error) :
    execute env run s = (.error (.app (.execution error)), s) := by
  have hlift : liftExecution (plan env run) s = (.error (.app (.execution error)), s) :=
    lift_error_run (by rw [hplan]; rfl)
  rw [execute, bind_error_run hlift]

/-- With a plan, the execution is its write and then its result. -/
theorem execute_planned (hplan : plan env run = .ok planned) :
    execute env run s = (do
      let write := Transaction.flush fun tables =>
        tables.insertRows env planned.trades planned.snapshots
      if executionMode run = .str "portfolio" then write else Transaction.nested write
      liftExecution planned.result : ServiceTransaction BacktestResult) s := by
  have hlift : liftExecution (plan env run) s = (.ok planned, s) :=
    lift_ok_run (by rw [hplan]; rfl)
  rw [execute, bind_ok_run hlift]

/-- A rejected write: the savepoint of independent mode restores the session,
the bare flush of portfolio mode rolls its transaction back. -/
theorem execute_rejected {message : String} (hopen : s.failed = false)
    (hplan : plan env run = .ok planned)
    (hinsert : s.working.insertRows env planned.trades planned.snapshots = .error message) :
    execute env run s = (.error (.rejected message),
      if executionMode run = .str "portfolio" then ⟨s.committed, s.committed, true⟩ else s) := by
  have hwrite : (flush fun tables => tables.insertRows env planned.trades planned.snapshots :
      ServiceTransaction Unit) s = (.error (.rejected message), ⟨s.committed, s.committed, true⟩) :=
    flush_rejected_run hopen hinsert
  rw [execute_planned hplan]
  by_cases hmode : executionMode run = .str "portfolio"
  · rw [if_pos hmode, if_pos hmode]
    exact bind_error_run hwrite
  · rw [if_neg hmode, if_neg hmode]
    exact bind_error_run (nested_error_run hopen hwrite rfl)

/-- An accepted write is kept, whatever becomes of the result. -/
theorem execute_written {written : Tables} (hopen : s.failed = false)
    (hplan : plan env run = .ok planned)
    (hinsert : s.working.insertRows env planned.trades planned.snapshots = .ok written) :
    execute env run s = liftExecution planned.result { s with working := written } := by
  have hwrite : (flush fun tables => tables.insertRows env planned.trades planned.snapshots :
      ServiceTransaction Unit) s = (.ok (), { s with working := written }) :=
    flush_ok_run hopen hinsert
  rw [execute_planned hplan]
  split
  · exact bind_ok_run hwrite
  · exact bind_ok_run (nested_ok_run hopen hwrite)

end Execute

/-! ## The service call around it -/

section Create

variable {maxRangeDays : ℤ} {id : UUID} {request : CreateRequest} {run : BacktestRun}
  {tables : Tables} {t : Session Tables} {planned : Plan}

theorem newRun_ok (h : newRun maxRangeDays id request = .ok run) :
    run.id = id ∧ run.status = .pending := by
  obtain ⟨contract, -, h⟩ := bind_ok.mp h
  split at h
  · simp [throw, throwThe, MonadExceptOf.throw, bind, Except.bind] at h
  · simp only [BacktestRun.create] at h
    split at h
    · cases h
    · split at h
      · cases h
      · simp only [Except.ok.injEq] at h
        rw [← h]
        exact ⟨rfl, rfl⟩

/-- The run as it is saved before it is executed. -/
def BacktestRun.running (run : BacktestRun) : BacktestRun := { run with status := .running }

/-- The tables that the executor writes to. -/
def Tables.withRunning (tables : Tables) (run : BacktestRun) : Tables :=
  (tables.saveRun run).saveRun run.running

/-- Saving a run adds no rows. -/
theorem fresh_trades (hfresh : run.id ∉ tables.runs.keys) :
    (tables.withRunning run).tradesOf run.id = [] := by
  have hnone : tables.tradesOf run.id = [] := Tables.tradesOf_fresh hfresh
  exact hnone

theorem fresh_snapshots (hfresh : run.id ∉ tables.runs.keys) :
    (tables.withRunning run).snapshotsOf run.id = [] := by
  have hnone : tables.snapshotsOf run.id = [] := Tables.snapshotsOf_fresh hfresh
  exact hnone

/-- Up to the execution the call saves the run twice and raises nothing. -/
theorem create_run (hnew : newRun maxRangeDays id request = .ok run)
    {outcome : Except (Raised ServiceError) BacktestResult}
    (hexecute : execute env run.running ⟨tables, tables.withRunning run, false⟩ = (outcome, t)) :
    create env maxRangeDays id request (Session.begin tables) =
      (match outcome with
        | .error exc => do
          let failed ← Transaction.lift (run.running.fail (failureMessage exc) (failureCode exc))
          save failed
          return failed
        | .ok result => do
          let completed ← Transaction.lift (run.running.complete result)
          save completed
          return completed : ServiceTransaction BacktestRun) t := by
  have hstart : run.start = .ok run.running := by
    simp [BacktestRun.start, BacktestRun.requireStatus, (newRun_ok hnew).2, BacktestRun.running,
      bind, Except.bind, pure, Except.pure]
  have hpending : save run (Session.begin tables) = (.ok (), ⟨tables, tables.saveRun run, false⟩) :=
    flush_ok_run rfl rfl
  have hrunning : save run.running ⟨tables, tables.saveRun run, false⟩ =
      (.ok (), ⟨tables, tables.withRunning run, false⟩) :=
    flush_ok_run rfl rfl
  rw [create, bind_ok_run (lift_ok_run hnew), bind_ok_run hpending,
    bind_ok_run (lift_ok_run hstart), bind_ok_run hrunning, bind_ok_run (attempt_run hexecute)]
  cases outcome <;> rfl

/-- The failed run of an exception. -/
def BacktestRun.failedBy (run : BacktestRun) (exc : Raised ServiceError) : BacktestRun :=
  { run with status := .failed, failureCode := some (Backtest.failureCode exc),
             failureMessage := some (Backtest.failureMessage exc) }

def BacktestRun.completedBy (run : BacktestRun) (result : BacktestResult) : BacktestRun :=
  { run with status := .completed, result := some result }

/-- An exception that leaves the session usable is recorded. -/
theorem createRequest_failed (hnew : newRun maxRangeDays id request = .ok run)
    {exc : Raised ServiceError}
    (hexecute : execute env run.running ⟨tables, tables.withRunning run, false⟩ = (.error exc, t))
    (hopen : t.failed = false) :
    createRequest env maxRangeDays id request tables =
      (.ok (run.failedBy exc), t.working.saveRun (run.failedBy exc)) := by
  have hfail : run.running.fail (failureMessage exc) (failureCode exc) = .ok (run.failedBy exc) :=
    rfl
  have hsave : save (run.failedBy exc) t =
      (.ok (), { t with working := t.working.saveRun (run.failedBy exc) }) := flush_ok_run hopen rfl
  refine request_ok (((create_run hnew hexecute).trans (bind_ok_run (lift_ok_run hfail))).trans
    (bind_ok_run hsave)) hopen

/-- An exception that leaves the session unusable is followed by another one. -/
theorem createRequest_lost (hnew : newRun maxRangeDays id request = .ok run)
    {exc : Raised ServiceError}
    (hexecute : execute env run.running ⟨tables, tables.withRunning run, false⟩ = (.error exc, t))
    (hfailed : t.failed = true) (hcommitted : t.committed = tables) :
    createRequest env maxRangeDays id request tables = (.error .pendingRollback, tables) := by
  have hfail : run.running.fail (failureMessage exc) (failureCode exc) = .ok (run.failedBy exc) :=
    rfl
  have hsave : save (run.failedBy exc) t = (.error .pendingRollback, t) := flush_failed_run hfailed
  exact request_error (((create_run hnew hexecute).trans (bind_ok_run (lift_ok_run hfail))).trans
    (bind_error_run hsave)) hcommitted

theorem createRequest_completed (hnew : newRun maxRangeDays id request = .ok run)
    {result : BacktestResult}
    (hexecute : execute env run.running ⟨tables, tables.withRunning run, false⟩ = (.ok result, t))
    (hopen : t.failed = false) :
    createRequest env maxRangeDays id request tables =
      (.ok (run.completedBy result), t.working.saveRun (run.completedBy result)) := by
  have hcomplete : run.running.complete result = .ok (run.completedBy result) := rfl
  have hsave : save (run.completedBy result) t =
      (.ok (), { t with working := t.working.saveRun (run.completedBy result) }) :=
    flush_ok_run hopen rfl
  exact request_ok (((create_run hnew hexecute).trans (bind_ok_run (lift_ok_run hcomplete))).trans
    (bind_ok_run hsave)) hopen

theorem get?_failedBy (written : Tables) (exc : Raised ServiceError) :
    (written.saveRun (run.failedBy exc)).runs.get? run.id = some (run.failedBy exc) :=
  Tables.get?_saveRun (run.failedBy exc)

theorem get?_completedBy (written : Tables) (result : BacktestResult) :
    (written.saveRun (run.completedBy result)).runs.get? run.id = some (run.completedBy result) :=
  Tables.get?_saveRun (run.completedBy result)

/-! Each way, from its execution to the tables the request leaves. -/

theorem recorded_failing (hnew : newRun maxRangeDays id request = .ok run)
    (hfresh : run.id ∉ tables.runs.keys) {error : ExecutionError}
    (hplan : plan env run.running = .error error) :
    Recorded (.failsBeforeWriting error) run
      (createRequest env maxRangeDays id request tables) := by
  have htrades := fresh_trades hfresh
  have hsnapshots := fresh_snapshots hfresh
  rw [createRequest_failed hnew (execute_fails hplan) rfl]
  exact ⟨run.failedBy (.app (.execution error)), rfl, get?_failedBy _ _, rfl, htrades, hsnapshots⟩

theorem recorded_rejected_iff (hnew : newRun maxRangeDays id request = .ok run)
    (hfresh : run.id ∉ tables.runs.keys) (hplan : plan env run.running = .ok planned)
    {message : String} (hinsert : (tables.withRunning run).insertRows env planned.trades
      planned.snapshots = .error message) :
    Recorded (.rejected message) run (createRequest env maxRangeDays id request tables) ↔
      executionMode run ≠ .str "portfolio" := by
  have hexecute := execute_rejected (s := ⟨tables, tables.withRunning run, false⟩) rfl hplan hinsert
  by_cases hmode : executionMode run = .str "portfolio"
  · rw [if_pos (show executionMode run.running = _ from hmode)] at hexecute
    rw [createRequest_lost hnew hexecute rfl rfl]
    constructor
    · rintro ⟨stored, hstored, -⟩
      cases hstored
    · intro hne
      exact absurd hmode hne
  · rw [if_neg (show ¬ executionMode run.running = _ from hmode)] at hexecute
    have htrades := fresh_trades hfresh
    have hsnapshots := fresh_snapshots hfresh
    rw [createRequest_failed hnew hexecute rfl]
    exact ⟨fun _ => hmode, fun _ => ⟨run.failedBy (.rejected message), rfl, get?_failedBy _ _, rfl,
      htrades, hsnapshots⟩⟩

section Written

variable {written : Tables} (hfresh : run.id ∉ tables.runs.keys)
  (hplan : plan env run.running = .ok planned)
  (hinsert : (tables.withRunning run).insertRows env planned.trades planned.snapshots = .ok written)
include hfresh hplan hinsert

theorem written_trades : written.tradesOf run.id = planned.trades := by
  have hnone := fresh_trades hfresh
  have hadded := Tables.tradesOf_insertRows hinsert (plan_owned hplan).1
  rw [show run.running.id = run.id from rfl, hnone, List.nil_append] at hadded
  exact hadded

theorem written_snapshots : written.snapshotsOf run.id = planned.snapshots := by
  have hnone := fresh_snapshots hfresh
  have hadded := Tables.snapshotsOf_insertRows hinsert (plan_owned hplan).2
  rw [show run.running.id = run.id from rfl, hnone, List.nil_append] at hadded
  exact hadded

theorem recorded_succeeding (hnew : newRun maxRangeDays id request = .ok run)
    {result : BacktestResult} (hresult : planned.result = .ok result) :
    Recorded (.succeeds planned result) run (createRequest env maxRangeDays id request tables) := by
  have hexecute := execute_written (s := ⟨tables, tables.withRunning run, false⟩) rfl hplan hinsert
  rw [hresult] at hexecute
  rw [createRequest_completed hnew hexecute rfl]
  have htrades := written_trades hfresh hplan hinsert
  have hsnapshots := written_snapshots hfresh hplan hinsert
  exact ⟨run.completedBy result, rfl, get?_completedBy _ _, rfl, htrades, hsnapshots⟩

/-- Rows that were written before the failure stay. -/
theorem recorded_failing_after_iff (hnew : newRun maxRangeDays id request = .ok run)
    {error : ExecutionError} (hresult : planned.result = .error error) :
    Recorded (.failsAfterWriting planned error) run
        (createRequest env maxRangeDays id request tables) ↔
      planned.trades = [] ∧ planned.snapshots = [] := by
  have hexecute := execute_written (s := ⟨tables, tables.withRunning run, false⟩) rfl hplan hinsert
  rw [hresult] at hexecute
  rw [createRequest_failed hnew hexecute rfl, ← written_trades hfresh hplan hinsert,
    ← written_snapshots hfresh hplan hinsert]
  constructor
  · rintro ⟨stored, -, -, -, htrades, hsnapshots⟩
    exact ⟨htrades, hsnapshots⟩
  · rintro ⟨htrades, hsnapshots⟩
    exact ⟨run.failedBy (.app (.execution error)), rfl, get?_failedBy _ _, rfl, htrades, hsnapshots⟩

end Written

/-- **What a request records.** For a fresh run whose checks pass, the request
leaves what the way of its execution calls for exactly when that way can be
recorded in the run's mode. -/
theorem outcome_recorded_iff (hnew : newRun maxRangeDays id request = .ok run)
    (hfresh : id ∉ tables.runs.keys) :
    Recorded (way env run.running (tables.withRunning run)) run
        (createRequest env maxRangeDays id request tables) ↔
      (way env run.running (tables.withRunning run)).recordable (executionMode run) = true := by
  have hfresh : run.id ∉ tables.runs.keys := (newRun_ok hnew).1 ▸ hfresh
  rcases way_cases env run.running (tables.withRunning run) with
    ⟨error, hplan, hway⟩ | ⟨planned, hplan, ⟨message, hinsert, hway⟩ | ⟨written, hinsert, hway⟩⟩
  · rw [hway]
    exact ⟨fun _ => rfl, fun _ => recorded_failing hnew hfresh hplan⟩
  · rw [hway, recorded_rejected_iff hnew hfresh hplan hinsert]
    exact (decide_eq_true_iff).symm
  · rcases hway with ⟨error, hresult, hway⟩ | ⟨result, hresult, hway⟩
    · rw [hway, recorded_failing_after_iff hfresh hplan hinsert hnew hresult]
      exact (decide_eq_true_iff).symm
    · rw [hway]
      exact ⟨fun _ => rfl, fun _ => recorded_succeeding hfresh hplan hinsert hnew hresult⟩

end Create

/-! ## The columns of the trade and snapshot tables -/

/-- `Numeric(24,8)` of a value with eight decimal places. -/
def fitsNumeric (q : ℚ) : Bool := |q| < 10 ^ 16

def fitsInteger (n : Nat) : Bool := n < 2 ^ 31

def tradeFits (t : BacktestTrade) : Bool :=
  t.symbol.length ≤ 32 && fitsInteger t.quantity && fitsInteger t.holdingDays &&
    [t.entryPrice, t.exitPrice, t.grossPnl, t.commission, t.tax, t.slippageCost, t.netPnl].all
      fitsNumeric

def snapshotFits (s : PortfolioSnapshot) : Bool :=
  fitsInteger s.openPositionCount &&
    [s.cash, s.marketValue, s.realizedPnl, s.unrealizedPnl, s.totalEquity, s.cumulativeReturn,
      s.runningPeakEquity, s.drawdown, s.drawdownPct].all fitsNumeric

/-- The checks of the two tables: column ranges, then keys, then trade checks. -/
def columnsRefuse (tables : Tables) (trades : List BacktestTrade)
    (snapshots : List PortfolioSnapshot) : Option String :=
  let allTrades := tables.trades ++ trades
  let allSnapshots := tables.snapshots ++ snapshots
  if ¬ (trades.all tradeFits && snapshots.all snapshotFits) then some "numeric field overflow"
  else if ¬ ((allTrades.map (·.id)).Nodup ∧ (allSnapshots.map (·.id)).Nodup) then
    some "duplicate key value violates unique constraint on id"
  else if ¬ (allTrades.map fun t => (t.runId, t.symbol, t.signalDate)).Nodup then
    some "duplicate key value violates unique constraint uq_backtest_trade_signal"
  else if ¬ (allSnapshots.map fun s => (s.runId, s.tradingDate)).Nodup then
    some "duplicate key value violates unique constraint uq_portfolio_snapshot_run_date"
  else if ¬ trades.all (fun t => t.signalDate < t.entryDate && t.entryDate ≤ t.exitDate &&
      0 < t.quantity) then some "new row violates check constraint"
  else none

def Tables.empty : Tables := ⟨Dict.empty, [], [], by simp, by simp⟩

/-- Two bars of one symbol. -/
def twoDays (signals : List BacktestSignal) : Environment where
  generated _ := signals
  dailyBars := [⟨"A", 2, 100, 105, 95, 100, 5⟩, ⟨"A", 3, 100, 105, 95, 100, 5⟩]
  uuid4 n := n
  refusal := columnsRefuse

def independentRequest : CreateRequest :=
  ⟨"watchlist_entry", 1, 3, some "1", ⟨[("position_size", .str "1000")], by decide⟩⟩

/-- A signal twice in independent mode: the unique key rejects the trades, and
the run is stored as failed. -/
theorem outcome_recorded_iff_sample :
    ∃ run, newRun 30 7 independentRequest = .ok run ∧
      Recorded (way (twoDays [⟨"A", 1⟩, ⟨"A", 1⟩]) run.running (Tables.empty.withRunning run)) run
        (createRequest (twoDays [⟨"A", 1⟩, ⟨"A", 1⟩]) 30 7 independentRequest Tables.empty) := by
  have hchecked : (newRun 30 7 independentRequest).map (fun run =>
      (way (twoDays [⟨"A", 1⟩, ⟨"A", 1⟩]) run.running (Tables.empty.withRunning run)).recordable
        (executionMode run)) = .ok true := by
    decide +kernel
  obtain ⟨run, hnew, hrecordable⟩ := map_ok.mp hchecked
  exact ⟨run, hnew, (outcome_recorded_iff hnew (by simp [Tables.empty])).mpr hrecordable⟩

/-- A capital that the parser accepts and the snapshot columns cannot hold. -/
def hugeCapital : CreateRequest :=
  ⟨"watchlist_entry", 1, 3, some "1",
    ⟨[("execution_mode", .str "portfolio"), ("initial_capital", .str "1e17"),
      ("max_open_positions", .int 1), ("position_sizing_mode", .str "fixed_fraction"),
      ("position_size_pct", .str "0.5"), ("minimum_cash_buffer_pct", .int 0)], by decide⟩⟩

def Way.isRejected : Way → Bool
  | .rejected _ => true
  | _ => false

/-- The flush of the first snapshot is rejected outside a savepoint: the service
cannot save the failed run, the caller gets a session error, and not even the
pending run is stored. -/
theorem portfolio_rejection_lost :
    ∃ run, newRun 30 7 hugeCapital = .ok run ∧
      (way (twoDays []) run.running (Tables.empty.withRunning run)).isRejected = true ∧
      (createRequest (twoDays []) 30 7 hugeCapital Tables.empty).1 = .error .pendingRollback ∧
      (createRequest (twoDays []) 30 7 hugeCapital Tables.empty).2.runs.keys = [] ∧
      ¬ Recorded (way (twoDays []) run.running (Tables.empty.withRunning run)) run
        (createRequest (twoDays []) 30 7 hugeCapital Tables.empty) := by
  have hrejected : (newRun 30 7 hugeCapital).map (fun run =>
      (way (twoDays []) run.running (Tables.empty.withRunning run)).isRejected) = .ok true := by
    decide +kernel
  have hraised : (createRequest (twoDays []) 30 7 hugeCapital Tables.empty).1 =
      .error .pendingRollback := by
    decide +kernel
  have hnothing : (createRequest (twoDays []) 30 7 hugeCapital Tables.empty).2.runs.keys = [] := by
    decide +kernel
  obtain ⟨run, hnew, hway⟩ := map_ok.mp hrejected
  refine ⟨run, hnew, hway, hraised, hnothing, ?_⟩
  rintro ⟨stored, hstored, -⟩
  rw [hraised] at hstored
  cases hstored

end Screener.Backtest
