import Screener.Market.Sync

/-!
# What a synchronization run does

The runner in terms of its body: what a run leaves where the body returns, where
it raises outside a transaction and where it raises inside one. Then the stock
job, which leaves the audit tables alone.
-/

namespace Screener.Market

open Screener.Lib

/-! ## The audit tables -/

namespace SyncAudit

variable (audit : SyncAudit) (name : String) (now : Instant)

theorem start_run : (audit.start name now).runs.get? audit.nextRunId =
    some { jobName := name, startedAt := now, status := .running } := by
  rw [start, Dict.get?_set, if_pos rfl]

theorem start_job : ∃ job, (audit.start name now).job? audit.nextRunId = some job := by
  unfold job?
  rw [start_run, Option.bind_some, start]
  by_cases h : name ∈ audit.jobs.keys
  · rw [if_pos h]
    exact Dict.mem_keys.mp h
  · rw [if_neg h]
    exact ⟨{}, by rw [Dict.get?_set, if_pos rfl]⟩

theorem finish_run {audit : SyncAudit} {id : Nat} {run : SyncJobRun}
    (h : audit.runs.get? id = some run) (result : UpsertResult) (error : Option String) :
    (audit.finish id now result error).runs.get? id = some { run with
      finishedAt := some now
      status := if isError error then .failed else .succeeded
      errorMessage := error
      insertedRows := result.inserted
      updatedRows := result.updated
      skippedRows := result.skipped } := by
  rw [finish, h, Dict.get?_set, if_pos rfl]

end SyncAudit

/-! ## The runner -/

section Runner

variable (name : String) (clock : RunClock) (sync : MarketWork UpsertResult) (db : MarketDb)

/-- The database when the body of a run begins: its row is there, as running. -/
def MarketDb.recorded : MarketDb := { db with audit := db.audit.start name clock.startedAt }

theorem runLocked_recorded :
    (runLocked name clock sync).run (UnitOfWork.start db) =
      (tryCatch
        (do
          let result ← sync
          Work.commit none
          finishRun db.audit.nextRunId clock.finishedAt result none
          Work.commit none
          return ⟨name, "succeeded", result.inserted, result.updated, result.skipped⟩)
        (fun exc => do
          Work.rollback
          let id ← Work.loaded missingGreenlet db.audit.nextRunId
          let stored ← Work.query none fun db => db.audit.runs.get? id
          if stored.isNone then throw exc
          else do
            finishRun id clock.finishedAt {} (some exc.text)
            Work.commit none
            throw exc) : MarketWork SyncResult).run
        (UnitOfWork.start (db.recorded name clock)) := rfl

variable {name clock sync db} {s : UnitOfWork MarketDb} {audit : SyncAudit}

theorem run_finishRun (hworking : s.working.audit = audit) {id : Nat}
    (hjob : ∃ job, audit.job? id = some job) (now : Instant) (result : UpsertResult)
    (error : Option String) :
    (finishRun id now result error).run s =
      .ok () { s with
        working := { s.working with audit := audit.finish id now result error }
        begun := true } := by
  obtain ⟨job, hjob⟩ := hjob
  have hquery : (Work.query none fun db => db.audit.job? id : MarketWork (Option SyncJob)).run s =
      .ok (some job) { s with begun := true } :=
    Work.run_query_ok.mpr ⟨rfl, by rw [hworking, hjob], rfl⟩
  rw [finishRun, run_bind_of_ok hquery, if_neg (by simp), ← hworking]
  rfl

/-- The row of a run is written with its result, and both are committed. -/
theorem runJob_of_ok {result : UpsertResult}
    (h : sync.run (UnitOfWork.start (db.recorded name clock)) = .ok result s)
    (hsteady : Work.Steady MarketDb.audit (db.audit.start name clock.startedAt) s) :
    runJob name clock sync db =
      (.ok ⟨name, "succeeded", result.inserted, result.updated, result.skipped⟩,
        { s.working with
          audit := (db.audit.start name clock.startedAt).finish db.audit.nextRunId
            clock.finishedAt result none }) := by
  have hjob := db.audit.start_job name clock.startedAt
  unfold runJob
  rw [runLocked_recorded]
  suffices hbody : ∃ u, (do
      let result ← sync
      Work.commit none
      finishRun db.audit.nextRunId clock.finishedAt result none
      Work.commit none
      return ⟨name, "succeeded", result.inserted, result.updated, result.skipped⟩ :
        MarketWork SyncResult).run (UnitOfWork.start (db.recorded name clock)) =
      .ok ⟨name, "succeeded", result.inserted, result.updated, result.skipped⟩ u ∧
      u.committed = { s.working with
          audit := (db.audit.start name clock.startedAt).finish db.audit.nextRunId
            clock.finishedAt result none } by
    obtain ⟨u, hu, hcommitted⟩ := hbody
    rw [run_tryCatch_of_ok hu]
    exact Prod.ext rfl hcommitted
  rw [run_bind_of_ok h, run_bind_of_ok Work.run_commit_none]
  -- With or without a transaction the session now works on what it had written.
  generalize hv : (if s.begun then { s with committed := s.working, begun := false } else s) = v
  have hworking : v.working = s.working := by
    rw [← hv]
    split_ifs <;> rfl
  have haudit : v.working.audit = db.audit.start name clock.startedAt := by
    rw [hworking]
    exact hsteady.working
  rw [run_bind_of_ok (run_finishRun haudit hjob _ _ _), run_bind_of_ok Work.run_commit_none]
  refine ⟨_, rfl, ?_⟩
  rw [if_pos rfl, hworking]

/-- Outside a transaction the failure is recorded and the exception is raised
again. -/
theorem runJob_of_error_idle {exc : PyException}
    (h : sync.run (UnitOfWork.start (db.recorded name clock)) = .error exc s)
    (hsteady : Work.Steady MarketDb.audit (db.audit.start name clock.startedAt) s)
    (hidle : s.begun = false) :
    runJob name clock sync db =
      (.error exc,
        { s.committed with
          audit := (db.audit.start name clock.startedAt).finish db.audit.nextRunId
            clock.finishedAt {} (some exc.text) }) := by
  have hjob := db.audit.start_job name clock.startedAt
  have hrun := db.audit.start_run name clock.startedAt
  have hworking : s.working.audit = db.audit.start name clock.startedAt := hsteady.working
  have hrollback : (Work.rollback : MarketWork Unit).run s = .ok () s := by
    simp [Work.rollback, EStateM.run, hidle]
  have hloaded : (Work.loaded missingGreenlet db.audit.nextRunId : MarketWork Nat).run s =
      .ok db.audit.nextRunId s := by
    simp [Work.loaded, EStateM.run, hsteady.fresh]
  have hstored : (Work.query none fun d : MarketDb => d.audit.runs.get? db.audit.nextRunId :
      MarketWork _).run s = .ok (some _) { s with begun := true } :=
    Work.run_query_ok.mpr ⟨rfl, by rw [hworking, hrun], rfl⟩
  unfold runJob
  rw [runLocked_recorded, run_tryCatch_of_error (run_bind_of_error h), run_bind_of_ok hrollback,
    run_bind_of_ok hloaded, run_bind_of_ok hstored, if_neg (by simp),
    run_bind_of_ok (run_finishRun (s := { s with begun := true }) hworking hjob _ _ _),
    run_bind_of_ok Work.run_commit_none, ← hsteady.idle hidle]
  rfl

/-- Inside a transaction the handler itself raises, and records nothing. -/
theorem runJob_of_error_open {exc : PyException}
    (h : sync.run (UnitOfWork.start (db.recorded name clock)) = .error exc s)
    (hopen : s.begun = true) :
    runJob name clock sync db = (.error missingGreenlet, s.committed) := by
  have hrollback : (Work.rollback : MarketWork Unit).run s =
      .ok () { s with working := s.committed, begun := false, expired := true } := by
    simp [Work.rollback, EStateM.run, hopen]
  unfold runJob
  rw [runLocked_recorded, run_tryCatch_of_error (run_bind_of_error h), run_bind_of_ok hrollback]
  rfl

end Runner

/-! ## The stock job -/

section StockSync

variable {env : StockSyncEnv} {s t : UnitOfWork MarketDb}

theorem syncStocks_steady (env : StockSyncEnv) {audit : SyncAudit} :
    Triple (Work.Steady MarketDb.audit audit) (syncStocks env)
      (fun _ => Work.Steady MarketDb.audit audit) (fun _ => Work.Steady MarketDb.audit audit) := by
  apply Triple.bind (Q := fun _ => Work.Steady MarketDb.audit audit)
  · exact Triple.raiseError (fun _ _ _ hs => hs) (fun _ _ _ hs => hs)
  · intro snapshots
    exact Upsert.upsert_steady (fun _ => rfl) (fun _ _ => rfl)

theorem run_syncStocks_ok {result : UpsertResult} (h : (syncStocks env).run s = .ok result t) :
    ∃ snapshots, collectSnapshots env.source = .ok snapshots ∧
      t.working = { s.working with
        stocks := Upsert.merge id s.working.stocks (snapshots.map InstrumentSnapshot.row) } := by
  obtain ⟨snapshots, u, hraise, h⟩ := run_bind_ok.mp h
  obtain ⟨hcollect, rfl⟩ := run_raiseError_ok.mp hraise
  refine ⟨snapshots, hcollect, ?_⟩
  rw [(Upsert.run_upsert_ok (fun _ => rfl) h).2]
  split_ifs with hrows
  · rw [hrows]
    rfl
  · rfl

/-- Whether the stock job raises before its first statement. -/
theorem run_syncStocks_error {exc : PyException} (h : (syncStocks env).run s = .error exc t) :
    (collectSnapshots env.source = .error exc ∧ t = s) ∨
      ((∃ snapshots, collectSnapshots env.source = .ok snapshots) ∧
        t = { s with begun := true }) := by
  rcases run_bind_error.mp h with h | ⟨snapshots, u, hraise, h⟩
  · obtain ⟨hcollect, rfl⟩ := run_raiseError_error.mp h
    exact .inl ⟨hcollect, rfl⟩
  · obtain ⟨hcollect, rfl⟩ := run_raiseError_ok.mp hraise
    exact .inr ⟨⟨snapshots, hcollect⟩, (Upsert.run_upsert_error h).2⟩

/-- A stock run that succeeds has upserted the stock master. -/
theorem runStockSync_ok {clock : RunClock} {db : MarketDb} {result : SyncResult}
    (h : (runStockSync env clock db).1 = .ok result) :
    ∃ snapshots, collectSnapshots env.source = .ok snapshots ∧
      (runStockSync env clock db).2.stocks =
        Upsert.merge id db.stocks (snapshots.map InstrumentSnapshot.row) := by
  have hstart : Work.Steady MarketDb.audit (db.audit.start "stock_master" clock.startedAt)
    (UnitOfWork.start (db.recorded "stock_master" clock)) := Work.steady_start rfl
  unfold runStockSync at h ⊢
  cases hrun : (syncStocks env).run (UnitOfWork.start (db.recorded "stock_master" clock)) with
  | ok total s =>
    obtain ⟨snapshots, hcollect, hworking⟩ := run_syncStocks_ok hrun
    refine ⟨snapshots, hcollect, ?_⟩
    rw [runJob_of_ok hrun ((syncStocks_steady env).of_ok hstart hrun), hworking]
    rfl
  | error exc s =>
    cases hbegun : s.begun with
    | true =>
      rw [runJob_of_error_open hrun hbegun] at h
      cases h
    | false =>
      rw [runJob_of_error_idle hrun ((syncStocks_steady env).of_error hstart hrun) hbegun] at h
      cases h

end StockSync

end Screener.Market
