import Screener.Market.BarProgress

/-!
# How a failed run is recorded

The handler of the runner reads the id of its run after a rollback. It records
the failure where the body has raised outside a transaction: the stock job before
its first statement, the bar job after a batch was committed and before the next
statement. Elsewhere the row of the run stays behind as running.
-/

namespace Screener.Market

open Screener.Lib

/-! ## Where the bar job raises outside a transaction -/

section Idle

variable {config : BarSyncConfig} {env : BarSyncEnv} {db : MarketDb}
  {latest : Symbol → Option Date} {total result : UpsertResult} {s t : UnitOfWork MarketDb}
  {exc : PyException}

/-- A transaction that is open stays so, and one stays closed only over symbols
for which nothing is upserted. -/
theorem syncSymbols_begun {symbols : List Symbol}
    (h : (symbols.foldlM (syncSymbol config env latest) total).run s = .ok result t) :
    (s.begun = true → t.begun = true) ∧
      (t.begun = false → t = s ∧
        ∀ symbol ∈ symbols, fetch config env (latest symbol) symbol = .ok []) := by
  induction symbols generalizing total s with
  | nil =>
    obtain ⟨-, rfl⟩ := run_pure_ok.mp h
    exact ⟨id, fun _ => ⟨rfl, by simp⟩⟩
  | cons symbol rest ih =>
    rw [List.foldlM_cons] at h
    obtain ⟨total', u, hsymbol, hrest⟩ := run_bind_ok.mp h
    obtain ⟨bars, hfetch, -, rfl⟩ := run_syncSymbol_ok hsymbol
    obtain ⟨hstays, hclosed⟩ := ih hrest
    by_cases hrows : bars.map DailyBar.row = []
    · rw [if_pos hrows] at hstays hclosed
      refine ⟨hstays, fun ht => ?_⟩
      obtain ⟨rfl, hsilent⟩ := hclosed ht
      rw [List.map_eq_nil_iff.mp hrows] at hfetch
      exact ⟨rfl, List.forall_mem_cons.mpr ⟨hfetch, hsilent⟩⟩
    · rw [if_neg hrows] at hstays
      refine ⟨fun _ => hstays rfl, fun ht => ?_⟩
      rw [hstays rfl] at ht
      cases ht

/-- Nothing is done for symbols without bars to upsert. -/
theorem run_syncSymbols_silent {symbols : List Symbol}
    (h : ∀ symbol ∈ symbols, fetch config env (latest symbol) symbol = .ok []) :
    (symbols.foldlM (syncSymbol config env latest) total).run s = .ok total s := by
  induction symbols with
  | nil => rfl
  | cons symbol rest ih =>
    obtain ⟨hfirst, hrest⟩ := List.forall_mem_cons.mp h
    rw [List.foldlM_cons]
    cases hrun : (syncSymbol config env latest total symbol).run s with
    | ok total' t =>
      obtain ⟨bars, hfetch, rfl, rfl⟩ := run_syncSymbol_ok hrun
      rw [hfirst, Except.ok.injEq] at hfetch
      subst hfetch
      rw [run_bind_of_ok hrun]
      exact ih hrest
    | error e t =>
      obtain ⟨hfetch, -⟩ | ⟨bars, hfetch, hbars, -⟩ := run_syncSymbol_error hrun
      · rw [hfirst] at hfetch
        cases hfetch
      · rw [hfirst, Except.ok.injEq] at hfetch
        exact absurd hfetch.symm hbars

theorem run_syncSymbol_refused {symbol : Symbol}
    (h : fetch config env (latest symbol) symbol = .error exc) :
    (syncSymbol config env latest total symbol).run s = .error exc s := by
  cases hrun : (syncSymbol config env latest total symbol).run s with
  | ok total' t =>
    obtain ⟨bars, hfetch, -⟩ := run_syncSymbol_ok hrun
    rw [h] at hfetch
    cases hfetch
  | error e t =>
    obtain ⟨hfetch, rfl⟩ | ⟨bars, hfetch, -⟩ := run_syncSymbol_error hrun
    · rw [h, Except.error.injEq] at hfetch
      rw [hfetch]
    · rw [h] at hfetch
      cases hfetch

/-- No transaction is open after a batch. -/
theorem syncBatch_idle {batch : List Symbol × Nat}
    (h : (syncBatch config env latest total batch).run s = .ok result t) : t.begun = false := by
  obtain ⟨total', u, -, h⟩ := run_bind_ok.mp h
  obtain ⟨_, v, hcommit, h⟩ := run_bind_ok.mp h
  obtain ⟨-, rfl⟩ := run_pure_ok.mp h
  rw [Work.run_commit_ok hcommit]
  split_ifs with hbegun
  · rfl
  · exact Bool.eq_false_iff.mpr hbegun

theorem syncBatches_idle {batches : List (List Symbol × Nat)}
    (h : (batches.foldlM (syncBatch config env latest) total).run s = .ok result t) :
    (batches = [] ∧ t = s) ∨ (batches ≠ [] ∧ t.begun = false) := by
  rcases List.eq_nil_or_concat batches with rfl | ⟨init, last, rfl⟩
  · exact .inl ⟨rfl, (run_pure_ok.mp h).2.symm⟩
  · rw [List.concat_eq_append, List.foldlM_append] at h
    obtain ⟨total', u, -, h⟩ := run_bind_ok.mp h
    rw [List.foldlM_cons] at h
    obtain ⟨total'', v, hlast, h⟩ := run_bind_ok.mp h
    obtain ⟨-, rfl⟩ := run_pure_ok.mp h
    exact .inr ⟨by simp, syncBatch_idle hlast⟩

/-- The bar job raises for a symbol, before anything was upserted in its batch,
and some batch came before. -/
def RaisesBetween (config : BarSyncConfig) (env : BarSyncEnv) (db : MarketDb)
    (exc : PyException) : Prop :=
  env.Reads db ∧ ∃ done batch rest total s pre symbol post,
    config.batches db.stocks.active = done ++ batch :: rest ∧ done ≠ [] ∧
      (syncBatches config env db done).run (entered db) = .ok total s ∧
      batch.1 = pre ++ symbol :: post ∧
      (∀ other ∈ pre, fetch config env (latestDate db.bars other) other = .ok []) ∧
      fetch config env (latestDate db.bars symbol) symbol = .error exc

/-- The loop of a run that raises, cut where it does. -/
theorem syncBatches_error_cut {batches : List (List Symbol × Nat)}
    (h : (syncBatches config env db batches).run (entered db) = .error exc t) :
    ∃ done batch rest total s, batches = done ++ batch :: rest ∧
      (syncBatches config env db done).run (entered db) = .ok total s ∧
      (syncBatch config env (latestDate db.bars) total batch).run s = .error exc t :=
  run_foldlM_error h

theorem syncBars_idle_iff (h : (syncBars config env).run (UnitOfWork.start db) = .error exc t) :
    t.begun = false ↔ RaisesBetween config env db exc := by
  constructor
  · intro hidle
    obtain ⟨-, rfl⟩ | ⟨hreads, h⟩ := run_syncBars_error h
    · cases hidle
    obtain ⟨done, batch, rest, total, s, hsplit, hdone, hbatch⟩ := syncBatches_error_cut h
    rcases run_bind_error.mp hbatch with hsymbols | ⟨total', u, -, hcommit⟩
    · obtain ⟨pre, symbol, post, total', u, hcut, hpre, hsymbol⟩ := run_foldlM_error hsymbols
      obtain ⟨hfetch, rfl⟩ | ⟨bars, -, -, rfl⟩ := run_syncSymbol_error hsymbol
      · obtain ⟨rfl, hsilent⟩ := (syncSymbols_begun hpre).2 hidle
        refine ⟨hreads, done, batch, rest, total, t, pre, symbol, post, hsplit, ?_, hdone, hcut,
          hsilent,
          hfetch⟩
        -- Before the first commit the transaction of the first statement is open.
        rintro rfl
        obtain ⟨-, rfl⟩ := run_pure_ok.mp hdone
        cases hidle
      · cases hidle
    · rcases run_bind_error.mp hcommit with hcommit | ⟨_, v, -, hreturn⟩
      · obtain ⟨hbegun, rfl⟩ := Work.run_commit_error hcommit
        rw [hidle] at hbegun
        cases hbegun
      · cases hreturn
  · intro ⟨hreads, done, batch, rest, total, s, pre, symbol, post, hsplit, hne, hdone, hcut,
      hsilent, hfetch⟩
    have hclosed : s.begun = false := by
      obtain ⟨hnil, -⟩ | ⟨-, hclosed⟩ := syncBatches_idle hdone
      · exact absurd hnil hne
      · exact hclosed
    have hsymbols : (batch.1.foldlM (syncSymbol config env (latestDate db.bars)) total).run s =
        .error exc s := by
      rw [hcut, List.foldlM_append, run_bind_of_ok (run_syncSymbols_silent hsilent),
        List.foldlM_cons, run_bind_of_error (run_syncSymbol_refused hfetch)]
    have hloop : (syncBatches config env db (config.batches db.stocks.active)).run (entered db) =
        .error exc s := by
      rw [hsplit, run_syncBatches_append hdone, List.foldlM_cons]
      exact run_bind_of_error (run_bind_of_error hsymbols)
    obtain ⟨hfault, -⟩ | ⟨-, h⟩ := run_syncBars_error h
    · exact absurd hreads hfault
    · rw [hloop, EStateM.Result.error.injEq] at h
      exact h.2 ▸ hclosed

end Idle

/-! ## The record of a failure -/

/-- The failure of a run is recorded on its row and its job, and the exception
leaves the run. -/
structure AuditClosed (name : String) (clock : RunClock) (db : MarketDb) (exc : PyException)
    (outcome : Except PyException SyncResult × MarketDb) : Prop where
  row : ∃ run, outcome.2.audit.runs.get? db.audit.nextRunId = some run ∧ run.jobName = name ∧
    run.status = .failed ∧ run.errorMessage = some exc.text
  job : ∃ job, outcome.2.audit.jobs.get? name = some job ∧
    job.lastFailureAt = some clock.finishedAt
  raised : outcome.1 = .error exc

theorem text_eq_empty {exc : PyException} : exc.text = "" ↔ exc.message = "" := by
  rw [PyException.text, ← String.toList_inj, String.toList_ofList, ← String.toList_inj]
  simp [List.take_eq_nil_iff]

theorem SyncAudit.finish_failed (audit : SyncAudit) (name : String) (started now : Instant)
    {error : String} (herror : error ≠ "") :
    ∃ job, ((audit.start name started).finish audit.nextRunId now {} (some error)).jobs.get? name =
      some job ∧ job.lastFailureAt = some now := by
  have herror' : isError (some error) = true := by simp [isError, herror]
  obtain ⟨job, hjob⟩ := audit.start_job name started
  rw [job?, start_run, Option.bind_some] at hjob
  rw [finish, start_run]
  refine ⟨{ job with lastFailureAt := some now }, ?_, rfl⟩
  show (Dict.modify _ name _).get? name = _
  rw [Dict.get?_modify, if_pos rfl, hjob, Option.map_some, if_pos herror']

/-- The record is made where no transaction is open and the exception has a text. -/
theorem auditClosed_iff {name : String} {clock : RunClock} {sync : MarketWork UpsertResult}
    {db : MarketDb} {exc : PyException} {s : UnitOfWork MarketDb}
    (h : sync.run (UnitOfWork.start (db.recorded name clock)) = .error exc s)
    (hsteady : Work.Steady MarketDb.audit (db.audit.start name clock.startedAt) s) :
    AuditClosed name clock db exc (runJob name clock sync db) ↔
      s.begun = false ∧ exc.message ≠ "" := by
  have hstarted := db.audit.start_run name clock.startedAt
  cases hbegun : s.begun with
  | true =>
    rw [runJob_of_error_open h hbegun]
    refine ⟨fun hclosed => ?_, fun hcond => absurd hcond.1 Bool.true_eq_false.mp⟩
    obtain ⟨run, hrun, -, hstatus, -⟩ := hclosed.row
    rw [hsteady.committed, hstarted, Option.some.injEq] at hrun
    rw [← hrun] at hstatus
    cases hstatus
  | false =>
    rw [runJob_of_error_idle h hsteady hbegun]
    have hfinished := SyncAudit.finish_run clock.finishedAt hstarted {} (some exc.text)
    constructor
    · intro hclosed
      refine ⟨rfl, fun hempty => ?_⟩
      obtain ⟨run, hrun, -, hstatus, -⟩ := hclosed.row
      rw [hfinished, Option.some.injEq] at hrun
      have herror : SyncAudit.isError (some exc.text) = false := by
        simp [SyncAudit.isError, text_eq_empty.mpr hempty]
      rw [← hrun, herror] at hstatus
      cases hstatus
    · intro ⟨_, hmessage⟩
      have htext : exc.text ≠ "" := fun hempty => hmessage (text_eq_empty.mp hempty)
      have herror : SyncAudit.isError (some exc.text) = true := by
        simp [SyncAudit.isError, htext]
      refine ⟨⟨_, hfinished, rfl, ?_, rfl⟩, ?_, rfl⟩
      · rw [herror]
        rfl
      · exact db.audit.finish_failed name clock.startedAt clock.finishedAt htext

/-- **Sync audit closure.** A run whose body raises is recorded as failed, and
raises the same exception, exactly when the exception has a text and the body has
raised it outside a transaction. -/
theorem sync_audit_closed_iff (clock : RunClock) (db : MarketDb) (exc : PyException)
    (s : UnitOfWork MarketDb) :
    (∀ env, (syncStocks env).run (UnitOfWork.start (db.recorded "stock_master" clock)) =
        .error exc s →
      (AuditClosed "stock_master" clock db exc (runStockSync env clock db) ↔
        collectSnapshots env.source = .error exc ∧ exc.message ≠ "")) ∧
    (∀ config env, (syncBars config env).run (UnitOfWork.start (db.recorded "daily_bars" clock)) =
        .error exc s →
      (AuditClosed "daily_bars" clock db exc (runBarSync config env clock db) ↔
        RaisesBetween config env (db.recorded "daily_bars" clock) exc ∧ exc.message ≠ "")) := by
  constructor
  · intro env h
    have hsteady := (syncStocks_steady env).of_error (Work.steady_start rfl) h
    rw [runStockSync, auditClosed_iff h hsteady]
    refine and_congr_left fun _ => ?_
    obtain ⟨hcollect, rfl⟩ | ⟨⟨snapshots, hcollect⟩, rfl⟩ := run_syncStocks_error h
    · exact ⟨fun _ => hcollect, fun _ => rfl⟩
    · refine ⟨fun hbegun => absurd hbegun Bool.true_eq_false.mp, fun herror => ?_⟩
      rw [hcollect] at herror
      cases herror
  · intro config env h
    have hothers := (syncBars_steady config env).of_error
      (Work.steady_start rfl) h
    have hsteady : Work.Steady MarketDb.audit (db.audit.start "daily_bars" clock.startedAt) s :=
      hothers.snd
    rw [runBarSync, auditClosed_iff h hsteady, syncBars_idle_iff h]

/-! ## Two runs of each job -/

def sampleStock : Stock :=
  ⟨"Samsung Electronics", "KOSPI", some "KRX", "KRW", "KR", some "common_stock", some "listed",
    true⟩

def sampleDb : MarketDb where
  stocks := (Dict.empty.set "000001" sampleStock).set "000002" sampleStock
  bars := Dict.empty
  audit := ⟨Dict.empty, Dict.empty⟩

def sampleClock : RunClock := ⟨0, 1000000⟩

def offline : PyException := ⟨"RuntimeError", "offline failure"⟩

/-- One symbol a batch. -/
def sampleConfig : BarSyncConfig := ⟨3, 1, by decide⟩

/-- A provider that has no bars and fails for one symbol. -/
def failingFor (symbol : Symbol) : BarSyncEnv where
  today := 739624
  dailyBars other _ _ := if other = symbol then .error offline else .ok []

theorem sync_audit_closed_sample :
    AuditClosed "stock_master" sampleClock sampleDb offline
        (runStockSync ⟨⟨.error offline, fun _ => .ok []⟩, {}⟩ sampleClock sampleDb) ∧
      AuditClosed "daily_bars" sampleClock sampleDb offline
        (runBarSync sampleConfig (failingFor "000002") sampleClock sampleDb) := by
  constructor
  · exact ((sync_audit_closed_iff sampleClock sampleDb offline _).1
      ⟨⟨.error offline, fun _ => .ok []⟩, {}⟩ rfl).mpr ⟨rfl, by decide⟩
  · refine ((sync_audit_closed_iff sampleClock sampleDb offline _).2 sampleConfig
      (failingFor "000002") rfl).mpr ⟨?_, by decide⟩
    refine ⟨⟨rfl, .inr rfl⟩, [(["000001"], 0)], (["000002"], 1), [], _, _, [], "000002", [], ?_,
      by simp, rfl, rfl, by simp, rfl⟩
    decide +kernel

/-- The provider fails for the first symbol: the row stays running, and another
exception leaves the run. -/
theorem failure_left_running :
    (∃ s, (syncBars sampleConfig (failingFor "000001")).run
        (UnitOfWork.start (sampleDb.recorded "daily_bars" sampleClock)) = .error offline s) ∧
      ¬ AuditClosed "daily_bars" sampleClock sampleDb offline
        (runBarSync sampleConfig (failingFor "000001") sampleClock sampleDb) := by
  refine ⟨⟨_, rfl⟩, fun hclosed => ?_⟩
  obtain ⟨run, hrun, -, hstatus, -⟩ := hclosed.row
  have hrunning : ((runBarSync sampleConfig (failingFor "000001") sampleClock
      sampleDb).2.audit.runs.get? sampleDb.audit.nextRunId).map (·.status) = some .running := by
    decide +kernel
  rw [hrun, Option.map_some, hstatus] at hrunning
  cases hrunning

end Screener.Market
