import Screener.Market.DailyRun
import Screener.Market.PipelineFinality
import Screener.Market.SyncClosure

/-!
# What a failed run leaves

Until its last transaction commits, a run has changed nothing of a watchlist: at
every moment others see the entries of before, and no row that has succeeded
since. A step that raises does so while the variable `stage` is at its own
stage, and the handler records that one.
-/

namespace Screener.Market

open Screener.Lib

variable {config : DailyConfig} {env : RunEnv} {invocation : Invocation} {db : PipelineDb}

/-! ## The last transaction -/

section Persist

variable {id : ExecutionId} {target : Date} {a : Analysis} {s t : Session PipelineDb}

theorem statement_ok {fault : Option String} {write : PipelineDb → PipelineDb} {result : Unit} :
    statement fault write s = (.ok result, t) ↔
      s.failed = false ∧ fault = none ∧ { s with working := write s.working } = t := by
  rw [statement, Transaction.flush_returns]
  cases fault with
  | none => simp
  | some message => simp

theorem raised_ok {fault : Option PyException} {result : Unit} :
    raised fault = .ok result ↔ fault = none := by
  cases fault with
  | none => simp [raised]
  | some exc => simp [raised]

/-- `finish` with `SUCCEEDED`, as a run calls it. -/
def PipelineConfig.success (config : PipelineConfig) (a : Analysis) (now : Instant)
    (row : WatchlistPipelineExecution) : WatchlistPipelineExecution :=
  (successCall config.screening.minimumCandidateScore a).write now row

theorem finishSucceeded_returns {record : WatchlistPipelineExecution} :
    finishSucceeded config env id a s = (.ok record, t) ↔ s.failed = false ∧
      (∃ row, s.working.executions.get? id = some row ∧
        config.success a env.finishedAt row = record) ∧ env.statements.finish = none ∧
      { s with working := { s.working with
        executions := s.working.executions.modify id (config.success a env.finishedAt) } } = t := by
  simp only [finishSucceeded, Transaction.bind_returns, Transaction.read_returns, statement_ok,
    Transaction.pure_returns]
  constructor
  · rintro ⟨row, u, ⟨hopen, hrow, hu⟩, _, v, ⟨-, hfinish, hv⟩, hrecord, ht⟩
    subst hu hv ht
    refine ⟨hopen, ⟨row, ?_, hrecord⟩, hfinish, rfl⟩
    cases hget : s.working.executions.get? id with
    | none =>
      rw [hget] at hrow
      cases hrow
    | some found =>
      rw [hget] at hrow
      exact congrArg some (Except.ok.inj hrow)
  · rintro ⟨hopen, ⟨row, hrow, hrecord⟩, hfinish, ht⟩
    refine ⟨row, s, ⟨hopen, ?_, rfl⟩, (), t, ⟨hopen, hfinish, ht⟩, hrecord, rfl⟩
    rw [hrow]

theorem saveWatchlist_returns {candidates : List RankedCandidate} {result : Unit} :
    saveWatchlist env target candidates s = (.ok result, t) ↔
      (validateCandidates [] [] candidates).mapError valueError = .ok () ∧ s.failed = false ∧
      (env.statements.delete = none ∧ env.statements.insert = none) ∧
      { s with working := { s.working with
        entries := s.working.entries.filter (·.tradingDate ≠ target) ++
          candidates.map (WatchlistEntryRecord.mk target) } } = t := by
  simp only [saveWatchlist, Transaction.bind_returns, Transaction.lift_returns, statement_ok,
    Transaction.nested_returns]
  constructor
  · rintro ⟨_, u, ⟨hvalid, hu⟩, hopen, _, v, ⟨-, hdelete, hv⟩, -, hinsert, ht⟩
    subst hu hv ht
    exact ⟨hvalid, hopen, ⟨hdelete, hinsert⟩, rfl⟩
  · rintro ⟨hvalid, hopen, ⟨hdelete, hinsert⟩, ht⟩
    exact ⟨(), s, ⟨hvalid, rfl⟩, hopen, (), _, ⟨hopen, hdelete, rfl⟩, hopen, hinsert, ht⟩

/-- No statement of the last transaction is refused. -/
def PersistFaults.None (faults : PersistFaults) : Prop :=
  faults.finish = none ∧ faults.delete = none ∧ faults.insert = none ∧ faults.commit = none

/-- The database that a successful run makes visible. -/
def published (config : PipelineConfig) (env : RunEnv) (id : ExecutionId) (target : Date)
    (a : Analysis) (db : PipelineDb) : PipelineDb where
  market := db.market
  executions := db.executions.modify id (config.success a env.finishedAt)
  entries := db.entries.filter (·.tradingDate ≠ target) ++
    a.ranked.map (WatchlistEntryRecord.mk target)

/-- The last transaction returns where its row is there, the candidates are valid
and no statement is refused. -/
theorem persist_returns {db after : PipelineDb} {record : WatchlistPipelineExecution} :
    (persist config env id target a).request db = (.ok record, after) ↔
      (∃ row, db.executions.get? id = some row ∧ config.success a env.finishedAt row = record) ∧
      (validateCandidates [] [] a.ranked).mapError valueError = .ok () ∧
      env.statements.None ∧ published config.toPipelineConfig env id target a db = after := by
  simp only [Transaction.request_returns, persist, Transaction.bind_returns,
    finishSucceeded_returns, saveWatchlist_returns, Transaction.lift_returns, raised_ok,
    Transaction.pure_returns]
  constructor
  · rintro ⟨t, ⟨_, u, ⟨-, hrow, hfinish, hu⟩, _, v, ⟨hvalid, -, ⟨hdelete, hinsert⟩, hv⟩, _, w,
      ⟨hcommit, hw⟩, hrecord, ht⟩, -, hafter⟩
    subst hu hv hw ht hrecord
    exact ⟨hrow, hvalid, ⟨hfinish, hdelete, hinsert, hcommit⟩, hafter⟩
  · rintro ⟨hrow, hvalid, ⟨hfinish, hdelete, hinsert, hcommit⟩, hafter⟩
    exact ⟨_, ⟨record, _, ⟨rfl, hrow, hfinish, rfl⟩, (), _,
      ⟨hvalid, rfl, ⟨hdelete, hinsert⟩, rfl⟩, (), _, ⟨hcommit, rfl⟩, rfl, rfl⟩, rfl, hafter⟩

theorem persist_uncommitted : (persist config env id target a).Uncommitted :=
  (((Transaction.Uncommitted.read _).bind fun _ => (Transaction.Uncommitted.flush _).bind fun _ =>
    .pure _).bind fun _ =>
      ((Transaction.Uncommitted.lift _).bind fun _ =>
        ((Transaction.Uncommitted.flush _).bind fun _ => .flush _).nested).bind fun _ =>
          (Transaction.Uncommitted.lift _).bind fun _ => .pure _)

end Persist

/-! ## At work -/

section Working

variable (start : PipelineDb) (id : ExecutionId) (row : WatchlistPipelineExecution)

/-- Beside the market, nothing but the stage of the run's own row has changed. -/
structure Unfinished (db : PipelineDb) : Prop where
  entries : db.entries = start.entries
  others : ∀ other, other ≠ id → db.executions.get? other = start.executions.get? other
  own : ∃ stage, db.executions.get? id = some { row with stage }

structure Working (stage : PipelineStage) (s : RunState) : Prop where
  stage : s.stage = stage
  db : Unfinished start id row s.db
  visible : ∀ db ∈ s.visible, Unfinished start id row db

/-- What raises leaves the run at work, at the stage of the step that has raised. -/
def Raises (x : RunStep × PyException) (s : RunState) : Prop := Working start id row x.1.stage s

/-- The last session has made everything visible at once. -/
structure Completed (config : PipelineConfig) (env : RunEnv) (target : Date) (a : Analysis)
    (record : WatchlistPipelineExecution) (s : RunState) : Prop where
  together : ∃ earlier, s.visible = earlier ++ [s.db] ∧ ∀ db ∈ earlier, Unfinished start id row db
  last : ∃ db, Unfinished start id row db ∧ s.db = published config env id target a db
  stored : s.db.executions.get? id = some record
  written : ∃ stage, record = config.success a env.finishedAt { row with stage }

variable {start id row} {step : RunStep}

theorem run_inSession {α : Type} {body : PipelineDb → Except PyException α × PipelineDb}
    (s : RunState) : (inSession env step body).run s = match raised (env.faults step) with
      | .error exc => .error (step, exc) s
      | .ok () => match body s.db with
        | (.ok a, db) => .ok a (s.publish db)
        | (.error exc, db) => .error (step, exc) (s.publish db) := rfl

variable (step) in
theorem inSession_working {α : Type} {body : PipelineDb → Except PyException α × PipelineDb}
    (hbody : ∀ db, Unfinished start id row db → Unfinished start id row (body db).2) :
    Triple (Working start id row step.stage) (inSession env step body)
      (fun a s => Working start id row step.stage s ∧ ∃ db, (body db).1 = .ok a)
      (Raises start id row) := by
  intro s hs
  rw [run_inSession]
  cases raised (env.faults step) with
  | error exc => exact hs
  | ok _ =>
    have hdb := hbody s.db hs.db
    have hpublish : Working start id row step.stage (s.publish (body s.db).2) := by
      refine ⟨hs.stage, hdb, ?_⟩
      intro db hmem
      rcases List.mem_append.mp hmem with hmem | hmem
      · exact hs.visible db hmem
      · rw [List.mem_singleton] at hmem
        rw [hmem]
        exact hdb
    rcases hrun : body s.db with ⟨result, after⟩
    rw [hrun] at hpublish
    cases result with
    | ok a => exact ⟨hpublish, s.db, by rw [hrun]⟩
    | error exc => exact hpublish

variable (step) in
theorem computing_working {α : Type} {x : Except PyException α} :
    Triple (Working start id row step.stage) (computing env step x)
      (fun a s => Working start id row step.stage s ∧ x = .ok a) (Raises start id row) := by
  apply Triple.raiseError
  · intro a s hx hs
    obtain ⟨_, -, hx⟩ := bind_ok.mp (mapError_ok.mp hx)
    exact ⟨hs, hx⟩
  · intro y s hx hs
    cases hraised : raised (env.faults step) >>= fun _ => x with
    | ok a =>
      rw [hraised] at hx
      cases hx
    | error exc =>
      rw [hraised] at hx
      rw [← Except.error.inj hx]
      exact hs

theorem enterStage_working {stage next : PipelineStage} :
    Triple (Working start id row stage) (enterStage env id next)
      (fun _ => Working start id row next) (Raises start id row) := by
  have hassign : Triple (Working start id row stage)
      (modify fun s => { s with stage := next } : RunProgram Unit)
      (fun _ => Working start id row next) (Raises start id row) :=
    fun _ hs => ⟨rfl, hs.db, hs.visible⟩
  refine hassign.bind fun _ => (inSession_working (.recordStage next) ?_).conseq
    (fun _ hs => hs) (fun _ _ hs => hs.1) fun _ _ hs => hs
  intro db hdb
  split_ifs
  · obtain ⟨stage, hown⟩ := hdb.own
    refine ⟨hdb.entries, ?_, next, ?_⟩
    · intro other hne
      rw [Dict.get?_modify, if_neg hne]
      exact hdb.others other hne
    · rw [Dict.get?_modify, if_pos rfl, hown]
      rfl
  · exact hdb

theorem syncPhase_working (force : Bool) :
    Triple (Working start id row (System.firstStage force)) (syncPhase config env id force)
      (fun _ => Working start id row (System.firstStage force)) (Raises start id row) := by
  cases force with
  | true => exact Triple.pure fun _ hs => hs
  | false =>
    refine enterStage_working.bind fun _ => (inSession_working .syncAll ?_).bind fun _ =>
      Triple.pure fun _ hs => hs.1
    intro db hdb
    exact ⟨hdb.entries, hdb.others, hdb.own⟩

/-- The last session leaves the run at work, or completes it. -/
theorem persist_completed {target : Date} {a : Analysis} :
    Triple (Working start id row .watchlistPersistence)
      (inSession env .persist (persistSession config env id target a))
      (fun record s => Completed start id row config.toPipelineConfig env target a record s)
      (Raises start id row) := by
  intro s hs
  rw [run_inSession]
  cases raised (env.faults .persist) with
  | error exc => exact hs
  | ok _ =>
    unfold persistSession
    rcases hrun : (persist config env id target a).request s.db with ⟨result, after⟩
    cases result with
    | ok record =>
      obtain ⟨⟨found, hfound, rfl⟩, -, -, rfl⟩ := persist_returns.mp hrun
      obtain ⟨stage, hown⟩ := hs.db.own
      rw [hown, Option.some.injEq] at hfound
      subst hfound
      dsimp only
      refine ⟨⟨s.visible, rfl, hs.visible⟩, ⟨s.db, hs.db, rfl⟩, ?_, stage, rfl⟩
      show (s.db.executions.modify id _).get? id = _
      rw [Dict.get?_modify, if_pos rfl, hown]
      rfl
    | error exc =>
      obtain rfl := persist_uncommitted.request_error hrun
      dsimp only
      exact ⟨hs.stage, hs.db, forall_mem_concat hs.visible hs.db⟩

/-- A run at work completes, with the analysis of a batch that it has loaded, or
raises while it is still at work. -/
theorem work_completed {target : Date} {force : Bool} :
    Triple (Working start id row (System.firstStage force)) (work config env id target force)
      (fun record s => ∃ market inputs a, loadInputs config.screening market target = .ok inputs ∧
        analyze config.screening inputs = .ok a ∧
        Completed start id row config.toPipelineConfig env target a record s)
      (Raises start id row) := by
  refine (syncPhase_working force).bind fun _ => enterStage_working.bind fun _ =>
    (inSession_working .loadInputs fun _ hdb => hdb).bind fun inputs =>
    Triple.of_fact fun hinputs => enterStage_working.bind fun _ => enterStage_working.bind fun _ =>
    (computing_working .scan).bind fun candidates =>
    Triple.of_fact fun hscan => enterStage_working.bind fun _ =>
    (computing_working .rank).bind fun scored =>
    Triple.of_fact fun hrank => enterStage_working.bind fun _ =>
    persist_completed.conseq (fun _ hs => hs) ?_ fun _ _ hs => hs
  intro record s hs
  obtain ⟨db, hinputs⟩ := hinputs
  refine ⟨db.market, inputs, _, hinputs, ?_, hs⟩
  rw [analyze]
  exact bind_ok.mpr ⟨candidates, mapError_ok.mp hscan,
    bind_ok.mpr ⟨scored, mapError_ok.mp hrank, rfl⟩⟩

end Working

/-! ## The run -/

/-- Nothing of a watchlist has changed: no entry, and no row has succeeded since. -/
structure Unpublished (before db : PipelineDb) : Prop where
  entries : db.entries = before.entries
  succeeded : ∀ id row, db.executions.get? id = some row → row.status = .succeeded →
    before.executions.get? id = some row

/-- A run that a step has failed: what others have seen at any moment, and its row. -/
structure FailedRun (before : PipelineDb) (id : ExecutionId) (target : Date) (step : RunStep)
    (s : RunState) : Prop where
  last : s.db ∈ s.visible
  always : ∀ db ∈ s.visible, Unpublished before db
  row : ∃ row, s.db.executions.get? id = some row ∧ row.tradingDate = target ∧
    row.status = .failed ∧ row.errorCode = some (step.stage.value ++ "_failed")

/-- A run that has succeeded: until the last session others have seen nothing of
it, then its row and its entries at once. -/
structure SucceededRun (config : PipelineConfig) (before : PipelineDb) (id : ExecutionId)
    (target : Date) (s : RunState) : Prop where
  together : ∃ earlier, s.visible = earlier ++ [s.db] ∧ ∀ db ∈ earlier, Unpublished before db
  row : ∃ row, s.db.executions.get? id = some row ∧ row.tradingDate = target ∧
    row.status = .succeeded
  others : ∀ other row, other ≠ id → s.db.executions.get? other = some row →
    row.status = .succeeded → before.executions.get? other = some row
  entries : ∃ market inputs a, loadInputs config.screening market target = .ok inputs ∧
    analyze config.screening inputs = .ok a ∧
    saveEntries before.entries target a.ranked = .ok s.db.entries

variable (config) in
/-- The acquisition is a call of the repository. -/
theorem acquire_afterAcquire (hanswers : env.Answers invocation db.executions) :
    db.executions.acquire (config.acquireCall invocation) env.reads =
      some (afterAcquire config env invocation db).executions := by
  obtain ⟨hrunning, hsucceeded, hfresh⟩ := hanswers
  exact if_pos ⟨config.stalePositive, hrunning, hsucceeded, hfresh⟩

theorem afterAcquire_unpublished (hanswers : env.Answers invocation db.executions) :
    Unpublished db (afterAcquire config env invocation db) := by
  have hacquire := acquire_afterAcquire config hanswers
  refine ⟨rfl, ?_⟩
  intro id row hrow hstatus
  cases hbefore : db.executions.get? id with
  | none =>
    obtain ⟨-, -, rfl⟩ := acquire_new hacquire hbefore hrow
    cases hstatus
  | some old =>
    rw [acquire_row hacquire hbefore] at hrow
    split_ifs at hrow
    · rw [← Option.some.inj hrow] at hstatus
      cases hstatus
    · exact hrow

section Acquired

/-- The row of a run that has acquired its date. -/
def ownRow (env : RunEnv) (invocation : Invocation) : WatchlistPipelineExecution :=
  newExecution env.reads.uuid4 invocation.tradingDate invocation.trigger env.reads.now

theorem atWork_working (hgranted : (acquisition config env invocation db).status = .acquired) :
    Working (afterAcquire config env invocation db) env.reads.uuid4 (ownRow env invocation)
      (System.firstStage invocation.forceReanalysis) (atWork config env invocation db) := by
  have hdb : Unfinished (afterAcquire config env invocation db) env.reads.uuid4
      (ownRow env invocation) (afterAcquire config env invocation db) := by
    refine ⟨rfl, fun _ _ => rfl, .duplicateCheck, ?_⟩
    exact (get?_acquireWrites _ _ _ _ _).trans (if_pos ⟨rfl, hgranted⟩)
  refine ⟨rfl, hdb, ?_⟩
  intro other hother
  rw [List.mem_singleton.mp hother]
  exact hdb

theorem Unfinished.unpublished {id : ExecutionId} {now : PipelineDb}
    (h : Unfinished (afterAcquire config env invocation db) id (ownRow env invocation) now)
    (hanswers : env.Answers invocation db.executions) : Unpublished db now := by
  refine ⟨h.entries, ?_⟩
  intro other row hrow hstatus
  by_cases hother : other = id
  · obtain ⟨stage, hown⟩ := h.own
    rw [hother, hown, Option.some.injEq] at hrow
    rw [← hrow] at hstatus
    cases hstatus
  · rw [h.others other hother] at hrow
    exact (afterAcquire_unpublished hanswers).succeeded other row hrow hstatus

theorem dailyRun_acquired (hweekday : weekday invocation.tradingDate < 5)
    (hgranted : (acquisition config env invocation db).status = .acquired) :
    dailyRun config env invocation db =
      match (work config env env.reads.uuid4 invocation.tradingDate
          invocation.forceReanalysis).run (atWork config env invocation db) with
        | .ok record s => (.ok (.of record), s)
        | .error (_, exc) s => recordFailure env env.reads.uuid4 exc s := by
  rw [dailyRun, if_neg (not_le.mpr hweekday)]
  exact if_neg (not_not.mpr hgranted)

/-- The handler fails the run's row with the stage of the step that has raised. -/
theorem recordFailure_failed {step : RunStep} {exc : PyException} {t : RunState}
    (hanswers : env.Answers invocation db.executions)
    (h : Raises (afterAcquire config env invocation db) env.reads.uuid4 (ownRow env invocation)
      (step, exc) t) :
    FailedRun db env.reads.uuid4 invocation.tradingDate step
      (recordFailure env env.reads.uuid4 exc t).2 := by
  obtain ⟨stage, hown⟩ := h.db.own
  have hbefore := h.db.unpublished hanswers
  simp only [recordFailure, hown]
  refine ⟨List.mem_append_right _ List.mem_cons_self, ?_, ?_⟩
  · refine forall_mem_concat (fun now hnow => (h.visible now hnow).unpublished hanswers) ?_
    refine ⟨hbefore.entries, ?_⟩
    intro other row hrow hstatus
    change (t.db.executions.modify env.reads.uuid4 _).get? other = some row at hrow
    rw [Dict.get?_modify] at hrow
    split_ifs at hrow
    · obtain ⟨old, -, rfl⟩ := Option.map_eq_some_iff.mp hrow
      cases hstatus
    · exact hbefore.succeeded other row hrow hstatus
  · refine ⟨_, (Dict.get?_modify _ _ _ _).trans ((if_pos rfl).trans (congrArg _ hown)), rfl, rfl,
      ?_⟩
    show some (t.stage.value ++ "_failed") = _
    rw [h.stage]

theorem Completed.succeededRun {market : MarketDb} {inputs : List ScanInput} {a : Analysis}
    {record : WatchlistPipelineExecution} {t : RunState}
    (h : Completed (afterAcquire config env invocation db) env.reads.uuid4 (ownRow env invocation)
      config.toPipelineConfig env invocation.tradingDate a record t)
    (hanswers : env.Answers invocation db.executions)
    (hinputs : loadInputs config.screening market invocation.tradingDate = .ok inputs)
    (hanalysis : analyze config.screening inputs = .ok a) :
    SucceededRun config.toPipelineConfig db env.reads.uuid4 invocation.tradingDate t := by
  obtain ⟨earlier, hvisible, hearlier⟩ := h.together
  obtain ⟨stage, hrecord⟩ := h.written
  obtain ⟨now, hnow, hlast⟩ := h.last
  refine ⟨⟨earlier, hvisible, fun other hother => (hearlier other hother).unpublished hanswers⟩,
    ⟨record, h.stored, by rw [hrecord]; rfl, by rw [hrecord]; rfl⟩, ?_,
    ⟨market, inputs, a, hinputs, hanalysis, ?_⟩⟩
  · intro other row hne hrow hstatus
    rw [hlast] at hrow
    change (now.executions.modify env.reads.uuid4 _).get? other = some row at hrow
    rw [Dict.get?_modify, if_neg hne] at hrow
    exact (hnow.unpublished hanswers).succeeded other row hrow hstatus
  · rw [saveEntries_ranked _ _ (analyze_coherent hanalysis).ranked, hlast, published, hnow.entries]
    rfl

/-- **A failed run never damages a watchlist.** Whichever step of a run raises,
others never see an entry or a success of it, and its row is failed with the stage
of that step. Where nothing raises, they see both at once. -/
theorem failed_run_unpublished (hanswers : env.Answers invocation db.executions)
    (hweekday : weekday invocation.tradingDate < 5)
    (hgranted : (acquisition config env invocation db).status = .acquired) :
    (∀ step exc t, (work config env env.reads.uuid4 invocation.tradingDate
        invocation.forceReanalysis).run (atWork config env invocation db) = .error (step, exc) t →
      FailedRun db env.reads.uuid4 invocation.tradingDate step
        (dailyRun config env invocation db).2) ∧
    ∀ record t, (work config env env.reads.uuid4 invocation.tradingDate
        invocation.forceReanalysis).run (atWork config env invocation db) = .ok record t →
      SucceededRun config.toPipelineConfig db env.reads.uuid4 invocation.tradingDate
        (dailyRun config env invocation db).2 := by
  have hwork := atWork_working hgranted
  rw [dailyRun_acquired hweekday hgranted]
  constructor
  · intro step exc t hrun
    rw [hrun]
    exact recordFailure_failed hanswers (work_completed.of_error hwork hrun)
  · intro record t hrun
    rw [hrun]
    obtain ⟨market, inputs, a, hinputs, hanalysis, hcompleted⟩ := work_completed.of_ok hwork hrun
    exact hcompleted.succeededRun hanswers hinputs hanalysis

end Acquired

/-! ## A commit that fails -/

def sampleDaily : DailyConfig := { defaultPipeline with bars := sampleConfig }

/-- Monday 2026-08-03. -/
def sampleMonday : Date := 739831

def sampleSuccess : WatchlistPipelineExecution :=
  { newExecution 101 sampleMonday .scheduled 0 with status := .succeeded, stage := .completed }

def sampleCandidate (symbol : Symbol) (rank : Nat) : RankedCandidate :=
  ⟨symbol, rank, 90, [], ⟨symbol, true, [], [], [], [], none, [], [], []⟩, []⟩

/-- Watchlists published for Friday and for Monday, and a stock with the bar of Monday. -/
def sampleTables : PipelineDb where
  market := ⟨Dict.empty.set "000001" sampleStock,
    Dict.empty.set ("000001", sampleMonday) ⟨100, 100, 100, 100, 1000, "toss", none⟩,
    ⟨Dict.empty, Dict.empty⟩⟩
  executions := Dict.empty.set 101 sampleSuccess
  entries := [⟨739828, sampleCandidate "000001" 1⟩, ⟨sampleMonday, sampleCandidate "000001" 1⟩,
    ⟨sampleMonday, sampleCandidate "000002" 2⟩]

def sampleReanalysis : Invocation := ⟨sampleMonday, .manualReanalysis, true⟩

/-- No stock and no bar is received, and the last commit may fail. -/
def sampleEnv (succeeded : Option ExecutionId) (commit : Option PyException) : RunEnv where
  reads := ⟨none, succeeded, 8000000000, 102⟩
  startedAt := 8000000000
  finishedAt := 8100000000
  stocks := ⟨⟨.ok [], fun _ => .ok []⟩, {}⟩
  stocksClock := sampleClock
  bars := { today := sampleMonday, dailyBars := fun _ _ _ => .ok [] }
  barsClock := sampleClock
  statements := { commit }

theorem failed_run_unpublished_sample :
    FailedRun sampleTables 102 sampleMonday .persist
      (dailyRun sampleDaily (sampleEnv (some 101) (some offline)) sampleReanalysis
        sampleTables).2 := by
  have hanswers : (sampleEnv (some 101) (some offline)).Answers sampleReanalysis
      sampleTables.executions := by
    unfold RunEnv.Answers
    decide +kernel
  exact (failed_run_unpublished hanswers (by decide) rfl).1 .persist offline _ rfl

end Screener.Market
