import Screener.Market.DailyRunSafety

/-!
# Dates without market data

On a date without bars the batch of scan inputs is empty, and an empty batch
flows through every stage: the run succeeds and replaces the entries of the date
by none. Only a refused acquisition skips such a date.
-/

namespace Screener.Market

open Screener.Lib

variable {config : DailyConfig} {env : RunEnv} {invocation : Invocation} {db : PipelineDb}

/-! ## When an acquisition is refused -/

/-- The run is refused its date: a row of it is running and not stale, or it has
succeeded and the run is a normal one, or it has not and the run is forced. -/
def Refused (config : PipelineConfig) (env : RunEnv) (invocation : Invocation)
    (executions : Executions) : Prop :=
  (∃ id row, executions.get? id = some row ∧ row.tradingDate = invocation.tradingDate ∧
    row.status = .running ∧ env.reads.now - config.staleAfter ≤ row.startedAt) ∨
  (invocation.forceReanalysis = false ↔ ∃ id row, executions.get? id = some row ∧
    row.tradingDate = invocation.tradingDate ∧ row.status = .succeeded)

theorem succeeded_isSome {executions : Executions} {date : Date} {answer : Option ExecutionId}
    (h : executions.MayReturn date .succeeded answer) :
    answer.isSome = true ↔ ∃ id row, executions.get? id = some row ∧ row.tradingDate = date ∧
      row.status = .succeeded := by
  cases answer with
  | none =>
    refine ⟨fun hsome => absurd hsome Bool.false_ne_true, ?_⟩
    intro ⟨id, row, hrow, hdate, hstatus⟩
    exact absurd hstatus (mayReturn_none h hrow hdate)
  | some id => exact ⟨fun _ => ⟨id, mayReturn_some h⟩, fun _ => rfl⟩

/-- A running row that is not stale is there exactly when the one that started last
is such a row. -/
theorem running_fresh {executions : Executions} {date : Date} {answer : Option ExecutionId}
    {limit : Instant} (h : executions.MayReturn date .running answer) :
    (∃ id row, executions.get? id = some row ∧ row.tradingDate = date ∧ row.status = .running ∧
      limit ≤ row.startedAt) ↔
      ∃ id started, executions.startedAt? answer = some (id, started) ∧ limit ≤ started := by
  cases answer with
  | none =>
    constructor
    · rintro ⟨id, row, hrow, hdate, hstatus, -⟩
      exact absurd hstatus (mayReturn_none h hrow hdate)
    · rintro ⟨id, started, hread, -⟩
      cases hread
  | some newest =>
    obtain ⟨row, hrow, hdate, hstatus⟩ := mayReturn_some h
    have hread : executions.startedAt? (some newest) = some (newest, row.startedAt) := by
      simp only [Executions.startedAt?, Option.bind_some, hrow, Option.map_some]
    rw [hread]
    constructor
    · rintro ⟨id, other, hother, hotherDate, hotherStatus, hlimit⟩
      unfold Executions.MayReturn at h
      rw [Option.bind_some, hrow] at h
      exact ⟨newest, row.startedAt, rfl, hlimit.trans
        (h.2.2 other (Dict.mem_values.mpr ⟨id, hother⟩) hotherDate hotherStatus)⟩
    · rintro ⟨id, started, heq, hlimit⟩
      cases heq
      exact ⟨newest, row, hrow, hdate, hstatus, hlimit⟩

variable (config) in
theorem refused_iff (hanswers : env.Answers invocation db.executions) :
    (acquisition config env invocation db).status ≠ .acquired ↔
      Refused config.toPipelineConfig env invocation db.executions := by
  obtain ⟨hrunning, hsucceeded, -⟩ := hanswers
  rw [acquisition, Executions.acquireResult, ne_eq, decideAcquire_acquired, not_and_or, Refused,
    running_fresh hrunning, ← succeeded_isSome hsucceeded]
  refine or_congr ?_ ?_
  · push Not
    rfl
  · show ¬ invocation.forceReanalysis = env.reads.succeeded.isSome ↔ _
    cases invocation.forceReanalysis <;> cases env.reads.succeeded.isSome <;> simp

/-! ## What a refused run leaves -/

/-- The date of the run gets no succeeded row, readers see what they saw, and the
run is skipped. -/
structure Skipped (before : PipelineDb) (date : Date)
    (outcome : Except PyException PipelineResult × RunState) : Prop where
  succeeded : ∀ id row, outcome.2.db.executions.get? id = some row → row.tradingDate = date →
    row.status = .succeeded → before.executions.get? id = some row
  entries : outcome.2.db.entries = before.entries
  latest : outcome.2.db.latest = before.latest
  history : outcome.2.db.history = before.history
  skipped : ∃ result, outcome.1 = .ok result ∧ result.status = .skipped

theorem dailyRun_refused (hweekday : weekday invocation.tradingDate < 5)
    (hrefused : (acquisition config env invocation db).status ≠ .acquired) :
    dailyRun config env invocation db =
      (.ok (skippedResult env invocation .duplicateCheck
        (acquisition config env invocation db).status.value), atWork config env invocation db) := by
  rw [dailyRun, if_neg (not_le.mpr hweekday)]
  exact if_pos hrefused

/-- A refused acquisition recovers a stale row or does nothing: the succeeded dates
stay as they are. -/
theorem afterAcquire_refused (hanswers : env.Answers invocation db.executions)
    (hrefused : (acquisition config env invocation db).status ≠ .acquired) :
    (afterAcquire config env invocation db).executions.succeededDates =
        db.executions.succeededDates ∧
      (afterAcquire config env invocation db).executions.keys = db.executions.keys := by
  have hacquire := acquire_afterAcquire config hanswers
  have hwrites : (afterAcquire config env invocation db).executions =
      (ofExecutions db.executions).cleared
        (acquisition config env invocation db).recoveredExecutionId env.reads.now := if_neg hrefused
  rw [hwrites]
  cases hid : (acquisition config env invocation db).recoveredExecutionId with
  | none => exact ⟨rfl, rfl⟩
  | some id =>
    obtain ⟨row, hrow, -, hstatus, -⟩ := recovered_row hacquire hid
    refine ⟨congrArg (List.map _) (Dict.filter_values_modify ?_ fun _ => rfl),
      Dict.keys_modify _ _ _⟩
    intro found hfound
    change db.executions.get? id = some found at hfound
    rw [hrow, Option.some.injEq] at hfound
    rw [← hfound, hstatus]
    rfl

theorem refused_skipped (hanswers : env.Answers invocation db.executions)
    (hweekday : weekday invocation.tradingDate < 5)
    (hrefused : (acquisition config env invocation db).status ≠ .acquired) :
    Skipped db invocation.tradingDate (dailyRun config env invocation db) := by
  rw [dailyRun_refused hweekday hrefused]
  obtain ⟨hdates, hkeys⟩ := afterAcquire_refused hanswers hrefused
  have hlatest : (afterAcquire config env invocation db).latestDate? = db.latestDate? := by
    rw [PipelineDb.latestDate?, PipelineDb.latestDate?, hdates, hkeys]
    rfl
  refine ⟨fun id row hrow _ hstatus =>
    (afterAcquire_unpublished hanswers).succeeded id row hrow hstatus, rfl, ?_, ?_, _, rfl, rfl⟩
  · show (afterAcquire config env invocation db).latest = db.latest
    rw [PipelineDb.latest, PipelineDb.latest, hlatest]
    rfl
  · show (afterAcquire config env invocation db).history = db.history
    rw [PipelineDb.history, PipelineDb.history, hdates, hkeys]
    rfl

/-- A run that has acquired its date is not skipped, whatever happens to it. -/
theorem acquired_not_skipped (hweekday : weekday invocation.tradingDate < 5)
    (hgranted : (acquisition config env invocation db).status = .acquired) :
    ¬ Skipped db invocation.tradingDate (dailyRun config env invocation db) := by
  intro hskipped
  obtain ⟨result, hresult, hstatus⟩ := hskipped.skipped
  rw [dailyRun_acquired hweekday hgranted] at hresult
  cases hrun : (work config env env.reads.uuid4 invocation.tradingDate
      invocation.forceReanalysis).run (atWork config env invocation db) with
  | ok record t =>
    obtain ⟨_, _, _, -, -, hcompleted⟩ := work_completed.of_ok (atWork_working hgranted) hrun
    obtain ⟨stage, hrecord⟩ := hcompleted.written
    rw [hrun, Except.ok.injEq] at hresult
    rw [← hresult, hrecord] at hstatus
    cases hstatus
  | error x t =>
    obtain ⟨stage, hown⟩ := (work_completed.of_error (atWork_working hgranted) hrun).db.own
    rw [hrun] at hresult
    simp only [recordFailure, hown, Except.ok.injEq] at hresult
    rw [← hresult] at hstatus
    cases hstatus

/-! ## An empty batch -/

/-- The market that the scan inputs of a run are read from. -/
def scannedMarket (config : DailyConfig) (env : RunEnv) (invocation : Invocation)
    (db : PipelineDb) : MarketDb :=
  if invocation.forceReanalysis then db.market else (syncAll config env db.market).2

/-- No bar of an eligible stock is dated on the day of the run. -/
def NoMarketData (market : MarketDb) (date : Date) : Prop :=
  ∀ symbol stock, market.stocks.get? symbol = some stock → stock.Eligible →
    market.bars.get? (symbol, date) = none

/-- The check constraints of `daily_bars`. -/
def Checked (market : MarketDb) : Prop :=
  ∀ symbol date columns, market.bars.get? (symbol, date) = some columns →
    (columns.record symbol date).NonNegative ∧ (columns.record symbol date).ValidOhlc

/-- Without market data there is no scan input. -/
theorem loadInputs_empty {c : SwingScreeningConfig} {market : MarketDb} {target : Date}
    (hchecked : Checked market) (hnone : NoMarketData market target) :
    loadInputs c market target = .ok [] := by
  have hbars : ∀ group ∈ groupedBars c market target, ∀ bar ∈ group.2, ∃ date columns,
      market.bars.get? (group.1, date) = some columns ∧ bar = columns.record group.1 date := by
    intro group hgroup bar hbar
    obtain ⟨symbol, -, rfl⟩ := List.mem_map.mp hgroup
    obtain ⟨⟨columns, hcolumns, hrecord⟩, -⟩ := mem_barsUpTo.mp (List.mem_of_mem_drop hbar)
    exact ⟨bar.tradingDate, columns, hcolumns, hrecord.symm⟩
  have hvalid : (groupedBars c market target).mapM (fun group => do
      let bars ← group.2.mapM validatedBar
      return (group.1, bars)) = .ok (groupedBars c market target) := by
    refine mapM_id fun group hgroup => ?_
    have hrows : group.2.mapM validatedBar = .ok group.2 := by
      refine mapM_id fun bar hbar => ?_
      obtain ⟨date, columns, hcolumns, rfl⟩ := hbars group hgroup bar hbar
      exact if_pos (hchecked group.1 date columns hcolumns)
    rw [hrows]
    rfl
  have hends : (groupedBars c market target).filter (fun group => endsOn target group.2) = [] := by
    rw [List.filter_eq_nil_iff]
    intro group hgroup hends
    cases hlast : group.2.getLast? with
    | none =>
      rw [endsOn, hlast] at hends
      cases hends
    | some bar =>
      rw [endsOn, hlast, Option.any_some, decide_eq_true_eq] at hends
      obtain ⟨date, columns, hcolumns, rfl⟩ :=
        hbars group hgroup bar (List.mem_of_getLast? hlast)
      obtain ⟨symbol, hsymbol, rfl⟩ := List.mem_map.mp hgroup
      obtain ⟨stock, hstock, heligible⟩ := StockTable.mem_eligible.mp hsymbol
      obtain rfl : date = target := hends
      rw [hnone symbol stock hstock heligible] at hcolumns
      cases hcolumns
  rw [loadInputs, hvalid]
  show List.mapM _ (List.filter _ _) = _
  rw [hends]
  rfl

/-- Nothing raises beside the program itself: no session, no statement, and not the
synchronization of a normal run. -/
structure Undisturbed (config : DailyConfig) (env : RunEnv) (invocation : Invocation)
    (db : PipelineDb) : Prop where
  faults : ∀ step, env.faults step = none
  statements : env.statements.None
  sync : invocation.forceReanalysis = false →
    ∃ results, (syncAll config env db.market).1 = .ok results

section Empty

variable {start : PipelineDb} {market : MarketDb} {id : ExecutionId}

/-- A run on its way with this market, its row and the entries of before. -/
structure OnWay (start : PipelineDb) (market : MarketDb) (id : ExecutionId) (s : RunState) :
    Prop where
  market : s.db.market = market
  entries : s.db.entries = start.entries
  row : id ∈ s.db.executions.keys

theorem enterStage_onWay (hfaults : ∀ step, env.faults step = none) (stage : PipelineStage) :
    Triple (OnWay start market id) (enterStage env id stage) (fun _ => OnWay start market id)
      (fun _ _ => False) := by
  have hassign : Triple (OnWay start market id)
      (modify fun s => { s with stage } : RunProgram Unit) (fun _ => OnWay start market id)
      (fun _ _ => False) := fun _ hs => ⟨hs.market, hs.entries, hs.row⟩
  refine hassign.bind fun _ => ?_
  intro s hs
  rw [run_inSession, hfaults]
  simp only [raised, if_pos hs.row]
  refine ⟨hs.market, hs.entries, ?_⟩
  show id ∈ (s.db.executions.modify id _).keys
  rw [Dict.keys_modify]
  exact hs.row

theorem syncPhase_onWay (h : Undisturbed config env invocation db) :
    Triple (OnWay start db.market id) (syncPhase config env id invocation.forceReanalysis)
      (fun _ => OnWay start (scannedMarket config env invocation db) id) (fun _ _ => False) := by
  cases hforce : invocation.forceReanalysis with
  | true =>
    have hmarket : scannedMarket config env invocation db = db.market := if_pos hforce
    rw [hmarket]
    exact Triple.pure fun _ hs => hs
  | false =>
    obtain ⟨results, hresults⟩ := h.sync hforce
    have hmarket : scannedMarket config env invocation db = (syncAll config env db.market).2 :=
      if_neg (by simp [hforce])
    refine (enterStage_onWay h.faults .marketSync).bind fun _ => ?_
    have hsync : Triple (OnWay start db.market id)
        (inSession env .syncAll (syncSession config env))
        (fun _ => OnWay start (scannedMarket config env invocation db) id) (fun _ _ => False) := by
      intro s hs
      rw [run_inSession, h.faults]
      simp only [raised, syncSession, hs.market, hresults]
      exact ⟨hmarket.symm, hs.entries, hs.row⟩
    exact hsync.bind fun _ => Triple.pure fun _ hs => hs

theorem computing_onWay {α : Type} {step : RunStep} {x : Except PyException α} {a : α}
    (hfaults : ∀ step, env.faults step = none) (hx : x = .ok a) :
    Triple (OnWay start market id) (computing env step x)
      (fun b s => OnWay start market id s ∧ b = a) (fun _ _ => False) := by
  rw [computing, hfaults, hx]
  exact Triple.pure fun _ hs => ⟨hs, rfl⟩

theorem analysisOf_empty (c : SwingScreeningConfig) : analysisOf c [] [] [] = ⟨0, 0, 0, []⟩ := by
  simp [analysisOf]

/-- An empty batch flows through every stage and replaces the entries by none. -/
theorem work_empty (h : Undisturbed config env invocation db)
    (hinputs : loadInputs config.screening (scannedMarket config env invocation db)
      invocation.tradingDate = .ok []) :
    Triple (OnWay start db.market id)
      (work config env id invocation.tradingDate invocation.forceReanalysis)
      (fun _ s => s.db.entries = start.entries.filter (·.tradingDate ≠ invocation.tradingDate))
      (fun _ _ => False) := by
  have hload : Triple (OnWay start (scannedMarket config env invocation db) id)
      (inSession env .loadInputs fun db =>
        (loadInputs config.screening db.market invocation.tradingDate, db))
      (fun inputs s => OnWay start (scannedMarket config env invocation db) id s ∧ inputs = [])
      (fun _ _ => False) := by
    intro s hs
    rw [run_inSession, h.faults]
    simp only [raised, hs.market, hinputs]
    exact ⟨⟨hs.market, hs.entries, hs.row⟩, trivial⟩
  have hpersist : Triple (OnWay start (scannedMarket config env invocation db) id)
      (inSession env .persist (persistSession config env id invocation.tradingDate
        (analysisOf config.screening [] [] [])))
      (fun _ s => s.db.entries = start.entries.filter (·.tradingDate ≠ invocation.tradingDate))
      (fun _ _ => False) := by
    rw [analysisOf_empty]
    intro s hs
    obtain ⟨row, hrow⟩ := Dict.mem_keys.mp hs.row
    have hrun : (persist config env id invocation.tradingDate ⟨0, 0, 0, []⟩).request s.db =
        (.ok (config.success ⟨0, 0, 0, []⟩ env.finishedAt row),
          published config.toPipelineConfig env id invocation.tradingDate ⟨0, 0, 0, []⟩ s.db) :=
      persist_returns.mpr ⟨⟨row, hrow, rfl⟩, rfl, h.statements, rfl⟩
    rw [run_inSession, h.faults]
    simp only [raised, persistSession]
    rw [hrun]
    show s.db.entries.filter _ ++ [] = _
    rw [hs.entries, List.append_nil]
  refine (syncPhase_onWay h).bind fun _ => (enterStage_onWay h.faults _).bind fun _ =>
    hload.bind fun inputs => Triple.of_fact fun hempty =>
      (enterStage_onWay h.faults _).bind fun _ =>
    (enterStage_onWay h.faults _).bind fun _ => ?_
  subst hempty
  refine (computing_onWay h.faults rfl).bind fun candidates => Triple.of_fact fun hnone =>
    (enterStage_onWay h.faults _).bind fun _ => ?_
  subst hnone
  refine (computing_onWay h.faults rfl).bind fun scored => Triple.of_fact fun hnone =>
    (enterStage_onWay h.faults _).bind fun _ => ?_
  subst hnone
  exact hpersist

end Empty

/-- The date has succeeded without entries; where it is the newest one, the latest
watchlist is empty. -/
structure PublishedEmpty (before : PipelineDb) (id : ExecutionId) (date : Date)
    (after : PipelineDb) : Prop where
  row : ∃ row, after.executions.get? id = some row ∧ row.tradingDate = date ∧
    row.status = .succeeded
  entries : after.entries = before.entries.filter (·.tradingDate ≠ date)
  latest : (∀ other ∈ before.executions.succeededDates, other ≤ date) → after.latest = []

/-- A date that has succeeded without entries and is the newest one is what readers
see. -/
theorem SucceededRun.latest_empty {c : PipelineConfig} {id : ExecutionId} {date : Date}
    {s : RunState} (h : SucceededRun c db id date s)
    (hentries : s.db.entries = db.entries.filter (·.tradingDate ≠ date))
    (hnewest : ∀ other ∈ db.executions.succeededDates, other ≤ date) : s.db.latest = [] := by
  obtain ⟨row, hrow, hdate, hstatus⟩ := h.row
  have hmax : s.db.executions.succeededDates.max? = some date := by
    rw [List.max?_eq_some_iff]
    refine ⟨Executions.mem_succeededDates.mpr ⟨id, row, hrow, hdate, hstatus⟩, ?_⟩
    intro other hother
    obtain ⟨otherId, otherRow, hget, rfl, hsucceeded⟩ := Executions.mem_succeededDates.mp hother
    by_cases hid : otherId = id
    · rw [hid, hrow, Option.some.injEq] at hget
      exact (hget ▸ hdate).le
    · have hbefore := h.others otherId otherRow hid hget hsucceeded
      exact hnewest _ (Executions.mem_succeededDates.mpr
        ⟨otherId, otherRow, hbefore, rfl, hsucceeded⟩)
  rw [PipelineDb.latest, PipelineDb.latestDate?, hmax, hentries]
  show listEntries _ date = []
  rw [listEntries, List.filter_filter]
  have hnone : (db.entries.filter fun e => decide (e.tradingDate = date) &&
      decide (e.tradingDate ≠ date)) = [] := by
    simp
  rw [hnone]
  rfl

theorem holiday_published (hanswers : env.Answers invocation db.executions)
    (hweekday : weekday invocation.tradingDate < 5)
    (hchecked : Checked (scannedMarket config env invocation db))
    (hholiday : NoMarketData (scannedMarket config env invocation db) invocation.tradingDate)
    (hgranted : (acquisition config env invocation db).status = .acquired)
    (hquiet : Undisturbed config env invocation db) :
    PublishedEmpty db env.reads.uuid4 invocation.tradingDate
      (dailyRun config env invocation db).2.db := by
  have hworking := atWork_working hgranted
  have honWay : OnWay db db.market env.reads.uuid4 (atWork config env invocation db) := by
    obtain ⟨stage, hown⟩ := hworking.db.own
    exact ⟨rfl, rfl, Dict.mem_keys_of_get? hown⟩
  have hempty := work_empty hquiet (loadInputs_empty hchecked hholiday) _ honWay
  rw [dailyRun_acquired hweekday hgranted]
  cases hrun : (work config env env.reads.uuid4 invocation.tradingDate
      invocation.forceReanalysis).run (atWork config env invocation db) with
  | ok record t =>
    rw [hrun] at hempty
    obtain ⟨_, _, _, hinputs, hanalysis, hcompleted⟩ := work_completed.of_ok hworking hrun
    have hsucceeded := hcompleted.succeededRun hanswers hinputs hanalysis
    exact ⟨hsucceeded.row, hempty, hsucceeded.latest_empty hempty⟩
  | error x t =>
    rw [hrun] at hempty
    exact hempty.elim

/-- **A date without market data is skipped exactly when its acquisition is
refused.** Otherwise, where nothing raises, the date succeeds without entries and
the entries that it had are gone. -/
theorem holiday_skipped_iff (hanswers : env.Answers invocation db.executions)
    (hweekday : weekday invocation.tradingDate < 5)
    (hchecked : Checked (scannedMarket config env invocation db))
    (hholiday : NoMarketData (scannedMarket config env invocation db) invocation.tradingDate) :
    (Skipped db invocation.tradingDate (dailyRun config env invocation db) ↔
      Refused config.toPipelineConfig env invocation db.executions) ∧
    (¬ Refused config.toPipelineConfig env invocation db.executions →
      Undisturbed config env invocation db →
      PublishedEmpty db env.reads.uuid4 invocation.tradingDate
        (dailyRun config env invocation db).2.db) := by
  have hrefused := refused_iff config hanswers
  refine ⟨⟨fun hskipped => ?_, fun h => refused_skipped hanswers hweekday (hrefused.mpr h)⟩, ?_⟩
  · by_contra hnot
    have hgranted := not_not.mp (mt hrefused.mp hnot)
    exact acquired_not_skipped hweekday hgranted hskipped
  · intro hnot hquiet
    have hgranted := not_not.mp (mt hrefused.mp hnot)
    exact holiday_published hanswers hweekday hchecked hholiday hgranted hquiet

/-! ## A Monday without bars -/

/-- A watchlist published on Friday, with the bars up to that day. -/
def holidayTables : PipelineDb where
  market := ⟨Dict.empty.set "000001" sampleStock,
    Dict.empty.set ("000001", 739828) ⟨100, 100, 100, 100, 1000, "toss", none⟩,
    ⟨Dict.empty, Dict.empty⟩⟩
  executions := Dict.empty.set 101
    { newExecution 101 739828 .scheduled 0 with status := .succeeded, stage := .completed }
  entries := [⟨739828, sampleCandidate "000001" 1⟩]

def sampleScheduled : Invocation := ⟨sampleMonday, .scheduled, false⟩

theorem holidayTables_bars :
    (scannedMarket sampleDaily (sampleEnv none none) sampleScheduled holidayTables).bars.entries =
      [(("000001", 739828), ⟨100, 100, 100, 100, 1000, "toss", none⟩)] := by
  decide +kernel

theorem holidayTables_noMarketData : NoMarketData
    (scannedMarket sampleDaily (sampleEnv none none) sampleScheduled holidayTables)
    sampleMonday := by
  intro symbol stock _ _
  rw [Dict.get?_eq_none, Dict.keys, holidayTables_bars]
  intro hin
  have hdate : sampleMonday = 739828 := congrArg Prod.snd (List.mem_singleton.mp hin)
  exact absurd hdate (by decide)

theorem holidayTables_answers :
    (sampleEnv none none).Answers sampleScheduled holidayTables.executions := by
  unfold RunEnv.Answers
  decide +kernel

theorem holiday_skipped_iff_sample :
    PublishedEmpty holidayTables 102 sampleMonday
      (dailyRun sampleDaily (sampleEnv none none) sampleScheduled holidayTables).2.db := by
  have hchecked : Checked
      (scannedMarket sampleDaily (sampleEnv none none) sampleScheduled holidayTables) := by
    intro symbol date columns hcolumns
    rw [Dict.get?_eq_some, holidayTables_bars, List.mem_singleton] at hcolumns
    cases hcolumns
    decide +kernel
  have hnot : ¬ Refused sampleDaily.toPipelineConfig (sampleEnv none none) sampleScheduled
      holidayTables.executions := fun h =>
    (refused_iff sampleDaily holidayTables_answers).mpr h rfl
  exact (holiday_skipped_iff holidayTables_answers (by decide) hchecked
    holidayTables_noMarketData).2 hnot ⟨fun _ => rfl, ⟨rfl, rfl, rfl, rfl⟩,
      fun _ => exists_ok (by decide +kernel)⟩

/-- The provider has no bar of Monday, and the run of that day succeeds: the latest
watchlist was Friday's and is empty now. -/
theorem holiday_moves_latest :
    weekday sampleScheduled.tradingDate < 5 ∧
      (sampleEnv none none).Answers sampleScheduled holidayTables.executions ∧
      NoMarketData (scannedMarket sampleDaily (sampleEnv none none) sampleScheduled holidayTables)
        sampleMonday ∧
      holidayTables.latest = [sampleCandidate "000001" 1] ∧
      (dailyRun sampleDaily (sampleEnv none none) sampleScheduled holidayTables).2.db.latest = [] ∧
      ¬ Skipped holidayTables sampleMonday
        (dailyRun sampleDaily (sampleEnv none none) sampleScheduled holidayTables) := by
  have hlatest : holidayTables.latest = [sampleCandidate "000001" 1] := by decide +kernel
  have hempty :
      (dailyRun sampleDaily (sampleEnv none none) sampleScheduled holidayTables).2.db.latest =
        [] := by
    decide +kernel
  refine ⟨by decide, holidayTables_answers, holidayTables_noMarketData, hlatest, hempty, ?_⟩
  intro hskipped
  have hsame := hskipped.latest
  rw [hempty, hlatest] at hsame
  exact absurd hsame (List.cons_ne_nil _ _).symm

end Screener.Market
