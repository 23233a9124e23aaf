import Screener.Market.PipelineRules

/-!
# Who owns a date

The executions table under calls of its repository in any order: normal and
forced acquisitions of any dates, each atomic under the advisory lock of its
date, and stage and finish calls on any rows. One row of a date runs at a time,
whatever the clocks read.
-/

namespace Screener.Market

open Screener.Lib

/-! ## The repository calls -/

structure AcquireCall where
  tradingDate : Date
  trigger : TriggerType
  staleAfter : Instant
  forceReanalysis : Bool
deriving DecidableEq, Repr

def AcquireCall.invocation (call : AcquireCall) : Invocation :=
  ⟨call.tradingDate, call.trigger, call.forceReanalysis⟩

/-- The arguments of `finish`; each of them is written. -/
structure FinishCall where
  status : ExecutionStatus
  stage : PipelineStage
  screenedCount : Option Nat
  candidateCount : Option Nat
  qualifiedCount : Option Nat
  scoreThreshold : Option ℚ
  persistedCount : Option Nat
  skippedReason : Option String
  errorCode : Option String
  errorDetail : Option String
deriving DecidableEq, Repr

def FinishCall.write (call : FinishCall) (now : Instant) (row : WatchlistPipelineExecution) :
    WatchlistPipelineExecution :=
  { row with
    status := call.status
    stage := call.stage
    finishedAt := some now
    screenedCount := call.screenedCount
    candidateCount := call.candidateCount
    qualifiedCount := call.qualifiedCount
    scoreThreshold := call.scoreThreshold
    persistedCount := call.persistedCount
    skippedReason := call.skippedReason
    errorCode := call.errorCode
    errorDetail := call.errorDetail }

/-- The two ways in which a run finishes its row. -/
def successCall (threshold : ℚ) (a : Analysis) : FinishCall :=
  ⟨.succeeded, .completed, some a.screenedCount, some a.candidateCount, some a.qualifiedCount,
    some threshold, some a.ranked.length, none, none, none⟩

def failureCall (stage : PipelineStage) (exception : String) : FinishCall :=
  ⟨.failed, stage, none, none, none, none, none, none, some (stage.value ++ "_failed"),
    some (String.ofList (exception.toList.take 200))⟩

theorem finishedWith_eq (now : Instant) (threshold : ℚ) (a : Analysis) :
    finishedWith now threshold a = (successCall threshold a).write now := rfl

theorem failedAt_eq (now : Instant) (stage : PipelineStage) (exception : String) :
    failedAt now stage exception = (failureCall stage exception).write now := rfl

/-- The answers of the two queries of an acquisition, its clock and its new id. -/
structure AcquireReads where
  running : Option ExecutionId
  succeeded : Option ExecutionId
  now : Instant
  uuid4 : ExecutionId
deriving DecidableEq, Repr

inductive RepositoryAction where
  | acquire (call : AcquireCall) (reads : AcquireReads)
  | setStage (id : ExecutionId) (stage : PipelineStage)
  | finish (id : ExecutionId) (now : Instant) (call : FinishCall)
deriving DecidableEq, Repr

/-- A system with these executions and nothing else. -/
def ofExecutions (executions : Executions) : System := ⟨executions, [], Dict.empty, Dict.empty⟩

namespace Executions

variable (executions : Executions)

def startedAt? (id : Option ExecutionId) : Option (ExecutionId × Instant) :=
  id.bind fun id => (executions.get? id).map fun row => (id, row.startedAt)

/-- What `acquire` decides on the rows that its queries return. -/
def acquireResult (call : AcquireCall) (reads : AcquireReads) : AcquireResult :=
  decideAcquire call.staleAfter call.forceReanalysis (executions.startedAt? reads.running)
    reads.succeeded reads.now

/-- `acquire`; it raises where the timeout is not positive. -/
def acquire (call : AcquireCall) (reads : AcquireReads) : Option Executions :=
  if 0 < call.staleAfter ∧ executions.MayReturn call.tradingDate .running reads.running ∧
      executions.MayReturn call.tradingDate .succeeded reads.succeeded ∧
      reads.uuid4 ∉ executions.keys then
    some ((ofExecutions executions).acquireWrites (executions.acquireResult call reads)
      call.invocation reads.now reads.uuid4)
  else none

/-- One call; `set_stage` and `finish` raise where the row is missing. No caller
finishes a row as running. -/
def call : RepositoryAction → Option Executions
  | .acquire call reads => executions.acquire call reads
  | .setStage id stage =>
    if id ∈ executions.keys then some (executions.modify id fun row => { row with stage })
    else none
  | .finish id now call =>
    if id ∈ executions.keys ∧ call.status.Finished then
      some (executions.modify id (call.write now))
    else none

end Executions

def repository : Machine Executions RepositoryAction where
  init executions := executions = Dict.empty
  step s action t := s.call action = some t

/-! ## The decision -/

theorem decideAcquire_acquired {staleAfter now : Instant} {force : Bool}
    {running : Option (ExecutionId × Instant)} {succeeded : Option ExecutionId} :
    (decideAcquire staleAfter force running succeeded now).status = .acquired ↔
      (∀ id started, running = some (id, started) → started < now - staleAfter) ∧
        force = succeeded.isSome := by
  unfold decideAcquire
  cases running with
  | none => cases force <;> cases succeeded <;> simp
  | some found =>
    obtain ⟨id, started⟩ := found
    by_cases hfresh : now - staleAfter ≤ started
    · simp [hfresh]
    · have hstale : started < now - staleAfter := not_le.mp hfresh
      cases force <;> cases succeeded <;> simp [hfresh, hstale]

theorem decideAcquire_recovered {staleAfter now : Instant} {force : Bool}
    {running : Option (ExecutionId × Instant)} {succeeded : Option ExecutionId} {id : ExecutionId} :
    (decideAcquire staleAfter force running succeeded now).recoveredExecutionId = some id ↔
      ∃ started, running = some (id, started) ∧ started < now - staleAfter := by
  unfold decideAcquire
  cases running with
  | none => cases force <;> cases succeeded <;> simp
  | some found =>
    obtain ⟨other, started⟩ := found
    by_cases hfresh : now - staleAfter ≤ started
    · have hnot : ¬ started < now - staleAfter := not_lt.mpr hfresh
      simp [hfresh, hnot]
    · have hstale : started < now - staleAfter := not_le.mp hfresh
      cases force <;> cases succeeded <;> simp [hfresh, hstale, eq_comm]

/-! ## What the queries return -/

variable {s t : Executions} {tradingDate : Date} {status : ExecutionStatus}

theorem mayReturn_none (h : s.MayReturn tradingDate status none) {id : ExecutionId}
    {row : WatchlistPipelineExecution} (hrow : s.get? id = some row)
    (hdate : row.tradingDate = tradingDate) : row.status ≠ status := by
  intro hstatus
  exact h.2 row (Dict.mem_values.mpr ⟨id, hrow⟩) ⟨hdate, hstatus⟩

theorem mayReturn_some {id : ExecutionId} (h : s.MayReturn tradingDate status (some id)) :
    ∃ row, s.get? id = some row ∧ row.tradingDate = tradingDate ∧ row.status = status := by
  unfold Executions.MayReturn at h
  rw [Option.bind_some] at h
  cases hrow : s.get? id with
  | none =>
    rw [hrow] at h
    exact absurd h.1 (Option.some_ne_none id)
  | some row =>
    rw [hrow] at h
    exact ⟨row, rfl, h.1, h.2.1⟩

/-- A date has at most one running row. -/
def OneRunning (s : Executions) : Prop :=
  ∀ id id' row row', s.get? id = some row → s.get? id' = some row' → row.status = .running →
    row'.status = .running → row.tradingDate = row'.tradingDate → id = id'

section Acquire

variable {call : AcquireCall} {reads : AcquireReads}

theorem acquire_ok (h : s.acquire call reads = some t) :
    s.MayReturn call.tradingDate .running reads.running ∧
      s.MayReturn call.tradingDate .succeeded reads.succeeded ∧ reads.uuid4 ∉ s.keys ∧
      t = (ofExecutions s).acquireWrites (s.acquireResult call reads) call.invocation reads.now
        reads.uuid4 := by
  unfold Executions.acquire at h
  split_ifs at h with hguard
  obtain ⟨-, hrunning, hsucceeded, hfresh⟩ := hguard
  exact ⟨hrunning, hsucceeded, hfresh, (Option.some.inj h).symm⟩

/-- An acquisition leaves each row that was there, or recovers it. -/
theorem acquire_row (h : s.acquire call reads = some t) {id : ExecutionId}
    {row : WatchlistPipelineExecution} (hrow : s.get? id = some row) :
    t.get? id = if (s.acquireResult call reads).recoveredExecutionId = some id then
      some (recovered reads.now row) else some row := by
  obtain ⟨-, -, hfresh, rfl⟩ := acquire_ok h
  exact get?_acquireWrites_old hfresh hrow

/-- A row that was not there is the granted one. -/
theorem acquire_new (h : s.acquire call reads = some t) {id : ExecutionId}
    {row : WatchlistPipelineExecution} (hnone : s.get? id = none) (hrow : t.get? id = some row) :
    id = reads.uuid4 ∧ (s.acquireResult call reads).status = .acquired ∧
      row = newExecution reads.uuid4 call.tradingDate call.trigger reads.now := by
  obtain ⟨-, -, -, rfl⟩ := acquire_ok h
  rw [get?_acquireWrites] at hrow
  split_ifs at hrow with hid hrecovered
  · exact ⟨hid.1, hid.2, (Option.some.inj hrow).symm⟩
  · change (s.get? id).map (recovered reads.now) = some row at hrow
    rw [hnone] at hrow
    cases hrow
  · change s.get? id = some row at hrow
    rw [hnone] at hrow
    cases hrow

/-- What is recovered is the row that was read as running, and it is stale. -/
theorem recovered_row (h : s.acquire call reads = some t) {id : ExecutionId}
    (hid : (s.acquireResult call reads).recoveredExecutionId = some id) :
    ∃ row, s.get? id = some row ∧ row.tradingDate = call.tradingDate ∧ row.status = .running ∧
      row.startedAt < reads.now - call.staleAfter := by
  obtain ⟨hrunning, -⟩ := acquire_ok h
  obtain ⟨started, hread, hstale⟩ := decideAcquire_recovered.mp hid
  cases hanswer : reads.running with
  | none =>
    rw [hanswer] at hread
    cases hread
  | some other =>
    rw [hanswer] at hread hrunning
    obtain ⟨row, hrow, hdate, hstatus⟩ := mayReturn_some hrunning
    simp only [Executions.startedAt?, Option.bind_some, hrow, Option.map_some, Option.some.injEq,
      Prod.mk.injEq] at hread
    obtain ⟨rfl, rfl⟩ := hread
    exact ⟨row, hrow, hdate, hstatus, hstale⟩

/-- Where one row of a date may run, a granted acquisition finds it stale. -/
theorem running_stale (hs : OneRunning s) (h : s.acquire call reads = some t)
    (hgranted : (s.acquireResult call reads).status = .acquired) {id : ExecutionId}
    {row : WatchlistPipelineExecution} (hrow : s.get? id = some row)
    (hdate : row.tradingDate = call.tradingDate) (hstatus : row.status = .running) :
    (s.acquireResult call reads).recoveredExecutionId = some id := by
  obtain ⟨hrunning, -⟩ := acquire_ok h
  cases hanswer : reads.running with
  | none =>
    rw [hanswer] at hrunning
    exact absurd hstatus (mayReturn_none hrunning hrow hdate)
  | some other =>
    rw [hanswer] at hrunning
    obtain ⟨found, hfound, hfoundDate, hfoundStatus⟩ := mayReturn_some hrunning
    have hsame : other = id :=
      hs other id found row hfound hrow hfoundStatus hstatus (hfoundDate.trans hdate.symm)
    subst hsame
    have hread : s.startedAt? reads.running = some (other, found.startedAt) := by
      simp only [Executions.startedAt?, hanswer, Option.bind_some, hfound, Option.map_some]
    exact decideAcquire_recovered.mpr ⟨found.startedAt, hread,
      (decideAcquire_acquired.mp hgranted).1 other found.startedAt hread⟩

theorem OneRunning.acquire (hs : OneRunning s) (h : s.acquire call reads = some t) :
    OneRunning t := by
  -- A row that runs afterwards ran before and was not recovered, or is the granted one.
  have hcases : ∀ id row, t.get? id = some row → row.status = .running →
      (s.get? id = some row ∧ (s.acquireResult call reads).recoveredExecutionId ≠ some id) ∨
        (id = reads.uuid4 ∧ (s.acquireResult call reads).status = .acquired ∧
          row.tradingDate = call.tradingDate) := by
    intro id row hrow hstatus
    cases hbefore : s.get? id with
    | none =>
      obtain ⟨hid, hgranted, rfl⟩ := acquire_new h hbefore hrow
      exact .inr ⟨hid, hgranted, rfl⟩
    | some old =>
      rw [acquire_row h hbefore] at hrow
      split_ifs at hrow with hrecovered
      · rw [← Option.some.inj hrow] at hstatus
        cases hstatus
      · exact .inl ⟨hrow, hrecovered⟩
  intro id id' row row' hrow hrow' hstatus hstatus' hdate
  rcases hcases id row hrow hstatus with ⟨hold, hkept⟩ | ⟨hid, hgranted, hnew⟩
  · rcases hcases id' row' hrow' hstatus' with ⟨hold', -⟩ | ⟨-, hgranted, hnew⟩
    · exact hs id id' row row' hold hold' hstatus hstatus' hdate
    · exact absurd (running_stale hs h hgranted hold (hdate.trans hnew) hstatus) hkept
  · rcases hcases id' row' hrow' hstatus' with ⟨hold', hkept'⟩ | ⟨hid', -, -⟩
    · exact absurd (running_stale hs h hgranted hold' (hdate.symm.trans hnew) hstatus') hkept'
    · rw [hid, hid']

end Acquire

/-- A change that makes no row running and moves none to another date. -/
theorem OneRunning.modify (hs : OneRunning s) (id : ExecutionId)
    {change : WatchlistPipelineExecution → WatchlistPipelineExecution}
    (hdate : ∀ row, (change row).tradingDate = row.tradingDate)
    (hstatus : ∀ row, (change row).status = .running → row.status = .running) :
    OneRunning (s.modify id change) := by
  have hbefore : ∀ other row, (s.modify id change).get? other = some row → row.status = .running →
      ∃ old, s.get? other = some old ∧ old.status = .running ∧
        old.tradingDate = row.tradingDate := by
    intro other row hrow hrunning
    rw [Dict.get?_modify] at hrow
    split_ifs at hrow with hother
    · obtain ⟨old, hold, rfl⟩ := Option.map_eq_some_iff.mp hrow
      exact ⟨old, hother ▸ hold, hstatus old hrunning, (hdate old).symm⟩
    · exact ⟨row, hrow, hrunning, rfl⟩
  intro id₁ id₂ row₁ row₂ h₁ h₂ hrunning₁ hrunning₂ hsame
  obtain ⟨old₁, hold₁, hran₁, hdate₁⟩ := hbefore id₁ row₁ h₁ hrunning₁
  obtain ⟨old₂, hold₂, hran₂, hdate₂⟩ := hbefore id₂ row₂ h₂ hrunning₂
  exact hs id₁ id₂ old₁ old₂ hold₁ hold₂ hran₁ hran₂ (hdate₁.trans (hsame.trans hdate₂.symm))

theorem call_oneRunning (hs : OneRunning s) {action : RepositoryAction}
    (h : s.call action = some t) : OneRunning t := by
  cases action with
  | acquire call reads => exact hs.acquire h
  | setStage id stage =>
    simp only [Executions.call] at h
    split_ifs at h
    rw [← Option.some.inj h]
    exact hs.modify id (fun _ => rfl) fun _ hrunning => hrunning
  | finish id now call =>
    simp only [Executions.call] at h
    split_ifs at h with hguard
    rw [← Option.some.inj h]
    exact hs.modify id (fun _ => rfl) fun _ hrunning => absurd hrunning hguard.2

theorem reachable_oneRunning (h : repository.Reachable s) : OneRunning s := by
  refine h.invariant ?_ ?_
  · intro s hs id id' row row' hrow
    rw [show s = Dict.empty from hs, Dict.get?_empty] at hrow
    cases hrow
  · intro s action t _ hs hst
    have hcall : s.call action = some t := hst
    exact call_oneRunning hs hcall

/-! ## Ownership -/

/-- The date whose rows a call may change. -/
def RepositoryAction.date? (s : Executions) : RepositoryAction → Option Date
  | .acquire call _ => some call.tradingDate
  | .setStage id _ | .finish id _ _ => (s.get? id).map (·.tradingDate)

/-- No row is deleted or moved, and none of another date is changed. -/
def Confined (s : Executions) (action : RepositoryAction) (t : Executions) : Prop :=
  ∀ id row, s.get? id = some row → ∃ row', t.get? id = some row' ∧
    row'.tradingDate = row.tradingDate ∧
    (action.date? s ≠ some row.tradingDate → row' = row)

/-- The running row of the call's date, past its timeout, is failed as it stands. -/
structure FailedAsStale (call : AcquireCall) (now : Instant)
    (row row' : WatchlistPipelineExecution) : Prop where
  date : row.tradingDate = call.tradingDate
  running : row.status = .running
  stale : row.startedAt < now - call.staleAfter
  failed : row'.status = .failed
  code : row'.errorCode = some "stale_execution_recovered"
  stage : row'.stage = row.stage

/-- When an acquisition is granted, and what it writes if it is and if it is not. -/
structure Arbitrated (s : Executions) (call : AcquireCall) (reads : AcquireReads)
    (t : Executions) : Prop where
  success : (s.acquireResult call reads).status = .acquired →
    (call.forceReanalysis = true ↔
      ∃ id row, s.get? id = some row ∧ row.tradingDate = call.tradingDate ∧
        row.status = .succeeded)
  notFresh : (s.acquireResult call reads).status = .acquired → ∀ id row, s.get? id = some row →
    row.tradingDate = call.tradingDate → row.status = .running →
    row.startedAt < reads.now - call.staleAfter
  granted : (s.acquireResult call reads).status = .acquired →
    t.get? reads.uuid4 = some (newExecution reads.uuid4 call.tradingDate call.trigger reads.now)
  refused : (s.acquireResult call reads).status ≠ .acquired → ∀ id,
    t.get? id = s.get? id ∨ ∃ row row', s.get? id = some row ∧ t.get? id = some row' ∧
      FailedAsStale call reads.now row row'

theorem call_confined {action : RepositoryAction} (h : s.call action = some t) :
    Confined s action t := by
  have hmodify : ∀ (id : ExecutionId)
      (change : WatchlistPipelineExecution → WatchlistPipelineExecution),
      (∀ row, (change row).tradingDate = row.tradingDate) →
      ∀ other row, s.get? other = some row → ∃ row', (s.modify id change).get? other = some row' ∧
        row'.tradingDate = row.tradingDate ∧
        ((s.get? id).map (·.tradingDate) ≠ some row.tradingDate → row' = row) := by
    intro id change hdate other row hrow
    rw [Dict.get?_modify]
    split_ifs with hother
    · subst hother
      refine ⟨change row, by rw [hrow]; rfl, hdate row, fun hne => absurd ?_ hne⟩
      rw [hrow]
      rfl
    · exact ⟨row, hrow, rfl, fun _ => rfl⟩
  cases action with
  | acquire call reads =>
    intro id row hrow
    rw [acquire_row h hrow]
    split_ifs with hrecovered
    · refine ⟨recovered reads.now row, rfl, rfl, fun hne => absurd ?_ hne⟩
      obtain ⟨found, hfound, hdate, -⟩ := recovered_row h hrecovered
      rw [hrow, Option.some.injEq] at hfound
      rw [hfound, hdate]
      rfl
    · exact ⟨row, rfl, rfl, fun _ => rfl⟩
  | setStage id stage =>
    simp only [Executions.call] at h
    split_ifs at h
    rw [← Option.some.inj h]
    exact hmodify id _ fun _ => rfl
  | finish id now call =>
    simp only [Executions.call] at h
    split_ifs at h
    rw [← Option.some.inj h]
    exact hmodify id _ fun _ => rfl

theorem acquire_arbitrated {call : AcquireCall} {reads : AcquireReads} (hs : OneRunning s)
    (h : s.acquire call reads = some t) : Arbitrated s call reads t := by
  obtain ⟨-, hsucceeded, -, ht⟩ := acquire_ok h
  constructor
  · intro hgranted
    rw [(decideAcquire_acquired.mp hgranted).2]
    cases hanswer : reads.succeeded with
    | none =>
      rw [hanswer] at hsucceeded
      refine ⟨fun hsome => absurd hsome Bool.false_ne_true, ?_⟩
      intro ⟨id, row, hrow, hdate, hstatus⟩
      exact absurd hstatus (mayReturn_none hsucceeded hrow hdate)
    | some id =>
      rw [hanswer] at hsucceeded
      exact ⟨fun _ => ⟨id, mayReturn_some hsucceeded⟩, fun _ => rfl⟩
  · intro hgranted id row hrow hdate hstatus
    obtain ⟨found, hfound, -, -, hstale⟩ :=
      recovered_row h (running_stale hs h hgranted hrow hdate hstatus)
    rw [hrow, Option.some.injEq] at hfound
    exact hfound ▸ hstale
  · intro hgranted
    rw [ht, get?_acquireWrites, if_pos ⟨rfl, hgranted⟩]
    rfl
  · intro hrefused id
    cases hbefore : s.get? id with
    | none =>
      left
      cases hafter : t.get? id with
      | none => rfl
      | some row => exact absurd (acquire_new h hbefore hafter).2.1 hrefused
    | some row =>
      rw [acquire_row h hbefore]
      split_ifs with hrecovered
      · obtain ⟨found, hfound, hdate, hstatus, hstale⟩ := recovered_row h hrecovered
        rw [hbefore, Option.some.injEq] at hfound
        subst hfound
        exact .inr ⟨row, recovered reads.now row, rfl, rfl, hdate, hstatus, hstale, rfl, rfl, rfl⟩
      · exact .inl rfl

/-- **Execution ownership.** In every reachable state each date has at most one
running row, every call is confined to its date, and every acquisition is granted
or refused by the rules. -/
theorem execution_ownership (h : repository.Reachable s) :
    OneRunning s ∧ (∀ action t, repository.step s action t → Confined s action t) ∧
      ∀ call reads t, repository.step s (.acquire call reads) t → Arbitrated s call reads t :=
  ⟨reachable_oneRunning h, fun _ _ hst => call_confined hst,
    fun _ _ _ hst => acquire_arbitrated (reachable_oneRunning h) hst⟩

/-- A Monday's run that becomes stale, its recovery, a success and a reanalysis. -/
def sampleCalls : List RepositoryAction :=
  [.acquire ⟨739824, .scheduled, 7200000000, false⟩ ⟨none, none, 0, 101⟩,
    .setStage 101 .marketSync,
    .acquire ⟨739824, .manual, 7200000000, false⟩ ⟨some 101, none, 8000000000, 102⟩,
    .finish 102 8100000000 (successCall 80 ⟨0, 0, 0, []⟩),
    .acquire ⟨739824, .manualReanalysis, 7200000000, true⟩ ⟨none, some 102, 8200000000, 103⟩]

theorem execution_ownership_sample :
    ∃ s, repository.Reachable s ∧
      s.values.map (fun row => (row.id, row.status, row.stage)) =
        [(101, .failed, .marketSync), (102, .succeeded, .completed),
          (103, .running, .duplicateCheck)] ∧ OneRunning s := by
  have hcalls : (Machine.follow Executions.call Dict.empty sampleCalls).map (fun s =>
      s.values.map fun row => (row.id, row.status, row.stage)) =
      some [(101, .failed, .marketSync), (102, .succeeded, .completed),
        (103, .running, .duplicateCheck)] := by
    decide +kernel
  obtain ⟨s, hs, hrows⟩ := Option.map_eq_some_iff.mp hcalls
  have hreachable : repository.Reachable s :=
    Machine.reachable_of_follow (fun _ _ _ hst => hst) rfl hs
  exact ⟨s, hreachable, hrows, (execution_ownership hreachable).1⟩

end Screener.Market
