import Screener.Market.Pipeline

/-!
# What a step of the pipeline can do

Every step either moves one run and touches no table, or is one of the four
writes. From this the rules that every interleaving keeps: a run that is under
way owns a row of its date that has not succeeded, no two runs own one row, no
row is skipped, and a row that has succeeded tells the counts of the analysis
that was saved for it.
-/

namespace Screener.Market

open Screener.Lib

/-- The execution a run works on. -/
def Control.execution? : Control → Option ExecutionId
  | .working id _ _ => some id
  | _ => none

/-- The actions that write no table. -/
def PipelineAction.Quiet : PipelineAction → Prop
  | .acquire _ _ | .setStage | .succeed _ _ | .fail _ _ => False
  | _ => True

inductive Stepped (config : PipelineConfig) (s : System) (run : RunId) :
    PipelineAction → System → Prop
  | quiet {action : PipelineAction} (r : PipelineRun) (control : Control) : action.Quiet →
      (∀ id, control.execution? = some id →
        s.runs.get? run = some r ∧ r.control.execution? = some id) →
      Stepped config s run action (s.setControl run r control)
  | acquire {r : PipelineRun} {running : Option (ExecutionId × Instant)}
      {succeeded : Option ExecutionId} {now : Instant} {uuid4 : ExecutionId} :
      s.runs.get? run = some r → r.control = .readBoth running succeeded →
      uuid4 ∉ s.executions.keys →
      Stepped config s run (.acquire now uuid4)
        (let result := decideAcquire config.staleAfter r.invocation.forceReanalysis running
          succeeded now
        { s.setControl run r (System.acquireControl result r.invocation uuid4) with
          executions := s.acquireWrites result r.invocation now uuid4 })
  | setStage {r : PipelineRun} {id : ExecutionId} {stage : PipelineStage} :
      s.runs.get? run = some r → r.control = .working id stage false →
      Stepped config s run .setStage
        { s.setControl run r (.working id stage true) with
          executions := s.executions.modify id fun row => { row with stage } }
  | succeed {r : PipelineRun} {id : ExecutionId} {now : Instant} {inputs : List ScanInput}
      {a : Analysis} {entries : List WatchlistEntryRecord} :
      s.runs.get? run = some r → r.control = .working id .watchlistPersistence true →
      analyze config.screening inputs = .ok a →
      saveEntries s.entries r.invocation.tradingDate a.ranked = .ok entries →
      Stepped config s run (.succeed now inputs)
        { s.setControl run r (.finished .succeeded) with
          executions := s.executions.modify id
            (finishedWith now config.screening.minimumCandidateScore a)
          entries := entries
          saved := s.saved.set id a }
  | fail {r : PipelineRun} {id : ExecutionId} {stage : PipelineStage} {written : Bool}
      {now : Instant} {exception : String} :
      s.runs.get? run = some r → r.control = .working id stage written →
      Stepped config s run (.fail now exception)
        { s.setControl run r (.finished .failed) with
          executions := s.executions.modify id (failedAt now stage exception) }

variable {config : PipelineConfig} {s t : System} {run : RunId} {action : PipelineAction}

theorem advance_stepped {r : PipelineRun} (hr : s.runs.get? run = some r)
    (h : s.advance config run r action = some t) : Stepped config s run action t := by
  cases action with
  | invoke invocation => cases h
  | lock =>
    simp only [System.advance] at h
    split_ifs at h
    rw [← Option.some.inj h]
    exact .quiet r .locked trivial (by simp [Control.execution?])
  | readRunning answer =>
    simp only [System.advance] at h
    split_ifs at h
    rw [← Option.some.inj h]
    exact .quiet r _ trivial (by simp [Control.execution?])
  | readSucceeded answer =>
    simp only [System.advance] at h
    split at h
    · split_ifs at h
      rw [← Option.some.inj h]
      exact .quiet r _ trivial (by simp [Control.execution?])
    · cases h
  | acquire now uuid4 =>
    simp only [System.advance] at h
    split at h
    · rename_i hcontrol
      split_ifs at h with hfresh
      rw [← Option.some.inj h]
      exact .acquire hr hcontrol hfresh
    · cases h
  | enterStage =>
    simp only [System.advance] at h
    split at h
    · rename_i id stage hcontrol
      obtain ⟨next, -, rfl⟩ := Option.map_eq_some_iff.mp h
      refine .quiet r _ trivial ?_
      intro other hother
      have hid : r.control.execution? = some id := by rw [hcontrol]; rfl
      exact ⟨hr, hid.trans hother⟩
    · cases h
  | setStage =>
    simp only [System.advance] at h
    split at h
    · rename_i hcontrol
      rw [← Option.some.inj h]
      exact .setStage hr hcontrol
    · cases h
  | succeed now inputs =>
    simp only [System.advance] at h
    split at h
    · rename_i hcontrol
      cases ha : analyze config.screening inputs with
      | error e => simp [ha] at h
      | ok a =>
        cases he : saveEntries s.entries r.invocation.tradingDate a.ranked with
        | error e => simp [ha, he] at h
        | ok entries =>
          simp only [ha, he, Option.some.injEq] at h
          rw [← h]
          exact .succeed hr hcontrol ha he
    · cases h
  | fail now exception =>
    simp only [System.advance] at h
    split at h
    · rename_i hcontrol
      rw [← Option.some.inj h]
      exact .fail hr hcontrol
    · cases h
  | crash =>
    simp only [System.advance, Option.some.injEq] at h
    rw [← h]
    exact .quiet r .stopped trivial (by simp [Control.execution?])

theorem step_stepped (h : s.step config run action = some t) : Stepped config s run action t := by
  cases hr : s.runs.get? run with
  | some r =>
    simp only [System.step, hr] at h
    exact advance_stepped hr h
  | none =>
    cases action with
    | invoke invocation =>
      simp only [System.step, hr, Option.some.injEq] at h
      rw [← h]
      refine .quiet _ _ trivial ?_
      intro id hid
      split at hid <;> cases hid
    | _ => simp [System.step, hr] at h

/-! ## Rows and runs after a step -/

namespace System

theorem setControl_runs (r : PipelineRun) (control : Control) (other : RunId) :
    (s.setControl run r control).runs.get? other =
      if other = run then some { r with control } else s.runs.get? other :=
  Dict.get?_set _ _ _ _

end System

theorem get?_cleared (recoveredId : Option ExecutionId) (now : Instant) (id : ExecutionId) :
    (s.cleared recoveredId now).get? id =
      if recoveredId = some id then (s.executions.get? id).map (recovered now)
      else s.executions.get? id := by
  cases recoveredId with
  | none => simp [System.cleared]
  | some other =>
    by_cases h : id = other
    · simp [System.cleared, Dict.get?_modify, h]
    · simp [System.cleared, Dict.get?_modify, h, Ne.symm h]

/-- The row an acquisition recovers, and then the new one. -/
theorem get?_acquireWrites (result : AcquireResult) (invocation : Invocation) (now : Instant)
    (uuid4 id : ExecutionId) :
    (s.acquireWrites result invocation now uuid4).get? id =
      if id = uuid4 ∧ result.status = .acquired then
        some (newExecution uuid4 invocation.tradingDate invocation.trigger now)
      else if result.recoveredExecutionId = some id then (s.executions.get? id).map (recovered now)
      else s.executions.get? id := by
  unfold System.acquireWrites
  by_cases hstatus : result.status = .acquired
  · by_cases hid : id = uuid4
    · simp [hstatus, hid, Dict.get?_set]
    · simp [hstatus, hid, Dict.get?_set, get?_cleared]
  · simp [hstatus, get?_cleared]

/-- A row that was there is left as it is, or recovered. -/
theorem get?_acquireWrites_old {result : AcquireResult} {invocation : Invocation} {now : Instant}
    {uuid4 id : ExecutionId} {row : WatchlistPipelineExecution}
    (hfresh : uuid4 ∉ s.executions.keys) (hrow : s.executions.get? id = some row) :
    (s.acquireWrites result invocation now uuid4).get? id =
      if result.recoveredExecutionId = some id then some (recovered now row) else some row := by
  have hne : id ≠ uuid4 := fun heq => hfresh (heq ▸ Dict.mem_keys_of_get? hrow)
  rw [get?_acquireWrites, if_neg (fun hid => hne hid.1), hrow]
  rfl

/-! ## What every interleaving keeps -/

/-- The counts of a row are those of an analysis. -/
structure Counted (row : WatchlistPipelineExecution) (a : Analysis) : Prop where
  screened : row.screenedCount = some a.screenedCount
  candidates : row.candidateCount = some a.candidateCount
  qualified : row.qualifiedCount = some a.qualifiedCount
  persisted : row.persistedCount = some a.ranked.length

structure WellFormed (s : System) : Prop where
  notSkipped : ∀ id row, s.executions.get? id = some row → row.status ≠ .skipped
  owned : ∀ run r id, s.runs.get? run = some r → r.control.execution? = some id →
    ∃ row, s.executions.get? id = some row ∧ row.status ≠ .succeeded ∧
      row.tradingDate = r.invocation.tradingDate
  exclusive : ∀ run run' r r' id, s.runs.get? run = some r → s.runs.get? run' = some r' →
    r.control.execution? = some id → r'.control.execution? = some id → run = run'
  counted : ∀ id row, s.executions.get? id = some row → row.status = .succeeded →
    ∃ a, s.saved.get? id = some a ∧ a.Coherent ∧ Counted row a

theorem wellFormed_initial (h : s.Initial) : WellFormed s := by
  obtain ⟨hexecutions, hruns, -⟩ := h
  constructor
  · intro id row hrow
    rw [hexecutions, Dict.get?_empty] at hrow
    cases hrow
  · intro run r id hr
    rw [hruns, Dict.get?_empty] at hr
    cases hr
  · intro run run' r r' id hr
    rw [hruns, Dict.get?_empty] at hr
    cases hr
  · intro id row hrow
    rw [hexecutions, Dict.get?_empty] at hrow
    cases hrow

namespace WellFormed

variable {r : PipelineRun} {id : ExecutionId}

/-- The row that a run works on. -/
theorem working (hs : WellFormed s) {stage : PipelineStage} {written : Bool}
    (hr : s.runs.get? run = some r) (hcontrol : r.control = .working id stage written) :
    ∃ row, s.executions.get? id = some row ∧ row.status ≠ .succeeded ∧
      row.tradingDate = r.invocation.tradingDate := by
  apply hs.owned run r id hr
  rw [hcontrol]
  rfl

theorem quiet (hs : WellFormed s) {control : Control}
    (hcontrol : ∀ id, control.execution? = some id →
      s.runs.get? run = some r ∧ r.control.execution? = some id) :
    WellFormed (s.setControl run r control) := by
  -- A run owns nothing that it did not own before.
  have hbefore : ∀ run' r' id', (s.setControl run r control).runs.get? run' = some r' →
      r'.control.execution? = some id' → ∃ r₀, s.runs.get? run' = some r₀ ∧
        r₀.control.execution? = some id' ∧ r₀.invocation = r'.invocation := by
    intro run' r' id' hr' hid
    rw [System.setControl_runs] at hr'
    split_ifs at hr' with hrun
    · subst hrun
      rw [← Option.some.inj hr'] at hid ⊢
      obtain ⟨hr, hcontrol⟩ := hcontrol id' hid
      exact ⟨r, hr, hcontrol, rfl⟩
    · exact ⟨r', hr', hid, rfl⟩
  refine ⟨hs.notSkipped, ?_, ?_, hs.counted⟩
  · intro run' r' id' hr' hid
    obtain ⟨r₀, hr₀, hid₀, hinvocation⟩ := hbefore run' r' id' hr' hid
    rw [← hinvocation]
    exact hs.owned run' r₀ id' hr₀ hid₀
  · intro run₁ run₂ r₁ r₂ id' hr₁ hr₂ hid₁ hid₂
    obtain ⟨q₁, hq₁, hown₁, -⟩ := hbefore run₁ r₁ id' hr₁ hid₁
    obtain ⟨q₂, hq₂, hown₂, -⟩ := hbefore run₂ r₂ id' hr₂ hid₂
    exact hs.exclusive run₁ run₂ q₁ q₂ id' hq₁ hq₂ hown₁ hown₂

/-- Rewriting one row, whose owner must not find it succeeded. -/
theorem rewrite (hs : WellFormed s)
    {change : WatchlistPipelineExecution → WatchlistPipelineExecution}
    {entries : List WatchlistEntryRecord} {saved : Dict ExecutionId Analysis}
    (hdate : ∀ row, (change row).tradingDate = row.tradingDate)
    (hskipped : ∀ row, row.status ≠ .skipped → (change row).status ≠ .skipped)
    (howned : ∀ run r row, s.runs.get? run = some r → r.control.execution? = some id →
      row.status ≠ .succeeded → (change row).status ≠ .succeeded)
    (hcounted : ∀ row, s.executions.get? id = some row → (change row).status = .succeeded →
      ∃ a, saved.get? id = some a ∧ a.Coherent ∧ Counted (change row) a)
    (hsaved : ∀ other ≠ id, saved.get? other = s.saved.get? other) :
    WellFormed ⟨s.executions.modify id change, entries, s.runs, saved⟩ := by
  constructor
  · intro other row hrow
    rw [Dict.get?_modify] at hrow
    split_ifs at hrow with hother
    · obtain ⟨old, hold, rfl⟩ := Option.map_eq_some_iff.mp hrow
      exact hskipped old (hs.notSkipped id old hold)
    · exact hs.notSkipped other row hrow
  · intro run r other hr hown
    obtain ⟨row, hrow, hstatus, hrowdate⟩ := hs.owned run r other hr hown
    show ∃ row, (s.executions.modify id change).get? other = some row ∧ _
    rw [Dict.get?_modify]
    by_cases hother : other = id
    · subst hother
      rw [if_pos rfl, hrow]
      exact ⟨change row, rfl, howned run r row hr hown hstatus, (hdate row).trans hrowdate⟩
    · rw [if_neg hother]
      exact ⟨row, hrow, hstatus, hrowdate⟩
  · exact hs.exclusive
  · intro other row hrow hstatus
    rw [Dict.get?_modify] at hrow
    split_ifs at hrow with hother
    · subst hother
      obtain ⟨old, hold, rfl⟩ := Option.map_eq_some_iff.mp hrow
      exact hcounted old hold hstatus
    · show ∃ a, saved.get? other = some a ∧ _
      rw [hsaved other hother]
      exact hs.counted other row hrow hstatus

/-- The owner of a row that has just finished does not own it any more, and no
one else does. -/
theorem released (hs : WellFormed s) (hr : s.runs.get? run = some r)
    (hown : r.control.execution? = some id) {control : Control}
    (hcontrol : control.execution? = none) {run' : RunId} {r' : PipelineRun}
    (hr' : (s.setControl run r control).runs.get? run' = some r') :
    r'.control.execution? ≠ some id := by
  intro hown'
  rw [System.setControl_runs] at hr'
  split_ifs at hr' with hrun
  · rw [← Option.some.inj hr'] at hown'
    have hnone : control.execution? = some id := hown'
    rw [hcontrol] at hnone
    cases hnone
  · exact hrun (hs.exclusive run' run r' r id hr' hr hown' hown)

/-- The recovery of a stale row. -/
theorem recover (hs : WellFormed s) (recoveredId : Option ExecutionId) (now : Instant) :
    WellFormed { s with executions := s.cleared recoveredId now } := by
  cases recoveredId with
  | none => exact hs
  | some id =>
    refine hs.rewrite (fun _ => rfl) (fun _ _ => ?_) (fun _ _ _ _ _ _ => ?_)
      (fun row _ hstatus => ?_) (fun _ _ => rfl)
    · exact (by decide : ExecutionStatus.failed ≠ .skipped)
    · exact (by decide : ExecutionStatus.failed ≠ .succeeded)
    · exact absurd hstatus (by decide : ExecutionStatus.failed ≠ .succeeded)

/-- A new row belongs to the run that inserts it. -/
theorem insert (hs : WellFormed s) (hfresh : s.executions.get? id = none)
    {row : WatchlistPipelineExecution} (hstatus : row.status = .running)
    (hdate : row.tradingDate = r.invocation.tradingDate) (stage : PipelineStage) :
    WellFormed { s.setControl run r (.working id stage false) with
      executions := s.executions.set id row } := by
  have hold : ∀ other old, s.executions.get? other = some old →
      (s.executions.set id row).get? other = some old := by
    intro other old hother
    have hne : other ≠ id := by
      rintro rfl
      rw [hfresh] at hother
      cases hother
    rw [Dict.get?_set, if_neg hne, hother]
  have hnew : ∀ other found, (s.executions.set id row).get? other = some found →
      (other = id ∧ found = row) ∨ s.executions.get? other = some found := by
    intro other found hfound
    rw [Dict.get?_set] at hfound
    split_ifs at hfound with hother
    · exact .inl ⟨hother, (Option.some.inj hfound).symm⟩
    · exact .inr hfound
  have howner : ∀ run' r' other, (s.setControl run r (.working id stage false)).runs.get? run' =
      some r' → r'.control.execution? = some other →
      (run' = run ∧ other = id ∧ r'.invocation = r.invocation) ∨
        (run' ≠ run ∧ s.runs.get? run' = some r' ∧ other ≠ id) := by
    intro run' r' other hr' hown
    rw [System.setControl_runs] at hr'
    split_ifs at hr' with hrun
    · rw [← Option.some.inj hr'] at hown ⊢
      exact .inl ⟨hrun, (Option.some.inj hown).symm, rfl⟩
    · refine .inr ⟨hrun, hr', ?_⟩
      rintro rfl
      obtain ⟨old, hrow, -⟩ := hs.owned run' r' other hr' hown
      rw [hfresh] at hrow
      cases hrow
  constructor
  · intro other found hfound
    rcases hnew other found hfound with ⟨-, rfl⟩ | hfound
    · rw [hstatus]
      decide
    · exact hs.notSkipped other found hfound
  · intro run' r' other hr' hown
    rcases howner run' r' other hr' hown with ⟨-, rfl, hinvocation⟩ | ⟨-, hr', -⟩
    · refine ⟨row, (Dict.get?_set _ _ _ _).trans (if_pos rfl), ?_,
        hdate.trans (by rw [hinvocation])⟩
      rw [hstatus]
      decide
    · obtain ⟨old, hrow, hrest⟩ := hs.owned run' r' other hr' hown
      exact ⟨old, hold other old hrow, hrest⟩
  · intro run₁ run₂ r₁ r₂ other hr₁ hr₂ hown₁ hown₂
    rcases howner run₁ r₁ other hr₁ hown₁ with ⟨rfl, hid₁, -⟩ | ⟨-, hr₁, hid₁⟩
    · rcases howner run₂ r₂ other hr₂ hown₂ with ⟨rfl, -, -⟩ | ⟨-, -, hid₂⟩
      · rfl
      · exact absurd hid₁ hid₂
    · rcases howner run₂ r₂ other hr₂ hown₂ with ⟨-, hid₂, -⟩ | ⟨-, hr₂, -⟩
      · exact absurd hid₂ hid₁
      · exact hs.exclusive run₁ run₂ r₁ r₂ other hr₁ hr₂ hown₁ hown₂
  · intro other found hfound hsucceeded
    rcases hnew other found hfound with ⟨-, rfl⟩ | hfound
    · rw [hstatus] at hsucceeded
      cases hsucceeded
    · exact hs.counted other found hfound hsucceeded

theorem acquire (hs : WellFormed s) (result : AcquireResult) (now : Instant)
    {uuid4 : ExecutionId} (hfresh : uuid4 ∉ s.executions.keys) :
    WellFormed { s.setControl run r (System.acquireControl result r.invocation uuid4) with
      executions := s.acquireWrites result r.invocation now uuid4 } := by
  have hnone : s.executions.get? uuid4 = none := Dict.get?_eq_none.mpr hfresh
  have hcleared := hs.recover result.recoveredExecutionId now
  by_cases hstatus : result.status = .acquired
  · have hgone : (s.cleared result.recoveredExecutionId now).get? uuid4 = none := by
      rw [get?_cleared, hnone]
      split_ifs <;> rfl
    rw [System.acquireWrites, if_pos hstatus, System.acquireControl, hstatus]
    exact hcleared.insert hgone rfl rfl (System.firstStage r.invocation.forceReanalysis)
  · have hcontrol : (System.acquireControl result r.invocation uuid4).execution? = none := by
      cases hvalue : result.status with
      | acquired => exact absurd hvalue hstatus
      | _ => simp [System.acquireControl, hvalue, Control.execution?]
    rw [System.acquireWrites, if_neg hstatus]
    exact hcleared.quiet (by simp [hcontrol])

end WellFormed

theorem wellFormed_step (hs : WellFormed s) (h : s.step config run action = some t) :
    WellFormed t := by
  cases step_stepped h with
  | quiet r control _ hcontrol => exact hs.quiet hcontrol
  | acquire hr hcontrol hfresh => exact hs.acquire _ _ hfresh
  | @setStage r id stage hr hcontrol =>
    have hown : r.control.execution? = some id := by rw [hcontrol]; rfl
    have hquiet : WellFormed (s.setControl run r (.working id stage true)) :=
      hs.quiet fun other hother => ⟨hr, hown.trans hother⟩
    refine hquiet.rewrite (fun _ => rfl) (fun _ h => h) (fun _ _ _ _ _ h => h) ?_ (fun _ _ => rfl)
    intro row hrow hsucceeded
    obtain ⟨a, ha, hcoherent, hcounted⟩ := hs.counted id row hrow hsucceeded
    exact ⟨a, ha, hcoherent, hcounted.screened, hcounted.candidates, hcounted.qualified,
      hcounted.persisted⟩
  | @succeed r id now inputs a entries hr hcontrol ha he =>
    have hown : r.control.execution? = some id := by rw [hcontrol]; rfl
    have hquiet : WellFormed (s.setControl run r (.finished .succeeded)) :=
      hs.quiet (by simp [Control.execution?])
    refine hquiet.rewrite (fun _ => rfl) (fun _ _ => ?_) ?_ ?_ ?_
    · exact (by decide : ExecutionStatus.succeeded ≠ .skipped)
    · intro run' r' row hr' hown'
      exact absurd hown' (hs.released hr hown rfl hr')
    · intro row _ _
      exact ⟨a, (Dict.get?_set _ _ _ _).trans (if_pos rfl), analyze_coherent ha, rfl, rfl, rfl, rfl⟩
    · intro other hother
      exact (Dict.get?_set _ _ _ _).trans (if_neg hother)
  | @fail r id stage written now exception hr hcontrol =>
    have hown : r.control.execution? = some id := by rw [hcontrol]; rfl
    have hquiet : WellFormed (s.setControl run r (.finished .failed)) :=
      hs.quiet (by simp [Control.execution?])
    refine hquiet.rewrite (fun _ => rfl) (fun _ _ => ?_) (fun _ _ _ _ _ _ => ?_)
      (fun row _ hstatus => ?_) (fun _ _ => rfl)
    · exact (by decide : ExecutionStatus.failed ≠ .skipped)
    · exact (by decide : ExecutionStatus.failed ≠ .succeeded)
    · exact absurd hstatus (by decide : ExecutionStatus.failed ≠ .succeeded)

/-- Every reachable state is well formed. -/
theorem reachable_wellFormed (h : (pipeline config).Reachable s) : WellFormed s := by
  refine h.invariant (fun _ => wellFormed_initial) ?_
  intro s a t _ hs hst
  exact wellFormed_step hs hst

end Screener.Market
