import Screener.Market.PipelineRules

/-!
# Which finished executions stay as they are

`finish` and the stale recovery write a row by its id. A recovered run that
finishes late turns its failed row into a succeeded one, and a recovery decided
on an old read turns a succeeded row into a failed one. Nothing else changes the
status of a finished row, in any interleaving.
-/

namespace Screener.Market

open Screener.Lib

variable {config : PipelineConfig} {s t : System} {run : RunId} {action : PipelineAction}

namespace System

def statusOf (s : System) (id : ExecutionId) : Option ExecutionStatus :=
  (s.executions.get? id).map (·.status)

/-- The execution that a run is working on. -/
def workingOn (s : System) (run : RunId) : Option ExecutionId :=
  (s.runs.get? run).bind (·.control.execution?)

/-- The row that the acquisition of a run recovers at `now`. -/
def recovers (config : PipelineConfig) (s : System) (run : RunId) (now : Instant) :
    Option ExecutionId :=
  match s.runs.get? run with
  | some ⟨invocation, .readBoth running succeeded⟩ =>
    (decideAcquire config.staleAfter invocation.forceReanalysis running succeeded
      now).recoveredExecutionId
  | _ => none

end System

/-- Every finished row has kept its status. -/
def KeepsFinished (s t : System) : Prop :=
  ∀ id status, s.statusOf id = some status → status.Finished → t.statusOf id = some status

theorem KeepsFinished.refl (s : System) : KeepsFinished s s := fun _ _ h _ => h

theorem KeepsFinished.trans {u : System} (hst : KeepsFinished s t) (htu : KeepsFinished t u) :
    KeepsFinished s u :=
  fun id status h hfinished => htu id status (hst id status h hfinished) hfinished

/-- A run that finishes with success finds its row still running, and a recovery
finds the row that it has read as running not succeeded since. -/
def Undisputed (config : PipelineConfig) (s : System) (run : RunId) : PipelineAction → Prop
  | .succeed _ _ => ∀ id, s.workingOn run = some id → s.statusOf id = some .running
  | .acquire now _ => ∀ id, s.recovers config run now = some id → s.statusOf id ≠ some .succeeded
  | _ => True

theorem undisputed_of_quiet (h : action.Quiet) : Undisputed config s run action := by
  cases action <;> trivial

/-- The statuses of a well-formed state. -/
theorem status_cases (hs : WellFormed s) {id : ExecutionId} {row : WatchlistPipelineExecution}
    (hrow : s.executions.get? id = some row) :
    row.status = .running ∨ row.status = .succeeded ∨ row.status = .failed := by
  cases hstatus : row.status with
  | skipped => exact absurd hstatus (hs.notSkipped id row hrow)
  | running => exact .inl rfl
  | succeeded => exact .inr (.inl rfl)
  | failed => exact .inr (.inr rfl)

/-! ## The steps -/

section Steps

variable {r : PipelineRun} {id : ExecutionId}

theorem workingOn_eq {stage : PipelineStage} {written : Bool} (hr : s.runs.get? run = some r)
    (hcontrol : r.control = .working id stage written) : s.workingOn run = some id := by
  rw [System.workingOn, hr, Option.bind_some, hcontrol]
  rfl

theorem recovers_eq {running : Option (ExecutionId × Instant)} {succeeded : Option ExecutionId}
    (hr : s.runs.get? run = some r) (hcontrol : r.control = .readBoth running succeeded)
    (now : Instant) :
    s.recovers config run now = (decideAcquire config.staleAfter r.invocation.forceReanalysis
      running succeeded now).recoveredExecutionId := by
  obtain ⟨invocation, control⟩ := r
  subst hcontrol
  rw [System.recovers, hr]

/-- Rewriting a row keeps the finished rows where it keeps the status of that one,
if that one is finished. -/
theorem keepsFinished_modify {change : WatchlistPipelineExecution → WatchlistPipelineExecution}
    (ht : t.executions = s.executions.modify id change)
    (hchange : ∀ row, s.executions.get? id = some row → row.status.Finished →
      (change row).status = row.status) : KeepsFinished s t := by
  intro other status hstatus hfinished
  obtain ⟨row, hrow, rfl⟩ := Option.map_eq_some_iff.mp hstatus
  rw [System.statusOf, ht, Dict.get?_modify]
  split_ifs with hother
  · subst hother
    rw [hrow, Option.map_some, Option.map_some, hchange row hrow hfinished]
  · exact hstatus

/-- Only the recovery of a succeeded row changes the status of a finished one. -/
theorem keepsFinished_acquire_iff (hs : WellFormed s) {result : AcquireResult}
    {invocation : Invocation} {now : Instant} {uuid4 : ExecutionId}
    (hfresh : uuid4 ∉ s.executions.keys)
    (ht : t.executions = s.acquireWrites result invocation now uuid4) :
    KeepsFinished s t ↔
      ∀ id, result.recoveredExecutionId = some id → s.statusOf id ≠ some .succeeded := by
  constructor
  · intro hkeeps id hid hsucceeded
    have hkept := hkeeps id .succeeded hsucceeded (by decide)
    obtain ⟨row, hrow, -⟩ := Option.map_eq_some_iff.mp hsucceeded
    rw [System.statusOf, ht, get?_acquireWrites_old hfresh hrow, if_pos hid] at hkept
    exact absurd (Option.some.inj hkept) (by decide : ExecutionStatus.failed ≠ .succeeded)
  · intro hundisputed id status hstatus hfinished
    obtain ⟨row, hrow, rfl⟩ := Option.map_eq_some_iff.mp hstatus
    rw [System.statusOf, ht, get?_acquireWrites_old hfresh hrow]
    split_ifs with hid
    · have hnot : row.status ≠ .succeeded := fun heq => hundisputed id hid (by rw [hstatus, heq])
      rcases status_cases hs hrow with heq | heq | heq
      · exact absurd heq hfinished
      · exact absurd heq hnot
      · rw [heq]
        rfl
    · rfl

/-- A success keeps the finished rows exactly when it finds its own row running. -/
theorem keepsFinished_succeed_iff (hs : WellFormed s) {row : WatchlistPipelineExecution}
    (hrow : s.executions.get? id = some row) (hnot : row.status ≠ .succeeded) {now : Instant}
    {threshold : ℚ} {a : Analysis}
    (ht : t.executions = s.executions.modify id (finishedWith now threshold a)) :
    KeepsFinished s t ↔ s.statusOf id = some .running := by
  have hstatus : s.statusOf id = some row.status := by rw [System.statusOf, hrow]; rfl
  rw [hstatus, Option.some.injEq]
  constructor
  · intro hkeeps
    rcases status_cases hs hrow with heq | heq | heq
    · exact heq
    · exact absurd heq hnot
    · have hkept := hkeeps id .failed (by rw [hstatus, heq]) (by decide)
      rw [System.statusOf, ht, Dict.get?_modify, if_pos rfl, hrow] at hkept
      exact absurd (Option.some.inj hkept) (by decide : ExecutionStatus.succeeded ≠ .failed)
  · intro hrunning
    refine keepsFinished_modify ht fun found hfound hfinished => ?_
    rw [hrow, Option.some.injEq] at hfound
    exact absurd (hfound ▸ hrunning) hfinished

/-- A step keeps the finished rows exactly when it is undisputed. -/
theorem keepsFinished_step_iff (hs : WellFormed s) (h : s.step config run action = some t) :
    KeepsFinished s t ↔ Undisputed config s run action := by
  cases step_stepped h with
  | quiet r control hquiet _ =>
    exact ⟨fun _ => undisputed_of_quiet hquiet, fun _ _ _ hstatus _ => hstatus⟩
  | acquire hr hcontrol hfresh =>
    rw [keepsFinished_acquire_iff hs hfresh rfl, ← recovers_eq hr hcontrol]
    rfl
  | setStage hr hcontrol =>
    exact ⟨fun _ => trivial, fun _ => keepsFinished_modify rfl fun _ _ _ => rfl⟩
  | succeed hr hcontrol ha he =>
    obtain ⟨row, hrow, hnot, -⟩ := hs.working hr hcontrol
    rw [keepsFinished_succeed_iff hs hrow hnot rfl]
    simp only [Undisputed, workingOn_eq hr hcontrol, Option.some.injEq, forall_eq']
  | fail hr hcontrol =>
    obtain ⟨row, hrow, hnot, -⟩ := hs.working hr hcontrol
    refine ⟨fun _ => trivial, fun _ => keepsFinished_modify rfl fun found hfound hfinished => ?_⟩
    obtain rfl : row = found := Option.some.inj (hrow.symm.trans hfound)
    rcases status_cases hs hrow with heq | heq | heq
    · exact absurd heq hfinished
    · exact absurd heq hnot
    · rw [heq]
      rfl

end Steps

/-- **Finished executions are final** in the steps of a run exactly when all of
them are undisputed; from its first state to its last a run of undisputed steps
changes the status of no finished row. -/
theorem finished_final_iff {steps : List (System × (RunId × PipelineAction) × System)}
    (hs : (pipeline config).Reachable s) (hrun : (pipeline config).Run s steps t) :
    ((∀ x ∈ steps, KeepsFinished x.1 x.2.2) ↔
        ∀ x ∈ steps, Undisputed config x.1 x.2.1.1 x.2.1.2) ∧
      ((∀ x ∈ steps, Undisputed config x.1 x.2.1.1 x.2.1.2) → KeepsFinished s t) := by
  have hstep : ∀ x ∈ steps, KeepsFinished x.1 x.2.2 ↔
      Undisputed config x.1 x.2.1.1 x.2.1.2 := by
    intro x hx
    obtain ⟨hreachable, hst⟩ := hrun.reachable_of_mem hs hx
    exact keepsFinished_step_iff (reachable_wellFormed hreachable) hst
  refine ⟨forall₂_congr hstep, fun hall => ?_⟩
  clear hs
  induction hrun with
  | nil => exact KeepsFinished.refl _
  | @snoc t u a steps hrun hst ih =>
    have hlast := (hstep (t, a, u) (by simp)).mpr (hall (t, a, u) (by simp))
    refine (ih ?_ ?_).trans hlast
    · intro x hx
      exact hstep x (List.mem_append_left _ hx)
    · intro x hx
      exact hall x (List.mem_append_left _ hx)

/-! ## Late finishes and late recoveries -/

def emptySystem : System := ⟨Dict.empty, [], Dict.empty, Dict.empty⟩

theorem emptySystem_initial : emptySystem.Initial := ⟨rfl, rfl, rfl⟩

/-- Take the steps of the runs in the given order. -/
def System.schedule (config : PipelineConfig) :
    System → List (RunId × PipelineAction) → Option System :=
  Machine.follow fun s a => s.step config a.1 a.2

theorem schedule_reachable {actions : List (RunId × PipelineAction)}
    (h : emptySystem.schedule config actions = some t) : (pipeline config).Reachable t :=
  Machine.reachable_of_follow (fun _ _ _ hst => hst) emptySystem_initial h

/-- The default configuration, stale after two hours. -/
def defaultPipeline : PipelineConfig := ⟨.default, 7200000000, by decide⟩

/-- A Monday. -/
def monday : Invocation := ⟨739824, .scheduled, false⟩

def reads (run : RunId) (running succeeded : Option ExecutionId) : List (RunId × PipelineAction) :=
  [(run, .invoke monday), (run, .lock), (run, .readRunning running),
    (run, .readSucceeded succeeded)]

/-- From its first stage to the one before its finish. -/
def works (run : RunId) : List (RunId × PipelineAction) :=
  [(run, .setStage), (run, .enterStage), (run, .setStage), (run, .enterStage), (run, .setStage),
    (run, .enterStage), (run, .setStage), (run, .enterStage), (run, .setStage),
    (run, .enterStage), (run, .setStage)]

/-- Run 1 is ready to finish; its row is 101. -/
def slowRun : List (RunId × PipelineAction) :=
  reads 1 none none ++ [(1, .acquire 0 101)] ++ works 1

instance : (action : PipelineAction) → Decidable (Undisputed config s run action)
  | .succeed _ _ =>
    inferInstanceAs (Decidable (∀ id ∈ s.workingOn run, s.statusOf id = some .running))
  | .acquire now _ =>
    inferInstanceAs (Decidable (∀ id ∈ s.recovers config run now, s.statusOf id ≠ some .succeeded))
  | .invoke _ | .lock | .readRunning _ | .readSucceeded _ | .enterStage | .setStage | .fail _ _
  | .crash => isTrue trivial

/-- Run 2 recovers the row of run 1, which outlives the stale timeout, and succeeds.
Run 1 raises in its last stage, before that. -/
def overlappingRuns : List (RunId × PipelineAction) :=
  slowRun ++ reads 2 (some 101) none ++ [(2, .acquire 8000000000 102)] ++ works 2 ++
    [(1, .fail 8050000000 "RuntimeError"), (2, .succeed 8060000000 [])]

theorem finished_final_iff_sample :
    ∃ steps t, (pipeline defaultPipeline).Run emptySystem steps t ∧
      t.statusOf 101 = some .failed ∧ t.statusOf 102 = some .succeeded ∧
      (∀ x ∈ steps, KeepsFinished x.1 x.2.2) ∧ KeepsFinished emptySystem t := by
  have hdone : (emptySystem.schedule defaultPipeline overlappingRuns).map
      (fun t => (t.statusOf 101, t.statusOf 102)) = some (some .failed, some .succeeded) := by
    decide +kernel
  obtain ⟨t, ht, hstatus⟩ := Option.map_eq_some_iff.mp hdone
  rw [Prod.mk.injEq] at hstatus
  have hrun := Machine.run_trace (M := pipeline defaultPipeline) (fun _ _ _ hst => hst) ht
  have hundisputed : ∀ x ∈ Machine.trace (fun s a => s.step defaultPipeline a.1 a.2) emptySystem
      overlappingRuns, Undisputed defaultPipeline x.1 x.2.1.1 x.2.1.2 := by
    decide +kernel
  obtain ⟨hiff, hkept⟩ := finished_final_iff (.init emptySystem_initial) hrun
  exact ⟨_, t, hrun, hstatus.1, hstatus.2, hiff.mpr hundisputed, hkept hundisputed⟩

/-- Run 1 outlives the stale timeout. Recovered by run 2, it still finishes and its
failed row becomes a succeeded one; finished between the read and the write of
run 2, its succeeded row becomes a failed one. -/
theorem finished_status_changes :
    (∃ s t, (pipeline defaultPipeline).Reachable s ∧
      (pipeline defaultPipeline).step s (1, .succeed 8100000000 []) t ∧
      (s.executions.get? 101).map (fun row => (row.status, row.errorCode)) =
        some (.failed, some "stale_execution_recovered") ∧
      t.statusOf 101 = some .succeeded) ∧
    ∃ s t, (pipeline defaultPipeline).Reachable s ∧
      (pipeline defaultPipeline).step s (2, .acquire 8000000000 102) t ∧
      s.statusOf 101 = some .succeeded ∧ t.statusOf 101 = some .failed := by
  constructor
  · have hlate : (emptySystem.schedule defaultPipeline
        (slowRun ++ reads 2 (some 101) none ++ [(2, .acquire 8000000000 102)])).bind (fun s =>
          (s.step defaultPipeline 1 (.succeed 8100000000 [])).map fun t =>
            ((s.executions.get? 101).map (fun row => (row.status, row.errorCode)),
              t.statusOf 101)) =
        some (some (.failed, some "stale_execution_recovered"), some .succeeded) := by
      decide +kernel
    obtain ⟨s, hs, hstep⟩ := Option.bind_eq_some_iff.mp hlate
    obtain ⟨t, ht, hstatus⟩ := Option.map_eq_some_iff.mp hstep
    rw [Prod.mk.injEq] at hstatus
    exact ⟨s, t, schedule_reachable hs, ht, hstatus⟩
  · have hold : (emptySystem.schedule defaultPipeline
        (slowRun ++ reads 2 (some 101) none ++ [(1, .succeed 7900000000 [])])).bind (fun s =>
          (s.step defaultPipeline 2 (.acquire 8000000000 102)).map fun t =>
            (s.statusOf 101, t.statusOf 101)) = some (some .succeeded, some .failed) := by
      decide +kernel
    obtain ⟨s, hs, hstep⟩ := Option.bind_eq_some_iff.mp hold
    obtain ⟨t, ht, hstatus⟩ := Option.map_eq_some_iff.mp hstep
    rw [Prod.mk.injEq] at hstatus
    exact ⟨s, t, schedule_reachable hs, ht, hstatus⟩

end Screener.Market
