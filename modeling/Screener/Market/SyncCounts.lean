import Screener.Market.SyncClosure

/-!
# What the counts of a run tell

The counts that a returning run records are the rows that it has added. A run
whose failure is recorded has its counts at zero, also where batches that were
committed before have added rows.
-/

namespace Screener.Market

open Screener.Lib

/-- The rows that are new in a table. -/
def addedRows (before after : BarTable) : Nat := (after.keys.filter (· ∉ before.keys)).length

/-- The rows that a table holds otherwise than before, or not any more. -/
def changedRows (before after : BarTable) : Nat :=
  (before.keys.filter fun key => after.get? key ≠ before.get? key).length

/-- The counts of a row are those of the rows added and changed. -/
def CountsTell (before after : BarTable) (run : SyncJobRun) : Prop :=
  run.insertedRows = addedRows before after ∧ run.updatedRows = changedRows before after

variable {config : BarSyncConfig} {env : BarSyncEnv} {db : MarketDb} {before after : BarTable}
  {done : List Symbol} {total : UpsertResult}

theorem Progress.added (h : Progress config env before done total after) :
    addedRows before after = total.inserted := by
  obtain ⟨keys, hafter, hlength⟩ := h.inserted
  have hnodup := after.keys_nodup
  rw [hafter, List.nodup_append'] at hnodup
  have hold : before.keys.filter (· ∉ before.keys) = [] := by
    rw [List.filter_eq_nil_iff]
    intro key hkey
    simp [hkey]
  have hnew : keys.filter (· ∉ before.keys) = keys := by
    rw [List.filter_eq_self]
    intro key hkey
    have hnot : key ∉ before.keys := fun hin => hnodup.2.2 hin hkey
    simp [hnot]
  rw [addedRows, hafter, List.filter_append, hold, hnew, List.nil_append, hlength]

theorem Progress.changed (h : Progress config env before done total after) :
    changedRows before after = 0 := by
  rw [changedRows, List.length_eq_zero_iff, List.filter_eq_nil_iff]
  intro ⟨symbol, date⟩ hkey
  suffices hsame : after.get? (symbol, date) = before.get? (symbol, date) by simp [hsame]
  by_cases hdone : symbol ∈ done
  · obtain ⟨bars, -, hbars, hrest⟩ := h.loaded symbol hdone
    apply hrest
    intro bar hbar hdate
    obtain ⟨hsymbol, hnone, -⟩ := hbars bar hbar
    rw [DailyBar.key, hsymbol, hdate, Dict.get?_eq_none] at hnone
    exact hnone hkey
  · exact h.same symbol hdone date

/-- A row tells the progress if its counts are those of the progress. -/
theorem Progress.countsTell_iff (h : Progress config env before done total after)
    (run : SyncJobRun) :
    CountsTell before after run ↔ run.insertedRows = total.inserted ∧ run.updatedRows = 0 := by
  rw [CountsTell, h.added, h.changed]

variable (config env db) in
/-- No batch that is committed, one after the other from the first, has received
a bar. -/
def CommittedSilent : Prop :=
  ∀ batches, batches <+: config.batches db.stocks.active →
    (∃ total s, (syncBatches config env db batches).run (entered db) = .ok total s) →
    ∀ batch ∈ batches, ∀ symbol ∈ batch.1,
      fetch config env (latestDate db.bars symbol) symbol = .ok []

/-- A run that has come as far as `done` has committed no other batches. -/
theorem committedSilent_iff {done rest : List (List Symbol × Nat)} {batch : List Symbol × Nat}
    {total : UpsertResult} {s t : UnitOfWork MarketDb} {exc : PyException}
    (hsplit : config.batches db.stocks.active = done ++ batch :: rest)
    (hdone : (syncBatches config env db done).run (entered db) = .ok total s)
    (hbatch : (syncBatch config env (latestDate db.bars) total batch).run s = .error exc t) :
    CommittedSilent config env db ↔ ∀ symbol ∈ (done.map Prod.fst).flatten,
      fetch config env (latestDate db.bars symbol) symbol = .ok [] := by
  have hpre : done <+: config.batches db.stocks.active := ⟨batch :: rest, hsplit.symm⟩
  constructor
  · intro hsilent symbol hin
    obtain ⟨symbols, hsymbols, hin⟩ := List.mem_flatten.mp hin
    obtain ⟨committed, hcommitted, rfl⟩ := List.mem_map.mp hsymbols
    exact hsilent done hpre ⟨total, s, hdone⟩ committed hcommitted symbol hin
  · intro hsilent batches hbatches hcompletes committed hcommitted symbol hin
    obtain ⟨total', s', hrun⟩ := hcompletes
    have hearlier : batches <+: done := by
      rcases List.prefix_or_prefix_of_prefix hbatches hpre with h | h
      · exact h
      · obtain ⟨more, rfl⟩ := h
        rw [hsplit, List.prefix_append_right_inj] at hbatches
        cases more with
        | nil => simp
        | cons first more =>
          obtain ⟨rfl, -⟩ := List.cons_prefix_cons.mp hbatches
          rw [run_syncBatches_append hdone, List.foldlM_cons, run_bind_of_error hbatch] at hrun
          cases hrun
    exact hsilent symbol (List.mem_flatten.mpr
      ⟨committed.1, List.mem_map_of_mem (hearlier.subset hcommitted), hin⟩)

/-- Counts of zero tell what a run that has raised leaves exactly when no batch that
it had committed had received a bar. -/
theorem countsTell_of_error (hrange : env.InRange) {exc : PyException} {s : UnitOfWork MarketDb}
    (hloop : (syncBatches config env db (config.batches db.stocks.active)).run (entered db) =
      .error exc s) {run : SyncJobRun} (hcounts : run.insertedRows = 0 ∧ run.updatedRows = 0) :
    CountsTell db.bars s.committed.bars run ↔ CommittedSilent config env db := by
  obtain ⟨done, batch, rest, total, u, hsplit, hdone, hbatch⟩ := syncBatches_error_cut hloop
  have hbefore := (syncBatches_between hrange ⟨batch :: rest, hsplit.symm⟩).of_ok
    between_entered hdone
  have hprogress := ((syncBatch_between hrange (config.batches_new hsplit)).of_error hbefore
    hbatch).1
  rw [committedSilent_iff hsplit hdone hbatch, ← hprogress.silent, hprogress.countsTell_iff,
    hcounts.1, hcounts.2]
  constructor
  · intro htell
    exact htell.1.symm
  · intro hzero
    exact ⟨hzero.symm, rfl⟩

/-- **Sync audit counts.** The counts of a run that is recorded as finished tell
what it has added and changed exactly when the run has returned, or no batch that
it had committed had received a bar. -/
theorem sync_counts_tell_iff (clock : RunClock) (hrange : env.InRange) {run : SyncJobRun}
    (hrow : (runBarSync config env clock db).2.audit.runs.get? db.audit.nextRunId = some run)
    (hfinished : run.status ≠ .running) :
    CountsTell db.bars (runBarSync config env clock db).2.bars run ↔
      (∃ result, (runBarSync config env clock db).1 = .ok result) ∨
        CommittedSilent config env (db.recorded "daily_bars" clock) := by
  have hstarted := db.audit.start_run "daily_bars" clock.startedAt
  unfold runBarSync at hrow ⊢
  cases hrun : (syncBars config env).run (UnitOfWork.start (db.recorded "daily_bars" clock)) with
  | ok result s =>
    have hbetween := syncBars_ok hrange hrun
    have hsteady : Work.Steady MarketDb.audit (db.audit.start "daily_bars" clock.startedAt) s :=
      hbetween.steady.snd
    rw [runJob_of_ok hrun hsteady] at hrow ⊢
    rw [SyncAudit.finish_run clock.finishedAt hstarted result none, Option.some.injEq] at hrow
    have hprogress := hbetween.progress
    rw [← hbetween.settled] at hprogress
    refine ⟨fun _ => .inl ⟨_, rfl⟩, fun _ => (hprogress.countsTell_iff run).mpr ?_⟩
    rw [← hrow]
    exact ⟨rfl, hprogress.updated⟩
  | error exc s =>
    have hothers := (syncBars_error hrange hrun).1
    have hsteady : Work.Steady MarketDb.audit (db.audit.start "daily_bars" clock.startedAt) s :=
      hothers.snd
    cases hbegun : s.begun with
    | true =>
      rw [runJob_of_error_open hrun hbegun] at hrow
      rw [hsteady.committed, hstarted, Option.some.injEq] at hrow
      exact absurd (congrArg SyncJobRun.status hrow).symm hfinished
    | false =>
      rw [runJob_of_error_idle hrun hsteady hbegun] at hrow ⊢
      rw [SyncAudit.finish_run clock.finishedAt hstarted {} (some exc.text),
        Option.some.injEq] at hrow
      obtain ⟨-, rfl⟩ | ⟨-, hloop⟩ := run_syncBars_error hrun
      · cases hbegun
      have hcounts : run.insertedRows = 0 ∧ run.updatedRows = 0 := by
        rw [← hrow]
        exact ⟨rfl, rfl⟩
      refine (countsTell_of_error hrange hloop hcounts).trans ⟨.inr, ?_⟩
      rintro (⟨result, hresult⟩ | hcommitted)
      · cases hresult
      · exact hcommitted

/-! ## Runs against fixed bars -/

/-- The bars of a list that answer a request. -/
def served (bars : List DailyBar) (symbol : Symbol) (start last : Date) : List DailyBar :=
  bars.filter fun bar => bar.symbol = symbol ∧ start ≤ bar.tradingDate ∧ bar.tradingDate ≤ last

theorem inRange_served (bars : List DailyBar) (h : ∀ symbol start last answer,
    env.dailyBars symbol start last = .ok answer → answer = served bars symbol start last) :
    env.InRange := by
  intro symbol start last answer hanswer bar hbar
  rw [h symbol start last answer hanswer, served, List.mem_filter, decide_eq_true_eq] at hbar
  exact hbar.2

/-- A day's bar around a price. -/
def barAt (symbol : Symbol) (date : Date) (close : Nat) : DailyBar where
  symbol := symbol
  tradingDate := date
  «open» := close
  high := close
  low := close
  close := close
  volume := 1000
  source := "toss"
  asOf := 0
  nonNegative := ⟨by positivity, by positivity, by positivity, by positivity,
    Int.natCast_nonneg 1000⟩
  validOhlc := ⟨le_rfl, le_rfl, le_rfl, le_rfl, le_rfl⟩

/-- A provider with one bar of the first symbol, that may fail for the second. -/
def barThen (fails : Bool) : BarSyncEnv where
  today := 739624
  dailyBars symbol start last :=
    if symbol = "000002" ∧ fails = true then .error offline
    else .ok (served [barAt "000001" 739623 100] symbol start last)

theorem barThen_inRange (fails : Bool) : (barThen fails).InRange := by
  apply inRange_served [barAt "000001" 739623 100]
  intro symbol start last answer h
  simp only [barThen] at h
  split_ifs at h
  rw [Except.ok.injEq] at h
  exact h.symm

theorem sync_counts_tell_sample :
    ∃ run, (runBarSync sampleConfig (barThen false) sampleClock sampleDb).2.audit.runs.get?
        sampleDb.audit.nextRunId = some run ∧ run.insertedRows = 1 ∧
      CountsTell sampleDb.bars
        (runBarSync sampleConfig (barThen false) sampleClock sampleDb).2.bars run := by
  refine ⟨_, rfl, rfl, (sync_counts_tell_iff sampleClock (barThen_inRange false) rfl ?_).mpr ?_⟩
  · decide +kernel
  · exact .inl ⟨_, rfl⟩

/-- The first symbol's bar is committed with its batch, the provider fails for the
second symbol, and the run is recorded with nothing inserted. -/
theorem committed_bar_uncounted :
    ∃ run, (runBarSync sampleConfig (barThen true) sampleClock sampleDb).2.audit.runs.get?
        sampleDb.audit.nextRunId = some run ∧ run.status = .failed ∧ run.insertedRows = 0 ∧
      ¬ CountsTell sampleDb.bars
        (runBarSync sampleConfig (barThen true) sampleClock sampleDb).2.bars run := by
  refine ⟨_, rfl, rfl, rfl, ?_⟩
  unfold CountsTell
  decide +kernel

end Screener.Market
