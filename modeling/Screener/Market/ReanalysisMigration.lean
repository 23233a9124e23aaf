import Screener.Lib.CivilDate
import Screener.Market.ExecutionOwnership
import Screener.Market.Stocks

/-!
# The reanalysis migration

Migration `0008_watchlist_reanalysis` replaces the unique index over the running
and the succeeded rows of a date by one over its running rows. The downgrade looks
for a date with several successes before it drops an index; the index that it
builds afterwards covers the running rows as well.
-/

namespace Screener.Market

open Screener.Lib

/-! ## Tables under unique indexes -/

/-- A unique index on `trading_date` over the rows with one of these statuses. -/
structure UniqueDateIndex where
  name : String
  statuses : List ExecutionStatus
deriving DecidableEq, Repr

/-- The dates of the rows with one of these statuses. -/
def Executions.datesWith (rows : Executions) (statuses : List ExecutionStatus) : List Date :=
  (rows.values.filter fun row => row.status ∈ statuses).map (·.tradingDate)

def UniqueDateIndex.Holds (index : UniqueDateIndex) (rows : Executions) : Prop :=
  (rows.datesWith index.statuses).Nodup

instance (index : UniqueDateIndex) (rows : Executions) : Decidable (index.Holds rows) :=
  inferInstanceAs (Decidable (List.Nodup _))

/-- `watchlist_pipeline_executions`: the rows never break an index that is there. -/
structure ExecutionsTable where
  rows : Executions
  indexes : List UniqueDateIndex
  enforced : ∀ index ∈ indexes, index.Holds rows

namespace ExecutionsTable

variable (table : ExecutionsTable)

def drop (name : String) : ExecutionsTable where
  rows := table.rows
  indexes := table.indexes.filter (·.name ≠ name)
  enforced index h := table.enforced index (List.mem_of_mem_filter h)

def add (index : UniqueDateIndex) (h : index.Holds table.rows) : ExecutionsTable where
  rows := table.rows
  indexes := table.indexes ++ [index]
  enforced := forall_mem_concat table.enforced h

end ExecutionsTable

/-! ## The migration -/

/-- The state in which a migration raises is the one that its statements have made;
the rollback comes after. -/
abbrev Migration := EStateM PyException ExecutionsTable

def undefinedIndex (name : String) : PyException :=
  ⟨"ProgrammingError", "index \"" ++ name ++ "\" does not exist"⟩

def duplicateIndex (name : String) : PyException :=
  ⟨"ProgrammingError", "relation \"" ++ name ++ "\" already exists"⟩

def uniqueViolation (name : String) : PyException :=
  ⟨"IntegrityError", "could not create unique index \"" ++ name ++ "\""⟩

/-- `op.drop_index`. -/
def dropIndex (name : String) : Migration Unit := fun table =>
  if name ∈ table.indexes.map (·.name) then .ok () (table.drop name)
  else .error (undefinedIndex name) table

/-- `op.create_index`. -/
def createIndex (index : UniqueDateIndex) : Migration Unit := fun table =>
  if index.name ∈ table.indexes.map (·.name) then .error (duplicateIndex index.name) table
  else if h : index.Holds table.rows then .ok () (table.add index h)
  else .error (uniqueViolation index.name) table

/-- The index of migration 0004. -/
def activeOrSucceeded : UniqueDateIndex :=
  ⟨"uq_watchlist_pipeline_active_or_succeeded_date", [.running, .succeeded]⟩

def runningDate : UniqueDateIndex := ⟨"uq_watchlist_pipeline_running_date", [.running]⟩

def upgrade : Migration Unit := do
  dropIndex activeOrSucceeded.name
  createIndex runningDate

/-- What the query for a date with several successes may answer; `LIMIT 1` takes any. -/
def DuplicateSuccess (rows : Executions) : Option Date → Prop
  | none => ∀ date, (rows.datesWith [.succeeded]).count date ≤ 1
  | some date => 1 < (rows.datesWith [.succeeded]).count date

def severalSuccesses (date : Date) : PyException :=
  ⟨"RuntimeError", "Cannot downgrade watchlist reanalysis migration: multiple successful " ++
    "executions exist for " ++ CivilDate.isoformat date ++ ". Downgrade would violate " ++
    "preserved reanalysis audit history; explicitly resolve that history outside " ++
    "the migration before retrying."⟩

def downgrade (duplicateSuccessDate : Option Date) : Migration Unit := do
  match duplicateSuccessDate with
  | some date => throw (severalSuccesses date)
  | none => pure ()
  dropIndex runningDate.name
  createIndex activeOrSucceeded

/-! ## The indexes over the rows -/

variable {rows : Executions} {table after : ExecutionsTable} {answer : Option Date}

theorem duplicateSuccess_none : DuplicateSuccess rows none ↔ (rows.datesWith [.succeeded]).Nodup :=
  List.nodup_iff_count_le_one.symm

/-- The old index covers what the new one covers, and the successes. -/
theorem datesWith_active (rows : Executions) :
    (rows.datesWith [.running, .succeeded]).Perm
      (rows.datesWith [.running] ++ rows.datesWith [.succeeded]) := by
  have hrunning : (rows.values.filter fun row => row.status ∈ [.running, .succeeded]).filter
      (fun row => row.status ∈ [.running]) =
      rows.values.filter fun row => row.status ∈ [.running] := by
    rw [List.filter_filter]
    refine List.filter_congr fun row _ => ?_
    cases row.status <;> decide
  have hsucceeded : (rows.values.filter fun row => row.status ∈ [.running, .succeeded]).filter
      (fun row => !decide (row.status ∈ [.running])) =
      rows.values.filter fun row => row.status ∈ [.succeeded] := by
    rw [List.filter_filter]
    refine List.filter_congr fun row _ => ?_
    cases row.status <;> decide
  have hsplit := List.filter_append_perm (fun row => decide (row.status ∈ [.running]))
    (rows.values.filter fun row => row.status ∈ [.running, .succeeded])
  rw [hrunning, hsucceeded] at hsplit
  unfold Executions.datesWith
  rw [← List.map_append]
  exact hsplit.symm.map _

theorem holds_activeOrSucceeded : activeOrSucceeded.Holds rows ↔
    runningDate.Holds rows ∧ (rows.datesWith [.succeeded]).Nodup ∧
      (rows.datesWith [.running]).Disjoint (rows.datesWith [.succeeded]) :=
  (datesWith_active rows).nodup_iff.trans List.nodup_append'

/-- The new index is the rule of the acquisition: one running row for each date. -/
theorem holds_runningDate : runningDate.Holds rows ↔ OneRunning rows := by
  have hentries : rows.datesWith [.running] =
      (rows.entries.filter fun entry => entry.2.status ∈ [.running]).map (·.2.tradingDate) := by
    rw [Executions.datesWith, Dict.values, List.filter_map, List.map_map]
    rfl
  have hnodup : (rows.entries.filter fun entry => entry.2.status ∈ [.running]).Nodup :=
    (List.Nodup.of_map _ rows.nodup).filter _
  have hmem : ∀ id row, (id, row) ∈ (rows.entries.filter fun entry => entry.2.status ∈ [.running]) ↔
      rows.get? id = some row ∧ row.status = .running := by
    intro id row
    rw [List.mem_filter, Dict.get?_eq_some]
    simp
  show (rows.datesWith [.running]).Nodup ↔ _
  rw [hentries, List.nodup_map_iff_inj_on hnodup]
  constructor
  · intro hinj id id' row row' hrow hrow' hstatus hstatus' hdate
    exact congrArg Prod.fst (hinj (id, row) ((hmem id row).mpr ⟨hrow, hstatus⟩) (id', row')
      ((hmem id' row').mpr ⟨hrow', hstatus'⟩) hdate)
  · rintro hone ⟨id, row⟩ hx ⟨id', row'⟩ hy hdate
    obtain ⟨hrow, hstatus⟩ := (hmem id row).mp hx
    obtain ⟨hrow', hstatus'⟩ := (hmem id' row').mp hy
    obtain rfl := hone id id' row row' hrow hrow' hstatus hstatus' hdate
    rw [hrow] at hrow'
    rw [Option.some.inj hrow']

/-! ## The guard -/

/-- After the upgrade the table has the new index alone. -/
def ExecutionsTable.Upgraded (table : ExecutionsTable) : Prop := table.indexes = [runningDate]

theorem ExecutionsTable.Upgraded.oneRunning (h : table.Upgraded) : OneRunning table.rows :=
  holds_runningDate.mp (table.enforced runningDate (h ▸ List.mem_singleton_self _))

/-- The upgrade never fails: the old index is the stronger one. -/
theorem upgrade_upgraded (h : table.indexes = [activeOrSucceeded]) :
    ∃ after, upgrade.run table = .ok () after ∧ after.rows = table.rows ∧ after.Upgraded := by
  have hold : activeOrSucceeded.Holds table.rows :=
    table.enforced _ (h ▸ List.mem_singleton_self _)
  have hnew : runningDate.Holds (table.drop activeOrSucceeded.name).rows :=
    (holds_activeOrSucceeded.mp hold).1
  have hdropped : (table.drop activeOrSucceeded.name).indexes = [] := by
    simp [ExecutionsTable.drop, h]
  refine ⟨(table.drop activeOrSucceeded.name).add runningDate hnew, ?_, rfl, ?_⟩
  · have hthere : activeOrSucceeded.name ∈ table.indexes.map (·.name) := by simp [h]
    show (dropIndex _ >>= fun _ => createIndex _) table = _
    simp only [bind, EStateM.bind, dropIndex, if_pos hthere, createIndex, hdropped]
    simp [hnew]
  · simp [ExecutionsTable.Upgraded, ExecutionsTable.add, hdropped]

theorem downgrade_refuses {date : Date} :
    (downgrade (some date)).run table = .error (severalSuccesses date) table := rfl

/-- Past its check the downgrade has dropped the new index before the old one is tried. -/
theorem downgrade_proceeds (h : table.Upgraded) :
    (downgrade none).run table =
      if hholds : activeOrSucceeded.Holds table.rows then
        .ok () ((table.drop runningDate.name).add activeOrSucceeded hholds)
      else .error (uniqueViolation activeOrSucceeded.name) (table.drop runningDate.name) := by
  have hthere : runningDate.name ∈ table.indexes.map (·.name) := by simp
    [show table.indexes = _ from h]
  have hdropped : (table.drop runningDate.name).indexes = [] := by
    simp [ExecutionsTable.drop, show table.indexes = _ from h]
  show (dropIndex _ >>= fun _ => createIndex _) table = _
  simp only [bind, EStateM.bind, dropIndex, if_pos hthere, createIndex, hdropped]
  rfl

/-- The check lets the downgrade proceed exactly where its index can be built, and
every refusal is the explanatory error, of a date with several successes and before
any change. -/
structure GuardExact (table : ExecutionsTable) (answer : Option Date) : Prop where
  proceeds : answer = none ↔ activeOrSucceeded.Holds table.rows
  refuses : ∀ exc after, (downgrade answer).run table = .error exc after →
    (∃ date, exc = severalSuccesses date ∧ 1 < (table.rows.datesWith [.succeeded]).count date) ∧
      after = table

/-- Some date has several successes, or no date has both a running row and a success. -/
def Executions.Decided (rows : Executions) : Prop :=
  (∃ date, 1 < (rows.datesWith [.succeeded]).count date) ∨
    (rows.datesWith [.running]).Disjoint (rows.datesWith [.succeeded])

/-- **The downgrade guard.** Under the upgraded schema the guard is exact where some
date has several successes or no date that has succeeded has a running row; a
reanalysis that runs on a date with one success passes the guard and is refused by
the index instead. -/
theorem downgrade_guard_exact (h : table.Upgraded) (hanswer : DuplicateSuccess table.rows answer) :
    GuardExact table answer ↔ table.rows.Decided := by
  cases answer with
  | some date =>
    refine iff_of_true ⟨?_, ?_⟩ (.inl ⟨date, hanswer⟩)
    · refine iff_of_false (Option.some_ne_none date) fun hholds => ?_
      have hnodup := (holds_activeOrSucceeded.mp hholds).2.1
      exact absurd (duplicateSuccess_none.mpr hnodup date) (not_le.mpr hanswer)
    · intro exc after hrun
      rw [downgrade_refuses] at hrun
      cases hrun
      exact ⟨⟨date, rfl, hanswer⟩, rfl⟩
  | none =>
    have hnodup := duplicateSuccess_none.mp hanswer
    have hholds : activeOrSucceeded.Holds table.rows ↔ table.rows.Decided := by
      rw [holds_activeOrSucceeded]
      constructor
      · exact fun hsplit => .inr hsplit.2.2
      · rintro (⟨date, hdate⟩ | hdisjoint)
        · exact absurd (hanswer date) (not_le.mpr hdate)
        · exact ⟨holds_runningDate.mpr h.oneRunning, hnodup, hdisjoint⟩
    rw [← hholds]
    constructor
    · exact fun hexact => hexact.proceeds.mp rfl
    · intro hbuilt
      refine ⟨iff_of_true rfl hbuilt, ?_⟩
      intro exc after hrun
      rw [downgrade_proceeds h, dif_pos hbuilt] at hrun
      cases hrun

def upgraded (rows : Executions) (h : OneRunning rows) : ExecutionsTable where
  rows := rows
  indexes := [runningDate]
  enforced := List.forall_mem_singleton.mpr (holds_runningDate.mpr h)

/-- A date with one success and a second one that a reanalysis has added. -/
def sampleHistory : Executions :=
  (Dict.empty.set 101
      { newExecution 101 739824 .scheduled 0 with status := .succeeded, stage := .completed }).set
        102
    { newExecution 102 739824 .manualReanalysis 1 with status := .succeeded, stage := .completed }

theorem sampleHistory_oneRunning : OneRunning sampleHistory :=
  holds_runningDate.mp (by decide)

theorem downgrade_guard_exact_sample :
    GuardExact (upgraded sampleHistory sampleHistory_oneRunning) (some 739824) := by
  have hseveral : 1 < (sampleHistory.datesWith [.succeeded]).count 739824 := by decide
  have hanswer : DuplicateSuccess sampleHistory (some 739824) := hseveral
  have hupgraded : (upgraded sampleHistory sampleHistory_oneRunning).Upgraded := rfl
  exact (downgrade_guard_exact hupgraded hanswer).mpr (.inl ⟨739824, hseveral⟩)

/-! ## A reanalysis under way -/

/-- The calls of a date that has succeeded once and is analysed again. The guard finds
one success and passes; the old index is then refused with the new one dropped. -/
theorem running_reanalysis_passes_guard :
    ∃ table after : ExecutionsTable, repository.Reachable table.rows ∧ table.Upgraded ∧
      DuplicateSuccess table.rows none ∧
      (downgrade none).run table = .error (uniqueViolation activeOrSucceeded.name) after ∧
      after.indexes = [] ∧ ¬ GuardExact table none := by
  have hcalls : (Machine.follow Executions.call Dict.empty sampleCalls).map (fun rows =>
      (rows.datesWith [.running], rows.datesWith [.succeeded])) =
      some ([739824], [739824]) := by
    decide +kernel
  obtain ⟨rows, hrows, hdates⟩ := Option.map_eq_some_iff.mp hcalls
  obtain ⟨hrunning, hsucceeded⟩ := Prod.mk.inj hdates
  have hreachable : repository.Reachable rows :=
    Machine.reachable_of_follow (fun _ _ _ hst => hst) rfl hrows
  have hguard : DuplicateSuccess rows none := by
    rw [duplicateSuccess_none, hsucceeded]
    exact List.nodup_singleton _
  have hindex : ¬ activeOrSucceeded.Holds rows := by
    intro hholds
    have hdisjoint := (holds_activeOrSucceeded.mp hholds).2.2
    rw [hrunning, hsucceeded] at hdisjoint
    exact hdisjoint (List.mem_singleton_self _) (List.mem_singleton_self _)
  have hupgraded : (upgraded rows (reachable_oneRunning hreachable)).Upgraded := rfl
  refine ⟨upgraded rows _, _, hreachable, hupgraded, hguard,
    (downgrade_proceeds hupgraded).trans (dif_neg hindex), rfl, ?_⟩
  exact fun hexact => hindex (hexact.proceeds.mp rfl)

end Screener.Market
