import Screener.Lib.Dict
import Screener.Lib.UnitOfWork

/-!
# Upserts that skip unchanged rows

A batch of keyed rows is compared with what a table holds: new rows are
inserted, changed ones updated, equal ones left out of the write. `store` is
what the columns make of a value.
-/

namespace Screener.Lib

structure UpsertResult where
  inserted : Nat := 0
  updated : Nat := 0
  skipped : Nat := 0
deriving DecidableEq, Repr

def UpsertResult.add (total value : UpsertResult) : UpsertResult :=
  ⟨total.inserted + value.inserted, total.updated + value.updated, total.skipped + value.skipped⟩

namespace Upsert

variable {κ ν δ ε : Type} [DecidableEq κ]

/-- `INSERT … ON CONFLICT DO UPDATE`. -/
def writeRows (store : ν → ν) (table : Dict κ ν) (rows : List (κ × ν)) : Dict κ ν :=
  rows.foldl (fun table row => table.set row.1 (store row.2)) table

section Writing

variable {store : ν → ν} {table : Dict κ ν} {rows : List (κ × ν)} {k : κ}

theorem get?_writeRows_of_not_mem (hk : k ∉ rows.map Prod.fst) :
    (writeRows store table rows).get? k = table.get? k := by
  induction rows generalizing table with
  | nil => rfl
  | cons row rest ih =>
    simp only [List.map_cons, List.mem_cons, not_or] at hk
    show (writeRows store (table.set row.1 (store row.2)) rest).get? k = _
    rw [ih hk.2, Dict.get?_set, if_neg hk.1]

theorem get?_writeRows_of_mem (hrows : (rows.map Prod.fst).Nodup) {row : κ × ν} (h : row ∈ rows) :
    (writeRows store table rows).get? row.1 = some (store row.2) := by
  induction rows generalizing table with
  | nil => cases h
  | cons first rest ih =>
    simp only [List.map_cons, List.nodup_cons] at hrows
    show (writeRows store (table.set first.1 (store first.2)) rest).get? row.1 = _
    rcases List.mem_cons.mp h with rfl | h
    · rw [get?_writeRows_of_not_mem hrows.1, Dict.get?_set, if_pos rfl]
    · exact ih hrows.2 h

theorem keys_writeRows_fresh (hrows : (rows.map Prod.fst).Nodup)
    (h : ∀ row ∈ rows, table.get? row.1 = none) :
    (writeRows store table rows).keys = table.keys ++ rows.map Prod.fst := by
  induction rows generalizing table with
  | nil => simp [writeRows]
  | cons row rest ih =>
    simp only [List.map_cons, List.nodup_cons] at hrows
    have hkey : row.1 ∉ table.keys := Dict.get?_eq_none.mp (h row List.mem_cons_self)
    show (writeRows store (table.set row.1 (store row.2)) rest).keys = _
    rw [ih hrows.2, Dict.keys_set_of_not_mem hkey]
    · simp
    · intro other hother
      have hne : other.1 ≠ row.1 := fun heq => hrows.1 (List.mem_map.mpr ⟨other, hother, heq⟩)
      rw [Dict.get?_set, if_neg hne]
      exact h other (List.mem_cons_of_mem row hother)

end Writing

variable [DecidableEq ν]

/-- The counts of a batch and the rows of it that are written. -/
def plan (old : Dict κ ν) : List (κ × ν) → UpsertResult × List (κ × ν)
  | [] => ({}, [])
  | row :: rest =>
    let (result, rows) := plan old rest
    match old.get? row.1 with
    | none => ({ result with inserted := result.inserted + 1 }, row :: rows)
    | some value =>
      if value ≠ row.2 then ({ result with updated := result.updated + 1 }, row :: rows)
      else ({ result with skipped := result.skipped + 1 }, rows)

/-- The table after a batch. -/
def merge (store : ν → ν) (table : Dict κ ν) (rows : List (κ × ν)) : Dict κ ν :=
  writeRows store table (plan table rows).2

/-- What the two statements of an upsert raise. -/
structure Faults (ε : Type) where
  select : Option ε := none
  write : Option ε := none

/-- An upsert of the table that `get` and `put` give access to; an empty batch
makes no statement, and neither does an empty write. -/
def upsert (get : δ → Dict κ ν) (put : Dict κ ν → δ → δ) (store : ν → ν) (faults : Faults ε)
    (rows : List (κ × ν)) : Work δ ε UpsertResult :=
  if rows = [] then return {}
  else do
    let old ← Work.query faults.select get
    if (plan old rows).2 = [] then return (plan old rows).1
    else do
      Work.write faults.write fun d => put (writeRows store (get d) (plan old rows).2) d
      return (plan old rows).1

/-! ## What is written -/

section Rows

variable {store : ν → ν} {table old : Dict κ ν} {rows : List (κ × ν)} {k : κ}

theorem plan_rows_sublist (old : Dict κ ν) (rows : List (κ × ν)) :
    (plan old rows).2.Sublist rows := by
  induction rows with
  | nil => exact List.Sublist.refl []
  | cons row rest ih =>
    simp only [plan]
    cases old.get? row.1 with
    | none => exact ih.cons_cons row
    | some value =>
      simp only
      split_ifs
      · exact ih.cons_cons row
      · exact ih.cons row

/-- A row that is left out of the write is in the table already. -/
theorem mem_plan_rows {row : κ × ν} (h : row ∈ rows) :
    row ∈ (plan old rows).2 ∨ old.get? row.1 = some row.2 := by
  induction rows with
  | nil => cases h
  | cons first rest ih =>
    simp only [plan]
    rcases List.mem_cons.mp h with rfl | h
    · cases hold : old.get? row.1 with
      | none => exact .inl List.mem_cons_self
      | some value =>
        simp only
        split_ifs with hvalue
        · exact .inl List.mem_cons_self
        · exact .inr (by rw [not_not.mp hvalue])
    · cases old.get? first.1 with
      | none => exact (ih h).imp_left (List.mem_cons_of_mem first)
      | some value =>
        simp only
        split_ifs
        · exact (ih h).imp_left (List.mem_cons_of_mem first)
        · exact ih h

theorem get?_merge_of_not_mem (hk : k ∉ rows.map Prod.fst) :
    (merge store table rows).get? k = table.get? k :=
  get?_writeRows_of_not_mem fun h => hk (((plan_rows_sublist table rows).map Prod.fst).subset h)

/-- Every row of a batch is in the table afterwards, as its columns hold it. -/
theorem get?_merge_of_mem (hrows : (rows.map Prod.fst).Nodup)
    (hstore : ∀ row ∈ rows, table.get? row.1 = some row.2 → store row.2 = row.2) {row : κ × ν}
    (h : row ∈ rows) : (merge store table rows).get? row.1 = some (store row.2) := by
  have hsub := plan_rows_sublist table rows
  by_cases hwritten : row ∈ (plan table rows).2
  · exact get?_writeRows_of_mem (hrows.sublist (hsub.map Prod.fst)) hwritten
  · have hold : table.get? row.1 = some row.2 := (mem_plan_rows h).resolve_left hwritten
    have hkey : row.1 ∉ (plan table rows).2.map Prod.fst := by
      intro hin
      obtain ⟨other, hother, heq⟩ := List.mem_map.mp hin
      have hsame : other = row := List.inj_on_of_nodup_map hrows (hsub.subset hother) h heq
      exact hwritten (hsame ▸ hother)
    rw [merge, get?_writeRows_of_not_mem hkey, hold, hstore row h hold]

/-- A batch of new rows is written whole. -/
theorem plan_fresh (h : ∀ row ∈ rows, old.get? row.1 = none) :
    plan old rows = ({ inserted := rows.length }, rows) := by
  induction rows with
  | nil => rfl
  | cons row rest ih =>
    rw [plan, ih fun other hother => h other (List.mem_cons_of_mem row hother),
      h row List.mem_cons_self]
    rfl

/-- Each row is counted by what the table holds for its key. -/
theorem plan_counts (old : Dict κ ν) (rows : List (κ × ν)) : (plan old rows).1 =
    { inserted := rows.countP fun row => old.get? row.1 = none
      updated := rows.countP fun row => (old.get? row.1).any (· ≠ row.2)
      skipped := rows.countP fun row => old.get? row.1 = some row.2 } := by
  induction rows with
  | nil => rfl
  | cons row rest ih =>
    rw [plan]
    generalize plan old rest = planned at ih
    obtain ⟨result, written⟩ := planned
    obtain rfl : result = _ := ih
    cases hold : old.get? row.1 with
    | none => simp [hold]
    | some value =>
      by_cases hvalue : value = row.2
      · simp [hold, hvalue]
      · simp [hold, hvalue]

end Rows

/-! ## The statements of an upsert -/

section Statements

variable {get : δ → Dict κ ν} {put : Dict κ ν → δ → δ} {store : ν → ν} {faults : Faults ε}
  {rows : List (κ × ν)} {s t : UnitOfWork δ}

theorem run_upsert_ok (hput : ∀ d, put (get d) d = d) {result : UpsertResult}
    (h : (upsert get put store faults rows).run s = .ok result t) :
    result = (plan (get s.working) rows).1 ∧
      t = if rows = [] then s else
        { s with working := put (merge store (get s.working) rows) s.working, begun := true } := by
  unfold upsert at h
  split_ifs at h with hrows
  · rw [run_pure_ok] at h
    obtain ⟨rfl, rfl⟩ := h
    rw [hrows, if_pos rfl]
    exact ⟨rfl, rfl⟩
  · obtain ⟨old, u, hquery, h⟩ := run_bind_ok.mp h
    obtain ⟨-, rfl, rfl⟩ := Work.run_query_ok.mp hquery
    rw [if_neg hrows]
    by_cases hplan : (plan (get s.working) rows).2 = []
    · rw [if_pos hplan] at h
      obtain ⟨rfl, rfl⟩ := run_pure_ok.mp h
      refine ⟨rfl, ?_⟩
      rw [merge, hplan, writeRows, List.foldl_nil, hput]
    · rw [if_neg hplan] at h
      obtain ⟨_, v, hwrite, h⟩ := run_bind_ok.mp h
      obtain ⟨-, rfl⟩ := Work.run_write_ok.mp hwrite
      rw [run_pure_ok] at h
      obtain ⟨rfl, rfl⟩ := h
      exact ⟨rfl, rfl⟩

theorem run_upsert_error {e : ε} (h : (upsert get put store faults rows).run s = .error e t) :
    rows ≠ [] ∧ t = { s with begun := true } := by
  unfold upsert at h
  split_ifs at h with hrows
  · cases h
  · refine ⟨hrows, ?_⟩
    rcases run_bind_error.mp h with h | ⟨old, u, hquery, h⟩
    · exact (Work.run_query_error.mp h).2.symm
    · obtain ⟨-, rfl, rfl⟩ := Work.run_query_ok.mp hquery
      split_ifs at h with hplan
      · cases h
      · rcases run_bind_error.mp h with h | ⟨_, v, -, h⟩
        · exact (Work.run_write_error.mp h).2.symm
        · cases h

/-- An upsert keeps what its table does not hold. -/
theorem upsert_steady {γ : Type} {part : δ → γ} {value : γ} (hput : ∀ d, put (get d) d = d)
    (hpart : ∀ table d, part (put table d) = part d) :
    Triple (Work.Steady part value) (upsert get put store faults rows)
      (fun _ => Work.Steady part value) (fun _ => Work.Steady part value) := by
  intro s hs
  have hopen : ∀ d, part d = value →
      Work.Steady part value { s with working := d, begun := true } := by
    intro d hd
    exact ⟨hs.committed, hd, fun h => absurd h Bool.true_eq_false.mp, hs.fresh⟩
  cases hrun : (upsert get put store faults rows).run s with
  | ok result t =>
    rw [(run_upsert_ok hput hrun).2]
    show Work.Steady part value (if rows = [] then s else _)
    split_ifs
    · exact hs
    · exact hopen _ ((hpart _ _).trans hs.working)
  | error e t =>
    rw [(run_upsert_error hrun).2]
    exact hopen s.working hs.working

end Statements

end Upsert

end Screener.Lib
