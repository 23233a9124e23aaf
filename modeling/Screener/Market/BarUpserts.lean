import Screener.Lib.Loop
import Screener.Lib.Stamp
import Screener.Market.Sync

/-!
# The upsert of daily bars

`DailyBarRepository.upsert` compares a batch with the rows that the table has for its
symbols and dates, and writes the new and the changed bars. A database may give back
another datetime than it was given: one column holds one datetime for each moment, in
UTC or without an offset. Datetimes are therefore compared as moments, a naive one as one
in UTC.
-/

namespace Screener.Market

open Screener.Lib

/-! ## Rows -/

/-- A validated bar with the datetime that it carries. -/
structure TimedBar extends DailyBarRecord where
  source : String
  asOf : Stamp
  nonNegative : toDailyBarRecord.NonNegative
  validOhlc : toDailyBarRecord.ValidOhlc

/-- The columns beside the key. -/
structure BarRow where
  «open» : ℚ
  high : ℚ
  low : ℚ
  close : ℚ
  volume : ℤ
  source : String
  providerTimestamp : Option Stamp
deriving DecidableEq, Repr

abbrev BarRows := Dict (Symbol × Date) BarRow

namespace TimedBar

variable (bar : TimedBar)

def key : Symbol × Date := (bar.symbol, bar.tradingDate)

def row : BarRow :=
  ⟨bar.open, bar.high, bar.low, bar.close, bar.volume, bar.source, some bar.asOf⟩

def entry : (Symbol × Date) × BarRow := (bar.key, bar.row)

end TimedBar

/-- A price that `Numeric(20, 6)` represents. -/
def FitsNumeric (price : ℚ) : Prop := OnGrid 6 price ∧ |price| < 10 ^ 14

/-- What the columns give back: some price for every price, and for every datetime one
of its own that stands for one moment. -/
structure BarStore where
  price : ℚ → ℚ
  stamp : Stamp → Stamp
  readable : ∀ s, ∃ m, (stamp s).utc? = some m
  canonical : ∀ s t m, (stamp s).utc? = some m → (stamp t).utc? = some m → stamp s = stamp t

namespace BarStore

variable (store : BarStore)

def keep (row : BarRow) : BarRow :=
  { row with
    «open» := store.price row.open
    high := store.price row.high
    low := store.price row.low
    close := store.price row.close
    providerTimestamp := row.providerTimestamp.map store.stamp }

/-- The price fits its column and comes back from it as it is. -/
def Gives (price : ℚ) : Prop := FitsNumeric price ∧ store.price price = price

def Represents (bar : TimedBar) : Prop :=
  store.Gives bar.open ∧ store.Gives bar.high ∧ store.Gives bar.low ∧ store.Gives bar.close

/-- The row is one that the columns give back. -/
def Holds (row : BarRow) : Prop :=
  ∀ s, row.providerTimestamp = some s → ∃ t, s = store.stamp t

/-- The datetime has a moment, which the column gives back. -/
def KeepsMoment (s : Stamp) : Prop := ∃ m, s.utc? = some m ∧ (store.stamp s).utc? = some m

end BarStore

/-! ## The upsert -/

/-- `astimezone(UTC)`. -/
def utc (s : Stamp) : Except PyException ℤ :=
  match s.utc? with
  | some m => .ok m
  | none => .error ⟨"OverflowError", "date value out of range"⟩

/-- `_values_equal` of two datetimes, of which one may be missing. -/
def stampsEqual : Option Stamp → Option Stamp → Except PyException Bool
  | some left, some right => do
    let leftUtc ← utc left
    let rightUtc ← utc right
    return decide (leftUtc = rightUtc)
  | left, right => .ok (decide (left = right))

/-- `any(not _values_equal(...))`: the datetimes are compared where all else is equal. -/
def BarRow.changed (old row : BarRow) : Except PyException Bool :=
  if old.open ≠ row.open ∨ old.high ≠ row.high ∨ old.low ≠ row.low ∨ old.close ≠ row.close ∨
      old.volume ≠ row.volume ∨ old.source ≠ row.source then .ok true
  else (stampsEqual old.providerTimestamp row.providerTimestamp).map (!·)

inductive BarVerdict where
  | inserted
  | updated
  | skipped
deriving DecidableEq, Repr

/-- The branch of the loop that a bar takes. -/
def barVerdict (existing : BarRows) (bar : TimedBar) : Except PyException BarVerdict :=
  match existing.get? bar.key with
  | none => .ok .inserted
  | some old => (old.changed bar.row).map fun changed => if changed then .updated else .skipped

/-- The rows to write and the counts. -/
structure UpsertPlan where
  rows : List ((Symbol × Date) × BarRow) := []
  result : UpsertResult := {}

def planBar (existing : BarRows) (plan : UpsertPlan) (bar : TimedBar) :
    Except PyException UpsertPlan := do
  match ← barVerdict existing bar with
  | .inserted => return ⟨plan.rows ++ [bar.entry], plan.result.add ⟨1, 0, 0⟩⟩
  | .updated => return ⟨plan.rows ++ [bar.entry], plan.result.add ⟨0, 1, 0⟩⟩
  | .skipped => return ⟨plan.rows, plan.result.add ⟨0, 0, 1⟩⟩

/-- The rows of the symbols and the dates of a batch. -/
def fetchExisting (bars : List TimedBar) (table : BarRows) : BarRows :=
  table.restrict fun k => k.1 ∈ bars.map (·.symbol) && k.2 ∈ bars.map (·.tradingDate)

def duplicateDates : PyException := valueError "duplicate trading dates in batch"

/-- `DailyBarRepository.upsert`. A statement may raise, as it does with more rows than
the driver binds in one statement. -/
def upsertTimed (store : BarStore) (faults : Upsert.Faults PyException) (bars : List TimedBar) :
    Work BarRows PyException UpsertResult :=
  if ¬(bars.map TimedBar.key).Nodup then throw duplicateDates
  else if bars = [] then return {}
  else do
    let existing ← Work.query faults.select (fetchExisting bars)
    let plan ← raiseError (bars.foldlM (planBar existing) {})
    if plan.rows = [] then return plan.result
    else do
      Work.write faults.write fun table => Upsert.writeRows store.keep table plan.rows
      return plan.result

/-- Every bar of the batch is inserted or overwrites. -/
def overwrite (store : BarStore) (bars : List TimedBar) (table : BarRows) : BarRows :=
  Upsert.writeRows store.keep table (bars.map TimedBar.entry)

/-! ## The comparison -/

@[simp] theorem utc_ok {s : Stamp} {m : ℤ} : utc s = .ok m ↔ s.utc? = some m := by
  unfold utc
  cases s.utc? with
  | none => simp
  | some n => simp

@[simp] theorem stampsEqual_some_ok {s t : Stamp} {same : Bool} :
    stampsEqual (some s) (some t) = .ok same ↔
      ∃ m n, s.utc? = some m ∧ t.utc? = some n ∧ decide (m = n) = same := by
  simp only [stampsEqual, bind_ok, utc_ok, pure_ok]
  constructor
  · rintro ⟨m, hm, n, hn, hsame⟩
    exact ⟨m, n, hm, hn, hsame⟩
  · rintro ⟨m, n, hm, hn, hsame⟩
    exact ⟨m, hm, n, hn, hsame⟩

section Comparison

variable {store : BarStore} {bar : TimedBar}

theorem row_keep (store : BarStore) (hfits : store.Represents bar) :
    store.keep bar.row = { bar.row with providerTimestamp := some (store.stamp bar.asOf) } := by
  obtain ⟨hopen, hhigh, hlow, hclose⟩ := hfits
  simp only [BarStore.keep, TimedBar.row, hopen.2, hhigh.2, hlow.2, hclose.2, Option.map_some]

/-- A stored datetime is compared as what the column makes of the other one. -/
theorem stampsEqual_stored {s : Stamp} (hkeeps : store.KeepsMoment s) {old : Option Stamp}
    (hold : ∀ t, old = some t → ∃ u, t = store.stamp u) :
    stampsEqual old (some s) = .ok (decide (old = some (store.stamp s))) := by
  obtain ⟨m, hm, hstored⟩ := hkeeps
  cases old with
  | none => rfl
  | some t =>
    obtain ⟨u, rfl⟩ := hold t rfl
    obtain ⟨n, hn⟩ := store.readable u
    have hsame : n = m ↔ store.stamp u = store.stamp s := by
      constructor
      · intro h
        exact store.canonical _ _ m (h ▸ hn) hstored
      · intro h
        rw [h, hstored] at hn
        exact (Option.some.inj hn).symm
    exact stampsEqual_some_ok.mpr ⟨n, m, hn, hm, by simp [hsame]⟩

/-- A stored row differs from a bar exactly where it is not what the bar is stored as. -/
theorem changed_eq (hfits : store.Represents bar) (hkeeps : store.KeepsMoment bar.asOf)
    {old : BarRow}
    (hold : store.Holds old) : old.changed bar.row = .ok (decide (old ≠ store.keep bar.row)) := by
  rw [row_keep store hfits]
  unfold BarRow.changed
  split_ifs with hvalues
  · have hne : old ≠ { bar.row with providerTimestamp := some (store.stamp bar.asOf) } := by
      intro heq
      rw [heq] at hvalues
      simp at hvalues
    rw [decide_eq_true hne]
  · simp only [not_or, not_not] at hvalues
    obtain ⟨hopen, hhigh, hlow, hclose, hvolume, hsource⟩ := hvalues
    have hiff : old = { bar.row with providerTimestamp := some (store.stamp bar.asOf) } ↔
        old.providerTimestamp = some (store.stamp bar.asOf) := by
      obtain ⟨o, h, l, c, v, src, ts⟩ := old
      simp only at hopen hhigh hlow hclose hvolume hsource
      simp [hopen, hhigh, hlow, hclose, hvolume, hsource]
    show (stampsEqual old.providerTimestamp (some bar.asOf)).map (!·) = _
    rw [stampsEqual_stored hkeeps hold, decide_eq_decide.mpr (not_congr hiff), decide_not]
    rfl

/-- A bar that compares equal with what it is stored as has its moment kept. -/
theorem keepsMoment_of_changed (hfits : store.Represents bar)
    (h : (store.keep bar.row).changed bar.row = .ok false) : store.KeepsMoment bar.asOf := by
  rw [row_keep store hfits] at h
  unfold BarRow.changed at h
  split_ifs at h with hvalues
  · cases h
  · obtain ⟨same, hsame, hnot⟩ := map_ok.mp h
    obtain rfl : same = true := by simpa using hnot
    obtain ⟨m, n, hm, hn, heq⟩ := stampsEqual_some_ok.mp hsame
    rw [decide_eq_true_eq] at heq
    exact ⟨m, heq ▸ hn, hm⟩

end Comparison

/-! ## The loop over a batch -/

section Loop

variable {existing : BarRows} {bars : List TimedBar} {v : TimedBar → BarVerdict}

/-- The rows and the counts of some verdicts. -/
def planOf (v : TimedBar → BarVerdict) (bars : List TimedBar) : UpsertPlan where
  rows := (bars.filter (v · ≠ .skipped)).map TimedBar.entry
  result :=
    ⟨bars.countP (v · = .inserted), bars.countP (v · = .updated), bars.countP (v · = .skipped)⟩

theorem foldlM_planBar (h : ∀ bar ∈ bars, barVerdict existing bar = .ok (v bar))
    (plan : UpsertPlan) :
    bars.foldlM (planBar existing) plan =
      .ok ⟨plan.rows ++ (planOf v bars).rows, plan.result.add (planOf v bars).result⟩ := by
  induction bars generalizing plan with
  | nil => simp [planOf, UpsertResult.add, pure, Except.pure]
  | cons bar rest ih =>
    have hrest := ih fun b hb => h b (List.mem_cons_of_mem bar hb)
    have hbar := h bar List.mem_cons_self
    rw [List.foldlM_cons, planBar, hbar]
    cases hv : v bar with
    | inserted =>
      show rest.foldlM (planBar existing) _ = _
      rw [hrest]
      simp [planOf, hv, UpsertResult.add]
      omega
    | updated =>
      show rest.foldlM (planBar existing) _ = _
      rw [hrest]
      simp [planOf, hv, UpsertResult.add]
      omega
    | skipped =>
      show rest.foldlM (planBar existing) _ = _
      rw [hrest]
      simp [planOf, hv, UpsertResult.add]
      omega

/-- A loop that completes has compared every bar. -/
theorem verdict_of_foldlM {plan plan' : UpsertPlan}
    (h : bars.foldlM (planBar existing) plan = .ok plan') :
    ∀ bar ∈ bars, ∃ w, barVerdict existing bar = .ok w := by
  induction bars generalizing plan with
  | nil => exact fun bar hbar => absurd hbar List.not_mem_nil
  | cons first rest ih =>
    obtain ⟨next, hfirst, hrest⟩ := foldlM_cons_ok.mp h
    obtain ⟨w, hw, -⟩ := bind_ok.mp hfirst
    exact List.forall_mem_cons.mpr ⟨⟨w, hw⟩, ih hrest⟩

/-- The rows of other symbols and dates do not matter to a verdict. -/
theorem barVerdict_fetchExisting {table : BarRows} {bar : TimedBar} (hbar : bar ∈ bars) :
    barVerdict (fetchExisting bars table) bar = barVerdict table bar := by
  have hsymbol : bar.symbol ∈ bars.map (·.symbol) := List.mem_map_of_mem hbar
  have hdate : bar.tradingDate ∈ bars.map (·.tradingDate) := List.mem_map_of_mem hbar
  have hget : (fetchExisting bars table).get? bar.key = table.get? bar.key := by
    rw [fetchExisting, Dict.get?_restrict]
    simp [TimedBar.key, hsymbol, hdate]
  unfold barVerdict
  rw [hget]

theorem planOf_total (v : TimedBar → BarVerdict) (bars : List TimedBar) :
    (planOf v bars).result.inserted + (planOf v bars).result.updated +
      (planOf v bars).result.skipped = bars.length := by
  simp only [planOf]
  induction bars with
  | nil => rfl
  | cons bar rest ih =>
    simp only [List.countP_cons, List.length_cons]
    cases hv : v bar <;> simp <;> omega

end Loop

/-! ## Runs -/

section Runs

variable {store : BarStore} {bars : List TimedBar} {s t : UnitOfWork BarRows}
  {v : TimedBar → BarVerdict}

theorem run_upsertTimed_duplicate {faults : Upsert.Faults PyException}
    (h : ¬(bars.map TimedBar.key).Nodup) :
    (upsertTimed store faults bars).run s = .error duplicateDates s := by
  rw [upsertTimed, if_pos h]
  rfl

/-- The session after an upsert that has come to some verdicts. -/
def afterVerdicts (store : BarStore) (v : TimedBar → BarVerdict) (bars : List TimedBar)
    (s : UnitOfWork BarRows) : UnitOfWork BarRows :=
  if bars = [] then s
  else { s with
    working := Upsert.writeRows store.keep s.working (planOf v bars).rows
    begun := true }

theorem run_upsertTimed (hnodup : (bars.map TimedBar.key).Nodup)
    (h : ∀ bar ∈ bars, barVerdict s.working bar = .ok (v bar)) :
    (upsertTimed store {} bars).run s =
      .ok (planOf v bars).result (afterVerdicts store v bars s) := by
  rw [upsertTimed, if_neg (not_not.mpr hnodup), afterVerdicts]
  split_ifs with hbars
  · rw [hbars]
    rfl
  · have hplan : bars.foldlM (planBar (fetchExisting bars s.working)) {} = .ok (planOf v bars) := by
      rw [foldlM_planBar fun bar hbar => (barVerdict_fetchExisting hbar).trans (h bar hbar)]
      simp [UpsertResult.add]
    rw [run_bind_of_ok (Work.run_query_ok.mpr ⟨rfl, rfl, rfl⟩), hplan,
      run_bind_of_ok (run_raiseError_ok.mpr ⟨rfl, rfl⟩)]
    split_ifs with hrows
    · rw [hrows]
      rfl
    · rw [run_bind_of_ok (Work.run_write_ok (a := ()).mpr ⟨rfl, rfl⟩)]
      rfl

/-- An upsert that raises has written nothing. -/
theorem run_upsertTimed_error {faults : Upsert.Faults PyException} {exc : PyException}
    (h : (upsertTimed store faults bars).run s = .error exc t) : t.working = s.working := by
  unfold upsertTimed at h
  split_ifs at h with hnodup hbars
  · cases h
  · rcases run_bind_error.mp h with hselect | ⟨existing, u, hselect, h⟩
    · obtain ⟨-, rfl⟩ := Work.run_query_error.mp hselect
      rfl
    obtain ⟨-, -, rfl⟩ := Work.run_query_ok.mp hselect
    rcases run_bind_error.mp h with hplan | ⟨plan, v, hplan, h⟩
    · obtain ⟨-, rfl⟩ := run_raiseError_error.mp hplan
      rfl
    obtain ⟨-, rfl⟩ := run_raiseError_ok.mp hplan
    split_ifs at h with hrows
    · cases h
    · rcases run_bind_error.mp h with hwrite | ⟨_, w, -, h⟩
      · obtain ⟨-, rfl⟩ := Work.run_write_error.mp hwrite
        rfl
      · cases h
  · cases h
    rfl

/-- An upsert that returns has compared every bar of a batch without duplicates. -/
theorem verdict_of_run_ok {result : UpsertResult}
    (h : (upsertTimed store {} bars).run s = .ok result t) :
    ∀ bar ∈ bars, ∃ w, barVerdict s.working bar = .ok w := by
  unfold upsertTimed at h
  split_ifs at h with hnodup hbars
  · rw [hbars]
    exact fun bar hbar => absurd hbar List.not_mem_nil
  · obtain ⟨existing, u, hquery, h⟩ := run_bind_ok.mp h
    obtain ⟨-, rfl, rfl⟩ := Work.run_query_ok.mp hquery
    obtain ⟨plan, u', hplan, -⟩ := run_bind_ok.mp h
    intro bar hbar
    rw [← barVerdict_fetchExisting hbar]
    exact verdict_of_foldlM (run_raiseError_ok.mp hplan).1 bar hbar
  · cases h

end Runs

end Screener.Market
