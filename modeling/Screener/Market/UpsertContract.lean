import Screener.Market.BarUpserts

/-!
# Skipping unchanged bars

An upsert that leaves out the bars that are stored already is the upsert that writes all
of them, where the column of datetimes gives back the moments that it is given. There
the counts tell what happened, and the same upsert finds nothing left to do.
-/

namespace Screener.Market

open Screener.Lib

/-! ## What an upsert comes to -/

/-- An upsert did to the table what overwriting does, other rows stayed, the counts tell
what happened, and the same upsert has nothing left to do. -/
structure Upserted (store : BarStore) (bars : List TimedBar) (s t : UnitOfWork BarRows)
    (result : UpsertResult) : Prop where
  table : ∀ k, t.working.get? k = (overwrite store bars s.working).get? k
  others : ∀ k, k ∉ bars.map TimedBar.key → t.working.get? k = s.working.get? k
  total : result.inserted + result.updated + result.skipped = bars.length
  inserted : result.inserted = bars.countP fun bar => bar.key ∉ s.working.keys
  updated : result.updated = bars.countP fun bar =>
    (s.working.get? bar.key).any fun old => t.working.get? bar.key ≠ some old
  again : (upsertTimed store {} bars).run t = .ok { skipped := bars.length } t

/-- A batch with a duplicate is refused before any statement, any other one is upserted
where the database takes its statements. -/
def UpsertContract (store : BarStore) (bars : List TimedBar) (s : UnitOfWork BarRows) : Prop :=
  if (bars.map TimedBar.key).Nodup then
    ∃ result t, (upsertTimed store {} bars).run s = .ok result t ∧ Upserted store bars s t result
  else (upsertTimed store {} bars).run s = .error duplicateDates s

section Contract

variable {store : BarStore} {bars : List TimedBar} {s : UnitOfWork BarRows}

theorem get?_overwrite (hnodup : (bars.map TimedBar.key).Nodup) {table : BarRows} {bar : TimedBar}
    (hbar : bar ∈ bars) :
    (overwrite store bars table).get? bar.key = some (store.keep bar.row) := by
  have hkeys : (bars.map TimedBar.entry).map Prod.fst = bars.map TimedBar.key := List.map_map
  exact Upsert.get?_writeRows_of_mem (hkeys ▸ hnodup) (List.mem_map_of_mem hbar)

theorem get?_overwrite_other {table : BarRows} {k : Symbol × Date}
    (hk : k ∉ bars.map TimedBar.key) : (overwrite store bars table).get? k = table.get? k := by
  have hkeys : (bars.map TimedBar.entry).map Prod.fst = bars.map TimedBar.key := List.map_map
  exact Upsert.get?_writeRows_of_not_mem (hkeys ▸ hk)

/-- The verdict on a bar whose moment is kept: it compares the row with the stored bar. -/
def settled (store : BarStore) (table : BarRows) (bar : TimedBar) : BarVerdict :=
  match table.get? bar.key with
  | none => .inserted
  | some old => if old = store.keep bar.row then .skipped else .updated

theorem settled_inserted_iff {table : BarRows} {bar : TimedBar} :
    settled store table bar = .inserted ↔ table.get? bar.key = none := by
  unfold settled
  cases table.get? bar.key with
  | none => simp
  | some old =>
    simp only
    split_ifs <;> simp

theorem settled_skipped_iff {table : BarRows} {bar : TimedBar} :
    settled store table bar = .skipped ↔ table.get? bar.key = some (store.keep bar.row) := by
  unfold settled
  cases table.get? bar.key with
  | none => simp
  | some old =>
    simp only
    split_ifs with heq
    · simp [heq]
    · simp [heq]

theorem settled_updated_iff {table : BarRows} {bar : TimedBar} :
    settled store table bar = .updated ↔
      ∃ old, table.get? bar.key = some old ∧ old ≠ store.keep bar.row := by
  unfold settled
  cases table.get? bar.key with
  | none => simp
  | some old =>
    simp only
    split_ifs with heq
    · simp [heq]
    · simp [heq]

theorem barVerdict_settled {table : BarRows} {bar : TimedBar}
    (hstored : ∀ k row, table.get? k = some row → store.Holds row) (hfits : store.Represents bar)
    (hkeeps : store.KeepsMoment bar.asOf) :
    barVerdict table bar = .ok (settled store table bar) := by
  unfold barVerdict settled
  cases hold : table.get? bar.key with
  | none => rfl
  | some old =>
    simp only
    rw [changed_eq hfits hkeeps (hstored _ _ hold)]
    by_cases heq : old = store.keep bar.row
    · simp [heq, Except.map]
    · simp [heq, Except.map]

/-- Leaving out the bars that are stored already changes no row. -/
theorem get?_settledRows (hnodup : (bars.map TimedBar.key).Nodup) (table : BarRows)
    (k : Symbol × Date) :
    (Upsert.writeRows store.keep table (planOf (settled store table) bars).rows).get? k =
      (overwrite store bars table).get? k := by
  have hsub : (bars.filter (settled store table · ≠ .skipped)).Sublist bars := List.filter_sublist
  have hrows : (planOf (settled store table) bars).rows.map Prod.fst =
      (bars.filter (settled store table · ≠ .skipped)).map TimedBar.key := List.map_map
  by_cases hk : k ∈ bars.map TimedBar.key
  · obtain ⟨bar, hbar, rfl⟩ := List.mem_map.mp hk
    rw [get?_overwrite hnodup hbar]
    by_cases hwritten : settled store table bar = .skipped
    · have hfresh : bar.key ∉ (planOf (settled store table) bars).rows.map Prod.fst := by
        rw [hrows]
        intro hin
        obtain ⟨other, hother, heq⟩ := List.mem_map.mp hin
        obtain rfl := List.inj_on_of_nodup_map hnodup (hsub.subset hother) hbar heq
        simp [hwritten] at hother
      rw [Upsert.get?_writeRows_of_not_mem hfresh]
      exact settled_skipped_iff.mp hwritten
    · have hmem : bar.entry ∈ (planOf (settled store table) bars).rows := by
        apply List.mem_map_of_mem
        simp [hbar, hwritten]
      exact Upsert.get?_writeRows_of_mem (hrows ▸ hnodup.sublist (hsub.map _)) hmem
  · rw [get?_overwrite_other hk]
    apply Upsert.get?_writeRows_of_not_mem
    rw [hrows]
    exact fun hin => hk ((hsub.map TimedBar.key).subset hin)

theorem get?_afterVerdicts (hnodup : (bars.map TimedBar.key).Nodup) (k : Symbol × Date) :
    (afterVerdicts store (settled store s.working) bars s).working.get? k =
      (overwrite store bars s.working).get? k := by
  unfold afterVerdicts
  split_ifs with hbars
  · rw [hbars]
    rfl
  · exact get?_settledRows hnodup s.working k

theorem planOf_skipped (bars : List TimedBar) :
    planOf (fun _ => .skipped) bars = ⟨[], { skipped := bars.length }⟩ := by
  simp [planOf]

/-- A table that holds every bar of a batch as stored is left as it is. -/
theorem run_upsertTimed_again {t : UnitOfWork BarRows} (hnodup : (bars.map TimedBar.key).Nodup)
    (hbegun : bars ≠ [] → t.begun = true) (hfits : ∀ bar ∈ bars, store.Represents bar)
    (hkeeps : ∀ bar ∈ bars, store.KeepsMoment bar.asOf)
    (hheld : ∀ bar ∈ bars, t.working.get? bar.key = some (store.keep bar.row)) :
    (upsertTimed store {} bars).run t = .ok { skipped := bars.length } t := by
  have hverdict : ∀ bar ∈ bars, barVerdict t.working bar = .ok .skipped := by
    intro bar hbar
    have hholds : store.Holds (store.keep bar.row) :=
        fun s hs => ⟨bar.asOf, (Option.some.inj hs).symm⟩
    unfold barVerdict
    rw [hheld bar hbar]
    simp only
    rw [changed_eq (hfits bar hbar) (hkeeps bar hbar) hholds]
    simp [Except.map]
  rw [run_upsertTimed hnodup hverdict, planOf_skipped, afterVerdicts]
  split_ifs with hbars
  · rfl
  · rw [planOf_skipped, ← hbegun hbars]
    rfl

theorem upserted_of_keeps (hstored : ∀ k row, s.working.get? k = some row → store.Holds row)
    (hfits : ∀ bar ∈ bars, store.Represents bar) (hnodup : (bars.map TimedBar.key).Nodup)
    (hkeeps : ∀ bar ∈ bars, store.KeepsMoment bar.asOf) :
    ∃ result t, (upsertTimed store {} bars).run s = .ok result t ∧
      Upserted store bars s t result := by
  have hverdict : ∀ bar ∈ bars,
      barVerdict s.working bar = .ok (settled store s.working bar) := fun bar hbar =>
    barVerdict_settled hstored (hfits bar hbar) (hkeeps bar hbar)
  have hheld : ∀ bar ∈ bars,
      (afterVerdicts store (settled store s.working) bars s).working.get? bar.key =
        some (store.keep bar.row) := fun bar hbar =>
    (get?_afterVerdicts hnodup bar.key).trans (get?_overwrite hnodup hbar)
  refine ⟨_, _, run_upsertTimed hnodup hverdict, ?_⟩
  constructor
  case table => exact get?_afterVerdicts hnodup
  case others => exact fun k hk => (get?_afterVerdicts hnodup k).trans (get?_overwrite_other hk)
  case total => exact planOf_total _ bars
  case inserted =>
    refine List.countP_congr fun bar _ => ?_
    rw [decide_eq_true_eq, decide_eq_true_eq, settled_inserted_iff, Dict.get?_eq_none]
  case updated =>
    refine List.countP_congr fun bar hbar => ?_
    have hiff : ∀ old, store.keep bar.row ≠ old ↔ old ≠ store.keep bar.row := fun _ => ne_comm
    simp only [decide_eq_true_eq, hheld bar hbar, settled_updated_iff, Option.any_eq_true, ne_eq,
      Option.some.injEq, hiff]
  case again =>
    refine run_upsertTimed_again hnodup (fun hbars => ?_) hfits hkeeps hheld
    rw [afterVerdicts, if_neg hbars]

/-- An upsert after which the same one skips every bar keeps the moments of the batch. -/
theorem keeps_of_upserted (hfits : ∀ bar ∈ bars, store.Represents bar)
    (hnodup : (bars.map TimedBar.key).Nodup) {t : UnitOfWork BarRows} {result : UpsertResult}
    (h : Upserted store bars s t result) : ∀ bar ∈ bars, store.KeepsMoment bar.asOf := by
  have hall : ∀ bar ∈ bars, ∃ w, barVerdict t.working bar = .ok w := verdict_of_run_ok h.again
  have hne : Nonempty BarVerdict := ⟨.skipped⟩
  choose! v hv using hall
  have hagain := h.again
  rw [run_upsertTimed hnodup hv] at hagain
  injection hagain with hresult
  have hcount : bars.countP (v · = .skipped) = bars.length := congrArg UpsertResult.skipped hresult
  intro bar hbar
  have hskipped : v bar = .skipped := of_decide_eq_true (List.countP_eq_length.mp hcount bar hbar)
  have hverdict := hv bar hbar
  rw [hskipped, barVerdict, h.table, get?_overwrite hnodup hbar] at hverdict
  obtain ⟨changed, hchanged, hsame⟩ := map_ok.mp hverdict
  have hfalse : changed = false := by
    cases changed with
    | false => rfl
    | true => cases hsame
  exact keepsMoment_of_changed (hfits bar hbar) (hfalse ▸ hchanged)

end Contract

/-! ## The upsert of a synchronization

The synchronization jobs read a datetime as its moment. Where the moments are kept, their
upsert of the table so read is this one.
-/

def BarRow.columns (row : BarRow) : BarColumns :=
  ⟨row.open, row.high, row.low, row.close, row.volume, row.source,
    row.providerTimestamp.map Stamp.moment⟩

def TimedBar.toDailyBar (bar : TimedBar) : DailyBar :=
  { toDailyBarRecord := bar.toDailyBarRecord
    source := bar.source
    asOf := bar.asOf.moment
    nonNegative := bar.nonNegative
    validOhlc := bar.validOhlc }

/-- A table of moments reads the rows of a table. -/
def Reads (moments : BarTable) (table : BarRows) : Prop :=
  ∀ k, moments.get? k = (table.get? k).map BarRow.columns

section Synchronization

variable {store : BarStore} {bars : List TimedBar} {bar : TimedBar}

theorem numeric6_eq {p : ℚ} (h : FitsNumeric p) : numeric6 p = p :=
  quantizeWith_of_onGrid roundHalfUp_intCast h.1

theorem stored_columns (hfits : store.Represents bar) :
    bar.toDailyBar.columns.stored = bar.toDailyBar.columns := by
  obtain ⟨hopen, hhigh, hlow, hclose⟩ := hfits
  simp only [BarColumns.stored, DailyBar.columns, TimedBar.toDailyBar, numeric6_eq hopen.1,
    numeric6_eq hhigh.1, numeric6_eq hlow.1, numeric6_eq hclose.1]

theorem columns_keep (hfits : store.Represents bar) (hkeeps : store.KeepsMoment bar.asOf) :
    (store.keep bar.row).columns = bar.toDailyBar.columns := by
  obtain ⟨m, hm, hstored⟩ := hkeeps
  have hmoment : (store.stamp bar.asOf).moment = bar.asOf.moment :=
    (Stamp.moment_of_utc? hstored).trans (Stamp.moment_of_utc? hm).symm
  rw [row_keep store hfits]
  simp only [BarRow.columns, TimedBar.row, DailyBar.columns, TimedBar.toDailyBar, Option.map_some,
    hmoment]

/-- A stored row reads as a bar exactly where it is what the bar is stored as. -/
theorem columns_eq_iff (hfits : store.Represents bar) (hkeeps : store.KeepsMoment bar.asOf)
    {old : BarRow} (hold : store.Holds old) :
    old.columns = bar.toDailyBar.columns ↔ old = store.keep bar.row := by
  constructor
  · intro h
    have hchanged := changed_eq hfits hkeeps hold
    obtain ⟨o, hi, l, c, v, src, ts⟩ := old
    simp only [BarRow.columns, DailyBar.columns, TimedBar.toDailyBar, BarColumns.mk.injEq] at h
    obtain ⟨rfl, rfl, rfl, rfl, rfl, rfl, hts⟩ := h
    obtain ⟨s, rfl, hs⟩ := Option.map_eq_some_iff.mp hts
    obtain ⟨t, rfl⟩ := hold s rfl
    obtain ⟨n, hn⟩ := store.readable t
    obtain ⟨m, hm, hstored⟩ := hkeeps
    have hnm : n = m := by
      rw [← Stamp.moment_of_utc? hn, hs, Stamp.moment_of_utc? hm]
    rw [row_keep store hfits, store.canonical _ _ m (hnm ▸ hn) hstored]
    rfl
  · intro h
    rw [h, columns_keep hfits hkeeps]

/-- The verdicts are counted as the comparison of the moments counts them. -/
theorem result_settled {moments : BarTable} {table : BarRows} (hreads : Reads moments table)
    (hstored : ∀ k row, table.get? k = some row → store.Holds row)
    (hfits : ∀ bar ∈ bars, store.Represents bar)
    (hkeeps : ∀ bar ∈ bars, store.KeepsMoment bar.asOf) :
    (planOf (settled store table) bars).result =
      (Upsert.plan moments (bars.map fun bar => (bar.key, bar.toDailyBar.columns))).1 := by
  rw [Upsert.plan_counts, planOf, UpsertResult.mk.injEq]
  simp only [List.countP_map]
  have hold : ∀ bar ∈ bars, ∀ old, table.get? bar.key = some old →
      (old.columns = bar.toDailyBar.columns ↔ old = store.keep bar.row) := fun bar hbar _ h =>
    columns_eq_iff (hfits bar hbar) (hkeeps bar hbar) (hstored _ _ h)
  refine ⟨?_, ?_, ?_⟩
  all_goals
    refine List.countP_congr fun bar hbar => ?_
    simp only [Function.comp_apply, decide_eq_true_eq, hreads bar.key]
  · rw [settled_inserted_iff, Option.map_eq_none_iff]
  · rw [settled_updated_iff, Option.any_map, Option.any_eq_true]
    simp only [decide_eq_true_eq, ne_eq]
    exact exists_congr fun old => and_congr_right fun h => not_congr (hold bar hbar old h).symm
  · rw [settled_skipped_iff, Option.map_eq_some_iff]
    constructor
    · exact fun h => ⟨_, h, (hold bar hbar _ h).mpr rfl⟩
    · rintro ⟨old, h, heq⟩
      rw [h, (hold bar hbar old h).mp heq]

theorem upsertTimed_reads {s : UnitOfWork BarRows} {moments : BarTable}
    (hreads : Reads moments s.working)
    (hstored : ∀ k row, s.working.get? k = some row → store.Holds row)
    (hfits : ∀ bar ∈ bars, store.Represents bar) (hnodup : (bars.map TimedBar.key).Nodup)
    (hkeeps : ∀ bar ∈ bars, store.KeepsMoment bar.asOf) :
    let rows := (bars.map TimedBar.toDailyBar).map DailyBar.row
    ∃ t, (upsertTimed store {} bars).run s = .ok (Upsert.plan moments rows).1 t ∧
      Reads (Upsert.merge BarColumns.stored moments rows) t.working := by
  intro rows
  have hrows : rows = bars.map fun bar => (bar.key, bar.toDailyBar.columns) := by
    simp only [rows, List.map_map]
    rfl
  have hkeys : rows.map Prod.fst = bars.map TimedBar.key := by
    rw [hrows, List.map_map]
    rfl
  have hrun : (upsertTimed store {} bars).run s = .ok _ _ := run_upsertTimed hnodup fun bar hbar =>
    barVerdict_settled hstored (hfits bar hbar) (hkeeps bar hbar)
  refine ⟨afterVerdicts store (settled store s.working) bars s, ?_, fun k => ?_⟩
  · rw [hrun, result_settled hreads hstored hfits hkeeps, ← hrows]
  · rw [get?_afterVerdicts hnodup]
    by_cases hk : k ∈ bars.map TimedBar.key
    · obtain ⟨bar, hbar, rfl⟩ := List.mem_map.mp hk
      have hrow : (bar.key, bar.toDailyBar.columns) ∈ rows := by
        rw [hrows]
        exact List.mem_map_of_mem hbar
      have hsame : ∀ row ∈ rows, moments.get? row.1 = some row.2 → row.2.stored = row.2 := by
        intro row hin _
        rw [hrows] at hin
        obtain ⟨other, hother, rfl⟩ := List.mem_map.mp hin
        exact stored_columns (hfits other hother)
      rw [Upsert.get?_merge_of_mem (hkeys ▸ hnodup) hsame hrow, get?_overwrite hnodup hbar,
        Option.map_some, columns_keep (hfits bar hbar) (hkeeps bar hbar),
        stored_columns (hfits bar hbar)]
    · rw [get?_overwrite_other hk, ← hreads k]
      exact Upsert.get?_merge_of_not_mem (hkeys ▸ hk)

end Synchronization

/-! ## Two databases -/

/-- PostgreSQL keeps the moment; a naive datetime is one of the client's local time. -/
def postgresqlStore (localOffset : ℤ → ℤ) : BarStore where
  price := numeric6
  stamp s := ⟨s.wall - s.offset.getD (localOffset s.wall), some 0⟩
  readable s := ⟨_, Stamp.utc?_of_zero rfl⟩
  canonical s t m hs ht := by
    have hs := Stamp.moment_of_utc? hs
    have ht := Stamp.moment_of_utc? ht
    simp only [Stamp.moment, Option.getD_some, sub_zero] at hs ht
    rw [hs, ht]

/-- SQLite keeps the wall clock and drops the offset. A price is stored as a float, which
gives back those of at most fifteen digits as they are. -/
def sqliteStore (price : ℚ → ℚ) : BarStore where
  price
  stamp s := ⟨s.wall, none⟩
  readable s := ⟨_, Stamp.utc?_of_zero rfl⟩
  canonical s t m hs ht := by
    have hs := Stamp.moment_of_utc? hs
    have ht := Stamp.moment_of_utc? ht
    simp only [Stamp.moment, Option.getD_none, sub_zero] at hs ht
    rw [hs, ht]

theorem keepsMoment_sqlite (price : ℚ → ℚ) (s : Stamp) :
    (sqliteStore price).KeepsMoment s ↔ s.offset.getD 0 = 0 := by
  constructor
  · rintro ⟨m, hm, hstored⟩
    have hm := Stamp.moment_of_utc? hm
    have hstored := Stamp.moment_of_utc? hstored
    simp only [sqliteStore, Stamp.moment, Option.getD_none, sub_zero] at hm hstored
    omega
  · intro h
    refine ⟨s.moment, Stamp.utc?_of_zero h, (Stamp.utc?_of_zero rfl).trans ?_⟩
    simp only [sqliteStore, Stamp.moment, Option.getD_none, h]

/-- An aware datetime that exists in UTC is kept. -/
theorem keepsMoment_postgresql {localOffset : ℤ → ℤ} {s : Stamp} {offset : ℤ}
    (haware : s.offset = some offset) (hyears : Stamp.InYears s.moment) :
    (postgresqlStore localOffset).KeepsMoment s := by
  refine ⟨s.moment, if_pos (.inr hyears), (Stamp.utc?_of_zero rfl).trans ?_⟩
  simp only [postgresqlStore, Stamp.moment, haware, Option.getD_some, sub_zero]

/-- The close of a day in Seoul, nine hours ahead of UTC. -/
def seoulBar : TimedBar where
  symbol := "005930"
  tradingDate := 739618
  «open» := 10
  high := 12
  low := 9
  close := 11
  volume := 100
  source := "toss"
  asOf := ⟨739618 * dayLength + 55800000000, some 32400000000⟩
  nonNegative := by decide +kernel
  validOhlc := by decide +kernel

theorem fitsNumeric_natCast {n : Nat} (h : n < 10 ^ 14) : FitsNumeric n := by
  refine ⟨⟨n * 10 ^ 6, by field_simp; norm_num⟩, ?_⟩
  rw [abs_of_nonneg (Nat.cast_nonneg n)]
  exact_mod_cast h

/-- A column of six places gives back every price that fits it. -/
theorem gives_numeric6 {store : BarStore} (hprice : store.price = numeric6) {price : ℚ}
    (h : FitsNumeric price) : store.Gives price := ⟨h, hprice ▸ numeric6_eq h⟩

theorem seoulBar_represented {store : BarStore} (hprice : store.price = numeric6) :
    store.Represents seoulBar := by
  have hgives : ∀ n : Nat, n < 10 ^ 14 → store.Gives n := fun n hn =>
    gives_numeric6 hprice (fitsNumeric_natCast hn)
  exact ⟨hgives 10 (by decide), hgives 12 (by decide), hgives 9 (by decide), hgives 11 (by decide)⟩

/-- The counts of an upsert of the bar in SQLite, and of the same one after it. -/
def seoulCounts : Option (UpsertResult × UpsertResult) :=
  match (upsertTimed (sqliteStore numeric6) {} [seoulBar]).run (UnitOfWork.start Dict.empty) with
  | .ok first t =>
    match (upsertTimed (sqliteStore numeric6) {} [seoulBar]).run t with
    | .ok second _ => some (first, second)
    | .error _ _ => none
  | .error _ _ => none

/-- In SQLite the second upsert of the bar updates the row that the first one inserted. -/
theorem seoulBar_updated_again : seoulCounts = some (⟨1, 0, 0⟩, ⟨0, 1, 0⟩) ∧
    ¬UpsertContract (sqliteStore numeric6) [seoulBar] (UnitOfWork.start Dict.empty) := by
  refine ⟨by decide +kernel, fun hcontract => ?_⟩
  have hnodup : ([seoulBar].map TimedBar.key).Nodup := List.nodup_singleton _
  rw [UpsertContract, if_pos hnodup] at hcontract
  obtain ⟨result, t, -, h⟩ := hcontract
  have hfits : ∀ bar ∈ [seoulBar], (sqliteStore numeric6).Represents bar :=
    List.forall_mem_singleton.mpr (seoulBar_represented rfl)
  have hkeeps := keeps_of_upserted hfits hnodup h seoulBar List.mem_cons_self
  exact absurd ((keepsMoment_sqlite _ _).mp hkeeps) (by decide)

/-- An upsert meets its contract exactly when the column gives back the moment of every
bar of a batch without duplicates. -/
theorem upsertTimed_contract_iff (store : BarStore) (bars : List TimedBar)
    (s : UnitOfWork BarRows) (hstored : ∀ k row, s.working.get? k = some row → store.Holds row)
    (hfits : ∀ bar ∈ bars, store.Represents bar) :
    UpsertContract store bars s ↔
      ((bars.map TimedBar.key).Nodup → ∀ bar ∈ bars, store.KeepsMoment bar.asOf) := by
  unfold UpsertContract
  split_ifs with hnodup
  · constructor
    · rintro ⟨result, t, -, h⟩ -
      exact keeps_of_upserted hfits hnodup h
    · exact fun hkeeps => upserted_of_keeps hstored hfits hnodup (hkeeps hnodup)
  · simp only [run_upsertTimed_duplicate hnodup, hnodup, false_implies]

/-- In PostgreSQL the bar may be upserted into a table that has it. -/
theorem upsertTimed_contract_iff_seoulBar :
    UpsertContract (postgresqlStore fun _ => 0) [seoulBar] (UnitOfWork.start
      (Dict.empty.set seoulBar.key ((postgresqlStore fun _ => 0).keep seoulBar.row))) := by
  refine (upsertTimed_contract_iff _ _ _ ?_
    (List.forall_mem_singleton.mpr (seoulBar_represented rfl))).mpr ?_
  · refine Dict.forall_get?_set (fun k row h => ?_) fun s hs => ⟨_, (Option.some.inj hs).symm⟩
    cases h
  · exact fun _ => List.forall_mem_singleton.mpr (keepsMoment_postgresql rfl (by decide))

end Screener.Market
