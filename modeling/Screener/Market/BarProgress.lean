import Screener.Market.SyncRules

/-!
# How far the bar job has come

The bar job asks the provider for the bars after the newest one of each symbol.
At every point of a run a symbol has all of the bars that are fetched for it or
none of them, and the counts are those of the rows that were added.
-/

namespace Screener.Market

open Screener.Lib

/-! ## Batches -/

theorem flatten_slices_take {α : Type} (size : Nat) (items : List α) (n : Nat) :
    ((List.range n).map fun i => (items.drop (i * size)).take size).flatten =
      items.take (n * size) := by
  induction n with
  | zero => simp
  | succ n ih =>
    rw [List.range_succ, List.map_append, List.flatten_append, ih, Nat.succ_mul, List.take_add]
    simp

theorem slices_flatten {α : Type} {size : Nat} (hsize : 0 < size) (items : List α) :
    (slices size items).flatten = items := by
  rw [slices, flatten_slices_take]
  apply List.take_of_length_le
  have hdiv := Nat.div_add_mod (items.length + size - 1) size
  have hmod := Nat.mod_lt (items.length + size - 1) hsize
  rw [Nat.mul_comm] at hdiv
  omega

theorem BarSyncConfig.batches_flatten (config : BarSyncConfig) (symbols : List Symbol) :
    ((config.batches symbols).map Prod.fst).flatten = symbols := by
  rw [batches, List.zipIdx_map_fst, slices_flatten config.positive]

theorem StockTable.active_nodup (stocks : StockTable) : stocks.active.Nodup := by
  have hkeys : (stocks.keysWhere (·.isActive)).Nodup :=
    stocks.keys_nodup.sublist (List.filter_sublist.map Prod.fst)
  exact (List.perm_insertionSort _ _).nodup_iff.mpr hkeys

/-- No symbol is in two batches. -/
theorem BarSyncConfig.batches_new (config : BarSyncConfig) {stocks : StockTable}
    {done rest : List (List Symbol × Nat)} {batch : List Symbol × Nat}
    (h : config.batches stocks.active = done ++ batch :: rest) :
    ((done.map Prod.fst).flatten ++ batch.1).Nodup := by
  have hnodup := stocks.active_nodup
  rw [← config.batches_flatten stocks.active, h] at hnodup
  simp only [List.map_append, List.map_cons, List.flatten_append, List.flatten_cons] at hnodup
  rw [← List.append_assoc] at hnodup
  exact hnodup.sublist (List.sublist_append_left _ _)

/-! ## The bars that are fetched -/

theorem latestDate_none {bars : BarTable} {symbol : Symbol} (h : latestDate bars symbol = none)
    (date : Date) : bars.get? (symbol, date) = none := by
  rw [latestDate, List.max?_eq_none_iff, List.map_eq_nil_iff, List.filter_eq_nil_iff] at h
  rw [Dict.get?_eq_none]
  intro hkey
  exact h _ hkey (by simp)

theorem le_latestDate {bars : BarTable} {symbol : Symbol} {latest date : Date}
    (h : latestDate bars symbol = some latest) (hdate : latest < date) :
    bars.get? (symbol, date) = none := by
  rw [latestDate, List.max?_eq_some_iff] at h
  rw [Dict.get?_eq_none]
  intro hkey
  have hle := h.2 date (List.mem_map.mpr ⟨(symbol, date), List.mem_filter.mpr ⟨hkey, by simp⟩, rfl⟩)
  exact absurd hle (not_le.mpr hdate)

theorem latestDate_mem {bars : BarTable} {symbol : Symbol} {latest : Date}
    (h : latestDate bars symbol = some latest) : (symbol, latest) ∈ bars.keys := by
  rw [latestDate, List.max?_eq_some_iff] at h
  obtain ⟨⟨other, date⟩, hmem, rfl⟩ := List.mem_map.mp h.1
  obtain ⟨hkey, hsymbol⟩ := List.mem_filter.mp hmem
  rw [decide_eq_true_eq] at hsymbol
  exact hsymbol ▸ hkey

section BarSync

variable (config : BarSyncConfig) (env : BarSyncEnv)

/-- What the provider is asked and what becomes of its answer: the bars that are
upserted for a symbol, none where nothing is asked. -/
def fetch (latest : Option Date) (symbol : Symbol) : Except PyException (List DailyBar) := do
  let start ← startDate config env latest
  if env.today < start then return []
  else do
    let bars ← env.dailyBars symbol start env.today
    if bars.any (env.today < ·.tradingDate) then .error (valueError "future trading date")
    else if (bars.map DailyBar.key).Nodup then return bars
    else .error (valueError "duplicate trading dates in batch")

/-- The provider answers with bars of the symbol and the dates it was asked for. -/
def BarSyncEnv.InRange : Prop :=
  ∀ symbol start last bars, env.dailyBars symbol start last = .ok bars → ∀ bar ∈ bars,
    bar.symbol = symbol ∧ start ≤ bar.tradingDate ∧ bar.tradingDate ≤ last

variable {config env} {latest : Symbol → Option Date} {total : UpsertResult} {symbol : Symbol}
  {s t : UnitOfWork MarketDb}

theorem fetch_ok {last : Option Date} {bars : List DailyBar}
    (h : fetch config env last symbol = .ok bars) :
    ∃ start, startDate config env last = .ok start ∧
      ((env.today < start ∧ bars = []) ∨
        (start ≤ env.today ∧ env.dailyBars symbol start env.today = .ok bars ∧
          (bars.map DailyBar.key).Nodup)) := by
  obtain ⟨start, hstart, h⟩ := bind_ok.mp h
  refine ⟨start, hstart, ?_⟩
  split_ifs at h with hlast
  · rw [pure_ok] at h
    exact .inl ⟨hlast, h.symm⟩
  · obtain ⟨answer, hanswer, h⟩ := bind_ok.mp h
    split_ifs at h with hfuture hnodup
    rw [pure_ok] at h
    exact .inr ⟨not_lt.mp hlast, h ▸ hanswer, h ▸ hnodup⟩

/-- A symbol gets the bars of its fetch in one upsert. -/
theorem run_syncSymbol_ok {result : UpsertResult}
    (h : (syncSymbol config env latest total symbol).run s = .ok result t) :
    ∃ bars, fetch config env (latest symbol) symbol = .ok bars ∧
      result = total.add (Upsert.plan s.working.bars (bars.map DailyBar.row)).1 ∧
      t = if bars.map DailyBar.row = [] then s else
        { s with
          working := { s.working with
            bars := Upsert.merge BarColumns.stored s.working.bars (bars.map DailyBar.row) }
          begun := true } := by
  unfold syncSymbol at h
  obtain ⟨start, u, hraise, h⟩ := run_bind_ok.mp h
  obtain ⟨hstart, rfl⟩ := run_raiseError_ok.mp hraise
  simp only [fetch, hstart]
  split_ifs at h with hlast
  · obtain ⟨rfl, rfl⟩ := run_pure_ok.mp h
    exact ⟨[], by simp [hlast, bind, Except.bind, pure, Except.pure], rfl, rfl⟩
  · obtain ⟨bars, v, hraise', h⟩ := run_bind_ok.mp h
    obtain ⟨hbars, rfl⟩ := run_raiseError_ok.mp hraise'
    split_ifs at h with hfuture
    · cases h
    · obtain ⟨value, w, hupsert, h⟩ := run_bind_ok.mp h
      obtain ⟨rfl, rfl⟩ := run_pure_ok.mp h
      unfold upsertBars at hupsert
      split_ifs at hupsert with hnodup
      · refine ⟨bars, ?_, ?_⟩
        · simp [hlast, hbars, hfuture, hnodup, bind, Except.bind, pure, Except.pure]
        · obtain ⟨rfl, rfl⟩ := Upsert.run_upsert_ok (fun _ => rfl) hupsert
          exact ⟨rfl, rfl⟩
      · cases hupsert

/-- A symbol that raises does so before its statements, or in one of them. -/
theorem run_syncSymbol_error {exc : PyException}
    (h : (syncSymbol config env latest total symbol).run s = .error exc t) :
    (fetch config env (latest symbol) symbol = .error exc ∧ t = s) ∨
      (∃ bars, fetch config env (latest symbol) symbol = .ok bars ∧ bars ≠ [] ∧
        t = { s with begun := true }) := by
  unfold syncSymbol at h
  rcases run_bind_error.mp h with h | ⟨start, u, hraise, h⟩
  · obtain ⟨hstart, rfl⟩ := run_raiseError_error.mp h
    exact .inl ⟨by rw [fetch, hstart]; rfl, rfl⟩
  obtain ⟨hstart, rfl⟩ := run_raiseError_ok.mp hraise
  simp only [fetch, hstart]
  split_ifs at h with hlast
  · cases h
  rcases run_bind_error.mp h with h | ⟨bars, v, hraise', h⟩
  · obtain ⟨hbars, rfl⟩ := run_raiseError_error.mp h
    exact .inl ⟨by simp [hlast, hbars, bind, Except.bind], rfl⟩
  obtain ⟨hbars, rfl⟩ := run_raiseError_ok.mp hraise'
  split_ifs at h with hfuture
  · cases h
    exact .inl ⟨by simp [hlast, hbars, hfuture, bind, Except.bind], rfl⟩
  rcases run_bind_error.mp h with h | ⟨value, w, -, h⟩
  · unfold upsertBars at h
    split_ifs at h with hnodup
    · obtain ⟨hrows, rfl⟩ := Upsert.run_upsert_error h
      refine .inr ⟨bars, ?_, fun hnil => hrows (by rw [hnil]; rfl), rfl⟩
      simp [hlast, hbars, hfuture, hnodup, bind, Except.bind, pure, Except.pure]
    · cases h
      refine .inl ⟨?_, rfl⟩
      simp [hlast, hbars, hfuture, hnodup, bind, Except.bind]
  · cases h

/-! ## All of a symbol's bars or none -/

variable (config env)

/-- A symbol has the bars it had before and those of its fetch, all of them new. -/
def Loaded (before : BarTable) (symbol : Symbol) (after : BarTable) : Prop :=
  ∃ bars, fetch config env (latestDate before symbol) symbol = .ok bars ∧
    (∀ bar ∈ bars, bar.symbol = symbol ∧ before.get? bar.key = none ∧
      after.get? bar.key = some bar.columns.stored) ∧
    ∀ date, (∀ bar ∈ bars, bar.tradingDate ≠ date) →
      after.get? (symbol, date) = before.get? (symbol, date)

/-- What the symbols that are `done` have made of the table. -/
structure Progress (before : BarTable) (done : List Symbol) (total : UpsertResult)
    (after : BarTable) : Prop where
  loaded : ∀ symbol ∈ done, Loaded config env before symbol after
  same : ∀ symbol ∉ done, ∀ date, after.get? (symbol, date) = before.get? (symbol, date)
  inserted : ∃ keys, after.keys = before.keys ++ keys ∧ keys.length = total.inserted
  updated : total.updated = 0
  silent : total.inserted = 0 ↔
    ∀ symbol ∈ done, fetch config env (latestDate before symbol) symbol = .ok []

variable {config env} {before after : BarTable} {done : List Symbol}

theorem progress_start : Progress config env before [] {} before where
  loaded := by simp
  same _ _ _ := rfl
  inserted := ⟨[], by simp, rfl⟩
  updated := rfl
  silent := by simp

/-- After a newest bar the fetch starts on the next day. -/
theorem startDate_next {newest start : Date} (h : startDate config env (some newest) = .ok start) :
    start = newest + 1 := by
  rw [startDate] at h
  split_ifs at h
  exact (Except.ok.inj h).symm

/-- No bar of a symbol is stored from the start of its fetch on. -/
theorem startDate_fresh {start date : Date}
    (h : startDate config env (latestDate before symbol) = .ok start) (hdate : start ≤ date) :
    before.get? (symbol, date) = none := by
  cases hlatest : latestDate before symbol with
  | none => exact latestDate_none hlatest date
  | some latest =>
    rw [hlatest] at h
    rw [startDate_next h] at hdate
    exact le_latestDate hlatest (Nat.lt_of_succ_le hdate)

/-- Bars after the newest one of a symbol are new. -/
theorem fetch_fresh (hrange : env.InRange) {bars : List DailyBar}
    (h : fetch config env (latestDate before symbol) symbol = .ok bars) :
    (bars.map DailyBar.key).Nodup ∧
      ∀ bar ∈ bars, bar.symbol = symbol ∧ before.get? bar.key = none := by
  obtain ⟨start, hstart, ⟨-, rfl⟩ | ⟨-, hanswer, hnodup⟩⟩ := fetch_ok h
  · simp
  · refine ⟨hnodup, ?_⟩
    intro bar hbar
    obtain ⟨hsymbol, hfirst, -⟩ := hrange symbol start env.today bars hanswer bar hbar
    refine ⟨hsymbol, ?_⟩
    rw [DailyBar.key, hsymbol]
    exact startDate_fresh hstart hfirst

theorem keys_rows (bars : List DailyBar) :
    (bars.map DailyBar.row).map Prod.fst = bars.map DailyBar.key := by
  rw [List.map_map]
  rfl

/-- A key that no bar of the batch has keeps its value. -/
theorem get?_mergeBars_of_ne {bars : List DailyBar} {date : Date}
    (h : ∀ bar ∈ bars, bar.key ≠ (symbol, date)) :
    (Upsert.merge BarColumns.stored after (bars.map DailyBar.row)).get? (symbol, date) =
      after.get? (symbol, date) := by
  apply Upsert.get?_merge_of_not_mem
  rw [keys_rows]
  intro hin
  obtain ⟨bar, hbar, heq⟩ := List.mem_map.mp hin
  exact h bar hbar heq

/-- What another symbol has loaded stays where no bar of it is written. -/
theorem Loaded.of_same {after' : BarTable} (h : Loaded config env before symbol after)
    (hsame : ∀ date, after'.get? (symbol, date) = after.get? (symbol, date)) :
    Loaded config env before symbol after' := by
  obtain ⟨bars, hfetch, hin, hout⟩ := h
  refine ⟨bars, hfetch, ?_, ?_⟩
  · intro bar hbar
    obtain ⟨hsymbol, hnone, hsome⟩ := hin bar hbar
    refine ⟨hsymbol, hnone, ?_⟩
    rw [DailyBar.key, hsymbol, hsame, ← hsymbol]
    exact hsome
  · intro date hdate
    rw [hsame, hout date hdate]

/-- An upsert of new bars loads their symbol. -/
theorem loaded_merge {bars : List DailyBar}
    (hfetch : fetch config env (latestDate before symbol) symbol = .ok bars)
    (hnodup : (bars.map DailyBar.key).Nodup)
    (hbars : ∀ bar ∈ bars, bar.symbol = symbol ∧ before.get? bar.key = none)
    (hfresh : ∀ row ∈ bars.map DailyBar.row, after.get? row.1 = none)
    (hsame : ∀ date, after.get? (symbol, date) = before.get? (symbol, date)) :
    Loaded config env before symbol
      (Upsert.merge BarColumns.stored after (bars.map DailyBar.row)) := by
  refine ⟨bars, hfetch, ?_, ?_⟩
  · intro bar hbar
    refine ⟨(hbars bar hbar).1, (hbars bar hbar).2, ?_⟩
    have hrow : bar.row ∈ bars.map DailyBar.row := List.mem_map_of_mem hbar
    refine Upsert.get?_merge_of_mem (keys_rows bars ▸ hnodup) ?_ hrow
    intro row hrow hsome
    rw [hfresh row hrow] at hsome
    cases hsome
  · intro date hdate
    rw [get?_mergeBars_of_ne, hsame]
    intro bar hbar heq
    exact hdate bar hbar (congrArg Prod.snd heq)

theorem Progress.step (hrange : env.InRange) (h : Progress config env before done total after)
    (hnew : symbol ∉ done) {bars : List DailyBar}
    (hfetch : fetch config env (latestDate before symbol) symbol = .ok bars) :
    Progress config env before (done ++ [symbol])
      (total.add (Upsert.plan after (bars.map DailyBar.row)).1)
      (Upsert.merge BarColumns.stored after (bars.map DailyBar.row)) := by
  obtain ⟨hnodup, hbars⟩ := fetch_fresh hrange hfetch
  have hfresh : ∀ row ∈ bars.map DailyBar.row, after.get? row.1 = none := by
    intro row hrow
    obtain ⟨bar, hbar, rfl⟩ := List.mem_map.mp hrow
    obtain ⟨hsymbol, hnone⟩ := hbars bar hbar
    show after.get? (bar.symbol, bar.tradingDate) = none
    rw [hsymbol, h.same symbol hnew, ← hsymbol]
    exact hnone
  have hplan := Upsert.plan_fresh hfresh
  -- A key of another symbol is none of the batch.
  have hother : ∀ other date, other ≠ symbol →
      (Upsert.merge BarColumns.stored after (bars.map DailyBar.row)).get? (other, date) =
        after.get? (other, date) := by
    intro other date hne
    apply get?_mergeBars_of_ne
    intro bar hbar heq
    exact hne ((congrArg Prod.fst heq).symm.trans (hbars bar hbar).1)
  constructor
  · intro other hin
    rcases List.mem_append.mp hin with hdone | hsymbol
    · refine (h.loaded other hdone).of_same fun date => hother other date ?_
      rintro rfl
      exact hnew hdone
    · obtain rfl := List.mem_singleton.mp hsymbol
      exact loaded_merge hfetch hnodup hbars hfresh (h.same other hnew)
  · intro other hnot date
    rw [List.mem_append, List.mem_singleton, not_or] at hnot
    rw [hother other date hnot.2, h.same other hnot.1]
  · obtain ⟨keys, hafter, hlength⟩ := h.inserted
    refine ⟨keys ++ bars.map DailyBar.key, ?_, ?_⟩
    · rw [Upsert.merge, hplan, Upsert.keys_writeRows_fresh (keys_rows bars ▸ hnodup) hfresh,
        hafter, keys_rows, List.append_assoc]
    · rw [hplan]
      simp [UpsertResult.add, hlength]
  · rw [hplan]
    show total.updated + 0 = 0
    rw [h.updated]
  · rw [hplan]
    simp only [UpsertResult.add, List.length_map, List.forall_mem_append,
      List.forall_mem_singleton, ← h.silent, hfetch, Except.ok.injEq, Nat.add_eq_zero_iff,
      List.length_eq_zero_iff]

/-! ## Runs of the loops -/

/-- The tables that the bar job does not write. -/
def MarketDb.others (db : MarketDb) : StockTable × SyncAudit := (db.stocks, db.audit)

/-- Between two batches, with the symbols of the batches so far `done`. -/
structure Between (config : BarSyncConfig) (env : BarSyncEnv) (db : MarketDb) (done : List Symbol)
    (total : UpsertResult) (s : UnitOfWork MarketDb) : Prop where
  progress : Progress config env db.bars done total s.committed.bars
  settled : s.working = s.committed
  steady : Work.Steady MarketDb.others db.others s

variable {db : MarketDb}

theorem syncSymbol_steady {value : StockTable × SyncAudit} :
    Triple (Work.Steady MarketDb.others value) (syncSymbol config env latest total symbol)
      (fun _ => Work.Steady MarketDb.others value)
        (fun _ => Work.Steady MarketDb.others value) := by
  intro s hs
  have hopen : ∀ bars, Work.Steady MarketDb.others value
      { s with working := { s.working with bars }, begun := true } := by
    intro bars
    exact ⟨hs.committed, hs.working, fun h => absurd h Bool.true_eq_false.mp, hs.fresh⟩
  cases hrun : (syncSymbol config env latest total symbol).run s with
  | ok result t =>
    obtain ⟨bars, -, -, rfl⟩ := run_syncSymbol_ok hrun
    show Work.Steady MarketDb.others value (if _ then s else _)
    split_ifs
    · exact hs
    · exact hopen _
  | error exc t =>
    obtain ⟨-, rfl⟩ | ⟨bars, -, -, rfl⟩ := run_syncSymbol_error hrun
    · exact hs
    · exact hopen s.working.bars

theorem syncSymbol_progress (hrange : env.InRange) (hnew : symbol ∉ done) {committed : MarketDb} :
    Triple (fun s => Progress config env before done total s.working.bars ∧ s.committed = committed)
      (syncSymbol config env (latestDate before) total symbol)
      (fun result s => Progress config env before (done ++ [symbol]) result s.working.bars ∧
        s.committed = committed)
      (fun _ s => s.committed = committed) := by
  intro s hs
  obtain ⟨hprogress, hcommitted⟩ := hs
  cases hrun : (syncSymbol config env (latestDate before) total symbol).run s with
  | ok result t =>
    obtain ⟨bars, hfetch, rfl, rfl⟩ := run_syncSymbol_ok hrun
    have hstep := hprogress.step hrange hnew hfetch
    show Progress _ _ _ _ _ (if _ then s else _).working.bars ∧ (if _ then s else _).committed = _
    split_ifs with hrows
    · rw [hrows] at hstep ⊢
      exact ⟨hstep, hcommitted⟩
    · exact ⟨hstep, hcommitted⟩
  | error exc t =>
    obtain ⟨-, rfl⟩ | ⟨bars, -, -, rfl⟩ := run_syncSymbol_error hrun
    · exact hcommitted
    · exact hcommitted

theorem syncBatch_between (hrange : env.InRange) {batch : List Symbol × Nat}
    (hnew : (done ++ batch.1).Nodup) :
    Triple (Between config env db done total)
      (syncBatch config env (latestDate db.bars) total batch)
      (fun result => Between config env db (done ++ batch.1) result)
      (fun _ s => Progress config env db.bars done total s.committed.bars ∧
        Work.Steady MarketDb.others db.others s) := by
  intro s hs
  have hloop := Triple.foldlM (E := fun _ u => u.committed = s.committed)
    (fun pre result u => Progress config env db.bars (done ++ pre) result u.working.bars ∧
      u.committed = s.committed) batch.1 (f := syncSymbol config env (latestDate db.bars)) (by
        intro pre symbol post result hsplit
        rw [← List.append_assoc]
        apply syncSymbol_progress hrange
        rw [hsplit, ← List.append_assoc, List.nodup_append'] at hnew
        exact fun hin => hnew.2.2 hin List.mem_cons_self) total
  have hsteady := Triple.foldlM (E := fun _ => Work.Steady MarketDb.others db.others)
    (fun _ _ => Work.Steady MarketDb.others db.others) batch.1
    (f := syncSymbol config env (latestDate db.bars))
    (fun _ _ _ _ _ => syncSymbol_steady) total
  have hstart : Progress config env db.bars (done ++ []) total s.working.bars ∧
      s.committed = s.committed := by
    rw [List.append_nil, hs.settled]
    exact ⟨hs.progress, rfl⟩
  cases hrun : (syncBatch config env (latestDate db.bars) total batch).run s with
  | ok result t =>
    obtain ⟨result', u, hsymbols, h⟩ := run_bind_ok.mp hrun
    obtain ⟨_, v, hcommit, h⟩ := run_bind_ok.mp h
    obtain ⟨rfl, rfl⟩ := run_pure_ok.mp h
    obtain ⟨hprogress, -⟩ := hloop.of_ok hstart hsymbols
    have hu := hsteady.of_ok hs.steady hsymbols
    have hv := Work.commit_steady.of_ok hu hcommit
    have hsettled : v.working = v.committed ∧ v.working = u.working := by
      rw [Work.run_commit_ok hcommit]
      split_ifs with hbegun
      · exact ⟨rfl, rfl⟩
      · exact ⟨hu.idle (Bool.eq_false_iff.mpr hbegun), rfl⟩
    refine ⟨?_, hsettled.1, hv⟩
    rw [← hsettled.1, hsettled.2]
    exact hprogress
  | error exc t =>
    show Progress config env db.bars done total t.committed.bars ∧ _
    rcases run_bind_error.mp hrun with h | ⟨result', u, hsymbols, h⟩
    · rw [hloop.of_error hstart h]
      exact ⟨hs.progress, hsteady.of_error hs.steady h⟩
    · rcases run_bind_error.mp h with h | ⟨_, v, -, h⟩
      · rw [(Work.run_commit_error h).2, (hloop.of_ok hstart hsymbols).2]
        exact ⟨hs.progress, hsteady.of_ok hs.steady hsymbols⟩
      · cases h

/-! ## Whole runs -/

/-- The session once the active symbols and their newest dates are read. -/
def entered (db : MarketDb) : UnitOfWork MarketDb := { UnitOfWork.start db with begun := true }

variable (config env) in
/-- The loop over some batches of a run. -/
def syncBatches (db : MarketDb) (batches : List (List Symbol × Nat)) : MarketWork UpsertResult :=
  batches.foldlM (syncBatch config env (latestDate db.bars)) {}

theorem BarSyncConfig.batches_nil (config : BarSyncConfig) : config.batches [] = [] := by
  have hpositive := config.positive
  have hdiv : (config.batchSize - 1) / config.batchSize = 0 := Nat.div_eq_of_lt (by omega)
  simp [batches, slices, hdiv]

theorem run_syncBars_ok {result : UpsertResult}
    (h : (syncBars config env).run (UnitOfWork.start db) = .ok result t) :
    (syncBatches config env db (config.batches db.stocks.active)).run (entered db) =
      .ok result t := by
  obtain ⟨symbols, u, hactive, h⟩ := run_bind_ok.mp h
  obtain ⟨-, rfl, rfl⟩ := Work.run_query_ok.mp hactive
  obtain ⟨latest, v, hlatest, h⟩ := run_bind_ok.mp h
  unfold latestDates at hlatest
  split_ifs at hlatest with hnone
  · replace hnone : db.stocks.active = [] := hnone
    obtain ⟨-, rfl⟩ := run_pure_ok.mp hlatest
    rw [show (UnitOfWork.start db).working.stocks.active = [] from hnone,
      config.batches_nil] at h
    rw [hnone, config.batches_nil]
    exact h
  · obtain ⟨-, rfl, rfl⟩ := Work.run_query_ok.mp hlatest
    exact h

theorem run_syncBatches_append {done more : List (List Symbol × Nat)}
    (h : (syncBatches config env db done).run s = .ok total t) :
    (syncBatches config env db (done ++ more)).run s =
      (more.foldlM (syncBatch config env (latestDate db.bars)) total).run t := by
  rw [syncBatches, List.foldlM_append]
  exact run_bind_of_ok h

/-- The two reads of a run do not raise. -/
def BarSyncEnv.Reads (env : BarSyncEnv) (db : MarketDb) : Prop :=
  env.active = none ∧ (db.stocks.active = [] ∨ env.latest = none)

theorem run_syncBars_error {exc : PyException}
    (h : (syncBars config env).run (UnitOfWork.start db) = .error exc t) :
    (¬ env.Reads db ∧ t = entered db) ∨
      (env.Reads db ∧
        (syncBatches config env db (config.batches db.stocks.active)).run (entered db) =
          .error exc t) := by
  rcases run_bind_error.mp h with h | ⟨symbols, u, hactive, h⟩
  · obtain ⟨hfault, rfl⟩ := Work.run_query_error.mp h
    refine .inl ⟨fun hreads => ?_, rfl⟩
    rw [hreads.1] at hfault
    cases hfault
  obtain ⟨hsound, rfl, rfl⟩ := Work.run_query_ok.mp hactive
  rcases run_bind_error.mp h with h | ⟨latest, v, hlatest, h⟩
  · unfold latestDates at h
    split_ifs at h with hnone
    · cases h
    · obtain ⟨hfault, rfl⟩ := Work.run_query_error.mp h
      refine .inl ⟨fun hreads => ?_, rfl⟩
      rw [hreads.2.resolve_left hnone] at hfault
      cases hfault
  · unfold latestDates at hlatest
    split_ifs at hlatest with hnone
    · replace hnone : db.stocks.active = [] := hnone
      rw [show (UnitOfWork.start db).working.stocks.active = [] from hnone,
        config.batches_nil] at h
      cases h
    · obtain ⟨hsound', rfl, rfl⟩ := Work.run_query_ok.mp hlatest
      exact .inr ⟨⟨hsound, .inr hsound'⟩, h⟩

variable (config env) in
theorem syncBars_steady {value : StockTable × SyncAudit} :
    Triple (Work.Steady MarketDb.others value) (syncBars config env)
      (fun _ => Work.Steady MarketDb.others value)
        (fun _ => Work.Steady MarketDb.others value) := by
  refine (Work.query_steady _).bind fun symbols => Triple.bind (Q := fun _ =>
    Work.Steady MarketDb.others value) ?_ fun latest => ?_
  · exact Triple.ite (fun _ => Triple.pure fun _ h => h) fun _ => Work.query_steady _
  · refine Triple.foldlM (fun _ _ => Work.Steady MarketDb.others value) _ ?_ ({} : UpsertResult)
    intro pre batch post total _
    refine Triple.bind (Q := fun _ => Work.Steady MarketDb.others value) ?_ fun total => ?_
    · exact Triple.foldlM (fun _ _ => Work.Steady MarketDb.others value) batch.1
        (fun _ _ _ _ _ => syncSymbol_steady) total
    · exact Work.commit_steady.bind fun _ => Triple.pure fun _ h => h

theorem between_entered : Between config env db [] {} (entered db) where
  progress := progress_start
  settled := rfl
  steady := ⟨rfl, rfl, fun _ => rfl, rfl⟩

/-- A loop over some first batches leaves the table between two batches; where
it raises, the batches before have been committed. -/
theorem syncBatches_between (hrange : env.InRange) {batches : List (List Symbol × Nat)}
    (hpre : batches <+: config.batches db.stocks.active) :
    Triple (Between config env db [] {}) (syncBatches config env db batches)
      (fun result => Between config env db (batches.map Prod.fst).flatten result)
      (fun _ s => Work.Steady MarketDb.others db.others s ∧
        ∃ done total, (∀ symbol ∈ done, symbol ∈ db.stocks.active) ∧
          Progress config env db.bars done total s.committed.bars) := by
  obtain ⟨rest, hsplit⟩ := hpre
  refine Triple.foldlM
    (fun pre result => Between config env db (pre.map Prod.fst).flatten result) batches ?_ {}
  intro pre batch post total hbatches
  have hcut : config.batches db.stocks.active = pre ++ batch :: (post ++ rest) := by
    rw [← hsplit, hbatches, List.append_assoc, List.cons_append]
  refine (syncBatch_between hrange (config.batches_new hcut)).conseq (fun _ h => h) ?_ ?_
  · intro result s hs
    simpa using hs
  · intro _ s hs
    refine ⟨hs.2, (pre.map Prod.fst).flatten, total, ?_, hs.1⟩
    intro symbol hin
    rw [← config.batches_flatten db.stocks.active, hcut, List.map_append, List.flatten_append]
    exact List.mem_append_left _ hin

/-- A run that returns has given every active symbol the bars of its fetch. -/
theorem syncBars_ok (hrange : env.InRange) {result : UpsertResult}
    (h : (syncBars config env).run (UnitOfWork.start db) = .ok result t) :
    Between config env db db.stocks.active result t := by
  have hbetween := (syncBatches_between hrange (List.prefix_refl _)).of_ok between_entered
    (run_syncBars_ok h)
  rwa [config.batches_flatten] at hbetween

/-- A run that raises has done so for some of them. -/
theorem syncBars_error (hrange : env.InRange) {exc : PyException}
    (h : (syncBars config env).run (UnitOfWork.start db) = .error exc t) :
    Work.Steady MarketDb.others db.others t ∧
      ∃ done total, (∀ symbol ∈ done, symbol ∈ db.stocks.active) ∧
        Progress config env db.bars done total t.committed.bars := by
  obtain ⟨-, rfl⟩ | ⟨-, h⟩ := run_syncBars_error h
  · exact ⟨⟨rfl, rfl, fun _ => rfl, rfl⟩, [], {}, by simp, progress_start⟩
  · exact (syncBatches_between hrange (List.prefix_refl _)).of_error between_entered h

variable (config) in
/-- Whether it succeeds or not, a run leaves the stocks alone and gives some of the
active symbols all of the bars of their fetch; all of them where it succeeds. -/
theorem runBarSync_progress (hrange : env.InRange) (clock : RunClock) (db : MarketDb) :
    (runBarSync config env clock db).2.stocks = db.stocks ∧
      ∃ done total, (∀ symbol ∈ done, symbol ∈ db.stocks.active) ∧
        Progress config env db.bars done total (runBarSync config env clock db).2.bars ∧
        ∀ result, (runBarSync config env clock db).1 = .ok result →
          done = db.stocks.active ∧ result.insertedRows = total.inserted ∧
            result.updatedRows = total.updated := by
  unfold runBarSync
  cases hrun : (syncBars config env).run (UnitOfWork.start (db.recorded "daily_bars" clock)) with
  | ok total s =>
    have hbetween := syncBars_ok hrange hrun
    have hsteady : Work.Steady MarketDb.audit (db.audit.start "daily_bars" clock.startedAt) s :=
      hbetween.steady.snd
    have hprogress := hbetween.progress
    rw [← hbetween.settled] at hprogress
    rw [runJob_of_ok hrun hsteady]
    refine ⟨congrArg Prod.fst hbetween.steady.working, db.stocks.active, total, fun _ h => h,
      hprogress, ?_⟩
    intro result hresult
    rw [Except.ok.injEq] at hresult
    exact ⟨rfl, hresult ▸ rfl, hresult ▸ rfl⟩
  | error exc s =>
    obtain ⟨hothers, done, total, hdone, hprogress⟩ := syncBars_error hrange hrun
    cases hbegun : s.begun with
    | true =>
      rw [runJob_of_error_open hrun hbegun]
      exact ⟨congrArg Prod.fst hothers.committed, done, total, hdone, hprogress,
        fun _ h => by cases h⟩
    | false =>
      rw [runJob_of_error_idle hrun hothers.snd hbegun]
      exact ⟨congrArg Prod.fst hothers.committed, done, total, hdone, hprogress,
        fun _ h => by cases h⟩

end BarSync

end Screener.Market
