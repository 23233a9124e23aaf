import Screener.Market.SyncCounts

/-!
# Interrupted runs converge

The provider answers from one history, on one day. However often the bar job is
interrupted, a symbol has none of its bars or all of those in the window. The
first run that returns leaves every active symbol with all of them, and the runs
after it find nothing to do.
-/

namespace Screener.Market

open Screener.Lib

/-- The bars that a provider has, by symbol and date. -/
structure History where
  bar : Symbol → Date → Option DailyBar
  named : ∀ symbol date found, bar symbol date = some found →
    found.symbol = symbol ∧ found.tradingDate = date

/-- Where the provider answers, it answers with the bars of the history that were
asked for. -/
def BarSyncEnv.Serves (env : BarSyncEnv) (history : History) : Prop :=
  ∀ symbol start last bars, env.dailyBars symbol start last = .ok bars → ∀ bar, bar ∈ bars ↔
    history.bar symbol bar.tradingDate = some bar ∧ start ≤ bar.tradingDate ∧
      bar.tradingDate ≤ last

variable {config : BarSyncConfig} {env : BarSyncEnv} {history : History}

theorem BarSyncEnv.Serves.inRange (h : env.Serves history) : env.InRange := by
  intro symbol start last bars hanswer bar hbar
  obtain ⟨hhistory, hstart, hlast⟩ := (h symbol start last bars hanswer bar).mp hbar
  exact ⟨(history.named symbol bar.tradingDate bar hhistory).1, hstart, hlast⟩

/-- The history of a list of bars. -/
def listHistory (bars : List DailyBar) : History where
  bar symbol date := bars.find? fun bar => bar.symbol = symbol ∧ bar.tradingDate = date
  named symbol date found h := by simpa using List.find?_some h

theorem mem_of_listHistory {bars : List DailyBar} {symbol : Symbol} {date : Date}
    {bar : DailyBar} (h : (listHistory bars).bar symbol date = some bar) : bar ∈ bars :=
  List.mem_of_find?_eq_some h

theorem listHistory_none {bars : List DailyBar} {symbol : Symbol} {date : Date}
    (h : ∀ bar ∈ bars, bar.tradingDate ≠ date) : (listHistory bars).bar symbol date = none := by
  show bars.find? _ = none
  rw [List.find?_eq_none]
  intro bar hbar hnamed
  rw [decide_eq_true_eq] at hnamed
  exact h bar hbar hnamed.2

theorem serves_listHistory {bars : List DailyBar} (hnodup : (bars.map DailyBar.key).Nodup)
    (h : ∀ symbol start last answer, env.dailyBars symbol start last = .ok answer →
      answer = served bars symbol start last) : env.Serves (listHistory bars) := by
  intro symbol start last answer hanswer bar
  rw [h symbol start last answer hanswer, served, List.mem_filter, decide_eq_true_eq]
  constructor
  · rintro ⟨hbar, hsymbol, hrange⟩
    refine ⟨?_, hrange⟩
    show bars.find? _ = some bar
    cases hfind : bars.find? fun other =>
        other.symbol = symbol ∧ other.tradingDate = bar.tradingDate with
    | none =>
      have hnone := List.find?_eq_none.mp hfind bar hbar
      rw [decide_eq_true_eq] at hnone
      exact absurd ⟨hsymbol, rfl⟩ hnone
    | some found =>
      have hfound : found.symbol = symbol ∧ found.tradingDate = bar.tradingDate := by
        simpa using List.find?_some hfind
      have hkey : found.key = bar.key := Prod.ext (hfound.1.trans hsymbol.symm) hfound.2
      rw [List.inj_on_of_nodup_map hnodup (List.mem_of_find?_eq_some hfind) hbar hkey]
  · rintro ⟨hfind, hrange⟩
    exact ⟨mem_of_listHistory hfind, ((listHistory bars).named _ _ _ hfind).1, hrange⟩

variable (config) in
/-- The first date of the window that ends on `today`. -/
def BarSyncConfig.windowStart (today : Date) : Date := today - 365 * config.historyYears

variable (config) in
/-- The columns that a table has for a key once it is in step with the history. -/
def expectedBar (history : History) (stocks : StockTable) (today : Date) (symbol : Symbol)
    (date : Date) : Option BarColumns :=
  if symbol ∈ stocks.active ∧ config.windowStart today ≤ date ∧ date ≤ today then
    (history.bar symbol date).map DailyBar.columns
  else none

section Window

variable {stocks : StockTable} {today : Date} {before after : BarTable} {symbol : Symbol}

variable (config history stocks today) in
/-- A symbol has exactly the bars of the history in the window. -/
def InStep (bars : BarTable) (symbol : Symbol) : Prop :=
  ∀ date, bars.get? (symbol, date) = expectedBar config history stocks today symbol date

/-- A symbol has no bars, or all of them. -/
def NoneOrAll (config : BarSyncConfig) (history : History) (stocks : StockTable) (today : Date)
    (bars : BarTable) : Prop :=
  ∀ symbol, (∀ date, bars.get? (symbol, date) = none) ∨
    InStep config history stocks today bars symbol

/-- The fetch of a symbol without bars asks for the whole window. -/
theorem startDate_first {start : Date} (h : startDate config env none = .ok start) :
    start = config.windowStart env.today := by
  rw [startDate] at h
  split_ifs at h
  exact (Except.ok.inj h).symm

/-- Nothing is fetched for a symbol that has all of its bars. -/
theorem fetch_inStep (hserves : env.Serves history) (hactive : symbol ∈ stocks.active)
    (hbefore : InStep config history stocks env.today before symbol) {bars : List DailyBar}
    (h : fetch config env (latestDate before symbol) symbol = .ok bars) : bars = [] := by
  obtain ⟨start, hstart, ⟨-, hnil⟩ | ⟨-, hanswer, -⟩⟩ := fetch_ok h
  · exact hnil
  have hwindow : config.windowStart env.today ≤ start := by
    cases hlatest : latestDate before symbol with
    | none =>
      rw [hlatest] at hstart
      rw [startDate_first hstart]
    | some latest =>
      rw [hlatest] at hstart
      obtain ⟨columns, hcolumns⟩ := Dict.mem_keys.mp (latestDate_mem hlatest)
      rw [hbefore latest, expectedBar] at hcolumns
      split_ifs at hcolumns with hin
      rw [startDate_next hstart]
      exact Nat.le_succ_of_le hin.2.1
  rw [List.eq_nil_iff_forall_not_mem]
  intro bar hbar
  obtain ⟨hhistory, hfirst, hlast⟩ := (hserves symbol start env.today bars hanswer bar).mp hbar
  have hfresh := ((fetch_fresh hserves.inRange h).2 bar hbar).2
  rw [DailyBar.key, (history.named symbol bar.tradingDate bar hhistory).1,
    hbefore bar.tradingDate, expectedBar, if_pos ⟨hactive, hwindow.trans hfirst, hlast⟩,
    hhistory] at hfresh
  cases hfresh

/-- A fetch brings the dates that it asks for in step with the history and leaves
the others as they are. -/
theorem Loaded.fetched (hserves : env.Serves history) (h : Loaded config env before symbol after) :
    ∃ start, startDate config env (latestDate before symbol) = .ok start ∧ ∀ date,
      after.get? (symbol, date) =
        if start ≤ date ∧ date ≤ env.today then
          (history.bar symbol date).map fun bar => bar.columns.stored
        else before.get? (symbol, date) := by
  obtain ⟨bars, hfetch, hbars, hrest⟩ := h
  obtain ⟨start, hstart, hasked⟩ := fetch_ok hfetch
  refine ⟨start, hstart, ?_⟩
  intro date
  obtain ⟨hlate, hnil⟩ | ⟨-, hanswer, -⟩ := hasked
  · rw [if_neg fun hin => absurd (hin.1.trans hin.2) (not_le.mpr hlate)]
    exact hrest date (by simp [hnil])
  have hmem := hserves symbol start env.today bars hanswer
  by_cases hfound : ∃ bar ∈ bars, bar.tradingDate = date
  · obtain ⟨bar, hbar, rfl⟩ := hfound
    obtain ⟨hhistory, hrange⟩ := (hmem bar).mp hbar
    obtain ⟨hsymbol, -, hstored⟩ := hbars bar hbar
    rw [DailyBar.key, hsymbol] at hstored
    rw [if_pos hrange, hhistory, hstored]
    rfl
  · rw [hrest date fun bar hbar heq => hfound ⟨bar, hbar, heq⟩]
    split_ifs with hin
    · rw [startDate_fresh hstart hin.1]
      cases hhistory : history.bar symbol date with
      | none => rfl
      | some bar =>
        have hdate := (history.named symbol date bar hhistory).2
        refine absurd ⟨bar, (hmem bar).mpr ?_, hdate⟩ hfound
        rw [hdate]
        exact ⟨hhistory, hin⟩
    · rfl

/-- A symbol that gets its fetch has all of its bars afterwards. -/
theorem Loaded.inStep (hserves : env.Serves history)
    (hstorable : ∀ symbol date bar, history.bar symbol date = some bar → bar.Storable)
    (hactive : symbol ∈ stocks.active)
    (hbefore : (∀ date, before.get? (symbol, date) = none) ∨
      InStep config history stocks env.today before symbol)
    (h : Loaded config env before symbol after) :
    InStep config history stocks env.today after symbol := by
  intro date
  obtain hnone | hall := hbefore
  · obtain ⟨start, hstart, hfetched⟩ := h.fetched hserves
    have hlatest : latestDate before symbol = none := by
      cases hlatest : latestDate before symbol with
      | none => rfl
      | some latest =>
        have hkey := latestDate_mem hlatest
        exact absurd hkey (Dict.get?_eq_none.mp (hnone latest))
    rw [hlatest] at hstart
    rw [hfetched, startDate_first hstart, hnone date, expectedBar]
    simp only [hactive, true_and]
    congr 1
    cases hhistory : history.bar symbol date with
    | none => rfl
    | some bar =>
      rw [Option.map_some, Option.map_some, hstorable symbol date bar hhistory]
  · obtain ⟨bars, hfetch, -, hrest⟩ := h
    have hnil := fetch_inStep hserves hactive hall hfetch
    rw [hrest date (by simp [hnil]), hall date]

end Window

/-! ## Runs in a row -/

section Runs

variable {db : MarketDb} {clock : RunClock} {today : Date}

/-- A run that is interrupted, or not, leaves each symbol with none of its bars or
all of them. -/
theorem runBarSync_noneOrAll (clock : RunClock) (hserves : env.Serves history)
    (hstorable : ∀ symbol date bar, history.bar symbol date = some bar → bar.Storable)
    (h : NoneOrAll config history db.stocks env.today db.bars) :
    NoneOrAll config history db.stocks env.today (runBarSync config env clock db).2.bars := by
  obtain ⟨-, done, total, hactive, hprogress, -⟩ :=
    runBarSync_progress config hserves.inRange clock db
  intro symbol
  by_cases hdone : symbol ∈ done
  · exact .inr ((hprogress.loaded symbol hdone).inStep hserves hstorable (hactive symbol hdone)
      (h symbol))
  · rcases h symbol with hnone | hall
    · exact .inl fun date => (hprogress.same symbol hdone date).trans (hnone date)
    · exact .inr fun date => (hprogress.same symbol hdone date).trans (hall date)

/-- A run that succeeds leaves every symbol in step with the history. -/
theorem runBarSync_inStep (hserves : env.Serves history)
    (hstorable : ∀ symbol date bar, history.bar symbol date = some bar → bar.Storable)
    (h : NoneOrAll config history db.stocks env.today db.bars) {result : SyncResult}
    (hok : (runBarSync config env clock db).1 = .ok result) (symbol : Symbol) :
    InStep config history db.stocks env.today (runBarSync config env clock db).2.bars symbol := by
  obtain ⟨-, done, total, -, hprogress, hresult⟩ :=
    runBarSync_progress config hserves.inRange clock db
  have hdone := (hresult result hok).1
  by_cases hactive : symbol ∈ db.stocks.active
  · exact (hprogress.loaded symbol (hdone ▸ hactive)).inStep hserves hstorable hactive (h symbol)
  · intro date
    have hnone : expectedBar config history db.stocks env.today symbol date = none :=
      if_neg fun hin => hactive hin.1
    rw [hprogress.same symbol (hdone ▸ hactive), hnone]
    rcases h symbol with hnone' | hall
    · exact hnone' date
    · rw [hall date, hnone]

/-- A run over a table in step with the history changes nothing and counts
nothing. -/
theorem runBarSync_idle (hserves : env.Serves history)
    (h : ∀ symbol, InStep config history db.stocks env.today db.bars symbol) :
    (∀ key, (runBarSync config env clock db).2.bars.get? key = db.bars.get? key) ∧
      ∀ result, (runBarSync config env clock db).1 = .ok result →
        result.insertedRows = 0 ∧ result.updatedRows = 0 := by
  obtain ⟨-, done, total, hactive, hprogress, hresult⟩ :=
    runBarSync_progress config hserves.inRange clock db
  have hsilent : ∀ symbol ∈ done,
      fetch config env (latestDate db.bars symbol) symbol = .ok [] := by
    intro symbol hdone
    obtain ⟨bars, hfetch, -⟩ := hprogress.loaded symbol hdone
    rw [hfetch, fetch_inStep hserves (hactive symbol hdone) (h symbol) hfetch]
  constructor
  · intro ⟨symbol, date⟩
    by_cases hdone : symbol ∈ done
    · obtain ⟨bars, hfetch, -, hrest⟩ := hprogress.loaded symbol hdone
      rw [hsilent symbol hdone, Except.ok.injEq] at hfetch
      exact hrest date (by simp [← hfetch])
    · exact hprogress.same symbol hdone date
  · intro result hok
    obtain ⟨-, hinserted, hupdated⟩ := hresult result hok
    rw [hinserted, hupdated, hprogress.silent.mpr hsilent, hprogress.updated]
    exact ⟨rfl, rfl⟩

variable (config) in
/-- The database after some runs in a row. -/
def afterRuns (db : MarketDb) (runs : List (BarSyncEnv × RunClock)) : MarketDb :=
  runs.foldl (fun db run => (runBarSync config run.1 run.2 db).2) db

theorem afterRuns_noneOrAll
    (hstorable : ∀ symbol date bar, history.bar symbol date = some bar → bar.Storable)
    {runs : List (BarSyncEnv × RunClock)}
    (hruns : ∀ run ∈ runs, run.1.today = today ∧ run.1.Serves history)
    (h : NoneOrAll config history db.stocks today db.bars) :
    (afterRuns config db runs).stocks = db.stocks ∧
      NoneOrAll config history db.stocks today (afterRuns config db runs).bars := by
  induction runs generalizing db with
  | nil => exact ⟨rfl, h⟩
  | cons run runs ih =>
    obtain ⟨⟨rfl, hserves⟩, hrest⟩ := List.forall_mem_cons.mp hruns
    have hstocks := (runBarSync_progress config hserves.inRange run.2 db).1
    have hstep := runBarSync_noneOrAll run.2 hserves hstorable h
    rw [← hstocks] at hstep ⊢
    exact ih hrest hstep

/-- **Interrupted synchronization converges.** Starting from an empty table, after
any runs in a row and one that succeeds, the table has exactly the bars of the
history in the window, as after one run alone, and a further run adds and updates
nothing. -/
theorem interrupted_sync_converges
    (hstorable : ∀ symbol date bar, history.bar symbol date = some bar → bar.Storable)
    (hempty : db.bars = Dict.empty) {interrupted : List (BarSyncEnv × RunClock)}
    (hruns : ∀ run ∈ interrupted, run.1.today = today ∧ run.1.Serves history)
    (htoday : env.today = today) (hserves : env.Serves history) {result : SyncResult}
    (hok : (runBarSync config env clock (afterRuns config db interrupted)).1 = .ok result)
    {after : MarketDb}
    (hafter : after = (runBarSync config env clock (afterRuns config db interrupted)).2) :
    (∀ symbol date, after.bars.get? (symbol, date) =
      expectedBar config history db.stocks today symbol date) ∧
    (∀ once clock', once.today = today → once.Serves history →
      (∃ result, (runBarSync config once clock' db).1 = .ok result) →
      ∀ key, after.bars.get? key = (runBarSync config once clock' db).2.bars.get? key) ∧
    ∀ further clock', further.today = today → further.Serves history →
      (∀ key, (runBarSync config further clock' after).2.bars.get? key = after.bars.get? key) ∧
      ∀ result, (runBarSync config further clock' after).1 = .ok result →
        result.insertedRows = 0 ∧ result.updatedRows = 0 := by
  have hstart : NoneOrAll config history db.stocks today db.bars := by
    intro symbol
    rw [hempty]
    exact .inl fun _ => rfl
  obtain ⟨hstocks, hbefore⟩ := afterRuns_noneOrAll hstorable hruns hstart
  subst htoday hafter
  rw [← hstocks] at hbefore
  have hinStep := runBarSync_inStep hserves hstorable hbefore hok
  refine ⟨fun symbol date => ?_, ?_, ?_⟩
  · rw [hinStep symbol date, hstocks]
  · intro once clock' htoday' hserves' ⟨result', hok'⟩ ⟨symbol, date⟩
    rw [← htoday'] at hstart
    rw [hinStep symbol date, hstocks, ← htoday',
      runBarSync_inStep hserves' hstorable hstart hok' symbol date]
  · intro further clock' htoday' hserves'
    apply runBarSync_idle hserves'
    intro symbol
    rw [htoday', (runBarSync_progress config hserves.inRange clock _).1]
    exact hinStep symbol

end Runs

/-! ## An interrupted run and its repetition -/

theorem barAt_storable (symbol : Symbol) (date : Date) (close : Nat) :
    (barAt symbol date close).Storable := by
  have hprice : numeric6 (close : ℚ) = close := by
    exact quantizeWith_intCast 6 roundHalfUp_intCast close
  simp [DailyBar.Storable, DailyBar.columns, BarColumns.stored, barAt, hprice]

def sampleBars : List DailyBar :=
  [barAt "000001" 739620 100, barAt "000001" 739623 105, barAt "000002" 739622 50]

/-- A provider of these bars, that may fail for the second symbol. -/
def sampleFeed (fails : Bool) : BarSyncEnv where
  today := 739624
  dailyBars symbol start last :=
    if symbol = "000002" ∧ fails = true then .error offline
    else .ok (served sampleBars symbol start last)

theorem sampleFeed_serves (fails : Bool) : (sampleFeed fails).Serves (listHistory sampleBars) := by
  apply serves_listHistory
  · decide +kernel
  · intro symbol start last answer h
    simp only [sampleFeed] at h
    split_ifs at h
    exact (Except.ok.inj h).symm

theorem interrupted_sync_converges_sample :
    (runBarSync sampleConfig (sampleFeed true) sampleClock sampleDb).1 = .error offline ∧
      ∀ symbol date,
        (runBarSync sampleConfig (sampleFeed false) sampleClock (afterRuns sampleConfig sampleDb
          [(sampleFeed true, sampleClock)])).2.bars.get? (symbol, date) =
        expectedBar sampleConfig (listHistory sampleBars) sampleDb.stocks 739624 symbol date := by
  have hstorable : ∀ symbol date bar, (listHistory sampleBars).bar symbol date = some bar →
      bar.Storable := by
    intro symbol date bar hbar
    have hin := mem_of_listHistory hbar
    simp only [sampleBars, List.mem_cons, List.not_mem_nil, or_false] at hin
    obtain rfl | rfl | rfl := hin
    · exact barAt_storable _ _ _
    · exact barAt_storable _ _ _
    · exact barAt_storable _ _ _
  refine ⟨rfl, (interrupted_sync_converges hstorable rfl ?_ rfl (sampleFeed_serves false) rfl
    rfl).1⟩
  intro run hrun
  rw [List.mem_singleton] at hrun
  subst hrun
  exact ⟨rfl, sampleFeed_serves true⟩

end Screener.Market
