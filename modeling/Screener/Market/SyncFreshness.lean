import Screener.Lib.Machine
import Screener.Market.SyncConvergence

/-!
# Bars and the day they were read on

The provider's bar of a day changes until the day is over. The bar job asks for
the dates after the newest one it has, so it never reads a bar again: what is
stored for a date in the window is the provider's bar, or the bar that a run had
received on that date itself.
-/

namespace Screener.Market

open Screener.Lib

/-- The database and the date of the last run. -/
structure BarFeed where
  db : MarketDb
  today : Date

inductive FeedAction where
  /-- A run of the bar job, against the bars that the provider has at that time. -/
  | sync (env : BarSyncEnv) (clock : RunClock) (book : History)
  /-- The stock master changes between two runs. -/
  | stocks (stocks : StockTable)

/-- Runs in the order of their dates, from an empty table. The bars of the days
before a run are `final`. -/
def barFeed (config : BarSyncConfig) (final : History) : Machine BarFeed FeedAction where
  init s := s.db.bars = Dict.empty
  step s a t :=
    match a with
    | .sync env clock book =>
      s.today ≤ env.today ∧ env.Serves book ∧
        (∀ symbol date, date < env.today → book.bar symbol date = final.bar symbol date) ∧
        t = ⟨(runBarSync config env clock s.db).2, env.today⟩
    | .stocks stocks => t = { s with db := { s.db with stocks } }

abbrev FeedStep := BarFeed × FeedAction × BarFeed

variable {config : BarSyncConfig} {env : BarSyncEnv} {clock : RunClock} {book final : History}
  {start s t : BarFeed} {steps : List FeedStep} {symbol : Symbol} {date : Date}

/-- The columns are those of a bar that a run on the date itself had received. -/
def ReadOnDate (steps : List FeedStep) (symbol : Symbol) (date : Date)
    (stored : Option BarColumns) : Prop :=
  ∃ s env clock book t bar, (s, FeedAction.sync env clock book, t) ∈ steps ∧ env.today = date ∧
    book.bar symbol date = some bar ∧ stored = some bar.columns.stored

theorem ReadOnDate.append {stored : Option BarColumns} (h : ReadOnDate steps symbol date stored)
    (more : List FeedStep) : ReadOnDate (steps ++ more) symbol date stored := by
  obtain ⟨s, env, clock, book, t, bar, hmem, h⟩ := h
  exact ⟨s, env, clock, book, t, bar, List.mem_append_left _ hmem, h⟩

/-- Up to the newest bar of a symbol, the window has the final bars, except for
those that were read on their own date. -/
structure Settled (config : BarSyncConfig) (final : History) (steps : List FeedStep)
    (s : BarFeed) : Prop where
  past : ∀ symbol date, (symbol, date) ∈ s.db.bars.keys → date ≤ s.today
  bars : ∀ symbol newest, (symbol, newest) ∈ s.db.bars.keys → ∀ date,
    config.windowStart s.today ≤ date → date ≤ newest →
      (date < s.today ∧ s.db.bars.get? (symbol, date) =
        (final.bar symbol date).map fun bar => bar.columns.stored) ∨
      ReadOnDate steps symbol date (s.db.bars.get? (symbol, date))

theorem settled_init (h : (barFeed config final).init s) : Settled config final [] s := by
  change s.db.bars = Dict.empty at h
  constructor
  · intro symbol date hkey
    rw [h] at hkey
    cases hkey
  · intro symbol newest hkey
    rw [h] at hkey
    cases hkey

/-- What the window has before the start of a fetch is at most as new as the newest
bar. -/
theorem startDate_known {bars : BarTable} {first : Date}
    (h : startDate config env (latestDate bars symbol) = .ok first)
    (hwindow : config.windowStart env.today ≤ date) (hdate : date < first) :
    ∃ newest, (symbol, newest) ∈ bars.keys ∧ date ≤ newest := by
  cases hlatest : latestDate bars symbol with
  | none =>
    rw [hlatest] at h
    rw [startDate_first h] at hdate
    exact absurd hwindow (not_le.mpr hdate)
  | some latest =>
    rw [hlatest] at h
    rw [startDate_next h] at hdate
    exact ⟨latest, latestDate_mem hlatest, Nat.le_of_lt_succ hdate⟩

theorem windowStart_mono {first last : Date} (h : first ≤ last) :
    config.windowStart first ≤ config.windowStart last :=
  Nat.sub_le_sub_right h _

theorem Settled.fetched_past (h : Settled config final steps s) (htoday : s.today ≤ env.today)
    (hserves : env.Serves book) {after : BarTable}
    (hloaded : Loaded config env s.db.bars symbol after) (hkey : (symbol, date) ∈ after.keys) :
    date ≤ env.today := by
  obtain ⟨first, -, hfetched⟩ := hloaded.fetched hserves
  rw [Dict.mem_keys, hfetched date] at hkey
  split_ifs at hkey with hin
  · exact hin.2
  · exact (h.past symbol date (Dict.mem_keys.mpr hkey)).trans htoday

/-- A fetch keeps the symbol's bars settled. -/
theorem Settled.fetched (h : Settled config final steps s) (htoday : s.today ≤ env.today)
    (hserves : env.Serves book)
    (hfinal : ∀ symbol date, date < env.today → book.bar symbol date = final.bar symbol date)
    {after : BarTable} (hloaded : Loaded config env s.db.bars symbol after) {newest : Date}
    (hnewest : (symbol, newest) ∈ after.keys) (hwindow : config.windowStart env.today ≤ date)
    (hdate : date ≤ newest) :
    (date < env.today ∧ after.get? (symbol, date) =
      (final.bar symbol date).map fun bar => bar.columns.stored) ∨
    ReadOnDate (steps ++ [(s, .sync env clock book, t)]) symbol date
      (after.get? (symbol, date)) := by
  have hpast := h.fetched_past htoday hserves hloaded hnewest
  obtain ⟨first, hfirst, hfetched⟩ := hloaded.fetched hserves
  have hlast := hdate.trans hpast
  by_cases hasked : first ≤ date
  · have hstored := hfetched date
    rw [if_pos ⟨hasked, hlast⟩] at hstored
    rcases hlast.lt_or_eq with hover | rfl
    · rw [hfinal symbol date hover] at hstored
      exact .inl ⟨hover, hstored⟩
    · -- the newest bar is the one of the day of the run
      obtain rfl : env.today = newest := le_antisymm hdate hpast
      rw [Dict.mem_keys, hstored] at hnewest
      obtain ⟨columns, hcolumns⟩ := hnewest
      obtain ⟨bar, hbar, -⟩ := Option.map_eq_some_iff.mp hcolumns
      rw [hbar] at hstored
      exact .inr ⟨s, env, clock, book, t, bar, by simp, rfl, hbar, hstored⟩
  · obtain ⟨known, hknown, hle⟩ := startDate_known hfirst hwindow (not_le.mp hasked)
    rw [hfetched date, if_neg fun hin => hasked hin.1]
    obtain ⟨hover, hstored⟩ | hread :=
      h.bars symbol known hknown date ((windowStart_mono htoday).trans hwindow) hle
    · exact .inl ⟨hover.trans_le htoday, hstored⟩
    · exact .inr (hread.append _)

theorem Settled.step (h : Settled config final steps s) {action : FeedAction}
    (hstep : (barFeed config final).step s action t) :
    Settled config final (steps ++ [(s, action, t)]) t := by
  cases action with
  | stocks stocks =>
    obtain rfl := hstep
    refine ⟨h.past, ?_⟩
    intro symbol newest hnewest date hwindow hdate
    exact (h.bars symbol newest hnewest date hwindow hdate).imp_right (·.append _)
  | sync env clock book =>
    obtain ⟨htoday, hserves, hfinal, rfl⟩ := hstep
    obtain ⟨-, done, total, -, hprogress, -⟩ :=
      runBarSync_progress config hserves.inRange clock s.db
    have hsame : ∀ symbol ∉ done, ∀ date,
        (symbol, date) ∈ (runBarSync config env clock s.db).2.bars.keys ↔
          (symbol, date) ∈ s.db.bars.keys := by
      intro symbol hdone date
      rw [Dict.mem_keys, Dict.mem_keys, hprogress.same symbol hdone date]
    constructor
    · intro symbol date hkey
      by_cases hdone : symbol ∈ done
      · exact h.fetched_past htoday hserves (hprogress.loaded symbol hdone) hkey
      · exact (h.past symbol date ((hsame symbol hdone date).mp hkey)).trans htoday
    · intro symbol newest hnewest date hwindow hdate
      by_cases hdone : symbol ∈ done
      · exact h.fetched htoday hserves hfinal (hprogress.loaded symbol hdone) hnewest hwindow hdate
      · show _ ∧ (runBarSync config env clock s.db).2.bars.get? _ = _ ∨ _
        have hknown := (hsame symbol hdone newest).mp hnewest
        rw [hprogress.same symbol hdone date]
        obtain ⟨hover, hstored⟩ | hread :=
          h.bars symbol newest hknown date ((windowStart_mono htoday).trans hwindow) hdate
        · exact .inl ⟨hover.trans_le htoday, hstored⟩
        · exact .inr (hread.append _)

/-- A run of any length leaves the bars settled. -/
theorem settled_run (hinit : (barFeed config final).init start)
    (hrun : (barFeed config final).Run start steps s) : Settled config final steps s := by
  induction hrun with
  | nil => exact settled_init hinit
  | snoc _ hstep ih => exact ih.step hstep

/-- **After a successful run, the window has the provider's bars**, apart from those
that an earlier run had received on their own date. -/
theorem synced_bars_fresh (hinit : (barFeed config final).init start)
    (hrun : (barFeed config final).Run start steps s)
    (hstep : (barFeed config final).step s (.sync env clock book) t) {result : SyncResult}
    (hok : (runBarSync config env clock s.db).1 = .ok result)
    (hactive : symbol ∈ s.db.stocks.active) (hwindow : config.windowStart env.today ≤ date)
    (hdate : date ≤ env.today) {bar : DailyBar} (hbar : book.bar symbol date = some bar) :
    t.db.bars.get? (symbol, date) = some bar.columns.stored ∨
      ReadOnDate steps symbol date (t.db.bars.get? (symbol, date)) := by
  obtain ⟨htoday, hserves, hfinal, rfl⟩ := hstep
  obtain ⟨-, done, total, -, hprogress, hresult⟩ :=
    runBarSync_progress config hserves.inRange clock s.db
  obtain ⟨rfl, -⟩ := hresult result hok
  obtain ⟨first, hfirst, hfetched⟩ := (hprogress.loaded symbol hactive).fetched hserves
  show (runBarSync config env clock s.db).2.bars.get? _ = _ ∨ _
  rw [hfetched date]
  split_ifs with hasked
  · rw [hbar]
    exact .inl rfl
  · have hearlier : date < first := not_le.mp fun h => hasked ⟨h, hdate⟩
    obtain ⟨known, hknown, hle⟩ := startDate_known hfirst hwindow hearlier
    obtain ⟨hover, hstored⟩ | hread := (settled_run hinit hrun).bars symbol known hknown date
      ((windowStart_mono htoday).trans hwindow) hle
    · rw [hstored, ← hfinal symbol date (hover.trans_le htoday), hbar]
      exact .inl rfl
    · exact .inr hread

/-! ## Two days -/

/-- A provider of some bars on one day. -/
def bookOf (today : Date) (bars : List DailyBar) : BarSyncEnv where
  today
  dailyBars symbol start last := .ok (served bars symbol start last)

theorem bookOf_serves (today : Date) {bars : List DailyBar}
    (h : (bars.map DailyBar.key).Nodup) : (bookOf today bars).Serves (listHistory bars) := by
  apply serves_listHistory h
  intro symbol start last answer hanswer
  exact (Except.ok.inj hanswer).symm

/-- The first symbol's bar of one day, around a price. -/
def barOf (close : Nat) : List DailyBar := [barAt "000001" 739624 close]

theorem barOf_earlier (close : Nat) (symbol : Symbol) {date : Date} (h : date < 739624) :
    (listHistory (barOf close)).bar symbol date = none := by
  apply listHistory_none
  intro bar hbar
  obtain rfl := List.mem_singleton.mp hbar
  exact h.ne'

/-- The database after a run on that day, before it is over. -/
def duringDay : MarketDb :=
  (runBarSync sampleConfig (bookOf 739624 (barOf 100)) sampleClock sampleDb).2

def daySteps : List FeedStep :=
  [(⟨sampleDb, 739624⟩, .sync (bookOf 739624 (barOf 100)) sampleClock (listHistory (barOf 100)),
    ⟨duringDay, 739624⟩)]

theorem daySteps_run (final : History) (h : ∀ symbol date, date < 739624 →
    (listHistory (barOf 100)).bar symbol date = final.bar symbol date) :
    (barFeed sampleConfig final).Run ⟨sampleDb, 739624⟩ daySteps ⟨duringDay, 739624⟩ :=
  .snoc (.nil _) ⟨le_rfl, bookOf_serves _ (by decide +kernel), h, rfl⟩

/-- The bars of the next day, with the final bar of the first. -/
def nextDay : List DailyBar := barOf 105 ++ [barAt "000001" 739625 107]

theorem synced_bars_fresh_sample :
    (runBarSync sampleConfig (bookOf 739625 nextDay) sampleClock duringDay).2.bars.get?
        ("000001", 739625) = some (barAt "000001" 739625 107).columns.stored ∨
      ReadOnDate daySteps "000001" 739625
        ((runBarSync sampleConfig (bookOf 739625 nextDay) sampleClock duringDay).2.bars.get?
          ("000001", 739625)) := by
  have hfinal : ∀ symbol date, date < 739624 →
      (listHistory (barOf 100)).bar symbol date = (listHistory nextDay).bar symbol date := by
    intro symbol date hdate
    rw [barOf_earlier 100 symbol hdate, listHistory_none]
    intro bar hbar
    simp only [nextDay, barOf, List.singleton_append, List.mem_cons, List.not_mem_nil,
      or_false] at hbar
    obtain rfl | rfl := hbar
    · exact hdate.ne'
    · exact (hdate.trans (by decide)).ne'
  have hstep : (barFeed sampleConfig (listHistory nextDay)).step ⟨duringDay, 739624⟩
      (.sync (bookOf 739625 nextDay) sampleClock (listHistory nextDay))
      ⟨(runBarSync sampleConfig (bookOf 739625 nextDay) sampleClock duringDay).2, 739625⟩ :=
    ⟨by decide, bookOf_serves _ (by decide +kernel), fun _ _ _ => rfl, rfl⟩
  have hinit : (barFeed sampleConfig (listHistory nextDay)).init ⟨sampleDb, 739624⟩ := rfl
  obtain ⟨result, hok⟩ : ∃ result,
      (runBarSync sampleConfig (bookOf 739625 nextDay) sampleClock duringDay).1 = .ok result :=
    ⟨_, rfl⟩
  exact synced_bars_fresh hinit (daySteps_run _ hfinal) hstep hok (by decide +kernel) (by decide)
    (by decide) (by decide +kernel)

/-- The bar that is read before the day is over stays when it is over: the second
run of that day asks for the next one. -/
theorem partial_bar_kept :
    ∃ t env book bar, (barFeed sampleConfig (listHistory (barOf 105))).init ⟨sampleDb, 739624⟩ ∧
      (barFeed sampleConfig (listHistory (barOf 105))).Run ⟨sampleDb, 739624⟩ daySteps
        ⟨duringDay, 739624⟩ ∧
      (barFeed sampleConfig (listHistory (barOf 105))).step ⟨duringDay, 739624⟩
        (.sync env sampleClock book) t ∧
      (∃ result, (runBarSync sampleConfig env sampleClock duringDay).1 = .ok result) ∧
      "000001" ∈ duringDay.stocks.active ∧ book.bar "000001" env.today = some bar ∧
      t.db.bars.get? ("000001", env.today) ≠ some bar.columns.stored := by
  have hfinal : ∀ symbol date, date < 739624 →
      (listHistory (barOf 100)).bar symbol date = (listHistory (barOf 105)).bar symbol date := by
    intro symbol date hdate
    rw [barOf_earlier 100 symbol hdate, barOf_earlier 105 symbol hdate]
  refine ⟨_, bookOf 739624 (barOf 105), listHistory (barOf 105), barAt "000001" 739624 105, rfl,
    daySteps_run _ hfinal, ⟨le_rfl, bookOf_serves _ (by decide +kernel), fun _ _ _ => rfl, rfl⟩,
    ⟨_, rfl⟩, ?_, ?_, ?_⟩
  · decide +kernel
  · decide +kernel
  · decide +kernel

end Screener.Market
