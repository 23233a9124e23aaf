import Screener.Backtest.PortfolioLoading

/-!
# The scheduling of the entries

A signal is entered on the first day after its date on which its symbol has a
bar. The search looks every calendar day up in an index that knows only the
signalled symbols, so it completes exactly when no searched day is missing there.
-/

namespace Screener.Backtest

open Screener.Lib
open Screener.Market (Date Symbol DailyBarRecord DailyBarTable)

/-! ## What the schedule is meant to be -/

def HasBar (rows : List DailyBarRecord) (symbol : Symbol) (day : Date) : Prop :=
  ∃ row ∈ rows, row.symbol = symbol ∧ row.tradingDate = day

instance (rows : List DailyBarRecord) (symbol : Symbol) (day : Date) :
    Decidable (HasBar rows symbol day) := by
  unfold HasBar; infer_instance

/-- The earliest calendar day after the signal on which its symbol has a bar. -/
def entryDay? (run : RunRequest) (rows : List DailyBarRecord) (signal : BacktestSignal) :
    Option Date :=
  (calendar run rows).find? fun day => signal.signalDate < day ∧ HasBar rows signal.symbol day

/-- The days that the search for `signal` looks at: those up to its entry. -/
def Searches (run : RunRequest) (rows : List DailyBarRecord) (signal : BacktestSignal)
    (day : Date) : Prop :=
  day ∈ calendar run rows ∧ signal.signalDate < day ∧
    ∀ earlier ∈ calendar run rows, signal.signalDate < earlier → earlier < day →
      ¬ HasBar rows signal.symbol earlier

/-- Each signal stands under its entry day, in the order of `signals`; those
without one are counted, and nothing else is. -/
structure ExactSchedule (run : RunRequest) (rows : List DailyBarRecord)
    (signals : List BacktestSignal) (schedule : Schedule) : Prop where
  entries : ∀ day, schedule.1.getD day [] = signals.filter (entryDay? run rows · = some day)
  skips : ∀ reason, schedule.2.getD reason 0 =
    if reason = .noEntryBar then signals.countP (entryDay? run rows · = none) else 0

/-- The first match in an ascending list is the least one. -/
theorem entryDay?_eq_some {run : RunRequest} {rows : List DailyBarRecord} {signal : BacktestSignal}
    {day : Date} :
    entryDay? run rows signal = some day ↔
      IsLeast {d | d ∈ calendar run rows ∧ signal.signalDate < d ∧ HasBar rows signal.symbol d}
        day := by
  rw [entryDay?, List.find?_eq_some_iff_append]
  simp only [decide_eq_true_eq, Bool.not_eq_eq_eq_not, Bool.not_true, decide_eq_false_iff_not]
  constructor
  · rintro ⟨hday, pre, post, hcal, hpre⟩
    refine ⟨⟨by simp [hcal], hday⟩, ?_⟩
    rintro other ⟨hmem, hother⟩
    have hsorted := calendar_pairwise run rows
    rw [hcal] at hmem hsorted
    rcases List.mem_append.mp hmem with hmem | hmem
    · exact absurd hother (hpre other hmem)
    · rcases List.mem_cons.mp hmem with rfl | hmem
      · exact le_refl _
      · exact (List.rel_of_pairwise_cons (List.pairwise_append.mp hsorted).2.1 hmem).le
  · rintro ⟨⟨hmem, hday⟩, hleast⟩
    obtain ⟨pre, post, hcal⟩ := List.append_of_mem hmem
    refine ⟨hday, pre, post, hcal, fun other hother hother' => ?_⟩
    have hsorted := calendar_pairwise run rows
    rw [hcal] at hsorted
    have hlt := (List.pairwise_append.mp hsorted).2.2 other hother day List.mem_cons_self
    exact absurd (hleast ⟨by simp [hcal, hother], hother'⟩) (not_le.mpr hlt)

/-! ## The search for one signal -/

section Search

variable {byDate : Dict Date (Dict Symbol DailyBar)} {present : Date → Prop}
  {signal : BacktestSignal}

/-- A first day on which the search does not end is only one more day to look at. -/
theorem searched_cons {dates : List Date} {day : Date} {P : Date → Prop}
    (hskip : signal.signalDate < day → ¬ present day) (hday : signal.signalDate < day → P day) :
    (∀ d ∈ day :: dates, signal.signalDate < d →
        (∀ e ∈ day :: dates, signal.signalDate < e → e < d → ¬ present e) → P d) ↔
      ∀ d ∈ dates, signal.signalDate < d →
        (∀ e ∈ dates, signal.signalDate < e → e < d → ¬ present e) → P d := by
  constructor
  · intro hall d hmem hd hfirst
    refine hall d (List.mem_cons_of_mem day hmem) hd fun e he => ?_
    rcases List.mem_cons.mp he with rfl | he
    · exact fun hafter _ => hskip hafter
    · exact hfirst e he
  · intro hall d hmem hd hfirst
    rcases List.mem_cons.mp hmem with rfl | hmem
    · exact hday hd
    · exact hall d hmem hd fun e he => hfirst e (List.mem_cons_of_mem day he)

variable [DecidablePred present]

/-- A completed search returns the first match. -/
theorem findEntryDate_ok {dates : List Date} {found : Option Date}
    (hpresent : ∀ day ∈ dates, ∀ bars, byDate.get? day = some bars →
      (bars.contains signal.symbol = true ↔ present day))
    (h : findEntryDate byDate signal dates = .ok found) :
    found = dates.find? fun day => signal.signalDate < day ∧ present day := by
  induction dates with
  | nil => simpa [findEntryDate, eq_comm] using h
  | cons day rest ih =>
    have hrest := ih fun d hd => hpresent d (List.mem_cons_of_mem day hd)
    unfold findEntryDate at h
    rw [List.find?_cons]
    split at h
    · rename_i hafter
      cases hget : byDate.get? day with
      | none => simp [hget] at h
      | some bars =>
        have hday := hpresent day List.mem_cons_self bars hget
        simp only [hget] at h
        by_cases hp : present day
        · rw [if_pos (hday.mpr hp), Except.ok.injEq] at h
          simp [hafter, hp, h]
        · rw [if_neg fun hc => hp (hday.mp hc)] at h
          simpa [hafter, hp] using hrest h
    · rename_i hbefore
      simpa [hbefore] using hrest h

/-- The search completes exactly when every day it looks at is in the index. -/
theorem findEntryDate_total {dates : List Date} (hsorted : dates.Pairwise (· < ·))
    (hpresent : ∀ day ∈ dates, ∀ bars, byDate.get? day = some bars →
      (bars.contains signal.symbol = true ↔ present day))
    (hkey : ∀ day ∈ dates, present day → day ∈ byDate.keys) :
    (∃ found, findEntryDate byDate signal dates = .ok found) ↔
      ∀ day ∈ dates, signal.signalDate < day →
        (∀ earlier ∈ dates, signal.signalDate < earlier → earlier < day → ¬ present earlier) →
        day ∈ byDate.keys := by
  induction dates with
  | nil => simp [findEntryDate]
  | cons day rest ih =>
    have ih := ih (List.pairwise_cons.mp hsorted).2
      (fun d hd => hpresent d (List.mem_cons_of_mem day hd))
      (fun d hd => hkey d (List.mem_cons_of_mem day hd))
    have hlt := (List.pairwise_cons.mp hsorted).1
    unfold findEntryDate
    by_cases hafter : signal.signalDate < day
    · rw [if_pos hafter]
      cases hget : byDate.get? day with
      | none =>
        simp only [reduceCtorEq, exists_const, false_iff, not_forall]
        refine ⟨day, List.mem_cons_self, hafter, fun earlier hmem _ hearlier => ?_,
          Dict.get?_eq_none.mp hget⟩
        rcases List.mem_cons.mp hmem with rfl | hmem
        · exact absurd hearlier (lt_irrefl _)
        · exact absurd hearlier (hlt earlier hmem).asymm
      | some bars =>
        have hin := Dict.mem_keys_of_get? hget
        have hday := hpresent day List.mem_cons_self bars hget
        by_cases hp : present day
        · simp only [if_pos (hday.mpr hp), Except.ok.injEq, exists_eq', true_iff]
          intro d hmem _ hfirst
          rcases List.mem_cons.mp hmem with rfl | hmem
          · exact hin
          · exact absurd hp (hfirst day List.mem_cons_self hafter (hlt d hmem))
        · simp only [if_neg fun hc => hp (hday.mp hc), ih]
          exact (searched_cons (fun _ => hp) fun _ => hin).symm
    · rw [if_neg hafter, ih]
      exact (searched_cons (fun h => absurd h hafter) fun h => absurd h hafter).symm

end Search

/-! ## The index against the table -/

section Index

variable {run : RunRequest} {rows : List DailyBarRecord} {signals : List BacktestSignal}
  {byDate : Dict Date (Dict Symbol DailyBar)}

theorem calendar_range {day : Date} (h : day ∈ calendar run rows) :
    run.startDate ≤ day ∧ day ≤ run.endDate := (mem_calendar.mp h).1

/-- The indexed days are those on which some signalled symbol has a bar. -/
theorem index_day (hindex : Indexes (loadBars run rows (signalSymbols signals)) byDate) {day : Date}
    (hday : day ∈ calendar run rows) :
    day ∈ byDate.keys ↔ ∃ t ∈ signals, HasBar rows t.symbol day := by
  rw [hindex.days day]
  constructor
  · rintro ⟨bar, hbar, hdate⟩
    obtain ⟨row, hrow, -, hsymbol, rfl⟩ := mem_loadBars.mp hbar
    obtain ⟨t, ht, heq⟩ := mem_signalSymbols.mp hsymbol
    exact ⟨t, ht, row, hrow, heq.symm, hdate⟩
  · rintro ⟨t, ht, row, hrow, hsymbol, hdate⟩
    have hrange := calendar_range hday
    rw [← hdate] at hrange
    exact ⟨DailyBar.ofRecord row, mem_loadBars.mpr ⟨row, hrow, hrange,
      mem_signalSymbols.mpr ⟨t, ht, hsymbol.symm⟩, rfl⟩, hdate⟩

theorem index_bar (hindex : Indexes (loadBars run rows (signalSymbols signals)) byDate) {day : Date}
    (hday : day ∈ calendar run rows) {signal : BacktestSignal} (hsignal : signal ∈ signals)
    {bars : Dict Symbol DailyBar} (hbars : byDate.get? day = some bars) :
    bars.contains signal.symbol = true ↔ HasBar rows signal.symbol day := by
  have hget : byDate.getD day Dict.empty = bars := by rw [Dict.getD, hbars, Option.getD_some]
  rw [Dict.contains_eq_true, Dict.mem_keys, ← hget]
  constructor
  · rintro ⟨bar, hbar⟩
    obtain ⟨hmem, hsymbol, hdate⟩ := (hindex.bars day signal.symbol bar).mp hbar
    obtain ⟨row, hrow, -, -, rfl⟩ := mem_loadBars.mp hmem
    exact ⟨row, hrow, hsymbol, hdate⟩
  · rintro ⟨row, hrow, hsymbol, hdate⟩
    have hrange := calendar_range hday
    rw [← hdate] at hrange
    refine ⟨DailyBar.ofRecord row, (hindex.bars day signal.symbol _).mpr ⟨?_, hsymbol, hdate⟩⟩
    exact mem_loadBars.mpr ⟨row, hrow, hrange,
      mem_signalSymbols.mpr ⟨signal, hsignal, hsymbol.symm⟩, rfl⟩

theorem find_entry (hindex : Indexes (loadBars run rows (signalSymbols signals)) byDate)
    {signal : BacktestSignal} (hsignal : signal ∈ signals) {found : Option Date}
    (h : findEntryDate byDate signal (calendar run rows) = .ok found) :
    found = entryDay? run rows signal :=
  findEntryDate_ok (fun _ hday _ hbars => index_bar hindex hday hsignal hbars) h

theorem find_total (hindex : Indexes (loadBars run rows (signalSymbols signals)) byDate)
    {signal : BacktestSignal} (hsignal : signal ∈ signals) :
    (∃ found, findEntryDate byDate signal (calendar run rows) = .ok found) ↔
      ∀ day, Searches run rows signal day → ∃ t ∈ signals, HasBar rows t.symbol day := by
  rw [findEntryDate_total (calendar_pairwise run rows)
    (fun _ hday _ hbars => index_bar hindex hday hsignal hbars)
    (fun _ hday hbar => (index_day hindex hday).mpr ⟨signal, hsignal, hbar⟩)]
  constructor
  · rintro h day ⟨hday, hafter, hfirst⟩
    exact (index_day hindex hday).mp (h day hday hafter hfirst)
  · intro h day hday hafter hfirst
    exact (index_day hindex hday).mpr (h day ⟨hday, hafter, hfirst⟩)

end Index

/-! ## The loop -/

theorem scheduleOne_ok {dates : List Date} {byDate : Dict Date (Dict Symbol DailyBar)}
    {schedule schedule' : Schedule} {signal : BacktestSignal} :
    scheduleOne dates byDate schedule signal = .ok schedule' ↔
      (findEntryDate byDate signal dates = .ok none ∧
          (schedule.1, countSkip schedule.2 .noEntryBar) = schedule') ∨
        ∃ day, findEntryDate byDate signal dates = .ok (some day) ∧
          (schedule.1.set day (schedule.1.getD day [] ++ [signal]), schedule.2) = schedule' := by
  rw [scheduleOne, bind_ok]
  constructor
  · rintro ⟨_ | day, hfind, hrest⟩
    · exact .inl ⟨hfind, pure_ok.mp hrest⟩
    · exact .inr ⟨day, hfind, pure_ok.mp hrest⟩
  · rintro (⟨hfind, rfl⟩ | ⟨day, hfind, rfl⟩)
    · exact ⟨none, hfind, rfl⟩
    · exact ⟨some day, hfind, rfl⟩

/-- A completed loop has found a day, or none, for each signal. -/
theorem scheduleSignals_total {dates : List Date} {byDate : Dict Date (Dict Symbol DailyBar)}
    {signals : List BacktestSignal} :
    (∃ schedule, scheduleSignals dates byDate signals = .ok schedule) ↔
      ∀ s ∈ signals, ∃ found, findEntryDate byDate s dates = .ok found := by
  suffices hgen : ∀ (start : Schedule),
      (∃ schedule, signals.foldlM (scheduleOne dates byDate) start =
      .ok schedule) ↔ ∀ s ∈ signals, ∃ found, findEntryDate byDate s dates = .ok found from
    hgen (Dict.empty, Dict.empty)
  induction signals with
  | nil => simp
  | cons s rest ih =>
    intro start
    simp only [foldlM_cons_ok, List.forall_mem_cons]
    constructor
    · rintro ⟨schedule, middle, hone, hrest⟩
      refine ⟨?_, (ih middle).mp ⟨schedule, hrest⟩⟩
      rcases scheduleOne_ok.mp hone with ⟨hfind, -⟩ | ⟨day, hfind, -⟩
      · exact ⟨none, hfind⟩
      · exact ⟨some day, hfind⟩
    · rintro ⟨⟨_ | day, hfind⟩, hrest⟩
      · obtain ⟨schedule, h⟩ := (ih _).mpr hrest
        exact ⟨schedule, _, scheduleOne_ok.mpr (.inl ⟨hfind, rfl⟩), h⟩
      · obtain ⟨schedule, h⟩ := (ih _).mpr hrest
        exact ⟨schedule, _, scheduleOne_ok.mpr (.inr ⟨day, hfind, rfl⟩), h⟩

theorem countSkip_getD (skips : Dict PortfolioSkipReason Nat) (reason other : PortfolioSkipReason) :
    (countSkip skips reason).getD other 0 =
      skips.getD other 0 + if other = reason then 1 else 0 := by
  simp only [countSkip, Dict.getD, Dict.get?_set]
  split
  · rename_i h
    simp [h]
  · simp

/-- A completed loop has built the exact schedule. -/
theorem scheduleSignals_exact {run : RunRequest} {rows : List DailyBarRecord}
    {signals : List BacktestSignal} {byDate : Dict Date (Dict Symbol DailyBar)}
    {schedule : Schedule}
    (hindex : Indexes (loadBars run rows (signalSymbols signals)) byDate)
    (h : scheduleSignals (calendar run rows) byDate signals = .ok schedule) :
    ExactSchedule run rows signals schedule := by
  refine foldlM_prefix_invariant (ExactSchedule run rows) signals ?_ h ?_
  · rintro pre signal post s t hsignals hexact hone
    have hsignal : signal ∈ signals := by simp [hsignals]
    rcases scheduleOne_ok.mp hone with ⟨hfind, rfl⟩ | ⟨day, hfind, rfl⟩
    · have hentry := find_entry hindex hsignal hfind
      constructor
      · intro other
        rw [hexact.entries other, List.filter_append]
        simp [← hentry]
      · intro reason
        rw [countSkip_getD, hexact.skips reason, List.countP_append]
        split <;> simp [← hentry]
    · have hentry := find_entry hindex hsignal hfind
      constructor
      · intro other
        rw [List.filter_append, ← hexact.entries other, Dict.getD, Dict.get?_set]
        by_cases hother : other = day
        · simp [hother, ← hentry]
        · simp [hother, Dict.getD, ← hentry, Ne.symm hother]
      · intro reason
        rw [hexact.skips reason, List.countP_append]
        simp [← hentry]
  · constructor <;> simp [Dict.getD]

/-- The signals a completed run enters on a day. -/
theorem DecimalContext.Completed.entries {k : DecimalContext} {run : RunRequest}
    {generated : List BacktestSignal} {dailyBars : List DailyBarRecord} {x : PortfolioRun}
    (h : k.Completed run generated dailyBars x) (day : Date) :
    x.context.entryEvents.getD day [] =
      (generated.insertionSort BacktestSignal.le).filter
        (entryDay? run dailyBars · = some day) := by
  have hschedule := h.schedule
  rw [h.dates] at hschedule
  exact (scheduleSignals_exact (indexBars_indexes h.index) hschedule).entries day

theorem execution_entries {run : RunRequest} {generated : List BacktestSignal}
    {dailyBars : List DailyBarRecord} {uuid4 : Nat → UUID} {execution : PortfolioExecution}
    (h : executePortfolio run generated dailyBars uuid4 = .ok execution) (day : Date) :
    execution.context.entryEvents.getD day [] =
      (generated.insertionSort BacktestSignal.le).filter
        (entryDay? run dailyBars · = some day) :=
  (executePortfolio_ok h).toCompleted.entries day

/-- **Scheduling completes, and exactly,** when and only when on every calendar
day that the search of some signal looks at some signalled symbol has a bar. -/
theorem schedule_exact_iff (run : RunRequest) (table : DailyBarTable)
    (generated : List BacktestSignal) :
    let signals := generated.insertionSort BacktestSignal.le
    (∃ schedule, (indexBars (loadBars run table.rows (signalSymbols signals)) >>= fun byDate =>
        scheduleSignals (calendar run table.rows) byDate signals) = .ok schedule ∧
      ExactSchedule run table.rows signals schedule) ↔
      ∀ signal ∈ generated, ∀ day, Searches run table.rows signal day →
        ∃ other ∈ generated, HasBar table.rows other.symbol day := by
  intro signals
  have hmem : ∀ s, s ∈ signals ↔ s ∈ generated := fun s => List.mem_insertionSort _
  obtain ⟨byDate, hbyDate⟩ := indexBars_table run table (signalSymbols signals)
  have hindex := indexBars_indexes hbyDate
  have hall : (∃ schedule, scheduleSignals (calendar run table.rows) byDate signals =
      .ok schedule) ↔
      ∀ signal ∈ generated, ∀ day, Searches run table.rows signal day →
        ∃ other ∈ generated, HasBar table.rows other.symbol day := by
    rw [scheduleSignals_total]
    constructor
    · intro h signal hsignal day hday
      obtain ⟨other, hother, hbar⟩ :=
        (find_total hindex ((hmem signal).mpr hsignal)).mp (h signal ((hmem signal).mpr hsignal))
          day
          hday
      exact ⟨other, (hmem other).mp hother, hbar⟩
    · intro h signal hsignal
      refine (find_total hindex hsignal).mpr fun day hday => ?_
      obtain ⟨other, hother, hbar⟩ := h signal ((hmem signal).mp hsignal) day hday
      exact ⟨other, (hmem other).mpr hother, hbar⟩
  rw [← hall]
  constructor
  · rintro ⟨schedule, hrun, -⟩
    obtain ⟨byDate', hbyDate', hschedule⟩ := bind_ok.mp hrun
    rw [hbyDate, Except.ok.injEq] at hbyDate'
    exact ⟨schedule, hbyDate' ▸ hschedule⟩
  · rintro ⟨schedule, hschedule⟩
    exact ⟨schedule, bind_ok.mpr ⟨byDate, hbyDate, hschedule⟩,
      scheduleSignals_exact hindex hschedule⟩

/-! ## A day on which only an unsignalled symbol trades -/

def suspendedTable : DailyBarTable where
  rows := [⟨"A", 3, 100, 101, 99, 100, 5⟩, ⟨"B", 2, 50, 51, 49, 50, 5⟩]
  unique := by decide
  nonNegative := by decide +kernel
  validOhlc := by decide +kernel

/-- The symbol of the only signal has no bar on day 2, on which another symbol
trades: its entry day is 3, but the search raises `KeyError` on day 2. -/
theorem schedule_raises_on_suspended_symbol :
    let run : RunRequest := ⟨1, 1, 3, Dict.empty⟩
    let signals : List BacktestSignal := [⟨"A", 1⟩]
    entryDay? run suspendedTable.rows ⟨"A", 1⟩ = some 3 ∧
      (indexBars (loadBars run suspendedTable.rows (signalSymbols signals)) >>= fun byDate =>
        scheduleSignals (calendar run suspendedTable.rows) byDate signals) =
        .error (.keyErrorDate 2) := by
  decide +kernel

end Screener.Backtest
