import Screener.Backtest.PortfolioSchedule
import Screener.Backtest.PortfolioAccounting
import Mathlib.Algebra.Order.Group.Multiset

/-!
# What becomes of every signal

A completed run is followed with a record of what became of each signal: it had
no entry day, it was skipped at its entry for a reason, or it was entered. An
entered signal is an open position until it is a trade, and the final day leaves
no position open, so the trades are exactly the entered signals.
-/

namespace Screener.Backtest

open Screener.Lib
open Screener.Market (Date Symbol DailyBarRecord)

inductive Fate where
  | entered
  | skipped (reason : PortfolioSkipReason)
deriving DecidableEq, Repr

abbrev Fates := List (BacktestSignal × Fate)

variable (c : Context)

/-- What `enterOne` does with a signal. -/
def entryFate (day : Date) (ledger : Ledger) (signal : BacktestSignal) : Fate :=
  match (c.bars day).get? signal.symbol with
  | none => .entered
  | some bar =>
    match sizeEntry c ledger.state signal.symbol (effectivePrice c bar) with
    | (_, some reason) => .skipped reason
    | (quantity, none) =>
      if requiredCash c (effectivePrice c bar) quantity > ledger.state.cash then
        .skipped .insufficientCash
      else .entered

/-! ## A run with its fates -/

def followEntry (day : Date) (s : Ledger × Fates) (signal : BacktestSignal) :
    Except ExecutionError (Ledger × Fates) := do
  let ledger ← enterOne c day (c.bars day) s.1 signal
  return (ledger, s.2 ++ [(signal, entryFate c day s.1 signal)])

def followDay (s : Ledger × Fates) (day : Date) : Except ExecutionError (Ledger × Fates) := do
  let exited ← exitPhase c s.1 day
  let entered ← (c.entries day).foldlM (followEntry c day) (exited, s.2)
  let liquidated ← liquidationPhase c entered.1 day
  return (closeDay c day (c.bars day) liquidated, entered.2)

/-- The signals without an entry day. -/
def unscheduled (run : RunRequest) (rows : List DailyBarRecord) (signals : List BacktestSignal) :
    Fates :=
  (signals.filter (entryDay? run rows · = none)).map fun signal => (signal, .skipped .noEntryBar)

/-- The run of an execution, with the fates of its signals. -/
def followRun (run : RunRequest) (generated : List BacktestSignal) (rows : List DailyBarRecord)
    (execution : PortfolioExecution) : Except ExecutionError (Ledger × Fates) :=
  execution.context.dates.foldlM (followDay execution.context)
    (execution.start, unscheduled run rows (generated.insertionSort BacktestSignal.le))

def BacktestTrade.signal (trade : BacktestTrade) : BacktestSignal :=
  ⟨trade.symbol, trade.signalDate⟩

def Fates.entered (fates : Fates) : List BacktestSignal :=
  (fates.filter (·.2 = .entered)).map Prod.fst

variable {c} {s t : Ledger × Fates} {ledger ledger' : Ledger} {fates : Fates} {day : Date}

/-- Following a run does not change it. -/
theorem followDay_total (h : runDay c ledger day = .ok ledger') (fates : Fates) :
    ∃ fates', followDay c (ledger, fates) day = .ok (ledger', fates') := by
  obtain ⟨exited, entered, liquidated, hexit, hentry, hliq, rfl⟩ := runDay_ok.mp h
  have hfollow : ∃ fates', (c.entries day).foldlM (followEntry c day) (exited, fates) =
      .ok (entered, fates') := by
    refine foldlM_lift ?_ fates hentry
    intro signal _ l l' fates hl
    exact ⟨_, bind_ok.mpr ⟨l', hl, rfl⟩⟩
  obtain ⟨fates', hfates⟩ := hfollow
  refine ⟨fates', ?_⟩
  simp only [followDay, bind_ok, pure_ok]
  exact ⟨exited, hexit, (entered, fates'), hfates, liquidated, hliq, rfl⟩

theorem followDay_ok (h : followDay c s day = .ok t) :
    ∃ exited entered liquidated, exitPhase c s.1 day = .ok exited ∧
      (c.entries day).foldlM (followEntry c day) (exited, s.2) = .ok entered ∧
      liquidationPhase c entered.1 day = .ok liquidated ∧
      t = (closeDay c day (c.bars day) liquidated, entered.2) := by
  simp only [followDay, bind_ok, pure_ok] at h
  obtain ⟨exited, hexit, entered, hentry, liquidated, hliq, rfl⟩ := h
  exact ⟨exited, entered, liquidated, hexit, hentry, hliq, rfl⟩

/-- An entry opens a position or counts one skip, as its fate says. -/
theorem followEntry_ok {signal : BacktestSignal} (h : followEntry c day s signal = .ok t) :
    (∃ reason, t = (s.1.skip reason, s.2 ++ [(signal, .skipped reason)])) ∨
      ∃ bar quantity, sizeEntry c s.1.state signal.symbol (effectivePrice c bar) =
          (quantity, none) ∧
        t = (openPosition c s.1 signal day bar quantity, s.2 ++ [(signal, .entered)]) := by
  simp only [followEntry, bind_ok, pure_ok] at h
  obtain ⟨ledger', hone, rfl⟩ := h
  cases hbar : (c.bars day).get? signal.symbol with
  | none =>
    rw [enterOne_eq, hbar] at hone
    cases hone
  | some bar =>
    rw [enterOne_eq, hbar] at hone
    rw [entryFate, hbar]
    dsimp only at hone ⊢
    rcases hsize : sizeEntry c s.1.state signal.symbol (effectivePrice c bar) with
      ⟨quantity, _ | reason⟩
    · rw [hsize] at hone
      dsimp only at hone ⊢
      split_ifs at hone with hcash
      · rw [Except.ok.injEq] at hone
        exact .inl ⟨.insufficientCash, by rw [if_pos hcash, hone]⟩
      · rw [Except.ok.injEq] at hone
        exact .inr ⟨bar, quantity, hsize, by rw [if_neg hcash, hone]⟩
    · rw [hsize] at hone
      dsimp only at hone ⊢
      rw [Except.ok.injEq] at hone
      exact .inl ⟨reason, by rw [hone]⟩

/-! ## What the day loop keeps -/

/-- The signals of the open positions. -/
def PortfolioState.openSignals (state : PortfolioState) : Multiset BacktestSignal :=
  state.positions.sum fun _ position => {position.signal}

/-- The skips count the skipped fates; the entered signals are trades or positions. -/
structure Settled (s : Ledger × Fates) : Prop where
  skips : ∀ reason, s.1.skips.getD reason 0 = s.2.countP (·.2 = .skipped reason)
  total : (s.1.skips.sum fun _ n => n) = s.2.countP (·.2 ≠ .entered)
  named : ∀ symbol position, s.1.state.positions.get? symbol = some position →
    position.signal.symbol = symbol
  book : (s.1.trades.map BacktestTrade.signal : Multiset BacktestSignal) +
    s.1.state.openSignals = s.2.entered

theorem countSkip_sum (skips : Dict PortfolioSkipReason Nat) (reason : PortfolioSkipReason) :
    ((countSkip skips reason).sum fun _ n => n) = (skips.sum fun _ n => n) + 1 := by
  unfold countSkip
  cases hget : skips.get? reason with
  | none =>
    rw [Dict.sum_set_of_not_mem _ (Dict.get?_eq_none.mp hget), Dict.getD, hget]
    rfl
  | some n =>
    have hset := Dict.sum_set_of_get? (fun _ n => n) hget (skips.getD reason 0 + 1)
    have hn : skips.getD reason 0 = n := by rw [Dict.getD, hget]; rfl
    omega

namespace Settled

theorem skip (h : Settled (ledger, fates)) (signal : BacktestSignal)
    (reason : PortfolioSkipReason) :
    Settled (ledger.skip reason, fates ++ [(signal, .skipped reason)]) := by
  constructor
  · intro other
    simp only [Ledger.skip, countSkip_getD, h.skips other, List.countP_append]
    by_cases hother : other = reason
    · simp [hother]
    · simp [hother, Ne.symm hother]
  · simp only [Ledger.skip, countSkip_sum, h.total, List.countP_append]
    simp
  · exact h.named
  · simpa [Fates.entered, Ledger.skip] using h.book

theorem enter (h : Settled (ledger, fates)) {signal : BacktestSignal}
    (hnew : signal.symbol ∉ ledger.state.positions.keys) (day : Date) (bar : DailyBar)
    (quantity : Nat) :
    Settled (openPosition c ledger signal day bar quantity, fates ++ [(signal, .entered)]) := by
  constructor
  · intro reason
    rw [List.countP_append, ← h.skips reason]
    rfl
  · rw [List.countP_append, ← h.total]
    rfl
  · exact Named.set h.named rfl
  · have hopen : (openPosition c ledger signal day bar quantity).state.openSignals =
        ledger.state.openSignals + {signal} := Dict.sum_set_of_not_mem _ hnew _
    have hentered : (fates ++ [(signal, Fate.entered)]).entered = fates.entered ++ [signal] := by
      simp [Fates.entered]
    show (ledger.trades.map BacktestTrade.signal : Multiset BacktestSignal) +
      (openPosition c ledger signal day bar quantity).state.openSignals =
        (fates ++ [(signal, Fate.entered)]).entered
    rw [hopen, hentered, ← add_assoc, h.book, ← Multiset.coe_add]
    rfl

theorem hold (h : Settled (ledger, fates)) {symbol : Symbol} {position : OpenPosition}
    (hget : ledger.state.positions.get? symbol = some position) :
    Settled (holdPosition ledger symbol position, fates) := by
  refine ⟨h.skips, h.total, ?_, ?_⟩
  · exact Named.set h.named (h.named symbol position hget)
  · have hopen : (holdPosition ledger symbol position).state.openSignals =
        ledger.state.openSignals :=
      add_right_cancel (Dict.sum_set_of_get? (fun _ p => ({p.signal} : Multiset BacktestSignal))
        hget position.held)
    show (ledger.trades.map BacktestTrade.signal : Multiset BacktestSignal) +
      (holdPosition ledger symbol position).state.openSignals = fates.entered
    rw [hopen]
    exact h.book

/-- The signal of a position that is closed becomes that of a trade. -/
theorem close (h : Settled (ledger, fates)) {symbol : Symbol} {position : OpenPosition}
    (hget : ledger.state.positions.get? symbol = some position) (day : Date) (raw : ℚ)
    (reason : BacktestExitReason) :
    Settled (closePosition c ledger symbol position day raw reason, fates) := by
  refine ⟨h.skips, h.total, ?_, ?_⟩
  · exact Named.erase h.named symbol
  · have hopen : (closePosition c ledger symbol position day raw reason).state.openSignals +
        {position.signal} = ledger.state.openSignals := Dict.sum_erase _ hget
    have htrades : (closePosition c ledger symbol position day raw reason).trades.map
        BacktestTrade.signal = ledger.trades.map BacktestTrade.signal ++ [position.signal] := by
      have hsymbol := h.named symbol position hget
      simp only [closePosition_eq, List.map_append, List.map_singleton, BacktestTrade.signal,
        ← hsymbol]
    show ((closePosition c ledger symbol position day raw reason).trades.map
      BacktestTrade.signal : Multiset BacktestSignal) +
        (closePosition c ledger symbol position day raw reason).state.openSignals = fates.entered
    rw [htrades, ← Multiset.coe_add, Multiset.coe_singleton, add_assoc,
      add_comm ({position.signal} : Multiset BacktestSignal), hopen]
    exact h.book

theorem mark (h : Settled (ledger, fates)) (day : Date) (bars : Dict Symbol DailyBar) :
    Settled (closeDay c day bars ledger, fates) := by
  have hsignal : ∀ symbol position, (markPosition bars symbol position).signal =
      position.signal := by
    intro symbol position
    obtain ⟨close, hmark⟩ := markPosition_eq bars symbol position
    rw [hmark]
  refine ⟨h.skips, h.total, ?_, ?_⟩
  · exact Named.mark h.named bars
  · have hopen : (closeDay c day bars ledger).state.openSignals = ledger.state.openSignals := by
      simp only [closeDay_eq, PortfolioState.openSignals, Dict.sum_mapValues, hsignal]
    show (ledger.trades.map BacktestTrade.signal : Multiset BacktestSignal) +
      (closeDay c day bars ledger).state.openSignals = fates.entered
    rw [hopen]
    exact h.book

theorem exitPhase (h : Settled (ledger, fates)) (hrun : exitPhase c ledger day = .ok ledger') :
    Settled (ledger', fates) := by
  refine foldlM_invariant (fun l : Ledger => Settled (l, fates)) ?_ hrun h
  intro symbol _ l l' hl hone
  obtain ⟨position, hget, ⟨-, rfl⟩ | ⟨bar, -, ⟨-, rfl⟩ | ⟨reason, raw, -, rfl⟩⟩⟩ :=
    exitOne_cases hone
  · exact hl
  · exact hl.hold hget
  · exact (hl.hold hget).close (get?_holdPosition l symbol position) day raw reason

theorem entryPhase {signals : List BacktestSignal} (h : Settled s)
    (hrun : signals.foldlM (followEntry c day) s = .ok t) : Settled t := by
  refine foldlM_invariant Settled ?_ hrun h
  intro signal _ u v hu hone
  rcases followEntry_ok hone with ⟨reason, rfl⟩ | ⟨bar, quantity, hsize, rfl⟩
  · exact hu.skip signal reason
  · exact hu.enter (sizeEntry_ok hsize).1 day bar quantity

theorem liquidationPhase (h : Settled (ledger, fates))
    (hrun : liquidationPhase c ledger day = .ok ledger') : Settled (ledger', fates) := by
  rw [liquidationPhase_eq] at hrun
  split_ifs at hrun
  · refine foldlM_invariant (fun l : Ledger => Settled (l, fates)) ?_ hrun h
    intro symbol _ l l' hl hone
    obtain ⟨position, hget, ⟨-, rfl⟩ | ⟨-, bar, -, rfl⟩⟩ := liquidateOne_cases hone
    · exact hl
    · exact hl.close hget day bar.close .endOfPeriod
  · rw [Except.ok.injEq] at hrun
    exact hrun ▸ h

theorem followDay (h : Settled s) (hrun : followDay c s day = .ok t) : Settled t := by
  obtain ⟨exited, entered, liquidated, hexit, hentry, hliq, rfl⟩ := followDay_ok hrun
  exact (((h.exitPhase hexit).entryPhase hentry).liquidationPhase hliq).mark day (c.bars day)

end Settled

/-! ## Every signal is met once -/

/-- The fates of a day are those of its entries, in order. -/
theorem followDay_signals (h : followDay c s day = .ok t) :
    t.2.map Prod.fst = s.2.map Prod.fst ++ c.entries day := by
  obtain ⟨exited, entered, liquidated, -, hentry, -, rfl⟩ := followDay_ok h
  show entered.2.map Prod.fst = s.2.map Prod.fst ++ c.entries day
  refine foldlM_prefix_invariant (fun pre (u : Ledger × Fates) =>
    u.2.map Prod.fst = s.2.map Prod.fst ++ pre) _ ?_ hentry (by simp)
  intro pre signal post u v _ hu hone
  rcases followEntry_ok hone with ⟨reason, rfl⟩ | ⟨bar, quantity, -, rfl⟩
  · rw [List.map_append, hu, List.append_assoc]
    rfl
  · rw [List.map_append, hu, List.append_assoc]
    rfl

theorem followDays_signals {days : List Date} (h : days.foldlM (followDay c) s = .ok t) :
    t.2.map Prod.fst = s.2.map Prod.fst ++ days.flatMap c.entries := by
  refine foldlM_prefix_invariant (fun pre (u : Ledger × Fates) =>
    u.2.map Prod.fst = s.2.map Prod.fst ++ pre.flatMap c.entries) _ ?_ h (by simp)
  intro pre day post u v _ hu hday
  rw [followDay_signals hday, hu, List.flatMap_append, List.append_assoc]
  simp

/-- Collected day by day, in any order within a day, and with those of no day, the
signals are all there. -/
theorem buckets_perm {signals : List BacktestSignal} {day? : BacktestSignal → Option Date}
    {bucket : Date → List BacktestSignal} {days : List Date} (hdays : days.Nodup)
    (hbucket : ∀ day, (bucket day).Perm (signals.filter (day? · = some day)))
    (hfound : ∀ signal ∈ signals, ∀ day, day? signal = some day → day ∈ days) :
    (signals.filter (day? · = none) ++ days.flatMap bucket).Perm signals := by
  have hsome : (days.flatMap bucket).Perm
      (signals.filter fun signal => ∃ day ∈ days, day? signal = some day) := by
    clear hfound
    induction days with
    | nil => simp
    | cons day rest ih =>
      obtain ⟨hnew, hrest⟩ := List.nodup_cons.mp hdays
      rw [List.flatMap_cons]
      refine ((hbucket day).append (ih hrest)).trans ?_
      have hsplit := List.filter_append_perm (fun signal => decide (day? signal = some day))
        (signals.filter fun signal => ∃ x ∈ day :: rest, day? signal = some x)
      rw [List.filter_filter, List.filter_filter] at hsplit
      refine List.Perm.trans (List.Perm.of_eq ?_) hsplit
      congr 1
      · refine List.filter_congr fun signal _ => ?_
        by_cases hday : day? signal = some day <;> simp [hday]
      · refine List.filter_congr fun signal _ => ?_
        by_cases hday : day? signal = some day
        · simp [hday, hnew]
        · simp [hday]
  refine ((List.Perm.refl _).append hsome).trans ?_
  have hall := List.filter_append_perm (fun signal => decide (day? signal = none)) signals
  refine List.Perm.trans (List.Perm.of_eq ?_) hall
  congr 1
  refine List.filter_congr fun signal hsignal => ?_
  cases hday : day? signal with
  | none => simp
  | some day => simp [hfound signal hsignal day hday]

/-- The schedule counts one skip for each signal without an entry day. -/
theorem scheduleSignals_sum {run : RunRequest} {rows : List DailyBarRecord}
    {signals : List BacktestSignal} {byDate : Dict Date (Dict Symbol DailyBar)}
    {schedule : Schedule}
    (hindex : Indexes (loadBars run rows (signalSymbols signals)) byDate)
    (h : scheduleSignals (calendar run rows) byDate signals = .ok schedule) :
    (schedule.2.sum fun _ n => n) = signals.countP (entryDay? run rows · = none) := by
  refine foldlM_prefix_invariant (fun pre (schedule : Schedule) =>
    (schedule.2.sum fun _ n => n) = pre.countP (entryDay? run rows · = none)) signals ?_ h rfl
  intro pre signal post u v hsignals hu hone
  have hsignal : signal ∈ signals := by simp [hsignals]
  rcases scheduleOne_ok.mp hone with ⟨hfind, rfl⟩ | ⟨day, hfind, rfl⟩
  · have hentry := find_entry hindex hsignal hfind
    rw [countSkip_sum, hu, List.countP_append]
    simp [← hentry]
  · have hentry := find_entry hindex hsignal hfind
    rw [hu, List.countP_append]
    simp [← hentry]

/-- The schedule settles the signals without an entry day. -/
theorem settled_start {run : RunRequest} {rows : List DailyBarRecord}
    {signals : List BacktestSignal} {schedule : Schedule} {state : PortfolioState}
    (hempty : state.positions = Dict.empty) (hexact : ExactSchedule run rows signals schedule)
    (hsum : (schedule.2.sum fun _ n => n) = signals.countP (entryDay? run rows · = none)) :
    Settled (Ledger.start state schedule.2, unscheduled run rows signals) := by
  have hreason : ∀ reason, (unscheduled run rows signals).countP (·.2 = .skipped reason) =
      if reason = .noEntryBar then signals.countP (entryDay? run rows · = none) else 0 := by
    intro reason
    simp only [unscheduled, List.countP_map, List.countP_filter, Function.comp_def]
    by_cases hreason : reason = .noEntryBar
    · simp [hreason]
    · simp [hreason, Ne.symm hreason]
  constructor
  · intro reason
    rw [hreason]
    exact hexact.skips reason
  · show (schedule.2.sum fun _ n => n) = _
    rw [hsum]
    simp [unscheduled, List.countP_map, List.countP_filter, Function.comp_def]
  · intro symbol position hget
    simp [Ledger.start, hempty] at hget
  · have hnone : (unscheduled run rows signals).entered = [] := by
      simp [Fates.entered, unscheduled, List.filter_map, Function.comp_def]
    rw [hnone]
    simp [Ledger.start, PortfolioState.openSignals, hempty]

theorem entered_length (fates : Fates) :
    fates.entered.length + fates.countP (·.2 ≠ .entered) = fates.length := by
  rw [Fates.entered, List.length_map, ← List.countP_eq_length_filter]
  have hsplit := List.length_eq_countP_add_countP (fun f : BacktestSignal × Fate => f.2 = .entered)
    (l := fates)
  simpa using hsplit.symm

/-- Followed through a completed run, every signal meets one fate, and the ledger
settles them. -/
theorem followRun_total {run : RunRequest} {generated : List BacktestSignal}
    {rows : List DailyBarRecord} {uuid4 : Nat → UUID} {execution : PortfolioExecution}
    (h : executePortfolio run generated rows uuid4 = .ok execution) :
    ∃ fates, followRun run generated rows execution = .ok (execution.ledger, fates) ∧
      Settled (execution.ledger, fates) ∧ (fates.map Prod.fst).Perm generated := by
  have hentries := execution_entries h
  have hcompleted := executePortfolio_ok h
  have hdates := hcompleted.dates
  have hindexes := indexBars_indexes hcompleted.index
  have hschedule := hcompleted.schedule
  rw [hdates] at hschedule
  obtain ⟨fates, hfates⟩ : ∃ fates, followRun run generated rows execution =
      .ok (execution.ledger, fates) := by
    unfold followRun
    exact foldlM_lift (fun day _ l l' fates hday => followDay_total hday fates) _ hcompleted.days
  have hsettledStart : Settled (execution.start,
      unscheduled run rows (generated.insertionSort BacktestSignal.le)) := by
    rw [hcompleted.start]
    exact settled_start rfl (scheduleSignals_exact hindexes hschedule)
      (scheduleSignals_sum hindexes hschedule)
  refine ⟨fates, hfates, ?_, ?_⟩
  · exact foldlM_invariant Settled (fun day _ _ _ hs hday => hs.followDay hday) hfates hsettledStart
  · have hdays : execution.context.dates.Nodup := by
      rw [hdates]
      exact (calendar_pairwise run rows).imp fun hlt => hlt.ne
    have hunscheduled : (unscheduled run rows (generated.insertionSort BacktestSignal.le)).map
        Prod.fst = (generated.insertionSort BacktestSignal.le).filter
          (entryDay? run rows · = none) := by
      simp [unscheduled, Function.comp_def]
    rw [followDays_signals hfates, hunscheduled]
    refine (buckets_perm hdays (fun day => ?_) fun signal _ day hday => ?_).trans
      (List.perm_insertionSort _ _)
    · rw [Context.entries, hentries day]
      exact List.perm_insertionSort _ _
    · rw [hdates]
      exact (entryDay?_eq_some.mp hday).1.1

/-- Without open positions the trades are those of the entered signals. -/
theorem Settled.trades {ledger : Ledger} {fates : Fates} (h : Settled (ledger, fates))
    (hempty : ledger.state.positions = Dict.empty) :
    (ledger.trades.map BacktestTrade.signal).Perm fates.entered := by
  have hbook := h.book
  rw [PortfolioState.openSignals, hempty, Dict.sum_empty, add_zero] at hbook
  exact Multiset.coe_eq_coe.mp hbook

/-- No two trades are of one signal. -/
theorem trades_nodup {run : RunRequest} {generated : List BacktestSignal}
    {rows : List DailyBarRecord} {uuid4 : Nat → UUID} {execution : PortfolioExecution}
    (hdistinct : generated.Nodup)
    (h : executePortfolio run generated rows uuid4 = .ok execution) :
    (execution.ledger.trades.map BacktestTrade.signal).Nodup := by
  obtain ⟨fates, -, hsettled, hmet⟩ := followRun_total h
  rw [(hsettled.trades (executePortfolio_empty h)).nodup_iff]
  exact (hmet.nodup_iff.mpr hdistinct).sublist (List.filter_sublist.map Prod.fst)

/-- **No signal is lost or counted twice.** Followed through a completed run, every
signal meets one fate. The trades are those of the entered signals, each skip
reason counts the signals it was the fate of, the totals of the metrics add up,
and no two trades are of one signal. -/
theorem signals_accounted {run : RunRequest} {generated : List BacktestSignal}
    {rows : List DailyBarRecord} {uuid4 : Nat → UUID} {execution : PortfolioExecution}
    (hdistinct : generated.Nodup)
    (h : executePortfolio run generated rows uuid4 = .ok execution) :
    ∃ fates, followRun run generated rows execution = .ok (execution.ledger, fates) ∧
      (fates.map Prod.fst).Perm generated ∧
      (execution.ledger.trades.map BacktestTrade.signal).Perm fates.entered ∧
      (∀ reason, execution.metrics.skipReasons.getD reason 0 =
        fates.countP (·.2 = .skipped reason)) ∧
      execution.metrics.skippedSignals = execution.metrics.skipReasons.values.sum ∧
      execution.metrics.totalSignals =
        execution.metrics.enteredTrades + execution.metrics.skippedSignals ∧
      (execution.ledger.trades.map BacktestTrade.signal).Nodup := by
  obtain ⟨fates, hfates, hsettled, hmet⟩ := followRun_total h
  have hmetrics := (executePortfolio_ok h).metrics
  have htrades := hsettled.trades (executePortfolio_empty h)
  have hskipped : execution.metrics.skippedSignals = fates.countP (·.2 ≠ .entered) := by
    rw [hmetrics]
    exact hsettled.total
  refine ⟨fates, hfates, hmet, htrades, ?_, ?_, ?_, trades_nodup hdistinct h⟩
  · intro reason
    rw [hmetrics]
    exact hsettled.skips reason
  · rw [hmetrics]
    rfl
  · have hlength : generated.length = fates.length := by rw [← hmet.length_eq, List.length_map]
    have hentered : execution.metrics.enteredTrades = fates.entered.length := by
      rw [hmetrics, ← htrades.length_eq, List.length_map]
      rfl
    have htotal : execution.metrics.totalSignals = generated.length := by rw [hmetrics]; rfl
    rw [htotal, hentered, hskipped, entered_length, hlength]

/-- Four signals: three trades, one of them on the final day, and one signal
without an entry day. -/
theorem signals_accounted_sample :
    ∃ execution, executePortfolio sampleRun sampleSignals sampleBars id = .ok execution ∧
      ∃ fates, followRun sampleRun sampleSignals sampleBars execution =
          .ok (execution.ledger, fates) ∧
        (execution.ledger.trades.map BacktestTrade.signal).Perm fates.entered := by
  obtain ⟨execution, h⟩ := sampleRun_completes
  obtain ⟨fates, hfates, -, htrades, -⟩ := signals_accounted (by decide) h
  exact ⟨execution, h, fates, hfates, htrades⟩

end Screener.Backtest
