import Screener.Backtest.EntryLimits
import Screener.Backtest.PortfolioRefinement
import Screener.Backtest.PortfolioSignals

/-!
# Every trade is well-formed

A trade runs from the first bar after its signal to a day of the run, over no more bars than
the limit. In the independent executor this is what the first exit says; in the event loop it
is an invariant of the day, which also keeps two holdings of one symbol apart.
-/

namespace Screener.Backtest

open Screener.Lib
open Screener.Market (Date Symbol DailyBarRecord)

/-- The days of the run after the signal on which its symbol has a bar. -/
def EntryDays (run : RunRequest) (rows : List DailyBarRecord) (symbol : Symbol)
    (signalDate : Date) : Set Date :=
  {day | (run.startDate ≤ day ∧ day ≤ run.endDate) ∧ signalDate < day ∧ HasBar rows symbol day}

theorem entryDay?_isLeast {run : RunRequest} {rows : List DailyBarRecord} {signal : BacktestSignal}
    {day : Date} (h : entryDay? run rows signal = some day) :
    IsLeast (EntryDays run rows signal.symbol signal.signalDate) day := by
  obtain ⟨⟨hday, hafter, hbar⟩, hleast⟩ := entryDay?_eq_some.mp h
  refine ⟨⟨(mem_calendar.mp hday).1, hafter, hbar⟩, ?_⟩
  rintro other ⟨hrange, hother, row, hrow, hsymbol, hdate⟩
  exact hleast ⟨mem_calendar.mpr ⟨hrange, row, hrow, hdate⟩, hother, row, hrow, hsymbol, hdate⟩

structure WellFormed (run : RunRequest) (rows : List DailyBarRecord) (maxHoldingDays : ℤ)
    (t : BacktestTrade) : Prop where
  entry : IsLeast (EntryDays run rows t.symbol t.signalDate) t.entryDate
  signal_before : t.signalDate < t.entryDate
  exit_after : t.entryDate ≤ t.exitDate
  exit_within : t.exitDate ≤ run.endDate
  quantity : 1 ≤ t.quantity
  holding : (t.holdingDays : ℤ) ≤ maxHoldingDays

/-! ## The trades of the independent executor -/

section Independent

variable {run : RunRequest} {rows : List DailyBarRecord} {p : BacktestParameters}
  {signals : List BacktestSignal} {signal : BacktestSignal}

theorem entryDays_isLeast {symbols : List Symbol} (hsymbol : signal.symbol ∈ symbols)
    (hkeys : ((loadBars run rows symbols).map DailyBar.key).Nodup) {entryBar : DailyBar}
    {later : List DailyBar} (hbars : laterBars run rows signal = entryBar :: later) :
    IsLeast (EntryDays run rows signal.symbol signal.signalDate) entryBar.tradingDate := by
  obtain ⟨⟨row, hrow, rfl⟩, hsame, hrange, hafter⟩ := mem_laterBars.mp
    (show entryBar ∈ laterBars run rows signal from hbars ▸ List.mem_cons_self)
  refine ⟨⟨hrange, hafter, row, hrow, hsame, rfl⟩, ?_⟩
  rintro day ⟨hday, hsignal, other, hother, hsymbolOther, rfl⟩
  have hin : DailyBar.ofRecord other ∈ laterBars run rows signal :=
    mem_laterBars.mpr ⟨⟨other, hother, rfl⟩, hsymbolOther, hday, hsignal⟩
  have hsorted := laterBars_pairwise hsymbol hkeys
  rw [hbars] at hin hsorted
  rcases List.mem_cons.mp hin with heq | hin
  · exact le_of_eq (congrArg DailyBar.tradingDate heq).symm
  · exact (List.rel_of_pairwise_cons hsorted hin).le

theorem simulated_wellFormed (hp : p.Accepted)
    (hkeys : ((loadBars run rows (signalSymbols signals)).map DailyBar.key).Nodup)
    (hsignal : signal ∈ signals) {id : UUID} {t : BacktestTrade}
    (h : simulateSignal run signal (barsOf run rows signal.symbol) p id = .ok (.trade t)) :
    WellFormed run rows p.maxHoldingDays t := by
  have hsymbol := mem_signalSymbols.mpr ⟨signal, hsignal, rfl⟩
  obtain ⟨entryBar, later, heligible, -, hshares, rfl⟩ := simulateSignal_eq_trade.mp h
  obtain ⟨-, hexit⟩ := DecimalContext.exitOf_firstExit (d := .unlimited) hp
    (barsOf_dates hsymbol hkeys) heligible
  have hentry := entryDays_isLeast hsymbol hkeys heligible
  refine ⟨hentry, hentry.1.2.1, hexit.range.1, hexit.range.2, ?_, hexit.limit⟩
  show 1 ≤ (roundDown (p.positionSize / (entryBar.open * (1 + p.slippageRate)))).toNat
  omega

theorem independent_wellFormed {generated : List BacktestSignal} {uuid4 : Nat → UUID}
    {x : IndependentTrades} (h : executeIndependent run generated rows uuid4 = .ok x) :
    ∀ t ∈ x.trades, WellFormed run rows x.p.maxHoldingDays t := by
  have hcompleted := executeIndependent_ok h
  intro t ht
  obtain ⟨signal, hsignal, id, hsimulate⟩ := hcompleted.simulated.mem t ht
  exact simulated_wellFormed hcompleted.accepted hcompleted.keys hsignal hsimulate

end Independent

/-! ## The trades of the event loop -/

/-- What an open position has kept to by `day`. -/
structure WellHeld (c : Context) (rows : List DailyBarRecord) (day : Date)
    (position : OpenPosition) : Prop where
  entry : IsLeast (EntryDays c.run rows position.signal.symbol position.signal.signalDate)
    position.entryDate
  past : position.entryDate ≤ day
  quantity : 1 ≤ position.quantity
  holding : (position.holdingDays : ℤ) < c.p.trading.maxHoldingDays

/-- What the book has kept to by `day`: of one symbol, everything sold was sold no later than
what is held was bought. -/
structure Shaped (c : Context) (rows : List DailyBarRecord) (day : Date) (ledger : Ledger) :
    Prop where
  named : Named ledger.state.positions
  positions : ∀ symbol position, ledger.state.positions.get? symbol = some position →
    WellHeld c rows day position
  trades : ∀ t ∈ ledger.trades, WellFormed c.run rows c.p.trading.maxHoldingDays t
  past : ∀ t ∈ ledger.trades, t.exitDate ≤ day
  reentry : ∀ t ∈ ledger.trades, ∀ position,
    ledger.state.positions.get? t.symbol = some position → t.exitDate ≤ position.entryDate
  order : ledger.trades.Pairwise fun t u => t.symbol = u.symbol → t.exitDate ≤ u.entryDate

section Day

variable {c : Context} {rows : List DailyBarRecord} {symbols : List Symbol} {day : Date}
  {ledger : Ledger} {symbol : Symbol} {position : OpenPosition}

theorem exitTerms_none {bar : DailyBar} {p : BacktestParameters} {final : Bool}
    (h : exitTerms position bar p final = none) :
    (position.holdingDays : ℤ) < p.maxHoldingDays := by
  cases final with
  | true => cases h
  | false =>
    rw [exitTerms_eq, Option.map_eq_none_iff] at h
    exact ExitRule.lt_limit_of_trigger_none h

theorem Shaped.later (h : Shaped c rows day ledger) {day' : Date} (hday : day ≤ day') :
    Shaped c rows day' ledger where
  named := h.named
  positions symbol position hget :=
    { h.positions symbol position hget with
      past := (h.positions symbol position hget).past.trans hday }
  trades := h.trades
  past t ht := (h.past t ht).trans hday
  reentry := h.reentry
  order := h.order

theorem Shaped.hold (h : Shaped c rows day ledger)
    (hget : ledger.state.positions.get? symbol = some position)
    (hlimit : (position.held.holdingDays : ℤ) < c.p.trading.maxHoldingDays) :
    Shaped c rows day (holdPosition ledger symbol position) := by
  have hheld := h.positions symbol position hget
  refine ⟨h.named.set (h.named symbol position hget), ?_, h.trades, h.past, ?_, h.order⟩
  · exact Dict.forall_get?_set h.positions ⟨hheld.entry, hheld.past, hheld.quantity, hlimit⟩
  · intro t ht p hp
    simp only [holdPosition, Dict.get?_set] at hp
    split at hp
    · rename_i hsymbol
      rw [← Option.some.inj hp]
      exact h.reentry t ht position (hsymbol ▸ hget)
    · exact h.reentry t ht p hp

/-- A position as it is or held one more bar. -/
structure SameHolding (position sold : OpenPosition) : Prop where
  signal : sold.signal = position.signal
  entryDate : sold.entryDate = position.entryDate
  quantity : sold.quantity = position.quantity
  holding : sold.holdingDays ≤ position.holdingDays + 1

theorem SameHolding.refl (position : OpenPosition) : SameHolding position position :=
  ⟨rfl, rfl, rfl, Nat.le_succ _⟩

theorem SameHolding.held (position : OpenPosition) : SameHolding position position.held :=
  ⟨rfl, rfl, rfl, le_rfl⟩

/-- The trade of a sale on a day of the run. -/
theorem WellHeld.sell (h : WellHeld c rows day position) (hend : day ≤ c.run.endDate)
    (hsymbol : position.signal.symbol = symbol) {sold : OpenPosition}
    (hsold : SameHolding position sold) (before : Ledger) (raw : ℚ) (reason : BacktestExitReason) :
    ∃ t, (closePosition c before symbol sold day raw reason).trades = before.trades ++ [t] ∧
      WellFormed c.run rows c.p.trading.maxHoldingDays t ∧
      t.symbol = symbol ∧ t.entryDate = position.entryDate ∧ t.exitDate = day := by
  refine ⟨_, rfl, ?_, rfl, hsold.entryDate, rfl⟩
  constructor
  case entry =>
    show IsLeast (EntryDays c.run rows symbol sold.signal.signalDate) sold.entryDate
    rw [hsold.signal, hsold.entryDate, ← hsymbol]
    exact h.entry
  case signal_before =>
    show sold.signal.signalDate < sold.entryDate
    rw [hsold.signal, hsold.entryDate]
    exact h.entry.1.2.1
  case exit_after =>
    show sold.entryDate ≤ day
    rw [hsold.entryDate]
    exact h.past
  case exit_within => exact hend
  case quantity =>
    show 1 ≤ sold.quantity
    rw [hsold.quantity]
    exact h.quantity
  case holding =>
    show (sold.holdingDays : ℤ) ≤ c.p.trading.maxHoldingDays
    have hlt := h.holding
    have hone := hsold.holding
    omega

/-- A sale that leaves the other positions alone. -/
theorem Shaped.close (h : Shaped c rows day ledger) (hend : day ≤ c.run.endDate)
    (hget : ledger.state.positions.get? symbol = some position) {sold : OpenPosition}
    (hsold : SameHolding position sold) (raw : ℚ) (reason : BacktestExitReason)
    {before : Ledger} (hbefore : before.trades = ledger.trades)
    (hothers : ∀ other, other ≠ symbol →
      before.state.positions.get? other = ledger.state.positions.get? other) :
    Shaped c rows day (closePosition c before symbol sold day raw reason) := by
  obtain ⟨t, htrades, hwell, hsymbol, hentry, hexit⟩ := (h.positions symbol position hget).sell hend
    (h.named symbol position hget) hsold before raw reason
  have hrest : ∀ other p, (closePosition c before symbol sold day raw
      reason).state.positions.get? other = some p →
      other ≠ symbol ∧ ledger.state.positions.get? other = some p :=
    Dict.forall_get?_erase_iff.mpr fun other p hne hp => ⟨hne, hothers other hne ▸ hp⟩
  rw [hbefore] at htrades
  constructor
  case named => exact fun other p hp => h.named other p (hrest other p hp).2
  case positions => exact fun other p hp => h.positions other p (hrest other p hp).2
  case trades =>
    rw [htrades]
    exact forall_mem_concat h.trades hwell
  case past =>
    rw [htrades]
    exact forall_mem_concat h.past hexit.le
  case reentry =>
    rw [htrades]
    refine forall_mem_concat (fun u hu p hp => h.reentry u hu p (hrest _ p hp).2) fun p hp => ?_
    exact absurd hsymbol (hrest t.symbol p hp).1
  case order =>
    rw [htrades]
    refine List.pairwise_append.mpr ⟨h.order, List.pairwise_singleton _ _, ?_⟩
    intro u hu v hv hsymbols
    obtain rfl := List.mem_singleton.mp hv
    rw [hentry]
    exact h.reentry u hu position (by rw [hsymbols, hsymbol, hget])

theorem Shaped.open (hload : Loaded c rows symbols) (h : Shaped c rows day ledger)
    (hlimit : 1 ≤ c.p.trading.maxHoldingDays) {signal : BacktestSignal}
    (hsignal : signal ∈ c.entries day) {bar : DailyBar} {quantity : Nat}
    (hsize : sizeEntry c ledger.state signal.symbol (effectivePrice c bar) = (quantity, none)) :
    Shaped c rows day (openPosition c ledger signal day bar quantity) := by
  have hentry := entryDay?_isLeast (hload.entries day signal hsignal).2
  refine ⟨h.named.set rfl, ?_, h.trades, h.past, ?_, h.order⟩
  · exact Dict.forall_get?_set h.positions ⟨hentry, le_rfl, (sizeEntry_ok hsize).2.2, hlimit⟩
  · intro t ht p hp
    simp only [openPosition_eq, Dict.get?_set] at hp
    split at hp
    · rw [← Option.some.inj hp]
      exact h.past t ht
    · exact h.reentry t ht p hp

theorem Shaped.mark (h : Shaped c rows day ledger) (bars : Dict Symbol DailyBar) :
    Shaped c rows day (closeDay c day bars ledger) := by
  refine ⟨h.named.mark bars, ?_, h.trades, h.past, ?_, h.order⟩
  · refine Dict.forall_get?_mapValues_iff.mpr fun symbol position hposition => ?_
    obtain ⟨close, hmark⟩ := markPosition_eq bars symbol position
    obtain ⟨hentry, hpast, hone, hlimit⟩ := h.positions symbol position hposition
    rw [hmark]
    exact ⟨hentry, hpast, hone, hlimit⟩
  · intro t ht p hp
    simp only [closeDay_eq, Dict.get?_mapValues, Option.map_eq_some_iff] at hp
    obtain ⟨position, hposition, rfl⟩ := hp
    obtain ⟨close, hmark⟩ := markPosition_eq bars t.symbol position
    rw [hmark]
    exact h.reentry t ht position hposition

theorem shaped_keptOn (hload : Loaded c rows symbols) (hend : day ≤ c.run.endDate)
    (hlimit : 1 ≤ c.p.trading.maxHoldingDays) : KeptOn .unlimited c day (Shaped c rows day) where
  hold _ _ _ _ h hget _ hterms := h.hold hget (exitTerms_none hterms)
  exit ledger symbol position _ reason raw h hget _ _ := by
    refine h.close hend hget (.held position) raw reason rfl fun other hne => ?_
    simp [holdPosition, Dict.get?_set, hne]
  skip _ _ h := ⟨h.named, h.positions, h.trades, h.past, h.reentry, h.order⟩
  enter _ _ _ _ h hsignal _ hsize _ := h.open hload hlimit hsignal hsize
  liquidate _ _ position bar h hget _ _ :=
    h.close hend hget (.refl position) bar.close .endOfPeriod rfl fun _ _ => rfl

end Day

/-- A completed run has kept to its shape through every day of its calendar. -/
theorem runDays_shaped {c : Context} {rows : List DailyBarRecord} {symbols : List Symbol}
    (hload : Loaded c rows symbols) (hlimit : 1 ≤ c.p.trading.maxHoldingDays)
    {start ledger : Ledger} (hstart : ∀ day, Shaped c rows day start)
    (h : c.dates.foldlM (runDay c) start = .ok ledger) : ∃ day, Shaped c rows day ledger := by
  have hsorted := dates_pairwise hload
  have hrun := foldlM_prefix_invariant
    (fun pre (l : Ledger) => ∀ day, (∀ d ∈ pre, d ≤ day) → Shaped c rows day l) c.dates ?_ h
    fun day _ => hstart day
  · obtain ⟨day, hday⟩ : ∃ day, ∀ d ∈ c.dates, d ≤ day :=
      ⟨c.run.endDate, fun d hd => (mem_calendar.mp (hload.dates ▸ hd)).1.2⟩
    exact ⟨day, hrun day hday⟩
  · intro pre day post s t hdates hs hday later hlater
    have hmem : day ∈ c.dates := by simp [hdates]
    have hend := (mem_calendar.mp (hload.dates ▸ hmem)).1.2
    rw [hdates] at hsorted
    have hbefore : Shaped c rows day s :=
      hs day fun d hd => ((List.pairwise_append.mp hsorted).2.2 d hd day List.mem_cons_self).le
    obtain ⟨liquidated, hliquidated, rfl⟩ :=
      (shaped_keptOn hload hend hlimit).runDay hday hbefore
    exact (hliquidated.mark (c.bars day)).later (hlater day (by simp))

/-- **Every produced trade is well-formed,** in both modes, and no two are of one signal. The
holdings of one symbol follow each other: each is bought no earlier than the one before it in
the list was sold. -/
theorem trades_wellFormed {run : RunRequest} {generated : List BacktestSignal}
    {rows : List DailyBarRecord} {uuid4 : Nat → UUID} (hdistinct : generated.Nodup) :
    (∀ x, executeIndependent run generated rows uuid4 = .ok x →
      (∀ t ∈ x.trades, WellFormed run rows x.p.maxHoldingDays t) ∧
        (x.trades.map BacktestTrade.signal).Nodup) ∧
      ∀ execution, executePortfolio run generated rows uuid4 = .ok execution →
        (∀ t ∈ execution.ledger.trades,
          WellFormed run rows execution.context.p.trading.maxHoldingDays t) ∧
        (execution.ledger.trades.map BacktestTrade.signal).Nodup ∧
        execution.ledger.trades.Pairwise fun t u => t.symbol = u.symbol →
          t.exitDate ≤ u.entryDate := by
  constructor
  · intro x hx
    refine ⟨independent_wellFormed hx, ?_⟩
    have hsignals : (generated.insertionSort BacktestSignal.le).Nodup :=
      (List.perm_insertionSort _ _).nodup_iff.mpr hdistinct
    exact hsignals.sublist (executeIndependent_ok hx).simulated.order
  · intro execution h
    have hcompleted := executePortfolio_ok h
    have hdays := hcompleted.days
    rw [hcompleted.start] at hdays
    obtain ⟨day, hshaped⟩ := runDays_shaped (execution_loaded h) hcompleted.accepted.trading.holding
      (fun day => by constructor <;> simp [Ledger.start, Named]) hdays
    obtain rfl := hcompleted.run_eq
    exact ⟨hshaped.trades, trades_nodup hdistinct h, hshaped.order⟩

/-- Three trades, one of them bought and sold on the final day. -/
theorem trades_wellFormed_sample :
    ∃ execution, executePortfolio sampleRun sampleSignals sampleBars id = .ok execution ∧
      (execution.ledger.trades.map BacktestTrade.signal).Nodup ∧
      ∀ t ∈ execution.ledger.trades,
        WellFormed sampleRun sampleBars execution.context.p.trading.maxHoldingDays t := by
  obtain ⟨execution, h⟩ := sampleRun_completes
  obtain ⟨hshape, hdistinct, -⟩ := (trades_wellFormed (by decide)).2 execution h
  exact ⟨execution, h, hdistinct, hshape⟩

end Screener.Backtest
