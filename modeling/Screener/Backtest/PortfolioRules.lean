import Screener.Backtest.PortfolioExact

/-!
# What the day loop can do to the ledger

One inversion lemma for each loop body, and from them the invariant rule of the
whole run: a property of ledgers that holding, closing, opening, skipping and
marking keep is kept by every day and so by `executePortfolio`. All of it is proved
in any decimal context; the lemmas for exact arithmetic are the case without a limit.
-/

namespace Screener.Backtest

open Screener.Lib
open Screener.Market (Date Symbol DailyBarRecord)

variable {d : DecimalContext} {c : Context}

/-! ## Inversion -/

namespace DecimalContext

theorem closePosition_ok {ledger ledger' : Ledger} {symbol : Symbol} {position : OpenPosition}
    {day : Date} {raw : ℚ} {reason : BacktestExitReason} :
    d.closePosition c ledger symbol position day raw reason = .ok ledger' ↔
      d.AmountsFit (d.saleAmounts c position raw) ∧
        d.soldLedger c ledger symbol position day raw reason = ledger' := by
  unfold closePosition
  split <;> simp [*]

theorem closeDay_ok {day : Date} {bars : Dict Symbol DailyBar} {ledger ledger' : Ledger} :
    d.closeDay c day bars ledger = .ok ledger' ↔
      (∀ amount ∈ (d.snapshotAmounts c (d.closedState bars ledger.state)).values, d.Fits amount) ∧
        d.closedLedger c day bars ledger = ledger' := by
  unfold closeDay
  split
  · next hfit => exact ⟨fun h => ⟨hfit, Except.ok.inj h⟩, fun h => congrArg Except.ok h.2⟩
  · next hfit => exact ⟨nofun, fun h => absurd h.1 hfit⟩

theorem exitOne_cases {day : Date} {bars : Dict Symbol DailyBar} {final : Bool}
    {ledger ledger' : Ledger} {symbol : Symbol}
    (h : d.exitOne c day bars final ledger symbol = .ok ledger') :
    ∃ position, ledger.state.positions.get? symbol = some position ∧
      ((exitBar bars final day symbol position = none ∧ ledger' = ledger) ∨
        ∃ bar, exitBar bars final day symbol position = some bar ∧
          ((d.exitTerms position.held bar c.p.trading final = none ∧
              ledger' = holdPosition ledger symbol position) ∨
            ∃ reason raw, d.exitTerms position.held bar c.p.trading final = some (reason, raw) ∧
              d.AmountsFit (d.saleAmounts c position.held raw) ∧
              ledger' = d.soldLedger c (holdPosition ledger symbol position) symbol position.held
                day raw reason)) := by
  unfold exitOne at h
  cases hp : ledger.state.positions.get? symbol with
  | none => simp [hp] at h
  | some position =>
    refine ⟨position, rfl, ?_⟩
    simp only [hp] at h
    cases hb : exitBar bars final day symbol position with
    | none =>
      simp only [hb, Except.ok.injEq] at h
      exact .inl ⟨rfl, h.symm⟩
    | some bar =>
      refine .inr ⟨bar, rfl, ?_⟩
      simp only [hb] at h
      cases ht : d.exitTerms position.held bar c.p.trading final with
      | none =>
        simp only [ht, Except.ok.injEq] at h
        exact .inl ⟨rfl, h.symm⟩
      | some terms =>
        simp only [ht] at h
        obtain ⟨hfit, hsold⟩ := closePosition_ok.mp h
        exact .inr ⟨terms.1, terms.2, rfl, hfit, hsold.symm⟩

theorem enterOne_cases {day : Date} {bars : Dict Symbol DailyBar} {ledger ledger' : Ledger}
    {signal : BacktestSignal} (h : d.enterOne c day bars ledger signal = .ok ledger') :
    ∃ bar, bars.get? signal.symbol = some bar ∧
      ((∃ reason, (∀ quantity,
            d.sizeEntry c ledger.state signal.symbol (d.effectivePrice c bar) = (quantity, none) →
              ledger.state.cash < d.requiredCash c (d.effectivePrice c bar) quantity) ∧
          ledger' = ledger.skip reason) ∨
        ∃ quantity,
          d.sizeEntry c ledger.state signal.symbol (d.effectivePrice c bar) = (quantity, none) ∧
          d.requiredCash c (d.effectivePrice c bar) quantity ≤ ledger.state.cash ∧
          ledger' = d.openPosition c ledger signal day bar quantity) := by
  unfold enterOne at h
  cases hb : bars.get? signal.symbol with
  | none => simp [hb] at h
  | some bar =>
    refine ⟨bar, rfl, ?_⟩
    simp only [hb] at h
    split at h
    · rename_i reason hsize
      simp only [Except.ok.injEq] at h
      refine .inl ⟨reason, fun quantity hsized => ?_, h.symm⟩
      simp [hsize] at hsized
    · rename_i quantity hsize
      split at h
      · rename_i hcash
        simp only [Except.ok.injEq] at h
        refine .inl ⟨.insufficientCash, fun sized hsized => ?_, h.symm⟩
        obtain ⟨rfl, -⟩ := Prod.mk.inj (hsize.symm.trans hsized)
        exact hcash
      · rename_i hcash
        simp only [Except.ok.injEq] at h
        exact .inr ⟨quantity, hsize, not_lt.mp hcash, h.symm⟩

theorem liquidateOne_cases {day : Date} {bars : Dict Symbol DailyBar} {ledger ledger' : Ledger}
    {symbol : Symbol} (h : d.liquidateOne c day bars ledger symbol = .ok ledger') :
    ∃ position, ledger.state.positions.get? symbol = some position ∧
      ((position.entryDate ≠ day ∧ ledger' = ledger) ∨
        (position.entryDate = day ∧ ∃ bar, bars.get? symbol = some bar ∧
          d.AmountsFit (d.saleAmounts c position bar.close) ∧
          ledger' = d.soldLedger c ledger symbol position day bar.close .endOfPeriod)) := by
  unfold liquidateOne at h
  cases hp : ledger.state.positions.get? symbol with
  | none => simp [hp] at h
  | some position =>
    refine ⟨position, rfl, ?_⟩
    simp only [hp] at h
    split at h
    · rename_i hday
      cases hb : bars.get? symbol with
      | none => simp [hb] at h
      | some bar =>
        simp only [hb] at h
        obtain ⟨hfit, hsold⟩ := closePosition_ok.mp h
        exact .inr ⟨hday, bar, rfl, hfit, hsold.symm⟩
    · rename_i hday
      simp only [Except.ok.injEq] at h
      exact .inl ⟨hday, h.symm⟩

theorem runDay_ok {ledger ledger' : Ledger} {day : Date} :
    d.runDay c ledger day = .ok ledger' ↔
      ∃ exited entered liquidated, d.exitPhase c ledger day = .ok exited ∧
        d.entryPhase c exited day = .ok entered ∧
        d.liquidationPhase c entered day = .ok liquidated ∧
        d.closeDay c day (c.bars day) liquidated = .ok ledger' := by
  simp only [runDay, bind_ok]
  constructor
  · rintro ⟨a, ha, b, hb, e, he, hclose⟩
    exact ⟨a, b, e, ha, hb, he, hclose⟩
  · rintro ⟨a, b, e, ha, hb, he, hclose⟩
    exact ⟨a, ha, b, hb, e, he, hclose⟩

end DecimalContext

theorem create_ok {capital : ℚ} {state : PortfolioState} :
    PortfolioState.create capital = .ok state ↔
      0 < capital ∧ state = ⟨capital, capital, capital, 0, Dict.empty⟩ := by
  unfold PortfolioState.create
  split
  · next hcap => simp [not_lt.mpr hcap]
  · next hcap => simp [not_le.mp hcap, eq_comm]

/-- The stages of a run up to its write, each with what it has read. -/
structure DecimalContext.Completed (d : DecimalContext) (run : RunRequest)
    (generated : List BacktestSignal) (dailyBars : List DailyBarRecord) (x : PortfolioRun) :
    Prop where
  parameters : PortfolioParameters.parse run.parameters = .ok x.context.p
  run_eq : x.context.run = run
  dates : x.context.dates = calendar run dailyBars
  index : indexBars (loadBars run dailyBars
    (signalSymbols (generated.insertionSort BacktestSignal.le))) = .ok x.context.byDate
  schedule : scheduleSignals x.context.dates x.context.byDate
    (generated.insertionSort BacktestSignal.le) = .ok (x.context.entryEvents, x.start.skips)
  capital : 0 < x.context.p.initialCapital
  start : x.start = Ledger.start ⟨x.context.p.initialCapital, x.context.p.initialCapital,
    x.context.p.initialCapital, 0, Dict.empty⟩ x.start.skips
  days : x.context.dates.foldlM (d.runDay x.context) x.start = .ok x.ledger
  total : x.totalSignals = generated.length

theorem DecimalContext.executePortfolio_ok {run : RunRequest} {generated : List BacktestSignal}
    {dailyBars : List DailyBarRecord} {uuid4 : Nat → UUID} {x : PortfolioRun}
    (h : d.executePortfolio run generated dailyBars uuid4 = .ok x) :
    d.Completed run generated dailyBars x := by
  simp only [DecimalContext.executePortfolio, bind_ok, pure_ok] at h
  obtain ⟨p, hp, byDate, hindex, ⟨entryEvents, skips⟩, hschedule, state, hstate, ledger, hrun,
    rfl⟩ :=
    h
  obtain ⟨hcapital, rfl⟩ := create_ok.mp hstate
  exact ⟨hp, rfl, rfl, hindex, hschedule, hcapital, rfl, hrun, List.length_insertionSort _ _⟩

theorem DecimalContext.Completed.accepted {run : RunRequest} {generated : List BacktestSignal}
    {dailyBars : List DailyBarRecord} {x : PortfolioRun}
    (h : d.Completed run generated dailyBars x) : x.context.p.Accepted :=
  PortfolioParameters.parse_accepted h.parameters

/-- A sized entry has a positive price and at least one share. -/
theorem DecimalContext.sizeEntry_ok {state : PortfolioState} {symbol : Symbol} {effective : ℚ}
    {quantity : Nat} (h : d.sizeEntry c state symbol effective = (quantity, none)) :
    symbol ∉ state.positions.keys ∧ 0 < effective ∧ 1 ≤ quantity := by
  unfold DecimalContext.sizeEntry at h
  split at h
  · simp at h
  · rename_i hslot
    have hnew : symbol ∉ state.positions.keys := by
      intro hmem
      rw [slotSkip, if_pos (Dict.contains_eq_true.mpr hmem)] at hslot
      simp at hslot
    simp only [DecimalContext.affordableQuantity] at h
    split_ifs at h with hprice hspend hzero
    all_goals simp only [Prod.mk.injEq, reduceCtorEq, and_false, and_true] at h
    exact ⟨hnew, not_le.mp hprice, h ▸ Nat.one_le_iff_ne_zero.mpr hzero⟩

/-! ## The open positions -/

theorem get?_holdPosition (ledger : Ledger) (symbol : Symbol) (position : OpenPosition) :
    (holdPosition ledger symbol position).state.positions.get? symbol = some position.held := by
  simp [holdPosition, Dict.get?_set]

/-- A mark changes nothing of a position but its last close. -/
theorem markPosition_eq (bars : Dict Symbol DailyBar) (symbol : Symbol) (position : OpenPosition) :
    ∃ close, markPosition bars symbol position = { position with lastClose := close } := by
  unfold markPosition
  split
  · exact ⟨_, rfl⟩
  · exact ⟨position.lastClose, rfl⟩

/-- Each position stands under the symbol of its signal. -/
def Named (positions : Dict Symbol OpenPosition) : Prop :=
  ∀ symbol position, positions.get? symbol = some position → position.signal.symbol = symbol

theorem Named.symbols {positions : Dict Symbol OpenPosition} (h : Named positions) :
    (positions.values.map (·.signal.symbol)).Nodup := by
  have hkeys : positions.values.map (·.signal.symbol) = positions.keys := by
    rw [Dict.values, Dict.keys, List.map_map]
    refine List.map_congr_left fun entry hentry => ?_
    exact h entry.1 entry.2 (Dict.get?_eq_some.mpr hentry)
  rw [hkeys]
  exact positions.keys_nodup

theorem Named.set {positions : Dict Symbol OpenPosition} (h : Named positions) {symbol : Symbol}
    {position : OpenPosition} (hsymbol : position.signal.symbol = symbol) :
    Named (positions.set symbol position) :=
  Dict.forall_get?_set h hsymbol

theorem Named.erase {positions : Dict Symbol OpenPosition} (h : Named positions) (symbol : Symbol) :
    Named (positions.erase symbol) :=
  Dict.forall_get?_erase h symbol

theorem Named.mark {positions : Dict Symbol OpenPosition} (h : Named positions)
    (bars : Dict Symbol DailyBar) : Named (positions.mapValues (markPosition bars)) := by
  refine Dict.forall_get?_mapValues_iff.mpr fun symbol position hget => ?_
  obtain ⟨close, hmark⟩ := markPosition_eq bars symbol position
  rw [hmark]
  exact h symbol position hget

/-! ## The invariant rule -/

/-- `I` is kept by each thing a loop body can do, under what it knows there. -/
structure Kept (d : DecimalContext) (c : Context) (I : Ledger → Prop) : Prop where
  hold : ∀ ledger symbol position, I ledger → ledger.state.positions.get? symbol = some position →
    I (holdPosition ledger symbol position)
  exit : ∀ ledger symbol position day bar reason raw, I ledger →
    ledger.state.positions.get? symbol = some position →
    exitBar (c.bars day) (c.final day) day symbol position = some bar →
    d.exitTerms position bar c.p.trading (c.final day) = some (reason, raw) →
    I (d.soldLedger c ledger symbol position day raw reason)
  skip : ∀ ledger reason, I ledger → I (ledger.skip reason)
  enter : ∀ ledger signal day bar quantity, I ledger →
    (c.bars day).get? signal.symbol = some bar →
    d.sizeEntry c ledger.state signal.symbol (d.effectivePrice c bar) = (quantity, none) →
    d.requiredCash c (d.effectivePrice c bar) quantity ≤ ledger.state.cash →
    I (d.openPosition c ledger signal day bar quantity)
  liquidate : ∀ ledger symbol position day bar, I ledger →
    ledger.state.positions.get? symbol = some position → (c.bars day).get? symbol = some bar →
    I (d.soldLedger c ledger symbol position day bar.close .endOfPeriod)
  mark : ∀ ledger day, I ledger → I (d.closedLedger c day (c.bars day) ledger)

/-- `I` is kept by each iteration of the loops of `day`, under all it knows there. -/
structure KeptOn (d : DecimalContext) (c : Context) (day : Date) (I : Ledger → Prop) : Prop where
  hold : ∀ ledger symbol position bar, I ledger →
    ledger.state.positions.get? symbol = some position →
    exitBar (c.bars day) (c.final day) day symbol position = some bar →
    d.exitTerms position.held bar c.p.trading (c.final day) = none →
    I (holdPosition ledger symbol position)
  exit : ∀ ledger symbol position bar reason raw, I ledger →
    ledger.state.positions.get? symbol = some position →
    exitBar (c.bars day) (c.final day) day symbol position = some bar →
    d.exitTerms position.held bar c.p.trading (c.final day) = some (reason, raw) →
    I (d.soldLedger c (holdPosition ledger symbol position) symbol position.held day raw reason)
  skip : ∀ ledger reason, I ledger → I (ledger.skip reason)
  enter : ∀ ledger signal bar quantity, I ledger → signal ∈ c.entries day →
    (c.bars day).get? signal.symbol = some bar →
    d.sizeEntry c ledger.state signal.symbol (d.effectivePrice c bar) = (quantity, none) →
    d.requiredCash c (d.effectivePrice c bar) quantity ≤ ledger.state.cash →
    I (d.openPosition c ledger signal day bar quantity)
  liquidate : ∀ ledger symbol position bar, I ledger →
    ledger.state.positions.get? symbol = some position → position.entryDate = day →
    (c.bars day).get? symbol = some bar →
    I (d.soldLedger c ledger symbol position day bar.close .endOfPeriod)

variable {I : Ledger → Prop} {day : Date} {ledger ledger' : Ledger}

theorem KeptOn.exitOne (hI : KeptOn d c day I) {symbol : Symbol}
    (h : d.exitOne c day (c.bars day) (c.final day) ledger symbol = .ok ledger') (hs : I ledger) :
    I ledger' := by
  obtain ⟨position, hget, ⟨-, rfl⟩ | ⟨bar, hbar, ⟨hterms, rfl⟩ | ⟨reason, raw, hterms, -, rfl⟩⟩⟩ :=
    DecimalContext.exitOne_cases h
  · exact hs
  · exact hI.hold ledger symbol position bar hs hget hbar hterms
  · exact hI.exit ledger symbol position bar reason raw hs hget hbar hterms

theorem KeptOn.enterOne (hI : KeptOn d c day I) {signal : BacktestSignal}
    (hsignal : signal ∈ c.entries day)
    (h : d.enterOne c day (c.bars day) ledger signal = .ok ledger') (hs : I ledger) :
    I ledger' := by
  obtain ⟨bar, hbar, ⟨reason, -, rfl⟩ | ⟨quantity, hsize, hcash, rfl⟩⟩ :=
    DecimalContext.enterOne_cases h
  · exact hI.skip ledger reason hs
  · exact hI.enter ledger signal bar quantity hs hsignal hbar hsize hcash

theorem KeptOn.liquidateOne (hI : KeptOn d c day I) {symbol : Symbol}
    (h : d.liquidateOne c day (c.bars day) ledger symbol = .ok ledger') (hs : I ledger) :
    I ledger' := by
  obtain ⟨position, hget, ⟨-, rfl⟩ | ⟨hdate, bar, hbar, -, rfl⟩⟩ :=
    DecimalContext.liquidateOne_cases h
  · exact hs
  · exact hI.liquidate ledger symbol position bar hs hget hdate hbar

theorem KeptOn.exitPhase (hI : KeptOn d c day I) (h : d.exitPhase c ledger day = .ok ledger')
    (hs : I ledger) : I ledger' :=
  foldlM_invariant I (fun _ _ _ _ hIs hst => hI.exitOne hst hIs) h hs

theorem KeptOn.entryPhase (hI : KeptOn d c day I) (h : d.entryPhase c ledger day = .ok ledger')
    (hs : I ledger) : I ledger' :=
  foldlM_invariant I (fun _ hsignal _ _ hIs hst => hI.enterOne hsignal hst hIs) h hs

theorem KeptOn.liquidationPhase (hI : KeptOn d c day I)
    (h : d.liquidationPhase c ledger day = .ok ledger') (hs : I ledger) : I ledger' := by
  unfold DecimalContext.liquidationPhase at h
  split at h
  · exact foldlM_invariant I (fun _ _ _ _ hIs hst => hI.liquidateOne hst hIs) h hs
  · simp only [Except.ok.injEq] at h
    exact h ▸ hs

/-- What the loops of the day keep, the day's marks find. -/
theorem KeptOn.runDay (hI : KeptOn d c day I) (h : d.runDay c ledger day = .ok ledger')
    (hs : I ledger) :
    ∃ liquidated, I liquidated ∧ d.closedLedger c day (c.bars day) liquidated = ledger' := by
  obtain ⟨exited, entered, liquidated, hexit, hentry, hliq, hclose⟩ :=
    DecimalContext.runDay_ok.mp h
  exact ⟨liquidated, hI.liquidationPhase hliq (hI.entryPhase hentry (hI.exitPhase hexit hs)),
    (DecimalContext.closeDay_ok.mp hclose).2⟩

theorem Kept.keptOn (hI : Kept d c I) (day : Date) : KeptOn d c day I where
  hold ledger symbol position _ h hget _ _ := hI.hold ledger symbol position h hget
  exit ledger symbol position bar reason raw h hget hbar hterms :=
    hI.exit _ symbol position.held day bar reason raw (hI.hold ledger symbol position h hget)
      (get?_holdPosition ledger symbol position) hbar hterms
  skip := hI.skip
  enter ledger signal bar quantity h _ hbar hsize hcash :=
    hI.enter ledger signal day bar quantity h hbar hsize hcash
  liquidate ledger symbol position bar h hget _ hbar :=
    hI.liquidate ledger symbol position day bar h hget hbar

theorem Kept.runDay (hI : Kept d c I) (h : d.runDay c ledger day = .ok ledger') (hs : I ledger) :
    I ledger' := by
  obtain ⟨liquidated, hliquidated, rfl⟩ := (hI.keptOn day).runDay h hs
  exact hI.mark liquidated day hliquidated

/-- A kept property that the starting ledger has, every later ledger has. -/
theorem Kept.runDays (hI : Kept d c I) {days : List Date}
    (h : days.foldlM (d.runDay c) ledger = .ok ledger') (hs : I ledger) : I ledger' :=
  foldlM_invariant I (fun _ _ _ _ hIs hst => hI.runDay hst hIs) h hs

/-- The rule for whole executions. -/
theorem Kept.completed {run : RunRequest} {generated : List BacktestSignal}
    {dailyBars : List DailyBarRecord} {x : PortfolioRun}
    (h : d.Completed run generated dailyBars x) (hI : Kept d x.context I)
    (hstart : ∀ skips, 0 < x.context.p.initialCapital →
      I (Ledger.start ⟨x.context.p.initialCapital, x.context.p.initialCapital,
        x.context.p.initialCapital, 0, Dict.empty⟩ skips)) :
    I x.ledger := by
  apply hI.runDays h.days
  rw [h.start]
  exact hstart x.start.skips h.capital

/-! ## Exact arithmetic -/

theorem exitOne_cases {bars : Dict Symbol DailyBar} {final : Bool} {symbol : Symbol}
    (h : exitOne c day bars final ledger symbol = .ok ledger') :
    ∃ position, ledger.state.positions.get? symbol = some position ∧
      ((exitBar bars final day symbol position = none ∧ ledger' = ledger) ∨
        ∃ bar, exitBar bars final day symbol position = some bar ∧
          ((exitTerms position.held bar c.p.trading final = none ∧
              ledger' = holdPosition ledger symbol position) ∨
            ∃ reason raw, exitTerms position.held bar c.p.trading final = some (reason, raw) ∧
              ledger' = closePosition c (holdPosition ledger symbol position) symbol position.held
                day raw reason)) := by
  obtain ⟨position, hget, hnone | ⟨bar, hbar, hheld | ⟨reason, raw, hterms, -, hsold⟩⟩⟩ :=
    DecimalContext.exitOne_cases h
  · exact ⟨position, hget, .inl hnone⟩
  · exact ⟨position, hget, .inr ⟨bar, hbar, .inl hheld⟩⟩
  · exact ⟨position, hget, .inr ⟨bar, hbar, .inr ⟨reason, raw, hterms, hsold⟩⟩⟩

theorem enterOne_cases {bars : Dict Symbol DailyBar} {signal : BacktestSignal}
    (h : enterOne c day bars ledger signal = .ok ledger') :
    ∃ bar, bars.get? signal.symbol = some bar ∧
      ((∃ reason, (∀ quantity,
            sizeEntry c ledger.state signal.symbol (effectivePrice c bar) = (quantity, none) →
              ledger.state.cash < requiredCash c (effectivePrice c bar) quantity) ∧
          ledger' = ledger.skip reason) ∨
        ∃ quantity,
          sizeEntry c ledger.state signal.symbol (effectivePrice c bar) = (quantity, none) ∧
          requiredCash c (effectivePrice c bar) quantity ≤ ledger.state.cash ∧
          ledger' = openPosition c ledger signal day bar quantity) :=
  DecimalContext.enterOne_cases h

theorem liquidateOne_cases {bars : Dict Symbol DailyBar} {symbol : Symbol}
    (h : liquidateOne c day bars ledger symbol = .ok ledger') :
    ∃ position, ledger.state.positions.get? symbol = some position ∧
      ((position.entryDate ≠ day ∧ ledger' = ledger) ∨
        (position.entryDate = day ∧ ∃ bar, bars.get? symbol = some bar ∧
          ledger' = closePosition c ledger symbol position day bar.close .endOfPeriod)) := by
  obtain ⟨position, hget, hother | ⟨hday, bar, hbar, -, hsold⟩⟩ :=
    DecimalContext.liquidateOne_cases h
  · exact ⟨position, hget, .inl hother⟩
  · exact ⟨position, hget, .inr ⟨hday, bar, hbar, hsold⟩⟩

theorem runDay_ok :
    runDay c ledger day = .ok ledger' ↔
      ∃ exited entered liquidated, exitPhase c ledger day = .ok exited ∧
        entryPhase c exited day = .ok entered ∧
        liquidationPhase c entered day = .ok liquidated ∧
        closeDay c day (c.bars day) liquidated = ledger' := by
  have hclose := fun liquidated => unlimited_closeDay c day (c.bars day) liquidated
  refine DecimalContext.runDay_ok.trans ?_
  simp only [hclose, Except.ok.injEq]
  rfl

theorem sizeEntry_ok {state : PortfolioState} {symbol : Symbol} {effective : ℚ} {quantity : Nat}
    (h : sizeEntry c state symbol effective = (quantity, none)) :
    symbol ∉ state.positions.keys ∧ 0 < effective ∧ 1 ≤ quantity :=
  DecimalContext.sizeEntry_ok h

/-- The stages of a completed execution, each with what it has read. -/
structure Completed (run : RunRequest) (generated : List BacktestSignal)
    (dailyBars : List DailyBarRecord) (execution : PortfolioExecution) : Prop extends
    DecimalContext.unlimited.Completed run generated dailyBars execution.toPortfolioRun where
  metrics : execution.metrics =
    portfolioMetrics execution.context.p generated.length execution.ledger

theorem executePortfolio_ok {run : RunRequest} {generated : List BacktestSignal}
    {dailyBars : List DailyBarRecord} {uuid4 : Nat → UUID} {execution : PortfolioExecution}
    (h : executePortfolio run generated dailyBars uuid4 = .ok execution) :
    Completed run generated dailyBars execution := by
  simp only [executePortfolio, unlimited_summarizePortfolio, bind_ok, pure_ok,
    Except.ok.injEq] at h
  obtain ⟨x, hx, _, rfl, rfl⟩ := h
  have hcompleted := DecimalContext.executePortfolio_ok hx
  exact ⟨hcompleted, by rw [hcompleted.total]⟩

/-- An execution whose stages complete completes. -/
theorem executePortfolio_of_stages {run : RunRequest} {generated : List BacktestSignal}
    {dailyBars : List DailyBarRecord} {uuid4 : Nat → UUID} {p : PortfolioParameters}
    {byDate : Dict Date (Dict Symbol DailyBar)} {schedule : Schedule} {state : PortfolioState}
    {ledger : Ledger} (hp : PortfolioParameters.parse run.parameters = .ok p)
    (hindex : indexBars (loadBars run dailyBars
      (signalSymbols (generated.insertionSort BacktestSignal.le))) = .ok byDate)
    (hschedule : scheduleSignals (calendar run dailyBars) byDate
      (generated.insertionSort BacktestSignal.le) = .ok schedule)
    (hstate : PortfolioState.create p.initialCapital = .ok state)
    (hrun : (calendar run dailyBars).foldlM
      (runDay ⟨run, p, calendar run dailyBars, byDate, schedule.1, uuid4⟩)
      (Ledger.start state schedule.2) = .ok ledger) :
    ∃ execution, executePortfolio run generated dailyBars uuid4 = .ok execution ∧
      execution.ledger = ledger := by
  refine ⟨⟨⟨⟨run, p, calendar run dailyBars, byDate, schedule.1, uuid4⟩,
    Ledger.start state schedule.2, ledger, (generated.insertionSort BacktestSignal.le).length⟩,
    portfolioMetrics p (generated.insertionSort BacktestSignal.le).length ledger⟩, ?_, rfl⟩
  simp only [executePortfolio, DecimalContext.executePortfolio, unlimited_summarizePortfolio,
    bind_ok, pure_ok, Except.ok.injEq]
  exact ⟨_, ⟨p, hp, byDate, hindex, schedule, hschedule, state, hstate, ledger, hrun, rfl⟩, _, rfl,
    rfl⟩

theorem KeptOn.closed (hI : KeptOn .unlimited c day I)
    (h : Backtest.runDay c ledger day = .ok ledger')
    (hs : I ledger) :
    ∃ liquidated, I liquidated ∧ closeDay c day (c.bars day) liquidated = ledger' :=
  hI.runDay h hs

theorem Kept.execute {run : RunRequest} {generated : List BacktestSignal}
    {dailyBars : List DailyBarRecord} {uuid4 : Nat → UUID} {execution : PortfolioExecution}
    (h : executePortfolio run generated dailyBars uuid4 = .ok execution)
    (hI : Kept .unlimited execution.context I)
    (hstart : ∀ skips, 0 < execution.context.p.initialCapital →
      I (Ledger.start ⟨execution.context.p.initialCapital, execution.context.p.initialCapital,
        execution.context.p.initialCapital, 0, Dict.empty⟩ skips)) :
    I execution.ledger :=
  hI.completed (executePortfolio_ok h).toCompleted hstart

end Screener.Backtest
