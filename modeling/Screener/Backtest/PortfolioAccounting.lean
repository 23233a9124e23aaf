import Screener.Backtest.PortfolioRules

/-!
# The accounting identity of a portfolio run

Cash plus the cost of what is held is the initial capital plus the realized
profit, after every event of every completed run: a buy moves its cost from one
side to the other, a sale books exactly the difference. The final day empties
the book, so at the end all money is cash.
-/

namespace Screener.Backtest

open Screener.Lib
open Screener.Market (Date Symbol DailyBarRecord)

variable {c : Context}

/-! ## What the journal says of the money -/

/-- The unrounded profit booked by a closing event. -/
def Event.closedNet? : Event → Option ℚ
  | .closed _ _ _ net _ => some net
  | _ => none

/-- The unrounded equity of a day's snapshot. -/
def Event.markedEquity? : Event → Option ℚ
  | .marked _ _ _ equity _ => some equity
  | _ => none

/-- The identity at one event; a mark states the two readings of its equity. -/
def Event.Balanced (capital : ℚ) : Event → Prop
  | .closed _ _ _ _ after => after.cash + after.costs = capital + after.realizedPnl
  | .opened _ _ _ after => after.cash + after.costs = capital + after.realizedPnl
  | .marked _ market unrealized equity after =>
    market = after.market ∧ unrealized = after.unrealized ∧ equity = after.cash + market ∧
      equity = capital + after.realizedPnl + unrealized

/-- The invariant behind `accounting_identity`; the last two fields tie the
journal to the trades and snapshots that are stored. -/
structure Accounts (capital : ℚ) (ledger : Ledger) : Prop where
  identity : ledger.state.cash + ledger.state.costs = capital + ledger.state.realizedPnl
  realized : ledger.state.realizedPnl = (ledger.journal.filterMap Event.closedNet?).sum
  events : ∀ e ∈ ledger.journal, e.Balanced capital
  trades : ledger.trades.map (·.netPnl) = (ledger.journal.filterMap Event.closedNet?).map quantize
  snapshots : ledger.snapshots.map (·.totalEquity) =
    (ledger.journal.filterMap Event.markedEquity?).map quantize

/-- What the open positions have gained is what they are worth beyond their costs. -/
theorem unrealized_eq (s : PortfolioState) : s.unrealized = s.market - s.costs := by
  have hsub := Dict.sum_sub (fun _ p => p.marketValue) (fun _ p => p.cost) s.positions
  exact hsub

/-- The equity is the capital with all profits, booked and not. -/
theorem Accounts.unrealized {capital : ℚ} {ledger : Ledger} (h : Accounts capital ledger) :
    ledger.state.unrealized = ledger.state.equity - capital - ledger.state.realizedPnl := by
  have hidentity := h.identity
  rw [unrealized_eq, PortfolioState.equity]
  linarith

theorem costs_erase {s : PortfolioState} {symbol : Symbol} {position : OpenPosition}
    (h : s.positions.get? symbol = some position) :
    (s.positions.erase symbol).sum (fun _ p => p.cost) = s.costs - position.cost := by
  have := Dict.sum_erase (fun _ p => p.cost) h
  rw [PortfolioState.costs, ← this]
  ring

theorem costs_hold {ledger : Ledger} {symbol : Symbol} {position : OpenPosition}
    (h : ledger.state.positions.get? symbol = some position) :
    (holdPosition ledger symbol position).state.costs = ledger.state.costs := by
  have := Dict.sum_set_of_get? (fun _ p => p.cost) h position.held
  exact add_right_cancel this

theorem costs_mark (s : PortfolioState) (bars : Dict Symbol DailyBar) :
    (s.positions.mapValues (markPosition bars)).sum (fun _ p => p.cost) = s.costs := by
  rw [Dict.sum_mapValues]
  congr 1
  funext symbol position
  obtain ⟨close, hmark⟩ := markPosition_eq bars symbol position
  rw [hmark]
  rfl

theorem Accounts.close {capital : ℚ} {ledger : Ledger} {symbol : Symbol} {position : OpenPosition}
    (h : Accounts capital ledger) (hget : ledger.state.positions.get? symbol = some position)
    (day : Date) (raw : ℚ) (reason : BacktestExitReason) :
    Accounts capital (closePosition c ledger symbol position day raw reason) := by
  have hidentity : (closePosition c ledger symbol position day raw reason).state.cash +
      (closePosition c ledger symbol position day raw reason).state.costs =
      capital + (closePosition c ledger symbol position day raw reason).state.realizedPnl := by
    rw [PortfolioState.costs, closePosition_cash, closePosition_positions,
      closePosition_realizedPnl, costs_erase hget, netProfit_eq]
    linarith [h.identity]
  constructor
  · exact hidentity
  · rw [closePosition_realizedPnl, closePosition_journal, List.filterMap_append, List.sum_append,
      h.realized]
    simp [Event.closedNet?]
  · rw [closePosition_journal]
    exact forall_mem_concat h.events hidentity
  · rw [closePosition_journal, List.filterMap_append, List.map_append, ← h.trades]
    simp [closePosition_eq, Event.closedNet?, netProfit]
  · rw [closePosition_journal, List.filterMap_append, List.map_append, ← h.snapshots]
    simp [closePosition_eq, Event.markedEquity?]

theorem Accounts.open {capital : ℚ} {ledger : Ledger} {signal : BacktestSignal}
    (h : Accounts capital ledger) (hnew : signal.symbol ∉ ledger.state.positions.keys) (day : Date)
    (bar : DailyBar) (quantity : Nat) :
    Accounts capital (openPosition c ledger signal day bar quantity) := by
  have hidentity : (openPosition c ledger signal day bar quantity).state.cash +
      (openPosition c ledger signal day bar quantity).state.costs =
      capital + (openPosition c ledger signal day bar quantity).state.realizedPnl := by
    simp only [openPosition_eq, PortfolioState.costs]
    rw [Dict.sum_set_of_not_mem _ hnew, OpenPosition.cost]
    have hid := h.identity
    rw [PortfolioState.costs] at hid
    simp only [requiredCash]
    linarith
  constructor
  · exact hidentity
  · have hjournal : (openPosition c ledger signal day bar quantity).journal.filterMap
        Event.closedNet? = ledger.journal.filterMap Event.closedNet? := by
      simp [openPosition_eq, Event.closedNet?]
    rw [hjournal]
    exact h.realized
  · exact forall_mem_concat h.events hidentity
  · simp only [openPosition_eq, List.filterMap_append, h.trades]
    simp [Event.closedNet?]
  · simp only [openPosition_eq, List.filterMap_append, h.snapshots]
    simp [Event.markedEquity?]

theorem Accounts.mark {capital : ℚ} {ledger : Ledger} (h : Accounts capital ledger) (day : Date)
    (bars : Dict Symbol DailyBar) : Accounts capital (closeDay c day bars ledger) := by
  have hcosts : (closeDay c day bars ledger).state.costs = ledger.state.costs :=
    costs_mark ledger.state bars
  have hidentity : (closeDay c day bars ledger).state.cash +
      (closeDay c day bars ledger).state.costs =
      capital + (closeDay c day bars ledger).state.realizedPnl := by
    rw [hcosts]
    exact h.identity
  constructor
  · exact hidentity
  · have hjournal : (closeDay c day bars ledger).journal.filterMap Event.closedNet? =
        ledger.journal.filterMap Event.closedNet? := by
      simp [closeDay_eq, Event.closedNet?]
    rw [hjournal]
    exact h.realized
  · rw [closeDay_journal]
    refine forall_mem_concat h.events ⟨rfl, rfl, rfl, ?_⟩
    have hunrealized := unrealized_eq (closeDay c day bars ledger).state
    show (closeDay c day bars ledger).state.cash + (closeDay c day bars ledger).state.market =
      capital + (closeDay c day bars ledger).state.realizedPnl +
        (closeDay c day bars ledger).state.unrealized
    linarith
  · simp only [closeDay_eq, List.filterMap_append, h.trades]
    simp [Event.closedNet?]
  · simp only [closeDay_eq, List.filterMap_append, List.map_append, h.snapshots]
    simp [Event.markedEquity?]

theorem accounts_kept (capital : ℚ) : Kept .unlimited c (Accounts capital) where
  hold ledger symbol position h hget := by
    have hcosts := costs_hold hget
    refine ⟨?_, h.realized, h.events, h.trades, h.snapshots⟩
    rw [hcosts]
    exact h.identity
  exit _ _ _ day _ reason raw h hget _ _ := h.close hget day raw reason
  skip _ _ h := ⟨h.identity, h.realized, h.events, h.trades, h.snapshots⟩
  enter _ _ day bar quantity h _ hsize _ := h.open (sizeEntry_ok hsize).1 day bar quantity
  liquidate _ _ _ day bar h hget _ := h.close hget day bar.close .endOfPeriod
  mark _ day h := h.mark day (c.bars day)

/-! ## The final day empties the book -/

theorem mem_symbols {s : PortfolioState} {symbol : Symbol} :
    symbol ∈ s.symbols ↔ symbol ∈ s.positions.keys := by
  simp [PortfolioState.symbols]

theorem exitTerms_final (position : OpenPosition) (bar : DailyBar) (p : BacktestParameters) :
    exitTerms position bar p true = some (.endOfPeriod, bar.close) := rfl

/-- On the final day every open position exits, with or without a bar. -/
theorem exitPhase_final {ledger ledger' : Ledger} {day : Date} (hfinal : c.final day = true)
    (h : exitPhase c ledger day = .ok ledger') : ledger'.state.positions = Dict.empty := by
  have hkeys := foldlM_prefix_invariant
    (fun pre (l : Ledger) => ∀ symbol ∈ l.state.positions.keys,
      symbol ∈ ledger.state.symbols ∧ symbol ∉ pre) _ ?_ h
    (fun symbol hmem => ⟨mem_symbols.mpr hmem, List.not_mem_nil⟩)
  · apply Dict.eq_empty_of_keys
    rw [List.eq_nil_iff_forall_not_mem]
    intro symbol hmem
    exact (hkeys symbol hmem).2 (hkeys symbol hmem).1
  · intro pre x post s t _ hI hst symbol hmem
    obtain ⟨position, hget, ⟨hbar, -⟩ | ⟨bar, -, ⟨hterms, -⟩ | ⟨reason, raw, -, rfl⟩⟩⟩ :=
      exitOne_cases hst
    · unfold exitBar at hbar
      split at hbar
      · simp at hbar
      · simp [hfinal] at hbar
    · simp [hfinal, exitTerms_final] at hterms
    · rw [closePosition_positions, Dict.mem_keys_erase] at hmem
      have hold := Dict.mem_keys_set.mp hmem.1
      have hprev : symbol ∈ s.state.positions.keys := hold.resolve_left hmem.2
      refine ⟨(hI symbol hprev).1, ?_⟩
      simp only [List.mem_append, List.mem_singleton, not_or]
      exact ⟨(hI symbol hprev).2, hmem.2⟩

/-- Whatever was entered on a day since the book was empty carries its date. -/
theorem entryPhase_dates {ledger ledger' : Ledger} {day : Date}
    (hempty : ledger.state.positions = Dict.empty) (h : entryPhase c ledger day = .ok ledger') :
    ∀ symbol position, ledger'.state.positions.get? symbol = some position →
      position.entryDate = day := by
  refine foldlM_invariant (fun l : Ledger => ∀ symbol position,
    l.state.positions.get? symbol = some position → position.entryDate = day) ?_ h ?_
  · intro signal _ s t hI hst
    obtain ⟨bar, -, ⟨reason, -, rfl⟩ | ⟨quantity, -, -, rfl⟩⟩ := enterOne_cases hst
    · exact hI
    · exact Dict.forall_get?_set hI rfl
  · simp [hempty]

/-- Forced liquidation closes what was entered that day, so nothing stays open. -/
theorem liquidationPhase_final {ledger ledger' : Ledger} {day : Date} (hfinal : c.final day = true)
    (hdates : ∀ symbol position, ledger.state.positions.get? symbol = some position →
      position.entryDate = day)
    (h : liquidationPhase c ledger day = .ok ledger') : ledger'.state.positions = Dict.empty := by
  rw [liquidationPhase_eq, if_pos hfinal] at h
  have hkeys := foldlM_prefix_invariant
    (fun pre (l : Ledger) => ∀ symbol position, l.state.positions.get? symbol = some position →
      position.entryDate = day ∧ symbol ∈ ledger.state.symbols ∧ symbol ∉ pre) _ ?_ h
    (fun symbol position hget => ⟨hdates symbol position hget,
      mem_symbols.mpr (Dict.mem_keys_of_get? hget), List.not_mem_nil⟩)
  · apply Dict.eq_empty_of_keys
    rw [List.eq_nil_iff_forall_not_mem]
    intro symbol hmem
    obtain ⟨position, hget⟩ := Dict.mem_keys.mp hmem
    obtain ⟨-, hin, hout⟩ := hkeys symbol position hget
    exact hout hin
  · intro pre x post s t _ hI hst symbol position hget
    obtain ⟨other, hother, ⟨hne, -⟩ | ⟨-, bar, -, rfl⟩⟩ := liquidateOne_cases hst
    · exact absurd (hI x other hother).1 hne
    · rw [closePosition_positions, Dict.get?_erase] at hget
      split at hget
      · simp at hget
      · rename_i hx
        obtain ⟨hdate, hin, hout⟩ := hI symbol position hget
        refine ⟨hdate, hin, ?_⟩
        simp only [List.mem_append, List.mem_singleton, not_or]
        exact ⟨hout, hx⟩

theorem runDay_final {ledger ledger' : Ledger} {day : Date} (hfinal : c.final day = true)
    (h : runDay c ledger day = .ok ledger') : ledger'.state.positions = Dict.empty := by
  obtain ⟨exited, entered, liquidated, hexit, hentry, hliq, rfl⟩ := runDay_ok.mp h
  have hempty := liquidationPhase_final hfinal
    (entryPhase_dates (exitPhase_final hfinal hexit) hentry) hliq
  simp only [closeDay_eq, hempty]
  rfl

/-- A completed run over its whole calendar leaves no position open. -/
theorem runDays_empty {ledger : Ledger} {start : Ledger}
    (hstart : start.state.positions = Dict.empty)
    (h : c.dates.foldlM (runDay c) start = .ok ledger) : ledger.state.positions = Dict.empty := by
  rcases List.eq_nil_or_concat c.dates with hnil | ⟨init, last, hlast⟩
  · rw [hnil, foldlM_nil_ok] at h
    rw [← h]
    exact hstart
  · rw [List.concat_eq_append] at hlast
    have hfinal : c.final last = true := by simp [Context.final, hlast]
    rw [hlast, foldlM_append_ok] at h
    obtain ⟨middle, -, hday⟩ := h
    obtain ⟨after, hday, hdone⟩ := foldlM_cons_ok.mp hday
    rw [foldlM_nil_ok] at hdone
    rw [← hdone]
    exact runDay_final hfinal hday

section Execution

variable {run : RunRequest} {generated : List BacktestSignal} {dailyBars : List DailyBarRecord}
  {uuid4 : Nat → UUID} {execution : PortfolioExecution}

theorem executePortfolio_accounts
    (h : executePortfolio run generated dailyBars uuid4 = .ok execution) :
    Accounts execution.context.p.initialCapital execution.ledger := by
  apply Kept.execute h (accounts_kept _)
  intro skips _
  constructor <;> simp [Ledger.start, PortfolioState.costs]

theorem executePortfolio_empty
    (h : executePortfolio run generated dailyBars uuid4 = .ok execution) :
    execution.ledger.state.positions = Dict.empty := by
  have hcompleted := executePortfolio_ok h
  have hstart : execution.start.state.positions = Dict.empty := by
    rw [hcompleted.start]
    rfl
  exact runDays_empty hstart hcompleted.days

/-- At the end all equity is cash. -/
theorem executePortfolio_equity
    (h : executePortfolio run generated dailyBars uuid4 = .ok execution) :
    execution.ledger.state.cash = execution.ledger.state.equity := by
  simp [PortfolioState.equity, PortfolioState.market, executePortfolio_empty h]

theorem executePortfolio_cash (h : executePortfolio run generated dailyBars uuid4 = .ok execution) :
    execution.ledger.state.cash = execution.context.p.initialCapital +
      (execution.ledger.journal.filterMap Event.closedNet?).sum := by
  have hid := (executePortfolio_accounts h).identity
  rw [(executePortfolio_accounts h).realized] at hid
  simpa [PortfolioState.costs, executePortfolio_empty h] using hid

end Execution

/-- **The accounting identity.** In every completed portfolio run each closing
and opening event leaves cash plus costs at initial capital plus realized
profit, each mark reads the same equity both ways, and at the end nothing is
open: all equity is cash, namely the capital plus the unrounded profits of all
trades. The stored trades and snapshots are the journal's, quantized. -/
theorem accounting_identity {run : RunRequest} {generated : List BacktestSignal}
    {dailyBars : List DailyBarRecord} {uuid4 : Nat → UUID} {execution : PortfolioExecution}
    (h : executePortfolio run generated dailyBars uuid4 = .ok execution) :
    let capital := execution.context.p.initialCapital
    let nets := execution.ledger.journal.filterMap Event.closedNet?
    (∀ e ∈ execution.ledger.journal, e.Balanced capital) ∧
      execution.ledger.state.positions = Dict.empty ∧
      execution.ledger.state.cash = execution.ledger.state.equity ∧
      execution.ledger.state.cash = capital + nets.sum ∧
      execution.ledger.trades.map (·.netPnl) = nets.map quantize ∧
      execution.ledger.snapshots.map (·.totalEquity) =
        (execution.ledger.journal.filterMap Event.markedEquity?).map quantize := by
  have hacc := executePortfolio_accounts h
  exact ⟨hacc.events, executePortfolio_empty h, executePortfolio_equity h, executePortfolio_cash h,
    hacc.trades, hacc.snapshots⟩

/-! ## A run with a gap, a carried mark and a final-day entry -/

def sampleParameters : Dict String Value :=
  ⟨[("execution_mode", .str "portfolio"), ("initial_capital", .int 1000),
    ("max_open_positions", .int 2), ("position_sizing_mode", .str "fixed_fraction"),
    ("position_size_pct", .str "0.5"), ("minimum_cash_buffer_pct", .int 0)], by decide⟩

def sampleRun : RunRequest := ⟨1, 10, 12, sampleParameters⟩

def sampleBars : List DailyBarRecord :=
  [⟨"A", 10, 100, 101, 99, 100, 5⟩, ⟨"A", 11, 100, 120, 96, 118, 5⟩, ⟨"B", 11, 50, 51, 49, 50, 5⟩,
   ⟨"C", 12, 20, 22, 19, 21, 5⟩]

def sampleSignals : List BacktestSignal := [⟨"C", 10⟩, ⟨"A", 9⟩, ⟨"B", 10⟩, ⟨"A", 11⟩]

theorem sampleRun_completes :
    ∃ execution, executePortfolio sampleRun sampleSignals sampleBars id = .ok execution :=
  exists_ok (show (executePortfolio sampleRun sampleSignals sampleBars id).toBool = true by
    decide +kernel)

theorem accounting_identity_sample :
    ∃ execution, executePortfolio sampleRun sampleSignals sampleBars id = .ok execution ∧
      execution.ledger.state.cash = execution.context.p.initialCapital +
        (execution.ledger.journal.filterMap Event.closedNet?).sum := by
  obtain ⟨execution, h⟩ := sampleRun_completes
  exact ⟨execution, h, (accounting_identity h).2.2.2.1⟩

end Screener.Backtest
