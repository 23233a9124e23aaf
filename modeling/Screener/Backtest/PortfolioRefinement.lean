import Screener.Backtest.ExitTriggers
import Screener.Backtest.PortfolioAccounting
import Screener.Backtest.PortfolioSchedule

/-!
# Portfolio mode against independent mode

While the portfolio run walks the calendar, each position it holds stands at one
point of the loop that simulates its signal alone: some later bars are passed
and have triggered nothing, the others are still to come. A sale other than the
forced one at the end is therefore the exit that the loop takes, and the other
way round.
-/

namespace Screener.Backtest

open Screener.Lib
open Screener.Market (Date Symbol DailyBarRecord)

/-! ## The scan and the exit rule -/

section Scan

variable {p : BacktestParameters} {position : OpenPosition} {bar : DailyBar}

/-- Where the rule of the event loop holds a position, the scan goes on. -/
theorem scan_quiet (h : exitTerms position bar p false = none) (tail : List DailyBar) :
    (exitRule p position.entryPrice).scan position.holdingDays (bar :: tail) =
      (exitRule p position.entryPrice).scan (position.holdingDays + 1) tail := by
  rw [exitTerms_eq, Option.map_eq_none_iff] at h
  rw [ExitRule.scan_cons, h]

/-- Where it sells, the scan stops, on the same terms. -/
theorem scan_exit {reason : BacktestExitReason} {raw : ℚ}
    (h : exitTerms position bar p false = some (reason, raw)) (tail : List DailyBar) :
    (exitRule p position.entryPrice).scan position.holdingDays (bar :: tail) =
      some (bar, reason, raw) := by
  rw [exitTerms_eq, Option.map_eq_some_iff] at h
  obtain ⟨found, hfound, hterms⟩ := h
  obtain ⟨rfl, rfl⟩ := Prod.mk.inj hterms
  rw [ExitRule.scan_cons, hfound]

theorem exitTerms_open_reason {reason : BacktestExitReason} {raw : ℚ}
    (h : exitTerms position bar p false = some (reason, raw)) : reason ≠ .endOfPeriod := by
  simp only [exitTerms_unfold, Bool.false_eq_true, if_false] at h
  split_ifs at h <;> simp only [Option.some.injEq, Prod.mk.injEq] at h
  all_goals rw [← h.1]; decide

theorem scan_mem {entryPrice : ℚ} {holding : Nat} {later : List DailyBar}
    {reason : BacktestExitReason} {raw : ℚ}
    (h : (exitRule p entryPrice).scan holding later = some (bar, reason, raw)) : bar ∈ later := by
  obtain ⟨-, passed, rest, rfl, -⟩ := ExitRule.scan_some h
  simp

end Scan

/-! ## What a context has loaded -/

structure Loaded (c : Context) (rows : List DailyBarRecord) (symbols : List Symbol) : Prop where
  bars : ∀ day symbol bar, (c.bars day).get? symbol = some bar ↔
    (∃ row ∈ rows, DailyBar.ofRecord row = bar) ∧ (bar.symbol = symbol ∧ bar.tradingDate = day) ∧
      (c.run.startDate ≤ day ∧ day ≤ c.run.endDate) ∧ symbol ∈ symbols
  dates : c.dates = calendar c.run rows
  entries : ∀ day, ∀ signal ∈ c.entries day,
    signal.symbol ∈ symbols ∧ entryDay? c.run rows signal = some day
  keys : ((loadBars c.run rows symbols).map DailyBar.key).Nodup

theorem execution_loaded {run : RunRequest} {generated : List BacktestSignal}
    {rows : List DailyBarRecord} {uuid4 : Nat → UUID} {execution : PortfolioExecution}
    (h : executePortfolio run generated rows uuid4 = .ok execution) :
    Loaded execution.context rows (signalSymbols (generated.insertionSort BacktestSignal.le)) := by
  have hcompleted := executePortfolio_ok h
  have hrun := hcompleted.run_eq
  constructor
  · intro day symbol bar
    rw [hrun]
    exact execution_bar h
  · rw [hcompleted.dates, hrun]
  · intro day signal hsignal
    rw [Context.entries, List.mem_insertionSort, execution_entries h day, List.mem_filter,
      decide_eq_true_eq] at hsignal
    rw [hrun]
    exact ⟨mem_signalSymbols.mpr ⟨signal, hsignal.1, rfl⟩, hsignal.2⟩
  · rw [hrun]
    exact (indexBars_indexes hcompleted.index).keys

/-! ## A position in the middle of its loop -/

/-- `position` is past `passed`, none of which sold it, and before `rest`; `seen`
are the days gone by. -/
structure Follows (c : Context) (rows : List DailyBarRecord) (symbols : List Symbol)
    (seen : List Date) (symbol : Symbol) (position : OpenPosition) (entryBar : DailyBar)
    (passed rest : List DailyBar) : Prop where
  ofSymbol : position.signal.symbol = symbol
  known : symbol ∈ symbols
  split : laterBars c.run rows position.signal = entryBar :: (passed ++ rest)
  entryDate : position.entryDate = entryBar.tradingDate
  rawPrice : position.entryRawPrice = entryBar.open
  price : position.entryPrice = entryBar.open * (1 + c.p.trading.slippageRate)
  positive : 0 < position.entryPrice
  commission : position.buyCommission =
    position.entryPrice * position.quantity * c.p.trading.commissionRate
  holding : position.holdingDays = passed.length
  quiet : ∀ tail, (exitRule c.p.trading position.entryPrice).scan 1 (passed ++ tail) =
    (exitRule c.p.trading position.entryPrice).scan (passed.length + 1) tail
  past : ∀ bar ∈ entryBar :: passed, bar.tradingDate ∈ seen
  future : ∀ bar ∈ rest, bar.tradingDate ∉ seen

def Followed (c : Context) (rows : List DailyBarRecord) (symbols : List Symbol) (seen : List Date)
    (symbol : Symbol) (position : OpenPosition) : Prop :=
  ∃ entryBar passed rest, Follows c rows symbols seen symbol position entryBar passed rest

section Day

variable {c : Context} {rows : List DailyBarRecord} {symbols : List Symbol} {pre post : List Date}
  {day : Date} {symbol : Symbol} {position : OpenPosition} {entryBar : DailyBar}
  {passed rest : List DailyBar}

theorem Follows.pairwise (hload : Loaded c rows symbols)
    (h : Follows c rows symbols pre symbol position entryBar passed rest) :
    (entryBar :: (passed ++ rest)).Pairwise fun a b => a.tradingDate < b.tradingDate := by
  rw [← h.split]
  exact laterBars_pairwise (h.ofSymbol ▸ h.known) hload.keys

/-- The bars to come are dated on the days to come. -/
theorem Follows.rest_days (hload : Loaded c rows symbols) (hdates : c.dates = pre ++ day :: post)
    (h : Follows c rows symbols pre symbol position entryBar passed rest) {bar : DailyBar}
    (hbar : bar ∈ rest) : bar.tradingDate = day ∨ bar.tradingDate ∈ post := by
  have hmem : bar ∈ laterBars c.run rows position.signal := by simp [h.split, hbar]
  have hcal := laterBars_mem_calendar hmem
  rw [← hload.dates, hdates] at hcal
  simpa [h.future bar hbar] using hcal

theorem dates_pairwise (hload : Loaded c rows symbols) : c.dates.Pairwise (· < ·) := by
  rw [hload.dates]
  exact calendar_pairwise c.run rows

/-- Without a bar on the day nothing moves. -/
theorem Follows.idle (hload : Loaded c rows symbols)
    (h : Follows c rows symbols pre symbol position entryBar passed rest)
    (hnone : (c.bars day).get? symbol = none) :
    Follows c rows symbols (pre ++ [day]) symbol position entryBar passed rest := by
  refine { h with past := fun bar hbar => ?_, future := fun bar hbar hmem => ?_ }
  · exact List.mem_append_left _ (h.past bar hbar)
  · rcases List.mem_append.mp hmem with hmem | hmem
    · exact h.future bar hbar hmem
    · have hin : bar ∈ laterBars c.run rows position.signal := by simp [h.split, hbar]
      obtain ⟨hrow, hsymbol, hrange, -⟩ := mem_laterBars.mp hin
      have hdate := List.mem_singleton.mp hmem
      rw [Option.eq_none_iff_forall_ne_some] at hnone
      exact hnone bar ((hload.bars day symbol bar).mpr
        ⟨hrow, ⟨hsymbol.trans h.ofSymbol, hdate⟩, hdate ▸ hrange, h.known⟩)

/-- A bar of the day is the next of the bars to come. -/
theorem Follows.next (hload : Loaded c rows symbols) (hdates : c.dates = pre ++ day :: post)
    (h : Follows c rows symbols pre symbol position entryBar passed rest) {bar : DailyBar}
    (hbar : (c.bars day).get? symbol = some bar) : ∃ tail, rest = bar :: tail := by
  have hsorted := dates_pairwise hload
  rw [hdates] at hsorted
  obtain ⟨hrow, ⟨hsymbol, hdate⟩, hrange, -⟩ := (hload.bars day symbol bar).mp hbar
  have hpast : ∀ x ∈ pre, x < day := fun x hx =>
    (List.pairwise_append.mp hsorted).2.2 x hx day List.mem_cons_self
  have hentry := hpast _ (h.past entryBar List.mem_cons_self)
  have hsignal : position.signal.signalDate < entryBar.tradingDate :=
    (mem_laterBars.mp (by rw [h.split]; exact List.mem_cons_self)).2.2.2
  have hin : bar ∈ laterBars c.run rows position.signal :=
    mem_laterBars.mpr ⟨hrow, hsymbol.trans h.ofSymbol.symm, hdate ▸ hrange,
      hdate ▸ hsignal.trans hentry⟩
  have hnot : bar ∉ entryBar :: passed := fun hmem =>
    lt_irrefl day (hdate ▸ hpast _ (h.past bar hmem))
  rw [h.split, ← List.cons_append] at hin
  have hrest : bar ∈ rest := (List.mem_append.mp hin).resolve_left hnot
  have hpair := (List.pairwise_append.mp (h.pairwise hload).of_cons).2.1
  cases rest with
  | nil => simp at hrest
  | cons first tail =>
    rcases List.mem_cons.mp hrest with rfl | hmem
    · exact ⟨tail, rfl⟩
    · have hlt := List.rel_of_pairwise_cons hpair hmem
      rw [hdate] at hlt
      rcases h.rest_days hload hdates List.mem_cons_self with hday | hday
      · exact absurd (hday ▸ hlt) (lt_irrefl day)
      · exact absurd (List.rel_of_pairwise_cons (List.pairwise_append.mp hsorted).2.1 hday)
          hlt.asymm

/-- A bar that does not sell the position is passed. -/
theorem Follows.pass {bar : DailyBar} {tail : List DailyBar} (hload : Loaded c rows symbols)
    (h : Follows c rows symbols pre symbol position entryBar passed (bar :: tail))
    (hdate : bar.tradingDate = day)
    (hterms : exitTerms position.held bar c.p.trading false = none) :
    Follows c rows symbols (pre ++ [day]) symbol position.held entryBar (passed ++ [bar]) tail := by
  have hpair := (List.pairwise_append.mp (h.pairwise hload).of_cons).2.1
  refine { h with split := ?_, holding := ?_, quiet := ?_, past := ?_, future := ?_ }
  · simp [h.split, OpenPosition.held]
  · simp [OpenPosition.held, h.holding]
  · intro tail'
    have hscan := scan_quiet hterms tail'
    have hheld : position.held.holdingDays = passed.length + 1 := by
      simp [OpenPosition.held, h.holding]
    rw [hheld] at hscan
    rw [List.append_assoc, List.singleton_append, List.length_append]
    exact (h.quiet _).trans hscan
  · intro other hother
    rw [← List.cons_append] at hother
    rcases List.mem_append.mp hother with hother | hother
    · exact List.mem_append_left _ (h.past other hother)
    · rw [List.mem_singleton.mp hother, hdate]
      simp
  · intro other hother hmem
    rcases List.mem_append.mp hmem with hmem | hmem
    · exact h.future other (List.mem_cons_of_mem bar hother) hmem
    · have hlt := List.rel_of_pairwise_cons hpair hother
      rw [hdate, List.mem_singleton.mp hmem] at hlt
      exact lt_irrefl day hlt

end Day

/-! ## A sale -/

/-- `trade` is the one that simulating its signal alone gives, at its quantity;
a forced sale says that the simulation exits no earlier than the last day. -/
structure Mirrors (c : Context) (rows : List DailyBarRecord) (trade : BacktestTrade)
    (entryBar : DailyBar) (later : List DailyBar) : Prop where
  bars : laterBars c.run rows ⟨trade.symbol, trade.signalDate⟩ = entryBar :: later
  positive : 0 < entryBar.open * (1 + c.p.trading.slippageRate)
  entryDate : trade.entryDate = entryBar.tradingDate
  triggered : trade.exitReason ≠ .endOfPeriod →
    singleTrade c.run ⟨trade.symbol, trade.signalDate⟩ c.p.trading entryBar later trade.quantity
      trade.id = trade
  forced : trade.exitReason = .endOfPeriod → ∀ bar reason raw,
    (exitRule c.p.trading (entryBar.open * (1 + c.p.trading.slippageRate))).scan 1 later =
      some (bar, reason, raw) → ∀ last, c.dates.getLast? = some last → ¬ bar.tradingDate < last

/-- What is known of the trade that a sale of `position` books. -/
structure Sells (ledger sold : Ledger) (symbol : Symbol) (position : OpenPosition)
    (trade : BacktestTrade) : Prop where
  trades : sold.trades = ledger.trades ++ [trade]
  symbol : trade.symbol = symbol
  signalDate : trade.signalDate = position.signal.signalDate
  entryDate : trade.entryDate = position.entryDate

section Sale

variable {c : Context} {rows : List DailyBarRecord} {symbols : List Symbol} {pre : List Date}
  {day : Date} {symbol : Symbol} {position : OpenPosition} {entryBar : DailyBar}
  {passed rest : List DailyBar}

theorem Follows.signal (h : Follows c rows symbols pre symbol position entryBar passed rest) :
    (⟨symbol, position.signal.signalDate⟩ : BacktestSignal) = position.signal := by
  rw [← h.ofSymbol]

/-- The exit of the lone simulation, where the event loop sells. -/
theorem Follows.exitOf {bar : DailyBar} {tail : List DailyBar} {reason : BacktestExitReason}
    {raw : ℚ} (h : Follows c rows symbols pre symbol position entryBar passed (bar :: tail))
    (hterms : exitTerms position.held bar c.p.trading false = some (reason, raw)) :
    exitOf c.p.trading entryBar (passed ++ bar :: tail) = (bar, reason, raw) := by
  have hscan := scan_exit hterms tail
  have hheld : position.held.holdingDays = passed.length + 1 := by
    simp [OpenPosition.held, h.holding]
  have hprice : position.held.entryPrice = position.entryPrice := rfl
  rw [hheld, hprice, ← h.quiet, h.price] at hscan
  simp only [ExitRule.scan] at hscan
  simp only [exitOf_unfold, hscan, Option.getD_some]

/-- A triggered sale is the trade of the lone simulation. -/
theorem Follows.sell (hload : Loaded c rows symbols) {bar : DailyBar} {tail : List DailyBar}
    {reason : BacktestExitReason} {raw : ℚ}
    (h : Follows c rows symbols pre symbol position entryBar passed (bar :: tail))
    (hdate : bar.tradingDate = day)
    (hterms : exitTerms position.held bar c.p.trading false = some (reason, raw))
    (ledger : Ledger) :
    ∃ trade, Sells ledger (closePosition c ledger symbol position.held day raw reason) symbol
      position trade ∧ Mirrors c rows trade entryBar (passed ++ bar :: tail) := by
  have hnot : bar ∉ passed := by
    intro hmem
    have hpair := (List.pairwise_append.mp (h.pairwise hload).of_cons).2.2
    exact lt_irrefl _ (hpair bar hmem bar List.mem_cons_self)
  have hindex : (passed ++ bar :: tail).idxOf bar = passed.length := by
    rw [List.idxOf_append_of_notMem hnot, List.idxOf_cons_self, Nat.add_zero]
  simp only [closePosition_eq]
  refine ⟨_, ⟨rfl, rfl, rfl, rfl⟩, ?_⟩
  constructor
  · show laterBars c.run rows ⟨symbol, position.signal.signalDate⟩ = _
    rw [h.signal, h.split]
  · exact h.price ▸ h.positive
  · exact h.entryDate
  · intro _
    have hcommission : position.held.buyCommission =
        position.entryPrice * position.quantity * c.p.trading.commissionRate := h.commission
    have hheld : position.held.holdingDays = passed.length + 1 := by
      simp [OpenPosition.held, h.holding]
    have hne : passed ++ bar :: tail ≠ [] := by simp
    simp only [singleTrade_eq, h.exitOf hterms, if_neg hne, hindex, hdate, hcommission, hheld]
    have hprice : position.held.entryPrice = entryBar.open * (1 + c.p.trading.slippageRate) :=
        h.price
    have hraw : position.held.entryRawPrice = entryBar.open := h.rawPrice
    have hentry : position.held.entryDate = entryBar.tradingDate := h.entryDate
    have hquantity : position.held.quantity = position.quantity := rfl
    have hdates : position.held.signal = position.signal := rfl
    simp only [hprice, hraw, hentry, hquantity, hdates, h.price, BacktestTrade.mk.injEq, true_and,
      and_true]
    refine ⟨?_, ?_⟩ <;> congr 1 <;> ring
  · intro hreason
    exact absurd hreason (exitTerms_open_reason hterms)

/-- A forced sale leaves nothing to the lone simulation before the last day. -/
theorem Follows.force (h : Follows c rows symbols pre symbol position entryBar passed rest)
    (hlast : ∀ bar ∈ rest, ∀ last, c.dates.getLast? = some last → ¬ bar.tradingDate < last)
    {sold : OpenPosition} (hsignal : sold.signal = position.signal)
    (hentry : sold.entryDate = position.entryDate) (raw : ℚ) (ledger : Ledger) (day : Date) :
    ∃ trade, Sells ledger (closePosition c ledger symbol sold day raw .endOfPeriod) symbol
      position trade ∧ Mirrors c rows trade entryBar (passed ++ rest) := by
  refine ⟨_, ⟨rfl, rfl, congrArg BacktestSignal.signalDate hsignal, hentry⟩, ?_⟩
  constructor
  · show laterBars c.run rows ⟨symbol, sold.signal.signalDate⟩ = _
    rw [hsignal, h.signal, h.split]
  · exact h.price ▸ h.positive
  · exact hentry.trans h.entryDate
  · intro hreason
    exact absurd rfl hreason
  · intro _ bar reason raw' hscan
    rw [← h.price, h.quiet] at hscan
    exact hlast bar (scan_mem hscan)

end Sale

/-! ## A purchase -/

section Purchase

variable {c : Context} {rows : List DailyBarRecord} {symbols : List Symbol} {pre post : List Date}
  {day : Date} {signal : BacktestSignal} {bar : DailyBar}

/-- The bar of the entry day is the first of the signal's bars. -/
theorem Loaded.enters (hload : Loaded c rows symbols) (hdates : c.dates = pre ++ day :: post)
    (hsignal : signal ∈ c.entries day) (hbar : (c.bars day).get? signal.symbol = some bar) :
    ∃ rest, laterBars c.run rows signal = bar :: rest ∧
      ∀ other ∈ rest, other.tradingDate ∉ pre ++ [day] := by
  obtain ⟨hknown, hentry⟩ := hload.entries day signal hsignal
  obtain ⟨⟨-, hafter, -⟩, hleast⟩ := entryDay?_eq_some.mp hentry
  obtain ⟨hrow, ⟨hsymbol, hdate⟩, hrange, -⟩ := (hload.bars day signal.symbol bar).mp hbar
  have hin : bar ∈ laterBars c.run rows signal :=
    mem_laterBars.mpr ⟨hrow, hsymbol, hdate ▸ hrange, hdate ▸ hafter⟩
  have hpair : (laterBars c.run rows signal).Pairwise fun a b => a.tradingDate < b.tradingDate :=
    laterBars_pairwise hknown hload.keys
  have hsorted := dates_pairwise hload
  rw [hdates] at hsorted
  cases hbars : laterBars c.run rows signal with
  | nil => simp [hbars] at hin
  | cons first rest =>
    rw [hbars] at hin hpair
    have hfirst : bar = first := by
      rcases List.mem_cons.mp hin with heq | hmem
      · exact heq
      · have hlt := List.rel_of_pairwise_cons hpair hmem
        have hmem' : first ∈ laterBars c.run rows signal := hbars ▸ List.mem_cons_self
        obtain ⟨⟨row, hrow', rfl⟩, hs, -, ha⟩ := mem_laterBars.mp hmem'
        have hge := hleast ⟨laterBars_mem_calendar hmem', ha, row, hrow', hs, rfl⟩
        rw [hdate] at hlt
        exact absurd hlt (not_lt.mpr hge)
    subst hfirst
    refine ⟨rest, rfl, fun other hother hmem => ?_⟩
    have hlt := List.rel_of_pairwise_cons hpair hother
    rw [hdate] at hlt
    rcases List.mem_append.mp hmem with hmem | hmem
    · exact hlt.asymm ((List.pairwise_append.mp hsorted).2.2 _ hmem day List.mem_cons_self)
    · exact lt_irrefl day (List.mem_singleton.mp hmem ▸ hlt)

/-- A position begins its loop with no bar passed. -/
theorem Loaded.buys (hload : Loaded c rows symbols) (hdates : c.dates = pre ++ day :: post)
    (hsignal : signal ∈ c.entries day) (hbar : (c.bars day).get? signal.symbol = some bar)
    (hprice : 0 < effectivePrice c bar) (quantity : Nat) :
    Followed c rows symbols (pre ++ [day]) signal.symbol
      ⟨signal, day, bar.open, effectivePrice c bar, quantity,
        effectivePrice c bar * quantity * c.p.trading.commissionRate, effectivePrice c bar, 0⟩ := by
  obtain ⟨rest, hbars, hrest⟩ := hload.enters hdates hsignal hbar
  have hdate := ((hload.bars day signal.symbol bar).mp hbar).2.1.2
  refine ⟨bar, [], rest, ?_⟩
  constructor
  · rfl
  · exact (hload.entries day signal hsignal).1
  · exact hbars
  · exact hdate.symm
  · rfl
  · rfl
  · exact hprice
  · rfl
  · rfl
  · exact fun tail => rfl
  · intro other hother
    rw [List.mem_singleton.mp hother, hdate]
    simp
  · exact hrest

end Purchase

/-! ## The whole run -/

/-- Every trade mirrors its lone simulation and every purchase is held or sold. -/
structure Mirrored (c : Context) (rows : List DailyBarRecord) (ledger : Ledger) : Prop where
  trades : ∀ trade ∈ ledger.trades, ∃ entryBar later, Mirrors c rows trade entryBar later
  opened : ∀ day position before after, .opened day position before after ∈ ledger.journal →
    (∃ held, ledger.state.positions.get? position.signal.symbol = some held ∧
        held.signal = position.signal ∧ held.entryDate = position.entryDate) ∨
      ∃ trade ∈ ledger.trades, trade.symbol = position.signal.symbol ∧
        trade.signalDate = position.signal.signalDate ∧ trade.entryDate = position.entryDate

section Run

variable {c : Context} {rows : List DailyBarRecord} {symbols : List Symbol} {pre post : List Date}
  {day : Date} {ledger ledger' : Ledger}

theorem Mirrored.hold (h : Mirrored c rows ledger) {symbol : Symbol} {position : OpenPosition}
    (hget : ledger.state.positions.get? symbol = some position) :
    Mirrored c rows (holdPosition ledger symbol position) := by
  refine ⟨h.trades, fun day q before after hmem => ?_⟩
  rcases h.opened day q before after hmem with ⟨held, hheld, hsignal, hdate⟩ | hsold
  · refine .inl ?_
    simp only [holdPosition, Dict.get?_set]
    split
    · rename_i heq
      rw [heq, hget, Option.some.injEq] at hheld
      subst hheld
      exact ⟨_, rfl, hsignal, hdate⟩
    · exact ⟨held, hheld, hsignal, hdate⟩
  · exact .inr hsold

theorem Mirrored.sell (h : Mirrored c rows ledger) {symbol : Symbol} {position held : OpenPosition}
    {raw : ℚ} {reason : BacktestExitReason} {trade : BacktestTrade} {entryBar : DailyBar}
    {later : List DailyBar} (hget : ledger.state.positions.get? symbol = some held)
    (hsame : held.signal = position.signal ∧ held.entryDate = position.entryDate)
    (hsell : Sells ledger (closePosition c ledger symbol held day raw reason) symbol position trade)
    (hmirror : Mirrors c rows trade entryBar later) :
    Mirrored c rows (closePosition c ledger symbol held day raw reason) := by
  constructor
  · rw [hsell.trades]
    exact forall_mem_concat h.trades ⟨entryBar, later, hmirror⟩
  · intro day' q before after hmem
    rw [closePosition_journal] at hmem
    have hold : Event.opened day' q before after ∈ ledger.journal := by simpa using hmem
    rw [closePosition_positions, hsell.trades]
    rcases h.opened day' q before after hold with ⟨p, hp, hsignal, hdate⟩ | ⟨t, ht, hs, hd, he⟩
    · by_cases heq : q.signal.symbol = symbol
      · refine .inr ⟨trade, by simp, hsell.symbol.trans heq.symm, ?_, ?_⟩
        · rw [heq, hget, Option.some.injEq] at hp
          rw [hsell.signalDate, ← hsame.1, hp, hsignal]
        · rw [heq, hget, Option.some.injEq] at hp
          rw [hsell.entryDate, ← hsame.2, hp, hdate]
      · exact .inl ⟨p, by rw [Dict.get?_erase, if_neg heq, hp], hsignal, hdate⟩
    · exact .inr ⟨t, List.mem_append_left _ ht, hs, hd, he⟩

theorem Mirrored.buy (h : Mirrored c rows ledger) {signal : BacktestSignal} {bar : DailyBar}
    {quantity : Nat} (hnew : signal.symbol ∉ ledger.state.positions.keys) :
    Mirrored c rows (openPosition c ledger signal day bar quantity) := by
  refine ⟨h.trades, fun day' q before after hmem => ?_⟩
  rcases List.mem_append.mp hmem with hmem | hmem
  · rcases h.opened day' q before after hmem with ⟨p, hp, hsignal, hdate⟩ | hsold
    · have hne : q.signal.symbol ≠ signal.symbol := fun heq =>
        hnew (heq ▸ Dict.mem_keys_of_get? hp)
      exact .inl ⟨p, by simp only [openPosition_eq, Dict.get?_set, if_neg hne, hp], hsignal, hdate⟩
    · exact .inr hsold
  · simp only [List.mem_singleton, Event.opened.injEq] at hmem
    obtain ⟨-, rfl, -, -⟩ := hmem
    exact .inl ⟨_, (Dict.get?_set _ _ _ _).trans (if_pos rfl), rfl, rfl⟩

theorem Mirrored.mark (h : Mirrored c rows ledger) (bars : Dict Symbol DailyBar) :
    Mirrored c rows (closeDay c day bars ledger) := by
  refine ⟨h.trades, fun day' q before after hmem => ?_⟩
  have hold : Event.opened day' q before after ∈ ledger.journal := by
    simpa [closeDay_eq] using hmem
  rcases h.opened day' q before after hold with ⟨p, hp, hsignal, hdate⟩ | hsold
  · obtain ⟨close, hmark⟩ := markPosition_eq bars q.signal.symbol p
    refine .inl ⟨{ p with lastClose := close }, ?_, hsignal, hdate⟩
    simp only [closeDay_eq, Dict.get?_mapValues, hp, Option.map_some, hmark]
  · exact .inr hsold

/-- Every position held has its place in its loop. -/
def AllFollowed (c : Context) (rows : List DailyBarRecord) (symbols : List Symbol)
    (seen : List Date) (ledger : Ledger) : Prop :=
  ∀ symbol position, ledger.state.positions.get? symbol = some position →
    Followed c rows symbols seen symbol position

theorem final_iff (hload : Loaded c rows symbols) (hdates : c.dates = pre ++ day :: post) :
    c.final day = true ↔ post = [] := by
  have hsorted := dates_pairwise hload
  rw [hdates] at hsorted
  rw [Context.final, decide_eq_true_eq, hdates]
  rcases List.eq_nil_or_concat post with hnil | ⟨init, last, hlast⟩
  · simp [hnil]
  · have hpair := (List.pairwise_append.mp hsorted).2.1
    have hlt : day < last := List.rel_of_pairwise_cons hpair (by simp [hlast])
    simp only [hlast, List.concat_eq_append, List.append_eq_nil_iff, List.cons_ne_self, and_false,
      iff_false]
    rw [← List.cons_append, ← List.append_assoc, List.getLast?_append]
    simpa using hlt.ne'

theorem exitBar_open {bars : Dict Symbol DailyBar} {symbol : Symbol} {position : OpenPosition} :
    exitBar bars false day symbol position = bars.get? symbol := by
  unfold exitBar
  split <;> simp_all

theorem exitBar_none {bars : Dict Symbol DailyBar} {final : Bool} {symbol : Symbol}
    {position : OpenPosition} (h : exitBar bars final day symbol position = none) :
    bars.get? symbol = none := by
  unfold exitBar at h
  split at h
  · simp at h
  · assumption

/-- One exit moves its symbol on by the day, or sells it. -/
theorem exitOne_mirrored (hload : Loaded c rows symbols) (hdates : c.dates = pre ++ day :: post)
    {symbol : Symbol} (hm : Mirrored c rows ledger)
    (hf : ∀ position, ledger.state.positions.get? symbol = some position →
      Followed c rows symbols pre symbol position)
    (h : exitOne c day (c.bars day) (c.final day) ledger symbol = .ok ledger') :
    Mirrored c rows ledger' ∧
      (∀ position, ledger'.state.positions.get? symbol = some position →
        Followed c rows symbols (pre ++ [day]) symbol position) ∧
      ∀ other, other ≠ symbol →
        ledger'.state.positions.get? other = ledger.state.positions.get? other := by
  obtain ⟨position, hget, hcase⟩ := exitOne_cases h
  obtain ⟨entryBar, passed, rest, hfollows⟩ := hf position hget
  have hheld := get?_holdPosition ledger symbol position
  have hsame : position.held.signal = position.signal ∧
      position.held.entryDate = position.entryDate := ⟨rfl, rfl⟩
  have hothers : ∀ other ≠ symbol,
      ((holdPosition ledger symbol position).state.positions.erase symbol).get? other =
        ledger.state.positions.get? other := by
    intro other hne
    simp [holdPosition, Dict.get?_erase, Dict.get?_set, hne]
  have hgone : ∀ p,
      ((holdPosition ledger symbol position).state.positions.erase symbol).get? symbol = some p →
        Followed c rows symbols (pre ++ [day]) symbol p := by
    intro p hp
    simp [Dict.get?_erase] at hp
  rcases hcase with ⟨hbar, rfl⟩ | ⟨bar, hbar, ⟨hterms, rfl⟩ | ⟨reason, raw, hterms, rfl⟩⟩
  · refine ⟨hm, fun p hp => ?_, fun _ _ => rfl⟩
    rw [hget, Option.some.injEq] at hp
    exact ⟨entryBar, passed, rest, hp ▸ hfollows.idle hload (exitBar_none hbar)⟩
  · -- The position is kept, so the day is not the last one and the bar is its own.
    have hfinal : c.final day = false := by
      by_contra hfinal
      rw [Bool.not_eq_false] at hfinal
      simp [hfinal, exitTerms_final] at hterms
    rw [hfinal] at hterms hbar
    rw [exitBar_open] at hbar
    obtain ⟨tail, rfl⟩ := hfollows.next hload hdates hbar
    refine ⟨hm.hold hget, fun p hp => ?_, fun other hne => ?_⟩
    · rw [hheld, Option.some.injEq] at hp
      have hdate := ((hload.bars day symbol bar).mp hbar).2.1.2
      exact ⟨entryBar, passed ++ [bar], tail, hp ▸ hfollows.pass hload hdate hterms⟩
    · simp [holdPosition, Dict.get?_set, hne]
  · cases hfinal : c.final day with
    | false =>
      rw [hfinal] at hterms hbar
      rw [exitBar_open] at hbar
      obtain ⟨tail, rfl⟩ := hfollows.next hload hdates hbar
      have hdate := ((hload.bars day symbol bar).mp hbar).2.1.2
      obtain ⟨trade, hsell, hmirror⟩ := hfollows.sell hload hdate hterms
        (holdPosition ledger symbol position)
      exact ⟨(hm.hold hget).sell hheld hsame hsell hmirror, hgone, hothers⟩
    | true =>
      rw [hfinal, exitTerms_final, Option.some.injEq, Prod.mk.injEq] at hterms
      obtain ⟨rfl, rfl⟩ := hterms
      have hpost := (final_iff hload hdates).mp hfinal
      have hlast : ∀ b ∈ rest, ∀ last, c.dates.getLast? = some last → ¬ b.tradingDate < last := by
        intro b hb last hlast
        rw [hdates, hpost, List.getLast?_concat, Option.some.injEq] at hlast
        rcases hfollows.rest_days hload hdates hb with hday | hday
        · rw [hday, hlast]
          exact lt_irrefl last
        · simp [hpost] at hday
      obtain ⟨trade, hsell, hmirror⟩ := hfollows.force hlast hsame.1 hsame.2 bar.close
        (holdPosition ledger symbol position) day
      exact ⟨(hm.hold hget).sell hheld hsame hsell hmirror, hgone, hothers⟩

/-- The exits of a day move every position on by the day. -/
theorem exitPhase_mirrored (hload : Loaded c rows symbols) (hdates : c.dates = pre ++ day :: post)
    (hm : Mirrored c rows ledger) (hf : AllFollowed c rows symbols pre ledger)
    (h : exitPhase c ledger day = .ok ledger') :
    Mirrored c rows ledger' ∧ AllFollowed c rows symbols (pre ++ [day]) ledger' := by
  have hnodup : ledger.state.symbols.Nodup :=
    (List.perm_insertionSort _ _).nodup_iff.mpr (Dict.keys_nodup _)
  have hinv := foldlM_prefix_invariant (fun done (l : Ledger) => Mirrored c rows l ∧
    ∀ symbol position, l.state.positions.get? symbol = some position →
      symbol ∈ ledger.state.symbols ∧
      Followed c rows symbols (if symbol ∈ done then pre ++ [day] else pre) symbol position)
    ledger.state.symbols ?_ h ⟨hm, fun symbol position hget =>
      ⟨mem_symbols.mpr (Dict.mem_keys_of_get? hget), by simpa using hf symbol position hget⟩⟩
  · refine ⟨hinv.1, fun symbol position hget => ?_⟩
    obtain ⟨hmem, hfollowed⟩ := hinv.2 symbol position hget
    rwa [if_pos hmem] at hfollowed
  · rintro done x rest s t hsplit ⟨hms, hfs⟩ hst
    have hx : x ∉ done := by
      rw [hsplit] at hnodup
      intro hmem
      exact (List.nodup_append.mp hnodup).2.2 x hmem x List.mem_cons_self rfl
    have hbefore : ∀ position, s.state.positions.get? x = some position →
        Followed c rows symbols pre x position := by
      intro position hget
      have hfollowed := (hfs x position hget).2
      rwa [if_neg hx] at hfollowed
    obtain ⟨hmt, hnew, hothers⟩ := exitOne_mirrored hload hdates hms hbefore hst
    refine ⟨hmt, fun symbol position hget => ?_⟩
    by_cases heq : symbol = x
    · subst heq
      exact ⟨by rw [hsplit]; simp, by simpa using hnew position hget⟩
    · rw [hothers symbol heq] at hget
      simpa [heq] using hfs symbol position hget

theorem entryPhase_mirrored (hload : Loaded c rows symbols) (hdates : c.dates = pre ++ day :: post)
    (hm : Mirrored c rows ledger) (hf : AllFollowed c rows symbols (pre ++ [day]) ledger)
    (h : entryPhase c ledger day = .ok ledger') :
    Mirrored c rows ledger' ∧ AllFollowed c rows symbols (pre ++ [day]) ledger' := by
  refine foldlM_invariant (fun l : Ledger => Mirrored c rows l ∧
    AllFollowed c rows symbols (pre ++ [day]) l) ?_ h ⟨hm, hf⟩
  rintro signal hsignal s t ⟨hms, hfs⟩ hst
  obtain ⟨bar, hbar, ⟨reason, -, rfl⟩ | ⟨quantity, hsize, -, rfl⟩⟩ := enterOne_cases hst
  · exact ⟨⟨hms.trades, hms.opened⟩, hfs⟩
  · obtain ⟨hnew, hprice, -⟩ := sizeEntry_ok hsize
    exact ⟨hms.buy hnew, Dict.forall_get?_set hfs (hload.buys hdates hsignal hbar hprice quantity)⟩

theorem liquidationPhase_mirrored (hload : Loaded c rows symbols)
    (hdates : c.dates = pre ++ day :: post) (hm : Mirrored c rows ledger)
    (hf : AllFollowed c rows symbols (pre ++ [day]) ledger)
    (h : liquidationPhase c ledger day = .ok ledger') :
    Mirrored c rows ledger' ∧ AllFollowed c rows symbols (pre ++ [day]) ledger' := by
  rw [liquidationPhase_eq] at h
  split at h
  · rename_i hfinal
    have hpost := (final_iff hload hdates).mp hfinal
    refine foldlM_invariant (fun l : Ledger => Mirrored c rows l ∧
      AllFollowed c rows symbols (pre ++ [day]) l) ?_ h ⟨hm, hf⟩
    rintro symbol - s t ⟨hms, hfs⟩ hst
    obtain ⟨position, hget, ⟨-, rfl⟩ | ⟨-, bar, -, rfl⟩⟩ := liquidateOne_cases hst
    · exact ⟨hms, hfs⟩
    · obtain ⟨entryBar, passed, rest, hfollows⟩ := hfs symbol position hget
      have hlast : ∀ b ∈ rest, ∀ last, c.dates.getLast? = some last → ¬ b.tradingDate < last := by
        intro b hb
        have hmem : b ∈ laterBars c.run rows position.signal := by simp [hfollows.split, hb]
        have hcal := laterBars_mem_calendar hmem
        rw [← hload.dates, hdates, hpost] at hcal
        exact absurd hcal (hfollows.future b hb)
      obtain ⟨trade, hsell, hmirror⟩ := hfollows.force hlast rfl rfl bar.close s day
      exact ⟨hms.sell hget ⟨rfl, rfl⟩ hsell hmirror, Dict.forall_get?_erase hfs symbol⟩
  · simp only [Except.ok.injEq] at h
    exact h ▸ ⟨hm, hf⟩

theorem mark_followed {seen : List Date} (hf : AllFollowed c rows symbols seen ledger)
    (bars : Dict Symbol DailyBar) :
    AllFollowed c rows symbols seen (closeDay c day bars ledger) := by
  refine Dict.forall_get?_mapValues_iff.mpr fun symbol position hget => ?_
  obtain ⟨entryBar, passed, rest, hfollows⟩ := hf symbol position hget
  obtain ⟨close, hmark⟩ := markPosition_eq bars symbol position
  rw [hmark]
  exact ⟨entryBar, passed, rest, { hfollows with }⟩

theorem runDay_mirrored (hload : Loaded c rows symbols) (hdates : c.dates = pre ++ day :: post)
    (hm : Mirrored c rows ledger) (hf : AllFollowed c rows symbols pre ledger)
    (h : runDay c ledger day = .ok ledger') :
    Mirrored c rows ledger' ∧ AllFollowed c rows symbols (pre ++ [day]) ledger' := by
  obtain ⟨exited, entered, liquidated, hexit, hentry, hliq, rfl⟩ := runDay_ok.mp h
  obtain ⟨hm, hf⟩ := exitPhase_mirrored hload hdates hm hf hexit
  obtain ⟨hm, hf⟩ := entryPhase_mirrored hload hdates hm hf hentry
  obtain ⟨hm, hf⟩ := liquidationPhase_mirrored hload hdates hm hf hliq
  exact ⟨hm.mark (c.bars day), mark_followed hf (c.bars day)⟩

theorem runDays_mirrored (hload : Loaded c rows symbols) (hm : Mirrored c rows ledger)
    (hf : AllFollowed c rows symbols [] ledger)
    (h : c.dates.foldlM (runDay c) ledger = .ok ledger') : Mirrored c rows ledger' := by
  refine (foldlM_prefix_invariant (fun done (l : Ledger) => Mirrored c rows l ∧
    AllFollowed c rows symbols done l) c.dates ?_ h ⟨hm, hf⟩).1
  rintro done day rest s t hsplit ⟨hms, hfs⟩ hst
  exact runDay_mirrored hload hsplit hms hfs hst

end Run

/-! ## The two modes side by side -/

def BacktestExitReason.Triggered (reason : BacktestExitReason) : Prop :=
  reason = .stopLoss ∨ reason = .takeProfit ∨ reason = .maxHoldingDays

instance (reason : BacktestExitReason) : Decidable reason.Triggered := by
  unfold BacktestExitReason.Triggered; infer_instance

/-- Same entry and same exit, on the same terms. -/
structure SameTerms (t u : BacktestTrade) : Prop where
  entryDate : t.entryDate = u.entryDate
  entryPrice : t.entryPrice = u.entryPrice
  exitDate : t.exitDate = u.exitDate
  exitPrice : t.exitPrice = u.exitPrice
  exitReason : t.exitReason = u.exitReason
  holdingDays : t.holdingDays = u.holdingDays

structure SameAmounts (t u : BacktestTrade) : Prop where
  grossPnl : t.grossPnl = u.grossPnl
  commission : t.commission = u.commission
  tax : t.tax = u.tax
  slippageCost : t.slippageCost = u.slippageCost
  netPnl : t.netPnl = u.netPnl

section Simulate

variable {run : RunRequest} {rows : List DailyBarRecord} {signal : BacktestSignal}
  {p : BacktestParameters} {entryBar : DailyBar} {later : List DailyBar} {id : UUID}

/-- A signal with a bar and a notional for one share becomes a trade. -/
theorem simulateSignal_trade (p : BacktestParameters) (id : UUID)
    (hbars : laterBars run rows signal = entryBar :: later)
    (hprice : 0 < entryBar.open * (1 + p.slippageRate))
    (hsize : entryBar.open * (1 + p.slippageRate) ≤ p.positionSize) :
    ∃ quantity, simulateSignal run signal (barsOf run rows signal.symbol) p id =
      .ok (.trade (singleTrade run signal p entryBar later quantity id)) := by
  have hshares := (one_le_roundDown_div hprice (hprice.le.trans hsize)).mpr hsize
  exact ⟨_, simulateSignal_eq_trade.mpr ⟨entryBar, later, hbars, hprice.ne', hshares, rfl⟩⟩

/-- Every trade of a lone simulation starts at the signal's first bar. -/
theorem simulateSignal_ok {single : BacktestTrade}
    (h : simulateSignal run signal (barsOf run rows signal.symbol) p id = .ok (.trade single))
    (hbars : laterBars run rows signal = entryBar :: later) :
    ∃ quantity, single = singleTrade run signal p entryBar later quantity id := by
  obtain ⟨first, rest, heligible, -, -, rfl⟩ := simulateSignal_eq_trade.mp h
  obtain ⟨rfl, rfl⟩ := List.cons.inj (heligible.symm.trans hbars)
  exact ⟨_, rfl⟩

/-- The terms of a lone trade do not depend on its notional or its size. -/
theorem singleTrade_terms (size : ℚ) (quantity quantity' : Nat) (id id' : UUID) :
    SameTerms (singleTrade run signal { p with positionSize := size } entryBar later quantity id)
      (singleTrade run signal p entryBar later quantity' id') :=
  ⟨rfl, rfl, rfl, rfl, rfl, rfl⟩

/-- A triggered exit of a lone trade is the one its scan finds. -/
theorem singleTrade_triggered {quantity : Nat}
    (h : (singleTrade run signal p entryBar later quantity id).exitReason.Triggered) :
    ∃ bar reason raw, (exitRule p (entryBar.open * (1 + p.slippageRate))).scan 1 later =
        some (bar, reason, raw) ∧
      (singleTrade run signal p entryBar later quantity id).exitDate = bar.tradingDate := by
  cases hscan : (exitRule p (entryBar.open * (1 + p.slippageRate))).scan 1 later with
  | none =>
    have hexit : (singleTrade run signal p entryBar later quantity id).exitReason =
        .endOfPeriod := by
      simp only [ExitRule.scan] at hscan
      simp only [singleTrade_eq, exitOf_unfold, hscan, Option.getD_none]
    rw [hexit] at h
    exact absurd h (by decide)
  | some exit =>
    refine ⟨exit.1, exit.2.1, exit.2.2, rfl, ?_⟩
    simp only [ExitRule.scan] at hscan
    simp only [singleTrade_eq, exitOf_unfold, hscan, Option.getD_some]

end Simulate

section Mirrors

variable {c : Context} {rows : List DailyBarRecord} {trade : BacktestTrade} {entryBar : DailyBar}
  {later : List DailyBar}

/-- A triggered trade is its signal simulated alone, with any notional for one share. -/
theorem Mirrors.simulated (h : Mirrors c rows trade entryBar later)
    (hreason : trade.exitReason.Triggered) {size : ℚ}
    (hsize : entryBar.open * (1 + c.p.trading.slippageRate) ≤ size) (id : UUID) :
    ∃ single, simulateSignal c.run ⟨trade.symbol, trade.signalDate⟩
        (barsOf c.run rows trade.symbol) { c.p.trading with positionSize := size } id =
        .ok (.trade single) ∧ SameTerms single trade ∧
      (single.quantity = trade.quantity → SameAmounts single trade) := by
  have hne : trade.exitReason ≠ .endOfPeriod := by
    rintro heq
    rw [heq] at hreason
    exact absurd hreason (by decide)
  have htrade := h.triggered hne
  obtain ⟨quantity, hsingle⟩ := simulateSignal_trade { c.p.trading with positionSize := size } id
    h.bars h.positive hsize
  refine ⟨_, hsingle, ?_, fun hquantity => ?_⟩
  · rw [← htrade]
    exact singleTrade_terms size _ _ _ _
  · have heq : quantity = trade.quantity := hquantity
    rw [← htrade, heq]
    exact ⟨rfl, rfl, rfl, rfl, rfl⟩

/-- A lone simulation that exits before the last day gives the exit of the trade. -/
theorem Mirrors.exit (h : Mirrors c rows trade entryBar later) {size : ℚ} {id : UUID}
    {single : BacktestTrade} {last : Date}
    (hsingle : simulateSignal c.run ⟨trade.symbol, trade.signalDate⟩
      (barsOf c.run rows trade.symbol) { c.p.trading with positionSize := size } id =
      .ok (.trade single))
    (hreason : single.exitReason.Triggered) (hlast : c.dates.getLast? = some last)
    (hlt : single.exitDate < last) :
    trade.exitDate = single.exitDate ∧ trade.exitReason = single.exitReason := by
  obtain ⟨quantity, rfl⟩ := simulateSignal_ok hsingle h.bars
  by_cases hforced : trade.exitReason = .endOfPeriod
  · obtain ⟨bar, reason, raw, hscan, hexit⟩ := singleTrade_triggered hreason
    rw [hexit] at hlt
    exact absurd hlt (h.forced hforced bar reason raw hscan last hlast)
  · have heq := h.triggered hforced
    rw [← heq]
    exact ⟨rfl, rfl⟩

end Mirrors

/-- **Portfolio mode refines independent mode.** Each triggered trade of a
completed portfolio run is the trade of its signal simulated alone, given a
notional that buys one share at the entry bar; at the same quantity also in its
amounts. The other way round, a purchase whose lone simulation exits before the
last calendar day is sold on that day for that reason. -/
theorem portfolio_refines_independent {run : RunRequest} {generated : List BacktestSignal}
    {rows : List DailyBarRecord} {uuid4 : Nat → UUID} {execution : PortfolioExecution}
    (h : executePortfolio run generated rows uuid4 = .ok execution) :
    let p := execution.context.p.trading
    (∀ trade ∈ execution.ledger.trades, trade.exitReason.Triggered →
      ∃ entryBar ∈ barsOf run rows trade.symbol, entryBar.tradingDate = trade.entryDate ∧
        ∀ size, entryBar.open * (1 + p.slippageRate) ≤ size → ∀ id, ∃ single,
          simulateSignal run ⟨trade.symbol, trade.signalDate⟩ (barsOf run rows trade.symbol)
            { p with positionSize := size } id = .ok (.trade single) ∧ SameTerms single trade ∧
            (single.quantity = trade.quantity → SameAmounts single trade)) ∧
      ∀ day position before after, .opened day position before after ∈ execution.ledger.journal →
        ∀ size id single, simulateSignal run position.signal
            (barsOf run rows position.signal.symbol) { p with positionSize := size } id =
            .ok (.trade single) →
          single.exitReason.Triggered →
          (∃ last, (calendar run rows).getLast? = some last ∧ single.exitDate < last) →
          ∃ trade ∈ execution.ledger.trades, trade.symbol = position.signal.symbol ∧
            trade.signalDate = position.signal.signalDate ∧
            trade.entryDate = position.entryDate ∧ trade.exitDate = single.exitDate ∧
            trade.exitReason = single.exitReason := by
  intro p
  have hcompleted := executePortfolio_ok h
  have hload := execution_loaded h
  have hmirrored : Mirrored execution.context rows execution.ledger := by
    have hdays := hcompleted.days
    rw [hcompleted.start] at hdays
    refine runDays_mirrored hload ⟨?_, ?_⟩ ?_ hdays
    · simp [Ledger.start]
    · simp [Ledger.start]
    · intro symbol position hget
      simp [Ledger.start] at hget
  have hempty := executePortfolio_empty h
  obtain rfl := hcompleted.run_eq
  constructor
  · intro trade htrade hreason
    obtain ⟨entryBar, later, hmirror⟩ := hmirrored.trades trade htrade
    have hentry : entryBar ∈ barsOf execution.context.run rows trade.symbol := by
      have hin : entryBar ∈ laterBars execution.context.run rows
          ⟨trade.symbol, trade.signalDate⟩ := hmirror.bars ▸ List.mem_cons_self
      rw [laterBars, eligibleBars, List.mem_insertionSort, List.mem_filter] at hin
      exact hin.1
    exact ⟨entryBar, hentry, hmirror.entryDate.symm, fun size hsize id =>
      hmirror.simulated hreason hsize id⟩
  · rintro day position before after hopened size id single hsingle hreason ⟨last, hlast, hlt⟩
    rcases hmirrored.opened day position before after hopened with
      ⟨held, hheld, -⟩ | ⟨trade, htrade, hsymbol, hdate, hentry⟩
    · rw [hempty] at hheld
      simp at hheld
    · obtain ⟨entryBar, later, hmirror⟩ := hmirrored.trades trade htrade
      have hsignal : (⟨trade.symbol, trade.signalDate⟩ : BacktestSignal) = position.signal := by
        rw [hsymbol, hdate]
      rw [← hsignal] at hsingle
      exact ⟨trade, htrade, hsymbol, hdate, hentry,
        hmirror.exit hsingle hreason (hcompleted.dates ▸ hlast) hlt⟩

theorem portfolio_refines_independent_sample :
    ∃ execution, executePortfolio sampleRun sampleSignals sampleBars id = .ok execution ∧
      ∀ trade ∈ execution.ledger.trades, trade.exitReason.Triggered →
        ∃ entryBar ∈ barsOf sampleRun sampleBars trade.symbol,
          entryBar.tradingDate = trade.entryDate := by
  obtain ⟨execution, h⟩ := sampleRun_completes
  refine ⟨execution, h, fun trade htrade hreason => ?_⟩
  obtain ⟨entryBar, hbar, hdate, -⟩ := (portfolio_refines_independent h).1 trade htrade hreason
  exact ⟨entryBar, hbar, hdate⟩

/-! ## A share dearer than the initial capital -/

def allIn : Dict String Value :=
  ⟨[("initial_capital", .int 1000), ("max_open_positions", .int 1),
    ("position_sizing_mode", .str "fixed_fraction"), ("position_size_pct", .int 1),
    ("minimum_cash_buffer_pct", .int 0), ("slippage_rate", .int 0), ("commission_rate", .int 0),
    ("sell_tax_rate", .int 0), ("stop_loss_pct", .str "0.5")], by decide⟩

def allInRun : RunRequest := ⟨1, 1, 4, allIn⟩

/-- `A` multiplies the capital by ten; then `B` is bought at 5000 and stopped out. -/
def allInBars : List DailyBarRecord :=
  [⟨"A", 1, 100, 101, 99, 100, 5⟩, ⟨"A", 2, 1000, 1000, 900, 950, 5⟩,
   ⟨"B", 2, 5000, 5100, 4900, 5000, 5⟩, ⟨"B", 3, 2000, 2100, 1900, 2000, 5⟩,
   ⟨"B", 4, 2000, 2100, 1900, 2000, 5⟩]

/-- The trading parameters that portfolio mode hands on ask for a notional of the
initial capital, which does not buy the share that the run bought. -/
theorem stop_loss_beyond_capital :
    ∃ execution, executePortfolio allInRun [⟨"A", 0⟩, ⟨"B", 1⟩] allInBars id = .ok execution ∧
      (∃ trade ∈ execution.ledger.trades, trade.symbol = "B" ∧ trade.signalDate = 1 ∧
        trade.exitReason = .stopLoss) ∧
      simulateSignal allInRun ⟨"B", 1⟩ (barsOf allInRun allInBars "B") execution.context.p.trading
        0 =
        .ok (.skipped .insufficientPositionSize) := by
  have hrun : (executePortfolio allInRun [⟨"A", 0⟩, ⟨"B", 1⟩] allInBars id).map (fun e =>
      (e.ledger.trades.any fun t => t.symbol = "B" ∧ t.signalDate = 1 ∧ t.exitReason = .stopLoss,
        simulateSignal allInRun ⟨"B", 1⟩ (barsOf allInRun allInBars "B") e.context.p.trading 0)) =
      .ok (true, .ok (.skipped .insufficientPositionSize)) := by
    decide +kernel
  obtain ⟨execution, h, heq⟩ := map_ok.mp hrun
  simp only [Prod.mk.injEq, List.any_eq_true, decide_eq_true_eq] at heq
  exact ⟨execution, h, heq.1, heq.2⟩

end Screener.Backtest
