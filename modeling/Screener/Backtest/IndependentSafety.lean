import Screener.Backtest.DecimalBounds
import Screener.Backtest.ExitTriggers
import Screener.Backtest.PortfolioRefinement
import Screener.Lib.Sorted

/-!
# When the independent executor completes

A zero open is the only divisor that the table admits. Of the quantized results the
prices, the win rate and the holding days always fit the context; the amounts that are
multiplied by a quantity, summed or divided by a small loss need not. All of it holds in
any decimal context.
-/

namespace Screener.Backtest

open Screener.Lib
open Screener.Market (Date maxDate Symbol DailyBarRecord DailyBarTable)

/-! ## The table -/

/-- A `Numeric(20, 6)` price. -/
structure NumericPrice (price : ℚ) : Prop where
  nonneg : 0 ≤ price
  lt : price < 10 ^ 14
  grid : OnGrid 6 price

structure NumericBar (bar : DailyBar) : Prop where
  «open» : NumericPrice bar.open
  close : NumericPrice bar.close
  date : bar.tradingDate ≤ maxDate

/-- The daily bars with the types of their columns. -/
structure NumericTable extends DailyBarTable where
  prices : ∀ r ∈ rows, ∀ price ∈ [r.open, r.high, r.low, r.close], OnGrid 6 price ∧ price < 10 ^ 14
  dates : ∀ r ∈ rows, r.tradingDate ≤ maxDate

theorem NumericTable.ofRecord (table : NumericTable) {row : DailyBarRecord}
    (hrow : row ∈ table.rows) :
    NumericBar (DailyBar.ofRecord row) := by
  have hnonneg := table.nonNegative row hrow
  have hopen := table.prices row hrow row.open (by simp)
  have hclose := table.prices row hrow row.close (by simp)
  exact ⟨⟨hnonneg.1, hopen.2, hopen.1⟩, ⟨hnonneg.2.2.2.1, hclose.2, hclose.1⟩,
    table.dates row hrow⟩

theorem NumericTable.bar {table : NumericTable} {run : RunRequest} {signal : BacktestSignal}
    {bar : DailyBar} (h : bar ∈ laterBars run table.rows signal) : NumericBar bar := by
  obtain ⟨⟨row, hrow, rfl⟩, -⟩ := mem_laterBars.mp h
  exact table.ofRecord hrow

/-- A sale at one of four prices. -/
theorem ExitRule.fill_cases (rule : ExitRule) (bar : DailyBar) (reason : BacktestExitReason) :
    rule.fill bar reason = rule.stop ∨ rule.fill bar reason = rule.target ∨
      rule.fill bar reason = bar.open ∨ rule.fill bar reason = bar.close := by
  cases reason with
  | stopLoss => exact (ite_eq_or_eq _ _ _).elim (.inr ∘ .inr ∘ .inl) .inl
  | takeProfit => exact (ite_eq_or_eq _ _ _).elim (.inr ∘ .inr ∘ .inl) (.inr ∘ .inl)
  | _ => exact .inr (.inr (.inr rfl))

namespace DecimalContext

variable {c : DecimalContext}

/-- A price that is multiplied by a factor. -/
theorem scaled_bounds {q factor : ℚ} {m n : Nat} (hq : 0 ≤ q ∧ q ≤ m)
    (hfactor : 0 ≤ factor ∧ factor ≤ n) (hn : n < 10 ^ 20) (hmn : m * n < 10 ^ 20) :
    0 ≤ c.round (q * c.round factor) ∧ c.round (q * c.round factor) ≤ (m * n : Nat) := by
  have hnonneg := mul_nonneg hq.1 (c.round_nonneg hfactor.1)
  refine ⟨round_nonneg hnonneg, round_le hnonneg ?_ hmn⟩
  rw [Nat.cast_mul]
  exact mul_le_mul hq.2 (round_le hfactor.1 hfactor.2 hn) (round_nonneg hfactor.1)
    (Nat.cast_nonneg m)

theorem le_round {price q : ℚ} (h : NumericPrice price) (hq : price ≤ q) : price ≤ c.round q := by
  have hsize : |price| < 10 ^ 20 := by
    rw [abs_of_nonneg h.nonneg]
    exact h.lt.trans (by norm_num)
  calc price = c.round price := (c.round_short _ (h.grid.finer (by norm_num)) hsize).symm
    _ ≤ c.round q :=
      c.round_mono (Set.mem_Ici.mpr h.nonneg) (Set.mem_Ici.mpr (h.nonneg.trans hq)) hq

/-! ## The prices of a trade -/

section Prices

variable {p : BacktestParameters} {entryBar : DailyBar} {later : List DailyBar}

theorem open_le_entryPrice (hp : p.Accepted) (hbar : NumericBar entryBar) :
    entryBar.open ≤ c.entryPrice p entryBar := by
  have hone : c.round 1 = 1 := by exact_mod_cast c.round_natCast (n := 1) (by norm_num)
  have hslippage : (1 : ℚ) ≤ 1 + p.slippageRate := le_add_of_nonneg_right hp.slippage.1
  have hfactor : 1 ≤ c.round (1 + p.slippageRate) := by
    have hpos := zero_le_one' ℚ
    have h := c.round_mono (Set.mem_Ici.mpr hpos) (Set.mem_Ici.mpr (hpos.trans hslippage)) hslippage
    rwa [hone] at h
  exact le_round hbar.open (le_mul_of_one_le_right hbar.open.nonneg hfactor)

theorem entryPrice_bounds (hp : p.Accepted) (hbar : NumericBar entryBar) :
    0 ≤ c.entryPrice p entryBar ∧ c.entryPrice p entryBar ≤ (10 ^ 14 * 2 : Nat) := by
  have hopen : entryBar.open ≤ (10 ^ 14 : Nat) := by exact_mod_cast hbar.open.lt.le
  have hslippage := hp.slippage
  have hfactor : 0 ≤ 1 + p.slippageRate ∧ 1 + p.slippageRate ≤ (2 : Nat) := by
    push_cast
    constructor <;> linarith
  exact scaled_bounds ⟨hbar.open.nonneg, hopen⟩ hfactor (by norm_num) (by norm_num)

/-- Only a zero open makes a zero entry price. -/
theorem entryPrice_ne_zero (hp : p.Accepted) (hbar : NumericBar entryBar) :
    c.entryPrice p entryBar ≠ 0 ↔ 0 < entryBar.open := by
  constructor
  · intro hprice
    refine lt_of_le_of_ne hbar.open.nonneg fun hzero => hprice ?_
    rw [entryPrice, ← hzero, zero_mul, round_zero]
  · intro hopen
    exact (hopen.trans_le (open_le_entryPrice hp hbar)).ne'

/-- The raw exit is the stop, the target or a price of the table. -/
theorem rawExit_cases (p : BacktestParameters) (entryBar : DailyBar) (later : List DailyBar) :
    ∃ bar ∈ entryBar :: later,
      (c.exitOf p entryBar later).2.2 = (c.exitRule p (c.entryPrice p entryBar)).stop ∨
        (c.exitOf p entryBar later).2.2 = (c.exitRule p (c.entryPrice p entryBar)).target ∨
        (c.exitOf p entryBar later).2.2 = bar.open ∨
        (c.exitOf p entryBar later).2.2 = bar.close := by
  rw [exitOf_eq]
  cases hscan : (c.exitRule p (c.entryPrice p entryBar)).scan 1 later with
  | none =>
    refine ⟨later.getLast?.getD entryBar, ?_, .inr (.inr (.inr rfl))⟩
    cases hlast : later.getLast? with
    | none => exact List.mem_cons_self
    | some last => exact List.mem_cons_of_mem entryBar (List.mem_of_getLast? hlast)
  | some found =>
    obtain ⟨bar, reason, raw⟩ := found
    obtain ⟨hraw, passed, rest, hlater, -, -⟩ := ExitRule.scan_some hscan
    have hcases := (c.exitRule p (c.entryPrice p entryBar)).fill_cases bar reason
    rw [← hraw] at hcases
    exact ⟨bar, List.mem_cons_of_mem entryBar (by simp [hlater]), hcases⟩

theorem rawExit_bounds (hp : p.Accepted) (hbars : ∀ bar ∈ entryBar :: later, NumericBar bar) :
    0 ≤ (c.exitOf p entryBar later).2.2 ∧
      (c.exitOf p entryBar later).2.2 ≤ (10 ^ 14 * 2 * 11 : Nat) := by
  have hentry := entryPrice_bounds (c := c) hp (hbars entryBar List.mem_cons_self)
  have hprice : ∀ {price : ℚ}, NumericPrice price →
      0 ≤ price ∧ price ≤ (10 ^ 14 * 2 * 11 : Nat) := by
    intro price h
    refine ⟨h.nonneg, h.lt.le.trans ?_⟩
    norm_num
  have hstop : 0 ≤ 1 - p.stopLossPct ∧ 1 - p.stopLossPct ≤ (11 : Nat) := by
    have h := hp.stopLoss
    push_cast
    constructor <;> linarith
  have htarget : 0 ≤ 1 + p.takeProfitPct ∧ 1 + p.takeProfitPct ≤ (11 : Nat) := by
    have h := hp.takeProfit
    push_cast
    constructor <;> linarith
  obtain ⟨bar, hbar, hraw⟩ := c.rawExit_cases p entryBar later
  rcases hraw with hraw | hraw | hraw | hraw <;> rw [hraw]
  · exact scaled_bounds hentry hstop (by norm_num) (by norm_num)
  · exact scaled_bounds hentry htarget (by norm_num) (by norm_num)
  · exact hprice (hbars bar hbar).open
  · exact hprice (hbars bar hbar).close

/-- The prices of a trade can always be quantized. -/
theorem prices_fit (hp : p.Accepted) (hbars : ∀ bar ∈ entryBar :: later, NumericBar bar)
    (quantity : Nat) :
    c.Fits (c.tradeAmounts p entryBar (c.exitOf p entryBar later).2.2 quantity).entryPrice ∧
      c.Fits (c.tradeAmounts p entryBar (c.exitOf p entryBar later).2.2 quantity).exitPrice := by
  have hentry := entryPrice_bounds (c := c) hp (hbars entryBar List.mem_cons_self)
  have hslippage : 0 ≤ 1 - p.slippageRate ∧ 1 - p.slippageRate ≤ (1 : Nat) := by
    have h := hp.slippage
    push_cast
    constructor <;> linarith
  have hraw := rawExit_bounds (c := c) hp hbars
  have hexit := scaled_bounds (c := c) hraw hslippage (by norm_num) (by norm_num)
  exact ⟨fits_of_le hentry.1 (hentry.2.trans (by norm_num)),
    fits_of_le hexit.1 (hexit.2.trans (by norm_num))⟩

end Prices

/-! ## One signal -/

variable (c)

/-- `quantity`, where the entry price is not zero. -/
def shares (p : BacktestParameters) (entryBar : DailyBar) : ℤ :=
  roundDown (c.round (p.positionSize / c.entryPrice p entryBar))

/-- The amounts of a signal that is bought on `entryBar`. -/
def amountsOf (p : BacktestParameters) (entryBar : DailyBar) (later : List DailyBar) :
    TradeAmounts :=
  c.tradeAmounts p entryBar (c.exitOf p entryBar later).2.2 (c.shares p entryBar).toNat

/-- What a signal needs of the bars after it: an entry price, and if a share is bought at it,
amounts that fit. -/
def SignalSafe (p : BacktestParameters) : List DailyBar → Prop
  | [] => True
  | entryBar :: later =>
    c.entryPrice p entryBar ≠ 0 ∧
      (1 ≤ c.shares p entryBar → c.AmountsFit (c.amountsOf p entryBar later))

/-- What a signal comes to, read off the bars after it. -/
def outcomeOf (run : RunRequest) (signal : BacktestSignal) (p : BacktestParameters) (id : UUID) :
    List DailyBar → SignalOutcome
  | [] => .skipped .noEntryBar
  | entryBar :: later =>
    if c.shares p entryBar < 1 then .skipped .insufficientPositionSize
    else .trade (c.singleTrade run signal p entryBar later (c.shares p entryBar).toNat id)

variable {c}

instance (p : BacktestParameters) : (bars : List DailyBar) → Decidable (c.SignalSafe p bars)
  | [] => isTrue trivial
  | _ :: _ => inferInstanceAs (Decidable (_ ∧ _))

/-- A signal is simulated exactly when it is safe. -/
theorem simulateSignal_ok {run : RunRequest} {signal : BacktestSignal} {bars : List DailyBar}
    {p : BacktestParameters} {id : UUID} {outcome : SignalOutcome} :
    c.simulateSignal run signal bars p id = .ok outcome ↔
      c.SignalSafe p (eligibleBars run signal bars) ∧
        c.outcomeOf run signal p id (eligibleBars run signal bars) = outcome := by
  unfold simulateSignal
  cases eligibleBars run signal bars with
  | nil => simp [SignalSafe, outcomeOf]
  | cons entryBar later =>
    simp only [bind_ok, divide_ok, SignalSafe, outcomeOf]
    constructor
    · rintro ⟨_, ⟨hprice, rfl⟩, h⟩
      change (if c.shares p entryBar < 1 then _ else _) = _ at h
      by_cases hshares : c.shares p entryBar < 1
      · rw [if_pos hshares, Except.ok.injEq] at h
        rw [if_pos hshares]
        exact ⟨⟨hprice, fun hone => absurd hone (not_le.mpr hshares)⟩, h⟩
      · rw [if_neg hshares] at h
        rw [if_neg hshares]
        split at h
        · next hfit =>
          rw [Except.ok.injEq] at h
          exact ⟨⟨hprice, fun _ => hfit⟩, h⟩
        · cases h
    · rintro ⟨⟨hprice, hfit⟩, h⟩
      refine ⟨_, ⟨hprice, rfl⟩, ?_⟩
      change (if c.shares p entryBar < 1 then _ else _) = _
      by_cases hshares : c.shares p entryBar < 1
      · rw [if_pos hshares] at h ⊢
        rw [h]
      · rw [if_neg hshares] at h ⊢
        refine (if_pos (hfit (not_lt.mp hshares))).trans ?_
        rw [← h]
        rfl

/-! ## The trades of a run -/

/-- What the summary relies on. -/
structure SoundTrade (t : BacktestTrade) : Prop where
  notional : 0 < t.entryPrice * t.quantity
  holding : t.holdingDays ≤ maxDate + 1
  grid : OnGrid 8 t.netPnl

theorem singleTrade_sound {run : RunRequest} {signal : BacktestSignal} {p : BacktestParameters}
    {entryBar : DailyBar} {later : List DailyBar} (id : UUID) (hp : p.Accepted)
    (hbars : ∀ bar ∈ entryBar :: later, NumericBar bar)
    (hdates : (entryBar :: later).Pairwise fun a b => a.tradingDate < b.tradingDate)
    (hprice : c.entryPrice p entryBar ≠ 0) {quantity : Nat} (hquantity : 0 < quantity) :
    SoundTrade (c.singleTrade run signal p entryBar later quantity id) := by
  constructor
  · have hbar := hbars entryBar List.mem_cons_self
    have hopen := (entryPrice_ne_zero hp hbar).mp hprice
    have hprice : entryBar.open ≤ Backtest.quantize (c.entryPrice p entryBar) := by
      have h := quantizeWith_mono 8 roundHalfEven_mono (open_le_entryPrice (c := c) hp hbar)
      rwa [quantizeWith_of_onGrid roundHalfEven_intCast (hbar.open.grid.finer (by norm_num))] at h
    exact mul_pos (hopen.trans_le hprice) (by exact_mod_cast hquantity)
  · have hlength := length_le_of_strict hdates fun bar hbar => (hbars bar hbar).date
    have hindex := List.idxOf_le_length (a := (c.exitOf p entryBar later).1) (l := later)
    rw [List.length_cons] at hlength
    simp only [singleTrade]
    split <;> omega
  · exact onGrid_quantizeWith _ _ _

variable (c)

def appendOutcome (trades : List BacktestTrade) : SignalOutcome → List BacktestTrade
  | .trade trade => trades ++ [trade]
  | .skipped _ => trades

/-- The trades that the signals come to, one after the other. -/
def tradesOf (run : RunRequest) (rows : List DailyBarRecord) (p : BacktestParameters)
    (uuid4 : Nat → UUID) (signals : List BacktestSignal) : List BacktestTrade :=
  signals.foldl (fun trades signal => appendOutcome trades
    (c.outcomeOf run signal p (uuid4 trades.length) (laterBars run rows signal))) []

variable {c}

section Run

variable {run : RunRequest} {table : NumericTable} {p : BacktestParameters} {uuid4 : Nat → UUID}
  {signals : List BacktestSignal}

theorem simulateNext_eq (bars : Symbol → List DailyBar) (trades : List BacktestTrade)
    (signal : BacktestSignal) :
    c.simulateNext run p bars uuid4 trades signal =
      (c.simulateSignal run signal (bars signal.symbol) p (uuid4 trades.length)).map
        (appendOutcome trades) := by
  unfold simulateNext
  cases c.simulateSignal run signal (bars signal.symbol) p (uuid4 trades.length) with
  | error e => rfl
  | ok outcome => cases outcome <;> rfl

/-- The loop, over bars that hold for each signal what the table holds after it. -/
theorem simulateNext_ok {bars : Symbol → List DailyBar} {signal : BacktestSignal}
    (hbars : eligibleBars run signal (bars signal.symbol) = laterBars run table.rows signal)
    (trades trades' : List BacktestTrade) :
    c.simulateNext run p bars uuid4 trades signal = .ok trades' ↔
      c.SignalSafe p (laterBars run table.rows signal) ∧
        appendOutcome trades (c.outcomeOf run signal p (uuid4 trades.length)
          (laterBars run table.rows signal)) = trades' := by
  rw [simulateNext_eq, map_ok]
  simp only [simulateSignal_ok, hbars]
  constructor
  · rintro ⟨_, ⟨hsafe, rfl⟩, h⟩
    exact ⟨hsafe, h⟩
  · rintro ⟨hsafe, h⟩
    exact ⟨_, ⟨hsafe, rfl⟩, h⟩

theorem simulate_ok (signals : List BacktestSignal) (bars : Symbol → List DailyBar)
    (hbars : ∀ signal ∈ signals,
      eligibleBars run signal (bars signal.symbol) = laterBars run table.rows signal)
    (uuid4 : Nat → UUID) (trades : List BacktestTrade) :
    signals.foldlM (c.simulateNext run p bars uuid4) [] = .ok trades ↔
      (∀ signal ∈ signals, c.SignalSafe p (laterBars run table.rows signal)) ∧
        c.tradesOf run table.rows p uuid4 signals = trades :=
  foldlM_guarded fun signal hsignal trades trades' =>
    simulateNext_ok (hbars signal hsignal) trades trades'

theorem tradesOf_sound (hp : p.Accepted)
    (hsafe : ∀ signal ∈ signals, c.SignalSafe p (laterBars run table.rows signal)) :
    ∀ t ∈ c.tradesOf run table.rows p uuid4 signals, SoundTrade t := by
  refine List.foldlRecOn signals _ (motive := fun trades => ∀ t ∈ trades, SoundTrade t) (by simp) ?_
  intro trades htrades signal hsignal
  have hsafe := hsafe signal hsignal
  have hnumeric : ∀ bar ∈ laterBars run table.rows signal, NumericBar bar :=
    fun bar hbar => NumericTable.bar hbar
  have hdates : (laterBars run table.rows signal).Pairwise fun a b =>
      a.tradingDate < b.tradingDate :=
    laterBars_pairwise (List.mem_singleton_self signal.symbol)
      (loadBars_distinct run table.toDailyBarTable [signal.symbol])
  cases hlater : laterBars run table.rows signal with
  | nil => exact htrades
  | cons entryBar later =>
    rw [hlater] at hsafe hnumeric hdates
    simp only [outcomeOf]
    by_cases hshares : c.shares p entryBar < 1
    · rw [if_pos hshares]
      exact htrades
    · rw [if_neg hshares]
      exact forall_mem_concat htrades
        (singleTrade_sound _ hp hnumeric hdates hsafe.1 (by omega))

end Run

/-! ## The summary of the trades -/

variable (c)

def grossProfit (trades : List BacktestTrade) : ℚ :=
  c.sum ((trades.filter (·.netPnl > 0)).map (·.netPnl))

def grossLoss (trades : List BacktestTrade) : ℚ :=
  c.sum ((trades.filter (·.netPnl < 0)).map (·.netPnl))

def netProfit (trades : List BacktestTrade) : ℚ := c.sum (trades.map (·.netPnl))

def tradeReturn (t : BacktestTrade) : ℚ := c.round (t.netPnl / c.round (t.entryPrice * t.quantity))

/-- The results of the summary that depend on the size of the amounts. -/
structure SummaryFits (p : BacktestParameters) (trades : List BacktestTrade) : Prop where
  capital : c.Fits p.initialCapital
  profit : c.Fits (c.grossProfit trades)
  loss : c.Fits (c.grossLoss trades)
  net : c.Fits (c.netProfit trades)
  totalReturn : c.Fits (c.round (c.netProfit trades / p.initialCapital))
  averageReturn : c.Fits (c.perCount (c.sum (trades.map c.tradeReturn)) trades.length)
  profitFactor : c.grossLoss trades ≠ 0 →
    c.Fits (c.round (c.grossProfit trades / c.round |c.grossLoss trades|))
  drawdown : c.Fits
    ((trades.insertionSort exitOrder).foldl c.step (Curve.start p.initialCapital)).drawdown

variable {c}

instance (p : BacktestParameters) (trades : List BacktestTrade) :
    Decidable (c.SummaryFits p trades) :=
  decidable_of_iff (c.Fits p.initialCapital ∧ c.Fits (c.grossProfit trades) ∧
    c.Fits (c.grossLoss trades) ∧ c.Fits (c.netProfit trades) ∧
    c.Fits (c.round (c.netProfit trades / p.initialCapital)) ∧
    c.Fits (c.perCount (c.sum (trades.map c.tradeReturn)) trades.length) ∧
    (c.grossLoss trades ≠ 0 →
      c.Fits (c.round (c.grossProfit trades / c.round |c.grossLoss trades|))) ∧
    c.Fits ((trades.insertionSort exitOrder).foldl c.step (Curve.start p.initialCapital)).drawdown)
    ⟨fun ⟨capital, profit, loss, net, total, average, factor, drawdown⟩ =>
        ⟨capital, profit, loss, net, total, average, factor, drawdown⟩,
      fun h => ⟨h.capital, h.profit, h.loss, h.net, h.totalReturn, h.averageReturn, h.profitFactor,
        h.drawdown⟩⟩

/-- An average of small numbers fits. -/
theorem perCount_fits {value : ℚ} {count bound : Nat} (h : 0 ≤ value)
    (hvalue : value ≤ count * bound)
    (hbound : bound ≤ 10 ^ 16) : c.Fits (c.perCount value count) := by
  unfold perCount
  split
  · exact fits_of_le le_rfl (by norm_num)
  · next hcount =>
    have hpos : (0 : ℚ) < count := by exact_mod_cast Nat.pos_of_ne_zero hcount
    have hnonneg := div_nonneg h hpos.le
    have hle : value / count ≤ bound := (div_le_iff₀ hpos).mpr (by linarith)
    exact fits_of_le (round_nonneg hnonneg)
      ((round_le hnonneg hle (by omega)).trans (by exact_mod_cast hbound))

section Summary

variable {p : BacktestParameters} {trades : List BacktestTrade}

theorem winRate_fits : c.Fits (c.perCount (trades.filter (·.netPnl > 0)).length trades.length) := by
  have hle : ((trades.filter (·.netPnl > 0)).length : ℚ) ≤ trades.length * (1 : Nat) := by
    rw [Nat.cast_one, mul_one]
    exact_mod_cast List.length_filter_le _ _
  exact perCount_fits (Nat.cast_nonneg _) hle (by norm_num)

theorem averageHoldingDays_fits (hsound : ∀ t ∈ trades, SoundTrade t) :
    c.Fits (c.perCount (trades.map fun t => (t.holdingDays : ℚ)).sum trades.length) := by
  have hdays : ∀ days ∈ trades.map fun t => (t.holdingDays : ℚ), days ≤ (maxDate + 1 : Nat) := by
    intro days hmem
    obtain ⟨t, ht, rfl⟩ := List.mem_map.mp hmem
    exact_mod_cast (hsound t ht).holding
  have hsum := List.sum_le_card_nsmul _ _ hdays
  rw [List.length_map, nsmul_eq_mul] at hsum
  refine perCount_fits (List.sum_nonneg fun days hmem => ?_) hsum (by decide)
  obtain ⟨t, -, rfl⟩ := List.mem_map.mp hmem
  exact Nat.cast_nonneg _

theorem profitFactor_ok {profit loss : ℚ} :
    (∃ factor, c.profitFactor profit loss = .ok factor) ↔
      (loss ≠ 0 → c.Fits (c.round (profit / c.round |loss|))) := by
  unfold profitFactor
  by_cases hloss : loss = 0
  · simp [hloss]
  · have hpos : c.round |loss| ≠ 0 := (c.round_pos _ (abs_pos.mpr hloss)).ne'
    simp only [if_neg hloss, bind_ok, divide_ok, quantize_ok, pure_ok]
    constructor
    · rintro ⟨_, _, ⟨-, rfl⟩, _, ⟨hfits, -⟩, -⟩ -
      exact hfits
    · intro hfits
      exact ⟨_, _, ⟨hpos, rfl⟩, _, ⟨hfits hloss, rfl⟩, rfl⟩

/-- The summary of sound trades exists exactly when its amounts fit. -/
theorem calculateMetrics_ok (hp : p.Accepted) (hsound : ∀ t ∈ trades, SoundTrade t)
    (totalSignals : Nat) :
    (∃ metrics, c.calculateMetrics trades totalSignals p = .ok metrics) ↔
      c.SummaryFits p trades := by
  have hreturns : (trades.mapM fun t => c.divide t.netPnl (c.round (t.entryPrice * t.quantity))) =
      .ok (trades.map c.tradeReturn) := by
    refine mapM_ok_map fun t ht => divide_ok.mpr ⟨?_, rfl⟩
    exact (c.round_pos _ (hsound t ht).notional).ne'
  have hcapital := hp.capital.ne'
  simp only [calculateMetrics, hreturns, bind_ok, quantize_ok, divide_ok, Except.ok.injEq]
  constructor
  · rintro ⟨metrics, _, ⟨hcap, -⟩, _, -, _, ⟨hprofit, -⟩, _, ⟨hloss, -⟩, _, ⟨hnet, -⟩,
      _, ⟨-, rfl⟩, _, ⟨htotal, -⟩, _, rfl, _, ⟨haverage, -⟩, _, -, factor, hfactor, _,
      ⟨hdrawdown, -⟩, -⟩
    exact ⟨hcap, hprofit, hloss, hnet, htotal, haverage, profitFactor_ok.mp ⟨factor, hfactor⟩,
      hdrawdown⟩
  · intro h
    obtain ⟨factor, hfactor⟩ := profitFactor_ok.mpr h.profitFactor
    exact ⟨_, _, ⟨h.capital, rfl⟩, _, ⟨winRate_fits, rfl⟩, _, ⟨h.profit, rfl⟩, _, ⟨h.loss, rfl⟩,
      _, ⟨h.net, rfl⟩, _, ⟨hcapital, rfl⟩, _, ⟨h.totalReturn, rfl⟩, _, rfl,
      _, ⟨h.averageReturn, rfl⟩, _, ⟨averageHoldingDays_fits hsound, rfl⟩, factor, hfactor,
      _, ⟨h.drawdown, rfl⟩, rfl⟩

end Summary

/-! ## Totality -/

section Total

variable (c) (run : RunRequest) (generated : List BacktestSignal) (rows : List DailyBarRecord)
  (uuid4 : Nat → UUID) (p : BacktestParameters)

/-- No error of `x` is an `ArithmeticError`. -/
abbrev NeverArithmetic {α : Type} (x : Except ExecutionError α) : Prop :=
  OnlyRaises (fun e => e.isArithmetic = false) x

/-- Every signal yields a trade or a skip, their trades have a summary, and the executor
raises nothing arithmetic. -/
structure Total : Prop where
  signals : ∀ signal ∈ generated, ∀ id, ∃ outcome,
    c.simulateSignal run signal (barsOf run rows signal.symbol) p id = .ok outcome
  summary : ∀ trades totalSignals,
    (generated.insertionSort BacktestSignal.le).foldlM
        (c.simulateNext run p (barsOf run rows) uuid4) [] = .ok trades →
      ∃ metrics, c.calculateMetrics trades totalSignals p = .ok metrics
  execute : NeverArithmetic (c.execute run generated rows uuid4)

/-- The same said of the bars after each signal and of the amounts that come of them. -/
structure Safe : Prop where
  signals : ∀ signal ∈ generated, c.SignalSafe p (laterBars run rows signal)
  summary : c.SummaryFits p
    (c.tradesOf run rows p uuid4 (generated.insertionSort BacktestSignal.le))

end Total

variable {run : RunRequest} {generated : List BacktestSignal} {table : NumericTable}
  {uuid4 : Nat → UUID} {p : BacktestParameters}

theorem sorted_signals {P : BacktestSignal → Prop} :
    (∀ signal ∈ generated.insertionSort BacktestSignal.le, P signal) ↔
      ∀ signal ∈ generated, P signal := by
  simp only [List.mem_insertionSort]

/-- The index holds for each signal what the table holds after it. -/
theorem index_laterBars {index : Dict Symbol (List DailyBar) × List (Symbol × Date)}
    (hindex : ((loadBars run table.rows
      (signalSymbols (generated.insertionSort BacktestSignal.le))).insertionSort
        DailyBar.symbolLe).foldlM addSymbolBar (Dict.empty, []) = .ok index) :
    ∀ signal ∈ generated.insertionSort BacktestSignal.le,
      eligibleBars run signal (index.1.getD signal.symbol []) =
        laterBars run table.rows signal := by
  intro signal hsignal
  rw [symbolIndex_getD hindex,
    eligibleBars_index (loadBars_distinct run table.toDailyBarTable _) hsignal]

/-- A run that computes its trades has simulated safe signals. -/
theorem executeIndependent_trades (hparse : BacktestParameters.parse run.parameters = .ok p)
    {x : IndependentTrades} (h : c.executeIndependent run generated table.rows uuid4 = .ok x) :
    (∀ signal ∈ generated, c.SignalSafe p (laterBars run table.rows signal)) ∧ x.p = p ∧
      x.trades = c.tradesOf run table.rows p uuid4 (generated.insertionSort BacktestSignal.le) := by
  simp only [executeIndependent, hparse, bind_ok, pure_ok, require_ok, exists_const] at h
  obtain ⟨-, q, hq, index, hindex, trades, htrades, rfl⟩ := h
  obtain rfl := Except.ok.inj hq
  obtain ⟨hsafe, hof⟩ := (simulate_ok _ (index.1.getD · []) (index_laterBars hindex) uuid4 _).mp
    htrades
  exact ⟨sorted_signals.mp hsafe, rfl, hof.symm⟩

/-- Before its summary a run of safe signals raises nothing arithmetic. -/
theorem executeIndependent_neverArithmetic
    (hparse : BacktestParameters.parse run.parameters = .ok p)
    (hsafe : ∀ signal ∈ generated, c.SignalSafe p (laterBars run table.rows signal)) :
    NeverArithmetic (c.executeIndependent run generated table.rows uuid4) := by
  have hadd : ∀ index row, NeverArithmetic (addSymbolBar index row) :=
    fun _ _ => OnlyRaises.ite (OnlyRaises.error rfl) (OnlyRaises.ok _)
  unfold executeIndependent
  rw [hparse]
  refine OnlyRaises.bind (OnlyRaises.ite (OnlyRaises.ok ()) (OnlyRaises.error rfl)) fun _ _ => ?_
  refine OnlyRaises.bind (OnlyRaises.ok p) fun q hq => ?_
  obtain rfl : p = q := Except.ok.inj hq
  refine OnlyRaises.bind (OnlyRaises.foldlM (fun index row _ => hadd index row) _)
    fun index hindex => ?_
  have htrades := (simulate_ok _ (index.1.getD · []) (index_laterBars hindex) uuid4 _).mpr
    ⟨sorted_signals.mpr hsafe, rfl⟩
  dsimp only
  rw [htrades]
  exact OnlyRaises.ok _

/-- What is not executed up to its metrics has been refused before. -/
theorem execute_of_safe (hparse : BacktestParameters.parse run.parameters = .ok p)
    (hsafe : c.Safe run generated table.rows uuid4 p) :
    NeverArithmetic (c.execute run generated table.rows uuid4) := by
  have hp := (BacktestParameters.parse_ok.mp hparse).2
  refine OnlyRaises.bind (executeIndependent_neverArithmetic hparse hsafe.signals) fun x hx => ?_
  obtain ⟨-, rfl, htrades⟩ := executeIndependent_trades hparse hx
  have hsound : ∀ t ∈ c.tradesOf run table.rows x.p uuid4
      (generated.insertionSort BacktestSignal.le), SoundTrade t :=
    tradesOf_sound hp (sorted_signals.mpr hsafe.signals)
  obtain ⟨metrics, hmetrics⟩ := (calculateMetrics_ok hp hsound x.totalSignals).mpr hsafe.summary
  rw [htrades, hmetrics]
  exact OnlyRaises.ok metrics

theorem total_iff_safe (hparse : BacktestParameters.parse run.parameters = .ok p) :
    c.Total run generated table.rows uuid4 p ↔ c.Safe run generated table.rows uuid4 p := by
  have hp := (BacktestParameters.parse_ok.mp hparse).2
  have hsimulate := simulate_ok (c := c) (p := p) (generated.insertionSort BacktestSignal.le)
    (barsOf run table.rows) (fun _ _ => rfl) uuid4
  constructor
  · intro h
    have hsignals : ∀ signal ∈ generated, c.SignalSafe p (laterBars run table.rows signal) := by
      intro signal hmem
      obtain ⟨outcome, houtcome⟩ := h.signals signal hmem 0
      exact (simulateSignal_ok.mp houtcome).1
    have hsafe := sorted_signals.mpr hsignals
    refine ⟨hsignals, ?_⟩
    exact (calculateMetrics_ok hp (tradesOf_sound hp hsafe) 0).mp
      (h.summary _ 0 ((hsimulate _).mpr ⟨hsafe, rfl⟩))
  · intro h
    refine ⟨fun signal hmem id => ⟨_, simulateSignal_ok.mpr ⟨h.signals signal hmem, rfl⟩⟩,
      fun trades totalSignals htrades => ?_, execute_of_safe hparse h⟩
    obtain ⟨hsafe, rfl⟩ := (hsimulate trades).mp htrades
    exact (calculateMetrics_ok hp (tradesOf_sound hp hsafe) totalSignals).mpr h.summary

end DecimalContext

end Screener.Backtest
