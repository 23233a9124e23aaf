import Screener.Backtest.PortfolioAccounting
import Screener.Backtest.PortfolioLoading
import Mathlib.Tactic.FieldSimp
import Mathlib.Tactic.Positivity

/-!
# Cash, equity and drawdown of a portfolio run

A purchase is made only out of the cash at hand, so cash can turn negative in a
sale alone: when the commission and the tax together exceed what is sold. The
validator bounds each rate by one and not their sum. Up to a sum of one every
run stays solvent; above it some run of the same parameters does not.
-/

namespace Screener.Backtest

open Screener.Lib
open Screener.Market (Date Symbol DailyBarRecord DailyBarTable)

variable {c : Context}

/-- The state an event leaves. -/
def Event.after : Event → PortfolioState
  | .closed _ _ _ _ after => after
  | .opened _ _ _ after => after
  | .marked _ _ _ _ after => after

structure Solvent (execution : PortfolioExecution) : Prop where
  cash : ∀ e ∈ execution.ledger.journal, 0 ≤ e.after.cash
  equity : ∀ s ∈ execution.ledger.snapshots, 0 ≤ s.totalEquity
  drawdown : ∀ s ∈ execution.ledger.snapshots, 0 ≤ s.drawdownPct ∧ s.drawdownPct ≤ 1
  utilization : 0 ≤ execution.metrics.averageCapitalUtilization ∧
    execution.metrics.averageCapitalUtilization ≤ 1

/-! ## Quantized quantities stay in range -/

theorem quantize_nonneg {q : ℚ} (h : 0 ≤ q) : 0 ≤ quantize q := by
  have h0 := quantizeWith_intCast 8 roundHalfEven_intCast 0
  rw [Int.cast_zero] at h0
  have hmono := quantizeWith_mono 8 roundHalfEven_mono h
  rwa [h0] at hmono

theorem quantize_unit {q : ℚ} (h0 : 0 ≤ q) (h1 : q ≤ 1) : 0 ≤ quantize q ∧ quantize q ≤ 1 := by
  have hlow : ((0 : ℤ) : ℚ) ≤ q := by exact_mod_cast h0
  have hhigh : q ≤ ((1 : ℤ) : ℚ) := by exact_mod_cast h1
  exact_mod_cast quantizeWith_mem_Icc 8 roundHalfEven_mono roundHalfEven_intCast hlow hhigh

/-! ## What a sale brings in -/

theorem proceeds_eq (position : OpenPosition) (raw : ℚ) :
    proceeds c position raw = raw * (1 - c.p.trading.slippageRate) * position.quantity *
      (1 - (c.p.trading.commissionRate + c.p.trading.sellTaxRate)) := by
  simp only [proceeds]
  ring

theorem proceeds_nonneg (hp : c.p.Accepted)
    (hfees : c.p.trading.commissionRate + c.p.trading.sellTaxRate ≤ 1) (position : OpenPosition)
    {raw : ℚ} (hraw : 0 ≤ raw) : 0 ≤ proceeds c position raw := by
  have hslip : 0 ≤ 1 - c.p.trading.slippageRate := by linarith [hp.trading.slippage.2]
  have hrest : 0 ≤ 1 - (c.p.trading.commissionRate + c.p.trading.sellTaxRate) := by linarith
  rw [proceeds_eq]
  positivity

/-- An exit is at the open, at the close, or at one of the two trigger prices. -/
theorem exitTerms_raw {position : OpenPosition} {bar : DailyBar} {p : BacktestParameters}
    {final : Bool} {reason : BacktestExitReason} {raw : ℚ}
    (h : exitTerms position bar p final = some (reason, raw)) :
    raw = bar.open ∨ raw = bar.close ∨ raw = position.entryPrice * (1 - p.stopLossPct) ∨
      raw = position.entryPrice * (1 + p.takeProfitPct) := by
  simp only [exitTerms_unfold] at h
  split_ifs at h <;> simp only [Option.some.injEq, Prod.mk.injEq] at h
  all_goals obtain ⟨-, rfl⟩ := h; simp

theorem exitBar_prices {bars : Dict Symbol DailyBar} {final : Bool} {day : Date} {symbol : Symbol}
    {position : OpenPosition} {bar : DailyBar}
    (h : exitBar bars final day symbol position = some bar) :
    bars.get? symbol = some bar ∨
      (bar.open = position.lastClose ∧ bar.close = position.lastClose) := by
  unfold exitBar at h
  split at h
  · rename_i b hb
    exact .inl (hb.trans h)
  · split at h
    · simp only [Option.some.injEq] at h
      rw [← h]
      exact .inr ⟨rfl, rfl⟩
    · simp at h

/-! ## The invariant -/

/-- The prices of the index that the day loop reads are not negative. -/
def NonNegativeBars (c : Context) : Prop :=
  ∀ day symbol bar, (c.bars day).get? symbol = some bar → 0 ≤ bar.open ∧ 0 ≤ bar.close

structure Funded (ledger : Ledger) : Prop where
  cash : 0 ≤ ledger.state.cash
  peak : 0 < ledger.state.runningPeak
  prices : ∀ symbol p, ledger.state.positions.get? symbol = some p →
    0 ≤ p.entryPrice ∧ 0 ≤ p.lastClose
  events : ∀ e ∈ ledger.journal, 0 ≤ e.after.cash
  equity : ∀ s ∈ ledger.snapshots, 0 ≤ s.totalEquity
  drawdown : ∀ s ∈ ledger.snapshots, 0 ≤ s.drawdownPct ∧ s.drawdownPct ≤ 1
  utilization : 0 ≤ ledger.utilizationSum ∧ ledger.utilizationSum ≤ ledger.snapshots.length

theorem Funded.close {ledger : Ledger} {symbol : Symbol} {position : OpenPosition} {raw : ℚ}
    (h : Funded ledger) (hsale : 0 ≤ proceeds c position raw) (day : Date)
    (reason : BacktestExitReason) :
    Funded (closePosition c ledger symbol position day raw reason) := by
  have hcash : 0 ≤ (closePosition c ledger symbol position day raw reason).state.cash := by
    rw [closePosition_cash]
    exact add_nonneg h.cash hsale
  refine ⟨hcash, h.peak, Dict.forall_get?_erase h.prices symbol, ?_, h.equity, h.drawdown,
    h.utilization⟩
  rw [closePosition_journal]
  exact forall_mem_concat h.events hcash

theorem Funded.open {ledger : Ledger} {signal : BacktestSignal} {bar : DailyBar} {quantity : Nat}
    (h : Funded ledger) (hprice : 0 ≤ effectivePrice c bar)
    (hcash : requiredCash c (effectivePrice c bar) quantity ≤ ledger.state.cash) (day : Date) :
    Funded (openPosition c ledger signal day bar quantity) := by
  have hleft : 0 ≤ (openPosition c ledger signal day bar quantity).state.cash :=
    sub_nonneg.mpr hcash
  exact ⟨hleft, h.peak, Dict.forall_get?_set h.prices ⟨hprice, hprice⟩,
    forall_mem_concat h.events hleft, h.equity, h.drawdown, h.utilization⟩

theorem Funded.mark {ledger : Ledger} (h : Funded ledger) (hbars : NonNegativeBars c) (day : Date) :
    Funded (closeDay c day (c.bars day) ledger) := by
  have hprices : ∀ symbol p,
      (ledger.state.positions.mapValues (markPosition (c.bars day))).get? symbol = some p →
      0 ≤ p.entryPrice ∧ 0 ≤ p.lastClose := by
    refine Dict.forall_get?_mapValues_iff.mpr fun symbol p hget => ?_
    have hpos := h.prices symbol p hget
    unfold markPosition
    split
    · rename_i bar hbar
      exact ⟨hpos.1, (hbars day symbol bar hbar).2⟩
    · exact hpos
  have hmarket : 0 ≤ (ledger.state.positions.mapValues (markPosition (c.bars day))).sum
      fun _ p => p.marketValue :=
    Dict.sum_nonneg fun symbol p hget => mul_nonneg (hprices symbol p hget).2 p.quantity.cast_nonneg
  set market := (ledger.state.positions.mapValues (markPosition (c.bars day))).sum
    fun _ p => p.marketValue with hmarketdef
  have hequity : 0 ≤ ledger.state.cash + market := add_nonneg h.cash hmarket
  have hpeak : 0 < max ledger.state.runningPeak (ledger.state.cash + market) :=
    lt_max_of_lt_left h.peak
  have hle := le_max_right ledger.state.runningPeak (ledger.state.cash + market)
  rw [closeDay_eq]
  refine ⟨h.cash, hpeak, hprices, ?_, ?_, ?_, ?_⟩
  · exact forall_mem_concat h.events h.cash
  · exact forall_mem_concat h.equity (quantize_nonneg hequity)
  · refine forall_mem_concat h.drawdown
      (quantize_unit (div_nonneg (sub_nonneg.mpr hle) hpeak.le) ?_)
    exact (div_le_one hpeak).mpr (sub_le_self _ hequity)
  · -- A day adds between nothing and one to the sum.
    have hday : 0 ≤ (if ledger.state.cash + market = 0 then 0 else
        market / (ledger.state.cash + market)) ∧
        (if ledger.state.cash + market = 0 then 0 else market / (ledger.state.cash + market)) ≤
          1 := by
      split_ifs with hzero
      · exact ⟨le_refl _, zero_le_one⟩
      · have hpos := lt_of_le_of_ne hequity (Ne.symm hzero)
        exact ⟨div_nonneg hmarket hpos.le, (div_le_one hpos).mpr (le_add_of_nonneg_left h.cash)⟩
    simp only [List.length_append, List.length_singleton, Nat.cast_add, Nat.cast_one]
    exact ⟨add_nonneg h.utilization.1 hday.1, add_le_add h.utilization.2 hday.2⟩

theorem funded_kept (hp : c.p.Accepted)
    (hfees : c.p.trading.commissionRate + c.p.trading.sellTaxRate ≤ 1) (hbars : NonNegativeBars c) :
    Kept .unlimited c Funded where
  hold _ symbol position h hget :=
    ⟨h.cash, h.peak, Dict.forall_get?_set h.prices (h.prices symbol position hget), h.events,
      h.equity, h.drawdown, h.utilization⟩
  exit ledger symbol position day bar reason raw h hget hbar hterms := by
    refine h.close (proceeds_nonneg hp hfees position ?_) day reason
    have hpos := h.prices symbol position hget
    have hprices : 0 ≤ bar.open ∧ 0 ≤ bar.close := by
      rcases exitBar_prices hbar with hbar | ⟨hopen, hclose⟩
      · exact hbars day symbol bar hbar
      · exact ⟨hopen ▸ hpos.2, hclose ▸ hpos.2⟩
    have hstop := hp.trading.stopLoss
    have htake := hp.trading.takeProfit
    rcases exitTerms_raw hterms with rfl | rfl | rfl | rfl
    · exact hprices.1
    · exact hprices.2
    · exact mul_nonneg hpos.1 (by linarith)
    · exact mul_nonneg hpos.1 (by linarith)
  skip _ _ h := ⟨h.cash, h.peak, h.prices, h.events, h.equity, h.drawdown, h.utilization⟩
  enter ledger signal day bar quantity h hbar _ hcash := by
    refine h.open ?_ hcash day
    exact mul_nonneg (hbars day signal.symbol bar hbar).1 (by linarith [hp.trading.slippage.1])
  liquidate ledger symbol position day bar h _ hbar :=
    h.close (proceeds_nonneg hp hfees position (hbars day symbol bar hbar).2) day .endOfPeriod
  mark ledger day h := h.mark hbars day

/-- Up to fees of the whole notional, every completed run is solvent. -/
theorem solvent_of_fees {run : RunRequest} {generated : List BacktestSignal} {table : DailyBarTable}
    {uuid4 : Nat → UUID} {execution : PortfolioExecution}
    (hfees : execution.context.p.trading.commissionRate + execution.context.p.trading.sellTaxRate ≤
      1)
    (h : executePortfolio run generated table.rows uuid4 = .ok execution) : Solvent execution := by
  have hcompleted := executePortfolio_ok h
  have hbars : NonNegativeBars execution.context := by
    intro day symbol bar hbar
    obtain ⟨⟨row, hrow, rfl⟩, -⟩ := (execution_bar h).mp hbar
    obtain ⟨hopen, -, -, hclose, -⟩ := table.nonNegative row hrow
    exact ⟨hopen, hclose⟩
  have hfunded : Funded execution.ledger := by
    refine Kept.execute h (funded_kept hcompleted.accepted hfees hbars) fun skips hcap => ?_
    constructor <;> simp [Ledger.start, hcap, hcap.le]
  refine ⟨hfunded.events, hfunded.equity, hfunded.drawdown, ?_⟩
  rw [hcompleted.metrics]
  simp only [portfolioMetrics_eq]
  split_ifs with hnil
  · exact quantize_unit (le_refl _) zero_le_one
  · have hlength : (0 : ℚ) < execution.ledger.snapshots.length := by
      exact_mod_cast List.length_pos_of_ne_nil hnil
    exact quantize_unit (div_nonneg hfunded.utilization.1 hlength.le)
      ((div_le_one hlength).mpr hfunded.utilization.2)

/-! ## Above it, a run that is not solvent -/

section Loss

variable (p : PortfolioParameters)

/-- The amount the first entry may spend. -/
def firstAllowed : ℚ :=
  min (p.initialCapital * p.positionSizePct)
    (p.initialCapital - p.initialCapital * p.minimumCashBufferPct)

/-- An open at which one share with its commission costs exactly `firstAllowed`. -/
def lossOpen : ℚ :=
  firstAllowed p / ((1 + p.trading.commissionRate) * (1 + p.trading.slippageRate))

/-- A close so high that the fees on the sale exceed the capital. -/
def lossClose : ℚ :=
  lossOpen p + (p.initialCapital + 1) /
    ((1 - p.trading.slippageRate) * (p.trading.commissionRate + p.trading.sellTaxRate - 1))

def lossRow : DailyBarRecord := ⟨"A", 1, lossOpen p, lossClose p, lossOpen p, lossClose p, 0⟩

variable {p}

theorem firstAllowed_pos (hp : p.Accepted) : 0 < firstAllowed p := by
  have hbuffer : 0 < 1 - p.minimumCashBufferPct := by linarith [hp.buffer.2]
  refine lt_min (mul_pos hp.capital hp.size.1) ?_
  have := mul_pos hp.capital hbuffer
  linarith

theorem firstAllowed_le (hp : p.Accepted) : firstAllowed p ≤ p.initialCapital :=
  (min_le_left _ _).trans (mul_le_of_le_one_right hp.capital.le hp.size.2)

theorem lossOpen_pos (hp : p.Accepted) : 0 < lossOpen p := by
  have hcommission := hp.trading.commission.1
  have hslippage := hp.trading.slippage.1
  have := firstAllowed_pos hp
  unfold lossOpen
  positivity

/-- The effective price of the entry. -/
theorem lossOpen_effective (hp : p.Accepted) :
    lossOpen p * (1 + p.trading.slippageRate) =
      firstAllowed p / (1 + p.trading.commissionRate) := by
  have hcommission : 1 + p.trading.commissionRate ≠ 0 := by linarith [hp.trading.commission.1]
  have hslippage : 1 + p.trading.slippageRate ≠ 0 := by linarith [hp.trading.slippage.1]
  unfold lossOpen
  field_simp

section Fees

variable (hp : p.Accepted) (hfees : 1 < p.trading.commissionRate + p.trading.sellTaxRate)
include hp hfees

theorem lossOpen_le_lossClose : lossOpen p ≤ lossClose p := by
  have hslip : 0 < 1 - p.trading.slippageRate := by linarith [hp.trading.slippage.2]
  have hover : 0 < p.trading.commissionRate + p.trading.sellTaxRate - 1 := by linarith
  have hcap := hp.capital
  have : 0 < (p.initialCapital + 1) /
    ((1 - p.trading.slippageRate) * (p.trading.commissionRate + p.trading.sellTaxRate - 1)) := by
    positivity
  unfold lossClose
  linarith

/-- One share sold at that close costs more than the capital. -/
theorem loss_proceeds :
    lossClose p * (1 - p.trading.slippageRate) *
      (1 - (p.trading.commissionRate + p.trading.sellTaxRate)) < -p.initialCapital := by
  have hslip : 0 < 1 - p.trading.slippageRate := by linarith [hp.trading.slippage.2]
  have hover : 0 < p.trading.commissionRate + p.trading.sellTaxRate - 1 := by linarith
  have hopen := lossOpen_pos hp
  have hsplit : lossClose p * (1 - p.trading.slippageRate) *
      (1 - (p.trading.commissionRate + p.trading.sellTaxRate)) =
      -(lossOpen p * (1 - p.trading.slippageRate) *
        (p.trading.commissionRate + p.trading.sellTaxRate - 1)) - (p.initialCapital + 1) := by
    unfold lossClose
    field_simp
    ring
  have hpos : 0 < lossOpen p * (1 - p.trading.slippageRate) *
      (p.trading.commissionRate + p.trading.sellTaxRate - 1) := by positivity
  rw [hsplit]
  linarith

def lossTable : DailyBarTable where
  rows := [lossRow p]
  unique := List.nodup_singleton _
  nonNegative := by
    have hopen := (lossOpen_pos hp).le
    have hclose := hopen.trans (lossOpen_le_lossClose hp hfees)
    intro row hrow
    rw [List.mem_singleton.mp hrow]
    exact ⟨hopen, hclose, hopen, hclose, le_refl 0⟩
  validOhlc := by
    have hle := lossOpen_le_lossClose hp hfees
    intro row hrow
    rw [List.mem_singleton.mp hrow]
    exact ⟨hle, le_refl _, hle, le_refl _, hle⟩

end Fees

/-! The run of that table: one entry, liquidated the same day. -/

def lossRun (parameters : Dict String Value) : RunRequest := ⟨0, 1, 1, parameters⟩

def lossSignal : BacktestSignal := ⟨"A", 0⟩

def lossBar (p : PortfolioParameters) : DailyBar := DailyBar.ofRecord (lossRow p)

def lossContext (parameters : Dict String Value) (p : PortfolioParameters) : Context where
  run := lossRun parameters
  p := p
  dates := [1]
  byDate := Dict.empty.set 1 (Dict.empty.set "A" (lossBar p))
  entryEvents := Dict.empty.set 1 [lossSignal]
  uuid4 := id

def lossState (p : PortfolioParameters) : PortfolioState :=
  ⟨p.initialCapital, p.initialCapital, p.initialCapital, 0, Dict.empty⟩

/-- One share is affordable at that open, and no second one. -/
theorem loss_size (parameters : Dict String Value) (hp : p.Accepted) :
    sizeEntry (lossContext parameters p) (lossState p) "A"
      (effectivePrice (lossContext parameters p) (lossBar p)) = (1, none) := by
  have hallowed := firstAllowed_pos hp
  have hcommission := hp.trading.commission
  have hpos : 0 < 1 + p.trading.commissionRate := by linarith
  have hslot : slotSkip (lossContext parameters p) (lossState p) "A" = none := by
    have hmax : ¬ p.maxOpenPositions ≤ ((lossState p).positions.size : ℤ) := by
      have hpositions := hp.positions
      have hsize : ((lossState p).positions.size : ℤ) = 0 := rfl
      omega
    have hnew : ¬ (lossState p).positions.contains "A" = true := by
      simp [lossState]
    rw [slotSkip, if_neg hnew]
    exact if_neg hmax
  have heffective : effectivePrice (lossContext parameters p) (lossBar p) =
      firstAllowed p / (1 + p.trading.commissionRate) := lossOpen_effective hp
  have hspend : min ((lossState p).equity * p.positionSizePct)
      ((lossState p).cash - p.initialCapital * p.minimumCashBufferPct) = firstAllowed p := by
    simp [lossState, PortfolioState.equity, PortfolioState.market, firstAllowed]
  have hbuffer : ¬ (lossState p).cash - p.initialCapital * p.minimumCashBufferPct ≤ 0 :=
    not_le.mpr (lt_of_lt_of_le (hspend ▸ hallowed) (min_le_right _ _))
  have hquotient : firstAllowed p / (firstAllowed p / (1 + p.trading.commissionRate)) =
      1 + p.trading.commissionRate := by
    field_simp
  have hdown : (roundDown (1 + p.trading.commissionRate)).toNat = 1 := by
    rw [roundDown_of_nonneg hpos.le]
    have : ⌊1 + p.trading.commissionRate⌋ = 1 := by
      rw [Int.floor_eq_iff]
      constructor <;> push_cast <;> linarith
    rw [this]
    rfl
  have hfits : ¬ firstAllowed p / (1 + p.trading.commissionRate) * ((0 + 1 : Nat) : ℚ) *
      (1 + p.trading.commissionRate) > firstAllowed p := by
    have : firstAllowed p / (1 + p.trading.commissionRate) * ((0 + 1 : Nat) : ℚ) *
        (1 + p.trading.commissionRate) = firstAllowed p := by
      push_cast
      field_simp
    rw [this]
    exact lt_irrefl _
  have hprice : ¬ firstAllowed p / (1 + p.trading.commissionRate) ≤ 0 :=
    not_le.mpr (div_pos hallowed hpos)
  simp only [sizeEntry_eq, hslot, heffective]
  simp only [lossContext, affordableQuantity_eq, if_neg hprice, if_neg hbuffer, hspend, hquotient,
    hdown, decrementUntilAffordable_succ, if_neg hfits]
  rfl

/-- That share with its commission costs exactly what may be spent. -/
theorem loss_required (parameters : Dict String Value) (hp : p.Accepted) :
    requiredCash (lossContext parameters p) (effectivePrice (lossContext parameters p) (lossBar p))
      1 =
      firstAllowed p := by
  have hpos : 1 + p.trading.commissionRate ≠ 0 := by linarith [hp.trading.commission.1]
  have heffective : effectivePrice (lossContext parameters p) (lossBar p) =
      firstAllowed p / (1 + p.trading.commissionRate) := lossOpen_effective hp
  have hrate : (lossContext parameters p).p.trading.commissionRate = p.trading.commissionRate := rfl
  rw [requiredCash, heffective, hrate]
  field_simp
  ring

def lossStart (p : PortfolioParameters) : Ledger := Ledger.start (lossState p) Dict.empty

def lossEntered (parameters : Dict String Value) (p : PortfolioParameters) : Ledger :=
  openPosition (lossContext parameters p) (lossStart p) lossSignal 1 (lossBar p) 1

def lossPosition (parameters : Dict String Value) (p : PortfolioParameters) : OpenPosition :=
  let effective := effectivePrice (lossContext parameters p) (lossBar p)
  ⟨lossSignal, 1, lossOpen p, effective, 1, effective * (1 : Nat) * p.trading.commissionRate,
    effective, 0⟩

def lossClosed (parameters : Dict String Value) (p : PortfolioParameters) : Ledger :=
  closePosition (lossContext parameters p) (lossEntered parameters p) "A"
    (lossPosition parameters p) 1 (lossClose p) .endOfPeriod

theorem loss_enter (parameters : Dict String Value) (hp : p.Accepted) :
    enterOne (lossContext parameters p) 1 ((lossContext parameters p).bars 1) (lossStart p)
      lossSignal = .ok (lossEntered parameters p) := by
  have hbar : ((lossContext parameters p).bars 1).get? lossSignal.symbol = some (lossBar p) := rfl
  have hsize : sizeEntry (lossContext parameters p) (lossStart p).state lossSignal.symbol
      (effectivePrice (lossContext parameters p) (lossBar p)) = (1, none) := loss_size parameters hp
  have hcash : ¬ requiredCash (lossContext parameters p)
      (effectivePrice (lossContext parameters p) (lossBar p)) 1 > (lossStart p).state.cash := by
    rw [loss_required parameters hp]
    exact not_lt.mpr (firstAllowed_le hp)
  simp only [enterOne_eq, hbar, hsize]
  exact if_neg hcash

theorem loss_day (parameters : Dict String Value) (hp : p.Accepted) :
    runDay (lossContext parameters p) (lossStart p) 1 = .ok (closeDay (lossContext parameters p) 1
      ((lossContext parameters p).bars 1) (lossClosed parameters p)) := by
  have hentry : entryPhase (lossContext parameters p) (lossStart p) 1 =
      .ok (lossEntered parameters p) :=
    foldlM_cons_ok.mpr ⟨_, loss_enter parameters hp, foldlM_nil_ok.mpr rfl⟩
  have hliquidate : liquidationPhase (lossContext parameters p) (lossEntered parameters p) 1 =
      .ok (lossClosed parameters p) :=
    foldlM_cons_ok.mpr ⟨_, rfl, foldlM_nil_ok.mpr rfl⟩
  exact runDay_ok.mpr ⟨_, _, _, rfl, hentry, hliquidate, rfl⟩

/-- The sale takes more than the capital out of the cash. -/
theorem loss_cash (parameters : Dict String Value) (hp : p.Accepted)
    (hfees : 1 < p.trading.commissionRate + p.trading.sellTaxRate) :
    (lossClosed parameters p).state.cash < 0 := by
  have hleft : (lossEntered parameters p).state.cash = p.initialCapital - firstAllowed p := by
    rw [← loss_required parameters hp]
    rfl
  have hsale : proceeds (lossContext parameters p) (lossPosition parameters p) (lossClose p) <
      -p.initialCapital := by
    have hcontext : (lossContext parameters p).p = p := rfl
    rw [proceeds_eq, hcontext]
    simpa [lossPosition] using loss_proceeds hp hfees
  have hpositive := firstAllowed_pos hp
  rw [lossClosed, closePosition_cash, hleft]
  linarith

/-- With fees above the whole notional some run completes with negative cash. -/
theorem loss_execution {parameters : Dict String Value}
    (hparse : PortfolioParameters.parse parameters = .ok p) (hp : p.Accepted)
    (hfees : 1 < p.trading.commissionRate + p.trading.sellTaxRate) :
    ∃ execution, executePortfolio (lossRun parameters) [lossSignal] (lossTable hp hfees).rows id =
      .ok execution ∧ ∃ e ∈ execution.ledger.journal, e.after.cash < 0 := by
  have hcalendar : calendar (lossRun parameters) [lossRow p] = [1] := by
    simp [calendar, inRange, lossRun, lossRow]
  have hload : loadBars (lossRun parameters) [lossRow p] (signalSymbols [lossSignal]) =
      [lossBar p] := by
    simp [loadBars, inRange, lossRun, lossRow, lossBar, signalSymbols, lossSignal]
  have hsort : [lossSignal].insertionSort BacktestSignal.le = [lossSignal] := rfl
  have hindex : indexBars (loadBars (lossRun parameters) [lossRow p] (signalSymbols
      ([lossSignal].insertionSort BacktestSignal.le))) = .ok (lossContext parameters p).byDate := by
    rw [hsort, hload]
    rfl
  have hschedule : scheduleSignals (calendar (lossRun parameters) [lossRow p])
      (lossContext parameters p).byDate ([lossSignal].insertionSort BacktestSignal.le) =
      .ok ((lossContext parameters p).entryEvents, Dict.empty) := by
    rw [hsort, hcalendar]
    rfl
  have hcreate : PortfolioState.create p.initialCapital = .ok (lossState p) :=
    if_neg (not_le.mpr hp.capital)
  have hrun : (calendar (lossRun parameters) [lossRow p]).foldlM
      (runDay ⟨lossRun parameters, p, calendar (lossRun parameters) [lossRow p],
        (lossContext parameters p).byDate, (lossContext parameters p).entryEvents, id⟩)
      (lossStart p) = .ok (closeDay (lossContext parameters p) 1
        ((lossContext parameters p).bars 1) (lossClosed parameters p)) := by
    rw [hcalendar]
    exact foldlM_cons_ok.mpr ⟨_, loss_day parameters hp, foldlM_nil_ok.mpr rfl⟩
  obtain ⟨execution, hexecution, hledger⟩ :=
    executePortfolio_of_stages hparse hindex hschedule hcreate hrun
  refine ⟨execution, hexecution, .closed 1 (lossPosition parameters p) .endOfPeriod
    (netProfit (lossContext parameters p) (lossPosition parameters p) (lossClose p))
    (lossClosed parameters p).state, ?_, loss_cash parameters hp hfees⟩
  rw [hledger]
  simp [closeDay_eq, lossClosed]

end Loss

/-- **Solvency of a parameter set.** Every run of an accepted dictionary stays
solvent exactly when its commission and tax rates add up to at most one. -/
theorem solvent_iff {parameters : Dict String Value} {p : PortfolioParameters}
    (hparse : PortfolioParameters.parse parameters = .ok p) :
    (∀ (run : RunRequest) (table : DailyBarTable) (generated : List BacktestSignal)
        (uuid4 : Nat → UUID) (execution : PortfolioExecution), run.parameters = parameters →
        executePortfolio run generated table.rows uuid4 = .ok execution → Solvent execution) ↔
      p.trading.commissionRate + p.trading.sellTaxRate ≤ 1 := by
  have hp := PortfolioParameters.parse_accepted hparse
  constructor
  · intro hall
    by_contra hfees
    obtain ⟨execution, h, e, he, hneg⟩ := loss_execution hparse hp (not_le.mp hfees)
    exact absurd ((hall _ _ _ _ execution rfl h).cash e he) (not_le.mpr hneg)
  · rintro hfees run table generated uuid4 execution rfl h
    have hcontext := (executePortfolio_ok h).parameters
    rw [hparse, Except.ok.injEq] at hcontext
    exact solvent_of_fees (hcontext ▸ hfees) h

theorem solvent_iff_sample :
    ∃ p, PortfolioParameters.parse sampleParameters = .ok p ∧
      ∀ (run : RunRequest) (table : DailyBarTable) (generated : List BacktestSignal)
        (uuid4 : Nat → UUID) (execution : PortfolioExecution), run.parameters = sampleParameters →
        executePortfolio run generated table.rows uuid4 = .ok execution → Solvent execution := by
  let p : PortfolioParameters :=
    { initialCapital := 1000, maxOpenPositions := 2, positionSizePct := 1 / 2,
      minimumCashBufferPct := 0, positionSizingMode := "fixed_fraction",
      trading := { BacktestParameters.defaults with initialCapital := 1000, positionSize := 1000 } }
  have hparse : PortfolioParameters.parse sampleParameters = .ok p := by decide +kernel
  exact ⟨p, hparse, (solvent_iff hparse).mpr (by decide +kernel)⟩

/-! ## Nine tenths of commission and nine tenths of tax -/

def heavyFees : Dict String Value :=
  ⟨[("initial_capital", .int 1000), ("max_open_positions", .int 1),
    ("position_sizing_mode", .str "fixed_fraction"), ("position_size_pct", .int 1),
    ("minimum_cash_buffer_pct", .int 0), ("slippage_rate", .int 0),
    ("commission_rate", .str "0.9"), ("sell_tax_rate", .str "0.9")], by decide⟩

def heavyTable : DailyBarTable where
  rows := [⟨"A", 1, 500, 5000, 500, 5000, 0⟩]
  unique := by decide
  nonNegative := by decide +kernel
  validOhlc := by decide +kernel

/-- The parser accepts both rates; the one share bought at 500 for 950 is sold at
5000 for 9000 in fees, and the run completes with cash at -3950. -/
theorem heavy_fees_insolvent :
    ∃ execution, executePortfolio ⟨1, 1, 1, heavyFees⟩ [⟨"A", 0⟩] heavyTable.rows id =
      .ok execution ∧ execution.ledger.state.cash = -3950 ∧ ¬ Solvent execution := by
  have hrun : (executePortfolio ⟨1, 1, 1, heavyFees⟩ [⟨"A", 0⟩] heavyTable.rows id).map
      (fun e => (e.ledger.state.cash, e.ledger.journal.any fun event => event.after.cash < 0)) =
      .ok (-3950, true) := by
    decide +kernel
  obtain ⟨execution, h, heq⟩ := map_ok.mp hrun
  simp only [Prod.mk.injEq, List.any_eq_true, decide_eq_true_eq] at heq
  obtain ⟨hcash, e, he, hneg⟩ := heq
  exact ⟨execution, h, hcash, fun hsolvent => absurd (hsolvent.cash e he) (not_le.mpr hneg)⟩

end Screener.Backtest
