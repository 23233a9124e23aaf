import Mathlib.Data.Nat.Find
import Screener.Backtest.PortfolioAccounting

/-!
# What an entry may spend

`affordable_quantity` starts from a guess that leaves the commission out and walks down from
it. The guess is never below the answer and a smaller quantity costs no more, so the walk
stops at the greatest quantity that the allowance covers. Every limit on an entry follows
from that allowance alone.
-/

namespace Screener.Backtest

open Screener.Lib
open Screener.Market (Date Symbol DailyBarRecord)

/-! ## The walk -/

section Sizing

variable {target cash buffer price commissionRate allowed : ℚ}

/-- The walk is a bounded search from above. -/
theorem decrementUntilAffordable_eq (price commissionRate allowed : ℚ) (quantity : Nat) :
    decrementUntilAffordable price commissionRate allowed quantity =
      Nat.findGreatest (fun n => price * n * (1 + commissionRate) ≤ allowed) quantity := by
  induction quantity with
  | zero => rfl
  | succ n ih =>
    rw [decrementUntilAffordable_succ, Nat.findGreatest_succ, ih]
    split_ifs with hcost hle hle
    · exact absurd hle (not_le.mpr hcost)
    · rfl
    · rfl
    · exact absurd (not_lt.mp hcost) hle

/-- The guess is never below a quantity that the allowance covers. -/
theorem le_guess (hprice : 0 < price) (hrate : 0 ≤ commissionRate) {n : Nat}
    (hn : price * n * (1 + commissionRate) ≤ allowed) :
    n ≤ (roundDown (allowed / price)).toNat := by
  have hnotional : (0 : ℚ) ≤ price * n := by positivity
  have hbare : price * n ≤ allowed :=
    (le_mul_of_one_le_right hnotional (le_add_of_nonneg_right hrate)).trans hn
  exact (isGreatest_quotient hprice (hnotional.trans hbare)).2 hbare

theorem walk_isGreatest (hprice : 0 < price) (hrate : 0 ≤ commissionRate) (hallowed : 0 ≤ allowed) :
    IsGreatest {n : Nat | price * n * (1 + commissionRate) ≤ allowed}
      (decrementUntilAffordable price commissionRate allowed
        (roundDown (allowed / price)).toNat) := by
  rw [decrementUntilAffordable_eq]
  constructor
  · have hzero : price * (0 : Nat) * (1 + commissionRate) ≤ allowed := by simpa using hallowed
    exact Nat.findGreatest_spec (P := fun n => price * n * (1 + commissionRate) ≤ allowed)
      (Nat.zero_le _) hzero
  · intro n hn
    exact Nat.le_findGreatest (le_guess hprice hrate hn) hn

/-- **The quantity is the greatest affordable one.** Each refusal has its own reason. -/
theorem affordableQuantity_isGreatest (htarget : 0 ≤ target) (hrate : 0 ≤ commissionRate) :
    (price ≤ 0 →
      affordableQuantity target cash buffer price commissionRate = (0, some .invalidPrice)) ∧
    (0 < price → cash ≤ buffer →
      affordableQuantity target cash buffer price commissionRate = (0, some .minimumCashBuffer)) ∧
    (0 < price → buffer < cash →
      let allowed := min target (cash - buffer)
      ∃ q : Nat, IsGreatest {n : Nat | price * n * (1 + commissionRate) ≤ allowed} q ∧
        (1 ≤ q → affordableQuantity target cash buffer price commissionRate = (q, none)) ∧
        (q = 0 → allowed < price →
          affordableQuantity target cash buffer price commissionRate = (0, some .quantityZero)) ∧
        (q = 0 → price ≤ allowed →
          affordableQuantity target cash buffer price commissionRate =
            (0, some .insufficientCash))) := by
  refine ⟨fun hprice => if_pos hprice, fun hprice hcash => ?_, fun hprice hcash => ?_⟩
  · rw [affordableQuantity_eq, if_neg (not_le.mpr hprice)]
    exact if_pos (sub_nonpos.mpr hcash)
  · intro allowed
    have hspend : 0 < cash - buffer := sub_pos.mpr hcash
    have hallowed : 0 ≤ allowed := le_min htarget hspend.le
    refine ⟨_, walk_isGreatest hprice hrate hallowed, ?_⟩
    rw [affordableQuantity_eq, if_neg (not_le.mpr hprice)]
    simp only [if_neg (not_le.mpr hspend)]
    refine ⟨fun hone => if_neg (Nat.one_le_iff_ne_zero.mp hone), fun hzero hless => ?_,
      fun hzero hcovered => ?_⟩
    · rw [if_pos hzero, if_pos hless]
    · rw [if_pos hzero, if_neg (not_lt.mpr hcovered)]

/-- Ten shares at ten and one per cent: the guess of ten is one too many. -/
theorem affordableQuantity_isGreatest_ten :
    ∃ q : Nat, IsGreatest {n : Nat | (10 : ℚ) * n * (1 + 1 / 100) ≤ min 100 (100 - 0)} q ∧
      (1 ≤ q → affordableQuantity 100 100 0 10 (1 / 100) = (q, none)) := by
  obtain ⟨q, hgreatest, hsome, -⟩ :=
    (affordableQuantity_isGreatest (show (0 : ℚ) ≤ 100 by norm_num)
      (show (0 : ℚ) ≤ 1 / 100 by norm_num)).2.2 (show (0 : ℚ) < 10 by norm_num)
      (show (0 : ℚ) < 100 by norm_num)
  exact ⟨q, hgreatest, hsome⟩

end Sizing

/-! ## The entries of a run -/

variable {c : Context}

/-- What holds of a purchase between the states before and after it. -/
structure EntryLimits (p : PortfolioParameters) (position : OpenPosition)
    (before after : PortfolioState) : Prop where
  cash : p.initialCapital * p.minimumCashBufferPct ≤ after.cash
  cost : position.cost ≤ p.positionSizePct * before.equity
  quantity : 1 ≤ position.quantity
  slots : (after.positions.size : ℤ) ≤ p.maxOpenPositions
  symbols : (after.positions.values.map (·.signal.symbol)).Nodup

theorem requiredCash_eq (effective : ℚ) (quantity : Nat) :
    requiredCash c effective quantity =
      effective * quantity * (1 + c.p.trading.commissionRate) := by
  simp only [requiredCash]
  ring

/-- A sized purchase stays within the allowance, and so within both of its bounds. -/
theorem affordableQuantity_allowed {target cash buffer price commissionRate : ℚ} {quantity : Nat}
    (h : affordableQuantity target cash buffer price commissionRate = (quantity, none)) :
    1 ≤ quantity ∧ price * quantity * (1 + commissionRate) ≤ min target (cash - buffer) := by
  simp only [affordableQuantity_eq] at h
  split_ifs at h with hprice hspend hzero
  all_goals simp only [Prod.mk.injEq, reduceCtorEq, and_false, and_true] at h
  rw [decrementUntilAffordable_eq] at h hzero
  exact ⟨h ▸ Nat.one_le_iff_ne_zero.mpr hzero, Nat.findGreatest_of_ne_zero h (h ▸ hzero)⟩

theorem sizeEntry_limits {state : PortfolioState} {symbol : Symbol} {effective : ℚ} {quantity : Nat}
    (h : sizeEntry c state symbol effective = (quantity, none)) :
    requiredCash c effective quantity ≤ state.equity * c.p.positionSizePct ∧
      requiredCash c effective quantity ≤
        state.cash - c.p.initialCapital * c.p.minimumCashBufferPct ∧
      1 ≤ quantity ∧ (state.positions.size : ℤ) < c.p.maxOpenPositions := by
  rw [sizeEntry_eq] at h
  split at h
  · simp at h
  · rename_i hslot
    have hroom : (state.positions.size : ℤ) < c.p.maxOpenPositions := by
      unfold slotSkip at hslot
      split_ifs at hslot with hheld hfull
      exact not_le.mp hfull
    obtain ⟨hone, hallowed⟩ := affordableQuantity_allowed h
    rw [← requiredCash_eq] at hallowed
    exact ⟨hallowed.trans (min_le_left _ _), hallowed.trans (min_le_right _ _), hone, hroom⟩

/-- The check after the sizing never fires. -/
theorem requiredCash_le_cash (hp : c.p.Accepted) {state : PortfolioState} {symbol : Symbol}
    {effective : ℚ} {quantity : Nat}
    (h : sizeEntry c state symbol effective = (quantity, none)) :
    requiredCash c effective quantity ≤ state.cash := by
  have hbuffer : 0 ≤ c.p.initialCapital * c.p.minimumCashBufferPct :=
    mul_nonneg hp.capital.le hp.buffer.1
  have hspend := (sizeEntry_limits h).2.1
  linarith

/-- What the entries so far have kept to. -/
structure WithinLimits (c : Context) (ledger : Ledger) : Prop where
  named : Named ledger.state.positions
  entries : ∀ day position before after,
    Event.opened day position before after ∈ ledger.journal →
      EntryLimits c.p position before after

theorem WithinLimits.close {ledger : Ledger} (h : WithinLimits c ledger) (symbol : Symbol)
    (position : OpenPosition) (day : Date) (raw : ℚ) (reason : BacktestExitReason) :
    WithinLimits c (closePosition c ledger symbol position day raw reason) := by
  refine ⟨h.named.erase symbol, fun day' opened before after hmem => ?_⟩
  rw [closePosition_journal] at hmem
  exact h.entries day' opened before after (by simpa using hmem)

theorem WithinLimits.open {ledger : Ledger} (h : WithinLimits c ledger) {signal : BacktestSignal}
    {bar : DailyBar} {quantity : Nat}
    (hsize : sizeEntry c ledger.state signal.symbol (effectivePrice c bar) = (quantity, none))
    (day : Date) : WithinLimits c (openPosition c ledger signal day bar quantity) := by
  obtain ⟨hequity, hspend, hone, hroom⟩ := sizeEntry_limits hsize
  have hnew := (sizeEntry_ok hsize).1
  have hnamed : Named (openPosition c ledger signal day bar quantity).state.positions :=
    h.named.set rfl
  refine ⟨hnamed, fun day' position before after hmem => ?_⟩
  rcases List.mem_append.mp hmem with hmem | hmem
  · exact h.entries day' position before after hmem
  · simp only [List.mem_singleton, Event.opened.injEq] at hmem
    obtain ⟨-, rfl, rfl, rfl⟩ := hmem
    constructor
    · show _ ≤ ledger.state.cash - requiredCash c (effectivePrice c bar) quantity
      linarith
    · show requiredCash c (effectivePrice c bar) quantity ≤ _
      linarith
    · exact hone
    · rw [Dict.size_set_of_not_mem hnew]
      push_cast
      omega
    · exact hnamed.symbols

theorem withinLimits_kept : Kept .unlimited c (WithinLimits c) where
  hold _ symbol position h hget :=
    ⟨h.named.set (h.named symbol position hget), h.entries⟩
  exit _ symbol position day _ reason raw h _ _ _ := h.close symbol position day raw reason
  skip _ _ h := ⟨h.named, h.entries⟩
  enter _ _ day _ _ h _ hsize _ := h.open hsize day
  liquidate _ symbol position day bar h _ _ := h.close symbol position day bar.close .endOfPeriod
  mark ledger day h := by
    refine ⟨h.named.mark (c.bars day), fun day' position before after hmem => ?_⟩
    change _ ∈ (closeDay c day (c.bars day) ledger).journal at hmem
    exact h.entries day' position before after (by simpa [closeDay_journal] using hmem)

/-- **Entry limits.** Every purchase of a completed run leaves the buffer, spends at most its
share of the equity just before it, buys a share, and fits the slots; and whatever is sized
is paid for out of the cash at hand. -/
theorem entry_limits {run : RunRequest} {generated : List BacktestSignal}
    {dailyBars : List DailyBarRecord} {uuid4 : Nat → UUID} {execution : PortfolioExecution}
    (h : executePortfolio run generated dailyBars uuid4 = .ok execution) :
    (∀ day position before after,
      Event.opened day position before after ∈ execution.ledger.journal →
        EntryLimits execution.context.p position before after) ∧
      ∀ state symbol effective quantity,
        sizeEntry execution.context state symbol effective = (quantity, none) →
          ¬ requiredCash execution.context effective quantity > state.cash := by
  have hp := (executePortfolio_ok h).accepted
  constructor
  · have hlimits : WithinLimits execution.context execution.ledger := by
      apply Kept.execute h withinLimits_kept
      intro skips _
      constructor <;> simp [Ledger.start, Named]
    exact hlimits.entries
  · intro state symbol effective quantity hsize
    exact not_lt.mpr (requiredCash_le_cash hp hsize)

theorem entry_limits_sample :
    ∃ execution, executePortfolio sampleRun sampleSignals sampleBars id = .ok execution ∧
      ∀ day position before after,
        Event.opened day position before after ∈ execution.ledger.journal →
          EntryLimits execution.context.p position before after := by
  obtain ⟨execution, h⟩ := sampleRun_completes
  exact ⟨execution, h, (entry_limits h).1⟩

end Screener.Backtest
