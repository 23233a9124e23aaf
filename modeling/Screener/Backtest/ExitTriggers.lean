import Screener.Backtest.IndependentRules

/-!
# Which bar ends a trade, and at which price

A held bar ends a trade when it touches the stop, else when it touches the target, else when
the holding limit is reached. Both executors decide it by the same rule: the loop of the
independent one takes the first bar that the rule sells on, and every price the rule sells
at was traded on that bar.
-/

namespace Screener.Backtest

open Screener.Lib
open Screener.Market (Date Symbol DailyBarRecord)

/-! ## The rule of one bar -/

/-- The levels and the limit that a held bar is tested against. -/
structure ExitRule where
  stop : ℚ
  target : ℚ
  maxHoldingDays : ℤ

namespace ExitRule

variable (rule : ExitRule) (bar : DailyBar)

abbrev TouchesStop : Prop := bar.open ≤ rule.stop ∨ bar.low ≤ rule.stop

abbrev TouchesTarget : Prop := rule.target ≤ bar.open ∨ rule.target ≤ bar.high

/-- Why a bar that is the `held`th after the entry ends the trade, if it does. -/
def trigger (held : Nat) : Option BacktestExitReason :=
  if rule.TouchesStop bar then some .stopLoss
  else if rule.TouchesTarget bar then some .takeProfit
  else if rule.maxHoldingDays ≤ held then some .maxHoldingDays
  else none

/-- The raw price of a sale for `reason`. -/
def fill : BacktestExitReason → ℚ
  | .stopLoss => if bar.open ≤ rule.stop then bar.open else rule.stop
  | .takeProfit => if rule.target ≤ bar.open then bar.open else rule.target
  | _ => bar.close

/-- The loop over the later bars. -/
def scan (holding : Nat) (later : List DailyBar) : Option (DailyBar × BacktestExitReason × ℚ) :=
  scanExit rule.stop rule.target rule.maxHoldingDays holding later

variable {rule bar}

theorem lt_limit_of_trigger_none {held : Nat} (h : rule.trigger bar held = none) :
    (held : ℤ) < rule.maxHoldingDays := by
  unfold trigger at h
  split_ifs at h with hstop htarget hlimit
  exact not_le.mp hlimit

variable (rule)

theorem scan_cons (held : Nat) (bar : DailyBar) (rest : List DailyBar) :
    rule.scan held (bar :: rest) =
      match rule.trigger bar held with
      | some reason => some (bar, reason, rule.fill bar reason)
      | none => rule.scan (held + 1) rest := by
  simp only [scan, scanExit, trigger, ge_iff_le]
  by_cases hstop : rule.TouchesStop bar
  · rw [if_pos hstop, if_pos hstop]
    rfl
  · rw [if_neg hstop, if_neg hstop]
    by_cases htarget : rule.TouchesTarget bar
    · rw [if_pos htarget, if_pos htarget]
      rfl
    · rw [if_neg htarget, if_neg htarget]
      split <;> rfl

variable {rule}

/-- A bar without a trigger, before bars without one. -/
theorem quiet_cons {held : Nat} {first : DailyBar} {rest : List DailyBar}
    (hfirst : rule.trigger first held = none)
    (hrest : ∀ before other after, rest = before ++ other :: after →
      rule.trigger other (held + 1 + before.length) = none) :
    ∀ before other after, first :: rest = before ++ other :: after →
      rule.trigger other (held + before.length) = none := by
  intro before other after heq
  cases before with
  | nil =>
    obtain ⟨rfl, -⟩ := List.cons.inj heq
    exact hfirst
  | cons head before =>
    obtain ⟨-, heq⟩ := List.cons.inj heq
    rw [List.length_cons, Nat.add_comm before.length, ← Nat.add_assoc]
    exact hrest before other after heq

theorem scan_some {held : Nat} {later : List DailyBar} {bar : DailyBar}
    {reason : BacktestExitReason} {raw : ℚ} (h : rule.scan held later = some (bar, reason, raw)) :
    raw = rule.fill bar reason ∧ ∃ passed rest, later = passed ++ bar :: rest ∧
      rule.trigger bar (held + passed.length) = some reason ∧
      ∀ before other after, passed = before ++ other :: after →
        rule.trigger other (held + before.length) = none := by
  induction later generalizing held with
  | nil => simp [scan, scanExit] at h
  | cons first rest ih =>
    rw [scan_cons] at h
    cases htrigger : rule.trigger first held with
    | some reason' =>
      simp only [htrigger, Option.some.injEq, Prod.mk.injEq] at h
      obtain ⟨rfl, rfl, rfl⟩ := h
      exact ⟨rfl, [], rest, rfl, htrigger, fun _ _ _ heq => by simp at heq⟩
    | none =>
      simp only [htrigger] at h
      obtain ⟨hraw, passed, tail, rfl, hbar, hquiet⟩ := ih h
      refine ⟨hraw, first :: passed, tail, rfl, ?_, fun before other after heq => ?_⟩
      · rw [List.length_cons, Nat.add_comm passed.length, ← Nat.add_assoc]
        exact hbar
      · exact quiet_cons htrigger hquiet before other after heq

theorem scan_none {held : Nat} {later : List DailyBar} (h : rule.scan held later = none) :
    ∀ before other after, later = before ++ other :: after →
      rule.trigger other (held + before.length) = none := by
  induction later generalizing held with
  | nil => exact fun _ _ _ heq => by simp at heq
  | cons first rest ih =>
    rw [scan_cons] at h
    cases htrigger : rule.trigger first held with
    | some reason => simp [htrigger] at h
    | none =>
      simp only [htrigger] at h
      exact quiet_cons htrigger (ih h)

end ExitRule

/-- The levels of a position bought at `entryPrice`. -/
def DecimalContext.exitRule (d : DecimalContext) (p : BacktestParameters) (entryPrice : ℚ) :
    ExitRule :=
  ⟨d.round (entryPrice * d.round (1 - p.stopLossPct)),
    d.round (entryPrice * d.round (1 + p.takeProfitPct)), p.maxHoldingDays⟩

theorem DecimalContext.exitOf_eq (d : DecimalContext) (p : BacktestParameters) (entryBar : DailyBar)
    (later : List DailyBar) :
    d.exitOf p entryBar later = ((d.exitRule p (d.entryPrice p entryBar)).scan 1 later).getD
      (later.getLast?.getD entryBar, .endOfPeriod, (later.getLast?.getD entryBar).close) := rfl

abbrev stopLevel (p : BacktestParameters) (entryPrice : ℚ) : ℚ := entryPrice * (1 - p.stopLossPct)

abbrev targetLevel (p : BacktestParameters) (entryPrice : ℚ) : ℚ :=
  entryPrice * (1 + p.takeProfitPct)

/-- The rule in exact arithmetic. -/
abbrev exitRule (p : BacktestParameters) (entryPrice : ℚ) : ExitRule :=
  ⟨stopLevel p entryPrice, targetLevel p entryPrice, p.maxHoldingDays⟩

theorem exitOf_eq (p : BacktestParameters) (entryBar : DailyBar) (later : List DailyBar) :
    exitOf p entryBar later =
      ((exitRule p (entryBar.open * (1 + p.slippageRate))).scan 1 later).getD
      (later.getLast?.getD entryBar, .endOfPeriod, (later.getLast?.getD entryBar).close) := rfl

/-- The rule of the event loop sells on the trigger, at its fill. -/
theorem exitTerms_eq (p : BacktestParameters) (bar : DailyBar) (position : OpenPosition) :
    exitTerms position bar p false =
      ((exitRule p position.entryPrice).trigger bar position.holdingDays).map fun reason =>
        (reason, (exitRule p position.entryPrice).fill bar reason) := by
  simp only [exitTerms_unfold, ExitRule.trigger, Bool.false_eq_true, if_false, ge_iff_le]
  by_cases hstop : (exitRule p position.entryPrice).TouchesStop bar
  · rw [if_pos hstop, if_pos hstop]
    rfl
  · rw [if_neg hstop, if_neg hstop]
    by_cases htarget : (exitRule p position.entryPrice).TouchesTarget bar
    · rw [if_pos htarget, if_pos htarget]
      rfl
    · rw [if_neg htarget, if_neg htarget]
      split <;> rfl

section Rule

variable (p : BacktestParameters) (entryPrice : ℚ) (bar : DailyBar)

abbrev TouchesStop : Prop := (exitRule p entryPrice).TouchesStop bar

abbrev TouchesTarget : Prop := (exitRule p entryPrice).TouchesTarget bar

end Rule

/-! ## The bars a signal may trade on -/

/-- After the signal and within the run. -/
def Eligible (run : RunRequest) (signal : BacktestSignal) (bar : DailyBar) : Prop :=
  signal.signalDate < bar.tradingDate ∧ bar.tradingDate ≤ run.endDate

/-- The earliest bar that the signal may trade on. -/
structure IsEntryBar (run : RunRequest) (signal : BacktestSignal) (bars : List DailyBar)
    (entryBar : DailyBar) : Prop where
  mem : entryBar ∈ bars
  eligible : Eligible run signal entryBar
  first : ∀ bar ∈ bars, Eligible run signal bar → entryBar.tradingDate ≤ bar.tradingDate

/-- The number of bars after the entry, up to and including `day`. -/
def barsHeld (bars : List DailyBar) (entryDate day : Date) : Nat :=
  bars.countP fun bar => entryDate < bar.tradingDate ∧ bar.tradingDate ≤ day

/-- `exitBar` ends the trade bought on `entryBar`, for `reason`, after `held` bars: no bar
between them triggers, and it triggers itself or is the last bar, with no trigger at all. -/
structure FirstExit (run : RunRequest) (rule : ExitRule) (bars : List DailyBar)
    (entryBar exitBar : DailyBar) (reason : BacktestExitReason) (held : Nat) : Prop where
  mem : exitBar ∈ bars
  range : entryBar.tradingDate ≤ exitBar.tradingDate ∧ exitBar.tradingDate ≤ run.endDate
  held_eq : held = barsHeld bars entryBar.tradingDate exitBar.tradingDate
  limit : held ≤ rule.maxHoldingDays
  quiet : ∀ bar ∈ bars, entryBar.tradingDate < bar.tradingDate →
    bar.tradingDate < exitBar.tradingDate →
    rule.trigger bar
      (barsHeld bars entryBar.tradingDate bar.tradingDate) = none
  ends : (entryBar.tradingDate < exitBar.tradingDate ∧
      rule.trigger exitBar held = some reason) ∨
    (reason = .endOfPeriod ∧
      (∀ bar ∈ bars, bar.tradingDate ≤ run.endDate → bar.tradingDate ≤ exitBar.tradingDate) ∧
      ∀ bar ∈ bars, entryBar.tradingDate < bar.tradingDate → bar.tradingDate ≤ run.endDate →
        rule.trigger bar
          (barsHeld bars entryBar.tradingDate bar.tradingDate) = none)

section Signal

variable {run : RunRequest} {signal : BacktestSignal} {bars : List DailyBar}
  {rule : ExitRule} {entryBar : DailyBar} {later : List DailyBar}

theorem mem_eligibleBars {bar : DailyBar} :
    bar ∈ eligibleBars run signal bars ↔ bar ∈ bars ∧ Eligible run signal bar := by
  simp [eligibleBars, Eligible]

/-- The entry bar and the later ones stand in the order of their dates. -/
theorem eligible_sorted (hdates : (bars.map (·.tradingDate)).Nodup)
    (heligible : eligibleBars run signal bars = entryBar :: later) :
    (entryBar :: later).Pairwise fun a b => a.tradingDate < b.tradingDate :=
  heligible ▸ eligibleBars_sorted hdates

/-- The later bars, split at one of them, count the bars held. -/
theorem barsHeld_split (hdates : (bars.map (·.tradingDate)).Nodup)
    (heligible : eligibleBars run signal bars = entryBar :: later)
    {passed rest : List DailyBar} {bar : DailyBar} (hlater : later = passed ++ bar :: rest) :
    barsHeld bars entryBar.tradingDate bar.tradingDate = passed.length + 1 := by
  have hsorted := eligible_sorted hdates heligible
  have hbar : Eligible run signal bar := by
    refine (mem_eligibleBars.mp (show bar ∈ eligibleBars run signal bars from ?_)).2
    rw [heligible, hlater]
    simp
  have hentry : Eligible run signal entryBar :=
    (mem_eligibleBars.mp (heligible ▸ List.mem_cons_self)).2
  have hperm := List.perm_insertionSort (fun a b : DailyBar => a.tradingDate ≤ b.tradingDate)
    (bars.filter fun b => signal.signalDate < b.tradingDate ∧ b.tradingDate ≤ run.endDate)
  have hcount : barsHeld bars entryBar.tradingDate bar.tradingDate =
      (entryBar :: later).countP fun b =>
        entryBar.tradingDate < b.tradingDate ∧ b.tradingDate ≤ bar.tradingDate := by
    rw [← heligible, eligibleBars, hperm.countP_eq, List.countP_filter, barsHeld]
    refine List.countP_congr fun b _ => ?_
    simp only [Bool.and_eq_true, decide_eq_true_eq]
    constructor
    · intro h
      exact ⟨h, hentry.1.trans h.1, h.2.trans hbar.2⟩
    · exact fun h => h.1
  obtain ⟨hfirst, hrest⟩ := List.pairwise_cons.mp hsorted
  have hsame : later.countP (fun b =>
      entryBar.tradingDate < b.tradingDate ∧ b.tradingDate ≤ bar.tradingDate) =
        later.countP fun b => b.tradingDate ≤ bar.tradingDate :=
    List.countP_congr fun b hb => by simp [hfirst b hb]
  rw [hcount, List.countP_cons_of_neg (by simp), hsame, hlater]
  rw [hlater] at hrest
  exact countP_le_split hrest

/-- The later bars are those after the entry. -/
theorem mem_later (hdates : (bars.map (·.tradingDate)).Nodup)
    (heligible : eligibleBars run signal bars = entryBar :: later) {bar : DailyBar} :
    bar ∈ later ↔ bar ∈ bars ∧ entryBar.tradingDate < bar.tradingDate ∧
      bar.tradingDate ≤ run.endDate := by
  have hsorted := eligible_sorted hdates heligible
  have hmem : bar ∈ entryBar :: later ↔ bar ∈ bars ∧ Eligible run signal bar := by
    rw [← heligible]
    exact mem_eligibleBars
  have hentry : Eligible run signal entryBar :=
    (mem_eligibleBars.mp (heligible ▸ List.mem_cons_self)).2
  constructor
  · intro hbar
    obtain ⟨hin, heligible⟩ := hmem.mp (List.mem_cons_of_mem entryBar hbar)
    exact ⟨hin, List.rel_of_pairwise_cons hsorted hbar, heligible.2⟩
  · rintro ⟨hin, hafter, hend⟩
    rcases List.mem_cons.mp (hmem.mpr ⟨hin, hentry.1.trans hafter, hend⟩) with rfl | hbar
    · exact absurd hafter (lt_irrefl _)
    · exact hbar

/-- A bar that nothing triggered, by its place among the later bars. -/
theorem quiet_of_split (hdates : (bars.map (·.tradingDate)).Nodup)
    (heligible : eligibleBars run signal bars = entryBar :: later) {passed rest : List DailyBar}
    (hlater : later = passed ++ rest) 
    (hquiet : ∀ before other after, passed = before ++ other :: after →
      rule.trigger other (1 + before.length) = none) :
    ∀ bar ∈ passed, rule.trigger bar
      (barsHeld bars entryBar.tradingDate bar.tradingDate) = none := by
  intro bar hbar
  obtain ⟨before, after, hsplit⟩ := List.append_of_mem hbar
  have hlaterSplit : later = before ++ bar :: (after ++ rest) := by rw [hlater, hsplit]; simp
  have hheld := barsHeld_split hdates heligible hlaterSplit
  rw [hheld, Nat.add_comm]
  exact hquiet before bar after hsplit

/-- After bars that nothing triggered, the next one is within the limit. -/
theorem next_le_limit (hlimit : 1 ≤ rule.maxHoldingDays) {passed : List DailyBar}
    (hquiet : ∀ before other after, passed = before ++ other :: after →
      rule.trigger other (1 + before.length) = none) :
    ((passed.length + 1 : Nat) : ℤ) ≤ rule.maxHoldingDays := by
  rcases List.eq_nil_or_concat passed with rfl | ⟨before, last, rfl⟩
  · exact hlimit
  · rw [List.concat_eq_append] at hquiet ⊢
    have hlast := ExitRule.lt_limit_of_trigger_none (hquiet before last [] rfl)
    rw [List.length_append, List.length_singleton]
    omega

/-- The index that the trade counts from. -/
theorem idxOf_split (hdates : (bars.map (·.tradingDate)).Nodup)
    (heligible : eligibleBars run signal bars = entryBar :: later)
    {passed rest : List DailyBar} {bar : DailyBar} (hlater : later = passed ++ bar :: rest) :
    later.idxOf bar = passed.length := by
  have hsorted := eligible_sorted hdates heligible
  rw [hlater] at hsorted
  have hacross := (List.pairwise_append.mp hsorted.of_cons).2.2
  have hnot : bar ∉ passed := fun hmem => lt_irrefl _ (hacross bar hmem bar List.mem_cons_self)
  rw [hlater, List.idxOf_append_of_notMem hnot, List.idxOf_cons_self, Nat.add_zero]

/-- What is dated between the entry and a later bar stands before that bar. -/
theorem mem_passed (hdates : (bars.map (·.tradingDate)).Nodup)
    (heligible : eligibleBars run signal bars = entryBar :: later) {passed rest : List DailyBar}
    {exitBar : DailyBar} (hlater : later = passed ++ exitBar :: rest) {bar : DailyBar}
    (hbar : bar ∈ later) (hbefore : bar.tradingDate < exitBar.tradingDate) : bar ∈ passed := by
  have hsorted := eligible_sorted hdates heligible
  rw [hlater] at hsorted
  rw [hlater] at hbar
  rcases List.mem_append.mp hbar with hbar | hbar
  · exact hbar
  · rcases List.mem_cons.mp hbar with rfl | hbar
    · exact absurd hbefore (lt_irrefl _)
    · have hlt := List.rel_of_pairwise_cons (List.pairwise_append.mp hsorted.of_cons).2.1 hbar
      exact absurd hbefore hlt.asymm

/-- A later bar is an exit that counts the bars up to it. -/
theorem firstExit_of_split (hlimit : 1 ≤ rule.maxHoldingDays)
    (hdates : (bars.map (·.tradingDate)).Nodup)
    (heligible : eligibleBars run signal bars = entryBar :: later) {passed rest : List DailyBar}
    {exitBar : DailyBar} {reason : BacktestExitReason} (hlater : later = passed ++ exitBar :: rest)
    (hquiet : ∀ before other after, passed = before ++ other :: after →
      rule.trigger other (1 + before.length) = none)
    (hends : rule.trigger exitBar (1 + passed.length) =
        some reason ∨
      (reason = .endOfPeriod ∧ rest = [] ∧
        rule.trigger exitBar (1 + passed.length) = none)) :
    FirstExit run rule bars entryBar exitBar reason (passed.length + 1) := by
  have hheld := barsHeld_split hdates heligible hlater
  have hmem : ∀ {bar}, bar ∈ later ↔ bar ∈ bars ∧ entryBar.tradingDate < bar.tradingDate ∧
      bar.tradingDate ≤ run.endDate := mem_later hdates heligible
  have hexit := hmem.mp (show exitBar ∈ later by rw [hlater]; simp)
  have hbefore : ∀ bar ∈ bars, entryBar.tradingDate < bar.tradingDate →
      bar.tradingDate < exitBar.tradingDate →
      rule.trigger bar
        (barsHeld bars entryBar.tradingDate bar.tradingDate) = none := by
    intro bar hbar hafter hlt
    have hin := hmem.mpr ⟨hbar, hafter, hlt.le.trans hexit.2.2⟩
    exact quiet_of_split hdates heligible hlater hquiet bar
      (mem_passed hdates heligible hlater hin hlt)
  refine ⟨hexit.1, ⟨hexit.2.1.le, hexit.2.2⟩, hheld.symm, next_le_limit hlimit hquiet, hbefore, ?_⟩
  rw [Nat.add_comm] at hends
  rcases hends with htrigger | ⟨hreason, rfl, hnone⟩
  · exact .inl ⟨hexit.2.1, htrigger⟩
  · -- The exit bar is the last one, so the others are before it.
    have hle : ∀ bar ∈ bars, bar.tradingDate ≤ run.endDate →
        bar.tradingDate ≤ exitBar.tradingDate := by
      intro bar hbar hend
      by_contra hlt
      have hin := hmem.mpr ⟨hbar, hexit.2.1.trans (not_le.mp hlt), hend⟩
      have hsorted := eligible_sorted hdates heligible
      rw [hlater] at hsorted
      rw [hlater] at hin
      rcases List.mem_append.mp hin with hin | hin
      · exact hlt ((List.pairwise_append.mp hsorted.of_cons).2.2 bar hin exitBar (by simp)).le
      · rw [List.mem_singleton.mp hin] at hlt
        exact hlt le_rfl
    refine .inr ⟨hreason, hle, fun bar hbar hafter hend => ?_⟩
    rcases (hle bar hbar hend).lt_or_eq with hlt | heq
    · exact hbefore bar hbar hafter hlt
    · have hsame : bar = exitBar := (List.inj_on_of_nodup_map hdates) hbar hexit.1 heq
      rw [hsame, hheld]
      exact hnone

/-- Without later bars the entry bar is the exit. -/
theorem firstExit_single (hlimit : 1 ≤ rule.maxHoldingDays)
    (hdates : (bars.map (·.tradingDate)).Nodup)
    (heligible : eligibleBars run signal bars = [entryBar]) :
    FirstExit run rule bars entryBar entryBar .endOfPeriod 0 := by
  obtain ⟨hmem, hentry⟩ := mem_eligibleBars.mp
    (show entryBar ∈ eligibleBars run signal bars from heligible ▸ List.mem_cons_self)
  have hnone : ∀ bar ∈ bars, bar.tradingDate ≤ run.endDate →
      bar.tradingDate ≤ entryBar.tradingDate := by
    intro bar hbar hend
    by_contra hafter
    exact List.not_mem_nil ((mem_later hdates heligible).mpr ⟨hbar, not_le.mp hafter, hend⟩)
  refine ⟨hmem, ⟨le_rfl, hentry.2⟩, ?_, ?_, ?_, .inr ⟨rfl, hnone, ?_⟩⟩
  · refine (List.countP_eq_zero.mpr fun bar _ => ?_).symm
    simp only [decide_eq_true_eq, not_and, not_le]
    exact id
  · exact zero_le_one.trans hlimit
  · exact fun bar _ hafter hbefore => absurd hbefore hafter.asymm
  · exact fun bar hbar hafter hend => absurd hafter (not_lt.mpr (hnone bar hbar hend))

/-- What the loop with its fallbacks finds is the first exit, at its fill. -/
theorem DecimalContext.exitOf_firstExit {d : DecimalContext} {p : BacktestParameters}
    (hp : p.Accepted) (hdates : (bars.map (·.tradingDate)).Nodup)
    (heligible : eligibleBars run signal bars = entryBar :: later) :
    (d.exitOf p entryBar later).2.2 = (d.exitRule p (d.entryPrice p entryBar)).fill
        (d.exitOf p entryBar later).1 (d.exitOf p entryBar later).2.1 ∧
      FirstExit run (d.exitRule p (d.entryPrice p entryBar)) bars entryBar
        (d.exitOf p entryBar later).1 (d.exitOf p entryBar later).2.1
        (if later = [] then 0 else later.idxOf (d.exitOf p entryBar later).1 + 1) := by
  have hlimit : 1 ≤ (d.exitRule p (d.entryPrice p entryBar)).maxHoldingDays := hp.holding
  rw [d.exitOf_eq]
  cases hscan : (d.exitRule p (d.entryPrice p entryBar)).scan 1 later with
  | some found =>
    obtain ⟨bar, reason, raw⟩ := found
    obtain ⟨hraw, passed, rest, hlater, htrigger, hquiet⟩ := ExitRule.scan_some hscan
    have hne : later ≠ [] := by simp [hlater]
    rw [Option.getD_some, if_neg hne, idxOf_split hdates heligible hlater]
    exact ⟨hraw, firstExit_of_split hlimit hdates heligible hlater hquiet (.inl htrigger)⟩
  | none =>
    have hquiet := ExitRule.scan_none hscan
    rw [Option.getD_none]
    refine ⟨rfl, ?_⟩
    rcases List.eq_nil_or_concat later with rfl | ⟨init, last, hconcat⟩
    · exact firstExit_single hlimit hdates heligible
    · rw [List.concat_eq_append] at hconcat
      have hne : later ≠ [] := by simp [hconcat]
      have hlast : later.getLast?.getD entryBar = last := by simp [hconcat]
      rw [hlast, if_neg hne, idxOf_split hdates heligible hconcat]
      have hinit : ∀ before other after, init = before ++ other :: after →
          (d.exitRule p (d.entryPrice p entryBar)).trigger other (1 + before.length) = none :=
        fun before other after heq => hquiet before other (after ++ [last]) (by simp [hconcat, heq])
      exact firstExit_of_split hlimit hdates heligible hconcat hinit
        (.inr ⟨rfl, rfl, hquiet init last [] hconcat⟩)

theorem isEntryBar_head (hdates : (bars.map (·.tradingDate)).Nodup)
    (heligible : eligibleBars run signal bars = entryBar :: later) :
    IsEntryBar run signal bars entryBar := by
  obtain ⟨hmem, hin⟩ := mem_eligibleBars.mp
    (show entryBar ∈ eligibleBars run signal bars from heligible ▸ List.mem_cons_self)
  refine ⟨hmem, hin, fun bar hbar hbarIn => ?_⟩
  have hsorted := eligible_sorted hdates heligible
  have hother := mem_eligibleBars.mpr ⟨hbar, hbarIn⟩
  rw [heligible] at hother
  rcases List.mem_cons.mp hother with rfl | hother
  · exact le_rfl
  · exact (List.rel_of_pairwise_cons hsorted hother).le

theorem IsEntryBar.unique {other : DailyBar} (hdates : (bars.map (·.tradingDate)).Nodup)
    (h : IsEntryBar run signal bars entryBar) (hother : IsEntryBar run signal bars other) :
    entryBar = other := by
  have hdate : entryBar.tradingDate = other.tradingDate :=
    le_antisymm (h.first other hother.mem hother.eligible)
      (hother.first entryBar h.mem h.eligible)
  exact List.inj_on_of_nodup_map hdates h.mem hother.mem hdate

theorem not_isEntryBar_of_nil (heligible : eligibleBars run signal bars = []) :
    ¬ IsEntryBar run signal bars entryBar := by
  intro h
  have hmem := mem_eligibleBars.mpr ⟨h.mem, h.eligible⟩
  rw [heligible] at hmem
  cases hmem

/-- The entry bar is the first of the bars that the signal may trade on. -/
theorem forall_isEntryBar_iff {P : DailyBar → Prop} (hdates : (bars.map (·.tradingDate)).Nodup)
    (heligible : eligibleBars run signal bars = entryBar :: later) :
    (∀ other, IsEntryBar run signal bars other → P other) ↔ P entryBar := by
  have hentry := isEntryBar_head hdates heligible
  constructor
  · intro h
    exact h entryBar hentry
  · intro h other hother
    rwa [← hentry.unique hdates hother]

theorem IsEntryBar.head (hdates : (bars.map (·.tradingDate)).Nodup)
    (h : IsEntryBar run signal bars entryBar) :
    ∃ later, eligibleBars run signal bars = entryBar :: later := by
  cases heligible : eligibleBars run signal bars with
  | nil => exact absurd h (not_isEntryBar_of_nil heligible)
  | cons first later =>
    obtain rfl := (isEntryBar_head hdates heligible).unique hdates h
    exact ⟨later, rfl⟩

end Signal

/-! Nothing but the bars decides the exit. -/

section Unique

variable {run : RunRequest} {rule : ExitRule} {bars : List DailyBar}
  {entryBar exitBar other : DailyBar} {reason reason' : BacktestExitReason} {held held' : Nat}

/-- A bar before the exit neither triggers nor is the last. -/
theorem FirstExit.not_before (h : FirstExit run rule bars entryBar exitBar reason held)
    (hother : FirstExit run rule bars entryBar other reason' held') :
    ¬ other.tradingDate < exitBar.tradingDate := by
  intro hlt
  rcases hother.ends with ⟨hafter, htrigger⟩ | ⟨-, hlast, -⟩
  · have hquiet := h.quiet other hother.mem hafter hlt
    rw [← hother.held_eq, htrigger] at hquiet
    cases hquiet
  · exact not_le.mpr hlt (hlast exitBar h.mem h.range.2)

theorem FirstExit.unique (hdates : (bars.map (·.tradingDate)).Nodup)
    (h : FirstExit run rule bars entryBar exitBar reason held)
    (hother : FirstExit run rule bars entryBar other reason' held') :
    exitBar = other ∧ reason = reason' := by
  have hdate : exitBar.tradingDate = other.tradingDate :=
    le_antisymm (not_lt.mp (h.not_before hother)) (not_lt.mp (hother.not_before h))
  obtain rfl : exitBar = other := List.inj_on_of_nodup_map hdates h.mem hother.mem hdate
  obtain rfl : held = held' := h.held_eq.trans hother.held_eq.symm
  refine ⟨rfl, ?_⟩
  rcases h.ends with ⟨hafter, htrigger⟩ | ⟨hreason, -, hnone⟩ <;>
    rcases hother.ends with ⟨hafter', htrigger'⟩ | ⟨hreason', -, hnone'⟩
  · exact Option.some.inj (htrigger.symm.trans htrigger')
  · have hquiet := hnone' exitBar h.mem hafter h.range.2
    rw [← h.held_eq, htrigger] at hquiet
    cases hquiet
  · have hquiet := hnone exitBar h.mem hafter' h.range.2
    rw [← h.held_eq, htrigger'] at hquiet
    cases hquiet
  · rw [hreason, hreason']

end Unique

/-! ## The fill -/

/-- `ck_daily_bars_non_negative` and `ck_daily_bars_valid_ohlc`, read on a bar. -/
structure DailyBar.Valid (bar : DailyBar) : Prop where
  low_nonneg : 0 ≤ bar.low
  open_range : bar.low ≤ bar.open ∧ bar.open ≤ bar.high
  close_range : bar.low ≤ bar.close ∧ bar.close ≤ bar.high

theorem DailyBar.Valid.ofRecord {row : DailyBarRecord} (hnonneg : row.NonNegative)
    (hohlc : row.ValidOhlc) : (DailyBar.ofRecord row).Valid := by
  obtain ⟨-, -, hlow, -⟩ := hnonneg
  obtain ⟨hopen, hclose, -, hlowOpen, hlowClose⟩ := hohlc
  exact ⟨hlow, ⟨hlowOpen, hopen⟩, ⟨hlowClose, hclose⟩⟩

/-- A raw fill that the bar allows: within its range, no better than the stop or no worse than
the target, at the open where that is already beyond the level, and never improved by slippage. -/
structure AchievableFill (p : BacktestParameters) (entryPrice : ℚ) (bar : DailyBar)
    (reason : BacktestExitReason) (raw : ℚ) : Prop where
  range : bar.low ≤ raw ∧ raw ≤ bar.high
  stop : reason = .stopLoss → raw ≤ stopLevel p entryPrice ∧
    (bar.open ≤ stopLevel p entryPrice → raw = bar.open)
  target : reason = .takeProfit → targetLevel p entryPrice ≤ raw ∧
    (targetLevel p entryPrice ≤ bar.open → raw = bar.open)
  slipped : raw * (1 - p.slippageRate) ≤ raw

section Fill

variable {p : BacktestParameters} {entryPrice : ℚ} {bar : DailyBar} {reason : BacktestExitReason}

theorem slipped_le (hp : p.Accepted) {raw : ℚ} (hraw : 0 ≤ raw) :
    raw * (1 - p.slippageRate) ≤ raw :=
  mul_le_of_le_one_right hraw (sub_le_self 1 hp.slippage.1)

/-- A close is always a fill that the bar allows. -/
theorem close_achievable (hp : p.Accepted) (hbar : bar.Valid) (hstop : reason ≠ .stopLoss)
    (htarget : reason ≠ .takeProfit) : AchievableFill p entryPrice bar reason bar.close :=
  ⟨hbar.close_range, fun h => absurd h hstop, fun h => absurd h htarget,
    slipped_le hp (hbar.low_nonneg.trans hbar.close_range.1)⟩

theorem fill_stopLoss :
    (exitRule p entryPrice).fill bar .stopLoss = min bar.open (stopLevel p entryPrice) :=
  (min_def _ _).symm

theorem fill_takeProfit :
    (exitRule p entryPrice).fill bar .takeProfit = max (targetLevel p entryPrice) bar.open :=
  (max_def _ _).symm

/-- What a trigger fills at is a fill that the bar allows. -/
theorem trigger_achievable (hp : p.Accepted) (hbar : bar.Valid) {held : Nat}
    (h : (exitRule p entryPrice).trigger bar held = some reason) :
    AchievableFill p entryPrice bar reason ((exitRule p entryPrice).fill bar reason) := by
  unfold ExitRule.trigger at h
  split_ifs at h with hstop htarget hlimit <;> obtain rfl := Option.some.inj h
  · have hlow : bar.low ≤ stopLevel p entryPrice := by
      rcases hstop with hopen | hlow
      · exact hbar.open_range.1.trans hopen
      · exact hlow
    rw [fill_stopLoss]
    have hrange : bar.low ≤ min bar.open (stopLevel p entryPrice) :=
      le_min hbar.open_range.1 hlow
    exact ⟨⟨hrange, (min_le_left _ _).trans hbar.open_range.2⟩,
      fun _ => ⟨min_le_right _ _, min_eq_left⟩, nofun,
      slipped_le hp (hbar.low_nonneg.trans hrange)⟩
  · have hhigh : targetLevel p entryPrice ≤ bar.high := by
      rcases htarget with hopen | hhigh
      · exact hopen.trans hbar.open_range.2
      · exact hhigh
    rw [fill_takeProfit]
    have hrange : bar.low ≤ max (targetLevel p entryPrice) bar.open :=
      hbar.open_range.1.trans (le_max_right _ _)
    exact ⟨⟨hrange, max_le hhigh hbar.open_range.2⟩, nofun,
      fun _ => ⟨le_max_left _ _, max_eq_right⟩, slipped_le hp (hbar.low_nonneg.trans hrange)⟩
  · exact close_achievable hp hbar (by decide) (by decide)

/-- The stop is looked at first. -/
theorem trigger_stop {held : Nat} (hstop : TouchesStop p entryPrice bar)
    (h : (exitRule p entryPrice).trigger bar held = some reason) : reason = .stopLoss := by
  rw [ExitRule.trigger, if_pos hstop] at h
  exact (Option.some.inj h).symm

/-- The fill of the event loop. -/
theorem exitTerms_achievable (hp : p.Accepted) (hbar : bar.Valid) {position : OpenPosition}
    {final : Bool} {raw : ℚ} (h : exitTerms position bar p final = some (reason, raw)) :
    AchievableFill p position.entryPrice bar reason raw ∧
      (TouchesStop p position.entryPrice bar → final = false → reason = .stopLoss) := by
  cases final with
  | true =>
    obtain ⟨rfl, rfl⟩ := Prod.mk.inj (Option.some.inj h)
    exact ⟨close_achievable hp hbar (by decide) (by decide), fun _ hfinal => by cases hfinal⟩
  | false =>
    rw [exitTerms_eq, Option.map_eq_some_iff] at h
    obtain ⟨found, htrigger, hterms⟩ := h
    obtain ⟨rfl, rfl⟩ := Prod.mk.inj hterms
    exact ⟨trigger_achievable hp hbar htrigger, fun hstop _ => trigger_stop hstop htrigger⟩

theorem open_le_effective (hp : p.Accepted) (hbar : bar.Valid) :
    bar.open ≤ bar.open * (1 + p.slippageRate) :=
  le_mul_of_one_le_right (hbar.low_nonneg.trans hbar.open_range.1)
    (le_add_of_nonneg_right hp.slippage.1)

end Fill

section Exit

variable {p : BacktestParameters} {entryBar : DailyBar} {later : List DailyBar}

/-- The exit of the loop is a trigger at its fill, or the close of the last bar, which then
nothing triggers unless it is the entry bar itself. -/
theorem exitOf_cases (p : BacktestParameters) (entryBar : DailyBar) (later : List DailyBar) :
    ((exitOf p entryBar later).1 ∈ later ∧ ∃ held,
        (exitRule p (entryBar.open * (1 + p.slippageRate))).trigger (exitOf p entryBar later).1
          held =
          some (exitOf p entryBar later).2.1 ∧
        (exitOf p entryBar later).2.2 = (exitRule p (entryBar.open * (1 + p.slippageRate))).fill 
          (exitOf p entryBar later).1 (exitOf p entryBar later).2.1) ∨
      ((exitOf p entryBar later).2.1 = .endOfPeriod ∧
        (exitOf p entryBar later).2.2 = (exitOf p entryBar later).1.close ∧
        ((later = [] ∧ (exitOf p entryBar later).1 = entryBar) ∨
          (exitOf p entryBar later).1 ∈ later ∧ ∃ held,
            (exitRule p (entryBar.open * (1 + p.slippageRate))).trigger (exitOf p entryBar later).1
              held =
              none)) := by
  rw [exitOf_eq]
  cases hscan : (exitRule p (entryBar.open * (1 + p.slippageRate))).scan 1 later with
  | some found =>
    obtain ⟨hraw, passed, rest, rfl, htrigger, -⟩ := ExitRule.scan_some hscan
    rw [Option.getD_some]
    exact .inl ⟨by simp, _, htrigger, hraw⟩
  | none =>
    rw [Option.getD_none]
    refine .inr ⟨rfl, rfl, ?_⟩
    rcases List.eq_nil_or_concat later with rfl | ⟨init, last, rfl⟩
    · exact .inl ⟨rfl, rfl⟩
    · rw [List.concat_eq_append] at hscan ⊢
      have hnone := ExitRule.scan_none hscan init last [] rfl
      rw [List.getLast?_concat, Option.getD_some]
      exact .inr ⟨by simp, _, hnone⟩

theorem exitOf_mem (p : BacktestParameters) (entryBar : DailyBar) (later : List DailyBar) :
    (exitOf p entryBar later).1 ∈ entryBar :: later := by
  rcases exitOf_cases p entryBar later with ⟨hmem, -⟩ | ⟨-, -, ⟨-, hbar⟩ | ⟨hmem, -⟩⟩
  · exact List.mem_cons_of_mem entryBar hmem
  · rw [hbar]
    exact List.mem_cons_self
  · exact List.mem_cons_of_mem entryBar hmem

theorem exitOf_achievable (hp : p.Accepted) (hentry : entryBar.Valid)
    (hlater : ∀ bar ∈ later, bar.Valid) :
    AchievableFill p (entryBar.open * (1 + p.slippageRate)) (exitOf p entryBar later).1
      (exitOf p entryBar later).2.1 (exitOf p entryBar later).2.2 := by
  rcases exitOf_cases p entryBar later with ⟨hmem, held, htrigger, hraw⟩ | ⟨hreason, hclose, hbar⟩
  · rw [hraw]
    exact trigger_achievable hp (hlater _ hmem) htrigger
  · have hvalid : (exitOf p entryBar later).1.Valid := by
      rcases hbar with ⟨-, hbar⟩ | ⟨hmem, -⟩
      · rw [hbar]
        exact hentry
      · exact hlater _ hmem
    rw [hclose]
    exact close_achievable hp hvalid (by simp [hreason]) (by simp [hreason])

/-- An exit bar that touches the stop is a stop loss, unless it is the only bar there is. -/
theorem exitOf_stop (hlater : later ≠ [])
    (hstop : TouchesStop p (entryBar.open * (1 + p.slippageRate)) (exitOf p entryBar later).1) :
    (exitOf p entryBar later).2.1 = .stopLoss := by
  rcases exitOf_cases p entryBar later with ⟨-, held, htrigger, -⟩ | ⟨-, -, hbar⟩
  · exact trigger_stop hstop htrigger
  · rcases hbar with ⟨hnil, -⟩ | ⟨-, held, hnone⟩
    · exact absurd hnil hlater
    · rw [ExitRule.trigger, if_pos hstop] at hnone
      cases hnone

end Exit

/-- **Fills are achievable prices,** by the rule of the event loop and in the simulation of a
signal alone. -/
theorem fills_achievable {p : BacktestParameters} (hp : p.Accepted) :
    (∀ position bar final reason raw, bar.Valid →
      exitTerms position bar p final = some (reason, raw) →
        AchievableFill p position.entryPrice bar reason raw ∧
          (TouchesStop p position.entryPrice bar → TouchesTarget p position.entryPrice bar →
            final = false → reason = .stopLoss)) ∧
      (∀ run signal bars id trade, (∀ bar ∈ bars, bar.Valid) →
        simulateSignal run signal bars p id = .ok (.trade trade) →
          ∃ entryBar later, eligibleBars run signal bars = entryBar :: later ∧
            ∃ exitBar ∈ entryBar :: later, ∃ raw,
              trade.exitDate = exitBar.tradingDate ∧
              trade.entryPrice = quantize (entryBar.open * (1 + p.slippageRate)) ∧
              trade.exitPrice = quantize (raw * (1 - p.slippageRate)) ∧
              entryBar.open ≤ entryBar.open * (1 + p.slippageRate) ∧
              AchievableFill p (entryBar.open * (1 + p.slippageRate)) exitBar trade.exitReason raw ∧
              (TouchesStop p (entryBar.open * (1 + p.slippageRate)) exitBar →
                TouchesTarget p (entryBar.open * (1 + p.slippageRate)) exitBar →
                later ≠ [] → trade.exitReason = .stopLoss)) ∧
      ∀ c : Context, c.p.trading = p → ∀ bar : DailyBar, bar.Valid →
        bar.open ≤ effectivePrice c bar := by
  refine ⟨?_, ?_, fun c hc bar hbar => ?_⟩
  · intro position bar final reason raw hbar hterms
    obtain ⟨hfill, hfirst⟩ := exitTerms_achievable hp hbar hterms
    exact ⟨hfill, fun hstop _ => hfirst hstop⟩
  · intro run signal bars id trade hbars hsimulate
    obtain ⟨entryBar, later, heligible, -, -, rfl⟩ := simulateSignal_eq_trade.mp hsimulate
    have hvalid : ∀ bar ∈ entryBar :: later, bar.Valid := by
      intro bar hbar
      rw [← heligible] at hbar
      exact hbars bar (mem_eligibleBars.mp hbar).1
    have hentry := hvalid entryBar List.mem_cons_self
    refine ⟨entryBar, later, heligible, _, exitOf_mem p entryBar later, _, rfl, rfl, rfl,
      open_le_effective hp hentry, ?_, ?_⟩
    · exact exitOf_achievable hp hentry fun bar hbar =>
        hvalid bar (List.mem_cons_of_mem entryBar hbar)
    · exact fun hstop _ hlater => exitOf_stop hlater hstop
  · rw [effectivePrice, hc]
    exact open_le_effective hp hbar

/-- Wider rates than the defaults: a stop at nine tenths, a target at eleven. -/
def wideRates : BacktestParameters :=
  { BacktestParameters.defaults with
    stopLossPct := 1 / 10, takeProfitPct := 1 / 10, slippageRate := 1 / 100 }

def wideContext : Context :=
  ⟨⟨7, 0, 10, Dict.empty⟩, ⟨10 ^ 6, 3, 1 / 4, 1 / 10, "fixed_fraction", wideRates⟩, [], Dict.empty,
    Dict.empty, id⟩

/-- Two days of a stock, the second one touching both levels. -/
def wideDays : List DailyBar := [⟨"A", 3, 101, 125, 80, 103⟩, ⟨"A", 2, 100, 103, 98, 101⟩]

/-- A gap below the stop, a day that touches both levels, and a signal alone. -/
theorem fills_achievable_gap :
    AchievableFill wideRates 100 ⟨"A", 4, 85, 98, 80, 92⟩ .stopLoss 85 ∧
      (∃ reason raw, exitTerms ⟨⟨"A", 1⟩, 2, 99, 100, 5, 0, 100, 1⟩ ⟨"A", 4, 100, 120, 80, 92⟩
          wideRates false = some (reason, raw) ∧
        AchievableFill wideRates 100 ⟨"A", 4, 100, 120, 80, 92⟩ reason raw ∧ reason = .stopLoss) ∧
      (∃ trade, simulateSignal ⟨7, 0, 10, Dict.empty⟩ ⟨"A", 1⟩ wideDays wideRates 5 =
          .ok (.trade trade) ∧
        ∃ exitBar raw, trade.exitDate = exitBar.tradingDate ∧
          AchievableFill wideRates (100 * (1 + wideRates.slippageRate)) exitBar trade.exitReason
            raw) ∧
      (100 : ℚ) ≤ effectivePrice wideContext ⟨"A", 4, 100, 120, 80, 92⟩ := by
  have hp : wideRates.Accepted := BacktestParameters.validate_ok.mp
    (show wideRates.validate = .ok () by decide +kernel)
  obtain ⟨hday, hsignal, heffective⟩ := fills_achievable hp
  have hgap : DailyBar.Valid ⟨"A", 4, 85, 98, 80, 92⟩ := by constructor <;> norm_num
  have hboth : DailyBar.Valid ⟨"A", 4, 100, 120, 80, 92⟩ := by constructor <;> norm_num
  refine ⟨?_, ?_, ?_, heffective wideContext rfl _ hboth⟩
  · exact (hday ⟨⟨"A", 1⟩, 2, 99, 100, 5, 0, 100, 1⟩ _ false _ _ hgap (by decide +kernel)).1
  · obtain ⟨hfill, hfirst⟩ := hday ⟨⟨"A", 1⟩, 2, 99, 100, 5, 0, 100, 1⟩ _ false .stopLoss 90 hboth
      (by decide +kernel)
    exact ⟨_, _, by decide +kernel, hfill, hfirst (by decide +kernel) (by decide +kernel) rfl⟩
  · have hvalid : ∀ bar ∈ wideDays, bar.Valid := by
      simp only [wideDays, List.forall_mem_cons, List.not_mem_nil, false_implies, implies_true,
        and_true]
      constructor <;> constructor <;> norm_num
    have htrade : simulateSignal ⟨7, 0, 10, Dict.empty⟩ ⟨"A", 1⟩ wideDays wideRates 5 =
        .ok (.trade (singleTrade ⟨7, 0, 10, Dict.empty⟩ ⟨"A", 1⟩ wideRates
          ⟨"A", 2, 100, 103, 98, 101⟩ [⟨"A", 3, 101, 125, 80, 103⟩] 4950 5)) := by
      decide +kernel
    obtain ⟨entryBar, later, heligible, exitBar, -, raw, hdate, -, -, -, hfill, -⟩ :=
      hsignal _ _ _ _ _ hvalid htrade
    have hbars : eligibleBars ⟨7, 0, 10, Dict.empty⟩ ⟨"A", 1⟩ wideDays =
        [⟨"A", 2, 100, 103, 98, 101⟩,
        ⟨"A", 3, 101, 125, 80, 103⟩] := by decide +kernel
    obtain ⟨rfl, -⟩ := List.cons.inj (heligible.symm.trans hbars)
    exact ⟨_, htrade, exitBar, raw, hdate, hfill⟩

end Screener.Backtest
