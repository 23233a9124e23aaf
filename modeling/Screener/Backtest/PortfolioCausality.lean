import Screener.Backtest.PortfolioLookahead
import Screener.Backtest.PortfolioAccounting

/-!
# Nothing up to a day depends on what comes after it

Two runs with the same parameters whose signals, bars and calendars agree up to a
day are followed side by side through that day, which is the last one of neither.
A run may load symbols that are signalled only later, but up to the day it holds
and enters only symbols that both have loaded.
-/

namespace Screener.Backtest

open Screener.Lib
open Screener.Market (Date Symbol DailyBarRecord)

/-- A trade without the ids that are generated for it. -/
def BacktestTrade.anonymous (trade : BacktestTrade) : BacktestTrade :=
  { trade with id := 0, runId := 0 }

def PortfolioSnapshot.anonymous (snapshot : PortfolioSnapshot) : PortfolioSnapshot :=
  { snapshot with id := 0, runId := 0 }

def Ledger.tradesUpTo (ledger : Ledger) (d : Date) : List BacktestTrade :=
  (ledger.trades.filter (·.exitDate ≤ d)).map BacktestTrade.anonymous

def Ledger.snapshotsUpTo (ledger : Ledger) (d : Date) : List PortfolioSnapshot :=
  (ledger.snapshots.filter (·.tradingDate ≤ d)).map PortfolioSnapshot.anonymous

/-- The two inputs agree on all that is known when `d` ends, and both go on. -/
structure SameUpTo (d : Date) (run₁ run₂ : RunRequest)
    (generated₁ generated₂ : List BacktestSignal) (rows₁ rows₂ : List DailyBarRecord) : Prop where
  parameters : run₁.parameters = run₂.parameters
  signals : (generated₁.filter (·.signalDate < d)).Perm (generated₂.filter (·.signalDate < d))
  bars : ∀ bar : DailyBar, bar.tradingDate ≤ d →
    ((∃ row ∈ rows₁, DailyBar.ofRecord row = bar) ↔ ∃ row ∈ rows₂, DailyBar.ofRecord row = bar)
  calendars : ∀ day ≤ d, day ∈ calendar run₁ rows₁ ↔ day ∈ calendar run₂ rows₂
  later₁ : ∃ day ∈ calendar run₁ rows₁, d < day
  later₂ : ∃ day ∈ calendar run₂ rows₂, d < day

/-! ## Side by side -/

/-- Two ledgers with the same book and the same output up to `d`; only `symbols` are held. -/
structure Twin (d : Date) (symbols : List Symbol) (l₁ l₂ : Ledger) : Prop where
  state : l₁.state = l₂.state
  trades : l₁.tradesUpTo d = l₂.tradesUpTo d
  snapshots : l₁.snapshotsUpTo d = l₂.snapshotsUpTo d
  held : ∀ symbol ∈ l₁.state.positions.keys, symbol ∈ symbols

/-- On `day`, which is not the last one, both runs enter the same of `symbols` and
look the same bars of them up. -/
structure SameSession (c₁ c₂ : Context) (symbols : List Symbol) (day : Date) : Prop where
  p : c₁.p = c₂.p
  final₁ : c₁.final day = false
  final₂ : c₂.final day = false
  entries : c₁.entries day = c₂.entries day
  entered : ∀ signal ∈ c₁.entries day, signal.symbol ∈ symbols
  bars : ∀ symbol ∈ symbols, (c₁.bars day).get? symbol = (c₂.bars day).get? symbol

variable {c₁ c₂ : Context} {d day : Date} {symbols : List Symbol} {l₁ l₂ t₁ t₂ : Ledger}

namespace Twin

theorem hold (h : Twin d symbols l₁ l₂) {symbol : Symbol} (hsymbol : symbol ∈ symbols)
    (position : OpenPosition) :
    Twin d symbols (holdPosition l₁ symbol position) (holdPosition l₂ symbol position) := by
  refine ⟨by simp only [holdPosition, h.state], h.trades, h.snapshots, ?_⟩
  intro other hother
  rcases Dict.mem_keys_set.mp hother with rfl | hold
  · exact hsymbol
  · exact h.held other hold

theorem close (h : Twin d symbols l₁ l₂) (hp : c₁.p = c₂.p) (symbol : Symbol)
    (position : OpenPosition) (day : Date) (raw : ℚ) (reason : BacktestExitReason) :
    Twin d symbols (closePosition c₁ l₁ symbol position day raw reason)
      (closePosition c₂ l₂ symbol position day raw reason) := by
  constructor
  · simp only [closePosition_eq, h.state, hp]
  · have htrades := h.trades
    simp only [Ledger.tradesUpTo] at htrades ⊢
    simp only [closePosition_eq, List.filter_append, List.map_append, htrades, hp]
    congr 1
    by_cases hday : day ≤ d <;> simp [hday, BacktestTrade.anonymous]
  · exact h.snapshots
  · intro other hother
    rw [closePosition_positions, Dict.mem_keys_erase] at hother
    exact h.held other hother.1

theorem enter (h : Twin d symbols l₁ l₂) (hp : c₁.p = c₂.p) {signal : BacktestSignal}
    (hsymbol : signal.symbol ∈ symbols) (day : Date) (bar : DailyBar) (quantity : Nat) :
    Twin d symbols (openPosition c₁ l₁ signal day bar quantity)
      (openPosition c₂ l₂ signal day bar quantity) := by
  constructor
  · simp only [openPosition_eq, requiredCash, effectivePrice, h.state, hp]
  · exact h.trades
  · exact h.snapshots
  · intro other hother
    rcases Dict.mem_keys_set.mp hother with rfl | hold
    · exact hsymbol
    · exact h.held other hold

theorem mark (h : Twin d symbols l₁ l₂) (hp : c₁.p = c₂.p)
    (hbars : ∀ symbol ∈ symbols, (c₁.bars day).get? symbol = (c₂.bars day).get? symbol) :
    Twin d symbols (closeDay c₁ day (c₁.bars day) l₁) (closeDay c₂ day (c₂.bars day) l₂) := by
  have hmark : l₂.state.positions.mapValues (markPosition (c₁.bars day)) =
      l₂.state.positions.mapValues (markPosition (c₂.bars day)) := by
    rw [← h.state]
    refine Dict.mapValues_congr fun symbol position hget => ?_
    simp only [markPosition, hbars symbol (h.held symbol (Dict.mem_keys_of_get? hget))]
  constructor
  · simp only [closeDay_eq, h.state, hmark]
  · exact h.trades
  · have hsnapshots := h.snapshots
    simp only [Ledger.snapshotsUpTo] at hsnapshots ⊢
    simp only [closeDay_eq, List.filter_append, List.map_append, hsnapshots, h.state, hmark, hp]
    congr 1
    by_cases hday : day ≤ d <;> simp [hday, PortfolioSnapshot.anonymous]
  · intro symbol hsymbol
    replace hsymbol : symbol ∈ (l₁.state.positions.mapValues
      (markPosition (c₁.bars day))).keys := hsymbol
    rw [Dict.keys_mapValues] at hsymbol
    exact h.held symbol hsymbol

end Twin

theorem exitOne_twin {symbol : Symbol} (hs : SameSession c₁ c₂ symbols day)
    (h : Twin d symbols l₁ l₂) (h₁ : exitOne c₁ day (c₁.bars day) (c₁.final day) l₁ symbol = .ok t₁)
    (h₂ : exitOne c₂ day (c₂.bars day) (c₂.final day) l₂ symbol = .ok t₂) :
    Twin d symbols t₁ t₂ := by
  obtain ⟨position, hget, hcase₁⟩ := exitOne_cases h₁
  obtain ⟨position₂, hget₂, hcase₂⟩ := exitOne_cases h₂
  rw [← h.state, hget, Option.some.injEq] at hget₂
  subst hget₂
  have hsymbol := h.held symbol (Dict.mem_keys_of_get? hget)
  rw [hs.final₁, exitBar_congr (hs.bars symbol hsymbol), hs.p] at hcase₁
  rw [hs.final₂] at hcase₂
  rcases hcase₁ with ⟨hb₁, rfl⟩ | ⟨bar₁, hb₁, hcase₁⟩
  · rcases hcase₂ with ⟨-, rfl⟩ | ⟨bar₂, hb₂, -⟩
    · exact h
    · rw [hb₁] at hb₂
      cases hb₂
  · rcases hcase₂ with ⟨hb₂, rfl⟩ | ⟨bar₂, hb₂, hcase₂⟩
    · rw [hb₁] at hb₂
      cases hb₂
    · rw [hb₁, Option.some.injEq] at hb₂
      subst hb₂
      rcases hcase₁ with ⟨ht₁, rfl⟩ | ⟨reason₁, raw₁, ht₁, rfl⟩
      · rcases hcase₂ with ⟨-, rfl⟩ | ⟨reason₂, raw₂, ht₂, rfl⟩
        · exact h.hold hsymbol position
        · rw [ht₁] at ht₂
          cases ht₂
      · rcases hcase₂ with ⟨ht₂, rfl⟩ | ⟨reason₂, raw₂, ht₂, rfl⟩
        · rw [ht₁] at ht₂
          cases ht₂
        · rw [ht₁, Option.some.injEq, Prod.mk.injEq] at ht₂
          obtain ⟨rfl, rfl⟩ := ht₂
          exact (h.hold hsymbol position).close hs.p symbol position.held day raw₁ reason₁

theorem enterOne_twin {signal : BacktestSignal} (hs : SameSession c₁ c₂ symbols day)
    (hsymbol : signal.symbol ∈ symbols) (h : Twin d symbols l₁ l₂)
    (h₁ : enterOne c₁ day (c₁.bars day) l₁ signal = .ok t₁)
    (h₂ : enterOne c₂ day (c₂.bars day) l₂ signal = .ok t₂) : Twin d symbols t₁ t₂ := by
  obtain ⟨bar, hbar, -⟩ := enterOne_cases h₁
  have hbar₂ : (c₂.bars day).get? signal.symbol = some bar := by
    rw [← hs.bars signal.symbol hsymbol, hbar]
  have heffective : effectivePrice c₁ bar = effectivePrice c₂ bar := by
    simp only [effectivePrice, hs.p]
  have hrequired : ∀ quantity, requiredCash c₁ (effectivePrice c₂ bar) quantity =
      requiredCash c₂ (effectivePrice c₂ bar) quantity := by
    intro quantity
    simp only [requiredCash, hs.p]
  have hsized : ∀ effective, sizeEntry c₁ l₂.state signal.symbol effective =
      sizeEntry c₂ l₂.state signal.symbol effective := by
    intro effective
    exact sizeEntry_congr (k := .unlimited) hs.p l₂.state signal.symbol effective
  simp only [enterOne_eq, hbar, hbar₂] at h₁ h₂
  rw [heffective, h.state, hsized] at h₁
  rcases hsize : sizeEntry c₂ l₂.state signal.symbol (effectivePrice c₂ bar) with
    ⟨quantity, _ | reason⟩
  · simp only [hsize] at h₁ h₂
    rw [hrequired quantity] at h₁
    split_ifs at h₁ h₂ with hcash
    · rw [Except.ok.injEq] at h₁ h₂
      rw [← h₁, ← h₂]
      exact ⟨h.state, h.trades, h.snapshots, h.held⟩
    · rw [Except.ok.injEq] at h₁ h₂
      rw [← h₁, ← h₂]
      exact h.enter hs.p hsymbol day bar quantity
  · simp only [hsize, Except.ok.injEq] at h₁ h₂
    rw [← h₁, ← h₂]
    exact ⟨h.state, h.trades, h.snapshots, h.held⟩

/-- A day up to `d` ends alike in both runs. -/
theorem runDay_twin (hs : SameSession c₁ c₂ symbols day) (h : Twin d symbols l₁ l₂)
    (h₁ : runDay c₁ l₁ day = .ok t₁) (h₂ : runDay c₂ l₂ day = .ok t₂) : Twin d symbols t₁ t₂ := by
  obtain ⟨exited₁, entered₁, liquidated₁, hexit₁, hentry₁, hliq₁, rfl⟩ := runDay_ok.mp h₁
  obtain ⟨exited₂, entered₂, liquidated₂, hexit₂, hentry₂, hliq₂, rfl⟩ := runDay_ok.mp h₂
  have hexit : Twin d symbols exited₁ exited₂ := by
    have hsymbols : l₂.state.symbols = l₁.state.symbols := by rw [h.state]
    rw [exitPhase_eq] at hexit₁ hexit₂
    rw [hsymbols] at hexit₂
    refine foldlM_related (Twin d symbols) ?_ hexit₁ hexit₂ h
    intro symbol _ s t s' t' hst hs' ht'
    exact exitOne_twin hs hst hs' ht'
  have hentry : Twin d symbols entered₁ entered₂ := by
    rw [entryPhase_eq] at hentry₁ hentry₂
    rw [← hs.entries] at hentry₂
    refine foldlM_related (Twin d symbols) ?_ hentry₁ hentry₂ hexit
    intro signal hsignal s t s' t' hst hs' ht'
    exact enterOne_twin hs (hs.entered signal hsignal) hst hs' ht'
  rw [liquidationPhase_eq, hs.final₁, if_neg Bool.false_ne_true, Except.ok.injEq] at hliq₁
  rw [liquidationPhase_eq, hs.final₂, if_neg Bool.false_ne_true, Except.ok.injEq] at hliq₂
  rw [← hliq₁, ← hliq₂]
  exact hentry.mark hs.p hs.bars

/-! ## From the inputs to the two contexts -/

theorem SameUpTo.symm {run₁ run₂ : RunRequest} {generated₁ generated₂ : List BacktestSignal}
    {rows₁ rows₂ : List DailyBarRecord}
    (h : SameUpTo d run₁ run₂ generated₁ generated₂ rows₁ rows₂) :
    SameUpTo d run₂ run₁ generated₂ generated₁ rows₂ rows₁ :=
  ⟨h.parameters.symm, h.signals.symm, fun bar hbar => (h.bars bar hbar).symm,
    fun day hday => (h.calendars day hday).symm, h.later₂, h.later₁⟩

/-- A day with a later one in the calendar is not the final day. -/
theorem final_of_later {c : Context} {later : Date} (hsorted : c.dates.Pairwise (· < ·))
    (hlater : later ∈ c.dates) (hlt : day < later) : c.final day = false := by
  rw [Context.final, decide_eq_false_iff_not]
  intro hlast
  obtain ⟨init, hinit⟩ := List.getLast?_eq_some_iff.mp hlast
  rw [hinit] at hsorted hlater
  rcases List.mem_append.mp hlater with hmem | hmem
  · have hbefore := (List.pairwise_append.mp hsorted).2.2 later hmem day (List.mem_singleton_self _)
    exact lt_asymm hbefore hlt
  · rw [List.mem_singleton] at hmem
    exact hlt.ne' hmem

/-- The order of the signals leaves no two of them tied. -/
theorem entries_of_perm {signals₁ signals₂ : List BacktestSignal} (h : signals₁.Perm signals₂) :
    signals₁.insertionSort BacktestSignal.le = signals₂.insertionSort BacktestSignal.le := by
  have htotal : ∀ a b : BacktestSignal, a.le b ∨ b.le a := by
    intro a b
    unfold BacktestSignal.le
    rcases lt_trichotomy a.signalDate b.signalDate with hlt | heq | hlt
    · exact .inl (.inl hlt)
    · rcases le_total a.symbol b.symbol with hle | hle
      · exact .inl (.inr ⟨heq, hle⟩)
      · exact .inr (.inr ⟨heq.symm, hle⟩)
    · exact .inr (.inl hlt)
  have htrans : ∀ a b c : BacktestSignal, a.le b → b.le c → a.le c := by
    intro a b c hab hbc
    rcases hab with hab | ⟨hab, hsymbol⟩
    · rcases hbc with hbc | ⟨hbc, -⟩
      · exact .inl (hab.trans hbc)
      · exact .inl (hbc ▸ hab)
    · rcases hbc with hbc | ⟨hbc, hsymbol'⟩
      · exact .inl (hab ▸ hbc)
      · exact .inr ⟨hab.trans hbc, hsymbol.trans hsymbol'⟩
  have hantisymm : ∀ a b : BacktestSignal, a.le b → b.le a → a = b := by
    intro a b hab hba
    rcases hab with hab | ⟨hdate, hsymbol⟩
    · rcases hba with hba | ⟨hba, -⟩
      · exact absurd hba hab.asymm
      · exact absurd hba hab.ne'
    · rcases hba with hba | ⟨-, hsymbol'⟩
      · exact absurd hdate hba.ne'
      · obtain ⟨symbol, date⟩ := a
        obtain ⟨symbol', date'⟩ := b
        rw [BacktestSignal.mk.injEq]
        exact ⟨le_antisymm hsymbol hsymbol', hdate⟩
  have : Std.Total BacktestSignal.le := ⟨htotal⟩
  have : IsTrans BacktestSignal BacktestSignal.le := ⟨htrans⟩
  refine List.Perm.eq_of_pairwise (fun a b _ _ hab hba => hantisymm a b hab hba)
    (List.pairwise_insertionSort _ _) (List.pairwise_insertionSort _ _) ?_
  exact ((List.perm_insertionSort _ _).trans h).trans (List.perm_insertionSort _ _).symm

section Contexts

variable {run₁ run₂ : RunRequest} {generated₁ generated₂ : List BacktestSignal}
  {rows₁ rows₂ : List DailyBarRecord} {ids₁ ids₂ : Nat → UUID} {e₁ e₂ : PortfolioExecution}

theorem SameUpTo.hasBar_mp (h : SameUpTo d run₁ run₂ generated₁ generated₂ rows₁ rows₂)
    {symbol : Symbol} (hday : day ≤ d) (hbar : HasBar rows₁ symbol day) :
    HasBar rows₂ symbol day := by
  obtain ⟨row, hrow, hsymbol, hdate⟩ := hbar
  have hrowdate : (DailyBar.ofRecord row).tradingDate ≤ d := hdate.trans_le hday
  obtain ⟨other, hother, heq⟩ := (h.bars _ hrowdate).mp ⟨row, hrow, rfl⟩
  exact ⟨other, hother, (congrArg DailyBar.symbol heq).trans hsymbol,
    (congrArg DailyBar.tradingDate heq).trans hdate⟩

/-- Entry days up to `d` are the same in both runs. -/
theorem SameUpTo.entryDay (h : SameUpTo d run₁ run₂ generated₁ generated₂ rows₁ rows₂)
    (signal : BacktestSignal) (hday : day ≤ d) :
    entryDay? run₁ rows₁ signal = some day ↔ entryDay? run₂ rows₂ signal = some day := by
  have hagree : ∀ x ≤ d,
      (x ∈ {x | x ∈ calendar run₁ rows₁ ∧ signal.signalDate < x ∧ HasBar rows₁ signal.symbol x} ↔
        x ∈ {x | x ∈ calendar run₂ rows₂ ∧ signal.signalDate < x ∧
          HasBar rows₂ signal.symbol x}) := by
    intro x hx
    have hbar : HasBar rows₁ signal.symbol x ↔ HasBar rows₂ signal.symbol x :=
      ⟨h.hasBar_mp hx, h.symm.hasBar_mp hx⟩
    simp only [Set.mem_ofPred_eq, h.calendars x hx, hbar]
  rw [entryDay?_eq_some, entryDay?_eq_some]
  exact ⟨isLeast_of_agree hagree hday, isLeast_of_agree (fun x hx => (hagree x hx).symm) hday⟩

theorem mem_entries (h₁ : executePortfolio run₁ generated₁ rows₁ ids₁ = .ok e₁)
    {signal : BacktestSignal} (hsignal : signal ∈ e₁.context.entries day) :
    signal ∈ generated₁ ∧ entryDay? run₁ rows₁ signal = some day := by
  rw [Context.entries, List.mem_insertionSort, execution_entries h₁ day, List.mem_filter,
    List.mem_insertionSort, decide_eq_true_eq] at hsignal
  exact hsignal

/-- Only the signals dated before `d` are entered up to `d`. -/
theorem entries_perm (h₁ : executePortfolio run₁ generated₁ rows₁ ids₁ = .ok e₁) (hday : day ≤ d) :
    (e₁.context.entryEvents.getD day []).Perm
      ((generated₁.filter (·.signalDate < d)).filter (entryDay? run₁ rows₁ · = some day)) := by
  rw [execution_entries h₁ day]
  refine ((List.perm_insertionSort _ _).filter _).trans (List.Perm.of_eq ?_)
  rw [List.filter_filter]
  refine List.filter_congr fun signal _ => ?_
  by_cases hentry : entryDay? run₁ rows₁ signal = some day
  · have hbefore := (entryDay?_eq_some.mp hentry).1.2.1
    simp [hentry, hbefore.trans_le hday]
  · simp [hentry]

theorem SameUpTo.range_mp (h : SameUpTo d run₁ run₂ generated₁ generated₂ rows₁ rows₂)
    (hmem : day ∈ calendar run₁ rows₁) (hday : day ≤ d) :
    run₂.startDate ≤ day ∧ day ≤ run₂.endDate :=
  calendar_range ((h.calendars day hday).mp hmem)

/-- The symbols that are signalled before `d`. -/
def earlySymbols (d : Date) (generated : List BacktestSignal) : List Symbol :=
  (generated.filter (·.signalDate < d)).map (·.symbol)

theorem earlySymbols_loaded {generated : List BacktestSignal} {symbol : Symbol}
    (h : symbol ∈ earlySymbols d generated) :
    symbol ∈ signalSymbols (generated.insertionSort BacktestSignal.le) := by
  obtain ⟨signal, hsignal, rfl⟩ := List.mem_map.mp h
  rw [mem_signalSymbols]
  exact ⟨signal, (List.mem_insertionSort _).mpr (List.mem_filter.mp hsignal).1, rfl⟩

theorem bar_mp (h₁ : executePortfolio run₁ generated₁ rows₁ ids₁ = .ok e₁)
    (h₂ : executePortfolio run₂ generated₂ rows₂ ids₂ = .ok e₂)
    (h : SameUpTo d run₁ run₂ generated₁ generated₂ rows₁ rows₂) {symbol : Symbol} {bar : DailyBar}
    (hsymbol : symbol ∈ earlySymbols d generated₂) (hmem : day ∈ calendar run₁ rows₁)
    (hday : day ≤ d) (hbar : (e₁.context.bars day).get? symbol = some bar) :
    (e₂.context.bars day).get? symbol = some bar := by
  obtain ⟨hrow, hkey, -, -⟩ := (execution_bar h₁).mp hbar
  exact (execution_bar h₂).mpr ⟨(h.bars bar (hkey.2.trans_le hday)).mp hrow, hkey,
    h.range_mp hmem hday, earlySymbols_loaded hsymbol⟩

/-- Up to `d` the two runs see the same sessions. -/
theorem same_session (h₁ : executePortfolio run₁ generated₁ rows₁ ids₁ = .ok e₁)
    (h₂ : executePortfolio run₂ generated₂ rows₂ ids₂ = .ok e₂)
    (h : SameUpTo d run₁ run₂ generated₁ generated₂ rows₁ rows₂)
    (hmem : day ∈ calendar run₁ rows₁) (hday : day ≤ d) :
    SameSession e₁.context e₂.context (earlySymbols d generated₁) day := by
  have hp₁ := (executePortfolio_ok h₁).parameters
  have hp₂ := (executePortfolio_ok h₂).parameters
  have hdates₁ := (executePortfolio_ok h₁).dates
  have hdates₂ := (executePortfolio_ok h₂).dates
  have hmem₂ : day ∈ calendar run₂ rows₂ := (h.calendars day hday).mp hmem
  constructor
  · rw [h.parameters, hp₂, Except.ok.injEq] at hp₁
    exact hp₁.symm
  · obtain ⟨later, hlater, hlt⟩ := h.later₁
    rw [← hdates₁] at hlater
    exact final_of_later (hdates₁ ▸ calendar_pairwise run₁ rows₁) hlater (hday.trans_lt hlt)
  · obtain ⟨later, hlater, hlt⟩ := h.later₂
    rw [← hdates₂] at hlater
    exact final_of_later (hdates₂ ▸ calendar_pairwise run₂ rows₂) hlater (hday.trans_lt hlt)
  · apply entries_of_perm
    refine (entries_perm h₁ hday).trans (((h.signals.filter _).trans (List.Perm.of_eq ?_)).trans
      (entries_perm h₂ hday).symm)
    refine List.filter_congr fun signal _ => ?_
    rw [decide_eq_decide]
    exact h.entryDay signal hday
  · intro signal hsignal
    obtain ⟨hgenerated, hentry⟩ := mem_entries h₁ hsignal
    have hbefore := (entryDay?_eq_some.mp hentry).1.2.1.trans_le hday
    exact List.mem_map_of_mem (List.mem_filter.mpr ⟨hgenerated, decide_eq_true hbefore⟩)
  · intro symbol hsymbol
    have hsymbol₂ : symbol ∈ earlySymbols d generated₂ :=
      (h.signals.map (·.symbol)).mem_iff.mp hsymbol
    apply Option.ext
    intro bar
    exact ⟨bar_mp h₁ h₂ h hsymbol₂ hmem hday, bar_mp h₂ h₁ h.symm hsymbol hmem₂ hday⟩

end Contexts

/-! ## What comes later changes nothing -/

/-- An ascending list is its part up to `d` and then its part after `d`. -/
theorem split_up_to {dates : List Date} (hsorted : dates.Pairwise (· < ·)) (d : Date) :
    dates = dates.filter (· ≤ d) ++ dates.filter (d < ·) := by
  induction dates with
  | nil => rfl
  | cons x rest ih =>
    obtain ⟨hx, hrest⟩ := List.pairwise_cons.mp hsorted
    by_cases hxd : x ≤ d
    · rw [List.filter_cons_of_pos (by simpa using hxd),
        List.filter_cons_of_neg (by simpa using hxd), List.cons_append, ← ih hrest]
    · have hlt := not_le.mp hxd
      have hnone : (x :: rest).filter (· ≤ d) = [] := by
        rw [List.filter_eq_nil_iff]
        intro y hy
        rcases List.mem_cons.mp hy with rfl | hy
        · simpa using hlt
        · simpa using hlt.trans (hx y hy)
      have hall : (x :: rest).filter (d < ·) = x :: rest := by
        rw [List.filter_eq_self]
        intro y hy
        rcases List.mem_cons.mp hy with rfl | hy
        · simpa using hlt
        · simpa using hlt.trans (hx y hy)
      rw [hnone, hall, List.nil_append]

/-- The output up to `d`. -/
def Ledger.upTo (ledger : Ledger) (d : Date) : List BacktestTrade × List PortfolioSnapshot :=
  (ledger.tradesUpTo d, ledger.snapshotsUpTo d)

theorem upTo_close (c : Context) (ledger : Ledger) (symbol : Symbol) (position : OpenPosition)
    (hday : d < day) (raw : ℚ) (reason : BacktestExitReason) :
    (closePosition c ledger symbol position day raw reason).upTo d = ledger.upTo d := by
  have hnot : ¬ day ≤ d := not_le.mpr hday
  simp [Ledger.upTo, Ledger.tradesUpTo, Ledger.snapshotsUpTo, closePosition_eq, hnot]

theorem runDay_upTo {c : Context} {ledger ledger' : Ledger} (hday : d < day)
    (h : runDay c ledger day = .ok ledger') : ledger'.upTo d = ledger.upTo d := by
  obtain ⟨exited, entered, liquidated, hexit, hentry, hliq, rfl⟩ := runDay_ok.mp h
  have hexited : exited.upTo d = ledger.upTo d := by
    refine foldlM_invariant (fun l : Ledger => l.upTo d = ledger.upTo d) ?_ hexit rfl
    intro symbol _ s t hs hst
    obtain ⟨position, -, ⟨-, rfl⟩ | ⟨bar, -, ⟨-, rfl⟩ | ⟨reason, raw, -, rfl⟩⟩⟩ := exitOne_cases hst
    · exact hs
    · exact hs
    · rw [upTo_close c _ symbol position.held hday raw reason]
      exact hs
  have hentered : entered.upTo d = exited.upTo d := by
    refine foldlM_invariant (fun l : Ledger => l.upTo d = exited.upTo d) ?_ hentry rfl
    intro signal _ s t hs hst
    obtain ⟨bar, -, ⟨reason, -, rfl⟩ | ⟨quantity, -, -, rfl⟩⟩ := enterOne_cases hst
    · exact hs
    · exact hs
  have hliquidated : liquidated.upTo d = entered.upTo d := by
    rw [liquidationPhase_eq] at hliq
    split_ifs at hliq
    · refine foldlM_invariant (fun l : Ledger => l.upTo d = entered.upTo d) ?_ hliq rfl
      intro symbol _ s t hs hst
      obtain ⟨position, -, ⟨-, rfl⟩ | ⟨-, bar, -, rfl⟩⟩ := liquidateOne_cases hst
      · exact hs
      · rw [upTo_close c s symbol position hday bar.close .endOfPeriod]
        exact hs
    · rw [Except.ok.injEq] at hliq
      rw [hliq]
  have hmark : (closeDay c day (c.bars day) liquidated).upTo d = liquidated.upTo d := by
    have hnot : ¬ day ≤ d := not_le.mpr hday
    simp [Ledger.upTo, Ledger.tradesUpTo, Ledger.snapshotsUpTo, closeDay_eq, hnot]
  rw [hmark, hliquidated, hentered, hexited]

theorem runDays_upTo {c : Context} {days : List Date} (hdays : ∀ x ∈ days, d < x)
    {ledger ledger' : Ledger} (h : days.foldlM (runDay c) ledger = .ok ledger') :
    ledger'.upTo d = ledger.upTo d := by
  refine foldlM_invariant (fun l : Ledger => l.upTo d = ledger.upTo d) ?_ h rfl
  intro x hx s t hs hst
  rw [runDay_upTo (hdays x hx) hst, hs]

/-- Calendars that agree up to `d` have the same days up to `d`. -/
theorem calendar_upTo {run₁ run₂ : RunRequest} {rows₁ rows₂ : List DailyBarRecord} {d : Date}
    (h : ∀ day ≤ d, day ∈ calendar run₁ rows₁ ↔ day ∈ calendar run₂ rows₂) :
    (calendar run₁ rows₁).filter (· ≤ d) = (calendar run₂ rows₂).filter (· ≤ d) := by
  have hsorted₁ := calendar_pairwise run₁ rows₁
  have hsorted₂ := calendar_pairwise run₂ rows₂
  refine List.Perm.eq_of_pairwise (fun a b _ _ hab hba => absurd hab hba.asymm)
    (hsorted₁.sublist List.filter_sublist) (hsorted₂.sublist List.filter_sublist) ?_
  refine (List.perm_ext_iff_of_nodup ?_ ?_).mpr fun day => ?_
  · exact (hsorted₁.imp fun hlt => hlt.ne).sublist List.filter_sublist
  · exact (hsorted₂.imp fun hlt => hlt.ne).sublist List.filter_sublist
  · simp only [List.mem_filter, decide_eq_true_eq]
    exact and_congr_left fun hday => h day hday

/-- **Prefix causality.** Two completed runs whose signals dated before `d`, bars up
to `d` and calendars up to `d` agree, and which both go on after `d`, have made the
same snapshots and the same trades up to `d`, apart from the generated ids. -/
theorem output_causal {run₁ run₂ : RunRequest} {generated₁ generated₂ : List BacktestSignal}
    {rows₁ rows₂ : List DailyBarRecord} {ids₁ ids₂ : Nat → UUID} {e₁ e₂ : PortfolioExecution}
    {d : Date} (h₁ : executePortfolio run₁ generated₁ rows₁ ids₁ = .ok e₁)
    (h₂ : executePortfolio run₂ generated₂ rows₂ ids₂ = .ok e₂)
    (h : SameUpTo d run₁ run₂ generated₁ generated₂ rows₁ rows₂) :
    e₁.ledger.snapshotsUpTo d = e₂.ledger.snapshotsUpTo d ∧
      e₁.ledger.tradesUpTo d = e₂.ledger.tradesUpTo d := by
  have hcompleted₁ := executePortfolio_ok h₁
  have hcompleted₂ := executePortfolio_ok h₂
  have hp : e₁.context.p = e₂.context.p := by
    have hparse := hcompleted₁.parameters
    rw [h.parameters, hcompleted₂.parameters, Except.ok.injEq] at hparse
    exact hparse.symm
  have hrun₁ := hcompleted₁.days
  have hrun₂ := hcompleted₂.days
  have hsorted₁ := calendar_pairwise run₁ rows₁
  have hsorted₂ := calendar_pairwise run₂ rows₂
  rw [hcompleted₁.dates, hcompleted₁.start, split_up_to hsorted₁ d, foldlM_append_ok] at hrun₁
  rw [hcompleted₂.dates, hcompleted₂.start, split_up_to hsorted₂ d, ← calendar_upTo h.calendars,
    foldlM_append_ok] at hrun₂
  obtain ⟨middle₁, hupto₁, hlater₁⟩ := hrun₁
  obtain ⟨middle₂, hupto₂, hlater₂⟩ := hrun₂
  have htwin : Twin d (earlySymbols d generated₁) middle₁ middle₂ := by
    refine foldlM_related (Twin d (earlySymbols d generated₁)) ?_ hupto₁ hupto₂ ?_
    · intro day hday s t s' t' hst hs ht
      obtain ⟨hmem, hle⟩ := List.mem_filter.mp hday
      exact runDay_twin (same_session h₁ h₂ h hmem (of_decide_eq_true hle)) hst hs ht
    · refine ⟨by rw [hp]; rfl, rfl, rfl, ?_⟩
      intro symbol hsymbol
      simp [Ledger.start] at hsymbol
  have hafter₁ : ∀ x ∈ (calendar run₁ rows₁).filter (d < ·), d < x := fun x hx =>
    of_decide_eq_true (List.mem_filter.mp hx).2
  have hafter₂ : ∀ x ∈ (calendar run₂ rows₂).filter (d < ·), d < x := fun x hx =>
    of_decide_eq_true (List.mem_filter.mp hx).2
  have hend₁ := runDays_upTo hafter₁ hlater₁
  have hend₂ := runDays_upTo hafter₂ hlater₂
  rw [Ledger.upTo, Ledger.upTo, Prod.mk.injEq] at hend₁ hend₂
  rw [hend₁.1, hend₁.2, hend₂.1, hend₂.2]
  exact ⟨htwin.snapshots, htwin.trades⟩

/-! ## A run with another third day -/

/-- `sampleBars` with another day 12, on which a further symbol trades. -/
def otherBars : List DailyBarRecord :=
  [⟨"A", 10, 100, 101, 99, 100, 5⟩, ⟨"A", 11, 100, 120, 96, 118, 5⟩, ⟨"B", 11, 50, 51, 49, 50, 5⟩,
   ⟨"B", 12, 70, 72, 69, 71, 5⟩, ⟨"D", 12, 20, 22, 19, 21, 5⟩]

def otherSignals : List BacktestSignal := [⟨"B", 10⟩, ⟨"D", 11⟩, ⟨"C", 10⟩, ⟨"A", 9⟩]

theorem sample_sameUpTo :
    SameUpTo 11 sampleRun sampleRun sampleSignals otherSignals sampleBars otherBars := by
  have hkeep : ∀ (rows : List DailyBarRecord) (bar : DailyBar), bar.tradingDate ≤ 11 →
      ((∃ row ∈ rows, DailyBar.ofRecord row = bar) ↔
        ∃ row ∈ rows.filter (·.tradingDate ≤ 11), DailyBar.ofRecord row = bar) := by
    intro rows bar hbar
    simp only [List.mem_filter, decide_eq_true_eq]
    constructor
    · intro ⟨row, hrow, heq⟩
      have hdate : row.tradingDate = bar.tradingDate := congrArg DailyBar.tradingDate heq
      exact ⟨row, ⟨hrow, hdate.trans_le hbar⟩, heq⟩
    · intro ⟨row, ⟨hrow, _⟩, heq⟩
      exact ⟨row, hrow, heq⟩
  have hfilter : sampleBars.filter (·.tradingDate ≤ 11) =
      otherBars.filter (·.tradingDate ≤ 11) := by
    decide +kernel
  refine ⟨rfl, by decide, ?_, by decide, ⟨12, by decide, by decide⟩, ⟨12, by decide, by decide⟩⟩
  intro bar hbar
  rw [hkeep sampleBars bar hbar, hkeep otherBars bar hbar, hfilter]

theorem output_causal_sample :
    ∃ e₁ e₂, executePortfolio sampleRun sampleSignals sampleBars id = .ok e₁ ∧
      executePortfolio sampleRun otherSignals otherBars id = .ok e₂ ∧
      (e₁.ledger.tradesUpTo 11).length = 1 ∧
      e₁.ledger.tradesUpTo 11 = e₂.ledger.tradesUpTo 11 := by
  have hrun₁ : (executePortfolio sampleRun sampleSignals sampleBars id).map
      (fun e => (e.ledger.tradesUpTo 11).length) = .ok 1 := by
    decide +kernel
  have hrun₂ : (executePortfolio sampleRun otherSignals otherBars id).toBool = true := by
    decide +kernel
  obtain ⟨e₁, h₁, hlength⟩ := map_ok.mp hrun₁
  obtain ⟨e₂, h₂⟩ := exists_ok hrun₂
  exact ⟨e₁, e₂, h₁, h₂, hlength, (output_causal h₁ h₂ sample_sameUpTo).2⟩

end Screener.Backtest
