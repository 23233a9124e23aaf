import Screener.Backtest.PortfolioSchedule
import Screener.Backtest.StayingPositions
import Mathlib.Data.List.TakeWhile

/-!
# What is bought at an open, and what may be known there

Two runs over tables that agree on everything known when a day opens are
followed side by side. They hold the same book when the day begins. The exits of
the day come first and may be decided by its low, its high or its close. The
entries are the same as long as the exits are, or as no signal of the day is sized
after them. What two steps do alike they do in any decimal context.
-/

namespace Screener.Backtest

open Screener.Lib
open Screener.Market (Date Symbol DailyBarRecord)
open DecimalContext (default)

/-- The tables agree on every bar before `d` and on who trades at which open on `d`. -/
structure SameAtOpen (d : Date) (rows₁ rows₂ : List DailyBarRecord) : Prop where
  before : ∀ bar : DailyBar, bar.tradingDate < d →
    ((∃ row ∈ rows₁, DailyBar.ofRecord row = bar) ↔ ∃ row ∈ rows₂, DailyBar.ofRecord row = bar)
  opens : ∀ symbol price,
    (∃ row ∈ rows₁, row.symbol = symbol ∧ row.tradingDate = d ∧ row.open = price) ↔
      ∃ row ∈ rows₂, row.symbol = symbol ∧ row.tradingDate = d ∧ row.open = price

/-- Symbol, entry price and quantity of a position entered on `d`. -/
def Event.entered? (d : Date) : Event → Option (Symbol × ℚ × Nat)
  | .opened day position _ _ =>
    if day = d then some (position.signal.symbol, position.entryPrice, position.quantity) else none
  | _ => none

def Ledger.enteredOn (ledger : Ledger) (d : Date) : List (Symbol × ℚ × Nat) :=
  ledger.journal.filterMap (Event.entered? d)

/-- What an execution holds when `d` begins. -/
def openingBook (k : DecimalContext) (x : PortfolioRun) (d : Date) :
    Except ExecutionError (Dict Symbol OpenPosition) :=
  ((x.context.dates.takeWhile (· < d)).foldlM (k.runDay x.context) x.start).map
    (·.state.positions)

/-- Every position of the book leaves `d` at the same price in both runs, or in neither. -/
def ExitsAlike (k : DecimalContext) (c₁ c₂ : Context) (d : Date)
    (book : Dict Symbol OpenPosition) : Prop :=
  ∀ symbol position, book.get? symbol = some position →
    exitPrice? k c₁ d symbol position = exitPrice? k c₂ d symbol position

/-- Every signal of `d`, if there is one, is turned away before the cash is looked at. -/
def NoneSized (k : DecimalContext) (c : Context) (d : Date) (book : Dict Symbol OpenPosition) :
    Prop :=
  ∀ signal ∈ c.entries d, TurnedAway k c d book signal

/-! ## Side by side -/

/-- Two ledgers that the entries of `d` cannot tell apart. -/
structure Alike (d : Date) (l₁ l₂ : Ledger) : Prop where
  state : l₁.state = l₂.state
  entered : l₁.enteredOn d = l₂.enteredOn d

/-- On `day` both runs look the same bars up and enter the same signals. -/
structure SameDay (c₁ c₂ : Context) (day : Date) : Prop where
  p : c₁.p = c₂.p
  final : c₁.final day = c₂.final day
  entries : c₁.entries day = c₂.entries day
  bars : ∀ symbol, (c₁.bars day).get? symbol = (c₂.bars day).get? symbol

variable {k : DecimalContext} {c₁ c₂ : Context} {d day : Date} {l₁ l₂ t₁ t₂ : Ledger}

theorem enteredOn_sold (c : Context) (ledger : Ledger) (symbol : Symbol) (position : OpenPosition)
    (day : Date) (raw : ℚ) (reason : BacktestExitReason) (d : Date) :
    (k.soldLedger c ledger symbol position day raw reason).enteredOn d = ledger.enteredOn d := by
  simp [DecimalContext.soldLedger, Ledger.enteredOn, Event.entered?]

theorem enteredOn_open (c : Context) (ledger : Ledger) (signal : BacktestSignal) (day : Date)
    (bar : DailyBar) (quantity : Nat) (d : Date) :
    (k.openPosition c ledger signal day bar quantity).enteredOn d = ledger.enteredOn d ++
      if day = d then [(signal.symbol, k.effectivePrice c bar, quantity)] else [] := by
  simp only [DecimalContext.openPosition, Ledger.enteredOn, List.filterMap_append]
  by_cases hday : day = d <;> simp [Event.entered?, hday]

theorem enteredOn_mark (c : Context) (day : Date) (bars : Dict Symbol DailyBar) (ledger : Ledger)
    (d : Date) : (k.closedLedger c day bars ledger).enteredOn d = ledger.enteredOn d := by
  simp [DecimalContext.closedLedger, Ledger.enteredOn, Event.entered?]

theorem Alike.hold (h : Alike d l₁ l₂) (symbol : Symbol) (position : OpenPosition) :
    Alike d (holdPosition l₁ symbol position) (holdPosition l₂ symbol position) := by
  refine ⟨?_, h.entered⟩
  simp only [holdPosition, h.state]

/-- The reason of a sale is recorded and changes nothing else. -/
theorem Alike.close (h : Alike d l₁ l₂) (hp : c₁.p = c₂.p) (symbol : Symbol)
    (position : OpenPosition) (day : Date) (raw : ℚ) (reason₁ reason₂ : BacktestExitReason) :
    Alike d (k.soldLedger c₁ l₁ symbol position day raw reason₁)
      (k.soldLedger c₂ l₂ symbol position day raw reason₂) := by
  constructor
  · simp only [DecimalContext.soldLedger, DecimalContext.proceeds, DecimalContext.saleAmounts,
      DecimalContext.sellNotional, DecimalContext.sellCommission, DecimalContext.sellTax, h.state,
      hp]
  · rw [enteredOn_sold, enteredOn_sold, h.entered]

theorem Alike.enter (h : Alike d l₁ l₂) (hp : c₁.p = c₂.p) (signal : BacktestSignal) (day : Date)
    {bar₁ bar₂ : DailyBar} (hopen : bar₁.open = bar₂.open) (quantity : Nat) :
    Alike d (k.openPosition c₁ l₁ signal day bar₁ quantity)
      (k.openPosition c₂ l₂ signal day bar₂ quantity) := by
  have heffective : k.effectivePrice c₁ bar₁ = k.effectivePrice c₂ bar₂ := by
    simp only [DecimalContext.effectivePrice, hopen, hp]
  constructor
  · simp only [DecimalContext.openPosition, DecimalContext.requiredCash,
      DecimalContext.buyCommission, heffective, h.state, hp, hopen]
  · rw [enteredOn_open, enteredOn_open, h.entered, heffective]

theorem exitBar_congr {bars₁ bars₂ : Dict Symbol DailyBar} {symbol : Symbol}
    (h : bars₁.get? symbol = bars₂.get? symbol) (final : Bool) (day : Date)
    (position : OpenPosition) :
    exitBar bars₁ final day symbol position = exitBar bars₂ final day symbol position := by
  simp only [exitBar, h]

theorem exitPrice_congr (h : SameDay c₁ c₂ day) (symbol : Symbol) (position : OpenPosition) :
    exitPrice? k c₁ day symbol position = exitPrice? k c₂ day symbol position := by
  simp only [exitPrice?, exitBar_congr (h.bars symbol), h.final, h.p]

/-- What one exit does to the state depends on its price alone. -/
theorem exitOne_alike {symbol : Symbol} (hp : c₁.p = c₂.p)
    (hbar : ∀ position, l₁.state.positions.get? symbol = some position →
      (exitBar (c₁.bars day) (c₁.final day) day symbol position = none ↔
        exitBar (c₂.bars day) (c₂.final day) day symbol position = none))
    (hprice : ∀ position, l₁.state.positions.get? symbol = some position →
      exitPrice? k c₁ day symbol position = exitPrice? k c₂ day symbol position)
    (h : Alike d l₁ l₂) (h₁ : k.exitOne c₁ day (c₁.bars day) (c₁.final day) l₁ symbol = .ok t₁)
    (h₂ : k.exitOne c₂ day (c₂.bars day) (c₂.final day) l₂ symbol = .ok t₂) : Alike d t₁ t₂ := by
  obtain ⟨position, hget, hcase₁⟩ := DecimalContext.exitOne_cases h₁
  obtain ⟨position₂, hget₂, hcase₂⟩ := DecimalContext.exitOne_cases h₂
  rw [← h.state, hget, Option.some.injEq] at hget₂
  subst hget₂
  have hnone := hbar position hget
  have heq := hprice position hget
  simp only [exitPrice?] at heq
  rcases hcase₁ with ⟨hb₁, rfl⟩ | ⟨bar₁, hb₁, hcase₁⟩
  · rcases hcase₂ with ⟨-, rfl⟩ | ⟨bar₂, hb₂, -⟩
    · exact h
    · rw [hnone.mp hb₁] at hb₂
      simp at hb₂
  · rcases hcase₂ with ⟨hb₂, rfl⟩ | ⟨bar₂, hb₂, hcase₂⟩
    · rw [hnone.mpr hb₂] at hb₁
      simp at hb₁
    · simp only [hb₁, hb₂, Option.bind_some] at heq
      rcases hcase₁ with ⟨ht₁, rfl⟩ | ⟨reason₁, raw₁, ht₁, -, rfl⟩ <;>
        rcases hcase₂ with ⟨ht₂, rfl⟩ | ⟨reason₂, raw₂, ht₂, -, rfl⟩ <;>
        simp only [ht₁, ht₂, Option.map_none, Option.map_some, Option.some.injEq,
          reduceCtorEq] at heq
      · exact h.hold symbol position
      · rw [heq]
        exact (h.hold symbol position).close hp symbol position.held day raw₂ reason₁ reason₂

theorem sizeEntry_congr (hp : c₁.p = c₂.p) (state : PortfolioState) (symbol : Symbol)
    (effective : ℚ) : k.sizeEntry c₁ state symbol effective =
      k.sizeEntry c₂ state symbol effective := by
  simp only [DecimalContext.sizeEntry, slotSkip, hp]

/-- An entry looks at the open of its bar and at nothing else of the day. -/
theorem enterOne_alike {signal : BacktestSignal} (hp : c₁.p = c₂.p)
    (hopen : ∀ bar₁ bar₂, (c₁.bars day).get? signal.symbol = some bar₁ →
      (c₂.bars day).get? signal.symbol = some bar₂ → bar₁.open = bar₂.open)
    (h : Alike d l₁ l₂) (h₁ : k.enterOne c₁ day (c₁.bars day) l₁ signal = .ok t₁)
    (h₂ : k.enterOne c₂ day (c₂.bars day) l₂ signal = .ok t₂) : Alike d t₁ t₂ := by
  obtain ⟨bar₁, hbar₁, -⟩ := DecimalContext.enterOne_cases h₁
  obtain ⟨bar₂, hbar₂, -⟩ := DecimalContext.enterOne_cases h₂
  have hbars := hopen bar₁ bar₂ hbar₁ hbar₂
  have heffective : k.effectivePrice c₁ bar₁ = k.effectivePrice c₂ bar₂ := by
    simp only [DecimalContext.effectivePrice, hbars, hp]
  have hrequired : ∀ quantity, k.requiredCash c₁ (k.effectivePrice c₁ bar₁) quantity =
      k.requiredCash c₂ (k.effectivePrice c₂ bar₂) quantity := by
    intro quantity
    simp only [DecimalContext.requiredCash, DecimalContext.buyCommission, heffective, hp]
  simp only [DecimalContext.enterOne, hbar₁, hbar₂] at h₁ h₂
  rw [sizeEntry_congr hp, heffective, h.state] at h₁
  rcases hsize : k.sizeEntry c₂ l₂.state signal.symbol (k.effectivePrice c₂ bar₂) with
    ⟨quantity, _ | reason⟩
  · simp only [hsize] at h₁ h₂
    rw [← heffective, hrequired quantity] at h₁
    split at h₁
    · rename_i hcash
      rw [if_pos hcash] at h₂
      simp only [Except.ok.injEq] at h₁ h₂
      rw [← h₁, ← h₂]
      exact ⟨h.state, h.entered⟩
    · rename_i hcash
      rw [if_neg hcash] at h₂
      simp only [Except.ok.injEq] at h₁ h₂
      rw [← h₁, ← h₂]
      exact h.enter hp signal day hbars quantity
  · simp only [hsize, Except.ok.injEq] at h₁ h₂
    rw [← h₁, ← h₂]
    exact ⟨h.state, h.entered⟩

theorem liquidateOne_alike {symbol : Symbol} (hp : c₁.p = c₂.p)
    (hbar : (c₁.bars day).get? symbol = (c₂.bars day).get? symbol)
    (h : Alike d l₁ l₂) (h₁ : k.liquidateOne c₁ day (c₁.bars day) l₁ symbol = .ok t₁)
    (h₂ : k.liquidateOne c₂ day (c₂.bars day) l₂ symbol = .ok t₂) : Alike d t₁ t₂ := by
  obtain ⟨position, hget, hcase₁⟩ := DecimalContext.liquidateOne_cases h₁
  obtain ⟨position₂, hget₂, hcase₂⟩ := DecimalContext.liquidateOne_cases h₂
  rw [← h.state, hget, Option.some.injEq] at hget₂
  subst hget₂
  rcases hcase₁ with ⟨hne, rfl⟩ | ⟨heq, bar₁, hbar₁, -, rfl⟩ <;>
    rcases hcase₂ with ⟨hne₂, rfl⟩ | ⟨heq₂, bar₂, hbar₂, -, rfl⟩
  · exact h
  · exact absurd heq₂ hne
  · exact absurd heq hne₂
  · rw [hbar, hbar₂, Option.some.injEq] at hbar₁
    rw [hbar₁]
    exact h.close hp symbol position day bar₁.close .endOfPeriod .endOfPeriod

theorem Alike.mark (h : Alike d l₁ l₂)
    (hbars : ∀ symbol, (c₁.bars day).get? symbol = (c₂.bars day).get? symbol) :
    Alike d (k.closedLedger c₁ day (c₁.bars day) l₁)
      (k.closedLedger c₂ day (c₂.bars day) l₂) := by
  have hmark : markPosition (c₁.bars day) = markPosition (c₂.bars day) := by
    funext symbol position
    simp only [markPosition, hbars symbol]
  constructor
  · simp only [DecimalContext.closedLedger, DecimalContext.closedState, h.state, hmark]
  · rw [enteredOn_mark, enteredOn_mark, h.entered]

/-! ## Whole days -/

/-- The exits of a day end alike when each has the same price in both runs. -/
theorem exitPhase_alike (hp : c₁.p = c₂.p)
    (hbar : ∀ symbol position, l₁.state.positions.get? symbol = some position →
      (exitBar (c₁.bars day) (c₁.final day) day symbol position = none ↔
        exitBar (c₂.bars day) (c₂.final day) day symbol position = none))
    (hprice : ∀ symbol position, l₁.state.positions.get? symbol = some position →
      exitPrice? k c₁ day symbol position = exitPrice? k c₂ day symbol position)
    (h : Alike d l₁ l₂) (h₁ : k.exitPhase c₁ l₁ day = .ok t₁)
    (h₂ : k.exitPhase c₂ l₂ day = .ok t₂) : Alike d t₁ t₂ := by
  have hsymbols : l₂.state.symbols = l₁.state.symbols := by rw [h.state]
  have hnodup : l₁.state.symbols.Nodup :=
    (List.perm_insertionSort _ _).nodup_iff.mpr (Dict.keys_nodup _)
  unfold DecimalContext.exitPhase at h₁ h₂
  rw [hsymbols] at h₂
  -- A symbol that is still to come holds the position it held when the day began.
  refine (foldlM_prefix_related (fun pre s t => Alike d s t ∧ ∀ symbol, symbol ∉ pre →
    s.state.positions.get? symbol = l₁.state.positions.get? symbol) _ ?_ h₁ h₂
    ⟨h, fun _ _ => rfl⟩).1
  rintro pre symbol post s t s' t' hsplit ⟨halike, hrest⟩ hs ht
  have hnew : symbol ∉ pre := by
    rw [hsplit] at hnodup
    intro hmem
    exact (List.nodup_append.mp hnodup).2.2 symbol hmem symbol List.mem_cons_self rfl
  constructor
  · refine exitOne_alike hp (fun position hget => ?_) (fun position hget => ?_) halike hs ht
    · exact hbar symbol position (hrest symbol hnew ▸ hget)
    · exact hprice symbol position (hrest symbol hnew ▸ hget)
  · intro other hother
    simp only [List.mem_append, List.mem_singleton, not_or] at hother
    rw [← hrest other hother.1]
    obtain ⟨position, -, ⟨-, rfl⟩ | ⟨bar, -, ⟨-, rfl⟩ | ⟨reason, raw, -, -, rfl⟩⟩⟩ :=
      DecimalContext.exitOne_cases hs
    · rfl
    · simp [holdPosition, Dict.get?_set, hother.2]
    · simp [DecimalContext.soldLedger, holdPosition, Dict.get?_erase, Dict.get?_set, hother.2]

theorem entryPhase_alike (hp : c₁.p = c₂.p) (hentries : c₁.entries day = c₂.entries day)
    (hopen : ∀ symbol bar₁ bar₂, (c₁.bars day).get? symbol = some bar₁ →
      (c₂.bars day).get? symbol = some bar₂ → bar₁.open = bar₂.open)
    (h : Alike d l₁ l₂) (h₁ : k.entryPhase c₁ l₁ day = .ok t₁)
    (h₂ : k.entryPhase c₂ l₂ day = .ok t₂) : Alike d t₁ t₂ := by
  unfold DecimalContext.entryPhase at h₁ h₂
  rw [← hentries] at h₂
  refine foldlM_related (Alike d) ?_ h₁ h₂ h
  intro signal _ s t s' t' halike hs ht
  exact enterOne_alike hp (hopen signal.symbol) halike hs ht

theorem liquidationPhase_alike (h : SameDay c₁ c₂ day) (halike : Alike d l₁ l₂)
    (h₁ : k.liquidationPhase c₁ l₁ day = .ok t₁) (h₂ : k.liquidationPhase c₂ l₂ day = .ok t₂) :
    Alike d t₁ t₂ := by
  unfold DecimalContext.liquidationPhase at h₁ h₂
  rw [← h.final, ← halike.state] at h₂
  split at h₁
  · rename_i hfinal
    rw [if_pos hfinal] at h₂
    refine foldlM_related (Alike d) ?_ h₁ h₂ halike
    intro symbol _ s t s' t' hst hs ht
    exact liquidateOne_alike h.p (h.bars symbol) hst hs ht
  · rename_i hfinal
    rw [if_neg hfinal] at h₂
    simp only [Except.ok.injEq] at h₁ h₂
    rw [← h₁, ← h₂]
    exact halike

/-- A day on which both runs look the same up ends alike. -/
theorem runDay_alike (h : SameDay c₁ c₂ day) (halike : Alike d l₁ l₂)
    (h₁ : k.runDay c₁ l₁ day = .ok t₁) (h₂ : k.runDay c₂ l₂ day = .ok t₂) : Alike d t₁ t₂ := by
  obtain ⟨exited₁, entered₁, liquidated₁, hexit₁, hentry₁, hliq₁, hclose₁⟩ :=
    DecimalContext.runDay_ok.mp h₁
  obtain ⟨exited₂, entered₂, liquidated₂, hexit₂, hentry₂, hliq₂, hclose₂⟩ :=
    DecimalContext.runDay_ok.mp h₂
  obtain ⟨-, rfl⟩ := DecimalContext.closeDay_ok.mp hclose₁
  obtain ⟨-, rfl⟩ := DecimalContext.closeDay_ok.mp hclose₂
  have hbar : ∀ symbol position, l₁.state.positions.get? symbol = some position →
      (exitBar (c₁.bars day) (c₁.final day) day symbol position = none ↔
        exitBar (c₂.bars day) (c₂.final day) day symbol position = none) := by
    intro symbol position _
    rw [exitBar_congr (h.bars symbol), h.final]
  have hexit := exitPhase_alike h.p hbar
    (fun symbol position _ => exitPrice_congr h symbol position)
    halike hexit₁ hexit₂
  have hopen : ∀ symbol bar₁ bar₂, (c₁.bars day).get? symbol = some bar₁ →
      (c₂.bars day).get? symbol = some bar₂ → bar₁.open = bar₂.open := by
    intro symbol bar₁ bar₂ hb₁ hb₂
    rw [h.bars symbol, hb₂, Option.some.injEq] at hb₁
    rw [hb₁]
  have hentry := entryPhase_alike h.p h.entries hopen hexit hentry₁ hentry₂
  exact (liquidationPhase_alike h hentry hliq₁ hliq₂).mark h.bars

theorem liquidationPhase_enteredOn {c : Context} {ledger ledger' : Ledger}
    (h : k.liquidationPhase c ledger day = .ok ledger') (d : Date) :
    ledger'.enteredOn d = ledger.enteredOn d := by
  unfold DecimalContext.liquidationPhase at h
  split at h
  · refine foldlM_invariant (fun l : Ledger => l.enteredOn d = ledger.enteredOn d) ?_ h rfl
    intro symbol _ s t hs hst
    obtain ⟨position, -, ⟨-, rfl⟩ | ⟨-, bar, -, -, rfl⟩⟩ := DecimalContext.liquidateOne_cases hst
    · exact hs
    · rw [enteredOn_sold, hs]
  · simp only [Except.ok.injEq] at h
    rw [h]

theorem exitPhase_enteredOn {c : Context} {ledger ledger' : Ledger}
    (h : k.exitPhase c ledger day = .ok ledger') (d : Date) :
    ledger'.enteredOn d = ledger.enteredOn d := by
  refine foldlM_invariant (fun l : Ledger => l.enteredOn d = ledger.enteredOn d) ?_ h rfl
  intro symbol _ s t hs hst
  obtain ⟨position, -, ⟨-, rfl⟩ | ⟨bar, -, ⟨-, rfl⟩ | ⟨reason, raw, -, -, rfl⟩⟩⟩ :=
    DecimalContext.exitOne_cases hst
  · exact hs
  · exact hs
  · rw [enteredOn_sold]
    exact hs

/-- No other day adds to what was entered on `d`. -/
theorem runDay_enteredOn {c : Context} {ledger ledger' : Ledger} (hne : day ≠ d)
    (h : k.runDay c ledger day = .ok ledger') : ledger'.enteredOn d = ledger.enteredOn d := by
  obtain ⟨exited, entered, liquidated, hexit, hentry, hliq, hclose⟩ :=
    DecimalContext.runDay_ok.mp h
  obtain ⟨-, rfl⟩ := DecimalContext.closeDay_ok.mp hclose
  have hentered : entered.enteredOn d = exited.enteredOn d := by
    refine foldlM_invariant (fun l : Ledger => l.enteredOn d = exited.enteredOn d) ?_ hentry rfl
    intro signal _ s t hs hst
    obtain ⟨bar, -, ⟨reason, -, rfl⟩ | ⟨quantity, -, -, rfl⟩⟩ :=
      DecimalContext.enterOne_cases hst
    · exact hs
    · rw [enteredOn_open, if_neg hne, List.append_nil, hs]
  rw [enteredOn_mark, liquidationPhase_enteredOn hliq, hentered, exitPhase_enteredOn hexit]

/-! ## From the tables to the two contexts -/

section Tables

variable {run : RunRequest} {generated : List BacktestSignal} {rows₁ rows₂ : List DailyBarRecord}
  {x₁ x₂ : PortfolioRun}

theorem SameAtOpen.symm (h : SameAtOpen d rows₁ rows₂) : SameAtOpen d rows₂ rows₁ :=
  ⟨fun bar hbar => (h.before bar hbar).symm, fun symbol price => (h.opens symbol price).symm⟩

theorem SameAtOpen.hasBar_mp (h : SameAtOpen d rows₁ rows₂) {symbol : Symbol} (hday : day ≤ d)
    (hbar : HasBar rows₁ symbol day) : HasBar rows₂ symbol day := by
  obtain ⟨row, hrow, hsymbol, hdate⟩ := hbar
  rcases hday.lt_or_eq with hlt | rfl
  · have hrowdate : (DailyBar.ofRecord row).tradingDate < d := hdate.trans_lt hlt
    obtain ⟨other, hother, heq⟩ := (h.before _ hrowdate).mp ⟨row, hrow, rfl⟩
    exact ⟨other, hother, (congrArg DailyBar.symbol heq).trans hsymbol,
      (congrArg DailyBar.tradingDate heq).trans hdate⟩
  · obtain ⟨other, hother, hs, hd, -⟩ := (h.opens symbol row.open).mp
      ⟨row, hrow, hsymbol, hdate, rfl⟩
    exact ⟨other, hother, hs, hd⟩

theorem SameAtOpen.hasBar (h : SameAtOpen d rows₁ rows₂) (symbol : Symbol) (hday : day ≤ d) :
    HasBar rows₁ symbol day ↔ HasBar rows₂ symbol day :=
  ⟨h.hasBar_mp hday, h.symm.hasBar_mp hday⟩

/-- A least element up to `d` is one of any set that agrees up to `d`. -/
theorem isLeast_of_agree {s t : Set Date} (h : ∀ x ≤ d, x ∈ s ↔ x ∈ t) (hday : day ≤ d)
    (hleast : IsLeast s day) : IsLeast t day := by
  refine ⟨(h day hday).mp hleast.1, fun x hx => ?_⟩
  rcases le_total x d with hxd | hxd
  · exact hleast.2 ((h x hxd).mpr hx)
  · exact hday.trans hxd

/-- Entry days up to `d` do not depend on later bars. -/
theorem SameAtOpen.entryDay (h : SameAtOpen d rows₁ rows₂)
    (hcal : calendar run rows₁ = calendar run rows₂) (signal : BacktestSignal) (hday : day ≤ d) :
    entryDay? run rows₁ signal = some day ↔ entryDay? run rows₂ signal = some day := by
  have hagree : ∀ x ≤ d,
      (x ∈ {x | x ∈ calendar run rows₁ ∧ signal.signalDate < x ∧ HasBar rows₁ signal.symbol x} ↔
        x ∈ {x | x ∈ calendar run rows₂ ∧ signal.signalDate < x ∧
          HasBar rows₂ signal.symbol x}) := by
    intro x hx
    simp only [Set.mem_ofPred_eq, hcal, h.hasBar signal.symbol hx]
  rw [entryDay?_eq_some, entryDay?_eq_some]
  exact ⟨isLeast_of_agree hagree hday, isLeast_of_agree (fun x hx => (hagree x hx).symm) hday⟩

section Contexts

variable (h₁ : k.Completed run generated rows₁ x₁) (h₂ : k.Completed run generated rows₂ x₂)
  (hcal : calendar run rows₁ = calendar run rows₂) (hsame : SameAtOpen d rows₁ rows₂)
include h₁ h₂

theorem same_p : x₁.context.p = x₂.context.p := by
  have hp := h₁.parameters
  rw [h₂.parameters, Except.ok.injEq] at hp
  exact hp.symm

include hcal in
theorem same_dates : x₁.context.dates = x₂.context.dates := by
  rw [h₁.dates, h₂.dates, hcal]

include hsame

theorem same_open (symbol : Symbol) (bar₁ bar₂ : DailyBar)
    (hb₁ : (x₁.context.bars d).get? symbol = some bar₁)
    (hb₂ : (x₂.context.bars d).get? symbol = some bar₂) : bar₁.open = bar₂.open := by
  obtain ⟨⟨row, hrow, rfl⟩, ⟨hsymbol, hdate⟩, hrange, hsymbols⟩ := h₁.bar.mp hb₁
  obtain ⟨other, hother, hs, hd, hprice⟩ := (hsame.opens symbol row.open).mp
    ⟨row, hrow, hsymbol, hdate, rfl⟩
  have hlook := h₂.bar.mpr ⟨⟨other, hother, rfl⟩, ⟨hs, hd⟩, hrange, hsymbols⟩
  rw [hb₂, Option.some.injEq] at hlook
  rw [hlook]
  exact hprice.symm

theorem absent_mp {symbol : Symbol} (hnone : (x₁.context.bars d).get? symbol = none) :
    (x₂.context.bars d).get? symbol = none := by
  rw [Option.eq_none_iff_forall_ne_some] at hnone ⊢
  intro bar hbar
  obtain ⟨⟨row, hrow, rfl⟩, ⟨hsymbol, hdate⟩, hrange, hsymbols⟩ := h₂.bar.mp hbar
  obtain ⟨other, hother, hs, hd, -⟩ := (hsame.opens symbol row.open).mpr
    ⟨row, hrow, hsymbol, hdate, rfl⟩
  exact hnone _ (h₁.bar.mpr ⟨⟨other, hother, rfl⟩, ⟨hs, hd⟩, hrange, hsymbols⟩)

include hcal

theorem same_entries (hday : day ≤ d) : x₁.context.entries day = x₂.context.entries day := by
  rw [Context.entries, Context.entries, h₁.entries day, h₂.entries day]
  congr 1
  apply List.filter_congr
  intro signal _
  rw [decide_eq_decide]
  exact hsame.entryDay hcal signal hday

/-- Before `d` the two runs see the same days. -/
theorem same_before (hday : day < d) : SameDay x₁.context x₂.context day where
  p := same_p h₁ h₂
  final := by rw [Context.final, Context.final, same_dates h₁ h₂ hcal]
  entries := same_entries h₁ h₂ hcal hsame hday.le
  bars symbol := by
    apply Option.ext
    intro bar
    rw [h₁.bar, h₂.bar]
    constructor
    · rintro ⟨hrow, hkey, hrange, hsymbols⟩
      exact ⟨(hsame.before bar (hkey.2 ▸ hday)).mp hrow, hkey, hrange, hsymbols⟩
    · rintro ⟨hrow, hkey, hrange, hsymbols⟩
      exact ⟨(hsame.before bar (hkey.2 ▸ hday)).mpr hrow, hkey, hrange, hsymbols⟩

theorem same_exitBar (symbol : Symbol) (position : OpenPosition) :
    exitBar (x₁.context.bars d) (x₁.context.final d) d symbol position = none ↔
      exitBar (x₂.context.bars d) (x₂.context.final d) d symbol position = none := by
  have hfinal : x₁.context.final d = x₂.context.final d := by
    rw [Context.final, Context.final, same_dates h₁ h₂ hcal]
  unfold exitBar
  rw [hfinal]
  cases hb₁ : (x₁.context.bars d).get? symbol with
  | none => rw [absent_mp h₁ h₂ hsame hb₁]
  | some bar₁ =>
    cases hb₂ : (x₂.context.bars d).get? symbol with
    | none => simp [absent_mp h₂ h₁ hsame.symm hb₂] at hb₁
    | some bar₂ => simp

/-- The two runs open `d` with the same state. -/
theorem same_opening {start₁ start₂ before₁ before₂ : Ledger} (hstart : Alike d start₁ start₂)
    {days : List Date} (hdays : ∀ x ∈ days, x < d)
    (hrun₁ : days.foldlM (k.runDay x₁.context) start₁ = .ok before₁)
    (hrun₂ : days.foldlM (k.runDay x₂.context) start₂ = .ok before₂) : Alike d before₁ before₂ := by
  refine foldlM_related (Alike d) ?_ hrun₁ hrun₂ hstart
  intro x hx s t s' t' halike hs ht
  exact runDay_alike (same_before h₁ h₂ hcal hsame (hdays x hx)) halike hs ht

end Contexts

end Tables

theorem runDays_enteredOn {c : Context} {days : List Date} (hdays : ∀ x ∈ days, x ≠ d)
    {ledger ledger' : Ledger} (h : days.foldlM (k.runDay c) ledger = .ok ledger') :
    ledger'.enteredOn d = ledger.enteredOn d := by
  refine foldlM_invariant (fun l : Ledger => l.enteredOn d = ledger.enteredOn d) ?_ h rfl
  intro x hx s t hs hst
  rw [runDay_enteredOn (hdays x hx) hst, hs]

/-- An ascending list splits at a member into what lies below, itself and what lies above. -/
theorem split_at_day {dates : List Date} (hsorted : dates.Pairwise (· < ·)) (hmem : d ∈ dates) :
    ∃ later, dates = dates.takeWhile (· < d) ++ d :: later ∧ ∀ x ∈ later, d < x := by
  obtain ⟨pre, post, rfl⟩ := List.append_of_mem hmem
  have hparts := List.pairwise_append.mp hsorted
  have htake : (pre ++ d :: post).takeWhile (· < d) = pre := by
    have hbelow : ∀ x ∈ pre, decide (x < d) = true := fun x hx => by
      simpa using hparts.2.2 x hx d List.mem_cons_self
    rw [List.takeWhile_append_of_pos hbelow]
    simp
  refine ⟨post, by rw [htake], fun x hx => ?_⟩
  exact List.rel_of_pairwise_cons hparts.2.1 hx

/-- Where no signal of `d` is sized, the day enters nothing. -/
theorem unsized_enteredOn {c : Context} {before exited entered : Ledger}
    (hsized : NoneSized k c d before.state.positions)
    (hexit : k.exitPhase c before d = .ok exited)
    (hentry : k.entryPhase c exited d = .ok entered) :
    entered.enteredOn d = before.enteredOn d := by
  have hjournal := entryPhase_turnedAway (exitPhase_keys hexit) hsized hentry
  rw [← exitPhase_enteredOn hexit d, Ledger.enteredOn, Ledger.enteredOn, hjournal]

/-- **Entries as good as the exits before them.** Two completed runs over tables
that agree on all that is known at the open of `d` enter the same positions on
`d`, if every position held when `d` begins leaves at the same price in both, or
in neither, or if no signal of `d` is sized in either. -/
theorem entries_same_of_exits {run : RunRequest} {generated : List BacktestSignal}
    {rows₁ rows₂ : List DailyBarRecord} {ids₁ ids₂ : Nat → UUID} {x₁ x₂ : PortfolioRun}
    {d : Date} (h₁ : default.executePortfolio run generated rows₁ ids₁ = .ok x₁)
    (h₂ : default.executePortfolio run generated rows₂ ids₂ = .ok x₂)
    (hcal : calendar run rows₁ = calendar run rows₂) (hday : d ∈ calendar run rows₁)
    (hsame : SameAtOpen d rows₁ rows₂)
    (hopens : ∀ book, openingBook default x₁ d = .ok book →
      ExitsAlike default x₁.context x₂.context d book ∨
        (NoneSized default x₁.context d book ∧ NoneSized default x₂.context d book)) :
    x₁.ledger.enteredOn d = x₂.ledger.enteredOn d := by
  have hcompleted₁ := DecimalContext.executePortfolio_ok h₁
  have hcompleted₂ := DecimalContext.executePortfolio_ok h₂
  have hp := same_p hcompleted₁ hcompleted₂
  have hdates := same_dates hcompleted₁ hcompleted₂ hcal
  have hrun₁ := hcompleted₁.days
  have hrun₂ := hcompleted₂.days
  rw [← hdates] at hrun₂
  have hsorted := calendar_pairwise run rows₁
  rw [← hcompleted₁.dates] at hsorted hday
  obtain ⟨later, hsplit, hlater⟩ := split_at_day hsorted hday
  rw [hsplit, foldlM_append_ok] at hrun₁ hrun₂
  obtain ⟨before₁, hbefore₁, hrun₁⟩ := hrun₁
  obtain ⟨before₂, hbefore₂, hrun₂⟩ := hrun₂
  obtain ⟨after₁, hd₁, hrun₁⟩ := foldlM_cons_ok.mp hrun₁
  obtain ⟨after₂, hd₂, hrun₂⟩ := foldlM_cons_ok.mp hrun₂
  have hstart : Alike d x₁.start x₂.start := by
    rw [hcompleted₁.start, hcompleted₂.start, hp]
    exact ⟨rfl, rfl⟩
  have hbelow : ∀ x ∈ x₁.context.dates.takeWhile (· < d), x < d := fun x hx => by
    simpa using List.mem_takeWhile_imp hx
  have hopening := same_opening hcompleted₁ hcompleted₂ hcal hsame hstart hbelow hbefore₁ hbefore₂
  obtain ⟨exited₁, entered₁, liquidated₁, hexit₁, hentry₁, hliq₁, hclose₁⟩ :=
    DecimalContext.runDay_ok.mp hd₁
  obtain ⟨exited₂, entered₂, liquidated₂, hexit₂, hentry₂, hliq₂, hclose₂⟩ :=
    DecimalContext.runDay_ok.mp hd₂
  obtain ⟨-, rfl⟩ := DecimalContext.closeDay_ok.mp hclose₁
  obtain ⟨-, rfl⟩ := DecimalContext.closeDay_ok.mp hclose₂
  have hbook : openingBook default x₁ d = .ok before₁.state.positions := by
    rw [openingBook]
    exact map_ok.mpr ⟨before₁, hbefore₁, rfl⟩
  have hentered : entered₁.enteredOn d = entered₂.enteredOn d := by
    rcases hopens _ hbook with hexits | ⟨hsized₁, hsized₂⟩
    · have hbars := same_exitBar hcompleted₁ hcompleted₂ hcal hsame
      have hexit := exitPhase_alike hp (fun symbol position _ => hbars symbol position) hexits
        hopening hexit₁ hexit₂
      exact (entryPhase_alike hp (same_entries hcompleted₁ hcompleted₂ hcal hsame le_rfl)
        (same_open hcompleted₁ hcompleted₂ hsame) hexit hentry₁ hentry₂).entered
    · rw [hopening.state] at hsized₂
      rw [unsized_enteredOn hsized₁ hexit₁ hentry₁, unsized_enteredOn hsized₂ hexit₂ hentry₂,
        hopening.entered]
  have hlast : ∀ x ∈ later, x ≠ d := fun x hx => (hlater x hx).ne'
  rw [runDays_enteredOn hlast hrun₁, runDays_enteredOn hlast hrun₂, enteredOn_mark, enteredOn_mark,
    liquidationPhase_enteredOn hliq₁, liquidationPhase_enteredOn hliq₂, hentered]

/-! ## Two tables told apart only after the open -/

theorem sameAtOpen_of_filter {d : Date} {rows₁ rows₂ : List DailyBarRecord}
    (hbefore : rows₁.filter (·.tradingDate < d) = rows₂.filter (·.tradingDate < d))
    (hopens : (rows₁.filter (·.tradingDate = d)).map (fun r => (r.symbol, r.open)) =
      (rows₂.filter (·.tradingDate = d)).map (fun r => (r.symbol, r.open))) :
    SameAtOpen d rows₁ rows₂ := by
  have hread : ∀ (rows : List DailyBarRecord) (symbol : Symbol) (price : ℚ),
      (∃ row ∈ rows, row.symbol = symbol ∧ row.tradingDate = d ∧ row.open = price) ↔
        (symbol, price) ∈ (rows.filter (·.tradingDate = d)).map (fun r => (r.symbol, r.open)) := by
    intro rows symbol price
    simp only [List.mem_map, List.mem_filter, decide_eq_true_eq, Prod.mk.injEq]
    constructor
    · rintro ⟨row, hrow, hs, hd, hp⟩
      exact ⟨row, ⟨hrow, hd⟩, hs, hp⟩
    · rintro ⟨row, ⟨hrow, hd⟩, hs, hp⟩
      exact ⟨row, hrow, hs, hd, hp⟩
  have hkeep : ∀ (rows : List DailyBarRecord) (bar : DailyBar), bar.tradingDate < d →
      ((∃ row ∈ rows, DailyBar.ofRecord row = bar) ↔
        ∃ row ∈ rows.filter (·.tradingDate < d), DailyBar.ofRecord row = bar) := by
    intro rows bar hbar
    simp only [List.mem_filter, decide_eq_true_eq]
    constructor
    · rintro ⟨row, hrow, rfl⟩
      exact ⟨row, ⟨hrow, hbar⟩, rfl⟩
    · rintro ⟨row, ⟨hrow, -⟩, heq⟩
      exact ⟨row, hrow, heq⟩
  constructor
  · intro bar hbar
    rw [hkeep rows₁ bar hbar, hkeep rows₂ bar hbar, hbefore]
  · intro symbol price
    rw [hread, hread, hopens]

def oneSlot : Dict String Value :=
  ⟨[("initial_capital", .int 1000), ("max_open_positions", .int 1),
    ("position_sizing_mode", .str "fixed_fraction"), ("position_size_pct", .str "0.5"),
    ("minimum_cash_buffer_pct", .int 0), ("slippage_rate", .int 0), ("commission_rate", .int 0),
    ("sell_tax_rate", .int 0)], by decide⟩

def oneSlotRun : RunRequest := ⟨1, 1, 3, oneSlot⟩

def oneSlotSignals : List BacktestSignal := [⟨"A", 0⟩, ⟨"B", 1⟩]

/-- `A` is bought at 100 on day 1; on day 2 it opens at 100 again and `B` at 50. -/
def dayTwo (high close : ℚ) : List DailyBarRecord :=
  [⟨"A", 1, 100, 101, 99, 100, 5⟩, ⟨"A", 2, 100, high, 99, close, 5⟩, ⟨"B", 2, 50, 51, 49, 50, 5⟩,
   ⟨"A", 3, 100, 101, 99, close, 5⟩]

/-- On day 2 the exits are alike in the first two runs. In the others they differ, and
there is no signal to enter. -/
theorem entries_same_of_exits_sample :
    (∃ x₁ x₂, default.executePortfolio oneSlotRun oneSlotSignals (dayTwo 105 100) id = .ok x₁ ∧
      default.executePortfolio oneSlotRun oneSlotSignals (dayTwo 109 101) id = .ok x₂ ∧
      x₁.ledger.enteredOn 2 = x₂.ledger.enteredOn 2) ∧
    ∃ x₁ x₂, default.executePortfolio oneSlotRun [⟨"A", 0⟩] (dayTwo 105 100) id = .ok x₁ ∧
      default.executePortfolio oneSlotRun [⟨"A", 0⟩] (dayTwo 120 100) id = .ok x₂ ∧
      x₁.ledger.enteredOn 2 = x₂.ledger.enteredOn 2 := by
  constructor
  · have hrun : (do
        let x₁ ← DecimalContext.default.executePortfolio oneSlotRun oneSlotSignals
          (dayTwo 105 100) id
        let x₂ ← DecimalContext.default.executePortfolio oneSlotRun oneSlotSignals
          (dayTwo 109 101) id
        let book ← openingBook .default x₁ 2
        return book.entries.all fun entry =>
          exitPrice? .default x₁.context 2 entry.1 entry.2 =
            exitPrice? .default x₂.context 2 entry.1 entry.2) = Except.ok true := by
      decide +kernel
    simp only [bind_ok, pure_ok, List.all_eq_true, decide_eq_true_eq] at hrun
    obtain ⟨x₁, h₁, x₂, h₂, book, hbook, hexits⟩ := hrun
    refine ⟨x₁, x₂, h₁, h₂, entries_same_of_exits h₁ h₂ (by decide) (by decide)
      (sameAtOpen_of_filter (by decide +kernel) (by decide +kernel)) ?_⟩
    intro other hother
    rw [hbook, Except.ok.injEq] at hother
    subst hother
    exact .inl fun symbol position hget => hexits (symbol, position) (Dict.get?_eq_some.mp hget)
  · have hrun : (do
        let x₁ ← DecimalContext.default.executePortfolio oneSlotRun [⟨"A", 0⟩]
          (dayTwo 105 100) id
        let x₂ ← DecimalContext.default.executePortfolio oneSlotRun [⟨"A", 0⟩]
          (dayTwo 120 100) id
        return (x₁.context.entries 2, x₂.context.entries 2)) = Except.ok ([], []) := by
      decide +kernel
    simp only [bind_ok, pure_ok, Prod.mk.injEq] at hrun
    obtain ⟨x₁, h₁, x₂, h₂, hentries₁, hentries₂⟩ := hrun
    refine ⟨x₁, x₂, h₁, h₂, entries_same_of_exits h₁ h₂ (by decide) (by decide)
      (sameAtOpen_of_filter (by decide +kernel) (by decide +kernel)) ?_⟩
    intro book _
    exact .inr ⟨by simp [NoneSized, hentries₁], by simp [NoneSized, hentries₂]⟩

/-- The high of day 2 is not known at its open. Where it reaches the target the
only slot is free again and `B` is bought at that open, where it does not `B` is
turned away. -/
theorem entries_depend_on_high :
    ∃ x₁ x₂, default.executePortfolio oneSlotRun oneSlotSignals (dayTwo 105 100) id = .ok x₁ ∧
      default.executePortfolio oneSlotRun oneSlotSignals (dayTwo 120 100) id = .ok x₂ ∧
      calendar oneSlotRun (dayTwo 105 100) = calendar oneSlotRun (dayTwo 120 100) ∧
      2 ∈ calendar oneSlotRun (dayTwo 105 100) ∧
      SameAtOpen 2 (dayTwo 105 100) (dayTwo 120 100) ∧
      x₁.ledger.enteredOn 2 = [] ∧ x₂.ledger.enteredOn 2 = [("B", 50, 10)] := by
  have hrun₁ : (DecimalContext.default.executePortfolio oneSlotRun oneSlotSignals
      (dayTwo 105 100) id).map (·.ledger.enteredOn 2) = .ok [] := by
    decide +kernel
  have hrun₂ : (DecimalContext.default.executePortfolio oneSlotRun oneSlotSignals
      (dayTwo 120 100) id).map (·.ledger.enteredOn 2) = .ok [("B", 50, 10)] := by
    decide +kernel
  obtain ⟨x₁, h₁, hentered₁⟩ := map_ok.mp hrun₁
  obtain ⟨x₂, h₂, hentered₂⟩ := map_ok.mp hrun₂
  exact ⟨x₁, x₂, h₁, h₂, by decide, by decide,
    sameAtOpen_of_filter (by decide +kernel) (by decide +kernel), hentered₁, hentered₂⟩

/-- Two slots, and more cash than the entries of a day may spend. -/
def twoSlots : RunRequest :=
  ⟨1, 1, 3, (oneSlot.set "max_open_positions" (.int 2)).set "position_size_pct" (.str "0.49")⟩

-- A size is a share of the equity, which a sale moves even where no slot and no cash is short.
example :
    let entered := fun high => (DecimalContext.default.executePortfolio twoSlots oneSlotSignals
      (dayTwo high 100) id).map (·.ledger.enteredOn 2)
    entered 105 = .ok [("B", 50, 9)] ∧ entered 120 = .ok [("B", 50, 10)] := by
  decide +kernel

end Screener.Backtest
