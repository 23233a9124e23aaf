import Screener.Backtest.PortfolioRules

/-!
# The positions that the exits of a day leave

The prices at which the positions leave are known from the book that the day begins with
and the bars of the day. So are the positions that stay, and the signals that are turned
away whatever the sales bring in.
-/

namespace Screener.Backtest

open Screener.Lib
open Screener.Market (Date Symbol)

variable {k : DecimalContext} {c : Context} {day : Date} {ledger ledger' : Ledger}

/-- The price at which a position leaves on `day`, if it does. -/
def exitPrice? (k : DecimalContext) (c : Context) (day : Date) (symbol : Symbol)
    (position : OpenPosition) : Option ℚ :=
  (exitBar (c.bars day) (c.final day) day symbol position).bind fun bar =>
    (k.exitTerms position.held bar c.p.trading (c.final day)).map (·.2)

/-- The symbols of a book that do not leave on `day`. -/
def staying (k : DecimalContext) (c : Context) (day : Date) (book : Dict Symbol OpenPosition) :
    List Symbol :=
  (book.entries.filter fun entry => (exitPrice? k c day entry.1 entry.2).isNone).map Prod.fst

theorem mem_staying {book : Dict Symbol OpenPosition} {symbol : Symbol} :
    symbol ∈ staying k c day book ↔
      ∃ position, book.get? symbol = some position ∧ exitPrice? k c day symbol position = none := by
  simp only [staying, List.mem_map, List.mem_filter, Option.isNone_iff_eq_none]
  constructor
  · rintro ⟨⟨_, position⟩, ⟨hentry, hnone⟩, rfl⟩
    exact ⟨position, Dict.get?_eq_some.mpr hentry, hnone⟩
  · rintro ⟨position, hget, hnone⟩
    exact ⟨(symbol, position), ⟨Dict.get?_eq_some.mp hget, hnone⟩, rfl⟩

theorem staying_nodup (k : DecimalContext) (c : Context) (day : Date)
    (book : Dict Symbol OpenPosition) : (staying k c day book).Nodup :=
  book.nodup.sublist (List.filter_sublist.map Prod.fst)

/-! ## The exits -/

/-- One exit keeps its symbol exactly where it has no price, and no other symbol is touched. -/
theorem exitOne_stays {symbol : Symbol} {position : OpenPosition}
    (hget : ledger.state.positions.get? symbol = some position)
    (h : k.exitOne c day (c.bars day) (c.final day) ledger symbol = .ok ledger') :
    (symbol ∈ ledger'.state.positions.keys ↔ exitPrice? k c day symbol position = none) ∧
      ∀ other, other ≠ symbol →
        ledger'.state.positions.get? other = ledger.state.positions.get? other := by
  obtain ⟨found, hfound, hcase⟩ := DecimalContext.exitOne_cases h
  rw [hget, Option.some.injEq] at hfound
  subst hfound
  rw [Dict.mem_keys]
  rcases hcase with ⟨hbar, rfl⟩ | ⟨bar, hbar, ⟨hterms, rfl⟩ | ⟨reason, raw, hterms, -, rfl⟩⟩
  · simp [exitPrice?, hbar, hget]
  · constructor
    · simp [exitPrice?, hbar, hterms, holdPosition, Dict.get?_set]
    · intro other hother
      simp [holdPosition, Dict.get?_set, hother]
  · constructor
    · simp [exitPrice?, hbar, hterms, DecimalContext.soldLedger, Dict.get?_erase]
    · intro other hother
      simp [DecimalContext.soldLedger, holdPosition, Dict.get?_erase, Dict.get?_set, hother]

/-- After the exits the book holds the symbols that stay. -/
theorem exitPhase_keys (h : k.exitPhase c ledger day = .ok ledger') :
    ledger'.state.positions.keys.Perm (staying k c day ledger.state.positions) := by
  have hnodup : ledger.state.symbols.Nodup :=
    (List.perm_insertionSort _ _).nodup_iff.mpr (Dict.keys_nodup _)
  have hmem : ∀ symbol, symbol ∈ ledger.state.symbols ↔ symbol ∈ ledger.state.positions.keys :=
    fun symbol => List.mem_insertionSort _
  -- A symbol that is still to come holds the position it held when the day began.
  have hrun := foldlM_prefix_invariant (fun (pre : List Symbol) (s : Ledger) =>
    (∀ symbol ∈ pre, symbol ∈ s.state.positions.keys ↔
      symbol ∈ staying k c day ledger.state.positions) ∧
    ∀ symbol, symbol ∉ pre →
      s.state.positions.get? symbol = ledger.state.positions.get? symbol) _ ?_ h
    ⟨by simp, fun _ _ => rfl⟩
  · rw [List.perm_ext_iff_of_nodup (Dict.keys_nodup _) (staying_nodup k c day _)]
    intro symbol
    by_cases hheld : symbol ∈ ledger.state.symbols
    · exact hrun.1 symbol hheld
    · have hnone := Dict.get?_eq_none.mpr fun hin => hheld ((hmem symbol).mpr hin)
      rw [Dict.mem_keys, hrun.2 symbol hheld, mem_staying, hnone]
      simp
  · rintro pre symbol post s t hsplit ⟨hdone, hrest⟩ hs
    have hnew : symbol ∉ pre := by
      rw [hsplit] at hnodup
      intro hin
      exact (List.nodup_append.mp hnodup).2.2 symbol hin symbol List.mem_cons_self rfl
    have hheld : symbol ∈ ledger.state.positions.keys := (hmem symbol).mp (by simp [hsplit])
    obtain ⟨position, hposition⟩ := Dict.mem_keys.mp hheld
    obtain ⟨hsymbol, hothers⟩ := exitOne_stays ((hrest symbol hnew).trans hposition) hs
    constructor
    · intro other hother
      rcases List.mem_append.mp hother with hin | hin
      · have hne : other ≠ symbol := fun heq => hnew (heq ▸ hin)
        rw [← hdone other hin, Dict.mem_keys, Dict.mem_keys, hothers other hne]
      · obtain rfl := List.mem_singleton.mp hin
        rw [hsymbol, mem_staying, hposition]
        simp
    · intro other hother
      simp only [List.mem_append, List.mem_singleton, not_or] at hother
      rw [hothers other hother.2, hrest other hother.1]

/-! ## Signals that are turned away -/

/-- The signal's symbol stays in the book, the positions that stay take all the slots, or
there is no price to buy at. -/
def TurnedAway (k : DecimalContext) (c : Context) (day : Date) (book : Dict Symbol OpenPosition)
    (signal : BacktestSignal) : Prop :=
  signal.symbol ∈ staying k c day book ∨ c.p.maxOpenPositions ≤ (staying k c day book).length ∨
    ∀ bar, (c.bars day).get? signal.symbol = some bar → k.effectivePrice c bar ≤ 0

theorem slot_of_sizeEntry {state : PortfolioState} {symbol : Symbol} {effective : ℚ}
    {quantity : Nat} (h : k.sizeEntry c state symbol effective = (quantity, none)) :
    (state.positions.size : ℤ) < c.p.maxOpenPositions := by
  unfold DecimalContext.sizeEntry at h
  split at h
  · cases h
  · rename_i hslot
    unfold slotSkip at hslot
    split_ifs at hslot with hheld hfull
    exact not_le.mp hfull

/-- A signal that is turned away is counted and changes nothing else. -/
theorem enterOne_turnedAway {book : Dict Symbol OpenPosition} {signal : BacktestSignal}
    (hbook : ledger.state.positions.keys.Perm (staying k c day book))
    (haway : TurnedAway k c day book signal)
    (h : k.enterOne c day (c.bars day) ledger signal = .ok ledger') :
    ledger'.state = ledger.state ∧ ledger'.journal = ledger.journal := by
  have hsize : ledger.state.positions.size = (staying k c day book).length := by
    rw [← hbook.length_eq, Dict.keys, List.length_map, Dict.size]
  obtain ⟨bar, hbar, ⟨reason, -, rfl⟩ | ⟨quantity, hsized, -⟩⟩ :=
    DecimalContext.enterOne_cases h
  · exact ⟨rfl, rfl⟩
  · exfalso
    obtain ⟨hnew, hprice, -⟩ := DecimalContext.sizeEntry_ok hsized
    rcases haway with hheld | hfull | hunpriced
    · exact hnew (hbook.mem_iff.mpr hheld)
    · rw [← hsize] at hfull
      exact absurd (slot_of_sizeEntry hsized) (not_lt.mpr hfull)
    · exact absurd hprice (not_lt.mpr (hunpriced bar hbar))

/-- Where every signal of the day is turned away, nothing is entered. -/
theorem entryPhase_turnedAway {book : Dict Symbol OpenPosition}
    (hbook : ledger.state.positions.keys.Perm (staying k c day book))
    (haway : ∀ signal ∈ c.entries day, TurnedAway k c day book signal)
    (h : k.entryPhase c ledger day = .ok ledger') : ledger'.journal = ledger.journal := by
  refine (foldlM_invariant
    (fun l : Ledger => l.state = ledger.state ∧ l.journal = ledger.journal) ?_ h ⟨rfl, rfl⟩).2
  rintro signal hsignal s t ⟨hstate, hjournal⟩ hst
  have hkept := enterOne_turnedAway (hstate ▸ hbook) (haway signal hsignal) hst
  exact ⟨hkept.1.trans hstate, hkept.2.trans hjournal⟩

end Screener.Backtest
