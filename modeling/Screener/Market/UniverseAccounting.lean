import Screener.Lib.Sorted
import Screener.Market.UniverseIntake
import Screener.Market.UniverseSnapshot

/-!
# The accounts of the universe

Every row of KOSPI is counted once, and so is every symbol. The symbols that are left are
ascending and come back from the snapshot as they were written.
-/

namespace Screener.Market

open Screener.Lib

variable {rows : List KrxRow} {s : Intake} {table : KrxTable} {r : BuildResult}

/-- No rule excludes the row. -/
structure KrxRow.Unmatched (row : KrxRow) : Prop where
  reit : row.isReit = false
  infrastructure : found infrastructure (strip row.name) = false
  rules : ∀ rule ∈ row.rules, found rule.2.1 rule.2.2 = false

theorem exclusionCategory_eq_none {row : KrxRow} :
    exclusionCategory row = none ↔ row.Unmatched := by
  unfold exclusionCategory
  constructor
  · intro h
    split_ifs at h with hreit hinfrastructure
    have hrules := List.find?_eq_none.mp (Option.map_eq_none_iff.mp h)
    exact
      { reit := by simpa using hreit
        infrastructure := by simpa using hinfrastructure
        rules := fun rule hrule => by simpa using hrules rule hrule }
  · rintro ⟨hreit, hinfrastructure, hrules⟩
    have hnone : (row.rules.find? fun rule => found rule.2.1 rule.2.2) = none :=
      List.find?_eq_none.mpr fun rule hrule => by simp [hrules rule hrule]
    rw [hreit, hinfrastructure, hnone]
    rfl

/-- The result accounts for the rows of the table. -/
structure Accounts (table : KrxTable) (r : BuildResult) : Prop where
  kospi : r.kospiRows = table.kospi.length
  rows : r.kospiRows = r.uniqueSymbols + r.duplicateRows + r.malformedSymbols
  symbols : r.uniqueSymbols = r.symbols.length + (ExclusionCategory.all.map r.exclusions).sum
  ascending : r.symbols.Pairwise (· < ·)
  eligible : ∀ symbol ∈ r.symbols, symbolPattern symbol = true ∧
    ∃ row ∈ table.kospi, row.symbol = symbol ∧ row.Unmatched

/-- A symbol is counted in one place. -/
theorem counted_once (category : Option ExclusionCategory) :
    (if category = none then 1 else 0) +
      (ExclusionCategory.all.map fun other => if category = some other then 1 else 0).sum = 1 := by
  cases category with
  | none => rfl
  | some category => cases category <;> rfl

theorem length_eq_counts {α : Type*} (places : List (α × Option ExclusionCategory)) :
    places.length = places.countP (·.2 = none) +
      (ExclusionCategory.all.map fun category => places.countP (·.2 = some category)).sum := by
  induction places with
  | nil => rfl
  | cons place places ih =>
    have hplace := counted_once place.2
    simp only [List.countP_cons, List.length_cons, List.sum_map_add, decide_eq_true_eq]
    omega

theorem mem_result_symbols {symbol : Symbol} :
    symbol ∈ (s.result table).symbols ↔ (symbol, none) ∈ s.places := by
  rw [Intake.result, (List.perm_insertionSort _ _).mem_iff]
  simp

theorem result_ascending (s : Intake) (table : KrxTable) :
    (s.result table).symbols.Pairwise (· < ·) := by
  have hkeys : (s.places.map Prod.fst).Nodup := s.places_keys ▸ s.bySymbol.keys_nodup
  have hnodup : ((s.places.filter (·.2 = none)).map Prod.fst).Nodup :=
    hkeys.sublist (List.filter_sublist.map Prod.fst)
  exact insertionSort_strict id (by simpa using hnodup)

theorem accounts_of_taken (h : Taken table.kospi s) : Accounts table (s.result table) := by
  constructor
  case kospi => rfl
  case rows =>
    have haccounted := h.accounted
    change table.kospi.length = s.bySymbol.size + s.duplicates + s.malformed
    omega
  case symbols =>
    rw [length_result_symbols]
    exact (size_places s).trans (length_eq_counts s.places)
  case ascending => exact result_ascending s table
  case eligible =>
    intro symbol hsymbol
    obtain ⟨row, hfirst, hcategory⟩ := h.mem_places.mp (mem_result_symbols.mp hsymbol)
    obtain ⟨hmem, hpattern, hsame⟩ := firstRow_eq_some hfirst
    exact ⟨hsame ▸ hpattern, row, hmem, hsame, exclusionCategory_eq_none.mp hcategory⟩

/-- The build accounts for all rows, and its snapshot loads where there is a symbol. -/
theorem build_accounts (h : buildUniverse table = .ok r) :
    Accounts table r ∧
      (r.symbols ≠ [] → loadKospiSymbols (writeSymbols r.symbols) = .ok r.symbols) ∧
      (r.symbols = [] → loadKospiSymbols (writeSymbols r.symbols) = .error emptySnapshot) := by
  obtain ⟨-, s, hs, rfl⟩ := buildUniverse_ok.mp h
  have haccounts := accounts_of_taken (taken_of_run hs)
  refine ⟨haccounts, fun hsome => ?_, fun hnone => ?_⟩
  · refine load_write hsome (fun symbol hsymbol => (haccounts.eligible symbol hsymbol).1) ?_
    exact haccounts.ascending.imp fun hlt => hlt.ne
  · rw [hnone]
    exact load_write_nil

/-- Two companies, of which one is listed twice and one under letters, a preferred share,
an acquisition company, a code that is too short and a row of another market. -/
def listedRows : List (List String) :=
  [["회사", "유가", "005930", "제조업", "제품"], ["가나", "KOSPI", "0004v0", "제조업", "부품"],
    ["회사", "유가", " 005930 ", "제조업", "제품"], ["회사우", "유가", "005935", "제조업", "제품"],
    ["다라스팩1호", "STK", "123456", "금융 지원 서비스업", "합병"],
    ["마바", "유가", "59A", "제조업", "제품"], ["사아", "코스닥", "035720", "제조업", "제품"]]

theorem listedRows_widths : ∀ row ∈ listedRows, row.length = requiredColumns.length := by decide

def listedTable : KrxTable := ⟨requiredColumns, listedRows, listedRows_widths⟩

theorem build_accounts_one :
    ∃ r, buildUniverse listedTable = .ok r ∧ r.symbols = ["0004V0", "005930"] ∧
      (r.kospiRows, r.uniqueSymbols, r.duplicateRows, r.malformedSymbols, r.alphanumericSymbols) =
        (6, 4, 1, 1, 1) ∧
      Accounts listedTable r ∧ loadKospiSymbols (writeSymbols r.symbols) = .ok r.symbols := by
  have hok : (buildUniverse listedTable).map (fun r => (r.symbols, r.kospiRows, r.uniqueSymbols,
      r.duplicateRows, r.malformedSymbols, r.alphanumericSymbols)) =
      .ok (["0004V0", "005930"], 6, 4, 1, 1, 1) := by
    decide +kernel
  obtain ⟨r, hr, hvalues⟩ := map_ok.mp hok
  obtain ⟨hsymbols, hcounts⟩ := Prod.mk.inj hvalues
  obtain ⟨haccounts, hsome, -⟩ := build_accounts hr
  exact ⟨r, hr, hsymbols, hcounts, haccounts, hsome (by rw [hsymbols]; exact List.cons_ne_nil _ _)⟩

end Screener.Market
