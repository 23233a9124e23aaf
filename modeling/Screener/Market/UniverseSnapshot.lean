import Screener.Lib.Csv
import Screener.Market.KrxUniverse

/-!
# The snapshot of the universe

The symbols are written one on a line below a header. What is loaded has to be a list of
distinct symbols that is not empty; every list that is so comes back as it was written.
-/

namespace Screener.Market

open Screener.Lib

/-! ## The file -/

/-- The text of the file. -/
def writeSymbols (symbols : List Symbol) : List Char :=
  "symbol\n".toList ++ symbols.flatMap fun symbol => symbol.toList ++ ['\n']

def columnError : PyException := valueError "universe CSV must have exactly one 'symbol' column"

/-- `_read_symbols`: the first cells of the rows that are not empty. -/
def readSymbols (text : List Char) : Except PyException (List Symbol) :=
  match Csv.read text with
  | none => .error ⟨"Error", "new-line character seen in unquoted field"⟩
  | some [] => .error columnError
  | some (fieldnames :: rows) =>
    if fieldnames ≠ ["symbol".toList] then .error columnError
    else .ok ((rows.filter (· ≠ [])).map fun row => strip (String.ofList (row.headD [])))

def emptySnapshot : PyException := valueError "universe snapshot is empty"

/-- The message has the `repr` of the symbol, here of one without characters to escape. -/
def malformedSymbol (symbol : Symbol) : PyException :=
  valueError ("malformed universe symbol: '" ++ symbol ++ "'")

def duplicateSymbols : PyException := valueError "duplicate universe symbols"

/-- `load_kospi_symbols(path)`, of the text of the file. -/
def loadKospiSymbols (text : List Char) : Except PyException (List Symbol) := do
  let symbols ← readSymbols text
  if symbols = [] then .error emptySnapshot
  else match symbols.find? fun symbol => !symbolPattern symbol with
    | some symbol => .error (malformedSymbol symbol)
    | none => if symbols.Nodup then .ok symbols else .error duplicateSymbols

/-! ## Symbols in the file -/

theorem strip_eq_self {s : String} (h : ∀ c ∈ s.toList, DecimalText.isSpace c = false) :
    strip s = s := by
  have hdrop : ∀ cs : List Char, (∀ c ∈ cs, DecimalText.isSpace c = false) →
      cs.dropWhile DecimalText.isSpace = cs := by
    intro cs hcs
    cases cs with
    | nil => rfl
    | cons c cs => exact List.dropWhile_cons_of_neg (by simp [hcs c List.mem_cons_self])
  rw [strip, DecimalText.strip, hdrop _ h, hdrop _ fun c hc => h c (List.mem_reverse.mp hc),
    List.reverse_reverse, String.ofList_toList]

/-- What a character of a symbol is not. -/
theorem symbol_char {c : Char} (h : (isAsciiDigit c || ('A' ≤ c && c ≤ 'Z')) = true) :
    DecimalText.isSpace c = false ∧ c ≠ '\n' ∧ c ≠ '\r' ∧ c ≠ ',' ∧ c ≠ '"' := by
  have hcode : (48 ≤ c.toNat ∧ c.toNat ≤ 57) ∨ (65 ≤ c.toNat ∧ c.toNat ≤ 90) := by
    simpa [isAsciiDigit, Char.le_def, UInt32.le_iff_toNat_le] using h
  have hother : ∀ d : Char, d.toNat < 48 → c ≠ d := by
    rintro d hd rfl
    omega
  refine ⟨?_, hother _ (by decide), hother _ (by decide), hother _ (by decide),
    hother _ (by decide)⟩
  simp only [DecimalText.isSpace, Bool.or_eq_false_iff, Bool.and_eq_false_iff,
    decide_eq_false_iff_not,
    beq_eq_false_iff_ne]
  omega

theorem symbolPattern_chars {symbol : Symbol} (h : symbolPattern symbol = true) :
    symbol.toList.length = 6 ∧
      ∀ c ∈ symbol.toList, (isAsciiDigit c || ('A' ≤ c && c ≤ 'Z')) = true := by
  rw [symbolPattern, Bool.and_eq_true, beq_iff_eq, List.all_eq_true] at h
  exact h

theorem plain_of_symbol {symbol : Symbol} (h : symbolPattern symbol = true) :
    Csv.Plain symbol.toList := by
  obtain ⟨hlength, hchars⟩ := symbolPattern_chars h
  refine ⟨?_, fun c hc => (symbol_char (hchars c hc)).2⟩
  intro hnil
  rw [hnil] at hlength
  cases hlength

theorem strip_symbol {symbol : Symbol} (h : symbolPattern symbol = true) : strip symbol = symbol :=
  strip_eq_self fun c hc => (symbol_char ((symbolPattern_chars h).2 c hc)).1

/-! ## Reading back -/

variable {symbols : List Symbol}

/-- The file in lines. -/
theorem write_lines (symbols : List Symbol) : writeSymbols symbols =
    ("symbol".toList :: symbols.map String.toList).flatMap (· ++ ['\n']) := by
  have hheader : "symbol\n".toList = "symbol".toList ++ ['\n'] := by decide
  rw [List.flatMap_cons, List.flatMap_map, ← hheader]
  rfl

theorem readSymbols_write (h : ∀ symbol ∈ symbols, symbolPattern symbol = true) :
    readSymbols (writeSymbols symbols) = .ok symbols := by
  have hheader : Csv.Plain "symbol".toList := by
    have hchars : "symbol".toList = ['s', 'y', 'm', 'b', 'o', 'l'] := by decide
    rw [hchars]
    simp [Csv.Plain]
  have hplain : ∀ line ∈ "symbol".toList :: symbols.map String.toList, Csv.Plain line := by
    refine List.forall_mem_cons.mpr ⟨hheader, List.forall_mem_map.mpr fun symbol hsymbol => ?_⟩
    exact plain_of_symbol (h symbol hsymbol)
  have hrows : ((symbols.map String.toList).map fun line => [line]).filter (· ≠ []) =
      (symbols.map String.toList).map fun line => [line] := by
    simp
  have hback : symbols.map (fun symbol => strip (String.ofList symbol.toList)) = symbols := by
    refine (List.map_congr_left fun symbol hsymbol => ?_).trans (List.map_id symbols)
    rw [String.ofList_toList, strip_symbol (h symbol hsymbol), id]
  rw [readSymbols, write_lines, Csv.read_plain hplain, List.map_cons]
  simp only [ne_eq, not_true_eq_false, if_false]
  rw [hrows, List.map_map, List.map_map]
  exact congrArg Except.ok hback

theorem load_write (hsome : symbols ≠ []) (h : ∀ symbol ∈ symbols, symbolPattern symbol = true)
    (hdistinct : symbols.Nodup) : loadKospiSymbols (writeSymbols symbols) = .ok symbols := by
  have hnone : (symbols.find? fun symbol => !symbolPattern symbol) = none :=
    List.find?_eq_none.mpr fun symbol hsymbol => by simp [h symbol hsymbol]
  rw [loadKospiSymbols, readSymbols_write h]
  simp only [bind, Except.bind]
  rw [if_neg hsome, hnone]
  simp [hdistinct]

theorem load_write_nil : loadKospiSymbols (writeSymbols []) = .error emptySnapshot := by
  rw [loadKospiSymbols, readSymbols_write (by simp)]
  rfl

end Screener.Market
