import Mathlib.Data.List.Basic

/-!
# Comma-separated values

The reader of records: fields are separated by commas, and a field in quotation marks may
contain commas, ends of lines and doubled quotation marks. The text comes in lines with
their ends, as a file without newline translation gives them.
-/

namespace Screener.Lib.Csv

/-- A line ends with a line feed, a carriage return or both. -/
def lines : List Char → List (List Char)
  | [] => []
  | '\n' :: rest => ['\n'] :: lines rest
  | '\r' :: '\n' :: rest => ['\r', '\n'] :: lines rest
  | '\r' :: rest => ['\r'] :: lines rest
  | c :: rest =>
    match lines rest with
    | [] => [[c]]
    | line :: more => (c :: line) :: more

inductive State where
  | startRecord
  | startField
  | inField
  | inQuotedField
  | quoteInQuotedField
  | eatCrnl
deriving DecidableEq, Repr

/-- The fields before, and the one that is read. -/
structure Reader where
  state : State := .startRecord
  field : List Char := []
  fields : List (List Char) := []

namespace Reader

def addChar (r : Reader) (c : Char) (next : State) : Reader := ⟨next, r.field ++ [c], r.fields⟩

def saveField (r : Reader) (next : State) : Reader := ⟨next, [], r.fields ++ [r.field]⟩

def isLineEnd (c : Char) : Bool := c == '\n' || c == '\r'

def startField (r : Reader) (c : Char) : Reader :=
  if isLineEnd c then r.saveField .eatCrnl
  else if c = '"' then { r with state := .inQuotedField }
  else if c = ',' then r.saveField .startField
  else r.addChar c .inField

/-- A character; `none` where a line goes on after its end. -/
def processChar (r : Reader) (c : Char) : Option Reader :=
  match r.state with
  | .startRecord => some (if isLineEnd c then { r with state := .eatCrnl } else r.startField c)
  | .startField => some (r.startField c)
  | .inField =>
    some (if isLineEnd c then r.saveField .eatCrnl
      else if c = ',' then r.saveField .startField
      else r.addChar c .inField)
  | .inQuotedField =>
    some (if c = '"' then { r with state := .quoteInQuotedField } else r.addChar c .inQuotedField)
  | .quoteInQuotedField =>
    some (if c = '"' then r.addChar c .inQuotedField
      else if c = ',' then r.saveField .startField
      else if isLineEnd c then r.saveField .eatCrnl
      else r.addChar c .inField)
  | .eatCrnl => if isLineEnd c then some r else none

/-- The end of a line; a quoted field goes on in the next one. -/
def endLine (r : Reader) : Reader :=
  match r.state with
  | .startField | .inField | .quoteInQuotedField => r.saveField .startRecord
  | .eatCrnl => { r with state := .startRecord }
  | .startRecord | .inQuotedField => r

def readLine (r : Reader) (line : List Char) : Option Reader :=
  (line.foldlM processChar r).map endLine

def readRecords : Reader → List (List Char) → Option (List (List (List Char)))
  | r, [] => some (if r.field ≠ [] ∨ r.state = .inQuotedField then [r.fields ++ [r.field]] else [])
  | r, line :: rest => do
    let r ← r.readLine line
    if r.state = .startRecord then
      let more ← readRecords {} rest
      pure (r.fields :: more)
    else readRecords r rest

end Reader

/-- The records of a text. -/
def read (text : List Char) : Option (List (List (List Char))) := Reader.readRecords {} (lines text)

/-! ## Plain lines -/

/-- A field that is written as it is, on a line of its own. -/
def Plain (line : List Char) : Prop :=
  line ≠ [] ∧ ∀ c ∈ line, c ≠ '\n' ∧ c ≠ '\r' ∧ c ≠ ',' ∧ c ≠ '"'

theorem lines_line {line : List Char} (h : ∀ c ∈ line, c ≠ '\n' ∧ c ≠ '\r') (rest : List Char) :
    lines (line ++ '\n' :: rest) = (line ++ ['\n']) :: lines rest := by
  induction line with
  | nil => simp [lines]
  | cons c line ih =>
    obtain ⟨⟨hfeed, hreturn⟩, hline⟩ := List.forall_mem_cons.mp h
    rw [List.cons_append, lines, ih hline]
    · rfl
    · exact hfeed
    · exact fun _ hc => absurd hc hreturn
    · exact hreturn

namespace Reader

theorem foldlM_inField {line : List Char} (h : ∀ c ∈ line, c ≠ '\n' ∧ c ≠ '\r' ∧ c ≠ ',')
    (field : List Char) (fields : List (List Char)) :
    line.foldlM processChar ⟨.inField, field, fields⟩ = some ⟨.inField, field ++ line, fields⟩ := by
  induction line generalizing field with
  | nil => simp
  | cons c line ih =>
    obtain ⟨⟨hfeed, hreturn, hcomma⟩, hline⟩ := List.forall_mem_cons.mp h
    have hstep : processChar ⟨.inField, field, fields⟩ c =
        some ⟨.inField, field ++ [c], fields⟩ := by
      simp [processChar, isLineEnd, addChar, hfeed, hreturn, hcomma]
    rw [List.foldlM_cons, hstep]
    refine (ih hline (field ++ [c])).trans ?_
    rw [List.append_assoc, List.singleton_append]

theorem readLine_plain {line : List Char} (h : Plain line) :
    readLine {} (line ++ ['\n']) = some ⟨.startRecord, [], [line]⟩ := by
  obtain ⟨hsome, hchars⟩ := h
  cases line with
  | nil => exact absurd rfl hsome
  | cons c line =>
    obtain ⟨⟨hfeed, hreturn, hcomma, hquote⟩, hline⟩ := List.forall_mem_cons.mp hchars
    have hfirst : processChar {} c = some ⟨.inField, [c], []⟩ := by
      simp [processChar, startField, isLineEnd, addChar, hfeed, hreturn, hcomma, hquote]
    have hrest := foldlM_inField
      (fun d hd => ⟨(hline d hd).1, (hline d hd).2.1, (hline d hd).2.2.1⟩)
      [c] []
    have hend : processChar ⟨.inField, c :: line, []⟩ '\n' = some ⟨.eatCrnl, [], [c :: line]⟩ := by
      simp [processChar, isLineEnd, saveField]
    rw [readLine, List.cons_append, List.foldlM_cons, hfirst, Option.bind_eq_bind, Option.bind_some,
      List.foldlM_append, hrest, Option.bind_eq_bind, Option.bind_some]
    simp only [List.singleton_append, List.foldlM_cons, hend, List.foldlM_nil]
    rfl

end Reader

/-- Plain lines are records of one field. -/
theorem read_plain {texts : List (List Char)} (h : ∀ line ∈ texts, Plain line) :
    read (texts.flatMap (· ++ ['\n'])) = some (texts.map fun line => [line]) := by
  induction texts with
  | nil => rfl
  | cons line texts ih =>
    obtain ⟨hline, htexts⟩ := List.forall_mem_cons.mp h
    have hends : ∀ c ∈ line, c ≠ '\n' ∧ c ≠ '\r' :=
      fun c hc => ⟨(hline.2 c hc).1, (hline.2 c hc).2.1⟩
    rw [read, List.flatMap_cons, List.append_assoc, List.singleton_append, lines_line hends,
      Reader.readRecords, Reader.readLine_plain hline, Option.bind_eq_bind, Option.bind_some,
      if_pos rfl, ← read, ih htexts]
    rfl

example : read "a,\"b,\"\"c\"\n\nd\r\n\"e\nf\"".toList =
    some [["a".toList, "b,\"c".toList], [], ["d".toList], ["e\nf".toList]] := by decide +kernel

end Screener.Lib.Csv
