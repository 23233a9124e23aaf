import Screener.Lib.CsvWriter
import Screener.Market.KrxUniverse

/-!
# The export of the exchange

The exchange exports an HTML table. `convert_html_export` reads its rows off the events of
the language's HTML parser and writes them as comma-separated values; `build_universe` reads
these again. A table that is laid out by rows and cells comes through both as it was.
-/

namespace Screener.Market

open Screener.Lib

/-! ## The parser of tables -/

/-- What the HTML parser of the language reports; its tags are in lower case. -/
inductive HtmlEvent where
  | startTag (tag : String)
  | data (text : String)
  | endTag (tag : String)
deriving DecidableEq, Repr

/-- `_TableParser`. -/
structure TableParser where
  rows : List (List String) := []
  row : Option (List String) := none
  cell : Option (List String) := none
deriving DecidableEq, Repr

def isCellTag (tag : String) : Bool := tag == "th" || tag == "td"

/-- `"".join(cell).strip()`. -/
def cellText (texts : List String) : String := strip (String.join texts)

namespace TableParser

def handleStarttag (p : TableParser) (tag : String) : TableParser :=
  if tag = "tr" then { p with row := some [] }
  else if isCellTag tag && p.row.isSome then { p with cell := some [] }
  else p

def handleData (p : TableParser) (text : String) : TableParser :=
  match p.cell with
  | some texts => { p with cell := some (texts ++ [text]) }
  | none => p

/-- A row without cells is dropped. -/
def handleEndtag (p : TableParser) (tag : String) : TableParser :=
  match isCellTag tag, p.cell, p.row with
  | true, some texts, some row => { p with row := some (row ++ [cellText texts]), cell := none }
  | _, _, row =>
    match row with
    | some row =>
      if tag = "tr" then
        { p with rows := if row ≠ [] then p.rows ++ [row] else p.rows, row := none }
      else p
    | none => p

def handle (p : TableParser) : HtmlEvent → TableParser
  | .startTag tag => p.handleStarttag tag
  | .data text => p.handleData text
  | .endTag tag => p.handleEndtag tag

def feed (p : TableParser) (events : List HtmlEvent) : TableParser := events.foldl handle p

end TableParser

/-! ## The conversion -/

section Conversion

variable {Raw : Type} (decode : String → Raw → Option (List Char))
  (parseHtml : List Char → List HtmlEvent)

/-- `convert_html_export`: the encoding, and the text of the file. `decode` is the codec of an
encoding, `parseHtml` the HTML parser. -/
def convertHtmlExport (raw : Raw) : Except PyException (String × List Char) :=
  match ["cp949", "euc-kr"].find? fun encoding => (decode encoding raw).isSome with
  | none => .error (valueError "KRX export is not valid CP949/EUC-KR")
  | some encoding =>
    let rows := (TableParser.feed {} (parseHtml ((decode encoding raw).getD []))).rows
    match rows with
    | [] => .error (valueError "KRX HTML export contains no table rows")
    | first :: _ =>
      if rows.any fun row => row.length ≠ first.length then
        .error (valueError "KRX HTML export has inconsistent table rows")
      else .ok (encoding, Csv.write (rows.map fun row => row.map String.toList))

end Conversion

/-- `csv.field_size_limit()`. -/
def fieldSizeLimit : Nat := 131072

/-- `utf-8-sig` drops one mark at the start. -/
def byteOrderMark : Char := '\ufeff'

def dropMark : List Char → List Char
  | c :: text => if c = byteOrderMark then text else c :: text
  | [] => []

/-- The table that `csv.DictReader` reads, which skips the records without fields; `none` where
the reader raises or a row is longer or shorter than the header. -/
def readTable (text : List Char) : Option KrxTable :=
  match Csv.readWithin fieldSizeLimit (dropMark text) with
  | some (fieldnames :: records) =>
    let rows := (records.filter (· ≠ [])).map fun record => record.map String.ofList
    if h : ∀ row ∈ rows, row.length = (fieldnames.map String.ofList).length then
      some ⟨fieldnames.map String.ofList, rows, h⟩
    else none
  | _ => none

/-! ## Tables by rows and cells -/

/-- Text, and tags that are of no row and of no cell. -/
def Inline : HtmlEvent → Prop
  | .startTag tag => tag ≠ "tr" ∧ isCellTag tag = false
  | .data _ => True
  | .endTag tag => tag ≠ "tr" ∧ isCellTag tag = false

def textOf : HtmlEvent → Option String
  | .data text => some text
  | _ => none

/-- What the events between the tags of a cell say. -/
def contentText (content : List HtmlEvent) : String := cellText (content.filterMap textOf)

/-- The events of cells one after another, with anything inline between them. -/
inductive CellsOf : List HtmlEvent → List String → Prop
  | done {gap : List HtmlEvent} : (∀ e ∈ gap, Inline e) → CellsOf gap []
  | cell {gap content rest : List HtmlEvent} {cells : List String} {opening closing : String} :
      (∀ e ∈ gap, Inline e) → isCellTag opening → (∀ e ∈ content, Inline e) → isCellTag closing →
      CellsOf rest cells →
      CellsOf (gap ++ .startTag opening :: (content ++ .endTag closing :: rest))
        (contentText content :: cells)

/-- The events of rows one after another. -/
inductive RowsOf : List HtmlEvent → List (List String) → Prop
  | done {gap : List HtmlEvent} : (∀ e ∈ gap, Inline e) → RowsOf gap []
  | row {gap events rest : List HtmlEvent} {cells : List String} {rows : List (List String)} :
      (∀ e ∈ gap, Inline e) → CellsOf events cells → RowsOf rest rows →
      RowsOf (gap ++ .startTag "tr" :: (events ++ .endTag "tr" :: rest)) (cells :: rows)

namespace TableParser

theorem feed_append (p : TableParser) (before after : List HtmlEvent) :
    p.feed (before ++ after) = (p.feed before).feed after := List.foldl_append

theorem feed_cons (p : TableParser) (e : HtmlEvent) (events : List HtmlEvent) :
    p.feed (e :: events) = (p.handle e).feed events := rfl

/-- Outside a cell nothing inline is kept. -/
theorem handle_gap {e : HtmlEvent} (he : Inline e) (rows : List (List String))
    (row : Option (List String)) :
    (⟨rows, row, none⟩ : TableParser).handle e = ⟨rows, row, none⟩ := by
  cases e with
  | startTag tag => simp [handle, handleStarttag, he.1, he.2]
  | data text => rfl
  | endTag tag => cases row <;> simp [handle, handleEndtag, he.1, he.2]

theorem feed_gap {gap : List HtmlEvent} (h : ∀ e ∈ gap, Inline e) (rows : List (List String))
    (row : Option (List String)) :
    (⟨rows, row, none⟩ : TableParser).feed gap = ⟨rows, row, none⟩ := by
  induction gap with
  | nil => rfl
  | cons e gap ih =>
    obtain ⟨he, hgap⟩ := List.forall_mem_cons.mp h
    rw [feed_cons, handle_gap he, ih hgap]

theorem feed_content {content : List HtmlEvent} (h : ∀ e ∈ content, Inline e)
    (rows : List (List String)) (row texts : List String) :
    (⟨rows, some row, some texts⟩ : TableParser).feed content =
      ⟨rows, some row, some (texts ++ content.filterMap textOf)⟩ := by
  induction content generalizing texts with
  | nil => rw [List.filterMap_nil, List.append_nil]; rfl
  | cons e content ih =>
    obtain ⟨he, hcontent⟩ := List.forall_mem_cons.mp h
    have hstep : (⟨rows, some row, some texts⟩ : TableParser).handle e =
        ⟨rows, some row, some (texts ++ [e].filterMap textOf)⟩ := by
      cases e with
      | startTag tag => simp [handle, handleStarttag, textOf, he.1, he.2]
      | data text => rfl
      | endTag tag => simp [handle, handleEndtag, textOf, he.1, he.2]
    rw [feed_cons, hstep, ih hcontent, List.append_assoc, ← List.filterMap_append,
      List.singleton_append]

theorem feed_cells {events : List HtmlEvent} {cells : List String} (h : CellsOf events cells)
    (rows : List (List String)) (row : List String) :
    (⟨rows, some row, none⟩ : TableParser).feed events = ⟨rows, some (row ++ cells), none⟩ := by
  induction h generalizing row with
  | done hgap => rw [feed_gap hgap, List.append_nil]
  | @cell gap content rest cells opening closing hgap hopening hcontent hclosing _ ih =>
    have hopen : (⟨rows, some row, none⟩ : TableParser).handle (.startTag opening) =
        ⟨rows, some row, some []⟩ := by
      have hrow : opening ≠ "tr" := by
        rintro rfl
        exact absurd hopening (by decide)
      simp [handle, handleStarttag, hrow, hopening]
    have hclose : ∀ texts, (⟨rows, some row, some texts⟩ : TableParser).handle (.endTag closing) =
        ⟨rows, some (row ++ [cellText texts]), none⟩ := by
      intro texts
      simp [handle, handleEndtag, hclosing]
    rw [feed_append, feed_gap hgap, feed_cons, hopen, feed_append, feed_content hcontent, feed_cons,
      hclose, ih, List.append_assoc, List.singleton_append, List.nil_append]
    rfl

/-- The rows that have cells. -/
theorem feed_rows {events : List HtmlEvent} {table : List (List String)} (h : RowsOf events table)
    (rows : List (List String)) : (⟨rows, none, none⟩ : TableParser).feed events =
      ⟨rows ++ table.filter (· ≠ []), none, none⟩ := by
  induction h generalizing rows with
  | done hgap => rw [feed_gap hgap, List.filter_nil, List.append_nil]
  | @row gap events rest cells table hgap hcells _ ih =>
    have hopen : (⟨rows, none, none⟩ : TableParser).handle (.startTag "tr") =
      ⟨rows, some [], none⟩ := rfl
    have hclose : (⟨rows, some cells, none⟩ : TableParser).handle (.endTag "tr") =
        ⟨rows ++ [cells].filter (· ≠ []), none, none⟩ := by
      cases cells <;> simp [handle, handleEndtag]
    rw [feed_append, feed_gap hgap, feed_cons, hopen, feed_append, feed_cells hcells, feed_cons,
      List.nil_append, hclose, ih, List.append_assoc, ← List.filter_append, List.singleton_append]

end TableParser

/-! ## Through the file -/

/-- What the file can carry. -/
structure Carried (rows : List (List String)) : Prop where
  short : ∀ row ∈ rows, ∀ cell ∈ row, cell.toList.length ≤ fieldSizeLimit
  unmarked : ∀ row ∈ rows.head?, ∀ cell ∈ row.head?, cell.toList.head? ≠ some byteOrderMark

theorem dropMark_of_head {text : List Char} (h : text.head? ≠ some byteOrderMark) :
    dropMark text = text := by
  cases text with
  | nil => rfl
  | cons c text =>
    have hc : c ≠ byteOrderMark := fun heq => h (congrArg some heq)
    rw [dropMark, if_neg hc]

theorem head?_writeField {alone : Bool} {field : List Char} {c d : Char} {rest : List Char}
    (h : (Csv.writeField alone field ++ d :: rest).head? = some c) :
    c = '"' ∨ c = d ∨ field.head? = some c := by
  rw [Csv.writeField] at h
  split at h
  · exact .inl (Option.some.inj h).symm
  · cases field with
    | nil => exact .inr (.inl (Option.some.inj h).symm)
    | cons first field => exact .inr (.inr h)

theorem head?_write {row : List (List Char)} (rows : List (List (List Char)))
    (h : ∀ field ∈ row.head?, field.head? ≠ some byteOrderMark) :
    (Csv.write (row :: rows)).head? ≠ some byteOrderMark := by
  intro hhead
  rw [Csv.write, List.flatMap_cons, Csv.writeRecord, List.append_assoc,
    List.singleton_append] at hhead
  cases row with
  | nil =>
    rw [List.map_nil, List.intercalate_nil, List.nil_append, List.head?_cons] at hhead
    exact absurd (Option.some.inj hhead) (by decide)
  | cons field more =>
    have hother : field.head? = some byteOrderMark → False := h field rfl
    cases more with
    | nil =>
      rw [List.map_singleton, List.intercalate_singleton] at hhead
      rcases head?_writeField hhead with hquote | hfeed | hfield
      · exact absurd hquote (by decide)
      · exact absurd hfeed (by decide)
      · exact hother hfield
    | cons next more =>
      rw [List.map_cons, List.map_cons, List.intercalate_cons_cons, List.append_assoc,
        List.append_assoc, List.singleton_append] at hhead
      rcases head?_writeField hhead with hquote | hcomma | hfield
      · exact absurd hquote (by decide)
      · exact absurd hcomma (by decide)
      · exact hother hfield

/-- The text of a table. -/
def tableText (rows : List (List String)) : List Char :=
  Csv.write (rows.map fun row => row.map String.toList)

theorem readTable_tableText {header : List String} {body : List (List String)}
    (h : Carried (header :: body)) (hwidth : ∀ row ∈ body, row.length = header.length)
    (hsome : header ≠ []) :
    ∃ table, readTable (tableText (header :: body)) = some table ∧ table.fieldnames = header ∧
      table.rows = body := by
  have hstrings : ∀ row : List String, (row.map String.toList).map String.ofList = row := by
    intro row
    rw [List.map_map]
    exact (List.map_congr_left fun cell _ => String.ofList_toList).trans (List.map_id row)
  have hmark : dropMark (tableText (header :: body)) = tableText (header :: body) := by
    refine dropMark_of_head (head?_write _ ?_)
    intro field hfield
    obtain ⟨cell, hcell, rfl⟩ := by simpa using hfield
    exact h.unmarked header rfl cell hcell
  have hread : Csv.readWithin fieldSizeLimit (tableText (header :: body)) =
      some ((header :: body).map fun row => row.map String.toList) := by
    refine Csv.readWithin_write ?_
    simpa only [List.forall_mem_map] using h.short
  -- No row of the body is skipped, as it is as long as the header.
  have hbody : ((body.map fun row => row.map String.toList).filter (· ≠ [])).map
      (fun record => record.map String.ofList) = body := by
    rw [List.filter_eq_self.mpr, List.map_map]
    · exact (List.map_congr_left fun row _ => hstrings row).trans (List.map_id body)
    · simp only [List.forall_mem_map, decide_eq_true_eq, ne_eq, List.map_eq_nil_iff]
      intro row hrow hnil
      rw [hnil] at hrow
      exact hsome (List.length_eq_zero_iff.mp (hwidth [] hrow).symm)
  have hlengths : ∀ row ∈ ((body.map fun row => row.map String.toList).filter (· ≠ [])).map
      (fun record => record.map String.ofList),
        row.length = ((header.map String.toList).map String.ofList).length := by
    rw [hbody, hstrings]
    exact hwidth
  refine ⟨⟨_, _, hlengths⟩, ?_, hstrings header, hbody⟩
  rw [readTable, hmark, hread]
  exact dif_pos hlengths

section Conversion

variable {Raw : Type} {decode : String → Raw → Option (List Char)}
  {parseHtml : List Char → List HtmlEvent} {raw : Raw} {encoding : String} {text : List Char}
  {rows : List (List String)}

theorem convertHtmlExport_of_rows
    (hencoding : (["cp949", "euc-kr"].find? fun e => (decode e raw).isSome) = some encoding)
    (htext : decode encoding raw = some text) (hrows : RowsOf (parseHtml text) rows) :
    convertHtmlExport decode parseHtml raw =
      match rows.filter (· ≠ []) with
      | [] => .error (valueError "KRX HTML export contains no table rows")
      | first :: rest =>
        if (first :: rest).any fun row => row.length ≠ first.length then
          .error (valueError "KRX HTML export has inconsistent table rows")
        else .ok (encoding, tableText (first :: rest)) := by
  have hparsed : (TableParser.feed {} (parseHtml text)).rows = rows.filter (· ≠ []) := by
    have hfeed := TableParser.feed_rows hrows []
    rw [List.nil_append] at hfeed
    exact congrArg TableParser.rows hfeed
  simp only [convertHtmlExport, hencoding, htext, Option.getD_some, hparsed]
  cases rows.filter (· ≠ []) with
  | nil => rfl
  | cons first rest => rfl

/-- The rows that have cells are converted if they are of one width, and what is converted is
read back as it was in the export. -/
theorem export_read_back
    (hencoding : (["cp949", "euc-kr"].find? fun e => (decode e raw).isSome) = some encoding)
    (htext : decode encoding raw = some text) (hrows : RowsOf (parseHtml text) rows) :
    (rows.filter (· ≠ []) = [] → convertHtmlExport decode parseHtml raw =
      .error (valueError "KRX HTML export contains no table rows")) ∧
    ∀ header body, rows.filter (· ≠ []) = header :: body →
      ((∃ row ∈ body, row.length ≠ header.length) → convertHtmlExport decode parseHtml raw =
        .error (valueError "KRX HTML export has inconsistent table rows")) ∧
      ((∀ row ∈ body, row.length = header.length) →
        convertHtmlExport decode parseHtml raw = .ok (encoding, tableText (header :: body)) ∧
        (Carried (header :: body) → ∃ table, readTable (tableText (header :: body)) = some table ∧
          table.fieldnames = header ∧ table.rows = body)) := by
  rw [convertHtmlExport_of_rows hencoding htext hrows]
  refine ⟨fun hnone => by rw [hnone], fun header body hsome => ⟨?_, ?_⟩⟩
  · rintro ⟨row, hrow, hne⟩
    have hany : ((header :: body).any fun row => row.length ≠ header.length) = true :=
      List.any_eq_true.mpr ⟨row, List.mem_cons_of_mem _ hrow, decide_eq_true hne⟩
    rw [hsome]
    exact if_pos hany
  · intro hwidth
    have hnone : ((header :: body).any fun row => row.length ≠ header.length) = false := by
      simpa using hwidth
    have hheader : header ≠ [] := by
      have hmem : header ∈ rows.filter (· ≠ []) := hsome ▸ List.mem_cons_self
      exact of_decide_eq_true (List.mem_filter.mp hmem).2
    refine ⟨?_, fun hcarried => readTable_tableText hcarried hwidth hheader⟩
    rw [hsome]
    exact if_neg (by rw [hnone]; decide)

end Conversion

/-- The events of a cell with one text. -/
def cellEvents (tag text : String) (rest : List HtmlEvent) : List HtmlEvent :=
  .startTag tag :: .data text :: .endTag tag :: rest

theorem cellsOf_cellEvents {tag : String} (htag : isCellTag tag) (text : String)
    {rest : List HtmlEvent} {cells : List String} (h : CellsOf rest cells) :
    CellsOf (cellEvents tag text rest) (cellText [text] :: cells) :=
  @CellsOf.cell [] [.data text] rest cells tag tag (by simp) htag (by simp [Inline]) htag h

theorem rowsOf_cells {events rest : List HtmlEvent} {cells : List String}
    {rows : List (List String)}
    (hcells : CellsOf events cells) (hrest : RowsOf rest rows) :
    RowsOf (.startTag "tr" :: (events ++ .endTag "tr" :: rest)) (cells :: rows) :=
  @RowsOf.row [] events rest cells rows (by simp) hcells hrest

/-- An export of two columns, with a row of all that has to be quoted. -/
def twoColumns : List HtmlEvent :=
  .startTag "tr" :: (cellEvents "th" "회사명" (cellEvents "th" " 주요제품 " []) ++ .endTag "tr" ::
    .startTag "tr" :: (cellEvents "td" "가,나" (cellEvents "td" "\"A\"\r\nB" []) ++
      .endTag "tr" :: []))

theorem export_read_back_two :
    convertHtmlExport (fun _ raw => some raw) (fun _ => twoColumns) "<table>".toList =
        .ok ("cp949", "회사명,주요제품\n\"가,나\",\"\"\"A\"\"\r\nB\"\n".toList) ∧
      ∃ table, readTable "회사명,주요제품\n\"가,나\",\"\"\"A\"\"\r\nB\"\n".toList = some table ∧
        table.fieldnames = ["회사명", "주요제품"] ∧ table.rows = [["가,나", "\"A\"\r\nB"]] := by
  have hth : isCellTag "th" := by decide
  have htd : isCellTag "td" := by decide
  have hcells : CellsOf [] [] := .done (by simp)
  have hend : RowsOf [] [] := .done (by simp)
  have hrows := rowsOf_cells (cellsOf_cellEvents hth "회사명"
    (cellsOf_cellEvents hth " 주요제품 " hcells))
      (rowsOf_cells (cellsOf_cellEvents htd "가,나"
        (cellsOf_cellEvents htd "\"A\"\r\nB" hcells)) hend)
  have hread := (@export_read_back (List Char) (fun _ raw => some raw) (fun _ => twoColumns)
    "<table>".toList "cp949" "<table>".toList _ rfl rfl hrows).2 ["회사명", "주요제품"]
      [["가,나", "\"A\"\r\nB"]] (by decide +kernel)
  have hwidths := hread.2 (by decide)
  have htext : tableText [["회사명", "주요제품"], ["가,나", "\"A\"\r\nB"]] =
      "회사명,주요제품\n\"가,나\",\"\"\"A\"\"\r\nB\"\n".toList := by decide +kernel
  rw [htext] at hwidths
  exact ⟨hwidths.1, hwidths.2 ⟨by decide +kernel, by decide +kernel⟩⟩

end Screener.Market
