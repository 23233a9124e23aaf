import Screener.Lib.Csv

/-!
# Writing comma-separated values

The writer puts a field in quotation marks only where it has to. What it writes is read back
as it was.
-/

namespace Screener.Lib.Csv

/-- What makes the writer quote a field: the delimiter, the quotation mark, what ends a line. -/
def special (c : Char) : Bool := c == ',' || c == '"' || c == '\n' || c == '\r'

/-- Quotation marks in a field are doubled. -/
def escape (field : List Char) : List Char :=
  field.flatMap fun c => if c = '"' then ['"', '"'] else [c]

/-- An empty field is quoted if it is the only one of its record. -/
def writeField (alone : Bool) (field : List Char) : List Char :=
  if field.any special || (alone && field.isEmpty) then '"' :: escape field ++ ['"'] else field

def writeRecord (record : List (List Char)) : List Char :=
  [','].intercalate (record.map (writeField (record.length == 1))) ++ ['\n']

def write (records : List (List (List Char))) : List Char := records.flatMap writeRecord

/-- A reader refuses fields of more characters than its limit. -/
def readWithin (limit : Nat) (text : List Char) : Option (List (List (List Char))) :=
  (read text).filter fun records => records.all fun record => record.all (·.length ≤ limit)

namespace Reader

/-- The records of what is left of a text. -/
def readText (r : Reader) (text : List Char) : Option (List (List (List Char))) :=
  readRecords r (lines text)

/-! ## One character -/

theorem lines_ordinary {c : Char} (hfeed : c ≠ '\n') (hreturn : c ≠ '\r') {rest : List Char}
    (hrest : rest ≠ []) : ∃ line more, lines rest = line :: more ∧
      lines (c :: rest) = (c :: line) :: more := by
  obtain ⟨line, more, hsplit⟩ : ∃ line more, lines rest = line :: more := by
    obtain ⟨d, rest, rfl⟩ := List.exists_cons_of_ne_nil hrest
    unfold lines
    split <;> (try split) <;> simp_all
  refine ⟨line, more, hsplit, ?_⟩
  rw [lines.eq_def]
  split
  case h_1 heq => cases heq
  case h_2 heq => exact absurd (List.cons.inj heq).1 hfeed
  case h_3 heq => exact absurd (List.cons.inj heq).1 hreturn
  case h_4 heq => exact absurd (List.cons.inj heq).1 hreturn
  case h_5 heq =>
    obtain ⟨rfl, rfl⟩ := List.cons.inj heq
    rw [hsplit]

theorem readLine_cons {r r' : Reader} {c : Char} (h : r.processChar c = some r')
    (line : List Char) :
    r.readLine (c :: line) = r'.readLine line := by
  rw [readLine, List.foldlM_cons, h]
  rfl

/-- A character that ends no line is read on its own, if the text goes on. -/
theorem readText_ordinary {r r' : Reader} {c : Char} (h : r.processChar c = some r')
    (hfeed : c ≠ '\n') (hreturn : c ≠ '\r') {rest : List Char} (hrest : rest ≠ []) :
    r.readText (c :: rest) = r'.readText rest := by
  obtain ⟨line, more, hsplit, hlines⟩ := lines_ordinary hfeed hreturn hrest
  rw [readText, readText, hlines, hsplit, readRecords, readRecords, readLine_cons h]

/-- In quotation marks it does not matter where a line ends. -/
theorem readText_quoted {c : Char} (hquote : c ≠ '"') (field : List Char)
    (fields : List (List Char)) {rest : List Char} (hrest : rest ≠ []) :
    (⟨.inQuotedField, field, fields⟩ : Reader).readText (c :: rest) =
      (⟨.inQuotedField, field ++ [c], fields⟩ : Reader).readText rest := by
  have hstep : ∀ d : Char, d ≠ '"' → ∀ before,
      processChar ⟨.inQuotedField, before, fields⟩ d =
        some ⟨.inQuotedField, before ++ [d], fields⟩ := by
    intro d hd before
    simp [processChar, addChar, hd]
  by_cases hfeed : c = '\n'
  · subst hfeed
    rw [readText, readText, lines, readRecords, readLine_cons (hstep _ hquote _)]
    rfl
  · by_cases hreturn : c = '\r'
    · subst hreturn
      cases rest with
      | nil => exact absurd rfl hrest
      | cons d rest =>
        by_cases hboth : d = '\n'
        · subst hboth
          rw [readText, readText, lines, lines, readRecords, readRecords,
            readLine_cons (hstep _ hquote _)]
        · rw [readText, readText, lines, readRecords, readLine_cons (hstep _ hquote _)]
          · rfl
          · intro _ hd
            exact hboth (List.cons.inj hd).1
    · exact readText_ordinary (hstep c hquote field) hfeed hreturn hrest

/-! ## One field -/

theorem readText_escaped (field more : List Char) (fields : List (List Char)) {rest : List Char}
    (hrest : rest ≠ []) :
    (⟨.inQuotedField, more, fields⟩ : Reader).readText (escape field ++ '"' :: rest) =
      (⟨.quoteInQuotedField, more ++ field, fields⟩ : Reader).readText rest := by
  induction field generalizing more with
  | nil =>
    rw [List.append_nil]
    exact readText_ordinary rfl (by decide) (by decide) hrest
  | cons c field ih =>
    have htail : escape field ++ '"' :: rest ≠ [] := by simp
    by_cases hquote : c = '"'
    · subst hquote
      have hfirst : processChar ⟨.inQuotedField, more, fields⟩ '"' =
          some ⟨.quoteInQuotedField, more, fields⟩ := rfl
      have hsecond : processChar ⟨.quoteInQuotedField, more, fields⟩ '"' =
          some ⟨.inQuotedField, more ++ ['"'], fields⟩ := rfl
      rw [escape, List.flatMap_cons, if_pos rfl, ← escape, List.append_assoc, List.cons_append,
        List.cons_append, List.nil_append,
        readText_ordinary hfirst (by decide) (by decide) (List.cons_ne_nil _ _),
        readText_ordinary hsecond (by decide) (by decide) htail, ih, List.append_assoc,
        List.singleton_append]
    · rw [escape, List.flatMap_cons, if_neg hquote, ← escape, List.append_assoc,
        List.singleton_append, readText_quoted hquote _ _ htail, ih, List.append_assoc,
        List.singleton_append]

theorem readText_plain {field : List Char} (h : ∀ c ∈ field, c ≠ '\n' ∧ c ≠ '\r' ∧ c ≠ ',')
    (more : List Char) (fields : List (List Char)) {rest : List Char} (hrest : rest ≠ []) :
    (⟨.inField, more, fields⟩ : Reader).readText (field ++ rest) =
      (⟨.inField, more ++ field, fields⟩ : Reader).readText rest := by
  induction field generalizing more with
  | nil => rw [List.append_nil, List.nil_append]
  | cons c field ih =>
    obtain ⟨⟨hfeed, hreturn, hcomma⟩, hfield⟩ := List.forall_mem_cons.mp h
    have hstep : processChar ⟨.inField, more, fields⟩ c = some ⟨.inField, more ++ [c], fields⟩ := by
      simp [processChar, isLineEnd, addChar, hfeed, hreturn, hcomma]
    rw [List.cons_append, readText_ordinary hstep hfeed hreturn (by simp [hrest]), ih hfield,
      List.append_assoc, List.singleton_append]

/-- What a reader is after a field: the field has been read, or it was empty and not quoted. -/
theorem readText_field (field : List Char) (alone : Bool) {start : State}
    (hstart : start = .startRecord ∨ start = .startField) (fields : List (List Char))
    {rest : List Char} (hrest : rest ≠ []) : ∃ state : State,
      (state = .inField ∨ state = .quoteInQuotedField ∨ state = start ∧ field = [] ∧
        alone = false) ∧
        (⟨start, [], fields⟩ : Reader).readText (writeField alone field ++ rest) =
          (⟨state, field, fields⟩ : Reader).readText rest := by
  by_cases hquoted : (field.any special || (alone && field.isEmpty)) = true
  · have hstep : processChar ⟨start, [], fields⟩ '"' = some ⟨.inQuotedField, [], fields⟩ := by
      rcases hstart with rfl | rfl <;> rfl
    refine ⟨.quoteInQuotedField, .inr (.inl rfl), ?_⟩
    rw [writeField, if_pos hquoted, List.append_assoc, List.cons_append, List.singleton_append,
      readText_ordinary hstep (by decide) (by decide) (by simp),
      readText_escaped field [] fields hrest, List.nil_append]
  · rw [writeField, if_neg hquoted]
    rw [Bool.or_eq_true, not_or, Bool.not_eq_true, Bool.not_eq_true] at hquoted
    obtain ⟨hplain, halone⟩ := hquoted
    cases field with
    | nil => exact ⟨start, .inr (.inr ⟨rfl, rfl, by simpa using halone⟩), rfl⟩
    | cons c field =>
      have hchars : ∀ d ∈ c :: field, d ≠ '\n' ∧ d ≠ '\r' ∧ d ≠ ',' ∧ d ≠ '"' := by
        intro d hd
        have hspecial := List.any_eq_false.mp hplain d hd
        simp only [special, Bool.or_eq_true, beq_iff_eq, not_or] at hspecial
        exact ⟨hspecial.1.2, hspecial.2, hspecial.1.1.1, hspecial.1.1.2⟩
      obtain ⟨⟨hfeed, hreturn, hcomma, hquote⟩, hmore⟩ := List.forall_mem_cons.mp hchars
      have hstep : processChar ⟨start, [], fields⟩ c = some ⟨.inField, [c], fields⟩ := by
        rcases hstart with rfl | rfl
        · simp [processChar, startField, isLineEnd, addChar, hfeed, hreturn, hcomma, hquote]
        · simp [processChar, startField, isLineEnd, addChar, hfeed, hreturn, hcomma, hquote]
      refine ⟨.inField, .inl rfl, ?_⟩
      rw [List.cons_append, readText_ordinary hstep hfeed hreturn (by simp [hrest]),
        readText_plain (fun d hd => ⟨(hmore d hd).1, (hmore d hd).2.1, (hmore d hd).2.2.1⟩) [c]
          fields hrest, List.singleton_append]

/-! ## One record -/

theorem readText_comma {state : State} {field : List Char} {fields : List (List Char)}
    (h : state = .inField ∨ state = .quoteInQuotedField ∨
      (state = .startRecord ∨ state = .startField) ∧ field = [])
    {rest : List Char} (hrest : rest ≠ []) :
    (⟨state, field, fields⟩ : Reader).readText (',' :: rest) =
      (⟨.startField, [], fields ++ [field]⟩ : Reader).readText rest := by
  refine readText_ordinary ?_ (by decide) (by decide) hrest
  rcases h with rfl | rfl | ⟨rfl | rfl, rfl⟩ <;> rfl

theorem readText_lineEnd {state : State} (field : List Char) (fields : List (List Char))
    (h : state = .inField ∨ state = .quoteInQuotedField ∨ state = .startField) (rest : List Char) :
    (⟨state, field, fields⟩ : Reader).readText ('\n' :: rest) =
      (read rest).map ((fields ++ [field]) :: ·) := by
  have hline : readLine ⟨state, field, fields⟩ ['\n'] =
      some ⟨.startRecord, [], fields ++ [field]⟩ := by
    rcases h with rfl | rfl | rfl <;> rfl
  rw [readText, lines, readRecords, hline, Option.bind_eq_bind, Option.bind_some, if_pos rfl,
    ← read]
  cases read rest <;> rfl

theorem readText_fields (field : List Char) (more fields : List (List Char)) (rest : List Char) :
    (⟨.startField, [], fields⟩ : Reader).readText
        ([','].intercalate ((field :: more).map (writeField false)) ++ '\n' :: rest) =
      (read rest).map ((fields ++ field :: more) :: ·) := by
  induction more generalizing field fields with
  | nil =>
    obtain ⟨state, hstate, hread⟩ := readText_field field false (.inr rfl) fields
      (List.cons_ne_nil '\n' rest)
    rw [List.map_singleton, List.intercalate_singleton, hread]
    refine readText_lineEnd field fields ?_ rest
    rcases hstate with rfl | rfl | ⟨rfl, -, -⟩ <;> simp
  | cons next more ih =>
    rw [List.map_cons, List.map_cons, List.intercalate_cons_cons, ← List.map_cons,
      List.append_assoc,
      List.append_assoc, List.singleton_append]
    obtain ⟨state, hstate, hread⟩ := readText_field field false (.inr rfl) fields
      (List.cons_ne_nil ',' ([','].intercalate ((next :: more).map (writeField false)) ++ '\n' ::
        rest))
    have hended : state = .inField ∨ state = .quoteInQuotedField ∨
        (state = .startRecord ∨ state = .startField) ∧ field = [] := by
      rcases hstate with rfl | rfl | ⟨rfl, hnil, -⟩ <;> simp_all
    rw [hread, readText_comma hended (by simp), ih, List.append_assoc, List.singleton_append]

theorem read_record (record : List (List Char)) (rest : List Char) :
    read (writeRecord record ++ rest) = (read rest).map (record :: ·) := by
  change readText {} _ = _
  rw [writeRecord, List.append_assoc, List.singleton_append]
  match record with
  | [] =>
    have hline : readLine {} ['\n'] = some ⟨.startRecord, [], []⟩ := rfl
    rw [List.map_nil, List.intercalate_nil, List.nil_append, readText, lines, readRecords, hline,
      Option.bind_eq_bind, Option.bind_some, if_pos rfl, ← read]
    cases read rest <;> rfl
  | [field] =>
    obtain ⟨state, hstate, hread⟩ := readText_field field true (.inl rfl) []
      (List.cons_ne_nil '\n' rest)
    rw [List.map_singleton, List.intercalate_singleton]
    refine hread.trans (readText_lineEnd field [] ?_ rest)
    rcases hstate with rfl | rfl | ⟨-, -, hfalse⟩
    · exact .inl rfl
    · exact .inr (.inl rfl)
    · cases hfalse
  | field :: next :: more =>
    have hsingle : ((field :: next :: more).length == 1) = false := rfl
    rw [hsingle, List.map_cons, List.map_cons, List.intercalate_cons_cons, ← List.map_cons,
      List.append_assoc, List.append_assoc, List.singleton_append]
    obtain ⟨state, hstate, hread⟩ := readText_field field false (.inl rfl) []
      (List.cons_ne_nil ',' ([','].intercalate ((next :: more).map (writeField false)) ++ '\n' ::
        rest))
    have hended : state = .inField ∨ state = .quoteInQuotedField ∨
        (state = .startRecord ∨ state = .startField) ∧ field = [] := by
      rcases hstate with rfl | rfl | ⟨rfl, hnil, -⟩ <;> simp_all
    refine hread.trans ?_
    rw [readText_comma hended (by simp), readText_fields, List.nil_append,
      List.singleton_append]

end Reader

/-! ## The round trip -/

/-- What is written is read back. -/
theorem read_write (records : List (List (List Char))) : read (write records) = some records := by
  induction records with
  | nil => rfl
  | cons record records ih =>
    rw [write, List.flatMap_cons, ← write, Reader.read_record, ih]
    rfl

theorem readWithin_write {limit : Nat} {records : List (List (List Char))}
    (hshort : ∀ record ∈ records, ∀ field ∈ record, field.length ≤ limit) :
    readWithin limit (write records) = some records := by
  rw [readWithin, read_write, Option.filter_some, if_pos]
  simpa only [List.all_eq_true, decide_eq_true_eq] using hshort

end Screener.Lib.Csv
