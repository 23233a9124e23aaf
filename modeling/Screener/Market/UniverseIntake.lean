import Mathlib.Data.List.Sort
import Screener.Lib.Loop
import Screener.Market.KrxUniverse

/-!
# What the universe is built from

The first loop keeps the first row of each symbol and counts every other row once; the
second loop puts each symbol into one place.
-/

namespace Screener.Market

open Screener.Lib

variable {rows : List KrxRow} {row : KrxRow} {s t : Intake} {symbol : Symbol}

/-! ## The first loop -/

/-- The row that is kept for a symbol. -/
def firstRow (rows : List KrxRow) (symbol : Symbol) : Option KrxRow :=
  rows.find? fun row => symbolPattern row.symbol && row.symbol == symbol

/-- The rows of a symbol have one name and one market. -/
def Agreeing (rows : List KrxRow) : Prop := ∀ a ∈ rows, ∀ b ∈ rows,
  symbolPattern a.symbol = true → a.symbol = b.symbol → a.identity = b.identity

theorem firstRow_eq_some {first : KrxRow} (h : firstRow rows symbol = some first) :
    first ∈ rows ∧ symbolPattern first.symbol = true ∧ first.symbol = symbol := by
  have hfound := List.find?_some h
  simp only [Bool.and_eq_true, beq_iff_eq] at hfound
  exact ⟨List.mem_of_find?_eq_some h, hfound⟩

theorem firstRow_isSome : (firstRow rows symbol).isSome ↔
    ∃ row ∈ rows, symbolPattern row.symbol = true ∧ row.symbol = symbol := by
  simp [firstRow]

theorem firstRow_concat (rows : List KrxRow) (row : KrxRow) (symbol : Symbol) :
    firstRow (rows ++ [row]) symbol = (firstRow rows symbol).or
      (if symbolPattern row.symbol && row.symbol == symbol then some row else none) := by
  rw [firstRow, List.find?_append, ← firstRow, List.find?_singleton]

/-- What a row can do. -/
theorem addRow_ok : addRow s row = .ok t ↔
    (symbolPattern row.symbol = false ∧ t = { s with malformed := s.malformed + 1 }) ∨
    symbolPattern row.symbol = true ∧
      ((∃ previous, s.bySymbol.get? row.symbol = some previous ∧ previous.identity = row.identity ∧
        t = { s with
          duplicates := s.duplicates + 1
          alphanumeric := if isDigits row.symbol then s.alphanumeric else s.alphanumeric + 1 }) ∨
      (s.bySymbol.get? row.symbol = none ∧
        t = { s with
          bySymbol := s.bySymbol.set row.symbol row
          alphanumeric := if isDigits row.symbol then s.alphanumeric else s.alphanumeric +
            1 })) := by
  unfold addRow
  cases hpattern : symbolPattern row.symbol with
  | false => simp [eq_comm (a := t)]
  | true =>
    cases hprevious : s.bySymbol.get? row.symbol with
    | none => simp [eq_comm (a := t)]
    | some previous =>
      by_cases hsame : previous.identity = row.identity
      · simp [hsame, eq_comm (a := t)]
      · simp [hsame]

/-- What the loop has made of the rows. -/
structure Taken (rows : List KrxRow) (s : Intake) : Prop where
  first : ∀ symbol, s.bySymbol.get? symbol = firstRow rows symbol
  malformed : s.malformed = rows.countP fun row => !symbolPattern row.symbol
  alphanumeric : s.alphanumeric = rows.countP fun row =>
    symbolPattern row.symbol && !isDigits row.symbol
  accounted : s.bySymbol.size + s.duplicates + s.malformed = rows.length
  agreeing : Agreeing rows

theorem taken_nil : Taken [] {} where
  first _ := rfl
  malformed := rfl
  alphanumeric := rfl
  accounted := rfl
  agreeing := by simp [Agreeing]

/-- A row that agrees with the first one of its symbol agrees with all of them. -/
theorem Agreeing.concat (h : Agreeing rows)
    (hrow : symbolPattern row.symbol = true → ∀ first, firstRow rows row.symbol = some first →
      first.identity = row.identity) : Agreeing (rows ++ [row]) := by
  have hlast : ∀ a ∈ rows, symbolPattern a.symbol = true → a.symbol = row.symbol →
      a.identity = row.identity := by
    intro a ha hpattern hsymbol
    have hsome : (firstRow rows row.symbol).isSome := firstRow_isSome.mpr ⟨a, ha, hpattern, hsymbol⟩
    obtain ⟨first, hfirst⟩ := Option.isSome_iff_exists.mp hsome
    obtain ⟨hmem, hproper, hsame⟩ := firstRow_eq_some hfirst
    rw [h a ha first hmem hpattern (hsymbol.trans hsame.symm)]
    exact hrow (hsymbol ▸ hpattern) first hfirst
  intro a ha b hb hpattern hsymbol
  rcases List.mem_append.mp ha with hin | hlatest
  · rcases List.mem_append.mp hb with hin' | hlatest
    · exact h a hin b hin' hpattern hsymbol
    · obtain rfl := List.mem_singleton.mp hlatest
      exact hlast a hin hpattern hsymbol
  · obtain rfl := List.mem_singleton.mp hlatest
    rcases List.mem_append.mp hb with hin' | hlatest'
    · exact (hlast b hin' (hsymbol ▸ hpattern) hsymbol.symm).symm
    · rw [List.mem_singleton.mp hlatest']

theorem Taken.step (h : Taken rows s) (hstep : addRow s row = .ok t) : Taken (rows ++ [row]) t := by
  obtain ⟨hpattern, rfl⟩ | ⟨hpattern, ⟨previous, hget, hsame, rfl⟩ | ⟨hget, rfl⟩⟩ :=
    addRow_ok.mp hstep
  · constructor
    case first =>
      intro symbol
      simp [firstRow_concat, hpattern, h.first]
    case malformed => simp [h.malformed, hpattern]
    case alphanumeric => simp [h.alphanumeric, hpattern]
    case accounted =>
      have haccounted := h.accounted
      simp only [List.length_append, List.length_singleton]
      omega
    case agreeing =>
      refine h.agreeing.concat fun htrue => ?_
      rw [hpattern] at htrue
      cases htrue
  · constructor
    case first =>
      intro symbol
      rw [firstRow_concat, h.first]
      by_cases hsymbol : row.symbol = symbol
      · rw [← hsymbol, ← h.first, hget, Option.some_or]
      · simp [hsymbol]
    case malformed => simp [h.malformed, hpattern]
    case alphanumeric =>
      cases hdigits : isDigits row.symbol <;> simp [h.alphanumeric, hpattern, hdigits]
    case accounted =>
      have haccounted := h.accounted
      simp only [List.length_append, List.length_singleton]
      omega
    case agreeing =>
      refine h.agreeing.concat fun _ first hfirst => ?_
      rw [← h.first, hget] at hfirst
      exact Option.some.inj hfirst ▸ hsame
  · constructor
    case first =>
      intro symbol
      rw [firstRow_concat, Dict.get?_set, h.first]
      by_cases hsymbol : symbol = row.symbol
      · rw [if_pos hsymbol, hsymbol, ← h.first, hget]
        simp [hpattern]
      · rw [if_neg hsymbol]
        simp [Ne.symm hsymbol]
    case malformed => simp [h.malformed, hpattern]
    case alphanumeric =>
      cases hdigits : isDigits row.symbol <;> simp [h.alphanumeric, hpattern, hdigits]
    case accounted =>
      have haccounted := h.accounted
      rw [Dict.size_set_of_not_mem (Dict.get?_eq_none.mp hget)]
      simp only [List.length_append, List.length_singleton]
      omega
    case agreeing =>
      refine h.agreeing.concat fun _ first hfirst => ?_
      rw [← h.first, hget] at hfirst
      cases hfirst

theorem taken_of_run (h : rows.foldlM addRow {} = .ok s) : Taken rows s :=
  foldlM_prefix_invariant Taken rows (fun _ _ _ _ _ _ htaken hstep => htaken.step hstep) h taken_nil

/-- The loop completes where the rows of each symbol agree. -/
theorem run_of_agreeing (h : Agreeing rows) : ∃ s, rows.foldlM addRow {} = .ok s := by
  induction rows using List.reverseRecOn with
  | nil => exact ⟨{}, rfl⟩
  | append_singleton rows row ih =>
    obtain ⟨s, hs⟩ := ih fun a ha b hb =>
      h a (List.mem_append_left _ ha) b (List.mem_append_left _ hb)
    have htaken := taken_of_run hs
    suffices hstep : ∃ t, addRow s row = .ok t by
      obtain ⟨t, ht⟩ := hstep
      exact ⟨t, foldlM_append_ok.mpr ⟨s, hs, foldlM_cons_ok.mpr ⟨t, ht, foldlM_nil_ok.mpr rfl⟩⟩⟩
    cases hpattern : symbolPattern row.symbol with
    | false => exact ⟨_, addRow_ok.mpr (.inl ⟨hpattern, rfl⟩)⟩
    | true =>
      cases hget : s.bySymbol.get? row.symbol with
      | none => exact ⟨_, addRow_ok.mpr (.inr ⟨hpattern, .inr ⟨hget, rfl⟩⟩)⟩
      | some previous =>
        have hfirst := (htaken.first row.symbol).symm.trans hget
        obtain ⟨hmem, hproper, hsymbol⟩ := firstRow_eq_some hfirst
        have hsame : previous.identity = row.identity :=
          h previous (List.mem_append_left _ hmem) row (List.mem_append_right _ List.mem_cons_self)
            hproper hsymbol
        exact ⟨_, addRow_ok.mpr (.inr ⟨hpattern, .inl ⟨previous, hget, hsame, rfl⟩⟩)⟩

theorem agreeing_iff_run : Agreeing rows ↔ ∃ s, rows.foldlM addRow {} = .ok s :=
  ⟨run_of_agreeing, fun ⟨_, hs⟩ => (taken_of_run hs).agreeing⟩

/-! ## The second loop -/

/-- The symbols with the categories that exclude them. -/
def Intake.places (s : Intake) : List (Symbol × Option ExclusionCategory) :=
  s.bySymbol.entries.map fun entry => (entry.1, exclusionCategory entry.2)

theorem Intake.places_keys (s : Intake) : s.places.map Prod.fst = s.bySymbol.keys := by
  rw [places, List.map_map]
  rfl

theorem Taken.mem_places (h : Taken rows s) {category : Option ExclusionCategory} :
    (symbol, category) ∈ s.places ↔
      ∃ row, firstRow rows symbol = some row ∧ exclusionCategory row = category := by
  simp only [Intake.places, List.mem_map, Prod.exists, Prod.mk.injEq, ← h.first, Dict.get?_eq_some]
  constructor
  · rintro ⟨_, row, hentry, rfl, hcategory⟩
    exact ⟨row, hentry, hcategory⟩
  · rintro ⟨row, hentry, hcategory⟩
    exact ⟨symbol, row, hentry, rfl, hcategory⟩

theorem foldl_classify (entries : List (Symbol × KrxRow)) (sifted : Sifted) :
    entries.foldl classify sifted =
      { symbols := sifted.symbols ++
          (entries.filter fun entry => exclusionCategory entry.2 = none).map Prod.fst
        exclusions := fun category => sifted.exclusions category +
          entries.countP fun entry => exclusionCategory entry.2 = some category } := by
  induction entries generalizing sifted with
  | nil => simp
  | cons entry entries ih =>
    rw [List.foldl_cons, ih]
    cases hcategory : exclusionCategory entry.2 with
    | none => simp [classify, hcategory]
    | some category =>
      have hcounts : ∀ other, Function.update sifted.exclusions category
          (sifted.exclusions category + 1) other =
            sifted.exclusions other + if category = other then 1 else 0 := by
        intro other
        by_cases hsame : category = other
        · subst hsame
          simp
        · simp [hsame, Function.update_of_ne (Ne.symm hsame)]
      simp only [classify, hcategory, hcounts, List.countP_cons, List.filter_cons]
      simp [add_assoc, add_comm, add_left_comm]

/-! ## The build -/

def KrxTable.kospi (table : KrxTable) : List KrxRow := table.records.filter (·.isKospi)

def KrxTable.HasColumns (table : KrxTable) : Prop :=
  ∀ column ∈ requiredColumns, column ∈ table.fieldnames

instance (table : KrxTable) : Decidable table.HasColumns := by
  unfold KrxTable.HasColumns
  infer_instance

/-- The result of both loops. -/
def Intake.result (s : Intake) (table : KrxTable) : BuildResult where
  symbols := ((s.places.filter (·.2 = none)).map Prod.fst).insertionSort (· ≤ ·)
  sourceRows := table.rows.length
  kospiRows := table.kospi.length
  uniqueSymbols := s.bySymbol.size
  duplicateRows := s.duplicates
  alphanumericSymbols := s.alphanumeric
  malformedSymbols := s.malformed
  exclusions category := s.places.countP (·.2 = some category)

theorem size_places (s : Intake) : s.bySymbol.size = s.places.length := by
  rw [Intake.places, List.length_map]
  rfl

theorem length_result_symbols (s : Intake) (table : KrxTable) :
    (s.result table).symbols.length = s.places.countP (·.2 = none) := by
  rw [Intake.result, (List.perm_insertionSort _ _).length_eq, List.length_map,
    List.countP_eq_length_filter]

def missingColumns : PyException := valueError "normalized KRX CSV is missing required columns"

theorem buildUniverse_eq (table : KrxTable) : buildUniverse table =
    if table.HasColumns then (table.kospi.foldlM addRow {}).map (·.result table)
    else .error missingColumns := by
  have hcolumns : (requiredColumns.any fun column => !table.fieldnames.contains column) = true ↔
      ¬table.HasColumns := by simp [KrxTable.HasColumns]
  unfold buildUniverse
  by_cases h : table.HasColumns
  · rw [if_neg (hcolumns.not.mpr (not_not.mpr h)), if_pos h]
    have hresult : ∀ s : Intake, s.result table =
        { symbols := (s.bySymbol.entries.foldl classify {}).symbols.insertionSort (· ≤ ·)
          sourceRows := table.records.length
          kospiRows := table.kospi.length
          uniqueSymbols := s.bySymbol.size
          duplicateRows := s.duplicates
          alphanumericSymbols := s.alphanumeric
          malformedSymbols := s.malformed
          exclusions := (s.bySymbol.entries.foldl classify {}).exclusions } := by
      intro s
      rw [foldl_classify]
      simp [Intake.result, Intake.places, List.filter_map, Function.comp_def, List.countP_map,
        KrxTable.records]
    simp only [hresult]
    rfl
  · rw [if_pos (hcolumns.mpr h), if_neg h]
    rfl

theorem buildUniverse_ok {table : KrxTable} {r : BuildResult} : buildUniverse table = .ok r ↔
    table.HasColumns ∧ ∃ s, table.kospi.foldlM addRow {} = .ok s ∧ s.result table = r := by
  rw [buildUniverse_eq]
  by_cases h : table.HasColumns
  · rw [if_pos h, map_ok]
    exact (and_iff_right h).symm
  · rw [if_neg h]
    simp [h]

end Screener.Market
