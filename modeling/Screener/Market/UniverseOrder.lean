import Mathlib.Data.List.Sort
import Screener.Market.UniverseIntake

/-!
# The universe and the order of the rows

The row that comes first decides the category of its symbol, and rows of one symbol have to
agree on the name and the market only.
-/

namespace Screener.Market

open Screener.Lib

variable {rows : List KrxRow} {s s' : Intake} {table table' : KrxTable} {symbol : Symbol}

/-- The rows of the other table in another order. -/
def Reordered (table table' : KrxTable) : Prop :=
  table'.fieldnames = table.fieldnames ∧ table'.rows.Perm table.rows

/-- Both builds raise, or both return the same. -/
def SameBuild (table table' : KrxTable) : Prop :=
  (∃ e e', buildUniverse table = .error e ∧ buildUniverse table' = .error e') ∨
    ∃ r, buildUniverse table = .ok r ∧ buildUniverse table' = .ok r

/-- The rows of a symbol are excluded by the same rule, or not at all. -/
def OneCategory (rows : List KrxRow) : Prop := ∀ a ∈ rows, ∀ b ∈ rows,
  symbolPattern a.symbol = true → a.symbol = b.symbol → exclusionCategory a = exclusionCategory b

/-! ## Reordered tables -/

theorem Reordered.kospi_perm (h : Reordered table table') : table'.kospi.Perm table.kospi := by
  rw [KrxTable.kospi, KrxTable.kospi, KrxTable.records, KrxTable.records, h.1]
  exact (h.2.map _).filter _

theorem Reordered.hasColumns_iff (h : Reordered table table') :
    table'.HasColumns ↔ table.HasColumns := by
  rw [KrxTable.HasColumns, KrxTable.HasColumns, h.1]

theorem Reordered.agreeing_iff (h : Reordered table table') :
    Agreeing table'.kospi ↔ Agreeing table.kospi := by
  simp only [Agreeing, h.kospi_perm.mem_iff]

theorem build_completes_iff : (∃ r, buildUniverse table = .ok r) ↔
    table.HasColumns ∧ Agreeing table.kospi := by
  rw [agreeing_iff_run]
  simp only [buildUniverse_ok]
  constructor
  · rintro ⟨r, hcolumns, s, hs, -⟩
    exact ⟨hcolumns, s, hs⟩
  · rintro ⟨hcolumns, s, hs⟩
    exact ⟨_, hcolumns, s, hs, rfl⟩

theorem build_raises (h : ¬(table.HasColumns ∧ Agreeing table.kospi)) :
    ∃ e, buildUniverse table = .error e := by
  cases hbuild : buildUniverse table with
  | error e => exact ⟨e, rfl⟩
  | ok r => exact absurd (build_completes_iff.mp ⟨r, hbuild⟩) h

theorem Reordered.completes_iff (h : Reordered table table') :
    (table'.HasColumns ∧ Agreeing table'.kospi) ↔ (table.HasColumns ∧ Agreeing table.kospi) :=
  and_congr h.hasColumns_iff h.agreeing_iff

theorem sameBuild_of_raises (h : Reordered table table')
    (hnot : ¬(table.HasColumns ∧ Agreeing table.kospi)) : SameBuild table table' := by
  obtain ⟨e, he⟩ := build_raises hnot
  obtain ⟨e', he'⟩ := build_raises (mt h.completes_iff.mp hnot)
  exact .inl ⟨e, e', he, he'⟩

/-! ## One category for each symbol -/

theorem Intake.places_nodup (s : Intake) : s.places.Nodup :=
  List.Nodup.of_map Prod.fst (s.places_keys ▸ s.bySymbol.keys_nodup)

theorem Taken.mem_places_iff (h : Taken rows s) (hone : OneCategory rows)
    {category : Option ExclusionCategory} : (symbol, category) ∈ s.places ↔
      ∃ row ∈ rows, symbolPattern row.symbol = true ∧ row.symbol = symbol ∧
        exclusionCategory row = category := by
  rw [h.mem_places]
  constructor
  · rintro ⟨row, hfirst, hcategory⟩
    obtain ⟨hmem, hpattern, hsymbol⟩ := firstRow_eq_some hfirst
    exact ⟨row, hmem, hpattern, hsymbol, hcategory⟩
  · rintro ⟨row, hmem, hpattern, hsymbol, hcategory⟩
    obtain ⟨first, hfirst⟩ := Option.isSome_iff_exists.mp
      (firstRow_isSome.mpr ⟨row, hmem, hpattern, hsymbol⟩)
    obtain ⟨hmem', hpattern', hsymbol'⟩ := firstRow_eq_some hfirst
    refine ⟨first, hfirst, ?_⟩
    rw [hone first hmem' row hmem hpattern' (hsymbol'.trans hsymbol.symm), hcategory]

theorem places_perm (h : Reordered table table') (hone : OneCategory table.kospi)
    (hs : Taken table.kospi s) (hs' : Taken table'.kospi s') : s'.places.Perm s.places := by
  have hone' : OneCategory table'.kospi := by
    simpa only [OneCategory, h.kospi_perm.mem_iff] using hone
  refine (List.perm_ext_iff_of_nodup s'.places_nodup s.places_nodup).mpr fun place => ?_
  obtain ⟨symbol, category⟩ := place
  rw [hs'.mem_places_iff hone', hs.mem_places_iff hone]
  simp only [h.kospi_perm.mem_iff]

theorem sort_perm {symbols symbols' : List Symbol} (h : symbols'.Perm symbols) :
    symbols'.insertionSort (· ≤ ·) = symbols.insertionSort (· ≤ ·) := by
  have hsorted := fun l : List Symbol => List.pairwise_insertionSort (· ≤ ·) l
  have hperm : (symbols'.insertionSort (· ≤ ·)).Perm (symbols.insertionSort (· ≤ ·)) :=
    (List.perm_insertionSort _ _).trans (h.trans (List.perm_insertionSort _ _).symm)
  exact hperm.eq_of_pairwise (fun _ _ _ _ => le_antisymm) (hsorted _) (hsorted _)

/-- The result is one of the places and of the counts of rows. -/
theorem result_eq (h : Reordered table table') (hs : Taken table.kospi s)
    (hs' : Taken table'.kospi s') (hplaces : s'.places.Perm s.places) :
    s'.result table' = s.result table := by
  have hkospi := h.kospi_perm
  have hsize : s'.bySymbol.size = s.bySymbol.size := by
    rw [size_places, size_places, hplaces.length_eq]
  have hmalformed : s'.malformed = s.malformed := by
    rw [hs'.malformed, hs.malformed, hkospi.countP_eq]
  have halphanumeric : s'.alphanumeric = s.alphanumeric := by
    rw [hs'.alphanumeric, hs.alphanumeric, hkospi.countP_eq]
  have hduplicates : s'.duplicates = s.duplicates := by
    have haccounted := hs.accounted
    have haccounted' := hs'.accounted
    rw [hkospi.length_eq] at haccounted'
    omega
  have hsymbols := sort_perm ((hplaces.filter fun place => decide (place.2 = none)).map Prod.fst)
  unfold Intake.result
  rw [hsymbols, hsize, hmalformed, halphanumeric, hduplicates, hkospi.length_eq, h.2.length_eq]
  simp only [hplaces.countP_eq]

/-! ## Two categories of a symbol -/

/-- The symbols of a category, or of none. -/
def BuildResult.count (r : BuildResult) : Option ExclusionCategory → Nat
  | none => r.symbols.length
  | some category => r.exclusions category

theorem count_result (s : Intake) (table : KrxTable) (category : Option ExclusionCategory) :
    (s.result table).count category = s.places.countP (·.2 = category) := by
  cases category with
  | none => exact length_result_symbols s table
  | some category => rfl

/-- Two intakes that differ in the category of one symbol only count it apart. -/
theorem count_ne {a b : KrxRow} {others : List KrxRow} (hpattern : symbolPattern a.symbol = true)
    (hsymbol : a.symbol = b.symbol) (hcategory : exclusionCategory a ≠ exclusionCategory b)
    (hs : Taken (a :: b :: others) s) (hs' : Taken (b :: a :: others) s') :
    s.places.countP (·.2 = exclusionCategory a) ≠ s'.places.countP (·.2 = exclusionCategory a) := by
  have hfirst : firstRow (a :: b :: others) a.symbol = some a := by simp [firstRow, hpattern]
  have hfirst' : firstRow (b :: a :: others) a.symbol = some b := by
    simp [firstRow, hsymbol ▸ hpattern, hsymbol]
  have hrest : ∀ symbol, symbol ≠ a.symbol →
      firstRow (a :: b :: others) symbol = firstRow (b :: a :: others) symbol := by
    intro symbol hne
    have hne' : b.symbol ≠ symbol := fun heq => hne (heq.symm.trans hsymbol.symm)
    simp [firstRow, Ne.symm hne, hne']
  have hmem : (a.symbol, exclusionCategory a) ∈ s.places := hs.mem_places.mpr ⟨a, hfirst, rfl⟩
  have hmem' : (a.symbol, exclusionCategory b) ∈ s'.places := hs'.mem_places.mpr ⟨b, hfirst', rfl⟩
  have hothers : (s.places.erase (a.symbol, exclusionCategory a)).Perm
      (s'.places.erase (a.symbol, exclusionCategory b)) := by
    refine (List.perm_ext_iff_of_nodup (s.places_nodup.erase _) (s'.places_nodup.erase _)).mpr ?_
    rintro ⟨symbol, category⟩
    rw [s.places_nodup.mem_erase_iff, s'.places_nodup.mem_erase_iff, hs.mem_places, hs'.mem_places]
    by_cases hsame : symbol = a.symbol
    · subst hsame
      simp only [hfirst, hfirst', Option.some.injEq, exists_eq_left']
      constructor
      · rintro ⟨hne, rfl⟩
        exact absurd rfl hne
      · rintro ⟨hne, rfl⟩
        exact absurd rfl hne
    · rw [hrest symbol hsame]
      simp [hsame]
  have hcount := (List.perm_cons_erase hmem).countP_eq fun place =>
    decide (place.2 = exclusionCategory a)
  have hcount' := (List.perm_cons_erase hmem').countP_eq fun place =>
    decide (place.2 = exclusionCategory a)
  rw [List.countP_cons_of_pos (by simp)] at hcount
  rw [List.countP_cons_of_neg (by simpa using Ne.symm hcategory)] at hcount'
  rw [hcount, hcount', hothers.countP_eq]
  omega

/-- The table with its rows in another order. -/
def KrxTable.reorder (table : KrxTable) (rows : List (List String)) (h : rows.Perm table.rows) :
    KrxTable := ⟨table.fieldnames, rows, fun row hrow => table.widths row (h.mem_iff.mp hrow)⟩

/-- Two rows of the table may come first, in either order. -/
theorem exists_reordered {a b : KrxRow} (ha : a ∈ table.kospi) (hb : b ∈ table.kospi)
    (hne : a ≠ b) :
    ∃ first second others, Reordered table first ∧ Reordered table second ∧
      first.kospi = a :: b :: others ∧ second.kospi = b :: a :: others := by
  obtain ⟨hrecord, hkospi⟩ := List.mem_filter.mp ha
  obtain ⟨hrecord', hkospi'⟩ := List.mem_filter.mp hb
  obtain ⟨x, hx, rfl⟩ := List.mem_map.mp hrecord
  obtain ⟨y, hy, rfl⟩ := List.mem_map.mp hrecord'
  have hxy : y ≠ x := fun heq => hne (heq ▸ rfl)
  have hfirst : (x :: y :: (table.rows.erase x).erase y).Perm table.rows :=
    ((List.perm_cons_erase ((List.mem_erase_of_ne hxy).mpr hy)).symm.cons x).trans
      (List.perm_cons_erase hx).symm
  have hsecond : (y :: x :: (table.rows.erase x).erase y).Perm table.rows :=
    (List.Perm.swap x y _).trans hfirst
  refine ⟨table.reorder _ hfirst, table.reorder _ hsecond,
    (((table.rows.erase x).erase y).map (KrxTable.record table.fieldnames)).filter (·.isKospi),
    ⟨rfl, hfirst⟩, ⟨rfl, hsecond⟩, ?_, ?_⟩
  · simp only [KrxTable.kospi, KrxTable.records, KrxTable.reorder, List.map_cons]
    rw [List.filter_cons_of_pos hkospi, List.filter_cons_of_pos hkospi']
  · simp only [KrxTable.kospi, KrxTable.records, KrxTable.reorder, List.map_cons]
    rw [List.filter_cons_of_pos hkospi', List.filter_cons_of_pos hkospi]

theorem oneCategory_of_order_free (hcolumns : table.HasColumns) (hagreeing : Agreeing table.kospi)
    (hfree : ∀ table', Reordered table table' → SameBuild table table') :
    OneCategory table.kospi := by
  obtain ⟨r, hr⟩ := build_completes_iff.mpr ⟨hcolumns, hagreeing⟩
  have hbuild : ∀ table', Reordered table table' → buildUniverse table' = .ok r := by
    intro table' h
    obtain ⟨e, -, he, -⟩ | ⟨r', hr', hbuild⟩ := hfree table' h
    · rw [hr] at he
      cases he
    · rw [hr, Except.ok.injEq] at hr'
      exact hr' ▸ hbuild
  intro a ha b hb hpattern hsymbol
  by_contra hcategory
  have hne : a ≠ b := fun heq => hcategory (congrArg exclusionCategory heq)
  obtain ⟨first, second, others, hfirst, hsecond, hkospi, hkospi'⟩ := exists_reordered ha hb hne
  obtain ⟨-, s, hs, hresult⟩ := buildUniverse_ok.mp (hbuild first hfirst)
  obtain ⟨-, s', hs', hresult'⟩ := buildUniverse_ok.mp (hbuild second hsecond)
  refine count_ne hpattern hsymbol hcategory (hkospi ▸ taken_of_run hs) (hkospi' ▸ taken_of_run hs')
    ?_
  rw [← count_result s first, ← count_result s' second, hresult, hresult']

theorem sameBuild_of_oneCategory (h : Reordered table table') (hone : OneCategory table.kospi) :
    SameBuild table table' := by
  by_cases hok : table.HasColumns ∧ Agreeing table.kospi
  · obtain ⟨r, hr⟩ := build_completes_iff.mpr hok
    obtain ⟨r', hr'⟩ := build_completes_iff.mpr (h.completes_iff.mpr hok)
    obtain ⟨-, s, hs, rfl⟩ := buildUniverse_ok.mp hr
    obtain ⟨-, s', hs', rfl⟩ := buildUniverse_ok.mp hr'
    have htaken := taken_of_run hs
    have htaken' := taken_of_run hs'
    have hresult := result_eq h htaken htaken' (places_perm h hone htaken htaken')
    exact .inr ⟨s.result table, hr, hresult ▸ hr'⟩
  · exact sameBuild_of_raises h hok

/-- The order of the rows does not matter where a column is missing, two rows of a symbol
conflict, or the rows of each symbol have one category. -/
theorem order_free_iff (table : KrxTable) :
    (∀ table', Reordered table table' → SameBuild table table') ↔
      ¬table.HasColumns ∨ ¬Agreeing table.kospi ∨ OneCategory table.kospi := by
  constructor
  · intro hfree
    by_cases hcolumns : table.HasColumns
    · by_cases hagreeing : Agreeing table.kospi
      · exact .inr (.inr (oneCategory_of_order_free hcolumns hagreeing hfree))
      · exact .inr (.inl hagreeing)
    · exact .inl hcolumns
  · rintro (hcolumns | hagreeing | hone) table' h
    · exact sameBuild_of_raises h fun hboth => hcolumns hboth.1
    · exact sameBuild_of_raises h fun hboth => hagreeing hboth.2
    · exact sameBuild_of_oneCategory h hone

/-- Two rows of one company, one of which names a fund among its products. -/
theorem order_matters :
    let plain := ["회사", "유가", "005930", "제조업", "제품"]
    let fund := ["회사", "유가", "005930", "제조업", "ETF"]
    let table : KrxTable := ⟨requiredColumns, [plain, fund], by decide⟩
    let table' : KrxTable := ⟨requiredColumns, [fund, plain], by decide⟩
    Reordered table table' ∧ ¬SameBuild table table' ∧
      (buildUniverse table).toOption.map (·.symbols) = some ["005930"] ∧
      (buildUniverse table').toOption.map (·.symbols) = some [] := by
  intro plain fund table table'
  have hplain : (buildUniverse table).toOption.map (·.symbols) =
      some ["005930"] := by decide +kernel
  have hfund : (buildUniverse table').toOption.map (·.symbols) = some [] := by decide +kernel
  refine ⟨⟨rfl, List.Perm.swap plain fund []⟩, ?_, hplain, hfund⟩
  rintro (⟨e, e', he, -⟩ | ⟨r, hr, hr'⟩)
  · rw [he] at hplain
    cases hplain
  · rw [hr] at hplain
    rw [hr'] at hfund
    exact absurd (hplain.symm.trans hfund) (by decide)

end Screener.Market
