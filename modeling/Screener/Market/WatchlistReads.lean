import Screener.Market.DailyRun
import Screener.Market.PipelineEnvelope

/-!
# The reads of a watchlist

`exists`, `history`, `latest` and the endpoint of the results agree for every state
of the two tables on which dates have a result. `GET /watchlist/{date}` asks for the
entries first and for a result only where there are none.
-/

namespace Screener.Market

open Screener.Lib

/-! ## The reads -/

namespace PipelineDb

variable (db : PipelineDb)

/-- The tables as the reads of one moment see them. -/
def system : System := ⟨db.executions, db.entries, Dict.empty, Dict.empty⟩

/-- `WatchlistRepository.exists`. -/
def «exists» (tradingDate : Date) : Bool := db.system.watchlistExists tradingDate

/-- `GET /watchlist/{trading_date}`; `none` is 404. -/
def byDate (tradingDate : Date) : Option (List RankedCandidate) :=
  let entries := listEntries db.entries tradingDate
  if entries = [] ∧ db.exists tradingDate = false then none else some entries

/-- `GET /screener/results/{trading_date}` with the answer of `latest_succeeded`. -/
def results (tradingDate : Date) (latestSucceeded : Option ExecutionId) :
    Option ScreenerResultsResponse :=
  db.system.results tradingDate latestSucceeded

/-- Entries of the date are stored. -/
def Stored (tradingDate : Date) : Prop := ∃ entry ∈ db.entries, entry.tradingDate = tradingDate

end PipelineDb

variable {db : PipelineDb} {tradingDate : Date} {answer : Option ExecutionId}

/-! ## The dates that have a result -/

theorem values_eq_nil {executions : Executions} :
    executions.values = [] ↔ executions.keys = [] := by
  rw [Dict.values, Dict.keys, List.map_eq_nil_iff, List.map_eq_nil_iff]

theorem succeededDates_of_keys {executions : Executions} (h : executions.keys = []) :
    executions.succeededDates = [] := by
  rw [Executions.succeededDates, values_eq_nil.mpr h]
  rfl

theorem mem_newestFirst {dates : List Date} :
    tradingDate ∈ newestFirst dates ↔ tradingDate ∈ dates := by
  rw [newestFirst, List.mem_insertionSort, List.mem_dedup]

/-- Successes decide; entries count only where there is no execution at all. -/
theorem mem_history : tradingDate ∈ db.history ↔
    tradingDate ∈ db.executions.succeededDates ∨
      (db.executions.keys = [] ∧ db.Stored tradingDate) := by
  unfold PipelineDb.history
  split_ifs with h
  · rw [mem_newestFirst, List.mem_map, h.1]
    simp [h.2, PipelineDb.Stored]
  · rw [mem_newestFirst, or_iff_left]
    rintro ⟨hkeys, -⟩
    exact h ⟨succeededDates_of_keys hkeys, hkeys⟩

theorem exists_iff : db.exists tradingDate = true ↔ tradingDate ∈ db.history := by
  have hsucceeded : db.executions.values.any
      (fun row => row.tradingDate = tradingDate ∧ row.status = .succeeded) = true ↔
      tradingDate ∈ db.executions.succeededDates := by
    rw [List.any_eq_true, Executions.mem_succeededDates]
    simp only [Dict.mem_values, decide_eq_true_eq]
    constructor
    · rintro ⟨row, ⟨id, hid⟩, hrow⟩
      exact ⟨id, row, hid, hrow⟩
    · rintro ⟨id, row, hid, hrow⟩
      exact ⟨row, ⟨id, hid⟩, hrow⟩
  have hstored : db.entries.any (·.tradingDate = tradingDate) = true ↔ db.Stored tradingDate := by
    rw [List.any_eq_true]
    simp only [decide_eq_true_eq]
    rfl
  rw [mem_history, ← hsucceeded, ← hstored, ← values_eq_nil, PipelineDb.exists,
    System.watchlistExists, Bool.or_eq_true, Bool.and_eq_true, List.isEmpty_iff]
  rfl

/-! ## The newest date -/

theorem max?_newestFirst (dates : List Date) : (newestFirst dates).max? = dates.max? := by
  cases hmax : dates.max? with
  | none =>
    rw [List.max?_eq_none_iff] at hmax ⊢
    rw [hmax]
    rfl
  | some newest =>
    rw [List.max?_eq_some_iff] at hmax ⊢
    refine ⟨mem_newestFirst.mpr hmax.1, fun date hdate => ?_⟩
    exact hmax.2 date (mem_newestFirst.mp hdate)

theorem latestDate?_eq : db.latestDate? = db.history.max? := by
  unfold PipelineDb.latestDate? PipelineDb.history
  cases hmax : db.executions.succeededDates.max? with
  | none =>
    rw [List.max?_eq_none_iff] at hmax
    simp only [hmax, true_and]
    split_ifs with hkeys
    · rw [max?_newestFirst]
    · rfl
  | some newest =>
    have hne : db.executions.succeededDates ≠ [] := by
      intro hnil
      rw [hnil] at hmax
      cases hmax
    simp only [hne, false_and, if_false, max?_newestFirst, hmax]

/-! ## The endpoints -/

theorem listEntries_eq_nil : listEntries db.entries tradingDate = [] ↔ ¬ db.Stored tradingDate := by
  rw [← List.length_eq_zero_iff, listEntries, List.length_insertionSort, List.length_map,
    List.length_eq_zero_iff, List.filter_eq_nil_iff]
  simp [PipelineDb.Stored]

theorem byDate_isSome : (db.byDate tradingDate).isSome ↔
    db.Stored tradingDate ∨ tradingDate ∈ db.history := by
  rw [← exists_iff, PipelineDb.byDate]
  by_cases hstored : db.Stored tradingDate
  · have hentries : listEntries db.entries tradingDate ≠ [] :=
      fun hnil => listEntries_eq_nil.mp hnil hstored
    simp [hstored, hentries]
  · have hentries := listEntries_eq_nil.mpr hstored
    cases db.exists tradingDate <;> simp [hstored, hentries]

/-- Whichever success is returned, the results are there for the dates of the history. -/
theorem results_isSome (h : db.executions.MayReturn tradingDate .succeeded answer) :
    (db.results tradingDate answer).isSome ↔ tradingDate ∈ db.history := by
  unfold Executions.MayReturn at h
  unfold PipelineDb.results System.results
  cases hrow : answer.bind db.system.executions.get? with
  | none =>
    rw [← exists_iff, PipelineDb.exists]
    cases db.system.watchlistExists tradingDate <;> simp
  | some row =>
    change answer.bind db.executions.get? = some row at hrow
    rw [hrow] at h
    obtain ⟨id, -, hget⟩ := Option.bind_eq_some_iff.mp hrow
    have hmem : tradingDate ∈ db.executions.succeededDates :=
      Executions.mem_succeededDates.mpr ⟨id, row, hget, h.1, h.2.1⟩
    exact iff_of_true rfl (mem_history.mpr (.inl hmem))

/-! ## Agreement -/

/-- The reads agree on whether a date has a result, and on the newest one. -/
structure ReadsAgree (db : PipelineDb) (tradingDate : Date) (answer : Option ExecutionId) :
    Prop where
  exists_ : db.exists tradingDate = true ↔ tradingDate ∈ db.history
  latest : db.latest = match db.history.max? with
    | some newest => listEntries db.entries newest
    | none => []
  byDate : (db.byDate tradingDate).isSome ↔ tradingDate ∈ db.history
  results : (db.results tradingDate answer).isSome ↔ tradingDate ∈ db.history

/-- **The read paths.** All reads agree on a date unless entries are stored for it
although it never succeeded and executions are recorded: these entries are not part
of the history, and `GET /watchlist/{date}` shows them. -/
theorem reads_agree_iff (h : db.executions.MayReturn tradingDate .succeeded answer) :
    ReadsAgree db tradingDate answer ↔
      (db.Stored tradingDate →
        tradingDate ∈ db.executions.succeededDates ∨ db.executions.keys = []) := by
  have hbyDate : ((db.byDate tradingDate).isSome ↔ tradingDate ∈ db.history) ↔
      (db.Stored tradingDate →
        tradingDate ∈ db.executions.succeededDates ∨ db.executions.keys = []) := by
    rw [byDate_isSome, or_iff_right_iff_imp, mem_history]
    exact forall_congr' fun hstored => or_congr_right (and_iff_left hstored)
  rw [← hbyDate]
  constructor
  · exact fun hagree => hagree.byDate
  · intro hdate
    refine ⟨exists_iff, ?_, hdate, results_isSome h⟩
    cases hmax : db.history.max? <;> simp only [PipelineDb.latest, latestDate?_eq, hmax]

def legacyCandidate : RankedCandidate where
  symbol := "005930"
  rank := 1
  totalScore := 85
  componentScores := []
  sourceResult := ⟨"005930", true, [], [], [], [.boxBreakout], some .boxBreakout, [], [], []⟩
  warnings := []

/-- Entries of a Friday from before executions were recorded, and the success of the
Monday after. -/
def sampleLegacy : PipelineDb where
  market := ⟨Dict.empty, Dict.empty, ⟨Dict.empty, Dict.empty⟩⟩
  executions := Dict.empty.set 101
    { newExecution 101 739824 .scheduled 0 with status := .succeeded, stage := .completed }
  entries := [⟨739821, legacyCandidate⟩]

theorem reads_agree_sample : ReadsAgree sampleLegacy 739824 (some 101) := by
  have hanswer : sampleLegacy.executions.MayReturn 739824 .succeeded (some 101) := by decide
  exact (reads_agree_iff hanswer).mpr fun _ => .inl (by decide)

/-- The Friday is not in the history, and `GET /watchlist/{date}` shows its entries. -/
theorem legacy_entries_served :
    sampleLegacy.executions.MayReturn 739821 .succeeded none ∧ sampleLegacy.history = [739824] ∧
      sampleLegacy.byDate 739821 = some [legacyCandidate] ∧
      ¬ ReadsAgree sampleLegacy 739821 none := by
  have hserved : sampleLegacy.byDate 739821 = some [legacyCandidate] := by decide +kernel
  refine ⟨by decide, by decide, hserved, fun hagree => ?_⟩
  have hlisted := hagree.byDate.mp (by rw [hserved]; rfl)
  exact absurd hlisted (by decide)

end Screener.Market
