import Screener.Backtest.TradeListing
import Screener.Frontend.Dashboards
import Screener.Lib.Machine

/-!
# Turning the pages of the trades

The table of a run's trades with its buttons and filters, over the route that answers it. A
request is answered before the next click, and the run stays the same.
-/

namespace Screener.Frontend

open Screener.Lib
open Screener.Backtest (BacktestExitReason BacktestTrade Listed Tables TradesQuery UUID listedKey)

deriving instance DecidableEq for TradesSelection

/-! ## The table -/

def maxTradeLimit : Nat := 500

/-- `listBacktestTrades` of the client: a filter that is blank is not sent. -/
def listBacktestTrades (parseUuid : String → Option UUID) (tables : Tables)
    (request : TradesRequest) :
    Answer (List BacktestTrade) :=
  let query : TradesQuery := {
    limit := min request.limit maxTradeLimit
    offset := request.offset
    symbol := if request.symbol = "" then none else some request.symbol
    exitReason := if request.exitReason = "" then none else some request.exitReason }
  match Backtest.listBacktestTrades parseUuid tables request.runId query with
  | .ok trades => .ok trades
  | .error status => .failed (some status)

/-- The options of the exit reasons besides the blank one. -/
def exitReasonOptions : List String :=
  ["stop_loss", "take_profit", "max_holding_days", "end_of_period"]

structure TradesTable where
  selection : TradesSelection
  page : TradesState BacktestTrade := {}

inductive TradesClick where
  | previous
  | next
  | symbol (value : String)
  | exitReason (value : String)
  | retry

namespace TradesTable

variable (parseUuid : String → Option UUID) (tables : Tables)

/-- The effect of a selection that is new, with the answer to it. -/
def load (s : TradesTable) (selection : TradesSelection) : TradesTable :=
  if selection = s.selection then s
  else
    let (page, request) := s.page.effect selection
    { selection, page := page.answered (listBacktestTrades parseUuid tables request) }

/-- The table of a run when it is first shown. -/
def start (runId : String) : TradesTable :=
  let selection : TradesSelection := ⟨runId, 0, "", "", 0⟩
  let (page, request) := ({} : TradesState BacktestTrade).effect selection
  { selection, page := page.answered (listBacktestTrades parseUuid tables request) }

def hasPrevious (s : TradesTable) : Prop := s.selection.offset ≠ 0

def hasNext (s : TradesTable) : Prop := s.page.trades.length = tradePageLimit

instance (s : TradesTable) : Decidable s.hasPrevious := by unfold hasPrevious; infer_instance

instance (s : TradesTable) : Decidable s.hasNext := by unfold hasNext; infer_instance

def click (s : TradesTable) : TradesClick → Option TradesTable
  | .previous =>
    if s.hasPrevious then
      some (s.load parseUuid tables
        { s.selection with offset := s.selection.offset - tradePageLimit })
    else none
  | .next =>
    if s.hasNext then
      some (s.load parseUuid tables
        { s.selection with offset := s.selection.offset + tradePageLimit })
    else none
  | .symbol value => some (s.load parseUuid tables
    { s.selection with symbol := value, offset := 0 })
  | .exitReason value =>
    if value = "" ∨ value ∈ exitReasonOptions then
      some (s.load parseUuid tables { s.selection with exitReason := value, offset := 0 })
    else none
  | .retry =>
    match s.page.state with
    | .error => some (s.load parseUuid tables
      { s.selection with attempt := s.selection.attempt + 1 })
    | _ => none

end TradesTable

def tradesTable (parseUuid : String → Option UUID) (tables : Tables) (runId : String) :
    Machine TradesTable TradesClick where
  init s := s = .start parseUuid tables runId
  step s click t := s.click parseUuid tables click = some t

/-! ## What is shown -/

/-- The trades that a selection is about. -/
def rowsOf (tables : Tables) (id : UUID) (selection : TradesSelection) : List BacktestTrade :=
  tables.listedTrades id (if selection.symbol = "" then none else some selection.symbol)
    (if selection.exitReason = "" then none else BacktestExitReason.ofValue? selection.exitReason)

/-- An option of the filter is a value of the route. -/
theorem ofValue?_option {value : String} (h : value ∈ exitReasonOptions) :
    ∃ reason, BacktestExitReason.ofValue? value = some reason ∧ reason.value = value := by
  simp only [exitReasonOptions, List.mem_cons, List.not_mem_nil, or_false] at h
  rcases h with rfl | rfl | rfl | rfl
  · exact ⟨.stopLoss, rfl, rfl⟩
  · exact ⟨.takeProfit, rfl, rfl⟩
  · exact ⟨.maxHoldingDays, rfl, rfl⟩
  · exact ⟨.endOfPeriod, rfl, rfl⟩

theorem value_injective {r r' : BacktestExitReason} (h : r.value = r'.value) : r = r' := by
  cases r <;> cases r' <;> first | rfl | exact absurd h (by decide)

theorem mem_rowsOf {tables : Tables} {id : UUID} {selection : TradesSelection}
    (hreason : selection.exitReason = "" ∨ selection.exitReason ∈ exitReasonOptions)
    {t : BacktestTrade} : t ∈ rowsOf tables id selection ↔ t ∈ tables.trades ∧ t.runId = id ∧
      (selection.symbol = "" ∨ t.symbol = selection.symbol) ∧
      (selection.exitReason = "" ∨ t.exitReason.value = selection.exitReason) := by
  have hsymbol : (∀ s ∈ (if selection.symbol = "" then none else some selection.symbol),
      t.symbol = s) ↔ selection.symbol = "" ∨ t.symbol = selection.symbol := by
    split_ifs with hblank
    · simp [hblank]
    · simp [hblank]
  have hvalue : (∀ r ∈ (if selection.exitReason = "" then none
      else BacktestExitReason.ofValue? selection.exitReason), t.exitReason = r) ↔
        selection.exitReason = "" ∨ t.exitReason.value = selection.exitReason := by
    split_ifs with hblank
    · simp [hblank]
    · obtain ⟨reason, hfound, hsame⟩ := ofValue?_option (hreason.resolve_left hblank)
      rw [hfound, ← hsame]
      simp only [Option.mem_def, Option.some.injEq, forall_eq']
      constructor
      · exact fun heq => .inr (heq ▸ rfl)
      · rintro (hempty | heq)
        · exact absurd (hsame.symm.trans hempty) hblank
        · exact value_injective heq
  rw [rowsOf, Backtest.mem_listedTrades, Listed, hsymbol, hvalue]

section Table

variable {parseUuid : String → Option UUID} {tables : Tables} {runId : String} {id : UUID}

/-- The route answers a selection of a run that is there with a page of its trades. -/
theorem listBacktestTrades_ok (hid : parseUuid runId = some id) (hrun : id ∈ tables.runs.keys)
    {selection : TradesSelection} (hof : selection.runId = runId)
    (hreason : selection.exitReason = "" ∨ selection.exitReason ∈ exitReasonOptions)
    (s : TradesState BacktestTrade) :
    listBacktestTrades parseUuid tables (s.effect selection).2 =
      .ok (pageAt tradePageLimit selection.offset (rowsOf tables id selection)) := by
  have hparsed : (if selection.exitReason = "" then none else some selection.exitReason).mapM
      BacktestExitReason.ofValue? = some (if selection.exitReason = "" then none
        else BacktestExitReason.ofValue? selection.exitReason) := by
    split_ifs with hblank
    · rfl
    · obtain ⟨reason, hfound, -⟩ := ofValue?_option (hreason.resolve_left hblank)
      simp [hfound]
  obtain ⟨run, hget⟩ := Dict.mem_keys.mp hrun
  have hlimit : ¬(min tradePageLimit maxTradeLimit < 1 ∨
      500 < min tradePageLimit maxTradeLimit) := by
    decide
  simp only [listBacktestTrades, TradesState.effect, Backtest.listBacktestTrades, hof, hid, hparsed,
    if_neg hlimit, Tables.serviceListTrades, hget, Option.map_some]
  rfl

/-- The table shows the page of its selection. -/
structure ShowsPage (tables : Tables) (runId : String) (id : UUID) (s : TradesTable) : Prop where
  run : s.selection.runId = runId
  reason : s.selection.exitReason = "" ∨ s.selection.exitReason ∈ exitReasonOptions
  page : s.page = ⟨pageAt tradePageLimit s.selection.offset (rowsOf tables id s.selection), .ready⟩
  whole : tradePageLimit ∣ s.selection.offset
  within : s.selection.offset ≤ (rowsOf tables id s.selection).length

theorem showsPage_load (hid : parseUuid runId = some id) (hrun : id ∈ tables.runs.keys)
    {s : TradesTable} (hs : ShowsPage tables runId id s) (selection : TradesSelection)
    (hof : selection.runId = runId)
    (hreason : selection.exitReason = "" ∨ selection.exitReason ∈ exitReasonOptions)
    (hwhole : tradePageLimit ∣ selection.offset)
    (hwithin : selection.offset ≤ (rowsOf tables id selection).length) :
    (s.load parseUuid tables selection).selection = selection ∧
      ShowsPage tables runId id (s.load parseUuid tables selection) := by
  by_cases hsame : selection = s.selection
  · rw [TradesTable.load, if_pos hsame]
    exact ⟨hsame.symm, hs⟩
  · rw [TradesTable.load, if_neg hsame]
    refine ⟨rfl, hof, hreason, ?_, hwhole, hwithin⟩
    show TradesState.answered (listBacktestTrades parseUuid tables (s.page.effect selection).2) _ =
        _
    rw [listBacktestTrades_ok hid hrun hof hreason]
    rfl

theorem showsPage_start (hid : parseUuid runId = some id) (hrun : id ∈ tables.runs.keys) :
    ShowsPage tables runId id (.start parseUuid tables runId) := by
  refine ⟨rfl, .inl rfl, ?_, ⟨0, rfl⟩, Nat.zero_le _⟩
  show TradesState.answered (listBacktestTrades parseUuid tables
    (({} : TradesState BacktestTrade).effect ⟨runId, 0, "", "", 0⟩).2) _ = _
  rw [listBacktestTrades_ok hid hrun rfl (.inl rfl)]
  rfl

/-- The next page can be turned to where it starts within the trades. -/
theorem ShowsPage.hasNext_iff {s : TradesTable} (hs : ShowsPage tables runId id s) : s.hasNext ↔
    s.selection.offset + tradePageLimit ≤ (rowsOf tables id s.selection).length := by
  rw [TradesTable.hasNext, hs.page, pageAt_full_iff (by decide)]

theorem showsPage_click (hid : parseUuid runId = some id) (hrun : id ∈ tables.runs.keys)
    {s t : TradesTable} {click : TradesClick} (hs : ShowsPage tables runId id s)
    (h : s.click parseUuid tables click = some t) : ShowsPage tables runId id t := by
  have hload : ∀ selection : TradesSelection, selection.runId = runId →
      (selection.exitReason = "" ∨ selection.exitReason ∈ exitReasonOptions) →
      tradePageLimit ∣ selection.offset →
      selection.offset ≤ (rowsOf tables id selection).length →
      ShowsPage tables runId id (s.load parseUuid tables selection) :=
    fun _ hof hreason hwhole hwithin => (showsPage_load hid hrun hs _ hof hreason hwhole hwithin).2
  cases click with
  | previous =>
    simp only [TradesTable.click] at h
    split_ifs at h with hprevious
    cases h
    refine hload _ hs.run hs.reason ?_ ?_
    · exact Nat.dvd_sub hs.whole (dvd_refl _)
    · exact (Nat.sub_le _ _).trans hs.within
  | next =>
    simp only [TradesTable.click] at h
    split_ifs at h with hnext
    cases h
    refine hload _ hs.run hs.reason ?_ ?_
    · exact Nat.dvd_add hs.whole (dvd_refl _)
    · exact hs.hasNext_iff.mp hnext
  | symbol value =>
    cases h
    exact hload _ hs.run hs.reason (dvd_zero _) (Nat.zero_le _)
  | exitReason value =>
    simp only [TradesTable.click] at h
    split_ifs at h with hvalue
    cases h
    exact hload _ hs.run hvalue (dvd_zero _) (Nat.zero_le _)
  | retry =>
    simp only [TradesTable.click, hs.page] at h
    cases h

theorem showsPage_reachable (hid : parseUuid runId = some id) (hrun : id ∈ tables.runs.keys)
    {s : TradesTable} (h : (tradesTable parseUuid tables runId).Reachable s) :
    ShowsPage tables runId id s := by
  refine h.invariant ?_ fun s click t _ hs hst => ?_
  · rintro s rfl
    exact showsPage_start hid hrun
  · exact showsPage_click hid hrun hs (show s.click parseUuid tables click = some t from hst)

/-! ## Turning the pages -/

theorem follow_turns (hid : parseUuid runId = some id) (hrun : id ∈ tables.runs.keys)
    {s : TradesTable} (hs : ShowsPage tables runId id s) (k : Nat)
    (hk : s.selection.offset + tradePageLimit * k ≤ (rowsOf tables id s.selection).length) :
    ∃ t, Machine.follow (TradesTable.click parseUuid tables) s (List.replicate k .next) = some t ∧
      ShowsPage tables runId id t ∧
      t.selection = { s.selection with offset := s.selection.offset + tradePageLimit * k } := by
  induction k generalizing s with
  | zero => exact ⟨s, rfl, hs, rfl⟩
  | succ k ih =>
    rw [Nat.mul_succ] at hk
    have hnext : s.hasNext := hs.hasNext_iff.mpr (by omega)
    let further : TradesSelection :=
      { s.selection with offset := s.selection.offset + tradePageLimit }
    obtain ⟨hselection, hfurther⟩ := showsPage_load hid hrun hs further hs.run hs.reason
      (Nat.dvd_add hs.whole (dvd_refl _)) (hs.hasNext_iff.mp hnext)
    have hleft : further.offset + tradePageLimit * k ≤ (rowsOf tables id further).length := by
      show s.selection.offset + tradePageLimit + _ ≤ (rowsOf tables id s.selection).length
      omega
    obtain ⟨t, hfollow, ht, hend⟩ := ih hfurther (by rw [hselection]; exact hleft)
    refine ⟨t, ?_, ht, ?_⟩
    · rw [List.replicate_succ, Machine.follow, TradesTable.click, if_pos hnext]
      exact hfollow
    · rw [hend, hselection, Nat.mul_succ, Nat.add_comm (tradePageLimit * k), ← Nat.add_assoc]

/-- What is shown of the trades that match: in the order of their keys, a page of them, and by
turning from the first page to where the button is off all of them, each once. -/
structure PagesCover (parseUuid : String → Option UUID) (tables : Tables) (id : UUID)
    (s : TradesTable)
    (rows : List BacktestTrade) : Prop where
  ordered : rows.Pairwise fun t u => listedKey t < listedKey u
  matching : ∀ t, t ∈ rows ↔ t ∈ tables.trades ∧ t.runId = id ∧
    (s.selection.symbol = "" ∨ t.symbol = s.selection.symbol) ∧
    (s.selection.exitReason = "" ∨ t.exitReason.value = s.selection.exitReason)
  shown : s.page.view = .ofList (pageAt tradePageLimit s.selection.offset rows)
  whole : tradePageLimit ∣ s.selection.offset
  empty : s.page.view = .empty ↔ s.selection.offset = rows.length
  turns : s.selection.offset = 0 → ∀ k ≤ rows.length / tradePageLimit, ∃ t,
    Machine.follow (TradesTable.click parseUuid tables) s (List.replicate k .next) = some t ∧
      t.page.trades = pageAt tradePageLimit (tradePageLimit * k) rows
  ends : s.selection.offset = 0 → Machine.follow (TradesTable.click parseUuid tables) s
    (List.replicate (rows.length / tradePageLimit + 1) .next) = none
  once : ((List.range (rows.length / tradePageLimit + 1)).flatMap fun k =>
    pageAt tradePageLimit (tradePageLimit * k) rows) = rows

theorem trades_pages_cover (hid : parseUuid runId = some id) (hrun : id ∈ tables.runs.keys)
    (hids : (tables.trades.map (·.id)).Nodup) {s : TradesTable}
    (h : (tradesTable parseUuid tables runId).Reachable s) :
    ∃ rows, PagesCover parseUuid tables id s rows := by
  have hs := showsPage_reachable hid hrun h
  have hview : s.page.view = .ofList (pageAt tradePageLimit s.selection.offset
      (rowsOf tables id s.selection)) := by
    rw [hs.page, TradesState.view]
  refine ⟨rowsOf tables id s.selection, Backtest.listedTrades_strict hids,
    fun t => mem_rowsOf hs.reason,
    hview, hs.whole, ?_, fun hfirst k hk => ?_, fun hfirst => ?_, ?_⟩
  · rw [hview, ← pageAt_nil_iff (show 0 < tradePageLimit by decide) hs.within]
    cases pageAt tradePageLimit s.selection.offset (rowsOf tables id s.selection) with
    | nil => exact ⟨fun _ => rfl, fun _ => rfl⟩
    | cons row rest => exact ⟨fun heq => (by cases heq), fun heq => (by cases heq)⟩
  · have hwithin : tradePageLimit * k ≤ (rowsOf tables id s.selection).length :=
      (Nat.mul_le_mul_left _ hk).trans (Nat.mul_div_le _ _)
    obtain ⟨t, hfollow, ht, hend⟩ := follow_turns hid hrun hs k (by rw [hfirst]; omega)
    refine ⟨t, hfollow, ?_⟩
    rw [ht.page, hend, hfirst, Nat.zero_add]
    rfl
  · -- the last page starts within the trades, and the one after it does not
    have hlast := Nat.div_add_mod (rowsOf tables id s.selection).length tradePageLimit
    have hmod : (rowsOf tables id s.selection).length % tradePageLimit < tradePageLimit :=
      Nat.mod_lt _ (by decide)
    obtain ⟨t, hfollow, ht, hend⟩ :=
      follow_turns hid hrun hs ((rowsOf tables id s.selection).length / tradePageLimit) (by omega)
    have hoff : ¬t.hasNext := by
      rw [ht.hasNext_iff, hend, hfirst]
      show ¬0 + tradePageLimit * ((rowsOf tables id s.selection).length / tradePageLimit) +
        tradePageLimit ≤ (rowsOf tables id s.selection).length
      omega
    rw [List.replicate_succ', Machine.follow_append, hfollow, Option.bind_some, Machine.follow,
      TradesTable.click, if_neg hoff, Option.bind_none]
  · exact flatMap_pageAt_all (show 0 < tradePageLimit by decide) _

end Table

/-! A run with as many trades as a page has: after the first page the table says that there are
none. -/

def fullPage : List BacktestTrade :=
  (List.range 25).map fun k =>
    ⟨k, 7, "A", k, k + 1, 100, 1, k + 2, 110, .takeProfit, 10, 0, 0, 0, 10, 1⟩

def fullTables : Tables where
  runs := Dict.empty.set 7 ⟨7, "watchlist_entry", 0, 99, .completed, none, Dict.empty, none, none,
    none⟩
  trades := fullPage
  snapshots := []
  tradeRun := by decide
  snapshotRun := by simp

def parseSeven (text : String) : Option UUID := if text = "7" then some 7 else none

theorem trades_pages_cover_full : ∃ s, (tradesTable parseSeven fullTables "7").Reachable s ∧
    s.selection.offset = 25 ∧ ∃ rows, PagesCover parseSeven fullTables 7 s rows := by
  have hrun : (Machine.follow (TradesTable.click parseSeven fullTables)
      (.start parseSeven fullTables "7")
      [.symbol "A", .next]).any (fun s => s.selection.offset = 25) = true := by
    decide +kernel
  obtain ⟨s, hs, hoffset⟩ := Machine.exists_reachable_of_follow
    (M := tradesTable parseSeven fullTables "7") (fun _ _ _ h => h) rfl hrun
  exact ⟨s, hs, hoffset, trades_pages_cover rfl (by decide) (by decide) hs⟩

end Screener.Frontend
