import Screener.Market.SyncRules

/-!
# Who is eligible after a stock run

Everything in the stock master becomes eligible. A stock that the master does not
name keeps its row as it is, so it stays eligible, and synchronized, if it was.
-/

namespace Screener.Market

open Screener.Lib

/-- The provider's rows make `symbol` part of the master. -/
def MasterSource.Reports (source : MasterSource) (symbol : Symbol) : Prop :=
  ∃ symbols batch rows row item, source.kospiSymbols = .ok symbols ∧
    batch ∈ slices maxStockSymbols symbols ∧ source.rows batch = .ok rows ∧ row ∈ rows ∧
    instrument row = .ok item ∧ item.inMaster symbols = true ∧ item.symbol = symbol

/-- The symbol is in the result of `stock_master`. -/
def MasterSource.Names (source : MasterSource) (symbol : Symbol) : Prop :=
  ∃ snapshots, stockMaster source = .ok snapshots ∧ symbol ∈ snapshots.map (·.symbol)

variable {source : MasterSource} {snapshots : List InstrumentSnapshot} {symbol : Symbol}

theorem mem_stockMaster (h : stockMaster source = .ok snapshots) {item : InstrumentSnapshot} :
    item ∈ snapshots ↔ ∃ symbols batch rows row, source.kospiSymbols = .ok symbols ∧
      batch ∈ slices maxStockSymbols symbols ∧ source.rows batch = .ok rows ∧ row ∈ rows ∧
      instrument row = .ok item ∧ item.inMaster symbols = true := by
  obtain ⟨symbols, hsymbols, h⟩ := bind_ok.mp h
  obtain ⟨batches, hbatches, h⟩ := bind_ok.mp h
  rw [pure_ok] at h
  rw [← h, List.mem_filter, List.mem_flatten]
  constructor
  · intro ⟨⟨items, hitems, hitem⟩, hmaster⟩
    obtain ⟨batch, hbatch, hanswer⟩ := (mem_mapM_ok hbatches).mp hitems
    obtain ⟨rows, hrows, hinstruments⟩ := bind_ok.mp hanswer
    obtain ⟨row, hrow, hinstrument⟩ := (mem_mapM_ok (mapError_ok.mp hinstruments)).mp hitem
    exact ⟨symbols, batch, rows, row, hsymbols, hbatch, hrows, hrow, hinstrument, hmaster⟩
  · intro ⟨symbols', batch, rows, row, hsymbols', hbatch, hrows, hrow, hinstrument, hmaster⟩
    rw [hsymbols, Except.ok.injEq] at hsymbols'
    subst hsymbols'
    refine ⟨?_, hmaster⟩
    obtain ⟨items, hitems, hanswer⟩ := mapM_ok_of_mem hbatches hbatch
    refine ⟨items, hitems, ?_⟩
    obtain ⟨rows', hrows', hinstruments⟩ := bind_ok.mp hanswer
    rw [hrows, Except.ok.injEq] at hrows'
    subst hrows'
    exact (mem_mapM_ok (mapError_ok.mp hinstruments)).mpr ⟨row, hrow, hinstrument⟩

/-- The master names what the provider reports, and nothing else. -/
theorem names_iff_reports (h : stockMaster source = .ok snapshots) :
    source.Names symbol ↔ source.Reports symbol := by
  constructor
  · intro ⟨snapshots', h', hin⟩
    rw [h, Except.ok.injEq] at h'
    subst h'
    obtain ⟨item, hitem, hsymbol⟩ := List.mem_map.mp hin
    obtain ⟨symbols, batch, rows, row, hsymbols, hbatch, hrows, hrow, hinstrument, hmaster⟩ :=
      (mem_stockMaster h).mp hitem
    exact ⟨symbols, batch, rows, row, item, hsymbols, hbatch, hrows, hrow, hinstrument, hmaster,
      hsymbol⟩
  · intro ⟨symbols, batch, rows, row, item, hsymbols, hbatch, hrows, hrow, hinstrument, hmaster,
      hsymbol⟩
    have hitem : item ∈ snapshots := (mem_stockMaster h).mpr
      ⟨symbols, batch, rows, row, hsymbols, hbatch, hrows, hrow, hinstrument, hmaster⟩
    exact ⟨snapshots, h, List.mem_map.mpr ⟨item, hitem, hsymbol⟩⟩

theorem collectSnapshots_ok (h : collectSnapshots source = .ok snapshots) :
    stockMaster source = .ok snapshots ∧ (snapshots.map (·.symbol)).Nodup := by
  obtain ⟨found, hfound, h⟩ := bind_ok.mp h
  split_ifs at h with hnodup
  rw [pure_ok] at h
  exact h ▸ ⟨hfound, hnodup⟩

/-- What is in the master is eligible once it is stored. -/
theorem row_eligible {item : InstrumentSnapshot} {symbols : List Symbol}
    (h : item.inMaster symbols = true) : item.row.2.Eligible := by
  simp only [InstrumentSnapshot.inMaster, Bool.and_eq_true, decide_eq_true_eq] at h
  obtain ⟨⟨⟨⟨-, hmarket⟩, htype⟩, -⟩, hstatus⟩ := h
  refine ⟨?_, hmarket, hstatus, htype⟩
  simp [InstrumentSnapshot.row, hstatus]

section Run

variable {env : StockSyncEnv} {clock : RunClock} {db : MarketDb} {result : SyncResult}

theorem stored_of_names (h : (runStockSync env clock db).1 = .ok result)
    (hnames : env.source.Names symbol) :
    ∃ stock, (runStockSync env clock db).2.stocks.get? symbol = some stock ∧ stock.Eligible := by
  obtain ⟨snapshots, hcollect, hstocks⟩ := runStockSync_ok h
  obtain ⟨hmaster, hnodup⟩ := collectSnapshots_ok hcollect
  obtain ⟨snapshots', h', hin⟩ := hnames
  rw [hmaster, Except.ok.injEq] at h'
  subst h'
  obtain ⟨item, hitem, rfl⟩ := List.mem_map.mp hin
  obtain ⟨symbols, -, -, -, -, -, -, -, -, hinMaster⟩ := (mem_stockMaster hmaster).mp hitem
  have hkeys : ((snapshots.map InstrumentSnapshot.row).map Prod.fst).Nodup := by
    rw [List.map_map]
    exact hnodup
  have hrow : item.row ∈ snapshots.map InstrumentSnapshot.row := List.mem_map_of_mem hitem
  refine ⟨item.row.2, ?_, row_eligible hinMaster⟩
  rw [hstocks]
  exact Upsert.get?_merge_of_mem hkeys (fun _ _ _ => rfl) hrow

theorem kept_of_not_names (h : (runStockSync env clock db).1 = .ok result)
    (hnames : ¬ env.source.Names symbol) :
    (runStockSync env clock db).2.stocks.get? symbol = db.stocks.get? symbol := by
  obtain ⟨snapshots, hcollect, hstocks⟩ := runStockSync_ok h
  obtain ⟨hmaster, -⟩ := collectSnapshots_ok hcollect
  rw [hstocks]
  apply Upsert.get?_merge_of_not_mem
  intro hin
  rw [List.map_map] at hin
  exact hnames ⟨snapshots, hmaster, hin⟩

/-- **The active universe.** After a successful run the eligible stocks of the
market are those of the master exactly when every stock that was eligible before
is reported by the provider again. -/
theorem eligible_iff_named_iff (h : (runStockSync env clock db).1 = .ok result) :
    (∀ symbol stock, (runStockSync env clock db).2.stocks.get? symbol = some stock →
        stock.market = "KOSPI" → (stock.Eligible ↔ env.source.Names symbol)) ↔
      ∀ symbol stock, db.stocks.get? symbol = some stock → stock.Eligible →
        env.source.Reports symbol := by
  obtain ⟨snapshots, hcollect, -⟩ := runStockSync_ok h
  have hreports : ∀ symbol, env.source.Names symbol ↔ env.source.Reports symbol := fun _ =>
    names_iff_reports (collectSnapshots_ok hcollect).1
  constructor
  · intro hall symbol stock hstock heligible
    rw [← hreports]
    by_contra hnames
    have hkept := (kept_of_not_names h hnames).trans hstock
    exact hnames ((hall symbol stock hkept heligible.2.1).mp heligible)
  · intro hall symbol stock hstock _
    constructor
    · intro heligible
      by_contra hnames
      rw [kept_of_not_names h hnames] at hstock
      exact hnames ((hreports symbol).mpr (hall symbol stock hstock heligible))
    · intro hnames
      obtain ⟨stored, hstored, heligible⟩ := stored_of_names h hnames
      rw [hstock, Option.some.injEq] at hstored
      exact hstored ▸ heligible

end Run

/-! ## A symbol that is listed, and later is not -/

/-- A row of the provider about a common share. -/
def sampleRow (symbol : Symbol) (status : String) : ProviderRow :=
  ⟨[("symbol", .text symbol), ("name", .text "Samsung Electronics"), ("market", .text "KOSPI"),
    ("currency", .text "KRW"), ("securityType", .text "STOCK"), ("isCommonShare", .bool true),
    ("status", .text status)], by simp⟩

/-- The universe of one symbol, with its status at the provider. -/
def sampleSource (status : String) : StockSyncEnv where
  source :=
    { kospiSymbols := .ok ["005930"]
      rows := fun _ => .ok [sampleRow "005930" status] }

def emptyDb : MarketDb := ⟨Dict.empty, Dict.empty, ⟨Dict.empty, Dict.empty⟩⟩

/-- The database after the symbol was listed. -/
def listedDb : MarketDb := (runStockSync (sampleSource "ACTIVE") ⟨0, 1⟩ emptyDb).2

theorem eligible_iff_named_sample :
    ∃ stock, (runStockSync (sampleSource "ACTIVE") ⟨2, 3⟩ listedDb).2.stocks.get? "005930" =
        some stock ∧ (stock.Eligible ↔ (sampleSource "ACTIVE").source.Names "005930") := by
  obtain ⟨result, hok⟩ : ∃ result,
      (runStockSync (sampleSource "ACTIVE") ⟨2, 3⟩ listedDb).1 = .ok result := ⟨_, rfl⟩
  refine ⟨_, rfl, (eligible_iff_named_iff hok).mpr ?_ "005930" _ rfl rfl⟩
  intro symbol stock hstock _
  have hkeys : symbol ∈ listedDb.stocks.keys := Dict.mem_keys_of_get? hstock
  have hone : listedDb.stocks.keys = ["005930"] := by decide +kernel
  rw [hone, List.mem_singleton] at hkeys
  subst hkeys
  exact ⟨["005930"], ["005930"], _, sampleRow "005930" "ACTIVE", _, rfl, by decide, rfl,
    List.mem_singleton.mpr rfl, rfl, rfl, rfl⟩

/-- The provider reports the symbol as delisted; the run succeeds with an empty
master, and the symbol stays eligible and active. -/
theorem delisted_stays_eligible :
    (∃ result, (runStockSync (sampleSource "DELISTED") ⟨2, 3⟩ listedDb).1 = .ok result) ∧
      ¬ (sampleSource "DELISTED").source.Names "005930" ∧
      (∃ stock, (runStockSync (sampleSource "DELISTED") ⟨2, 3⟩ listedDb).2.stocks.get? "005930" =
        some stock ∧ stock.Eligible) ∧
      "005930" ∈ (runStockSync (sampleSource "DELISTED") ⟨2, 3⟩ listedDb).2.stocks.active := by
  refine ⟨⟨_, rfl⟩, ?_, ⟨_, rfl, by decide +kernel⟩, by decide +kernel⟩
  intro ⟨snapshots, hmaster, hin⟩
  have hempty : stockMaster (sampleSource "DELISTED").source = .ok [] := rfl
  rw [hempty, Except.ok.injEq] at hmaster
  rw [← hmaster] at hin
  cases hin

end Screener.Market
