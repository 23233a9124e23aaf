import Screener.Market.Ranking

/-!
# From scan inputs to stored entries

The scanner keeps the passing results of a batch, the ranker orders them, and
the candidates that reach the minimum score, up to a maximum, replace the
entries stored for the trading date. An analysis that completes always passes
the validation of the save.
-/

namespace Screener.Market

open Screener.Lib

/-! ## Scanning -/

structure ScanInput where
  symbol : Symbol
  bars : List DailyBarRecord
  indicators : IndicatorSnapshot
deriving DecidableEq, Repr

def barSymbols (input : ScanInput) : List Symbol :=
  (input.bars.map (·.symbol)).dedup.insertionSort (· ≤ ·)

def validateInput (input : ScanInput) : Except String Unit :=
  if blank input.symbol then .error "Scan input symbol must not be blank"
  else match barSymbols input with
    | [] => .ok ()
    | [symbol] =>
      if symbol = input.symbol then .ok ()
      else .error ("Bar symbol " ++ symbol ++ " does not match scan input symbol " ++ input.symbol)
    | symbols => .error ("Bars for " ++ input.symbol ++ " contain multiple symbols: " ++
        ", ".intercalate symbols)

def validateInputs : List Symbol → List ScanInput → Except String Unit
  | _, [] => .ok ()
  | seen, input :: rest => do
    validateInput input
    if input.symbol ∈ seen then .error ("Duplicate scan input symbol: " ++ input.symbol)
    else validateInputs (input.symbol :: seen) rest

variable (c : SwingScreeningConfig)

def evaluateInput (input : ScanInput) : Except String ScreeningResult := do
  let result ← evaluate c input.bars input.indicators
  if result.symbol = "" then return { result with symbol := input.symbol }
  else if result.symbol = input.symbol then return result
  else .error ("Screening result symbol " ++ result.symbol ++
    " does not match scan input symbol " ++
    input.symbol)

/-- `CandidateScanner.scan`. -/
def scan (inputs : List ScanInput) : Except String (List ScreeningResult) := do
  validateInputs [] inputs
  let results ← inputs.mapM (evaluateInput c)
  return results.filter (·.passed)

/-! ## The analysis of a run -/

/-- What a pipeline run has computed when it comes to persist it. -/
structure Analysis where
  screenedCount : Nat
  candidateCount : Nat
  qualifiedCount : Nat
  ranked : List RankedCandidate
deriving DecidableEq, Repr

def analyze (inputs : List ScanInput) : Except String Analysis := do
  let candidates ← scan c inputs
  let scored ← rank c candidates
  let qualified := scored.filter fun candidate => c.minimumCandidateScore ≤ candidate.totalScore
  return ⟨inputs.length, candidates.length, qualified.length, qualified.take c.maximumCandidates⟩

/-! ## Stored entries -/

/-- A stored entry; its columns hold the candidate's fields. -/
structure WatchlistEntryRecord where
  tradingDate : Date
  candidate : RankedCandidate
deriving DecidableEq, Repr

/-- `_validate`: symbols are not blank, symbols and ranks are distinct. -/
def validateCandidates : List Symbol → List Nat → List RankedCandidate → Except String Unit
  | _, _, [] => .ok ()
  | symbols, ranks, candidate :: rest =>
    if blank candidate.symbol then .error "candidate symbol must not be blank"
    else if candidate.symbol ∈ symbols then .error ("duplicate symbol: " ++ candidate.symbol)
    else if candidate.rank ∈ ranks then .error ("duplicate rank: " ++ toString candidate.rank)
    else validateCandidates (candidate.symbol :: symbols) (candidate.rank :: ranks) rest

/-- `WatchlistRepository.save`: the entries of a date are replaced. -/
def saveEntries (entries : List WatchlistEntryRecord) (tradingDate : Date)
    (candidates : List RankedCandidate) : Except String (List WatchlistEntryRecord) := do
  validateCandidates [] [] candidates
  return entries.filter (·.tradingDate ≠ tradingDate) ++
    candidates.map (WatchlistEntryRecord.mk tradingDate)

/-- `WatchlistRepository.list`: the entries of a date by ascending rank. -/
def listEntries (entries : List WatchlistEntryRecord) (tradingDate : Date) :
    List RankedCandidate :=
  ((entries.filter (·.tradingDate = tradingDate)).map (·.candidate)).insertionSort
    fun a b => a.rank ≤ b.rank

/-! ## What ranking and saving give -/

variable {c}

theorem validateRequest_ok {seen : List Symbol} {results : List ScreeningResult}
    (h : validateRequest seen results = .ok ()) :
    (∀ r ∈ results, blank r.symbol = false ∧ r.symbol ∉ seen) ∧
      (results.map (·.symbol)).Nodup := by
  induction results generalizing seen with
  | nil => simp
  | cons r rest ih =>
    unfold validateRequest at h
    split_ifs at h with hpassed hblank hseen
    obtain ⟨hall, hnodup⟩ := ih h
    refine ⟨?_, ?_⟩
    · intro x hx
      rcases List.mem_cons.mp hx with rfl | hx
      · exact ⟨Bool.eq_false_iff.mpr hblank, hseen⟩
      · exact ⟨(hall x hx).1, fun hin => (hall x hx).2 (List.mem_cons_of_mem _ hin)⟩
    · rw [List.map_cons, List.nodup_cons]
      refine ⟨fun hin => ?_, hnodup⟩
      obtain ⟨x, hx, hsymbol⟩ := List.mem_map.mp hin
      exact (hall x hx).2 (hsymbol ▸ List.mem_cons_self)

/-- What a ranking keeps and adds. -/
structure Ranked (candidates : List RankedCandidate) : Prop where
  named : ∀ candidate ∈ candidates, blank candidate.symbol = false
  symbols : (candidates.map (·.symbol)).Nodup
  ranks : candidates.Pairwise fun a b => a.rank < b.rank

theorem Ranked.sublist {candidates kept : List RankedCandidate} (h : Ranked candidates)
    (hsub : kept.Sublist candidates) : Ranked kept where
  named candidate hmem := h.named candidate (hsub.subset hmem)
  symbols := h.symbols.sublist (hsub.map _)
  ranks := h.ranks.sublist hsub

theorem zipIdx_ranks (candidates : List RankedCandidate) (start : Nat) :
    ((candidates.zipIdx start).map fun e => { e.1 with rank := e.2 }).Pairwise
        (fun a b => a.rank < b.rank) ∧
      ∀ x ∈ (candidates.zipIdx start).map (fun e => { e.1 with rank := e.2 }), start ≤ x.rank := by
  induction candidates generalizing start with
  | nil => simp
  | cons first rest ih =>
    obtain ⟨hpairwise, hstart⟩ := ih (start + 1)
    rw [List.zipIdx_cons, List.map_cons]
    refine ⟨List.pairwise_cons.mpr ⟨fun x hx => hstart x hx, hpairwise⟩, ?_⟩
    intro x hx
    rcases List.mem_cons.mp hx with rfl | hx
    · exact le_refl start
    · exact (Nat.le_succ start).trans (hstart x hx)

theorem zipIdx_symbols (candidates : List RankedCandidate) (start : Nat) :
    ((candidates.zipIdx start).map fun e => ({ e.1 with rank := e.2 } : RankedCandidate)).map
      (·.symbol) = candidates.map (·.symbol) := by
  induction candidates generalizing start with
  | nil => rfl
  | cons first rest ih => simp only [List.zipIdx_cons, List.map_cons, ih]

theorem rank_ranked {results : List ScreeningResult} {scored : List RankedCandidate}
    (h : rank c results = .ok scored) : scored.length = results.length ∧ Ranked scored := by
  simp only [rank, bind_ok, pure_ok] at h
  obtain ⟨_, hvalid, rfl⟩ := h
  obtain ⟨hnamed, hnodup⟩ := validateRequest_ok hvalid
  have hperm : (((results.map (scoreSwing c)).insertionSort rankedBefore).map (·.symbol)).Perm
      (results.map (·.symbol)) := by
    have hmap : (results.map (scoreSwing c)).map (·.symbol) = results.map (·.symbol) := by
      rw [List.map_map]
      rfl
    rw [← hmap]
    exact (List.perm_insertionSort _ _).map _
  have hsymbols := zipIdx_symbols ((results.map (scoreSwing c)).insertionSort rankedBefore) 1
  refine ⟨by simp, ⟨?_, ?_, (zipIdx_ranks _ 1).1⟩⟩
  · intro candidate hmem
    have hin : candidate.symbol ∈ results.map (·.symbol) := by
      rw [← hperm.mem_iff, ← hsymbols]
      exact List.mem_map_of_mem hmem
    obtain ⟨r, hr, heq⟩ := List.mem_map.mp hin
    exact heq ▸ (hnamed r hr).1
  · rw [hsymbols]
    exact hperm.nodup_iff.mpr hnodup

theorem validateCandidates_ranked {symbols : List Symbol} {ranks : List Nat}
    {candidates : List RankedCandidate} (h : Ranked candidates)
    (hsymbols : ∀ x ∈ candidates, x.symbol ∉ symbols) (hranks : ∀ x ∈ candidates, x.rank ∉ ranks) :
    validateCandidates symbols ranks candidates = .ok () := by
  induction candidates generalizing symbols ranks with
  | nil => rfl
  | cons first rest ih =>
    have hfirst : first ∈ first :: rest := List.mem_cons_self
    have hdistinct := (List.nodup_cons.mp h.symbols).1
    have hlater := (List.pairwise_cons.mp h.ranks).1
    rw [validateCandidates, h.named first hfirst, if_neg Bool.false_ne_true,
      if_neg (hsymbols first hfirst), if_neg (hranks first hfirst)]
    refine ih (h.sublist (List.sublist_cons_self first rest)) ?_ ?_
    · intro x hx hin
      rcases List.mem_cons.mp hin with heq | hin
      · exact hdistinct (List.mem_map.mpr ⟨x, hx, heq⟩)
      · exact hsymbols x (List.mem_cons_of_mem first hx) hin
    · intro x hx hin
      rcases List.mem_cons.mp hin with heq | hin
      · have hlt := hlater x hx
        omega
      · exact hranks x (List.mem_cons_of_mem first hx) hin

/-- The funnel of an analysis narrows, and its candidates can be saved. -/
structure Analysis.Coherent (a : Analysis) : Prop where
  ranked : Ranked a.ranked
  persisted : a.ranked.length ≤ a.qualifiedCount
  qualified : a.qualifiedCount ≤ a.candidateCount
  candidates : a.candidateCount ≤ a.screenedCount

theorem mapM_length {inputs : List ScanInput} {results : List ScreeningResult}
    (h : inputs.mapM (evaluateInput c) = .ok results) : results.length = inputs.length := by
  induction inputs generalizing results with
  | nil =>
    rw [List.mapM_nil, pure_ok] at h
    rw [← h]
    rfl
  | cons input rest ih =>
    simp only [List.mapM_cons, bind_ok, pure_ok] at h
    obtain ⟨result, -, others, hothers, rfl⟩ := h
    rw [List.length_cons, List.length_cons, ih hothers]

theorem analyze_coherent {inputs : List ScanInput} {a : Analysis} (h : analyze c inputs = .ok a) :
    a.Coherent := by
  simp only [analyze, scan, bind_ok, pure_ok] at h
  obtain ⟨candidates, ⟨_, -, results, hresults, rfl⟩, scored, hscored, rfl⟩ := h
  obtain ⟨hlength, hranked⟩ := rank_ranked hscored
  refine ⟨?_, List.length_take_le' _ _, ?_, ?_⟩
  · exact hranked.sublist ((List.take_sublist _ _).trans List.filter_sublist)
  · exact (List.length_filter_le _ _).trans hlength.le
  · exact (List.length_filter_le _ _).trans (mapM_length hresults).le

/-- The save never refuses an analysis. -/
theorem saveEntries_ranked (entries : List WatchlistEntryRecord) (tradingDate : Date)
    {candidates : List RankedCandidate} (h : Ranked candidates) :
    saveEntries entries tradingDate candidates =
      .ok (entries.filter (·.tradingDate ≠ tradingDate) ++
        candidates.map (WatchlistEntryRecord.mk tradingDate)) := by
  rw [saveEntries, validateCandidates_ranked h (by simp) (by simp)]
  rfl

section Listing

variable {entries saved : List WatchlistEntryRecord} {tradingDate : Date}
  {candidates : List RankedCandidate}

theorem saveEntries_ok (h : saveEntries entries tradingDate candidates = .ok saved) :
    saved = entries.filter (·.tradingDate ≠ tradingDate) ++
      candidates.map (WatchlistEntryRecord.mk tradingDate) := by
  simp only [saveEntries, bind_ok, pure_ok] at h
  obtain ⟨_, -, rfl⟩ := h
  rfl

/-- What was saved for a date is what is listed for it. -/
theorem listEntries_saved (hranked : Ranked candidates)
    (h : saveEntries entries tradingDate candidates = .ok saved) :
    listEntries saved tradingDate = candidates := by
  rw [saveEntries_ok h, listEntries, List.filter_append, List.filter_filter]
  have hold : (entries.filter fun e => decide (e.tradingDate = tradingDate) &&
      decide (e.tradingDate ≠ tradingDate)) = [] := by
    simp
  have hnew : (candidates.map (WatchlistEntryRecord.mk tradingDate)).filter
      (·.tradingDate = tradingDate) = candidates.map (WatchlistEntryRecord.mk tradingDate) := by
    simp [List.filter_eq_self]
  rw [hold, hnew, List.nil_append, List.map_map]
  have hid : candidates.map ((·.candidate) ∘ WatchlistEntryRecord.mk tradingDate) = candidates :=
    List.map_id candidates
  rw [hid]
  exact (hranked.ranks.imp fun hlt => hlt.le).insertionSort_eq

/-- Other trading dates are never changed. -/
theorem listEntries_other {other : Date} (hother : other ≠ tradingDate)
    (h : saveEntries entries tradingDate candidates = .ok saved) :
    listEntries saved other = listEntries entries other := by
  rw [saveEntries_ok h, listEntries, listEntries, List.filter_append, List.filter_filter]
  have hold : (entries.filter fun e => decide (e.tradingDate = other) &&
      decide (e.tradingDate ≠ tradingDate)) = entries.filter (·.tradingDate = other) := by
    refine List.filter_congr fun e _ => ?_
    by_cases heq : e.tradingDate = other
    · simp [heq, hother]
    · simp [heq]
  have hnew : (candidates.map (WatchlistEntryRecord.mk tradingDate)).filter
      (·.tradingDate = other) = [] := by
    simp [List.filter_eq_nil_iff, hother.symm]
  rw [hold, hnew, List.append_nil]

end Listing

end Screener.Market
