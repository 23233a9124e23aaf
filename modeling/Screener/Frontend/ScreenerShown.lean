import Screener.Frontend.DecimalOrder
import Screener.Frontend.ScreenerRestored
import Screener.Lib.Sorted

/-!
# The list that an address brings back

The list has what meets the filters, in the chosen order, and what ties stays in the order of the
items. Whatever the user has done, opening the page again at its own address shows the same list.
-/

namespace Screener.Frontend

open Screener.Lib

/-! ## Restored -/

/-- Two states of the page with the same date that filter and sort alike. -/
structure SameList (s t : ScreenerQuery) : Prop where
  date : t.date = s.date
  setup : t.setup = s.setup
  q : t.q = s.q
  minScore : QueryField.minScore.Alike t.minScore s.minScore
  minValue : QueryField.minValue.Alike t.minValue s.minValue
  warningFree : t.warningFree = s.warningFree
  sort : t.sort = s.sort

theorem QueryField.Alike.eq_of_empty {field : QueryField} {x y : String} (h : field.Alike x y)
    (hdefault : field.defaultValue = "") : x = y := by
  rcases h with heq | ⟨hx, hy⟩
  · exact heq
  · rw [hdefault, or_self] at hx hy
    exact hx.trans hy.symm

theorem QueryField.Alike.eq_of_ne_empty {field : QueryField} {x y : String} (h : field.Alike x y)
    (hx : x ≠ "") (hy : y ≠ "") : x = y := by
  rcases h with heq | ⟨hx', hy'⟩
  · exact heq
  · exact (hx'.resolve_left hx).trans (hy'.resolve_left hy).symm

theorem ScreenerAddress.Synced.sameList {s : ScreenerAddress} (h : s.Synced) :
    SameList s.page (.restore s.query) := by
  simp only [Synced, ScreenerQuery.effects, List.forall_mem_cons, List.not_mem_nil, false_implies,
    implies_true, and_true] at h
  obtain ⟨hdate, hsetup, hq, hscore, hvalue, hwarning, hsort⟩ := h
  refine ⟨hdate.eq_of_empty rfl, hsetup.eq_of_empty rfl, hq.eq_of_empty rfl, hscore, hvalue, ?_,
    hsort.eq_of_ne_empty (ScreenerQuery.sort_read_ne_empty _) s.page.sorted⟩
  have hflags : (if s.query.get "warningFree" = some "1" then "1" else "") =
      if s.page.warningFree then "1" else "" := hwarning.eq_of_empty rfl
  show decide (s.query.get "warningFree" = some "1") = s.page.warningFree
  by_cases hread : s.query.get "warningFree" = some "1"
  · rw [if_pos hread] at hflags
    cases hpage : s.page.warningFree with
    | true => exact decide_eq_true hread
    | false =>
      rw [hpage] at hflags
      exact absurd hflags (by decide)
  · rw [if_neg hread] at hflags
    cases hpage : s.page.warningFree with
    | true =>
      rw [hpage] at hflags
      exact absurd hflags (by decide)
    | false => exact decide_eq_false hread

theorem atLeast_alike {x y : String} (h : x = y ∨ ((x = "" ∨ x = "0") ∧ (y = "" ∨ y = "0")))
    (value : Text) : atLeast x value = atLeast y value := by
  rcases h with rfl | ⟨hx, hy⟩
  · rfl
  · have hall : ∀ limit : String, limit = "" ∨ limit = "0" → atLeast limit value = true := by
      intro limit hlimit
      rcases hlimit with rfl | rfl
      · exact decide_eq_true (.inl rfl)
      · exact decide_eq_true (.inr (.inl rfl))
    rw [hall x hx, hall y hy]

theorem SameList.meets_eq {s t : ScreenerQuery} (h : SameList s t) : t.meets = s.meets := by
  funext item
  rw [ScreenerQuery.meets, ScreenerQuery.meets, h.setup, h.q, h.warningFree,
    atLeast_alike h.minScore, atLeast_alike h.minValue]

theorem SameList.shown_eq {s t : ScreenerQuery} (h : SameList s t)
    (collate : String → String → ℤ) (items : List Candidate) :
    t.shown collate items = s.shown collate items := by
  have hcompare : t.compare collate = s.compare collate := by
    funext a b
    rw [ScreenerQuery.compare, ScreenerQuery.compare, h.sort]
  rw [ScreenerQuery.shown, ScreenerQuery.shown, h.meets_eq, hcompare]

/-! ## The order -/

/-- Comparing texts as the browser does puts them in an order, with ties. -/
structure Collation (collate : String → String → ℤ) : Prop where
  total : ∀ a b, collate a b ≤ 0 ∨ collate b a ≤ 0
  trans : ∀ a b c, collate a b ≤ 0 → collate b c ≤ 0 → collate a c ≤ 0

/-- The average trading value that is sorted and limited by; a missing one counts as zero. -/
def Candidate.tradingValue (item : Candidate) : ℚ :=
  match item.averageTradingValue20 with
  | some amount => amount.value
  | none => 0

/-- `a` may stand before `b`: the better rank, the higher score or value, or the symbol. -/
def ScreenerQuery.Precedes (collate : String → String → ℤ) (s : ScreenerQuery) (a b : Candidate) :
    Prop :=
  if s.sort = "rank" then a.rank ≤ b.rank
  else if s.sort = "score" then b.totalScore.value ≤ a.totalScore.value
  else if s.sort = "value" then b.tradingValue ≤ a.tradingValue
  else collate a.symbol b.symbol ≤ 0

theorem zero_numeral : ∃ n : Numeral, n.negative = false ∧ n.text = ['0'] ∧ n.value = 0 :=
  ⟨⟨false, ['0'], [], by decide, isDigits_zeros 1, isDigits_zeros 0⟩, rfl, rfl, by decide +kernel⟩

theorem tradingText_numeral (item : Candidate) : ∃ n : Numeral, n.negative = false ∧
    n.text = item.tradingText ∧ n.value = item.tradingValue := by
  rw [Candidate.tradingText, Candidate.tradingValue]
  cases item.averageTradingValue20 with
  | some amount => exact ⟨amount.toNumeral, amount.nonNegative, rfl, rfl⟩
  | none => exact zero_numeral

theorem compareDecimalStrings_nonpos {n m : Numeral} (hn : n.negative = false)
    (hm : m.negative = false) : compareDecimalStrings n.text m.text ≤ 0 ↔ n.value ≤ m.value := by
  rw [← Int.sign_nonpos_iff, compareDecimalStrings_order hn hm, comparison]
  split_ifs with hlt hgt
  · exact iff_of_true (by decide) hlt.le
  · exact iff_of_false (by decide) (not_le.mpr hgt)
  · exact iff_of_true le_rfl (not_lt.mp hgt)

theorem compareDecimalStrings_nonneg {n m : Numeral} (hn : n.negative = false)
    (hm : m.negative = false) : 0 ≤ compareDecimalStrings n.text m.text ↔ m.value ≤ n.value := by
  rw [← Int.sign_nonneg_iff, compareDecimalStrings_order hn hm, comparison]
  split_ifs with hlt hgt
  · exact iff_of_false (by decide) (not_le.mpr hlt)
  · exact iff_of_true (by decide) hgt.le
  · exact iff_of_true le_rfl (not_lt.mp hlt)

theorem compare_nonpos (collate : String → String → ℤ) (s : ScreenerQuery) (a b : Candidate) :
    s.compare collate a b ≤ 0 ↔ s.Precedes collate a b := by
  rw [ScreenerQuery.compare, ScreenerQuery.Precedes]
  split_ifs
  · omega
  · exact compareDecimalStrings_nonpos b.totalScore.nonNegative a.totalScore.nonNegative
  · obtain ⟨n, hn, hntext, hnvalue⟩ := tradingText_numeral b
    obtain ⟨m, hm, hmtext, hmvalue⟩ := tradingText_numeral a
    rw [← hntext, ← hmtext, ← hnvalue, ← hmvalue]
    exact compareDecimalStrings_nonpos hn hm
  · rfl

theorem precedes_total {collate : String → String → ℤ} (h : Collation collate) (s : ScreenerQuery)
    (a b : Candidate) : s.Precedes collate a b ∨ s.Precedes collate b a := by
  simp only [ScreenerQuery.Precedes]
  split_ifs
  · exact le_total _ _
  · exact le_total _ _
  · exact le_total _ _
  · exact h.total _ _

theorem precedes_trans {collate : String → String → ℤ} (h : Collation collate) (s : ScreenerQuery)
    {a b c : Candidate} (hab : s.Precedes collate a b) (hbc : s.Precedes collate b c) :
    s.Precedes collate a c := by
  simp only [ScreenerQuery.Precedes] at hab hbc ⊢
  split_ifs at hab hbc ⊢
  · exact hab.trans hbc
  · exact hbc.trans hab
  · exact hbc.trans hab
  · exact h.trans _ _ _ hab hbc

/-! ## The limits -/

theorem value_of_text {n m : Numeral} (hn : n.negative = false) (hm : m.negative = false)
    (h : n.text = m.text) : n.value = m.value := by
  have hle : n.value ≤ m.value := by
    rw [← compareDecimalStrings_nonpos hn hm, ← h, compareDecimalStrings_nonpos hn hn]
  have hge : m.value ≤ n.value := by
    rw [← compareDecimalStrings_nonpos hm hn, h, compareDecimalStrings_nonpos hm hm]
  exact le_antisymm hle hge

theorem text_ne_nil (n : Numeral) (hn : n.negative = false) : n.text ≠ [] := by
  rw [Numeral.text_of_nonneg hn]
  exact List.append_ne_nil_of_left_ne_nil n.nonempty _

/-- A limit that is a decimal without a sign limits the value. -/
theorem atLeast_iff {limit : String} {n m : Numeral} (hn : n.negative = false)
    (hm : m.negative = false) (hlimit : n.text = limit.toList) :
    atLeast limit m.text = true ↔ n.value ≤ m.value := by
  rw [atLeast, decide_eq_true_iff, ← hlimit, compareDecimalStrings_nonneg hm hn]
  constructor
  · rintro (rfl | rfl | hle)
    · exact absurd hlimit (text_ne_nil n hn)
    · obtain ⟨z, hz, hztext, hzvalue⟩ := zero_numeral
      have hzero : n.value = 0 := (value_of_text hn hz (hlimit.trans hztext.symm)).trans hzvalue
      rw [hzero, Numeral.value_of_nonneg hm]
      exact m.magnitude_nonneg
    · exact hle
  · exact fun hle => .inr (.inr hle)

/-! ## The list -/

/-- What the list of the page is: the items that meet its filters, in its order, with the order of
the items between those that tie; a limit that is a decimal keeps just the items whose value
reaches it. -/
structure ShownAs (collate : String → String → ℤ) (s : ScreenerQuery)
    (items list : List Candidate) : Prop where
  members : list.Perm (items.filter s.meets)
  ordered : list.Pairwise fun a b => s.Precedes collate a b ∧
    (s.Precedes collate b a → [a, b].Sublist items)
  score : ∀ limit : Numeral, limit.negative = false → limit.text = s.minScore.toList →
    ∀ item : Candidate, atLeast s.minScore item.totalScore.text = true ↔
      limit.value ≤ item.totalScore.value
  tradingValue : ∀ limit : Numeral, limit.negative = false → limit.text = s.minValue.toList →
    ∀ item : Candidate, atLeast s.minValue item.tradingText = true ↔ limit.value ≤ item.tradingValue

theorem shown_shownAs {collate : String → String → ℤ} (h : Collation collate) (s : ScreenerQuery)
    (items : List Candidate) : ShownAs collate s items (s.shown collate items) := by
  have : Std.Total fun a b => s.compare collate a b ≤ 0 :=
    ⟨fun a b => (precedes_total h s a b).imp (compare_nonpos collate s a b).mpr
      (compare_nonpos collate s b a).mpr⟩
  have : IsTrans Candidate fun a b => s.compare collate a b ≤ 0 := by
    refine ⟨fun a b c hab hbc => ?_⟩
    rw [compare_nonpos] at hab hbc ⊢
    exact precedes_trans h s hab hbc
  have hmembers := List.perm_insertionSort (fun a b => s.compare collate a b ≤ 0)
    (items.filter s.meets)
  refine ⟨hmembers, ?_, ?_, ?_⟩
  · have hitems : (items.filter s.meets).Pairwise fun a b => [a, b].Sublist items :=
      List.pairwise_iff_forall_sublist.mpr fun hsub => hsub.trans List.filter_sublist
    refine (pairwise_insertionSort_stable hitems).imp fun {a b} hab => ?_
    rw [compare_nonpos, compare_nonpos] at hab
    exact hab
  · intro limit hlimit htext item
    exact atLeast_iff hlimit item.totalScore.nonNegative htext
  · intro limit hlimit htext item
    obtain ⟨n, hn, hntext, hnvalue⟩ := tradingText_numeral item
    rw [← hntext, ← hnvalue]
    exact atLeast_iff hlimit hn htext

/-- **The address brings the list back.** Whatever the user has changed and wherever the browser
has gone, a page that is opened at the address has the same date and shows the same list of the
same items: those that meet the filters, in the chosen order. -/
theorem address_restores_list {collate : String → String → ℤ} (hcollate : Collation collate)
    {s : ScreenerAddress} (h : ScreenerAddress.machine.Reachable s) (items : List Candidate) :
    (ScreenerQuery.restore s.query).date = s.page.date ∧
      (ScreenerQuery.restore s.query).shown collate items = s.page.shown collate items ∧
      ShownAs collate s.page items (s.page.shown collate items) := by
  have hsame := (synced_of_reachable h).sameList
  exact ⟨hsame.date, hsame.shown_eq collate items, shown_shownAs hcollate s.page items⟩

/-! An address with an order and an unknown flag; then a limit of zero is typed. -/

theorem localeCompare_nonpos (a b : Text) : localeCompare a b ≤ 0 ↔ a ≤ b := by
  rw [localeCompare]
  split_ifs with hlt hgt
  · exact iff_of_true (by decide) hlt.le
  · exact iff_of_false (by decide) (not_le.mpr hgt)
  · exact iff_of_true le_rfl (not_lt.mp hgt)

theorem collation_localeCompare : Collation fun a b => localeCompare a.toList b.toList := by
  constructor
  · intro a b
    simp only [localeCompare_nonpos]
    exact le_total _ _
  · intro a b c
    simp only [localeCompare_nonpos]
    exact le_trans

theorem isDigits_nil : IsDigits [] := isDigits_zeros 0

theorem isDigits_singleton {digit : Char} (h : digit.isDigit = true) : IsDigits [digit] :=
  List.forall_mem_singleton.mpr h

theorem singleton_nonempty (digit : Char) : [digit] ≠ [] := List.cons_ne_nil digit []

def digitNumeral (digit : Char) (h : digit.isDigit = true) : Numeral where
  negative := false
  whole := [digit]
  fraction := []
  nonempty := singleton_nonempty digit
  wholeDigits := isDigits_singleton h
  fractionDigits := isDigits_nil

theorem digitNumeral_unsigned (digit : Char) (h : digit.isDigit = true) :
    (digitNumeral digit h).negative = false := rfl

/-- A score of one digit. -/
def digitScore (digit : Char) (h : digit.isDigit = true) : Amount :=
  ⟨digitNumeral digit h, digitNumeral_unsigned digit h⟩

/-- Two scores that tie, a lower one before them and a symbol that is not searched for. -/
def scoredItems : List Candidate :=
  [⟨1, "A7", digitScore '7' rfl, none, none, []⟩, ⟨2, "B9", digitScore '9' rfl, none, none, []⟩,
    ⟨4, "A8", digitScore '8' rfl, none, none, []⟩, ⟨3, "8A", digitScore '8' rfl, none, none, []⟩]

theorem address_restores_list_zero_limit : ∃ s : ScreenerAddress,
    s.page.minScore = "0" ∧ s.query = ⟨[("sort", "score"), ("q", "A")]⟩ ∧
      (ScreenerQuery.restore s.query).minScore = "" ∧
      (s.page.shown (fun a b => localeCompare a.toList b.toList) scoredItems).map (·.symbol) =
        ["A8", "8A", "A7"] ∧
      (ScreenerQuery.restore s.query).shown (fun a b => localeCompare a.toList b.toList)
          scoredItems =
        s.page.shown (fun a b => localeCompare a.toList b.toList) scoredItems := by
  let query : SearchParams := ⟨[("sort", "score"), ("warningFree", "yes"), ("q", "A")]⟩
  let page : ScreenerQuery := { ScreenerQuery.restore query with minScore := "0" }
  let typed := (ScreenerAddress.opened query).next (.change page)
  have hreach : ScreenerAddress.machine.Reachable typed := .step (.init ⟨query, rfl⟩) rfl
  have hrestored := (address_restores_list collation_localeCompare hreach scoredItems).2.1
  exact ⟨typed, rfl, by decide +kernel, by decide +kernel, by decide +kernel, hrestored⟩

end Screener.Frontend
