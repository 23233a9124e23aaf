import Screener.Frontend.Dashboards

/-!
# Stale responses

The screener numbers its requests, so it shows the answer to the last selection. The
watchlist and the trades take every answer, so they show the one that came last.
-/

namespace Screener.Frontend

open Screener.Lib

variable {α : Type*}

/-! ## Screener -/

theorem loadedDate_stale {task : DateRequest} {s : ScreenerState α} (h : s.request ≠ task.id)
    (answer : Answer (ScreenerResults α)) : s.loadedDate task answer = s := by
  cases answer with
  | ok result => simp [ScreenerState.loadedDate, h]
  | failed status => simp [ScreenerState.loadedDate, h]

theorem loadedDate_request (task : DateRequest) (answer : Answer (ScreenerResults α))
    (s : ScreenerState α) : (s.loadedDate task answer).request = s.request := by
  by_cases h : s.request = task.id
  · cases answer with
    | ok result => simp [ScreenerState.loadedDate, h]
    | failed status => simp [ScreenerState.loadedDate, h]
  · rw [loadedDate_stale h]

/-- While the newest request waits, nothing has failed. -/
theorem view_loadedDate {task : DateRequest} {s : ScreenerState α} (h : s.request = task.id)
    (hfresh : s.error = "") (answer : Answer (ScreenerResults α)) :
    (s.loadedDate task answer).view = screenerShows answer := by
  cases answer with
  | ok result => simp [ScreenerState.loadedDate, ScreenerState.view, screenerShows, h, hfresh]
  | failed status =>
    have hmessage : loadFailed ≠ "" := by decide
    simp [ScreenerState.loadedDate, ScreenerState.view, screenerShows, h, hmessage]

theorem screener_guarded : (screenerPage (α := α)).Guarded ScreenerState.view screenerShows
    DateRequest.id ScreenerState.request (fun s => s.error = "") where
  select _ _ := ⟨rfl, rfl, rfl⟩
  resume := by
    intro task answer s page more h
    obtain ⟨rfl, rfl⟩ := Prod.mk.inj (Option.some.inj h)
    exact ⟨loadedDate_request task answer s, by simp⟩
  stale := by
    intro task answer s page more h hne
    obtain ⟨rfl, rfl⟩ := Prod.mk.inj (Option.some.inj h)
    exact loadedDate_stale hne.symm answer
  ends := by
    intro task answer s page h hsame hfresh
    obtain ⟨rfl, -⟩ := Prod.mk.inj (Option.some.inj h)
    exact view_loadedDate hsame.symm hfresh answer

/-! ## Watchlist and trades -/

theorem view_loadedItems (rank : α → ℤ) (result : List α) (s : WatchlistState α) :
    (s.loadedItems rank result).view =
      .ofList (result.insertionSort fun a b => rank a ≤ rank b) := by
  cases result with
  | nil => rfl
  | cons item rest =>
    have hsome : ((item :: rest).insertionSort fun a b => rank a ≤ rank b) ≠ [] := by
      rw [← List.length_pos_iff, List.length_insertionSort]
      exact Nat.succ_pos _
    obtain ⟨first, more, hsorted⟩ := List.exists_cons_of_ne_nil hsome
    simp [WatchlistState.loadedItems, WatchlistState.view, ListView.ofList, hsorted]

theorem watchlist_unguarded (rank : α → ℤ) :
    (watchlistPage rank).Unguarded WatchlistState.view (watchlistShows rank) := by
  intro task answer s page h
  cases answer with
  | failed status =>
    obtain ⟨rfl, -⟩ := Prod.mk.inj (Option.some.inj h)
    by_cases hmissing : status = some 404
    · simp [WatchlistState.failed, WatchlistState.view, watchlistShows, hmissing]
    · simp [WatchlistState.failed, WatchlistState.view, watchlistShows, hmissing]
  | ok body =>
    cases body with
    | dates history => cases task <;> simp [watchlistPage, WatchlistState.loaded] at h
    | items result =>
      cases task with
      | history requestedDate => simp [watchlistPage, WatchlistState.loaded] at h
      | latest =>
        obtain ⟨rfl, -⟩ := Prod.mk.inj (Option.some.inj h)
        exact view_loadedItems rank result s
      | byDate requestedDate =>
        obtain ⟨rfl, -⟩ := Prod.mk.inj (Option.some.inj h)
        exact view_loadedItems rank result s

theorem trades_unguarded : (tradesPage (α := α)).Unguarded TradesState.view tradesShows := by
  intro task answer s page h
  obtain ⟨rfl, -⟩ := Prod.mk.inj (Option.some.inj h)
  cases answer with
  | ok result => rfl
  | failed status => rfl

/-! ## The last selection -/

/-- When everything is answered, the screener shows the answer to the last selection; the other
pages do if the answer that came last shows the same. -/
theorem last_selection_shown (rank : α → ℤ) :
    (∀ s, ((screenerPage (α := α)).machine {}).Reachable s → s.pending = [] → 0 < s.started →
      ∃ landing ∈ s.landed, landing.id + 1 = s.started ∧
        s.page.view = screenerShows landing.answer) ∧
    (∀ s, ((watchlistPage rank).machine {}).Reachable s → s.pending = [] → 0 < s.started →
      ∃ landing ∈ s.landed, landing.id + 1 = s.started ∧
        (s.page.view = watchlistShows rank landing.answer ↔
          ∀ last ∈ s.landed.getLast?,
            watchlistShows rank last.answer = watchlistShows rank landing.answer)) ∧
    (∀ s, ((tradesPage (α := α)).machine {}).Reachable s → s.pending = [] → 0 < s.started →
      ∃ landing ∈ s.landed, landing.id + 1 = s.started ∧
        (s.page.view = tradesShows landing.answer ↔
          ∀ last ∈ s.landed.getLast?, tradesShows last.answer = tradesShows landing.answer)) := by
  refine ⟨fun s hs hended hstarted => ?_, fun s hs hended hstarted => ?_,
    fun s hs hended hstarted => ?_⟩
  · obtain ⟨landing, hmem, hid⟩ := Page.exists_newest hs hended hstarted
    exact ⟨landing, hmem, hid, screener_guarded.shows_newest rfl hs landing hmem hid⟩
  · obtain ⟨landing, hmem, hid⟩ := Page.exists_newest hs hended hstarted
    exact ⟨landing, hmem, hid, (watchlist_unguarded rank).shows_newest_iff hs hended hmem⟩
  · obtain ⟨landing, hmem, hid⟩ := Page.exists_newest hs hended hstarted
    exact ⟨landing, hmem, hid, trades_unguarded.shows_newest_iff hs hended hmem⟩

/-! Two selections, of which the second is answered before the first. -/

def overtakenDate : List (PageEvent String (Answer (ScreenerResults ℤ))) :=
  [.select "2024-01-02", .select "2024-01-03", .answer 1 (.ok ⟨[2]⟩), .answer 0 (.ok ⟨[1]⟩)]

def overtakenWatchlist : List (PageEvent String (Answer (WatchlistBody ℤ))) :=
  [.select "2024-01-02", .select "2024-01-03", .answer 0 (.ok (.dates ["2024-01-02"])),
    .answer 1 (.ok (.dates ["2024-01-02"])), .answer 1 (.ok (.items [2])),
      .answer 0 (.ok (.items [1]))]

def overtakenTrades : List (PageEvent TradesSelection (Answer (List ℤ))) :=
  [.select ⟨"1", 0, "", "", 0⟩, .select ⟨"1", 25, "", "", 0⟩, .answer 1 (.ok [2]),
    .answer 0 (.ok [1])]

theorem last_selection_shown_overtaken :
    (∃ s, Machine.follow screenerPage.next { page := {} } overtakenDate = some s ∧
      ∃ landing ∈ s.landed, landing.id + 1 = s.started ∧
        s.page.view = screenerShows landing.answer) ∧
    (∃ s, Machine.follow (watchlistPage id).next { page := {} } overtakenWatchlist = some s ∧
      ∃ landing ∈ s.landed, landing.id + 1 = s.started ∧
        (s.page.view = watchlistShows id landing.answer ↔
          ∀ last ∈ s.landed.getLast?,
            watchlistShows id last.answer = watchlistShows id landing.answer)) ∧
    (∃ s, Machine.follow tradesPage.next { page := {} } overtakenTrades = some s ∧
      ∃ landing ∈ s.landed, landing.id + 1 = s.started ∧
        (s.page.view = tradesShows landing.answer ↔
          ∀ last ∈ s.landed.getLast?, tradesShows last.answer = tradesShows landing.answer)) := by
  obtain ⟨hscreener, hwatchlist, htrades⟩ := last_selection_shown (id : ℤ → ℤ)
  refine ⟨⟨_, rfl, ?_⟩, ⟨_, rfl, ?_⟩, ⟨_, rfl, ?_⟩⟩
  · exact hscreener _ (Page.reachable_of_follow overtakenDate rfl) rfl (by decide)
  · exact hwatchlist _ (Page.reachable_of_follow overtakenWatchlist rfl) rfl (by decide)
  · exact htrades _ (Page.reachable_of_follow overtakenTrades rfl) rfl (by decide)

/-- The watchlist and the trades show the answer to the first selection. -/
theorem first_selection_shown :
    (∃ s, ((watchlistPage (id : ℤ → ℤ)).machine {}).Reachable s ∧ s.pending = [] ∧
      s.page.view = .ready [1] ∧ ∃ landing ∈ s.landed, landing.id + 1 = s.started ∧
        watchlistShows id landing.answer = .ready [2]) ∧
    (∃ s, ((tradesPage (α := ℤ)).machine {}).Reachable s ∧ s.pending = [] ∧
      s.page.view = .ready [1] ∧ ∃ landing ∈ s.landed, landing.id + 1 = s.started ∧
        tradesShows landing.answer = .ready [2]) := by
  refine ⟨⟨_, Page.reachable_of_follow overtakenWatchlist rfl, rfl, rfl, ?_⟩,
    ⟨_, Page.reachable_of_follow overtakenTrades rfl, rfl, rfl, ?_⟩⟩
  · exact ⟨⟨1, "2024-01-03", .ok (.items [2])⟩, List.mem_cons_self, rfl, rfl⟩
  · exact ⟨⟨1, ⟨"1", 25, "", "", 0⟩, .ok [2]⟩, List.mem_cons_self, rfl, rfl⟩

end Screener.Frontend
