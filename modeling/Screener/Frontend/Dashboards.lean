import Mathlib.Data.List.Sort
import Mathlib.Data.String.Basic
import Screener.Lib.AsyncPage

/-!
# Dashboards that load

What three pages do when something is selected and when an answer comes: `loadDate` of the
screener, `load` of the watchlist and the effect of the table of backtest trades.
-/

namespace Screener.Frontend

open Screener.Lib

variable {α : Type*}

/-- The body of an answer, or the status of a failed request if there was an answer. -/
inductive Answer (β : Type*) where
  | ok (body : β)
  | failed (status : Option Nat)

/-- What is seen of a list that is loaded; `ε` is what an error says. -/
inductive ListView (α ε : Type*) where
  | loading
  | ready (items : List α)
  | empty
  | error (reason : ε)
deriving DecidableEq

def ListView.ofList {ε : Type*} : List α → ListView α ε
  | [] => .empty
  | items => .ready items

/-! ## Screener -/

structure ScreenerResults (α : Type*) where
  items : List α

inductive FailedRequest where
  | bootstrap
  | date

structure ScreenerState (α : Type*) where
  items : List α := []
  selectedResult : Option (ScreenerResults α) := none
  loading : Bool := true
  error : String := ""
  failedRequest : Option FailedRequest := none
  request : Nat := 0

/-- The request for the results of a date, with its number. -/
structure DateRequest where
  id : Nat
  selected : String

def loadFailed : String := "스크리너 결과를 불러오지 못했습니다."

namespace ScreenerState

/-- `loadDate` up to its request. -/
def loadDate (selected : String) (s : ScreenerState α) : ScreenerState α × DateRequest :=
  let id := s.request + 1
  ({ s with request := id, loading := true, error := "", failedRequest := none }, ⟨id, selected⟩)

/-- `loadDate` after its request. -/
def loadedDate (task : DateRequest) (answer : Answer (ScreenerResults α)) (s : ScreenerState α) :
    ScreenerState α :=
  let s := match answer with
    | .ok result =>
      if s.request = task.id then
        { s with selectedResult := some result, items := result.items } else s
    | .failed _ =>
      if s.request = task.id then { s with error := loadFailed, failedRequest := some .date } else s
  if s.request = task.id then { s with loading := false } else s

def view (s : ScreenerState α) : ListView α String :=
  if s.loading then .loading
  else if s.error ≠ "" then .error s.error
  else .ofList s.items

end ScreenerState

def screenerPage : Page String DateRequest (Answer (ScreenerResults α)) (ScreenerState α) where
  select := ScreenerState.loadDate
  resume task answer s := some (s.loadedDate task answer, none)

def screenerShows : Answer (ScreenerResults α) → ListView α String
  | .ok result => .ofList result.items
  | .failed _ => .error loadFailed

/-! ## Watchlist -/

inductive WatchlistStatus where
  | loading
  | ready
  | empty
  | notFound
  | error
deriving DecidableEq

structure WatchlistState (α : Type*) where
  items : List α := []
  dates : List String := []
  selectedDate : String := ""
  status : WatchlistStatus := .loading

/-- What `load` waits for. -/
inductive WatchlistRequest where
  | history (requestedDate : String)
  | latest
  | byDate (requestedDate : String)

inductive WatchlistBody (α : Type*) where
  | dates (history : List String)
  | items (result : List α)

namespace WatchlistState

/-- `load` up to its first request. -/
def load (requestedDate : String) (s : WatchlistState α) : WatchlistState α × WatchlistRequest :=
  ({ s with status := .loading }, .history requestedDate)

/-- `setStatus` in the `catch` of `load`. -/
def failed (status : Option Nat) (s : WatchlistState α) : WatchlistState α :=
  { s with status := if status = some 404 then .notFound else .error }

/-- After the history: the ISO dates in descending order, and the request for the items. -/
def loadedHistory (requestedDate : String) (dates : List String) (s : WatchlistState α) :
    WatchlistState α × WatchlistRequest :=
  let history := dates.insertionSort fun a b => b ≤ a
  let date := if requestedDate ≠ "" then requestedDate else history.headD ""
  ({ s with dates := history, selectedDate := date },
    if requestedDate ≠ "" then .byDate requestedDate else .latest)

def loadedItems (rank : α → ℤ) (result : List α) (s : WatchlistState α) : WatchlistState α :=
  { s with
    items := result.insertionSort fun a b => rank a ≤ rank b
    status := if result.length ≠ 0 then .ready else .empty }

/-- `load` after a request. -/
def loaded (rank : α → ℤ) :
    WatchlistRequest → Answer (WatchlistBody α) → WatchlistState α →
      Option (WatchlistState α × Option WatchlistRequest)
  | _, .failed status, s => some (s.failed status, none)
  | .history requestedDate, .ok (.dates history), s =>
    let (s, request) := s.loadedHistory requestedDate history
    some (s, some request)
  | .latest, .ok (.items result), s => some (s.loadedItems rank result, none)
  | .byDate _, .ok (.items result), s => some (s.loadedItems rank result, none)
  | _, _, _ => none

def view (s : WatchlistState α) : ListView α WatchlistStatus :=
  match s.status with
  | .loading => .loading
  | .ready => .ready s.items
  | .empty => .empty
  | .notFound => .error .notFound
  | .error => .error .error

end WatchlistState

def watchlistPage (rank : α → ℤ) :
    Page String WatchlistRequest (Answer (WatchlistBody α)) (WatchlistState α) where
  select := WatchlistState.load
  resume := WatchlistState.loaded rank

/-- A load ends with items or with a failure. -/
def watchlistShows (rank : α → ℤ) : Answer (WatchlistBody α) → ListView α WatchlistStatus
  | .ok (.items result) => .ofList (result.insertionSort fun a b => rank a ≤ rank b)
  | .ok (.dates _) => .loading
  | .failed status => .error (if status = some 404 then .notFound else .error)

/-! ## Trades of a backtest -/

inductive TradesStatus where
  | loading
  | ready
  | error

structure TradesState (α : Type*) where
  trades : List α := []
  state : TradesStatus := .loading

def tradePageLimit : Nat := 25

/-- The request of the effect. -/
structure TradesRequest where
  runId : String
  limit : Nat
  offset : Nat
  symbol : String
  exitReason : String

/-- What the effect depends on. -/
structure TradesSelection where
  runId : String
  offset : Nat
  symbol : String
  exitReason : String
  attempt : Nat

namespace TradesState

/-- The effect up to its request. -/
def effect (selection : TradesSelection) (s : TradesState α) : TradesState α × TradesRequest :=
  ({ s with state := .loading },
    ⟨selection.runId, tradePageLimit, selection.offset, selection.symbol, selection.exitReason⟩)

/-- `.then` and `.catch`. -/
def answered (answer : Answer (List α)) (s : TradesState α) : TradesState α :=
  match answer with
  | .ok result => { s with trades := result, state := .ready }
  | .failed _ => { s with state := .error }

def view (s : TradesState α) : ListView α Unit :=
  match s.state with
  | .loading => .loading
  | .ready => .ofList s.trades
  | .error => .error ()

end TradesState

def tradesPage : Page TradesSelection TradesRequest (Answer (List α)) (TradesState α) where
  select := TradesState.effect
  resume _ answer s := some (s.answered answer, none)

def tradesShows : Answer (List α) → ListView α Unit
  | .ok result => .ofList result
  | .failed _ => .error ()

end Screener.Frontend
