import Screener.Frontend.StaleResponses

/-!
# Operations of the screener

The page of the screener as a whole: its bootstrap, the dates that are selected, and the
screening or the reanalysis that is started from it. Requests are answered in any order,
also when the page has gone. A state update and the effect of the date that follows from it
are one step.
-/

namespace Screener.Frontend

open Screener.Lib

variable {α δ : Type*}

/-! ## The page -/

inductive OperationKind where
  | normal
  | reanalysis
deriving DecidableEq, Repr

/-- An execution as the backend reports it; it has a date. -/
structure Execution where
  tradingDate : String
  status : String
  skippedReason : Option String
  dated : tradingDate ≠ ""

/-- `result.status === "skipped" && result.skipped_reason === "already_completed"`. -/
def Execution.AlreadyDone (result : Execution) : Prop :=
  result.status = "skipped" ∧ result.skippedReason = some "already_completed"

instance (result : Execution) : Decidable result.AlreadyDone := by
  unfold Execution.AlreadyDone; infer_instance

/-- The state of the page and its references, apart from the filters. -/
structure ScreenerPage (α δ : Type*) where
  results : ScreenerState α := {}
  definitions : Option δ := none
  historyDates : List String := []
  execution : Option Execution := none
  date : String := ""
  running : Option OperationKind := none
  notice : String := ""
  operationError : String := ""
  operation : Nat := 0
  mounted : Bool := true

/-- What an operation waits for. -/
inductive OperationStage where
  | run
  | latest
  | history (result : Execution)
  | reload (task : DateRequest)

/-- A call of `execute`, with the date of the page at the click. -/
structure Operation where
  id : Nat
  kind : OperationKind
  date : String
  stage : OperationStage

inductive ScreenerTask where
  | bootstrap
  | date (task : DateRequest)
  | operation (op : Operation)

def ScreenerTask.operation? : ScreenerTask → Option Operation
  | .operation op => some op
  | _ => none

/-- The request for results that a task waits for. -/
def ScreenerTask.dateRequest? : ScreenerTask → Option DateRequest
  | .date task => some task
  | .operation ⟨_, _, _, .reload task⟩ => some task
  | _ => none

inductive ScreenerAnswer (α δ : Type*) where
  | bootstrap (definitions : Answer δ) (dates : Answer (List String)) (latest : Answer Execution)
  | results (answer : Answer (ScreenerResults α))
  | execution (answer : Answer Execution)
  | dates (answer : Answer (List String))

def bootstrapFailed : String := "스크리너 정보를 불러오지 못했습니다."

def alreadyCompleted : String := "이 날짜의 스크리닝은 이미 완료되었습니다."

def operationFailed (kind : OperationKind) (status : Option Nat) : String :=
  match kind, decide (status = some 409) with
  | .reanalysis, true => "다른 분석이 실행 중이거나 이전 성공 이력이 없습니다."
  | .normal, true => "이미 스크리닝이 실행 중입니다."
  | .reanalysis, false => "다시 분석에 실패했습니다. 이전 결과는 유지됩니다."
  | .normal, false => "스크리닝 실행에 실패했습니다."

namespace ScreenerPage

variable (page : ScreenerPage α δ)

/-- `loadDate` up to its request. -/
def loadDate (selected : String) : ScreenerPage α δ × DateRequest :=
  let (results, task) := page.results.loadDate selected
  ({ page with results }, task)

/-- `loadDate` after its request. -/
def loadedDate (task : DateRequest) (answer : Answer (ScreenerResults α)) : ScreenerPage α δ :=
  { page with results := page.results.loadedDate task answer }

/-- `setDate`, and the effect of a date that is new. -/
def setDate (date : String) : ScreenerPage α δ × List ScreenerTask :=
  if date = page.date then (page, [])
  else if page.mounted ∧ date ≠ "" then
    let (page, task) := { page with date }.loadDate date
    (page, [.date task])
  else ({ page with date }, [])

/-- `bootstrap` up to its requests. -/
def bootstrap : ScreenerPage α δ :=
  { page with results := { page.results with loading := true, error := "", failedRequest := none } }

/-- `Promise.all`: no latest execution is no failure. -/
def settled (definitions : Answer δ) (dates : Answer (List String)) (latest : Answer Execution) :
    Option (δ × List String × Option Execution) :=
  match definitions, dates, latest with
  | .ok definitions, .ok dates, .ok execution => some (definitions, dates, some execution)
  | .ok definitions, .ok dates, .failed (some 404) => some (definitions, dates, none)
  | _, _, _ => none

/-- `bootstrap` after its requests. -/
def bootstrapped (settled : Option (δ × List String × Option Execution)) :
    ScreenerPage α δ × List ScreenerTask :=
  match settled with
  | none =>
    ({ page with results := { page.results with
        error := bootstrapFailed, failedRequest := some .bootstrap, loading := false } }, [])
  | some (definitions, dates, execution) =>
    let page := { page with definitions := some definitions, historyDates := dates, execution }
    let page :=
      if dates = [] then { page with results := { page.results with loading := false } } else page
    page.setDate (if page.date ≠ "" then page.date else dates.headD "")

/-- The page is there and the operation is its newest one. -/
def Live (op : Operation) : Prop := page.mounted = true ∧ page.operation = op.id

instance (op : Operation) : Decidable (page.Live op) := by unfold Live; infer_instance

/-- `finally` of `execute`. -/
def finished (op : Operation) : ScreenerPage α δ :=
  if page.Live op then { page with running := none } else page

/-- `catch` and `finally` of `execute`. -/
def failed (op : Operation) (status : Option Nat) : ScreenerPage α δ :=
  if page.Live op then
    { page with operationError := operationFailed op.kind status, running := none }
  else page

/-- `execute` up to its first request; `confirmed` is the answer to `window.confirm`. -/
def execute (kind : OperationKind) (confirmed : Bool) : Option (ScreenerPage α δ × Operation) :=
  if page.running.isSome then none
  else if kind = .reanalysis ∧ (page.date = "" ∨ page.date ∉ page.historyDates) then none
  else if kind = .reanalysis ∧ confirmed = false then none
  else
    let id := page.operation + 1
    some ({ page with operation := id, running := some kind, notice := "", operationError := "" },
      ⟨id, kind, page.date, .run⟩)

/-- `execute` after a request; there is no step for an answer to another request. -/
def executed (op : Operation) (answer : ScreenerAnswer α δ) :
    Option (ScreenerPage α δ × List ScreenerTask) :=
  match op.stage, answer with
  | .run, .execution (.failed status) => some (page.failed op status, [])
  | .run, .execution (.ok result) =>
    if ¬page.Live op then some (page, [])
    else if op.kind = .normal ∧ result.AlreadyDone then
      some ({ page with notice := alreadyCompleted }, [.operation { op with stage := .latest }])
    else some ({ page with execution := some result },
      [.operation { op with stage := .history result }])
  | .latest, .execution (.failed status) => some (page.failed op status, [])
  | .latest, .execution (.ok latest) =>
    if ¬page.Live op then some (page, [])
    else
      let page := { page with execution := some latest }
      if op.date ≠ "" then
        let (page, task) := page.loadDate op.date
        some (page, [.operation { op with stage := .reload task }])
      else some (page.finished op, [])
  | .history _, .dates (.failed status) => some (page.failed op status, [])
  | .history result, .dates (.ok dates) =>
    if ¬page.Live op then some (page, [])
    else
      let page := { page with historyDates := dates }
      if result.tradingDate = op.date then
        let (page, task) := page.loadDate result.tradingDate
        some (page, [.operation { op with stage := .reload task }])
      else
        let (page, tasks) := page.setDate result.tradingDate
        some (page.finished op, tasks)
  | .reload task, .results answer => some ((page.loadedDate task answer).finished op, [])
  | _, _ => none

/-- What an answer does to the task that waits for it. -/
def answered (task : ScreenerTask) (answer : ScreenerAnswer α δ) :
    Option (ScreenerPage α δ × List ScreenerTask) :=
  match task, answer with
  | .bootstrap, .bootstrap definitions dates latest =>
    some (page.bootstrapped (settled definitions dates latest))
  | .date task, .results answer => some (page.loadedDate task answer, [])
  | .operation op, answer => page.executed op answer
  | _, _ => none

/-- The button under an error. -/
def retry : ScreenerPage α δ × List ScreenerTask :=
  match page.results.failedRequest with
  | some .date =>
    if page.date ≠ "" then
      let (page, task) := page.loadDate page.date
      (page, [.date task])
    else (page.bootstrap, [.bootstrap])
  | _ => (page.bootstrap, [.bootstrap])

/-- The cleanup of the first effect. -/
def unmount : ScreenerPage α δ :=
  { page with
    mounted := false
    results := { page.results with request := page.results.request + 1 }
    operation := page.operation + 1 }

end ScreenerPage

/-! ## Runs -/

/-- The page with its tasks, each under a number of its own, and the requests for results
that have been answered. -/
structure ScreenerRun (α δ : Type*) where
  page : ScreenerPage α δ
  started : Nat := 0
  pending : List (Nat × ScreenerTask) := []
  loaded : List (DateRequest × Answer (ScreenerResults α)) := []

inductive ScreenerEvent (α δ : Type*) where
  | select (date : String)
  | click (kind : OperationKind) (confirmed : Bool)
  | retry
  | answer (id : Nat) (answer : ScreenerAnswer α δ)
  | unmount

namespace ScreenerRun

variable (s : ScreenerRun α δ)

/-- The run with a new page and more tasks. -/
def go (out : ScreenerPage α δ × List ScreenerTask) : ScreenerRun α δ :=
  { s with
    page := out.1
    started := s.started + out.2.length
    pending := s.pending ++ (out.2.zipIdx s.started).map Prod.swap }

/-- The run without a task that is answered. -/
def without (id : Nat) (request : Option DateRequest) (answer : ScreenerAnswer α δ) :
    ScreenerRun α δ :=
  { s with
    pending := s.pending.filter (·.1 ≠ id)
    loaded := match request, answer with
      | some task, .results answer => s.loaded ++ [(task, answer)]
      | _, _ => s.loaded }

/-- The page of a URL, after its two effects. -/
def start (date : String) : ScreenerRun α δ :=
  let page : ScreenerPage α δ := { date }
  let s : ScreenerRun α δ := go { page } (page.bootstrap, [.bootstrap])
  if date ≠ "" then
    let (page, task) := s.page.loadDate date
    s.go (page, [.date task])
  else s

/-- Selections, clicks and retries are of a page that is there; the button for a retry is
shown with an error. -/
def next : ScreenerEvent α δ → Option (ScreenerRun α δ)
  | .select date => if s.page.mounted then some (s.go (s.page.setDate date)) else none
  | .click kind confirmed =>
    if s.page.mounted then
      match s.page.execute kind confirmed with
      | some (page, op) => some (s.go (page, [.operation op]))
      | none => some s
    else none
  | .retry =>
    if s.page.mounted ∧ s.page.results.loading = false ∧ s.page.results.error ≠ "" then
      some (s.go s.page.retry)
    else none
  | .answer id answer =>
    (s.pending.find? (·.1 = id)).bind fun entry =>
      (s.page.answered entry.2 answer).map fun out =>
        (s.without id entry.2.dateRequest? answer).go out
  | .unmount => if s.page.mounted then some { s with page := s.page.unmount } else none

end ScreenerRun

/-- What is pending: the tasks, the operations among them, and the requests for results. -/
def ScreenerRun.tasks (s : ScreenerRun α δ) : List ScreenerTask := s.pending.map (·.2)

def ScreenerRun.operations (s : ScreenerRun α δ) : List Operation :=
  s.tasks.filterMap ScreenerTask.operation?

def ScreenerRun.requests (s : ScreenerRun α δ) : List DateRequest :=
  s.tasks.filterMap ScreenerTask.dateRequest?

def screenerMachine (α δ : Type*) : Machine (ScreenerRun α δ) (ScreenerEvent α δ) where
  init s := ∃ date, s = .start date
  step s event t := s.next event = some t

end Screener.Frontend
