import Screener.Frontend.ScreenerOperations

/-!
# Steps of the screener

What each part of the page does to the operations, to the date that is selected and to the
requests for its results.
-/

namespace Screener.Frontend

open Screener.Lib

variable {α δ : Type*}

/-! ## What the parts of the page do -/

namespace ScreenerPage

variable {page page' q : ScreenerPage α δ} {tasks : List ScreenerTask} {op : Operation}

/-- A page that differs in what neither an operation nor a request looks at. -/
structure Agrees (page q : ScreenerPage α δ) : Prop where
  results : q.results = page.results
  date : q.date = page.date
  running : q.running = page.running
  operation : q.operation = page.operation
  mounted : q.mounted = page.mounted

theorem Agrees.live (h : Agrees page q) : q.Live op ↔ page.Live op := by
  rw [Live, Live, h.mounted, h.operation]

/-- What an answer does to the operation that waits for it. -/
inductive Outcome (page : ScreenerPage α δ) (op : Operation) :
    ScreenerAnswer α δ → ScreenerPage α δ → List ScreenerTask → Prop
  | dead {answer} : ¬page.Live op → Outcome page op answer page []
  | ends {answer q} : page.Live op → Agrees page q →
    Outcome page op answer { q with running := none } []
  | waits {answer q stage} : page.Live op → Agrees page q → (∀ task, stage ≠ .reload task) →
      Outcome page op answer q [.operation { op with stage }]
  | reloads {answer q} : page.Live op → Agrees page q → op.date ≠ "" →
      Outcome page op answer (q.loadDate op.date).1
        [.operation { op with stage := .reload ⟨page.results.request + 1, op.date⟩ }]
  | moves {answer q date} : page.Live op → Agrees page q → date ≠ "" →
      Outcome page op answer { (q.setDate date).1 with running := none } (q.setDate date).2
  | loaded {task answer} : op.stage = .reload task →
      Outcome page op (.results answer) ((page.loadedDate task answer).finished op) []

theorem loadDate_eq (page : ScreenerPage α δ) (selected : String) : page.loadDate selected =
    ({ page with results := { page.results with
        request := page.results.request + 1, loading := true, error := ""
        failedRequest := none } },
      ⟨page.results.request + 1, selected⟩) := rfl

/-- A date is the one that is there, a new one that is requested, or one without a request. -/
theorem setDate_cases (page : ScreenerPage α δ) (date : String) :
    (date = page.date ∧ page.setDate date = (page, [])) ∨
    (page.mounted = true ∧ date ≠ "" ∧
      page.setDate date = ((({ page with date } : ScreenerPage α δ).loadDate date).1,
        [.date ⟨page.results.request + 1, date⟩])) ∨
    ((page.mounted = true → date = "") ∧ page.setDate date = ({ page with date }, [])) := by
  by_cases hsame : date = page.date
  · exact .inl ⟨hsame, if_pos hsame⟩
  · by_cases hload : page.mounted = true ∧ date ≠ ""
    · refine .inr (.inl ⟨hload.1, hload.2, ?_⟩)
      rw [setDate, if_neg hsame, if_pos hload]
      rfl
    · refine .inr (.inr ⟨fun hmounted => ?_, ?_⟩)
      · exact not_not.mp fun hdate => hload ⟨hmounted, hdate⟩
      · rw [setDate, if_neg hsame, if_neg hload]

theorem setDate_controls (page : ScreenerPage α δ) (date : String) :
    (page.setDate date).1.running = page.running ∧
      (page.setDate date).1.operation = page.operation ∧
      (page.setDate date).1.mounted = page.mounted ∧
      (page.setDate date).2.filterMap ScreenerTask.operation? = [] := by
  rcases page.setDate_cases date with ⟨-, heq⟩ | ⟨-, -, heq⟩ | ⟨-, heq⟩
  · rw [heq]
    exact ⟨rfl, rfl, rfl, rfl⟩
  · rw [heq]
    exact ⟨rfl, rfl, rfl, rfl⟩
  · rw [heq]
    exact ⟨rfl, rfl, rfl, rfl⟩

theorem bootstrapped_controls (page : ScreenerPage α δ)
    (found : Option (δ × List String × Option Execution)) :
    (page.bootstrapped found).1.running = page.running ∧
      (page.bootstrapped found).1.operation = page.operation ∧
      (page.bootstrapped found).1.mounted = page.mounted ∧
      (page.bootstrapped found).2.filterMap ScreenerTask.operation? = [] := by
  cases found with
  | none => exact ⟨rfl, rfl, rfl, rfl⟩
  | some found =>
    obtain ⟨definitions, dates, execution⟩ := found
    by_cases hdates : dates = []
    · simp only [bootstrapped, if_pos hdates]
      exact setDate_controls _ _
    · simp only [bootstrapped, if_neg hdates]
      exact setDate_controls _ _

theorem retry_controls (page : ScreenerPage α δ) :
    page.retry.1.running = page.running ∧ page.retry.1.operation = page.operation ∧
      page.retry.1.mounted = page.mounted ∧
      page.retry.2.filterMap ScreenerTask.operation? = [] := by
  unfold retry
  split
  · split_ifs
    · exact ⟨rfl, rfl, rfl, rfl⟩
    · exact ⟨rfl, rfl, rfl, rfl⟩
  · exact ⟨rfl, rfl, rfl, rfl⟩

theorem setDate_date (page : ScreenerPage α δ) (date : String) :
    (page.setDate date).1.date = date := by
  rcases page.setDate_cases date with ⟨hsame, heq⟩ | ⟨-, -, heq⟩ | ⟨-, heq⟩
  · rw [heq, hsame]
  · rw [heq]
    rfl
  · rw [heq]

/-- A bootstrap selects a date where none is selected. -/
theorem bootstrapped_date (page : ScreenerPage α δ)
    (found : Option (δ × List String × Option Execution)) :
    (page.bootstrapped found).1.date = page.date ∨ page.date = "" := by
  by_cases hdate : page.date = ""
  · exact .inr hdate
  · left
    cases found with
    | none => rfl
    | some found =>
      obtain ⟨definitions, dates, execution⟩ := found
      by_cases hdates : dates = []
      · simp only [bootstrapped, if_pos hdates, setDate_date, if_pos hdate]
      · simp only [bootstrapped, if_neg hdates, setDate_date, if_pos hdate]

theorem retry_date (page : ScreenerPage α δ) : page.retry.1.date = page.date := by
  unfold retry
  split
  · split_ifs
    · rfl
    · rfl
  · rfl

theorem execute_some {kind : OperationKind} {confirmed : Bool}
    (h : page.execute kind confirmed = some (page', op)) :
    page.running = none ∧ (kind = .reanalysis → page.date ≠ "") ∧
      op = ⟨page.operation + 1, kind, page.date, .run⟩ ∧
      page' = { page with operation := page.operation + 1, running := some kind, notice := ""
                          operationError := "" } := by
  unfold execute at h
  split_ifs at h with hrunning hdate hconfirmed
  obtain ⟨rfl, rfl⟩ := Prod.mk.inj (Option.some.inj h)
  refine ⟨by simpa using hrunning, fun hkind hempty => hdate ⟨hkind, .inl hempty⟩, rfl, rfl⟩

theorem finished_of_live (h : page.Live op) : page.finished op = { page with running := none } :=
  if_pos h

/-- An operation ends with what its page has loaded. -/
theorem finished_same (page : ScreenerPage α δ) (op : Operation) :
    (page.finished op).results = page.results ∧ (page.finished op).date = page.date ∧
      (page.finished op).operation = page.operation ∧
      (page.finished op).mounted = page.mounted := by
  unfold finished
  split_ifs
  · exact ⟨rfl, rfl, rfl, rfl⟩
  · exact ⟨rfl, rfl, rfl, rfl⟩

theorem failed_outcome (page : ScreenerPage α δ) (op : Operation) (status : Option Nat)
    (answer : ScreenerAnswer α δ) : Outcome page op answer (page.failed op status) [] := by
  by_cases hlive : page.Live op
  · rw [failed, if_pos hlive]
    exact .ends (q := { page with operationError := operationFailed op.kind status }) hlive
      ⟨rfl, rfl, rfl, rfl, rfl⟩
  · rw [failed, if_neg hlive]
    exact .dead hlive

theorem executed_outcome {answer : ScreenerAnswer α δ}
    (h : page.executed op answer = some (page', tasks)) : Outcome page op answer page' tasks := by
  unfold executed at h
  split at h
  case h_1 status hstage =>
    obtain ⟨rfl, rfl⟩ := Prod.mk.inj (Option.some.inj h)
    exact failed_outcome page op status _
  case h_2 result hstage =>
    split_ifs at h with hlive hdone
    · obtain ⟨rfl, rfl⟩ := Prod.mk.inj (Option.some.inj h)
      exact .waits hlive ⟨rfl, rfl, rfl, rfl, rfl⟩ (fun _ => nofun)
    · obtain ⟨rfl, rfl⟩ := Prod.mk.inj (Option.some.inj h)
      exact .waits hlive ⟨rfl, rfl, rfl, rfl, rfl⟩ (fun _ => nofun)
    · obtain ⟨rfl, rfl⟩ := Prod.mk.inj (Option.some.inj h)
      exact .dead hlive
  case h_3 status hstage =>
    obtain ⟨rfl, rfl⟩ := Prod.mk.inj (Option.some.inj h)
    exact failed_outcome page op status _
  case h_4 latest hstage =>
    split_ifs at h with hlive hdate
    · obtain ⟨rfl, rfl⟩ := Prod.mk.inj (Option.some.inj h)
      exact .reloads (q := { page with execution := some latest }) hlive
        ⟨rfl, rfl, rfl, rfl, rfl⟩ hdate
    · obtain ⟨rfl, rfl⟩ := Prod.mk.inj (Option.some.inj h)
      have hsame : Agrees page { page with execution := some latest } := ⟨rfl, rfl, rfl, rfl, rfl⟩
      rw [finished_of_live (hsame.live.mpr hlive)]
      exact .ends hlive hsame
    · obtain ⟨rfl, rfl⟩ := Prod.mk.inj (Option.some.inj h)
      exact .dead hlive
  case h_5 result status hstage =>
    obtain ⟨rfl, rfl⟩ := Prod.mk.inj (Option.some.inj h)
    exact failed_outcome page op status _
  case h_6 result dates hstage =>
    split_ifs at h with hlive hdate
    · obtain ⟨rfl, rfl⟩ := Prod.mk.inj (Option.some.inj h)
      rw [hdate]
      exact .reloads (q := { page with historyDates := dates }) hlive
        ⟨rfl, rfl, rfl, rfl, rfl⟩ (hdate ▸ result.dated)
    · obtain ⟨hpage, htasks⟩ := Prod.mk.inj (Option.some.inj h)
      obtain ⟨-, hoperation, hmounted, -⟩ :=
        setDate_controls { page with historyDates := dates } result.tradingDate
      have hends := finished_of_live ⟨hmounted.trans hlive.1, hoperation.trans hlive.2⟩
      rw [hpage.symm.trans hends, ← htasks]
      exact .moves hlive ⟨rfl, rfl, rfl, rfl, rfl⟩ result.dated
    · obtain ⟨rfl, rfl⟩ := Prod.mk.inj (Option.some.inj h)
      exact .dead hlive
  case h_7 task answer hstage =>
    obtain ⟨rfl, rfl⟩ := Prod.mk.inj (Option.some.inj h)
    exact .loaded hstage
  case h_8 => cases h

theorem answered_bootstrap {answer : ScreenerAnswer α δ}
    (h : page.answered .bootstrap answer = some (page', tasks)) :
    ∃ definitions dates latest, answer = .bootstrap definitions dates latest ∧
      page.bootstrapped (settled definitions dates latest) = (page', tasks) := by
  cases answer with
  | bootstrap definitions dates latest => exact ⟨_, _, _, rfl, Option.some.inj h⟩
  | results answer => cases h
  | execution answer => cases h
  | dates answer => cases h

theorem answered_date {request : DateRequest} {answer : ScreenerAnswer α δ}
    (h : page.answered (.date request) answer = some (page', tasks)) :
    ∃ body, answer = .results body ∧ page' = page.loadedDate request body ∧ tasks = [] := by
  cases answer with
  | results body =>
    obtain ⟨rfl, rfl⟩ := Prod.mk.inj (Option.some.inj h)
    exact ⟨body, rfl, rfl, rfl⟩
  | bootstrap definitions dates latest => cases h
  | execution answer => cases h
  | dates answer => cases h

/-! ## What a step does to the results -/

/-- No request has been sent and none has been answered. -/
structure Unasked (page page' : ScreenerPage α δ) : Prop where
  mounted : page'.mounted = page.mounted
  request : page'.results.request = page.results.request
  items : page'.results.items = page.results.items
  selectedResult : page'.results.selectedResult = page.results.selectedResult
  loading : page'.results.loading = true → page.results.loading = true
  error : page'.results.error = page.results.error ∨ page'.results.error = bootstrapFailed

theorem unasked_of_results (hmounted : page'.mounted = page.mounted)
    (h : page'.results = page.results) : Unasked page page' :=
  ⟨hmounted, by rw [h], by rw [h], by rw [h], by rw [h]; exact id, .inl (by rw [h])⟩

theorem Unasked.trans {page'' : ScreenerPage α δ} (h : Unasked page q) (h' : Unasked q page'') :
    Unasked page page'' where
  mounted := h'.mounted.trans h.mounted
  request := h'.request.trans h.request
  items := h'.items.trans h.items
  selectedResult := h'.selectedResult.trans h.selectedResult
  loading := h.loading ∘ h'.loading
  error := by
    rcases h'.error with hsame | hfailed
    · rw [hsame]
      exact h.error
    · exact .inr hfailed

/-- The date and the results after a step; `asked` is a date that a request may be for although
it is not selected. -/
inductive DateMove (asked : String) (page page' : ScreenerPage α δ) : List DateRequest → Prop
  | stays : page'.date = page.date → Unasked page page' → DateMove asked page page' []
  | clears : (page'.mounted = true → page'.date = "") → Unasked page page' →
      DateMove asked page page' []
  | loads {date} : page.mounted = true → page'.mounted = true → date ≠ "" →
      (date = page'.date ∨ date = asked ∧ page'.date = page.date) →
      page'.results.request = page.results.request + 1 → page'.results.error = "" →
      DateMove asked page page' [⟨page.results.request + 1, date⟩]

theorem DateMove.of_unasked {asked : String} {requests : List DateRequest} (hsame : Unasked page q)
    (hdate : q.date = page.date) (h : DateMove asked q page' requests) :
    DateMove asked page page' requests := by
  cases h with
  | stays hstays hrest => exact .stays (hstays.trans hdate) (hsame.trans hrest)
  | clears hclears hrest => exact .clears hclears (hsame.trans hrest)
  | loads hmounted hstays hsome hfor hnext hfresh =>
    rw [hsame.request] at hnext ⊢
    rw [hdate] at hfor
    exact .loads (hsame.mounted ▸ hmounted) hstays hsome hfor hnext hfresh

/-- A step sends one request at most, with the next number. -/
theorem DateMove.next {asked : String} {requests : List DateRequest}
    (h : DateMove asked page page' requests) :
    requests = [] ∨ ∃ date, requests = [⟨page.results.request + 1, date⟩] := by
  cases h with
  | stays => exact .inl rfl
  | clears => exact .inl rfl
  | loads => exact .inr ⟨_, rfl⟩

theorem setDate_moves (asked : String) (page : ScreenerPage α δ) (date : String) :
    DateMove asked page (page.setDate date).1
      ((page.setDate date).2.filterMap ScreenerTask.dateRequest?) := by
  rcases page.setDate_cases date with ⟨-, heq⟩ | ⟨hmounted, hdate, heq⟩ | ⟨hdate, heq⟩
  · rw [heq]
    exact .stays rfl (unasked_of_results rfl rfl)
  · rw [heq]
    exact .loads hmounted hmounted hdate (.inl rfl) rfl rfl
  · rw [heq]
    exact .clears hdate (unasked_of_results rfl rfl)

theorem bootstrapped_moves (page : ScreenerPage α δ)
    (found : Option (δ × List String × Option Execution)) :
    DateMove page.date page (page.bootstrapped found).1
      ((page.bootstrapped found).2.filterMap ScreenerTask.dateRequest?) := by
  cases found with
  | none => exact .stays rfl ⟨rfl, rfl, rfl, rfl, nofun, .inr rfl⟩
  | some found =>
    obtain ⟨definitions, dates, execution⟩ := found
    by_cases hdates : dates = []
    · simp only [bootstrapped, if_pos hdates]
      refine .of_unasked ?_ ?_ (setDate_moves _ _ _)
      · exact ⟨rfl, rfl, rfl, rfl, nofun, .inl rfl⟩
      · rfl
    · simp only [bootstrapped, if_neg hdates]
      refine .of_unasked ?_ ?_ (setDate_moves _ _ _)
      · exact unasked_of_results rfl rfl
      · rfl

theorem DateMove.of_running {asked : String} {requests : List DateRequest}
    (h : DateMove asked page page' requests) (running : Option OperationKind) :
    DateMove asked page { page' with running } requests := by
  cases h with
  | stays hstays hrest => exact .stays hstays (hrest.trans (unasked_of_results rfl rfl))
  | clears hclears hrest => exact .clears hclears (hrest.trans (unasked_of_results rfl rfl))
  | loads hmounted hstays hsome hfor hnext hfresh =>
    exact .loads hmounted hstays hsome hfor hnext hfresh

theorem dateRequest_of_reload {request : DateRequest} (h : op.stage = .reload request) :
    (ScreenerTask.operation op).dateRequest? = some request := by
  obtain ⟨id, kind, date, stage⟩ := op
  subst h
  rfl

theorem dateRequest_eq_none (op : Operation) (h : ∀ request, op.stage ≠ .reload request) :
    (ScreenerTask.operation op).dateRequest? = none := by
  obtain ⟨id, kind, date, stage⟩ := op
  cases stage with
  | run => rfl
  | latest => rfl
  | history result => rfl
  | reload request => exact absurd rfl (h request)

/-- An answer to an operation is an answer to its request for results, or it moves the date. -/
theorem Outcome.moves_date {answer : ScreenerAnswer α δ} (h : Outcome page op answer page' tasks) :
    (∃ task body, op.stage = .reload task ∧ answer = .results body ∧
      page' = (page.loadedDate task body).finished op ∧ tasks = []) ∨
    DateMove op.date page page' (tasks.filterMap ScreenerTask.dateRequest?) := by
  cases h with
  | dead => exact .inr (.stays rfl (unasked_of_results rfl rfl))
  | ends _ hsame => exact .inr (.stays hsame.date (unasked_of_results hsame.mounted hsame.results))
  | @waits _ _ stage _ hsame hstage =>
    rw [List.filterMap_cons_none (dateRequest_eq_none { op with stage } hstage)]
    exact .inr (.stays hsame.date (unasked_of_results hsame.mounted hsame.results))
  | @reloads _ q hlive hsame hdate =>
    refine .inr (.loads hlive.1 (hsame.mounted.trans hlive.1) hdate (.inr ⟨rfl, hsame.date⟩) ?_ ?_)
    · rw [loadDate_eq, hsame.results]
    · rw [loadDate_eq]
  | @moves _ q date _ hsame hdate =>
    refine .inr (.of_unasked (unasked_of_results hsame.mounted hsame.results) hsame.date ?_)
    exact (setDate_moves op.date q date).of_running none
  | loaded hstage => exact .inl ⟨_, _, hstage, rfl, rfl, rfl⟩

theorem executed_reload {answer : ScreenerAnswer α δ} {request : DateRequest}
    (hstage : op.stage = .reload request) (h : page.executed op answer = some (page', tasks)) :
    ∃ body, answer = .results body ∧ page' = (page.loadedDate request body).finished op ∧
      tasks = [] := by
  unfold executed at h
  rw [hstage] at h
  cases answer with
  | results body =>
    obtain ⟨rfl, rfl⟩ := Prod.mk.inj (Option.some.inj h)
    exact ⟨body, rfl, rfl, rfl⟩
  | bootstrap definitions dates latest => cases h
  | execution answer => cases h
  | dates answer => cases h

theorem retry_moves (hmounted : page.mounted = true) :
    DateMove page.date page page.retry.1 (page.retry.2.filterMap ScreenerTask.dateRequest?) ∨
    page.retry = (page.bootstrap, [.bootstrap]) ∧
      (page.results.failedRequest = some .date → page.date = "") := by
  unfold retry
  split
  case h_1 hfailed =>
    split_ifs with hdate
    · exact .inl (.loads hmounted hmounted hdate (.inl rfl) rfl rfl)
    · exact .inr ⟨rfl, fun _ => not_not.mp hdate⟩
  case h_2 hfailed => exact .inr ⟨rfl, fun hdate => absurd hdate hfailed⟩

/-- The bootstrap of a page without a date asks for the newest one, or it stops loading. -/
theorem bootstrapped_undated (hmounted : page.mounted = true) (hdate : page.date = "")
    {found : Option (δ × List String × Option Execution)} (hdates : ∀ some ∈ found, "" ∉ some.2.1)
    (hloading : (page.bootstrapped found).1.results.loading = true) :
    ∃ date, (page.bootstrapped found).2 = [.date ⟨page.results.request + 1, date⟩] ∧
      (page.bootstrapped found).1.results.request = page.results.request + 1 := by
  cases found with
  | none => cases hloading
  | some found =>
    obtain ⟨definitions, dates, execution⟩ := found
    cases dates with
    | nil =>
      simp only [bootstrapped, if_true, hdate, ne_eq, not_true, if_false,
        List.headD_nil] at hloading
      simp [setDate] at hloading
    | cons date rest =>
      have hsome : date ≠ "" := by
        rintro rfl
        exact hdates _ rfl (List.mem_cons_self ..)
      refine ⟨date, ?_⟩
      simp only [bootstrapped, List.cons_ne_nil, if_false, hdate, ne_eq, not_true, List.headD_cons]
      rw [setDate, if_neg hsome, if_pos ⟨hmounted, hsome⟩]
      exact ⟨rfl, rfl⟩

theorem settled_dates {definitions : Answer δ} {dates : Answer (List String)}
    {latest : Answer Execution} {found : δ × List String × Option Execution}
    (h : settled definitions dates latest = some found) : dates = .ok found.2.1 := by
  unfold settled at h
  split at h
  · cases h
    rfl
  · cases h
    rfl
  · cases h

/-- An answer is one to a request for results, or it moves the date. -/
theorem answered_moves {task : ScreenerTask} {answer : ScreenerAnswer α δ}
    (h : page.answered task answer = some (page', tasks)) :
    (∃ request body, task.dateRequest? = some request ∧ answer = .results body ∧ tasks = [] ∧
      page'.results = page.results.loadedDate request body ∧ page'.date = page.date ∧
      page'.mounted = page.mounted) ∨
    (task.dateRequest? = none ∧
      ∃ asked, (asked = page.date ∨ ∃ op, task = .operation op ∧ asked = op.date) ∧
      DateMove asked page page' (tasks.filterMap ScreenerTask.dateRequest?)) := by
  cases task with
  | bootstrap =>
    obtain ⟨definitions, dates, latest, -, hfound⟩ := answered_bootstrap h
    refine .inr ⟨rfl, page.date, .inl rfl, ?_⟩
    have hmoves := bootstrapped_moves page (settled definitions dates latest)
    rwa [hfound] at hmoves
  | date request =>
    obtain ⟨body, rfl, rfl, rfl⟩ := answered_date h
    exact .inl ⟨request, body, rfl, rfl, rfl, rfl, rfl, rfl⟩
  | operation op =>
    by_cases hreload : ∃ request, op.stage = .reload request
    · obtain ⟨request, hstage⟩ := hreload
      obtain ⟨body, rfl, rfl, rfl⟩ := executed_reload hstage h
      obtain ⟨hresults, hdate, -, hmounted⟩ := finished_same (page.loadedDate request body) op
      exact .inl ⟨request, body, dateRequest_of_reload hstage, rfl, rfl, hresults, hdate, hmounted⟩
    · have hother : ∀ request, op.stage ≠ .reload request := not_exists.mp hreload
      rcases (executed_outcome h).moves_date with ⟨request, -, hstage, -⟩ | hmoves
      · exact absurd hstage (hother request)
      · exact .inr ⟨dateRequest_eq_none op hother, op.date, .inr ⟨op, rfl, rfl⟩, hmoves⟩

end ScreenerPage

end Screener.Frontend
