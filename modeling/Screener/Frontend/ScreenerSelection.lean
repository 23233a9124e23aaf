import Screener.Frontend.ScreenerRuns

/-!
# The date that the screener shows

While the date is kept during an operation, the newest request is for the date that is
selected, and its answer is shown unless the bootstrap has failed. A page that loads waits for
an answer, unless its bootstrap is repeated with a date.
-/

namespace Screener.Frontend

open Screener.Lib

variable {α δ : Type*}

namespace ScreenerState

/-- No request for results has failed since the last one was sent. -/
def Fresh (s : ScreenerState α) : Prop := s.error = "" ∨ s.error = bootstrapFailed

/-- The page shows the answer, or that its bootstrap has failed. Results that were answered
are its items. -/
structure Shows (s : ScreenerState α) (answer : Answer (ScreenerResults α)) : Prop where
  results : ∀ result, answer = .ok result →
    s.items = result.items ∧ s.selectedResult = some result
  view : s.view = screenerShows answer ∨ s.view = .error bootstrapFailed

theorem Shows.loading {s : ScreenerState α} {answer : Answer (ScreenerResults α)}
    (h : s.Shows answer) : s.loading = false := by
  by_contra hloading
  have hview : s.view = .loading := if_pos (by simpa using hloading)
  rcases h.view with hshows | hfailed
  · rw [hview] at hshows
    cases answer with
    | failed status => cases hshows
    | ok result =>
      obtain ⟨items⟩ := result
      cases items with
      | nil => cases hshows
      | cons item rest => cases hshows
  · rw [hview] at hfailed
    cases hfailed

theorem view_failed {s : ScreenerState α} (hloading : s.loading = false)
    (herror : s.error = bootstrapFailed) : s.view = .error bootstrapFailed := by
  have hmessage : bootstrapFailed ≠ "" := by decide
  simp [view, hloading, herror, hmessage]

end ScreenerState

/-- The answer to the newest request is shown. -/
theorem loadedDate_newest {task : DateRequest} {s : ScreenerState α} (h : s.request = task.id)
    (hfresh : s.Fresh) (answer : Answer (ScreenerResults α)) :
    (s.loadedDate task answer).Shows answer := by
  constructor
  · rintro result rfl
    simp [ScreenerState.loadedDate, h]
  · rcases hfresh with hnone | hfailed
    · exact .inl (view_loadedDate h hnone answer)
    · cases answer with
      | ok result =>
        refine .inr (ScreenerState.view_failed ?_ ?_)
        · simp [ScreenerState.loadedDate, h]
        · simp [ScreenerState.loadedDate, h, hfailed]
      | failed status =>
        have hmessage : loadFailed ≠ "" := by decide
        simp [ScreenerState.loadedDate, ScreenerState.view, screenerShows, h, hmessage]

theorem loadedDate_loading {task : DateRequest} {s : ScreenerState α} (h : s.request = task.id)
    (answer : Answer (ScreenerResults α)) : (s.loadedDate task answer).loading = false := by
  cases answer with
  | ok result => simp [ScreenerState.loadedDate, h]
  | failed status => simp [ScreenerState.loadedDate, h]

theorem ScreenerPage.Unasked.shows {page page' : ScreenerPage α δ}
    {answer : Answer (ScreenerResults α)} (h : page.Unasked page')
    (hshows : page.results.Shows answer) : page'.results.Shows answer := by
  have hloading : page'.results.loading = false := by
    by_contra hloads
    have hbefore := h.loading (by simpa using hloads)
    rw [hshows.loading] at hbefore
    cases hbefore
  constructor
  · rw [h.items, h.selectedResult]
    exact hshows.results
  · rcases h.error with hsame | hfailed
    · have hview : page'.results.view = page.results.view := by
        simp only [ScreenerState.view, hloading, hshows.loading, hsame, h.items]
      rw [hview]
      exact hshows.view
    · exact .inr (ScreenerState.view_failed hloading hfailed)

theorem ScreenerPage.Unasked.fresh {page page' : ScreenerPage α δ} (h : page.Unasked page')
    (hfresh : page.results.Fresh) : page'.results.Fresh := by
  rcases h.error with hsame | hfailed
  · rw [ScreenerState.Fresh, hsame]
    exact hfresh
  · exact .inr hfailed

namespace ScreenerRun

variable {s t : ScreenerRun α δ} {event : ScreenerEvent α δ}

/-! ## The newest request -/

/-- No other date is selected while an operation is pending. -/
def KeepsDate (s : ScreenerRun α δ) : ScreenerEvent α δ → Prop
  | .select date => date = s.page.date ∨ s.operations = []
  | _ => True

/-- A failed bootstrap is repeated only while no date is selected. -/
def BootsUndated (s : ScreenerRun α δ) : ScreenerEvent α δ → Prop
  | .retry => s.page.results.failedRequest = some .date ∨ s.page.date = ""
  | _ => True

/-- The newest request waits for its answer, or its answer is shown. -/
def Shown (s : ScreenerRun α δ) (request : DateRequest) : Prop :=
  request ∈ s.requests ∨ ∃ answer, (request, answer) ∈ s.loaded ∧ s.page.results.Shows answer

/-- The newest request is for the date that is selected. -/
structure Selected (s : ScreenerRun α δ) : Prop where
  shown : s.page.date ≠ "" → ∃ request : DateRequest, request.id = s.page.results.request ∧
    request.selected = s.page.date ∧ s.Shown request
  newest : s.page.date ≠ "" → ∀ request ∈ s.requests, request.id = s.page.results.request →
    request.selected = s.page.date ∧ s.page.results.Fresh

/-- No operation has another date than the page. -/
def SameDate (s : ScreenerRun α δ) : Prop :=
  ∀ op ∈ s.operations, op.date = "" ∨ op.date = s.page.date

/-- A step without a new request, of a page whose date stays. -/
theorem Selected.of_same (h : s.Selected) (hdate : t.page.date = s.page.date)
    (hsame : s.page.Unasked t.page)
    (hrequests : ∀ request, request ∈ t.requests ↔ request ∈ s.requests)
    (hloaded : s.loaded ⊆ t.loaded) : t.Selected := by
  constructor
  · intro hsome
    obtain ⟨request, hid, hselected, hshown⟩ := h.shown (hdate ▸ hsome)
    refine ⟨request, hid.trans hsame.request.symm, hselected.trans hdate.symm, ?_⟩
    rcases hshown with hpending | ⟨answer, hmem, hshows⟩
    · exact .inl ((hrequests request).mpr hpending)
    · exact .inr ⟨answer, hloaded hmem, hsame.shows hshows⟩
  · intro hsome request hmem hid
    obtain ⟨hselected, hfresh⟩ :=
      h.newest (hdate ▸ hsome) request ((hrequests request).mp hmem) (hid.trans hsame.request)
    exact ⟨hselected.trans hdate.symm, hsame.fresh hfresh⟩

theorem selected_requested (hsafe : s.Issued) (h : s.page.mounted = true → s.Selected)
    (hdates : s.page.mounted = true → s.SameDate) (hboots : s.BootsUndated event)
    (hst : Requested s event t) (hmounted : t.page.mounted = true) : t.Selected := by
  cases hst with
  | asks hasked hmoves hrequests hloaded =>
    cases hmoves with
    | stays hdate hsame =>
      refine (h (hsame.mounted ▸ hmounted)).of_same hdate hsame (fun request => ?_) hloaded
      simpa using hrequests request
    | clears hdate hsame =>
      exact ⟨fun hsome => absurd (hdate hmounted) hsome, fun hsome => absurd (hdate hmounted) hsome⟩
    | @loads date hbefore _ hdate hfor hnext hfresh =>
      have hselected : date = t.page.date := by
        rcases hfor with hfor | ⟨rfl, hstays⟩
        · exact hfor
        · rcases hasked with hpage | ⟨op, hop, rfl⟩
          · exact hpage.trans hstays.symm
          · exact ((hdates hbefore op hop).resolve_left hdate).trans hstays.symm
      constructor
      · intro _
        exact ⟨⟨s.page.results.request + 1, date⟩, hnext.symm, hselected,
          .inl ((hrequests _).mpr (.inr (List.mem_singleton_self _)))⟩
      · intro _ request hmem hid
        rcases (hrequests request).mp hmem with hold | hnew
        · have holder := hsafe.older request hold
          omega
        · rw [List.mem_singleton.mp hnew]
          exact ⟨hselected, .inl hfresh⟩
  | @loads request body hmem hresults hdate hsame hfewer hrest hloaded =>
    have hs := h (hsame ▸ hmounted)
    have hsame : t.page.results.request = s.page.results.request := by
      rw [hresults, loadedDate_request]
    constructor
    · intro hsome
      obtain ⟨shown, hid, hselected, hshown⟩ := hs.shown (hdate ▸ hsome)
      by_cases hnewest : s.page.results.request = request.id
      · obtain ⟨hfor, hfresh⟩ := hs.newest (hdate ▸ hsome) request hmem hnewest.symm
        refine ⟨request, (hsame.trans hnewest).symm, hfor.trans hdate.symm, .inr ⟨body, ?_, ?_⟩⟩
        · rw [hloaded]
          exact List.mem_append_right _ (List.mem_singleton_self _)
        · rw [hresults]
          exact loadedDate_newest hnewest hfresh body
      · -- an answer to an older request
        refine ⟨shown, hid.trans hsame.symm, hselected.trans hdate.symm, ?_⟩
        have hstale := loadedDate_stale hnewest body
        rw [hstale] at hresults
        rcases hshown with hpending | ⟨answer, hanswered, hshows⟩
        · refine .inl ((hrest shown hpending).resolve_left ?_)
          rintro rfl
          exact hnewest hid.symm
        · refine .inr ⟨answer, ?_, ?_⟩
          · rw [hloaded]
            exact List.mem_append_left _ hanswered
          · rw [hresults]
            exact hshows
    · intro hsome other hother hid
      obtain ⟨hold, hother⟩ := hfewer other hother
      rw [hsame] at hid
      have hnewest : s.page.results.request ≠ request.id := fun heq => hother (hid.trans heq)
      rw [hdate, hresults, loadedDate_stale hnewest]
      exact hs.newest (hdate ▸ hsome) other hold hid
  | boots hretry hfailed hpage hrequests hloaded =>
    subst hretry
    rw [ScreenerPage.bootstrap] at hpage
    have hnone : t.page.date = "" := by
      rw [hpage]
      exact hboots.elim hfailed id
    exact ⟨fun hsome => absurd hnone hsome, fun hsome => absurd hnone hsome⟩
  | leaves hpage hrequests hloaded =>
    rw [hpage] at hmounted
    cases hmounted

theorem sameDate_of_same (h : s.SameDate) (hoperations : t.operations = s.operations)
    (hdate : t.page.date = s.page.date ∨ s.page.date = "") : t.SameDate := by
  intro op hop
  rw [hoperations] at hop
  rcases hdate with hdate | hdate
  · rw [hdate]
    exact h op hop
  · rcases h op hop with hnone | hsame
    · exact .inl hnone
    · exact .inl (hsame.trans hdate)

theorem sameDate_of_idle (h : t.operations = []) : t.SameDate := fun op hop => by
  rw [h] at hop
  cases hop

theorem sameDate_moved (hsafe : s.Exclusive) (h : s.page.mounted = true → s.SameDate)
    (hkeeps : s.KeepsDate event) (hst : s.Moved event t) (hmounted : t.page.mounted = true) :
    t.SameDate := by
  cases hst with
  | refused => exact h hmounted
  | unmount => cases hmounted
  | @select date hbefore =>
    have hcontrols := s.page.setDate_controls date
    rcases hkeeps with rfl | hidle
    · rw [ScreenerPage.setDate, if_pos rfl]
      refine sameDate_of_same (h hbefore) ?_ (.inl rfl)
      rw [go_operations]
      exact List.append_nil _
    · refine sameDate_of_idle ?_
      rw [go_operations, hcontrols.2.2.2, hidle, List.append_nil]
  | @click kind confirmed page op hbefore hop =>
    obtain ⟨-, -, rfl, rfl⟩ := ScreenerPage.execute_some hop
    intro op hop
    rw [go_operations] at hop
    rcases List.mem_append.mp hop with hold | hnew
    · exact h hbefore op hold
    · exact .inr (by rw [List.mem_singleton.mp hnew]; rfl)
  | retry hbefore =>
    refine sameDate_of_same (h hbefore) ?_ (.inl ?_)
    · rw [go_operations, (s.page.retry_controls).2.2.2, List.append_nil]
    · exact s.page.retry_date
  | @answer id answer task before after page tasks t hsplit hout hpage htasks hloaded =>
    cases task with
    | bootstrap =>
      obtain ⟨definitions, dates, latest, -, hfound⟩ :=
        ScreenerPage.answered_bootstrap (hpage ▸ hout)
      obtain ⟨-, -, hstays, hnone⟩ :=
        s.page.bootstrapped_controls (ScreenerPage.settled definitions dates latest)
      have hdate := s.page.bootstrapped_date (ScreenerPage.settled definitions dates latest)
      rw [hfound] at hstays hnone hdate
      exact sameDate_of_same (h (hstays ▸ hmounted)) (operations_of_other hsplit rfl htasks hnone)
        hdate
    | date request =>
      obtain ⟨body, -, rfl, rfl⟩ := ScreenerPage.answered_date hout
      rw [hpage, ScreenerPage.loadedDate] at hmounted
      refine sameDate_of_same (h hmounted) (operations_of_other hsplit rfl htasks rfl) (.inl ?_)
      rw [hpage, ScreenerPage.loadedDate]
    | operation op =>
      obtain ⟨honly, hleft⟩ := hsafe.only hsplit htasks
      have hdates : s.page.mounted = true → op.date = "" ∨ op.date = s.page.date :=
        fun hmounted => h hmounted op (honly ▸ List.mem_singleton_self op)
      cases ScreenerPage.executed_outcome hout with
      | dead => exact sameDate_of_idle hleft
      | ends => exact sameDate_of_idle hleft
      | loaded => exact sameDate_of_idle hleft
      | @moves _ q date => exact sameDate_of_idle (hleft.trans (q.setDate_controls date).2.2.2)
      | waits hlive hsame =>
        have hdate : t.page.date = s.page.date := by rw [hpage, hsame.date]
        intro other hother
        rw [hleft] at hother
        rw [List.mem_singleton.mp hother, hdate]
        exact hdates hlive.1
      | reloads hlive hsame =>
        have hdate : t.page.date = s.page.date := by
          rw [hpage, ScreenerPage.loadDate_eq, hsame.date]
        intro other hother
        rw [hleft] at hother
        rw [List.mem_singleton.mp hother, hdate]
        exact hdates hlive.1

theorem selected_start (date : String) : (start (α := α) (δ := δ) date).Selected := by
  unfold start
  split_ifs with hdate
  · constructor
    · intro _
      exact ⟨⟨1, date⟩, rfl, rfl, .inl (List.mem_singleton_self _)⟩
    · intro _
      exact List.forall_mem_singleton.mpr fun _ => ⟨rfl, .inl rfl⟩
  · exact ⟨fun hsome => absurd hsome hdate, fun _ => nofun⟩

/-- The events of a page on which the date and the bootstrap are left alone. -/
def Steady (s : ScreenerRun α δ) (event : ScreenerEvent α δ) : Prop :=
  s.KeepsDate event ∧ s.BootsUndated event

theorem selected_reachable (h : ((screenerMachine α δ).restrict Steady).Reachable s) :
    s.page.mounted = true → s.Selected ∧ s.SameDate := by
  refine h.invariant (I := fun s => s.page.mounted = true → s.Selected ∧ s.SameDate) ?_
    fun s event t hs hI hst => ?_
  · rintro s ⟨date, rfl⟩ -
    refine ⟨selected_start date, sameDate_of_idle ?_⟩
    unfold start
    split_ifs
    · rfl
    · rfl
  · intro hmounted
    have hreach := hs.of_restrict
    have hmoved := step_moved hreach hst.2
    have hdates : s.page.mounted = true → s.SameDate := fun hmounted => (hI hmounted).2
    refine ⟨?_, sameDate_moved (exclusive_reachable hreach) hdates hst.1.1 hmoved hmounted⟩
    exact selected_requested (issued_reachable hreach) (fun hmounted => (hI hmounted).1) hdates
      hst.1.2 (step_requested hreach hmoved) hmounted

/-! ## Loading -/

/-- A bootstrap is repeated only while no date is selected, and the history is of dates. -/
def Starts (s : ScreenerRun α δ) : ScreenerEvent α δ → Prop
  | .retry => s.page.results.failedRequest = some .date ∨ s.page.date = ""
  | .answer _ (.bootstrap _ (.ok dates) _) => "" ∉ dates
  | _ => True

/-- A page that loads waits for its bootstrap or for its newest request. -/
def Waits (s : ScreenerRun α δ) : Prop :=
  s.page.results.loading = true → (.bootstrap ∈ s.tasks ∧ s.page.date = "") ∨
    ∃ request ∈ s.requests, request.id = s.page.results.request

theorem waits_of_move (h : s.page.mounted = true → s.Waits) (asked : String)
    {requests : List DateRequest}
    (hmoves : s.page.DateMove asked t.page requests)
    (hrequests : ∀ request, request ∈ t.requests ↔ request ∈ s.requests ∨ request ∈ requests)
    (hboot : .bootstrap ∈ s.tasks → s.page.date = "" → .bootstrap ∈ t.tasks)
    (hmounted : t.page.mounted = true) : t.Waits := by
  intro hloading
  cases hmoves with
  | stays hdate hsame =>
    rcases h (hsame.mounted ▸ hmounted) (hsame.loading hloading) with
      ⟨hpending, hnone⟩ | ⟨request, hmem, hid⟩
    · exact .inl ⟨hboot hpending hnone, hdate.trans hnone⟩
    · exact .inr ⟨request, (hrequests request).mpr (.inl hmem), hid.trans hsame.request.symm⟩
  | clears hdate hsame =>
    rcases h (hsame.mounted ▸ hmounted) (hsame.loading hloading) with
      ⟨hpending, hnone⟩ | ⟨request, hmem, hid⟩
    · exact .inl ⟨hboot hpending hnone, hdate hmounted⟩
    · exact .inr ⟨request, (hrequests request).mpr (.inl hmem), hid.trans hsame.request.symm⟩
  | loads _ _ hdate hfor hnext hfresh =>
    exact .inr ⟨_, (hrequests _).mpr (.inr (List.mem_singleton_self _)), hnext.symm⟩

theorem tasks_go {task : ScreenerTask} (h : task ∈ s.tasks)
    (out : ScreenerPage α δ × List ScreenerTask) : task ∈ (s.go out).tasks := by
  rw [go_tasks]
  exact List.mem_append_left _ h

theorem tasks_of_answer {before after tasks : List ScreenerTask} {task other : ScreenerTask}
    (hsplit : s.tasks = before ++ task :: after) (htasks : t.tasks = before ++ after ++ tasks)
    (hmem : other ∈ s.tasks) (hne : other ≠ task) : other ∈ t.tasks := by
  rw [hsplit, List.mem_append, List.mem_cons] at hmem
  rw [htasks, List.mem_append, List.mem_append]
  tauto

/-- The answer to a bootstrap. -/
theorem waits_bootstrapped (h : s.page.mounted = true → s.Waits)
    {definitions : Answer δ} {dates : Answer (List String)} {latest : Answer Execution}
    {tasks : List ScreenerTask} (hdates : ∀ found, dates = .ok found → "" ∉ found)
    (hout : s.page.bootstrapped (ScreenerPage.settled definitions dates latest) = (t.page, tasks))
    (hrequests : ∀ request, request ∈ t.requests ↔ request ∈ s.requests ∨
      request ∈ tasks.filterMap ScreenerTask.dateRequest?)
    (hmounted : t.page.mounted = true) : t.Waits := by
  have hmoves := s.page.bootstrapped_moves (ScreenerPage.settled definitions dates latest)
  obtain ⟨-, -, hsame, -⟩ :=
    s.page.bootstrapped_controls (ScreenerPage.settled definitions dates latest)
  rw [hout] at hmoves hsame
  by_cases hdate : s.page.date = ""
  · intro hloading
    have hfound : ∀ found ∈ ScreenerPage.settled definitions dates latest, "" ∉ found.2.1 :=
      fun found hfound => hdates _ (ScreenerPage.settled_dates hfound)
    obtain ⟨date, htasks, hnext⟩ :=
      ScreenerPage.bootstrapped_undated (hsame ▸ hmounted) hdate hfound
        (by rw [hout]; exact hloading)
    rw [hout] at htasks hnext
    obtain rfl : tasks = _ := htasks
    exact .inr ⟨_, (hrequests _).mpr (.inr (List.mem_singleton_self _)), hnext.symm⟩
  · exact waits_of_move h _ hmoves hrequests (fun _ hnone => absurd hnone hdate) hmounted

theorem waits_moved (h : s.page.mounted = true → s.Waits) (hstarts : s.Starts event)
    (hst : s.Moved event t) (hmounted : t.page.mounted = true) : t.Waits := by
  cases hst with
  | refused => exact h hmounted
  | unmount => cases hmounted
  | select =>
    exact waits_of_move h _ (ScreenerPage.setDate_moves "" s.page _) (go_requests s _)
      (fun hpending _ => tasks_go hpending _) hmounted
  | click _ hop =>
    obtain ⟨-, -, rfl, rfl⟩ := ScreenerPage.execute_some hop
    exact waits_of_move h "" (.stays rfl (ScreenerPage.unasked_of_results rfl rfl))
      (go_requests s _)
      (fun hpending _ => tasks_go hpending _) hmounted
  | retry hbefore =>
    rcases ScreenerPage.retry_moves hbefore with hmoves | ⟨hboots, hdate⟩
    · exact waits_of_move h _ hmoves (go_requests s _) (fun hpending _ => tasks_go hpending _)
        hmounted
    · refine fun _ => .inl ⟨?_, ?_⟩
      · rw [go_tasks, hboots]
        exact List.mem_append_right _ (List.mem_singleton_self _)
      · rw [hboots]
        exact hstarts.elim hdate id
  | @answer id answer task before after page tasks t hsplit hout hpage htasks hloaded =>
    have hmembers := requests_of_answer hsplit htasks
    subst hpage
    rcases ScreenerPage.answered_moves hout with
      ⟨request, body, hrequest, rfl, rfl, hresults, hdate, hsame⟩ | ⟨hnone, asked, hasked, hmoves⟩
    · intro hloading
      rw [hresults] at hloading ⊢
      by_cases hnewest : s.page.results.request = request.id
      · rw [loadedDate_loading hnewest body] at hloading
        cases hloading
      · rw [loadedDate_stale hnewest] at hloading ⊢
        rcases h (hsame ▸ hmounted) hloading with ⟨hpending, hundated⟩ | ⟨other, hother, hid⟩
        · refine .inl ⟨tasks_of_answer hsplit htasks hpending ?_, hdate.trans hundated⟩
          rintro rfl
          cases hrequest
        · refine .inr ⟨other, (hmembers other).2.mpr (.inl ?_), hid⟩
          refine ((hmembers other).1.mp hother).resolve_right fun hanswered => hnewest ?_
          rw [← hid, Option.some.inj (hrequest.symm.trans hanswered)]
    · have hrequests : ∀ request, request ∈ t.requests ↔ request ∈ s.requests ∨
          request ∈ tasks.filterMap ScreenerTask.dateRequest? := fun request => by
        rw [(hmembers request).1, (hmembers request).2, hnone]
        simp
      by_cases hboot : task = .bootstrap
      · subst hboot
        obtain ⟨definitions, dates, latest, rfl, hfound⟩ := ScreenerPage.answered_bootstrap hout
        refine waits_bootstrapped h (fun found hdates => ?_) hfound hrequests hmounted
        subst hdates
        exact hstarts
      · exact waits_of_move h _ hmoves hrequests
          (fun hpending _ => tasks_of_answer hsplit htasks hpending (Ne.symm hboot)) hmounted

theorem waits_reachable (h : ((screenerMachine α δ).restrict Starts).Reachable s) :
    s.page.mounted = true → s.Waits := by
  refine h.invariant (I := fun s => s.page.mounted = true → s.Waits) ?_ fun s event t hs hI hst =>
    ?_
  · rintro s ⟨date, rfl⟩ - -
    unfold start
    split_ifs with hdate
    · exact .inr ⟨⟨1, date⟩, List.mem_singleton_self _, rfl⟩
    · exact .inl ⟨List.mem_singleton_self _, not_not.mp hdate⟩
  · exact waits_moved hI hst.1 (step_moved hs.of_restrict hst.2)

end ScreenerRun

/-! ## The page of the screener -/

def skippedExecution : Execution := ⟨"2024-01-02", "skipped", some "already_completed", by decide⟩

/-- Another date is selected while a screening that is already done asks for its execution. -/
def changedDate : List (ScreenerEvent ℕ Unit) :=
  [.answer 0 (.bootstrap (.ok ()) (.ok ["2024-01-02"]) (.failed (some 404))),
    .answer 1 (.results (.ok ⟨[2]⟩)), .click .normal true,
    .answer 2 (.execution (.ok skippedExecution)), .select "2024-01-03",
    .answer 3 (.execution (.ok skippedExecution)), .answer 4 (.results (.ok ⟨[3]⟩)),
    .answer 5 (.results (.ok ⟨[2]⟩))]

/-- Nothing is pending, and the page shows an answer for a date that is not selected and none
for the date that is. -/
def ScreenerRun.ShowsOther (s : ScreenerRun ℕ Unit) : Prop :=
  s.page.mounted = true ∧ s.page.date ≠ "" ∧ s.tasks.isEmpty = true ∧
    (∃ loaded ∈ s.loaded, loaded.1.selected ≠ s.page.date ∧
      s.page.results.view = screenerShows loaded.2) ∧
    ∀ loaded ∈ s.loaded, loaded.1.selected = s.page.date →
      s.page.results.view ≠ screenerShows loaded.2

instance (s : ScreenerRun ℕ Unit) : Decidable s.ShowsOther := by
  unfold ScreenerRun.ShowsOther; infer_instance

/-- While the date is kept during operations and a failed bootstrap is repeated only without
one, the newest request is for the date that is selected; it waits for its answer, or the page
shows this answer or that its bootstrap has failed. If another date is selected during an
operation, the page can end up showing the results of the date before. -/
theorem selected_date_shown :
    (∀ s : ScreenerRun α δ, ((screenerMachine α δ).restrict ScreenerRun.Steady).Reachable s →
      s.page.mounted = true → s.page.date ≠ "" → ∃ request : DateRequest,
        request.id = s.page.results.request ∧ request.selected = s.page.date ∧ s.Shown request) ∧
    ∃ s : ScreenerRun ℕ Unit,
      ((screenerMachine ℕ Unit).restrict ScreenerRun.BootsUndated).Reachable s ∧ s.ShowsOther := by
  constructor
  · intro s h hmounted
    exact (ScreenerRun.selected_reachable h hmounted).1.shown
  · have hrun : (Machine.follow ScreenerRun.next (.start "2024-01-02") changedDate).any
        (ScreenerRun.ShowsOther ·) = true := by decide +kernel
    obtain ⟨s, hs, hother⟩ := (Option.any_eq_true _ _).mp hrun
    have hboots : ∀ event ∈ changedDate, ∀ s : ScreenerRun ℕ Unit, s.BootsUndated event := by
      simp [changedDate, ScreenerRun.BootsUndated]
    exact ⟨s, Machine.reachable_of_follow_allowed (M := screenerMachine ℕ Unit)
      (fun _ _ _ hst => hst) hboots (.init ⟨"2024-01-02", rfl⟩) hs, of_decide_eq_true hother⟩

/-- A bootstrap that has failed is repeated after the date of the URL has been loaded. -/
def repeatedBootstrap : List (ScreenerEvent Unit Unit) :=
  [.answer 1 (.results (.ok ⟨[]⟩)),
    .answer 0 (.bootstrap (.failed none) (.failed none) (.failed none)),
    .retry, .answer 2 (.bootstrap (.ok ()) (.ok ["2024-01-02"]) (.failed (some 404)))]

/-- The page loads and waits for nothing. -/
def ScreenerRun.Stuck (s : ScreenerRun α δ) : Prop :=
  s.page.mounted = true ∧ s.page.results.loading = true ∧ s.tasks.isEmpty = true

instance (s : ScreenerRun α δ) : Decidable s.Stuck := by
  unfold ScreenerRun.Stuck; infer_instance

/-- A page that loads waits for its bootstrap or for its newest request, if a bootstrap is
repeated only while no date is selected. If it is repeated with a date, the page can load while
it waits for nothing. -/
theorem loading_ends :
    (∀ s : ScreenerRun α δ, ((screenerMachine α δ).restrict ScreenerRun.Starts).Reachable s →
      s.page.mounted = true → s.page.results.loading = true → .bootstrap ∈ s.tasks ∨
        ∃ request ∈ s.requests, request.id = s.page.results.request) ∧
    ∃ s : ScreenerRun Unit Unit, (screenerMachine Unit Unit).Reachable s ∧ s.Stuck := by
  constructor
  · intro s h hmounted hloading
    exact (ScreenerRun.waits_reachable h hmounted hloading).imp_left And.left
  · have hrun : (Machine.follow ScreenerRun.next (.start "2024-01-02") repeatedBootstrap).any
        (ScreenerRun.Stuck ·) = true := by decide +kernel
    exact ScreenerRun.exists_reachable hrun

end Screener.Frontend
