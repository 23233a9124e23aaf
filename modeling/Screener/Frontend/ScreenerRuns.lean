import Screener.Frontend.ScreenerSteps

/-!
# Runs of the screener

In every run at most one operation is pending, and the buttons are off exactly while it is.
When the page has gone, what is still answered changes nothing.
-/

namespace Screener.Frontend

open Screener.Lib

variable {α δ : Type*}

/-! ## What a step of a run does -/

namespace ScreenerRun

variable {s t : ScreenerRun α δ} {event : ScreenerEvent α δ}

/-- Every task has a number of its own. -/
structure Numbered (s : ScreenerRun α δ) : Prop where
  nodup : (s.pending.map (·.1)).Nodup
  used : ∀ entry ∈ s.pending, entry.1 < s.started

/-- The run after a step, by what is pending and no longer by numbers. -/
inductive Moved (s : ScreenerRun α δ) : ScreenerEvent α δ → ScreenerRun α δ → Prop
  | refused {kind confirmed} : Moved s (.click kind confirmed) s
  | unmount : s.page.mounted = true → Moved s .unmount { s with page := s.page.unmount }
  | select {date} : s.page.mounted = true → Moved s (.select date) (s.go (s.page.setDate date))
  | click {kind confirmed page op} : s.page.mounted = true →
      s.page.execute kind confirmed = some (page, op) →
      Moved s (.click kind confirmed) (s.go (page, [.operation op]))
  | retry : s.page.mounted = true → s.page.results.loading = false →
    Moved s .retry (s.go s.page.retry)
  | answer {id answer task before after page tasks t} : s.tasks = before ++ task :: after →
      s.page.answered task answer = some (page, tasks) → t.page = page →
      t.tasks = before ++ after ++ tasks →
      t.loaded = (s.without id task.dateRequest? answer).loaded → Moved s (.answer id answer) t

theorem go_tasks (s : ScreenerRun α δ) (out : ScreenerPage α δ × List ScreenerTask) :
    (s.go out).tasks = s.tasks ++ out.2 := by
  have hout : ((out.2.zipIdx s.started).map Prod.swap).map (·.2) = out.2 := by
    rw [List.map_map]
    exact List.zipIdx_map_fst s.started out.2
  rw [tasks, go, List.map_append, hout, tasks]

theorem numbered_go (h : s.Numbered) (out : ScreenerPage α δ × List ScreenerTask) :
    (s.go out).Numbered := by
  have hnumbers : ((out.2.zipIdx s.started).map Prod.swap).map (·.1) =
      List.range' s.started out.2.length := by
    rw [List.map_map]
    exact List.zipIdx_map_snd s.started out.2
  constructor
  · rw [go, List.map_append, hnumbers, List.nodup_append]
    refine ⟨h.nodup, List.nodup_range', ?_⟩
    rintro n hold m hnew rfl
    obtain ⟨entry, hentry, rfl⟩ := List.mem_map.mp hold
    have hused := h.used entry hentry
    rw [List.mem_range'_1] at hnew
    omega
  · intro entry hentry
    rcases List.mem_append.mp hentry with hold | hnew
    · exact Nat.lt_add_right _ (h.used entry hold)
    · have hmem := List.mem_map_of_mem (f := (·.1)) hnew
      rw [hnumbers, List.mem_range'_1] at hmem
      exact hmem.2

/-- An answered task is taken out, and nothing else. -/
theorem without_tasks (h : s.Numbered) {id : Nat} {entry : Nat × ScreenerTask}
    (hfound : s.pending.find? (·.1 = id) = some entry) (request : Option DateRequest)
    (answer : ScreenerAnswer α δ) : ∃ before after, s.tasks = before ++ entry.2 :: after ∧
      (s.without id request answer).tasks = before ++ after := by
  obtain ⟨hid, before, after, hsplit, -⟩ := List.find?_eq_some_iff_append.mp hfound
  obtain rfl : entry.1 = id := of_decide_eq_true hid
  have hnodup := h.nodup
  rw [hsplit, List.map_append, List.map_cons, List.nodup_middle, List.nodup_cons,
    List.mem_append, not_or] at hnodup
  obtain ⟨⟨hbefore, hafter⟩, -⟩ := hnodup
  have hkeep : ∀ entries : List (Nat × ScreenerTask), entry.1 ∉ entries.map (·.1) →
      entries.filter (·.1 ≠ entry.1) = entries := by
    intro entries hnot
    refine List.filter_eq_self.mpr fun other hother => decide_eq_true fun heq => ?_
    exact hnot (heq ▸ List.mem_map_of_mem hother)
  refine ⟨before.map (·.2), after.map (·.2), by rw [tasks, hsplit, List.map_append, List.map_cons],
    ?_⟩
  simp only [tasks, without]
  rw [hsplit, List.filter_append, List.filter_cons_of_neg (by simp), hkeep _ hbefore,
    hkeep _ hafter, List.map_append]

theorem next_moved (hs : s.Numbered) (h : s.next event = some t) : s.Moved event t := by
  cases event with
  | select date =>
    simp only [next] at h
    split_ifs at h with hmounted
    cases h
    exact .select hmounted
  | click kind confirmed =>
    simp only [next] at h
    split_ifs at h with hmounted
    cases hop : s.page.execute kind confirmed with
    | none =>
      rw [hop] at h
      cases h
      exact .refused
    | some out =>
      rw [hop] at h
      cases h
      exact .click hmounted hop
  | retry =>
    simp only [next] at h
    split_ifs at h with hretry
    cases h
    exact .retry hretry.1 hretry.2.1
  | unmount =>
    simp only [next] at h
    split_ifs at h with hmounted
    cases h
    exact .unmount hmounted
  | answer id answer =>
    simp only [next, Option.bind_eq_some_iff, Option.map_eq_some_iff] at h
    obtain ⟨entry, hfound, out, hout, rfl⟩ := h
    obtain ⟨before, after, hsplit, hrest⟩ :=
      without_tasks hs hfound entry.2.dateRequest? answer
    refine .answer hsplit hout rfl ?_ rfl
    rw [go_tasks, hrest]

theorem numbered_without (h : s.Numbered) (id : Nat) (request : Option DateRequest)
    (answer : ScreenerAnswer α δ) : (s.without id request answer).Numbered :=
  ⟨h.nodup.sublist (List.filter_sublist.map _),
    fun entry hentry => h.used entry (List.mem_of_mem_filter hentry)⟩

theorem numbered_start (date : String) : (start (α := α) (δ := δ) date).Numbered := by
  have hfresh : ({ page := { date } } : ScreenerRun α δ).Numbered := ⟨List.nodup_nil, nofun⟩
  unfold start
  split_ifs
  · exact numbered_go (numbered_go hfresh _) _
  · exact numbered_go hfresh _

theorem numbered_next (hs : s.Numbered) (h : s.next event = some t) : t.Numbered := by
  cases event with
  | answer id answer =>
    simp only [next, Option.bind_eq_some_iff, Option.map_eq_some_iff] at h
    obtain ⟨entry, -, out, -, rfl⟩ := h
    exact numbered_go (numbered_without hs id _ answer) out
  | select date =>
    cases next_moved hs h
    exact numbered_go hs _
  | click kind confirmed =>
    cases next_moved hs h with
    | refused => exact hs
    | click => exact numbered_go hs _
  | retry =>
    cases next_moved hs h
    exact numbered_go hs _
  | unmount =>
    cases next_moved hs h
    exact ⟨hs.nodup, hs.used⟩

theorem numbered_reachable (h : (screenerMachine α δ).Reachable s) : s.Numbered := by
  refine h.invariant ?_ fun s event t _ hs hst => ?_
  · rintro s ⟨date, rfl⟩
    exact numbered_start date
  · exact numbered_next hs (show s.next event = some t from hst)

theorem step_moved (h : (screenerMachine α δ).Reachable s)
    (hst : (screenerMachine α δ).step s event t) :
    s.Moved event t := next_moved (numbered_reachable h) hst

/-- A test of the run that given events end in. -/
theorem exists_reachable {date : String} {events : List (ScreenerEvent α δ)}
    {P : ScreenerRun α δ → Prop} [DecidablePred P]
    (h : (Machine.follow next (start date) events).any (P ·) = true) :
    ∃ s, (screenerMachine α δ).Reachable s ∧ P s :=
  Machine.exists_reachable_of_follow (M := screenerMachine α δ) (fun _ _ _ h => h) ⟨date, rfl⟩ h

/-! ## Operations -/

/-- At most one operation is pending, and while the page is there its buttons know of it. -/
structure Exclusive (s : ScreenerRun α δ) : Prop where
  one : s.operations.length ≤ 1
  running : s.page.mounted = true → s.page.running = s.operations.head?.map Operation.kind
  newest : s.page.mounted = true → ∀ op ∈ s.operations, op.id = s.page.operation
  dated : ∀ op ∈ s.operations, op.kind = .reanalysis → op.date ≠ ""

theorem go_operations (s : ScreenerRun α δ) (out : ScreenerPage α δ × List ScreenerTask) :
    (s.go out).operations = s.operations ++ out.2.filterMap ScreenerTask.operation? := by
  rw [operations, go_tasks, List.filterMap_append, operations]

theorem exclusive_start (date : String) : (start (α := α) (δ := δ) date).Exclusive := by
  unfold start
  split_ifs
  · exact ⟨Nat.zero_le 1, fun _ => rfl, fun _ => nofun, nofun⟩
  · exact ⟨Nat.zero_le 1, fun _ => rfl, fun _ => nofun, nofun⟩

/-- A step that is no operation's. -/
theorem Exclusive.of_controls (h : s.Exclusive) (hoperations : t.operations = s.operations)
    (hrunning : t.page.running = s.page.running) (hoperation : t.page.operation = s.page.operation)
    (hmounted : t.page.mounted = s.page.mounted) : t.Exclusive where
  one := hoperations ▸ h.one
  running := by
    rw [hmounted, hrunning, hoperations]
    exact h.running
  newest := by
    rw [hmounted, hoperation, hoperations]
    exact h.newest
  dated := hoperations ▸ h.dated

theorem exclusive_of_idle (hoperations : t.operations = [])
    (hrunning : t.page.mounted = true → t.page.running = none) : t.Exclusive where
  one := by rw [hoperations]; exact Nat.zero_le 1
  running := by rw [hoperations]; exact hrunning
  newest := by rw [hoperations]; exact fun _ => nofun
  dated := by rw [hoperations]; exact nofun

/-- The operation of a page goes on, with the same number, kind and date. -/
theorem exclusive_of_one (op : Operation) (hoperations : t.operations = [op])
    (hrunning : t.page.running = some op.kind) (hoperation : t.page.operation = op.id)
    (hdated : op.kind = .reanalysis → op.date ≠ "") : t.Exclusive where
  one := by rw [hoperations]; exact le_rfl
  running := by rw [hoperations]; exact fun _ => hrunning
  newest := by
    rw [hoperations]
    exact fun _ => List.forall_mem_singleton.mpr hoperation.symm
  dated := by
    rw [hoperations]
    exact List.forall_mem_singleton.mpr hdated

theorem Exclusive.of_only (h : s.Exclusive) {op : Operation} (honly : s.operations = [op]) :
    (s.page.mounted = true → s.page.running = some op.kind ∧ s.page.operation = op.id) ∧
      (op.kind = .reanalysis → op.date ≠ "") := by
  have hmem : op ∈ s.operations := by
    rw [honly]
    exact List.mem_singleton_self op
  refine ⟨fun hmounted => ⟨?_, (h.newest hmounted op hmem).symm⟩, h.dated op hmem⟩
  rw [h.running hmounted, honly]
  rfl

/-- The operation that is answered ends or goes on. -/
theorem Exclusive.answered (h : s.Exclusive) {op : Operation} {answer : ScreenerAnswer α δ}
    {page : ScreenerPage α δ} {tasks : List ScreenerTask} (honly : s.operations = [op])
    (hout : ScreenerPage.Outcome s.page op answer page tasks) (hpage : t.page = page)
    (htasks : t.operations = tasks.filterMap ScreenerTask.operation?) : t.Exclusive := by
  obtain ⟨hrunning, hdated⟩ := h.of_only honly
  cases hout with
  | dead hdead =>
    refine exclusive_of_idle htasks fun hmounted => ?_
    rw [hpage] at hmounted
    exact absurd ⟨hmounted, (hrunning hmounted).2⟩ hdead
  | ends hlive hsame => exact exclusive_of_idle htasks fun _ => by rw [hpage]
  | waits hlive hsame =>
    obtain ⟨hkind, hid⟩ := hrunning hlive.1
    refine exclusive_of_one _ htasks ?_ ?_ hdated
    · rw [hpage, hsame.running, hkind]
    · rw [hpage, hsame.operation, hid]
  | reloads hlive hsame =>
    obtain ⟨hkind, hid⟩ := hrunning hlive.1
    refine exclusive_of_one _ htasks ?_ ?_ hdated
    · rw [hpage, ScreenerPage.loadDate_eq, hsame.running, hkind]
    · rw [hpage, ScreenerPage.loadDate_eq, hsame.operation, hid]
  | @moves _ q date hlive hsame =>
    rw [(ScreenerPage.setDate_controls q date).2.2.2] at htasks
    exact exclusive_of_idle htasks fun _ => by rw [hpage]
  | @loaded task body hstage =>
    refine exclusive_of_idle htasks fun hmounted => ?_
    rw [hpage] at hmounted ⊢
    rw [(ScreenerPage.finished_same _ op).2.2.2] at hmounted
    rw [ScreenerPage.finished_of_live ⟨hmounted, (hrunning hmounted).2⟩]

theorem filterMap_split {β : Type*} (f : ScreenerTask → Option β)
    {before after : List ScreenerTask} {task : ScreenerTask}
    (h : s.tasks = before ++ task :: after) :
    s.tasks.filterMap f = before.filterMap f ++ ((f task).toList ++ after.filterMap f) := by
  rw [h, List.filterMap_append]
  cases hop : f task with
  | none => rw [List.filterMap_cons_none hop, Option.toList_none, List.nil_append]
  | some op => rw [List.filterMap_cons_some hop, Option.toList_some, List.singleton_append]

/-- What is left of the operations when another task is answered. -/
theorem operations_of_other {before after tasks : List ScreenerTask} {task : ScreenerTask}
    (hsplit : s.tasks = before ++ task :: after) (hother : task.operation? = none)
    (htasks : t.tasks = before ++ after ++ tasks)
    (hnone : tasks.filterMap ScreenerTask.operation? = []) : t.operations = s.operations := by
  rw [operations, operations, filterMap_split _ hsplit, hother, htasks, List.filterMap_append,
    hnone,
    List.append_nil, List.filterMap_append, Option.toList_none, List.nil_append]

/-- The operation that is answered is the only one. -/
theorem Exclusive.only (h : s.Exclusive) {before after tasks : List ScreenerTask} {op : Operation}
    (hsplit : s.tasks = before ++ .operation op :: after)
    (htasks : t.tasks = before ++ after ++ tasks) :
    s.operations = [op] ∧ t.operations = tasks.filterMap ScreenerTask.operation? := by
  have honly : s.operations = _ := filterMap_split ScreenerTask.operation? hsplit
  have hone := h.one
  rw [honly, List.length_append, List.length_append] at hone
  change _ + (1 + _) ≤ 1 at hone
  have hbefore : before.filterMap ScreenerTask.operation? = [] :=
    List.length_eq_zero_iff.mp (by omega)
  have hafter : after.filterMap ScreenerTask.operation? = [] :=
    List.length_eq_zero_iff.mp (by omega)
  rw [hbefore, hafter] at honly
  refine ⟨honly, ?_⟩
  rw [operations, htasks, List.filterMap_append, List.filterMap_append, hbefore, hafter]
  rfl

theorem exclusive_moved (h : s.Exclusive) (hst : s.Moved event t) : t.Exclusive := by
  cases hst with
  | refused => exact h
  | unmount hmounted => exact ⟨h.one, nofun, nofun, h.dated⟩
  | select hmounted =>
    obtain ⟨hrunning, hoperation, hmounted, hnone⟩ := s.page.setDate_controls _
    refine h.of_controls ?_ hrunning hoperation hmounted
    rw [go_operations, hnone, List.append_nil]
  | @click kind confirmed page op hmounted hop =>
    obtain ⟨hfree, hdated, rfl, rfl⟩ := ScreenerPage.execute_some hop
    have hidle : s.operations = [] := by
      have hhead := h.running hmounted
      rw [hfree] at hhead
      exact List.head?_eq_none_iff.mp (Option.map_eq_none_iff.mp hhead.symm)
    refine exclusive_of_one ⟨s.page.operation + 1, kind, s.page.date, .run⟩ ?_ rfl rfl hdated
    rw [go_operations, hidle]
    rfl
  | retry hmounted hloading =>
    obtain ⟨hrunning, hoperation, hmounted, hnone⟩ := s.page.retry_controls
    refine h.of_controls ?_ hrunning hoperation hmounted
    rw [go_operations, hnone, List.append_nil]
  | @answer id answer task before after page tasks t hsplit hout hpage htasks hloaded =>
    subst hpage
    cases task with
    | bootstrap =>
      obtain ⟨definitions, dates, latest, -, hfound⟩ := ScreenerPage.answered_bootstrap hout
      obtain ⟨hrunning, hoperation, hmounted, hnone⟩ :=
        s.page.bootstrapped_controls (ScreenerPage.settled definitions dates latest)
      rw [hfound] at hrunning hoperation hmounted hnone
      exact h.of_controls (operations_of_other hsplit rfl htasks hnone) hrunning hoperation hmounted
    | date request =>
      obtain ⟨body, -, hpage, rfl⟩ := ScreenerPage.answered_date hout
      refine h.of_controls (operations_of_other hsplit rfl htasks rfl) ?_ ?_ ?_
      · rw [hpage, ScreenerPage.loadedDate]
      · rw [hpage, ScreenerPage.loadedDate]
      · rw [hpage, ScreenerPage.loadedDate]
    | operation op =>
      obtain ⟨honly, hleft⟩ := h.only hsplit htasks
      exact h.answered honly (ScreenerPage.executed_outcome hout) rfl hleft

/-! ## Requests for results -/

/-- What a step does to the requests for results. -/
inductive Requested (s : ScreenerRun α δ) (event : ScreenerEvent α δ) (t : ScreenerRun α δ) : Prop
  | asks {asked requests} : (asked = s.page.date ∨ ∃ op ∈ s.operations, asked = op.date) →
      s.page.DateMove asked t.page requests →
      (∀ request, request ∈ t.requests ↔ request ∈ s.requests ∨ request ∈ requests) →
      s.loaded ⊆ t.loaded → Requested s event t
  | loads {request body} : request ∈ s.requests →
      t.page.results = s.page.results.loadedDate request body → t.page.date = s.page.date →
      t.page.mounted = s.page.mounted →
      (∀ other ∈ t.requests, other ∈ s.requests ∧ other.id ≠ request.id) →
      (∀ other ∈ s.requests, other = request ∨ other ∈ t.requests) →
      t.loaded = s.loaded ++ [(request, body)] → Requested s event t
  | boots : event = .retry → (s.page.results.failedRequest = some .date → s.page.date = "") →
      t.page = s.page.bootstrap → t.requests = s.requests → t.loaded = s.loaded →
      Requested s event t
  | leaves : t.page = s.page.unmount → t.requests = s.requests → t.loaded = s.loaded →
      Requested s event t

/-- Every pending request has a number of its own. -/
def Distinct (s : ScreenerRun α δ) : Prop := (s.requests.map (·.id)).Nodup

theorem go_requests (s : ScreenerRun α δ) (out : ScreenerPage α δ × List ScreenerTask)
    (request : DateRequest) : request ∈ (s.go out).requests ↔
      request ∈ s.requests ∨ request ∈ out.2.filterMap ScreenerTask.dateRequest? := by
  rw [requests, go_tasks, List.filterMap_append, List.mem_append, requests]

/-- The requests before and after an answer, by those that it leaves alone. -/
theorem requests_of_answer {before after tasks : List ScreenerTask} {task : ScreenerTask}
    (hsplit : s.tasks = before ++ task :: after) (htasks : t.tasks = before ++ after ++ tasks)
    (request : DateRequest) :
    (request ∈ s.requests ↔ request ∈ (before ++ after).filterMap ScreenerTask.dateRequest? ∨
      task.dateRequest? = some request) ∧
    (request ∈ t.requests ↔ request ∈ (before ++ after).filterMap ScreenerTask.dateRequest? ∨
      request ∈ tasks.filterMap ScreenerTask.dateRequest?) := by
  constructor
  · rw [requests, filterMap_split _ hsplit, List.filterMap_append]
    simp only [List.mem_append, Option.mem_toList]
    tauto
  · rw [requests, htasks, List.filterMap_append, List.mem_append]

/-- No other request has the number of the one that is answered. -/
theorem Distinct.other (h : s.Distinct) {before after : List ScreenerTask} {task : ScreenerTask}
    {request other : DateRequest} (hsplit : s.tasks = before ++ task :: after)
    (hrequest : task.dateRequest? = some request)
    (hother : other ∈ (before ++ after).filterMap ScreenerTask.dateRequest?) :
    other.id ≠ request.id := by
  have hrequests : s.requests = _ := filterMap_split ScreenerTask.dateRequest? hsplit
  rw [Distinct, hrequests, hrequest, Option.toList_some, List.singleton_append, List.map_append,
    List.map_cons, List.nodup_middle, List.nodup_cons, ← List.map_append,
    ← List.filterMap_append] at h
  intro heq
  exact h.1 (heq ▸ List.mem_map_of_mem hother)

theorem moved_requested (hdistinct : s.Distinct) (hst : s.Moved event t) : Requested s event t := by
  cases hst with
  | refused =>
    refine .asks (.inl rfl) (.stays rfl (ScreenerPage.unasked_of_results rfl rfl)) ?_
      (List.Subset.refl _)
    simp
  | unmount hmounted => exact .leaves rfl rfl rfl
  | select hmounted =>
    exact .asks (.inl rfl) (ScreenerPage.setDate_moves _ s.page _) (go_requests s _)
      (List.Subset.refl _)
  | click hmounted hop =>
    obtain ⟨-, -, rfl, rfl⟩ := ScreenerPage.execute_some hop
    exact .asks (.inl rfl) (.stays rfl (ScreenerPage.unasked_of_results rfl rfl))
      (go_requests s _) (List.Subset.refl _)
  | retry hmounted hloading =>
    rcases ScreenerPage.retry_moves hmounted with hmoves | ⟨hboots, hdate⟩
    · exact .asks (.inl rfl) hmoves (go_requests s _) (List.Subset.refl _)
    · rw [hboots]
      refine .boots rfl hdate rfl ?_ rfl
      rw [requests, go_tasks, List.filterMap_append]
      exact List.append_nil _
  | @answer id answer task before after page tasks t hsplit hout hpage htasks hloaded =>
    have hmembers := requests_of_answer hsplit htasks
    subst hpage
    rcases ScreenerPage.answered_moves hout with
      ⟨request, body, hrequest, rfl, rfl, hresults, hdate, hmounted⟩ | ⟨hnone, asked, hasked,
        hmoves⟩
    · rw [hrequest] at hmembers hloaded
      have hmem := (hmembers request).1.mpr (.inr rfl)
      refine .loads hmem hresults hdate hmounted (fun other hother => ?_) (fun other hother => ?_)
        hloaded
      · have hkept := ((hmembers other).2.mp hother).resolve_right List.not_mem_nil
        exact ⟨(hmembers other).1.mpr (.inl hkept), hdistinct.other hsplit hrequest hkept⟩
      · rcases (hmembers other).1.mp hother with hleft | hanswered
        · exact .inr ((hmembers other).2.mpr (.inl hleft))
        · exact .inl (Option.some.inj hanswered).symm
    · rw [hnone] at hmembers hloaded
      refine .asks (hasked.imp_right ?_) hmoves (fun request => ?_) (hloaded ▸ List.Subset.refl _)
      · rintro ⟨op, rfl, rfl⟩
        exact ⟨op, List.mem_filterMap.mpr ⟨.operation op, by rw [hsplit]; simp, rfl⟩, rfl⟩
      · rw [(hmembers request).2, (hmembers request).1]
        simp

/-- No request is newer than the page knows, and after the page has gone none is the newest. -/
structure Issued (s : ScreenerRun α δ) : Prop where
  older : ∀ request ∈ s.requests, request.id ≤ s.page.results.request
  gone : s.page.mounted = false → ∀ request ∈ s.requests, request.id < s.page.results.request

theorem issued_start (date : String) : (start (α := α) (δ := δ) date).Issued := by
  unfold start
  split_ifs
  · exact ⟨List.forall_mem_singleton.mpr le_rfl, nofun⟩
  · exact ⟨nofun, nofun⟩

theorem Issued.of_fewer (h : s.Issued) (hrequest : t.page.results.request = s.page.results.request)
    (hmounted : t.page.mounted = s.page.mounted)
    (hfewer : ∀ request ∈ t.requests, request ∈ s.requests) :
    t.Issued where
  older request hmem := hrequest ▸ h.older request (hfewer request hmem)
  gone hgone request hmem := hrequest ▸ h.gone (hmounted ▸ hgone) request (hfewer request hmem)

theorem issued_requested (h : s.Issued) (hst : Requested s event t) : t.Issued := by
  cases hst with
  | asks hasked hmoves hrequests hloaded =>
    cases hmoves with
    | stays hdate hsame =>
      refine h.of_fewer hsame.request hsame.mounted fun request hmem => ?_
      simpa using (hrequests request).mp hmem
    | clears hdate hsame =>
      refine h.of_fewer hsame.request hsame.mounted fun request hmem => ?_
      simpa using (hrequests request).mp hmem
    | loads _ hmounted hdate hfor hnext =>
      refine ⟨fun request hmem => ?_, fun hgone => absurd hmounted (by simp [hgone])⟩
      rw [hnext]
      rcases (hrequests request).mp hmem with hold | hnew
      · exact Nat.le_succ_of_le (h.older request hold)
      · rw [List.mem_singleton.mp hnew]
  | loads hmem hresults hdate hmounted hfewer hrest hloaded =>
    refine h.of_fewer ?_ hmounted fun request hmem => (hfewer request hmem).1
    rw [hresults, loadedDate_request]
  | boots _ _ hpage hrequests hloaded =>
    refine h.of_fewer ?_ ?_ fun request hmem => hrequests ▸ hmem
    · rw [hpage, ScreenerPage.bootstrap]
    · rw [hpage, ScreenerPage.bootstrap]
  | leaves hpage hrequests hloaded =>
    have hnewer : ∀ request ∈ t.requests, request.id < t.page.results.request := by
      rw [hrequests, hpage]
      exact fun request hrequest => Nat.lt_succ_of_le (h.older request hrequest)
    exact ⟨fun request hrequest => (hnewer request hrequest).le, fun _ => hnewer⟩

/-- The requests that stay keep their numbers, and a new one has the next number. -/
theorem Distinct.of_sublist (h : s.Distinct) (hsafe : s.Issued) {kept requests : List DateRequest}
    (hkept : kept.Sublist s.requests)
    (hnext : requests = [] ∨ ∃ date, requests = [⟨s.page.results.request + 1, date⟩])
    (ht : t.requests = kept ++ requests) : t.Distinct := by
  have hold : (kept.map (·.id)).Nodup := h.sublist (hkept.map _)
  rw [Distinct, ht, List.map_append]
  rcases hnext with rfl | ⟨date, rfl⟩
  · rwa [List.map_nil, List.append_nil]
  · refine List.nodup_append.mpr ⟨hold, List.nodup_singleton _, ?_⟩
    intro id hid next hnew
    obtain ⟨request, hrequest, rfl⟩ := List.mem_map.mp hid
    have holder := hsafe.older request (hkept.subset hrequest)
    rw [List.mem_singleton.mp hnew]
    exact (Nat.lt_succ_of_le holder).ne

theorem distinct_moved (h : s.Distinct) (hsafe : s.Issued) (hst : s.Moved event t) :
    t.Distinct := by
  have hgo : ∀ out : ScreenerPage α δ × List ScreenerTask,
      (s.go out).requests = s.requests ++ out.2.filterMap ScreenerTask.dateRequest? := by
    intro out
    rw [requests, go_tasks, List.filterMap_append, requests]
  cases hst with
  | refused => exact h
  | unmount => exact h
  | select =>
    exact h.of_sublist hsafe (List.Sublist.refl _) (ScreenerPage.setDate_moves "" s.page _).next
      (hgo _)
  | click hmounted hop =>
    obtain ⟨-, -, rfl, rfl⟩ := ScreenerPage.execute_some hop
    exact h.of_sublist hsafe (List.Sublist.refl _) (.inl rfl) (hgo _)
  | retry hmounted =>
    refine h.of_sublist hsafe (List.Sublist.refl _) ?_ (hgo _)
    rcases ScreenerPage.retry_moves hmounted with hmoves | ⟨hboots, -⟩
    · exact hmoves.next
    · rw [hboots]
      exact .inl rfl
  | @answer id answer task before after page tasks t hsplit hout hpage htasks hloaded =>
    have hkept : ((before ++ after).filterMap ScreenerTask.dateRequest?).Sublist s.requests := by
      rw [requests, hsplit]
      exact (List.Sublist.append_left (List.sublist_cons_self task after) before).filterMap _
    refine h.of_sublist hsafe hkept ?_ (by rw [requests, htasks, List.filterMap_append])
    rcases ScreenerPage.answered_moves hout with ⟨-, -, -, -, rfl, -⟩ | ⟨-, asked, -, hmoves⟩
    · exact .inl rfl
    · exact hmoves.next

/-- An answer changes nothing when the page has gone, unless it is the bootstrap's. -/
theorem answered_gone (h : s.Issued) (hgone : s.page.mounted = false) {task : ScreenerTask}
    (hmem : task ∈ s.tasks) (hother : task ≠ .bootstrap) {answer : ScreenerAnswer α δ}
    {out : ScreenerPage α δ × List ScreenerTask} (hout : s.page.answered task answer = some out) :
    out = (s.page, []) := by
  have hstale : ∀ request, task.dateRequest? = some request → ∀ body,
      s.page.loadedDate request body = s.page := by
    intro request hrequest body
    have holder := h.gone hgone request (List.mem_filterMap.mpr ⟨task, hmem, hrequest⟩)
    rw [ScreenerPage.loadedDate, loadedDate_stale holder.ne']
  have hdead : ∀ op, ¬s.page.Live op := fun op hlive => absurd hlive.1 (hgone ▸ Bool.false_ne_true)
  obtain ⟨page, tasks⟩ := out
  cases task with
  | bootstrap => exact absurd rfl hother
  | date request =>
    obtain ⟨body, -, rfl, rfl⟩ := ScreenerPage.answered_date hout
    rw [hstale request rfl body]
  | operation op =>
    cases ScreenerPage.executed_outcome hout with
    | dead => rfl
    | ends hlive => exact absurd hlive (hdead op)
    | waits hlive => exact absurd hlive (hdead op)
    | reloads hlive => exact absurd hlive (hdead op)
    | moves hlive => exact absurd hlive (hdead op)
    | @loaded request body hstage =>
      rw [hstale request (ScreenerPage.dateRequest_of_reload hstage) body, ScreenerPage.finished,
        if_neg (hdead op)]

theorem exclusive_reachable (h : (screenerMachine α δ).Reachable s) : s.Exclusive := by
  refine h.invariant ?_ fun s event t hs hI hst => exclusive_moved hI (step_moved hs hst)
  rintro s ⟨date, rfl⟩
  exact exclusive_start date

theorem issued_distinct_reachable (h : (screenerMachine α δ).Reachable s) :
    s.Issued ∧ s.Distinct := by
  refine h.invariant (I := fun s => s.Issued ∧ s.Distinct) ?_ fun s event t hs hI hst => ?_
  · rintro s ⟨date, rfl⟩
    refine ⟨issued_start date, ?_⟩
    unfold start
    split_ifs
    · exact List.nodup_singleton _
    · exact List.nodup_nil
  · have hmoved := step_moved hs hst
    exact ⟨issued_requested hI.1 (moved_requested hI.2 hmoved), distinct_moved hI.2 hI.1 hmoved⟩

theorem issued_reachable (h : (screenerMachine α δ).Reachable s) : s.Issued :=
  (issued_distinct_reachable h).1

theorem step_requested (h : (screenerMachine α δ).Reachable s) (hst : s.Moved event t) :
    Requested s event t := moved_requested (issued_distinct_reachable h).2 hst

end ScreenerRun

/-! ## The page of the screener -/

/-- At most one operation is pending; while the page is there its buttons are off exactly then.
A reanalysis is of a date. When the page has gone, answers to operations and to requests for
results change nothing. -/
theorem operations_exclusive {s : ScreenerRun α δ} (h : (screenerMachine α δ).Reachable s) :
    s.operations.length ≤ 1 ∧
    (s.page.mounted = true → ∀ kind,
      s.page.running = some kind ↔ ∃ op ∈ s.operations, op.kind = kind) ∧
    (∀ op ∈ s.operations, op.kind = .reanalysis → op.date ≠ "") ∧
    (s.page.mounted = false → ∀ task ∈ s.tasks, task ≠ .bootstrap → ∀ answer out,
      s.page.answered task answer = some out → out = (s.page, [])) := by
  have hone := ScreenerRun.exclusive_reachable h
  refine ⟨hone.one, fun hmounted kind => ?_, hone.dated,
    fun hgone task hmem hother answer out hout =>
    ScreenerRun.answered_gone (ScreenerRun.issued_reachable h) hgone hmem hother hout⟩
  rw [hone.running hmounted]
  have hlength := hone.one
  generalize s.operations = operations at hlength
  cases operations with
  | nil => simp
  | cons op rest =>
    obtain rfl : rest = [] :=
      List.length_eq_zero_iff.mp (Nat.le_zero.mp (Nat.le_of_succ_le_succ hlength))
    simp

/-- A reanalysis is started, a second click is refused, and the page goes. -/
def leftReanalysis : List (ScreenerEvent Unit Unit) :=
  [.answer 0 (.bootstrap (.ok ()) (.ok ["2024-01-02"]) (.failed (some 404))),
    .click .reanalysis true, .click .normal true, .unmount]

theorem operations_exclusive_left : ∃ s : ScreenerRun Unit Unit,
    (s.page.mounted = false ∧ s.operations.map Operation.kind = [.reanalysis]) ∧
    s.operations.length ≤ 1 ∧
    (s.page.mounted = true → ∀ kind,
      s.page.running = some kind ↔ ∃ op ∈ s.operations, op.kind = kind) ∧
    (∀ op ∈ s.operations, op.kind = .reanalysis → op.date ≠ "") ∧
    (s.page.mounted = false → ∀ task ∈ s.tasks, task ≠ .bootstrap → ∀ answer out,
      s.page.answered task answer = some out → out = (s.page, [])) := by
  have hrun : (Machine.follow ScreenerRun.next (.start "") leftReanalysis).any (fun s =>
      s.page.mounted = false ∧ s.operations.map Operation.kind = [.reanalysis]) = true := by
    decide +kernel
  obtain ⟨s, hs, hleft⟩ := ScreenerRun.exists_reachable hrun
  exact ⟨s, hleft, operations_exclusive hs⟩

end Screener.Frontend
