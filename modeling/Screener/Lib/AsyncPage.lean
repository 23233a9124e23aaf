import Mathlib.Data.List.Nodup
import Screener.Lib.Machine

/-!
# Pages with requests in flight

Each selection starts a task that waits for answers, one after another; the answers to
different tasks come in any order. When every task has ended, a page whose tasks check that
they are the newest one shows the end of the last selection; a page whose tasks check
nothing shows the end that came last.
-/

namespace Screener.Lib

variable {κ τ ρ σ ν : Type*}

/-- How a page starts a task, and how a task goes on with an answer: it waits for another
one or ends. There is no step for an answer that it does not wait for. -/
structure Page (κ τ ρ σ : Type*) where
  select : κ → σ → σ × τ
  resume : τ → ρ → σ → Option (σ × Option τ)

/-- A task that waits; the selections are counted from 0. -/
structure Flight (κ τ : Type*) where
  id : Nat
  selection : κ
  task : τ

/-- A task that has ended with an answer. -/
structure Landing (κ ρ : Type*) where
  id : Nat
  selection : κ
  answer : ρ

structure PageRun (κ τ ρ σ : Type*) where
  page : σ
  started : Nat := 0
  pending : List (Flight κ τ) := []
  landed : List (Landing κ ρ) := []

inductive PageEvent (κ ρ : Type*) where
  | select (selection : κ)
  | answer (id : Nat) (body : ρ)

namespace PageRun

def land (s : PageRun κ τ ρ σ) (flight : Flight κ τ) (answer : ρ) (page : σ) : PageRun κ τ ρ σ where
  page := page
  started := s.started
  pending := s.pending.filter (·.id ≠ flight.id)
  landed := s.landed ++ [⟨flight.id, flight.selection, answer⟩]

def wait (s : PageRun κ τ ρ σ) (flight : Flight κ τ) (task : τ) (page : σ) : PageRun κ τ ρ σ :=
  { s with
    page
    pending := s.pending.map fun other =>
      if other.id = flight.id then { other with task } else other }

/-- Every selection has one task, which waits or has ended. -/
structure Counted (s : PageRun κ τ ρ σ) : Prop where
  nodup : (s.pending.map Flight.id ++ s.landed.map Landing.id).Nodup
  complete : ∀ id, id ∈ s.pending.map Flight.id ++ s.landed.map Landing.id ↔ id < s.started

end PageRun

namespace Page

variable (P : Page κ τ ρ σ)

def next (s : PageRun κ τ ρ σ) : PageEvent κ ρ → Option (PageRun κ τ ρ σ)
  | .select selection =>
    let (page, task) := P.select selection s.page
    some { s with
      page
      started := s.started + 1
      pending := s.pending ++ [⟨s.started, selection, task⟩] }
  | .answer id body =>
    (s.pending.find? (·.id = id)).bind fun flight =>
      (P.resume flight.task body s.page).map fun (page, more) =>
        match more with
        | some task => s.wait flight task page
        | none => s.land flight body page

def machine (start : σ) : Machine (PageRun κ τ ρ σ) (PageEvent κ ρ) where
  init s := s = { page := start }
  step s event t := P.next s event = some t

variable {P} {start : σ} {s t : PageRun κ τ ρ σ}

/-- What an event can do. -/
theorem step_cases {event : PageEvent κ ρ} (h : (P.machine start).step s event t) :
    (∃ selection, t = { s with
      page := (P.select selection s.page).1
      started := s.started + 1
      pending := s.pending ++ [⟨s.started, selection, (P.select selection s.page).2⟩] }) ∨
    ∃ flight ∈ s.pending, ∃ body page,
      (∃ task, P.resume flight.task body s.page = some (page, some task) ∧
        t = s.wait flight task page) ∨
      (P.resume flight.task body s.page = some (page, none) ∧ t = s.land flight body page) := by
  cases event with
  | select selection => exact .inl ⟨selection, (Option.some.inj h).symm⟩
  | answer id body =>
    obtain ⟨flight, hfind, h⟩ := Option.bind_eq_some_iff.mp h
    obtain ⟨⟨page, more⟩, hresume, h⟩ := Option.map_eq_some_iff.mp h
    refine .inr ⟨flight, List.mem_of_find?_eq_some hfind, body, page, ?_⟩
    cases more with
    | some task => exact .inl ⟨task, hresume, h.symm⟩
    | none => exact .inr ⟨hresume, h.symm⟩

end Page

/-! ## Every selection has one task -/

namespace PageRun

variable {s : PageRun κ τ ρ σ} {flight : Flight κ τ}

@[simp] theorem wait_ids (s : PageRun κ τ ρ σ) (flight : Flight κ τ) (task : τ) (page : σ) :
    (s.wait flight task page).pending.map Flight.id = s.pending.map Flight.id := by
  simp only [wait, List.map_map]
  refine List.map_congr_left fun other _ => ?_
  by_cases hid : other.id = flight.id
  · simp [hid]
  · simp [hid]

theorem Counted.wait (h : s.Counted) (task : τ) (page : σ) : (s.wait flight task page).Counted where
  nodup := by
    rw [wait_ids]
    exact h.nodup
  complete := by
    intro id
    rw [wait_ids]
    exact h.complete id

theorem Counted.select (h : s.Counted) (selection : κ) (task : τ) (page : σ) :
    Counted { s with
      page
      started := s.started + 1
      pending := s.pending ++ [⟨s.started, selection, task⟩] } := by
  have hfresh : s.started ∉ s.pending.map Flight.id ++ s.landed.map Landing.id :=
    fun hin => Nat.lt_irrefl _ ((h.complete _).mp hin)
  have hperm : ((s.pending ++ [(⟨s.started, selection, task⟩ : Flight κ τ)]).map Flight.id ++
      s.landed.map Landing.id).Perm
        (s.started :: (s.pending.map Flight.id ++ s.landed.map Landing.id)) := by
    rw [List.map_append, List.append_assoc, List.map_singleton, List.singleton_append]
    exact List.perm_middle
  constructor
  · exact hperm.nodup_iff.mpr (List.nodup_cons.mpr ⟨hfresh, h.nodup⟩)
  · intro id
    rw [hperm.mem_iff, List.mem_cons, h.complete]
    change _ ↔ id < s.started + 1
    omega

/-- An id that lands stays one id. -/
theorem land_ids (hnodup : (s.pending.map Flight.id).Nodup) (hflight : flight ∈ s.pending)
    (answer : ρ)
    (page : σ) : ((s.land flight answer page).pending.map Flight.id ++
      (s.land flight answer page).landed.map Landing.id).Perm
        (s.pending.map Flight.id ++ s.landed.map Landing.id) := by
  have herase : (s.land flight answer page).pending.map Flight.id =
      (s.pending.map Flight.id).erase flight.id := by
    rw [hnodup.erase_eq_filter, List.filter_map]
    refine congrArg (List.map Flight.id) (List.filter_congr fun other _ => ?_)
    by_cases hid : other.id = flight.id <;> simp [hid]
  have hlanded : (s.land flight answer page).landed.map Landing.id =
      s.landed.map Landing.id ++ [flight.id] := by
    rw [land, List.map_append, List.map_singleton]
  have hmoved : ((s.pending.map Flight.id).erase flight.id ++
      (s.landed.map Landing.id ++ [flight.id])).Perm
      (flight.id :: ((s.pending.map Flight.id).erase flight.id ++ s.landed.map Landing.id)) := by
    rw [← List.append_assoc]
    exact List.perm_append_singleton _ _
  rw [herase, hlanded]
  exact hmoved.trans ((List.perm_cons_erase (List.mem_map_of_mem hflight)).symm.append_right _)

theorem Counted.land (h : s.Counted) (hflight : flight ∈ s.pending) (answer : ρ) (page : σ) :
    (s.land flight answer page).Counted := by
  have hperm := land_ids (List.nodup_append.mp h.nodup).1 hflight answer page
  constructor
  · exact hperm.nodup_iff.mpr h.nodup
  · intro id
    rw [hperm.mem_iff]
    exact h.complete id

end PageRun

namespace Page

variable {P : Page κ τ ρ σ} {start : σ} {s t : PageRun κ τ ρ σ}

theorem counted (h : (P.machine start).Reachable s) : s.Counted := by
  refine h.invariant ?_ ?_
  · rintro s rfl
    exact ⟨List.nodup_nil, by simp⟩
  · intro s event t _ hcounted hstep
    obtain ⟨selection, rfl⟩ | ⟨flight, hflight, body, page, ⟨task, -, rfl⟩ | ⟨-, rfl⟩⟩ :=
      step_cases hstep
    · exact hcounted.select selection _ _
    · exact hcounted.wait task page
    · exact hcounted.land hflight body page

/-! ## What a page shows -/

/-- The page shows the end of the last selection. -/
def ShowsNewest (view : σ → ν) (shows : ρ → ν) (s : PageRun κ τ ρ σ) : Prop :=
  ∀ landing ∈ s.landed, landing.id + 1 = s.started → view s.page = shows landing.answer

/-- When every task has ended, the last selection has. -/
theorem exists_newest (h : (P.machine start).Reachable s) (hended : s.pending = [])
    (hstarted : 0 < s.started) : ∃ landing ∈ s.landed, landing.id + 1 = s.started := by
  have hin : s.started - 1 ∈ s.pending.map Flight.id ++ s.landed.map Landing.id :=
    ((counted h).complete _).mpr (by omega)
  rw [hended, List.map_nil, List.nil_append] at hin
  obtain ⟨landing, hmem, hid⟩ := List.mem_map.mp hin
  exact ⟨landing, hmem, by omega⟩

/-- Events in a given order. -/
theorem reachable_of_follow (events : List (PageEvent κ ρ))
    (h : Machine.follow P.next { page := start } events = some s) : (P.machine start).Reachable s :=
  Machine.reachable_of_follow (fun _ _ _ hnext => hnext) rfl h

/-! ### Tasks that check -/

/-- Every task has a number, a page the number of its newest task, and no other task changes
the page. `fresh` is what a page is while its newest task waits. -/
structure Guarded (P : Page κ τ ρ σ) (view : σ → ν) (shows : ρ → ν) (number : τ → Nat)
    (newest : σ → Nat) (fresh : σ → Prop) : Prop where
  select : ∀ k s, newest (P.select k s).1 = newest s + 1 ∧
    number (P.select k s).2 = newest s + 1 ∧ fresh (P.select k s).1
  resume : ∀ task answer s page more, P.resume task answer s = some (page, more) →
    newest page = newest s ∧ ∀ task' ∈ more, number task' = number task ∧ (fresh s → fresh page)
  stale : ∀ task answer s page more, P.resume task answer s = some (page, more) →
    number task ≠ newest s → page = s
  ends : ∀ task answer s page, P.resume task answer s = some (page, none) →
    number task = newest s → fresh s → view page = shows answer

/-- Where the newest task has ended, it is what is seen. -/
structure Guarded.Kept (view : σ → ν) (shows : ρ → ν) (number : τ → Nat) (newest : σ → Nat)
    (fresh : σ → Prop) (s : PageRun κ τ ρ σ) : Prop where
  newest : newest s.page = s.started
  numbers : ∀ flight ∈ s.pending, number flight.task = flight.id + 1
  waits : ∀ flight ∈ s.pending, flight.id + 1 = s.started → fresh s.page
  seen : ShowsNewest view shows s

section Guarded

variable {view : σ → ν} {shows : ρ → ν} {number : τ → Nat} {newest : σ → Nat} {fresh : σ → Prop}
  {flight : Flight κ τ} {answer : ρ} {page : σ}

theorem Guarded.kept_select (hP : Guarded P view shows number newest fresh) (hcounted : s.Counted)
    (hs : Guarded.Kept view shows number newest fresh s) (selection : κ) :
    Guarded.Kept view shows number newest fresh { s with
      page := (P.select selection s.page).1
      started := s.started + 1
      pending := s.pending ++ [⟨s.started, selection, (P.select selection s.page).2⟩] } := by
  obtain ⟨hnewest, hnumber, hfresh⟩ := hP.select selection s.page
  constructor
  case newest => exact hnewest.trans (congrArg (· + 1) hs.newest)
  case numbers =>
    refine List.forall_mem_append.mpr ⟨hs.numbers, List.forall_mem_singleton.mpr ?_⟩
    exact hnumber.trans (congrArg (· + 1) hs.newest)
  case waits => exact fun _ _ _ => hfresh
  case seen =>
    -- The new selection has not ended.
    intro landing hmem hid
    have hlt := (hcounted.complete landing.id).mp
      (List.mem_append_right _ (List.mem_map_of_mem hmem))
    exact absurd (Nat.succ.inj hid) (Nat.ne_of_lt hlt)

/-- Once the newest task has ended, the others change nothing. -/
theorem Guarded.seen_resume (hP : Guarded P view shows number newest fresh) (hcounted : s.Counted)
    (hs : Guarded.Kept view shows number newest fresh s) (hflight : flight ∈ s.pending)
    {more : Option τ} (hresume : P.resume flight.task answer s.page = some (page, more)) :
    ∀ landing ∈ s.landed, landing.id + 1 = s.started → view page = shows landing.answer := by
  intro landing hmem hid
  have hdisjoint := (List.nodup_append.mp hcounted.nodup).2.2
  have hother := hdisjoint _ (List.mem_map_of_mem hflight) _ (List.mem_map_of_mem hmem)
  have hstale : number flight.task ≠ newest s.page := by
    rw [hs.numbers flight hflight, hs.newest]
    omega
  rw [hP.stale _ _ _ _ _ hresume hstale]
  exact hs.seen landing hmem hid

theorem Guarded.kept_wait (hP : Guarded P view shows number newest fresh) (hcounted : s.Counted)
    (hs : Guarded.Kept view shows number newest fresh s) (hflight : flight ∈ s.pending) {task : τ}
    (hresume : P.resume flight.task answer s.page = some (page, some task)) :
    Guarded.Kept view shows number newest fresh (s.wait flight task page) := by
  obtain ⟨hnewest, hmore⟩ := hP.resume _ _ _ _ _ hresume
  obtain ⟨hnumber, hfresh⟩ := hmore task rfl
  have hbefore : ∀ other ∈ (s.wait flight task page).pending, ∃ before ∈ s.pending,
      before.id = other.id ∧
        (number before.task = before.id + 1 → number other.task = other.id + 1) := by
    intro other hother
    obtain ⟨before, hmem, rfl⟩ := List.mem_map.mp hother
    refine ⟨before, hmem, ?_⟩
    by_cases hid : before.id = flight.id
    · rw [if_pos hid]
      refine ⟨rfl, fun _ => ?_⟩
      rw [hnumber, hs.numbers flight hflight, hid]
    · rw [if_neg hid]
      exact ⟨rfl, id⟩
  constructor
  case newest => exact hnewest.trans hs.newest
  case numbers =>
    intro other hother
    obtain ⟨before, hmem, -, hkeeps⟩ := hbefore other hother
    exact hkeeps (hs.numbers before hmem)
  case waits =>
    intro other hother hid
    obtain ⟨before, hmem, hsame, -⟩ := hbefore other hother
    exact hfresh (hs.waits before hmem (by rw [hsame]; exact hid))
  case seen =>
    have hseen := hP.seen_resume hcounted hs hflight hresume
    exact hseen

theorem Guarded.kept_land (hP : Guarded P view shows number newest fresh) (hcounted : s.Counted)
    (hs : Guarded.Kept view shows number newest fresh s) (hflight : flight ∈ s.pending)
    (hresume : P.resume flight.task answer s.page = some (page, none)) :
    Guarded.Kept view shows number newest fresh (s.land flight answer page) := by
  obtain ⟨hnewest, -⟩ := hP.resume _ _ _ _ _ hresume
  have hnumber := hs.numbers flight hflight
  constructor
  case newest => exact hnewest.trans hs.newest
  case numbers => exact fun other hother => hs.numbers other (List.mem_of_mem_filter hother)
  case waits =>
    intro other hother hid
    obtain ⟨hmem, hne⟩ := List.mem_filter.mp hother
    have hlast : other.id + 1 = s.started := hid
    have hstale : number flight.task ≠ newest s.page := by
      intro hsame
      rw [hnumber, hs.newest, ← hlast] at hsame
      exact of_decide_eq_true hne (Nat.succ.inj hsame).symm
    change fresh page
    rw [hP.stale _ _ _ _ _ hresume hstale]
    exact hs.waits other hmem hid
  case seen =>
    refine List.forall_mem_append.mpr
      ⟨hP.seen_resume hcounted hs hflight hresume, List.forall_mem_singleton.mpr fun hid => ?_⟩
    have hsame : number flight.task = newest s.page := by
      rw [hnumber, hs.newest]
      exact hid
    exact hP.ends _ _ _ _ hresume hsame (hs.waits flight hflight hid)

theorem Guarded.shows_newest (hP : Guarded P view shows number newest fresh)
    (hstart : newest start = 0) (h : (P.machine start).Reachable s) : ShowsNewest view shows s := by
  suffices hkept : Guarded.Kept view shows number newest fresh s from hkept.seen
  refine h.invariant ?_ ?_
  · rintro s rfl
    exact ⟨hstart, by simp, by simp, by simp [ShowsNewest]⟩
  · intro s event t hreach hs hstep
    have hcounted := counted hreach
    obtain ⟨selection, rfl⟩ | ⟨flight, hflight, body, page,
      ⟨task, hresume, rfl⟩ | ⟨hresume, rfl⟩⟩ :=
      step_cases hstep
    · exact hP.kept_select hcounted hs selection
    · exact hP.kept_wait hcounted hs hflight hresume
    · exact hP.kept_land hcounted hs hflight hresume

end Guarded

/-! ### Tasks that check nothing -/

/-- Whatever is seen before, a task ends with what its answer shows. -/
def Unguarded (P : Page κ τ ρ σ) (view : σ → ν) (shows : ρ → ν) : Prop :=
  ∀ task answer s page, P.resume task answer s = some (page, none) → view page = shows answer

/-- When every task has ended, the end that came last is what is seen. -/
theorem Unguarded.shows_last {view : σ → ν} {shows : ρ → ν} (hP : Unguarded P view shows)
    (h : (P.machine start).Reachable s) :
    s.pending = [] → ∀ last ∈ s.landed.getLast?, view s.page = shows last.answer := by
  refine h.invariant (I := fun s => s.pending = [] →
    ∀ last ∈ s.landed.getLast?, view s.page = shows last.answer) ?_ ?_
  · rintro s rfl
    simp
  · intro s event t _ _ hstep hended
    obtain ⟨selection, rfl⟩ | ⟨flight, hflight, body, page, ⟨task, -, rfl⟩ | ⟨hresume, rfl⟩⟩ :=
      step_cases hstep
    · simp at hended
    · -- The task that goes on still waits.
      have hnil : s.pending = [] := List.map_eq_nil_iff.mp hended
      rw [hnil] at hflight
      cases hflight
    · intro last hlast
      rw [PageRun.land, List.getLast?_concat, Option.mem_some_iff] at hlast
      rw [← hlast]
      exact hP _ _ _ _ hresume

/-- The end of the last selection is seen exactly if the end that came last shows the same. -/
theorem Unguarded.shows_newest_iff {view : σ → ν} {shows : ρ → ν} (hP : Unguarded P view shows)
    (h : (P.machine start).Reachable s) (hended : s.pending = []) {landing : Landing κ ρ}
    (hlanding : landing ∈ s.landed) : view s.page = shows landing.answer ↔
      ∀ last ∈ s.landed.getLast?, shows last.answer = shows landing.answer := by
  have hlast := hP.shows_last h hended
  constructor
  · intro hseen last hin
    rw [← hlast last hin, hseen]
  · intro hsame
    obtain ⟨last, hin⟩ : ∃ last, last ∈ s.landed.getLast? := by
      rw [List.getLast?_eq_some_getLast (List.ne_nil_of_mem hlanding)]
      exact ⟨_, rfl⟩
    rw [hlast last hin, hsame last hin]

end Page

end Screener.Lib
