import Mathlib.Data.String.Basic
import Screener.Lib.RequestCache

/-!
# The analysis and the portfolio of a backtest

`BacktestAnalysis` and `BacktestPortfolio` load through a cache of requests of their own. An
effect shows what is cached and waits for the request of its run; its cleanup lets the answer
pass. Whoever else loads or clears meanwhile, a panel shows only what was answered for its run.
-/

namespace Screener.Frontend

open Screener.Lib

variable {ρ φ ε : Type*}

/-! ## The panel -/

/-- How a panel differs from another: what its cache accepts, and what it sets on a failure. -/
structure PanelKind (ρ φ ε : Type*) where
  acceptance : Acceptance ρ φ
  noError : ε
  onFailure : φ → ε
  truthy : ε → Bool

/-- The state of the component, as its effects leave it. -/
structure Panel (ρ ε : Type*) where
  runId : String
  data : Option ρ
  error : ε

/-- The callbacks of an effect on its request; `active` until it is cleaned up. -/
structure Effect where
  promise : Nat
  active : Bool

structure PanelState (ρ φ ε : Type*) where
  cache : RequestCache String ρ φ := {}
  panel : Option (Panel ρ ε) := none
  effects : List Effect := []

inductive PanelEvent (ρ φ : Type*) where
  | shown (runId : String)
  | unmounted
  | cached (event : CacheEvent String ρ φ)

inductive PanelView (ρ ε : Type*) where
  | error (error : ε)
  | loading
  | ready (data : ρ)

def Effect.cleanup (effect : Effect) : Effect := { effect with active := false }

namespace PanelKind

variable (kind : PanelKind ρ φ ε)

def view (panel : Panel ρ ε) : PanelView ρ ε :=
  if kind.truthy panel.error then .error panel.error
  else match panel.data with
    | none => .loading
    | some data => .ready data

/-- `.then` and `.catch`. -/
def settle (outcome : Except φ ρ) (panel : Panel ρ ε) : Panel ρ ε :=
  match outcome with
  | .ok value => { panel with data := some value }
  | .error failure => { panel with error := kind.onFailure failure }

/-- The effect for a run, after the cleanup of the one before. A retry runs it again. -/
def effect (runId : String) (s : PanelState ρ φ ε) : PanelState ρ φ ε :=
  let loaded := s.cache.load runId
  { cache := loaded.1
    panel := some ⟨runId, s.cache.results runId, kind.noError⟩
    effects := s.effects.map Effect.cleanup ++ (loaded.2.map fun id => ⟨id, true⟩).toList }

def unmount (s : PanelState ρ φ ε) : PanelState ρ φ ε :=
  { s with panel := none, effects := s.effects.map Effect.cleanup }

/-- A request that ends calls back the effects that wait for it. -/
def notify (id : Nat) (outcome : Except φ ρ) (s : PanelState ρ φ ε) : PanelState ρ φ ε :=
  { s with
    panel := s.effects.foldl (fun panel effect =>
      if effect.promise = id && effect.active then panel.map (kind.settle outcome) else panel)
        s.panel
    effects := s.effects.filter (·.promise ≠ id) }

/-- What became of the request that ends. -/
def outcomeOf (s : PanelState ρ φ ε) (id : Nat) : Option (Except φ ρ) :=
  (s.cache.flying.find? (·.id = id)).bind (·.outcome)

def next (s : PanelState ρ φ ε) : PanelEvent ρ φ → Option (PanelState ρ φ ε)
  | .shown runId => some (kind.effect runId s)
  | .unmounted => some (unmount s)
  | .cached (.finish id) =>
    (s.cache.next kind.acceptance (.finish id)).bind fun cache =>
      (outcomeOf s id).map fun outcome => kind.notify id outcome { s with cache }
  | .cached event => (s.cache.next kind.acceptance event).map fun cache => { s with cache }

def machine : Machine (PanelState ρ φ ε) (PanelEvent ρ φ) where
  init s := s = {}
  step s event t := kind.next s event = some t

end PanelKind

/-! ## The two panels -/

/-- How a request fails: the API answers with a message, or something else happens. -/
inductive RequestFailure where
  | api (message : String)
  | other
deriving DecidableEq, Repr

/-- A field of a body, as `Array.isArray` sees it. -/
inductive BodyField (α : Type*) where
  | array (items : List α)
  | other

def BodyField.isArray {α : Type*} : BodyField α → Bool
  | .array _ => true
  | .other => false

variable {α : Type*}

structure AnalysisBody (α : Type*) where
  cumulativeRealizedPnl : BodyField α
  bySymbol : BodyField α
  byExitReason : BodyField α
  byMonth : BodyField α

structure PortfolioBody (α : Type*) where
  snapshots : BodyField α

/-- `analysis-cache.ts`, `backtest-analysis.tsx`. -/
def analysisPanel : PanelKind (AnalysisBody α) RequestFailure Bool where
  acceptance :=
    { valid := fun analysis =>
      analysis.cumulativeRealizedPnl.isArray && analysis.bySymbol.isArray &&
        analysis.byExitReason.isArray && analysis.byMonth.isArray
      refused := .other }
  noError := false
  onFailure _ := true
  truthy := id

/-- `portfolio-cache.ts`, `backtest-portfolio.tsx`. -/
def portfolioPanel : PanelKind (PortfolioBody α) RequestFailure String where
  acceptance := { valid := fun result => result.snapshots.isArray, refused := .other }
  noError := ""
  onFailure
    | .api message => message
    | .other => "포트폴리오 데이터를 불러오지 못했습니다."
  truthy := (· ≠ "")

/-! ## What a panel waits for -/

namespace PanelKind

variable {kind : PanelKind ρ φ ε} {s t : PanelState ρ φ ε}

/-- `failure` was the outcome of a request for the run, and the panel says so. -/
def Blames (kind : PanelKind ρ φ ε) (s : PanelState ρ φ ε) (panel : Panel ρ ε) (failure : φ) :
    Prop :=
  (panel.runId, .error failure) ∈ s.cache.received ∧ panel.error = kind.onFailure failure

/-- A panel shows what its run was answered, or its effect waits for a request of its run. -/
structure Watches (kind : PanelKind ρ φ ε) (s : PanelState ρ φ ε) : Prop where
  kept : RequestCache.Kept kind.acceptance s.cache
  own : ∀ panel ∈ s.panel, ∀ value, panel.data = some value →
    (panel.runId, .ok value) ∈ s.cache.received
  blamed : ∀ panel ∈ s.panel, panel.error = kind.noError ∨ ∃ failure, kind.Blames s panel failure
  agree : ∀ effect ∈ s.effects, ∀ other ∈ s.effects, effect.active = true → other.active = true →
    effect.promise = other.promise
  attached : ∀ effect ∈ s.effects, effect.active = true → ∃ panel ∈ s.panel, panel.data = none ∧
    ∃ fetch ∈ s.cache.flying, fetch.id = effect.promise ∧ fetch.key = panel.runId
  waiting : ∀ panel ∈ s.panel, panel.data = none →
    (∃ effect ∈ s.effects, effect.active = true) ∨ ∃ failure, kind.Blames s panel failure

theorem inactive_of_cleanup {effects : List Effect} {effect : Effect}
    (h : effect ∈ effects.map Effect.cleanup) : effect.active = false := by
  obtain ⟨before, -, rfl⟩ := List.mem_map.mp h
  rfl

theorem Watches.effect (h : kind.Watches s) (runId : String) :
    kind.Watches (kind.effect runId s) := by
  have hreceived : (s.cache.load runId).1.received = s.cache.received := by
    obtain ⟨value, -, hload⟩ | ⟨id, -, -, hload⟩ | ⟨-, -, hload⟩ :=
      RequestCache.load_cases runId s.cache
    all_goals rw [hload]
    rfl
  have hactive : ∀ effect ∈ (kind.effect runId s).effects, effect.active = true →
      (s.cache.load runId).2 = some effect.promise := by
    intro effect heffect hactive
    rcases List.mem_append.mp heffect with hold | hnew
    · rw [inactive_of_cleanup hold] at hactive
      cases hactive
    · obtain ⟨id, hid, rfl⟩ := by simpa using hnew
      exact hid
  constructor
  case kept => exact h.kept.load runId
  case own =>
    rintro panel hpanel value hvalue
    obtain rfl := Option.some.inj hpanel
    change (runId, .ok value) ∈ (s.cache.load runId).1.received
    rw [hreceived]
    exact h.kept.cached runId value hvalue
  case blamed =>
    intro panel hpanel
    obtain rfl := Option.some.inj hpanel
    exact .inl rfl
  case agree =>
    intro effect heffect other hother heffective hotheractive
    exact Option.some.inj ((hactive effect heffect heffective).symm.trans
      (hactive other hother hotheractive))
  case attached =>
    intro effect heffect heffective
    have hpromise := hactive effect heffect heffective
    obtain ⟨value, -, hnone⟩ | ⟨id, hresult, hid, fetch, hfetch, rfl, hkey⟩ :=
      h.kept.load_promise runId
    · rw [hnone] at hpromise
      cases hpromise
    · rw [hid, Option.some.injEq] at hpromise
      exact ⟨_, rfl, hresult, fetch, hfetch, hpromise, hkey⟩
  case waiting =>
    intro panel hpanel hdata
    obtain rfl := Option.some.inj hpanel
    obtain ⟨value, hvalue, -⟩ | ⟨id, -, hid, -⟩ := h.kept.load_promise runId
    · rw [hvalue] at hdata
      cases hdata
    · refine .inl ⟨⟨id, true⟩, List.mem_append_right _ ?_, rfl⟩
      rw [hid]
      exact List.mem_singleton_self _

theorem Watches.unmount (h : kind.Watches s) : kind.Watches (unmount s) where
  kept := h.kept
  own := fun _ hpanel => nomatch hpanel
  blamed := fun _ hpanel => nomatch hpanel
  agree := by
    intro effect heffect _ _ hactive
    rw [inactive_of_cleanup heffect] at hactive
    cases hactive
  attached := by
    intro effect heffect hactive
    rw [inactive_of_cleanup heffect] at hactive
    cases hactive
  waiting := fun _ hpanel => nomatch hpanel

/-- Answers to others, their requests and a clearing do not concern the panel. -/
theorem Watches.cached (h : kind.Watches s) {event : CacheEvent String ρ φ}
    {cache : RequestCache String ρ φ} (hnext : s.cache.next kind.acceptance event = some cache)
    (hwaits : ∀ effect ∈ s.effects, effect.active = true → event ≠ .finish effect.promise) :
    kind.Watches { s with cache } := by
  obtain ⟨hreceived, hflying⟩ := h.kept.next_keeps hnext
  have hblames : ∀ panel failure, kind.Blames s panel failure →
      kind.Blames { s with cache } panel failure :=
    fun panel failure hblames => ⟨hreceived hblames.1, hblames.2⟩
  constructor
  case kept => exact h.kept.next hnext
  case own => exact fun panel hpanel value hvalue => hreceived (h.own panel hpanel value hvalue)
  case blamed =>
    intro panel hpanel
    exact (h.blamed panel hpanel).imp_right fun ⟨failure, hfailure⟩ =>
      ⟨failure, hblames panel failure hfailure⟩
  case agree => exact h.agree
  case attached =>
    intro effect heffect hactive
    obtain ⟨panel, hpanel, hdata, fetch, hfetch, hid, hkey⟩ := h.attached effect heffect hactive
    obtain ⟨later, hlater, hlaterid, hlaterkey⟩ :=
      hflying fetch hfetch (by rw [hid]; exact hwaits effect heffect hactive)
    exact ⟨panel, hpanel, hdata, later, hlater, hlaterid.trans hid, hlaterkey.trans hkey⟩
  case waiting =>
    intro panel hpanel hdata
    exact (h.waiting panel hpanel hdata).imp_right fun ⟨failure, hfailure⟩ =>
      ⟨failure, hblames panel failure hfailure⟩

/-! ## The end of a request -/

theorem settle_settle (outcome : Except φ ρ) (panel : Panel ρ ε) :
    kind.settle outcome (kind.settle outcome panel) = kind.settle outcome panel := by
  cases outcome <;> rfl

theorem notify_panel (id : Nat) (outcome : Except φ ρ) (effects : List Effect)
    (panel : Option (Panel ρ ε)) : (effects.foldl (fun panel effect =>
      if effect.promise = id && effect.active then panel.map (kind.settle outcome) else panel)
        panel) =
        if effects.any fun effect => effect.promise = id && effect.active then
          panel.map (kind.settle outcome)
        else panel := by
  induction effects generalizing panel with
  | nil => rfl
  | cons effect effects ih =>
    rw [List.foldl_cons, ih, List.any_cons]
    by_cases hcalled : (decide (effect.promise = id) && effect.active) = true
    · rw [if_pos hcalled, hcalled, Bool.true_or, if_pos rfl, Option.map_map]
      have htwice : kind.settle outcome ∘ kind.settle outcome = kind.settle outcome :=
        funext fun panel => settle_settle outcome panel
      rw [htwice, ite_self]
    · rw [if_neg hcalled, Bool.eq_false_iff.mpr hcalled, Bool.false_or]

theorem Watches.finished (h : kind.Watches s) {id : Nat} {cache : RequestCache String ρ φ}
    (hnext : s.cache.next kind.acceptance (.finish id) = some cache) {outcome : Except φ ρ}
    (houtcome : outcomeOf s id = some outcome) :
    kind.Watches (kind.notify id outcome { s with cache }) := by
  obtain ⟨hreceived, hflying⟩ := h.kept.next_keeps hnext
  obtain ⟨ended, hfind, hended⟩ := Option.bind_eq_some_iff.mp houtcome
  have hendedid : ended.id = id := by simpa using List.find?_some hfind
  have hendedmem := List.mem_of_find?_eq_some hfind
  have hkept := h.kept.next hnext
  have hmem : ∀ effect ∈ (kind.notify id outcome { s with cache }).effects,
      effect ∈ s.effects ∧ effect.promise ≠ id := by
    intro effect heffect
    obtain ⟨hold, hne⟩ := List.mem_filter.mp heffect
    exact ⟨hold, of_decide_eq_true hne⟩
  by_cases hcalled : (s.effects.any fun effect => effect.promise = id && effect.active) = true
  · -- The effect of the panel is called back, and none is left that is active.
    have hpanel : (kind.notify id outcome { s with cache }).panel =
        s.panel.map (kind.settle outcome) := by
      rw [notify, notify_panel, if_pos hcalled]
    obtain ⟨caller, hcaller, hboth⟩ := List.any_eq_true.mp hcalled
    rw [Bool.and_eq_true, decide_eq_true_eq] at hboth
    obtain ⟨before, hbefore, hnone, fetch, hfetch, hid, hkey⟩ := h.attached caller hcaller hboth.2
    have hsame : fetch = ended := h.kept.eq_of_id (List.mem_append_left _ hfetch)
      (List.mem_append_left _ hendedmem) (by rw [hid, hboth.1, hendedid])
    have hlast : ∀ effect ∈ (kind.notify id outcome { s with cache }).effects,
        effect.active = false := by
      intro effect heffect
      obtain ⟨hold, hne⟩ := hmem effect heffect
      by_contra hactive
      exact hne ((h.agree effect hold caller hcaller (Bool.not_eq_false _ ▸ hactive) hboth.2).trans
        hboth.1)
    have hanswered : (before.runId, outcome) ∈ cache.received := by
      rw [← hkey, hsame]
      exact hreceived (h.kept.answered ended hendedmem outcome hended)
    constructor
    case kept => exact hkept
    case own =>
      intro panel hin value hvalue
      rw [hpanel, hbefore, Option.map_some, Option.mem_some_iff] at hin
      subst hin
      cases outcome with
      | ok answer =>
        obtain rfl := Option.some.inj hvalue
        exact hanswered
      | error failure =>
        rw [settle, hnone] at hvalue
        cases hvalue
    case blamed =>
      intro panel hin
      rw [hpanel, hbefore, Option.map_some, Option.mem_some_iff] at hin
      subst hin
      cases outcome with
      | ok answer =>
        exact (h.blamed before hbefore).imp_right fun ⟨failure, hfailure, herror⟩ =>
          ⟨failure, hreceived hfailure, herror⟩
      | error failure => exact .inr ⟨failure, hanswered, rfl⟩
    case agree =>
      intro effect heffect _ _ hactive
      rw [hlast effect heffect] at hactive
      cases hactive
    case attached =>
      intro effect heffect hactive
      rw [hlast effect heffect] at hactive
      cases hactive
    case waiting =>
      intro panel hin hdata
      rw [hpanel, hbefore, Option.map_some, Option.mem_some_iff] at hin
      subst hin
      cases outcome with
      | ok answer => cases hdata
      | error failure => exact .inr ⟨failure, hanswered, rfl⟩
  · have hothers : ∀ effect ∈ s.effects, effect.active = true → effect.promise ≠ id := by
      intro effect heffect hactive hid
      refine hcalled (List.any_eq_true.mpr ⟨effect, heffect, ?_⟩)
      rw [hactive, Bool.and_true, decide_eq_true_eq, hid]
    have hcached := h.cached hnext fun effect heffect hactive hevent =>
      hothers effect heffect hactive (CacheEvent.finish.inj hevent).symm
    have hpanel : (kind.notify id outcome { s with cache }).panel = s.panel := by
      rw [notify, notify_panel, if_neg hcalled]
    constructor
    case kept => exact hkept
    case own =>
      rw [hpanel]
      exact hcached.own
    case blamed =>
      rw [hpanel]
      exact hcached.blamed
    case agree =>
      exact fun effect heffect other hother =>
        h.agree effect (hmem effect heffect).1 other (hmem other hother).1
    case attached =>
      rw [hpanel]
      exact fun effect heffect => hcached.attached effect (hmem effect heffect).1
    case waiting =>
      rw [hpanel]
      intro panel hin hdata
      refine (hcached.waiting panel hin hdata).imp_left ?_
      rintro ⟨effect, heffect, hactive⟩
      exact ⟨effect, List.mem_filter.mpr ⟨heffect, decide_eq_true (hothers effect heffect hactive)⟩,
        hactive⟩

theorem watches_start : kind.Watches ({} : PanelState ρ φ ε) where
  kept := RequestCache.kept_start
  own := fun _ hpanel => nomatch hpanel
  blamed := fun _ hpanel => nomatch hpanel
  agree := fun _ heffect => absurd heffect List.not_mem_nil
  attached := fun _ heffect => absurd heffect List.not_mem_nil
  waiting := fun _ hpanel => nomatch hpanel

/-- What an event can do. -/
theorem next_cases {event : PanelEvent ρ φ} (h : kind.next s event = some t) :
    (∃ runId, event = .shown runId ∧ t = kind.effect runId s) ∨
    (event = .unmounted ∧ t = unmount s) ∨
    (∃ id cache outcome, event = .cached (.finish id) ∧
      s.cache.next kind.acceptance (.finish id) = some cache ∧ outcomeOf s id = some outcome ∧
        t = kind.notify id outcome { s with cache }) ∨
    ∃ other cache, event = .cached other ∧ (∀ id, other ≠ .finish id) ∧
      s.cache.next kind.acceptance other = some cache ∧ t = { s with cache } := by
  cases event with
  | shown runId => exact .inl ⟨runId, rfl, (Option.some.inj h).symm⟩
  | unmounted => exact .inr (.inl ⟨rfl, (Option.some.inj h).symm⟩)
  | cached event =>
    refine .inr (.inr ?_)
    cases event with
    | finish id =>
      obtain ⟨cache, hcache, h⟩ := Option.bind_eq_some_iff.mp h
      obtain ⟨outcome, houtcome, rfl⟩ := Option.map_eq_some_iff.mp h
      exact .inl ⟨id, cache, outcome, rfl, hcache, houtcome, rfl⟩
    | load key => exact .inr ⟨.load key, _, rfl, by simp, rfl, (Option.some.inj h).symm⟩
    | clear => exact .inr ⟨.clear, _, rfl, by simp, rfl, (Option.some.inj h).symm⟩
    | answer id body =>
      obtain ⟨cache, hcache, rfl⟩ := Option.map_eq_some_iff.mp h
      exact .inr ⟨.answer id body, cache, rfl, by simp, hcache, rfl⟩

theorem watches (h : kind.machine.Reachable s) : kind.Watches s := by
  refine h.invariant ?_ ?_
  · rintro s rfl
    exact watches_start
  · intro s event t _ hs hstep
    obtain ⟨runId, -, rfl⟩ | ⟨-, rfl⟩ | ⟨id, cache, outcome, -, hcache, houtcome, rfl⟩ |
      ⟨event, cache, -, hevent, hcache, rfl⟩ := next_cases hstep
    · exact hs.effect runId
    · exact hs.unmount
    · exact hs.finished hcache houtcome
    · exact hs.cached hcache fun effect _ _ => hevent effect.promise

/-- What a panel may show of its run. -/
structure ShowsRun (kind : PanelKind ρ φ ε) (s : PanelState ρ φ ε) (panel : Panel ρ ε) : Prop where
  ready : ∀ value, kind.view panel = .ready value →
    (panel.runId, .ok value) ∈ s.cache.received ∧ kind.acceptance.valid value = true
  error : ∀ shown, kind.view panel = .error shown → ∃ failure,
    (panel.runId, .error failure) ∈ s.cache.received ∧ shown = kind.onFailure failure
  loading : kind.view panel = .loading → (∃ fetch ∈ s.cache.flying, fetch.key = panel.runId) ∨
    ∃ failure, (panel.runId, .error failure) ∈ s.cache.received ∧
      kind.truthy (kind.onFailure failure) = false

theorem view_cases (panel : Panel ρ ε) :
    (kind.truthy panel.error = true ∧ kind.view panel = .error panel.error) ∨
    kind.truthy panel.error = false ∧
      ((panel.data = none ∧ kind.view panel = .loading) ∨
        ∃ value, panel.data = some value ∧ kind.view panel = .ready value) := by
  unfold view
  by_cases herror : kind.truthy panel.error = true
  · exact .inl ⟨herror, if_pos herror⟩
  · refine .inr ⟨Bool.eq_false_iff.mpr herror, ?_⟩
    cases hdata : panel.data with
    | none => exact .inl ⟨rfl, if_neg herror⟩
    | some value => exact .inr ⟨value, rfl, if_neg herror⟩

theorem shows_run (hno : kind.truthy kind.noError = false) (h : kind.machine.Reachable s)
    {panel : Panel ρ ε} (hpanel : panel ∈ s.panel) : kind.ShowsRun s panel := by
  have hwatches := watches h
  obtain ⟨herror, hview⟩ | ⟨herror, ⟨hdata, hview⟩ | ⟨value, hdata, hview⟩⟩ := kind.view_cases panel
  · refine ⟨by simp [hview], fun shown hshown => ?_, by simp [hview]⟩
    rw [hview, PanelView.error.injEq] at hshown
    rcases hwatches.blamed panel hpanel with hnone | ⟨failure, hfailure, hset⟩
    · rw [hnone, hno] at herror
      cases herror
    · exact ⟨failure, hfailure, hshown.symm.trans hset⟩
  · refine ⟨by simp [hview], by simp [hview], fun _ => ?_⟩
    rcases hwatches.waiting panel hpanel hdata with
      ⟨effect, heffect, hactive⟩ | ⟨failure, hfailure, hset⟩
    · obtain ⟨other, hother, -, fetch, hfetch, -, hkey⟩ := hwatches.attached effect heffect hactive
      rw [Option.mem_unique hother hpanel] at hkey
      exact .inl ⟨fetch, hfetch, hkey⟩
    · exact .inr ⟨failure, hfailure, by rw [← hset, herror]⟩
  · refine ⟨fun shown hshown => ?_, by simp [hview], by simp [hview]⟩
    rw [hview, PanelView.ready.injEq] at hshown
    have hown := hwatches.own panel hpanel value hdata
    rw [← hshown]
    exact ⟨hown, hwatches.kept.valid _ _ hown⟩

/-! ## The cache of a panel -/

/-- The cache is cleared only while nothing is fetched. -/
def ClearsIdle (s : PanelState ρ φ ε) (event : PanelEvent ρ φ) : Prop :=
  event = .cached .clear → s.cache.flying = []

/-- What a panel does to its cache, the cache does by itself. -/
theorem cache_reachable (h : (kind.machine.restrict ClearsIdle).Reachable s) :
    ((RequestCache.machine kind.acceptance).restrict RequestCache.ClearsIdle).Reachable
      s.cache := by
  induction h with
  | init hs => exact .init (congrArg PanelState.cache hs)
  | @step s t event _ hstep ih =>
    obtain ⟨hcond, hstep⟩ := hstep
    obtain ⟨runId, -, rfl⟩ | ⟨-, rfl⟩ | ⟨id, cache, outcome, -, hcache, -, rfl⟩ |
      ⟨other, cache, hevent, -, hcache, rfl⟩ := next_cases hstep
    · exact .step (a := .load runId) ih ⟨(nomatch ·), rfl⟩
    · exact ih
    · exact .step (a := .finish id) ih ⟨(nomatch ·), hcache⟩
    · exact .step (a := other) ih ⟨fun hclear => hcond (by rw [hevent, hclear]), hcache⟩

/-- Events in a given order, none of which is a clearing. -/
theorem reachable_of_follow (kind : PanelKind ρ φ ε) (events : List (PanelEvent ρ φ))
    (hclear : ∀ e ∈ events, e ≠ .cached .clear)
    (hs : (kind.machine.restrict ClearsIdle).Reachable s)
    (h : Machine.follow kind.next s events = some t) :
    (kind.machine.restrict ClearsIdle).Reachable t :=
  Machine.reachable_of_follow_allowed (fun _ _ _ hst => hst)
    (fun event hevent _ heq => absurd heq (hclear event hevent)) hs h

end PanelKind

/-! ## Both panels -/

/-- A panel shows a result or an error of its own run, or its run is being fetched; only the
portfolio stays blank, where the API fails without a message. -/
theorem panels_show_run :
    (∀ s, (analysisPanel (α := α)).machine.Reachable s → ∀ panel ∈ s.panel,
      analysisPanel.ShowsRun s panel ∧
        (analysisPanel.view panel = .loading → ∃ fetch ∈ s.cache.flying, fetch.key = panel.runId)) ∧
    ∀ s, (portfolioPanel (α := α)).machine.Reachable s → ∀ panel ∈ s.panel,
      portfolioPanel.ShowsRun s panel ∧
        (portfolioPanel.view panel = .loading →
          (∃ fetch ∈ s.cache.flying, fetch.key = panel.runId) ∨
            (panel.runId, .error (.api "")) ∈ s.cache.received) := by
  refine ⟨fun s hs panel hpanel => ?_, fun s hs panel hpanel => ?_⟩
  · have hshows := PanelKind.shows_run rfl hs hpanel
    refine ⟨hshows, fun hloading => (hshows.loading hloading).resolve_right ?_⟩
    rintro ⟨failure, -, hfalse⟩
    cases hfalse
  · have hshows := PanelKind.shows_run (by simp [portfolioPanel]) hs hpanel
    refine ⟨hshows, fun hloading => (hshows.loading hloading).imp_right ?_⟩
    rintro ⟨failure, hfailure, hfalse⟩
    cases failure with
    | other => simp [portfolioPanel] at hfalse
    | api message =>
      have hempty : message = "" := by simpa [portfolioPanel] using hfalse
      rw [← hempty]
      exact hfailure

/-- Between two clearings, of two requests for a run the first has failed and ended before the
second; a run whose request succeeded has its result in the cache, and is not fetched again. -/
theorem panels_fetch_once :
    (∀ s, ((analysisPanel (α := α)).machine.restrict PanelKind.ClearsIdle).Reachable s →
      RequestCache.Coalesced s.cache) ∧
    ∀ s, ((portfolioPanel (α := α)).machine.restrict PanelKind.ClearsIdle).Reachable s →
      RequestCache.Coalesced s.cache :=
  ⟨fun _ hs => RequestCache.coalesced (PanelKind.cache_reachable hs),
    fun _ hs => RequestCache.coalesced (PanelKind.cache_reachable hs)⟩

/-! A run is left for another one, fails there and is shown again. -/

def leftAnalysis : List (PanelEvent (AnalysisBody ℤ) RequestFailure) :=
  [.shown "1", .shown "2", .cached (.answer 0 (.ok ⟨.array [1], .array [], .array [], .array []⟩)),
    .cached (.answer 1 (.ok ⟨.array [2], .other, .array [], .array []⟩)), .cached (.finish 1),
    .cached (.finish 0), .shown "2"]

def leftPortfolio : List (PanelEvent (PortfolioBody ℤ) RequestFailure) :=
  [.shown "1", .shown "2", .cached (.answer 0 (.ok ⟨.array [1]⟩)),
    .cached (.answer 1 (.error (.api "busy"))), .cached (.finish 1), .cached (.finish 0),
      .shown "2"]

theorem panels_show_run_left :
    (∃ s panel, Machine.follow analysisPanel.next {} leftAnalysis = some s ∧ panel ∈ s.panel ∧
      analysisPanel.ShowsRun s panel ∧
        (analysisPanel.view panel = .loading → ∃ fetch ∈ s.cache.flying, fetch.key = panel.runId)) ∧
    ∃ s panel, Machine.follow portfolioPanel.next {} leftPortfolio = some s ∧ panel ∈ s.panel ∧
      portfolioPanel.ShowsRun s panel ∧
        (portfolioPanel.view panel = .loading →
          (∃ fetch ∈ s.cache.flying, fetch.key = panel.runId) ∨
            (panel.runId, .error (.api "")) ∈ s.cache.received) := by
  obtain ⟨hanalysis, hportfolio⟩ := panels_show_run (α := ℤ)
  have hfirst := PanelKind.reachable_of_follow analysisPanel leftAnalysis (by simp [leftAnalysis])
    (.init rfl) rfl
  have hsecond := PanelKind.reachable_of_follow portfolioPanel leftPortfolio
    (by simp [leftPortfolio])
    (.init rfl) rfl
  exact ⟨⟨_, _, rfl, rfl, hanalysis _ (.of_restrict hfirst) _ rfl⟩,
    ⟨_, _, rfl, rfl, hportfolio _ (.of_restrict hsecond) _ rfl⟩⟩

theorem panels_fetch_once_left :
    (∃ s, Machine.follow analysisPanel.next {} leftAnalysis = some s ∧ s.cache.started = 3 ∧
      RequestCache.Coalesced s.cache) ∧
    ∃ s, Machine.follow portfolioPanel.next {} leftPortfolio = some s ∧ s.cache.started = 3 ∧
      RequestCache.Coalesced s.cache := by
  obtain ⟨hanalysis, hportfolio⟩ := panels_fetch_once (α := ℤ)
  have hfirst := PanelKind.reachable_of_follow analysisPanel leftAnalysis (by simp [leftAnalysis])
    (.init rfl) rfl
  have hsecond := PanelKind.reachable_of_follow portfolioPanel leftPortfolio
    (by simp [leftPortfolio])
    (.init rfl) rfl
  exact ⟨⟨_, rfl, rfl, hanalysis _ hfirst⟩, ⟨_, rfl, rfl, hportfolio _ hsecond⟩⟩

end Screener.Frontend
