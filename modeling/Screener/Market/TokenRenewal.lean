import Screener.Market.TokenManager

/-!
# One token at a time

The lock and the second check keep the calls of the issuer apart, and `invalidate`
compares before it discards. So the tasks that reject one token share the call that
renews it, in every interleaving.
-/

namespace Screener.Market

open Screener.Lib

variable {skew : Instant} {s t : TokenSystem} {action : TokenAction}

/-! ## What a step does -/

/-- A step by its effect. -/
inductive TokenStep (skew : Instant) (s : TokenSystem) : TokenAction → TokenSystem → Prop
  | answered {action : TokenAction} (task : TaskId) (now : Instant) :
      (action = .get task now ∧ s.tasks.get? task = none ∨
        action = .getLocked task now ∧ s.tasks.get? task = some .gettingLock) →
      s.clock ≤ now → s.manager.valid skew now = true →
      TokenStep skew s action ((s.tick now).answer task s.manager.cached)
  | queued (task : TaskId) (now : Instant) :
      s.tasks.get? task = none → s.clock ≤ now → s.manager.valid skew now = false →
      TokenStep skew s (.get task now) ((s.tick now).suspend task .gettingLock)
  | started (task : TaskId) (now : Instant) :
      s.tasks.get? task = some .gettingLock → s.manager.lock = none → s.clock ≤ now →
      s.manager.valid skew now = false →
      TokenStep skew s (.getLocked task now)
        { (s.tick now).suspend task .issuing with
          manager := { s.manager with lock := some task }
          issuerCalls := s.issuerCalls + 1 }
  | stored (task : TaskId) (issued : IssuedToken) (now : Instant) :
      s.tasks.get? task = some .issuing → s.clock ≤ now → issued.accessToken ∉ s.issued →
      skew < issued.lifetime →
      TokenStep skew s (.issued task issued now) ((s.tick now).storeIssued task issued)
  | failed (task : TaskId) :
      s.tasks.get? task = some .issuing → TokenStep skew s (.issuerFailed task) (s.release task)
  | rejecting (task : TaskId) (rejectedToken : String) :
      s.tasks.get? task = none →
      TokenStep skew s (.invalidate task rejectedToken)
        (s.suspend task (.invalidating rejectedToken))
  | discarded (task : TaskId) (rejectedToken : String) :
      s.tasks.get? task = some (.invalidating rejectedToken) → s.manager.lock = none →
      TokenStep skew s (.invalidateLocked task) (s.discard task rejectedToken)

theorem step_effect (h : s.step skew action = some t) : TokenStep skew s action t := by
  cases action with
  | get task now =>
    simp only [TokenSystem.step] at h
    split_ifs at h with hidle
    rw [← Option.some.inj h, TokenSystem.get]
    split_ifs with hvalid
    · exact .answered task now (.inl ⟨rfl, hidle.1⟩) hidle.2 hvalid
    · exact .queued task now hidle.1 hidle.2 (Bool.eq_false_iff.mpr hvalid)
  | getLocked task now =>
    simp only [TokenSystem.step] at h
    split_ifs at h with hwaiting
    rw [← Option.some.inj h, TokenSystem.getLocked]
    split_ifs with hvalid
    · exact .answered task now (.inr ⟨rfl, hwaiting.1⟩) hwaiting.2.2 hvalid
    · exact .started task now hwaiting.1 hwaiting.2.1 hwaiting.2.2 (Bool.eq_false_iff.mpr hvalid)
  | issued task issued now =>
    simp only [TokenSystem.step] at h
    split_ifs at h with hissuing
    rw [← Option.some.inj h]
    exact .stored task issued now hissuing.1 hissuing.2.1 hissuing.2.2.1 hissuing.2.2.2
  | issuerFailed task =>
    simp only [TokenSystem.step] at h
    split_ifs at h with hissuing
    rw [← Option.some.inj h]
    exact .failed task hissuing
  | invalidate task rejectedToken =>
    simp only [TokenSystem.step] at h
    split_ifs at h with hidle
    rw [← Option.some.inj h]
    exact .rejecting task rejectedToken hidle
  | invalidateLocked task =>
    simp only [TokenSystem.step] at h
    split at h
    · rename_i rejectedToken hrejecting
      split_ifs at h with hfree
      rw [← Option.some.inj h]
      exact .discarded task rejectedToken hrejecting hfree
    · cases h

/-! ## The lock -/

theorem TokenManager.valid_iff {m : TokenManager} {now : Instant} :
    m.valid skew now = true ↔ m.token ≠ none ∧ now + skew < m.expiresAt := by
  simp [TokenManager.valid, Option.isSome_iff_ne_none]

/-- A token that is valid at a reading was valid before. -/
theorem TokenManager.valid_earlier {m : TokenManager} {now later : Instant} (hle : now ≤ later)
    (h : m.valid skew later = true) : m.valid skew now = true := by
  rw [valid_iff] at h ⊢
  exact ⟨h.1, (Int.add_le_add_right hle skew).trans_lt h.2⟩

structure LockRules (skew : Instant) (s : TokenSystem) : Prop where
  holder : ∀ task, s.manager.lock = some task ↔ s.tasks.get? task = some .issuing
  stale : s.manager.lock ≠ none → s.valid skew = false
  known : ∀ token, s.manager.token = some token → token ∈ s.issued

theorem lockRules_initial (h : s.Initial) : LockRules skew s := by
  obtain ⟨hmanager, htasks, -⟩ := h
  constructor
  · intro task
    simp [hmanager, htasks, TokenManager.new, Dict.get?_empty]
  · simp [hmanager, TokenManager.new]
  · simp [hmanager, TokenManager.new]

/-- A valid token keeps the lock free. -/
theorem LockRules.free_of_valid (hs : LockRules skew s) {now : Instant} (hclock : s.clock ≤ now)
    (h : s.manager.valid skew now = true) : s.manager.lock = none := by
  by_contra hheld
  have hvalid : s.valid skew = true := TokenManager.valid_earlier hclock h
  rw [hs.stale hheld] at hvalid
  cases hvalid

theorem LockRules.not_issuing (hs : LockRules skew s) (hfree : s.manager.lock = none)
    (task : TaskId) : s.tasks.get? task ≠ some .issuing := by
  intro hissuing
  rw [(hs.holder task).mpr hissuing] at hfree
  cases hfree

/-- A task that comes or goes without the lock. -/
theorem holder_set {tasks : Dict TaskId TokenCall} {lock : Option TaskId} {task : TaskId}
    {call : TokenCall} (h : ∀ other, lock = some other ↔ tasks.get? other = some .issuing)
    (htask : tasks.get? task ≠ some .issuing) (hcall : call ≠ .issuing) (other : TaskId) :
    lock = some other ↔ (tasks.set task call).get? other = some .issuing := by
  rw [Dict.get?_set, h other]
  split_ifs with heq
  · subst heq
    exact ⟨fun hissuing => absurd hissuing htask, fun hissuing =>
      absurd (Option.some.inj hissuing) hcall⟩
  · rfl

theorem holder_erase {tasks : Dict TaskId TokenCall} {lock : Option TaskId} {task : TaskId}
    (h : ∀ other, lock = some other ↔ tasks.get? other = some .issuing)
    (htask : tasks.get? task ≠ some .issuing) (other : TaskId) :
    lock = some other ↔ (tasks.erase task).get? other = some .issuing := by
  rw [Dict.get?_erase, h other]
  split_ifs with heq
  · subst heq
    exact ⟨fun hissuing => absurd hissuing htask, by simp⟩
  · rfl

/-- The holder goes and takes the lock along. -/
theorem holder_release {tasks : Dict TaskId TokenCall} {lock : Option TaskId} {task : TaskId}
    (h : ∀ other, lock = some other ↔ tasks.get? other = some .issuing)
    (htask : tasks.get? task = some .issuing) (other : TaskId) :
    none = some other ↔ (tasks.erase task).get? other = some .issuing := by
  rw [Dict.get?_erase]
  split_ifs with heq
  · simp
  · refine ⟨by simp, fun hissuing => ?_⟩
    have hsame := ((h task).mpr htask).symm.trans ((h other).mpr hissuing)
    exact absurd (Option.some.inj hsame).symm heq

theorem TokenManager.discard_lock (m : TokenManager) (rejectedToken : String) :
    (m.discard rejectedToken).lock = m.lock := by
  unfold TokenManager.discard
  split <;> rfl

theorem TokenManager.discard_token (m : TokenManager) (rejectedToken : String) :
    (m.discard rejectedToken).token = if m.token = some rejectedToken then none else m.token := by
  unfold TokenManager.discard
  split <;> rfl

theorem effect_lockRules (hs : LockRules skew s) (h : TokenStep skew s action t) :
    LockRules skew t := by
  have hlater : ∀ {now}, s.clock ≤ now → s.manager.lock ≠ none →
      s.manager.valid skew now = false := fun hclock hheld =>
    Bool.eq_false_iff.mpr fun hvalid => hheld (hs.free_of_valid hclock hvalid)
  cases h with
  | answered task now _ hclock hvalid =>
    have hfree := hs.free_of_valid hclock hvalid
    exact ⟨holder_erase hs.holder (hs.not_issuing hfree task), hlater hclock, hs.known⟩
  | queued task now hidle hclock hstale =>
    have hnot : s.tasks.get? task ≠ some .issuing := by simp [hidle]
    exact ⟨holder_set hs.holder hnot (by simp), fun _ => hstale, hs.known⟩
  | started task now hwaiting hfree hclock hstale =>
    refine ⟨fun other => ?_, fun _ => hstale, hs.known⟩
    show some task = some other ↔ (s.tasks.set task .issuing).get? other = some .issuing
    rw [Dict.get?_set]
    split_ifs with heq
    · simp [heq]
    · have hnot := hs.not_issuing hfree other
      exact ⟨fun hsame => absurd (Option.some.inj hsame).symm heq, fun hissuing =>
        absurd hissuing hnot⟩
  | stored task issued now hissuing hclock hfresh hlasts =>
    refine ⟨holder_release hs.holder hissuing, fun hheld => absurd rfl hheld, ?_⟩
    intro token htoken
    rw [← Option.some.inj htoken]
    exact List.mem_append_right _ (List.mem_singleton_self _)
  | failed task hissuing =>
    exact ⟨holder_release hs.holder hissuing, fun hheld => absurd rfl hheld, hs.known⟩
  | rejecting task rejectedToken hidle =>
    have hnot : s.tasks.get? task ≠ some .issuing := by simp [hidle]
    exact ⟨holder_set hs.holder hnot (by simp), hs.stale, hs.known⟩
  | discarded task rejectedToken hrejecting hfree =>
    refine ⟨?_, fun hheld => ?_, ?_⟩
    · intro other
      show (s.manager.discard rejectedToken).lock = some other ↔ _
      rw [TokenManager.discard_lock]
      exact holder_erase hs.holder (by simp [hrejecting]) other
    · replace hheld : (s.manager.discard rejectedToken).lock ≠ none := hheld
      rw [TokenManager.discard_lock] at hheld
      exact absurd hfree hheld
    · intro token htoken
      replace htoken : (s.manager.discard rejectedToken).token = some token := htoken
      rw [TokenManager.discard_token] at htoken
      split_ifs at htoken
      exact hs.known token htoken

theorem reachable_lockRules (h : (tokens skew).Reachable s) : LockRules skew s := by
  refine h.invariant (fun s hs => lockRules_initial (s := s) hs) ?_
  intro s a t _ hs hst
  exact effect_lockRules hs (step_effect hst)

/-! ## Calls of the issuer and lost tokens -/

theorem LockRules.one_in_flight (hs : LockRules skew s) {task other : TaskId}
    (htask : s.tasks.get? task = some .issuing) (hother : s.tasks.get? other = some .issuing) :
    task = other :=
  Option.some.inj (((hs.holder task).mpr htask).symm.trans ((hs.holder other).mpr hother))

theorem effect_started (h : TokenStep skew s action t) (hstarted : t.issuerCalls ≠ s.issuerCalls) :
    s.manager.valid skew t.clock = false := by
  cases h with
  | started task now _ _ _ hstale => exact hstale
  | answered | queued | stored | failed | rejecting | discarded => exact absurd rfl hstarted

/-- A cached token goes when `invalidate` names it, or when it has expired and the next
one is stored. -/
theorem effect_lost (hs : LockRules skew s) (h : TokenStep skew s action t) {token : String}
    (htoken : s.manager.token = some token) (hlost : t.manager.token ≠ some token) :
    (∃ task, action = .invalidateLocked task ∧
        s.tasks.get? task = some (.invalidating token)) ∨
      (∃ task issued now, action = .issued task issued now) ∧
        s.manager.valid skew t.clock = false := by
  cases h with
  | stored task issued now hissuing hclock _ _ =>
    refine .inr ⟨⟨task, issued, now, rfl⟩, Bool.eq_false_iff.mpr fun hvalid => ?_⟩
    exact hs.not_issuing (hs.free_of_valid hclock hvalid) task hissuing
  | discarded task rejectedToken hrejecting _ =>
    replace hlost : (s.manager.discard rejectedToken).token ≠ some token := hlost
    rw [TokenManager.discard_token] at hlost
    split_ifs at hlost with hnamed
    · rw [htoken, Option.some.injEq] at hnamed
      exact .inl ⟨task, rfl, hnamed ▸ hrejecting⟩
    · exact absurd htoken hlost
  | answered | queued | started | failed | rejecting => exact absurd htoken hlost

/-- A task that is suspended can go on, or waits for an issuer that can answer. -/
theorem not_stuck (hs : LockRules skew s) {task : TaskId} {call : TokenCall}
    (htask : s.tasks.get? task = some call) :
    (∃ t, s.step skew (.getLocked task s.clock) = some t ∨
        s.step skew (.invalidateLocked task) = some t) ∨
      ∃ holder, s.tasks.get? holder = some .issuing ∧ ∀ issued : IssuedToken,
        issued.accessToken ∉ s.issued → skew < issued.lifetime →
        ∃ t, s.step skew (.issued holder issued s.clock) = some t := by
  cases hlock : s.manager.lock with
  | some holder =>
    have hissuing := (hs.holder holder).mp hlock
    refine .inr ⟨holder, hissuing, fun issued hfresh hlasts => ?_⟩
    exact ⟨_, if_pos ⟨hissuing, le_rfl, hfresh, hlasts⟩⟩
  | none =>
    left
    cases call with
    | gettingLock => exact ⟨_, .inl (if_pos ⟨htask, hlock, le_rfl⟩)⟩
    | issuing => exact absurd htask (hs.not_issuing hlock task)
    | invalidating rejectedToken =>
      refine ⟨s.discard task rejectedToken, .inr ?_⟩
      simp [TokenSystem.step, htask, hlock]

/-! ## The renewal of a token -/

/-- A step during which no token expires and the issuer does not fail; what is rejected was
issued by the time of `s`. -/
structure Calm (skew : Instant) (s : TokenSystem)
    (x : TokenSystem × TokenAction × TokenSystem) : Prop where
  lasting : x.1.manager.token ≠ none → x.1.manager.valid skew x.2.2.clock = true
  answered : ∀ task, x.2.1 ≠ .issuerFailed task
  rejected : ∀ task token, x.2.1 = .invalidate task token → token ∈ s.issued

/-- How far the renewal of the token that is cached in `s` has come. -/
inductive Phase (s : TokenSystem) (token : String) (v : TokenSystem) : Prop
  | cached : v.manager.token = some token → v.issued = s.issued →
      v.issuerCalls = s.issuerCalls → Phase s token v
  | discarded : v.manager.token = none → v.issued = s.issued →
      v.issuerCalls = s.issuerCalls + (if v.manager.lock = none then 0 else 1) → Phase s token v
  | renewed (fresh : String) : v.manager.token = some fresh → fresh ∉ s.issued →
      v.issuerCalls = s.issuerCalls + 1 → Phase s token v

structure Renewing (s : TokenSystem) (token : String) (v : TokenSystem) : Prop where
  phase : Phase s token v
  rejected : ∀ task other, v.tasks.get? task = some (.invalidating other) → other ∈ s.issued
  kept : ∀ other ∈ s.issued, other ∈ v.issued

variable {v w : TokenSystem} {token : String}

theorem Calm.free (hcalm : Calm skew s (v, action, w)) (hv : LockRules skew v)
    (hclock : v.clock ≤ w.clock) (htoken : v.manager.token ≠ none) : v.manager.lock = none :=
  hv.free_of_valid hclock (hcalm.lasting htoken)

theorem effect_clock (h : TokenStep skew v action w) : v.clock ≤ w.clock := by
  cases h with
  | answered task now _ hclock | queued task now _ hclock | started task now _ _ hclock
  | stored task issued now _ hclock => exact hclock
  | failed | rejecting | discarded => exact le_rfl

theorem phase_step (hv : LockRules skew v) (hI : Renewing s token v)
    (hcalm : Calm skew s (v, action, w)) (h : TokenStep skew v action w) : Phase s token w := by
  have hclock := effect_clock h
  have hfree := hcalm.free hv hclock
  cases h with
  | answered | queued | rejecting =>
    cases hI.phase with
    | cached htoken hissued hcalls => exact .cached htoken hissued hcalls
    | discarded htoken hissued hcalls => exact .discarded htoken hissued hcalls
    | renewed fresh htoken hfresh hcalls => exact .renewed fresh htoken hfresh hcalls
  | started task now hwaiting hlock hnow hstale =>
    -- No token is cached, since it would be valid.
    have hnone : v.manager.token = none := by
      by_contra hsome
      rw [show v.manager.valid skew now = true from hcalm.lasting hsome] at hstale
      cases hstale
    cases hI.phase with
    | cached htoken => simp [hnone] at htoken
    | discarded htoken hissued hcalls =>
      refine .discarded htoken hissued ?_
      rw [if_pos hlock] at hcalls
      show v.issuerCalls + 1 = s.issuerCalls + 1
      rw [hcalls]
    | renewed fresh htoken => simp [hnone] at htoken
  | stored task issued now hissuing hnow hfresh hlasts =>
    have hheld : v.manager.lock = some task := (hv.holder task).mpr hissuing
    have hnone : v.manager.token = none := by
      by_contra hsome
      rw [hfree hsome] at hheld
      cases hheld
    cases hI.phase with
    | cached htoken => simp [hnone] at htoken
    | discarded htoken hissued hcalls =>
      rw [hheld, if_neg (by simp)] at hcalls
      exact .renewed issued.accessToken rfl (hissued ▸ hfresh) hcalls
    | renewed fresh htoken => simp [hnone] at htoken
  | failed task => exact absurd rfl (hcalm.answered task)
  | discarded task rejectedToken hrejecting hlock =>
    have htokenAfter := v.manager.discard_token rejectedToken
    have hlockAfter := v.manager.discard_lock rejectedToken
    cases hI.phase with
    | cached htoken hissued hcalls =>
      by_cases hnamed : v.manager.token = some rejectedToken
      · rw [if_pos hnamed] at htokenAfter
        refine .discarded htokenAfter hissued ?_
        show v.issuerCalls =
            s.issuerCalls + if (v.manager.discard rejectedToken).lock = none then 0 else 1
        rw [hlockAfter, if_pos hlock, hcalls, Nat.add_zero]
      · rw [if_neg hnamed] at htokenAfter
        exact .cached (htokenAfter.trans htoken) hissued hcalls
    | discarded htoken hissued hcalls =>
      rw [htoken, if_neg (by simp)] at htokenAfter
      refine .discarded htokenAfter hissued ?_
      show v.issuerCalls = s.issuerCalls +
          if (v.manager.discard rejectedToken).lock = none then 0 else 1
      rw [hlockAfter, hcalls]
    | renewed fresh htoken hfresh hcalls =>
      have hother : v.manager.token ≠ some rejectedToken := by
        rw [htoken]
        intro hsame
        exact hfresh (Option.some.inj hsame ▸ hI.rejected task rejectedToken hrejecting)
      rw [if_neg hother] at htokenAfter
      exact .renewed fresh (htokenAfter.trans htoken) hfresh hcalls

/-- A step moves the call of its own task only. -/
theorem effect_other (h : TokenStep skew v action w) {task : TaskId} (htask : task ≠ action.task) :
    w.tasks.get? task = v.tasks.get? task ∧ w.received.get? task = v.received.get? task := by
  cases h with
  | answered caller now haction =>
    have hne : task ≠ caller := by
      rcases haction with ⟨rfl, -⟩ | ⟨rfl, -⟩ <;> exact htask
    simp [TokenSystem.answer, TokenSystem.tick, Dict.get?_erase, Dict.get?_set, hne]
  | queued caller now | started caller now =>
    replace htask : task ≠ caller := htask
    simp [TokenSystem.suspend, TokenSystem.tick, Dict.get?_set, htask]
  | stored caller issued now =>
    replace htask : task ≠ caller := htask
    simp [TokenSystem.storeIssued, TokenSystem.answer, TokenSystem.tick, Dict.get?_erase,
      Dict.get?_set, htask]
  | failed caller =>
    replace htask : task ≠ caller := htask
    simp [TokenSystem.release, Dict.get?_erase, htask]
  | rejecting caller rejectedToken =>
    replace htask : task ≠ caller := htask
    simp [TokenSystem.suspend, Dict.get?_set, htask]
  | discarded caller rejectedToken =>
    replace htask : task ≠ caller := htask
    simp [TokenSystem.discard, Dict.get?_erase, htask]

/-- A call of `invalidate` is pending only from its own step on. -/
theorem effect_invalidating (h : TokenStep skew v action w)
    (htask : w.tasks.get? action.task = some (.invalidating token)) :
    action = .invalidate action.task token := by
  cases h with
  | answered caller now haction =>
    have hcaller : action.task = caller := by
      rcases haction with ⟨rfl, -⟩ | ⟨rfl, -⟩ <;> rfl
    simp [TokenSystem.answer, TokenSystem.tick, Dict.get?_erase, hcaller] at htask
  | queued caller now | started caller now =>
    simp [TokenSystem.suspend, TokenSystem.tick, Dict.get?_set, TokenAction.task] at htask
  | stored caller issued now =>
    simp [TokenSystem.storeIssued, TokenSystem.answer, TokenSystem.tick, Dict.get?_erase,
      TokenAction.task] at htask
  | failed caller => simp [TokenSystem.release, Dict.get?_erase, TokenAction.task] at htask
  | rejecting caller rejectedToken =>
    simp [TokenSystem.suspend, Dict.get?_set, TokenAction.task] at htask
    simp [TokenAction.task, htask]
  | discarded caller rejectedToken =>
    simp [TokenSystem.discard, Dict.get?_erase, TokenAction.task] at htask

theorem renewing_step (hv : LockRules skew v) (hI : Renewing s token v)
    (hcalm : Calm skew s (v, action, w)) (h : TokenStep skew v action w) : Renewing s token w := by
  refine ⟨phase_step hv hI hcalm h, ?_, ?_⟩
  · intro task other htask
    by_cases hcaller : task = action.task
    · subst hcaller
      exact hcalm.rejected _ other (effect_invalidating h htask)
    · rw [(effect_other h hcaller).1] at htask
      exact hI.rejected task other htask
  · intro other hother
    cases h with
    | stored => exact List.mem_append_left _ (hI.kept other hother)
    | answered | queued | started | failed | rejecting | discarded => exact hI.kept other hother

/-! ### One task -/

/-- The task has called `invalidate`, or the token is gone already. -/
def Rejected (token : String) (task : TaskId) (v : TokenSystem) : Prop :=
  v.tasks.get? task = some (.invalidating token) ∨ v.manager.token ≠ some token

/-- The `get` of the task waits, or it has returned the token that is cached. -/
def Served (task : TaskId) (v : TokenSystem) : Prop :=
  v.tasks.get? task = some .gettingLock ∨ v.tasks.get? task = some .issuing ∨
    ∃ fresh, v.manager.token = some fresh ∧ v.received.get? task = some fresh

/-- A token that has been discarded does not come back. -/
theorem gone_step (hI : Renewing s token v) (hknown : token ∈ s.issued)
    (hgone : v.manager.token ≠ some token) (h : TokenStep skew v action w) :
    w.manager.token ≠ some token := by
  cases h with
  | stored task issued now _ _ hfresh =>
    intro hsame
    exact hfresh (Option.some.inj hsame ▸ hI.kept token hknown)
  | discarded task rejectedToken =>
    show (v.manager.discard rejectedToken).token ≠ some token
    rw [TokenManager.discard_token]
    split_ifs
    · simp
    · exact hgone
  | answered | queued | started | failed | rejecting => exact hgone

theorem rejected_step {task : TaskId} (hI : Renewing s token v) (hknown : token ∈ s.issued)
    (hrejected : Rejected token task v) (h : TokenStep skew v action w) :
    Rejected token task w := by
  rcases hrejected with hcalled | hgone
  · by_cases hcaller : task = action.task
    · subst hcaller
      cases h with
      | answered caller now haction =>
        rcases haction with ⟨rfl, hidle⟩ | ⟨rfl, hwaiting⟩
        · simp [TokenAction.task, hidle] at hcalled
        · simp [TokenAction.task, hwaiting] at hcalled
      | queued caller now hidle | rejecting caller rejectedToken hidle =>
        simp [TokenAction.task, hidle] at hcalled
      | started caller now hwaiting => simp [TokenAction.task, hwaiting] at hcalled
      | stored caller issued now hissuing | failed caller hissuing =>
        simp [TokenAction.task, hissuing] at hcalled
      | discarded caller rejectedToken hrejecting =>
        obtain rfl : rejectedToken = token := by
          simpa [TokenAction.task, hrejecting] using hcalled
        right
        show (v.manager.discard rejectedToken).token ≠ some rejectedToken
        rw [TokenManager.discard_token]
        split_ifs with hnamed
        · simp
        · exact hnamed
    · exact .inl ((effect_other h hcaller).1.trans hcalled)
  · exact .inr (gone_step hI hknown hgone h)

/-- A token that is gone is renewed once: what a task got since then stays cached. -/
theorem served_step {task : TaskId} (hv : LockRules skew v) (hI : Renewing s token v)
    (hcalm : Calm skew s (v, action, w)) (hgone : v.manager.token ≠ some token)
    (hserved : Served task v) (h : TokenStep skew v action w) : Served task w := by
  have hkeeps : ∀ fresh, v.manager.token = some fresh → w.manager.token = some fresh := by
    intro fresh hfresh
    by_contra hlost
    rcases effect_lost hv h hfresh hlost with ⟨caller, -, hrejecting⟩ | ⟨-, hstale⟩
    · cases hI.phase with
      | cached htoken => exact hgone htoken
      | discarded htoken => simp [hfresh] at htoken
      | renewed other htoken hother =>
        rw [hfresh, Option.some.injEq] at htoken
        exact hother (htoken ▸ hI.rejected caller fresh hrejecting)
    · have hvalid := hcalm.lasting (by simp [hfresh])
      rw [hstale] at hvalid
      cases hvalid
  by_cases hcaller : task = action.task
  · subst hcaller
    cases h with
    | answered caller now haction hclock hvalid =>
      have hcaller : action.task = caller := by
        rcases haction with ⟨rfl, -⟩ | ⟨rfl, -⟩ <;> rfl
      obtain ⟨fresh, hfresh⟩ := Option.ne_none_iff_exists'.mp (TokenManager.valid_iff.mp hvalid).1
      refine .inr (.inr ⟨fresh, hfresh, ?_⟩)
      simp [TokenSystem.answer, TokenManager.cached, Dict.get?_set, hcaller, hfresh]
    | queued caller now =>
      exact .inl (by simp [TokenSystem.suspend, TokenSystem.tick, Dict.get?_set, TokenAction.task])
    | started caller now =>
      exact .inr (.inl (by simp [TokenSystem.suspend, TokenSystem.tick, Dict.get?_set,
        TokenAction.task]))
    | stored caller issued now =>
      refine .inr (.inr ⟨issued.accessToken, rfl, ?_⟩)
      simp [TokenSystem.storeIssued, TokenSystem.answer, Dict.get?_set, TokenAction.task]
    | failed caller => exact absurd rfl (hcalm.answered caller)
    | rejecting caller rejectedToken hidle =>
      rcases hserved with hwaiting | hissuing | ⟨fresh, hfresh, hreceived⟩
      · simp [TokenAction.task, hidle] at hwaiting
      · simp [TokenAction.task, hidle] at hissuing
      · exact .inr (.inr ⟨fresh, hfresh, hreceived⟩)
    | discarded caller rejectedToken hrejecting =>
      rcases hserved with hwaiting | hissuing | ⟨fresh, hfresh, hreceived⟩
      · simp [TokenAction.task, hrejecting] at hwaiting
      · simp [TokenAction.task, hrejecting] at hissuing
      · exact .inr (.inr ⟨fresh, hkeeps fresh hfresh, hreceived⟩)
  · obtain ⟨htasks, hreceived⟩ := effect_other h hcaller
    rw [Served, htasks, hreceived]
    rcases hserved with hwaiting | hissuing | ⟨fresh, hfresh, hgot⟩
    · exact .inl hwaiting
    · exact .inr (.inl hissuing)
    · exact .inr (.inr ⟨fresh, hkeeps fresh hfresh, hgot⟩)

/-! ### All of them -/

/-- A run from `s` in which every step is calm; what is being rejected at its start was
issued before. -/
structure CalmRun (skew : Instant) (s : TokenSystem)
    (steps : List (TokenSystem × TokenAction × TokenSystem)) : Prop where
  calm : ∀ x ∈ steps, Calm skew s x
  pending : ∀ task token, s.tasks.get? task = some (.invalidating token) → token ∈ s.issued

/-- The task calls `invalidate(token)` and then `get`. -/
def RejectsThenGets (steps : List (TokenSystem × TokenAction × TokenSystem)) (token : String)
    (task : TaskId) : Prop :=
  ∃ before between after now, steps.map (·.2.1) =
    before ++ .invalidate task token :: (between ++ .get task now :: after)

theorem RejectsThenGets.steps {steps : List (TokenSystem × TokenAction × TokenSystem)}
    {task : TaskId} (h : RejectsThenGets steps token task) :
    ∃ before x between y after now, steps = before ++ x :: (between ++ y :: after) ∧
      x.2.1 = .invalidate task token ∧ y.2.1 = .get task now := by
  obtain ⟨_, _, _, now, h⟩ := h
  obtain ⟨before, rest, rfl, -, h⟩ := List.map_eq_append_iff.mp h
  obtain ⟨x, rest, rfl, hx, h⟩ := List.map_eq_cons_iff.mp h
  obtain ⟨between, rest, rfl, -, h⟩ := List.map_eq_append_iff.mp h
  obtain ⟨y, after, rfl, hy, -⟩ := List.map_eq_cons_iff.mp h
  exact ⟨before, x, between, y, after, now, rfl, hx, hy⟩

theorem run_renewing {steps : List (TokenSystem × TokenAction × TokenSystem)}
    (hv : (tokens skew).Reachable v) (hI : Renewing s token v)
    (hrun : (tokens skew).Run v steps w) (hcalm : ∀ x ∈ steps, Calm skew s x) :
    Renewing s token w :=
  (hrun.kept (Calm skew s) (fun _ _ _ hreachable hI hcalm hst =>
    renewing_step (reachable_lockRules hreachable) hI hcalm (step_effect hst)) hv hI hcalm).2

theorem run_rejected {steps : List (TokenSystem × TokenAction × TokenSystem)} {task : TaskId}
    (hv : (tokens skew).Reachable v) (hI : Renewing s token v) (hknown : token ∈ s.issued)
    (hrejected : Rejected token task v) (hrun : (tokens skew).Run v steps w)
    (hcalm : ∀ x ∈ steps, Calm skew s x) : Rejected token task w :=
  (hrun.kept (I := fun v => Renewing s token v ∧ Rejected token task v) (Calm skew s)
    (fun _ _ _ hreachable hI hcalm hst =>
      ⟨renewing_step (reachable_lockRules hreachable) hI.1 hcalm (step_effect hst),
        rejected_step hI.1 hknown hI.2 (step_effect hst)⟩) hv ⟨hI, hrejected⟩ hcalm).2.2

theorem run_served {steps : List (TokenSystem × TokenAction × TokenSystem)} {task : TaskId}
    (hv : (tokens skew).Reachable v) (hI : Renewing s token v) (hknown : token ∈ s.issued)
    (hgone : v.manager.token ≠ some token) (hserved : Served task v)
    (hrun : (tokens skew).Run v steps w) (hcalm : ∀ x ∈ steps, Calm skew s x) :
    w.manager.token ≠ some token ∧ Served task w :=
  (hrun.kept
    (I := fun v => Renewing s token v ∧ v.manager.token ≠ some token ∧ Served task v)
    (Calm skew s)
    (fun _ _ _ hreachable hI hcalm hst =>
      have hrules := reachable_lockRules hreachable
      have heffect := step_effect hst
      ⟨renewing_step hrules hI.1 hcalm heffect, gone_step hI.1 hknown hI.2.1 heffect,
        served_step hrules hI.1 hcalm hI.2.1 hI.2.2 heffect⟩)
    hv ⟨hI, hgone, hserved⟩ hcalm).2.2

/-- The call of `get` by a task for which the token is gone or is being discarded. -/
theorem get_served {task : TaskId} {now : Instant} (hrejected : Rejected token task v)
    (h : TokenStep skew v (.get task now) w) : w.manager.token ≠ some token ∧ Served task w := by
  have hidle : v.tasks.get? task = none := by
    cases h with
    | answered caller now haction =>
      rcases haction with ⟨hsame, hidle⟩ | ⟨hsame, -⟩
      · cases hsame
        exact hidle
      · cases hsame
    | queued caller now hidle => exact hidle
  have hgone : v.manager.token ≠ some token := by
    rcases hrejected with hcalled | hgone
    · simp [hidle] at hcalled
    · exact hgone
  cases h with
  | answered caller now haction hclock hvalid =>
    obtain rfl : task = caller := by
      rcases haction with ⟨hsame, -⟩ | ⟨hsame, -⟩ <;> cases hsame
      rfl
    obtain ⟨fresh, hfresh⟩ := Option.ne_none_iff_exists'.mp (TokenManager.valid_iff.mp hvalid).1
    refine ⟨hgone, .inr (.inr ⟨fresh, hfresh, ?_⟩)⟩
    simp [TokenSystem.answer, TokenManager.cached, Dict.get?_set, hfresh]
  | queued caller now =>
    exact ⟨hgone, .inl (by simp [TokenSystem.suspend, TokenSystem.tick, Dict.get?_set])⟩

/-- A task that has rejected the token and then called `get` is served. -/
theorem renewer_served {steps : List (TokenSystem × TokenAction × TokenSystem)} {task : TaskId}
    (hs : (tokens skew).Reachable s) (hI : Renewing s token s) (hknown : token ∈ s.issued)
    (hrun : (tokens skew).Run s steps w) (hcalm : ∀ x ∈ steps, Calm skew s x)
    (htask : RejectsThenGets steps token task) : w.manager.token ≠ some token ∧ Served task w := by
  obtain ⟨before, x, between, y, after, now, rfl, hreject, hget⟩ := htask.steps
  simp only [List.forall_mem_append, List.forall_mem_cons] at hcalm
  obtain ⟨hbefore, hcalmX, hbetween, hcalmY, hafter⟩ := hcalm
  obtain ⟨v, hfirst, hrest⟩ := hrun.split
  obtain ⟨rfl, hstepX, hrest⟩ := hrest.head
  obtain ⟨u, hsecond, hrest⟩ := hrest.split
  obtain ⟨rfl, hstepY, hthird⟩ := hrest.head
  have hx := hfirst.reachable hs
  have hIx := run_renewing hs hI hfirst hbefore
  have hafterX : (tokens skew).Reachable x.2.2 := .step hx hstepX
  have heffectX := step_effect hstepX
  have hIafterX := renewing_step (reachable_lockRules hx) hIx hcalmX heffectX
  have hrejectedX : Rejected token task x.2.2 := by
    rw [hreject] at heffectX
    generalize x.2.2 = after at heffectX
    cases heffectX with
    | answered caller now haction => rcases haction with ⟨hsame, -⟩ | ⟨hsame, -⟩ <;> cases hsame
    | rejecting => exact .inl (by simp [TokenSystem.suspend, Dict.get?_set])
  have hy := hsecond.reachable hafterX
  have hIy := run_renewing hafterX hIafterX hsecond hbetween
  have hrejectedY := run_rejected hafterX hIafterX hknown hrejectedX hsecond hbetween
  have heffectY := step_effect hstepY
  have hIafterY := renewing_step (reachable_lockRules hy) hIy hcalmY heffectY
  obtain ⟨hgone, hserved⟩ := get_served hrejectedY (hget ▸ heffectY)
  exact run_served (.step hy hstepY) hIafterY hknown hgone hserved hthird hafter

/-- **One call renews a rejected token.** -/
theorem renewed_once {steps : List (TokenSystem × TokenAction × TokenSystem)}
    {tasks : List TaskId} (hs : (tokens skew).Reachable s) (htoken : s.manager.token = some token)
    (hrun : (tokens skew).Run s steps w) (hcalm : CalmRun skew s steps) (hsome : tasks ≠ [])
    (htasks : ∀ task ∈ tasks, RejectsThenGets steps token task)
    (hdone : ∀ task ∈ tasks, w.tasks.get? task = none) :
    w.issuerCalls = s.issuerCalls + 1 ∧ ∃ fresh, fresh ∉ s.issued ∧ w.manager.token = some fresh ∧
      ∀ task ∈ tasks, w.received.get? task = some fresh := by
  have hknown := (reachable_lockRules hs).known token htoken
  have hI : Renewing s token s := ⟨.cached htoken rfl rfl, hcalm.pending, fun _ h => h⟩
  have hserved : ∀ task ∈ tasks, w.manager.token ≠ some token ∧
      ∃ fresh, w.manager.token = some fresh ∧ w.received.get? task = some fresh := by
    intro task htask
    obtain ⟨hgone, hserved⟩ :=
      renewer_served hs hI hknown hrun hcalm.calm (htasks task htask)
    rw [Served, hdone task htask] at hserved
    refine ⟨hgone, ?_⟩
    rcases hserved with hwaiting | hissuing | hgot
    · cases hwaiting
    · cases hissuing
    · exact hgot
  obtain ⟨first, hfirst⟩ := List.exists_mem_of_ne_nil tasks hsome
  obtain ⟨hgone, fresh, hfresh, -⟩ := hserved first hfirst
  cases (run_renewing hs hI hrun hcalm.calm).phase with
  | cached hsame => exact absurd hsame hgone
  | discarded hnone => simp [hfresh] at hnone
  | renewed other hother hnew hcalls =>
    refine ⟨hcalls, other, hnew, hother, fun task htask => ?_⟩
    obtain ⟨-, got, hgot, hreceived⟩ := hserved task htask
    rw [hreceived, ← hgot, hother]

def emptyTokens : TokenSystem := ⟨.new, Dict.empty, 0, [], 0, Dict.empty⟩

def firstToken : IssuedToken := ⟨"t1", 3600, by decide +kernel, by decide⟩

def secondToken : IssuedToken := ⟨"t2", 3600, by decide +kernel, by decide⟩

def thirtySeconds : Instant := 30000000

/-- Both tasks get the first token. -/
def bothGet : List TokenAction :=
  [.get 1 0, .get 2 0, .getLocked 1 0, .issued 1 firstToken 1, .getLocked 2 1]

/-- Both reject it; the second comes to its `invalidate` when it has been renewed. -/
def bothReject : List TokenAction :=
  [.invalidate 1 "t1", .invalidate 2 "t1", .invalidateLocked 1, .get 1 2, .getLocked 1 2,
    .issued 1 secondToken 3, .invalidateLocked 2, .get 2 3]

def TokenSystem.schedule (s : TokenSystem) (actions : List TokenAction) : Option TokenSystem :=
  Machine.follow (fun s a => s.step thirtySeconds a) s actions

def TokenSystem.trace (s : TokenSystem) (actions : List TokenAction) :
    List (TokenSystem × TokenAction × TokenSystem) :=
  Machine.trace (fun s a => s.step thirtySeconds a) s actions

/-- Nothing fails or expires, and only the first token is rejected. -/
def TokenAction.rejectsOnly (token : String) : TokenAction → Bool
  | .issuerFailed _ => false
  | .invalidate _ rejectedToken => rejectedToken = token
  | _ => true

theorem calm_of_check {steps : List (TokenSystem × TokenAction × TokenSystem)}
    (hknown : token ∈ s.issued)
    (h : ∀ x ∈ steps, (x.1.manager.token = none ∨ x.1.manager.valid skew x.2.2.clock = true) ∧
      x.2.1.rejectsOnly token = true) : ∀ x ∈ steps, Calm skew s x := by
  intro x hx
  obtain ⟨hvalid, hrejects⟩ := h x hx
  refine ⟨fun hsome => hvalid.resolve_left hsome, ?_, ?_⟩
  · intro task hfailed
    rw [hfailed] at hrejects
    cases hrejects
  · intro task other hrejected
    rw [hrejected, TokenAction.rejectsOnly, decide_eq_true_eq] at hrejects
    exact hrejects ▸ hknown

end Screener.Market
