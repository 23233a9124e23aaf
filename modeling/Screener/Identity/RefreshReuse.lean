import Screener.Identity.RefreshSingleUse

/-!
# A refresh token that was already revoked

Whole requests one after another, with a clock that does not go back. A refresh whose
token belongs to a revoked row is answered 401 and writes nothing, so the family of the
row can be exchanged afterwards exactly if it could be exchanged when the request came.
-/

namespace Screener.Identity

open Screener.Lib

/-! ## Whole requests -/

inductive AuthRequest where
  | login (username password : String) (now : Instant) (uuid4 : SessionId) (familyId : FamilyId)
      (rawToken : String)
  | refresh (refreshToken : Option String) (now : Instant) (uuid4 : SessionId) (rawToken : String)
  | logout (refreshToken : Option String) (now : Instant)
deriving DecidableEq, Repr

def AuthRequest.now : AuthRequest → Instant
  | .login _ _ now _ _ _ | .refresh _ now _ _ | .logout _ now => now

/-- A request with no other one between its steps. -/
def AuthState.serve (s : AuthState) (env : Environment) (request : RequestId) :
    AuthRequest → Option AuthState
  | .login username password now uuid4 familyId rawToken =>
    s.step env request (.login username password now uuid4 familyId rawToken)
  | .refresh refreshToken now uuid4 rawToken =>
    (s.step env request (.refreshSelect refreshToken now)).bind fun selected =>
      match selected.requests.get? request with
      | some (.answered _) => some selected
      | _ => selected.step env request (.refreshCommit uuid4 rawToken)
  | .logout refreshToken now =>
    (s.step env request (.logoutUpdate refreshToken now)).bind fun updated =>
      updated.step env request .logoutCommit

structure Service where
  auth : AuthState
  clock : Instant
deriving DecidableEq, Repr

def Service.serve (env : Environment) (s : Service) (call : RequestId × AuthRequest) :
    Option Service :=
  if s.clock ≤ call.2.now then (s.auth.serve env call.1 call.2).map fun auth => ⟨auth, call.2.now⟩
  else none

def sequential (env : Environment) : Machine Service (RequestId × AuthRequest) where
  init s := s.auth.Initial
  step s call t := s.serve env call = some t

variable {env : Environment} {s t : AuthState} {request : RequestId} {call : AuthRequest}

theorem Service.serve_eq_some {s t : Service} {call : RequestId × AuthRequest} :
    s.serve env call = some t ↔
      s.clock ≤ call.2.now ∧ s.auth.serve env call.1 call.2 = some t.auth ∧
        t.clock = call.2.now := by
  unfold Service.serve
  split
  · rename_i hclock
    obtain ⟨auth, clock⟩ := t
    simp only [Option.map_eq_some_iff, Service.mk.injEq, hclock, true_and]
    exact ⟨fun ⟨auth, h, hauth, hnow⟩ => ⟨hauth ▸ h, hnow.symm⟩,
      fun ⟨h, hnow⟩ => ⟨auth, h, rfl, hnow.symm⟩⟩
  · rename_i hclock
    simp [hclock]

/-- What the steps keep, a request keeps. -/
theorem serve_invariant {P : AuthState → Prop}
    (hstep : ∀ u action v, P u → u.step env request action = some v → P v) (hs : P s)
    (h : s.serve env request call = some t) : P t := by
  cases call with
  | login => exact hstep _ _ _ hs h
  | refresh refreshToken now uuid4 rawToken =>
    obtain ⟨selected, hselected, h⟩ := Option.bind_eq_some_iff.mp h
    have hread := hstep _ _ _ hs hselected
    split at h
    · exact Option.some.inj h ▸ hread
    · exact hstep _ _ _ hread h
  | logout refreshToken now =>
    obtain ⟨updated, hupdated, h⟩ := Option.bind_eq_some_iff.mp h
    exact hstep _ _ _ (hstep _ _ _ hs hupdated) h

theorem reachable_auth {s : Service} (h : (sequential env).Reachable s) :
    (auth env).Reachable s.auth := by
  induction h with
  | init hs => exact .init hs
  | step _ hst ih =>
    have hserve := (Service.serve_eq_some.mp hst).2.1
    exact serve_invariant (fun _ action _ hu hv => .step (a := (_, action)) hu hv) ih hserve

/-! ## What can be exchanged -/

/-- A refresh at `now` or later would pass its checks with a token of the family. -/
def CanExchange (env : Environment) (s : AuthState) (familyId : FamilyId) (now : Instant) : Prop :=
  ∃ refreshToken later id stored user, now ≤ later ∧
    s.refreshSelect env refreshToken later = .rotating id stored user later ∧
    stored.familyId = familyId

/-- The family of the revoked row that a refresh presents. -/
def AuthRequest.replays (env : Environment) (s : AuthState) : AuthRequest → Option FamilyId
  | .refresh refreshToken _ _ _ =>
    if refreshToken.getD "" = "" then none
    else
      match selectByHash s.sessions (env.tokenHash (refreshToken.getD "")) with
      | some (_, stored) => if stored.revokedAt.isSome then some stored.familyId else none
      | none => none
  | _ => none

theorem selectByHash_eq_some {sessions : Sessions} (hunique : UniqueHash sessions)
    {tokenHash : String} {id : SessionId} {row : RefreshSession} :
    selectByHash sessions tokenHash = some (id, row) ↔
      sessions.get? id = some row ∧ row.tokenHash = tokenHash := by
  constructor
  · intro h
    exact ⟨Dict.get?_eq_some.mpr (List.mem_of_find?_eq_some h), by simpa using List.find?_some h⟩
  · rintro ⟨hrow, hhash⟩
    cases hselect : selectByHash sessions tokenHash with
    | none =>
      have hnone := List.find?_eq_none.mp hselect (id, row) (Dict.get?_eq_some.mp hrow)
      simp [hhash] at hnone
    | some found =>
      obtain ⟨other, found⟩ := found
      have hfound := Dict.get?_eq_some.mpr (List.mem_of_find?_eq_some hselect)
      have hfoundHash : found.tokenHash = tokenHash := by simpa using List.find?_some hselect
      have hid := hunique other id found row hfound hrow (hfoundHash.trans hhash.symm)
      subst hid
      rw [hrow, Option.some.injEq] at hfound
      rw [hfound]

theorem refreshSelect_rotating {refreshToken : Option String} {now : Instant} {id : SessionId}
    {stored : RefreshSession} {user : User} {read : Instant} :
    s.refreshSelect env refreshToken now = .rotating id stored user read ↔
      refreshToken.getD "" ≠ "" ∧
        selectByHash s.sessions (env.tokenHash (refreshToken.getD "")) = some (id, stored) ∧
        stored.revokedAt = none ∧ now < stored.expiresAt ∧
        env.users.get? stored.userId = some user ∧ user.isActive = true ∧ now = read := by
  constructor
  · intro h
    unfold AuthState.refreshSelect at h
    split_ifs at h with htoken
    split at h
    · cases h
    · rename_i found row hselect
      split_ifs at h with hrefused
      · cases h
      · split at h
        · cases h
        · rename_i account huser
          split_ifs at h with hactive
          · cases h
          · cases h
            simp only [Bool.or_eq_true, decide_eq_true_eq, not_or, Bool.not_eq_true,
              Option.isSome_eq_false_iff, Option.isNone_iff_eq_none, not_le] at hrefused
            exact ⟨htoken, hselect, hrefused.1, hrefused.2, huser, by simpa using hactive, rfl⟩
  · rintro ⟨htoken, hselect, hrevoked, hexpires, huser, hactive, rfl⟩
    simp [AuthState.refreshSelect, htoken, hselect, hrevoked, not_le.mpr hexpires, huser, hactive]

/-! ## What a request does to the rows -/

/-- Each row that is not revoked was there before, or begins its family, or comes from a
token of the family that could be exchanged. -/
def RowsFrom (env : Environment) (s : AuthState) (now : Instant) (t : AuthState) : Prop :=
  ∀ id row, t.sessions.get? id = some row → row.revokedAt = none →
    s.sessions.get? id = some row ∨ (∀ other ∈ s.sessions.values, other.familyId ≠ row.familyId) ∨
      CanExchange env s row.familyId now

theorem rowsFrom_same {now : Instant} (h : t.sessions = s.sessions) : RowsFrom env s now t :=
  fun _ _ hrow _ => .inl (h ▸ hrow)

theorem get?_of_unrevoked {sessions : Sessions} {id other : SessionId} {now : Instant}
    {row : RefreshSession} (h : (sessions.modify id (revoked now)).get? other = some row)
    (hlive : row.revokedAt = none) : sessions.get? other = some row := by
  rw [get?_revoke] at h
  split_ifs at h
  · obtain ⟨before, -, rfl⟩ := Option.map_eq_some_iff.mp h
    cases hlive
  · exact h

theorem refreshSelect_step {refreshToken : Option String} {now : Instant}
    (h : s.step env request (.refreshSelect refreshToken now) = some t) :
    t = s.setControl request (s.refreshSelect env refreshToken now) := by
  unfold AuthState.step at h
  split at h <;> simp_all

theorem serve_rowsFrom (h : s.serve env request call = some t) : RowsFrom env s call.now t := by
  cases call with
  | login =>
    cases step_stepped h with
    | quiet => exact rowsFrom_same rfl
    | login row response _ _ _ hfamily =>
      intro id other hother hlive
      replace hother : (s.sessions.set _ row).get? id = some other := hother
      rw [Dict.get?_set] at hother
      split_ifs at hother
      · exact .inr (.inl (Option.some.inj hother ▸ hfamily))
      · exact .inl hother
  | refresh refreshToken now uuid4 rawToken =>
    obtain ⟨selected, hselected, h⟩ := Option.bind_eq_some_iff.mp h
    obtain rfl := refreshSelect_step hselected
    split at h
    · exact Option.some.inj h ▸ rowsFrom_same rfl
    · cases step_stepped h with
      | quiet control hcommit => exact absurd rfl (hcommit uuid4 rawToken)
      | @refresh _ _ target stored user read row response hrotating hfamily _ =>
        have hselect : s.refreshSelect env refreshToken now =
            .rotating target stored user read := by
          simpa [AuthState.setControl, Dict.get?_set] using hrotating
        have hread : now = read := (refreshSelect_rotating.mp hselect).2.2.2.2.2.2
        intro id other hother hlive
        replace hother : ((s.sessions.modify target (revoked read)).set uuid4 row).get? id =
          some other := hother
        rw [Dict.get?_set] at hother
        split_ifs at hother
        · refine .inr (.inr ⟨refreshToken, now, target, stored, user, le_rfl, hread ▸ hselect, ?_⟩)
          rw [← hfamily, Option.some.inj hother]
        · exact .inl (get?_of_unrevoked hother hlive)
  | logout =>
    obtain ⟨updated, hupdated, h⟩ := Option.bind_eq_some_iff.mp h
    have hsame : updated.sessions = s.sessions := by
      cases step_stepped hupdated
      rfl
    cases step_stepped h with
    | quiet => exact rowsFrom_same hsame
    | logout id now => exact fun _ _ hrow hlive => .inl (hsame ▸ get?_of_unrevoked hrow hlive)

/-- A replay is refused and writes nothing. -/
theorem replay_refused {familyId : FamilyId} (hreplay : call.replays env s = some familyId)
    (h : s.serve env request call = some t) : t = s.setControl request invalidSession := by
  cases call with
  | refresh refreshToken now uuid4 rawToken =>
    have hinvalid : s.refreshSelect env refreshToken now = invalidSession := by
      simp only [AuthRequest.replays] at hreplay
      split_ifs at hreplay with htoken
      split at hreplay
      · rename_i id stored hselect
        split_ifs at hreplay with hrevoked
        simp [AuthState.refreshSelect, htoken, hselect, hrevoked]
      · cases hreplay
    obtain ⟨selected, hselected, h⟩ := Option.bind_eq_some_iff.mp h
    obtain rfl := refreshSelect_step hselected
    simpa [hinvalid, AuthState.setControl, Dict.get?_set, invalidSession] using h.symm
  | login => cases hreplay
  | logout => cases hreplay

/-! ## Families that are closed -/

/-- The family has rows, and no token of it can be exchanged any more. -/
structure Closed (env : Environment) (familyId : FamilyId) (s : Service) : Prop where
  used : ∃ id row, s.auth.sessions.get? id = some row ∧ row.familyId = familyId
  shut : ¬ CanExchange env s.auth familyId s.clock

theorem closed_step {familyId : FamilyId} {s t : Service} {call : RequestId × AuthRequest}
    (hs : (sequential env).Reachable s) (hclosed : Closed env familyId s)
    (h : (sequential env).step s call t) : Closed env familyId t := by
  obtain ⟨hclock, hserve, hnow⟩ := Service.serve_eq_some.mp h
  have hreachable := reachable_auth (.step hs h)
  have hpersists : Persists s.auth.sessions t.auth.sessions :=
    serve_invariant (P := fun u => Persists s.auth.sessions u.sessions)
      (fun _ _ _ hu hv => hu.trans (stepped_persists (step_stepped hv))) (persists_refl _) hserve
  obtain ⟨id, row, hrow, hfamily⟩ := hclosed.used
  constructor
  · obtain ⟨row', hrow', hfamily', -⟩ := hpersists id row hrow
    exact ⟨id, row', hrow', hfamily'.trans hfamily⟩
  · rintro ⟨refreshToken, later, target, stored, user, hlater, hselect, hstored⟩
    obtain ⟨htoken, hfound, hlive, hexpires, huser⟩ := refreshSelect_rotating.mp hselect
    obtain ⟨hget, hhash⟩ :=
      (selectByHash_eq_some (reachable_wellFormed hreachable).uniqueHash).mp hfound
    have hbefore : s.clock ≤ later := hclock.trans (hnow ▸ hlater)
    rcases serve_rowsFrom hserve target stored hget hlive with hold | hfresh | hexchange
    · have hunique := (reachable_wellFormed (reachable_auth hs)).uniqueHash
      exact hclosed.shut ⟨refreshToken, later, target, stored, user, hbefore,
        refreshSelect_rotating.mpr ⟨htoken, (selectByHash_eq_some hunique).mpr ⟨hold, hhash⟩, hlive,
          hexpires, huser⟩, hstored⟩
    · exact hfresh row (Dict.mem_values.mpr ⟨id, hrow⟩) (hfamily.trans hstored.symm)
    · obtain ⟨token, time, other, row, account, htime, hselect, hrow⟩ := hexchange
      exact hclosed.shut ⟨token, time, other, row, account, hclock.trans htime, hselect,
        hrow.trans hstored⟩

/-- After a request that presents a revoked token, no token of its family can be exchanged. -/
def ReuseRevokes (env : Environment)
    (steps : List (Service × (RequestId × AuthRequest) × Service)) : Prop :=
  ∀ before x after familyId, steps = before ++ x :: after →
    x.2.1.2.replays env x.1.auth = some familyId →
    ∀ y ∈ x :: after, ¬ CanExchange env y.2.2.auth familyId y.2.2.clock

/-- A revoked token comes when its family can no longer be exchanged. -/
def ReusedLate (env : Environment) (s : Service) (call : AuthRequest) : Prop :=
  ∀ familyId, call.replays env s.auth = some familyId → ¬ CanExchange env s.auth familyId call.now

theorem replays_used {familyId : FamilyId} (h : call.replays env s = some familyId) :
    ∃ id row, s.sessions.get? id = some row ∧ row.familyId = familyId := by
  cases call with
  | refresh refreshToken now uuid4 rawToken =>
    simp only [AuthRequest.replays] at h
    split_ifs at h
    split at h
    · rename_i id stored hselect
      split_ifs at h
      exact ⟨id, stored, Dict.get?_eq_some.mpr (List.mem_of_find?_eq_some hselect),
        Option.some.inj h⟩
    · cases h
  | login => cases h
  | logout => cases h

/-- The refusal leaves the family as it found it. -/
theorem canExchange_after_replay {familyId : FamilyId} {s t : Service}
    {call : RequestId × AuthRequest} (h : (sequential env).step s call t)
    (hreplay : call.2.replays env s.auth = some familyId) :
    CanExchange env t.auth familyId t.clock ↔ CanExchange env s.auth familyId call.2.now := by
  obtain ⟨-, hserve, hnow⟩ := Service.serve_eq_some.mp h
  rw [replay_refused hreplay hserve, hnow]
  rfl

/-- **Reuse of a revoked token.** In a run of whole requests, a family of which a revoked
token is presented is shut from then on exactly if it was shut when the token came. -/
theorem reuse_revokes_iff {s t : Service}
    {steps : List (Service × (RequestId × AuthRequest) × Service)} (hs : (sequential env).init s)
    (hrun : (sequential env).Run s steps t) :
    ReuseRevokes env steps ↔ ∀ x ∈ steps, ReusedLate env x.1 x.2.1.2 := by
  have hmem := fun x => hrun.reachable_of_mem (.init hs) (x := x)
  constructor
  · intro hrevokes x hx familyId hreplay hexchange
    obtain ⟨before, after, hsteps⟩ := List.append_of_mem hx
    have hstep := (hmem x hx).2
    exact hrevokes before x after familyId hsteps hreplay x List.mem_cons_self
      ((canExchange_after_replay hstep hreplay).mpr hexchange)
  · intro hlate before x after familyId hsteps hreplay y hy
    have hx : x ∈ steps := by simp [hsteps]
    obtain ⟨hreachable, hstep⟩ := hmem x hx
    have hserve := (Service.serve_eq_some.mp hstep).2.1
    have hclosed : Closed env familyId x.2.2 := by
      constructor
      · rw [replay_refused hreplay hserve]
        exact replays_used hreplay
      · rw [canExchange_after_replay hstep hreplay]
        exact hlate x hx familyId hreplay
    subst hsteps
    obtain ⟨_, -, hrest⟩ := hrun.split
    obtain ⟨-, -, hafter⟩ := hrest.head
    have hkept := (hafter.kept (fun _ => True)
      (fun _ _ _ hu hI _ hv => closed_step hu hI hv) (.step hreachable hstep) hclosed (by simp)).1
    rcases List.mem_cons.mp hy with rfl | hy
    · exact hclosed.shut
    · exact (hkept y hy).shut

/-! ## A stolen token -/

def emptyService : Service := ⟨emptyAuth, 0⟩

theorem emptyService_initial (env : Environment) : (sequential env).init emptyService :=
  emptyAuth_initial

/-- The admin logs in and exchanges the first token for the second. -/
def rotation : List (RequestId × AuthRequest) :=
  [(1, .login "admin" "secret" 0 10 5 "first"), (2, .refresh (some "first") 60000000 11 "second")]

def Service.schedule (env : Environment) :
    Service → List (RequestId × AuthRequest) → Option Service :=
  Machine.follow (Service.serve env)

/-- A family whose rows are all revoked can no longer be exchanged. -/
theorem not_canExchange {familyId : FamilyId} {now : Instant}
    (h : ∀ row ∈ s.sessions.values, row.familyId = familyId → row.revokedAt.isSome = true) :
    ¬ CanExchange env s familyId now := by
  rintro ⟨refreshToken, later, id, stored, user, -, hselect, hfamily⟩
  obtain ⟨-, hfound, hlive, -⟩ := refreshSelect_rotating.mp hselect
  have hentry := Dict.get?_eq_some.mpr (List.mem_of_find?_eq_some hfound)
  have hrevoked := h stored (Dict.mem_values.mpr ⟨id, hentry⟩) hfamily
  rw [hlive] at hrevoked
  cases hrevoked

/-- After the rotation the admin logs out with the second token. The first token and
the second come once more, and both are refused. -/
def closedRotation : List (RequestId × AuthRequest) :=
  rotation ++ [(3, .logout (some "second") 61000000),
    (4, .refresh (some "first") 62000000 12 "third"),
    (5, .refresh (some "second") 63000000 13 "fourth")]

theorem reuse_revokes_sample :
    ∃ steps t, (sequential development).Run emptyService steps t ∧
      steps.map (fun x => x.2.1.2.replays development x.1.auth) =
        [none, none, none, some 5, some 5] ∧
      t.auth.requests.get? 4 = some invalidSession ∧
      t.auth.requests.get? 5 = some invalidSession ∧ ReuseRevokes development steps := by
  have hdone : (emptyService.schedule development closedRotation).map (fun t =>
      (t.auth.requests.get? 4, t.auth.requests.get? 5)) =
      some (some invalidSession, some invalidSession) := by
    decide +kernel
  obtain ⟨t, ht, hanswers⟩ := Option.map_eq_some_iff.mp hdone
  rw [Prod.mk.injEq] at hanswers
  have hrun := Machine.run_trace (M := sequential development) (fun _ _ _ hst => hst) ht
  refine ⟨_, t, hrun, by decide +kernel, hanswers.1, hanswers.2,
    (reuse_revokes_iff (emptyService_initial _) hrun).mpr ?_⟩
  -- the rows of a family that is presented again are all revoked
  have hrevoked : ∀ x ∈ Machine.trace (Service.serve development) emptyService closedRotation,
      ∀ familyId ∈ x.2.1.2.replays development x.1.auth, ∀ row ∈ x.1.auth.sessions.values,
        row.familyId = familyId → row.revokedAt.isSome = true := by
    decide +kernel
  intro x hx familyId hreplay
  exact not_canExchange (hrevoked x hx familyId hreplay)

/-- The first token comes a second time and is refused, and the second one is still
exchanged for a third. -/
theorem reuse_keeps_family :
    ∃ steps t, (sequential development).Run emptyService steps t ∧
      t.auth.requests.get? 3 = some invalidSession ∧
      t.auth.requests.get? 4 = some (.answered (.granted 1 "admin" 900 "third")) ∧
      ¬ ReuseRevokes development steps := by
  let again : RequestId × AuthRequest := (3, .refresh (some "first") 60000001 12 "third")
  let next : RequestId × AuthRequest := (4, .refresh (some "second") 60000002 12 "third")
  have hdone : (emptyService.schedule development rotation).bind (fun rotated =>
      (rotated.serve development again).bind fun refused =>
        (refused.serve development next).map fun done =>
          (again.2.replays development rotated.auth,
            (refused.auth.refreshSelect development (some "second") 60000002),
            done.auth.requests.get? 3, done.auth.requests.get? 4)) =
      some (some 5, .rotating 11 ⟨1, 5, sampleHash "second" "", 1209660000000, none⟩
          ⟨"admin", "stored hash", "admin", true⟩ 60000002,
        some invalidSession, some (.answered (.granted 1 "admin" 900 "third"))) := by
    decide +kernel
  obtain ⟨rotated, hrotated, hdone⟩ := Option.bind_eq_some_iff.mp hdone
  obtain ⟨refused, hrefused, hdone⟩ := Option.bind_eq_some_iff.mp hdone
  obtain ⟨done, hnext, hvalues⟩ := Option.map_eq_some_iff.mp hdone
  simp only [Prod.mk.injEq] at hvalues
  obtain ⟨hreplays, hselect, hthird, hfourth⟩ := hvalues
  obtain ⟨steps, hrun⟩ : ∃ steps, (sequential development).Run emptyService steps rotated :=
    Machine.run_of_follow (fun _ _ _ hst => hst) hrotated
  have hclock : refused.clock ≤ 60000002 := (Service.serve_eq_some.mp hnext).1
  refine ⟨_, done, (hrun.snoc hrefused).snoc hnext, hthird, hfourth, fun hrevokes => ?_⟩
  refine hrevokes steps (rotated, again, refused) [(refused, next, done)] 5 (by simp) hreplays _
    List.mem_cons_self ?_
  exact ⟨some "second", 60000002, 11, _, _, hclock, hselect, rfl⟩

end Screener.Identity
