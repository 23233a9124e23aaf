import Screener.Identity.RefreshSessionRules

/-!
# How often a refresh token is exchanged

The commit of a refresh does not look at the row again. A token is exchanged a
second time exactly when a refresh commits that read its row before the row got
a successor. In a run without such a commit every row that has a successor is
exchanged once, and a family has at most one row that is not revoked.
-/

namespace Screener.Identity

open Screener.Lib

variable {env : Environment} {s t : AuthState} {request : RequestId} {action : AuthAction}

/-- No token is exchanged twice, and a family has at most one unrevoked row. -/
structure SingleUse (s : AuthState) : Prop where
  exchangedOnce : s.exchanged.Nodup
  oneUnrevoked : ∀ id id' row row', s.sessions.get? id = some row →
    s.sessions.get? id' = some row' → row.familyId = row'.familyId →
    row.revokedAt = none → row'.revokedAt = none → id = id'

/-- The refresh that commits has read the row that is still the last of its family. -/
def Current (s : AuthState) (request : RequestId) : AuthAction → Prop
  | .refreshCommit _ _ => ∀ id stored user now,
      s.requests.get? request = some (.rotating id stored user now) →
      newest? s.sessions stored.familyId = some id
  | _ => True

/-- What the commits of last rows keep. -/
structure Rotated (s : AuthState) : Prop where
  superseded : ∀ id row, s.sessions.get? id = some row →
    newest? s.sessions row.familyId ≠ some id → row.tokenHash ∈ s.exchanged
  once : s.exchanged.Nodup

theorem rotated_initial (h : s.Initial) : Rotated s := by
  obtain ⟨hsessions, -, hexchanged⟩ := h
  constructor
  · intro id row hrow
    rw [hsessions, Dict.get?_empty] at hrow
    cases hrow
  · rw [hexchanged]
    exact List.nodup_nil

/-- An unrevoked row is the last of its family: any other one has been exchanged. -/
theorem Rotated.newest_of_unrevoked (hr : Rotated s) (hs : WellFormed s) {id : SessionId}
    {row : RefreshSession} (hrow : s.sessions.get? id = some row) (hnone : row.revokedAt = none) :
    newest? s.sessions row.familyId = some id := by
  by_contra hne
  obtain ⟨other, row', hrow', hhash, hrevoked, -⟩ := hs.spent _ (hr.superseded id row hrow hne)
  have hsame : other = id := hs.uniqueHash other id row' row hrow' hrow hhash
  subst hsame
  rw [hrow, Option.some.injEq] at hrow'
  exact hrevoked (hrow' ▸ hnone)

theorem Rotated.singleUse (hr : Rotated s) (hs : WellFormed s) : SingleUse s := by
  refine ⟨hr.once, ?_⟩
  intro id id' row row' hrow hrow' hfamily hnone hnone'
  have hnewest := hr.newest_of_unrevoked hs hrow hnone
  have hnewest' := hr.newest_of_unrevoked hs hrow' hnone'
  rw [hfamily, hnewest'] at hnewest
  exact (Option.some.inj hnewest).symm

/-- A hash that is exchanged again belongs to a row with a successor. -/
theorem exchanged_superseded (hs : WellFormed s) {id : SessionId} {stored : RefreshSession}
    (hselected : Selected s.sessions id stored) (hmem : stored.tokenHash ∈ s.exchanged) :
    newest? s.sessions stored.familyId ≠ some id := by
  obtain ⟨row, hrow, hfamily, hhash⟩ := hselected
  obtain ⟨other, row', hrow', hhash', -, hnewest⟩ := hs.spent _ hmem
  have hsame : other = id := hs.uniqueHash other id row' row hrow' hrow (hhash'.trans hhash.symm)
  subst hsame
  rw [hrow, Option.some.injEq] at hrow'
  rw [← hfamily, hrow']
  exact hnewest

/-- An old row that is not the newest one of its family after an insertion. -/
theorem superseded_of_insert {sessions : Sessions} {uuid4 id : SessionId}
    {row old : RefreshSession} (hfresh : uuid4 ∉ sessions.keys)
    (hold : (sessions.set uuid4 row).get? id = some old)
    (hnewest : newest? (sessions.set uuid4 row) old.familyId ≠ some id) :
    sessions.get? id = some old ∧
      (row.familyId ≠ old.familyId → newest? sessions old.familyId ≠ some id) := by
  rw [newest?_insert hfresh] at hnewest
  rw [Dict.get?_set] at hold
  split_ifs at hold with hid
  · rw [← Option.some.inj hold, if_pos rfl, hid] at hnewest
    exact absurd rfl hnewest
  · refine ⟨hold, fun hother => ?_⟩
    rw [if_neg hother] at hnewest
    exact hnewest

theorem rotated_step (hs : WellFormed s) (hr : Rotated s) (hcurrent : Current s request action)
    (h : Stepped env s request action t) : Rotated t := by
  cases h with
  | quiet control _ _ => exact ⟨hr.superseded, hr.once⟩
  | @login _ _ _ uuid4 _ _ row response _ _ hinsertable hfamily =>
    refine ⟨?_, hr.once⟩
    intro id old hold hnewest
    show old.tokenHash ∈ s.exchanged
    obtain ⟨hbefore, hsuperseded⟩ := superseded_of_insert hinsertable.1 hold hnewest
    have hother : old.familyId ≠ row.familyId := hfamily old (Dict.mem_values.mpr ⟨id, hbefore⟩)
    exact hr.superseded id old hbefore (hsuperseded hother.symm)
  | @refresh uuid4 rawToken id stored user now row response hrotating hfamily hinsertable =>
    have hfresh : uuid4 ∉ (s.sessions.modify id (revoked now)).keys := by
      rw [Dict.keys_modify]
      exact hinsertable.1
    have hlast : newest? s.sessions stored.familyId = some id :=
      hcurrent id stored user now hrotating
    have hselected := hs.selected request id stored user now hrotating
    have hnew : stored.tokenHash ∉ s.exchanged :=
      fun hmem => exchanged_superseded hs hselected hmem hlast
    obtain ⟨selected, hselectedRow, -, hselectedHash⟩ := hselected
    constructor
    · intro other old hold hnewest
      show old.tokenHash ∈ s.exchanged ++ [stored.tokenHash]
      obtain ⟨hrevoked, hsuperseded⟩ := superseded_of_insert hfresh hold hnewest
      obtain ⟨before, hbefore, hsameFamily, hsameHash⟩ := row_before_revoke hrevoked
      rw [hsameHash]
      rw [newest?_revoke, hsameFamily] at hsuperseded
      by_cases hid : other = id
      · -- The row that this step exchanges.
        subst hid
        rw [hselectedRow, Option.some.injEq] at hbefore
        rw [← hbefore, hselectedHash]
        exact List.mem_append_right _ (List.mem_singleton_self _)
      · refine List.mem_append_left _ (hr.superseded other before hbefore ?_)
        by_cases hinFamily : row.familyId = before.familyId
        · rw [← hinFamily, hfamily, hlast]
          exact fun heq => hid (Option.some.inj heq).symm
        · exact hsuperseded hinFamily
    · show (s.exchanged ++ [stored.tokenHash]).Nodup
      rw [← List.concat_eq_append, List.nodup_concat]
      exact ⟨hnew, hr.once⟩
  | logout id now =>
    refine ⟨?_, hr.once⟩
    intro other old hold hnewest
    replace hnewest : newest? (s.sessions.modify id (revoked now)) old.familyId ≠ some other :=
      hnewest
    obtain ⟨before, hbefore, hsameFamily, hsameHash⟩ := row_before_revoke hold
    rw [newest?_revoke, hsameFamily] at hnewest
    rw [hsameHash]
    exact hr.superseded other before hbefore hnewest

/-- A commit on a row with a successor exchanges a token again. -/
theorem current_of_exchangedOnce (hs : WellFormed s) (hr : Rotated s)
    (h : Stepped env s request action t) (hnodup : t.exchanged.Nodup) :
    Current s request action := by
  cases h with
  | quiet control hquiet _ =>
    cases action with
    | refreshCommit uuid4 rawToken => exact absurd rfl (hquiet uuid4 rawToken)
    | _ => trivial
  | login => trivial
  | @refresh uuid4 rawToken id stored user now row response hrotating hfamily hinsertable =>
    intro id' stored' user' now' hrotating'
    have hsame := hrotating.symm.trans hrotating'
    simp only [Option.some.injEq, Control.rotating.injEq] at hsame
    obtain ⟨rfl, rfl, -, -⟩ := hsame
    by_contra hne
    obtain ⟨selected, hrow, hselectedFamily, hhash⟩ := hs.selected request _ _ _ _ hrotating
    have hmem : stored.tokenHash ∈ s.exchanged := by
      rw [← hhash]
      exact hr.superseded _ selected hrow (by rw [hselectedFamily]; exact hne)
    replace hnodup : (s.exchanged ++ [stored.tokenHash]).Nodup := hnodup
    rw [← List.concat_eq_append, List.nodup_concat] at hnodup
    exact hnodup.1 hmem
  | logout => trivial

/-- **A refresh token is exchanged at most once**, and a family has at most one
unrevoked row, in every state of a run exactly when each refresh that commits in
it has read the row that is still the last of its family. -/
theorem single_use_iff {steps : List (AuthState × (RequestId × AuthAction) × AuthState)}
    (hs : (auth env).init s) (hrun : (auth env).Run s steps t) :
    (∀ x ∈ steps, SingleUse x.2.2) ↔ ∀ x ∈ steps, Current x.1 x.2.1.1 x.2.1.2 := by
  have hstep : ∀ s a t, (auth env).Reachable s → Rotated s → (auth env).step s a t →
      (SingleUse t ↔ Current s a.1 a.2) ∧ (Current s a.1 a.2 → Rotated t) := by
    intro s a t hreachable hr hst
    have hwell := reachable_wellFormed hreachable
    have hstepped := step_stepped hst
    have hkeeps : Current s a.1 a.2 → Rotated t := fun h => rotated_step hwell hr h hstepped
    refine ⟨⟨?_, ?_⟩, hkeeps⟩
    · intro hgood
      exact current_of_exchangedOnce hwell hr hstepped hgood.exchangedOnce
    · intro hcurrent
      exact (hkeeps hcurrent).singleUse (stepped_wellFormed hwell hstepped)
  exact Machine.Run.forall_iff hstep hrun (.init hs) (rotated_initial hs)

/-! ## Two refreshes at once -/

def emptyAuth : AuthState := ⟨Dict.empty, Dict.empty, []⟩

theorem emptyAuth_initial : emptyAuth.Initial := ⟨rfl, rfl, rfl⟩

/-- Take the steps of the requests in the given order. -/
def AuthState.schedule (env : Environment) :
    AuthState → List (RequestId × AuthAction) → Option AuthState :=
  Machine.follow fun s a => s.step env a.1 a.2

def developmentSettings : Settings where
  jwtAccessTtlSeconds := 900
  refreshTokenPepper := "development-only-refresh-pepper-change-me"
  refreshTtlDays := 14
  accessTtlBounds := by decide
  pepperLength := by decide
  refreshTtlBounds := by decide

/-- HMAC-SHA256 of three tokens with the development pepper. -/
def sampleHash (token _pepper : String) : String :=
  if token = "first" then "41a6459543883d459a75b53636516750013041b987fb66e5fdaa0b1087dc3a6c"
  else if token = "second" then "a4cdea45508eb8095acaa79e17d6ac46ebe3e84212b5ae6d026c32cbcb0c636b"
  else "1e1d512743ec55f418a345f37d6817c0f1f730c7d00dc7e315598821b37f9de1"

def development : Environment where
  settings := developmentSettings
  users := Dict.empty.set 1 ⟨"admin", "stored hash", "admin", true⟩
  verifyPassword password passwordHash := password = "secret" && passwordHash = "stored hash"
  hashRefreshToken := sampleHash

/-- The admin logs in with request 1 and gets the first token. -/
def adminLogin : RequestId × AuthAction := (1, .login "admin" "secret" 0 10 5 "first")

/-- A login and one refresh of its token. -/
theorem single_use_iff_sample :
    ∃ steps t, (auth development).Run emptyAuth steps t ∧ t.exchanged = [sampleHash "first" ""] ∧
      ((∀ x ∈ steps, SingleUse x.2.2) ↔ ∀ x ∈ steps, Current x.1 x.2.1.1 x.2.1.2) := by
  have hdone : (emptyAuth.schedule development
      [adminLogin, (2, .refreshSelect (some "first") 60000000),
        (2, .refreshCommit 11 "second")]).map (·.exchanged) = some [sampleHash "first" ""] := by
    decide +kernel
  obtain ⟨t, ht, hexchanged⟩ := Option.map_eq_some_iff.mp hdone
  obtain ⟨steps, hrun⟩ : ∃ steps, (auth development).Run emptyAuth steps t :=
    Machine.run_of_follow (fun _ _ _ hst => hst) ht
  exact ⟨steps, t, hrun, hexchanged, single_use_iff emptyAuth_initial hrun⟩

/-- Two refreshes select the first token's row before either of them commits.
Both are granted: the token is exchanged twice and its family has two rows that
are not revoked. -/
theorem token_exchanged_twice :
    ∃ s, (auth development).Reachable s ∧
      s.requests.get? 2 = some (.answered (.granted 1 "admin" 900 "second")) ∧
      s.requests.get? 3 = some (.answered (.granted 1 "admin" 900 "third")) ∧
      s.exchanged = [sampleHash "first" "", sampleHash "first" ""] ∧
      (s.sessions.keysWhere fun row => row.familyId = 5 && row.revokedAt.isNone) = [11, 12] ∧
      ¬ SingleUse s := by
  have htwice : (emptyAuth.schedule development
      [adminLogin, (2, .refreshSelect (some "first") 60000000),
        (3, .refreshSelect (some "first") 60000001), (2, .refreshCommit 11 "second"),
        (3, .refreshCommit 12 "third")]).map (fun s =>
          (s.requests.get? 2, s.requests.get? 3, s.exchanged,
            s.sessions.keysWhere fun row => row.familyId = 5 && row.revokedAt.isNone)) =
      some (some (.answered (.granted 1 "admin" 900 "second")),
        some (.answered (.granted 1 "admin" 900 "third")),
        [sampleHash "first" "", sampleHash "first" ""], [11, 12]) := by
    decide +kernel
  obtain ⟨s, hs, hvalues⟩ := Option.map_eq_some_iff.mp htwice
  simp only [Prod.mk.injEq] at hvalues
  obtain ⟨hsecond, hthird, hexchanged, hrows⟩ := hvalues
  have hreachable : (auth development).Reachable s :=
    Machine.reachable_of_follow (fun _ _ _ hst => hst) emptyAuth_initial hs
  refine ⟨s, hreachable, hsecond, hthird, hexchanged, hrows, ?_⟩
  intro hsingle
  have honce := hsingle.exchangedOnce
  rw [hexchanged] at honce
  simp at honce

end Screener.Identity
