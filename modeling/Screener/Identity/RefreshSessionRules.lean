import Screener.Identity.RefreshSessions

/-!
# What a step of a request can do

A step either moves one request and writes no row, or inserts the first row of a
family, or revokes a row, or exchanges a token: it revokes the token's row and
inserts the next row of the family. In every interleaving the hashes stay
distinct, and the row of an exchanged token is revoked and is not the last row of
its family. The other direction, that only exchanged rows have a successor, and
that no token is exchanged twice, is kept by the exchanges of last rows.
-/

namespace Screener.Identity

open Screener.Lib

/-- The row of a family that was inserted last. -/
def newest? (sessions : Sessions) (familyId : FamilyId) : Option SessionId :=
  (sessions.keysWhere fun row => row.familyId = familyId).getLast?

variable {env : Environment} {s t : AuthState} {request : RequestId} {action : AuthAction}
variable {sessions : Sessions} {exchanged : List String} {uuid4 : SessionId}

/-! ## Steps -/

/-- A request that is about to exchange a token has read its row. -/
def Control.ReadFrom (sessions : Sessions) (control : Control) : Prop :=
  ∀ id stored user now, control = .rotating id stored user now → sessions.get? id = some stored

inductive Stepped (env : Environment) (s : AuthState) (request : RequestId) :
    AuthAction → AuthState → Prop
  | quiet {action : AuthAction} (control : Control) :
      (∀ uuid4 rawToken, action ≠ .refreshCommit uuid4 rawToken) → control.ReadFrom s.sessions →
      Stepped env s request action (s.setControl request control)
  | login {username password : String} {now : Instant} {uuid4 : SessionId} {familyId : FamilyId}
      {rawToken : String} (row : RefreshSession) (response : Response) :
      row.familyId = familyId → row.tokenHash = env.tokenHash rawToken →
      Insertable s.sessions uuid4 row.tokenHash →
      (∀ other ∈ s.sessions.values, other.familyId ≠ row.familyId) →
      Stepped env s request (.login username password now uuid4 familyId rawToken)
        { s.setControl request (.answered response) with sessions := s.sessions.set uuid4 row }
  | refresh {uuid4 : SessionId} {rawToken : String} {id : SessionId} {stored : RefreshSession}
      {user : User} {now : Instant} (row : RefreshSession) (response : Response) :
      s.requests.get? request = some (.rotating id stored user now) →
      row.familyId = stored.familyId → Insertable s.sessions uuid4 row.tokenHash →
      Stepped env s request (.refreshCommit uuid4 rawToken)
        { requests := s.requests.set request (.answered response)
          sessions := (s.sessions.modify id (revoked now)).set uuid4 row
          exchanged := s.exchanged ++ [stored.tokenHash] }
  | logout (id : SessionId) (now : Instant) :
      Stepped env s request .logoutCommit
        { s.setControl request (.answered .loggedOut) with
          sessions := s.sessions.modify id (revoked now) }

theorem readFrom_answered (sessions : Sessions) (response : Response) :
    (Control.answered response).ReadFrom sessions := by
  intro id stored user now h
  cases h

theorem readFrom_loggingOut (sessions : Sessions) (target : Option SessionId) (now : Instant) :
    (Control.loggingOut target now).ReadFrom sessions := by
  intro id stored user now h
  cases h

theorem readFrom_refreshSelect (s : AuthState) (env : Environment) (refreshToken : Option String)
    (now : Instant) : (s.refreshSelect env refreshToken now).ReadFrom s.sessions := by
  unfold AuthState.refreshSelect
  split_ifs
  · exact readFrom_answered _ _
  · split
    · exact readFrom_answered _ _
    · rename_i id stored hselect
      split_ifs
      · exact readFrom_answered _ _
      · split
        · exact readFrom_answered _ _
        · split_ifs
          · exact readFrom_answered _ _
          · intro id' stored' user' now' h
            cases h
            exact Dict.get?_eq_some.mpr (List.mem_of_find?_eq_some hselect)

theorem step_stepped (h : s.step env request action = some t) : Stepped env s request action t := by
  unfold AuthState.step at h
  split at h
  · rename_i username password now uuid4 familyId rawToken hnone
    unfold AuthState.login at h
    split at h
    · rw [← Option.some.inj h]
      exact .quiet _ (by simp) (readFrom_answered _ _)
    · rename_i userId user hauthenticate
      split_ifs at h with hfresh
      rw [← Option.some.inj h]
      exact .login _ _ rfl rfl hfresh.1 hfresh.2
  · rw [← Option.some.inj h]
    exact .quiet _ (by simp) (readFrom_refreshSelect s env _ _)
  · unfold AuthState.logoutUpdate at h
    split_ifs at h
    · rw [← Option.some.inj h]
      exact .quiet _ (by simp) (readFrom_loggingOut _ _ _)
    · split at h
      · rw [← Option.some.inj h]
        exact .quiet _ (by simp) (readFrom_loggingOut _ _ _)
      · split_ifs at h
        rw [← Option.some.inj h]
        exact .quiet _ (by simp) (readFrom_loggingOut _ _ _)
  · rename_i id stored user now uuid4 rawToken hrotating
    unfold AuthState.refreshCommit at h
    split_ifs at h with hfresh
    rw [← Option.some.inj h]
    exact .refresh _ _ hrotating rfl hfresh.2
  · rename_i target now hloggingOut
    rw [← Option.some.inj h]
    cases target with
    | none => exact .quiet _ (by simp) (readFrom_answered _ _)
    | some id => exact .logout id now
  · rw [← Option.some.inj h]
    exact .quiet _ (by simp) (readFrom_answered _ _)
  · rw [← Option.some.inj h]
    exact .quiet _ (by simp) (readFrom_answered _ _)
  · cases h

/-! ## The table after a step -/

@[simp] theorem get?_revoke (sessions : Sessions) (id other : SessionId) (now : Instant) :
    (sessions.modify id (revoked now)).get? other =
      if other = id then (sessions.get? id).map (revoked now) else sessions.get? other :=
  Dict.get?_modify _ _ _ _

@[simp] theorem newest?_revoke (sessions : Sessions) (id : SessionId) (now : Instant)
    (familyId : FamilyId) :
    newest? (sessions.modify id (revoked now)) familyId = newest? sessions familyId := by
  unfold newest?
  rw [Dict.keysWhere_modify]
  intro row
  rfl

/-- The inserted row is the last one of its family, the other families keep theirs. -/
theorem newest?_insert (h : uuid4 ∉ sessions.keys) (row : RefreshSession) (familyId : FamilyId) :
    newest? (sessions.set uuid4 row) familyId =
      if row.familyId = familyId then some uuid4 else newest? sessions familyId := by
  unfold newest?
  rw [Dict.keysWhere_set_of_not_mem h]
  by_cases hfamily : row.familyId = familyId
  · simp [hfamily]
  · simp [hfamily]

/-- The rows stay, with their families and their hashes; a revoked row stays
revoked and a row that has a successor keeps one. -/
def Persists (sessions sessions' : Sessions) : Prop :=
  ∀ id row, sessions.get? id = some row → ∃ row', sessions'.get? id = some row' ∧
    row'.familyId = row.familyId ∧ row'.tokenHash = row.tokenHash ∧
    (row.revokedAt ≠ none → row'.revokedAt ≠ none) ∧
    (newest? sessions row.familyId ≠ some id → newest? sessions' row.familyId ≠ some id)

theorem persists_refl (sessions : Sessions) : Persists sessions sessions :=
  fun _ row hrow => ⟨row, hrow, rfl, rfl, fun h => h, fun h => h⟩

theorem persists_revoke (sessions : Sessions) (id : SessionId) (now : Instant) :
    Persists sessions (sessions.modify id (revoked now)) := by
  intro other row hrow
  simp only [get?_revoke, newest?_revoke]
  split_ifs with hid
  · subst hid
    exact ⟨revoked now row, by rw [hrow]; rfl, rfl, rfl, fun _ => by simp [revoked], fun h => h⟩
  · exact ⟨row, hrow, rfl, rfl, fun h => h, fun h => h⟩

theorem persists_insert (h : uuid4 ∉ sessions.keys) (row : RefreshSession) :
    Persists sessions (sessions.set uuid4 row) := by
  intro id old hold
  have hne : id ≠ uuid4 := fun heq => h (heq ▸ Dict.mem_keys_of_get? hold)
  refine ⟨old, by rw [Dict.get?_set, if_neg hne, hold], rfl, rfl, fun h => h, ?_⟩
  intro hnewest
  rw [newest?_insert h]
  split_ifs
  · exact fun heq => hne (Option.some.inj heq).symm
  · exact hnewest

theorem Persists.trans {sessions' sessions'' : Sessions} (h : Persists sessions sessions')
    (h' : Persists sessions' sessions'') : Persists sessions sessions'' := by
  intro id row hrow
  obtain ⟨row', hrow', hfamily, hhash, hrevoked, hnewest⟩ := h id row hrow
  obtain ⟨row'', hrow'', hfamily', hhash', hrevoked', hnewest'⟩ := h' id row' hrow'
  rw [hfamily] at hnewest'
  exact ⟨row'', hrow'', hfamily'.trans hfamily, hhash'.trans hhash,
    fun hnone => hrevoked' (hrevoked hnone), fun hne => hnewest' (hnewest hne)⟩

/-! ## Distinct hashes -/

def UniqueHash (sessions : Sessions) : Prop :=
  ∀ id id' row row', sessions.get? id = some row → sessions.get? id' = some row' →
    row.tokenHash = row'.tokenHash → id = id'

/-- A row of the table after a revocation was there before it. -/
theorem row_before_revoke {id other : SessionId} {now : Instant} {row' : RefreshSession}
    (h : (sessions.modify id (revoked now)).get? other = some row') :
    ∃ row, sessions.get? other = some row ∧ row'.familyId = row.familyId ∧
      row'.tokenHash = row.tokenHash := by
  rw [get?_revoke] at h
  split_ifs at h with hid
  · obtain ⟨row, hrow, rfl⟩ := Option.map_eq_some_iff.mp h
    exact ⟨row, hid ▸ hrow, rfl, rfl⟩
  · exact ⟨row', h, rfl, rfl⟩

theorem UniqueHash.revoke (h : UniqueHash sessions) (id : SessionId) (now : Instant) :
    UniqueHash (sessions.modify id (revoked now)) := by
  intro id₁ id₂ row₁ row₂ h₁ h₂ hhash
  obtain ⟨old₁, hold₁, -, hhash₁⟩ := row_before_revoke h₁
  obtain ⟨old₂, hold₂, -, hhash₂⟩ := row_before_revoke h₂
  exact h id₁ id₂ old₁ old₂ hold₁ hold₂ (hhash₁.symm.trans (hhash.trans hhash₂))

theorem UniqueHash.insert (h : UniqueHash sessions) {row : RefreshSession}
    (hrow : Insertable sessions uuid4 row.tokenHash) : UniqueHash (sessions.set uuid4 row) := by
  have hnew : ∀ id old, sessions.get? id = some old → old.tokenHash ≠ row.tokenHash :=
    fun id old hold => hrow.2 old (Dict.mem_values.mpr ⟨id, hold⟩)
  intro id₁ id₂ row₁ row₂ h₁ h₂ hhash
  rw [Dict.get?_set] at h₁ h₂
  split_ifs at h₁ h₂ with heq₁ heq₂ heq₂
  · rw [heq₁, heq₂]
  · rw [← Option.some.inj h₁] at hhash
    exact absurd hhash.symm (hnew id₂ row₂ h₂)
  · rw [← Option.some.inj h₂] at hhash
    exact absurd hhash (hnew id₁ row₁ h₁)
  · exact h id₁ id₂ row₁ row₂ h₁ h₂ hhash

theorem Insertable.revoke {tokenHash : String} (h : Insertable sessions uuid4 tokenHash)
    (id : SessionId) (now : Instant) :
    Insertable (sessions.modify id (revoked now)) uuid4 tokenHash := by
  refine ⟨by rw [Dict.keys_modify]; exact h.1, ?_⟩
  intro row hrow
  obtain ⟨other, hother⟩ := Dict.mem_values.mp hrow
  obtain ⟨old, hold, -, hhash⟩ := row_before_revoke hother
  rw [hhash]
  exact h.2 old (Dict.mem_values.mpr ⟨other, hold⟩)

/-! ## What every interleaving keeps -/

/-- The hash is that of a revoked row that has a successor in its family. -/
def Spent (sessions : Sessions) (hash : String) : Prop :=
  ∃ id row, sessions.get? id = some row ∧ row.tokenHash = hash ∧ row.revokedAt ≠ none ∧
    newest? sessions row.familyId ≠ some id

theorem Persists.spent {sessions' : Sessions} {hash : String} (h : Persists sessions sessions')
    (hspent : Spent sessions hash) : Spent sessions' hash := by
  obtain ⟨id, row, hrow, hhash, hrevoked, hnewest⟩ := hspent
  obtain ⟨row', hrow', hfamily', hhash', hrevoked', hnewest'⟩ := h id row hrow
  exact ⟨id, row', hrow', hhash'.trans hhash, hrevoked' hrevoked, hfamily' ▸ hnewest' hnewest⟩

/-- The row that a request is about to exchange is there, whatever has become of it. -/
def Selected (sessions : Sessions) (id : SessionId) (stored : RefreshSession) : Prop :=
  ∃ row, sessions.get? id = some row ∧ row.familyId = stored.familyId ∧
    row.tokenHash = stored.tokenHash

structure WellFormed (s : AuthState) : Prop where
  uniqueHash : UniqueHash s.sessions
  selected : ∀ request id stored user now,
    s.requests.get? request = some (.rotating id stored user now) → Selected s.sessions id stored
  spent : ∀ hash ∈ s.exchanged, Spent s.sessions hash

theorem wellFormed_initial (h : s.Initial) : WellFormed s := by
  obtain ⟨hsessions, hrequests, hexchanged⟩ := h
  constructor
  · intro id id' row row' hrow
    rw [hsessions, Dict.get?_empty] at hrow
    cases hrow
  · intro request id stored user now hcontrol
    rw [hrequests, Dict.get?_empty] at hcontrol
    cases hcontrol
  · intro hash hmem
    rw [hexchanged] at hmem
    cases hmem

/-- A step keeps the rules when it keeps the rows and the distinct hashes, the
request it moves has read its row from the table, and what it exchanges is spent. -/
theorem WellFormed.of_persists (hs : WellFormed s) {control : Control}
    (hpersists : Persists s.sessions t.sessions) (hunique : UniqueHash t.sessions)
    (hrequests : t.requests = s.requests.set request control)
    (hcontrol : control.ReadFrom s.sessions)
    (hexchanged : ∀ hash ∈ t.exchanged, hash ∈ s.exchanged ∨ Spent t.sessions hash) :
    WellFormed t := by
  refine ⟨hunique, ?_, ?_⟩
  · intro other id stored user now hother
    have hbefore : Selected s.sessions id stored := by
      rw [hrequests, Dict.get?_set] at hother
      split_ifs at hother
      · exact ⟨stored, hcontrol id stored user now (Option.some.inj hother), rfl, rfl⟩
      · exact hs.selected other id stored user now hother
    obtain ⟨row, hrow, hfamily, hhash⟩ := hbefore
    obtain ⟨row', hrow', hfamily', hhash', -⟩ := hpersists id row hrow
    exact ⟨row', hrow', hfamily'.trans hfamily, hhash'.trans hhash⟩
  · intro hash hmem
    rcases hexchanged hash hmem with hold | hnew
    · exact hpersists.spent (hs.spent hash hold)
    · exact hnew

theorem stepped_persists (h : Stepped env s request action t) : Persists s.sessions t.sessions := by
  cases h with
  | quiet => exact persists_refl _
  | login row response _ _ hinsertable _ => exact persists_insert hinsertable.1 row
  | @refresh uuid4 rawToken id stored user now row response _ _ hinsertable =>
    refine (persists_revoke s.sessions id now).trans (persists_insert ?_ row)
    rw [Dict.keys_modify]
    exact hinsertable.1
  | logout id now => exact persists_revoke _ id now

theorem stepped_wellFormed (hs : WellFormed s) (h : Stepped env s request action t) :
    WellFormed t := by
  have hpersists := stepped_persists h
  cases h with
  | quiet control _ hcontrol =>
    exact hs.of_persists hpersists hs.uniqueHash rfl hcontrol fun _ hmem => .inl hmem
  | login row response _ _ hinsertable _ =>
    exact hs.of_persists hpersists (hs.uniqueHash.insert hinsertable) rfl
      (readFrom_answered _ _) fun _ hmem => .inl hmem
  | @refresh uuid4 rawToken id stored user now row response hrotating hfamily hinsertable =>
    have hfresh : uuid4 ∉ (s.sessions.modify id (revoked now)).keys := by
      rw [Dict.keys_modify]
      exact hinsertable.1
    refine hs.of_persists hpersists
      ((hs.uniqueHash.revoke id now).insert (hinsertable.revoke id now)) rfl
      (readFrom_answered _ _) ?_
    intro hash hmem
    rcases List.mem_append.mp hmem with hold | hnew
    · exact .inl hold
    · right
      rw [List.mem_singleton] at hnew
      subst hnew
      obtain ⟨old, hold, hfamily', hhash'⟩ := hs.selected request id stored user now hrotating
      have hne : id ≠ uuid4 := fun heq => hinsertable.1 (heq ▸ Dict.mem_keys_of_get? hold)
      refine ⟨id, revoked now old, ?_, hhash', by simp [revoked], ?_⟩
      · rw [Dict.get?_set, if_neg hne, get?_revoke, if_pos rfl, hold]
        rfl
      · have hsame : row.familyId = (revoked now old).familyId := hfamily.trans hfamily'.symm
        rw [newest?_insert hfresh, if_pos hsame]
        exact fun heq => hne (Option.some.inj heq).symm
  | logout id now =>
    exact hs.of_persists hpersists (hs.uniqueHash.revoke id now) rfl (readFrom_answered _ _)
      fun _ hmem => .inl hmem

theorem reachable_wellFormed (h : (auth env).Reachable s) : WellFormed s := by
  refine h.invariant (fun s hs => wellFormed_initial (s := s) hs) ?_
  intro s a t _ hs hst
  exact stepped_wellFormed hs (step_stepped hst)

end Screener.Identity
