import Screener.Lib.Dict
import Screener.Lib.Machine

/-!
# Login, refresh and logout

Any number of requests, interleaved at the steps of their transactions. A login
commits in one step, since nothing writes the users it reads. A refresh selects
the session of its token, checks what it has read and commits later: it revokes
that row by its id, whatever has become of it, and adds the next row of its
family. A logout updates the session of its token and holds the row until it
commits; the commit of a refresh waits for a row that is held.
-/

namespace Screener.Identity

open Screener.Lib

/-- A point of time in microseconds. -/
abbrev Instant := ℤ

abbrev UserId := Nat

abbrev SessionId := Nat

abbrev FamilyId := Nat

abbrev RequestId := Nat

structure User where
  username : String
  passwordHash : String
  role : String
  isActive : Bool
deriving DecidableEq, Repr

structure RefreshSession where
  userId : UserId
  familyId : FamilyId
  tokenHash : String
  expiresAt : Instant
  revokedAt : Option Instant
deriving DecidableEq, Repr

/-! ## The session table -/

abbrev Sessions := Dict SessionId RefreshSession

/-- The id and the hash are new. -/
def Insertable (sessions : Sessions) (uuid4 : SessionId) (tokenHash : String) : Prop :=
  uuid4 ∉ sessions.keys ∧ ∀ row ∈ sessions.values, row.tokenHash ≠ tokenHash

instance (sessions : Sessions) (uuid4 : SessionId) (tokenHash : String) :
    Decidable (Insertable sessions uuid4 tokenHash) := by
  unfold Insertable; infer_instance

def selectByHash (sessions : Sessions) (tokenHash : String) : Option (SessionId × RefreshSession) :=
  sessions.entries.find? fun e => e.2.tokenHash = tokenHash

/-- The row that the `UPDATE` of a logout finds. -/
def selectUnrevoked (sessions : Sessions) (tokenHash : String) :
    Option (SessionId × RefreshSession) :=
  sessions.entries.find? fun e => e.2.tokenHash = tokenHash && e.2.revokedAt.isNone

def revoked (now : Instant) (row : RefreshSession) : RefreshSession :=
  { row with revokedAt := some now }

/-! ## Settings -/

structure Settings where
  jwtAccessTtlSeconds : Nat
  refreshTokenPepper : String
  refreshTtlDays : Nat
  accessTtlBounds : 60 ≤ jwtAccessTtlSeconds ∧ jwtAccessTtlSeconds ≤ 3600
  pepperLength : 32 ≤ refreshTokenPepper.length
  refreshTtlBounds : 1 ≤ refreshTtlDays ∧ refreshTtlDays ≤ 30

/-- `timedelta(days=settings.refresh_ttl_days)` -/
def Settings.refreshTtl (settings : Settings) : Instant := settings.refreshTtlDays * 86400000000

/-- What the requests share and none of them writes. -/
structure Environment where
  settings : Settings
  users : Dict UserId User
  verifyPassword : String → String → Bool
  hashRefreshToken : String → String → String

def Environment.tokenHash (env : Environment) (rawToken : String) : String :=
  env.hashRefreshToken rawToken env.settings.refreshTokenPepper

/-! ## Requests -/

/-- A granted response carries what its access token is created for, and the
cookie with the new refresh token. -/
inductive Response where
  | granted (subject : UserId) (role : String) (expiresIn : Nat) (refreshToken : String)
  | unauthorized (detail : String)
  | loggedOut
  | aborted
deriving DecidableEq, Repr

inductive Control where
  | rotating (id : SessionId) (stored : RefreshSession) (user : User) (now : Instant)
  | loggingOut (target : Option SessionId) (now : Instant)
  | answered (response : Response)
deriving DecidableEq, Repr

/-- `set_refresh_cookie` and `create_access_token`. -/
def granted (env : Environment) (userId : UserId) (role rawToken : String) : Response :=
  .granted userId role env.settings.jwtAccessTtlSeconds rawToken

def invalidCredentials : Control := .answered (.unauthorized "Invalid username or password")

def invalidSession : Control := .answered (.unauthorized "Invalid refresh session")

/-- The row that a request holds. -/
def Control.holds : Control → Option SessionId
  | .loggingOut target _ => target
  | _ => none

inductive AuthAction where
  | login (username password : String) (now : Instant) (uuid4 : SessionId) (familyId : FamilyId)
      (rawToken : String)
  | refreshSelect (refreshToken : Option String) (now : Instant)
  | refreshCommit (uuid4 : SessionId) (rawToken : String)
  | logoutUpdate (refreshToken : Option String) (now : Instant)
  | logoutCommit
  | abort
deriving DecidableEq, Repr

/-- The committed rows and the requests. `exchanged` lists the hash of a token
for each time that it was exchanged; no step reads it. -/
structure AuthState where
  sessions : Sessions
  requests : Dict RequestId Control
  exchanged : List String
deriving DecidableEq, Repr

namespace AuthState

variable (s : AuthState)

def setControl (request : RequestId) (control : Control) : AuthState :=
  { s with requests := s.requests.set request control }

def held (id : SessionId) : Bool := s.requests.values.any fun control => control.holds = some id

/-! ## The endpoints -/

variable (env : Environment) (request : RequestId)

/-- The user that a login authenticates. -/
def authenticate (username password : String) : Option (UserId × User) :=
  (env.users.entries.find? fun e => e.2.username = username).bind fun (userId, user) =>
    if !user.isActive || !env.verifyPassword password user.passwordHash then none
    else some (userId, user)

def login (username password : String) (now : Instant) (uuid4 : SessionId) (familyId : FamilyId)
    (rawToken : String) : Option AuthState :=
  match authenticate env username password with
  | none => some (s.setControl request invalidCredentials)
  | some (userId, user) =>
    if Insertable s.sessions uuid4 (env.tokenHash rawToken) ∧
        ∀ row ∈ s.sessions.values, row.familyId ≠ familyId then
      some { s.setControl request (.answered (granted env userId user.role rawToken)) with
        sessions := s.sessions.set uuid4
          ⟨userId, familyId, env.tokenHash rawToken, now + env.settings.refreshTtl, none⟩ }
    else none

/-- The reads and the checks of `refresh`. -/
def refreshSelect (refreshToken : Option String) (now : Instant) : Control :=
  if refreshToken.getD "" = "" then .answered (.unauthorized "Refresh token required")
  else
    match selectByHash s.sessions (env.tokenHash (refreshToken.getD "")) with
    | none => invalidSession
    | some (id, stored) =>
      if stored.revokedAt.isSome || stored.expiresAt ≤ now then invalidSession
      else
        match env.users.get? stored.userId with
        | none => invalidSession
        | some user => if !user.isActive then invalidSession else .rotating id stored user now

/-- The flush and the commit of `refresh`: the row of `stored.id` is revoked and
the next row of its family inserted. -/
def refreshCommit (id : SessionId) (stored : RefreshSession) (user : User) (now : Instant)
    (uuid4 : SessionId) (rawToken : String) : Option AuthState :=
  if s.held id = false ∧ Insertable s.sessions uuid4 (env.tokenHash rawToken) then
    some {
      requests := s.requests.set request (.answered (granted env stored.userId user.role rawToken))
      sessions := (s.sessions.modify id (revoked now)).set uuid4
        ⟨stored.userId, stored.familyId, env.tokenHash rawToken, now + env.settings.refreshTtl,
          none⟩
      exchanged := s.exchanged ++ [stored.tokenHash] }
  else none

/-- The `UPDATE` of `logout`. It waits for a row that another logout holds. -/
def logoutUpdate (refreshToken : Option String) (now : Instant) : Option AuthState :=
  if refreshToken.getD "" = "" then some (s.setControl request (.loggingOut none now))
  else
    match selectUnrevoked s.sessions (env.tokenHash (refreshToken.getD "")) with
    | none => some (s.setControl request (.loggingOut none now))
    | some (id, _) =>
      if s.held id then none else some (s.setControl request (.loggingOut (some id) now))

def logoutCommit (target : Option SessionId) (now : Instant) : AuthState :=
  { s.setControl request (.answered .loggedOut) with
    sessions := match target with
      | some id => s.sessions.modify id (revoked now)
      | none => s.sessions }

/-- One step of one request; a request begins with a login, the select of a
refresh or the update of a logout, and may be aborted until it has committed. -/
def step (action : AuthAction) : Option AuthState :=
  match s.requests.get? request, action with
  | none, .login username password now uuid4 familyId rawToken =>
    s.login env request username password now uuid4 familyId rawToken
  | none, .refreshSelect refreshToken now =>
    some (s.setControl request (s.refreshSelect env refreshToken now))
  | none, .logoutUpdate refreshToken now => s.logoutUpdate env request refreshToken now
  | some (.rotating id stored user now), .refreshCommit uuid4 rawToken =>
    s.refreshCommit env request id stored user now uuid4 rawToken
  | some (.loggingOut target now), .logoutCommit => some (s.logoutCommit request target now)
  | some (.rotating _ _ _ _), .abort => some (s.setControl request (.answered .aborted))
  | some (.loggingOut _ _), .abort => some (s.setControl request (.answered .aborted))
  | _, _ => none

/-- The tables as the migration creates them, before the first request. -/
def Initial : Prop := s.sessions = Dict.empty ∧ s.requests = Dict.empty ∧ s.exchanged = []

end AuthState

def auth (env : Environment) : Machine AuthState (RequestId × AuthAction) where
  init := AuthState.Initial
  step s a t := s.step env a.1 a.2 = some t

end Screener.Identity
