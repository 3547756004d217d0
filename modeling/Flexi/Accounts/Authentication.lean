import Flexi.Accounts.Calls

/-!
# Login, refresh and sessions (auth.service.ts, sessions.service.ts)

The code of `AuthService`, `SessionsService` and the tenant check of
`JwtAuthGuard`. The audit rows are left out: nothing reads them, and a failure to
write one is swallowed.
-/

namespace Flexi.Accounts
open Flexi.Library

/-- What the code reads without waiting: the clock and the random generators. -/
structure Context where
  now : ℕ
  newJti : String
  newOtp : String
  newTemporaryPassword : String
  newInviteToken : String → String
  newUnusablePassword : String → String

abbrev Service := Prog Op Op.Res Context ServiceError

def request (op : Op) : Service op.Res := Prog.await op

def now : Service ℕ := do
  let c ← Prog.read
  pure c.now

def fail {α : Type} (e : HttpError) : Service α := throw (.http e)

/-- What a request is answered. -/
inductive Response where
  | tokens (tokens : AuthTokens)
  | done
  | revoked (revokedCount : ℕ)
  | lifecycle (userId : ℕ) (actorType : ActorType) (isActive : Bool) (revokedSessionCount : ℕ)
  | forcedReset (userId : ℕ) (mustChangePassword : Bool) (revokedSessionCount : ℕ)
  | user (user : TenantUser) (revokedSessionCount : ℕ)
  | systemUser (user : SystemUser)
  | invites (invites : List UserInvite)
  | invite (invite : UserInvite)
  | redeemed (tenantId : String) (userId : ℕ) (email : String)
  | registered (userId : ℕ) (status : TenantUserStatus) (requiresApproval : Bool)
  | deleted (userId : ℕ) (hard : Bool) (revokedSessionCount transferredRecordCount : ℕ)
  deriving DecidableEq

/-! ### Errors -/

def invalidCredentials : HttpError :=
  ⟨401, "INVALID_CREDENTIALS", ["Invalid email or password"]⟩

def invalidRefreshToken : HttpError :=
  ⟨401, "INVALID_REFRESH_TOKEN", ["Invalid or expired refresh token"]⟩

def forbidden (message : String) : HttpError := ⟨403, "FORBIDDEN", [message]⟩

def unauthorized : HttpError := ⟨401, "UNAUTHORIZED", ["Missing or invalid access token"]⟩

def sessionNotFound : HttpError := ⟨404, "SESSION_NOT_FOUND", ["No such session."]⟩

def dataIntegrityViolation (authAccountId : ℕ) : HttpError :=
  ⟨500, "Internal Server Error",
    ["Data integrity violation: AuthAccount " ++ toString authAccountId ++
      " backs both a TenantUser and a SystemUser."]⟩

def assertPasswordMeetsPolicy (password : String) : Service Unit :=
  let violations := validatePasswordStrength password
  if violations = [] then pure () else fail (.badRequest "PASSWORD_POLICY_VIOLATION" violations)

/-! ### The guard -/

/-- `canActivate` after the token has been verified. -/
def jwtAuthGuard (user : AuthenticatedUser) : Service Unit :=
  match user.tenantId with
  | none => pure ()
  | some tenantId =>
    if tenantId = "" then pure ()
    else do
      let activeTenant ← request (.isTenantActive tenantId)
      if activeTenant then pure () else fail unauthorized

/-! ### Actors -/

structure ResolvedActor where
  authAccountId : ℕ
  passwordHash : String
  isActive : Bool
  actorType : ActorType
  tenantId : Option String
  tenantUserId : Option ℕ
  systemUserId : Option ℕ
  email : String
  name : Option String
  roles : List String
  permissions : List String
  mustChangePassword : Bool

def flattenPermissions (roles : List Role) : List String :=
  (roles.flatMap (·.permissions)).dedup

def mapTenantUserToActor (row : TenantUserRow) : ResolvedActor :=
  { authAccountId := row.user.authAccountId
    passwordHash := row.authAccount.passwordHash
    isActive := row.authAccount.isActive && row.user.isActive
    actorType := .TENANT
    tenantId := some row.user.tenantId
    tenantUserId := some row.user.id
    systemUserId := none
    email := row.authAccount.email
    name := row.user.name
    roles := row.roles.map (·.name)
    permissions := flattenPermissions row.roles
    mustChangePassword := row.authAccount.mustChangePassword }

def mapSystemUserToActor (row : SystemUserRow) : ResolvedActor :=
  { authAccountId := row.user.authAccountId
    passwordHash := row.authAccount.passwordHash
    isActive := row.authAccount.isActive && row.user.isActive
    actorType := .SYSTEM
    tenantId := none
    tenantUserId := none
    systemUserId := some row.user.id
    email := row.authAccount.email
    name := row.user.name
    roles := row.roles.map (·.name)
    permissions := flattenPermissions row.roles
    mustChangePassword := row.authAccount.mustChangePassword }

def resolveTenantActor (email tenantId : String) : Service (Option ResolvedActor) := do
  let tenantUser ← request (.findTenantUserByEmail tenantId email)
  match tenantUser with
  | none => pure none
  | some row =>
    let active ← request (.isTenantActive tenantId)
    pure (if active then some (mapTenantUserToActor row) else none)

def resolveSystemActor (email : String) : Service (Option ResolvedActor) := do
  let systemUser ← request (.findSystemUserByEmail email)
  pure (systemUser.map mapSystemUserToActor)

/-- The two lookups are issued together; here the one after the other. -/
def resolveActorByAuthAccountId (authAccountId : ℕ) : Service (Option ResolvedActor) := do
  let tenantUser ← request (.findTenantUserByAccount authAccountId)
  let systemUser ← request (.findSystemUserByAccount authAccountId)
  match tenantUser, systemUser with
  | some _, some _ => fail (dataIntegrityViolation authAccountId)
  | some row, none =>
    let active ← request (.isTenantActive row.user.tenantId)
    pure (if active then some (mapTenantUserToActor row) else none)
  | none, some row => pure (some (mapSystemUserToActor row))
  | none, none => pure none

/-! ### Tokens -/

def issueRefreshToken (cfg : Config) (authAccountId : ℕ) : Service (RefreshJwt × ℕ) := do
  let c ← Prog.read
  let token := RefreshJwt.signed authAccountId c.newJti (c.now / 1000 + cfg.refreshExpiresIn)
  let id ← request (.createRefreshToken authAccountId (cfg.hashToken token)
    (c.now + cfg.refreshExpiresIn * 1000))
  pure (token, id)

def accessTokenPayload (actor : ResolvedActor) (sessionId : ℕ) : AuthenticatedUser :=
  { authAccountId := actor.authAccountId
    actorType := actor.actorType
    tenantId := actor.tenantId
    tenantUserId := actor.tenantUserId
    systemUserId := actor.systemUserId
    email := actor.email
    name := actor.name
    roles := actor.roles
    permissions := actor.permissions
    sessionId := some sessionId
    mustChangePassword := actor.mustChangePassword }

/-- The refresh token's row comes first: its id is the session id of the access
token. -/
def issueTokens (cfg : Config) (actor : ResolvedActor) : Service Response := do
  let (refreshToken, sessionId) ← issueRefreshToken cfg actor.authAccountId
  let now ← now
  pure (.tokens
    { accessToken := ⟨accessTokenPayload actor sessionId, now / 1000 + cfg.accessExpiresIn⟩
      refreshToken := refreshToken
      expiresIn := cfg.accessExpiresIn })

/-! ### AuthService -/

structure LoginDto where
  email : String
  password : String

def DUMMY_PASSWORD_HASH : String :=
  "$2a$10$N9qo8uLOickgx2ZMRZoMyeIjZAgcfl7p92ldGxad68LJZdL17lhWy"

/-- The comparison without an actor costs the time of a real one. -/
def rejectLogin (dto : LoginDto) : Service Response := do
  let _ ← request (.compare dto.password DUMMY_PASSWORD_HASH)
  fail invalidCredentials

def login (cfg : Config) (dto : LoginDto) (tenantId : Option String) : Service Response := do
  let actor ← (match tenantId with
    | some tenantId => resolveTenantActor dto.email tenantId
    | none => resolveSystemActor dto.email)
  match actor with
  | none => rejectLogin dto
  | some actor =>
    if actor.isActive then do
      let passwordMatches ← request (.compare dto.password actor.passwordHash)
      if passwordMatches then issueTokens cfg actor else fail invalidCredentials
    else rejectLogin dto

/-- What follows once the presented token has been revoked in its turn. -/
def issueForAccount (cfg : Config) (authAccountId : ℕ) : Service Response := do
  let actor ← resolveActorByAuthAccountId authAccountId
  match actor with
  | none => fail invalidRefreshToken
  | some actor => if actor.isActive then issueTokens cfg actor else fail invalidRefreshToken

/-- The row of the presented token has been found. -/
def refreshStored (cfg : Config) (stored : RefreshToken) (sub : ℕ) : Service Response := do
  let now ← now
  if stored.revokedAt ≠ none then do
    -- reuse of a revoked token: the whole family goes
    request (.revokeFamily stored.authAccountId now)
    fail invalidRefreshToken
  else if stored.expiresAt < now ∨ stored.authAccountId ≠ sub then fail invalidRefreshToken
  else do
    let count ← request (.rotate stored.id now)
    if count = 0 then fail invalidRefreshToken
    else issueForAccount cfg stored.authAccountId

def refresh (cfg : Config) (refreshToken : RefreshJwt) : Service Response := do
  let now ← now
  match refreshToken.verify now with
  | none => fail invalidRefreshToken
  | some sub =>
    let stored ← request (.findRefreshToken (cfg.hashToken refreshToken))
    match stored with
    | none => fail invalidRefreshToken
    | some stored => refreshStored cfg stored sub

def logout (cfg : Config) (refreshToken : RefreshJwt) (currentUser : AuthenticatedUser) :
    Service Response := do
  let stored ← request (.findRefreshToken (cfg.hashToken refreshToken))
  match stored with
  | none => fail invalidRefreshToken
  | some stored =>
    if stored.revokedAt ≠ none ∨ stored.authAccountId ≠ currentUser.authAccountId then
      fail invalidRefreshToken
    else do
      let now ← now
      request (.revokeToken stored.id now)
      pure .done

structure ChangePasswordDto where
  currentPassword : String
  newPassword : String

def changePassword (dto : ChangePasswordDto) (currentUser : AuthenticatedUser) :
    Service Response := do
  assertPasswordMeetsPolicy dto.newPassword
  let account ← request (.findAuthAccount currentUser.authAccountId)
  match account with
  | none => fail invalidCredentials
  | some account =>
    let currentMatches ← request (.compare dto.currentPassword account.passwordHash)
    if currentMatches then do
      let passwordHash ← request (.hash [dto.newPassword])
      let now ← now
      let _ ← request (.changePassword account.id passwordHash.headI currentUser.sessionId now)
      pure .done
    else fail invalidCredentials

/-! ### SessionsService -/

def TENANT_SESSION_MANAGE_PERMISSION : String := "auth.session.manage"
def SYSTEM_SESSION_MANAGE_PERMISSION : String := "system.session.manage"
def TENANT_USER_MANAGE_PERMISSION : String := "tenant.user.manage"
def SYSTEM_USER_MANAGE_PERMISSION : String := "system.user.manage"

/-- `assertActorPermission`: the code of the caller's own scope is asked for. -/
def assertActorPermission (currentUser : AuthenticatedUser) (tenantCode systemCode : String) :
    Service Unit :=
  let required := match currentUser.actorType with
    | .TENANT => tenantCode
    | .SYSTEM => systemCode
  if currentUser.permissions.contains required then pure ()
  else fail (forbidden "Insufficient permissions")

def canManageAccount (currentUser : AuthenticatedUser) (authAccountId : ℕ) : Service Bool :=
  match currentUser.actorType with
  | .TENANT =>
    if currentUser.permissions.contains TENANT_USER_MANAGE_PERMISSION then
      request (.belongsToTenant authAccountId currentUser.tenantId)
    else pure false
  | .SYSTEM =>
    if currentUser.permissions.contains SYSTEM_USER_MANAGE_PERMISSION then
      request (.belongsToSystem authAccountId)
    else pure false

def revokeSession (sessionId : ℕ) (currentUser : AuthenticatedUser) : Service Response := do
  assertActorPermission currentUser TENANT_SESSION_MANAGE_PERMISSION
    SYSTEM_SESSION_MANAGE_PERMISSION
  let session ← request (.findSession sessionId)
  match session with
  | none => fail sessionNotFound
  | some session =>
    let allowed ← (if session.authAccountId = currentUser.authAccountId then pure true
      else canManageAccount currentUser session.authAccountId)
    if allowed then do
      let now ← now
      let count ← request (.revokeSession session.id now)
      pure (.revoked count)
    else fail sessionNotFound

def revokeAllSessions (keepCurrent : Bool) (currentUser : AuthenticatedUser) :
    Service Response := do
  let kept := if keepCurrent then currentUser.sessionId else none
  let now ← now
  let count ← request (.revokeAllSessions currentUser.authAccountId kept now)
  pure (.revoked count)

end Flexi.Accounts
