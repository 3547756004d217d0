import Flexi.Library.Table
import Flexi.Tenants.Payload
import Flexi.Tenants.Records

/-!
# The rows of the account tables (schema.prisma)

The tables that authentication and user administration read and write. Ids are
numbers; times are milliseconds.
-/

namespace Flexi.Accounts
open Flexi.Library

inductive TenantUserStatus where
  | ACTIVE | PENDING_SETUP | PENDING_INVITE | PENDING_APPROVAL | LOCKED | DELETED
  deriving DecidableEq, Repr

/-- The text of the enumeration's value. -/
def TenantUserStatus.text : TenantUserStatus → String
  | ACTIVE => "active"
  | PENDING_SETUP => "pending_setup"
  | PENDING_INVITE => "pending_invite"
  | PENDING_APPROVAL => "pending_approval"
  | LOCKED => "locked"
  | DELETED => "deleted"

/-- `EXPIRED` is derived and never stored. -/
inductive UserInviteStatus where
  | PENDING | USED | REVOKED
  deriving DecidableEq, Repr

def UserInviteStatus.text : UserInviteStatus → String
  | PENDING => "pending"
  | USED => "used"
  | REVOKED => "revoked"

inductive ActorType where
  | TENANT | SYSTEM
  deriving DecidableEq, Repr

structure AuthAccount where
  id : ℕ
  email : String
  passwordHash : String
  isActive : Bool := true
  mustChangePassword : Bool := false
  deriving DecidableEq, Repr

structure TenantUser where
  id : ℕ
  tenantId : String
  authAccountId : ℕ
  name : Option String := none
  status : TenantUserStatus := .ACTIVE
  isActive : Bool := true
  roles : List ℕ := []
  deriving DecidableEq, Repr

structure SystemUser where
  id : ℕ
  authAccountId : ℕ
  name : Option String := none
  isActive : Bool := true
  roles : List ℕ := []
  deriving DecidableEq, Repr

/-- A role with the codes of the permissions granted to it. -/
structure Role where
  id : ℕ
  tenantId : Option String
  name : String
  permissions : List String
  deriving DecidableEq, Repr

structure RefreshToken where
  id : ℕ
  authAccountId : ℕ
  tokenHash : String
  expiresAt : ℕ
  revokedAt : Option ℕ := none
  deriving DecidableEq, Repr

/-- Neither revoked nor expired: what `refresh` takes. -/
def RefreshToken.isLive (token : RefreshToken) (now : ℕ) : Bool :=
  token.revokedAt = none && now ≤ token.expiresAt

structure PasswordResetOtp where
  id : ℕ
  authAccountId : ℕ
  otpHash : String
  expiresAt : ℕ
  consumedAt : Option ℕ := none
  attemptCount : ℕ := 0
  createdAt : ℕ
  deriving DecidableEq, Repr

structure UserInvite where
  id : ℕ
  tenantId : String
  email : String
  roleId : Option ℕ
  tenantUserId : Option ℕ
  tokenHash : String
  expiresAt : ℕ
  status : UserInviteStatus := .PENDING
  usedAt : Option ℕ := none
  revokedAt : Option ℕ := none
  invitedById : Option ℕ
  deriving DecidableEq, Repr

structure Tenant where
  id : String
  status : Tenants.TenantStatus
  maxUsers : ℤ
  deriving DecidableEq

structure TenantSettings where
  tenantId : String
  allowSelfRegistration : Bool := false
  allowedEmailDomains : List String := []
  defaultRoleId : Option ℕ := none
  requireApproval : Bool := true
  deriving DecidableEq, Repr

/-- `nextId` numbers the rows of all tables. -/
structure Database where
  authAccounts : List AuthAccount
  tenantUsers : List TenantUser
  systemUsers : List SystemUser
  roles : List Role
  refreshTokens : List RefreshToken
  passwordResetOtps : List PasswordResetOtp
  userInvites : List UserInvite
  tenants : List Tenant
  tenantSettings : List TenantSettings
  nextId : ℕ
  deriving DecidableEq

/-- A tenant user with the account and the roles a query includes. -/
structure TenantUserRow where
  user : TenantUser
  authAccount : AuthAccount
  roles : List Role
  deriving DecidableEq, Repr

structure SystemUserRow where
  user : SystemUser
  authAccount : AuthAccount
  roles : List Role
  deriving DecidableEq, Repr

namespace Database

def account? (db : Database) (id : ℕ) : Option AuthAccount :=
  db.authAccounts.find? (·.id = id)

def rolesOf (db : Database) (ids : List ℕ) : List Role :=
  db.roles.filter fun role => ids.contains role.id

def tenantUserRow (db : Database) (user : TenantUser) : Option TenantUserRow :=
  (db.account? user.authAccountId).map fun account => ⟨user, account, db.rolesOf user.roles⟩

def systemUserRow (db : Database) (user : SystemUser) : Option SystemUserRow :=
  (db.account? user.authAccountId).map fun account => ⟨user, account, db.rolesOf user.roles⟩

/-- The account behind a user has this address. -/
def hasEmail (db : Database) (authAccountId : ℕ) (email : String) : Bool :=
  (db.account? authAccountId).any (·.email = email)

def isTenantActive (db : Database) (tenantId : String) : Bool :=
  db.tenants.any fun tenant => tenant.id = tenantId && tenant.status = .ACTIVE

end Database

/-! ### Credentials -/

/-- A string presented as refresh token: one the server has signed, or any other. -/
inductive RefreshJwt where
  | signed (sub : ℕ) (jti : String) (exp : ℕ)
  | other (text : String)
  deriving DecidableEq, Repr

/-- `verifyAsync`: the signature and `exp`, which is in seconds. -/
def RefreshJwt.verify (now : ℕ) : RefreshJwt → Option ℕ
  | signed sub _ exp => if now / 1000 < exp then some sub else none
  | other _ => none

/-- The payload of an access token, which the guard hands on as it is. -/
structure AuthenticatedUser where
  authAccountId : ℕ
  actorType : ActorType
  tenantId : Option String
  tenantUserId : Option ℕ
  systemUserId : Option ℕ
  email : String
  name : Option String
  roles : List String
  permissions : List String
  sessionId : Option ℕ
  mustChangePassword : Bool
  deriving DecidableEq, Repr

structure AccessJwt where
  payload : AuthenticatedUser
  exp : ℕ
  deriving DecidableEq, Repr

structure AuthTokens where
  accessToken : AccessJwt
  refreshToken : RefreshJwt
  expiresIn : ℕ
  deriving DecidableEq, Repr

/-- bcrypt's comparison, SHA-256, and the two token lifetimes in seconds. -/
structure Config where
  js : Tenants.JsText
  compare : String → String → Bool
  hashToken : RefreshJwt → String
  sha256 : String → String
  accessExpiresIn : ℕ := 15 * 60
  refreshExpiresIn : ℕ := 7 * 24 * 60 * 60

/-! ### Checks of the request bodies -/

def PASSWORD_MIN_LENGTH : ℕ := 12
def PASSWORD_MAX_LENGTH : ℕ := 128
def PASSWORD_SPECIAL_CHARACTERS : String := "!@#$%^&*()_+-=[]\x7b\x7d;':\"\\|,.<>/?~`"

@[irreducible] def validatePasswordStrength (password : String) : List String :=
  (if utf16Length password < PASSWORD_MIN_LENGTH then ["TOO_SHORT"] else []) ++
  (if PASSWORD_MAX_LENGTH < utf16Length password then ["TOO_LONG"] else []) ++
  (if password.toList.any Char.isLower then [] else ["MISSING_LOWERCASE"]) ++
  (if password.toList.any Char.isUpper then [] else ["MISSING_UPPERCASE"]) ++
  (if password.toList.any Char.isDigit then [] else ["MISSING_DIGIT"]) ++
  (if password.toList.any PASSWORD_SPECIAL_CHARACTERS.toList.contains then []
    else ["MISSING_SPECIAL"])

def PASSWORD_RESET_OTP_LENGTH : ℕ := 6
def PASSWORD_RESET_OTP_TTL_SECONDS : ℕ := 5 * 60
def PASSWORD_RESET_OTP_COOLDOWN_SECONDS : ℕ := 60
def PASSWORD_RESET_OTP_MAX_ATTEMPTS : ℕ := 3

/-- `OTP_PATTERN` -/
def matchesOtpPattern (submitted : String) : Bool :=
  submitted.toList.length = PASSWORD_RESET_OTP_LENGTH && submitted.toList.all Char.isDigit

/-- Trimmed and lowercased. -/
def Config.normalizeEmail (cfg : Config) (email : String) : String :=
  cfg.js.toLowerCase (Tenants.trim email)

end Flexi.Accounts
