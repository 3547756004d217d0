import Flexi.Accounts.UserAdministration

/-!
# Joining and leaving a tenant (user-invite, self-registration, user-deletion)

The code of `UserInviteService`, `SelfRegistrationService` and
`UserDeletionService`.
-/

namespace Flexi.Accounts
open Flexi.Library

def TENANT_USER_INVITE_PERMISSION : String := "tenant.user.invite"

def USER_INVITE_TTL_HOURS : ℕ := 72
def INVITE_TOKEN_TTL_MS : ℕ := USER_INVITE_TTL_HOURS * 60 * 60 * 1000

/-! ### UserInviteService -/

def tenantNotFound : HttpError :=
  ⟨404, "TENANT_NOT_FOUND", ["This tenant does not exist or is not active."]⟩

def inviteNotFound : HttpError :=
  ⟨404, "INVITE_NOT_FOUND", ["No invite with this id belongs to this tenant."]⟩

def notPending (status : UserInviteStatus) : HttpError :=
  .badRequest "INVITE_NOT_PENDING"
    ["This invite is " ++ status.text ++ " and can no longer be resent or revoked."]

def membershipGone : HttpError :=
  .badRequest "INVITE_NOT_PENDING" ["The membership this invite was holding no longer exists."]

def invalidInviteToken : HttpError :=
  ⟨401, "INVITE_TOKEN_EXPIRED", ["This invitation link is invalid or has expired."]⟩

/-- `PermissionsGuard` of the invite routes. -/
def requireInvitePermission (currentUser : AuthenticatedUser) : Service Unit :=
  if currentUser.permissions.contains TENANT_USER_INVITE_PERMISSION then pure ()
  else fail (forbidden "Insufficient permissions")

def requireActiveTenant (tenantId : String) : Service Unit := do
  let active ← request (.findActiveTenant tenantId)
  if active then pure () else fail tenantNotFound

/-- The first address of a batch that is among those before it. -/
def duplicateEmail (seen : List String) : List String → Option String
  | [] => none
  | email :: rest => if seen.contains email then some email else duplicateEmail (email :: seen) rest

structure CreateUserInvitesDto where
  emails : List String
  roleId : Option ℕ

def createInvites (cfg : Config) (dto : CreateUserInvitesDto) (currentUser : AuthenticatedUser) :
    Service Response := do
  let tenantId ← requireTenantActor currentUser "Invites are managed from within a tenant."
  let emails := dto.emails.map cfg.normalizeEmail
  match duplicateEmail [] emails with
  | some email => fail (.validation ("emails contains " ++ email ++ " more than once."))
  | none =>
    assertSeatsAvailable tenantId emails.length
    requireActiveTenant tenantId
    let roleId ← resolveRoleId dto.roleId (some tenantId)
      "roleId does not name a role of this tenant."
    let c ← Prog.read
    let hashes ← request (.hash (emails.map c.newUnusablePassword))
    let prepared := (emails.zip hashes).map fun (email, passwordHash) =>
      { email := email, tokenHash := cfg.sha256 (c.newInviteToken email),
        expiresAt := c.now + INVITE_TOKEN_TTL_MS, placeholderPasswordHash := passwordHash }
    let created ← request (.createInvites tenantId roleId prepared currentUser.tenantUserId)
    match created with
    | none => fail emailAlreadyExists
    | some invites => pure (.invites invites)

/-- A resent invite of an expired one claims its seat again. -/
def reclaimSeat (tenantId : String) (existing : UserInvite) : Service Unit := do
  let now ← now
  if existing.expiresAt ≤ now then assertSeatsAvailable tenantId 1 else pure ()

def resendInvite (cfg : Config) (inviteId : ℕ) (currentUser : AuthenticatedUser) :
    Service Response := do
  let tenantId ← requireTenantActor currentUser "Invites are managed from within a tenant."
  let existing ← request (.findInvite inviteId tenantId)
  match existing with
  | none => fail inviteNotFound
  | some existing =>
    if existing.status ≠ .PENDING then fail (notPending existing.status)
    else if existing.tenantUserId = none then fail membershipGone
    else do
      reclaimSeat tenantId existing
      requireActiveTenant tenantId
      let c ← Prog.read
      let replacement ← request (.resendInvite existing
        (cfg.sha256 (c.newInviteToken existing.email)) (c.now + INVITE_TOKEN_TTL_MS)
        currentUser.tenantUserId c.now)
      match replacement with
      | none => fail (notPending existing.status)
      | some invite => pure (.invite invite)

def revokeInvite (inviteId : ℕ) (currentUser : AuthenticatedUser) : Service Response := do
  let tenantId ← requireTenantActor currentUser "Invites are managed from within a tenant."
  let existing ← request (.findInvite inviteId tenantId)
  match existing with
  | none => fail inviteNotFound
  | some existing =>
    if existing.status = .REVOKED then pure (.invite existing)
    else if existing.status ≠ .PENDING then fail (notPending existing.status)
    else do
      let now ← now
      let revoked ← request (.revokeInvite existing now)
      match revoked with
      | none => fail (notPending existing.status)
      | some invite => pure (.invite invite)

structure RedeemUserInviteDto where
  token : String
  fullName : String
  password : String
  confirmPassword : String

/-- The transaction of a redemption. -/
def redeemPending (invite : UserInvite) (passwordHash fullName : String) (redeemedAt : ℕ) :
    Service Response :=
  match invite.tenantUserId with
  | none => fail invalidInviteToken
  | some userId => do
    let tenantUser ← request (.findInvitee userId invite.tenantId)
    match tenantUser with
    | none => fail invalidInviteToken
    | some tenantUser =>
      let consumed ← request (.redeemInvite invite tenantUser passwordHash fullName redeemedAt)
      if consumed then pure (.redeemed invite.tenantId tenantUser.id invite.email)
      else fail invalidInviteToken

def redeemInvite (cfg : Config) (dto : RedeemUserInviteDto) : Service Response := do
  if dto.password ≠ dto.confirmPassword then
    fail (.validation "password and confirmPassword do not match.")
  else do
    assertPasswordMeetsPolicy dto.password
    let fullName := Tenants.trim dto.fullName
    if fullName = "" then fail (.validation "fullName must not be blank.")
    else do
      let passwordHash ← request (.hash [dto.password])
      let redeemedAt ← now
      let invite ← request (.findInviteByToken (cfg.sha256 dto.token))
      match invite with
      | none => fail invalidInviteToken
      | some (invite, tenantActive) =>
        if invite.status ≠ .PENDING ∨ invite.expiresAt ≤ redeemedAt ∨ tenantActive = false then
          fail invalidInviteToken
        else redeemPending invite passwordHash.headI fullName redeemedAt

/-! ### SelfRegistrationService -/

def selfRegistrationDisabled : HttpError :=
  ⟨403, "SELF_REG_DISABLED", ["This tenant is not open for self-registration."]⟩

structure SelfRegisterDto where
  email : String
  fullName : String
  password : String
  confirmPassword : String

/-- What follows the last `@`. -/
def emailDomain (email : String) : String :=
  String.ofList (email.toList.reverse.takeWhile (· ≠ '@')).reverse

def assertDomainAllowed (email : String) (allowedDomains : List String) : Service Unit :=
  if allowedDomains = [] ∨ allowedDomains.contains (emailDomain email) then pure ()
  else fail (.badRequest "DOMAIN_NOT_ALLOWED"
    ["This tenant only accepts registrations from its allowed email domains."])

/-- The registration into a tenant whose policy allows it. -/
def registerInto (cfg : Config) (dto : SelfRegisterDto) (tenantId : String)
    (settings : TenantSettings) (defaultRoleId : ℕ) : Service Response := do
  let email := cfg.normalizeEmail dto.email
  assertDomainAllowed email settings.allowedEmailDomains
  assertSeatsAvailable tenantId 1
  let fullName := Tenants.trim dto.fullName
  if fullName = "" then fail (.validation "fullName must not be blank.")
  else if dto.password ≠ dto.confirmPassword then
    fail (.validation "password and confirmPassword do not match.")
  else do
    assertPasswordMeetsPolicy dto.password
    let passwordHash ← request (.hash [dto.password])
    let created ← request (.register tenantId email fullName passwordHash.headI
      settings.requireApproval defaultRoleId)
    match created with
    | none => fail emailAlreadyExists
    | some user => pure (.registered user.id user.status settings.requireApproval)

def register (cfg : Config) (dto : SelfRegisterDto) (tenantIdHeader : Option String) :
    Service Response :=
  match tenantIdHeader.map Tenants.trim with
  | none | some "" => fail (.validation "x-tenant-id is required to register.")
  | some tenantId => do
    let active ← request (.findActiveTenant tenantId)
    if active then do
      let settings ← request (.findTenantSettings tenantId)
      match settings with
      | none => fail selfRegistrationDisabled
      | some settings =>
        match settings.allowSelfRegistration, settings.defaultRoleId with
        | true, some defaultRoleId => registerInto cfg dto tenantId settings defaultRoleId
        | _, _ => fail selfRegistrationDisabled
    else fail selfRegistrationDisabled

/-! ### UserDeletionService -/

def cannotDeleteSelf : HttpError :=
  .badRequest "CANNOT_DELETE_SELF" ["An administrator cannot delete their own account."]

/-- The member a hard deletion hands the records to. -/
def resolveActiveTransferTarget (targetUserId : ℕ) (source : TenantUser) (tenantId : String) :
    Service ℕ :=
  if targetUserId = source.id then fail invalidTarget
  else do
    let target ← request (.findTransferTarget targetUserId tenantId)
    match target with
    | none => fail invalidTarget
    | some target => pure target.id

def deleteUser (userId : ℕ) (hard : Bool) (transferToUserId : Option ℕ)
    (currentUser : AuthenticatedUser) : Service Response := do
  let tenantId ← requireTenantActor currentUser "User deletion applies to tenant users."
  assertActorPermission currentUser TENANT_USER_MANAGE_PERMISSION TENANT_USER_MANAGE_PERMISSION
  let source ← request (.findSource userId tenantId)
  match source with
  | none => fail userNotFound
  | some source =>
    if source.authAccountId = currentUser.authAccountId then fail cannotDeleteSelf
    else if source.status = .DELETED then fail (deletedUser source.status)
    else if hard then do
      let target ← (match transferToUserId with
        | none => pure none
        | some targetUserId => do
          let id ← resolveActiveTransferTarget targetUserId source tenantId
          pure (some id))
      let now ← now
      let result ← request (.hardDelete source target now)
      match result with
      | .error e => fail e
      | .ok (revoked, transferred) => pure (.deleted source.id true revoked transferred)
    else do
      let now ← now
      let count ← request (.softDelete source.id source.authAccountId now)
      pure (.deleted source.id false count 0)

end Flexi.Accounts
