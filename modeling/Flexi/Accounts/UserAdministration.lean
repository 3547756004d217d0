import Flexi.Accounts.Authentication

/-!
# User administration (account-lifecycle.service.ts, users-admin.service.ts)

The code of `AccountLifecycleService` and of the writing routes of
`UsersAdminService`.
-/

namespace Flexi.Accounts
open Flexi.Library

def TENANT_ACCOUNT_RESET_PASSWORD_PERMISSION : String := "admin.account.reset_password"
def SYSTEM_ACCOUNT_RESET_PASSWORD_PERMISSION : String := "system.account.reset_password"

def userNotFound : HttpError := ⟨404, "USER_NOT_FOUND", ["No such user."]⟩

/-! ### AccountLifecycleService -/

structure TargetActor where
  userId : ℕ
  authAccountId : ℕ
  actorType : ActorType

/-- A tenant caller sees the users of its tenant, a system caller the system users. -/
def resolveTargetActor (userId : ℕ) (currentUser : AuthenticatedUser) : Service TargetActor :=
  match currentUser.actorType with
  | .TENANT => do
    let tenantUser ← request (.findTarget userId currentUser.tenantId)
    match tenantUser with
    | none => fail userNotFound
    | some user => pure ⟨user.id, user.authAccountId, .TENANT⟩
  | .SYSTEM => do
    let systemUser ← request (.findSystemTarget userId)
    match systemUser with
    | none => fail userNotFound
    | some user => pure ⟨user.id, user.authAccountId, .SYSTEM⟩

def deactivate (userId : ℕ) (currentUser : AuthenticatedUser) : Service Response := do
  assertActorPermission currentUser TENANT_USER_MANAGE_PERMISSION SYSTEM_USER_MANAGE_PERMISSION
  let target ← resolveTargetActor userId currentUser
  if target.authAccountId = currentUser.authAccountId then
    fail (.badRequest "CANNOT_DEACTIVATE_SELF" ["An account cannot deactivate itself."])
  else do
    let now ← now
    let count ← request (.deactivate target.actorType target.userId target.authAccountId now)
    pure (.lifecycle target.userId target.actorType false count)

def activate (userId : ℕ) (currentUser : AuthenticatedUser) : Service Response := do
  assertActorPermission currentUser TENANT_USER_MANAGE_PERMISSION SYSTEM_USER_MANAGE_PERMISSION
  let target ← resolveTargetActor userId currentUser
  request (.activate target.actorType target.userId)
  pure (.lifecycle target.userId target.actorType true 0)

/-- The outstanding codes are burned after the transaction. -/
def forceResetPassword (userId : ℕ) (currentUser : AuthenticatedUser) : Service Response := do
  assertActorPermission currentUser TENANT_ACCOUNT_RESET_PASSWORD_PERMISSION
    SYSTEM_ACCOUNT_RESET_PASSWORD_PERMISSION
  let target ← resolveTargetActor userId currentUser
  let c ← Prog.read
  let passwordHash ← request (.hash [c.newTemporaryPassword])
  let now ← now
  let count ← request (.forceResetPassword target.authAccountId passwordHash.headI now)
  request (.burnOtps target.authAccountId now)
  pure (.forcedReset target.userId true count)

/-! ### UsersAdminService -/

/-- A tenant caller's tenant; an empty id counts as none. -/
def requireTenantActor (currentUser : AuthenticatedUser) (forbiddenMessage : String) :
    Service String :=
  match currentUser.actorType, currentUser.tenantId with
  | .TENANT, some tenantId =>
    if tenantId = "" then fail (forbidden forbiddenMessage) else pure tenantId
  | _, _ => fail (forbidden forbiddenMessage)

def deletedUser (status : TenantUserStatus) : HttpError :=
  invalidTransition status.text "a deleted user can no longer be changed"

/-- The target of `approve`, `lock` and `unlock`. -/
def resolveTenantTarget (userId : ℕ) (currentUser : AuthenticatedUser)
    (forbiddenMessage : String) : Service TenantUser := do
  let tenantId ← requireTenantActor currentUser forbiddenMessage
  assertActorPermission currentUser TENANT_USER_MANAGE_PERMISSION SYSTEM_USER_MANAGE_PERMISSION
  let row ← request (.findMember userId tenantId)
  match row with
  | none => fail userNotFound
  | some row =>
    if row.user.status = .DELETED then fail (deletedUser row.user.status) else pure row.user

def approveUser (userId : ℕ) (currentUser : AuthenticatedUser) : Service Response := do
  let target ← resolveTenantTarget userId currentUser "Approval applies to tenant users."
  if target.status ≠ .PENDING_APPROVAL then
    fail (invalidTransition target.status.text "only a pending_approval user can be approved")
  else do
    let user ← request (.approveUser target.id)
    pure (.user user 0)

def lockUser (userId : ℕ) (currentUser : AuthenticatedUser) : Service Response := do
  let target ← resolveTenantTarget userId currentUser "Locking applies to tenant users."
  if target.authAccountId = currentUser.authAccountId then
    fail (.badRequest "CANNOT_LOCK_SELF" ["An administrator cannot lock their own account."])
  else if target.status ≠ .ACTIVE then
    fail (invalidTransition target.status.text "only an active user can be locked")
  else do
    let now ← now
    let (user, count) ← request (.lockUser target.id target.authAccountId now)
    pure (.user user count)

def unlockUser (userId : ℕ) (currentUser : AuthenticatedUser) : Service Response := do
  let target ← resolveTenantTarget userId currentUser "Unlocking applies to tenant users."
  if target.status ≠ .LOCKED then
    fail (invalidTransition target.status.text "only a locked user can be unlocked")
  else do
    let user ← request (.unlockUser target.id)
    pure (.user user 0)

/-- `roleId` is a role of the scope, or no role. -/
def resolveRoleId (roleId : Option ℕ) (scope : Option String) (message : String) :
    Service (Option ℕ) :=
  match roleId with
  | none => pure none
  | some roleId => do
    let role ← request (.findRole roleId scope)
    match role with
    | none => fail (.validation message)
    | some id => pure (some id)

/-- `roleId` is absent, `null` or an id. -/
structure UpdateUserDto where
  fullName : Option String
  roleId : Option (Option ℕ)

/-- The fields of the body, checked against the target's scope. -/
def updateUserData (dto : UpdateUserDto) (scope : Option String) (message : String) :
    Service (Option String × Option (List ℕ)) := do
  (match dto.fullName with
    | some fullName =>
      if Tenants.trim fullName = "" then fail (.validation "fullName must not be blank.")
      else pure ()
    | none => pure ())
  match dto.roleId with
  | none => pure (dto.fullName.map Tenants.trim, none)
  | some roleId =>
    let roleId ← resolveRoleId roleId scope message
    pure (dto.fullName.map Tenants.trim, some roleId.toList)

def cannotChangeOwnRole : HttpError :=
  ⟨403, "CANNOT_CHANGE_OWN_ROLE", ["An administrator cannot change their own role."]⟩

def updateUser (userId : ℕ) (dto : UpdateUserDto) (currentUser : AuthenticatedUser) :
    Service Response := do
  assertActorPermission currentUser TENANT_USER_MANAGE_PERMISSION SYSTEM_USER_MANAGE_PERMISSION
  if dto.fullName = none ∧ dto.roleId = none then
    fail (.validation "Provide fullName or roleId; the body changes nothing.")
  else match currentUser.actorType with
    | .TENANT => do
      let tenantId ← requireTenantActor currentUser "This route is scoped to a tenant."
      let row ← request (.findMember userId tenantId)
      match row with
      | none => fail userNotFound
      | some row =>
        if row.user.status = .DELETED then fail (deletedUser row.user.status)
        else if dto.roleId ≠ none ∧ row.user.authAccountId = currentUser.authAccountId then
          fail cannotChangeOwnRole
        else do
          let (name, roles) ← updateUserData dto (some tenantId)
            "roleId does not name a role of this tenant."
          let user ← request (.updateTenantUser row.user.id name roles)
          pure (.user user 0)
    | .SYSTEM => do
      let row ← request (.findSystemUser userId)
      match row with
      | none => fail userNotFound
      | some row =>
        if dto.roleId ≠ none ∧ row.user.authAccountId = currentUser.authAccountId then
          fail cannotChangeOwnRole
        else do
          let (name, roles) ← updateUserData dto none "roleId does not name a system role."
          let user ← request (.updateSystemUser row.user.id name roles)
          pure (.systemUser user)

/-! ### Seats and direct creation -/

/-- A negative quota is unlimited. -/
def assertSeatsAvailable (tenantId : String) (seats : ℕ) : Service Unit := do
  let now ← now
  let (maxUsers, usedSeats) ← request (.seatUsage tenantId now)
  if ¬ maxUsers < 0 ∧ maxUsers < usedSeats + seats then
    fail (.badRequest "QUOTA_EXCEEDED"
      [if seats = 1 then "This tenant uses " ++ toString usedSeats ++ " of its " ++
          toString maxUsers ++ " user seats and has none left."
        else "This tenant uses " ++ toString usedSeats ++ " of its " ++ toString maxUsers ++
          " user seats and cannot take " ++ toString seats ++ " more."])
  else pure ()

def emailAlreadyExists : HttpError :=
  ⟨409, "EMAIL_ALREADY_EXISTS", ["This email already belongs to a user of this tenant."]⟩

structure DirectCreateUserDto where
  email : String
  fullName : String
  roleId : Option ℕ

def directCreate (cfg : Config) (dto : DirectCreateUserDto) (currentUser : AuthenticatedUser) :
    Service Response := do
  let tenantId ← requireTenantActor currentUser "Users are created inside a tenant."
  assertActorPermission currentUser TENANT_USER_MANAGE_PERMISSION SYSTEM_USER_MANAGE_PERMISSION
  assertSeatsAvailable tenantId 1
  let fullName := Tenants.trim dto.fullName
  if fullName = "" then fail (.validation "fullName must not be blank.")
  else do
    let roleId ← resolveRoleId dto.roleId (some tenantId)
      "roleId does not name a role of this tenant."
    let c ← Prog.read
    let passwordHash ← request (.hash [c.newTemporaryPassword])
    let created ← request (.directCreate tenantId (cfg.normalizeEmail dto.email) fullName
      passwordHash.headI roleId)
    match created with
    | none => fail emailAlreadyExists
    | some user => pure (.user user 0)

end Flexi.Accounts
