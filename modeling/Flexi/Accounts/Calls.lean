import Flexi.Accounts.Records
import Flexi.Common.HttpError
import Flexi.Library.Async

/-!
# What the account services ask of the outside

The statements and transactions of the auth and users modules, and bcrypt, as
operations on the account tables. A transaction is one operation; a failed
operation leaves the database as it was. The transaction of `redeemInvite` is
three: under READ COMMITTED its reads see what others commit in between, and its
writes take effect together.
-/

namespace Flexi.Accounts
open Flexi.Library

inductive ServiceError where
  | http (e : HttpError)
  | database (code : String)
  deriving DecidableEq, Repr

/-- One prepared address of a batch of invites. -/
structure PreparedInvite where
  email : String
  tokenHash : String
  expiresAt : ℕ
  placeholderPasswordHash : String
  deriving DecidableEq, Repr

inductive Op where
  -- auth.service.ts
  | findTenantUserByEmail (tenantId email : String)
  | findSystemUserByEmail (email : String)
  | isTenantActive (tenantId : String)
  | compare (password passwordHash : String)
  | hash (passwords : List String)
  | createRefreshToken (authAccountId : ℕ) (tokenHash : String) (expiresAt : ℕ)
  | findRefreshToken (tokenHash : String)
  | revokeFamily (authAccountId now : ℕ)
  | rotate (id now : ℕ)
  | findTenantUserByAccount (authAccountId : ℕ)
  | findSystemUserByAccount (authAccountId : ℕ)
  | revokeToken (id now : ℕ)
  | findAuthAccount (id : ℕ)
  | changePassword (authAccountId : ℕ) (passwordHash : String) (kept : Option ℕ) (now : ℕ)
  -- sessions.service.ts
  | findSession (id : ℕ)
  | belongsToTenant (authAccountId : ℕ) (tenantId : Option String)
  | belongsToSystem (authAccountId : ℕ)
  | revokeSession (id now : ℕ)
  | revokeAllSessions (authAccountId : ℕ) (kept : Option ℕ) (now : ℕ)
  -- password-reset.service.ts
  | findLatestOtp (authAccountId : ℕ)
  | issueOtp (authAccountId : ℕ) (otpHash : String) (expiresAt now : ℕ)
  | findLiveOtp (authAccountId : Option ℕ)
  | consumeExpiredOtp (otp : PasswordResetOtp) (now : ℕ)
  | compareOtp (otp : PasswordResetOtp) (submitted : String)
  | recordMiss (otp : PasswordResetOtp) (now : ℕ)
  | resetPassword (otp : PasswordResetOtp) (authAccountId : ℕ) (passwordHash : String) (now : ℕ)
  -- account-lifecycle.service.ts
  | findTarget (userId : ℕ) (tenantId : Option String)
  | findSystemTarget (userId : ℕ)
  | deactivate (actorType : ActorType) (userId authAccountId now : ℕ)
  | activate (actorType : ActorType) (userId : ℕ)
  | forceResetPassword (authAccountId : ℕ) (passwordHash : String) (now : ℕ)
  | burnOtps (authAccountId now : ℕ)
  -- users-admin.service.ts
  | findMember (userId : ℕ) (tenantId : String)
  | findSystemUser (userId : ℕ)
  | findRole (roleId : ℕ) (tenantId : Option String)
  | updateTenantUser (userId : ℕ) (name : Option String) (roles : Option (List ℕ))
  | updateSystemUser (userId : ℕ) (name : Option String) (roles : Option (List ℕ))
  | approveUser (userId : ℕ)
  | lockUser (userId authAccountId now : ℕ)
  | unlockUser (userId : ℕ)
  | seatUsage (tenantId : String) (now : ℕ)
  | directCreate (tenantId email fullName : String) (passwordHash : String) (roleId : Option ℕ)
  -- user-invite.service.ts, self-registration.service.ts
  | findActiveTenant (tenantId : String)
  | createInvites (tenantId : String) (roleId : Option ℕ) (prepared : List PreparedInvite)
      (invitedById : Option ℕ)
  | findInvite (inviteId : ℕ) (tenantId : String)
  | resendInvite (existing : UserInvite) (tokenHash : String) (expiresAt : ℕ)
      (invitedById : Option ℕ) (now : ℕ)
  | revokeInvite (existing : UserInvite) (now : ℕ)
  | findInviteByToken (tokenHash : String)
  | findInvitee (userId : ℕ) (tenantId : String)
  | redeemInvite (invite : UserInvite) (tenantUser : TenantUser) (passwordHash fullName : String)
      (now : ℕ)
  | findTenantSettings (tenantId : String)
  | register (tenantId email fullName : String) (passwordHash : String)
      (requiresApproval : Bool) (roleId : ℕ)
  -- user-deletion.service.ts
  | findSource (userId : ℕ) (tenantId : String)
  | findTransferTarget (userId : ℕ) (tenantId : String)
  | softDelete (userId authAccountId now : ℕ)
  | hardDelete (source : TenantUser) (target : Option ℕ) (now : ℕ)
  deriving DecidableEq

@[reducible] def Op.Res : Op → Type
  | findTenantUserByEmail _ _ => Option TenantUserRow
  | findSystemUserByEmail _ => Option SystemUserRow
  | isTenantActive _ => Bool
  | compare _ _ => Bool
  | hash _ => List String
  | createRefreshToken _ _ _ => ℕ
  | findRefreshToken _ => Option RefreshToken
  | revokeFamily _ _ => Unit
  | rotate _ _ => ℕ
  | findTenantUserByAccount _ => Option TenantUserRow
  | findSystemUserByAccount _ => Option SystemUserRow
  | revokeToken _ _ => Unit
  | findAuthAccount _ => Option AuthAccount
  | changePassword _ _ _ _ => ℕ
  | findSession _ => Option RefreshToken
  | belongsToTenant _ _ => Bool
  | belongsToSystem _ => Bool
  | revokeSession _ _ => ℕ
  | revokeAllSessions _ _ _ => ℕ
  | findLatestOtp _ => Option PasswordResetOtp
  | issueOtp _ _ _ _ => Unit
  | findLiveOtp _ => Option PasswordResetOtp
  | consumeExpiredOtp _ _ => Unit
  | compareOtp _ _ => Bool
  | recordMiss _ _ => Unit
  | resetPassword _ _ _ _ => Option ℕ
  | findTarget _ _ => Option TenantUser
  | findSystemTarget _ => Option SystemUser
  | deactivate _ _ _ _ => ℕ
  | activate _ _ => Unit
  | forceResetPassword _ _ _ => ℕ
  | burnOtps _ _ => Unit
  | findMember _ _ => Option TenantUserRow
  | findSystemUser _ => Option SystemUserRow
  | findRole _ _ => Option ℕ
  | updateTenantUser _ _ _ => TenantUser
  | updateSystemUser _ _ _ => SystemUser
  | approveUser _ => TenantUser
  | lockUser _ _ _ => TenantUser × ℕ
  | unlockUser _ => TenantUser
  | seatUsage _ _ => ℤ × ℕ
  | directCreate _ _ _ _ _ => Option TenantUser
  | findActiveTenant _ => Bool
  | createInvites _ _ _ _ => Option (List UserInvite)
  | findInvite _ _ => Option UserInvite
  | resendInvite _ _ _ _ _ => Option UserInvite
  | revokeInvite _ _ => Option UserInvite
  | findInviteByToken _ => Option (UserInvite × Bool)
  | findInvitee _ _ => Option TenantUser
  | redeemInvite _ _ _ _ _ => Bool
  | findTenantSettings _ => Option TenantSettings
  | register _ _ _ _ _ _ => Option TenantUser
  | findSource _ _ => Option TenantUser
  | findTransferTarget _ _ => Option TenantUser
  | softDelete _ _ _ => ℕ
  | hardDelete _ _ _ => Except HttpError (ℕ × ℕ)

/-- What the tenant schema says about a member's records: no meta tables, a table
without an ownership contract, or the records owned in each table. -/
inductive Ownership where
  | noMetaTables
  | legacy
  | owned (counts : List ℕ)
  deriving DecidableEq, Repr

/-- What decides an answer besides the database: a fault, the clock, the order in
which rows are returned, bcrypt's salted hashes, and the member's records. -/
structure Outside where
  fault : Bool
  now : ℕ
  pick : ℕ
  newHash : String → String
  ownership : Ownership

/-! ### Errors the transactions raise -/

def invalidTransition (status explanation : String) : HttpError :=
  .badRequest "INVALID_STATUS_TRANSITION" ["This user is " ++ status ++ ": " ++ explanation ++ "."]

def invalidTarget : HttpError :=
  .badRequest "INVALID_TARGET_USER"
    ["transferToUserId must name another active user of this tenant."]

def ownershipContractRequired : HttpError :=
  .validation
    "Hard delete is unavailable while this tenant has legacy dynamic tables without an ownership contract."

def transferTargetRequired : HttpError :=
  .validation "transferToUserId is required when the user owns data."

/-! ### The statements -/

namespace Database

abbrev Answer (α : Type) := Except ServiceError α × Database

/-- `NOT NULL "revokedAt"` rows stay as they are. -/
def revokeTokens (db : Database) (p : RefreshToken → Bool) (now : ℕ) : ℕ × Database :=
  let live (token : RefreshToken) : Bool := token.revokedAt = none && p token
  (countWhere live db.refreshTokens,
    { db with
      refreshTokens := updateMany live (fun token => { token with revokedAt := some now })
        db.refreshTokens })

def revokeLiveSessions (db : Database) (authAccountId now : ℕ) : ℕ × Database :=
  db.revokeTokens (fun token => token.authAccountId = authAccountId) now

/-- Every live session of the account except the kept one. -/
def revokeOthers (db : Database) (authAccountId : ℕ) (kept : Option ℕ) (now : ℕ) : ℕ × Database :=
  db.revokeTokens
    (fun token => token.authAccountId = authAccountId && kept.all fun id => token.id ≠ id) now

/-- An account and a unique token hash are required. -/
def createRefreshToken (db : Database) (authAccountId : ℕ) (tokenHash : String) (expiresAt : ℕ) :
    Answer ℕ :=
  if (db.account? authAccountId).isNone then (.error (.database "P2003"), db)
  else if db.refreshTokens.any (·.tokenHash = tokenHash) then (.error (.database "P2002"), db)
  else
    (.ok db.nextId,
      { db with
        refreshTokens := db.refreshTokens ++
          [{ id := db.nextId, authAccountId := authAccountId, tokenHash := tokenHash,
             expiresAt := expiresAt }]
        nextId := db.nextId + 1 })

def updateAccount (db : Database) (id : ℕ) (f : AuthAccount → AuthAccount) : Database :=
  { db with authAccounts := updateMany (·.id = id) f db.authAccounts }

def updateMember (db : Database) (id : ℕ) (f : TenantUser → TenantUser) : Database :=
  { db with tenantUsers := updateMany (·.id = id) f db.tenantUsers }

def member? (db : Database) (id : ℕ) : Option TenantUser := db.tenantUsers.find? (·.id = id)

/-- An update by id fails on a row that is gone. -/
def ifMember {α : Type} (db : Database) (id : ℕ) (k : TenantUser → Answer α) : Answer α :=
  match db.member? id with
  | none => (.error (.database "P2025"), db)
  | some user => k user

def ifAccount {α : Type} (db : Database) (id : ℕ) (k : Answer α) : Answer α :=
  if (db.account? id).isNone then (.error (.database "P2025"), db) else k

def setPassword (db : Database) (authAccountId : ℕ) (passwordHash : String)
    (mustChangePassword : Bool) : Database :=
  db.updateAccount authAccountId fun account =>
    { account with passwordHash := passwordHash, mustChangePassword := mustChangePassword }

def changePassword (db : Database) (authAccountId : ℕ) (passwordHash : String)
    (kept : Option ℕ) (now : ℕ) : Answer ℕ :=
  db.ifAccount authAccountId <|
    let (count, db') :=
      (db.setPassword authAccountId passwordHash false).revokeOthers authAccountId kept now
    (.ok count, db')

/-- The newest of the rows that meet `p`. -/
def latestOtp (db : Database) (p : PasswordResetOtp → Bool) : Option PasswordResetOtp :=
  (db.passwordResetOtps.filter p).foldl
    (fun best otp => match best with
      | none => some otp
      | some b => if b.createdAt < otp.createdAt then some otp else some b) none

def consumeOtps (db : Database) (p : PasswordResetOtp → Bool) (now : ℕ) : Database :=
  { db with
    passwordResetOtps := updateMany (fun otp => otp.consumedAt = none && p otp)
      (fun otp => { otp with consumedAt := some now }) db.passwordResetOtps }

/-- Outstanding codes are consumed and the new one is created. -/
def issueOtp (db : Database) (clock authAccountId : ℕ) (otpHash : String) (expiresAt now : ℕ) :
    Answer Unit :=
  if (db.account? authAccountId).isNone then (.error (.database "P2003"), db)
  else
    let db' := db.consumeOtps (fun otp => otp.authAccountId = authAccountId) now
    (.ok (),
      { db' with
        passwordResetOtps := db'.passwordResetOtps ++
          [{ id := db.nextId, authAccountId := authAccountId, otpHash := otpHash,
             expiresAt := expiresAt, createdAt := clock }]
        nextId := db.nextId + 1 })

/-- A miss counts only while the row is as it was read. -/
def recordMiss (db : Database) (otp : PasswordResetOtp) (now : ℕ) : Database :=
  let attemptCount := otp.attemptCount + 1
  let budgetSpent : Bool := PASSWORD_RESET_OTP_MAX_ATTEMPTS ≤ attemptCount
  { db with
    passwordResetOtps := updateMany
      (fun row => row.id = otp.id && row.consumedAt = none && row.attemptCount = otp.attemptCount)
      (fun row => { row with
        attemptCount := attemptCount
        consumedAt := if budgetSpent then some now else row.consumedAt })
      db.passwordResetOtps }

/-- `none` when the code had been consumed and everything is rolled back. -/
def resetPassword (db : Database) (otp : PasswordResetOtp) (authAccountId : ℕ)
    (passwordHash : String) (now : ℕ) : Answer (Option ℕ) :=
  if countWhere (fun row => row.id = otp.id && row.consumedAt = none) db.passwordResetOtps = 0 then
    (.ok none, db)
  else db.ifAccount authAccountId <|
    let db' := (db.consumeOtps (fun row => row.id = otp.id) now).setPassword authAccountId
      passwordHash false
    let (count, db'') := db'.revokeLiveSessions authAccountId now
    (.ok (some count), db'')

def setActorActive (db : Database) (actorType : ActorType) (userId : ℕ) (isActive : Bool) :
    Answer Unit :=
  match actorType with
  | .TENANT => db.ifMember userId fun _ =>
      (.ok (), db.updateMember userId fun user => { user with isActive := isActive })
  | .SYSTEM =>
    if db.systemUsers.all (·.id ≠ userId) then (.error (.database "P2025"), db)
    else
      (.ok (), { db with
        systemUsers := updateMany (·.id = userId)
          (fun user => { user with isActive := isActive }) db.systemUsers })

def deactivate (db : Database) (actorType : ActorType) (userId authAccountId now : ℕ) :
    Answer ℕ :=
  match db.setActorActive actorType userId false with
  | (.error e, _) => (.error e, db)
  | (.ok (), db') =>
    let (count, db'') := db'.revokeLiveSessions authAccountId now
    (.ok count, db'')

def forceResetPassword (db : Database) (authAccountId : ℕ) (passwordHash : String) (now : ℕ) :
    Answer ℕ :=
  db.ifAccount authAccountId <|
    let (count, db') :=
      (db.setPassword authAccountId passwordHash true).revokeLiveSessions authAccountId now
    (.ok count, db')

/-- `status` and `isActive` in one write. -/
def setStatus (db : Database) (userId : ℕ) (status : TenantUserStatus) (isActive : Bool) :
    Answer TenantUser :=
  db.ifMember userId fun user =>
    (.ok { user with status := status, isActive := isActive },
      db.updateMember userId fun user => { user with status := status, isActive := isActive })

/-- The status write and the revocation of `lockUser` and `softDelete`. -/
def setStatusAndRevoke (db : Database) (userId : ℕ) (status : TenantUserStatus)
    (authAccountId now : ℕ) : Answer (TenantUser × ℕ) :=
  match db.setStatus userId status false with
  | (.error e, _) => (.error e, db)
  | (.ok user, db') =>
    let (count, db'') := db'.revokeLiveSessions authAccountId now
    (.ok (user, count), db'')

def updateTenantUser (db : Database) (userId : ℕ) (name : Option String)
    (roles : Option (List ℕ)) : Answer TenantUser :=
  let data (user : TenantUser) : TenantUser :=
    { user with name := name.orElse (fun _ => user.name), roles := roles.getD user.roles }
  db.ifMember userId fun user => (.ok (data user), db.updateMember userId data)

def updateSystemUser (db : Database) (userId : ℕ) (name : Option String)
    (roles : Option (List ℕ)) : Answer SystemUser :=
  let data (user : SystemUser) : SystemUser :=
    { user with name := name.orElse (fun _ => user.name), roles := roles.getD user.roles }
  match db.systemUsers.find? (·.id = userId) with
  | none => (.error (.database "P2025"), db)
  | some user =>
    (.ok (data user), { db with systemUsers := updateMany (·.id = userId) data db.systemUsers })

def usedSeats (db : Database) (tenantId : String) (now : ℕ) : ℕ :=
  countWhere (fun user => user.tenantId = tenantId &&
    [.ACTIVE, .PENDING_SETUP, .PENDING_APPROVAL, .LOCKED].contains user.status) db.tenantUsers +
  countWhere (fun user => user.tenantId = tenantId && user.status = .PENDING_INVITE &&
    db.userInvites.any fun invite => invite.tenantUserId = some user.id &&
      invite.status = .PENDING && now < invite.expiresAt) db.tenantUsers

/-- `resolveMaxUsers`; a vanished tenant is unlimited. -/
def resolveMaxUsers (db : Database) (tenantId : String) : ℤ :=
  ((db.tenants.find? (·.id = tenantId)).map (·.maxUsers)).getD (-1)

/-- `findMemberByEmail`: a non-deleted member of the tenant has the address. -/
def emailTaken (db : Database) (tenantId email : String) : Bool :=
  db.tenantUsers.any fun user => user.tenantId = tenantId && user.status ≠ .DELETED &&
    db.hasEmail user.authAccountId email

/-- A new account and its membership. -/
def createMember (db : Database) (account : AuthAccount) (user : TenantUser) :
    TenantUser × Database :=
  let user := { user with id := db.nextId + 1, authAccountId := db.nextId }
  (user,
    { db with
      authAccounts := db.authAccounts ++ [{ account with id := db.nextId }]
      tenantUsers := db.tenantUsers ++ [user]
      nextId := db.nextId + 2 })

def directCreate (cfg : Config) (db : Database) (tenantId email fullName : String)
    (passwordHash : String) (roleId : Option ℕ) : Answer (Option TenantUser) :=
  if db.emailTaken tenantId (cfg.normalizeEmail email) then (.ok none, db)
  else
    let (user, db') := db.createMember
      { id := 0, email := email, passwordHash := passwordHash, mustChangePassword := true }
      { id := 0, tenantId := tenantId, authAccountId := 0, name := some fullName,
        status := .ACTIVE, isActive := true, roles := roleId.toList }
    (.ok (some user), db')

def register (cfg : Config) (db : Database) (tenantId email fullName : String)
    (passwordHash : String) (requiresApproval : Bool) (roleId : ℕ) :
    Answer (Option TenantUser) :=
  if db.emailTaken tenantId (cfg.normalizeEmail email) then (.ok none, db)
  else
    let (user, db') := db.createMember
      { id := 0, email := email, passwordHash := passwordHash }
      { id := 0, tenantId := tenantId, authAccountId := 0, name := some fullName,
        status := if requiresApproval then .PENDING_APPROVAL else .ACTIVE,
        isActive := !requiresApproval, roles := [roleId] }
    (.ok (some user), db')

/-- That `tokenHash` is unique is not checked: the tokens are drawn at random, and no two of
them are taken to be the same. -/
def createInvite (db : Database) (invite : UserInvite) : UserInvite × Database :=
  let invite := { invite with id := db.nextId }
  (invite, { db with userInvites := db.userInvites ++ [invite], nextId := db.nextId + 1 })

/-- One address of a batch. -/
def inviteMember (cfg : Config) (db : Database) (tenantId : String) (roleId : Option ℕ)
    (invitedById : Option ℕ) (prepared : PreparedInvite) : Option (UserInvite × Database) :=
  if db.emailTaken tenantId (cfg.normalizeEmail prepared.email) then none
  else
    let (user, db') := db.createMember
      { id := 0, email := prepared.email, passwordHash := prepared.placeholderPasswordHash }
      { id := 0, tenantId := tenantId, authAccountId := 0, status := .PENDING_INVITE,
        isActive := false }
    some (db'.createInvite
      { id := 0, tenantId := tenantId, email := prepared.email, roleId := roleId,
        tenantUserId := some user.id, tokenHash := prepared.tokenHash,
        expiresAt := prepared.expiresAt, invitedById := invitedById })

/-- The addresses in turn, until one is taken. -/
def inviteMembers (cfg : Config) (tenantId : String) (roleId invitedById : Option ℕ) :
    Database → List PreparedInvite → Option (List UserInvite × Database)
  | db, [] => some ([], db)
  | db, prepared :: rest =>
    match db.inviteMember cfg tenantId roleId invitedById prepared with
    | none => none
    | some (invite, db') =>
      (inviteMembers cfg tenantId roleId invitedById db' rest).map fun (invites, db'') =>
        (invite :: invites, db'')

/-- All or nothing: an address that is taken rolls the batch back. -/
def createInvites (cfg : Config) (db : Database) (tenantId : String) (roleId : Option ℕ)
    (prepared : List PreparedInvite) (invitedById : Option ℕ) :
    Answer (Option (List UserInvite)) :=
  match inviteMembers cfg tenantId roleId invitedById db prepared with
  | none => (.ok none, db)
  | some (invites, db') => (.ok (some invites), db')

def retireInvites (db : Database) (p : UserInvite → Bool) (now : ℕ) : Database :=
  { db with
    userInvites := updateMany (fun invite => invite.status = .PENDING && p invite)
      (fun invite => { invite with status := .REVOKED, revokedAt := some now }) db.userInvites }

def isPending (db : Database) (inviteId : ℕ) : Bool :=
  db.userInvites.any fun invite => invite.id = inviteId && invite.status = .PENDING

/-- `none` when somebody else has retired the invite. -/
def resendInvite (db : Database) (existing : UserInvite) (tokenHash : String) (expiresAt : ℕ)
    (invitedById : Option ℕ) (now : ℕ) : Answer (Option UserInvite) :=
  if db.isPending existing.id = false then (.ok none, db)
  else
    let (invite, db') := (db.retireInvites (·.id = existing.id) now).createInvite
      { id := 0, tenantId := existing.tenantId, email := existing.email,
        roleId := existing.roleId, tenantUserId := existing.tenantUserId,
        tokenHash := tokenHash, expiresAt := expiresAt, invitedById := invitedById }
    (.ok (some invite), db')

/-- The membership goes to `DELETED`, and its other live invites are retired. -/
def revokeInvite (db : Database) (existing : UserInvite) (now : ℕ) :
    Answer (Option UserInvite) :=
  if db.isPending existing.id = false then (.ok none, db)
  else
    let db' := db.retireInvites (·.id = existing.id) now
    let revoked := some { existing with status := .REVOKED, revokedAt := some now }
    match existing.tenantUserId with
    | none => (.ok revoked, db')
    | some userId => db.ifMember userId fun _ =>
      (.ok revoked, (db'.updateMember userId fun user =>
        { user with status := .DELETED, isActive := false }).retireInvites
          (fun invite => invite.tenantUserId = some userId && invite.id ≠ existing.id) now)

/-- The writes of a redemption; the conditional consumption of the invite guards
them. -/
def redeemInvite (db : Database) (invite : UserInvite) (tenantUser : TenantUser)
    (passwordHash fullName : String) (now : ℕ) : Answer Bool :=
  if db.userInvites.all fun row =>
      !(row.id = invite.id && row.status = .PENDING && now < row.expiresAt) then (.ok false, db)
  else db.ifAccount tenantUser.authAccountId <| db.ifMember tenantUser.id fun _ =>
    let db' := { db with
      userInvites := updateMany (·.id = invite.id)
        (fun row => { row with status := .USED, usedAt := some now }) db.userInvites }
    let db' := (db'.setPassword tenantUser.authAccountId passwordHash false).updateMember
      tenantUser.id fun user =>
        { user with name := some fullName, status := .ACTIVE, isActive := true,
                    roles := user.roles ∪ invite.roleId.toList }
    (.ok true, db'.retireInvites
      (fun row => row.tenantUserId = some tenantUser.id && row.id ≠ invite.id) now)

/-- The rows that go with an account and a member (`onDelete: Cascade`, `SetNull`). -/
def removeMember (db : Database) (user : TenantUser) : Database :=
  { db with
    tenantUsers := db.tenantUsers.filter fun row =>
      row.id ≠ user.id && row.authAccountId ≠ user.authAccountId
    systemUsers := db.systemUsers.filter (·.authAccountId ≠ user.authAccountId)
    authAccounts := db.authAccounts.filter (·.id ≠ user.authAccountId)
    refreshTokens := db.refreshTokens.filter (·.authAccountId ≠ user.authAccountId)
    passwordResetOtps := db.passwordResetOtps.filter (·.authAccountId ≠ user.authAccountId)
    userInvites := updateMany (·.tenantUserId = some user.id)
      (fun invite => { invite with tenantUserId := none }) db.userInvites }

/-- The one transaction of a hard deletion. -/
def hardDelete (ownership : Ownership) (db : Database) (source : TenantUser)
    (target : Option ℕ) : Answer (Except HttpError (ℕ × ℕ)) :=
  let remove (transferred : ℕ) : Answer (Except HttpError (ℕ × ℕ)) :=
    (.ok (.ok (countWhere (fun token => token.authAccountId = source.authAccountId &&
        token.revokedAt = none) db.refreshTokens, transferred)), db.removeMember source)
  if db.tenantUsers.all fun row =>
      !(row.id = source.id && row.tenantId = source.tenantId && row.status ≠ .DELETED) then
    (.ok (.error (invalidTransition "deleted" "a deleted user cannot be removed")), db)
  else if target.any fun id => db.tenantUsers.all fun row =>
      !(row.id = id && row.tenantId = source.tenantId && row.status = .ACTIVE && row.isActive) then
    (.ok (.error invalidTarget), db)
  else match ownership with
    | .noMetaTables => remove 0
    | .legacy => (.ok (.error ownershipContractRequired), db)
    | .owned counts =>
      if counts.any (0 < ·) && target.isNone then (.ok (.error transferTargetRequired), db)
      else remove counts.sum

end Database

/-- The execution of an operation that is not hit by a fault. -/
def Op.effect (cfg : Config) (outside : Outside) :
    (op : Op) → Database → Except ServiceError op.Res × Database
  | findTenantUserByEmail tenantId email, db =>
    (.ok ((findAny outside.pick (fun user => user.tenantId = tenantId &&
      db.hasEmail user.authAccountId email) db.tenantUsers).bind db.tenantUserRow), db)
  | findSystemUserByEmail email, db =>
    (.ok ((findAny outside.pick (fun user => db.hasEmail user.authAccountId email)
      db.systemUsers).bind db.systemUserRow), db)
  | isTenantActive tenantId, db => (.ok (db.isTenantActive tenantId), db)
  | compare password passwordHash, db => (.ok (cfg.compare password passwordHash), db)
  | hash passwords, db => (.ok (passwords.map outside.newHash), db)
  | createRefreshToken authAccountId tokenHash expiresAt, db =>
    db.createRefreshToken authAccountId tokenHash expiresAt
  | findRefreshToken tokenHash, db =>
    (.ok (db.refreshTokens.find? (·.tokenHash = tokenHash)), db)
  | revokeFamily authAccountId now, db => (.ok (), (db.revokeLiveSessions authAccountId now).2)
  | rotate id now, db =>
    let (count, db') := db.revokeTokens (fun token => token.id = id) now
    (.ok count, db')
  | findTenantUserByAccount authAccountId, db =>
    (.ok ((findAny outside.pick (·.authAccountId = authAccountId) db.tenantUsers).bind
      db.tenantUserRow), db)
  | findSystemUserByAccount authAccountId, db =>
    (.ok ((findAny outside.pick (·.authAccountId = authAccountId) db.systemUsers).bind
      db.systemUserRow), db)
  | revokeToken id now, db =>
    if db.refreshTokens.all (·.id ≠ id) then (.error (.database "P2025"), db)
    else
      (.ok (), { db with
        refreshTokens := updateMany (·.id = id)
          (fun token => { token with revokedAt := some now }) db.refreshTokens })
  | findAuthAccount id, db => (.ok (db.account? id), db)
  | changePassword authAccountId passwordHash kept now, db =>
    db.changePassword authAccountId passwordHash kept now
  | findSession id, db => (.ok (db.refreshTokens.find? (·.id = id)), db)
  | belongsToTenant authAccountId tenantId, db =>
    (.ok (db.tenantUsers.any fun user => user.authAccountId = authAccountId &&
      tenantId.all (user.tenantId = ·)), db)
  | belongsToSystem authAccountId, db =>
    (.ok (db.systemUsers.any (·.authAccountId = authAccountId)), db)
  | revokeSession id now, db =>
    let (count, db') := db.revokeTokens (fun token => token.id = id) now
    (.ok count, db')
  | revokeAllSessions authAccountId kept now, db =>
    let (count, db') := db.revokeOthers authAccountId kept now
    (.ok count, db')
  | findLatestOtp authAccountId, db =>
    (.ok (db.latestOtp fun otp => otp.authAccountId = authAccountId), db)
  | issueOtp authAccountId otpHash expiresAt now, db =>
    db.issueOtp outside.now authAccountId otpHash expiresAt now
  | findLiveOtp authAccountId, db =>
    (.ok (db.latestOtp fun otp => authAccountId = some otp.authAccountId &&
      otp.consumedAt = none), db)
  | consumeExpiredOtp otp now, db => (.ok (), db.consumeOtps (fun row => row.id = otp.id) now)
  | compareOtp otp submitted, db => (.ok (cfg.compare submitted otp.otpHash), db)
  | recordMiss otp now, db => (.ok (), db.recordMiss otp now)
  | resetPassword otp authAccountId passwordHash now, db =>
    db.resetPassword otp authAccountId passwordHash now
  | findTarget userId tenantId, db =>
    (.ok (db.tenantUsers.find? fun user => user.id = userId && tenantId.all (user.tenantId = ·)),
      db)
  | findSystemTarget userId, db => (.ok (db.systemUsers.find? (·.id = userId)), db)
  | deactivate actorType userId authAccountId now, db =>
    db.deactivate actorType userId authAccountId now
  | activate actorType userId, db => db.setActorActive actorType userId true
  | forceResetPassword authAccountId passwordHash now, db =>
    db.forceResetPassword authAccountId passwordHash now
  | burnOtps authAccountId now, db =>
    (.ok (), db.consumeOtps (fun otp => otp.authAccountId = authAccountId) now)
  | findMember userId tenantId, db =>
    (.ok ((db.tenantUsers.find? fun user => user.id = userId && user.tenantId = tenantId).bind
      db.tenantUserRow), db)
  | findSystemUser userId, db =>
    (.ok ((db.systemUsers.find? (·.id = userId)).bind db.systemUserRow), db)
  | findRole roleId tenantId, db =>
    (.ok ((db.roles.find? fun role => role.id = roleId && role.tenantId = tenantId).map (·.id)), db)
  | updateTenantUser userId name roles, db => db.updateTenantUser userId name roles
  | updateSystemUser userId name roles, db => db.updateSystemUser userId name roles
  | approveUser userId, db => db.setStatus userId .ACTIVE true
  | lockUser userId authAccountId now, db =>
    db.setStatusAndRevoke userId .LOCKED authAccountId now
  | unlockUser userId, db => db.setStatus userId .ACTIVE true
  | seatUsage tenantId now, db => (.ok (db.resolveMaxUsers tenantId, db.usedSeats tenantId now), db)
  | directCreate tenantId email fullName passwordHash roleId, db =>
    db.directCreate cfg tenantId email fullName passwordHash roleId
  | findActiveTenant tenantId, db => (.ok (db.isTenantActive tenantId), db)
  | createInvites tenantId roleId prepared invitedById, db =>
    db.createInvites cfg tenantId roleId prepared invitedById
  | findInvite inviteId tenantId, db =>
    (.ok (db.userInvites.find? fun invite => invite.id = inviteId && invite.tenantId = tenantId), db)
  | resendInvite existing tokenHash expiresAt invitedById now, db =>
    db.resendInvite existing tokenHash expiresAt invitedById now
  | revokeInvite existing now, db => db.revokeInvite existing now
  | findInviteByToken tokenHash, db =>
    (.ok ((db.userInvites.find? (·.tokenHash = tokenHash)).map fun invite =>
      (invite, db.isTenantActive invite.tenantId)), db)
  | findInvitee userId tenantId, db =>
    (.ok (db.tenantUsers.find? fun user => user.id = userId && user.tenantId = tenantId &&
      user.status = .PENDING_INVITE), db)
  | redeemInvite invite tenantUser passwordHash fullName now, db =>
    db.redeemInvite invite tenantUser passwordHash fullName now
  | findTenantSettings tenantId, db =>
    (.ok (db.tenantSettings.find? (·.tenantId = tenantId)), db)
  | register tenantId email fullName passwordHash requiresApproval roleId, db =>
    db.register cfg tenantId email fullName passwordHash requiresApproval roleId
  | findSource userId tenantId, db =>
    (.ok (db.tenantUsers.find? fun user => user.id = userId && user.tenantId = tenantId), db)
  | findTransferTarget userId tenantId, db =>
    (.ok (db.tenantUsers.find? fun user => user.id = userId && user.tenantId = tenantId &&
      user.status = .ACTIVE && user.isActive), db)
  | softDelete userId authAccountId now, db =>
    match db.setStatusAndRevoke userId .DELETED authAccountId now with
    | (.error e, db') => (.error e, db')
    | (.ok (_, count), db') => (.ok count, db')
  | hardDelete source target _, db => db.hardDelete outside.ownership source target

/-- The execution of an operation; a fault leaves no trace but its error. -/
def Op.perform (cfg : Config) (outside : Outside) (op : Op) (db : Database) :
    Except ServiceError op.Res × Database :=
  if outside.fault then (.error (.database "P1001"), db) else op.effect cfg outside db

end Flexi.Accounts
