import Flexi.Library.Async
import Flexi.Tenants.Records

/-!
# What the provisioning code asks of the outside

The statements and transactions of provisioning.service.ts, first-admin.service.ts,
setup-link.service.ts and the two bootstrap migrations, as operations on the
attempt's part of the database. A transaction is one operation; a failed
operation leaves the database as it was.
-/

namespace Flexi.Tenants
open Flexi.Library

/-- The errors the code tells apart; a database error carries its code. -/
inductive ProvisioningError where
  | cancelled
  | activationBlocked
  | manualCleanupRequired
  | firstAdminNotFound
  | database (code : Option String)
  | other (message : String)
  deriving DecidableEq, Repr

def ProvisioningError.isCancelled : ProvisioningError → Bool
  | cancelled => true
  | _ => false

def ProvisioningError.isUniqueConstraintViolation : ProvisioningError → Bool
  | database code => code = some "P2002" || code = some "23505"
  | _ => false

structure SendEmailOutcome where
  delivered : Bool
  errorCode : Option String
  deriving DecidableEq, Repr

/-- What `deactivate` looks up before it deletes. -/
structure FirstAdminIds where
  tenantUserId : ℕ
  authAccountId : ℕ
  deriving DecidableEq, Repr

inductive Op where
  | findTenantByAttemptId
  | findTenantBySlug (slug : String)
  | readAttemptStatus
  | resetAttemptStatusToProvisioning
  | claimAttempt (jobId : String) (occurredAt : ℕ)
  | insertTenant (id : TenantId) (name slug attemptId : String)
  | updateAttemptSteps (status : AttemptStatus) (outcomes : List StepOutcome) (signal : Bool)
  | createSchema (schema : String)
  | ensureMetaTables (schema : String)
  | bootstrapSeed (schema : String)
  | readAttemptSafePayload
  | assign (tenantId : TenantId) (firstAdminEmail : String)
  | generate (tenantId : TenantId) (setupToken : String) (now : ℕ)
  | sendSetupInvite (email tenantName setupToken : String)
  | activate (tenantId : TenantId)
  | findUniqueOrThrow (tenantId : TenantId)
  | readAttemptAuditRow
  | upsertAuditLog (row : AuditLog)
  | readAttemptStepOutcomes
  | revokeAll (tenantId : TenantId) (now : ℕ)
  | findAdminRole (tenantId : TenantId)
  | findTenantUser (tenantId : TenantId)
  | deleteFirstAdmin (tenantId : TenantId) (user : Option FirstAdminIds)
  | dropSchema (schema : String)
  | markTenantFailed (tenantId : TenantId)

@[reducible] def Op.Res : Op → Type
  | findTenantByAttemptId => Option Tenant
  | findTenantBySlug _ => Option Tenant
  | readAttemptStatus => Option AttemptStatus
  | resetAttemptStatusToProvisioning => Unit
  | claimAttempt _ _ => Option Attempt
  | insertTenant _ _ _ _ => Tenant
  | updateAttemptSteps _ _ _ => Unit
  | createSchema _ => Unit
  | ensureMetaTables _ => Unit
  | bootstrapSeed _ => Unit
  | readAttemptSafePayload => Option Json
  | assign _ _ => Unit
  | generate _ _ _ => Unit
  | sendSetupInvite _ _ _ => SendEmailOutcome
  | activate _ => ℕ
  | findUniqueOrThrow _ => Tenant
  | readAttemptAuditRow => Option Attempt
  | upsertAuditLog _ => Unit
  | readAttemptStepOutcomes => Option (List StepOutcome)
  | revokeAll _ _ => Unit
  | findAdminRole _ => Option ℕ
  | findTenantUser _ => Option FirstAdminIds
  | deleteFirstAdmin _ _ => Unit
  | dropSchema _ => Unit
  | markTenantFailed _ => Unit

/-- What decides an answer besides the database: a fault, the mail server's
answer, and the code the driver gives a unique violation. -/
structure Outside where
  fault : Bool
  email : SendEmailOutcome
  uniqueViolation : String
  deriving DecidableEq, Repr

def META_TABLE_NAMES : List String := ["_meta_tables", "_meta_fields", "_meta_migrations"]

def SEED_TABLE_NAMES : List String :=
  ["system_settings", "statuses", "roles", "permissions", "role_permissions", "categories",
    "notification_templates"]

/-! ### The rows of a tenant -/

namespace TenantRows

/-- The three upserts of `assign`; `nextId` numbers the rows it makes. -/
def assign (nextId : ℕ) (tenantPermissions : List String) (firstAdminEmail : String)
    (rows : TenantRows) : TenantRows :=
  let role := rows.adminRole.getD { id := nextId + 2, permissions := [] }
  let granted := some { role with permissions := role.permissions ∪ tenantPermissions }
  match rows.tenantUsers with
  | [] =>
    { rows with
      tenantUsers := [{ id := nextId + 1, authAccountId := nextId, status := "pending_setup",
                        roles := [role.id] }]
      authAccounts := rows.authAccounts ++ [{ id := nextId, email := firstAdminEmail }]
      adminRole := granted }
  | user :: others =>
    { rows with
      tenantUsers := { user with roles := user.roles.insert role.id } :: others
      adminRole := granted }

/-- `updateMany` over the tokens that are not revoked yet. -/
def revokeTokens (now : ℕ) (rows : TenantRows) : TenantRows :=
  { rows with
    setupTokens := rows.setupTokens.map fun token =>
      { token with revokedAt := some (token.revokedAt.getD now) } }

def SETUP_TOKEN_TTL_MS : ℕ := 24 * 60 * 60 * 1000

/-- Every older token is revoked before the new one is minted. -/
def generate (setupToken : String) (now : ℕ) (rows : TenantRows) : TenantRows :=
  { rows.revokeTokens now with
    setupTokens := (rows.revokeTokens now).setupTokens ++
      [{ token := setupToken, expiresAt := now + SETUP_TOKEN_TTL_MS, revokedAt := none }] }

/-- Deleting the role takes it from every user. -/
def deleteRole (rows : TenantRows) : TenantRows :=
  { rows with
    tenantUsers := rows.tenantUsers.map fun user =>
      { user with roles := user.roles.filter fun role => rows.adminRole.all (·.id ≠ role) }
    adminRole := none }

def deleteFirstAdmin (user : Option FirstAdminIds) (rows : TenantRows) : TenantRows :=
  match user with
  | none => rows.deleteRole
  | some ids =>
    TenantRows.deleteRole
      { rows with
        tenantUsers := rows.tenantUsers.filter (·.id ≠ ids.tenantUserId)
        authAccounts := rows.authAccounts.filter (·.id ≠ ids.authAccountId) }

end TenantRows

/-! ### The transactions -/

namespace Database

abbrev Answer (α : Type) := Except ProvisioningError α × Database

/-- The row with a changed attempt. -/
def withAttempt (db : Database) (f : Attempt → Attempt) : Database :=
  { db with attempt := f db.attempt }

def withSchema (db : Database) (schema : String) (tables : Option (List String)) : Database :=
  { db with schemas := Function.update db.schemas schema tables }

def withRows (db : Database) (tenantId : TenantId) (rows : TenantRows) : Database :=
  { db with rows := Function.update db.rows tenantId rows }

/-- `UPDATE "tenants" SET "status" = ... WHERE "id" = tenantId`. -/
def withTenantStatus (db : Database) (tenantId : TenantId) (status : TenantStatus) : Database :=
  let set (row : Tenant) : Tenant := if row.id = tenantId then { row with status := status } else row
  { db with tenant := db.tenant.map set, otherTenants := db.otherTenants.map set }

def tenantById (db : Database) (tenantId : TenantId) : Option Tenant :=
  (db.tenant.toList ++ db.otherTenants).find? fun row => row.id == tenantId

def resetAttemptStatusToProvisioning (db : Database) : Answer Unit :=
  if db.attempt.status = .failed then
    (.ok (), db.withAttempt fun attempt => { attempt with status := .provisioning })
  else (.ok (), db)

/-- The row is claimed only while it is `accepted`. -/
def claimAttempt (db : Database) (jobId : String) (occurredAt : ℕ) : Answer (Option Attempt) :=
  if db.attempt.status = .accepted then
    let db' := db.withAttempt fun attempt =>
      { attempt with
        status := .provisioning
        provisioningJobId := some (attempt.provisioningJobId.getD jobId)
        stepOutcomes := upsertStepOutcome attempt.stepOutcomes
          { step := .provisioning_start, status := .running, occurredAt := occurredAt } }
    (.ok (some db'.attempt), db')
  else (.ok none, db)

/-- Ids, slugs and the linked attempt are unique. -/
def insertTenant (uniqueViolation : String) (db : Database) (id : TenantId)
    (name slug attemptId : String) : Answer Tenant :=
  if db.taken id slug || db.tenant.isSome then (.error (.database (some uniqueViolation)), db)
  else
    let row : Tenant := ⟨id, name, slug, .PROVISIONING, some attemptId⟩
    (.ok row, { db with tenant := some row })

/-- The signal is checked inside the transaction; a terminal status is not taken
back by a non-terminal one. -/
def updateAttemptSteps (aborted : Bool) (db : Database) (status : AttemptStatus)
    (outcomes : List StepOutcome) (signal : Bool) : Answer Unit :=
  if signal && aborted then (.error .cancelled, db)
  else if db.attempt.status.isTerminal && !status.isTerminal then (.ok (), db)
  else (.ok (), db.withAttempt fun attempt =>
    { attempt with
      status := status
      stepOutcomes := outcomes.foldl upsertStepOutcome attempt.stepOutcomes })

/-- `CREATE SCHEMA IF NOT EXISTS` -/
def createSchema (db : Database) (schema : String) : Answer Unit :=
  (.ok (), db.withSchema schema (some ((db.schemas schema).getD [])))

/-- A bootstrap migration: the tables that are missing are created, in one
transaction. -/
def createTables (db : Database) (schema : String) (tables : List String) : Answer Unit :=
  match db.schemas schema with
  | none => (.error (.database (some "3F000")), db)
  | some existing => (.ok (), db.withSchema schema (some (existing ∪ tables)))

/-- `FirstAdminService.assign`: a user of the tenant makes a rerun reuse what there
is; the check of the address belongs to the creation of an account. -/
def assign (db : Database) (tenantId : TenantId) (firstAdminEmail : String) : Answer Unit :=
  let rows := db.rows tenantId
  if rows.tenantUsers = [] && db.systemUserEmails.contains firstAdminEmail then
    (.error (.other "First Admin email is already in use by a system-level account."), db)
  else
    (.ok (), { db.withRows tenantId (rows.assign db.nextId db.tenantPermissions firstAdminEmail) with
      nextId := db.nextId + 3 })

/-- `SetupLinkService.generate`. -/
def generate (db : Database) (tenantId : TenantId) (setupToken : String) (now : ℕ) : Answer Unit :=
  let rows := db.rows tenantId
  if rows.tenantUsers = [] then (.error .firstAdminNotFound, db)
  else (.ok (), db.withRows tenantId (rows.generate setupToken now))

def revokeAll (db : Database) (tenantId : TenantId) (now : ℕ) : Answer Unit :=
  (.ok (), db.withRows tenantId ((db.rows tenantId).revokeTokens now))

/-- `updateMany` of `activation`, with the attempt's status as a further guard. -/
def activate (db : Database) (tenantId : TenantId) : Answer ℕ :=
  match db.tenant with
  | some row =>
    if row.id = tenantId ∧ row.status ≠ .FAILED ∧ db.attempt.status = .provisioning then
      (.ok 1, { db with tenant := some { row with status := .ACTIVE } })
    else (.ok 0, db)
  | none => (.ok 0, db)

/-- The transaction of `FirstAdminService.deactivate`: deleting a user that is
gone fails the whole of it. -/
def deleteFirstAdmin (db : Database) (tenantId : TenantId) (user : Option FirstAdminIds) :
    Answer Unit :=
  let rows := db.rows tenantId
  if user.all fun ids => rows.tenantUsers.any (·.id = ids.tenantUserId) then
    (.ok (), db.withRows tenantId (rows.deleteFirstAdmin user))
  else (.error (.database (some "P2025")), db)

def markTenantFailed (db : Database) (tenantId : TenantId) : Answer Unit :=
  match db.tenantById tenantId with
  | none => (.error (.database (some "P2025")), db)
  | some _ => (.ok (), db.withTenantStatus tenantId .FAILED)

end Database

/-- The execution of an operation that is not hit by a fault. -/
def Op.effect (outside : Outside) (aborted : Bool) :
    (op : Op) → Database → Except ProvisioningError op.Res × Database
  | findTenantByAttemptId, db => (.ok db.tenant, db)
  | findTenantBySlug slug, db =>
    (.ok ((db.tenant.toList ++ db.otherTenants).find? fun row => row.slug == slug), db)
  | readAttemptStatus, db => (.ok (some db.attempt.status), db)
  | resetAttemptStatusToProvisioning, db => db.resetAttemptStatusToProvisioning
  | claimAttempt jobId occurredAt, db => db.claimAttempt jobId occurredAt
  | insertTenant id name slug attemptId, db =>
    db.insertTenant outside.uniqueViolation id name slug attemptId
  | updateAttemptSteps status outcomes signal, db =>
    db.updateAttemptSteps aborted status outcomes signal
  | createSchema schema, db => db.createSchema schema
  | ensureMetaTables schema, db => db.createTables schema META_TABLE_NAMES
  | bootstrapSeed schema, db => db.createTables schema SEED_TABLE_NAMES
  | readAttemptSafePayload, db => (.ok (some db.attempt.safePayload), db)
  | assign tenantId firstAdminEmail, db => db.assign tenantId firstAdminEmail
  | generate tenantId setupToken now, db => db.generate tenantId setupToken now
  | sendSetupInvite _ _ _, db => (.ok outside.email, db)
  | activate tenantId, db => db.activate tenantId
  | findUniqueOrThrow tenantId, db =>
    match db.tenantById tenantId with
    | none => (.error (.database (some "P2025")), db)
    | some row => (.ok row, db)
  | readAttemptAuditRow, db => (.ok (some db.attempt), db)
  | upsertAuditLog row, db => (.ok (), { db with audit := some row })
  | readAttemptStepOutcomes, db => (.ok (some db.attempt.stepOutcomes), db)
  | revokeAll tenantId now, db => db.revokeAll tenantId now
  | findAdminRole tenantId, db => (.ok ((db.rows tenantId).adminRole.map (·.id)), db)
  | findTenantUser tenantId, db =>
    (.ok ((db.rows tenantId).tenantUsers.head?.map fun user => ⟨user.id, user.authAccountId⟩), db)
  | deleteFirstAdmin tenantId user, db => db.deleteFirstAdmin tenantId user
  | dropSchema schema, db => (.ok (), db.withSchema schema none)
  | markTenantFailed tenantId, db => db.markTenantFailed tenantId

/-- The execution of an operation; a fault leaves no trace but its error. -/
def Op.perform (outside : Outside) (aborted : Bool) (op : Op) (db : Database) :
    Except ProvisioningError op.Res × Database :=
  if outside.fault then (.error (.database none), db) else op.effect outside aborted db

end Flexi.Tenants
