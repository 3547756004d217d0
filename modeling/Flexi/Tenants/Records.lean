import Flexi.Tenancy.Identifiers
import Flexi.Tenants.Payload

/-!
# The rows of one onboarding attempt

The part of the database that the provisioning job of one attempt reads and
writes: the attempt and its audit row, the tenant linked to it, what exists for
that tenant, and the slugs other tenants hold.
-/

namespace Flexi.Tenants
open Flexi.Tenancy

/-- A tenant id the backend has made: `resolveTenantSchema` never refuses it. -/
abbrev TenantId := { id : String // (resolveTenantSchema id).toOption.isSome = true }

/-- The name `resolveTenantSchema` gives. -/
def TenantId.schema (tenantId : TenantId) : String := "tenant_" ++ tenantId.val

theorem TenantId.resolve (tenantId : TenantId) :
    resolveTenantSchema tenantId.val = .ok tenantId.schema := by
  have h := tenantId.property
  cases hr : resolveTenantSchema tenantId.val with
  | error e => simp [hr, Except.toOption] at h
  | ok schema =>
    simp only [resolveTenantSchema] at hr
    split_ifs at hr
    cases hr
    rfl

inductive AttemptStatus where
  | accepted | provisioning | failed | succeeded | failedNeedsManualCleanup
  deriving DecidableEq, Repr

/-- `isTerminal` of `updateAttemptSteps`. -/
def AttemptStatus.isTerminal : AttemptStatus → Bool
  | failed | succeeded | failedNeedsManualCleanup => true
  | accepted | provisioning => false

inductive TenantStatus where
  | PROVISIONING | ACTIVE | FAILED | SUSPENDED
  deriving DecidableEq, Repr

inductive StepName where
  | permission_check | payload_validation | slug_availability | attempt_reservation
  | provisioning_start | tenant_creation | schema_created | bootstrap_migrated | bootstrap_seeded
  | first_admin_assigned | setup_link_generated | setup_email_sent | activation | audit_finalized
  deriving DecidableEq, Repr

inductive StepStatus where
  | running | succeeded | failed
  deriving DecidableEq, Repr

structure StepOutcome where
  step : StepName
  status : StepStatus
  occurredAt : ℕ
  tenantId : Option TenantId := none
  tenantSlug : Option String := none
  tenantStatus : Option TenantStatus := none
  errorCode : Option String := none
  message : Option String := none
  deriving DecidableEq

/-- The first outcome of the same step is replaced. -/
def upsertStepOutcome : List StepOutcome → StepOutcome → List StepOutcome
  | [], outcome => [outcome]
  | item :: rest, outcome =>
    if item.step = outcome.step then outcome :: rest else item :: upsertStepOutcome rest outcome

/-- Whether a step is recorded as succeeded. -/
def succeeded (stepOutcomes : List StepOutcome) (step : StepName) : Bool :=
  stepOutcomes.any fun outcome => outcome.step == step && outcome.status == .succeeded

structure Attempt where
  id : String
  status : AttemptStatus
  provisioningJobId : Option String
  safePayload : Json
  actorIdentity : Json
  requestIdentity : Json
  stepOutcomes : List StepOutcome

structure Tenant where
  id : TenantId
  name : String
  slug : String
  status : TenantStatus
  onboardingAttemptId : Option String
  deriving DecidableEq

inductive CompensationAction where
  | revoke_setup_tokens | deactivate_first_admin | drop_tenant_schema
  deriving DecidableEq, Repr

inductive CompensationStatus where
  | succeeded | failed | skipped
  deriving DecidableEq, Repr

structure CompensationOutcome where
  step : StepName
  action : CompensationAction
  status : CompensationStatus
  detail : Option String := none
  deriving DecidableEq, Repr

/-- The `TenantOnboardingAuditLog` row of the attempt. -/
structure AuditLog where
  tenantId : Option TenantId
  actorIdentity : Json
  requestIdentity : Json
  safePayload : Json
  stepOutcomes : List StepOutcome
  compensation : Option (List CompensationOutcome)
  finalStatus : AttemptStatus

structure AuthAccount where
  id : ℕ
  email : String
  deriving DecidableEq, Repr

structure TenantUser where
  id : ℕ
  authAccountId : ℕ
  status : String
  roles : List ℕ
  deriving DecidableEq, Repr

/-- The tenant's `TENANT_ADMIN` role. -/
structure Role where
  id : ℕ
  permissions : List String
  deriving DecidableEq, Repr

structure SetupToken where
  token : String
  expiresAt : ℕ
  revokedAt : Option ℕ
  deriving DecidableEq, Repr

/-- The public-schema rows of one tenant. `authAccounts` are the accounts made
for its users. -/
structure TenantRows where
  tenantUsers : List TenantUser := []
  authAccounts : List AuthAccount := []
  adminRole : Option Role := none
  setupTokens : List SetupToken := []
  deriving DecidableEq, Repr

/-- `tenant` is the one row whose `onboardingAttemptId` is the attempt (the column
is unique). A schema is the list of its tables. `systemUserEmails` are the
addresses of system-level accounts and `tenantPermissions` the permissions of
scope `TENANT`. -/
structure Database where
  attempt : Attempt
  audit : Option AuditLog
  tenant : Option Tenant
  otherTenants : List Tenant
  schemas : String → Option (List String)
  rows : TenantId → TenantRows
  systemUserEmails : List String
  tenantPermissions : List String
  nextId : ℕ

/-- A tenant with this id or slug exists. -/
def Database.taken (db : Database) (id : TenantId) (slug : String) : Bool :=
  (db.tenant.toList ++ db.otherTenants).any fun row => row.id == id || row.slug == slug

end Flexi.Tenants
