import Flexi.Tenants.ProvisioningCalls

/-!
# The provisioning lifecycle (provisioning.service.ts)

The code of `TenantProvisioningService` for one attempt. `signal` says whether a
function was given the abort signal. Each call carries the part of the code that
awaits it.
-/

namespace Flexi.Tenants
open Flexi.Library

/-- `aborted` is what `signal.aborted` reads; the other fields are what `Date`
and the random generators yield. -/
structure Context where
  aborted : Bool
  now : ℕ
  newTenantId : TenantId
  newSetupToken : String

inductive Frame where
  | lifecycle
  | tenantCreation
  | tenantCreationFailed
  | step (step : StepName)
  | stepFailed (step : StepName)
  | audit
  | failure
  | timeout
  deriving DecidableEq, Repr

structure Call where
  frame : Frame
  op : Op

@[reducible] def Call.Res (c : Call) : Type := c.op.Res

abbrev Provisioning := Prog Call Call.Res Context ProvisioningError

def request (frame : Frame) (op : Op) : Provisioning op.Res :=
  Prog.await (Call.mk frame op)

def now : Provisioning ℕ := do
  let c ← Prog.read
  pure c.now

def throwIfProvisioningCancelled (signal : Bool) : Provisioning Unit := do
  let c ← Prog.read
  if signal && c.aborted then throw .cancelled else pure ()

def jobIdForAttempt (attemptId : String) : String := "tenant-provisioning-" ++ attemptId

/-! ### Recording outcomes -/

def updateAttemptSteps (frame : Frame) (status : AttemptStatus) (outcomes : List StepOutcome)
    (signal : Bool) : Provisioning Unit := do
  throwIfProvisioningCancelled signal
  request frame (.updateAttemptSteps status outcomes signal)

def updateAttemptStep (frame : Frame) (status : AttemptStatus) (outcome : StepOutcome)
    (signal : Bool) : Provisioning Unit :=
  updateAttemptSteps frame status [outcome] signal

def recordTenantCreationSuccess (frame : Frame) (tenant : Tenant) : Provisioning Unit := do
  let occurredAt ← now
  updateAttemptStep frame .provisioning
    { step := .tenant_creation, status := .succeeded, occurredAt := occurredAt,
      tenantId := some tenant.id, tenantSlug := some tenant.slug,
      tenantStatus := some tenant.status } false

def recordTenantCreationFailure (errorCode message : String) : Provisioning Unit := do
  let occurredAt ← now
  updateAttemptSteps .tenantCreationFailed .failed
    [{ step := .provisioning_start, status := .failed, occurredAt := occurredAt,
       errorCode := some errorCode, message := some message },
     { step := .tenant_creation, status := .failed, occurredAt := occurredAt,
       errorCode := some errorCode, message := some message }] false

/-- A step that records its outcome and rethrows: the shape `createTenantSchema`,
`bootstrapTenantSchema`, `bootstrapTenantSeed`, `assignFirstAdmin` and
`generateSetupLink` share. -/
def recordedStep {α : Type} (step : StepName) (tenantId : TenantId) (errorCode message : String)
    (signal : Bool) (work : Provisioning α) : Provisioning α :=
  tryCatch
    (do
      throwIfProvisioningCancelled signal
      let result ← work
      let occurredAt ← now
      updateAttemptStep (.step step) .provisioning
        { step := step, status := .succeeded, occurredAt := occurredAt,
          tenantId := some tenantId } signal
      pure result)
    fun error => do
      if error.isCancelled then
        throw error
      else
        let occurredAt ← now
        updateAttemptStep (.stepFailed step) .provisioning
          { step := step, status := .failed, occurredAt := occurredAt, tenantId := some tenantId,
            errorCode := some errorCode, message := some message } signal
        throw error

/-! ### The steps -/

def readAttemptSafePayload (js : JsText) (frame : Frame) : Provisioning (Option SafePayload) := do
  let payload ← request frame .readAttemptSafePayload
  pure (payload.bind (readSafePayload js))

def createTenantSchema (tenantId : TenantId) (signal : Bool) : Provisioning Unit :=
  recordedStep .schema_created tenantId "SCHEMA_CREATION_FAILED" "Tenant schema creation failed."
    signal (request (.step .schema_created) (.createSchema tenantId.schema))

def bootstrapTenantSchema (tenantId : TenantId) (signal : Bool) : Provisioning Unit :=
  recordedStep .bootstrap_migrated tenantId "BOOTSTRAP_MIGRATION_FAILED"
    "Tenant bootstrap migration failed." signal
    (request (.step .bootstrap_migrated) (.ensureMetaTables tenantId.schema))

def bootstrapTenantSeed (tenantId : TenantId) (signal : Bool) : Provisioning Unit :=
  recordedStep .bootstrap_seeded tenantId "BOOTSTRAP_SEED_FAILED" "Tenant bootstrap seed failed."
    signal (request (.step .bootstrap_seeded) (.bootstrapSeed tenantId.schema))

def assignFirstAdmin (js : JsText) (tenantId : TenantId) (signal : Bool) : Provisioning Unit :=
  recordedStep .first_admin_assigned tenantId "FIRST_ADMIN_ASSIGNMENT_FAILED"
    "First Admin assignment failed." signal (do
      let safePayload ← readAttemptSafePayload js (.step .first_admin_assigned)
      match safePayload with
      | none =>
        throw (.other "Attempt safe payload was not available for First Admin assignment.")
      | some payload =>
        request (.step .first_admin_assigned) (.assign tenantId payload.firstAdminEmail))

def generateSetupLink (tenantId : TenantId) (signal : Bool) : Provisioning String :=
  recordedStep .setup_link_generated tenantId "SETUP_LINK_GENERATION_FAILED"
    "Setup link generation failed." signal (do
      let c ← Prog.read
      request (.step .setup_link_generated) (.generate tenantId c.newSetupToken c.now)
      pure c.newSetupToken)

/-- The one step that never fails: what goes wrong is recorded, and a failure to
record is dropped. -/
def sendBackupEmail (js : JsText) (tenantId : TenantId) (setupToken : String) (signal : Bool) :
    Provisioning Unit := do
  let occurredAt ← now
  let failed (errorCode : String) : StepOutcome :=
    { step := .setup_email_sent, status := .failed, occurredAt := occurredAt,
      tenantId := some tenantId, errorCode := some errorCode,
      message := some "Backup setup email delivery failed." }
  tryCatch
    (do
      throwIfProvisioningCancelled signal
      let safePayload ← readAttemptSafePayload js (.step .setup_email_sent)
      match safePayload with
      | none =>
        throw (.other "Attempt safe payload was not available for backup email delivery.")
      | some payload =>
        let outcome ← request (.step .setup_email_sent)
          (.sendSetupInvite payload.firstAdminEmail payload.tenantName setupToken)
        updateAttemptStep (.step .setup_email_sent) .provisioning
          (if outcome.delivered then
            { step := .setup_email_sent, status := .succeeded, occurredAt := occurredAt,
              tenantId := some tenantId }
          else failed (outcome.errorCode.getD "SETUP_EMAIL_DELIVERY_FAILED")) signal)
    fun error => do
      if error.isCancelled then
        throw error
      else
        tryCatch
          (updateAttemptStep (.step .setup_email_sent) .provisioning
            (failed "SETUP_EMAIL_DELIVERY_FAILED") signal)
          fun recordError => if recordError.isCancelled then throw recordError else pure ()

def activation (tenantId : TenantId) (signal : Bool) : Provisioning Unit :=
  tryCatch
    (do
      throwIfProvisioningCancelled signal
      let count ← request (.step .activation) (.activate tenantId)
      if count = 0 then
        throw .activationBlocked
      else
        let tenant ← request (.step .activation) (.findUniqueOrThrow tenantId)
        let occurredAt ← now
        updateAttemptStep (.step .activation) .provisioning
          { step := .activation, status := .succeeded, occurredAt := occurredAt,
            tenantId := some tenant.id, tenantSlug := some tenant.slug,
            tenantStatus := some tenant.status } signal)
    fun error => do
      if error.isCancelled then
        throw error
      else
        let blocked := error = .activationBlocked
        let occurredAt ← now
        updateAttemptStep (.stepFailed .activation) .provisioning
          { step := .activation, status := .failed, occurredAt := occurredAt,
            tenantId := some tenantId,
            errorCode := some (if blocked then "ACTIVATION_BLOCKED_TENANT_FAILED"
              else "ACTIVATION_FAILED")
            message := some (if blocked then
              "Tenant activation was blocked because the tenant is already FAILED."
              else "Tenant activation failed.") } signal
        throw error

/-! ### The audit row -/

def finalizeAudit (frame : Frame) (tenantId : Option TenantId) (finalStatus : AttemptStatus)
    (compensation : Option (List CompensationOutcome)) (signal : Bool) : Provisioning Unit :=
  tryCatch
    (do
      throwIfProvisioningCancelled signal
      let attempt ← request frame .readAttemptAuditRow
      match attempt with
      | none => pure ()
      | some attempt =>
        request frame (.upsertAuditLog
          { tenantId := tenantId, actorIdentity := attempt.actorIdentity,
            requestIdentity := attempt.requestIdentity, safePayload := attempt.safePayload,
            stepOutcomes := attempt.stepOutcomes, compensation := compensation,
            finalStatus := finalStatus })
        let occurredAt ← now
        updateAttemptStep frame finalStatus
          { step := .audit_finalized, status := .succeeded, occurredAt := occurredAt,
            tenantId := tenantId } signal)
    fun error => if error.isCancelled then throw error else pure ()

/-! ### Compensation -/

/-- `FirstAdminService.deactivate` -/
def deactivate (tenantId : TenantId) : Provisioning Unit := do
  let _ ← request .failure (.findAdminRole tenantId)
  let user ← request .failure (.findTenantUser tenantId)
  request .failure (.deleteFirstAdmin tenantId user)

def runCompensationSubStep (step : StepName) (action : CompensationAction) (actionName : String)
    (run : Provisioning Unit) (identifiers : String) : Provisioning CompensationOutcome :=
  tryCatch
    (do
      run
      pure { step := step, action := action, status := .succeeded })
    fun _ => pure
      { step := step, action := action, status := .failed,
        detail := some (actionName ++ " failed and requires manual cleanup. Known identifiers: " ++
          identifiers ++ ".") }

/-- `firstAdminIds` is assigned only when `deactivate` returns, so a failure has
no ids to describe besides the tenant's. -/
def runCompensation (tenantId : TenantId) (stepOutcomes : List StepOutcome) :
    Provisioning (List CompensationOutcome) := do
  let revoked ← runCompensationSubStep .setup_link_generated .revoke_setup_tokens
    "revoke_setup_tokens"
    (do
      let c ← Prog.read
      request .failure (.revokeAll tenantId c.now))
    ("tenantId=" ++ tenantId.val)
  let deactivated ← runCompensationSubStep .first_admin_assigned .deactivate_first_admin
    "deactivate_first_admin" (deactivate tenantId) ("tenantId=" ++ tenantId.val)
  if succeeded stepOutcomes .schema_created then
    let dropped ← runCompensationSubStep .schema_created .drop_tenant_schema "drop_tenant_schema"
      (request .failure (.dropSchema tenantId.schema))
      ("tenantId=" ++ tenantId.val ++ ", schema=" ++ tenantId.schema)
    pure [revoked, deactivated, dropped]
  else
    pure [revoked, deactivated,
      { step := .schema_created, action := .drop_tenant_schema, status := .skipped,
        detail := some "schema_created never succeeded for this attempt." }]

def readAttemptStepOutcomes (frame : Frame) : Provisioning (List StepOutcome) := do
  let outcomes ← request frame .readAttemptStepOutcomes
  pure (outcomes.getD [])

def markTenantFailed (tenantId : TenantId) : Provisioning Unit :=
  tryCatch (request .failure (.markTenantFailed tenantId)) fun _ => pure ()

def handleProvisioningFailure (tenantId : TenantId) : Provisioning Unit :=
  tryCatch
    (do
      let stepOutcomes ← readAttemptStepOutcomes .failure
      let compensation ← runCompensation tenantId stepOutcomes
      if compensation.any fun outcome => outcome.status == .failed then
        finalizeAudit .failure (some tenantId) .failedNeedsManualCleanup (some compensation) false
      else
        markTenantFailed tenantId
        finalizeAudit .failure (some tenantId) .failed (some compensation) false)
    fun _ => pure ()

/-! ### The lifecycle -/

def provisionSteps (js : JsText) (tenantId : TenantId) (signal : Bool) : Provisioning Unit := do
  createTenantSchema tenantId signal
  bootstrapTenantSchema tenantId signal
  bootstrapTenantSeed tenantId signal
  assignFirstAdmin js tenantId signal
  let setupToken ← generateSetupLink tenantId signal
  sendBackupEmail js tenantId setupToken signal
  activation tenantId signal

def provisionTenantSchema (js : JsText) (tenantId : TenantId) (signal : Bool) :
    Provisioning Unit :=
  tryCatch
    (do
      provisionSteps js tenantId signal
      finalizeAudit .audit (some tenantId) .succeeded none signal)
    fun error => do
      if error.isCancelled then
        throw error
      else
        handleProvisioningFailure tenantId
        throw error

def createOrResolveTenant (attemptId : String) (safePayload : SafePayload) (signal : Bool) :
    Provisioning Tenant := do
  throwIfProvisioningCancelled signal
  let linkedTenant ← request .tenantCreation .findTenantByAttemptId
  match linkedTenant with
  | some tenant => pure tenant
  | none =>
    let c ← Prog.read
    request .tenantCreation
      (.insertTenant c.newTenantId safePayload.tenantName safePayload.tenantSlug attemptId)

/-- The tenant of a freshly claimed attempt, or `none` when the failure has been
recorded; a tenant that turned out to be this attempt's own is returned too. -/
def createTenant (attemptId : String) (safePayload : SafePayload) (signal : Bool) :
    Provisioning (Option Tenant) :=
  tryCatch
    (do
      let tenant ← createOrResolveTenant attemptId safePayload signal
      throwIfProvisioningCancelled signal
      recordTenantCreationSuccess .tenantCreation tenant
      pure (some tenant))
    fun error => do
      if error.isCancelled then
        throw error
      else if error.isUniqueConstraintViolation then
        let existingTenant ← request .tenantCreationFailed (.findTenantBySlug safePayload.tenantSlug)
        match existingTenant with
        | some tenant =>
          if tenant.onboardingAttemptId = some attemptId then
            recordTenantCreationSuccess .tenantCreationFailed tenant
            pure (some tenant)
          else
            recordTenantCreationFailure "TENANT_SLUG_CONFLICT" "Tenant slug is no longer available."
            pure none
        | none =>
          recordTenantCreationFailure "TENANT_SLUG_CONFLICT" "Tenant slug is no longer available."
          pure none
      else
        recordTenantCreationFailure "TENANT_CREATION_FAILED"
          "Tenant creation failed before activation."
        pure none

/-- The path of an attempt that no tenant is linked to. -/
def startFresh (js : JsText) (attemptId : String) (signal : Bool) : Provisioning Unit := do
  let occurredAt ← now
  let attempt ← request .lifecycle (.claimAttempt (jobIdForAttempt attemptId) occurredAt)
  match attempt with
  | none => pure ()
  | some attempt =>
    match readSafePayload js attempt.safePayload with
    | none =>
      recordTenantCreationFailure "INVALID_SAFE_PAYLOAD"
        "Accepted attempt payload was not safe to provision."
    | some safePayload =>
      let tenant ← createTenant attempt.id safePayload signal
      match tenant with
      | none => pure ()
      | some tenant => provisionTenantSchema js tenant.id signal

/-- The path of an attempt whose tenant exists. -/
def resume (js : JsText) (linkedTenant : Tenant) (signal : Bool) : Provisioning Unit := do
  let currentStatus ← request .lifecycle .readAttemptStatus
  if currentStatus = some .succeeded then
    pure ()
  else if currentStatus = some .failedNeedsManualCleanup then
    throw .manualCleanupRequired
  else do
    (if currentStatus = some .failed then request .lifecycle .resetAttemptStatusToProvisioning
      else pure ())
    throwIfProvisioningCancelled signal
    recordTenantCreationSuccess .lifecycle linkedTenant
    provisionTenantSchema js linkedTenant.id signal

def startLifecycle (js : JsText) (attemptId : String) (signal : Bool) : Provisioning Unit := do
  throwIfProvisioningCancelled signal
  let linkedTenant ← request .lifecycle .findTenantByAttemptId
  throwIfProvisioningCancelled signal
  match linkedTenant with
  | some tenant => resume js tenant signal
  | none => startFresh js attemptId signal

def recordProvisioningTimeout : Provisioning Unit := do
  let occurredAt ← now
  updateAttemptSteps .timeout .failed
    [{ step := .provisioning_start, status := .failed, occurredAt := occurredAt,
       errorCode := some "PROVISIONING_TIMEOUT",
       message := some "Tenant provisioning lifecycle start timed out." }] false
  let linkedTenant ← request .timeout .findTenantByAttemptId
  match linkedTenant with
  | none => finalizeAudit .timeout none .failed none false
  | some tenant => handleProvisioningFailure tenant.id

end Flexi.Tenants
