import Flexi.Common.HttpError
import Flexi.Library.Reach
import Flexi.Library.ThreadPool
import Flexi.Tenants.Provisioning
import Flexi.Tenants.UniqueViolations

/-!
# Onboarding requests (tenants.service.ts, provisioning.service.ts)

`createOnboardingAttempt` over the table of attempts and the provisioning queue, with any
number of requests in flight. The worker moves attempts whose job is in the queue.
-/

namespace Flexi.Tenants.Onboarding
open Flexi.Library

/-! ### The request -/

/-- `TenantOnboardingActorIdentityDto` of a System user. -/
structure ActorIdentity where
  authAccountId : String
  systemUserId : String
  email : String
  name : String
  roles : List String
  permissions : List String
  deriving DecidableEq, Repr

/-- `TenantOnboardingRequestContext` -/
structure RequestContext where
  requestId : Option String
  ipAddress : Option String
  userAgent : Option String
  idempotencyKey : Option String
  deriving DecidableEq, Repr

/-- `TenantOnboardingRequestIdentityDto` -/
structure RequestIdentity where
  requestId : Option String
  ipAddress : Option String
  userAgent : Option String
  deriving DecidableEq, Repr

inductive IdempotencySource where
  | header
  | body
  deriving DecidableEq, Repr

/-- `TenantOnboardingIdempotencyIdentityDto` -/
structure IdempotencyIdentity where
  key : String
  source : IdempotencySource
  deriving DecidableEq, Repr

/-- The arguments of `createOnboardingAttempt`; `null` stands for a body that is not there. -/
structure Request where
  input : Json
  actorIdentity : ActorIdentity
  requestContext : RequestContext

def TENANT_ONBOARDING_IDEMPOTENCY_KEY_MIN_LENGTH : ℕ := 8
def TENANT_ONBOARDING_IDEMPOTENCY_KEY_MAX_LENGTH : ℕ := 128

/-- `TENANT_ONBOARDING_IDEMPOTENCY_KEY_PATTERN` -/
def matchesIdempotencyKeyPattern (key : String) : Bool :=
  key ≠ "" && key.toList.all fun c => c.isAlphanum || c ∈ ['.', '_', ':', '-']

def isTenantOnboardingIdempotencyKeyValid (key : String) : Bool :=
  TENANT_ONBOARDING_IDEMPOTENCY_KEY_MIN_LENGTH ≤ utf16Length key &&
    utf16Length key ≤ TENANT_ONBOARDING_IDEMPOTENCY_KEY_MAX_LENGTH && matchesIdempotencyKeyPattern key

/-- An empty key counts as none, also after `trim`. -/
def nonEmpty (key : String) : Option String := if key = "" then none else some key

def normalizeIdempotencyIdentity (input : Json) (requestContext : RequestContext) :
    Option IdempotencyIdentity :=
  match requestContext.idempotencyKey.bind fun key => nonEmpty (trim key) with
  | some headerKey => some ⟨headerKey, .header⟩
  | none => (nonEmpty (trimmedField input "idempotencyKey")).map fun bodyKey => ⟨bodyKey, .body⟩

def normalizeCreateRequest (js : JsText) (input : Json) : SafePayload := normalizePayload js input

/-- The error codes of the payload's fields and of the key. -/
def validationErrors (safePayload : SafePayload) (identity : Option IdempotencyIdentity) :
    List (String × String) :=
  validateTenantOnboardingInput safePayload ++
    match identity with
    | none => [("idempotencyKey", "IDEMPOTENCY_KEY_REQUIRED")]
    | some identity =>
      if isTenantOnboardingIdempotencyKeyValid identity.key then []
      else [("idempotencyKey", "IDEMPOTENCY_KEY_FORMAT")]

/-! ### The rows -/

/-- `TenantOnboardingAttemptRow`, with the columns that only the insert and the link name. -/
structure AttemptRow where
  id : String
  actorSystemUserId : Option String
  status : AttemptStatus
  safePayload : Json
  actorIdentity : ActorIdentity
  requestIdentity : RequestIdentity
  idempotencyKey : String
  idempotencyIdentity : IdempotencyIdentity
  stepOutcomes : List StepOutcome
  provisioningJobId : Option String
  createdAt : ℕ
  updatedAt : ℕ

structure SystemUser where
  id : String
  isActive : Bool
  deriving DecidableEq, Repr

/-- A job of the provisioning queue. -/
structure Job where
  jobId : String
  attemptId : String
  deriving DecidableEq, Repr

structure Database where
  systemUsers : List SystemUser
  tenantSlugs : List String
  attempts : List AttemptRow
  queue : List Job

/-- `TenantOnboardingAttemptDto` -/
structure AttemptDto where
  id : String
  status : AttemptStatus
  safePayload : Json
  actorIdentity : ActorIdentity
  requestIdentity : RequestIdentity
  idempotencyIdentity : IdempotencyIdentity
  replayed : Bool
  existingAttemptId : Option String
  stepOutcomes : List StepOutcome
  createdAt : ℕ
  updatedAt : ℕ

def mapOnboardingAttemptRow (attempt : AttemptRow) (replayed : Bool) : AttemptDto :=
  { id := attempt.id, status := attempt.status, safePayload := attempt.safePayload,
    actorIdentity := attempt.actorIdentity, requestIdentity := attempt.requestIdentity,
    idempotencyIdentity := attempt.idempotencyIdentity, replayed := replayed,
    existingAttemptId := if replayed then some attempt.id else none,
    stepOutcomes := attempt.stepOutcomes, createdAt := attempt.createdAt,
    updatedAt := attempt.updatedAt }

/-- `===` with a property of the stored payload. -/
def sameText (value : Option Json) (text : String) : Bool :=
  match value with
  | some (.str s) => s = text
  | _ => false

def safePayloadsMatch (existingPayload : Json) (safePayload : SafePayload) : Bool :=
  match existingPayload with
  | .obj _ =>
    sameText (existingPayload.get? "tenantName") safePayload.tenantName &&
      sameText (existingPayload.get? "tenantSlug") safePayload.tenantSlug &&
      sameText (existingPayload.get? "firstAdminEmail") safePayload.firstAdminEmail &&
      safePayload.plan.any (sameText (existingPayload.get? "plan"))
  | _ => false

/-! ### The calls -/

inductive OnboardingError where
  | http (error : HttpError) (fields : List (String × String)) (existingAttemptId : Option String)
  | database (error : JsValue)
  | other (message : String)

inductive Op where
  | findActiveSystemUser (id : String)
  | findOnboardingAttemptByIdempotencyKey (key : String)
  | findTenant (slug : String)
  | insertAttempt (row : AttemptRow)
  | linkJob (attemptId jobId : String)
  | addJob (attemptId jobId : String)

@[reducible] def Op.Res : Op → Type
  | findActiveSystemUser _ => Bool
  | findOnboardingAttemptByIdempotencyKey _ => Option AttemptRow
  | findTenant _ => Bool
  | insertAttempt _ => AttemptRow
  | linkJob _ _ => ℕ
  | addJob _ _ => Unit

/-- A call may be refused, or be executed and its answer be lost. -/
inductive Fault where
  | none
  | refused
  | lost
  deriving DecidableEq

/-- What PostgreSQL reports through Prisma's raw queries for a unique violation. -/
def uniqueViolation : JsValue :=
  .object true [("code", .string "P2010"), ("meta", .object false [("code", .string "23505")])]

def foreignKeyViolation : JsValue :=
  .object true [("code", .string "P2010"), ("meta", .object false [("code", .string "23503")])]

def connectionLost : JsValue := .object true [("code", .string "P1017")]

/-- The call's effect; `clock` is `CURRENT_TIMESTAMP`. The key is unique, as is the id. -/
def Op.effect (clock : ℕ) : (op : Op) → Database → Except OnboardingError op.Res × Database
  | findActiveSystemUser id, db => (.ok (db.systemUsers.any fun user => user.id = id && user.isActive), db)
  | findOnboardingAttemptByIdempotencyKey key, db =>
    (.ok (db.attempts.find? fun row => row.idempotencyKey = key), db)
  | findTenant slug, db => (.ok (db.tenantSlugs.any (· = slug)), db)
  | insertAttempt row, db =>
    if db.attempts.any fun old => old.id = row.id || old.idempotencyKey = row.idempotencyKey then
      (.error (.database uniqueViolation), db)
    else if row.actorSystemUserId.all fun id => db.systemUsers.any (·.id = id) then
      let row := { row with createdAt := clock, updatedAt := clock }
      (.ok row, { db with attempts := db.attempts ++ [row] })
    else (.error (.database foreignKeyViolation), db)
  | linkJob attemptId jobId, db =>
    let links (row : AttemptRow) := row.id = attemptId && row.provisioningJobId.all (· = jobId)
    (.ok (db.attempts.countP links),
      { db with
        attempts := db.attempts.map fun row =>
          if links row then { row with provisioningJobId := some jobId, updatedAt := clock } else row })
  | addJob attemptId jobId, db =>
    (.ok (), if db.queue.any (·.jobId = jobId) then db
      else { db with queue := db.queue ++ [⟨jobId, attemptId⟩] })

structure Outside where
  fault : Fault := .none

def Op.perform (clock : ℕ) (outside : Outside) (op : Op) (db : Database) :
    Except OnboardingError op.Res × Database :=
  match outside.fault with
  | .none => op.effect clock db
  | .refused => (.error (.database connectionLost), db)
  | .lost => (.error (.database connectionLost), (op.effect clock db).2)

/-! ### The code -/

/-- What `randomUUID` and the clock yield. -/
structure Context where
  newAttemptId : String
  now : ℕ

abbrev Service := Prog Op Op.Res Context OnboardingError

def request (op : Op) : Service op.Res := Prog.await op

def badRequest (fields : List (String × String)) : OnboardingError :=
  .http ⟨400, "VALIDATION_ERROR", ["Tenant onboarding request is invalid."]⟩ fields none

def forbidden : OnboardingError :=
  .http ⟨403, "FORBIDDEN", ["Tenant onboarding is only available to active System users."]⟩ [] none

def slugAlreadyInUse : OnboardingError :=
  .http ⟨409, "SLUG_ALREADY_IN_USE", ["Slug is already in use."]⟩ [] none

def idempotencyConflict (existingAttemptId : String) : OnboardingError :=
  .http ⟨409, "IDEMPOTENCY_CONFLICT",
    ["Idempotency key has already been used for a different onboarding payload."]⟩ []
    (some existingAttemptId)

def reservationPending : OnboardingError :=
  .http ⟨503, "ONBOARDING_RESERVATION_PENDING",
    ["Tenant onboarding reservation is still being finalized. Retry this request with the same idempotency key."]⟩
    [] none

def enqueueFailed : OnboardingError :=
  .http ⟨500, "PROVISIONING_ENQUEUE_FAILED",
    ["Tenant onboarding was accepted but provisioning could not be scheduled."]⟩ [] none

def enqueueAcceptedAttempt (attemptId : String) : Service Unit :=
  let jobId := jobIdForAttempt attemptId
  tryCatch
    (do
      let linkedRows ← request (.linkJob attemptId jobId)
      if linkedRows = 0 then
        throw (.other ("Attempt " ++ attemptId ++ " could not be linked to provisioning job " ++ jobId ++ "."))
      request (.addJob attemptId jobId))
    fun _ => throw enqueueFailed

def resolveExistingAttempt (existingAttempt : AttemptRow) (safePayload : SafePayload) :
    Service AttemptDto := do
  if !safePayloadsMatch existingAttempt.safePayload safePayload then
    throw (idempotencyConflict existingAttempt.id)
  if existingAttempt.status = .accepted then enqueueAcceptedAttempt existingAttempt.id
  pure (mapOnboardingAttemptRow existingAttempt true)

/-- One lookup after each delay; the pauses are between the calls. -/
def findWinningAttempt (key : String) : List ℕ → Service (Option AttemptRow)
  | [] => pure none
  | _ :: delays => do
    let winningAttempt ← request (.findOnboardingAttemptByIdempotencyKey key)
    match winningAttempt with
    | some row => pure (some row)
    | none => findWinningAttempt key delays

def ONBOARDING_ATTEMPT_VISIBILITY_RETRY_DELAYS_MS : List ℕ := [0, 10, 25]

def findWinningOnboardingAttemptAfterUniqueConflict (key : String) : Service (Option AttemptRow) :=
  findWinningAttempt key ONBOARDING_ATTEMPT_VISIBILITY_RETRY_DELAYS_MS

def newAttempt (r : Request) (safePayload : SafePayload) (identity : IdempotencyIdentity)
    (c : Context) : AttemptRow where
  id := c.newAttemptId
  actorSystemUserId := some r.actorIdentity.systemUserId
  status := .accepted
  safePayload := safePayload.toJson
  actorIdentity := r.actorIdentity
  requestIdentity :=
    ⟨r.requestContext.requestId, r.requestContext.ipAddress, r.requestContext.userAgent⟩
  idempotencyKey := identity.key
  idempotencyIdentity := identity
  stepOutcomes :=
    [.permission_check, .payload_validation, .slug_availability, .attempt_reservation].map fun step =>
      { step := step, status := .succeeded, occurredAt := c.now }
  provisioningJobId := none
  createdAt := 0
  updatedAt := 0

/-- `Number.prototype.toString` and `String.prototype.toLowerCase`. -/
structure Config where
  js : JsText
  numberToString : JsNumber → String

/-- The insert, and what follows a unique violation: `none` is a new attempt, a row the
winner's. -/
def reserveAttempt (cfg : Config) (row : AttemptRow) : Service (AttemptRow × Bool) :=
  tryCatch
    (do
      let attempt ← request (.insertAttempt row)
      pure (attempt, false))
    fun error => match error with
      | .database value =>
        if TenantsService.isUniqueConstraintViolation cfg.numberToString value then do
          let winningAttempt ← findWinningOnboardingAttemptAfterUniqueConflict row.idempotencyKey
          match winningAttempt with
          | some winner => pure (winner, true)
          | none => throw reservationPending
        else throw error
      | _ => throw error

@[irreducible] def createOnboardingAttempt (cfg : Config) (r : Request) : Service AttemptDto := do
  let safePayload := normalizeCreateRequest cfg.js r.input
  let identity := normalizeIdempotencyIdentity r.input r.requestContext
  match validationErrors safePayload identity, identity with
  | [], some identity => do
    let actorStillActive ← request (.findActiveSystemUser r.actorIdentity.systemUserId)
    if !actorStillActive then throw forbidden
    let existingAttempt ← request (.findOnboardingAttemptByIdempotencyKey identity.key)
    match existingAttempt with
    | some existingAttempt => resolveExistingAttempt existingAttempt safePayload
    | none => do
      let existingTenant ← request (.findTenant safePayload.tenantSlug)
      if existingTenant then throw slugAlreadyInUse
      let c ← Prog.read
      let (attempt, lost) ← reserveAttempt cfg (newAttempt r safePayload identity c)
      if lost then resolveExistingAttempt attempt safePayload
      else do
        enqueueAcceptedAttempt attempt.id
        pure (mapOnboardingAttemptRow attempt false)
  | [], none => throw (.other "Validated onboarding attempt is missing idempotency.")
  | fields, _ => throw (badRequest fields)

/-! ### Requests in flight -/

abbrev RequestThread := Thread Op Op.Res Context OnboardingError AttemptDto

abbrev InFlight := Flight Op Op.Res Context OnboardingError AttemptDto Request

/-- Requests stay in the list after they are answered. -/
structure Intake where
  db : Database
  requests : List InFlight
  clock : ℕ

/-- `progress` is a write of the worker, `tenants` and `users` are anything that happens to
the other tables. -/
inductive IntakeEvent where
  | arrive (r : Request) (c : Context)
  | execute (i : ℕ) (outside : Outside)
  | deliver (i : ℕ) (c : Context)
  | progress (attemptId : String) (status : AttemptStatus) (stepOutcomes : List StepOutcome)
  | tenants (slugs : List String)
  | users (systemUsers : List SystemUser)
  | tick (d : ℕ)

/-- The worker's write to an attempt. -/
def AttemptRow.progress (attemptId : String) (status : AttemptStatus)
    (stepOutcomes : List StepOutcome) (clock : ℕ) (row : AttemptRow) : AttemptRow :=
  if row.id = attemptId then
    { row with
      status := status
      stepOutcomes := stepOutcomes
      provisioningJobId := some (row.provisioningJobId.getD (jobIdForAttempt attemptId))
      updatedAt := clock }
  else row

def Intake.step (cfg : Config) (s : Intake) : IntakeEvent → Option Intake
  | .arrive r c => some { s with
      requests := s.requests ++
        [⟨r, (createOnboardingAttempt cfg r).advance { c with now := s.clock }⟩] }
  | .execute i outside => s.requests[i]?.bind fun f =>
    (f.thread.execute (Op.perform s.clock outside) s.db).map fun (thread, db) =>
      { s with db := db, requests := s.requests.set i ⟨f.request, thread⟩ }
  | .deliver i c => s.requests[i]?.bind fun f =>
    (f.thread.deliver { c with now := s.clock }).map fun thread =>
      { s with requests := s.requests.set i ⟨f.request, thread⟩ }
  | .progress attemptId status stepOutcomes =>
    if s.db.queue.any (·.attemptId = attemptId) then
      some { s with
        db := { s.db with
          attempts := s.db.attempts.map (.progress attemptId status stepOutcomes s.clock) } }
    else none
  | .tenants slugs => some { s with db := { s.db with tenantSlugs := slugs } }
  | .users systemUsers => some { s with db := { s.db with systemUsers := systemUsers } }
  | .tick d => some { s with clock := s.clock + d }

end Flexi.Tenants.Onboarding
