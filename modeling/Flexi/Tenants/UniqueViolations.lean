import Flexi.Common.JsValue
import Flexi.Tenants.ProvisioningEffects
import Flexi.Tenants.ProvisioningWorker

/-!
# Which errors are unique violations

`TenantProvisioningService` and `TenantsService` each have a matcher over a thrown
value; the first decides how a failed creation of a tenant is reported.
-/

namespace Flexi.Tenants
open Flexi.Library

/-! ### The two matchers -/

/-- A known request error of Prisma is matched by Prisma's code, anything else by
PostgreSQL's. -/
def TenantProvisioningService.isUniqueConstraintViolation : JsValue → Bool
  | .object true properties => ((JsValue.object true properties).property "code").isString "P2002"
  | .object false properties => ((JsValue.object false properties).property "code").isString "23505"
  | _ => false

namespace TenantsService

variable (numberToString : JsNumber → String)

def readErrorCode (error : JsValue) : Option String :=
  (error.property "code").text? numberToString

/-- `meta.code` or, where a driver adapter nests it,
`meta.driverAdapterError.cause.originalCode`. -/
def readRawQueryDatabaseErrorCode (error : JsValue) : Option String :=
  let errorMeta := error.property "meta"
  let directCode := readErrorCode numberToString errorMeta
  if directCode.any (· ≠ "") then directCode
  else
    let cause := (errorMeta.property "driverAdapterError").property "cause"
    (cause.property "originalCode").text? numberToString

def isUniqueConstraintViolation (error : JsValue) : Bool :=
  let errorCode := readErrorCode numberToString error
  if errorCode = some "P2002" ∨ errorCode = some "23505" then true
  else if errorCode ≠ some "P2010" then false
  else readRawQueryDatabaseErrorCode numberToString error = some "23505"

end TenantsService

/-! ### Where they differ -/

/-- The errors that only `TenantsService` takes for a unique violation: their code
reads as `P2002` or `23505` without being the string the provisioning service
compares with, or PostgreSQL's code is behind `P2010`. -/
def ReadByTenantsServiceOnly (numberToString : JsNumber → String) : JsValue → Prop
  | .object known properties =>
    let code := (JsValue.object known properties).property "code"
    let errorMeta := (JsValue.object known properties).property "meta"
    let vendorCode := (errorMeta.property "code").text? numberToString
    let originalCode := ((errorMeta.property "driverAdapterError").property "cause").property
      "originalCode"
    (code.text? numberToString = some "P2002" ∨ code.text? numberToString = some "23505") ∧
        code.isString (if known then "P2002" else "23505") = false ∨
      code.text? numberToString = some "P2010" ∧
        (vendorCode = some "23505" ∨
          (vendorCode = none ∨ vendorCode = some "") ∧
            originalCode.text? numberToString = some "23505")
  | _ => False

section Matchers

variable {numberToString : JsNumber → String}

theorem readRawQueryDatabaseErrorCode_eq_some (numberToString : JsNumber → String)
    (error : JsValue) {code : String} (hcode : code ≠ "") :
    TenantsService.readRawQueryDatabaseErrorCode numberToString error = some code ↔
      ((error.property "meta").property "code").text? numberToString = some code ∨
        (((error.property "meta").property "code").text? numberToString = none ∨
          ((error.property "meta").property "code").text? numberToString = some "") ∧
        ((((error.property "meta").property "driverAdapterError").property "cause").property
          "originalCode").text? numberToString = some code := by
  simp only [TenantsService.readRawQueryDatabaseErrorCode, TenantsService.readErrorCode]
  obtain hnone | ⟨direct, hdirect⟩ := Option.eq_none_or_eq_some
    (((error.property "meta").property "code").text? numberToString)
  · simp [hnone]
  · by_cases hempty : direct = ""
    · subst hempty
      simp [hdirect, Ne.symm hcode]
    · simp [hdirect, hempty]

/-- On an object both matchers read the property `code`. -/
theorem isUniqueConstraintViolation_object (known : Bool)
    (properties : List (String × JsValue)) :
    TenantProvisioningService.isUniqueConstraintViolation (.object known properties) =
      ((JsValue.object known properties).property "code").isString
        (if known then "P2002" else "23505") := by
  cases known <;> rfl

theorem isUniqueConstraintViolation_iff {error : JsValue} :
    TenantsService.isUniqueConstraintViolation numberToString error = true ↔
      TenantProvisioningService.isUniqueConstraintViolation error = true ∨
        ReadByTenantsServiceOnly numberToString error := by
  cases error with
  | object known properties =>
    have hvendor := readRawQueryDatabaseErrorCode_eq_some numberToString
      (.object known properties) (show "23505" ≠ "" by decide)
    rw [isUniqueConstraintViolation_object]
    simp only [TenantsService.isUniqueConstraintViolation, ReadByTenantsServiceOnly,
      TenantsService.readErrorCode]
    cases hseen : ((JsValue.object known properties).property "code").isString
        (if known then "P2002" else "23505") with
    | true =>
      -- the string compared with is one of the two that `TenantsService` accepts
      have htext := JsValue.text?_of_isString numberToString hseen
      cases known <;> simp_all
    | false =>
      by_cases hcode : ((JsValue.object known properties).property "code").text? numberToString =
          some "P2010"
      · simp [hcode, hvendor]
      · simp [hcode]
  | _ =>
    simp [TenantsService.isUniqueConstraintViolation, TenantsService.readErrorCode,
      TenantProvisioningService.isUniqueConstraintViolation, ReadByTenantsServiceOnly,
      JsValue.property, JsValue.text?]

theorem ReadByTenantsServiceOnly.not_provisioning {error : JsValue}
    (h : ReadByTenantsServiceOnly numberToString error) :
    TenantProvisioningService.isUniqueConstraintViolation error = false := by
  cases error with
  | object known properties =>
    rw [isUniqueConstraintViolation_object]
    rcases h with ⟨_, hother⟩ | ⟨hcode, _⟩
    · exact hother
    · by_contra hseen
      have htext := JsValue.text?_of_isString numberToString
        (Bool.not_eq_false _ ▸ hseen)
      rw [hcode] at htext
      cases known <;> simp at htext
  | _ => cases h

theorem isUniqueConstraintViolation_agrees {error : JsValue} :
    TenantProvisioningService.isUniqueConstraintViolation error =
        TenantsService.isUniqueConstraintViolation numberToString error ↔
      ¬ ReadByTenantsServiceOnly numberToString error := by
  rw [Bool.eq_iff_iff, isUniqueConstraintViolation_iff]
  constructor
  · intro hagree honly
    have hprovisioning := hagree.mpr (.inr honly)
    rw [honly.not_provisioning] at hprovisioning
    cases hprovisioning
  · intro hnot
    simp [hnot]

end Matchers

/-! ### A slug race -/

/-- The lifecycle's error for a thrown value: classified as the value is. -/
def ProvisioningError.Stands (e : ProvisioningError) (error : JsValue) : Prop :=
  e.isUniqueConstraintViolation = TenantProvisioningService.isUniqueConstraintViolation error

theorem ProvisioningError.stands_known {code : String} (hcode : code ≠ "23505")
    (properties : List (String × JsValue)) :
    (database (some code)).Stands (.object true (("code", .string code) :: properties)) := by
  rw [Stands, Bool.eq_iff_iff]
  simp [isUniqueConstraintViolation, hcode, isUniqueConstraintViolation_object,
    JsValue.property, JsValue.isString]

/-- The `i`-th statement of a run: `others i` is what other runs do before it. -/
def performAmong (others : ℕ → Database → Database) (outside : ℕ → Outside) (i : ℕ) (c : Call)
    (db : Database) : Except ProvisioningError c.Res × Database :=
  c.perform (outside i) false (others i db)

def createTenantAmong (others : ℕ → Database → Database) (outside : ℕ → Outside)
    (ctx : ℕ → Context) (attemptId : String) (safePayload : SafePayload) (signal : Bool)
    (db : Database) : Except ProvisioningError (Option Tenant) × Database :=
  (createTenant attemptId safePayload signal).eval ctx (performAmong others outside) 0 db

def Database.creationErrorCode (db : Database) : Option String :=
  (db.attempt.stepOutcomes.find? fun outcome => outcome.step == .tenant_creation).bind (·.errorCode)

/-- The attempt goes on with its own tenant, or its failure is a slug conflict. -/
def ConflictHandled (attemptId : String)
    (result : Except ProvisioningError (Option Tenant) × Database) : Prop :=
  (∃ tenant, result.1 = .ok (some tenant) ∧ tenant.onboardingAttemptId = some attemptId) ∨
    result.1 = .ok none ∧ result.2.creationErrorCode = some "TENANT_SLUG_CONFLICT"

/-- The failure is reported as any other. -/
def CreationFailed (result : Except ProvisioningError (Option Tenant) × Database) : Prop :=
  result.1 = .ok none ∧ result.2.creationErrorCode = some "TENANT_CREATION_FAILED"

theorem ConflictHandled.not_creationFailed {attemptId : String}
    {result : Except ProvisioningError (Option Tenant) × Database}
    (h : ConflictHandled attemptId result) : ¬ CreationFailed result := by
  intro hfailed
  rcases h with ⟨tenant, htenant, _⟩ | ⟨_, hcode⟩
  · rw [hfailed.1] at htenant
    cases htenant
  · rw [hfailed.2] at hcode
    simp at hcode

theorem find?_upsertStepOutcome (outcomes : List StepOutcome) (outcome : StepOutcome) :
    (upsertStepOutcome outcomes outcome).find? (fun item => item.step == outcome.step) =
      some outcome := by
  induction outcomes with
  | nil => simp [upsertStepOutcome]
  | cons item rest ih =>
    by_cases hstep : item.step = outcome.step
    · simp [upsertStepOutcome, hstep]
    · simp [upsertStepOutcome, hstep, ih]

theorem updateAttemptSteps_fst (db : Database) (aborted : Bool) (status : AttemptStatus)
    (outcomes : List StepOutcome) :
    (db.updateAttemptSteps aborted status outcomes false).1 = .ok () := by
  simp only [Database.updateAttemptSteps, Bool.false_and, Bool.false_eq_true, if_false]
  split <;> rfl

/-- A failure is terminal, so it is recorded whatever the attempt's status is. -/
theorem creationErrorCode_updateAttemptSteps (db : Database) (before outcome : StepOutcome)
    (hstep : outcome.step = .tenant_creation) :
    (db.updateAttemptSteps false .failed [before, outcome] false).2.creationErrorCode =
      outcome.errorCode := by
  have hfind := find?_upsertStepOutcome (upsertStepOutcome db.attempt.stepOutcomes before) outcome
  rw [hstep] at hfind
  rw [updateAttemptSteps_terminal rfl]
  simp only [Database.creationErrorCode, Database.withAttempt, List.foldl_cons, List.foldl_nil,
    hfind, Option.bind_some]

/-- The lookup finds no tenant of the attempt, and yet the insert meets one, or a
tenant with its slug. -/
structure Raced (others : ℕ → Database → Database) (ctx : ℕ → Context) (safePayload : SafePayload)
    (db : Database) : Prop where
  free : (others 0 db).tenant = none
  taken : (others 1 (others 0 db)).taken (ctx 1).newTenantId safePayload.tenantSlug = true ∨
    (others 1 (others 0 db)).tenant.isSome = true

section Race

variable {others : ℕ → Database → Database} {outside : ℕ → Outside} {ctx : ℕ → Context}
  {attemptId : String} {safePayload : SafePayload} {signal : Bool} {db : Database}
  (hfault : ∀ i, (outside i).fault = false)

include hfault

theorem performAmong_eq (i : ℕ) (frame : Frame) (op : Op) (db : Database) :
    performAmong others outside i ⟨frame, op⟩ db = op.effect (outside i) false (others i db) := by
  simp [performAmong, Call.perform, Op.perform, hfault i]

/-- A creation that is given up, with its error code. -/
def creationGivenUp (errorCode message : String) : Provisioning (Option Tenant) := do
  recordTenantCreationFailure errorCode message
  pure none

theorem creationGivenUp_eval (i : ℕ) (errorCode message : String) (db : Database) :
    ((creationGivenUp errorCode message).eval ctx (performAmong others outside) i db).1 = .ok none ∧
      ((creationGivenUp errorCode message).eval ctx (performAmong others outside) i
        db).2.creationErrorCode = some errorCode := by
  simp only [creationGivenUp, recordTenantCreationFailure, updateAttemptSteps, now,
    throwIfProvisioningCancelled, request, Prog.await, Prog.read, Prog.pure_eq, Prog.ask_bind,
    Prog.ret_bind, Prog.call_bind, Prog.eval, Bool.false_and, Bool.false_eq_true, if_false,
    performAmong_eq hfault, Op.effect, updateAttemptSteps_fst]
  exact ⟨trivial, creationErrorCode_updateAttemptSteps (others i db)
    { step := .provisioning_start, status := .failed, occurredAt := (ctx i).now,
      errorCode := some errorCode, message := some message }
    { step := .tenant_creation, status := .failed, occurredAt := (ctx i).now,
      errorCode := some errorCode, message := some message } rfl⟩

/-- A creation that goes on with a tenant that is there. -/
def creationTakenUp (tenant : Tenant) : Provisioning (Option Tenant) := do
  recordTenantCreationSuccess .tenantCreationFailed tenant
  pure (some tenant)

theorem creationTakenUp_eval (i : ℕ) (tenant : Tenant) (db : Database) :
    ((creationTakenUp tenant).eval ctx (performAmong others outside) i db).1 =
      .ok (some tenant) := by
  simp only [creationTakenUp, recordTenantCreationSuccess, updateAttemptStep, updateAttemptSteps,
    now, throwIfProvisioningCancelled, request, Prog.await, Prog.read, Prog.pure_eq, Prog.ask_bind,
    Prog.ret_bind, Prog.call_bind, Prog.eval, Bool.false_and, Bool.false_eq_true, if_false,
    performAmong_eq hfault, Op.effect, updateAttemptSteps_fst]

theorem createTenantAmong_raced (hsignal : (signal && (ctx 0).aborted) = false)
    (h : Raced others ctx safePayload db) :
    createTenantAmong others outside ctx attemptId safePayload signal db =
      (if (ProvisioningError.database
          (some (outside 1).uniqueViolation)).isUniqueConstraintViolation
        then (do
          let existingTenant ← request .tenantCreationFailed
            (.findTenantBySlug safePayload.tenantSlug)
          match existingTenant with
          | some tenant =>
            if tenant.onboardingAttemptId = some attemptId then creationTakenUp tenant
            else creationGivenUp "TENANT_SLUG_CONFLICT" "Tenant slug is no longer available."
          | none =>
            creationGivenUp "TENANT_SLUG_CONFLICT" "Tenant slug is no longer available.")
        else creationGivenUp "TENANT_CREATION_FAILED" "Tenant creation failed before activation."
        : Provisioning (Option Tenant)).eval ctx (performAmong others outside) 2
          (others 1 (others 0 db)) := by
  have hinsert : (others 1 (others 0 db)).insertTenant (outside 1).uniqueViolation
      (ctx 1).newTenantId safePayload.tenantName safePayload.tenantSlug attemptId =
        (.error (.database (some (outside 1).uniqueViolation)), others 1 (others 0 db)) := by
    simp [Database.insertTenant, h.taken]
  simp only [createTenantAmong, createTenant, createOrResolveTenant, throwIfProvisioningCancelled,
    request, Prog.await, Prog.read, Prog.pure_eq, Prog.ask_bind, Prog.ret_bind, Prog.call_bind,
    tryCatch, tryCatchThe, MonadExceptOf.tryCatch, Prog.tryCatch, Prog.eval, hsignal,
    Bool.false_eq_true, if_false, performAmong_eq hfault, Op.effect, h.free]
  simp only [Nat.zero_add, hinsert, Prog.throw_bind, Prog.tryCatch, ProvisioningError.isCancelled]
  rfl

/-- The catch block tells a slug conflict by its classification of the error. -/
theorem conflictHandled_iff (attemptId : String) {error : JsValue}
    (hsignal : (signal && (ctx 0).aborted) = false)
    (h : Raced others ctx safePayload db)
    (herror : (ProvisioningError.database (some (outside 1).uniqueViolation)).Stands error) :
    let result := createTenantAmong others outside ctx attemptId safePayload signal db
    if TenantProvisioningService.isUniqueConstraintViolation error then
      ConflictHandled attemptId result else CreationFailed result := by
  simp only [createTenantAmong_raced hfault hsignal h, show _ = _ from herror]
  cases hclass : TenantProvisioningService.isUniqueConstraintViolation error with
  | false => exact creationGivenUp_eval hfault 2 _ _ _
  | true =>
    simp only [if_true, request, Prog.await, Prog.call_bind, Prog.eval, performAmong_eq hfault,
      Op.effect, Prog.ret_bind]
    generalize ((others 2 (others 1 (others 0 db))).tenant.toList ++
      (others 2 (others 1 (others 0 db))).otherTenants).find?
        (fun row => row.slug == safePayload.tenantSlug) = existing
    cases existing with
    | none => exact .inr (creationGivenUp_eval hfault 3 _ _ _)
    | some tenant =>
      by_cases howner : tenant.onboardingAttemptId = some attemptId
      · simp only [howner, if_true]
        exact .inl ⟨tenant, creationTakenUp_eval hfault 3 tenant _, howner⟩
      · simp only [howner, if_false]
        exact .inr (creationGivenUp_eval hfault 3 _ _ _)

end Race

/-! ### The classifications compared -/

/-- The two services class an error alike exactly when `TenantsService` has no reading
of its own, and exactly then is a slug race met with this error handled as one. -/
theorem unique_violations_classified_alike (numberToString : JsNumber → String) (error : JsValue) :
    (TenantProvisioningService.isUniqueConstraintViolation error =
        TenantsService.isUniqueConstraintViolation numberToString error ↔
      ¬ ReadByTenantsServiceOnly numberToString error) ∧
    (TenantsService.isUniqueConstraintViolation numberToString error = true →
      ∀ (others : ℕ → Database → Database) (outside : ℕ → Outside) (ctx : ℕ → Context)
        (attemptId : String) (safePayload : SafePayload) (signal : Bool) (db : Database),
        (∀ i, (outside i).fault = false) → (signal && (ctx 0).aborted) = false →
        Raced others ctx safePayload db →
        (ProvisioningError.database (some (outside 1).uniqueViolation)).Stands error →
        let result := createTenantAmong others outside ctx attemptId safePayload signal db
        (ConflictHandled attemptId result ↔ ¬ ReadByTenantsServiceOnly numberToString error) ∧
          (CreationFailed result ↔ ReadByTenantsServiceOnly numberToString error)) := by
  refine ⟨isUniqueConstraintViolation_agrees, ?_⟩
  intro hviolation others outside ctx attemptId safePayload signal db hfault hsignal hraced hstands
    result
  have hhandled := conflictHandled_iff hfault attemptId hsignal hraced hstands
  have hexcl : ConflictHandled attemptId result → ¬ CreationFailed result :=
    ConflictHandled.not_creationFailed
  by_cases honly : ReadByTenantsServiceOnly numberToString error
  · simp only [honly.not_provisioning, Bool.false_eq_true, if_false] at hhandled
    exact ⟨⟨fun h => absurd hhandled (hexcl h), fun h => absurd honly h⟩,
      ⟨fun _ => honly, fun _ => hhandled⟩⟩
  · have hclass := (isUniqueConstraintViolation_iff.mp hviolation).resolve_right honly
    simp only [hclass, if_true] at hhandled
    exact ⟨⟨fun _ => honly, fun _ => hhandled⟩,
      ⟨fun h => absurd h (hexcl hhandled), fun h => absurd h honly⟩⟩

/-! ### A race for the slug `acme` -/

def rivalTenant : Tenant := ⟨⟨"c2", by decide +kernel⟩, "Acme", "acme", .ACTIVE, some "attempt-2"⟩

/-- Another attempt takes the slug between the lookup and the insert. -/
def rivalInserts (i : ℕ) (db : Database) : Database :=
  if i = 1 then { db with otherTenants := rivalTenant :: db.otherTenants } else db

theorem rivalInserts_raced :
    Raced rivalInserts (fun _ => acmeContext) acmePayload acmeAccepted where
  free := rfl
  taken := by decide

/-- `P2002`, as the model's own methods report a duplicate. -/
def modelError : JsValue := .object true [("code", .string "P2002")]

/-- What `$queryRaw` reports of a duplicate. -/
def rawError : JsValue :=
  .object true [("code", .string "P2010"), ("meta", .object false [("code", .string "23505")])]

theorem unique_violations_classified_alike_P2002 :
    TenantProvisioningService.isUniqueConstraintViolation modelError =
        TenantsService.isUniqueConstraintViolation (fun _ => "0") modelError ∧
      ConflictHandled "attempt-1"
        (createTenantAmong rivalInserts (fun _ => { quietOutside with uniqueViolation := "P2002" })
          (fun _ => acmeContext) "attempt-1" acmePayload true acmeAccepted) := by
  have hnot : ¬ ReadByTenantsServiceOnly (fun _ => "0") modelError := by
    simp [ReadByTenantsServiceOnly, modelError, JsValue.property, JsValue.text?, JsValue.isString]
  have hboth := unique_violations_classified_alike (fun _ => "0") modelError
  refine ⟨hboth.1.mpr hnot,
      ((hboth.2 ?_ _ _ _ _ _ _ _ (fun _ => rfl) rfl rivalInserts_raced ?_).1).mpr
    hnot⟩
  · simp [TenantsService.isUniqueConstraintViolation, TenantsService.readErrorCode, modelError,
      JsValue.property, JsValue.text?]
  · exact ProvisioningError.stands_known (by decide) []

/-- The duplicate that `$queryRaw` reports is no conflict to the provisioning service. -/
theorem raw_duplicate_not_a_conflict :
    TenantsService.isUniqueConstraintViolation (fun _ => "0") rawError = true ∧
      TenantProvisioningService.isUniqueConstraintViolation rawError = false ∧
      CreationFailed
        (createTenantAmong rivalInserts (fun _ => quietOutside) (fun _ => acmeContext) "attempt-1"
          acmePayload true acmeAccepted) := by
  have hclass : TenantProvisioningService.isUniqueConstraintViolation rawError = false := by
    simp [rawError, isUniqueConstraintViolation_object, JsValue.property, JsValue.isString]
  have hstands : (ProvisioningError.database (some "P2010")).Stands rawError :=
    ProvisioningError.stands_known (by decide) _
  have hfault : ∀ i : ℕ, ((fun _ => quietOutside) i).fault = false := fun _ => rfl
  have hsignal : (true && acmeContext.aborted) = false := rfl
  have hfailed := conflictHandled_iff hfault "attempt-1" hsignal rivalInserts_raced hstands
  refine ⟨?_, hclass, ?_⟩
  · simp [TenantsService.isUniqueConstraintViolation, TenantsService.readErrorCode, rawError,
      TenantsService.readRawQueryDatabaseErrorCode, JsValue.property, JsValue.text?]
  · rw [hclass] at hfailed
    exact hfailed

end Flexi.Tenants
