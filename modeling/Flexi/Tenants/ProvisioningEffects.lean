import Flexi.Tenants.ProvisioningCalls

/-!
# What an operation can change

Which parts of the database each operation writes, and that a failed operation
has written nothing.
-/

namespace Flexi.Tenants

namespace Op

def writesAttempt : Op → Bool
  | resetAttemptStatusToProvisioning | claimAttempt _ _ | updateAttemptSteps _ _ _ => true
  | _ => false

def writesTenant : Op → Bool
  | insertTenant _ _ _ _ | activate _ | markTenantFailed _ => true
  | _ => false

def writesSchemas : Op → Bool
  | createSchema _ | ensureMetaTables _ | bootstrapSeed _ | dropSchema _ => true
  | _ => false

def writesRows : Op → Bool
  | assign _ _ | generate _ _ _ | revokeAll _ _ | deleteFirstAdmin _ _ => true
  | _ => false

def writesAudit : Op → Bool
  | upsertAuditLog _ => true
  | _ => false

variable {op : Op} {outside : Outside} {aborted : Bool} {db db' : Database}

theorem perform_ok {a : op.Res} (h : op.perform outside aborted db = (.ok a, db')) :
    outside.fault = false ∧ op.effect outside aborted db = (.ok a, db') := by
  unfold perform at h
  cases hf : outside.fault with
  | true => simp [hf] at h
  | false => exact ⟨rfl, by simpa [hf] using h⟩

theorem perform_of_no_fault (h : outside.fault = false) :
    op.perform outside aborted db = op.effect outside aborted db := by
  simp [perform, h]

theorem perform_error {e : ProvisioningError}
    (h : op.perform outside aborted db = (.error e, db')) : db' = db := by
  unfold perform at h
  split at h
  · cases h
    rfl
  · cases op <;> simp only [effect, Database.resetAttemptStatusToProvisioning,
      Database.claimAttempt, Database.insertTenant, Database.updateAttemptSteps,
      Database.createSchema, Database.createTables, Database.assign, Database.generate,
      Database.revokeAll, Database.activate, Database.deleteFirstAdmin,
      Database.markTenantFailed] at h
    all_goals first
      | cases h
      | (split at h <;> first | (cases h; done) | (cases h; rfl) |
          (split at h <;> cases h))

theorem perform_not_cancelled {e : ProvisioningError}
    (h : op.perform outside false db = (.error e, db')) : e.isCancelled = false := by
  unfold perform at h
  split at h
  · cases h
    rfl
  · cases op <;> simp only [effect, Database.resetAttemptStatusToProvisioning,
      Database.claimAttempt, Database.insertTenant, Database.updateAttemptSteps,
      Database.createSchema, Database.createTables, Database.assign, Database.generate,
      Database.revokeAll, Database.activate, Database.deleteFirstAdmin,
      Database.markTenantFailed, Bool.and_false, Bool.false_eq_true, if_false] at h
    all_goals first
      | cases h
      | (split at h <;> first | (cases h; done) | (cases h; rfl) |
          (split at h <;> cases h))

/-! ### Frames -/

/-- Every operation writes only the parts it is listed for. -/
theorem perform_frame (op : Op) (outside : Outside) (aborted : Bool) (db : Database) :
    let db' := (op.perform outside aborted db).2
    (op.writesAttempt = false → db'.attempt = db.attempt) ∧
    (op.writesTenant = false → db'.tenant = db.tenant ∧ db'.otherTenants = db.otherTenants) ∧
    (op.writesSchemas = false → db'.schemas = db.schemas) ∧
    (op.writesRows = false → db'.rows = db.rows) ∧
    (op.writesAudit = false → db'.audit = db.audit) ∧
    db'.attempt.id = db.attempt.id ∧ db'.attempt.safePayload = db.attempt.safePayload ∧
    db'.systemUserEmails = db.systemUserEmails := by
  unfold perform
  split
  · simp
  · cases op <;> simp only [effect, Database.resetAttemptStatusToProvisioning,
      Database.claimAttempt, Database.insertTenant, Database.updateAttemptSteps,
      Database.createSchema, Database.createTables, Database.assign, Database.generate,
      Database.revokeAll, Database.activate, Database.deleteFirstAdmin,
      Database.markTenantFailed, Database.withAttempt, Database.withSchema, Database.withRows,
      Database.withTenantStatus, writesAttempt, writesTenant, writesSchemas, writesRows,
      writesAudit]
    all_goals first
      | (simp; done)
      | (split <;> first | (simp; done) | (split <;> simp))

theorem perform_attempt (h : op.writesAttempt = false) :
    (op.perform outside aborted db).2.attempt = db.attempt :=
  (perform_frame op outside aborted db).1 h

theorem perform_tenant (h : op.writesTenant = false) :
    (op.perform outside aborted db).2.tenant = db.tenant :=
  ((perform_frame op outside aborted db).2.1 h).1

theorem perform_otherTenants (h : op.writesTenant = false) :
    (op.perform outside aborted db).2.otherTenants = db.otherTenants :=
  ((perform_frame op outside aborted db).2.1 h).2

theorem perform_schemas (h : op.writesSchemas = false) :
    (op.perform outside aborted db).2.schemas = db.schemas :=
  (perform_frame op outside aborted db).2.2.1 h

theorem perform_rows (h : op.writesRows = false) :
    (op.perform outside aborted db).2.rows = db.rows :=
  (perform_frame op outside aborted db).2.2.2.1 h

theorem perform_attemptId : (op.perform outside aborted db).2.attempt.id = db.attempt.id :=
  (perform_frame op outside aborted db).2.2.2.2.2.1

theorem perform_safePayload :
    (op.perform outside aborted db).2.attempt.safePayload = db.attempt.safePayload :=
  (perform_frame op outside aborted db).2.2.2.2.2.2.1

theorem perform_systemUserEmails :
    (op.perform outside aborted db).2.systemUserEmails = db.systemUserEmails :=
  (perform_frame op outside aborted db).2.2.2.2.2.2.2

end Op

/-! ### The attempt's status -/

variable {db : Database} {status : AttemptStatus} {outcomes : List StepOutcome} {signal : Bool}

/-- A terminal status is always written by a live thread. -/
theorem updateAttemptSteps_terminal (h : status.isTerminal = true) :
    db.updateAttemptSteps false status outcomes signal =
      (.ok (), db.withAttempt fun attempt =>
        { attempt with
          status := status
          stepOutcomes := outcomes.foldl upsertStepOutcome attempt.stepOutcomes }) := by
  simp [Database.updateAttemptSteps, h]

end Flexi.Tenants
