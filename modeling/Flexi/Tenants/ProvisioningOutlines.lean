import Flexi.Library.RelyGuarantee
import Flexi.Tenants.Provisioning
import Flexi.Tenants.ProvisioningEffects

/-!
# Outlines of the lifecycle

The proof rules of a live run: what its calls are, and how the shape that the
steps, the audit and the compensation share carries assertions along.
-/

namespace Flexi.Tenants
open Flexi.Library

/-- What a live thread works under: what it may read, which executions of its calls
the environment admits, one step of anyone else, and what its own executions
keep. -/
structure Regime where
  reads : Context → Prop := fun _ => True
  admits : Call → Database → Outside → Prop
  interfere : Database → Database → Prop
  guarantee : Database → Database → Prop

def Regime.rules (R : Regime) : Rules Call Call.Res Context ProvisioningError Database where
  sees c := c.aborted = false ∧ R.reads c
  exec c db db' r := ∃ outside, R.admits c db outside ∧ c.op.perform outside false db = (r, db')
  interfere := R.interfere
  guarantee := R.guarantee

def Regime.Stable (R : Regime) (P : Database → Prop) : Prop := R.rules.Stable P

/-- A live run throws no cancellation. -/
def Thrown (F : Database → Prop) (e : ProvisioningError) (db : Database) : Prop :=
  e.isCancelled = false ∧ F db

theorem Regime.Stable.thrown {R : Regime} {F : Database → Prop} (h : R.Stable F)
    (e : ProvisioningError) : R.Stable (Thrown F e) :=
  fun s s' hs hi => ⟨hs.1, h s s' hs.2 hi⟩

/-! ### Single calls -/

section
variable {R : Regime} {P F : Database → Prop} {E : ProvisioningError → Database → Prop}

theorem outline_request {f : Frame} {op : Op} {Q : op.Res → Database → Prop} (hP : R.Stable P)
    (hQ : ∀ a, R.Stable (Q a)) (hF : R.Stable F) (refl : ∀ db, R.guarantee db db)
    (ok : ∀ db db' a outside, P db → R.admits ⟨f, op⟩ db outside →
      op.perform outside false db = (.ok a, db') → R.guarantee db db' ∧ Q a db')
    (error : ∀ db e outside, P db → R.admits ⟨f, op⟩ db outside →
      op.perform outside false db = (.error e, db) → F db) :
    Outline R.rules P (request f op) Q (Thrown F) := by
  apply Outline.await hP hQ (hF.thrown ·)
  · intro db db' a hdb hx
    obtain ⟨outside, hok, hx⟩ := hx
    exact ok db db' a outside hdb hok hx
  · intro db db' e hdb hx
    obtain ⟨outside, hok, hx⟩ := hx
    obtain rfl := Op.perform_error hx
    exact ⟨refl _, Op.perform_not_cancelled hx, error _ e outside hdb hok hx⟩

theorem outline_now : Outline R.rules P now (fun _ => P) E :=
  fun _ hs _ _ => hs

theorem outline_throwIfProvisioningCancelled {signal : Bool} :
    Outline R.rules P (throwIfProvisioningCancelled signal) (fun _ => P) E := by
  intro db hdb c hc
  show Safe R.rules (fun _ => P) E (if signal && c.aborted then throw .cancelled else pure ()) db
  rw [if_neg (by simp [hc.1])]
  exact hdb

theorem outline_updateAttemptStep {f : Frame} {status : AttemptStatus} {outcome : StepOutcome}
    {signal : Bool} {Q : Database → Prop}
    (h : Outline R.rules P (request f (.updateAttemptSteps status [outcome] signal)) (fun _ => Q)
      E) : Outline R.rules P (updateAttemptStep f status outcome signal) (fun _ => Q) E :=
  Outline.bind outline_throwIfProvisioningCancelled fun _ => h

/-- The shape of the recorded steps: `M` is what the work achieves, `F` what is
left when the work or the record of its success fails. -/
theorem outline_recordedStep {α : Type} {step : StepName} {tenantId : TenantId}
    {errorCode message : String} {signal : Bool} {work : Provisioning α}
    {M Q : α → Database → Prop} {G : Database → Prop}
    (hwork : Outline R.rules P work M (Thrown F))
    (success : ∀ a outcome, outcome.step = step → outcome.status = .succeeded →
      Outline R.rules (M a) (request (.step step)
        (.updateAttemptSteps .provisioning [outcome] signal)) (fun _ => Q a) (Thrown F))
    (failure : ∀ outcome, outcome.step = step → outcome.status = .failed →
      Outline R.rules F (request (.stepFailed step)
        (.updateAttemptSteps .provisioning [outcome] signal)) (fun _ => G) (Thrown G)) :
    Outline R.rules P (recordedStep step tenantId errorCode message signal work) Q (Thrown G) := by
  refine Outline.tryCatch (M := Thrown F) ?_ ?_
  · refine Outline.bind outline_throwIfProvisioningCancelled fun _ => ?_
    refine Outline.bind hwork fun a => ?_
    refine Outline.bind outline_now fun occurredAt => ?_
    refine Outline.bind (outline_updateAttemptStep (success a _ rfl rfl)) fun _ => ?_
    exact Outline.pure fun _ h => h
  · intro e db hdb
    simp only [hdb.1, Bool.false_eq_true, if_false]
    have hrecord : Outline R.rules F
        (do
          let occurredAt ← now
          updateAttemptStep (.stepFailed step) .provisioning
            { step := step, status := .failed, occurredAt := occurredAt,
              tenantId := some tenantId, errorCode := some errorCode, message := some message }
            signal
          throw e) Q (Thrown G) := by
      refine Outline.bind outline_now fun occurredAt => ?_
      refine Outline.bind (outline_updateAttemptStep (failure _ rfl rfl)) fun _ => ?_
      exact Outline.throw fun _ h => ⟨hdb.1, h⟩
    exact hrecord db hdb.2

end

/-! ### The calls of each part -/

/-- The calls a live run of a program can make. -/
abbrev Provisioning.LiveCalls {α : Type} (H : Call → Prop) (p : Provisioning α) : Prop :=
  Prog.Calls (fun c : Context => c.aborted = false) (fun e => e.isCancelled = false) H p

theorem outline_of_calls {R : Regime} {P : Database → Prop} {α : Type} {H : Call → Prop}
    {p : Provisioning α} (hp : p.LiveCalls H) (hP : R.Stable P)
    (keep : ∀ c db outside, H c → P db → R.admits c db outside →
      R.guarantee db (c.op.perform outside false db).2 ∧ P (c.op.perform outside false db).2) :
    Outline R.rules P p (fun _ => P) (Thrown P) := by
  refine Outline.of_calls hp ?_ hP ?_ ?_
  · intro c hc
    exact hc.1
  · intro c db db' e hx
    obtain ⟨outside, _, hx⟩ := hx
    exact Op.perform_not_cancelled hx
  · intro c db db' r hc hdb hx
    obtain ⟨outside, hok, hx⟩ := hx
    have h := keep c db outside hc hdb hok
    rw [hx] at h
    exact h

/-- The calls of the steps before the audit. -/
inductive StepCall (tenantId : TenantId) : Call → Prop
  | record {frame : Frame} {outcome : StepOutcome} {signal : Bool} :
      StepCall tenantId ⟨frame, .updateAttemptSteps .provisioning [outcome] signal⟩
  | createSchema : StepCall tenantId ⟨.step .schema_created, .createSchema tenantId.schema⟩
  | ensureMetaTables :
      StepCall tenantId ⟨.step .bootstrap_migrated, .ensureMetaTables tenantId.schema⟩
  | bootstrapSeed : StepCall tenantId ⟨.step .bootstrap_seeded, .bootstrapSeed tenantId.schema⟩
  | readAttemptSafePayload {step : StepName} :
      StepCall tenantId ⟨.step step, .readAttemptSafePayload⟩
  | assign {email : String} :
      StepCall tenantId ⟨.step .first_admin_assigned, .assign tenantId email⟩
  | generate {setupToken : String} {now : ℕ} :
      StepCall tenantId ⟨.step .setup_link_generated, .generate tenantId setupToken now⟩
  | sendSetupInvite {email tenantName setupToken : String} :
      StepCall tenantId ⟨.step .setup_email_sent, .sendSetupInvite email tenantName setupToken⟩
  | activate : StepCall tenantId ⟨.step .activation, .activate tenantId⟩
  | findUniqueOrThrow : StepCall tenantId ⟨.step .activation, .findUniqueOrThrow tenantId⟩

/-- The calls of `handleProvisioningFailure` before the audit. -/
inductive CompensationCall (tenantId : TenantId) : Call → Prop
  | readAttemptStepOutcomes : CompensationCall tenantId ⟨.failure, .readAttemptStepOutcomes⟩
  | revokeAll {now : ℕ} : CompensationCall tenantId ⟨.failure, .revokeAll tenantId now⟩
  | findAdminRole : CompensationCall tenantId ⟨.failure, .findAdminRole tenantId⟩
  | findTenantUser : CompensationCall tenantId ⟨.failure, .findTenantUser tenantId⟩
  | deleteFirstAdmin {user : Option FirstAdminIds} :
      CompensationCall tenantId ⟨.failure, .deleteFirstAdmin tenantId user⟩
  | dropSchema : CompensationCall tenantId ⟨.failure, .dropSchema tenantId.schema⟩
  | markTenantFailed : CompensationCall tenantId ⟨.failure, .markTenantFailed tenantId⟩

section
variable {H : Call → Prop} {tenantId : TenantId} {signal : Bool}

theorem throwIfProvisioningCancelled_calls :
    (throwIfProvisioningCancelled signal).LiveCalls H := by
  intro c hc
  show (if signal && c.aborted then throw .cancelled else pure () : Provisioning Unit).LiveCalls H
  rw [if_neg (by simp [hc])]
  trivial

theorem now_calls : now.LiveCalls H := fun _ _ => trivial

theorem request_calls {f : Frame} {op : Op} (h : H ⟨f, op⟩) : (request f op).LiveCalls H :=
  Prog.Calls.await h

theorem updateAttemptSteps_calls {f : Frame} {status : AttemptStatus}
    {outcomes : List StepOutcome} (h : H ⟨f, .updateAttemptSteps status outcomes signal⟩) :
    (updateAttemptSteps f status outcomes signal).LiveCalls H :=
  .bind throwIfProvisioningCancelled_calls fun _ => request_calls h

theorem recordedStep_calls {α : Type} {step : StepName} {errorCode message : String}
    {work : Provisioning α} (hwork : work.LiveCalls (StepCall tenantId)) :
    (recordedStep step tenantId errorCode message signal work).LiveCalls (StepCall tenantId) := by
  refine .tryCatch ?_ ?_
  · refine .bind throwIfProvisioningCancelled_calls fun _ => .bind hwork fun a => ?_
    refine .bind now_calls fun occurredAt => ?_
    exact .bind (updateAttemptSteps_calls .record) fun _ => .pure
  · intro e he
    simp only [he, Bool.false_eq_true, if_false]
    refine .bind now_calls fun occurredAt => ?_
    exact .bind (updateAttemptSteps_calls .record) fun _ => .throw he

theorem readAttemptSafePayload_calls {js : JsText} {step : StepName} :
    (readAttemptSafePayload js (.step step)).LiveCalls (StepCall tenantId) :=
  .bind (request_calls .readAttemptSafePayload) fun _ => .pure

theorem assignFirstAdmin_calls {js : JsText} :
    (assignFirstAdmin js tenantId signal).LiveCalls (StepCall tenantId) := by
  refine recordedStep_calls (.bind readAttemptSafePayload_calls fun payload => ?_)
  cases payload with
  | none => exact .throw rfl
  | some payload => exact request_calls .assign

theorem generateSetupLink_calls :
    (generateSetupLink tenantId signal).LiveCalls (StepCall tenantId) :=
  recordedStep_calls (.bind .read fun _ => .bind (request_calls .generate) fun _ => .pure)

theorem sendBackupEmail_calls {js : JsText} {setupToken : String} :
    (sendBackupEmail js tenantId setupToken signal).LiveCalls (StepCall tenantId) := by
  refine .bind now_calls fun occurredAt => .tryCatch ?_ ?_
  · refine .bind throwIfProvisioningCancelled_calls fun _ => ?_
    refine .bind readAttemptSafePayload_calls fun payload => ?_
    cases payload with
    | none => exact .throw rfl
    | some payload =>
      exact .bind (request_calls .sendSetupInvite) fun _ => updateAttemptSteps_calls .record
  · intro e he
    simp only [he, Bool.false_eq_true, if_false]
    refine .tryCatch (updateAttemptSteps_calls .record) fun e he => ?_
    simp only [he, Bool.false_eq_true, if_false]
    exact .pure

theorem activation_calls : (activation tenantId signal).LiveCalls (StepCall tenantId) := by
  refine .tryCatch ?_ ?_
  · refine .bind throwIfProvisioningCancelled_calls fun _ => ?_
    refine .bind (request_calls .activate) fun count => ?_
    split
    · exact .throw rfl
    · refine .bind (request_calls .findUniqueOrThrow) fun _ => .bind now_calls fun _ => ?_
      exact updateAttemptSteps_calls .record
  · intro e he
    simp only [he, Bool.false_eq_true, if_false]
    refine .bind now_calls fun occurredAt => ?_
    exact .bind (updateAttemptSteps_calls .record) fun _ => .throw he

theorem provisionSteps_calls {js : JsText} :
    (provisionSteps js tenantId signal).LiveCalls (StepCall tenantId) := by
  refine .bind (recordedStep_calls (request_calls .createSchema)) fun _ => ?_
  refine .bind (recordedStep_calls (request_calls .ensureMetaTables)) fun _ => ?_
  refine .bind (recordedStep_calls (request_calls .bootstrapSeed)) fun _ => ?_
  refine .bind assignFirstAdmin_calls fun _ => .bind generateSetupLink_calls fun setupToken => ?_
  exact .bind sendBackupEmail_calls fun _ => activation_calls

theorem runCompensationSubStep_calls {step : StepName} {action : CompensationAction}
    {actionName identifiers : String} {run : Provisioning Unit} (h : run.LiveCalls H) :
    (runCompensationSubStep step action actionName run identifiers).LiveCalls H :=
  .tryCatch (.bind h fun _ => .pure) fun _ _ => .pure

theorem runCompensation_calls {stepOutcomes : List StepOutcome} :
    (runCompensation tenantId stepOutcomes).LiveCalls (CompensationCall tenantId) := by
  refine .bind (runCompensationSubStep_calls (.bind .read fun _ => request_calls .revokeAll))
    fun _ => ?_
  refine .bind (runCompensationSubStep_calls ?_) fun _ => ?_
  · refine .bind (request_calls .findAdminRole) fun _ => ?_
    exact .bind (request_calls .findTenantUser) fun _ => request_calls .deleteFirstAdmin
  · split
    · exact .bind (runCompensationSubStep_calls (request_calls .dropSchema)) fun _ => .pure
    · exact .pure

theorem markTenantFailed_calls :
    (markTenantFailed tenantId).LiveCalls (CompensationCall tenantId) :=
  .tryCatch (request_calls .markTenantFailed) fun _ _ => .pure

theorem recordTenantCreationSuccess_calls {H : Call → Prop} {frame : Frame} {tenant : Tenant}
    (h : ∀ outcomes, H ⟨frame, .updateAttemptSteps .provisioning outcomes false⟩) :
    (recordTenantCreationSuccess frame tenant).LiveCalls H :=
  .bind now_calls fun _ => updateAttemptSteps_calls (h _)

theorem recordTenantCreationFailure_calls {H : Call → Prop} {errorCode message : String}
    (h : ∀ outcomes, H ⟨.tenantCreationFailed, .updateAttemptSteps .failed outcomes false⟩) :
    (recordTenantCreationFailure errorCode message).LiveCalls H :=
  .bind now_calls fun _ => updateAttemptSteps_calls (h _)

theorem finalizeAudit_calls {frame : Frame} {id : Option TenantId} {status : AttemptStatus}
    {compensation : Option (List CompensationOutcome)}
    (hread : H ⟨frame, .readAttemptAuditRow⟩) (hwrite : ∀ row, H ⟨frame, .upsertAuditLog row⟩)
    (hrecord : ∀ outcomes, H ⟨frame, .updateAttemptSteps status outcomes signal⟩) :
    (finalizeAudit frame id status compensation signal).LiveCalls H := by
  refine .tryCatch ?_ ?_
  · refine .bind throwIfProvisioningCancelled_calls fun _ => ?_
    refine .bind (request_calls hread) fun attempt => ?_
    cases attempt with
    | none => exact .pure
    | some attempt =>
      refine .bind (request_calls (hwrite _)) fun _ => .bind now_calls fun _ => ?_
      exact updateAttemptSteps_calls (hrecord _)
  · intro e he
    simp only [he, Bool.false_eq_true, if_false]
    exact .pure

end

end Flexi.Tenants
