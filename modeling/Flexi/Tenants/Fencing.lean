import Flexi.Library.Cancellation
import Flexi.Tenants.ProvisioningEffects
import Flexi.Tenants.ProvisioningWorker

/-!
# Fencing of aborted runs

A run that the worker has given up still gets the answers it waits for. Under the
signal it stops before its next write of the attempt or of a tenant, unless the
answer is one that the code follows up without looking at the signal.
-/

namespace Flexi.Tenants
open Flexi.Library

/-- The answers after which such a write follows unchecked: the reset of a failed
attempt, the insert of a tenant, the record of a failed tenant creation, and the
run's own failure handling, which is given no signal. -/
inductive FollowedByWrite (js : JsText) : (c : Call) → Except ProvisioningError c.Res → Prop
  | reset : FollowedByWrite js ⟨.lifecycle, .readAttemptStatus⟩ (.ok (some .failed))
  | unsafePayload {jobId : String} {occurredAt : ℕ} {row : Attempt} :
      readSafePayload js row.safePayload = none →
      FollowedByWrite js ⟨.lifecycle, .claimAttempt jobId occurredAt⟩ (.ok (some row))
  | insert : FollowedByWrite js ⟨.tenantCreation, .findTenantByAttemptId⟩ (.ok none)
  | creationFailed {op : Op} {e : ProvisioningError} : e.isCancelled = false →
      e.isUniqueConstraintViolation = false → FollowedByWrite js ⟨.tenantCreation, op⟩ (.error e)
  | uniqueConflict {slug : String} {row : Option Tenant} :
      FollowedByWrite js ⟨.tenantCreationFailed, .findTenantBySlug slug⟩ (.ok row)
  | deactivated {tenantId : TenantId} {user : Option FirstAdminIds} :
      FollowedByWrite js ⟨.failure, .deleteFirstAdmin tenantId user⟩ (.ok ())
  | dropped {schema : String} : FollowedByWrite js ⟨.failure, .dropSchema schema⟩ (.ok ())
  | audited {row : AuditLog} : FollowedByWrite js ⟨.failure, .upsertAuditLog row⟩ (.ok ())

def abortFence (js : JsText) : Fence Call Call.Res Context ProvisioningError where
  cancelled c := c.aborted = true
  H c := c.op.writesAttempt = false ∧ c.op.writesTenant = false
  U := FollowedByWrite js

namespace Provisioning
variable {α : Type}

/-- Under the signal the program throws before it makes a call. -/
abbrev Stops (js : JsText) (p : Provisioning α) : Prop :=
  Fenced (abortFence js) (fun _ => False) (fun e => e.isCancelled = true) p

abbrev Harmless (js : JsText) (p : Provisioning α) : Prop :=
  Fenced (abortFence js) (fun _ => True) (fun _ => True) p

abbrev Abortable (js : JsText) (p : Provisioning α) : Prop :=
  Guarded (abortFence js) (fun _ => True) (fun _ => True) p

end Provisioning

section
variable {js : JsText} {α β : Type} {Q : α → Prop} {E : ProvisioningError → Prop}

theorem Provisioning.Stops.harmless {p : Provisioning α} (h : p.Stops js) : p.Harmless js :=
  h.mono (fun _ _ => trivial) fun _ _ => trivial

theorem Provisioning.Stops.bind {p : Provisioning α} {f : α → Provisioning β} (h : p.Stops js) :
    (p >>= f).Stops js :=
  Fenced.bind h fun _ hf => hf.elim

theorem Provisioning.Stops.tryCatch {p : Provisioning α} {f : ProvisioningError → Provisioning α}
    (h : p.Stops js) : Provisioning.Stops js
      (tryCatch p fun e => if e.isCancelled then throw e else f e) := by
  refine Fenced.tryCatch h fun e he => ?_
  rw [if_pos he]
  exact he

theorem unlessCancelled_harmless {e : ProvisioningError} {p : Provisioning α} (h : p.Harmless js) :
    Provisioning.Harmless js (if e.isCancelled then throw e else p) := by
  split
  · trivial
  · exact h

theorem unlessCancelled_abortable {e : ProvisioningError} {p : Provisioning α}
    (h : p.Abortable js) : Provisioning.Abortable js (if e.isCancelled then throw e else p) := by
  split
  · trivial
  · exact h

theorem throwIfProvisioningCancelled_stops : (throwIfProvisioningCancelled true).Stops js := by
  intro c hc
  show Fenced _ _ _ (if true && c.aborted then throw ProvisioningError.cancelled else pure ())
  have hc : c.aborted = true := hc
  rw [if_pos (by simp [hc])]
  rfl

theorem throwIfProvisioningCancelled_bind_guarded {f : Unit → Provisioning α} {signal : Bool}
    (h : Guarded (abortFence js) Q E (f ())) :
    Guarded (abortFence js) Q E (throwIfProvisioningCancelled signal >>= f) := by
  intro c
  show Guarded _ _ _
    ((if signal && c.aborted then throw ProvisioningError.cancelled else pure () :
      Provisioning Unit) >>= f)
  split
  · trivial
  · exact h

theorem read_bind_guarded {f : Context → Provisioning α}
    (h : ∀ c, Guarded (abortFence js) Q E (f c)) :
    Guarded (abortFence js) Q E (Prog.read >>= f) := h

theorem now_bind_guarded {f : ℕ → Provisioning α} (h : ∀ t, Guarded (abortFence js) Q E (f t)) :
    Guarded (abortFence js) Q E (now >>= f) := fun c => h c.now

theorem now_harmless : now.Harmless js := fun _ _ => trivial

theorem request_guarded {frame : Frame} {op : Op} {Q : op.Res → Prop}
    (hQ : ∀ a, ¬ FollowedByWrite js ⟨frame, op⟩ (.ok a) → Q a)
    (hE : ∀ e, ¬ FollowedByWrite js ⟨frame, op⟩ (.error e) → E e) :
    Guarded (abortFence js) Q E (request frame op) :=
  Guarded.await hQ hE

theorem request_abortable {frame : Frame} {op : Op} : (request frame op).Abortable js :=
  request_guarded (fun _ _ => trivial) fun _ _ => trivial

theorem request_fenced {frame : Frame} {op : Op} {Q : op.Res → Prop}
    (ha : op.writesAttempt = false) (ht : op.writesTenant = false)
    (hQ : ∀ a, ¬ FollowedByWrite js ⟨frame, op⟩ (.ok a) → Q a)
    (hE : ∀ e, ¬ FollowedByWrite js ⟨frame, op⟩ (.error e) → E e) :
    Fenced (abortFence js) Q E (request frame op) :=
  Fenced.await ⟨ha, ht⟩ hQ hE

theorem request_harmless {frame : Frame} {op : Op} (ha : op.writesAttempt = false)
    (ht : op.writesTenant = false) : (request frame op).Harmless js :=
  request_fenced ha ht (fun _ _ => trivial) fun _ _ => trivial

/-! ### Recording outcomes -/

variable {frame : Frame} {status : AttemptStatus} {outcomes : List StepOutcome} {signal : Bool}

theorem updateAttemptSteps_stops : (updateAttemptSteps frame status outcomes true).Stops js :=
  throwIfProvisioningCancelled_stops.bind

theorem updateAttemptSteps_guarded {Q : Unit → Prop} (hQ : Q ())
    (hE : ∀ e, ¬ FollowedByWrite js ⟨frame, .updateAttemptSteps status outcomes signal⟩ (.error e) →
      E e) : Guarded (abortFence js) Q E (updateAttemptSteps frame status outcomes signal) := by
  refine throwIfProvisioningCancelled_bind_guarded ?_
  exact request_guarded (fun _ _ => hQ) hE

theorem updateAttemptSteps_abortable :
    (updateAttemptSteps frame status outcomes signal).Abortable js :=
  updateAttemptSteps_guarded trivial fun _ _ => trivial

theorem recordTenantCreationSuccess_guarded {tenant : Tenant} {Q : Unit → Prop} (hQ : Q ())
    (hE : ∀ outcomes e, ¬ FollowedByWrite js
      ⟨frame, .updateAttemptSteps .provisioning outcomes false⟩ (.error e) → E e) :
    Guarded (abortFence js) Q E (recordTenantCreationSuccess frame tenant) := by
  refine now_bind_guarded fun _ => ?_
  exact updateAttemptSteps_guarded hQ (hE _)

theorem recordTenantCreationFailure_abortable {errorCode message : String} :
    (recordTenantCreationFailure errorCode message).Abortable js := by
  refine now_bind_guarded fun _ => ?_
  exact updateAttemptSteps_abortable

/-! ### The steps -/

section
variable {step : StepName} {tenantId : TenantId} {errorCode message : String}

theorem recordedStep_stops {work : Provisioning α} :
    (recordedStep step tenantId errorCode message true work).Stops js :=
  Provisioning.Stops.tryCatch throwIfProvisioningCancelled_stops.bind

theorem nowRecord_harmless {f : Frame} {outcome : ℕ → StepOutcome} :
    Provisioning.Harmless js (do
      let occurredAt ← now
      updateAttemptStep f status (outcome occurredAt) true) :=
  Fenced.bind now_harmless fun _ _ => updateAttemptSteps_stops.harmless

theorem recordFailure_harmless {f : Frame} {outcome : ℕ → StepOutcome} {e : ProvisioningError} :
    Provisioning.Harmless (α := α) js (do
      let occurredAt ← now
      updateAttemptStep f status (outcome occurredAt) true
      throw e) := by
  refine Fenced.bind now_harmless fun occurredAt _ => ?_
  exact (Provisioning.Stops.bind updateAttemptSteps_stops).harmless

theorem recordFailure_abortable {f : Frame} {outcome : ℕ → StepOutcome} {e : ProvisioningError} :
    Provisioning.Abortable (α := α) js (do
      let occurredAt ← now
      updateAttemptStep f status (outcome occurredAt) true
      throw e) := by
  refine now_bind_guarded fun occurredAt => ?_
  exact Guarded.bind updateAttemptSteps_abortable (fun _ _ => trivial) fun _ => trivial

theorem recordedStep_abortable {work : Provisioning α} (hwork : work.Abortable js) :
    (recordedStep step tenantId errorCode message true work).Abortable js := by
  refine Guarded.tryCatch (T := fun _ => True) ?_ ?_ ?_
  · refine throwIfProvisioningCancelled_bind_guarded ?_
    refine Guarded.bind hwork (fun a _ => ?_) fun a => ?_
    · refine Fenced.bind now_harmless fun occurredAt _ => ?_
      exact (Provisioning.Stops.bind updateAttemptSteps_stops).harmless
    · refine now_bind_guarded fun _ => ?_
      exact Guarded.bind updateAttemptSteps_abortable (fun _ _ => trivial) fun _ => trivial
  · exact fun e _ => unlessCancelled_harmless recordFailure_harmless
  · exact fun e => unlessCancelled_abortable recordFailure_abortable

theorem readAttemptSafePayload_abortable : (readAttemptSafePayload js frame).Abortable js :=
  Guarded.bind request_abortable (fun _ _ => trivial) fun _ => trivial

theorem assignFirstAdmin_abortable : (assignFirstAdmin js tenantId true).Abortable js := by
  apply recordedStep_abortable
  refine Guarded.bind readAttemptSafePayload_abortable (fun payload _ => ?_) fun payload => ?_
  · cases payload with
    | none => trivial
    | some payload => exact request_harmless rfl rfl
  · cases payload with
    | none => trivial
    | some payload => exact request_abortable

theorem generateSetupLink_abortable : (generateSetupLink tenantId true).Abortable js := by
  apply recordedStep_abortable
  refine read_bind_guarded fun c => ?_
  exact Guarded.bind request_abortable (fun _ _ => trivial) fun _ => trivial

theorem sendBackupEmail_stops {setupToken : String} :
    (sendBackupEmail js tenantId setupToken true).Harmless js := by
  refine Fenced.bind now_harmless fun occurredAt _ => ?_
  exact (Provisioning.Stops.tryCatch throwIfProvisioningCancelled_stops.bind).harmless

theorem sendBackupEmail_abortable {setupToken : String} :
    (sendBackupEmail js tenantId setupToken true).Abortable js := by
  refine now_bind_guarded fun occurredAt => ?_
  refine Guarded.tryCatch (T := fun _ => True) ?_ ?_ ?_
  · refine throwIfProvisioningCancelled_bind_guarded ?_
    refine Guarded.bind readAttemptSafePayload_abortable (fun payload _ => ?_) fun payload => ?_
    · cases payload with
      | none => trivial
      | some payload =>
        refine Fenced.bind (request_harmless rfl rfl) fun outcome _ => ?_
        exact updateAttemptSteps_stops.harmless
    · cases payload with
      | none => trivial
      | some payload =>
        refine Guarded.bind request_abortable (fun outcome _ => ?_) fun outcome => ?_
        · exact updateAttemptSteps_stops.harmless
        · exact updateAttemptSteps_abortable
  · intro e _
    exact unlessCancelled_harmless (Provisioning.Stops.tryCatch updateAttemptSteps_stops).harmless
  · intro e
    apply unlessCancelled_abortable
    refine Guarded.tryCatch (T := fun _ => True) updateAttemptSteps_abortable ?_ ?_
    · exact fun e' _ => unlessCancelled_harmless trivial
    · exact fun e' => unlessCancelled_abortable trivial

theorem activation_stops : (activation tenantId true).Stops js :=
  Provisioning.Stops.tryCatch throwIfProvisioningCancelled_stops.bind

theorem activation_abortable : (activation tenantId true).Abortable js := by
  refine Guarded.tryCatch (T := fun _ => True) ?_ ?_ ?_
  · refine throwIfProvisioningCancelled_bind_guarded ?_
    refine Guarded.bind request_abortable (fun count _ => ?_) fun count => ?_
    · split
      · trivial
      · refine Fenced.bind (request_harmless rfl rfl) fun tenant _ => ?_
        exact nowRecord_harmless
    · split
      · trivial
      · refine Guarded.bind request_abortable (fun tenant _ => ?_) fun tenant => ?_
        · exact Fenced.bind now_harmless fun _ _ => updateAttemptSteps_stops.harmless
        · exact now_bind_guarded fun _ => updateAttemptSteps_abortable
  · exact fun e _ => unlessCancelled_harmless recordFailure_harmless
  · exact fun e => unlessCancelled_abortable recordFailure_abortable

theorem provisionSteps_stops : (provisionSteps js tenantId true).Stops js :=
  Provisioning.Stops.bind recordedStep_stops

theorem provisionSteps_abortable : (provisionSteps js tenantId true).Abortable js := by
  refine Guarded.bind (recordedStep_abortable request_abortable)
    (fun _ _ => (Provisioning.Stops.bind recordedStep_stops).harmless) fun _ => ?_
  refine Guarded.bind (recordedStep_abortable request_abortable)
    (fun _ _ => (Provisioning.Stops.bind recordedStep_stops).harmless) fun _ => ?_
  refine Guarded.bind (recordedStep_abortable request_abortable)
    (fun _ _ => (Provisioning.Stops.bind recordedStep_stops).harmless) fun _ => ?_
  refine Guarded.bind assignFirstAdmin_abortable
    (fun _ _ => (Provisioning.Stops.bind recordedStep_stops).harmless) fun _ => ?_
  refine Guarded.bind generateSetupLink_abortable (fun setupToken _ => ?_) fun setupToken => ?_
  · exact Fenced.bind sendBackupEmail_stops fun _ _ => activation_stops.harmless
  · exact Guarded.bind sendBackupEmail_abortable (fun _ _ => activation_stops.harmless) fun _ =>
      activation_abortable

/-! ### The audit and the compensation -/

theorem signal_of_audited {row : AuditLog} (h : signal = true ∨ frame = .failure) (a : Unit)
    (hu : ¬ FollowedByWrite js ⟨frame, .upsertAuditLog row⟩ (.ok a)) : signal = true := by
  rcases h with h | h
  · exact h
  · subst h
    exact absurd .audited hu

/-- The record of the audit follows the upsert: under the signal it stops, and
without it, in the failure handling, the upsert's answer is excluded. -/
theorem finalizeAudit_harmless {id : Option TenantId}
    {compensation : Option (List CompensationOutcome)} (h : signal = true ∨ frame = .failure) :
    (finalizeAudit frame id status compensation signal).Harmless js := by
  refine Fenced.tryCatch (T := fun _ => True) ?_ fun e _ => unlessCancelled_harmless trivial
  refine Fenced.bind (Q := fun _ => True) ?_ fun _ _ => ?_
  · intro c _
    show Fenced _ _ _ (if signal && c.aborted then throw ProvisioningError.cancelled else pure ())
    split <;> trivial
  refine Fenced.bind (request_harmless rfl rfl) fun attempt _ => ?_
  cases attempt with
  | none => trivial
  | some attempt =>
    refine Fenced.bind (request_fenced rfl rfl (signal_of_audited h) fun _ _ => trivial)
      fun _ hs => ?_
    subst hs
    exact nowRecord_harmless

theorem finalizeAudit_abortable {id : Option TenantId}
    {compensation : Option (List CompensationOutcome)} (h : signal = true ∨ frame = .failure) :
    (finalizeAudit frame id status compensation signal).Abortable js := by
  refine Guarded.tryCatch (T := fun _ => True) ?_ (fun e _ => unlessCancelled_harmless trivial)
    fun e => unlessCancelled_abortable trivial
  refine throwIfProvisioningCancelled_bind_guarded ?_
  refine Guarded.bind (Q := fun _ => True) request_abortable (fun attempt _ => ?_) fun attempt => ?_
  · cases attempt with
    | none => trivial
    | some attempt =>
      refine Fenced.bind (request_fenced rfl rfl (signal_of_audited h) fun _ _ => trivial)
        fun _ hs => ?_
      subst hs
      exact nowRecord_harmless
  · cases attempt with
    | none => trivial
    | some attempt =>
      refine Guarded.bind (request_guarded (signal_of_audited h) fun _ _ => trivial)
        (fun _ hs => ?_) fun _ => ?_
      · subst hs
        exact nowRecord_harmless
      · exact now_bind_guarded fun _ => updateAttemptSteps_abortable

section
variable {tenantId : TenantId}

def AnyFailed (compensation : List CompensationOutcome) : Prop :=
  compensation.any (fun outcome => outcome.status == .failed) = true

/-- `deactivate` does not return under the fence, so its sub-step is recorded as
failed. -/
theorem runCompensationSubStep_fenced {step : StepName} {action : CompensationAction}
    {actionName identifiers : String} {run : Provisioning Unit}
    (h : Fenced (abortFence js) (fun _ => False) (fun _ => True) run) :
    Fenced (abortFence js) (fun outcome => outcome.status = .failed) (fun _ => True)
      (runCompensationSubStep step action actionName run identifiers) := by
  refine Fenced.tryCatch (T := fun _ => True) ?_ fun _ _ => rfl
  exact Fenced.bind h fun _ hf => hf.elim

theorem runCompensationSubStep_guarded {step : StepName} {action : CompensationAction}
    {actionName identifiers : String} {run : Provisioning Unit}
    (h : Guarded (abortFence js) (fun _ => False) (fun _ => True) run) :
    Guarded (abortFence js) (fun outcome => outcome.status = .failed) (fun _ => True)
      (runCompensationSubStep step action actionName run identifiers) := by
  refine Guarded.tryCatch (T := fun _ => True) ?_ (fun _ _ => rfl) fun _ => trivial
  exact Guarded.bind h (fun _ hf => hf.elim) fun _ => trivial

theorem runCompensationSubStep_harmless {step : StepName} {action : CompensationAction}
    {actionName identifiers : String} {run : Provisioning Unit} (h : run.Harmless js) :
    (runCompensationSubStep step action actionName run identifiers).Harmless js :=
  Fenced.tryCatch (T := fun _ => True) (Fenced.bind h fun _ _ => trivial) fun _ _ => trivial

theorem runCompensationSubStep_abortable {step : StepName} {action : CompensationAction}
    {actionName identifiers : String} {run : Provisioning Unit} (h : run.Abortable js) :
    (runCompensationSubStep step action actionName run identifiers).Abortable js :=
  Guarded.tryCatch (T := fun _ => True) (Guarded.bind h (fun _ _ => trivial) fun _ => trivial)
    (fun _ _ => trivial) fun _ => trivial

theorem deactivate_fenced :
    Fenced (abortFence js) (fun _ => False) (fun _ => True) (deactivate tenantId) := by
  refine Fenced.bind (request_harmless rfl rfl) fun _ _ => ?_
  refine Fenced.bind (request_harmless rfl rfl) fun user _ => ?_
  exact request_fenced rfl rfl (fun _ hu => hu .deactivated) fun _ _ => trivial

theorem deactivate_guarded :
    Guarded (abortFence js) (fun _ => False) (fun _ => True) (deactivate tenantId) := by
  have hdelete {user : Option FirstAdminIds} : Fenced (abortFence js) (fun _ => False)
      (fun _ => True) (request .failure (.deleteFirstAdmin tenantId user)) :=
    request_fenced rfl rfl (fun _ hu => hu .deactivated) fun _ _ => trivial
  refine Guarded.bind request_abortable (fun _ _ => ?_) fun _ => ?_
  · exact Fenced.bind (request_harmless rfl rfl) fun user _ => hdelete
  · refine Guarded.bind request_abortable (fun user _ => hdelete) fun user => ?_
    exact request_guarded (fun _ hu => hu .deactivated) fun _ _ => trivial

/-- Whatever `drop_tenant_schema` comes to, a failed sub-step before it decides. -/
theorem dropTenantSchema_fenced {stepOutcomes : List StepOutcome}
    {revoked deactivated : CompensationOutcome} (h : deactivated.status = .failed) :
    Fenced (abortFence js) AnyFailed (fun _ => True)
      (if succeeded stepOutcomes .schema_created then do
        let dropped ← runCompensationSubStep .schema_created .drop_tenant_schema
          "drop_tenant_schema" (request .failure (.dropSchema tenantId.schema))
          ("tenantId=" ++ tenantId.val ++ ", schema=" ++ tenantId.schema)
        pure [revoked, deactivated, dropped]
      else pure [revoked, deactivated,
        { step := .schema_created, action := .drop_tenant_schema, status := .skipped,
          detail := some "schema_created never succeeded for this attempt." }]) := by
  by_cases hs : succeeded stepOutcomes .schema_created = true
  · rw [if_pos hs]
    refine Fenced.bind (runCompensationSubStep_harmless (request_harmless rfl rfl))
      fun dropped _ => ?_
    show AnyFailed [revoked, deactivated, dropped]
    simp [AnyFailed, h]
  · rw [if_neg hs]
    show AnyFailed [revoked, deactivated, _]
    simp [AnyFailed, h]

theorem runCompensation_fenced {stepOutcomes : List StepOutcome} :
    Fenced (abortFence js) AnyFailed (fun _ => True) (runCompensation tenantId stepOutcomes) := by
  refine Fenced.bind (runCompensationSubStep_harmless
    (Fenced.bind (Q := fun _ => True) (fun _ _ => trivial) fun c _ => request_harmless rfl rfl))
    fun revoked _ => ?_
  refine Fenced.bind (runCompensationSubStep_fenced deactivate_fenced) fun deactivated h => ?_
  exact dropTenantSchema_fenced h

theorem runCompensation_guarded {stepOutcomes : List StepOutcome} :
    Guarded (abortFence js) AnyFailed (fun _ => True) (runCompensation tenantId stepOutcomes) := by
  refine Guarded.bind (runCompensationSubStep_abortable
    (read_bind_guarded fun c => request_abortable)) (fun revoked _ => ?_) fun revoked => ?_
  · refine Fenced.bind (runCompensationSubStep_fenced deactivate_fenced) fun deactivated h => ?_
    exact dropTenantSchema_fenced h
  refine Guarded.bind (runCompensationSubStep_guarded deactivate_guarded)
    (fun deactivated h => dropTenantSchema_fenced h) fun deactivated => ?_
  by_cases hs : succeeded stepOutcomes .schema_created = true
  · rw [if_pos hs]
    have hdrop : Guarded (abortFence js) (fun _ => False) (fun _ => True)
        (request .failure (.dropSchema tenantId.schema)) :=
      request_guarded (fun _ hu => hu .dropped) fun _ _ => trivial
    refine Guarded.bind (runCompensationSubStep_guarded hdrop) (fun dropped h => ?_) fun _ =>
      trivial
    show AnyFailed [revoked, deactivated, dropped]
    simp [AnyFailed, h]
  · rw [if_neg hs]
    trivial

theorem markTenantFailed_abortable : (markTenantFailed tenantId).Abortable js :=
  Guarded.tryCatch (T := fun _ => True) request_abortable (fun _ _ => trivial) fun _ => trivial

theorem settle_harmless {compensation : List CompensationOutcome} (h : AnyFailed compensation) :
    Provisioning.Harmless js
      (if compensation.any fun outcome => outcome.status == .failed then
        finalizeAudit .failure (some tenantId) .failedNeedsManualCleanup (some compensation) false
      else do
        markTenantFailed tenantId
        finalizeAudit .failure (some tenantId) .failed (some compensation) false) := by
  unfold AnyFailed at h
  rw [if_pos h]
  exact finalizeAudit_harmless (.inr rfl)

theorem handleProvisioningFailure_harmless :
    (handleProvisioningFailure tenantId).Harmless js := by
  refine Fenced.tryCatch (T := fun _ => True) ?_ fun _ _ => trivial
  refine Fenced.bind (Q := fun _ => True)
    (Fenced.bind (request_harmless rfl rfl) fun _ _ => trivial) fun outcomes _ => ?_
  exact Fenced.bind runCompensation_fenced fun compensation h => settle_harmless h

theorem handleProvisioningFailure_abortable :
    (handleProvisioningFailure tenantId).Abortable js := by
  refine Guarded.tryCatch (T := fun _ => True) ?_ (fun _ _ => trivial) fun _ => trivial
  refine Guarded.bind (Q := fun _ => True)
    (Guarded.bind request_abortable (fun _ _ => trivial) fun _ => trivial)
    (fun outcomes _ => ?_) fun outcomes => ?_
  · exact Fenced.bind runCompensation_fenced fun compensation h => settle_harmless h
  refine Guarded.bind runCompensation_guarded (fun compensation h => settle_harmless h)
    fun compensation => ?_
  split
  · exact finalizeAudit_abortable (.inr rfl)
  · exact Guarded.bind markTenantFailed_abortable
      (fun _ _ => finalizeAudit_harmless (.inr rfl)) fun _ => finalizeAudit_abortable (.inr rfl)

/-! ### The lifecycle -/

theorem provisionTenantSchema_stops : (provisionTenantSchema js tenantId true).Stops js :=
  Provisioning.Stops.tryCatch provisionSteps_stops.bind

theorem provisionTenantSchema_abortable : (provisionTenantSchema js tenantId true).Abortable js := by
  refine Guarded.tryCatch (T := fun _ => True) ?_ ?_ ?_
  · exact Guarded.bind provisionSteps_abortable (fun _ _ => finalizeAudit_harmless (.inl rfl))
      fun _ => finalizeAudit_abortable (.inl rfl)
  · intro e _
    apply unlessCancelled_harmless
    exact Fenced.bind handleProvisioningFailure_harmless fun _ _ => trivial
  · intro e
    apply unlessCancelled_abortable
    exact Guarded.bind handleProvisioningFailure_abortable (fun _ _ => trivial) fun _ => trivial

end

section
variable {attemptId : String} {safePayload : SafePayload}

/-- The errors that the creation of a tenant follows up under the fence. -/
def CancelledOrUnique (e : ProvisioningError) : Prop :=
  e.isCancelled = true ∨ e.isUniqueConstraintViolation = true

theorem cancelledOrUnique_of_creation {op : Op} {e : ProvisioningError}
    (h : ¬ FollowedByWrite js ⟨.tenantCreation, op⟩ (.error e)) : CancelledOrUnique e := by
  by_cases hc : e.isCancelled = true
  · exact .inl hc
  by_cases hu : e.isUniqueConstraintViolation = true
  · exact .inr hu
  exact absurd (.creationFailed (by simpa using hc) (by simpa using hu)) h

theorem createOrResolveTenant_stops :
    (createOrResolveTenant attemptId safePayload true).Stops js :=
  throwIfProvisioningCancelled_stops.bind

theorem createOrResolveTenant_guarded :
    Guarded (abortFence js) (fun _ => True) CancelledOrUnique
      (createOrResolveTenant attemptId safePayload true) := by
  refine throwIfProvisioningCancelled_bind_guarded ?_
  refine Guarded.bind (Q := fun tenant => tenant ≠ none)
    (request_guarded ?_ fun _ => cancelledOrUnique_of_creation) (fun tenant h => ?_) fun tenant => ?_
  · intro tenant hu hnone
    subst hnone
    exact hu .insert
  · cases tenant with
    | none => exact absurd rfl h
    | some tenant => trivial
  · cases tenant with
    | none =>
      refine read_bind_guarded fun c => ?_
      exact request_guarded (fun _ _ => trivial) fun _ => cancelledOrUnique_of_creation
    | some tenant => trivial

theorem createTenant_stops : (createTenant attemptId safePayload true).Stops js :=
  Provisioning.Stops.tryCatch createOrResolveTenant_stops.bind

theorem createTenant_abortable : (createTenant attemptId safePayload true).Abortable js := by
  have hfailed {errorCode message : String} : Provisioning.Abortable js (do
      recordTenantCreationFailure errorCode message
      pure (none : Option Tenant)) :=
    Guarded.bind recordTenantCreationFailure_abortable (fun _ _ => trivial) fun _ => trivial
  refine Guarded.tryCatch (T := CancelledOrUnique) ?_ ?_ ?_
  · refine Guarded.bind createOrResolveTenant_guarded (fun tenant _ => ?_) fun tenant => ?_
    · exact Fenced.mono (Provisioning.Stops.bind throwIfProvisioningCancelled_stops)
        (fun _ hf => hf.elim) fun _ h => .inl h
    refine throwIfProvisioningCancelled_bind_guarded ?_
    refine Guarded.bind (Q := fun _ => True) (recordTenantCreationSuccess_guarded trivial ?_)
      (fun _ _ => trivial) fun _ => trivial
    exact fun _ _ => cancelledOrUnique_of_creation
  · intro e he
    by_cases hc : e.isCancelled = true
    · rw [if_pos hc]
      trivial
    rw [if_neg hc, if_pos (he.resolve_left hc)]
    refine Fenced.bind (Q := fun _ => False) (request_fenced rfl rfl ?_ fun _ _ => trivial)
      fun _ hf => hf.elim
    exact fun _ hu => hu .uniqueConflict
  · intro e
    apply unlessCancelled_abortable
    split
    · refine Guarded.bind (Q := fun _ => False) (request_guarded ?_ fun _ _ => trivial)
        (fun _ hf => hf.elim) fun tenant => ?_
      · exact fun _ hu => hu .uniqueConflict
      cases tenant with
      | none => exact hfailed
      | some tenant =>
        show Guarded _ _ _ (if tenant.onboardingAttemptId = some attemptId then _ else _)
        split
        · exact Guarded.bind (Q := fun _ => True)
            (recordTenantCreationSuccess_guarded trivial fun _ _ _ => trivial)
            (fun _ _ => trivial) fun _ => trivial
        · exact hfailed
    · exact hfailed

theorem startFresh_abortable : (startFresh js attemptId true).Abortable js := by
  refine now_bind_guarded fun occurredAt => ?_
  refine Guarded.bind (Q := fun row => ∀ attempt : Attempt, row = some attempt →
    readSafePayload js attempt.safePayload ≠ none) (request_guarded ?_ fun _ _ => trivial)
    (fun attempt h => ?_) fun attempt => ?_
  · intro row hu attempt hrow hnone
    subst hrow
    exact hu (.unsafePayload hnone)
  · cases attempt with
    | none => trivial
    | some attempt =>
      have hsafe := h attempt rfl
      dsimp only
      cases hp : readSafePayload js attempt.safePayload with
      | none => exact absurd hp hsafe
      | some safePayload => exact (Provisioning.Stops.bind createTenant_stops).harmless
  · cases attempt with
    | none => trivial
    | some attempt =>
      dsimp only
      cases readSafePayload js attempt.safePayload with
      | none => exact recordTenantCreationFailure_abortable
      | some safePayload =>
        refine Guarded.bind createTenant_abortable (fun tenant _ => ?_) fun tenant => ?_
        · cases tenant with
          | none => trivial
          | some tenant => exact provisionTenantSchema_stops.harmless
        · cases tenant with
          | none => trivial
          | some tenant => exact provisionTenantSchema_abortable

theorem resume_abortable {linkedTenant : Tenant} : (resume js linkedTenant true).Abortable js := by
  have hgo : Provisioning.Stops js (do
      throwIfProvisioningCancelled true
      recordTenantCreationSuccess .lifecycle linkedTenant
      provisionTenantSchema js linkedTenant.id true) :=
    throwIfProvisioningCancelled_stops.bind
  have hgo' : Provisioning.Abortable js (do
      throwIfProvisioningCancelled true
      recordTenantCreationSuccess .lifecycle linkedTenant
      provisionTenantSchema js linkedTenant.id true) := by
    refine throwIfProvisioningCancelled_bind_guarded ?_
    exact Guarded.bind (Q := fun _ => True)
      (recordTenantCreationSuccess_guarded trivial fun _ _ _ => trivial)
      (fun _ _ => provisionTenantSchema_stops.harmless) fun _ => provisionTenantSchema_abortable
  refine Guarded.bind (Q := fun status => status ≠ some .failed)
    (request_guarded ?_ fun _ _ => trivial) (fun status h => ?_) fun status => ?_
  · intro status hu hfailed
    subst hfailed
    exact hu .reset
  · by_cases hs : status = some .succeeded
    · rw [if_pos hs]
      trivial
    by_cases hm : status = some .failedNeedsManualCleanup
    · rw [if_neg hs, if_pos hm]
      trivial
    · rw [if_neg hs, if_neg hm, if_neg h]
      exact hgo.harmless
  · by_cases hs : status = some .succeeded
    · rw [if_pos hs]
      trivial
    by_cases hm : status = some .failedNeedsManualCleanup
    · rw [if_neg hs, if_pos hm]
      trivial
    rw [if_neg hs, if_neg hm]
    refine Guarded.bind (Q := fun _ => True) ?_ (fun _ _ => hgo.harmless) fun _ => hgo'
    split
    · exact request_abortable
    · trivial

theorem startLifecycle_abortable : (startLifecycle js attemptId true).Abortable js := by
  refine throwIfProvisioningCancelled_bind_guarded ?_
  refine Guarded.bind request_abortable (fun tenant _ => ?_) fun tenant => ?_
  · exact (Provisioning.Stops.bind throwIfProvisioningCancelled_stops).harmless
  refine throwIfProvisioningCancelled_bind_guarded ?_
  cases tenant with
  | none => exact startFresh_abortable
  | some tenant => exact resume_abortable

end
end

end

/-! ### Every run -/

/-- No answer of `FollowedByWrite` reaches an aborted run once the timeout handling
has committed a terminal status. -/
def fenceCondition (js : JsText) (w : Worker) : WorkerEvent → Prop
  | .deliverAborted i _ => ∀ run, w.aborted[i]? = some run → run.fenced = true →
      ¬ run.thread.Astray (abortFence js)
  | _ => True

def AbortedRun.WellFenced (js : JsText) (run : AbortedRun) : Prop :=
  (run.late = true → run.fenced = true) ∧
  if run.late then run.thread.Fenced (abortFence js) (fun _ => True) fun _ => True
  else run.thread.Guarded (abortFence js) (fun _ => True) fun _ => True

namespace Worker

/-- The running thread can be aborted at any time, and the aborted ones are fenced
as far as they are late. -/
def WellFenced (js : JsText) (w : Worker) : Prop :=
  (∀ thread, w.job = .running thread →
    thread.Guarded (abortFence js) (fun _ => True) fun _ => True) ∧
  ∀ run ∈ w.aborted, run.WellFenced js

variable {cfg : WorkerConfig} {w w' : Worker}

theorem WellFenced.running (h : w.WellFenced cfg.js) {thread : ProvisioningThread}
    (ht : thread.Guarded (abortFence cfg.js) (fun _ => True) fun _ => True) {db : Database} :
    ({ w with db := db, job := .running thread } : Worker).WellFenced cfg.js := by
  refine ⟨fun thread' h' => ?_, h.2⟩
  cases h'
  exact ht

theorem WellFenced.idle (h : w.WellFenced cfg.js) {job : JobState} {db : Database} {n : ℕ}
    (hj : ∀ thread, job ≠ .running thread) :
    ({ w with db := db, job := job, attemptsMade := n } : Worker).WellFenced cfg.js :=
  ⟨fun thread h' => absurd h' (hj thread), h.2⟩

theorem WellFenced.failAttempt (h : w.WellFenced cfg.js) :
    (w.failAttempt cfg).WellFenced cfg.js := by
  refine ⟨fun thread h' => ?_, h.2⟩
  simp only [Worker.failAttempt] at h'
  split at h' <;> cases h'

theorem WellFenced.setAborted (h : w.WellFenced cfg.js) {i : ℕ} {run : AbortedRun} {db : Database}
    (hrun : run.WellFenced cfg.js) :
    ({ w with db := db, aborted := w.aborted.set i run } : Worker).WellFenced cfg.js := by
  refine ⟨h.1, fun run' hmem => ?_⟩
  rcases List.mem_or_eq_of_mem_set hmem with hmem | heq
  · exact h.2 run' hmem
  · subst heq
    exact hrun

theorem WellFenced.noteHandling {run : AbortedRun} {js : JsText} (h : run.WellFenced js)
    (terminal : Bool) : (noteHandling terminal run).WellFenced js := by
  refine ⟨fun hl => ?_, h.2⟩
  simp [Worker.noteHandling, h.1 hl]

theorem WellFenced.step {e : WorkerEvent} (h : w.WellFenced cfg.js)
    (hok : fenceCondition cfg.js w e) (hs : Worker.step cfg w e = some w') :
    w'.WellFenced cfg.js := by
  cases e with
  | start c =>
    cases hj : w.job <;> simp only [Worker.step, hj, reduceCtorEq] at hs
    cases hs
    exact h.running (Thread.Guarded.advance startLifecycle_abortable _)
  | execute outside =>
    cases hj : w.job <;> simp only [Worker.step, hj, reduceCtorEq] at hs
    · obtain ⟨⟨thread', db'⟩, hx, hw⟩ := Option.map_eq_some_iff.mp hs
      cases hw
      exact h.running ((h.1 _ hj).execute hx)
    · obtain ⟨⟨thread', db'⟩, hx, hw⟩ := Option.map_eq_some_iff.mp hs
      cases hw
      refine ⟨fun thread h' => (by cases h'), fun run hmem => ?_⟩
      obtain ⟨run₀, hmem₀, rfl⟩ := List.mem_map.mp hmem
      exact WellFenced.noteHandling (h.2 run₀ hmem₀) _
  | deliver c =>
    cases hj : w.job <;> simp only [Worker.step, hj, reduceCtorEq] at hs
    · obtain ⟨thread', hx, hw⟩ := Option.map_eq_some_iff.mp hs
      have hg := (h.1 _ hj).deliver hx
      cases thread' with
      | awaiting o k =>
        cases hw
        exact h.running hg
      | answered o r k =>
        cases hw
        exact h.running hg
      | finished r =>
        cases r <;> cases hw
        · exact h.failAttempt
        · exact h.idle (by simp)
    · obtain ⟨thread', hx, hw⟩ := Option.map_eq_some_iff.mp hs
      cases thread' <;> cases hw
      · exact h.idle (by simp)
      · exact h.idle (by simp)
      · exact h.failAttempt
  | timeout c =>
    cases hj : w.job <;> simp only [Worker.step, hj, reduceCtorEq] at hs
    cases hs
    refine ⟨fun thread h' => (by cases h'), fun run hmem => ?_⟩
    rcases List.mem_append.mp hmem with hmem | hmem
    · exact h.2 run hmem
    · rw [List.mem_singleton.mp hmem]
      exact ⟨by simp, h.1 _ hj⟩
  | executeAborted i outside =>
    simp only [Worker.step] at hs
    split at hs
    · rename_i run hrun
      obtain ⟨⟨thread', db'⟩, hx, hw⟩ := Option.map_eq_some_iff.mp hs
      cases hw
      have hwf := h.2 run (List.mem_of_getElem? hrun)
      apply h.setAborted
      refine ⟨hwf.1, ?_⟩
      by_cases hl : run.late = true
      · simp only [hl, if_true]
        exact Thread.Fenced.execute (by simpa [hl] using hwf.2) hx
      · simp only [hl, Bool.false_eq_true, if_false]
        exact Thread.Guarded.execute (by simpa [hl] using hwf.2) hx
    · cases hs
  | deliverAborted i c =>
    simp only [Worker.step] at hs
    split at hs
    · rename_i run hrun
      obtain ⟨thread', hx, hw⟩ := Option.map_eq_some_iff.mp hs
      cases hw
      have hwf := h.2 run (List.mem_of_getElem? hrun)
      apply h.setAborted
      refine ⟨fun hl => hl, ?_⟩
      by_cases hf : run.fenced = true
      · -- the thread goes on under a fence that stands
        have hu := hok run hrun hf
        have hc : (abortFence cfg.js).cancelled { c with aborted := true } := rfl
        simp only [hf, if_true]
        by_cases hl : run.late = true
        · exact Thread.Fenced.deliver (by simpa [hl] using hwf.2) hu hc hx
        · exact Thread.Guarded.deliver_fenced (by simpa [hl] using hwf.2) hu hc hx
      · have hl : ¬ run.late = true := fun hl => hf (hwf.1 hl)
        simp only [hf, Bool.false_eq_true, if_false]
        exact Thread.Guarded.deliver (by simpa [hl] using hwf.2) hx
    · cases hs
  | crash =>
    cases hj : w.job <;> simp only [Worker.step, hj] at hs <;> cases hs
    all_goals exact ⟨fun thread h' => by simp_all, fun run hmem => by cases hmem⟩

end Worker

/-- In every run that meets `fenceCondition`, a call that an aborted run issues after
the timeout handling has committed a terminal status changes neither the attempt nor
a tenant. -/
theorem late_calls_keep_attempt_and_tenants (cfg : WorkerConfig) {w₀ w w' : Worker}
    (h₀ : w₀.Accepted) (hr : Reach (Worker.step cfg) (fenceCondition cfg.js) w₀ w) {i : ℕ}
    {run : AbortedRun} (hrun : w.aborted[i]? = some run) (hlate : run.late = true)
    {outside : Outside} (hs : Worker.step cfg w (.executeAborted i outside) = some w') :
    w'.db.attempt = w.db.attempt ∧ w'.db.tenant = w.db.tenant ∧
      w'.db.otherTenants = w.db.otherTenants := by
  have hinit : w₀.WellFenced cfg.js := by
    refine ⟨fun thread h => ?_, fun run hmem => ?_⟩
    · rw [h₀.job] at h
      cases h
    · rw [h₀.aborted] at hmem
      cases hmem
  have hw : w.WellFenced cfg.js :=
    hr.invariant hinit fun _ _ _ _ h hok hstep => h.step hok hstep
  have hfenced := (hw.2 run (List.mem_of_getElem? hrun)).2
  simp only [hlate, if_true] at hfenced
  simp only [Worker.step, hrun] at hs
  obtain ⟨⟨thread', db'⟩, hx, hw'⟩ := Option.map_eq_some_iff.mp hs
  cases hw'
  cases ht : run.thread with
  | awaiting o k =>
    rw [ht] at hx hfenced
    cases hx
    obtain ⟨ha, ht⟩ : o.op.writesAttempt = false ∧ o.op.writesTenant = false := hfenced.1
    exact ⟨Op.perform_attempt ha, Op.perform_tenant ht, Op.perform_otherTenants ht⟩
  | answered o r k =>
    rw [ht] at hx
    cases hx
  | finished r =>
    rw [ht] at hx
    cases hx

/-- A run that is in its own failure handling when its timer fires: the revocation of
setup tokens that it issues afterwards is executed. -/
def lateRevocation : List WorkerEvent :=
  acmeCalls 5 ++ [.execute { quietOutside with fault := true }, .deliver acmeContext] ++
    acmeAnswers 1 ++ [.execute quietOutside, .timeout acmeContext, .execute quietOutside,
    .deliverAborted 0 acmeContext]

def readsStepOutcomes (run : AbortedRun) : Bool :=
  match run.thread with
  | .answered ⟨.failure, .readAttemptStepOutcomes⟩ _ _ => true
  | _ => false

theorem readsStepOutcomes.not_astray {run : AbortedRun} (h : readsStepOutcomes run = true)
    (js : JsText) : ¬ run.thread.Astray (abortFence js) := by
  unfold readsStepOutcomes at h
  split at h
  · rename_i ht
    rw [ht]
    intro hu
    cases hu
  · cases h

/-- What an event of the example may do to its fenced runs. -/
def harmlessDelivery (w : Worker) : WorkerEvent → Bool
  | .deliverAborted i _ => (w.aborted[i]?).all readsStepOutcomes
  | _ => true

theorem late_calls_keep_attempt_and_tenants_acme : ∃ w w' run,
    Reach (Worker.step acmeConfig) (fenceCondition plainText) acmeJob w ∧
    w.aborted[0]? = some run ∧ run.late = true ∧
    Worker.step acmeConfig w (.executeAborted 0 quietOutside) = some w' ∧
    w'.db.attempt = w.db.attempt ∧ w'.db.tenant = w.db.tenant ∧
    w'.db.otherTenants = w.db.otherTenants := by
  have hrun : (runChecked (Worker.step acmeConfig) harmlessDelivery acmeJob lateRevocation).any
      (fun w => (w.aborted[0]?).any (·.late) &&
        (Worker.step acmeConfig w (.executeAborted 0 quietOutside)).isSome) = true := by
    decide +kernel
  obtain ⟨w, hw, h⟩ := (Option.any_eq_true _ _).mp hrun
  obtain ⟨h₁, h₂⟩ := Bool.and_eq_true_iff.mp h
  obtain ⟨run, hrun, hlate⟩ := (Option.any_eq_true _ _).mp h₁
  obtain ⟨w', hw'⟩ := Option.isSome_iff_exists.mp h₂
  have hr : Reach (Worker.step acmeConfig) (fenceCondition plainText) acmeJob w := by
    refine Reach.of_runChecked (fun s e hok => ?_) hw
    cases e with
    | deliverAborted i c =>
      intro run hi _
      exact readsStepOutcomes.not_astray (by simpa [harmlessDelivery, hi] using hok) plainText
    | _ => trivial
  exact ⟨w, w', run, hr, hrun, hlate, hw',
    late_calls_keep_attempt_and_tenants acmeConfig acmeJob_accepted hr hrun hlate hw'⟩

/-- The timer fires while the first run waits for the lookup of its tenant: after the
attempt has been settled as `failed` the run inserts the tenant. -/
theorem late_call_inserts_tenant : ∃ w w' run,
    Reach (Worker.step acmeConfig) (fun _ _ => True) acmeJob w ∧
    w.aborted[0]? = some run ∧ run.late = true ∧ w.db.attempt.status = .failed ∧
    w.db.tenant = none ∧
    Worker.step acmeConfig w (.executeAborted 0 quietOutside) = some w' ∧
    w'.db.tenant.isSome = true := by
  have hrun : (runAll (Worker.step acmeConfig) acmeJob (acmeCalls 2 ++ [.execute quietOutside,
      .timeout acmeContext, .execute quietOutside, .deliverAborted 0 acmeContext])).any
      (fun w => (w.aborted[0]?).any (·.late) &&
        decide (w.db.attempt.status = .failed ∧ w.db.tenant = none) &&
        (Worker.step acmeConfig w (.executeAborted 0 quietOutside)).any
          (·.db.tenant.isSome)) = true := by
    decide +kernel
  obtain ⟨w, hw, h⟩ := (Option.any_eq_true _ _).mp hrun
  obtain ⟨h, h₃⟩ := Bool.and_eq_true_iff.mp h
  obtain ⟨h₁, h₂⟩ := Bool.and_eq_true_iff.mp h
  obtain ⟨run, hrun, hlate⟩ := (Option.any_eq_true _ _).mp h₁
  obtain ⟨hstatus, htenant⟩ := of_decide_eq_true h₂
  obtain ⟨w', hw', h'⟩ := (Option.any_eq_true _ _).mp h₃
  exact ⟨w, w', run, .of_runAll (.of_labels (fun _ _ _ => trivial) _) hw, hrun, hlate, hstatus,
    htenant, hw', h'⟩

end Flexi.Tenants
