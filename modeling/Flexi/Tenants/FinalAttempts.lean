import Flexi.Tenants.ProvisioningRuns

/-!
# Final attempts stay final

Under which condition an attempt that was committed as `succeeded` or
`failed-needs-manual-cleanup` keeps its status, its tenant's status and its
schema in every later state.
-/

namespace Flexi.Tenants
open Flexi.Library

def AttemptStatus.isFinal : AttemptStatus → Bool
  | succeeded | failedNeedsManualCleanup => true
  | accepted | provisioning | failed => false

def Final (db : Database) : Prop := db.attempt.status.isFinal = true

def Linked (db : Database) : Prop := db.tenant ≠ none

/-- No other tenant carries this attempt (the column is unique). -/
def Foreign (db : Database) : Prop :=
  ∀ row ∈ db.otherTenants, row.onboardingAttemptId ≠ some db.attempt.id

/-- What a final attempt must not lose: its status, its tenant and any schema. -/
structure Preserves (db db' : Database) : Prop where
  status : db'.attempt.status = db.attempt.status
  tenant : db'.tenant = db.tenant
  schemas : ∀ schema, db.schemas schema ≠ none → db'.schemas schema ≠ none

theorem Preserves.refl (db : Database) : Preserves db db := ⟨rfl, rfl, fun _ h => h⟩

/-- A timeout fires only before the attempt is final. An aborted run executes no
terminal status write that is not under its signal, except to record a failed
tenant creation while no tenant is linked; and it does not drop the schema or fail
the tenant of a final attempt. -/
def finalCondition : Condition where
  execute _ _ _ := True
  late _ c db := match c.op with
    | .updateAttemptSteps status _ signal =>
      signal = true ∨ status.isTerminal = false ∨ (status = .failed ∧ ¬ Linked db)
    | .dropSchema _ | .markTenantFailed _ => ¬ Final db
    | _ => True
  timeout _ db := ¬ Final db
  crash _ := True

/-- The disturbance by others: an attempt never becomes final by it. -/
structure FinalInterference (db db' : Database) : Prop where
  final : Final db' → Final db
  linked : Linked db → Linked db'
  foreign : Foreign db → Foreign db'
  id : db'.attempt.id = db.attempt.id
  preserves : Final db → Linked db → Preserves db db'

def finalRegime : Regime where
  admits _ _ _ := True
  interfere := FinalInterference
  guarantee db db' := (Final db → Linked db → Preserves db db') ∧
    (Final db' → Final db ∨ Linked db') ∧ (Linked db → Linked db') ∧ (Foreign db → Foreign db')

/-! ### What the operations do to a final attempt -/

section
variable {op : Op} {outside : Outside} {aborted : Bool} {db : Database}

theorem linked_perform (h : Linked db) : Linked (op.perform outside aborted db).2 := by
  by_cases hw : op.writesTenant = false
  · rw [Linked, Op.perform_tenant hw]
    exact h
  unfold Op.perform
  split
  · exact h
  cases op with
  | insertTenant id name slug attemptId =>
    simp only [Op.effect, Database.insertTenant]
    split
    · exact h
    · simp [Linked]
  | activate tenantId =>
    simp only [Op.effect, Database.activate]
    split
    · split
      · simp [Linked]
      · exact h
    · exact h
  | markTenantFailed tenantId =>
    simp only [Op.effect, Database.markTenantFailed]
    split
    · exact h
    · simpa [Linked, Database.withTenantStatus] using h
  | _ => simp [Op.writesTenant] at hw

theorem foreign_perform (h : Foreign db) : Foreign (op.perform outside aborted db).2 := by
  unfold Foreign
  rw [Op.perform_attemptId]
  by_cases hw : op.writesTenant = false
  · rw [Op.perform_otherTenants hw]
    exact h
  unfold Op.perform
  split
  · exact h
  cases op with
  | insertTenant id name slug attemptId =>
    simp only [Op.effect, Database.insertTenant]
    split <;> exact h
  | activate tenantId =>
    simp only [Op.effect, Database.activate]
    split
    · split <;> exact h
    · exact h
  | markTenantFailed tenantId =>
    simp only [Op.effect, Database.markTenantFailed]
    split
    · exact h
    · intro row hrow
      obtain ⟨row₀, hrow₀, rfl⟩ := List.mem_map.mp hrow
      have hrow₀' := h row₀ hrow₀
      split <;> exact hrow₀'
  | _ => simp [Op.writesTenant] at hw

/-- The status writes that can make an attempt final. -/
def Op.writesFinal : Op → Bool
  | updateAttemptSteps status _ _ => status.isFinal
  | _ => false

theorem final_perform (h : op.writesFinal = false)
    (hf : Final (op.perform outside aborted db).2) : Final db := by
  by_cases hw : op.writesAttempt = false
  · rw [Final, Op.perform_attempt hw] at hf
    exact hf
  unfold Op.perform at hf
  split at hf
  · exact hf
  cases op with
  | resetAttemptStatusToProvisioning =>
    simp only [Op.effect, Database.resetAttemptStatusToProvisioning] at hf
    split at hf
    · simp [Final, Database.withAttempt, AttemptStatus.isFinal] at hf
    · exact hf
  | claimAttempt jobId occurredAt =>
    simp only [Op.effect, Database.claimAttempt] at hf
    split at hf
    · simp [Final, Database.withAttempt, AttemptStatus.isFinal] at hf
    · exact hf
  | updateAttemptSteps status outcomes signal =>
    simp only [Op.effect, Database.updateAttemptSteps] at hf
    split at hf
    · exact hf
    · split at hf
      · exact hf
      · simp only [Final, Database.withAttempt] at hf
        simp only [Op.writesFinal] at h
        rw [h] at hf
        cases hf
  | _ => simp [Op.writesAttempt] at hw

theorem Final.not_accepted (h : Final db) : db.attempt.status ≠ .accepted := by
  intro he
  simp [Final, he, AttemptStatus.isFinal] at h

theorem Final.not_failed (h : Final db) : db.attempt.status ≠ .failed := by
  intro he
  simp [Final, he, AttemptStatus.isFinal] at h

theorem Final.not_provisioning (h : Final db) : db.attempt.status ≠ .provisioning := by
  intro he
  simp [Final, he, AttemptStatus.isFinal] at h

theorem Final.terminal (h : Final db) : db.attempt.status.isTerminal = true := by
  revert h
  unfold Final
  cases db.attempt.status <;> simp [AttemptStatus.isFinal, AttemptStatus.isTerminal]

/-- The operations that leave a final attempt alone. -/
def Op.sparesFinal (aborted : Bool) : Op → Bool
  | updateAttemptSteps status _ signal => (signal && aborted) || !status.isTerminal
  | dropSchema _ | markTenantFailed _ => false
  | _ => true

theorem preserves_perform (hf : Final db) (hl : Linked db) (h : op.sparesFinal aborted = true) :
    Preserves db (op.perform outside aborted db).2 := by
  unfold Op.perform
  split
  · exact .refl db
  cases op with
  | resetAttemptStatusToProvisioning =>
    simp only [Op.effect, Database.resetAttemptStatusToProvisioning, if_neg hf.not_failed]
    exact .refl db
  | claimAttempt jobId occurredAt =>
    simp only [Op.effect, Database.claimAttempt, if_neg hf.not_accepted]
    exact .refl db
  | insertTenant id name slug attemptId =>
    have hsome : db.tenant.isSome = true := Option.isSome_iff_ne_none.mpr hl
    simp only [Op.effect, Database.insertTenant, hsome, Bool.or_true, if_true]
    exact .refl db
  | updateAttemptSteps status outcomes signal =>
    simp only [Op.effect, Database.updateAttemptSteps]
    split
    · exact .refl db
    · rename_i hsignal
      rw [if_pos]
      · exact .refl db
      · simp only [Op.sparesFinal, Bool.not_eq_true] at h hsignal
        rw [hsignal, Bool.false_or] at h
        rw [hf.terminal, h]
        rfl
  | activate tenantId =>
    simp only [Op.effect, Database.activate]
    split
    · rw [if_neg (fun ha => hf.not_provisioning ha.2.2)]
      exact .refl db
    · exact .refl db
  | createSchema schema =>
    refine ⟨rfl, rfl, fun s hs => ?_⟩
    by_cases he : s = schema
    · simp [Op.effect, Database.createSchema, Database.withSchema, he]
    · simpa [Op.effect, Database.createSchema, Database.withSchema, he] using hs
  | ensureMetaTables schema | bootstrapSeed schema =>
    simp only [Op.effect, Database.createTables]
    split
    · exact .refl db
    · refine ⟨rfl, rfl, fun s hs => ?_⟩
      by_cases he : s = schema
      · simp [Database.withSchema, he]
      · simpa [Database.withSchema, he] using hs
  | dropSchema schema => cases h
  | markTenantFailed tenantId => cases h
  | assign tenantId email =>
    simp only [Op.effect, Database.assign]
    split <;> exact ⟨rfl, rfl, fun _ hs => hs⟩
  | generate tenantId setupToken now =>
    simp only [Op.effect, Database.generate]
    split <;> exact ⟨rfl, rfl, fun _ hs => hs⟩
  | deleteFirstAdmin tenantId user =>
    simp only [Op.effect, Database.deleteFirstAdmin]
    split <;> exact ⟨rfl, rfl, fun _ hs => hs⟩
  | findUniqueOrThrow tenantId =>
    simp only [Op.effect]
    split <;> exact .refl db
  | _ => exact ⟨rfl, rfl, fun _ hs => hs⟩

end

theorem finalCondition_interference {run : AbortedRun} {c : Call} {db : Database}
    (outside : Outside) (h : finalCondition.late run c db) :
    FinalInterference db (c.op.perform outside true db).2 := by
  obtain ⟨frame, op⟩ := c
  have hkeep : op.writesFinal = false ∧ (Final db → Linked db → op.sparesFinal true = true) ∨
      (op.perform outside true db).2 = db := by
    cases op with
    | updateAttemptSteps status outcomes signal =>
      cases signal with
      | true =>
        right
        unfold Op.perform
        split <;> rfl
      | false =>
        left
        simp only [finalCondition, Bool.false_eq_true, false_or] at h
        rcases h with h | ⟨rfl, h⟩
        · refine ⟨?_, fun _ _ => by simp [Op.sparesFinal, h]⟩
          cases status <;> simp_all [Op.writesFinal, AttemptStatus.isFinal, AttemptStatus.isTerminal]
        · exact ⟨rfl, fun _ hl => absurd hl h⟩
    | dropSchema schema => exact .inl ⟨rfl, fun hf => absurd hf h⟩
    | markTenantFailed tenantId => exact .inl ⟨rfl, fun hf => absurd hf h⟩
    | _ => exact .inl ⟨rfl, fun _ _ => rfl⟩
  rcases hkeep with ⟨hw, hs⟩ | hsame
  · exact ⟨final_perform hw, linked_perform, foreign_perform, Op.perform_attemptId,
      fun hf hl => preserves_perform hf hl (hs hf hl)⟩
  · rw [hsame]
    exact ⟨id, id, id, rfl, fun _ _ => .refl db⟩

/-! ### The outline of the lifecycle -/

/-- The attempt is not final and its tenant is linked: where the steps and the
compensation work. -/
def Open (db : Database) : Prop := ¬ Final db ∧ Linked db

section
variable {js : JsText} {tenantId : TenantId} {signal : Bool}

theorem guarantee_refl (db : Database) : finalRegime.guarantee db db :=
  ⟨fun _ _ => .refl db, .inl, id, id⟩

theorem stable_open : finalRegime.Stable Open :=
  fun _ _ h hi => ⟨fun hf => h.1 (hi.final hf), hi.linked h.2⟩

theorem stable_linked : finalRegime.Stable Linked := by
  intro db db' h hi
  exact FinalInterference.linked hi h

theorem stable_true : finalRegime.Stable fun _ => True := fun _ _ _ _ => trivial

theorem guarantee_of_open {op : Op} {outside : Outside} {db db' : Database}
    {r : Except ProvisioningError op.Res} (h : Open db)
    (hx : op.perform outside false db = (r, db')) : finalRegime.guarantee db db' := by
  obtain rfl : (op.perform outside false db).2 = db' := by rw [hx]
  exact ⟨fun hf => absurd hf h.1, fun _ => .inr (linked_perform h.2), linked_perform,
    foreign_perform⟩

theorem outline_open_calls {α : Type} {H : Call → Prop} {p : Provisioning α} (hp : p.LiveCalls H)
    (hH : ∀ c, H c → c.op.writesFinal = false) :
    Outline finalRegime.rules Open p (fun _ => Open) (Thrown Open) := by
  apply outline_of_calls hp stable_open
  intro c db outside hc hdb _
  exact ⟨guarantee_of_open hdb rfl, fun hf => hdb.1 (final_perform (hH c hc) hf), linked_perform hdb.2⟩

theorem outline_open_request {f : Frame} {op : Op} (h : op.writesFinal = false) :
    Outline finalRegime.rules Open (request f op) (fun _ => Open) (Thrown Open) :=
  outline_open_calls (H := fun c => c.op.writesFinal = false) (request_calls h) fun _ h => h

theorem stepCall_writesFinal {c : Call} (h : StepCall tenantId c) : c.op.writesFinal = false := by
  cases h <;> rfl

theorem compensationCall_writesFinal {c : Call} (h : CompensationCall tenantId c) :
    c.op.writesFinal = false := by
  cases h <;> rfl

/-- The audit is the last thing a thread does to the attempt. -/
theorem outline_finalizeAudit_open {frame : Frame} {id : Option TenantId} {status : AttemptStatus}
    {compensation : Option (List CompensationOutcome)} :
    Outline finalRegime.rules Open (finalizeAudit frame id status compensation signal)
      (fun _ _ => True) (fun _ _ => False) := by
  refine Outline.tryCatch (M := Thrown fun _ => True) ?_ ?_
  · refine Outline.bind outline_throwIfProvisioningCancelled fun _ => ?_
    refine Outline.bind (Q := fun _ => Open) ?_ fun attempt => ?_
    · exact (outline_open_request rfl).conseq (fun _ h => h) (fun _ _ h => h)
        fun _ _ h => ⟨h.1, trivial⟩
    cases attempt with
    | none => exact Outline.pure fun _ _ => trivial
    | some attempt =>
      refine Outline.bind (Q := fun _ => Open) ?_ fun _ => ?_
      · exact (outline_open_request rfl).conseq (fun _ h => h) (fun _ _ h => h)
          fun _ _ h => ⟨h.1, trivial⟩
      refine Outline.bind outline_now fun occurredAt => outline_updateAttemptStep ?_
      apply outline_request stable_open (fun _ => stable_true) stable_true guarantee_refl
      · intro db db' a outside hdb _ hx
        exact ⟨guarantee_of_open hdb hx, trivial⟩
      · intro _ _ _ _ _ _
        trivial
  · intro e db hdb
    simp only [hdb.1, Bool.false_eq_true, if_false]
    trivial

theorem outline_handleProvisioningFailure_open :
    Outline finalRegime.rules Open (handleProvisioningFailure tenantId) (fun _ _ => True)
      (fun _ _ => False) := by
  refine Outline.tryCatch (M := fun _ _ => True) ?_ fun _ => Outline.pure fun _ _ => trivial
  have hcalls {α : Type} {p : Provisioning α} (hp : p.LiveCalls (CompensationCall tenantId)) :
      Outline finalRegime.rules Open p (fun _ => Open) (fun _ _ => True) :=
    (outline_open_calls hp fun _ => compensationCall_writesFinal).conseq (fun _ h => h)
      (fun _ _ h => h) fun _ _ _ => trivial
  refine Outline.bind (hcalls (.bind (request_calls .readAttemptStepOutcomes) fun _ => .pure))
    fun stepOutcomes => ?_
  refine Outline.bind (hcalls runCompensation_calls) fun compensation => ?_
  have haudit {status : AttemptStatus} : Outline finalRegime.rules Open
      (finalizeAudit .failure (some tenantId) status (some compensation) false) (fun _ _ => True)
      (fun _ _ => True) :=
    outline_finalizeAudit_open.conseq (fun _ h => h) (fun _ _ h => h) fun _ _ _ => trivial
  split
  · exact haudit
  · exact Outline.bind (hcalls markTenantFailed_calls) fun _ => haudit

theorem outline_provisionTenantSchema_open :
    Outline finalRegime.rules Open (provisionTenantSchema js tenantId signal) (fun _ _ => True)
      (fun _ _ => True) := by
  refine Outline.tryCatch (M := Thrown Open) ?_ ?_
  · refine Outline.bind (outline_open_calls provisionSteps_calls fun _ => stepCall_writesFinal)
      fun _ => ?_
    exact outline_finalizeAudit_open.conseq (fun _ h => h) (fun _ _ h => h) fun _ _ h => h.elim
  · intro e db hdb
    simp only [hdb.1, Bool.false_eq_true, if_false]
    refine (Outline.bind (P := Open) (Q := fun _ _ => True) ?_ fun _ => ?_) db hdb.2
    · exact outline_handleProvisioningFailure_open.conseq (fun _ h => h) (fun _ _ h => h)
        fun _ _ h => h.elim
    · exact Outline.throw fun _ _ => trivial

/-- On the resume path the status that was read decides: a final attempt is left
alone. -/
theorem outline_resume_open {tenant : Tenant} :
    Outline finalRegime.rules Linked (resume js tenant signal) (fun _ _ => True)
      (fun _ _ => True) := by
  have hread : Outline finalRegime.rules Linked (request .lifecycle .readAttemptStatus)
      (fun status db => Linked db ∧ (status ≠ some .succeeded →
        status ≠ some .failedNeedsManualCleanup → ¬ Final db)) (Thrown fun _ => True) := by
    apply outline_request stable_linked ?_ stable_true guarantee_refl
    · intro db db' a outside hdb _ hx
      obtain ⟨_, hx⟩ := Op.perform_ok hx
      cases hx
      refine ⟨guarantee_refl db, hdb, fun h₁ h₂ hf => ?_⟩
      revert hf
      simp only [ne_eq, Option.some.injEq] at h₁ h₂
      unfold Final
      cases hst : db.attempt.status <;> simp_all [AttemptStatus.isFinal]
    · intro _ _ _ _ _ _
      trivial
    · intro status db db' h hi
      exact ⟨hi.linked h.1, fun h₁ h₂ hf => h.2 h₁ h₂ (hi.final hf)⟩
  refine Outline.bind (hread.conseq (fun _ h => h) (fun _ _ h => h) fun _ _ _ => trivial)
    fun status => ?_
  by_cases h₁ : status = some .succeeded
  · rw [if_pos h₁]
    exact Outline.pure fun _ _ => trivial
  rw [if_neg h₁]
  by_cases h₂ : status = some .failedNeedsManualCleanup
  · rw [if_pos h₂]
    exact Outline.throw fun _ _ => trivial
  rw [if_neg h₂]
  refine Outline.pre (P := Open) ?_ fun db h => ⟨h.2 h₁ h₂, h.1⟩
  have hcalls {p : Provisioning Unit} (hp : p.LiveCalls fun c => c.op.writesFinal = false) :
      Outline finalRegime.rules Open p (fun _ => Open) (fun _ _ => True) :=
    (outline_open_calls hp fun _ h => h).conseq (fun _ h => h) (fun _ _ h => h)
      fun _ _ _ => trivial
  refine Outline.bind (Q := fun _ => Open) ?_ fun _ => ?_
  · split
    · exact hcalls (request_calls rfl)
    · exact Outline.pure fun _ h => h
  refine Outline.bind outline_throwIfProvisioningCancelled fun _ => ?_
  refine Outline.bind (hcalls (recordTenantCreationSuccess_calls fun _ => rfl)) fun _ => ?_
  exact outline_provisionTenantSchema_open

/-- The attempt is claimed and not final. -/
structure InCreation (attemptId : String) (db : Database) : Prop where
  final : ¬ Final db
  id : db.attempt.id = attemptId
  foreign : Foreign db

theorem stable_inCreation {attemptId : String} : finalRegime.Stable (InCreation attemptId) := by
  intro db db' h hi
  have hi : FinalInterference db db' := hi
  exact ⟨fun hf => h.final (hi.final hf), hi.id.trans h.id, hi.foreign h.foreign⟩

theorem InCreation.perform {attemptId : String} {op : Op} {outside : Outside} {db db' : Database}
    {r : Except ProvisioningError op.Res} (h : InCreation attemptId db)
    (hw : op.writesFinal = false) (hx : op.perform outside false db = (r, db')) :
    finalRegime.guarantee db db' ∧ InCreation attemptId db' := by
  obtain rfl : (op.perform outside false db).2 = db' := by rw [hx]
  have hfinal : ¬ Final (op.perform outside false db).2 := fun hf => h.final (final_perform hw hf)
  refine ⟨⟨fun hf => absurd hf h.final, fun hf => absurd hf hfinal, linked_perform,
    foreign_perform⟩, hfinal, ?_, foreign_perform h.foreign⟩
  rw [Op.perform_attemptId]
  exact h.id

theorem outline_inCreation_calls {α : Type} {attemptId : String} {p : Provisioning α}
    (hp : p.LiveCalls fun c => c.op.writesFinal = false) :
    Outline finalRegime.rules (InCreation attemptId) p (fun _ => InCreation attemptId)
      (Thrown (InCreation attemptId)) := by
  apply outline_of_calls hp stable_inCreation
  intro c db outside hc hdb _
  exact hdb.perform hc rfl

theorem outline_inCreation_lookup {attemptId : String} {f : Frame} {op : Op}
    (found : op.Res → Prop) (hw : op.writesFinal = false)
    (h : ∀ db db' a outside, InCreation attemptId db → op.effect outside false db = (.ok a, db') →
      found a → Linked db') :
    Outline finalRegime.rules (InCreation attemptId) (request f op)
      (fun a db => InCreation attemptId db ∧ (found a → Linked db))
      (Thrown (InCreation attemptId)) := by
  apply outline_request stable_inCreation ?_ stable_inCreation guarantee_refl
  · intro db db' a outside hdb _ hx
    obtain ⟨hg, hdb'⟩ := hdb.perform hw hx
    exact ⟨hg, hdb', h db db' a outside hdb (Op.perform_ok hx).2⟩
  · intro _ _ _ h _ _
    exact h
  · intro a db db' h hi
    exact ⟨stable_inCreation db db' h.1 hi, fun hf => stable_linked db db' (h.2 hf) hi⟩

theorem outline_createTenant_open {attemptId : String} {payload : SafePayload} :
    Outline finalRegime.rules (InCreation attemptId) (createTenant attemptId payload signal)
      (fun tenant db => tenant ≠ none → Open db) (fun _ _ => True) := by
  have hrecord {frame : Frame} {tenant : Tenant} : Outline finalRegime.rules
      (fun db => InCreation attemptId db ∧ Linked db) (recordTenantCreationSuccess frame tenant)
      (fun _ db => InCreation attemptId db ∧ Linked db) (Thrown (InCreation attemptId)) := by
    have hp : (recordTenantCreationSuccess frame tenant).LiveCalls
        fun c => c.op.writesFinal = false := recordTenantCreationSuccess_calls fun _ => rfl
    refine (outline_of_calls (P := fun db => InCreation attemptId db ∧ Linked db) hp
      (stable_inCreation.and stable_linked) ?_).conseq (fun _ h => h) (fun _ _ h => h)
      fun _ _ h => ⟨h.1, h.2.1⟩
    intro c db outside hc hdb _
    obtain ⟨hg, hdb'⟩ := hdb.1.perform hc rfl
    exact ⟨hg, hdb', linked_perform hdb.2⟩
  have hfailed {errorCode message : String} : Outline finalRegime.rules (InCreation attemptId)
      (do
        recordTenantCreationFailure errorCode message
        pure none) (fun (tenant : Option Tenant) db => tenant ≠ none → Open db)
        (fun _ _ => True) := by
    refine Outline.bind (Q := fun _ => InCreation attemptId)
      ((outline_inCreation_calls (recordTenantCreationFailure_calls fun _ => rfl)).conseq
        (fun _ h => h) (fun _ _ h => h) fun _ _ _ => trivial) fun _ => ?_
    exact Outline.pure fun _ _ h => absurd rfl h
  refine Outline.tryCatch (M := Thrown (InCreation attemptId)) ?_ ?_
  · refine Outline.bind (Q := fun _ db => InCreation attemptId db ∧ Linked db) ?_ fun tenant => ?_
    · refine Outline.bind outline_throwIfProvisioningCancelled fun _ => ?_
      refine Outline.bind (outline_inCreation_lookup (fun t : Option Tenant => t ≠ none) rfl
        ?_) fun tenant => ?_
      · intro db db' t outside _ hx hne
        cases hx
        exact hne
      cases tenant with
      | some tenant => exact Outline.pure fun _ h => ⟨h.1, h.2 (by simp)⟩
      | none =>
        refine Outline.pre (P := InCreation attemptId) ?_ fun _ h => h.1
        refine Outline.bind (Outline.read fun _ _ _ h => h) fun c => ?_
        refine (outline_inCreation_lookup (fun _ : Tenant => True) rfl ?_).conseq
          (fun _ h => h) (fun _ _ h => ⟨h.1, h.2 trivial⟩) fun _ _ h => h
        intro db db' t outside _ hx _
        simp only [Op.effect, Database.insertTenant] at hx
        split at hx
        · cases hx
        · cases hx
          simp [Linked]
    · refine Outline.bind outline_throwIfProvisioningCancelled fun _ => ?_
      refine Outline.bind hrecord fun _ => Outline.pure fun _ h _ => ⟨h.1.final, h.2⟩
  · intro e db hdb
    obtain ⟨he, hdb⟩ := hdb
    simp only [he, Bool.false_eq_true, if_false]
    by_cases hu : e.isUniqueConstraintViolation = true
    · rw [if_pos hu]
      refine (Outline.bind (Q := fun (row : Option Tenant) db => InCreation attemptId db ∧
        ((∃ t, row = some t ∧ t.onboardingAttemptId = some attemptId) → Linked db))
        ((outline_inCreation_lookup _ rfl ?_).conseq (fun _ h => h) (fun _ _ h => h)
          fun _ _ _ => trivial) fun row => ?_) db hdb
      · intro db db' row outside hdb hx hown
        cases hx
        obtain ⟨t, hrow, hid⟩ := hown
        have hmem := List.mem_of_find?_eq_some hrow
        rcases List.mem_append.mp hmem with ht | ht
        · intro hnone
          rw [hnone] at ht
          cases ht
        · exact absurd hid (by rw [← hdb.id]; exact hdb.foreign t ht)
      · cases row with
        | none => exact hfailed.pre fun _ h => h.1
        | some t =>
          show Outline _ _ (if t.onboardingAttemptId = some attemptId then _ else _) _ _
          by_cases hown : t.onboardingAttemptId = some attemptId
          · rw [if_pos hown]
            refine Outline.bind (hrecord.conseq (fun _ h => ⟨h.1, h.2 ⟨t, rfl, hown⟩⟩)
              (fun _ _ h => h) fun _ _ _ => trivial) fun _ => ?_
            exact Outline.pure fun _ h _ => ⟨h.1.final, h.2⟩
          · rw [if_neg hown]
            exact hfailed.pre fun _ h => h.1
    · rw [if_neg hu]
      exact hfailed db hdb

theorem outline_startFresh_open {attemptId : String} :
    Outline finalRegime.rules Foreign (startFresh js attemptId signal) (fun _ _ => True)
      (fun _ _ => True) := by
  have hclaim {jobId : String} {occurredAt : ℕ} : Outline finalRegime.rules Foreign
      (request .lifecycle (.claimAttempt jobId occurredAt))
      (fun attempt db => ∀ row, attempt = some row → InCreation row.id db)
      (Thrown fun _ => True) := by
    apply outline_request ?_ ?_ stable_true guarantee_refl
    · intro db db' a outside hdb _ hx
      obtain ⟨hnofault, heffect⟩ := Op.perform_ok hx
      simp only [Op.effect, Database.claimAttempt] at heffect
      split at heffect
      · rename_i hacc
        have hnot : ¬ Final db := fun hf => hf.not_accepted hacc
        have hin : InCreation db.attempt.id db := ⟨hnot, rfl, hdb⟩
        obtain ⟨hg, hdb'⟩ := hin.perform rfl hx
        cases heffect
        refine ⟨hg, fun row hrow => ?_⟩
        cases hrow
        exact hdb'
      · cases heffect
        exact ⟨guarantee_refl db, fun _ hrow => by cases hrow⟩
    · intro _ _ _ _ _ _
      trivial
    · intro db db' h hi
      exact FinalInterference.foreign hi h
    · intro attempt db db' h hi row hrow
      exact stable_inCreation db db' (h row hrow) hi
  refine Outline.bind outline_now fun occurredAt => ?_
  refine Outline.bind (hclaim.conseq (fun _ h => h) (fun _ _ h => h) fun _ _ _ => trivial)
    fun attempt => ?_
  cases attempt with
  | none => exact Outline.pure fun _ _ => trivial
  | some row =>
    refine Outline.pre (P := InCreation row.id) ?_ fun _ h => h row rfl
    dsimp only
    cases readSafePayload js row.safePayload with
    | none =>
      exact (outline_inCreation_calls (recordTenantCreationFailure_calls fun _ => rfl)).conseq
        (fun _ h => h) (fun _ _ _ => trivial) fun _ _ _ => trivial
    | some payload =>
      refine Outline.bind outline_createTenant_open fun tenant => ?_
      cases tenant with
      | none => exact Outline.pure fun _ _ => trivial
      | some tenant => exact outline_provisionTenantSchema_open.pre fun _ h => h (by simp)

theorem outline_startLifecycle_open {attemptId : String} :
    Outline finalRegime.rules Foreign (startLifecycle js attemptId signal) (fun _ _ => True)
      (fun _ _ => True) := by
  have hfind : Outline finalRegime.rules Foreign (request .lifecycle .findTenantByAttemptId)
      (fun tenant db => (tenant ≠ none → Linked db) ∧ Foreign db) (Thrown fun _ => True) := by
    apply outline_request ?_ ?_ stable_true guarantee_refl
    · intro db db' a outside hdb _ hx
      obtain ⟨_, hx⟩ := Op.perform_ok hx
      cases hx
      exact ⟨guarantee_refl db, id, hdb⟩
    · intro _ _ _ _ _ _
      trivial
    · intro db db' h hi
      exact FinalInterference.foreign hi h
    · intro tenant db db' h hi
      exact ⟨fun ht => FinalInterference.linked hi (h.1 ht), FinalInterference.foreign hi h.2⟩
  refine Outline.bind outline_throwIfProvisioningCancelled fun _ => ?_
  refine Outline.bind (hfind.conseq (fun _ h => h) (fun _ _ h => h) fun _ _ _ => trivial)
    fun tenant => ?_
  refine Outline.bind outline_throwIfProvisioningCancelled fun _ => ?_
  cases tenant with
  | none => exact outline_startFresh_open.pre fun _ h => h.2
  | some tenant => exact outline_resume_open.pre fun _ h => h.1 (by simp)

theorem outline_recordProvisioningTimeout_open {attemptId : String} :
    Outline finalRegime.rules (InCreation attemptId) recordProvisioningTimeout (fun _ _ => True)
      (fun _ _ => True) := by
  refine Outline.bind outline_now fun occurredAt => ?_
  refine Outline.bind (Q := fun _ => InCreation attemptId)
    ((outline_inCreation_calls (updateAttemptSteps_calls rfl)).conseq (fun _ h => h)
      (fun _ _ h => h) fun _ _ _ => trivial) fun _ => ?_
  refine Outline.bind ((outline_inCreation_lookup (fun t : Option Tenant => t ≠ none) rfl ?_).conseq
    (fun _ h => h) (fun _ _ h => h) fun _ _ _ => trivial) fun tenant => ?_
  · intro db db' t outside _ hx hne
    cases hx
    exact hne
  cases tenant with
  | none =>
    refine ((outline_inCreation_calls (finalizeAudit_calls rfl (fun _ => rfl) fun _ => rfl)).conseq
      (fun _ h => h.1) (fun _ _ _ => trivial) fun _ _ _ => trivial)
  | some tenant =>
    exact outline_handleProvisioningFailure_open.conseq
      (fun _ h => ⟨h.1.final, h.2 (by simp)⟩) (fun _ _ h => h) fun _ _ h => h.elim

end

/-! ### Every run -/

/-- A final attempt has its tenant, and no other tenant is this attempt's. -/
def FinalAlways (db : Database) : Prop := (Final db → Linked db) ∧ Foreign db

theorem final_discipline (js : JsText) :
    Discipline js finalCondition finalRegime FinalAlways (fun _ => True) (fun _ => True) where
  reads _ := trivial
  execute _ _ _ _ := trivial
  late _ _ _ outside h := finalCondition_interference outside h
  always_keep := by
    intro db db' hg h
    refine ⟨fun hf => ?_, hg.2.2.2 h.2⟩
    rcases hg.2.1 hf with hf | hl
    · exact hg.2.2.1 (h.1 hf)
    · exact hl
  always_stable := by
    intro db db' h hi
    have hi : FinalInterference db db' := hi
    exact ⟨fun hf => hi.linked (h.1 (hi.final hf)), hi.foreign h.2⟩
  resting_stable := stable_true
  ended_stable := stable_true
  ended_resting _ _ := trivial
  start _ db h _ := outline_startLifecycle_open db h.2
  timeout _ db hf h := outline_recordProvisioningTimeout_open db ⟨hf, rfl, h.2⟩
  crash _ _ _ := trivial

theorem Preserves.trans {db₁ db₂ db₃ : Database} (h : Preserves db₁ db₂) (h' : Preserves db₂ db₃) :
    Preserves db₁ db₃ :=
  ⟨h'.status.trans h.status, h'.tenant.trans h.tenant,
    fun schema hs => h'.schemas schema (h.schemas schema hs)⟩

/-- Once an attempt is final, the rest of a run that meets `finalCondition` changes
neither its status nor its tenant, and drops no schema. -/
theorem final_attempts_stay (cfg : WorkerConfig) {w₀ w w' : Worker} (h₀ : w₀.Accepted)
    (hr : Reach (Worker.step cfg) finalCondition.Ok w₀ w) (hf : Final w.db)
    (hr' : Reach (Worker.step cfg) finalCondition.Ok w w') :
    w'.db.attempt.status = w.db.attempt.status ∧ w'.db.tenant = w.db.tenant ∧
      ∀ schema, w.db.schemas schema ≠ none → w'.db.schemas schema ≠ none := by
  have hD := final_discipline cfg.js
  have hstart : w₀.Holds finalRegime FinalAlways (fun _ => True) (fun _ => True) := by
    refine ⟨⟨fun hfin => ?_, h₀.foreign⟩, ?_⟩
    · exact absurd h₀.status hfin.not_accepted
    · simp [h₀.job]
  have hw := hD.reach hr hstart
  have hinv : w'.Holds finalRegime FinalAlways (fun _ => True) (fun _ => True) ∧
      Preserves w.db w'.db := by
    refine hr'.invariant (I := fun s => s.Holds finalRegime FinalAlways (fun _ => True)
      (fun _ => True) ∧ Preserves w.db s.db) ⟨hw, .refl _⟩ ?_
    intro s s' e _ ih hok hs
    obtain ⟨hholds, hpres⟩ := ih
    obtain ⟨hholds', hchange⟩ := hD.step hholds hok hs
    refine ⟨hholds', hpres.trans ?_⟩
    have hfs : Final s.db := by rw [Final, hpres.status]; exact hf
    have hls : Linked s.db := hholds.1.1 hfs
    rcases hchange with hsame | hg | hi
    · rw [hsame]
      exact .refl _
    · exact hg.1 hfs hls
    · exact FinalInterference.preserves hi hfs hls
  exact ⟨hinv.2.status, hinv.2.tenant, hinv.2.schemas⟩

/-- The job succeeds, the worker crashes before BullMQ learns of it, and the
redelivery only reads. -/
theorem final_attempts_stay_acme : ∃ w w', Reach (Worker.step acmeConfig) finalCondition.Ok acmeJob w ∧
    Final w.db ∧ Reach (Worker.step acmeConfig) finalCondition.Ok w w' ∧
    w'.db.attempt.status = w.db.attempt.status ∧ w'.db.tenant = w.db.tenant ∧
    ∀ schema, w.db.schemas schema ≠ none → w'.db.schemas schema ≠ none := by
  have hrun : (runAll (Worker.step acmeConfig) acmeJob (acmeCalls 24 ++ [.execute quietOutside])).any
      (fun w => w.db.attempt.status.isFinal &&
        (runAll (Worker.step acmeConfig) w (.crash :: acmeCalls 2)).isSome) = true := by
    decide +kernel
  obtain ⟨w, hw, hw'⟩ := (Option.any_eq_true _ _).mp hrun
  obtain ⟨hf, hnext⟩ := Bool.and_eq_true_iff.mp hw'
  obtain ⟨w', hw'⟩ := Option.isSome_iff_exists.mp hnext
  have hok : ∀ e : WorkerEvent, e.undisturbed = true → ∀ s, finalCondition.Ok s e := by
    intro e he s
    cases e <;> simp [WorkerEvent.undisturbed, Condition.Ok, finalCondition] at he ⊢
  have hr : Reach (Worker.step acmeConfig) finalCondition.Ok acmeJob w :=
    .of_runAll (.of_labels (fun e he => hok e (List.all_eq_true.mp (by decide +kernel) e he)) _) hw
  have hr' : Reach (Worker.step acmeConfig) finalCondition.Ok w w' :=
    .of_runAll (.of_labels (fun e he => hok e (List.all_eq_true.mp (by decide +kernel) e he)) _) hw'
  exact ⟨w, w', hr, hf, hr', final_attempts_stay acmeConfig acmeJob_accepted hr hf hr'⟩

/-- The timer fires between the commit of `succeeded` and the answer to it: the
timeout handling overwrites the status, drops the schema and fails the tenant. -/
theorem final_attempt_overwritten : ∃ w w',
    Reach (Worker.step acmeConfig) (fun _ _ => True) acmeJob w ∧
    w.db.attempt.status = .succeeded ∧ w.db.tenant.map (·.status) = some .ACTIVE ∧
    (w.db.schemas acmeId.schema).isSome = true ∧
    Reach (Worker.step acmeConfig) (fun _ _ => True) w w' ∧
    w'.db.attempt.status = .failed ∧ w'.db.tenant.map (·.status) = some .FAILED ∧
    w'.db.schemas acmeId.schema = none := by
  have hrun : (runAll (Worker.step acmeConfig) acmeJob (acmeCalls 24 ++ [.execute quietOutside])).any
      (fun w => decide (w.db.attempt.status = .succeeded ∧
          w.db.tenant.map (·.status) = some .ACTIVE ∧
          (w.db.schemas acmeId.schema).isSome = true) &&
        (runAll (Worker.step acmeConfig) w (.timeout acmeContext :: acmeAnswers 11)).any fun w' =>
          decide (w'.db.attempt.status = .failed ∧ w'.db.tenant.map (·.status) = some .FAILED ∧
            w'.db.schemas acmeId.schema = none)) = true := by
    decide +kernel
  obtain ⟨w, hw, h⟩ := (Option.any_eq_true _ _).mp hrun
  obtain ⟨h₁, h₂⟩ := Bool.and_eq_true_iff.mp h
  obtain ⟨w', hw', h'⟩ := (Option.any_eq_true _ _).mp h₂
  have h₁ := of_decide_eq_true h₁
  have h' := of_decide_eq_true h'
  exact ⟨w, w', .of_runAll (.of_labels (fun _ _ _ => trivial) _) hw, h₁.1, h₁.2.1, h₁.2.2,
    .of_runAll (.of_labels (fun _ _ _ => trivial) _) hw', h'⟩

end Flexi.Tenants
