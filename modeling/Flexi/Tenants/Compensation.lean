import Flexi.Library.RelyGuarantee
import Flexi.Tenants.ProvisioningEffects
import Flexi.Tenants.ProvisioningWorker

/-!
# What compensation reports

The removal of the First Admin collects the ids of the rows it finds; the report of a
failed removal is written from a variable that only a removal that returns assigns.
-/

namespace Flexi.Tenants
open Flexi.Library

/-! ### The ids -/

structure FirstAdminDeactivationIds where
  tenantUserId : Option ℕ := none
  authAccountId : Option ℕ := none
  roleId : Option ℕ := none
  deriving DecidableEq, Repr

/-- `FirstAdminService.deactivate` with what it returns. -/
def FirstAdminService.deactivate (tenantId : TenantId) :
    Provisioning FirstAdminDeactivationIds := do
  let existingRole ← request .failure (.findAdminRole tenantId)
  let existingTenantUser ← request .failure (.findTenantUser tenantId)
  request .failure (.deleteFirstAdmin tenantId existingTenantUser)
  pure
    { tenantUserId := existingTenantUser.map (·.tenantUserId)
      authAccountId := existingTenantUser.map (·.authAccountId)
      roleId := existingRole }

def describeId (label : String) : Option ℕ → List String
  | none => []
  | some id => [label ++ "=" ++ toString id]

def describeFirstAdminIds (tenantId : TenantId) (firstAdminIds : FirstAdminDeactivationIds) :
    String :=
  ", ".intercalate (["tenantId=" ++ tenantId.val] ++
    describeId "tenantUserId" firstAdminIds.tenantUserId ++
    describeId "authAccountId" firstAdminIds.authAccountId ++
    describeId "roleId" firstAdminIds.roleId)

/-- `runCompensationSubStep` where `run` assigns a variable: the catch block reads what
the variable was before. -/
def runAssigningSubStep {α : Type} (step : StepName) (action : CompensationAction)
    (actionName : String) (run : Provisioning α) (unassigned : α)
    (describeIdentifiers : α → String) : Provisioning CompensationOutcome :=
  tryCatch
    (do
      let _ ← run
      pure { step := step, action := action, status := .succeeded })
    fun _ => pure
      { step := step, action := action, status := .failed,
        detail := some (actionName ++ " failed and requires manual cleanup. Known identifiers: " ++
          describeIdentifiers unassigned ++ ".") }

theorem describeFirstAdminIds_unassigned (tenantId : TenantId) :
    describeFirstAdminIds tenantId {} = "tenantId=" ++ tenantId.val := by
  simp [describeFirstAdminIds, describeId]

/-- Apart from what it returns it is the `deactivate` of the lifecycle. -/
theorem deactivate_bind {α : Type} (tenantId : TenantId) (p : Provisioning α) :
    (FirstAdminService.deactivate tenantId >>= fun _ => p) =
      (deactivate tenantId >>= fun _ => p) := by
  simp only [FirstAdminService.deactivate, deactivate, request, Prog.await, Prog.call_bind]
  congr 1
  funext role
  cases role with
  | error e => rfl
  | ok role =>
    simp only [Prog.ret_bind, Prog.call_bind]
    congr 1
    funext user
    cases user with
    | error e => rfl
    | ok user =>
      simp only [Prog.ret_bind, Prog.call_bind]
      congr 1
      funext done
      cases done with
      | error e => rfl
      | ok _ => rfl

/-- The sub-step of `runCompensation` is the one that assigns `firstAdminIds`. -/
theorem deactivate_subStep_eq (tenantId : TenantId) :
    runAssigningSubStep .first_admin_assigned .deactivate_first_admin "deactivate_first_admin"
        (FirstAdminService.deactivate tenantId) {} (describeFirstAdminIds tenantId) =
      runCompensationSubStep .first_admin_assigned .deactivate_first_admin
        "deactivate_first_admin" (deactivate tenantId) ("tenantId=" ++ tenantId.val) := by
  simp only [runAssigningSubStep, runCompensationSubStep, describeFirstAdminIds_unassigned,
    deactivate_bind]

/-! ### The removal's statements -/

inductive RemovalStatement where
  | findAdminRole
  | findTenantUser
  | deleteFirstAdmin
  deriving DecidableEq, Repr

/-- The ids of a tenant's user and the account behind it. -/
def Database.firstAdmin (db : Database) (tenantId : TenantId) : Option FirstAdminIds :=
  (db.rows tenantId).tenantUsers.head?.map fun user => ⟨user.id, user.authAccountId⟩

def RemovalStatement.op (db : Database) (tenantId : TenantId) : RemovalStatement → Op
  | findAdminRole => .findAdminRole tenantId
  | findTenantUser => .findTenantUser tenantId
  | deleteFirstAdmin => .deleteFirstAdmin tenantId (db.firstAdmin tenantId)

/-- What the removal has found when it comes to a statement. -/
def foundBefore (db : Database) (tenantId : TenantId) :
    RemovalStatement → FirstAdminDeactivationIds
  | .findAdminRole => {}
  | .findTenantUser => { roleId := (db.rows tenantId).adminRole.map (·.id) }
  | .deleteFirstAdmin =>
    { tenantUserId := (db.firstAdmin tenantId).map (·.tenantUserId)
      authAccountId := (db.firstAdmin tenantId).map (·.authAccountId)
      roleId := (db.rows tenantId).adminRole.map (·.id) }

section Alone

variable (outside : Call → Outside)

/-- Whether a statement of the failure handling is hit by a fault. -/
def faulted (op : Op) : Bool := (outside ⟨.failure, op⟩).fault

/-- The removal fails at a statement, and not before. -/
def RemovalFails (db : Database) (tenantId : TenantId) : RemovalStatement → Prop
  | .findAdminRole => faulted outside (.findAdminRole tenantId) = true
  | .findTenantUser => faulted outside (.findAdminRole tenantId) = false ∧
      faulted outside (.findTenantUser tenantId) = true
  | .deleteFirstAdmin => faulted outside (.findAdminRole tenantId) = false ∧
      faulted outside (.findTenantUser tenantId) = false ∧
      faulted outside (.deleteFirstAdmin tenantId (db.firstAdmin tenantId)) = true

/-- The statements that record the outcome are not hit by faults. -/
structure Recording : Prop where
  readAttemptStepOutcomes : faulted outside .readAttemptStepOutcomes = false
  readAttemptAuditRow : faulted outside .readAttemptAuditRow = false
  upsertAuditLog : ∀ row, faulted outside (.upsertAuditLog row) = false
  updateAttemptSteps : ∀ status outcomes signal,
    faulted outside (.updateAttemptSteps status outcomes signal) = false

/-- The failure handling with nobody else about. -/
def handledAlone (ctx : ℕ → Context) (tenantId : TenantId) (db : Database) : Database :=
  ((handleProvisioningFailure tenantId).eval ctx
    (fun _ c db => c.perform (outside c) false db) 0 db).2

def aloneRules : Rules Call Call.Res Context ProvisioningError Database where
  sees _ := True
  exec c db db' answer := c.perform (outside c) false db = (answer, db')
  interfere _ _ := False
  guarantee _ _ := True

variable {outside}

theorem aloneRules_stable (P : Database → Prop) : (aloneRules outside).Stable P :=
  fun _ _ _ hno => hno.elim

theorem aloneRules_exec {op : Op} {db db' : Database} {answer : Except ProvisioningError op.Res} :
    (aloneRules outside).exec ⟨.failure, op⟩ db db' answer ↔
      (if faulted outside op then (.error (.database none), db)
        else op.effect (outside ⟨.failure, op⟩) false db) = (answer, db') :=
  Iff.rfl

theorem call_answered {op : Op} {P : Database → Prop} {Q : op.Res → Database → Prop}
    {E : ProvisioningError → Database → Prop} (hfault : faulted outside op = false)
    (h : ∀ db, P db → ∃ a db', op.effect (outside ⟨.failure, op⟩) false db = (.ok a, db') ∧ Q a db') :
    Outline (aloneRules outside) P (request .failure op) Q E := by
  refine .await (aloneRules_stable _) (fun _ => aloneRules_stable _) (fun _ => aloneRules_stable _)
    ?_ ?_
  · intro db db' a hP hexec
    obtain ⟨a', db'', heffect, hQ⟩ := h db hP
    rw [aloneRules_exec, hfault, heffect] at hexec
    cases hexec
    exact ⟨trivial, hQ⟩
  · intro db db' e hP hexec
    obtain ⟨a', db'', heffect, hQ⟩ := h db hP
    rw [aloneRules_exec, hfault, heffect] at hexec
    cases hexec

theorem call_faulted {op : Op} {P : Database → Prop} {Q : op.Res → Database → Prop}
    (hfault : faulted outside op = true) :
    Outline (aloneRules outside) P (request .failure op) Q fun _ => P := by
  refine .await (aloneRules_stable _) (fun _ => aloneRules_stable _) (fun _ => aloneRules_stable _)
    ?_ ?_
  · intro db db' a hP hexec
    rw [aloneRules_exec, hfault] at hexec
    cases hexec
  · intro db db' e hP hexec
    rw [aloneRules_exec, hfault] at hexec
    cases hexec
    exact ⟨trivial, hP⟩

theorem call_answered_alone {op : Op} {d : Database} {a : op.Res}
    {E : ProvisioningError → Database → Prop} (hfault : faulted outside op = false)
    (h : (op.effect (outside ⟨.failure, op⟩) false d).1 = .ok a) :
    Outline (aloneRules outside) (· = d) (request .failure op)
      (fun x db => x = a ∧ db = (op.effect (outside ⟨.failure, op⟩) false d).2) E := by
  refine call_answered hfault ?_
  rintro db rfl
  exact ⟨a, _, Prod.ext h rfl, rfl, rfl⟩

theorem call_faulted_alone {op : Op} {d : Database} (hfault : faulted outside op = true) :
    Outline (aloneRules outside) (· = d) (request .failure op) (fun _ _ => False)
      fun _ db => db = d :=
  call_faulted hfault

/-! ### The sub-steps -/

/-- The outcome of a sub-step, by whether it failed. -/
def reported (step : StepName) (action : CompensationAction) (actionName identifiers : String)
    (failed : Bool) : CompensationOutcome :=
  if failed then
    { step := step, action := action, status := .failed,
      detail := some (actionName ++ " failed and requires manual cleanup. Known identifiers: " ++
        identifiers ++ ".") }
  else { step := step, action := action, status := .succeeded }

theorem subStep_outline {P : Database → Prop} {Q R : Database → Prop}
    {E : ProvisioningError → Database → Prop} {run : Provisioning Unit}
    (step : StepName) (action : CompensationAction) (actionName identifiers : String)
    (hrun : Outline (aloneRules outside) P run (fun _ => Q) fun _ => R) :
    Outline (aloneRules outside) P
      (runCompensationSubStep step action actionName run identifiers)
      (fun outcome db => outcome = reported step action actionName identifiers false ∧ Q db ∨
        outcome = reported step action actionName identifiers true ∧ R db) E := by
  refine .tryCatch (M := fun _ => R) (.bind hrun ?_) ?_
  · intro _
    exact .pure fun db hdb => .inl ⟨rfl, hdb⟩
  · intro e
    exact .pure fun db hdb => .inr ⟨rfl, hdb⟩

variable {d : Database} {tenantId : TenantId}

/-- The database after a statement that is hit by a fault or executed. -/
def afterCall (outside : Call → Outside) (op : Op) (db : Database) : Database :=
  if faulted outside op then db else (op.effect (outside ⟨.failure, op⟩) false db).2

theorem callSubStep_outline (op : Op) (run : Provisioning Unit)
    {E : ProvisioningError → Database → Prop} (step : StepName)
    (action : CompensationAction) (actionName identifiers : String)
    (hok : faulted outside op = false → Outline (aloneRules outside) (· = d) run
      (fun _ db => db = (op.effect (outside ⟨.failure, op⟩) false d).2) fun _ _ => False)
    (herror : faulted outside op = true → Outline (aloneRules outside) (· = d) run
      (fun _ _ => False) fun _ db => db = d) :
    Outline (aloneRules outside) (· = d)
      (runCompensationSubStep step action actionName run identifiers)
      (fun outcome db =>
        outcome = reported step action actionName identifiers (faulted outside op) ∧
          db = afterCall outside op d) E := by
  cases hfault : faulted outside op with
  | false =>
    refine (subStep_outline step action actionName identifiers (hok hfault)).conseq (fun _ h => h)
      ?_ (fun _ _ h => h)
    rintro outcome db (⟨houtcome, hdb⟩ | ⟨_, hno⟩)
    · exact ⟨houtcome, by rw [afterCall, hfault]; exact hdb⟩
    · exact hno.elim
  | true =>
    refine (subStep_outline step action actionName identifiers (herror hfault)).conseq
      (fun _ h => h) ?_ (fun _ _ h => h)
    rintro outcome db (⟨_, hno⟩ | ⟨houtcome, hdb⟩)
    · exact hno.elim
    · exact ⟨houtcome, by rw [afterCall, hfault]; exact hdb⟩

theorem revoke_outline {E : ProvisioningError → Database → Prop} :
    Outline (aloneRules outside) (· = d)
      (runCompensationSubStep .setup_link_generated .revoke_setup_tokens "revoke_setup_tokens"
        (do
          let c ← Prog.read
          request .failure (.revokeAll tenantId c.now))
        ("tenantId=" ++ tenantId.val))
      (fun outcome db => ∃ now, outcome = reported .setup_link_generated .revoke_setup_tokens
          "revoke_setup_tokens" ("tenantId=" ++ tenantId.val)
          (faulted outside (.revokeAll tenantId now)) ∧
        db = afterCall outside (.revokeAll tenantId now) d) E := by
  intro db hdb c _
  have hstep : Outline (aloneRules outside) (· = d) _ _ E :=
    callSubStep_outline (.revokeAll tenantId c.now)
      (request .failure (.revokeAll tenantId c.now)) .setup_link_generated
      .revoke_setup_tokens "revoke_setup_tokens" ("tenantId=" ++ tenantId.val)
      (fun hfault => (call_answered_alone hfault rfl).conseq (fun _ h => h) (fun _ _ h => h.2)
        fun _ _ h => h)
      call_faulted_alone
  exact (hstep db hdb).mono (fun outcome db h => ⟨c.now, h⟩) fun _ _ h => h

theorem drop_outline {E : ProvisioningError → Database → Prop} :
    Outline (aloneRules outside) (· = d)
      (runCompensationSubStep .schema_created .drop_tenant_schema "drop_tenant_schema"
        (request .failure (.dropSchema tenantId.schema))
        ("tenantId=" ++ tenantId.val ++ ", schema=" ++ tenantId.schema))
      (fun outcome db => outcome = reported .schema_created .drop_tenant_schema
          "drop_tenant_schema" ("tenantId=" ++ tenantId.val ++ ", schema=" ++ tenantId.schema)
          (faulted outside (.dropSchema tenantId.schema)) ∧
        db = afterCall outside (.dropSchema tenantId.schema) d) E :=
  callSubStep_outline (.dropSchema tenantId.schema) _ _ _ _ _
    (fun hfault => (call_answered_alone hfault rfl).conseq (fun _ h => h) (fun _ _ h => h.2)
      fun _ _ h => h)
    call_faulted_alone

/-- Whatever statement the removal fails at, it leaves the database as it was. -/
theorem deactivate_outline {Q : Database → Prop} {k : RemovalStatement}
    (h : RemovalFails outside d tenantId k) :
    Outline (aloneRules outside) (· = d) (deactivate tenantId) (fun _ => Q) fun _ db => db = d := by
  cases k with
  | findAdminRole => exact .bind (Q := fun _ _ => False) (call_faulted h) fun _ _ hno => hno.elim
  | findTenantUser =>
    obtain ⟨hrole, huser⟩ := h
    refine .bind (Q := fun _ db => db = d) (call_answered hrole fun db hdb => ⟨_, db, rfl, hdb⟩) ?_
    intro _
    exact .bind (Q := fun _ _ => False) (call_faulted huser) fun _ _ hno => hno.elim
  | deleteFirstAdmin =>
    obtain ⟨hrole, huser, hdelete⟩ := h
    refine .bind (Q := fun _ db => db = d) (call_answered hrole fun db hdb => ⟨_, db, rfl, hdb⟩) ?_
    intro _
    refine .bind (Q := fun user db => user = d.firstAdmin tenantId ∧ db = d)
      (call_answered huser fun db hdb => ⟨_, db, rfl, by rw [hdb]; exact ⟨rfl, rfl⟩⟩) ?_
    rintro user db ⟨rfl, hdb⟩
    exact call_faulted hdelete db hdb

theorem deactivateSubStep_outline {k : RemovalStatement} (h : RemovalFails outside d tenantId k)
    {E : ProvisioningError → Database → Prop} :
    Outline (aloneRules outside) (· = d)
      (runCompensationSubStep .first_admin_assigned .deactivate_first_admin
        "deactivate_first_admin" (deactivate tenantId) ("tenantId=" ++ tenantId.val))
      (fun outcome db => outcome = reported .first_admin_assigned .deactivate_first_admin
        "deactivate_first_admin" ("tenantId=" ++ tenantId.val) true ∧ db = d) E := by
  refine (subStep_outline _ _ _ _ (deactivate_outline (Q := fun _ => False) h)).conseq
    (fun _ h => h) ?_ (fun _ _ h => h)
  rintro outcome db (⟨_, hno⟩ | houtcome)
  · exact hno.elim
  · exact houtcome

theorem RemovalFails.afterRevoke {k : RemovalStatement} (h : RemovalFails outside d tenantId k)
    (now : ℕ) : RemovalFails outside (afterCall outside (.revokeAll tenantId now) d) tenantId k := by
  have hadmin : (afterCall outside (.revokeAll tenantId now) d).firstAdmin tenantId =
      d.firstAdmin tenantId := by
    unfold afterCall
    split
    · rfl
    · simp [Op.effect, Database.firstAdmin, Database.revokeAll, Database.withRows,
        TenantRows.revokeTokens]
  cases k with
  | findAdminRole => exact h
  | findTenantUser => exact h
  | deleteFirstAdmin =>
    simp only [RemovalFails, hadmin]
    exact h

/-! ### The whole of the handling -/

/-- The outcome of the third sub-step. -/
def schemaOutcome (outside : Call → Outside) (tenantId : TenantId) (created : Bool) :
    CompensationOutcome :=
  if created then
    reported .schema_created .drop_tenant_schema "drop_tenant_schema"
      ("tenantId=" ++ tenantId.val ++ ", schema=" ++ tenantId.schema)
      (faulted outside (.dropSchema tenantId.schema))
  else
    { step := .schema_created, action := .drop_tenant_schema, status := .skipped,
      detail := some "schema_created never succeeded for this attempt." }

/-- What the compensation of a tenant leaves. -/
def afterCompensation (outside : Call → Outside) (tenantId : TenantId) (now : ℕ) (created : Bool)
    (db : Database) : Database :=
  let revoked := afterCall outside (.revokeAll tenantId now) db
  if created then afterCall outside (.dropSchema tenantId.schema) revoked else revoked

/-- The outcomes of a compensation whose second sub-step has failed. -/
def failedCompensation (outside : Call → Outside) (tenantId : TenantId) (now : ℕ)
    (created : Bool) : List CompensationOutcome :=
  [reported .setup_link_generated .revoke_setup_tokens "revoke_setup_tokens"
      ("tenantId=" ++ tenantId.val) (faulted outside (.revokeAll tenantId now)),
    reported .first_admin_assigned .deactivate_first_admin "deactivate_first_admin"
      ("tenantId=" ++ tenantId.val) true,
    schemaOutcome outside tenantId created]

theorem runCompensation_outline {k : RemovalStatement} (h : RemovalFails outside d tenantId k)
    (outcomes : List StepOutcome) {E : ProvisioningError → Database → Prop} :
    Outline (aloneRules outside) (· = d) (runCompensation tenantId outcomes)
      (fun compensation db => ∃ now,
        compensation = failedCompensation outside tenantId now (succeeded outcomes .schema_created) ∧
        db = afterCompensation outside tenantId now (succeeded outcomes .schema_created) d) E := by
  unfold runCompensation
  refine revoke_outline.bind ?_
  rintro revoked db ⟨now, rfl, rfl⟩
  refine (deactivateSubStep_outline (h.afterRevoke now)).bind ?_ _ rfl
  rintro deactivated db ⟨rfl, rfl⟩
  unfold failedCompensation afterCompensation schemaOutcome
  cases succeeded outcomes .schema_created with
  | false => exact ⟨now, rfl, rfl⟩
  | true =>
    refine drop_outline.bind ?_ _ rfl
    rintro dropped db ⟨rfl, rfl⟩
    exact ⟨now, rfl, rfl⟩

theorem throwIfProvisioningCancelled_outline {P : Database → Prop}
    {E : ProvisioningError → Database → Prop} :
    Outline (aloneRules outside) P (throwIfProvisioningCancelled false) (fun _ => P) E := by
  intro db hdb c _
  exact hdb

theorem now_outline {P : Database → Prop} {E : ProvisioningError → Database → Prop} :
    Outline (aloneRules outside) P now (fun _ => P) E := by
  intro db hdb c _
  exact hdb

theorem finalizeAudit_outline (hrecord : Recording outside) (compensation : List CompensationOutcome)
    {E : ProvisioningError → Database → Prop} :
    Outline (aloneRules outside) (· = d)
      (finalizeAudit .failure (some tenantId) .failedNeedsManualCleanup (some compensation) false)
      (fun _ db => db.attempt.status = .failedNeedsManualCleanup ∧ db.schemas = d.schemas ∧
        db.rows = d.rows ∧ ∃ row, db.audit = some row ∧
          row.finalStatus = .failedNeedsManualCleanup ∧ row.compensation = some compensation) E := by
  refine .tryCatch (M := fun _ _ => False) ?_ fun _ _ hno => hno.elim
  refine throwIfProvisioningCancelled_outline.bind fun _ => ?_
  refine (call_answered_alone hrecord.readAttemptAuditRow rfl).bind ?_
  rintro attempt db ⟨rfl, rfl⟩
  refine Outline.bind (call_answered_alone (hrecord.upsertAuditLog _) rfl) ?_ _ rfl
  rintro _ db ⟨-, rfl⟩
  refine Outline.bind (now_outline (P := (· = _))) ?_ _ rfl
  intro occurredAt
  refine throwIfProvisioningCancelled_outline.bind fun _ => ?_
  refine call_answered (hrecord.updateAttemptSteps _ _ _) ?_
  rintro db rfl
  refine ⟨(), _, updateAttemptSteps_terminal rfl, ?_⟩
  exact ⟨rfl, rfl, rfl, _, rfl, rfl, rfl⟩

theorem handleProvisioningFailure_outline {k : RemovalStatement}
    (h : RemovalFails outside d tenantId k) (hrecord : Recording outside)
    {E : ProvisioningError → Database → Prop} :
    Outline (aloneRules outside) (· = d) (handleProvisioningFailure tenantId)
      (fun _ db => ∃ now row,
        let created := succeeded d.attempt.stepOutcomes .schema_created
        db.attempt.status = .failedNeedsManualCleanup ∧
        db.schemas = (afterCompensation outside tenantId now created d).schemas ∧
        db.rows = (afterCompensation outside tenantId now created d).rows ∧
        db.audit = some row ∧ row.finalStatus = .failedNeedsManualCleanup ∧
        row.compensation = some (failedCompensation outside tenantId now created)) E := by
  refine .tryCatch (M := fun _ _ => False) ?_ fun _ _ hno => hno.elim
  refine Outline.bind (Q := fun outcomes db => outcomes = d.attempt.stepOutcomes ∧ db = d) ?_ ?_
  · refine (call_answered_alone hrecord.readAttemptStepOutcomes rfl).bind ?_
    rintro outcomes db ⟨rfl, rfl⟩
    exact ⟨rfl, rfl⟩
  · rintro outcomes db ⟨rfl, rfl⟩
    refine (runCompensation_outline h _).bind ?_ _ rfl
    rintro compensation db' ⟨now, rfl, rfl⟩
    have hfailed : (failedCompensation outside tenantId now
        (succeeded db.attempt.stepOutcomes .schema_created)).any
          (fun outcome => outcome.status == .failed) = true :=
      List.any_eq_true.mpr ⟨_, List.mem_cons_of_mem _ List.mem_cons_self, rfl⟩
    rw [if_pos hfailed]
    refine ((finalizeAudit_outline hrecord _) _ rfl).mono ?_ fun _ _ h => h
    rintro _ final ⟨hstatus, hschemas, hrows, row, haudit, hfinal, hcompensation⟩
    exact ⟨now, row, hstatus, hschemas, hrows, haudit, hfinal, hcompensation⟩

end Alone

/-! ### What the detail names -/

/-- `label=id` stands somewhere in a detail. -/
def Names (detail label : String) (id : ℕ) : Prop :=
  ∃ before after, detail = before ++ (label ++ "=" ++ toString id) ++ after

def NamesFound (detail : Option String) (found : FirstAdminDeactivationIds) : Prop :=
  ∃ text, detail = some text ∧
    (∀ id, found.tenantUserId = some id → Names text "tenantUserId" id) ∧
    (∀ id, found.authAccountId = some id → Names text "authAccountId" id) ∧
    ∀ id, found.roleId = some id → Names text "roleId" id

theorem append_cons_left_unique {α : Type} {x : α} {a b c d : List α} (ha : x ∉ a) (hb : x ∉ b)
    (h : c ++ x :: d = a ++ x :: b) : c = a := by
  induction c generalizing a with
  | nil =>
    cases a with
    | nil => rfl
    | cons y a =>
      rw [List.nil_append, List.cons_append, List.cons.injEq] at h
      exact absurd (h.1 ▸ List.mem_cons_self) ha
  | cons z c ih =>
    cases a with
    | nil =>
      rw [List.nil_append, List.cons_append, List.cons.injEq] at h
      exact absurd (h.2 ▸ List.mem_append_right c List.mem_cons_self) hb
    | cons y a =>
      rw [List.cons_append, List.cons_append, List.cons.injEq] at h
      rw [h.1, ih (fun hmem => ha (List.mem_cons_of_mem y hmem)) h.2]

theorem TenantId.not_mem_equals (tenantId : TenantId) : '=' ∉ tenantId.val.toList := by
  have hresolve := tenantId.resolve
  have hpattern : Tenancy.matchesIdentifierPattern ("tenant_" ++ tenantId.val) = true := by
    by_contra hunsafe
    rw [Bool.not_eq_true] at hunsafe
    simp only [Tenancy.resolveTenantSchema, hunsafe, Bool.not_false, if_true] at hresolve
    split at hresolve <;> cases hresolve
  intro hmem
  have hchars : ("tenant_" ++ tenantId.val).toList = 't' :: ("enant_".toList ++ tenantId.val.toList) := by
    rw [String.toList_append]
    rfl
  rw [Tenancy.matchesIdentifierPattern, hchars] at hpattern
  simp only [Bool.and_eq_true, List.all_eq_true] at hpattern
  have hpart := hpattern.2 '=' (List.mem_append_right _ hmem)
  exact absurd hpart (by decide)

/-- What stands before the only `=` of a text is all that can be named in it. -/
theorem suffix_of_names {head tail label : String} {id : ℕ} (hhead : '=' ∉ head.toList)
    (htail : '=' ∉ tail.toList) (h : Names (head ++ "=" ++ tail) label id) :
    label.toList <:+ head.toList := by
  obtain ⟨before, after, htext⟩ := h
  have hlist := congrArg String.toList htext
  simp only [String.toList_append, List.append_assoc] at hlist
  have hequals : "=".toList = ['='] := rfl
  rw [hequals] at hlist
  have hsplit : before.toList ++ label.toList = head.toList := by
    apply append_cons_left_unique hhead htail (d := (toString id).toList ++ after.toList)
    simpa using hlist.symm
  exact ⟨before.toList, hsplit⟩

def removalHead : String :=
  "deactivate_first_admin" ++ (" failed and requires manual cleanup. Known identifiers: " ++
    "tenantId")

theorem removalHead_append (id : String) :
    "deactivate_first_admin" ++ " failed and requires manual cleanup. Known identifiers: " ++
      ("tenantId=" ++ id) ++ "." = removalHead ++ "=" ++ (id ++ ".") := by
  have hlabel : "tenantId=" = "tenantId" ++ "=" := by decide +kernel
  unfold removalHead
  rw [hlabel]
  simp only [String.append_assoc]

theorem removal_reported (tenantId : TenantId) :
    (reported .first_admin_assigned .deactivate_first_admin "deactivate_first_admin"
      ("tenantId=" ++ tenantId.val) true).detail =
        some (removalHead ++ "=" ++ (tenantId.val ++ ".")) := by
  rw [← removalHead_append]
  rfl

theorem not_names_removal (tenantId : TenantId) {label : String} (id : ℕ)
    (hlabel : ¬ label.toList <:+ removalHead.toList) :
    ¬ Names (removalHead ++ "=" ++ (tenantId.val ++ ".")) label id := by
  intro h
  refine hlabel (suffix_of_names (by decide +kernel) ?_ h)
  rw [String.toList_append, List.mem_append, not_or]
  exact ⟨tenantId.not_mem_equals, by decide⟩

/-- So it names every row found exactly when none was. -/
theorem namesFound_removal_iff (tenantId : TenantId) (found : FirstAdminDeactivationIds) :
    NamesFound (reported .first_admin_assigned .deactivate_first_admin "deactivate_first_admin"
      ("tenantId=" ++ tenantId.val) true).detail found ↔ found = {} := by
  rw [removal_reported]
  constructor
  · rintro ⟨text, htext, huser, haccount, hrole⟩
    obtain rfl : _ = text := Option.some.inj htext
    have hnone : ∀ (label : String) (row : Option ℕ), ¬ label.toList <:+ removalHead.toList →
        (∀ id, row = some id → Names (removalHead ++ "=" ++ (tenantId.val ++ ".")) label id) →
          row = none := by
      intro label row hlabel hnames
      cases row with
      | none => rfl
      | some id => exact absurd (hnames id rfl) (not_names_removal tenantId id hlabel)
    have h₁ := hnone "tenantUserId" found.tenantUserId (by decide +kernel) huser
    have h₂ := hnone "authAccountId" found.authAccountId (by decide +kernel) haccount
    have h₃ := hnone "roleId" found.roleId (by decide +kernel) hrole
    cases found
    simp_all
  · rintro rfl
    exact ⟨_, rfl, by simp, by simp, by simp⟩

/-! ### The report -/

/-- A failed removal is reported as it should be: the attempt needs cleaning up, the
audit row has an outcome for each sub-step, and the removal's names what was found. The
other sub-steps have been attempted. -/
structure RemovalReported (outside : Call → Outside) (tenantId : TenantId)
    (found : FirstAdminDeactivationIds) (before after : Database) : Prop where
  attempt : after.attempt.status = .failedNeedsManualCleanup
  report : ∃ row revoked deactivated dropped now,
    after.audit = some row ∧ row.finalStatus = .failedNeedsManualCleanup ∧
    row.compensation = some [revoked, deactivated, dropped] ∧
    deactivated.action = .deactivate_first_admin ∧ deactivated.status = .failed ∧
    NamesFound deactivated.detail found ∧
    revoked = reported .setup_link_generated .revoke_setup_tokens "revoke_setup_tokens"
      ("tenantId=" ++ tenantId.val) (faulted outside (.revokeAll tenantId now)) ∧
    dropped = schemaOutcome outside tenantId
      (succeeded before.attempt.stepOutcomes .schema_created) ∧
    after.rows = (afterCompensation outside tenantId now
      (succeeded before.attempt.stepOutcomes .schema_created) before).rows ∧
    after.schemas = (afterCompensation outside tenantId now
      (succeeded before.attempt.stepOutcomes .schema_created) before).schemas

theorem handledAlone_reports (outside : Call → Outside) (ctx : ℕ → Context) (tenantId : TenantId)
    (db : Database) {k : RemovalStatement} (h : RemovalFails outside db tenantId k)
    (hrecord : Recording outside) :
    ∃ now row, let created := succeeded db.attempt.stepOutcomes .schema_created
      let after := handledAlone outside ctx tenantId db
      after.attempt.status = .failedNeedsManualCleanup ∧
      after.schemas = (afterCompensation outside tenantId now created db).schemas ∧
      after.rows = (afterCompensation outside tenantId now created db).rows ∧
      after.audit = some row ∧ row.finalStatus = .failedNeedsManualCleanup ∧
      row.compensation = some (failedCompensation outside tenantId now created) := by
  have hrun := ((handleProvisioningFailure_outline h hrecord (E := fun _ _ => False)) db rfl).eval
    ctx (fun _ c db => c.perform (outside c) false db) (fun _ => trivial) (fun _ _ _ => rfl) 0
  unfold handledAlone
  revert hrun
  cases (handleProvisioningFailure tenantId).eval ctx
      (fun _ c db => c.perform (outside c) false db) 0 db with
  | mk answer after =>
    cases answer with
    | ok _ => exact id
    | error e => exact fun hno => hno.elim

theorem RemovalReported.nothing_found {outside : Call → Outside} {ctx : ℕ → Context}
    {tenantId : TenantId} {db : Database} {k : RemovalStatement}
    {found : FirstAdminDeactivationIds} (h : RemovalFails outside db tenantId k)
    (hrecord : Recording outside)
    (hreported : RemovalReported outside tenantId found db (handledAlone outside ctx tenantId db)) :
    found = {} := by
  obtain ⟨now, row, -, -, -, haudit, -, hcompensation⟩ :=
    handledAlone_reports outside ctx tenantId db h hrecord
  obtain ⟨row', revoked, deactivated, dropped, now', haudit', -, hcompensation', -, -, hnames, -⟩ :=
    hreported.report
  obtain rfl : row = row' := Option.some.inj (haudit.symm.trans haudit')
  have hlist := Option.some.inj (hcompensation.symm.trans hcompensation')
  rw [failedCompensation, List.cons.injEq, List.cons.injEq] at hlist
  rw [← hlist.2.1] at hnames
  exact (namesFound_removal_iff tenantId found).mp hnames

/-- The report of a failed removal is complete exactly when nothing had been found. -/
theorem removal_reported_iff (outside : Call → Outside) (ctx : ℕ → Context) (tenantId : TenantId)
    (db : Database) (k : RemovalStatement) (h : RemovalFails outside db tenantId k)
    (hrecord : Recording outside) :
    RemovalReported outside tenantId (foundBefore db tenantId k) db
        (handledAlone outside ctx tenantId db) ↔
      foundBefore db tenantId k = {} := by
  constructor
  · intro hreported
    exact hreported.nothing_found h hrecord
  · intro hnothing
    obtain ⟨now, row, hstatus, hschemas, hrows, haudit, hfinal, hcompensation⟩ :=
      handledAlone_reports outside ctx tenantId db h hrecord
    exact ⟨hstatus, row, _, _, _, now, haudit, hfinal, hcompensation, rfl, rfl,
      (namesFound_removal_iff tenantId _).mpr hnothing, rfl, rfl, hrows, hschemas⟩

/-! ### A First Admin that cannot be deleted -/

def acmeFirstAdmin : Database :=
  { acmeAccepted with
    rows := fun _ =>
      { tenantUsers := [{ id := 1, authAccountId := 0, status := "pending_setup", roles := [2] }]
        authAccounts := [{ id := 0, email := "ann@acme.io" }]
        adminRole := some { id := 2, permissions := [] } } }

/-- Faults hit the statements of one kind. -/
def failing (hit : Op → Bool) (c : Call) : Outside := { quietOutside with fault := hit c.op }

def isRoleLookup : Op → Bool
  | .findAdminRole _ => true
  | _ => false

def isFirstAdminDeletion : Op → Bool
  | .deleteFirstAdmin _ _ => true
  | _ => false

theorem removal_reported_acme :
    RemovalReported (failing isRoleLookup) acmeId {} acmeFirstAdmin
      (handledAlone (failing isRoleLookup) (fun _ => acmeContext) acmeId acmeFirstAdmin) :=
  (removal_reported_iff (failing isRoleLookup) (fun _ => acmeContext) acmeId acmeFirstAdmin
    .findAdminRole rfl ⟨rfl, rfl, fun _ => rfl, fun _ _ _ => rfl⟩).mpr rfl

/-- The deletion fails after the user, the account and the role were found. -/
theorem deletion_failure_names_no_row :
    foundBefore acmeFirstAdmin acmeId .deleteFirstAdmin =
        { tenantUserId := some 1, authAccountId := some 0, roleId := some 2 } ∧
      RemovalFails (failing isFirstAdminDeletion) acmeFirstAdmin acmeId .deleteFirstAdmin ∧
      ¬ RemovalReported (failing isFirstAdminDeletion) acmeId
        (foundBefore acmeFirstAdmin acmeId .deleteFirstAdmin) acmeFirstAdmin
        (handledAlone (failing isFirstAdminDeletion) (fun _ => acmeContext) acmeId
          acmeFirstAdmin) := by
  have hfails : RemovalFails (failing isFirstAdminDeletion) acmeFirstAdmin acmeId
      .deleteFirstAdmin := ⟨rfl, rfl, rfl⟩
  refine ⟨rfl, hfails, ?_⟩
  intro hreported
  have hnothing := hreported.nothing_found hfails ⟨rfl, rfl, fun _ => rfl, fun _ _ _ => rfl⟩
  exact absurd hnothing (by decide)

end Flexi.Tenants
