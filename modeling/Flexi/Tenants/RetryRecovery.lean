import Flexi.Tenants.ProvisioningOutlines
import Flexi.Tenants.ProvisioningWorker

/-!
# Retrying a failed provisioning run

Runs of `startLifecycle` one after the other. A compensated failure leaves the
tenant `FAILED`, and no statement of a later run takes that back.
-/

namespace Flexi.Tenants
open Flexi.Library

/-- One run without a timeout: `outside i` decides the `i`-th call, `ctx i` is what
the code reads before it. -/
def runLifecycle (js : JsText) (ctx : ℕ → Context) (outside : ℕ → Outside) (db : Database) :
    Except ProvisioningError Unit × Database :=
  (startLifecycle js db.attempt.id true).eval (fun i => { ctx i with aborted := false })
    (fun i c db => c.op.perform (outside i) false db) 0 db

/-- What a compensated failure leaves: the attempt `failed`, its tenant `FAILED`, no
schema and no First Admin. -/
structure Compensated (db : Database) (tenant : Tenant) : Prop where
  attempt : db.attempt.status = .failed
  linked : db.tenant = some tenant
  status : tenant.status = .FAILED
  schema : db.schemas tenant.id.schema = none
  tenantUsers : (db.rows tenant.id).tenantUsers = []
  authAccounts : (db.rows tenant.id).authAccounts = []
  adminRole : (db.rows tenant.id).adminRole = none

/-- `n` runs in a row that failed and were compensated. -/
inductive FailedRuns (js : JsText) (db₀ : Database) : ℕ → Database → Prop
  | none : FailedRuns js db₀ 0 db₀
  | more {n : ℕ} {db db' : Database} {ctx : ℕ → Context} {outside : ℕ → Outside}
      {e : ProvisioningError} {tenant : Tenant} : FailedRuns js db₀ n db →
      runLifecycle js ctx outside db = (.error e, db') → Compensated db' tenant →
      FailedRuns js db₀ (n + 1) db'

/-- The attempt can be provisioned: it is accepted, its payload is valid, its slug
and First Admin address are free. -/
structure Provisionable (js : JsText) (db : Database) (payload : SafePayload) : Prop where
  status : db.attempt.status = .accepted
  tenant : db.tenant = none
  safePayload : readSafePayload js db.attempt.safePayload = some payload
  slug : ∀ row ∈ db.otherTenants, row.slug ≠ payload.tenantSlug
  email : db.systemUserEmails.contains payload.firstAdminEmail = false

/-! ### A FAILED tenant stays FAILED -/

def TenantFailed (db : Database) : Prop := ∃ tenant, db.tenant = some tenant ∧ tenant.status = .FAILED

theorem TenantFailed.perform {op : Op} {outside : Outside} {aborted : Bool} {db : Database}
    (h : TenantFailed db) : TenantFailed (op.perform outside aborted db).2 := by
  by_cases hw : op.writesTenant = false
  · rw [TenantFailed, Op.perform_tenant hw]
    exact h
  obtain ⟨tenant, ht, hs⟩ := h
  unfold Op.perform
  split
  · exact ⟨tenant, ht, hs⟩
  cases op with
  | insertTenant id name slug attemptId =>
    simp only [Op.effect, Database.insertTenant, ht, Option.isSome_some, Bool.or_true, if_true]
    exact ⟨tenant, ht, hs⟩
  | activate tenantId =>
    simp only [Op.effect, Database.activate, ht, hs, ne_eq, not_true_eq_false, false_and, and_false,
      if_false]
    exact ⟨tenant, ht, hs⟩
  | markTenantFailed tenantId =>
    simp only [Op.effect, Database.markTenantFailed]
    split
    · exact ⟨tenant, ht, hs⟩
    · simp only [Database.withTenantStatus, ht, Option.map_some]
      split
      · exact ⟨_, rfl, rfl⟩
      · exact ⟨tenant, rfl, hs⟩
  | _ => simp [Op.writesTenant] at hw

theorem FailedRuns.tenantFailed {js : JsText} {db₀ db : Database} {n : ℕ}
    (h : FailedRuns js db₀ n db) (hn : n ≠ 0) : TenantFailed db := by
  cases h with
  | none => exact absurd rfl hn
  | more _ _ hc => exact ⟨_, hc.linked, hc.status⟩

/-! ### A first run without faults succeeds -/

/-- Nobody interferes and nothing faults; the tenant id the code makes is unused. -/
def undisturbed (free : TenantId → Prop) : Regime where
  reads c := free c.newTenantId
  admits _ _ outside := outside.fault = false
  interfere _ _ := False
  guarantee _ _ := True

theorem undisturbed_stable {free : TenantId → Prop} (P : Database → Prop) :
    (undisturbed free).Stable P :=
  fun _ _ _ hi => hi.elim

theorem outline_succeeds {free : TenantId → Prop} {f : Frame} {op : Op} {P : Database → Prop}
    {Q : op.Res → Database → Prop}
    (h : ∀ db outside, P db → outside.fault = false →
      ∃ a db', op.effect outside false db = (.ok a, db') ∧ Q a db') :
    Outline (undisturbed free).rules P (request f op) Q (Thrown fun _ => False) := by
  apply outline_request (undisturbed_stable P) (fun a => undisturbed_stable (Q a))
    (undisturbed_stable _) (fun _ => trivial)
  · intro db db' a outside hdb hf hx
    obtain ⟨a', db'', hx', hq⟩ := h db outside hdb hf
    rw [(Op.perform_ok hx).2] at hx'
    cases hx'
    exact ⟨trivial, hq⟩
  · intro db e outside hdb hf hx
    obtain ⟨a', db'', hx', _⟩ := h db outside hdb hf
    rw [Op.perform_of_no_fault hf, hx'] at hx
    cases hx

/-- While the steps run: the tenant is linked and not `FAILED`, the attempt is
`provisioning`, and its payload can be used. -/
structure Ready (js : JsText) (tenantId : TenantId) (payload : SafePayload) (db : Database) :
    Prop where
  tenant : ∃ row, db.tenant = some row ∧ row.id = tenantId ∧ row.status ≠ .FAILED
  attempt : db.attempt.status = .provisioning
  safePayload : readSafePayload js db.attempt.safePayload = some payload
  email : db.systemUserEmails.contains payload.firstAdminEmail = false

section
variable {js : JsText} {tenantId : TenantId} {payload : SafePayload} {db : Database}
  {free : TenantId → Prop} {outside : Outside}

/-- The calls that leave tenant and attempt alone keep `Ready`. -/
theorem Ready.frame {op : Op} (h : Ready js tenantId payload db) (ht : op.writesTenant = false)
    (ha : op.writesAttempt = false) :
    Ready js tenantId payload (op.perform outside false db).2 where
  tenant := by rw [Op.perform_tenant ht]; exact h.tenant
  attempt := by rw [Op.perform_attempt ha]; exact h.attempt
  safePayload := by rw [Op.perform_safePayload]; exact h.safePayload
  email := by rw [Op.perform_systemUserEmails]; exact h.email

theorem Ready.record {outcomes : List StepOutcome} {signal : Bool}
    (h : Ready js tenantId payload db) :
    Ready js tenantId payload
      ((Op.updateAttemptSteps .provisioning outcomes signal).perform outside false db).2 where
  tenant := by rw [Op.perform_tenant rfl]; exact h.tenant
  attempt := by
    unfold Op.perform
    split
    · exact h.attempt
    · simp [Op.effect, Database.updateAttemptSteps, h.attempt, AttemptStatus.isTerminal,
        Database.withAttempt]
  safePayload := by rw [Op.perform_safePayload]; exact h.safePayload
  email := by rw [Op.perform_systemUserEmails]; exact h.email

/-- What a record of an outcome leaves alone. -/
def FrameOnly (X : Database → Prop) : Prop :=
  ∀ db db' : Database, db'.schemas = db.schemas → db'.rows = db.rows → db'.tenant = db.tenant →
    X db → X db'

theorem outline_record {f : Frame} {outcome : StepOutcome} {signal : Bool} {X : Database → Prop}
    (hX : FrameOnly X) :
    Outline (undisturbed free).rules (fun db => Ready js tenantId payload db ∧ X db)
      (request f (.updateAttemptSteps .provisioning [outcome] signal))
      (fun _ db => Ready js tenantId payload db ∧ X db) (Thrown fun _ => False) := by
  apply outline_succeeds
  intro db outside hdb hf
  refine ⟨(), (Op.perform outside false (.updateAttemptSteps .provisioning [outcome] signal) db).2,
    ?_, hdb.1.record, ?_⟩
  · rw [Op.perform_of_no_fault hf]
    simp [Op.effect, Database.updateAttemptSteps, hdb.1.attempt, AttemptStatus.isTerminal]
  · exact hX db _ (Op.perform_schemas rfl) (Op.perform_rows rfl) (Op.perform_tenant rfl) hdb.2

theorem outline_step {α : Type} {step : StepName} {errorCode message : String} {signal : Bool}
    {work : Provisioning α} {X Y : Database → Prop} (hY : FrameOnly Y)
    (hwork : Outline (undisturbed free).rules (fun db => Ready js tenantId payload db ∧ X db) work
      (fun _ db => Ready js tenantId payload db ∧ Y db) (Thrown fun _ => False)) :
    Outline (undisturbed free).rules (fun db => Ready js tenantId payload db ∧ X db)
      (recordedStep step tenantId errorCode message signal work)
      (fun _ db => Ready js tenantId payload db ∧ Y db) (Thrown fun _ => False) :=
  outline_recordedStep hwork (fun _ _ _ _ => outline_record hY) fun _ _ _ _ h => h.elim

theorem outline_work {f : Frame} {op : Op} {X Y : Database → Prop} (ht : op.writesTenant = false)
    (ha : op.writesAttempt = false)
    (h : ∀ db outside, Ready js tenantId payload db → X db →
      ∃ a db', op.effect outside false db = (.ok a, db') ∧ Y db') :
    Outline (undisturbed free).rules (fun db => Ready js tenantId payload db ∧ X db) (request f op)
      (fun _ db => Ready js tenantId payload db ∧ Y db) (Thrown fun _ => False) := by
  apply outline_succeeds
  intro db outside hdb hf
  obtain ⟨a, db', hx, hy⟩ := h db outside hdb.1 hdb.2
  have hr : Ready js tenantId payload (op.perform outside false db).2 := hdb.1.frame ht ha
  rw [Op.perform_of_no_fault hf, hx] at hr
  exact ⟨a, db', hx, hr, hy⟩

def HasSchema (tenantId : TenantId) (db : Database) : Prop :=
  ∃ tables, db.schemas tenantId.schema = some tables

def HasUser (tenantId : TenantId) (db : Database) : Prop := (db.rows tenantId).tenantUsers ≠ []

def IsActive (db : Database) : Prop := ∃ row, db.tenant = some row ∧ row.status = .ACTIVE

theorem HasSchema.frameOnly (tenantId : TenantId) : FrameOnly (HasSchema tenantId) := by
  intro db db' hs _ _ h
  rw [HasSchema, hs]
  exact h

theorem HasUser.frameOnly : FrameOnly (HasUser tenantId) := by
  intro db db' _ hr _ h
  rw [HasUser, hr]
  exact h

theorem IsActive.frameOnly : FrameOnly IsActive := by
  intro db db' _ _ ht h
  rw [IsActive, ht]
  exact h

theorem createTables_succeeds {db : Database} {names : List String} (h : HasSchema tenantId db) :
    ∃ db', db.createTables tenantId.schema names = (.ok (), db') ∧ HasSchema tenantId db' := by
  obtain ⟨tables, ht⟩ := h
  refine ⟨db.withSchema tenantId.schema (some (tables ∪ names)), ?_, tables ∪ names, ?_⟩
  · simp [Database.createTables, ht]
  · simp [Database.withSchema]

theorem assign_succeeds {db : Database} {email : String}
    (h : db.systemUserEmails.contains email = false) :
    ∃ db', db.assign tenantId email = (.ok (), db') ∧ HasUser tenantId db' := by
  refine ⟨_, if_neg (by rw [h]; simp), ?_⟩
  simp only [HasUser, Database.withRows, Function.update_self, TenantRows.assign]
  split <;> simp

theorem outline_readAttemptSafePayload {step : StepName} {X : Database → Prop} :
    Outline (undisturbed free).rules (fun db => Ready js tenantId payload db ∧ X db)
      (readAttemptSafePayload js (.step step))
      (fun p db => p = some payload ∧ Ready js tenantId payload db ∧ X db)
      (Thrown fun _ => False) := by
  refine Outline.bind (Q := fun json db => json.bind (readSafePayload js) = some payload ∧
    Ready js tenantId payload db ∧ X db) ?_ fun json => Outline.pure fun db h => h
  apply outline_succeeds
  intro db outside hdb hf
  exact ⟨_, db, rfl, hdb.1.safePayload, hdb⟩

theorem outline_assignFirstAdmin {signal : Bool} :
    Outline (undisturbed free).rules (fun db => Ready js tenantId payload db ∧ True)
      (assignFirstAdmin js tenantId signal)
      (fun _ db => Ready js tenantId payload db ∧ HasUser tenantId db) (Thrown fun _ => False) := by
  apply outline_step HasUser.frameOnly
  refine Outline.bind outline_readAttemptSafePayload fun p => ?_
  intro db hdb
  obtain ⟨rfl, hdb⟩ := hdb
  have hassign : Outline (undisturbed free).rules
      (fun db => Ready js tenantId payload db ∧ True)
      (request (.step .first_admin_assigned) (.assign tenantId payload.firstAdminEmail))
      (fun _ db => Ready js tenantId payload db ∧ HasUser tenantId db) (Thrown fun _ => False) := by
    apply outline_work rfl rfl
    intro db outside hr _
    obtain ⟨db', hx, hu⟩ := assign_succeeds hr.email
    exact ⟨(), db', hx, hu⟩
  exact hassign db hdb

theorem outline_generateSetupLink {signal : Bool} :
    Outline (undisturbed free).rules (fun db => Ready js tenantId payload db ∧ HasUser tenantId db)
      (generateSetupLink tenantId signal)
      (fun _ db => Ready js tenantId payload db ∧ True) (Thrown fun _ => False) := by
  apply outline_step fun _ _ _ _ _ h => h
  refine Outline.bind (Outline.read fun c db _ hdb => hdb) fun c => ?_
  refine Outline.bind (Q := fun _ db => Ready js tenantId payload db ∧ True) ?_ fun _ =>
    Outline.pure fun db h => h
  apply outline_work rfl rfl
  intro db outside hr hu
  exact ⟨(), _, if_neg hu, trivial⟩

theorem outline_sendBackupEmail {setupToken : String} {signal : Bool} :
    Outline (undisturbed free).rules (fun db => Ready js tenantId payload db ∧ True)
      (sendBackupEmail js tenantId setupToken signal)
      (fun _ db => Ready js tenantId payload db ∧ True) (Thrown fun _ => False) := by
  refine Outline.bind outline_now fun occurredAt => ?_
  refine Outline.tryCatch (M := Thrown fun _ => False) ?_ fun _ _ h => h.2.elim
  refine Outline.bind outline_throwIfProvisioningCancelled fun _ => ?_
  refine Outline.bind outline_readAttemptSafePayload fun p => ?_
  intro db hdb
  obtain ⟨rfl, hdb⟩ := hdb
  refine (Outline.bind (P := fun db => Ready js tenantId payload db ∧ True)
    (Q := fun _ db => Ready js tenantId payload db ∧ True) ?_ fun outcome => ?_) db hdb
  · exact outline_work rfl rfl fun db outside _ _ => ⟨outside.email, db, rfl, trivial⟩
  · exact outline_updateAttemptStep (outline_record fun _ _ _ _ _ h => h)

theorem outline_activation {signal : Bool} :
    Outline (undisturbed free).rules (fun db => Ready js tenantId payload db ∧ True)
      (activation tenantId signal)
      (fun _ db => Ready js tenantId payload db ∧ IsActive db) (Thrown fun _ => False) := by
  refine Outline.tryCatch (M := Thrown fun _ => False) ?_ fun _ _ h => h.2.elim
  refine Outline.bind outline_throwIfProvisioningCancelled fun _ => ?_
  refine Outline.bind (Q := fun count db => count ≠ 0 ∧ Ready js tenantId payload db ∧ IsActive db)
    ?_ fun count => ?_
  · apply outline_succeeds
    intro db outside hdb hf
    obtain ⟨row, ht, hid, hs⟩ := hdb.1.tenant
    refine ⟨1, { db with tenant := some { row with status := .ACTIVE } }, ?_, by simp, ?_, ?_⟩
    · simp [Op.effect, Database.activate, ht, hid, hs, hdb.1.attempt]
    · exact ⟨⟨_, rfl, hid, by simp⟩, hdb.1.attempt, hdb.1.safePayload, hdb.1.email⟩
    · exact ⟨_, rfl, rfl⟩
  · intro db hdb
    rw [if_neg hdb.1]
    refine (Outline.bind (P := fun db => Ready js tenantId payload db ∧ IsActive db)
      (Q := fun _ db => Ready js tenantId payload db ∧ IsActive db) ?_ fun tenant => ?_) db hdb.2
    · apply outline_succeeds
      intro db outside hdb hf
      obtain ⟨row, ht, hid, hs⟩ := hdb.1.tenant
      refine ⟨row, db, ?_, hdb⟩
      simp [Op.effect, Database.tenantById, ht, hid]
    · refine Outline.bind outline_now fun occurredAt => ?_
      exact outline_updateAttemptStep (outline_record IsActive.frameOnly)

theorem outline_provisionSteps {signal : Bool} :
    Outline (undisturbed free).rules (Ready js tenantId payload) (provisionSteps js tenantId signal)
      (fun _ db => Ready js tenantId payload db ∧ IsActive db) (Thrown fun _ => False) := by
  refine Outline.pre (P := fun db => Ready js tenantId payload db ∧ True) ?_ fun _ h => ⟨h, trivial⟩
  refine Outline.bind (outline_step (HasSchema.frameOnly tenantId)
    (outline_work rfl rfl ?_)) fun _ => ?_
  · intro db outside _ _
    exact ⟨(), _, rfl, _, Function.update_self ..⟩
  refine Outline.bind (outline_step (HasSchema.frameOnly tenantId)
    (outline_work rfl rfl ?_)) fun _ => ?_
  · intro db outside _ hs
    obtain ⟨db', hx, hs'⟩ := createTables_succeeds hs
    exact ⟨(), db', hx, hs'⟩
  refine Outline.bind (outline_step (Y := fun _ => True) (fun _ _ _ _ _ h => h)
    (outline_work rfl rfl ?_)) fun _ => ?_
  · intro db outside _ hs
    obtain ⟨db', hx, _⟩ := createTables_succeeds hs
    exact ⟨(), db', hx, trivial⟩
  refine Outline.bind outline_assignFirstAdmin fun _ => ?_
  refine Outline.bind outline_generateSetupLink fun setupToken => ?_
  exact Outline.bind outline_sendBackupEmail fun _ => outline_activation

theorem outline_finalizeAudit_succeeded {signal : Bool} :
    Outline (undisturbed free).rules (fun db => Ready js tenantId payload db ∧ IsActive db)
      (finalizeAudit .audit (some tenantId) .succeeded none signal)
      (fun _ db => db.attempt.status = .succeeded ∧ IsActive db) (Thrown fun _ => False) := by
  refine Outline.tryCatch (M := Thrown fun _ => False) ?_ fun _ _ h => h.2.elim
  refine Outline.bind outline_throwIfProvisioningCancelled fun _ => ?_
  refine Outline.bind (Q := fun attempt db => attempt ≠ none ∧ Ready js tenantId payload db ∧
    IsActive db) ?_ fun attempt => ?_
  · apply outline_succeeds
    intro db outside hdb hf
    exact ⟨some db.attempt, db, rfl, by simp, hdb⟩
  · intro db hdb
    cases attempt with
    | none => exact absurd rfl hdb.1
    | some attempt =>
      refine (Outline.bind (P := fun db => Ready js tenantId payload db ∧ IsActive db)
        (Q := fun _ db => Ready js tenantId payload db ∧ IsActive db) ?_ fun _ => ?_) db hdb.2
      · apply outline_work rfl rfl
        intro db outside hr ha
        exact ⟨(), _, rfl, ha⟩
      · refine Outline.bind outline_now fun occurredAt => outline_updateAttemptStep ?_
        apply outline_succeeds
        intro db outside hdb hf
        exact ⟨(), _, updateAttemptSteps_terminal rfl, rfl, hdb.2⟩

theorem outline_provisionTenantSchema {signal : Bool} :
    Outline (undisturbed free).rules (Ready js tenantId payload)
      (provisionTenantSchema js tenantId signal)
      (fun _ db => db.attempt.status = .succeeded ∧ IsActive db) (Thrown fun _ => False) := by
  refine Outline.tryCatch (M := Thrown fun _ => False) ?_ fun _ _ h => h.2.elim
  exact Outline.bind outline_provisionSteps fun _ => outline_finalizeAudit_succeeded

end

/-- Between the claim and the tenant's insert. -/
structure Claimed (js : JsText) (payload : SafePayload) (db : Database) : Prop where
  tenant : db.tenant = none
  attempt : db.attempt.status = .provisioning
  safePayload : readSafePayload js db.attempt.safePayload = some payload
  email : db.systemUserEmails.contains payload.firstAdminEmail = false
  slug : ∀ row ∈ db.otherTenants, row.slug ≠ payload.tenantSlug

section
variable {js : JsText} {payload : SafePayload} {otherIds : List TenantId}

/-- The ids of the other tenants stay what they were. -/
def OthersAre (otherIds : List TenantId) (db : Database) : Prop :=
  db.otherTenants.map (·.id) = otherIds

theorem outline_createTenant {attemptId : String} {signal : Bool} :
    Outline (undisturbed (· ∉ otherIds)).rules
      (fun db => Claimed js payload db ∧ OthersAre otherIds db)
      (createTenant attemptId payload signal)
      (fun tenant db => ∃ row, tenant = some row ∧ Ready js row.id payload db)
      (Thrown fun _ => False) := by
  refine Outline.tryCatch (M := Thrown fun _ => False) ?_ fun _ _ h => h.2.elim
  refine Outline.bind (Q := fun row db => Ready js row.id payload db) ?_ fun row => ?_
  · refine Outline.bind outline_throwIfProvisioningCancelled fun _ => ?_
    refine Outline.bind (Q := fun tenant db => tenant = none ∧ Claimed js payload db ∧
      OthersAre otherIds db) ?_ fun tenant => ?_
    · apply outline_succeeds
      intro db outside hdb hf
      exact ⟨db.tenant, db, rfl, hdb.1.tenant, hdb⟩
    intro db hdb
    obtain ⟨rfl, hdb⟩ := hdb
    refine (Outline.bind (P := fun db => Claimed js payload db ∧ OthersAre otherIds db)
      (Q := fun c db => c.newTenantId ∉ otherIds ∧ Claimed js payload db ∧ OthersAre otherIds db)
      (Outline.read ?_) fun c => ?_) db hdb
    · intro c db hc hdb
      exact ⟨hc.2, hdb⟩
    apply outline_succeeds
    intro db outside hdb hf
    obtain ⟨hfree, hclaimed, hothers⟩ := hdb
    have htaken : db.taken c.newTenantId payload.tenantSlug = false := by
      simp only [Database.taken, hclaimed.tenant, Option.toList_none, List.nil_append,
        List.any_eq_false, Bool.or_eq_true, beq_iff_eq, not_or]
      intro row hrow
      refine ⟨fun he => hfree ?_, hclaimed.slug row hrow⟩
      rw [← hothers, ← he]
      exact List.mem_map_of_mem hrow
    refine ⟨_, _, if_neg (by simp [htaken, hclaimed.tenant]), ⟨_, rfl, rfl, by simp⟩, ?_, ?_, ?_⟩
    · exact hclaimed.attempt
    · exact hclaimed.safePayload
    · exact hclaimed.email
  · refine Outline.bind outline_throwIfProvisioningCancelled fun _ => ?_
    refine Outline.bind (Q := fun _ db => Ready js row.id payload db ∧ True) ?_ fun _ => ?_
    · refine Outline.bind outline_now fun occurredAt => outline_updateAttemptStep ?_
      exact (outline_record fun _ _ _ _ _ h => h).pre fun _ h => ⟨h, trivial⟩
    · exact Outline.pure fun db h => ⟨row, rfl, h.1⟩

theorem outline_startLifecycle {attemptId : String} {signal : Bool} :
    Outline (undisturbed (· ∉ otherIds)).rules
      (fun db => Provisionable js db payload ∧ OthersAre otherIds db)
      (startLifecycle js attemptId signal)
      (fun _ db => db.attempt.status = .succeeded ∧ IsActive db) (Thrown fun _ => False) := by
  refine Outline.bind outline_throwIfProvisioningCancelled fun _ => ?_
  refine Outline.bind (Q := fun tenant db => tenant = none ∧ Provisionable js db payload ∧
    OthersAre otherIds db) ?_ fun tenant => ?_
  · apply outline_succeeds
    intro db outside hdb hf
    exact ⟨db.tenant, db, rfl, hdb.1.tenant, hdb⟩
  intro db hdb
  obtain ⟨rfl, hdb⟩ := hdb
  refine (Outline.bind (P := fun db => Provisionable js db payload ∧ OthersAre otherIds db)
    outline_throwIfProvisioningCancelled fun _ => ?_) db hdb
  refine Outline.bind outline_now fun occurredAt => ?_
  refine Outline.bind (Q := fun attempt db => (∃ row, attempt = some row ∧
    readSafePayload js row.safePayload = some payload) ∧ Claimed js payload db ∧
    OthersAre otherIds db) ?_ fun attempt => ?_
  · apply outline_succeeds
    intro db outside hdb hf
    obtain ⟨hp, hothers⟩ := hdb
    refine ⟨_, _, if_pos hp.status, ⟨_, rfl, hp.safePayload⟩, ?_, hothers⟩
    exact ⟨hp.tenant, rfl, hp.safePayload, hp.email, hp.slug⟩
  intro db hdb
  obtain ⟨⟨row, rfl, hrow⟩, hdb⟩ := hdb
  simp only [hrow]
  refine (Outline.bind outline_createTenant fun tenant => ?_) db hdb
  intro db hdb
  obtain ⟨tenant, rfl, hready⟩ := hdb
  exact outline_provisionTenantSchema db hready

end

/-! ### The claim -/

/-- A run without faults after `n` failed and compensated ones succeeds exactly when
`n` is zero. -/
theorem retry_recovers_iff (js : JsText) {db₀ db : Database} {payload : SafePayload} {n : ℕ}
    (h₀ : Provisionable js db₀ payload) (hruns : FailedRuns js db₀ n db) (ctx : ℕ → Context)
    (hfree : ∀ i, (ctx i).newTenantId ∉ db₀.otherTenants.map (·.id)) (outside : ℕ → Outside)
    (hfault : ∀ i, (outside i).fault = false) :
    ((runLifecycle js ctx outside db).2.attempt.status = .succeeded ∧
      ∃ row, (runLifecycle js ctx outside db).2.tenant = some row ∧ row.status = .ACTIVE) ↔
    n = 0 := by
  constructor
  · intro h
    by_contra hn
    have hfailed : TenantFailed (runLifecycle js ctx outside db).2 := by
      apply Prog.eval_invariant (I := TenantFailed)
      · intro i c db hs
        exact hs.perform
      · exact hruns.tenantFailed hn
    obtain ⟨row, ht, hs⟩ := h.2
    obtain ⟨row', ht', hs'⟩ := hfailed
    rw [ht] at ht'
    cases ht'
    rw [hs] at hs'
    cases hs'
  · intro hn
    subst hn
    cases hruns
    have hsafe : Safe (undisturbed (· ∉ db₀.otherTenants.map (·.id))).rules
        (fun _ db => db.attempt.status = .succeeded ∧ IsActive db) (Thrown fun _ => False)
        (startLifecycle js db₀.attempt.id true) db₀ := outline_startLifecycle db₀ ⟨h₀, rfl⟩
    have hrun := hsafe.eval (fun i => { ctx i with aborted := false })
      (fun i c db => c.op.perform (outside i) false db) ?_ ?_ 0
    rotate_left
    · intro i
      exact ⟨rfl, hfree i⟩
    · intro i c db
      exact ⟨outside i, hfault i, rfl⟩
    unfold runLifecycle
    generalize (startLifecycle js db₀.attempt.id true).eval _ _ 0 db₀ = out at hrun ⊢
    obtain ⟨r, db'⟩ := out
    cases r with
    | ok a => exact hrun
    | error e => exact hrun.2.elim

/-- The job of "acme" after one run whose metadata bootstrap failed. -/
def acmeFailedOnce : Database :=
  (runLifecycle plainText (fun _ => acmeContext)
    (fun i => { quietOutside with fault := i == 7 }) acmeAccepted).2

theorem acmeFailedOnce_runs : FailedRuns plainText acmeAccepted 1 acmeFailedOnce := by
  have herror : (runLifecycle plainText (fun _ => acmeContext)
      (fun i => { quietOutside with fault := i == 7 }) acmeAccepted).1 =
        .error (.database none) := by decide +kernel
  have hcompensated : Compensated acmeFailedOnce
      ⟨acmeId, "Acme", "acme", .FAILED, some "attempt-1"⟩ := by
    constructor <;> decide +kernel
  exact .more .none (Prod.ext herror rfl) hcompensated

theorem retry_recovers_iff_acme :
    ((runLifecycle plainText (fun _ => acmeContext) (fun _ => quietOutside)
        acmeFailedOnce).2.attempt.status = .succeeded ∧
      ∃ row, (runLifecycle plainText (fun _ => acmeContext) (fun _ => quietOutside)
        acmeFailedOnce).2.tenant = some row ∧ row.status = .ACTIVE) ↔ 1 = 0 := by
  have h₀ : Provisionable plainText acmeAccepted acmePayload := by
    constructor <;> first | rfl | decide +kernel
  exact retry_recovers_iff plainText h₀ acmeFailedOnce_runs (fun _ => acmeContext)
    (fun _ => by decide) (fun _ => quietOutside) fun _ => rfl

/-- One failed and compensated run, then a run without faults: the attempt ends
`failed` and the tenant `FAILED`. -/
theorem retry_never_recovers :
    FailedRuns plainText acmeAccepted 1 acmeFailedOnce ∧
    (runLifecycle plainText (fun _ => acmeContext) (fun _ => quietOutside)
      acmeFailedOnce).2.attempt.status = .failed ∧
    (runLifecycle plainText (fun _ => acmeContext) (fun _ => quietOutside)
      acmeFailedOnce).2.tenant.map (·.status) = some .FAILED :=
  ⟨acmeFailedOnce_runs, by decide +kernel, by decide +kernel⟩

end Flexi.Tenants
