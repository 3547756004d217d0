import Flexi.Accounts.Membership
import Flexi.Common.HttpError
import Flexi.Library.Reach
import Flexi.Library.ThreadPool

/-!
# A tenant's self-registration policy (tenant-settings.service.ts)

The administrative reads and writes of `tenant_settings`, any number of them side by side. Roles
come and go, and a tenant may be taken away with its settings.
-/

namespace Flexi.Accounts.Settings
open Flexi.Library

/-- `AuthenticatedUserDto`, as far as the service reads it. -/
structure CurrentUser where
  actorType : ActorType
  tenantId : Option String
  authAccountId : String
  permissions : List String
  deriving DecidableEq

def TENANT_SETTINGS_MANAGE_PERMISSION : String := "tenant.settings.manage"
def SYSTEM_SETTINGS_MANAGE_PERMISSION : String := "system.settings.manage"

/-- An optional property of a body: absent, `null` or a value. -/
abbrev Optional (α : Type) := Option (Option α)

/-- `@IsOptional()` lets `null` through as it does absence. -/
structure UpdateTenantSettingsDto where
  allowSelfRegistration : Optional Bool
  allowSystemImpersonation : Optional Bool
  allowedEmailDomains : Optional (List String)
  defaultRoleId : Optional String
  requireApproval : Optional Bool
  deriving DecidableEq

structure TenantSettingsPatch where
  allowSelfRegistration : Optional Bool
  allowSystemImpersonation : Optional Bool
  allowedEmailDomains : Option (List String)
  defaultRoleId : Optional String
  requireApproval : Optional Bool
  deriving DecidableEq

/-- The columns of a policy. -/
structure Policy where
  allowSelfRegistration : Bool
  allowSystemImpersonation : Bool
  allowedEmailDomains : List String
  defaultRoleId : Option String
  requireApproval : Bool
  deriving DecidableEq, Repr

/-- `DEFAULT_SETTINGS`, and the column defaults of the schema. -/
def DEFAULT_SETTINGS : Policy where
  allowSelfRegistration := false
  allowSystemImpersonation := false
  allowedEmailDomains := []
  defaultRoleId := none
  requireApproval := true

/-- A row of `tenant_settings`. -/
structure SettingsRow where
  tenantId : String
  policy : Policy
  updatedAt : ℕ

/-- `EffectiveTenantSettings`, which the routes answer with. -/
structure EffectiveTenantSettings where
  tenantId : String
  policy : Policy
  defaultRoleName : Option String
  configured : Bool
  updatedAt : Option ℕ

structure Role where
  id : String
  tenantId : Option String
  name : String

/-! ### Domains -/

def isLabelChar (c : Char) : Bool := c.isLower || c.isDigit || c == '-'

/-- `[a-z0-9]([a-z0-9-]*[a-z0-9])?` -/
def isLabel (cs : List Char) : Bool :=
  cs ≠ [] && cs.all isLabelChar && cs.head? ≠ some '-' && cs.getLast? ≠ some '-'

/-- `DOMAIN_PATTERN` -/
def matchesDomainPattern (domain : String) : Bool :=
  let labels := domain.toList.splitOn '.'
  domain.length ≤ 253 && 2 ≤ labels.length && labels.all isLabel

/-- What the loop of `normalizeDomains` makes of one entry. -/
def normalizeDomain (js : Tenants.JsText) (raw : String) : String :=
  Tenants.trim (String.ofList ((js.toLowerCase (Tenants.trim raw)).toList.dropWhile (· = '@')))

def domainError (raw : String) : HttpError :=
  .validation ("allowedEmailDomains contains \"" ++ raw ++
    "\", which is not a bare domain such as \"acme.com\".")

/-- The domains that have been taken, in order. -/
def normalizeDomains (js : Tenants.JsText) (normalized : List String) :
    List String → Except HttpError (List String)
  | [] => .ok normalized
  | raw :: domains =>
    let domain := normalizeDomain js raw
    if domain = "" then normalizeDomains js normalized domains
    else if matchesDomainPattern domain then
      normalizeDomains js (if normalized.contains domain then normalized else normalized ++ [domain])
        domains
    else .error (domainError raw)

/-! ### The tables -/

/-- What has happened to the policies. -/
inductive Change where
  | patch (tenantId : String) (patch : TenantSettingsPatch)
  | roleGone (roleId : String)
  | tenantGone (tenantId : String)

/-- `issued` are the ids of all roles that have ever been. `history` is what has been done to
the policies; nothing reads it. -/
structure Database where
  tenants : List String
  roles : List Role
  issued : List String
  settings : List SettingsRow
  audit : List (String × String)
  history : List Change

def Database.row? (db : Database) (tenantId : String) : Option SettingsRow :=
  db.settings.find? (·.tenantId = tenantId)

def Database.roleName (db : Database) (policy : Policy) : Option String :=
  (policy.defaultRoleId.bind fun id => db.roles.find? (·.id = id)).map (·.name)

/-- `patch` spread over the columns. -/
def TenantSettingsPatch.over (patch : TenantSettingsPatch) (policy : Policy) : Policy where
  allowSelfRegistration := (patch.allowSelfRegistration.bind id).getD policy.allowSelfRegistration
  allowSystemImpersonation :=
    (patch.allowSystemImpersonation.bind id).getD policy.allowSystemImpersonation
  allowedEmailDomains := patch.allowedEmailDomains.getD policy.allowedEmailDomains
  defaultRoleId := patch.defaultRoleId.getD policy.defaultRoleId
  requireApproval := (patch.requireApproval.bind id).getD policy.requireApproval

/-- Prisma takes no `null` for these columns. -/
def TenantSettingsPatch.nulls (patch : TenantSettingsPatch) : Bool :=
  patch.allowSelfRegistration = some none || patch.allowSystemImpersonation = some none ||
    patch.requireApproval = some none

/-! ### The calls -/

inductive SettingsError where
  | http (error : HttpError)
  | database
  | typeError

inductive Op where
  | findTenant (id : String)
  | findSettings (tenantId : String)
  | findRole (tenantId roleId : String)
  | upsert (tenantId : String) (patch : TenantSettingsPatch)
  | audit (event tenantId : String)

/-- Settings come with the name of their default role. -/
@[reducible] def Op.Res : Op → Type
  | findTenant _ => Bool
  | findSettings _ => Option (SettingsRow × Option String)
  | findRole _ _ => Bool
  | upsert _ _ => SettingsRow × Option String
  | audit _ _ => Unit

/-- The row of the upsert: the patched one, or a new one. -/
def Database.upserted (db : Database) (clock : ℕ) (tenantId : String) (patch : TenantSettingsPatch) :
    SettingsRow :=
  match db.row? tenantId with
  | some row => ⟨tenantId, patch.over row.policy, clock⟩
  | none => ⟨tenantId, patch.over DEFAULT_SETTINGS, clock⟩

def Database.put (db : Database) (row : SettingsRow) : List SettingsRow :=
  if (db.row? row.tenantId).isSome then
    db.settings.map fun old => if old.tenantId = row.tenantId then row else old
  else db.settings ++ [row]

/-- The call's effect; the tenant and the default role are foreign keys. An upsert that another
first one has overtaken is refused. -/
def Op.effect (clock : ℕ) : (op : Op) → Database → Except SettingsError op.Res × Database
  | findTenant id, db => (.ok (db.tenants.contains id), db)
  | findSettings tenantId, db =>
    (.ok ((db.row? tenantId).map fun row => (row, db.roleName row.policy)), db)
  | findRole tenantId roleId, db =>
    (.ok (db.roles.any fun role => role.id = roleId && role.tenantId = some tenantId), db)
  | upsert tenantId patch, db =>
    let row := db.upserted clock tenantId patch
    if patch.nulls = false ∧ db.tenants.contains tenantId ∧
        row.policy.defaultRoleId.all (fun id => db.roles.any (·.id = id)) then
      (.ok (row, db.roleName row.policy),
        { db with settings := db.put row, history := db.history ++ [.patch tenantId patch] })
    else (.error .database, db)
  | audit event tenantId, db => (.ok (), { db with audit := db.audit ++ [(event, tenantId)] })

/-- A call may be refused, or be executed and its answer be lost. -/
inductive Fault where
  | none
  | refused
  | lost
  deriving DecidableEq

def Op.perform (clock : ℕ) (fault : Fault) (op : Op) (db : Database) :
    Except SettingsError op.Res × Database :=
  match fault with
  | .none => op.effect clock db
  | .refused => (.error .database, db)
  | .lost => (.error .database, (op.effect clock db).2)

/-! ### The code -/

abbrev Service := Prog Op Op.Res Unit SettingsError

def request (op : Op) : Service op.Res := Prog.await op

def fail {α : Type} (error : HttpError) : Service α := throw (.http error)

def forbidden (message : String) : HttpError := ⟨403, "FORBIDDEN", [message]⟩

def assertPermission (currentUser : CurrentUser) (required : String) : Service Unit :=
  if currentUser.permissions.contains required then pure ()
  else fail (forbidden "Insufficient permissions")

/-- An absent header and a blank one are the same. -/
def headerText (tenantIdHeader : Option String) : String := Tenants.trim (tenantIdHeader.getD "")

def resolveTargetTenant (currentUser : CurrentUser) (tenantIdHeader : Option String) :
    Service String :=
  let header := headerText tenantIdHeader
  match currentUser.actorType with
  | .TENANT => do
    assertPermission currentUser TENANT_SETTINGS_MANAGE_PERMISSION
    let tenantId := currentUser.tenantId.getD ""
    if tenantId = "" then fail (forbidden "This token is not scoped to a tenant.")
    else if header ≠ "" ∧ header ≠ tenantId then
      fail (forbidden "A tenant caller can only manage the settings of its own tenant.")
    else pure tenantId
  | .SYSTEM => do
    assertPermission currentUser SYSTEM_SETTINGS_MANAGE_PERMISSION
    if header = "" then
      fail (.validation "x-tenant-id is required: a system caller must say which tenant.")
    else do
      let tenant ← request (.findTenant header)
      if tenant then pure header else fail ⟨404, "TENANT_NOT_FOUND", ["No such tenant."]⟩

def fromRow (tenantId : String) : Option (SettingsRow × Option String) → EffectiveTenantSettings
  | none => ⟨tenantId, DEFAULT_SETTINGS, none, false, none⟩
  | some (row, defaultRoleName) => ⟨tenantId, row.policy, defaultRoleName, true, some row.updatedAt⟩

def resolveEffectiveSettings (tenantId : String) : Service EffectiveTenantSettings := do
  let row ← request (.findSettings tenantId)
  pure (fromRow tenantId row)

def requireTenantRole (tenantId roleId : String) : Service String := do
  let role ← request (.findRole tenantId roleId)
  if role then pure roleId
  else fail (.validation "defaultRoleId does not name a role of this tenant.")

/-- `AuthAuditService.record`, which throws nothing. -/
def record (event tenantId : String) : Service Unit :=
  tryCatch (request (.audit event tenantId)) fun _ => pure ()

/-- `normalizeDomains` cannot iterate over `null`. -/
def patchDomains (js : Tenants.JsText) : Optional (List String) → Service (Option (List String))
  | none => pure none
  | some none => throw .typeError
  | some (some domains) => match normalizeDomains js [] domains with
    | .ok normalized => pure (some normalized)
    | .error error => fail error

def patchRole (tenantId : String) : Optional String → Service (Optional String)
  | some (some roleId) => do
    let roleId ← requireTenantRole tenantId roleId
    pure (some (some roleId))
  | value => pure value

def TenantSettingsPatch.isEmpty (patch : TenantSettingsPatch) : Bool :=
  patch.allowSelfRegistration.isNone && patch.allowSystemImpersonation.isNone &&
    patch.allowedEmailDomains.isNone && patch.defaultRoleId.isNone && patch.requireApproval.isNone

def getSettings (currentUser : CurrentUser) (tenantIdHeader : Option String) :
    Service EffectiveTenantSettings := do
  let tenantId ← resolveTargetTenant currentUser tenantIdHeader
  resolveEffectiveSettings tenantId

def updateSettings (js : Tenants.JsText) (dto : UpdateTenantSettingsDto) (currentUser : CurrentUser)
    (tenantIdHeader : Option String) : Service EffectiveTenantSettings := do
  let tenantId ← resolveTargetTenant currentUser tenantIdHeader
  let before ← resolveEffectiveSettings tenantId
  let allowedEmailDomains ← patchDomains js dto.allowedEmailDomains
  let defaultRoleId ← patchRole tenantId dto.defaultRoleId
  let patch : TenantSettingsPatch :=
    { allowSelfRegistration := dto.allowSelfRegistration
      allowSystemImpersonation := dto.allowSystemImpersonation
      allowedEmailDomains := allowedEmailDomains
      defaultRoleId := defaultRoleId
      requireApproval := dto.requireApproval }
  if patch.isEmpty then pure before
  else do
    let row ← request (.upsert tenantId patch)
    let after := fromRow tenantId (some row)
    record "TENANT_SETTINGS_UPDATED" tenantId
    if before.policy.allowSelfRegistration ≠ after.policy.allowSelfRegistration then
      record (if after.policy.allowSelfRegistration then "SELF_REGISTRATION_ENABLED"
        else "SELF_REGISTRATION_DISABLED") tenantId
    pure after

/-! ### Requests side by side -/

inductive Request where
  | get (currentUser : CurrentUser) (tenantIdHeader : Option String)
  | update (dto : UpdateTenantSettingsDto) (currentUser : CurrentUser)
      (tenantIdHeader : Option String)
  deriving DecidableEq

def Request.code (js : Tenants.JsText) : Request → Service EffectiveTenantSettings
  | get currentUser tenantIdHeader => getSettings currentUser tenantIdHeader
  | update dto currentUser tenantIdHeader => updateSettings js dto currentUser tenantIdHeader

abbrev InFlight := Flight Op Op.Res Unit SettingsError EffectiveTenantSettings Request

structure System where
  db : Database
  requests : List InFlight
  clock : ℕ

/-- A role that goes is no default role any more; a tenant that goes takes its settings, after
its roles have gone. -/
inductive SystemEvent where
  | arrive (r : Request)
  | execute (i : ℕ) (fault : Fault)
  | deliver (i : ℕ)
  | addTenant (id : String)
  | dropTenant (id : String)
  | addRole (role : Role)
  | dropRole (id : String)
  | tick (d : ℕ)

def SettingsRow.withoutRole (id : String) (row : SettingsRow) : SettingsRow :=
  if row.policy.defaultRoleId = some id then
    { row with policy := { row.policy with defaultRoleId := none } }
  else row

/-- A new role has an id that no role has ever had. -/
def System.step (js : Tenants.JsText) (s : System) : SystemEvent → Option System
  | .arrive r => some { s with requests := s.requests ++ [⟨r, (r.code js).advance ()⟩] }
  | .execute i fault => s.requests[i]?.bind fun f =>
    (f.thread.execute (Op.perform s.clock fault) s.db).map fun (thread, db) =>
      { s with db := db, requests := s.requests.set i ⟨f.request, thread⟩ }
  | .deliver i => s.requests[i]?.bind fun f => (f.thread.deliver ()).map fun thread =>
    { s with requests := s.requests.set i ⟨f.request, thread⟩ }
  | .addTenant id => some { s with db := { s.db with tenants := s.db.tenants ++ [id] } }
  | .dropTenant id =>
    if s.db.roles.any (·.tenantId = some id) then none
    else some { s with db := { s.db with
      tenants := s.db.tenants.filter (· ≠ id)
      settings := s.db.settings.filter (·.tenantId ≠ id)
      history := s.db.history ++ [.tenantGone id] } }
  | .addRole role =>
    if s.db.issued.contains role.id then none
    else some { s with db := { s.db with
      roles := s.db.roles ++ [role]
      issued := s.db.issued ++ [role.id] } }
  | .dropRole id => some { s with db := { s.db with
      roles := s.db.roles.filter (·.id ≠ id)
      settings := s.db.settings.map (.withoutRole id)
      history := s.db.history ++ [.roleGone id] } }
  | .tick d => some { s with clock := s.clock + d }

end Flexi.Accounts.Settings
