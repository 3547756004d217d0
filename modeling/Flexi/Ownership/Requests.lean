import Flexi.Accounts.Membership
import Flexi.DynamicTables.Rows
import Flexi.Library.ReadCommitted

/-!
# Rows and their owners (dynamic-tables.service.ts, user-deletion.service.ts)

`createRow` and the hard deletion of a member, whose transaction hands the member's rows
on, at the level of single statements. The owner of a row is a member's id, and no foreign
key stands behind it. A statement waits for the rows that it matches.
-/

namespace Flexi.Ownership
open Flexi.Library
open Accounts (AccessJwt AuthenticatedUser RefreshToken ServiceError Tenant TenantUser)
open DynamicTables (MetaField MetaTable TableValidationSchema Uuid ValidationSchemaCache)

/-- A row of a dynamic table, with `owner_user_id`. -/
structure Record where
  tenantId : String
  table : String
  values : List (String × Json)
  owner : ℕ

inductive AuditMetadata where
  | dataTransferred (sourceUserId targetUserId : ℕ) (tableId : Uuid) (tableName : String)
      (recordCount : ℕ)
  | userHardDeleted (userId revokedSessionCount transferredRecordCount : ℕ)

structure AuditLog where
  tenantId : String
  subjectAuthAccountId : ℕ
  actorAuthAccountId : ℕ
  impersonated : Bool
  impersonatorId : Option ℕ
  metadata : AuditMetadata

/-- `deleted` is what a transaction leaves of a row that it deletes. -/
inductive Row where
  | tenantUser (user : TenantUser)
  | authAccount (id : ℕ)
  | refreshToken (token : RefreshToken)
  | record (record : Record)
  | auditLog (log : AuditLog)
  | deleted

/-- The metadata of a tenant's schema. A schema without `_meta_tables` has no dynamic
tables. -/
structure Metadata where
  hasMetaTables : Bool
  hasOwnerColumn : Bool
  metaTables : List MetaTable
  metaFields : List MetaField
  cache : ValidationSchemaCache

def Metadata.catalog (m : Metadata) : DynamicTables.TenantSchema where
  schema := ""
  tables := ∅
  metaTables := m.metaTables
  metaFields := m.metaFields
  metaMigrations := []

/-- The transaction has counted no row of the owner in the table, or has handed on those it
found. -/
structure Look where
  transaction : ℕ
  tenantId : String
  owner : ℕ
  table : String
  deriving DecidableEq

/-- `looked` is history, of the transactions that are open. -/
structure Store where
  cells : Cells Row
  metadata : String → Metadata
  tenants : List Tenant
  looked : List Look := []

/-! ### The statements -/

inductive Op where
  | isTenantActive (tenantId : String)
  | findMetaTable (tenantId : String) (tableId : Uuid)
  | validationSchema (tenantId : String) (tableId : Uuid)
  | insertRow (tenantId table : String) (values : List (String × Json)) (owner : ℕ)
  | findSource (userId : ℕ) (tenantId : String)
  | findTransferTarget (userId : ℕ) (tenantId : String)
  | lockSource (userId : ℕ) (tenantId : String)
  | lockTarget (userId : ℕ) (tenantId : String)
  | hasMetaTables (tenantId : String)
  | hasOwnerColumn (tenantId : String)
  | selectTables (tenantId : String)
  | countRecords (tenantId table : String) (owner : ℕ)
  | transferRecords (tenantId table : String) (owner target : ℕ)
  | insertAudit (log : AuditLog)
  | revokeSessions (authAccountId now : ℕ)
  | deleteMember (userId : ℕ)
  | deleteAccount (authAccountId : ℕ)
  | commit

@[reducible] def Op.Res : Op → Type
  | isTenantActive _ | lockSource _ _ | lockTarget _ _ | hasMetaTables _ | hasOwnerColumn _ => Bool
  | findMetaTable _ _ => Option MetaTable
  | validationSchema _ _ => TableValidationSchema
  | insertRow _ _ _ _ => Record
  | findSource _ _ | findTransferTarget _ _ => Option TenantUser
  | selectTables _ => List MetaTable
  | countRecords _ _ _ | revokeSessions _ _ => ℕ
  | transferRecords _ _ _ _ | insertAudit _ | deleteMember _ | deleteAccount _ | commit => Unit

/-- The clock, and the system user who acts as the caller. -/
structure Context where
  now : ℕ
  impersonatorId : Option ℕ := none

abbrev Service := Prog Op Op.Res Context ServiceError

def request (op : Op) : Service op.Res := Prog.await op

def fail {α : Type} (e : HttpError) : Service α := throw (.http e)

/-- A check that throws an exception of the HTTP layer. -/
def check {α : Type} : Except HttpError α → Service α
  | .ok a => pure a
  | .error e => fail e

structure Config where
  js : JsRuntime
  tables : DynamicTables.Config

/-! ### The guards -/

def DYNAMIC_TABLES_ROWS_CREATE_PERMISSION : String := "dynamic-tables.rows.create"

/-- `JwtAuthGuard.canActivate` after the token has been verified. It asks for no member. -/
def jwtAuthGuard (user : AuthenticatedUser) : Service Unit :=
  match user.tenantId with
  | none | some "" => pure ()
  | some tenantId => do
    let activeTenant ← request (.isTenantActive tenantId)
    if activeTenant then pure () else fail Accounts.unauthorized

def permissionsGuard (user : AuthenticatedUser) (required : String) : Service Unit :=
  if user.permissions.contains required then pure ()
  else fail (Accounts.forbidden "Insufficient permissions")

/-! ### DynamicTablesService -/

inductive Response where
  | created (row : Record)
  | deleted (userId revokedSessionCount transferredRecordCount : ℕ)

/-- `TenantContext.tenantId`, which throws where there is none. -/
def contextTenantId (user : AuthenticatedUser) : Service String :=
  match user.tenantId with
  | none | some "" => fail .unexpected
  | some tenantId => pure tenantId

def contextTenantUserId (user : AuthenticatedUser) : Service ℕ :=
  match user.tenantUserId with
  | none => fail .unexpected
  | some tenantUserId => pure tenantUserId

def reshapeForeignKeyViolation : ServiceError → ServiceError
  | .database "23503" => .http DynamicTables.reshapeForeignKeyViolation
  | e => e

def createRow (cfg : Config) (tableId : Uuid) (payload : Json) (bytes : ℕ)
    (user : AuthenticatedUser) : Service Response := do
  check (DynamicTables.assertMutationPayloadSize cfg.tables bytes)
  let tenantId ← contextTenantId user
  let found ← request (.findMetaTable tenantId tableId)
  match found with
  | none => fail (.notFound ("No dynamic table found with id " ++ toString tableId))
  | some tableRow => do
    let schema ← request (.validationSchema tenantId tableRow.id)
    let data ← check (DynamicTables.pickKnownFields schema payload)
    check (DynamicTables.validateRowPayload cfg.js schema data false)
    tryCatch (do
      let tenantUserId ← contextTenantUserId user
      let row ← request (.insertRow tenantId tableRow.name
        (data.filter fun kv => kv.1 ≠ DynamicTables.OWNER_COLUMN) tenantUserId)
      pure (.created row)) fun e => throw (reshapeForeignKeyViolation e)

/-! ### UserDeletionService -/

def invalidSource : HttpError :=
  Accounts.invalidTransition "deleted" "a deleted user cannot be removed"

def auditLog (c : Context) (source : TenantUser) (currentUser : AuthenticatedUser)
    (metadata : AuditMetadata) : AuditLog where
  tenantId := source.tenantId
  subjectAuthAccountId := source.authAccountId
  actorAuthAccountId := currentUser.authAccountId
  -- `impersonationAuditFields`
  impersonated := c.impersonatorId.isSome
  impersonatorId := c.impersonatorId
  metadata := metadata

def removeHardDeleteSource (source : TenantUser) (currentUser : AuthenticatedUser)
    (transferredRecordCount : ℕ) : Service (ℕ × ℕ) := do
  let c ← Prog.read
  let revoked ← request (.revokeSessions source.authAccountId c.now)
  request (.deleteMember source.id)
  request (.deleteAccount source.authAccountId)
  request (.insertAudit (auditLog c source currentUser
    (.userHardDeleted source.id revoked transferredRecordCount)))
  pure (revoked, transferredRecordCount)

/-- The body of the loop over the tables. -/
def transferTable (source : TenantUser) (target : Option TenantUser) (currentUser : AuthenticatedUser)
    (table : MetaTable) : Service ℕ :=
  match Tenancy.sanitizeIdentifier table.name with
  | .error _ => fail .unexpected
  | .ok tableName => do
    let recordCount ← request (.countRecords source.tenantId tableName source.id)
    if recordCount = 0 then pure 0
    else
      match target with
      | none => fail Accounts.transferTargetRequired
      | some target => do
        request (.transferRecords source.tenantId tableName source.id target.id)
        let c ← Prog.read
        request (.insertAudit (auditLog c source currentUser
          (.dataTransferred source.id target.id table.id tableName recordCount)))
        pure recordCount

def transferTables (source : TenantUser) (target : Option TenantUser)
    (currentUser : AuthenticatedUser) : List MetaTable → ℕ → Service ℕ
  | [], transferredRecordCount => pure transferredRecordCount
  | table :: tables, transferredRecordCount => do
    let recordCount ← transferTable source target currentUser table
    transferTables source target currentUser tables (transferredRecordCount + recordCount)

/-- The transaction once it holds the rows of both members. -/
def transferAndRemove (source : TenantUser) (target : Option TenantUser)
    (currentUser : AuthenticatedUser) : Service (ℕ × ℕ) := do
  let hasTable ← request (.hasMetaTables source.tenantId)
  if hasTable then do
    let hasColumn ← request (.hasOwnerColumn source.tenantId)
    if hasColumn then do
      let tables ← request (.selectTables source.tenantId)
      if tables.any fun table => table.ownerColumn ≠ some DynamicTables.OWNER_COLUMN then
        fail Accounts.ownershipContractRequired
      else do
        let transferredRecordCount ← transferTables source target currentUser tables 0
        removeHardDeleteSource source currentUser transferredRecordCount
    else fail Accounts.ownershipContractRequired
  else removeHardDeleteSource source currentUser 0

def lockTransferTarget (source : TenantUser) : Option TenantUser → Service Unit
  | none => pure ()
  | some target => do
    let lockedTarget ← request (.lockTarget target.id source.tenantId)
    if lockedTarget then pure () else fail Accounts.invalidTarget

/-- One transaction, from its first statement to the commit. -/
def hardDelete (source : TenantUser) (target : Option TenantUser) (currentUser : AuthenticatedUser) :
    Service Response := do
  let lockedSource ← request (.lockSource source.id source.tenantId)
  if lockedSource then do
    lockTransferTarget source target
    let result ← transferAndRemove source target currentUser
    request .commit
    pure (.deleted source.id result.1 result.2)
  else fail invalidSource

def resolveActiveTransferTarget (targetUserId : ℕ) (source : TenantUser) (tenantId : String) :
    Service TenantUser :=
  if targetUserId = source.id then fail Accounts.invalidTarget
  else do
    let target ← request (.findTransferTarget targetUserId tenantId)
    match target with
    | none => fail Accounts.invalidTarget
    | some target => pure target

def requireTenantActor (currentUser : AuthenticatedUser) : Service String :=
  match currentUser.actorType, currentUser.tenantId with
  | .TENANT, some tenantId =>
    if tenantId = "" then fail (Accounts.forbidden "User deletion applies to tenant users.")
    else pure tenantId
  | _, _ => fail (Accounts.forbidden "User deletion applies to tenant users.")

/-- `deleteUser` in the mode `hard`. -/
def deleteUser (userId : ℕ) (transferToUserId : Option ℕ) (currentUser : AuthenticatedUser) :
    Service Response := do
  let tenantId ← requireTenantActor currentUser
  -- `assertActorPermission` asks for the same code in either scope
  permissionsGuard currentUser Accounts.TENANT_USER_MANAGE_PERMISSION
  let found ← request (.findSource userId tenantId)
  match found with
  | none => fail Accounts.userNotFound
  | some source =>
    if source.authAccountId = currentUser.authAccountId then fail Accounts.cannotDeleteSelf
    else if source.status = .DELETED then fail (Accounts.deletedUser source.status)
    else
      match transferToUserId with
      | none => hardDelete source none currentUser
      | some targetUserId => do
        let target ← resolveActiveTransferTarget targetUserId source tenantId
        hardDelete source (some target) currentUser

/-! ### What the statements do -/

/-- The rows that a statement changes, and how. -/
structure Change where
  cond : Row → Bool
  set : Row → Row

def onUser (cond : TenantUser → Bool) (set : Row → Row) : Change where
  cond
    | .tenantUser user => cond user
    | _ => false
  set := set

def isRecord (tenantId table : String) (owner : ℕ) : Row → Bool
  | .record r => r.tenantId = tenantId && r.table = table && r.owner = owner
  | _ => false

/-- `SELECT ... FOR UPDATE` takes the rows and leaves them as they are. The rows of an
account go with it (`onDelete: Cascade`). -/
def Op.change? : Op → Option Change
  | lockSource userId tenantId =>
    some (onUser (fun user => user.id = userId && user.tenantId = tenantId && user.status ≠ .DELETED) id)
  | lockTarget userId tenantId =>
    some (onUser (fun user => user.id = userId && user.tenantId = tenantId && user.status = .ACTIVE &&
      user.isActive) id)
  | transferRecords tenantId table owner target => some
    { cond := isRecord tenantId table owner
      set
        | .record r => .record { r with owner := target }
        | row => row }
  | revokeSessions authAccountId now => some
    { cond
        | .refreshToken token => token.authAccountId = authAccountId && token.revokedAt = none
        | _ => false
      set
        | .refreshToken token => .refreshToken { token with revokedAt := some now }
        | row => row }
  | deleteMember userId => some (onUser (fun user => user.id = userId) fun _ => .deleted)
  | deleteAccount authAccountId => some
    { cond
        | .authAccount id => id = authAccountId
        | .tenantUser user => user.authAccountId = authAccountId
        | .refreshToken token => token.authAccountId = authAccountId
        | _ => false
      set := fun _ => .deleted }
  | _ => none

/-- What decides an answer besides the rows: an error of the database, with its code. -/
structure Outside where
  fault : Option String := none

def Row.user? : Row → Option TenantUser
  | tenantUser user => some user
  | _ => none

/-- A member whose row transaction `i` reads. -/
def Store.findUser (i : ℕ) (p : TenantUser → Bool) (store : Store) : Option TenantUser :=
  (store.cells.visible i fun row => row.user?.any p).head?.bind Row.user?

/-- How many rows the statement matches. -/
def Op.count (i : ℕ) (op : Op) (cells : Cells Row) : ℕ :=
  match op.change? with
  | none => 0
  | some change => (cells.visible i change.cond).length

def Store.countRecords (i : ℕ) (tenantId table : String) (owner : ℕ) (store : Store) : ℕ :=
  (store.cells.visible i (isRecord tenantId table owner)).length

def Op.answer (cfg : Config) (i : ℕ) (store : Store) : (op : Op) → Except ServiceError op.Res
  | isTenantActive tenantId =>
    .ok (store.tenants.any fun tenant => tenant.id = tenantId && tenant.status = .ACTIVE)
  | findMetaTable tenantId tableId =>
    if (store.metadata tenantId).hasMetaTables then
      .ok ((store.metadata tenantId).metaTables.find? (·.id = tableId))
    else .error (.database "42P01")
  | validationSchema tenantId tableId =>
    .ok (DynamicTables.getOrBuildValidationSchema cfg.tables (store.metadata tenantId).catalog
      (store.metadata tenantId).cache tableId).1
  | insertRow tenantId table values owner => .ok ⟨tenantId, table, values, owner⟩
  | findSource userId tenantId =>
    .ok (store.findUser i fun user => user.id = userId && user.tenantId = tenantId)
  | findTransferTarget userId tenantId =>
    .ok (store.findUser i fun user => user.id = userId && user.tenantId = tenantId &&
      user.status = .ACTIVE && user.isActive)
  | lockSource userId tenantId => .ok (0 < (lockSource userId tenantId).count i store.cells)
  | lockTarget userId tenantId => .ok (0 < (lockTarget userId tenantId).count i store.cells)
  | hasMetaTables tenantId => .ok (store.metadata tenantId).hasMetaTables
  | hasOwnerColumn tenantId => .ok (store.metadata tenantId).hasOwnerColumn
  | selectTables tenantId => .ok (store.metadata tenantId).metaTables
  | countRecords tenantId table owner => .ok (store.countRecords i tenantId table owner)
  | revokeSessions authAccountId now => .ok ((revokeSessions authAccountId now).count i store.cells)
  | transferRecords _ _ _ _ | insertAudit _ | deleteMember _ | deleteAccount _ | commit => .ok ()

/-- The store after the operation's writes. A row of a dynamic table is inserted and
committed at once. -/
def Op.write (cfg : Config) (i : ℕ) (op : Op) (store : Store) : Store :=
  let cells : Cells Row := match op.change? with
    | none => store.cells
    | some change => store.cells.writeAll i change.cond change.set
  match op with
  | insertRow tenantId table values owner =>
    { store with cells := cells ++ [{ committed := some (.record ⟨tenantId, table, values, owner⟩) }] }
  | insertAudit log => { store with cells := Cells.insert i (.auditLog log) cells }
  | validationSchema tenantId tableId =>
    { store with
      metadata := Function.update store.metadata tenantId
        { store.metadata tenantId with
          cache := (DynamicTables.getOrBuildValidationSchema cfg.tables
            (store.metadata tenantId).catalog (store.metadata tenantId).cache tableId).2 } }
  | countRecords tenantId table owner =>
    if store.countRecords i tenantId table owner = 0 then
      { store with looked := store.looked ++ [⟨i, tenantId, owner, table⟩] }
    else store
  | transferRecords tenantId table owner _ =>
    { store with cells := cells, looked := store.looked ++ [⟨i, tenantId, owner, table⟩] }
  | commit =>
    { store with cells := Cells.commit i cells, looked := store.looked.filter (·.transaction ≠ i) }
  | _ => { store with cells := cells }

/-- A statement that fails writes nothing. -/
def Op.perform (cfg : Config) (i : ℕ) (outside : Outside) (op : Op) (store : Store) :
    Except ServiceError op.Res × Store :=
  match outside.fault with
  | some code => (.error (.database code), store)
  | none =>
    match op.answer cfg i store with
    | .error e => (.error e, store)
    | .ok a => (.ok a, op.write cfg i store)

def Op.waits (i : ℕ) (op : Op) (store : Store) : Bool :=
  match op.change? with
  | none => false
  | some change => store.cells.waits i change.cond

def Store.rollback (i : ℕ) (store : Store) : Store :=
  { store with cells := store.cells.rollback i, looked := store.looked.filter (·.transaction ≠ i) }

/-! ### Requests -/

inductive Request where
  | createRow (tableId : Uuid) (payload : Json) (bytes : ℕ) (user : AuthenticatedUser)
  | deleteUser (userId : ℕ) (transferToUserId : Option ℕ) (user : AuthenticatedUser)

/-- The payload of the request's access token. -/
def Request.user : Request → AuthenticatedUser
  | createRow _ _ _ user | deleteUser _ _ user => user

def Request.code (cfg : Config) : Request → Service Response
  | createRow tableId payload bytes user => do
    jwtAuthGuard user
    permissionsGuard user DYNAMIC_TABLES_ROWS_CREATE_PERMISSION
    Ownership.createRow cfg tableId payload bytes user
  | deleteUser userId transferToUserId user => do
    jwtAuthGuard user
    Ownership.deleteUser userId transferToUserId user

structure InFlight where
  request : Request
  thread : Thread Op Op.Res Context ServiceError Response

/-- Requests stay in the list after they are answered; a request's place in it is the id
of its transaction. -/
structure State where
  store : Store
  requests : List InFlight
  issued : List AccessJwt
  clock : ℕ

inductive Event where
  | arrive (r : Request) (c : Context)
  | execute (i : ℕ) (outside : Outside)
  | deliver (i : ℕ) (c : Context)
  | tick (d : ℕ)

def isError {α : Type} : Thread Op Op.Res Context ServiceError α → Bool
  | .finished (.error _) => true
  | _ => false

/-- A request arrives with an access token that has not expired. A fault does not wait. -/
def step (cfg : Config) (s : State) : Event → Option State
  | .arrive r c =>
    if s.issued.any fun token => token.payload = r.user && s.clock / 1000 < token.exp then
      some { s with requests := s.requests ++ [⟨r, (r.code cfg).advance { c with now := s.clock }⟩] }
    else none
  | .execute i outside =>
    match s.requests[i]? with
    | some ⟨r, .awaiting op k⟩ =>
      if outside.fault = none ∧ op.waits i s.store = true then none
      else
        let (answer, store) := op.perform cfg i outside s.store
        some { s with store := store, requests := s.requests.set i ⟨r, .answered op answer k⟩ }
    | _ => none
  | .deliver i c =>
    match s.requests[i]? with
    | some ⟨r, .answered _ answer k⟩ =>
      let thread := (k answer).advance { c with now := s.clock }
      some { s with
        requests := s.requests.set i ⟨r, thread⟩
        -- what was thrown rolls the transaction back
        store := if isError thread then s.store.rollback i else s.store }
    | _ => none
  | .tick d => some { s with clock := s.clock + d }

end Flexi.Ownership
