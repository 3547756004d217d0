import Flexi.Accounts.Records
import Flexi.DynamicTables.RowQuery
import Flexi.Library.Paging
import Flexi.Listings.Keywords

/-!
# Tenant and user lists (tenants.service.ts, users-admin.service.ts)

One page of tenants, and one page of users in the scope of the caller. Both lists are ordered
by `createdAt` alone, so a query may return tied rows in any order.
-/

namespace Flexi.Listings
open Flexi.Library Flexi.Tenants
open Flexi.DynamicTables (QueryError QueryNumber)
open Flexi.Accounts (ActorType AuthenticatedUser TenantUserStatus)

/-- Parts of the runtime, and the case folding of the database. -/
structure Runtime where
  js : JsRuntime
  toISOString : ℤ → String
  fold : Char → Char

/-! ### Query parameters -/

inductive ListParam where
  | page | pageSize | status | createdFrom | createdTo
  deriving DecidableEq, Repr

def ListParam.name : ListParam → String
  | .page => "page"
  | .pageSize => "pageSize"
  | .status => "status"
  | .createdFrom => "createdFrom"
  | .createdTo => "createdTo"

def invalidParam (field : ListParam) (message code : String) : QueryError :=
  { HttpError.validation message with fields := [(field.name, code)] }

def forbidden (message : String) : QueryError := { status := 403, error := "FORBIDDEN",
                                                   message := [message], fields := [] }

def parsePositiveInteger (value : Option QueryNumber) (defaultValue : ℕ) (field : ListParam) :
    Except QueryError ℕ :=
  match value with
  | none => .ok defaultValue
  | some value => match value.positiveInteger? with
    | some n => .ok n
    | none => .error (invalidParam field (field.name ++ " must be a positive integer.")
        (field.name.toUpper ++ "_INVALID"))

/-! ### What both lists share -/

/-- A query after its checks. -/
structure ListQuery (ρ : Type) where
  page : ℕ
  pageSize : ℕ
  whereClause : ρ → Bool

structure ListResponse (ι : Type) where
  items : List ι
  total : ℕ
  page : ℕ
  pageSize : ℕ

/-- `orderBy: { createdAt: 'desc' }` -/
def NewestFirst {ρ : Type} (createdAt : ρ → ℤ) (a b : ρ) : Prop := createdAt b ≤ createdAt a

instance {ρ : Type} (createdAt : ρ → ℤ) : DecidableRel (NewestFirst createdAt) :=
  fun a b => inferInstanceAs (Decidable (createdAt b ≤ createdAt a))

/-- The rows that a `findMany` may return. -/
def FindsMany {ρ : Type} (createdAt : ρ → ℤ) (rows : List ρ) (whereClause : ρ → Bool) (skip take : ℕ)
    (found : List ρ) : Prop :=
  ∃ L, Arranges (NewestFirst createdAt) (rows.filter whereClause) L ∧ found = (L.drop skip).take take

/-- The answers that a list may give: the page and the count are read one after the other. -/
def Lists {ρ ι : Type} (createdAt : ρ → ℤ) (toItem : ρ → ι) (rows : List ρ)
    (query : Except QueryError (ListQuery ρ)) (result : Except QueryError (ListResponse ι)) : Prop :=
  match query with
  | .error e => result = .error e
  | .ok q => ∃ found,
      FindsMany createdAt rows q.whereClause ((q.page - 1) * q.pageSize) q.pageSize found ∧
        result = .ok { items := found.map toItem, total := (rows.filter q.whereClause).length,
                       page := q.page, pageSize := q.pageSize }

/-! ### Tenants -/

def TENANT_LIST_DEFAULT_PAGE : ℕ := 1
def TENANT_LIST_DEFAULT_PAGE_SIZE : ℕ := 20
def TENANT_LIST_MAX_PAGE_SIZE : ℕ := 100

def TENANT_LIFECYCLE_STATUSES : List String := ["PROVISIONING", "ACTIVE", "FAILED", "SUSPENDED"]

structure OnboardingAttemptRow where
  status : String
  safePayload : Json
  actorIdentity : Json

structure TenantRow where
  id : String
  name : String
  slug : String
  status : String
  createdAt : ℤ
  onboardingAttempt : Option OnboardingAttemptRow

structure TenantListItemDto where
  id : String
  name : String
  slug : String
  status : String
  plan : Json
  createdAt : String
  latestAttemptStatus : Option String
  actorName : Json

/-- `TenantListQueryDto`, as the controller reads it from the query string. -/
structure TenantListQueryDto where
  status : Option String
  keyword : Option String
  createdFrom : Option String
  createdTo : Option String
  page : Option QueryNumber
  pageSize : Option QueryNumber

def parseTenantStatusFilter (value : Option String) : Except QueryError (Option String) :=
  match value with
  | none => .ok none
  | some value =>
    if value = "" then .ok none
    else if TENANT_LIFECYCLE_STATUSES.contains value then .ok (some value)
    else .error (invalidParam .status "status must be a valid tenant lifecycle status."
      "STATUS_INVALID")

/-- `^\d{4}-\d{2}-\d{2}$` -/
def isDateOnly (value : String) : Bool :=
  match value.toList with
  | [y, y', y'', y''', '-', m, m', '-', d, d'] =>
    [y, y', y'', y''', m, m', d, d'].all Char.isDigit
  | _ => false

def MILLISECONDS_PER_DAY : ℕ := 24 * 60 * 60 * 1000

/-- `setUTCHours(23, 59, 59, 999)` -/
def endOfUtcDay (ms : ℚ) : ℚ :=
  (⌊ms / MILLISECONDS_PER_DAY⌋ + 1) * MILLISECONDS_PER_DAY - 1

def parseFilterDate (rt : Runtime) (value : Option String) (field : ListParam) :
    Except QueryError (Option ℚ) :=
  match value with
  | none => .ok none
  | some value =>
    if value = "" then .ok none
    else match rt.js.dateParse value with
      | none => .error (invalidParam field (field.name ++ " must be a valid date.") "DATE_INVALID")
      | some parsed =>
        if field = .createdTo ∧ isDateOnly value = true then .ok (some (endOfUtcDay parsed))
        else .ok (some parsed)

/-- Some of the texts has the keyword in it; a missing text has nothing in it. -/
def keywordMatches (rt : Runtime) (keyword : Option String) (texts : List (Option String)) : Bool :=
  keyword.all fun pattern => texts.any fun text =>
    text.bind (fun text => containsInsensitive rt.fold text pattern) == some true

def tenantWhere (rt : Runtime) (status : Option String) (createdFrom createdTo : Option ℚ)
    (keyword : Option String) (tenant : TenantRow) : Bool :=
  status.all (fun status => tenant.status == status) &&
    createdFrom.all (fun first => decide (first ≤ (tenant.createdAt : ℚ))) &&
    createdTo.all (fun last => decide ((tenant.createdAt : ℚ) ≤ last)) &&
    keywordMatches rt keyword [some tenant.name, some tenant.slug]

def rangeInvalid : QueryError :=
  invalidParam .createdFrom "createdFrom must not be after createdTo." "DATE_RANGE_INVALID"

def tenantListQuery (rt : Runtime) (query : TenantListQueryDto) :
    Except QueryError (ListQuery TenantRow) := do
  let page ← parsePositiveInteger query.page TENANT_LIST_DEFAULT_PAGE .page
  let pageSize ← parsePositiveInteger query.pageSize TENANT_LIST_DEFAULT_PAGE_SIZE .pageSize
  let clampedPageSize := min pageSize TENANT_LIST_MAX_PAGE_SIZE
  let status ← parseTenantStatusFilter query.status
  let createdFrom ← parseFilterDate rt query.createdFrom .createdFrom
  let createdTo ← parseFilterDate rt query.createdTo .createdTo
  if createdFrom.any fun first => createdTo.any fun last => decide (last < first) then
    throw rangeInvalid
  else
    let keyword := (query.keyword.map trim).filter fun keyword => keyword != ""
    pure { page := page, pageSize := clampedPageSize,
           whereClause := tenantWhere rt status createdFrom createdTo (keyword.map escapeLikeKeyword) }

def mapTenantListItem (rt : Runtime) (tenant : TenantRow) : TenantListItemDto where
  id := tenant.id
  name := tenant.name
  slug := tenant.slug
  status := tenant.status
  plan := (tenant.onboardingAttempt.bind fun attempt => attempt.safePayload.get? "plan").getD .null
  createdAt := rt.toISOString tenant.createdAt
  latestAttemptStatus := tenant.onboardingAttempt.map OnboardingAttemptRow.status
  actorName :=
    (tenant.onboardingAttempt.bind fun attempt => attempt.actorIdentity.get? "name").getD .null

def ListsTenants (rt : Runtime) (tenants : List TenantRow) (query : TenantListQueryDto) :
    Except QueryError (ListResponse TenantListItemDto) → Prop :=
  Lists TenantRow.createdAt (mapTenantListItem rt) tenants (tenantListQuery rt query)

/-! ### Users -/

def USER_LIST_DEFAULT_PAGE : ℕ := 1
def USER_LIST_DEFAULT_PAGE_SIZE : ℕ := 20
def USER_LIST_MAX_PAGE_SIZE : ℕ := 100

def TENANT_USER_READ_PERMISSION : String := "tenant.user.read"
def SYSTEM_USER_READ_PERMISSION : String := "system.user.read"

structure RoleSummary where
  id : String
  name : String

/-- `SYSTEM_USER_SELECT`, with the account's email. -/
structure SystemUserRow where
  id : String
  authAccountId : String
  name : Option String
  isActive : Bool
  createdAt : ℤ
  updatedAt : ℤ
  email : String
  roles : List RoleSummary

/-- `TENANT_USER_SELECT`, likewise. -/
structure TenantUserRow extends SystemUserRow where
  tenantId : String
  status : String

structure UserSummaryDto where
  id : String
  actorType : ActorType
  tenantId : Option String
  authAccountId : String
  email : String
  fullName : Option String
  status : Option TenantUserStatus
  isActive : Bool
  roles : List RoleSummary
  createdAt : String
  updatedAt : String

structure UserListQueryDto where
  status : Option String
  roleId : Option String
  keyword : Option String
  page : Option QueryNumber
  pageSize : Option QueryNumber

/-- `Object.values(TenantUserStatus)` -/
def tenantUserStatuses : List TenantUserStatus :=
  [.ACTIVE, .PENDING_SETUP, .PENDING_INVITE, .PENDING_APPROVAL, .LOCKED, .DELETED]

def asTenantUserStatus (status : String) : Option TenantUserStatus :=
  tenantUserStatuses.find? fun value => value.text == status

def parseUserStatusFilter (status : Option String) : Except QueryError (Option TenantUserStatus) :=
  match status with
  | none => .ok none
  | some status =>
    if status = "" then .ok none
    else match asTenantUserStatus status with
      | some known => .ok (some known)
      | none => .error (invalidParam .status ("status must be one of: " ++
          ", ".intercalate (tenantUserStatuses.map TenantUserStatus.text) ++ ".") "STATUS_INVALID")

def assertActorPermission (currentUser : AuthenticatedUser) (tenantCode systemCode : String) :
    Except QueryError Unit :=
  let required := if currentUser.actorType = .TENANT then tenantCode else systemCode
  if currentUser.permissions.contains required then .ok ()
  else .error (forbidden "Insufficient permissions")

def requireTenantActor (currentUser : AuthenticatedUser) : Except QueryError String :=
  match currentUser.actorType, currentUser.tenantId with
  | .TENANT, some tenantId =>
    if tenantId = "" then .error (forbidden "This route is scoped to a tenant.") else .ok tenantId
  | _, _ => .error (forbidden "This route is scoped to a tenant.")

/-- The filters of both scopes. -/
def userWhere (rt : Runtime) (roleId keyword : Option String) (user : SystemUserRow) : Bool :=
  roleId.all (fun roleId => user.roles.any fun role => role.id == roleId) &&
    keywordMatches rt keyword [user.name, some user.email]

def tenantUserWhere (rt : Runtime) (tenantId : String) (status : Option TenantUserStatus)
    (roleId keyword : Option String) (user : TenantUserRow) : Bool :=
  user.tenantId == tenantId &&
    status.elim (user.status != TenantUserStatus.DELETED.text) (fun s => user.status == s.text) &&
    userWhere rt roleId keyword user.toSystemUserRow

/-- The query in the scope of the caller. -/
inductive UserListQuery where
  | system (query : ListQuery SystemUserRow)
  | tenant (query : ListQuery TenantUserRow)

def statusNotApplicable : QueryError :=
  invalidParam .status "status filters tenant users only." "STATUS_NOT_APPLICABLE"

def userListQuery (rt : Runtime) (query : UserListQueryDto) (currentUser : AuthenticatedUser) :
    Except QueryError UserListQuery := do
  assertActorPermission currentUser TENANT_USER_READ_PERMISSION SYSTEM_USER_READ_PERMISSION
  let page ← parsePositiveInteger query.page USER_LIST_DEFAULT_PAGE .page
  let pageSize ← parsePositiveInteger query.pageSize USER_LIST_DEFAULT_PAGE_SIZE .pageSize
  let pageSize := min pageSize USER_LIST_MAX_PAGE_SIZE
  let keyword := parseKeyword query.keyword
  let roleId := (query.roleId.map trim).filter fun roleId => roleId != ""
  if currentUser.actorType = .SYSTEM then
    if query.status.isSome then throw statusNotApplicable
    else pure (.system { page := page, pageSize := pageSize, whereClause := userWhere rt roleId keyword })
  else
    let tenantId ← requireTenantActor currentUser
    let status ← parseUserStatusFilter query.status
    pure (.tenant { page := page, pageSize := pageSize,
                    whereClause := tenantUserWhere rt tenantId status roleId keyword })

def toSystemUserSummary (rt : Runtime) (user : SystemUserRow) : UserSummaryDto where
  id := user.id
  actorType := .SYSTEM
  tenantId := none
  authAccountId := user.authAccountId
  email := user.email
  fullName := user.name
  status := none
  isActive := user.isActive
  roles := user.roles
  createdAt := rt.toISOString user.createdAt
  updatedAt := rt.toISOString user.updatedAt

def toTenantUserSummary (rt : Runtime) (user : TenantUserRow) : UserSummaryDto :=
  { toSystemUserSummary rt user.toSystemUserRow with
    actorType := .TENANT
    tenantId := some user.tenantId
    status := asTenantUserStatus user.status }

def ListsUsers (rt : Runtime) (systemUsers : List SystemUserRow) (tenantUsers : List TenantUserRow)
    (query : UserListQueryDto) (currentUser : AuthenticatedUser)
    (result : Except QueryError (ListResponse UserSummaryDto)) : Prop :=
  match userListQuery rt query currentUser with
  | .error e => result = .error e
  | .ok (.system q) => Lists SystemUserRow.createdAt (toSystemUserSummary rt) systemUsers (.ok q) result
  | .ok (.tenant q) =>
    Lists (fun user => user.createdAt) (toTenantUserSummary rt) tenantUsers (.ok q) result

end Flexi.Listings
