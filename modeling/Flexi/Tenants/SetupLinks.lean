import Flexi.Accounts.Records
import Flexi.Common.HttpError
import Flexi.Library.Async
import Flexi.Library.ReadCommitted
import Flexi.Library.Table

/-!
# Setup links (setup-link.service.ts)

The code of `SetupLinkService` and its requests at the level of single statements. The
rows of the three tables stand in one list, numbered by it.
-/

namespace Flexi.Tenants.SetupLink
open Flexi.Library

def SETUP_TOKEN_TTL_MS : ℕ := 24 * 60 * 60 * 1000

structure SetupToken where
  tenantId : String
  tokenHash : String
  expiresAt : ℕ
  revokedAt : Option ℕ := none
  usedAt : Option ℕ := none
  deriving DecidableEq

/-- Unrevoked, unused and unexpired: what `redeem` takes. -/
def SetupToken.isLive (token : SetupToken) (now : ℕ) : Bool :=
  token.revokedAt = none && token.usedAt = none && now < token.expiresAt

structure TenantUser where
  tenantId : String
  authAccountId : ℕ
  status : Accounts.TenantUserStatus
  isActive : Bool
  deriving DecidableEq

structure AuthAccount where
  passwordHash : String
  deriving DecidableEq

inductive Row where
  | setupToken (token : SetupToken)
  | tenantUser (user : TenantUser)
  | authAccount (account : AuthAccount)
  deriving DecidableEq

/-- The statements, and bcrypt. `revokeAll` is a transaction of its own. -/
inductive Op where
  | findTenantUser (tenantId : String)
  | revokeTokens (tenantId : String) (now : ℕ)
  | createToken (tenantId tokenHash : String) (expiresAt : ℕ)
  | revokeAll (tenantId : String) (now : ℕ)
  | hash (password : String)
  | findToken (tokenHash : String)
  | findPendingAdmin (tenantId : String)
  | consume (id now : ℕ)
  | setPassword (authAccountId : ℕ) (passwordHash : String)
  | activateUser (id : ℕ)
  | revokeSiblings (tenantId : String) (id now : ℕ)
  | commit
  deriving DecidableEq

@[reducible] def Op.Res : Op → Type
  | findTenantUser _ => Bool
  | revokeTokens _ _ | revokeAll _ _ | consume _ _ | revokeSiblings _ _ _ => ℕ
  | hash _ => String
  | findToken _ => Option (ℕ × SetupToken)
  | findPendingAdmin _ => Option (ℕ × ℕ)
  | createToken _ _ _ | setPassword _ _ | activateUser _ | commit => Unit

inductive ServiceError where
  | http (e : HttpError)
  | database (code : String)
  deriving DecidableEq

/-- The clock and the bytes that are drawn. -/
structure Context where
  now : ℕ
  newToken : String

abbrev Service := Prog Op Op.Res Context ServiceError

def request (op : Op) : Service op.Res := Prog.await op

def fail {α : Type} (e : HttpError) : Service α := throw (.http e)

structure Config where
  sha256 : String → String

def firstAdminNotFound : HttpError :=
  ⟨404, "FIRST_ADMIN_NOT_FOUND",
    ["No First Admin exists for this tenant yet; setup link generation requires Story 2.4 to have run."]⟩

def invalidSetupToken : HttpError :=
  .badRequest "INVALID_SETUP_TOKEN" ["The setup link is invalid or has expired."]

/-! ### SetupLinkService -/

inductive Response where
  | generated (setupToken : String) (expiresAt : ℕ)
  | done
  deriving DecidableEq

def generate (cfg : Config) (tenantId : String) : Service Response := do
  let existingTenantUser ← request (.findTenantUser tenantId)
  if existingTenantUser then do
    let c ← Prog.read
    let _ ← request (.revokeTokens tenantId c.now)
    let c ← Prog.read
    let expiresAt := c.now + SETUP_TOKEN_TTL_MS
    request (.createToken tenantId (cfg.sha256 c.newToken) expiresAt)
    request .commit
    pure (.generated c.newToken expiresAt)
  else fail firstAdminNotFound

def revokeAll (tenantId : String) : Service Response := do
  let c ← Prog.read
  let _ ← request (.revokeAll tenantId c.now)
  pure .done

structure RedeemSetupTokenDto where
  token : String
  password : String

/-- The transaction of `redeem` from the token it has found. -/
def redeemFound (passwordHash : String) (id : ℕ) (setupToken : SetupToken) (redeemedAt : ℕ) :
    Service Response := do
  let tenantUser ← request (.findPendingAdmin setupToken.tenantId)
  match tenantUser with
  | none => fail invalidSetupToken
  | some (userId, authAccountId) => do
    let consumed ← request (.consume id redeemedAt)
    if consumed ≠ 1 then fail invalidSetupToken
    else do
      request (.setPassword authAccountId passwordHash)
      request (.activateUser userId)
      let _ ← request (.revokeSiblings setupToken.tenantId id redeemedAt)
      request .commit
      pure .done

def redeem (cfg : Config) (dto : RedeemSetupTokenDto) : Service Response := do
  if trim dto.password = "" then fail (.validation "password must be a non-empty string.")
  else do
    let passwordHash ← request (.hash dto.password)
    let setupToken ← request (.findToken (cfg.sha256 dto.token))
    let c ← Prog.read
    match setupToken with
    | none => fail invalidSetupToken
    | some (id, setupToken) =>
      if setupToken.revokedAt ≠ none ∨ setupToken.usedAt ≠ none ∨ setupToken.expiresAt ≤ c.now then
        fail invalidSetupToken
      else redeemFound passwordHash id setupToken c.now

/-! ### The statements -/

/-- The rows that an update changes, and how. -/
structure Update where
  cond : ℕ → Row → Bool
  set : Row → Row

def onToken (cond : ℕ → SetupToken → Bool) (set : SetupToken → SetupToken) : Update where
  cond k
    | .setupToken token => cond k token
    | _ => false
  set
    | .setupToken token => .setupToken (set token)
    | row => row

def onAccount (cond : ℕ → Bool) (set : AuthAccount → AuthAccount) : Update where
  cond k
    | .authAccount _ => cond k
    | _ => false
  set
    | .authAccount account => .authAccount (set account)
    | row => row

def onUser (cond : ℕ → Bool) (set : TenantUser → TenantUser) : Update where
  cond k
    | .tenantUser _ => cond k
    | _ => false
  set
    | .tenantUser user => .tenantUser (set user)
    | row => row

/-- Every non-revoked token of the tenant is revoked. -/
def revoking (tenantId : String) (now : ℕ) : Update :=
  onToken (fun _ token => token.tenantId = tenantId && token.revokedAt = none)
    fun token => { token with revokedAt := some now }

/-- The conditional consumption. -/
def consuming (id now : ℕ) : Update :=
  onToken (fun k token => k = id && token.revokedAt = none && token.usedAt = none &&
    now < token.expiresAt) fun token => { token with usedAt := some now }

/-- The still-live siblings of a consumed token are revoked. -/
def revokingSiblings (tenantId : String) (id now : ℕ) : Update :=
  onToken (fun k token => token.tenantId = tenantId && k ≠ id && token.revokedAt = none &&
    token.usedAt = none) fun token => { token with revokedAt := some now }

def Op.update? : Op → Option Update
  | revokeTokens tenantId now | revokeAll tenantId now => some (revoking tenantId now)
  | consume id now => some (consuming id now)
  | revokeSiblings tenantId id now => some (revokingSiblings tenantId id now)
  | setPassword authAccountId passwordHash =>
    some (onAccount (fun k => k = authAccountId) fun _ => ⟨passwordHash⟩)
  | activateUser id =>
    some (onUser (fun k => k = id) fun user => { user with status := .ACTIVE })
  | _ => none

/-- What decides an answer besides the rows: a fault, the order in which rows are
returned, bcrypt's salted hashes. -/
structure Outside where
  fault : Bool
  pick : ℕ
  newHash : String → String

def Row.token? : Row → Option SetupToken
  | setupToken token => some token
  | _ => none

def Row.user? : Row → Option TenantUser
  | tenantUser user => some user
  | _ => none

/-- A unique hash is looked for among the rows of all transactions. -/
def hashTaken (tokenHash : String) (cells : Cells Row) : Bool :=
  cells.any fun c => (c.committed.toList ++ (c.pending.map (·.2)).toList).any fun row =>
    row.token?.any (·.tokenHash = tokenHash)

/-- How many rows the update changes. -/
def Op.count (i : ℕ) (seen : List ℕ) (op : Op) (cells : Cells Row) : ℕ :=
  match op.update? with
  | none => 0
  | some u => cells.count i seen u.cond

/-- An update by id fails on a row that is gone. -/
def updated (count : ℕ) : Except ServiceError Unit :=
  if count = 0 then .error (.database "P2025") else .ok ()

/-- The answer to transaction `i`. -/
def Op.answer (i : ℕ) (seen : List ℕ) (outside : Outside) (cells : Cells Row) :
    (op : Op) → Except ServiceError op.Res
  | findTenantUser tenantId =>
    .ok !(cells.select i fun _ row => row.user?.any (·.tenantId = tenantId)).isEmpty
  | revokeTokens tenantId now => .ok ((revokeTokens tenantId now).count i seen cells)
  | createToken _ tokenHash _ =>
    if hashTaken tokenHash cells then .error (.database "P2002") else .ok ()
  | revokeAll tenantId now => .ok ((revokeAll tenantId now).count i seen cells)
  | hash password => .ok (outside.newHash password)
  | findToken tokenHash =>
    .ok ((cells.select i fun _ row => row.token?.any (·.tokenHash = tokenHash)).head?.bind
      fun (k, row) => row.token?.map fun token => (k, token))
  | findPendingAdmin tenantId =>
    .ok ((findAny outside.pick (fun _ => true) (cells.select i fun _ row => row.user?.any fun user =>
      user.tenantId = tenantId && user.status = .PENDING_SETUP && user.isActive)).bind
      fun (k, row) => row.user?.map fun user => (k, user.authAccountId))
  | consume id now => .ok ((consume id now).count i seen cells)
  | setPassword authAccountId passwordHash =>
    updated ((setPassword authAccountId passwordHash).count i seen cells)
  | activateUser id => updated ((activateUser id).count i seen cells)
  | revokeSiblings tenantId id now => .ok ((revokeSiblings tenantId id now).count i seen cells)
  | commit => .ok ()

def Op.commits : Op → Bool
  | commit | revokeAll _ _ => true
  | _ => false

/-- The table after the operation's writes. -/
def Op.write (i : ℕ) (seen : List ℕ) (op : Op) (cells : Cells Row) : Cells Row :=
  let cells := match op.update? with
    | none => cells
    | some u => cells.update i seen u.cond u.set
  match op with
  | createToken tenantId tokenHash expiresAt =>
    cells.insert i (.setupToken
      { tenantId := tenantId, tokenHash := tokenHash, expiresAt := expiresAt })
  | op => if op.commits then cells.commit i else cells

/-- A statement that fails writes nothing. -/
def Op.perform (i : ℕ) (seen : List ℕ) (outside : Outside) (op : Op) (cells : Cells Row) :
    Except ServiceError op.Res × Cells Row :=
  if outside.fault then (.error (.database "P1001"), cells)
  else match op.answer i seen outside cells with
    | .error e => (.error e, cells)
    | .ok a => (.ok a, op.write i seen cells)

/-! ### Requests -/

inductive Request where
  | generate (tenantId : String)
  | revokeAll (tenantId : String)
  | redeem (dto : RedeemSetupTokenDto)

def Request.code (cfg : Config) : Request → Service Response
  | generate tenantId => SetupLink.generate cfg tenantId
  | revokeAll tenantId => SetupLink.revokeAll tenantId
  | redeem dto => SetupLink.redeem cfg dto

/-- `seen` are the rows that a statement has set out to change. `overtaken` is history: the
inserted rows that were committed since the request began its revocation. -/
structure InFlight where
  request : Request
  thread : Thread Op Op.Res Context ServiceError Response
  seen : Option (List ℕ) := none
  overtaken : List ℕ := []

/-- Requests stay in the list after they are answered; a request's place in it is the id
of its transaction. -/
structure State where
  cells : Cells Row
  requests : List InFlight
  clock : ℕ

inductive Event where
  | arrive (r : Request) (c : Context)
  | start (i : ℕ)
  | execute (i : ℕ) (outside : Outside)
  | deliver (i : ℕ) (c : Context)
  | tick (d : ℕ)

def Op.snapshot (i : ℕ) (op : Op) (cells : Cells Row) : List ℕ :=
  match op.update? with
  | none => []
  | some u => cells.snapshot i u.cond

def Op.revokes : Op → Bool
  | revokeTokens _ _ | revokeAll _ _ => true
  | _ => false

/-- The inserts that an execution commits. -/
def Op.committedRows (i : ℕ) (op : Op) (answer : Except ServiceError op.Res) (cells : Cells Row) :
    List ℕ :=
  if op.commits && answer.isOk then cells.inserted i else []

/-- The requests learn nothing of a commit; it is only noted. -/
def overtake (rows : List ℕ) (requests : List InFlight) : List InFlight :=
  requests.map fun f => { f with overtaken := f.overtaken ++ rows }

def isError {α : Type} : Thread Op Op.Res Context ServiceError α → Bool
  | .finished (.error _) => true
  | _ => false

def step (cfg : Config) (s : State) : Event → Option State
  | .arrive r c => some { s with
      requests := s.requests ++
        [{ request := r, thread := (r.code cfg).advance { c with now := s.clock } }] }
  | .start i =>
    match s.requests[i]? with
    | some ⟨r, .awaiting op k, _, overtaken⟩ => some { s with
        requests := s.requests.set i
          ⟨r, .awaiting op k, some (op.snapshot i s.cells), if op.revokes then [] else overtaken⟩ }
    | _ => none
  | .execute i outside =>
    match s.requests[i]? with
    | some ⟨r, .awaiting op k, some seen, overtaken⟩ =>
      if s.cells.blocked i seen then none
      else
        let (answer, cells) := op.perform i seen outside s.cells
        let requests := s.requests.set i ⟨r, .answered op answer k, none, overtaken⟩
        some { s with
          cells := cells
          requests := overtake (op.committedRows i answer s.cells) requests }
    | _ => none
  | .deliver i c =>
    match s.requests[i]? with
    | some ⟨r, .answered _ answer k, seen, overtaken⟩ =>
      let thread := (k answer).advance { c with now := s.clock }
      some { s with
        requests := s.requests.set i ⟨r, thread, seen, overtaken⟩
        -- what was thrown rolls the transaction back
        cells := if isError thread then s.cells.rollback i else s.cells }
    | _ => none
  | .tick d => some { s with clock := s.clock + d }

/-- Nobody has asked for anything yet, and all rows are committed. -/
def Idle (s : State) : Prop := s.requests = [] ∧ ∀ c ∈ s.cells, c.pending = none

end Flexi.Tenants.SetupLink
