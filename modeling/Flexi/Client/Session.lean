import Flexi.Library.Reach
import Mathlib.Tactic

/-!
# The session of a browser tab (api-client.ts, AuthContext.tsx)

The module's tokens, the shared refresh and the calls of `request`, with the flows of the auth
context over them. A step is what runs without a pause: a call from a component, or what
follows one settled promise. `null` and the empty text, which the source tests for together,
are `none`, so a token is a text that is not empty.
-/

namespace Flexi.Client.Session
open Flexi.Library

def NO_REFRESH_PATHS : List String :=
  ["/auth/login", "/auth/refresh", "/auth/logout", "/auth/forgot-password", "/auth/reset-password"]

def RATE_LIMITED_ERROR_CODE : String := "RATE_LIMITED"

def RATE_LIMITED_PATHS : List String :=
  ["/auth/login", "/auth/refresh", "/auth/forgot-password", "/auth/reset-password"]

/-- `ApiError`, and the `error` of an envelope. -/
structure ApiError where
  code : String
  message : String
  existingAttemptId : Option String := none
  deriving DecidableEq

/-- `AuthTokensDto` -/
structure AuthTokens (A R : Type) where
  accessToken : A
  refreshToken : R

/-- The `data` of an envelope, as far as the auth context looks into it. -/
inductive Data (A R U : Type) where
  | tokens (tokens : AuthTokens A R)
  | user (user : U)
  | other

def Data.user? {A R U : Type} : Data A R U → Option U
  | .user u => some u
  | _ => none

/-- The body of a request, with the `x-tenant-id` header of a login. -/
inductive Body (R : Type) where
  | empty
  | credentials (email password : String) (tenantId : Option String)
  | refreshToken (token : R)
  | other

/-- The arguments of `request`. -/
structure Call (R : Type) where
  path : String
  body : Body R := .empty
  skipAuth : Bool := false

/-- What `rawRequest` hands to `fetch`. -/
structure Fetch (A R : Type) where
  path : String
  authorization : Option A
  body : Body R

inductive Envelope (D : Type) where
  | success (data : D)
  | failure (error : ApiError)

/-- What `rawRequest` returns: a 204 has no envelope. -/
structure Reply (D : Type) where
  status : ℕ
  envelope : Option (Envelope D)

/-- Where a call of `request` stands: its first or its second fetch is out, or it awaits the
shared refresh number `refresh` with the error of the 401 in hand. -/
inductive RequestStage (A R U : Type) where
  | sent
  | refreshing (refresh : ℕ) (error : ApiError)
  | resent
  | resolved (data : Option (Data A R U))
  | rejected (error : ApiError)

/-- How the promise of `request` is settled. -/
def RequestStage.outcome {A R U : Type} :
    RequestStage A R U → Option (Except ApiError (Option (Data A R U)))
  | resolved data => some (.ok data)
  | rejected error => some (.error error)
  | _ => none

structure ApiRequest (A R U : Type) where
  call : Call R
  fetches : List (Fetch A R)
  stage : RequestStage A R U := .sent

/-- Where a run of the body of `refreshAccessToken` stands. `settled` is its end before the
`finally`; only `done` wakes those that await the promise. -/
inductive RefreshStage (A R : Type) where
  | sent (token : R)
  | settled (result : Option A)
  | done (result : Option A)

def RefreshStage.result {A R : Type} : RefreshStage A R → Option (Option A)
  | done result => some result
  | _ => none

inductive FlowKind where
  | bootstrap
  | login
  | reload
  | logout
  deriving DecidableEq

inductive FlowStage where
  | refreshing (refresh : ℕ)
  | requesting (request : ℕ)
  | readingUser (request : ℕ)
  | finished

structure Flow where
  kind : FlowKind
  stage : FlowStage
  cancelled : Bool := false

/-- The clean-up of the effect that has started `bootstrap`. -/
def Flow.cancel (f : Flow) : Flow := if f.kind = .bootstrap then { f with cancelled := true } else f

/-- The state of `AuthProvider`. -/
structure React (A U : Type) where
  accessToken : Option A := none
  currentUser : Option U := none
  loading : Bool := true

/-- `stored` is what the local storage holds. Refreshes, requests and flows stay in their
lists after their end. The handlers of the auth context are registered throughout. -/
structure Tab (A R U : Type) where
  accessToken : Option A := none
  stored : Option R
  refreshInFlight : Option ℕ := none
  refreshes : List (RefreshStage A R) := []
  requests : List (ApiRequest A R U) := []
  flows : List Flow := []
  react : React A U := {}

/-- Which accesses to the local storage do not throw during a step. -/
structure Storage where
  readable : Bool := true
  writable : Bool := true

variable {A R U : Type}

namespace Tab

/-! ### api-client.ts -/

def getStoredRefreshToken (env : Storage) (s : Tab A R U) : Option R :=
  if env.readable then s.stored else none

def setStoredRefreshToken (env : Storage) (token : Option R) (s : Tab A R U) : Tab A R U :=
  { s with stored := if env.writable then token else s.stored }

def setAccessToken (token : Option A) (s : Tab A R U) : Tab A R U := { s with accessToken := token }

def setAccessTokenState (token : Option A) (s : Tab A R U) : Tab A R U :=
  { s with react := { s.react with accessToken := token } }

def setCurrentUser (user : Option U) (s : Tab A R U) : Tab A R U :=
  { s with react := { s.react with currentUser := user } }

def setLoading (loading : Bool) (s : Tab A R U) : Tab A R U :=
  { s with react := { s.react with loading := loading } }

/-- The clearing of the auth context. -/
def clearSession (env : Storage) (s : Tab A R U) : Tab A R U :=
  (((s.setAccessToken none).setStoredRefreshToken env none).setAccessTokenState none).setCurrentUser
    none

/-- The handler that is called at the end is `clearSession`. -/
def handleSessionExpired (env : Storage) (s : Tab A R U) : Tab A R U :=
  ((s.setAccessToken none).setStoredRefreshToken env none).clearSession env

def putRequest (s : Tab A R U) (i : ℕ) (r : ApiRequest A R U) : Tab A R U :=
  { s with requests := s.requests.set i r }

def putRefresh (s : Tab A R U) (k : ℕ) (r : RefreshStage A R) : Tab A R U :=
  { s with refreshes := s.refreshes.set k r }

def putFlow (s : Tab A R U) (j : ℕ) (f : Flow) : Tab A R U := { s with flows := s.flows.set j f }

def addFlow (kind : FlowKind) (stage : FlowStage) (s : Tab A R U) : Tab A R U :=
  { s with flows := s.flows ++ [⟨kind, stage, false⟩] }

/-- The fetch of `rawRequest`, with the module's access token of the moment. -/
def fetch (s : Tab A R U) (call : Call R) : Fetch A R :=
  ⟨call.path, if call.skipAuth then none else s.accessToken, call.body⟩

/-- `request` up to its first fetch. -/
def request (call : Call R) (s : Tab A R U) : Tab A R U :=
  { s with requests := s.requests ++ [⟨call, [s.fetch call], .sent⟩] }

/-- The number of the promise that `refreshAccessToken` returns. -/
def refreshPromise (s : Tab A R U) : ℕ := s.refreshInFlight.getD s.refreshes.length

/-- `refreshAccessToken`. Without a stored token the run ends at once, and the promise is
still the shared one until its `finally`. -/
def refreshAccessToken (env : Storage) (s : Tab A R U) : Tab A R U :=
  match s.refreshInFlight with
  | some _ => s
  | none =>
    { s with
      refreshes := s.refreshes ++ [match s.getStoredRefreshToken env with
        | none => .settled none
        | some token => .sent token]
      refreshInFlight := some s.refreshes.length }

/-- The refresh request has been answered. -/
def refreshReply (env : Storage) (s : Tab A R U) (k : ℕ) :
    Except String (Reply (AuthTokens A R)) → Tab A R U
  | .ok ⟨200, some (.success tokens)⟩ =>
    (((s.setAccessToken (some tokens.accessToken)).setStoredRefreshToken env
      (some tokens.refreshToken)).setAccessTokenState (some tokens.accessToken)).putRefresh k
      (.settled (some tokens.accessToken))
  | _ => s.putRefresh k (.settled none)

/-- `finally` -/
def refreshSettled (s : Tab A R U) (k : ℕ) (result : Option A) : Tab A R U :=
  { s.putRefresh k (.done result) with refreshInFlight := none }

def networkError (message : String) : ApiError := ⟨"NETWORK_ERROR", message, none⟩

/-- `request` after its first fetch. -/
def firstReply (env : Storage) (s : Tab A R U) (i : ℕ) (r : ApiRequest A R U) :
    Except String (Reply (Data A R U)) → Tab A R U
  | .error message => s.putRequest i { r with stage := .rejected (networkError message) }
  | .ok ⟨_, none⟩ => s.putRequest i { r with stage := .resolved none }
  | .ok ⟨_, some (.success data)⟩ => s.putRequest i { r with stage := .resolved (some data) }
  | .ok ⟨status, some (.failure error)⟩ =>
    if status = 429 ∧ r.call.path ∈ RATE_LIMITED_PATHS then
      s.putRequest i
        { r with stage := .rejected ⟨RATE_LIMITED_ERROR_CODE, error.message, none⟩ }
    else if status = 401 ∧ r.call.path ∉ NO_REFRESH_PATHS then
      (s.refreshAccessToken env).putRequest i { r with stage := .refreshing s.refreshPromise error }
    else s.putRequest i { r with stage := .rejected error }

/-- `request` after the refresh it has awaited. -/
def refreshed (env : Storage) (s : Tab A R U) (i : ℕ) (r : ApiRequest A R U) (error : ApiError) :
    Option A → Tab A R U
  | some _ => s.putRequest i { r with fetches := r.fetches ++ [s.fetch r.call], stage := .resent }
  | none => (s.handleSessionExpired env).putRequest i { r with stage := .rejected error }

/-- `request` after its second fetch. -/
def retryReply (env : Storage) (s : Tab A R U) (i : ℕ) (r : ApiRequest A R U) :
    Except String (Reply (Data A R U)) → Tab A R U
  | .error message => s.putRequest i { r with stage := .rejected (networkError message) }
  | .ok ⟨_, none⟩ => s.putRequest i { r with stage := .resolved none }
  | .ok ⟨_, some (.success data)⟩ => s.putRequest i { r with stage := .resolved (some data) }
  | .ok ⟨status, some (.failure error)⟩ =>
    (if status = 401 then s.handleSessionExpired env else s).putRequest i
      { r with stage := .rejected error }

/-! ### AuthContext.tsx -/

/-- `apiGet('/auth/me')`, awaited by flow `j`. -/
def readUser (s : Tab A R U) (j : ℕ) (f : Flow) : Tab A R U :=
  (s.request { path := "/auth/me" }).putFlow j { f with stage := .readingUser s.requests.length }

/-- The clean-up of the previous run of the effect, and `bootstrap` up to its first pause. -/
def mount (env : Storage) (s : Tab A R U) : Tab A R U :=
  let s := { s with flows := s.flows.map Flow.cancel }
  match s.getStoredRefreshToken env with
  | none => s.setLoading false
  | some _ => (s.refreshAccessToken env).addFlow .bootstrap (.refreshing s.refreshPromise)

def login (email password : String) (tenantId : Option String) (s : Tab A R U) : Tab A R U :=
  (s.request ⟨"/auth/login", .credentials email password tenantId, true⟩).addFlow .login
    (.requesting s.requests.length)

def reloadSession (env : Storage) (s : Tab A R U) : Tab A R U :=
  (s.refreshAccessToken env).addFlow .reload (.refreshing s.refreshPromise)

def logout (env : Storage) (s : Tab A R U) : Tab A R U :=
  match s.getStoredRefreshToken env with
  | none => s.clearSession env
  | some token => (s.request ⟨"/auth/logout", .refreshToken token, false⟩).addFlow .logout
      (.requesting s.requests.length)

def finishFlow (s : Tab A R U) (j : ℕ) (f : Flow) : Tab A R U := s.putFlow j { f with stage := .finished }

/-- The awaited refresh of a start or a reload is over. -/
def flowRefreshed (env : Storage) (s : Tab A R U) (j : ℕ) (f : Flow) : Option A → Tab A R U
  | none =>
    if f.kind = .bootstrap then
      if f.cancelled then s.finishFlow j f
      else (((s.setAccessTokenState none).setCurrentUser none).setLoading false).finishFlow j f
    else (s.clearSession env).finishFlow j f
  | some token =>
    if f.kind = .bootstrap ∧ f.cancelled then s.finishFlow j f
    else ((s.setAccessToken (some token)).setAccessTokenState (some token)).readUser j f

/-- The awaited request of a login or a logout is settled. -/
def flowAnswered (env : Storage) (s : Tab A R U) (j : ℕ) (f : Flow) :
    Except ApiError (Option (Data A R U)) → Tab A R U
  | .ok (some (.tokens tokens)) =>
    if f.kind = .login then
      (((s.setAccessToken (some tokens.accessToken)).setStoredRefreshToken env
        (some tokens.refreshToken)).setAccessTokenState (some tokens.accessToken)).readUser j f
    else (s.clearSession env).finishFlow j f
  | _ => (if f.kind = .logout then s.clearSession env else s).finishFlow j f

/-- The awaited `/auth/me` is settled; only the start catches an error. -/
def userRead (env : Storage) (s : Tab A R U) (j : ℕ) (f : Flow) :
    Except ApiError (Option (Data A R U)) → Tab A R U
  | .ok data =>
    let user := data.bind Data.user?
    if f.kind = .bootstrap then
      if f.cancelled then s.finishFlow j f
      else ((s.setCurrentUser user).setLoading false).finishFlow j f
    else (s.setCurrentUser user).finishFlow j f
  | .error _ =>
    if f.kind = .bootstrap ∧ ¬ f.cancelled then
      ((s.clearSession env).setLoading false).finishFlow j f
    else s.finishFlow j f

/-! ### Steps -/

/-- The data is of the type that the endpoint declares. -/
def fits (path : String) : Except String (Reply (Data A R U)) → Bool
  | .ok ⟨_, some (.success (.tokens _))⟩ => path ≠ "/auth/me"
  | .ok ⟨_, some (.success (.user _))⟩ => path ≠ "/auth/login"
  | .ok ⟨_, some (.success .other)⟩ => path ≠ "/auth/login" ∧ path ≠ "/auth/me"
  | _ => true

end Tab

inductive Event (A R U : Type) where
  | call (call : Call R)
  | mount
  | login (email password : String) (tenantId : Option String)
  | reload
  | logout
  | reply (i : ℕ) (reply : Except String (Reply (Data A R U)))
  | refreshReply (k : ℕ) (reply : Except String (Reply (AuthTokens A R)))
  | refreshSettled (k : ℕ)
  | resumeRequest (i : ℕ)
  | resumeFlow (j : ℕ)

namespace Tab

/-- The settled promise of a request, if it is settled. -/
def answer (s : Tab A R U) (i : ℕ) : Option (Except ApiError (Option (Data A R U))) :=
  s.requests[i]?.bind fun r => r.stage.outcome

/-- What the shared refresh number `k` has come to, once those that await it are woken. -/
def refreshResult (s : Tab A R U) (k : ℕ) : Option (Option A) :=
  s.refreshes[k]?.bind fun r => r.result

/-- A flow goes on once the promise that it awaits is settled. -/
def resumeFlow (env : Storage) (s : Tab A R U) (j : ℕ) (f : Flow) : Option (Tab A R U) :=
  match f.stage with
  | .refreshing k => (s.refreshResult k).map (s.flowRefreshed env j f)
  | .requesting i => (s.answer i).map (s.flowAnswered env j f)
  | .readingUser i => (s.answer i).map (s.userRead env j f)
  | .finished => none

def resumeRequest (env : Storage) (s : Tab A R U) (i : ℕ) (r : ApiRequest A R U) :
    Option (Tab A R U) :=
  match r.stage with
  | .refreshing k error => (s.refreshResult k).map (s.refreshed env i r error)
  | _ => none

def reply (env : Storage) (s : Tab A R U) (i : ℕ) (r : ApiRequest A R U)
    (reply : Except String (Reply (Data A R U))) : Option (Tab A R U) :=
  match r.stage with
  | .sent => some (s.firstReply env i r reply)
  | .resent => some (s.retryReply env i r reply)
  | _ => none

def step (s : Tab A R U) : Storage × Event A R U → Option (Tab A R U)
  | (_, .call call) => some (s.request call)
  | (env, .mount) => some (s.mount env)
  | (_, .login email password tenantId) => some (s.login email password tenantId)
  | (env, .reload) => some (s.reloadSession env)
  | (env, .logout) => some (s.logout env)
  | (env, .reply i reply) => s.requests[i]?.bind fun r =>
    if fits r.call.path reply then s.reply env i r reply else none
  | (env, .refreshReply k reply) =>
    match s.refreshes[k]? with
    | some (.sent _) => some (s.refreshReply env k reply)
    | _ => none
  | (_, .refreshSettled k) =>
    match s.refreshes[k]? with
    | some (.settled result) => some (s.refreshSettled k result)
    | _ => none
  | (env, .resumeRequest i) => s.requests[i]?.bind fun r => s.resumeRequest env i r
  | (env, .resumeFlow j) => s.flows[j]?.bind fun f => s.resumeFlow env j f

end Tab
end Flexi.Client.Session
