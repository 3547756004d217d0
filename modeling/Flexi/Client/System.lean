import Flexi.Client.TokenMoves
import Flexi.Accounts.PresentedTokens
import Flexi.Client.RowFormErrors

/-!
# A tab and the server

The fetches of one tab and the requests of the server they become. Other requests run beside
them, a fetch or its answer may be lost on its way, and the local storage may throw.
-/

namespace Flexi.Client.Session
open Flexi.Library Flexi.Accounts

abbrev BrowserTab := Tab AccessJwt RefreshJwt AuthenticatedUser

inductive FetchId where
  | request (i : ℕ)
  | refresh (k : ℕ)
  deriving DecidableEq

/-- `arrived` are the fetches that the server has taken, with their numbers there; `issued` the
hashes of the refresh tokens that have been made for the tab. -/
structure System where
  tab : BrowserTab
  server : Server
  arrived : List (FetchId × ℕ) := []
  issued : List String

/-- What a login or a logout is for the server. -/
def ApiRequest.serverRequest (r : ApiRequest AccessJwt RefreshJwt AuthenticatedUser) :
    Option Request :=
  if r.call.path = "/auth/login" then
    match r.call.body with
    | .credentials email password tenantId => some (.login ⟨email, password⟩ tenantId)
    | _ => none
  else if r.call.path = "/auth/logout" then
    match r.call.body, r.fetches.head?.bind (·.authorization) with
    | .refreshToken token, some access => some (.logout token access.payload)
    | _, _ => none
  else none

/-- A fetch that got no answer, or was refused before it came to its handler. -/
inductive Refusal where
  | lost (message : String)
  | refused (status : ℕ) (error : ApiError)

def Refusal.reply {D : Type} : Refusal → Except String (Reply D)
  | lost message => .error message
  | refused status error => .ok ⟨status, some (.failure error)⟩

def errorReply {D : Type} : ServiceError → Except String (Reply D)
  | .http e => .ok ⟨e.status, some (.failure ⟨e.error, resolveErrorMessage e, none⟩)⟩
  | .database _ =>
    let e := HttpError.unexpected
    .ok ⟨e.status, some (.failure ⟨e.error, resolveErrorMessage e, none⟩)⟩

/-- A refresh is answered with tokens or refused. -/
def tokensReply : Except ServiceError Response →
    Option (Except String (Reply (AuthTokens AccessJwt RefreshJwt)))
  | .ok (.tokens tokens) => some (.ok ⟨200, some (.success ⟨tokens.accessToken, tokens.refreshToken⟩)⟩)
  | .ok _ => none
  | .error e => some (errorReply e)

def dataReply : Except ServiceError Response →
    Except String (Reply (Data AccessJwt RefreshJwt AuthenticatedUser))
  | .ok (.tokens tokens) =>
    .ok ⟨200, some (.success (.tokens ⟨tokens.accessToken, tokens.refreshToken⟩))⟩
  | .ok _ => .ok ⟨200, some (.success .other)⟩
  | .error e => errorReply e

/-- Every step of the tab finds a local storage of its own. A fetch that has not arrived may be
refused, and the answer of one that has may be lost. -/
inductive SystemEvent where
  | tab (env : Storage) (e : Event AccessJwt RefreshJwt AuthenticatedUser)
  | arrive (id : FetchId) (c : Context)
  | server (e : ServerEvent)
  | answer (env : Storage) (id : FetchId)
  | lose (env : Storage) (id : FetchId) (message : String)
  | refuse (env : Storage) (id : FetchId) (refusal : Refusal)

namespace System

/-- The request that an outstanding fetch makes of the server. -/
def fetched (s : System) : FetchId → Option Request
  | .refresh k =>
    match s.tab.refreshes[k]? with
    | some (.sent token) => some (.refresh token)
    | _ => none
  | .request i => s.tab.requests[i]?.bind fun r =>
    match r.stage with
    | .sent => r.serverRequest
    | _ => none

def hasArrived (s : System) (id : FetchId) : Bool := s.arrived.any (·.1 = id)

/-- Request `n` of the server is one of the tab's. -/
def owns (s : System) (n : ℕ) : Bool := s.arrived.any (·.2 = n)

/-- The hash of the row that a step makes for the tab. -/
def minted (cfg : Config) (s : System) (e : ServerEvent) : List String :=
  match s.server.executed cfg e with
  | some (n, ⟨.createRefreshToken _ hash _, .ok _⟩) => if s.owns n then [hash] else []
  | _ => []

/-- The answer of the server to a fetch that it has finished. -/
def finished (s : System) (id : FetchId) : Option (Except ServiceError Response) :=
  (s.arrived.lookup id).bind fun n =>
    match s.server.requests[n]? with
    | some ⟨_, .finished r⟩ => some r
    | _ => none

/-- The tab receives the reply to a fetch. -/
def receive (s : System) (env : Storage) (e : Event AccessJwt RefreshJwt AuthenticatedUser) :
    Option System :=
  (s.tab.step (env, e)).map fun tab => { s with tab := tab }

def step (cfg : Config) (s : System) : SystemEvent → Option System
  | .tab env e => if s.tab.allows e then s.receive env e else none
  | .arrive id c =>
    if s.hasArrived id then none
    else (s.fetched id).bind fun r => (s.server.step cfg (.arrive r c)).map fun server =>
      { s with server := server, arrived := s.arrived ++ [(id, s.server.requests.length)] }
  | .server e => (s.server.step cfg e).map fun server =>
      { s with server := server, issued := s.issued ++ s.minted cfg e }
  | .answer env id => (s.finished id).bind fun r =>
    match id with
    | .refresh k => (tokensReply r).bind fun reply => s.receive env (.refreshReply k reply)
    | .request i => s.receive env (.reply i (dataReply r))
  | .lose env id message => (s.finished id).bind fun _ =>
    match id with
    | .refresh k => s.receive env (.refreshReply k (.error message))
    | .request i => s.receive env (.reply i (.error message))
  | .refuse env id refusal =>
    if s.hasArrived id then none
    else match id with
      | .refresh k => s.receive env (.refreshReply k refusal.reply)
      | .request i =>
        if s.tab.requests[i]?.any fun r => r.call.path ∈ Tab.TOKEN_PATHS then
          s.receive env (.reply i refusal.reply)
        else none

/-- A page is loaded while the server is at work. -/
def start (cfg : Config) (stored : Option RefreshJwt) (server : Server) : System where
  tab := Tab.fresh stored
  server := server
  issued := stored.toList.map cfg.hashToken

/-- A token of this hash is being refreshed or logged out. -/
def Uses (cfg : Config) (s : System) (hash : String) : Prop :=
  ∃ token, cfg.hashToken token = hash ∧ (s.tab.Refreshing token ∨ s.tab.LoggingOut token)

/-- Nobody else revokes the tab's tokens, no token is made twice, a refresh that fails or whose
answer is lost has not spent its token, what a refresh brings and the end of a logout can be
written to the store, and no token is refreshed and logged out at the same time. -/
structure Undisturbed (cfg : Config) (s : System) (e : SystemEvent) : Prop where
  others : ∀ n outside s', e = .server (.execute n outside) → s.owns n = false →
    s.step cfg e = some s' → ∀ hash ∈ s.issued, s.server.db.Unspent hash → s'.server.db.Unspent hash
  fresh : ∀ e', e = .server e' → ∀ hash ∈ s.minted cfg e', hash ∉ s.issued
  failures : ∀ env k token error, e = .answer env (.refresh k) →
    s.tab.refreshes[k]? = some (.sent token) → s.finished (.refresh k) = some (.error error) →
      s.server.db.Unspent (cfg.hashToken token)
  losses : ∀ env k message token, e = .lose env (.refresh k) message →
    s.tab.refreshes[k]? = some (.sent token) → s.server.db.Unspent (cfg.hashToken token)
  rotations : ∀ env k tokens, e = .answer env (.refresh k) →
    s.finished (.refresh k) = some (.ok (.tokens tokens)) → env.writable = true
  logouts : ∀ env j i, e = .tab env (.resumeFlow j) → s.tab.Requesting j .logout i →
    env.writable = true
  apart : ∀ s', s.step cfg e = some s' → ∀ token token', s'.tab.Refreshing token →
    s'.tab.LoggingOut token' → cfg.hashToken token ≠ cfg.hashToken token'

/-! ### The invariant -/

/-- The hash of the token that a request presents. -/
def presented (cfg : Config) : Request → String
  | .refresh token | .logout token _ => cfg.hashToken token
  | _ => ""

/-- What a request does with the row of the token it presents. -/
def actsOf : Request → RefreshToken → Op → Prop
  | .refresh _ => refreshActs
  | .logout _ _ => logoutActs
  | _ => fun _ _ => False

/-- A row has been made whose token fetch `id` is about to bring. -/
def Holds (cfg : Config) (stage : ℕ → TokenStage) (s : System) : FetchId → String → Prop
  | .refresh k, hash => (∃ token, s.tab.refreshes[k]? = some (RefreshStage.sent token)) ∧
      ∃ n, (FetchId.refresh k, n) ∈ s.arrived ∧ stage n = .minted hash
  | .request i, hash => s.tab.AwaitsTokens i ∧
      ((∃ r, s.tab.requests[i]? = some r ∧ r.stage = .sent ∧
        ∃ n, (FetchId.request i, n) ∈ s.arrived ∧ stage n = .minted hash) ∨
      ∃ tokens, s.tab.answer i = some (.ok (some (.tokens tokens))) ∧
        cfg.hashToken tokens.refreshToken = hash)

/-- What a refresh has found is still good. -/
def Fresh (hash : String) (db : Database) : TokenStage → Prop
  | .before => db.Unspent hash
  | .found stored => db.Unspent hash ∧ stored.revokedAt = none
  | _ => True

/-- The tab keeps its promises, and every fetch that the server has taken is still out as long as
the server is at it. -/
structure Linked (cfg : Config) (stage : ℕ → TokenStage) (s : System) : Prop where
  wired : s.tab.Wired
  paired : s.tab.Paired
  served : ∀ (i : ℕ) (r : ApiRequest AccessJwt RefreshJwt AuthenticatedUser),
    s.tab.requests[i]? = some r → r.call.path ∈ Tab.TOKEN_PATHS → r.stage = .sent →
    ∃ j kind, s.tab.Requesting j kind i
  once : ∀ id n n', (id, n) ∈ s.arrived → (id, n') ∈ s.arrived → n = n'
  as : ∀ id id' n, (id, n) ∈ s.arrived → (id', n) ∈ s.arrived → id = id'
  taken : ∀ id n, (id, n) ∈ s.arrived → n < s.server.requests.length
  known : ∀ id n, (id, n) ∈ s.arrived → match id with
    | .refresh k => k < s.tab.refreshes.length
    | .request i => i < s.tab.requests.length
  paths : ∀ (i n : ℕ) (r : ApiRequest AccessJwt RefreshJwt AuthenticatedUser),
    (FetchId.request i, n) ∈ s.arrived → s.tab.requests[i]? = some r → r.call.path ∈ Tab.TOKEN_PATHS
  out : ∀ id n f, (id, n) ∈ s.arrived → s.server.requests[n]? = some f →
    (∀ r, f.thread ≠ .finished r) → s.fetched id = some f.request
  same : ∀ id n f r, (id, n) ∈ s.arrived → s.server.requests[n]? = some f →
    s.fetched id = some r → f.request = r
  threads : ∀ id n f, (id, n) ∈ s.arrived → s.server.requests[n]? = some f →
    f.thread.KeepsTo (presenting (presented cfg f.request) (actsOf f.request)) (Delivers cfg) (stage n)

/-- Where the tokens of the tab stand. -/
structure Tokens (cfg : Config) (stage : ℕ → TokenStage) (s : System) : Prop where
  keyed : s.server.db.Keyed
  ids : s.server.db.TokenIds
  found : ∀ id n f stored, (id, n) ∈ s.arrived → s.server.requests[n]? = some f →
    stage n = .found stored → FoundToken (presented cfg f.request) stored s.server.db
  stored : ∀ token, s.tab.stored = some token → cfg.hashToken token ∈ s.issued ∧
    (s.Uses cfg (cfg.hashToken token) ∨ s.server.db.Unspent (cfg.hashToken token))
  refreshing : ∀ (k : ℕ) (token : RefreshJwt), s.tab.refreshes[k]? = some (.sent token) →
    cfg.hashToken token ∈ s.issued ∧
    ((∀ n, (FetchId.refresh k, n) ∉ s.arrived) → s.server.db.Unspent (cfg.hashToken token)) ∧
    ∀ n, (FetchId.refresh k, n) ∈ s.arrived → Fresh (cfg.hashToken token) s.server.db (stage n)
  loggingOut : ∀ token, s.tab.LoggingOut token → cfg.hashToken token ∈ s.issued
  holds : ∀ id hash, s.Holds cfg stage id hash → hash ∈ s.issued ∧ s.server.db.Unspent hash ∧
    ¬ s.Uses cfg hash ∧ ∀ token, s.tab.stored = some token → cfg.hashToken token ≠ hash
  one : ∀ id id' hash, s.Holds cfg stage id hash → s.Holds cfg stage id' hash → id = id'
  apart : ∀ token token', s.tab.Refreshing token → s.tab.LoggingOut token' →
    cfg.hashToken token ≠ cfg.hashToken token'

section
variable {cfg : Config} {stage : ℕ → TokenStage} {s : System}

theorem uses_issued (h : s.Tokens cfg stage) {hash : String} (hu : s.Uses cfg hash) :
    hash ∈ s.issued := by
  obtain ⟨token, rfl, ⟨k, hk⟩ | hout⟩ := hu
  · exact (h.refreshing k token hk).1
  · exact h.loggingOut token hout

theorem fetched_refresh {k : ℕ} {r : Request} (h : s.fetched (.refresh k) = some r) :
    ∃ token, s.tab.refreshes[k]? = some (RefreshStage.sent token) ∧ r = .refresh token := by
  simp only [fetched] at h
  split at h
  · rename_i token hk
    exact ⟨token, hk, (Option.some.inj h).symm⟩
  · cases h

theorem fetched_of_sent {k : ℕ} {token : RefreshJwt}
    (h : s.tab.refreshes[k]? = some (RefreshStage.sent token)) :
    s.fetched (.refresh k) = some (.refresh token) := by
  simp only [fetched, h]

theorem serverRequest_path {r : ApiRequest AccessJwt RefreshJwt AuthenticatedUser} {q : Request}
    (h : r.serverRequest = some q) : r.call.path ∈ Tab.TOKEN_PATHS ∧
      ∀ token user, q = .logout token user → r.call.path = "/auth/logout" ∧
        r.call.body = .refreshToken token := by
  unfold ApiRequest.serverRequest at h
  split at h
  · rename_i hpath
    refine ⟨by rw [hpath]; decide, fun token user hq => ?_⟩
    split at h
    · cases h
      cases hq
    · cases h
  · split at h
    · rename_i hpath
      refine ⟨by rw [hpath]; decide, fun token user hq => ⟨hpath, ?_⟩⟩
      split at h
      · rename_i token' access hbody haccess
        cases h
        cases hq
        exact hbody
      · cases h
    · cases h

theorem fetched_request {i : ℕ} {q : Request} (h : s.fetched (.request i) = some q) :
    ∃ r, s.tab.requests[i]? = some r ∧ r.stage = .sent ∧ r.serverRequest = some q := by
  obtain ⟨r, hr, h⟩ := Option.bind_eq_some_iff.mp h
  split at h
  · exact ⟨r, hr, ‹_›, h⟩
  · cases h

theorem fetched_is_refresh {id : FetchId} {token : RefreshJwt} (h : s.fetched id = some (.refresh token)) :
    ∃ k : ℕ, id = .refresh k ∧ s.tab.refreshes[k]? = some (.sent token) := by
  cases id with
  | refresh k =>
    obtain ⟨token', hk, heq⟩ := fetched_refresh h
    cases heq
    exact ⟨k, rfl, hk⟩
  | request i =>
    obtain ⟨r, -, -, hserver⟩ := fetched_request h
    unfold ApiRequest.serverRequest at hserver
    split at hserver
    · split at hserver <;> cases hserver
    · split at hserver
      · split at hserver <;> cases hserver
      · cases hserver

theorem fetched_is_logout (hl : s.Linked cfg stage) {id : FetchId} {token : RefreshJwt}
    {user : AuthenticatedUser} (h : s.fetched id = some (.logout token user)) :
    s.tab.LoggingOut token := by
  cases id with
  | refresh k =>
    obtain ⟨token', -, heq⟩ := fetched_refresh h
    cases heq
  | request i =>
    obtain ⟨r, hr, hsent, hserver⟩ := fetched_request h
    obtain ⟨hpath, hlogout⟩ := serverRequest_path hserver
    obtain ⟨hout, hbody⟩ := hlogout token user rfl
    obtain ⟨j, kind, f, hf, hkind, hstage⟩ := hl.served i r hr hpath hsent
    have hsound := hl.wired.flows j f hf
    rw [Flow.Sound, hstage] at hsound
    rcases hsound with ⟨-, q, hq, hlogin⟩ | ⟨hkind', -⟩
    · cases hr.symm.trans hq
      rw [hout] at hlogin
      exact absurd hlogin (by decide)
    · exact ⟨j, i, r, ⟨f, hf, hkind', hstage⟩, hr, hbody⟩

theorem uses_presented (hl : s.Linked cfg stage) {id : FetchId} {q : Request} {token : RefreshJwt}
    (h : s.fetched id = some q)
    (hq : q = .refresh token ∨ ∃ user, q = .logout token user) : s.Uses cfg (cfg.hashToken token) := by
  rcases hq with rfl | ⟨user, rfl⟩
  · obtain ⟨k, -, hk⟩ := fetched_is_refresh h
    exact ⟨token, rfl, .inl ⟨k, hk⟩⟩
  · exact ⟨token, rfl, .inr (fetched_is_logout hl h)⟩

end
end System
end Flexi.Client.Session
