import Flexi.Accounts.OneAtATime
import Flexi.Library.History

/-!
# Impersonation (impersonation.service.ts, jwt-auth.guard.ts)

A system user obtains an access token of a tenant's member. The token is backed by a row
of `ImpersonationSession`, which the guard asks for at every request and `end` closes.
Requests are handled one after the other here, and times are read off one clock.
-/

namespace Flexi.Accounts
open Flexi.Library

structure ImpersonationSession where
  id : ℕ
  tenantId : String
  targetAuthAccountId : ℕ
  targetTenantUserId : ℕ
  impersonatorId : ℕ
  expiresAt : ℕ
  endedAt : Option ℕ := none
  deriving DecidableEq, Repr

/-- The payload of a signed access token; `iat` and `exp` are in seconds. -/
structure AccessTokenPayload where
  user : AuthenticatedUser
  impersonatedBy : Option ℕ := none
  impersonationSessionId : Option ℕ := none
  iat : ℕ
  exp : ℕ
  deriving DecidableEq, Repr

/-- `issued` are the access tokens that have been signed, `allowing` the tenants whose
settings have `allowSystemImpersonation`. -/
structure Backend where
  db : Database
  sessions : List ImpersonationSession
  allowing : List String
  issued : List AccessTokenPayload
  clock : ℕ

def IMPERSONATION_TTL_SECONDS : ℕ := 15 * 60

def SYSTEM_IMPERSONATION_CREATE_PERMISSION : String := "system.impersonation.create"

def targetUnavailable : HttpError :=
  ⟨401, "UNAUTHORIZED", ["Target tenant user is unavailable."]⟩

def impersonationNotAllowed : HttpError :=
  ⟨403, "IMPERSONATION_NOT_ALLOWED", ["This tenant has not enabled support impersonation."]⟩

def sessionInactive : HttpError :=
  ⟨401, "UNAUTHORIZED", ["Impersonation session is no longer active."]⟩

/-! ### The guard -/

def AccessTokenPayload.hasImpersonationClaims (payload : AccessTokenPayload) : Bool :=
  payload.impersonatedBy.isSome || payload.impersonationSessionId.isSome

/-- A session that the guard finds for these claims. -/
def ImpersonationSession.backs (session : ImpersonationSession) (sessionId impersonatedBy : ℕ)
    (tenantId : String) (tenantUserId now : ℕ) : Bool :=
  session.id = sessionId && session.tenantId = tenantId && session.targetTenantUserId = tenantUserId &&
    session.impersonatorId = impersonatedBy && session.endedAt = none && now < session.expiresAt

namespace Backend

/-- Nobody but the server signs tokens. -/
def verifyAsync (s : Backend) (token : AccessTokenPayload) : Option AccessTokenPayload :=
  if token ∈ s.issued ∧ s.clock / 1000 < token.exp then some token else none

def assertValidImpersonation (s : Backend) (payload : AccessTokenPayload) : Except HttpError Unit :=
  if payload.hasImpersonationClaims = false then .ok ()
  else
    match payload.impersonatedBy, payload.impersonationSessionId, payload.user.tenantId,
      payload.user.tenantUserId with
    | some impersonatedBy, some sessionId, some tenantId, some tenantUserId =>
      if payload.user.actorType ≠ .TENANT ∨ tenantId = "" ∨ payload.iat = 0 ∨ payload.exp = 0 ∨
          15 * 60 < payload.exp - payload.iat then .error unauthorized
      else if s.sessions.any (·.backs sessionId impersonatedBy tenantId tenantUserId s.clock) then .ok ()
      else .error unauthorized
    | _, _, _, _ => .error unauthorized

/-- The token's tenant, if it has one, is active. -/
def assertActiveTenant (s : Backend) (payload : AccessTokenPayload) : Except HttpError Unit :=
  match payload.user.tenantId with
  | none | some "" => .ok ()
  | some tenantId => if s.db.isTenantActive tenantId then .ok () else .error unauthorized

/-- What the guard asks before it looks at the tenant. -/
def authenticate (s : Backend) (token : AccessTokenPayload) : Except HttpError AccessTokenPayload :=
  match s.verifyAsync token with
  | none => .error unauthorized
  | some payload => do
    s.assertValidImpersonation payload
    pure payload

def canActivate (s : Backend) (token : AccessTokenPayload) : Except HttpError AccessTokenPayload := do
  let payload ← s.authenticate token
  s.assertActiveTenant payload
  pure payload

/-! ### ImpersonationService -/

def assertSystemImpersonator (currentUser : AccessTokenPayload) : Except HttpError Unit :=
  if currentUser.impersonatedBy.isSome || currentUser.user.actorType ≠ .SYSTEM ||
      currentUser.user.systemUserId.isNone ||
      !currentUser.user.permissions.contains SYSTEM_IMPERSONATION_CREATE_PERMISSION then
    .error (forbidden "Insufficient permissions")
  else .ok ()

/-- The member an impersonation is of: active, with an active account. -/
def findTarget (s : Backend) (tenantId : String) (tenantUserId : ℕ) : Option TenantUserRow :=
  ((s.db.tenantUsers.find? fun user => user.id = tenantUserId && user.tenantId = tenantId && user.isActive).bind
    s.db.tenantUserRow).filter (·.authAccount.isActive)

/-- The token of a new session. -/
def sign (s : Backend) (target : TenantUserRow) (session : ImpersonationSession) : AccessTokenPayload where
  user :=
    { authAccountId := target.user.authAccountId
      actorType := .TENANT
      tenantId := some session.tenantId
      tenantUserId := some target.user.id
      systemUserId := none
      email := target.authAccount.email
      name := target.user.name
      roles := target.roles.map (·.name)
      permissions := flattenPermissions target.roles
      sessionId := none
      mustChangePassword := target.authAccount.mustChangePassword }
  impersonatedBy := some session.impersonatorId
  impersonationSessionId := some session.id
  iat := s.clock / 1000
  exp := s.clock / 1000 + IMPERSONATION_TTL_SECONDS

/-- A `fault` is one of the database. -/
def start (s : Backend) (currentUser : AccessTokenPayload) (tenantIdHeader : Option String)
    (tenantUserId : ℕ) (fault : Bool) : Except ServiceError AccessTokenPayload × Backend :=
  match assertSystemImpersonator currentUser with
  | .error e => (.error (.http e), s)
  | .ok () =>
    match tenantIdHeader.map Tenants.trim with
    | none | some "" => (.error (.http (.validation "x-tenant-id is required for impersonation.")), s)
    | some tenantId =>
      if fault then (.error (.database "P1001"), s)
      else
        match s.findTarget tenantId tenantUserId, s.db.isTenantActive tenantId, currentUser.user.systemUserId with
        | some target, true, some impersonatorId =>
          if !s.allowing.contains tenantId then (.error (.http impersonationNotAllowed), s)
          else
            let session : ImpersonationSession :=
              { id := s.db.nextId, tenantId := tenantId, targetAuthAccountId := target.user.authAccountId,
                targetTenantUserId := target.user.id, impersonatorId := impersonatorId,
                expiresAt := s.clock + IMPERSONATION_TTL_SECONDS * 1000 }
            let token := s.sign target session
            (.ok token, { s with
              db := { s.db with nextId := s.db.nextId + 1 }
              sessions := s.sessions ++ [session]
              issued := s.issued ++ [token] })
        | _, _, _ => (.error (.http targetUnavailable), s)

/-- `end` -/
def endSession (s : Backend) (currentUser : AccessTokenPayload) (fault : Bool) :
    Except ServiceError Unit × Backend :=
  match currentUser.impersonatedBy, currentUser.impersonationSessionId, currentUser.user.tenantId,
    currentUser.user.tenantUserId with
  | some impersonatedBy, some sessionId, some tenantId, some tenantUserId =>
    if tenantId = "" then (.error (.http (forbidden "No impersonation session is active.")), s)
    else if fault then (.error (.database "P1001"), s)
    else
      let live (session : ImpersonationSession) : Bool :=
        session.id = sessionId && session.tenantId = tenantId &&
          session.targetTenantUserId = tenantUserId && session.impersonatorId = impersonatedBy &&
          session.endedAt = none
      let s' := { s with
        sessions := updateMany live (fun session => { session with endedAt := some s.clock }) s.sessions }
      if countWhere live s.sessions ≠ 1 then (.error (.http sessionInactive), s') else (.ok (), s')
  | _, _, _, _ => (.error (.http (forbidden "No impersonation session is active.")), s)

/-! ### Requests -/

/-- The access token in an answer. -/
def signed (s : Backend) : Except ServiceError Response → List AccessTokenPayload
  | .ok (.tokens tokens) =>
    [{ user := tokens.accessToken.payload, iat := s.clock / 1000, exp := tokens.accessToken.exp }]
  | _ => []

/-- Another route, whose code looks at the token's tenant first. -/
def serve (cfg : Config) (s : Backend) (v : Serving) : Except ServiceError Response × Backend :=
  ((v.serve cfg s.db).1, { s with
    db := (v.serve cfg s.db).2
    issued := s.issued ++ s.signed (v.serve cfg s.db).1 })

end Backend

/-- `token` is what the `Authorization` header carries. Tenants are written elsewhere; the
sessions of a tenant go with it. -/
inductive BackendEvent where
  | start (token : AccessTokenPayload) (tenantIdHeader : Option String) (tenantUserId : ℕ) (fault : Bool)
  | endSession (token : AccessTokenPayload) (fault : Bool)
  | request (token : Option AccessTokenPayload) (v : Serving)
  | tick (d : ℕ)
  | writeTenants (tenants : List Tenant) (allowing : List String)

def BackendEvent.token? : BackendEvent → Option AccessTokenPayload
  | start token _ _ _ | endSession token _ => some token
  | request token _ => token
  | tick _ | writeTenants _ _ => none

namespace Backend

/-- A route behind the guard acts for the token's user. -/
def step (cfg : Config) (s : Backend) : BackendEvent → Option Backend
  | .start token tenantIdHeader tenantUserId fault =>
    match s.canActivate token with
    | .error _ => some s
    | .ok payload => some (s.start payload tenantIdHeader tenantUserId fault).2
  | .endSession token fault =>
    match s.canActivate token with
    | .error _ => some s
    | .ok payload => some (s.endSession payload fault).2
  | .request token v =>
    if v.request.user? ≠ token.map (·.user) then none
    else
      match token.map s.authenticate with
      | some (.error _) => some s
      | _ => some (s.serve cfg v).2
  | .tick d => some { s with clock := s.clock + d }
  | .writeTenants tenants allowing => some { s with
      db := { s.db with tenants := tenants }
      sessions := s.sessions.filter fun session => tenants.any (·.id = session.tenantId)
      allowing := allowing }

end Backend

structure Started where
  sessionId : ℕ
  impersonatorId : ℕ
  tenantId : String
  tenantUserId : ℕ
  startedAt : ℕ

/-- The impersonations that were started and those that were ended. -/
structure ImpersonationLog where
  started : List Started
  ended : List ℕ

namespace Backend

/-- What the answers to `start` and `end` say. -/
def note (s : Backend) (e : BackendEvent) (log : ImpersonationLog) : ImpersonationLog :=
  match e with
  | .start token tenantIdHeader tenantUserId fault =>
    match s.canActivate token with
    | .error _ => log
    | .ok payload =>
      match (s.start payload tenantIdHeader tenantUserId fault).1 with
      | .ok { impersonatedBy := some impersonatorId, impersonationSessionId := some sessionId,
              user := { tenantId := some tenantId, tenantUserId := some tenantUserId, .. }, .. } =>
        { log with started := log.started ++ [⟨sessionId, impersonatorId, tenantId, tenantUserId, s.clock⟩] }
      | _ => log
  | .endSession token fault =>
    match s.canActivate token with
    | .error _ => log
    | .ok payload =>
      match (s.endSession payload fault).1, payload.impersonationSessionId with
      | .ok (), some sessionId => { log with ended := log.ended ++ [sessionId] }
      | _, _ => log
  | _ => log

end Backend

/-! ### What the steps do -/

namespace Backend

variable {cfg : Config} {s s' : Backend} {payload token : AccessTokenPayload}

theorem canActivate_ok (h : s.canActivate token = .ok payload) :
    payload = token ∧ s.assertValidImpersonation payload = .ok () ∧
      s.assertActiveTenant payload = .ok () := by
  unfold canActivate at h
  cases hauth : s.authenticate token with
  | error e =>
    rw [hauth] at h
    cases h
  | ok payload' =>
    rw [hauth] at h
    change (do s.assertActiveTenant payload'; pure payload' : Except HttpError AccessTokenPayload) = _ at h
    cases htenant : s.assertActiveTenant payload' with
    | error e =>
      rw [htenant] at h
      cases h
    | ok u =>
      rw [htenant] at h
      cases h
      unfold authenticate at hauth
      cases hverify : s.verifyAsync token with
      | none =>
        rw [hverify] at hauth
        cases hauth
      | some payload' =>
        rw [hverify] at hauth
        dsimp only at hauth
        cases hvalid : s.assertValidImpersonation payload' with
        | error e =>
          rw [hvalid] at hauth
          cases hauth
        | ok u' =>
          rw [hvalid] at hauth
          cases hauth
          have heq : payload = token := by
            unfold verifyAsync at hverify
            split at hverify
            · exact (Option.some.inj hverify).symm
            · cases hverify
          exact ⟨heq, hvalid, htenant⟩

theorem assertValidImpersonation_ok (h : s.assertValidImpersonation payload = .ok ())
    (hclaims : payload.hasImpersonationClaims = true) :
    ∃ impersonatedBy sessionId tenantId tenantUserId, payload.impersonatedBy = some impersonatedBy ∧
      payload.impersonationSessionId = some sessionId ∧ payload.user.tenantId = some tenantId ∧
      payload.user.tenantUserId = some tenantUserId ∧ tenantId ≠ "" ∧
      ∃ session ∈ s.sessions, session.backs sessionId impersonatedBy tenantId tenantUserId s.clock = true := by
  unfold assertValidImpersonation at h
  rw [if_neg (by simp [hclaims])] at h
  split at h
  · rename_i impersonatedBy sessionId tenantId tenantUserId hby hid htenant huser
    split at h
    · cases h
    · rename_i hfields
      split at h
      · rename_i hany
        obtain ⟨session, hmem, hbacks⟩ := List.any_eq_true.mp hany
        refine ⟨impersonatedBy, sessionId, tenantId, tenantUserId, hby, hid, htenant, huser, ?_, session,
          hmem, hbacks⟩
        exact fun hempty => hfields (.inr (.inl hempty))
      · cases h
  · cases h

theorem assertActiveTenant_ok {tenantId : String} (h : s.assertActiveTenant payload = .ok ())
    (htenant : payload.user.tenantId = some tenantId) (hne : tenantId ≠ "") :
    s.db.isTenantActive tenantId = true := by
  unfold assertActiveTenant at h
  rw [htenant] at h
  split at h
  · rename_i hnone
    cases hnone
  · rename_i hempty
    exact absurd (Option.some.inj hempty) hne
  · rename_i heq
    cases heq
    split at h
    · assumption
    · cases h

/-- `start` refuses, or opens a session and signs its token. -/
theorem start_cases (s : Backend) (payload : AccessTokenPayload) (header : Option String) (userId : ℕ)
    (fault : Bool) : (∃ e, s.start payload header userId fault = (.error e, s)) ∨
    payload.impersonatedBy = none ∧ ∃ target session, session.id = s.db.nextId ∧
      session.targetTenantUserId = target.user.id ∧ session.endedAt = none ∧
      session.expiresAt = s.clock + IMPERSONATION_TTL_SECONDS * 1000 ∧
      s.start payload header userId fault = (.ok (s.sign target session), { s with
        db := { s.db with nextId := s.db.nextId + 1 }
        sessions := s.sessions ++ [session]
        issued := s.issued ++ [s.sign target session] }) := by
  unfold start
  cases hassert : assertSystemImpersonator payload with
  | error e => exact .inl ⟨_, rfl⟩
  | ok u =>
    have hnone : payload.impersonatedBy = none := by
      unfold assertSystemImpersonator at hassert
      split at hassert
      · cases hassert
      · rename_i hno
        cases hby : payload.impersonatedBy with
        | none => rfl
        | some by' => simp [hby] at hno
    dsimp only
    split
    · exact .inl ⟨_, rfl⟩
    · exact .inl ⟨_, rfl⟩
    · split
      · exact .inl ⟨_, rfl⟩
      · split
        · split
          · exact .inl ⟨_, rfl⟩
          · exact .inr ⟨hnone, _, _, rfl, rfl, rfl, rfl, rfl⟩
        · exact .inl ⟨_, rfl⟩

theorem endSession_cases (s : Backend) (payload : AccessTokenPayload) (fault : Bool) :
    ∃ r p, s.endSession payload fault = (r, { s with
        sessions := updateMany p (fun session => { session with endedAt := some s.clock }) s.sessions }) ∧
      (r = .ok () → ∃ session ∈ s.sessions, p session = true ∧
        payload.impersonationSessionId = some session.id) := by
  have refused (e : ServiceError) : ∃ r p, ((.error e, s) : Except ServiceError Unit × Backend) =
      (r, { s with sessions := updateMany p (fun session => { session with endedAt := some s.clock }) s.sessions }) ∧
      (r = .ok () → ∃ session ∈ s.sessions, p session = true ∧
        payload.impersonationSessionId = some session.id) := by
    refine ⟨.error e, fun _ => false, ?_, fun h => nomatch h⟩
    rw [updateMany_of_none fun _ _ => rfl]
  unfold endSession
  split
  · rename_i impersonatedBy sessionId tenantId tenantUserId hby hid htenant huser
    split
    · exact refused _
    · split
      · exact refused _
      · dsimp only
        split
        · exact ⟨_, _, rfl, fun h => nomatch h⟩
        · rename_i hcount
          refine ⟨_, _, rfl, fun _ => ?_⟩
          have hone := not_not.mp hcount
          obtain ⟨session, hmem, hlive⟩ := countWhere_ne_zero.mp (by rw [hone]; exact Nat.one_ne_zero)
          have hsession : session.id = sessionId := by
            simp only [Bool.and_eq_true, decide_eq_true_eq] at hlive
            exact hlive.1.1.1.1
          exact ⟨session, hmem, hlive, by rw [hid, hsession]⟩
  · exact refused _

end Backend

/-! ### Sessions and the log -/

/-- Every session was started as the log says, and is closed if the log says that it was
ended. -/
structure Logged (s : Backend × ImpersonationLog) : Prop where
  ids : Numbered ImpersonationSession.id s.1.sessions s.1.db.nextId
  ended_given : ∀ id ∈ s.2.ended, id < s.1.db.nextId
  started : ∀ session ∈ s.1.sessions, ∃ entry ∈ s.2.started, entry.sessionId = session.id ∧
    entry.impersonatorId = session.impersonatorId ∧ entry.tenantId = session.tenantId ∧
    entry.tenantUserId = session.targetTenantUserId ∧
    session.expiresAt = entry.startedAt + IMPERSONATION_TTL_SECONDS * 1000
  ended : ∀ session ∈ s.1.sessions, session.id ∈ s.2.ended → session.endedAt ≠ none

namespace Logged

variable {cfg : Config} {s s' : Backend} {log : ImpersonationLog}

theorem filter (h : Logged (s, log)) {p : ImpersonationSession → Bool}
    (hsessions : s'.sessions = s.sessions.filter p) (hn : s.db.nextId ≤ s'.db.nextId) : Logged (s', log) where
  ids := by
    show Numbered ImpersonationSession.id s'.sessions s'.db.nextId
    rw [hsessions]
    exact h.ids.filter p hn
  ended_given id hid := (h.ended_given id hid).trans_le hn
  started session hmem := by
    rw [hsessions] at hmem
    exact h.started session (List.mem_filter.mp hmem).1
  ended session hmem := by
    rw [hsessions] at hmem
    exact h.ended session (List.mem_filter.mp hmem).1

theorem of_sessions (h : Logged (s, log)) (hsessions : s'.sessions = s.sessions)
    (hn : s.db.nextId ≤ s'.db.nextId) : Logged (s', log) := by
  refine h.filter (p := fun _ => true) ?_ hn
  rw [hsessions, List.filter_true]

theorem close (h : Logged (s, log)) {p : ImpersonationSession → Bool} {now : ℕ} {ended : List ℕ}
    (hended : ended = log.ended ∨ ∃ session ∈ s.sessions, p session = true ∧ ended = log.ended ++ [session.id]) :
    Logged ({ s with
      sessions := updateMany p (fun session => { session with endedAt := some now }) s.sessions },
      { log with ended := ended }) where
  ids := h.ids.updateMany (fun _ => rfl) le_rfl
  ended_given id hid := by
    rcases hended with rfl | ⟨session, hmem, -, rfl⟩
    · exact h.ended_given id hid
    · rcases List.mem_append.mp hid with hold | hnew
      · exact h.ended_given id hold
      · cases List.mem_singleton.mp hnew
        exact h.ids.given session hmem
  started session hmem := by
    obtain ⟨old, hold, rfl⟩ := mem_updateMany.mp hmem
    obtain ⟨entry, hentry, hrest⟩ := h.started old hold
    refine ⟨entry, hentry, ?_⟩
    split <;> exact hrest
  ended session hmem hid := by
    obtain ⟨old, hold, rfl⟩ := mem_updateMany.mp hmem
    split
    · nofun
    · rename_i hp
      rw [if_neg hp] at hid
      rcases hended with rfl | ⟨closed, hclosed, hpc, rfl⟩
      · exact h.ended old hold hid
      · rcases List.mem_append.mp hid with hold' | hnew
        · exact h.ended old hold hold'
        · -- ids are unique, so the row is the one that was closed
          have heq : old = closed := h.ids.inj hold hclosed (List.mem_singleton.mp hnew)
          rw [heq] at hp
          exact absurd hpc hp

theorem step {e : BackendEvent} (h : Logged (s, log)) (hs : s.step cfg e = some s') :
    Logged (s', s.note e log) := by
  cases e with
  | start token header userId fault =>
    simp only [Backend.step, Backend.note] at hs ⊢
    cases hactivate : s.canActivate token with
    | error e =>
      rw [hactivate] at hs
      cases hs
      exact h
    | ok payload =>
      rw [hactivate] at hs
      cases hs
      dsimp only
      rcases s.start_cases payload header userId fault with ⟨e, he⟩ | ⟨-, target, session, hid, huser, hopen, hexpires, he⟩
      · rw [he]
        exact h
      · rw [he]
        have hn : s.db.nextId ≤ s.db.nextId + 1 := Nat.le_succ _
        have hlt : session.id < s.db.nextId + 1 := by omega
        exact {
          ids := h.ids.append hid.ge hlt
          ended_given := fun id hmem => (h.ended_given id hmem).trans_le hn
          started := fun other hmem => by
            rcases List.mem_append.mp hmem with hold | hnew
            · obtain ⟨entry, hentry, hrest⟩ := h.started other hold
              exact ⟨entry, List.mem_append_left _ hentry, hrest⟩
            · cases List.mem_singleton.mp hnew
              exact ⟨_, List.mem_append_right _ List.mem_cons_self, rfl, rfl, rfl, huser.symm, hexpires⟩
          ended := fun other hmem hended => by
            rcases List.mem_append.mp hmem with hold | hnew
            · exact h.ended other hold hended
            · cases List.mem_singleton.mp hnew
              have hlt := h.ended_given _ hended
              have hlt : session.id < s.db.nextId := hlt
              omega }
  | endSession token fault =>
    simp only [Backend.step, Backend.note] at hs ⊢
    cases hactivate : s.canActivate token with
    | error e =>
      rw [hactivate] at hs
      cases hs
      exact h
    | ok payload =>
      rw [hactivate] at hs
      cases hs
      dsimp only
      obtain ⟨r, p, he, hok⟩ := s.endSession_cases payload fault
      rw [he]
      cases r with
      | error e => exact h.close (.inl rfl)
      | ok u =>
        obtain ⟨session, hmem, hp, hid⟩ := hok rfl
        rw [hid]
        exact h.close (.inr ⟨session, hmem, hp, rfl⟩)
  | request token v =>
    simp only [Backend.step] at hs
    split at hs
    · cases hs
    · split at hs
      · cases hs
        exact h
      · cases hs
        refine h.of_sessions rfl ?_
        exact Serving.serve_calls (I := fun db : Database => s.db.nextId ≤ db.nextId)
          (fun op outside db _ hle => hle.trans Op.perform_accounts.nextId) le_rfl
  | tick d =>
    cases hs
    exact h.of_sessions rfl le_rfl
  | writeTenants tenants allowing =>
    cases hs
    exact h.filter rfl le_rfl

end Logged

/-! ### Refresh tokens -/

theorem TokensEvolve.refl (db : Database) : TokensEvolve db db := (TokensUpdated.of_eq rfl).evolve

theorem TokensEvolve.trans {db db' db'' : Database} (h : TokensEvolve db db')
    (h' : TokensEvolve db' db'') : TokensEvolve db db'' where
  rows new hnew := by
    obtain ⟨mid, hmid, he'⟩ := h'.rows new hnew
    obtain ⟨old, hold, he⟩ := h.rows mid hmid
    exact ⟨old, hold, he.trans he'⟩
  hashes := h'.hashes.trans h.hashes

theorem Request.not_createRefreshToken {r : Request} {user : AuthenticatedUser} {op : Op}
    (hr : r.user? = some user) (hmakes : r.makes op = true) :
    ∀ a hash exp, op ≠ .createRefreshToken a hash exp := by
  rintro a hash exp rfl
  cases r with
  | login | refresh => cases hr
  | _ => cases hmakes

theorem Backend.step_tokens {cfg : Config} {s s' : Backend} {e : BackendEvent} {token : AccessTokenPayload}
    (htoken : e.token? = some token) (hs : s.step cfg e = some s') : TokensEvolve s.db s'.db := by
  cases e with
  | start token' header userId fault =>
    simp only [step] at hs
    split at hs
    · cases hs
      exact .refl _
    · rename_i payload _
      cases hs
      rcases s.start_cases payload header userId fault with ⟨e, he⟩ | ⟨-, target, session, -, -, -, -, he⟩
      · rw [he]
        exact .refl _
      · have hrows : TokensUpdated s.db { s.db with nextId := s.db.nextId + 1 } := .of_eq rfl
        rw [he]
        exact hrows.evolve
  | endSession token' fault =>
    simp only [step] at hs
    split at hs
    · cases hs
      exact .refl _
    · rename_i payload _
      cases hs
      obtain ⟨r, p, he, -⟩ := s.endSession_cases payload fault
      rw [he]
      exact .refl _
  | request token' v =>
    cases htoken
    simp only [step] at hs
    split at hs
    · cases hs
    · rename_i huser
      have huser : v.request.user? = some token.user := not_not.mp huser
      split at hs
      · cases hs
        exact .refl _
      · cases hs
        exact Serving.serve_calls (I := TokensEvolve s.db) (fun op outside db hmakes h =>
          h.trans (Op.perform_tokens (Request.not_createRefreshToken huser hmakes))) (.refl _)
  | tick d => cases htoken
  | writeTenants tenants allowing => cases htoken

/-- A string that is no refresh token of the server refreshes nothing. -/
theorem Serving.refresh_other {cfg : Config} {v : Serving} {text : String} {db : Database}
    (hv : v.request = .refresh (.other text)) :
    v.serve cfg db = (.error (.http invalidRefreshToken), db) := by
  unfold serve
  rw [hv]
  rfl

/-! ### The window -/

theorem impersonation_window {cfg : Config} {s₀ s : Backend × ImpersonationLog}
    (h₀ : s₀.1.sessions = [] ∧ s₀.2 = ⟨[], []⟩)
    (hr : Reach (watch (Backend.step cfg) Backend.note) (fun _ _ => True) s₀ s)
    {token payload : AccessTokenPayload} (haccept : s.1.canActivate token = .ok payload)
    (hclaims : payload.hasImpersonationClaims = true) :
    (∃ entry ∈ s.2.started, payload.impersonationSessionId = some entry.sessionId ∧
      payload.impersonatedBy = some entry.impersonatorId ∧ payload.user.tenantId = some entry.tenantId ∧
      payload.user.tenantUserId = some entry.tenantUserId ∧ entry.sessionId ∉ s.2.ended ∧
      s.1.db.isTenantActive entry.tenantId = true ∧
      s.1.clock < entry.startedAt + IMPERSONATION_TTL_SECONDS * 1000) ∧
    (∀ (header : Option String) (userId : ℕ) (fault : Bool),
      ∃ e, s.1.start payload header userId fault = (.error e, s.1)) ∧
    (∀ (e : BackendEvent) (s' : Backend), e.token? = some token → s.1.step cfg e = some s' →
      TokensEvolve s.1.db s'.db) ∧
    ∀ (v : Serving) (text : String), v.request = .refresh (.other text) →
      ∃ e, v.serve cfg s.1.db = (.error e, s.1.db) := by
  have hlogged : Logged s := by
    refine hr.invariant (I := Logged) ?_ fun x x' e _ hx _ hs => ?_
    · obtain ⟨hsessions, hlog⟩ := h₀
      have hno : ∀ session : ImpersonationSession, session ∉ s₀.1.sessions := by simp [hsessions]
      have hnone : ∀ id : ℕ, id ∉ s₀.2.ended := by simp [hlog]
      exact {
        ids := ⟨fun session hmem => absurd hmem (hno session), by rw [hsessions]; exact List.nodup_nil⟩
        ended_given := fun id hid => absurd hid (hnone id)
        started := fun session hmem => absurd hmem (hno session)
        ended := fun session hmem => absurd hmem (hno session) }
    · obtain ⟨hstep, hnote⟩ := watch_eq_some.mp hs
      have hnext := hx.step hstep
      rw [← hnote] at hnext
      exact hnext
  obtain ⟨-, hvalid, htenant⟩ := Backend.canActivate_ok haccept
  obtain ⟨impersonatedBy, sessionId, tenantId, tenantUserId, hby, hid, ht, hu, hne, session, hmem, hbacks⟩ :=
    Backend.assertValidImpersonation_ok hvalid hclaims
  simp only [ImpersonationSession.backs, Bool.and_eq_true, decide_eq_true_eq] at hbacks
  obtain ⟨⟨⟨⟨⟨rfl, rfl⟩, rfl⟩, rfl⟩, hopen⟩, hlive⟩ := hbacks
  refine ⟨?_, fun header userId fault => ?_, fun e s' htoken hs => Backend.step_tokens htoken hs,
    fun v text hv => ⟨_, Serving.refresh_other hv⟩⟩
  · obtain ⟨entry, hentry, hsession, himpersonator, htenant', huser, hexpires⟩ := hlogged.started session hmem
    refine ⟨entry, hentry, by rw [hid, hsession], by rw [hby, himpersonator], by rw [ht, htenant'],
      by rw [hu, huser], fun hended => ?_, ?_, ?_⟩
    · rw [hsession] at hended
      exact hlogged.ended session hmem hended hopen
    · rw [htenant']
      exact Backend.assertActiveTenant_ok htenant ht hne
    · rw [← hexpires]
      exact hlive
  · rcases s.1.start_cases payload header userId fault with he | ⟨hnone, -⟩
    · exact he
    · rw [hby] at hnone
      cases hnone

/-- The access token of Eve of the support desk. -/
def eve : AccessTokenPayload where
  user :=
    { authAccountId := 1, actorType := .SYSTEM, tenantId := none, tenantUserId := none, systemUserId := some 3
      email := "eve@flexi.io", name := none, roles := [], sessionId := none, mustChangePassword := false
      permissions := [SYSTEM_IMPERSONATION_CREATE_PERMISSION] }
  iat := 1000
  exp := 1900

def supportDesk : Backend where
  db := acmeDb
  sessions := []
  allowing := ["acme"]
  issued := [eve]
  clock := 1000 * 1000

/-- The token with which Eve acts as Bob. -/
def eveAsBob : AccessTokenPayload where
  user := bob
  impersonatedBy := some 3
  impersonationSessionId := some 6
  iat := 1000
  exp := 1900

theorem impersonation_window_bob : ∃ s : Backend × ImpersonationLog,
    Reach (watch (Backend.step plainConfig) Backend.note) (fun _ _ => True) (supportDesk, ⟨[], []⟩) s ∧
    s.1.clock = 1001 * 1000 ∧ s.1.canActivate eveAsBob = .ok eveAsBob ∧
    ∃ entry ∈ s.2.started, entry.sessionId = 6 ∧ entry.sessionId ∉ s.2.ended := by
  have hrun : (runAll (watch (Backend.step plainConfig) Backend.note) (supportDesk, ⟨[], []⟩)
      [.start eve (some " acme ") 5 false, .tick 1000]).any
      (fun s => s.1.clock = 1001 * 1000 && (s.1.canActivate eveAsBob).isOk) = true := by
    decide +kernel
  obtain ⟨s, hs, hfinal⟩ := (Option.any_eq_true _ _).mp hrun
  have hreach : Reach (watch (Backend.step plainConfig) Backend.note) (fun _ _ => True)
      (supportDesk, ⟨[], []⟩) s := .of_runAll (.of_labels (fun _ _ _ => trivial) _) hs
  obtain ⟨hclock, haccept⟩ := Bool.and_eq_true_iff.mp hfinal
  cases hcan : s.1.canActivate eveAsBob with
  | error e =>
    rw [hcan] at haccept
    cases haccept
  | ok payload =>
    obtain rfl := (Backend.canActivate_ok hcan).1
    obtain ⟨⟨entry, hentry, hid, -, -, -, hopen, -⟩, -⟩ :=
      impersonation_window ⟨rfl, rfl⟩ hreach hcan rfl
    have hid : entry.sessionId = 6 := (Option.some.inj hid).symm
    exact ⟨s, hreach, of_decide_eq_true hclock, hcan, entry, hentry, hid, hopen⟩

end Flexi.Accounts
