import Flexi.Accounts.MemberLogin
import Flexi.Accounts.TokenRotation
import Flexi.Library.History

/-!
# The sessions of an account and their clients

Each client keeps the newest refresh token it has received, and the payload of the access
token that came with it. A revocation by choice marks a row as a rotation does, and
`refresh` takes the mark for the sign of a theft.
-/

namespace Flexi.Accounts
open Flexi.Library

/-- What a client keeps. -/
structure SessionClient where
  token : RefreshJwt
  user : AuthenticatedUser

inductive ClientRequest where
  | refresh
  | logout
  | revokeSession (sessionId : ℕ)
  | revokeOthers
  | changePassword (dto : ChangePasswordDto)

def ClientRequest.request (client : SessionClient) : ClientRequest → Request
  | refresh => .refresh client.token
  | logout => .logout client.token client.user
  | revokeSession sessionId => .revokeSession sessionId client.user
  | revokeOthers => .revokeAllSessions true client.user
  | changePassword dto => .changePassword dto client.user

/-- What a client keeps after the answer. -/
def ClientRequest.receive (client : SessionClient) :
    ClientRequest → Except ServiceError Response → SessionClient
  | refresh, .ok (.tokens tokens) => ⟨tokens.refreshToken, tokens.accessToken.payload⟩
  | _, _ => client

structure Sessions where
  db : Database
  clients : List SessionClient

/-- Client `client` makes a request, which is served on its own. -/
structure ClientEvent where
  client : ℕ
  request : ClientRequest
  ctx : ℕ → Context
  outside : ℕ → Outside

namespace ClientEvent

def serving (e : ClientEvent) (client : SessionClient) : Serving :=
  ⟨e.request.request client, e.ctx, e.outside⟩

/-- The request asks to revoke session `k` by name, or all but another one. -/
def asksFor (s : Sessions) (e : ClientEvent) (k : ℕ) : Bool :=
  match e.request with
  | .refresh => false
  | .logout => k = e.client
  | .revokeSession sessionId => (s.clients[k]?).any (·.user.sessionId = some sessionId)
  | .revokeOthers | .changePassword _ => k ≠ e.client

/-- The request revokes session `k`: a request that is refused, or that fails, revokes none. -/
def ends (cfg : Config) (s : Sessions) (e : ClientEvent) (k : ℕ) : Bool :=
  (s.clients[e.client]?).any fun client => ((e.serving client).serve cfg s.db).1.isOk && e.asksFor s k

/-- The sessions that have been revoked by choice. -/
def note (cfg : Config) (s : Sessions) (e : ClientEvent) (ended : ℕ → Bool) (k : ℕ) : Bool :=
  ended k || e.ends cfg s k

end ClientEvent

def Sessions.step (cfg : Config) (s : Sessions) (e : ClientEvent) : Option Sessions :=
  (s.clients[e.client]?).map fun client =>
    let (answer, db) := (e.serving client).serve cfg s.db
    ⟨db, s.clients.set e.client (e.request.receive client answer)⟩

/-! ### What becomes of the rows -/

/-- The rows are still there, and only those that are `hit` have been revoked. -/
def Database.Retires (hit : RefreshToken → Prop) (db db' : Database) : Prop :=
  ∀ old ∈ db.refreshTokens, ∃ new ∈ db'.refreshTokens, old.Evolves new ∧
    (¬ hit old → new.revokedAt = old.revokedAt)

namespace Database.Retires

variable {hit : RefreshToken → Prop} {db db' db'' : Database}

theorem refl (db : Database) : db.Retires hit db :=
  fun old hold => ⟨old, hold, .refl old, fun _ => rfl⟩

theorem updateMany {p : RefreshToken → Bool} {now : ℕ} (h : db'.refreshTokens = Library.updateMany p
      (fun token => { token with revokedAt := some now }) db.refreshTokens)
    (hp : ∀ row ∈ db.refreshTokens, p row = true → hit row) : db.Retires hit db' := by
  intro old hold
  refine ⟨_, h ▸ mem_updateMany.mpr ⟨old, hold, rfl⟩, ?_, fun hmiss => ?_⟩
  · split
    · exact ⟨rfl, rfl, rfl, rfl, fun _ => Option.some_ne_none now⟩
    · exact .refl old
  · rw [if_neg fun hrow => hmiss (hp old hold hrow)]

theorem revokeTokens {p : RefreshToken → Bool} {now : ℕ} (hp : ∀ row, p row = true → hit row) :
    db.Retires hit (db.revokeTokens p now).2 := by
  refine updateMany rfl fun row _ hrow => ?_
  simp only [Bool.and_eq_true] at hrow
  exact hp row hrow.2

end Database.Retires

/-! ### The requests -/

section
variable {cfg : Config} {d : Database} {user : AuthenticatedUser}

theorem perform_retires {hit : RefreshToken → Prop} {op : Op} {outside : Outside}
    (h : d.Retires hit (op.effect cfg outside d).2) : d.Retires hit (op.perform cfg outside d).2 := by
  rcases Op.perform_cases cfg outside op d with ⟨hdb, -⟩ | heffect
  · rw [hdb]
    exact .refl d
  · rw [heffect]
    exact h

/-- The rows that a client's request revokes, if it comes to that. -/
def ClientRequest.Hits (cfg : Config) (client : SessionClient) : ClientRequest → RefreshToken → Prop
  | refresh, row | logout, row => row.tokenHash = cfg.hashToken client.token
  | revokeSession sessionId, row => row.id = sessionId
  | revokeOthers, row | changePassword _, row => client.user.sessionId ≠ some row.id

theorem revokeOthers_retires (d : Database) {a now : ℕ} {kept : Option ℕ} :
    d.Retires (fun row => kept ≠ some row.id) (d.revokeOthers a kept now).2 := by
  refine .revokeTokens fun row hrow hkept => ?_
  simp [hkept] at hrow

theorem logout_retires (hids : d.TokenIds) (refreshToken : RefreshJwt) :
    Outline (serving cfg fun _ => True) (· = d) (logout cfg refreshToken user)
      (fun _ => d.Retires fun row => row.tokenHash = cfg.hashToken refreshToken) fun _ db => db = d := by
  refine outline_lookup rfl (G := fun found => ∀ row, found = some row → row ∈ d.refreshTokens ∧
    row.tokenHash = cfg.hashToken refreshToken) rfl (fun outside found hfound row hrow => ?_) fun found hfound => ?_
  · have hfind := (Except.ok.inj hfound).trans hrow
    exact ⟨List.mem_of_find?_eq_some hfind, by simpa using List.find?_some hfind⟩
  · cases found with
    | none => exact outline_refused rfl
    | some stored =>
      obtain ⟨hstored, hhash⟩ := hfound stored rfl
      dsimp only
      split
      · exact outline_refused rfl
      · refine outline_then_reads rfl outline_now_read fun now => ?_
        refine outline_then_writes rfl (fun outside => perform_retires ?_) fun _ => .pure fun _ h => h
        rw [Op.effect]
        split
        · exact .refl d
        · refine .updateMany rfl fun row hrow hid => ?_
          rw [hids row hrow stored hstored (of_decide_eq_true hid)]
          exact hhash

theorem revokeSession_retires (sessionId : ℕ) :
    Outline (serving cfg fun _ => True) (· = d) (revokeSession sessionId user)
      (fun _ => d.Retires (·.id = sessionId)) fun _ db => db = d := by
  refine outline_then_reads rfl assertActorPermission_outline fun _ => ?_
  refine outline_lookup rfl (G := fun found => ∀ row, found = some row → row.id = sessionId) rfl
    (fun outside found hfound row hrow => ?_) fun found hfound => ?_
  · simpa using List.find?_some ((Except.ok.inj hfound).trans hrow)
  · cases found with
    | none => exact outline_refused rfl
    | some session =>
      refine outline_then_reads rfl ?_ fun allowed => ?_
      · split
        · exact .pure fun _ h => h
        · refine outline_reads (H := fun op => op.writes = []) ?_ fun _ h => h
          unfold canManageAccount
          split <;> split <;> first | exact makes_request rfl | exact .pure
      · split
        · refine outline_then_reads rfl outline_now_read fun now => ?_
          refine outline_then_writes rfl (fun outside => perform_retires ?_) fun _ => .pure fun _ h => h
          refine .revokeTokens fun row hrow => ?_
          rw [of_decide_eq_true hrow, hfound session rfl]
        · exact outline_refused rfl

theorem revokeAllSessions_retires :
    Outline (serving cfg fun _ => True) (· = d) (revokeAllSessions true user)
      (fun _ => d.Retires fun row => user.sessionId ≠ some row.id) fun _ db => db = d := by
  refine outline_then_reads rfl outline_now_read fun now => ?_
  exact outline_then_writes rfl (fun outside => perform_retires (revokeOthers_retires d)) fun _ =>
    .pure fun _ h => h

theorem changePassword_retires (dto : ChangePasswordDto) :
    Outline (serving cfg fun _ => True) (· = d) (changePassword dto user)
      (fun _ => d.Retires fun row => user.sessionId ≠ some row.id) fun _ db => db = d := by
  refine outline_then_reads rfl assertPasswordMeetsPolicy_outline fun _ => ?_
  refine outline_lookup rfl (G := fun _ => True) rfl (fun _ _ _ => trivial) fun account _ => ?_
  cases account with
  | none => exact outline_refused rfl
  | some account =>
    refine outline_lookup rfl (G := fun _ => True) rfl (fun _ _ _ => trivial) fun matched _ => ?_
    split
    · refine outline_then_reads rfl hash_outline fun hash => ?_
      refine outline_then_reads rfl outline_now_read fun now => ?_
      refine outline_then_writes rfl (fun outside => perform_retires ?_) fun _ => .pure fun _ h => h
      refine Database.ifAccount_keeps (P := d.Retires _) (.refl d) fun _ _ => ?_
      exact revokeOthers_retires (d.setPassword _ _ _)
    · exact outline_refused rfl

/-- Every request but a refresh revokes the rows that it is asked to and no other, if it is
answered; otherwise it leaves the database as it was. -/
theorem ClientEvent.serve_retires {e : ClientEvent} {client : SessionClient} (hids : d.TokenIds)
    (hrefresh : e.request ≠ .refresh) :
    (∃ r, ((e.serving client).serve cfg d).1 = .ok r ∧
        d.Retires (e.request.Hits cfg client) ((e.serving client).serve cfg d).2) ∨
      ∃ err, ((e.serving client).serve cfg d).1 = .error err ∧
        ((e.serving client).serve cfg d).2 = d := by
  have hreads : (e.serving client).Reads fun _ => True := fun _ => ⟨trivial, trivial⟩
  refine Serving.serve_cases (P := (· = d)) (E := fun _ db => db = d) hreads ?_ rfl
  show Outline _ _ ((e.request.request client).code cfg) _ _
  cases hrequest : e.request with
  | refresh => exact absurd hrequest hrefresh
  | logout =>
    exact outline_then_reads rfl jwtAuthGuard_outline fun _ => logout_retires hids client.token
  | revokeSession sessionId =>
    exact outline_then_reads rfl jwtAuthGuard_outline fun _ => revokeSession_retires sessionId
  | revokeOthers =>
    exact outline_then_reads rfl jwtAuthGuard_outline fun _ => revokeAllSessions_retires
  | changePassword dto =>
    exact outline_then_reads rfl jwtAuthGuard_outline fun _ => changePassword_retires dto

end

/-! ### A refresh -/

/-- The session's row is that of the newest token that the client has received, and does not
expire before it. -/
structure SessionClient.Holds (cfg : Config) (a : ℕ) (client : SessionClient) (db : Database)
    (row : RefreshToken) : Prop where
  stored : row ∈ db.refreshTokens
  hash : row.tokenHash = cfg.hashToken client.token
  session : client.user.sessionId = some row.id
  account : row.authAccountId = a
  subject : client.token.sub? = some a
  lifetime : ∀ now, client.token.verify now ≠ none → now ≤ row.expiresAt

/-- The user behind the account may log in. -/
structure Database.Admitted (db : Database) (a : ℕ) : Prop where
  account : ∃ account, db.account? a = some account ∧ account.isActive = true
  user : ((∃ user ∈ db.tenantUsers, user.authAccountId = a) ∧
      (∀ user ∈ db.tenantUsers, user.authAccountId = a →
        user.isActive = true ∧ db.isTenantActive user.tenantId = true) ∧
      ∀ user ∈ db.systemUsers, user.authAccountId ≠ a) ∨
    (∃ user ∈ db.systemUsers, user.authAccountId = a) ∧
      (∀ user ∈ db.systemUsers, user.authAccountId = a → user.isActive = true) ∧
      ∀ user ∈ db.tenantUsers, user.authAccountId ≠ a

section
variable {cfg : Config} {v : Serving} {d : Database} {a : ℕ} {client : SessionClient}

theorem findAny_of_exists {α : Type} {p : α → Bool} {rows : List α} (pick : ℕ)
    (h : ∃ row ∈ rows, p row = true) : ∃ row ∈ rows, p row = true ∧ findAny pick p rows = some row := by
  cases hfind : findAny pick p rows with
  | none =>
    obtain ⟨row, hrow, hp⟩ := h
    rw [findAny_eq_none.mp hfind row hrow] at hp
    cases hp
  | some row => exact ⟨row, (findAny_some hfind).1, (findAny_some hfind).2, rfl⟩

theorem resolveActor_admitted (hquiet : ¬ v.Faults) (hadmitted : d.Admitted a) :
    Outline (v.rules cfg) (· = d) (resolveActorByAuthAccountId a)
      (fun actor db => db = d ∧ ∃ found, actor = some found ∧ found.isActive = true ∧
        found.authAccountId = a) fun _ _ => False := by
  obtain ⟨account, haccount, henabled⟩ := hadmitted.account
  rcases hadmitted.user with ⟨hone, hall, hnone⟩ | ⟨hone, hall, hnone⟩
  · have hone : ∃ user ∈ d.tenantUsers, decide (user.authAccountId = a) = true := by simpa using hone
    refine quiet_call (t := d) (G := fun found => ∃ user ∈ d.tenantUsers, user.authAccountId = a ∧
      found = some ⟨user, account, d.rolesOf user.roles⟩) hquiet (fun outside => ?_) fun found hfound => ?_
    · obtain ⟨user, huser, ha, hfind⟩ := findAny_of_exists outside.pick hone
      have ha : user.authAccountId = a := of_decide_eq_true ha
      refine ⟨_, rfl, user, huser, ha, ?_⟩
      rw [hfind, Option.bind_some, Database.tenantUserRow, ha, haccount]
      rfl
    · obtain ⟨user, huser, ha, rfl⟩ := hfound
      refine quiet_call (t := d) (G := fun found => found = none) hquiet (fun outside => ?_) fun found hfound => ?_
      · refine ⟨_, rfl, ?_⟩
        rw [findAny_eq_none.mpr fun user huser => by simpa using hnone user huser]
        rfl
      · subst hfound
        obtain ⟨hactive, htenant⟩ := hall user huser ha
        refine quiet_call (t := d) (G := (· = true)) hquiet (fun _ => ⟨_, rfl, htenant⟩) fun active hyes => ?_
        subst hyes
        exact .pure fun db hdb => ⟨hdb, _, rfl, by simp [mapTenantUserToActor, henabled, hactive], ha⟩
  · have hone : ∃ user ∈ d.systemUsers, decide (user.authAccountId = a) = true := by simpa using hone
    refine quiet_call (t := d) (G := fun found => found = none) hquiet (fun outside => ?_) fun found hfound => ?_
    · refine ⟨_, rfl, ?_⟩
      rw [findAny_eq_none.mpr fun user huser => by simpa using hnone user huser]
      rfl
    · subst hfound
      refine quiet_call (t := d) (G := fun found => ∃ user ∈ d.systemUsers, user.authAccountId = a ∧
        found = some ⟨user, account, d.rolesOf user.roles⟩) hquiet (fun outside => ?_) fun found hfound => ?_
      · obtain ⟨user, huser, ha, hfind⟩ := findAny_of_exists outside.pick hone
        have ha : user.authAccountId = a := of_decide_eq_true ha
        refine ⟨_, rfl, user, huser, ha, ?_⟩
        rw [hfind, Option.bind_some, Database.systemUserRow, ha, haccount]
        rfl
      · obtain ⟨user, huser, ha, rfl⟩ := hfound
        exact .pure fun db hdb => ⟨hdb, _, rfl, by simp [mapSystemUserToActor, henabled, hall user huser ha], ha⟩

theorem Database.Admitted.revokeTokens (h : d.Admitted a) (p : RefreshToken → Bool) (now : ℕ) :
    (d.revokeTokens p now).2.Admitted a := ⟨h.account, h.user⟩

theorem Serving.DrawsFresh.revokeTokens (h : v.DrawsFresh cfg d) (p : RefreshToken → Bool) (now : ℕ) :
    v.DrawsFresh cfg (d.revokeTokens p now).2 := by
  intro i b exp token htoken
  obtain ⟨old, hold, rfl⟩ := mem_updateMany.mp htoken
  split <;> exact h i b exp old hold

/-- What a client holds after a refresh: the tokens with the row that was made for them. -/
structure Rotated (cfg : Config) (a : ℕ) (client : SessionClient) (d db : Database)
    (answer : Except ServiceError Response) (new : RefreshToken) : Prop where
  holds : (ClientRequest.refresh.receive client answer).Holds cfg a db new
  live : new.revokedAt = none
  fresh : new.id = d.nextId
  rest : d.Retires (·.tokenHash = cfg.hashToken client.token) db

theorem issueForAccount_rotated (hquiet : ¬ v.Faults) (hfresh : v.DrawsFresh cfg d)
    (hadmitted : d.Admitted a) :
    Outline (v.rules cfg) (· = d) (issueForAccount cfg a) (fun r db => ∃ (actor : ResolvedActor)
      (tokens : AuthTokens), actor.authAccountId = a ∧ r = .tokens tokens ∧
        tokens.IssuedTo cfg actor d db) fun _ _ => False := by
  refine (resolveActor_admitted hquiet hadmitted).bind fun actor db h => ?_
  obtain ⟨rfl, found, rfl, hactive, ha⟩ := h
  obtain ⟨account, haccount, -⟩ := hadmitted.account
  dsimp only
  rw [if_pos hactive]
  refine ((issueTokens_alone hquiet hfresh (ha ▸ haccount)).conseq (fun _ h => h) ?_ fun _ _ h => h) db rfl
  rintro r db' ⟨tokens, hr, hissued⟩
  exact ⟨found, tokens, ha, hr, hissued⟩

theorem refreshStored_rotated {stored : RefreshToken} {sub : ℕ} (hquiet : ¬ v.Faults)
    (hfresh : v.DrawsFresh cfg d) (hids : d.TokenIds) (hadmitted : d.Admitted a)
    (hholds : client.Holds cfg a d stored) (hlive : stored.revokedAt = none) :
    Outline (v.rules cfg) (· = d) (refreshStored cfg stored sub)
      (fun r db => ∃ new, Rotated cfg a client d db (.ok r) new) fun _ db => db = d := by
  refine alone_now fun i => ?_
  rw [if_neg (not_not_intro hlive)]
  split
  · exact .throw fun _ h => h
  · have hcount : countWhere (fun token : RefreshToken => token.revokedAt = none && token.id = stored.id)
        d.refreshTokens ≠ 0 := countWhere_ne_zero.mpr ⟨stored, hholds.stored, by simp [hlive]⟩
    refine quiet_call (G := (· ≠ 0)) hquiet (fun _ => ⟨_, rfl, hcount⟩) fun count hcount => ?_
    rw [if_neg hcount]
    have hadmitted := hadmitted.revokeTokens (·.id = stored.id) (v.ctx i).now
    have hfresh := hfresh.revokeTokens (·.id = stored.id) (v.ctx i).now
    have hretired : d.Retires (·.tokenHash = cfg.hashToken client.token)
        (d.revokeTokens (·.id = stored.id) (v.ctx i).now).2 := by
      refine .updateMany rfl fun row hrow hp => ?_
      simp only [Bool.and_eq_true, decide_eq_true_eq] at hp
      rw [hids row hrow stored hholds.stored hp.2]
      exact hholds.hash
    refine (issueForAccount_rotated hquiet hfresh (hholds.account ▸ hadmitted)).conseq (fun _ h => h) ?_
      fun _ _ h => h.elim
    rintro r db ⟨actor, tokens, ha, rfl, hissued⟩
    obtain ⟨exp, hrows, hlifetime⟩ := hissued.refresh.rows
    refine ⟨{ id := d.nextId, authAccountId := actor.authAccountId,
              tokenHash := cfg.hashToken tokens.refreshToken, expiresAt := exp },
      ⟨?_, rfl, ?_, ha.trans hholds.account, ?_, hlifetime⟩, rfl, rfl, fun old hold => ?_⟩
    · rw [hrows]
      exact List.mem_append_right _ List.mem_cons_self
    · show tokens.accessToken.payload.sessionId = _
      rw [hissued.payload]
      rfl
    · exact hissued.refresh.subject.trans (congrArg some (ha.trans hholds.account))
    · obtain ⟨new, hnew, hevolves⟩ := hretired old hold
      exact ⟨new, hrows ▸ List.mem_append_left _ hnew, hevolves⟩

/-- The refresh of a session that has not been revoked goes through or leaves all as it is. -/
theorem refresh_rotated {row : RefreshToken} (hquiet : ¬ v.Faults) (hfresh : v.DrawsFresh cfg d)
    (hkeyed : d.Keyed) (hids : d.TokenIds) (hadmitted : d.Admitted a)
    (hholds : client.Holds cfg a d row)
    (hlive : row.revokedAt = none ∨ ∀ i, client.token.verify (v.ctx i).now = none) :
    Outline (v.rules cfg) (· = d) (refresh cfg client.token)
      (fun r db => ∃ new, Rotated cfg a client d db (.ok r) new) fun _ db => db = d := by
  refine alone_now fun i => ?_
  cases hverify : client.token.verify (v.ctx i).now with
  | none => exact .throw fun _ h => h
  | some sub =>
    have hlive : row.revokedAt = none := by
      rcases hlive with hlive | hno
      · exact hlive
      · cases (hno i).symm.trans hverify
    refine quiet_call (t := d) (G := (· = some row)) hquiet (fun _ => ⟨_, rfl, ?_⟩) fun found hfound => ?_
    · cases hfind : d.refreshTokens.find? (·.tokenHash = cfg.hashToken client.token) with
      | none => simpa [hholds.hash] using List.find?_eq_none.mp hfind row hholds.stored
      | some other =>
        have hother : other.tokenHash = cfg.hashToken client.token := by simpa using List.find?_some hfind
        rw [List.inj_on_of_nodup_map hkeyed.hashes (List.mem_of_find?_eq_some hfind) hholds.stored
          (hother.trans hholds.hash.symm)]
    · subst hfound
      exact refreshStored_rotated hquiet hfresh hids hadmitted hholds hlive

end

/-! ### Runs -/

/-- Each client holds the row of its session, a row of its own; the rows of the sessions that
have not been revoked by choice are live. -/
structure Sessions.Kept (cfg : Config) (a : ℕ) (ended : ℕ → Bool) (s : Sessions) : Prop where
  keyed : s.db.Keyed
  ids : s.db.TokenIds
  held : ∀ (k : ℕ) (client : SessionClient), s.clients[k]? = some client → ∃ row, client.Holds cfg a s.db row ∧
    (ended k = false → row.revokedAt = none)
  apart : ∀ (j k : ℕ) (client other : SessionClient), s.clients[j]? = some client → s.clients[k]? = some other →
    client.user.sessionId = other.user.sessionId → j = k

/-- A client refreshes only while its session has not been revoked, or with a token that has
expired; and a refresh that gets that far finds the user admitted, meets no fault and draws
a new token. -/
def Sessions.refreshesLive (cfg : Config) (a : ℕ) (s : Sessions) (e : ClientEvent) : Prop :=
  e.request = .refresh → ∀ client, s.clients[e.client]? = some client →
    ¬ (e.serving client).Faults ∧ (e.serving client).DrawsFresh cfg s.db ∧ s.db.Admitted a ∧
      ((∀ row ∈ s.db.refreshTokens, row.tokenHash = cfg.hashToken client.token → row.revokedAt = none) ∨
        ∀ i, client.token.verify (e.ctx i).now = none)

section
variable {cfg : Config} {a : ℕ} {s s' : Sessions} {e : ClientEvent} {ended : ℕ → Bool}

theorem SessionClient.Holds.retires {client : SessionClient} {hit : RefreshToken → Prop} {db db' : Database}
    {row : RefreshToken} (h : client.Holds cfg a db row) (hretires : db.Retires hit db') :
    ∃ new, client.Holds cfg a db' new ∧ (¬ hit row → new.revokedAt = row.revokedAt) := by
  obtain ⟨new, hnew, hevolves, hmiss⟩ := hretires row h.stored
  exact ⟨new, ⟨hnew, hevolves.tokenHash.trans h.hash, h.session.trans (congrArg some hevolves.id.symm),
    hevolves.authAccountId.trans h.account, h.subject,
    fun now hnow => hevolves.expiresAt ▸ h.lifetime now hnow⟩, hmiss⟩

/-- The row that a request hits is that of a session it asks for, or it is the refreshed one. -/
theorem Sessions.Kept.misses (h : s.Kept cfg a ended) {client other : SessionClient} {k : ℕ}
    {row : RefreshToken} (hclient : s.clients[e.client]? = some client) (hk : s.clients[k]? = some other)
    (hasks : e.asksFor s k = false) (hne : e.request = .refresh → k ≠ e.client)
    (hrow : other.Holds cfg a s.db row) : ¬ e.request.Hits cfg client row := by
  -- the token of another client is that of another row
  have hown (hother : k ≠ e.client) : row.tokenHash ≠ cfg.hashToken client.token := by
    intro hhash
    obtain ⟨own, hown, -⟩ := h.held e.client client hclient
    have hsame : row = own :=
      List.inj_on_of_nodup_map h.keyed.hashes hrow.stored hown.stored (hhash.trans hown.hash.symm)
    refine hother (h.apart k e.client other client hk hclient ?_)
    rw [hrow.session, hown.session, hsame]
  cases hrequest : e.request with
  | refresh => exact hown (hne hrequest)
  | logout =>
    simp only [ClientEvent.asksFor, hrequest, decide_eq_false_iff_not] at hasks
    exact hown hasks
  | revokeSession sessionId =>
    intro hhit
    have hid : row.id = sessionId := hhit
    simp [ClientEvent.asksFor, hrequest, hk, hrow.session, hid] at hasks
  | revokeOthers | changePassword dto =>
    simp only [ClientEvent.asksFor, hrequest, ne_eq, decide_not, Bool.not_eq_eq_eq_not, Bool.not_false,
      decide_eq_true_eq] at hasks
    subst hasks
    cases hclient.symm.trans hk
    exact fun hhit => hhit hrow.session

theorem Sessions.step_cases (hs : s.step cfg e = some s') : ∃ client, s.clients[e.client]? = some client ∧
    s' = ⟨((e.serving client).serve cfg s.db).2, s.clients.set e.client
      (e.request.receive client ((e.serving client).serve cfg s.db).1)⟩ := by
  obtain ⟨client, hclient, h⟩ := Option.map_eq_some_iff.mp hs
  exact ⟨client, hclient, h.symm⟩

theorem ClientEvent.asksFor_eq_false {client : SessionClient} {r : Response} {k : ℕ}
    (hclient : s.clients[e.client]? = some client)
    (hanswer : ((e.serving client).serve cfg s.db).1 = .ok r) (hends : e.ends cfg s k = false) :
    e.asksFor s k = false := by
  rw [ends, hclient, Option.any_some, hanswer] at hends
  exact hends

theorem Sessions.Kept.of_retires (h : s.Kept cfg a ended) {client : SessionClient} {db' : Database}
    {r : Response} (hclient : s.clients[e.client]? = some client) (hrefresh : e.request ≠ .refresh)
    (hanswer : ((e.serving client).serve cfg s.db).1 = .ok r) (hkeyed : db'.Keyed) (hids : db'.TokenIds)
    (hretires : s.db.Retires (e.request.Hits cfg client) db') :
    Sessions.Kept cfg a (e.note cfg s ended) ⟨db', s.clients⟩ := by
  refine ⟨hkeyed, hids, fun k other hk => ?_, h.apart⟩
  obtain ⟨row, hrow, hlive⟩ := h.held k other hk
  obtain ⟨new, hnew, hmiss⟩ := hrow.retires hretires
  refine ⟨new, hnew, fun hend => ?_⟩
  obtain ⟨hended, hends⟩ := Bool.or_eq_false_iff.mp hend
  have hasks : e.asksFor s k = false := ClientEvent.asksFor_eq_false hclient hanswer hends
  rw [hmiss (h.misses hclient hk hasks (fun hyes => absurd hyes hrefresh) hrow)]
  exact hlive hended

theorem Sessions.Kept.noted (h : s.Kept cfg a ended) :
    Sessions.Kept cfg a (e.note cfg s ended) ⟨s.db, s.clients⟩ := by
  refine ⟨h.keyed, h.ids, fun k other hk => ?_, h.apart⟩
  obtain ⟨row, hrow, hlive⟩ := h.held k other hk
  exact ⟨row, hrow, fun hend => hlive (Bool.or_eq_false_iff.mp hend).1⟩

theorem Sessions.Kept.of_rotated (h : s.Kept cfg a ended) {client : SessionClient} {db' : Database}
    {answer : Except ServiceError Response} {new : RefreshToken}
    (hclient : s.clients[e.client]? = some client) (hrefresh : e.request = .refresh)
    (hkeyed : db'.Keyed) (hids : db'.TokenIds) (hrotated : Rotated cfg a client s.db db' answer new) :
    Sessions.Kept cfg a (e.note cfg s ended)
      ⟨db', s.clients.set e.client (e.request.receive client answer)⟩ := by
  rw [hrefresh]
  have hcases (k : ℕ) (other : SessionClient)
      (hk : (s.clients.set e.client (ClientRequest.refresh.receive client answer))[k]? = some other) :
      k = e.client ∧ other = ClientRequest.refresh.receive client answer ∨
        k ≠ e.client ∧ s.clients[k]? = some other := by
    by_cases hown : k = e.client
    · subst hown
      obtain ⟨hlt, -⟩ := List.getElem?_eq_some_iff.mp hclient
      rw [List.getElem?_set_self hlt] at hk
      exact .inl ⟨rfl, (Option.some.inj hk).symm⟩
    · rw [List.getElem?_set_ne (Ne.symm hown)] at hk
      exact .inr ⟨hown, hk⟩
  -- no session has had the new row's id before
  have hfresh (k : ℕ) (other : SessionClient) (hk : s.clients[k]? = some other) :
      other.user.sessionId ≠ (ClientRequest.refresh.receive client answer).user.sessionId := by
    obtain ⟨row, hrow, -⟩ := h.held k other hk
    have hlt := h.keyed.tokenIds row hrow.stored
    rw [hrow.session, hrotated.holds.session, hrotated.fresh]
    intro hsame
    have hid := Option.some.inj hsame
    omega
  refine ⟨hkeyed, hids, fun k other hk => ?_, fun j k other other' hj hk hsame => ?_⟩
  · rcases hcases k other hk with ⟨-, rfl⟩ | ⟨hother, hk⟩
    · exact ⟨new, hrotated.holds, fun _ => hrotated.live⟩
    · obtain ⟨row, hrow, hlive⟩ := h.held k other hk
      obtain ⟨new', hnew', hmiss⟩ := hrow.retires hrotated.rest
      refine ⟨new', hnew', fun hend => ?_⟩
      have hasks : e.asksFor s k = false := by rw [ClientEvent.asksFor, hrefresh]
      have hmisses := h.misses hclient hk hasks (fun _ => hother) hrow
      rw [hrefresh] at hmisses
      rw [hmiss hmisses]
      exact hlive (Bool.or_eq_false_iff.mp hend).1
  · rcases hcases j other hj with ⟨rfl, rfl⟩ | ⟨-, hj⟩
    · rcases hcases k other' hk with ⟨rfl, -⟩ | ⟨-, hk⟩
      · rfl
      · exact absurd hsame.symm (hfresh k other' hk)
    · rcases hcases k other' hk with ⟨rfl, rfl⟩ | ⟨-, hk⟩
      · exact absurd hsame (hfresh j other hj)
      · exact h.apart j k other other' hj hk hsame

theorem Sessions.Kept.step (h : s.Kept cfg a ended) (hok : s.refreshesLive cfg a e)
    (hs : s.step cfg e = some s') : s'.Kept cfg a (e.note cfg s ended) := by
  obtain ⟨client, hclient, rfl⟩ := Sessions.step_cases hs
  have hrows : ((e.serving client).serve cfg s.db).2.Keyed ∧
      ((e.serving client).serve cfg s.db).2.TokenIds :=
    Serving.serve_calls (I := fun db => db.Keyed ∧ db.TokenIds)
      (fun op outside db _ h => ⟨h.1.perform, h.2.perform h.1⟩) ⟨h.keyed, h.ids⟩
  have hset : s.clients.set e.client client = s.clients := by
    obtain ⟨hlt, hget⟩ := List.getElem?_eq_some_iff.mp hclient
    rw [← hget, List.set_getElem_self]
  by_cases hrefresh : e.request = .refresh
  · obtain ⟨hquiet, hfresh, hadmitted, hlive⟩ := hok hrefresh client hclient
    obtain ⟨row, hrow, -⟩ := h.held e.client client hclient
    have hcode : (e.serving client).request.code cfg = refresh cfg client.token := by
      show (e.request.request client).code cfg = _
      rw [hrefresh]
      rfl
    have hlive : row.revokedAt = none ∨ ∀ i, client.token.verify (e.ctx i).now = none :=
      hlive.imp_left fun hall => hall row hrow.stored hrow.hash
    have houtline := refresh_rotated hquiet hfresh h.keyed h.ids hadmitted hrow hlive
    rw [← hcode] at houtline
    rcases Serving.served (P := (· = s.db)) houtline rfl with ⟨r, hr, new, hrotated⟩ | ⟨err, he, hdb⟩
    · rw [hr]
      exact h.of_rotated hclient hrefresh hrows.1 hrows.2 hrotated
    · have hsame : e.request.receive client (.error err) = client := by rw [hrefresh]; rfl
      rw [he, hdb, hsame, hset]
      exact h.noted
  · have hsame (answer : Except ServiceError Response) : e.request.receive client answer = client := by
      cases hrequest : e.request with
      | refresh => exact absurd hrequest hrefresh
      | _ => rfl
    rw [hsame, hset]
    rcases ClientEvent.serve_retires h.ids hrefresh with ⟨r, hr, hretires⟩ | ⟨err, -, hdb⟩
    · exact h.of_retires hclient hrefresh hr hrows.1 hrows.2 hretires
    · rw [hdb]
      exact h.noted

end

/-- As long as no client refreshes a session that has been revoked, the sessions that no
revocation has ended stay live: the newest token of the client is stored and not revoked,
and its row lasts as long as the token. -/
theorem other_sessions_live {cfg : Config} {a : ℕ} {s₀ s : Sessions} {ended : ℕ → Bool}
    (h₀ : s₀.Kept cfg a fun _ => false)
    (hr : Reach (watch (Sessions.step cfg) (fun s e => e.note cfg s)) (fun s e => s.1.refreshesLive cfg a e)
      (s₀, fun _ => false) (s, ended))
    {k : ℕ} {client : SessionClient} (hk : s.clients[k]? = some client) (hend : ended k = false) :
    ∃ row ∈ s.db.refreshTokens, row.tokenHash = cfg.hashToken client.token ∧ row.authAccountId = a ∧
      row.revokedAt = none ∧ ∀ now, client.token.verify now ≠ none → row.isLive now = true := by
  have hkept : s.Kept cfg a ended := by
    refine hr.invariant (I := fun x => x.1.Kept cfg a x.2) h₀ fun x x' e _ hkept hok hs => ?_
    obtain ⟨hstep, hnote⟩ := watch_eq_some.mp hs
    rw [hnote]
    exact hkept.step hok hstep
  obtain ⟨row, hrow, hlive⟩ := hkept.held k client hk
  refine ⟨row, hrow.stored, hrow.hash, hrow.account, hlive hend, fun now hnow => ?_⟩
  simp [RefreshToken.isLive, hlive hend, hrow.lifetime now hnow]

/-! ### Ann's two sessions -/

def annSession (id : ℕ) (hash : String) : RefreshToken :=
  { id := id, authAccountId := 2, tokenHash := hash, expiresAt := 604800000 }

def annClient (id : ℕ) (hash : String) : SessionClient :=
  ⟨.signed 2 hash 604800, acmeUser 4 2 "ann@acme.io" acmeDb.roles (some id)⟩

def twoSessions : Sessions where
  db := { acmeDb with refreshTokens := [annSession 6 "phone", annSession 7 "laptop"], nextId := 8 }
  clients := [annClient 6 "phone", annClient 7 "laptop"]

theorem annClient_holds {db : Database} {id : ℕ} {hash : String}
    (h : annSession id hash ∈ db.refreshTokens) :
    (annClient id hash).Holds plainConfig 2 db (annSession id hash) := by
  refine ⟨h, rfl, rfl, rfl, rfl, fun now hnow => ?_⟩
  have hle : now ≤ 0 + 604800 * 1000 := RefreshJwt.verify_signed_le (a := 2) hnow
  exact hle

theorem twoSessions_kept : twoSessions.Kept plainConfig 2 fun _ => false := by
  have hclients (k : ℕ) (client : SessionClient) (hk : twoSessions.clients[k]? = some client) :
      k = 0 ∧ client = annClient 6 "phone" ∨ k = 1 ∧ client = annClient 7 "laptop" := by
    rcases k with _ | _ | k
    · exact .inl ⟨rfl, (Option.some.inj hk).symm⟩
    · exact .inr ⟨rfl, (Option.some.inj hk).symm⟩
    · cases hk
  refine ⟨⟨by decide, by decide, by decide, by decide, by decide⟩, ?_, ?_, ?_⟩
  · unfold Database.TokenIds
    decide
  · intro k client hk
    rcases hclients k client hk with ⟨-, rfl⟩ | ⟨-, rfl⟩
    · exact ⟨annSession 6 "phone", annClient_holds (by decide), fun _ => rfl⟩
    · exact ⟨annSession 7 "laptop", annClient_holds (by decide), fun _ => rfl⟩
  · intro j k client other hj hk hsame
    rcases hclients j client hj with ⟨rfl, rfl⟩ | ⟨rfl, rfl⟩
    · rcases hclients k other hk with ⟨rfl, -⟩ | ⟨-, rfl⟩
      · rfl
      · cases hsame
    · rcases hclients k other hk with ⟨-, rfl⟩ | ⟨rfl, -⟩
      · cases hsame
      · rfl

/-- Whoever holds the laptop does not know the password, and its request is refused. -/
def laptopGuesses : ClientEvent :=
  ⟨1, .changePassword ⟨"Bob-Secret-12", "New-Secret-12"⟩, fun _ => acmeContext "", fun _ => quiet⟩

def phoneRevokesLaptop : ClientEvent := ⟨0, .revokeSession 7, fun _ => acmeContext "", fun _ => quiet⟩

def laptopRefreshes : ClientEvent := ⟨1, .refresh, fun _ => acmeContext "tablet", fun _ => quiet⟩

theorem other_sessions_live_acme : ∃ s ended client,
    Reach (watch (Sessions.step plainConfig) (fun s e => e.note plainConfig s))
      (fun s e => s.1.refreshesLive plainConfig 2 e) (twoSessions, fun _ => false) (s, ended) ∧
    s.clients[0]? = some client ∧ ended 0 = false ∧ ended 1 = true ∧
    ∃ row ∈ s.db.refreshTokens, row.tokenHash = plainConfig.hashToken client.token ∧
      row.authAccountId = 2 ∧ row.revokedAt = none ∧
      ∀ now, client.token.verify now ≠ none → row.isLive now = true := by
  have hrun : (runAll (watch (Sessions.step plainConfig) (fun s e => e.note plainConfig s))
      (twoSessions, fun _ => false) [laptopGuesses, phoneRevokesLaptop]).any (fun x =>
        (x.1.clients[0]?).isSome && (!x.2 0 && x.2 1)) = true := by
    decide +kernel
  obtain ⟨⟨s, ended⟩, hs, h⟩ := (Option.any_eq_true _ _).mp hrun
  obtain ⟨hclient, h⟩ := Bool.and_eq_true_iff.mp h
  obtain ⟨client, hclient⟩ := Option.isSome_iff_exists.mp hclient
  obtain ⟨hphone, hlaptop⟩ := Bool.and_eq_true_iff.mp h
  have hphone : ended 0 = false := by simpa using hphone
  have hok : ∀ e ∈ [laptopGuesses, phoneRevokesLaptop], ∀ s : Sessions × (ℕ → Bool),
      s.1.refreshesLive plainConfig 2 e := by
    intro e he s hrefresh
    rcases List.mem_pair.mp he with rfl | rfl <;> cases hrefresh
  have hreach := Reach.of_runAll (.of_labels hok _) hs
  exact ⟨s, ended, client, hreach, hclient, hphone, hlaptop,
    other_sessions_live twoSessions_kept hreach hclient hphone⟩

/-- The phone revokes the laptop's session, and when the laptop tries to refresh, the phone
has no live token either. -/
theorem revoked_client_ends_family : ∃ s ended client, twoSessions.Kept plainConfig 2 (fun _ => false) ∧
    Reach (watch (Sessions.step plainConfig) (fun s e => e.note plainConfig s)) (fun _ _ => True)
      (twoSessions, fun _ => false) (s, ended) ∧ s.clients[0]? = some client ∧ ended 0 = false ∧
    ¬ ∃ row ∈ s.db.refreshTokens, row.tokenHash = plainConfig.hashToken client.token ∧
      row.revokedAt = none := by
  have hrun : (runAll (watch (Sessions.step plainConfig) (fun s e => e.note plainConfig s))
      (twoSessions, fun _ => false) [phoneRevokesLaptop, laptopRefreshes]).any (fun x =>
        (x.1.clients[0]?).any fun client => !x.2 0 && x.1.db.refreshTokens.all fun row =>
          row.tokenHash ≠ plainConfig.hashToken client.token || row.revokedAt ≠ none) = true := by
    decide +kernel
  obtain ⟨⟨s, ended⟩, hs, h⟩ := (Option.any_eq_true _ _).mp hrun
  obtain ⟨client, hclient, h⟩ := (Option.any_eq_true _ _).mp h
  obtain ⟨hend, hrows⟩ := Bool.and_eq_true_iff.mp h
  refine ⟨s, ended, client, twoSessions_kept, .of_runAll (.of_labels (fun _ _ _ => trivial) _) hs,
    hclient, by simpa using hend, ?_⟩
  rintro ⟨row, hrow, hhash, hlive⟩
  have hgone := List.all_eq_true.mp hrows row hrow
  simp [hhash, hlive] at hgone

end Flexi.Accounts
