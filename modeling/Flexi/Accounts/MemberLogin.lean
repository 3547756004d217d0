import Flexi.Accounts.AddressResolution
import Flexi.Accounts.DeletedMembers
import Flexi.Accounts.TokenRotation

/-!
# The login of a member

`login`, `requestReset` and `resetPassword` take any row of the tenant with the address;
that the member is deleted is nothing they ask.
-/

namespace Flexi.Accounts
open Flexi.Library

/-- A member that is not deleted and active, with its account. -/
structure Database.ActiveMember (db : Database) (tenantId : String) (user : TenantUser)
    (account : AuthAccount) : Prop where
  member : user ∈ db.tenantUsers
  tenant : user.tenantId = tenantId
  live : user.status ≠ .DELETED
  active : user.isActive = true
  known : db.account? user.authAccountId = some account
  enabled : account.isActive = true

/-- The refresh tokens that the server signs in the meantime are not stored yet. -/
def Serving.DrawsFresh (cfg : Config) (v : Serving) (db : Database) : Prop :=
  ∀ i a exp, ∀ token ∈ db.refreshTokens,
    token.tokenHash ≠ cfg.hashToken (.signed a (v.ctx i).newJti exp)

/-- Whichever rows the database returns, a login with the member's address and its password
is answered with tokens of the member, and a reset is of its account. -/
structure Database.ResolvesMember (cfg : Config) (db : Database) (tenantId : String) (user : TenantUser)
    (email password : String) : Prop where
  login : ∀ v : Serving, v.request = .login ⟨email, password⟩ (some tenantId) → ¬ v.Faults →
    v.DrawsFresh cfg db → ∃ tokens, (v.serve cfg db).1 = .ok (.tokens tokens) ∧
      tokens.accessToken.payload.tenantUserId = some user.id ∧
      tokens.accessToken.payload.authAccountId = user.authAccountId
  reset : ∀ v : Serving, ¬ v.Faults →
    resetAccount cfg v db email (some tenantId) = some user.authAccountId

/-! ### A login on its own -/

section
variable {cfg : Config} {v : Serving} {db : Database} {email tenantId : String}

theorem resolveTenantActor_alone {row : TenantUserRow} (hquiet : ¬ v.Faults)
    (hactive : db.isTenantActive tenantId = true)
    (hrow : ∀ pick, (findAny pick (fun user => user.tenantId = tenantId &&
      db.hasEmail user.authAccountId email) db.tenantUsers).bind db.tenantUserRow = some row) :
    Outline (v.rules cfg) (· = db) (resolveTenantActor email tenantId)
      (fun actor d => d = db ∧ actor = some (mapTenantUserToActor row)) fun _ _ => False := by
  have hfind (outside : Outside) : Op.effect cfg outside (.findTenantUserByEmail tenantId email) db =
      (.ok (some row), db) := by rw [Op.effect, hrow]
  refine alone_request hfind (fun hfault => hquiet hfault) ?_
  refine alone_request (a := true) (fun _ => by rw [Op.effect, hactive]) (fun hfault => hquiet hfault) ?_
  exact .pure fun d hd => ⟨hd, rfl⟩

/-- A refresh token of account `a` with the row that has been made for it, which does not
expire before it. -/
structure RefreshJwt.StoredFor (cfg : Config) (token : RefreshJwt) (a : ℕ) (db db' : Database) :
    Prop where
  subject : token.sub? = some a
  rows : ∃ exp, db'.refreshTokens = db.refreshTokens ++
      [{ id := db.nextId, authAccountId := a, tokenHash := cfg.hashToken token, expiresAt := exp }] ∧
    ∀ now, token.verify now ≠ none → now ≤ exp

/-- The tokens that are issued to an actor, and the row behind them. -/
structure AuthTokens.IssuedTo (cfg : Config) (actor : ResolvedActor) (db db' : Database)
    (tokens : AuthTokens) : Prop where
  payload : tokens.accessToken.payload = accessTokenPayload actor db.nextId
  refresh : tokens.refreshToken.StoredFor cfg actor.authAccountId db db'

/-- The token's `exp` is rounded down to the second, the row's is not. -/
theorem RefreshJwt.verify_signed_le {a now lifetime t : ℕ} {jti : String}
    (h : (signed a jti (now / 1000 + lifetime)).verify t ≠ none) : t ≤ now + lifetime * 1000 := by
  simp only [verify, ne_eq, ite_eq_right_iff, reduceCtorEq, imp_false, not_not] at h
  omega

theorem issueTokens_alone {actor : ResolvedActor} {account : AuthAccount} (hquiet : ¬ v.Faults)
    (hfresh : v.DrawsFresh cfg db) (haccount : db.account? actor.authAccountId = some account) :
    Outline (v.rules cfg) (· = db) (issueTokens cfg actor)
      (fun r db' => ∃ tokens, r = .tokens tokens ∧ tokens.IssuedTo cfg actor db db') fun _ _ => False := by
  refine Outline.bind (Q := fun issued db' => issued.2 = db.nextId ∧
    issued.1.StoredFor cfg actor.authAccountId db db') ?_ fun issued => ?_
  · refine alone_read fun i => ?_
    have hnew : db.refreshTokens.any (·.tokenHash = cfg.hashToken (.signed actor.authAccountId
        (v.ctx i).newJti ((v.ctx i).now / 1000 + cfg.refreshExpiresIn))) = false := by
      simpa using hfresh i actor.authAccountId _
    refine quiet_call (G := (· = db.nextId)) hquiet
      (fun _ => ⟨_, by rw [Op.effect, Database.createRefreshToken, haccount, hnew]; rfl, rfl⟩)
      fun id hid => ?_
    refine .pure fun db' hdb' => ⟨hid, rfl, ?_⟩
    subst hdb'
    exact ⟨_, rfl, fun _ => RefreshJwt.verify_signed_le⟩
  · obtain ⟨refreshToken, sessionId⟩ := issued
    refine Outline.bind (Q := fun _ db' => sessionId = db.nextId ∧
      refreshToken.StoredFor cfg actor.authAccountId db db') ?_ fun now => ?_
    · exact Outline.bind (.read fun _ _ _ h => h) fun _ => .pure fun _ h => h
    · refine .pure fun db' h => ?_
      obtain ⟨rfl, hstored⟩ := h
      exact ⟨_, rfl, rfl, hstored⟩

/-- The login of a member that every order of the rows finds. -/
theorem login_alone {user : TenantUser} {account : AuthAccount} {password : String} (hquiet : ¬ v.Faults)
    (hfresh : v.DrawsFresh cfg db) (hactive : db.isTenantActive tenantId = true)
    (hmember : db.ActiveMember tenantId user account)
    (hpassword : cfg.compare password account.passwordHash = true)
    (hrow : ∀ pick, findAny pick (fun user => user.tenantId = tenantId &&
      db.hasEmail user.authAccountId email) db.tenantUsers = some user) :
    Outline (v.rules cfg) (· = db) (login cfg ⟨email, password⟩ (some tenantId))
      (fun r _ => ∃ tokens, r = .tokens tokens ∧
        tokens.accessToken.payload.tenantUserId = some user.id ∧
        tokens.accessToken.payload.authAccountId = user.authAccountId) fun _ _ => False := by
  have hfound (pick : ℕ) : (findAny pick (fun user => user.tenantId = tenantId &&
      db.hasEmail user.authAccountId email) db.tenantUsers).bind db.tenantUserRow =
        some ⟨user, account, db.rolesOf user.roles⟩ := by
    rw [hrow, Option.bind_some, Database.tenantUserRow, hmember.known]
    rfl
  rw [login_eq]
  refine alone_bind (resolveTenantActor_alone hquiet hactive hfound) fun actor hactor => ?_
  subst hactor
  have hmay : (mapTenantUserToActor ⟨user, account, db.rolesOf user.roles⟩).isActive = true := by
    simp [mapTenantUserToActor, hmember.active, hmember.enabled]
  rw [authenticate, if_pos hmay]
  refine quiet_call (t := db) (G := (· = true)) hquiet (fun _ => ⟨_, rfl, hpassword⟩)
    fun matched hyes => ?_
  · subst hyes
    refine (issueTokens_alone hquiet hfresh hmember.known).conseq (fun _ h => h) ?_ fun _ _ h => h
    rintro r d ⟨tokens, hr, hissued⟩
    exact ⟨tokens, hr, by rw [hissued.payload]; rfl, by rw [hissued.payload]; rfl⟩

end

/-! ### The accounts of the members -/

def Database.OwnAccounts (db : Database) : Prop :=
  Numbered TenantUser.authAccountId db.tenantUsers db.nextId

theorem Database.OwnAccounts.kept : KeptByRows (fun _ => True) Database.OwnAccounts where
  of_eq h hmembers _ hn := h.of_ids (by rw [hmembers]) hn
  updateMember h hf := h.updateMany (fun user => (hf user).2) le_rfl
  setPassword h := h
  createMember account user _ h := h.append le_rfl (Nat.lt_add_of_pos_right (by omega))
  removeMember user h := h.filter _ le_rfl

theorem Server.ownAccounts {cfg : Config} {s₀ s : Server} (h₀ : s₀.db.OwnAccounts)
    (hr : Reach (Server.step cfg) (fun _ _ => True) s₀ s) : s.db.OwnAccounts := by
  refine hr.invariant (I := fun s => s.db.OwnAccounts) h₀ fun s s' e _ h _ hs => ?_
  exact step_keeps hs h fun i outside r op k _ => Database.OwnAccounts.kept.perform op.registers_any h

/-- A member of an active tenant is whom login and password reset resolve its address to, in
any order of the rows, if and only if no other row of the tenant has the address. -/
theorem active_member_resolved_iff {cfg : Config}
    (hidem : ∀ email, cfg.normalizeEmail (cfg.normalizeEmail email) = cfg.normalizeEmail email)
    {s₀ s : Server} (h₀ : s₀.Idle) (hstored : s₀.db.Stored cfg) (howners : s₀.db.OwnAccounts)
    (hr : Reach (Server.step cfg) (fun _ _ => True) s₀ s) {tenantId : String} {user : TenantUser}
    {account : AuthAccount} {password : String} (hactive : s.db.isTenantActive tenantId = true)
    (hmember : s.db.ActiveMember tenantId user account)
    (hpassword : cfg.compare password account.passwordHash = true) :
    s.db.ResolvesMember cfg tenantId user account.email password ↔
      ∀ other ∈ s.db.tenantUsers, other.tenantId = tenantId →
        s.db.hasEmail other.authAccountId account.email = true → other = user := by
  have hstored := Server.stored hidem h₀ hstored hr
  have howners := Server.ownAccounts howners hr
  have hnormal : cfg.normalizeEmail account.email = account.email :=
    hstored account (List.mem_of_find?_eq_some hmember.known)
  have hreset {v : Serving} (hv : ¬ v.Faults) : resetAccount cfg v s.db account.email (some tenantId) =
      chosen (v.outside 0).pick (s.db.actors account.email (some tenantId)) := by
    rw [resetAccount_eq hv, hnormal]
    exact if_pos hactive
  have hhas : s.db.hasEmail user.authAccountId account.email = true := by
    simp [Database.hasEmail, hmember.known]
  have hactors (actor : ℕ × Bool) : actor ∈ s.db.actors account.email (some tenantId) ↔
      ∃ other ∈ s.db.tenantUsers, other.tenantId = tenantId ∧
        s.db.hasEmail other.authAccountId account.email = true ∧ actor = (other.authAccountId,
          (s.db.account? other.authAccountId).any (·.isActive) && other.isActive) := by
    simp only [Database.actors, List.mem_map, List.mem_filter, Bool.and_eq_true, decide_eq_true_eq]
    constructor
    · rintro ⟨other, ⟨hother, htenant, hemail⟩, rfl⟩
      exact ⟨other, hother, htenant, hemail, rfl⟩
    · rintro ⟨other, hother, htenant, hemail, rfl⟩
      exact ⟨other, ⟨hother, htenant, hemail⟩, rfl⟩
  constructor
  · intro hresolves other hother htenant hemail
    obtain ⟨pick, hpick⟩ := chosen_of_mem ((hactors _).mpr ⟨other, hother, htenant, hemail, rfl⟩)
    have haccount := hresolves.reset (picking pick) (picking_quiet pick)
    rw [hreset (picking_quiet pick)] at haccount
    have hwho : whoActs (other.authAccountId, (s.db.account? other.authAccountId).any (·.isActive) &&
        other.isActive) = some user.authAccountId := hpick.symm.trans haccount
    rw [whoActs] at hwho
    split at hwho
    · exact howners.inj hother hmember.member (Option.some.inj hwho)
    · cases hwho
  · intro honly
    have hrow (pick : ℕ) : findAny pick (fun user => user.tenantId = tenantId &&
        s.db.hasEmail user.authAccountId account.email) s.db.tenantUsers = some user := by
      cases hfind : findAny pick (fun user => user.tenantId = tenantId &&
          s.db.hasEmail user.authAccountId account.email) s.db.tenantUsers with
      | none =>
        have hno := findAny_eq_none.mp hfind user hmember.member
        simp [hmember.tenant, hhas] at hno
      | some other =>
        obtain ⟨hother, hcond⟩ := findAny_some hfind
        simp only [Bool.and_eq_true, decide_eq_true_eq] at hcond
        rw [honly other hother hcond.1 hcond.2]
    refine ⟨fun v hv hquiet hfresh => ?_, fun v hquiet => ?_⟩
    · have houtline := login_alone hquiet hfresh hactive hmember hpassword hrow
      have hcode : v.request.code cfg = login cfg ⟨account.email, password⟩ (some tenantId) := by
        rw [hv]
        rfl
      rw [← hcode] at houtline
      rcases Serving.served (P := (· = s.db)) houtline rfl with ⟨r, hr, tokens, rfl, hpayload⟩ | ⟨e, -, hno⟩
      · exact ⟨tokens, hr, hpayload⟩
      · exact hno.elim
    · have hne : s.db.actors account.email (some tenantId) ≠ [] :=
        List.ne_nil_of_mem ((hactors _).mpr ⟨user, hmember.member, hmember.tenant, hhas, rfl⟩)
      obtain ⟨actor, hactor, hchosen⟩ := chosen_mem (v.outside 0).pick hne
      obtain ⟨other, hother, htenant, hemail, rfl⟩ := (hactors actor).mp hactor
      rw [hreset hquiet, hchosen, honly other hother htenant hemail, whoActs]
      simp [hmember.known, hmember.enabled, hmember.active]

theorem acme_ownAccounts : acme.db.OwnAccounts := ⟨by decide, by decide⟩

/-- Bob's row is the only one with his address. -/
theorem active_member_resolved_bob : ∃ user account,
    acmeDb.ActiveMember "acme" user account ∧
      acmeDb.ResolvesMember plainConfig "acme" user account.email "Bob-Secret-12" := by
  have hmember : acmeDb.ActiveMember "acme" { id := 5, tenantId := "acme", authAccountId := 3 }
      { id := 3, email := "bob@acme.io", passwordHash := "Bob-Secret-12" } :=
    ⟨by decide, rfl, by decide, rfl, by decide, rfl⟩
  refine ⟨_, _, hmember, ?_⟩
  refine (active_member_resolved_iff plainConfig_normalized acme_idle acme_stored acme_ownAccounts .init
    (by decide) hmember (by decide)).mpr ?_
  decide

def annCreatesBob : ServerEvent :=
  .arrive (.directCreate ⟨"bob@acme.io", "Bob", none⟩ ann) (acmeContext "")

def bobLogsIn : Serving :=
  (Request.login ⟨"bob@acme.io", "Temporary-1234"⟩ (some "acme")).undisturbed

def newBob : TenantUser :=
  { id := 7, tenantId := "acme", authAccountId := 6, name := some "Bob" }

def newBobAccount : AuthAccount :=
  { id := 6, email := "bob@acme.io", passwordHash := "Temporary-1234", mustChangePassword := true }

/-- Ann deletes Bob and creates him again, and the database returns the row that is deleted. -/
theorem deleted_row_is_resolved : ∃ s,
    Reach (Server.step plainConfig) (fun _ _ => True) acme s ∧
    s.db.isTenantActive "acme" = true ∧ s.db.ActiveMember "acme" newBob newBobAccount ∧
    plainConfig.compare "Temporary-1234" newBobAccount.passwordHash = true ∧
    (bobLogsIn.serve plainConfig s.db).1 = .error (.http invalidCredentials) ∧
    resetAccount plainConfig bobLogsIn s.db "bob@acme.io" (some "acme") = none ∧
    ¬ s.db.ResolvesMember plainConfig "acme" newBob "bob@acme.io" "Temporary-1234" := by
  have hrun : (runAll (Server.step plainConfig) acme ([annDeletesBob] ++ acmeCalls 0 3 ++
      [annCreatesBob] ++ acmeCalls 1 4)).any (fun s =>
        s.db.isTenantActive "acme" && s.db.tenantUsers.contains newBob &&
        s.db.account? 6 = some newBobAccount &&
        (bobLogsIn.serve plainConfig s.db).1 = .error (.http invalidCredentials) &&
        resetAccount plainConfig bobLogsIn s.db "bob@acme.io" (some "acme") = none) = true := by
    decide +kernel
  obtain ⟨s, hs, h⟩ := (Option.any_eq_true _ _).mp hrun
  simp only [Bool.and_eq_true, decide_eq_true_eq] at h
  obtain ⟨⟨⟨⟨hactive, hmember⟩, hknown⟩, hlogin⟩, hreset⟩ := h
  have hquiet : ¬ bobLogsIn.Faults := by
    rintro ⟨i, hfault⟩
    cases hfault
  have hbob : s.db.ActiveMember "acme" newBob newBobAccount :=
    ⟨List.contains_iff_mem.mp hmember, rfl, by decide, rfl, hknown, rfl⟩
  refine ⟨s, .of_runAll (.of_labels (fun _ _ _ => trivial) _) hs, hactive, hbob, by decide, hlogin,
    hreset, fun hresolves => ?_⟩
  have hsome := hresolves.reset bobLogsIn hquiet
  rw [hreset] at hsome
  cases hsome

end Flexi.Accounts
