import Flexi.Accounts.MemberLogin

/-!
# The administrators of a tenant

Each of `deactivate`, `lockUser`, `deleteUser` and a change of role refuses to be used on
the caller, so an administrator who uses them is still there afterwards. Who the caller
is, and what it may do, is read from its token.
-/

namespace Flexi.Accounts
open Flexi.Library

/-- An active member that may manage the tenant's users. -/
structure Database.Administrator (db : Database) (tenantId : String) (user : TenantUser) : Prop where
  member : ∃ account, db.ActiveMember tenantId user account
  manages : TENANT_USER_MANAGE_PERMISSION ∈ flattenPermissions (db.rolesOf user.roles)

/-- The tenant has an administrator with this account. -/
def Database.AdministeredBy (db : Database) (tenantId : String) (a : ℕ) : Prop :=
  ∃ user, db.Administrator tenantId user ∧ user.authAccountId = a

def Database.Administered (db : Database) (tenantId : String) : Prop :=
  ∃ user, db.Administrator tenantId user

/-- An operation on another member than the one with account `a`, or that leaves the roles. -/
def Op.Spares (db : Database) (a : ℕ) : Op → Prop
  | deactivate .TENANT userId _ _ | lockUser userId _ _ | softDelete userId _ _ =>
    ∃ target ∈ db.tenantUsers, target.id = userId ∧ target.authAccountId ≠ a
  | updateTenantUser userId _ roles =>
    roles = none ∨ ∃ target ∈ db.tenantUsers, target.id = userId ∧ target.authAccountId ≠ a
  | hardDelete source _ _ => source ∈ db.tenantUsers ∧ source.authAccountId ≠ a
  | _ => False

section
variable {cfg : Config} {outside : Outside} {db db' : Database} {tenantId : String} {a : ℕ} {op : Op}

theorem Database.Administrator.of_eq {user user' : TenantUser} (h : db.Administrator tenantId user)
    (hmember : user' ∈ db'.tenantUsers) (hname : user' = { user with name := user'.name })
    (haccount : db'.account? user.authAccountId = db.account? user.authAccountId)
    (hroles : db'.roles = db.roles) : db'.Administrator tenantId user' := by
  obtain ⟨account, hactive⟩ := h.member
  have hmanages := h.manages
  rw [Database.rolesOf, ← hroles] at hmanages
  rw [hname] at hmember ⊢
  exact ⟨⟨account, hmember, hactive.tenant, hactive.live, hactive.active,
    haccount.trans hactive.known, hactive.enabled⟩, hmanages⟩

theorem Database.AdministeredBy.updateMember {userId : ℕ} {f : TenantUser → TenantUser}
    (h : db.AdministeredBy tenantId a)
    (hf : ∀ user ∈ db.tenantUsers, user.authAccountId = a → user.id = userId →
      f user = { user with name := (f user).name }) :
    (db.updateMember userId f).AdministeredBy tenantId a := by
  obtain ⟨user, hadmin, ha⟩ := h
  obtain ⟨account, hactive⟩ := hadmin.member
  by_cases hid : user.id = userId
  · have hname := hf user hactive.member ha hid
    have hmember : f user ∈ (db.updateMember userId f).tenantUsers :=
      mem_updateMany.mpr ⟨user, hactive.member, by simp [hid]⟩
    refine ⟨f user, hadmin.of_eq hmember hname rfl rfl, ?_⟩
    rw [hname]
    exact ha
  · have hmember : user ∈ (db.updateMember userId f).tenantUsers :=
      mem_updateMany.mpr ⟨user, hactive.member, by simp [hid]⟩
    exact ⟨user, hadmin.of_eq hmember rfl rfl rfl, ha⟩

theorem Database.Identified.spares {userId : ℕ} (hkeys : db.Identified)
    (h : ∃ target ∈ db.tenantUsers, target.id = userId ∧ target.authAccountId ≠ a) :
    ∀ user ∈ db.tenantUsers, user.authAccountId = a → user.id ≠ userId := by
  obtain ⟨target, htarget, hid, hother⟩ := h
  intro user huser ha hsame
  have heq : user = target := hkeys.members.inj huser htarget (hsame.trans hid.symm)
  exact hother (heq ▸ ha)

theorem Database.AdministeredBy.of_rows (h : db.AdministeredBy tenantId a)
    (hmembers : db'.tenantUsers = db.tenantUsers) (haccounts : db'.authAccounts = db.authAccounts)
    (hroles : db'.roles = db.roles) : db'.AdministeredBy tenantId a := by
  obtain ⟨user, hadmin, ha⟩ := h
  obtain ⟨account, hactive⟩ := hadmin.member
  have hknown : db'.account? user.authAccountId = db.account? user.authAccountId := by
    rw [Database.account?, haccounts, Database.account?]
  exact ⟨user, hadmin.of_eq (hmembers ▸ hactive.member) rfl hknown hroles, ha⟩

theorem Database.AdministeredBy.removeMember {source : TenantUser}
    (h : db.AdministeredBy tenantId a) (hkeys : db.Identified) (hsource : source ∈ db.tenantUsers)
    (hother : source.authAccountId ≠ a) : (db.removeMember source).AdministeredBy tenantId a := by
  obtain ⟨user, hadmin, ha⟩ := h
  obtain ⟨account, hactive⟩ := hadmin.member
  have hid : user.id ≠ source.id := hkeys.spares ⟨source, hsource, rfl, hother⟩ user hactive.member ha
  have hne : user.authAccountId ≠ source.authAccountId := fun heq => hother (heq ▸ ha)
  have hmember : user ∈ (db.removeMember source).tenantUsers :=
    List.mem_filter.mpr ⟨hactive.member, by simp [hid, hne]⟩
  have hknown : (db.removeMember source).account? user.authAccountId = db.account? user.authAccountId := by
    rw [Database.account?, Database.removeMember, List.find?_filter, Database.account?]
    congr 1
    funext row
    by_cases hrow : row.id = user.authAccountId
    · simp [hrow, hne]
    · simp [hrow]
  exact ⟨user, hadmin.of_eq hmember rfl hknown rfl, ha⟩

/-- Such an operation leaves the administrator in place. -/
theorem Op.Spares.perform (h : op.Spares db a) (hkeys : db.Identified)
    (hadmin : db.AdministeredBy tenantId a) :
    (op.perform cfg outside db).2.AdministeredBy tenantId a := by
  rcases perform_cases cfg outside op db with ⟨hdb, -⟩ | heffect
  · rw [hdb]
    exact hadmin
  rw [heffect]
  -- a write to another member's row, and a revocation
  have hupdated {userId : ℕ} {f : TenantUser → TenantUser} {p : RefreshToken → Bool} {now : ℕ}
      (hother : ∃ target ∈ db.tenantUsers, target.id = userId ∧ target.authAccountId ≠ a) :
      ((db.updateMember userId f).revokeTokens p now).2.AdministeredBy tenantId a := by
    have hwritten : (db.updateMember userId f).AdministeredBy tenantId a :=
      hadmin.updateMember fun user huser ha hid => absurd hid (hkeys.spares hother user huser ha)
    exact hwritten.of_rows rfl rfl rfl
  cases op with
  | deactivate actorType userId account now =>
    cases actorType with
    | TENANT =>
      rw [effect]
      rcases db.deactivate_cases .TENANT userId account now with ⟨e, he⟩ | ⟨db', hset, he⟩
      · rw [he]
        exact hadmin
      · rw [he]
        rcases db.setActorActive_cases .TENANT userId false with ⟨e, hx⟩ | ⟨-, hx⟩ | ⟨hno, -⟩
        · cases hset.symm.trans hx
        · cases hset.symm.trans hx
          exact hupdated h
        · cases hno
    | SYSTEM => exact h.elim
  | lockUser userId account now =>
    rw [effect]
    rcases db.setStatusAndRevoke_cases userId .LOCKED account now with ⟨e, he⟩ | ⟨row, db', hset, he⟩
    · rw [he]
      exact hadmin
    · rw [he]
      rcases db.setStatus_cases userId .LOCKED false with hx | ⟨row', -, hx⟩
      · cases hset.symm.trans hx
      · cases hset.symm.trans hx
        exact hupdated h
  | softDelete userId account now =>
    rcases db.softDelete_cases cfg outside userId account now with ⟨e, he⟩ | ⟨row, db', hset, he⟩
    · rw [he]
      exact hadmin
    · rw [he]
      rcases db.setStatus_cases userId .DELETED false with hx | ⟨row', -, hx⟩
      · cases hset.symm.trans hx
      · cases hset.symm.trans hx
        exact hupdated h
  | updateTenantUser userId name roles =>
    rw [effect]
    refine Database.ifMember_keeps (P := fun db => db.AdministeredBy tenantId a) hadmin fun _ _ => ?_
    refine hadmin.updateMember fun user huser ha hid => ?_
    rcases h with hroles | hother
    · rw [hroles]
      rfl
    · exact absurd hid (hkeys.spares hother user huser ha)
  | hardDelete source target now =>
    rcases effect_hardDelete source target now with he | he
    · rw [he]
      exact hadmin
    · rw [he]
      exact hadmin.removeMember hkeys h.1 h.2
  | _ => exact h.elim

end

/-! ### The requests

From the database `d` on; `I` is what is to hold afterwards. -/

section
variable {cfg : Config} {d : Database} {I : Database → Prop} {a : ℕ} {user : AuthenticatedUser}

/-- What spares account `a` leads to `I`. -/
def KeptBySpares (cfg : Config) (d : Database) (a : ℕ) (I : Database → Prop) : Prop :=
  ∀ (op : Op) (outside : Outside), op.Spares d a → I (op.perform cfg outside d).2

theorem outline_spares {op : Op} {α : Type} {f : op.Res → Service α} (hd : I d)
    (hI : KeptBySpares cfg d a I) (hop : op.Spares d a)
    (hf : ∀ x, Outline (serving cfg fun _ => True) I (f x) (fun _ => I) fun _ => I) :
    Outline (serving cfg fun _ => True) (· = d) (request op >>= f) (fun _ => I) fun _ => I :=
  outline_then_writes hd (fun outside => hI op outside hop) hf

theorem deactivate_spares (hd : I d) (hI : KeptBySpares cfg d user.authAccountId I) (htenant : user.actorType = .TENANT) (userId : ℕ) :
    Outline (serving cfg fun _ => True) (· = d) (deactivate userId user) (fun _ => I) fun _ => I := by
  refine outline_then_reads hd assertActorPermission_outline fun _ => ?_
  refine outline_then hd (G := fun target => target.actorType = .TENANT ∧ ∃ row ∈ d.tenantUsers,
    row.id = target.userId ∧ row.authAccountId = target.authAccountId) ?_ fun target htarget => ?_
  · unfold resolveTargetActor
    rw [htenant]
    dsimp only
    refine Outline.bind (Q := fun found db => db = d ∧ ∀ row, found = some row → row ∈ d.tenantUsers) ?_
      fun found => ?_
    · refine outline_read rfl fun db outside found hdb hfound => ⟨hdb, fun row hrow => ?_⟩
      rw [hdb] at hfound
      exact List.mem_of_find?_eq_some ((Except.ok.inj hfound).trans hrow)
    · cases found with
      | none => exact outline_fail fun _ h => h.1
      | some row => exact .pure fun _ h => ⟨h.1, rfl, row, h.2 row rfl, rfl, rfl⟩
  · obtain ⟨hactor, row, hrow, hid, haccount⟩ := htarget
    split
    · exact outline_refused hd
    · rename_i hself
      refine outline_then_reads hd outline_now_read fun now => ?_
      rw [hactor]
      exact outline_spares hd hI ⟨row, hrow, hid, haccount ▸ hself⟩ fun _ => .pure fun _ h => h

theorem lockUser_spares (hd : I d) (hI : KeptBySpares cfg d user.authAccountId I) (userId : ℕ) :
    Outline (serving cfg fun _ => True) (· = d) (lockUser userId user) (fun _ => I) fun _ => I := by
  refine outline_then hd (G := fun target => target ∈ d.tenantUsers) ?_ fun target htarget => ?_
  · refine requireTenantActor_outline.bind fun tenantId => assertActorPermission_outline.bind fun _ => ?_
    refine Outline.bind (Q := fun found db => db = d ∧ ∀ row, found = some row → row.user ∈ d.tenantUsers)
      ?_ fun found => ?_
    · refine outline_read rfl fun db outside found hdb hfound => ⟨hdb, fun row hrow => ?_⟩
      rw [hdb] at hfound
      obtain ⟨member, hmember, hbind⟩ :=
        Option.bind_eq_some_iff.mp ((Except.ok.inj hfound).trans hrow)
      rw [Database.tenantUserRow_user hbind]
      exact List.mem_of_find?_eq_some hmember
    · cases found with
      | none => exact outline_fail fun _ h => h.1
      | some row =>
        dsimp only
        split
        · exact outline_fail fun _ h => h.1
        · exact .pure fun _ h => ⟨h.1, h.2 row rfl⟩
  · split
    · exact outline_refused hd
    · rename_i hself
      split
      · exact outline_refused hd
      · refine outline_then_reads hd outline_now_read fun now => ?_
        exact outline_spares hd hI ⟨target, htarget, rfl, hself⟩ fun _ => .pure fun _ h => h

theorem updateUser_spares (hd : I d) (hI : KeptBySpares cfg d user.authAccountId I) (htenant : user.actorType = .TENANT) (userId : ℕ)
    (dto : UpdateUserDto) :
    Outline (serving cfg fun _ => True) (· = d) (updateUser userId dto user) (fun _ => I) fun _ => I := by
  refine outline_then_reads hd assertActorPermission_outline fun _ => ?_
  split
  · exact outline_refused hd
  · rw [htenant]
    dsimp only
    refine outline_then_reads hd requireTenantActor_outline fun tenantId => ?_
    refine outline_lookup hd (G := fun found => ∀ row, found = some row → row.user ∈ d.tenantUsers) rfl
      (fun outside found hfound row hrow => ?_) fun found hfound => ?_
    · obtain ⟨member, hmember, hbind⟩ :=
        Option.bind_eq_some_iff.mp ((Except.ok.inj hfound).trans hrow)
      rw [Database.tenantUserRow_user hbind]
      exact List.mem_of_find?_eq_some hmember
    · cases found with
      | none => exact outline_refused hd
      | some row =>
        dsimp only
        split
        · exact outline_refused hd
        · split
          · exact outline_refused hd
          · rename_i hself
            -- without a role in the body the roles stay
            refine outline_then hd (G := fun data => dto.roleId = none → data.2 = none) ?_
              fun data hdata => ?_
            · refine Outline.bind (Q := fun _ db => db = d) ?_ fun _ => ?_
              · split
                · split
                  · exact outline_fail fun _ h => h
                  · exact .pure fun _ h => h
                · exact .pure fun _ h => h
              · split
                · exact .pure fun _ h => ⟨h, fun _ => rfl⟩
                · rename_i roleId hrole
                  refine resolveRoleId_outline.bind fun roleId => .pure fun _ h => ⟨h, fun hnone => ?_⟩
                  cases hrole.symm.trans hnone
            · refine outline_spares hd hI ?_ fun _ => .pure fun _ h => h
              by_cases hrole : dto.roleId = none
              · exact .inl (hdata hrole)
              · exact .inr ⟨row.user, hfound row rfl, rfl, fun ha => hself ⟨hrole, ha⟩⟩

theorem deleteUser_spares (hd : I d) (hI : KeptBySpares cfg d user.authAccountId I) (userId : ℕ) (hard : Bool) (transferToUserId : Option ℕ) :
    Outline (serving cfg fun _ => True) (· = d) (deleteUser userId hard transferToUserId user)
      (fun _ => I) fun _ => I := by
  refine outline_then_reads hd requireTenantActor_outline fun tenantId => ?_
  refine outline_then_reads hd assertActorPermission_outline fun _ => ?_
  refine outline_lookup hd (G := fun found => ∀ row, found = some row → row ∈ d.tenantUsers) rfl
    (fun outside found hfound row hrow => ?_) fun found hfound => ?_
  · exact List.mem_of_find?_eq_some ((Except.ok.inj hfound).trans hrow)
  · cases found with
    | none => exact outline_refused hd
    | some source =>
      dsimp only
      split
      · exact outline_refused hd
      · rename_i hself
        split
        · exact outline_refused hd
        · split
          · refine outline_then_reads hd ?_ fun target => ?_
            · have htarget (targetUserId : ℕ) : Makes (fun op => ∃ u t, op = .findTransferTarget u t)
                  (resolveActiveTransferTarget targetUserId source tenantId) := by
                unfold resolveActiveTransferTarget
                split
                · exact makes_fail
                · refine .bind (makes_request ⟨_, _, rfl⟩) fun target => ?_
                  cases target with
                  | none => exact makes_fail
                  | some target => exact .pure
              cases transferToUserId with
              | none => exact .pure fun _ h => h
              | some targetUserId =>
                refine outline_reads ((htarget targetUserId).bind fun _ => .pure) ?_
                rintro op ⟨u, t, rfl⟩
                rfl
            · refine outline_then_reads hd outline_now_read fun now => ?_
              refine outline_spares hd hI ⟨hfound source rfl, hself⟩ fun result => ?_
              cases result with
              | error e => exact outline_fail fun _ h => h
              | ok counts => exact .pure fun _ h => h
          · refine outline_then_reads hd outline_now_read fun now => ?_
            exact outline_spares hd hI ⟨source, hfound source rfl, rfl, hself⟩ fun _ => .pure fun _ h => h

end

/-! ### Runs -/

/-- The requests that can take a member's access or its role away. -/
def Request.demotes : Request → Bool
  | deactivate _ _ | lockUser _ _ | deleteUser _ _ _ _ | updateUser _ _ _ => true
  | _ => false

/-- Such a request by a tenant user that is an administrator of the tenant at the time. -/
def Desk.byAdministrator (tenantId : String) (s : Desk) : DeskEvent → Prop
  | .serve v => v.request.demotes = true ∧ ∃ user, v.request.user? = some user ∧
      user.actorType = .TENANT ∧ s.db.AdministeredBy tenantId user.authAccountId
  | .tick _ => True

theorem Serving.serve_spares {cfg : Config} {v : Serving} {db : Database} {tenantId : String}
    {user : AuthenticatedUser} (hkeys : db.Identified) (hdemotes : v.request.demotes = true)
    (huser : v.request.user? = some user) (htenant : user.actorType = .TENANT)
    (hadmin : db.AdministeredBy tenantId user.authAccountId) :
    (v.serve cfg db).2.AdministeredBy tenantId user.authAccountId := by
  have hI : KeptBySpares cfg db user.authAccountId fun d =>
      d.AdministeredBy tenantId user.authAccountId :=
    fun op outside h => h.perform hkeys hadmin
  have hcode : Outline (serving cfg fun _ => True) (· = db) (v.request.code cfg)
      (fun _ d => d.AdministeredBy tenantId user.authAccountId)
      fun _ d => d.AdministeredBy tenantId user.authAccountId := by
    unfold Request.code
    rw [huser]
    refine outline_then_reads hadmin jwtAuthGuard_outline fun _ => ?_
    cases hrequest : v.request with
    | deactivate userId caller =>
      rw [hrequest] at huser
      cases huser
      exact deactivate_spares hadmin hI htenant userId
    | lockUser userId caller =>
      rw [hrequest] at huser
      cases huser
      exact lockUser_spares hadmin hI userId
    | updateUser userId dto caller =>
      rw [hrequest] at huser
      cases huser
      exact updateUser_spares hadmin hI htenant userId dto
    | deleteUser userId hard transferToUserId caller =>
      rw [hrequest] at huser
      cases huser
      exact deleteUser_spares hadmin hI userId hard transferToUserId
    | _ =>
      rw [hrequest] at hdemotes
      cases hdemotes
  exact Serving.serve_outline (fun _ => ⟨trivial, trivial⟩) hcode rfl

/-- A tenant with an administrator keeps one, whatever its administrators deactivate, lock,
delete or change, one request at a time. -/
theorem administrator_remains {cfg : Config} {tenantId : String} {s₀ s : Desk}
    (hkeys : s₀.db.Identified) (h₀ : s₀.db.Administered tenantId)
    (h : Reach (Desk.step cfg) (Desk.byAdministrator tenantId) s₀ s) :
    s.db.Administered tenantId := by
  have hboth : s.db.Identified ∧ s.db.Administered tenantId := by
    refine h.invariant (I := fun s => s.db.Identified ∧ s.db.Administered tenantId) ⟨hkeys, h₀⟩ ?_
    rintro s s' e - ⟨hkeys, hadministered⟩ hok hstep
    cases e with
    | serve v =>
      cases Option.some.inj hstep
      obtain ⟨hdemotes, user, huser, htenant, hadmin⟩ := hok
      have hspared : (v.serve cfg s.db).2.AdministeredBy tenantId user.authAccountId :=
        Serving.serve_spares hkeys hdemotes huser htenant hadmin
      obtain ⟨member, hmember, -⟩ := hspared
      exact ⟨Serving.serve_calls (fun op outside db _ h => h.perform) hkeys, member, hmember⟩
    | tick d =>
      cases Option.some.inj hstep
      exact ⟨hkeys, hadministered⟩
  exact hboth.2

/-! ### Two administrators -/

def annMember : TenantUser := { id := 4, tenantId := "acme", authAccountId := 2, roles := [1] }

def bobMember : TenantUser := { id := 5, tenantId := "acme", authAccountId := 3, roles := [1] }

def annAccount : AuthAccount := { id := 2, email := "ann@acme.io", passwordHash := "Ann-Secret-12" }

def bobAccount : AuthAccount := { id := 3, email := "bob@acme.io", passwordHash := "Bob-Secret-12" }

/-- Bob administers the tenant as well. -/
def pairDb : Database := { acmeDb with tenantUsers := [annMember, bobMember] }

/-- The access token that a login signs. -/
def pairToken (user : TenantUser) (account : AuthAccount) : AccessJwt where
  payload := accessTokenPayload (mapTenantUserToActor ⟨user, account, pairDb.rolesOf user.roles⟩) 0
  exp := 15 * 60

def annDeactivatesBob : Serving :=
  (Request.deactivate 5 (pairToken annMember annAccount).payload).undisturbed

def bobDeactivatesAnn : Serving :=
  (Request.deactivate 4 (pairToken bobMember bobAccount).payload).undisturbed

theorem pair_administered : pairDb.Administrator "acme" annMember :=
  ⟨⟨annAccount, by decide, rfl, by decide, rfl, by decide, rfl⟩, by decide⟩

theorem administrator_remains_acme : (annDeactivatesBob.serve plainConfig pairDb).2.Administered "acme" := by
  have hkeys : pairDb.Identified := ⟨⟨by decide, by decide⟩, ⟨by decide, by decide⟩⟩
  have hok : Desk.byAdministrator "acme" ⟨pairDb, 0⟩ (.serve annDeactivatesBob) :=
    ⟨rfl, _, rfl, rfl, annMember, pair_administered, rfl⟩
  have hrun : Reach (Desk.step plainConfig) (Desk.byAdministrator "acme") ⟨pairDb, 0⟩
      ⟨(annDeactivatesBob.serve plainConfig pairDb).2, 0⟩ := .next .init hok rfl
  exact administrator_remains hkeys ⟨annMember, pair_administered⟩ hrun

/-- Such a request with one of these access tokens, before it expires. -/
def Desk.presents (issued : List AccessJwt) (s : Desk) : DeskEvent → Prop
  | .serve v => v.request.demotes = true ∧
      ∃ token ∈ issued, v.request.user? = some token.payload ∧ s.clock / 1000 < token.exp
  | .tick _ => True

/-- Ann deactivates Bob, and Bob, whose access token is still good, deactivates Ann. -/
theorem deactivated_administrator_acts : ∃ s,
    Reach (Desk.step plainConfig)
      (Desk.presents [pairToken annMember annAccount, pairToken bobMember bobAccount]) ⟨pairDb, 0⟩ s ∧
    pairDb.Administered "acme" ∧ ¬ s.db.Administered "acme" := by
  have hfirst : Desk.presents [pairToken annMember annAccount, pairToken bobMember bobAccount] ⟨pairDb, 0⟩
      (.serve annDeactivatesBob) := ⟨rfl, _, List.mem_cons_self, rfl, by decide⟩
  have hsecond : Desk.presents [pairToken annMember annAccount, pairToken bobMember bobAccount]
      ⟨(annDeactivatesBob.serve plainConfig pairDb).2, 0⟩ (.serve bobDeactivatesAnn) :=
    ⟨rfl, _, List.mem_cons_of_mem _ List.mem_cons_self, rfl, by decide⟩
  refine ⟨_, .next (.next .init hfirst rfl) hsecond rfl, ⟨annMember, pair_administered⟩, ?_⟩
  rintro ⟨user, ⟨account, hactive⟩, -⟩
  have hnobody : ((bobDeactivatesAnn.serve plainConfig
      (annDeactivatesBob.serve plainConfig pairDb).2).2.tenantUsers.all fun user => !user.isActive) =
        true := by
    decide +kernel
  have hinactive := List.all_eq_true.mp hnobody user hactive.member
  simp [hactive.active] at hinactive

end Flexi.Accounts
