import Flexi.Accounts.Calls

/-!
# The footprint of the operations

Which tables an operation writes, and what its writes can do to the rows of
`RefreshToken`.
-/

namespace Flexi.Accounts
open Flexi.Library

inductive Table where
  | authAccounts | tenantUsers | systemUsers | roles | refreshTokens | passwordResetOtps
  | userInvites | tenants | tenantSettings
  deriving DecidableEq

@[reducible] def Table.Row : Table → Type
  | authAccounts => AuthAccount
  | tenantUsers => TenantUser
  | systemUsers => SystemUser
  | roles => Role
  | refreshTokens => RefreshToken
  | passwordResetOtps => PasswordResetOtp
  | userInvites => UserInvite
  | tenants => Tenant
  | tenantSettings => TenantSettings

def Database.rows (db : Database) : (t : Table) → List t.Row
  | .authAccounts => db.authAccounts
  | .tenantUsers => db.tenantUsers
  | .systemUsers => db.systemUsers
  | .roles => db.roles
  | .refreshTokens => db.refreshTokens
  | .passwordResetOtps => db.passwordResetOtps
  | .userInvites => db.userInvites
  | .tenants => db.tenants
  | .tenantSettings => db.tenantSettings

/-- The tables an operation may write. -/
def Op.writes : Op → List Table
  | createRefreshToken _ _ _ | revokeFamily _ _ | rotate _ _ | revokeToken _ _ | revokeSession _ _
  | revokeAllSessions _ _ _ => [.refreshTokens]
  | changePassword _ _ _ _ | forceResetPassword _ _ _ => [.authAccounts, .refreshTokens]
  | issueOtp _ _ _ _ | consumeExpiredOtp _ _ | recordMiss _ _ | burnOtps _ _ => [.passwordResetOtps]
  | resetPassword _ _ _ _ => [.authAccounts, .refreshTokens, .passwordResetOtps]
  | deactivate _ _ _ _ => [.tenantUsers, .systemUsers, .refreshTokens]
  | activate _ _ => [.tenantUsers, .systemUsers]
  | updateTenantUser _ _ _ | approveUser _ | unlockUser _ => [.tenantUsers]
  | updateSystemUser _ _ _ => [.systemUsers]
  | lockUser _ _ _ | softDelete _ _ _ => [.tenantUsers, .refreshTokens]
  | directCreate _ _ _ _ _ | register _ _ _ _ _ _ => [.authAccounts, .tenantUsers]
  | createInvites _ _ _ _ | redeemInvite _ _ _ _ _ => [.authAccounts, .tenantUsers, .userInvites]
  | resendInvite _ _ _ _ _ => [.userInvites]
  | revokeInvite _ _ => [.tenantUsers, .userInvites]
  | hardDelete _ _ _ =>
    [.authAccounts, .tenantUsers, .systemUsers, .refreshTokens, .passwordResetOtps, .userInvites]
  | _ => []

namespace Database

variable {cfg : Config} {db : Database} {P : Database → Prop}

theorem ifMember_keeps {α : Type} {id : ℕ} {k : TenantUser → Answer α} (hdb : P db)
    (h : ∀ user, db.member? id = some user → P (k user).2) : P (db.ifMember id k).2 := by
  unfold ifMember
  split
  · exact hdb
  · exact h _ ‹_›

theorem ifAccount_keeps {α : Type} {id : ℕ} {k : Answer α} (hdb : P db)
    (h : ∀ account, db.account? id = some account → P k.2) : P (db.ifAccount id k).2 := by
  unfold ifAccount
  split
  · exact hdb
  · rename_i hsome
    obtain ⟨account, ha⟩ := Option.isSome_iff_exists.mp
      (Option.isSome_iff_ne_none.mpr (by simpa using hsome))
    exact h account ha

theorem inviteMembers_keeps_of_mem {tenantId : String} {roleId invitedById : Option ℕ}
    {prepared : List PreparedInvite}
    (keep : ∀ db p x, p ∈ prepared → P db → db.inviteMember cfg tenantId roleId invitedById p = some x →
      P x.2)
    (hdb : P db) {x : List UserInvite × Database}
    (h : inviteMembers cfg tenantId roleId invitedById db prepared = some x) : P x.2 := by
  induction prepared generalizing db x with
  | nil =>
    cases h
    exact hdb
  | cons p rest ih =>
    rw [inviteMembers] at h
    split at h
    · cases h
    · rename_i invite db' hm
      obtain ⟨y, hy, rfl⟩ := Option.map_eq_some_iff.mp h
      have hdb' : P db' := keep db p (invite, db') List.mem_cons_self hdb hm
      have hy' : P y.2 := ih (fun d q z hq => keep d q z (List.mem_cons_of_mem p hq)) hdb' hy
      exact hy'

theorem createInvites_keeps_of_mem {tenantId : String} {roleId invitedById : Option ℕ}
    {prepared : List PreparedInvite}
    (keep : ∀ db p x, p ∈ prepared → P db → db.inviteMember cfg tenantId roleId invitedById p = some x →
      P x.2)
    (hdb : P db) : P (db.createInvites cfg tenantId roleId prepared invitedById).2 := by
  unfold createInvites
  split
  · exact hdb
  · exact inviteMembers_keeps_of_mem keep hdb ‹_›

theorem createInvites_keeps {tenantId : String} {roleId invitedById : Option ℕ}
    {prepared : List PreparedInvite}
    (keep : ∀ db p x, P db → db.inviteMember cfg tenantId roleId invitedById p = some x → P x.2)
    (hdb : P db) : P (db.createInvites cfg tenantId roleId prepared invitedById).2 :=
  createInvites_keeps_of_mem (fun d p x _ => keep d p x) hdb

/-! ### What the composed statements do -/

theorem setActorActive_cases (db : Database) (actorType : ActorType) (userId : ℕ) (isActive : Bool) :
    (∃ e, db.setActorActive actorType userId isActive = (.error e, db)) ∨
    (actorType = .TENANT ∧ db.setActorActive actorType userId isActive =
      (.ok (), db.updateMember userId fun user => { user with isActive := isActive })) ∨
    (actorType = .SYSTEM ∧ db.setActorActive actorType userId isActive =
      (.ok (), { db with
        systemUsers := updateMany (·.id = userId)
          (fun user => { user with isActive := isActive }) db.systemUsers })) := by
  cases actorType with
  | TENANT =>
    rw [setActorActive, ifMember]
    cases db.member? userId with
    | none => exact .inl ⟨_, rfl⟩
    | some user => exact .inr (.inl ⟨rfl, rfl⟩)
  | SYSTEM =>
    rw [setActorActive]
    split
    · exact .inl ⟨_, rfl⟩
    · exact .inr (.inr ⟨rfl, rfl⟩)

theorem deactivate_cases (db : Database) (actorType : ActorType) (userId authAccountId now : ℕ) :
    (∃ e, db.deactivate actorType userId authAccountId now = (.error e, db)) ∨
    ∃ db', db.setActorActive actorType userId false = (.ok (), db') ∧
      db.deactivate actorType userId authAccountId now =
        (.ok (db'.revokeLiveSessions authAccountId now).1,
          (db'.revokeLiveSessions authAccountId now).2) := by
  unfold deactivate
  split
  · exact .inl ⟨_, rfl⟩
  · exact .inr ⟨_, ‹_›, rfl⟩

theorem setStatus_cases (db : Database) (userId : ℕ) (status : TenantUserStatus) (isActive : Bool) :
    db.setStatus userId status isActive = (.error (.database "P2025"), db) ∨
    ∃ user, db.member? userId = some user ∧ db.setStatus userId status isActive =
      (.ok { user with status := status, isActive := isActive },
        db.updateMember userId fun user => { user with status := status, isActive := isActive }) := by
  simp only [setStatus, ifMember]
  split
  · exact .inl rfl
  · exact .inr ⟨_, ‹_›, rfl⟩

theorem setStatusAndRevoke_cases (db : Database) (userId : ℕ) (status : TenantUserStatus)
    (authAccountId now : ℕ) :
    (∃ e, db.setStatusAndRevoke userId status authAccountId now = (.error e, db)) ∨
    ∃ user db', db.setStatus userId status false = (.ok user, db') ∧
      db.setStatusAndRevoke userId status authAccountId now =
        (.ok (user, (db'.revokeLiveSessions authAccountId now).1),
          (db'.revokeLiveSessions authAccountId now).2) := by
  unfold setStatusAndRevoke
  split
  · exact .inl ⟨_, rfl⟩
  · exact .inr ⟨_, _, ‹_›, rfl⟩

theorem softDelete_cases (cfg : Config) (outside : Outside) (db : Database)
    (userId authAccountId now : ℕ) :
    (∃ e, (Op.softDelete userId authAccountId now).effect cfg outside db = (.error e, db)) ∨
    ∃ user db', db.setStatus userId .DELETED false = (.ok user, db') ∧
      (Op.softDelete userId authAccountId now).effect cfg outside db =
        (.ok (db'.revokeLiveSessions authAccountId now).1,
          (db'.revokeLiveSessions authAccountId now).2) := by
  rcases db.setStatusAndRevoke_cases userId .DELETED authAccountId now with
    ⟨e, he⟩ | ⟨user, db', hs, he⟩
  · exact .inl ⟨e, by simp only [Op.effect, he]⟩
  · exact .inr ⟨user, db', hs, by simp only [Op.effect, he]⟩

end Database

section
variable {cfg : Config} {outside : Outside} {db : Database} {op : Op}

theorem Database.inviteMember_rows {tenantId : String} {roleId invitedById : Option ℕ}
    {p : PreparedInvite} {x : UserInvite × Database} {t : Table}
    (h : db.inviteMember cfg tenantId roleId invitedById p = some x)
    (ht : t ∉ [.authAccounts, .tenantUsers, .userInvites]) : x.2.rows t = db.rows t := by
  unfold inviteMember at h
  split at h
  · cases h
  · cases h
    cases t <;> first | rfl | simp at ht

theorem Database.setActorActive_rows {actorType : ActorType} {userId : ℕ} {isActive : Bool}
    {t : Table} (ht : t ∉ [.tenantUsers, .systemUsers]) :
    (db.setActorActive actorType userId isActive).2.rows t = db.rows t := by
  rcases db.setActorActive_cases actorType userId isActive with ⟨e, he⟩ | ⟨-, he⟩ | ⟨-, he⟩
  · rw [he]
  · rw [he]
    cases t <;> first | rfl | simp at ht
  · rw [he]
    cases t <;> first | rfl | simp at ht

theorem Database.setStatus_rows {userId : ℕ} {status : TenantUserStatus} {isActive : Bool}
    {t : Table} (ht : t ≠ .tenantUsers) :
    (db.setStatus userId status isActive).2.rows t = db.rows t := by
  rcases db.setStatus_cases userId status isActive with he | ⟨user, -, he⟩
  · rw [he]
  · rw [he]
    cases t <;> first | rfl | cases ht rfl

theorem Database.revokeLiveSessions_rows {authAccountId now : ℕ} {t : Table}
    (ht : t ≠ .refreshTokens) : (db.revokeLiveSessions authAccountId now).2.rows t = db.rows t := by
  cases t <;> first | rfl | cases ht rfl

/-- An operation leaves the tables alone that it does not write. -/
theorem Op.effect_rows {t : Table} (h : t ∉ op.writes) :
    (op.effect cfg outside db).2.rows t = db.rows t := by
  cases op with
  | createInvites tenantId roleId prepared invitedById =>
    apply Database.createInvites_keeps (P := fun d => d.rows t = db.rows t)
    · intro d p x hd hx
      rw [Database.inviteMember_rows hx h, hd]
    · rfl
  | activate actorType userId => exact Database.setActorActive_rows h
  | approveUser userId | unlockUser userId =>
    exact Database.setStatus_rows (by simpa [writes] using h)
  | deactivate actorType userId authAccountId now =>
    simp only [writes, List.mem_cons, not_or] at h
    simp only [effect]
    rcases db.deactivate_cases actorType userId authAccountId now with ⟨e, he⟩ | ⟨db', ha, he⟩
    · rw [he]
    · rw [he]
      have hrows : (db.setActorActive actorType userId false).2.rows t = db.rows t :=
        Database.setActorActive_rows (by simp [h])
      rw [Database.revokeLiveSessions_rows h.2.2.1, ← hrows, ha]
  | lockUser userId authAccountId now =>
    simp only [writes, List.mem_cons, not_or] at h
    simp only [effect]
    rcases db.setStatusAndRevoke_cases userId .LOCKED authAccountId now with
      ⟨e, he⟩ | ⟨user, db', hs, he⟩
    · rw [he]
    · have hrows : (db.setStatus userId .LOCKED false).2.rows t = db.rows t :=
        Database.setStatus_rows h.1
      rw [he, Database.revokeLiveSessions_rows h.2.1, ← hrows, hs]
  | softDelete userId authAccountId now =>
    simp only [writes, List.mem_cons, not_or] at h
    rcases db.softDelete_cases cfg outside userId authAccountId now with
      ⟨e, he⟩ | ⟨user, db', hs, he⟩
    · rw [he]
    · have hrows : (db.setStatus userId .DELETED false).2.rows t = db.rows t :=
        Database.setStatus_rows h.1
      rw [he, Database.revokeLiveSessions_rows h.2.1, ← hrows, hs]
  | createRefreshToken | revokeToken | issueOtp | resetPassword | changePassword
  | forceResetPassword | updateTenantUser | updateSystemUser | directCreate | register
  | resendInvite | revokeInvite | redeemInvite | hardDelete =>
    simp only [effect, Database.createRefreshToken, Database.issueOtp, Database.resetPassword,
      Database.changePassword, Database.forceResetPassword, Database.updateTenantUser,
      Database.updateSystemUser, Database.directCreate, Database.register, Database.resendInvite,
      Database.revokeInvite, Database.redeemInvite, Database.hardDelete, Database.ifMember,
      Database.ifAccount]
    repeat' split
    all_goals cases t <;> first | rfl | simp [writes] at h
  | _ => cases t <;> first | rfl | simp [writes] at h

/-- A statement that fails is rolled back. -/
theorem Op.effect_error {e : ServiceError} (h : (op.effect cfg outside db).1 = .error e) :
    (op.effect cfg outside db).2 = db := by
  cases op with
  | activate actorType userId =>
    simp only [effect] at h ⊢
    rcases db.setActorActive_cases actorType userId true with ⟨_, he⟩ | ⟨-, he⟩ | ⟨-, he⟩
    · rw [he]
    all_goals
      rw [he] at h
      cases h
  | deactivate actorType userId authAccountId now =>
    simp only [effect] at h ⊢
    rcases db.deactivate_cases actorType userId authAccountId now with ⟨_, he⟩ | ⟨db', -, he⟩
    · rw [he]
    · rw [he] at h
      cases h
  | lockUser userId authAccountId now =>
    simp only [effect] at h ⊢
    rcases db.setStatusAndRevoke_cases userId .LOCKED authAccountId now with
      ⟨_, he⟩ | ⟨user, db', -, he⟩
    · rw [he]
    · rw [he] at h
      cases h
  | softDelete userId authAccountId now =>
    rcases db.softDelete_cases cfg outside userId authAccountId now with
      ⟨_, he⟩ | ⟨user, db', -, he⟩
    · rw [he]
    · rw [he] at h
      cases h
  | createRefreshToken | revokeToken | issueOtp | resetPassword | changePassword
  | forceResetPassword | updateTenantUser | updateSystemUser | directCreate | register
  | createInvites | approveUser | unlockUser | resendInvite | revokeInvite | redeemInvite
  | hardDelete =>
    simp only [effect, Database.createRefreshToken, Database.issueOtp, Database.resetPassword,
      Database.changePassword, Database.forceResetPassword, Database.updateTenantUser,
      Database.updateSystemUser, Database.directCreate, Database.register, Database.createInvites,
      Database.setStatus, Database.resendInvite, Database.revokeInvite, Database.redeemInvite,
      Database.hardDelete, Database.ifMember, Database.ifAccount] at h ⊢
    grind
  | _ => cases h

theorem Op.perform_cases (cfg : Config) (outside : Outside) (op : Op) (db : Database) :
    (op.perform cfg outside db).2 = db ∧ (∃ e, (op.perform cfg outside db).1 = .error e) ∨
    op.perform cfg outside db = op.effect cfg outside db := by
  unfold perform
  split
  · exact .inl ⟨rfl, _, rfl⟩
  · exact .inr rfl

theorem Op.perform_error {e : ServiceError} (h : (op.perform cfg outside db).1 = .error e) :
    (op.perform cfg outside db).2 = db := by
  rcases perform_cases cfg outside op db with ⟨hdb, -⟩ | heffect
  · exact hdb
  · rw [heffect] at h ⊢
    exact effect_error h

theorem Op.perform_rows {t : Table} (h : t ∉ op.writes) :
    (op.perform cfg outside db).2.rows t = db.rows t := by
  unfold perform
  split
  · rfl
  · exact effect_rows h

end

theorem Database.tenantUserRow_user {db : Database} {user : TenantUser} {row : TenantUserRow}
    (h : db.tenantUserRow user = some row) : row.user = user := by
  obtain ⟨account, -, rfl⟩ := Option.map_eq_some_iff.mp h
  rfl

theorem Database.systemUserRow_user {db : Database} {user : SystemUser} {row : SystemUserRow}
    (h : db.systemUserRow user = some row) : row.user = user := by
  obtain ⟨account, -, rfl⟩ := Option.map_eq_some_iff.mp h
  rfl

/-! ### Rows of `RefreshToken` -/

/-- A row later on: still its owner's, and never live again once revoked. -/
structure RefreshToken.Evolves (old new : RefreshToken) : Prop where
  id : new.id = old.id
  authAccountId : new.authAccountId = old.authAccountId
  tokenHash : new.tokenHash = old.tokenHash
  expiresAt : new.expiresAt = old.expiresAt
  revokedAt : old.revokedAt ≠ none → new.revokedAt ≠ none

theorem RefreshToken.Evolves.refl (token : RefreshToken) : token.Evolves token :=
  ⟨rfl, rfl, rfl, rfl, fun h => h⟩

theorem RefreshToken.Evolves.trans {a b c : RefreshToken} (h : a.Evolves b) (h' : b.Evolves c) :
    a.Evolves c :=
  ⟨h'.id.trans h.id, h'.authAccountId.trans h.authAccountId, h'.tokenHash.trans h.tokenHash,
    h'.expiresAt.trans h.expiresAt, fun hr => h'.revokedAt (h.revokedAt hr)⟩

/-- Every row is there later on, and no other. -/
def TokensUpdated (db db' : Database) : Prop :=
  ∃ f : RefreshToken → RefreshToken, (∀ token, RefreshToken.Evolves token (f token)) ∧
    db'.refreshTokens = db.refreshTokens.map f

/-- Every row comes from an earlier one. -/
structure TokensEvolve (db db' : Database) : Prop where
  rows : ∀ new ∈ db'.refreshTokens, ∃ old ∈ db.refreshTokens, old.Evolves new
  hashes : (db'.refreshTokens.map (·.tokenHash)).Sublist (db.refreshTokens.map (·.tokenHash))

/-- Every session of the account is gone. -/
def AllRevoked (authAccountId : ℕ) (db : Database) : Prop :=
  ∀ token ∈ db.refreshTokens, token.authAccountId = authAccountId → token.revokedAt ≠ none

section
variable {db db' : Database}

theorem TokensUpdated.of_eq (h : db'.refreshTokens = db.refreshTokens) : TokensUpdated db db' :=
  ⟨fun token => token, RefreshToken.Evolves.refl, by simp [h]⟩

theorem TokensUpdated.updateMany {p : RefreshToken → Bool} {now : ℕ}
    (h : db'.refreshTokens =
      Library.updateMany p (fun token => { token with revokedAt := some now }) db.refreshTokens) :
    TokensUpdated db db' := by
  refine ⟨_, fun token => ?_, h⟩
  split
  · exact ⟨rfl, rfl, rfl, rfl, fun _ => Option.some_ne_none now⟩
  · exact .refl token

theorem TokensUpdated.evolve (h : TokensUpdated db db') : TokensEvolve db db' := by
  obtain ⟨f, hf, heq⟩ := h
  refine ⟨fun new hmem => ?_, ?_⟩
  · rw [heq] at hmem
    obtain ⟨old, hold, rfl⟩ := List.mem_map.mp hmem
    exact ⟨old, hold, hf old⟩
  · have hmap : db'.refreshTokens.map (·.tokenHash) = db.refreshTokens.map (·.tokenHash) := by
      rw [heq, List.map_map]
      exact List.map_congr_left fun token _ => (hf token).tokenHash
    rw [hmap]

theorem TokensUpdated.kept (h : TokensUpdated db db') {old : RefreshToken}
    (hold : old ∈ db.refreshTokens) : ∃ new ∈ db'.refreshTokens, old.Evolves new := by
  obtain ⟨f, hf, heq⟩ := h
  exact ⟨f old, heq ▸ List.mem_map_of_mem hold, hf old⟩

theorem TokensEvolve.filter {p : RefreshToken → Bool}
    (h : db'.refreshTokens = db.refreshTokens.filter p) : TokensEvolve db db' := by
  refine ⟨fun token hmem => ?_, ?_⟩
  · rw [h] at hmem
    exact ⟨token, (List.mem_filter.mp hmem).1, .refl token⟩
  · rw [h]
    exact List.filter_sublist.map _

theorem TokensEvolve.allRevoked {a : ℕ} (h : TokensEvolve db db') (ha : AllRevoked a db) :
    AllRevoked a db' := by
  intro token hmem htoken
  obtain ⟨old, hold, he⟩ := h.rows token hmem
  exact he.revokedAt (ha old hold (he.authAccountId ▸ htoken))

end

theorem Database.revokeLiveSessions_all (db : Database) (authAccountId now : ℕ) :
    AllRevoked authAccountId (db.revokeLiveSessions authAccountId now).2 := by
  intro token hmem htoken
  obtain ⟨old, hold, rfl⟩ := mem_updateMany.mp hmem
  split
  · exact Option.some_ne_none now
  · rename_i hlive
    rw [if_neg hlive] at htoken
    simpa [htoken] using hlive

section
variable {cfg : Config} {outside : Outside} {db : Database} {op : Op}

theorem Op.effect_tokensUpdated (h : ∀ a hash exp, op ≠ createRefreshToken a hash exp)
    (hdelete : ∀ source target now, op ≠ hardDelete source target now) :
    TokensUpdated db (op.effect cfg outside db).2 := by
  by_cases hw : Table.refreshTokens ∈ op.writes
  · cases op with
    | createRefreshToken a hash exp => exact absurd rfl (h a hash exp)
    | hardDelete source target now => exact absurd rfl (hdelete source target now)
    | revokeFamily a now => exact .updateMany rfl
    | rotate id now => exact .updateMany rfl
    | revokeSession id now => exact .updateMany rfl
    | revokeAllSessions a kept now => exact .updateMany rfl
    | revokeToken id now =>
      rw [effect]
      split
      · exact .of_eq rfl
      · exact .updateMany rfl
    | changePassword a hash kept now =>
      exact Database.ifAccount_keeps (.of_eq rfl) fun _ _ => .updateMany rfl
    | forceResetPassword a hash now =>
      exact Database.ifAccount_keeps (.of_eq rfl) fun _ _ => .updateMany rfl
    | resetPassword otp a hash now =>
      rw [effect, Database.resetPassword]
      split
      · exact .of_eq rfl
      · exact Database.ifAccount_keeps (.of_eq rfl) fun _ _ => .updateMany rfl
    | deactivate actorType userId a now =>
      rw [effect]
      rcases db.deactivate_cases actorType userId a now with ⟨e, he⟩ | ⟨db', ha, he⟩
      · rw [he]
        exact .of_eq rfl
      · rw [he]
        have hrows : (db.setActorActive actorType userId false).2.rows .refreshTokens =
            db.rows .refreshTokens := Database.setActorActive_rows (by decide)
        rw [ha] at hrows
        exact .updateMany (congrArg _ hrows)
    | lockUser userId a now =>
      rw [effect]
      rcases db.setStatusAndRevoke_cases userId .LOCKED a now with ⟨e, he⟩ | ⟨user, db', hs, he⟩
      · rw [he]
        exact .of_eq rfl
      · rw [he]
        have hrows : (db.setStatus userId .LOCKED false).2.rows .refreshTokens =
            db.rows .refreshTokens := Database.setStatus_rows (by decide)
        rw [hs] at hrows
        exact .updateMany (congrArg _ hrows)
    | softDelete userId a now =>
      rcases db.softDelete_cases cfg outside userId a now with ⟨e, he⟩ | ⟨user, db', hs, he⟩
      · rw [he]
        exact .of_eq rfl
      · rw [he]
        have hrows : (db.setStatus userId .DELETED false).2.rows .refreshTokens =
            db.rows .refreshTokens := Database.setStatus_rows (by decide)
        rw [hs] at hrows
        exact .updateMany (congrArg _ hrows)
    | _ => simp [writes] at hw
  · exact .of_eq (effect_rows hw)

theorem Op.effect_hardDelete (source : TenantUser) (target : Option ℕ) (now : ℕ) :
    ((hardDelete source target now).effect cfg outside db).2 = db ∨
      ((hardDelete source target now).effect cfg outside db).2 = db.removeMember source := by
  simp only [effect, Database.hardDelete]
  repeat' split
  all_goals first | exact .inl rfl | exact .inr rfl

theorem Op.effect_tokens (h : ∀ a hash exp, op ≠ createRefreshToken a hash exp) :
    TokensEvolve db (op.effect cfg outside db).2 := by
  by_cases hdelete : ∀ source target now, op ≠ hardDelete source target now
  · exact (effect_tokensUpdated h hdelete).evolve
  · obtain ⟨source, target, now, rfl⟩ : ∃ source target now, op = hardDelete source target now := by
      simpa using hdelete
    rcases effect_hardDelete source target now with he | he
    · rw [he]
      exact (TokensUpdated.of_eq rfl).evolve
    · rw [he]
      exact .filter rfl

theorem Database.createRefreshToken_cases (db : Database) (a : ℕ) (hash : String) (exp : ℕ) :
    (∃ e, db.createRefreshToken a hash exp = (.error e, db)) ∨
    (∃ account, db.account? a = some account) ∧
      (∀ token ∈ db.refreshTokens, token.tokenHash ≠ hash) ∧
      db.createRefreshToken a hash exp = (.ok db.nextId, { db with
        refreshTokens := db.refreshTokens ++
          [{ id := db.nextId, authAccountId := a, tokenHash := hash, expiresAt := exp }]
        nextId := db.nextId + 1 }) := by
  unfold createRefreshToken
  split
  · exact .inl ⟨_, rfl⟩
  · rename_i haccount
    split
    · exact .inl ⟨_, rfl⟩
    · rename_i hhash
      have hsome : (db.account? a).isSome = true :=
        Option.isSome_iff_ne_none.mpr (by simpa using haccount)
      exact .inr ⟨Option.isSome_iff_exists.mp hsome, by simpa using hhash, rfl⟩

/-- The account whose every session an operation revokes, the reuse of a token apart. -/
def Op.revokesAccount : Op → Option ℕ
  | resetPassword _ a _ _ | forceResetPassword a _ _ | lockUser _ a _ | softDelete _ a _
  | deactivate _ _ a _ | revokeAllSessions a none _ => some a
  | _ => none

/-- The operation has done its writes: `resetPassword` answers `none` when it was too
late. -/
def Op.commits : (op : Op) → Except ServiceError op.Res → Bool
  | resetPassword _ _ _ _, .ok none => false
  | _, .ok _ => true
  | _, .error _ => false

theorem Op.effect_revokesAccount {a : ℕ} (h : op.revokesAccount = some a)
    (hc : op.commits (op.effect cfg outside db).1 = true) :
    AllRevoked a (op.effect cfg outside db).2 := by
  cases op with
  | revokeAllSessions b kept now =>
    cases kept with
    | none =>
      cases h
      intro token hmem htoken
      obtain ⟨old, hold, rfl⟩ := mem_updateMany.mp hmem
      split
      · exact Option.some_ne_none now
      · rename_i hlive
        rw [if_neg hlive] at htoken
        simpa [htoken] using hlive
    | some id => cases h
  | forceResetPassword b hash now =>
    cases h
    simp only [effect, Database.forceResetPassword, Database.ifAccount] at hc ⊢
    split at hc
    · cases hc
    · rename_i hne
      rw [if_neg hne]
      exact Database.revokeLiveSessions_all _ a now
  | resetPassword otp b hash now =>
    cases h
    simp only [effect, Database.resetPassword, Database.ifAccount] at hc ⊢
    split at hc
    · cases hc
    · rename_i hne
      rw [if_neg hne]
      split at hc
      · cases hc
      · rename_i hne
        rw [if_neg hne]
        exact Database.revokeLiveSessions_all _ a now
  | deactivate actorType userId b now =>
    cases h
    simp only [effect] at hc ⊢
    rcases db.deactivate_cases actorType userId a now with ⟨e, he⟩ | ⟨db', -, he⟩
    · rw [he] at hc
      cases hc
    · rw [he]
      exact db'.revokeLiveSessions_all a now
  | lockUser userId b now =>
    cases h
    simp only [effect] at hc ⊢
    rcases db.setStatusAndRevoke_cases userId .LOCKED a now with ⟨e, he⟩ | ⟨user, db', -, he⟩
    · rw [he] at hc
      cases hc
    · rw [he]
      exact db'.revokeLiveSessions_all a now
  | softDelete userId b now =>
    cases h
    rcases db.softDelete_cases cfg outside userId a now with ⟨e, he⟩ | ⟨user, db', -, he⟩
    · rw [he] at hc
      cases hc
    · rw [he]
      exact db'.revokeLiveSessions_all a now
  | _ => cases h

theorem Op.perform_tokens (h : ∀ a hash exp, op ≠ createRefreshToken a hash exp) :
    TokensEvolve db (op.perform cfg outside db).2 := by
  rcases perform_cases cfg outside op db with ⟨hdb, -⟩ | heffect
  · rw [hdb]
    exact (TokensUpdated.of_eq rfl).evolve
  · rw [heffect]
    exact effect_tokens h

theorem Op.perform_createRefreshToken (cfg : Config) (outside : Outside) (db : Database) (a : ℕ)
    (hash : String) (exp : ℕ) :
    (∃ e, (createRefreshToken a hash exp).perform cfg outside db = (.error e, db)) ∨
    (∃ account, db.account? a = some account) ∧ (∀ token ∈ db.refreshTokens, token.tokenHash ≠ hash) ∧
      (createRefreshToken a hash exp).perform cfg outside db = (.ok db.nextId, { db with
        refreshTokens := db.refreshTokens ++
          [{ id := db.nextId, authAccountId := a, tokenHash := hash, expiresAt := exp }]
        nextId := db.nextId + 1 }) := by
  unfold perform
  split
  · exact .inl ⟨_, rfl⟩
  · exact db.createRefreshToken_cases a hash exp

/-- An operation inserts no token, or it is the insert and goes through. -/
theorem Op.perform_tokens_cases (cfg : Config) (outside : Outside) (op : Op) (db : Database) :
    TokensEvolve db (op.perform cfg outside db).2 ∨
    ∃ a hash exp, op = createRefreshToken a hash exp ∧ (∃ account, db.account? a = some account) ∧
      (∀ token ∈ db.refreshTokens, token.tokenHash ≠ hash) ∧
      (op.perform cfg outside db).2 = { db with
        refreshTokens := db.refreshTokens ++
          [{ id := db.nextId, authAccountId := a, tokenHash := hash, expiresAt := exp }]
        nextId := db.nextId + 1 } := by
  by_cases hop : ∀ a hash exp, op ≠ createRefreshToken a hash exp
  · exact .inl (perform_tokens hop)
  · obtain ⟨a, hash, exp, rfl⟩ : ∃ a hash exp, op = createRefreshToken a hash exp := by
      simpa using hop
    rcases perform_createRefreshToken cfg outside db a hash exp with ⟨e, he⟩ | ⟨haccount, hfresh, he⟩
    · rw [he]
      exact .inl (TokensUpdated.of_eq rfl).evolve
    · exact .inr ⟨a, hash, exp, rfl, haccount, hfresh, congrArg Prod.snd he⟩

theorem Op.perform_revokesAccount {a : ℕ} (h : op.revokesAccount = some a)
    (hc : op.commits (op.perform cfg outside db).1 = true) :
    AllRevoked a (op.perform cfg outside db).2 := by
  rcases perform_cases cfg outside op db with ⟨-, e, he⟩ | heffect
  · rw [he] at hc
    cases op <;> cases hc
  · rw [heffect] at hc ⊢
    exact effect_revokesAccount h hc

end

end Flexi.Accounts
