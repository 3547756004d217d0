import Flexi.Accounts.Effects

/-!
# Ids that are given out once

Rows are numbered by one counter, so that an id names the same row as long as it is
there, and no row after it is gone.
-/

namespace Flexi.Accounts
open Flexi.Library

/-- What the primary keys, the unique token hashes and the foreign keys of the schema
say about the accounts and their refresh tokens. -/
structure Database.Keyed (db : Database) : Prop where
  accountIds : ∀ account ∈ db.authAccounts, account.id < db.nextId
  hashes : (db.refreshTokens.map (·.tokenHash)).Nodup
  tokenIds : ∀ token ∈ db.refreshTokens, token.id < db.nextId
  tokenOwners : ∀ token ∈ db.refreshTokens, token.authAccountId < db.nextId
  owner : ∀ token ∈ db.refreshTokens, ∀ other ∈ db.refreshTokens, token.id = other.id →
    token.authAccountId = other.authAccountId

/-- Accounts are only added under new ids. -/
structure AccountsEvolve (db db' : Database) : Prop where
  nextId : db.nextId ≤ db'.nextId
  ids : ∀ account ∈ db'.authAccounts, (∃ old ∈ db.authAccounts, old.id = account.id) ∨
    db.nextId ≤ account.id ∧ account.id < db'.nextId

namespace AccountsEvolve

variable {db db' db'' : Database}

theorem of_eq (h : db'.authAccounts = db.authAccounts) (hn : db.nextId ≤ db'.nextId) :
    AccountsEvolve db db' :=
  ⟨hn, fun account hmem => .inl ⟨account, h ▸ hmem, rfl⟩⟩

theorem trans (h : AccountsEvolve db db') (h' : AccountsEvolve db' db'') :
    AccountsEvolve db db'' := by
  refine ⟨h.nextId.trans h'.nextId, fun account hmem => ?_⟩
  have h₁ := h.nextId
  have h₂ := h'.nextId
  rcases h'.ids account hmem with ⟨mid, hmid, hid⟩ | hnew
  · rcases h.ids mid hmid with ⟨old, hold, hid'⟩ | hnew
    · exact .inl ⟨old, hold, hid'.trans hid⟩
    · exact .inr (by omega)
  · exact .inr (by omega)

theorem updateMany {p : AuthAccount → Bool} {f : AuthAccount → AuthAccount}
    (h : db'.authAccounts = Library.updateMany p f db.authAccounts) (hf : ∀ a, (f a).id = a.id)
    (hn : db.nextId ≤ db'.nextId) : AccountsEvolve db db' := by
  refine ⟨hn, fun account hmem => ?_⟩
  rw [h] at hmem
  obtain ⟨old, hold, rfl⟩ := mem_updateMany.mp hmem
  refine .inl ⟨old, hold, ?_⟩
  split
  · exact (hf old).symm
  · rfl

theorem createMember (db : Database) (account : AuthAccount) (user : TenantUser) :
    AccountsEvolve db (db.createMember account user).2 := by
  refine ⟨Nat.le_add_right _ 2, fun row hmem => ?_⟩
  rcases List.mem_append.mp hmem with hold | hnew
  · exact .inl ⟨row, hold, rfl⟩
  · cases List.mem_singleton.mp hnew
    exact .inr ⟨le_rfl, Nat.lt_add_of_pos_right (by omega)⟩

end AccountsEvolve

section
variable {cfg : Config} {outside : Outside} {db : Database} {op : Op}

theorem Database.inviteMember_accounts {db : Database} {tenantId : String}
    {roleId invitedById : Option ℕ} {p : PreparedInvite} {x : UserInvite × Database}
    (h : db.inviteMember cfg tenantId roleId invitedById p = some x) : AccountsEvolve db x.2 := by
  unfold inviteMember at h
  split at h
  · cases h
  · cases h
    exact (AccountsEvolve.createMember db _ _).trans (.of_eq rfl (Nat.le_succ _))

theorem Database.setActorActive_nextId (db : Database) (actorType : ActorType) (userId : ℕ) (isActive : Bool) :
    (db.setActorActive actorType userId isActive).2.nextId = db.nextId := by
  rcases db.setActorActive_cases actorType userId isActive with ⟨e, he⟩ | ⟨-, he⟩ | ⟨-, he⟩
  · rw [he]
  · rw [he]
    rfl
  · rw [he]

theorem Database.setStatus_nextId (db : Database) (userId : ℕ) (status : TenantUserStatus) (isActive : Bool) :
    (db.setStatus userId status isActive).2.nextId = db.nextId := by
  rcases db.setStatus_cases userId status isActive with he | ⟨user, -, he⟩
  · rw [he]
  · rw [he]
    rfl

theorem Op.effect_nextId : db.nextId ≤ (op.effect cfg outside db).2.nextId := by
  cases op with
  | createInvites tenantId roleId prepared invitedById =>
    exact Database.createInvites_keeps (P := fun d => db.nextId ≤ d.nextId)
      (fun d p x hd hx => hd.trans (Database.inviteMember_accounts hx).nextId) le_rfl
  | activate actorType userId => exact (db.setActorActive_nextId _ _ _).ge
  | approveUser userId | unlockUser userId => exact (db.setStatus_nextId _ _ _).ge
  | deactivate actorType userId authAccountId now =>
    have hn := db.setActorActive_nextId actorType userId false
    rw [effect]
    rcases db.deactivate_cases actorType userId authAccountId now with ⟨e, he⟩ | ⟨db', ha, he⟩
    · rw [he]
    · rw [he]
      rw [ha] at hn
      exact hn.ge
  | lockUser userId authAccountId now =>
    have hn := db.setStatus_nextId userId .LOCKED false
    rw [effect]
    rcases db.setStatusAndRevoke_cases userId .LOCKED authAccountId now with
      ⟨e, he⟩ | ⟨user, db', hs, he⟩
    · rw [he]
    · rw [he]
      rw [hs] at hn
      exact hn.ge
  | softDelete userId authAccountId now =>
    have hn := db.setStatus_nextId userId .DELETED false
    rcases db.softDelete_cases cfg outside userId authAccountId now with
      ⟨e, he⟩ | ⟨user, db', hs, he⟩
    · rw [he]
    · rw [he]
      rw [hs] at hn
      exact hn.ge
  | createRefreshToken | revokeToken | issueOtp | resetPassword | changePassword
  | forceResetPassword | updateTenantUser | updateSystemUser | directCreate | register
  | resendInvite | revokeInvite | redeemInvite | hardDelete =>
    simp only [effect, Database.createRefreshToken, Database.issueOtp, Database.resetPassword,
      Database.changePassword, Database.forceResetPassword, Database.updateTenantUser,
      Database.updateSystemUser, Database.directCreate, Database.register, Database.resendInvite,
      Database.revokeInvite, Database.redeemInvite, Database.hardDelete, Database.ifMember,
      Database.ifAccount]
    repeat' split
    all_goals first | exact le_rfl | exact Nat.le_add_right _ _
  | _ => exact le_rfl

theorem Op.effect_accounts : AccountsEvolve db (op.effect cfg outside db).2 := by
  cases op with
  | changePassword a hash kept now =>
    exact Database.ifAccount_keeps (.of_eq rfl le_rfl) fun _ _ => .updateMany rfl (fun _ => rfl) le_rfl
  | forceResetPassword a hash now =>
    exact Database.ifAccount_keeps (.of_eq rfl le_rfl) fun _ _ => .updateMany rfl (fun _ => rfl) le_rfl
  | resetPassword otp a hash now =>
    rw [effect, Database.resetPassword]
    split
    · exact .of_eq rfl le_rfl
    · exact Database.ifAccount_keeps (.of_eq rfl le_rfl) fun _ _ =>
        .updateMany rfl (fun _ => rfl) le_rfl
  | directCreate tenantId email fullName hash roleId =>
    rw [effect, Database.directCreate]
    split
    · exact .of_eq rfl le_rfl
    · exact .createMember db _ _
  | register tenantId email fullName hash requiresApproval roleId =>
    rw [effect, Database.register]
    split
    · exact .of_eq rfl le_rfl
    · exact .createMember db _ _
  | createInvites tenantId roleId prepared invitedById =>
    exact Database.createInvites_keeps (P := AccountsEvolve db)
      (fun d p x hd hx => hd.trans (Database.inviteMember_accounts hx)) (.of_eq rfl le_rfl)
  | redeemInvite invite user hash fullName now =>
    rw [effect, Database.redeemInvite]
    split
    · exact .of_eq rfl le_rfl
    · refine Database.ifAccount_keeps (.of_eq rfl le_rfl) fun _ _ => ?_
      refine Database.ifMember_keeps (.of_eq rfl le_rfl) fun _ _ => ?_
      exact .updateMany rfl (fun _ => rfl) le_rfl
  | hardDelete source target now =>
    rcases effect_hardDelete source target now with he | he
    · rw [he]
      exact .of_eq rfl le_rfl
    · rw [he]
      exact ⟨le_rfl, fun account hmem => .inl ⟨account, (List.mem_filter.mp hmem).1, rfl⟩⟩
  | _ => exact .of_eq (effect_rows (t := .authAccounts) (by simp [writes])) effect_nextId

theorem Op.perform_accounts : AccountsEvolve db (op.perform cfg outside db).2 := by
  rcases perform_cases cfg outside op db with ⟨hdb, -⟩ | heffect
  · rw [hdb]
    exact .of_eq rfl le_rfl
  · rw [heffect]
    exact effect_accounts

theorem Database.Keyed.of_evolve {db' : Database} (h : db.Keyed) (ht : TokensEvolve db db')
    (ha : AccountsEvolve db db') : db'.Keyed where
  accountIds := by
    intro account hmem
    rcases ha.ids account hmem with ⟨old, hold, hid⟩ | hnew
    · have hlt := h.accountIds old hold
      have hn := ha.nextId
      omega
    · exact hnew.2
  hashes := ht.hashes.nodup h.hashes
  tokenIds := by
    intro token hmem
    obtain ⟨old, hold, he⟩ := ht.rows token hmem
    rw [he.id]
    exact (h.tokenIds old hold).trans_le ha.nextId
  tokenOwners := by
    intro token hmem
    obtain ⟨old, hold, he⟩ := ht.rows token hmem
    rw [he.authAccountId]
    exact (h.tokenOwners old hold).trans_le ha.nextId
  owner := by
    intro token hmem other hother hid
    obtain ⟨old, hold, he⟩ := ht.rows token hmem
    obtain ⟨old', hold', he'⟩ := ht.rows other hother
    rw [he.authAccountId, he'.authAccountId]
    exact h.owner old hold old' hold' (by rw [← he.id, ← he'.id, hid])

theorem Database.Keyed.createRefreshToken (h : db.Keyed) {a : ℕ} {hash : String} {exp : ℕ}
    (ha : a < db.nextId) (hfresh : ∀ token ∈ db.refreshTokens, token.tokenHash ≠ hash) :
    Database.Keyed { db with
      refreshTokens := db.refreshTokens ++
        [{ id := db.nextId, authAccountId := a, tokenHash := hash, expiresAt := exp }]
      nextId := db.nextId + 1 } where
  accountIds account hmem := Nat.lt_succ_of_lt (h.accountIds account hmem)
  hashes := by
    rw [List.map_append, List.nodup_append]
    refine ⟨h.hashes, List.nodup_singleton _, ?_⟩
    intro x hx y hy hxy
    obtain ⟨token, hmem, rfl⟩ := List.mem_map.mp hx
    cases List.mem_singleton.mp hy
    exact hfresh token hmem hxy
  tokenIds := by
    intro token hmem
    rcases List.mem_append.mp hmem with hold | hnew
    · exact Nat.lt_succ_of_lt (h.tokenIds token hold)
    · cases List.mem_singleton.mp hnew
      exact Nat.lt_succ_self _
  tokenOwners := by
    intro token hmem
    rcases List.mem_append.mp hmem with hold | hnew
    · exact Nat.lt_succ_of_lt (h.tokenOwners token hold)
    · cases List.mem_singleton.mp hnew
      exact Nat.lt_succ_of_lt ha
  owner := by
    intro token hmem other hother hid
    rcases List.mem_append.mp hmem with hold | hnew
    · rcases List.mem_append.mp hother with hold' | hnew'
      · exact h.owner token hold other hold' hid
      · cases List.mem_singleton.mp hnew'
        exact absurd hid (h.tokenIds token hold).ne
    · cases List.mem_singleton.mp hnew
      rcases List.mem_append.mp hother with hold' | hnew'
      · exact absurd hid.symm (h.tokenIds other hold').ne
      · cases List.mem_singleton.mp hnew'
        rfl

theorem Database.account?_some {id : ℕ} {account : AuthAccount} (h : db.account? id = some account) :
    account ∈ db.authAccounts ∧ account.id = id :=
  ⟨List.mem_of_find?_eq_some h, by simpa using List.find?_some h⟩

theorem Database.Keyed.perform (h : db.Keyed) : (op.perform cfg outside db).2.Keyed := by
  rcases Op.perform_tokens_cases cfg outside op db with
    ht | ⟨a, hash, exp, -, ⟨account, haccount⟩, hfresh, he⟩
  · exact h.of_evolve ht Op.perform_accounts
  · obtain ⟨hmem, hid⟩ := Database.account?_some haccount
    have hlt : a < db.nextId := hid ▸ h.accountIds account hmem
    rw [he]
    exact h.createRefreshToken hlt hfresh

/-! ### Accounts that are gone -/

/-- No account has this id, nor will one have it again. -/
structure Database.Gone (a : ℕ) (db : Database) : Prop where
  given : a < db.nextId
  account : ∀ account ∈ db.authAccounts, account.id ≠ a
  tokens : ∀ token ∈ db.refreshTokens, token.authAccountId ≠ a

theorem Database.Gone.allRevoked {a : ℕ} (h : db.Gone a) : AllRevoked a db :=
  fun token hmem htoken => absurd htoken (h.tokens token hmem)

theorem Database.Gone.perform {a : ℕ} (h : db.Gone a) : (op.perform cfg outside db).2.Gone a := by
  have haccounts : AccountsEvolve db (op.perform cfg outside db).2 := Op.perform_accounts
  refine ⟨h.given.trans_le haccounts.nextId, fun account hmem hid => ?_, fun token hmem hid => ?_⟩
  · rcases haccounts.ids account hmem with ⟨old, hold, hold'⟩ | hnew
    · exact h.account old hold (hold'.trans hid)
    · have hlt := h.given
      omega
  · rcases Op.perform_tokens_cases cfg outside op db with
      ht | ⟨b, hash, exp, -, ⟨account, haccount⟩, -, he⟩
    · obtain ⟨old, hold, hevolves⟩ := ht.rows token hmem
      exact h.tokens old hold (hevolves.authAccountId ▸ hid)
    · rw [he] at hmem
      rcases List.mem_append.mp hmem with hold | hnew
      · exact h.tokens token hold hid
      · cases List.mem_singleton.mp hnew
        obtain ⟨hmem', hid'⟩ := Database.account?_some haccount
        exact h.account account hmem' (hid'.trans hid)

theorem Database.removeMember_gone {source : TenantUser} (h : source.authAccountId < db.nextId) :
    (db.removeMember source).Gone source.authAccountId := by
  refine ⟨h, fun account hmem => ?_, fun token hmem => ?_⟩
  · simpa using (List.mem_filter.mp hmem).2
  · simpa using (List.mem_filter.mp hmem).2

/-- A token stays, unless its account goes with it. -/
theorem Op.perform_token_kept (cfg : Config) (outside : Outside) (op : Op) (h : db.Keyed) {old : RefreshToken} (hold : old ∈ db.refreshTokens) :
    (∃ new ∈ (op.perform cfg outside db).2.refreshTokens, old.Evolves new) ∨
      (op.perform cfg outside db).2.Gone old.authAccountId := by
  rcases perform_cases cfg outside op db with ⟨hdb, -⟩ | heffect
  · rw [hdb]
    exact .inl ⟨old, hold, .refl old⟩
  rw [heffect]
  by_cases hcreate : ∃ a hash exp, op = .createRefreshToken a hash exp
  · obtain ⟨a, hash, exp, rfl⟩ := hcreate
    rcases db.createRefreshToken_cases a hash exp with ⟨e, he⟩ | ⟨-, -, he⟩
    · exact .inl ⟨old, by rwa [effect, he], .refl old⟩
    · exact .inl ⟨old, by rw [effect, he]; exact List.mem_append_left _ hold, .refl old⟩
  by_cases hdelete : ∃ source target now, op = .hardDelete source target now
  · obtain ⟨source, target, now, rfl⟩ := hdelete
    rcases effect_hardDelete source target now with he | he
    · rw [he]
      exact .inl ⟨old, hold, .refl old⟩
    · rw [he]
      by_cases hown : old.authAccountId = source.authAccountId
      · have hlt : source.authAccountId < db.nextId := hown ▸ h.tokenOwners old hold
        exact .inr (hown ▸ Database.removeMember_gone hlt)
      · exact .inl ⟨old, List.mem_filter.mpr ⟨hold, by simpa using hown⟩, .refl old⟩
  · have hupdated : TokensUpdated db (op.effect cfg outside db).2 :=
      effect_tokensUpdated (by simpa using hcreate) (by simpa using hdelete)
    exact .inl (hupdated.kept hold)

/-! ### Owners -/

/-- A row that was read: whatever row has its id is its account's. -/
structure Database.Owner (token : RefreshToken) (db : Database) : Prop where
  given : token.id < db.nextId
  owner : ∀ other ∈ db.refreshTokens, other.id = token.id →
    other.authAccountId = token.authAccountId

theorem Database.Keyed.owner_of_mem (h : db.Keyed) {token : RefreshToken}
    (hmem : token ∈ db.refreshTokens) : db.Owner token :=
  ⟨h.tokenIds token hmem, fun other hother hid => h.owner other hother token hmem hid⟩

theorem Database.Owner.perform {token : RefreshToken} (h : db.Owner token) :
    (op.perform cfg outside db).2.Owner token := by
  have hn : db.nextId ≤ (op.perform cfg outside db).2.nextId := Op.perform_accounts.nextId
  refine ⟨h.given.trans_le hn, fun other hmem hid => ?_⟩
  rcases Op.perform_tokens_cases cfg outside op db with ht | ⟨b, hash, exp, -, -, -, he⟩
  · obtain ⟨old, hold, hevolves⟩ := ht.rows other hmem
    rw [hevolves.authAccountId]
    exact h.owner old hold (hevolves.id ▸ hid)
  · rw [he] at hmem
    rcases List.mem_append.mp hmem with hold | hnew
    · exact h.owner other hold hid
    · cases List.mem_singleton.mp hnew
      exact absurd hid h.given.ne'

end

end Flexi.Accounts
