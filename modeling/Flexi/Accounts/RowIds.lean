import Flexi.Accounts.AccountRows
import Flexi.Accounts.InviteRows

/-!
# The ids of members and accounts

Every operation keeps the rows of `TenantUser` and of `AuthAccount` under ids of their
own.
-/

namespace Flexi.Accounts
open Flexi.Library

section
variable {cfg : Config} {outside : Outside} {db db' : Database} {op : Op}

theorem Database.createMember_numbered {account : AuthAccount} {user : TenantUser}
    (hmembers : Numbered TenantUser.id db.tenantUsers db.nextId)
    (haccounts : Numbered AuthAccount.id db.authAccounts db.nextId) :
    Numbered TenantUser.id (db.createMember account user).2.tenantUsers (db.nextId + 2) ∧
      Numbered AuthAccount.id (db.createMember account user).2.authAccounts (db.nextId + 2) := by
  constructor
  · apply hmembers.append
    · exact Nat.le_succ _
    · exact Nat.lt_succ_self _
  · apply haccounts.append
    · exact le_rfl
    · exact Nat.lt_add_of_pos_right (by omega)

/-- The addresses of the accounts that an operation creates. -/
def Op.Registers (A : String → Prop) : Op → Prop
  | directCreate _ email _ _ _ | register _ email _ _ _ _ => A email
  | createInvites _ _ prepared _ => ∀ p ∈ prepared, A p.email
  | _ => True

theorem Op.registers_any (op : Op) : op.Registers fun _ => True := by
  cases op with
  | createInvites => exact fun _ _ => trivial
  | _ => trivial

/-- Kept by everything that statements do to members and accounts, as long as the addresses
of new accounts are in `A`. -/
structure Database.KeptByRows (A : String → Prop) (P : Database → Prop) : Prop where
  of_eq : ∀ {db db' : Database}, P db → db'.tenantUsers = db.tenantUsers →
    db'.authAccounts = db.authAccounts → db.nextId ≤ db'.nextId → P db'
  updateMember : ∀ {db : Database} {id : ℕ} {f : TenantUser → TenantUser}, P db →
    (∀ user, (f user).id = user.id ∧ (f user).authAccountId = user.authAccountId) →
    P (db.updateMember id f)
  setPassword : ∀ {db : Database} {a : ℕ} {hash : String} {must : Bool}, P db →
    P (db.setPassword a hash must)
  createMember : ∀ {db : Database} (account : AuthAccount) (user : TenantUser), A account.email → P db →
    P (db.createMember account user).2
  removeMember : ∀ {db : Database} (user : TenantUser), P db → P (db.removeMember user)

namespace Database.KeptByRows

variable {A : String → Prop} {P : Database → Prop}

theorem createInvite (hP : KeptByRows A P) (h : P db) (invite : UserInvite) :
    P (db.createInvite invite).2 :=
  hP.of_eq h rfl rfl (Nat.le_succ _)

theorem retireInvites (hP : KeptByRows A P) (h : P db) (p : UserInvite → Bool) (now : ℕ) :
    P (db.retireInvites p now) :=
  hP.of_eq h rfl rfl le_rfl

theorem revokeTokens (hP : KeptByRows A P) (h : P db) (p : RefreshToken → Bool) (now : ℕ) :
    P (db.revokeTokens p now).2 :=
  hP.of_eq h rfl rfl le_rfl

theorem setActorActive (hP : KeptByRows A P) (h : P db) (actorType : ActorType) (userId : ℕ) (isActive : Bool) :
    P (db.setActorActive actorType userId isActive).2 := by
  rcases db.setActorActive_cases actorType userId isActive with ⟨e, he⟩ | ⟨-, he⟩ | ⟨-, he⟩
  · rw [he]
    exact h
  · rw [he]
    exact hP.updateMember h fun _ => ⟨rfl, rfl⟩
  · rw [he]
    exact hP.of_eq h rfl rfl le_rfl

theorem setStatus (hP : KeptByRows A P) (h : P db) (userId : ℕ) (status : TenantUserStatus) (isActive : Bool) :
    P (db.setStatus userId status isActive).2 := by
  rcases db.setStatus_cases userId status isActive with he | ⟨user, -, he⟩
  · rw [he]
    exact h
  · rw [he]
    exact hP.updateMember h fun _ => ⟨rfl, rfl⟩

theorem effect (hP : KeptByRows A P) (hA : op.Registers A) (h : P db) : P (op.effect cfg outside db).2 := by
  have hother (hmembers : Table.tenantUsers ∉ op.writes) (haccounts : Table.authAccounts ∉ op.writes) :
      P (op.effect cfg outside db).2 :=
    hP.of_eq h (Op.effect_rows hmembers) (Op.effect_rows haccounts) Op.effect_nextId
  cases op with
  | changePassword a hash kept now =>
    refine ifAccount_keeps (P := P) h fun _ _ => ?_
    exact hP.revokeTokens (hP.setPassword h) _ _
  | forceResetPassword a hash now =>
    refine ifAccount_keeps (P := P) h fun _ _ => ?_
    exact hP.revokeTokens (hP.setPassword h) _ _
  | resetPassword otp a hash now =>
    rw [Op.effect, Database.resetPassword]
    split
    · exact h
    · refine ifAccount_keeps (P := P) h fun _ _ => ?_
      have hconsumed : P (db.consumeOtps (fun row => row.id = otp.id) now) :=
        hP.of_eq h rfl rfl le_rfl
      exact hP.revokeTokens (hP.setPassword hconsumed) _ _
  | activate actorType userId => exact hP.setActorActive h actorType userId true
  | deactivate actorType userId a now =>
    rw [Op.effect]
    rcases db.deactivate_cases actorType userId a now with ⟨e, he⟩ | ⟨db', hactive, he⟩
    · rw [he]
      exact h
    · rw [he]
      have hset := hP.setActorActive h actorType userId false
      rw [hactive] at hset
      exact hP.revokeTokens hset _ _
  | approveUser userId | unlockUser userId => exact hP.setStatus h userId .ACTIVE true
  | lockUser userId a now =>
    rw [Op.effect]
    rcases db.setStatusAndRevoke_cases userId .LOCKED a now with ⟨e, he⟩ | ⟨user, db', hstatus, he⟩
    · rw [he]
      exact h
    · rw [he]
      have hset := hP.setStatus h userId .LOCKED false
      rw [hstatus] at hset
      exact hP.revokeTokens hset _ _
  | softDelete userId a now =>
    rcases db.softDelete_cases cfg outside userId a now with ⟨e, he⟩ | ⟨user, db', hstatus, he⟩
    · rw [he]
      exact h
    · rw [he]
      have hset := hP.setStatus h userId .DELETED false
      rw [hstatus] at hset
      exact hP.revokeTokens hset _ _
  | updateTenantUser userId name roles =>
    refine ifMember_keeps (P := P) h fun _ _ => ?_
    exact hP.updateMember h fun _ => ⟨rfl, rfl⟩
  | directCreate tenantId email fullName hash roleId =>
    rw [Op.effect, Database.directCreate]
    split
    · exact h
    · exact hP.createMember _ _ hA h
  | register tenantId email fullName hash requiresApproval roleId =>
    rw [Op.effect, Database.register]
    split
    · exact h
    · exact hP.createMember _ _ hA h
  | createInvites tenantId roleId prepared invitedById =>
    refine createInvites_keeps_of_mem (P := P) (fun d p x hp hd hx => ?_) h
    unfold inviteMember at hx
    split at hx
    · cases hx
    · cases hx
      exact hP.createInvite (hP.createMember _ _ (hA p hp) hd) _
  | resendInvite existing tokenHash expiresAt invitedById now =>
    rw [Op.effect, Database.resendInvite]
    split
    · exact h
    · exact hP.createInvite (hP.retireInvites h _ _) _
  | revokeInvite existing now =>
    rw [Op.effect, Database.revokeInvite]
    split
    · exact h
    · cases existing.tenantUserId with
      | none => exact hP.retireInvites h _ _
      | some userId =>
        refine ifMember_keeps (P := P) h fun _ _ => ?_
        have hupdate : P ((db.retireInvites (·.id = existing.id) now).updateMember userId fun user =>
            { user with status := .DELETED, isActive := false }) :=
          hP.updateMember (hP.retireInvites h _ _) fun _ => ⟨rfl, rfl⟩
        exact hP.retireInvites hupdate _ _
  | redeemInvite invite user hash fullName now =>
    rw [Op.effect, Database.redeemInvite]
    split
    · exact h
    · refine ifAccount_keeps (P := P) h fun _ _ => ?_
      refine ifMember_keeps (P := P) h fun _ _ => ?_
      have hused : P { db with userInvites := Library.updateMany (·.id = invite.id) (fun row =>
          { row with status := .USED, usedAt := some now }) db.userInvites } :=
        hP.of_eq h rfl rfl le_rfl
      apply hP.retireInvites
      apply hP.updateMember (hP.setPassword hused)
      exact fun _ => ⟨rfl, rfl⟩
  | hardDelete source target now =>
    rcases Op.effect_hardDelete source target now with he | he
    · rw [he]
      exact h
    · rw [he]
      exact hP.removeMember source h
  | _ => exact hother (by simp [Op.writes]) (by simp [Op.writes])

theorem perform (hP : KeptByRows A P) (hA : op.Registers A) (h : P db) : P (op.perform cfg outside db).2 := by
  rcases Op.perform_cases cfg outside op db with ⟨hdb, -⟩ | heffect
  · rw [hdb]
    exact h
  · rw [heffect]
    exact hP.effect hA h

end Database.KeptByRows

/-- Members and accounts under ids of their own. -/
structure Database.Identified (db : Database) : Prop where
  members : Numbered TenantUser.id db.tenantUsers db.nextId
  accounts : Numbered AuthAccount.id db.authAccounts db.nextId

namespace Database.Identified

theorem of_eq (h : db.Identified) (hmembers : db'.tenantUsers = db.tenantUsers)
    (haccounts : db'.authAccounts = db.authAccounts) (hn : db.nextId ≤ db'.nextId) : db'.Identified where
  members := h.members.of_ids (by rw [hmembers]) hn
  accounts := h.accounts.of_ids (by rw [haccounts]) hn

theorem updateMember (h : db.Identified) {id : ℕ} {f : TenantUser → TenantUser}
    (hf : ∀ user, (f user).id = user.id) : (db.updateMember id f).Identified where
  members := h.members.updateMany hf le_rfl
  accounts := h.accounts

theorem createMember (h : db.Identified) (account : AuthAccount) (user : TenantUser) :
    (db.createMember account user).2.Identified :=
  ⟨(createMember_numbered h.members h.accounts).1, (createMember_numbered h.members h.accounts).2⟩

theorem createInvite (h : db.Identified) (invite : UserInvite) :
    (db.createInvite invite).2.Identified :=
  h.of_eq rfl rfl (Nat.le_succ _)

theorem kept : KeptByRows (fun _ => True) Database.Identified where
  of_eq := of_eq
  updateMember h hf := h.updateMember fun user => (hf user).1
  setPassword h := ⟨h.members, h.accounts.updateMany (fun _ => rfl) le_rfl⟩
  createMember account user _ h := h.createMember account user
  removeMember _ h := ⟨h.members.filter _ le_rfl, h.accounts.filter _ le_rfl⟩

theorem perform (h : db.Identified) : (op.perform cfg outside db).2.Identified :=
  kept.perform op.registers_any h

end Database.Identified

theorem Op.Rewrites.owner {old new : TenantUser} (h : op.Rewrites old new) :
    new.tenantId = old.tenantId ∧ new.authAccountId = old.authAccountId := by
  cases op with
  | deactivate actorType | activate actorType =>
    cases actorType with
    | TENANT => rw [h.2]; exact ⟨rfl, rfl⟩
    | SYSTEM => exact h.elim
  | approveUser | unlockUser | lockUser | softDelete | revokeInvite | updateTenantUser
  | redeemInvite => rw [h.2]; exact ⟨rfl, rfl⟩
  | _ => exact h.elim

end

end Flexi.Accounts
