import Flexi.Accounts.Keys

/-!
# What an operation can do to a member

Every row of `TenantUser` after an operation is a row from before, one that the
operation has rewritten, or a new one.
-/

namespace Flexi.Accounts
open Flexi.Library

/-- The row that an operation makes of an earlier one. -/
def Op.Rewrites : Op → TenantUser → TenantUser → Prop
  | deactivate .TENANT userId _ _, old, new => old.id = userId ∧ new = { old with isActive := false }
  | activate .TENANT userId, old, new => old.id = userId ∧ new = { old with isActive := true }
  | approveUser userId, old, new | unlockUser userId, old, new =>
    old.id = userId ∧ new = { old with status := .ACTIVE, isActive := true }
  | lockUser userId _ _, old, new =>
    old.id = userId ∧ new = { old with status := .LOCKED, isActive := false }
  | softDelete userId _ _, old, new =>
    old.id = userId ∧ new = { old with status := .DELETED, isActive := false }
  | revokeInvite existing _, old, new =>
    existing.tenantUserId = some old.id ∧ new = { old with status := .DELETED, isActive := false }
  | updateTenantUser userId name roles, old, new => old.id = userId ∧
    new = { old with name := name.orElse (fun _ => old.name), roles := roles.getD old.roles }
  | redeemInvite invite user _ fullName _, old, new => old.id = user.id ∧
    new = { old with name := some fullName, status := .ACTIVE, isActive := true,
                     roles := old.roles ∪ invite.roleId.toList }
  | _, _, _ => False

/-- The new rows of an operation, under ids that were not given out before. -/
def Op.Creates : Op → TenantUser → Prop
  | directCreate tenantId _ _ _ roleId, new => new.tenantId = tenantId ∧ new.status = .ACTIVE ∧
    new.isActive = true ∧ new.roles = roleId.toList
  | register tenantId _ _ _ requiresApproval roleId, new => new.tenantId = tenantId ∧
    new.status = (if requiresApproval then .PENDING_APPROVAL else .ACTIVE) ∧
    new.isActive = !requiresApproval ∧ new.roles = [roleId]
  | createInvites tenantId _ _ _, new => new.tenantId = tenantId ∧ new.status = .PENDING_INVITE ∧
    new.isActive = false ∧ new.roles = []
  | _, _ => False

/-- A row after an operation. -/
def Op.Leaves (op : Op) (db db' : Database) (user : TenantUser) : Prop :=
  user ∈ db.tenantUsers ∨ (∃ old ∈ db.tenantUsers, op.Rewrites old user) ∨
    db.nextId ≤ user.id ∧ user.id < db'.nextId ∧ op.Creates user

section
variable {cfg : Config} {outside : Outside} {db db' : Database} {op : Op} {user : TenantUser}

theorem Op.Leaves.updateMember {id : ℕ} {f : TenantUser → TenantUser}
    (h : user ∈ (db.updateMember id f).tenantUsers)
    (hf : ∀ old ∈ db.tenantUsers, old.id = id → op.Rewrites old (f old)) : op.Leaves db db' user := by
  obtain ⟨old, hold, rfl⟩ := mem_updateMany.mp h
  split
  · rename_i hid
    exact .inr (.inl ⟨old, hold, hf old hold (of_decide_eq_true hid)⟩)
  · exact .inl hold

theorem Database.mem_createMember {account : AuthAccount} {member : TenantUser}
    (h : user ∈ (db.createMember account member).2.tenantUsers) :
    user ∈ db.tenantUsers ∨
      user = { member with id := db.nextId + 1, authAccountId := db.nextId } := by
  rcases List.mem_append.mp h with hold | hnew
  · exact .inl hold
  · exact .inr (List.mem_singleton.mp hnew)

/-- The members that a batch of invites adds. -/
def Database.Invites (db : Database) (tenantId : String) (db' : Database) : Prop :=
  db.nextId ≤ db'.nextId ∧ ∀ user ∈ db'.tenantUsers, user ∈ db.tenantUsers ∨
    db.nextId ≤ user.id ∧ user.id < db'.nextId ∧
      (Op.createInvites tenantId none [] none).Creates user

theorem Database.inviteMember_invites {tenantId : String} {roleId invitedById : Option ℕ}
    {p : PreparedInvite} {x : UserInvite × Database} (hdb : db.Invites tenantId db')
    (h : db'.inviteMember cfg tenantId roleId invitedById p = some x) : db.Invites tenantId x.2 := by
  unfold inviteMember at h
  split at h
  · cases h
  · cases h
    have hn := hdb.1
    refine ⟨hn.trans (Nat.le_add_right _ 3), fun user huser => ?_⟩
    rcases List.mem_append.mp huser with hold | hnew
    · rcases hdb.2 user hold with hold | ⟨hge, hlt, hnew⟩
      · exact .inl hold
      · exact .inr ⟨hge, hlt.trans_le (Nat.le_add_right _ 3), hnew⟩
    · cases List.mem_singleton.mp hnew
      have hlt : db'.nextId + 1 < db'.nextId + 3 := by omega
      exact .inr ⟨hn.trans (Nat.le_succ _), hlt, rfl, rfl, rfl, rfl⟩

theorem Op.effect_member (h : user ∈ (op.effect cfg outside db).2.tenantUsers) :
    op.Leaves db (op.effect cfg outside db).2 user := by
  by_cases hw : Table.tenantUsers ∈ op.writes
  · cases op with
    | deactivate actorType userId a now =>
      rw [effect] at h
      rcases db.deactivate_cases actorType userId a now with ⟨e, he⟩ | ⟨db', ha, he⟩
      · rw [he] at h
        exact .inl h
      · rw [he] at h
        rcases db.setActorActive_cases actorType userId false with ⟨e, hx⟩ | ⟨rfl, hx⟩ | ⟨rfl, hx⟩
        · cases ha.symm.trans hx
        · cases ha.symm.trans hx
          exact .updateMember h fun old _ hid => ⟨hid, rfl⟩
        · cases ha.symm.trans hx
          exact .inl h
    | activate actorType userId =>
      rw [effect] at h
      rcases db.setActorActive_cases actorType userId true with ⟨e, hx⟩ | ⟨rfl, hx⟩ | ⟨rfl, hx⟩
      · rw [hx] at h
        exact .inl h
      · rw [hx] at h
        exact .updateMember h fun old _ hid => ⟨hid, rfl⟩
      · rw [hx] at h
        exact .inl h
    | approveUser userId | unlockUser userId =>
      rw [effect] at h
      rcases db.setStatus_cases userId .ACTIVE true with he | ⟨row, -, he⟩
      · rw [he] at h
        exact .inl h
      · rw [he] at h
        exact .updateMember h fun old _ hid => ⟨hid, rfl⟩
    | lockUser userId a now =>
      rw [effect] at h
      rcases db.setStatusAndRevoke_cases userId .LOCKED a now with ⟨e, he⟩ | ⟨row, db', hs, he⟩
      · rw [he] at h
        exact .inl h
      · rw [he] at h
        rcases db.setStatus_cases userId .LOCKED false with hx | ⟨row', -, hx⟩
        · cases hs.symm.trans hx
        · cases hs.symm.trans hx
          exact .updateMember h fun old _ hid => ⟨hid, rfl⟩
    | softDelete userId a now =>
      rcases db.softDelete_cases cfg outside userId a now with ⟨e, he⟩ | ⟨row, db', hs, he⟩
      · rw [he] at h
        exact .inl h
      · rw [he] at h
        rcases db.setStatus_cases userId .DELETED false with hx | ⟨row', -, hx⟩
        · cases hs.symm.trans hx
        · cases hs.symm.trans hx
          exact .updateMember h fun old _ hid => ⟨hid, rfl⟩
    | updateTenantUser userId name roles =>
      rw [effect, Database.updateTenantUser, Database.ifMember] at h
      split at h
      · exact .inl h
      · exact .updateMember h fun old _ hid => ⟨hid, rfl⟩
    | directCreate tenantId email fullName hash roleId =>
      rw [effect, Database.directCreate] at h ⊢
      split at h
      · exact .inl h
      · rename_i hfree
        rw [if_neg hfree]
        rcases Database.mem_createMember h with hold | rfl
        · exact .inl hold
        · exact .inr (.inr ⟨Nat.le_succ _, Nat.lt_succ_self _, rfl, rfl, rfl, rfl⟩)
    | register tenantId email fullName hash requiresApproval roleId =>
      rw [effect, Database.register] at h ⊢
      split at h
      · exact .inl h
      · rename_i hfree
        rw [if_neg hfree]
        rcases Database.mem_createMember h with hold | rfl
        · exact .inl hold
        · exact .inr (.inr ⟨Nat.le_succ _, Nat.lt_succ_self _, rfl, rfl, rfl, rfl⟩)
    | createInvites tenantId roleId prepared invitedById =>
      have hinvites : db.Invites tenantId
          (db.createInvites cfg tenantId roleId prepared invitedById).2 :=
        Database.createInvites_keeps (P := db.Invites tenantId)
          (fun d p x hd hx => Database.inviteMember_invites hd hx)
          ⟨le_rfl, fun user huser => .inl huser⟩
      rcases hinvites.2 user h with hold | hnew
      · exact .inl hold
      · exact .inr (.inr hnew)
    | revokeInvite existing now =>
      rw [effect, Database.revokeInvite] at h
      split at h
      · exact .inl h
      · cases huser : existing.tenantUserId with
        | none =>
          simp only [huser] at h
          exact .inl h
        | some userId =>
          simp only [huser, Database.ifMember] at h
          split at h
          · exact .inl h
          · exact .updateMember h fun old _ hid => ⟨by rw [huser, hid], rfl⟩
    | redeemInvite invite member hash fullName now =>
      rw [effect, Database.redeemInvite, Database.ifAccount, Database.ifMember] at h
      split at h
      · exact .inl h
      · split at h
        · exact .inl h
        · split at h
          · exact .inl h
          · exact .updateMember h fun old _ hid => ⟨hid, rfl⟩
    | hardDelete source target now =>
      rcases effect_hardDelete source target now with he | he
      · rw [he] at h
        exact .inl h
      · rw [he] at h
        exact .inl (List.mem_filter.mp h).1
    | _ => simp [writes] at hw
  · have hrows : (op.effect cfg outside db).2.tenantUsers = db.tenantUsers :=
      effect_rows (t := .tenantUsers) hw
    exact .inl (hrows ▸ h)

theorem Op.perform_member (h : user ∈ (op.perform cfg outside db).2.tenantUsers) :
    op.Leaves db (op.perform cfg outside db).2 user := by
  rcases perform_cases cfg outside op db with ⟨hdb, -⟩ | heffect
  · rw [hdb] at h
    exact .inl h
  · rw [heffect] at h ⊢
    exact effect_member h

end

end Flexi.Accounts
