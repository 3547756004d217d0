import Flexi.Accounts.Keys

/-!
# What an operation can do to an account

Four operations set a password, each of one account. The others add accounts under new
ids, or remove them.
-/

namespace Flexi.Accounts
open Flexi.Library

/-- The account whose password an operation sets, the hash and the flag. -/
def Op.setsPassword : Op → Option (ℕ × String × Bool)
  | changePassword a passwordHash _ _ => some (a, passwordHash, false)
  | resetPassword _ a passwordHash _ => some (a, passwordHash, false)
  | forceResetPassword a passwordHash _ => some (a, passwordHash, true)
  | redeemInvite _ user passwordHash _ _ => some (user.authAccountId, passwordHash, false)
  | _ => none

/-- Where an account comes from. -/
def Op.LeavesAccount (op : Op) (db : Database) (new : AuthAccount) : Prop :=
  new ∈ db.authAccounts ∨
  (∃ old ∈ db.authAccounts, ∃ hash must, op.setsPassword = some (old.id, hash, must) ∧
    new = { old with passwordHash := hash, mustChangePassword := must }) ∨
  db.nextId ≤ new.id

section
variable {cfg : Config} {outside : Outside} {db db' : Database} {op : Op} {new : AuthAccount}

theorem Op.LeavesAccount.of_eq (h : new ∈ db'.authAccounts) (he : db'.authAccounts = db.authAccounts) :
    op.LeavesAccount db new :=
  .inl (he ▸ h)

theorem Op.LeavesAccount.setPassword {a : ℕ} {hash : String} {must : Bool}
    (h : new ∈ (db.setPassword a hash must).authAccounts)
    (hop : op.setsPassword = some (a, hash, must)) : op.LeavesAccount db new := by
  obtain ⟨old, hold, rfl⟩ := mem_updateMany.mp h
  split
  · rename_i hid
    have hid : old.id = a := by simpa using hid
    exact .inr (.inl ⟨old, hold, hash, must, by rw [hop, hid], rfl⟩)
  · exact .inl hold

theorem Database.createMember_account {account : AuthAccount} {user : TenantUser}
    (h : new ∈ (db.createMember account user).2.authAccounts) :
    new ∈ db.authAccounts ∨ db.nextId ≤ new.id := by
  have h : new ∈ db.authAccounts ++ [{ account with id := db.nextId }] := h
  rcases List.mem_append.mp h with hold | hnew
  · exact .inl hold
  · cases List.mem_singleton.mp hnew
    exact .inr le_rfl

theorem Database.createInvites_account {tenantId : String} {roleId invitedById : Option ℕ}
    {prepared : List PreparedInvite}
    (h : new ∈ (db.createInvites cfg tenantId roleId prepared invitedById).2.authAccounts) :
    new ∈ db.authAccounts ∨ db.nextId ≤ new.id := by
  have hall : db.nextId ≤ (db.createInvites cfg tenantId roleId prepared invitedById).2.nextId ∧
      ∀ new ∈ (db.createInvites cfg tenantId roleId prepared invitedById).2.authAccounts,
        new ∈ db.authAccounts ∨ db.nextId ≤ new.id := by
    refine Database.createInvites_keeps (P := fun d => db.nextId ≤ d.nextId ∧
      ∀ new ∈ d.authAccounts, new ∈ db.authAccounts ∨ db.nextId ≤ new.id)
      (fun d p x hd hx => ?_) ⟨le_rfl, fun _ hmem => .inl hmem⟩
    unfold inviteMember at hx
    split at hx
    · cases hx
    · cases hx
      refine ⟨hd.1.trans (Nat.le_add_right _ 3), fun row hrow => ?_⟩
      rcases List.mem_append.mp hrow with hold | hnew
      · exact hd.2 row hold
      · cases List.mem_singleton.mp hnew
        exact .inr hd.1
  exact hall.2 new h

theorem Op.effect_account (h : new ∈ (op.effect cfg outside db).2.authAccounts) :
    op.LeavesAccount db new := by
  by_cases hw : Table.authAccounts ∈ op.writes
  · cases op with
    | changePassword a hash kept now =>
      rw [effect, Database.changePassword, Database.ifAccount] at h
      split at h
      · exact .inl h
      · exact .setPassword h rfl
    | forceResetPassword a hash now =>
      rw [effect, Database.forceResetPassword, Database.ifAccount] at h
      split at h
      · exact .inl h
      · exact .setPassword h rfl
    | resetPassword otp a hash now =>
      rw [effect, Database.resetPassword, Database.ifAccount] at h
      split at h
      · exact .inl h
      · split at h
        · exact .inl h
        · exact .setPassword h rfl
    | redeemInvite invite user hash fullName now =>
      rw [effect, Database.redeemInvite, Database.ifAccount, Database.ifMember] at h
      split at h
      · exact .inl h
      · split at h
        · exact .inl h
        · split at h
          · exact .inl h
          · exact .setPassword h rfl
    | directCreate tenantId email fullName hash roleId =>
      rw [effect, Database.directCreate] at h
      split at h
      · exact .inl h
      · exact (Database.createMember_account h).elim .inl fun hnew => .inr (.inr hnew)
    | register tenantId email fullName hash requiresApproval roleId =>
      rw [effect, Database.register] at h
      split at h
      · exact .inl h
      · exact (Database.createMember_account h).elim .inl fun hnew => .inr (.inr hnew)
    | createInvites tenantId roleId prepared invitedById =>
      exact (Database.createInvites_account h).elim .inl fun hnew => .inr (.inr hnew)
    | hardDelete source target now =>
      rcases effect_hardDelete source target now with he | he
      · rw [he] at h
        exact .inl h
      · rw [he] at h
        exact .inl (List.mem_filter.mp h).1
    | _ => simp [writes] at hw
  · exact .of_eq h (effect_rows (t := .authAccounts) hw)

theorem Op.perform_account (h : new ∈ (op.perform cfg outside db).2.authAccounts) :
    op.LeavesAccount db new := by
  rcases perform_cases cfg outside op db with ⟨hdb, -⟩ | heffect
  · rw [hdb] at h
    exact .inl h
  · rw [heffect] at h
    exact effect_account h

end

end Flexi.Accounts
