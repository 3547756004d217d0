import Flexi.Accounts.InviteRows

/-!
# What an operation writes in an invite

Where each row of `UserInvite` after an operation comes from, column by column.
-/

namespace Flexi.Accounts
open Flexi.Library

def UserInvite.revoke (invite : UserInvite) (now : ℕ) : UserInvite :=
  { invite with status := .REVOKED, revokedAt := some now }

/-- The row that an operation makes of an earlier one. -/
def Op.RewritesInvite : Op → UserInvite → UserInvite → Prop
  | resendInvite existing _ _ _ now, old, new =>
    old.id = existing.id ∧ old.status = .PENDING ∧ new = old.revoke now
  | revokeInvite existing now, old, new =>
    (old.id = existing.id ∨ ∃ userId, existing.tenantUserId = some userId ∧
      old.tenantUserId = some userId) ∧ old.status = .PENDING ∧ new = old.revoke now
  | redeemInvite invite user _ _ now, old, new =>
    old.status = .PENDING ∧
      (old.id = invite.id ∧ now < old.expiresAt ∧ new = { old with status := .USED, usedAt := some now } ∨
        old.tenantUserId = some user.id ∧ old.id ≠ invite.id ∧ new = old.revoke now)
  | hardDelete source _ _, old, new =>
    old.tenantUserId = some source.id ∧ new = { old with tenantUserId := none }
  | _, _, _ => False

/-- The new rows of an operation. -/
def Op.CreatesInvite (db : Database) : Op → UserInvite → Prop
  | createInvites tenantId _ prepared _, new => new.tenantId = tenantId ∧ new.status = .PENDING ∧
    (∃ p ∈ prepared, new.tokenHash = p.tokenHash ∧ new.expiresAt = p.expiresAt) ∧
    ∃ userId, new.tenantUserId = some userId ∧ db.nextId ≤ userId
  | resendInvite existing tokenHash expiresAt _ _, new => db.isPending existing.id = true ∧
    new.tenantId = existing.tenantId ∧ new.status = .PENDING ∧ new.tokenHash = tokenHash ∧
    new.expiresAt = expiresAt ∧ new.tenantUserId = existing.tenantUserId
  | _, _ => False

/-- A row after an operation. -/
def Op.ChangesInvite (op : Op) (db db' : Database) (new : UserInvite) : Prop :=
  new ∈ db.userInvites ∨ (∃ old ∈ db.userInvites, op.RewritesInvite old new) ∨
    db.nextId ≤ new.id ∧ new.id < db'.nextId ∧ op.CreatesInvite db new

section
variable {cfg : Config} {outside : Outside} {db db' : Database} {op : Op} {new : UserInvite}

theorem Op.RewritesInvite.columns {old : UserInvite} (h : op.RewritesInvite old new) :
    new.id = old.id ∧ new.tenantId = old.tenantId ∧ new.tokenHash = old.tokenHash ∧
      new.expiresAt = old.expiresAt := by
  cases op with
  | resendInvite | revokeInvite =>
    rw [h.2.2]
    exact ⟨rfl, rfl, rfl, rfl⟩
  | redeemInvite =>
    rcases h.2 with ⟨-, -, he⟩ | ⟨-, -, he⟩ <;> rw [he] <;> exact ⟨rfl, rfl, rfl, rfl⟩
  | hardDelete =>
    rw [h.2]
    exact ⟨rfl, rfl, rfl, rfl⟩
  | _ => exact h.elim

theorem Database.mem_retireInvites {p : UserInvite → Bool} {now : ℕ}
    (h : new ∈ (db.retireInvites p now).userInvites) :
    (new ∈ db.userInvites ∧ (new.status = .PENDING → p new = false)) ∨
      ∃ old ∈ db.userInvites, old.status = .PENDING ∧ p old = true ∧ new = old.revoke now := by
  obtain ⟨old, hold, rfl⟩ := mem_updateMany.mp h
  split
  · rename_i hp
    rw [Bool.and_eq_true, decide_eq_true_eq] at hp
    exact .inr ⟨old, hold, hp.1, hp.2, rfl⟩
  · rename_i hp
    refine .inl ⟨hold, fun hpending => ?_⟩
    simpa [hpending] using hp

def Database.Batch (db : Database) (tenantId : String) (prepared : List PreparedInvite)
    (db' : Database) : Prop :=
  db.nextId ≤ db'.nextId ∧ ∀ new ∈ db'.userInvites, new ∈ db.userInvites ∨
    db.nextId ≤ new.id ∧ new.id < db'.nextId ∧
      (Op.createInvites tenantId none prepared none).CreatesInvite db new

theorem Database.inviteMember_batch {tenantId : String} {roleId invitedById : Option ℕ}
    {prepared : List PreparedInvite} {p : PreparedInvite} {x : UserInvite × Database} (hp : p ∈ prepared)
    (hdb : db.Batch tenantId prepared db')
    (h : db'.inviteMember cfg tenantId roleId invitedById p = some x) : db.Batch tenantId prepared x.2 := by
  unfold inviteMember at h
  split at h
  · cases h
  · cases h
    have hn := hdb.1
    refine ⟨hn.trans (Nat.le_add_right _ 3), fun new hnew => ?_⟩
    rcases List.mem_append.mp hnew with hold | hnew
    · rcases hdb.2 new hold with hold | ⟨hge, hlt, hcreates⟩
      · exact .inl hold
      · exact .inr ⟨hge, hlt.trans_le (Nat.le_add_right _ 3), hcreates⟩
    · cases List.mem_singleton.mp hnew
      have hlt : db'.nextId + 2 < db'.nextId + 3 := Nat.lt_succ_self _
      exact .inr ⟨hn.trans (Nat.le_add_right _ 2), hlt, rfl, rfl, ⟨p, hp, rfl, rfl⟩, db'.nextId + 1, rfl,
        hn.trans (Nat.le_succ _)⟩

theorem Op.effect_inviteChange (hids : db.InviteIds) (h : new ∈ (op.effect cfg outside db).2.userInvites) :
    op.ChangesInvite db (op.effect cfg outside db).2 new := by
  by_cases hw : Table.userInvites ∈ op.writes
  · cases op with
    | createInvites tenantId roleId prepared invitedById =>
      have hbatch : db.Batch tenantId prepared
          (db.createInvites cfg tenantId roleId prepared invitedById).2 :=
        Database.createInvites_keeps_of_mem (P := db.Batch tenantId prepared)
          (fun d p x hp hd hx => Database.inviteMember_batch hp hd hx)
          ⟨le_rfl, fun invite hmem => .inl hmem⟩
      rcases hbatch.2 new h with hold | hnew
      · exact .inl hold
      · exact .inr (.inr hnew)
    | resendInvite existing tokenHash expiresAt invitedById now =>
      rw [effect, Database.resendInvite] at h ⊢
      split at h
      · exact .inl h
      · rename_i hpending
        rw [if_neg hpending]
        rcases List.mem_append.mp h with hretired | hnew
        · rcases Database.mem_retireInvites hretired with ⟨hold, -⟩ | ⟨old, hold, hstatus, hid, rfl⟩
          · exact .inl hold
          · exact .inr (.inl ⟨old, hold, of_decide_eq_true hid, hstatus, rfl⟩)
        · cases List.mem_singleton.mp hnew
          have hpending : db.isPending existing.id = true := by simpa using hpending
          exact .inr (.inr ⟨le_rfl, Nat.lt_succ_self _, hpending, rfl, rfl, rfl, rfl, rfl⟩)
    | revokeInvite existing now =>
      have hfirst {new : UserInvite} (h : new ∈ (db.retireInvites (·.id = existing.id) now).userInvites) :
          new ∈ db.userInvites ∨
            ∃ old ∈ db.userInvites, (Op.revokeInvite existing now).RewritesInvite old new := by
        rcases Database.mem_retireInvites h with ⟨hold, -⟩ | ⟨old, hold, hstatus, hid, rfl⟩
        · exact .inl hold
        · exact .inr ⟨old, hold, .inl (of_decide_eq_true hid), hstatus, rfl⟩
      have hor {new : UserInvite} (h : new ∈ db.userInvites ∨
          ∃ old ∈ db.userInvites, (Op.revokeInvite existing now).RewritesInvite old new) :
          (Op.revokeInvite existing now).ChangesInvite db
            ((Op.revokeInvite existing now).effect cfg outside db).2 new := by
        rcases h with hold | hrewrites
        · exact .inl hold
        · exact .inr (.inl hrewrites)
      refine hor ?_
      rw [effect, Database.revokeInvite] at h
      split at h
      · exact .inl h
      · cases huser : existing.tenantUserId with
        | none =>
          simp only [huser] at h
          exact hfirst h
        | some userId =>
          simp only [huser, Database.ifMember] at h
          split at h
          · exact .inl h
          · rcases Database.mem_retireInvites h with ⟨hmid, -⟩ | ⟨mid, hmid, hstatus, hp, rfl⟩
            · exact hfirst hmid
            · simp only [Bool.and_eq_true, decide_eq_true_eq] at hp
              rcases hfirst hmid with hold | ⟨old, hold, hrewrites⟩
              · exact .inr ⟨mid, hold, .inr ⟨userId, huser, hp.1⟩, hstatus, rfl⟩
              · rw [hrewrites.2.2] at hstatus
                cases hstatus
    | redeemInvite invite member hash fullName now =>
      rw [effect, Database.redeemInvite, Database.ifAccount, Database.ifMember] at h
      split at h
      · exact .inl h
      · rename_i hguard
        split at h
        · exact .inl h
        · split at h
          · exact .inl h
          · -- the guard's row is the one with the id
            have hlive : ∀ old ∈ db.userInvites, old.id = invite.id →
                old.status = .PENDING ∧ now < old.expiresAt := by
              intro old hold hid
              have hexists : ∃ row ∈ db.userInvites, row.id = invite.id ∧ row.status = .PENDING ∧
                  now < row.expiresAt := by
                simpa [List.all_eq_true, and_assoc] using hguard
              obtain ⟨row, hrow, hid', hstatus, hexpires⟩ := hexists
              have hsame : old = row :=
                List.inj_on_of_nodup_map hids.unique hold hrow (hid.trans hid'.symm)
              rw [hsame]
              exact ⟨hstatus, hexpires⟩
            have hused {new : UserInvite} (h : new ∈ updateMany (·.id = invite.id)
                (fun row => { row with status := .USED, usedAt := some now }) db.userInvites) :
                (new ∈ db.userInvites ∧ new.id ≠ invite.id) ∨ ∃ old ∈ db.userInvites, old.id = invite.id ∧
                  new = { old with status := .USED, usedAt := some now } := by
              obtain ⟨old, hold, rfl⟩ := mem_updateMany.mp h
              split
              · rename_i hid
                exact .inr ⟨old, hold, of_decide_eq_true hid, rfl⟩
              · rename_i hid
                exact .inl ⟨hold, by simpa using hid⟩
            rcases Database.mem_retireInvites h with ⟨hmid, -⟩ | ⟨mid, hmid, hstatus, hp, rfl⟩
            · rcases hused hmid with ⟨hold, -⟩ | ⟨old, hold, hid, rfl⟩
              · exact .inl hold
              · obtain ⟨hstatus, hexpires⟩ := hlive old hold hid
                exact .inr (.inl ⟨old, hold, hstatus, .inl ⟨hid, hexpires, rfl⟩⟩)
            · simp only [Bool.and_eq_true, decide_eq_true_eq] at hp
              rcases hused hmid with ⟨hold, -⟩ | ⟨old, hold, hid, rfl⟩
              · exact .inr (.inl ⟨mid, hold, hstatus, .inr ⟨hp.1, hp.2, rfl⟩⟩)
              · cases hstatus
    | hardDelete source target now =>
      rcases effect_hardDelete source target now with he | he
      · rw [he] at h
        exact .inl h
      · rw [he] at h
        obtain ⟨old, hold, rfl⟩ := mem_updateMany.mp h
        split
        · rename_i huser
          exact .inr (.inl ⟨old, hold, of_decide_eq_true huser, rfl⟩)
        · exact .inl hold
    | _ => simp [writes] at hw
  · have hrows : (op.effect cfg outside db).2.userInvites = db.userInvites :=
      effect_rows (t := .userInvites) hw
    exact .inl (hrows ▸ h)

theorem Op.perform_inviteChange (hids : db.InviteIds) (h : new ∈ (op.perform cfg outside db).2.userInvites) :
    op.ChangesInvite db (op.perform cfg outside db).2 new := by
  rcases perform_cases cfg outside op db with ⟨hdb, -⟩ | heffect
  · rw [hdb] at h
    exact .inl h
  · rw [heffect] at h ⊢
    exact effect_inviteChange hids h

end

end Flexi.Accounts
