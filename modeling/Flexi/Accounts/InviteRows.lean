import Flexi.Accounts.MemberRows

/-!
# What an operation can do to an invite

An invite stays its member's and is never pending again once it is retired; when its
member's row is removed it is nobody's.
-/

namespace Flexi.Accounts
open Flexi.Library

/-- A row later on, as long as its member is there. -/
structure UserInvite.Kept (old new : UserInvite) : Prop where
  id : new.id = old.id
  tenantUserId : new.tenantUserId = old.tenantUserId
  retired : old.status ≠ .PENDING → new.status ≠ .PENDING

namespace UserInvite.Kept

theorem refl (invite : UserInvite) : invite.Kept invite := ⟨rfl, rfl, fun h => h⟩

theorem trans {a b c : UserInvite} (h : a.Kept b) (h' : b.Kept c) : a.Kept c :=
  ⟨h'.id.trans h.id, h'.tenantUserId.trans h.tenantUserId, fun hr => h'.retired (h.retired hr)⟩

end UserInvite.Kept

/-- A new row under a new id: of a new member, or in place of a pending invite. -/
def Op.Issues (op : Op) (db db' : Database) (new : UserInvite) : Prop :=
  db.nextId ≤ new.id ∧ new.id < db'.nextId ∧
    ((∃ userId, new.tenantUserId = some userId ∧ db.nextId ≤ userId ∧ userId < db'.nextId) ∨
      ∃ existing tokenHash expiresAt invitedById now,
        op = .resendInvite existing tokenHash expiresAt invitedById now ∧
        new.tenantUserId = existing.tenantUserId ∧ db.isPending existing.id = true)

/-- A row after an operation. -/
def Op.LeavesInvite (op : Op) (db db' : Database) (new : UserInvite) : Prop :=
  (∃ old ∈ db.userInvites, old.Kept new) ∨
  (∃ source, db' = db.removeMember source ∧ ∃ old ∈ db.userInvites,
    old.tenantUserId = some source.id ∧ new = { old with tenantUserId := none }) ∨
  op.Issues db db' new

section
variable {cfg : Config} {outside : Outside} {db db' : Database} {op : Op} {new : UserInvite}

theorem UserInvite.Kept.updateMany {rows : List UserInvite} {p : UserInvite → Bool}
    {f : UserInvite → UserInvite} (h : new ∈ Library.updateMany p f rows)
    (hf : ∀ old : UserInvite, old.Kept (f old)) : ∃ old ∈ rows, old.Kept new := by
  obtain ⟨old, hold, rfl⟩ := mem_updateMany.mp h
  refine ⟨old, hold, ?_⟩
  split
  · exact hf old
  · exact .refl old

theorem Database.kept_of_retireInvites {p : UserInvite → Bool} {now : ℕ}
    (h : new ∈ (db.retireInvites p now).userInvites) : ∃ old ∈ db.userInvites, old.Kept new :=
  UserInvite.Kept.updateMany h fun _ => ⟨rfl, rfl, fun _ h => nomatch h⟩

/-- The invites that a batch adds. -/
def Database.IssuesInvites (db db' : Database) : Prop :=
  db.nextId ≤ db'.nextId ∧ ∀ new ∈ db'.userInvites, new ∈ db.userInvites ∨
    db.nextId ≤ new.id ∧ new.id < db'.nextId ∧
      ∃ userId, new.tenantUserId = some userId ∧ db.nextId ≤ userId ∧ userId < db'.nextId

theorem Database.inviteMember_issues {tenantId : String} {roleId invitedById : Option ℕ}
    {p : PreparedInvite} {x : UserInvite × Database} (hdb : db.IssuesInvites db')
    (h : db'.inviteMember cfg tenantId roleId invitedById p = some x) : db.IssuesInvites x.2 := by
  unfold inviteMember at h
  split at h
  · cases h
  · cases h
    have hn := hdb.1
    refine ⟨hn.trans (Nat.le_add_right _ 3), fun invite hmem => ?_⟩
    rcases List.mem_append.mp hmem with hold | hnew
    · rcases hdb.2 invite hold with hold | ⟨hge, hlt, userId, huser, hge', hlt'⟩
      · exact .inl hold
      · exact .inr ⟨hge, hlt.trans_le (Nat.le_add_right _ 3), userId, huser, hge',
          hlt'.trans_le (Nat.le_add_right _ 3)⟩
    · cases List.mem_singleton.mp hnew
      refine .inr ⟨?_, ?_, db'.nextId + 1, rfl, hn.trans (Nat.le_succ _), ?_⟩
      · exact hn.trans (Nat.le_add_right _ 2)
      · exact Nat.lt_succ_self _
      · show db'.nextId + 1 < db'.nextId + 3
        omega

theorem Op.effect_invite (h : new ∈ (op.effect cfg outside db).2.userInvites) :
    op.LeavesInvite db (op.effect cfg outside db).2 new := by
  by_cases hw : Table.userInvites ∈ op.writes
  · cases op with
    | createInvites tenantId roleId prepared invitedById =>
      have hissues : db.IssuesInvites
          (db.createInvites cfg tenantId roleId prepared invitedById).2 :=
        Database.createInvites_keeps (P := db.IssuesInvites)
          (fun d p x hd hx => Database.inviteMember_issues hd hx)
          ⟨le_rfl, fun invite hmem => .inl hmem⟩
      rcases hissues.2 new h with hold | ⟨hge, hlt, hmember⟩
      · exact .inl ⟨new, hold, .refl new⟩
      · exact .inr (.inr ⟨hge, hlt, .inl hmember⟩)
    | resendInvite existing tokenHash expiresAt invitedById now =>
      rw [effect, Database.resendInvite] at h ⊢
      split at h
      · exact .inl ⟨new, h, .refl new⟩
      · rename_i hpending
        rw [if_neg hpending]
        rcases List.mem_append.mp h with hold | hnew
        · exact .inl (Database.kept_of_retireInvites hold)
        · cases List.mem_singleton.mp hnew
          have hpending : db.isPending existing.id = true := by simpa using hpending
          refine .inr (.inr ⟨le_rfl, Nat.lt_succ_self _, .inr ?_⟩)
          exact ⟨existing, tokenHash, expiresAt, invitedById, now, rfl, rfl, hpending⟩
    | revokeInvite existing now =>
      rw [effect, Database.revokeInvite] at h
      split at h
      · exact .inl ⟨new, h, .refl new⟩
      · cases huser : existing.tenantUserId with
        | none =>
          simp only [huser] at h
          exact .inl (Database.kept_of_retireInvites h)
        | some userId =>
          simp only [huser, Database.ifMember] at h
          split at h
          · exact .inl ⟨new, h, .refl new⟩
          · obtain ⟨mid, hmid, hkept⟩ := Database.kept_of_retireInvites h
            have hmid' : mid ∈ (db.retireInvites (·.id = existing.id) now).userInvites := hmid
            obtain ⟨old, hold, hkept'⟩ := Database.kept_of_retireInvites hmid'
            exact .inl ⟨old, hold, hkept'.trans hkept⟩
    | redeemInvite invite member hash fullName now =>
      rw [effect, Database.redeemInvite, Database.ifAccount, Database.ifMember] at h
      split at h
      · exact .inl ⟨new, h, .refl new⟩
      · split at h
        · exact .inl ⟨new, h, .refl new⟩
        · split at h
          · exact .inl ⟨new, h, .refl new⟩
          · obtain ⟨mid, hmid, hkept⟩ := Database.kept_of_retireInvites h
            obtain ⟨old, hold, hkept'⟩ := UserInvite.Kept.updateMany hmid
              fun _ => ⟨rfl, rfl, fun _ h => by cases h⟩
            exact .inl ⟨old, hold, hkept'.trans hkept⟩
    | hardDelete source target now =>
      rcases effect_hardDelete source target now with he | he
      · rw [he] at h
        exact .inl ⟨new, h, .refl new⟩
      · rw [he] at h ⊢
        obtain ⟨old, hold, rfl⟩ := mem_updateMany.mp h
        split
        · rename_i huser
          exact .inr (.inl ⟨source, rfl, old, hold, of_decide_eq_true huser, rfl⟩)
        · exact .inl ⟨old, hold, .refl old⟩
    | _ => simp [writes] at hw
  · have hrows : (op.effect cfg outside db).2.userInvites = db.userInvites :=
      effect_rows (t := .userInvites) hw
    exact .inl ⟨new, hrows ▸ h, .refl new⟩

theorem Op.perform_invite (h : new ∈ (op.perform cfg outside db).2.userInvites) :
    op.LeavesInvite db (op.perform cfg outside db).2 new := by
  rcases perform_cases cfg outside op db with ⟨hdb, -⟩ | heffect
  · rw [hdb] at h
    exact .inl ⟨new, h, .refl new⟩
  · rw [heffect] at h ⊢
    exact effect_invite h

/-! ### Ids of invites -/

structure Database.InviteIds (db : Database) : Prop where
  given : ∀ invite ∈ db.userInvites, invite.id < db.nextId
  unique : (db.userInvites.map UserInvite.id).Nodup

namespace Database.InviteIds

theorem of_eq (h : db.InviteIds)
    (hids : db'.userInvites.map UserInvite.id = db.userInvites.map UserInvite.id) (hn : db.nextId ≤ db'.nextId) :
    db'.InviteIds where
  given invite hmem := by
    have hid : invite.id ∈ db'.userInvites.map UserInvite.id := List.mem_map_of_mem hmem
    rw [hids] at hid
    obtain ⟨old, hold, hid⟩ := List.mem_map.mp hid
    exact hid ▸ (h.given old hold).trans_le hn
  unique := hids ▸ h.unique

theorem createMember (h : db.InviteIds) (account : AuthAccount) (user : TenantUser) :
    (db.createMember account user).2.InviteIds :=
  h.of_eq rfl (Nat.le_add_right _ 2)

theorem createInvite (h : db.InviteIds) (invite : UserInvite) : (db.createInvite invite).2.InviteIds where
  given row hmem := by
    rcases List.mem_append.mp hmem with hold | hnew
    · exact Nat.lt_succ_of_lt (h.given row hold)
    · cases List.mem_singleton.mp hnew
      exact Nat.lt_succ_self _
  unique := by
    show ((db.userInvites ++ [{ invite with id := db.nextId }]).map UserInvite.id).Nodup
    rw [List.map_append, List.nodup_append]
    refine ⟨h.unique, List.nodup_singleton _, ?_⟩
    intro id hid id' hid' heq
    obtain ⟨old, hold, rfl⟩ := List.mem_map.mp hid
    cases List.mem_singleton.mp hid'
    exact absurd heq (h.given old hold).ne

theorem retireInvites_ids {p : UserInvite → Bool} {now : ℕ} :
    (db.retireInvites p now).userInvites.map UserInvite.id = db.userInvites.map UserInvite.id :=
  map_updateMany fun _ => rfl

theorem effect (h : db.InviteIds) : (op.effect cfg outside db).2.InviteIds := by
  by_cases hw : Table.userInvites ∈ op.writes
  · have hn : db.nextId ≤ (op.effect cfg outside db).2.nextId := Op.effect_nextId
    cases op with
    | createInvites tenantId roleId prepared invitedById =>
      refine Database.createInvites_keeps (P := Database.InviteIds) (fun d p x hd hx => ?_) h
      unfold Database.inviteMember at hx
      split at hx
      · cases hx
      · cases hx
        exact (hd.createMember _ _).createInvite _
    | resendInvite existing tokenHash expiresAt invitedById now =>
      rw [Op.effect, Database.resendInvite]
      split
      · exact h
      · exact createInvite (h.of_eq retireInvites_ids le_rfl) _
    | revokeInvite existing now =>
      refine h.of_eq ?_ hn
      rw [Op.effect, Database.revokeInvite]
      split
      · rfl
      · cases existing.tenantUserId with
        | none => exact retireInvites_ids
        | some userId =>
          refine Database.ifMember_keeps (P := fun d => d.userInvites.map UserInvite.id =
            db.userInvites.map UserInvite.id) rfl fun _ _ => ?_
          have hids : (db.retireInvites (·.id = existing.id) now).userInvites.map UserInvite.id =
              db.userInvites.map UserInvite.id := retireInvites_ids
          exact retireInvites_ids.trans hids
    | redeemInvite invite member hash fullName now =>
      refine h.of_eq ?_ hn
      rw [Op.effect, Database.redeemInvite]
      split
      · rfl
      · refine Database.ifAccount_keeps (P := fun d => d.userInvites.map UserInvite.id =
          db.userInvites.map UserInvite.id) rfl fun _ _ => ?_
        refine Database.ifMember_keeps (P := fun d => d.userInvites.map UserInvite.id =
          db.userInvites.map UserInvite.id) rfl fun _ _ => ?_
        refine retireInvites_ids.trans (Eq.trans (map_updateMany ?_) rfl)
        exact fun _ => rfl
    | hardDelete source target now =>
      refine h.of_eq ?_ hn
      rcases Op.effect_hardDelete source target now with he | he
      · rw [he]
      · rw [he]
        exact map_updateMany fun _ => rfl
    | _ => simp [Op.writes] at hw
  · have hrows : (op.effect cfg outside db).2.userInvites = db.userInvites :=
      Op.effect_rows (t := .userInvites) hw
    exact h.of_eq (by rw [hrows]) Op.effect_nextId

theorem perform (h : db.InviteIds) : (op.perform cfg outside db).2.InviteIds := by
  rcases Op.perform_cases cfg outside op db with ⟨hdb, -⟩ | heffect
  · rw [hdb]
    exact h
  · rw [heffect]
    exact h.effect

end Database.InviteIds

/-! ### Members that are gone, and the member of an invite that was read -/

/-- No member has this id, nor will one have it again. -/
structure Database.NoMember (userId : ℕ) (db : Database) : Prop where
  given : userId < db.nextId
  gone : ∀ user ∈ db.tenantUsers, user.id ≠ userId

theorem Op.Rewrites.id {old new : TenantUser} (h : op.Rewrites old new) : new.id = old.id := by
  cases op with
  | deactivate actorType | activate actorType =>
    cases actorType with
    | TENANT => rw [h.2]
    | SYSTEM => exact h.elim
  | approveUser | unlockUser | lockUser | softDelete | revokeInvite | updateTenantUser
  | redeemInvite => rw [h.2]
  | _ => exact h.elim

theorem Op.perform_nextId : db.nextId ≤ (op.perform cfg outside db).2.nextId :=
  perform_accounts.nextId

theorem Database.NoMember.perform {userId : ℕ} (h : db.NoMember userId) :
    (op.perform cfg outside db).2.NoMember userId := by
  refine ⟨h.given.trans_le Op.perform_nextId, fun user huser hid => ?_⟩
  rcases Op.perform_member huser with hold | ⟨old, hold, hrewrites⟩ | ⟨hge, -, -⟩
  · exact h.gone user hold hid
  · exact h.gone old hold (hrewrites.id ▸ hid)
  · have hlt := h.given
    omega

/-- An invite that was read: the row of its id is its member's, or the member is gone. -/
structure Database.Holds (invite : UserInvite) (db : Database) : Prop where
  given : invite.id < db.nextId
  invitee : ∀ userId, invite.tenantUserId = some userId → userId < db.nextId
  member : ∀ row ∈ db.userInvites, row.id = invite.id → row.tenantUserId = invite.tenantUserId ∨
    ∃ userId, invite.tenantUserId = some userId ∧ db.NoMember userId

theorem Database.Holds.perform {invite : UserInvite} (h : db.Holds invite) :
    (op.perform cfg outside db).2.Holds invite := by
  have hn : db.nextId ≤ (op.perform cfg outside db).2.nextId := Op.perform_nextId
  refine ⟨h.given.trans_le hn, fun userId hu => (h.invitee userId hu).trans_le hn, ?_⟩
  intro row hrow hid
  have gone (hgone : ∃ userId, invite.tenantUserId = some userId ∧ db.NoMember userId) :
      ∃ userId, invite.tenantUserId = some userId ∧ (op.perform cfg outside db).2.NoMember userId := by
    obtain ⟨userId, hu, hgone⟩ := hgone
    exact ⟨userId, hu, hgone.perform⟩
  rcases Op.perform_invite hrow with
    ⟨old, hold, hkept⟩ | ⟨source, hdb, old, hold, huser, rfl⟩ | ⟨hge, -, -⟩
  · rcases h.member old hold (hkept.id ▸ hid) with hmember | hgone
    · exact .inl (hkept.tenantUserId.trans hmember)
    · exact .inr (gone hgone)
  · rcases h.member old hold hid with hmember | hgone
    · -- the invite is nobody's since its member's row is removed
      have hu : invite.tenantUserId = some source.id := hmember.symm.trans huser
      refine .inr ⟨source.id, hu, (h.invitee _ hu).trans_le hn, fun user hmem => ?_⟩
      rw [hdb] at hmem
      have hkeeps := (List.mem_filter.mp hmem).2
      simp only [Bool.and_eq_true, decide_eq_true_eq] at hkeeps
      exact hkeeps.1
    · exact .inr (gone hgone)
  · have hlt := h.given
    omega

/-- What the keys of the schema say about members and invites. -/
structure Database.MembersKeyed (db : Database) : Prop where
  memberIds : ∀ user ∈ db.tenantUsers, user.id < db.nextId
  inviteIds : db.InviteIds
  invitees : ∀ invite ∈ db.userInvites, ∀ userId, invite.tenantUserId = some userId →
    userId < db.nextId

namespace Database.MembersKeyed

theorem holds (h : db.MembersKeyed) {invite : UserInvite} (hmem : invite ∈ db.userInvites) :
    db.Holds invite where
  given := h.inviteIds.given invite hmem
  invitee := h.invitees invite hmem
  member row hrow hid := by
    have heq : row = invite := List.inj_on_of_nodup_map h.inviteIds.unique hrow hmem hid
    exact .inl (by rw [heq])

theorem perform (h : db.MembersKeyed)
    (hop : ∀ existing tokenHash expiresAt invitedById now,
      op = .resendInvite existing tokenHash expiresAt invitedById now → db.Holds existing) :
    (op.perform cfg outside db).2.MembersKeyed := by
  have hn : db.nextId ≤ (op.perform cfg outside db).2.nextId := Op.perform_nextId
  refine ⟨fun user huser => ?_, h.inviteIds.perform, fun invite hmem userId hu => ?_⟩
  · rcases Op.perform_member huser with hold | ⟨old, hold, hrewrites⟩ | ⟨-, hlt, -⟩
    · exact (h.memberIds user hold).trans_le hn
    · rw [hrewrites.id]
      exact (h.memberIds old hold).trans_le hn
    · exact hlt
  · rcases Op.perform_invite hmem with
      ⟨old, hold, hkept⟩ | ⟨source, -, old, hold, -, rfl⟩ | ⟨-, -, hnew⟩
    · exact (h.invitees old hold userId (hkept.tenantUserId ▸ hu)).trans_le hn
    · cases hu
    · rcases hnew with ⟨userId', hu', -, hlt⟩ | ⟨existing, hash, exp, by', now, he, hmember, -⟩
      · cases hu.symm.trans hu'
        exact hlt
      · exact ((hop existing hash exp by' now he).invitee userId (hmember ▸ hu)).trans_le hn

end Database.MembersKeyed

end

end Flexi.Accounts
