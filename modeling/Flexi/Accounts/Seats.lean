import Flexi.Accounts.InviteChanges
import Flexi.Accounts.OneAtATime
import Flexi.Accounts.RowIds
import Flexi.Library.Reach

/-!
# The seats of a tenant

A member takes a seat by its status, an invited one as long as an invite of its is live.
Who creates a member or renews an expired invite looks for a seat first; everybody else
takes none.
-/

namespace Flexi.Accounts
open Flexi.Library

def SEAT_HOLDING_STATUSES : List TenantUserStatus :=
  [.ACTIVE, .PENDING_SETUP, .PENDING_APPROVAL, .LOCKED]

/-- An invite that the member could redeem. -/
def Database.invited (db : Database) (userId now : ℕ) : Bool :=
  db.userInvites.any fun invite => invite.tenantUserId = some userId && invite.status = .PENDING &&
    now < invite.expiresAt

/-- The member takes a seat. -/
def Database.seated (db : Database) (tenantId : String) (now : ℕ) (user : TenantUser) : Bool :=
  user.tenantId = tenantId && (SEAT_HOLDING_STATUSES.contains user.status ||
    user.status = .PENDING_INVITE && db.invited user.id now)

section
variable {cfg : Config} {outside : Outside} {tenantId : String} {now : ℕ} {db db' : Database} {op : Op}
  {user : TenantUser}

theorem Database.usedSeats_eq :
    db.usedSeats tenantId now = countWhere (db.seated tenantId now) db.tenantUsers := by
  apply countWhere_add
  · intro user _
    have hinvited : (db.userInvites.any fun invite => invite.tenantUserId = some user.id &&
        invite.status = .PENDING && now < invite.expiresAt) = db.invited user.id now := rfl
    rw [hinvited, Database.seated, SEAT_HOLDING_STATUSES]
    cases h : decide (user.tenantId = tenantId) <;> simp
  · intro user _ hholds
    simp only [Bool.and_eq_true] at hholds
    have hstatus : user.status ≠ .PENDING_INVITE := by
      intro heq
      rw [heq] at hholds
      exact absurd hholds.2 (by decide)
    simp [hstatus]

theorem Database.seated_iff : db.seated tenantId now user = true ↔ user.tenantId = tenantId ∧
    (user.status ∈ SEAT_HOLDING_STATUSES ∨ user.status = .PENDING_INVITE ∧ db.invited user.id now = true) := by
  simp [Database.seated]

theorem Database.invited_iff {userId : ℕ} : db.invited userId now = true ↔ ∃ invite ∈ db.userInvites,
    invite.tenantUserId = some userId ∧ invite.status = .PENDING ∧ now < invite.expiresAt := by
  simp [Database.invited, and_assoc]

/-- Time frees seats. -/
theorem Database.seated_later {later : ℕ} (hle : now ≤ later) (h : db.seated tenantId later user = true) :
    db.seated tenantId now user = true := by
  rw [seated_iff] at h ⊢
  refine ⟨h.1, h.2.imp_right fun hinvited => ⟨hinvited.1, ?_⟩⟩
  obtain ⟨invite, hmem, huser, hstatus, hexpires⟩ := invited_iff.mp hinvited.2
  exact invited_iff.mpr ⟨invite, hmem, huser, hstatus, hle.trans_lt hexpires⟩

theorem Database.usedSeats_later {later : ℕ} (hle : now ≤ later) :
    db.usedSeats tenantId later ≤ db.usedSeats tenantId now := by
  rw [usedSeats_eq, usedSeats_eq]
  apply List.Sublist.length_le
  exact List.monotone_filter_right db.tenantUsers fun user h => seated_later hle h

theorem Database.usedSeats_le (hids : db'.Identified) (extra : List ℕ)
    (hback : ∀ user ∈ db'.tenantUsers, db'.seated tenantId now user = true →
      (∃ old ∈ db.tenantUsers, db.seated tenantId now old = true ∧ old.id = user.id) ∨ user.id ∈ extra) :
    db'.usedSeats tenantId now ≤ db.usedSeats tenantId now + extra.length := by
  rw [usedSeats_eq, usedSeats_eq]
  exact hids.members.countWhere_le hback

/-! ### New members -/

theorem Database.newMember_seats (member : TenantUser) (hdb : db.Identified) (hdb' : db'.Identified)
    (hmembers : db'.tenantUsers = db.tenantUsers ++ [member])
    (hinvited : ∀ userId < db.nextId, db'.invited userId now = true → db.invited userId now = true) :
    db'.usedSeats tenantId now ≤
      db.usedSeats tenantId now + if member.tenantId = tenantId then 1 else 0 := by
  have hcount : db'.usedSeats tenantId now ≤
      db.usedSeats tenantId now + (if member.tenantId = tenantId then [member.id] else []).length := by
    refine usedSeats_le hdb' _ fun user huser hseated => ?_
    rw [seated_iff] at hseated
    obtain ⟨htenant, hstatus⟩ := hseated
    rw [hmembers] at huser
    rcases List.mem_append.mp huser with hold | hnew
    · refine .inl ⟨user, hold, seated_iff.mpr ⟨htenant, ?_⟩, rfl⟩
      exact hstatus.imp_right fun h => ⟨h.1, hinvited user.id (hdb.members.given user hold) h.2⟩
    · cases List.mem_singleton.mp hnew
      rw [if_pos htenant]
      exact .inr List.mem_cons_self
  refine hcount.trans ?_
  split <;> simp

theorem Database.inviteMember_seats (tenantId : String) (now : ℕ) {tenantId' : String}
    {roleId invitedById : Option ℕ} {p : PreparedInvite} {x : UserInvite × Database} (hdb : db.Identified)
    (h : db.inviteMember cfg tenantId' roleId invitedById p = some x) :
    x.2.Identified ∧ x.2.usedSeats tenantId now ≤
      db.usedSeats tenantId now + if tenantId' = tenantId then 1 else 0 := by
  unfold inviteMember at h
  split at h
  · cases h
  · cases h
    refine ⟨(hdb.createMember _ _).createInvite _, ?_⟩
    refine newMember_seats _ hdb ((hdb.createMember _ _).createInvite _) rfl fun userId hlt h => ?_
    obtain ⟨invite, hmem, huser, hlive⟩ := invited_iff.mp h
    rcases List.mem_append.mp hmem with hold | hnew
    · exact invited_iff.mpr ⟨invite, hold, huser, hlive⟩
    · cases List.mem_singleton.mp hnew
      have hid : db.nextId + 1 = userId := Option.some.inj huser
      omega

theorem Database.createInvites_seats {tenantId' : String} {roleId invitedById : Option ℕ}
    {prepared : List PreparedInvite} (hdb : db.Identified) :
    (db.createInvites cfg tenantId' roleId prepared invitedById).2.usedSeats tenantId now ≤
      db.usedSeats tenantId now + if tenantId' = tenantId then prepared.length else 0 := by
  have hbatch {x : List UserInvite × Database}
      (h : inviteMembers cfg tenantId' roleId invitedById db prepared = some x) :
      x.2.usedSeats tenantId now ≤
        db.usedSeats tenantId now + if tenantId' = tenantId then prepared.length else 0 := by
    induction prepared generalizing db x with
    | nil =>
      cases h
      exact Nat.le_add_right _ _
    | cons p rest ih =>
      rw [inviteMembers] at h
      split at h
      · cases h
      · rename_i invite db' hm
        obtain ⟨y, hy, rfl⟩ := Option.map_eq_some_iff.mp h
        obtain ⟨hdb', hone⟩ := inviteMember_seats tenantId now hdb hm
        have hrest := ih hdb' hy
        rw [List.length_cons]
        dsimp only at hone hrest ⊢
        split at hone <;> rename_i htenant
        · rw [if_pos htenant] at hrest ⊢
          omega
        · rw [if_neg htenant] at hrest ⊢
          omega
  unfold createInvites
  split
  · exact Nat.le_add_right _ _
  · exact hbatch ‹_›

/-! ### The other operations -/

/-- The keys hold, and an invite is of its member's tenant. -/
structure Database.SeatKeys (db : Database) : Prop where
  identified : db.Identified
  keyed : db.MembersKeyed
  tenant : ∀ invite ∈ db.userInvites, ∀ user ∈ db.tenantUsers, invite.tenantUserId = some user.id →
    user.tenantId = invite.tenantId

/-- Who is rewritten stays as it is, or had the status that the operation has read. -/
theorem Op.Grounded.status {times : ℕ → Prop} {old new : TenantUser} (h : op.Grounded cfg times db)
    (hids : db.Identified) (hold : old ∈ db.tenantUsers) (hrewrites : op.Rewrites old new) :
    new.status = old.status ∨ new.status = .DELETED ∨ old.status ∈ SEAT_HOLDING_STATUSES ∨
      ∃ invite ∈ db.userInvites, ∃ now, times now ∧ invite.tenantUserId = some old.id ∧
        invite.status = .PENDING ∧ now < invite.expiresAt ∧ old.status = .PENDING_INVITE := by
  have hmember {userId : ℕ} {status : TenantUserStatus} (h : db.HasMember userId status)
      (hid : old.id = userId) : old.status = status := by
    obtain ⟨user, huser, hid', hstatus⟩ := h
    rw [hids.members.inj hold huser (hid.trans hid'.symm), hstatus]
  cases op with
  | deactivate actorType | activate actorType =>
    cases actorType with
    | TENANT => rw [hrewrites.2]; exact .inl rfl
    | SYSTEM => exact hrewrites.elim
  | updateTenantUser => rw [hrewrites.2]; exact .inl rfl
  | softDelete | revokeInvite => rw [hrewrites.2]; exact .inr (.inl rfl)
  | approveUser | unlockUser | lockUser =>
    have hstatus := hmember h hrewrites.1
    rw [hstatus]
    exact .inr (.inr (.inl (by decide)))
  | redeemInvite invite member hash fullName redeemedAt =>
    obtain ⟨hinvite, hmem, hpending, hlive, htime, hinvitee, hstatus⟩ := h
    have hsame := hids.members.inj hold hmem hrewrites.1
    refine .inr (.inr (.inr ⟨invite, hinvite, redeemedAt, htime, ?_, hpending, hlive, ?_⟩))
    · rw [hsame, hinvitee]
    · rw [hsame, hstatus]
  | _ => exact hrewrites.elim

theorem Op.RewritesInvite.not_live {old new : UserInvite} (h : op.RewritesInvite old new)
    (hpending : new.status = .PENDING) : new.tenantUserId = none := by
  cases op with
  | resendInvite | revokeInvite =>
    rw [h.2.2] at hpending
    cases hpending
  | redeemInvite =>
    rcases h.2 with ⟨-, -, he⟩ | ⟨-, -, he⟩ <;> rw [he] at hpending <;> cases hpending
  | hardDelete => rw [h.2]
  | _ => exact h.elim

theorem Op.invited_back {userId : ℕ} (hids : db.InviteIds) (hlt : userId < db.nextId)
    (h : (op.perform cfg outside db).2.invited userId now = true) :
    db.invited userId now = true ∨ ∃ existing tokenHash expiresAt invitedById now',
      op = .resendInvite existing tokenHash expiresAt invitedById now' ∧
        existing.tenantUserId = some userId := by
  obtain ⟨invite, hmem, huser, hpending, hlive⟩ := Database.invited_iff.mp h
  rcases Op.perform_inviteChange hids hmem with hold | ⟨old, -, hrewrites⟩ | ⟨-, -, hcreates⟩
  · exact .inl (Database.invited_iff.mpr ⟨invite, hold, huser, hpending, hlive⟩)
  · rw [hrewrites.not_live hpending] at huser
    cases huser
  · cases op with
    | createInvites tenantId' roleId prepared invitedById =>
      obtain ⟨-, -, -, userId', huser', hge⟩ := hcreates
      cases huser.symm.trans huser'
      omega
    | resendInvite existing tokenHash expiresAt invitedById now' =>
      exact .inr ⟨existing, tokenHash, expiresAt, invitedById, now', rfl,
        hcreates.2.2.2.2.2.symm.trans huser⟩
    | _ => exact hcreates.elim

namespace Database.SeatKeys

theorem perform (h : db.SeatKeys) {times : ℕ → Prop} (hgrounded : op.Grounded cfg times db) :
    (op.perform cfg outside db).2.SeatKeys where
  identified := h.identified.perform
  keyed := h.keyed.perform fun existing hash expires by' now' he => by
    subst he
    exact h.keyed.holds hgrounded.1
  tenant invite hinvite user huser heq := by
    have hnewInvite (hgone : db.nextId ≤ user.id) (hold : ∃ old ∈ db.userInvites,
        old.tenantUserId = some user.id) : False := by
      obtain ⟨old, hold, hinvitee⟩ := hold
      have hlt := h.keyed.invitees old hold user.id hinvitee
      omega
    have hinvitee {old : UserInvite} (hrewrites : op.RewritesInvite old invite) :
        old.tenantUserId = some user.id := by
      cases op with
      | resendInvite | revokeInvite => rw [hrewrites.2.2] at heq; exact heq
      | redeemInvite => rcases hrewrites.2 with ⟨-, -, he⟩ | ⟨-, -, he⟩ <;> rw [he] at heq <;> exact heq
      | hardDelete => rw [hrewrites.2] at heq; cases heq
      | _ => exact hrewrites.elim
    have huserBack : (∃ old ∈ db.tenantUsers, old.id = user.id ∧ old.tenantId = user.tenantId) ∨
        db.nextId ≤ user.id ∧ op.Creates user := by
      rcases Op.perform_member huser with hold | ⟨old, hold, hrewrites⟩ | ⟨hge, -, hcreates⟩
      · exact .inl ⟨user, hold, rfl, rfl⟩
      · exact .inl ⟨old, hold, hrewrites.id.symm, hrewrites.owner.1.symm⟩
      · exact .inr ⟨hge, hcreates⟩
    rcases Op.perform_inviteChange h.keyed.inviteIds hinvite with
      hold | ⟨old, hold, hrewrites⟩ | ⟨-, -, hcreates⟩
    · rcases huserBack with ⟨old', hold', hid, htenant⟩ | ⟨hge, -⟩
      · rw [← htenant]
        exact h.tenant invite hold old' hold' (by rw [heq, hid])
      · exact (hnewInvite hge ⟨invite, hold, heq⟩).elim
    · rcases huserBack with ⟨old', hold', hid, htenant⟩ | ⟨hge, -⟩
      · rw [← htenant, hrewrites.columns.2.1]
        exact h.tenant old hold old' hold' (by rw [hinvitee hrewrites, hid])
      · exact (hnewInvite hge ⟨old, hold, hinvitee hrewrites⟩).elim
    · cases op with
      | createInvites tenantId' roleId prepared invitedById =>
        obtain ⟨htenant, -, -, userId, hnew, hge⟩ := hcreates
        rcases huserBack with ⟨old', hold', hid, -⟩ | ⟨-, hmember⟩
        · have hlt := h.identified.members.given old' hold'
          have hsame : userId = user.id := Option.some.inj (hnew.symm.trans heq)
          omega
        · rw [htenant, hmember.1]
      | resendInvite existing hash expires by' now' =>
        obtain ⟨-, htenant, -, -, -, hmember⟩ := hcreates
        rcases huserBack with ⟨old', hold', hid, htenant'⟩ | ⟨-, hmember⟩
        · rw [← htenant', htenant]
          exact h.tenant existing hgrounded.1 old' hold' (by rw [hid, ← hmember, heq])
        · exact hmember.elim
      | _ => exact hcreates.elim

/-- Whoever takes a seat after an operation took one before, is new, or has an expired invite
resent. -/
theorem seated_back (h : db.SeatKeys) (hgrounded : op.Grounded cfg (· = now) db)
    (huser : user ∈ (op.perform cfg outside db).2.tenantUsers)
    (hseated : (op.perform cfg outside db).2.seated tenantId now user = true) :
    (∃ old ∈ db.tenantUsers, db.seated tenantId now old = true ∧ old.id = user.id) ∨ op.Creates user ∨
      ∃ existing tokenHash expiresAt invitedById now',
        op = .resendInvite existing tokenHash expiresAt invitedById now' ∧
        existing.tenantUserId = some user.id ∧ existing.expiresAt ≤ now ∧ existing.tenantId = tenantId := by
  obtain ⟨htenant, hstatus⟩ := seated_iff.mp hseated
  -- the row keeps its status
  have hsame (old : TenantUser) (hold : old ∈ db.tenantUsers) (hid : old.id = user.id)
      (htenant' : old.tenantId = user.tenantId) (heq : user.status = old.status) :
      (∃ old ∈ db.tenantUsers, db.seated tenantId now old = true ∧ old.id = user.id) ∨
        ∃ existing tokenHash expiresAt invitedById now',
          op = .resendInvite existing tokenHash expiresAt invitedById now' ∧
          existing.tenantUserId = some user.id ∧ existing.expiresAt ≤ now ∧
          existing.tenantId = tenantId := by
    rcases hstatus with hholds | ⟨hpending, hinvited⟩
    · exact .inl ⟨old, hold, seated_iff.mpr ⟨htenant'.trans htenant, .inl (heq ▸ hholds)⟩, hid⟩
    · have hlt : user.id < db.nextId := hid ▸ h.identified.members.given old hold
      rcases Op.invited_back h.keyed.inviteIds hlt hinvited with
        hbefore | ⟨existing, hash, expires, by', now', rfl, hinvitee⟩
      · refine .inl ⟨old, hold, seated_iff.mpr ⟨htenant'.trans htenant, .inr ⟨heq ▸ hpending, ?_⟩⟩, hid⟩
        rw [hid]
        exact hbefore
      · obtain ⟨hmem, hstatus', -⟩ := hgrounded
        by_cases hlive : now < existing.expiresAt
        · refine .inl ⟨old, hold, seated_iff.mpr ⟨htenant'.trans htenant, .inr ⟨heq ▸ hpending, ?_⟩⟩, hid⟩
          rw [hid]
          exact invited_iff.mpr ⟨existing, hmem, hinvitee, hstatus', hlive⟩
        · refine .inr ⟨existing, hash, expires, by', now', rfl, hinvitee, by omega, ?_⟩
          rw [← h.tenant existing hmem old hold (by rw [hinvitee, hid]), htenant', htenant]
  rcases Op.perform_member huser with hold | ⟨old, hold, hrewrites⟩ | ⟨-, -, hcreates⟩
  · exact (hsame user hold rfl rfl rfl).imp_right .inr
  · have hid := hrewrites.id
    have htenant' := hrewrites.owner.1
    rcases hgrounded.status h.identified hold hrewrites with
      heq | hdeleted | hholds | ⟨invite, hinvite, now', rfl, hinvitee, hpending, hlive, hstatus'⟩
    · exact (hsame old hold hid.symm htenant'.symm heq).imp_right .inr
    · rw [hdeleted] at hstatus
      rcases hstatus with hholds | ⟨hpending, -⟩
      · exact absurd hholds (by decide)
      · cases hpending
    · exact .inl ⟨old, hold, seated_iff.mpr ⟨htenant'.symm.trans htenant, .inl hholds⟩, hid.symm⟩
    · refine .inl ⟨old, hold, seated_iff.mpr ⟨htenant'.symm.trans htenant, .inr ⟨hstatus', ?_⟩⟩, hid.symm⟩
      exact invited_iff.mpr ⟨invite, hinvite, hinvitee, hpending, hlive⟩
  · exact .inr (.inl hcreates)

end Database.SeatKeys

/-! ### The quota -/

/-- The tenant's quota is `max`, and its members take no more seats. -/
structure Database.WithinSeats (tenantId : String) (max now : ℕ) (db : Database) : Prop where
  keys : db.SeatKeys
  quota : db.resolveMaxUsers tenantId = max
  seats : db.usedSeats tenantId now ≤ max

namespace Database.WithinSeats

variable {max : ℕ}

theorem room (h : db.WithinSeats tenantId max now) {n : ℕ} (hroom : db.HasRoom (· = now) tenantId n) :
    db.usedSeats tenantId now + n ≤ max := by
  obtain ⟨now', rfl, hroom⟩ := hroom
  rw [h.quota] at hroom
  omega

theorem newMembers (h : db.WithinSeats tenantId max now) {tenantId' : String} {n : ℕ}
    (hroom : db.HasRoom (· = now) tenantId' n)
    (hseats : db'.usedSeats tenantId now ≤ db.usedSeats tenantId now + if tenantId' = tenantId then n else 0) :
    db'.usedSeats tenantId now ≤ max := by
  split at hseats
  · rename_i htenant
    subst htenant
    exact hseats.trans (h.room hroom)
  · exact hseats.trans h.seats

theorem perform_rewrites (h : db.WithinSeats tenantId max now) (hgrounded : op.Grounded cfg (· = now) db)
    (hcreates : ∀ new, ¬ op.Creates new) : (op.perform cfg outside db).2.usedSeats tenantId now ≤ max := by
  have hkeys : (op.perform cfg outside db).2.SeatKeys := h.keys.perform hgrounded
  by_cases hresent : ∃ existing tokenHash expiresAt invitedById now',
      op = .resendInvite existing tokenHash expiresAt invitedById now' ∧ existing.expiresAt ≤ now ∧
      existing.tenantId = tenantId
  · obtain ⟨existing, hash, expires, by', now', rfl, hexpired, htenant⟩ := hresent
    have hroom : db.HasRoom (· = now) tenantId 1 := by
      rcases hgrounded.2.2 with hroom | ⟨now'', rfl, hlive⟩
      · exact htenant ▸ hroom
      · omega
    have hone : existing.tenantUserId.toList.length ≤ 1 := by cases existing.tenantUserId <;> simp
    have hcount : ((Op.resendInvite existing hash expires by' now').perform cfg outside db).2.usedSeats
        tenantId now ≤ db.usedSeats tenantId now + existing.tenantUserId.toList.length := by
      refine usedSeats_le hkeys.identified _ fun user huser hseated => ?_
      rcases h.keys.seated_back hgrounded huser hseated with hold | hnew | ⟨_, _, _, _, _, he, hinvitee, -, -⟩
      · exact .inl hold
      · exact (hcreates user hnew).elim
      · cases he
        exact .inr (by simp [hinvitee])
    have hfree := h.room hroom
    omega
  · have hcount : (op.perform cfg outside db).2.usedSeats tenantId now ≤
        db.usedSeats tenantId now + ([] : List ℕ).length := by
      refine usedSeats_le hkeys.identified [] fun user huser hseated => ?_
      rcases h.keys.seated_back hgrounded huser hseated with
        hold | hnew | ⟨existing, hash, expires, by', now', he, -, hexpired, htenant⟩
      · exact .inl hold
      · exact (hcreates user hnew).elim
      · exact (hresent ⟨existing, hash, expires, by', now', he, hexpired, htenant⟩).elim
    exact hcount.trans h.seats

theorem Op.keeps_tenants : (op.perform cfg outside db).2.tenants = db.tenants :=
  Op.perform_rows (t := .tenants) (by cases op <;> simp [Op.writes])

theorem perform (h : db.WithinSeats tenantId max now) (hgrounded : op.Grounded cfg (· = now) db) :
    (op.perform cfg outside db).2.WithinSeats tenantId max now where
  keys := h.keys.perform hgrounded
  quota := by
    rw [resolveMaxUsers, Op.keeps_tenants]
    exact h.quota
  seats := by
    have hother (hcreates : ∀ new, ¬ op.Creates new) :
        (op.perform cfg outside db).2.usedSeats tenantId now ≤ max := h.perform_rewrites hgrounded hcreates
    rcases Op.perform_cases cfg outside op db with ⟨hdb, -⟩ | heffect
    · rw [hdb]
      exact h.seats
    have hmember {account : AuthAccount} {member : TenantUser}
        (hroom : db.HasRoom (· = now) member.tenantId 1) :
        (db.createMember account member).2.usedSeats tenantId now ≤ max :=
      h.newMembers hroom (newMember_seats { member with id := db.nextId + 1, authAccountId := db.nextId }
        h.keys.identified (h.keys.identified.createMember account member) rfl fun _ _ h => h)
    cases op with
    | directCreate t email fullName hash roleId =>
      rw [heffect, Op.effect, Database.directCreate]
      split
      · exact h.seats
      · exact hmember hgrounded.1
    | register t email fullName hash requiresApproval roleId =>
      rw [heffect, Op.effect, Database.register]
      split
      · exact h.seats
      · exact hmember hgrounded.1
    | createInvites t roleId prepared invitedById =>
      rw [heffect]
      exact h.newMembers hgrounded.1 (createInvites_seats h.keys.identified)
    | _ => exact hother fun new hnew => hnew

end Database.WithinSeats

end

theorem refused_batch_creates_nothing {cfg : Config} {v : Serving} {dto : CreateUserInvitesDto}
    {user : AuthenticatedUser} (hv : v.request = .createInvites dto user) {db : Database}
    {e : ServiceError} (h : (v.serve cfg db).1 = .error e) : (v.serve cfg db).2 = db := by
  have hbatch : Outline (serving cfg fun _ => True) (· = db) (createInvites cfg dto user)
      (fun _ _ => True) fun _ => (· = db) := by
    refine createInvites_batch dto user fun tenantId roleId prepared => ?_
    refine outline_request fun db' outside hdb _ => ⟨fun created ha => ?_, fun e he => ?_⟩
    · cases created with
      | some invites => trivial
      | none =>
        rcases Op.perform_cases cfg outside (.createInvites tenantId roleId prepared user.tenantUserId) db' with
          ⟨hsame, -⟩ | heffect
        · exact hsame.trans hdb.1
        · rw [heffect, Op.effect, Database.createInvites] at ha ⊢
          split at ha
          · exact hdb.1
          · cases ha
    · rcases Op.perform_cases cfg outside (.createInvites tenantId roleId prepared user.tenantUserId) db' with
        ⟨hsame, -⟩ | heffect
      · exact hsame.trans hdb.1
      · rw [heffect, Op.effect, Database.createInvites] at he
        split at he <;> cases he
  have hcode : Outline (serving cfg fun _ => True) (· = db) (v.request.code cfg)
      (fun _ _ => True) fun _ => (· = db) := by
    rw [hv]
    refine jwtAuthGuard_outline.bind fun _ => Outline.bind (Q := fun _ => (· = db)) ?_ fun _ => hbatch
    exact outline_reads (requireInvitePermission_makes (H := fun _ => False)) fun _ h => h.elim
  have hexec (i : ℕ) (op : Op) (db : Database) : (serving cfg fun _ => True).exec op db
      (op.perform cfg (v.outside i) db).2 (op.perform cfg (v.outside i) db).1 :=
    ⟨v.outside i, trivial, rfl⟩
  have hrun := (hcode db rfl).eval v.ctx _ (fun _ => trivial) hexec 0
  unfold Serving.serve at h ⊢
  revert h hrun
  cases (v.request.code cfg).eval v.ctx (fun i op db => op.perform cfg (v.outside i) db) 0 db with
  | mk result db' =>
    cases result with
    | ok a =>
      intro h
      cases h
    | error e' => exact fun _ hrun => hrun

/-- The quota of a tenant holds after every request, and a refused batch creates nothing. -/
theorem seats_within_quota {cfg : Config} {tenantId : String} {max : ℕ} {s₀ s : Desk}
    (h₀ : s₀.db.WithinSeats tenantId max s₀.clock) (h : Reach (Desk.step cfg) Desk.instantly s₀ s) :
    s.db.usedSeats tenantId s.clock ≤ max ∧ ∀ (v : Serving) (dto : CreateUserInvitesDto)
      (user : AuthenticatedUser) (e : ServiceError), v.request = .createInvites dto user →
      (v.serve cfg s.db).1 = .error e → (v.serve cfg s.db).2 = s.db := by
  have hwithin : s.db.WithinSeats tenantId max s.clock := by
    refine h.invariant (I := fun s => s.db.WithinSeats tenantId max s.clock) h₀ fun s s' e _ hs hok hstep => ?_
    cases e with
    | serve v =>
      cases Option.some.inj hstep
      have hkept : KeptByGrounded cfg (· = s.clock) fun db => db.WithinSeats tenantId max s.clock :=
        fun op db outside hdb hgrounded _ => hdb.perform hgrounded
      exact Serving.serve_keeps hkept hok hs
    | tick d =>
      cases Option.some.inj hstep
      have hlater : s.db.usedSeats tenantId (s.clock + d) ≤ s.db.usedSeats tenantId s.clock :=
        Database.usedSeats_later (Nat.le_add_right _ d)
      exact ⟨hs.keys, hs.quota, hlater.trans hs.seats⟩
  exact ⟨hwithin.seats, fun v dto user e hv herror => refused_batch_creates_nothing hv herror⟩

/-! ### A tenant with three seats -/

/-- Ann and Bob, and room for one more. -/
def threeSeats : Desk where
  db := { acmeDb with tenants := [{ id := "acme", status := .ACTIVE, maxUsers := 3 }] }
  clock := 0

theorem threeSeats_within : threeSeats.db.WithinSeats "acme" 3 threeSeats.clock where
  keys := {
    identified := ⟨⟨by decide, by decide⟩, ⟨by decide, by decide⟩⟩
    keyed := ⟨by decide, ⟨by decide, by decide⟩, by decide⟩
    tenant := by decide }
  quota := by decide +kernel
  seats := by decide +kernel

def quietlyAt (now : ℕ) (r : Request) : DeskEvent :=
  .serve ⟨r, fun _ => { acmeContext "" with now := now }, fun _ => { quiet with now := now }⟩

/-- An invite, two more that are refused, and the same after the first has expired; to send
the first one again is refused then. -/
def fillSeats : List DeskEvent :=
  [quietlyAt 0 (.createInvites ⟨["carol@acme.io"], none⟩ ann),
    quietlyAt 0 (.createInvites ⟨["dan@acme.io"], none⟩ ann),
    .tick INVITE_TOKEN_TTL_MS,
    quietlyAt INVITE_TOKEN_TTL_MS (.createInvites ⟨["dan@acme.io"], none⟩ ann),
    quietlyAt INVITE_TOKEN_TTL_MS (.resendInvite 8 ann)]

theorem allOk_quietly {cfg : Config} {db : Database} {now : ℕ} {r : Request} {es : List DeskEvent}
    (h : ∀ db, AllOk (Desk.step cfg) Desk.instantly ⟨db, now⟩ es) :
    AllOk (Desk.step cfg) Desk.instantly ⟨db, now⟩ (quietlyAt now r :: es) := by
  refine ⟨fun _ => ⟨rfl, rfl⟩, fun s' hs' => ?_⟩
  cases Option.some.inj hs'
  exact h _

theorem allOk_tick {cfg : Config} {db : Database} {now d : ℕ} {es : List DeskEvent}
    (h : AllOk (Desk.step cfg) Desk.instantly ⟨db, now + d⟩ es) :
    AllOk (Desk.step cfg) Desk.instantly ⟨db, now⟩ (.tick d :: es) := by
  refine ⟨trivial, fun s' hs' => ?_⟩
  cases Option.some.inj hs'
  exact h

theorem allOk_fillSeats : AllOk (Desk.step plainConfig) Desk.instantly threeSeats fillSeats := by
  refine allOk_quietly fun _ => allOk_quietly fun _ => allOk_tick ?_
  rw [Nat.zero_add]
  exact allOk_quietly fun _ => allOk_quietly fun _ => trivial

theorem seats_within_quota_three : ∃ s, Reach (Desk.step plainConfig) Desk.instantly threeSeats s ∧
    s.db.tenantUsers.length = 4 ∧ s.db.usedSeats "acme" s.clock ≤ 3 := by
  have hrun : (runAll (Desk.step plainConfig) threeSeats fillSeats).any
      (fun s => s.db.tenantUsers.length = 4) = true := by
    decide +kernel
  obtain ⟨s, hs, hlength⟩ := (Option.any_eq_true _ _).mp hrun
  have hreach : Reach (Desk.step plainConfig) Desk.instantly threeSeats s := .of_runAll allOk_fillSeats hs
  exact ⟨s, hreach, by simpa using hlength, (seats_within_quota threeSeats_within hreach).1⟩

end Flexi.Accounts
