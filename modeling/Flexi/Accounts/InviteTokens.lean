import Flexi.Accounts.DeletedMembers
import Flexi.Accounts.InviteChanges
import Flexi.Accounts.RowIds

/-!
# The tokens of invites

Any number of requests that send, resend, withdraw and redeem invites, in any order. A
token denotes one row of `UserInvite`; the row stays in its place and leaves `PENDING`
once.
-/

namespace Flexi.Accounts
open Flexi.Library

/-- An invite later on: the same invitation, and retired if it was. -/
structure UserInvite.Same (old new : UserInvite) : Prop where
  kept : old.Kept new
  tokenHash : new.tokenHash = old.tokenHash
  expiresAt : new.expiresAt = old.expiresAt

namespace UserInvite.Same

theorem refl (invite : UserInvite) : invite.Same invite := ⟨.refl invite, rfl, rfl⟩

theorem trans {a b c : UserInvite} (h : a.Same b) (h' : b.Same c) : a.Same c :=
  ⟨h.kept.trans h'.kept, h'.tokenHash.trans h.tokenHash, h'.expiresAt.trans h.expiresAt⟩

theorem revoked (invite : UserInvite) (now : ℕ) : invite.Same (invite.revoke now) :=
  ⟨⟨rfl, rfl, fun _ h => nomatch h⟩, rfl, rfl⟩

theorem used (invite : UserInvite) (now : ℕ) :
    invite.Same { invite with status := .USED, usedAt := some now } :=
  ⟨⟨rfl, rfl, fun _ h => nomatch h⟩, rfl, rfl⟩

end UserInvite.Same

/-- Every invite stays in its place, and new ones come after. -/
def Database.InvitesStay (db db' : Database) : Prop :=
  ∃ (f : UserInvite → UserInvite) (new : List UserInvite),
    db'.userInvites = db.userInvites.map f ++ new ∧ ∀ row : UserInvite, row.Same (f row)

def Database.inviteOfToken (db : Database) (tokenHash : String) : Option UserInvite :=
  db.userInvites.find? (·.tokenHash = tokenHash)

section
variable {cfg : Config} {outside : Outside} {db d d' : Database} {op : Op}

namespace Database.InvitesStay

theorem refl (db : Database) : db.InvitesStay db :=
  ⟨id, [], by simp, fun row => .refl row⟩

theorem of_eq (h : db.InvitesStay d) (hrows : d'.userInvites = d.userInvites) : db.InvitesStay d' := by
  obtain ⟨f, new, he, hf⟩ := h
  exact ⟨f, new, hrows.trans he, hf⟩

theorem updateMany (h : db.InvitesStay d) {p : UserInvite → Bool} {g : UserInvite → UserInvite}
    (hg : ∀ row : UserInvite, row.Same (g row)) (hrows : d'.userInvites = Library.updateMany p g d.userInvites) :
    db.InvitesStay d' := by
  obtain ⟨f, new, he, hf⟩ := h
  have hstep : ∀ row : UserInvite, row.Same (if p row then g row else row) := by
    intro row
    split
    · exact hg row
    · exact .refl row
  refine ⟨fun row => if p (f row) then g (f row) else f row, Library.updateMany p g new, ?_,
    fun row => (hf row).trans (hstep (f row))⟩
  rw [hrows, he, Library.updateMany, List.map_append, List.map_map]
  rfl

theorem append (h : db.InvitesStay d) {invite : UserInvite}
    (hrows : d'.userInvites = d.userInvites ++ [invite]) : db.InvitesStay d' := by
  obtain ⟨f, new, he, hf⟩ := h
  exact ⟨f, new ++ [invite], by rw [hrows, he, List.append_assoc], hf⟩

theorem retire (h : db.InvitesStay d) (p : UserInvite → Bool) (now : ℕ) :
    db.InvitesStay (d.retireInvites p now) :=
  h.updateMany (g := fun invite => invite.revoke now) (fun _ => .revoked _ now) rfl

theorem inviteOfToken (h : db.InvitesStay d) {tokenHash : String} {row : UserInvite}
    (hrow : db.inviteOfToken tokenHash = some row) :
    ∃ row', d.inviteOfToken tokenHash = some row' ∧ row.Same row' := by
  obtain ⟨f, new, he, hf⟩ := h
  have hp : (fun invite : UserInvite => decide (invite.tokenHash = tokenHash)) ∘ f =
      fun invite => decide (invite.tokenHash = tokenHash) := by
    funext invite
    simp only [Function.comp_apply, (hf invite).tokenHash]
  refine ⟨f row, ?_, hf row⟩
  have hfound : db.userInvites.find? (·.tokenHash = tokenHash) = some row := hrow
  rw [Database.inviteOfToken, he, List.find?_append, List.find?_map, hp, hfound]
  rfl

theorem mem (h : db.InvitesStay d) {row : UserInvite} (hrow : row ∈ db.userInvites) :
    ∃ row' ∈ d.userInvites, row.Same row' := by
  obtain ⟨f, new, he, hf⟩ := h
  exact ⟨f row, he ▸ List.mem_append_left new (List.mem_map_of_mem hrow), hf row⟩

end Database.InvitesStay

theorem Op.effect_invitesStay (h : ∀ source target now, op ≠ .hardDelete source target now) :
    db.InvitesStay (op.effect cfg outside db).2 := by
  have hrefl : db.InvitesStay db := .refl db
  by_cases hw : Table.userInvites ∈ op.writes
  · cases op with
    | createInvites tenantId roleId prepared invitedById =>
      refine Database.createInvites_keeps (P := db.InvitesStay) (fun d p x hd hx => ?_) hrefl
      unfold Database.inviteMember at hx
      split at hx
      · cases hx
      · cases hx
        exact hd.append rfl
    | resendInvite existing tokenHash expiresAt invitedById now =>
      rw [effect, Database.resendInvite]
      split
      · exact hrefl
      · exact (hrefl.retire (·.id = existing.id) now).append rfl
    | revokeInvite existing now =>
      rw [effect, Database.revokeInvite]
      split
      · exact hrefl
      · cases existing.tenantUserId with
        | none => exact hrefl.retire _ now
        | some userId =>
          refine Database.ifMember_keeps (P := db.InvitesStay) hrefl fun _ _ => ?_
          have hfirst : db.InvitesStay (db.retireInvites (·.id = existing.id) now) := hrefl.retire _ now
          exact hfirst.retire _ now
    | redeemInvite invite member hash fullName now =>
      rw [effect, Database.redeemInvite]
      split
      · exact hrefl
      · refine Database.ifAccount_keeps (P := db.InvitesStay) hrefl fun _ _ => ?_
        refine Database.ifMember_keeps (P := db.InvitesStay) hrefl fun _ _ => ?_
        refine Database.InvitesStay.retire ?_ _ now
        exact hrefl.updateMany (p := (·.id = invite.id)) (fun row => .used row now) rfl
    | hardDelete source target now => exact absurd rfl (h source target now)
    | _ => simp [writes] at hw
  · exact hrefl.of_eq (effect_rows (t := .userInvites) hw)

theorem Op.perform_invitesStay (h : ∀ source target now, op ≠ .hardDelete source target now) :
    db.InvitesStay (op.perform cfg outside db).2 := by
  rcases perform_cases cfg outside op db with ⟨hdb, -⟩ | heffect
  · rw [hdb]
    exact .refl db
  · rw [heffect]
    exact effect_invitesStay h

/-! ### Withdrawals and redemptions -/

/-- The invite that an answer says is retired: by a resend or by a revocation. -/
def Op.withdraws : (op : Op) → Except ServiceError op.Res → Option ℕ
  | resendInvite existing _ _ _ _, .ok (some _) => some existing.id
  | revokeInvite existing _, .ok (some _) => some existing.id
  | _, _ => none

theorem Database.retired_retireInvites {p : UserInvite → Bool} {now inviteId : ℕ}
    (hp : ∀ row : UserInvite, row.id = inviteId → p row = true) :
    ∀ row ∈ (db.retireInvites p now).userInvites, row.id = inviteId → row.status ≠ .PENDING := by
  intro row hrow hid hpending
  rcases mem_retireInvites hrow with ⟨-, hkept⟩ | ⟨old, -, -, -, rfl⟩
  · have hno := hkept hpending
    rw [hp row hid] at hno
    cases hno
  · cases hpending

theorem Op.perform_withdraws (hids : db.InviteIds) {inviteId : ℕ}
    (h : op.withdraws (op.perform cfg outside db).1 = some inviteId) :
    ∀ row ∈ (op.perform cfg outside db).2.userInvites, row.id = inviteId → row.status ≠ .PENDING := by
  rcases perform_cases cfg outside op db with ⟨-, e, he⟩ | heffect
  · rw [he] at h
    cases op <;> cases h
  rw [heffect] at h ⊢
  cases op with
  | resendInvite existing tokenHash expiresAt invitedById now =>
    rw [effect, Database.resendInvite] at h ⊢
    split at h
    · cases h
    · rename_i hpending
      rw [if_neg hpending]
      cases h
      have hretired : ∀ row ∈ (db.retireInvites (·.id = existing.id) now).userInvites,
          row.id = existing.id → row.status ≠ .PENDING :=
        Database.retired_retireInvites fun row hid => decide_eq_true hid
      intro row hrow hid
      rcases List.mem_append.mp hrow with hold | hnew
      · exact hretired row hold hid
      · -- the replacement has an id of its own
        cases List.mem_singleton.mp hnew
        have hsome : db.isPending existing.id = true := by simpa using hpending
        obtain ⟨old, hold, hp⟩ := List.any_eq_true.mp hsome
        simp only [Bool.and_eq_true, decide_eq_true_eq] at hp
        have hlt := hids.given old hold
        have hid : db.nextId = existing.id := hid
        omega
  | revokeInvite existing now =>
    rw [effect, Database.revokeInvite] at h ⊢
    split at h
    · cases h
    · rename_i hpending
      rw [if_neg hpending]
      have hretired : ∀ row ∈ (db.retireInvites (·.id = existing.id) now).userInvites,
          row.id = existing.id → row.status ≠ .PENDING :=
        Database.retired_retireInvites fun row hid => decide_eq_true hid
      cases huser : existing.tenantUserId with
      | none =>
        simp only [huser] at h ⊢
        cases h
        exact hretired
      | some userId =>
        simp only [huser, Database.ifMember] at h ⊢
        cases hmember : db.member? userId with
        | none =>
          simp only [hmember] at h
          cases h
        | some member =>
          simp only [hmember] at h ⊢
          cases h
          intro row hrow hid hpending
          rcases Database.mem_retireInvites hrow with ⟨hold, -⟩ | ⟨old, -, -, -, rfl⟩
          · exact hretired row hold hid hpending
          · cases hpending
  | _ => cases h

theorem Op.perform_redeems {invite : UserInvite} {user : TenantUser} {hash fullName : String} {now : ℕ}
    (h : ((redeemInvite invite user hash fullName now).perform cfg outside db).2 ≠ db ∨
      ((redeemInvite invite user hash fullName now).perform cfg outside db).1 = .ok true) :
    ((redeemInvite invite user hash fullName now).perform cfg outside db).1 = .ok true ∧
      ∃ old ∈ db.userInvites, old.id = invite.id ∧ old.status = .PENDING ∧ now < old.expiresAt ∧
        { old with status := .USED, usedAt := some now } ∈
          ((redeemInvite invite user hash fullName now).perform cfg outside db).2.userInvites := by
  rcases perform_cases cfg outside (redeemInvite invite user hash fullName now) db with
    ⟨hdb, e, he⟩ | heffect
  · rw [hdb, he] at h
    rcases h with hne | heq
    · exact absurd rfl hne
    · cases heq
  rw [heffect] at h ⊢
  rw [effect, Database.redeemInvite] at h ⊢
  split at h
  · rcases h with hne | heq
    · exact absurd rfl hne
    · cases heq
  · rename_i hguard
    rw [if_neg hguard]
    have hexists : ∃ old ∈ db.userInvites, old.id = invite.id ∧ old.status = .PENDING ∧
        now < old.expiresAt := by
      simpa [List.all_eq_true, and_assoc] using hguard
    obtain ⟨old, hold, hid, hstatus, hexpires⟩ := hexists
    simp only [Database.ifAccount, Database.ifMember] at h ⊢
    cases haccount : db.account? user.authAccountId with
    | none => simp [haccount] at h
    | some account =>
      cases hmember : db.member? user.id with
      | none => simp [haccount, hmember] at h
      | some member =>
        refine ⟨rfl, old, hold, hid, hstatus, hexpires, ?_⟩
        have hused : { old with status := .USED, usedAt := some now } ∈ updateMany (·.id = invite.id)
            (fun row => { row with status := .USED, usedAt := some now }) db.userInvites :=
          mem_updateMany.mpr ⟨old, hold, by rw [if_pos (decide_eq_true hid)]⟩
        exact mem_updateMany.mpr ⟨_, hused, by simp⟩

theorem Op.resend_withdraws {existing : UserInvite} {tokenHash : String} {expiresAt now : ℕ}
    {invitedById : Option ℕ}
    (h : ((resendInvite existing tokenHash expiresAt invitedById now).perform cfg outside db).2 ≠ db) :
    withdraws (resendInvite existing tokenHash expiresAt invitedById now)
      ((resendInvite existing tokenHash expiresAt invitedById now).perform cfg outside db).1 =
        some existing.id ∧
    ((resendInvite existing tokenHash expiresAt invitedById now).perform cfg outside db).2.nextId =
      db.nextId + 1 := by
  rcases perform_cases cfg outside (resendInvite existing tokenHash expiresAt invitedById now) db with
    ⟨hdb, -⟩ | heffect
  · exact absurd hdb h
  rw [heffect] at h ⊢
  rw [effect, Database.resendInvite] at h ⊢
  split at h
  · exact absurd rfl h
  · rename_i hpending
    rw [if_neg hpending]
    exact ⟨rfl, rfl⟩

/-! ### One pending invite each -/

def Database.pendingInvites (db : Database) (userId : ℕ) : List UserInvite :=
  db.userInvites.filter fun invite => invite.tenantUserId = some userId && invite.status = .PENDING

/-- Pending invites of one member are one. -/
def Database.OnePending (db : Database) : Prop :=
  ∀ a ∈ db.userInvites, ∀ b ∈ db.userInvites, a.status = .PENDING → b.status = .PENDING →
    ∀ userId, a.tenantUserId = some userId → b.tenantUserId = some userId → a.id = b.id

/-- Every invite of a batch has its own member. -/
theorem Op.createInvites_pairs {tenantId : String} {roleId invitedById : Option ℕ}
    {prepared : List PreparedInvite} :
    ∀ new ∈ ((createInvites tenantId roleId prepared invitedById).perform cfg outside db).2.userInvites,
      new ∈ db.userInvites ∨ ∃ userId, new.tenantUserId = some userId ∧ new.id = userId + 1 := by
  rcases perform_cases cfg outside (createInvites tenantId roleId prepared invitedById) db with
    ⟨hdb, -⟩ | heffect
  · rw [hdb]
    exact fun new hnew => .inl hnew
  rw [heffect]
  refine Database.createInvites_keeps (P := fun d => ∀ new ∈ d.userInvites,
    new ∈ db.userInvites ∨ ∃ userId, new.tenantUserId = some userId ∧ new.id = userId + 1)
    (fun d p x hd hx => ?_) fun new hnew => .inl hnew
  unfold Database.inviteMember at hx
  split at hx
  · cases hx
  · cases hx
    intro new hnew
    rcases List.mem_append.mp hnew with hold | hnew
    · exact hd new hold
    · cases List.mem_singleton.mp hnew
      exact .inr ⟨d.nextId + 1, rfl, rfl⟩

theorem Op.ChangesInvite.pending {db' : Database} {new : UserInvite} {userId : ℕ}
    (h : op.ChangesInvite db db' new) (hpending : new.status = .PENDING)
    (huser : new.tenantUserId = some userId) :
    (∃ old ∈ db.userInvites, old.id = new.id ∧ old.status = .PENDING ∧ old.tenantUserId = some userId) ∨
      db.nextId ≤ new.id ∧ new.id < db'.nextId ∧ op.CreatesInvite db new := by
  rcases h with hold | ⟨old, hold, hrewrites⟩ | hnew
  · exact .inl ⟨new, hold, rfl, hpending, huser⟩
  · cases op with
    | resendInvite | revokeInvite =>
      rw [hrewrites.2.2] at hpending
      cases hpending
    | redeemInvite =>
      rcases hrewrites.2 with ⟨-, -, he⟩ | ⟨-, -, he⟩ <;> rw [he] at hpending <;> cases hpending
    | hardDelete =>
      rw [hrewrites.2] at huser
      cases huser
    | _ => exact hrewrites.elim
  · exact .inr hnew

theorem Database.OnePending.perform (h : db.OnePending) (hids : db.InviteIds)
    (hinvitees : ∀ invite ∈ db.userInvites, ∀ userId, invite.tenantUserId = some userId → userId < db.nextId)
    (hop : ∀ existing tokenHash expiresAt invitedById now,
      op = .resendInvite existing tokenHash expiresAt invitedById now →
        ∃ row ∈ db.userInvites, existing.Same row) :
    (op.perform cfg outside db).2.OnePending := by
  -- an invite that is new and one from before
  have mixed : ∀ a ∈ (op.perform cfg outside db).2.userInvites,
      ∀ b ∈ (op.perform cfg outside db).2.userInvites, b.status = .PENDING →
      ∀ userId, a.tenantUserId = some userId → db.nextId ≤ a.id → op.CreatesInvite db a →
      ∀ old ∈ db.userInvites, old.id = b.id → old.status = .PENDING → old.tenantUserId = some userId →
      False := by
    intro a ha b hb hpending userId huser hge hcreates old hold hid hstatus huser'
    cases op with
    | createInvites =>
      obtain ⟨userId', hu, hge'⟩ := hcreates.2.2.2
      cases huser.symm.trans hu
      have hlt := hinvitees old hold userId huser'
      omega
    | resendInvite existing tokenHash expiresAt invitedById now =>
      obtain ⟨hsome, -, -, -, -, hmember⟩ := hcreates
      obtain ⟨row, hrow, hsame⟩ := hop existing tokenHash expiresAt invitedById now rfl
      obtain ⟨live, hlive, hp⟩ := List.any_eq_true.mp hsome
      simp only [Bool.and_eq_true, decide_eq_true_eq] at hp
      have hrowlive : row = live :=
        List.inj_on_of_nodup_map hids.unique hrow hlive (hsame.kept.id.trans hp.1.symm)
      subst hrowlive
      have hrowuser : row.tenantUserId = some userId :=
        hsame.kept.tenantUserId.trans (hmember.symm.trans huser)
      have hb' : b.id = existing.id :=
        hid.symm.trans ((h old hold row hrow hstatus hp.2 userId huser' hrowuser).trans hp.1)
      have hne : ((Op.resendInvite existing tokenHash expiresAt invitedById now).perform cfg outside db).2 ≠ db := by
        intro hdb
        rw [hdb] at ha
        have hlt := hids.given a ha
        omega
      exact Op.perform_withdraws hids (Op.resend_withdraws hne).1 b hb hb' hpending
    | _ => exact hcreates.elim
  intro a ha b hb hpa hpb userId hua hub
  rcases (Op.perform_inviteChange hids ha).pending hpa hua with
    ⟨old, hold, hid, hstatus, huser⟩ | ⟨hge, hlt, hcreates⟩
  · rcases (Op.perform_inviteChange hids hb).pending hpb hub with
      ⟨old', hold', hid', hstatus', huser'⟩ | ⟨hge', hlt', hcreates'⟩
    · have heq := h old hold old' hold' hstatus hstatus' userId huser huser'
      omega
    · exact (mixed b hb a ha hpa userId hub hge' hcreates' old hold hid hstatus huser).elim
  · rcases (Op.perform_inviteChange hids hb).pending hpb hub with
      ⟨old', hold', hid', hstatus', huser'⟩ | ⟨hge', hlt', hcreates'⟩
    · exact (mixed a ha b hb hpb userId hua hge hcreates old' hold' hid' hstatus' huser').elim
    · cases op with
      | createInvites =>
        rcases Op.createInvites_pairs a ha with hold | ⟨u, hu, hid⟩
        · have hlt := hids.given a hold
          omega
        · rcases Op.createInvites_pairs b hb with hold' | ⟨u', hu', hid'⟩
          · have hlt := hids.given b hold'
            omega
          · cases hu.symm.trans hua
            cases hu'.symm.trans hub
            omega
      | resendInvite existing tokenHash expiresAt invitedById now =>
        have hne : ((Op.resendInvite existing tokenHash expiresAt invitedById now).perform cfg outside db).2 ≠ db := by
          intro hdb
          rw [hdb] at ha
          have hlt := hids.given a ha
          omega
        have hn := (Op.resend_withdraws hne).2
        omega
      | _ => exact hcreates.elim

theorem Database.OnePending.length (h : db.OnePending) (hids : db.InviteIds) (userId : ℕ) :
    (db.pendingInvites userId).length ≤ 1 := by
  have hnodup : (db.pendingInvites userId).Nodup :=
    (List.Nodup.of_map _ hids.unique).filter _
  have hall : ∀ a ∈ db.pendingInvites userId, ∀ b ∈ db.pendingInvites userId, a = b := by
    intro a ha b hb
    obtain ⟨ha, hpa⟩ := List.mem_filter.mp ha
    obtain ⟨hb, hpb⟩ := List.mem_filter.mp hb
    simp only [Bool.and_eq_true, decide_eq_true_eq] at hpa hpb
    exact List.inj_on_of_nodup_map hids.unique ha hb (h a ha b hb hpa.2 hpb.2 userId hpa.1 hpb.1)
  cases hrows : db.pendingInvites userId with
  | nil => exact Nat.zero_le _
  | cons a rest =>
    cases rest with
    | nil => exact le_rfl
    | cons b rest =>
      rw [hrows] at hnodup hall
      have heq : a = b := hall a (by simp) b (by simp)
      simp [heq] at hnodup

end

end Flexi.Accounts
