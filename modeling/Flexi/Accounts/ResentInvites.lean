import Flexi.Accounts.DeletedMembers
import Flexi.Accounts.InviteRuns

/-!
# Invites that are sent again

`resendInvite` asks for a pending invite that is somebody's, `redeemInvite` for a member
that is still to join.
-/

namespace Flexi.Accounts
open Flexi.Library

/-! ### Members, their accounts and their invites -/

/-- Every member has its account. -/
def Database.Owned (db : Database) : Prop :=
  ∀ user ∈ db.tenantUsers, ∃ account ∈ db.authAccounts, account.id = user.authAccountId

theorem Database.Owned.kept : KeptByRows (fun _ => True) Database.Owned where
  of_eq h hmembers haccounts _ := by
    unfold Database.Owned
    rw [hmembers, haccounts]
    exact h
  updateMember h hf user huser := by
    obtain ⟨old, hold, rfl⟩ := mem_updateMany.mp huser
    obtain ⟨account, hmem, hid⟩ := h old hold
    refine ⟨account, hmem, ?_⟩
    split
    · rw [hid, (hf old).2]
    · exact hid
  setPassword h user huser := by
    obtain ⟨account, hmem, hid⟩ := h user huser
    refine ⟨_, mem_updateMany.mpr ⟨account, hmem, rfl⟩, ?_⟩
    split <;> exact hid
  createMember {db} account member _ h user huser := by
    have haccounts : (db.createMember account member).2.authAccounts =
      db.authAccounts ++ [{ account with id := db.nextId }] := rfl
    rw [haccounts]
    rcases Database.mem_createMember huser with hold | rfl
    · obtain ⟨found, hmem, hid⟩ := h user hold
      exact ⟨found, List.mem_append_left _ hmem, hid⟩
    · exact ⟨_, List.mem_append_right _ (List.mem_singleton.mpr rfl), rfl⟩
  removeMember gone h user huser := by
    obtain ⟨hmem, hkeeps⟩ := List.mem_filter.mp huser
    simp only [Bool.and_eq_true, decide_eq_true_eq] at hkeeps
    obtain ⟨account, haccount, hid⟩ := h user hmem
    exact ⟨account, List.mem_filter.mpr ⟨haccount, by simpa [hid] using hkeeps.2⟩, hid⟩

theorem Database.Owned.account? {db : Database} (h : db.Owned) {user : TenantUser}
    (huser : user ∈ db.tenantUsers) : (db.account? user.authAccountId).isSome = true := by
  obtain ⟨account, hmem, hid⟩ := h user huser
  exact List.find?_isSome.mpr ⟨account, hmem, by simpa using hid⟩

/-- The member of the invite is of its tenant. -/
def Database.Houses (invite : UserInvite) (db : Database) : Prop :=
  ∀ user ∈ db.tenantUsers, invite.tenantUserId = some user.id → user.tenantId = invite.tenantId

section
variable {cfg : Config} {outside : Outside} {db : Database} {op : Op} {invite : UserInvite}

theorem Database.Houses.perform (h : db.Houses invite)
    (hgiven : ∀ userId, invite.tenantUserId = some userId → userId < db.nextId) :
    (op.perform cfg outside db).2.Houses invite := by
  intro user huser hid
  rcases Op.perform_member huser with hold | ⟨old, hold, hrewrites⟩ | ⟨hge, -, -⟩
  · exact h user hold hid
  · rw [hrewrites.owner.1]
    exact h old hold (hrewrites.id ▸ hid)
  · have hlt := hgiven user.id hid
    omega

theorem Op.perform_houses (hkeyed : db.MembersKeyed)
    (h : ∀ invite ∈ db.userInvites, db.Houses invite)
    (hop : ∀ existing tokenHash expiresAt invitedById now,
      op = .resendInvite existing tokenHash expiresAt invitedById now → db.Holds existing ∧
          db.Houses existing)
    (hmem : invite ∈ (op.perform cfg outside db).2.userInvites) :
    (op.perform cfg outside db).2.Houses invite := by
  rcases Op.perform_inviteChange hkeyed.inviteIds hmem with hold | ⟨old, hold, hrewrites⟩ | ⟨-, -,
      hnew⟩
  · exact (h invite hold).perform (hkeyed.invitees invite hold)
  · have hhoused : (op.perform cfg outside db).2.Houses old :=
    (h old hold).perform (hkeyed.invitees old hold)
    intro user huser hid
    rw [hrewrites.columns.2.1]
    refine hhoused user huser ?_
    cases op with
    | resendInvite | revokeInvite =>
      obtain ⟨-, -, rfl⟩ := hrewrites
      exact hid
    | redeemInvite =>
      rcases hrewrites.2 with ⟨-, -, rfl⟩ | ⟨-, -, rfl⟩ <;> exact hid
    | hardDelete =>
      obtain ⟨-, rfl⟩ := hrewrites
      cases hid
    | _ => exact hrewrites.elim
  · cases op with
    | createInvites tenantId roleId prepared invitedById =>
      obtain ⟨htenant, -, -, userId, huserId, hge⟩ := hnew
      intro user huser hid
      cases huserId.symm.trans hid
      rcases Op.perform_member huser with hold | ⟨old, -, hrewrites⟩ | ⟨-, -, hcreates⟩
      · have hlt := hkeyed.memberIds user hold
        omega
      · exact hrewrites.elim
      · rw [htenant, hcreates.1]
    | resendInvite existing tokenHash expiresAt invitedById now =>
      obtain ⟨-, htenant, -, -, -, hmember⟩ := hnew
      obtain ⟨hholds, hhouses⟩ := hop existing tokenHash expiresAt invitedById now rfl
      intro user huser hid
      rw [htenant]
      exact hhouses.perform hholds.invitee user huser (hmember ▸ hid)
    | _ => exact hnew.elim

end

/-- What the keys of the schema say of a reachable state, and of the invites that requests
have read. -/
structure Server.Linked (cfg : Config) (s : Server) : Prop where
  invited : s.Invited cfg
  owned : s.db.Owned
  housed : ∀ invite ∈ s.db.userInvites, s.db.Houses invite
  reads : s.Follow Request.onInvite inviteLookup
    (fun invite db => db.Holds invite ∧ db.Houses invite) Handles

namespace Server.Linked

variable {cfg : Config} {s₀ s s' : Server}

theorem of_idle (h₀ : s.Idle) (hkeyed : s.db.MembersKeyed) (howned : s.db.Owned)
    (hhoused : ∀ invite ∈ s.db.userInvites, s.db.Houses invite) : s.Linked cfg :=
  ⟨.of_idle h₀ hkeyed, howned, hhoused, .of_idle h₀⟩

theorem handles {i : ℕ} {r : Request} {op : Op} {k : Except ServiceError op.Res → Service Response}
    {invite : UserInvite} (h : s.Linked cfg) (hi : s.requests[i]? = some ⟨r, .awaiting op k⟩)
    (hop : op.invite? = some invite) : s.db.Holds invite ∧ s.db.Houses invite := by
  have hmakes := ((h.invited.code i _ hi).calls (Request.code_makes cfg r)).op rfl
  have hr : r.onInvite := Request.onInvite_of_makes hmakes hop
  cases h.reads i _ hi hr with
  | looking hlooks =>
    have hnone : op.invite? = none := hlooks.1
    rw [hnone] at hop
    cases hop
  | past hfact hq =>
    cases hq.calls.1 invite hop
    exact hfact

theorem step {e : ServerEvent} (h : s.Linked cfg) (hs : s.step cfg e = some s') : s'.Linked cfg :=
  by
  refine ⟨h.invited.step hs, ?_, ?_, h.reads.step hs ?_ ?_ ?_ ?_ ?_ ?_⟩
  · exact step_keeps (P := Database.Owned) hs h.owned fun _ _ _ op _ _ =>
      Database.Owned.kept.perform op.registers_any h.owned
  · refine step_keeps (P := fun db => ∀ invite ∈ db.userInvites, db.Houses invite) hs h.housed ?_
    intro i outside r op k hi invite hmem
    refine Op.perform_houses h.invited.keyed h.housed ?_ hmem
    rintro existing tokenHash expiresAt invitedById now rfl
    exact h.handles hi rfl
  · exact fun r hr => Request.code_invite hr
  · exact fun i outside r op k invite _ _ hfact =>
        ⟨hfact.1.perform, hfact.2.perform hfact.1.invitee⟩
  · intro outside op invite hfound
    have hmem := Op.perform_findsInvite hfound
    have hholds := h.invited.keyed.holds hmem
    exact ⟨hholds.perform, (h.housed invite hmem).perform hholds.invitee⟩
  · exact fun invite p c hp => ⟨Thread.Calls.advance hp.1 c, Thread.Cautious.advance hp.2 c⟩
  · exact fun invite op answer k c hq => ⟨Thread.Calls.advance hq.calls.2 c, hq.member.deliver c⟩
  · intro i outside r op k invite he hr hi hfact hq
    exact ⟨⟨hq.calls.1, hq.calls.2 _ fun _ _ => trivial⟩, hq.member.answer Op.perform_not_mistakes⟩

theorem reach (h : s₀.Linked cfg) (hr : Reach (Server.step cfg) (fun _ _ => True) s₀ s) :
    s.Linked cfg :=
  hr.invariant (I := fun s => s.Linked cfg) h fun _ _ _ _ h _ hs => h.step hs

end Server.Linked

/-! ### Sending an invite again -/

/-- What a successful `resendInvite` has found and done. -/
structure Database.Resent (db : Database) (existing invite : UserInvite) (db' : Database) :
    Prop where
  mem : existing ∈ db.userInvites
  active : db.isTenantActive invite.tenantId = true
  tenantId : invite.tenantId = existing.tenantId
  tenantUserId : invite.tenantUserId = existing.tenantUserId
  pending : invite.status = .PENDING
  row : ∃ now, db' = { (db.retireInvites (·.id = existing.id) now) with
    userInvites := (db.retireInvites (·.id = existing.id) now).userInvites ++ [invite]
    nextId := db.nextId + 1 }

section
variable {cfg : Config} {v : Serving} {d : Database}

theorem resendInvite_alone (inviteId : ℕ) (user : AuthenticatedUser) :
    Outline (v.rules cfg) (· = d) (resendInvite cfg inviteId user)
      (fun r db => ∀ invite, r = .invite invite → ∃ existing, existing.id = inviteId ∧
        d.Resent existing invite db) fun _ _ => True := by
  refine alone_bind (requireTenantActor_alone fun _ => trivial) fun tenantId _ => ?_
  refine alone_request (fun _ => rfl) (fun _ => trivial) ?_
  cases hfind : d.userInvites.find? fun invite =>
      invite.id = inviteId && invite.tenantId = tenantId with
  | none => exact alone_fail trivial
  | some existing =>
    have hcond := List.find?_some hfind
    simp only [Bool.and_eq_true, decide_eq_true_eq] at hcond
    dsimp only
    split
    · exact alone_fail trivial
    · split
      · exact alone_fail trivial
      · have hreclaims : Makes (fun op => ∃ t n, op = .seatUsage t n)
            (reclaimSeat tenantId existing) := by
          refine makes_now.bind fun now => ?_
          split
          · exact assertSeatsAvailable_makes fun t n => ⟨t, n, rfl⟩
          · exact .pure
        refine alone_bind (alone_reads hreclaims ?_) fun _ _ => ?_
        · rintro op ⟨t, n, rfl⟩
          rfl
        unfold requireActiveTenant
        refine alone_bind (G := fun _ => d.isTenantActive tenantId = true) ?_ fun _ hactive => ?_
        · refine alone_request (fun _ => rfl) (fun _ => trivial) ?_
          split
          · rename_i hactive
            exact .pure fun db hdb => ⟨hdb, hactive⟩
          · exact alone_fail trivial
        refine alone_read fun i => ?_
        by_cases hgone : d.isPending existing.id = false
        · refine alone_request (a := none) (fun _ => if_pos hgone) (fun _ => trivial) ?_
          exact alone_fail trivial
        · refine alone_request (a := some _) (fun _ => if_neg hgone) (fun _ => trivial) ?_
          refine .pure fun db hdb => ?_
          rintro invite ⟨⟩
          refine ⟨existing, hcond.1, List.mem_of_find?_eq_some hfind, ?_, rfl, rfl, rfl,
              (v.ctx i).now, hdb⟩
          show d.isTenantActive existing.tenantId = true
          rw [hcond.2]
          exact hactive

theorem Serving.resends {inviteId : ℕ} {user : AuthenticatedUser} {invite : UserInvite}
    (hv : v.request = .resendInvite inviteId user) (h : (v.serve cfg d).1 = .ok (.invite invite)) :
    ∃ existing, existing.id = inviteId ∧ d.Resent existing invite (v.serve cfg d).2 := by
  have huser : v.request.user? = some user := by rw [hv]; rfl
  have hguarded : Outline (v.rules cfg) (· = d) (v.request.handler cfg)
      (fun r db => ∀ invite, r = .invite invite → ∃ existing, existing.id = inviteId ∧
        d.Resent existing invite db) fun _ _ => True := by
    rw [hv]
    have hpermission : Makes (fun _ => False) (requireInvitePermission user) :=
      requireInvitePermission_makes
    exact alone_bind (alone_reads hpermission fun _ h => h.elim) fun _ _ =>
        resendInvite_alone inviteId user
  rcases serve_guarded huser (fun _ => trivial) (fun _ => trivial) fun _ => hguarded with
    ⟨r, hr, hresent⟩ | ⟨e, he, -⟩
  · cases h.symm.trans hr
    exact hresent invite rfl
  · cases h.symm.trans he

end

/-! ### Redeeming it -/

/-- The body passes its checks. -/
structure RedeemUserInviteDto.Valid (dto : RedeemUserInviteDto) : Prop where
  confirmed : dto.password = dto.confirmPassword
  strong : validatePasswordStrength dto.password = []
  named : Tenants.trim dto.fullName ≠ ""

/-- The member of the invite is still to join. -/
def Database.Awaits (db : Database) (invite : UserInvite) : Prop :=
  ∃ member ∈ db.tenantUsers, invite.tenantUserId = some member.id ∧ member.status = .PENDING_INVITE

section
variable {cfg : Config} {v : Serving} {d : Database}

theorem Database.redeemInvite_consumes {invite : UserInvite} {member : TenantUser}
    {hash fullName : String}
    {now : ℕ} (hinvite : invite ∈ d.userInvites) (hpending : invite.status = .PENDING)
    (hlive : now < invite.expiresAt) (hmember : member ∈ d.tenantUsers)
    (hsome : (d.account? member.authAccountId).isSome = true) :
    (d.redeemInvite invite member hash fullName now).1 = .ok true := by
  have hlives : ¬ (d.userInvites.all fun row =>
      !(row.id = invite.id && row.status = .PENDING && now < row.expiresAt)) = true := by
    intro hall
    have hrow := List.all_eq_true.mp hall invite hinvite
    simp [hpending, hlive] at hrow
  have haccount : (d.account? member.authAccountId).isNone = false := by
    cases hfind : d.account? member.authAccountId with
    | none =>
      rw [hfind] at hsome
      cases hsome
    | some account => rfl
  have hrow : ∃ row, d.member? member.id = some row := by
    apply Option.isSome_iff_exists.mp
    exact List.find?_isSome.mpr ⟨member, hmember, by simp⟩
  obtain ⟨row, hrow⟩ := hrow
  rw [Database.redeemInvite, if_neg hlives, Database.ifAccount, haccount, if_neg (by simp),
    Database.ifMember, hrow]

theorem redeemInvite_alone {dto : RedeemUserInviteDto} {invite : UserInvite} (hvalid : dto.Valid)
    (hrow : d.inviteOfToken (cfg.sha256 dto.token) = some invite)
    (hpending : invite.status = .PENDING)
    (hactive : d.isTenantActive invite.tenantId = true)
    (htime : ∀ i, (v.ctx i).now < invite.expiresAt)
    (haccounts : ∀ member ∈ d.tenantUsers, invite.tenantUserId = some member.id →
      (d.account? member.authAccountId).isSome = true) (hhouses : d.Houses invite) :
    Outline (v.rules cfg) (· = d) (redeemInvite cfg dto) (fun _ _ => d.Awaits invite)
      fun _ _ => v.Faults ∨ ¬ d.Awaits invite := by
  unfold redeemInvite
  rw [if_neg (not_not.mpr hvalid.confirmed)]
  have hpolicy : assertPasswordMeetsPolicy dto.password = pure () := by
    rw [assertPasswordMeetsPolicy, if_pos hvalid.strong]
  rw [hpolicy]
  refine alone_bind (G := fun _ => True) (.pure fun _ hdb => ⟨hdb, trivial⟩) fun _ _ => ?_
  dsimp only
  rw [if_neg hvalid.named]
  refine alone_call (G := fun _ => True) (fun outside => ⟨_, rfl, trivial⟩) .inl fun hash _ => ?_
  refine alone_now fun i => ?_
  have hfound : d.userInvites.find? (·.tokenHash = cfg.sha256 dto.token) = some invite := hrow
  have hanswer (outside : Outside) :
      Op.effect cfg outside (.findInviteByToken (cfg.sha256 dto.token)) d =
      (.ok (some (invite, true)), d) := by
    rw [Op.effect, hfound, Option.map_some, hactive]
  refine alone_request hanswer .inl ?_
  dsimp only
  have hlive : ¬ (invite.status ≠ .PENDING ∨ invite.expiresAt ≤ (v.ctx i).now ∨ true = false) := by
    have htime := htime i
    simp [hpending, htime]
  rw [if_neg hlive]
  unfold redeemPending
  split
  · rename_i hnobody
    refine alone_fail (.inr ?_)
    rintro ⟨member, -, hmember, -⟩
    cases hnobody.symm.trans hmember
  · rename_i userId huser
    refine alone_request (fun _ => rfl) .inl ?_
    cases hfind : d.tenantUsers.find? fun user =>
        user.id = userId && user.tenantId = invite.tenantId &&
        user.status = .PENDING_INVITE with
    | none =>
      refine alone_fail (.inr ?_)
      rintro ⟨member, hmember, hid, hstatus⟩
      cases huser.symm.trans hid
      have hno := List.find?_eq_none.mp hfind member hmember
      simp [hhouses member hmember hid, hstatus] at hno
    | some member =>
      have hmember := List.mem_of_find?_eq_some hfind
      have hcond := List.find?_some hfind
      simp only [Bool.and_eq_true, decide_eq_true_eq] at hcond
      have hid : invite.tenantUserId = some member.id := by rw [huser, hcond.1.1]
      have hanswer (outside : Outside) : Op.effect cfg outside
          (.redeemInvite invite member hash.headI (Tenants.trim dto.fullName) (v.ctx i).now) d =
            (.ok true, (d.redeemInvite invite member hash.headI (Tenants.trim dto.fullName)
                (v.ctx i).now).2) :=
        Prod.ext (Database.redeemInvite_consumes (List.mem_of_find?_eq_some hfound) hpending
            (htime i) hmember
          (haccounts member hmember hid)) rfl
      refine alone_request hanswer .inl ?_
      exact .pure fun _ _ => ⟨member, hmember, hid, hcond.2⟩

theorem Serving.redeems {dto : RedeemUserInviteDto} {invite : UserInvite}
    (hv : v.request = .redeemInvite dto) (hvalid : dto.Valid)
    (hrow : d.inviteOfToken (cfg.sha256 dto.token) = some invite)
    (hpending : invite.status = .PENDING)
    (hactive : d.isTenantActive invite.tenantId = true)
    (htime : ∀ i, (v.ctx i).now < invite.expiresAt)
    (haccounts : ∀ member ∈ d.tenantUsers, invite.tenantUserId = some member.id →
      (d.account? member.authAccountId).isSome = true) (hhouses : d.Houses invite)
          (hquiet : ¬ v.Faults) :
    (∃ r, (v.serve cfg d).1 = .ok r) ↔ d.Awaits invite := by
  have hcode : Outline (v.rules cfg) (· = d) (v.request.code cfg) (fun _ _ => d.Awaits invite)
      fun _ _ => v.Faults ∨ ¬ d.Awaits invite := by
    rw [hv]
    exact redeemInvite_alone hvalid hrow hpending hactive htime haccounts hhouses
  rcases Serving.served hcode rfl with ⟨r, hr, hawaits⟩ | ⟨e, he, hfails⟩
  · exact ⟨fun _ => hawaits, fun _ => ⟨r, hr⟩⟩
  · constructor
    · rintro ⟨r, hr⟩
      cases he.symm.trans hr
    · intro hawaits
      rcases hfails with hfaults | hno
      · exact absurd hfaults hquiet
      · exact absurd hawaits hno

end

/-! ### One after the other -/

/-- The rows of the invite, of its member and of its tenant are as they were. -/
structure Database.Untouched (invite : UserInvite) (db db' : Database) : Prop where
  row : db'.inviteOfToken invite.tokenHash = db.inviteOfToken invite.tokenHash
  member : ∀ user, invite.tenantUserId = some user.id →
      (user ∈ db'.tenantUsers ↔ user ∈ db.tenantUsers)
  account : ∀ user ∈ db.tenantUsers, invite.tenantUserId = some user.id →
    db'.account? user.authAccountId = db.account? user.authAccountId
  tenant : db'.isTenantActive invite.tenantId = db.isTenantActive invite.tenantId

theorem Database.Resent.inviteOfToken {db db' : Database} {existing invite : UserInvite}
    (h : db.Resent existing invite db')
    (hfresh : ∀ row ∈ db.userInvites, row.tokenHash ≠ invite.tokenHash) :
    db'.inviteOfToken invite.tokenHash = some invite := by
  obtain ⟨now, rfl⟩ := h.row
  have hnone : (db.retireInvites (·.id = existing.id) now).userInvites.find?
      (·.tokenHash = invite.tokenHash) = none := by
    have hfind := find?_updateMany db.userInvites
      (p := fun row : UserInvite => row.status = .PENDING && row.id = existing.id)
      (f := fun row => { row with status := .REVOKED, revokedAt := some now })
      (q := fun row : UserInvite => row.tokenHash = invite.tokenHash) fun _ => rfl
    refine hfind.trans ?_
    rw [List.find?_eq_none.mpr fun row hrow => by simpa using hfresh row hrow, Option.map_none]
  rw [Database.inviteOfToken, List.find?_append, hnone]
  simp

/-- The token of a resent invite, while nobody touches the invite, its member or its tenant,
is redeemed in time if and only if the member was still to join when it was sent again. -/
theorem resent_invite_redeems (cfg : Config) {s₀ s : Server} (h₀ : s₀.Idle)
    (hkeyed : s₀.db.MembersKeyed)
    (howned : s₀.db.Owned) (hhoused : ∀ invite ∈ s₀.db.userInvites, s₀.db.Houses invite)
    (hr : Reach (Server.step cfg) (fun _ _ => True) s₀ s) {resend : Serving} {inviteId : ℕ}
    {user : AuthenticatedUser} {invite : UserInvite}
    (hresend : resend.request = .resendInvite inviteId user)
    (hsent : (resend.serve cfg s.db).1 = .ok (.invite invite))
    (hfresh : ∀ row ∈ s.db.userInvites, row.tokenHash ≠ invite.tokenHash) {db : Database}
    (huntouched : Database.Untouched invite (resend.serve cfg s.db).2 db) {redeem : Serving}
    {dto : RedeemUserInviteDto} (hredeem : redeem.request = .redeemInvite dto)
    (htoken : cfg.sha256 dto.token = invite.tokenHash) (hvalid : dto.Valid)
    (htime : ∀ i, (redeem.ctx i).now < invite.expiresAt) (hquiet : ¬ redeem.Faults) :
    (∃ r, (redeem.serve cfg db).1 = .ok r) ↔
      ∃ row ∈ s.db.userInvites, row.id = inviteId ∧ s.db.Awaits row := by
  have hlinked := (Server.Linked.of_idle h₀ hkeyed howned hhoused).reach hr
  obtain ⟨existing, hid, hresent⟩ := Serving.resends hresend hsent
  obtain ⟨now, hdb⟩ := hresent.row
  have hmembers : (resend.serve cfg s.db).2.tenantUsers = s.db.tenantUsers := by rw [hdb]; rfl
  have haccounts : (resend.serve cfg s.db).2.authAccounts = s.db.authAccounts := by rw [hdb]; rfl
  have htenants : (resend.serve cfg s.db).2.tenants = s.db.tenants := by rw [hdb]; rfl
  have hback {member : TenantUser} (hmember : invite.tenantUserId = some member.id) :
      member ∈ db.tenantUsers ↔ member ∈ s.db.tenantUsers := by
    rw [huntouched.member member hmember, hmembers]
  have hrow : db.inviteOfToken (cfg.sha256 dto.token) = some invite := by
    rw [htoken, huntouched.row]
    exact hresent.inviteOfToken hfresh
  have hactive : db.isTenantActive invite.tenantId = true := by
    rw [huntouched.tenant, Database.isTenantActive, htenants]
    exact hresent.active
  have howner (member : TenantUser) (hmem : member ∈ db.tenantUsers)
      (hmember : invite.tenantUserId = some member.id) :
          (db.account? member.authAccountId).isSome = true := by
    have hold := (hback hmember).mp hmem
    rw [huntouched.account member (hmembers ▸ hold) hmember, Database.account?, haccounts]
    exact hlinked.owned.account? hold
  have hhouses : db.Houses invite := by
    intro member hmem hmember
    rw [hresent.tenantId]
    exact hlinked.housed existing hresent.mem member ((hback hmember).mp hmem)
      (hresent.tenantUserId ▸ hmember)
  rw [Serving.redeems hredeem hvalid hrow hresent.pending hactive htime howner hhouses hquiet]
  constructor
  · rintro ⟨member, hmem, hmember, hstatus⟩
    exact ⟨existing, hresent.mem, hid, member, (hback hmember).mp hmem,
        hresent.tenantUserId ▸ hmember, hstatus⟩
  · rintro ⟨row, hrowmem, hrowid, member, hmem, hmember, hstatus⟩
    have hsame : row = existing :=
      List.inj_on_of_nodup_map hlinked.invited.keyed.inviteIds.unique hrowmem
      hresent.mem (hrowid.trans hid.symm)
    subst hsame
    have hmember : invite.tenantUserId = some member.id := hresent.tenantUserId.trans hmember
    exact ⟨member, (hback hmember).mpr hmem, hmember, hstatus⟩

theorem Database.Untouched.refl (invite : UserInvite) (db : Database) :
    Database.Untouched invite db db :=
  ⟨rfl, fun _ _ => Iff.rfl, fun _ _ _ => rfl, rfl⟩

/-! ### Carol's invite -/

/-- Ann sends Carol's invite again, under another token. -/
def annResends : Serving :=
  ⟨.resendInvite 8 ann, fun _ => { acmeContext "" with newInviteToken := fun _ => "again" },
      fun _ => quiet⟩

def carolsForm : RedeemUserInviteDto := ⟨"again", "Carol", "Carol-Secret-12", "Carol-Secret-12"⟩

def carolRedeemsAgain : Serving := Request.undisturbed (.redeemInvite carolsForm)

theorem carolRedeemsAgain_quiet : ¬ carolRedeemsAgain.Faults := by
  rintro ⟨i, hfault⟩
  cases hfault

theorem carolsForm_valid : carolsForm.Valid where
  confirmed := rfl
  strong := by decide +kernel
  named := by decide

theorem acme_owned : acme.db.Owned := by
  unfold Database.Owned
  decide

theorem acme_housed : ∀ invite ∈ acme.db.userInvites, acme.db.Houses invite := fun _ h => nomatch h

/-- The invite that Ann's resend answers, under a token nobody has had, and whether Carol
redeems it. -/
def resentInvite (s : Server) : Option (UserInvite × Bool) :=
  match (annResends.serve plainConfig s.db).1 with
  | .ok (.invite invite) =>
    if invite.tokenHash = "again" ∧ 0 < invite.expiresAt ∧
        s.db.userInvites.all (·.tokenHash ≠ "again") then
      some (invite, (carolRedeemsAgain.serve plainConfig
          (annResends.serve plainConfig s.db).2).1.toOption.isSome)
    else none
  | _ => none

theorem resentInvite_some {s : Server} {invite : UserInvite} {redeemed : Bool}
    (h : resentInvite s = some (invite, redeemed)) :
    (annResends.serve plainConfig s.db).1 = .ok (.invite invite) ∧
        plainConfig.sha256 "again" = invite.tokenHash ∧
    0 < invite.expiresAt ∧ (∀ row ∈ s.db.userInvites, row.tokenHash ≠ invite.tokenHash) ∧
    (carolRedeemsAgain.serve plainConfig (annResends.serve plainConfig s.db).2).1.toOption.isSome
        = redeemed := by
  unfold resentInvite at h
  split at h
  · rename_i sent hsent
    split at h
    · rename_i hcond
      obtain ⟨htoken, hexpires, hfresh⟩ := hcond
      cases h
      refine ⟨hsent, htoken.symm, hexpires, fun row hrow => ?_, rfl⟩
      rw [htoken]
      exact of_decide_eq_true (List.all_eq_true.mp hfresh row hrow)
    · cases h
  · cases h

/-- Carol is still to join when her invite is sent again. -/
theorem resent_invite_redeems_acme : ∃ s, Reach (Server.step plainConfig) (fun _ _ => True) acme s ∧
    ((∃ r, (carolRedeemsAgain.serve plainConfig (annResends.serve plainConfig s.db).2).1 = .ok r) ↔
      ∃ row ∈ s.db.userInvites, row.id = 8 ∧ s.db.Awaits row) := by
  have hrun : (runAll (Server.step plainConfig) acme ([annInvites] ++ acmeCalls 0 5)).any (fun s =>
      (resentInvite s).any (·.2)) = true := by
    decide +kernel
  obtain ⟨s, hs, h⟩ := (Option.any_eq_true _ _).mp hrun
  obtain ⟨⟨invite, redeemed⟩, hsome, -⟩ := (Option.any_eq_true _ _).mp h
  obtain ⟨hsent, htoken, hexpires, hfresh, -⟩ := resentInvite_some hsome
  have hr : Reach (Server.step plainConfig) (fun _ _ => True) acme s :=
    .of_runAll (.of_labels (fun _ _ _ => trivial) _) hs
  exact ⟨s, hr, resent_invite_redeems plainConfig acme_idle acme_membersKeyed acme_owned
      acme_housed hr rfl
    hsent hfresh (.refl invite _) rfl htoken carolsForm_valid (fun _ => hexpires)
    carolRedeemsAgain_quiet⟩

/-- Ann invites Carol, deletes her and sends the invite again. -/
theorem deleted_invitee_cannot_redeem : ∃ s invite, Reach (Server.step plainConfig)
    (fun _ _ => True) acme s ∧
    (annResends.serve plainConfig s.db).1 = .ok (.invite invite) ∧
        plainConfig.sha256 "again" = invite.tokenHash ∧
    0 < invite.expiresAt ∧ ¬ carolRedeemsAgain.Faults ∧
    ¬ ∃ r, (carolRedeemsAgain.serve plainConfig
        (annResends.serve plainConfig s.db).2).1 = .ok r := by
  have hrun : (runAll (Server.step plainConfig) acme ([annInvites] ++ acmeCalls 0 5 ++
      [.arrive (.deleteUser 7 false none ann) (acmeContext "")] ++ acmeCalls 1 3)).any (fun s =>
      (resentInvite s).any (!·.2)) = true := by
    decide +kernel
  obtain ⟨s, hs, h⟩ := (Option.any_eq_true _ _).mp hrun
  obtain ⟨⟨invite, redeemed⟩, hsome, hfails⟩ := (Option.any_eq_true _ _).mp h
  obtain ⟨hsent, htoken, hexpires, -, hredeemed⟩ := resentInvite_some hsome
  refine ⟨s, invite, .of_runAll (.of_labels (fun _ _ _ => trivial) _) hs, hsent, htoken, hexpires,
    carolRedeemsAgain_quiet, ?_⟩
  rintro ⟨r, hr⟩
  rw [hr] at hredeemed
  rw [← hredeemed] at hfails
  cases hfails

end Flexi.Accounts
