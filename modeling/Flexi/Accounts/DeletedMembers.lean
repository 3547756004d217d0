import Flexi.Accounts.MemberChecks
import Flexi.Library.Reach

/-!
# Members that are deleted

A soft deletion and the revocation of an invite leave the member's row as deleted. What
becomes of it afterwards depends on the requests that have seen it before.
-/

namespace Flexi.Accounts
open Flexi.Library

/-- The member that an operation has deleted. -/
def Op.deletes : (op : Op) → Except ServiceError op.Res → Option ℕ
  | softDelete userId _ _, .ok _ => some userId
  | revokeInvite existing _, .ok (some _) => existing.tenantUserId
  | _, _ => none

/-- Whoever has this id is deleted. -/
def Database.Deleted (userId : ℕ) (db : Database) : Prop :=
  ∀ user ∈ db.tenantUsers, user.id = userId → user.status = .DELETED ∧ user.isActive = false

/-- No invite of the member can be redeemed or resent. -/
def Database.Uninvited (userId : ℕ) (db : Database) : Prop :=
  ∀ row ∈ db.userInvites, row.tenantUserId = some userId → row.status ≠ .PENDING

section
variable {cfg : Config} {outside : Outside} {db : Database} {op : Op} {userId : ℕ}

theorem Database.deleted_updateMember :
    (db.updateMember userId fun user => { user with status := .DELETED, isActive := false }).Deleted
      userId := by
  intro user huser hid
  obtain ⟨old, -, rfl⟩ := mem_updateMany.mp huser
  split
  · exact ⟨rfl, rfl⟩
  · rename_i hother
    rw [if_neg hother] at hid
    exact absurd (decide_eq_true hid) hother

theorem Database.member?_some {user : TenantUser} (h : db.member? userId = some user) :
    user ∈ db.tenantUsers ∧ user.id = userId :=
  ⟨List.mem_of_find?_eq_some h, by simpa using List.find?_some h⟩

theorem Database.uninvited_retire {existing : UserInvite} {now : ℕ} :
    ((db.retireInvites (·.id = existing.id) now).retireInvites
      (fun invite => invite.tenantUserId = some userId && invite.id ≠ existing.id) now).Uninvited
        userId := by
  intro row hrow hmember
  obtain ⟨mid, hmid, rfl⟩ := mem_updateMany.mp hrow
  by_cases hother : mid.status = .PENDING ∧ mid.tenantUserId = some userId ∧ mid.id ≠ existing.id
  · simp [hother]
  · split
    · nofun
    · rename_i hno
      simp only [hno] at hmember
      intro hpending
      have hid : mid.id = existing.id := by
        by_contra hne
        exact hother ⟨hpending, hmember, hne⟩
      obtain ⟨old, -, rfl⟩ := mem_updateMany.mp hmid
      split at hpending
      · cases hpending
      · rename_i hold
        rw [if_neg hold] at hid
        exact hold (by simp [hpending, hid])

theorem Op.perform_deletes (h : op.deletes (op.perform cfg outside db).1 = some userId) :
    (op.perform cfg outside db).2.Deleted userId ∧
      (∃ user ∈ db.tenantUsers, user.id = userId) ∧
      ((∃ existing now, op = .revokeInvite existing now) →
        (op.perform cfg outside db).2.Uninvited userId) := by
  rcases perform_cases cfg outside op db with ⟨-, e, he⟩ | heffect
  · rw [he] at h
    cases op <;> cases h
  rw [heffect] at h ⊢
  cases op with
  | softDelete id a now =>
    rcases db.softDelete_cases cfg outside id a now with ⟨e, he⟩ | ⟨row, db', hs, he⟩
    · rw [he] at h
      cases h
    · rw [he] at h ⊢
      cases h
      rcases db.setStatus_cases userId .DELETED false with hx | ⟨row', hrow, hx⟩
      · cases hs.symm.trans hx
      · cases hs.symm.trans hx
        exact ⟨Database.deleted_updateMember, ⟨row', Database.member?_some hrow⟩, fun ⟨_, _, h⟩ => nomatch h⟩
  | revokeInvite existing now =>
    rw [effect, Database.revokeInvite] at h ⊢
    split at h
    · cases h
    · rename_i hpending
      rw [if_neg hpending]
      cases huser : existing.tenantUserId with
      | none =>
        simp only [huser] at h
        rw [Op.deletes, huser] at h
        cases h
      | some id =>
        simp only [huser, Database.ifMember] at h ⊢
        cases hmember : db.member? id with
        | none =>
          simp only [hmember] at h
          cases h
        | some row =>
          simp only [hmember] at h ⊢
          rw [Op.deletes, huser] at h
          cases h
          refine ⟨?_, ⟨row, Database.member?_some hmember⟩, fun _ => ?_⟩
          · exact @Database.deleted_updateMember (db.retireInvites (·.id = existing.id) now) userId
          · exact @Database.uninvited_retire db userId existing now
  | _ => cases h

theorem Database.Uninvited.not_pending {invite : UserInvite} (h : db.Uninvited userId)
    (hholds : db.Holds invite) (huser : invite.tenantUserId = some userId)
    (hmember : ¬ db.NoMember userId) :
    ∀ row ∈ db.userInvites, row.id = invite.id → row.status ≠ .PENDING := by
  intro row hrow hid
  rcases hholds.member row hrow hid with heq | ⟨other, hother, hgone⟩
  · exact h row hrow (heq.trans huser)
  · cases huser.symm.trans hother
    exact absurd hgone hmember

theorem Op.perform_redeemInvite_retired {invite : UserInvite} {user : TenantUser}
    {hash fullName : String} {now : ℕ}
    (h : ∀ row ∈ db.userInvites, row.id = invite.id → row.status ≠ .PENDING) :
    ((redeemInvite invite user hash fullName now).perform cfg outside db).2 = db := by
  have hnone : (db.userInvites.all fun row =>
      !(row.id = invite.id && row.status = .PENDING && now < row.expiresAt)) = true := by
    apply List.all_eq_true.mpr
    intro row hrow
    by_cases hid : row.id = invite.id
    · simp [hid, h row hrow hid]
    · simp [hid]
  rcases perform_cases cfg outside (redeemInvite invite user hash fullName now) db with
    ⟨hdb, -⟩ | heffect
  · exact hdb
  · rw [heffect, effect, Database.redeemInvite, if_pos hnone]

theorem Database.NoMember.deleted (h : db.NoMember userId) : db.Deleted userId :=
  fun user huser hid => absurd hid (h.gone user huser)

/-- Only these writes give a deleted member another status. -/
theorem Op.perform_deleted (h : db.Deleted userId) (hgiven : userId < db.nextId)
    (hsets : ¬ op.setsStatus userId) (hactivate : op ≠ .activate .TENANT userId)
    (hredeems : ¬ op.redeems userId) : (op.perform cfg outside db).2.Deleted userId := by
  intro user huser hid
  rcases perform_member huser with hold | ⟨old, hold, hrewrites⟩ | ⟨hge, -, -⟩
  · exact h user hold hid
  · have hid' : old.id = userId := hrewrites.id ▸ hid
    have hdeleted := h old hold hid'
    cases op with
    | deactivate actorType =>
      cases actorType with
      | TENANT =>
        obtain ⟨-, rfl⟩ := hrewrites
        exact ⟨hdeleted.1, rfl⟩
      | SYSTEM => exact hrewrites.elim
    | activate actorType id =>
      cases actorType with
      | TENANT => exact absurd (by rw [← hrewrites.1, hid']) hactivate
      | SYSTEM => exact hrewrites.elim
    | approveUser id | unlockUser id | lockUser id =>
      exact absurd (hrewrites.1.symm.trans hid') hsets
    | softDelete | revokeInvite =>
      obtain ⟨-, rfl⟩ := hrewrites
      exact ⟨rfl, rfl⟩
    | updateTenantUser =>
      obtain ⟨-, rfl⟩ := hrewrites
      exact hdeleted
    | redeemInvite invite member => exact absurd (hrewrites.1.symm.trans hid') hredeems
    | _ => exact hrewrites.elim
  · omega

theorem Op.perform_uninvited (h : db.Uninvited userId) (hgiven : userId < db.nextId)
    (hmember : ¬ db.NoMember userId)
    (hop : ∀ existing tokenHash expiresAt invitedById now,
      op = .resendInvite existing tokenHash expiresAt invitedById now → db.Holds existing) :
    (op.perform cfg outside db).2.Uninvited userId := by
  intro row hrow huser
  rcases perform_invite hrow with
    ⟨old, hold, hkept⟩ | ⟨source, -, old, hold, -, rfl⟩ | ⟨-, -, hnew⟩
  · exact hkept.retired (h old hold (hkept.tenantUserId ▸ huser))
  · cases huser
  · rcases hnew with ⟨other, hother, hge, -⟩ | ⟨existing, hash, exp, by', now, he, hsame, hpending⟩
    · cases huser.symm.trans hother
      omega
    · -- an invite of the member has just been pending
      obtain ⟨old, hold, hp⟩ := List.any_eq_true.mp hpending
      simp only [Bool.and_eq_true, decide_eq_true_eq] at hp
      exact absurd hp.2 (h.not_pending (hop existing hash exp by' now he) (hsame.symm.trans huser)
        hmember old hold hp.1)

theorem Op.perform_not_findsMember (h : db.Deleted userId) :
    ¬ op.findsMember userId (op.perform cfg outside db).1 := by
  rcases perform_cases cfg outside op db with ⟨-, e, he⟩ | heffect
  · rw [he]
    cases op <;> exact fun h => h
  · rw [heffect]
    cases op with
    | findMember id tenantId =>
      rw [effect]
      cases hfind : (db.tenantUsers.find? fun user =>
          decide (user.id = id) && decide (user.tenantId = tenantId)).bind db.tenantUserRow with
      | none => exact fun h => h
      | some row =>
        obtain ⟨user, huser, hrow⟩ := Option.bind_eq_some_iff.mp hfind
        intro hpasses
        have heq : row.user = user := Database.tenantUserRow_user hrow
        have hdeleted := h user (List.mem_of_find?_eq_some huser) (heq ▸ hpasses.1)
        exact hpasses.2 (heq ▸ hdeleted.1)
    | _ => exact fun h => h

theorem Op.perform_not_findsInvitee (h : db.Deleted userId) :
    ¬ op.findsInvitee userId (op.perform cfg outside db).1 := by
  rcases perform_cases cfg outside op db with ⟨-, e, he⟩ | heffect
  · rw [he]
    cases op <;> exact fun h => h
  · rw [heffect]
    cases op with
    | findInvitee id tenantId =>
      rw [effect]
      cases hfind : db.tenantUsers.find? fun user => decide (user.id = id) &&
          decide (user.tenantId = tenantId) && decide (user.status = .PENDING_INVITE) with
      | none => exact fun h => h
      | some user =>
        intro hid
        have hdeleted := h user (List.mem_of_find?_eq_some hfind) hid
        have hpending := List.find?_some hfind
        simp [hdeleted.1] at hpending
    | _ => exact fun h => h

theorem Op.perform_not_mistakes : ¬ op.mistakes (op.perform cfg outside db).1 := by
  rcases perform_cases cfg outside op db with ⟨-, e, he⟩ | heffect
  · rw [he]
    cases op <;> exact fun h => h
  · rw [heffect]
    cases op with
    | findInvitee id tenantId =>
      rw [effect]
      cases hfind : db.tenantUsers.find? fun user => decide (user.id = id) &&
          decide (user.tenantId = tenantId) && decide (user.status = .PENDING_INVITE) with
      | none => exact fun h => h
      | some user =>
        intro hne
        have hfound := List.find?_some hfind
        simp only [Bool.and_eq_true, decide_eq_true_eq] at hfound
        exact hne hfound.1.1
    | _ => exact fun h => h

theorem Op.perform_findsInvite {invite : UserInvite}
    (hfound : inviteLookup.finds op (op.perform cfg outside db).1 = some invite) :
    invite ∈ db.userInvites := by
  rcases Op.perform_cases cfg outside op db with ⟨-, e, he⟩ | heffect
  · rw [he] at hfound
    cases op <;> cases hfound
  · rw [heffect] at hfound
    cases op with
    | findInvite id tenantId => exact List.mem_of_find?_eq_some hfound
    | findInviteByToken hash =>
      rw [Op.effect] at hfound
      cases hfind : db.userInvites.find? fun row => decide (row.tokenHash = hash) with
      | none =>
        rw [hfind] at hfound
        cases hfound
      | some row =>
        rw [hfind] at hfound
        cases hfound
        exact List.mem_of_find?_eq_some hfind
    | _ => cases hfound

end

/-! ### The server -/

/-- Every request on an invite acts on the one it has read. -/
structure Server.Invited (cfg : Config) (s : Server) : Prop where
  code : s.FromCode cfg
  keyed : s.db.MembersKeyed
  invites : s.Follow Request.onInvite inviteLookup (fun invite db => db.Holds invite) Handles

namespace Server.Invited

variable {cfg : Config} {s s' : Server}

theorem of_idle (h₀ : s.Idle) (hkeyed : s.db.MembersKeyed) : s.Invited cfg :=
  ⟨h₀.fromCode, hkeyed, .of_idle h₀⟩

/-- Who acts on an invite has read it. -/
theorem handles {i : ℕ} {r : Request} {op : Op} {k : Except ServiceError op.Res → Service Response}
    {invite : UserInvite} (h : s.Invited cfg) (hi : s.requests[i]? = some ⟨r, .awaiting op k⟩)
    (hop : op.invite? = some invite) : s.db.Holds invite ∧ Handles invite (.awaiting op k) := by
  have hmakes := ((h.code i _ hi).calls (Request.code_makes cfg r)).op rfl
  have hr : r.onInvite := Request.onInvite_of_makes hmakes hop
  cases h.invites i _ hi hr with
  | looking hlooks =>
    have hnone : op.invite? = none := hlooks.1
    rw [hnone] at hop
    cases hop
  | past hholds hq =>
    cases hq.calls.1 invite hop
    exact ⟨hholds, hq⟩

theorem step {e : ServerEvent} (h : s.Invited cfg) (hs : s.step cfg e = some s') :
    s'.Invited cfg := by
  refine ⟨h.code.step hs, ?_, h.invites.step hs ?_ ?_ ?_ ?_ ?_ ?_⟩
  · refine step_keeps (P := Database.MembersKeyed) hs h.keyed fun i outside r op k hi => ?_
    refine h.keyed.perform fun existing hash exp by' now he => ?_
    subst he
    exact (h.handles hi rfl).1
  · exact fun r hr => Request.code_invite hr
  · exact fun i outside r op k invite _ _ hholds => hholds.perform
  · exact fun outside op invite hfound => (h.keyed.holds (Op.perform_findsInvite hfound)).perform
  · exact fun invite p c hp => ⟨Thread.Calls.advance hp.1 c, Thread.Cautious.advance hp.2 c⟩
  · exact fun invite op answer k c hq => ⟨Thread.Calls.advance hq.calls.2 c, hq.member.deliver c⟩
  · intro i outside r op k invite he hr hi hholds hq
    exact ⟨⟨hq.calls.1, hq.calls.2 _ fun _ _ => trivial⟩,
      hq.member.answer Op.perform_not_mistakes⟩

theorem redeems_member {i : ℕ} {r : Request} {invite : UserInvite} {user : TenantUser}
    {hash fullName : String} {now : ℕ} {k : Except ServiceError Bool → Service Response}
    (h : s.Invited cfg)
    (hi : s.requests[i]? = some ⟨r, .awaiting (.redeemInvite invite user hash fullName now) k⟩) :
    s.db.Holds invite ∧ invite.tenantUserId = some user.id := by
  obtain ⟨hholds, hq⟩ := h.handles hi rfl
  exact ⟨hholds, not_not.mp hq.member.not_acts⟩

end Server.Invited

/-- The member is deleted, and nobody is about to change that. -/
structure Server.Absorbed (cfg : Config) (userId : ℕ) (s : Server) : Prop where
  invited : s.Invited cfg
  given : userId < s.db.nextId
  deleted : s.db.Deleted userId
  checks : s.AllCautious (memberCheck userId)
  closed : s.AllCautious (inviteeCheck userId) ∨ s.db.Uninvited userId ∨ s.db.NoMember userId

/-- The step does not activate the member. -/
def Server.noActivation (userId : ℕ) (s : Server) (e : ServerEvent) : Prop :=
  ∀ i outside r k, e = .execute i outside →
    s.requests[i]? ≠ some ⟨r, .awaiting (.activate .TENANT userId) k⟩

namespace Server.Absorbed

variable {cfg : Config} {userId : ℕ} {s s' : Server}

theorem perform {i : ℕ} {r : Request} {op : Op} {k : Except ServiceError op.Res → Service Response}
    {outside : Outside} (h : s.Absorbed cfg userId)
    (hi : s.requests[i]? = some ⟨r, .awaiting op k⟩) (hactivate : op ≠ .activate .TENANT userId) :
    (s.perform cfg outside op).2.Deleted userId := by
  have hsets : ¬ op.setsStatus userId := (h.checks i _ hi).not_acts
  by_cases hredeems : op.redeems userId
  · cases op with
    | redeemInvite invite user hash fullName now =>
      cases hredeems
      obtain ⟨hholds, huser⟩ := h.invited.redeems_member hi
      by_cases hmember : s.db.NoMember user.id
      · exact hmember.perform.deleted
      · rcases h.closed with hcautious | huninvited | hgone
        · exact absurd rfl (hcautious i _ hi).not_acts
        · have hdb : (s.perform cfg outside (.redeemInvite invite user hash fullName now)).2 = s.db :=
            Op.perform_redeemInvite_retired (huninvited.not_pending hholds huser hmember)
          rw [hdb]
          exact h.deleted
        · exact absurd hgone hmember
    | _ => exact hredeems.elim
  · exact Op.perform_deleted h.deleted h.given hsets hactivate hredeems

theorem step {e : ServerEvent} (h : s.Absorbed cfg userId) (hok : s.noActivation userId e)
    (hs : s.step cfg e = some s') : s'.Absorbed cfg userId := by
  have hcautious : s.AllCautious (inviteeCheck userId) → s'.AllCautious (inviteeCheck userId) :=
    fun hc => hc.step hs Request.code_invitee
      fun i outside r op k _ _ => Op.perform_not_findsInvitee h.deleted
  have hchecks : s'.AllCautious (memberCheck userId) := h.checks.step hs Request.code_member
    fun i outside r op k _ _ => Op.perform_not_findsMember h.deleted
  have hdb : s'.db = s.db ∨ ∃ i outside r op k, e = .execute i outside ∧
      s.requests[i]? = some ⟨r, .awaiting op k⟩ ∧ s'.db = (s.perform cfg outside op).2 := by
    cases e with
    | arrive r c =>
      obtain ⟨-, rfl⟩ := step_arrive hs
      exact .inl rfl
    | execute i outside =>
      obtain ⟨r, op, k, hi, rfl⟩ := step_execute hs
      exact .inr ⟨i, outside, r, op, k, rfl, hi, rfl⟩
    | deliver i c =>
      obtain ⟨r, op, answer, k, -, rfl⟩ := step_deliver hs
      exact .inl rfl
    | tick d =>
      cases step_tick hs
      exact .inl rfl
  rcases hdb with hdb | ⟨i, outside, r, op, k, he, hi, hdb⟩
  · refine ⟨h.invited.step hs, hdb ▸ h.given, hdb ▸ h.deleted, hchecks, ?_⟩
    rcases h.closed with hc | hrows
    · exact .inl (hcautious hc)
    · exact .inr (hdb ▸ hrows)
  · have hgiven : userId < (s.perform cfg outside op).2.nextId :=
      h.given.trans_le Op.perform_nextId
    have hdeleted : (s.perform cfg outside op).2.Deleted userId := by
      refine h.perform hi fun hop => ?_
      subst hop
      exact hok i outside r k he hi
    refine ⟨h.invited.step hs, hdb ▸ hgiven, hdb ▸ hdeleted, hchecks, ?_⟩
    rw [hdb]
    rcases h.closed with hc | huninvited | hgone
    · exact .inl (hcautious hc)
    · by_cases hmember : s.db.NoMember userId
      · exact .inr (.inr hmember.perform)
      · refine .inr (.inl (Op.perform_uninvited huninvited h.given hmember ?_))
        intro existing hash exp by' now hop
        subst hop
        exact (h.invited.handles hi rfl).1
    · exact .inr (.inr hgone.perform)

end Server.Absorbed

/-- The step deletes the member, for request `i`. -/
def Server.deletes (cfg : Config) (s : Server) (e : ServerEvent) (i userId : ℕ) : Bool :=
  match s.executed cfg e with
  | some (j, ⟨op, answer⟩) => j = i && op.deletes answer = some userId
  | none => false

def Server.softDeletes (cfg : Config) (s : Server) (e : ServerEvent) : Bool :=
  match s.executed cfg e with
  | some (_, ⟨.softDelete _ _ _, _⟩) => true
  | _ => false

/-- No request other than `i` has seen the member as it was and is still to write: none of
`approveUser`, `lockUser` and `unlockUser`, and no redemption where the member is deleted
without its invites. -/
structure Server.Unobserved (cfg : Config) (s : Server) (e : ServerEvent) (i userId : ℕ) : Prop where
  checks : ∀ (j : ℕ) (f : InFlight), j ≠ i → s.requests[j]? = some f →
    f.thread.Cautious (memberCheck userId)
  redemptions : s.softDeletes cfg e = true → ∀ (j : ℕ) (f : InFlight), j ≠ i →
    s.requests[j]? = some f → f.thread.Cautious (inviteeCheck userId)

theorem Server.deletes_eq_true {cfg : Config} {s : Server} {e : ServerEvent} {i userId : ℕ}
    (h : s.deletes cfg e i userId = true) : ∃ op answer,
      s.executed cfg e = some (i, ⟨op, answer⟩) ∧ op.deletes answer = some userId := by
  unfold deletes at h
  split at h
  · rename_i j op answer hexec
    simp only [Bool.and_eq_true, decide_eq_true_eq] at h
    obtain ⟨rfl, hdeletes⟩ := h
    exact ⟨op, answer, hexec, hdeletes⟩
  · cases h

theorem Server.Unobserved.absorbed {cfg : Config} {s s' : Server} {e : ServerEvent} {i userId : ℕ}
    (h : s.Unobserved cfg e i userId) (hinvited : s.Invited cfg)
    (hdeletes : s.deletes cfg e i userId = true) (hs : s.step cfg e = some s') :
    s'.Absorbed cfg userId := by
  obtain ⟨op, answer, hexec, hanswer⟩ := Server.deletes_eq_true hdeletes
  have hinvited' := hinvited.step hs
  obtain ⟨outside, r, k, rfl, hi, rfl⟩ := Server.executed_eq_some hexec
  obtain ⟨r', op', k', hi', rfl⟩ := Server.step_execute hs
  cases hi.symm.trans hi'
  obtain ⟨hdeleted, ⟨user, huser, hid⟩, huninvited⟩ := Op.perform_deletes hanswer
  have hgiven : userId < (s.perform cfg outside op).2.nextId :=
    (hid ▸ hinvited.keyed.memberIds user huser).trans_le Op.perform_nextId
  have hmakes := ((hinvited.code i _ hi).calls (Request.code_makes cfg r)).op rfl
  have hcalls := ((hinvited.code i _ hi).calls (Request.code_makes cfg r)).2
    (s.perform cfg outside op).1 fun _ _ => trivial
  -- what is left of the deleting request sets no status and redeems nothing
  have hquiet : ∀ op', r.makes op' = true → ¬ op'.setsStatus userId ∧ ¬ op'.redeems userId := by
    intro op' hop'
    cases op with
    | softDelete | revokeInvite =>
      cases r <;> cases hmakes
      cases op' <;> first | exact ⟨id, id⟩ | cases hop'
    | _ => cases hanswer
  refine ⟨hinvited', hgiven, hdeleted, fun j f hf => ?_, ?_⟩
  · rcases Server.getElem?_set hf with ⟨rfl, rfl⟩ | ⟨hne, hf⟩
    · exact .of_calls hcalls fun op' hop' => (hquiet op' hop').1
    · exact h.checks j f hne hf
  · cases op with
    | softDelete id a now =>
      refine .inl fun j f hf => ?_
      rcases Server.getElem?_set hf with ⟨rfl, rfl⟩ | ⟨hne, hf⟩
      · exact .of_calls hcalls fun op' hop' => (hquiet op' hop').2
      · exact h.redemptions (by rw [softDeletes, Server.executed_execute hi]) j f hne hf
    | revokeInvite existing now => exact .inr (.inl (huninvited ⟨existing, now, rfl⟩))
    | _ => cases hanswer

/-- A member is deleted while no other request has seen it as it was: it stays deleted and
inactive, unless it is activated. -/
theorem deleted_members_stay (cfg : Config) {s₀ s s' y : Server} (h₀ : s₀.Idle)
    (hkeyed : s₀.db.MembersKeyed) (hr : Reach (Server.step cfg) (fun _ _ => True) s₀ s)
    {e : ServerEvent} {i userId : ℕ} (hdeletes : s.deletes cfg e i userId = true)
    (hunobserved : s.Unobserved cfg e i userId) (hs : s.step cfg e = some s')
    (hr' : Reach (Server.step cfg) (Server.noActivation userId) s' y) {user : TenantUser}
    (huser : user ∈ y.db.tenantUsers) (hid : user.id = userId) :
    user.status = .DELETED ∧ user.isActive = false := by
  have hinvited : s.Invited cfg :=
    hr.invariant (I := fun s => s.Invited cfg) (.of_idle h₀ hkeyed) fun _ _ _ _ h _ hstep => h.step hstep
  have habsorbed : s'.Absorbed cfg userId := hunobserved.absorbed hinvited hdeletes hs
  have hy : y.Absorbed cfg userId :=
    hr'.invariant (I := fun s => s.Absorbed cfg userId) habsorbed fun _ _ _ _ h hok hstep => h.step hok hstep
  exact hy.deleted user huser hid

theorem acme_membersKeyed : acme.db.MembersKeyed :=
  ⟨by decide, ⟨by decide, by decide⟩, by decide⟩

/-- Request `i` has been answered with an error. -/
def Server.refuses (s : Server) (i : ℕ) : Bool :=
  match s.requests[i]? with
  | some ⟨_, .finished (.error _)⟩ => true
  | _ => false

def annDeletesBob : ServerEvent := .arrive (.deleteUser 5 false none ann) (acmeContext "")

def annLocksBob : ServerEvent := .arrive (.lockUser 5 ann) (acmeContext "")

/-- The step does not execute an activation. -/
def activatesNobody (s : Server) : ServerEvent → Bool
  | .execute i _ => match s.requests[i]? with
    | some ⟨_, .awaiting (.activate _ _) _⟩ => false
    | _ => true
  | _ => true

theorem activatesNobody.noActivation {s : Server} {e : ServerEvent} {userId : ℕ}
    (h : activatesNobody s e = true) : s.noActivation userId e := by
  intro i outside r k he hi
  subst he
  simp [activatesNobody, hi] at h

/-- Ann deletes Bob, and then she tries to lock him, which is refused. -/
theorem deleted_members_stay_acme : ∃ s s' y user,
    Reach (Server.step plainConfig) (fun _ _ => True) acme s ∧
    s.deletes plainConfig (.execute 0 quiet) 0 5 = true ∧
    s.Unobserved plainConfig (.execute 0 quiet) 0 5 ∧
    s.step plainConfig (.execute 0 quiet) = some s' ∧
    Reach (Server.step plainConfig) (Server.noActivation 5) s' y ∧
    y.refuses 1 = true ∧ user ∈ y.db.tenantUsers ∧ user.id = 5 ∧
    user.status = .DELETED ∧ user.isActive = false := by
  have hrun : (runAll (Server.step plainConfig) acme ([annDeletesBob] ++ acmeCalls 0 2)).any (fun s =>
      s.answeredBut 0 && s.deletes plainConfig (.execute 0 quiet) 0 5 &&
        (s.step plainConfig (.execute 0 quiet)).any fun s' =>
          (runChecked (Server.step plainConfig) activatesNobody s'
              ([.deliver 0 (acmeContext ""), annLocksBob] ++ acmeCalls 1 2)).any fun y =>
            y.refuses 1 && y.db.tenantUsers.any fun user => user.id = 5) = true := by
    decide +kernel
  obtain ⟨s, hs, h⟩ := (Option.any_eq_true _ _).mp hrun
  obtain ⟨h, h₃⟩ := Bool.and_eq_true_iff.mp h
  obtain ⟨h₁, h₂⟩ := Bool.and_eq_true_iff.mp h
  obtain ⟨s', hs', h₃⟩ := (Option.any_eq_true _ _).mp h₃
  obtain ⟨y, hy, h₃⟩ := (Option.any_eq_true _ _).mp h₃
  obtain ⟨hrefuses, h₃⟩ := Bool.and_eq_true_iff.mp h₃
  obtain ⟨user, huser, hid⟩ := List.any_eq_true.mp h₃
  have hr : Reach (Server.step plainConfig) (fun _ _ => True) acme s :=
    .of_runAll (.of_labels (fun _ _ _ => trivial) _) hs
  have hunobserved : s.Unobserved plainConfig (.execute 0 quiet) 0 5 :=
    ⟨fun j f hne hf => Server.cautious_of_answered h₁ hne hf,
      fun _ j f hne hf => Server.cautious_of_answered h₁ hne hf⟩
  have hr' : Reach (Server.step plainConfig) (Server.noActivation 5) s' y :=
    .of_runChecked (fun _ _ h => activatesNobody.noActivation h) hy
  have hid : user.id = 5 := of_decide_eq_true hid
  exact ⟨s, s', y, user, hr, h₂, hunobserved, hs', hr', hrefuses, huser, hid,
    deleted_members_stay plainConfig acme_idle acme_membersKeyed hr h₂ hunobserved hs' hr' huser
      hid⟩

/-- Ann's lock has seen Bob active when Ann's deletion commits, and then it writes. -/
theorem lock_revives_deleted_member : ∃ s s' y user,
    Reach (Server.step plainConfig) (fun _ _ => True) acme s ∧
    s.deletes plainConfig (.execute 1 quiet) 1 5 = true ∧
    s.step plainConfig (.execute 1 quiet) = some s' ∧
    Reach (Server.step plainConfig) (Server.noActivation 5) s' y ∧ user ∈ y.db.tenantUsers ∧
    user.id = 5 ∧ user.status = .LOCKED := by
  have hrun : (runAll (Server.step plainConfig) acme ([annLocksBob] ++ acmeCalls 0 2 ++
      [annDeletesBob] ++ acmeCalls 1 2)).any (fun s =>
        s.deletes plainConfig (.execute 1 quiet) 1 5 &&
        (s.step plainConfig (.execute 1 quiet)).any fun s' =>
          (runChecked (Server.step plainConfig) activatesNobody s' [.execute 0 quiet]).any fun y =>
            y.db.tenantUsers.any fun user => user.id = 5 && user.status = .LOCKED) = true := by
    decide +kernel
  obtain ⟨s, hs, h⟩ := (Option.any_eq_true _ _).mp hrun
  obtain ⟨h₁, h⟩ := Bool.and_eq_true_iff.mp h
  obtain ⟨s', hs', h⟩ := (Option.any_eq_true _ _).mp h
  obtain ⟨y, hy, h⟩ := (Option.any_eq_true _ _).mp h
  obtain ⟨user, huser, h⟩ := List.any_eq_true.mp h
  simp only [Bool.and_eq_true, decide_eq_true_eq] at h
  exact ⟨s, s', y, user, .of_runAll (.of_labels (fun _ _ _ => trivial) _) hs, h₁, hs',
    .of_runChecked (fun _ _ h => activatesNobody.noActivation h) hy, huser, h⟩

end Flexi.Accounts
