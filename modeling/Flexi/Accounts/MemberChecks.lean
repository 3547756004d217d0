import Flexi.Accounts.InviteRows
import Flexi.Accounts.RequestCalls

/-!
# What the member operations have read when they write

`approveUser`, `lockUser` and `unlockUser` read a member's status in one statement and
write by id in another; a redemption reads the invite and then the invited member before
it writes.
-/

namespace Flexi.Accounts
open Flexi.Library

/-! ### Checks of a member -/

def Op.findsMember (userId : ℕ) : (op : Op) → Except ServiceError op.Res → Prop
  | findMember _ _, .ok (some row) => row.user.id = userId ∧ row.user.status ≠ .DELETED
  | _, _ => False

/-- The writes of `approveUser`, `lockUser` and `unlockUser`. -/
def Op.setsStatus (userId : ℕ) : Op → Prop
  | approveUser id | unlockUser id | lockUser id _ _ => id = userId
  | _ => False

/-- A member that is not deleted may have its status set. -/
def memberCheck (userId : ℕ) : Check Op Op.Res ServiceError where
  passes op answer := op.findsMember userId answer
  acts op := op.setsStatus userId

def Op.findsInvitee (userId : ℕ) : (op : Op) → Except ServiceError op.Res → Prop
  | findInvitee _ _, .ok (some user) => user.id = userId
  | _, _ => False

def Op.redeems (userId : ℕ) : Op → Prop
  | redeemInvite _ user _ _ _ => user.id = userId
  | _ => False

/-- A member that awaits its redemption may be redeemed. -/
def inviteeCheck (userId : ℕ) : Check Op Op.Res ServiceError where
  passes op answer := op.findsInvitee userId answer
  acts op := op.redeems userId

section
variable {cfg : Config} {userId : ℕ}

theorem Makes.cautious_member {α : Type} {p : Service α} {H : Op → Prop} (h : Makes H p)
    (hH : ∀ op, H op → ¬ op.setsStatus userId) : p.Cautious (memberCheck userId) fun _ => True :=
  .of_calls h hH

theorem Makes.cautious_invitee {α : Type} {p : Service α} {H : Op → Prop} (h : Makes H p)
    (hH : ∀ op, H op → ¬ op.redeems userId) : p.Cautious (inviteeCheck userId) fun _ => True :=
  .of_calls h hH

theorem jwtAuthGuard_member {user : AuthenticatedUser} :
    (jwtAuthGuard user).Cautious (memberCheck userId) fun _ => True :=
  (jwtAuthGuard_makes (H := fun op => ∃ t, op = .isTenantActive t) fun t => ⟨t, rfl⟩).cautious_member
    fun op ⟨t, he⟩ => by rw [he]; exact id

theorem resolveTenantTarget_member {id : ℕ} {user : AuthenticatedUser} {message : String} :
    (resolveTenantTarget id user message).Cautious (memberCheck userId)
      fun target => target.id ≠ userId := by
  refine Prog.Cautious.bind (Q := fun _ => True) ?_ fun tenantId _ => ?_
  · exact (requireTenantActor_makes (H := fun _ => False)).cautious_member fun _ h => h.elim
  refine Prog.Cautious.bind (Q := fun _ => True) ?_ fun _ _ => ?_
  · exact (assertActorPermission_makes (H := fun _ => False)).cautious_member fun _ h => h.elim
  refine .bind (request_cautious (fun h => h)) fun row hno => ?_
  cases row with
  | none => exact fail_cautious
  | some row =>
    dsimp only
    split
    · exact fail_cautious
    · rename_i hstatus
      refine .pure fun hid => ?_
      exact hno ⟨hid, hstatus⟩

theorem approveUser_member {id : ℕ} {user : AuthenticatedUser} :
    (approveUser id user).Cautious (memberCheck userId) fun _ => True := by
  refine resolveTenantTarget_member.bind fun target htarget => ?_
  split
  · exact fail_cautious
  · exact .bind (request_cautious htarget) fun _ _ => .pure trivial

theorem unlockUser_member {id : ℕ} {user : AuthenticatedUser} :
    (unlockUser id user).Cautious (memberCheck userId) fun _ => True := by
  refine resolveTenantTarget_member.bind fun target htarget => ?_
  split
  · exact fail_cautious
  · exact .bind (request_cautious htarget) fun _ _ => .pure trivial

theorem lockUser_member {id : ℕ} {user : AuthenticatedUser} :
    (lockUser id user).Cautious (memberCheck userId) fun _ => True := by
  refine resolveTenantTarget_member.bind fun target htarget => ?_
  split
  · exact fail_cautious
  · split
    · exact fail_cautious
    · refine now_cautious.bind fun now _ => ?_
      exact .bind (request_cautious htarget) fun _ _ => .pure trivial

/-- Every request sees a member that is not deleted before it sets its status. -/
theorem Request.code_member (r : Request) :
    (r.code cfg).Cautious (memberCheck userId) fun _ => True := by
  cases r with
  | approveUser id user => exact jwtAuthGuard_member.bind fun _ _ => approveUser_member
  | lockUser id user => exact jwtAuthGuard_member.bind fun _ _ => lockUser_member
  | unlockUser id user => exact jwtAuthGuard_member.bind fun _ _ => unlockUser_member
  | _ =>
    refine .of_calls (Request.code_makes cfg _) fun op hmakes hsets => ?_
    cases op <;> first | exact hsets | cases hmakes

theorem redeemPending_invitee {invite : UserInvite} {hash fullName : String} {redeemedAt : ℕ} :
    (redeemPending invite hash fullName redeemedAt).Cautious (inviteeCheck userId)
      fun _ => True := by
  unfold redeemPending
  cases invite.tenantUserId with
  | none => exact fail_cautious
  | some id =>
    refine .bind (request_cautious (fun h => h)) fun user hno => ?_
    cases user with
    | none => exact fail_cautious
    | some user =>
      refine .bind (request_cautious hno) fun consumed _ => ?_
      cases consumed
      · exact fail_cautious
      · exact .pure trivial

theorem Request.code_invitee (r : Request) :
    (r.code cfg).Cautious (inviteeCheck userId) fun _ => True := by
  cases r with
  | redeemInvite dto =>
    show (if dto.password ≠ dto.confirmPassword then _ else _ : Service Response).Cautious _ _
    split
    · exact fail_cautious
    · refine Prog.Cautious.bind (Q := fun _ => True) ?_ fun _ _ => ?_
      · exact (assertPasswordMeetsPolicy_makes (H := fun _ => False)).cautious_invitee
          fun _ h => h.elim
      · dsimp only
        split
        · exact fail_cautious
        · refine .bind (request_cautious (fun h => h)) fun hash _ => now_cautious.bind fun now _ => ?_
          refine .bind (request_cautious (fun h => h)) fun found _ => ?_
          cases found with
          | none => exact fail_cautious
          | some found =>
            dsimp only
            split
            · exact fail_cautious
            · exact redeemPending_invitee
  | _ =>
    refine .of_calls (Request.code_makes cfg _) fun op hmakes hredeems => ?_
    cases op <;> first | exact hredeems | cases hmakes

end

/-! ### The invite a request has read -/

/-- The invite that an operation acts on. -/
def Op.invite? : Op → Option UserInvite
  | resendInvite existing _ _ _ _ | revokeInvite existing _ => some existing
  | redeemInvite invite _ _ _ _ => some invite
  | _ => none

def Request.onInvite : Request → Prop
  | resendInvite _ _ | revokeInvite _ _ | redeemInvite _ => True
  | _ => False

/-- An answer that no database gives: another member than the one asked for. -/
def Op.mistakes : (op : Op) → Except ServiceError op.Res → Prop
  | findInvitee userId _, .ok (some user) => user.id ≠ userId
  | _, _ => False

/-- A redemption for another member than the invite's. -/
def Op.redeemsAnother (invite : UserInvite) : Op → Prop
  | redeemInvite _ user _ _ _ => invite.tenantUserId ≠ some user.id
  | _ => False

def memberOfInvite (invite : UserInvite) : Check Op Op.Res ServiceError where
  passes op answer := op.mistakes answer
  acts op := op.redeemsAnother invite

/-- The requests on invites look theirs up and act on it alone. -/
def inviteLookup : Lookup Op Op.Res Context ServiceError Response UserInvite where
  finds
    | .findInvite _ _, .ok found => found
    | .findInviteByToken _, .ok found => found.map (·.1)
    | _, _ => none
  before op := op.invite? = none
  next invite p := Makes (fun op => ∀ x, op.invite? = some x → x = invite) p ∧
    p.Cautious (memberOfInvite invite) fun _ => True

/-- What is known of a request that has read an invite. -/
structure Handles (invite : UserInvite) (t : RequestThread) : Prop where
  calls : t.Calls fun op => ∀ x, op.invite? = some x → x = invite
  member : t.Cautious (memberOfInvite invite)

section
variable {cfg : Config}

theorem guards_looksUp {user : AuthenticatedUser} {p : Service Response}
    (hp : p.LooksUp inviteLookup) :
    (do jwtAuthGuard user; requireInvitePermission user; p).LooksUp inviteLookup := by
  refine .skip (H := fun op => ∃ t, op = .isTenantActive t) (jwtAuthGuard_makes fun t => ⟨t, rfl⟩)
    (fun op ⟨t, he⟩ => ?_) fun _ => ?_
  · subst he
    exact ⟨rfl, fun _ => rfl⟩
  · exact .skip (requireInvitePermission_makes (H := fun _ => False)) (fun _ h => h.elim) fun _ => hp

theorem next_of_makes {invite : UserInvite} {p : Service Response}
    (h : Makes (fun op => (∀ x, op.invite? = some x → x = invite) ∧ ¬ op.redeemsAnother invite) p) :
    inviteLookup.next invite p :=
  ⟨Prog.Calls.mono h fun _ hop => hop.1, .of_calls h fun _ hop => hop.2⟩

theorem resendInvite_looksUp (inviteId : ℕ) (user : AuthenticatedUser) :
    (resendInvite cfg inviteId user).LooksUp inviteLookup := by
  refine .skip (requireTenantActor_makes (H := fun _ => False)) (fun _ h => h.elim) fun tenantId => ?_
  refine .await rfl (fun found invite hfound => ?_) (fun found hnone => ?_) fun _ => rfl
  · cases hfound
    apply next_of_makes
    dsimp only
    split
    · exact makes_fail
    · split
      · exact makes_fail
      · refine Prog.Calls.bind ?_ fun _ => ?_
        · refine makes_now.bind fun now => ?_
          split
          · exact assertSeatsAvailable_makes fun _ _ => ⟨fun _ h => (nomatch h), fun h => h⟩
          · exact .pure
        · refine (requireActiveTenant_makes fun _ => ⟨fun _ h => (nomatch h), fun h => h⟩).bind ?_
          refine fun _ => Prog.Calls.read.bind fun c => .bind (makes_request ?_) fun replacement => ?_
          · exact ⟨fun _ h => (Option.some.inj h).symm, fun h => h⟩
          · cases replacement with
            | none => exact makes_fail
            | some invite => exact .pure
  · cases hnone
    exact .throw

theorem revokeInvite_looksUp (inviteId : ℕ) (user : AuthenticatedUser) :
    (revokeInvite inviteId user).LooksUp inviteLookup := by
  refine .skip (requireTenantActor_makes (H := fun _ => False)) (fun _ h => h.elim) fun tenantId => ?_
  refine .await rfl (fun found invite hfound => ?_) (fun found hnone => ?_) fun _ => rfl
  · cases hfound
    apply next_of_makes
    dsimp only
    split
    · exact .pure
    · split
      · exact makes_fail
      · refine makes_now.bind fun now => .bind (makes_request ?_) fun revoked => ?_
        · exact ⟨fun _ h => (Option.some.inj h).symm, fun h => h⟩
        · cases revoked with
          | none => exact makes_fail
          | some invite => exact .pure
  · cases hnone
    exact .throw

theorem redeemPending_next {invite : UserInvite} {hash fullName : String} {redeemedAt : ℕ} :
    inviteLookup.next invite (redeemPending invite hash fullName redeemedAt) := by
  constructor
  · unfold redeemPending
    cases invite.tenantUserId with
    | none => exact makes_fail
    | some userId =>
      refine .bind (makes_request fun _ h => nomatch h) fun user => ?_
      cases user with
      | none => exact makes_fail
      | some user =>
        refine .bind (makes_request fun _ h => (Option.some.inj h).symm) fun consumed => ?_
        cases consumed
        · exact makes_fail
        · exact .pure
  · unfold redeemPending
    cases huser : invite.tenantUserId with
    | none => exact fail_cautious
    | some userId =>
      refine .bind (request_cautious (fun h => h)) fun user hno => ?_
      cases user with
      | none => exact fail_cautious
      | some user =>
        have hid : user.id = userId := not_not.mp hno
        refine .bind (request_cautious fun h => ?_) fun consumed _ => ?_
        · exact h (by rw [huser, hid])
        · cases consumed
          · exact fail_cautious
          · exact .pure trivial

theorem redeemInvite_looksUp (dto : RedeemUserInviteDto) :
    (redeemInvite cfg dto).LooksUp inviteLookup := by
  unfold redeemInvite
  split
  · exact .throw
  · refine .skip (assertPasswordMeetsPolicy_makes (H := fun _ => False)) (fun _ h => h.elim)
      fun _ => ?_
    dsimp only
    split
    · exact .throw
    · refine .skip (H := fun op => ∃ ps, op = .hash ps) (makes_request ⟨_, rfl⟩) ?_ fun hash => ?_
      · intro op ⟨ps, he⟩
        subst he
        exact ⟨rfl, fun _ => rfl⟩
      · refine .skip (makes_now (H := fun _ => False)) (fun _ h => h.elim) fun redeemedAt => ?_
        refine .await rfl (fun found invite hfound => ?_) (fun found hnone => ?_) fun _ => rfl
        · cases found with
          | none => cases hfound
          | some found =>
            obtain ⟨x, active⟩ := found
            cases hfound
            dsimp only
            split
            · exact ⟨makes_fail, fail_cautious⟩
            · exact redeemPending_next
        · cases found with
          | none => exact .throw
          | some found => cases hnone

theorem Request.code_invite {r : Request} (hr : r.onInvite) : (r.code cfg).LooksUp inviteLookup := by
  cases r with
  | resendInvite inviteId user => exact guards_looksUp (resendInvite_looksUp inviteId user)
  | revokeInvite inviteId user => exact guards_looksUp (revokeInvite_looksUp inviteId user)
  | redeemInvite dto => exact redeemInvite_looksUp dto
  | _ => exact hr.elim

theorem Request.onInvite_of_makes {r : Request} {op : Op} {invite : UserInvite}
    (h : r.makes op = true) (hop : op.invite? = some invite) : r.onInvite := by
  cases op with
  | resendInvite | revokeInvite | redeemInvite =>
    cases r <;> trivial
  | _ => cases hop

end

end Flexi.Accounts
