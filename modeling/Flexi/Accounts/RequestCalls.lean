import Flexi.Accounts.Server
import Flexi.Library.Checks

/-!
# The calls of each request

Which statements a request may come to, route by route.
-/

namespace Flexi.Accounts
open Flexi.Library

/-- The statements in a route's code. -/
def Request.makes : Request → Op → Bool
  | .login _ _ => fun
    | .findTenantUserByEmail _ _ | .isTenantActive _ | .findSystemUserByEmail _ | .compare _ _
    | .createRefreshToken _ _ _ => true
    | _ => false
  | .refresh _ => fun
    | .findRefreshToken _ | .revokeFamily _ _ | .rotate _ _ | .findTenantUserByAccount _
    | .findSystemUserByAccount _ | .isTenantActive _ | .createRefreshToken _ _ _ => true
    | _ => false
  | .logout _ _ => fun
    | .isTenantActive _ | .findRefreshToken _ | .revokeToken _ _ => true
    | _ => false
  | .changePassword _ _ => fun
    | .isTenantActive _ | .findAuthAccount _ | .compare _ _ | .hash _
    | .changePassword _ _ _ _ => true
    | _ => false
  | .revokeSession _ _ => fun
    | .isTenantActive _ | .findSession _ | .belongsToTenant _ _ | .belongsToSystem _
    | .revokeSession _ _ => true
    | _ => false
  | .revokeAllSessions _ _ => fun
    | .isTenantActive _ | .revokeAllSessions _ _ _ => true
    | _ => false
  | .requestReset _ _ => fun
    | .findTenantUserByEmail _ _ | .isTenantActive _ | .findSystemUserByEmail _ | .findLatestOtp _
    | .hash _ | .issueOtp _ _ _ _ => true
    | _ => false
  | .resetPassword _ _ => fun
    | .findTenantUserByEmail _ _ | .isTenantActive _ | .findSystemUserByEmail _ | .findLiveOtp _
    | .consumeExpiredOtp _ _ | .compareOtp _ _ | .recordMiss _ _ | .hash _
    | .resetPassword _ _ _ _ => true
    | _ => false
  | .deactivate _ _ => fun
    | .isTenantActive _ | .findTarget _ _ | .findSystemTarget _ | .deactivate _ _ _ _ => true
    | _ => false
  | .activate _ _ => fun
    | .isTenantActive _ | .findTarget _ _ | .findSystemTarget _ | .activate _ _ => true
    | _ => false
  | .forceResetPassword _ _ => fun
    | .isTenantActive _ | .findTarget _ _ | .findSystemTarget _ | .hash _
    | .forceResetPassword _ _ _ | .burnOtps _ _ => true
    | _ => false
  | .approveUser _ _ => fun
    | .isTenantActive _ | .findMember _ _ | .approveUser _ => true
    | _ => false
  | .lockUser _ _ => fun
    | .isTenantActive _ | .findMember _ _ | .lockUser _ _ _ => true
    | _ => false
  | .unlockUser _ _ => fun
    | .isTenantActive _ | .findMember _ _ | .unlockUser _ => true
    | _ => false
  | .updateUser _ _ _ => fun
    | .isTenantActive _ | .findMember _ _ | .findSystemUser _ | .findRole _ _
    | .updateTenantUser _ _ _ | .updateSystemUser _ _ _ => true
    | _ => false
  | .directCreate _ _ => fun
    | .isTenantActive _ | .seatUsage _ _ | .findRole _ _ | .hash _ | .directCreate _ _ _ _ _ => true
    | _ => false
  | .createInvites _ _ => fun
    | .isTenantActive _ | .seatUsage _ _ | .findActiveTenant _ | .findRole _ _ | .hash _
    | .createInvites _ _ _ _ => true
    | _ => false
  | .resendInvite _ _ => fun
    | .isTenantActive _ | .findInvite _ _ | .seatUsage _ _ | .findActiveTenant _
    | .resendInvite _ _ _ _ _ => true
    | _ => false
  | .revokeInvite _ _ => fun
    | .isTenantActive _ | .findInvite _ _ | .revokeInvite _ _ => true
    | _ => false
  | .redeemInvite _ => fun
    | .hash _ | .findInviteByToken _ | .findInvitee _ _ | .redeemInvite _ _ _ _ _ => true
    | _ => false
  | .register _ _ => fun
    | .findActiveTenant _ | .findTenantSettings _ | .seatUsage _ _ | .hash _
    | .register _ _ _ _ _ _ => true
    | _ => false
  | .deleteUser _ _ _ _ => fun
    | .isTenantActive _ | .findSource _ _ | .findTransferTarget _ _ | .hardDelete _ _ _
    | .softDelete _ _ _ => true
    | _ => false

/-- The program makes only calls in `H`. -/
abbrev Makes {α : Type} (H : Op → Prop) (p : Service α) : Prop :=
  p.Calls (fun _ => True) (fun _ => True) H

section
variable {H : Op → Prop} {cfg : Config}

theorem makes_request {op : Op} (h : H op) : Makes H (request op) := Prog.Calls.await h

theorem makes_now : Makes H now := Prog.Calls.read.bind fun _ => .pure

theorem makes_fail {α : Type} {e : HttpError} : Makes H (fail e : Service α) := Prog.Calls.throw trivial

theorem request_cautious {C : Check Op Op.Res ServiceError} {op : Op} (h : ¬ C.acts op) :
    (request op).Cautious C fun answer => ¬ C.passes op (.ok answer) :=
  .await h fun _ hr => hr

theorem now_cautious {C : Check Op Op.Res ServiceError} : now.Cautious C fun _ => True :=
  Prog.Cautious.read.bind fun _ _ => .pure trivial

theorem fail_cautious {C : Check Op Op.Res ServiceError} {α : Type} {e : HttpError} {Q : α → Prop} :
    (fail e : Service α).Cautious C Q := trivial

/-! ### Shared parts -/

theorem assertPasswordMeetsPolicy_makes {password : String} :
    Makes H (assertPasswordMeetsPolicy password) := by
  unfold assertPasswordMeetsPolicy
  dsimp only
  split
  · exact .pure
  · exact makes_fail

theorem jwtAuthGuard_makes {user : AuthenticatedUser} (h : ∀ t, H (.isTenantActive t)) :
    Makes H (jwtAuthGuard user) := by
  unfold jwtAuthGuard
  cases user.tenantId with
  | none => exact .pure
  | some tenantId =>
    dsimp only
    split
    · exact .pure
    · refine .bind (makes_request (h tenantId)) fun active => ?_
      cases active
      · exact makes_fail
      · exact .pure

theorem resolveTenantActor_makes {email tenantId : String} (h : ∀ t e, H (.findTenantUserByEmail t e))
    (hactive : ∀ t, H (.isTenantActive t)) : Makes H (resolveTenantActor email tenantId) := by
  refine .bind (makes_request (h _ _)) fun row => ?_
  cases row with
  | none => exact .pure
  | some row => exact .bind (makes_request (hactive _)) fun _ => .pure

theorem resolveActorByAuthAccountId_makes {authAccountId : ℕ}
    (htenant : ∀ a, H (.findTenantUserByAccount a)) (hsystem : ∀ a, H (.findSystemUserByAccount a))
    (hactive : ∀ t, H (.isTenantActive t)) :
    Makes H (resolveActorByAuthAccountId authAccountId) := by
  refine .bind (makes_request (htenant _)) fun tenantUser => ?_
  refine .bind (makes_request (hsystem _)) fun systemUser => ?_
  cases tenantUser with
  | none =>
    cases systemUser with
    | none => exact .pure
    | some row => exact .pure
  | some row =>
    cases systemUser with
    | none => exact .bind (makes_request (hactive _)) fun _ => .pure
    | some row => exact makes_fail

theorem issueTokens_makes {actor : ResolvedActor}
    (h : ∀ th ex, H (.createRefreshToken actor.authAccountId th ex)) :
    Makes H (issueTokens cfg actor) := by
  refine Prog.Calls.bind ?_ fun issued => makes_now.bind fun _ => .pure
  exact Prog.Calls.read.bind fun _ => .bind (makes_request (h _ _)) fun _ => .pure

theorem rejectLogin_makes {dto : LoginDto} (h : ∀ p q, H (.compare p q)) :
    Makes H (rejectLogin dto) :=
  .bind (makes_request (h _ _)) fun _ => makes_fail

theorem assertActorPermission_makes {user : AuthenticatedUser} {tenantCode systemCode : String} :
    Makes H (assertActorPermission user tenantCode systemCode) := by
  have asked (required : String) : Makes H (if user.permissions.contains required then pure ()
      else fail (forbidden "Insufficient permissions")) := by
    split
    · exact .pure
    · exact makes_fail
  exact asked _

theorem resolveActor_makes {email : String} {tenantId : Option String}
    (h : ∀ t e, H (.findTenantUserByEmail t e)) (hactive : ∀ t, H (.isTenantActive t))
    (hsystem : ∀ e, H (.findSystemUserByEmail e)) : Makes H (resolveActor email tenantId) := by
  cases tenantId with
  | none => exact .bind (makes_request (hsystem _)) fun _ => .pure
  | some tenantId =>
    refine .bind (makes_request (h _ _)) fun row => ?_
    cases row with
    | none => exact .pure
    | some row => exact .bind (makes_request (hactive _)) fun _ => .pure

theorem resolveTargetActor_makes {userId : ℕ} {user : AuthenticatedUser}
    (htenant : ∀ u t, H (.findTarget u t)) (hsystem : ∀ u, H (.findSystemTarget u)) :
    Makes H (resolveTargetActor userId user) := by
  unfold resolveTargetActor
  cases user.actorType with
  | TENANT =>
    refine .bind (makes_request (htenant _ _)) fun row => ?_
    cases row with
    | none => exact makes_fail
    | some row => exact .pure
  | SYSTEM =>
    refine .bind (makes_request (hsystem _)) fun row => ?_
    cases row with
    | none => exact makes_fail
    | some row => exact .pure

theorem requireTenantActor_makes {user : AuthenticatedUser} {message : String} :
    Makes H (requireTenantActor user message) := by
  unfold requireTenantActor
  split
  · split
    · exact makes_fail
    · exact .pure
  · exact makes_fail

theorem resolveTenantTarget_makes {userId : ℕ} {user : AuthenticatedUser} {message : String}
    (h : ∀ u t, H (.findMember u t)) : Makes H (resolveTenantTarget userId user message) := by
  refine requireTenantActor_makes.bind fun tenantId => ?_
  refine assertActorPermission_makes.bind fun _ => .bind (makes_request (h _ _)) fun row => ?_
  cases row with
  | none => exact makes_fail
  | some row =>
    dsimp only
    split
    · exact makes_fail
    · exact .pure

theorem resolveRoleId_makes {roleId : Option ℕ} {scope : Option String} {message : String}
    (h : ∀ r s, H (.findRole r s)) : Makes H (resolveRoleId roleId scope message) := by
  cases roleId with
  | none => exact .pure
  | some roleId =>
    refine .bind (makes_request (h _ _)) fun role => ?_
    cases role with
    | none => exact makes_fail
    | some id => exact .pure

theorem updateUserData_makes {dto : UpdateUserDto} {scope : Option String} {message : String}
    (h : ∀ r s, H (.findRole r s)) : Makes H (updateUserData dto scope message) := by
  refine Prog.Calls.bind ?_ fun _ => ?_
  · split
    · split
      · exact makes_fail
      · exact .pure
    · exact .pure
  · cases dto.roleId with
    | none => exact .pure
    | some roleId => exact (resolveRoleId_makes h).bind fun _ => .pure

theorem assertSeatsAvailable_makes {tenantId : String} {seats : ℕ}
    (h : ∀ t n, H (.seatUsage t n)) : Makes H (assertSeatsAvailable tenantId seats) := by
  refine makes_now.bind fun _ => .bind (makes_request (h _ _)) fun usage => ?_
  dsimp only
  split
  · exact makes_fail
  · exact .pure

theorem requireActiveTenant_makes {tenantId : String} (h : ∀ t, H (.findActiveTenant t)) :
    Makes H (requireActiveTenant tenantId) := by
  refine .bind (makes_request (h _)) fun active => ?_
  cases active
  · exact makes_fail
  · exact .pure

theorem requireInvitePermission_makes {user : AuthenticatedUser} :
    Makes H (requireInvitePermission user) := by
  unfold requireInvitePermission
  split
  · exact .pure
  · exact makes_fail

end

/-! ### The routes -/

section
variable (cfg : Config)

theorem login_makes (dto : LoginDto) (tenantId : Option String) :
    Makes ((Request.login dto tenantId).makes ·) (login cfg dto tenantId) := by
  refine Prog.Calls.bind ?_ fun actor => ?_
  · cases tenantId with
    | none => exact .bind (makes_request rfl) fun _ => .pure
    | some tenantId => exact resolveTenantActor_makes (fun _ _ => rfl) fun _ => rfl
  · cases actor with
    | none => exact rejectLogin_makes fun _ _ => rfl
    | some actor =>
      dsimp only
      split
      · refine .bind (makes_request rfl) fun passwordMatches => ?_
        cases passwordMatches
        · exact makes_fail
        · exact issueTokens_makes fun _ _ => rfl
      · exact rejectLogin_makes fun _ _ => rfl

theorem issueForAccount_makes {H : Op → Prop} {authAccountId : ℕ}
    (htenant : ∀ a, H (.findTenantUserByAccount a)) (hsystem : ∀ a, H (.findSystemUserByAccount a))
    (hactive : ∀ t, H (.isTenantActive t))
    (h : ∀ actor th ex, H (.createRefreshToken (ResolvedActor.authAccountId actor) th ex)) :
    Makes H (issueForAccount cfg authAccountId) := by
  refine (resolveActorByAuthAccountId_makes htenant hsystem hactive).bind fun actor => ?_
  cases actor with
  | none => exact makes_fail
  | some actor =>
    dsimp only
    split
    · exact issueTokens_makes (h actor)
    · exact makes_fail

theorem refresh_makes (refreshToken : RefreshJwt) :
    Makes ((Request.refresh refreshToken).makes ·) (refresh cfg refreshToken) := by
  refine makes_now.bind fun now => ?_
  cases refreshToken.verify now with
  | none => exact makes_fail
  | some sub =>
    refine .bind (makes_request rfl) fun stored => ?_
    cases stored with
    | none => exact makes_fail
    | some stored =>
      refine makes_now.bind fun now => ?_
      split
      · exact .bind (makes_request rfl) fun _ => makes_fail
      · split
        · exact makes_fail
        · refine .bind (makes_request rfl) fun count => ?_
          split
          · exact makes_fail
          · exact issueForAccount_makes cfg (fun _ => rfl) (fun _ => rfl) (fun _ => rfl)
              fun _ _ _ => rfl

theorem logout_makes (refreshToken : RefreshJwt) (user : AuthenticatedUser) :
    Makes ((Request.logout refreshToken user).makes ·) (logout cfg refreshToken user) := by
  refine .bind (makes_request rfl) fun stored => ?_
  cases stored with
  | none => exact makes_fail
  | some stored =>
    dsimp only
    split
    · exact makes_fail
    · exact makes_now.bind fun _ => .bind (makes_request rfl) fun _ => .pure

theorem changePassword_makes (dto : ChangePasswordDto) (user : AuthenticatedUser) :
    Makes ((Request.changePassword dto user).makes ·) (changePassword dto user) := by
  refine assertPasswordMeetsPolicy_makes.bind fun _ => .bind (makes_request rfl) fun account => ?_
  cases account with
  | none => exact makes_fail
  | some account =>
    refine .bind (makes_request rfl) fun currentMatches => ?_
    cases currentMatches
    · exact makes_fail
    · refine .bind (makes_request rfl) fun passwordHash => makes_now.bind fun now => ?_
      exact .bind (makes_request rfl) fun _ => .pure

theorem revokeSession_makes (sessionId : ℕ) (user : AuthenticatedUser) :
    Makes ((Request.revokeSession sessionId user).makes ·) (revokeSession sessionId user) := by
  refine assertActorPermission_makes.bind fun _ => .bind (makes_request rfl) fun session => ?_
  cases session with
  | none => exact makes_fail
  | some session =>
    refine Prog.Calls.bind ?_ fun allowed => ?_
    · split
      · exact .pure
      · unfold canManageAccount
        split
        · split
          · exact makes_request rfl
          · exact .pure
        · split
          · exact makes_request rfl
          · exact .pure
    · cases allowed
      · exact makes_fail
      · exact makes_now.bind fun _ => .bind (makes_request rfl) fun _ => .pure

theorem revokeAllSessions_makes (keepCurrent : Bool) (user : AuthenticatedUser) :
    Makes ((Request.revokeAllSessions keepCurrent user).makes ·)
      (revokeAllSessions keepCurrent user) :=
  makes_now.bind fun _ => .bind (makes_request rfl) fun _ => .pure

theorem requestReset_makes (email : String) (tenantId : Option String) :
    Makes ((Request.requestReset email tenantId).makes ·) (requestReset cfg email tenantId) := by
  refine (resolveActor_makes (fun _ _ => rfl) (fun _ => rfl) fun _ => rfl).bind fun actor => ?_
  cases actor with
  | none => exact .pure
  | some actor =>
    dsimp only
    split
    · refine Prog.Calls.bind ?_ fun withinCooldown => ?_
      · refine .bind (makes_request rfl) fun latest => ?_
        cases latest with
        | none => exact .pure
        | some latest => exact makes_now.bind fun _ => .pure
      · cases withinCooldown
        · refine Prog.Calls.read.bind fun c => .bind (makes_request rfl) fun otpHash => ?_
          exact .bind (makes_request rfl) fun _ => .pure
        · exact .pure
    · exact .pure

theorem resetPassword_makes (dto : ResetPasswordDto) (tenantId : Option String) :
    Makes ((Request.resetPassword dto tenantId).makes ·) (resetPassword cfg dto tenantId) := by
  refine assertPasswordMeetsPolicy_makes.bind fun _ => ?_
  refine (resolveActor_makes (fun _ _ => rfl) (fun _ => rfl) fun _ => rfl).bind fun actor => ?_
  refine .bind (makes_request rfl) fun otp => ?_
  cases actor with
  | none => exact makes_fail
  | some actor =>
    cases otp with
    | none => exact makes_fail
    | some otp =>
      dsimp only
      split
      · refine makes_now.bind fun now => ?_
        split
        · exact .bind (makes_request rfl) fun _ => makes_fail
        · refine Prog.Calls.bind ?_ fun isMatch => ?_
          · unfold otpMatches
            split
            · exact makes_request rfl
            · exact .pure
          · cases isMatch
            · exact .bind (makes_request rfl) fun _ => makes_fail
            · refine .bind (makes_request rfl) fun hash => .bind (makes_request rfl) fun consumed => ?_
              cases consumed with
              | none => exact makes_fail
              | some count => exact .pure
      · exact makes_fail

theorem deactivate_makes (userId : ℕ) (user : AuthenticatedUser) :
    Makes ((Request.deactivate userId user).makes ·) (deactivate userId user) := by
  refine assertActorPermission_makes.bind fun _ => ?_
  refine (resolveTargetActor_makes (fun _ _ => rfl) fun _ => rfl).bind fun target => ?_
  split
  · exact makes_fail
  · exact makes_now.bind fun _ => .bind (makes_request rfl) fun _ => .pure

theorem activate_makes (userId : ℕ) (user : AuthenticatedUser) :
    Makes ((Request.activate userId user).makes ·) (activate userId user) := by
  refine assertActorPermission_makes.bind fun _ => ?_
  refine (resolveTargetActor_makes (fun _ _ => rfl) fun _ => rfl).bind fun target => ?_
  exact .bind (makes_request rfl) fun _ => .pure

theorem forceResetPassword_makes (userId : ℕ) (user : AuthenticatedUser) :
    Makes ((Request.forceResetPassword userId user).makes ·) (forceResetPassword userId user) := by
  refine assertActorPermission_makes.bind fun _ => ?_
  refine (resolveTargetActor_makes (fun _ _ => rfl) fun _ => rfl).bind fun target => ?_
  refine Prog.Calls.read.bind fun c => .bind (makes_request rfl) fun hash => ?_
  refine makes_now.bind fun now => .bind (makes_request rfl) fun count => ?_
  exact .bind (makes_request rfl) fun _ => .pure

theorem approveUser_makes (userId : ℕ) (user : AuthenticatedUser) :
    Makes ((Request.approveUser userId user).makes ·) (approveUser userId user) := by
  refine (resolveTenantTarget_makes fun _ _ => rfl).bind fun target => ?_
  split
  · exact makes_fail
  · exact .bind (makes_request rfl) fun _ => .pure

theorem lockUser_makes (userId : ℕ) (user : AuthenticatedUser) :
    Makes ((Request.lockUser userId user).makes ·) (lockUser userId user) := by
  refine (resolveTenantTarget_makes fun _ _ => rfl).bind fun target => ?_
  split
  · exact makes_fail
  · split
    · exact makes_fail
    · exact makes_now.bind fun _ => .bind (makes_request rfl) fun _ => .pure

theorem unlockUser_makes (userId : ℕ) (user : AuthenticatedUser) :
    Makes ((Request.unlockUser userId user).makes ·) (unlockUser userId user) := by
  refine (resolveTenantTarget_makes fun _ _ => rfl).bind fun target => ?_
  split
  · exact makes_fail
  · exact .bind (makes_request rfl) fun _ => .pure

theorem updateUser_makes (userId : ℕ) (dto : UpdateUserDto) (user : AuthenticatedUser) :
    Makes ((Request.updateUser userId dto user).makes ·) (updateUser userId dto user) := by
  refine assertActorPermission_makes.bind fun _ => ?_
  split
  · exact makes_fail
  · split
    · refine requireTenantActor_makes.bind fun tenantId => .bind (makes_request rfl) fun row => ?_
      cases row with
      | none => exact makes_fail
      | some row =>
        dsimp only
        split
        · exact makes_fail
        · split
          · exact makes_fail
          · refine (updateUserData_makes fun _ _ => rfl).bind fun data => ?_
            exact .bind (makes_request rfl) fun _ => .pure
    · refine .bind (makes_request rfl) fun row => ?_
      cases row with
      | none => exact makes_fail
      | some row =>
        dsimp only
        split
        · exact makes_fail
        · refine (updateUserData_makes fun _ _ => rfl).bind fun data => ?_
          exact .bind (makes_request rfl) fun _ => .pure

theorem directCreate_makes (dto : DirectCreateUserDto) (user : AuthenticatedUser) :
    Makes ((Request.directCreate dto user).makes ·) (directCreate cfg dto user) := by
  refine requireTenantActor_makes.bind fun tenantId => assertActorPermission_makes.bind fun _ => ?_
  refine (assertSeatsAvailable_makes fun _ _ => rfl).bind fun _ => ?_
  dsimp only
  split
  · exact makes_fail
  · refine (resolveRoleId_makes fun _ _ => rfl).bind fun roleId => ?_
    refine Prog.Calls.read.bind fun c => .bind (makes_request rfl) fun hash => ?_
    refine .bind (makes_request rfl) fun created => ?_
    cases created with
    | none => exact makes_fail
    | some user => exact .pure

theorem createInvites_makes (dto : CreateUserInvitesDto) (user : AuthenticatedUser) :
    Makes ((Request.createInvites dto user).makes ·) (createInvites cfg dto user) := by
  refine requireTenantActor_makes.bind fun tenantId => ?_
  dsimp only
  split
  · exact makes_fail
  · refine (assertSeatsAvailable_makes fun _ _ => rfl).bind fun _ => ?_
    refine (requireActiveTenant_makes fun _ => rfl).bind fun _ => ?_
    refine (resolveRoleId_makes fun _ _ => rfl).bind fun roleId => ?_
    refine Prog.Calls.read.bind fun c => .bind (makes_request rfl) fun hashes => ?_
    refine .bind (makes_request rfl) fun created => ?_
    cases created with
    | none => exact makes_fail
    | some invites => exact .pure

theorem resendInvite_makes (inviteId : ℕ) (user : AuthenticatedUser) :
    Makes ((Request.resendInvite inviteId user).makes ·) (resendInvite cfg inviteId user) := by
  refine requireTenantActor_makes.bind fun tenantId => .bind (makes_request rfl) fun existing => ?_
  cases existing with
  | none => exact makes_fail
  | some existing =>
    dsimp only
    split
    · exact makes_fail
    · split
      · exact makes_fail
      · refine Prog.Calls.bind ?_ fun _ => ?_
        · refine makes_now.bind fun now => ?_
          split
          · exact assertSeatsAvailable_makes fun _ _ => rfl
          · exact .pure
        · refine (requireActiveTenant_makes fun _ => rfl).bind fun _ => ?_
          refine Prog.Calls.read.bind fun c => .bind (makes_request rfl) fun replacement => ?_
          cases replacement with
          | none => exact makes_fail
          | some invite => exact .pure

theorem revokeInvite_makes (inviteId : ℕ) (user : AuthenticatedUser) :
    Makes ((Request.revokeInvite inviteId user).makes ·) (revokeInvite inviteId user) := by
  refine requireTenantActor_makes.bind fun tenantId => .bind (makes_request rfl) fun existing => ?_
  cases existing with
  | none => exact makes_fail
  | some existing =>
    dsimp only
    split
    · exact .pure
    · split
      · exact makes_fail
      · refine makes_now.bind fun now => .bind (makes_request rfl) fun revoked => ?_
        cases revoked with
        | none => exact makes_fail
        | some invite => exact .pure

theorem redeemInvite_makes (dto : RedeemUserInviteDto) :
    Makes ((Request.redeemInvite dto).makes ·) (redeemInvite cfg dto) := by
  unfold redeemInvite
  split
  · exact makes_fail
  · refine assertPasswordMeetsPolicy_makes.bind fun _ => ?_
    dsimp only
    split
    · exact makes_fail
    · refine .bind (makes_request rfl) fun hash => makes_now.bind fun redeemedAt => ?_
      refine .bind (makes_request rfl) fun invite => ?_
      cases invite with
      | none => exact makes_fail
      | some found =>
        dsimp only
        split
        · exact makes_fail
        · unfold redeemPending
          split
          · exact makes_fail
          · refine .bind (makes_request rfl) fun tenantUser => ?_
            cases tenantUser with
            | none => exact makes_fail
            | some tenantUser =>
              refine .bind (makes_request rfl) fun consumed => ?_
              cases consumed
              · exact makes_fail
              · exact .pure

theorem register_makes (dto : SelfRegisterDto) (tenantId : Option String) :
    Makes ((Request.register dto tenantId).makes ·) (register cfg dto tenantId) := by
  unfold register
  split
  · exact makes_fail
  · exact makes_fail
  · refine .bind (makes_request rfl) fun active => ?_
    cases active
    · exact makes_fail
    · refine .bind (makes_request rfl) fun settings => ?_
      cases settings with
      | none => exact makes_fail
      | some settings =>
        dsimp only
        split
        · refine Prog.Calls.bind ?_ fun _ => ?_
          · unfold assertDomainAllowed
            split
            · exact .pure
            · exact makes_fail
          · refine (assertSeatsAvailable_makes fun _ _ => rfl).bind fun _ => ?_
            dsimp only
            split
            · exact makes_fail
            · split
              · exact makes_fail
              · refine assertPasswordMeetsPolicy_makes.bind fun _ => ?_
                refine .bind (makes_request rfl) fun hash => .bind (makes_request rfl) fun created => ?_
                cases created with
                | none => exact makes_fail
                | some user => exact .pure
        · exact makes_fail

theorem deleteUser_makes (userId : ℕ) (hard : Bool) (transferToUserId : Option ℕ)
    (user : AuthenticatedUser) :
    Makes ((Request.deleteUser userId hard transferToUserId user).makes ·)
      (deleteUser userId hard transferToUserId user) := by
  refine requireTenantActor_makes.bind fun tenantId => assertActorPermission_makes.bind fun _ => ?_
  refine .bind (makes_request rfl) fun source => ?_
  cases source with
  | none => exact makes_fail
  | some source =>
    dsimp only
    split
    · exact makes_fail
    · split
      · exact makes_fail
      · split
        · refine Prog.Calls.bind ?_ fun target => ?_
          · cases transferToUserId with
            | none => exact .pure
            | some targetUserId =>
              refine Prog.Calls.bind ?_ fun _ => .pure
              unfold resolveActiveTransferTarget
              split
              · exact makes_fail
              · refine .bind (makes_request rfl) fun target => ?_
                cases target with
                | none => exact makes_fail
                | some target => exact .pure
          · refine makes_now.bind fun now => .bind (makes_request rfl) fun result => ?_
            cases result with
            | error e => exact makes_fail
            | ok counts => exact .pure
        · exact makes_now.bind fun _ => .bind (makes_request rfl) fun _ => .pure

/-- The guard asks for the tenant, the handler for the rest. -/
theorem Request.code_makes (r : Request) : Makes (r.makes ·) (r.code cfg) := by
  cases r with
  | login dto tenantId => exact login_makes cfg dto tenantId
  | refresh refreshToken => exact refresh_makes cfg refreshToken
  | logout refreshToken user =>
    exact (jwtAuthGuard_makes fun _ => rfl).bind fun _ => logout_makes cfg refreshToken user
  | changePassword dto user =>
    exact (jwtAuthGuard_makes fun _ => rfl).bind fun _ => changePassword_makes dto user
  | revokeSession sessionId user =>
    exact (jwtAuthGuard_makes fun _ => rfl).bind fun _ => revokeSession_makes sessionId user
  | revokeAllSessions keepCurrent user =>
    exact (jwtAuthGuard_makes fun _ => rfl).bind fun _ => revokeAllSessions_makes keepCurrent user
  | requestReset email tenantId => exact requestReset_makes cfg email tenantId
  | resetPassword dto tenantId => exact resetPassword_makes cfg dto tenantId
  | deactivate userId user =>
    exact (jwtAuthGuard_makes fun _ => rfl).bind fun _ => deactivate_makes userId user
  | activate userId user =>
    exact (jwtAuthGuard_makes fun _ => rfl).bind fun _ => activate_makes userId user
  | forceResetPassword userId user =>
    exact (jwtAuthGuard_makes fun _ => rfl).bind fun _ => forceResetPassword_makes userId user
  | approveUser userId user =>
    exact (jwtAuthGuard_makes fun _ => rfl).bind fun _ => approveUser_makes userId user
  | lockUser userId user =>
    exact (jwtAuthGuard_makes fun _ => rfl).bind fun _ => lockUser_makes userId user
  | unlockUser userId user =>
    exact (jwtAuthGuard_makes fun _ => rfl).bind fun _ => unlockUser_makes userId user
  | updateUser userId dto user =>
    exact (jwtAuthGuard_makes fun _ => rfl).bind fun _ => updateUser_makes userId dto user
  | directCreate dto user =>
    exact (jwtAuthGuard_makes fun _ => rfl).bind fun _ => directCreate_makes cfg dto user
  | createInvites dto user =>
    exact (jwtAuthGuard_makes fun _ => rfl).bind fun _ =>
      requireInvitePermission_makes.bind fun _ => createInvites_makes cfg dto user
  | resendInvite inviteId user =>
    exact (jwtAuthGuard_makes fun _ => rfl).bind fun _ =>
      requireInvitePermission_makes.bind fun _ => resendInvite_makes cfg inviteId user
  | revokeInvite inviteId user =>
    exact (jwtAuthGuard_makes fun _ => rfl).bind fun _ =>
      requireInvitePermission_makes.bind fun _ => revokeInvite_makes inviteId user
  | redeemInvite dto => exact redeemInvite_makes cfg dto
  | register dto tenantId => exact register_makes cfg dto tenantId
  | deleteUser userId hard transferToUserId user =>
    exact (jwtAuthGuard_makes fun _ => rfl).bind fun _ =>
      deleteUser_makes userId hard transferToUserId user

end

end Flexi.Accounts
