import Flexi.Accounts.Authentication

/-!
# Password recovery (password-reset.service.ts)

The code of `PasswordResetService`. Mail and audit rows are left out: the service
awaits the one nowhere and nothing reads the other.
-/

namespace Flexi.Accounts
open Flexi.Library

def invalidOtp : HttpError :=
  .badRequest "INVALID_OTP" ["The reset code is invalid or has expired."]

structure ResetActor where
  authAccountId : ℕ
  tenantId : Option String
  isActive : Bool
  deriving DecidableEq, Repr

/-- The rule of login: the header's presence decides. -/
def resolveActor (email : String) (tenantId : Option String) : Service (Option ResetActor) :=
  match tenantId with
  | some tenantId => do
    let tenantUser ← request (.findTenantUserByEmail tenantId email)
    match tenantUser with
    | none => pure none
    | some row =>
      let active ← request (.isTenantActive tenantId)
      pure (if active then
        some ⟨row.user.authAccountId, some row.user.tenantId,
          row.user.isActive && row.authAccount.isActive⟩
      else none)
  | none => do
    let systemUser ← request (.findSystemUserByEmail email)
    pure (systemUser.map fun row =>
      ⟨row.user.authAccountId, none, row.user.isActive && row.authAccount.isActive⟩)

/-- The newest code counts, whether or not it was consumed. -/
def isWithinCooldown (authAccountId : ℕ) : Service Bool := do
  let latest ← request (.findLatestOtp authAccountId)
  match latest with
  | none => pure false
  | some latest =>
    let now ← now
    pure (now - latest.createdAt < PASSWORD_RESET_OTP_COOLDOWN_SECONDS * 1000)

/-- Issues a code, unless one was issued within the cooldown. -/
def issueOtpFor (authAccountId : ℕ) : Service Response := do
  let withinCooldown ← isWithinCooldown authAccountId
  if withinCooldown then pure .done
  else do
    let c ← Prog.read
    let otpHash ← request (.hash [c.newOtp])
    request (.issueOtp authAccountId otpHash.headI (c.now + PASSWORD_RESET_OTP_TTL_SECONDS * 1000)
      c.now)
    pure .done

def requestReset (cfg : Config) (email : String) (tenantId : Option String) :
    Service Response := do
  let actor ← resolveActor (cfg.normalizeEmail email) tenantId
  match actor with
  | none => pure .done
  | some actor =>
    if actor.isActive then issueOtpFor actor.authAccountId else pure .done

structure ResetPasswordDto where
  email : String
  otp : String
  newPassword : String

/-- `otpMatches`: a malformed code is never compared. -/
def otpMatches (submitted : String) (otp : PasswordResetOtp) : Service Bool :=
  if matchesOtpPattern submitted then request (.compareOtp otp submitted) else pure false

/-- The check of a live code and what follows it. -/
def consumeOtp (dto : ResetPasswordDto) (authAccountId : ℕ) (otp : PasswordResetOtp) :
    Service Response := do
  let now ← now
  if otp.expiresAt ≤ now then do
    request (.consumeExpiredOtp otp now)
    fail invalidOtp
  else do
    let isMatch ← otpMatches dto.otp otp
    if isMatch then do
      let passwordHash ← request (.hash [dto.newPassword])
      let consumed ← request (.resetPassword otp authAccountId passwordHash.headI now)
      match consumed with
      | none => fail invalidOtp
      | some _ => pure .done
    else do
      request (.recordMiss otp now)
      fail invalidOtp

/-- The code is looked up even when no account matched. -/
def resetPassword (cfg : Config) (dto : ResetPasswordDto) (tenantId : Option String) :
    Service Response := do
  assertPasswordMeetsPolicy dto.newPassword
  let actor ← resolveActor (cfg.normalizeEmail dto.email) tenantId
  let otp ← request (.findLiveOtp (actor.map (·.authAccountId)))
  match actor, otp with
  | some actor, some otp =>
    if actor.isActive then consumeOtp dto actor.authAccountId otp else fail invalidOtp
  | _, _ => fail invalidOtp

end Flexi.Accounts
