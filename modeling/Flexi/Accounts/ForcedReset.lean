import Flexi.Accounts.AccountRows
import Flexi.Accounts.OtpRows
import Flexi.Accounts.RequestCalls
import Flexi.Library.Lookup
import Flexi.Library.Protocol
import Flexi.Library.Reach

/-!
# Old credentials and a forced reset

A request verifies a password or a code in statements of their own and writes the new
password later. The codes of the account are burned after the forced reset has committed.
-/

namespace Flexi.Accounts
open Flexi.Library

/-! ### A password that was verified -/

/-- A request of the account's own (`own`) reads it before hash `hash` is set, or presents
the password of that hash; another request is answered with the account. -/
def oldPassword (a : ℕ) (hash : String) (own : Bool) : Check Op Op.Res ServiceError where
  passes
    | .findAuthAccount _, .ok (some account) =>
      account.id = a ∧ (own = true → account.passwordHash ≠ hash)
    | .compare _ passwordHash, .ok true => own = true ∧ passwordHash = hash
    | _, _ => False
  acts
    | .changePassword b _ _ _ => b = a
    | _ => False

/-- The change of the account's own password. -/
def Request.changes (a : ℕ) : Request → Bool
  | changePassword _ user => user.authAccountId = a
  | _ => false

section
variable {cfg : Config} {a : ℕ} {hash : String} {own : Bool}

theorem changePassword_cautious (dto : ChangePasswordDto) (user : AuthenticatedUser) :
    (changePassword dto user).Cautious (oldPassword a hash own) fun _ => True := by
  have hpolicy : (assertPasswordMeetsPolicy dto.newPassword).Cautious (oldPassword a hash own)
      fun _ => True :=
    .of_calls (assertPasswordMeetsPolicy_makes (H := fun _ => False)) fun _ h => h.elim
  refine hpolicy.bind fun _ _ => .bind (request_cautious id) fun account hread => ?_
  cases account with
  | none => exact fail_cautious
  | some account =>
    refine .bind (request_cautious id) fun currentMatches hmatch => ?_
    cases currentMatches with
    | false => exact fail_cautious
    | true =>
      have hother : account.id ≠ a := by
        intro hid
        by_cases hnew : own = true ∧ account.passwordHash = hash
        · exact hmatch hnew
        · exact hread ⟨hid, fun hown he => hnew ⟨hown, he⟩⟩
      refine .bind (request_cautious id) fun passwordHash _ => now_cautious.bind fun now _ => ?_
      exact .bind (request_cautious hother) fun _ _ => .pure trivial

theorem Request.code_oldPassword (r : Request) :
    (r.code cfg).Cautious (oldPassword a hash own) fun _ => True := by
  cases r with
  | changePassword dto user =>
    have hguard : (jwtAuthGuard user).Cautious (oldPassword a hash own) fun _ => True := by
      refine .of_calls (H := fun op => ∃ t, op = .isTenantActive t)
        (jwtAuthGuard_makes fun t => ⟨t, rfl⟩) ?_
      intro op h hacts
      obtain ⟨t, rfl⟩ := h
      exact hacts
    exact hguard.bind fun _ _ => changePassword_cautious dto user
  | _ =>
    refine .of_calls (Request.code_makes cfg _) fun op hmakes hacts => ?_
    cases op with
    | changePassword => cases hmakes
    | _ => exact hacts

/-- What the change of a password asks about. -/
def Op.AskedBy (dto : ChangePasswordDto) (user : AuthenticatedUser) : Op → Prop
  | findAuthAccount b => b = user.authAccountId
  | compare password _ => password = dto.currentPassword
  | _ => True

theorem changePassword_asks (dto : ChangePasswordDto) (user : AuthenticatedUser) :
    Makes (Op.AskedBy dto user) ((Request.changePassword dto user).code cfg) := by
  refine (jwtAuthGuard_makes fun t => trivial).bind fun _ => ?_
  refine assertPasswordMeetsPolicy_makes.bind fun _ => .bind (makes_request rfl) fun account => ?_
  cases account with
  | none => exact makes_fail
  | some account =>
    refine .bind (makes_request rfl) fun currentMatches => ?_
    cases currentMatches with
    | false => exact makes_fail
    | true =>
      refine .bind (makes_request trivial) fun passwordHash => makes_now.bind fun now => ?_
      exact .bind (makes_request trivial) fun _ => .pure

end

/-! ### A code that was found -/

/-- A code as it was found for an account, and the transaction that takes it. -/
def codeLookup : Lookup Op Op.Res Context ServiceError Response (Option ℕ × PasswordResetOtp) where
  finds
    | .findLiveOtp b, .ok (some otp) => some (b, otp)
    | _, _ => none
  before op := ∀ otp a hash now, op ≠ .resetPassword otp a hash now
  next x p := Makes (fun op => ∀ otp a hash now, op = .resetPassword otp a hash now →
    otp = x.2 ∧ x.1 = some a) p

/-- The rows with the id of a code that was found are of the account it was found for. -/
structure CodeOf (x : Option ℕ × PasswordResetOtp) (db : Database) : Prop where
  account : x.1 = some x.2.authAccountId
  given : x.2.id < db.nextId
  rows : ∀ row ∈ db.passwordResetOtps, row.id = x.2.id → row.authAccountId = x.2.authAccountId

def Request.isReset : Request → Prop
  | resetPassword _ _ => True
  | _ => False

section
variable {cfg : Config} {outside : Outside} {db : Database} {op : Op}

theorem CodeOf.perform {x : Option ℕ × PasswordResetOtp} (h : CodeOf x db) :
    CodeOf x (op.perform cfg outside db).2 := by
  have hn : db.nextId ≤ (op.perform cfg outside db).2.nextId := Op.perform_accounts.nextId
  refine ⟨h.account, h.given.trans_le hn, fun row hrow hid => ?_⟩
  rcases Op.perform_otp hrow with ⟨old, hold, he⟩ | ⟨a, hash, exp, now, -, rfl, -⟩
  · rw [he.authAccountId]
    exact h.rows old hold (he.id ▸ hid)
  · have hlt := h.given
    have hnew : db.nextId = x.2.id := hid
    omega

theorem CodeOf.found {x : Option ℕ × PasswordResetOtp} (hkeyed : db.OtpsKeyed)
    (h : codeLookup.finds op (op.perform cfg outside db).1 = some x) :
    CodeOf x (op.perform cfg outside db).2 := by
  cases op with
  | findLiveOtp b =>
    cases hanswer : ((Op.findLiveOtp b).perform cfg outside db).1 with
    | error e =>
      rw [hanswer] at h
      cases h
    | ok found =>
      rw [hanswer] at h
      cases found with
      | none => cases h
      | some otp =>
        cases h
        rcases Op.perform_cases cfg outside (.findLiveOtp b) db with ⟨-, e, he⟩ | heffect
        · rw [he] at hanswer
          cases hanswer
        · rw [heffect] at hanswer
          obtain ⟨hmem, hlive⟩ := Database.latestOtp_mem (Except.ok.inj hanswer)
          simp only [Bool.and_eq_true, decide_eq_true_eq] at hlive
          refine CodeOf.perform ⟨hlive.1, hkeyed.ids otp hmem, fun row hrow hid => ?_⟩
          rw [List.inj_on_of_nodup_map hkeyed.unique hrow hmem hid]
  | _ => cases h

theorem consumeOtp_takes {dto : ResetPasswordDto} {b : ℕ} {otp : PasswordResetOtp} :
    codeLookup.next (some b, otp) (consumeOtp dto b otp) := by
  refine makes_now.bind fun now => ?_
  split
  · refine .bind (makes_request fun _ _ _ _ h => ?_) fun _ => makes_fail
    cases h
  · refine .bind ?_ fun isMatch => ?_
    · unfold otpMatches
      split
      · refine makes_request fun _ _ _ _ h => ?_
        cases h
      · exact .pure
    · split
      · refine .bind (makes_request fun _ _ _ _ h => ?_) fun passwordHash => ?_
        · cases h
        refine .bind (makes_request fun _ _ _ _ h => ?_) fun consumed => ?_
        · cases h
          exact ⟨rfl, rfl⟩
        cases consumed with
        | none => exact makes_fail
        | some count => exact .pure
      · refine .bind (makes_request fun _ _ _ _ h => ?_) fun _ => makes_fail
        cases h

theorem resetPassword_looksUp (dto : ResetPasswordDto) (tenantId : Option String) :
    (resetPassword cfg dto tenantId).LooksUp codeLookup := by
  refine .skip (assertPasswordMeetsPolicy_makes (H := fun _ => False)) (fun _ h => h.elim)
    fun _ => ?_
  have hactor : Makes (fun op => (∃ t e, op = .findTenantUserByEmail t e) ∨
      (∃ t, op = .isTenantActive t) ∨ ∃ e, op = .findSystemUserByEmail e)
      (resolveActor (cfg.normalizeEmail dto.email) tenantId) :=
    resolveActor_makes (fun t e => .inl ⟨t, e, rfl⟩) (fun t => .inr (.inl ⟨t, rfl⟩))
      fun e => .inr (.inr ⟨e, rfl⟩)
  refine .skip hactor (fun op h => ?_) fun actor => ?_
  · rcases h with ⟨t, e, rfl⟩ | ⟨t, rfl⟩ | ⟨e, rfl⟩
    · exact ⟨fun _ _ _ _ h => (nomatch h), fun _ => rfl⟩
    · exact ⟨fun _ _ _ _ h => (nomatch h), fun _ => rfl⟩
    · exact ⟨fun _ _ _ _ h => (nomatch h), fun _ => rfl⟩
  refine .await (fun _ _ _ _ h => (nomatch h)) (fun otp x hx => ?_) (fun otp hx => ?_) fun _ => rfl
  · cases otp with
    | none => cases hx
    | some otp =>
      cases hx
      cases actor with
      | none => exact trivial
      | some actor =>
        dsimp only
        split
        · exact consumeOtp_takes
        · exact trivial
  · cases otp with
    | none =>
      cases actor with
      | none => exact .throw
      | some actor => exact .throw
    | some otp => cases hx

end

/-! ### The codes that are burned -/

inductive BurnStage where
  | idle
  | burn

/-- After the forced reset of account `a` its codes are burned next. -/
def burning (a : ℕ) : Protocol Op Op.Res Context ServiceError BurnStage where
  allows
    | .idle, _ => True
    | .burn, op => ∃ now, op = .burnOtps a now
  next
    | .idle, .forceResetPassword b _ _, .ok _ => if b = a then .burn else .idle
    | _, _, _ => .idle
  reads q _ := q
  ends q := q = .idle

theorem forceResetPassword_keeps {a : ℕ} (userId : ℕ) (user : AuthenticatedUser) :
    (forceResetPassword userId user).Keeps (burning a) (fun _ => (burning a).ends) .idle := by
  refine .bind (.of_calls (assertActorPermission_makes (H := fun _ => False)) (fun _ h => h.elim)
    (fun _ => rfl) rfl) fun _ q hq => ?_
  subst hq
  have htarget : Makes (fun op => (∃ u t, op = .findTarget u t) ∨ ∃ u, op = .findSystemTarget u)
      (resolveTargetActor userId user) :=
    resolveTargetActor_makes (fun u t => .inl ⟨u, t, rfl⟩) fun u => .inr ⟨u, rfl⟩
  refine .bind (.of_calls htarget (fun op h => ?_) (fun _ => rfl) rfl) fun target q hq => ?_
  · rcases h with ⟨u, t, rfl⟩ | ⟨u, rfl⟩
    · exact ⟨trivial, fun _ => rfl⟩
    · exact ⟨trivial, fun _ => rfl⟩
  subst hq
  refine .bind (Q := fun _ q => q = .idle) (.read fun _ => rfl) fun c q hq => ?_
  subst hq
  refine .bind (Q := fun _ q => q = .idle) (.await trivial (fun _ => rfl) fun _ => rfl)
    fun passwordHash q hq => ?_
  subst hq
  refine .bind (Q := fun _ q => q = .idle) (.bind (.read fun _ => rfl) fun c q hq => .pure hq.symm)
    fun now q hq => ?_
  subst hq
  refine .bind (Q := fun _ q => q = .idle ∨ q = .burn ∧ target.authAccountId = a) ?_
    fun count q hq => ?_
  · refine .await trivial (fun count => ?_) fun _ => rfl
    show (if target.authAccountId = a then BurnStage.burn else .idle) = .idle ∨ _
    by_cases ha : target.authAccountId = a
    · exact .inr ⟨if_pos ha, ha⟩
    · exact .inl (if_neg ha)
  · refine .bind (Q := fun _ q => q = .idle) ?_ fun _ q hq => ?_
    · rcases hq with rfl | ⟨rfl, ha⟩
      · exact .await trivial (fun _ => rfl) fun _ => rfl
      · exact .await ⟨now, by rw [ha]⟩ (fun _ => rfl) fun _ => rfl
    · subst hq
      exact .pure rfl

theorem burn_awaits {a : ℕ} {p : Service Response}
    (h : p.Keeps (burning a) (fun _ => (burning a).ends) .burn) (c : Context) :
    ∃ now k, p.advance c = .awaiting (.burnOtps a now) k := by
  induction p with
  | ret answer => cases h
  | throw e => cases h
  | ask k ih => exact ih c (h c)
  | call op k =>
    obtain ⟨now, rfl⟩ := h.1
    exact ⟨now, k, rfl⟩

theorem Request.code_burning {cfg : Config} {a : ℕ} (r : Request) :
    (r.code cfg).Keeps (burning a) (fun _ => (burning a).ends) .idle := by
  cases r with
  | forceResetPassword userId user =>
    refine .bind (.of_calls (H := fun op => ∃ t, op = .isTenantActive t)
      (jwtAuthGuard_makes fun t => ⟨t, rfl⟩) (fun op h => ?_) (fun _ => rfl) rfl) fun _ q hq => ?_
    · obtain ⟨t, rfl⟩ := h
      exact ⟨trivial, fun _ => rfl⟩
    · subst hq
      exact forceResetPassword_keeps userId user
  | _ =>
    refine (Prog.Keeps.of_calls (Request.code_makes cfg _) (fun op hmakes => ?_) (fun _ => rfl)
      rfl).mono fun _ _ h => h
    refine ⟨trivial, fun answer => ?_⟩
    cases op with
    | forceResetPassword => cases hmakes
    | _ => rfl

/-! ### What the operations do -/

section
variable {cfg : Config} {outside : Outside} {db : Database} {op : Op} {a : ℕ} {hash : String}

/-- The account has the hash of the forced reset and has to be changed. -/
def Database.Forced (a : ℕ) (hash : String) (db : Database) : Prop :=
  ∀ account ∈ db.authAccounts, account.id = a →
    account.passwordHash = hash ∧ account.mustChangePassword = true

/-- The account's codes have been consumed. -/
def Database.Burned (a : ℕ) (db : Database) : Prop :=
  ∀ otp ∈ db.passwordResetOtps, otp.authAccountId = a → otp.consumedAt ≠ none

theorem Database.Forced.perform (h : db.Forced a hash) (ha : a < db.nextId)
    (hop : ∀ passwordHash must, op.setsPassword ≠ some (a, passwordHash, must)) :
    (op.perform cfg outside db).2.Forced a hash := by
  intro account hmem hid
  rcases Op.perform_account hmem with hold | ⟨old, -, passwordHash, must, hset, rfl⟩ | hnew
  · exact h account hold hid
  · have hid : old.id = a := hid
    rw [hid] at hset
    exact absurd hset (hop passwordHash must)
  · omega

theorem Database.Burned.perform (h : db.Burned a)
    (hop : ∀ passwordHash exp now, op ≠ .issueOtp a passwordHash exp now) :
    (op.perform cfg outside db).2.Burned a := by
  intro otp hmem hotp
  rcases Op.perform_otp hmem with ⟨old, hold, he⟩ | ⟨b, passwordHash, exp, now, rfl, rfl, -⟩
  · exact he.consumed (h old hold (he.authAccountId ▸ hotp))
  · have hb : b = a := hotp
    exact absurd (by rw [hb]) (hop passwordHash exp now)

theorem Op.perform_forceResetPassword {now count : ℕ}
    (h : ((forceResetPassword a hash now).perform cfg outside db).1 = .ok count) :
    (∃ account ∈ db.authAccounts, account.id = a) ∧
      ((forceResetPassword a hash now).perform cfg outside db).2.Forced a hash := by
  rcases perform_cases cfg outside (forceResetPassword a hash now) db with ⟨-, e, he⟩ | heffect
  · rw [he] at h
    cases h
  rw [heffect, effect, Database.forceResetPassword, Database.ifAccount] at h ⊢
  split at h
  · cases h
  · rename_i haccount
    rw [if_neg haccount]
    cases hfound : db.account? a with
    | none =>
      rw [hfound] at haccount
      exact absurd rfl haccount
    | some account =>
    refine ⟨⟨account, Database.account?_some hfound⟩, ?_⟩
    intro account hmem hid
    obtain ⟨old, -, rfl⟩ := mem_updateMany.mp hmem
    split
    · exact ⟨rfl, rfl⟩
    · rename_i hother
      rw [if_neg hother] at hid
      exact absurd hid (by simpa using hother)

theorem Op.perform_burnOtps {now : ℕ} (hfault : outside.fault = false) :
    ((burnOtps a now).perform cfg outside db).2.Burned a := by
  intro otp hmem hotp
  rw [perform, if_neg (by simp [hfault])] at hmem
  obtain ⟨old, -, rfl⟩ := mem_updateMany.mp hmem
  split
  · exact Option.some_ne_none now
  · rename_i hold
    rw [if_neg hold] at hotp
    intro hlive
    exact hold (by simp [hotp, hlive])

theorem Op.perform_resetPassword_spent {otp : PasswordResetOtp} {now : ℕ}
    (h : ∀ row ∈ db.passwordResetOtps, row.id = otp.id → row.consumedAt ≠ none) :
    ((resetPassword otp a hash now).perform cfg outside db).2 = db := by
  have hzero : countWhere (fun row => row.id = otp.id && row.consumedAt = none)
      db.passwordResetOtps = 0 := by
    apply countWhere_eq_zero.mpr
    intro row hrow
    by_cases hid : row.id = otp.id
    · simpa [hid] using h row hrow hid
    · simp [hid]
  rcases perform_cases cfg outside (resetPassword otp a hash now) db with ⟨hdb, -⟩ | heffect
  · exact hdb
  · rw [heffect, effect, Database.resetPassword, if_pos hzero]

end

/-! ### The server -/

/-- What gives an account a credential that is newer than its forced reset. -/
def Op.renews (a : ℕ) : Op → Bool
  | issueOtp b _ _ _ => b = a
  | forceResetPassword b _ _ => b = a
  | redeemInvite _ user _ _ _ => user.authAccountId = a
  | _ => false

namespace Server

/-- The requests present credentials from before the forced reset: the password of the new
hash is presented by none, and the account is given no other credential. -/
structure Older (cfg : Config) (a : ℕ) (hash : String) (s : Server) (e : ServerEvent) : Prop where
  passwords : ∀ (j : ℕ) dto user t, s.requests[j]? = some ⟨.changePassword dto user, t⟩ →
    user.authAccountId = a → cfg.compare dto.currentPassword hash = false
  renewals : ∀ j outside r op k, e = .execute j outside →
    s.requests[j]? = some ⟨r, .awaiting op k⟩ → op.renews a = false

/-- Request `i` has reset the password and is still to burn the codes. -/
def burns (i : ℕ) (s : Server) : Bool :=
  (s.requests[i]?).any fun f => match f.thread with
    | .answered (.forceResetPassword _ _ _) _ _ => true
    | .awaiting (.burnOtps _ _) _ => true
    | _ => false

/-- No code of the account is taken while request `i` has not burned them yet, and the
statement that does so does not fail. -/
structure BurnsFirst (a i : ℕ) (s : Server) (e : ServerEvent) : Prop where
  resets : ∀ j outside r otp hash now k, e = .execute j outside →
    s.requests[j]? = some ⟨r, .awaiting (.resetPassword otp a hash now) k⟩ → s.burns i = false
  fault : ∀ outside r now k, e = .execute i outside →
    s.requests[i]? = some ⟨r, .awaiting (.burnOtps a now) k⟩ → outside.fault = false

/-- The resets take the codes they have found. -/
def TakesFound (s : Server) : Prop :=
  s.Follow Request.isReset codeLookup CodeOf fun x t =>
    t.Calls fun op => ∀ otp b passwordHash now, op = .resetPassword otp b passwordHash now →
      otp = x.2 ∧ x.1 = some b

theorem TakesFound.step {cfg : Config} {s s' : Server} {e : ServerEvent} (h : s.TakesFound)
    (hotps : s.db.OtpsKeyed) (hs : s.step cfg e = some s') : s'.TakesFound := by
  refine Follow.step h hs (fun r hr => ?_) (fun _ _ _ _ _ x _ _ hx => hx.perform)
    (fun outside op x hx => .found hotps hx) (fun x p c hp => Thread.Calls.advance hp c)
    (fun x op answer k c hq => Thread.Calls.advance hq.2 c) ?_
  · cases r with
    | resetPassword dto tenantId => exact resetPassword_looksUp dto tenantId
    | _ => exact hr.elim
  · intro j outside r op k x _ _ _ _ hq
    exact ⟨hq.1, hq.2 _ fun _ _ => trivial⟩

/-- Where request `i` is with the codes of the account. -/
inductive BurnState (a i : ℕ) (s : Server) : Prop
  | committed {r : Request} {hash : String} {now count : ℕ} {k} :
      s.requests[i]? = some ⟨r, .answered (.forceResetPassword a hash now) (.ok count) k⟩ →
      (Thread.answered (.forceResetPassword a hash now) (.ok count) k : RequestThread).Keeps
        (burning a) .burn → BurnState a i s
  | burning {r : Request} {now : ℕ} {k} :
      s.requests[i]? = some ⟨r, .awaiting (.burnOtps a now) k⟩ → BurnState a i s
  | burned : s.db.Burned a → BurnState a i s

/-- After the commit of the forced reset. -/
structure ForcedBy (cfg : Config) (a : ℕ) (hash : String) (i : ℕ) (s : Server) : Prop where
  code : s.FromCode cfg
  given : a < s.db.nextId
  otps : s.db.OtpsKeyed
  forced : s.db.Forced a hash
  cautious : s.CautiousBy fun r => oldPassword a hash (r.changes a)
  codes : s.TakesFound
  burn : s.BurnState a i

namespace ForcedBy

variable {cfg : Config} {a i : ℕ} {hash : String} {s s' : Server} {e : ServerEvent}

/-- A code of the account is taken only when it has been consumed. -/
theorem reset_nothing {j : ℕ} {outside : Outside} {r : Request} {otp : PasswordResetOtp}
    {passwordHash : String} {now : ℕ} {k : Except ServiceError (Option ℕ) → Service Response}
    (h : s.ForcedBy cfg a hash i) (hok : s.BurnsFirst a i (.execute j outside))
    (hj : s.requests[j]? = some ⟨r, .awaiting (.resetPassword otp a passwordHash now) k⟩) :
    (s.perform cfg outside (.resetPassword otp a passwordHash now)).2 = s.db := by
  have hburns := hok.resets j outside r otp passwordHash now k rfl hj
  have hburned : s.db.Burned a := by
    cases h.burn with
    | committed hi => simp [burns, hi] at hburns
    | burning hi => simp [burns, hi] at hburns
    | burned hburned => exact hburned
  have hreset : r.isReset := by
    have hmakes := ((h.code j _ hj).calls (Request.code_makes cfg r)).op rfl
    cases r with
    | resetPassword dto tenantId => trivial
    | _ => cases hmakes
  cases h.codes j _ hj hreset with
  | looking hlooks => exact absurd rfl (hlooks.1 otp a passwordHash now)
  | past hfact htakes =>
    rename_i x
    obtain ⟨rfl, hx⟩ := htakes.1 otp a passwordHash now rfl
    have haccount : x.2.authAccountId = a := Option.some.inj (hfact.account.symm.trans hx)
    refine Op.perform_resetPassword_spent fun row hrow hid => ?_
    exact hburned row hrow ((hfact.rows row hrow hid).trans haccount)

theorem forced_step (h : s.ForcedBy cfg a hash i) (hold : s.Older cfg a hash e)
    (hok : s.BurnsFirst a i e) (hs : s.step cfg e = some s') : s'.db.Forced a hash := by
  cases e with
  | arrive r c =>
    obtain ⟨-, rfl⟩ := step_arrive hs
    exact h.forced
  | deliver j c =>
    obtain ⟨r, op, answer, k, hj, rfl⟩ := step_deliver hs
    exact h.forced
  | tick d =>
    cases step_tick hs
    exact h.forced
  | execute j outside =>
    obtain ⟨r, op, k, hj, rfl⟩ := step_execute hs
    have hrenews := hold.renewals j outside r op k rfl hj
    by_cases hset : ∃ passwordHash must, op.setsPassword = some (a, passwordHash, must)
    · obtain ⟨passwordHash, must, hset⟩ := hset
      cases op with
      | changePassword b passwordHash' kept now =>
        cases hset
        exact absurd rfl (h.cautious j _ hj).not_acts
      | resetPassword otp b passwordHash' now =>
        cases hset
        dsimp only
        rw [h.reset_nothing hok hj]
        exact h.forced
      | forceResetPassword b passwordHash' now =>
        cases hset
        simp [Op.renews] at hrenews
      | redeemInvite invite user passwordHash' fullName now =>
        cases hset
        simp [Op.renews] at hrenews
      | _ => cases hset
    · exact h.forced.perform h.given fun passwordHash must he => hset ⟨passwordHash, must, he⟩

theorem burn_step (h : s.ForcedBy cfg a hash i) (hold : s.Older cfg a hash e)
    (hok : s.BurnsFirst a i e) (hs : s.step cfg e = some s') : s'.BurnState a i := by
  cases e with
  | arrive r c =>
    obtain ⟨-, rfl⟩ := step_arrive hs
    have hlt {f : InFlight} (hi : s.requests[i]? = some f) : i < s.requests.length :=
      (List.getElem?_eq_some_iff.mp hi).1
    cases h.burn with
    | committed hi hk => exact .committed ((List.getElem?_append_left (hlt hi)).trans hi) hk
    | burning hi => exact .burning ((List.getElem?_append_left (hlt hi)).trans hi)
    | burned hburned => exact .burned hburned
  | tick d =>
    cases step_tick hs
    cases h.burn with
    | committed hi hk => exact .committed hi hk
    | burning hi => exact .burning hi
    | burned hburned => exact .burned hburned
  | deliver j c =>
    obtain ⟨r, op, answer, k, hj, rfl⟩ := step_deliver hs
    obtain ⟨hlt, -⟩ := List.getElem?_eq_some_iff.mp hj
    cases h.burn with
    | @committed _ _ _ count k₀ hi hk =>
      by_cases hji : j = i
      · subst hji
        cases hi.symm.trans hj
        obtain ⟨now, k', hadvance⟩ := burn_awaits hk { c with now := s.clock }
        have hset : (s.requests.set j ⟨r, (k₀ (.ok count)).advance { c with now := s.clock }⟩)[j]? =
            some ⟨r, .awaiting (.burnOtps a now) k'⟩ := by
          rw [List.getElem?_set_self hlt, hadvance]
        exact .burning hset
      · exact .committed ((List.getElem?_set_ne hji).trans hi) hk
    | burning hi =>
      have hji : j ≠ i := by
        intro hji
        rw [hji, hi] at hj
        cases hj
      exact .burning ((List.getElem?_set_ne hji).trans hi)
    | burned hburned => exact .burned hburned
  | execute j outside =>
    obtain ⟨r, op, k, hj, rfl⟩ := step_execute hs
    cases h.burn with
    | committed hi hk =>
      have hji : j ≠ i := by
        intro hji
        rw [hji, hi] at hj
        cases hj
      exact .committed ((List.getElem?_set_ne hji).trans hi) hk
    | burning hi =>
      by_cases hji : j = i
      · subst hji
        cases hi.symm.trans hj
        exact .burned (Op.perform_burnOtps (hok.fault outside r _ _ rfl hj))
      · exact .burning ((List.getElem?_set_ne hji).trans hi)
    | burned hburned =>
      refine .burned (hburned.perform fun passwordHash exp now he => ?_)
      have hrenews := hold.renewals j outside r op k rfl hj
      subst he
      simp [Op.renews] at hrenews

theorem cautious_step (h : s.ForcedBy cfg a hash i) (hold : s.Older cfg a hash e)
    (hs : s.step cfg e = some s') : s'.CautiousBy fun r => oldPassword a hash (r.changes a) := by
  refine h.cautious.step hs (fun r => Request.code_oldPassword r) ?_
  intro j outside r op k he hj hpasses
  have hof := h.code j _ hj
  cases op with
  | findAuthAccount b =>
    rcases Op.perform_cases cfg { outside with now := s.clock } (.findAuthAccount b) s.db with
      ⟨-, e, he⟩ | heffect
    · rw [Server.perform, he] at hpasses
      exact hpasses
    · rw [Server.perform, heffect] at hpasses
      dsimp only [Op.effect] at hpasses
      cases haccount : s.db.account? b with
      | none =>
        rw [haccount] at hpasses
        exact hpasses
      | some account =>
        rw [haccount] at hpasses
        obtain ⟨hid, hother⟩ := hpasses
        obtain ⟨hmem, hb⟩ := Database.account?_some haccount
        refine hother ?_ (h.forced account hmem hid).1
        have hmakes := (hof.calls (Request.code_makes cfg r)).op rfl
        cases r with
        | changePassword dto user =>
          have huser : b = user.authAccountId := (hof.calls (changePassword_asks dto user)).op rfl
          simp [Request.changes, ← huser, ← hb, hid]
        | _ => cases hmakes
  | compare password passwordHash =>
    rcases Op.perform_cases cfg { outside with now := s.clock } (.compare password passwordHash)
      s.db with ⟨-, e, he⟩ | heffect
    · rw [Server.perform, he] at hpasses
      exact hpasses
    · rw [Server.perform, heffect] at hpasses
      dsimp only [Op.effect] at hpasses
      cases hmatches : cfg.compare password passwordHash with
      | false =>
        rw [hmatches] at hpasses
        exact hpasses
      | true =>
        rw [hmatches] at hpasses
        obtain ⟨hown, rfl⟩ := hpasses
        cases r with
        | changePassword dto user =>
          have hpassword : password = dto.currentPassword :=
            (hof.calls (changePassword_asks dto user)).op rfl
          have hnot := hold.passwords j dto user _ hj (by simpa [Request.changes] using hown)
          rw [← hpassword, hmatches] at hnot
          cases hnot
        | _ => cases hown
  | _ => exact hpasses

theorem step (h : s.ForcedBy cfg a hash i) (hold : s.Older cfg a hash e)
    (hok : s.BurnsFirst a i e) (hs : s.step cfg e = some s') : s'.ForcedBy cfg a hash i where
  code := h.code.step hs
  given := by
    rcases step_db hs with hdb | ⟨outside, op, hdb⟩
    · exact hdb ▸ h.given
    · exact hdb ▸ h.given.trans_le Op.perform_accounts.nextId
  otps := by
    rcases step_db hs with hdb | ⟨outside, op, hdb⟩
    · exact hdb ▸ h.otps
    · exact hdb ▸ h.otps.perform
  forced := h.forced_step hold hok hs
  cautious := h.cautious_step hold hs
  codes := h.codes.step h.otps hs
  burn := h.burn_step hold hok hs

end ForcedBy

end Server

/-! ### Runs -/

/-- A forced reset commits while no request has read or verified the password before it and
is still to write. From then on the account keeps the new hash and has to be changed, as long
as nobody presents a newer credential and no code is taken before they are burned. -/
theorem forced_reset_stands (cfg : Config) {s₀ s₁ s₂ y : Server} {a i now count : ℕ}
    {hash : String} {outside : Outside} {r : Request}
    {k : Except ServiceError ℕ → Service Response} (h₀ : s₀.Idle)
    (hkeyed : s₀.db.Keyed) (hotps : s₀.db.OtpsKeyed)
    (hr : Reach (Server.step cfg) (fun _ _ => True) s₀ s₁)
    (hi : s₁.requests[i]? = some ⟨r, .awaiting (.forceResetPassword a hash now) k⟩)
    (hcommit : (s₁.perform cfg outside (.forceResetPassword a hash now)).1 = .ok count)
    (hs : s₁.step cfg (.execute i outside) = some s₂)
    (hcautious : s₁.CautiousBy fun r => oldPassword a hash (r.changes a))
    (hr' : Reach (Server.step cfg) (fun s e => s.Older cfg a hash e ∧ s.BurnsFirst a i e) s₂ y) :
    y.db.Forced a hash := by
  have hsound : s₁.FromCode cfg ∧ s₁.db.Keyed ∧ s₁.db.OtpsKeyed ∧ s₁.TakesFound := by
    refine hr.invariant (I := fun s => s.FromCode cfg ∧ s.db.Keyed ∧ s.db.OtpsKeyed ∧ s.TakesFound)
      ⟨h₀.fromCode, hkeyed, hotps, .of_idle h₀⟩ ?_
    intro s s' e _ h _ hstep
    have hcodes := h.2.2.2.step h.2.2.1 hstep
    rcases Server.step_db hstep with hdb | ⟨outside, op, hdb⟩
    · exact ⟨h.1.step hstep, hdb ▸ h.2.1, hdb ▸ h.2.2.1, hcodes⟩
    · exact ⟨h.1.step hstep, hdb ▸ h.2.1.perform, hdb ▸ h.2.2.1.perform, hcodes⟩
  obtain ⟨hcode, hkeyed₁, hotps₁, hcodes⟩ := hsound
  obtain ⟨⟨account, hmem, hid⟩, hforced⟩ := Op.perform_forceResetPassword hcommit
  have h₂ : s₂.ForcedBy cfg a hash i := by
    have hcode₂ := hcode.step hs
    have hcodes₂ := hcodes.step hotps₁ hs
    have hcautious₂ : s₂.CautiousBy fun r => oldPassword a hash (r.changes a) := by
      refine hcautious.step hs (fun r => Request.code_oldPassword r) ?_
      intro j outside' r' op k' he hj hpasses
      cases he
      cases hi.symm.trans hj
      exact hpasses
    obtain ⟨r', op, k', hi', rfl⟩ := Server.step_execute hs
    cases hi.symm.trans hi'
    refine ⟨hcode₂, ?_, hotps₁.perform, hforced, hcautious₂, hcodes₂, ?_⟩
    · exact (hid ▸ hkeyed₁.accountIds account hmem).trans_le Op.perform_accounts.nextId
    · obtain ⟨q, hq⟩ := (hcode i _ hi).keeps (Request.code_burning (a := a) r)
      have hidle : q = .idle := by
        cases q with
        | idle => rfl
        | burn =>
          obtain ⟨now', hburn⟩ := hq.allows
          cases hburn
      subst hidle
      have hburn := hq.execute (.ok count)
      rw [show (burning a).next .idle (.forceResetPassword a hash now) (.ok count) = .burn from
        if_pos rfl] at hburn
      obtain ⟨hlt, -⟩ := List.getElem?_eq_some_iff.mp hi
      refine .committed (r := r) ?_ hburn
      rw [← hcommit]
      exact List.getElem?_set_self hlt
  have hy := hr'.invariant (I := fun y => y.ForcedBy cfg a hash i) h₂
    fun _ _ _ _ h hok hstep => h.step hok.1 hok.2 hstep
  exact hy.forced

/-- Ann resets Bob's password. -/
def annResets : ServerEvent := .arrive (.forceResetPassword 5 ann) (acmeContext "")

/-- Bob changes the password he had before. -/
def bobChanges : ServerEvent :=
  .arrive (.changePassword ⟨"Bob-Secret-12", "Bob-Secret-34"⟩ bob) (acmeContext "")

def commitsReset :
    Option (ℕ × ((op : Op) × Except ServiceError op.Res)) → Bool
  | some (_, ⟨.forceResetPassword a hash now, .ok _⟩) =>
    a = 3 && hash = "Temporary-1234" && now = 0
  | _ => false

theorem commitsReset_eq_true {x : Option (ℕ × ((op : Op) × Except ServiceError op.Res))}
    (h : commitsReset x = true) :
    ∃ i count, x = some (i, ⟨.forceResetPassword 3 "Temporary-1234" 0, .ok count⟩) := by
  unfold commitsReset at h
  split at h
  · rename_i i a hash now count
    simp only [Bool.and_eq_true, decide_eq_true_eq] at h
    obtain ⟨⟨rfl, rfl⟩, rfl⟩ := h
    exact ⟨i, count, rfl⟩
  · cases h

/-- Nobody presents a newer credential of Bob's. -/
def onlyOlder (s : Server) (e : ServerEvent) : Bool :=
  (s.requests.all fun f => match f.request with
    | .changePassword dto _ => !plainConfig.compare dto.currentPassword "Temporary-1234"
    | _ => true) &&
  (s.executed plainConfig e).all fun x => !x.2.1.renews 3

theorem onlyOlder.older {s : Server} {e : ServerEvent} (h : onlyOlder s e = true) :
    s.Older plainConfig 3 "Temporary-1234" e := by
  obtain ⟨hpasswords, hrenews⟩ := Bool.and_eq_true_iff.mp h
  refine ⟨fun j dto user t hj _ => ?_, fun j outside r op k he hj => ?_⟩
  · have hall := List.all_eq_true.mp hpasswords _ (List.mem_of_getElem? hj)
    simpa using hall
  · subst he
    rw [Server.executed_execute hj] at hrenews
    simpa using hrenews

/-- No code is taken, and nothing fails. -/
def quietBurn (s : Server) (e : ServerEvent) : Bool :=
  ((s.executed plainConfig e).all fun x => match x.2.1 with
    | .resetPassword _ _ _ _ => false
    | _ => true) &&
  match e with
    | .execute _ outside => !outside.fault
    | _ => true

theorem quietBurn.first {s : Server} {e : ServerEvent} (h : quietBurn s e = true) :
    s.BurnsFirst 3 0 e := by
  obtain ⟨hcodes, hfault⟩ := Bool.and_eq_true_iff.mp h
  refine ⟨fun j outside r otp hash now k he hj => ?_, fun outside r now k he hj => ?_⟩
  · subst he
    rw [Server.executed_execute hj] at hcodes
    cases hcodes
  · subst he
    simpa using hfault

/-- Bob presents the old password after the forced reset. -/
theorem forced_reset_stands_acme : ∃ (s₁ s₂ y : Server) (r : Request) (count : ℕ)
    (k : Except ServiceError ℕ → Service Response),
    Reach (Server.step plainConfig) (fun _ _ => True) acme s₁ ∧
    s₁.requests[0]? = some ⟨r, .awaiting (.forceResetPassword 3 "Temporary-1234" 0) k⟩ ∧
    (s₁.perform plainConfig quiet (.forceResetPassword 3 "Temporary-1234" 0)).1 = .ok count ∧
    s₁.step plainConfig (.execute 0 quiet) = some s₂ ∧
    (s₁.CautiousBy fun r => oldPassword 3 "Temporary-1234" (r.changes 3)) ∧
    Reach (Server.step plainConfig) (fun s e => s.Older plainConfig 3 "Temporary-1234" e ∧
      s.BurnsFirst 3 0 e) s₂ y ∧
    y.requests.length = 2 ∧ y.db.Forced 3 "Temporary-1234" := by
  have hrun : (runAll (Server.step plainConfig) acme ([annResets] ++ acmeCalls 0 3)).any (fun s₁ =>
      commitsReset (s₁.executed plainConfig (.execute 0 quiet)) && s₁.answeredBut 0 &&
      (s₁.step plainConfig (.execute 0 quiet)).any fun s₂ =>
        (runChecked (Server.step plainConfig) (fun s e => onlyOlder s e && quietBurn s e) s₂
          ([.deliver 0 (acmeContext ""), bobChanges] ++ acmeCalls 1 3 ++ acmeCalls 0 1)).any
          fun y => y.requests.length = 2) = true := by
    decide +kernel
  obtain ⟨s₁, hs₁, h⟩ := (Option.any_eq_true _ _).mp hrun
  obtain ⟨h, h₂⟩ := Bool.and_eq_true_iff.mp h
  obtain ⟨hcommits, hbut⟩ := Bool.and_eq_true_iff.mp h
  obtain ⟨s₂, hs₂, h₂⟩ := (Option.any_eq_true _ _).mp h₂
  obtain ⟨y, hy, hlength⟩ := (Option.any_eq_true _ _).mp h₂
  obtain ⟨j, count, hexec⟩ := commitsReset_eq_true hcommits
  obtain ⟨outside, r, k, he, hi, hanswer⟩ := Server.executed_eq_some hexec
  cases he
  have hr : Reach (Server.step plainConfig) (fun _ _ => True) acme s₁ :=
    .of_runAll (.of_labels (fun _ _ _ => trivial) _) hs₁
  have hr' : Reach (Server.step plainConfig) (fun s e => s.Older plainConfig 3 "Temporary-1234" e ∧
      s.BurnsFirst 3 0 e) s₂ y := by
    refine .of_runChecked (fun s e h => ?_) hy
    obtain ⟨holder, hburn⟩ := Bool.and_eq_true_iff.mp h
    exact ⟨onlyOlder.older holder, quietBurn.first hburn⟩
  have hcautious : s₁.CautiousBy fun r => oldPassword 3 "Temporary-1234" (r.changes 3) := by
    intro j f hf
    by_cases hj : j = 0
    · subst hj
      cases hi.symm.trans hf
      have hcode : s₁.FromCode plainConfig :=
        hr.invariant acme_idle.fromCode fun _ _ _ _ h _ hstep => h.step hstep
      have hcalls := (hcode 0 _ hi).calls (Request.code_makes plainConfig r)
      have hforces := hcalls.op rfl
      cases r with
      | forceResetPassword userId user =>
        refine hcalls.cautious fun op hmakes hacts => ?_
        cases op with
        | changePassword => cases hmakes
        | _ => exact hacts
      | _ => cases hforces
    · exact Server.cautious_of_answered hbut hj hf
  exact ⟨s₁, s₂, y, r, count, k, hr, hi, hanswer.symm, hs₂, hcautious, hr',
    of_decide_eq_true hlength, forced_reset_stands plainConfig acme_idle acme_keyed acme_otpsKeyed
      hr hi hanswer.symm hs₂ hcautious hr'⟩

/-- Bob's request has verified the old password when the forced reset commits. -/
theorem old_password_clears_reset : ∃ (s₁ s₂ y : Server) (r : Request) (count : ℕ)
    (k : Except ServiceError ℕ → Service Response),
    Reach (Server.step plainConfig) (fun _ _ => True) acme s₁ ∧
    s₁.requests[1]? = some ⟨r, .awaiting (.forceResetPassword 3 "Temporary-1234" 0) k⟩ ∧
    (s₁.perform plainConfig quiet (.forceResetPassword 3 "Temporary-1234" 0)).1 = .ok count ∧
    s₁.step plainConfig (.execute 1 quiet) = some s₂ ∧
    Reach (Server.step plainConfig) (Server.Older plainConfig 3 "Temporary-1234") s₂ y ∧
    ¬ y.db.Forced 3 "Temporary-1234" := by
  have hrun : (runAll (Server.step plainConfig) acme
      ([bobChanges, annResets] ++ acmeCalls 1 3 ++ acmeCalls 0 4)).any (fun s₁ =>
      commitsReset (s₁.executed plainConfig (.execute 1 quiet)) &&
      (s₁.step plainConfig (.execute 1 quiet)).any fun s₂ =>
        (runChecked (Server.step plainConfig) onlyOlder s₂
          ([.deliver 1 (acmeContext "")] ++ acmeCalls 0 1 ++ acmeCalls 1 1)).any fun y =>
          y.db.authAccounts.any fun account => account.id = 3 && !account.mustChangePassword)
      = true := by
    decide +kernel
  obtain ⟨s₁, hs₁, h⟩ := (Option.any_eq_true _ _).mp hrun
  obtain ⟨hcommits, h₂⟩ := Bool.and_eq_true_iff.mp h
  obtain ⟨s₂, hs₂, h₂⟩ := (Option.any_eq_true _ _).mp h₂
  obtain ⟨y, hy, haccount⟩ := (Option.any_eq_true _ _).mp h₂
  obtain ⟨account, hmem, haccount⟩ := List.any_eq_true.mp haccount
  simp only [Bool.and_eq_true, decide_eq_true_eq, Bool.not_eq_true'] at haccount
  obtain ⟨j, count, hexec⟩ := commitsReset_eq_true hcommits
  obtain ⟨outside, r, k, he, hi, hanswer⟩ := Server.executed_eq_some hexec
  cases he
  refine ⟨s₁, s₂, y, r, count, k, .of_runAll (.of_labels (fun _ _ _ => trivial) _) hs₁, hi,
    hanswer.symm, hs₂, .of_runChecked (fun s e h => onlyOlder.older h) hy, fun hforced => ?_⟩
  have hmust := (hforced account hmem haccount.1).2
  rw [haccount.2] at hmust
  cases hmust

end Flexi.Accounts
