import Flexi.Accounts.OtpRows
import Flexi.Accounts.RequestCalls
import Flexi.Library.History
import Flexi.Library.Protocol

/-!
# The guesses at a reset code

A reset reads the code with its counter, compares, and records a miss only while the
counter is as it was read. A miss that is recorded too late counts nowhere.
-/

namespace Flexi.Accounts
open Flexi.Library

/-- Where a reset stands: it has read a code, or compared it in vain. -/
inductive GuessStage where
  | before
  | read (otp : PasswordResetOtp)
  | wrong (otp : PasswordResetOtp)
  | done

/-- A reset reads a code once, compares what was submitted with it once, and then records
the miss. -/
def guessing (dto : ResetPasswordDto) : Protocol Op Op.Res Context ServiceError GuessStage where
  allows
    | .before, .compareOtp _ _ | .before, .recordMiss _ _ => False
    | .before, _ => True
    | .read otp, .compareOtp o submitted =>
      o = otp ∧ submitted = dto.otp ∧ matchesOtpPattern dto.otp = true
    | .read otp, .recordMiss o _ => o = otp ∧ matchesOtpPattern dto.otp = false
    | .read _, .findLiveOtp _ => False
    | .read _, _ => True
    | .wrong otp, op => ∃ now, op = .recordMiss otp now
    | .done, .compareOtp _ _ | .done, .recordMiss _ _ | .done, .findLiveOtp _ => False
    | .done, _ => True
  next
    | .before, .findLiveOtp _, .ok (some otp) => .read otp
    | .read otp, .compareOtp _ _, .ok false => .wrong otp
    | .read _, .compareOtp _ _, _ => .done
    | .read _, .recordMiss _ _, _ => .done
    | .wrong _, _, _ => .done
    | q, _, _ => q
  reads q _ := q
  ends
    | .wrong _ => False
    | _ => True

/-- A code that has been read may be compared and its miss recorded. -/
def guessCheck (n : ℕ) : Check Op Op.Res ServiceError where
  passes
    | .findLiveOtp _, .ok (some otp) => otp.id = n
    | _, _ => False
  acts
    | .compareOtp otp _ | .recordMiss otp _ => otp.id = n
    | _ => False

/-- The stages that do not concern code `n`. -/
def GuessStage.Apart (n : ℕ) : GuessStage → Prop
  | read otp | wrong otp => otp.id ≠ n
  | before | done => True

section
variable {cfg : Config} {dto : ResetPasswordDto}

theorem otpMatches_keeps {otp : PasswordResetOtp} :
    (otpMatches dto.otp otp).Keeps (guessing dto)
      (fun isMatch q => isMatch = false ∧ (q = .wrong otp ∨
        q = .read otp ∧ matchesOtpPattern dto.otp = false) ∨ isMatch = true ∧ q = .done)
      (.read otp) := by
  unfold otpMatches
  split
  · rename_i hpattern
    refine .await ⟨rfl, rfl, hpattern⟩ (fun isMatch => ?_) fun _ => trivial
    cases isMatch with
    | false => exact .inl ⟨rfl, .inl rfl⟩
    | true => exact .inr ⟨rfl, rfl⟩
  · rename_i hpattern
    exact .pure (.inl ⟨rfl, .inr ⟨rfl, by simpa using hpattern⟩⟩)

theorem consumeOtp_keeps {a : ℕ} {otp : PasswordResetOtp} :
    (consumeOtp dto a otp).Keeps (guessing dto) (fun _ => (guessing dto).ends) (.read otp) := by
  refine Prog.Keeps.bind (Q := fun _ q => q = .read otp) ?_ fun now q hq => ?_
  · exact .bind (.read fun _ => rfl) fun c q hq => .pure hq.symm
  subst hq
  split
  · refine .bind (Q := fun _ q => q = .read otp) (.await trivial (fun _ => rfl) fun _ => trivial) ?_
    intro _ q hq
    subst hq
    exact .throw trivial
  · refine otpMatches_keeps.bind fun isMatch q hq => ?_
    rcases hq with ⟨rfl, hq⟩ | ⟨rfl, rfl⟩
    · refine .bind (Q := fun _ q => q = .done) ?_ fun _ q hq' => ?_
      · rcases hq with rfl | ⟨rfl, hpattern⟩
        · exact .await ⟨now, rfl⟩ (fun _ => rfl) fun _ => trivial
        · exact .await ⟨rfl, hpattern⟩ (fun _ => rfl) fun _ => trivial
      · subst hq'
        exact .throw trivial
    · refine .bind (Q := fun _ q => q = .done) (.await trivial (fun _ => rfl) fun _ => trivial) ?_
      intro hash q hq
      subst hq
      refine .bind (Q := fun _ q => q = .done) (.await trivial (fun _ => rfl) fun _ => trivial) ?_
      intro consumed q hq
      subst hq
      cases consumed with
      | none => exact .throw trivial
      | some count => exact .pure trivial

theorem resetPassword_keeps (tenantId : Option String) :
    (resetPassword cfg dto tenantId).Keeps (guessing dto) (fun _ => (guessing dto).ends)
      .before := by
  refine .bind (.of_calls (assertPasswordMeetsPolicy_makes (H := fun _ => False))
    (fun _ h => h.elim) (fun _ => rfl) trivial) fun _ q hq => ?_
  subst hq
  have hactor : Makes (fun op => (∃ t e, op = .findTenantUserByEmail t e) ∨
      (∃ t, op = .isTenantActive t) ∨ ∃ e, op = .findSystemUserByEmail e)
      (resolveActor (cfg.normalizeEmail dto.email) tenantId) :=
    resolveActor_makes (fun t e => .inl ⟨t, e, rfl⟩) (fun t => .inr (.inl ⟨t, rfl⟩))
      fun e => .inr (.inr ⟨e, rfl⟩)
  refine .bind (.of_calls hactor (fun op h => ?_) (fun _ => rfl) trivial) fun actor q hq => ?_
  · rcases h with ⟨t, e, rfl⟩ | ⟨t, rfl⟩ | ⟨e, rfl⟩
    · exact ⟨trivial, fun _ => rfl⟩
    · exact ⟨trivial, fun _ => rfl⟩
    · exact ⟨trivial, fun _ => rfl⟩
  subst hq
  refine .bind (Q := fun found q => q = match found with
    | some otp => .read otp
    | none => .before) (.await trivial (fun found => ?_) fun _ => trivial) fun found q hq => ?_
  · cases found with
    | none => rfl
    | some otp => rfl
  subst hq
  cases actor with
  | none =>
    cases found with
    | none => exact .throw trivial
    | some otp => exact .throw trivial
  | some actor =>
    cases found with
    | none => exact .throw trivial
    | some otp =>
      dsimp only
      split
      · exact consumeOtp_keeps
      · exact .throw trivial

theorem GuessStage.Apart.cautious {n : ℕ} {q : GuessStage} {t : RequestThread}
    (hq : q.Apart n) (h : t.Keeps (guessing dto) q) : t.Cautious (guessCheck n) := by
  refine h.cautious (J := GuessStage.Apart n) hq ?_ ?_ fun _ _ hq => hq
  · intro q op hq hallows hacts
    cases op with
    | compareOtp o submitted =>
      cases q with
      | read otp =>
        have hne : otp.id ≠ n := hq
        exact hne (hallows.1 ▸ hacts)
      | wrong otp =>
        obtain ⟨now, he⟩ := hallows
        cases he
      | _ => exact hallows
    | recordMiss o now =>
      cases q with
      | read otp =>
        have hne : otp.id ≠ n := hq
        exact hne (hallows.1 ▸ hacts)
      | wrong otp =>
        have hne : otp.id ≠ n := hq
        obtain ⟨now', he⟩ := hallows
        cases he
        exact hne hacts
      | _ => exact hallows
    | _ => exact hacts
  · intro q op answer hq _ hpasses
    cases q with
    | before =>
      cases op with
      | findLiveOtp a =>
        rcases answer with e | none | otp
        · trivial
        · trivial
        · exact hpasses
      | _ => trivial
    | read otp =>
      cases op with
      | compareOtp o submitted =>
        rcases answer with e | isMatch
        · trivial
        · cases isMatch
          · exact hq
          · trivial
      | recordMiss o now => trivial
      | _ => exact hq
    | wrong otp => trivial
    | done => cases op <;> trivial

theorem wrong_not_cautious {otp : PasswordResetOtp} {t : RequestThread}
    (h : t.Keeps (guessing dto) (.wrong otp)) : ¬ t.Cautious (guessCheck otp.id) := by
  have code {p : Service Response}
      (hp : p.Keeps (guessing dto) (fun _ => (guessing dto).ends) (.wrong otp)) :
      ¬ p.Cautious (guessCheck otp.id) fun _ => True := by
    induction p with
    | ret a => exact absurd hp id
    | throw e => exact absurd hp id
    | ask k ih => exact fun hc => ih _ (hp (acmeContext "")) (hc (acmeContext ""))
    | call op k ih =>
      obtain ⟨⟨now, he⟩, -⟩ := hp
      subst he
      exact fun hc => hc.1 rfl
  cases t with
  | awaiting op k => exact code h
  | answered op answer k => exact code h
  | finished answer => exact absurd h id

end

/-! ### What the statements of a reset do -/

section
variable {cfg : Config} {outside : Outside} {db : Database}

theorem Op.perform_findLiveOtp {a : Option ℕ} :
    ((findLiveOtp a).perform cfg outside db).2 = db ∧
      ∀ otp, ((findLiveOtp a).perform cfg outside db).1 = .ok (some otp) →
        otp ∈ db.passwordResetOtps ∧ a = some otp.authAccountId ∧ otp.consumedAt = none := by
  rcases perform_cases cfg outside (findLiveOtp a) db with ⟨hdb, e, he⟩ | heffect
  · refine ⟨hdb, fun otp hfound => ?_⟩
    rw [he] at hfound
    cases hfound
  · rw [heffect]
    refine ⟨rfl, fun otp hfound => ?_⟩
    obtain ⟨hmem, hlive⟩ := Database.latestOtp_mem (Except.ok.inj hfound)
    simp only [Bool.and_eq_true, decide_eq_true_eq] at hlive
    exact ⟨hmem, hlive⟩

theorem Op.perform_compareOtp {otp : PasswordResetOtp} {submitted : String} :
    ((compareOtp otp submitted).perform cfg outside db).2 = db ∧
      ∀ isMatch, ((compareOtp otp submitted).perform cfg outside db).1 = .ok isMatch →
        isMatch = cfg.compare submitted otp.otpHash := by
  rcases perform_cases cfg outside (compareOtp otp submitted) db with ⟨hdb, e, he⟩ | heffect
  · refine ⟨hdb, fun isMatch h => ?_⟩
    rw [he] at h
    cases h
  · rw [heffect]
    exact ⟨rfl, fun isMatch h => (Except.ok.inj h).symm⟩

/-- A miss that is recorded, or has come too late, leaves the counter past what was read. -/
theorem Op.perform_recordMiss {otp row : PasswordResetOtp} {now : ℕ} (hfault : outside.fault = false)
    (hread : ∀ old ∈ db.passwordResetOtps, old.id = otp.id → otp.attemptCount ≤ old.attemptCount)
    (hrow : row ∈ ((recordMiss otp now).perform cfg outside db).2.passwordResetOtps)
    (hid : row.id = otp.id) (hlive : row.consumedAt = none) :
    otp.attemptCount + 1 ≤ row.attemptCount := by
  rw [perform, if_neg (by simp [hfault])] at hrow
  obtain ⟨old, hold, rfl⟩ := mem_updateMany.mp hrow
  split
  · exact le_rfl
  · rename_i hlate
    rw [if_neg hlate] at hid hlive
    have hle := hread old hold hid
    have hne : old.attemptCount ≠ otp.attemptCount := by
      intro heq
      exact hlate (by simp [hid, hlive, heq])
    omega

/-- What is known of a code that was read. -/
structure Fits (n : ℕ) (hash : String) (otp : PasswordResetOtp) (db : Database) : Prop where
  given : otp.id < db.nextId
  hashed : otp.id = n → otp.otpHash = hash
  budget : otp.id = n → otp.attemptCount < PASSWORD_RESET_OTP_MAX_ATTEMPTS
  rows : otp.id = n → ∀ row ∈ db.passwordResetOtps, row.id = n → otp.attemptCount ≤ row.attemptCount

theorem Fits.perform {n : ℕ} {hash : String} {otp : PasswordResetOtp} {op : Op}
    (h : Fits n hash otp db) : Fits n hash otp (op.perform cfg outside db).2 := by
  have hn : db.nextId ≤ (op.perform cfg outside db).2.nextId := Op.perform_accounts.nextId
  refine ⟨h.given.trans_le hn, h.hashed, h.budget, fun hotp row hrow hid => ?_⟩
  rcases Op.perform_otp hrow with ⟨old, hold, he⟩ | ⟨a, hash', exp, now, -, rfl, -⟩
  · exact (h.rows hotp old hold (he.id ▸ hid)).trans he.attempts
  · have hlt := h.given
    have hnew : db.nextId = n := hid
    omega

theorem Database.OtpsKeyed.fits {n : ℕ} {hash : String} {otp : PasswordResetOtp} (h : db.OtpsKeyed)
    (hhash : ∀ row ∈ db.passwordResetOtps, row.id = n → row.otpHash = hash)
    (hmem : otp ∈ db.passwordResetOtps) (hlive : otp.consumedAt = none) : Fits n hash otp db where
  given := h.ids otp hmem
  hashed := hhash otp hmem
  budget _ := h.budget otp hmem hlive
  rows hotp row hrow hid := by
    have heq : row = otp := List.inj_on_of_nodup_map h.unique hrow hmem (hid.trans hotp.symm)
    rw [heq]

end

/-! ### The server -/

def Request.resets? : Request → Option ResetPasswordDto
  | resetPassword dto _ => some dto
  | _ => none

/-- The request submits a code in the right form that is not the one behind the hash. -/
def Request.misses (cfg : Config) (hash : String) : Request → Bool
  | resetPassword dto _ => matchesOtpPattern dto.otp && !cfg.compare dto.otp hash
  | _ => false

/-- A wrong code is compared with code `n`. -/
def Server.guessesWrong (cfg : Config) (n : ℕ) (s : Server) (e : ServerEvent) : Bool :=
  match s.executed cfg e with
  | some (_, ⟨.compareOtp otp _, .ok false⟩) => otp.id = n
  | _ => false

/-- Code `n` is consumed to set a password. -/
def Server.consumes (cfg : Config) (n : ℕ) (s : Server) (e : ServerEvent) : Bool :=
  match s.executed cfg e with
  | some (_, ⟨.resetPassword otp _ _ _, .ok (some _)⟩) => otp.id = n
  | _ => false

/-- How often code `n` has been compared in vain, and how often it has set a password. -/
structure GuessHistory where
  wrong : ℕ
  resets : ℕ

def GuessHistory.note (cfg : Config) (n : ℕ) (s : Server) (e : ServerEvent) (h : GuessHistory) :
    GuessHistory :=
  ⟨h.wrong + (s.guessesWrong cfg n e).toNat, h.resets + (s.consumes cfg n e).toNat⟩

/-- A request with a wrong code reads code `n` only while no other one has read it and is
still to compare it or to record its miss; and no fault hits the record of a miss. -/
structure Server.GuessesApart (cfg : Config) (n : ℕ) (hash : String) (s : Server) (e : ServerEvent) :
    Prop where
  reads : ∀ i outside r a k otp, e = .execute i outside →
    s.requests[i]? = some ⟨r, .awaiting (.findLiveOtp a) k⟩ → r.misses cfg hash = true →
    (s.perform cfg outside (.findLiveOtp a)).1 = .ok (some otp) → otp.id = n →
    ∀ (j : ℕ) (f : InFlight), j ≠ i → s.requests[j]? = some f → f.request.misses cfg hash = true →
      f.thread.Cautious (guessCheck n)
  misses : ∀ i outside r otp now k, e = .execute i outside →
    s.requests[i]? = some ⟨r, .awaiting (.recordMiss otp now) k⟩ → otp.id = n →
    outside.fault = false

/-- What a request's stage says of the wrong guesses so far. -/
def Stands (cfg : Config) (n : ℕ) (hash : String) (w : ℕ) (db : Database) (f : InFlight) :
    GuessStage → Prop
  | .read otp => Fits n hash otp db ∧ (otp.id = n → f.request.misses cfg hash = true →
    ¬ f.thread.Cautious (guessCheck n) → w ≤ otp.attemptCount)
  | .wrong otp => Fits n hash otp db ∧
    (otp.id = n → f.request.misses cfg hash = true ∧ w ≤ otp.attemptCount + 1)
  | .before | .done => True

/-- After `w` wrong guesses at code `n`. -/
structure Server.Budgeted (cfg : Config) (n : ℕ) (hash : String) (w : ℕ) (s : Server) : Prop where
  code : s.FromCode cfg
  keyed : s.db.OtpsKeyed
  hashes : ∀ row ∈ s.db.passwordResetOtps, row.id = n → row.otpHash = hash
  fresh : s.db.nextId ≤ n → w = 0
  total : w ≤ PASSWORD_RESET_OTP_MAX_ATTEMPTS
  stands : ∀ (i : ℕ) (f : InFlight), s.requests[i]? = some f → ∀ dto, f.request.resets? = some dto →
    ∃ q, f.thread.Keeps (guessing dto) q ∧ Stands cfg n hash w s.db f q
  one : ∀ (i j : ℕ) (f g : InFlight), s.requests[i]? = some f → s.requests[j]? = some g →
    f.request.misses cfg hash = true → g.request.misses cfg hash = true →
    ¬ f.thread.Cautious (guessCheck n) → ¬ g.thread.Cautious (guessCheck n) → i = j
  settled : (∀ (i : ℕ) (f : InFlight), s.requests[i]? = some f → f.request.misses cfg hash = true →
      f.thread.Cautious (guessCheck n)) →
    ∀ row ∈ s.db.passwordResetOtps, row.id = n → row.consumedAt = none → w ≤ row.attemptCount

/-- Only a request with a wrong code has compared one in vain. -/
theorem Request.resets?_of_misses {cfg : Config} {hash : String} {r : Request}
    (h : r.misses cfg hash = true) : ∃ dto, r.resets? = some dto := by
  cases r with
  | resetPassword dto tenantId => exact ⟨dto, rfl⟩
  | _ => cases h

theorem Request.resets?_of_makes {r : Request} {op : Op} (h : r.makes op = true)
    (hop : ∃ n, (guessCheck n).acts op) : ∃ dto tenantId, r = .resetPassword dto tenantId := by
  obtain ⟨n, hacts⟩ := hop
  cases op with
  | compareOtp otp submitted => cases r <;> first | exact ⟨_, _, rfl⟩ | cases h
  | recordMiss otp now => cases r <;> first | exact ⟨_, _, rfl⟩ | cases h
  | _ => exact hacts.elim

namespace Server.Budgeted

variable {cfg : Config} {n w : ℕ} {hash : String} {s s' : Server}

theorem guess {i : ℕ} {f : InFlight} (h : s.Budgeted cfg n hash w) (hi : s.requests[i]? = some f)
    (hmisses : f.request.misses cfg hash = true) (hgap : ¬ f.thread.Cautious (guessCheck n)) :
    ∃ dto otp, f.request.resets? = some dto ∧ otp.id = n ∧ Fits n hash otp s.db ∧
      (f.thread.Keeps (guessing dto) (.read otp) ∧ w ≤ otp.attemptCount ∨
        f.thread.Keeps (guessing dto) (.wrong otp) ∧ w ≤ otp.attemptCount + 1) := by
  obtain ⟨dto, hdto⟩ := Request.resets?_of_misses hmisses
  obtain ⟨q, hkeeps, hstands⟩ := h.stands i f hi dto hdto
  have hq : ¬ q.Apart n := fun hq => hgap (hq.cautious hkeeps)
  cases q with
  | before => exact absurd trivial hq
  | done => exact absurd trivial hq
  | read otp =>
    have hid : otp.id = n := not_not.mp hq
    exact ⟨dto, otp, hdto, hid, hstands.1, .inl ⟨hkeeps, hstands.2 hid hmisses hgap⟩⟩
  | wrong otp =>
    have hid : otp.id = n := not_not.mp hq
    exact ⟨dto, otp, hdto, hid, hstands.1, .inr ⟨hkeeps, (hstands.2 hid).2⟩⟩

/-- Every wrong guess has been counted, unless somebody has a miss to record. -/
theorem bound (h : s.Budgeted cfg n hash w) :
    (∀ row ∈ s.db.passwordResetOtps, row.id = n → row.consumedAt = none → w ≤ row.attemptCount) ∨
    ∃ (i : ℕ) (f : InFlight) (dto : ResetPasswordDto) (otp : PasswordResetOtp),
      s.requests[i]? = some f ∧ f.request.misses cfg hash = true ∧ otp.id = n ∧
      Fits n hash otp s.db ∧ f.thread.Keeps (guessing dto) (.wrong otp) ∧
      w ≤ otp.attemptCount + 1 := by
  by_cases hgap : ∃ (i : ℕ) (f : InFlight), s.requests[i]? = some f ∧
      f.request.misses cfg hash = true ∧ ¬ f.thread.Cautious (guessCheck n)
  · obtain ⟨i, f, hi, hmisses, hgap⟩ := hgap
    obtain ⟨dto, otp, -, hotp, hfits, ⟨-, hle⟩ | ⟨hwrong, hle⟩⟩ := h.guess hi hmisses hgap
    · exact .inl fun row hrow hid _ => hle.trans (hfits.rows hotp row hrow hid)
    · exact .inr ⟨i, f, dto, otp, hi, hmisses, hotp, hfits, hwrong, hle⟩
  · refine .inl (h.settled fun i f hi hmisses => ?_)
    by_contra hc
    exact hgap ⟨i, f, hi, hmisses, hc⟩

theorem arrive {r : Request} {c : Context} (h : s.Budgeted cfg n hash w)
    (hs : s.step cfg (.arrive r c) = some s') : s'.Budgeted cfg n hash w := by
  have hcode := h.code.step hs
  obtain ⟨-, rfl⟩ := step_arrive hs
  have hnew : ∀ dto, r.resets? = some dto → ((r.code cfg).advance { c with now := s.clock }).Keeps
      (guessing dto) .before := by
    intro dto hdto
    cases r with
    | resetPassword _ tenantId =>
      cases hdto
      have hcode : (resetPassword cfg dto tenantId).Keeps (guessing dto)
          (fun _ => (guessing dto).ends) .before := resetPassword_keeps tenantId
      obtain ⟨q, rfl, hq⟩ := Thread.Keeps.advance (J := (· = .before)) (c := { c with now := s.clock })
        hcode rfl fun _ hq => hq
      exact hq
    | _ => cases hdto
  have hcautious : r.misses cfg hash = true →
      ((r.code cfg).advance { c with now := s.clock }).Cautious (guessCheck n) := by
    intro hmisses
    obtain ⟨dto, hdto⟩ := Request.resets?_of_misses hmisses
    exact GuessStage.Apart.cautious (q := .before) trivial (hnew dto hdto)
  refine ⟨hcode, h.keyed, h.hashes, h.fresh, h.total, ?_, ?_, ?_⟩
  · intro i f hf dto hdto
    rcases getElem?_arrive hf with hf | ⟨rfl, -⟩
    · exact h.stands i f hf dto hdto
    · exact ⟨.before, hnew dto hdto, trivial⟩
  · intro i j f g hf hg hfm hgm hfc hgc
    rcases getElem?_arrive hf with hf | ⟨rfl, -⟩
    · rcases getElem?_arrive hg with hg | ⟨rfl, -⟩
      · exact h.one i j f g hf hg hfm hgm hfc hgc
      · exact absurd (hcautious hgm) hgc
    · exact absurd (hcautious hfm) hfc
  · intro hall
    refine h.settled fun i f hf hmisses => hall i f ?_ hmisses
    obtain ⟨hlt, -⟩ := List.getElem?_eq_some_iff.mp hf
    rwa [List.getElem?_append_left hlt]

theorem deliver {i : ℕ} {c : Context} (h : s.Budgeted cfg n hash w)
    (hs : s.step cfg (.deliver i c) = some s') : s'.Budgeted cfg n hash w := by
  have hcode := h.code.step hs
  obtain ⟨r, op, answer, k, hi, rfl⟩ := step_deliver hs
  have hkeeps : ∀ dto q, (Thread.answered op answer k).Keeps (guessing dto) q →
      ((k answer).advance { c with now := s.clock }).Keeps (guessing dto) q := by
    intro dto q hq
    obtain ⟨q', rfl, hq'⟩ := Thread.Keeps.advance (J := (· = q)) (c := { c with now := s.clock }) hq
      rfl fun _ h => h
    exact hq'
  refine ⟨hcode, h.keyed, h.hashes, h.fresh, h.total, ?_, ?_, ?_⟩
  · intro j f hf dto hdto
    rcases getElem?_set hf with ⟨rfl, rfl⟩ | ⟨-, hf⟩
    · obtain ⟨q, hq, hstands⟩ := h.stands j _ hi dto hdto
      refine ⟨q, hkeeps dto q hq, ?_⟩
      cases q with
      | before => trivial
      | done => trivial
      | read otp =>
        exact ⟨hstands.1, fun hid hm hgap => hstands.2 hid hm fun hc => hgap (hc.deliver _)⟩
      | wrong otp => exact hstands
    · exact h.stands j f hf dto hdto
  · intro j l f g hf hg hfm hgm hfc hgc
    rcases getElem?_set hf with ⟨rfl, rfl⟩ | ⟨-, hf'⟩
    · rcases getElem?_set hg with ⟨rfl, -⟩ | ⟨-, hg'⟩
      · rfl
      · exact h.one j l _ g hi hg' hfm hgm (fun hc => hfc (hc.deliver _)) hgc
    · rcases getElem?_set hg with ⟨rfl, rfl⟩ | ⟨-, hg'⟩
      · exact h.one j l f _ hf' hi hfm hgm hfc fun hc => hgc (hc.deliver _)
      · exact h.one j l f g hf' hg' hfm hgm hfc hgc
  · intro hall
    rcases h.bound with hbound | ⟨j, f, dto, otp, hf, hmisses, rfl, -, hwrong, -⟩
    · exact hbound
    exfalso
    obtain ⟨hlt, -⟩ := List.getElem?_eq_some_iff.mp hf
    by_cases hji : j = i
    · subst hji
      cases hf.symm.trans hi
      exact wrong_not_cautious (hkeeps dto _ hwrong)
        (hall j _ (List.getElem?_set_self hlt) hmisses)
    · exact wrong_not_cautious hwrong
        (hall j f (by rwa [List.getElem?_set_ne (Ne.symm hji)]) hmisses)

theorem guessesWrong_eq_true {e : ServerEvent} (h : s.guessesWrong cfg n e = true) :
    ∃ i otp submitted, s.executed cfg e = some (i, ⟨.compareOtp otp submitted, .ok false⟩) ∧
      otp.id = n := by
  unfold guessesWrong at h
  split at h
  · rename_i i otp submitted hexec
    exact ⟨i, otp, submitted, hexec, of_decide_eq_true h⟩
  · cases h

theorem execute_wrong {e : ServerEvent} (h : s.Budgeted cfg n hash w)
    (hs : s.step cfg e = some s') (hwrong : s.guessesWrong cfg n e = true) :
    s'.Budgeted cfg n hash (w + 1) := by
  have hcode := h.code.step hs
  obtain ⟨i, otp, submitted, hexec, hid⟩ := guessesWrong_eq_true hwrong
  obtain ⟨outside, r, k, rfl, hi, hanswer⟩ := executed_eq_some hexec
  obtain ⟨r', op', k', hi', rfl⟩ := step_execute hs
  cases hi.symm.trans hi'
  obtain ⟨hdb, hcompare⟩ :=
    @Op.perform_compareOtp cfg { outside with now := s.clock } s.db otp submitted
  have hdb : (s.perform cfg outside (.compareOtp otp submitted)).2 = s.db := hdb
  have hmakes := ((h.code i _ hi).calls (Request.code_makes cfg r)).op rfl
  obtain ⟨dto, tenantId, rfl⟩ := Request.resets?_of_makes hmakes ⟨n, hid⟩
  obtain ⟨q, hkeeps, hstands⟩ := h.stands i _ hi dto rfl
  have hgap : ¬ (Thread.awaiting (Op.compareOtp otp submitted) k).Cautious (guessCheck n) :=
    fun hc => hc.not_acts hid
  cases q with
  | before => exact absurd hkeeps.allows id
  | done => exact absurd hkeeps.allows id
  | wrong other =>
    obtain ⟨now, he⟩ := hkeeps.allows
    cases he
  | read other =>
    obtain ⟨rfl, rfl, hpattern⟩ := hkeeps.allows
    have hfits := hstands.1
    have hmisses : Request.misses cfg hash (.resetPassword dto tenantId) = true := by
      have hno := hcompare false hanswer.symm
      rw [hfits.hashed hid] at hno
      rw [Request.misses, hpattern, ← hno]
      rfl
    have hle : w ≤ otp.attemptCount := hstands.2 hid hmisses hgap
    have hkeeps' : (Thread.answered (Op.compareOtp otp dto.otp)
        (s.perform cfg outside (.compareOtp otp dto.otp)).1 k).Keeps (guessing dto) (.wrong otp) := by
      rw [← hanswer]
      exact hkeeps.execute (.ok false)
    have hgap' : ¬ (Thread.answered (Op.compareOtp otp dto.otp)
        (s.perform cfg outside (.compareOtp otp dto.otp)).1 k).Cautious (guessCheck n) :=
      hid ▸ wrong_not_cautious hkeeps'
    rw [hdb]
    have hbudget := hfits.budget hid
    have hgiven := hfits.given
    refine ⟨hdb ▸ hcode, h.keyed, h.hashes, fun hfresh => ?_, by omega, ?_, ?_, ?_⟩
    · have hfresh : s.db.nextId ≤ n := hfresh
      omega
    · intro j f hf dto' hdto
      rcases getElem?_set hf with ⟨rfl, rfl⟩ | ⟨hne, hf'⟩
      · cases hdto
        exact ⟨.wrong otp, hkeeps', hfits, fun _ => ⟨hmisses, by omega⟩⟩
      · obtain ⟨q, hq, hstands'⟩ := h.stands j f hf' dto' hdto
        refine ⟨q, hq, ?_⟩
        cases q with
        | before => trivial
        | done => trivial
        | read x =>
          refine ⟨hstands'.1, fun _ hm hc => ?_⟩
          exact absurd (h.one j i f _ hf' hi hm hmisses hc hgap) hne
        | wrong x =>
          refine ⟨hstands'.1, fun hx => ?_⟩
          have hm := (hstands'.2 hx).1
          exact absurd (h.one j i f _ hf' hi hm hmisses (hx ▸ wrong_not_cautious hq) hgap) hne
    · intro j l f g hf hg hfm hgm hfc hgc
      rcases getElem?_set hf with ⟨rfl, rfl⟩ | ⟨-, hf'⟩
      · rcases getElem?_set hg with ⟨rfl, -⟩ | ⟨-, hg'⟩
        · rfl
        · exact h.one j l _ g hi hg' hmisses hgm hgap hgc
      · rcases getElem?_set hg with ⟨rfl, rfl⟩ | ⟨-, hg'⟩
        · exact h.one j l f _ hf' hi hfm hmisses hfc hgap
        · exact h.one j l f g hf' hg' hfm hgm hfc hgc
    · intro hall
      obtain ⟨hlt, -⟩ := List.getElem?_eq_some_iff.mp hi
      exact absurd (hall i _ (List.getElem?_set_self hlt) hmisses) hgap'

theorem stands_next {i : ℕ} {r : Request} {op : Op} {k : Except ServiceError op.Res → Service Response}
    {outside : Outside} {dto : ResetPasswordDto} {q : GuessStage} (h : s.Budgeted cfg n hash w)
    (hi : s.requests[i]? = some ⟨r, .awaiting op k⟩)
    (hok : s.GuessesApart cfg n hash (.execute i outside))
    (hwrong : s.guessesWrong cfg n (.execute i outside) = false)
    (hkeeps : (Thread.awaiting op k).Keeps (guessing dto) q)
    (hstands : Stands cfg n hash w s.db ⟨r, .awaiting op k⟩ q) :
    Stands cfg n hash w (s.perform cfg outside op).2
      ⟨r, .answered op (s.perform cfg outside op).1 k⟩
      ((guessing dto).next q op (s.perform cfg outside op).1) := by
  cases q with
  | wrong otp => trivial
  | done => cases op <;> trivial
  | before =>
    cases op with
    | findLiveOtp a =>
      obtain ⟨hdb, hfound⟩ :=
        @Op.perform_findLiveOtp cfg { outside with now := s.clock } s.db a
      cases hanswer : (s.perform cfg outside (.findLiveOtp a)).1 with
      | error e => trivial
      | ok found =>
        cases found with
        | none => trivial
        | some otp =>
          obtain ⟨hmem, -, hlive⟩ := hfound otp hanswer
          have hdb : (s.perform cfg outside (.findLiveOtp a)).2 = s.db := hdb
          rw [hdb]
          refine ⟨h.keyed.fits h.hashes hmem hlive, fun hid hmisses _ => ?_⟩
          -- nobody else is at a guess
          refine h.settled (fun j f hf hm => ?_) otp hmem hid hlive
          by_cases hji : j = i
          · subst hji
            cases hi.symm.trans hf
            exact GuessStage.Apart.cautious (q := .before) trivial hkeeps
          · exact hok.reads i outside r a k otp rfl hi hmisses hanswer hid j f hji hf hm
    | _ => trivial
  | read otp =>
    have hfits : Fits n hash otp (s.perform cfg outside op).2 := hstands.1.perform
    cases op with
    | findLiveOtp a => exact absurd hkeeps.allows id
    | recordMiss o now => trivial
    | compareOtp o submitted =>
      obtain ⟨rfl, -, -⟩ := hkeeps.allows
      cases hanswer : (s.perform cfg outside (.compareOtp o submitted)).1 with
      | error e => trivial
      | ok isMatch =>
        cases isMatch with
        | true => trivial
        | false =>
          refine ⟨hfits, fun hid => ?_⟩
          rw [guessesWrong, executed_execute hi, hanswer] at hwrong
          exact absurd hid (of_decide_eq_false hwrong)
    | _ => exact ⟨hfits, fun hid hm hgap => hstands.2 hid hm fun hc => hgap (hc.answer id)⟩

theorem execute_other {i : ℕ} {outside : Outside} (h : s.Budgeted cfg n hash w)
    (hok : s.GuessesApart cfg n hash (.execute i outside))
    (hs : s.step cfg (.execute i outside) = some s')
    (hwrong : s.guessesWrong cfg n (.execute i outside) = false)
    (hhash : ∀ row ∈ s'.db.passwordResetOtps, row.id = n → row.otpHash = hash) :
    s'.Budgeted cfg n hash w := by
  have hcode := h.code.step hs
  obtain ⟨r, op, k, hi, rfl⟩ := step_execute hs
  have hn : s.db.nextId ≤ (s.perform cfg outside op).2.nextId := Op.perform_accounts.nextId
  have hgap : r.misses cfg hash = true →
      ¬ (Thread.answered op (s.perform cfg outside op).1 k).Cautious (guessCheck n) →
      ¬ (Thread.awaiting op k).Cautious (guessCheck n) ∨ ∀ (j : ℕ) (f : InFlight), j ≠ i →
        s.requests[j]? = some f → f.request.misses cfg hash = true →
        f.thread.Cautious (guessCheck n) := by
    intro hmisses hc
    by_cases hpasses : (guessCheck n).passes op (s.perform cfg outside op).1
    · right
      cases op with
      | findLiveOtp a =>
        cases hanswer : (s.perform cfg outside (.findLiveOtp a)).1 with
        | error e =>
          rw [hanswer] at hpasses
          exact hpasses.elim
        | ok found =>
          rw [hanswer] at hpasses
          cases found with
          | none => exact hpasses.elim
          | some otp => exact hok.reads i outside r a k otp rfl hi hmisses hanswer hpasses
      | _ => exact hpasses.elim
    · exact .inl fun hc' => hc (hc'.answer hpasses)
  refine ⟨hcode, h.keyed.perform, hhash, fun hfresh => h.fresh (hn.trans hfresh), h.total, ?_, ?_, ?_⟩
  · intro j f hf dto hdto
    rcases getElem?_set hf with ⟨rfl, rfl⟩ | ⟨hne, hf'⟩
    · obtain ⟨q, hq, hstands⟩ := h.stands j _ hi dto hdto
      exact ⟨_, hq.execute _, h.stands_next hi hok hwrong hq hstands⟩
    · obtain ⟨q, hq, hstands⟩ := h.stands j f hf' dto hdto
      refine ⟨q, hq, ?_⟩
      cases q with
      | before => trivial
      | done => trivial
      | read otp => exact ⟨hstands.1.perform, hstands.2⟩
      | wrong otp => exact ⟨hstands.1.perform, hstands.2⟩
  · intro j l f g hf hg hfm hgm hfc hgc
    rcases getElem?_set hf with ⟨rfl, rfl⟩ | ⟨hne, hf'⟩
    · rcases getElem?_set hg with ⟨rfl, -⟩ | ⟨hne', hg'⟩
      · rfl
      · rcases hgap hfm hfc with hfc' | hall
        · exact h.one j l _ g hi hg' hfm hgm hfc' hgc
        · exact absurd (hall l g hne' hg' hgm) hgc
    · rcases getElem?_set hg with ⟨rfl, rfl⟩ | ⟨-, hg'⟩
      · rcases hgap hgm hgc with hgc' | hall
        · exact h.one j l f _ hf' hi hfm hgm hfc hgc'
        · exact absurd (hall j f hne hf' hfm) hfc
      · exact h.one j l f g hf' hg' hfm hgm hfc hgc
  · intro hall row hrow hid hlive
    rcases Op.perform_otp hrow with ⟨old, hold, he⟩ | ⟨a, hash', exp, now, -, rfl, -⟩
    · have hold' : old.consumedAt = none := by
        by_contra hconsumed
        exact he.consumed hconsumed hlive
      rcases h.bound with hbound | ⟨j, f, dto, otp, hf, hmisses, rfl, hfits, hkeeps, hle⟩
      · exact (hbound old hold (he.id ▸ hid) hold').trans he.attempts
      · by_cases hji : j = i
        · subst hji
          cases hi.symm.trans hf
          obtain ⟨now, rfl⟩ := hkeeps.allows
          have hfault := hok.misses j outside r otp now k rfl hi rfl
          have hmiss := @Op.perform_recordMiss cfg { outside with now := s.clock } s.db otp row now
            hfault (hfits.rows rfl) hrow hid hlive
          exact hle.trans hmiss
        · refine absurd (hall j f ?_ hmisses) (wrong_not_cautious hkeeps)
          rwa [List.getElem?_set_ne (Ne.symm hji)]
    · have hzero : w = 0 := h.fresh (le_of_eq hid)
      omega

theorem step {e : ServerEvent} (h : s.Budgeted cfg n hash w) (hok : s.GuessesApart cfg n hash e)
    (hs : s.step cfg e = some s')
    (hhash : ∀ row ∈ s'.db.passwordResetOtps, row.id = n → row.otpHash = hash) :
    s'.Budgeted cfg n hash (w + (s.guessesWrong cfg n e).toNat) := by
  cases hwrong : s.guessesWrong cfg n e with
  | true => exact h.execute_wrong hs hwrong
  | false =>
    cases e with
    | arrive r c => exact h.arrive hs
    | execute i outside => exact h.execute_other hok hs hwrong hhash
    | deliver i c => exact h.deliver hs
    | tick d =>
      cases step_tick hs
      exact ⟨h.code, h.keyed, h.hashes, h.fresh, h.total, h.stands, h.one, h.settled⟩

end Server.Budgeted

/-! ### A code sets one password -/

theorem Op.perform_resetPassword {cfg : Config} {outside : Outside} {db : Database}
    {otp : PasswordResetOtp} {a now count : ℕ} {hash : String}
    (h : ((resetPassword otp a hash now).perform cfg outside db).1 = .ok (some count)) :
    (∃ row ∈ db.passwordResetOtps, row.id = otp.id ∧ row.consumedAt = none) ∧
      ∀ row ∈ ((resetPassword otp a hash now).perform cfg outside db).2.passwordResetOtps,
        row.id = otp.id → row.consumedAt ≠ none := by
  rcases perform_cases cfg outside (resetPassword otp a hash now) db with ⟨-, e, he⟩ | heffect
  · rw [he] at h
    cases h
  rw [heffect, effect, Database.resetPassword] at h ⊢
  split at h
  · cases h
  · rename_i hcount
    rw [if_neg hcount]
    obtain ⟨row, hrow, hp⟩ := countWhere_ne_zero.mp hcount
    simp only [Bool.and_eq_true, decide_eq_true_eq] at hp
    refine ⟨⟨row, hrow, hp⟩, ?_⟩
    rw [Database.ifAccount] at h ⊢
    split at h
    · cases h
    · rename_i haccount
      rw [if_neg haccount]
      intro new hnew hid
      obtain ⟨old, -, rfl⟩ := mem_updateMany.mp hnew
      split
      · exact Option.some_ne_none now
      · rename_i hold
        rw [if_neg hold] at hid
        intro hlive
        exact hold (by simp [hid, hlive])

/-- Code `n` has set `g` passwords. -/
structure Server.SetsOnce (n g : ℕ) (s : Server) : Prop where
  most : g ≤ 1
  given : 0 < g → n < s.db.nextId
  spent : 0 < g → ∀ row ∈ s.db.passwordResetOtps, row.id = n → row.consumedAt ≠ none

theorem Server.consumes_eq_true {cfg : Config} {n : ℕ} {s : Server} {e : ServerEvent}
    (h : s.consumes cfg n e = true) : ∃ i otp a hash now count,
      s.executed cfg e = some (i, ⟨.resetPassword otp a hash now, .ok (some count)⟩) ∧
        otp.id = n := by
  unfold consumes at h
  split at h
  · rename_i i otp a hash now count hexec
    exact ⟨i, otp, a, hash, now, count, hexec, of_decide_eq_true h⟩
  · cases h

theorem Server.SetsOnce.step {cfg : Config} {n g : ℕ} {s s' : Server} {e : ServerEvent}
    (h : s.SetsOnce n g) (hkeyed : s.db.OtpsKeyed) (hs : s.step cfg e = some s') :
    s'.SetsOnce n (g + (s.consumes cfg n e).toNat) := by
  cases hconsumes : s.consumes cfg n e with
  | true =>
    obtain ⟨i, otp, a, hash, now, count, hexec, hid⟩ := Server.consumes_eq_true hconsumes
    obtain ⟨outside, r, k, rfl, hi, hanswer⟩ := Server.executed_eq_some hexec
    obtain ⟨r', op, k', hi', rfl⟩ := Server.step_execute hs
    cases hi.symm.trans hi'
    obtain ⟨⟨row, hrow, hrow', hlive⟩, hspent⟩ := Op.perform_resetPassword hanswer.symm
    have hzero : g = 0 := by
      by_contra hne
      exact h.spent (Nat.pos_of_ne_zero hne) row hrow (hrow'.trans hid) hlive
    have hn : s.db.nextId ≤ (s.perform cfg outside (.resetPassword otp a hash now)).2.nextId :=
      Op.perform_accounts.nextId
    have hgiven : n < s.db.nextId := (hrow'.trans hid) ▸ hkeyed.ids row hrow
    refine ⟨?_, fun _ => hgiven.trans_le hn, fun _ row hrow hrowid => ?_⟩
    · rw [hzero]
      exact le_rfl
    · exact hspent row hrow (hrowid.trans hid.symm)
  | false =>
    rcases Server.step_db hs with hdb | ⟨outside, op, hdb⟩
    · exact ⟨h.most, fun hg => hdb ▸ h.given hg, fun hg => hdb ▸ h.spent hg⟩
    · have hn : s.db.nextId ≤ (s.perform cfg outside op).2.nextId := Op.perform_accounts.nextId
      refine ⟨h.most, fun hg => hdb ▸ (h.given hg).trans_le hn, fun hg row hrow hid => ?_⟩
      rw [hdb] at hrow
      rcases Op.perform_otp hrow with ⟨old, hold, he⟩ | ⟨a, hash, exp, now, -, rfl, -⟩
      · exact he.consumed (h.spent hg old hold (he.id ▸ hid))
      · have hgiven := h.given hg
        have hnew : s.db.nextId = n := hid
        omega

/-! ### Runs -/

theorem Server.keyed_step {cfg : Config} {s s' : Server} {e : ServerEvent} (h : s.db.OtpsKeyed)
    (hs : s.step cfg e = some s') : s'.db.OtpsKeyed := by
  rcases Server.step_db hs with hdb | ⟨outside, op, hdb⟩
  · exact hdb ▸ h
  · exact hdb ▸ h.perform

theorem Server.nextId_step {cfg : Config} {s s' : Server} {e : ServerEvent}
    (hs : s.step cfg e = some s') : s.db.nextId ≤ s'.db.nextId := by
  rcases Server.step_db hs with hdb | ⟨outside, op, hdb⟩
  · exact (congrArg Database.nextId hdb).ge
  · exact hdb ▸ Op.perform_accounts.nextId

theorem Server.Budgeted.not_created {cfg : Config} {n w : ℕ} {hash : String} {s : Server}
    (h : s.Budgeted cfg n hash w) (hn : s.db.nextId ≤ n) (e : ServerEvent) :
    s.GuessesApart cfg n hash e ∧ s.guessesWrong cfg n e = false := by
  have acts {i : ℕ} {r : Request} {op : Op} {k : Except ServiceError op.Res → Service Response}
      (hi : s.requests[i]? = some ⟨r, .awaiting op k⟩) : ¬ (guessCheck n).acts op := by
    intro hacts
    have hmakes := ((h.code i _ hi).calls (Request.code_makes cfg r)).op rfl
    obtain ⟨dto, tenantId, rfl⟩ := Request.resets?_of_makes hmakes ⟨n, hacts⟩
    obtain ⟨q, hkeeps, hstands⟩ := h.stands i _ hi dto rfl
    have hapart : q.Apart n := by
      cases q with
      | before => trivial
      | done => trivial
      | read otp => exact (hstands.1.given.trans_le hn).ne
      | wrong otp => exact (hstands.1.given.trans_le hn).ne
    exact (hapart.cautious hkeeps).not_acts hacts
  refine ⟨⟨?_, ?_⟩, ?_⟩
  · intro i outside r a k otp _ _ _ hanswer hid
    have hlt := h.keyed.ids otp (Op.perform_findLiveOtp.2 otp hanswer).1
    omega
  · intro i outside r otp now k _ hi hid
    exact absurd hid (acts hi)
  · by_contra hwrong
    obtain ⟨i, otp, submitted, hexec, hid⟩ :=
      Server.Budgeted.guessesWrong_eq_true (by simpa using hwrong)
    obtain ⟨outside, r, k, -, hi, -⟩ := Server.executed_eq_some hexec
    exact acts hi hid

theorem Server.Budgeted.before {cfg : Config} {n : ℕ} {hash : String} {s₀ s : Server}
    (h₀ : s₀.Idle) (hkeyed : s₀.db.OtpsKeyed)
    (hr : Reach (Server.step cfg) (fun _ _ => True) s₀ s) (hn : s.db.nextId ≤ n) :
    s.Budgeted cfg n hash 0 := by
  induction hr with
  | init =>
    have hempty : s₀.requests = [] := h₀
    refine ⟨h₀.fromCode, hkeyed, fun row hrow hid => ?_, fun _ => rfl, Nat.zero_le _, ?_, ?_,
      fun _ _ _ _ _ => Nat.zero_le _⟩
    · have hlt := hkeyed.ids row hrow
      omega
    · intro i f hf
      rw [hempty] at hf
      cases hf
    · intro i j f g hf
      rw [hempty] at hf
      cases hf
  | @next s s' e _ _ hs ih =>
    have hb := ih ((Server.nextId_step hs).trans hn)
    obtain ⟨hok, hwrong⟩ := hb.not_created ((Server.nextId_step hs).trans hn) e
    have hstep := hb.step hok hs fun row hrow hid => by
      have hlt := (Server.keyed_step hb.keyed hs).ids row hrow
      omega
    rwa [hwrong] at hstep

/-- A code sets at most one password; and if the requests with a wrong code read it one
after the other, at most as many wrong codes are compared with it as the budget says. -/
theorem guess_budget (cfg : Config) {s₀ s₁ s₂ : Server} {e : ServerEvent} {otp : PasswordResetOtp}
    {y : Server × GuessHistory} (h₀ : s₀.Idle) (hkeyed : s₀.db.OtpsKeyed)
    (hr : Reach (Server.step cfg) (fun _ _ => True) s₀ s₁) (hs : s₁.step cfg e = some s₂)
    (hnew : s₁.db.nextId ≤ otp.id) (hotp : otp ∈ s₂.db.passwordResetOtps)
    (hr' : Reach (watch (Server.step cfg) (GuessHistory.note cfg otp.id)) (fun _ _ => True)
      (s₂, ⟨0, 0⟩) y) :
    y.2.resets ≤ 1 ∧ (Reach (watch (Server.step cfg) (GuessHistory.note cfg otp.id))
      (fun x e => x.1.GuessesApart cfg otp.id otp.otpHash e) (s₂, ⟨0, 0⟩) y →
        y.2.wrong ≤ PASSWORD_RESET_OTP_MAX_ATTEMPTS) := by
  have hb₁ : s₁.Budgeted cfg otp.id otp.otpHash 0 := .before h₀ hkeyed hr hnew
  have hkeyed₂ : s₂.db.OtpsKeyed := Server.keyed_step hb₁.keyed hs
  constructor
  · have hy : y.1.db.OtpsKeyed ∧ y.1.SetsOnce otp.id y.2.resets := by
      refine hr'.invariant (I := fun x => x.1.db.OtpsKeyed ∧ x.1.SetsOnce otp.id x.2.resets)
        ⟨hkeyed₂, Nat.zero_le _, fun h => absurd h (lt_irrefl _), fun h => absurd h (lt_irrefl _)⟩ ?_
      intro x x' e _ hx _ hstep
      obtain ⟨hstep, hnote⟩ := watch_eq_some.mp hstep
      rw [hnote]
      exact ⟨Server.keyed_step hx.1 hstep, hx.2.step hx.1 hstep⟩
    exact hy.2.most
  · intro hapart
    have hb₂ : s₂.Budgeted cfg otp.id otp.otpHash 0 := by
      obtain ⟨hok, hwrong⟩ := hb₁.not_created hnew e
      have hstep := hb₁.step hok hs fun row hrow hid => by
        rw [List.inj_on_of_nodup_map hkeyed₂.unique hrow hotp hid]
      rwa [hwrong] at hstep
    have hy : otp.id < y.1.db.nextId ∧ y.1.Budgeted cfg otp.id otp.otpHash y.2.wrong := by
      refine hapart.invariant (I := fun x => otp.id < x.1.db.nextId ∧
        x.1.Budgeted cfg otp.id otp.otpHash x.2.wrong) ⟨hkeyed₂.ids otp hotp, hb₂⟩ ?_
      intro x x' e _ hx hok hstep
      obtain ⟨hstep, hnote⟩ := watch_eq_some.mp hstep
      rw [hnote]
      refine ⟨hx.1.trans_le (Server.nextId_step hstep), hx.2.step hok hstep fun row hrow hid => ?_⟩
      rcases Server.step_db hstep with hdb | ⟨outside, op, hdb⟩
      · exact hx.2.hashes row (hdb ▸ hrow) hid
      · rw [hdb] at hrow
        rcases Op.perform_otp hrow with ⟨old, hold, he⟩ | ⟨a, hash, exp, now, -, rfl, -⟩
        · exact he.otpHash.trans (hx.2.hashes old hold (he.id ▸ hid))
        · exact absurd hid hx.1.ne'
    exact hy.2.total

/-- Bob asks for a code, up to its creation. -/
def bobForgets : List ServerEvent :=
  [.arrive (.requestReset "bob@acme.io" (some "acme")) (acmeContext "")] ++ acmeCalls 0 4

/-- Somebody tries a wrong code for Bob. -/
def wrongGuess : ServerEvent :=
  .arrive (.resetPassword ⟨"bob@acme.io", "000000", "Guess-Secret-12"⟩ (some "acme"))
    (acmeContext "")

def guessRun (es : List ServerEvent) (n : ℕ) (x : Server × GuessHistory) :
    Option (Server × GuessHistory) :=
  runAll (watch (Server.step plainConfig) (GuessHistory.note plainConfig n)) x es

/-- No request but the first one after the creation guesses, and nothing fails. -/
def oneGuess (s : Server) (e : ServerEvent) : Bool :=
  ((List.range s.requests.length).all fun j =>
    j = 1 || (s.requests[j]?).all fun f => !f.request.misses plainConfig "123456") &&
  match e with
    | .execute _ outside => !outside.fault
    | _ => true

theorem oneGuess.apart {s : Server} {e : ServerEvent} (h : oneGuess s e = true) :
    s.GuessesApart plainConfig 6 "123456" e := by
  obtain ⟨hone, hfault⟩ := Bool.and_eq_true_iff.mp h
  have only (j : ℕ) (f : InFlight) (hf : s.requests[j]? = some f)
      (hm : f.request.misses plainConfig "123456" = true) : j = 1 := by
    obtain ⟨hlt, -⟩ := List.getElem?_eq_some_iff.mp hf
    have hj := List.all_eq_true.mp hone j (List.mem_range.mpr hlt)
    simpa [hf, hm] using hj
  refine ⟨?_, ?_⟩
  · intro i outside r a k otp _ hi hm _ _ j f hne hf hm'
    have h₁ := only i _ hi hm
    have h₂ := only j f hf hm'
    omega
  · intro i outside r otp now k he _ _
    subst he
    simpa using hfault

theorem guess_budget_acme : ∃ (s₁ s₂ : Server) (otp : PasswordResetOtp)
    (y : Server × GuessHistory), Reach (Server.step plainConfig) (fun _ _ => True) acme s₁ ∧
    s₁.step plainConfig (.execute 0 quiet) = some s₂ ∧ s₁.db.nextId ≤ otp.id ∧
    otp ∈ s₂.db.passwordResetOtps ∧
    Reach (watch (Server.step plainConfig) (GuessHistory.note plainConfig otp.id))
      (fun x e => x.1.GuessesApart plainConfig otp.id otp.otpHash e) (s₂, ⟨0, 0⟩) y ∧
    y.2.resets ≤ 1 ∧ y.2.wrong ≤ PASSWORD_RESET_OTP_MAX_ATTEMPTS := by
  have hrun : (runAll (Server.step plainConfig) acme bobForgets).any (fun s₁ =>
      (s₁.step plainConfig (.execute 0 quiet)).any fun s₂ =>
        s₂.db.passwordResetOtps.any fun otp => otp.id = 6 && otp.otpHash = "123456" &&
          s₁.db.nextId ≤ otp.id &&
          (runChecked (watch (Server.step plainConfig) (GuessHistory.note plainConfig 6))
            (fun x e => oneGuess x.1 e) (s₂, ⟨0, 0⟩) ([wrongGuess] ++ acmeCalls 1 5)).isSome)
      = true := by
    decide +kernel
  obtain ⟨s₁, hs₁, h⟩ := (Option.any_eq_true _ _).mp hrun
  obtain ⟨s₂, hs₂, h⟩ := (Option.any_eq_true _ _).mp h
  obtain ⟨otp, hotp, h⟩ := List.any_eq_true.mp h
  simp only [Bool.and_eq_true, decide_eq_true_eq] at h
  obtain ⟨⟨⟨hid, hhash⟩, hnew⟩, h⟩ := h
  obtain ⟨y, hy⟩ := Option.isSome_iff_exists.mp h
  have hr : Reach (Server.step plainConfig) (fun _ _ => True) acme s₁ :=
    .of_runAll (.of_labels (fun _ _ _ => trivial) _) hs₁
  have hapart : Reach (watch (Server.step plainConfig) (GuessHistory.note plainConfig otp.id))
      (fun x e => x.1.GuessesApart plainConfig otp.id otp.otpHash e) (s₂, ⟨0, 0⟩) y := by
    rw [hid, hhash]
    exact .of_runChecked (fun _ _ h => oneGuess.apart h) hy
  obtain ⟨hresets, hwrong⟩ := guess_budget plainConfig acme_idle acme_otpsKeyed hr hs₂ hnew hotp
    (hapart.mono fun _ _ _ => trivial)
  exact ⟨s₁, s₂, otp, y, hr, hs₂, hnew, hotp, hapart, hresets, hwrong hapart⟩

/-- Four resets read Bob's code before any of them records its miss. -/
theorem four_wrong_guesses : ∃ (s₁ s₂ : Server) (otp : PasswordResetOtp)
    (y : Server × GuessHistory), Reach (Server.step plainConfig) (fun _ _ => True) acme s₁ ∧
    s₁.step plainConfig (.execute 0 quiet) = some s₂ ∧ s₁.db.nextId ≤ otp.id ∧
    otp ∈ s₂.db.passwordResetOtps ∧
    Reach (watch (Server.step plainConfig) (GuessHistory.note plainConfig otp.id))
      (fun _ _ => True) (s₂, ⟨0, 0⟩) y ∧ y.2.wrong = 4 := by
  have hrun : (runAll (Server.step plainConfig) acme bobForgets).any (fun s₁ =>
      (s₁.step plainConfig (.execute 0 quiet)).any fun s₂ =>
        s₂.db.passwordResetOtps.any fun otp => otp.id = 6 && s₁.db.nextId ≤ otp.id &&
          (guessRun (List.replicate 4 wrongGuess ++ acmeCalls 1 4 ++ acmeCalls 2 4 ++
            acmeCalls 3 4 ++ acmeCalls 4 4) 6 (s₂, ⟨0, 0⟩)).any fun y => y.2.wrong = 4)
      = true := by
    decide +kernel
  obtain ⟨s₁, hs₁, h⟩ := (Option.any_eq_true _ _).mp hrun
  obtain ⟨s₂, hs₂, h⟩ := (Option.any_eq_true _ _).mp h
  obtain ⟨otp, hotp, h⟩ := List.any_eq_true.mp h
  simp only [Bool.and_eq_true, decide_eq_true_eq] at h
  obtain ⟨⟨hid, hnew⟩, h⟩ := h
  obtain ⟨y, hy, hfour⟩ := (Option.any_eq_true _ _).mp h
  refine ⟨s₁, s₂, otp, y, .of_runAll (.of_labels (fun _ _ _ => trivial) _) hs₁, hs₂, hnew, hotp,
    ?_, of_decide_eq_true hfour⟩
  rw [hid]
  exact .of_runAll (.of_labels (fun _ _ _ => trivial) _) hy

end Flexi.Accounts
