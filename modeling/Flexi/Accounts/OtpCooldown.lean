import Flexi.Accounts.OtpRows
import Flexi.Accounts.RequestCalls
import Flexi.Library.Protocol
import Flexi.Library.Reach

/-!
# The codes that an account is issued

A code is issued in one transaction, which consumes the codes before it. The cooldown is
checked in a statement of its own.
-/

namespace Flexi.Accounts
open Flexi.Library

/-- `isWithinCooldown`, of the latest code as it was read. -/
def withinCooldown (latest : Option PasswordResetOtp) (now : ℕ) : Bool :=
  latest.any fun otp => now - otp.createdAt < PASSWORD_RESET_OTP_COOLDOWN_SECONDS * 1000

/-- Where a request for a code stands: it has read the account's latest code, or found at
`now` that the cooldown is over. -/
inductive IssueStage where
  | before
  | read (latest : Option PasswordResetOtp)
  | clear (now : ℕ)
  | done

/-- A code is issued for account `a` only once its latest code was found old enough. -/
def issuing (a : ℕ) : Protocol Op Op.Res Context ServiceError IssueStage where
  allows
    | .clear _, .findLatestOtp b => b ≠ a
    | .clear _, _ => True
    | .before, .issueOtp b _ _ _ => b ≠ a
    | .before, _ => True
    | .read _, .issueOtp b _ _ _ | .done, .issueOtp b _ _ _ => b ≠ a
    | .read _, .findLatestOtp b | .done, .findLatestOtp b => b ≠ a
    | _, _ => True
  next
    | .before, .findLatestOtp b, .ok latest => if b = a then .read latest else .before
    | .clear now, .issueOtp b _ _ _, _ => if b = a then .done else .clear now
    | q, _, _ => q
  reads
    | .read latest, c => if withinCooldown latest c.now then .done else .clear c.now
    | q, _ => q
  ends _ := True

/-- Who has read the latest code of the account may issue one. -/
def cooldownCheck (a : ℕ) : Check Op Op.Res ServiceError where
  passes
    | .findLatestOtp b, .ok _ => b = a
    | _, _ => False
  acts
    | .issueOtp b _ _ _ => b = a
    | _ => False

section
variable {cfg : Config} {a : ℕ}

theorem isWithinCooldown_keeps :
    (isWithinCooldown a).Keeps (issuing a) (fun within q => within = true ∧ q = .done ∨
      within = false ∧ (q = .read none ∨ ∃ now, q = .clear now)) .before := by
  refine .bind (Q := fun latest q => q = .read latest) ?_ fun latest q hq => ?_
  · refine .await trivial (fun latest => ?_) fun _ => trivial
    simp [issuing]
  subst hq
  cases latest with
  | none => exact .pure (.inr ⟨rfl, .inl rfl⟩)
  | some latest =>
    refine .bind (Q := fun now q => q = if withinCooldown (some latest) now then .done
      else .clear now) ?_ fun now q hq => ?_
    · exact .bind (.read fun _ => rfl) fun c q hq => .pure hq.symm
    · refine .pure ?_
      subst hq
      by_cases hwithin : withinCooldown (some latest) now = true
      · exact .inl ⟨hwithin, if_pos hwithin⟩
      · refine .inr ⟨by simpa [withinCooldown] using hwithin, .inr ⟨now, if_neg hwithin⟩⟩

theorem issueOtpFor_keeps :
    (issueOtpFor a).Keeps (issuing a) (fun _ => (issuing a).ends) .before := by
  refine isWithinCooldown_keeps.bind fun within q hq => ?_
  rcases hq with ⟨rfl, rfl⟩ | ⟨rfl, hq⟩
  · exact .pure trivial
  · refine .bind (Q := fun _ q => ∃ now, q = .clear now) ?_ fun c q hq' => ?_
    · refine .read fun c => ?_
      rcases hq with rfl | ⟨now, rfl⟩
      · exact ⟨c.now, rfl⟩
      · exact ⟨now, rfl⟩
    · obtain ⟨now, rfl⟩ := hq'
      refine .bind (Q := fun _ q => q = .clear now) ?_ fun hash q hq' => ?_
      · exact .await trivial (fun _ => rfl) fun _ => trivial
      · subst hq'
        exact .bind (Q := fun _ _ => True) (.await trivial (fun _ => trivial) fun _ => trivial)
          fun _ _ _ => .pure trivial

theorem issueOtpFor_other {b : ℕ} (hb : b ≠ a) :
    (issueOtpFor b).Keeps (issuing a) (fun _ => (issuing a).ends) .before := by
  have hmakes : Makes (fun op => op = .findLatestOtp b ∨ (∃ hs, op = .hash hs) ∨
      ∃ hash exp now, op = .issueOtp b hash exp now) (issueOtpFor b) := by
    refine .bind (.bind (makes_request (.inl rfl)) fun latest => ?_) fun within => ?_
    · cases latest with
      | none => exact .pure
      | some latest => exact makes_now.bind fun _ => .pure
    · cases within with
      | true => exact .pure
      | false =>
        refine Prog.Calls.read.bind fun c => .bind (makes_request (.inr (.inl ⟨_, rfl⟩))) fun hash => ?_
        exact .bind (makes_request (.inr (.inr ⟨_, _, _, rfl⟩))) fun _ => .pure
  refine (Prog.Keeps.of_calls hmakes (fun op hop => ?_) (fun _ => rfl) trivial).mono fun _ _ _ => trivial
  rcases hop with rfl | ⟨hs, rfl⟩ | ⟨hash, exp, now, rfl⟩
  · refine ⟨trivial, fun answer => ?_⟩
    cases answer with
    | error e => rfl
    | ok latest => exact if_neg hb
  · exact ⟨trivial, fun _ => rfl⟩
  · exact ⟨hb, fun _ => rfl⟩

theorem requestReset_keeps (email : String) (tenantId : Option String) :
    (requestReset cfg email tenantId).Keeps (issuing a) (fun _ => (issuing a).ends) .before := by
  have hactor : Makes (fun op => (∃ t e, op = .findTenantUserByEmail t e) ∨
      (∃ t, op = .isTenantActive t) ∨ ∃ e, op = .findSystemUserByEmail e)
      (resolveActor (cfg.normalizeEmail email) tenantId) :=
    resolveActor_makes (fun t e => .inl ⟨t, e, rfl⟩) (fun t => .inr (.inl ⟨t, rfl⟩))
      fun e => .inr (.inr ⟨e, rfl⟩)
  refine .bind (.of_calls hactor (fun op h => ?_) (fun _ => rfl) trivial) fun actor q hq => ?_
  · rcases h with ⟨t, e, rfl⟩ | ⟨t, rfl⟩ | ⟨e, rfl⟩
    · exact ⟨trivial, fun _ => rfl⟩
    · exact ⟨trivial, fun _ => rfl⟩
    · exact ⟨trivial, fun _ => rfl⟩
  subst hq
  cases actor with
  | none => exact .pure trivial
  | some actor =>
    dsimp only
    split
    · by_cases ha : actor.authAccountId = a
      · rw [ha]
        exact issueOtpFor_keeps
      · exact issueOtpFor_other ha
    · exact .pure trivial

/-- Only the reading of the latest code and the issue of one move a request on. -/
theorem issuing_next {op : Op} {answer : Except ServiceError op.Res} {q : IssueStage}
    (hop : ∀ hash exp now, op ≠ .issueOtp a hash exp now)
    (hpasses : ¬ (cooldownCheck a).passes op answer) : (issuing a).next q op answer = q := by
  cases q with
  | before =>
    cases op with
    | findLatestOtp b =>
      cases answer with
      | error e => rfl
      | ok latest => exact if_neg hpasses
    | _ => rfl
  | clear now =>
    cases op with
    | issueOtp b hash exp now' =>
      refine if_neg fun hb => ?_
      rw [hb] at hop
      exact hop hash exp now' rfl
    | _ => rfl
  | _ => rfl

end

/-! ### The rows -/

/-- The codes of the account that a reset would take. -/
def Database.liveOtps (db : Database) (a now : ℕ) : ℕ :=
  countWhere (fun otp => otp.authAccountId = a && otp.consumedAt = none && now < otp.expiresAt)
    db.passwordResetOtps

/-- The codes of the account in the order in which they were created, each at least the
cooldown after the one before. -/
def Database.Spaced (db : Database) (a : ℕ) : Prop :=
  db.passwordResetOtps.Pairwise fun x y => x.authAccountId = a → y.authAccountId = a →
    x.createdAt + PASSWORD_RESET_OTP_COOLDOWN_SECONDS * 1000 ≤ y.createdAt

/-- The codes of the account that have not been consumed. -/
def Database.unconsumed (db : Database) (a : ℕ) : List PasswordResetOtp :=
  db.passwordResetOtps.filter fun otp => otp.authAccountId = a && otp.consumedAt = none

theorem Database.liveOtps_le (db : Database) (a now : ℕ) :
    db.liveOtps a now ≤ (db.unconsumed a).length := by
  apply List.Sublist.length_le
  apply List.monotone_filter_right
  intro otp h
  simp only [Bool.and_eq_true] at h ⊢
  exact h.1

section
variable {db db' : Database} {a : ℕ}

theorem OtpsEvolve.spaced (h : OtpsEvolve db db') (hdb : db.Spaced a) : db'.Spaced a := by
  obtain ⟨p, f, hf, hrows⟩ := h
  rw [Database.Spaced, hrows, List.pairwise_map]
  refine (hdb.filter p).imp fun {x y} hxy hx hy => ?_
  rw [(hf x).authAccountId] at hx
  rw [(hf y).authAccountId] at hy
  rw [(hf x).createdAt, (hf y).createdAt]
  exact hxy hx hy

theorem OtpsEvolve.unconsumed (h : OtpsEvolve db db') :
    (db'.unconsumed a).length ≤ (db.unconsumed a).length := by
  obtain ⟨p, f, hf, hrows⟩ := h
  rw [Database.unconsumed, hrows, List.filter_map, List.length_map, List.filter_filter]
  apply List.Sublist.length_le
  apply List.monotone_filter_right
  intro otp hotp
  simp only [Function.comp_apply, Bool.and_eq_true, decide_eq_true_eq] at hotp ⊢
  refine ⟨(hf otp).authAccountId ▸ hotp.1.1, ?_⟩
  by_contra hconsumed
  exact (hf otp).consumed hconsumed hotp.1.2

theorem Database.unconsumed_issue {now : ℕ} {new : PasswordResetOtp}
    (h : db'.passwordResetOtps =
      (db.consumeOtps (fun otp => otp.authAccountId = a) now).passwordResetOtps ++ [new]) :
    (db'.unconsumed a).length ≤ 1 := by
  have hnone : (db.consumeOtps (fun otp => otp.authAccountId = a) now).passwordResetOtps.filter
      (fun otp => otp.authAccountId = a && otp.consumedAt = none) = [] := by
    rw [List.filter_eq_nil_iff]
    intro otp hotp hlive
    simp only [Bool.and_eq_true, decide_eq_true_eq] at hlive
    obtain ⟨old, -, rfl⟩ := mem_updateMany.mp hotp
    split at hlive
    · cases hlive.2
    · rename_i hold
      exact hold (by simp [hlive.1, hlive.2])
  rw [Database.unconsumed, h, List.filter_append, hnone, List.nil_append]
  exact List.length_filter_le _ [new]

theorem Database.unconsumed_issue_other {b now : ℕ} {new : PasswordResetOtp} (hb : b ≠ a)
    (hnew : new.authAccountId = b) (h : db'.passwordResetOtps =
      (db.consumeOtps (fun otp => otp.authAccountId = b) now).passwordResetOtps ++ [new]) :
    (db'.unconsumed a).length ≤ (db.unconsumed a).length := by
  have hsame : OtpsEvolve db { db' with
      passwordResetOtps := (db.consumeOtps (fun otp => otp.authAccountId = b) now).passwordResetOtps } :=
    Database.consumeOtps_evolve rfl
  have hle := hsame.unconsumed (a := a)
  rw [Database.unconsumed, h, List.filter_append]
  have hnil : [new].filter (fun otp => otp.authAccountId = a && otp.consumedAt = none) = [] := by
    simp [hnew, hb]
  rw [hnil, List.append_nil]
  exact hle

theorem Op.perform_unconsumed {cfg : Config} {outside : Outside} {op : Op}
    (h : (db.unconsumed a).length ≤ 1) :
    ((op.perform cfg outside db).2.unconsumed a).length ≤ 1 := by
  rcases perform_otps cfg outside op db with hevolve | ⟨b, hash, exp, now, -, hdb⟩
  · exact hevolve.unconsumed.trans h
  · rw [hdb]
    by_cases hb : b = a
    · subst hb
      exact Database.unconsumed_issue rfl
    · exact (Database.unconsumed_issue_other hb rfl rfl).trans h

theorem Op.perform_findLatestOtp {cfg : Config} {outside : Outside} {b : ℕ}
    {latest : Option PasswordResetOtp}
    (h : ((findLatestOtp b).perform cfg outside db).1 = .ok latest) :
    latest = db.latestOtp fun otp => otp.authAccountId = b := by
  rcases perform_cases cfg outside (findLatestOtp b) db with ⟨-, e, he⟩ | heffect
  · rw [he] at h
    cases h
  · rw [heffect] at h
    exact (Except.ok.inj h).symm

theorem Op.perform_findLatestOtp_db {cfg : Config} {outside : Outside} {b : ℕ} :
    ((findLatestOtp b).perform cfg outside db).2 = db := by
  rcases perform_cases cfg outside (findLatestOtp b) db with ⟨hdb, -⟩ | heffect
  · exact hdb
  · rw [heffect]
    rfl

/-- The account's codes are codes from before. -/
def NoCodeIssued (a : ℕ) (db db' : Database) : Prop :=
  ∀ new ∈ db'.passwordResetOtps, new.authAccountId = a →
    ∃ old ∈ db.passwordResetOtps, old.authAccountId = a ∧ old.createdAt = new.createdAt

theorem OtpsEvolve.noCodeIssued (h : OtpsEvolve db db') : NoCodeIssued a db db' := by
  obtain ⟨p, f, hf, hrows⟩ := h
  intro new hnew ha
  rw [hrows] at hnew
  obtain ⟨old, hold, rfl⟩ := List.mem_map.mp hnew
  exact ⟨old, List.mem_of_mem_filter hold, (hf old).authAccountId ▸ ha, (hf old).createdAt.symm⟩

theorem Op.perform_noCodeIssued {cfg : Config} {outside : Outside} {op : Op}
    (h : ∀ hash exp now, op ≠ .issueOtp a hash exp now) :
    NoCodeIssued a db (op.perform cfg outside db).2 := by
  intro new hnew ha
  rcases perform_otp hnew with ⟨old, hold, he⟩ | ⟨b, hash, exp, now, rfl, rfl, -⟩
  · exact ⟨old, hold, he.authAccountId ▸ ha, he.createdAt.symm⟩
  · have hb : b = a := ha
    exact absurd (by rw [hb]) (h hash exp now)

end

/-! ### The server -/

def Request.isForgot : Request → Prop
  | requestReset _ _ => True
  | _ => False

/-- What a request's stage says of the codes of the account. -/
def IssueStage.Stands (a : ℕ) (db : Database) (clock : ℕ) : IssueStage → Prop
  | read latest => ∀ otp ∈ db.passwordResetOtps, otp.authAccountId = a →
    ∃ newest, latest = some newest ∧ otp.createdAt ≤ newest.createdAt
  | clear now => now ≤ clock ∧ ∀ otp ∈ db.passwordResetOtps, otp.authAccountId = a →
    otp.createdAt + PASSWORD_RESET_OTP_COOLDOWN_SECONDS * 1000 ≤ now
  | before | done => True

theorem IssueStage.Stands.mono {a clock clock' : ℕ} {db db' : Database} {q : IssueStage}
    (h : q.Stands a db clock) (hdb : NoCodeIssued a db db') (hclock : clock ≤ clock') :
    q.Stands a db' clock' := by
  cases q with
  | before => trivial
  | done => trivial
  | read latest =>
    intro new hnew ha
    obtain ⟨old, hold, ha', hcreated⟩ := hdb new hnew ha
    exact hcreated ▸ h old hold ha'
  | clear now =>
    refine ⟨h.1.trans hclock, fun new hnew ha => ?_⟩
    obtain ⟨old, hold, ha', hcreated⟩ := hdb new hnew ha
    exact hcreated ▸ h.2 old hold ha'

/-- A code of the account is issued only while no other request has read the latest code
and is still to issue one. -/
def Server.IssuesAlone (a : ℕ) (s : Server) (e : ServerEvent) : Prop :=
  ∀ i outside r hash exp now k, e = .execute i outside →
    s.requests[i]? = some ⟨r, .awaiting (.issueOtp a hash exp now) k⟩ →
    ∀ (j : ℕ) (f : InFlight), j ≠ i → s.requests[j]? = some f →
      f.thread.Cautious (cooldownCheck a)

structure Server.Cooling (cfg : Config) (a : ℕ) (s : Server) : Prop where
  code : s.FromCode cfg
  spaced : s.db.Spaced a
  past : ∀ otp ∈ s.db.passwordResetOtps, otp.authAccountId = a → otp.createdAt ≤ s.clock
  stands : ∀ (i : ℕ) (f : InFlight), s.requests[i]? = some f → f.request.isForgot →
    ∃ q, f.thread.Keeps (issuing a) q ∧
      (¬ f.thread.Cautious (cooldownCheck a) → q.Stands a s.db s.clock)

namespace Server.Cooling

variable {cfg : Config} {a : ℕ} {s s' : Server}

theorem issuer {i : ℕ} {r : Request} {hash : String} {exp now : ℕ}
    {k : Except ServiceError Unit → Service Response} (h : s.Cooling cfg a)
    (hi : s.requests[i]? = some ⟨r, .awaiting (.issueOtp a hash exp now) k⟩) :
    r.isForgot ∧ ∃ now', (Thread.awaiting (.issueOtp a hash exp now) k).Keeps (issuing a)
      (.clear now') ∧ IssueStage.Stands a s.db s.clock (.clear now') := by
  have hmakes := ((h.code i _ hi).calls (Request.code_makes cfg r)).op rfl
  have hr : r.isForgot := by
    cases r with
    | requestReset email tenantId => trivial
    | _ => cases hmakes
  obtain ⟨q, hq, hstands⟩ := h.stands i _ hi hr
  have hgap : ¬ (Thread.awaiting (.issueOtp a hash exp now) k).Cautious (cooldownCheck a) :=
    fun hc => hc.not_acts rfl
  cases q with
  | before => exact absurd rfl hq.allows
  | done => exact absurd rfl hq.allows
  | read latest => exact absurd rfl hq.allows
  | clear now' => exact ⟨hr, now', hq, hstands hgap⟩

theorem execute_issue {i : ℕ} {outside : Outside} {r : Request} {hash : String} {exp now : ℕ}
    {k : Except ServiceError Unit → Service Response} (h : s.Cooling cfg a)
    (hi : s.requests[i]? = some ⟨r, .awaiting (.issueOtp a hash exp now) k⟩)
    (hok : s.IssuesAlone a (.execute i outside))
    (hs : s.step cfg (.execute i outside) = some s') : s'.Cooling cfg a := by
  have hcode := h.code.step hs
  obtain ⟨r', op, k', hi', rfl⟩ := step_execute hs
  cases hi.symm.trans hi'
  obtain ⟨hr, now', hkeeps, hle, hold⟩ := h.issuer hi
  have hstands : ∀ (j : ℕ) (f : InFlight),
      (s.requests.set i ⟨r, .answered (.issueOtp a hash exp now)
        (s.perform cfg outside (.issueOtp a hash exp now)).1 k⟩)[j]? = some f →
      f.request.isForgot → ∃ q, f.thread.Keeps (issuing a) q ∧
        (¬ f.thread.Cautious (cooldownCheck a) →
          q.Stands a (s.perform cfg outside (.issueOtp a hash exp now)).2 s.clock) := by
    intro j f hf hr'
    rcases getElem?_set hf with ⟨rfl, rfl⟩ | ⟨hne, hf'⟩
    · refine ⟨_, hkeeps.execute _, fun _ => ?_⟩
      show IssueStage.Stands a _ _ (if a = a then .done else .clear now')
      rw [if_pos rfl]
      trivial
    · obtain ⟨q, hq, -⟩ := h.stands j f hf' hr'
      exact ⟨q, hq, fun hc => absurd (hok i outside r hash exp now k rfl hi j f hne hf') hc⟩
  refine ⟨hcode, ?_, ?_, hstands⟩
  · dsimp only [Server.perform]
    rcases Op.perform_otps cfg { outside with now := s.clock } (.issueOtp a hash exp now) s.db with
      hevolve | ⟨b, hash', exp', now'', hop, hdb⟩
    · exact hevolve.spaced h.spaced
    · cases hop
      rw [hdb]
      have hconsumed : OtpsEvolve s.db (s.db.consumeOtps (fun otp => otp.authAccountId = a) now) :=
        Database.consumeOtps_evolve rfl
      refine List.pairwise_append.mpr ⟨hconsumed.spaced h.spaced, List.pairwise_singleton _ _, ?_⟩
      intro x hx y hy hxa _
      cases List.mem_singleton.mp hy
      obtain ⟨old, hmem, hxold, hcreated⟩ := hconsumed.noCodeIssued x hx hxa
      rw [← hcreated]
      exact (hold old hmem hxold).trans hle
  · intro otp hotp ha
    dsimp only [Server.perform] at hotp ⊢
    rcases Op.perform_otp hotp with ⟨old, hmem, he⟩ | ⟨b, hash', exp', now'', -, rfl, -⟩
    · rw [he.createdAt]
      exact h.past old hmem (he.authAccountId ▸ ha)
    · exact le_rfl

theorem stands_read {op : Op} {outside : Outside} {q : IssueStage} (hallows : (issuing a).allows q op)
    (hpasses : (cooldownCheck a).passes op (s.perform cfg outside op).1) :
    ((issuing a).next q op (s.perform cfg outside op).1).Stands a (s.perform cfg outside op).2
      s.clock := by
  cases op with
  | findLatestOtp b =>
    have hdb : (s.perform cfg outside (.findLatestOtp b)).2 = s.db :=
      Op.perform_findLatestOtp_db
    cases hanswer : (s.perform cfg outside (.findLatestOtp b)).1 with
    | error e =>
      rw [hanswer] at hpasses
      exact hpasses.elim
    | ok latest =>
      rw [hanswer] at hpasses
      have hb : b = a := hpasses
      subst hb
      cases q with
      | before =>
        show IssueStage.Stands b _ _ (if b = b then .read latest else .before)
        rw [if_pos rfl, hdb]
        intro otp hotp ha
        obtain ⟨newest, hnewest, hle⟩ := Database.latestOtp_newest
          (p := fun otp => otp.authAccountId = b) hotp (decide_eq_true ha)
        exact ⟨newest, (Op.perform_findLatestOtp hanswer).trans hnewest, hle⟩
      | read latest' => exact absurd rfl hallows
      | clear now => exact absurd rfl hallows
      | done => exact absurd rfl hallows
  | _ => exact hpasses.elim

theorem execute_other {i : ℕ} {outside : Outside} {r : Request} {op : Op}
    {k : Except ServiceError op.Res → Service Response} (h : s.Cooling cfg a)
    (hi : s.requests[i]? = some ⟨r, .awaiting op k⟩)
    (hop : ∀ hash exp now, op ≠ .issueOtp a hash exp now)
    (hs : s.step cfg (.execute i outside) = some s') : s'.Cooling cfg a := by
  have hcode := h.code.step hs
  obtain ⟨r', op', k', hi', rfl⟩ := step_execute hs
  cases hi.symm.trans hi'
  have hrows : NoCodeIssued a s.db (s.perform cfg outside op).2 := Op.perform_noCodeIssued hop
  refine ⟨hcode, ?_, ?_, ?_⟩
  · dsimp only [Server.perform]
    rcases Op.perform_otps cfg { outside with now := s.clock } op s.db with
      hevolve | ⟨b, hash, exp, now, rfl, hdb⟩
    · exact hevolve.spaced h.spaced
    · rw [hdb]
      have hconsumed : OtpsEvolve s.db (s.db.consumeOtps (fun otp => otp.authAccountId = b) now) :=
        Database.consumeOtps_evolve rfl
      refine List.pairwise_append.mpr ⟨hconsumed.spaced h.spaced, List.pairwise_singleton _ _, ?_⟩
      intro x _ y hy _ hya
      cases List.mem_singleton.mp hy
      have hb : b = a := hya
      exact absurd (by rw [hb]) (hop hash exp now)
  · intro otp hotp ha
    obtain ⟨old, hold, ha', hcreated⟩ := hrows otp hotp ha
    exact hcreated ▸ h.past old hold ha'
  · intro j f hf hr
    rcases getElem?_set hf with ⟨rfl, rfl⟩ | ⟨hne, hf'⟩
    · obtain ⟨q, hq, hstands⟩ := h.stands j _ hi hr
      refine ⟨_, hq.execute _, fun hgap => ?_⟩
      by_cases hpasses : (cooldownCheck a).passes op (s.perform cfg outside op).1
      · exact stands_read hq.allows hpasses
      · rw [issuing_next hop hpasses]
        exact (hstands fun hc => hgap (hc.answer hpasses)).mono hrows le_rfl
    · obtain ⟨q, hq, hstands⟩ := h.stands j f hf' hr
      exact ⟨q, hq, fun hc => (hstands hc).mono hrows le_rfl⟩

/-- The clock is read after the latest code. -/
theorem stands_reads {q : IssueStage} {c : Context} (h : q.Stands a s.db s.clock)
    (hc : c.now = s.clock) : ((issuing a).reads q c).Stands a s.db s.clock := by
  cases q with
  | read latest =>
    show IssueStage.Stands a _ _ (if withinCooldown latest c.now then .done else .clear c.now)
    by_cases hwithin : withinCooldown latest c.now = true
    · rw [if_pos hwithin]
      trivial
    · rw [if_neg hwithin, hc]
      refine ⟨le_rfl, fun otp hotp ha => ?_⟩
      obtain ⟨newest, rfl, hle⟩ := h otp hotp ha
      have hold : ¬ c.now - newest.createdAt < PASSWORD_RESET_OTP_COOLDOWN_SECONDS * 1000 := by
        simpa [withinCooldown] using hwithin
      have hpos : 0 < PASSWORD_RESET_OTP_COOLDOWN_SECONDS * 1000 := by decide
      generalize PASSWORD_RESET_OTP_COOLDOWN_SECONDS * 1000 = cooldown at hold hpos ⊢
      omega
  | _ => exact h

theorem arrive {r : Request} {c : Context} (h : s.Cooling cfg a)
    (hs : s.step cfg (.arrive r c) = some s') : s'.Cooling cfg a := by
  have hcode := h.code.step hs
  obtain ⟨-, rfl⟩ := step_arrive hs
  refine ⟨hcode, h.spaced, h.past, fun i f hf hr => ?_⟩
  rcases getElem?_arrive hf with hf | ⟨rfl, -⟩
  · exact h.stands i f hf hr
  · cases r with
    | requestReset email tenantId =>
      have hkeeps : (requestReset cfg email tenantId).Keeps (issuing a)
          (fun _ => (issuing a).ends) .before := requestReset_keeps email tenantId
      obtain ⟨q, rfl, hq⟩ := Thread.Keeps.advance (J := (· = .before))
        (c := { c with now := s.clock }) hkeeps rfl fun q hq => by rw [hq]; rfl
      exact ⟨.before, hq, fun _ => trivial⟩
    | _ => exact hr.elim

theorem deliver {i : ℕ} {c : Context} (h : s.Cooling cfg a)
    (hs : s.step cfg (.deliver i c) = some s') : s'.Cooling cfg a := by
  have hcode := h.code.step hs
  obtain ⟨r, op, answer, k, hi, rfl⟩ := step_deliver hs
  refine ⟨hcode, h.spaced, h.past, fun j f hf hr => ?_⟩
  rcases getElem?_set hf with ⟨rfl, rfl⟩ | ⟨-, hf⟩
  · obtain ⟨q, hq, hstands⟩ := h.stands j _ hi hr
    obtain ⟨q', hstands', hq'⟩ := Thread.Keeps.advance (c := { c with now := s.clock })
      (J := fun q => ¬ (Thread.answered op answer k).Cautious (cooldownCheck a) →
        q.Stands a s.db s.clock) hq hstands fun q hq hgap => stands_reads (hq hgap) rfl
    exact ⟨q', hq', fun hgap => hstands' fun hc => hgap (hc.deliver _)⟩
  · exact h.stands j f hf hr

theorem step {e : ServerEvent} (h : s.Cooling cfg a) (hok : s.IssuesAlone a e)
    (hs : s.step cfg e = some s') : s'.Cooling cfg a := by
  cases e with
  | arrive r c => exact h.arrive hs
  | execute i outside =>
    obtain ⟨r, op, k, hi, -⟩ := step_execute hs
    by_cases hop : ∃ hash exp now, op = .issueOtp a hash exp now
    · obtain ⟨hash, exp, now, rfl⟩ := hop
      exact h.execute_issue hi hok hs
    · exact h.execute_other hi (fun hash exp now he => hop ⟨hash, exp, now, he⟩) hs
  | deliver i c => exact h.deliver hs
  | tick d =>
    cases step_tick hs
    refine ⟨h.code, h.spaced, fun otp hotp ha => ?_, fun i f hf hr => ?_⟩
    · exact (h.past otp hotp ha).trans (Nat.le_add_right _ d)
    · obtain ⟨q, hq, hstands⟩ := h.stands i f hf hr
      refine ⟨q, hq, fun hgap => (hstands hgap).mono (fun otp hotp ha => ?_) (Nat.le_add_right _ d)⟩
      exact ⟨otp, hotp, ha, rfl⟩

theorem of_idle (h₀ : s.Idle) (hspaced : s.db.Spaced a)
    (hpast : ∀ otp ∈ s.db.passwordResetOtps, otp.authAccountId = a → otp.createdAt ≤ s.clock) :
    s.Cooling cfg a := by
  refine ⟨h₀.fromCode, hspaced, hpast, fun i f hf => ?_⟩
  rw [h₀] at hf
  cases hf

end Server.Cooling

/-! ### Runs -/

/-- At every moment at most one code of an account can be used; and if no request issues one
while another has read the latest code, any two of them are created the cooldown apart. -/
theorem codes_of_an_account (cfg : Config) {a : ℕ} {s₀ s : Server} (h₀ : s₀.Idle)
    (hone : (s₀.db.unconsumed a).length ≤ 1) (hspaced : s₀.db.Spaced a)
    (hpast : ∀ otp ∈ s₀.db.passwordResetOtps, otp.authAccountId = a → otp.createdAt ≤ s₀.clock)
    (hr : Reach (Server.step cfg) (fun _ _ => True) s₀ s) :
    s.db.liveOtps a s.clock ≤ 1 ∧
      (Reach (Server.step cfg) (Server.IssuesAlone a) s₀ s → s.db.Spaced a) := by
  constructor
  · have h := hr.invariant (I := fun s => (s.db.unconsumed a).length ≤ 1) hone
      fun s s' e _ hs _ hstep => by
        rcases Server.step_db hstep with hdb | ⟨outside, op, hdb⟩
        · exact hdb ▸ hs
        · exact hdb ▸ Op.perform_unconsumed hs
    exact (Database.liveOtps_le _ _ _).trans h
  · intro halone
    have h : s.Cooling cfg a := halone.invariant (I := Server.Cooling cfg a)
      (.of_idle h₀ hspaced hpast) fun s s' e _ hs hok hstep => hs.step hok hstep
    exact h.spaced

instance (db : Database) (a : ℕ) : Decidable (db.Spaced a) :=
  inferInstanceAs (Decidable (List.Pairwise _ _))

theorem acme_spaced (a : ℕ) : acme.db.Spaced a := List.Pairwise.nil

theorem acme_past (a : ℕ) (otp : PasswordResetOtp) (h : otp ∈ acme.db.passwordResetOtps)
    (_ : otp.authAccountId = a) : otp.createdAt ≤ acme.clock := by
  cases h

def bobAsks : ServerEvent :=
  .arrive (.requestReset "bob@acme.io" (some "acme")) (acmeContext "")

/-- Every request but the one that makes a call is over. -/
def othersAnswered (s : Server) : ServerEvent → Bool
  | .execute i _ => s.answeredBut i
  | _ => true

theorem othersAnswered.alone {a : ℕ} {s : Server} {e : ServerEvent} (h : othersAnswered s e = true) :
    s.IssuesAlone a e := by
  intro i outside r hash exp now k he _ j f hne hf
  subst he
  exact Server.cautious_of_answered h hne hf

/-- Bob asks twice, the second time after the cooldown. -/
theorem codes_of_bob : ∃ s, Reach (Server.step plainConfig) (Server.IssuesAlone 3) acme s ∧
    s.db.passwordResetOtps.length = 2 ∧ s.db.liveOtps 3 s.clock ≤ 1 ∧ s.db.Spaced 3 := by
  have hrun : (runChecked (Server.step plainConfig) othersAnswered acme
      ([bobAsks] ++ acmeCalls 0 5 ++ [.tick 60000, bobAsks] ++ acmeCalls 1 5)).any
      (fun s => s.db.passwordResetOtps.length = 2) = true := by
    decide +kernel
  obtain ⟨s, hs, hcodes⟩ := (Option.any_eq_true _ _).mp hrun
  have hr : Reach (Server.step plainConfig) (Server.IssuesAlone 3) acme s :=
    .of_runChecked (fun _ _ h => othersAnswered.alone h) hs
  obtain ⟨hlive, hspaced⟩ := codes_of_an_account plainConfig (a := 3) acme_idle (Nat.zero_le 1)
    (acme_spaced 3) (acme_past 3) (hr.mono fun _ _ _ => trivial)
  exact ⟨s, hr, of_decide_eq_true hcodes, hlive, hspaced hr⟩

/-- Two requests read the latest code before either of them issues one. -/
theorem two_codes_at_once : ∃ s, Reach (Server.step plainConfig) (fun _ _ => True) acme s ∧
    s.db.passwordResetOtps.length = 2 ∧ ¬ s.db.Spaced 3 := by
  have hrun : (runAll (Server.step plainConfig) acme
      ([bobAsks, bobAsks] ++ acmeCalls 0 4 ++ acmeCalls 1 4 ++ acmeCalls 0 1 ++ acmeCalls 1 1)).any
      (fun s => s.db.passwordResetOtps.length = 2 && !decide (s.db.Spaced 3)) = true := by
    decide +kernel
  obtain ⟨s, hs, hcodes⟩ := (Option.any_eq_true _ _).mp hrun
  simp only [Bool.and_eq_true, Bool.not_eq_true', decide_eq_true_eq, decide_eq_false_iff_not] at hcodes
  exact ⟨s, .of_runAll (.of_labels (fun _ _ _ => trivial) _) hs, hcodes.1, hcodes.2⟩

end Flexi.Accounts
