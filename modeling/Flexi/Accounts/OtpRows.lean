import Flexi.Accounts.Keys

/-!
# What an operation can do to a reset code

A code is created by `issueOtp` alone; otherwise codes are consumed, their counters
raised, or they go with their account.
-/

namespace Flexi.Accounts
open Flexi.Library

/-- A row later on. -/
structure PasswordResetOtp.Evolves (old new : PasswordResetOtp) : Prop where
  id : new.id = old.id
  authAccountId : new.authAccountId = old.authAccountId
  otpHash : new.otpHash = old.otpHash
  createdAt : new.createdAt = old.createdAt
  consumed : old.consumedAt ≠ none → new.consumedAt ≠ none
  attempts : old.attemptCount ≤ new.attemptCount
  budget : new.consumedAt = none → new.attemptCount = old.attemptCount ∨
    new.attemptCount < PASSWORD_RESET_OTP_MAX_ATTEMPTS

theorem PasswordResetOtp.Evolves.refl (otp : PasswordResetOtp) : otp.Evolves otp :=
  ⟨rfl, rfl, rfl, rfl, fun h => h, le_rfl, fun _ => .inl rfl⟩

/-- The rows that are left, in their order. -/
def OtpsEvolve (db db' : Database) : Prop :=
  ∃ (p : PasswordResetOtp → Bool) (f : PasswordResetOtp → PasswordResetOtp),
    (∀ otp, PasswordResetOtp.Evolves otp (f otp)) ∧
    db'.passwordResetOtps = (db.passwordResetOtps.filter p).map f

/-- The row that `issueOtp` adds. -/
def Database.newOtp (db : Database) (clock authAccountId : ℕ) (otpHash : String) (expiresAt : ℕ) :
    PasswordResetOtp :=
  { id := db.nextId, authAccountId := authAccountId, otpHash := otpHash, expiresAt := expiresAt,
    createdAt := clock }

section
variable {cfg : Config} {outside : Outside} {db db' : Database} {op : Op}

theorem OtpsEvolve.of_eq (h : db'.passwordResetOtps = db.passwordResetOtps) : OtpsEvolve db db' := by
  refine ⟨fun _ => true, fun otp => otp, PasswordResetOtp.Evolves.refl, ?_⟩
  rw [h, List.filter_true, List.map_id']

theorem OtpsEvolve.updateMany {p : PasswordResetOtp → Bool} {f : PasswordResetOtp → PasswordResetOtp}
    (h : db'.passwordResetOtps = Library.updateMany p f db.passwordResetOtps)
    (hf : ∀ otp : PasswordResetOtp, p otp = true → otp.Evolves (f otp)) : OtpsEvolve db db' := by
  refine ⟨fun _ => true, fun otp => if p otp then f otp else otp, fun otp => ?_, ?_⟩
  · dsimp only
    split
    · exact hf otp ‹_›
    · exact .refl otp
  · rw [h, List.filter_true]
    rfl

theorem Database.consumeOtps_evolve {p : PasswordResetOtp → Bool} {now : ℕ}
    (h : db'.passwordResetOtps = (db.consumeOtps p now).passwordResetOtps) : OtpsEvolve db db' :=
  .updateMany h fun _ _ =>
    ⟨rfl, rfl, rfl, rfl, fun _ => Option.some_ne_none now, le_rfl, fun _ => .inl rfl⟩

theorem Database.recordMiss_evolve {otp : PasswordResetOtp} {now : ℕ} :
    OtpsEvolve db (db.recordMiss otp now) := by
  refine .updateMany rfl fun row hrow => ?_
  simp only [Bool.and_eq_true, decide_eq_true_eq] at hrow
  refine ⟨rfl, rfl, rfl, rfl, fun hconsumed => absurd hrow.1.2 hconsumed, ?_, fun hnone => .inr ?_⟩
  · show row.attemptCount ≤ otp.attemptCount + 1
    omega
  · show otp.attemptCount + 1 < PASSWORD_RESET_OTP_MAX_ATTEMPTS
    by_contra hspent
    have hconsumed : decide (PASSWORD_RESET_OTP_MAX_ATTEMPTS ≤ otp.attemptCount + 1) = true :=
      decide_eq_true (Nat.le_of_not_lt hspent)
    simp only [hconsumed, if_true] at hnone
    cases hnone

theorem Database.issueOtp_cases (db : Database) (clock a : ℕ) (hash : String) (exp now : ℕ) :
    (∃ e, db.issueOtp clock a hash exp now = (.error e, db)) ∨
    db.issueOtp clock a hash exp now = (.ok (), { db with
      passwordResetOtps := (db.consumeOtps (fun otp => otp.authAccountId = a) now).passwordResetOtps
        ++ [db.newOtp clock a hash exp]
      nextId := db.nextId + 1 }) := by
  unfold issueOtp
  split
  · exact .inl ⟨_, rfl⟩
  · exact .inr rfl

theorem Op.effect_otps (h : ∀ a hash exp now, op ≠ issueOtp a hash exp now) :
    OtpsEvolve db (op.effect cfg outside db).2 := by
  by_cases hw : Table.passwordResetOtps ∈ op.writes
  · cases op with
    | issueOtp a hash exp now => exact absurd rfl (h a hash exp now)
    | consumeExpiredOtp otp now => exact Database.consumeOtps_evolve rfl
    | burnOtps a now => exact Database.consumeOtps_evolve rfl
    | recordMiss otp now => exact Database.recordMiss_evolve
    | resetPassword otp a hash now =>
      rw [effect, Database.resetPassword]
      split
      · exact .of_eq rfl
      · exact Database.ifAccount_keeps (.of_eq rfl) fun _ _ => Database.consumeOtps_evolve rfl
    | hardDelete source target now =>
      rcases effect_hardDelete source target now with he | he
      · rw [he]
        exact .of_eq rfl
      · rw [he]
        refine ⟨fun otp => otp.authAccountId ≠ source.authAccountId, fun otp => otp,
          PasswordResetOtp.Evolves.refl, ?_⟩
        rw [List.map_id']
        rfl
    | _ => simp [writes] at hw
  · exact .of_eq (effect_rows (t := .passwordResetOtps) hw)

theorem Op.perform_otps (cfg : Config) (outside : Outside) (op : Op) (db : Database) :
    OtpsEvolve db (op.perform cfg outside db).2 ∨
    ∃ a hash exp now, op = .issueOtp a hash exp now ∧ (op.perform cfg outside db).2 = { db with
      passwordResetOtps := (db.consumeOtps (fun otp => otp.authAccountId = a) now).passwordResetOtps
        ++ [db.newOtp outside.now a hash exp]
      nextId := db.nextId + 1 } := by
  rcases perform_cases cfg outside op db with ⟨hdb, -⟩ | heffect
  · rw [hdb]
    exact .inl (.of_eq rfl)
  rw [heffect]
  by_cases hop : ∀ a hash exp now, op ≠ .issueOtp a hash exp now
  · exact .inl (effect_otps hop)
  · obtain ⟨a, hash, exp, now, rfl⟩ : ∃ a hash exp now, op = .issueOtp a hash exp now := by
      simpa using hop
    rw [effect]
    rcases db.issueOtp_cases outside.now a hash exp now with ⟨e, he⟩ | he
    · rw [he]
      exact .inl (.of_eq rfl)
    · rw [he]
      exact .inr ⟨a, hash, exp, now, rfl, rfl⟩

/-- A row comes from an earlier one, or is the new code. -/
theorem Op.perform_otp {new : PasswordResetOtp}
    (h : new ∈ (op.perform cfg outside db).2.passwordResetOtps) :
    (∃ old ∈ db.passwordResetOtps, old.Evolves new) ∨
    ∃ a hash exp now, op = .issueOtp a hash exp now ∧ new = db.newOtp outside.now a hash exp ∧
      (op.perform cfg outside db).2.nextId = db.nextId + 1 := by
  rcases perform_otps cfg outside op db with ⟨p, f, hf, hrows⟩ | ⟨a, hash, exp, now, hop, hdb⟩
  · rw [hrows] at h
    obtain ⟨old, hold, rfl⟩ := List.mem_map.mp h
    exact .inl ⟨old, (List.mem_filter.mp hold).1, hf old⟩
  · rw [hdb] at h ⊢
    rcases List.mem_append.mp h with hold | hnew
    · obtain ⟨old, hmem, rfl⟩ := mem_updateMany.mp hold
      refine .inl ⟨old, hmem, ?_⟩
      split
      · exact ⟨rfl, rfl, rfl, rfl, fun _ => Option.some_ne_none now, le_rfl, fun _ => .inl rfl⟩
      · exact .refl old
    · exact .inr ⟨a, hash, exp, now, hop, List.mem_singleton.mp hnew, rfl⟩

/-- A code that has not been consumed has guesses left, and its id is given out once. -/
structure Database.OtpsKeyed (db : Database) : Prop where
  ids : ∀ otp ∈ db.passwordResetOtps, otp.id < db.nextId
  unique : (db.passwordResetOtps.map PasswordResetOtp.id).Nodup
  budget : ∀ otp ∈ db.passwordResetOtps, otp.consumedAt = none →
    otp.attemptCount < PASSWORD_RESET_OTP_MAX_ATTEMPTS

theorem Op.perform_otpIds (h : db.OtpsKeyed) :
    ((op.perform cfg outside db).2.passwordResetOtps.map PasswordResetOtp.id).Nodup := by
  rcases perform_otps cfg outside op db with ⟨p, f, hf, hrows⟩ | ⟨a, hash, exp, now, -, hdb⟩
  · rw [hrows, List.map_map]
    have hids : (db.passwordResetOtps.filter p).map (PasswordResetOtp.id ∘ f) =
        (db.passwordResetOtps.filter p).map PasswordResetOtp.id :=
      List.map_congr_left fun otp _ => (hf otp).id
    rw [hids]
    exact (List.filter_sublist.map _).nodup h.unique
  · have hids : (db.consumeOtps (fun otp => otp.authAccountId = a) now).passwordResetOtps.map
        PasswordResetOtp.id = db.passwordResetOtps.map PasswordResetOtp.id :=
      map_updateMany fun _ => rfl
    rw [hdb, List.map_append, hids, List.nodup_append]
    refine ⟨h.unique, List.nodup_singleton _, ?_⟩
    intro id hid id' hid' heq
    obtain ⟨old, hold, rfl⟩ := List.mem_map.mp hid
    cases List.mem_singleton.mp hid'
    exact absurd heq (h.ids old hold).ne

theorem Database.OtpsKeyed.perform (h : db.OtpsKeyed) : (op.perform cfg outside db).2.OtpsKeyed := by
  have hn : db.nextId ≤ (op.perform cfg outside db).2.nextId := Op.perform_accounts.nextId
  refine ⟨fun otp hmem => ?_, Op.perform_otpIds h, fun otp hmem hnone => ?_⟩
  · rcases Op.perform_otp hmem with ⟨old, hold, he⟩ | ⟨a, hash, exp, now, -, rfl, hnext⟩
    · rw [he.id]
      exact (h.ids old hold).trans_le hn
    · rw [hnext]
      exact Nat.lt_succ_self _
  · rcases Op.perform_otp hmem with ⟨old, hold, he⟩ | ⟨a, hash, exp, now, -, rfl, -⟩
    · rcases he.budget hnone with heq | hlt
      · have hold' : old.consumedAt = none := by
          by_contra hconsumed
          exact he.consumed hconsumed hnone
        rw [heq]
        exact h.budget old hold hold'
      · exact hlt
    · exact Nat.zero_lt_succ _

theorem Database.latestOtp_mem {p : PasswordResetOtp → Bool} {otp : PasswordResetOtp}
    (h : db.latestOtp p = some otp) : otp ∈ db.passwordResetOtps ∧ p otp = true := by
  have hend := foldl_mem h fun best row => by
    cases best with
    | none => exact .inl rfl
    | some b =>
      dsimp only
      split
      · exact .inl rfl
      · exact .inr rfl
  rcases hend with hmem | hnone
  · exact List.mem_filter.mp hmem
  · cases hnone

theorem Database.latestOtp_newest {p : PasswordResetOtp → Bool} {otp : PasswordResetOtp}
    (hmem : otp ∈ db.passwordResetOtps) (hp : p otp = true) :
    ∃ latest, db.latestOtp p = some latest ∧ otp.createdAt ≤ latest.createdAt := by
  refine foldl_bounds PasswordResetOtp.createdAt (List.mem_filter.mpr ⟨hmem, hp⟩) fun best row => ?_
  cases best with
  | none =>
    refine ⟨row, rfl, le_rfl, fun b hb => ?_⟩
    cases hb
  | some b =>
    dsimp only
    split
    · refine ⟨row, rfl, le_rfl, fun b' hb => ?_⟩
      cases hb
      omega
    · refine ⟨b, rfl, by omega, fun b' hb => ?_⟩
      cases hb
      exact le_rfl

end

end Flexi.Accounts
