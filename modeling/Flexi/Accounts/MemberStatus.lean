import Flexi.Accounts.MemberRows
import Flexi.Accounts.RequestCalls
import Flexi.Library.History

/-!
# Status and access of a member

`status` says where a member stands, `isActive` whether it may log in. Every operation
that writes the one writes the other with it, but for `deactivate` and `activate`.
-/

namespace Flexi.Accounts
open Flexi.Library

/-- The statuses of members who have no access. -/
def TenantUserStatus.barred : TenantUserStatus → Bool
  | LOCKED | DELETED | PENDING_INVITE | PENDING_APPROVAL => true
  | ACTIVE | PENDING_SETUP => false

/-- Who has no access is not active. -/
def Database.Agrees (db : Database) : Prop :=
  ∀ user ∈ db.tenantUsers, user.status.barred = true → user.isActive = false

/-- No member of this id is barred. -/
def Database.Admissible (db : Database) (userId : ℕ) : Prop :=
  ∀ user ∈ db.tenantUsers, user.id = userId → user.status.barred = false

section
variable {cfg : Config} {outside : Outside} {db : Database} {op : Op}

theorem Op.Rewrites.agrees {old new : TenantUser} (h : op.Rewrites old new)
    (hop : ∀ userId, op = .activate .TENANT userId → old.status.barred = false)
    (hold : old.status.barred = true → old.isActive = false) (hnew : new.status.barred = true) :
    new.isActive = false := by
  cases op with
  | deactivate actorType userId a now =>
    cases actorType with
    | TENANT =>
      obtain ⟨-, rfl⟩ := h
      rfl
    | SYSTEM => exact h.elim
  | activate actorType userId =>
    cases actorType with
    | TENANT =>
      obtain ⟨-, rfl⟩ := h
      exact absurd hnew (by simp [hop userId rfl])
    | SYSTEM => exact h.elim
  | approveUser userId | unlockUser userId =>
    obtain ⟨-, rfl⟩ := h
    cases hnew
  | lockUser userId a now | softDelete userId a now =>
    obtain ⟨-, rfl⟩ := h
    rfl
  | revokeInvite existing now =>
    obtain ⟨-, rfl⟩ := h
    rfl
  | updateTenantUser userId name roles =>
    obtain ⟨-, rfl⟩ := h
    exact hold hnew
  | redeemInvite invite user hash fullName now =>
    obtain ⟨-, rfl⟩ := h
    cases hnew
  | _ => exact h.elim

theorem Op.Creates.agrees {new : TenantUser} (h : op.Creates new)
    (hnew : new.status.barred = true) : new.isActive = false := by
  cases op with
  | directCreate tenantId email fullName hash roleId =>
    rw [h.2.1] at hnew
    cases hnew
  | register tenantId email fullName hash requiresApproval roleId =>
    rw [h.2.1] at hnew
    cases requiresApproval with
    | true => exact h.2.2.1
    | false => cases hnew
  | createInvites tenantId roleId prepared invitedById => exact h.2.2.1
  | _ => exact h.elim

theorem Op.perform_agrees (h : db.Agrees)
    (hop : ∀ userId, op = .activate .TENANT userId → db.Admissible userId) :
    (op.perform cfg outside db).2.Agrees := by
  intro user huser hbarred
  rcases Op.perform_member huser with hold | ⟨old, hold, hrewrites⟩ | ⟨-, -, hcreates⟩
  · exact h user hold hbarred
  · refine hrewrites.agrees (fun userId he => ?_) (h old hold) hbarred
    subst he
    exact hop userId rfl old hold hrewrites.1
  · exact hcreates.agrees hbarred

end

/-! ### Runs -/

/-- A member is activated only while it is not barred; a fault activates nobody. -/
def Server.activatesAdmissible (s : Server) (e : ServerEvent) : Prop :=
  ∀ i outside r userId k, e = .execute i outside → outside.fault = false →
    s.requests[i]? = some ⟨r, .awaiting (.activate .TENANT userId) k⟩ → s.db.Admissible userId

theorem Server.agrees_step {cfg : Config} {s s' : Server} {e : ServerEvent} (h : s.db.Agrees)
    (hok : s.activatesAdmissible e) (hs : s.step cfg e = some s') : s'.db.Agrees := by
  cases e with
  | arrive r c =>
    obtain ⟨-, rfl⟩ := step_arrive hs
    exact h
  | execute i outside =>
    obtain ⟨r, op, k, hi, rfl⟩ := step_execute hs
    by_cases hf : outside.fault = true
    · have hdb : (s.perform cfg outside op).2 = s.db := by
        rw [perform, Op.perform, if_pos hf]
      exact hdb ▸ h
    · refine Op.perform_agrees h fun userId he => ?_
      subst he
      exact hok i outside r userId k rfl (by simpa using hf) hi
  | deliver i c =>
    obtain ⟨r, op, answer, k, -, rfl⟩ := step_deliver hs
    exact h
  | tick d =>
    cases step_tick hs
    exact h

theorem Server.activatesAdmissible_of_agrees {cfg : Config} {s s' : Server} {e : ServerEvent}
    (h : s'.db.Agrees) (hs : s.step cfg e = some s') : s.activatesAdmissible e := by
  intro i outside r userId k he hf hi user huser hid
  subst he
  obtain ⟨r', op, k', hi', rfl⟩ := step_execute hs
  cases hi.symm.trans hi'
  by_contra hbarred
  have hbarred : user.status.barred = true := by simpa using hbarred
  have hmem : { user with isActive := true } ∈
      (s.perform cfg outside (.activate .TENANT userId)).2.tenantUsers := by
    have hsome : ∃ row, s.db.member? userId = some row := by
      apply Option.isSome_iff_exists.mp
      exact List.find?_isSome.mpr ⟨user, huser, by simpa using hid⟩
    obtain ⟨row, hrow⟩ := hsome
    rw [perform, Op.perform, if_neg (by simp [hf]), Op.effect, Database.setActorActive,
      Database.ifMember, hrow]
    exact mem_updateMany.mpr ⟨user, huser, by simp [hid]⟩
  have hinactive := h _ hmem hbarred
  cases hinactive

/-- In a run in which members are activated only while they are not barred, whoever is
barred is not active; and the first step that activates a barred member ends this. -/
theorem barred_members_inactive (cfg : Config) {s₀ s : Server} (h₀ : s₀.db.Agrees)
    (hr : Reach (Server.step cfg) Server.activatesAdmissible s₀ s) :
    s.db.Agrees ∧ ∀ e s', s.step cfg e = some s' → (s'.db.Agrees ↔ s.activatesAdmissible e) := by
  have hs : s.db.Agrees :=
    hr.invariant (I := fun s => s.db.Agrees) h₀ fun _ _ _ _ h hok hstep => Server.agrees_step h hok hstep
  exact ⟨hs, fun e s' hstep => ⟨fun h => Server.activatesAdmissible_of_agrees h hstep,
    fun hok => Server.agrees_step hs hok hstep⟩⟩

theorem acme_agrees : acmeDb.Agrees := by
  intro user huser hbarred
  revert user
  decide

/-- `activatesAdmissible` as a test. -/
def Server.activatesUnbarred (s : Server) : ServerEvent → Bool
  | .execute i _ => match s.requests[i]? with
    | some ⟨_, .awaiting (.activate .TENANT userId) _⟩ =>
      s.db.tenantUsers.all fun user => user.id ≠ userId || !user.status.barred
    | _ => true
  | _ => true

theorem Server.activatesAdmissible_of_unbarred {s : Server} {e : ServerEvent}
    (h : s.activatesUnbarred e = true) : s.activatesAdmissible e := by
  intro i outside r userId k he _ hi user huser hid
  subst he
  simp only [activatesUnbarred, hi] at h
  have hrow := List.all_eq_true.mp h user huser
  simpa [hid] using hrow

/-- Ann deactivates Bob and activates him again. -/
theorem barred_members_inactive_acme : ∃ s,
    Reach (Server.step plainConfig) Server.activatesAdmissible acme s ∧ s.db.Agrees ∧
    ∀ e s', s.step plainConfig e = some s' → (s'.db.Agrees ↔ s.activatesAdmissible e) := by
  have hrun : (runChecked (Server.step plainConfig) Server.activatesUnbarred acme
      ([.arrive (.deactivate 5 ann) (acmeContext "")] ++ acmeCalls 0 3 ++
        [.arrive (.activate 5 ann) (acmeContext "")] ++ acmeCalls 1 3)).isSome = true := by
    decide +kernel
  obtain ⟨s, hs⟩ := Option.isSome_iff_exists.mp hrun
  have hr : Reach (Server.step plainConfig) Server.activatesAdmissible acme s :=
    .of_runChecked (fun _ _ h => Server.activatesAdmissible_of_unbarred h) hs
  exact ⟨s, hr, barred_members_inactive plainConfig acme_agrees hr⟩

/-- Ann locks Bob and then activates him: Bob is locked and active. -/
theorem activation_of_locked_member : ∃ s, Reach (Server.step plainConfig) (fun _ _ => True) acme s ∧
    acme.db.Agrees ∧ ∃ user ∈ s.db.tenantUsers, user.status = .LOCKED ∧ user.isActive = true := by
  have hrun : (runAll (Server.step plainConfig) acme
      ([.arrive (.lockUser 5 ann) (acmeContext "")] ++ acmeCalls 0 3 ++
        [.arrive (.activate 5 ann) (acmeContext "")] ++ acmeCalls 1 3)).any (fun s =>
      s.db.tenantUsers.any fun user => user.status = .LOCKED && user.isActive) = true := by
    decide +kernel
  obtain ⟨s, hs, h⟩ := (Option.any_eq_true _ _).mp hrun
  obtain ⟨user, huser, h⟩ := List.any_eq_true.mp h
  simp only [Bool.and_eq_true, decide_eq_true_eq] at h
  exact ⟨s, .of_runAll (.of_labels (fun _ _ _ => trivial) _) hs, acme_agrees, user, huser, h⟩

end Flexi.Accounts
