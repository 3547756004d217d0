import Flexi.Accounts.ServedAlone
import Flexi.Library.Outcome
import Flexi.Library.Reach

/-!
# Locking a member and unlocking it

`unlockUser` makes a member active and has no record of what it was before `lockUser`.
-/

namespace Flexi.Accounts
open Flexi.Library

/-- The member that a user of tenant `tenantId` may change under this id. -/
structure Database.Resolves (db : Database) (userId : ℕ) (user : AuthenticatedUser)
    (tenantId : String)
    (target : TenantUser) : Prop where
  caller : user.ActsFor tenantId
  permission : user.permissions.contains TENANT_USER_MANAGE_PERMISSION = true
  found : (db.tenantUsers.find? fun row => row.id = userId && row.tenantId = tenantId) = some target
  account : (db.account? target.authAccountId).isSome = true
  live : target.status ≠ .DELETED

namespace Database.Resolves

variable {db : Database} {userId : ℕ} {user : AuthenticatedUser} {tenantId : String}
    {target : TenantUser}

theorem mem (h : db.Resolves userId user tenantId target) : target ∈ db.tenantUsers :=
  List.mem_of_find?_eq_some h.found

theorem id (h : db.Resolves userId user tenantId target) : target.id = userId := by
  have hcond := List.find?_some h.found
  simp only [Bool.and_eq_true, decide_eq_true_eq] at hcond
  exact hcond.1

theorem member? (h : db.Resolves userId user tenantId target) (hdb : db.Identified) :
    db.member? userId = some target := by
  have hmember : (db.member? userId).isSome = true :=
    List.find?_isSome.mpr ⟨target, h.mem, by simpa using h.id⟩
  obtain ⟨row, hrow⟩ := Option.isSome_iff_exists.mp hmember
  have hid : row.id = userId := by simpa using List.find?_some hrow
  rw [hrow, hdb.members.inj (List.mem_of_find?_eq_some hrow) h.mem (hid.trans h.id.symm)]

end Database.Resolves

section
variable {cfg : Config} {v : Serving} {d : Database} {F : Prop} {userId : ℕ}
    {user : AuthenticatedUser}

theorem resolveTenantTarget_alone {message : String} (hfault : v.Faults → F)
    (hno : (∀ t target, ¬ d.Resolves userId user t target) → F) :
    Outline (v.rules cfg) (· = d) (resolveTenantTarget userId user message)
      (fun target db => db = d ∧ ∃ t, d.Resolves userId user t target) fun _ _ => F := by
  unfold resolveTenantTarget
  refine alone_bind (requireTenantActor_alone fun h => hno fun t target hr => h t hr.caller) ?_
  intro tenantId htenant
  have hsame {t : String} {target : TenantUser} (hr : d.Resolves userId user t target) :
      t = tenantId :=
    Option.some.inj (hr.caller.2.1.symm.trans htenant.2.1)
  refine alone_bind (assertActorPermission_alone htenant fun h => hno fun t target hr => ?_) ?_
  · cases h.symm.trans hr.permission
  intro _ hpermission
  refine alone_request (fun _ => rfl) hfault ?_
  cases hfind : d.tenantUsers.find? fun row => row.id = userId && row.tenantId = tenantId with
  | none =>
    refine alone_fail (hno fun t target hr => ?_)
    cases hsame hr
    cases hfind.symm.trans hr.found
  | some target =>
    cases haccount : d.account? target.authAccountId with
    | none =>
      have hrow : d.tenantUserRow target = none := by rw [Database.tenantUserRow, haccount]; rfl
      rw [Option.bind_some, hrow]
      refine alone_fail (hno fun t other hr => ?_)
      cases hsame hr
      cases hfind.symm.trans hr.found
      exact absurd hr.account (by simp [haccount])
    | some account =>
      have hrow : d.tenantUserRow target = some ⟨target, account, d.rolesOf target.roles⟩ := by
        rw [Database.tenantUserRow, haccount]; rfl
      rw [Option.bind_some, hrow]
      dsimp only
      split
      · rename_i hdeleted
        refine alone_fail (hno fun t other hr => ?_)
        cases hsame hr
        cases hfind.symm.trans hr.found
        exact hr.live hdeleted
      · rename_i hlive
        exact .pure fun db hdb =>
            ⟨hdb, tenantId, htenant, hpermission, hfind, by simp [haccount], hlive⟩

/-- What a successful `lockUser` has found and done. -/
def Database.Locks (db : Database) (userId : ℕ) (user : AuthenticatedUser) (db' : Database) :
    Prop :=
  ∃ tenantId target now, db.Resolves userId user tenantId target ∧ target.status = .ACTIVE ∧
    db' = ((db.updateMember userId fun row =>
      { row with status := .LOCKED, isActive := false }).revokeLiveSessions target.authAccountId
          now).2

theorem Database.lockUser_member {authAccountId now : ℕ} {member : TenantUser}
    (hmember : d.member? userId = some member) :
    d.setStatusAndRevoke userId .LOCKED authAccountId now =
      (.ok ({ member with status := .LOCKED, isActive := false },
          ((d.updateMember userId fun row =>
            { row with status := .LOCKED, isActive := false }).revokeLiveSessions authAccountId
                now).1),
        ((d.updateMember userId fun row =>
          { row with status := .LOCKED, isActive := false }).revokeLiveSessions authAccountId
              now).2) := by
  rw [setStatusAndRevoke, setStatus, ifMember, hmember]

theorem lockUser_alone (hd : d.Identified) :
    Outline (v.rules cfg) (· = d) (lockUser userId user) (fun _ db => d.Locks userId user db)
      fun _ _ => True := by
  refine alone_bind (resolveTenantTarget_alone (fun _ => trivial) fun _ => trivial) ?_
  rintro target ⟨tenantId, htarget⟩
  split
  · exact alone_fail trivial
  · split
    · exact alone_fail trivial
    · rename_i hstatus
      refine alone_now fun i => ?_
      have hmember := htarget.member? hd
      rw [← htarget.id] at hmember
      refine alone_request (fun _ => Database.lockUser_member hmember) (fun _ => trivial) ?_
      · refine .pure fun db hdb => ?_
        exact ⟨tenantId, target, (v.ctx i).now, htarget, by simpa using hstatus,
          by rw [hdb, htarget.id]⟩

theorem Database.unlockUser_member {member : TenantUser}
    (hmember : d.member? userId = some member) :
    d.setStatus userId .ACTIVE true = (.ok { member with status := .ACTIVE, isActive := true },
      d.updateMember userId fun row => { row with status := .ACTIVE, isActive := true }) := by
  rw [setStatus, ifMember, hmember]

/-- What `unlockUser` asks for. -/
def Database.Unlockable (db : Database) (userId : ℕ) (user : AuthenticatedUser) : Prop :=
  db.Admits user ∧ ∃ tenantId target, db.Resolves userId user tenantId target ∧
      target.status = .LOCKED

theorem unlockUser_alone (hd : d.Identified) :
    Outline (v.rules cfg) (· = d) (unlockUser userId user)
      (fun _ db => db = d.updateMember userId fun row =>
          { row with status := .ACTIVE, isActive := true })
      fun _ _ => v.Faults ∨ ¬ d.Unlockable userId user := by
  refine alone_bind (resolveTenantTarget_alone .inl fun hno => .inr ?_) ?_
  · rintro ⟨-, t, target, hr, -⟩
    exact hno t target hr
  rintro target ⟨tenantId, htarget⟩
  have hmember := htarget.member? hd
  split
  · rename_i hstatus
    refine alone_fail (.inr ?_)
    rintro ⟨-, t, other, hr, hlocked⟩
    cases hmember.symm.trans (hr.member? hd)
    exact hstatus hlocked
  · rw [← htarget.id] at hmember ⊢
    exact alone_request (fun _ => Database.unlockUser_member hmember) .inl (.pure fun db hdb => hdb)

theorem Serving.locks (hd : d.Identified) (hv : v.request = .lockUser userId user) {r : Response}
    (h : (v.serve cfg d).1 = .ok r) : d.Admits user ∧ d.Locks userId user (v.serve cfg d).2 := by
  have huser : v.request.user? = some user := by rw [hv]; rfl
  have hguarded : d.Admits user → Outline (v.rules cfg) (· = d) (v.request.handler cfg)
      (fun _ db => d.Admits user ∧ d.Locks userId user db) fun _ _ => True := by
    intro hadmits
    rw [hv]
    exact (lockUser_alone hd).conseq (fun _ h => h) (fun _ _ h => ⟨hadmits, h⟩) fun _ _ h => h
  rcases serve_guarded huser (fun _ => trivial)
      (fun _ => trivial) hguarded with ⟨r', -, hlocks⟩ | ⟨e, he, -⟩
  · exact hlocks
  · cases h.symm.trans he

theorem Serving.unlocks (cfg : Config) (hd : d.Identified)
    (hv : v.request = .unlockUser userId user) :
    (∃ r, (v.serve cfg d).1 = .ok r ∧ (v.serve cfg d).2 =
      d.updateMember userId fun row => { row with status := .ACTIVE, isActive := true }) ∨
    ∃ e, (v.serve cfg d).1 = .error e ∧ (v.Faults ∨ ¬ d.Unlockable userId user) := by
  have huser : v.request.user? = some user := by rw [hv]; rfl
  have hguarded : Outline (v.rules cfg) (· = d) (v.request.handler cfg)
      (fun _ db => db = d.updateMember userId fun row =>
          { row with status := .ACTIVE, isActive := true })
      fun _ _ => v.Faults ∨ ¬ d.Unlockable userId user := by
    rw [hv]
    exact unlockUser_alone hd
  exact serve_guarded huser .inl (fun hno => .inr fun h => hno h.1) fun _ => hguarded

/-! ### One after the other -/

theorem Database.Locks.unlockable {d' : Database} (h : d.Locks userId user d')
    (hadmits : d.Admits user) :
    d'.Unlockable userId user := by
  obtain ⟨tenantId, target, now, htarget, -, rfl⟩ := h
  refine ⟨hadmits, tenantId, { target with status := .LOCKED, isActive := false }, ?_, rfl⟩
  refine ⟨htarget.caller, htarget.permission, ?_, htarget.account, fun h => nomatch h⟩
  have hfind := find?_updateMany d.tenantUsers (p := (·.id = userId))
    (f := fun row => { row with status := .LOCKED, isActive := false })
    (q := fun row : TenantUser => row.id = userId && row.tenantId = tenantId) fun _ => rfl
  rw [htarget.found] at hfind
  refine hfind.trans ?_
  simp [htarget.id]

theorem Database.Locks.identified {d' : Database} (h : d.Locks userId user d') (hd : d.Identified) :
    d'.Identified := by
  obtain ⟨tenantId, target, now, -, -, rfl⟩ := h
  have hlocked : (d.updateMember userId fun row =>
      { row with status := .LOCKED, isActive := false }).Identified := hd.updateMember fun _ => rfl
  exact hlocked.of_eq rfl rfl le_rfl

theorem Database.Locks.unlocked {d' : Database} (h : d.Locks userId user d') (hd : d.Identified) :
    ∃ member, d.member? userId = some member ∧ member.status = .ACTIVE ∧
      (d'.updateMember userId fun row =>
          { row with status := .ACTIVE, isActive := true }).member? userId =
        some { member with isActive := true } := by
  obtain ⟨tenantId, target, now, htarget, hactive, rfl⟩ := h
  have hmember := htarget.member? hd
  refine ⟨target, hmember, hactive, ?_⟩
  have hlocked := find?_updateMany d.tenantUsers (p := (·.id = userId))
    (f := fun row => { row with status := .LOCKED, isActive := false })
    (q := fun row : TenantUser => row.id = userId) fun _ => rfl
  have hunlocked := find?_updateMany
    (d.updateMember userId fun row => { row with status := .LOCKED, isActive := false }).tenantUsers
    (p := (·.id = userId))
    (f := fun row => { row with status := .ACTIVE, isActive := true })
    (q := fun row : TenantUser => row.id = userId) fun _ => rfl
  rw [Database.member?] at hmember
  rw [hmember] at hlocked
  refine hunlocked.trans ?_
  rw [Database.updateMember, hlocked]
  simp [htarget.id, ← hactive]

end

theorem Server.identified {cfg : Config} {s₀ s : Server} (h₀ : s₀.db.Identified)
    (hr : Reach (Server.step cfg) (fun _ _ => True) s₀ s) : s.db.Identified := by
  refine hr.invariant (I := fun s => s.db.Identified) h₀ fun s s' e _ h _ hs => ?_
  exact step_keeps (P := Database.Identified) hs h fun _ _ _ _ _ _ => h.perform

/-- Whoever has locked a member can unlock it, and then the member is as it was if and only
if it was active before. -/
theorem lock_then_unlock (cfg : Config) {s₀ s : Server} (h₀ : s₀.db.Identified)
    (hr : Reach (Server.step cfg) (fun _ _ => True) s₀ s) {member : TenantUser}
    (hmember : member ∈ s.db.tenantUsers) {lock unlock : Serving} {admin admin' : AuthenticatedUser}
    (hlock : lock.request = .lockUser member.id admin)
    (hunlock : unlock.request = .unlockUser member.id admin')
    {r : Response} (hlocked : (lock.serve cfg s.db).1 = .ok r) :
    (admin' = admin → ¬ unlock.Faults →
        ∃ r', (unlock.serve cfg (lock.serve cfg s.db).2).1 = .ok r') ∧
    ∀ r', (unlock.serve cfg (lock.serve cfg s.db).2).1 = .ok r' →
      ((∃ after, (unlock.serve cfg (lock.serve cfg s.db).2).2.member? member.id = some after ∧
        after.status = member.status ∧ after.isActive = member.isActive) ↔
            member.isActive = true) := by
  have hd := Server.identified h₀ hr
  obtain ⟨hadmits, hlocks⟩ := Serving.locks hd hlock hlocked
  have hd' := hlocks.identified hd
  refine ⟨fun hsame hquiet => ?_, fun r' hr' => ?_⟩
  · subst hsame
    rcases Serving.unlocks cfg hd' hunlock with ⟨r', hr', -⟩ | ⟨e, -, hfault | hno⟩
    · exact ⟨r', hr'⟩
    · exact absurd hfault hquiet
    · exact absurd (hlocks.unlockable hadmits) hno
  · rcases Serving.unlocks cfg hd' hunlock with ⟨-, -, hdb⟩ | ⟨e, he, -⟩
    · obtain ⟨found, hfound, hactive, hafter⟩ := hlocks.unlocked hd
      have hsame : found = member := by
        have hid : found.id = member.id := by simpa using List.find?_some hfound
        exact hd.members.inj (List.mem_of_find?_eq_some hfound) hmember hid
      subst hsame
      rw [hdb, hafter]
      constructor
      · rintro ⟨after, heq, -, hsame⟩
        cases heq
        exact hsame.symm
      · intro hwas
        exact ⟨_, rfl, rfl, hwas.symm⟩
    · cases hr'.symm.trans he

/-- Ann locks Bob and unlocks him. -/
theorem lock_then_unlock_acme :
    (∃ r, ((Request.undisturbed (.unlockUser 5 ann)).serve plainConfig
      ((Request.undisturbed (.lockUser 5 ann)).serve plainConfig acmeDb).2).1 = .ok r) ∧
    ∃ after, ((Request.undisturbed (.unlockUser 5 ann)).serve plainConfig
      ((Request.undisturbed (.lockUser 5 ann)).serve plainConfig acmeDb).2).2.member? 5
          = some after ∧
      after.status = .ACTIVE ∧ after.isActive = true := by
  have hquiet : ¬ (Request.undisturbed (.unlockUser 5 ann)).Faults := fun ⟨_, h⟩ => by cases h
  have hlocked : ∃ r, ((Request.undisturbed (.lockUser 5 ann)).serve plainConfig acmeDb).1 = .ok
      r :=
    ⟨_, rfl⟩
  obtain ⟨r, hr⟩ := hlocked
  have hpair := @lock_then_unlock plainConfig acme acme acme_identified .init
    { id := 5, tenantId := "acme", authAccountId := 3 } (by decide)
    (Request.undisturbed (.lockUser 5 ann))
        (Request.undisturbed (.unlockUser 5 ann)) ann ann rfl rfl r hr
  obtain ⟨r', hr'⟩ := hpair.1 rfl hquiet
  exact ⟨⟨r', hr'⟩, (hpair.2 r' hr').mpr rfl⟩

/-- Ann deactivates Bob, locks him and unlocks him: he was not active and now he is. -/
theorem unlock_activates : ∃ s, Reach (Server.step plainConfig) (fun _ _ => True) acme s ∧
    (∃ member ∈ s.db.tenantUsers, member.id = 5 ∧ member.status = .ACTIVE ∧
        member.isActive = false) ∧
    (∃ r, ((Request.undisturbed (.lockUser 5 ann)).serve plainConfig s.db).1 = .ok r) ∧
    ∃ member ∈ ((Request.undisturbed (.unlockUser 5 ann)).serve plainConfig
        ((Request.undisturbed (.lockUser 5 ann)).serve plainConfig s.db).2).2.tenantUsers,
      member.id = 5 ∧ member.status = .ACTIVE ∧ member.isActive = true := by
  have hrun : (runAll (Server.step plainConfig) acme
      ([.arrive (.deactivate 5 ann) (acmeContext "")] ++ acmeCalls 0 3)).any (fun s =>
      (s.db.tenantUsers.any fun member =>
          member.id = 5 && member.status = .ACTIVE && !member.isActive) &&
      ((Request.undisturbed (.lockUser 5 ann)).serve plainConfig s.db).1.toOption.isSome &&
      ((Request.undisturbed (.unlockUser 5 ann)).serve plainConfig
        ((Request.undisturbed (.lockUser 5 ann)).serve plainConfig s.db).2).2.tenantUsers.any
            fun member =>
          member.id = 5 && member.status = .ACTIVE && member.isActive) = true := by
    decide +kernel
  obtain ⟨s, hs, h⟩ := (Option.any_eq_true _ _).mp hrun
  simp only [Bool.and_eq_true, List.any_eq_true, decide_eq_true_eq, Bool.not_eq_true'] at h
  obtain ⟨⟨⟨member, hmember, hbefore⟩, hlocked⟩, after, hafter, hactive⟩ := h
  obtain ⟨r, hr⟩ := Option.isSome_iff_exists.mp hlocked
  refine ⟨s, .of_runAll (.of_labels (fun _ _ _ => trivial) _) hs, ⟨member, hmember, ?_⟩,
    ⟨r, except_of_toOption hr⟩, after, hafter, ?_⟩
  · exact ⟨hbefore.1.1, hbefore.1.2, hbefore.2⟩
  · exact ⟨hactive.1.1, hactive.1.2, hactive.2⟩

end Flexi.Accounts
