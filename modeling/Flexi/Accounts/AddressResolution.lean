import Flexi.Accounts.EmailAddresses
import Flexi.Accounts.ServedAlone

/-!
# Whom an address stands for

`login` looks an address up as it was typed, `requestReset` and `resetPassword` after
trimming and lowercasing it.
-/

namespace Flexi.Accounts
open Flexi.Library

/-! ### The addresses that are stored -/

/-- Every account has its address as it is compared. -/
def Database.Stored (cfg : Config) (db : Database) : Prop :=
  ∀ account ∈ db.authAccounts, cfg.normalizeEmail account.email = account.email

theorem Database.Stored.kept (cfg : Config) :
    KeptByRows (fun email => cfg.normalizeEmail email = email) (Database.Stored cfg) where
  of_eq h _ haccounts _ := by
    unfold Database.Stored
    rw [haccounts]
    exact h
  updateMember h _ := h
  setPassword h account hmem := by
    obtain ⟨old, hold, rfl⟩ := mem_updateMany.mp hmem
    split <;> exact h old hold
  createMember {db} account member hemail h row hrow := by
    have hrows : row ∈ db.authAccounts ++ [{ account with id := db.nextId }] := hrow
    rcases List.mem_append.mp hrows with hold | hnew
    · exact h row hold
    · cases List.mem_singleton.mp hnew
      exact hemail
  removeMember _ h account hmem := h account (List.mem_filter.mp hmem).1

theorem Request.code_registers {cfg : Config}
    (hidem : ∀ email, cfg.normalizeEmail (cfg.normalizeEmail email) = cfg.normalizeEmail email)
    (r : Request) :
    Makes (·.Registers fun email => cfg.normalizeEmail email = email) (r.code cfg) := by
  cases r with
  | directCreate dto user =>
    refine (jwtAuthGuard_makes fun _ => trivial).bind fun _ => ?_
    refine requireTenantActor_makes.bind fun tenantId => assertActorPermission_makes.bind fun _ =>
        ?_
    refine (assertSeatsAvailable_makes fun _ _ => trivial).bind fun _ => ?_
    dsimp only
    split
    · exact makes_fail
    · refine (resolveRoleId_makes fun _ _ => trivial).bind fun roleId => ?_
      refine Prog.Calls.read.bind fun c => .bind (makes_request trivial) fun hash => ?_
      refine .bind (makes_request (hidem dto.email)) fun created => ?_
      cases created with
      | none => exact makes_fail
      | some user => exact .pure
  | createInvites dto user =>
    refine (jwtAuthGuard_makes fun _ => trivial).bind fun _ => requireInvitePermission_makes.bind
        fun _ => ?_
    refine requireTenantActor_makes.bind fun tenantId => ?_
    dsimp only
    split
    · exact makes_fail
    · refine (assertSeatsAvailable_makes fun _ _ => trivial).bind fun _ => ?_
      refine (requireActiveTenant_makes fun _ => trivial).bind fun _ => ?_
      refine (resolveRoleId_makes fun _ _ => trivial).bind fun roleId => ?_
      refine Prog.Calls.read.bind fun c => .bind (makes_request trivial) fun hashes => ?_
      refine .bind (makes_request fun p hp => ?_) fun created => ?_
      · obtain ⟨pair, hpair, rfl⟩ := List.mem_map.mp hp
        obtain ⟨raw, -, heq⟩ := List.mem_map.mp (List.of_mem_zip hpair).1
        rw [← heq]
        exact hidem raw
      · cases created with
        | none => exact makes_fail
        | some invites => exact .pure
  | register dto tenantId =>
    show Makes _ (Accounts.register cfg dto tenantId)
    unfold Accounts.register
    split
    · exact makes_fail
    · exact makes_fail
    · refine .bind (makes_request trivial) fun active => ?_
      cases active
      · exact makes_fail
      · refine .bind (makes_request trivial) fun settings => ?_
        cases settings with
        | none => exact makes_fail
        | some settings =>
          dsimp only
          split
          · refine Prog.Calls.bind ?_ fun _ => ?_
            · unfold assertDomainAllowed
              split
              · exact .pure
              · exact makes_fail
            · refine (assertSeatsAvailable_makes fun _ _ => trivial).bind fun _ => ?_
              dsimp only
              split
              · exact makes_fail
              · split
                · exact makes_fail
                · refine assertPasswordMeetsPolicy_makes.bind fun _ =>
                      .bind (makes_request trivial) fun hash => ?_
                  refine .bind (makes_request (hidem dto.email)) fun created => ?_
                  cases created with
                  | none => exact makes_fail
                  | some user => exact .pure
          · exact makes_fail
  | _ =>
    refine Prog.Calls.mono (Request.code_makes cfg _) fun op hmakes => ?_
    cases op with
    | directCreate | register | createInvites => cases hmakes
    | _ => trivial

theorem Server.stored {cfg : Config}
    (hidem : ∀ email, cfg.normalizeEmail (cfg.normalizeEmail email) = cfg.normalizeEmail email)
    {s₀ s : Server} (h₀ : s₀.Idle) (hstored : s₀.db.Stored cfg)
    (hr : Reach (Server.step cfg) (fun _ _ => True) s₀ s) : s.db.Stored cfg := by
  have hboth : s.FromCode cfg ∧ s.db.Stored cfg := by
    refine hr.invariant (I := fun s => s.FromCode cfg ∧ s.db.Stored cfg) ⟨h₀.fromCode, hstored⟩ ?_
    rintro s s' e - ⟨hcode, hstored⟩ - hs
    refine ⟨hcode.step hs, step_keeps (P := Database.Stored cfg) hs hstored
        fun i outside r op k hi => ?_⟩
    have hregisters := ((hcode i _ hi).calls (Request.code_registers hidem r)).op rfl
    exact (Database.Stored.kept cfg).perform hregisters hstored
  exact hboth.2

/-! ### The two resolutions -/

/-- The resolution of `login`. -/
def loginActor (email : String) : Option String → Service (Option ResolvedActor)
  | some tenantId => resolveTenantActor email tenantId
  | none => resolveSystemActor email

def ResolvedActor.account? (actor : ResolvedActor) : Option ℕ :=
  if actor.isActive then some actor.authAccountId else none

def ResetActor.account? (actor : ResetActor) : Option ℕ :=
  if actor.isActive then some actor.authAccountId else none

/-- What a part of the code answers on its own, if it does not fail. -/
def Serving.answer {α : Type} (cfg : Config) (v : Serving) (db : Database) (p : Service α) :
    Option α :=
  (p.eval v.ctx (fun i op db => op.perform cfg (v.outside i) db) 0 db).1.toOption

/-- The account that `login` authenticates, given its password. -/
def loginAccount (cfg : Config) (v : Serving) (db : Database) (email : String)
    (tenantId : Option String) :
    Option ℕ :=
  (v.answer cfg db (loginActor email tenantId)).join.bind (·.account?)

/-- The account that `requestReset` and `resetPassword` act on. -/
def resetAccount (cfg : Config) (v : Serving) (db : Database) (email : String)
    (tenantId : Option String) :
    Option ℕ :=
  (v.answer cfg db (resolveActor (cfg.normalizeEmail email) tenantId)).join.bind (·.account?)

/-- What an operation writes about an account it writes about this one. -/
def Op.ActsFor (account : Option ℕ) : Op → Prop
  | createRefreshToken a _ _ | issueOtp a _ _ _ | resetPassword _ a _ _ => account = some a
  | _ => True

/-- `login` from its resolution on. -/
def authenticate (cfg : Config) (dto : LoginDto) : Option ResolvedActor → Service Response
  | none => rejectLogin dto
  | some actor =>
    if actor.isActive then do
      let passwordMatches ← request (.compare dto.password actor.passwordHash)
      if passwordMatches then issueTokens cfg actor else fail invalidCredentials
    else rejectLogin dto

/-- `requestReset` from its resolution on. -/
def issueFor : Option ResetActor → Service Response
  | none => pure .done
  | some actor => if actor.isActive then issueOtpFor actor.authAccountId else pure .done

/-- `resetPassword` from its resolution on. -/
def resetFor (dto : ResetPasswordDto) (actor : Option ResetActor) : Service Response := do
  let otp ← request (.findLiveOtp (actor.map (·.authAccountId)))
  match actor, otp with
  | some actor, some otp =>
    if actor.isActive then consumeOtp dto actor.authAccountId otp else fail invalidOtp
  | _, _ => fail invalidOtp

theorem login_eq (cfg : Config) (dto : LoginDto) (tenantId : Option String) :
    login cfg dto tenantId = loginActor dto.email tenantId >>= authenticate cfg dto := by
  cases tenantId <;> rfl

theorem requestReset_eq (cfg : Config) (email : String) (tenantId : Option String) :
    requestReset cfg email tenantId = resolveActor
        (cfg.normalizeEmail email) tenantId >>= issueFor := rfl

theorem resetPassword_eq (cfg : Config) (dto : ResetPasswordDto) (tenantId : Option String) :
    resetPassword cfg dto tenantId = assertPasswordMeetsPolicy dto.newPassword >>= fun _ =>
      resolveActor (cfg.normalizeEmail dto.email) tenantId >>= resetFor dto := rfl

theorem authenticate_acts (cfg : Config) (dto : LoginDto) (actor : Option ResolvedActor) :
    Makes (·.ActsFor (actor.bind (·.account?))) (authenticate cfg dto actor) := by
  have hreject {account : Option ℕ} : Makes (·.ActsFor account) (rejectLogin dto) :=
    .bind (makes_request trivial) fun _ => makes_fail
  cases actor with
  | none => exact hreject
  | some actor =>
    rw [authenticate]
    split
    · rename_i hactive
      have haccount : (some actor).bind (·.account?) = some actor.authAccountId := if_pos hactive
      rw [haccount]
      refine .bind (makes_request trivial) fun passwordMatches => ?_
      split
      · refine Prog.Calls.bind (Prog.Calls.read.bind fun c => .bind (makes_request rfl) fun _ =>
            .pure) fun _ => ?_
        exact makes_now.bind fun _ => .pure
      · exact makes_fail
    · exact hreject

theorem isWithinCooldown_acts {account : Option ℕ} (a : ℕ) :
    Makes (·.ActsFor account) (isWithinCooldown a) := by
  refine .bind (makes_request trivial) fun latest => ?_
  cases latest with
  | none => exact .pure
  | some latest => exact makes_now.bind fun _ => .pure

theorem issueFor_acts (actor : Option ResetActor) :
    Makes (·.ActsFor (actor.bind (·.account?))) (issueFor actor) := by
  cases actor with
  | none => exact .pure
  | some actor =>
    rw [issueFor]
    split
    · rename_i hactive
      have haccount : (some actor).bind (·.account?) = some actor.authAccountId := if_pos hactive
      rw [haccount]
      refine (isWithinCooldown_acts _).bind fun within => ?_
      split
      · exact .pure
      · refine Prog.Calls.read.bind fun c => .bind (makes_request trivial) fun _ => ?_
        exact .bind (makes_request rfl) fun _ => .pure
    · exact .pure

theorem resetFor_acts (dto : ResetPasswordDto) (actor : Option ResetActor) :
    Makes (·.ActsFor (actor.bind (·.account?))) (resetFor dto actor) := by
  refine .bind (makes_request trivial) fun otp => ?_
  split
  · rename_i actor otp
    split
    · rename_i hactive
      have haccount : (some actor).bind (·.account?) = some actor.authAccountId := if_pos hactive
      rw [haccount]
      refine makes_now.bind fun now => ?_
      split
      · exact .bind (makes_request trivial) fun _ => makes_fail
      · refine Prog.Calls.bind ?_ fun isMatch => ?_
        · unfold otpMatches
          split
          · exact makes_request trivial
          · exact .pure
        · split
          · refine .bind (makes_request trivial) fun _ =>
                .bind (makes_request rfl) fun consumed => ?_
            cases consumed with
            | none => exact makes_fail
            | some count => exact .pure
          · exact .bind (makes_request trivial) fun _ => makes_fail
    · exact makes_fail
  · exact makes_fail

/-! ### The rows of an address -/

/-- The accounts with this address in the scope of the header, and whether they may act. -/
def Database.actors (db : Database) (email : String) : Option String → List (ℕ × Bool)
  | some tenantId =>
    (db.tenantUsers.filter fun user =>
    user.tenantId = tenantId && db.hasEmail user.authAccountId email).map
      fun user => (user.authAccountId, (db.account? user.authAccountId).any
          (·.isActive) && user.isActive)
  | none =>
    (db.systemUsers.filter fun user => db.hasEmail user.authAccountId email).map
      fun user => (user.authAccountId, (db.account? user.authAccountId).any
          (·.isActive) && user.isActive)

/-- The tenant of the header, if there is one, is active. -/
def Database.scopeActive (db : Database) : Option String → Bool
  | some tenantId => db.isTenantActive tenantId
  | none => true

def whoActs (actor : ℕ × Bool) : Option ℕ := if actor.2 then some actor.1 else none

/-- One of the rows, whichever the database returns. -/
def chosen (pick : ℕ) (actors : List (ℕ × Bool)) : Option ℕ :=
  (findAny pick (fun _ => true) actors).bind whoActs

section
variable {cfg : Config} {v : Serving} {db : Database} {email : String}

theorem findAny_map {α β : Type} {pick : ℕ} {p : α → Bool} {rows : List α} {f : α → β} :
    findAny pick (fun _ => true) ((rows.filter p).map f) = (findAny pick p rows).map f := by
  rw [findAny, List.filter_true, List.length_map, List.getElem?_map, findAny]

theorem Database.hasEmail_account {a : ℕ} (h : db.hasEmail a email = true) :
    ∃ account, db.account? a = some account ∧ account.email = email := by
  obtain ⟨account, haccount, hemail⟩ := (Option.any_eq_true _ _).mp h
  exact ⟨account, haccount, of_decide_eq_true hemail⟩

theorem eval_request {α : Type} {op : Op} {f : op.Res → Service α} {a : op.Res} {db' : Database}
    (hquiet : ¬ v.Faults) (i : ℕ) (h : op.effect cfg (v.outside i) db = (.ok a, db')) :
    (request op >>= f).eval v.ctx (fun i op db => op.perform cfg (v.outside i) db) i db =
      (f a).eval v.ctx (fun i op db => op.perform cfg (v.outside i) db) (i + 1) db' := by
  have hperform : op.perform cfg (v.outside i) db = (.ok a, db') := by
    rw [Op.perform, if_neg fun hfault => hquiet ⟨i, hfault⟩, h]
  rw [request, Prog.await, Prog.call_bind, Prog.eval, hperform]
  rfl

/-- The lookup that both resolutions make of a tenant's address. -/
def tenantLookup {α : Type} (actor : TenantUserRow → α) (email tenantId : String) :
    Service (Option α) := do
  let tenantUser ← request (.findTenantUserByEmail tenantId email)
  match tenantUser with
  | none => pure none
  | some row =>
    let active ← request (.isTenantActive tenantId)
    pure (if active then some (actor row) else none)

def systemLookup {α : Type} (actor : SystemUserRow → α) (email : String) : Service (Option α) := do
  let systemUser ← request (.findSystemUserByEmail email)
  pure (systemUser.map actor)

theorem tenantLookup_answer {α : Type} {actor : TenantUserRow → α} {account? : α → Option ℕ}
    (hquiet : ¬ v.Faults) (tenantId : String)
    (hactor : ∀ row : TenantUserRow, account? (actor row) =
      whoActs (row.user.authAccountId, row.authAccount.isActive && row.user.isActive)) :
    (v.answer cfg db (tenantLookup actor email tenantId)).join.bind account? =
      if db.scopeActive (some tenantId) then chosen (v.outside 0).pick
          (db.actors email (some tenantId))
      else none := by
  rw [Serving.answer, tenantLookup, eval_request hquiet 0 rfl, chosen, Database.actors, findAny_map]
  cases hfind : findAny (v.outside 0).pick (fun user => user.tenantId = tenantId &&
      db.hasEmail user.authAccountId email) db.tenantUsers with
  | none => simp [Prog.eval, Except.toOption]
  | some user =>
    have hcond := (findAny_some hfind).2
    simp only [Bool.and_eq_true] at hcond
    obtain ⟨account, haccount, -⟩ := Database.hasEmail_account hcond.2
    have hrow : db.tenantUserRow user = some ⟨user, account, db.rolesOf user.roles⟩ := by
      rw [Database.tenantUserRow, haccount]; rfl
    rw [Option.bind_some, hrow]
    dsimp only
    rw [eval_request hquiet 1 rfl]
    have hwho := hactor ⟨user, account, db.rolesOf user.roles⟩
    cases hactive : db.isTenantActive tenantId
    · simp [Prog.eval, Except.toOption, Database.scopeActive, hactive]
    · simpa [Prog.eval, Except.toOption, Database.scopeActive, hactive, haccount] using hwho

theorem systemLookup_answer {α : Type} {actor : SystemUserRow → α} {account? : α → Option ℕ}
    (hquiet : ¬ v.Faults)
    (hactor : ∀ row : SystemUserRow, account? (actor row) =
      whoActs (row.user.authAccountId, row.authAccount.isActive && row.user.isActive)) :
    (v.answer cfg db (systemLookup actor email)).join.bind account? =
      if db.scopeActive none then chosen (v.outside 0).pick (db.actors email none) else none := by
  rw [Serving.answer, systemLookup, eval_request hquiet 0 rfl, chosen, Database.actors, findAny_map]
  cases hfind : findAny (v.outside 0).pick (fun user => db.hasEmail user.authAccountId email)
      db.systemUsers with
  | none => simp [Prog.eval, Except.toOption]
  | some user =>
    obtain ⟨account, haccount, -⟩ := Database.hasEmail_account (findAny_some hfind).2
    have hrow : db.systemUserRow user = some ⟨user, account, db.rolesOf user.roles⟩ := by
      rw [Database.systemUserRow, haccount]; rfl
    have hwho := hactor ⟨user, account, db.rolesOf user.roles⟩
    rw [Option.bind_some, hrow]
    simpa [Prog.eval, Except.toOption, Database.scopeActive, haccount] using hwho

theorem loginAccount_eq (hquiet : ¬ v.Faults) (tenantId : Option String) :
    loginAccount cfg v db email tenantId =
      if db.scopeActive tenantId then chosen (v.outside 0).pick
          (db.actors email tenantId) else none := by
  cases tenantId with
  | some tenantId => exact tenantLookup_answer hquiet tenantId fun _ => rfl
  | none => exact systemLookup_answer hquiet fun _ => rfl

theorem resetAccount_eq (hquiet : ¬ v.Faults) (tenantId : Option String) :
    resetAccount cfg v db email tenantId =
      if db.scopeActive tenantId then
        chosen (v.outside 0).pick (db.actors (cfg.normalizeEmail email) tenantId) else none := by
  have hswap (user account : Bool) : (user && account) = (account && user) := Bool.and_comm _ _
  cases tenantId with
  | some tenantId =>
    refine tenantLookup_answer hquiet tenantId fun row => ?_
    rw [whoActs, hswap row.authAccount.isActive]
    rfl
  | none =>
    refine systemLookup_answer hquiet fun row => ?_
    rw [whoActs, hswap row.authAccount.isActive]
    rfl

theorem Database.actors_unstored (hstored : db.Stored cfg)
    (hspelling : cfg.normalizeEmail email ≠ email)
    (tenantId : Option String) : db.actors email tenantId = [] := by
  have hnone (a : ℕ) : db.hasEmail a email = false := by
    by_contra h
    obtain ⟨account, haccount, hemail⟩ := Database.hasEmail_account (by simpa using h)
    have hkept := hstored account (List.mem_of_find?_eq_some haccount)
    rw [hemail] at hkept
    exact hspelling hkept
  cases tenantId <;> simp [Database.actors, hnone]

theorem chosen_mem (pick : ℕ) {actors : List (ℕ × Bool)} (hne : actors ≠ []) :
    ∃ actor ∈ actors, chosen pick actors = whoActs actor := by
  cases hfind : findAny pick (fun _ => true) actors with
  | none =>
    obtain ⟨actor, hactor⟩ := List.exists_mem_of_ne_nil actors hne
    cases findAny_eq_none.mp hfind actor hactor
  | some actor => exact ⟨actor, (findAny_some hfind).1, by rw [chosen, hfind]; rfl⟩

/-- Each row may be the one the database returns. -/
theorem chosen_of_mem {actors : List (ℕ × Bool)} {actor : ℕ × Bool} (hactor : actor ∈ actors) :
    ∃ pick, chosen pick actors = whoActs actor := by
  obtain ⟨pick, hpick⟩ := exists_findAny (p := fun _ => true) hactor rfl
  exact ⟨pick, by rw [chosen, hpick]; rfl⟩

theorem whoActs_eq_none {actor : ℕ × Bool} : whoActs actor = none ↔ actor.2 = false := by
  unfold whoActs
  cases actor.2 <;> simp

end

/-- A serving of no particular request, without faults, for which the database returns its
rows in a given order. -/
def picking (pick : ℕ) : Serving := ⟨.refresh (.other ""), fun _ => acmeContext "", fun _ =>
    { quiet with pick := pick }⟩

theorem picking_quiet (pick : ℕ) : ¬ (picking pick).Faults := by
  rintro ⟨i, hfault⟩
  cases hfault

/-- Login and password reset mean the same account, whichever rows the database returns, if
and only if the tenant is not active, or nobody of the address is, or the address is typed as
it is stored and all its rows stand for the same account. -/
theorem login_agrees_with_reset {cfg : Config}
    (hidem : ∀ email, cfg.normalizeEmail (cfg.normalizeEmail email) = cfg.normalizeEmail email)
    {s₀ s : Server} (h₀ : s₀.Idle) (hstored : s₀.db.Stored cfg)
    (hr : Reach (Server.step cfg) (fun _ _ => True) s₀ s) (email : String)
    (tenantId : Option String) :
    (∀ v v' : Serving, ¬ v.Faults → ¬ v'.Faults →
      loginAccount cfg v s.db email tenantId = resetAccount cfg v' s.db email tenantId) ↔
    (s.db.scopeActive tenantId = true →
      (∀ actor ∈ s.db.actors (cfg.normalizeEmail email) tenantId, actor.2 = false) ∨
      cfg.normalizeEmail email = email ∧ ∀ actor ∈ s.db.actors email tenantId,
        ∀ other ∈ s.db.actors email tenantId, whoActs actor = whoActs other) := by
  have hstored := Server.stored hidem h₀ hstored hr
  constructor
  · intro hagree hactive
    have hchosen (pick pick' : ℕ) : chosen pick (s.db.actors email tenantId) =
        chosen pick' (s.db.actors (cfg.normalizeEmail email) tenantId) := by
      have h := hagree (picking pick) (picking pick') (picking_quiet pick) (picking_quiet pick')
      rwa [loginAccount_eq (picking_quiet pick), resetAccount_eq (picking_quiet pick'),
          if_pos hactive,
        if_pos hactive] at h
    by_cases hspelling : cfg.normalizeEmail email = email
    · rw [hspelling] at hchosen
      refine .inr ⟨hspelling, fun actor hactor other hother => ?_⟩
      obtain ⟨pick, hpick⟩ := chosen_of_mem hactor
      obtain ⟨pick', hpick'⟩ := chosen_of_mem hother
      rw [← hpick, ← hpick']
      exact hchosen pick pick'
    · refine .inl fun actor hactor => ?_
      obtain ⟨pick, hpick⟩ := chosen_of_mem hactor
      have hnone := hchosen 0 pick
      rw [Database.actors_unstored hstored hspelling, hpick] at hnone
      exact whoActs_eq_none.mp hnone.symm
  · intro hcond v v' hv hv'
    rw [loginAccount_eq hv, resetAccount_eq hv']
    by_cases hactive : s.db.scopeActive tenantId = true
    · rw [if_pos hactive, if_pos hactive]
      have hempty (pick : ℕ) : chosen pick [] = none := rfl
      rcases hcond hactive with hinactive | ⟨hspelling, hsame⟩
      · have hnone (pick : ℕ) :
            chosen pick (s.db.actors (cfg.normalizeEmail email) tenantId) = none := by
          by_cases hne : s.db.actors (cfg.normalizeEmail email) tenantId = []
          · rw [hne, hempty]
          · obtain ⟨actor, hactor, he⟩ := chosen_mem pick hne
            rw [he]
            exact whoActs_eq_none.mpr (hinactive actor hactor)
        by_cases hspelling : cfg.normalizeEmail email = email
        · rw [hspelling] at hnone ⊢
          rw [hnone, hnone]
        · rw [hnone, Database.actors_unstored hstored hspelling, hempty]
      · rw [hspelling]
        by_cases hne : s.db.actors email tenantId = []
        · rw [hne, hempty, hempty]
        · obtain ⟨actor, hactor, he⟩ := chosen_mem (v.outside 0).pick hne
          obtain ⟨other, hother, he'⟩ := chosen_mem (v'.outside 0).pick hne
          rw [he, he']
          exact hsame actor hactor other hother
    · rw [if_neg hactive, if_neg hactive]

theorem acme_stored : acme.db.Stored plainConfig := by
  intro account haccount
  have hknown : account ∈ acmeDb.authAccounts := haccount
  simp only [acmeDb, List.mem_cons, List.not_mem_nil, or_false] at hknown
  rcases hknown with rfl | rfl <;> decide +kernel

/-- Bob's address as it is stored. -/
theorem login_agrees_with_reset_acme :
    loginAccount plainConfig (picking 0) acmeDb "bob@acme.io" (some "acme") =
      resetAccount plainConfig (picking 1) acmeDb "bob@acme.io" (some "acme") := by
  refine (login_agrees_with_reset plainConfig_normalized acme_idle acme_stored .init "bob@acme.io"
    (some "acme")).mpr (fun _ => .inr ⟨by decide +kernel, ?_⟩) (picking 0) (picking 1)
    (picking_quiet 0) (picking_quiet 1)
  decide

/-- Bob's address in capitals: nobody logs in with it, and the reset is for Bob. -/
theorem capitals_resolve_apart : acme.db.Stored plainConfig ∧
    loginAccount plainConfig (picking 0) acmeDb "BOB@acme.io" (some "acme") = none ∧
      resetAccount plainConfig (picking 0) acmeDb "BOB@acme.io" (some "acme") = some 3 :=
  ⟨acme_stored, by decide +kernel⟩

end Flexi.Accounts
