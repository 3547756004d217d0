import Flexi.Accounts.RequestCalls
import Flexi.Library.RelyGuarantee

/-!
# Requests served one at a time

A request that is served on its own writes on the grounds of what it has read, since
nothing changes in between.
-/

namespace Flexi.Accounts
open Flexi.Library

/-- What the code reads before each of its statements, and what decides their answers. -/
structure Serving where
  request : Request
  ctx : ℕ → Context
  outside : ℕ → Outside

/-- The response and the database after it. -/
def Serving.serve (cfg : Config) (v : Serving) (db : Database) :
    Except ServiceError Response × Database :=
  (v.request.code cfg).eval v.ctx (fun i op db => op.perform cfg (v.outside i) db) 0 db

theorem Serving.serve_calls {cfg : Config} {v : Serving} {I : Database → Prop} {db : Database}
    (keep : ∀ op outside db, v.request.makes op = true → I db → I (op.perform cfg outside db).2) (h : I db) :
    I (v.serve cfg db).2 :=
  (Request.code_makes cfg v.request).eval (fun i op db hop => keep op (v.outside i) db hop) h 0

/-- All the readings of the clock are among `times`. -/
def Serving.Reads (v : Serving) (times : ℕ → Prop) : Prop :=
  ∀ i, times (v.ctx i).now ∧ times (v.outside i).now

structure Desk where
  db : Database
  clock : ℕ

inductive DeskEvent where
  | serve (v : Serving)
  | tick (d : ℕ)

def Desk.step (cfg : Config) (s : Desk) : DeskEvent → Option Desk
  | .serve v => some { s with db := (v.serve cfg s.db).2 }
  | .tick d => some { s with clock := s.clock + d }

/-- A request takes no time; time passes between requests. -/
def Desk.instantly (s : Desk) : DeskEvent → Prop
  | .serve v => v.Reads (· = s.clock)
  | .tick _ => True

/-! ### The grounds of a write -/

/-- Seats were available. -/
def Database.HasRoom (db : Database) (times : ℕ → Prop) (tenantId : String) (seats : ℕ) : Prop :=
  ∃ now, times now ∧
    ¬ (¬ db.resolveMaxUsers tenantId < 0 ∧ db.resolveMaxUsers tenantId < db.usedSeats tenantId now + seats)

def Database.HasMember (db : Database) (userId : ℕ) (status : TenantUserStatus) : Prop :=
  ∃ user ∈ db.tenantUsers, user.id = userId ∧ user.status = status

/-- What has been read before an operation that writes about members. -/
def Op.Grounded (cfg : Config) (times : ℕ → Prop) (db : Database) : Op → Prop
  | approveUser userId => db.HasMember userId .PENDING_APPROVAL
  | lockUser userId _ _ => db.HasMember userId .ACTIVE
  | unlockUser userId => db.HasMember userId .LOCKED
  | directCreate tenantId email _ _ _ | register tenantId email _ _ _ _ =>
    db.HasRoom times tenantId 1 ∧ ∃ raw, email = cfg.normalizeEmail raw
  | createInvites tenantId _ prepared _ => db.HasRoom times tenantId prepared.length ∧
    ∀ p ∈ prepared, ∃ raw, p.email = cfg.normalizeEmail raw
  | resendInvite existing _ _ _ _ => existing ∈ db.userInvites ∧ existing.status = .PENDING ∧
    (db.HasRoom times existing.tenantId 1 ∨ ∃ now, times now ∧ now < existing.expiresAt)
  | redeemInvite invite user _ _ redeemedAt => invite ∈ db.userInvites ∧ user ∈ db.tenantUsers ∧
    invite.status = .PENDING ∧ redeemedAt < invite.expiresAt ∧ times redeemedAt ∧
    invite.tenantUserId = some user.id ∧ user.status = .PENDING_INVITE
  | _ => True

theorem Database.HasRoom.mono {db : Database} {times : ℕ → Prop} {tenantId : String} {m n : ℕ}
    (h : db.HasRoom times tenantId n) (hle : m ≤ n) : db.HasRoom times tenantId m := by
  obtain ⟨now, hnow, hroom⟩ := h
  exact ⟨now, hnow, by omega⟩

/-! ### Serving -/

/-- Nobody else acts in the meantime. -/
def serving (cfg : Config) (times : ℕ → Prop) : Rules Op Op.Res Context ServiceError Database where
  sees c := times c.now
  exec op db db' answer := ∃ outside, times outside.now ∧ op.perform cfg outside db = (answer, db')
  interfere _ _ := False
  guarantee _ _ := True

section
variable {cfg : Config} {times : ℕ → Prop} {α : Type} {P Q : Database → Prop}

theorem serving_stable (P : Database → Prop) : (serving cfg times).Stable P :=
  fun _ _ _ h => h.elim

theorem outline_now : Outline (serving cfg times) P now (fun now db => times now ∧ P db) fun _ => P := by
  refine Outline.bind (Q := fun c db => times c.now ∧ P db) ?_ fun c => ?_
  · exact .read fun c db hc hdb => ⟨hc, hdb⟩
  · exact .pure fun _ h => h

theorem outline_fail {e : HttpError} {R : α → Database → Prop} (h : ∀ db, P db → Q db) :
    Outline (serving cfg times) P (fail e : Service α) R fun _ => Q :=
  .throw h

theorem outline_request {op : Op} {R : op.Res → Database → Prop} {E : ServiceError → Database → Prop}
    (h : ∀ db outside, P db → times outside.now →
      (∀ a, (op.perform cfg outside db).1 = .ok a → R a (op.perform cfg outside db).2) ∧
      ∀ e, (op.perform cfg outside db).1 = .error e → E e (op.perform cfg outside db).2) :
    Outline (serving cfg times) P (request op) R E := by
  refine .await (serving_stable P) (fun a => serving_stable (R a)) (fun e => serving_stable (E e)) ?_ ?_
  · rintro db db' a hdb ⟨outside, hnow, hx⟩
    have hok := (h db outside hdb hnow).1 a
    rw [hx] at hok
    exact ⟨trivial, hok rfl⟩
  · rintro db db' e hdb ⟨outside, hnow, hx⟩
    have herror := (h db outside hdb hnow).2 e
    rw [hx] at herror
    exact ⟨trivial, herror rfl⟩

theorem Op.perform_reads {op : Op} (hop : op.writes = []) (outside : Outside) (db : Database) :
    (op.perform cfg outside db).2 = db := by
  rcases perform_cases cfg outside op db with ⟨hdb, -⟩ | heffect
  · exact hdb
  · rw [heffect]
    cases op <;> first | rfl | cases hop

theorem outline_read {op : Op} (hop : op.writes = []) {R : op.Res → Database → Prop}
    (h : ∀ db outside a, P db → (op.effect cfg outside db).1 = .ok a → R a db) :
    Outline (serving cfg times) P (request op) R fun _ => P := by
  refine outline_request fun db outside hdb _ => ⟨fun a ha => ?_, fun e _ => ?_⟩
  · rw [Op.perform_reads hop]
    rcases Op.perform_cases cfg outside op db with ⟨-, e, he⟩ | heffect
    · cases he.symm.trans ha
    · rw [heffect] at ha
      exact h db outside a hdb ha
  · rw [Op.perform_reads hop]
    exact hdb

theorem outline_reads {p : Service α} {H : Op → Prop} (h : Makes H p) (hH : ∀ op, H op → op.writes = []) :
    Outline (serving cfg times) P p (fun _ => P) fun _ => P := by
  have hcalls : Outline (serving cfg times) P p (fun _ => P) fun _ db => True ∧ P db := by
    refine .of_calls h (fun _ _ => trivial) (serving_stable P) (fun _ _ _ _ _ => trivial) ?_
    rintro op db db' answer hop hdb ⟨outside, -, hx⟩
    have hreads : (op.perform cfg outside db).2 = db := Op.perform_reads (hH op hop) outside db
    rw [hx] at hreads
    cases hreads
    exact ⟨trivial, hdb⟩
  exact hcalls.conseq (fun _ h => h) (fun _ _ h => h) fun _ _ h => h.2

theorem outline_write {op : Op}
    (h : ∀ db outside, P db → times outside.now → Q (op.perform cfg outside db).2) :
    Outline (serving cfg times) P (request op) (fun _ => Q) fun _ => Q :=
  outline_request fun db outside hdb hnow => ⟨fun _ _ => h db outside hdb hnow, fun _ _ => h db outside hdb hnow⟩

end

/-! ### What each request has read when it writes -/

section
variable {cfg : Config} {times : ℕ → Prop} {I : Database → Prop}

/-- `I` is kept by the operations that are grounded. -/
def KeptByGrounded (cfg : Config) (times : ℕ → Prop) (I : Database → Prop) : Prop :=
  ∀ (op : Op) (db : Database) (outside : Outside), I db → op.Grounded cfg times db →
    times outside.now → I (op.perform cfg outside db).2

theorem outline_makes {α : Type} {p : Service α} {H : Op → Prop} (hI : KeptByGrounded cfg times I)
    (h : Makes H p) (hH : ∀ op, H op → ∀ db, op.Grounded cfg times db) :
    Outline (serving cfg times) I p (fun _ => I) fun _ => I := by
  have hcalls : Outline (serving cfg times) I p (fun _ => I) fun _ db => True ∧ I db := by
    refine .of_calls h (fun _ _ => trivial) (serving_stable I) (fun _ _ _ _ _ => trivial) ?_
    rintro op db db' answer hop hdb ⟨outside, hnow, hx⟩
    have hkept := hI op db outside hdb (hH op hop db) hnow
    rw [hx] at hkept
    exact ⟨trivial, hkept⟩
  exact hcalls.conseq (fun _ h => h) (fun _ _ h => h) fun _ _ h => h.2

theorem jwtAuthGuard_outline {user : AuthenticatedUser} :
    Outline (serving cfg times) I (jwtAuthGuard user) (fun _ => I) fun _ => I :=
  outline_reads (jwtAuthGuard_makes (H := fun op => ∃ t, op = .isTenantActive t) fun t => ⟨t, rfl⟩)
    fun op ⟨t, he⟩ => by rw [he]; rfl

theorem requireTenantActor_outline {user : AuthenticatedUser} {message : String} :
    Outline (serving cfg times) I (requireTenantActor user message) (fun _ => I) fun _ => I :=
  outline_reads (requireTenantActor_makes (H := fun _ => False)) fun _ h => h.elim

theorem assertActorPermission_outline {user : AuthenticatedUser} {tenantCode systemCode : String} :
    Outline (serving cfg times) I (assertActorPermission user tenantCode systemCode) (fun _ => I)
      fun _ => I :=
  outline_reads (assertActorPermission_makes (H := fun _ => False)) fun _ h => h.elim

theorem assertPasswordMeetsPolicy_outline {password : String} :
    Outline (serving cfg times) I (assertPasswordMeetsPolicy password) (fun _ => I) fun _ => I :=
  outline_reads (assertPasswordMeetsPolicy_makes (H := fun _ => False)) fun _ h => h.elim

theorem requireActiveTenant_outline {tenantId : String} :
    Outline (serving cfg times) I (requireActiveTenant tenantId) (fun _ => I) fun _ => I :=
  outline_reads (requireActiveTenant_makes (H := fun op => ∃ t, op = .findActiveTenant t) fun t => ⟨t, rfl⟩)
    fun op ⟨t, he⟩ => by rw [he]; rfl

theorem resolveRoleId_outline {roleId : Option ℕ} {scope : Option String} {message : String} :
    Outline (serving cfg times) I (resolveRoleId roleId scope message) (fun _ => I) fun _ => I :=
  outline_reads (resolveRoleId_makes (H := fun op => ∃ r s, op = .findRole r s) fun r s => ⟨r, s, rfl⟩)
    fun op ⟨r, s, he⟩ => by rw [he]; rfl

theorem assertSeatsAvailable_outline {tenantId : String} {seats : ℕ} :
    Outline (serving cfg times) I (assertSeatsAvailable tenantId seats)
      (fun _ db => I db ∧ db.HasRoom times tenantId seats) fun _ => I := by
  refine outline_now.bind fun now => ?_
  refine Outline.bind (Q := fun usage db => times now ∧ I db ∧
    usage = (db.resolveMaxUsers tenantId, db.usedSeats tenantId now)) ?_ fun usage => ?_
  · refine (outline_read rfl fun db outside a hdb ha => ?_).conseq (fun _ h => h) (fun _ _ h => h)
      fun _ _ h => h.2
    cases ha
    exact ⟨hdb.1, hdb.2, rfl⟩
  · obtain ⟨maxUsers, usedSeats⟩ := usage
    dsimp only
    split
    · exact outline_fail fun _ h => h.2.1
    · rename_i hroom
      refine .pure fun db h => ?_
      obtain ⟨hnow, hdb, husage⟩ := h
      cases husage
      exact ⟨hdb, now, hnow, hroom⟩

theorem resolveTenantTarget_outline {userId : ℕ} {user : AuthenticatedUser} {message : String} :
    Outline (serving cfg times) I (resolveTenantTarget userId user message)
      (fun target db => I db ∧ db.HasMember target.id target.status) fun _ => I := by
  refine requireTenantActor_outline.bind fun tenantId => assertActorPermission_outline.bind fun _ => ?_
  refine Outline.bind (Q := fun row db => I db ∧ ∀ found, row = some found → found.user ∈ db.tenantUsers)
    ?_ fun row => ?_
  · refine outline_read rfl fun db outside row hdb hrow => ⟨hdb, fun found hfound => ?_⟩
    subst hfound
    obtain ⟨member, hmember, hbind⟩ := Option.bind_eq_some_iff.mp (Except.ok.inj hrow)
    rw [Database.tenantUserRow_user hbind]
    exact List.mem_of_find?_eq_some hmember
  · cases row with
    | none => exact outline_fail fun _ h => h.1
    | some found =>
      dsimp only
      split
      · exact outline_fail fun _ h => h.1
      · exact .pure fun db h => ⟨h.1, found.user, h.2 found rfl, rfl, rfl⟩

theorem approveUser_outline (hI : KeptByGrounded cfg times I) (userId : ℕ) (user : AuthenticatedUser) :
    Outline (serving cfg times) I (approveUser userId user) (fun _ => I) fun _ => I := by
  refine resolveTenantTarget_outline.bind fun target => ?_
  split
  · exact outline_fail fun _ h => h.1
  · rename_i hstatus
    have hpending : target.status = .PENDING_APPROVAL := by simpa using hstatus
    refine Outline.bind (outline_write fun db outside h hnow => ?_) fun _ => .pure fun _ h => h
    have hmember : db.HasMember target.id .PENDING_APPROVAL := hpending ▸ h.2
    exact hI _ db outside h.1 hmember hnow

theorem unlockUser_outline (hI : KeptByGrounded cfg times I) (userId : ℕ) (user : AuthenticatedUser) :
    Outline (serving cfg times) I (unlockUser userId user) (fun _ => I) fun _ => I := by
  refine resolveTenantTarget_outline.bind fun target => ?_
  split
  · exact outline_fail fun _ h => h.1
  · rename_i hstatus
    have hlocked : target.status = .LOCKED := by simpa using hstatus
    refine Outline.bind (outline_write fun db outside h hnow => ?_) fun _ => .pure fun _ h => h
    have hmember : db.HasMember target.id .LOCKED := hlocked ▸ h.2
    exact hI _ db outside h.1 hmember hnow

theorem lockUser_outline (hI : KeptByGrounded cfg times I) (userId : ℕ) (user : AuthenticatedUser) :
    Outline (serving cfg times) I (lockUser userId user) (fun _ => I) fun _ => I := by
  refine resolveTenantTarget_outline.bind fun target => ?_
  split
  · exact outline_fail fun _ h => h.1
  · split
    · exact outline_fail fun _ h => h.1
    · rename_i hstatus
      have hactive : target.status = .ACTIVE := by simpa using hstatus
      refine Outline.bind (Q := fun _ db => I db ∧ db.HasMember target.id target.status) ?_ fun now => ?_
      · exact outline_now.conseq (fun _ h => h) (fun _ _ h => h.2) fun _ _ h => h.1
      · refine Outline.bind (outline_write fun db outside h hnow => ?_) fun _ => .pure fun _ h => h
        have hmember : db.HasMember target.id .ACTIVE := hactive ▸ h.2
        exact hI _ db outside h.1 hmember hnow

theorem hash_outline {passwords : List String} :
    Outline (serving cfg times) I (request (.hash passwords)) (fun _ => I) fun _ => I :=
  outline_read rfl fun _ _ _ hdb _ => hdb

/-- What follows the seats is read, and the seats are still there. -/
theorem directCreate_outline (hI : KeptByGrounded cfg times I) (dto : DirectCreateUserDto)
    (user : AuthenticatedUser) :
    Outline (serving cfg times) I (directCreate cfg dto user) (fun _ => I) fun _ => I := by
  refine requireTenantActor_outline.bind fun tenantId => assertActorPermission_outline.bind fun _ => ?_
  refine assertSeatsAvailable_outline.bind fun _ => ?_
  have herror : ∀ (_ : ServiceError) (db : Database), I db ∧ db.HasRoom times tenantId 1 → I db :=
    fun _ _ h => h.1
  dsimp only
  split
  · exact outline_fail fun _ h => h.1
  · refine (resolveRoleId_outline.conseq (fun _ h => h) (fun _ _ h => h) herror).bind fun roleId => ?_
    refine Outline.bind (Q := fun _ db => I db ∧ db.HasRoom times tenantId 1) (.read fun _ _ _ h => h)
      fun c => ?_
    refine (hash_outline.conseq (fun _ h => h) (fun _ _ h => h) herror).bind fun hash => ?_
    refine Outline.bind (outline_write fun db outside h hnow => ?_) fun created => ?_
    · exact hI _ db outside h.1 ⟨h.2, dto.email, rfl⟩ hnow
    · cases created with
      | none => exact outline_fail fun _ h => h
      | some user => exact .pure fun _ h => h

theorem registerInto_outline (hI : KeptByGrounded cfg times I) (dto : SelfRegisterDto)
    (tenantId : String) (settings : TenantSettings) (defaultRoleId : ℕ) :
    Outline (serving cfg times) I (registerInto cfg dto tenantId settings defaultRoleId) (fun _ => I)
      fun _ => I := by
  unfold registerInto
  refine Outline.bind (Q := fun _ => I) ?_ fun _ => ?_
  · unfold assertDomainAllowed
    split
    · exact .pure fun _ h => h
    · exact outline_fail fun _ h => h
  refine assertSeatsAvailable_outline.bind fun _ => ?_
  have herror : ∀ (_ : ServiceError) (db : Database), I db ∧ db.HasRoom times tenantId 1 → I db :=
    fun _ _ h => h.1
  dsimp only
  split
  · exact outline_fail fun _ h => h.1
  · split
    · exact outline_fail fun _ h => h.1
    · refine (assertPasswordMeetsPolicy_outline.conseq (fun _ h => h) (fun _ _ h => h) herror).bind
        fun _ => ?_
      refine (hash_outline.conseq (fun _ h => h) (fun _ _ h => h) herror).bind fun hash => ?_
      refine Outline.bind (outline_write fun db outside h hnow => ?_) fun created => ?_
      · exact hI _ db outside h.1 ⟨h.2, dto.email, rfl⟩ hnow
      · cases created with
        | none => exact outline_fail fun _ h => h
        | some user => exact .pure fun _ h => h

theorem register_outline (hI : KeptByGrounded cfg times I) (dto : SelfRegisterDto)
    (tenantIdHeader : Option String) :
    Outline (serving cfg times) I (register cfg dto tenantIdHeader) (fun _ => I) fun _ => I := by
  unfold register
  split
  · exact outline_fail fun _ h => h
  · exact outline_fail fun _ h => h
  · rename_i tenantId _ _
    refine Outline.bind (outline_read rfl fun _ _ _ hdb _ => hdb) fun active => ?_
    cases active
    · exact outline_fail fun _ h => h
    · refine Outline.bind (outline_read rfl fun _ _ _ hdb _ => hdb) fun settings => ?_
      cases settings with
      | none => exact outline_fail fun _ h => h
      | some settings =>
        dsimp only
        split
        · exact registerInto_outline hI dto tenantId settings _
        · exact outline_fail fun _ h => h

/-- The batch and how its one write ends. -/
theorem createInvites_batch {R : Response → Database → Prop} (dto : CreateUserInvitesDto)
    (user : AuthenticatedUser)
    (hwrite : ∀ tenantId roleId prepared, Outline (serving cfg times)
      (fun db => I db ∧ db.HasRoom times tenantId prepared.length ∧
        ∀ p ∈ prepared, ∃ raw, p.email = cfg.normalizeEmail raw)
      (request (.createInvites tenantId roleId prepared user.tenantUserId))
      (fun created db => match created with
        | none => I db
        | some invites => R (.invites invites) db) fun _ => I) :
    Outline (serving cfg times) I (createInvites cfg dto user) R fun _ => I := by
  refine requireTenantActor_outline.bind fun tenantId => ?_
  dsimp only
  split
  · exact outline_fail fun _ h => h
  · refine assertSeatsAvailable_outline.bind fun _ => ?_
    have herror (n : ℕ) : ∀ (_ : ServiceError) (db : Database), I db ∧ db.HasRoom times tenantId n → I db :=
      fun _ _ h => h.1
    refine (requireActiveTenant_outline.conseq (fun _ h => h) (fun _ _ h => h) (herror _)).bind fun _ => ?_
    refine (resolveRoleId_outline.conseq (fun _ h => h) (fun _ _ h => h) (herror _)).bind fun roleId => ?_
    refine Outline.bind (Q := fun _ db => I db ∧ db.HasRoom times tenantId
      (dto.emails.map cfg.normalizeEmail).length) (.read fun _ _ _ h => h) fun c => ?_
    refine (hash_outline.conseq (fun _ h => h) (fun _ _ h => h) (herror _)).bind fun hashes => ?_
    refine Outline.bind ((hwrite tenantId roleId _).pre fun db h => ⟨h.1, h.2.mono ?_, ?_⟩) fun created => ?_
    · rw [List.length_map, List.length_zip]
      exact Nat.min_le_left _ _
    · intro p hp
      obtain ⟨pair, hpair, rfl⟩ := List.mem_map.mp hp
      obtain ⟨raw, -, heq⟩ := List.mem_map.mp (List.of_mem_zip hpair).1
      exact ⟨raw, heq.symm⟩
    · cases created with
      | none => exact outline_fail fun _ h => h
      | some invites => exact .pure fun _ h => h

theorem createInvites_outline (hI : KeptByGrounded cfg times I) (dto : CreateUserInvitesDto)
    (user : AuthenticatedUser) :
    Outline (serving cfg times) I (createInvites cfg dto user) (fun _ => I) fun _ => I := by
  refine createInvites_batch dto user fun tenantId roleId prepared => ?_
  have hkept : Outline (serving cfg times)
      (fun db => I db ∧ db.HasRoom times tenantId prepared.length ∧
        ∀ p ∈ prepared, ∃ raw, p.email = cfg.normalizeEmail raw)
      (request (.createInvites tenantId roleId prepared user.tenantUserId)) (fun _ => I) fun _ => I :=
    outline_write fun db outside h hnow => hI _ db outside h.1 h.2 hnow
  refine hkept.conseq (fun _ h => h) (fun created db h => ?_) fun _ _ h => h
  cases created <;> exact h

theorem resendInvite_outline (hI : KeptByGrounded cfg times I) (inviteId : ℕ) (user : AuthenticatedUser) :
    Outline (serving cfg times) I (resendInvite cfg inviteId user) (fun _ => I) fun _ => I := by
  refine requireTenantActor_outline.bind fun tenantId => ?_
  refine Outline.bind (Q := fun existing db => I db ∧ ∀ invite, existing = some invite →
    invite ∈ db.userInvites ∧ invite.tenantId = tenantId) ?_ fun existing => ?_
  · refine outline_read rfl fun db outside existing hdb ha => ⟨hdb, fun invite hinvite => ?_⟩
    subst hinvite
    have hfound := Except.ok.inj ha
    have hcond := List.find?_some hfound
    simp only [Bool.and_eq_true, decide_eq_true_eq] at hcond
    exact ⟨List.mem_of_find?_eq_some hfound, hcond.2⟩
  · cases existing with
    | none => exact outline_fail fun _ h => h.1
    | some existing =>
      dsimp only
      split
      · exact outline_fail fun _ h => h.1
      · rename_i hstatus
        have hpending : existing.status = .PENDING := by simpa using hstatus
        split
        · exact outline_fail fun _ h => h.1
        · refine Outline.bind (Q := fun _ db => I db ∧ existing ∈ db.userInvites ∧
            (db.HasRoom times existing.tenantId 1 ∨ ∃ now, times now ∧ now < existing.expiresAt)) ?_
            fun _ => ?_
          · refine Outline.bind (Q := fun now db => times now ∧ I db ∧ existing ∈ db.userInvites ∧
              existing.tenantId = tenantId) ?_ fun now => ?_
            · refine outline_now.conseq (fun _ h => h) (fun now db h => ?_) fun _ _ h => h.1
              exact ⟨h.1, h.2.1, (h.2.2 existing rfl).1, (h.2.2 existing rfl).2⟩
            · split
              · refine assertSeatsAvailable_outline.conseq (fun _ h => h) (fun _ db h => ?_) fun _ _ h => h.2.1
                obtain ⟨⟨-, hdb, hmem, htenant⟩, hroom⟩ := h
                exact ⟨hdb, hmem, .inl (htenant ▸ hroom)⟩
              · rename_i hlive
                exact .pure fun db h => ⟨h.2.1, h.2.2.1, .inr ⟨now, h.1, by omega⟩⟩
          · refine (requireActiveTenant_outline.conseq (fun _ h => h) (fun _ _ h => h) fun _ _ h => h.1).bind
              fun _ => ?_
            refine Outline.bind (Q := fun _ db => I db ∧ existing ∈ db.userInvites ∧
              (db.HasRoom times existing.tenantId 1 ∨ ∃ now, times now ∧ now < existing.expiresAt))
              (.read fun _ _ _ h => h) fun c => ?_
            refine Outline.bind (outline_write fun db outside h hnow => ?_) fun replacement => ?_
            · exact hI _ db outside h.1 ⟨h.2.1, hpending, h.2.2⟩ hnow
            · cases replacement with
              | none => exact outline_fail fun _ h => h
              | some invite => exact .pure fun _ h => h

theorem redeemPending_outline (hI : KeptByGrounded cfg times I) {invite : UserInvite}
    {hash fullName : String} {redeemedAt : ℕ} (hpending : invite.status = .PENDING)
    (hlive : redeemedAt < invite.expiresAt) (htime : times redeemedAt) :
    Outline (serving cfg times) (fun db => I db ∧ invite ∈ db.userInvites)
      (redeemPending invite hash fullName redeemedAt) (fun _ => I) fun _ => I := by
  unfold redeemPending
  split
  · exact outline_fail fun _ h => h.1
  · rename_i userId huser
    refine Outline.bind (Q := fun found db => (I db ∧ invite ∈ db.userInvites) ∧ ∀ user, found = some user →
      user ∈ db.tenantUsers ∧ user.id = userId ∧ user.status = .PENDING_INVITE) ?_ fun found => ?_
    · refine (outline_read rfl fun db outside found hdb ha => ?_).conseq (fun _ h => h) (fun _ _ h => h)
        fun _ _ h => h.1
      refine ⟨hdb, fun user hfound => ?_⟩
      subst hfound
      have hfind := Except.ok.inj ha
      have hcond := List.find?_some hfind
      simp only [Bool.and_eq_true, decide_eq_true_eq] at hcond
      exact ⟨List.mem_of_find?_eq_some hfind, hcond.1.1, hcond.2⟩
    · cases found with
      | none => exact outline_fail fun _ h => h.1.1
      | some user =>
        refine Outline.bind (outline_write fun db outside h hnow => ?_) fun consumed => ?_
        · obtain ⟨⟨hdb, hmem⟩, hfound⟩ := h
          obtain ⟨huserMem, hid, hstatus⟩ := hfound user rfl
          exact hI _ db outside hdb
            ⟨hmem, huserMem, hpending, hlive, htime, by rw [huser, hid], hstatus⟩ hnow
        · cases consumed
          · exact outline_fail fun _ h => h
          · exact .pure fun _ h => h

theorem redeemInvite_outline (hI : KeptByGrounded cfg times I) (dto : RedeemUserInviteDto) :
    Outline (serving cfg times) I (redeemInvite cfg dto) (fun _ => I) fun _ => I := by
  unfold redeemInvite
  split
  · exact outline_fail fun _ h => h
  · refine assertPasswordMeetsPolicy_outline.bind fun _ => ?_
    dsimp only
    split
    · exact outline_fail fun _ h => h
    · refine hash_outline.bind fun hash => ?_
      refine Outline.bind outline_now fun redeemedAt => ?_
      refine Outline.bind (Q := fun found db => (times redeemedAt ∧ I db) ∧ ∀ row, found = some row →
        row.1 ∈ db.userInvites) ?_ fun found => ?_
      · refine (outline_read rfl fun db outside found hdb ha => ?_).conseq (fun _ h => h) (fun _ _ h => h)
          fun _ _ h => h.2
        refine ⟨hdb, fun row hrow => ?_⟩
        subst hrow
        obtain ⟨invite, hinvite, rfl⟩ := Option.map_eq_some_iff.mp (Except.ok.inj ha)
        exact List.mem_of_find?_eq_some hinvite
      · cases found with
        | none => exact outline_fail fun _ h => h.1.2
        | some row =>
          obtain ⟨invite, tenantActive⟩ := row
          dsimp only
          split
          · exact outline_fail fun _ h => h.1.2
          · rename_i hvalid
            simp only [not_or, ne_eq, not_not, not_le] at hvalid
            intro db h
            exact redeemPending_outline hI hvalid.1 hvalid.2.1 h.1.1 db ⟨h.1.2, h.2 _ rfl⟩

/-- Every request writes on the grounds of what it has read. -/
theorem Request.code_outline (hI : KeptByGrounded cfg times I) (r : Request) :
    Outline (serving cfg times) I (r.code cfg) (fun _ => I) fun _ => I := by
  have hinvite {user : AuthenticatedUser} {p : Service Response}
      (hp : Outline (serving cfg times) I p (fun _ => I) fun _ => I) :
      Outline (serving cfg times) I (do requireInvitePermission user; p) (fun _ => I) fun _ => I :=
    Outline.bind (outline_reads (requireInvitePermission_makes (H := fun _ => False)) fun _ h => h.elim)
      fun _ => hp
  cases r with
  | approveUser id user => exact jwtAuthGuard_outline.bind fun _ => approveUser_outline hI id user
  | lockUser id user => exact jwtAuthGuard_outline.bind fun _ => lockUser_outline hI id user
  | unlockUser id user => exact jwtAuthGuard_outline.bind fun _ => unlockUser_outline hI id user
  | directCreate dto user => exact jwtAuthGuard_outline.bind fun _ => directCreate_outline hI dto user
  | createInvites dto user =>
    exact jwtAuthGuard_outline.bind fun _ => hinvite (createInvites_outline hI dto user)
  | resendInvite id user =>
    exact jwtAuthGuard_outline.bind fun _ => hinvite (resendInvite_outline hI id user)
  | redeemInvite dto => exact redeemInvite_outline hI dto
  | register dto tenantId => exact register_outline hI dto tenantId
  | _ =>
    refine outline_makes hI (Request.code_makes cfg _) fun op hmakes db => ?_
    cases op <;> trivial

/-- What the code is proved to answer and to leave behind, it does when it is served. -/
theorem Serving.serve_cases {v : Serving} {db : Database} {P : Database → Prop}
    {Q : Response → Database → Prop} {E : ServiceError → Database → Prop} (hreads : v.Reads times)
    (h : Outline (serving cfg times) P (v.request.code cfg) Q E) (hdb : P db) :
    (∃ r, (v.serve cfg db).1 = .ok r ∧ Q r (v.serve cfg db).2) ∨
      ∃ e, (v.serve cfg db).1 = .error e ∧ E e (v.serve cfg db).2 := by
  have hexec (i : ℕ) (op : Op) (db : Database) : (serving cfg times).exec op db
      (op.perform cfg (v.outside i) db).2 (op.perform cfg (v.outside i) db).1 :=
    ⟨v.outside i, (hreads i).2, rfl⟩
  have hrun := (h db hdb).eval v.ctx _ (fun i => (hreads i).1) hexec 0
  unfold Serving.serve
  revert hrun
  cases h : (v.request.code cfg).eval v.ctx (fun i op db => op.perform cfg (v.outside i) db) 0 db with
  | mk answer db' =>
    cases answer with
    | ok r => exact fun hq => .inl ⟨r, rfl, hq⟩
    | error e => exact fun he => .inr ⟨e, rfl, he⟩

theorem Serving.serve_outline {v : Serving} {db : Database} {P : Database → Prop} (hreads : v.Reads times)
    (h : Outline (serving cfg times) P (v.request.code cfg) (fun _ => I) fun _ => I) (hdb : P db) :
    I (v.serve cfg db).2 := by
  rcases serve_cases hreads h hdb with ⟨r, -, hI⟩ | ⟨e, -, hI⟩
  · exact hI
  · exact hI

theorem Serving.serve_keeps (hI : KeptByGrounded cfg times I) {v : Serving} (hreads : v.Reads times)
    {db : Database} (hdb : I db) : I (v.serve cfg db).2 :=
  serve_outline hreads (Request.code_outline hI v.request) hdb

end

/-! ### From one database on

`I` is what is to hold after an answer, `E` after an error. -/

section
variable {cfg : Config} {d : Database} {I E : Database → Prop} {α β : Type}

theorem outline_now_read :
    Outline (serving cfg fun _ => True) (· = d) now (fun _ db => db = d) fun _ db => db = d :=
  outline_now.conseq (fun _ h => h) (fun _ _ h => h.2) fun _ _ h => h

theorem outline_then {p : Service α} {f : α → Service β} {G : α → Prop} (hd : E d)
    (hp : Outline (serving cfg fun _ => True) (· = d) p (fun x db => db = d ∧ G x) fun _ db => db = d)
    (hf : ∀ x, G x → Outline (serving cfg fun _ => True) (· = d) (f x) (fun _ => I) fun _ => E) :
    Outline (serving cfg fun _ => True) (· = d) (p >>= f) (fun _ => I) fun _ => E := by
  have hp := hp.conseq (fun _ h => h) (fun _ _ h => h) fun _ db (h : db = d) => h ▸ hd
  exact hp.bind fun x db h => hf x h.2 db h.1

theorem outline_then_reads {p : Service α} {f : α → Service β} (hd : E d)
    (hp : Outline (serving cfg fun _ => True) (· = d) p (fun _ db => db = d) fun _ db => db = d)
    (hf : ∀ x, Outline (serving cfg fun _ => True) (· = d) (f x) (fun _ => I) fun _ => E) :
    Outline (serving cfg fun _ => True) (· = d) (p >>= f) (fun _ => I) fun _ => E :=
  outline_then hd (G := fun _ => True)
    (hp.conseq (fun _ h => h) (fun _ _ h => ⟨h, trivial⟩) fun _ _ h => h) fun x _ => hf x

theorem outline_refused {e : HttpError} (hd : E d) :
    Outline (serving cfg fun _ => True) (· = d) (fail e : Service α) (fun _ => I) fun _ => E :=
  outline_fail fun _ h => h ▸ hd

/-- A lookup, and what the database says of its answer. -/
theorem outline_lookup {op : Op} {f : op.Res → Service α} {G : op.Res → Prop} (hd : E d)
    (hop : op.writes = []) (hG : ∀ outside x, (op.effect cfg outside d).1 = .ok x → G x)
    (hf : ∀ x, G x → Outline (serving cfg fun _ => True) (· = d) (f x) (fun _ => I) fun _ => E) :
    Outline (serving cfg fun _ => True) (· = d) (request op >>= f) (fun _ => I) fun _ => E := by
  refine outline_then hd (outline_read hop fun db outside x hdb hx => ⟨hdb, ?_⟩) hf
  rw [hdb] at hx
  exact hG outside x hx

theorem outline_then_writes {op : Op} {f : op.Res → Service α} (hd : E d)
    (hI : ∀ outside, I (op.perform cfg outside d).2)
    (hf : ∀ x, Outline (serving cfg fun _ => True) I (f x) (fun _ => I) fun _ => E) :
    Outline (serving cfg fun _ => True) (· = d) (request op >>= f) (fun _ => I) fun _ => E := by
  refine Outline.bind (outline_request fun db outside hdb _ => ⟨fun _ _ => ?_, fun e he => ?_⟩) hf
  · rw [hdb]
    exact hI outside
  · rw [Op.perform_error he, hdb]
    exact hd

end

end Flexi.Accounts
