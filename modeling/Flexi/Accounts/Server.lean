import Flexi.Accounts.Membership
import Flexi.Accounts.OtpRows
import Flexi.Accounts.PasswordReset
import Flexi.Library.Lookup

/-!
# Requests against one database

The backend at work: any number of requests in flight, each at one of its
statements. Statements and transactions are executed one at a time in any order,
and the code of a request goes on whenever the answer reaches it.
-/

namespace Flexi.Accounts
open Flexi.Library

inductive Request where
  | login (dto : LoginDto) (tenantId : Option String)
  | refresh (refreshToken : RefreshJwt)
  | logout (refreshToken : RefreshJwt) (user : AuthenticatedUser)
  | changePassword (dto : ChangePasswordDto) (user : AuthenticatedUser)
  | revokeSession (sessionId : ℕ) (user : AuthenticatedUser)
  | revokeAllSessions (keepCurrent : Bool) (user : AuthenticatedUser)
  | requestReset (email : String) (tenantId : Option String)
  | resetPassword (dto : ResetPasswordDto) (tenantId : Option String)
  | deactivate (userId : ℕ) (user : AuthenticatedUser)
  | activate (userId : ℕ) (user : AuthenticatedUser)
  | forceResetPassword (userId : ℕ) (user : AuthenticatedUser)
  | approveUser (userId : ℕ) (user : AuthenticatedUser)
  | lockUser (userId : ℕ) (user : AuthenticatedUser)
  | unlockUser (userId : ℕ) (user : AuthenticatedUser)
  | updateUser (userId : ℕ) (dto : UpdateUserDto) (user : AuthenticatedUser)
  | directCreate (dto : DirectCreateUserDto) (user : AuthenticatedUser)
  | createInvites (dto : CreateUserInvitesDto) (user : AuthenticatedUser)
  | resendInvite (inviteId : ℕ) (user : AuthenticatedUser)
  | revokeInvite (inviteId : ℕ) (user : AuthenticatedUser)
  | redeemInvite (dto : RedeemUserInviteDto)
  | register (dto : SelfRegisterDto) (tenantId : Option String)
  | deleteUser (userId : ℕ) (hard : Bool) (transferToUserId : Option ℕ) (user : AuthenticatedUser)

namespace Request

def isLogin : Request → Bool
  | login _ _ => true
  | _ => false

/-- The caller of an authenticated route. -/
def user? : Request → Option AuthenticatedUser
  | logout _ user | changePassword _ user | revokeSession _ user | revokeAllSessions _ user
  | deactivate _ user | activate _ user | forceResetPassword _ user | approveUser _ user
  | lockUser _ user | unlockUser _ user | updateUser _ _ user | directCreate _ user
  | createInvites _ user | resendInvite _ user | revokeInvite _ user | deleteUser _ _ _ user =>
    some user
  | login _ _ | refresh _ | requestReset _ _ | resetPassword _ _ | redeemInvite _
  | register _ _ => none

/-- The route's handler. -/
def handler (cfg : Config) : Request → Service Response
  | login dto tenantId => Accounts.login cfg dto tenantId
  | refresh refreshToken => Accounts.refresh cfg refreshToken
  | logout refreshToken user => Accounts.logout cfg refreshToken user
  | changePassword dto user => Accounts.changePassword dto user
  | revokeSession sessionId user => Accounts.revokeSession sessionId user
  | revokeAllSessions keepCurrent user => Accounts.revokeAllSessions keepCurrent user
  | requestReset email tenantId => Accounts.requestReset cfg email tenantId
  | resetPassword dto tenantId => Accounts.resetPassword cfg dto tenantId
  | deactivate userId user => Accounts.deactivate userId user
  | activate userId user => Accounts.activate userId user
  | forceResetPassword userId user => Accounts.forceResetPassword userId user
  | approveUser userId user => Accounts.approveUser userId user
  | lockUser userId user => Accounts.lockUser userId user
  | unlockUser userId user => Accounts.unlockUser userId user
  | updateUser userId dto user => Accounts.updateUser userId dto user
  | directCreate dto user => Accounts.directCreate cfg dto user
  | createInvites dto user => do
    requireInvitePermission user
    Accounts.createInvites cfg dto user
  | resendInvite inviteId user => do
    requireInvitePermission user
    Accounts.resendInvite cfg inviteId user
  | revokeInvite inviteId user => do
    requireInvitePermission user
    Accounts.revokeInvite inviteId user
  | redeemInvite dto => Accounts.redeemInvite cfg dto
  | register dto tenantId => Accounts.register cfg dto tenantId
  | deleteUser userId hard transferToUserId user =>
    Accounts.deleteUser userId hard transferToUserId user

/-- The code of a request: the guard of an authenticated route, then its handler. -/
def code (cfg : Config) (r : Request) : Service Response :=
  match r.user? with
  | none => r.handler cfg
  | some user => do
    jwtAuthGuard user
    r.handler cfg

end Request

abbrev RequestThread := Thread Op Op.Res Context ServiceError Response

structure InFlight where
  request : Request
  thread : RequestThread

/-- `issued` are the access tokens the server has signed, `clock` the time. Requests
stay in the list after they are answered. -/
structure Server where
  db : Database
  requests : List InFlight
  issued : List AccessJwt
  clock : ℕ

inductive ServerEvent where
  | arrive (r : Request) (c : Context)
  | execute (i : ℕ) (outside : Outside)
  | deliver (i : ℕ) (c : Context)
  | tick (d : ℕ)

namespace Server

/-- The access token a request carries is one of the server's and has not expired. -/
def admits (s : Server) (r : Request) : Bool :=
  r.user?.all fun user => s.issued.any fun token =>
    token.payload = user && s.clock / 1000 < token.exp

/-- The access token of an answer. -/
def signed : RequestThread → List AccessJwt
  | .finished (.ok (.tokens tokens)) => [tokens.accessToken]
  | _ => []

def step (cfg : Config) (s : Server) : ServerEvent → Option Server
  | .arrive r c =>
    if s.admits r then
      some { s with
        requests := s.requests ++ [⟨r, (r.code cfg).advance { c with now := s.clock }⟩] }
    else none
  | .execute i outside =>
    match s.requests[i]? with
    | none => none
    | some f =>
      (f.thread.execute (Op.perform cfg { outside with now := s.clock }) s.db).map
        fun (thread, db) => { s with db := db, requests := s.requests.set i ⟨f.request, thread⟩ }
  | .deliver i c =>
    match s.requests[i]? with
    | none => none
    | some f =>
      (f.thread.deliver { c with now := s.clock }).map fun thread =>
        { s with
          requests := s.requests.set i ⟨f.request, thread⟩
          issued := s.issued ++ signed thread }
  | .tick d => some { s with clock := s.clock + d }

/-- Nobody has asked for anything yet. -/
def Idle (s : Server) : Prop := s.requests = []

/-- The execution of an operation as of now. -/
def perform (cfg : Config) (s : Server) (outside : Outside) (op : Op) :
    Except ServiceError op.Res × Database :=
  Op.perform cfg { outside with now := s.clock } op s.db

/-- The operation a step executes, with its answer, and the request it is of. -/
def executed (cfg : Config) (s : Server) :
    ServerEvent → Option (ℕ × ((op : Op) × Except ServiceError op.Res))
  | .execute i outside =>
    match s.requests[i]? with
    | some ⟨_, .awaiting op _⟩ => some (i, ⟨op, (s.perform cfg outside op).1⟩)
    | _ => none
  | _ => none

/-! ### What a step does -/

section
variable {cfg : Config} {s s' : Server}

theorem executed_execute {i : ℕ} {outside : Outside} {r : Request} {op : Op}
    {k : Except ServiceError op.Res → Service Response}
    (hi : s.requests[i]? = some ⟨r, .awaiting op k⟩) :
    s.executed cfg (.execute i outside) = some (i, ⟨op, (s.perform cfg outside op).1⟩) := by
  rw [executed, hi]

theorem executed_eq_some {e : ServerEvent} {i : ℕ} {op : Op} {answer : Except ServiceError op.Res}
    (h : s.executed cfg e = some (i, ⟨op, answer⟩)) : ∃ outside r k, e = .execute i outside ∧
      s.requests[i]? = some ⟨r, .awaiting op k⟩ ∧ answer = (s.perform cfg outside op).1 := by
  cases e with
  | execute j outside =>
    simp only [executed] at h
    split at h
    · rename_i r op' k hj
      cases h
      exact ⟨outside, r, k, rfl, hj, rfl⟩
    · cases h
  | _ => cases h

theorem step_arrive {r : Request} {c : Context} (h : s.step cfg (.arrive r c) = some s') :
    s.admits r = true ∧ s' = { s with
      requests := s.requests ++ [⟨r, (r.code cfg).advance { c with now := s.clock }⟩] } := by
  rw [step] at h
  split at h
  · exact ⟨‹_›, (Option.some.inj h).symm⟩
  · cases h

theorem step_execute {i : ℕ} {outside : Outside} (h : s.step cfg (.execute i outside) = some s') :
    ∃ r op k, s.requests[i]? = some ⟨r, .awaiting op k⟩ ∧ s' = { s with
      db := (s.perform cfg outside op).2
      requests := s.requests.set i ⟨r, .answered op (s.perform cfg outside op).1 k⟩ } := by
  rw [step] at h
  split at h
  · cases h
  · rename_i f hf
    obtain ⟨⟨thread, db⟩, hx, hs⟩ := Option.map_eq_some_iff.mp h
    obtain ⟨r, t⟩ := f
    cases t with
    | awaiting op k =>
      cases hx
      exact ⟨r, op, k, hf, hs.symm⟩
    | answered op a k => cases hx
    | finished a => cases hx

theorem step_deliver {i : ℕ} {c : Context} (h : s.step cfg (.deliver i c) = some s') :
    ∃ r op a k, s.requests[i]? = some ⟨r, .answered op a k⟩ ∧ s' = { s with
      requests := s.requests.set i ⟨r, (k a).advance { c with now := s.clock }⟩
      issued := s.issued ++ signed ((k a).advance { c with now := s.clock }) } := by
  rw [step] at h
  split at h
  · cases h
  · rename_i f hf
    obtain ⟨thread, hx, hs⟩ := Option.map_eq_some_iff.mp h
    obtain ⟨r, t⟩ := f
    cases t with
    | awaiting op k => cases hx
    | answered op a k =>
      cases hx
      exact ⟨r, op, a, k, hf, hs.symm⟩
    | finished a => cases hx

theorem step_tick {d : ℕ} (h : s.step cfg (.tick d) = some s') :
    s' = { s with clock := s.clock + d } :=
  (Option.some.inj h).symm

/-! ### Every thread is its request's code on its way -/

def FromCode (cfg : Config) (s : Server) : Prop :=
  ∀ (i : ℕ) (f : InFlight), s.requests[i]? = some f → f.thread.Of (f.request.code cfg)

theorem getElem?_arrive {l : List InFlight} {f f' : InFlight} {i : ℕ}
    (h : (l ++ [f])[i]? = some f') : l[i]? = some f' ∨ f' = f ∧ i = l.length := by
  rw [List.getElem?_append] at h
  split at h
  · exact .inl h
  · have hi : i - l.length = 0 := by
      by_contra hne
      rw [List.getElem?_eq_none (by simp; omega)] at h
      cases h
    rw [hi] at h
    exact .inr ⟨(Option.some.inj h).symm, by omega⟩

theorem getElem?_set {l : List InFlight} {f f' : InFlight} {i j : ℕ}
    (h : (l.set i f)[j]? = some f') : j = i ∧ f' = f ∨ j ≠ i ∧ l[j]? = some f' := by
  by_cases hji : j = i
  · subst hji
    rw [List.getElem?_set] at h
    split at h
    · split at h
      · exact .inl ⟨rfl, (Option.some.inj h).symm⟩
      · cases h
    · exact .inr ⟨fun _ => by contradiction, h⟩
  · exact .inr ⟨hji, by rwa [List.getElem?_set_ne (Ne.symm hji)] at h⟩

theorem step_db {e : ServerEvent} (h : s.step cfg e = some s') :
    s'.db = s.db ∨ ∃ outside op, s'.db = (s.perform cfg outside op).2 := by
  cases e with
  | arrive r c =>
    obtain ⟨-, rfl⟩ := step_arrive h
    exact .inl rfl
  | execute i outside =>
    obtain ⟨r, op, k, -, rfl⟩ := step_execute h
    exact .inr ⟨outside, op, rfl⟩
  | deliver i c =>
    obtain ⟨r, op, answer, k, -, rfl⟩ := step_deliver h
    exact .inl rfl
  | tick d =>
    cases step_tick h
    exact .inl rfl

theorem step_keeps {P : Database → Prop} {e : ServerEvent} (hs : s.step cfg e = some s') (hP : P s.db)
    (hperform : ∀ (i : ℕ) (outside : Outside) (r : Request) (op : Op)
      (k : Except ServiceError op.Res → Service Response),
      s.requests[i]? = some ⟨r, .awaiting op k⟩ → P (s.perform cfg outside op).2) : P s'.db := by
  cases e with
  | arrive r c =>
    obtain ⟨-, rfl⟩ := step_arrive hs
    exact hP
  | execute i outside =>
    obtain ⟨r, op, k, hi, rfl⟩ := step_execute hs
    exact hperform i outside r op k hi
  | deliver i c =>
    obtain ⟨r, op, answer, k, -, rfl⟩ := step_deliver hs
    exact hP
  | tick d =>
    cases step_tick hs
    exact hP

/-- A request stays where it is, or its operation is executed, or its answer is
delivered. -/
theorem step_request {e : ServerEvent} {i : ℕ} {r : Request} {t : RequestThread}
    (h : s.step cfg e = some s') (hi : s.requests[i]? = some ⟨r, t⟩) :
    s'.requests[i]? = some ⟨r, t⟩ ∨
    (∃ outside op k, e = .execute i outside ∧ t = .awaiting op k ∧
      s'.requests[i]? = some ⟨r, .answered op (s.perform cfg outside op).1 k⟩ ∧
      s'.db = (s.perform cfg outside op).2) ∨
    ∃ op answer k c, e = .deliver i c ∧ t = .answered op answer k ∧ s'.db = s.db ∧
      s'.requests[i]? = some ⟨r, (k answer).advance { c with now := s.clock }⟩ := by
  obtain ⟨hlt, -⟩ := List.getElem?_eq_some_iff.mp hi
  cases e with
  | arrive r' c =>
    obtain ⟨-, rfl⟩ := step_arrive h
    exact .inl (by rwa [List.getElem?_append_left hlt])
  | execute j outside =>
    obtain ⟨r', op, k, hj, rfl⟩ := step_execute h
    by_cases hji : j = i
    · subst hji
      cases hi.symm.trans hj
      exact .inr (.inl ⟨outside, op, k, rfl, rfl, List.getElem?_set_self hlt, rfl⟩)
    · exact .inl (by rwa [List.getElem?_set_ne hji])
  | deliver j c =>
    obtain ⟨r', op, answer, k, hj, rfl⟩ := step_deliver h
    by_cases hji : j = i
    · subst hji
      cases hi.symm.trans hj
      exact .inr (.inr ⟨op, answer, k, c, rfl, rfl, rfl, List.getElem?_set_self hlt⟩)
    · exact .inl (by rwa [List.getElem?_set_ne hji])
  | tick d =>
    cases step_tick h
    exact .inl hi

theorem FromCode.step {e : ServerEvent} (h : s.FromCode cfg) (hs : s.step cfg e = some s') :
    s'.FromCode cfg := by
  intro j f hf
  cases e with
  | arrive r c =>
    obtain ⟨-, rfl⟩ := step_arrive hs
    rcases getElem?_arrive hf with hf | ⟨rfl, -⟩
    · exact h j f hf
    · exact .start _
  | execute i outside =>
    obtain ⟨r, op, k, hi, rfl⟩ := step_execute hs
    rcases getElem?_set hf with ⟨-, rfl⟩ | ⟨-, hf⟩
    · exact .execute _ (h i _ hi)
    · exact h j f hf
  | deliver i c =>
    obtain ⟨r, op, a, k, hi, rfl⟩ := step_deliver hs
    rcases getElem?_set hf with ⟨-, rfl⟩ | ⟨-, hf⟩
    · exact .deliver _ (h i _ hi)
    · exact h j f hf
  | tick d =>
    cases step_tick hs
    exact h j f hf

/-- Every request but `i` has been answered. -/
def answeredBut (s : Server) (i : ℕ) : Bool :=
  (List.range s.requests.length).all fun j =>
    j = i || (s.requests[j]?).all (·.thread.op?.isNone)

theorem cautious_of_answered {C : Check Op Op.Res ServiceError} {i j : ℕ} {f : InFlight}
    (h : s.answeredBut i = true) (hne : j ≠ i) (hf : s.requests[j]? = some f) :
    f.thread.Cautious C := by
  obtain ⟨hlt, -⟩ := List.getElem?_eq_some_iff.mp hf
  have hj := List.all_eq_true.mp h j (List.mem_range.mpr hlt)
  simp only [hne, hf, decide_false, Bool.false_or, Option.all_some] at hj
  cases hthread : f.thread with
  | finished r => trivial
  | awaiting op k =>
    rw [hthread] at hj
    cases hj
  | answered op r k =>
    rw [hthread] at hj
    cases hj

/-- No request is past its check. -/
def CautiousBy (C : Request → Check Op Op.Res ServiceError) (s : Server) : Prop :=
  ∀ (i : ℕ) (f : InFlight), s.requests[i]? = some f → f.thread.Cautious (C f.request)

theorem CautiousBy.step {C : Request → Check Op Op.Res ServiceError} {e : ServerEvent}
    (h : s.CautiousBy C) (hs : s.step cfg e = some s')
    (hcode : ∀ r : Request, (r.code cfg).Cautious (C r) fun _ => True)
    (hanswer : ∀ i outside r op k, e = .execute i outside →
      s.requests[i]? = some ⟨r, .awaiting op k⟩ →
        ¬ (C r).passes op (s.perform cfg outside op).1) : s'.CautiousBy C := by
  intro j f hf
  cases e with
  | arrive r c =>
    obtain ⟨-, rfl⟩ := step_arrive hs
    rcases getElem?_arrive hf with hf | ⟨rfl, -⟩
    · exact h j f hf
    · exact Thread.Cautious.advance (hcode r) _
  | execute i outside =>
    obtain ⟨r, op, k, hi, rfl⟩ := step_execute hs
    rcases getElem?_set hf with ⟨-, rfl⟩ | ⟨-, hf⟩
    · exact (h i _ hi).answer (hanswer i outside r op k rfl hi)
    · exact h j f hf
  | deliver i c =>
    obtain ⟨r, op, answer, k, hi, rfl⟩ := step_deliver hs
    rcases getElem?_set hf with ⟨-, rfl⟩ | ⟨-, hf⟩
    · exact (h i _ hi).deliver _
    · exact h j f hf
  | tick d =>
    cases step_tick hs
    exact h j f hf

/-- No thread is past its check. -/
def AllCautious (C : Check Op Op.Res ServiceError) (s : Server) : Prop :=
  ∀ (i : ℕ) (f : InFlight), s.requests[i]? = some f → f.thread.Cautious C

theorem AllCautious.step {C : Check Op Op.Res ServiceError} {e : ServerEvent} (h : s.AllCautious C)
    (hs : s.step cfg e = some s') (hcode : ∀ r : Request, (r.code cfg).Cautious C fun _ => True)
    (hanswer : ∀ i outside r op k, e = .execute i outside →
      s.requests[i]? = some ⟨r, .awaiting op k⟩ → ¬ C.passes op (s.perform cfg outside op).1) :
    s'.AllCautious C := by
  have hby : s.CautiousBy fun _ => C := h
  exact hby.step hs hcode hanswer

theorem Idle.fromCode (h : s.Idle) : s.FromCode cfg := by
  intro i f hf
  rw [h] at hf
  cases hf

/-! ### Requests that act on a row they have looked up -/

/-- The requests in `R` stand where `L` says; `Fact` holds of the rows they have found, and
`Q` of those rows and the threads. -/
def Follow {ρ : Type} (R : Request → Prop) (L : Lookup Op Op.Res Context ServiceError Response ρ)
    (Fact : ρ → Database → Prop) (Q : ρ → RequestThread → Prop) (s : Server) : Prop :=
  ∀ (i : ℕ) (f : InFlight), s.requests[i]? = some f → R f.request →
    f.thread.At L (fun x => Fact x s.db) Q

theorem Follow.step {ρ : Type} {R : Request → Prop}
    {L : Lookup Op Op.Res Context ServiceError Response ρ} {Fact : ρ → Database → Prop}
    {Q : ρ → RequestThread → Prop} {e : ServerEvent} (h : s.Follow R L Fact Q)
    (hs : s.step cfg e = some s') (hcode : ∀ r, R r → (r.code cfg).LooksUp L)
    (hfact : ∀ i outside r op k x, e = .execute i outside →
      s.requests[i]? = some ⟨r, .awaiting op k⟩ → Fact x s.db → Fact x (s.perform cfg outside op).2)
    (hfinds : ∀ outside op x, L.finds op (s.perform cfg outside op).1 = some x →
      Fact x (s.perform cfg outside op).2)
    (hnext : ∀ x p c, L.next x p → Q x (p.advance c))
    (hdeliver : ∀ x op answer k c, Q x (.answered op answer k) → Q x ((k answer).advance c))
    (hexecute : ∀ i outside r op k x, e = .execute i outside → R r →
      s.requests[i]? = some ⟨r, .awaiting op k⟩ → Fact x s.db → Q x (.awaiting op k) →
      Q x (.answered op (s.perform cfg outside op).1 k)) : s'.Follow R L Fact Q := by
  intro j f hf hR
  cases e with
  | arrive r c =>
    obtain ⟨-, rfl⟩ := step_arrive hs
    rcases getElem?_arrive hf with hf | ⟨rfl, -⟩
    · exact h j f hf hR
    · exact .advance (hcode r hR) _
  | execute i outside =>
    obtain ⟨r, op, k, hi, rfl⟩ := step_execute hs
    rcases getElem?_set hf with ⟨-, rfl⟩ | ⟨-, hf⟩
    · exact (h i _ hi hR).execute (fun x => hfact i outside r op k x rfl hi) (hfinds outside op)
        fun x hx hq => hexecute i outside r op k x rfl hR hi hx hq
    · exact (h j f hf hR).mono (fun x => hfact i outside r op k x rfl hi) fun _ hq => hq
  | deliver i c =>
    obtain ⟨r, op, answer, k, hi, rfl⟩ := step_deliver hs
    rcases getElem?_set hf with ⟨-, rfl⟩ | ⟨-, hf⟩
    · exact (h i _ hi hR).deliver (fun x p _ hn => hnext x p _ hn) fun x hq => hdeliver _ _ _ _ _ hq
    · exact h j f hf hR
  | tick d =>
    cases step_tick hs
    exact h j f hf hR

theorem Follow.of_idle {ρ : Type} {R : Request → Prop}
    {L : Lookup Op Op.Res Context ServiceError Response ρ} {Fact : ρ → Database → Prop}
    {Q : ρ → RequestThread → Prop} (h : s.Idle) : s.Follow R L Fact Q := by
  intro i f hf
  rw [h] at hf
  cases hf

end

end Server

/-! ### A small installation -/

/-- Passwords are their own hashes, and a refresh token's hash is its `jti`. -/
def plainConfig : Config where
  js := ⟨String.toLower⟩
  compare password passwordHash := password == passwordHash
  hashToken
    | .signed _ jti _ => jti
    | .other text => text
  sha256 text := text

def acmeContext (jti : String) : Context where
  now := 0
  newJti := jti
  newOtp := "123456"
  newTemporaryPassword := "Temporary-1234"
  newInviteToken email := email
  newUnusablePassword email := email

def quiet : Outside := ⟨false, 0, 0, id, .noMetaTables⟩

/-- Ann administers the tenant `acme`, Bob is a member of it. -/
def acmeDb : Database where
  authAccounts := [{ id := 2, email := "ann@acme.io", passwordHash := "Ann-Secret-12" },
    { id := 3, email := "bob@acme.io", passwordHash := "Bob-Secret-12" }]
  tenantUsers := [{ id := 4, tenantId := "acme", authAccountId := 2, roles := [1] },
    { id := 5, tenantId := "acme", authAccountId := 3 }]
  systemUsers := []
  roles := [{ id := 1, tenantId := some "acme", name := "Admin",
              permissions := [TENANT_USER_MANAGE_PERMISSION,
                TENANT_ACCOUNT_RESET_PASSWORD_PERMISSION, TENANT_USER_INVITE_PERMISSION,
                TENANT_SESSION_MANAGE_PERMISSION] }]
  refreshTokens := []
  passwordResetOtps := []
  userInvites := []
  tenants := [{ id := "acme", status := .ACTIVE, maxUsers := -1 }]
  tenantSettings := []
  nextId := 6

/-- The payload of a member's access token. -/
def acmeUser (tenantUserId authAccountId : ℕ) (email : String) (roles : List Role)
    (sessionId : Option ℕ) : AuthenticatedUser where
  authAccountId := authAccountId
  actorType := .TENANT
  tenantId := some "acme"
  tenantUserId := some tenantUserId
  systemUserId := none
  email := email
  name := none
  roles := roles.map (·.name)
  permissions := flattenPermissions roles
  sessionId := sessionId
  mustChangePassword := false

def ann : AuthenticatedUser := acmeUser 4 2 "ann@acme.io" acmeDb.roles none

def bob : AuthenticatedUser := acmeUser 5 3 "bob@acme.io" [] none

def acme : Server where
  db := acmeDb
  requests := []
  issued := [⟨ann, 15 * 60⟩, ⟨bob, 15 * 60⟩]
  clock := 0

theorem acme_idle : acme.Idle := rfl

theorem acme_keyed : acme.db.Keyed :=
  ⟨by decide, by decide, by decide, by decide, by decide⟩

theorem acme_otpsKeyed : acme.db.OtpsKeyed := ⟨by decide, by decide, by decide⟩

/-- The next statement of request `i` and its answer. -/
def acmeCall (i : ℕ) (jti : String) : List ServerEvent :=
  [.execute i quiet, .deliver i (acmeContext jti)]

def acmeCalls (i n : ℕ) (jti : String := "") : List ServerEvent :=
  (List.replicate n (acmeCall i jti)).flatten

end Flexi.Accounts
