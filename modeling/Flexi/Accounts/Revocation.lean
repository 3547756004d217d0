import Flexi.Accounts.Effects
import Flexi.Accounts.RequestCalls
import Flexi.Library.History

/-!
# Revocation and the tokens issued around it

A login accepts a password, a refresh accepts a refresh token, and both insert the
new token in a later statement. The history notes when each request's credential was
accepted and from which acceptance each token stems.
-/

namespace Flexi.Accounts
open Flexi.Library

/-- The answer that accepts a password or a refresh token. -/
def Op.accepts : (op : Op) → Except ServiceError op.Res → Bool
  | compare _ _, .ok passwordMatches => passwordMatches
  | rotate _ _, .ok count => count ≠ 0
  | _, _ => false

/-- Accepted first, inserted later. -/
def tokenCheck (a : ℕ) : Check Op Op.Res ServiceError where
  passes op answer := op.accepts answer = true
  acts op := ∃ hash exp, op = .createRefreshToken a hash exp

section
variable {cfg : Config} {a : ℕ}

theorem not_acts {op : Op} (h : ∀ b hash exp, op ≠ .createRefreshToken b hash exp) :
    ¬ (tokenCheck a).acts op :=
  fun ⟨hash, exp, he⟩ => h a hash exp he

theorem Makes.cautious {α : Type} {p : Service α}
    (h : Makes (fun op => ∀ b hash exp, op ≠ .createRefreshToken b hash exp) p) :
    p.Cautious (tokenCheck a) fun _ => True :=
  .of_calls h fun _ => not_acts

theorem rejectLogin_cautious {dto : LoginDto} :
    (rejectLogin dto).Cautious (tokenCheck a) fun _ => True :=
  Makes.cautious (rejectLogin_makes fun _ _ _ _ _ h => nomatch h)

theorem login_cautious (dto : LoginDto) (tenantId : Option String) :
    (login cfg dto tenantId).Cautious (tokenCheck a) fun _ => True := by
  refine Prog.Cautious.bind (Q := fun _ => True) ?_ fun actor _ => ?_
  · cases tenantId with
    | none =>
      apply Makes.cautious
      exact .bind (makes_request fun _ _ _ h => nomatch h) fun _ => .pure
    | some tenantId =>
      apply Makes.cautious
      exact resolveTenantActor_makes (fun _ _ _ _ _ h => nomatch h) fun _ _ _ _ h => nomatch h
  · cases actor with
    | none => exact rejectLogin_cautious
    | some actor =>
      dsimp only
      split
      · refine .bind (request_cautious (not_acts fun _ _ _ h => nomatch h)) fun matched hno => ?_
        -- only a password that did not match is left
        have hmatched : matched = false := Bool.eq_false_iff.mpr hno
        rw [hmatched]
        exact fail_cautious
      · exact rejectLogin_cautious

theorem refreshStored_cautious (stored : RefreshToken) (sub : ℕ) :
    (refreshStored cfg stored sub).Cautious (tokenCheck a) fun _ => True := by
  refine now_cautious.bind fun now _ => ?_
  split
  · apply Makes.cautious
    exact .bind (makes_request fun _ _ _ h => nomatch h) fun _ => makes_fail
  · split
    · exact fail_cautious
    · refine .bind (request_cautious (not_acts fun _ _ _ h => nomatch h)) fun count hno => ?_
      have hcount : count = 0 := by simpa [tokenCheck, Op.accepts] using hno
      rw [if_pos hcount]
      exact fail_cautious

theorem refresh_cautious (refreshToken : RefreshJwt) :
    (refresh cfg refreshToken).Cautious (tokenCheck a) fun _ => True := by
  refine now_cautious.bind fun now _ => ?_
  cases refreshToken.verify now with
  | none => exact fail_cautious
  | some sub =>
    refine .bind (request_cautious (not_acts fun _ _ _ h => nomatch h)) fun stored _ => ?_
    cases stored with
    | none => exact fail_cautious
    | some stored => exact refreshStored_cautious stored sub

/-- Every request sees its credential accepted before it inserts a token. -/
theorem Request.code_cautious (r : Request) :
    (r.code cfg).Cautious (tokenCheck a) fun _ => True := by
  cases r with
  | login dto tenantId => exact login_cautious dto tenantId
  | refresh refreshToken => exact refresh_cautious refreshToken
  | _ =>
    refine .of_calls (Request.code_makes cfg _) fun op hmakes => not_acts ?_
    intro b hash exp h
    rw [h] at hmakes
    cases hmakes

end

/-! ### The history of the tokens -/

/-- `accepted i` is the step in which request `i` had a credential accepted last,
`origin hash` that of the request that inserted the token. Before the run it is step 0. -/
structure TokenHistory where
  steps : ℕ
  accepted : ℕ → ℕ
  origin : String → ℕ

namespace TokenHistory

def start : TokenHistory := ⟨1, fun _ => 0, fun _ => 0⟩

def execute (h : TokenHistory) (i : ℕ) (op : Op) (answer : Except ServiceError op.Res) :
    TokenHistory :=
  { steps := h.steps + 1
    accepted := if op.accepts answer then Function.update h.accepted i h.steps else h.accepted
    origin := match op, answer with
      | .createRefreshToken _ hash _, .ok _ => Function.update h.origin hash (h.accepted i)
      | _, _ => h.origin }

theorem execute_origin {h : TokenHistory} {i : ℕ} {op : Op}
    {answer : Except ServiceError op.Res} (hop : ∀ b hash exp, op ≠ .createRefreshToken b hash exp) :
    (h.execute i op answer).origin = h.origin := by
  cases op with
  | createRefreshToken b hash exp => exact absurd rfl (hop b hash exp)
  | _ => rfl

def note (cfg : Config) (s : Server) (e : ServerEvent) (h : TokenHistory) : TokenHistory :=
  match s.executed cfg e with
  | some (i, ⟨op, answer⟩) => h.execute i op answer
  | none => { h with steps := h.steps + 1 }

end TokenHistory

/-- The server with the history of its tokens. -/
abbrev TracedServer := Server × TokenHistory

namespace TracedServer

def step (cfg : Config) : TracedServer → ServerEvent → Option TracedServer :=
  watch (Server.step cfg) (TokenHistory.note cfg)

end TracedServer

/-- After step `n` no token of the account is live that stems from an acceptance up to
that step, and none is on its way. -/
structure TracedServer.Renewed (n a : ℕ) (x : TracedServer) : Prop where
  later : n < x.2.steps
  tokens : ∀ token ∈ x.1.db.refreshTokens, token.authAccountId = a → token.revokedAt = none →
    n < x.2.origin token.tokenHash
  pending : ∀ (i : ℕ) (f : InFlight), x.1.requests[i]? = some f →
    ¬ f.thread.Cautious (tokenCheck a) → n < x.2.accepted i

namespace TracedServer

variable {cfg : Config} {x x' : TracedServer} {n a : ℕ}

theorem Renewed.execute {i : ℕ} {r : Request} {op : Op}
    {k : Except ServiceError op.Res → Service Response} {outside : Outside} (h : x.Renewed n a)
    (hi : x.1.requests[i]? = some ⟨r, .awaiting op k⟩) :
    Renewed n a ({ x.1 with
      db := (x.1.perform cfg outside op).2
      requests := x.1.requests.set i ⟨r, .answered op (x.1.perform cfg outside op).1 k⟩ },
      x.2.execute i op (x.1.perform cfg outside op).1) := by
  obtain ⟨s, g⟩ := x
  refine ⟨Nat.lt_succ_of_lt h.later, ?_, ?_⟩
  · by_cases hop : ∀ b hash exp, op ≠ .createRefreshToken b hash exp
    · -- whatever is live was live before
      intro token hmem htoken hlive
      obtain ⟨old, hold, he⟩ := (Op.perform_tokens hop).rows token hmem
      have horigin := h.tokens old hold (he.authAccountId ▸ htoken) (by
        by_contra hne
        exact he.revokedAt hne hlive)
      rw [TokenHistory.execute_origin hop, he.tokenHash]
      exact horigin
    · obtain ⟨b, hash, exp, rfl⟩ : ∃ b hash exp, op = .createRefreshToken b hash exp := by
        simpa using hop
      intro token hmem htoken hlive
      dsimp only [Server.perform] at hmem ⊢
      rcases Op.perform_createRefreshToken cfg { outside with now := s.clock } s.db b hash exp with
        ⟨e, he⟩ | ⟨-, hfresh, he⟩
      · rw [he] at hmem ⊢
        exact h.tokens token hmem htoken hlive
      · rw [he] at hmem ⊢
        rcases List.mem_append.mp hmem with hold | hnew
        · have hne : token.tokenHash ≠ hash := hfresh token hold
          show n < Function.update g.origin hash (g.accepted i) token.tokenHash
          rw [Function.update_of_ne hne]
          exact h.tokens token hold htoken hlive
        · cases List.mem_singleton.mp hnew
          -- the request that inserts is past its check
          have hgap : ¬ (Thread.awaiting (Op.createRefreshToken b hash exp) k).Cautious
              (tokenCheck a) := fun hc => hc.not_acts ⟨hash, exp, by rw [← htoken]⟩
          show n < Function.update g.origin hash (g.accepted i) hash
          rw [Function.update_self]
          exact h.pending i _ hi hgap
  · intro j f hf hgap
    dsimp only [TokenHistory.execute]
    rcases Server.getElem?_set hf with ⟨rfl, rfl⟩ | ⟨hne, hf⟩
    · split
      · rw [Function.update_self]
        exact h.later
      · exact h.pending j _ hi fun hc => hgap (hc.answer ‹_›)
    · split
      · rw [Function.update_of_ne hne]
        exact h.pending j f hf hgap
      · exact h.pending j f hf hgap

theorem Renewed.step {e : ServerEvent} (h : x.Renewed n a)
    (hs : TracedServer.step cfg x e = some x') : x'.Renewed n a := by
  obtain ⟨s, g⟩ := x
  obtain ⟨s', g'⟩ := x'
  obtain ⟨hstep, hnote⟩ := watch_eq_some.mp hs
  dsimp only at hstep hnote
  subst hnote
  cases e with
  | arrive r c =>
    obtain ⟨-, rfl⟩ := Server.step_arrive hstep
    refine ⟨Nat.lt_succ_of_lt h.later, h.tokens, fun i f hf hgap => ?_⟩
    rcases Server.getElem?_arrive hf with hf | ⟨rfl, -⟩
    · exact h.pending i f hf hgap
    · exact absurd (Thread.Cautious.advance (Request.code_cautious r) _) hgap
  | execute i outside =>
    obtain ⟨r, op, k, hi, rfl⟩ := Server.step_execute hstep
    rw [TokenHistory.note, Server.executed_execute hi]
    exact h.execute hi
  | deliver i c =>
    obtain ⟨r, op, answer, k, hi, rfl⟩ := Server.step_deliver hstep
    refine ⟨Nat.lt_succ_of_lt h.later, h.tokens, fun j f hf hgap => ?_⟩
    rcases Server.getElem?_set hf with ⟨rfl, rfl⟩ | ⟨-, hf⟩
    · exact h.pending j _ hi fun hc => hgap (hc.deliver _)
    · exact h.pending j f hf hgap
  | tick d =>
    cases Server.step_tick hstep
    exact ⟨Nat.lt_succ_of_lt h.later, h.tokens, h.pending⟩

end TracedServer

/-! ### Revocation -/

/-- The step commits a revocation of every session of the account, for request `i`. -/
def Server.revokes (cfg : Config) (s : Server) (e : ServerEvent) (i a : ℕ) : Bool :=
  match s.executed cfg e with
  | some (j, ⟨op, answer⟩) => j = i && op.revokesAccount = some a && op.commits answer
  | none => false

theorem Server.revokes_eq_true {cfg : Config} {s : Server} {e : ServerEvent} {i a : ℕ}
    (h : s.revokes cfg e i a = true) : ∃ op answer, s.executed cfg e = some (i, ⟨op, answer⟩) ∧
      op.revokesAccount = some a ∧ op.commits answer = true := by
  unfold revokes at h
  split at h
  · rename_i j op answer hexec
    simp only [Bool.and_eq_true, decide_eq_true_eq] at h
    obtain ⟨⟨rfl, ha⟩, hcommits⟩ := h
    exact ⟨op, answer, hexec, ha, hcommits⟩
  · cases h

theorem Request.makes_revokesAccount {r : Request} {op : Op} (h : r.makes op = true)
    (hop : op.revokesAccount ≠ none) {b : ℕ} {hash : String} {exp : ℕ} :
    r.makes (.createRefreshToken b hash exp) = false := by
  cases r with
  | login dto tenantId => cases op <;> first | exact absurd rfl hop | cases h
  | refresh refreshToken => cases op <;> first | exact absurd rfl hop | cases h
  | _ => rfl

namespace TracedServer

/-- No request other than `i` is between the acceptance of a credential and the insert of
the account's token. -/
def Settled (x : TracedServer) (a i : ℕ) : Prop :=
  ∀ (j : ℕ) (f : InFlight), j ≠ i → x.1.requests[j]? = some f → f.thread.Cautious (tokenCheck a)

def Initial (x : TracedServer) : Prop := x.1.Idle ∧ x.2 = .start

theorem Initial.fromCode {cfg : Config} {x₀ x : TracedServer} (h₀ : x₀.Initial)
    (hr : Reach (TracedServer.step cfg) (fun _ _ => True) x₀ x) : x.1.FromCode cfg := by
  refine hr.invariant (I := fun x => x.1.FromCode cfg) h₀.1.fromCode ?_
  exact fun _ _ _ _ h _ hs => h.step (watch_eq_some.mp hs).1

end TracedServer

theorem TracedServer.Settled.renewed {cfg : Config} {x x' : TracedServer} {e : ServerEvent}
    {i a : ℕ} (hx : x.1.FromCode cfg) (hrevokes : x.1.revokes cfg e i a = true)
    (hsettled : x.Settled a i) (hs : TracedServer.step cfg x e = some x') :
    x'.Renewed x.2.steps a := by
  obtain ⟨op, answer, hexec, ha, hcommits⟩ := Server.revokes_eq_true hrevokes
  obtain ⟨s, g⟩ := x
  obtain ⟨s', g'⟩ := x'
  obtain ⟨hstep, hnote⟩ := watch_eq_some.mp hs
  obtain ⟨outside, r, k, rfl, hi, rfl⟩ := Server.executed_eq_some hexec
  obtain ⟨r', op', k', hi', rfl⟩ := Server.step_execute hstep
  cases hi.symm.trans hi'
  dsimp only at hnote
  rw [TokenHistory.note, hexec] at hnote
  subst hnote
  have hrevoked := Op.perform_revokesAccount ha hcommits
  refine ⟨Nat.lt_succ_self _, fun token hmem htoken hlive => ?_, fun j f hf hgap => ?_⟩
  · exact absurd hlive (hrevoked token hmem htoken)
  · rcases Server.getElem?_set hf with ⟨rfl, rfl⟩ | ⟨hne, hf⟩
    · -- the revoking request itself inserts nothing
      have hmakes := ((hx j _ hi).calls (Request.code_makes cfg r)).op rfl
      have hcalls := (hx j _ hi).calls (Request.code_makes cfg r)
      refine absurd (Prog.Cautious.of_calls (hcalls.2 _ fun _ _ => trivial) ?_) hgap
      intro op' hop' ⟨hash, exp, hcreate⟩
      rw [hcreate, Request.makes_revokesAccount hmakes (by simp [ha])] at hop'
      cases hop'
    · exact absurd (hsettled j f hne hf) hgap

/-- Whatever account-wide revocation commits while no other request is between the
acceptance of a credential and its insert: from then on no token of the account is live
that stems from a credential accepted before. -/
theorem revocation_complete (cfg : Config) {x₀ x x' y : TracedServer} (h₀ : x₀.Initial)
    (hr : Reach (TracedServer.step cfg) (fun _ _ => True) x₀ x) {e : ServerEvent} {i a : ℕ}
    (hrevokes : x.1.revokes cfg e i a = true) (hsettled : x.Settled a i)
    (hs : TracedServer.step cfg x e = some x')
    (hr' : Reach (TracedServer.step cfg) (fun _ _ => True) x' y) {token : RefreshToken}
    (hmem : token ∈ y.1.db.refreshTokens) (htoken : token.authAccountId = a)
    (hbefore : y.2.origin token.tokenHash < x.2.steps) : token.isLive y.1.clock = false := by
  have hrenewed : x'.Renewed x.2.steps a :=
    hsettled.renewed (h₀.fromCode hr) hrevokes hs
  have hy : y.Renewed x.2.steps a :=
    hr'.invariant hrenewed fun _ _ _ _ h _ hstep => h.step hstep
  by_contra hlive
  have hrevoked : token.revokedAt = none := by
    simp only [RefreshToken.isLive, Bool.and_eq_true, decide_eq_true_eq, Bool.not_eq_false] at hlive
    exact hlive.1
  have hafter := hy.tokens token hmem htoken hrevoked
  omega

def tracedAcme : TracedServer := (acme, .start)

def bobLogin : ServerEvent :=
  .arrive (.login ⟨"bob@acme.io", "Bob-Secret-12"⟩ (some "acme")) (acmeContext "")

def bobLogoutEverywhere : ServerEvent := .arrive (.revokeAllSessions false bob) (acmeContext "")

def tracedRun (es : List ServerEvent) : Option TracedServer :=
  runAll (TracedServer.step plainConfig) tracedAcme es

theorem revocation_complete_acme : ∃ x x' token,
    Reach (TracedServer.step plainConfig) (fun _ _ => True) tracedAcme x ∧
    x.1.revokes plainConfig (.execute 1 quiet) 1 3 = true ∧ x.Settled 3 1 ∧
    TracedServer.step plainConfig x (.execute 1 quiet) = some x' ∧
    token ∈ x'.1.db.refreshTokens ∧ token.authAccountId = 3 ∧
    x'.2.origin token.tokenHash < x.2.steps ∧ token.isLive x'.1.clock = false := by
  have hrun : (tracedRun ([bobLogin] ++ acmeCalls 0 4 ++ [bobLogoutEverywhere] ++
      acmeCalls 1 1)).any (fun x => x.1.answeredBut 1 &&
        x.1.revokes plainConfig (.execute 1 quiet) 1 3 &&
        (TracedServer.step plainConfig x (.execute 1 quiet)).any fun x' =>
          x'.1.db.refreshTokens.any fun token => token.authAccountId = 3 &&
            decide (x'.2.origin token.tokenHash < x.2.steps)) = true := by
    decide +kernel
  obtain ⟨x, hx, h⟩ := (Option.any_eq_true _ _).mp hrun
  obtain ⟨h, h₃⟩ := Bool.and_eq_true_iff.mp h
  obtain ⟨h₁, h₂⟩ := Bool.and_eq_true_iff.mp h
  obtain ⟨x', hx', h₃⟩ := (Option.any_eq_true _ _).mp h₃
  obtain ⟨token, hmem, h₃⟩ := List.any_eq_true.mp h₃
  simp only [Bool.and_eq_true, decide_eq_true_eq] at h₃
  have hr : Reach (TracedServer.step plainConfig) (fun _ _ => True) tracedAcme x :=
    .of_runAll (.of_labels (fun _ _ _ => trivial) _) hx
  have hsettled : x.Settled 3 1 := fun j f hne hf => Server.cautious_of_answered h₁ hne hf
  have h₀ : tracedAcme.Initial := ⟨rfl, rfl⟩
  exact ⟨x, x', token, hr, h₂, hsettled, hx', hmem, h₃.1, h₃.2,
    revocation_complete plainConfig h₀ hr h₂ hsettled hx' .init hmem h₃.1 h₃.2⟩

/-- Bob's login has its password accepted, Bob ends all his sessions, and then the login
inserts its token. -/
theorem login_outlives_revocation : ∃ x x' y token,
    Reach (TracedServer.step plainConfig) (fun _ _ => True) tracedAcme x ∧
    x.1.revokes plainConfig (.execute 1 quiet) 1 3 = true ∧
    TracedServer.step plainConfig x (.execute 1 quiet) = some x' ∧
    Reach (TracedServer.step plainConfig) (fun _ _ => True) x' y ∧
    (∀ f ∈ y.1.requests, f.thread.op? = none) ∧
    token ∈ y.1.db.refreshTokens ∧ token.authAccountId = 3 ∧
    y.2.origin token.tokenHash < x.2.steps ∧ token.isLive y.1.clock = true := by
  have hrun : (tracedRun ([bobLogin] ++ acmeCalls 0 3 ++ [bobLogoutEverywhere] ++
      acmeCalls 1 1)).any (fun x => x.1.revokes plainConfig (.execute 1 quiet) 1 3 &&
        (TracedServer.step plainConfig x (.execute 1 quiet)).any fun x' =>
          (runAll (TracedServer.step plainConfig) x'
            ([.deliver 1 (acmeContext "")] ++ acmeCalls 0 1)).any fun y =>
            (y.1.requests.all (·.thread.op?.isNone)) &&
            y.1.db.refreshTokens.any fun token => token.authAccountId = 3 &&
              decide (y.2.origin token.tokenHash < x.2.steps) && token.isLive y.1.clock) = true := by
    decide +kernel
  obtain ⟨x, hx, h⟩ := (Option.any_eq_true _ _).mp hrun
  obtain ⟨h₁, h⟩ := Bool.and_eq_true_iff.mp h
  obtain ⟨x', hx', h⟩ := (Option.any_eq_true _ _).mp h
  obtain ⟨y, hy, h⟩ := (Option.any_eq_true _ _).mp h
  obtain ⟨h₂, h⟩ := Bool.and_eq_true_iff.mp h
  obtain ⟨token, hmem, h⟩ := List.any_eq_true.mp h
  simp only [Bool.and_eq_true, decide_eq_true_eq] at h
  refine ⟨x, x', y, token, .of_runAll (.of_labels (fun _ _ _ => trivial) _) hx, h₁, hx',
    .of_runAll (.of_labels (fun _ _ _ => trivial) _) hy, fun f hf => ?_, hmem, h.1.1, h.1.2, h.2⟩
  exact Option.isNone_iff_eq_none.mp (List.all_eq_true.mp h₂ f hf)

end Flexi.Accounts
