import Flexi.Accounts.Keys
import Flexi.Accounts.Revocation

/-!
# The reuse of a revoked refresh token

A refresh that presents a revoked token ends every session of the account. What this
leaves depends on the refreshes that have their own token accepted by then.
-/

namespace Flexi.Accounts
open Flexi.Library

/-! ### A refresh acts for the owner of the row it has found -/

/-- An answer that no database gives: another account's user. -/
def Op.strays : (op : Op) → Except ServiceError op.Res → Prop
  | findTenantUserByAccount a, .ok (some row) => row.user.authAccountId ≠ a
  | findSystemUserByAccount a, .ok (some row) => row.user.authAccountId ≠ a
  | _, _ => False

theorem Op.perform_not_strays (cfg : Config) (outside : Outside) (op : Op) (db : Database) :
    ¬ op.strays (op.perform cfg outside db).1 := by
  rcases perform_cases cfg outside op db with ⟨-, e, he⟩ | heffect
  · rw [he]
    cases op <;> exact id
  rw [heffect]
  cases op with
  | findTenantUserByAccount a =>
    rw [effect]
    cases hfind : (findAny outside.pick (fun user => decide (user.authAccountId = a))
      db.tenantUsers).bind db.tenantUserRow with
    | none => exact id
    | some row =>
      obtain ⟨user, hany, hrow⟩ := Option.bind_eq_some_iff.mp hfind
      have howner := (findAny_some hany).2
      rw [← Database.tenantUserRow_user hrow] at howner
      exact not_not.mpr (of_decide_eq_true howner)
  | findSystemUserByAccount a =>
    rw [effect]
    cases hfind : (findAny outside.pick (fun user => decide (user.authAccountId = a))
      db.systemUsers).bind db.systemUserRow with
    | none => exact id
    | some row =>
      obtain ⟨user, hany, hrow⟩ := Option.bind_eq_some_iff.mp hfind
      have howner := (findAny_some hany).2
      rw [← Database.systemUserRow_user hrow] at howner
      exact not_not.mpr (of_decide_eq_true howner)
  | _ => exact id

/-- Tokens for another account only on stray answers. -/
def ownerCheck (a : ℕ) : Check Op Op.Res ServiceError where
  passes op answer := op.strays answer
  acts op := ∃ b hash exp, op = .createRefreshToken b hash exp ∧ b ≠ a

section
variable {cfg : Config} {a : ℕ}

theorem not_acts_owner {op : Op} (h : ∀ b hash exp, op ≠ .createRefreshToken b hash exp) :
    ¬ (ownerCheck a).acts op :=
  fun ⟨b, hash, exp, he, _⟩ => h b hash exp he

theorem issueTokens_owner {actor : ResolvedActor} (h : actor.authAccountId = a) :
    (issueTokens cfg actor).Cautious (ownerCheck a) fun _ => True := by
  refine .of_calls (H := fun op => ∀ b hash exp, op = .createRefreshToken b hash exp → b = a)
    (issueTokens_makes fun hash exp b hash' exp' he => ?_) fun op hop ⟨b, hash, exp, he, hne⟩ => ?_
  · cases he
    exact h
  · exact hne (hop b hash exp he)

theorem resolveActorByAuthAccountId_owner :
    (resolveActorByAuthAccountId a).Cautious (ownerCheck a) fun actor =>
      ∀ x, actor = some x → x.authAccountId = a := by
  refine .bind (request_cautious (not_acts_owner fun _ _ _ h => nomatch h)) fun tenantUser ht => ?_
  refine .bind (request_cautious (not_acts_owner fun _ _ _ h => nomatch h)) fun systemUser hs => ?_
  cases tenantUser with
  | none =>
    cases systemUser with
    | none => exact .pure fun x hx => nomatch hx
    | some row =>
      refine .pure fun x hx => ?_
      cases hx
      exact not_not.mp hs
  | some row =>
    cases systemUser with
    | none =>
      refine .bind (request_cautious (not_acts_owner fun _ _ _ h => nomatch h)) fun active _ => ?_
      refine .pure fun x hx => ?_
      split at hx
      · cases hx
        exact not_not.mp ht
      · cases hx
    | some row' => exact fail_cautious

theorem refreshStored_owner (stored : RefreshToken) (sub : ℕ) :
    (refreshStored cfg stored sub).Cautious (ownerCheck stored.authAccountId) fun _ => True := by
  refine now_cautious.bind fun now _ => ?_
  split
  · refine .bind (request_cautious (not_acts_owner fun _ _ _ h => nomatch h)) fun _ _ => ?_
    exact fail_cautious
  · split
    · exact fail_cautious
    · refine .bind (request_cautious (not_acts_owner fun _ _ _ h => nomatch h)) fun count _ => ?_
      split
      · exact fail_cautious
      · refine resolveActorByAuthAccountId_owner.bind fun actor hactor => ?_
        cases actor with
        | none => exact fail_cautious
        | some actor =>
          dsimp only
          split
          · exact issueTokens_owner (hactor actor rfl)
          · exact fail_cautious

theorem refreshStored_rotates (stored : RefreshToken) (sub : ℕ) :
    Makes (fun op => ∀ id now, op = .rotate id now → id = stored.id)
      (refreshStored cfg stored sub) := by
  refine makes_now.bind fun now => ?_
  split
  · exact .bind (makes_request fun _ _ h => nomatch h) fun _ => makes_fail
  · split
    · exact makes_fail
    · refine .bind (makes_request fun id now h => ?_) fun count => ?_
      · cases h
        rfl
      · split
        · exact makes_fail
        · exact issueForAccount_makes cfg (fun _ _ _ h => nomatch h) (fun _ _ _ h => nomatch h)
            (fun _ _ _ h => nomatch h) fun _ _ _ _ _ h => nomatch h

end

/-! ### Where a refresh stands -/

/-- A refresh looks the presented token up. -/
def refreshLookup : Lookup Op Op.Res Context ServiceError Response RefreshToken where
  finds
    | .findRefreshToken _, .ok found => found
    | _, _ => none
  before op := ∀ b hash exp, op ≠ .createRefreshToken b hash exp
  next stored p := p.Cautious (ownerCheck stored.authAccountId) (fun _ => True) ∧
    Makes (fun op => ∀ id now, op = .rotate id now → id = stored.id) p ∧
    ∀ a, p.Cautious (tokenCheck a) fun _ => True

/-- What is known of a refresh that has found its row, `More` apart. -/
structure Refreshing (More : RefreshToken → RequestThread → Prop) (stored : RefreshToken)
    (t : RequestThread) : Prop where
  owner : t.Cautious (ownerCheck stored.authAccountId)
  rotates : t.Calls fun op => ∀ id now, op = .rotate id now → id = stored.id
  more : More stored t

theorem refresh_looksUp {cfg : Config} (refreshToken : RefreshJwt) :
    (refresh cfg refreshToken).LooksUp refreshLookup := by
  refine .skip (makes_now (H := fun _ => False)) (fun _ h => h.elim) fun now => ?_
  cases refreshToken.verify now with
  | none => exact .throw
  | some sub =>
    refine .await (fun _ _ _ h => nomatch h) (fun found stored hfound => ?_) (fun found hnone => ?_)
      fun _ => rfl
    · cases hfound
      exact ⟨refreshStored_owner stored sub, refreshStored_rotates stored sub,
        fun _ => refreshStored_cautious stored sub⟩
    · cases hnone
      exact .throw

theorem Op.perform_findRefreshToken (cfg : Config) (outside : Outside) (db : Database)
    (hash : String) : ((findRefreshToken hash).perform cfg outside db).2 = db ∧
      ∀ stored, ((findRefreshToken hash).perform cfg outside db).1 = .ok (some stored) →
        stored ∈ db.refreshTokens ∧ stored.tokenHash = hash := by
  rcases perform_cases cfg outside (findRefreshToken hash) db with ⟨hdb, e, he⟩ | heffect
  · refine ⟨hdb, fun stored hs => ?_⟩
    rw [he] at hs
    cases hs
  · rw [heffect]
    refine ⟨rfl, fun stored hs => ?_⟩
    have hfind : db.refreshTokens.find? (·.tokenHash = hash) = some stored := Except.ok.inj hs
    exact ⟨List.mem_of_find?_eq_some hfind, by simpa using List.find?_some hfind⟩

theorem Database.Keyed.owner_of_found {db : Database} {cfg : Config} {outside : Outside} {op : Op}
    {stored : RefreshToken} (hdb : db.Keyed)
    (h : refreshLookup.finds op (op.perform cfg outside db).1 = some stored) :
    (op.perform cfg outside db).2.Owner stored := by
  cases op with
  | findRefreshToken hash =>
    obtain ⟨hdb', hfound⟩ := Op.perform_findRefreshToken cfg outside db hash
    rw [hdb']
    cases hanswer : ((Op.findRefreshToken hash).perform cfg outside db).1 with
    | error e =>
      rw [hanswer] at h
      cases h
    | ok found =>
      rw [hanswer] at h
      exact hdb.owner_of_mem (hfound stored (hanswer.trans (congrArg _ h))).1
  | _ => cases h

/-! ### The server -/

def Request.isRefresh : Request → Prop
  | refresh _ => True
  | _ => False

/-- Every refresh in flight acts for the owner of the row it has found. -/
structure Server.Sound (cfg : Config) (More : RefreshToken → RequestThread → Prop) (s : Server) :
    Prop where
  code : s.FromCode cfg
  keyed : s.db.Keyed
  refreshes : s.Follow Request.isRefresh refreshLookup (fun stored db => db.Owner stored)
    (Refreshing More)

/-- Nothing more is asked of a refresh. -/
def anyThread (_ : RefreshToken) (_ : RequestThread) : Prop := True

/-- A refresh of the account has yet to have its token accepted. -/
def unaccepted (a : ℕ) (stored : RefreshToken) (t : RequestThread) : Prop :=
  stored.authAccountId = a → t.Cautious (tokenCheck a)

namespace Server.Sound

variable {cfg : Config} {More : RefreshToken → RequestThread → Prop} {s s' : Server}

theorem step {e : ServerEvent} (h : s.Sound cfg More) (hs : s.step cfg e = some s')
    (hnext : ∀ stored p c, refreshLookup.next stored p → More stored (p.advance c))
    (hdeliver : ∀ stored op answer k c, More stored (.answered op answer k) →
      More stored ((k answer).advance c))
    (hexecute : ∀ i outside r op k stored, e = .execute i outside → r.isRefresh →
      s.requests[i]? = some ⟨r, .awaiting op k⟩ → s.db.Owner stored →
      Refreshing More stored (.awaiting op k) →
      More stored (.answered op (s.perform cfg outside op).1 k)) : s'.Sound cfg More := by
  refine ⟨h.code.step hs, ?_, h.refreshes.step hs ?_ ?_ ?_ ?_ ?_ ?_⟩
  · rcases step_db hs with hdb | ⟨outside, op, hdb⟩
    · exact hdb ▸ h.keyed
    · exact hdb ▸ h.keyed.perform
  · intro r hr
    cases r with
    | refresh refreshToken => exact refresh_looksUp refreshToken
    | _ => exact hr.elim
  · exact fun i outside r op k stored _ _ ho => ho.perform
  · exact fun outside op stored hfound => h.keyed.owner_of_found hfound
  · exact fun stored p c hp => ⟨Thread.Cautious.advance hp.1 c, Thread.Calls.advance hp.2.1 c,
      hnext stored p c hp⟩
  · exact fun stored op answer k c hq => ⟨hq.owner.deliver c, Thread.Calls.advance hq.rotates.2 c,
      hdeliver stored op answer k c hq.more⟩
  · intro i outside r op k stored he hr hi ho hq
    exact ⟨hq.owner.answer (Op.perform_not_strays cfg _ op s.db),
      ⟨hq.rotates.1, hq.rotates.2 _ fun _ _ => trivial⟩, hexecute i outside r op k stored he hr hi ho hq⟩

theorem step_any {e : ServerEvent} (h : s.Sound cfg anyThread) (hs : s.step cfg e = some s') :
    s'.Sound cfg anyThread :=
  h.step hs (fun _ _ _ _ => trivial) (fun _ _ _ _ _ _ => trivial) fun _ _ _ _ _ _ _ _ _ _ _ =>
    trivial

theorem of_idle (h₀ : s.Idle) (hkeyed : s.db.Keyed) : s.Sound cfg More :=
  ⟨h₀.fromCode, hkeyed, .of_idle h₀⟩

end Server.Sound

/-- Every session of the account is gone, and no refresh of it has its token accepted. -/
structure Server.FamilyRevoked (cfg : Config) (a : ℕ) (s : Server) : Prop where
  sound : s.Sound cfg (unaccepted a)
  revoked : AllRevoked a s.db

/-- The step inserts a token of the account for a login. -/
def Server.logsIn (cfg : Config) (a : ℕ) (s : Server) (e : ServerEvent) : Bool :=
  match s.executed cfg e with
  | some (i, ⟨.createRefreshToken b _ _, .ok _⟩) =>
    b = a && (s.requests[i]?).any (·.request.isLogin)
  | _ => false

namespace Server.FamilyRevoked

variable {cfg : Config} {a : ℕ} {s s' : Server}

theorem perform {i : ℕ} {r : Request} {op : Op} {k : Except ServiceError op.Res → Service Response}
    {outside : Outside} (h : s.FamilyRevoked cfg a) (hi : s.requests[i]? = some ⟨r, .awaiting op k⟩)
    (hlogin : s.logsIn cfg a (.execute i outside) = false) :
    AllRevoked a (s.perform cfg outside op).2 := by
  by_cases hop : ∀ b hash exp, op ≠ .createRefreshToken b hash exp
  · exact (Op.perform_tokens hop).allRevoked h.revoked
  · obtain ⟨b, hash, exp, rfl⟩ : ∃ b hash exp, op = .createRefreshToken b hash exp := by
      simpa using hop
    rcases Op.perform_createRefreshToken cfg { outside with now := s.clock } s.db b hash exp with
      ⟨e, he⟩ | ⟨-, -, he⟩
    · rw [Server.perform, he]
      exact h.revoked
    · have hne : b ≠ a := by
        intro hb
        subst hb
        have hmakes := ((h.sound.code i _ hi).calls (Request.code_makes cfg r)).op rfl
        cases r with
        | login dto tenantId =>
          rw [Server.logsIn, Server.executed_execute hi, Server.perform, he] at hlogin
          simp [hi, Request.isLogin] at hlogin
        | refresh refreshToken =>
          cases h.sound.refreshes i _ hi trivial with
          | looking hlooks => exact hlooks.1 b hash exp rfl
          | @past _ stored _ hq =>
            -- for the owner of the row it has found, whose token has not been accepted
            have hown : stored.authAccountId = b := by
              by_contra hne
              exact hq.owner.not_acts ⟨b, hash, exp, rfl, fun h => hne h.symm⟩
            exact (hq.more hown).not_acts ⟨hash, exp, rfl⟩
        | _ => cases hmakes
      rw [Server.perform, he]
      intro token hmem htoken
      rcases List.mem_append.mp hmem with hold | hnew
      · exact h.revoked token hold htoken
      · cases List.mem_singleton.mp hnew
        exact absurd htoken hne

/-- A row that can be revoked is none of the account's. -/
theorem not_accepts {i : ℕ} {r : Request} {op : Op}
    {k : Except ServiceError op.Res → Service Response} {outside : Outside} {stored : RefreshToken}
    (h : s.FamilyRevoked cfg a) (hr : r.isRefresh) (hi : s.requests[i]? = some ⟨r, .awaiting op k⟩)
    (ho : s.db.Owner stored) (hq : Refreshing (unaccepted a) stored (.awaiting op k))
    (ha : stored.authAccountId = a) : ¬ op.accepts (s.perform cfg outside op).1 = true := by
  intro haccepts
  have hmakes := ((h.sound.code i _ hi).calls (Request.code_makes cfg _)).op rfl
  cases op with
  | rotate id now =>
    cases hq.rotates.1 id now rfl
    have hcount : ∃ token ∈ s.db.refreshTokens, token.revokedAt = none ∧ token.id = stored.id := by
      rcases Op.perform_cases cfg { outside with now := s.clock } (.rotate stored.id now) s.db with
        ⟨-, e, he⟩ | heffect
      · rw [Server.perform, he] at haccepts
        cases haccepts
      · rw [Server.perform, heffect] at haccepts
        obtain ⟨token, hmem, hp⟩ := countWhere_ne_zero.mp (of_decide_eq_true haccepts)
        simp only [Bool.and_eq_true, decide_eq_true_eq] at hp
        exact ⟨token, hmem, hp⟩
    obtain ⟨token, hmem, hlive, hid⟩ := hcount
    exact h.revoked token hmem ((ho.owner token hmem hid).trans ha) hlive
  | compare password hash =>
    cases r with
    | refresh refreshToken => cases hmakes
    | _ => exact hr
  | _ => cases haccepts

theorem step {e : ServerEvent} (h : s.FamilyRevoked cfg a) (hlogin : s.logsIn cfg a e = false)
    (hs : s.step cfg e = some s') : s'.FamilyRevoked cfg a := by
  refine ⟨h.sound.step hs ?_ ?_ ?_, ?_⟩
  · exact fun stored p c hp _ => Thread.Cautious.advance (hp.2.2 a) c
  · exact fun stored op answer k c hq ha => (hq ha).deliver c
  · exact fun i outside r op k stored _ hr hi ho hq ha =>
      (hq.more ha).answer (h.not_accepts hr hi ho hq ha)
  · cases e with
    | arrive r c =>
      obtain ⟨-, rfl⟩ := Server.step_arrive hs
      exact h.revoked
    | execute i outside =>
      obtain ⟨r, op, k, hi, rfl⟩ := Server.step_execute hs
      exact h.perform hi hlogin
    | deliver i c =>
      obtain ⟨r, op, answer, k, -, rfl⟩ := Server.step_deliver hs
      exact h.revoked
    | tick d =>
      cases Server.step_tick hs
      exact h.revoked

end Server.FamilyRevoked

/-! ### A revoked token is presented -/

/-- What follows the lookup of the presented token. -/
structure AfterLookup (cfg : Config) (k : Except ServiceError (Option RefreshToken) → Service Response)
    (sub : ℕ) : Prop where
  found : ∀ stored, k (.ok (some stored)) = refreshStored cfg stored sub

/-- Request `i` has ended the family, and is answered or about to be. -/
def Server.HasEnded (i a : ℕ) (s : Server) : Prop :=
  ∃ r, (∃ answer, s.requests[i]? = some ⟨r, .finished answer⟩) ∨
    ∃ now answer k, s.requests[i]? = some ⟨r, .answered (.revokeFamily a now) answer k⟩ ∧
      ∀ answer, ∃ e, k answer = Prog.throw e

/-- What the runs are asked for: no fault hits a statement of request `i`; when it ends
the family, no other refresh of the account is between the acceptance of its token and
the insert of the new one; afterwards no login inserts one. -/
structure Server.FamilyCondition (cfg : Config) (i a : ℕ) (s : Server) (e : ServerEvent) : Prop where
  fault : ∀ outside, e = .execute i outside → outside.fault = false
  settled : ∀ outside r now k, e = .execute i outside →
    s.requests[i]? = some ⟨r, .awaiting (.revokeFamily a now) k⟩ →
    ∀ (j : ℕ) (f : InFlight), j ≠ i → s.requests[j]? = some f → f.request.isRefresh →
      f.thread.Cautious (tokenCheck a)
  login : s.HasEnded i a → s.logsIn cfg a e = false

/-- Request `i` has presented a revoked token of the account. -/
inductive Server.Presented (cfg : Config) (i a : ℕ) (s : Server) : Prop
  | lookup {r : Request} {hash : String}
      {k : Except ServiceError (Option RefreshToken) → Service Response} {sub : ℕ}
      {row : RefreshToken} :
      s.requests[i]? = some ⟨r, .awaiting (.findRefreshToken hash) k⟩ → AfterLookup cfg k sub →
      row ∈ s.db.refreshTokens → row.tokenHash = hash → row.authAccountId = a →
      row.revokedAt ≠ none → Presented cfg i a s
  | found {r : Request} {hash : String}
      {k : Except ServiceError (Option RefreshToken) → Service Response} {sub : ℕ}
      {stored : RefreshToken} :
      s.requests[i]? = some ⟨r, .answered (.findRefreshToken hash) (.ok (some stored)) k⟩ →
      AfterLookup cfg k sub → stored.authAccountId = a → stored.revokedAt ≠ none →
      Presented cfg i a s
  | ending {r : Request} {now : ℕ} {k : Except ServiceError Unit → Service Response} :
      s.requests[i]? = some ⟨r, .awaiting (.revokeFamily a now) k⟩ →
      (∀ answer, ∃ e, k answer = Prog.throw e) → Presented cfg i a s
  | gone : s.db.Gone a → Presented cfg i a s
  | ended : s.FamilyRevoked cfg a → s.HasEnded i a → Presented cfg i a s

namespace Server.Presented

variable {cfg : Config} {i a : ℕ} {s s' : Server}

theorem hasEnded_step {e : ServerEvent} (h : s.HasEnded i a) (hs : s.step cfg e = some s') :
    s'.HasEnded i a := by
  obtain ⟨r, ⟨answer, hi⟩ | ⟨now, answer, k, hi, hk⟩⟩ := h
  · rcases step_request hs hi with hi' | ⟨_, _, _, -, ht, -⟩ | ⟨_, _, _, _, -, ht, -⟩
    · exact ⟨r, .inl ⟨answer, hi'⟩⟩
    · cases ht
    · cases ht
  · rcases step_request hs hi with hi' | ⟨_, _, _, -, ht, -⟩ | ⟨op, answer', k', c, -, ht, -, hi'⟩
    · exact ⟨r, .inr ⟨now, answer, k, hi', hk⟩⟩
    · cases ht
    · cases ht
      obtain ⟨e, he⟩ := hk answer
      exact ⟨r, .inl ⟨_, by rw [hi', he]; rfl⟩⟩

theorem find_row (hkeyed : s.db.Keyed) {row : RefreshToken} (hmem : row ∈ s.db.refreshTokens) :
    s.db.refreshTokens.find? (fun token => decide (token.tokenHash = row.tokenHash)) = some row := by
  cases hfind : s.db.refreshTokens.find? fun token => decide (token.tokenHash = row.tokenHash) with
  | none => exact absurd (decide_eq_true rfl) (List.find?_eq_none.mp hfind row hmem)
  | some stored =>
    have hstored : stored.tokenHash = row.tokenHash := by simpa using List.find?_some hfind
    rw [List.inj_on_of_nodup_map hkeyed.hashes (List.mem_of_find?_eq_some hfind) hmem hstored]

theorem perform_of_no_fault {outside : Outside} {op : Op} (h : outside.fault = false) :
    s.perform cfg outside op = op.effect cfg { outside with now := s.clock } s.db := by
  rw [Server.perform, Op.perform]
  simp [h]

theorem step_lookup {e : ServerEvent} {r : Request} {hash : String}
    {k : Except ServiceError (Option RefreshToken) → Service Response} {sub : ℕ} {row : RefreshToken}
    (hi : s.requests[i]? = some ⟨r, .awaiting (.findRefreshToken hash) k⟩)
    (hk : AfterLookup cfg k sub) (hmem : row ∈ s.db.refreshTokens) (hhash : row.tokenHash = hash)
    (ha : row.authAccountId = a) (hrevoked : row.revokedAt ≠ none) (hkeyed : s.db.Keyed)
    (hok : s.FamilyCondition cfg i a e) (hs : s.step cfg e = some s') : s'.Presented cfg i a := by
  rcases step_request hs hi with
    hi' | ⟨outside, op, k', rfl, ht, hi', -⟩ | ⟨_, _, _, _, -, ht, -⟩
  · rcases step_db hs with hdb | ⟨outside, op, hdb⟩
    · exact .lookup hi' hk (hdb ▸ hmem) hhash ha hrevoked
    · rcases Op.perform_token_kept cfg { outside with now := s.clock } op hkeyed hmem with
        ⟨new, hnew, he⟩ | hgone
      · exact .lookup hi' hk (hdb ▸ hnew) (he.tokenHash.trans hhash) (he.authAccountId.trans ha)
          (he.revokedAt hrevoked)
      · exact .gone (hdb ▸ ha ▸ hgone)
  · cases ht
    rw [perform_of_no_fault (hok.fault outside rfl)] at hi'
    rw [Op.effect, ← hhash, find_row hkeyed hmem] at hi'
    exact .found hi' hk ha hrevoked
  · cases ht

theorem step_found {e : ServerEvent} {r : Request} {hash : String}
    {k : Except ServiceError (Option RefreshToken) → Service Response} {sub : ℕ}
    {stored : RefreshToken}
    (hi : s.requests[i]? = some ⟨r, .answered (.findRefreshToken hash) (.ok (some stored)) k⟩)
    (hk : AfterLookup cfg k sub) (ha : stored.authAccountId = a) (hrevoked : stored.revokedAt ≠ none)
    (hs : s.step cfg e = some s') : s'.Presented cfg i a := by
  rcases step_request hs hi with hi' | ⟨_, _, _, -, ht, -⟩ | ⟨op, answer, k', c, -, ht, -, hi'⟩
  · exact .found hi' hk ha hrevoked
  · cases ht
  · cases ht
    rw [hk.found] at hi'
    have hadvance : (refreshStored cfg stored sub).advance { c with now := s.clock } =
        (request (.revokeFamily a s.clock) >>= fun _ =>
          (fail invalidRefreshToken : Service Response)).advance { c with now := s.clock } := by
      rw [← ha]
      show Prog.advance _ (if stored.revokedAt ≠ none then _ else _) = _
      rw [if_pos hrevoked]
    rw [hadvance] at hi'
    refine .ending hi' fun answer => ?_
    cases answer with
    | ok u => exact ⟨_, rfl⟩
    | error e => exact ⟨e, rfl⟩

theorem step_ending {e : ServerEvent} {r : Request} {now : ℕ}
    {k : Except ServiceError Unit → Service Response}
    (hi : s.requests[i]? = some ⟨r, .awaiting (.revokeFamily a now) k⟩)
    (hk : ∀ answer, ∃ e, k answer = Prog.throw e) (hsound : s.Sound cfg anyThread)
    (hok : s.FamilyCondition cfg i a e) (hs : s.step cfg e = some s') : s'.Presented cfg i a := by
  have hsound' := hsound.step_any hs
  rcases step_request hs hi with
    hi' | ⟨outside, op, k', rfl, ht, hi', hdb⟩ | ⟨_, _, _, _, -, ht, -⟩
  · exact .ending hi' hk
  · cases ht
    refine .ended ⟨⟨hsound'.code, hsound'.keyed, ?_⟩, ?_⟩ ⟨r, .inr ⟨now, _, k, hi', hk⟩⟩
    · intro j f hf hrefresh
      refine (hsound'.refreshes j f hf hrefresh).mono (fun _ ho => ho) fun stored hq => ?_
      refine ⟨hq.owner, hq.rotates, fun _ => ?_⟩
      by_cases hji : j = i
      · subst hji
        cases hf.symm.trans hi'
        obtain ⟨e, he⟩ := hk (s.perform cfg outside (.revokeFamily a now)).1
        show Prog.Cautious _ _ (k _)
        rw [he]
        trivial
      · obtain ⟨r', op', k', hi'', rfl⟩ := step_execute hs
        rcases getElem?_set hf with ⟨rfl, -⟩ | ⟨-, hf⟩
        · exact absurd rfl hji
        · exact hok.settled outside r now k rfl hi j f hji hf hrefresh
    · rw [hdb, perform_of_no_fault (hok.fault outside rfl)]
      exact s.db.revokeLiveSessions_all a now
  · cases ht

theorem step {e : ServerEvent} (h : s.Presented cfg i a) (hsound : s.Sound cfg anyThread)
    (hok : s.FamilyCondition cfg i a e) (hs : s.step cfg e = some s') : s'.Presented cfg i a := by
  cases h with
  | lookup hi hk hmem hhash ha hrevoked =>
    exact step_lookup hi hk hmem hhash ha hrevoked hsound.keyed hok hs
  | found hi hk ha hrevoked => exact step_found hi hk ha hrevoked hs
  | ending hi hk => exact step_ending hi hk hsound hok hs
  | gone hgone =>
    rcases step_db hs with hdb | ⟨outside, op, hdb⟩
    · exact .gone (hdb ▸ hgone)
    · exact .gone (hdb ▸ hgone.perform)
  | ended hrevoked hended =>
    exact .ended (hrevoked.step (hok.login hended) hs) (hasEnded_step hended hs)

/-- A refresh whose token's signature holds begins with the lookup. -/
theorem refresh_start (cfg : Config) {refreshToken : RefreshJwt} {c : Context} {sub : ℕ}
    (h : refreshToken.verify c.now = some sub) : ∃ k,
      (refresh cfg refreshToken).advance c =
        .awaiting (.findRefreshToken (cfg.hashToken refreshToken)) k ∧ AfterLookup cfg k sub := by
  simp only [refresh, now, Prog.read, Prog.ask_bind, Prog.ret_bind, Prog.pure_eq, Prog.advance, h]
  exact ⟨_, rfl, ⟨fun _ => rfl⟩⟩

theorem allRevoked (h : s.Presented cfg i a) {f : InFlight} (hf : s.requests[i]? = some f)
    (hanswered : f.thread.op? = none) : AllRevoked a s.db := by
  cases h with
  | lookup hi =>
    cases hf.symm.trans hi
    cases hanswered
  | found hi =>
    cases hf.symm.trans hi
    cases hanswered
  | ending hi =>
    cases hf.symm.trans hi
    cases hanswered
  | gone hgone => exact hgone.allRevoked
  | ended hrevoked _ => exact hrevoked.revoked

end Server.Presented

theorem RefreshToken.isLive_of_revoked {token : RefreshToken} (h : token.revokedAt ≠ none)
    (now : ℕ) : token.isLive now = false := by
  simp [isLive, h]

/-- A refresh presents a token that has been revoked and whose signature still holds. Once
it is answered no token of the account is live, if no other refresh had its own token
accepted when the family was ended. -/
theorem reuse_ends_family (cfg : Config) {s₀ s₁ s₂ y : Server} (h₀ : s₀.Idle)
    (hkeyed : s₀.db.Keyed) (hr : Reach (Server.step cfg) (fun _ _ => True) s₀ s₁)
    {refreshToken : RefreshJwt} {c : Context} {row : RefreshToken}
    (hrow : row ∈ s₁.db.refreshTokens) (hhash : row.tokenHash = cfg.hashToken refreshToken)
    (hrevoked : row.revokedAt ≠ none) (hverify : (refreshToken.verify s₁.clock).isSome = true)
    (hs : s₁.step cfg (.arrive (.refresh refreshToken) c) = some s₂)
    (hr' : Reach (Server.step cfg)
      (fun s e => s.FamilyCondition cfg s₁.requests.length row.authAccountId e) s₂ y)
    {f : InFlight} (hf : y.requests[s₁.requests.length]? = some f) (hanswered : f.thread.op? = none)
    {token : RefreshToken} (hmem : token ∈ y.db.refreshTokens)
    (htoken : token.authAccountId = row.authAccountId) : token.isLive y.clock = false := by
  have hsound : s₁.Sound cfg anyThread :=
    hr.invariant (.of_idle h₀ hkeyed) fun _ _ _ _ h _ hstep => h.step_any hstep
  have hpresented : s₂.Presented cfg s₁.requests.length row.authAccountId := by
    obtain ⟨-, rfl⟩ := Server.step_arrive hs
    obtain ⟨sub, hsub⟩ := Option.isSome_iff_exists.mp hverify
    obtain ⟨k, hadvance, hk⟩ :=
      Server.Presented.refresh_start (c := { c with now := s₁.clock }) cfg hsub
    have hi : (s₁.requests ++ [(⟨.refresh refreshToken, ((Request.refresh refreshToken).code
        cfg).advance { c with now := s₁.clock }⟩ : InFlight)])[s₁.requests.length]? =
        some ⟨.refresh refreshToken,
          .awaiting (.findRefreshToken (cfg.hashToken refreshToken)) k⟩ := by
      rw [List.getElem?_concat_length, ← hadvance]
      rfl
    exact .lookup hi hk hrow hhash rfl hrevoked
  have hy : y.Sound cfg anyThread ∧ y.Presented cfg s₁.requests.length row.authAccountId := by
    refine hr'.invariant (I := fun y => y.Sound cfg anyThread ∧
      y.Presented cfg s₁.requests.length row.authAccountId) ⟨hsound.step_any hs, hpresented⟩ ?_
    exact fun _ _ _ _ h hok hstep => ⟨h.1.step_any hstep, h.2.step h.1 hok hstep⟩
  exact RefreshToken.isLive_of_revoked (hy.2.allRevoked hf hanswered token hmem htoken) _

def bobToken : RefreshJwt := .signed 3 "" 604800

def bobRefresh : ServerEvent := .arrive (.refresh bobToken) (acmeContext "")

/-- Bob logs in and his token is rotated once by request 1, up to its next lookup. -/
def bobRotates : List ServerEvent := [bobLogin] ++ acmeCalls 0 4 ++ [bobRefresh] ++ acmeCalls 1 2

/-- The other requests have been answered, no fault, no login. -/
def quietReuse (s : Server) (e : ServerEvent) : Bool :=
  s.answeredBut 2 && !s.logsIn plainConfig 3 e && match e with
    | .execute _ outside => !outside.fault
    | _ => true

theorem quietReuse.condition {s : Server} {e : ServerEvent} (h : quietReuse s e = true) :
    s.FamilyCondition plainConfig 2 3 e := by
  simp only [quietReuse, Bool.and_eq_true, Bool.not_eq_true'] at h
  refine ⟨fun outside he => ?_, ?_, fun _ => h.1.2⟩
  · rw [he] at h
    simpa using h.2
  · intro outside r now k _ _ j f hne hf _
    exact Server.cautious_of_answered h.1.1 hne hf

theorem reuse_ends_family_acme : ∃ s₁ s₂ y row token,
    Reach (Server.step plainConfig) (fun _ _ => True) acme s₁ ∧
    row ∈ s₁.db.refreshTokens ∧ row.tokenHash = plainConfig.hashToken bobToken ∧
    row.revokedAt ≠ none ∧ (bobToken.verify s₁.clock).isSome = true ∧
    s₁.step plainConfig bobRefresh = some s₂ ∧
    Reach (Server.step plainConfig)
      (fun s e => s.FamilyCondition plainConfig s₁.requests.length row.authAccountId e) s₂ y ∧
    token ∈ y.db.refreshTokens ∧ token.tokenHash = "next" ∧ token.isLive y.clock = false := by
  have hrun : (runAll (Server.step plainConfig) acme (bobRotates ++ acmeCalls 1 4 "next")).any
      (fun s₁ => (bobToken.verify s₁.clock).isSome && s₁.requests.length = 2 &&
      s₁.db.refreshTokens.any (fun row => row.tokenHash = plainConfig.hashToken bobToken &&
        row.revokedAt ≠ none && row.authAccountId = 3) &&
      (s₁.step plainConfig bobRefresh).any fun s₂ =>
        (runChecked (Server.step plainConfig) quietReuse s₂ (acmeCalls 2 2)).any fun y =>
          (y.requests[2]?).any (·.thread.op?.isNone) && y.db.refreshTokens.any fun token =>
            token.authAccountId = 3 && token.tokenHash = "next") = true := by
    decide +kernel
  obtain ⟨s₁, hs₁, h⟩ := (Option.any_eq_true _ _).mp hrun
  obtain ⟨h, h₂⟩ := Bool.and_eq_true_iff.mp h
  obtain ⟨h, hrow⟩ := Bool.and_eq_true_iff.mp h
  obtain ⟨hverify, hlength⟩ := Bool.and_eq_true_iff.mp h
  obtain ⟨row, hmem, hrow⟩ := List.any_eq_true.mp hrow
  obtain ⟨s₂, hs₂, h₂⟩ := (Option.any_eq_true _ _).mp h₂
  obtain ⟨y, hy, h₂⟩ := (Option.any_eq_true _ _).mp h₂
  obtain ⟨hanswered, htoken⟩ := Bool.and_eq_true_iff.mp h₂
  obtain ⟨f, hf, hanswered⟩ := (Option.any_eq_true _ _).mp hanswered
  obtain ⟨token, hmem', htoken⟩ := List.any_eq_true.mp htoken
  simp only [Bool.and_eq_true, decide_eq_true_eq] at hrow htoken hlength
  have hr : Reach (Server.step plainConfig) (fun _ _ => True) acme s₁ :=
    .of_runAll (.of_labels (fun _ _ _ => trivial) _) hs₁
  have hr' : Reach (Server.step plainConfig)
      (fun s e => s.FamilyCondition plainConfig s₁.requests.length row.authAccountId e) s₂ y := by
    rw [hlength, hrow.2]
    exact .of_runChecked (fun s e hok => quietReuse.condition hok) hy
  exact ⟨s₁, s₂, y, row, token, hr, hmem, hrow.1.1, hrow.1.2, hverify, hs₂, hr', hmem', htoken.2,
    reuse_ends_family plainConfig acme_idle acme_keyed hr hmem hrow.1.1 hrow.1.2 hverify hs₂ hr'
      (hlength ▸ hf) (Option.isNone_iff_eq_none.mp hanswered) hmem'
      (htoken.1.trans hrow.2.symm)⟩

/-- The rotation's own token is inserted after the family has been ended. -/
theorem rotation_outlives_reuse : ∃ s₁ s₂ y row token,
    Reach (Server.step plainConfig) (fun _ _ => True) acme s₁ ∧
    row ∈ s₁.db.refreshTokens ∧ row.tokenHash = plainConfig.hashToken bobToken ∧
    row.revokedAt ≠ none ∧ (bobToken.verify s₁.clock).isSome = true ∧
    s₁.step plainConfig bobRefresh = some s₂ ∧
    Reach (Server.step plainConfig) (fun s e => s.logsIn plainConfig row.authAccountId e = false)
      s₂ y ∧ (∀ f ∈ y.requests, f.thread.op? = none) ∧
    token ∈ y.db.refreshTokens ∧ token.authAccountId = row.authAccountId ∧
    token.isLive y.clock = true := by
  have hrun : (runAll (Server.step plainConfig) acme bobRotates).any (fun s₁ =>
      (bobToken.verify s₁.clock).isSome &&
      s₁.db.refreshTokens.any (fun row => row.tokenHash = plainConfig.hashToken bobToken &&
        row.revokedAt ≠ none && row.authAccountId = 3) &&
      (s₁.step plainConfig bobRefresh).any fun s₂ =>
        (runChecked (Server.step plainConfig) (fun s e => !s.logsIn plainConfig 3 e) s₂
          (acmeCalls 2 2 ++ acmeCalls 1 4 "next")).any fun y =>
          y.requests.all (·.thread.op?.isNone) && y.db.refreshTokens.any fun token =>
            token.authAccountId = 3 && token.isLive y.clock) = true := by
    decide +kernel
  obtain ⟨s₁, hs₁, h⟩ := (Option.any_eq_true _ _).mp hrun
  obtain ⟨h, h₂⟩ := Bool.and_eq_true_iff.mp h
  obtain ⟨hverify, hrow⟩ := Bool.and_eq_true_iff.mp h
  obtain ⟨row, hmem, hrow⟩ := List.any_eq_true.mp hrow
  obtain ⟨s₂, hs₂, h₂⟩ := (Option.any_eq_true _ _).mp h₂
  obtain ⟨y, hy, h₂⟩ := (Option.any_eq_true _ _).mp h₂
  obtain ⟨hanswered, htoken⟩ := Bool.and_eq_true_iff.mp h₂
  obtain ⟨token, hmem', htoken⟩ := List.any_eq_true.mp htoken
  simp only [Bool.and_eq_true, decide_eq_true_eq] at hrow htoken
  refine ⟨s₁, s₂, y, row, token, .of_runAll (.of_labels (fun _ _ _ => trivial) _) hs₁, hmem,
    hrow.1.1, hrow.1.2, hverify, hs₂, .of_runChecked (fun s e hok => ?_) hy, fun f hf => ?_, hmem',
    htoken.1.trans hrow.2.symm, htoken.2⟩
  · rw [hrow.2]
    simpa using hok
  · exact Option.isNone_iff_eq_none.mp (List.all_eq_true.mp hanswered f hf)

end Flexi.Accounts
