import Flexi.Accounts.TokenRotation
import Flexi.Accounts.OneAtATime

/-!
# What a login, a refresh and a logout do to the refresh tokens

Each of them finds at most one row, acts on that row, and has at most one row made, whose token
it answers with.
-/

namespace Flexi.Accounts
open Flexi.Library

/-- Where a request stands: it has found the row of the token it presents, has spent it, or has
had a row made for a new one. -/
inductive TokenStage where
  | before
  | found (stored : RefreshToken)
  | spent
  | minted (hash : String)
  | ended

/-- The statements of a request that presents the token of `hash` and acts on its row by
`acts`. -/
def presenting (hash : String) (acts : RefreshToken → Op → Prop) :
    Protocol Op Op.Res Context ServiceError TokenStage where
  allows
    | .before, op => op.writes = [] ∧ ∀ h, op = .findRefreshToken h → h = hash
    | .found stored, op => acts stored op
    | .spent, op => op.writes = [] ∨ ∃ a h exp, op = .createRefreshToken a h exp
    | .minted _, _ => False
    | .ended, _ => False
  next
    | .before, .findRefreshToken _, .ok (some stored) => .found stored
    | .before, .findRefreshToken _, _ => .ended
    | .found _, .rotate _ _, .ok count => if count = 0 then .ended else .spent
    | .found _, _, _ => .ended
    | .spent, .createRefreshToken _ hash _, .ok _ => .minted hash
    | q, _, _ => q
  reads q _ := q
  ends _ := True

/-- A refresh rotates the row, or takes its mark for the sign of a theft. -/
def refreshActs (stored : RefreshToken) (op : Op) : Prop :=
  (∃ now, op = .rotate stored.id now) ∨
    stored.revokedAt ≠ none ∧ ∃ now, op = .revokeFamily stored.authAccountId now

def logoutActs (stored : RefreshToken) (op : Op) : Prop := ∃ now, op = .revokeToken stored.id now

/-- The tokens of an answer are those that a row has been made for. -/
def Delivers (cfg : Config) (r : Response) (q : TokenStage) : Prop :=
  ∀ tokens, r = .tokens tokens → q = .minted (cfg.hashToken tokens.refreshToken)

section
variable {cfg : Config} {hash : String} {acts : RefreshToken → Op → Prop}

theorem spent_of_makes {α : Type} {p : Service α} {H : Op → Prop} (h : Makes H p)
    (hH : ∀ op, H op → op.writes = []) :
    p.Keeps (presenting hash acts) (fun _ q => q = .spent) .spent := by
  refine Prog.Keeps.of_calls h (fun op hop => ?_) (fun _ => rfl) trivial
  have hwrites := hH op hop
  cases op with
  | createRefreshToken a h exp => cases hwrites
  | _ => exact ⟨.inl hwrites, fun _ => rfl⟩

theorem issueTokens_presenting (actor : ResolvedActor) :
    (issueTokens cfg actor).Keeps (presenting hash acts) (Delivers cfg) .spent := by
  refine .bind (Q := fun issued q => q = .minted (cfg.hashToken issued.1)) ?_ fun issued q hq => ?_
  · refine .bind (Q := fun _ q => q = .spent) (.read fun _ => rfl) fun c q hq => ?_
    subst hq
    refine .bind (Q := fun _ q => q = .minted (cfg.hashToken
      (.signed actor.authAccountId c.newJti (c.now / 1000 + cfg.refreshExpiresIn)))) ?_ fun id q hq => ?_
    · exact .await (.inr ⟨_, _, _, rfl⟩) (fun _ => rfl) fun _ => trivial
    · exact .pure hq
  · subst hq
    refine .bind (Q := fun _ q => q = .minted (cfg.hashToken issued.1)) ?_ fun now q hq => ?_
    · exact .bind (Q := fun _ q => q = .minted (cfg.hashToken issued.1)) (.read fun _ => rfl)
        fun _ _ h => .pure h
    · refine .pure fun tokens h => ?_
      cases h
      exact hq

theorem issueForAccount_presenting (authAccountId : ℕ) :
    (issueForAccount cfg authAccountId).Keeps (presenting hash acts) (Delivers cfg) .spent := by
  refine .bind (spent_of_makes (H := fun op => op.writes = [])
    (resolveActorByAuthAccountId_makes (fun _ => rfl) (fun _ => rfl) fun _ => rfl) fun _ h => h) ?_
  intro actor q hq
  subst hq
  cases actor with
  | none => exact .throw trivial
  | some actor =>
    dsimp only
    split
    · exact issueTokens_presenting actor
    · exact .throw trivial

theorem refreshStored_presenting (stored : RefreshToken) (sub : ℕ) :
    (refreshStored cfg stored sub).Keeps (presenting hash refreshActs) (Delivers cfg)
      (.found stored) := by
  refine .bind (Q := fun _ q => q = .found stored) (.bind (.read fun _ => rfl)
    fun c q hq => .pure hq.symm) fun now q hq => ?_
  subst hq
  split
  · rename_i hrevoked
    exact .bind (Q := fun _ _ => True) (.await (.inr ⟨hrevoked, now, rfl⟩) (fun _ => trivial)
      fun _ => trivial) fun _ q _ => .throw trivial
  · split
    · exact .throw trivial
    · refine .bind (Q := fun count q => q = if count = 0 then .ended else .spent) ?_
        fun count q hq => ?_
      · exact .await (.inl ⟨now, rfl⟩) (fun _ => rfl) fun _ => trivial
      · by_cases hcount : count = 0
        · rw [if_pos hcount]
          exact .throw trivial
        · rw [if_neg hcount] at hq ⊢
          subst hq
          exact issueForAccount_presenting stored.authAccountId

theorem refresh_presenting (token : RefreshJwt) :
    (refresh cfg token).Keeps (presenting (cfg.hashToken token) refreshActs) (Delivers cfg)
      .before := by
  refine .bind (Q := fun _ q => q = .before) (.bind (.read fun _ => rfl)
    fun c q hq => .pure hq.symm) fun now q hq => ?_
  subst hq
  cases token.verify now with
  | none => exact .throw trivial
  | some sub =>
    refine .bind (Q := fun found q => ∀ stored, found = some stored → q = .found stored) ?_
      fun found q hq => ?_
    · refine .await ⟨rfl, fun h heq => ?_⟩ (fun found stored hfound => ?_) fun _ => trivial
      · cases heq
        rfl
      · subst hfound
        rfl
    · cases found with
      | none => exact .throw trivial
      | some stored =>
        rw [hq stored rfl]
        exact refreshStored_presenting stored sub

theorem before_of_makes {α : Type} {p : Service α} {H : Op → Prop} (h : Makes H p)
    (hH : ∀ op, H op → op.writes = [] ∧ ∀ h, op ≠ .findRefreshToken h) :
    p.Keeps (presenting hash acts) (fun _ q => q = .before) .before := by
  refine Prog.Keeps.of_calls h (fun op hop => ?_) (fun _ => rfl) trivial
  obtain ⟨hwrites, hfind⟩ := hH op hop
  refine ⟨⟨hwrites, fun h heq => absurd heq (hfind h)⟩, fun r => ?_⟩
  cases op with
  | findRefreshToken h => exact absurd rfl (hfind h)
  | _ => rfl

theorem logout_presenting (token : RefreshJwt) (user : AuthenticatedUser) :
    ((Request.logout token user).code cfg).Keeps (presenting (cfg.hashToken token) logoutActs)
      (Delivers cfg) .before := by
  refine .bind (before_of_makes (H := fun op => ∃ t, op = .isTenantActive t)
    (jwtAuthGuard_makes fun t => ⟨t, rfl⟩) ?_) fun _ q hq => ?_
  · rintro op ⟨t, rfl⟩
    exact ⟨rfl, fun h heq => (nomatch heq)⟩
  subst hq
  refine .bind (Q := fun found q => ∀ stored, found = some stored → q = .found stored) ?_
    fun found q hq => ?_
  · refine .await ⟨rfl, fun h heq => ?_⟩ (fun found stored hfound => ?_) fun _ => trivial
    · cases heq
      rfl
    · subst hfound
      rfl
  · cases found with
    | none => exact .throw trivial
    | some stored =>
      rw [hq stored rfl]
      dsimp only
      split
      · exact .throw trivial
      · refine .bind (Q := fun _ q => q = .found stored) (.bind (.read fun _ => rfl)
          fun c q hq => .pure hq.symm) fun now q hq => ?_
        subst hq
        refine .bind (Q := fun _ _ => True) (.await ⟨now, rfl⟩ (fun _ => trivial) fun _ => trivial) ?_
        exact fun _ _ _ => .pure fun tokens h => (nomatch h)

theorem login_presenting (dto : LoginDto) (tenantId : Option String) :
    (login cfg dto tenantId).Keeps (presenting hash acts) (Delivers cfg) .spent := by
  have hcompare (p q : String) : (request (.compare p q)).Keeps (presenting hash acts)
      (fun _ q => q = .spent) .spent :=
    spent_of_makes (H := fun op => op.writes = []) (makes_request rfl) fun _ h => h
  have hreject : (rejectLogin dto).Keeps (presenting hash acts) (Delivers cfg) .spent :=
    .bind (hcompare _ _) fun _ _ _ => .throw trivial
  refine .bind (Q := fun _ q => q = .spent) ?_ fun actor q hq => ?_
  · refine spent_of_makes (H := fun op => op.writes = []) ?_ fun _ h => h
    cases tenantId with
    | none => exact .bind (makes_request rfl) fun _ => .pure
    | some tenantId => exact resolveTenantActor_makes (fun _ _ => rfl) fun _ => rfl
  · subst hq
    cases actor with
    | none => exact hreject
    | some actor =>
      dsimp only
      split
      · refine .bind (hcompare _ _) fun passwordMatches q hq => ?_
        subst hq
        cases passwordMatches
        · exact .throw trivial
        · exact issueTokens_presenting actor
      · exact hreject

end

/-! ### The rows -/

/-- No row of this hash has been revoked. -/
def Database.Unspent (hash : String) (db : Database) : Prop :=
  ∀ row ∈ db.refreshTokens, row.tokenHash = hash → row.revokedAt = none

section
variable {cfg : Config} {outside : Outside} {db db' : Database} {hash : String}

theorem Database.Unspent.revoke {p : RefreshToken → Bool} {now : ℕ} (h : db.Unspent hash)
    (hrows : db'.refreshTokens = updateMany p (fun token => { token with revokedAt := some now })
      db.refreshTokens)
    (hother : ∀ row ∈ db.refreshTokens, p row = true → row.tokenHash ≠ hash) : db'.Unspent hash := by
  intro row hrow hhash
  rw [hrows] at hrow
  obtain ⟨old, hold, rfl⟩ := mem_updateMany.mp hrow
  split at hhash
  · rename_i hp
    exact absurd hhash (hother old hold hp)
  · rename_i hp
    rw [if_neg hp]
    exact h old hold hhash

theorem Database.Unspent.rotate {stored : RefreshToken} {other : String} {now : ℕ}
    (h : db.Unspent hash) (hfound : FoundToken other stored db) (hne : hash ≠ other) :
    ((Op.rotate stored.id now).perform cfg outside db).2.Unspent hash := by
  rcases Op.perform_cases cfg outside (.rotate stored.id now) db with ⟨hdb, -⟩ | heffect
  · rwa [hdb]
  · rw [heffect]
    refine h.revoke rfl fun row hrow hp => ?_
    simp only [Bool.and_eq_true, decide_eq_true_eq] at hp
    rw [(hfound.rows row hrow hp.2).1]
    exact hne.symm

theorem Database.Unspent.revokeToken {stored : RefreshToken} {other : String} {now : ℕ}
    (h : db.Unspent hash) (hfound : FoundToken other stored db) (hne : hash ≠ other) :
    ((Op.revokeToken stored.id now).perform cfg outside db).2.Unspent hash := by
  rcases Op.perform_cases cfg outside (.revokeToken stored.id now) db with ⟨hdb, -⟩ | heffect
  · rwa [hdb]
  · rw [heffect, Op.effect]
    split
    · exact h
    · refine h.revoke rfl fun row hrow hp => ?_
      rw [(hfound.rows row hrow (of_decide_eq_true hp)).1]
      exact hne.symm

theorem Database.Unspent.create {a exp : ℕ} {new : String} (h : db.Unspent hash) :
    ((Op.createRefreshToken a new exp).perform cfg outside db).2.Unspent hash := by
  rcases Op.perform_createRefreshToken cfg outside db a new exp with ⟨e, he⟩ | ⟨-, -, he⟩
  · rw [he]
    exact h
  · rw [he]
    intro row hrow hhash
    rcases List.mem_append.mp hrow with hold | hnew
    · exact h row hold hhash
    · cases List.mem_singleton.mp hnew
      rfl

theorem unspent_created {a exp id : ℕ} {new : String}
    (h : ((Op.createRefreshToken a new exp).perform cfg outside db).1 = .ok id) :
    ((Op.createRefreshToken a new exp).perform cfg outside db).2.Unspent new := by
  rcases Op.perform_createRefreshToken cfg outside db a new exp with ⟨e, he⟩ | ⟨-, hfresh, he⟩
  · rw [he] at h
    cases h
  · rw [he]
    intro row hrow hhash
    rcases List.mem_append.mp hrow with hold | hnew
    · exact absurd hhash (hfresh row hold)
    · cases List.mem_singleton.mp hnew
      rfl

theorem foundToken_of_find {stored : RefreshToken} (hkeyed : db.Keyed) (hids : db.TokenIds)
    (h : ((Op.findRefreshToken hash).perform cfg outside db).1 = .ok (some stored)) :
    FoundToken hash stored db ∧ stored ∈ db.refreshTokens := by
  obtain ⟨hmem, hhash⟩ := (Op.perform_findRefreshToken cfg outside db hash).2 stored h
  refine ⟨⟨hkeyed.tokenIds stored hmem, fun row hrow hid => ?_⟩, hmem⟩
  rw [hids row hrow stored hmem hid]
  exact ⟨hhash, rfl⟩

theorem presenting_next (cfg : Config) (outside : Outside) (db : Database) {presents : String} {acts : RefreshToken → Op → Prop} {q : TokenStage}
    {op : Op} (hallows : (presenting presents acts).allows q op) :
    (∃ stored, q = .before ∧ op = .findRefreshToken presents ∧
      ((Op.findRefreshToken presents).perform cfg outside db).1 = .ok (some stored) ∧
      (presenting presents acts).next q op (op.perform cfg outside db).1 = .found stored) ∨
    (∃ a new exp id, q = .spent ∧ op = .createRefreshToken a new exp ∧
      ((Op.createRefreshToken a new exp).perform cfg outside db).1 = .ok id ∧
      (presenting presents acts).next q op (op.perform cfg outside db).1 = .minted new) ∨
    (q = .before ∧ (presenting presents acts).next q op (op.perform cfg outside db).1 = .before) ∨
    (presenting presents acts).next q op (op.perform cfg outside db).1 = .spent ∨
    (presenting presents acts).next q op (op.perform cfg outside db).1 = .ended := by
  cases q with
  | before =>
    cases op with
    | findRefreshToken hash =>
      obtain rfl := hallows.2 hash rfl
      cases hanswer : ((Op.findRefreshToken hash).perform cfg outside db).1 with
      | error e => exact .inr (.inr (.inr (.inr rfl)))
      | ok found =>
        cases found with
        | none => exact .inr (.inr (.inr (.inr rfl)))
        | some stored => exact .inl ⟨stored, rfl, rfl, rfl, rfl⟩
    | _ => exact .inr (.inr (.inl ⟨rfl, rfl⟩))
  | found stored =>
    cases op with
    | rotate id now =>
      cases ((Op.rotate id now).perform cfg outside db).1 with
      | error e => exact .inr (.inr (.inr (.inr rfl)))
      | ok count =>
        by_cases hcount : count = 0
        · exact .inr (.inr (.inr (.inr (if_pos hcount))))
        · exact .inr (.inr (.inr (.inl (if_neg hcount))))
    | _ => exact .inr (.inr (.inr (.inr rfl)))
  | spent =>
    cases op with
    | createRefreshToken a new exp =>
      cases hanswer : ((Op.createRefreshToken a new exp).perform cfg outside db).1 with
      | error e => exact .inr (.inr (.inr (.inl rfl)))
      | ok id => exact .inr (.inl ⟨a, new, exp, id, rfl, rfl, hanswer, rfl⟩)
    | _ => exact .inr (.inr (.inr (.inl rfl)))
  | minted new => exact hallows.elim
  | ended => exact hallows.elim

/-- A statement of a request leaves the hashes unspent, or acts on the row of the token it
presents. -/
theorem Database.Unspent.statement {presents : String} {acts : RefreshToken → Op → Prop}
    {q : TokenStage} {op : Op} (hallows : (presenting presents acts).allows q op)
    (hfound : ∀ stored, q = .found stored → FoundToken presents stored db)
    (hacts : ∀ stored, q = .found stored → acts stored op →
      (∃ now, op = .rotate stored.id now) ∨ ∃ now, op = .revokeToken stored.id now)
    (h : db.Unspent hash) : (op.perform cfg outside db).2.Unspent hash ∨
      hash = presents ∧ ∃ stored, q = .found stored ∧ acts stored op := by
  cases q with
  | before =>
    left
    rwa [Op.perform_reads hallows.1]
  | found stored =>
    by_cases hhash : hash = presents
    · exact .inr ⟨hhash, stored, rfl, hallows⟩
    · left
      rcases hacts stored rfl hallows with ⟨now, rfl⟩ | ⟨now, rfl⟩
      · exact h.rotate (hfound stored rfl) hhash
      · exact h.revokeToken (hfound stored rfl) hhash
  | spent =>
    left
    rcases hallows with hreads | ⟨a, new, exp, rfl⟩
    · rwa [Op.perform_reads hreads]
    · exact h.create
  | minted new => exact hallows.elim
  | ended => exact hallows.elim

end
end Flexi.Accounts
