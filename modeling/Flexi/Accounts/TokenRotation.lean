import Flexi.Accounts.ReuseDetection
import Flexi.Library.Protocol
import Flexi.Library.Reach

/-!
# One rotation of a refresh token

Requests that present the same token find the same row. Only the one whose conditional
update has changed the row goes on to a new pair.
-/

namespace Flexi.Accounts
open Flexi.Library

/-- Whom the token was signed for. -/
def RefreshJwt.sub? : RefreshJwt → Option ℕ
  | signed sub _ _ => some sub
  | other _ => none

theorem RefreshJwt.sub?_of_verify {token : RefreshJwt} {now sub : ℕ}
    (h : token.verify now = some sub) : token.sub? = some sub := by
  cases token with
  | signed sub' jti exp =>
    rw [verify] at h
    split at h
    · exact h
    · cases h
  | other text => cases h

/-- Where a request that presents a token stands: it has found the row, or has revoked it
itself. -/
inductive RotationStage where
  | before
  | found (token : RefreshToken)
  | won (token : RefreshToken)
  | lost

def RotationStage.isWon : RotationStage → Bool
  | won _ => true
  | _ => false

/-- The statements around the rotation of `token`. -/
def rotating (cfg : Config) (token : RefreshJwt) :
    Protocol Op Op.Res Context ServiceError RotationStage where
  allows
    | .before, op => op = .findRefreshToken (cfg.hashToken token)
    | .found stored, .rotate id _ => id = stored.id ∧ token.sub? = some stored.authAccountId
    | .found _, .revokeFamily _ _ => True
    | .found _, _ => False
    | .won _, .rotate _ _ => False
    | .won _, .findRefreshToken _ => False
    | .won _, _ => True
    | .lost, _ => False
  next
    | .before, .findRefreshToken _, .ok (some stored) => .found stored
    | .found stored, .rotate _ _, .ok count => if count = 0 then .lost else .won stored
    | .won stored, _, _ => .won stored
    | _, _, _ => .lost
  reads q _ := q
  ends _ := True

section
variable {cfg : Config} {token : RefreshJwt}

theorem won_of_makes {stored : RefreshToken} {α : Type} {p : Service α} {H : Op → Prop}
    (h : Makes H p) (hH : ∀ op, H op → (∀ id now, op ≠ .rotate id now) ∧
      ∀ hash, op ≠ .findRefreshToken hash) :
    p.Keeps (rotating cfg token) (fun _ q => q = .won stored) (.won stored) := by
  refine (Prog.Keeps.of_calls h (fun op hop => ?_) (fun _ => rfl) trivial).mono fun _ _ hq => hq
  obtain ⟨hrotate, hfind⟩ := hH op hop
  cases op with
  | rotate id now => exact absurd rfl (hrotate id now)
  | findRefreshToken hash => exact absurd rfl (hfind hash)
  | _ => exact ⟨trivial, fun _ => rfl⟩

theorem refreshStored_rotating (stored : RefreshToken) {sub : ℕ} (hsub : token.sub? = some sub) :
    (refreshStored cfg stored sub).Keeps (rotating cfg token) (fun _ q => q = .won stored)
      (.found stored) := by
  refine .bind (Q := fun _ q => q = .found stored) (.bind (.read fun _ => rfl)
    fun c q hq => .pure hq.symm) fun now q hq => ?_
  subst hq
  split
  · exact .bind (Q := fun _ _ => True) (.await trivial (fun _ => trivial) fun _ => trivial)
      fun _ q _ => .throw trivial
  · split
    · exact .throw trivial
    · rename_i hvalid
      have hown : stored.authAccountId = sub := by
        by_contra hne
        exact hvalid (.inr hne)
      refine .bind (Q := fun count q => q = if count = 0 then .lost else .won stored) ?_
        fun count q hq => ?_
      · exact .await ⟨rfl, hown ▸ hsub⟩ (fun _ => rfl) fun _ => trivial
      · by_cases hcount : count = 0
        · rw [if_pos hcount]
          exact .throw trivial
        · rw [if_neg hcount] at hq ⊢
          subst hq
          have hissue : Makes (fun op => (∀ id now, op ≠ .rotate id now) ∧
              ∀ hash, op ≠ .findRefreshToken hash) (issueForAccount cfg stored.authAccountId) := by
            apply issueForAccount_makes cfg
            · exact fun _ => ⟨fun _ _ h => (nomatch h), fun _ h => (nomatch h)⟩
            · exact fun _ => ⟨fun _ _ h => (nomatch h), fun _ h => (nomatch h)⟩
            · exact fun _ => ⟨fun _ _ h => (nomatch h), fun _ h => (nomatch h)⟩
            · exact fun _ _ _ => ⟨fun _ _ h => (nomatch h), fun _ h => (nomatch h)⟩
          exact won_of_makes hissue fun _ h => h

theorem refresh_rotating (token : RefreshJwt) :
    (refresh cfg token).Keeps (rotating cfg token) (fun _ q => q.isWon = true) .before := by
  refine .bind (Q := fun _ q => q = .before) (.bind (.read fun _ => rfl)
    fun c q hq => .pure hq.symm) fun now q hq => ?_
  subst hq
  cases hsub : token.verify now with
  | none => exact .throw trivial
  | some sub =>
    refine .bind (Q := fun found q => ∀ stored, found = some stored → q = .found stored) ?_
      fun found q hq => ?_
    · refine .await rfl (fun found stored hfound => ?_) fun _ => trivial
      subst hfound
      rfl
    · cases found with
      | none => exact .throw trivial
      | some stored =>
        rw [hq stored rfl]
        refine (refreshStored_rotating stored (RefreshJwt.sub?_of_verify hsub)).mono ?_
        intro answer q hq
        rw [hq]
        rfl

end

/-! ### The rows -/

section
variable {cfg : Config} {outside : Outside} {db : Database} {op : Op}

/-- An id names one row. -/
def Database.TokenIds (db : Database) : Prop :=
  ∀ token ∈ db.refreshTokens, ∀ other ∈ db.refreshTokens, token.id = other.id → token = other

/-- The row `stored` as it was found for `hash`. -/
structure FoundToken (hash : String) (stored : RefreshToken) (db : Database) : Prop where
  given : stored.id < db.nextId
  rows : ∀ row ∈ db.refreshTokens, row.id = stored.id →
    row.tokenHash = hash ∧ row.authAccountId = stored.authAccountId

/-- The account's token of this hash has been revoked, or the account is gone. -/
def SpentToken (hash : String) (a : ℕ) (db : Database) : Prop :=
  (∃ row ∈ db.refreshTokens, row.tokenHash = hash ∧ row.authAccountId = a ∧ row.revokedAt ≠ none) ∨
    db.Gone a

theorem Database.TokenIds.perform (h : db.TokenIds) (hkeyed : db.Keyed) :
    (op.perform cfg outside db).2.TokenIds := by
  have hkeyed' : (op.perform cfg outside db).2.Keyed := hkeyed.perform
  intro token htoken other hother hid
  have hsame : token.tokenHash = other.tokenHash := by
    rcases Op.perform_tokens_cases cfg outside op db with ht | ⟨a, hash, exp, -, -, -, he⟩
    · obtain ⟨old, hold, hevolves⟩ := ht.rows token htoken
      obtain ⟨old', hold', hevolves'⟩ := ht.rows other hother
      have heq : old = old' := by
        apply h old hold old' hold'
        rw [← hevolves.id, ← hevolves'.id, hid]
      rw [hevolves.tokenHash, hevolves'.tokenHash, heq]
    · rw [he] at htoken hother
      rcases List.mem_append.mp htoken with hold | hnew
      · rcases List.mem_append.mp hother with hold' | hnew'
        · rw [h token hold other hold' hid]
        · cases List.mem_singleton.mp hnew'
          exact absurd hid (hkeyed.tokenIds token hold).ne
      · rcases List.mem_append.mp hother with hold' | hnew'
        · cases List.mem_singleton.mp hnew
          exact absurd hid.symm (hkeyed.tokenIds other hold').ne
        · cases List.mem_singleton.mp hnew
          cases List.mem_singleton.mp hnew'
          rfl
  exact List.inj_on_of_nodup_map hkeyed'.hashes htoken hother hsame

theorem FoundToken.perform {hash : String} {stored : RefreshToken} (h : FoundToken hash stored db) :
    FoundToken hash stored (op.perform cfg outside db).2 := by
  have hn : db.nextId ≤ (op.perform cfg outside db).2.nextId := Op.perform_accounts.nextId
  refine ⟨h.given.trans_le hn, fun row hrow hid => ?_⟩
  rcases Op.perform_tokens_cases cfg outside op db with ht | ⟨a, hash', exp, -, -, -, he⟩
  · obtain ⟨old, hold, hevolves⟩ := ht.rows row hrow
    have hrows := h.rows old hold (hevolves.id ▸ hid)
    rw [hevolves.tokenHash, hevolves.authAccountId]
    exact hrows
  · rw [he] at hrow
    rcases List.mem_append.mp hrow with hold | hnew
    · exact h.rows row hold hid
    · cases List.mem_singleton.mp hnew
      exact absurd hid h.given.ne'

theorem SpentToken.perform {hash : String} {a : ℕ} (h : SpentToken hash a db) (hkeyed : db.Keyed) :
    SpentToken hash a (op.perform cfg outside db).2 := by
  rcases h with ⟨row, hrow, hhash, ha, hrevoked⟩ | hgone
  · rcases Op.perform_token_kept cfg outside op hkeyed hrow with ⟨new, hnew, hevolves⟩ | hgone
    · have hrevoked' := hevolves.revokedAt hrevoked
      exact .inl ⟨new, hnew, hevolves.tokenHash.trans hhash, hevolves.authAccountId.trans ha, hrevoked'⟩
    · exact .inr (ha ▸ hgone)
  · exact .inr hgone.perform

theorem SpentToken.not_live {hash : String} {a : ℕ} (h : SpentToken hash a db) (hkeyed : db.Keyed)
    {row : RefreshToken} (hrow : row ∈ db.refreshTokens) (hhash : row.tokenHash = hash)
    (ha : row.authAccountId = a) : row.revokedAt ≠ none := by
  rcases h with ⟨other, hother, hhash', -, hrevoked⟩ | hgone
  · have heq : row = other := by
      apply List.inj_on_of_nodup_map hkeyed.hashes hrow hother
      rw [hhash, hhash']
    rw [heq]
    exact hrevoked
  · exact absurd ha (hgone.tokens row hrow)

theorem Op.perform_rotate {id now count : ℕ}
    (h : ((rotate id now).perform cfg outside db).1 = .ok count) (hcount : count ≠ 0) :
    (∃ row ∈ db.refreshTokens, row.id = id ∧ row.revokedAt = none) ∧
      ∃ row ∈ ((rotate id now).perform cfg outside db).2.refreshTokens,
        row.id = id ∧ row.revokedAt ≠ none := by
  rcases perform_cases cfg outside (rotate id now) db with ⟨-, e, he⟩ | heffect
  · rw [he] at h
    cases h
  rw [heffect] at h ⊢
  have hcount' : count = countWhere (fun token => token.revokedAt = none && token.id = id)
      db.refreshTokens := by
    simpa [effect, Database.revokeTokens] using (Except.ok.inj h).symm
  rw [hcount'] at hcount
  obtain ⟨row, hrow, hp⟩ := countWhere_ne_zero.mp hcount
  have hlive : row.revokedAt = none ∧ row.id = id := by simpa using hp
  refine ⟨⟨row, hrow, hlive.2, hlive.1⟩, { row with revokedAt := some now }, ?_, hlive.2,
    Option.some_ne_none now⟩
  refine mem_updateMany.mpr ⟨row, hrow, ?_⟩
  rw [if_pos (by simpa using hlive)]

end

/-! ### The server -/

/-- What a request's stage says of the rows. -/
def RotationStage.Stands (hash : String) (db : Database) : RotationStage → Prop
  | before | lost => True
  | found stored => FoundToken hash stored db
  | won stored => SpentToken hash stored.authAccountId db

/-- The requests that present the token are at their stages, and one has won at most. -/
structure Server.Rotating (cfg : Config) (token : RefreshJwt) (stage : ℕ → RotationStage)
    (s : Server) : Prop where
  keyed : s.db.Keyed
  ids : s.db.TokenIds
  threads : ∀ (i : ℕ) (f : InFlight), s.requests[i]? = some f → f.request = .refresh token →
    f.thread.KeepsTo (rotating cfg token) (fun _ q => q.isWon = true) (stage i)
  stands : ∀ i, (stage i).Stands (cfg.hashToken token) s.db
  owned : ∀ i stored, stage i = .won stored → token.sub? = some stored.authAccountId
  ahead : ∀ i, s.requests.length ≤ i → stage i = .before
  one : ∀ i j, (stage i).isWon = true → (stage j).isWon = true → i = j

namespace Server.Rotating

variable {cfg : Config} {token : RefreshJwt} {stage : ℕ → RotationStage} {s s' : Server}

theorem arrive {r : Request} {c : Context} (h : s.Rotating cfg token stage)
    (hs : s.step cfg (.arrive r c) = some s') : s'.Rotating cfg token stage := by
  obtain ⟨-, rfl⟩ := step_arrive hs
  refine ⟨h.keyed, h.ids, fun i f hf hr => ?_, h.stands, h.owned, fun i hi => ?_, h.one⟩
  · rcases getElem?_arrive hf with hf | ⟨rfl, rfl⟩
    · exact h.threads i f hf hr
    · have hr : r = .refresh token := hr
      subst hr
      rw [h.ahead _ le_rfl]
      exact Thread.KeepsTo.advance (refresh_rotating token) _ fun _ => rfl
  · apply h.ahead
    simp at hi
    omega

theorem deliver {i : ℕ} {c : Context} (h : s.Rotating cfg token stage)
    (hs : s.step cfg (.deliver i c) = some s') : s'.Rotating cfg token stage := by
  obtain ⟨r, op, answer, k, hi, rfl⟩ := step_deliver hs
  refine ⟨h.keyed, h.ids, fun j f hf hr => ?_, h.stands, h.owned, fun j hj => ?_, h.one⟩
  · rcases getElem?_set hf with ⟨rfl, rfl⟩ | ⟨-, hf⟩
    · exact Thread.KeepsTo.advance (h.threads j _ hi hr) _ fun _ => rfl
    · exact h.threads j f hf hr
  · apply h.ahead
    rwa [List.length_set] at hj

theorem stands_perform (h : s.Rotating cfg token stage) (outside : Outside) (op : Op) (i : ℕ) :
    (stage i).Stands (cfg.hashToken token) (s.perform cfg outside op).2 := by
  have hstands := h.stands i
  cases hstage : stage i with
  | before => trivial
  | lost => trivial
  | found stored =>
    rw [hstage] at hstands
    exact FoundToken.perform hstands
  | won stored =>
    rw [hstage] at hstands
    exact SpentToken.perform hstands h.keyed

theorem execute_other {i : ℕ} {outside : Outside} {r : Request} {op : Op}
    {k : Except ServiceError op.Res → Service Response} (h : s.Rotating cfg token stage)
    (hi : s.requests[i]? = some ⟨r, .awaiting op k⟩) (hr : r ≠ .refresh token)
    (hs : s.step cfg (.execute i outside) = some s') : s'.Rotating cfg token stage := by
  obtain ⟨r', op', k', hi', rfl⟩ := step_execute hs
  cases hi.symm.trans hi'
  refine ⟨h.keyed.perform, h.ids.perform h.keyed, fun j f hf hr' => ?_,
    h.stands_perform outside op, h.owned, fun j hj => ?_, h.one⟩
  · rcases getElem?_set hf with ⟨rfl, rfl⟩ | ⟨-, hf⟩
    · exact absurd hr' hr
    · exact h.threads j f hf hr'
  · apply h.ahead
    rwa [List.length_set] at hj

theorem stands_found {hash : String} {outside : Outside} {stored : RefreshToken}
    (h : s.Rotating cfg token stage)
    (hanswer : (s.perform cfg outside (.findRefreshToken hash)).1 = .ok (some stored)) :
    FoundToken hash stored (s.perform cfg outside (.findRefreshToken hash)).2 := by
  obtain ⟨hmem, hhash⟩ := (Op.perform_findRefreshToken cfg { outside with now := s.clock } s.db
    hash).2 stored hanswer
  apply FoundToken.perform
  refine ⟨h.keyed.tokenIds stored hmem, fun row hrow hid => ?_⟩
  rw [h.ids row hrow stored hmem hid]
  exact ⟨hhash, rfl⟩

/-- Nobody has won while the row is live. -/
theorem none_won (h : s.Rotating cfg token stage) {stored row : RefreshToken}
    (hfound : FoundToken (cfg.hashToken token) stored s.db)
    (hsub : token.sub? = some stored.authAccountId) (hrow : row ∈ s.db.refreshTokens)
    (hid : row.id = stored.id) (hlive : row.revokedAt = none) (j : ℕ) : (stage j).isWon = false := by
  cases hstage : stage j with
  | won other =>
    exfalso
    have hspent := h.stands j
    have hother := h.owned j other hstage
    rw [hstage] at hspent
    obtain ⟨hhash, ha⟩ := hfound.rows row hrow hid
    have hsame : other.authAccountId = stored.authAccountId := by
      rw [hsub] at hother
      exact (Option.some.inj hother).symm
    exact SpentToken.not_live hspent h.keyed hrow hhash (ha.trans hsame.symm) hlive
  | _ => rfl

theorem stands_next (h : s.Rotating cfg token stage) {i : ℕ} (outside : Outside) {op : Op}
    (hallows : (rotating cfg token).allows (stage i) op) :
    let q := (rotating cfg token).next (stage i) op (s.perform cfg outside op).1
    q.Stands (cfg.hashToken token) (s.perform cfg outside op).2 ∧
      (∀ stored, q = .won stored → token.sub? = some stored.authAccountId) ∧
      (q.isWon = true → ∀ j, (stage j).isWon = true → j = i) := by
  have hstands := h.stands_perform outside op i
  have hone := h.one i
  have howned := h.owned i
  have hhere := h.stands i
  cases hstage : stage i with
  | before =>
    rw [hstage] at hallows
    have hop : op = .findRefreshToken (cfg.hashToken token) := hallows
    subst hop
    cases hanswer : (s.perform cfg outside (.findRefreshToken (cfg.hashToken token))).1 with
    | error e => exact ⟨trivial, fun _ h => (nomatch h), fun h => (nomatch h)⟩
    | ok found =>
      cases found with
      | none => exact ⟨trivial, fun _ h => (nomatch h), fun h => (nomatch h)⟩
      | some stored =>
        exact ⟨h.stands_found hanswer, fun _ h => (nomatch h), fun h => (nomatch h)⟩
  | found stored =>
    rw [hstage] at hallows hhere
    cases op with
    | rotate id now =>
      obtain ⟨rfl, hsub⟩ := hallows
      cases hanswer : (s.perform cfg outside (.rotate stored.id now)).1 with
      | error e => exact ⟨trivial, fun _ h => (nomatch h), fun h => (nomatch h)⟩
      | ok count =>
        show RotationStage.Stands _ _ (if count = 0 then .lost else .won stored) ∧ _
        by_cases hcount : count = 0
        · simp only [rotating, hcount, if_true]
          exact ⟨trivial, fun _ h => (nomatch h), fun h => (nomatch h)⟩
        · simp only [rotating, hcount, if_false]
          obtain ⟨⟨row, hrow, hid, hlive⟩, new, hnew, hid', hrevoked⟩ :=
            Op.perform_rotate hanswer hcount
          have hfound : FoundToken (cfg.hashToken token) stored
            (s.perform cfg outside (.rotate stored.id now)).2 := FoundToken.perform hhere
          obtain ⟨hhash, ha⟩ := hfound.rows new hnew hid'
          refine ⟨.inl ⟨new, hnew, hhash, ha, hrevoked⟩, fun other hother => ?_, fun _ j hj => ?_⟩
          · cases hother
            exact hsub
          · rw [h.none_won hhere hsub hrow hid hlive j] at hj
            cases hj
    | revokeFamily a now => exact ⟨trivial, fun _ h => (nomatch h), fun h => (nomatch h)⟩
    | _ => exact hallows.elim
  | won stored =>
    rw [hstage] at hstands hone
    refine ⟨hstands, fun other hother => ?_, fun _ j hj => (hone j rfl hj).symm⟩
    cases hother
    exact howned stored hstage
  | lost =>
    rw [hstage] at hallows
    exact hallows.elim

theorem execute_own {i : ℕ} {outside : Outside} {op : Op}
    {k : Except ServiceError op.Res → Service Response} (h : s.Rotating cfg token stage)
    (hi : s.requests[i]? = some ⟨.refresh token, .awaiting op k⟩)
    (hs : s.step cfg (.execute i outside) = some s') :
    s'.Rotating cfg token (Function.update stage i
      ((rotating cfg token).next (stage i) op (s.perform cfg outside op).1)) := by
  obtain ⟨r', op', k', hi', rfl⟩ := step_execute hs
  cases hi.symm.trans hi'
  have hthread := h.threads i _ hi rfl
  obtain ⟨hstands, howned, hone⟩ := h.stands_next outside hthread.allows
  refine ⟨h.keyed.perform, h.ids.perform h.keyed, fun j f hf hr => ?_, fun j => ?_,
    fun j stored hj => ?_, fun j hj => ?_, fun j l hj hl => ?_⟩
  · rcases getElem?_set hf with ⟨rfl, rfl⟩ | ⟨hne, hf⟩
    · rw [Function.update_self]
      exact hthread.execute _
    · rw [Function.update_of_ne hne]
      exact h.threads j f hf hr
  · by_cases hji : j = i
    · subst hji
      rw [Function.update_self]
      exact hstands
    · rw [Function.update_of_ne hji]
      exact h.stands_perform _ _ j
  · by_cases hji : j = i
    · subst hji
      rw [Function.update_self] at hj
      exact howned stored hj
    · rw [Function.update_of_ne hji] at hj
      exact h.owned j stored hj
  · obtain ⟨hlt, -⟩ := List.getElem?_eq_some_iff.mp hi
    have hj : s.requests.length ≤ j := by simpa using hj
    rw [Function.update_of_ne (by omega)]
    exact h.ahead j hj
  · by_cases hji : j = i
    · by_cases hli : l = i
      · omega
      · subst hji
        rw [Function.update_self] at hj
        rw [Function.update_of_ne hli] at hl
        exact (hone hj l hl).symm
    · rw [Function.update_of_ne hji] at hj
      by_cases hli : l = i
      · subst hli
        rw [Function.update_self] at hl
        exact hone hl j hj
      · rw [Function.update_of_ne hli] at hl
        exact h.one j l hj hl

theorem step {e : ServerEvent} (h : s.Rotating cfg token stage) (hs : s.step cfg e = some s') :
    ∃ stage', s'.Rotating cfg token stage' := by
  cases e with
  | arrive r c => exact ⟨stage, h.arrive hs⟩
  | deliver i c => exact ⟨stage, h.deliver hs⟩
  | tick d =>
    cases step_tick hs
    exact ⟨stage, h.keyed, h.ids, h.threads, h.stands, h.owned, h.ahead, h.one⟩
  | execute i outside =>
    obtain ⟨r, op, k, hi, -⟩ := step_execute hs
    by_cases hr : r = .refresh token
    · subst hr
      exact ⟨_, h.execute_own hi hs⟩
    · exact ⟨stage, h.execute_other hi hr hs⟩

theorem of_idle (h₀ : s.Idle) (hkeyed : s.db.Keyed) (hids : s.db.TokenIds) :
    s.Rotating cfg token fun _ => .before where
  keyed := hkeyed
  ids := hids
  threads i f hf := by
    rw [h₀] at hf
    cases hf
  stands _ := trivial
  owned _ _ h := nomatch h
  ahead _ _ := rfl
  one _ _ h := nomatch h

end Server.Rotating

/-! ### Runs -/

/-- A row that has been revoked stays so. -/
theorem Server.revoked_step {cfg : Config} {s s' : Server} {e : ServerEvent} {id : ℕ}
    (h : id < s.db.nextId ∧ ∀ row ∈ s.db.refreshTokens, row.id = id → row.revokedAt ≠ none)
    (hs : s.step cfg e = some s') :
    id < s'.db.nextId ∧ ∀ row ∈ s'.db.refreshTokens, row.id = id → row.revokedAt ≠ none := by
  rcases Server.step_db hs with hdb | ⟨outside, op, hdb⟩
  · exact hdb ▸ h
  · rw [hdb]
    have hn : s.db.nextId ≤ (s.perform cfg outside op).2.nextId := Op.perform_accounts.nextId
    refine ⟨h.1.trans_le hn, fun row hrow hid => ?_⟩
    rcases Op.perform_tokens_cases cfg { outside with now := s.clock } op s.db with
      ht | ⟨a, hash, exp, -, -, -, he⟩
    · obtain ⟨old, hold, hevolves⟩ := ht.rows row hrow
      exact hevolves.revokedAt (h.2 old hold (hevolves.id ▸ hid))
    · rw [Server.perform, he] at hrow
      rcases List.mem_append.mp hrow with hold | hnew
      · exact h.2 row hold hid
      · cases List.mem_singleton.mp hnew
        exact absurd hid h.1.ne'

/-- Of the requests that present one refresh token at most one is answered with a new pair,
and a row that has been revoked is never live again. -/
theorem rotation_once (cfg : Config) (token : RefreshJwt) {s₀ s : Server} (h₀ : s₀.Idle)
    (hkeyed : s₀.db.Keyed) (hids : s₀.db.TokenIds)
    (hr : Reach (Server.step cfg) (fun _ _ => True) s₀ s) :
    (∀ (i j : ℕ) (x y : Response), s.requests[i]? = some ⟨.refresh token, .finished (.ok x)⟩ →
      s.requests[j]? = some ⟨.refresh token, .finished (.ok y)⟩ → i = j) ∧
    ∀ s', Reach (Server.step cfg) (fun _ _ => True) s s' → ∀ row ∈ s.db.refreshTokens,
      row.revokedAt ≠ none → ∀ row' ∈ s'.db.refreshTokens, row'.id = row.id →
        row'.revokedAt ≠ none := by
  obtain ⟨stage, hrotating⟩ := hr.invariant (I := fun s => ∃ stage, s.Rotating cfg token stage)
    ⟨_, .of_idle h₀ hkeyed hids⟩ fun _ _ _ _ h _ hstep => h.choose_spec.step hstep
  constructor
  · intro i j x y hi hj
    exact hrotating.one i j (hrotating.threads i _ hi rfl) (hrotating.threads j _ hj rfl)
  · intro s' hr' row hrow hrevoked
    have hrows : ∀ row' ∈ s.db.refreshTokens, row'.id = row.id → row'.revokedAt ≠ none := by
      intro row' hrow' hid
      rw [hrotating.ids row' hrow' row hrow hid]
      exact hrevoked
    exact (hr'.invariant (I := fun s => row.id < s.db.nextId ∧ ∀ row' ∈ s.db.refreshTokens,
      row'.id = row.id → row'.revokedAt ≠ none) ⟨hrotating.keyed.tokenIds row hrow, hrows⟩
      fun _ _ _ _ h _ hstep => Server.revoked_step h hstep).2

/-- The request has been answered with a token pair. -/
def refreshed (token : RefreshJwt) (f : InFlight) : Bool :=
  match f with
  | ⟨.refresh token', .finished (.ok _)⟩ => token' = token
  | _ => false

theorem refreshed_eq_true {token : RefreshJwt} {f : InFlight} (h : refreshed token f = true) :
    ∃ x, f = ⟨.refresh token, .finished (.ok x)⟩ := by
  unfold refreshed at h
  split at h
  · rename_i token' x
    cases of_decide_eq_true h
    exact ⟨x, rfl⟩
  · cases h

/-- Bob's token is presented twice at the same time. -/
theorem rotation_once_acme : ∃ (s : Server) (x : Response),
    Reach (Server.step plainConfig) (fun _ _ => True) acme s ∧
    s.requests.length = 3 ∧ s.requests[2]? = some ⟨.refresh bobToken, .finished (.ok x)⟩ ∧
    ∀ (i : ℕ) (y : Response),
      s.requests[i]? = some ⟨.refresh bobToken, .finished (.ok y)⟩ → i = 2 := by
  have hrun : (runAll (Server.step plainConfig) acme ([bobLogin] ++ acmeCalls 0 4 ++
      [bobRefresh, bobRefresh] ++ acmeCalls 1 1 ++ acmeCalls 2 2 ++ acmeCalls 1 1 ++
      acmeCalls 2 4 "next")).any (fun s => s.requests.length = 3 &&
        (s.requests[2]?).any (refreshed bobToken)) = true := by
    decide +kernel
  obtain ⟨s, hs, h⟩ := (Option.any_eq_true _ _).mp hrun
  obtain ⟨hlength, h⟩ := Bool.and_eq_true_iff.mp h
  obtain ⟨f, hf, h⟩ := (Option.any_eq_true _ _).mp h
  obtain ⟨x, rfl⟩ := refreshed_eq_true h
  have hr : Reach (Server.step plainConfig) (fun _ _ => True) acme s :=
    .of_runAll (.of_labels (fun _ _ _ => trivial) _) hs
  have hids : acme.db.TokenIds := fun token h => nomatch h
  exact ⟨s, x, hr, of_decide_eq_true hlength, hf, fun i y hi =>
    (rotation_once plainConfig bobToken acme_idle acme_keyed hids hr).1 i 2 y x hi hf⟩

end Flexi.Accounts
