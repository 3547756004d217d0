import Flexi.Library.Protocol
import Flexi.Tenants.SetupLinks

/-!
# What a setup-link request knows of the rows

The order of a request's statements, what others do to the rows in between, and what is
known of the tokens at each of its stages.
-/

namespace Flexi.Tenants.SetupLink
open Flexi.Library

/-! ### The order of a request's statements -/

inductive Stage where
  | before
  | revoked
  | created
  | found (id : ℕ)
  | consumed (id : ℕ)
  | done
  | lost

/-- The statements of a request `r`. -/
def linking (cfg : Config) (r : Request) : Protocol Op Op.Res Context ServiceError Stage where
  allows
    | .before, .findTenantUser tenantId => r = .generate tenantId
    | .before, .hash password => ∃ dto, r = .redeem dto ∧ password = dto.password
    | .before, .findToken tokenHash => ∃ dto, r = .redeem dto ∧ tokenHash = cfg.sha256 dto.token
    | .before, .revokeTokens tenantId _ => r = .generate tenantId
    | .before, .revokeAll tenantId _ => r = .revokeAll tenantId
    | .revoked, .createToken tenantId _ _ => r = .generate tenantId
    | .created, .commit => ∃ tenantId, r = .generate tenantId
    | .found _, .findPendingAdmin _ => True
    | .found id, .consume id' _ => id' = id
    | .consumed _, .setPassword _ _ => True
    | .consumed _, .activateUser _ => True
    | .consumed id, .revokeSiblings _ id' _ => id' = id
    | .consumed _, .commit => True
    | _, _ => False
  next
    | _, _, .error _ => .lost
    | .before, .revokeTokens _ _, _ => .revoked
    | .before, .revokeAll _ _, _ => .done
    | .before, .findToken _, .ok (some (id, _)) => .found id
    | .revoked, .createToken _ _ _, _ => .created
    | .found id, .consume _ _, .ok count => if count = 1 then .consumed id else .lost
    | .created, .commit, _ => .done
    | .consumed _, .commit, _ => .done
    | q, _, _ => q
  reads q _ := q
  ends _ := True

section
variable {cfg : Config} {r : Request}

theorem generate_linking (cfg : Config) (tenantId : String) :
    (generate cfg tenantId).Keeps (linking cfg (.generate tenantId)) (fun _ q => q = .done)
      .before := by
  refine .bind (Q := fun _ q => q = .before) (.await rfl (fun _ => rfl) fun _ => trivial)
    fun found q hq => ?_
  subst hq
  split
  · refine .bind (Q := fun _ q => q = .before) (.read fun _ => rfl) fun c q hq => ?_
    subst hq
    refine .bind (Q := fun _ q => q = .revoked) (.await rfl (fun _ => rfl) fun _ => trivial)
      fun _ q hq => ?_
    subst hq
    refine .bind (Q := fun _ q => q = .revoked) (.read fun _ => rfl) fun c q hq => ?_
    subst hq
    refine .bind (Q := fun _ q => q = .created) (.await rfl (fun _ => rfl) fun _ => trivial)
      fun _ q hq => ?_
    subst hq
    refine .bind (Q := fun _ q => q = .done) (.await ⟨tenantId, rfl⟩ (fun _ => rfl) fun _ => trivial)
      fun _ q hq => ?_
    subst hq
    exact .pure rfl
  · exact .throw trivial

theorem revokeAll_linking (cfg : Config) (tenantId : String) :
    (revokeAll tenantId).Keeps (linking cfg (.revokeAll tenantId)) (fun _ q => q = .done)
      .before := by
  refine .bind (Q := fun _ q => q = .before) (.read fun _ => rfl) fun c q hq => ?_
  subst hq
  refine .bind (Q := fun _ q => q = .done) (.await rfl (fun _ => rfl) fun _ => trivial)
    fun _ q hq => ?_
  subst hq
  exact .pure rfl

theorem redeemFound_linking (hash : String) (id : ℕ) (token : SetupToken) (redeemedAt : ℕ) :
    (redeemFound hash id token redeemedAt).Keeps (linking cfg r) (fun _ q => q = .done)
      (.found id) := by
  refine .bind (Q := fun _ q => q = .found id) (.await trivial (fun _ => rfl) fun _ => trivial)
    fun admin q hq => ?_
  subst hq
  split
  · exact .throw trivial
  · refine .bind (Q := fun count q => q = if count = 1 then .consumed id else .lost)
      (.await rfl (fun _ => rfl) fun _ => trivial) fun count q hq => ?_
    subst hq
    by_cases hcount : count = 1
    · rw [if_pos hcount, if_neg (not_not.mpr hcount)]
      refine .bind (Q := fun _ q => q = .consumed id) (.await trivial (fun _ => rfl)
        fun _ => trivial) fun _ q hq => ?_
      subst hq
      refine .bind (Q := fun _ q => q = .consumed id) (.await trivial (fun _ => rfl)
        fun _ => trivial) fun _ q hq => ?_
      subst hq
      refine .bind (Q := fun _ q => q = .consumed id) (.await rfl (fun _ => rfl)
        fun _ => trivial) fun _ q hq => ?_
      subst hq
      refine .bind (Q := fun _ q => q = .done) (.await trivial (fun _ => rfl) fun _ => trivial)
        fun _ q hq => ?_
      subst hq
      exact .pure rfl
    · rw [if_pos hcount]
      exact .throw trivial

theorem redeem_linking (cfg : Config) (dto : RedeemSetupTokenDto) :
    (redeem cfg dto).Keeps (linking cfg (.redeem dto)) (fun _ q => q = .done) .before := by
  unfold redeem
  split
  · exact .throw trivial
  · refine .bind (Q := fun _ q => q = .before) (.await ⟨dto, rfl, rfl⟩ (fun _ => rfl)
      fun _ => trivial) fun hash q hq => ?_
    subst hq
    refine .bind (Q := fun found q => ∀ row, found = some row → q = .found row.1) ?_
      fun found q hq => ?_
    · refine .await ⟨dto, rfl, rfl⟩ (fun found row hfound => ?_) fun _ => trivial
      subst hfound
      rfl
    · refine .bind (Q := fun _ q => ∀ row, found = some row → q = .found row.1) ?_ fun c q hq => ?_
      · exact .read fun _ => hq
      cases found with
      | none => exact .throw trivial
      | some row =>
        rw [hq row rfl]
        obtain ⟨id, token⟩ := row
        dsimp only
        split
        · exact .throw trivial
        · exact redeemFound_linking _ _ _ _

theorem code_linking (cfg : Config) (r : Request) :
    (r.code cfg).Keeps (linking cfg r) (fun _ q => q = .done) .before := by
  cases r with
  | generate tenantId => exact generate_linking cfg tenantId
  | revokeAll tenantId => exact revokeAll_linking cfg tenantId
  | redeem dto => exact redeem_linking cfg dto

end

/-! ### Rows -/

/-- A token later on: no revocation or use is undone, and only an unrevoked token is used. -/
structure SetupToken.Evolves (old new : SetupToken) : Prop where
  tenantId : new.tenantId = old.tenantId
  tokenHash : new.tokenHash = old.tokenHash
  expiresAt : new.expiresAt = old.expiresAt
  revoked : old.revokedAt ≠ none → new.revokedAt ≠ none
  used : old.usedAt ≠ none → new.usedAt ≠ none
  unrevoked : new.usedAt ≠ none → old.usedAt ≠ none ∨ old.revokedAt = none

theorem SetupToken.Evolves.refl (token : SetupToken) : token.Evolves token :=
  ⟨rfl, rfl, rfl, fun h => h, fun h => h, .inl⟩

theorem SetupToken.Evolves.trans {a b c : SetupToken} (h : a.Evolves b) (h' : b.Evolves c) :
    a.Evolves c where
  tenantId := h'.tenantId.trans h.tenantId
  tokenHash := h'.tokenHash.trans h.tokenHash
  expiresAt := h'.expiresAt.trans h.expiresAt
  revoked hr := h'.revoked (h.revoked hr)
  used hu := h'.used (h.used hu)
  unrevoked hu := by
    rcases h'.unrevoked hu with hb | hb
    · exact h.unrevoked hb
    · right
      by_contra hne
      exact h.revoked hne hb

theorem SetupToken.Evolves.live {old new : SetupToken} (h : old.Evolves new) {now now' : ℕ}
    (hle : now ≤ now') (hlive : new.isLive now' = true) : old.isLive now = true := by
  simp only [isLive, Bool.and_eq_true, decide_eq_true_eq] at hlive ⊢
  obtain ⟨⟨hrevoked, hused⟩, hexpires⟩ := hlive
  have hexp := h.expiresAt
  refine ⟨⟨?_, ?_⟩, by omega⟩
  · by_contra hne
    exact h.revoked hne hrevoked
  · by_contra hne
    exact h.used hne hused

/-- A row later on: a token stays a token. -/
def Row.Evolves (old new : Row) : Prop :=
  ∀ token, old = .setupToken token ∨ new = .setupToken token →
    ∃ a b, old = .setupToken a ∧ new = .setupToken b ∧ a.Evolves b

namespace Row.Evolves

theorem refl (row : Row) : row.Evolves row := by
  intro token h
  have h' : row = .setupToken token := h.elim id id
  exact ⟨token, token, h', h', .refl token⟩

theorem trans {a b c : Row} (h : a.Evolves b) (h' : b.Evolves c) : a.Evolves c := by
  intro token hor
  have hmid : ∃ x y, b = .setupToken x ∧ c = .setupToken y ∧ x.Evolves y := by
    rcases hor with ha | hc
    · obtain ⟨x, y, -, hb, -⟩ := h token (.inl ha)
      exact h' y (.inl hb)
    · exact h' token (.inr hc)
  obtain ⟨x, y, hb, hc, hxy⟩ := hmid
  obtain ⟨w, x', ha, hb', hwx⟩ := h x (.inr hb)
  cases hb.symm.trans hb'
  exact ⟨w, y, ha, hc, hwx.trans hxy⟩

theorem token {old : Row} {token : SetupToken} (h : old.Evolves (.setupToken token)) :
    ∃ a, old = .setupToken a ∧ a.Evolves token := by
  obtain ⟨a, b, ha, hb, hab⟩ := h token (.inr rfl)
  cases hb
  exact ⟨a, ha, hab⟩

theorem of_token {new : Row} {token : SetupToken} (h : (Row.setupToken token).Evolves new) :
    ∃ b, new = .setupToken b ∧ token.Evolves b := by
  obtain ⟨a, b, ha, hb, hab⟩ := h token (.inl rfl)
  cases ha
  exact ⟨b, hb, hab⟩

theorem of_tokens {a b : SetupToken} (h : a.Evolves b) :
    (Row.setupToken a).Evolves (.setupToken b) :=
  fun _ _ => ⟨a, b, rfl, rfl, h⟩

theorem of_not_token {old new : Row} (hold : old.token? = none) (hnew : new.token? = none) :
    old.Evolves new := by
  intro token h
  rcases h with rfl | rfl
  · cases hold
  · cases hnew

end Row.Evolves

theorem onToken_evolves {cond : ℕ → SetupToken → Bool} {set : SetupToken → SetupToken}
    (h : ∀ k token, cond k token = true → token.Evolves (set token)) {k : ℕ} {row : Row}
    (hrow : (onToken cond set).cond k row = true) : row.Evolves ((onToken cond set).set row) := by
  cases row with
  | setupToken token => exact .of_tokens (h k token hrow)
  | tenantUser user => cases hrow
  | authAccount account => cases hrow

theorem Op.update?_evolves {op : Op} {u : Update} (h : op.update? = some u) {k : ℕ} {row : Row}
    (hrow : u.cond k row = true) : row.Evolves (u.set row) := by
  cases op with
  | revokeTokens tenantId now | revokeAll tenantId now =>
    cases h
    refine onToken_evolves (fun k token _ => ?_) hrow
    exact ⟨rfl, rfl, rfl, fun _ => Option.some_ne_none now, fun h => h, .inl⟩
  | revokeSiblings tenantId id now =>
    cases h
    refine onToken_evolves (fun k token _ => ?_) hrow
    exact ⟨rfl, rfl, rfl, fun _ => Option.some_ne_none now, fun h => h, .inl⟩
  | consume id now =>
    cases h
    refine onToken_evolves (fun k token hcond => ?_) hrow
    simp only [Bool.and_eq_true, decide_eq_true_eq] at hcond
    exact ⟨rfl, rfl, rfl, fun h => h, fun _ => Option.some_ne_none now, fun _ => .inr hcond.1.1.2⟩
  | setPassword authAccountId passwordHash =>
    cases h
    cases row with
    | authAccount account => exact .of_not_token rfl rfl
    | setupToken token | tenantUser user => cases hrow
  | activateUser id =>
    cases h
    cases row with
    | tenantUser user => exact .of_not_token rfl rfl
    | setupToken token | authAccount account => cases hrow
  | _ => cases h

/-- What the update of an operation of transaction `i` makes of row `k`. -/
def Op.updateCell (i : ℕ) (seen : List ℕ) (op : Op) (k : ℕ) (c : Cell Row) : Cell Row :=
  match op.update? with
  | none => c
  | some u => if k ∈ seen then c.write i (u.cond k) u.set else c

/-- The same with the commit, if the operation has one. -/
def Op.cell (i : ℕ) (seen : List ℕ) (op : Op) (k : ℕ) (c : Cell Row) : Cell Row :=
  if op.commits then (op.updateCell i seen k c).commit i else op.updateCell i seen k c

section
variable {i j k : ℕ} {seen : List ℕ} {op : Op} {cells : Cells Row} {c c' : Cell Row}

theorem Op.write_getElem? (hop : ∀ tenantId tokenHash expiresAt,
      op ≠ .createToken tenantId tokenHash expiresAt) :
    (op.write i seen cells)[k]? = cells[k]?.map (op.cell i seen k) := by
  cases op with
  | createToken tenantId tokenHash expiresAt => cases hop _ _ _ rfl
  | commit => exact Cells.getElem?_commit
  | revokeAll tenantId now =>
    have hwrite : ((Op.revokeAll tenantId now).write i seen cells)[k]? = _ := Cells.getElem?_commit
    rw [hwrite, Op.update?, Cells.getElem?_update, Option.map_map]
    rfl
  | findTenantUser | hash | findToken | findPendingAdmin =>
    cases hc : cells[k]? <;> exact hc
  | revokeTokens | consume | setPassword | activateUser | revokeSiblings =>
    exact Cells.getElem?_update

theorem Op.write_createToken {tenantId tokenHash : String} {expiresAt : ℕ} :
    (Op.createToken tenantId tokenHash expiresAt).write i seen cells =
      cells ++ [{ committed := none, pending := some (i, .setupToken
        { tenantId := tenantId, tokenHash := tokenHash, expiresAt := expiresAt }) }] :=
  rfl

/-- An update of a row: it stays, or the transaction holds a later version of it. -/
theorem Op.updateCell_cases (i : ℕ) (seen : List ℕ) (op : Op) (k : ℕ) (c : Cell Row) :
    op.updateCell i seen k c = c ∨ ∃ v w, k ∈ seen ∧ c.see i = some v ∧ v.Evolves w ∧
      op.updateCell i seen k c = { c with pending := some (i, w) } := by
  unfold updateCell
  cases hu : op.update? with
  | none => exact .inl rfl
  | some u =>
    by_cases hk : k ∈ seen
    · simp only [if_pos hk]
      rcases Cell.write_cases i (u.cond k) u.set c with ⟨hw, -⟩ | ⟨v, hsee, hp, hw⟩
      · exact .inl hw
      · exact .inr ⟨v, u.set v, hk, hsee, op.update?_evolves hu hp, hw⟩
    · exact .inl (if_neg hk)

/-- The version that a transaction holds is a later one of the committed row. -/
def Versions (c : Cell Row) : Prop :=
  ∀ old j new, c.committed = some old → c.pending = some (j, new) → old.Evolves new

theorem Versions.updateCell (h : Versions c) : Versions (op.updateCell i seen k c) := by
  rcases op.updateCell_cases i seen k c with he | ⟨v, w, -, hsee, hvw, he⟩
  · rw [he]
    exact h
  · rw [he]
    intro old j new hold hnew
    cases hnew
    rcases Cell.see_cases i c with ⟨v', hp, hsee'⟩ | ⟨-, hsee'⟩
    · cases hsee'.symm.trans hsee
      exact (h old i v hold hp).trans hvw
    · cases hold.symm.trans (hsee'.symm.trans hsee)
      exact hvw

theorem Versions.cell (h : Versions c) : Versions (op.cell i seen k c) := by
  unfold Op.cell
  split
  · rcases Cell.commit_cases i (op.updateCell i seen k c) with ⟨v, -, he⟩ | ⟨-, he⟩
    · rw [he]
      intro old j new _ hnew
      cases hnew
    · rw [he]
      exact h.updateCell
  · exact h.updateCell

theorem Versions.rollback (h : Versions c) : Versions (c.rollback i) := by
  rcases Cell.rollback_cases i c with ⟨v, -, he⟩ | ⟨-, he⟩
  · rw [he]
    intro old j new _ hnew
    cases hnew
  · rw [he]
    exact h

/-! ### What others do to a row -/

/-- A row before and after a statement of another transaction than `i`; `rows` are the
inserts that it commits. -/
structure Beside (i k : ℕ) (rows : List ℕ) (c c' : Cell Row) : Prop where
  pending : ∀ v, c'.pending = some (i, v) ↔ c.pending = some (i, v)
  committed : c'.committed = c.committed ∨
    (∃ old new, c.committed = some old ∧ c'.committed = some new ∧ old.Evolves new ∧
      ∀ v, c.pending ≠ some (i, v)) ∨
    c.committed = none ∧ k ∈ rows

theorem Beside.refl (i k : ℕ) (rows : List ℕ) (c : Cell Row) : Beside i k rows c c :=
  ⟨fun _ => Iff.rfl, .inl rfl⟩

theorem beside_updateCell (op : Op) (hij : i ≠ j) (rows : List ℕ)
    (hfree : k ∈ seen → c.lockedFor j = false) : Beside i k rows c (op.updateCell j seen k c) := by
  rcases op.updateCell_cases j seen k c with he | ⟨v, w, hk, -, -, he⟩
  · rw [he]
    exact .refl i k rows c
  · rw [he]
    refine ⟨fun v' => ⟨fun h => ?_, fun h => ?_⟩, .inl rfl⟩
    · cases h
      cases hij rfl
    · cases hij (Cell.not_held (hfree hk) h)

theorem beside_commit (hij : i ≠ j) (hv : Versions c) {rows : List ℕ}
    (hrows : ∀ v, c.committed = none → c.pending = some (j, v) → k ∈ rows) :
    Beside i k rows c (c.commit j) := by
  rcases Cell.commit_cases j c with ⟨v, hp, he⟩ | ⟨-, he⟩
  · have hne : ∀ w, c.pending ≠ some (i, w) := by
      intro w hw
      cases hp.symm.trans hw
      cases hij rfl
    rw [he]
    refine ⟨fun w => ⟨fun h => (by cases h), fun h => (hne w h).elim⟩, ?_⟩
    cases hc : c.committed with
    | none => exact .inr (.inr ⟨rfl, hrows v hc hp⟩)
    | some old => exact .inr (.inl ⟨old, v, rfl, rfl, hv old j v hc hp, hne⟩)
  · rw [he]
    exact .refl i k rows c

theorem beside_rollback (hij : i ≠ j) : Beside i k [] c (c.rollback j) := by
  rcases Cell.rollback_cases j c with ⟨v, hp, he⟩ | ⟨-, he⟩
  · rw [he]
    refine ⟨fun w => ⟨fun h => (by cases h), fun h => ?_⟩, .inl rfl⟩
    cases hp.symm.trans h
    cases hij rfl
  · rw [he]
    exact .refl i k [] c

/-- The table before and after it. -/
structure AllBeside (i : ℕ) (rows : List ℕ) (cells cells' : Cells Row) : Prop where
  forth : ∀ (k : ℕ) (c : Cell Row), cells[k]? = some c →
    ∃ c', cells'[k]? = some c' ∧ Beside i k rows c c'
  back : ∀ (k : ℕ) (c' : Cell Row), cells'[k]? = some c' →
    (∃ c, cells[k]? = some c ∧ Beside i k rows c c') ∨
      cells[k]? = none ∧ c'.committed = none ∧ ∀ v, c'.pending ≠ some (i, v)

theorem AllBeside.of_map {rows : List ℕ} {cells cells' : Cells Row} {f : ℕ → Cell Row → Cell Row}
    (h : ∀ k, cells'[k]? = cells[k]?.map (f k))
    (hf : ∀ (k : ℕ) (c : Cell Row), cells[k]? = some c → Beside i k rows c (f k c)) :
    AllBeside i rows cells cells' where
  forth k c hc := ⟨f k c, by rw [h, hc]; rfl, hf k c hc⟩
  back k c' hc' := by
    rw [h] at hc'
    obtain ⟨c, hc, rfl⟩ := Option.map_eq_some_iff.mp hc'
    exact .inl ⟨c, hc, hf k c hc⟩

theorem AllBeside.refl (i : ℕ) (rows : List ℕ) (cells : Cells Row) : AllBeside i rows cells cells where
  forth k c hc := ⟨c, hc, .refl i k rows c⟩
  back k c hc := .inl ⟨c, hc, .refl i k rows c⟩

theorem beside_cell (hij : i ≠ j) (hv : Versions c) (hc : cells[k]? = some c)
    (hfree : k ∈ seen → c.lockedFor j = false) :
    Beside i k (if op.commits then cells.inserted j else []) c (op.cell j seen k c) := by
  unfold Op.cell
  split
  · have hupdate := beside_updateCell (i := i) op hij (cells.inserted j) hfree
    have hcommit : Beside i k (cells.inserted j) (op.updateCell j seen k c)
        ((op.updateCell j seen k c).commit j) := by
      apply beside_commit hij hv.updateCell
      intro v hnone hp
      rw [Cells.mem_inserted]
      rcases op.updateCell_cases j seen k c with he | ⟨w, x, -, hsee, -, he⟩
      · rw [he] at hnone hp
        exact ⟨c, v, hc, hnone, hp⟩
      · rw [he] at hnone
        rcases Cell.see_cases j c with ⟨y, hp', -⟩ | ⟨-, hsee'⟩
        · exact ⟨c, y, hc, hnone, hp'⟩
        · cases hnone.symm.trans (hsee'.symm.trans hsee)
    have hsame : (op.updateCell j seen k c).committed = c.committed := by
      rcases op.updateCell_cases j seen k c with he | ⟨w, x, -, -, -, he⟩ <;> rw [he]
    refine ⟨fun v => (hcommit.pending v).trans (hupdate.pending v), ?_⟩
    rcases hcommit.committed with heq | ⟨old, new, hold, hnew, hevolves, hne⟩ | ⟨hnone, hrow⟩
    · exact .inl (heq.trans hsame)
    · refine .inr (.inl ⟨old, new, hsame.symm.trans hold, hnew, hevolves, fun v hp => ?_⟩)
      exact hne v ((hupdate.pending v).mpr hp)
    · exact .inr (.inr ⟨hsame.symm.trans hnone, hrow⟩)
  · exact beside_updateCell op hij [] hfree

theorem beside_perform {outside : Outside} (hij : i ≠ j)
    (hv : ∀ (k : ℕ) (c : Cell Row), cells[k]? = some c → Versions c)
    (hfree : cells.blocked j seen = false) :
    AllBeside i (op.committedRows j (op.perform j seen outside cells).1 cells) cells
      (op.perform j seen outside cells).2 := by
  have hperform : (op.perform j seen outside cells).2 = cells ∨
      (op.perform j seen outside cells).1.isOk = true ∧
        (op.perform j seen outside cells).2 = op.write j seen cells := by
    unfold Op.perform
    split
    · exact .inl rfl
    · split
      · exact .inl rfl
      · exact .inr ⟨rfl, rfl⟩
  rcases hperform with he | ⟨hok, he⟩
  · rw [he]
    exact .refl i _ cells
  · rw [he, Op.committedRows, hok, Bool.and_true]
    by_cases hop : ∃ tenantId tokenHash expiresAt, op = .createToken tenantId tokenHash expiresAt
    · obtain ⟨tenantId, tokenHash, expiresAt, rfl⟩ := hop
      rw [Op.write_createToken]
      constructor
      · intro k c hc
        obtain ⟨hlt, -⟩ := List.getElem?_eq_some_iff.mp hc
        exact ⟨c, by rwa [List.getElem?_append_left hlt], .refl i k _ c⟩
      · intro k c' hc'
        rw [List.getElem?_append] at hc'
        split at hc'
        · exact .inl ⟨c', hc', .refl i k _ c'⟩
        · rename_i hge
          have hnone : cells[k]? = none := List.getElem?_eq_none (by omega)
          have hmem := List.mem_of_getElem? hc'
          cases List.mem_singleton.mp hmem
          refine .inr ⟨hnone, rfl, fun v h => ?_⟩
          cases h
          cases hij rfl
    · have hop' : ∀ tenantId tokenHash expiresAt,
          op ≠ .createToken tenantId tokenHash expiresAt := by simpa using hop
      refine .of_map (fun k => Op.write_getElem? hop') fun k c hc => ?_
      exact beside_cell hij (hv k c hc) hc fun hk => Cells.not_blocked hfree hk hc

theorem beside_rollbackAll (hij : i ≠ j) : AllBeside i [] cells (cells.rollback j) :=
  .of_map (f := fun _ c => c.rollback j) (fun _ => Cells.getElem?_rollback)
    fun _ _ _ => beside_rollback hij

end

/-! ### What a request knows of the rows -/

/-- The committed row `k` is this token. -/
def TokenAt (cells : Cells Row) (k : ℕ) (token : SetupToken) : Prop :=
  ∃ c, cells[k]? = some c ∧ c.committed = some (.setupToken token)

/-- Transaction `i` holds no row. -/
def NoPending (i : ℕ) (cells : Cells Row) : Prop :=
  ∀ (k : ℕ) (c : Cell Row) (v : Row), cells[k]? = some c → c.pending ≠ some (i, v)

/-- Transaction `i` has inserted no row. -/
def NoInsert (i : ℕ) (cells : Cells Row) : Prop :=
  ∀ (k : ℕ) (c : Cell Row) (v : Row), cells[k]? = some c → c.pending = some (i, v) →
    c.committed ≠ none

/-- Every unrevoked token of the tenant is one of `rows`, or transaction `i` holds it
revoked. -/
def RevokedBy (i : ℕ) (rows : List ℕ) (tenantId : String) (cells : Cells Row) : Prop :=
  ∀ (k : ℕ) (c : Cell Row) (token : SetupToken), cells[k]? = some c →
    c.committed = some (.setupToken token) → token.tenantId = tenantId →
    token.revokedAt = none → k ∈ rows ∨
      ∃ token', c.pending = some (i, .setupToken token') ∧ token'.revokedAt ≠ none

/-- The one row that transaction `i` has inserted is a token of the tenant. -/
def InsertsOne (i : ℕ) (tenantId : String) (cells : Cells Row) : Prop :=
  ∃ k₀, ∀ (k : ℕ) (c : Cell Row) (v : Row), cells[k]? = some c → c.pending = some (i, v) →
    c.committed = none → k = k₀ ∧ ∀ token, v = .setupToken token → token.tenantId = tenantId

/-- Transaction `i` holds the token used, which is unused for the others. -/
def UsedBy (i id : ℕ) (tokenHash : String) (cells : Cells Row) : Prop :=
  ∃ c token token', cells[id]? = some c ∧ c.committed = some (.setupToken token) ∧
    token.tokenHash = tokenHash ∧ token.usedAt = none ∧
    c.pending = some (i, .setupToken token') ∧ token'.usedAt ≠ none

/-- What holds of the rows for request `r` with transaction `i` at a stage. -/
def Stage.Fact (cfg : Config) (r : Request) (i : ℕ) (overtaken : List ℕ) (cells : Cells Row) :
    Stage → Prop
  | before => NoPending i cells
  | revoked => NoInsert i cells ∧
    ∀ tenantId, r = .generate tenantId → RevokedBy i overtaken tenantId cells
  | created => ∃ tenantId, r = .generate tenantId ∧ RevokedBy i overtaken tenantId cells ∧
    InsertsOne i tenantId cells
  | found id => NoPending i cells ∧ ∃ dto token, r = .redeem dto ∧ TokenAt cells id token ∧
    token.tokenHash = cfg.sha256 dto.token
  | consumed id => NoInsert i cells ∧ ∃ dto, r = .redeem dto ∧
    UsedBy i id (cfg.sha256 dto.token) cells
  | done =>
    (∀ dto, r = .redeem dto → ∃ id token, TokenAt cells id token ∧
      token.tokenHash = cfg.sha256 dto.token ∧ token.usedAt ≠ none) ∧
    ∀ tenantId, r = .generate tenantId ∨ r = .revokeAll tenantId →
      ∀ k token, TokenAt cells k token → token.tenantId = tenantId → token.revokedAt = none →
        k ∈ overtaken
  | lost => True

section
variable {cfg : Config} {r : Request} {i k : ℕ} {rows overtaken : List ℕ} {cells cells' : Cells Row}
  {c c' : Cell Row} {token : SetupToken}

theorem Beside.token_forth (h : Beside i k rows c c') (hc : c.committed = some (.setupToken token)) :
    ∃ token', c'.committed = some (.setupToken token') ∧ token.Evolves token' ∧
      ∀ v, c.pending = some (i, v) → token' = token := by
  rcases h.committed with heq | ⟨old, new, hold, hnew, hevolves, hne⟩ | ⟨hnone, -⟩
  · exact ⟨token, heq.trans hc, .refl token, fun _ _ => rfl⟩
  · cases hc.symm.trans hold
    obtain ⟨token', rfl, ht⟩ := hevolves.of_token
    exact ⟨token', hnew, ht, fun v hp => (hne v hp).elim⟩
  · cases hc.symm.trans hnone

theorem Beside.token_back (h : Beside i k rows c c')
    (hc : c'.committed = some (.setupToken token)) :
    k ∈ rows ∧ c.committed = none ∨
      ∃ old, c.committed = some (.setupToken old) ∧ old.Evolves token := by
  rcases h.committed with heq | ⟨old, new, hold, hnew, hevolves, -⟩ | ⟨hnone, hrow⟩
  · exact .inr ⟨token, heq.symm.trans hc, .refl token⟩
  · cases hc.symm.trans hnew
    obtain ⟨old', rfl, ht⟩ := hevolves.token
    exact .inr ⟨old', hold, ht⟩
  · exact .inl ⟨hrow, hnone⟩

theorem AllBeside.token_forth (h : AllBeside i rows cells cells') (ht : TokenAt cells k token) :
    ∃ token', TokenAt cells' k token' ∧ token.Evolves token' := by
  obtain ⟨c, hc, hcommitted⟩ := ht
  obtain ⟨c', hc', hbeside⟩ := h.forth k c hc
  obtain ⟨token', htoken, hevolves, -⟩ := hbeside.token_forth hcommitted
  exact ⟨token', ⟨c', hc', htoken⟩, hevolves⟩

theorem AllBeside.token_back (h : AllBeside i rows cells cells') (ht : TokenAt cells' k token) :
    k ∈ rows ∨ ∃ old, TokenAt cells k old ∧ old.Evolves token := by
  obtain ⟨c', hc', hcommitted⟩ := ht
  rcases h.back k c' hc' with ⟨c, hc, hbeside⟩ | ⟨-, hnone, -⟩
  · rcases hbeside.token_back hcommitted with ⟨hrow, -⟩ | ⟨old, hold, hevolves⟩
    · exact .inl hrow
    · exact .inr ⟨old, ⟨c, hc, hold⟩, hevolves⟩
  · cases hcommitted.symm.trans hnone

theorem NoPending.beside (h : NoPending i cells) (hb : AllBeside i rows cells cells') :
    NoPending i cells' := by
  intro k c' v hc'
  rcases hb.back k c' hc' with ⟨c, hc, hbeside⟩ | ⟨-, -, hne⟩
  · intro hp
    exact h k c v hc ((hbeside.pending v).mp hp)
  · exact hne v

theorem NoInsert.beside (h : NoInsert i cells) (hb : AllBeside i rows cells cells') :
    NoInsert i cells' := by
  intro k c' v hc' hp hnone
  rcases hb.back k c' hc' with ⟨c, hc, hbeside⟩ | ⟨-, -, hne⟩
  · have hp' := (hbeside.pending v).mp hp
    rcases hbeside.committed with heq | ⟨-, -, -, -, -, hne⟩ | ⟨hnone', -⟩
    · exact h k c v hc hp' (heq.symm.trans hnone)
    · exact hne v hp'
    · exact h k c v hc hp' hnone'
  · exact hne v hp

theorem RevokedBy.beside {tenantId : String} (h : RevokedBy i overtaken tenantId cells)
    (hb : AllBeside i rows cells cells') : RevokedBy i (overtaken ++ rows) tenantId cells' := by
  intro k c' token hc' hcommitted htenant hunrevoked
  rcases hb.back k c' hc' with ⟨c, hc, hbeside⟩ | ⟨-, hnone, -⟩
  · rcases hbeside.token_back hcommitted with ⟨hrow, -⟩ | ⟨old, hold, hevolves⟩
    · exact .inl (List.mem_append_right _ hrow)
    · have hold' : old.revokedAt = none := by
        by_contra hne
        exact hevolves.revoked hne hunrevoked
      rcases h k c old hc hold (hevolves.tenantId.symm.trans htenant) hold' with hmem | ⟨t, hp, ht⟩
      · exact .inl (List.mem_append_left _ hmem)
      · exact .inr ⟨t, (hbeside.pending _).mpr hp, ht⟩
  · cases hcommitted.symm.trans hnone

theorem InsertsOne.beside {tenantId : String} (h : InsertsOne i tenantId cells)
    (hb : AllBeside i rows cells cells') : InsertsOne i tenantId cells' := by
  obtain ⟨k₀, hone⟩ := h
  refine ⟨k₀, fun k c' v hc' hp hnone => ?_⟩
  rcases hb.back k c' hc' with ⟨c, hc, hbeside⟩ | ⟨-, -, hne⟩
  · have hp' := (hbeside.pending v).mp hp
    rcases hbeside.committed with heq | ⟨old, new, hold, hnew, -, -⟩ | ⟨hnone', -⟩
    · exact hone k c v hc hp' (heq.symm.trans hnone)
    · cases hnone.symm.trans hnew
    · exact hone k c v hc hp' hnone'
  · exact (hne v hp).elim

theorem UsedBy.beside {id : ℕ} {tokenHash : String} (h : UsedBy i id tokenHash cells)
    (hb : AllBeside i rows cells cells') : UsedBy i id tokenHash cells' := by
  obtain ⟨c, token, token', hc, hcommitted, hhash, hunused, hp, hused⟩ := h
  obtain ⟨c', hc', hbeside⟩ := hb.forth id c hc
  obtain ⟨t, ht, -, heq⟩ := hbeside.token_forth hcommitted
  cases heq _ hp
  exact ⟨c', token, token', hc', ht, hhash, hunused, (hbeside.pending _).mpr hp, hused⟩

/-- What a request knows remains true while others act; what they commit is noted. -/
theorem Stage.Fact.beside {q : Stage} (h : q.Fact cfg r i overtaken cells)
    (hb : AllBeside i rows cells cells') : q.Fact cfg r i (overtaken ++ rows) cells' := by
  cases q with
  | before => exact NoPending.beside h hb
  | revoked => exact ⟨h.1.beside hb, fun tenantId hr => (h.2 tenantId hr).beside hb⟩
  | created =>
    obtain ⟨tenantId, hr, hrevoked, hone⟩ := h
    exact ⟨tenantId, hr, hrevoked.beside hb, hone.beside hb⟩
  | found id =>
    obtain ⟨hnone, dto, token, hr, ht, hhash⟩ := h
    obtain ⟨token', ht', hevolves⟩ := hb.token_forth ht
    exact ⟨hnone.beside hb, dto, token', hr, ht', hevolves.tokenHash.trans hhash⟩
  | consumed id =>
    obtain ⟨hinsert, dto, hr, hused⟩ := h
    exact ⟨hinsert.beside hb, dto, hr, hused.beside hb⟩
  | done =>
    obtain ⟨hredeem, hrevoked⟩ := h
    constructor
    · intro dto hr
      obtain ⟨id, token, ht, hhash, hused⟩ := hredeem dto hr
      obtain ⟨token', ht', hevolves⟩ := hb.token_forth ht
      exact ⟨id, token', ht', hevolves.tokenHash.trans hhash, hevolves.used hused⟩
    · intro tenantId hr k token ht htenant hunrevoked
      rcases hb.token_back ht with hrow | ⟨old, hold, hevolves⟩
      · exact List.mem_append_right _ hrow
      · apply List.mem_append_left
        apply hrevoked tenantId hr k old hold (hevolves.tenantId.symm.trans htenant)
        by_contra hne
        exact hevolves.revoked hne hunrevoked
  | lost => trivial

end

/-! ### What a request's own statements do -/

section
variable {cfg : Config} {r : Request} {i k : ℕ} {seen overtaken : List ℕ} {cells : Cells Row}
  {c : Cell Row} {op : Op}

/-- Without versions of its own a transaction reads what is committed. -/
theorem see_of_noPending (h : NoPending i cells) (hc : cells[k]? = some c) :
    c.see i = c.committed := by
  rcases Cell.see_cases i c with ⟨v, hp, -⟩ | ⟨-, hsee⟩
  · exact (h k c v hc hp).elim
  · exact hsee

theorem NoPending.noInsert (h : NoPending i cells) : NoInsert i cells :=
  fun k c v hc hp => (h k c v hc hp).elim

theorem NoInsert.update (h : NoInsert i cells) (hop : ∀ tenantId tokenHash expiresAt,
      op ≠ .createToken tenantId tokenHash expiresAt) (hcommits : op.commits = false) :
    NoInsert i (op.write i seen cells) := by
  intro k c' v hc' hp hnone
  rw [Op.write_getElem? hop] at hc'
  obtain ⟨c, hc, rfl⟩ := Option.map_eq_some_iff.mp hc'
  rw [Op.cell, hcommits] at hp hnone
  rcases op.updateCell_cases i seen k c with he | ⟨w, x, -, hsee, -, he⟩
  · rw [if_neg (by simp), he] at hp hnone
    exact h k c v hc hp hnone
  · rw [if_neg (by simp), he] at hnone
    rcases Cell.see_cases i c with ⟨y, hp', -⟩ | ⟨-, hsee'⟩
    · exact h k c y hc hp' hnone
    · cases hnone.symm.trans (hsee'.symm.trans hsee)

theorem revokes_cell {tenantId : String} {now : ℕ} {token : SetupToken}
    (hop : op = .revokeTokens tenantId now ∨ op = .revokeAll tenantId now) (hk : k ∈ seen)
    (hsee : c.see i = some (.setupToken token)) (htenant : token.tenantId = tenantId)
    (hunrevoked : token.revokedAt = none) :
    op.updateCell i seen k c =
      { c with pending := some (i, .setupToken { token with revokedAt := some now }) } := by
  have hupdate : op.updateCell i seen k c =
      c.write i ((revoking tenantId now).cond k) (revoking tenantId now).set := by
    rcases hop with rfl | rfl <;> exact if_pos hk
  rw [hupdate]
  simp [Cell.write, hsee, revoking, onToken, htenant, hunrevoked]

/-- The tokens that the revocation of a tenant has to reach. -/
def Reaches (tenantId : String) (overtaken seen : List ℕ) (cells : Cells Row) : Prop :=
  ∀ (k : ℕ) (token : SetupToken), TokenAt cells k token → token.tenantId = tenantId →
    token.revokedAt = none → k ∈ overtaken ∨ k ∈ seen

theorem Reaches.beside {cells' : Cells Row} {rows : List ℕ} {tenantId : String}
    (h : Reaches tenantId overtaken seen cells) (hb : AllBeside i rows cells cells') :
    Reaches tenantId (overtaken ++ rows) seen cells' := by
  intro k token ht htenant hunrevoked
  rcases hb.token_back ht with hrow | ⟨old, hold, hevolves⟩
  · exact .inl (List.mem_append_right _ hrow)
  · have hunrevoked' : old.revokedAt = none := by
      by_contra hne
      exact hevolves.revoked hne hunrevoked
    rcases h k old hold (hevolves.tenantId.symm.trans htenant) hunrevoked' with hmem | hmem
    · exact .inl (List.mem_append_left _ hmem)
    · exact .inr hmem

theorem snapshot_reaches {tenantId : String} {now : ℕ} (h : NoPending i cells)
    (hop : op = .revokeTokens tenantId now ∨ op = .revokeAll tenantId now) :
    Reaches tenantId overtaken (op.snapshot i cells) cells := by
  rintro k token ⟨c, hc, hcommitted⟩ htenant hunrevoked
  have hsnapshot : op.snapshot i cells = cells.snapshot i (revoking tenantId now).cond := by
    rcases hop with rfl | rfl <;> rfl
  rw [hsnapshot, Cells.mem_snapshot]
  refine .inr ⟨c, .setupToken token, hc, (see_of_noPending h hc).trans hcommitted, ?_⟩
  simp [revoking, onToken, htenant, hunrevoked]

theorem revokeTokens_fact {tenantId : String} {now : ℕ} (h : NoPending i cells)
    (hreaches : Reaches tenantId overtaken seen cells) :
    RevokedBy i overtaken tenantId ((Op.revokeTokens tenantId now).write i seen cells) := by
  intro k c' token hc' hcommitted htenant hunrevoked
  rw [Op.write_getElem? (by simp)] at hc'
  obtain ⟨c, hc, rfl⟩ := Option.map_eq_some_iff.mp hc'
  have hsame : ((Op.revokeTokens tenantId now).cell i seen k c).committed = c.committed := by
    rcases (Op.revokeTokens tenantId now).updateCell_cases i seen k c with he | ⟨w, x, -, -, -, he⟩
    · rw [Op.cell, if_neg (by simp [Op.commits]), he]
    · rw [Op.cell, if_neg (by simp [Op.commits]), he]
  rw [hsame] at hcommitted
  have hsee := (see_of_noPending h hc).trans hcommitted
  rcases hreaches k token ⟨c, hc, hcommitted⟩ htenant hunrevoked with hmem | hmem
  · exact .inl hmem
  · refine .inr ⟨{ token with revokedAt := some now }, ?_, Option.some_ne_none now⟩
    rw [Op.cell, if_neg (by simp [Op.commits]), revokes_cell (.inl rfl) hmem hsee htenant hunrevoked]

theorem revokeAll_fact {tenantId : String} {now : ℕ} (h : NoPending i cells)
    (hreaches : Reaches tenantId overtaken seen cells) {k : ℕ} {token : SetupToken}
    (ht : TokenAt ((Op.revokeAll tenantId now).write i seen cells) k token)
    (htenant : token.tenantId = tenantId) (hunrevoked : token.revokedAt = none) :
    k ∈ overtaken := by
  obtain ⟨c', hc', hcommitted⟩ := ht
  rw [Op.write_getElem? (by simp)] at hc'
  obtain ⟨c, hc, rfl⟩ := Option.map_eq_some_iff.mp hc'
  have hcell : (Op.revokeAll tenantId now).cell i seen k c =
      ((Op.revokeAll tenantId now).updateCell i seen k c).commit i := rfl
  rw [hcell] at hcommitted
  obtain ⟨old, hold, hevolves⟩ : ∃ old, c.committed = some (.setupToken old) ∧ old.Evolves token := by
    rcases (Op.revokeAll tenantId now).updateCell_cases i seen k c with he | ⟨v, w, -, hsee, hvw, he⟩
    · rw [he] at hcommitted
      rcases Cell.commit_cases i c with ⟨v, hp, -⟩ | ⟨-, he'⟩
      · exact (h k c v hc hp).elim
      · rw [he'] at hcommitted
        exact ⟨token, hcommitted, .refl token⟩
    · have hw : w = .setupToken token := by
        rw [he] at hcommitted
        simpa [Cell.commit] using hcommitted
      subst hw
      obtain ⟨old, rfl, hevolves⟩ := hvw.token
      exact ⟨old, (see_of_noPending h hc).symm.trans hsee, hevolves⟩
  have hunrevoked' : old.revokedAt = none := by
    by_contra hne
    exact hevolves.revoked hne hunrevoked
  have htenant' := hevolves.tenantId.symm.trans htenant
  rcases hreaches k old ⟨c, hc, hold⟩ htenant' hunrevoked' with hmem | hmem
  · exact hmem
  · have hsee := (see_of_noPending h hc).trans hold
    rw [revokes_cell (.inr rfl) hmem hsee htenant' hunrevoked'] at hcommitted
    simp only [Cell.commit, if_true, Option.some.injEq, Row.setupToken.injEq] at hcommitted
    rw [← hcommitted] at hunrevoked
    cases hunrevoked

theorem createToken_fact (seen : List ℕ) {tenantId : String} (tokenHash : String) (expiresAt : ℕ)
    (h : NoInsert i cells) (hrevoked : RevokedBy i overtaken tenantId cells) :
    RevokedBy i overtaken tenantId
        ((Op.createToken tenantId tokenHash expiresAt).write i seen cells) ∧
      InsertsOne i tenantId ((Op.createToken tenantId tokenHash expiresAt).write i seen cells) := by
  rw [Op.write_createToken]
  constructor
  · intro k c token hc hcommitted
    rw [List.getElem?_append] at hc
    split at hc
    · exact hrevoked k c token hc hcommitted
    · cases List.mem_singleton.mp (List.mem_of_getElem? hc)
      cases hcommitted
  · refine ⟨cells.length, fun k c v hc hp hnone => ?_⟩
    rw [List.getElem?_append] at hc
    split at hc
    · exact (h k c v hc hp hnone).elim
    · obtain ⟨hlt, -⟩ := List.getElem?_eq_some_iff.mp hc
      cases List.mem_singleton.mp (List.mem_of_getElem? hc)
      cases hp
      rw [List.length_singleton] at hlt
      refine ⟨by omega, fun token htoken => ?_⟩
      cases htoken
      rfl

theorem findToken_fact {outside : Outside} {tokenHash : String} {id : ℕ} {token : SetupToken}
    (h : NoPending i cells)
    (hanswer : (Op.findToken tokenHash).answer i seen outside cells = .ok (some (id, token))) :
    TokenAt cells id token ∧ token.tokenHash = tokenHash := by
  obtain ⟨row, hrow, hbind⟩ := Option.bind_eq_some_iff.mp (Except.ok.inj hanswer)
  obtain ⟨k, v⟩ := row
  obtain ⟨token', htoken, heq⟩ := Option.map_eq_some_iff.mp hbind
  cases heq
  obtain ⟨c, hc, hsee, hmatch⟩ := Cells.mem_select.mp (List.mem_of_head? hrow)
  rw [htoken] at hmatch
  cases v with
  | setupToken token'' =>
    cases htoken
    exact ⟨⟨c, hc, (see_of_noPending h hc).symm.trans hsee⟩, by simpa using hmatch⟩
  | tenantUser user => cases htoken
  | authAccount account => cases htoken

theorem consume_fact {outside : Outside} {id now : ℕ} {tokenHash : String} {token : SetupToken}
    (h : NoPending i cells) (ht : TokenAt cells id token) (hhash : token.tokenHash = tokenHash)
    (hanswer : (Op.consume id now).answer i seen outside cells = .ok 1) :
    UsedBy i id tokenHash ((Op.consume id now).write i seen cells) := by
  have hcount : (Op.consume id now).count i seen cells = 1 := Except.ok.inj hanswer
  have hne : (cells.select i (consuming id now).cond).filter (fun row => row.1 ∈ seen) ≠ [] := by
    intro hnil
    simp only [Op.count, Op.update?, Cells.count, hnil] at hcount
    cases hcount
  obtain ⟨⟨k, v⟩, hmem⟩ := List.exists_mem_of_ne_nil _ hne
  obtain ⟨hselect, hseen⟩ := List.mem_filter.mp hmem
  obtain ⟨c, hc, hsee, hcond⟩ := Cells.mem_select.mp hselect
  have hk : k ∈ seen := by simpa using hseen
  cases v with
  | setupToken token' =>
    have hcond' : k = id ∧ token'.revokedAt = none ∧ token'.usedAt = none ∧ now < token'.expiresAt := by
      simpa [consuming, onToken, and_assoc] using hcond
    obtain ⟨rfl, -, hunused, -⟩ := hcond'
    have hcommitted := (see_of_noPending h hc).symm.trans hsee
    obtain ⟨c', hc', ht⟩ := ht
    cases hc.symm.trans hc'
    cases hcommitted.symm.trans ht
    refine ⟨{ c with pending := some (i, .setupToken { token with usedAt := some now }) }, token,
      { token with usedAt := some now }, ?_, hcommitted, hhash, hunused, rfl,
      Option.some_ne_none now⟩
    rw [Op.write_getElem? (by simp), hc]
    have hwrite : (Op.consume k now).cell i seen k c =
        c.write i ((consuming k now).cond k) (consuming k now).set := if_pos hk
    rw [Option.map_some, hwrite, Cell.write, hsee]
    simp only [hcond, if_true]
    rfl
  | tenantUser user => cases hcond
  | authAccount account => cases hcond

/-- The later statements of a redemption leave its token as it holds it. -/
theorem UsedBy.update {id : ℕ} {tokenHash : String} (h : UsedBy i id tokenHash cells)
    (hop : ∀ tenantId tokenHash expiresAt, op ≠ .createToken tenantId tokenHash expiresAt)
    (hcommits : op.commits = false)
    (hnot : ∀ u, op.update? = some u → ∀ token, u.cond id (.setupToken token) = false) :
    UsedBy i id tokenHash (op.write i seen cells) := by
  obtain ⟨c, token, token', hc, hcommitted, hhash, hunused, hp, hused⟩ := h
  refine ⟨c, token, token', ?_, hcommitted, hhash, hunused, hp, hused⟩
  have hsee : c.see i = some (.setupToken token') := by
    rcases Cell.see_cases i c with ⟨v, hp', hsee⟩ | ⟨hne, -⟩
    · cases hp.symm.trans hp'
      exact hsee
    · exact (hne _ hp).elim
  rw [Op.write_getElem? hop, hc, Option.map_some, Op.cell, hcommits]
  have hstays : op.updateCell i seen id c = c := by
    unfold Op.updateCell
    cases hu : op.update? with
    | none => rfl
    | some u =>
      dsimp only
      split
      · simp [Cell.write, hsee, hnot u hu token']
      · rfl
  rw [if_neg (by simp), hstays]

theorem UsedBy.commit (seen : List ℕ) {id : ℕ} {tokenHash : String} (h : UsedBy i id tokenHash cells)
    (hv : ∀ (k : ℕ) (c : Cell Row), cells[k]? = some c → Versions c) :
    ∃ token, TokenAt (Op.commit.write i seen cells) id token ∧ token.tokenHash = tokenHash ∧
      token.usedAt ≠ none := by
  obtain ⟨c, token, token', hc, hcommitted, hhash, -, hp, hused⟩ := h
  obtain ⟨a, ha, hevolves⟩ := (hv id c hc _ _ _ hcommitted hp).token
  cases ha
  refine ⟨token', ⟨c.commit i, ?_, ?_⟩, hevolves.tokenHash.trans hhash, hused⟩
  · rw [Op.write_getElem? (by simp), hc]
    rfl
  · rcases Cell.commit_cases i c with ⟨v, hp', he⟩ | ⟨hne, -⟩
    · cases hp.symm.trans hp'
      rw [he]
    · exact (hne _ hp).elim

/-- After the commit of a generate, the unrevoked tokens of its tenant are noted. -/
theorem generate_commit_fact (seen : List ℕ) {tenantId : String} (hrevoked : RevokedBy i overtaken tenantId cells)
    (hv : ∀ (k : ℕ) (c : Cell Row), cells[k]? = some c → Versions c) {k : ℕ} {token : SetupToken}
    (ht : TokenAt (Op.commit.write i seen cells) k token) (htenant : token.tenantId = tenantId)
    (hunrevoked : token.revokedAt = none) :
    k ∈ cells.inserted i ∨ k ∈ overtaken ∧ ∃ old, TokenAt cells k old ∧ old.Evolves token := by
  obtain ⟨c', hc', hcommitted⟩ := ht
  rw [Op.write_getElem? (by simp)] at hc'
  obtain ⟨c, hc, rfl⟩ := Option.map_eq_some_iff.mp hc'
  have hcell : Op.commit.cell i seen k c = c.commit i := rfl
  rw [hcell] at hcommitted
  rcases Cell.commit_cases i c with ⟨v, hp, he⟩ | ⟨hne, he⟩
  · rw [he] at hcommitted
    cases hcommitted
    cases hold : c.committed with
    | none => exact .inl (Cells.mem_inserted.mpr ⟨c, _, hc, hold, hp⟩)
    | some row =>
      obtain ⟨old, rfl, hevolves⟩ := (hv k c hc _ _ _ hold hp).token
      have hunrevoked' : old.revokedAt = none := by
        by_contra hne
        exact hevolves.revoked hne hunrevoked
      rcases hrevoked k c old hc hold (hevolves.tenantId.symm.trans htenant) hunrevoked' with
        hmem | ⟨t, hp', ht⟩
      · exact .inr ⟨hmem, old, ⟨c, hc, hold⟩, hevolves⟩
      · cases hp.symm.trans hp'
        exact (ht hunrevoked).elim
  · rw [he] at hcommitted
    rcases hrevoked k c token hc hcommitted htenant hunrevoked with hmem | ⟨t, hp, -⟩
    · exact .inr ⟨hmem, token, ⟨c, hc, hcommitted⟩, .refl token⟩
    · exact (hne _ hp).elim

theorem linking_next_error (q : Stage) (op : Op) (e : ServiceError) :
    (linking cfg r).next q op (.error e) = .lost := by
  cases q <;> cases op <;> rfl

theorem perform_cases (i : ℕ) (seen : List ℕ) (outside : Outside) (op : Op) (cells : Cells Row) :
    (∃ e, op.perform i seen outside cells = (.error e, cells)) ∨
      ∃ a, op.answer i seen outside cells = .ok a ∧
        op.perform i seen outside cells = (.ok a, op.write i seen cells) := by
  unfold Op.perform
  split
  · exact .inl ⟨_, rfl⟩
  · split
    · exact .inl ⟨_, rfl⟩
    · exact .inr ⟨_, ‹_›, rfl⟩

theorem Stage.Fact.own {q : Stage} {outside : Outside} (h : q.Fact cfg r i overtaken cells)
    (hallows : (linking cfg r).allows q op)
    (hreaches : ∀ tenantId now, op = .revokeTokens tenantId now ∨ op = .revokeAll tenantId now →
      Reaches tenantId overtaken seen cells)
    (hv : ∀ (k : ℕ) (c : Cell Row), cells[k]? = some c → Versions c) :
    ((linking cfg r).next q op (op.perform i seen outside cells).1).Fact cfg r i
      (overtaken ++ op.committedRows i (op.perform i seen outside cells).1 cells)
      (op.perform i seen outside cells).2 := by
  rcases perform_cases i seen outside op cells with ⟨e, he⟩ | ⟨a, hanswer, he⟩
  · rw [he, linking_next_error]
    trivial
  rw [he]
  cases q with
  | before =>
    cases op with
    | findTenantUser tenantId | hash password => exact h
    | findToken tokenHash =>
      cases a with
      | none => exact h
      | some row =>
        obtain ⟨id, token⟩ := row
        obtain ⟨dto, rfl, rfl⟩ := hallows
        obtain ⟨ht, hhash⟩ := findToken_fact h hanswer
        exact ⟨h, dto, token, rfl, ht, hhash⟩
    | revokeTokens tenantId now =>
      have hinsert : NoInsert i ((Op.revokeTokens tenantId now).write i seen cells) :=
        NoInsert.update (NoPending.noInsert h) (by simp) rfl
      refine ⟨hinsert, fun tenantId' hr => ?_⟩
      cases hr.symm.trans hallows
      have hrows : (Op.revokeTokens tenantId now).committedRows i (.ok a) cells = [] := rfl
      rw [hrows, List.append_nil]
      exact revokeTokens_fact h (hreaches tenantId now (.inl rfl))
    | revokeAll tenantId now =>
      refine ⟨fun dto hr => (by cases hr.symm.trans hallows), fun tenantId' hr k token ht htenant hun => ?_⟩
      have htenant' : tenantId' = tenantId := by
        rcases hr with hr | hr
        · cases hr.symm.trans hallows
        · cases hr.symm.trans hallows
          rfl
      exact List.mem_append_left _ (revokeAll_fact h (hreaches tenantId now (.inr rfl)) ht
        (htenant.trans htenant') hun)
    | _ => exact hallows.elim
  | revoked =>
    cases op with
    | createToken tenantId tokenHash expiresAt =>
      obtain ⟨hrevoked, hone⟩ := createToken_fact seen tokenHash expiresAt h.1
        (h.2 tenantId hallows)
      have hrows : (Op.createToken tenantId tokenHash expiresAt).committedRows i (.ok a) cells = [] :=
        rfl
      rw [hrows, List.append_nil]
      exact ⟨tenantId, hallows, hrevoked, hone⟩
    | _ => exact hallows.elim
  | created =>
    obtain ⟨tenantId, hr, hrevoked, hone⟩ := h
    cases op with
    | commit =>
      refine ⟨fun dto hr' => (by cases hr.symm.trans hr'), fun tenantId' hr' k token ht htenant hun => ?_⟩
      have htenant' : tenantId' = tenantId := by
        rcases hr' with hr' | hr'
        · cases hr.symm.trans hr'
          rfl
        · cases hr.symm.trans hr'
      rcases generate_commit_fact seen hrevoked hv ht (htenant.trans htenant') hun with hnew | ⟨hold, -⟩
      · exact List.mem_append_right _ hnew
      · exact List.mem_append_left _ hold
    | _ => exact hallows.elim
  | found id =>
    obtain ⟨hnone, dto, token, hr, ht, hhash⟩ := h
    cases op with
    | findPendingAdmin tenantId => exact ⟨hnone, dto, token, hr, ht, hhash⟩
    | consume id' now =>
      cases hallows
      have hnext : (linking cfg r).next (.found id) (.consume id now) (.ok a) =
          if a = 1 then .consumed id else .lost := rfl
      rw [hnext]
      split
      · rename_i hone
        subst hone
        have hinsert : NoInsert i ((Op.consume id now).write i seen cells) :=
          hnone.noInsert.update (by simp) rfl
        exact ⟨hinsert, dto, hr, consume_fact hnone ht hhash hanswer⟩
      · trivial
    | _ => exact hallows.elim
  | consumed id =>
    obtain ⟨hinsert, dto, hr, hused⟩ := h
    cases op with
    | setPassword authAccountId hash =>
      have hinsert' : NoInsert i ((Op.setPassword authAccountId hash).write i seen cells) := hinsert.update (by simp) rfl
      have hused' : UsedBy i id (cfg.sha256 dto.token)
          ((Op.setPassword authAccountId hash).write i seen cells) :=
        hused.update (by simp) rfl fun u hu token => by
          cases hu
          rfl
      exact ⟨hinsert', dto, hr, hused'⟩
    | activateUser userId =>
      have hinsert' : NoInsert i ((Op.activateUser userId).write i seen cells) := hinsert.update (by simp) rfl
      have hused' : UsedBy i id (cfg.sha256 dto.token)
          ((Op.activateUser userId).write i seen cells) :=
        hused.update (by simp) rfl fun u hu token => by
          cases hu
          rfl
      exact ⟨hinsert', dto, hr, hused'⟩
    | revokeSiblings tenantId id' now =>
      cases hallows
      have hinsert' : NoInsert i ((Op.revokeSiblings tenantId id now).write i seen cells) :=
        hinsert.update (by simp) rfl
      have hused' : UsedBy i id (cfg.sha256 dto.token)
          ((Op.revokeSiblings tenantId id now).write i seen cells) :=
        hused.update (by simp) rfl fun u hu token => by
          cases hu
          simp [revokingSiblings, onToken]
      exact ⟨hinsert', dto, hr, hused'⟩
    | commit =>
      refine ⟨fun dto' hr' => ?_, fun tenantId hr' => ?_⟩
      · cases hr.symm.trans hr'
        obtain ⟨token, ht, hhash, husedAt⟩ := UsedBy.commit seen hused hv
        exact ⟨id, token, ht, hhash, husedAt⟩
      · rcases hr' with hr' | hr' <;> cases hr.symm.trans hr'
    | _ => exact hallows.elim
  | done => exact hallows.elim
  | lost => exact hallows.elim

end

end Flexi.Tenants.SetupLink
