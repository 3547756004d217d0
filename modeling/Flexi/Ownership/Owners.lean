import Flexi.Library.RelyGuarantee
import Flexi.Ownership.Requests

/-!
# Who owns the rows

What is kept by every statement as long as no row is inserted for a member who is on the
way out: a committed row has its owner, and a removal has handed on what it has looked for.
-/

namespace Flexi.Ownership
open Flexi.Library
open Accounts (ServiceError TenantUser)

/-! ### Rows -/

/-- A row and a later version of it. -/
inductive Row.Becomes : Row → Row → Prop
  | same (row : Row) : Becomes row row
  | handedOn (r : Record) (owner : ℕ) : Becomes (.record r) (.record { r with owner := owner })
  | revoked (token token' : Accounts.RefreshToken) : Becomes (.refreshToken token) (.refreshToken token')
  | removed (row : Row) (h : ∀ r, row ≠ .record r) : Becomes row .deleted

namespace Row.Becomes

theorem trans {a b c : Row} (h : a.Becomes b) (h' : b.Becomes c) : a.Becomes c := by
  cases h with
  | same => exact h'
  | handedOn r owner =>
    cases h' with
    | same => exact .handedOn r owner
    | handedOn _ owner' => exact .handedOn r owner'
    | removed _ hno => exact absurd rfl (hno _)
  | revoked token token' =>
    cases h' with
    | same => exact .revoked token token'
    | revoked _ token'' => exact .revoked token token''
    | removed _ _ => exact .removed _ nofun
  | removed _ hno =>
    cases h' with
    | same => exact .removed _ hno
    | removed _ _ => exact .removed _ hno

theorem of_record {r : Record} {row : Row} (h : (Row.record r).Becomes row) :
    ∃ owner, row = .record { r with owner := owner } := by
  cases h with
  | same => exact ⟨r.owner, rfl⟩
  | handedOn _ owner => exact ⟨owner, rfl⟩
  | removed _ hno => exact absurd rfl (hno r)

theorem of_user {user : TenantUser} {row : Row} (h : (Row.tenantUser user).Becomes row) :
    row = .tenantUser user ∨ row = .deleted := by
  cases h with
  | same => exact .inl rfl
  | removed => exact .inr rfl

theorem to_user {user : TenantUser} {row : Row} (h : row.Becomes (.tenantUser user)) :
    row = .tenantUser user := by
  cases h
  rfl

end Row.Becomes

theorem Op.change?_becomes {op : Op} {change : Change} (h : op.change? = some change) {row : Row}
    (hrow : change.cond row = true) : row.Becomes (change.set row) := by
  cases op with
  | lockSource userId tenantId | lockTarget userId tenantId =>
    cases h
    exact .same row
  | transferRecords tenantId table owner target =>
    cases h
    cases row with
    | record r => exact .handedOn r target
    | _ => cases hrow
  | revokeSessions authAccountId now =>
    cases h
    cases row with
    | refreshToken token => exact .revoked _ _
    | _ => cases hrow
  | deleteMember userId =>
    cases h
    cases row with
    | tenantUser user => exact .removed _ nofun
    | _ => cases hrow
  | deleteAccount authAccountId =>
    cases h
    cases row with
    | record r => cases hrow
    | _ => exact .removed _ nofun
  | _ => cases h

theorem Op.change?_stands {op : Op} {change : Change} (h : op.change? = some change) {row : Row}
    (hrow : change.cond row = true) : row ≠ .deleted ∧ ∀ log, row ≠ .auditLog log := by
  constructor
  · rintro rfl
    cases op with
    | lockSource | lockTarget | transferRecords | revokeSessions | deleteMember | deleteAccount =>
      cases h
      cases hrow
    | _ => cases h
  · rintro log rfl
    cases op with
    | lockSource | lockTarget | transferRecords | revokeSessions | deleteMember | deleteAccount =>
      cases h
      cases hrow
    | _ => cases h

/-- A version that is held comes from the committed row, or is a new entry of the log. -/
def Versions (c : Cell Row) : Prop :=
  ∀ i new, c.pending = some (i, new) → (c.committed = none ∧ ∃ log, new = .auditLog log) ∨
    ∃ old, c.committed = some old ∧ old.Becomes new

namespace Versions

variable {c : Cell Row} {i : ℕ}

theorem user {user : TenantUser} (h : Versions c) (hp : c.pending = some (i, .tenantUser user)) :
    c.committed = some (.tenantUser user) := by
  rcases h i _ hp with ⟨-, log, hlog⟩ | ⟨old, hold, hbecomes⟩
  · cases hlog
  · rw [hold, hbecomes.to_user]

theorem see {row : Row} (h : Versions c) (hsee : c.see i = some row) :
    (∃ log, row = .auditLog log) ∨ ∃ old, c.committed = some old ∧ old.Becomes row := by
  rcases Cell.see_cases i c with ⟨v, hp, hv⟩ | ⟨-, hv⟩
  · rw [hsee] at hv
    cases hv
    exact (h i row hp).imp_left And.right
  · exact .inr ⟨row, hv.symm.trans hsee, .same row⟩

end Versions

/-! ### What a statement does to the cells -/

def Op.cell (i : ℕ) (op : Op) (c : Cell Row) : Cell Row :=
  let written : Cell Row := match op.change? with
    | none => c
    | some change => c.write i change.cond change.set
  match op with
  | commit => written.commit i
  | _ => written

/-- The new row, if the statement has one. -/
def Op.inserted (i : ℕ) : Op → Option (Cell Row)
  | insertRow tenantId table values owner => some { committed := some (.record ⟨tenantId, table, values, owner⟩) }
  | insertAudit log => some { committed := none, pending := some (i, .auditLog log) }
  | _ => none

section
variable {cfg : Config} {i j k : ℕ} {op : Op} {s s' : Store} {c c' : Cell Row} {outside : Outside}

theorem Op.write_cells : (op.write cfg i s).cells = s.cells.map (op.cell i) ++ (op.inserted i).toList := by
  have unchanged (h : op.cell i = id) : s.cells.map (op.cell i) = s.cells := by rw [h, List.map_id]
  cases op with
  | insertRow | insertAudit =>
    rw [unchanged rfl]
    rfl
  | countRecords tenantId table owner =>
    rw [unchanged rfl, write]
    split <;> exact (List.append_nil _).symm
  | commit | lockSource | lockTarget | transferRecords | revokeSessions | deleteMember | deleteAccount =>
    exact (List.append_nil _).symm
  | _ =>
    rw [unchanged rfl]
    exact (List.append_nil _).symm

theorem Op.write_old (h : s.cells[k]? = some c) : (op.write cfg i s).cells[k]? = some (op.cell i c) := by
  obtain ⟨hlt, -⟩ := List.getElem?_eq_some_iff.mp h
  rw [write_cells, List.getElem?_append_left (by simpa using hlt), List.getElem?_map, h]
  rfl

theorem Op.write_cases (h : (op.write cfg i s).cells[k]? = some c') :
    (∃ c, s.cells[k]? = some c ∧ c' = op.cell i c) ∨ op.inserted i = some c' := by
  rw [write_cells, List.getElem?_append] at h
  split at h
  · rw [List.getElem?_map] at h
    obtain ⟨c, hc, rfl⟩ := Option.map_eq_some_iff.mp h
    exact .inl ⟨c, hc, rfl⟩
  · have hmem := List.mem_of_getElem? h
    exact .inr (Option.mem_toList.mp hmem)

theorem Op.cell_open (hop : op ≠ .commit) : op.cell i c = match op.change? with
    | none => c
    | some change => c.write i change.cond change.set := by
  cases op with
  | commit => exact absurd rfl hop
  | _ => rfl

/-- A row that the change matches is held in its new version. -/
theorem Op.cell_match {change : Change} {row : Row} (hop : op ≠ .commit)
    (hchange : op.change? = some change) (hsee : c.see i = some row) (hrow : change.cond row = true) :
    (op.cell i c).pending = some (i, change.set row) := by
  rw [op.cell_open hop, hchange]
  simp only [Cell.write, hsee, hrow, if_true]

theorem Op.cell_cases (i : ℕ) (op : Op) (c : Cell Row) :
    op.cell i c = c ∨
    (∃ change row, op.change? = some change ∧ c.see i = some row ∧ change.cond row = true ∧
      op.cell i c = { c with pending := some (i, change.set row) }) ∨
    (op = .commit ∧ ∃ row, c.pending = some (i, row) ∧ op.cell i c = { committed := some row }) := by
  by_cases hcommit : op = .commit
  · subst hcommit
    rcases Cell.commit_cases i c with ⟨row, hp, he⟩ | ⟨-, he⟩
    · exact .inr (.inr ⟨rfl, row, hp, he⟩)
    · exact .inl he
  · rw [op.cell_open hcommit]
    cases hchange : op.change? with
    | none => exact .inl rfl
    | some change =>
      rcases Cell.write_cases i change.cond change.set c with ⟨he, -⟩ | ⟨row, hsee, hrow, he⟩
      · exact .inl he
      · exact .inr (.inl ⟨change, row, rfl, hsee, hrow, he⟩)

theorem Op.inserted_versions (h : op.inserted i = some c) : Versions c := by
  intro j new hp
  cases op with
  | insertRow =>
    cases h
    cases hp
  | insertAudit log =>
    cases h
    cases hp
    exact .inl ⟨rfl, log, rfl⟩
  | _ => cases h

theorem Versions.cell (h : Versions c) : Versions (op.cell i c) := by
  rcases op.cell_cases i c with he | ⟨change, row, hchange, hsee, hrow, he⟩ | ⟨-, row, -, he⟩
  · rwa [he]
  · rw [he]
    intro j new hp
    cases hp
    rcases h.see hsee with ⟨log, rfl⟩ | ⟨old, hold, hrow'⟩
    · exact absurd rfl ((op.change?_stands hchange hrow).2 log)
    · exact .inr ⟨old, hold, hrow'.trans (op.change?_becomes hchange hrow)⟩
  · rw [he]
    intro j new hp
    cases hp

end

/-! ### The invariant -/

/-- The names of a tenant's dynamic tables. -/
def Store.tables (s : Store) (tenantId : String) : List String :=
  if (s.metadata tenantId).hasMetaTables then (s.metadata tenantId).metaTables.map (·.name) else []

def Member (s : Store) (tenantId : String) (userId : ℕ) : Prop :=
  ∃ (k : ℕ) (c : Cell Row) (user : TenantUser), s.cells[k]? = some c ∧
    c.committed = some (.tenantUser user) ∧ user.id = userId ∧ user.tenantId = tenantId

/-- Transaction `i` holds the row of a member, as it is or removed. -/
def Held (s : Store) (i : ℕ) (tenantId : String) (userId : ℕ) (removed : Bool) : Prop :=
  ∃ (k : ℕ) (c : Cell Row) (user : TenantUser), s.cells[k]? = some c ∧
    c.committed = some (.tenantUser user) ∧ user.id = userId ∧ user.tenantId = tenantId ∧
    c.pending = some (i, if removed then .deleted else .tenantUser user)

/-- A member has one row, and so has the member of an account. -/
def UniqueUsers (s : Store) : Prop :=
  ∀ (k k' : ℕ) (c c' : Cell Row) (user user' : TenantUser), s.cells[k]? = some c →
    s.cells[k']? = some c' → c.Holds (.tenantUser user) → c'.Holds (.tenantUser user') →
    user.id = user'.id ∨ user.authAccountId = user'.authAccountId → k = k'

/-- `passed` and `removed` say of a removal what it has handed on: the rows of the tables it
has looked through, and those of all tables when the member's row is gone. -/
structure Owned (s : Store) : Prop where
  unique : UniqueUsers s
  versions : ∀ (k : ℕ) (c : Cell Row), s.cells[k]? = some c → Versions c
  owners : ∀ (k : ℕ) (c : Cell Row) (r : Record), s.cells[k]? = some c →
    c.committed = some (.record r) → r.table ∈ s.tables r.tenantId → Member s r.tenantId r.owner
  handed : ∀ (k : ℕ) (c : Cell Row) (i : ℕ) (r : Record), s.cells[k]? = some c →
    c.pending = some (i, .record r) → Held s i r.tenantId r.owner false
  looking : ∀ look ∈ s.looked, ∃ removed, Held s look.transaction look.tenantId look.owner removed
  passed : ∀ look ∈ s.looked, ∀ (k : ℕ) (c : Cell Row) (r : Record), s.cells[k]? = some c →
    c.committed = some (.record r) → r.tenantId = look.tenantId → r.table = look.table →
    r.owner = look.owner → ∃ r', c.pending = some (look.transaction, .record r')
  removed : ∀ (i : ℕ) (tenantId : String) (userId : ℕ), Held s i tenantId userId true →
    ∀ table ∈ s.tables tenantId, ⟨i, tenantId, userId, table⟩ ∈ s.looked

/-- A row may be inserted: its owner is a member, and no removal has looked through the
table for the owner's rows. -/
def Takes (s : Store) (tenantId table : String) (owner : ℕ) : Prop :=
  Member s tenantId owner ∧
    ∀ look ∈ s.looked, ¬ (look.tenantId = tenantId ∧ look.table = table ∧ look.owner = owner)

/-- Before and after a step of another transaction than `i`. -/
structure Apart (i : ℕ) (s s' : Store) : Prop where
  forth : ∀ (k : ℕ) (c : Cell Row) (row : Row), s.cells[k]? = some c →
    c.pending = some (i, row) → s'.cells[k]? = some c
  back : ∀ (k : ℕ) (c : Cell Row) (row : Row), s'.cells[k]? = some c →
    c.pending = some (i, row) → s.cells[k]? = some c
  users : ∀ (k : ℕ) (c' : Cell Row) (user : TenantUser), s'.cells[k]? = some c' →
    c'.Holds (.tenantUser user) → ∃ c, s.cells[k]? = some c ∧ c.Holds (.tenantUser user)
  looked : ∀ look : Look, look.transaction = i → (look ∈ s'.looked ↔ look ∈ s.looked)
  tables : ∀ tenantId, s'.tables tenantId = s.tables tenantId

section
variable {cfg : Config} {i j k : ℕ} {op : Op} {s s' : Store} {c c' : Cell Row} {outside : Outside}
  {tenantId tenantId' : String} {userId : ℕ} {removed removed' : Bool}

/-- One transaction holds a member's row. -/
theorem Owned.holder (h : Owned s) (hi : Held s i tenantId userId removed)
    (hj : Held s j tenantId' userId removed') : i = j ∧ removed = removed' := by
  obtain ⟨k, c, user, hc, hcommitted, hid, -, hp⟩ := hi
  obtain ⟨k', c', user', hc', hcommitted', hid', -, hp'⟩ := hj
  cases h.unique k k' c c' user user' hc hc' (.inl hcommitted) (.inl hcommitted') (.inl (hid.trans hid'.symm))
  cases hc.symm.trans hc'
  have hpair := Option.some.inj (hp.symm.trans hp')
  have hrows := congrArg Prod.snd hpair
  refine ⟨congrArg Prod.fst hpair, ?_⟩
  cases removed <;> cases removed' <;> first | rfl | cases hrows

theorem Held.member (h : Held s i tenantId userId removed) : Member s tenantId userId := by
  obtain ⟨k, c, user, hc, hcommitted, hid, htenant, -⟩ := h
  exact ⟨k, c, user, hc, hcommitted, hid, htenant⟩

theorem Held.apart (h : Held s i tenantId userId removed) (ha : Apart i s s') :
    Held s' i tenantId userId removed := by
  obtain ⟨k, c, user, hc, hcommitted, hid, htenant, hp⟩ := h
  exact ⟨k, c, user, ha.forth k c _ hc hp, hcommitted, hid, htenant, hp⟩

theorem Held.back (h : Held s' i tenantId userId removed) (ha : Apart i s s') :
    Held s i tenantId userId removed := by
  obtain ⟨k, c, user, hc, hcommitted, hid, htenant, hp⟩ := h
  exact ⟨k, c, user, ha.back k c _ hc hp, hcommitted, hid, htenant, hp⟩

theorem UniqueUsers.of_users (h : UniqueUsers s)
    (husers : ∀ (k : ℕ) (c' : Cell Row) (user : TenantUser), s'.cells[k]? = some c' →
      c'.Holds (.tenantUser user) → ∃ c, s.cells[k]? = some c ∧ c.Holds (.tenantUser user)) :
    UniqueUsers s' := by
  intro k k' c c' user user' hc hc' hu hu' heq
  obtain ⟨d, hd, hdu⟩ := husers k c user hc hu
  obtain ⟨d', hd', hdu'⟩ := husers k' c' user' hc' hu'
  exact h k k' d d' user user' hd hd' hdu hdu' heq

/-! ### What the others see -/

theorem Op.cell_users {user : TenantUser} (h : (op.cell i c).Holds (.tenantUser user)) :
    c.Holds (.tenantUser user) := by
  rcases op.cell_cases i c with he | ⟨change, row, hchange, hsee, hrow, he⟩ | ⟨-, row, hp, he⟩
  · rwa [he] at h
  · rw [he] at h
    rcases h with h | ⟨j, h⟩
    · exact .inl h
    · have hbecomes := op.change?_becomes hchange hrow
      rw [(Prod.mk.inj (Option.some.inj h)).2] at hbecomes
      rw [hbecomes.to_user] at hsee
      exact Cell.holds_of_see hsee
  · rw [he] at h
    rcases h with h | ⟨j, h⟩
    · cases h
      exact .inr ⟨i, hp⟩
    · cases h

theorem Op.inserted_users (h : op.inserted i = some c) (user : TenantUser) : ¬ c.Holds (.tenantUser user) := by
  rintro (hu | ⟨j, hu⟩)
  · cases op with
    | insertRow | insertAudit =>
      cases h
      cases hu
    | _ => cases h
  · cases op with
    | insertRow | insertAudit =>
      cases h
      cases hu
    | _ => cases h

theorem Op.write_users {user : TenantUser} (hc' : (op.write cfg i s).cells[k]? = some c')
    (hu : c'.Holds (.tenantUser user)) : ∃ c, s.cells[k]? = some c ∧ c.Holds (.tenantUser user) := by
  rcases op.write_cases hc' with ⟨c, hc, rfl⟩ | hnew
  · exact ⟨c, hc, Op.cell_users hu⟩
  · exact absurd hu (Op.inserted_users hnew user)

theorem Op.write_looked (hne : j ≠ i) {look : Look} (hlook : look.transaction = j) :
    look ∈ (op.write cfg i s).looked ↔ look ∈ s.looked := by
  have hother : look.transaction ≠ i := hlook ▸ hne
  have happend (owner : ℕ) (tenantId table : String) :
      look ∈ s.looked ++ [⟨i, tenantId, owner, table⟩] ↔ look ∈ s.looked := by
    rw [List.mem_append, List.mem_singleton]
    constructor
    · rintro (h | rfl)
      · exact h
      · exact absurd rfl hother
    · exact .inl
  cases op with
  | countRecords tenantId table owner =>
    rw [write]
    split
    · exact happend owner tenantId table
    · exact Iff.rfl
  | transferRecords tenantId table owner target => exact happend owner tenantId table
  | commit => simp [write, hother]
  | _ => exact Iff.rfl

theorem Op.write_tables : (op.write cfg i s).tables = s.tables := by
  funext t
  cases op with
  | validationSchema tenantId tableId =>
    simp only [write, Store.tables]
    by_cases ht : t = tenantId
    · subst ht
      simp
    · simp [ht]
  | countRecords tenantId table owner =>
    rw [write]
    split <;> rfl
  | _ => rfl

theorem Op.cell_apart (hne : i ≠ j) {row : Row} (hfree : op.waits j s = false) (hc : s.cells[k]? = some c)
    (hp : c.pending = some (i, row)) : op.cell j c = c := by
  rcases op.cell_cases j c with he | ⟨change, seen, hchange, hsee, hrow, -⟩ | ⟨-, row', hp', -⟩
  · exact he
  · rw [waits, hchange] at hfree
    exact absurd (Cell.not_held (Cells.not_waits hfree hc hsee hrow) hp) hne
  · cases hp.symm.trans hp'
    exact absurd rfl hne

theorem Op.cell_pending (hne : i ≠ j) {row : Row} (hp : (op.cell j c).pending = some (i, row)) :
    op.cell j c = c := by
  rcases op.cell_cases j c with he | ⟨change, seen, -, -, -, he⟩ | ⟨-, row', -, he⟩
  · exact he
  · rw [he] at hp
    cases hp
    exact absurd rfl hne
  · rw [he] at hp
    cases hp

theorem Op.write_apart (hne : i ≠ j)
    (hfree : op.waits j s = false) : Apart i s (op.write cfg j s) where
  forth k c row hc hp := by
    rw [Op.write_old hc, Op.cell_apart hne hfree hc hp]
  back k c' row hc' hp := by
    rcases op.write_cases hc' with ⟨c, hc, rfl⟩ | hnew
    · rw [hc, Op.cell_pending hne hp]
    · cases op with
      | insertRow =>
        cases hnew
        cases hp
      | insertAudit =>
        cases hnew
        cases hp
        exact absurd rfl hne
      | _ => cases hnew
  users k c' user hc' hu := Op.write_users hc' hu
  looked look hlook := Op.write_looked hne hlook
  tables t := congrFun Op.write_tables t

theorem Apart.refl (i : ℕ) (s : Store) : Apart i s s where
  forth _ _ _ hc _ := hc
  back _ _ _ hc _ := hc
  users _ c' _ hc' hu := ⟨c', hc', hu⟩
  looked _ _ := Iff.rfl
  tables _ := rfl

theorem Op.perform_cases (cfg : Config) (i : ℕ) (outside : Outside) (op : Op) (s : Store) :
    (∃ e, op.perform cfg i outside s = (.error e, s)) ∨
      outside.fault = none ∧ ∃ a, op.answer cfg i s = .ok a ∧
        op.perform cfg i outside s = (.ok a, op.write cfg i s) := by
  unfold perform
  cases hfault : outside.fault with
  | some code => exact .inl ⟨_, rfl⟩
  | none =>
    cases hanswer : op.answer cfg i s with
    | error e => exact .inl ⟨e, rfl⟩
    | ok a => exact .inr ⟨rfl, a, rfl, rfl⟩

/-! ### What a transaction does itself -/

/-- No row has been handed to `owner`. -/
def Moved (s : Store) (i owner : ℕ) : Prop :=
  ∀ (k : ℕ) (c : Cell Row) (r : Record), s.cells[k]? = some c → c.pending = some (i, .record r) →
    r.owner ≠ owner

/-- What the code makes sure of before its statements. -/
def Op.Allowed (i : ℕ) (s : Store) : Op → Prop
  | insertRow tenantId table _ owner => Takes s tenantId table owner
  | countRecords tenantId _ owner => Held s i tenantId owner false
  | transferRecords tenantId _ owner target =>
    Held s i tenantId owner false ∧ Held s i tenantId target false
  | deleteMember userId => Moved s i userId ∧ ∃ tenantId, Held s i tenantId userId false ∧
    ∀ table ∈ s.tables tenantId, ⟨i, tenantId, userId, table⟩ ∈ s.looked
  | deleteAccount authAccountId => ∀ (k : ℕ) (c : Cell Row) (user : TenantUser), s.cells[k]? = some c →
    c.see i = some (.tenantUser user) → user.authAccountId ≠ authAccountId
  | _ => True

theorem Op.cell_committed (hop : op ≠ .commit) : (op.cell i c).committed = c.committed := by
  rcases op.cell_cases i c with he | ⟨change, row, -, -, -, he⟩ | ⟨hcommit, -⟩
  · rw [he]
  · rw [he]
  · exact absurd hcommit hop

theorem Op.looked_mono (hop : op ≠ .commit) {look : Look} (h : look ∈ s.looked) :
    look ∈ (op.write cfg i s).looked := by
  cases op with
  | commit => exact absurd rfl hop
  | countRecords tenantId table owner =>
    rw [write]
    split
    · exact List.mem_append_left _ h
    · exact h
  | transferRecords tenantId table owner target => exact List.mem_append_left _ h
  | _ => exact h

theorem Member.write (h : Member s tenantId userId) (hop : op ≠ .commit) :
    Member (op.write cfg i s) tenantId userId := by
  obtain ⟨k, c, user, hc, hcommitted, hid, htenant⟩ := h
  exact ⟨k, _, user, op.write_old hc, by rw [op.cell_committed hop, hcommitted], hid, htenant⟩

theorem Held.write (h : Held s i tenantId userId removed) (hop : op ≠ .commit) :
    ∃ removed', Held (op.write cfg i s) i tenantId userId removed' := by
  obtain ⟨k, c, user, hc, hcommitted, hid, htenant, hp⟩ := h
  have hheld (removed' : Bool)
      (hp' : (op.cell i c).pending = some (i, if removed' then .deleted else .tenantUser user)) :
      ∃ removed', Held (op.write cfg i s) i tenantId userId removed' :=
    ⟨removed', k, _, user, op.write_old hc, by rw [op.cell_committed hop, hcommitted], hid, htenant, hp'⟩
  rcases op.cell_cases i c with he | ⟨change, row, hchange, hsee, hrow, he⟩ | ⟨hcommit, -⟩
  · exact hheld removed (by rw [he, hp])
  · have hbecomes := op.change?_becomes hchange hrow
    have hrow' : row = if removed then .deleted else .tenantUser user := by
      rcases Cell.see_cases i c with ⟨v, hv, hsee'⟩ | ⟨hno, -⟩
      · cases hv.symm.trans hp
        exact (Option.some.inj (hsee'.symm.trans hsee)).symm
      · exact absurd hp (hno _)
    cases removed with
    | true => exact absurd hrow' (op.change?_stands hchange hrow).1
    | false =>
      have hrow' : row = .tenantUser user := hrow'
      rw [hrow'] at hbecomes he
      rcases hbecomes.of_user with hset | hset
      · refine hheld false ?_
        rw [he, hset]
        rfl
      · refine hheld true ?_
        rw [he, hset]
        rfl
  · exact absurd hcommit hop

/-- A lock stays, unless it is the member's row that is deleted. -/
theorem Held.lock (h : Held s i tenantId userId false) (hallowed : op.Allowed i s) (hop : op ≠ .commit)
    (hdelete : op ≠ .deleteMember userId) : Held (op.write cfg i s) i tenantId userId false := by
  obtain ⟨k, c, user, hc, hcommitted, hid, htenant, hp⟩ := h
  refine ⟨k, _, user, op.write_old hc, by rw [op.cell_committed hop, hcommitted], hid, htenant, ?_⟩
  rcases op.cell_cases i c with he | ⟨change, row, hchange, hsee, hrow, he⟩ | ⟨hcommit, -⟩
  · rw [he, hp]
  · have hseen : c.see i = some (.tenantUser user) := by
      rcases Cell.see_cases i c with ⟨v, hv, hsee'⟩ | ⟨hno, -⟩
      · cases hv.symm.trans hp
        exact hsee'
      · exact absurd hp (hno _)
    cases hseen.symm.trans hsee
    rw [he]
    cases op with
    | lockSource | lockTarget =>
      cases hchange
      rfl
    | transferRecords | revokeSessions =>
      cases hchange
      cases hrow
    | deleteMember =>
      cases hchange
      rw [← hid] at hdelete
      exact absurd (congrArg Op.deleteMember (of_decide_eq_true hrow).symm) hdelete
    | deleteAccount =>
      cases hchange
      exact absurd (of_decide_eq_true hrow) (hallowed k c user hc hseen)
    | _ => cases hchange
  · exact absurd hcommit hop

end

end Flexi.Ownership
