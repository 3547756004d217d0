import Flexi.Ownership.OwnerRuns

/-!
# A hard deletion conserves the records

With no other writer about, the transaction that removes a member works on the rows as
they were committed: each of its statements maps them, and what it throws leaves them.
-/

namespace Flexi.Ownership
open Flexi.Library
open Accounts (AuthenticatedUser ServiceError TenantUser)
open DynamicTables (MetaTable)

/-! ### The statement -/

def Row.record? : Row → Option Record
  | record r => some r
  | _ => none

/-- The rows that everyone reads. -/
def Store.committed (s : Store) : List Row := s.cells.filterMap (·.committed)

/-- The rows of the dynamic tables among them. -/
def records (rows : List Row) : List Record := rows.filterMap Row.record?

/-- The record is the member's, in one of the tables. -/
def ownedBy (source : TenantUser) (tables : List String) (r : Record) : Bool :=
  r.tenantId = source.tenantId && tables.contains r.table && r.owner = source.id

def handOn (source : TenantUser) (owner : ℕ) (tables : List String) (r : Record) : Record :=
  if ownedBy source tables r then { r with owner := owner } else r

/-- The member is gone and each of her records is the target's, `count` of them. Apart from
their owners the records are the ones that there were. -/
structure Conserved (s s' : Store) (source : TenantUser) (target : Option ℕ) (count : ℕ) : Prop where
  handedOn : records s'.committed = (records s.committed).map
    (handOn source (target.getD source.id) (s.tables source.tenantId))
  noneLeft : ∀ r ∈ records s'.committed, ownedBy source (s'.tables source.tenantId) r = false
  counted : count = (records s.committed).countP (ownedBy source (s.tables source.tenantId))
  metadata : s'.metadata = s.metadata
  member : ∀ user : TenantUser, .tenantUser user ∈ s'.committed → user.id ≠ source.id
  account : .authAccount source.authAccountId ∉ s'.committed

/-- Nothing has changed, and nothing is left open. -/
structure Unchanged (s s' : Store) : Prop where
  committed : s'.committed = s.committed
  metadata : s'.metadata = s.metadata
  tenants : s'.tenants = s.tenants
  settled : ∀ c ∈ s'.cells, c.pending = none

/-- Only request `i` goes on. -/
def Alone (i : ℕ) (_ : State) : Event → Prop
  | .arrive _ _ => False
  | .execute j _ | .deliver j _ => j = i
  | .tick _ => True

/-! ### The rows that the transaction works on -/

/-- The rows as transaction `i` reads them. -/
def Store.rows (i : ℕ) (s : Store) : List Row := s.cells.filterMap (·.see i)

/-- What a statement makes of a row. -/
def Op.apply (op : Op) (row : Row) : Row :=
  match op.change? with
  | none => row
  | some change => if change.cond row then change.set row else row

/-- The row that a statement adds inside its transaction. -/
def Op.added : Op → Option Row
  | insertAudit log => some (.auditLog log)
  | _ => none

/-- Transaction `i` is open on top of `d`: its changes are held, and there are no others. -/
structure Open (i : ℕ) (d s : Store) : Prop where
  committed : s.committed = d.committed
  metadata : s.metadata = d.metadata
  tenants : s.tenants = d.tenants
  held : ∀ c ∈ s.cells, ∀ j row, c.pending = some (j, row) → j = i

/-- A statement of the deletion before its commit. -/
def Op.Inside : Op → Prop
  | insertRow _ _ _ _ | validationSchema _ _ | commit => False
  | _ => True

section
variable {cfg : Config} {i : ℕ} {op : Op} {d s : Store} {c : Cell Row}

theorem Op.see_cell (hop : op ≠ .commit) : (op.cell i c).see i = (c.see i).map op.apply := by
  rw [op.cell_open hop]
  unfold Op.apply
  cases hchange : op.change? with
  | none => exact Option.map_id'.symm
  | some change => exact Cell.see_write

theorem Op.rows_write (hop : op.Inside) :
    (op.write cfg i s).rows i = (s.rows i).map op.apply ++ op.added.toList := by
  have hcommit : op ≠ .commit := by
    rintro rfl
    exact hop
  have hadded : (op.inserted i).toList.filterMap (·.see i) = op.added.toList := by
    cases op with
    | insertRow => exact hop.elim
    | insertAudit log =>
      have hsee : Cell.see i { committed := none, pending := some (i, Row.auditLog log) } =
          some (Row.auditLog log) := by simp [Cell.see]
      exact List.filterMap_cons_some hsee
    | _ => rfl
  unfold Store.rows
  rw [Op.write_cells, List.filterMap_append, hadded, List.filterMap_map]
  congr 1
  rw [List.map_filterMap]
  exact List.filterMap_congr fun c _ => Op.see_cell hcommit

theorem Open.write (h : Open i d s) (hop : op.Inside) : Open i d (op.write cfg i s) where
  committed := by
    have hcommit : op ≠ .commit := by
      rintro rfl
      exact hop
    have hadded : (op.inserted i).toList.filterMap (·.committed) = [] := by
      cases op with
      | insertRow => exact hop.elim
      | _ => rfl
    rw [← h.committed, Store.committed, Op.write_cells, List.filterMap_append, hadded, List.append_nil,
      List.filterMap_map]
    exact List.filterMap_congr fun c _ => Op.cell_committed hcommit
  metadata := by
    rw [← h.metadata]
    cases op with
    | insertRow | validationSchema | commit => exact hop.elim
    | countRecords tenantId table owner =>
      rw [Op.write]
      split <;> rfl
    | _ => rfl
  tenants := by
    rw [← h.tenants]
    cases op with
    | countRecords tenantId table owner =>
      rw [Op.write]
      split <;> rfl
    | _ => rfl
  held c' hc' j row hp := by
    obtain ⟨k, hk⟩ := List.getElem?_of_mem hc'
    rcases Op.write_cases hk with ⟨c, hc, rfl⟩ | hnew
    · have hmem := List.mem_of_getElem? hc
      rcases op.cell_cases i c with he | ⟨change, row', -, -, -, he⟩ | ⟨-, row', -, he⟩
      · rw [he] at hp
        exact h.held c hmem j row hp
      · rw [he] at hp
        cases hp
        rfl
      · rw [he] at hp
        cases hp
    · cases op with
      | insertRow =>
        cases hnew
        cases hp
      | insertAudit =>
        cases hnew
        cases hp
        rfl
      | _ => cases hnew

theorem Open.of_settled (h : ∀ c ∈ d.cells, c.pending = none) : Open i d d where
  committed := rfl
  metadata := rfl
  tenants := rfl
  held c hc j row hp := by
    rw [h c hc] at hp
    cases hp

theorem rows_of_settled (h : ∀ c ∈ d.cells, c.pending = none) : d.rows i = d.committed :=
  List.filterMap_congr fun c hc => by rw [Cell.see, h c hc]

theorem Open.rollback (h : Open i d s) : Unchanged d (s.rollback i) where
  committed := by
    rw [← h.committed]
    show List.filterMap (·.committed) (s.cells.map (·.rollback i)) = _
    rw [List.filterMap_map]
    refine List.filterMap_congr fun c _ => ?_
    show (c.rollback i).committed = c.committed
    rcases Cell.rollback_cases i c with ⟨row, -, he⟩ | ⟨-, he⟩
    · rw [he]
    · rw [he]
  metadata := h.metadata
  tenants := h.tenants
  settled c' hc' := by
    obtain ⟨c, hc, rfl⟩ := List.mem_map.mp hc'
    rcases Cell.rollback_cases i c with ⟨row, -, he⟩ | ⟨hno, he⟩
    · rw [he]
    · rw [he]
      cases hp : c.pending with
      | none => rfl
      | some held =>
        obtain ⟨j, row⟩ := held
        obtain rfl := h.held c hc j row hp
        exact absurd hp (hno row)

theorem Open.commit (h : Open i d s) : (Op.commit.write cfg i s).committed = s.rows i := by
  show List.filterMap (·.committed) (s.cells.map (·.commit i)) = _
  rw [List.filterMap_map]
  refine List.filterMap_congr fun c hc => ?_
  show (c.commit i).committed = c.see i
  rcases Cell.commit_cases i c with ⟨row, hp, he⟩ | ⟨hno, he⟩
  · rw [he]
    simp [Cell.see, hp]
  · rw [he]
    cases hp : c.pending with
    | none => simp [Cell.see, hp]
    | some held =>
      obtain ⟨j, row⟩ := held
      obtain rfl := h.held c hc j row hp
      exact absurd hp (hno row)

theorem visible_rows {p : Row → Bool} : s.cells.visible i p = (s.rows i).filter p := by
  unfold Cells.visible Store.rows
  rw [List.filter_filterMap]

end

/-! ### Records handed on -/

section
variable {source : TenantUser} {owner : ℕ} {table : String} {tables : List String} {rs : List Record}

theorem ownedBy_cons (r : Record) : ownedBy source (table :: tables) r =
    (ownedBy source [table] r || ownedBy source tables r) := by
  simp only [ownedBy, List.contains_cons, List.contains_nil, Bool.or_false]
  cases decide (r.tenantId = source.tenantId) <;> cases (r.table == table) <;> simp

theorem isRecord_eq (r : Record) :
    isRecord source.tenantId table source.id (.record r) = ownedBy source [table] r := by
  simp [isRecord, ownedBy]

theorem handOn_self (r : Record) : handOn source source.id tables r = r := by
  unfold handOn
  split
  · rename_i howned
    have howner : r.owner = source.id := by
      simp only [ownedBy, Bool.and_eq_true, decide_eq_true_eq] at howned
      exact howned.2
    rw [← howner]
  · rfl

theorem ownedBy_handOn (howner : owner ≠ source.id) (names : List String) (r : Record) :
    ownedBy source names (handOn source owner tables r) =
      (ownedBy source names r && !ownedBy source tables r) := by
  unfold handOn
  split
  · rename_i howned
    rw [howned, Bool.not_true, Bool.and_false]
    simp [ownedBy, howner]
  · rename_i hother
    simp [hother]

/-- Handing on the records of the first table and then of the others. -/
theorem handOn_cons (howner : owner ≠ source.id) (r : Record) :
    handOn source owner tables (handOn source owner [table] r) =
      handOn source owner (table :: tables) r := by
  have hcons : ownedBy source (table :: tables) r = _ := ownedBy_cons r
  cases hfirst : ownedBy source [table] r with
  | true =>
    have hkept : ownedBy source tables (handOn source owner [table] r) = false := by
      rw [ownedBy_handOn howner, hfirst, Bool.not_true, Bool.and_false]
    rw [hfirst, Bool.true_or] at hcons
    rw [handOn, hkept, handOn, handOn, hfirst, hcons]
    rfl
  | false =>
    have hsame : handOn source owner [table] r = r := by rw [handOn, hfirst]; rfl
    rw [hfirst, Bool.false_or] at hcons
    rw [hsame, handOn, handOn, hcons]

theorem countP_cons (howner : owner ≠ source.id) :
    rs.countP (ownedBy source (table :: tables)) = rs.countP (ownedBy source [table]) +
      (rs.map (handOn source owner [table])).countP (ownedBy source tables) := by
  induction rs with
  | nil => rfl
  | cons r rs ih =>
    have hcons : ownedBy source (table :: tables) r = _ := ownedBy_cons r
    rw [List.map_cons, List.countP_cons, List.countP_cons, List.countP_cons, ih, hcons,
      ownedBy_handOn howner]
    cases ownedBy source [table] r <;> cases ownedBy source tables r <;> simp <;> omega

theorem countP_cons_none (hnone : rs.countP (ownedBy source [table]) = 0) :
    rs.countP (ownedBy source (table :: tables)) = rs.countP (ownedBy source tables) := by
  refine List.countP_congr fun r hr => ?_
  have hcons : ownedBy source (table :: tables) r = _ := ownedBy_cons r
  rw [Bool.eq_false_of_not_eq_true (List.countP_eq_zero.mp hnone r hr), Bool.false_or] at hcons
  rw [hcons]

theorem not_ownedBy_map (howner : owner ≠ source.id) {r : Record}
    (hr : r ∈ rs.map (handOn source owner tables)) : ownedBy source tables r = false := by
  obtain ⟨r₀, -, rfl⟩ := List.mem_map.mp hr
  rw [ownedBy_handOn howner]
  cases ownedBy source tables r₀ <;> rfl

end

section
variable {cfg : Config} {i : ℕ} {op : Op} {s : Store}

theorem records_append {rows rows' : List Row} :
    records (rows ++ rows') = records rows ++ records rows' := List.filterMap_append

theorem Op.added_records (op : Op) : records op.added.toList = [] := by
  cases op <;> rfl

theorem Op.records_write (hop : op.Inside)
    (hother : ∀ tenantId table owner target, op ≠ .transferRecords tenantId table owner target) :
    records ((op.write cfg i s).rows i) = records (s.rows i) := by
  have happly (row : Row) : (op.apply row).record? = row.record? := by
    cases op with
    | transferRecords tenantId table owner target => exact absurd rfl (hother _ _ _ _)
    | lockSource | lockTarget => exact congrArg Row.record? (ite_self row)
    | revokeSessions =>
      cases row with
      | refreshToken token => exact (apply_ite Row.record? _ _ _).trans (ite_self none)
      | _ => rfl
    | deleteMember =>
      cases row with
      | tenantUser user => exact (apply_ite Row.record? _ _ _).trans (ite_self none)
      | _ => rfl
    | deleteAccount =>
      cases row with
      | tenantUser | authAccount | refreshToken =>
        exact (apply_ite Row.record? _ _ _).trans (ite_self none)
      | _ => rfl
    | _ => rfl
  rw [op.rows_write hop, records_append, op.added_records, List.append_nil, records, List.filterMap_map]
  exact List.filterMap_congr fun row _ => happly row

theorem records_transfer {source : TenantUser} {table : String} {target : ℕ} :
    records (((Op.transferRecords source.tenantId table source.id target).write cfg i s).rows i) =
      (records (s.rows i)).map (handOn source target [table]) := by
  have happly (row : Row) :
      ((Op.transferRecords source.tenantId table source.id target).apply row).record? =
        row.record?.map (handOn source target [table]) := by
    cases row with
    | record r =>
      show Row.record? (if isRecord source.tenantId table source.id (.record r) then _ else _) =
        some (handOn source target [table] r)
      rw [isRecord_eq, handOn]
      split <;> rfl
    | _ => rfl
  rw [Op.rows_write (by trivial), records_append, Op.added_records, List.append_nil, records,
    List.filterMap_map, records, List.map_filterMap]
  exact List.filterMap_congr fun row _ => happly row

theorem countRecords_eq {source : TenantUser} {table : String} :
    s.countRecords i source.tenantId table source.id =
      (records (s.rows i)).countP (ownedBy source [table]) := by
  rw [Store.countRecords, visible_rows, ← List.countP_eq_length_filter, records]
  induction s.rows i with
  | nil => rfl
  | cons row rows ih =>
    cases row with
    | record r =>
      have hrecord : Row.record? (.record r) = some r := rfl
      rw [List.filterMap_cons_some hrecord, List.countP_cons, List.countP_cons, ih, isRecord_eq]
    | _ => exact ih

end

/-! ### The code -/

/-- The statements of transaction `i` with nobody else about. -/
def aloneRules (cfg : Config) (i : ℕ) : Rules Op Op.Res Context ServiceError Store where
  sees _ := True
  exec op s s' r := ∃ outside, op.perform cfg i outside s = (r, s')
  interfere _ _ := False
  guarantee _ _ := True

/-- Up to the commit the changes are held, also where the code throws. -/
abbrev Follows (cfg : Config) (i : ℕ) (d : Store) {α : Type} (P : Store → Prop) (p : Service α)
    (Q : α → Store → Prop) : Prop :=
  Outline (aloneRules cfg i) (fun s => Open i d s ∧ P s) p (fun a s => Open i d s ∧ Q a s)
    fun _ s => Open i d s

section
variable {cfg : Config} {i : ℕ} {d : Store} {op : Op} {s : Store} {source : TenantUser}
  {target : Option TenantUser} {user : AuthenticatedUser}

theorem alone_stable (P : Store → Prop) : (aloneRules cfg i).Stable P :=
  fun _ _ _ hno => hno.elim

theorem follows_request {P : Store → Prop} {Q : op.Res → Store → Prop} (hop : op.Inside)
    (hok : ∀ s a, Open i d s → P s → op.answer cfg i s = .ok a → Q a (op.write cfg i s)) :
    Follows cfg i d P (request op) Q := by
  refine .await (alone_stable _) (fun _ => alone_stable _) (fun _ => alone_stable _) ?_ ?_
  · rintro s s' a ⟨hs, hp⟩ ⟨outside, hperform⟩
    rcases op.perform_cases cfg i outside s with ⟨e, he⟩ | ⟨-, b, hb, he⟩
    · cases he.symm.trans hperform
    · cases he.symm.trans hperform
      exact ⟨trivial, hs.write hop, hok s a hs hp hb⟩
  · rintro s s' e ⟨hs, -⟩ ⟨outside, hperform⟩
    rcases op.perform_cases cfg i outside s with ⟨e, he⟩ | ⟨-, b, -, he⟩
    · cases he.symm.trans hperform
      exact ⟨trivial, hs⟩
    · cases he.symm.trans hperform

theorem follows_fail {α : Type} {P : Store → Prop} {Q : α → Store → Prop} {e : HttpError} :
    Outline (aloneRules cfg i) (fun s => Open i d s ∧ P s) (fail e) Q fun _ s => Open i d s :=
  .throw fun _ h => h.1

theorem rows_reading (hop : op.Inside) (hsame : ∀ row, op.apply row = row) (hadded : op.added = none) :
    (op.write cfg i s).rows i = s.rows i := by
  rw [op.rows_write hop, hadded, List.map_congr_left fun row _ => hsame row, List.map_id']
  exact List.append_nil _

theorem follows_reading {P : List Row → Prop} (hop : op.Inside) (hsame : ∀ row, op.apply row = row)
    (hadded : op.added = none) :
    Follows cfg i d (fun s => P (s.rows i)) (request op) fun _ s => P (s.rows i) :=
  follows_request hop fun s _ _ hp _ => by rwa [rows_reading hop hsame hadded]

/-- The rows after the loop: the records of the tables are the target's. -/
structure Handed (d : Store) (rs : List Record) (source : TenantUser) (target : Option ℕ) (count : ℕ) :
    Prop where
  records : rs = (records d.committed).map
    (handOn source (target.getD source.id) (d.tables source.tenantId))
  noneLeft : ∀ r ∈ rs, ownedBy source (d.tables source.tenantId) r = false
  counted : count = (Ownership.records d.committed).countP (ownedBy source (d.tables source.tenantId))

theorem transferTable_follows {table : MetaTable} {rs : List Record} :
    Follows cfg i d (fun s => records (s.rows i) = rs) (transferTable source target user table)
      fun count s => records (s.rows i) =
          rs.map (handOn source ((target.map (·.id)).getD source.id) [table.name]) ∧
        count = rs.countP (ownedBy source [table.name]) ∧ (target = none → count = 0) := by
  unfold transferTable
  cases hname : Tenancy.sanitizeIdentifier table.name with
  | error e => exact follows_fail
  | ok tableName =>
    obtain rfl := (Tenancy.sanitizeIdentifier_ok hname).1
    refine .bind (Q := fun count s => Open i d s ∧ records (s.rows i) = rs ∧
      count = rs.countP (ownedBy source [table.name])) ?_ fun count => ?_
    · refine follows_request (by trivial) fun s count _ hrs hanswer => ⟨?_, ?_⟩
      · rw [Op.records_write (by trivial) (by simp), hrs]
      · cases hanswer
        rw [countRecords_eq, hrs]
    · split
      · rename_i hzero
        refine .pure fun s h => ⟨h.1, ?_, by rw [← h.2.2, hzero], fun _ => rfl⟩
        have hnone (r : Record) (hr : r ∈ rs) :
            handOn source ((target.map (·.id)).getD source.id) [table.name] r = r :=
          if_neg (List.countP_eq_zero.mp (h.2.2.symm.trans hzero) r hr)
        rw [h.2.1, List.map_congr_left hnone, List.map_id']
      · cases target with
        | none => exact follows_fail.pre fun s h => ⟨h.1, h.2⟩
        | some member =>
          refine .bind (Q := fun _ s => Open i d s ∧ records (s.rows i) =
            rs.map (handOn source member.id [table.name]) ∧
              count = rs.countP (ownedBy source [table.name])) ?_ fun _ => ?_
          · refine follows_request (by trivial) fun s _ _ h _ => ⟨?_, h.2⟩
            rw [records_transfer, h.1]
          · refine .bind (.read fun _ _ _ h => h) fun c => .bind (Q := fun _ s => Open i d s ∧ records (s.rows i) =
              rs.map (handOn source member.id [table.name]) ∧
                count = rs.countP (ownedBy source [table.name])) ?_ fun _ => ?_
            · refine follows_request (by trivial) fun s _ _ h _ => ⟨?_, h.2⟩
              rw [Op.records_write (by trivial) (by simp), h.1]
            · exact .pure fun s h => ⟨h.1, h.2.1, h.2.2, by simp⟩

theorem transferTables_follows (htarget : ∀ member, target = some member → member.id ≠ source.id)
    {tables : List MetaTable} {rs : List Record} {count : ℕ} :
    Follows cfg i d (fun s => records (s.rows i) = rs) (transferTables source target user tables count)
      fun n s => records (s.rows i) =
          rs.map (handOn source ((target.map (·.id)).getD source.id) (tables.map (·.name))) ∧
        n = count + rs.countP (ownedBy source (tables.map (·.name))) ∧
        (target = none → rs.countP (ownedBy source (tables.map (·.name))) = 0) := by
  induction tables generalizing rs count with
  | nil =>
    have hno (r : Record) : ownedBy source [] r = false := by simp [ownedBy]
    have hzero : rs.countP (ownedBy source []) = 0 := List.countP_eq_zero.mpr fun r _ => by simp [hno r]
    refine .pure fun s h => ⟨h.1, ?_, ?_, fun _ => hzero⟩
    · have hself (r : Record) (_ : r ∈ rs) :
          handOn source ((target.map (·.id)).getD source.id) [] r = r := by simp [handOn, hno r]
      rw [h.2, List.map_nil, List.map_congr_left hself, List.map_id']
    · rw [List.map_nil, hzero, Nat.add_zero]
  | cons table tables ih =>
    refine .bind transferTable_follows fun recordCount s h => ?_
    obtain ⟨hopen, hrs, hcount, hnone⟩ := h
    cases target with
    | none =>
      have hzero : rs.countP (ownedBy source [table.name]) = 0 := by rw [← hcount, hnone rfl]
      have hself (names : List String) (rs : List Record) : rs.map (handOn source source.id names) = rs := by
        rw [List.map_congr_left fun r _ => handOn_self r, List.map_id']
      refine (ih s ⟨hopen, hrs⟩).mono (fun n s' h' => ?_) fun _ _ h => h
      obtain ⟨hopen', hrs', hn, hrest⟩ := h'
      simp only [Option.map_none, Option.getD_none, hself] at hrs' hn hrest ⊢
      rw [List.map_cons, countP_cons_none hzero]
      exact ⟨hopen', hrs', by rw [hn, hnone rfl, Nat.add_zero], hrest⟩
    | some member =>
      have howner : member.id ≠ source.id := htarget member rfl
      refine (ih s ⟨hopen, hrs⟩).mono (fun n s' h' => ?_) fun _ _ h => h
      obtain ⟨hopen', hrs', hn, -⟩ := h'
      rw [List.map_cons, countP_cons howner]
      refine ⟨hopen', ?_, ?_, by simp⟩
      · rw [hrs', List.map_map]
        exact List.map_congr_left fun r _ => handOn_cons howner r
      · rw [hn, hcount, Nat.add_assoc]
        rfl

/-- The loop hands on what there is. -/
theorem handed_of_loop (htarget : ∀ member, target = some member → member.id ≠ source.id)
    {rs : List Record} {count : ℕ} (hrs : rs = (records d.committed).map
      (handOn source ((target.map (·.id)).getD source.id) (d.tables source.tenantId)))
    (hcount : count = (records d.committed).countP (ownedBy source (d.tables source.tenantId)))
    (hnone : target = none → (records d.committed).countP (ownedBy source (d.tables source.tenantId)) = 0) :
    Handed d rs source (target.map (·.id)) count where
  records := hrs
  noneLeft r hr := by
    rw [hrs] at hr
    cases target with
    | some member => exact not_ownedBy_map (htarget member rfl) hr
    | none =>
      obtain ⟨r₀, hr₀, rfl⟩ := List.mem_map.mp hr
      rw [Option.map_none, Option.getD_none, handOn_self]
      exact Bool.eq_false_of_not_eq_true (List.countP_eq_zero.mp (hnone rfl) r₀ hr₀)
  counted := hcount

/-- The member and the account are gone, and the records are `rs`. -/
structure Removed (i : ℕ) (source : TenantUser) (rs : List Record) (s : Store) : Prop where
  records : records (s.rows i) = rs
  member : ∀ user : TenantUser, .tenantUser user ∈ s.rows i → user.id ≠ source.id
  account : .authAccount source.authAccountId ∉ s.rows i

theorem mem_rows_deleted {cond : Row → Bool} {row : Row} (hop : op.Inside)
    (hchange : op.change? = some ⟨cond, fun _ => .deleted⟩) (hadded : op.added = none)
    (hmem : row ∈ (op.write cfg i s).rows i) (hrow : row ≠ .deleted) :
    row ∈ s.rows i ∧ cond row = false := by
  rw [op.rows_write hop, hadded] at hmem
  rcases List.mem_append.mp hmem with hold | hnew
  · obtain ⟨old, hrows, rfl⟩ := List.mem_map.mp hold
    rw [Op.apply, hchange] at hrow ⊢
    cases hcond : cond old with
    | true => simp [hcond] at hrow
    | false => simpa [hcond] using hrows
  · cases hnew

theorem mem_rows_audit {log : AuditLog} {row : Row}
    (hmem : row ∈ ((Op.insertAudit log).write cfg i s).rows i) : row ∈ s.rows i ∨ row = .auditLog log := by
  rw [Op.rows_write (by trivial)] at hmem
  rcases List.mem_append.mp hmem with hold | hnew
  · obtain ⟨old, hrows, rfl⟩ := List.mem_map.mp hold
    exact .inl hrows
  · exact .inr (List.mem_singleton.mp hnew)

theorem removeHardDeleteSource_follows {rs : List Record} {count : ℕ} :
    Follows cfg i d (fun s => records (s.rows i) = rs) (removeHardDeleteSource source user count)
      fun result s => result.2 = count ∧ Removed i source rs s := by
  refine .bind (Q := fun _ s => Open i d s ∧ records (s.rows i) = rs) (.read fun _ _ _ h => h) fun c => ?_
  refine .bind (Q := fun _ s => Open i d s ∧ records (s.rows i) = rs) ?_ fun revoked => ?_
  · refine follows_request (by trivial) fun s _ _ h _ => ?_
    rw [Op.records_write (by trivial) (by simp), h]
  refine .bind (Q := fun _ s => Open i d s ∧ records (s.rows i) = rs ∧
    ∀ user : TenantUser, .tenantUser user ∈ s.rows i → user.id ≠ source.id) ?_ fun _ => ?_
  · refine follows_request (by trivial) fun s _ _ h _ => ⟨?_, fun user hmem => ?_⟩
    · rw [Op.records_write (by trivial) (by simp), h]
    · obtain ⟨-, hother⟩ := mem_rows_deleted (by trivial) rfl rfl hmem (by simp)
      exact of_decide_eq_false hother
  refine .bind (Q := fun _ s => Open i d s ∧ Removed i source rs s) ?_ fun _ => ?_
  · refine follows_request (by trivial) fun s _ _ h _ => ⟨?_, fun user hmem => ?_, fun hmem => ?_⟩
    · rw [Op.records_write (by trivial) (by simp), h.1]
    · exact h.2 user (mem_rows_deleted (by trivial) rfl rfl hmem (by simp)).1
    · obtain ⟨-, hother⟩ := mem_rows_deleted (by trivial) rfl rfl hmem (by simp)
      exact of_decide_eq_false hother rfl
  refine .bind (Q := fun _ s => Open i d s ∧ Removed i source rs s) ?_ fun _ => ?_
  · refine follows_request (by trivial) fun s _ _ h _ => ⟨?_, fun user hmem => ?_, fun hmem => ?_⟩
    · rw [Op.records_write (by trivial) (by simp), h.records]
    · exact h.member user ((mem_rows_audit hmem).resolve_right (by simp))
    · exact h.account ((mem_rows_audit hmem).resolve_right (by simp))
  · exact .pure fun s h => ⟨h.1, rfl, h.2⟩

/-- The transaction's rows are those of a deletion that is done. -/
def Emptied (i : ℕ) (d : Store) (source : TenantUser) (target : Option ℕ) (count : ℕ) (s : Store) : Prop :=
  ∃ rs, Handed d rs source target count ∧ Removed i source rs s

theorem remove_follows {rs : List Record} {member : Option ℕ} {count : ℕ}
    (h : Handed d rs source member count) :
    Follows cfg i d (fun s => records (s.rows i) = rs) (removeHardDeleteSource source user count)
      fun result s => Emptied i d source member result.2 s := by
  refine removeHardDeleteSource_follows.conseq (fun _ h => h) (fun result s h' => ?_) fun _ _ h => h
  obtain ⟨hopen, hcount, hremoved⟩ := h'
  refine ⟨hopen, rs, ?_, hremoved⟩
  rw [hcount]
  exact h

theorem transferAndRemove_follows (htarget : ∀ member, target = some member → member.id ≠ source.id) :
    Follows cfg i d (fun s => records (s.rows i) = records d.committed)
      (transferAndRemove source target user)
      fun result s => Emptied i d source (target.map (·.id)) result.2 s := by
  refine .bind (Q := fun hasTable s => Open i d s ∧ records (s.rows i) = records d.committed ∧
    hasTable = (d.metadata source.tenantId).hasMetaTables) ?_ fun hasTable => ?_
  · refine follows_request (by trivial) fun s hasTable hopen h hanswer => ⟨?_, ?_⟩
    · rw [Op.records_write (by trivial) (by simp), h]
    · cases hanswer
      rw [hopen.metadata]
  cases hasTable with
  | false =>
    intro s h
    have htables : d.tables source.tenantId = [] := by rw [Store.tables, ← h.2.2]; rfl
    have hno (r : Record) : ownedBy source (d.tables source.tenantId) r = false := by
      simp [ownedBy, htables]
    have hzero : (records d.committed).countP (ownedBy source (d.tables source.tenantId)) = 0 :=
      List.countP_eq_zero.mpr fun r _ => by simp [hno r]
    have hself (r : Record) (_ : r ∈ records d.committed) :
        handOn source ((target.map (·.id)).getD source.id) (d.tables source.tenantId) r = r := by
      simp [handOn, hno r]
    have hhanded : Handed d (records d.committed) source (target.map (·.id)) 0 :=
      handed_of_loop htarget (by rw [List.map_congr_left hself, List.map_id']) hzero.symm fun _ => hzero
    exact remove_follows hhanded s ⟨h.1, h.2.1⟩
  | true =>
    refine .bind (Q := fun _ s => Open i d s ∧ records (s.rows i) = records d.committed ∧
      true = (d.metadata source.tenantId).hasMetaTables) ?_ fun hasColumn => ?_
    · refine follows_request (by trivial) fun s _ _ h _ => ⟨?_, h.2⟩
      rw [Op.records_write (by trivial) (by simp), h.1]
    cases hasColumn with
    | false => exact follows_fail
    | true =>
      refine .bind (Q := fun tables s => Open i d s ∧ records (s.rows i) = records d.committed ∧
        tables.map (·.name) = d.tables source.tenantId) ?_ fun tables => ?_
      · refine follows_request (by trivial) fun s tables hopen h hanswer => ⟨?_, ?_⟩
        · rw [Op.records_write (by trivial) (by simp), h.1]
        · cases hanswer
          rw [Store.tables, ← h.2, hopen.metadata]
          rfl
      · split
        · exact follows_fail
        · intro s h
          obtain ⟨hopen, hrs, htables⟩ := h
          refine (transferTables_follows htarget s ⟨hopen, hrs⟩).bind
            fun count s' h' => ?_
          obtain ⟨hopen', hrs', hcount, hnone⟩ := h'
          rw [htables] at hrs' hcount hnone
          rw [Nat.zero_add] at hcount
          exact remove_follows (handed_of_loop htarget rfl hcount hnone) s' ⟨hopen', hrs'⟩

/-- The answer to a deletion that succeeds, and what it has left. -/
def HardDeleted (d s : Store) (user : AuthenticatedUser) (userId : ℕ) (target : Option ℕ) (r : Response) :
    Prop :=
  ∃ source revoked count, .tenantUser source ∈ d.committed ∧ source.id = userId ∧
    user.tenantId = some source.tenantId ∧ r = .deleted userId revoked count ∧
    Conserved d s source target count

theorem conserved_of_commit {member : Option ℕ} {count : ℕ} (hopen : Open i d s)
    (h : Emptied i d source member count s) :
    Conserved d (Op.commit.write cfg i s) source member count := by
  obtain ⟨rs, hhanded, hremoved⟩ := h
  have hcommitted : (Op.commit.write cfg i s).committed = s.rows i := hopen.commit
  have htables : (Op.commit.write cfg i s).tables source.tenantId = d.tables source.tenantId := by
    rw [Op.write_tables, Store.tables, hopen.metadata, Store.tables]
  exact {
    handedOn := by rw [hcommitted, hremoved.records, hhanded.records]
    noneLeft := by
      rw [hcommitted, hremoved.records, htables]
      exact hhanded.noneLeft
    counted := hhanded.counted
    metadata := hopen.metadata
    member := by
      rw [hcommitted]
      exact hremoved.member
    account := by
      rw [hcommitted]
      exact hremoved.account }

theorem follows_commit {P : Store → Prop} {Q : Store → Prop}
    (hok : ∀ s, Open i d s → P s → Q (Op.commit.write cfg i s)) :
    Outline (aloneRules cfg i) (fun s => Open i d s ∧ P s) (request .commit) (fun _ => Q)
      fun _ s => Open i d s := by
  refine .await (alone_stable _) (fun _ => alone_stable _) (fun _ => alone_stable _) ?_ ?_
  · rintro s s' a ⟨hs, hp⟩ ⟨outside, hperform⟩
    rcases Op.commit.perform_cases cfg i outside s with ⟨e, he⟩ | ⟨-, b, -, he⟩
    · cases he.symm.trans hperform
    · cases he.symm.trans hperform
      exact ⟨trivial, hok s hs hp⟩
  · rintro s s' e ⟨hs, -⟩ ⟨outside, hperform⟩
    rcases Op.commit.perform_cases cfg i outside s with ⟨e, he⟩ | ⟨-, b, -, he⟩
    · cases he.symm.trans hperform
      exact ⟨trivial, hs⟩
    · cases he.symm.trans hperform

theorem hardDelete_follows (htarget : ∀ member, target = some member → member.id ≠ source.id)
    (hsource : .tenantUser source ∈ d.committed) (htenant : user.tenantId = some source.tenantId) :
    Outline (aloneRules cfg i) (fun s => Open i d s ∧ s.rows i = d.committed)
      (hardDelete source target user)
      (fun r s => HardDeleted d s user source.id (target.map (·.id)) r) fun _ s => Open i d s := by
  have hrecords (op : Op) (hop : op.Inside)
      (hother : ∀ tenantId table owner target, op ≠ .transferRecords tenantId table owner target) :
      Follows cfg i d (fun s => records (s.rows i) = records d.committed) (request op)
        fun _ s => records (s.rows i) = records d.committed :=
    follows_request hop fun s _ _ h _ => by rw [op.records_write hop hother, h]
  refine .pre (P := fun s => Open i d s ∧ records (s.rows i) = records d.committed) ?_
    fun s h => ⟨h.1, by rw [h.2]⟩
  refine .bind (hrecords _ (by trivial) (by simp)) fun locked => ?_
  cases locked with
  | false => exact follows_fail
  | true =>
    refine .bind (Q := fun _ s => Open i d s ∧ records (s.rows i) = records d.committed) ?_ fun _ => ?_
    · cases target with
      | none => exact .pure fun _ h => h
      | some member =>
        refine .bind (hrecords _ (by trivial) (by simp)) fun locked => ?_
        cases locked with
        | false => exact follows_fail
        | true => exact .pure fun _ h => h
    · refine .bind (transferAndRemove_follows htarget) fun result => ?_
      refine .bind (Q := fun _ s => Conserved d s source (target.map (·.id)) result.2)
        (follows_commit fun s hopen h => conserved_of_commit hopen h) fun _ => ?_
      exact .pure fun s h => ⟨source, result.1, result.2, hsource, rfl, htenant, rfl, h⟩

theorem mem_of_findUser {p : TenantUser → Bool} {member : TenantUser} (hrows : s.rows i = d.committed)
    (h : s.findUser i p = some member) : .tenantUser member ∈ d.committed ∧ p member = true := by
  obtain ⟨row, hrow, huser⟩ := Option.bind_eq_some_iff.mp h
  have hmem := List.mem_of_mem_head? hrow
  rw [visible_rows, hrows] at hmem
  obtain ⟨hmem, hp⟩ := List.mem_filter.mp hmem
  cases row with
  | tenantUser member' =>
    cases huser
    exact ⟨hmem, hp⟩
  | _ => cases huser

theorem requireTenantActor_follows {P : Store → Prop} :
    Follows cfg i d P (requireTenantActor user) fun tenantId s => P s ∧ user.tenantId = some tenantId := by
  unfold requireTenantActor
  split
  · rename_i tenantId htype htenant
    split
    · exact follows_fail
    · exact .pure fun s h => ⟨h.1, h.2, htenant⟩
  · exact follows_fail

theorem deleteUser_follows {userId : ℕ} {transferToUserId : Option ℕ} :
    Outline (aloneRules cfg i) (fun s => Open i d s ∧ s.rows i = d.committed)
      (deleteUser userId transferToUserId user)
      (fun r s => HardDeleted d s user userId transferToUserId r) fun _ s => Open i d s := by
  refine .bind requireTenantActor_follows fun tenantId => ?_
  refine .bind (Q := fun _ s => Open i d s ∧ s.rows i = d.committed ∧ user.tenantId = some tenantId) ?_
    fun _ => ?_
  · unfold permissionsGuard
    split
    · exact .pure fun _ h => h
    · exact follows_fail
  refine .bind (Q := fun found s => Open i d s ∧ s.rows i = d.committed ∧ user.tenantId = some tenantId ∧
    ∀ source, found = some source → .tenantUser source ∈ d.committed ∧ source.id = userId ∧
      source.tenantId = tenantId) ?_ fun found => ?_
  · refine follows_request (by trivial) fun s found _ h hanswer => ⟨?_, h.2, fun source hfound => ?_⟩
    · rw [rows_reading (by trivial) (fun _ => rfl) rfl, h.1]
    · cases hanswer
      obtain ⟨hmem, hp⟩ := mem_of_findUser h.1 hfound
      simp only [Bool.and_eq_true, decide_eq_true_eq] at hp
      exact ⟨hmem, hp⟩
  cases found with
  | none => exact follows_fail
  | some source =>
    intro s h
    obtain ⟨hopen, hrows, htenant, hfound⟩ := h
    obtain ⟨hsource, rfl, rfl⟩ := hfound source rfl
    dsimp only
    split
    · exact hopen
    · split
      · exact hopen
      · cases transferToUserId with
        | none =>
          have hnone : ∀ member : TenantUser, none = some member → member.id ≠ source.id := by simp
          exact hardDelete_follows hnone hsource htenant s ⟨hopen, hrows⟩
        | some targetUserId =>
          have hresolve : Follows cfg i d (fun s => s.rows i = d.committed)
              (resolveActiveTransferTarget targetUserId source source.tenantId)
              fun target s => s.rows i = d.committed ∧ target.id = targetUserId ∧
                target.id ≠ source.id := by
            unfold resolveActiveTransferTarget
            split
            · exact follows_fail
            · rename_i hne
              refine .bind (Q := fun found s => Open i d s ∧ s.rows i = d.committed ∧
                ∀ target, found = some target → target.id = targetUserId) ?_ fun found => ?_
              · refine follows_request (by trivial) fun s found _ h hanswer => ⟨?_, fun target hfound => ?_⟩
                · rw [rows_reading (by trivial) (fun _ => rfl) rfl, h]
                · cases hanswer
                  obtain ⟨-, hp⟩ := mem_of_findUser h hfound
                  simp only [Bool.and_eq_true, decide_eq_true_eq] at hp
                  exact hp.1.1.1
              · cases found with
                | none => exact follows_fail
                | some target =>
                  refine .pure fun s h => ⟨h.1, h.2.1, h.2.2 target rfl, ?_⟩
                  rw [h.2.2 target rfl]
                  exact hne
          refine (hresolve s ⟨hopen, hrows⟩).bind fun target s' h => ?_
          obtain ⟨hopen', hrows', rfl, hne⟩ := h
          have htarget : ∀ member, some target = some member → member.id ≠ source.id := by
            intro member hmember
            cases hmember
            exact hne
          exact hardDelete_follows htarget hsource htenant s' ⟨hopen', hrows'⟩

end

/-! ### The request -/

theorem code_follows {cfg : Config} {i : ℕ} {d : Store} {userId : ℕ} {transferToUserId : Option ℕ}
    {user : AuthenticatedUser} (hsettled : ∀ c ∈ d.cells, c.pending = none) :
    Safe (aloneRules cfg i) (fun r s => HardDeleted d s user userId transferToUserId r)
      (fun _ s => Open i d s) ((Request.deleteUser userId transferToUserId user).code cfg) d := by
  have hguard : Follows cfg i d (fun s => s.rows i = d.committed) (jwtAuthGuard user)
      fun _ s => s.rows i = d.committed := by
    unfold jwtAuthGuard
    split
    · exact .pure fun _ h => h
    · exact .pure fun _ h => h
    · refine .bind (follows_reading (P := (· = d.committed)) (by trivial) (fun _ => rfl) rfl) fun active => ?_
      split
      · exact .pure fun _ h => h
      · exact follows_fail
  exact (hguard.bind fun _ => deleteUser_follows) d ⟨.of_settled hsettled, rows_of_settled hsettled⟩

def isOk {α : Type} : Thread Op Op.Res Context ServiceError α → Bool
  | .finished (.ok _) => true
  | _ => false

/-- What a request on its own has come to. -/
def Course (cfg : Config) (i : ℕ) (d : Store) (user : AuthenticatedUser) (userId : ℕ) (target : Option ℕ)
    (t : Thread Op Op.Res Context ServiceError Response) (s : Store) : Prop :=
  if isError t then Unchanged d s
  else t.Safe (aloneRules cfg i) (fun r s => HardDeleted d s user userId target r) (fun _ s => Open i d s) s

section
variable {cfg : Config} {i : ℕ} {d : Store} {user : AuthenticatedUser} {userId : ℕ} {target : Option ℕ}
  {t : Thread Op Op.Res Context ServiceError Response} {s : Store}

/-- What is thrown rolls the transaction back. -/
theorem course_of_safe (h : t.Safe (aloneRules cfg i) (fun r s => HardDeleted d s user userId target r)
    (fun _ s => Open i d s) s) :
    Course cfg i d user userId target t (if isError t then s.rollback i else s) := by
  unfold Course
  split
  · rename_i herror
    cases t with
    | finished r =>
      cases r with
      | ok a => cases herror
      | error e => exact Open.rollback h
    | _ => cases herror
  · exact h

theorem safe_of_course (h : Course cfg i d user userId target t s) (ht : t.op? ≠ none) :
    t.Safe (aloneRules cfg i) (fun r s => HardDeleted d s user userId target r) (fun _ s => Open i d s) s := by
  have hgoing : isError t = false := by
    cases t with
    | finished r => exact absurd rfl ht
    | _ => rfl
  rwa [Course, hgoing] at h

theorem course_of_arrival {c : Context} {transferToUserId : Option ℕ}
    (hsettled : ∀ c ∈ d.cells, c.pending = none) :
    Course cfg i d user userId transferToUserId
      (((Request.deleteUser userId transferToUserId user).code cfg).advance c) d := by
  unfold Course
  split
  · exact ⟨rfl, rfl, rfl, hsettled⟩
  · exact .advance trivial (code_follows hsettled)

end

section
variable {cfg : Config} {i : ℕ} {d : Store} {user : AuthenticatedUser} {userId : ℕ} {target : Option ℕ}
  {s s' : State} {e : Event} {r : Request}

theorem course_step
    (h : ∃ t, s.requests[i]? = some ⟨r, t⟩ ∧ Course cfg i d user userId target t s.store)
    (halone : Alone i s e) (hs : step cfg s e = some s') :
    ∃ t, s'.requests[i]? = some ⟨r, t⟩ ∧ Course cfg i d user userId target t s'.store := by
  obtain ⟨t, ht, hcourse⟩ := h
  have hlt : i < s.requests.length := (List.getElem?_eq_some_iff.mp ht).1
  cases e with
  | arrive r c => exact halone.elim
  | execute j outside =>
    obtain rfl : j = i := halone
    rw [step, ht] at hs
    split at hs
    · rename_i r' op k hi
      cases hi
      split at hs
      · cases hs
      · cases hs
        have hsafe := safe_of_course hcourse (by simp [Thread.op?])
        have hnext := (hsafe s.store .refl _ _
          ⟨outside, (Prod.mk.eta (p := op.perform cfg j outside s.store)).symm⟩).2
        exact ⟨_, List.getElem?_set_self hlt, hnext⟩
    · cases hs
  | deliver j c =>
    obtain rfl : j = i := halone
    rw [step, ht] at hs
    split at hs
    · rename_i r' op answer k hi
      cases hi
      cases hs
      have hsafe := safe_of_course hcourse (by simp [Thread.op?])
      exact ⟨_, List.getElem?_set_self hlt, course_of_safe (.advance trivial (hsafe s.store .refl))⟩
    · cases hs
  | tick n =>
    cases hs
    exact ⟨t, ht, hcourse⟩

theorem course_of_run {s₀ s₁ : State} {c : Context} {transferToUserId : Option ℕ}
    (hsettled : ∀ c ∈ s₀.store.cells, c.pending = none)
    (harrive : step cfg s₀ (.arrive (.deleteUser userId transferToUserId user) c) = some s₁)
    (hrun : Reach (step cfg) (Alone s₀.requests.length) s₁ s) :
    ∃ t, s.requests[s₀.requests.length]? = some ⟨.deleteUser userId transferToUserId user, t⟩ ∧
      Course cfg s₀.requests.length s₀.store user userId transferToUserId t s.store := by
  have hstart : ∃ t, s₁.requests[s₀.requests.length]? =
      some ⟨.deleteUser userId transferToUserId user, t⟩ ∧
        Course cfg s₀.requests.length s₀.store user userId transferToUserId t s₁.store := by
    rw [step] at harrive
    split at harrive
    · cases harrive
      exact ⟨_, List.getElem?_concat_length, course_of_arrival hsettled⟩
    · cases harrive
  exact hrun.invariant hstart fun s s' e _ h halone hs => course_step h halone hs

end

/-- Alone, a hard deletion that succeeds hands on exactly the member's records and removes
the member, and one that fails changes nothing. -/
theorem hard_delete_conserves (cfg : Config) (s₀ s₁ s : State) (userId : ℕ) (transferToUserId : Option ℕ)
    (user : AuthenticatedUser) (c : Context) (hsettled : ∀ c ∈ s₀.store.cells, c.pending = none)
    (harrive : step cfg s₀ (.arrive (.deleteUser userId transferToUserId user) c) = some s₁)
    (hrun : Reach (step cfg) (Alone s₀.requests.length) s₁ s)
    (answer : Except ServiceError Response)
    (hanswer : s.requests[s₀.requests.length]? =
      some ⟨.deleteUser userId transferToUserId user, .finished answer⟩) :
    (∀ r, answer = .ok r → HardDeleted s₀.store s.store user userId transferToUserId r) ∧
      ∀ e, answer = .error e → Unchanged s₀.store s.store := by
  obtain ⟨t, ht, hcourse⟩ := course_of_run hsettled harrive hrun
  obtain rfl : t = .finished answer := by
    cases ht.symm.trans hanswer
    rfl
  constructor
  · rintro r rfl
    exact hcourse
  · rintro e rfl
    exact hcourse

/-- Ann gets the row that Bob had. -/
theorem hard_delete_conserves_acme : ∃ s₀ s : State, ∃ r,
    runAll (step plainConfig) acme ([bobAdds] ++ calls 0 4) = some s₀ ∧
      (records s₀.store.committed).map (·.owner) = [5] ∧
      HardDeleted s₀.store s.store Accounts.ann 5 (some 4) r := by
  have htest : ((runAll (step plainConfig) acme ([bobAdds] ++ calls 0 4)).any fun s₀ =>
      s₀.requests.length = 1 && s₀.store.cells.all (fun c => c.pending.isNone) &&
      (records s₀.store.committed).map (·.owner) = [5] &&
      ((step plainConfig s₀ annRemovesBob).any fun s₁ =>
        (runAll (step plainConfig) s₁ (calls 1 16)).any fun s =>
          s.requests[1]?.any fun f => isOk f.thread)) = true := by
    decide +kernel
  obtain ⟨s₀, hs₀, htest⟩ := (Option.any_eq_true _ _).mp htest
  simp only [Bool.and_eq_true, decide_eq_true_eq] at htest
  obtain ⟨⟨⟨hlength, hsettled⟩, howners⟩, htest⟩ := htest
  obtain ⟨s₁, hs₁, htest⟩ := (Option.any_eq_true _ _).mp htest
  obtain ⟨s, hs, htest⟩ := (Option.any_eq_true _ _).mp htest
  obtain ⟨f, hf, hok⟩ := (Option.any_eq_true _ _).mp htest
  have hsettled (c : Cell Row) (hc : c ∈ s₀.store.cells) : c.pending = none :=
    Option.isNone_iff_eq_none.mp (List.all_eq_true.mp hsettled c hc)
  have halone (e : Event) (he : e ∈ calls 1 16) (s : State) : Alone s₀.requests.length s e := by
    rw [hlength]
    simp only [calls, List.mem_flatten, List.mem_replicate] at he
    obtain ⟨es, ⟨-, rfl⟩, he⟩ := he
    rcases List.mem_cons.mp he with rfl | he
    · rfl
    · cases List.mem_singleton.mp he
      rfl
  have hrun : Reach (step plainConfig) (Alone s₀.requests.length) s₁ s :=
    .of_runAll (.of_labels halone s₁) hs
  obtain ⟨t, ht, -⟩ := course_of_run hsettled hs₁ hrun
  obtain rfl : f = ⟨.deleteUser 5 (some 4) Accounts.ann, t⟩ := by
    rw [hlength] at ht
    exact Option.some.inj (hf.symm.trans ht)
  cases t with
  | finished answer =>
    cases answer with
    | ok r =>
      exact ⟨s₀, s, r, hs₀, howners,
        (hard_delete_conserves plainConfig s₀ s₁ s 5 (some 4) Accounts.ann { now := 0 } hsettled hs₁ hrun (.ok r) ht).1
          r rfl⟩
    | error e => cases hok
  | _ => cases hok

end Flexi.Ownership
