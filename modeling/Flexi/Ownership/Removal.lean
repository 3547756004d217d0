import Flexi.Ownership.Owners

/-!
# What a removal hands on

The statements keep `Owned`, each under what the code has made sure of before it.
-/

namespace Flexi.Ownership
open Flexi.Library
open Accounts (ServiceError TenantUser)

section
variable {cfg : Config} {i j k : ℕ} {op : Op} {s s' : Store} {c c' : Cell Row} {look : Look}

/-- A history entry is old, or that of a count of none or of a transfer. -/
theorem Op.mem_looked (h : look ∈ (op.write cfg i s).looked) : look ∈ s.looked ∨
    look.transaction = i ∧
      ((op = .countRecords look.tenantId look.table look.owner ∧
          s.countRecords i look.tenantId look.table look.owner = 0) ∨
        ∃ target, op = .transferRecords look.tenantId look.table look.owner target) := by
  cases op with
  | countRecords tenantId table owner =>
    rw [write] at h
    split at h
    · rename_i hcount
      rcases List.mem_append.mp h with hold | hnew
      · exact .inl hold
      · cases List.mem_singleton.mp hnew
        exact .inr ⟨rfl, .inl ⟨rfl, hcount⟩⟩
    · exact .inl h
  | transferRecords tenantId table owner target =>
    rcases List.mem_append.mp h with hold | hnew
    · exact .inl hold
    · cases List.mem_singleton.mp hnew
      exact .inr ⟨rfl, .inr ⟨target, rfl⟩⟩
  | commit => exact .inl (List.mem_filter.mp h).1
  | _ => exact .inl h

theorem Op.committed_cases (hop : op ≠ .commit) (hc' : (op.write cfg i s).cells[k]? = some c')
    {r : Record} (hr : c'.committed = some (.record r)) :
    (∃ c, s.cells[k]? = some c ∧ c' = op.cell i c ∧ c.committed = some (.record r)) ∨
      op = .insertRow r.tenantId r.table r.values r.owner := by
  rcases op.write_cases hc' with ⟨c, hc, rfl⟩ | hnew
  · exact .inl ⟨c, hc, rfl, by rw [← op.cell_committed hop, hr]⟩
  · cases op with
    | insertRow =>
      cases hnew
      cases hr
      exact .inr rfl
    | insertAudit =>
      cases hnew
      cases hr
    | _ => cases hnew

theorem Op.cell_record {r' : Record} (hop : op ≠ .commit) (hp : c.pending = some (i, .record r')) :
    ∃ r'', (op.cell i c).pending = some (i, .record r'') := by
  rcases op.cell_cases i c with he | ⟨change, row, hchange, hsee, hrow, he⟩ | ⟨hcommit, -⟩
  · exact ⟨r', by rw [he, hp]⟩
  · rcases Cell.see_cases i c with ⟨v, hv, hsee'⟩ | ⟨hno, -⟩
    · cases hv.symm.trans hp
      cases hsee'.symm.trans hsee
      obtain ⟨owner, hset⟩ := (op.change?_becomes hchange hrow).of_record
      exact ⟨_, by rw [he, hset]⟩
    · exact absurd hp (hno _)
  · exact absurd hcommit hop

/-- After a look every row of the owner in the table is in the transaction's hands. -/
theorem Op.cell_looked (hv : Versions c)
    (hlook : (op = .countRecords look.tenantId look.table look.owner ∧
        s.countRecords i look.tenantId look.table look.owner = 0) ∨
      ∃ target, op = .transferRecords look.tenantId look.table look.owner target)
    {r : Record} (hc : s.cells[k]? = some c) (hr : c.committed = some (.record r))
    (htenant : r.tenantId = look.tenantId) (htable : r.table = look.table) (howner : r.owner = look.owner) :
    ∃ r', (op.cell i c).pending = some (i, .record r') := by
  have hmatch : isRecord look.tenantId look.table look.owner (.record r) = true := by
    simp [isRecord, htenant, htable, howner]
  have hop : op ≠ .commit := by
    rintro rfl
    rcases hlook with ⟨h, -⟩ | ⟨target, h⟩ <;> cases h
  rcases Cell.see_cases i c with ⟨v, hp, -⟩ | ⟨-, hsee⟩
  · -- the row has been handed on before
    rcases hv i v hp with ⟨hnone, -⟩ | ⟨old, hold, hbecomes⟩
    · cases hnone.symm.trans hr
    · cases hold.symm.trans hr
      obtain ⟨owner, rfl⟩ := hbecomes.of_record
      exact Op.cell_record hop hp
  · rw [hr] at hsee
    rcases hlook with ⟨rfl, hcount⟩ | ⟨target, rfl⟩
    · have hmem : Row.record r ∈ s.cells.visible i (isRecord look.tenantId look.table look.owner) :=
        Cells.mem_visible.mpr ⟨k, c, hc, hsee, hmatch⟩
      rw [List.eq_nil_of_length_eq_zero hcount] at hmem
      cases hmem
    · exact ⟨{ r with owner := target }, Op.cell_match hop rfl hsee hmatch⟩

/-! ### Statements before the commit -/

theorem Owned.handed_write (h : Owned s) (hallowed : op.Allowed i s) (hop : op ≠ .commit)
    (hfree : op.waits i s = false) {r : Record} (hc' : (op.write cfg i s).cells[k]? = some c')
    (hp : c'.pending = some (j, .record r)) : Held (op.write cfg i s) j r.tenantId r.owner false := by
  rcases op.write_cases hc' with ⟨c, hc, rfl⟩ | hnew
  · by_cases hji : j = i
    · subst hji
      rcases op.cell_cases j c with he | ⟨change, row, hchange, hsee, hrow, he⟩ | ⟨hcommit, -⟩
      · rw [he] at hp
        refine (h.handed k c j r hc hp).lock hallowed hop ?_
        rintro rfl
        exact hallowed.1 k c r hc hp rfl
      · -- the statement hands the row on
        rw [he] at hp
        have hset := (Prod.mk.inj (Option.some.inj hp)).2
        have htarget : ∃ tenantId table owner target, op = .transferRecords tenantId table owner target ∧
            r.tenantId = tenantId ∧ r.owner = target := by
          cases op with
          | transferRecords tenantId table owner target =>
            cases hchange
            cases row with
            | record r₀ =>
              cases hset
              simp only [isRecord, Bool.and_eq_true, decide_eq_true_eq] at hrow
              exact ⟨tenantId, table, owner, target, rfl, hrow.1.1, rfl⟩
            | _ => cases hrow
          | lockSource | lockTarget =>
            cases hchange
            cases (show row = .record r from hset)
            cases hrow
          | revokeSessions =>
            cases hchange
            cases row with
            | refreshToken token => cases hset
            | _ => cases hrow
          | deleteMember | deleteAccount =>
            cases hchange
            cases hset
          | _ => cases hchange
        obtain ⟨tenantId, table, owner, target, rfl, rfl, rfl⟩ := htarget
        exact hallowed.2.lock hallowed hop nofun
      · exact absurd hcommit hop
    · have hsame := Op.cell_pending hji hp
      rw [hsame] at hp
      exact (h.handed k c j r hc hp).apart (Op.write_apart hji hfree)
  · cases op with
    | insertRow | insertAudit =>
      cases hnew
      cases hp
    | _ => cases hnew

theorem Owned.looking_write (h : Owned s) (hallowed : op.Allowed i s) (hop : op ≠ .commit)
    (hfree : op.waits i s = false) (hlook : look ∈ (op.write cfg i s).looked) :
    ∃ removed, Held (op.write cfg i s) look.transaction look.tenantId look.owner removed := by
  rcases op.mem_looked hlook with hold | ⟨rfl, hnew⟩
  · obtain ⟨removed, hheld⟩ := h.looking look hold
    by_cases hi : look.transaction = i
    · rw [hi] at hheld ⊢
      exact hheld.write hop
    · exact ⟨removed, hheld.apart (Op.write_apart hi hfree)⟩
  · rcases hnew with ⟨rfl, -⟩ | ⟨target, rfl⟩
    · exact Held.write hallowed hop
    · exact Held.write hallowed.1 hop

theorem Owned.passed_write (h : Owned s) (hallowed : op.Allowed i s) (hop : op ≠ .commit)
    (hfree : op.waits i s = false) (hlook : look ∈ (op.write cfg i s).looked)
    (hc' : (op.write cfg i s).cells[k]? = some c') {r : Record} (hr : c'.committed = some (.record r))
    (htenant : r.tenantId = look.tenantId) (htable : r.table = look.table) (howner : r.owner = look.owner) :
    ∃ r', c'.pending = some (look.transaction, .record r') := by
  rcases op.committed_cases hop hc' hr with ⟨c, hc, rfl, hr₀⟩ | rfl
  · rcases op.mem_looked hlook with hold | ⟨rfl, hnew⟩
    · obtain ⟨r', hp⟩ := h.passed look hold k c r hc hr₀ htenant htable howner
      by_cases hi : look.transaction = i
      · rw [hi] at hp ⊢
        exact Op.cell_record hop hp
      · exact ⟨r', by rw [Op.cell_apart hi hfree hc hp, hp]⟩
    · exact Op.cell_looked (h.versions k c hc) hnew hc hr₀ htenant htable howner
  · -- a row is not inserted where a removal has looked
    exact absurd ⟨htenant.symm, htable.symm, howner.symm⟩ (hallowed.2 look hlook)

theorem Owned.removed_write (h : Owned s) (hallowed : op.Allowed i s) (hop : op ≠ .commit)
    (hfree : op.waits i s = false) {tenantId : String} {userId : ℕ}
    (hheld : Held (op.write cfg i s) j tenantId userId true) :
    ∀ table ∈ (op.write cfg i s).tables tenantId, ⟨j, tenantId, userId, table⟩ ∈ (op.write cfg i s).looked := by
  rw [Op.write_tables]
  by_cases hji : j = i
  · subst hji
    obtain ⟨k, c', user, hc', hcommitted, hid, htenant, hp⟩ := hheld
    have hp : c'.pending = some (j, .deleted) := hp
    rcases op.write_cases hc' with ⟨c, hc, rfl⟩ | hnew
    · rw [op.cell_committed hop] at hcommitted
      rcases op.cell_cases j c with he | ⟨change, row, hchange, hsee, hrow, he⟩ | ⟨hcommit, -⟩
      · rw [he] at hp
        intro table htable
        exact Op.looked_mono hop (h.removed j tenantId userId ⟨k, c, user, hc, hcommitted, hid, htenant, hp⟩
          table htable)
      · have huser : row = .tenantUser user := by
          rcases (h.versions k c hc).see hsee with ⟨log, rfl⟩ | ⟨old, hold, hbecomes⟩
          · exact absurd rfl ((op.change?_stands hchange hrow).2 log)
          · cases hold.symm.trans hcommitted
            exact hbecomes.of_user.resolve_right (op.change?_stands hchange hrow).1
        subst huser
        rw [he] at hp
        have hset := (Prod.mk.inj (Option.some.inj hp)).2
        cases op with
        | deleteMember userId' =>
          cases hchange
          obtain ⟨-, tenantId', hlock, hall⟩ := hallowed
          have huserId : user.id = userId' := of_decide_eq_true hrow
          obtain ⟨k₁, c₁, user₁, hc₁, hcommitted₁, hid₁, htenant₁, -⟩ := hlock
          cases h.unique k k₁ c c₁ user user₁ hc hc₁ (.inl hcommitted) (.inl hcommitted₁)
            (.inl (huserId.trans hid₁.symm))
          cases hc.symm.trans hc₁
          cases hcommitted.symm.trans hcommitted₁
          rw [← htenant, ← hid, htenant₁, huserId]
          exact hall
        | deleteAccount authAccountId =>
          cases hchange
          exact absurd (of_decide_eq_true hrow) (hallowed k c user hc hsee)
        | lockSource | lockTarget =>
          cases hchange
          cases hset
        | transferRecords | revokeSessions =>
          cases hchange
          cases hrow
        | _ => cases hchange
      · exact absurd hcommit hop
    · exact absurd (.inl hcommitted) (Op.inserted_users hnew user)
  · have ha : Apart j s (op.write cfg i s) := Op.write_apart hji hfree
    intro table htable
    exact (ha.looked _ rfl).mpr (h.removed j tenantId userId (hheld.back ha) table htable)

theorem Owned.write (h : Owned s) (hallowed : op.Allowed i s) (hop : op ≠ .commit)
    (hfree : op.waits i s = false) : Owned (op.write cfg i s) where
  unique := h.unique.of_users fun _ _ _ hc' hu => Op.write_users hc' hu
  versions k c' hc' := by
    rcases op.write_cases hc' with ⟨c, hc, rfl⟩ | hnew
    · exact (h.versions k c hc).cell
    · exact Op.inserted_versions hnew
  owners k c' r hc' hr htable := by
    rw [Op.write_tables] at htable
    rcases op.committed_cases hop hc' hr with ⟨c, hc, rfl, hr₀⟩ | rfl
    · exact (h.owners k c r hc hr₀ htable).write hop
    · exact Member.write hallowed.1 hop
  handed k c' j r hc' hp := h.handed_write hallowed hop hfree hc' hp
  looking look hlook := h.looking_write hallowed hop hfree hlook
  passed look hlook k c' r hc' hr htenant htable howner :=
    h.passed_write hallowed hop hfree hlook hc' hr htenant htable howner
  removed j tenantId userId hheld := h.removed_write hallowed hop hfree hheld

/-! ### The end of a transaction -/

/-- What transaction `i` held is committed or given up. -/
structure Settles (i : ℕ) (s s' : Store) (settle : Cell Row → Cell Row) : Prop where
  cells : s'.cells = s.cells.map settle
  looked : s'.looked = s.looked.filter (·.transaction ≠ i)
  tables : s'.tables = s.tables
  cell : ∀ c, (∃ row, c.pending = some (i, row) ∧ (settle c).pending = none ∧
      ((settle c).committed = some row ∨ (settle c).committed = c.committed)) ∨
    (∀ row, c.pending ≠ some (i, row)) ∧ settle c = c

theorem settles_commit : Settles i s (Op.commit.write cfg i s) (·.commit i) where
  cells := rfl
  looked := rfl
  tables := rfl
  cell c := by
    rcases Cell.commit_cases i c with ⟨row, hp, he⟩ | ⟨hno, he⟩
    · exact .inl ⟨row, hp, by rw [he], .inl (by rw [he])⟩
    · exact .inr ⟨hno, he⟩

theorem settles_rollback : Settles i s (s.rollback i) (·.rollback i) where
  cells := rfl
  looked := rfl
  tables := rfl
  cell c := by
    rcases Cell.rollback_cases i c with ⟨row, hp, he⟩ | ⟨hno, he⟩
    · exact .inl ⟨row, hp, by rw [he], .inr (by rw [he])⟩
    · exact .inr ⟨hno, he⟩

namespace Settles

variable {settle : Cell Row → Cell Row}

theorem old (h : Settles i s s' settle) (hc' : s'.cells[k]? = some c') :
    ∃ c, s.cells[k]? = some c ∧ c' = settle c := by
  rw [h.cells, List.getElem?_map] at hc'
  obtain ⟨c, hc, rfl⟩ := Option.map_eq_some_iff.mp hc'
  exact ⟨c, hc, rfl⟩

theorem new (h : Settles i s s' settle) (hc : s.cells[k]? = some c) : s'.cells[k]? = some (settle c) := by
  rw [h.cells, List.getElem?_map, hc]
  rfl

theorem pending (h : Settles i s s' settle) {row : Row} (hp : (settle c).pending = some (j, row)) :
    j ≠ i ∧ settle c = c := by
  rcases h.cell c with ⟨row', -, hnone, -⟩ | ⟨hno, he⟩
  · cases hnone.symm.trans hp
  · refine ⟨?_, he⟩
    rintro rfl
    rw [he] at hp
    exact hno row hp

theorem other (h : Settles i s s' settle) (hne : j ≠ i) {row : Row} (hp : c.pending = some (j, row)) :
    settle c = c := by
  rcases h.cell c with ⟨row', hp', -, -⟩ | ⟨-, he⟩
  · cases hp.symm.trans hp'
    exact absurd rfl hne
  · exact he

theorem users (h : Settles i s s' settle) {user : TenantUser} (hc' : s'.cells[k]? = some c')
    (hu : c'.Holds (.tenantUser user)) : ∃ c, s.cells[k]? = some c ∧ c.Holds (.tenantUser user) := by
  obtain ⟨c, hc, rfl⟩ := h.old hc'
  refine ⟨c, hc, ?_⟩
  rcases h.cell c with ⟨row, hp, hnone, hcommitted⟩ | ⟨-, he⟩
  · rcases hu with hu | ⟨j, hu⟩
    · rcases hcommitted with hrow | hsame
      · cases hrow.symm.trans hu
        exact .inr ⟨i, hp⟩
      · exact .inl (hsame ▸ hu)
    · cases hnone.symm.trans hu
  · rwa [he] at hu

theorem apart (h : Settles i s s' settle) (hne : j ≠ i) : Apart j s s' where
  forth k c row hc hp := by rw [h.new hc, h.other hne hp]
  back k c' row hc' hp := by
    obtain ⟨c, hc, rfl⟩ := h.old hc'
    rw [hc, (h.pending hp).2]
  users k c' user hc' hu := h.users hc' hu
  looked look hlook := by
    have hother : look.transaction ≠ i := hlook ▸ hne
    simp [h.looked, hother]
  tables t := congrFun h.tables t

theorem owned (h : Settles i s s' settle) (hs : Owned s)
    (owners : ∀ (k : ℕ) (c : Cell Row) (r : Record), s.cells[k]? = some c →
      (settle c).committed = some (.record r) → r.table ∈ s.tables r.tenantId → Member s' r.tenantId r.owner)
    (passed : ∀ look ∈ s.looked, look.transaction ≠ i → ∀ (k : ℕ) (c : Cell Row) (r : Record),
      s.cells[k]? = some c → (settle c).committed = some (.record r) → r.tenantId = look.tenantId →
      r.table = look.table → r.owner = look.owner → c.committed = some (.record r)) : Owned s' where
  unique := hs.unique.of_users fun _ _ _ hc' hu => h.users hc' hu
  versions k c' hc' := by
    obtain ⟨c, hc, rfl⟩ := h.old hc'
    intro j new hp
    have hsame := (h.pending hp).2
    rw [hsame] at hp ⊢
    exact hs.versions k c hc j new hp
  owners k c' r hc' hr htable := by
    obtain ⟨c, hc, rfl⟩ := h.old hc'
    rw [h.tables] at htable
    exact owners k c r hc hr htable
  handed k c' j r hc' hp := by
    obtain ⟨c, hc, rfl⟩ := h.old hc'
    obtain ⟨hne, hsame⟩ := h.pending hp
    rw [hsame] at hp
    exact (hs.handed k c j r hc hp).apart (h.apart hne)
  looking look hlook := by
    rw [h.looked] at hlook
    obtain ⟨hold, hne⟩ := List.mem_filter.mp hlook
    obtain ⟨removed, hheld⟩ := hs.looking look hold
    exact ⟨removed, hheld.apart (h.apart (of_decide_eq_true hne))⟩
  passed look hlook k c' r hc' hr htenant htable howner := by
    rw [h.looked] at hlook
    obtain ⟨hold, hne⟩ := List.mem_filter.mp hlook
    have hne := of_decide_eq_true hne
    obtain ⟨c, hc, rfl⟩ := h.old hc'
    have hr₀ := passed look hold hne k c r hc hr htenant htable howner
    obtain ⟨r', hp⟩ := hs.passed look hold k c r hc hr₀ htenant htable howner
    exact ⟨r', by rw [h.other hne hp, hp]⟩
  removed j tenantId userId hheld table htable := by
    obtain ⟨k, c', user, hc', hcommitted, hid, htenant, hp⟩ := hheld
    obtain ⟨c, hc, rfl⟩ := h.old hc'
    obtain ⟨hne, hsame⟩ := h.pending hp
    rw [hsame] at hcommitted hp
    rw [h.tables] at htable
    rw [h.looked]
    have hold := hs.removed j tenantId userId ⟨k, c, user, hc, hcommitted, hid, htenant, hp⟩ table htable
    exact List.mem_filter.mpr ⟨hold, decide_eq_true hne⟩

end Settles

theorem Owned.rollback (h : Owned s) : Owned (s.rollback i) := by
  have hcommitted (c : Cell Row) : (c.rollback i).committed = c.committed := by
    rcases Cell.rollback_cases i c with ⟨row, -, he⟩ | ⟨-, he⟩ <;> rw [he]
  refine settles_rollback.owned h (fun k c r hc hr htable => ?_) fun look _ _ k c r _ hr _ _ _ => ?_
  · rw [hcommitted] at hr
    obtain ⟨k', c', user, hc', hu, hid, htenant⟩ := h.owners k c r hc hr htable
    exact ⟨k', _, user, settles_rollback.new hc', by rw [hcommitted, hu], hid, htenant⟩
  · rwa [hcommitted] at hr

/-- A member whose row is not removed by the transaction is one after its commit. -/
theorem Member.commit (h : Owned s) {tenantId : String} {userId : ℕ} (hm : Member s tenantId userId)
    (hkept : ¬ Held s i tenantId userId true) : Member (Op.commit.write cfg i s) tenantId userId := by
  obtain ⟨k, c, user, hc, hu, hid, htenant⟩ := hm
  refine ⟨k, _, user, settles_commit.new hc, ?_, hid, htenant⟩
  rcases Cell.commit_cases i c with ⟨row, hp, he⟩ | ⟨-, he⟩
  · rw [he]
    rcases h.versions k c hc i row hp with ⟨hnone, -⟩ | ⟨old, hold, hbecomes⟩
    · cases hnone.symm.trans hu
    · cases hold.symm.trans hu
      rcases hbecomes.of_user with rfl | rfl
      · rfl
      · exact absurd ⟨k, c, user, hc, hu, hid, htenant, hp⟩ hkept
  · rw [he, hu]

theorem Owned.commit (h : Owned s) : Owned (Op.commit.write cfg i s) := by
  have hcommit (c : Cell Row) {r : Record} (hr : (c.commit i).committed = some (.record r)) :
      c.pending = some (i, .record r) ∨
        (∀ row, c.pending ≠ some (i, row)) ∧ c.committed = some (.record r) := by
    rcases Cell.commit_cases i c with ⟨row, hp, he⟩ | ⟨hno, he⟩
    · rw [he] at hr
      cases hr
      exact .inl hp
    · rw [he] at hr
      exact .inr ⟨hno, hr⟩
  refine settles_commit.owned h (fun k c r hc hr htable => ?_)
    fun look hlook hne k c r hc hr htenant htable howner => ?_
  · rcases hcommit c hr with hp | ⟨hno, hr⟩
    · have hheld := h.handed k c i r hc hp
      exact hheld.member.commit h fun hremoved => Bool.false_ne_true (h.holder hheld hremoved).2
    · refine (h.owners k c r hc hr htable).commit h fun hremoved => ?_
      -- a removal has handed the row on
      have hlook := h.removed i r.tenantId r.owner hremoved r.table htable
      obtain ⟨r', hp⟩ := h.passed _ hlook k c r hc hr rfl rfl rfl
      exact hno _ hp
  · rcases hcommit c hr with hp | ⟨-, hr⟩
    · have hheld := h.handed k c i r hc hp
      obtain ⟨removed, hlooking⟩ := h.looking look hlook
      rw [howner] at hheld
      exact absurd (h.holder hlooking hheld).1 hne
    · exact hr

end

end Flexi.Ownership
