import Flexi.Accounts.Server
import Flexi.Library.Reach
import Flexi.Ownership.Removal

/-!
# Runs of row inserts and hard deletions

Each request's code keeps `Owned` beside the others, so every run does whose inserts are
for members that are not on the way out.
-/

namespace Flexi.Ownership
open Flexi.Library
open Accounts (AuthenticatedUser ServiceError TenantUser)
open DynamicTables (MetaTable)

/-! ### One request beside the others -/

def Op.TakesRow (s : Store) : Op → Prop
  | insertRow tenantId table _ owner => Takes s tenantId table owner
  | _ => True

/-- The rules of transaction `i`. -/
def rules (cfg : Config) (i : ℕ) : Rules Op Op.Res Context ServiceError Store where
  sees _ := True
  exec op s s' r := ∃ outside : Outside, (outside.fault = none → op.waits i s = false ∧ op.TakesRow s) ∧
    op.perform cfg i outside s = (r, s')
  interfere s s' := Apart i s s' ∧ Owned s'
  guarantee _ s' := Owned s'

/-- What other transactions leave as it is. -/
def Steady (i : ℕ) (P : Store → Prop) : Prop := ∀ s s', P s → Apart i s s' → P s'

/-- Nothing is asked of a failure: it ends in a rollback. -/
abbrev Outlined (cfg : Config) (i : ℕ) {α : Type} (P : Store → Prop) (p : Service α)
    (Q : α → Store → Prop) : Prop :=
  Outline (rules cfg i) (fun s => Owned s ∧ P s) p (fun a s => Owned s ∧ Q a s) fun _ _ => True

section
variable {cfg : Config} {i : ℕ} {op : Op} {s s' : Store}

theorem Steady.stable {P : Store → Prop} (h : Steady i P) :
    (rules cfg i).Stable fun s => Owned s ∧ P s :=
  fun s s' hs hi => ⟨hi.2, h s s' hs.2 hi.1⟩

theorem outline_request {P : Store → Prop} {Q : op.Res → Store → Prop} (hop : op ≠ .commit)
    (hP : Steady i P) (hQ : ∀ a, Steady i (Q a))
    (hallowed : ∀ s, Owned s → P s → op.TakesRow s → op.Allowed i s)
    (hok : ∀ s a, Owned s → P s → op.Allowed i s → op.answer cfg i s = .ok a → Q a (op.write cfg i s)) :
    Outlined cfg i P (request op) Q := by
  refine .await hP.stable (fun a => (hQ a).stable) (fun _ _ _ _ _ => trivial) ?_ ?_
  · rintro s s' a ⟨hs, hp⟩ ⟨outside, hcond, hperform⟩
    rcases op.perform_cases cfg i outside s with ⟨e, he⟩ | ⟨hfault, b, hb, he⟩
    · cases he.symm.trans hperform
    · cases he.symm.trans hperform
      obtain ⟨hfree, htakes⟩ := hcond hfault
      have hgranted := hallowed s hs hp htakes
      have howned : Owned (op.write cfg i s) := hs.write hgranted hop hfree
      exact ⟨howned, howned, hok s a hs hp hgranted hb⟩
  · rintro s s' e ⟨hs, hp⟩ ⟨outside, hcond, hperform⟩
    rcases op.perform_cases cfg i outside s with ⟨e, he⟩ | ⟨hfault, b, hb, he⟩
    · cases he.symm.trans hperform
      exact ⟨hs, trivial⟩
    · cases he.symm.trans hperform

theorem outline_commit {P : Store → Prop} (hP : Steady i P) :
    Outlined cfg i P (request .commit) fun _ _ => True := by
  refine .await hP.stable (fun a => Steady.stable fun _ _ h _ => h) (fun _ _ _ _ _ => trivial) ?_ ?_
  · rintro s s' a ⟨hs, -⟩ ⟨outside, -, hperform⟩
    rcases Op.commit.perform_cases cfg i outside s with ⟨e, he⟩ | ⟨-, b, -, he⟩
    · cases he.symm.trans hperform
    · cases he.symm.trans hperform
      exact ⟨hs.commit, hs.commit, trivial⟩
  · rintro s s' e ⟨hs, -⟩ ⟨outside, -, hperform⟩
    rcases Op.commit.perform_cases cfg i outside s with ⟨e, he⟩ | ⟨-, b, -, he⟩
    · cases he.symm.trans hperform
      exact ⟨hs, trivial⟩
    · cases he.symm.trans hperform

theorem outline_fail {α : Type} {P : Store → Prop} {Q : α → Store → Prop} {e : HttpError} :
    Outlined cfg i P (fail e) Q :=
  .throw fun _ _ => trivial

theorem outline_check {α : Type} {P : Store → Prop} {r : Except HttpError α} :
    Outlined cfg i P (check r) fun _ => P := by
  cases r with
  | ok a => exact .pure fun _ h => h
  | error e => exact outline_fail

theorem outline_read {P : Store → Prop} : Outlined cfg i P Prog.read fun _ => P :=
  .read fun _ _ _ h => h

/-! ### Facts of a transaction -/

/-- The transaction holds nothing yet. -/
def Fresh (i : ℕ) (s : Store) : Prop :=
  (∀ (k : ℕ) (c : Cell Row) (row : Row), s.cells[k]? = some c → c.pending ≠ some (i, row)) ∧
    ∀ look ∈ s.looked, look.transaction ≠ i

/-- The account is that of the source and of nobody else. -/
def Known (source : TenantUser) (s : Store) : Prop :=
  ∀ (k : ℕ) (c : Cell Row) (user : TenantUser), s.cells[k]? = some c → c.Holds (.tenantUser user) →
    user.authAccountId = source.authAccountId → user.id = source.id

/-- The rows of both members are held, and none has been handed to the source. -/
structure Removing (i : ℕ) (source : TenantUser) (target : Option TenantUser) (s : Store) : Prop where
  held : Held s i source.tenantId source.id false
  target : ∀ user, target = some user → Held s i source.tenantId user.id false ∧ user.id ≠ source.id
  known : Known source s
  moved : Moved s i source.id

/-- The transaction has looked through these tables. -/
def Looked (i : ℕ) (source : TenantUser) (tables : List String) (s : Store) : Prop :=
  ∀ table ∈ tables, ⟨i, source.tenantId, source.id, table⟩ ∈ s.looked

theorem steady_true : Steady i fun _ => True := fun _ _ h _ => h

theorem Steady.and {P Q : Store → Prop} (hP : Steady i P) (hQ : Steady i Q) :
    Steady i fun s => P s ∧ Q s :=
  fun s s' hs ha => ⟨hP s s' hs.1 ha, hQ s s' hs.2 ha⟩

theorem steady_fresh : Steady i (Fresh i) := by
  rintro s s' ⟨hcells, hlooked⟩ ha
  refine ⟨fun k c row hc hp => hcells k c row (ha.back k c row hc hp) hp, fun look hlook htransaction => ?_⟩
  exact hlooked look ((ha.looked look htransaction).mp hlook) htransaction

theorem steady_known (source : TenantUser) : Steady i (Known source) := by
  intro s s' h ha k c' user hc' hu haccount
  obtain ⟨c, hc, hold⟩ := ha.users k c' user hc' hu
  exact h k c user hc hold haccount

theorem steady_moved (owner : ℕ) : Steady i fun s => Moved s i owner :=
  fun _ _ h ha k c r hc hp => h k c r (ha.back k c _ hc hp) hp

theorem steady_held (tenantId : String) (userId : ℕ) (removed : Bool) :
    Steady i fun s => Held s i tenantId userId removed :=
  fun _ _ h ha => h.apart ha

theorem steady_removing (source : TenantUser) (target : Option TenantUser) :
    Steady i (Removing i source target) :=
  fun s s' h ha =>
    { held := h.held.apart ha
      target := fun user huser => ⟨(h.target user huser).1.apart ha, (h.target user huser).2⟩
      known := steady_known source s s' h.known ha
      moved := steady_moved source.id s s' h.moved ha }

theorem steady_looked (source : TenantUser) (tables : List String) : Steady i (Looked i source tables) :=
  fun _ _ h ha table htable => (ha.looked _ rfl).mpr (h table htable)

theorem steady_tables (tenantId : String) (P : List String → Prop) :
    Steady i fun s => P (s.tables tenantId) := by
  intro s s' h ha
  show P (s'.tables tenantId)
  rw [ha.tables]
  exact h

theorem Known.write {source : TenantUser} (h : Known source s) : Known source (op.write cfg i s) := by
  intro k c' user hc' hu haccount
  obtain ⟨c, hc, hold⟩ := op.write_users hc' hu
  exact h k c user hc hold haccount

theorem Looked.write {source : TenantUser} {tables : List String} (h : Looked i source tables s)
    (hop : op ≠ .commit) : Looked i source tables (op.write cfg i s) :=
  fun table htable => Op.looked_mono hop (h table htable)

/-- Rows are only handed to the target of a transfer. -/
theorem Moved.write {owner : ℕ} (h : Moved s i owner)
    (htransfer : ∀ tenantId table source target, op = .transferRecords tenantId table source target →
      target ≠ owner) : Moved (op.write cfg i s) i owner := by
  intro k c' r hc' hp
  rcases op.write_cases hc' with ⟨c, hc, rfl⟩ | hnew
  · rcases op.cell_cases i c with he | ⟨change, row, hchange, hsee, hrow, he⟩ | ⟨-, row, -, he⟩
    · rw [he] at hp
      exact h k c r hc hp
    · rw [he] at hp
      have hset := (Prod.mk.inj (Option.some.inj hp)).2
      cases op with
      | transferRecords tenantId table source target =>
        cases hchange
        cases row with
        | record r₀ =>
          cases hset
          exact htransfer tenantId table source target rfl
        | _ => cases hrow
      | lockSource | lockTarget =>
        cases hchange
        cases (show row = .record r from hset)
        cases hrow
      | revokeSessions =>
        cases hchange
        cases row with
        | refreshToken token => cases hset
        | _ => cases hrow
      | deleteMember | deleteAccount =>
        cases hchange
        cases hset
      | _ => cases hchange
    · rw [he] at hp
      cases hp
  · cases op with
    | insertRow | insertAudit =>
      cases hnew
      cases hp
    | _ => cases hnew

theorem Removing.write {source : TenantUser} {target : Option TenantUser} (h : Removing i source target s)
    (hallowed : op.Allowed i s) (hop : op ≠ .commit) (hdelete : ∀ userId, op ≠ .deleteMember userId)
    (htransfer : ∀ tenantId table owner user, op = .transferRecords tenantId table owner user →
      user ≠ source.id) : Removing i source target (op.write cfg i s) where
  held := h.held.lock hallowed hop (hdelete source.id)
  target user huser := ⟨(h.target user huser).1.lock hallowed hop (hdelete user.id), (h.target user huser).2⟩
  known := h.known.write
  moved := h.moved.write htransfer

/-! ### The code -/

section
variable {source : TenantUser} {target : Option TenantUser} {user : AuthenticatedUser}

theorem outline_plain {P : Store → Prop} (hop : op ≠ .commit) (hP : Steady i P)
    (hallowed : ∀ s, op.TakesRow s → op.Allowed i s)
    (hkeep : ∀ s, P s → op.Allowed i s → P (op.write cfg i s)) :
    Outlined cfg i P (request op) fun _ => P :=
  outline_request hop hP (fun _ => hP) (fun s _ _ => hallowed s)
    fun s _ _ hp hgranted _ => hkeep s hp hgranted

theorem outline_reading {P : Store → Prop} (hop : op ≠ .commit) (hP : Steady i P)
    (hallowed : ∀ s, op.Allowed i s) (hsame : ∀ s, op.write cfg i s = s) :
    Outlined cfg i P (request op) fun _ => P :=
  outline_plain hop hP (fun s _ => hallowed s) fun s hp _ => by rwa [hsame]

theorem jwtAuthGuard_outline {P : Store → Prop} (hP : Steady i P) :
    Outlined cfg i P (jwtAuthGuard user) fun _ => P := by
  unfold jwtAuthGuard
  split
  · exact .pure fun _ h => h
  · exact .pure fun _ h => h
  · refine .bind (outline_reading (by simp) hP (fun _ => trivial) fun _ => rfl) fun active => ?_
    split
    · exact .pure fun _ h => h
    · exact outline_fail

theorem permissionsGuard_outline {P : Store → Prop} {required : String} :
    Outlined cfg i P (permissionsGuard user required) fun _ => P := by
  unfold permissionsGuard
  split
  · exact .pure fun _ h => h
  · exact outline_fail

theorem createRow_outline {tableId : DynamicTables.Uuid} {payload : Json} {bytes : ℕ} :
    Outlined cfg i (fun _ => True) (createRow cfg tableId payload bytes user) fun _ _ => True := by
  have plain {op : Op} (hop : op ≠ .commit) (hallowed : ∀ s, op.TakesRow s → op.Allowed i s) :
      Outlined cfg i (fun _ => True) (request op) fun _ _ => True :=
    outline_plain hop steady_true hallowed fun _ _ _ => trivial
  refine .bind outline_check fun _ => .bind (Q := fun _ s => Owned s ∧ True) ?_ fun tenantId => ?_
  · unfold contextTenantId
    split
    · exact outline_fail
    · exact outline_fail
    · exact .pure fun _ h => h
  · refine .bind (plain (by simp) fun _ _ => trivial) fun found => ?_
    split
    · exact outline_fail
    · refine .bind (plain (by simp) fun _ _ => trivial) fun schema => .bind outline_check fun data =>
        .bind outline_check fun _ => .tryCatch (M := fun _ _ => True) ?_ fun _ => .throw fun _ _ => trivial
      refine .bind (Q := fun _ s => Owned s ∧ True) ?_ fun tenantUserId => ?_
      · unfold contextTenantUserId
        split
        · exact outline_fail
        · exact .pure fun _ h => h
      · refine .bind (plain (by simp) fun _ htakes => htakes) fun row => .pure fun _ h => h

theorem removeHardDeleteSource_outline {count : ℕ} :
    Outlined cfg i (fun s => Removing i source target s ∧ Looked i source (s.tables source.tenantId) s)
      (removeHardDeleteSource source user count) fun _ _ => True := by
  have hsteady : Steady i fun s => Removing i source target s ∧ Looked i source (s.tables source.tenantId) s := by
    intro s s' h ha
    refine ⟨steady_removing source target s s' h.1 ha, ?_⟩
    rw [ha.tables]
    exact steady_looked source _ s s' h.2 ha
  have hgone : Steady i fun s => Held s i source.tenantId source.id true ∧ Known source s :=
    (steady_held source.tenantId source.id true).and (steady_known source)
  refine .bind outline_read fun c => .bind (Q := fun _ s => Owned s ∧ Removing i source target s ∧
    Looked i source (s.tables source.tenantId) s) ?_ fun revoked => ?_
  · refine outline_plain (by simp) hsteady (fun _ _ => trivial) fun s h hgranted => ?_
    refine ⟨h.1.write hgranted (by simp) (by simp) (by simp), ?_⟩
    show Looked i source ((Op.write cfg i _ s).tables source.tenantId) _
    rw [Op.write_tables]
    exact h.2.write (by simp)
  refine .bind (Q := fun _ s => Owned s ∧ Held s i source.tenantId source.id true ∧ Known source s) ?_
    fun _ => ?_
  · refine outline_request (by simp) hsteady (fun _ => hgone) (fun s _ h _ => ?_) fun s _ _ h _ _ => ?_
    · exact ⟨h.1.moved, source.tenantId, h.1.held, h.2⟩
    · refine ⟨?_, h.1.known.write⟩
      obtain ⟨k, c, member, hc, hcommitted, hid, htenant, hp⟩ := h.1.held
      have hsee : c.see i = some (.tenantUser member) := by
        rw [Cell.see, hp]
        exact if_pos rfl
      have hop : Op.deleteMember source.id ≠ .commit := by simp
      refine ⟨k, _, member, Op.write_old hc, by rw [Op.cell_committed hop, hcommitted], hid, htenant, ?_⟩
      exact Op.cell_match hop rfl hsee (decide_eq_true hid)
  refine .bind (Q := fun _ s => Owned s ∧ True) ?_ fun _ => ?_
  · refine outline_request (by simp) hgone (fun _ => steady_true) (fun s hs h _ => ?_) fun _ _ _ _ _ _ => trivial
    intro k c member hc hsee haccount
    have hid := h.2 k c member hc (Cell.holds_of_see hsee) haccount
    obtain ⟨k', c', member', hc', hcommitted, hid', -, hp⟩ := h.1
    cases hs.unique k k' c c' member member' hc hc' (Cell.holds_of_see hsee) (.inl hcommitted)
      (.inl (hid.trans hid'.symm))
    cases hc.symm.trans hc'
    -- the transaction sees the row as deleted
    rw [Cell.see, hp] at hsee
    simp at hsee
  refine .bind (outline_plain (by simp) steady_true (fun _ _ => trivial) fun _ _ _ => trivial) fun _ => ?_
  exact .pure fun _ h => h

theorem transferTable_outline {tables : List String} {table : MetaTable} :
    Outlined cfg i (fun s => Removing i source target s ∧ Looked i source tables s)
      (transferTable source target user table)
      fun _ s => Removing i source target s ∧ Looked i source (tables ++ [table.name]) s := by
  have hsteady (tables : List String) : Steady i fun s => Removing i source target s ∧ Looked i source tables s :=
    (steady_removing source target).and (steady_looked source tables)
  have extend {s : Store} (h : Looked i source tables s)
      (hnew : ⟨i, source.tenantId, source.id, table.name⟩ ∈ s.looked) :
      Looked i source (tables ++ [table.name]) s := by
    intro name hname
    rcases List.mem_append.mp hname with hold | hlast
    · exact h name hold
    · cases List.mem_singleton.mp hlast
      exact hnew
  unfold transferTable
  cases hname : Tenancy.sanitizeIdentifier table.name with
  | error e => exact outline_fail
  | ok tableName =>
    obtain rfl := (Tenancy.sanitizeIdentifier_ok hname).1
    refine .bind (Q := fun count s => Owned s ∧ (Removing i source target s ∧ Looked i source tables s) ∧
      (count = 0 → ⟨i, source.tenantId, source.id, table.name⟩ ∈ s.looked)) ?_ fun count => ?_
    · refine outline_request (by simp) (hsteady tables) (fun count => (hsteady tables).and ?_)
        (fun s _ h _ => h.1.held) fun s count _ h hgranted hanswer => ?_
      · exact fun s s' h ha hcount => (ha.looked _ rfl).mpr (h hcount)
      · refine ⟨⟨h.1.write hgranted (by simp) (by simp) (by simp), h.2.write (by simp)⟩, fun hcount => ?_⟩
        cases hanswer
        have hwrite : (Op.countRecords source.tenantId table.name source.id).write cfg i s =
            { s with looked := s.looked ++ [⟨i, source.tenantId, source.id, table.name⟩] } := if_pos hcount
        rw [hwrite]
        exact List.mem_append_right _ List.mem_cons_self
    · split
      · rename_i hcount
        exact .pure fun s h => ⟨h.1, h.2.1.1, extend h.2.1.2 (h.2.2 hcount)⟩
      · cases target with
        | none => exact outline_fail
        | some member =>
          refine .bind (Q := fun _ s => Owned s ∧ Removing i source (some member) s ∧
            Looked i source (tables ++ [table.name]) s) ?_ fun _ => ?_
          · refine .pre (P := fun s => Owned s ∧ Removing i source (some member) s ∧ Looked i source tables s)
              ?_ fun s h => ⟨h.1, h.2.1⟩
            refine outline_request (by simp) (hsteady tables) (fun _ => hsteady _)
              (fun s _ h _ => ⟨h.1.held, (h.1.target member rfl).1⟩) fun s _ _ h hgranted _ => ?_
            refine ⟨h.1.write hgranted (by simp) (by simp) fun _ _ _ _ he => ?_, extend (h.2.write (by simp)) ?_⟩
            · cases he
              exact (h.1.target member rfl).2
            · exact List.mem_append_right _ List.mem_cons_self
          · refine .bind outline_read fun c => .bind (outline_plain (by simp) (hsteady _)
              (fun _ _ => trivial) fun s h hgranted => ?_) fun _ => .pure fun _ h => h
            exact ⟨h.1.write hgranted (by simp) (by simp) (by simp), h.2.write (by simp)⟩

theorem transferTables_outline {tables : List MetaTable} {before : List String} {count : ℕ} :
    Outlined cfg i (fun s => Removing i source target s ∧ Looked i source before s)
      (transferTables source target user tables count)
      fun _ s => Removing i source target s ∧ Looked i source (before ++ tables.map (·.name)) s := by
  induction tables generalizing before count with
  | nil =>
    refine .pure fun s h => ⟨h.1, h.2.1, ?_⟩
    rw [List.map_nil, List.append_nil]
    exact h.2.2
  | cons table tables ih =>
    refine .bind transferTable_outline fun recordCount => ?_
    refine ih.conseq (fun _ h => h) (fun _ s h => ?_) fun _ _ _ => trivial
    rw [List.append_assoc] at h
    exact h

theorem transferAndRemove_outline :
    Outlined cfg i (Removing i source target) (transferAndRemove source target user) fun _ _ => True := by
  have hsteady := steady_removing (i := i) source target
  have hlooked (tables : List String) :
      Steady i fun s => Removing i source target s ∧ s.tables source.tenantId ⊆ tables :=
    hsteady.and (steady_tables source.tenantId (· ⊆ tables))
  refine .bind (Q := fun hasTable s => Owned s ∧ Removing i source target s ∧
    (hasTable = false → s.tables source.tenantId ⊆ [])) ?_ fun hasTable => ?_
  · refine outline_request (by simp) hsteady
      (fun _ => hsteady.and (steady_tables source.tenantId fun tables => _ → tables ⊆ [])) (fun _ _ _ _ => trivial)
      fun s hasTable _ h _ hanswer => ⟨h, fun hno => ?_⟩
    cases hanswer
    show s.tables source.tenantId ⊆ []
    rw [Store.tables, if_neg (by simp [hno])]
    exact List.Subset.refl _
  · cases hasTable with
    | false =>
      refine removeHardDeleteSource_outline.pre fun s h => ⟨h.1, h.2.1, fun table htable => ?_⟩
      exact absurd (h.2.2 rfl htable) List.not_mem_nil
    | true =>
      refine .pre (P := fun s => Owned s ∧ Removing i source target s) ?_ fun s h => ⟨h.1, h.2.1⟩
      refine .bind (outline_reading (by simp) hsteady (fun _ => trivial) fun _ => rfl) fun hasColumn => ?_
      cases hasColumn with
      | false => exact outline_fail
      | true =>
        refine .bind (Q := fun tables s => Owned s ∧ Removing i source target s ∧
          s.tables source.tenantId ⊆ tables.map (·.name)) ?_ fun tables => ?_
        · refine outline_request (by simp) hsteady (fun tables => hlooked _) (fun _ _ _ _ => trivial)
            fun s tables _ h _ hanswer => ⟨h, ?_⟩
          cases hanswer
          show s.tables source.tenantId ⊆ _
          rw [Store.tables]
          split
          · exact List.Subset.refl _
          · exact List.nil_subset _
        · split
          · exact outline_fail
          · refine .bind (Q := fun _ s => Owned s ∧ Removing i source target s ∧
              Looked i source (s.tables source.tenantId) s) ?_ fun count => removeHardDeleteSource_outline
            -- nobody changes the list of tables while the loop runs
            have hloop : Outlined cfg i (fun s => Removing i source target s ∧ Looked i source [] s)
                (transferTables source target user tables 0)
                fun _ s => Removing i source target s ∧ Looked i source ([] ++ tables.map (·.name)) s :=
              transferTables_outline
            have hframed := hloop.frame (F := fun s => s.tables source.tenantId ⊆ tables.map (·.name))
              (fun s s' h hi => by
                show s'.tables source.tenantId ⊆ _
                rw [hi.1.tables]
                exact h) fun op s s' r hx h => by
                obtain ⟨outside, -, hperform⟩ := hx
                rcases op.perform_cases cfg i outside s with ⟨e, he⟩ | ⟨-, a, -, he⟩
                · cases he.symm.trans hperform
                  exact h
                · cases he.symm.trans hperform
                  rwa [Op.write_tables]
            refine hframed.conseq (fun s h => ?_) (fun _ s h => ?_) fun _ _ h => h
            · exact ⟨⟨h.1, h.2.1, fun _ hmem => absurd hmem List.not_mem_nil⟩, h.2.2⟩
            · refine ⟨h.1.1, h.1.2.1, fun table htable => ?_⟩
              exact h.1.2.2 table (h.2 htable)

theorem held_of_lock {userId : ℕ} {tenantId : String} {change : Change} (hs : Owned s) (hop : op ≠ .commit)
    (hchange : op.change? = some change) (hset : change.set = id)
    (hcond : ∀ row, change.cond row = true →
      ∃ user, row = .tenantUser user ∧ user.id = userId ∧ user.tenantId = tenantId)
    (hcount : 0 < op.count i s.cells) : Held (op.write cfg i s) i tenantId userId false := by
  rw [Op.count, hchange] at hcount
  obtain ⟨row, hrow⟩ := List.exists_mem_of_length_pos hcount
  obtain ⟨k, c, hc, hsee, hp⟩ := Cells.mem_visible.mp hrow
  obtain ⟨user, rfl, hid, htenant⟩ := hcond row hp
  have hcommitted : c.committed = some (.tenantUser user) := by
    rcases (hs.versions k c hc).see hsee with ⟨log, hlog⟩ | ⟨old, hold, hbecomes⟩
    · cases hlog
    · rw [hold, hbecomes.to_user]
  refine ⟨k, _, user, op.write_old hc, by rw [op.cell_committed hop, hcommitted], hid, htenant, ?_⟩
  rw [op.cell_match hop hchange hsee hp, hset]
  rfl

theorem hardDelete_outline (htarget : ∀ member, target = some member → member.id ≠ source.id) :
    Outlined cfg i (fun s => Fresh i s ∧ Known source s) (hardDelete source target user) fun _ _ => True := by
  have hlocked : Steady i (Removing i source none) := steady_removing source none
  refine .bind (Q := fun locked s => Owned s ∧ (locked = true → Removing i source none s)) ?_ fun locked => ?_
  · refine outline_request (by simp) (steady_fresh.and (steady_known source))
      (fun _ s s' h ha hlock => hlocked s s' (h hlock) ha) (fun _ _ _ _ => trivial)
      fun s locked hs h hgranted hanswer hlock => ?_
    cases hanswer
    have hheld : Held ((Op.lockSource source.id source.tenantId).write cfg i s) i source.tenantId source.id false := by
      refine held_of_lock hs (by simp) rfl rfl (fun row hrow => ?_) (of_decide_eq_true hlock)
      cases row with
      | tenantUser user =>
        simp only [onUser, Bool.and_eq_true, decide_eq_true_eq] at hrow
        exact ⟨user, rfl, hrow.1.1, hrow.1.2⟩
      | _ => cases hrow
    have hmoved : Moved s i source.id := fun k c r hc hp => absurd hp (h.1.1 k c _ hc)
    exact { held := hheld, target := by simp, known := h.2.write, moved := hmoved.write (by simp) }
  · cases locked with
    | false => exact outline_fail
    | true =>
      refine .bind (Q := fun _ s => Owned s ∧ Removing i source target s) ?_ fun _ =>
        .bind transferAndRemove_outline fun result =>
          .bind (outline_commit steady_true) fun _ => .pure fun _ h => h
      · cases target with
        | none => exact .pure fun s h => ⟨h.1, h.2 rfl⟩
        | some member =>
          refine .pre (P := fun s => Owned s ∧ Removing i source none s) ?_ fun s h => ⟨h.1, h.2 rfl⟩
          refine .bind (Q := fun locked s => Owned s ∧ (locked = true → Removing i source (some member) s)) ?_
            fun locked => ?_
          · refine outline_request (by simp) hlocked
              (fun _ s s' h ha hlock => steady_removing source (some member) s s' (h hlock) ha)
              (fun _ _ _ _ => trivial) fun s locked hs h hgranted hanswer hlock => ?_
            cases hanswer
            have hkept : Removing i source none ((Op.lockTarget member.id source.tenantId).write cfg i s) :=
              h.write hgranted (by simp) (by simp) (by simp)
            refine { hkept with target := fun other hother => ?_ }
            cases hother
            refine ⟨?_, htarget member rfl⟩
            refine held_of_lock hs (by simp) rfl rfl (fun row hrow => ?_) (of_decide_eq_true hlock)
            cases row with
            | tenantUser user =>
              simp only [onUser, Bool.and_eq_true, decide_eq_true_eq] at hrow
              exact ⟨user, rfl, hrow.1.1.1, hrow.1.1.2⟩
            | _ => cases hrow
          · cases locked with
            | false => exact outline_fail
            | true => exact .pure fun s h => ⟨h.1, h.2 rfl⟩

theorem known_of_found {p : TenantUser → Bool} (hs : Owned s) (h : s.findUser i p = some source) :
    Known source s ∧ p source = true := by
  obtain ⟨row, hrow, huser⟩ := Option.bind_eq_some_iff.mp h
  obtain ⟨k, c, hc, hsee, hp⟩ := Cells.mem_visible.mp (List.mem_of_mem_head? hrow)
  cases row with
  | tenantUser member =>
    cases huser
    refine ⟨fun k' c' member' hc' hu haccount => ?_, hp⟩
    cases hs.unique k' k c' c member' source hc' hc hu (Cell.holds_of_see hsee) (.inr haccount)
    cases hc.symm.trans hc'
    -- the two versions of a member's row are the same
    have hsame (user : TenantUser) (hheld : c.Holds (.tenantUser user)) : c.committed = some (.tenantUser user) := by
      rcases hheld with hcommitted | ⟨j, hpending⟩
      · exact hcommitted
      · exact (hs.versions _ c hc).user hpending
    have hrows := (hsame member' hu).symm.trans (hsame source (Cell.holds_of_see hsee))
    rw [Row.tenantUser.inj (Option.some.inj hrows)]
  | _ => cases huser

theorem deleteUser_outline {userId : ℕ} {transferToUserId : Option ℕ} :
    Outlined cfg i (Fresh i) (deleteUser userId transferToUserId user) fun _ _ => True := by
  refine .bind (Q := fun _ s => Owned s ∧ Fresh i s) ?_ fun tenantId =>
    .bind permissionsGuard_outline fun _ => ?_
  · unfold requireTenantActor
    split
    · split
      · exact outline_fail
      · exact .pure fun _ h => h
    · exact outline_fail
  refine .bind (Q := fun found s => Owned s ∧ Fresh i s ∧ ∀ source, found = some source → Known source s) ?_
    fun found => ?_
  · refine outline_request (by simp) steady_fresh (fun found => steady_fresh.and fun s s' h ha source hfound => ?_)
      (fun _ _ _ _ => trivial) fun s found hs h _ hanswer => ⟨h, fun source hfound => ?_⟩
    · exact steady_known source s s' (h source hfound) ha
    · cases hanswer
      exact (known_of_found hs hfound).1
  · cases found with
    | none => exact outline_fail
    | some source =>
      refine .pre (P := fun s => Owned s ∧ Fresh i s ∧ Known source s) ?_ fun s h => ⟨h.1, h.2.1, h.2.2 source rfl⟩
      dsimp only
      split
      · exact outline_fail
      · split
        · exact outline_fail
        · cases transferToUserId with
          | none => exact hardDelete_outline (by simp)
          | some targetUserId =>
            have hsteady : Steady i fun s => Fresh i s ∧ Known source s := steady_fresh.and (steady_known source)
            refine .bind (Q := fun target s => Owned s ∧ (Fresh i s ∧ Known source s) ∧ target.id ≠ source.id) ?_
              fun target => ?_
            · unfold resolveActiveTransferTarget
              split
              · exact outline_fail
              · rename_i hne
                refine .bind (Q := fun found s => Owned s ∧ (Fresh i s ∧ Known source s) ∧
                  ∀ target, found = some target → target.id = targetUserId) ?_ fun found => ?_
                · refine outline_request (by simp) hsteady (fun found => hsteady.and fun _ _ h _ => h)
                    (fun _ _ _ _ => trivial) fun s found hs h _ hanswer => ⟨h, fun target hfound => ?_⟩
                  cases hanswer
                  have hp := (known_of_found hs hfound).2
                  simp only [Bool.and_eq_true, decide_eq_true_eq] at hp
                  exact hp.1.1.1
                · cases found with
                  | none => exact outline_fail
                  | some target =>
                    refine .pure fun s h => ⟨h.1, h.2.1, ?_⟩
                    rw [h.2.2 target rfl]
                    exact hne
            · intro s h
              have houtline : Outlined cfg i (fun s => Fresh i s ∧ Known source s)
                  (hardDelete source (some target) user) fun _ _ => True :=
                hardDelete_outline fun member hmember => by
                  cases hmember
                  exact h.2.2
              exact houtline s ⟨h.1, h.2.1⟩

theorem code_outline (cfg : Config) (i : ℕ) (r : Request) :
    Outlined cfg i (Fresh i) (r.code cfg) fun _ _ => True := by
  cases r with
  | createRow tableId payload bytes user =>
    refine .bind (jwtAuthGuard_outline steady_fresh) fun _ => .bind permissionsGuard_outline fun _ => ?_
    exact createRow_outline.pre fun s h => ⟨h.1, trivial⟩
  | deleteUser userId transferToUserId user =>
    exact .bind (jwtAuthGuard_outline steady_fresh) fun _ => deleteUser_outline

end

end

/-! ### Runs -/

/-- A row is inserted only for a member that stands, into a table that no removal of the
member has looked through. -/
def State.InsertsForMembers (s : State) : Event → Prop
  | .execute i outside => ∀ (r : Request) (op : Op) (k : Except ServiceError op.Res → Service Response),
      s.requests[i]? = some ⟨r, .awaiting op k⟩ → outside.fault = none → op.TakesRow s.store
  | _ => True

/-- Before the requests: every row of a dynamic table has its owner, and a member's account
is nobody else's. -/
structure Initial (s : State) : Prop where
  requests : s.requests = []
  looked : s.store.looked = []
  committed : ∀ c ∈ s.store.cells, c.pending = none
  unique : UniqueUsers s.store
  owners : ∀ (k : ℕ) (c : Cell Row) (r : Record), s.store.cells[k]? = some c →
    c.committed = some (.record r) → r.table ∈ s.store.tables r.tenantId → Member s.store r.tenantId r.owner

structure Good (cfg : Config) (s : State) : Prop where
  owned : Owned s.store
  threads : ∀ (i : ℕ) (f : InFlight), s.requests[i]? = some f →
    f.thread.Safe (rules cfg i) (fun _ s => Owned s ∧ True) (fun _ _ => True) s.store
  fresh : ∀ i, s.requests.length ≤ i → Fresh i s.store

namespace Good

variable {cfg : Config} {s s' : State} {e : Event}

theorem initial (h : Initial s) : Good cfg s := by
  have hnone (k : ℕ) (c : Cell Row) (i : ℕ) (row : Row) (hc : s.store.cells[k]? = some c) :
      c.pending ≠ some (i, row) := by
    rw [h.committed c (List.mem_of_getElem? hc)]
    simp
  have hempty (look : Look) : look ∉ s.store.looked := by
    rw [h.looked]
    exact List.not_mem_nil
  exact {
    owned := {
      unique := h.unique
      versions := fun k c hc i new hp => absurd hp (hnone k c i new hc)
      owners := h.owners
      handed := fun k c i r hc hp => absurd hp (hnone k c i _ hc)
      looking := fun look hlook => absurd hlook (hempty look)
      passed := fun look hlook => absurd hlook (hempty look)
      removed := fun i _ _ hheld => by
        obtain ⟨k, c, user, hc, -, -, -, hp⟩ := hheld
        exact absurd hp (hnone k c i _ hc) }
    threads := fun i f hf => by
      rw [h.requests] at hf
      cases hf
    fresh := fun i _ => ⟨fun k c row hc => hnone k c i row hc, fun look hlook => absurd hlook (hempty look)⟩ }

theorem safe_of_finished {i : ℕ} {t : Thread Op Op.Res Context ServiceError Response} {store : Store}
    (ht : t.op? = none) (h : Owned store) :
    t.Safe (rules cfg i) (fun _ s => Owned s ∧ True) (fun _ _ => True) store := by
  cases t with
  | awaiting o k | answered o r k => cases ht
  | finished r =>
    cases r with
    | ok a => exact ⟨h, trivial⟩
    | error e => trivial

theorem others (h : Good cfg s) {j : ℕ} {f : InFlight} {store : Store} (howned : Owned store)
    (hapart : ∀ i, i ≠ j → Apart i s.store store) (hj : j < s.requests.length)
    (hf : f.thread.Safe (rules cfg j) (fun _ s => Owned s ∧ True) (fun _ _ => True) store) :
    Good cfg { s with store := store, requests := s.requests.set j f } where
  owned := howned
  threads i g hg := by
    by_cases hij : i = j
    · subst hij
      rw [List.getElem?_set_self hj] at hg
      cases hg
      exact hf
    · rw [List.getElem?_set_ne (Ne.symm hij)] at hg
      have hsafe := h.threads i g hg
      by_cases hop : g.thread.op? = none
      · exact safe_of_finished hop howned
      · exact hsafe.interfere (.single ⟨hapart i hij, howned⟩) hop
  fresh i hi := by
    rw [List.length_set] at hi
    exact steady_fresh s.store store (h.fresh i hi) (hapart i (by omega))

theorem execute (h : Good cfg s) {i : ℕ} {outside : Outside} (hok : s.InsertsForMembers (.execute i outside))
    (hs : step cfg s (.execute i outside) = some s') : Good cfg s' := by
  rw [step] at hs
  split at hs
  · rename_i r op k hi
    split at hs
    · cases hs
    · rename_i hwaits
      cases hs
      have hlt : i < s.requests.length := (List.getElem?_eq_some_iff.mp hi).1
      have hcond (hfault : outside.fault = none) : op.waits i s.store = false ∧ op.TakesRow s.store :=
        ⟨by simpa [hfault] using hwaits, hok r op k hi hfault⟩
      obtain ⟨howned, hsafe⟩ := (h.threads i _ hi) s.store .refl _ _
        ⟨outside, hcond, (Prod.mk.eta (p := op.perform cfg i outside s.store)).symm⟩
      refine h.others howned (fun j hj => ?_) hlt hsafe
      show Apart j s.store (op.perform cfg i outside s.store).2
      rcases op.perform_cases cfg i outside s.store with ⟨e, he⟩ | ⟨hfault, a, -, he⟩
      · rw [he]
        exact .refl j s.store
      · rw [he]
        exact Op.write_apart hj (hcond hfault).1
  · cases hs

theorem deliver (h : Good cfg s) {i : ℕ} {c : Context} (hs : step cfg s (.deliver i c) = some s') :
    Good cfg s' := by
  rw [step] at hs
  split at hs
  · rename_i r op answer k hi
    cases hs
    have hlt : i < s.requests.length := (List.getElem?_eq_some_iff.mp hi).1
    have hsafe : ((k answer).advance { c with now := s.clock }).Safe (rules cfg i)
        (fun _ s => Owned s ∧ True) (fun _ _ => True) s.store :=
      .advance trivial ((h.threads i _ hi) s.store .refl)
    split
    · rename_i herror
      refine h.others h.owned.rollback (fun j hj => settles_rollback.apart hj) hlt (safe_of_finished ?_ h.owned.rollback)
      cases ht : (k answer).advance { c with now := s.clock } with
      | finished r => rfl
      | _ =>
        rw [ht] at herror
        cases herror
    · exact h.others h.owned (fun j _ => .refl j s.store) hlt hsafe
  · cases hs

theorem step (h : Good cfg s) (hok : s.InsertsForMembers e) (hs : Ownership.step cfg s e = some s') :
    Good cfg s' := by
  cases e with
  | arrive r c =>
    rw [Ownership.step] at hs
    split at hs
    · cases hs
      refine ⟨h.owned, fun i f hf => ?_, fun i hi => h.fresh i ?_⟩
      · rw [List.getElem?_append] at hf
        split at hf
        · exact h.threads i f hf
        · rename_i hlt
          obtain ⟨hlast, -⟩ := List.getElem?_eq_some_iff.mp hf
          rw [List.length_singleton] at hlast
          cases List.mem_singleton.mp (List.mem_of_getElem? hf)
          have hi : s.requests.length ≤ i := not_lt.mp hlt
          exact .advance trivial (code_outline cfg i r s.store ⟨h.owned, h.fresh i hi⟩)
      · rw [List.length_append] at hi
        omega
    · cases hs
  | execute i outside => exact h.execute hok hs
  | deliver i c => exact h.deliver hs
  | tick d =>
    cases hs
    exact ⟨h.owned, h.threads, h.fresh⟩

end Good

/-- The owner of every row names a member. -/
theorem owners_are_members {cfg : Config} {s₀ s : State} (h₀ : Initial s₀)
    (hr : Reach (step cfg) State.InsertsForMembers s₀ s) {k : ℕ} {c : Cell Row} {r : Record}
    (hc : s.store.cells[k]? = some c) (hrow : c.committed = some (.record r))
    (htable : r.table ∈ s.store.tables r.tenantId) : Member s.store r.tenantId r.owner := by
  have hgood : Good cfg s := hr.invariant (.initial h₀) fun s s' e _ h hok hs => h.step hok hs
  exact hgood.owned.owners k c r hc hrow htable

/-! ### Ann removes Bob -/

def plainConfig : Config where
  js := { dateParse := fun _ => none, numberToString := fun _ => "", stringify := fun _ => "" }
  tables := {}

/-- The tenant `acme` with the table `orders`, which has no fields yet. -/
def orders : Metadata where
  hasMetaTables := true
  hasOwnerColumn := true
  metaTables := [{ id := 1, name := "orders", slug := "orders", description := none,
                   ownerColumn := some DynamicTables.OWNER_COLUMN }]
  metaFields := []
  cache := []

def bob : AuthenticatedUser :=
  { Accounts.bob with permissions := [DYNAMIC_TABLES_ROWS_CREATE_PERMISSION] }

def acme : State where
  store :=
    { cells := (Accounts.acmeDb.tenantUsers.map Row.tenantUser ++ [Row.authAccount 2, Row.authAccount 3]).map
        fun row => { committed := some row }
      metadata := fun _ => orders
      tenants := Accounts.acmeDb.tenants }
  requests := []
  issued := [⟨Accounts.ann, 15 * 60⟩, ⟨bob, 15 * 60⟩]
  clock := 0

def calls (i n : ℕ) : List Event := (List.replicate n [.execute i {}, .deliver i { now := 0 }]).flatten

def annRemovesBob : Event := .arrive (.deleteUser 5 (some 4) Accounts.ann) { now := 0 }

def bobAdds : Event := .arrive (.createRow 1 (.obj []) 2 bob) { now := 0 }

theorem acme_initial : Initial acme where
  requests := rfl
  looked := rfl
  committed := by decide
  unique := by
    have hcell (k : ℕ) (c : Cell Row) (user : TenantUser) (hc : acme.store.cells[k]? = some c)
        (hu : c.Holds (.tenantUser user)) : k < 2 ∧ user.id = 4 + k ∧ user.authAccountId = 2 + k := by
      have hlt : k < 4 := (List.getElem?_eq_some_iff.mp hc).1
      interval_cases k
      all_goals
        cases hc
        rcases hu with hu | ⟨i, hu⟩
        · cases hu <;> decide
        · cases hu
    intro k k' c c' user user' hc hc' hu hu' heq
    obtain ⟨-, hid, haccount⟩ := hcell k c user hc hu
    obtain ⟨-, hid', haccount'⟩ := hcell k' c' user' hc' hu'
    omega
  owners k c r hc hr := by
    have hlt : k < 4 := (List.getElem?_eq_some_iff.mp hc).1
    interval_cases k <;> cases hc <;> cases hr

/-- Whether a condition of the theorem holds can be tested. -/
def insertsForMembers (s : State) : Event → Bool
  | .execute i outside =>
    match s.requests[i]? with
    | some ⟨_, .awaiting (.insertRow tenantId table _ owner) _⟩ =>
      outside.fault.isSome || (s.store.cells.any fun c => match c.committed with
          | some (.tenantUser user) => user.id = owner && user.tenantId = tenantId
          | _ => false) &&
        s.store.looked.all fun look => look.tenantId ≠ tenantId || look.table ≠ table || look.owner ≠ owner
    | _ => true
  | _ => true

theorem insertsForMembers.condition {s : State} {e : Event} (h : insertsForMembers s e = true) :
    s.InsertsForMembers e := by
  cases e with
  | execute i outside =>
    intro r op k hi hfault
    cases op with
    | insertRow tenantId table values owner =>
      simp only [insertsForMembers, hi, hfault, Option.isSome_none, Bool.false_or, Bool.and_eq_true] at h
      obtain ⟨hmember, hlooked⟩ := h
      constructor
      · obtain ⟨c, hc, huser⟩ := List.any_eq_true.mp hmember
        obtain ⟨j, hj⟩ := List.getElem?_of_mem hc
        split at huser
        · rename_i user hcommitted
          simp only [Bool.and_eq_true, decide_eq_true_eq] at huser
          exact ⟨j, c, user, hj, hcommitted, huser.1, huser.2⟩
        · cases huser
      · rintro look hlook ⟨htenant, htable, howner⟩
        have hlook := List.all_eq_true.mp hlooked look hlook
        simp [htenant, htable, howner] at hlook
    | _ => trivial
  | _ => trivial

def recordOf (c : Cell Row) : Option Record :=
  match c.committed with
  | some (.record r) => some r
  | _ => none

def memberOf (c : Cell Row) : Option TenantUser :=
  match c.committed with
  | some (.tenantUser user) => some user
  | _ => none

theorem recordOf_eq_some {c : Cell Row} {r : Record} : recordOf c = some r ↔ c.committed = some (.record r) := by
  rw [recordOf]
  split <;> simp_all

theorem memberOf_eq_some {c : Cell Row} {user : TenantUser} :
    memberOf c = some user ↔ c.committed = some (.tenantUser user) := by
  rw [memberOf]
  split <;> simp_all

/-- A row of a listed table that names `owner`. -/
def Store.hasRowOf (s : Store) (owner : ℕ) (c : Cell Row) : Bool :=
  (recordOf c).any fun r => r.owner = owner && (s.tables r.tenantId).contains r.table

def Store.hasMember (s : Store) (userId : ℕ) : Bool :=
  s.cells.any fun c => (memberOf c).any fun user => user.id = userId

theorem Store.hasRowOf_eq {s : Store} {owner : ℕ} {c : Cell Row} (h : s.hasRowOf owner c = true) :
    ∃ r : Record, c.committed = some (.record r) ∧ r.owner = owner ∧ r.table ∈ s.tables r.tenantId := by
  obtain ⟨r, hr, h⟩ := (Option.any_eq_true _ _).mp h
  obtain ⟨howner, htable⟩ := Bool.and_eq_true_iff.mp h
  exact ⟨r, recordOf_eq_some.mp hr, of_decide_eq_true howner, List.contains_iff_mem.mp htable⟩

theorem Store.not_member {s : Store} {userId : ℕ} (h : s.hasMember userId = false) (tenantId : String) :
    ¬ Member s tenantId userId := by
  rintro ⟨k, c, user, hc, huser, hid, -⟩
  have hmember : s.hasMember userId = true :=
    List.any_eq_true.mpr ⟨c, List.mem_of_getElem? hc,
      (Option.any_eq_true _ _).mpr ⟨user, memberOf_eq_some.mpr huser, decide_eq_true hid⟩⟩
  rw [h] at hmember
  cases hmember

/-- Bob adds a row before he is removed, and Ann has it afterwards. -/
theorem owners_are_members_acme : ∃ s, Reach (step plainConfig) State.InsertsForMembers acme s ∧
    ∃ (k : ℕ) (c : Cell Row) (r : Record), s.store.cells[k]? = some c ∧
      c.committed = some (.record r) ∧ r.owner = 4 ∧ Member s.store r.tenantId r.owner ∧
      ¬ Member s.store "acme" 5 := by
  have hrun : (runChecked (step plainConfig) insertsForMembers acme
      ([bobAdds] ++ calls 0 4 ++ [annRemovesBob] ++ calls 1 16)).any (fun s =>
        s.store.cells[4]?.any (s.store.hasRowOf 4) && !s.store.hasMember 5) = true := by
    decide +kernel
  obtain ⟨s, hs, h⟩ := (Option.any_eq_true _ _).mp hrun
  have hr : Reach (step plainConfig) State.InsertsForMembers acme s :=
    .of_runChecked (fun _ _ h => insertsForMembers.condition h) hs
  obtain ⟨hrow, hgone⟩ := Bool.and_eq_true_iff.mp h
  obtain ⟨c, hc, hrow⟩ := (Option.any_eq_true _ _).mp hrow
  obtain ⟨r, hcommitted, howner, htable⟩ := Store.hasRowOf_eq hrow
  exact ⟨s, hr, 4, c, r, hc, hcommitted, howner, owners_are_members acme_initial hr hc hcommitted htable,
    Store.not_member ((Bool.not_eq_true' _).mp hgone) "acme"⟩

/-- Bob's access token outlives his membership. -/
theorem row_of_a_removed_member : ¬ ∀ s, Reach (step plainConfig) (fun _ _ => True) acme s →
    (∀ f ∈ s.requests, f.thread.op? = none) → ∀ (k : ℕ) (c : Cell Row) (r : Record),
      s.store.cells[k]? = some c → c.committed = some (.record r) → r.table ∈ s.store.tables r.tenantId →
      Member s.store r.tenantId r.owner := by
  intro hclaim
  have hrun : (runAll (step plainConfig) acme
      ([annRemovesBob] ++ calls 0 14 ++ [bobAdds] ++ calls 1 4)).any (fun s =>
        (s.requests.all fun f => f.thread.op?.isNone) && s.store.cells.any (s.store.hasRowOf 5) &&
        !s.store.hasMember 5) = true := by
    decide +kernel
  obtain ⟨s, hs, h⟩ := (Option.any_eq_true _ _).mp hrun
  simp only [Bool.and_eq_true] at h
  obtain ⟨⟨hdone, hrow⟩, hgone⟩ := h
  obtain ⟨c, hmem, hrow⟩ := List.any_eq_true.mp hrow
  obtain ⟨k, hc⟩ := List.getElem?_of_mem hmem
  obtain ⟨r, hcommitted, howner, htable⟩ := Store.hasRowOf_eq hrow
  have hmember : Member s.store r.tenantId r.owner :=
    hclaim s (.of_runAll (.of_labels (fun _ _ _ => trivial) _) hs)
      (fun f hf => Option.isNone_iff_eq_none.mp (List.all_eq_true.mp hdone f hf)) k c r hc hcommitted htable
  rw [howner] at hmember
  exact Store.not_member ((Bool.not_eq_true' _).mp hgone) r.tenantId hmember

end Flexi.Ownership
