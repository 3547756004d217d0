import Flexi.Listings.Listings

/-!
# The pages of a list put together

All pages of an accepted query have every matching row once, whatever order each query returns
ties in, exactly when no page boundary lies among rows of one `createdAt`.
-/

namespace Flexi.Listings
open Flexi.Library
open Flexi.DynamicTables (QueryError QueryNumber)
open Flexi.Accounts (AuthenticatedUser)

/-- What the pages of a list are to be: each query answers, counts all matching rows, and the
pages have each of them once. `matching` are the ids of the rows. -/
structure PagesPartition {ι : Type} (lists : ℕ → Except QueryError (ListResponse ι) → Prop)
    (itemId : ι → String) (matching : List String) (size : ℕ) : Prop where
  answers : ∀ n, 0 < n → ∃ answer, lists n (.ok answer)
  total : ∀ n result, 0 < n → lists n result →
    ∃ answer, result = .ok answer ∧ answer.total = matching.length
  items : ∀ answer : ℕ → ListResponse ι,
    (∀ n, 0 < n → n ≤ pageCount size matching.length → lists n (.ok (answer n))) →
      (pages (fun n => (answer n).items.map itemId) (pageCount size matching.length)).Perm matching

/-- For every matching row, each page boundary comes after it and all rows of its time or before
all of these. -/
def TiesUncut {ρ : Type} (createdAt : ρ → ℤ) (matching : List ρ) (size : ℕ) : Prop :=
  BoundariesBetween (NewestFirst createdAt) matching size

/-! ### One list -/

section OneList

variable {ρ ι : Type} {createdAt : ρ → ℤ} {toItem : ρ → ι} {rowId : ρ → String}
  {itemId : ι → String} {rows : List ρ} {q : ListQuery ρ}

theorem newestFirst_trans (a b c : ρ) (hab : NewestFirst createdAt a b)
    (hbc : NewestFirst createdAt b c) : NewestFirst createdAt a c :=
  le_trans hbc hab

theorem newestFirst_total (a b : ρ) : NewestFirst createdAt a b ∨ NewestFirst createdAt b a :=
  le_total _ _

theorem exists_newestFirst (createdAt : ρ → ℤ) (M : List ρ) : ∃ L, Arranges (NewestFirst createdAt) M L := by
  obtain ⟨L, hL, -⟩ := exists_arrangement (r := NewestFirst createdAt) newestFirst_trans
    newestFirst_total (fun _ _ => True) (fun _ _ _ _ _ => trivial) (fun _ _ => .inl trivial) M
  exact ⟨L, hL⟩

theorem lists_page {n : ℕ} {result : Except QueryError (ListResponse ι)} :
    Lists createdAt toItem rows (.ok { q with page := n }) result ↔
      ∃ L, Arranges (NewestFirst createdAt) (rows.filter q.whereClause) L ∧
        result = .ok { items := (page q.pageSize n L).map toItem,
                       total := (rows.filter q.whereClause).length,
                       page := n, pageSize := q.pageSize } := by
  constructor
  · rintro ⟨found, ⟨L, hL, rfl⟩, rfl⟩
    exact ⟨L, hL, rfl⟩
  · rintro ⟨L, hL, rfl⟩
    exact ⟨_, ⟨L, hL, rfl⟩, rfl⟩

theorem pages_map {α β : Type} (f : α → β) (answer : ℕ → List α) (n : ℕ) :
    pages (fun k => (answer k).map f) n = (pages answer n).map f :=
  (List.map_flatMap ..).symm

/-- Among rows with distinct ids, the ids tell which rows there are. -/
theorem perm_of_perm_ids {M L : List ρ} (hM : (M.map rowId).Nodup) (hsub : ∀ row ∈ L, row ∈ M)
    (h : (L.map rowId).Perm (M.map rowId)) : L.Perm M := by
  have hL : L.Nodup := (h.nodup_iff.mpr hM).of_map
  have hlength : M.length ≤ L.length := by
    have hids := h.length_eq
    rw [List.length_map, List.length_map] at hids
    exact hids.ge
  exact (List.subperm_of_subset hL hsub).perm_of_length_le hlength

theorem pagesPartition_iff (toItem : ρ → ι) (itemId : ι → String)
    (hid : ∀ row, itemId (toItem row) = rowId row)
    (hids : (rows.map rowId).Nodup) (hsize : 0 < q.pageSize) :
    PagesPartition (fun n => Lists createdAt toItem rows (.ok { q with page := n })) itemId
        ((rows.filter q.whereClause).map rowId) q.pageSize ↔
      TiesUncut createdAt (rows.filter q.whereClause) q.pageSize := by
  have hmatching : ((rows.filter q.whereClause).map rowId).Nodup :=
    (List.filter_sublist.map rowId).nodup hids
  have hlength : ((rows.filter q.whereClause).map rowId).length =
      (rows.filter q.whereClause).length := List.length_map _
  have hitems (L : List ρ) : (L.map toItem).map itemId = L.map rowId := by
    rw [List.map_map]
    exact List.map_congr_left fun row _ => hid row
  obtain ⟨L, hL⟩ := exists_newestFirst createdAt (rows.filter q.whereClause)
  rw [TiesUncut, ← tiesTogether_iff hmatching.of_map newestFirst_trans newestFirst_total,
    ← pages_perm_iff hsize hL]
  constructor
  · intro h found hfound
    have hpages := h.items (fun n => { items := (found n).map toItem,
                                       total := (rows.filter q.whereClause).length,
                                       page := n, pageSize := q.pageSize })
      fun n hn hle => by
        obtain ⟨L, hL, heq⟩ := hfound n hn (hlength ▸ hle)
        exact lists_page.mpr ⟨L, hL, by rw [heq]⟩
    simp only [hitems, hlength, pages_map] at hpages
    refine perm_of_perm_ids hmatching (fun row hrow => ?_) hpages
    obtain ⟨i, hi, hrow⟩ := List.mem_flatMap.mp hrow
    obtain ⟨L, hL, heq⟩ := hfound (i + 1) (Nat.succ_pos i) (List.mem_range.mp hi)
    rw [heq] at hrow
    exact hL.1.mem_iff.mp (List.mem_of_mem_drop (List.mem_of_mem_take hrow))
  · intro h
    constructor
    · intro n _
      exact ⟨_, lists_page.mpr ⟨L, hL, rfl⟩⟩
    · intro n result _ hresult
      obtain ⟨L, -, rfl⟩ := lists_page.mp hresult
      exact ⟨_, rfl, hlength.symm⟩
    · intro answer hanswer
      rw [hlength] at hanswer ⊢
      have hfound (n : ℕ) : ∃ found : List ρ, 0 < n →
          n ≤ pageCount q.pageSize (rows.filter q.whereClause).length →
            (∃ L, Arranges (NewestFirst createdAt) (rows.filter q.whereClause) L ∧
              found = page q.pageSize n L) ∧ (answer n).items.map itemId = found.map rowId := by
        by_cases hn : 0 < n ∧ n ≤ pageCount q.pageSize (rows.filter q.whereClause).length
        · obtain ⟨L, hL, heq⟩ := lists_page.mp (hanswer n hn.1 hn.2)
          refine ⟨page q.pageSize n L, fun _ _ => ⟨⟨L, hL, rfl⟩, ?_⟩⟩
          rw [Except.ok.inj heq, hitems]
        · exact ⟨[], fun hpos hle => absurd ⟨hpos, hle⟩ hn⟩
      choose found hfound using hfound
      rw [pages_congr fun n hn hle => (hfound n hn hle).2, pages_map]
      exact (h found fun n hn hle => (hfound n hn hle).1).map rowId

end OneList

theorem PagesPartition.congr {ι : Type} {lists lists' : ℕ → Except QueryError (ListResponse ι) → Prop}
    {itemId : ι → String} {matching : List String} {size : ℕ}
    (h : ∀ n, 0 < n → lists n = lists' n) :
    PagesPartition lists itemId matching size ↔ PagesPartition lists' itemId matching size := by
  have hmp {l l' : ℕ → Except QueryError (ListResponse ι) → Prop} (h : ∀ n, 0 < n → l n = l' n)
      (hl : PagesPartition l itemId matching size) : PagesPartition l' itemId matching size := by
    constructor
    · intro n hn
      rw [← h n hn]
      exact hl.answers n hn
    · intro n result hn hresult
      rw [← h n hn] at hresult
      exact hl.total n result hn hresult
    · intro answer hanswer
      refine hl.items answer fun n hn hle => ?_
      rw [h n hn]
      exact hanswer n hn hle
  exact ⟨hmp h, hmp fun n hn => (h n hn).symm⟩

/-! ### The same query for another page -/

def TenantListQueryDto.atPage (query : TenantListQueryDto) (n : ℕ) : TenantListQueryDto :=
  { query with page := some (.number (.finite n)) }

def UserListQueryDto.atPage (query : UserListQueryDto) (n : ℕ) : UserListQueryDto :=
  { query with page := some (.number (.finite n)) }

theorem parsePositiveInteger_atPage {n : ℕ} (hn : 0 < n) (defaultValue : ℕ) (field : ListParam) :
    parsePositiveInteger (some (.number (.finite n))) defaultValue field = .ok n := by
  have hpositive : (QueryNumber.number (.finite n)).positiveInteger? = some n := by
    simp [QueryNumber.positiveInteger?, hn]
  simp only [parsePositiveInteger, hpositive]

theorem parsePositiveInteger_pos {value : Option QueryNumber} {defaultValue n : ℕ}
    {field : ListParam} (hdefault : 0 < defaultValue)
    (h : parsePositiveInteger value defaultValue field = .ok n) : 0 < n := by
  unfold parsePositiveInteger at h
  split at h
  · cases h
    exact hdefault
  · rename_i value
    split at h
    · rename_i m hm
      cases h
      unfold QueryNumber.positiveInteger? at hm
      split at hm
      · split_ifs at hm with hq
        have heq := Option.some.inj hm
        omega
      · cases hm
    · cases h

theorem tenantListQuery_atPage {rt : Runtime} {query : TenantListQueryDto} {q : ListQuery TenantRow}
    (h : tenantListQuery rt query = .ok q) :
    0 < q.pageSize ∧
      ∀ n, 0 < n → tenantListQuery rt (query.atPage n) = .ok { q with page := n } := by
  unfold tenantListQuery at h
  obtain ⟨page, hpage, h⟩ := except_bind_ok.mp h
  obtain ⟨pageSize, hpageSize, h⟩ := except_bind_ok.mp h
  obtain ⟨status, hstatus, h⟩ := except_bind_ok.mp h
  obtain ⟨createdFrom, hfrom, h⟩ := except_bind_ok.mp h
  obtain ⟨createdTo, hto, h⟩ := except_bind_ok.mp h
  have hpos := parsePositiveInteger_pos (by decide) hpageSize
  dsimp only at h
  split at h
  · cases h
  · rename_i hrange
    cases h
    refine ⟨lt_min hpos (by decide), fun n hn => ?_⟩
    unfold tenantListQuery
    refine except_bind_ok.mpr ⟨n, parsePositiveInteger_atPage hn _ _, ?_⟩
    refine except_bind_ok.mpr ⟨pageSize, hpageSize, ?_⟩
    refine except_bind_ok.mpr ⟨status, hstatus, ?_⟩
    refine except_bind_ok.mpr ⟨createdFrom, hfrom, ?_⟩
    refine except_bind_ok.mpr ⟨createdTo, hto, ?_⟩
    dsimp only
    rw [if_neg hrange]
    rfl

def UserListQuery.withPage (n : ℕ) : UserListQuery → UserListQuery
  | .system q => .system { q with page := n }
  | .tenant q => .tenant { q with page := n }

def UserListQuery.pageSize : UserListQuery → ℕ
  | .system q => q.pageSize
  | .tenant q => q.pageSize

theorem userListQuery_atPage {rt : Runtime} {query : UserListQueryDto}
    {currentUser : AuthenticatedUser} {q : UserListQuery}
    (h : userListQuery rt query currentUser = .ok q) :
    0 < q.pageSize ∧
      ∀ n, 0 < n → userListQuery rt (query.atPage n) currentUser = .ok (q.withPage n) := by
  unfold userListQuery at h
  obtain ⟨_, hpermission, h⟩ := except_bind_ok.mp h
  obtain ⟨page, hpage, h⟩ := except_bind_ok.mp h
  obtain ⟨pageSize, hpageSize, h⟩ := except_bind_ok.mp h
  have hpos := parsePositiveInteger_pos (by decide) hpageSize
  have hmin : 0 < min pageSize USER_LIST_MAX_PAGE_SIZE := lt_min hpos (by decide)
  dsimp only at h
  split at h
  · rename_i hsystem
    split at h
    · cases h
    · rename_i hstatus
      cases h
      refine ⟨hmin, fun n hn => ?_⟩
      unfold userListQuery
      refine except_bind_ok.mpr ⟨(), hpermission, ?_⟩
      refine except_bind_ok.mpr ⟨n, parsePositiveInteger_atPage hn _ _, ?_⟩
      refine except_bind_ok.mpr ⟨pageSize, hpageSize, ?_⟩
      dsimp only
      rw [if_pos hsystem]
      exact if_neg hstatus
  · rename_i htenant
    obtain ⟨tenantId, hactor, h⟩ := except_bind_ok.mp h
    obtain ⟨status, hstatus, h⟩ := except_bind_ok.mp h
    cases h
    refine ⟨hmin, fun n hn => ?_⟩
    unfold userListQuery
    refine except_bind_ok.mpr ⟨(), hpermission, ?_⟩
    refine except_bind_ok.mpr ⟨n, parsePositiveInteger_atPage hn _ _, ?_⟩
    refine except_bind_ok.mpr ⟨pageSize, hpageSize, ?_⟩
    dsimp only
    rw [if_neg htenant]
    refine except_bind_ok.mpr ⟨tenantId, hactor, ?_⟩
    exact except_bind_ok.mpr ⟨status, hstatus, rfl⟩

/-! ### Tenants, and users in both scopes -/

theorem tenantPages_iff {rt : Runtime} {tenants : List TenantRow} {query : TenantListQueryDto}
    {q : ListQuery TenantRow} (hids : (tenants.map TenantRow.id).Nodup)
    (hquery : tenantListQuery rt query = .ok q) :
    PagesPartition (fun n => ListsTenants rt tenants (query.atPage n)) TenantListItemDto.id
        ((tenants.filter q.whereClause).map TenantRow.id) q.pageSize ↔
      TiesUncut TenantRow.createdAt (tenants.filter q.whereClause) q.pageSize := by
  obtain ⟨hsize, hat⟩ := tenantListQuery_atPage hquery
  rw [← pagesPartition_iff (mapTenantListItem rt) TenantListItemDto.id (fun _ => rfl) hids hsize]
  refine PagesPartition.congr fun n hn => ?_
  rw [ListsTenants, hat n hn]

/-- The pages of an accepted query have each matching row once, whatever order ties come in,
exactly when no page boundary cuts rows of one `createdAt`. -/
theorem listing_pages_partition (rt : Runtime) {tenants : List TenantRow}
    {systemUsers : List SystemUserRow} {tenantUsers : List TenantUserRow}
    (htenants : (tenants.map TenantRow.id).Nodup)
    (hsystemUsers : (systemUsers.map SystemUserRow.id).Nodup)
    (htenantUsers : (tenantUsers.map fun user => user.id).Nodup) :
    (∀ query q, tenantListQuery rt query = .ok q →
      (PagesPartition (fun n => ListsTenants rt tenants (query.atPage n)) TenantListItemDto.id
          ((tenants.filter q.whereClause).map TenantRow.id) q.pageSize ↔
        TiesUncut TenantRow.createdAt (tenants.filter q.whereClause) q.pageSize)) ∧
    (∀ query currentUser q, userListQuery rt query currentUser = .ok (.system q) →
      (PagesPartition
          (fun n => ListsUsers rt systemUsers tenantUsers (query.atPage n) currentUser)
          UserSummaryDto.id ((systemUsers.filter q.whereClause).map SystemUserRow.id) q.pageSize ↔
        TiesUncut SystemUserRow.createdAt (systemUsers.filter q.whereClause) q.pageSize)) ∧
    ∀ query currentUser q, userListQuery rt query currentUser = .ok (.tenant q) →
      (PagesPartition
          (fun n => ListsUsers rt systemUsers tenantUsers (query.atPage n) currentUser)
          UserSummaryDto.id ((tenantUsers.filter q.whereClause).map fun user => user.id)
          q.pageSize ↔
        TiesUncut (fun user : TenantUserRow => user.createdAt) (tenantUsers.filter q.whereClause)
          q.pageSize) := by
  refine ⟨fun query q hquery => tenantPages_iff htenants hquery, ?_, ?_⟩
  · intro query currentUser q hquery
    obtain ⟨hsize, hat⟩ := userListQuery_atPage hquery
    rw [← pagesPartition_iff (toSystemUserSummary rt) UserSummaryDto.id (fun _ => rfl) hsystemUsers
      hsize]
    refine PagesPartition.congr fun n hn => funext fun result => ?_
    rw [ListsUsers, hat n hn]
    rfl
  · intro query currentUser q hquery
    obtain ⟨hsize, hat⟩ := userListQuery_atPage hquery
    rw [← pagesPartition_iff (toTenantUserSummary rt) UserSummaryDto.id (fun _ => rfl) htenantUsers
      hsize]
    refine PagesPartition.congr fun n hn => funext fun result => ?_
    rw [ListsUsers, hat n hn]
    rfl

/-! ### Two tenants -/

def plainListRuntime : Runtime where
  js := { dateParse := fun _ => none, numberToString := fun _ => "", stringify := fun _ => "" }
  toISOString ms := toString ms
  fold := Char.toLower

/-- `Acme` and `Bolt`, created at the given times. -/
def acmeAndBolt (acme bolt : ℤ) : List TenantRow :=
  [⟨"t1", "Acme", "acme", "ACTIVE", acme, none⟩, ⟨"t2", "Bolt", "bolt", "ACTIVE", bolt, none⟩]

/-- Pages of one tenant, without filters. -/
def onePerPage : TenantListQueryDto where
  status := none
  keyword := none
  createdFrom := none
  createdTo := none
  page := none
  pageSize := some (.number (.finite 1))

def onePerPageQuery : ListQuery TenantRow where
  page := 1
  pageSize := 1
  whereClause := tenantWhere plainListRuntime none none none none

theorem tenantListQuery_onePerPage :
    tenantListQuery plainListRuntime onePerPage = .ok onePerPageQuery := rfl

theorem filter_acmeAndBolt (acme bolt : ℤ) :
    (acmeAndBolt acme bolt).filter onePerPageQuery.whereClause = acmeAndBolt acme bolt := rfl

theorem listing_pages_partition_acme :
    PagesPartition (fun n => ListsTenants plainListRuntime (acmeAndBolt 1 2) (onePerPage.atPage n))
      TenantListItemDto.id ["t1", "t2"] 1 := by
  have hids : ((acmeAndBolt 1 2).map TenantRow.id).Nodup := by decide
  have hnone : (([] : List SystemUserRow).map SystemUserRow.id).Nodup := List.nodup_nil
  have hnone' : (([] : List TenantUserRow).map fun user => user.id).Nodup := List.nodup_nil
  refine ((listing_pages_partition plainListRuntime hids hnone hnone').1 onePerPage _
    tenantListQuery_onePerPage).mpr ?_
  rw [filter_acmeAndBolt]
  intro tenant htenant n
  have hsize : n * onePerPageQuery.pageSize = n := Nat.mul_one n
  rw [hsize]
  rcases List.mem_cons.mp htenant with rfl | htenant
  · exact (Nat.lt_or_ge 1 n).symm
  · rw [List.mem_singleton.mp htenant]
    exact (Nat.lt_or_ge 0 n).symm

/-- Two tenants made in one millisecond: the first may be on both pages. -/
theorem tied_tenants_repeat : ¬ ∀ (rt : Runtime) (tenants : List TenantRow)
    (query : TenantListQueryDto) (q : ListQuery TenantRow), (tenants.map TenantRow.id).Nodup →
      tenantListQuery rt query = .ok q →
        PagesPartition (fun n => ListsTenants rt tenants (query.atPage n)) TenantListItemDto.id
          ((tenants.filter q.whereClause).map TenantRow.id) q.pageSize := by
  intro hall
  have hids : ((acmeAndBolt 1 1).map TenantRow.id).Nodup := by decide
  have hpages := hall plainListRuntime _ _ _ hids tenantListQuery_onePerPage
  have hties := (tenantPages_iff hids tenantListQuery_onePerPage).mp hpages
  rw [filter_acmeAndBolt] at hties
  have hcut := hties _ List.mem_cons_self 1
  revert hcut
  decide

end Flexi.Listings
