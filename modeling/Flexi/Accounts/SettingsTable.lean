import Flexi.Accounts.TenantSettings

/-!
# The table of policies as a map

A table in which most tenants have no row stands for a map that gives every tenant a policy. What
the service writes and what others take away are changes of that map.
-/

namespace Flexi.Accounts.Settings
open Flexi.Library

/-! ### The map of policies -/

def Change.apply (change : Change) (policies : String → Policy) (tenantId : String) : Policy :=
  match change with
  | .patch id fields => if tenantId = id then fields.over (policies tenantId) else policies tenantId
  | .roleGone id =>
    if (policies tenantId).defaultRoleId = some id then
      { policies tenantId with defaultRoleId := none }
    else policies tenantId
  | .tenantGone id => if tenantId = id then DEFAULT_SETTINGS else policies tenantId

/-- The map after some changes. -/
def after (policies : String → Policy) (changes : List Change) : String → Policy :=
  changes.foldl (fun policies change => change.apply policies) policies

theorem after_append (policies : String → Policy) (changes more : List Change) :
    after policies (changes ++ more) = after (after policies changes) more := List.foldl_append

/-- The policy that the table gives a tenant. -/
def Database.policy (db : Database) (tenantId : String) : Policy :=
  ((db.row? tenantId).map (·.policy)).getD DEFAULT_SETTINGS

/-! ### The table -/

/-- A whitelist that the service would write: domains that look like domains, each once. -/
structure WellFormed (domains : List String) : Prop where
  nodup : domains.Nodup
  pattern : ∀ domain ∈ domains, matchesDomainPattern domain = true

/-- The id is, if anybody's, that of a role of the tenant, and will be nobody else's. -/
def Database.Names (db : Database) (tenantId roleId : String) : Prop :=
  roleId ∈ db.issued ∧ ∀ role ∈ db.roles, role.id = roleId → role.tenantId = some tenantId

structure Database.Sound (db : Database) : Prop where
  rows : (db.settings.map (·.tenantId)).Nodup
  domains : ∀ row ∈ db.settings, WellFormed row.policy.allowedEmailDomains
  roles : ∀ row ∈ db.settings, ∀ id, row.policy.defaultRoleId = some id → db.Names row.tenantId id
  present : ∀ row ∈ db.settings, ∀ id, row.policy.defaultRoleId = some id →
    ∃ role ∈ db.roles, role.id = id
  issued : ∀ role ∈ db.roles, role.id ∈ db.issued
  roleIds : (db.roles.map (·.id)).Nodup

/-- The history goes on, and the policies change as it says. -/
structure Database.Grows (db db' : Database) : Prop where
  sound : db.Sound → db'.Sound
  names : ∀ tenantId roleId, db.Names tenantId roleId → db'.Names tenantId roleId
  history : ∃ more, db'.history = db.history ++ more ∧ db'.policy = after db.policy more

namespace Database

variable {db db' : Database} {clock : ℕ}

theorem Grows.refl (db : Database) : db.Grows db :=
  ⟨fun h => h, fun _ _ h => h, [], (List.append_nil _).symm, rfl⟩

theorem Grows.of_eq (hsettings : db'.settings = db.settings) (hroles : db'.roles = db.roles)
    (hissued : db'.issued = db.issued) (hhistory : db'.history = db.history) : db.Grows db' := by
  cases db
  cases db'
  subst hsettings hroles hissued hhistory
  exact ⟨fun h => ⟨h.rows, h.domains, h.roles, h.present, h.issued, h.roleIds⟩, fun _ _ h => h, [],
    (List.append_nil _).symm, rfl⟩

theorem row?_mem {tenantId : String} {row : SettingsRow} (h : db.row? tenantId = some row) :
    row ∈ db.settings ∧ row.tenantId = tenantId :=
  ⟨List.mem_of_find?_eq_some h, of_decide_eq_true (List.find?_some h :)⟩

theorem row?_put (row : SettingsRow) (tenantId : String) :
    (db.put row).find? (·.tenantId = tenantId) =
      if tenantId = row.tenantId then some row else db.row? tenantId := by
  unfold put
  by_cases hrow : (db.row? row.tenantId).isSome
  · rw [if_pos hrow]
    have hfind (rows : List SettingsRow) :
        (rows.map fun old => if old.tenantId = row.tenantId then row else old).find?
          (·.tenantId = tenantId) =
        if tenantId = row.tenantId then (rows.find? (·.tenantId = row.tenantId)).map fun _ => row
        else rows.find? (·.tenantId = tenantId) := by
      induction rows with
      | nil => simp
      | cons old rows ih =>
        rw [List.map_cons, List.find?_cons, List.find?_cons, List.find?_cons, ih]
        by_cases hold : old.tenantId = row.tenantId <;> by_cases htenant : tenantId = row.tenantId
        · simp [hold, htenant]
        · have hne : ¬row.tenantId = tenantId := fun h => htenant h.symm
          simp [hold, htenant, hne]
        · simp [hold, htenant]
        · simp [hold, htenant]
    rw [hfind]
    by_cases htenant : tenantId = row.tenantId
    · obtain ⟨old, hold⟩ := Option.isSome_iff_exists.mp hrow
      rw [if_pos htenant, if_pos htenant]
      change (db.row? row.tenantId).map (fun _ => row) = some row
      rw [hold, Option.map_some]
    · rw [if_neg htenant, if_neg htenant]
      rfl
  · rw [if_neg hrow, List.find?_append]
    by_cases htenant : tenantId = row.tenantId
    · subst htenant
      change (db.row? row.tenantId).or _ = _
      rw [Option.not_isSome_iff_eq_none.mp hrow]
      simp
    · have hne : ¬row.tenantId = tenantId := fun h => htenant h.symm
      rw [if_neg htenant]
      change (db.row? tenantId).or _ = _
      simp [hne]

/-- What the upsert writes is the patch over the policy that the table gives. -/
theorem upserted_policy (tenantId : String) (patch : TenantSettingsPatch) :
    (db.upserted clock tenantId patch).policy = patch.over (db.policy tenantId) ∧
      (db.upserted clock tenantId patch).tenantId = tenantId := by
  unfold upserted policy
  cases db.row? tenantId with
  | none => exact ⟨rfl, rfl⟩
  | some row => exact ⟨rfl, rfl⟩

/-- A patch that keeps a policy's whitelist well formed and its default role the tenant's own. -/
structure Fits (db : Database) (tenantId : String) (patch : TenantSettingsPatch) : Prop where
  domains : ∀ domains, patch.allowedEmailDomains = some domains → WellFormed domains
  role : ∀ id, patch.defaultRoleId = some (some id) → db.Names tenantId id

theorem Sound.policy (h : db.Sound) (tenantId : String) :
    WellFormed (db.policy tenantId).allowedEmailDomains ∧
      ∀ id, (db.policy tenantId).defaultRoleId = some id → db.Names tenantId id := by
  unfold Database.policy
  cases hrow : db.row? tenantId with
  | none => exact ⟨⟨.nil, fun _ hd => by cases hd⟩, fun id hid => by cases hid⟩
  | some row =>
    obtain ⟨hmem, rfl⟩ := row?_mem hrow
    exact ⟨h.domains row hmem, h.roles row hmem⟩

theorem Sound.upserted (h : db.Sound) {tenantId : String} {patch : TenantSettingsPatch}
    (hfits : db.Fits tenantId patch) :
    WellFormed (db.upserted clock tenantId patch).policy.allowedEmailDomains ∧
      ∀ id, (db.upserted clock tenantId patch).policy.defaultRoleId = some id →
        db.Names tenantId id := by
  rw [(upserted_policy tenantId patch).1]
  constructor
  · cases hdomains : patch.allowedEmailDomains with
    | none => simpa [TenantSettingsPatch.over, hdomains] using (h.policy tenantId).1
    | some domains => simpa [TenantSettingsPatch.over, hdomains] using hfits.domains domains hdomains
  · intro id hid
    cases hrole : patch.defaultRoleId with
    | none =>
      exact (h.policy tenantId).2 id (by simpa [TenantSettingsPatch.over, hrole] using hid)
    | some roleId =>
      have hroleId : roleId = some id := by simpa [TenantSettingsPatch.over, hrole] using hid
      exact hfits.role id (by rw [hrole, hroleId])

theorem mem_put {row other : SettingsRow} (h : other ∈ db.put row) :
    other = row ∨ other ∈ db.settings := by
  unfold put at h
  split at h
  · obtain ⟨old, hold, rfl⟩ := List.mem_map.mp h
    split
    · exact .inl rfl
    · exact .inr hold
  · rcases List.mem_append.mp h with hold | hnew
    · exact .inr hold
    · exact .inl (List.mem_singleton.mp hnew)

theorem put_ids (row : SettingsRow) (h : (db.settings.map (·.tenantId)).Nodup) :
    ((db.put row).map (·.tenantId)).Nodup := by
  unfold put
  split
  · have hids : (db.settings.map fun old => if old.tenantId = row.tenantId then row else old).map
        (·.tenantId) = db.settings.map (·.tenantId) := by
      rw [List.map_map]
      refine List.map_congr_left fun old _ => ?_
      dsimp only [Function.comp_apply]
      split
      · exact Eq.symm ‹_›
      · rfl
    rw [hids]
    exact h
  · rename_i hnone
    rw [List.map_append, List.nodup_append]
    refine ⟨h, List.nodup_singleton _, fun a ha b hb hab => hnone ?_⟩
    obtain ⟨old, hold, rfl⟩ := List.mem_map.mp ha
    rw [List.map_singleton, List.mem_singleton] at hb
    exact List.find?_isSome.mpr ⟨old, hold, decide_eq_true (hab.trans hb)⟩

theorem upsert_grows {tenantId : String} {patch : TenantSettingsPatch}
    (hfits : db.Sound → db.Fits tenantId patch) :
    db.Grows ((Op.upsert tenantId patch).effect clock db).2 := by
  simp only [Op.effect]
  split
  · rename_i hkeys
    have htenant := (@upserted_policy db clock tenantId patch).2
    refine ⟨fun h => ⟨put_ids _ h.rows, fun row hrow => ?_, fun row hrow id hid => ?_,
      fun row hrow id hid => ?_, h.issued, h.roleIds⟩, fun _ _ h => h, [.patch tenantId patch], rfl,
      funext fun t => ?_⟩
    · rcases mem_put hrow with rfl | hold
      · exact (h.upserted (hfits h)).1
      · exact h.domains row hold
    · rcases mem_put hrow with rfl | hold
      · rw [htenant]
        exact (h.upserted (hfits h)).2 id hid
      · exact h.roles row hold id hid
    · rcases mem_put hrow with rfl | hold
      · have hrole := hkeys.2.2
        rw [hid, Option.all_some] at hrole
        obtain ⟨role, hmem, hrole⟩ := List.any_eq_true.mp hrole
        exact ⟨role, hmem, of_decide_eq_true hrole⟩
      · exact h.present row hold id hid
    · change Database.policy _ t = if t = tenantId then patch.over (db.policy t) else db.policy t
      have hfind := db.row?_put (db.upserted clock tenantId patch) t
      rw [htenant] at hfind
      rw [policy, row?, hfind]
      by_cases ht : t = tenantId
      · subst ht
        rw [if_pos rfl, if_pos rfl]
        exact (upserted_policy t patch).1
      · rw [if_neg ht, if_neg ht]
        rfl
  · exact .refl db

theorem Sound.names (h : db.Sound) {tenantId roleId : String} {role : Role} (hrole : role ∈ db.roles)
    (hid : role.id = roleId) (htenant : role.tenantId = some tenantId) : db.Names tenantId roleId := by
  refine ⟨hid ▸ h.issued role hrole, fun other hother hother' => ?_⟩
  rw [List.inj_on_of_nodup_map h.roleIds hother hrole (hother'.trans hid.symm)]
  exact htenant

theorem addRole_grows {role : Role} (hnew : db.issued.contains role.id = false) :
    db.Grows { db with roles := db.roles ++ [role], issued := db.issued ++ [role.id] } := by
  have hnames (tenantId roleId : String) (h : db.Names tenantId roleId) :
      ({ db with roles := db.roles ++ [role], issued := db.issued ++ [role.id] } :
        Database).Names tenantId roleId := by
    refine ⟨List.mem_append_left _ h.1, fun other hother hid => ?_⟩
    rcases List.mem_append.mp hother with hold | hnew'
    · exact h.2 other hold hid
    · cases List.mem_singleton.mp hnew'
      rw [hid, List.contains_eq_mem] at hnew
      exact absurd h.1 (of_decide_eq_false hnew)
  refine ⟨fun h => ⟨h.rows, h.domains, fun row hrow id hid => hnames _ _ (h.roles row hrow id hid),
    fun row hrow id hid => ?_, fun other hother => ?_, ?_⟩, hnames, [], (List.append_nil _).symm, rfl⟩
  · obtain ⟨role, hmem, hrole⟩ := h.present row hrow id hid
    exact ⟨role, List.mem_append_left _ hmem, hrole⟩
  · rcases List.mem_append.mp hother with hold | hnew'
    · exact List.mem_append_left _ (h.issued other hold)
    · cases List.mem_singleton.mp hnew'
      exact List.mem_append_right _ (List.mem_singleton_self _)
  · rw [List.map_append, List.nodup_append]
    refine ⟨h.roleIds, List.nodup_singleton _, fun a ha b hb hab => ?_⟩
    obtain ⟨old, hold, rfl⟩ := List.mem_map.mp ha
    rw [List.map_singleton, List.mem_singleton] at hb
    rw [List.contains_eq_mem, ← hb, ← hab] at hnew
    exact of_decide_eq_false hnew (h.issued old hold)

theorem dropTenant_grows (id : String) : db.Grows { db with
    tenants := db.tenants.filter (· ≠ id)
    settings := db.settings.filter (·.tenantId ≠ id)
    history := db.history ++ [.tenantGone id] } := by
  refine ⟨fun h => ⟨?_, fun row hrow => h.domains row (List.mem_of_mem_filter hrow),
    fun row hrow => h.roles row (List.mem_of_mem_filter hrow),
    fun row hrow => h.present row (List.mem_of_mem_filter hrow), h.issued, h.roleIds⟩, fun _ _ h => h,
    [.tenantGone id], rfl, funext fun t => ?_⟩
  · exact h.rows.sublist (List.filter_sublist.map _)
  · change Database.policy _ t = if t = id then DEFAULT_SETTINGS else db.policy t
    have hfind : (db.settings.filter (·.tenantId ≠ id)).find? (·.tenantId = t) =
        if t = id then none else db.row? t := by
      rw [List.find?_filter]
      by_cases ht : t = id
      · rw [if_pos ht, List.find?_eq_none]
        intro row _ hrow
        obtain ⟨hne, heq⟩ := of_decide_eq_true hrow
        exact (of_decide_eq_true hne) ((of_decide_eq_true heq).trans ht)
      · rw [if_neg ht]
        refine congrArg (List.find? · db.settings) (funext fun row => decide_eq_decide.mpr ?_)
        refine ⟨fun h => of_decide_eq_true h.2,
          fun h => ⟨decide_eq_true fun hid => ?_, decide_eq_true h⟩⟩
        exact ht (h.symm.trans hid)
    rw [policy, row?, hfind]
    by_cases ht : t = id
    · rw [if_pos ht, if_pos ht]
      rfl
    · rw [if_neg ht, if_neg ht]
      rfl

theorem withoutRole_tenantId (id : String) (row : SettingsRow) :
    (row.withoutRole id).tenantId = row.tenantId := by
  unfold SettingsRow.withoutRole
  split <;> rfl

theorem withoutRole_role {id roleId : String} {row : SettingsRow}
    (h : (row.withoutRole id).policy.defaultRoleId = some roleId) :
    row.policy.defaultRoleId = some roleId ∧ roleId ≠ id := by
  unfold SettingsRow.withoutRole at h
  split at h
  · cases h
  · rename_i hne
    exact ⟨h, fun heq => hne (heq ▸ h)⟩

theorem dropRole_grows (id : String) : db.Grows { db with
    roles := db.roles.filter (·.id ≠ id)
    settings := db.settings.map (.withoutRole id)
    history := db.history ++ [.roleGone id] } := by
  have hnames (tenantId roleId : String) (h : db.Names tenantId roleId) : ({ db with
      roles := db.roles.filter (·.id ≠ id)
      settings := db.settings.map (.withoutRole id)
      history := db.history ++ [.roleGone id] } : Database).Names tenantId roleId :=
    ⟨h.1, fun role hrole => h.2 role (List.mem_of_mem_filter hrole)⟩
  refine ⟨fun h => ⟨?_, fun row hrow => ?_, fun row hrow roleId hid => ?_,
    fun row hrow roleId hid => ?_, fun role hrole => h.issued role (List.mem_of_mem_filter hrole),
    h.roleIds.sublist (List.filter_sublist.map _)⟩, hnames, [.roleGone id], rfl, funext fun t => ?_⟩
  · have hids : (db.settings.map (SettingsRow.withoutRole id)).map (·.tenantId) =
        db.settings.map (·.tenantId) := by
      rw [List.map_map]
      exact List.map_congr_left fun row _ => withoutRole_tenantId id row
    rw [hids]
    exact h.rows
  · obtain ⟨old, hold, rfl⟩ := List.mem_map.mp hrow
    have hdomains := h.domains old hold
    unfold SettingsRow.withoutRole
    split <;> exact hdomains
  · obtain ⟨old, hold, rfl⟩ := List.mem_map.mp hrow
    rw [withoutRole_tenantId]
    exact hnames _ _ (h.roles old hold roleId (withoutRole_role hid).1)
  · obtain ⟨old, hold, rfl⟩ := List.mem_map.mp hrow
    obtain ⟨hkept, hne⟩ := withoutRole_role hid
    obtain ⟨role, hmem, hrole⟩ := h.present old hold roleId hkept
    refine ⟨role, List.mem_filter.mpr ⟨hmem, decide_eq_true fun heq => hne ?_⟩, hrole⟩
    exact hrole.symm.trans heq
  · change Database.policy _ t = if (db.policy t).defaultRoleId = some id then
      { db.policy t with defaultRoleId := none } else db.policy t
    have hfind : (db.settings.map (SettingsRow.withoutRole id)).find? (·.tenantId = t) =
        (db.row? t).map (.withoutRole id) := by
      rw [List.find?_map]
      refine congrArg (Option.map _) (congrArg (List.find? · db.settings) (funext fun row => ?_))
      rw [Function.comp_apply, withoutRole_tenantId]
    rw [policy, row?, hfind, policy]
    cases db.row? t with
    | none => rfl
    | some row =>
      simp only [Option.map_some, Option.getD_some, SettingsRow.withoutRole]
      by_cases hrole : row.policy.defaultRoleId = some id
      · rw [if_pos hrole, if_pos hrole]
      · rw [if_neg hrole, if_neg hrole]

end Database

end Flexi.Accounts.Settings
