import Flexi.Accounts.SettingsTable

/-!
# Runs of the settings service

However the requests fall among one another and among the roles and tenants that come and go,
the table keeps standing for the map of its history, and a request is answered out of it.
-/

namespace Flexi.Accounts.Settings
open Flexi.Library

/-! ### The code among the others -/

section
variable {db db' : Database} {clock : ℕ} {fault : Fault} {op : Op}

theorem Op.perform_grows (h : db.Grows (op.effect clock db).2) :
    db.Grows (op.perform clock fault db).2 := by
  cases fault with
  | none => exact h
  | refused => exact .refl db
  | lost => exact h

theorem Op.perform_ok {a : op.Res} (h : (op.perform clock fault db).1 = .ok a) :
    (op.effect clock db).1 = .ok a ∧ (op.perform clock fault db).2 = (op.effect clock db).2 := by
  cases fault with
  | none => exact ⟨h, rfl⟩
  | refused => cases h
  | lost => cases h

end

/-- Anyone else may do whatever goes on with the history. -/
def serving : Rules Op Op.Res Unit SettingsError Database where
  sees _ := True
  exec op db db' r := ∃ clock fault, op.perform clock fault db = (r, db')
  interfere := Database.Grows
  guarantee := Database.Grows

/-- The table stands for the map that the history has led to, which has come to `base`. -/
structure Stands (policies : String → Policy) (base : List Change) (db : Database) : Prop where
  sound : db.Sound
  refines : db.policy = after policies db.history
  base : base <+: db.history

/-- The answer is the policy as it was at some point of the history after `base`, which `done`
has ended in, and its whitelist is one of domains. -/
def Tells (policies : String → Policy) (base : List Change) (tenantId : String) (done : List Change)
    (answer : EffectiveTenantSettings) (db : Database) : Prop :=
  ∃ before later, db.history = before ++ done ++ later ∧ base <+: before ∧
    answer.tenantId = tenantId ∧ answer.policy = after policies (before ++ done) tenantId ∧
      WellFormed answer.policy.allowedEmailDomains

section
variable {policies : String → Policy} {base : List Change} {tenantId : String} {done : List Change}
  {answer : EffectiveTenantSettings}

theorem stands_stable : serving.Stable (Stands policies base) := by
  intro db db' h hg
  obtain ⟨more, hhistory, hpolicy⟩ := hg.history
  exact ⟨hg.sound h.sound, by rw [hpolicy, h.refines, hhistory, after_append],
    hhistory ▸ h.base.trans (List.prefix_append _ _)⟩

theorem tells_stable : serving.Stable (Tells policies base tenantId done answer) := by
  rintro db db' ⟨before, later, hhistory, hrest⟩ hg
  obtain ⟨more, hhistory', -⟩ := hg.history
  exact ⟨before, later ++ more, by rw [hhistory', hhistory, List.append_assoc], hrest⟩

theorem const_stable {p : Prop} : serving.Stable fun _ => p := fun _ _ h _ => h

/-- A call, and what holds after its answer; an error leaves what holds. -/
theorem outline_kept {P : Database → Prop} {op : Op} {Q : op.Res → Database → Prop}
    (hP : serving.Stable P) (hQ : ∀ a, serving.Stable (Q a))
    (hgrows : ∀ db clock, P db → db.Grows (op.effect clock db).2)
    (hok : ∀ db clock a, P db → (op.effect clock db).1 = .ok a → Q a (op.effect clock db).2) :
    Outline serving P (request op) Q fun _ => P := by
  refine .await hP hQ (fun _ => hP) ?_ ?_
  · rintro db db' a hdb ⟨clock, fault, hx⟩
    have hg : db.Grows (op.perform clock fault db).2 := Op.perform_grows (hgrows db clock hdb)
    have hanswer := @Op.perform_ok db clock fault op a (by rw [hx])
    rw [hx] at hg hanswer
    have hdb' : db' = (op.effect clock db).2 := hanswer.2
    exact ⟨hg, hdb' ▸ hok db clock a hdb hanswer.1⟩
  · rintro db db' e hdb ⟨clock, fault, hx⟩
    have hg : db.Grows (op.perform clock fault db).2 := Op.perform_grows (hgrows db clock hdb)
    rw [hx] at hg
    exact ⟨hg, hP db db' hdb hg⟩

theorem outline_call {P : Database → Prop} {op : Op} {Q : op.Res → Database → Prop}
    (hP : serving.Stable P) (hQ : ∀ a, serving.Stable (Q a))
    (hgrows : ∀ db clock, P db → db.Grows (op.effect clock db).2)
    (hok : ∀ db clock a, P db → (op.effect clock db).1 = .ok a → Q a (op.effect clock db).2) :
    Outline serving P (request op) Q fun _ _ => True :=
  (outline_kept hP hQ hgrows hok).conseq (fun _ h => h) (fun _ _ h => h) fun _ _ _ => trivial

/-! ### Targets -/

/-- The caller may act on the tenant: its own, or for a system caller the one it names. -/
def Authorised (currentUser : CurrentUser) (tenantIdHeader : Option String) (tenantId : String) :
    Prop :=
  match currentUser.actorType with
  | .TENANT => TENANT_SETTINGS_MANAGE_PERMISSION ∈ currentUser.permissions ∧
    currentUser.tenantId = some tenantId ∧
      (headerText tenantIdHeader = "" ∨ headerText tenantIdHeader = tenantId)
  | .SYSTEM => SYSTEM_SETTINGS_MANAGE_PERMISSION ∈ currentUser.permissions ∧
    tenantId ≠ "" ∧ headerText tenantIdHeader = tenantId

variable {currentUser : CurrentUser} {tenantIdHeader : Option String}

theorem resolveTargetTenant_keeps {H : Op → Prop} (hH : ∀ id, H (.findTenant id)) :
    (resolveTargetTenant currentUser tenantIdHeader).Keeps (calling H)
      (fun tenantId _ => Authorised currentUser tenantIdHeader tenantId) () := by
  unfold resolveTargetTenant assertPermission
  dsimp only
  split
  · rename_i htype
    split
    · rename_i hpermission
      change Prog.Keeps _ _ _ (if currentUser.tenantId.getD "" = "" then _ else _)
      split
      · exact .throw trivial
      rename_i htenant
      split
      · exact .throw trivial
      rename_i hheader
      refine .pure ?_
      unfold Authorised
      rw [htype]
      refine ⟨by simpa using hpermission, ?_, ?_⟩
      · cases hid : currentUser.tenantId with
        | none =>
          rw [hid] at htenant
          exact absurd rfl htenant
        | some id => rfl
      · by_cases hempty : headerText tenantIdHeader = ""
        · exact .inl hempty
        · exact .inr (not_not.mp fun hne => hheader ⟨hempty, hne⟩)
    · exact .throw trivial
  · rename_i htype
    split
    · rename_i hpermission
      change Prog.Keeps _ _ _ (if headerText tenantIdHeader = "" then _ else _)
      split
      · exact .throw trivial
      rename_i hheader
      refine .bind (.await (Q := fun _ _ => True) (hH _) (fun _ => trivial) fun _ => trivial)
        fun tenant _ _ => ?_
      split
      · refine .pure ?_
        unfold Authorised
        rw [htype]
        exact ⟨by simpa using hpermission, hheader, rfl⟩
      · exact .throw trivial
    · exact .throw trivial

/-- The calls that leave the tables. -/
def Op.Reads (op : Op) : Prop := ∀ db clock, (op.effect clock db).2 = db

theorem outline_reads {α : Type} {p : Service α} {Q : α → Prop} {P : Database → Prop}
    (hp : p.Keeps (calling Op.Reads) (fun a _ => Q a) ()) (hP : serving.Stable P) :
    Outline serving P p (fun a db => Q a ∧ P db) fun _ _ => True := by
  refine .of_keeps hp hP ?_
  rintro op db db' r hreads ⟨clock, fault, hx⟩ hdb
  have hsame : db' = db := by
    cases fault with
    | none => exact (congrArg Prod.snd hx).symm.trans (hreads db clock)
    | refused => exact (congrArg Prod.snd hx).symm
    | lost => exact (congrArg Prod.snd hx).symm.trans (hreads db clock)
  subst hsame
  exact ⟨hdb, .refl _⟩

end

/-! ### Patches -/

/-- Every domain that is taken is one, and is taken once. -/
theorem normalizeDomains_wellFormed {js : Tenants.JsText} {domains normalized result : List String}
    (h : normalizeDomains js normalized domains = .ok result) (hnormalized : WellFormed normalized) :
    WellFormed result := by
  induction domains generalizing normalized with
  | nil =>
    cases h
    exact hnormalized
  | cons raw domains ih =>
    unfold normalizeDomains at h
    dsimp only at h
    split at h
    · exact ih h hnormalized
    split at h
    · rename_i hpattern
      refine ih h ?_
      split
      · exact hnormalized
      · rename_i hnew
        refine ⟨?_, fun domain hdomain => ?_⟩
        · rw [List.nodup_append]
          refine ⟨hnormalized.nodup, List.nodup_singleton _, fun a ha b hb hab => hnew ?_⟩
          rw [List.mem_singleton.mp hb] at hab
          exact List.contains_iff_mem.mpr (hab ▸ ha)
        · rcases List.mem_append.mp hdomain with hold | hlast
          · exact hnormalized.pattern domain hold
          · exact List.mem_singleton.mp hlast ▸ hpattern
    · cases h

/-- What `normalizeDomains` makes of the domains of a body. -/
inductive Normalizes (js : Tenants.JsText) : Optional (List String) → Option (List String) → Prop
  | absent : Normalizes js none none
  | list {domains normalized : List String} : normalizeDomains js [] domains = .ok normalized →
      Normalizes js (some (some domains)) (some normalized)

/-- The patch is what the body carries, with its domains normalized. -/
structure UpdateTenantSettingsDto.Asks (js : Tenants.JsText) (dto : UpdateTenantSettingsDto)
    (patch : TenantSettingsPatch) : Prop where
  allowSelfRegistration : patch.allowSelfRegistration = dto.allowSelfRegistration
  allowSystemImpersonation : patch.allowSystemImpersonation = dto.allowSystemImpersonation
  allowedEmailDomains : Normalizes js dto.allowedEmailDomains patch.allowedEmailDomains
  defaultRoleId : patch.defaultRoleId = dto.defaultRoleId
  requireApproval : patch.requireApproval = dto.requireApproval

section
variable {js : Tenants.JsText} {policies : String → Policy} {base : List Change} {tenantId : String}
  {P : Database → Prop}

theorem patchDomains_keeps {H : Op → Prop} (value : Optional (List String)) :
    (patchDomains js value).Keeps (calling H) (fun domains _ => Normalizes js value domains) () := by
  cases value with
  | none => exact .pure .absent
  | some value =>
    cases value with
    | none => exact .throw trivial
    | some domains =>
      unfold patchDomains
      dsimp only
      split
      · rename_i normalized hdomains
        exact .pure (.list hdomains)
      · exact .throw trivial

theorem patchRole_keeps {H : Op → Prop} (hH : ∀ roleId, H (.findRole tenantId roleId))
    (value : Optional String) :
    (patchRole tenantId value).Keeps (calling H) (fun roleId _ => roleId = value) () := by
  cases value with
  | none => exact .pure rfl
  | some value =>
    cases value with
    | none => exact .pure rfl
    | some roleId =>
      refine .bind (Q := fun id _ => id = roleId) (.bind (.await (Q := fun _ _ => True) (hH _)
        (fun _ => trivial) fun _ => trivial) fun found _ _ => ?_) fun id _ hid => .pure (hid ▸ rfl)
      split
      · exact .pure rfl
      · exact .throw trivial

theorem patchRole_returns (hP : serving.Stable P) (hsound : ∀ db, P db → db.Sound)
    (value : Optional String) :
    Outline serving P (patchRole tenantId value)
      (fun roleId db => roleId = value ∧ (∀ id, value = some (some id) → db.Names tenantId id) ∧ P db)
      fun _ _ => True := by
  have hnone : ∀ v : Optional String, (∀ id, v ≠ some (some id)) →
      Outline serving P (pure v)
        (fun roleId db => roleId = v ∧ (∀ id, v = some (some id) → db.Names tenantId id) ∧ P db)
        fun _ _ => True := fun v hv => .pure fun db hdb => ⟨rfl, fun id hid => absurd hid (hv id), hdb⟩
  cases value with
  | none => exact hnone none fun id hid => by cases hid
  | some value =>
    cases value with
    | none => exact hnone (some none) fun id hid => by cases hid
    | some roleId =>
      have hnames : serving.Stable fun db => db.Names tenantId roleId := fun _ _ h hg => hg.names _ _ h
      have hcall : Outline serving P (request (.findRole tenantId roleId))
          (fun found db => (found = true → db.Names tenantId roleId) ∧ P db) fun _ _ => True := by
        refine outline_call hP
          (fun found db db' h hg => ⟨fun hf => hnames _ _ (h.1 hf) hg, hP _ _ h.2 hg⟩)
          (fun db clock _ => .refl db) fun db clock found hdb hfound => ⟨fun hf => ?_, hdb⟩
        subst hf
        obtain ⟨role, hmem, hrole⟩ := List.any_eq_true.mp (Except.ok.inj hfound)
        obtain ⟨hid, htenant⟩ := Bool.and_eq_true_iff.mp hrole
        exact (hsound db hdb).names hmem (of_decide_eq_true hid) (of_decide_eq_true htenant)
      refine .bind (Q := fun id db => id = roleId ∧ db.Names tenantId roleId ∧ P db)
        (.bind hcall fun found => ?_) fun id => .pure fun db hdb => ?_
      · cases found with
        | true => exact .pure fun db hdb => ⟨rfl, hdb.1 rfl, hdb.2⟩
        | false => exact .throw fun _ _ => trivial
      · obtain ⟨rfl, hdb⟩ := hdb
        refine ⟨rfl, fun id' hid' => ?_, hdb.2⟩
        cases hid'
        exact hdb.1

end

/-! ### Requests -/

section
variable {js : Tenants.JsText} {policies : String → Policy} {base : List Change} {tenantId : String}
  {P : Database → Prop}

theorem outline_resolveEffectiveSettings :
    Outline serving (Stands policies base) (resolveEffectiveSettings tenantId)
      (fun answer db => Tells policies base tenantId [] answer db ∧ Stands policies base db)
      fun _ _ => True := by
  refine .bind (Q := fun row db => Tells policies base tenantId [] (fromRow tenantId row) db ∧
    Stands policies base db) ?_ fun row => .pure fun _ hdb => hdb
  refine outline_call stands_stable (fun _ => tells_stable.and stands_stable)
    (fun db _ _ => .refl db) ?_
  intro db clock row hdb hrow
  have hpolicy : (fromRow tenantId row).tenantId = tenantId ∧
      (fromRow tenantId row).policy = db.policy tenantId := by
    rw [← Except.ok.inj hrow, Database.policy]
    cases db.row? tenantId with
    | none => exact ⟨rfl, rfl⟩
    | some found => exact ⟨rfl, rfl⟩
  refine ⟨⟨db.history, [], by simp [Op.effect], hdb.base, hpolicy.1, ?_, ?_⟩, hdb⟩
  · rw [hpolicy.2, List.append_nil, hdb.refines]
  · rw [hpolicy.2]
    exact (hdb.sound.policy tenantId).1

theorem outline_upsert {patch : TenantSettingsPatch}
    (hP : ∀ db, P db → Stands policies base db ∧ db.Fits tenantId patch)
    (hstable : serving.Stable P) :
    Outline serving P (request (.upsert tenantId patch))
      (fun row db =>
        Tells policies base tenantId [.patch tenantId patch] (fromRow tenantId (some row)) db)
      fun _ _ => True := by
  refine outline_call hstable (fun _ => tells_stable)
    (fun db clock hdb => Database.upsert_grows fun _ => (hP db hdb).2) fun db clock row hdb hrow => ?_
  simp only [Op.effect] at hrow ⊢
  split at hrow
  · rename_i hkeys
    rw [if_pos hkeys]
    cases hrow
    refine ⟨db.history, [], by simp, (hP db hdb).1.base, rfl, ?_, ?_⟩
    · change (db.upserted clock tenantId patch).policy = _
      rw [(Database.upserted_policy tenantId patch).1, after_append, ← (hP db hdb).1.refines]
      change _ = if tenantId = tenantId then _ else _
      rw [if_pos rfl]
    · exact ((hP db hdb).1.sound.upserted (hP db hdb).2).1
  · cases hrow

theorem outline_record (hP : serving.Stable P) (event : String) :
    Outline serving P (record event tenantId) (fun _ => P) fun _ _ => True := by
  have hgrows (db : Database) (clock : ℕ) :
      db.Grows ((Op.audit event tenantId).effect clock db).2 := .of_eq rfl rfl rfl rfl
  refine .tryCatch (M := fun _ => P) ?_ fun _ => .pure fun _ hdb => hdb
  exact outline_kept hP (fun _ => hP) (fun db clock _ => hgrows db clock)
    fun db clock _ hdb _ => hP _ _ hdb (hgrows db clock)

/-! ### What a request is answered with -/

theorem Normalizes.wellFormed {value : Optional (List String)} {result : Option (List String)}
    {domains : List String} (h : Normalizes js value result) (hresult : result = some domains) :
    WellFormed domains := by
  cases h with
  | absent => cases hresult
  | list hnormalize =>
    cases hresult
    exact normalizeDomains_wellFormed hnormalize ⟨.nil, fun _ hd => by cases hd⟩

/-- The changes that the request itself has made, one patch at most. -/
def TenantSettingsPatch.changes (patch : TenantSettingsPatch) (tenantId : String) : List Change :=
  if patch.isEmpty then [] else [.patch tenantId patch]

/-- A request is answered with the policy of a tenant that the caller may act on: as it is at
some point of the history after `base`, and if the request changes it, right after that. -/
def Request.Answered (js : Tenants.JsText) (policies : String → Policy) (base : List Change) :
    Request → EffectiveTenantSettings → Database → Prop
  | get currentUser tenantIdHeader, answer, db =>
    Authorised currentUser tenantIdHeader answer.tenantId ∧
      Tells policies base answer.tenantId [] answer db
  | update dto currentUser tenantIdHeader, answer, db =>
    Authorised currentUser tenantIdHeader answer.tenantId ∧ ∃ patch, dto.Asks js patch ∧
      Tells policies base answer.tenantId (patch.changes answer.tenantId) answer db

theorem Tells.tenantId_eq {done : List Change} {answer : EffectiveTenantSettings} {db : Database}
    (h : Tells policies base tenantId done answer db) : answer.tenantId = tenantId := by
  obtain ⟨_, _, _, _, hid, _⟩ := h
  exact hid

theorem outline_getSettings {currentUser : CurrentUser} {tenantIdHeader : Option String} :
    Outline serving (Stands policies base) (getSettings currentUser tenantIdHeader)
      ((Request.get currentUser tenantIdHeader).Answered js policies base) fun _ _ => True := by
  refine .bind (outline_reads (resolveTargetTenant_keeps fun _ _ _ => rfl) stands_stable)
    fun tenantId db hdb => ?_
  refine outline_resolveEffectiveSettings.conseq (fun _ h => h) (fun answer db' h => ?_)
    (fun _ _ h => h) db hdb.2
  have hid := h.1.tenantId_eq
  subst hid
  exact ⟨hdb.1, h.1⟩

theorem outline_updateSettings {dto : UpdateTenantSettingsDto} {currentUser : CurrentUser}
    {tenantIdHeader : Option String} :
    Outline serving (Stands policies base) (updateSettings js dto currentUser tenantIdHeader)
      ((Request.update dto currentUser tenantIdHeader).Answered js policies base) fun _ _ => True := by
  refine .bind (outline_reads (resolveTargetTenant_keeps fun _ _ _ => rfl) stands_stable)
    fun tenantId db hdb => ?_
  obtain ⟨hauthorised, hstands⟩ := hdb
  refine (outline_resolveEffectiveSettings.bind fun before => ?_) db hstands
  have hbefore : serving.Stable fun db =>
      Tells policies base tenantId [] before db ∧ Stands policies base db :=
    tells_stable.and stands_stable
  refine .bind (outline_reads (patchDomains_keeps dto.allowedEmailDomains) hbefore)
    fun domains db hdb => ?_
  obtain ⟨hdomains, hdb⟩ := hdb
  refine ((patchRole_returns hbefore (fun db h => h.2.sound) dto.defaultRoleId).bind
    fun roleId db hdb => ?_) db hdb
  obtain ⟨rfl, hrole, htells, hstands⟩ := hdb
  dsimp only
  generalize hpatch : TenantSettingsPatch.mk dto.allowSelfRegistration dto.allowSystemImpersonation
    domains dto.defaultRoleId dto.requireApproval = patch
  have hasks : dto.Asks js patch := hpatch ▸ ⟨rfl, rfl, hdomains, rfl, rfl⟩
  split
  · rename_i hempty
    have hid := htells.tenantId_eq
    subst hid
    refine ⟨hauthorised, patch, hasks, ?_⟩
    rw [TenantSettingsPatch.changes, if_pos hempty]
    exact htells
  · rename_i hempty
    have hwrite : Outline serving (fun db => Stands policies base db ∧
        ∀ id, dto.defaultRoleId = some (some id) → db.Names tenantId id)
        (request (.upsert tenantId patch)) (fun row db =>
          Tells policies base tenantId (patch.changes tenantId) (fromRow tenantId (some row)) db)
        fun _ _ => True := by
      rw [TenantSettingsPatch.changes, if_neg hempty]
      refine outline_upsert (fun db hdb => ?_)
        (stands_stable.and fun _ _ h hg id hid => hg.names _ _ (h id hid))
      refine ⟨hdb.1, fun domains hd => hasks.allowedEmailDomains.wellFormed hd, fun id hid => ?_⟩
      exact hdb.2 id (hasks.defaultRoleId ▸ hid)
    refine (hwrite.bind fun row => ?_) db ⟨hstands, hrole⟩
    have hanswer : serving.Stable
        (Tells policies base tenantId (patch.changes tenantId) (fromRow tenantId (some row))) :=
      tells_stable
    refine .bind (outline_record hanswer _) fun _ => ?_
    have hdone : Outline serving
        (Tells policies base tenantId (patch.changes tenantId) (fromRow tenantId (some row)))
        (pure (fromRow tenantId (some row)))
        ((Request.update dto currentUser tenantIdHeader).Answered js policies base) fun _ _ => True :=
      .pure fun db htells => ⟨hauthorised, patch, hasks, htells⟩
    split
    · exact .bind (outline_record hanswer _) fun _ => hdone
    · exact hdone

end

/-! ### Who writes -/

/-- The request may act on the tenant, and the patch is what it asks for. -/
def Request.Asked (js : Tenants.JsText) (r : Request) (tenantId : String)
    (patch : TenantSettingsPatch) : Prop :=
  ∃ dto currentUser tenantIdHeader, r = .update dto currentUser tenantIdHeader ∧
    Authorised currentUser tenantIdHeader tenantId ∧ dto.Asks js patch

def Request.Makes (js : Tenants.JsText) (r : Request) : Op → Prop
  | .upsert tenantId patch => r.Asked js tenantId patch
  | _ => True

theorem code_makes (js : Tenants.JsText) (r : Request) :
    (r.code js).Keeps (calling (r.Makes js)) (fun _ _ => True) () := by
  have hawait (op : Op) (hop : r.Makes js op) :
      (request op).Keeps (calling (r.Makes js)) (fun _ _ => True) () :=
    .await hop (fun _ => trivial) fun _ => trivial
  have hread (tenantId : String) : (resolveEffectiveSettings tenantId).Keeps (calling (r.Makes js))
      (fun _ _ => True) () :=
    .bind (hawait (.findSettings tenantId) trivial) fun _ _ _ => .pure trivial
  have hrecord (event tenantId : String) : (record event tenantId).Keeps (calling (r.Makes js))
      (fun _ _ => True) () :=
    .tryCatch (M := fun _ => True) (hawait (.audit event tenantId) trivial) fun _ _ _ => .pure trivial
  cases r with
  | get currentUser tenantIdHeader =>
    exact .bind (resolveTargetTenant_keeps fun _ => trivial) fun tenantId _ _ => hread tenantId
  | update dto currentUser tenantIdHeader =>
    refine .bind (resolveTargetTenant_keeps fun _ => trivial) fun tenantId _ hauthorised => ?_
    refine .bind (hread tenantId) fun before _ _ => ?_
    refine .bind (patchDomains_keeps dto.allowedEmailDomains) fun domains _ hdomains => ?_
    refine .bind (patchRole_keeps (fun _ => trivial) dto.defaultRoleId) fun roleId _ hrole => ?_
    subst hrole
    dsimp only
    split
    · exact .pure trivial
    · refine .bind (hawait (.upsert tenantId _) ⟨dto, currentUser, tenantIdHeader, rfl, hauthorised,
        rfl, rfl, hdomains, rfl, rfl⟩) fun row _ _ => ?_
      refine .bind (hrecord _ tenantId) fun _ _ _ => ?_
      split
      · exact .bind (hrecord _ tenantId) fun _ _ _ => .pure trivial
      · exact .pure trivial

theorem Op.perform_history {db : Database} {clock : ℕ} {fault : Fault} (op : Op) {tenantId : String}
    {patch : TenantSettingsPatch} (h : .patch tenantId patch ∈ (op.perform clock fault db).2.history) :
    .patch tenantId patch ∈ db.history ∨ op = .upsert tenantId patch := by
  have heffect (h : .patch tenantId patch ∈ (op.effect clock db).2.history) :
      .patch tenantId patch ∈ db.history ∨ op = .upsert tenantId patch := by
    cases op with
    | upsert id fields =>
      simp only [Op.effect] at h
      split at h
      · rcases List.mem_append.mp h with hold | hlast
        · exact .inl hold
        · cases List.mem_singleton.mp hlast
          exact .inr rfl
      · exact .inl h
    | _ => exact .inl h
  cases fault with
  | none => exact heffect h
  | refused => exact .inl h
  | lost => exact heffect h

/-! ### Runs -/

/-- What each request is answered with. -/
def answering (js : Tenants.JsText) (policies : String → Policy) (base : List Change) :
    Ends serving (Request.code js) where
  pre := Stands policies base
  ok r := r.Answered js policies base
  error _ _ _ := True
  pre_stable := stands_stable
  ok_stable r answer := by
    cases r with
    | get currentUser tenantIdHeader => exact const_stable.and tells_stable
    | update dto currentUser tenantIdHeader =>
      rintro db db' ⟨hauthorised, patch, hasks, htells⟩ hg
      exact ⟨hauthorised, patch, hasks, tells_stable db db' htells hg⟩
  error_stable _ _ := const_stable
  outline r := by
    cases r with
    | get currentUser tenantIdHeader => exact outline_getSettings
    | update dto currentUser tenantIdHeader => exact outline_updateSettings

section
variable {js : Tenants.JsText} {s₀ s s' : System} {e : SystemEvent}

theorem System.step_pool (hs : s.step js e = some s') :
    PoolStep serving (Request.code js) s.db s.requests s'.db s'.requests := by
  cases e with
  | arrive r =>
    cases hs
    exact .arrive r () trivial
  | execute i fault =>
    obtain ⟨f, hf, hs⟩ := Option.bind_eq_some_iff.mp hs
    obtain ⟨⟨thread, db⟩, hx, rfl⟩ := Option.map_eq_some_iff.mp hs
    exact .execute i f (Op.perform s.clock fault) thread db hf (fun o => ⟨s.clock, fault, rfl⟩) hx
  | deliver i =>
    obtain ⟨f, hf, hs⟩ := Option.bind_eq_some_iff.mp hs
    obtain ⟨thread, hx, rfl⟩ := Option.map_eq_some_iff.mp hs
    exact .deliver i f () thread hf trivial hx
  | addTenant id =>
    cases hs
    exact .other _ (.of_eq rfl rfl rfl rfl)
  | dropTenant id =>
    simp only [System.step] at hs
    split at hs
    · cases hs
    · cases hs
      exact .other _ (Database.dropTenant_grows id)
  | addRole role =>
    simp only [System.step] at hs
    split at hs
    · cases hs
    · rename_i hnew
      cases hs
      exact .other _ (Database.addRole_grows (Bool.eq_false_iff.mpr hnew))
  | dropRole id =>
    cases hs
    exact .other _ (Database.dropRole_grows id)
  | tick d =>
    cases hs
    exact .other _ (.refl _)

/-- A patch that a step adds to the history is one that a request asks for. -/
theorem System.step_history (hs : s.step js e = some s')
    (hcalls : ∀ f ∈ s.requests, f.Calling (Request.Makes js)) {tenantId : String}
    {patch : TenantSettingsPatch} (h : .patch tenantId patch ∈ s'.db.history) :
    .patch tenantId patch ∈ s.db.history ∨ ∃ f ∈ s.requests, f.request.Asked js tenantId patch := by
  cases e with
  | execute i fault =>
    obtain ⟨f, hf, hs⟩ := Option.bind_eq_some_iff.mp hs
    obtain ⟨⟨thread, db⟩, hx, rfl⟩ := Option.map_eq_some_iff.mp hs
    have hmem : f ∈ s.requests := List.mem_of_getElem? hf
    obtain ⟨op, k, hthread, hdb⟩ : ∃ op k, f.thread = .awaiting op k ∧
        db = (op.perform s.clock fault s.db).2 := by
      cases hthread : f.thread with
      | awaiting op k =>
        rw [hthread] at hx
        cases hx
        exact ⟨op, k, rfl, rfl⟩
      | answered op r k =>
        rw [hthread] at hx
        cases hx
      | finished r =>
        rw [hthread] at hx
        cases hx
    have hmakes := (hcalls f hmem).allows hthread
    rcases op.perform_history (hdb ▸ h) with hold | hop
    · exact .inl hold
    · subst hop
      exact .inr ⟨f, hmem, hmakes⟩
  | dropTenant id =>
    simp only [System.step] at hs
    split at hs
    · cases hs
    · cases hs
      exact .inl (by simpa using h)
  | addRole role =>
    simp only [System.step] at hs
    split at hs
    · cases hs
    · cases hs
      exact .inl h
  | dropRole id =>
    cases hs
    exact .inl (by simpa using h)
  | deliver i =>
    obtain ⟨f, hf, hs⟩ := Option.bind_eq_some_iff.mp hs
    obtain ⟨thread, hx, rfl⟩ := Option.map_eq_some_iff.mp hs
    exact .inl h
  | arrive r =>
    cases hs
    exact .inl h
  | addTenant id =>
    cases hs
    exact .inl h
  | tick d =>
    cases hs
    exact .inl h

section
variable (hidle : s₀.requests = []) (hsound : s₀.db.Sound) (hnew : s₀.db.history = [])
include hidle hsound hnew

theorem hold_of_run (h : Reach (System.step js) (fun _ _ => True) s₀ s) :
    (answering js s₀.db.policy []).Hold 0 s.db s.requests := by
  refine h.invariant (I := fun s => (answering js s₀.db.policy []).Hold 0 s.db s.requests) ?_ ?_
  · rw [hidle]
    exact .idle ⟨hsound, by rw [hnew]; rfl, List.nil_prefix⟩
  · intro s s' e _ hhold _ hs
    have hpool := System.step_pool hs
    exact hhold.step (hhold.interferes Database.Grows.refl (fun _ _ h => h) hpool) hpool

/-- The requests that come to a state of such a run are answered out of the history from there. -/
theorem hold_from_now {s₁ : System} (h₁ : Reach (System.step js) (fun _ _ => True) s₀ s₁)
    (h : Reach (System.step js) (fun _ _ => True) s₁ s) :
    (answering js s₀.db.policy s₁.db.history).Hold s₁.requests.length s.db s.requests := by
  refine h.invariant (I := fun s => (answering js s₀.db.policy s₁.db.history).Hold
    s₁.requests.length s.db s.requests) ?_ ?_
  · have hstands := (hold_of_run hidle hsound hnew h₁).pre
    exact .from_now ⟨hstands.sound, hstands.refines, List.prefix_refl _⟩
  · intro s s' e hreach hhold _ hs
    have hpool := System.step_pool hs
    exact hhold.step ((hold_of_run hidle hsound hnew (h₁.trans hreach)).interferes Database.Grows.refl
      (fun _ _ h => h) hpool) hpool

omit hsound in
theorem asked_of_run (h : Reach (System.step js) (fun _ _ => True) s₀ s) :
    (∀ f ∈ s.requests, f.Calling (Request.Makes js)) ∧
      ∀ tenantId patch, .patch tenantId patch ∈ s.db.history →
        ∃ f ∈ s.requests, f.request.Asked js tenantId patch := by
  refine h.invariant (I := fun s => (∀ f ∈ s.requests, f.Calling (Request.Makes js)) ∧
    ∀ tenantId patch, .patch tenantId patch ∈ s.db.history →
      ∃ f ∈ s.requests, f.request.Asked js tenantId patch) ⟨?_, ?_⟩ ?_
  · intro f hf
    rw [hidle] at hf
    cases hf
  · intro tenantId patch hpatch
    rw [hnew] at hpatch
    cases hpatch
  · rintro s s' e - ⟨hcalls, hasked⟩ - hs
    have hpool := System.step_pool hs
    refine ⟨hpool.calling (code_makes js) hcalls, fun tenantId patch hpatch => ?_⟩
    have hasked : ∃ f ∈ s.requests, f.request.Asked js tenantId patch := by
      rcases System.step_history hs hcalls hpatch with hold | hasked'
      · exact hasked tenantId patch hold
      · exact hasked'
    obtain ⟨f, hf, hasked⟩ := hasked
    obtain ⟨g, hg, hrequest⟩ := hpool.kept hf
    exact ⟨g, hg, hrequest ▸ hasked⟩

/-- Whatever the order of the requests, and of roles and tenants coming and going: the table has
one row for a tenant, with a whitelist of domains and a default role of that tenant, and stands
for the policies that the patches made so far give, each asked for by a caller who may act on
its tenant. -/
theorem policies_of_history (h : Reach (System.step js) (fun _ _ => True) s₀ s) :
    s.db.Sound ∧ s.db.policy = after s₀.db.policy s.db.history ∧
      ∀ tenantId patch, .patch tenantId patch ∈ s.db.history →
        ∃ f ∈ s.requests, f.request.Asked js tenantId patch := by
  have hstands := (hold_of_run hidle hsound hnew h).pre
  exact ⟨hstands.sound, hstands.refines, (asked_of_run hidle hnew h).2⟩

/-- A request that succeeds is answered with the policy of a tenant that its caller may act on,
as it is at some point of the history after the request has come: right after the patch that it
asks for, if it asks for one. -/
theorem answers_of_history {s₁ : System} (h₁ : Reach (System.step js) (fun _ _ => True) s₀ s₁)
    (h : Reach (System.step js) (fun _ _ => True) s₁ s) {i : ℕ} {f : InFlight}
    (hi : s₁.requests.length ≤ i) (hf : s.requests[i]? = some f) {answer : EffectiveTenantSettings}
    (hanswer : f.thread = .finished (.ok answer)) :
    f.request.Answered js s₀.db.policy s₁.db.history answer s.db :=
  ((hold_from_now hidle hsound hnew h₁ h).safe i f hi hf).ended.1 answer hanswer

end

end

/-- `toLowerCase` on ASCII text. -/
def asciiText : Tenants.JsText :=
  ⟨fun s => String.ofList (s.toList.map fun c => if c.isUpper then c.toLower else c)⟩

def acmeAdmin : CurrentUser :=
  ⟨.TENANT, some "acme", "account-1", [TENANT_SETTINGS_MANAGE_PERMISSION]⟩

/-- A tenant with one role and no settings yet. -/
def acme : System := ⟨⟨["acme"], [⟨"role-1", some "acme", "Member"⟩], ["role-1"], [], [], []⟩, [], 0⟩

theorem acme_sound : acme.db.Sound where
  rows := .nil
  domains _ hrow := by cases hrow
  roles _ hrow := by cases hrow
  present _ hrow := by cases hrow
  issued role hrole := by
    cases List.mem_singleton.mp hrole
    exact List.mem_singleton_self _
  roleIds := List.nodup_singleton _

/-- One administrator lets a domain in, the other names the default role. -/
def letIn : UpdateTenantSettingsDto :=
  ⟨some (some true), none, some (some ["@Acme.com ", "acme.com"]), none, none⟩

def nameRole : UpdateTenantSettingsDto := ⟨none, none, none, some (some "role-1"), none⟩

def acmeCall (i : ℕ) : List SystemEvent := [.execute i .none, .deliver i]

/-- Both read before either writes. -/
def acmeRace : List SystemEvent :=
  [.arrive (.update letIn acmeAdmin none), .arrive (.update nameRole acmeAdmin none)] ++
    [0, 1, 1, 0, 1, 0, 0, 1, 1].flatMap acmeCall

theorem reach_of_run {s s' : System} {events : List SystemEvent}
    (h : runAll (System.step asciiText) s events = some s') :
    Reach (System.step asciiText) (fun _ _ => True) s s' :=
  .of_runAll (.of_labels (fun _ _ _ => trivial) _) h

theorem policies_of_history_race : ∃ s, Reach (System.step asciiText) (fun _ _ => True) acme s ∧
    s.db.policy "acme" = ⟨true, false, ["acme.com"], some "role-1", true⟩ ∧ s.db.Sound ∧
    s.db.policy = after acme.db.policy s.db.history ∧
    ∀ tenantId patch, .patch tenantId patch ∈ s.db.history →
      ∃ f ∈ s.requests, f.request.Asked asciiText tenantId patch := by
  have hrun : (runAll (System.step asciiText) acme acmeRace).any (fun s =>
      s.db.policy "acme" = ⟨true, false, ["acme.com"], some "role-1", true⟩) = true := by
    decide +kernel
  obtain ⟨s, hs, hpolicy⟩ := (Option.any_eq_true _ _).mp hrun
  exact ⟨s, reach_of_run hs, of_decide_eq_true hpolicy,
    policies_of_history rfl acme_sound rfl (reach_of_run hs)⟩

def InFlight.answer? (f : InFlight) : Option EffectiveTenantSettings :=
  match f.thread with
  | .finished (.ok answer) => some answer
  | _ => none

theorem InFlight.answer?_eq {f : InFlight} {answer : EffectiveTenantSettings}
    (h : InFlight.answer? f = some answer) : f.thread = .finished (.ok answer) := by
  unfold InFlight.answer? at h
  split at h
  · rename_i hthread
    cases h
    exact hthread
  · cases h

/-- A read after both writes. -/
def acmeRead : List SystemEvent := .arrive (.get acmeAdmin none) :: acmeCall 2

theorem answers_of_history_read : ∃ (s₁ s : System) (f : InFlight) (answer : EffectiveTenantSettings),
    Reach (System.step asciiText) (fun _ _ => True) acme s₁ ∧
    Reach (System.step asciiText) (fun _ _ => True) s₁ s ∧ s.requests[2]? = some f ∧
    f.thread = .finished (.ok answer) ∧
    answer.policy = ⟨true, false, ["acme.com"], some "role-1", true⟩ ∧
    f.request.Answered asciiText acme.db.policy s₁.db.history answer s.db := by
  have hrun : (runAll (System.step asciiText) acme acmeRace).any (fun s₁ => s₁.requests.length = 2 &&
      (runAll (System.step asciiText) s₁ acmeRead).any fun s => s.requests[2]?.any fun f =>
        (InFlight.answer? f).any fun answer =>
          answer.policy = ⟨true, false, ["acme.com"], some "role-1", true⟩) = true := by
    decide +kernel
  obtain ⟨s₁, hs₁, h⟩ := (Option.any_eq_true _ _).mp hrun
  obtain ⟨hlength, h⟩ := Bool.and_eq_true_iff.mp h
  obtain ⟨s, hs, h⟩ := (Option.any_eq_true _ _).mp h
  obtain ⟨f, hf, h⟩ := (Option.any_eq_true _ _).mp h
  obtain ⟨answer, hanswer, hpolicy⟩ := (Option.any_eq_true _ _).mp h
  have hle : s₁.requests.length ≤ 2 := (of_decide_eq_true hlength).le
  have hthread := InFlight.answer?_eq hanswer
  exact ⟨s₁, s, f, answer, reach_of_run hs₁, reach_of_run hs, hf, hthread, of_decide_eq_true hpolicy,
    answers_of_history rfl acme_sound rfl (reach_of_run hs₁) (reach_of_run hs) hle hf hthread⟩

end Flexi.Accounts.Settings
