import Flexi.Accounts.OneAtATime
import Flexi.Accounts.RowIds
import Flexi.Library.Reach
import Mathlib.Data.List.DropRight
import Mathlib.Data.List.TakeWhile

/-!
# The addresses of a tenant's members

No index makes them unique. Each operation that creates a member looks for the address
first, and none brings a deleted member back.
-/

namespace Flexi.Accounts
open Flexi.Library

/-- A member of the tenant that is not deleted, with its account. -/
structure Database.LiveMember (db : Database) (tenantId : String) (user : TenantUser)
    (account : AuthAccount) : Prop where
  member : user ∈ db.tenantUsers
  tenant : user.tenantId = tenantId
  live : user.status ≠ .DELETED
  known : account ∈ db.authAccounts
  owner : account.id = user.authAccountId

/-- No two members that are not deleted have the same address. -/
def Database.UniqueAddresses (cfg : Config) (tenantId : String) (db : Database) : Prop :=
  ∀ user other account account', db.LiveMember tenantId user account →
    db.LiveMember tenantId other account' →
    cfg.normalizeEmail account.email = cfg.normalizeEmail account'.email → user = other

/-- The keys hold, and the addresses of live members are stored as they are compared. -/
structure Database.Addressed (cfg : Config) (tenantId : String) (db : Database) : Prop where
  identified : db.Identified
  owners : ∀ user ∈ db.tenantUsers, user.authAccountId < db.nextId
  normalized : ∀ user account, db.LiveMember tenantId user account →
    cfg.normalizeEmail account.email = account.email
  unique : db.UniqueAddresses cfg tenantId

section
variable {cfg : Config} {times : ℕ → Prop} {outside : Outside} {tenantId : String} {db db' : Database}
  {op : Op}

/-- An operation on grounds brings no deleted member back. -/
theorem Op.Grounded.live {old new : TenantUser} (h : op.Grounded cfg times db) (hkeys : db.Identified)
    (hold : old ∈ db.tenantUsers) (hrewrites : op.Rewrites old new) (hlive : new.status ≠ .DELETED) :
    old.status ≠ .DELETED := by
  have hmember {userId : ℕ} {status : TenantUserStatus} (h : db.HasMember userId status)
      (hid : old.id = userId) : old.status = status := by
    obtain ⟨user, huser, hid', hstatus⟩ := h
    rw [hkeys.members.inj hold huser (hid.trans hid'.symm), hstatus]
  cases op with
  | deactivate actorType userId a now =>
    cases actorType with
    | TENANT =>
      obtain ⟨-, rfl⟩ := hrewrites
      exact hlive
    | SYSTEM => exact hrewrites.elim
  | activate actorType userId =>
    cases actorType with
    | TENANT =>
      obtain ⟨-, rfl⟩ := hrewrites
      exact hlive
    | SYSTEM => exact hrewrites.elim
  | approveUser userId | unlockUser userId =>
    have hstatus := hmember h hrewrites.1
    simp [hstatus]
  | lockUser userId a now =>
    have hstatus := hmember h hrewrites.1
    simp [hstatus]
  | softDelete userId a now | revokeInvite existing now =>
    obtain ⟨-, rfl⟩ := hrewrites
    exact (hlive rfl).elim
  | updateTenantUser userId name roles =>
    obtain ⟨-, rfl⟩ := hrewrites
    exact hlive
  | redeemInvite invite user hash fullName now =>
    obtain ⟨-, huser, -, -, -, -, hstatus⟩ := h
    rw [hkeys.members.inj hold huser hrewrites.1, hstatus]
    simp
  | _ => exact hrewrites.elim

theorem Database.account_back {account : AuthAccount} {a : ℕ} (ha : a < db.nextId)
    (hid : account.id = a) (hmem : account ∈ (op.perform cfg outside db).2.authAccounts) :
    ∃ old ∈ db.authAccounts, old.id = a ∧ old.email = account.email := by
  rcases Op.perform_account hmem with hold | ⟨old, hold, hash, must, -, rfl⟩ | hnew
  · exact ⟨account, hold, hid, rfl⟩
  · exact ⟨old, hold, hid, rfl⟩
  · omega

namespace Database.Addressed

theorem of_back (h : db.Addressed cfg tenantId) (hkeys : db'.Identified)
    (howners : ∀ user ∈ db'.tenantUsers, user.authAccountId < db'.nextId)
    (hback : ∀ user account, db'.LiveMember tenantId user account → ∃ old account₀,
      db.LiveMember tenantId old account₀ ∧ old.id = user.id ∧ account₀.email = account.email) :
    db'.Addressed cfg tenantId where
  identified := hkeys
  owners := howners
  normalized user account hlive := by
    obtain ⟨old, account₀, hlive₀, -, hemail⟩ := hback user account hlive
    rw [← hemail]
    exact h.normalized old account₀ hlive₀
  unique user other account account' hlive hlive' heq := by
    obtain ⟨old, account₀, hlive₀, hid, hemail⟩ := hback user account hlive
    obtain ⟨old', account₀', hlive₀', hid', hemail'⟩ := hback other account' hlive'
    have hsame := h.unique old old' account₀ account₀' hlive₀ hlive₀' (by rw [hemail, hemail', heq])
    exact hkeys.members.inj hlive.member hlive'.member (by rw [← hid, ← hid', hsame])

theorem createMember (h : db.Addressed cfg tenantId)
    (hidem : ∀ email, cfg.normalizeEmail (cfg.normalizeEmail email) = cfg.normalizeEmail email)
    {account : AuthAccount} {user : TenantUser} {raw : String} (hraw : account.email = cfg.normalizeEmail raw)
    (hfree : db.emailTaken user.tenantId (cfg.normalizeEmail account.email) = false) :
    (db.createMember account user).2.Addressed cfg tenantId := by
  have hkeys : (db.createMember account user).2.Identified := h.identified.createMember account user
  -- an old member with an old account, or the two new rows
  have hcases (u : TenantUser) (a : AuthAccount)
      (hlive : (db.createMember account user).2.LiveMember tenantId u a) :
      db.LiveMember tenantId u a ∨ u = { user with id := db.nextId + 1, authAccountId := db.nextId } ∧
        user.tenantId = tenantId ∧ a.email = account.email := by
    rcases Database.mem_createMember hlive.member with hu | hu
    · have hlt := h.owners u hu
      rcases List.mem_append.mp hlive.known with ha | ha
      · exact .inl ⟨hu, hlive.tenant, hlive.live, ha, hlive.owner⟩
      · cases List.mem_singleton.mp ha
        have howner : db.nextId = u.authAccountId := hlive.owner
        omega
    · have htenant := hlive.tenant
      have howner := hlive.owner
      rw [hu] at htenant howner
      rcases List.mem_append.mp hlive.known with ha | ha
      · have hlt := h.identified.accounts.given a ha
        have howner : a.id = db.nextId := howner
        omega
      · cases List.mem_singleton.mp ha
        exact .inr ⟨hu, htenant, rfl⟩
  have hclash (u : TenantUser) (a : AuthAccount) (hlive : db.LiveMember user.tenantId u a)
      (hnormal : cfg.normalizeEmail a.email = a.email) :
      cfg.normalizeEmail a.email ≠ cfg.normalizeEmail account.email := by
    intro heq
    have hfind : db.account? u.authAccountId = some a := by
      cases hfind : db.account? u.authAccountId with
      | none =>
        have hnone := List.find?_eq_none.mp hfind a hlive.known
        exact absurd hlive.owner (by simpa using hnone)
      | some b =>
        have hb := List.find?_some hfind
        have hmem := List.mem_of_find?_eq_some hfind
        have hid : b.id = a.id := by rw [hlive.owner]; simpa using hb
        rw [h.identified.accounts.inj hmem hlive.known hid]
    have htaken : db.emailTaken user.tenantId (cfg.normalizeEmail account.email) = true := by
      rw [Database.emailTaken, List.any_eq_true]
      refine ⟨u, hlive.member, ?_⟩
      simp [hlive.tenant, hlive.live, Database.hasEmail, hfind, ← heq, hnormal]
    rw [hfree] at htaken
    cases htaken
  refine ⟨hkeys, fun u hu => ?_, fun u a hlive => ?_, fun u v a b hlive hlive' heq => ?_⟩
  · rcases Database.mem_createMember hu with hu | rfl
    · have hlt := h.owners u hu
      exact Nat.lt_add_right 2 hlt
    · exact Nat.lt_add_of_pos_right (by omega)
  · rcases hcases u a hlive with hold | ⟨-, -, hemail⟩
    · exact h.normalized u a hold
    · rw [hemail, hraw, hidem]
  · rcases hcases u a hlive with hold | ⟨hnew, htenant, hemail⟩
    · rcases hcases v b hlive' with hold' | ⟨-, htenant', hemail'⟩
      · exact h.unique u v a b hold hold' heq
      · rw [hemail'] at heq
        subst htenant'
        exact (hclash u a hold (h.normalized u a hold) heq).elim
    · rcases hcases v b hlive' with hold' | ⟨hnew', -, -⟩
      · rw [hemail] at heq
        subst htenant
        exact (hclash v b hold' (h.normalized v b hold') heq.symm).elim
      · rw [hnew, hnew']

theorem createInvite (h : db.Addressed cfg tenantId) (invite : UserInvite) :
    (db.createInvite invite).2.Addressed cfg tenantId :=
  h.of_back (h.identified.createInvite invite) (fun user hu => Nat.lt_succ_of_lt (h.owners user hu))
    fun user account hlive => ⟨user, account,
      ⟨hlive.member, hlive.tenant, hlive.live, hlive.known, hlive.owner⟩, rfl, rfl⟩

theorem perform_rewrites (h : db.Addressed cfg tenantId) (hgrounded : op.Grounded cfg times db)
    (hcreates : ∀ new, ¬ op.Creates new) : (op.perform cfg outside db).2.Addressed cfg tenantId := by
  have hn : db.nextId ≤ (op.perform cfg outside db).2.nextId := Op.perform_nextId
  refine h.of_back h.identified.perform (fun user huser => ?_) fun user account hlive => ?_
  · rcases Op.perform_member huser with hold | ⟨old, hold, hrewrites⟩ | ⟨-, -, hnew⟩
    · exact (h.owners user hold).trans_le hn
    · rw [hrewrites.owner.2]
      exact (h.owners old hold).trans_le hn
    · exact (hcreates user hnew).elim
  · have hold : ∃ old ∈ db.tenantUsers, old.id = user.id ∧ old.status ≠ .DELETED ∧
        old.tenantId = user.tenantId ∧ old.authAccountId = user.authAccountId := by
      rcases Op.perform_member hlive.member with hold | ⟨old, hold, hrewrites⟩ | ⟨-, -, hnew⟩
      · exact ⟨user, hold, rfl, hlive.live, rfl, rfl⟩
      · exact ⟨old, hold, hrewrites.id.symm, hgrounded.live h.identified hold hrewrites hlive.live,
          hrewrites.owner.1.symm, hrewrites.owner.2.symm⟩
      · exact (hcreates user hnew).elim
    obtain ⟨old, hold, hid, hstatus, htenant, haccount⟩ := hold
    have howner : account.id = old.authAccountId := hlive.owner.trans haccount.symm
    obtain ⟨account₀, hmem, hid₀, hemail⟩ := Database.account_back (h.owners old hold) howner hlive.known
    exact ⟨old, account₀, ⟨hold, htenant.trans hlive.tenant, hstatus, hmem, hid₀⟩, hid, hemail⟩

theorem perform (h : db.Addressed cfg tenantId)
    (hidem : ∀ email, cfg.normalizeEmail (cfg.normalizeEmail email) = cfg.normalizeEmail email)
    (hgrounded : op.Grounded cfg times db) : (op.perform cfg outside db).2.Addressed cfg tenantId := by
  have hother (hcreates : ∀ new, ¬ op.Creates new) :
      (op.perform cfg outside db).2.Addressed cfg tenantId := h.perform_rewrites hgrounded hcreates
  rcases Op.perform_cases cfg outside op db with ⟨hdb, -⟩ | heffect
  · rw [hdb]
    exact h
  cases op with
  | directCreate t email fullName hash roleId =>
    obtain ⟨-, raw, hraw⟩ := hgrounded
    rw [heffect, Op.effect, Database.directCreate]
    split
    · exact h
    · rename_i hfree
      exact h.createMember hidem hraw (by simpa using hfree)
  | register t email fullName hash requiresApproval roleId =>
    obtain ⟨-, raw, hraw⟩ := hgrounded
    rw [heffect, Op.effect, Database.register]
    split
    · exact h
    · rename_i hfree
      exact h.createMember hidem hraw (by simpa using hfree)
  | createInvites t roleId prepared invitedById =>
    rw [heffect]
    refine createInvites_keeps_of_mem (P := fun d => d.Addressed cfg tenantId) (fun d p x hp hd hx => ?_) h
    obtain ⟨raw, hraw⟩ := hgrounded.2 p hp
    unfold inviteMember at hx
    split at hx
    · cases hx
    · rename_i hfree
      cases hx
      exact (hd.createMember hidem hraw (by simpa using hfree)).createInvite _
  | _ => exact hother fun new hnew => hnew

end Database.Addressed

end

/-- Members of a tenant that are not deleted have different addresses, whatever requests are
served one at a time. -/
theorem addresses_unique {cfg : Config}
    (hidem : ∀ email, cfg.normalizeEmail (cfg.normalizeEmail email) = cfg.normalizeEmail email)
    {tenantId : String} {s₀ s : Desk} (h₀ : s₀.db.Addressed cfg tenantId)
    (h : Reach (Desk.step cfg) (fun _ _ => True) s₀ s) : s.db.UniqueAddresses cfg tenantId := by
  have hkept : KeptByGrounded cfg (fun _ => True) fun db => db.Addressed cfg tenantId :=
    fun op db outside hdb hgrounded _ => hdb.perform hidem hgrounded
  have haddressed : s.db.Addressed cfg tenantId := by
    refine h.invariant (I := fun s => s.db.Addressed cfg tenantId) h₀ fun s s' e _ hs _ hstep => ?_
    cases e with
    | serve v =>
      cases Option.some.inj hstep
      exact Serving.serve_keeps hkept (fun _ => ⟨trivial, trivial⟩) hs
    | tick d =>
      cases Option.some.inj hstep
      exact hs
  exact haddressed.unique

/-! ### Ann and Bob -/

theorem toLower_cases (c : Char) : c.toLower = c ∧ ¬ (65 ≤ c.toNat ∧ c.toNat ≤ 90) ∨
    (65 ≤ c.toNat ∧ c.toNat ≤ 90) ∧ c.toLower.toNat = c.toNat + 32 := by
  unfold Char.toLower
  split
  · rename_i hupper
    have hrange : 65 ≤ c.toNat ∧ c.toNat ≤ 90 := by simpa [UInt32.le_iff_toNat_le] using hupper
    refine .inr ⟨hrange, ?_⟩
    show (c.val + ('a'.val - 'A'.val)).toNat = c.val.toNat + 32
    have hle : c.val.toNat ≤ 90 := hrange.2
    have hshift : ('a'.val - 'A'.val).toNat = 32 := by decide
    rw [UInt32.toNat_add, hshift]
    omega
  · rename_i hupper
    refine .inl ⟨rfl, ?_⟩
    simpa [UInt32.le_iff_toNat_le] using hupper

theorem toLower_toLower (c : Char) : c.toLower.toLower = c.toLower := by
  rcases toLower_cases c with ⟨hsame, -⟩ | ⟨hupper, hshift⟩
  · rw [hsame, hsame]
  · rcases toLower_cases c.toLower with ⟨hsame, -⟩ | ⟨hupper', -⟩
    · exact hsame
    · omega

theorem isJsSpace_toLower (c : Char) : Tenants.isJsSpace c.toLower = Tenants.isJsSpace c := by
  have hletter (d : Char) (hge : 65 ≤ d.toNat) (hle : d.toNat ≤ 122) : Tenants.isJsSpace d = false := by
    simp [Tenants.isJsSpace]
    omega
  rcases toLower_cases c with ⟨hsame, -⟩ | ⟨hupper, hshift⟩
  · rw [hsame]
  · rw [hletter c (by omega) (by omega), hletter c.toLower (by omega) (by omega)]

theorem trim_trimmed {α : Type} (p : α → Bool) (l : List α) :
    ((l.dropWhile p).rdropWhile p).dropWhile p = (l.dropWhile p).rdropWhile p := by
  rw [List.dropWhile_eq_self_iff]
  intro hl
  have hpre : (l.dropWhile p).rdropWhile p <+: l.dropWhile p := List.rdropWhile_prefix _ _
  have hlength := hpre.length_le
  rw [hpre.getElem hl]
  exact List.dropWhile_eq_self_iff.mp (List.dropWhile_idempotent p l) (by omega)

theorem plainConfig_normalizeEmail (email : String) : plainConfig.normalizeEmail email =
    String.ofList (((email.toList.dropWhile Tenants.isJsSpace).rdropWhile Tenants.isJsSpace).map
      Char.toLower) := by
  have hlower : plainConfig.normalizeEmail email = (Tenants.trim email).map Char.toLower := rfl
  rw [hlower, String.map_eq_internal, Tenants.trim, String.toList_ofList]
  rfl

theorem plainConfig_normalized (email : String) :
    plainConfig.normalizeEmail (plainConfig.normalizeEmail email) = plainConfig.normalizeEmail email := by
  have hspace : Tenants.isJsSpace ∘ Char.toLower = Tenants.isJsSpace := funext isJsSpace_toLower
  have hrdrop (l : List Char) : (l.map Char.toLower).rdropWhile Tenants.isJsSpace =
      (l.rdropWhile Tenants.isJsSpace).map Char.toLower := by
    rw [List.rdropWhile, ← List.map_reverse, List.dropWhile_map, hspace, List.rdropWhile, List.map_reverse]
  have hlower (l : List Char) : (l.map Char.toLower).map Char.toLower = l.map Char.toLower := by
    rw [List.map_map]
    exact List.map_congr_left fun c _ => toLower_toLower c
  rw [plainConfig_normalizeEmail, plainConfig_normalizeEmail, String.toList_ofList, List.dropWhile_map,
    hspace, hrdrop, hlower, trim_trimmed, List.rdropWhile_idempotent]

def acmeDesk : Desk := ⟨acmeDb, 0⟩

theorem acme_addressed : acmeDesk.db.Addressed plainConfig "acme" where
  identified := ⟨⟨by decide, by decide⟩, ⟨by decide, by decide⟩⟩
  owners := by decide
  normalized user account hlive := by
    have hknown : account ∈ acmeDb.authAccounts := hlive.known
    simp only [acmeDb, List.mem_cons, List.not_mem_nil, or_false] at hknown
    rcases hknown with rfl | rfl <;> decide +kernel
  unique := by
    intro user other account account' hlive hlive' heq
    have hall : ∀ user ∈ acmeDb.tenantUsers, ∀ other ∈ acmeDb.tenantUsers,
        ∀ account ∈ acmeDb.authAccounts, ∀ account' ∈ acmeDb.authAccounts,
        account.id = user.authAccountId → account'.id = other.authAccountId →
        plainConfig.normalizeEmail account.email = plainConfig.normalizeEmail account'.email →
        user = other := by
      decide +kernel
    exact hall user hlive.member other hlive'.member account hlive.known account' hlive'.known
      hlive.owner hlive'.owner heq

/-- The request, with nothing that fails. -/
def quietly (r : Request) : DeskEvent :=
  .serve ⟨r, fun _ => acmeContext "", fun _ => quiet⟩

/-- Ann invites Carol under two spellings, and withdraws the invite. -/
def annInvitesCarol : List DeskEvent :=
  [quietly (.createInvites ⟨["carol@acme.io", "dan@acme.io"], none⟩ ann),
    quietly (.createInvites ⟨[" Carol@ACME.io"], none⟩ ann),
    quietly (.revokeInvite 8 ann),
    quietly (.createInvites ⟨[" Carol@ACME.io"], none⟩ ann)]

theorem addresses_unique_acme : ∃ s, Reach (Desk.step plainConfig) (fun _ _ => True) acmeDesk s ∧
    s.db.tenantUsers.length = 5 ∧ s.db.UniqueAddresses plainConfig "acme" := by
  have hrun : (runAll (Desk.step plainConfig) acmeDesk annInvitesCarol).any
      (fun s => s.db.tenantUsers.length = 5) = true := by
    decide +kernel
  obtain ⟨s, hs, hlength⟩ := (Option.any_eq_true _ _).mp hrun
  have hreach : Reach (Desk.step plainConfig) (fun _ _ => True) acmeDesk s :=
    .of_runAll (.of_labels (fun _ _ _ => trivial) _) hs
  exact ⟨s, hreach, by simpa using hlength,
    addresses_unique plainConfig_normalized acme_addressed hreach⟩

end Flexi.Accounts
