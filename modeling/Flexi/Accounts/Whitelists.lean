import Flexi.Accounts.SettingsRuns
import Flexi.Library.Fields
import Mathlib.Data.List.TakeWhile

/-!
# Whitelists of email domains

What a whitelist that the settings service has written lets through at a registration, and what
becomes of one that is saved as it was read.
-/

namespace Flexi.Accounts.Settings
open Flexi.Library

def isDomainChar (c : Char) : Bool := isLabelChar c || c == '.'

theorem isDomainChar_of_pattern {domain : String} (h : matchesDomainPattern domain = true) :
    ∀ c ∈ domain.toList, isDomainChar c = true := by
  intro c hc
  have hlabels : (domain.toList.splitOn '.').all isLabel = true := (Bool.and_eq_true_iff.mp h).2
  have hjoin : ['.'].intercalate (domain.toList.splitOn '.') = domain.toList :=
    List.intercalate_splitOn '.'
  rw [← hjoin] at hc
  rcases mem_of_mem_intercalate hc with hdot | ⟨label, hlabel, hc⟩
  · cases List.mem_singleton.mp hdot
    rfl
  · have hlabel := List.all_eq_true.mp hlabels label hlabel
    have hall : label.all isLabelChar = true := by
      simp only [isLabel, Bool.and_eq_true] at hlabel
      exact hlabel.1.1.2
    rw [isDomainChar, List.all_eq_true.mp hall c hc, Bool.true_or]

/-! ### Registrations -/

/-- The address is at the domain, or is the bare domain itself. -/
def At (domain email : String) : Prop :=
  email = domain ∨ ∃ localPart, email = localPart ++ "@" ++ domain

theorem emailDomain_of_at {domain email : String} (hdomain : '@' ∉ domain.toList)
    (h : At domain email) :
    emailDomain email = domain := by
  have htake : domain.toList.reverse.takeWhile (· ≠ '@') = domain.toList.reverse := by
    rw [List.takeWhile_eq_self_iff]
    exact fun c hc => decide_eq_true fun heq => hdomain (heq ▸ List.mem_reverse.mp hc)
  rcases h with rfl | ⟨localPart, rfl⟩
  · rw [emailDomain, htake, List.reverse_reverse, String.ofList_toList]
  · have hlist : (localPart ++ "@" ++ domain).toList.reverse =
        domain.toList.reverse ++ '@' :: localPart.toList.reverse := by
      simp [String.toList_append]
    rw [emailDomain, hlist, List.takeWhile_append_of_pos, List.takeWhile_cons_of_neg (by simp),
      List.append_nil, List.reverse_reverse, String.ofList_toList]
    exact List.takeWhile_eq_self_iff.mp htake

theorem at_emailDomain (email : String) : At (emailDomain email) email := by
  have hsplit : email.toList = (email.toList.reverse.dropWhile (· ≠ '@')).reverse ++
      (email.toList.reverse.takeWhile (· ≠ '@')).reverse := by
    rw [← List.reverse_append, List.takeWhile_append_dropWhile, List.reverse_reverse]
  cases hrest : email.toList.reverse.dropWhile (· ≠ '@') with
  | nil =>
    rw [hrest, List.reverse_nil, List.nil_append] at hsplit
    exact .inl (by rw [emailDomain, ← hsplit, String.ofList_toList])
  | cons c rest =>
    have hc : c = '@' := by
      have hhead := List.head?_dropWhile_not (fun c => decide (c ≠ '@')) email.toList.reverse
      rw [hrest, List.head?_cons] at hhead
      simpa using hhead
    subst hc
    refine .inr ⟨String.ofList rest.reverse, String.toList_inj.mp ?_⟩
    rw [hrest, List.reverse_cons] at hsplit
    rw [String.toList_append, String.toList_append, emailDomain, String.toList_ofList,
      String.toList_ofList, String.toList_ofList]
    exact hsplit

theorem assertDomainAllowed_iff {domains : List String} (h : WellFormed domains) (email : String) :
    assertDomainAllowed email domains = pure () ↔
      domains = [] ∨ ∃ domain ∈ domains, At domain email := by
  have hiff : (domains = [] ∨ domains.contains (emailDomain email) = true) ↔
      domains = [] ∨ ∃ domain ∈ domains, At domain email := by
    refine or_congr_right ⟨fun hmem => ⟨_, List.contains_iff_mem.mp hmem, at_emailDomain email⟩, ?_⟩
    rintro ⟨domain, hdomain, hat⟩
    rw [emailDomain_of_at _ hat]
    · exact List.contains_iff_mem.mpr hdomain
    · intro hc
      have := isDomainChar_of_pattern (h.pattern domain hdomain) '@' hc
      exact absurd this (by decide)
  rw [← hiff, assertDomainAllowed]
  split
  · exact ⟨fun _ => ‹_›, fun _ => rfl⟩
  · exact ⟨fun heq => (by cases heq), fun hall => absurd hall ‹_›⟩

/-! ### Saved as read -/

/-- `toLowerCase` leaves the ASCII characters that are no capitals. -/
def KeepsLower (js : Tenants.JsText) : Prop :=
  ∀ s : String, (∀ c ∈ s.toList, c.toNat < 128 ∧ c.isUpper = false) → js.toLowerCase s = s

theorem isDomainChar_ascii {c : Char} (h : isDomainChar c = true) :
    c.toNat < 128 ∧ c.isUpper = false ∧ Tenants.isJsSpace c = false := by
  have hlower : c.isLower = (decide ('a'.val ≤ c.val) && decide (c.val ≤ 'z'.val)) := rfl
  have hupper : c.isUpper = decide ('A'.val ≤ c.val ∧ c.val ≤ 'Z'.val) := rfl
  have hrange : (97 ≤ c.toNat ∧ c.toNat ≤ 122) ∨ (48 ≤ c.toNat ∧ c.toNat ≤ 57) ∨ c.toNat = 45 ∨
      c.toNat = 46 := by
    simp only [isDomainChar, isLabelChar, hlower, Char.isDigit, Bool.or_eq_true,
      Bool.and_eq_true, decide_eq_true_eq, beq_iff_eq, ge_iff_le, UInt32.le_iff_toNat_le] at h
    rcases h with ((h | h) | rfl) | rfl
    · exact .inl h
    · exact .inr (.inl h)
    · exact .inr (.inr (.inl rfl))
    · exact .inr (.inr (.inr rfl))
  refine ⟨by omega, ?_, ?_⟩
  · simp only [hupper, decide_eq_false_iff_not, UInt32.le_iff_toNat_le]
    change ¬(65 ≤ c.toNat ∧ c.toNat ≤ 90)
    omega
  · simp only [Tenants.isJsSpace, List.mem_cons, List.not_mem_nil, or_false, Bool.or_eq_false_iff,
      decide_eq_false_iff_not, Bool.and_eq_false_iff]
    omega

variable {js : Tenants.JsText}

theorem normalizeDomain_self (hjs : KeepsLower js) {domain : String}
    (h : matchesDomainPattern domain = true) : normalizeDomain js domain = domain := by
  have hchars := isDomainChar_of_pattern h
  have htrim : Tenants.trim domain = domain :=
    Tenants.trim_eq fun c hc => (isDomainChar_ascii (hchars c hc)).2.2
  have hlower : js.toLowerCase domain = domain := hjs domain fun c hc =>
    ⟨(isDomainChar_ascii (hchars c hc)).1, (isDomainChar_ascii (hchars c hc)).2.1⟩
  have hdrop : domain.toList.dropWhile (· = '@') = domain.toList := by
    rw [List.dropWhile_eq_self_iff]
    intro hlen heq
    have hc := hchars _ (List.getElem_mem hlen)
    rw [of_decide_eq_true heq] at hc
    exact absurd hc (by decide)
  rw [normalizeDomain, htrim, hlower, hdrop, String.ofList_toList, htrim]

theorem normalizeDomains_self (hjs : KeepsLower js) {normalized domains : List String}
    (h : WellFormed (normalized ++ domains)) :
    normalizeDomains js normalized domains = .ok (normalized ++ domains) := by
  induction domains generalizing normalized with
  | nil => rw [List.append_nil]; rfl
  | cons domain domains ih =>
    have hpattern := h.pattern domain (List.mem_append_right _ List.mem_cons_self)
    have hnew : normalized.contains domain = false := by
      rw [List.contains_eq_mem]
      refine decide_eq_false fun hmem => ?_
      exact (List.nodup_append.mp h.nodup).2.2 domain hmem domain List.mem_cons_self rfl
    have hne : domain ≠ "" := by
      rintro rfl
      exact absurd hpattern (by decide)
    rw [normalizeDomains, normalizeDomain_self hjs hpattern, if_neg hne, if_pos hpattern, hnew,
      if_neg Bool.false_ne_true, ih, List.append_assoc, List.singleton_append]
    rwa [List.append_assoc]

/-! ### In every run -/

section
variable {s₀ s : System} (hidle : s₀.requests = []) (hsound : s₀.db.Sound)
  (hnew : s₀.db.history = []) (h : Reach (System.step js) (fun _ _ => True) s₀ s)
include hidle hsound hnew h

/-- Whatever requests have been served, a registration passes a tenant's whitelist if and only if
that is empty or the address is at one of its domains. -/
theorem whitelist_admits (tenantId email : String) :
    assertDomainAllowed email (s.db.policy tenantId).allowedEmailDomains = pure () ↔
      (s.db.policy tenantId).allowedEmailDomains = [] ∨
        ∃ domain ∈ (s.db.policy tenantId).allowedEmailDomains, At domain email :=
  assertDomainAllowed_iff ((hold_of_run hidle hsound hnew h).pre.sound.policy tenantId).1 email

end

theorem whitelist_admits_acme : ∃ s, Reach (System.step asciiText) (fun _ _ => True) acme s ∧
    (s.db.policy "acme").allowedEmailDomains = ["acme.com"] ∧
    (assertDomainAllowed "bob@acme.com" (s.db.policy "acme").allowedEmailDomains = pure () ↔
      (s.db.policy "acme").allowedEmailDomains = [] ∨
        ∃ domain ∈ (s.db.policy "acme").allowedEmailDomains, At domain "bob@acme.com") := by
  have hrun : (runAll (System.step asciiText) acme acmeRace).any (fun s =>
      (s.db.policy "acme").allowedEmailDomains = ["acme.com"]) = true := by
    decide +kernel
  obtain ⟨s, hs, hdomains⟩ := (Option.any_eq_true _ _).mp hrun
  exact ⟨s, reach_of_run hs, of_decide_eq_true hdomains,
    whitelist_admits rfl acme_sound rfl (reach_of_run hs) "acme" "bob@acme.com"⟩

end Flexi.Accounts.Settings
