import Flexi.Accounts.Whitelists

/-!
# The page of a tenant's self-registration policy (SelfRegistrationSettingsPage.tsx)

The page shows the settings that it has loaded or saved last, with the whitelist as one text. A
form that nobody has edited is saved as what it shows.
-/

namespace Flexi.Client.SettingsPage
open Flexi.Library Flexi.Accounts.Settings

/-! ### list-input.ts -/

/-- `[\s,;]` -/
def isSeparator (c : Char) : Bool := Tenants.isJsSpace c || c == ',' || c == ';'

def parseUnique (raw : String) (normalise : String → String) : List String :=
  let values := (splitRuns isSeparator raw.toList).map fun candidate =>
    normalise (Tenants.trim (String.ofList candidate))
  addAll [] (values.filter (· ≠ ""))

/-- `replace(/^@/, '')` -/
def withoutAt (value : String) : String :=
  match value.toList with
  | '@' :: cs => String.ofList cs
  | _ => value

def parseDomainList (js : Tenants.JsText) (raw : String) : List String :=
  parseUnique raw fun value => withoutAt (js.toLowerCase value)

/-! ### The page -/

inductive LoadState where
  | loading
  | error
  | ready (settings : EffectiveTenantSettings)

/-- A save carries the body that it has sent. -/
inductive SaveState where
  | idle
  | saving (request : UpdateTenantSettingsDto)
  | saved
  | error

structure Page where
  load : LoadState
  save : SaveState
  allowSelfRegistration : Bool
  requireApproval : Bool
  domainsDraft : String

def Page.initial : Page := ⟨.loading, .idle, false, true, ""⟩

/-- `domains.join(', ')` -/
def joinDomains (domains : List String) : String :=
  String.ofList ([',', ' '].intercalate (domains.map String.toList))

/-- The body that `handleSubmit` sends. -/
def Page.request (js : Tenants.JsText) (p : Page) : UpdateTenantSettingsDto where
  allowSelfRegistration := some (some p.allowSelfRegistration)
  allowSystemImpersonation := none
  allowedEmailDomains := some (some (parseDomainList js p.domainsDraft))
  defaultRoleId := none
  requireApproval := some (some p.requireApproval)

inductive PageEvent where
  | fetched (settings : EffectiveTenantSettings)
  | fetchFailed
  | setAllowSelfRegistration (value : Bool)
  | setRequireApproval (value : Bool)
  | setDomainsDraft (value : String)
  | submit
  | saved (settings : EffectiveTenantSettings)
  | saveFailed

/-- The settings are fetched until they are there; a retry does not change the state. There is a
form when they are, and its button is disabled while it saves. -/
def Page.step (js : Tenants.JsText) (p : Page) : PageEvent → Option Page
  | .fetched settings => match p.load with
    | .ready _ => none
    | _ => some { p with
        load := .ready settings
        allowSelfRegistration := settings.policy.allowSelfRegistration
        requireApproval := settings.policy.requireApproval
        domainsDraft := joinDomains settings.policy.allowedEmailDomains }
  | .fetchFailed => match p.load with
    | .ready _ => none
    | _ => some { p with load := .error }
  | .setAllowSelfRegistration value => match p.load with
    | .ready _ => some { p with allowSelfRegistration := value }
    | _ => none
  | .setRequireApproval value => match p.load with
    | .ready _ => some { p with requireApproval := value }
    | _ => none
  | .setDomainsDraft value => match p.load with
    | .ready _ => some { p with domainsDraft := value }
    | _ => none
  | .submit => match p.load, p.save with
    | _, .saving _ => none
    | .ready _, _ => some { p with save := .saving (p.request js) }
    | _, _ => none
  | .saved settings => match p.save with
    | .saving _ => some { p with
        load := .ready settings
        domainsDraft := joinDomains settings.policy.allowedEmailDomains
        save := .saved }
    | _ => none
  | .saveFailed => match p.save with
    | .saving _ => some { p with save := .error }
    | _ => none

/-! ### The text of a whitelist -/

variable {js : Tenants.JsText}

theorem isSeparator_domainChar {c : Char} (h : isDomainChar c = true) : isSeparator c = false := by
  have hcomma : c ≠ ',' := by
    rintro rfl
    exact absurd h (by decide)
  have hsemicolon : c ≠ ';' := by
    rintro rfl
    exact absurd h (by decide)
  rw [isSeparator, (isDomainChar_ascii h).2.2]
  simp [hcomma, hsemicolon]

theorem isSeparator_join : ∀ c ∈ [',', ' '], isSeparator c = true := by
  intro c hc
  rcases List.mem_cons.mp hc with rfl | hc
  · rfl
  · rw [List.mem_singleton.mp hc]
    rfl

theorem normalise_self (hjs : KeepsLower js) {domain : String}
    (h : matchesDomainPattern domain = true) :
    withoutAt (js.toLowerCase (Tenants.trim (String.ofList domain.toList))) = domain := by
  have hchars := isDomainChar_of_pattern h
  have hlower : js.toLowerCase domain = domain := hjs domain fun c hc =>
    ⟨(isDomainChar_ascii (hchars c hc)).1, (isDomainChar_ascii (hchars c hc)).2.1⟩
  rw [String.ofList_toList, Tenants.trim_eq fun c hc => (isDomainChar_ascii (hchars c hc)).2.2, hlower,
    withoutAt]
  split
  · rename_i cs heq
    have hat := hchars '@' (by rw [heq]; exact List.mem_cons_self)
    exact absurd hat (by decide)
  · rfl

/-- The text of a whitelist is read as that whitelist. -/
theorem parseDomainList_joinDomains (hjs : KeepsLower js) {domains : List String}
    (h : WellFormed domains) : parseDomainList js (joinDomains domains) = domains := by
  have hne (domain : String) (hdomain : domain ∈ domains) : domain ≠ "" := by
    rintro rfl
    exact absurd (h.pattern "" hdomain) (by decide)
  rw [parseDomainList, parseUnique, joinDomains, String.toList_ofList]
  cases hdomains : domains with
  | nil =>
    have hempty : js.toLowerCase "" = "" := hjs "" fun c hc => by cases hc
    have htrim : Tenants.trim (String.ofList []) = "" := rfl
    simp only [List.map_nil, List.intercalate_nil, splitRuns, List.map_cons, htrim, hempty]
    rfl
  | cons first rest =>
    rw [← hdomains, splitRuns_intercalate isSeparator_join (List.cons_ne_nil _ _), List.map_map]
    · have hmap : domains.map ((fun candidate => withoutAt (js.toLowerCase (Tenants.trim
          (String.ofList candidate)))) ∘ String.toList) = domains := by
        refine (List.map_congr_left fun domain hdomain => ?_).trans (List.map_id domains)
        exact normalise_self hjs (h.pattern domain hdomain)
      rw [hmap, List.filter_eq_self.mpr fun domain hdomain => decide_eq_true (hne domain hdomain)]
      exact addAll_nodup (by simpa using h.nodup)
    · intro field hfield c hc
      obtain ⟨domain, hdomain, rfl⟩ := List.mem_map.mp hfield
      exact isSeparator_domainChar (isDomainChar_of_pattern (h.pattern domain hdomain) c hc)
    · intro field hfield hempty
      obtain ⟨domain, hdomain, rfl⟩ := List.mem_map.mp hfield
      exact hne domain hdomain (String.toList_eq_nil_iff.mp hempty)
    · rw [hdomains]
      exact List.cons_ne_nil _ _

/-! ### A form that nobody has edited -/

/-- The form shows the settings. -/
structure Page.Shows (p : Page) (settings : EffectiveTenantSettings) : Prop where
  allowSelfRegistration : p.allowSelfRegistration = settings.policy.allowSelfRegistration
  requireApproval : p.requireApproval = settings.policy.requireApproval
  domainsDraft : p.domainsDraft = joinDomains settings.policy.allowedEmailDomains
  domains : WellFormed settings.policy.allowedEmailDomains

/-- The service has answered a request so. -/
def Served (js : Tenants.JsText) (s₀ : System) (r : Request) (settings : EffectiveTenantSettings) :
    Prop :=
  ∃ s, Reach (System.step js) (fun _ _ => True) s₀ s ∧ ∃ f ∈ s.requests, f.request = r ∧
    f.thread = .finished (.ok settings)

/-- Nobody edits the form, and the answers are those of the service. -/
def Untouched (js : Tenants.JsText) (s₀ : System) (p : Page) : PageEvent → Prop
  | .fetched settings => ∃ currentUser header, Served js s₀ (.get currentUser header) settings
  | .saved settings => ∀ request, p.save = .saving request →
    ∃ currentUser header, Served js s₀ (.update request currentUser header) settings
  | .setAllowSelfRegistration _ | .setRequireApproval _ | .setDomainsDraft _ => False
  | _ => True

/-- What holds of a form that nobody has edited: it shows the settings that are there, and what is
being saved is what it shows. -/
structure Page.Clean (p : Page) : Prop where
  shows : ∀ settings, p.load = .ready settings → p.Shows settings
  sent : ∀ request, p.save = .saving request → (∃ settings, p.load = .ready settings) ∧
    request.allowSelfRegistration = some (some p.allowSelfRegistration) ∧
      request.requireApproval = some (some p.requireApproval)

section
variable {s₀ : System} (hidle : s₀.requests = []) (hsound : s₀.db.Sound)
  (hnew : s₀.db.history = [])
include hidle hsound hnew

theorem Served.answered {r : Request} {settings : EffectiveTenantSettings}
    (h : Served js s₀ r settings) : ∃ db, r.Answered js s₀.db.policy [] settings db := by
  obtain ⟨s, hreach, f, hf, rfl, hthread⟩ := h
  obtain ⟨i, hi⟩ := List.mem_iff_getElem?.mp hf
  exact ⟨s.db, ((hold_of_run hidle hsound hnew hreach).safe i f (Nat.zero_le i) hi).ended.1 settings
    hthread⟩

theorem Served.get_domains {currentUser : CurrentUser} {header : Option String}
    {settings : EffectiveTenantSettings} (h : Served js s₀ (.get currentUser header) settings) :
    WellFormed settings.policy.allowedEmailDomains := by
  obtain ⟨db, -, before, later, -, -, -, -, hdomains⟩ := h.answered hidle hsound hnew
  exact hdomains

theorem Served.update_flags {request : UpdateTenantSettingsDto} {currentUser : CurrentUser}
    {header : Option String} {settings : EffectiveTenantSettings} {allow require : Bool}
    (h : Served js s₀ (.update request currentUser header) settings)
    (hallow : request.allowSelfRegistration = some (some allow))
    (hrequire : request.requireApproval = some (some require)) :
    settings.policy.allowSelfRegistration = allow ∧ settings.policy.requireApproval = require ∧
      WellFormed settings.policy.allowedEmailDomains := by
  obtain ⟨db, -, patch, hasks, before, later, -, -, -, hpolicy, hdomains⟩ :=
    h.answered hidle hsound hnew
  have hallow' := hasks.allowSelfRegistration.trans hallow
  have hrequire' := hasks.requireApproval.trans hrequire
  have hempty : patch.isEmpty = false := by
    rw [TenantSettingsPatch.isEmpty, hallow']
    rfl
  rw [TenantSettingsPatch.changes, hempty, if_neg Bool.false_ne_true, after_append] at hpolicy
  change _ = if settings.tenantId = settings.tenantId then _ else _ at hpolicy
  rw [if_pos rfl] at hpolicy
  refine ⟨?_, ?_, hdomains⟩
  · rw [hpolicy, TenantSettingsPatch.over, hallow']
    rfl
  · rw [hpolicy, TenantSettingsPatch.over, hrequire']
    rfl

theorem Page.Clean.step {p p' : Page} {e : PageEvent} (h : p.Clean) (hok : Untouched js s₀ p e)
    (hs : p.step js e = some p') : p'.Clean := by
  cases e with
  | fetched settings =>
    obtain ⟨currentUser, header, hserved⟩ := hok
    have hdomains := hserved.get_domains hidle hsound hnew
    simp only [Page.step] at hs
    split at hs
    · cases hs
    · rename_i hready
      obtain rfl := Option.some.inj hs
      refine ⟨fun shown hshown => ?_, fun request hrequest => ?_⟩
      · cases hshown
        exact ⟨rfl, rfl, rfl, hdomains⟩
      · obtain ⟨settings', hload⟩ := (h.sent request hrequest).1
        exact absurd hload (hready settings')
  | fetchFailed =>
    simp only [Page.step] at hs
    split at hs
    · cases hs
    · rename_i hready
      obtain rfl := Option.some.inj hs
      refine ⟨fun shown hshown => (by cases hshown), fun request hrequest => ?_⟩
      obtain ⟨settings', hload⟩ := (h.sent request hrequest).1
      exact absurd hload (hready settings')
  | setAllowSelfRegistration value => exact hok.elim
  | setRequireApproval value => exact hok.elim
  | setDomainsDraft value => exact hok.elim
  | submit =>
    simp only [Page.step] at hs
    split at hs
    · cases hs
    · rename_i settings hload _
      obtain rfl := Option.some.inj hs
      refine ⟨fun shown hshown => ?_, fun request hrequest => ?_⟩
      · obtain ⟨hallow, hrequire, hdraft, hdomains⟩ := h.shows shown hshown
        exact ⟨hallow, hrequire, hdraft, hdomains⟩
      · cases hrequest
        exact ⟨⟨settings, hload⟩, rfl, rfl⟩
    · cases hs
  | saved settings =>
    simp only [Page.step] at hs
    split at hs
    · rename_i request hsave
      obtain rfl := Option.some.inj hs
      obtain ⟨currentUser, header, hserved⟩ := hok request hsave
      obtain ⟨-, hallow, hrequire⟩ := h.sent request hsave
      obtain ⟨hallow, hrequire, hdomains⟩ :=
        hserved.update_flags hidle hsound hnew hallow hrequire
      refine ⟨fun shown hshown => ?_, fun request hrequest => (by cases hrequest)⟩
      cases hshown
      exact ⟨hallow.symm, hrequire.symm, rfl, hdomains⟩
    · cases hs
  | saveFailed =>
    simp only [Page.step] at hs
    split at hs
    · obtain rfl := Option.some.inj hs
      refine ⟨fun shown hshown => ?_, fun request hrequest => (by cases hrequest)⟩
      obtain ⟨hallow, hrequire, hdraft, hdomains⟩ := h.shows shown hshown
      exact ⟨hallow, hrequire, hdraft, hdomains⟩
    · cases hs

/-- Opened, saved as often as one likes and never edited, the form shows the settings that the
service has answered with last. It asks for a patch, and for none that would change a policy from
what is shown; the patch is no empty one, so that a tenant without a row gets it. -/
theorem untouched_form_keeps_policy (hjs : KeepsLower js) {p : Page}
    (h : Reach (Page.step js) (Untouched js s₀) Page.initial p) {settings : EffectiveTenantSettings}
    (hload : p.load = .ready settings) :
    p.Shows settings ∧ ∃ patch, (p.request js).Asks js patch ∧ ∀ patch, (p.request js).Asks js patch →
      patch.isEmpty = false ∧ patch.over settings.policy = settings.policy := by
  have hclean : p.Clean := by
    refine h.invariant (I := Page.Clean) ⟨fun _ hshown => (by cases hshown),
      fun _ hrequest => (by cases hrequest)⟩ ?_
    exact fun p p' e _ hclean hok hs => hclean.step hidle hsound hnew hok hs
  have hshows := hclean.shows settings hload
  have hdomains : parseDomainList js p.domainsDraft = settings.policy.allowedEmailDomains := by
    rw [hshows.domainsDraft, parseDomainList_joinDomains hjs hshows.domains]
  have hnormalize : normalizeDomains js [] (parseDomainList js p.domainsDraft) =
      .ok settings.policy.allowedEmailDomains := by
    rw [hdomains]
    exact @normalizeDomains_self js hjs [] settings.policy.allowedEmailDomains hshows.domains
  refine ⟨hshows, ⟨_, none, some settings.policy.allowedEmailDomains, none, _⟩,
    ⟨rfl, rfl, .list hnormalize, rfl, rfl⟩, fun patch hasks => ?_⟩
  obtain ⟨hallow, himpersonation, hlist, hrole, hrequire⟩ := hasks
  have hlist' : patch.allowedEmailDomains = some settings.policy.allowedEmailDomains := by
    cases hresult : patch.allowedEmailDomains with
    | none =>
      rw [hresult] at hlist
      cases hlist
    | some normalized =>
      rw [hresult] at hlist
      cases hlist with
      | list hnormalized => rw [Except.ok.inj (hnormalized.symm.trans hnormalize)]
  constructor
  · rw [TenantSettingsPatch.isEmpty, hallow]
    rfl
  · rw [TenantSettingsPatch.over, hallow, himpersonation, hlist', hrole, hrequire]
    change Policy.mk p.allowSelfRegistration _ _ _ p.requireApproval = _
    rw [hshows.allowSelfRegistration, hshows.requireApproval]
    rfl

end

theorem asciiText_keepsLower : KeepsLower asciiText := by
  intro s hs
  have hmap : (s.toList.map fun c => if c.isUpper then c.toLower else c) = s.toList := by
    refine (List.map_congr_left fun c hc => ?_).trans (List.map_id _)
    rw [(hs c hc).2, if_neg Bool.false_ne_true]
    rfl
  change String.ofList (s.toList.map fun c => if c.isUpper then c.toLower else c) = s
  rw [hmap, String.ofList_toList]

def reads : Request → Bool
  | .get _ _ => true
  | .update _ _ _ => false

theorem reads_eq {r : Request} (h : reads r = true) :
    ∃ currentUser header, r = .get currentUser header := by
  cases r with
  | get currentUser header => exact ⟨currentUser, header, rfl⟩
  | update dto currentUser header => cases h

/-- The page with the settings it has just loaded. -/
def Page.opened (settings : EffectiveTenantSettings) : Page where
  load := .ready settings
  save := .idle
  allowSelfRegistration := settings.policy.allowSelfRegistration
  requireApproval := settings.policy.requireApproval
  domainsDraft := joinDomains settings.policy.allowedEmailDomains

/-- The form of the page is sent and the request served. -/
def Page.served (p : Page) : List SystemEvent :=
  .arrive (.update (p.request asciiText) acmeAdmin none) :: (List.replicate 3 3).flatMap acmeCall

/-- The page is opened after two administrators have written the policy, it is saved, and the
answer comes back. -/
theorem untouched_form_keeps_policy_saved : ∃ (p : Page) (settings : EffectiveTenantSettings),
    Reach (Page.step asciiText) (Untouched asciiText acme) Page.initial p ∧
    p.save = .saved ∧ p.load = .ready settings ∧
    settings.policy = ⟨true, false, ["acme.com"], some "role-1", true⟩ ∧ p.Shows settings ∧
    ∃ patch, (p.request asciiText).Asks asciiText patch ∧
      ∀ patch, (p.request asciiText).Asks asciiText patch →
        patch.isEmpty = false ∧ patch.over settings.policy = settings.policy := by
  have hrun : (runAll (System.step asciiText) acme (acmeRace ++ acmeRead)).any (fun s =>
      s.requests[2]?.any fun f => reads f.request && (InFlight.answer? f).any fun opened =>
        (runAll (System.step asciiText) s (Page.opened opened).served).any fun s' =>
          s'.requests[3]?.any fun g =>
            g.request = .update ((Page.opened opened).request asciiText) acmeAdmin none &&
            (InFlight.answer? g).any fun settings =>
              settings.policy = ⟨true, false, ["acme.com"], some "role-1", true⟩) = true := by
    decide +kernel
  obtain ⟨s, hs, h⟩ := (Option.any_eq_true _ _).mp hrun
  obtain ⟨f, hf, h⟩ := (Option.any_eq_true _ _).mp h
  obtain ⟨hreads, h⟩ := Bool.and_eq_true_iff.mp h
  obtain ⟨opened, hopened, h⟩ := (Option.any_eq_true _ _).mp h
  obtain ⟨s', hs', h⟩ := (Option.any_eq_true _ _).mp h
  obtain ⟨g, hg, h⟩ := (Option.any_eq_true _ _).mp h
  obtain ⟨hupdate, h⟩ := Bool.and_eq_true_iff.mp h
  obtain ⟨settings, hsettings, hpolicy⟩ := (Option.any_eq_true _ _).mp h
  obtain ⟨currentUser, header, hget⟩ := reads_eq hreads
  have hupdate := of_decide_eq_true hupdate
  have hloaded : Served asciiText acme (.get currentUser header) opened :=
    ⟨s, reach_of_run hs, f, List.mem_of_getElem? hf, hget, InFlight.answer?_eq hopened⟩
  have hstored : Served asciiText acme
      (.update ((Page.opened opened).request asciiText) acmeAdmin none) settings :=
    ⟨s', (reach_of_run hs).trans (reach_of_run hs'), g, List.mem_of_getElem? hg, hupdate,
      InFlight.answer?_eq hsettings⟩
  have hreach : Reach (Page.step asciiText) (Untouched asciiText acme) Page.initial
      ⟨.ready settings, .saved, opened.policy.allowSelfRegistration, opened.policy.requireApproval,
        joinDomains settings.policy.allowedEmailDomains⟩ := by
    have hfetched : Reach (Page.step asciiText) (Untouched asciiText acme) Page.initial
        (Page.opened opened) := .next (e := .fetched opened) .init ⟨currentUser, header, hloaded⟩ rfl
    refine .next (e := .saved settings) (.next (e := .submit) hfetched trivial rfl) ?_ rfl
    intro request hrequest
    cases hrequest
    exact ⟨acmeAdmin, none, hstored⟩
  exact ⟨_, settings, hreach, rfl, rfl, of_decide_eq_true hpolicy,
    untouched_form_keeps_policy rfl acme_sound rfl asciiText_keepsLower hreach rfl⟩

end Flexi.Client.SettingsPage
