import Flexi.Common.Json

/-!
# The onboarding payload (shared-types/entities.ts)

What a create request has to look like, and how the accepted payload is read
back from the attempt row.
-/

namespace Flexi.Tenants

/-- `String.prototype.toLowerCase`, whose Unicode tables nothing here depends on. -/
structure JsText where
  toLowerCase : String → String

/-- The characters `trim` and `\s` remove. -/
def isJsSpace (c : Char) : Bool :=
  c.toNat ∈ [0x9, 0xA, 0xB, 0xC, 0xD, 0x20, 0xA0, 0x1680, 0x2028, 0x2029, 0x202F, 0x205F, 0x3000,
    0xFEFF] || (0x2000 ≤ c.toNat && c.toNat ≤ 0x200A)

def trim (s : String) : String :=
  String.ofList ((s.toList.dropWhile isJsSpace).reverse.dropWhile isJsSpace).reverse

theorem trim_eq {s : String} (h : ∀ c ∈ s.toList, isJsSpace c = false) : trim s = s := by
  have hdrop (cs : List Char) (hcs : ∀ c ∈ cs, isJsSpace c = false) : cs.dropWhile isJsSpace = cs := by
    cases cs with
    | nil => rfl
    | cons c cs => rw [List.dropWhile_cons_of_neg (by rw [hcs c List.mem_cons_self]; exact Bool.false_ne_true)]
  rw [trim, hdrop _ h, hdrop _ fun c hc => h c (List.mem_reverse.mp hc), List.reverse_reverse,
    String.ofList_toList]

/-- `plan` is `none` when the request's value is no string. -/
structure SafePayload where
  tenantName : String
  tenantSlug : String
  firstAdminEmail : String
  plan : Option String
  deriving DecidableEq, Repr

def TENANT_ONBOARDING_PLANS : List String := ["starter", "growth", "enterprise"]

def TENANT_SLUG_MIN_LENGTH : ℕ := 3
def TENANT_SLUG_MAX_LENGTH : ℕ := 63

/-- `[a-z0-9]` -/
def isSlugChar (c : Char) : Bool := c.isLower || c.isDigit

/-- `TENANT_SLUG_PATTERN` -/
def matchesSlugPattern (slug : String) : Bool :=
  slug.toList.head?.any isSlugChar && slug.toList.getLast?.any isSlugChar &&
    slug.toList.all fun c => isSlugChar c || c == '-'

def hasDoubleHyphen : List Char → Bool
  | '-' :: '-' :: _ => true
  | _ :: cs => hasDoubleHyphen cs
  | [] => false

def isTenantSlugFormatValid (slug : String) : Bool :=
  TENANT_SLUG_MIN_LENGTH ≤ utf16Length slug && utf16Length slug ≤ TENANT_SLUG_MAX_LENGTH &&
    matchesSlugPattern slug && !hasDoubleHyphen slug.toList

/-- `EMAIL_PATTERN`: a local part, one `@`, and a domain of two or more labels. -/
def matchesEmailPattern (email : String) : Bool :=
  match email.toList.splitOn '@' with
  | [name, domain] =>
    name ≠ [] && (name ++ domain).all (fun c => !isJsSpace c) &&
      2 ≤ (domain.splitOn '.').length && (domain.splitOn '.').all (· ≠ [])
  | _ => false

/-- The error codes by field; the request is valid when there are none. -/
def validateTenantOnboardingInput (input : SafePayload) : List (String × String) :=
  let tenantName := trim input.tenantName
  let tenantSlug := trim input.tenantSlug
  let firstAdminEmail := trim input.firstAdminEmail
  (if tenantName = "" then [("tenantName", "TENANT_NAME_REQUIRED")] else []) ++
  (if tenantSlug = "" then [("tenantSlug", "SLUG_REQUIRED")]
    else if !isTenantSlugFormatValid tenantSlug then [("tenantSlug", "SLUG_FORMAT")] else []) ++
  (if firstAdminEmail = "" then [("firstAdminEmail", "EMAIL_REQUIRED")]
    else if !matchesEmailPattern firstAdminEmail then [("firstAdminEmail", "EMAIL_FORMAT")]
    else []) ++
  (if input.plan.any TENANT_ONBOARDING_PLANS.contains then [] else [("plan", "PLAN_REQUIRED")])

/-- `typeof value[key] === 'string' ? value[key].trim() : ''` -/
def trimmedField (value : Json) (key : String) : String :=
  match value.get? key with
  | some (.str s) => trim s
  | _ => ""

/-- The payload columns of a request body or of a stored `safePayload`. -/
def normalizePayload (js : JsText) (value : Json) : SafePayload :=
  { tenantName := trimmedField value "tenantName"
    tenantSlug := trimmedField value "tenantSlug"
    firstAdminEmail := js.toLowerCase (trimmedField value "firstAdminEmail")
    plan := match value.get? "plan" with
      | some (.str plan) => some plan
      | _ => none }

def readSafePayload (js : JsText) (value : Json) : Option SafePayload :=
  match value with
  | .obj _ =>
    let payload := normalizePayload js value
    if payload.plan.isSome && (validateTenantOnboardingInput payload).isEmpty then some payload
    else none
  | _ => none

/-- `JSON.stringify(safePayload)` as the column holds it. -/
def SafePayload.toJson (payload : SafePayload) : Json :=
  .obj ([("tenantName", .str payload.tenantName), ("tenantSlug", .str payload.tenantSlug),
    ("firstAdminEmail", .str payload.firstAdminEmail)] ++
    (payload.plan.map fun plan => ("plan", Json.str plan)).toList)

end Flexi.Tenants
