import Flexi.Common.JsonText
import Flexi.Library.Reach
import Flexi.Library.Slots
import Flexi.Tenants.Payload

/-!
# The onboarding form (TenantOnboardingPage.tsx)

The mounted form as a state machine. A step is what runs without a pause: a handler of the page
with the effects it leads to, a timer, or the continuation of a request after its answer. An
aborted request answers as one that has failed. What only the rendering reads is left out.
-/

namespace Flexi.Client.OnboardingForm
open Flexi.Library Flexi.JsonText
open Flexi.Tenants (JsText SafePayload trim validateTenantOnboardingInput isTenantSlugFormatValid)

structure OnboardingFormValues where
  tenantName : String
  tenantSlug : String
  firstAdminEmail : String
  plan : String
  notes : String

inductive FieldName where
  | tenantName
  | tenantSlug
  | firstAdminEmail
  | plan
  | notes
  deriving DecidableEq

def OnboardingFormValues.set (values : OnboardingFormValues) (value : String) :
    FieldName → OnboardingFormValues
  | .tenantName => { values with tenantName := value }
  | .tenantSlug => { values with tenantSlug := value }
  | .firstAdminEmail => { values with firstAdminEmail := value }
  | .plan => { values with plan := value }
  | .notes => { values with notes := value }

/-- Messages are the keys of their translations. -/
inductive SlugStatus where
  | idle
  | checking
  | available
  | unavailable
  | error (message : String)
  deriving DecidableEq

structure SlugAvailabilityState where
  status : SlugStatus
  slug : String
  deriving DecidableEq

/-- The code never sets `created` or `replayed`. -/
inductive SubmitState where
  | idle
  | creating
  | conflict (existingAttemptId : Option String)
  | error (message : String)
  deriving DecidableEq

/-- `TenantOnboardingCreateRequestDto` as the form builds it. -/
structure CreateRequest where
  tenantName : String
  tenantSlug : String
  firstAdminEmail : String
  plan : String
  deriving DecidableEq

structure IdempotencyKey where
  signature : String
  key : String
  deriving DecidableEq

/-! ### Requests of the page -/

/-- What the availability route answers. -/
inductive SlugReply where
  | ok (slug : String) (available : Bool)
  | apiError (code : String)
  | failed
  deriving DecidableEq

/-- A run of the effect of `values.tenantSlug`. -/
structure SlugCheck where
  slug : String
  requestId : ℕ
  cancelled : Bool
  asked : Bool
  answer : Option SlugReply

/-- What the create route answers: an attempt with the slug of its payload, an `ApiError`, or
another error. -/
inductive SubmitReply where
  | ok (id : String) (tenantSlug : String)
  | apiError (code : String) (existingAttemptId : Option String)
  | failed
  deriving DecidableEq

structure Submission where
  request : CreateRequest
  key : String
  requestId : ℕ
  answer : Option SubmitReply

structure Form where
  values : OnboardingFormValues
  slugAvailability : SlugAvailabilityState
  submitState : SubmitState
  slugRequestId : ℕ
  submitRequestId : ℕ
  idempotencyKeyRef : Option IdempotencyKey
  mounted : Bool
  checks : List SlugCheck
  submissions : List Submission
  navigated : Option String

/-- `toLowerCase`, and the text of numbers, of which the signature has none. -/
structure Config where
  js : JsText
  nt : NumberText

def Form.start : Form where
  values := ⟨"", "", "", "", ""⟩
  slugAvailability := ⟨.idle, ""⟩
  submitState := .idle
  slugRequestId := 1
  submitRequestId := 0
  idempotencyKeyRef := none
  mounted := true
  checks := []
  submissions := []
  navigated := none

/-! ### The page -/

def buildCreateRequest (js : JsText) (values : OnboardingFormValues) : CreateRequest where
  tenantName := trim values.tenantName
  tenantSlug := trim values.tenantSlug
  firstAdminEmail := js.toLowerCase (trim values.firstAdminEmail)
  plan := values.plan

def submissionSignature (nt : NumberText) (request : CreateRequest) : String :=
  stringify nt 0 (.arr [.str request.tenantName, .str request.tenantSlug,
    .str request.firstAdminEmail, .str request.plan])

/-- Every code that the validation can yield has a message. -/
def OnboardingFormValues.hasLocalErrors (values : OnboardingFormValues) : Bool :=
  !(validateTenantOnboardingInput
    ⟨values.tenantName, values.tenantSlug, values.firstAdminEmail, some values.plan⟩).isEmpty

namespace Form

variable (form : Form)

def trimmedSlug : String := trim form.values.tenantSlug

def activeSlugAvailability : SlugAvailabilityState :=
  if form.slugAvailability.slug = form.trimmedSlug then form.slugAvailability
  else ⟨.idle, form.trimmedSlug⟩

def isSubmitting : Bool := form.submitState = .creating

def slugIsAvailable : Bool :=
  form.activeSlugAvailability.status = .available && form.activeSlugAvailability.slug = form.trimmedSlug

def canSubmit : Bool :=
  !form.values.hasLocalErrors && form.slugIsAvailable && !form.isSubmitting

/-- The cleanup of the last run of the slug's effect, and its next run. -/
def runSlugEffect : Form :=
  let slug := trim form.values.tenantSlug
  let requestId := form.slugRequestId + 1
  let checks := form.checks.map fun check => { check with cancelled := true }
  { form with
    slugRequestId := requestId
    checks := if slug = "" || !isTenantSlugFormatValid slug then checks
      else checks ++ [⟨slug, requestId, false, false, none⟩] }

def setFieldValue (field : FieldName) (value : String) : Form :=
  let form' := { form with
    values := form.values.set value field
    submitState := if form.submitState = .creating then .creating else .idle
    slugAvailability :=
      if field = .tenantSlug ∧ (trim value = "" ∨ isTenantSlugFormatValid (trim value) = false) then
        ⟨.idle, trim value⟩
      else form.slugAvailability }
  -- The effect depends on the slug and runs when it is another text.
  if field = .tenantSlug ∧ value ≠ form.values.tenantSlug then form'.runSlugEffect else form'

/-- The timeout of a check. -/
def fire (i : ℕ) (check : SlugCheck) : Form :=
  if check.cancelled ∨ form.slugRequestId ≠ check.requestId then form
  else { form with
    slugAvailability := ⟨.checking, check.slug⟩
    checks := form.checks.set i { check with asked := true } }

/-- What a check makes of its answer. -/
def SlugReply.display (slug : String) : SlugReply → SlugAvailabilityState
  | .ok answered available =>
    if answered ≠ slug then ⟨.error "onboarding.preflight.slugCheckFailed", slug⟩
    else ⟨if available then .available else .unavailable, answered⟩
  | .apiError code =>
    ⟨.error (if code = "VALIDATION_ERROR" then "onboarding.validation.slugFormat"
      else "onboarding.preflight.slugCheckFailed"), slug⟩
  | .failed => ⟨.error "onboarding.preflight.slugCheckFailed", slug⟩

def slugAnswer (i : ℕ) (check : SlugCheck) (reply : SlugReply) : Form :=
  let form' := { form with checks := form.checks.set i { check with answer := some reply } }
  if check.cancelled ∨ form.slugRequestId ≠ check.requestId then form'
  else { form' with slugAvailability := SlugReply.display check.slug reply }

/-- `newKey` is what `generateIdempotencyKey` yields, `none` when it throws. -/
def handleSubmit (cfg : Config) (newKey : Option String) : Form :=
  if form.values.hasLocalErrors ∨ form.slugIsAvailable = false then form
  else
    let request := buildCreateRequest cfg.js form.values
    let signature := submissionSignature cfg.nt request
    let ref := if form.idempotencyKeyRef.any (·.signature = signature) then form.idempotencyKeyRef
      else newKey.map fun key => ⟨signature, key⟩
    match ref with
    | none => { form with submitState := .error "onboarding.submit.keyGenerationFailure" }
    | some ref =>
      let requestId := form.submitRequestId + 1
      { form with
        idempotencyKeyRef := some ref
        submitRequestId := requestId
        submitState := .creating
        submissions := form.submissions ++ [⟨request, ref.key, requestId, none⟩] }

def submitAnswer (k : ℕ) (submission : Submission) (reply : SubmitReply) : Form :=
  let form' := { form with
    submissions := form.submissions.set k { submission with answer := some reply } }
  if form.mounted = false ∨ form.submitRequestId ≠ submission.requestId then form'
  else match reply with
    | .ok id tenantSlug => { form' with
        slugAvailability := ⟨.available, tenantSlug⟩
        navigated := some id }
    | .apiError code existingAttemptId =>
      if code = "IDEMPOTENCY_CONFLICT" then { form' with submitState := .conflict existingAttemptId }
      else if code = "SLUG_ALREADY_IN_USE" then { form' with
        slugAvailability := ⟨.unavailable, submission.request.tenantSlug⟩
        submitState := .error "onboarding.submit.slugConflictFailure" }
      else { form' with submitState := .error "onboarding.submit.genericFailure" }
    | .failed => { form' with submitState := .error "onboarding.submit.genericFailure" }

def unmount : Form :=
  { form with
    mounted := false
    checks := form.checks.map fun check => { check with cancelled := true } }

end Form

/-! ### Steps -/

/-- `language` is a change of `t`, on which the slug's effect depends. -/
inductive FormEvent where
  | change (field : FieldName) (value : String)
  | language
  | fire (i : ℕ)
  | slugAnswer (i : ℕ) (reply : SlugReply)
  | submit (newKey : Option String)
  | submitAnswer (k : ℕ) (reply : SubmitReply)
  | unmount

/-- The fields are disabled while a request is under way, the button unless `canSubmit`. -/
def Form.step (cfg : Config) (form : Form) : FormEvent → Option Form
  | .change field value =>
    if form.mounted ∧ form.isSubmitting = false then some (form.setFieldValue field value) else none
  | .language => if form.mounted then some form.runSlugEffect else none
  | .fire i => form.checks[i]?.bind fun check =>
    if check.asked then none else some (form.fire i check)
  | .slugAnswer i reply => form.checks[i]?.bind fun check =>
    if check.asked ∧ check.answer = none then some (form.slugAnswer i check reply) else none
  | .submit newKey =>
    if form.mounted ∧ form.canSubmit then some (form.handleSubmit cfg newKey) else none
  | .submitAnswer k reply => form.submissions[k]?.bind fun submission =>
    if submission.answer = none then some (form.submitAnswer k submission reply) else none
  | .unmount => if form.mounted then some form.unmount else none

/-! ### Keys -/

/-- What has been sent under which key, in order. -/
def Form.sent (form : Form) : List (CreateRequest × String) :=
  form.submissions.map fun submission => (submission.request, submission.key)

theorem map_set_same {α β : Type} {f : α → β} {xs : List α} {i : ℕ} {a b : α} (ha : xs[i]? = some a)
    (hf : f b = f a) : (xs.set i b).map f = xs.map f := by
  obtain ⟨hi, rfl⟩ := List.getElem?_eq_some_iff.mp ha
  rw [List.map_set, hf, ← List.getElem_map f (h := by simpa using hi), List.set_getElem_self]

section
variable {cfg : Config} {form form' : Form} {e : FormEvent}

theorem signature_injective {nt : NumberText} {a b : CreateRequest}
    (h : submissionSignature nt a = submissionSignature nt b) : a = b := by
  have hstable (r : CreateRequest) : Stable nt (.arr [.str r.tenantName, .str r.tenantSlug,
      .str r.firstAdminEmail, .str r.plan]) := by
    refine .arr _ fun x hx => ?_
    simp only [List.mem_cons, List.not_mem_nil, or_false] at hx
    rcases hx with rfl | rfl | rfl | rfl <;> exact .str _
  have hparse := congrArg (parse nt) h
  rw [submissionSignature, submissionSignature, parse_stringify (hstable a),
    parse_stringify (hstable b)] at hparse
  cases a
  cases b
  simpa using hparse

/-- A submission goes out under the key that is held for its signature, or under a new one. -/
structure Submits (cfg : Config) (form form' : Form) (newKey : Option String)
    (ref : IdempotencyKey) : Prop where
  sent : form'.sent = form.sent ++ [(buildCreateRequest cfg.js form.values, ref.key)]
  holds : form'.idempotencyKeyRef = some ref
  signs : ref.signature = submissionSignature cfg.nt (buildCreateRequest cfg.js form.values)
  source : form.idempotencyKeyRef = some ref ∨ newKey = some ref.key ∧
    ∀ old, form.idempotencyKeyRef = some old → old.signature ≠ ref.signature

theorem handleSubmit_sent {newKey : Option String} :
    ((form.handleSubmit cfg newKey).sent = form.sent ∧
      (form.handleSubmit cfg newKey).idempotencyKeyRef = form.idempotencyKeyRef) ∨
      ∃ ref, Submits cfg form (form.handleSubmit cfg newKey) newKey ref := by
  unfold Form.handleSubmit
  split
  · exact .inl ⟨rfl, rfl⟩
  dsimp only
  split
  · exact .inl ⟨rfl, rfl⟩
  rename_i ref href
  refine .inr ⟨ref, ?_, rfl, ?_, ?_⟩
  · exact List.map_append
  · split at href
    · rename_i hheld
      rw [href, Option.any_some] at hheld
      exact of_decide_eq_true hheld
    · obtain ⟨key, -, rfl⟩ := Option.map_eq_some_iff.mp href
      rfl
  · split at href
    · exact .inl href
    · rename_i hheld
      obtain ⟨key, hkey, rfl⟩ := Option.map_eq_some_iff.mp href
      refine .inr ⟨hkey, fun old hold hsame => hheld ?_⟩
      rw [hold, Option.any_some]
      exact decide_eq_true hsame

theorem step_sent (hs : form.step cfg e = some form') :
    (form'.sent = form.sent ∧ form'.idempotencyKeyRef = form.idempotencyKeyRef) ∨
      ∃ newKey ref, e = .submit newKey ∧ Submits cfg form form' newKey ref := by
  cases e with
  | change field value =>
    simp only [Form.step] at hs
    split at hs
    · cases hs
      unfold Form.setFieldValue
      dsimp only
      split <;> exact .inl ⟨rfl, rfl⟩
    · cases hs
  | language =>
    simp only [Form.step] at hs
    split at hs
    · cases hs
      exact .inl ⟨rfl, rfl⟩
    · cases hs
  | fire i =>
    obtain ⟨check, -, hs⟩ := Option.bind_eq_some_iff.mp hs
    split at hs
    · cases hs
    · cases hs
      unfold Form.fire
      split <;> exact .inl ⟨rfl, rfl⟩
  | slugAnswer i reply =>
    obtain ⟨check, -, hs⟩ := Option.bind_eq_some_iff.mp hs
    split at hs
    · cases hs
      unfold Form.slugAnswer
      dsimp only
      split <;> exact .inl ⟨rfl, rfl⟩
    · cases hs
  | submit newKey =>
    simp only [Form.step] at hs
    split at hs
    · obtain rfl := Option.some.inj hs
      rcases @handleSubmit_sent cfg form newKey with hsame | ⟨ref, hsubmits⟩
      · exact .inl hsame
      · exact .inr ⟨newKey, ref, rfl, hsubmits⟩
    · cases hs
  | submitAnswer k reply =>
    obtain ⟨submission, hk, hs⟩ := Option.bind_eq_some_iff.mp hs
    split at hs
    · cases hs
      have hsent : (form.submissions.set k { submission with answer := some reply }).map
          (fun submission => (submission.request, submission.key)) = form.sent :=
        map_set_same hk rfl
      unfold Form.submitAnswer
      dsimp only
      split
      · exact .inl ⟨hsent, rfl⟩
      · split
        · exact .inl ⟨hsent, rfl⟩
        · split
          · exact .inl ⟨hsent, rfl⟩
          · split <;> exact .inl ⟨hsent, rfl⟩
        · exact .inl ⟨hsent, rfl⟩
    · cases hs
  | unmount =>
    simp only [Form.step] at hs
    split at hs
    · cases hs
      exact .inl ⟨rfl, rfl⟩
    · cases hs

/-- The page shows a conflict, or leaves for an attempt, after the answer that says so. -/
structure Outcome (form form' : Form) (e : FormEvent) : Prop where
  conflict : ∀ id, form'.submitState = .conflict id → form.submitState = .conflict id ∨
    ∃ k existing, e = .submitAnswer k (.apiError "IDEMPOTENCY_CONFLICT" existing)
  navigated : ∀ id, form'.navigated = some id → form.navigated = some id ∨
    ∃ k slug, e = .submitAnswer k (.ok id slug)

theorem Outcome.same (hstate : ∀ id, form'.submitState = .conflict id → form.submitState = .conflict id)
    (hnavigated : form'.navigated = form.navigated) : Outcome form form' e :=
  ⟨fun id h => .inl (hstate id h), fun _ h => .inl (hnavigated ▸ h)⟩

theorem handleSubmit_outcome {newKey : Option String} :
    Outcome form (form.handleSubmit cfg newKey) e := by
  unfold Form.handleSubmit
  split
  · exact .same (fun _ h => h) rfl
  dsimp only
  split <;> exact .same (fun _ h => SubmitState.noConfusion h) rfl

theorem submitAnswer_outcome {k : ℕ} {submission : Submission} {reply : SubmitReply} :
    Outcome form (form.submitAnswer k submission reply) (.submitAnswer k reply) := by
  unfold Form.submitAnswer
  dsimp only
  split
  · exact .same (fun _ h => h) rfl
  cases reply with
  | ok id tenantSlug =>
    refine ⟨fun _ h => .inl h, fun id' h => .inr ⟨k, tenantSlug, ?_⟩⟩
    cases h
    rfl
  | failed => exact .same (fun _ h => SubmitState.noConfusion h) rfl
  | apiError code existing =>
    dsimp only
    split
    · rename_i hcode
      exact ⟨fun _ _ => .inr ⟨k, existing, by rw [hcode]⟩, fun _ h => .inl h⟩
    · split <;> exact .same (fun _ h => SubmitState.noConfusion h) rfl

theorem step_outcome (hs : form.step cfg e = some form') : Outcome form form' e := by
  cases e with
  | change field value =>
    simp only [Form.step] at hs
    split at hs
    · obtain rfl := Option.some.inj hs
      have hstate (id : Option String) : (if form.submitState = .creating then SubmitState.creating
          else .idle) ≠ .conflict id := by
        split <;> exact SubmitState.noConfusion
      unfold Form.setFieldValue
      dsimp only
      split
      · exact .same (fun id h => absurd h (hstate id)) rfl
      · exact .same (fun id h => absurd h (hstate id)) rfl
    · cases hs
  | language =>
    simp only [Form.step] at hs
    split at hs
    · obtain rfl := Option.some.inj hs
      exact .same (fun _ h => h) rfl
    · cases hs
  | fire i =>
    obtain ⟨check, -, hs⟩ := Option.bind_eq_some_iff.mp hs
    split at hs
    · cases hs
    · obtain rfl := Option.some.inj hs
      unfold Form.fire
      split <;> exact .same (fun _ h => h) rfl
  | slugAnswer i reply =>
    obtain ⟨check, -, hs⟩ := Option.bind_eq_some_iff.mp hs
    split at hs
    · obtain rfl := Option.some.inj hs
      unfold Form.slugAnswer
      dsimp only
      split <;> exact .same (fun _ h => h) rfl
    · cases hs
  | submit newKey =>
    simp only [Form.step] at hs
    split at hs
    · obtain rfl := Option.some.inj hs
      exact handleSubmit_outcome
    · cases hs
  | submitAnswer k reply =>
    obtain ⟨submission, hk, hs⟩ := Option.bind_eq_some_iff.mp hs
    split at hs
    · obtain rfl := Option.some.inj hs
      exact submitAnswer_outcome
    · cases hs
  | unmount =>
    simp only [Form.step] at hs
    split at hs
    · obtain rfl := Option.some.inj hs
      exact .same (fun _ h => h) rfl
    · cases hs

/-- The key that is held is that of the last submission, a key names one request, and a
request that is repeated keeps its key. -/
structure Form.Keys (cfg : Config) (form : Form) : Prop where
  held : form.idempotencyKeyRef =
    form.sent.getLast?.map fun (request, key) => ⟨submissionSignature cfg.nt request, key⟩
  same : ∀ a ∈ form.sent, ∀ b ∈ form.sent, a.2 = b.2 → a.1 = b.1
  next : ∀ i a b, form.sent[i]? = some a → form.sent[i + 1]? = some b → a.1 = b.1 → a.2 = b.2

theorem Form.Keys.start (cfg : Config) : Form.start.Keys cfg where
  held := rfl
  same := fun a ha => by cases ha
  next := fun i a b ha => by cases ha

/-- A submission repeats the last one, key and all, or has a key that none before it has. -/
theorem Submits.last (h : form.Keys cfg) {newKey : Option String} {ref : IdempotencyKey}
    (hs : Submits cfg form form' newKey ref) :
    form.sent.getLast? = some (buildCreateRequest cfg.js form.values, ref.key) ∨
      newKey = some ref.key ∧ ∀ a, form.sent.getLast? = some a → a.1 ≠ buildCreateRequest cfg.js form.values := by
  rcases hs.source with hheld | ⟨hnew, hother⟩
  · rw [h.held] at hheld
    obtain ⟨⟨request, key⟩, hlast, rfl⟩ := Option.map_eq_some_iff.mp hheld
    rw [signature_injective hs.signs] at hlast
    exact .inl hlast
  · refine .inr ⟨hnew, fun a ha hsame => ?_⟩
    refine hother ⟨submissionSignature cfg.nt a.1, a.2⟩ ?_ ?_
    · rw [h.held, ha]
      rfl
    · rw [hs.signs, hsame]

theorem Form.Keys.step (h : form.Keys cfg) (hs : form.step cfg e = some form')
    (hfresh : ∀ newKey, e = .submit (some newKey) → ∀ a ∈ form.sent, a.2 ≠ newKey) :
    form'.Keys cfg := by
  rcases step_sent hs with ⟨hsent, href⟩ | ⟨newKey, ref, rfl, hsubmits⟩
  · exact ⟨by rw [href, hsent, h.held], hsent ▸ h.same, hsent ▸ h.next⟩
  rcases hsubmits with ⟨hsent, href, hsignature, hkey⟩
  have hlast := Submits.last h ⟨hsent, href, hsignature, hkey⟩
  refine ⟨?_, ?_, ?_⟩
  · rw [href, hsent, List.getLast?_concat, Option.map_some]
    dsimp only
    rw [← hsignature]
  · have hnew : ∀ a ∈ form.sent, a.2 = ref.key → a.1 = buildCreateRequest cfg.js form.values := by
      intro a ha heq
      rcases hlast with hlast | ⟨hnew, -⟩
      · exact h.same a ha _ (List.mem_of_getLast? hlast) heq
      · exact absurd heq (hfresh ref.key (by rw [hnew]) a ha)
    rw [hsent]
    intro a ha b hb heq
    rcases List.mem_append.mp ha with ha | ha <;> rcases List.mem_append.mp hb with hb | hb
    · exact h.same a ha b hb heq
    · cases List.mem_singleton.mp hb
      exact hnew a ha heq
    · cases List.mem_singleton.mp ha
      exact (hnew b hb heq.symm).symm
    · cases List.mem_singleton.mp ha
      cases List.mem_singleton.mp hb
      rfl
  · rw [hsent]
    intro i a b ha hb heq
    rcases getElem?_add hb with hb | ⟨hi, rfl⟩
    · rcases getElem?_add ha with ha | ⟨hi, -⟩
      · exact h.next i a b ha hb heq
      · have hlt := getElem?_lt hb
        omega
    · rcases getElem?_add ha with ha | ⟨hi', -⟩
      · have hgetLast : form.sent.getLast? = some a := by
          rw [List.getLast?_eq_getElem?, ← hi, Nat.add_sub_cancel, ha]
        rcases hlast with hlast | ⟨-, hother⟩
        · rw [hgetLast] at hlast
          cases hlast
          rfl
        · exact absurd heq (hother a hgetLast)
      · omega

end

/-! ### Preflight -/

/-- What the answer to a submission tells of its slug. -/
def SubmitReply.tells (request : CreateRequest) : SubmitReply → Option SlugAvailabilityState
  | .ok _ tenantSlug => some ⟨.available, tenantSlug⟩
  | .apiError code _ =>
    if code = "SLUG_ALREADY_IN_USE" then some ⟨.unavailable, request.tenantSlug⟩ else none
  | .failed => none

/-- The server has answered so, to a check of the slug or to a submission. -/
def Form.Told (form : Form) (state : SlugAvailabilityState) : Prop :=
  (∃ check ∈ form.checks, ∃ reply, check.answer = some reply ∧
    Form.SlugReply.display check.slug reply = state) ∨
    ∃ submission ∈ form.submissions, ∃ reply, submission.answer = some reply ∧
      reply.tells submission.request = some state

/-- Nothing is shown of a slug, and nothing is sent for it, but what the server has told of
it. -/
structure Form.Said (form : Form) : Prop where
  shown : form.slugAvailability.status ≠ .idle → form.slugAvailability.status ≠ .checking →
    form.Told form.slugAvailability
  submitted : ∀ submission ∈ form.submissions, form.Told ⟨.available, submission.request.tenantSlug⟩

/-- Only the last run of the slug's effect is not cancelled, and it is of the slug in the
field. -/
structure Form.Live (form : Form) : Prop where
  one : form.checks.countP (fun check => !check.cancelled) ≤ 1
  current : ∀ check ∈ form.checks, check.cancelled = false →
    check.slug = form.trimmedSlug ∧ check.requestId = form.slugRequestId

/-- Answers stay. -/
structure Form.Remembers (form form' : Form) : Prop where
  checks : ∀ check ∈ form.checks, check.answer ≠ none →
    ∃ check' ∈ form'.checks, check'.slug = check.slug ∧ check'.answer = check.answer
  submissions : ∀ submission ∈ form.submissions, submission.answer ≠ none →
    ∃ submission' ∈ form'.submissions, submission'.request = submission.request ∧
      submission'.answer = submission.answer

theorem mem_set_of_mem {α : Type} {xs : List α} {i : ℕ} {a b x : α} (ha : xs[i]? = some a)
    (hx : x ∈ xs) : x = a ∧ b ∈ xs.set i b ∨ x ∈ xs.set i b := by
  obtain ⟨j, hj⟩ := List.mem_iff_getElem?.mp hx
  by_cases hij : i = j
  · subst hij
    exact .inl ⟨Option.some.inj (hj.symm.trans ha), List.mem_set (getElem?_lt ha) b⟩
  · exact .inr (List.mem_of_getElem? (by rw [List.getElem?_set_ne hij, hj]))

section
variable {cfg : Config} {form form' : Form} {e : FormEvent} {state : SlugAvailabilityState}

theorem Form.Remembers.told (h : form.Remembers form') (ht : form.Told state) : form'.Told state := by
  have hsome {α : Type} {x : Option α} {a : α} (hx : x = some a) : x ≠ none := by
    rw [hx]
    exact Option.some_ne_none a
  rcases ht with ⟨check, hcheck, reply, hanswer, hstate⟩ | ⟨submission, hsubmission, reply, hanswer, hstate⟩
  · obtain ⟨check', hcheck', hslug, hanswer'⟩ := h.checks check hcheck (hsome hanswer)
    exact .inl ⟨check', hcheck', reply, hanswer'.trans hanswer, hslug ▸ hstate⟩
  · obtain ⟨submission', hsubmission', hrequest, hanswer'⟩ :=
      h.submissions submission hsubmission (hsome hanswer)
    exact .inr ⟨submission', hsubmission', reply, hanswer'.trans hanswer, hrequest ▸ hstate⟩

theorem Form.Remembers.of_checks {f : SlugCheck → SlugCheck} {more : List SlugCheck}
    (hslug : ∀ check, (f check).slug = check.slug) (hanswer : ∀ check, (f check).answer = check.answer)
    (hchecks : form'.checks = form.checks.map f ++ more)
    (hsubmissions : form'.submissions = form.submissions) : form.Remembers form' where
  checks check hcheck _ := by
    rw [hchecks]
    exact ⟨f check, List.mem_append_left _ (List.mem_map_of_mem hcheck), hslug check, hanswer check⟩
  submissions submission hsubmission _ := ⟨submission, hsubmissions ▸ hsubmission, rfl, rfl⟩

theorem Form.Remembers.of_set {i : ℕ} {check check' : SlugCheck} (hi : form.checks[i]? = some check)
    (hslug : check'.slug = check.slug) (hanswer : check.answer ≠ none → check'.answer = check.answer)
    (hchecks : form'.checks = form.checks.set i check')
    (hsubmissions : form'.submissions = form.submissions) : form.Remembers form' where
  checks old hold hne := by
    rw [hchecks]
    rcases @mem_set_of_mem _ _ _ _ check' _ hi hold with ⟨rfl, hmem⟩ | hmem
    · exact ⟨check', hmem, hslug, hanswer hne⟩
    · exact ⟨old, hmem, rfl, rfl⟩
  submissions submission hsubmission _ := ⟨submission, hsubmissions ▸ hsubmission, rfl, rfl⟩

/-- No new submission, and nothing new shown or only what has been told. -/
theorem Form.Said.kept (h : form.Said) (hr : form.Remembers form')
    (hsubmissions : form'.submissions = form.submissions)
    (hshown : form'.slugAvailability = form.slugAvailability ∨ form'.slugAvailability.status = .idle ∨
      form'.slugAvailability.status = .checking ∨ form'.Told form'.slugAvailability) : form'.Said where
  shown hidle hchecking := by
    rcases hshown with hsame | h' | h' | htold
    · rw [hsame] at hidle hchecking ⊢
      exact hr.told (h.shown hidle hchecking)
    · exact absurd h' hidle
    · exact absurd h' hchecking
    · exact htold
  submitted submission hsubmission := hr.told (h.submitted submission (hsubmissions ▸ hsubmission))

theorem countP_cancelled (checks : List SlugCheck) :
    (checks.map fun check => { check with cancelled := true }).countP
      (fun check => !check.cancelled) = 0 := by
  rw [List.countP_eq_zero]
  intro check hcheck
  obtain ⟨old, -, rfl⟩ := List.mem_map.mp hcheck
  exact Bool.false_ne_true

theorem runSlugEffect_live : form.runSlugEffect.Live := by
  unfold Form.runSlugEffect
  dsimp only
  split
  · refine ⟨(countP_cancelled _).le.trans (Nat.zero_le 1), fun check hcheck hlive => ?_⟩
    obtain ⟨old, -, rfl⟩ := List.mem_map.mp hcheck
    cases hlive
  · refine ⟨?_, fun check hcheck hlive => ?_⟩
    · dsimp only
      rw [List.countP_append, countP_cancelled]
      exact le_refl 1
    · rcases List.mem_append.mp hcheck with hold | hnew
      · obtain ⟨old, -, rfl⟩ := List.mem_map.mp hold
        cases hlive
      · cases List.mem_singleton.mp hnew
        exact ⟨rfl, rfl⟩

theorem runSlugEffect_remembers : form.Remembers form.runSlugEffect := by
  unfold Form.runSlugEffect
  dsimp only
  split
  · exact .of_checks (f := fun check => { check with cancelled := true }) (fun _ => rfl) (fun _ => rfl)
      (List.append_nil _).symm rfl
  · exact .of_checks (f := fun check => { check with cancelled := true }) (fun _ => rfl) (fun _ => rfl)
      rfl rfl

theorem Form.Live.of_set {i : ℕ} {check check' : SlugCheck} (h : form.Live)
    (hi : form.checks[i]? = some check) (hcancelled : check'.cancelled = check.cancelled)
    (hslug : check'.slug = check.slug) (hid : check'.requestId = check.requestId)
    (hchecks : form'.checks = form.checks.set i check') (hvalues : form'.values = form.values)
    (hrequestId : form'.slugRequestId = form.slugRequestId) : form'.Live where
  one := by
    have hcount : form'.checks.countP (fun check => !check.cancelled) =
        form.checks.countP (fun check => !check.cancelled) := by
      have hmap : (form.checks.set i check').map (·.cancelled) = form.checks.map (·.cancelled) :=
        map_set_same hi hcancelled
      have hflags (xs : List SlugCheck) : xs.countP (fun check => !check.cancelled) =
          (xs.map (·.cancelled)).countP (!·) := by
        rw [List.countP_map]
        rfl
      rw [hchecks, hflags, hmap, ← hflags]
    rw [hcount]
    exact h.one
  current c hc hlive := by
    rw [hchecks] at hc
    rw [Form.trimmedSlug, hvalues, hrequestId]
    rcases List.mem_or_eq_of_mem_set hc with hold | rfl
    · exact h.current c hold hlive
    · rw [hslug, hid]
      exact h.current check (List.mem_of_getElem? hi) (hcancelled ▸ hlive)

theorem Form.Live.same (h : form.Live) (hchecks : form'.checks = form.checks)
    (hslug : form'.values.tenantSlug = form.values.tenantSlug)
    (hrequestId : form'.slugRequestId = form.slugRequestId) : form'.Live where
  one := hchecks ▸ h.one
  current check hcheck hlive := by
    rw [Form.trimmedSlug, hslug, hrequestId]
    exact h.current check (hchecks ▸ hcheck) hlive

theorem Form.Remembers.same (hchecks : form'.checks = form.checks)
    (hsubmissions : form'.submissions = form.submissions) : form.Remembers form' where
  checks check hcheck _ := ⟨check, hchecks ▸ hcheck, rfl, rfl⟩
  submissions submission hsubmission _ := ⟨submission, hsubmissions ▸ hsubmission, rfl, rfl⟩

/-- What the preflight shows and sends, and its checks. -/
structure Form.Preflight (form : Form) : Prop where
  said : form.Said
  live : form.Live

theorem setFieldValue_preflight (h : form.Preflight) (field : FieldName) (value : String) :
    (form.setFieldValue field value).Preflight := by
  unfold Form.setFieldValue
  generalize hform' : ({ form with
    values := form.values.set value field
    submitState := if form.submitState = .creating then .creating else .idle
    slugAvailability :=
      if field = .tenantSlug ∧ (trim value = "" ∨ isTenantSlugFormatValid (trim value) = false) then
        ⟨.idle, trim value⟩
      else form.slugAvailability } : Form) = form'
  have hsaid : form'.Said := by
    subst hform'
    refine h.said.kept (.same rfl rfl) rfl ?_
    dsimp only
    split
    · exact .inr (.inl rfl)
    · exact .inl rfl
  dsimp only
  split
  · exact ⟨hsaid.kept runSlugEffect_remembers rfl (.inl rfl), runSlugEffect_live⟩
  · rename_i hslug
    subst hform'
    refine ⟨hsaid, h.live.same rfl ?_ rfl⟩
    cases field with
    | tenantSlug =>
      by_contra hne
      exact hslug ⟨rfl, hne⟩
    | _ => rfl

theorem fire_preflight (h : form.Preflight) {i : ℕ} {check : SlugCheck}
    (hi : form.checks[i]? = some check) : (form.fire i check).Preflight := by
  let asked : SlugCheck := { check with asked := true }
  have hkeep (form' : Form) (hchecks : form'.checks = form.checks.set i asked)
      (hsubmissions : form'.submissions = form.submissions) (hvalues : form'.values = form.values)
      (hid : form'.slugRequestId = form.slugRequestId)
      (hshown : form'.slugAvailability.status = .checking) : form'.Preflight := by
    have hr : form.Remembers form' :=
      @Form.Remembers.of_set form form' i check asked hi rfl (fun _ => rfl) hchecks hsubmissions
    exact ⟨h.said.kept hr hsubmissions (.inr (.inr (.inl hshown))),
      @Form.Live.of_set form form' i check asked h.live hi rfl rfl rfl hchecks hvalues hid⟩
  unfold Form.fire
  split
  · exact h
  · exact hkeep _ rfl rfl rfl rfl rfl

theorem slugAnswer_preflight (h : form.Preflight) {i : ℕ} {check : SlugCheck} {reply : SlugReply}
    (hi : form.checks[i]? = some check) (hnone : check.answer = none) :
    (form.slugAnswer i check reply).Preflight := by
  let answered : SlugCheck := { check with answer := some reply }
  have hmem : answered ∈ form.checks.set i answered := List.mem_set (getElem?_lt hi) _
  have hkeep (form' : Form) (hchecks : form'.checks = form.checks.set i answered)
      (hsubmissions : form'.submissions = form.submissions) (hvalues : form'.values = form.values)
      (hid : form'.slugRequestId = form.slugRequestId)
      (hshown : form'.slugAvailability = form.slugAvailability ∨
        Form.SlugReply.display check.slug reply = form'.slugAvailability) : form'.Preflight := by
    have hr : form.Remembers form' := @Form.Remembers.of_set form form' i check answered hi rfl
      (fun hne => absurd hnone hne) hchecks hsubmissions
    have hlive : form'.Live := @Form.Live.of_set form form' i check answered h.live hi rfl rfl rfl
      hchecks hvalues hid
    refine ⟨h.said.kept hr hsubmissions ?_, hlive⟩
    rcases hshown with hsame | hdisplay
    · exact .inl hsame
    · exact .inr (.inr (.inr (.inl ⟨answered, hchecks ▸ hmem, reply, rfl, hdisplay⟩)))
  unfold Form.slugAnswer
  dsimp only
  split
  · exact hkeep _ rfl rfl rfl rfl (.inl rfl)
  · exact hkeep _ rfl rfl rfl rfl (.inr rfl)

theorem submitAnswer_preflight (h : form.Preflight) {k : ℕ} {submission : Submission}
    {reply : SubmitReply} (hk : form.submissions[k]? = some submission)
    (hnone : submission.answer = none) : (form.submitAnswer k submission reply).Preflight := by
  let answered : Submission := { submission with answer := some reply }
  have hmem : answered ∈ form.submissions.set k answered := List.mem_set (getElem?_lt hk) _
  -- Whatever is shown, the answer is kept and the checks are as they were.
  have hkeep (form' : Form) (hchecks : form'.checks = form.checks)
      (hsubmissions : form'.submissions = form.submissions.set k answered)
      (hvalues : form'.values = form.values) (hid : form'.slugRequestId = form.slugRequestId)
      (hshown : form'.slugAvailability = form.slugAvailability ∨
        reply.tells submission.request = some form'.slugAvailability) : form'.Preflight := by
    have hr : form.Remembers form' := by
      refine ⟨fun check hcheck _ => ⟨check, hchecks ▸ hcheck, rfl, rfl⟩, fun old hold hne => ?_⟩
      rw [hsubmissions]
      rcases @mem_set_of_mem _ _ _ _ answered _ hk hold with ⟨rfl, -⟩ | hmem
      · exact absurd hnone hne
      · exact ⟨old, hmem, rfl, rfl⟩
    have hlive : form'.Live := h.live.same hchecks (by rw [hvalues]) hid
    refine ⟨⟨fun hidle hchecking => ?_, fun sub hsub => ?_⟩, hlive⟩
    · rcases hshown with hsame | htells
      · rw [hsame] at hidle hchecking ⊢
        exact hr.told (h.said.shown hidle hchecking)
      · exact .inr ⟨answered, hsubmissions ▸ hmem, reply, rfl, htells⟩
    · rw [hsubmissions] at hsub
      rcases List.mem_or_eq_of_mem_set hsub with hold | rfl
      · exact hr.told (h.said.submitted sub hold)
      · exact hr.told (h.said.submitted submission (List.mem_of_getElem? hk))
  unfold Form.submitAnswer
  dsimp only
  split
  · exact hkeep _ rfl rfl rfl rfl (.inl rfl)
  · cases reply with
    | ok id tenantSlug => exact hkeep _ rfl rfl rfl rfl (.inr rfl)
    | failed => exact hkeep _ rfl rfl rfl rfl (.inl rfl)
    | apiError code existingAttemptId =>
      dsimp only
      split
      · exact hkeep _ rfl rfl rfl rfl (.inl rfl)
      · split
        · rename_i hcode
          exact hkeep _ rfl rfl rfl rfl (.inr (if_pos hcode))
        · exact hkeep _ rfl rfl rfl rfl (.inl rfl)

theorem handleSubmit_preflight (h : form.Preflight) (newKey : Option String) :
    (form.handleSubmit cfg newKey).Preflight := by
  unfold Form.handleSubmit
  split
  · exact h
  rename_i hok
  dsimp only
  split
  · exact ⟨h.said.kept (.same rfl rfl) rfl (.inl rfl), h.live.same rfl rfl rfl⟩
  rename_i ref _
  have hr (form' : Form) (hchecks : form'.checks = form.checks) (submission : Submission)
      (hsubmissions : form'.submissions = form.submissions ++ [submission]) : form.Remembers form' :=
    ⟨fun check hcheck _ => ⟨check, hchecks ▸ hcheck, rfl, rfl⟩, fun old hold _ =>
      ⟨old, hsubmissions ▸ List.mem_append_left _ hold, rfl, rfl⟩⟩
  -- The button is only there while the slug in the field is shown as available.
  have hslug : form.slugAvailability = ⟨.available, form.trimmedSlug⟩ := by
    have havailable : form.slugIsAvailable = true := by
      cases hcase : form.slugIsAvailable with
      | true => rfl
      | false => exact absurd (Or.inr hcase) hok
    obtain ⟨hstatus, -⟩ := Bool.and_eq_true_iff.mp havailable
    have hstatus' : form.activeSlugAvailability.status = .available := of_decide_eq_true hstatus
    unfold Form.activeSlugAvailability at hstatus'
    split at hstatus'
    · rename_i heq
      cases hstate : form.slugAvailability
      rw [hstate] at hstatus' heq
      cases hstatus'
      cases heq
      rfl
    · cases hstatus'
  have htold : form.Told ⟨.available, form.trimmedSlug⟩ := by
    rw [← hslug]
    exact h.said.shown (by rw [hslug]; exact SlugStatus.noConfusion) (by rw [hslug]; exact SlugStatus.noConfusion)
  generalize hform' : ({ form with
    idempotencyKeyRef := some ref
    submitRequestId := form.submitRequestId + 1
    submitState := .creating
    submissions := form.submissions ++ [⟨buildCreateRequest cfg.js form.values, ref.key,
      form.submitRequestId + 1, none⟩] } : Form) = form'
  have hr' : form.Remembers form' := hr form' (by rw [← hform']) _ (by rw [← hform'])
  refine ⟨⟨fun hidle hchecking => ?_, fun submission hsubmission => ?_⟩, h.live.same ?_ ?_ ?_⟩
  · have hsame : form'.slugAvailability = form.slugAvailability := by rw [← hform']
    rw [hsame] at hidle hchecking ⊢
    exact hr'.told (h.said.shown hidle hchecking)
  · have hsubmissions : form'.submissions = form.submissions ++
        [⟨buildCreateRequest cfg.js form.values, ref.key, form.submitRequestId + 1, none⟩] := by
      rw [← hform']
    rw [hsubmissions] at hsubmission
    rcases List.mem_append.mp hsubmission with hold | hnew
    · exact hr'.told (h.said.submitted submission hold)
    · cases List.mem_singleton.mp hnew
      exact hr'.told htold
  · rw [← hform']
  · rw [← hform']
  · rw [← hform']

theorem Form.Preflight.step (h : form.Preflight) (hs : form.step cfg e = some form') :
    form'.Preflight := by
  cases e with
  | change field value =>
    simp only [Form.step] at hs
    split at hs
    · cases hs
      exact setFieldValue_preflight h field value
    · cases hs
  | language =>
    simp only [Form.step] at hs
    split at hs
    · cases hs
      exact ⟨h.said.kept runSlugEffect_remembers rfl (.inl rfl), runSlugEffect_live⟩
    · cases hs
  | fire i =>
    obtain ⟨check, hi, hs⟩ := Option.bind_eq_some_iff.mp hs
    split at hs
    · cases hs
    cases hs
    exact fire_preflight h hi
  | slugAnswer i reply =>
    obtain ⟨check, hi, hs⟩ := Option.bind_eq_some_iff.mp hs
    split at hs
    · rename_i hasked
      cases hs
      exact slugAnswer_preflight h hi hasked.2
    · cases hs
  | submit newKey =>
    simp only [Form.step] at hs
    split at hs
    · obtain rfl := Option.some.inj hs
      exact handleSubmit_preflight h newKey
    · cases hs
  | submitAnswer k reply =>
    obtain ⟨submission, hk, hs⟩ := Option.bind_eq_some_iff.mp hs
    split at hs
    · rename_i hnone
      cases hs
      exact submitAnswer_preflight h hk hnone
    · cases hs
  | unmount =>
    simp only [Form.step] at hs
    split at hs
    · cases hs
      refine ⟨h.said.kept (.of_checks (f := fun check => { check with cancelled := true }) (fun _ => rfl)
        (fun _ => rfl) (List.append_nil _).symm rfl) rfl (.inl rfl), ?_, fun check hcheck hlive => ?_⟩
      · exact (countP_cancelled _).le.trans (Nat.zero_le 1)
      · obtain ⟨old, -, rfl⟩ := List.mem_map.mp hcheck
        cases hlive
    · cases hs

theorem Form.Preflight.start : Form.start.Preflight :=
  ⟨⟨fun h => absurd rfl h, fun _ h => by cases h⟩, Nat.zero_le 1, fun _ h => by cases h⟩

end

/-- However answers, edits and timers fall, the preflight shows of a slug what the server has
told of it, and nothing is sent for a slug that the server has not told to be free. -/
theorem preflight_of_run (cfg : Config) {form : Form}
    (h : Reach (Form.step cfg) (fun _ _ => True) Form.start form) : form.Said ∧ form.Live := by
  have hpreflight : form.Preflight :=
    h.invariant Form.Preflight.start fun _ _ _ _ hp _ hs => hp.step hs
  exact ⟨hpreflight.said, hpreflight.live⟩

/-- The slug is typed in two goes; the first check never asks, the second is answered. -/
def acmeTyped : List FormEvent :=
  [.change .tenantName "Acme", .change .tenantSlug "acm", .change .tenantSlug "acme ",
    .change .firstAdminEmail "root@acme.io", .change .plan "starter", .fire 0, .fire 1,
    .slugAnswer 1 (.ok "acme" true), .submit (some "tenant-onboard:1")]

def plainConfig : Config := ⟨⟨id⟩, ⟨fun _ => [], fun _ => none⟩⟩

theorem preflight_of_run_acme : ∃ form : Form,
    Reach (Form.step plainConfig) (fun _ _ => True) Form.start form ∧
    form.sent = [(⟨"Acme", "acme", "root@acme.io", "starter"⟩, "tenant-onboard:1")] ∧
    form.Said ∧ form.Live := by
  have hrun : (runAll (Form.step plainConfig) Form.start acmeTyped).any (fun form =>
      form.sent = [(⟨"Acme", "acme", "root@acme.io", "starter"⟩, "tenant-onboard:1")]) = true := by
    decide +kernel
  obtain ⟨form, hform, hsent⟩ := (Option.any_eq_true _ _).mp hrun
  have hreach : Reach (Form.step plainConfig) (fun _ _ => True) Form.start form :=
    .of_runAll (.of_labels (fun _ _ _ => trivial) _) hform
  exact ⟨form, hreach, of_decide_eq_true hsent, preflight_of_run plainConfig hreach⟩

end Flexi.Client.OnboardingForm
