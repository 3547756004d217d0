import Flexi.Client.OnboardingForm
import Flexi.Tenants.OnboardingReplays

/-!
# The onboarding form and the server

A submission may reach the server late, more than once or never, and its answer may be lost.
Other users' requests and the worker go on beside it.
-/

namespace Flexi.Client.OnboardingForm
open Flexi.Library Flexi.Tenants
open Flexi.Tenants.Onboarding (ActorIdentity RequestIdentity Request AttemptDto AttemptRow Intake
  IntakeEvent InFlight OnboardingError Stages Answered Refused safePayloadsMatch nonEmpty)

/-! ### On the wire -/

/-- The characters that `generateIdempotencyKey` puts after its prefix. -/
def isRandomChar (c : Char) : Bool := c ∈ "0123456789abcdef-".toList

def Generated (key : String) : Prop :=
  ∃ randomPart : List Char, randomPart.all isRandomChar = true ∧
    key = String.ofList ("tenant-onboard:".toList ++ randomPart)

/-- The controller's reading of a header. -/
def firstHeaderValue (value : Option String) : Option String := value.bind fun v => nonEmpty (trim v)

def CreateRequest.input (request : CreateRequest) : Json :=
  .obj [("tenantName", .str request.tenantName), ("tenantSlug", .str request.tenantSlug),
    ("firstAdminEmail", .str request.firstAdminEmail), ("plan", .str request.plan)]

/-- The request as the service gets it. -/
def toRequest (actor : ActorIdentity) (origin : RequestIdentity) (request : CreateRequest)
    (key : String) : Request where
  input := request.input
  actorIdentity := actor
  requestContext :=
    ⟨origin.requestId, origin.ipAddress, origin.userAgent, firstHeaderValue (some key)⟩

/-- What the exception filter and the client make of the service's result. -/
def replyOf : Except OnboardingError AttemptDto → SubmitReply
  | .ok dto => .ok dto.id (match dto.safePayload.get? "tenantSlug" with
      | some (.str slug) => slug
      | _ => "")
  | .error (.http error _ existingAttemptId) => .apiError error.error existingAttemptId
  | .error _ => .apiError HttpError.unexpected.error none

theorem replyOf_conflict {result : Except OnboardingError AttemptDto} {existing : Option String}
    (h : replyOf result = .apiError "IDEMPOTENCY_CONFLICT" existing) :
    ∃ error fields id, result = .error (.http error fields id) ∧
      error.error = "IDEMPOTENCY_CONFLICT" := by
  cases result with
  | ok dto => cases h
  | error e =>
    cases e with
    | http error fields id => exact ⟨error, fields, id, rfl, (SubmitReply.apiError.inj h).1⟩
    | database v => exact absurd (SubmitReply.apiError.inj h).1 (by decide)
    | other message => exact absurd (SubmitReply.apiError.inj h).1 (by decide)

/-! ### The system -/

structure SystemConfig where
  page : Config
  server : Tenants.Onboarding.Config
  actor : ActorIdentity

/-- `arrivals` are the submissions that have reached the server, with the requests they are
there. -/
structure System where
  form : Form
  intake : Intake
  arrivals : List (ℕ × ℕ)

inductive SystemEvent where
  | page (e : FormEvent)
  | arrive (k : ℕ) (origin : RequestIdentity) (c : Tenants.Onboarding.Context)
  | server (e : IntakeEvent)
  | answer (k i : ℕ)

/-- The page gets an answer of the server's through `answer` only. -/
def FormEvent.local : FormEvent → Bool
  | .submitAnswer _ reply => reply = .failed
  | _ => true

def System.step (cfg : SystemConfig) (s : System) : SystemEvent → Option System
  | .page e =>
    if e.local then (s.form.step cfg.page e).map fun form => { s with form := form } else none
  | .arrive k origin c => s.form.submissions[k]?.bind fun submission =>
    (s.intake.step cfg.server
      (.arrive (toRequest cfg.actor origin submission.request submission.key) c)).map fun intake =>
        { s with intake := intake, arrivals := s.arrivals ++ [(k, s.intake.requests.length)] }
  | .server e => (s.intake.step cfg.server e).map fun intake => { s with intake := intake }
  | .answer k i => if (k, i) ∈ s.arrivals then s.intake.requests[i]?.bind fun f =>
      match f.thread with
      | .finished result => (s.form.step cfg.page (.submitAnswer k (replyOf result))).map fun form =>
        { s with form := form }
      | _ => none
    else none

/-- A generated key is a new one, and nobody else comes by the form's keys. -/
def System.Fresh (s : System) : SystemEvent → Prop
  | .page (.submit (some key)) => Generated key ∧ (∀ a ∈ s.form.sent, a.2 ≠ key) ∧
    (∀ f ∈ s.intake.requests, f.request.key ≠ some key) ∧
      ∀ row ∈ s.intake.db.attempts, row.idempotencyKey ≠ key
  | .server (.arrive r _) => ∀ a ∈ s.form.sent, r.key ≠ some a.2
  | _ => True

/-! ### Keys and payloads -/

theorem Generated.header {key : String} (h : Generated key) : nonEmpty (trim key) = some key := by
  obtain ⟨randomPart, hrandom, rfl⟩ := h
  have hplain (c : Char) (hc : c ∈ "0123456789abcdef-".toList) : isJsSpace c = false := by
    have hall : "0123456789abcdef-".toList.all (fun c => !isJsSpace c) = true := by decide
    simpa using List.all_eq_true.mp hall c hc
  have hprefix (c : Char) (hc : c ∈ "tenant-onboard:".toList) : isJsSpace c = false := by
    have hall : "tenant-onboard:".toList.all (fun c => !isJsSpace c) = true := by decide
    simpa using List.all_eq_true.mp hall c hc
  rw [trim_eq, nonEmpty, if_neg]
  · intro hempty
    have hlist := congrArg String.toList hempty
    rw [String.toList_ofList] at hlist
    cases hlist
  · intro c hc
    rw [String.toList_ofList] at hc
    rcases List.mem_append.mp hc with hc | hc
    · exact hprefix c hc
    · exact hplain c (of_decide_eq_true (List.all_eq_true.mp hrandom c hc))

theorem toRequest_key {actor : ActorIdentity} {origin : RequestIdentity} {request : CreateRequest}
    {key : String} (h : Generated key) : (toRequest actor origin request key).key = some key := by
  have hheader : firstHeaderValue (some key) = some key := h.header
  rw [Request.key, Tenants.Onboarding.normalizeIdempotencyIdentity, toRequest]
  dsimp only
  rw [hheader, Option.bind_some, h.header]
  rfl

def CreateRequest.payload (cfg : SystemConfig) (request : CreateRequest) : SafePayload :=
  normalizePayload cfg.server.js request.input

theorem payload_match (cfg : SystemConfig) (request : CreateRequest) :
    safePayloadsMatch (request.payload cfg).toJson (request.payload cfg) = true :=
  Tenants.Onboarding.safePayloadsMatch_toJson rfl

/-! ### The server's side of a step -/

section
variable {cfg : Tenants.Onboarding.Config} {s s' : Intake} {e : IntakeEvent}

theorem request_stays (hs : s.Moves cfg s') {i : ℕ} {f : InFlight} (hf : s.requests[i]? = some f) :
    ∃ f', s'.requests[i]? = some f' ∧ f'.request = f.request := by
  have hput {j : ℕ} {g : InFlight} {thread : Tenants.Onboarding.RequestThread}
      (hg : s.requests[j]? = some g) :
      ∃ f', (s.requests.set j ⟨g.request, thread⟩)[i]? = some f' ∧ f'.request = f.request := by
    by_cases hij : j = i
    · subst hij
      cases Option.some.inj (hf.symm.trans hg)
      exact ⟨_, List.getElem?_set_self (getElem?_lt hf), rfl⟩
    · exact ⟨f, by rw [List.getElem?_set_ne hij, hf], rfl⟩
  cases hs with
  | other db clock _ _ => exact ⟨f, hf, rfl⟩
  | arrive r c => exact ⟨f, getElem?_kept hf _, rfl⟩
  | execute j g outside thread db hg hx => exact hput hg
  | deliver j g c thread hg hx => exact hput hg

theorem request_was (hs : s.step cfg e = some s') {f' : InFlight} (hf' : f' ∈ s'.requests) :
    (∃ f ∈ s.requests, f.request = f'.request) ∨ ∃ c, e = .arrive f'.request c := by
  have hset {i : ℕ} {f : InFlight} {thread : Tenants.Onboarding.RequestThread}
      (hf : s.requests[i]? = some f) (hmem : f' ∈ s.requests.set i ⟨f.request, thread⟩) :
      ∃ f ∈ s.requests, f.request = f'.request := by
    rcases List.mem_or_eq_of_mem_set hmem with hold | rfl
    · exact ⟨f', hold, rfl⟩
    · exact ⟨f, List.mem_of_getElem? hf, rfl⟩
  cases e with
  | arrive r c =>
    cases hs
    rcases List.mem_append.mp hf' with hold | hnew
    · exact .inl ⟨f', hold, rfl⟩
    · cases List.mem_singleton.mp hnew
      exact .inr ⟨c, rfl⟩
  | execute i outside =>
    obtain ⟨f, hf, hs⟩ := Option.bind_eq_some_iff.mp hs
    obtain ⟨⟨thread, db⟩, -, rfl⟩ := Option.map_eq_some_iff.mp hs
    exact .inl (hset hf hf')
  | deliver i c =>
    obtain ⟨f, hf, hs⟩ := Option.bind_eq_some_iff.mp hs
    obtain ⟨thread, -, rfl⟩ := Option.map_eq_some_iff.mp hs
    exact .inl (hset hf hf')
  | progress attemptId status stepOutcomes =>
    simp only [Intake.step] at hs
    split at hs
    · cases hs
      exact .inl ⟨f', hf', rfl⟩
    · cases hs
  | _ =>
    cases hs
    exact .inl ⟨f', hf', rfl⟩

end

/-! ### The invariant -/

section
variable {cfg : SystemConfig} {intake₀ : Intake} {s s' : System}

/-- The requests and the attempts under a key of the form's are for what was sent with it; the
page shows no conflict and leaves only for an attempt that it has asked for. -/
structure System.Inv (cfg : SystemConfig) (intake₀ : Intake) (s : System) : Prop where
  run : Reach (Intake.step cfg.server) (fun _ _ => True) intake₀ s.intake
  keys : s.form.Keys cfg.page
  generated : ∀ a ∈ s.form.sent, Generated a.2
  requests : ∀ f ∈ s.intake.requests, ∀ a ∈ s.form.sent, f.request.key = some a.2 →
    f.request.payload cfg.server = a.1.payload cfg
  rows : ∀ row ∈ s.intake.db.attempts, ∀ a ∈ s.form.sent, row.idempotencyKey = a.2 →
    row.safePayload = (a.1.payload cfg).toJson
  arrived : ∀ k i, (k, i) ∈ s.arrivals → ∃ a f, s.form.sent[k]? = some a ∧
    s.intake.requests[i]? = some f ∧ f.request.key = some a.2
  noConflict : ∀ id, s.form.submitState ≠ .conflict id
  navigated : ∀ id, s.form.navigated = some id → ∃ a ∈ s.form.sent, ∃ dto : AttemptDto,
    dto.id = id ∧ Answered (some a.2) (a.1.payload cfg) dto s.intake.db

namespace System.Inv

theorem intake (h : s.Inv cfg intake₀) (hidle : intake₀.requests = []) (hsound : intake₀.db.Sound)
    {e : IntakeEvent} {intake : Intake} {arrivals : List (ℕ × ℕ)}
    (hs : s.intake.step cfg.server e = some intake)
    (hrequests : ∀ r c, e = .arrive r c → ∀ a ∈ s.form.sent, r.key = some a.2 →
      r.payload cfg.server = a.1.payload cfg)
    (harrived : ∀ k i, (k, i) ∈ arrivals → (k, i) ∈ s.arrivals ∨ ∃ a f, s.form.sent[k]? = some a ∧
      intake.requests[i]? = some f ∧ f.request.key = some a.2) :
    System.Inv cfg intake₀ ⟨s.form, intake, arrivals⟩ := by
  have hmoves := Intake.step_moves hs
  have hg := Tenants.Onboarding.grows_of_moves hidle hsound h.run hmoves
  obtain ⟨q, hq⟩ := Tenants.Onboarding.stages_of_reach hidle hsound h.run
  refine ⟨h.run.next trivial hs, h.keys, h.generated, ?_, ?_, ?_, h.noConflict, ?_⟩
  · intro f' hf' a ha hkey
    rcases request_was hs hf' with ⟨f, hf, hr⟩ | ⟨c, he⟩
    · rw [← hr] at hkey ⊢
      exact h.requests f hf a ha hkey
    · exact hrequests _ c he a ha hkey
  · intro row hrow a ha hkey
    rcases hq.rows hmoves hrow with ⟨old, hold, hkey', hpayload⟩ | ⟨i, f, hf, hkey', hpayload⟩
    · rw [← hpayload]
      exact h.rows old hold a ha (hkey'.trans hkey)
    · rw [hpayload, h.requests f (List.mem_of_getElem? hf) a ha (hkey'.symm.trans (congrArg some hkey))]
  · intro k i hki
    rcases harrived k i hki with hold | hnew
    · obtain ⟨a, f, ha, hf, hkey⟩ := h.arrived k i hold
      obtain ⟨f', hf', hr⟩ := request_stays hmoves hf
      exact ⟨a, f', ha, hf', hr ▸ hkey⟩
    · exact hnew
  · intro id hid
    obtain ⟨a, ha, dto, hdto, hanswered⟩ := h.navigated id hid
    exact ⟨a, ha, dto, hdto, Tenants.Onboarding.answered_stable _ _ hanswered hg⟩

/-- The form goes on: what it sends is known or has a key of its own, and what it shows is an
answer of the server's. -/
theorem form (h : s.Inv cfg intake₀) {e : FormEvent} {form : Form}
    (hs : s.form.step cfg.page e = some form)
    (hfresh : ∀ newKey, e = .submit (some newKey) → s.Fresh (.page e))
    (hconflict : ∀ k existing, e ≠ .submitAnswer k (.apiError "IDEMPOTENCY_CONFLICT" existing))
    (hok : ∀ k id slug, e = .submitAnswer k (.ok id slug) → ∃ a ∈ s.form.sent, ∃ dto : AttemptDto,
      dto.id = id ∧ Answered (some a.2) (a.1.payload cfg) dto s.intake.db) :
    System.Inv cfg intake₀ ⟨form, s.intake, s.arrivals⟩ := by
  have houtcome := step_outcome hs
  have hkeys : form.Keys cfg.page := by
    refine h.keys.step hs fun newKey he a ha => ?_
    subst he
    exact (hfresh newKey rfl).2.1 a ha
  have hsent : (∃ more, form.sent = s.form.sent ++ more) ∧ ∀ a ∈ form.sent, a ∈ s.form.sent ∨
      Generated a.2 ∧ (∀ f ∈ s.intake.requests, f.request.key ≠ some a.2) ∧
        ∀ row ∈ s.intake.db.attempts, row.idempotencyKey ≠ a.2 := by
    rcases step_sent hs with ⟨hsame, -⟩ | ⟨newKey, ref, rfl, hsubmits⟩
    · exact ⟨⟨[], by rw [hsame, List.append_nil]⟩, fun a ha => .inl (hsame ▸ ha)⟩
    · refine ⟨⟨_, hsubmits.sent⟩, fun a ha => ?_⟩
      rw [hsubmits.sent] at ha
      rcases List.mem_append.mp ha with hold | hnew
      · exact .inl hold
      · cases List.mem_singleton.mp hnew
        rcases hsubmits.last h.keys with hlast | ⟨rfl, -⟩
        · exact .inl (List.mem_of_getLast? hlast)
        · obtain ⟨hgenerated, -, hrequests, hrows⟩ := hfresh ref.key rfl
          exact .inr ⟨hgenerated, hrequests, hrows⟩
  obtain ⟨⟨more, hmore⟩, hmem⟩ := hsent
  refine ⟨h.run, hkeys, ?_, ?_, ?_, ?_, ?_, ?_⟩
  · intro a ha
    rcases hmem a ha with hold | ⟨hgenerated, -⟩
    · exact h.generated a hold
    · exact hgenerated
  · intro f hf a ha hkey
    rcases hmem a ha with hold | ⟨-, hrequests, -⟩
    · exact h.requests f hf a hold hkey
    · exact absurd hkey (hrequests f hf)
  · intro row hrow a ha hkey
    rcases hmem a ha with hold | ⟨-, -, hrows⟩
    · exact h.rows row hrow a hold hkey
    · exact absurd hkey (hrows row hrow)
  · intro k i hki
    obtain ⟨a, f, ha, hf, hkey⟩ := h.arrived k i hki
    refine ⟨a, f, ?_, hf, hkey⟩
    change form.sent[k]? = some a
    rw [hmore, List.getElem?_append_left (getElem?_lt ha), ha]
  · intro id hid
    rcases houtcome.conflict id hid with hold | ⟨k, existing, he⟩
    · exact h.noConflict id hold
    · exact hconflict k existing he
  · intro id hid
    have hgrow {a : CreateRequest × String} (ha : a ∈ s.form.sent) : a ∈ form.sent := by
      rw [hmore]
      exact List.mem_append_left _ ha
    rcases houtcome.navigated id hid with hold | ⟨k, slug, he⟩
    · obtain ⟨a, ha, hrest⟩ := h.navigated id hold
      exact ⟨a, hgrow ha, hrest⟩
    · obtain ⟨a, ha, hrest⟩ := hok k id slug he
      exact ⟨a, hgrow ha, hrest⟩

/-- A request of the form's that is done has been answered with an attempt for what was sent,
or has failed for another reason than its key. -/
theorem settled (h : s.Inv cfg intake₀) (hidle : intake₀.requests = []) (hsound : intake₀.db.Sound)
    {k i : ℕ} (hki : (k, i) ∈ s.arrivals) {f : InFlight} (hf : s.intake.requests[i]? = some f) :
    ∃ a ∈ s.form.sent, s.form.sent[k]? = some a ∧ f.request.key = some a.2 ∧
      (∀ dto, f.thread = .finished (.ok dto) →
        Answered (some a.2) (a.1.payload cfg) dto s.intake.db) ∧
      ∀ e, f.thread = .finished (.error e) → Tenants.Onboarding.Nameless e := by
  have hsettled := Tenants.Onboarding.settled_of_reach hidle hsound h.run hf
  obtain ⟨a, f', ha, hf', hkey⟩ := h.arrived k i hki
  cases Option.some.inj (hf.symm.trans hf')
  have hmem := List.mem_of_getElem? ha
  have hpayload := h.requests f (List.mem_of_getElem? hf) a hmem hkey
  refine ⟨a, hmem, ha, hkey, fun dto hdto => ?_, fun e he error fields id heq => ?_⟩
  · rw [← hkey, ← hpayload]
    exact hsettled.1 dto hdto
  · by_contra hnamed
    have hnamed' : id ≠ none ∨ error.error = "IDEMPOTENCY_CONFLICT" := by
      by_contra hnot
      obtain ⟨hid, hcode⟩ := not_or.mp hnot
      exact hnamed ⟨not_not.mp hid, hcode⟩
    obtain ⟨row, hrow, hrowkey, -, hmatch⟩ := hsettled.2 e he error fields id heq hnamed'
    have hrowkey' : row.idempotencyKey = a.2 := Option.some.inj (hrowkey.trans hkey)
    rw [h.rows row hrow a hmem hrowkey', hpayload, payload_match] at hmatch
    cases hmatch

theorem step (h : s.Inv cfg intake₀) (hidle : intake₀.requests = []) (hsound : intake₀.db.Sound)
    {e : SystemEvent} (hok : s.Fresh e) (hs : s.step cfg e = some s') : s'.Inv cfg intake₀ := by
  cases e with
  | page e =>
    simp only [System.step] at hs
    split at hs
    · rename_i hlocal
      obtain ⟨form, hform, rfl⟩ := Option.map_eq_some_iff.mp hs
      refine h.form hform (fun newKey he => he ▸ hok) ?_ ?_
      · rintro k existing rfl
        cases hlocal
      · rintro k id slug rfl
        cases hlocal
    · cases hs
  | arrive k origin c =>
    obtain ⟨submission, hk, hs⟩ := Option.bind_eq_some_iff.mp hs
    obtain ⟨intake, hintake, rfl⟩ := Option.map_eq_some_iff.mp hs
    have hsent : s.form.sent[k]? = some (submission.request, submission.key) := by
      rw [Form.sent, List.getElem?_map, hk]
      rfl
    have hmem := List.mem_of_getElem? hsent
    have hkey := @toRequest_key cfg.actor origin submission.request _ (h.generated _ hmem)
    refine h.intake hidle hsound hintake ?_ ?_
    · rintro r c' he a ha hr
      cases he
      have hsame := h.keys.same _ hmem a ha (Option.some.inj (hkey.symm.trans hr))
      rw [← hsame]
      rfl
    · intro k' i hki
      rcases List.mem_append.mp hki with hold | hnew
      · exact .inl hold
      · cases List.mem_singleton.mp hnew
        cases hintake
        exact .inr ⟨_, _, hsent, List.getElem?_concat_length, hkey⟩
  | server e =>
    obtain ⟨intake, hintake, rfl⟩ := Option.map_eq_some_iff.mp hs
    refine h.intake hidle hsound hintake ?_ fun k i hki => .inl hki
    rintro r c rfl a ha hr
    exact absurd hr (hok a ha)
  | answer k i =>
    simp only [System.step] at hs
    split at hs
    · rename_i hki
      obtain ⟨f, hf, hs⟩ := Option.bind_eq_some_iff.mp hs
      split at hs
      · rename_i result hresult
        obtain ⟨form, hform, rfl⟩ := Option.map_eq_some_iff.mp hs
        obtain ⟨a, ha, -, -, hanswered, hfailed⟩ := h.settled hidle hsound hki hf
        refine h.form hform (fun newKey he => by cases he) ?_ ?_
        · intro k' existing he
          obtain ⟨error, fields, id, rfl, hcode⟩ := replyOf_conflict (FormEvent.submitAnswer.inj he).2
          exact (hfailed _ hresult error fields id rfl).2 hcode
        · intro k' id slug he
          cases result with
          | ok dto =>
            cases he
            exact ⟨a, ha, dto, rfl, hanswered dto hresult⟩
          | error e => cases e <;> cases he
      · cases hs
    · cases hs

end System.Inv

/-- The form as it is mounted, beside a server that has no requests in flight. -/
def System.start (intake₀ : Intake) : System := ⟨Form.start, intake₀, []⟩

theorem System.inv_of_reach (hidle : intake₀.requests = []) (hsound : intake₀.db.Sound)
    (h : Reach (System.step cfg) System.Fresh (System.start intake₀) s) : s.Inv cfg intake₀ := by
  refine h.invariant (I := fun s => s.Inv cfg intake₀) ?_ fun s s' e _ hinv hok hs =>
    hinv.step hidle hsound hok hs
  refine ⟨.init, .start cfg.page, ?_, ?_, ?_, ?_, ?_, ?_⟩
  · exact fun a ha => by cases ha
  · exact fun f hf a ha => by cases ha
  · exact fun row hrow a ha => by cases ha
  · exact fun k i hki => by cases hki
  · exact fun id hid => by cases hid
  · exact fun id hid => by cases hid

theorem Form.Keys.repeated {form : Form} (h : form.Keys cfg.page) {request : CreateRequest} {k k' : ℕ}
    (hle : k ≤ k')
    (hsame : ∀ j, k ≤ j → j ≤ k' → (form.sent[j]?).map Prod.fst = some request) :
    (form.sent[k']?).map Prod.snd = (form.sent[k]?).map Prod.snd := by
  induction k', hle using Nat.le_induction with
  | base => rfl
  | succ m hm ih =>
    rw [← ih fun j hj hjm => hsame j hj (hjm.trans (Nat.le_succ m))]
    obtain ⟨a, ha, hrequest⟩ := Option.map_eq_some_iff.mp (hsame m hm (Nat.le_succ m))
    obtain ⟨b, hb, hrequest'⟩ :=
      Option.map_eq_some_iff.mp (hsame (m + 1) (hm.trans (Nat.le_succ m)) le_rfl)
    rw [ha, hb, Option.map_some, Option.map_some,
      h.next m a b ha hb (hrequest.trans hrequest'.symm)]

end

theorem System.one_attempt_for_each_submission (cfg : SystemConfig) {intake₀ : Intake} {s : System}
    (hidle : intake₀.requests = []) (hsound : intake₀.db.Sound)
    (h : Reach (System.step cfg) System.Fresh (System.start intake₀) s) :
    (∀ id, s.form.submitState ≠ .conflict id) ∧
    (∀ id, s.form.navigated = some id → ∃ a ∈ s.form.sent, ∃ dto : AttemptDto, dto.id = id ∧
      Answered (some a.2) (a.1.payload cfg) dto s.intake.db) ∧
    (∀ (k i : ℕ) (f : InFlight) (e : OnboardingError), (k, i) ∈ s.arrivals →
      s.intake.requests[i]? = some f → f.thread = .finished (.error e) →
        Tenants.Onboarding.Nameless e) ∧
    ∀ (request : CreateRequest) (k k' i i' : ℕ) (f g : InFlight) (dto dto' : AttemptDto), k ≤ k' →
      (∀ j, k ≤ j → j ≤ k' → (s.form.sent[j]?).map Prod.fst = some request) →
      (k, i) ∈ s.arrivals → (k', i') ∈ s.arrivals → s.intake.requests[i]? = some f →
      s.intake.requests[i']? = some g → f.thread = .finished (.ok dto) →
      g.thread = .finished (.ok dto') →
      dto.id = dto'.id ∧ (dto.replayed = false → dto'.replayed = false → i = i') := by
  have hinv := System.inv_of_reach hidle hsound h
  refine ⟨hinv.noConflict, hinv.navigated, ?_, ?_⟩
  · intro k i f e hki hf he
    obtain ⟨-, -, -, -, -, hfailed⟩ := hinv.settled hidle hsound hki hf
    exact hfailed e he
  · intro request k k' i i' f g dto dto' hle hsame hki hki' hf hg hdto hdto'
    obtain ⟨a, -, ha, hkey, -⟩ := hinv.settled hidle hsound hki hf
    obtain ⟨b, -, hb, hkey', -⟩ := hinv.settled hidle hsound hki' hg
    have hkeys := hinv.keys.repeated hle hsame
    rw [ha, hb] at hkeys
    have heq : f.request.key = g.request.key := by
      rw [hkey, hkey']
      exact hkeys.symm
    exact Tenants.Onboarding.answers_of_key hidle hsound hinv.run hf hg hdto hdto' heq

/-- The only key is generated before anything is sent, and nobody else is there. -/
def alone (s : System) : SystemEvent → Bool
  | .page (.submit (some key)) => key = "tenant-onboard:1" && s.form.sent.isEmpty &&
    s.intake.requests.isEmpty && s.intake.db.attempts.isEmpty
  | .server (.arrive _ _) => false
  | _ => true

theorem alone_fresh (s : System) (e : SystemEvent) (h : alone s e = true) : s.Fresh e := by
  unfold alone at h
  split at h
  · rename_i key
    obtain ⟨h, hattempts⟩ := Bool.and_eq_true_iff.mp h
    obtain ⟨h, hrequests⟩ := Bool.and_eq_true_iff.mp h
    obtain ⟨hkey, hsent⟩ := Bool.and_eq_true_iff.mp h
    have hkey' : key = "tenant-onboard:1" := of_decide_eq_true hkey
    refine ⟨⟨['1'], rfl, hkey'⟩, fun a ha => ?_, fun f hf => ?_, fun row hrow => ?_⟩
    · rw [List.isEmpty_iff.mp hsent] at ha
      cases ha
    · rw [List.isEmpty_iff.mp hrequests] at hf
      cases hf
    · rw [List.isEmpty_iff.mp hattempts] at hrow
      cases hrow
  · cases h
  · rename_i hsubmit harrive
    unfold System.Fresh
    split
    · exact absurd rfl (hsubmit _)
    · exact absurd rfl (harrive _ _)
    · trivial

def plainSystem : SystemConfig where
  page := plainConfig
  server := Tenants.Onboarding.plainConfig
  actor := ⟨"account", "user", "ops@flexi.io", "Ops", [], []⟩

/-- The answer to the first submission is lost, and the second is sent as the first was. -/
def acmeTwice : List SystemEvent :=
  acmeTyped.map .page ++ [.arrive 0 ⟨none, none, none⟩ ⟨"", 0⟩] ++
    (Tenants.Onboarding.calls 0 6 "first").map .server ++
    [.page (.submitAnswer 0 .failed), .page (.submit none), .arrive 1 ⟨none, none, none⟩ ⟨"", 0⟩] ++
    (Tenants.Onboarding.calls 1 4 "second").map .server ++ [.answer 1 1]

theorem System.one_attempt_for_each_submission_acme : ∃ s : System,
    Reach (System.step plainSystem) System.Fresh (System.start Tenants.Onboarding.oneUser) s ∧
    s.arrivals = [(0, 0), (1, 1)] ∧ s.form.navigated = some "first" ∧
    ∃ a ∈ s.form.sent, ∃ dto : AttemptDto, dto.id = "first" ∧
      Answered (some a.2) (a.1.payload plainSystem) dto s.intake.db := by
  have hrun : (runChecked (System.step plainSystem) alone (System.start Tenants.Onboarding.oneUser)
      acmeTwice).any (fun s => s.arrivals = [(0, 0), (1, 1)] && s.form.navigated = some "first") = true := by
    decide +kernel
  obtain ⟨s, hs, h⟩ := (Option.any_eq_true _ _).mp hrun
  obtain ⟨harrivals, hnavigated⟩ := Bool.and_eq_true_iff.mp h
  have hreach := Reach.of_runChecked alone_fresh hs
  obtain ⟨-, hleft, -⟩ := System.one_attempt_for_each_submission plainSystem rfl
    Tenants.Onboarding.oneUser_sound hreach
  exact ⟨s, hreach, of_decide_eq_true harrivals, of_decide_eq_true hnavigated,
    hleft "first" (of_decide_eq_true hnavigated)⟩

end Flexi.Client.OnboardingForm
