import Flexi.Library.KeyedLog
import Flexi.Tenants.ProvisioningCalls

/-!
# Step outcomes in the column (provisioning.service.ts)

The statements that write `stepOutcomes` and `status` of one attempt, on the JSON that the
column holds. Attempt rows are never deleted, so each of them finds its row.
-/

namespace Flexi.Tenants.StepLog
open Flexi.Library

/-! ### Outcomes as JSON -/

/-- `typeof value[key] === 'string'`, with the value. -/
def stringAt (value : Json) (key : String) : Option String :=
  match value.get? key with
  | some (.str s) => some s
  | _ => none

/-- The test of `normalizeStepOutcomes`. -/
def isStepOutcome (item : Json) : Bool :=
  (stringAt item "step").isSome && (stringAt item "status").isSome &&
    (stringAt item "occurredAt").isSome

/-- `TenantOnboardingStepOutcomeDto`, with whatever else the object has. -/
abbrev StepOutcomeDto := { item : Json // isStepOutcome item = true }

def StepOutcomeDto.step (outcome : StepOutcomeDto) : String := (stringAt outcome.val "step").getD ""

def normalizeStepOutcomes (current : Json) : List StepOutcomeDto :=
  match current with
  | .arr items => items.filterMap fun item =>
      if h : isStepOutcome item = true then some ⟨item, h⟩ else none
  | _ => []

/-- `JSON.stringify(stepOutcomes)` as the column holds it. -/
def column (stepOutcomes : List StepOutcomeDto) : Json := .arr (stepOutcomes.map Subtype.val)

def upsertStepOutcome (current : Json) (outcome : StepOutcomeDto) : List StepOutcomeDto :=
  let outcomes := normalizeStepOutcomes current
  match outcomes.findIdx? fun item => item.step == outcome.step with
  | none => outcomes ++ [outcome]
  | some existingIndex => outcomes.mapIdx fun index item =>
      if index = existingIndex then outcome else item

/-! ### The row and its writes -/

def ATTEMPT_STATUS_ACCEPTED : String := "accepted"
def ATTEMPT_STATUS_PROVISIONING : String := "provisioning"
def ATTEMPT_STATUS_FAILED : String := "failed"
def ATTEMPT_STATUS_SUCCEEDED : String := "succeeded"
def ATTEMPT_STATUS_FAILED_MANUAL_CLEANUP : String := "failed-needs-manual-cleanup"

def isTerminal (value : String) : Bool :=
  value == ATTEMPT_STATUS_FAILED || value == ATTEMPT_STATUS_SUCCEEDED ||
    value == ATTEMPT_STATUS_FAILED_MANUAL_CLEANUP

structure AttemptRow where
  status : String
  provisioningJobId : Option String
  safePayload : Json
  stepOutcomes : Json

/-- What `throwIfProvisioningCancelled` reads the three times it is called. -/
structure SignalReads where
  before : Bool
  locked : Bool
  merged : Bool

def SignalReads.cancelled (signal : SignalReads) : Bool :=
  signal.before || signal.locked || signal.merged

/-- `none` is a write that the terminal status stops; a cancelled one is rolled back. -/
def updateAttemptSteps (attempt : AttemptRow) (status : String) (outcomes : List StepOutcomeDto)
    (signal : SignalReads) : Except ProvisioningError (Option AttemptRow) :=
  if signal.before || signal.locked then .error .cancelled
  else if isTerminal attempt.status && !isTerminal status then .ok none
  else
    let stepOutcomes := outcomes.foldl
      (fun current outcome => upsertStepOutcome (column current) outcome)
      (normalizeStepOutcomes attempt.stepOutcomes)
    if signal.merged then .error .cancelled
    else .ok (some { attempt with status := status, stepOutcomes := column stepOutcomes })

/-- The outcome that a claim records. -/
def runningOutcome (occurredAt : String) : StepOutcomeDto :=
  ⟨.obj [("step", .str "provisioning_start"), ("status", .str "running"),
    ("occurredAt", .str occurredAt)], rfl⟩

def claimAttempt (attempt : AttemptRow) (jobId occurredAt : String) : Option AttemptRow :=
  if attempt.status = ATTEMPT_STATUS_ACCEPTED then
    some { attempt with
      status := ATTEMPT_STATUS_PROVISIONING
      provisioningJobId := some (attempt.provisioningJobId.getD jobId)
      stepOutcomes := column (upsertStepOutcome attempt.stepOutcomes (runningOutcome occurredAt)) }
  else none

def resetAttemptStatusToProvisioning (attempt : AttemptRow) : Option AttemptRow :=
  if attempt.status = ATTEMPT_STATUS_FAILED then
    some { attempt with status := ATTEMPT_STATUS_PROVISIONING }
  else none

/-! ### Sequences of writes -/

inductive Write where
  | updateAttemptSteps (status : String) (outcomes : List StepOutcomeDto) (signal : SignalReads)
  | claimAttempt (jobId occurredAt : String)
  | resetAttemptStatusToProvisioning

/-- The row that a write leaves, when it writes. -/
def Write.written (attempt : AttemptRow) : Write → Option AttemptRow
  | .updateAttemptSteps status outcomes signal =>
    (StepLog.updateAttemptSteps attempt status outcomes signal).toOption.join
  | .claimAttempt jobId occurredAt => StepLog.claimAttempt attempt jobId occurredAt
  | .resetAttemptStatusToProvisioning => StepLog.resetAttemptStatusToProvisioning attempt

def Write.outcomes : Write → List StepOutcomeDto
  | .updateAttemptSteps _ outcomes _ => outcomes
  | .claimAttempt _ occurredAt => [runningOutcome occurredAt]
  | .resetAttemptStatusToProvisioning => []

def Write.apply (attempt : AttemptRow) (w : Write) : AttemptRow := (w.written attempt).getD attempt

/-- Neither cancelled nor stopped by the row's status. -/
def Write.takesPlace (attempt : AttemptRow) : Write → Bool
  | .updateAttemptSteps status _ signal =>
    !signal.cancelled && !(isTerminal attempt.status && !isTerminal status)
  | .claimAttempt _ _ => attempt.status == ATTEMPT_STATUS_ACCEPTED
  | .resetAttemptStatusToProvisioning => attempt.status == ATTEMPT_STATUS_FAILED

def Write.accepted (attempt : AttemptRow) (w : Write) : List StepOutcomeDto :=
  if w.takesPlace attempt then w.outcomes else []

def runWrites (attempt : AttemptRow) (writes : List Write) : AttemptRow :=
  writes.foldl Write.apply attempt

/-- The outcomes accepted along a run, in their order. -/
def acceptedOutcomes (attempt : AttemptRow) : List Write → List StepOutcomeDto
  | [] => []
  | w :: writes => w.accepted attempt ++ acceptedOutcomes (w.apply attempt) writes

/-! ### The merge -/

@[simp] theorem normalizeStepOutcomes_column (outcomes : List StepOutcomeDto) :
    normalizeStepOutcomes (column outcomes) = outcomes := by
  induction outcomes with
  | nil => rfl
  | cons outcome outcomes ih =>
    have htail : (outcomes.map Subtype.val).filterMap (fun item =>
        if h : isStepOutcome item = true then some (⟨item, h⟩ : StepOutcomeDto) else none) =
          outcomes := ih
    rw [column, normalizeStepOutcomes, List.map_cons, List.filterMap_cons, dif_pos outcome.property]
    exact congrArg (List.cons outcome) htail

/-- The search by name and the rewrite by index are an entry into the log. -/
theorem upsertStepOutcome_eq (current : Json) (outcome : StepOutcomeDto) :
    upsertStepOutcome current outcome =
      enter StepOutcomeDto.step (normalizeStepOutcomes current) outcome := by
  unfold upsertStepOutcome
  generalize normalizeStepOutcomes current = outcomes
  induction outcomes with
  | nil => rfl
  | cons item outcomes ih =>
    by_cases hstep : item.step = outcome.step
    · have hrest : outcomes.mapIdx (fun _ item => item) = outcomes :=
        List.ext_getElem (by simp) (by simp)
      simp [List.findIdx?_cons, enter, hstep, List.mapIdx_cons, hrest]
    · rw [enter, if_neg hstep, ← ih]
      simp only [List.findIdx?_cons, beq_eq_false_iff_ne.mpr hstep]
      cases outcomes.findIdx? fun item => item.step == outcome.step with
      | none => rfl
      | some i => simp [List.mapIdx_cons]

theorem foldl_upsertStepOutcome (outcomes current : List StepOutcomeDto) :
    outcomes.foldl (fun current outcome => upsertStepOutcome (column current) outcome) current =
      outcomes.foldl (enter StepOutcomeDto.step) current := by
  simp only [upsertStepOutcome_eq, normalizeStepOutcomes_column]

/-! ### Every history of writes -/

section History

variable {attempt after : AttemptRow} {w : Write}

theorem entries_written (h : w.written attempt = some after) :
    normalizeStepOutcomes after.stepOutcomes =
      w.outcomes.foldl (enter StepOutcomeDto.step) (normalizeStepOutcomes attempt.stepOutcomes) := by
  cases w with
  | updateAttemptSteps status outcomes signal =>
    simp only [Write.written, updateAttemptSteps, foldl_upsertStepOutcome] at h
    split_ifs at h with hbefore hterminal hmerged
    · cases h
    · cases h
    · cases h
    · cases h
      rw [normalizeStepOutcomes_column]
      rfl
  | claimAttempt jobId occurredAt =>
    simp only [Write.written, claimAttempt, upsertStepOutcome_eq] at h
    split_ifs at h with haccepted
    cases h
    rw [normalizeStepOutcomes_column]
    rfl
  | resetAttemptStatusToProvisioning =>
    simp only [Write.written, resetAttemptStatusToProvisioning] at h
    split_ifs at h with hfailed
    cases h
    rfl

theorem column_written (h : w.written attempt = some after) :
    after.stepOutcomes = attempt.stepOutcomes ∨
      after.stepOutcomes = column (normalizeStepOutcomes after.stepOutcomes) := by
  cases w with
  | updateAttemptSteps status outcomes signal =>
    simp only [Write.written, updateAttemptSteps] at h
    split_ifs at h with hbefore hterminal hmerged
    · cases h
    · cases h
    · cases h
    · cases h
      exact .inr (by rw [normalizeStepOutcomes_column])
  | claimAttempt jobId occurredAt =>
    simp only [Write.written, claimAttempt] at h
    split_ifs at h with haccepted
    cases h
    exact .inr (by rw [normalizeStepOutcomes_column])
  | resetAttemptStatusToProvisioning =>
    simp only [Write.written, resetAttemptStatusToProvisioning] at h
    split_ifs at h with hfailed
    cases h
    exact .inl rfl

/-- Only the reset takes a terminal status back, and only `failed`. -/
theorem status_written (h : w.written attempt = some after)
    (hterminal : isTerminal attempt.status = true) (hleft : isTerminal after.status = false) :
    w = .resetAttemptStatusToProvisioning ∧ attempt.status = ATTEMPT_STATUS_FAILED := by
  cases w with
  | updateAttemptSteps status outcomes signal =>
    simp only [Write.written, updateAttemptSteps] at h
    split_ifs at h with hbefore hguard hmerged
    · cases h
    · cases h
    · cases h
    · cases h
      exact absurd (by simp [hterminal, hleft]) hguard
  | claimAttempt jobId occurredAt =>
    simp only [Write.written, claimAttempt] at h
    split_ifs at h with haccepted
    rw [haccepted] at hterminal
    exact absurd hterminal (by decide)
  | resetAttemptStatusToProvisioning =>
    simp only [Write.written, resetAttemptStatusToProvisioning] at h
    split_ifs at h with hfailed
    exact ⟨rfl, hfailed⟩

theorem written_isSome (attempt : AttemptRow) (w : Write) :
    (w.written attempt).isSome = w.takesPlace attempt := by
  cases w with
  | updateAttemptSteps status outcomes signal =>
    simp only [Write.written, updateAttemptSteps, Write.takesPlace, SignalReads.cancelled]
    split_ifs with hbefore hguard hmerged
    · simp [hbefore, Except.toOption]
    · simp [hguard, Except.toOption]
    · simp [hmerged, Except.toOption]
    · simp [hbefore, hguard, hmerged, Except.toOption]
  | claimAttempt jobId occurredAt =>
    by_cases haccepted : attempt.status = ATTEMPT_STATUS_ACCEPTED
    · simp [Write.written, claimAttempt, Write.takesPlace, haccepted]
    · simp [Write.written, claimAttempt, Write.takesPlace, haccepted]
  | resetAttemptStatusToProvisioning =>
    by_cases hfailed : attempt.status = ATTEMPT_STATUS_FAILED
    · simp [Write.written, resetAttemptStatusToProvisioning, Write.takesPlace, hfailed]
    · simp [Write.written, resetAttemptStatusToProvisioning, Write.takesPlace, hfailed]

theorem apply_cases (attempt : AttemptRow) (w : Write) :
    (w.takesPlace attempt = true ∧ w.written attempt = some (w.apply attempt)) ∨
      w.takesPlace attempt = false ∧ w.apply attempt = attempt := by
  have hsome := written_isSome attempt w
  unfold Write.apply
  cases hw : w.written attempt with
  | none =>
    rw [hw] at hsome
    exact .inr ⟨hsome.symm, rfl⟩
  | some after =>
    rw [hw] at hsome
    exact .inl ⟨hsome.symm, rfl⟩

/-- One write leaves the log of what was accepted so far. -/
theorem isLog_apply {history : List StepOutcomeDto} (attempt : AttemptRow) (w : Write)
    (h : IsLog StepOutcomeDto.step history (normalizeStepOutcomes attempt.stepOutcomes)) :
    IsLog StepOutcomeDto.step (history ++ w.accepted attempt)
      (normalizeStepOutcomes (w.apply attempt).stepOutcomes) := by
  rw [Write.accepted]
  rcases apply_cases attempt w with ⟨htakes, hwritten⟩ | ⟨htakes, hsame⟩
  · rw [if_pos htakes, entries_written hwritten]
    exact h.foldl_enter w.outcomes
  · rw [htakes, hsame]
    simpa using h

theorem isLog_run {history : List StepOutcomeDto} {attempt : AttemptRow} (writes : List Write)
    (h : IsLog StepOutcomeDto.step history (normalizeStepOutcomes attempt.stepOutcomes)) :
    IsLog StepOutcomeDto.step (history ++ acceptedOutcomes attempt writes)
      (normalizeStepOutcomes (runWrites attempt writes).stepOutcomes) := by
  induction writes generalizing attempt history with
  | nil => simpa [acceptedOutcomes, runWrites] using h
  | cons w writes ih =>
    have hrest := ih (isLog_apply attempt w h)
    rwa [List.append_assoc] at hrest

theorem column_run (attempt : AttemptRow) (writes : List Write) :
    (runWrites attempt writes).stepOutcomes = attempt.stepOutcomes ∨
      (runWrites attempt writes).stepOutcomes =
        column (normalizeStepOutcomes (runWrites attempt writes).stepOutcomes) := by
  induction writes generalizing attempt with
  | nil => exact .inl rfl
  | cons w writes ih =>
    rcases ih (w.apply attempt) with hrest | hrest
    · have hrun : (runWrites attempt (w :: writes)).stepOutcomes = (w.apply attempt).stepOutcomes :=
        hrest
      rw [hrun]
      rcases apply_cases attempt w with ⟨-, hwritten⟩ | ⟨-, hsame⟩
      · exact column_written hwritten
      · exact .inl (by rw [hsame])
    · exact .inr hrest

end History

/-- Along every sequence of writes the column holds each step once, in the order of first
appearance and with its last accepted outcome, and a terminal status is left only by the
reset of a failed attempt. -/
theorem step_outcomes_faithful (attempt : AttemptRow)
    (hnodup : ((normalizeStepOutcomes attempt.stepOutcomes).map StepOutcomeDto.step).Nodup)
    (writes : List Write) :
    IsLog StepOutcomeDto.step
        (normalizeStepOutcomes attempt.stepOutcomes ++ acceptedOutcomes attempt writes)
        (normalizeStepOutcomes (runWrites attempt writes).stepOutcomes) ∧
      ((runWrites attempt writes).stepOutcomes = attempt.stepOutcomes ∨
        (runWrites attempt writes).stepOutcomes =
          column (normalizeStepOutcomes (runWrites attempt writes).stepOutcomes)) ∧
      ∀ before w after, writes = before ++ w :: after →
        isTerminal (runWrites attempt before).status = true →
        isTerminal (runWrites attempt (before ++ [w])).status = false →
          w = .resetAttemptStatusToProvisioning ∧
            (runWrites attempt before).status = ATTEMPT_STATUS_FAILED := by
  refine ⟨isLog_run writes (.of_nodup hnodup), column_run attempt writes, ?_⟩
  intro before w after _ hterminal hleft
  have hrun : runWrites attempt (before ++ [w]) = w.apply (runWrites attempt before) := by
    rw [runWrites, List.foldl_append]
    rfl
  rw [hrun] at hleft
  rcases apply_cases (runWrites attempt before) w with ⟨-, hwritten⟩ | ⟨-, hsame⟩
  · exact status_written hwritten hterminal hleft
  · rw [hsame, hterminal] at hleft
    cases hleft

def outcomeOf (step status occurredAt : String) : StepOutcomeDto :=
  ⟨.obj [("step", .str step), ("status", .str status), ("occurredAt", .str occurredAt)], rfl⟩

/-- An attempt as the request leaves it. -/
def acceptedAttempt : AttemptRow :=
  ⟨ATTEMPT_STATUS_ACCEPTED, none, .null, column [outcomeOf "attempt_reservation" "succeeded" "09:00"]⟩

/-- A schema step that fails, a late write that is stopped, and the run that is resumed. -/
def resumedWrites : List Write :=
  [.claimAttempt "job" "09:01",
    .updateAttemptSteps ATTEMPT_STATUS_FAILED [outcomeOf "schema_created" "failed" "09:02"]
      ⟨false, false, false⟩,
    .updateAttemptSteps ATTEMPT_STATUS_PROVISIONING [outcomeOf "schema_created" "succeeded" "09:03"]
      ⟨false, false, false⟩,
    .resetAttemptStatusToProvisioning,
    .updateAttemptSteps ATTEMPT_STATUS_PROVISIONING [outcomeOf "schema_created" "succeeded" "09:04"]
      ⟨false, false, false⟩]

theorem step_outcomes_faithful_resumed :
    (runWrites acceptedAttempt resumedWrites).status = ATTEMPT_STATUS_PROVISIONING ∧
      IsLog StepOutcomeDto.step
        (normalizeStepOutcomes acceptedAttempt.stepOutcomes ++
          acceptedOutcomes acceptedAttempt resumedWrites)
        (normalizeStepOutcomes (runWrites acceptedAttempt resumedWrites).stepOutcomes) := by
  have hnodup : ((normalizeStepOutcomes acceptedAttempt.stepOutcomes).map
      StepOutcomeDto.step).Nodup := by decide
  exact ⟨by decide, (step_outcomes_faithful acceptedAttempt hnodup resumedWrites).1⟩

/-! ### The model with typed outcomes

The provisioning model keeps the outcomes as records and writes them with the same three
statements.
-/

def AttemptStatus.text : AttemptStatus → String
  | .accepted => ATTEMPT_STATUS_ACCEPTED
  | .provisioning => ATTEMPT_STATUS_PROVISIONING
  | .failed => ATTEMPT_STATUS_FAILED
  | .succeeded => ATTEMPT_STATUS_SUCCEEDED
  | .failedNeedsManualCleanup => ATTEMPT_STATUS_FAILED_MANUAL_CLEANUP

def TenantStatus.text : TenantStatus → String
  | .PROVISIONING => "PROVISIONING"
  | .ACTIVE => "ACTIVE"
  | .FAILED => "FAILED"
  | .SUSPENDED => "SUSPENDED"

def StepName.text : StepName → String
  | .permission_check => "permission_check"
  | .payload_validation => "payload_validation"
  | .slug_availability => "slug_availability"
  | .attempt_reservation => "attempt_reservation"
  | .provisioning_start => "provisioning_start"
  | .tenant_creation => "tenant_creation"
  | .schema_created => "schema_created"
  | .bootstrap_migrated => "bootstrap_migrated"
  | .bootstrap_seeded => "bootstrap_seeded"
  | .first_admin_assigned => "first_admin_assigned"
  | .setup_link_generated => "setup_link_generated"
  | .setup_email_sent => "setup_email_sent"
  | .activation => "activation"
  | .audit_finalized => "audit_finalized"

def StepStatus.text : StepStatus → String
  | .running => "running"
  | .succeeded => "succeeded"
  | .failed => "failed"

theorem StepName.text_injective {a b : StepName} (h : StepName.text a = StepName.text b) :
    a = b := by
  cases a <;> cases b <;> first | rfl | exact absurd h (by decide)

/-- A member that is left out when there is no value. -/
def member? (key : String) (value : Option String) : List (String × Json) :=
  (value.map fun s => (key, Json.str s)).toList

section Typed

variable (toISOString : ℕ → String)

/-- The object that a typed outcome is. -/
def dto (outcome : StepOutcome) : StepOutcomeDto :=
  ⟨.obj ([("step", .str (StepName.text outcome.step)), ("status", .str (StepStatus.text outcome.status)),
    ("occurredAt", .str (toISOString outcome.occurredAt))] ++
      member? "tenantId" (outcome.tenantId.map Subtype.val) ++
      member? "tenantSlug" outcome.tenantSlug ++
      member? "tenantStatus" (outcome.tenantStatus.map TenantStatus.text) ++
      member? "errorCode" outcome.errorCode ++ member? "message" outcome.message), rfl⟩

theorem dto_step (outcome : StepOutcome) :
    StepOutcomeDto.step (dto toISOString outcome) = StepName.text outcome.step := rfl

def attemptRow (attempt : Attempt) : AttemptRow where
  status := AttemptStatus.text attempt.status
  provisioningJobId := attempt.provisioningJobId
  safePayload := attempt.safePayload
  stepOutcomes := column (attempt.stepOutcomes.map (dto toISOString))

theorem map_upsertStepOutcome (outcomes : List StepOutcome) (outcome : StepOutcome) :
    (Tenants.upsertStepOutcome outcomes outcome).map (dto toISOString) =
      enter StepOutcomeDto.step (outcomes.map (dto toISOString)) (dto toISOString outcome) := by
  induction outcomes with
  | nil => rfl
  | cons item outcomes ih =>
    rw [Tenants.upsertStepOutcome, List.map_cons, enter]
    by_cases hstep : item.step = outcome.step
    · rw [if_pos hstep, dto_step, dto_step, if_pos (congrArg StepName.text hstep), List.map_cons]
    · have htext : StepName.text item.step ≠ StepName.text outcome.step :=
        fun h => hstep (StepName.text_injective h)
      rw [if_neg hstep, dto_step, dto_step, if_neg htext, List.map_cons, ih]

theorem map_foldl_upsertStepOutcome (outcomes current : List StepOutcome) :
    (outcomes.foldl Tenants.upsertStepOutcome current).map (dto toISOString) =
      (outcomes.map (dto toISOString)).foldl (enter StepOutcomeDto.step)
        (current.map (dto toISOString)) := by
  induction outcomes generalizing current with
  | nil => rfl
  | cons outcome outcomes ih =>
    rw [List.foldl_cons, ih, map_upsertStepOutcome, List.map_cons, List.foldl_cons]

theorem isTerminal_text (status : AttemptStatus) :
    isTerminal (AttemptStatus.text status) = status.isTerminal := by
  cases status <;> rfl

theorem attemptRow_updateAttemptSteps (db : Database) (status : AttemptStatus)
    (outcomes : List StepOutcome) (aborted signal : Bool) :
    Write.apply (attemptRow toISOString db.attempt)
        (.updateAttemptSteps (AttemptStatus.text status) (outcomes.map (dto toISOString))
          ⟨signal && aborted, signal && aborted, signal && aborted⟩) =
      attemptRow toISOString (db.updateAttemptSteps aborted status outcomes signal).2.attempt := by
  have hmerge := map_foldl_upsertStepOutcome toISOString outcomes db.attempt.stepOutcomes
  simp only [Write.apply, Write.written, updateAttemptSteps, foldl_upsertStepOutcome,
    Database.updateAttemptSteps, isTerminal_text, attemptRow, normalizeStepOutcomes_column, ← hmerge]
  cases signal && aborted with
  | true => rfl
  | false =>
    cases db.attempt.status.isTerminal && !status.isTerminal with
    | true => rfl
    | false => rfl

theorem text_eq_accepted (status : AttemptStatus) :
    AttemptStatus.text status = ATTEMPT_STATUS_ACCEPTED ↔ status = .accepted := by
  cases status <;> simp [AttemptStatus.text] <;> decide

theorem text_eq_failed (status : AttemptStatus) :
    AttemptStatus.text status = ATTEMPT_STATUS_FAILED ↔ status = .failed := by
  cases status <;> simp [AttemptStatus.text] <;> decide

theorem attemptRow_claimAttempt (db : Database) (jobId : String) (occurredAt : ℕ) :
    Write.apply (attemptRow toISOString db.attempt) (.claimAttempt jobId (toISOString occurredAt)) =
      attemptRow toISOString (db.claimAttempt jobId occurredAt).2.attempt := by
  have hmerge : _ = enter StepOutcomeDto.step _ (runningOutcome (toISOString occurredAt)) :=
    map_upsertStepOutcome toISOString db.attempt.stepOutcomes
      { step := .provisioning_start, status := .running, occurredAt := occurredAt }
  by_cases haccepted : db.attempt.status = .accepted
  · simp only [Write.apply, Write.written, claimAttempt, attemptRow, upsertStepOutcome_eq,
      normalizeStepOutcomes_column, Database.claimAttempt, haccepted, if_true, ← hmerge]
    rfl
  · have htext := mt (text_eq_accepted db.attempt.status).mp haccepted
    simp only [Write.apply, Write.written, claimAttempt, attemptRow, htext, Database.claimAttempt,
      haccepted, if_false]
    rfl

theorem attemptRow_resetAttemptStatusToProvisioning (db : Database) :
    Write.apply (attemptRow toISOString db.attempt) .resetAttemptStatusToProvisioning =
      attemptRow toISOString db.resetAttemptStatusToProvisioning.2.attempt := by
  by_cases hfailed : db.attempt.status = .failed
  · simp only [Write.apply, Write.written, resetAttemptStatusToProvisioning, attemptRow, hfailed,
      Database.resetAttemptStatusToProvisioning, if_true]
    rfl
  · have htext := mt (text_eq_failed db.attempt.status).mp hfailed
    simp only [Write.apply, Write.written, resetAttemptStatusToProvisioning, attemptRow, htext,
      Database.resetAttemptStatusToProvisioning, hfailed, if_false]
    rfl

end Typed

end Flexi.Tenants.StepLog
