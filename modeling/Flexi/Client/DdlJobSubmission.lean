import Flexi.Library.Reach
import Flexi.Common.Json
import Flexi.Tenants.Payload
import Mathlib.Order.WithBot
import Mathlib.Algebra.Order.Floor.Ring
import Mathlib.Data.Rat.Floor

/-!
# Submitting a DDL job (use-ddl-job-submission.ts)

The hook as a state machine. A step is what runs without a pause: a call from the form, or the
continuation of one submission after the promise it awaited. `state` is the last value given
to `setState`. The form calls the hook only while it is mounted.
-/

namespace Flexi.Client
open Flexi.Library

def MAX_JOB_ERROR_LENGTH : ℕ := 300

inductive SubmissionState (Request : Type) where
  | idle
  | confirming (request : Request)
  | submitting
  | polling (jobId : String) (attempt : ℕ)
  | error (code : String) (detail : Option String)

/-- `DynamicTableDdlJobDto` -/
structure DdlJob where
  status : String
  error : Option String

/-! ### Errors -/

/-- The characters of `[A-Z0-9_]`. -/
def isCodeChar (c : Char) : Bool := c.isUpper || c.isDigit || c == '_'

/-- The code of an `ApiError` that looks like one; `none` is any other error. -/
def errorCode (apiErrorCode : Option String) : String :=
  match apiErrorCode with
  | some code =>
    if code.toList.all isCodeChar ∧ 1 ≤ code.length ∧ code.length ≤ 64 then code
    else "REQUEST_FAILED"
  | none => "REQUEST_FAILED"

/-- `replace(/\s+/g, ' ')` -/
def collapseSpaces : List Char → List Char
  | [] => []
  | [c] => if Tenants.isJsSpace c then [' '] else [c]
  | c :: d :: cs =>
    if Tenants.isJsSpace c then
      if Tenants.isJsSpace d then collapseSpaces (d :: cs) else ' ' :: collapseSpaces (d :: cs)
    else c :: collapseSpaces (d :: cs)

/-- The first characters that make up at most `units` UTF-16 code units. A character of two
units that the cut would divide is left out, where `slice` keeps its first half. -/
def takeUnits : ℕ → List Char → List Char
  | _, [] => []
  | units, c :: cs =>
    let width := if c.toNat < 65536 then 1 else 2
    if width ≤ units then c :: takeUnits (units - width) cs else []

def trimEnd (cs : List Char) : List Char := (cs.reverse.dropWhile Tenants.isJsSpace).reverse

def jobErrorDetail (error : Option String) : Option String :=
  let detail := Tenants.trim (String.ofList (collapseSpaces (error.getD "").toList))
  if detail = "" then none
  else if MAX_JOB_ERROR_LENGTH < utf16Length detail then
    some (String.ofList (trimEnd (takeUnits MAX_JOB_ERROR_LENGTH detail.toList) ++ ['…']))
  else some detail

/-! ### Submissions -/

/-- `Math.max(1, Math.floor(maxPollAttempts))`, where `none` is `NaN`: with it no comparison
holds, and the loop is never entered. -/
def pollLimit : Option JsNumber → WithTop ℕ
  | none => (0 : ℕ)
  | some (.finite q) => ((max 1 ⌊q⌋).toNat : ℕ)
  | some (.infinite negative) => if negative then (1 : ℕ) else ⊤

/-- Where the run of a submission stands. -/
inductive Phase where
  | enqueuing
  | polling (jobId : String) (attempt : ℕ)
  | waiting (jobId : String) (attempt : ℕ)
  | completing
  | done

/-- One call of `submit`, with its controller. `polls` and `completions` count its calls of
`getJob` and of `onCompleted`. -/
structure Submission where
  limit : WithTop ℕ
  aborted : Bool := false
  phase : Phase := .enqueuing
  polls : ℕ := 0
  completions : ℕ := 0

/-- `controllerRef` names the submission the controller belongs to; `cleared` is how many
submissions there were at the last `reset`. -/
structure Hook (Request : Type) where
  state : SubmissionState Request
  submissions : List Submission
  controllerRef : Option ℕ
  mountedRef : Bool
  inFlightRef : Bool
  cleared : ℕ

variable {Request : Type}

namespace Hook

def initial : Hook Request where
  state := .idle
  submissions := []
  controllerRef := none
  mountedRef := true
  inFlightRef := false
  cleared := 0

def put (s : Hook Request) (i : ℕ) (sub : Submission) : Hook Request :=
  { s with submissions := s.submissions.set i sub }

/-- `controllerRef.current?.abort()` -/
def abortCurrent (s : Hook Request) : Hook Request :=
  match s.controllerRef with
  | none => s
  | some i =>
    { s with submissions := s.submissions.modify i fun sub => { sub with aborted := true } }

/-- `mountedRef.current && !controller.signal.aborted` -/
def live (s : Hook Request) (sub : Submission) : Bool := s.mountedRef && !sub.aborted

/-- The submission ends; while it is live, with an error. -/
def settle (s : Hook Request) (i : ℕ) (sub : Submission) (code : String) (detail : Option String) :
    Hook Request :=
  if s.live sub then
    { s.put i { sub with phase := .done } with inFlightRef := false, state := .error code detail }
  else s.put i { sub with phase := .done }

/-- The head of the loop of `pollJob`. -/
def pollNext (s : Hook Request) (i : ℕ) (sub : Submission) (jobId : String) (attempt : ℕ) :
    Hook Request :=
  if (attempt : WithTop ℕ) ≤ sub.limit then
    if s.live sub then s.put i { sub with phase := .polling jobId attempt, polls := sub.polls + 1 }
    else s.put i { sub with phase := .done }
  else s.settle i sub "POLLING_TIMEOUT" none

/-! ### The calls of the form -/

def submit (s : Hook Request) (maxPollAttempts : Option JsNumber) : Hook Request :=
  let s := s.abortCurrent
  { s with
    submissions := s.submissions ++ [{ limit := pollLimit maxPollAttempts }]
    controllerRef := some s.submissions.length
    inFlightRef := true
    state := .submitting }

def confirm (s : Hook Request) (request : Request) : Hook Request :=
  { s with state := .confirming request }

def reset (s : Hook Request) : Hook Request :=
  { s with state := .idle, cleared := s.submissions.length }

/-- The clean-up of the effect. A timer it clears may still fire here; its submission is dead. -/
def unmount (s : Hook Request) : Hook Request :=
  { s.abortCurrent with mountedRef := false, inFlightRef := false }

/-! ### The continuations of a submission -/

/-- `enqueue` has resolved. -/
def accepted (s : Hook Request) (i : ℕ) (sub : Submission) (jobId : String) : Hook Request :=
  if s.live sub then pollNext { s with state := .polling jobId 0 } i sub jobId 1
  else s.put i { sub with phase := .done }

/-- `getJob` has resolved. -/
def answered (s : Hook Request) (i : ℕ) (sub : Submission) (jobId : String) (attempt : ℕ)
    (job : DdlJob) : Hook Request :=
  if s.live sub then
    if job.status = "completed" then
      { s.put i { sub with phase := .completing, completions := sub.completions + 1 } with
        inFlightRef := false }
    else if job.status = "failed" then s.settle i sub "DDL_JOB_FAILED" (jobErrorDetail job.error)
    else
      let s := { s with state := .polling jobId attempt }
      if (attempt : WithTop ℕ) < sub.limit then s.put i { sub with phase := .waiting jobId attempt }
      else s.settle i sub "POLLING_TIMEOUT" none
  else s.put i { sub with phase := .done }

end Hook

/-! ### Steps -/

/-- What the promise that a submission awaits does, or the callback it is in. -/
inductive Continuation where
  | accepted (jobId : String)
  | answered (job : DdlJob)
  | fired
  | returned
  | failed (apiErrorCode : Option String)

inductive Event (Request : Type) where
  | submit (maxPollAttempts : Option JsNumber)
  | confirm (request : Request)
  | reset
  | unmount
  | resume (i : ℕ) (c : Continuation)

/-- A failed `enqueue` or `getJob` and a throwing `onCompleted` reach a `catch`. -/
def Hook.resume (s : Hook Request) (i : ℕ) (sub : Submission) :
    Phase → Continuation → Option (Hook Request)
  | .enqueuing, .accepted jobId => some (s.accepted i sub jobId)
  | .polling jobId attempt, .answered job => some (s.answered i sub jobId attempt job)
  | .waiting jobId attempt, .fired => some (s.pollNext i sub jobId (attempt + 1))
  | .completing, .returned => some (s.put i { sub with phase := .done })
  | .enqueuing, .failed code | .polling _ _, .failed code | .completing, .failed code =>
    some (s.settle i sub (errorCode code) none)
  | _, _ => none

def step (s : Hook Request) : Event Request → Option (Hook Request)
  | .submit maxPollAttempts => if s.mountedRef then some (s.submit maxPollAttempts) else none
  | .confirm request => if s.mountedRef then some (s.confirm request) else none
  | .reset => if s.mountedRef then some s.reset else none
  | .unmount => if s.mountedRef then some s.unmount else none
  | .resume i c => s.submissions[i]?.bind fun sub => s.resume i sub sub.phase c

/-! ### What one continuation does -/

/-- Enqueued or polled and not settled yet. -/
def Phase.busy : Phase → Bool
  | .enqueuing | .polling _ _ | .waiting _ _ => true
  | .completing | .done => false

/-- The counters agree with the phase. -/
def Submission.Counted (sub : Submission) : Prop :=
  match sub.phase with
  | .enqueuing => sub.polls = 0 ∧ sub.completions = 0
  | .polling _ attempt => sub.polls = attempt ∧ (attempt : WithTop ℕ) ≤ sub.limit ∧
      sub.completions = 0
  | .waiting _ attempt => sub.polls = attempt ∧ (attempt : WithTop ℕ) < sub.limit ∧
      sub.completions = 0
  | .completing => (sub.polls : WithTop ℕ) ≤ sub.limit ∧ sub.completions = 1
  | .done => (sub.polls : WithTop ℕ) ≤ sub.limit ∧ sub.completions ≤ 1

/-- `idle`, `confirming` or `error`. -/
def SubmissionState.atRest : SubmissionState Request → Bool
  | .idle | .confirming _ | .error _ _ => true
  | .submitting | .polling _ _ => false

/-- What the continuation of a live submission may do. -/
inductive Effect (s s' : Hook Request) (sub sub' : Submission) : Prop
  | goesOn (before : sub.phase.busy = true) (after : sub'.phase.busy = true)
      (inFlight : s'.inFlightRef = s.inFlightRef)
      (state : s'.state = s.state ∨ s'.state.atRest = false)
  | completes (before : sub.phase.busy = true) (after : sub'.phase.busy = false)
      (inFlight : s'.inFlightRef = false) (state : s'.state = s.state ∨ s'.state.atRest = false)
  | fails (after : sub'.phase.busy = false) (inFlight : s'.inFlightRef = false)
      (code : String) (detail : Option String) (state : s'.state = .error code detail)
  | returns (before : sub.phase.busy = false) (after : sub'.phase.busy = false)
      (inFlight : s'.inFlightRef = s.inFlightRef) (state : s'.state = s.state)

/-- From `s` to `s'` submission `i` goes on as `sub'`; one that is not live does nothing else. -/
structure Resumes (s s' : Hook Request) (i : ℕ) (sub sub' : Submission) : Prop where
  submissions : s'.submissions = s.submissions.set i sub'
  controllerRef : s'.controllerRef = s.controllerRef
  mountedRef : s'.mountedRef = s.mountedRef
  cleared : s'.cleared = s.cleared
  aborted : sub'.aborted = sub.aborted
  counted : sub.Counted → sub'.Counted
  dead : s.live sub = false →
    s'.state = s.state ∧ s'.inFlightRef = s.inFlightRef ∧ sub'.completions = sub.completions
  effect : s.live sub = true → Effect s s' sub sub'

section Continuations

variable {s s' : Hook Request} {i : ℕ} {sub : Submission}

theorem Submission.Counted.bounds (h : sub.Counted) :
    sub.completions ≤ 1 ∧ (sub.polls : WithTop ℕ) ≤ sub.limit := by
  unfold Counted at h
  split at h
  · exact ⟨by omega, by rw [h.1]; exact bot_le⟩
  · exact ⟨by omega, by rw [h.1]; exact h.2.1⟩
  · exact ⟨by omega, by rw [h.1]; exact h.2.1.le⟩
  · exact ⟨h.2.le, h.1⟩
  · exact ⟨h.2, h.1⟩

theorem Submission.Counted.none_completed (h : sub.Counted) (hbusy : sub.phase.busy = true) :
    sub.completions = 0 := by
  unfold Counted at h
  split at h
  · exact h.2
  · exact h.2.2
  · exact h.2.2
  · rename_i hphase
    rw [hphase] at hbusy
    cases hbusy
  · rename_i hphase
    rw [hphase] at hbusy
    cases hbusy

theorem counted_done (h : sub.Counted) : ({ sub with phase := .done } : Submission).Counted :=
  ⟨h.bounds.2, h.bounds.1⟩

theorem resumes_dead (hlive : s.live sub = false) :
    Resumes s (s.put i { sub with phase := .done }) i sub { sub with phase := .done } where
  submissions := rfl
  controllerRef := rfl
  mountedRef := rfl
  cleared := rfl
  aborted := rfl
  counted := counted_done
  dead _ := ⟨rfl, rfl, rfl⟩
  effect h := absurd (hlive.symm.trans h) Bool.false_ne_true

theorem resumes_settle (code : String) (detail : Option String) :
    Resumes s (s.settle i sub code detail) i sub { sub with phase := .done } := by
  unfold Hook.settle
  split
  · rename_i hlive
    exact ⟨rfl, rfl, rfl, rfl, rfl, counted_done, fun h => absurd (h.symm.trans hlive)
      Bool.false_ne_true, fun _ => .fails rfl rfl code detail rfl⟩
  · rename_i hlive
    exact resumes_dead (Bool.eq_false_iff.mpr hlive)

theorem resumes_pollNext (hbusy : sub.phase.busy = true) (jobId : String) (attempt : ℕ)
    (hpolls : sub.Counted → sub.polls + 1 = attempt ∧ sub.completions = 0) :
    ∃ sub', Resumes s (s.pollNext i sub jobId attempt) i sub sub' := by
  unfold Hook.pollNext
  split
  · rename_i hlimit
    split
    · rename_i hlive
      refine ⟨{ sub with phase := .polling jobId attempt, polls := sub.polls + 1 },
        rfl, rfl, rfl, rfl, rfl, ?_, fun h => absurd (h.symm.trans hlive) Bool.false_ne_true,
        fun _ => .goesOn hbusy rfl rfl (.inl rfl)⟩
      intro hcounted
      obtain ⟨hpolls, hcompletions⟩ := hpolls hcounted
      exact ⟨hpolls, hlimit, hcompletions⟩
    · rename_i hlive
      exact ⟨_, resumes_dead (Bool.eq_false_iff.mpr hlive)⟩
  · exact ⟨_, resumes_settle _ _⟩

/-- What follows a `setState` of a live submission whose state is overwritten or not at rest. -/
theorem Resumes.after_setState {state : SubmissionState Request} {s' : Hook Request}
    {sub' : Submission} (hlive : s.live sub = true) (hstate : state.atRest = false)
    (hbusy : sub.phase.busy = true)
    (h : Resumes { s with state := state } s' i sub sub') : Resumes s s' i sub sub' where
  submissions := h.submissions
  controllerRef := h.controllerRef
  mountedRef := h.mountedRef
  cleared := h.cleared
  aborted := h.aborted
  counted := h.counted
  dead hdead := absurd (hdead.symm.trans hlive) Bool.false_ne_true
  effect _ := by
    have hrest : s'.state = state ∨ s'.state.atRest = false → s'.state.atRest = false := by
      rintro (heq | hrest)
      · rw [heq, hstate]
      · exact hrest
    cases h.effect hlive with
    | goesOn before after inFlight hs => exact .goesOn before after inFlight (.inr (hrest hs))
    | completes before after inFlight hs => exact .completes before after inFlight (.inr (hrest hs))
    | fails after inFlight code detail hs => exact .fails after inFlight code detail hs
    | returns before => exact absurd (before.symm.trans hbusy) Bool.false_ne_true

theorem resume_spec {c : Continuation} {s' : Hook Request}
    (h : s.resume i sub sub.phase c = some s') : ∃ sub', Resumes s s' i sub sub' := by
  unfold Hook.resume at h
  split at h
  · rename_i jobId hphase
    cases h
    have hbusy : sub.phase.busy = true := by rw [hphase]; rfl
    unfold Hook.accepted
    split
    · rename_i hlive
      obtain ⟨sub', hsub'⟩ := resumes_pollNext (s := { s with state := .polling jobId 0 }) (i := i)
        hbusy jobId 1 fun hcounted => by
          rw [Submission.Counted, hphase] at hcounted
          exact ⟨by rw [hcounted.1], hcounted.2⟩
      exact ⟨sub', hsub'.after_setState hlive rfl hbusy⟩
    · rename_i hlive
      exact ⟨_, resumes_dead (Bool.eq_false_iff.mpr hlive)⟩
  · rename_i jobId attempt job hphase
    cases h
    have hbusy : sub.phase.busy = true := by rw [hphase]; rfl
    unfold Hook.answered
    split
    · rename_i hlive
      have hnotDead {p : Prop} (h : s.live sub = false) : p :=
        absurd (h.symm.trans hlive) Bool.false_ne_true
      split
      · refine ⟨_, rfl, rfl, rfl, rfl, rfl, ?_, hnotDead,
          fun _ => .completes hbusy rfl rfl (.inl rfl)⟩
        intro hcounted
        rw [Submission.Counted, hphase] at hcounted
        exact ⟨by rw [hcounted.1]; exact hcounted.2.1, by rw [hcounted.2.2]⟩
      · split
        · exact ⟨_, resumes_settle _ _⟩
        · dsimp only
          split
          · rename_i hlimit
            refine ⟨_, rfl, rfl, rfl, rfl, rfl, ?_, hnotDead,
              fun _ => .goesOn hbusy rfl rfl (.inr rfl)⟩
            intro hcounted
            rw [Submission.Counted, hphase] at hcounted
            exact ⟨hcounted.1, hlimit, hcounted.2.2⟩
          · exact ⟨_, (resumes_settle _ _).after_setState hlive rfl hbusy⟩
    · rename_i hlive
      exact ⟨_, resumes_dead (Bool.eq_false_iff.mpr hlive)⟩
  · rename_i jobId attempt hphase
    cases h
    refine resumes_pollNext (by rw [hphase]; rfl) jobId _ fun hcounted => ?_
    rw [Submission.Counted, hphase] at hcounted
    exact ⟨by rw [hcounted.1], hcounted.2.2⟩
  · rename_i hphase
    cases h
    refine ⟨{ sub with phase := .done }, rfl, rfl, rfl, rfl, rfl, counted_done,
      fun _ => ⟨rfl, rfl, rfl⟩, fun _ => .returns ?_ rfl rfl rfl⟩
    rw [hphase]
    rfl
  · cases h
    exact ⟨_, resumes_settle _ _⟩
  · cases h
    exact ⟨_, resumes_settle _ _⟩
  · cases h
    exact ⟨_, resumes_settle _ _⟩
  · cases h

end Continuations

/-! ### Runs -/

/-- A submission before the last `reset` or before a newer one. -/
def Hook.Superseded (s : Hook Request) (i : ℕ) : Prop :=
  i < s.cleared ∨ i + 1 < s.submissions.length

def Hook.completions (s : Hook Request) (i : ℕ) : ℕ :=
  (s.submissions[i]?).elim 0 Submission.completions

/-- `onCompleted` has been called for the current submission. -/
def Hook.CurrentCompleted (s : Hook Request) : Prop :=
  ∃ i, s.controllerRef = some i ∧ s.completions i = 1

/-- What every step is to keep. -/
structure Holds (s s' : Hook Request) (e : Event Request) : Prop where
  isolated : ∀ i c, e = .resume i c → s.Superseded i →
    s'.state = s.state ∧ ∀ j, s'.completions j = s.completions j
  once : ∀ sub ∈ s'.submissions, sub.completions ≤ 1
  bounded : ∀ sub ∈ s'.submissions, (sub.polls : WithTop ℕ) ≤ sub.limit
  atRest : s'.state.atRest = true → s'.inFlightRef = false ∨ s'.CurrentCompleted

/-- `reset` and `confirm` only while nothing is in flight, and no failure of an `onCompleted`
that has called `reset`. -/
def Careful (s : Hook Request) : Event Request → Prop
  | .confirm _ | .reset => s.inFlightRef = false
  | .resume i (.failed _) => ∀ sub, s.submissions[i]? = some sub → s.live sub = true → s.cleared ≤ i
  | _ => True

/-- Every submission is counted, whatever the form calls. -/
def AllCounted (s : Hook Request) : Prop :=
  ∀ (i : ℕ) (sub : Submission), s.submissions[i]? = some sub → sub.Counted

/-- The states of runs whose steps are all careful. -/
structure Inv (s : Hook Request) : Prop where
  counted : AllCounted s
  controllerRef : s.controllerRef = if s.submissions = [] then none
    else some (s.submissions.length - 1)
  older : ∀ (i : ℕ) (sub : Submission), s.submissions[i]? = some sub →
    i + 1 < s.submissions.length → sub.aborted = true
  busy : ∀ (i : ℕ) (sub : Submission), s.submissions[i]? = some sub → s.live sub = true →
    sub.phase.busy = true → s.inFlightRef = true
  inFlight : s.inFlightRef = true → ∃ (i : ℕ) (sub : Submission),
    s.submissions[i]? = some sub ∧ s.live sub = true ∧ sub.phase.busy = true
  clearedBusy : ∀ (i : ℕ) (sub : Submission), s.submissions[i]? = some sub →
    s.live sub = true → i < s.cleared → sub.phase.busy = false
  clearedLe : s.cleared ≤ s.submissions.length
  clearedState : s.cleared = s.submissions.length → ∀ code detail, s.state ≠ .error code detail
  atRest : s.state.atRest = true → s.inFlightRef = false

section Runs

variable {s s' : Hook Request} {i : ℕ} {sub sub' : Submission}

theorem Hook.aborted_of_live (h : s.live sub = true) :
    s.mountedRef = true ∧ sub.aborted = false := by
  rw [live, Bool.and_eq_true, Bool.not_eq_true'] at h
  exact h

theorem abortCurrent_getElem? (h : s.abortCurrent.submissions[i]? = some sub) :
    ∃ sub₀, s.submissions[i]? = some sub₀ ∧
      (sub = sub₀ ∧ s.controllerRef ≠ some i ∨ sub = { sub₀ with aborted := true }) := by
  unfold Hook.abortCurrent at h
  split at h
  · rename_i hnone
    exact ⟨sub, h, .inl ⟨rfl, by simp only [hnone, ne_eq, reduceCtorEq, not_false_eq_true]⟩⟩
  · rename_i k hk
    dsimp only at h
    rw [List.getElem?_modify] at h
    obtain ⟨sub₀, hsub₀, rfl⟩ := Option.map_eq_some_iff.mp h
    refine ⟨sub₀, hsub₀, ?_⟩
    by_cases heq : k = i
    · exact .inr (if_pos heq)
    · refine .inl ⟨if_neg heq, ?_⟩
      rw [hk]
      exact fun hki => heq (Option.some.inj hki)

theorem abortCurrent_eq :
    ∃ submissions, s.abortCurrent = { s with submissions := submissions } := by
  unfold Hook.abortCurrent
  split
  · exact ⟨s.submissions, rfl⟩
  · exact ⟨_, rfl⟩

theorem abortCurrent_length : s.abortCurrent.submissions.length = s.submissions.length := by
  unfold Hook.abortCurrent
  split
  · rfl
  · exact List.length_modify ..

theorem submit_getElem? {maxPollAttempts : Option JsNumber}
    (h : (s.submit maxPollAttempts).submissions[i]? = some sub) :
    (i = s.submissions.length ∧ sub = { limit := pollLimit maxPollAttempts }) ∨
      (i < s.submissions.length ∧ s.abortCurrent.submissions[i]? = some sub) := by
  dsimp only [Hook.submit] at h
  rw [List.getElem?_append] at h
  split at h
  · rename_i hlt
    exact .inr ⟨abortCurrent_length ▸ hlt, h⟩
  · rename_i hge
    rw [List.getElem?_singleton] at h
    obtain ⟨hzero, h⟩ := Option.ite_none_right_eq_some.mp h
    rw [abortCurrent_length] at hge hzero
    exact .inl ⟨by omega, (Option.some.inj h).symm⟩

theorem counted_abortCurrent (h : AllCounted s) : AllCounted s.abortCurrent := by
  intro i sub hsub
  obtain ⟨sub₀, hsub₀, ⟨rfl, -⟩ | rfl⟩ := abortCurrent_getElem? hsub
  · exact h i _ hsub₀
  · have hcounted := h i sub₀ hsub₀
    exact hcounted

theorem Resumes.getElem? (hr : Resumes s s' i sub sub') (hsub : s.submissions[i]? = some sub)
    (j : ℕ) : s'.submissions[j]? = if j = i then some sub' else s.submissions[j]? := by
  obtain ⟨hlt, -⟩ := List.getElem?_eq_some_iff.mp hsub
  rw [hr.submissions]
  by_cases hj : j = i
  · rw [if_pos hj, hj, List.getElem?_set_self hlt]
  · rw [if_neg hj, List.getElem?_set_ne (Ne.symm hj)]

theorem Resumes.live (hr : Resumes s s' i sub sub') : s'.live sub' = s.live sub := by
  rw [Hook.live, Hook.live, hr.mountedRef, hr.aborted]

theorem Resumes.live_other (hr : Resumes s s' i sub sub') (sub₂ : Submission) :
    s'.live sub₂ = s.live sub₂ := by
  rw [Hook.live, Hook.live, hr.mountedRef]

theorem step_resume {c : Continuation} (h : step s (.resume i c) = some s') :
    ∃ sub sub', s.submissions[i]? = some sub ∧ s.resume i sub sub.phase c = some s' ∧
      Resumes s s' i sub sub' := by
  obtain ⟨sub, hsub, h⟩ := Option.bind_eq_some_iff.mp h
  obtain ⟨sub', hr⟩ := resume_spec h
  exact ⟨sub, sub', hsub, h, hr⟩

theorem counted_step {e : Event Request} (hs : AllCounted s) (h : step s e = some s') :
    AllCounted s' := by
  cases e with
  | submit maxPollAttempts =>
    obtain ⟨-, h⟩ := Option.ite_none_right_eq_some.mp h
    cases h
    intro i sub hsub
    rcases submit_getElem? hsub with ⟨-, rfl⟩ | ⟨-, hold⟩
    · exact ⟨rfl, rfl⟩
    · exact counted_abortCurrent hs i sub hold
  | confirm request =>
    obtain ⟨-, h⟩ := Option.ite_none_right_eq_some.mp h
    cases h
    exact hs
  | reset =>
    obtain ⟨-, h⟩ := Option.ite_none_right_eq_some.mp h
    cases h
    exact hs
  | unmount =>
    obtain ⟨-, h⟩ := Option.ite_none_right_eq_some.mp h
    cases h
    exact counted_abortCurrent hs
  | resume i c =>
    obtain ⟨sub, sub', hsub, -, hr⟩ := step_resume h
    intro j sub₂ hsub₂
    rw [hr.getElem? hsub] at hsub₂
    split at hsub₂
    · cases hsub₂
      exact hr.counted (hs i sub hsub)
    · exact hs j sub₂ hsub₂

/-! ### Careful runs -/

theorem Inv.last (h : Inv s) (hsub : s.submissions[i]? = some sub) (hlive : s.live sub = true) :
    i + 1 = s.submissions.length := by
  obtain ⟨hlt, -⟩ := List.getElem?_eq_some_iff.mp hsub
  rcases Nat.lt_or_eq_of_le (Nat.succ_le_of_lt hlt) with hold | hlast
  · have haborted := (Hook.aborted_of_live hlive).2
    rw [h.older i sub hsub hold] at haborted
    cases haborted
  · exact hlast

theorem Inv.aborted (h : Inv s) (hsub : s.abortCurrent.submissions[i]? = some sub) :
    sub.aborted = true := by
  obtain ⟨sub₀, hsub₀, ⟨rfl, hne⟩ | rfl⟩ := abortCurrent_getElem? hsub
  · obtain ⟨hlt, -⟩ := List.getElem?_eq_some_iff.mp hsub₀
    refine h.older i _ hsub₀ ?_
    rw [h.controllerRef, if_neg (List.ne_nil_of_length_pos (by omega))] at hne
    have hlast : s.submissions.length - 1 ≠ i := fun heq => hne (congrArg some heq)
    omega
  · rfl

theorem inv_initial : Inv (Hook.initial : Hook Request) where
  counted := fun i sub h => by cases h
  controllerRef := rfl
  older := fun i sub h => by cases h
  busy := fun i sub h => by cases h
  inFlight := fun h => by cases h
  clearedBusy := fun i sub h => by cases h
  clearedLe := Nat.le_refl 0
  clearedState := fun _ _ _ h => by cases h
  atRest := fun _ => rfl

theorem inv_submit (h : Inv s) (hmounted : s.mountedRef = true)
    (maxPollAttempts : Option JsNumber) : Inv (s.submit maxPollAttempts) := by
  have hlength : (s.submit maxPollAttempts).submissions.length = s.submissions.length + 1 := by
    rw [Hook.submit, List.length_append, abortCurrent_length, List.length_singleton]
  obtain ⟨submissions, heq⟩ := abortCurrent_eq (s := s)
  have hcleared : (s.submit maxPollAttempts).cleared ≤ s.submissions.length := by
    rw [Hook.submit, heq]
    exact h.clearedLe
  have hold {i : ℕ} {sub : Submission}
      (hsub : (s.submit maxPollAttempts).submissions[i]? = some sub)
      (hlt : i < s.submissions.length) : sub.aborted = true := by
    rcases submit_getElem? hsub with ⟨rfl, -⟩ | ⟨-, hsub⟩
    · exact absurd hlt (Nat.lt_irrefl _)
    · exact h.aborted hsub
  have hcurrent : (s.submit maxPollAttempts).controllerRef = some s.submissions.length := by
    dsimp only [Hook.submit]
    rw [abortCurrent_length]
  constructor
  · exact counted_step h.counted (e := .submit maxPollAttempts) (if_pos hmounted)
  · rw [hcurrent, if_neg (List.ne_nil_of_length_pos (by omega)), hlength, Nat.add_sub_cancel]
  · intro i sub hsub hlt
    exact hold hsub (by omega)
  · exact fun _ _ _ _ _ => rfl
  · refine fun _ => ⟨s.submissions.length, { limit := pollLimit maxPollAttempts }, ?_, ?_, rfl⟩
    · dsimp only [Hook.submit]
      rw [← abortCurrent_length, List.getElem?_concat_length]
    · rw [Hook.live, Hook.submit, heq]
      exact Bool.and_eq_true_iff.mpr ⟨hmounted, rfl⟩
  · intro i sub hsub hlive hlt
    have haborted := hold hsub (by omega)
    rw [(Hook.aborted_of_live hlive).2] at haborted
    cases haborted
  · omega
  · intro heq
    omega
  · intro h
    cases h

theorem inv_confirm (h : Inv s) (hidle : s.inFlightRef = false) (request : Request) :
    Inv (s.confirm request) where
  counted := h.counted
  controllerRef := h.controllerRef
  older := h.older
  busy := h.busy
  inFlight := h.inFlight
  clearedBusy := h.clearedBusy
  clearedLe := h.clearedLe
  clearedState := fun _ _ _ herror => by cases herror
  atRest := fun _ => hidle

theorem inv_reset (h : Inv s) (hidle : s.inFlightRef = false) : Inv s.reset where
  counted := h.counted
  controllerRef := h.controllerRef
  older := h.older
  busy := h.busy
  inFlight := h.inFlight
  clearedBusy := by
    intro i sub hsub hlive _
    by_contra hbusy
    have hinFlight := h.busy i sub hsub hlive (Bool.eq_true_of_not_eq_false hbusy)
    rw [hidle] at hinFlight
    cases hinFlight
  clearedLe := Nat.le_refl _
  clearedState := fun _ _ _ herror => by cases herror
  atRest := fun _ => hidle

theorem inv_unmount (h : Inv s) : Inv s.unmount := by
  obtain ⟨submissions, heq⟩ := abortCurrent_eq (s := s)
  have hlength : s.unmount.submissions.length = s.submissions.length := abortCurrent_length
  have hdead (sub : Submission) : s.unmount.live sub = true → False := Bool.noConfusion
  have hnil : s.unmount.submissions = [] ↔ s.submissions = [] := by
    rw [← List.length_eq_zero_iff, hlength, List.length_eq_zero_iff]
  have hcleared : s.unmount.cleared = s.cleared := by rw [Hook.unmount, heq]
  have hstate : s.unmount.state = s.state := by rw [Hook.unmount, heq]
  constructor
  · exact counted_abortCurrent h.counted
  · have href : s.unmount.controllerRef = s.controllerRef := by rw [Hook.unmount, heq]
    rw [href, h.controllerRef, hlength]
    exact if_congr hnil.symm rfl rfl
  · exact fun i sub hsub _ => h.aborted hsub
  · exact fun i sub _ hlive => (hdead sub hlive).elim
  · intro h
    cases h
  · exact fun i sub _ hlive => (hdead sub hlive).elim
  · rw [hcleared, hlength]
    exact h.clearedLe
  · rw [hcleared, hlength, hstate]
    exact h.clearedState
  · exact fun _ => rfl

theorem completions_set {s s' : Hook Request} {sub sub' : Submission}
    (hsubmissions : s'.submissions = s.submissions.set i sub')
    (hsub : s.submissions[i]? = some sub) (heq : sub'.completions = sub.completions) (j : ℕ) :
    s'.completions j = s.completions j := by
  obtain ⟨hlt, -⟩ := List.getElem?_eq_some_iff.mp hsub
  unfold Hook.completions
  rw [hsubmissions]
  by_cases hj : i = j
  · rw [← hj, List.getElem?_set_self hlt, hsub]
    exact heq
  · rw [List.getElem?_set_ne hj]

/-- A submission that is not busy resumes when `onCompleted` is left. -/
theorem resume_notBusy {c : Continuation} (hbusy : sub.phase.busy = false)
    (h : s.resume i sub sub.phase c = some s') :
    s' = s.put i { sub with phase := .done } ∨ ∃ code, c = .failed code := by
  cases hphase : sub.phase with
  | completing =>
    rw [hphase] at h
    cases c with
    | returned => exact .inl (Option.some.inj h).symm
    | failed code => exact .inr ⟨code, rfl⟩
    | accepted | answered | fired => cases h
  | done =>
    rw [hphase] at h
    cases c <;> cases h
  | enqueuing | polling | waiting =>
    rw [hphase] at hbusy
    cases hbusy

/-- A superseded submission does nothing: it is aborted, or it leaves an `onCompleted` that has
called `reset`. -/
theorem isolated_of_careful {c : Continuation} (h : Inv s) (hcareful : Careful s (.resume i c))
    (hs : step s (.resume i c) = some s') (hsuperseded : s.Superseded i) :
    s'.state = s.state ∧ ∀ j, s'.completions j = s.completions j := by
  obtain ⟨sub, sub', hsub, hresume, hr⟩ := step_resume hs
  cases hlive : s.live sub with
  | false =>
    obtain ⟨hstate, -, hcompletions⟩ := hr.dead hlive
    exact ⟨hstate, completions_set hr.submissions hsub hcompletions⟩
  | true =>
    have hcleared : i < s.cleared := by
      rcases hsuperseded with hlt | hlt
      · exact hlt
      · have := h.last hsub hlive
        omega
    rcases resume_notBusy (h.clearedBusy i sub hsub hlive hcleared) hresume with rfl | ⟨code, rfl⟩
    · exact ⟨rfl, completions_set rfl hsub rfl⟩
    · exact absurd hcleared (Nat.not_lt.mpr (hcareful sub hsub hlive))

theorem inv_resume {c : Continuation} (h : Inv s) (hcareful : Careful s (.resume i c))
    (hs : step s (.resume i c) = some s') : Inv s' := by
  obtain ⟨sub, sub', hsub, hresume, hr⟩ := step_resume hs
  have hlength : s'.submissions.length = s.submissions.length := by
    rw [hr.submissions, List.length_set]
  have hlookup {j : ℕ} {sub₂ : Submission} (h₂ : s'.submissions[j]? = some sub₂) :
      (j = i ∧ sub₂ = sub') ∨ (j ≠ i ∧ s.submissions[j]? = some sub₂) := by
    rw [hr.getElem? hsub] at h₂
    split at h₂
    · rename_i hj
      exact .inl ⟨hj, (Option.some.inj h₂).symm⟩
    · rename_i hj
      exact .inr ⟨hj, h₂⟩
  -- a live submission is the last one, so no other step can have been the current one's
  have hother {j : ℕ} {sub₂ : Submission} (hj : j ≠ i) (h₂ : s.submissions[j]? = some sub₂)
      (hlive : s.live sub₂ = true) : s.live sub = false := by
    refine Bool.eq_false_iff.mpr fun hi => hj ?_
    have := h.last h₂ hlive
    have := h.last hsub hi
    omega
  constructor
  · exact counted_step h.counted hs
  · rw [hr.controllerRef, h.controllerRef, hlength]
    exact if_congr (by rw [← List.length_eq_zero_iff, ← hlength, List.length_eq_zero_iff]) rfl rfl
  · intro j sub₂ h₂ hlt
    rw [hlength] at hlt
    rcases hlookup h₂ with ⟨rfl, rfl⟩ | ⟨-, h₂⟩
    · rw [hr.aborted]
      exact h.older j sub hsub hlt
    · exact h.older j sub₂ h₂ hlt
  · intro j sub₂ h₂ hlive hbusy
    rcases hlookup h₂ with ⟨rfl, rfl⟩ | ⟨hj, h₂⟩
    · rw [hr.live] at hlive
      cases hr.effect hlive with
      | goesOn before _ inFlight =>
        rw [inFlight]
        exact h.busy j sub hsub hlive before
      | completes _ after | fails after | returns _ after =>
        rw [after] at hbusy
        cases hbusy
    · rw [hr.live_other] at hlive
      rw [(hr.dead (hother hj h₂ hlive)).2.1]
      exact h.busy j sub₂ h₂ hlive hbusy
  · intro hinFlight
    cases hlive : s.live sub with
    | false =>
      rw [(hr.dead hlive).2.1] at hinFlight
      obtain ⟨j, sub₂, h₂, hlive₂, hbusy⟩ := h.inFlight hinFlight
      have hj : j ≠ i := by
        rintro rfl
        rw [hsub] at h₂
        cases h₂
        rw [hlive] at hlive₂
        cases hlive₂
      refine ⟨j, sub₂, ?_, ?_, hbusy⟩
      · rw [hr.getElem? hsub, if_neg hj, h₂]
      · rw [hr.live_other, hlive₂]
    | true =>
      refine ⟨i, sub', by rw [hr.getElem? hsub, if_pos rfl], by rw [hr.live, hlive], ?_⟩
      cases hr.effect hlive with
      | goesOn _ after => exact after
      | completes _ _ inFlight | fails _ inFlight =>
        rw [inFlight] at hinFlight
        cases hinFlight
      | returns before _ inFlight =>
        rw [inFlight] at hinFlight
        obtain ⟨j, sub₂, h₂, hlive₂, hbusy⟩ := h.inFlight hinFlight
        obtain rfl : j = i := by
          have := h.last h₂ hlive₂
          have := h.last hsub hlive
          omega
        rw [hsub] at h₂
        cases h₂
        rw [before] at hbusy
        cases hbusy
  · intro j sub₂ h₂ hlive hlt
    rw [hr.cleared] at hlt
    rcases hlookup h₂ with ⟨rfl, rfl⟩ | ⟨-, h₂⟩
    · rw [hr.live] at hlive
      have hnot := h.clearedBusy j sub hsub hlive hlt
      cases hr.effect hlive with
      | goesOn before =>
        rw [hnot] at before
        cases before
      | completes _ after | fails after | returns _ after => exact after
    · rw [hr.live_other] at hlive
      exact h.clearedBusy j sub₂ h₂ hlive hlt
  · rw [hr.cleared, hlength]
    exact h.clearedLe
  · intro heq code detail
    rw [hr.cleared, hlength] at heq
    have hlt : i < s.cleared := by
      obtain ⟨hlt, -⟩ := List.getElem?_eq_some_iff.mp hsub
      omega
    have hstate : s'.state = s.state := (isolated_of_careful h hcareful hs (.inl hlt)).1
    rw [hstate]
    exact h.clearedState heq code detail
  · intro hrest
    cases hlive : s.live sub with
    | false =>
      obtain ⟨hstate, hinFlight, -⟩ := hr.dead hlive
      rw [hinFlight]
      exact h.atRest (hstate ▸ hrest)
    | true =>
      cases hr.effect hlive with
      | goesOn _ _ inFlight state =>
        rw [inFlight]
        rcases state with heq | hnot
        · exact h.atRest (heq ▸ hrest)
        · rw [hnot] at hrest
          cases hrest
      | completes _ _ inFlight | fails _ inFlight => exact inFlight
      | returns _ _ inFlight state =>
        rw [inFlight]
        exact h.atRest (state ▸ hrest)

theorem inv_step {e : Event Request} (h : Inv s) (hcareful : Careful s e)
    (hs : step s e = some s') : Inv s' := by
  cases e with
  | submit maxPollAttempts =>
    obtain ⟨hmounted, hs⟩ := Option.ite_none_right_eq_some.mp hs
    cases hs
    exact inv_submit h hmounted maxPollAttempts
  | confirm request =>
    obtain ⟨-, hs⟩ := Option.ite_none_right_eq_some.mp hs
    cases hs
    exact inv_confirm h hcareful request
  | reset =>
    obtain ⟨-, hs⟩ := Option.ite_none_right_eq_some.mp hs
    cases hs
    exact inv_reset h hcareful
  | unmount =>
    obtain ⟨-, hs⟩ := Option.ite_none_right_eq_some.mp hs
    cases hs
    exact inv_unmount h
  | resume i c => exact inv_resume h hcareful hs

theorem Inv.not_completed (h : Inv s) (hinFlight : s.inFlightRef = true) : ¬s.CurrentCompleted := by
  rintro ⟨i, href, hcompletions⟩
  obtain ⟨j, sub, hsub, hlive, hbusy⟩ := h.inFlight hinFlight
  have hlast := h.last hsub hlive
  rw [h.controllerRef, if_neg (List.ne_nil_of_length_pos (by omega))] at href
  obtain rfl : i = j := by
    have := Option.some.inj href
    omega
  rw [Hook.completions, hsub] at hcompletions
  have hzero : sub.completions = 0 := (h.counted i sub hsub).none_completed hbusy
  exact absurd (hzero.symm.trans hcompletions) Nat.zero_ne_one

theorem failed_state {code : Option String} (hlive : s.live sub = true)
    (h : s.resume i sub sub.phase (.failed code) = some s') :
    ∃ code detail, s'.state = .error code detail := by
  have hsettle : s.settle i sub (errorCode code) none = s' := by
    cases hphase : sub.phase with
    | enqueuing | polling | completing =>
      rw [hphase] at h
      exact Option.some.inj h
    | waiting | done =>
      rw [hphase] at h
      cases h
  rw [← hsettle, Hook.settle, if_pos hlive]
  exact ⟨_, _, rfl⟩

/-- In the states of careful runs a step keeps what it should exactly if it is careful. -/
theorem holds_iff_careful {e : Event Request} (h : Inv s) (hs : step s e = some s') :
    Holds s s' e ↔ Careful s e := by
  constructor
  · intro hholds
    cases e with
    | submit | unmount => trivial
    | confirm | reset =>
      obtain ⟨-, hs⟩ := Option.ite_none_right_eq_some.mp hs
      cases hs
      rcases hholds.atRest rfl with hidle | hcompleted
      · exact hidle
      · exact Bool.eq_false_iff.mpr fun hinFlight => h.not_completed hinFlight hcompleted
    | resume i c =>
      cases c with
      | accepted | answered | fired | returned => trivial
      | failed code =>
        intro sub hsub hlive
        by_contra hlt
        obtain ⟨sub₂, -, hsub₂, hresume, -⟩ := step_resume hs
        rw [hsub] at hsub₂
        cases hsub₂
        have hcleared : s.cleared = s.submissions.length := by
          have := h.last hsub hlive
          have := h.clearedLe
          omega
        obtain ⟨code, detail, herror⟩ := failed_state hlive hresume
        have hstate := (hholds.isolated i _ rfl (.inl (Nat.lt_of_not_le hlt))).1
        exact h.clearedState hcleared code detail (hstate ▸ herror)
  · intro hcareful
    have h' := inv_step h hcareful hs
    have hcounted {sub : Submission} (hsub : sub ∈ s'.submissions) : sub.Counted := by
      obtain ⟨i, hi⟩ := List.mem_iff_getElem?.mp hsub
      exact h'.counted i sub hi
    refine ⟨?_, fun sub hsub => (hcounted hsub).bounds.1, fun sub hsub => (hcounted hsub).bounds.2,
      fun hrest => .inl (h'.atRest hrest)⟩
    rintro i c rfl hsuperseded
    exact isolated_of_careful h hcareful hs hsuperseded

/-- Submissions do not leak into each other in exactly the runs whose steps are all careful. In
every run `onCompleted` is called once and the polls are bounded. -/
theorem submissions_isolated {events : List (Event Request)} {s : Hook Request}
    (hrun : runAll step .initial events = some s) :
    (∀ sub ∈ s.submissions, sub.completions ≤ 1 ∧ (sub.polls : WithTop ℕ) ≤ sub.limit) ∧
      (AllOk step (fun s e => ∀ s', step s e = some s' → Holds s s' e) .initial events ↔
        AllOk step Careful .initial events) := by
  constructor
  · intro sub hsub
    have hcounted := runAll_keeps (I := AllCounted) (fun s s' e hs h => counted_step hs h)
      inv_initial.counted hrun
    obtain ⟨i, hi⟩ := List.mem_iff_getElem?.mp hsub
    exact (hcounted i sub hi).bounds
  · refine AllOk.congr (I := Inv) ?_ ?_ inv_initial hrun
    · intro s s' e h hs
      rw [← holds_iff_careful h hs]
      exact ⟨fun hall => hall s' hs,
        fun hholds s₂ hs₂ => Option.some.inj (hs.symm.trans hs₂) ▸ hholds⟩
    · exact fun s s' e h hcareful hs => inv_step h hcareful hs

/-- A job that completes and whose `onCompleted` resets the form. -/
theorem submissions_isolated_completed : ∃ s : Hook String,
    runAll step .initial [.submit (some (.finite 60)), .resume 0 (.accepted "job-1"),
      .resume 0 (.answered ⟨"completed", none⟩), .reset, .resume 0 .returned] = some s ∧
    (∀ sub ∈ s.submissions, sub.completions ≤ 1 ∧ (sub.polls : WithTop ℕ) ≤ sub.limit) ∧
    AllOk step (fun s e => ∀ s', step s e = some s' → Holds s s' e) (.initial : Hook String)
      [.submit (some (.finite 60)), .resume 0 (.accepted "job-1"),
        .resume 0 (.answered ⟨"completed", none⟩), .reset, .resume 0 .returned] := by
  have hcareful : AllOk step Careful (.initial : Hook String)
      [.submit (some (.finite 60)), .resume 0 (.accepted "job-1"),
        .resume 0 (.answered ⟨"completed", none⟩), .reset, .resume 0 .returned] :=
    .cons trivial rfl (.cons trivial rfl (.cons trivial rfl (.cons rfl rfl
      (.cons trivial rfl trivial))))
  obtain ⟨s, hrun⟩ : ∃ s : Hook String, runAll step .initial
      [.submit (some (.finite 60)), .resume 0 (.accepted "job-1"),
        .resume 0 (.answered ⟨"completed", none⟩), .reset, .resume 0 .returned] = some s := ⟨_, rfl⟩
  exact ⟨s, hrun, (submissions_isolated hrun).1, (submissions_isolated hrun).2.mpr hcareful⟩

/-- `reset` does not abort: a job that fails after it puts its error on the form. -/
theorem reset_keeps_job : ¬∀ (events : List (Event String)) (s : Hook String),
    runAll step .initial events = some s →
      AllOk step (fun s e => ∀ s', step s e = some s' → Holds s s' e) .initial events := by
  intro h
  have hrun := h [.submit (some (.finite 60)), .resume 0 (.accepted "job-1"), .reset,
    .resume 0 (.answered ⟨"failed", some "boom"⟩)] _ rfl
  have hafter := (((hrun.2 _ rfl).2 _ rfl).2 _ rfl).1
  have hstate := ((hafter _ rfl).isolated 0 _ rfl (.inl Nat.zero_lt_one)).1
  cases hstate

end Runs

end Flexi.Client
