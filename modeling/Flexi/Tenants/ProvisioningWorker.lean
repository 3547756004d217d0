import Flexi.Library.Reach
import Flexi.Tenants.Provisioning

/-!
# The provisioning job over time (provisioning.worker.ts)

One job on one worker. A run that times out is aborted and its timeout handling
takes its place, but nothing stops what the run still has in flight: it stays
behind as an aborted run, whose next call is executed and whose answers are
delivered whenever the outside pleases. A crash ends everything the process was
doing; the job is then delivered again.
-/

namespace Flexi.Tenants
open Flexi.Library

abbrev ProvisioningThread := Thread Call Call.Res Context ProvisioningError Unit

def Call.perform (outside : Outside) (aborted : Bool) (c : Call) (db : Database) :
    Except ProvisioningError c.Res × Database :=
  c.op.perform outside aborted db

/-- A run the worker has given up. `handled`: its timeout handling has executed a
statement. `fenced`: the handling has committed a terminal status. `late`: the
call the run is at was issued after that. -/
structure AbortedRun where
  thread : ProvisioningThread
  handled : Bool := false
  fenced : Bool := false
  late : Bool := false

inductive JobState where
  | waiting
  | running (run : ProvisioningThread)
  | timedOut (handling : ProvisioningThread)
  | completed
  | failed

structure Worker where
  db : Database
  job : JobState
  attemptsMade : ℕ
  aborted : List AbortedRun

/-- `attempts` is `TENANT_PROVISIONING_JOB_RETRY_COUNT`. -/
structure WorkerConfig where
  js : JsText
  attempts : ℕ

inductive WorkerEvent where
  | start (c : Context)
  | execute (outside : Outside)
  | deliver (c : Context)
  | timeout (c : Context)
  | executeAborted (i : ℕ) (outside : Outside)
  | deliverAborted (i : ℕ) (c : Context)
  | crash

namespace Worker

/-- BullMQ's decision after a failed attempt. -/
def failAttempt (cfg : WorkerConfig) (w : Worker) : Worker :=
  { w with
    attemptsMade := w.attemptsMade + 1
    job := if w.attemptsMade + 1 < cfg.attempts then .waiting else .failed }

/-- A statement of the timeout handling: from its first terminal write on, the
aborted runs are fenced. -/
def noteHandling (terminal : Bool) (run : AbortedRun) : AbortedRun :=
  { run with handled := true, fenced := run.fenced || terminal }

/-- Whether an execution of a call writes a terminal status. -/
def writesTerminal (call : Option Call) (outside : Outside) : Bool :=
  match call with
  | some ⟨_, .updateAttemptSteps status _ _⟩ => status.isTerminal && !outside.fault
  | _ => false

def step (cfg : WorkerConfig) (w : Worker) : WorkerEvent → Option Worker
  | .start c =>
    match w.job with
    | .waiting =>
      let run := (startLifecycle cfg.js w.db.attempt.id true).advance { c with aborted := false }
      some { w with job := .running run }
    | _ => none
  | .execute outside =>
    match w.job with
    | .running run =>
      (run.execute (Call.perform outside false) w.db).map fun (run', db') =>
        { w with db := db', job := .running run' }
    | .timedOut handling =>
      (handling.execute (Call.perform outside false) w.db).map fun (handling', db') =>
        { w with
          db := db'
          job := .timedOut handling'
          aborted := w.aborted.map
            (noteHandling (writesTerminal handling.op? outside)) }
    | _ => none
  | .deliver c =>
    match w.job with
    | .running run =>
      (run.deliver { c with aborted := false }).map fun run' =>
        match run' with
        | .finished (.ok _) => { w with job := .completed, attemptsMade := w.attemptsMade + 1 }
        | .finished (.error _) => w.failAttempt cfg
        | run' => { w with job := .running run' }
    | .timedOut handling =>
      (handling.deliver { c with aborted := false }).map fun handling' =>
        match handling' with
        | .finished _ => w.failAttempt cfg
        | handling' => { w with job := .timedOut handling' }
    | _ => none
  | .timeout c =>
    match w.job with
    | .running run =>
      some { w with
        job := .timedOut (recordProvisioningTimeout.advance { c with aborted := false })
        aborted := w.aborted ++ [{ thread := run }] }
    | _ => none
  | .executeAborted i outside =>
    match w.aborted[i]? with
    | some run =>
      (run.thread.execute (Call.perform outside true) w.db).map fun (thread', db') =>
        { w with db := db', aborted := w.aborted.set i { run with thread := thread' } }
    | none => none
  | .deliverAborted i c =>
    match w.aborted[i]? with
    | some run =>
      (run.thread.deliver { c with aborted := true }).map fun thread' =>
        { w with aborted := w.aborted.set i { run with thread := thread', late := run.fenced } }
    | none => none
  | .crash =>
    match w.job with
    | .running _ | .timedOut _ => some { w with job := .waiting, aborted := [] }
    | _ => some { w with aborted := [] }

/-- The job of a freshly accepted attempt: no tenant is linked to it, and nothing
exists for a tenant it might make. -/
structure Accepted (w : Worker) : Prop where
  foreign : ∀ row ∈ w.db.otherTenants, row.onboardingAttemptId ≠ some w.db.attempt.id
  status : w.db.attempt.status = .accepted
  audit : w.db.audit = none
  tenant : w.db.tenant = none
  schemas : ∀ tenantId : TenantId, w.db.schemas tenantId.schema = none
  rows : ∀ tenantId, w.db.rows tenantId = {}
  outcomes : succeeded w.db.attempt.stepOutcomes .schema_created = false
  job : w.job = .waiting
  attemptsMade : w.attemptsMade = 0
  aborted : w.aborted = []

end Worker

/-! ### A concrete job -/

def plainText : JsText := ⟨String.toLower⟩

def acmeId : TenantId := ⟨"c1", by decide +kernel⟩

def acmePayload : SafePayload := ⟨"Acme", "acme", "ann@acme.io", some "starter"⟩

/-- Every answer arrives, and the mail is delivered. -/
def quietOutside : Outside := ⟨false, ⟨true, none⟩, "P2010"⟩

def acmeContext : Context := ⟨false, 0, acmeId, "setup-token"⟩

def acmeAccepted : Database :=
  { attempt := ⟨"attempt-1", .accepted, none, acmePayload.toJson, .null, .null, []⟩
    audit := none, tenant := none, otherTenants := [], schemas := fun _ => none,
    rows := fun _ => {}, systemUserEmails := [], tenantPermissions := ["tenant.user.manage"],
    nextId := 0 }

def acmeConfig : WorkerConfig := ⟨plainText, 3⟩

def acmeJob : Worker := ⟨acmeAccepted, .waiting, 0, []⟩

theorem acmeJob_accepted : acmeJob.Accepted := by
  constructor <;> first | rfl | simp [acmeJob, acmeAccepted]

/-- The live thread's next `n` calls are executed and answered. -/
def acmeAnswers (n : ℕ) : List WorkerEvent :=
  (List.replicate n [.execute quietOutside, .deliver acmeContext]).flatten

/-- A delivery and its first `n` calls. -/
def acmeCalls (n : ℕ) : List WorkerEvent := .start acmeContext :: acmeAnswers n

/-- Events without a timeout and without an aborted run's. -/
def WorkerEvent.undisturbed : WorkerEvent → Bool
  | .start _ | .execute _ | .deliver _ | .crash => true
  | .timeout _ | .executeAborted _ _ | .deliverAborted _ _ => false

end Flexi.Tenants
