import Mathlib.Tactic

/-!
# A queue of jobs that are retried

A job is taken from its list and works through its tasks on a shared store. A task that
fails ends the attempt; the job starts again from its first task until its attempts are
used up. Any number of jobs may be under way, and anyone else may use the store between
two tasks.
-/

namespace Flexi.Library

variable {δ τ D ε : Type}

/-- `active` carries the tasks that are left of the attempt. -/
inductive Phase (τ : Type) where
  | waiting
  | active (rest : List τ)
  | delayed
  | completed
  | failed

def Phase.unfinished : Phase τ → Bool
  | .waiting | .active _ | .delayed => true
  | .completed | .failed => false

def Phase.idle : Phase τ → Bool
  | .waiting | .delayed => true
  | .active _ | .completed | .failed => false

structure Queued (δ τ : Type) where
  data : δ
  attemptsMade : ℕ
  phase : Phase τ

def Queued.unfinished (job : Queued δ τ) : Bool := job.phase.unfinished

/-- What the jobs do: the tasks of a job in order, the effect of a task, and what is noted
in the store when a task has failed. -/
structure Workload (δ τ D ε : Type) where
  tasks : δ → List τ
  run : τ → D → Except ε D
  note : τ → ε → D → D
  attempts : ℕ

/-- A step of the job at position `i`. A task may also fail for reasons of its
surroundings, and the note about it may be lost. -/
inductive Work (ε : Type) where
  | take (i : ℕ)
  | commit (i : ℕ)
  | fail (i : ℕ) (error : ε) (noted : Bool)
  | complete (i : ℕ)

section Steps

variable (W : Workload δ τ D ε)

def Queued.taken (job : Queued δ τ) : Queued δ τ :=
  { job with phase := .active (W.tasks job.data) }

def Queued.failed (job : Queued δ τ) : Queued δ τ :=
  { job with
    attemptsMade := job.attemptsMade + 1
    phase := if job.attemptsMade + 1 < W.attempts then .delayed else .failed }

def Queued.completed (job : Queued δ τ) : Queued δ τ :=
  { job with attemptsMade := job.attemptsMade + 1, phase := .completed }

/-- The next task of a job that is under way. -/
def Queued.head (job : Queued δ τ) : Option (τ × List τ) :=
  match job.phase with
  | .active (t :: rest) => some (t, rest)
  | _ => none

def Queued.worked (job : Queued δ τ) : Bool :=
  match job.phase with
  | .active [] => true
  | _ => false

def work (jobs : List (Queued δ τ)) (db : D) : Work ε → Option (List (Queued δ τ) × D)
  | .take i => do
    let job ← jobs[i]?
    if job.phase.idle then some (jobs.set i (job.taken W), db) else none
  | .commit i => do
    let job ← jobs[i]?
    let (t, rest) ← job.head
    match W.run t db with
    | .ok db' => some (jobs.set i { job with phase := .active rest }, db')
    | .error _ => none
  | .fail i error noted => do
    let job ← jobs[i]?
    let (t, _) ← job.head
    some (jobs.set i (job.failed W), if noted then W.note t error db else db)
  | .complete i => do
    let job ← jobs[i]?
    if job.worked then some (jobs.set i job.completed, db) else none

/-- The four kinds of step, with the job before and after. -/
inductive Worked (db : D) (i : ℕ) (job : Queued δ τ) : Work ε → Queued δ τ → D → Prop
  | take : job.phase.idle = true → Worked db i job (.take i) (job.taken W) db
  | commit {t : τ} {rest : List τ} {db' : D} : job.phase = .active (t :: rest) →
      W.run t db = .ok db' → Worked db i job (.commit i) { job with phase := .active rest } db'
  | fail {t : τ} {rest : List τ} (error : ε) (noted : Bool) : job.phase = .active (t :: rest) →
      Worked db i job (.fail i error noted) (job.failed W) (if noted then W.note t error db else db)
  | complete : job.phase = .active [] → Worked db i job (.complete i) job.completed db

end Steps

section Facts

variable {W : Workload δ τ D ε} {jobs jobs' : List (Queued δ τ)} {db db' : D}
  {job job' : Queued δ τ} {w : Work ε} {i : ℕ}

theorem Queued.head_eq_some {t : τ} {rest : List τ} :
    job.head = some (t, rest) ↔ job.phase = .active (t :: rest) := by
  unfold Queued.head
  constructor
  · intro h
    split at h
    · rename_i hphase
      cases h
      exact hphase
    · cases h
  · intro h
    rw [h]

theorem Queued.worked_iff : job.worked = true ↔ job.phase = .active [] := by
  unfold Queued.worked
  constructor
  · intro h
    split at h
    · assumption
    · cases h
  · intro h
    rw [h]

theorem worked_of_work (h : work W jobs db w = some (jobs', db')) :
    ∃ i job job', jobs[i]? = some job ∧ jobs' = jobs.set i job' ∧ Worked W db i job w job' db' := by
  cases w with
  | take i =>
    obtain ⟨job, hjob, h⟩ := Option.bind_eq_some_iff.mp h
    split at h
    · rename_i hidle
      cases h
      exact ⟨i, job, _, hjob, rfl, .take hidle⟩
    · cases h
  | commit i =>
    obtain ⟨job, hjob, h⟩ := Option.bind_eq_some_iff.mp h
    obtain ⟨⟨t, rest⟩, hhead, h⟩ := Option.bind_eq_some_iff.mp h
    dsimp only at h
    split at h
    · rename_i hrun
      cases h
      exact ⟨i, job, _, hjob, rfl, .commit (Queued.head_eq_some.mp hhead) hrun⟩
    · cases h
  | fail i error noted =>
    obtain ⟨job, hjob, h⟩ := Option.bind_eq_some_iff.mp h
    obtain ⟨⟨t, rest⟩, hhead, h⟩ := Option.bind_eq_some_iff.mp h
    cases h
    exact ⟨i, job, _, hjob, rfl, .fail error noted (Queued.head_eq_some.mp hhead)⟩
  | complete i =>
    obtain ⟨job, hjob, h⟩ := Option.bind_eq_some_iff.mp h
    split at h
    · rename_i hworked
      cases h
      exact ⟨i, job, _, hjob, rfl, .complete (Queued.worked_iff.mp hworked)⟩
    · cases h

namespace Worked

theorem data (h : Worked W db i job w job' db') : job'.data = job.data := by
  cases h <;> rfl

theorem unfinished (h : Worked W db i job w job' db') : job.unfinished = true := by
  unfold Queued.unfinished
  cases h with
  | take hidle =>
    revert hidle
    cases job.phase <;> simp [Phase.idle, Phase.unfinished]
  | commit hphase | fail _ _ hphase | complete hphase =>
    rw [hphase]
    rfl

end Worked

theorem mem_set_job {k : Queued δ τ} (h : k ∈ jobs.set i job') : k = job' ∨ k ∈ jobs :=
  (List.mem_or_eq_of_mem_set h).symm

/-- What is left of an attempt is the end of the job's tasks. -/
def Queued.Aligned (W : Workload δ τ D ε) (job : Queued δ τ) : Prop :=
  ∀ rest, job.phase = .active rest → rest <:+ W.tasks job.data

theorem Worked.aligned (h : Worked W db i job w job' db') (ha : job.Aligned W) : job'.Aligned W :=
  by
  cases h with
  | take =>
    intro rest hphase
    cases hphase
    exact List.suffix_refl _
  | commit hphase =>
    intro rest' hphase'
    cases hphase'
    exact (List.suffix_cons _ _).trans (ha _ hphase)
  | fail error noted hphase =>
    intro rest hphase'
    have hend : (job.failed W).phase ≠ .active rest := by
      unfold Queued.failed
      split <;> simp
    exact absurd hphase' hend
  | complete =>
    intro rest hphase
    cases hphase

theorem Queued.Aligned.head_mem {t : τ} {rest : List τ} (ha : job.Aligned W)
    (h : job.phase = .active (t :: rest)) : t ∈ W.tasks job.data :=
  (ha _ h).subset List.mem_cons_self

end Facts

end Flexi.Library
