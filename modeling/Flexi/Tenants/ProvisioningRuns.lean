import Flexi.Tenants.ProvisioningOutlines
import Flexi.Tenants.ProvisioningWorker

/-!
# Invariants of the provisioning job

What has to be shown once about the code for a property to hold in every run of
the job: the outlines of the lifecycle and of the timeout handling, and that what
aborted runs still do does not disturb them.
-/

namespace Flexi.Tenants
open Flexi.Library

/-- A restriction of the runs of the job: which executions of the live thread's
calls, which of an aborted run's, which timeouts (by the call the run is at) and
which crashes it admits. -/
structure Condition where
  execute : Call → Database → Outside → Prop
  late : AbortedRun → Call → Database → Prop
  timeout : Call → Database → Prop
  crash : Database → Prop

namespace Worker

def liveCall? (w : Worker) : Option Call :=
  match w.job with
  | .running thread | .timedOut thread => thread.op?
  | .waiting | .completed | .failed => none

/-- The live thread is safe; when there is none, what the last one left holds. -/
def Holds (R : Regime) (always resting ended : Database → Prop) (w : Worker) : Prop :=
  always w.db ∧
  match w.job with
  | .running thread | .timedOut thread =>
    thread.op? ≠ none ∧ thread.Safe R.rules (fun _ => ended) (fun _ => ended) w.db
  | .waiting => resting w.db
  | .completed | .failed => ended w.db

end Worker

def Condition.Ok (C : Condition) (w : Worker) : WorkerEvent → Prop
  | .execute outside => ∀ c, w.liveCall? = some c → C.execute c w.db outside
  | .executeAborted i _ => ∀ run c, w.aborted[i]? = some run → run.thread.op? = some c →
      C.late run c w.db
  | .timeout _ => ∀ c, w.liveCall? = some c → C.timeout c w.db
  | .crash => C.crash w.db
  | .start _ | .deliver _ | .deliverAborted _ _ => True

/-- `always` holds at every moment, `resting` when a delivery may start, `ended`
when one has come to its end. -/
structure Discipline (js : JsText) (C : Condition) (R : Regime)
    (always resting ended : Database → Prop) : Prop where
  reads : ∀ c, R.reads c
  execute : ∀ c db outside, C.execute c db outside → R.admits c db outside
  late : ∀ run c db outside, C.late run c db → R.interfere db (c.op.perform outside true db).2
  always_keep : ∀ db db', R.guarantee db db' → always db → always db'
  always_stable : R.Stable always
  resting_stable : R.Stable resting
  ended_stable : R.Stable ended
  ended_resting : ∀ db, ended db → resting db
  start : ∀ attemptId db, always db → resting db → Safe R.rules (fun _ => ended) (fun _ => ended)
    (startLifecycle js attemptId true) db
  timeout : ∀ c db, C.timeout c db → always db →
    Safe R.rules (fun _ => ended) (fun _ => ended) recordProvisioningTimeout db
  crash : ∀ db, C.crash db → always db → resting db

theorem startLifecycle_awaits (js : JsText) (attemptId : String) {c : Context}
    (hc : c.aborted = false) :
    ∃ k, (startLifecycle js attemptId true).advance c =
      .awaiting ⟨.lifecycle, .findTenantByAttemptId⟩ k := by
  simp only [startLifecycle, throwIfProvisioningCancelled, Prog.read, Prog.ask_bind, Prog.ret_bind,
    Prog.pure_eq, Prog.advance, hc, Bool.and_false, Bool.false_eq_true, if_false]
  exact ⟨_, rfl⟩

theorem recordProvisioningTimeout_awaits (c : Context) :
    ∃ outcomes k, recordProvisioningTimeout.advance c =
      .awaiting ⟨.timeout, .updateAttemptSteps .failed outcomes false⟩ k :=
  ⟨_, _, rfl⟩

namespace Discipline

variable {cfg : WorkerConfig} {C : Condition} {R : Regime}
  {always resting ended : Database → Prop} {w w' : Worker} {e : WorkerEvent}

/-- What a step does to the database. -/
def Changes (R : Regime) (db db' : Database) : Prop :=
  db' = db ∨ R.guarantee db db' ∨ R.interfere db db'

/-- A live thread that waits for an answer and is safe. -/
def Live (R : Regime) (ended : Database → Prop) (thread : ProvisioningThread) (db : Database) :
    Prop :=
  thread.op? ≠ none ∧ thread.Safe R.rules (fun _ => ended) (fun _ => ended) db

theorem Live.started {thread : ProvisioningThread} {p : Provisioning Unit} {c : Context}
    {db : Database} (hreads : ∀ c, R.reads c) (hc : c.aborted = false)
    (ht : p.advance c = thread) (hne : thread.op? ≠ none)
    (h : Safe R.rules (fun _ => ended) (fun _ => ended) p db) : Live R ended thread db := by
  subst ht
  exact ⟨hne, Thread.Safe.advance ⟨hc, hreads c⟩ h⟩

theorem Live.executed {thread thread' : ProvisioningThread} {db db' : Database} {outside : Outside}
    (h : Live R ended thread db) (hok : ∀ c, thread.op? = some c → R.admits c db outside)
    (hx : thread.execute (Call.perform outside false) db = some (thread', db')) :
    R.guarantee db db' ∧ Live R ended thread' db' := by
  have hexec : ∀ c, thread.op? = some c →
      R.rules.exec c db (Call.perform outside false c db).2 (Call.perform outside false c db).1 :=
    fun c hc => ⟨outside, hok c hc, rfl⟩
  obtain ⟨hg, hsafe⟩ := Thread.Safe.execute hexec h.2 hx
  refine ⟨hg, ?_, hsafe⟩
  cases thread with
  | awaiting o k =>
    cases hx
    simp [Thread.op?]
  | answered o r k => cases hx
  | finished r => cases hx

theorem Live.delivered {thread thread' : ProvisioningThread} {db : Database} {c : Context}
    (h : Live R ended thread db) (hreads : ∀ c, R.reads c) (hc : c.aborted = false)
    (hx : thread.deliver c = some thread') :
    match thread' with
    | .finished _ => ended db
    | thread' => Live R ended thread' db := by
  have hsees : R.rules.sees c := ⟨hc, hreads c⟩
  have hsafe := Thread.Safe.deliver hsees h.2 hx
  cases thread' with
  | awaiting o k => exact ⟨by simp [Thread.op?], hsafe⟩
  | answered o r k => exact ⟨by simp [Thread.op?], hsafe⟩
  | finished r => cases r <;> exact hsafe

theorem Live.interfered {thread : ProvisioningThread} {db db' : Database}
    (h : Live R ended thread db) (hi : R.interfere db db') : Live R ended thread db' :=
  ⟨h.1, h.2.interfere (.single hi) h.1⟩

theorem Holds.interfered (hD : Discipline cfg.js C R always resting ended)
    (h : w.Holds R always resting ended) {db' : Database} (hi : R.interfere w.db db')
    (aborted : List AbortedRun) :
    ({ w with db := db', aborted := aborted } : Worker).Holds R always resting ended := by
  obtain ⟨halways, hjob⟩ := h
  refine ⟨hD.always_stable _ _ halways hi, ?_⟩
  cases hj : w.job <;> simp only [hj] at hjob ⊢
  · exact hD.resting_stable _ _ hjob hi
  · exact Live.interfered hjob hi
  · exact Live.interfered hjob hi
  · exact hD.ended_stable _ _ hjob hi
  · exact hD.ended_stable _ _ hjob hi

theorem holds_failAttempt (hD : Discipline cfg.js C R always resting ended) (ha : always w.db)
    (h : ended w.db) : (w.failAttempt cfg).Holds R always resting ended := by
  refine ⟨ha, ?_⟩
  unfold Worker.failAttempt
  by_cases hr : w.attemptsMade + 1 < cfg.attempts
  · simp only [hr, if_true]
    exact hD.ended_resting _ h
  · simp only [hr, if_false]
    exact h

theorem step_start {c : Context} (hD : Discipline cfg.js C R always resting ended)
    (h : w.Holds R always resting ended) (hs : Worker.step cfg w (.start c) = some w') :
    w'.Holds R always resting ended ∧ w'.db = w.db := by
  obtain ⟨halways, hjob⟩ := h
  cases hj : w.job <;> simp only [Worker.step, hj, reduceCtorEq] at hs hjob
  cases hs
  obtain ⟨k, hk⟩ := startLifecycle_awaits cfg.js w.db.attempt.id (c := { c with aborted := false })
    rfl
  have hlive : Live R ended _ w.db := Live.started hD.reads rfl hk (by simp [Thread.op?])
    (hD.start _ w.db halways hjob)
  refine ⟨⟨halways, ?_⟩, rfl⟩
  simp only [hk]
  exact hlive

theorem step_execute {outside : Outside} (hD : Discipline cfg.js C R always resting ended)
    (h : w.Holds R always resting ended) (hok : C.Ok w (.execute outside))
    (hs : Worker.step cfg w (.execute outside) = some w') :
    w'.Holds R always resting ended ∧ R.guarantee w.db w'.db := by
  obtain ⟨halways, hjob⟩ := h
  cases hj : w.job <;> simp only [Worker.step, hj, reduceCtorEq] at hs hjob
  all_goals
    obtain ⟨⟨thread', db'⟩, hx, hw⟩ := Option.map_eq_some_iff.mp hs
    cases hw
    obtain ⟨hg, hlive⟩ := Live.executed hjob
      (fun c hc => hD.execute _ _ _ (hok c (by simpa [Worker.liveCall?, hj] using hc))) hx
    exact ⟨⟨hD.always_keep _ _ hg halways, hlive⟩, hg⟩

theorem step_deliver {c : Context} (hD : Discipline cfg.js C R always resting ended)
    (h : w.Holds R always resting ended) (hs : Worker.step cfg w (.deliver c) = some w') :
    w'.Holds R always resting ended ∧ w'.db = w.db := by
  obtain ⟨halways, hjob⟩ := h
  cases hj : w.job <;> simp only [Worker.step, hj, reduceCtorEq] at hs hjob
  · obtain ⟨thread', hx, hw⟩ := Option.map_eq_some_iff.mp hs
    have hlive := Live.delivered hjob hD.reads rfl hx
    cases thread' with
    | awaiting o k =>
      cases hw
      exact ⟨⟨halways, hlive⟩, rfl⟩
    | answered o r k =>
      cases hw
      exact ⟨⟨halways, hlive⟩, rfl⟩
    | finished r =>
      cases r <;> cases hw
      · exact ⟨holds_failAttempt hD halways hlive, rfl⟩
      · exact ⟨⟨halways, hlive⟩, rfl⟩
  · obtain ⟨thread', hx, hw⟩ := Option.map_eq_some_iff.mp hs
    have hlive := Live.delivered hjob hD.reads rfl hx
    cases thread' with
    | awaiting o k =>
      cases hw
      exact ⟨⟨halways, hlive⟩, rfl⟩
    | answered o r k =>
      cases hw
      exact ⟨⟨halways, hlive⟩, rfl⟩
    | finished r =>
      cases hw
      exact ⟨holds_failAttempt hD halways hlive, rfl⟩

theorem step_timeout {c : Context} (hD : Discipline cfg.js C R always resting ended)
    (h : w.Holds R always resting ended) (hok : C.Ok w (.timeout c))
    (hs : Worker.step cfg w (.timeout c) = some w') :
    w'.Holds R always resting ended ∧ w'.db = w.db := by
  obtain ⟨halways, hjob⟩ := h
  cases hj : w.job <;> simp only [Worker.step, hj, reduceCtorEq] at hs hjob
  rename_i thread
  cases hs
  obtain ⟨call, hcall⟩ := Option.ne_none_iff_exists'.mp hjob.1
  have htime := hok call (by simp [Worker.liveCall?, hj, hcall])
  obtain ⟨outcomes, k, hk⟩ := recordProvisioningTimeout_awaits { c with aborted := false }
  have hlive : Live R ended _ w.db := Live.started hD.reads rfl hk (by simp [Thread.op?])
    (hD.timeout _ w.db htime halways)
  refine ⟨⟨halways, ?_⟩, rfl⟩
  simp only [hk]
  exact hlive

theorem step_executeAborted {i : ℕ} {outside : Outside}
    (hD : Discipline cfg.js C R always resting ended) (h : w.Holds R always resting ended)
    (hok : C.Ok w (.executeAborted i outside))
    (hs : Worker.step cfg w (.executeAborted i outside) = some w') :
    w'.Holds R always resting ended ∧ R.interfere w.db w'.db := by
  simp only [Worker.step] at hs
  split at hs
  · rename_i run hrun
    obtain ⟨⟨thread', db'⟩, hx, hw⟩ := Option.map_eq_some_iff.mp hs
    cases hw
    cases ht : run.thread with
    | awaiting o k =>
      rw [ht] at hx
      cases hx
      have hi := hD.late run o w.db outside (hok run o hrun (by simp [ht, Thread.op?]))
      exact ⟨Holds.interfered hD h hi _, hi⟩
    | answered o r k =>
      rw [ht] at hx
      cases hx
    | finished r =>
      rw [ht] at hx
      cases hx
  · cases hs

theorem step (hD : Discipline cfg.js C R always resting ended)
    (h : w.Holds R always resting ended) (hok : C.Ok w e) (hs : Worker.step cfg w e = some w') :
    w'.Holds R always resting ended ∧ Changes R w.db w'.db := by
  cases e with
  | start c =>
    obtain ⟨hw, hdb⟩ := step_start hD h hs
    exact ⟨hw, .inl hdb⟩
  | execute outside =>
    obtain ⟨hw, hg⟩ := step_execute hD h hok hs
    exact ⟨hw, .inr (.inl hg)⟩
  | deliver c =>
    obtain ⟨hw, hdb⟩ := step_deliver hD h hs
    exact ⟨hw, .inl hdb⟩
  | timeout c =>
    obtain ⟨hw, hdb⟩ := step_timeout hD h hok hs
    exact ⟨hw, .inl hdb⟩
  | executeAborted i outside =>
    obtain ⟨hw, hi⟩ := step_executeAborted hD h hok hs
    exact ⟨hw, .inr (.inr hi)⟩
  | deliverAborted i c =>
    simp only [Worker.step] at hs
    split at hs
    · obtain ⟨thread', hx, hw⟩ := Option.map_eq_some_iff.mp hs
      cases hw
      exact ⟨h, .inl rfl⟩
    · cases hs
  | crash =>
    obtain ⟨halways, hjob⟩ := h
    cases hj : w.job <;> simp only [Worker.step, hj] at hs hjob <;> cases hs
    · exact ⟨⟨halways, by simpa [hj] using hjob⟩, .inl rfl⟩
    · exact ⟨⟨halways, hD.crash _ hok halways⟩, .inl rfl⟩
    · exact ⟨⟨halways, hD.crash _ hok halways⟩, .inl rfl⟩
    · exact ⟨⟨halways, by simpa [hj] using hjob⟩, .inl rfl⟩
    · exact ⟨⟨halways, by simpa [hj] using hjob⟩, .inl rfl⟩

theorem reach {w₀ : Worker} (hD : Discipline cfg.js C R always resting ended)
    (hr : Reach (Worker.step cfg) C.Ok w₀ w) (h₀ : w₀.Holds R always resting ended) :
    w.Holds R always resting ended :=
  hr.invariant h₀ fun _ _ _ _ h hok hs => (hD.step h hok hs).1

end Discipline
end Flexi.Tenants
