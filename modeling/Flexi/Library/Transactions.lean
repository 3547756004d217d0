import Mathlib.Tactic

/-!
# Programs of database transactions that may fail

A program works on a store of type `D` through transactions. A transaction
either commits its body's new store or leaves the store as it was; it fails when
its body fails and also when the environment says so. What the environment does
is a script, one entry for each transaction or single write of the program, so
that a statement over all scripts covers every placement of failures.
-/

namespace Flexi.Library

/-- `faults` scripts the coming writes (`some e`: that write fails with `e`; an
exhausted script lets everything through). `committed` counts the transactions
that took effect. -/
structure TxState (D : Type) where
  store : D
  faults : List (Option String)
  committed : ℕ

abbrev TxProg (D α : Type) := ExceptT String (StateM (TxState D)) α

namespace TxProg

variable {D α β : Type}

/-- Runs a program from a state. -/
def exec (x : TxProg D α) (s : TxState D) : Except String α × TxState D := x.run.run s

/-- One write with effect `body`, rolled back when it fails. -/
def write (body : D → Except String D) : TxProg D Unit := ExceptT.mk fun s =>
  match s.faults.headD none with
  | some e => (.error e, { s with faults := s.faults.tail })
  | none => match body s.store with
    | .error e => (.error e, { s with faults := s.faults.tail })
    | .ok d => (.ok (), { s with store := d, faults := s.faults.tail })

/-- A write that is counted. -/
def transaction (body : D → Except String D) : TxProg D Unit := do
  write body
  modify fun s => { s with committed := s.committed + 1 }

theorem exec_bind (x : TxProg D α) (f : α → TxProg D β) (s : TxState D) :
    (x >>= f).exec s = match x.exec s with
      | (.ok a, s') => (f a).exec s'
      | (.error e, s') => (.error e, s') := by
  unfold exec ExceptT.run StateT.run
  simp only [bind, ExceptT.bind, ExceptT.mk, StateT.bind, ExceptT.bindCont]
  cases x s with
  | mk r s' => cases r <;> rfl

theorem exec_tryCatch (x : TxProg D α) (f : String → TxProg D α) (s : TxState D) :
    (tryCatch x f : TxProg D α).exec s = match x.exec s with
      | (.ok a, s') => (.ok a, s')
      | (.error e, s') => (f e).exec s' := by
  unfold exec ExceptT.run StateT.run
  simp only [tryCatch, tryCatchThe, MonadExceptOf.tryCatch, ExceptT.tryCatch, ExceptT.mk, bind,
    StateT.bind]
  cases x s with
  | mk r s' => cases r <;> rfl

theorem exec_write (body : D → Except String D) (s : TxState D) :
    (write body).exec s = match s.faults.headD none with
      | some e => (.error e, { s with faults := s.faults.tail })
      | none => match body s.store with
        | .error e => (.error e, { s with faults := s.faults.tail })
        | .ok d => (.ok (), { s with store := d, faults := s.faults.tail }) := rfl

theorem exec_write_ok {body : D → Except String D} {s : TxState D} {d : D}
    (hfault : s.faults.headD none = none) (h : body s.store = .ok d) :
    (write body).exec s = (.ok (), { s with store := d, faults := s.faults.tail }) := by
  rw [exec_write, hfault]
  simp only [h]

theorem exec_write_error {body : D → Except String D} {s : TxState D} {e : String}
    (hfault : s.faults.headD none = none) (h : body s.store = .error e) :
    (write body).exec s = (.error e, { s with faults := s.faults.tail }) := by
  rw [exec_write, hfault]
  simp only [h]

/-- A transaction that fails leaves the store as it was. -/
theorem store_of_exec_transaction_error {body : D → Except String D} {s s' : TxState D}
    {e : String} (h : (transaction body).exec s = (.error e, s')) : s'.store = s.store := by
  rw [transaction, exec_bind, exec_write] at h
  cases hfault : s.faults.headD none with
  | some e' =>
    rw [hfault] at h
    cases h
    rfl
  | none =>
    rw [hfault] at h
    cases hbody : body s.store with
    | error e' =>
      rw [hbody] at h
      cases h
      rfl
    | ok d =>
      rw [hbody] at h
      cases h

/-! ### Pre- and postconditions -/

/-- From a state in `P` the program ends in `Q` when it returns and in `E` when
it throws. -/
def Triple (P : TxState D → Prop) (x : TxProg D α) (Q : α → TxState D → Prop)
    (E : TxState D → Prop) : Prop :=
  ∀ s, P s → match x.exec s with
    | (.ok a, s') => Q a s'
    | (.error _, s') => E s'

namespace Triple

variable {P P' : TxState D → Prop} {Q Q' : α → TxState D → Prop} {E E' : TxState D → Prop}

theorem conseq {x : TxProg D α} (h : Triple P x Q E) (hP : ∀ s, P' s → P s)
    (hQ : ∀ a s, Q a s → Q' a s) (hE : ∀ s, E s → E' s) : Triple P' x Q' E' := by
  intro s hs
  have hx := h s (hP s hs)
  revert hx
  cases x.exec s with
  | mk r s' =>
    cases r with
    | ok a => exact fun hq => hQ a s' hq
    | error e => exact fun he => hE s' he

theorem pure {a : α} (h : ∀ s, P s → Q a s) : Triple P (Pure.pure a : TxProg D α) Q E :=
  fun s hs => h s hs

theorem throw {e : String} (h : ∀ s, P s → E s) :
    Triple P (MonadExcept.throw e : TxProg D α) Q E :=
  fun s hs => h s hs

theorem bind {x : TxProg D α} {f : α → TxProg D β} {R : β → TxState D → Prop}
    (hx : Triple P x Q E) (hf : ∀ a, Triple (Q a) (f a) R E) : Triple P (x >>= f) R E := by
  intro s hs
  have h := hx s hs
  rw [exec_bind]
  revert h
  cases x.exec s with
  | mk r s' =>
    cases r with
    | ok a => exact fun hq => hf a s' hq
    | error e => exact fun he => he

theorem tryCatch {x : TxProg D α} {f : String → TxProg D α} {M : TxState D → Prop}
    (hx : Triple P x Q M) (hf : ∀ e, Triple M (f e) Q E) :
    Triple P (MonadExcept.tryCatch x f) Q E := by
  intro s hs
  have h := hx s hs
  rw [exec_tryCatch]
  revert h
  cases x.exec s with
  | mk r s' =>
    cases r with
    | ok a => exact fun hq => hq
    | error e => exact fun he => hf e s' he

theorem write {body : D → Except String D} {Q : Unit → TxState D → Prop}
    (commit : ∀ s d fs, P s → body s.store = .ok d → Q () { s with store := d, faults := fs })
    (rollback : ∀ s fs, P s → E { s with faults := fs }) : Triple P (TxProg.write body) Q E := by
  intro s hs
  rw [exec_write]
  cases s.faults.headD none with
  | some e => exact rollback s _ hs
  | none =>
    cases hb : body s.store with
    | error e => exact rollback s _ hs
    | ok d => exact commit s d _ hs hb

theorem transaction {body : D → Except String D} {Q : Unit → TxState D → Prop}
    (commit : ∀ s d fs, P s → body s.store = .ok d →
      Q () { store := d, faults := fs, committed := s.committed + 1 })
    (rollback : ∀ s fs, P s → E { s with faults := fs }) :
    Triple P (TxProg.transaction body) Q E := by
  refine bind (Q := fun _ s => Q () { s with committed := s.committed + 1 }) (write ?_ rollback) ?_
  · intro s d fs hs hb
    exact commit s d fs hs hb
  · intro _ s hs
    exact hs

/-- The loop rule: `I done` holds after the items `done` have been worked off. -/
theorem forM {items : List β} {f : β → TxProg D PUnit} {I : List β → TxState D → Prop}
    (step : ∀ before b after, items = before ++ b :: after →
      Triple (I before) (f b) (fun _ => I (before ++ [b])) E) :
    Triple (I []) (items.forM f) (fun _ => I items) E := by
  suffices h : ∀ before after, items = before ++ after →
      Triple (I before) (after.forM f) (fun _ => I items) E from h [] items rfl
  intro before after
  induction after generalizing before with
  | nil =>
    intro he
    rw [List.append_nil] at he
    subst he
    exact pure fun s hs => hs
  | cons b after ih =>
    intro he
    refine bind (step before b after he) fun _ => ?_
    exact ih (before ++ [b]) (by rw [he, List.append_assoc, List.singleton_append])

end Triple

/-! ### Runs without faults -/

/-- Where nothing fails from outside, a program that starts on a store in `P` returns, and
leaves a store in `Q`. -/
def Succeeds (P : D → Prop) (x : TxProg D α) (Q : D → Prop) : Prop :=
  ∀ s, P s.store → s.faults = [] → ∃ a s', x.exec s = (.ok a, s') ∧ s'.faults = [] ∧ Q s'.store

namespace Succeeds

variable {P Q R : D → Prop}

theorem pure {a : α} : Succeeds P (Pure.pure a : TxProg D α) P :=
  fun s hs hf => ⟨a, s, rfl, hf, hs⟩

theorem bind {x : TxProg D α} {f : α → TxProg D β} (hx : Succeeds P x Q)
    (hf : ∀ a, Succeeds Q (f a) R) : Succeeds P (x >>= f) R := by
  intro s hs hfaults
  obtain ⟨a, s', hexec, hfaults', hs'⟩ := hx s hs hfaults
  rw [exec_bind, hexec]
  exact hf a s' hs' hfaults'

theorem tryCatch {x : TxProg D α} {f : String → TxProg D α} (hx : Succeeds P x Q) :
    Succeeds P (MonadExcept.tryCatch x f) Q := by
  intro s hs hfaults
  obtain ⟨a, s', hexec, hs'⟩ := hx s hs hfaults
  refine ⟨a, s', ?_, hs'⟩
  have hcatch := exec_tryCatch x f s
  rw [hexec] at hcatch
  exact hcatch

theorem write {body : D → Except String D} (h : ∀ d, P d → ∃ d', body d = .ok d' ∧ Q d') :
    Succeeds P (TxProg.write body) Q := by
  intro s hs hfaults
  obtain ⟨d', hbody, hd'⟩ := h s.store hs
  have hnone : s.faults.headD none = none := by
    rw [hfaults]
    rfl
  refine ⟨(), _, exec_write_ok hnone hbody, ?_, hd'⟩
  rw [hfaults]
  rfl

theorem transaction {body : D → Except String D} (h : ∀ d, P d → ∃ d', body d = .ok d' ∧ Q d') :
    Succeeds P (TxProg.transaction body) Q :=
  bind (write h) fun _ s hs hf => ⟨(), { s with committed := s.committed + 1 }, rfl, hf, hs⟩

end Succeeds
end TxProg
end Flexi.Library
