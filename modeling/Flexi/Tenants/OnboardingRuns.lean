import Flexi.Library.Protocol
import Flexi.Library.Slots
import Flexi.Tenants.Onboarding

/-!
# Runs of onboarding requests

However the requests fall among one another and among the worker's writes, a key has one
attempt and an attempt one job.
-/

namespace Flexi.Tenants.Onboarding
open Flexi.Library

/-! ### What every statement keeps -/

def Database.HasJob (db : Database) (attemptId : String) : Prop :=
  ∃ job ∈ db.queue, job.attemptId = attemptId

/-- Keys, ids and job ids name one row each, and only an attempt with a job has been begun. -/
structure Database.Sound (db : Database) : Prop where
  ids : (db.attempts.map (·.id)).Nodup
  keys : (db.attempts.map (·.idempotencyKey)).Nodup
  jobIds : (db.queue.map (·.jobId)).Nodup
  jobs : ∀ job ∈ db.queue, job.jobId = jobIdForAttempt job.attemptId
  begun : ∀ row ∈ db.attempts, row.status ≠ .accepted → db.HasJob row.id

/-- The attempt is there, with the payload it was made for. -/
def Database.Stands (db : Database) (row : AttemptRow) : Prop :=
  ∃ row' ∈ db.attempts, row'.id = row.id ∧ row'.idempotencyKey = row.idempotencyKey ∧
    row'.safePayload = row.safePayload

/-- The attempt was there before, with its key and its payload. -/
def Database.Had (db : Database) (row : AttemptRow) : Prop :=
  ∃ old ∈ db.attempts, old.idempotencyKey = row.idempotencyKey ∧ old.safePayload = row.safePayload

/-- Attempts and jobs are there to stay. -/
structure Database.Grows (db db' : Database) : Prop where
  sound : db.Sound → db'.Sound
  rows : ∀ row ∈ db.attempts, db'.Stands row
  jobs : ∀ attemptId, db.HasJob attemptId → db'.HasJob attemptId

namespace Database

variable {db db' : Database} {row : AttemptRow}

theorem Grows.refl (db : Database) : db.Grows db :=
  ⟨fun h => h, fun row hrow => ⟨row, hrow, rfl, rfl, rfl⟩, fun _ h => h⟩

theorem Grows.stands (h : db.Grows db') (hrow : db.Stands row) : db'.Stands row := by
  obtain ⟨old, hold, hid, hkey, hpayload⟩ := hrow
  obtain ⟨new, hnew, hid', hkey', hpayload'⟩ := h.rows old hold
  exact ⟨new, hnew, hid'.trans hid, hkey'.trans hkey, hpayload'.trans hpayload⟩

theorem stands_of_mem (h : row ∈ db.attempts) : db.Stands row := ⟨row, h, rfl, rfl, rfl⟩

theorem had_of_mem (h : row ∈ db.attempts) : db.Had row := ⟨row, h, rfl, rfl⟩

theorem had_map {f : AttemptRow → AttemptRow}
    (hkey : ∀ row, (f row).idempotencyKey = row.idempotencyKey)
    (hpayload : ∀ row, (f row).safePayload = row.safePayload) (h : row ∈ db.attempts.map f) :
    db.Had row := by
  obtain ⟨old, hold, rfl⟩ := List.mem_map.mp h
  exact ⟨old, hold, (hkey old).symm, (hpayload old).symm⟩

theorem Grows.map {f : AttemptRow → AttemptRow} (hid : ∀ row, (f row).id = row.id)
    (hkey : ∀ row, (f row).idempotencyKey = row.idempotencyKey)
    (hpayload : ∀ row, (f row).safePayload = row.safePayload)
    (hbegun : ∀ row ∈ db.attempts, (f row).status ≠ .accepted → row.status = .accepted →
      db.HasJob row.id) :
    db.Grows { db with attempts := db.attempts.map f } where
  sound h := by
    refine ⟨?_, ?_, h.jobIds, h.jobs, fun row hrow hstatus => ?_⟩
    · have hids : (db.attempts.map f).map (·.id) = db.attempts.map (·.id) := by
        rw [List.map_map]
        exact List.map_congr_left fun row _ => hid row
      rw [hids]
      exact h.ids
    · have hkeys : (db.attempts.map f).map (·.idempotencyKey) = db.attempts.map (·.idempotencyKey) := by
        rw [List.map_map]
        exact List.map_congr_left fun row _ => hkey row
      rw [hkeys]
      exact h.keys
    · obtain ⟨old, hold, rfl⟩ := List.mem_map.mp hrow
      rw [hid]
      by_cases hold' : old.status = .accepted
      · exact hbegun old hold hstatus hold'
      · exact h.begun old hold hold'
  rows row hrow := ⟨f row, List.mem_map.mpr ⟨row, hrow, rfl⟩, hid row, hkey row, hpayload row⟩
  jobs _ h := h

end Database

theorem nodup_add {α β : Type} {f : α → β} {xs : List α} {x : α} (h : (xs.map f).Nodup)
    (hx : ∀ y ∈ xs, f y ≠ f x) : ((xs ++ [x]).map f).Nodup := by
  rw [List.map_append, List.nodup_append]
  refine ⟨h, List.nodup_singleton _, fun a ha b hb => ?_⟩
  obtain ⟨y, hy, rfl⟩ := List.mem_map.mp ha
  cases List.mem_singleton.mp hb
  exact hx y hy

section
variable {clock : ℕ} {outside : Outside} {op : Op} {db db' : Database}

theorem Op.perform_grows (h : db.Grows (op.effect clock db).2) :
    db.Grows (op.perform clock outside db).2 := by
  unfold Op.perform
  split
  · exact h
  · exact .refl db
  · exact h

theorem Op.perform_ok {a : op.Res} (h : (op.perform clock outside db).1 = .ok a) :
    (op.effect clock db).1 = .ok a ∧ (op.perform clock outside db).2 = (op.effect clock db).2 := by
  unfold Op.perform at h ⊢
  split at h
  · exact ⟨h, rfl⟩
  · cases h
  · cases h

theorem Op.perform_error {e : OnboardingError} (h : (op.perform clock outside db).1 = .error e) :
    ∃ v, e = .database v := by
  have heffect : ∀ e, (op.effect clock db).1 = .error e → ∃ v, e = .database v := by
    intro e he
    cases op with
    | insertAttempt row =>
      simp only [Op.effect] at he
      split at he
      · exact ⟨_, (Except.error.inj he).symm⟩
      · split at he
        · cases he
        · exact ⟨_, (Except.error.inj he).symm⟩
    | _ => cases he
  unfold Op.perform at h
  split at h
  · exact heffect e h
  · exact ⟨_, (Except.error.inj h).symm⟩
  · exact ⟨_, (Except.error.inj h).symm⟩

theorem insert_grows {row : AttemptRow} (haccepted : row.status = .accepted) :
    db.Grows ((Op.insertAttempt row).effect clock db).2 := by
  simp only [Op.effect]
  split
  · exact .refl db
  rename_i hnew
  split
  · have hfresh : ∀ old ∈ db.attempts, old.id ≠ row.id ∧ old.idempotencyKey ≠ row.idempotencyKey := by
      simpa using hnew
    refine ⟨fun h => ⟨?_, ?_, h.jobIds, h.jobs, fun other hother hstatus => ?_⟩, ?_, fun _ h => h⟩
    · exact nodup_add h.ids fun old hold => (hfresh old hold).1
    · exact nodup_add h.keys fun old hold => (hfresh old hold).2
    · rcases List.mem_append.mp hother with hold | hnew
      · exact h.begun other hold hstatus
      · cases List.mem_singleton.mp hnew
        exact absurd haccepted hstatus
    · exact fun other hother => ⟨other, List.mem_append_left _ hother, rfl, rfl, rfl⟩
  · exact .refl db

theorem link_grows {attemptId jobId : String} :
    db.Grows ((Op.linkJob attemptId jobId).effect clock db).2 := by
  refine .map (fun row => ?_) (fun row => ?_) (fun row => ?_) fun row hrow hnew hold => ?_
  · split <;> rfl
  · split <;> rfl
  · split <;> rfl
  · exfalso
    split at hnew <;> exact hnew hold

theorem add_grows {attemptId : String} :
    db.Grows ((Op.addJob attemptId (jobIdForAttempt attemptId)).effect clock db).2 := by
  simp only [Op.effect]
  split
  · exact .refl db
  rename_i hnew
  have hfresh : ∀ job ∈ db.queue, job.jobId ≠ jobIdForAttempt attemptId := by simpa using hnew
  refine ⟨fun h => ⟨h.ids, h.keys, ?_, fun job hjob => ?_, fun row hrow hstatus => ?_⟩,
    fun row hrow => ⟨row, hrow, rfl, rfl, rfl⟩, fun id ⟨job, hjob, hid⟩ => ?_⟩
  · exact nodup_add h.jobIds hfresh
  · rcases List.mem_append.mp hjob with hold | hnew
    · exact h.jobs job hold
    · cases List.mem_singleton.mp hnew
      rfl
  · obtain ⟨job, hjob, hid⟩ := h.begun row hrow hstatus
    exact ⟨job, List.mem_append_left _ hjob, hid⟩
  · exact ⟨job, List.mem_append_left _ hjob, hid⟩

/-- An attempt was there before or is the one that the call inserts. -/
theorem Op.perform_had {row : AttemptRow} (h : row ∈ (op.perform clock outside db).2.attempts) :
    db.Had row ∨ ∃ new, op = .insertAttempt new ∧ row.idempotencyKey = new.idempotencyKey ∧
      row.safePayload = new.safePayload := by
  have heffect (h : row ∈ (op.effect clock db).2.attempts) :
      db.Had row ∨ ∃ new, op = .insertAttempt new ∧ row.idempotencyKey = new.idempotencyKey ∧
        row.safePayload = new.safePayload := by
    cases op with
    | insertAttempt new =>
      simp only [Op.effect] at h
      split at h
      · exact .inl (Database.had_of_mem h)
      · split at h
        · rcases List.mem_append.mp h with hold | hnew
          · exact .inl (Database.had_of_mem hold)
          · cases List.mem_singleton.mp hnew
            exact .inr ⟨new, rfl, rfl, rfl⟩
        · exact .inl (Database.had_of_mem h)
    | linkJob attemptId jobId =>
      refine .inl (Database.had_map (fun row => ?_) (fun row => ?_) h) <;> split <;> rfl
    | addJob attemptId jobId =>
      simp only [Op.effect] at h
      split at h <;> exact .inl (Database.had_of_mem h)
    | _ => exact .inl (Database.had_of_mem h)
  unfold Op.perform at h
  split at h
  · exact heffect h
  · exact .inl (Database.had_of_mem h)
  · exact heffect h

theorem jobIdForAttempt_injective {a b : String} (h : jobIdForAttempt a = jobIdForAttempt b) :
    a = b :=
  String.append_right_inj _ |>.mp h

theorem add_hasJob {attemptId : String} (hsound : db.Sound) :
    ((Op.addJob attemptId (jobIdForAttempt attemptId)).effect clock db).2.HasJob attemptId := by
  simp only [Op.effect]
  split
  · rename_i hjob
    obtain ⟨job, hjob, hid⟩ := List.any_eq_true.mp hjob
    refine ⟨job, hjob, jobIdForAttempt_injective ?_⟩
    rw [← hsound.jobs job hjob]
    exact of_decide_eq_true hid
  · exact ⟨_, List.mem_append_right _ (List.mem_singleton_self _), rfl⟩

end

/-! ### The code among the others -/

/-- Anyone else may do whatever leaves the attempts and the jobs. -/
def serving : Rules Op Op.Res Context OnboardingError Database where
  sees _ := True
  exec op db db' r := ∃ clock outside, op.perform clock outside db = (r, db')
  interfere := Database.Grows
  guarantee := Database.Grows

/-- A row that has been read under its key: its attempt is there, and has its job if it has
been begun. -/
structure Reserved (key : String) (row : AttemptRow) (db : Database) : Prop where
  key : row.idempotencyKey = key
  sound : db.Sound
  stands : db.Stands row
  begun : row.status ≠ .accepted → db.HasJob row.id

/-- The attempt that a request is answered with is the one of its key, was made for its
payload and has its job. -/
def Answered (key : Option String) (safePayload : SafePayload) (dto : AttemptDto)
    (db : Database) : Prop :=
  ∃ row ∈ db.attempts, some row.idempotencyKey = key ∧ row.id = dto.id ∧
    row.safePayload = dto.safePayload ∧ safePayloadsMatch row.safePayload safePayload = true ∧
      db.HasJob row.id

/-- A conflict names the attempt of the request's key, which was made for another payload; no
other error names one. -/
def Refused (key : Option String) (safePayload : SafePayload) (e : OnboardingError)
    (db : Database) : Prop :=
  ∀ error fields id, e = .http error fields id → id ≠ none ∨ error.error = "IDEMPOTENCY_CONFLICT" →
    ∃ row ∈ db.attempts, some row.idempotencyKey = key ∧ id = some row.id ∧
      safePayloadsMatch row.safePayload safePayload = false

/-- The error is no conflict. -/
def Nameless (e : OnboardingError) : Prop :=
  ∀ error fields id, e = .http error fields id → id = none ∧ error.error ≠ "IDEMPOTENCY_CONFLICT"

section
variable {key : String} {k : Option String} {safePayload : SafePayload} {row : AttemptRow}

theorem Nameless.refused {e : OnboardingError} {db : Database} (h : Nameless e) :
    Refused k safePayload e db :=
  fun error fields id he hid => (hid.elim (· (h error fields id he).1) (h error fields id he).2).elim

theorem const_stable {p : Prop} : serving.Stable fun _ => p := fun _ _ h _ => h

theorem sound_stable : serving.Stable Database.Sound := fun _ _ h hg => hg.sound h

theorem hasJob_stable {attemptId : String} : serving.Stable fun db => db.HasJob attemptId :=
  fun _ _ h hg => hg.jobs _ h

theorem reserved_stable : serving.Stable (Reserved key row) :=
  fun _ _ h hg => ⟨h.key, hg.sound h.sound, hg.stands h.stands, fun hs => hg.jobs _ (h.begun hs)⟩

theorem answered_stable {dto : AttemptDto} : serving.Stable (Answered k safePayload dto) := by
  rintro db db' ⟨row, hrow, hkey, hid, hpayload, hmatch, hjob⟩ hg
  obtain ⟨new, hnew, hid', hkey', hpayload'⟩ := hg.rows row hrow
  rw [← hid'] at hid hjob
  rw [← hpayload'] at hpayload hmatch
  rw [← hkey'] at hkey
  exact ⟨new, hnew, hkey, hid, hpayload, hmatch, hg.jobs _ hjob⟩

theorem refused_stable {e : OnboardingError} : serving.Stable (Refused k safePayload e) := by
  intro db db' h hg error fields id he hid
  obtain ⟨row, hrow, hkey, hname, hmatch⟩ := h error fields id he hid
  obtain ⟨new, hnew, hid', hkey', hpayload'⟩ := hg.rows row hrow
  rw [← hid'] at hname
  rw [← hpayload'] at hmatch
  rw [← hkey'] at hkey
  exact ⟨new, hnew, hkey, hname, hmatch⟩

theorem outline_call {P : Database → Prop} {E : OnboardingError → Database → Prop} {op : Op}
    {Q : op.Res → Database → Prop} (hP : serving.Stable P) (hQ : ∀ a, serving.Stable (Q a))
    (hE : ∀ e, serving.Stable (E e))
    (hgrows : ∀ db clock, P db → db.Grows (op.effect clock db).2)
    (hok : ∀ db clock a, P db → (op.effect clock db).1 = .ok a → Q a (op.effect clock db).2)
    (herror : ∀ db v, P db → E (.database v) db) : Outline serving P (request op) Q E := by
  refine .await hP hQ hE ?_ ?_
  · rintro db db' a hdb ⟨clock, outside, hx⟩
    have hg : db.Grows (op.perform clock outside db).2 := Op.perform_grows (hgrows db clock hdb)
    have hanswer := @Op.perform_ok clock outside op db a (by rw [hx])
    rw [hx] at hg hanswer
    have hdb' : db' = (op.effect clock db).2 := hanswer.2
    exact ⟨hg, hdb' ▸ hok db clock a hdb hanswer.1⟩
  · rintro db db' e hdb ⟨clock, outside, hx⟩
    have hg : db.Grows (op.perform clock outside db).2 := Op.perform_grows (hgrows db clock hdb)
    obtain ⟨v, rfl⟩ := @Op.perform_error clock outside op db e (by rw [hx])
    rw [hx] at hg
    exact ⟨hg, hE _ db db' (herror db v hdb) hg⟩

theorem nameless_database (v : JsValue) : Nameless (.database v) := fun _ _ _ he => by cases he

theorem nameless_http {error : HttpError} {fields : List (String × String)}
    (h : error.error ≠ "IDEMPOTENCY_CONFLICT") : Nameless (.http error fields none) := by
  intro error fields id he
  cases he
  exact ⟨rfl, h⟩

theorem nameless_enqueueFailed : Nameless enqueueFailed := nameless_http (by decide)

/-! ### Outlines -/

theorem outline_enqueueAcceptedAttempt :
    Outline serving (Reserved key row) (enqueueAcceptedAttempt row.id)
      (fun _ db => Reserved key row db ∧ db.HasJob row.id) fun e _ => e = enqueueFailed := by
  refine .tryCatch (M := fun _ _ => True) ?_ fun e => .throw fun _ _ => rfl
  refine .bind (Q := fun _ => Reserved key row) ?_ fun linkedRows => ?_
  · exact outline_call reserved_stable (fun _ => reserved_stable) (fun _ => const_stable)
      (fun _ _ _ => link_grows) (fun _ _ _ hdb _ => reserved_stable _ _ hdb link_grows)
      fun _ _ _ => trivial
  · split
    · exact fun _ _ => trivial
    · refine outline_call reserved_stable (fun _ => reserved_stable.and hasJob_stable)
        (fun _ => const_stable) (fun _ _ _ => add_grows) (fun db clock _ hdb _ => ?_) fun _ _ _ => trivial
      exact ⟨reserved_stable _ _ hdb add_grows, add_hasJob hdb.sound⟩

theorem answered_mapOnboardingAttemptRow {db : Database} {replayed : Bool}
    (h : Reserved key row db) (hmatch : safePayloadsMatch row.safePayload safePayload = true)
    (hjob : db.HasJob row.id) :
    Answered (some key) safePayload (mapOnboardingAttemptRow row replayed) db := by
  obtain ⟨new, hnew, hid, hkey, hpayload⟩ := h.stands
  refine ⟨new, hnew, congrArg some (hkey.trans h.key), hid, hpayload, ?_, hid ▸ hjob⟩
  rwa [hpayload]

theorem outline_resolveExistingAttempt :
    Outline serving (Reserved key row) (resolveExistingAttempt row safePayload)
      (Answered (some key) safePayload) (Refused (some key) safePayload) := by
  unfold resolveExistingAttempt
  cases hmatch : safePayloadsMatch row.safePayload safePayload with
  | false =>
    refine .throw fun db hdb error fields id he _ => ?_
    cases he
    obtain ⟨new, hnew, hid, hkey, hpayload⟩ := hdb.stands
    exact ⟨new, hnew, congrArg some (hkey.trans hdb.key), congrArg some hid.symm, hpayload ▸ hmatch⟩
  | true =>
    by_cases haccepted : row.status = .accepted
    · rw [if_pos haccepted]
      refine .bind (outline_enqueueAcceptedAttempt.conseq (fun _ h => h) (fun _ _ h => h)
        fun _ _ he => he ▸ nameless_enqueueFailed.refused) fun _ => ?_
      exact .pure fun db hdb => answered_mapOnboardingAttemptRow hdb.1 hmatch hdb.2
    · rw [if_neg haccepted]
      exact .pure fun db hdb => answered_mapOnboardingAttemptRow hdb hmatch (hdb.begun haccepted)

theorem outline_findOnboardingAttemptByIdempotencyKey :
    Outline serving Database.Sound (request (.findOnboardingAttemptByIdempotencyKey key))
      (fun found db => db.Sound ∧ ∀ row, found = some row → Reserved key row db)
      fun e _ => Nameless e := by
  have hQ (found : Option AttemptRow) : serving.Stable fun db =>
      db.Sound ∧ ∀ row, found = some row → Reserved key row db :=
    fun db db' h hg => ⟨hg.sound h.1, fun row hrow => reserved_stable db db' (h.2 row hrow) hg⟩
  refine outline_call sound_stable hQ (fun _ => const_stable) (fun db _ _ => .refl db) ?_
    fun _ v _ => nameless_database v
  intro db clock found hdb hfound
  refine ⟨hdb, fun row hrow => ?_⟩
  have hfind : db.attempts.find? (fun row => row.idempotencyKey = key) = some row :=
    (Except.ok.inj hfound).trans hrow
  have hmem : row ∈ db.attempts := List.mem_of_find?_eq_some hfind
  exact ⟨of_decide_eq_true (List.find?_some hfind :), hdb, Database.stands_of_mem hmem,
    hdb.begun row hmem⟩

theorem outline_findWinningAttempt (delays : List ℕ) :
    Outline serving Database.Sound (findWinningAttempt key delays)
      (fun found db => db.Sound ∧ ∀ row, found = some row → Reserved key row db)
      fun e _ => Nameless e := by
  induction delays with
  | nil => exact .pure fun _ hdb => ⟨hdb, fun _ h => by cases h⟩
  | cons delay delays ih =>
    refine .bind outline_findOnboardingAttemptByIdempotencyKey fun found => ?_
    cases found with
    | none => exact ih.pre fun _ hdb => hdb.1
    | some row => exact .pure fun _ hdb => hdb

theorem outline_reserveAttempt {cfg : Config} (hkey : row.idempotencyKey = key)
    (haccepted : row.status = .accepted) :
    Outline serving Database.Sound (reserveAttempt cfg row)
      (fun (attempt, lost) db => Reserved key attempt db ∧
        (lost = false → attempt.safePayload = row.safePayload)) fun e _ => Nameless e := by
  refine .tryCatch (M := fun e db => db.Sound ∧ ∃ v, e = .database v) ?_ ?_
  · refine .bind (Q := fun attempt db => Reserved key attempt db ∧
      attempt.safePayload = row.safePayload) ?_ fun _ => .pure fun _ hdb => ⟨hdb.1, fun _ => hdb.2⟩
    refine outline_call sound_stable (fun _ => reserved_stable.and const_stable)
      (fun _ => sound_stable.and const_stable) (fun _ _ _ => insert_grows haccepted) ?_
      fun _ v hdb => ⟨hdb, v, rfl⟩
    intro db clock attempt hdb hok
    have hsound := (@insert_grows clock db row haccepted).sound hdb
    simp only [Op.effect] at hok hsound ⊢
    split at hok
    · cases hok
    rename_i hnew
    rw [if_neg hnew] at hsound ⊢
    split at hok
    · rename_i hactor
      rw [if_pos hactor] at hsound ⊢
      cases hok
      exact ⟨⟨hkey, hsound, Database.stands_of_mem (List.mem_append_right _ (List.mem_singleton_self _)),
        fun h => absurd haccepted h⟩, rfl⟩
    · cases hok
  · rintro e db ⟨hdb, v, rfl⟩
    dsimp only
    split
    · refine ((outline_findWinningAttempt _).bind fun found => ?_) db hdb
      cases found with
      | none => exact .throw fun _ _ => nameless_http (by decide)
      | some winner => exact .pure fun _ hdb => ⟨hkey ▸ hdb.2 winner rfl, fun h => by cases h⟩
    · exact nameless_database v

/-- A payload matches itself as it is stored. -/
theorem safePayloadsMatch_toJson (hplan : safePayload.plan.isSome = true) :
    safePayloadsMatch safePayload.toJson safePayload = true := by
  obtain ⟨plan, hplan⟩ := Option.isSome_iff_exists.mp hplan
  simp [safePayloadsMatch, SafePayload.toJson, Json.get?, sameText, hplan]

theorem plan_isSome (h : validateTenantOnboardingInput safePayload = []) :
    safePayload.plan.isSome = true := by
  have hplan := (List.append_eq_nil_iff.mp h).2
  split at hplan
  · rename_i hany
    exact Option.isSome_of_any hany
  · cases hplan

end

/-- The key of a request, and the payload that it asks for. -/
def Request.key (r : Request) : Option String :=
  (normalizeIdempotencyIdentity r.input r.requestContext).map (·.key)

def Request.payload (cfg : Config) (r : Request) : SafePayload := normalizeCreateRequest cfg.js r.input

theorem outline_createOnboardingAttempt (cfg : Config) (r : Request) :
    Outline serving Database.Sound (createOnboardingAttempt cfg r)
      (Answered r.key (r.payload cfg)) (Refused r.key (r.payload cfg)) := by
  have hnameless (e : OnboardingError) (db : Database) : Nameless e → Refused r.key (r.payload cfg) e db :=
    Nameless.refused
  unfold createOnboardingAttempt
  dsimp only
  split
  · rename_i identity hvalid hidentity
    have hkey : r.key = some identity.key := by rw [Request.key, hidentity]; rfl
    have hmatch : safePayloadsMatch (r.payload cfg).toJson (r.payload cfg) = true :=
      safePayloadsMatch_toJson (plan_isSome (List.append_eq_nil_iff.mp hvalid).1)
    rw [hkey] at hnameless ⊢
    have hplain (op : Op) (heffect : ∀ db clock, (op.effect clock db).2 = db) :
        Outline serving Database.Sound (request op) (fun _ => Database.Sound)
          (Refused (some identity.key) (r.payload cfg)) := by
      refine outline_call sound_stable (fun _ => sound_stable) (fun _ => refused_stable)
        (fun db clock _ => ?_) (fun db clock _ hdb _ => ?_) fun db v _ => (nameless_database v).refused
      · rw [heffect]
        exact .refl db
      · rwa [heffect]
    refine .bind (hplain _ fun _ _ => rfl) fun actorStillActive => ?_
    split
    · exact .throw fun db _ => hnameless _ db (nameless_http (by decide))
    refine .bind (outline_findOnboardingAttemptByIdempotencyKey.conseq (fun _ h => h) (fun _ _ h => h)
      fun e db => hnameless e db) fun existingAttempt => ?_
    cases existingAttempt with
    | some existingAttempt =>
      exact outline_resolveExistingAttempt.pre fun _ hdb => hdb.2 existingAttempt rfl
    | none =>
      refine .bind ((hplain _ fun _ _ => rfl).pre fun _ hdb => hdb.1) fun existingTenant => ?_
      split
      · exact .throw fun db _ => hnameless _ db (nameless_http (by decide))
      refine .bind (.read fun c db _ hdb => hdb) fun c => ?_
      refine .bind ((outline_reserveAttempt rfl rfl).conseq (fun _ h => h) (fun _ _ h => h)
        fun e db => hnameless e db) fun (attempt, lost) => ?_
      cases lost with
      | true => exact outline_resolveExistingAttempt.pre fun _ hdb => hdb.1
      | false =>
        intro db hdb
        have hpayload : safePayloadsMatch attempt.safePayload (r.payload cfg) = true := by
          rw [hdb.2 rfl]
          exact hmatch
        refine (outline_enqueueAcceptedAttempt.bind fun _ => .pure fun db hdb =>
          answered_mapOnboardingAttemptRow hdb.1 hpayload hdb.2).conseq (fun _ h => h) (fun _ _ h => h)
            (fun e db he => hnameless e db (he ▸ nameless_enqueueFailed)) db hdb.1
  · exact .throw fun db _ => Nameless.refused fun _ _ _ he => by cases he
  · exact .throw fun db _ => Nameless.refused (nameless_http (by decide))

/-! ### Runs -/

theorem progress_grows {db : Database} {attemptId : String} {status : AttemptStatus}
    {stepOutcomes : List StepOutcome} {clock : ℕ} (hjob : db.HasJob attemptId) :
    db.Grows { db with attempts := db.attempts.map (.progress attemptId status stepOutcomes clock) } := by
  refine .map (fun row => ?_) (fun row => ?_) (fun row => ?_) fun row hrow hnew hold => ?_
  · unfold AttemptRow.progress
    split <;> rfl
  · unfold AttemptRow.progress
    split <;> rfl
  · unfold AttemptRow.progress
    split <;> rfl
  · unfold AttemptRow.progress at hnew
    split at hnew
    · rename_i hid
      exact hid ▸ hjob
    · exact absurd hold hnew

/-- What a step does to the requests and, when it is not the execution of a call, to the
attempts and the jobs. -/
inductive Intake.Moves (cfg : Config) (s : Intake) : Intake → Prop
  | other (db : Database) (clock : ℕ) : s.db.Grows db → (∀ row ∈ db.attempts, s.db.Had row) →
      Moves cfg s ⟨db, s.requests, clock⟩
  | arrive (r : Request) (c : Context) : Moves cfg s
      ⟨s.db, s.requests ++ [⟨r, (createOnboardingAttempt cfg r).advance c⟩], s.clock⟩
  | execute (i : ℕ) (f : InFlight) (outside : Outside) (thread : RequestThread) (db : Database) :
      s.requests[i]? = some f →
      f.thread.execute (Op.perform s.clock outside) s.db = some (thread, db) →
      Moves cfg s ⟨db, s.requests.set i ⟨f.request, thread⟩, s.clock⟩
  | deliver (i : ℕ) (f : InFlight) (c : Context) (thread : RequestThread) :
      s.requests[i]? = some f → f.thread.deliver c = some thread →
      Moves cfg s ⟨s.db, s.requests.set i ⟨f.request, thread⟩, s.clock⟩

theorem Intake.step_moves {cfg : Config} {s s' : Intake} {e : IntakeEvent}
    (hs : s.step cfg e = some s') : s.Moves cfg s' := by
  cases e with
  | arrive r c =>
    cases hs
    exact .arrive r _
  | execute i outside =>
    obtain ⟨f, hf, hs⟩ := Option.bind_eq_some_iff.mp hs
    obtain ⟨⟨thread, db⟩, hx, rfl⟩ := Option.map_eq_some_iff.mp hs
    exact .execute i f outside thread db hf hx
  | deliver i c =>
    obtain ⟨f, hf, hs⟩ := Option.bind_eq_some_iff.mp hs
    obtain ⟨thread, hx, rfl⟩ := Option.map_eq_some_iff.mp hs
    exact .deliver i f _ thread hf hx
  | progress attemptId status stepOutcomes =>
    simp only [Intake.step] at hs
    split at hs
    · rename_i hjob
      cases hs
      obtain ⟨job, hjob, hid⟩ := List.any_eq_true.mp hjob
      refine .other _ _ (progress_grows ⟨job, hjob, of_decide_eq_true hid⟩) fun row hrow =>
        Database.had_map (fun row => ?_) (fun row => ?_) hrow <;> unfold AttemptRow.progress <;>
          split <;> rfl
    · cases hs
  | tenants slugs =>
    cases hs
    exact .other _ _ ⟨fun h => ⟨h.ids, h.keys, h.jobIds, h.jobs, h.begun⟩,
      fun row hrow => Database.stands_of_mem hrow, fun _ h => h⟩ fun _ => Database.had_of_mem
  | users systemUsers =>
    cases hs
    exact .other _ _ ⟨fun h => ⟨h.ids, h.keys, h.jobIds, h.jobs, h.begun⟩,
      fun row hrow => Database.stands_of_mem hrow, fun _ h => h⟩ fun _ => Database.had_of_mem
  | tick d =>
    cases hs
    exact .other _ _ (.refl _) fun _ => Database.had_of_mem

theorem Intake.Moves.pool {cfg : Config} {s s' : Intake} (h : s.Moves cfg s') :
    PoolStep serving (createOnboardingAttempt cfg) s.db s.requests s'.db s'.requests := by
  cases h with
  | other db clock hg _ => exact .other db hg
  | arrive r c => exact .arrive r c trivial
  | execute i f outside thread db hf hx =>
    exact .execute i f (Op.perform s.clock outside) thread db hf (fun o => ⟨s.clock, outside, rfl⟩) hx
  | deliver i f c thread hf hx => exact .deliver i f c thread hf trivial hx

/-- Every request is answered with the attempt of its key or refused because of it. -/
def settling (cfg : Config) : Ends serving (createOnboardingAttempt cfg) where
  pre := Database.Sound
  ok r := Answered r.key (r.payload cfg)
  error r := Refused r.key (r.payload cfg)
  pre_stable := sound_stable
  ok_stable _ _ := answered_stable
  error_stable _ _ := refused_stable
  outline := outline_createOnboardingAttempt cfg

section
variable {cfg : Config} {s₀ s s' : Intake}

theorem settling_hold (hidle : s₀.requests = []) (hsound : s₀.db.Sound)
    (h : Reach (Intake.step cfg) (fun _ _ => True) s₀ s) :
    (settling cfg).Hold 0 s.db s.requests := by
  refine h.invariant (I := fun s => (settling cfg).Hold 0 s.db s.requests) ?_ ?_
  · rw [hidle]
    exact .idle hsound
  · intro s s' e _ hhold _ hs
    have hpool := (Intake.step_moves hs).pool
    exact hhold.step (hhold.interferes Database.Grows.refl (fun _ _ h => h) hpool) hpool

/-- Every step of such a run leaves the attempts and the jobs. -/
theorem grows_of_moves (hidle : s₀.requests = []) (hsound : s₀.db.Sound)
    (h : Reach (Intake.step cfg) (fun _ _ => True) s₀ s) (hs : s.Moves cfg s') : s.db.Grows s'.db :=
  (settling_hold hidle hsound h).interferes Database.Grows.refl (fun _ _ h => h) hs.pool

end
end Flexi.Tenants.Onboarding
