import Flexi.Tenants.OnboardingRuns

/-!
# Replays of onboarding requests

Of all the requests with one key at most one is answered with a new attempt. A request that
comes after the attempt is answered with it or refused.
-/

namespace Flexi.Tenants.Onboarding
open Flexi.Library

/-! ### One insert -/

/-- The stage is the id of the attempt that the request has inserted, under its key and for
its payload. -/
def inserting (key : Option String) (payload : SafePayload) :
    Protocol Op Op.Res Context OnboardingError (Option String) where
  allows
    | q, .insertAttempt row => q = none ∧ some row.idempotencyKey = key ∧ row.safePayload = payload.toJson
    | _, _ => True
  next
    | _, .insertAttempt _, .ok attempt => some attempt.id
    | q, _, _ => q
  reads q _ := q
  ends _ := True

/-- Only an inserted attempt is a new one. -/
def Novel (dto : AttemptDto) (q : Option String) : Prop := dto.replayed = false → q = some dto.id

/-- A call that inserts nothing. -/
def Op.Quiet : Op → Prop
  | insertAttempt _ => False
  | _ => True

section
variable {key : Option String} {payload : SafePayload} {q : Option String} {α : Type} {p : Service α}

theorem quiet_keeps (hp : p.Calls (fun _ => True) (fun _ => True) Op.Quiet) :
    p.Keeps (inserting key payload) (fun _ q' => q' = q) q := by
  refine .of_calls hp (fun op hop => ?_) (fun _ => rfl) trivial
  cases op with
  | insertAttempt row => exact hop.elim
  | _ => exact ⟨trivial, fun _ => rfl⟩

theorem enqueueAcceptedAttempt_quiet (attemptId : String) :
    (enqueueAcceptedAttempt attemptId).Calls (fun _ => True) (fun _ => True) Op.Quiet := by
  refine .tryCatch (.bind (.await trivial) fun linkedRows => ?_) fun _ _ => .throw trivial
  split
  · exact trivial
  · exact .await trivial

theorem findWinningAttempt_quiet (key : String) (delays : List ℕ) :
    (findWinningAttempt key delays).Calls (fun _ => True) (fun _ => True) Op.Quiet := by
  induction delays with
  | nil => exact .pure
  | cons delay delays ih =>
    refine .bind (.await trivial) fun found => ?_
    cases found with
    | none => exact ih
    | some row => exact .pure

theorem resolveExistingAttempt_keeps (row : AttemptRow) (safePayload : SafePayload) :
    (resolveExistingAttempt row safePayload).Keeps (inserting key payload) Novel q := by
  unfold resolveExistingAttempt
  have hanswer (q : Option String) : Novel (mapOnboardingAttemptRow row true) q := fun h => by cases h
  cases safePayloadsMatch row.safePayload safePayload with
  | false => exact .throw trivial
  | true =>
    by_cases haccepted : row.status = .accepted
    · rw [if_pos haccepted]
      exact .bind (quiet_keeps (enqueueAcceptedAttempt_quiet row.id)) fun _ q _ => .pure (hanswer q)
    · rw [if_neg haccepted]
      exact .pure (hanswer q)

theorem reserveAttempt_keeps {cfg : Config} {row : AttemptRow} (hkey : some row.idempotencyKey = key)
    (hpayload : row.safePayload = payload.toJson) :
    (reserveAttempt cfg row).Keeps (inserting key payload)
      (fun (attempt, lost) q => lost = false → q = some attempt.id) none := by
  refine .tryCatch (M := fun q => q = none) ?_ ?_
  · refine .bind (Q := fun attempt q => q = some attempt.id) ?_ fun attempt q hq => .pure fun _ => hq
    exact .await ⟨rfl, hkey, hpayload⟩ (fun _ => rfl) fun _ => rfl
  · rintro e q rfl
    cases e with
    | http error fields id => exact .throw trivial
    | other message => exact .throw trivial
    | database value =>
      dsimp only
      split
      · refine .bind (quiet_keeps (findWinningAttempt_quiet _ _)) fun found q _ => ?_
        cases found with
        | none => exact .throw trivial
        | some winner => exact .pure fun h => by cases h
      · exact .throw trivial

theorem createOnboardingAttempt_keeps (cfg : Config) (r : Request) :
    (createOnboardingAttempt cfg r).Keeps (inserting r.key (r.payload cfg)) Novel none := by
  have hquiet (op : Op) (hop : op.Quiet) :
      (request op).Keeps (inserting r.key (r.payload cfg)) (fun _ q => q = none) none := quiet_keeps (.await hop)
  unfold createOnboardingAttempt
  dsimp only
  split
  · rename_i identity _ hidentity
    have hkey : some identity.key = r.key := by rw [Request.key, hidentity]; rfl
    refine .bind (hquiet _ trivial) fun actorStillActive q hq => ?_
    subst hq
    split
    · exact .throw trivial
    refine .bind (hquiet _ trivial) fun existingAttempt q hq => ?_
    subst hq
    cases existingAttempt with
    | some existingAttempt => exact resolveExistingAttempt_keeps existingAttempt _
    | none =>
      refine .bind (hquiet _ trivial) fun existingTenant q hq => ?_
      subst hq
      split
      · exact .throw trivial
      refine .bind (.read (Q := fun _ q => q = none) fun _ => rfl) fun c q hq => ?_
      subst hq
      refine .bind (reserveAttempt_keeps hkey rfl) fun reserved q hq => ?_
      obtain ⟨attempt, lost⟩ := reserved
      cases lost with
      | true => exact resolveExistingAttempt_keeps attempt _
      | false =>
        refine .bind (quiet_keeps (enqueueAcceptedAttempt_quiet attempt.id)) fun _ q' hq' => ?_
        exact .pure fun _ => hq'.trans (hq rfl)
  · exact .throw trivial
  · exact .throw trivial

end

/-- The requests with their stages: what one has inserted is there under its key, and no two
have inserted under one key. -/
structure Stages (cfg : Config) (s : Intake) (q : ℕ → Option String) : Prop where
  keeps : ∀ i (f : InFlight), s.requests[i]? = some f →
    f.thread.KeepsTo (inserting f.request.key (f.request.payload cfg)) Novel (q i)
  there : ∀ i (f : InFlight), s.requests[i]? = some f → q i ≠ none →
    ∃ row ∈ s.db.attempts, some row.idempotencyKey = f.request.key
  once : ∀ i j (f g : InFlight), s.requests[i]? = some f → s.requests[j]? = some g → q i ≠ none →
    q j ≠ none → f.request.key = g.request.key → i = j

namespace Stages

variable {cfg : Config} {s : Intake} {q : ℕ → Option String}

theorem grows (h : Stages cfg s q) {db : Database} (hg : s.db.Grows db) (clock : ℕ) :
    Stages cfg ⟨db, s.requests, clock⟩ q := by
  refine ⟨h.keeps, fun i f hf hq => ?_, h.once⟩
  obtain ⟨row, hrow, hkey⟩ := h.there i f hf hq
  obtain ⟨new, hnew, -, hkey', -⟩ := hg.rows row hrow
  exact ⟨new, hnew, hkey' ▸ hkey⟩

theorem arrive (h : Stages cfg s q) (r : Request) (c : Context) :
    Stages cfg { s with requests := s.requests ++ [⟨r, (createOnboardingAttempt cfg r).advance c⟩] }
      (Function.update q s.requests.length none) := by
  have hold {i : ℕ} {f : InFlight} (hf : s.requests[i]? = some f) :
      Function.update q s.requests.length none i = q i :=
    Function.update_of_ne (getElem?_lt hf).ne _ _
  have hnew : Function.update q s.requests.length none s.requests.length = none :=
    Function.update_self s.requests.length none q
  refine ⟨fun i f hf => ?_, fun i f hf hq => ?_, fun i j f g hf hg hi hj hkey => ?_⟩
  · rcases getElem?_add hf with hf | ⟨rfl, rfl⟩
    · rw [hold hf]
      exact h.keeps i f hf
    · rw [hnew]
      exact .advance (createOnboardingAttempt_keeps cfg r) c fun _ => rfl
  · rcases getElem?_add hf with hf | ⟨rfl, rfl⟩
    · exact h.there i f hf (hold hf ▸ hq)
    · exact absurd hnew hq
  · rcases getElem?_add hf with hf | ⟨rfl, rfl⟩
    · rcases getElem?_add hg with hg | ⟨rfl, rfl⟩
      · rw [hold hf] at hi
        rw [hold hg] at hj
        exact h.once i j f g hf hg hi hj hkey
      · exact absurd hnew hj
    · exact absurd hnew hi

theorem request_of_put {i j : ℕ} {f g : InFlight} {thread : RequestThread}
    (hf : s.requests[i]? = some f) (hg : (s.requests.set i ⟨f.request, thread⟩)[j]? = some g) :
    ∃ g', s.requests[j]? = some g' ∧ g'.request = g.request := by
  rcases getElem?_put hg with ⟨rfl, rfl⟩ | ⟨-, hg⟩
  · exact ⟨f, hf, rfl⟩
  · exact ⟨g, hg, rfl⟩

theorem put (h : Stages cfg s q) {i : ℕ} {f : InFlight} (hf : s.requests[i]? = some f)
    {thread : RequestThread} (hthread : thread.KeepsTo (inserting f.request.key (f.request.payload cfg)) Novel (q i)) :
    Stages cfg { s with requests := s.requests.set i ⟨f.request, thread⟩ } q := by
  refine ⟨fun j g hg => ?_, fun j g hg hq => ?_, fun j k g g' hg hg' hj hk hkey => ?_⟩
  · rcases getElem?_put hg with ⟨rfl, rfl⟩ | ⟨-, hg⟩
    · exact hthread
    · exact h.keeps j g hg
  · obtain ⟨old, hold, hr⟩ := request_of_put hf hg
    exact hr ▸ h.there j old hold hq
  · obtain ⟨old, hold, hr⟩ := request_of_put hf hg
    obtain ⟨old', hold', hr'⟩ := request_of_put hf hg'
    exact h.once j k old old' hold hold' hj hk (by rw [hr, hr', hkey])

/-- A request inserts: before it there was no attempt of the key, after it there is one. -/
theorem insert (h : Stages cfg s q) {db : Database} (hg : s.db.Grows db) {i : ℕ} {f : InFlight}
    {id : String} (hf : s.requests[i]? = some f) {thread : RequestThread}
    (hthread : thread.KeepsTo (inserting f.request.key (f.request.payload cfg)) Novel (some id))
    (hfresh : ∀ row ∈ s.db.attempts, some row.idempotencyKey ≠ f.request.key)
    (hnew : ∃ row ∈ db.attempts, some row.idempotencyKey = f.request.key) :
    Stages cfg ⟨db, s.requests.set i ⟨f.request, thread⟩, s.clock⟩ (Function.update q i (some id)) := by
  have hfree {j : ℕ} {g : InFlight} (hg : s.requests[j]? = some g) (hj : q j ≠ none) :
      g.request.key ≠ f.request.key := by
    obtain ⟨row, hrow, hkey⟩ := h.there j g hg hj
    exact hkey ▸ hfresh row hrow
  refine ⟨fun j g hj => ?_, fun j g hj hq => ?_, fun j k g g' hj hk hqj hqk hkey => ?_⟩
  · rcases getElem?_put hj with ⟨rfl, rfl⟩ | ⟨hne, hj⟩
    · rwa [Function.update_self]
    · rw [Function.update_of_ne hne]
      exact h.keeps j g hj
  · rcases getElem?_put hj with ⟨rfl, rfl⟩ | ⟨hne, hj⟩
    · exact hnew
    · rw [Function.update_of_ne hne] at hq
      exact (h.grows hg s.clock).there j g hj hq
  · rcases getElem?_put hj with ⟨rfl, rfl⟩ | ⟨hne, hj'⟩ <;>
      rcases getElem?_put hk with ⟨rfl, rfl⟩ | ⟨hne', hk'⟩
    · rfl
    · rw [Function.update_of_ne hne'] at hqk
      exact absurd hkey.symm (hfree hk' hqk)
    · rw [Function.update_of_ne hne] at hqj
      exact absurd hkey (hfree hj' hqj)
    · rw [Function.update_of_ne hne] at hqj
      rw [Function.update_of_ne hne'] at hqk
      exact h.once j k g g' hj' hk' hqj hqk hkey

theorem next_eq {key : Option String} {payload : SafePayload} {o : Op} {r : Except OnboardingError o.Res} {q : Option String} :
    (inserting key payload).next q o r = q ∨ ∃ row attempt, ∃ ho : o = .insertAttempt row,
      ho ▸ r = .ok attempt ∧ (inserting key payload).next q o r = some attempt.id := by
  cases o with
  | insertAttempt row =>
    cases r with
    | ok attempt => exact .inr ⟨row, attempt, rfl, rfl, rfl⟩
    | error e => exact .inl rfl
  | _ => exact .inl rfl

theorem insert_ok {clock : ℕ} {outside : Outside} {row attempt : AttemptRow} {db : Database}
    (h : (Op.perform clock outside (.insertAttempt row) db).1 = .ok attempt) :
    (∀ old ∈ db.attempts, old.idempotencyKey ≠ row.idempotencyKey) ∧
      ∃ new ∈ (Op.perform clock outside (.insertAttempt row) db).2.attempts,
        new.idempotencyKey = row.idempotencyKey := by
  obtain ⟨heffect, hdb⟩ := Op.perform_ok h
  rw [hdb]
  simp only [Op.effect] at heffect ⊢
  split at heffect
  · cases heffect
  rename_i hnew
  have hfresh : ∀ old ∈ db.attempts, old.id ≠ row.id ∧ old.idempotencyKey ≠ row.idempotencyKey := by
    simpa using hnew
  refine ⟨fun old hold => (hfresh old hold).2, ?_⟩
  rw [if_neg hnew]
  split at heffect
  · rename_i hactor
    rw [if_pos hactor]
    exact ⟨_, List.mem_append_right _ (List.mem_singleton_self _), rfl⟩
  · cases heffect

theorem execute (h : Stages cfg s q) {i : ℕ} {f : InFlight} {outside : Outside} {thread : RequestThread}
    {db : Database} (hf : s.requests[i]? = some f) (hg : s.db.Grows db)
    (hx : f.thread.execute (Op.perform s.clock outside) s.db = some (thread, db)) :
    ∃ q, Stages cfg ⟨db, s.requests.set i ⟨f.request, thread⟩, s.clock⟩ q := by
  have hkeeps := h.keeps i f hf
  cases hthread : f.thread with
  | awaiting o k =>
    rw [hthread] at hx hkeeps
    cases hx
    have hnext := hkeeps.execute (Op.perform s.clock outside o s.db).1
    rcases @next_eq f.request.key (f.request.payload cfg) o (Op.perform s.clock outside o s.db).1 (q i) with
      hsame | ⟨row, attempt, rfl, hok, hstage⟩
    · rw [hsame] at hnext
      exact ⟨q, (h.grows hg s.clock).put hf hnext⟩
    · rw [hstage] at hnext
      obtain ⟨-, hkey, -⟩ := hkeeps.allows
      obtain ⟨hfresh, new, hnew, hnew'⟩ := insert_ok hok
      refine ⟨_, h.insert hg hf hnext (fun row hrow h => ?_) ⟨new, hnew, hnew' ▸ hkey⟩⟩
      exact hfresh row hrow (Option.some.inj (h.trans hkey.symm))
  | answered o r k =>
    rw [hthread] at hx
    cases hx
  | finished r =>
    rw [hthread] at hx
    cases hx

theorem step {s' : Intake} (h : Stages cfg s q) (hg : s.db.Grows s'.db) (hs : s.Moves cfg s') :
    ∃ q, Stages cfg s' q := by
  cases hs with
  | other db clock _ _ => exact ⟨q, h.grows hg clock⟩
  | arrive r c => exact ⟨_, h.arrive r c⟩
  | execute i f outside thread db hf hx => exact h.execute hf hg hx
  | deliver i f c thread hf hx =>
    have hkeeps := h.keeps i f hf
    cases hthread : f.thread with
    | answered o r k =>
      rw [hthread] at hx hkeeps
      cases hx
      exact ⟨q, h.put hf (.advance hkeeps _ fun _ => rfl)⟩
    | awaiting o k =>
      rw [hthread] at hx
      cases hx
    | finished r =>
      rw [hthread] at hx
      cases hx

theorem rows {s' : Intake} (h : Stages cfg s q) (hs : s.Moves cfg s') {row : AttemptRow}
    (hrow : row ∈ s'.db.attempts) : s.db.Had row ∨ ∃ (i : ℕ) (f : InFlight), s.requests[i]? = some f ∧
      some row.idempotencyKey = f.request.key ∧
        row.safePayload = (f.request.payload cfg).toJson := by
  cases hs with
  | other db clock _ hhad => exact .inl (hhad row hrow)
  | arrive r c => exact .inl (Database.had_of_mem hrow)
  | deliver i f c thread hf hx => exact .inl (Database.had_of_mem hrow)
  | execute i f outside thread db hf hx =>
    have hkeeps := h.keeps i f hf
    cases hthread : f.thread with
    | answered o r k =>
      rw [hthread] at hx
      cases hx
    | finished r =>
      rw [hthread] at hx
      cases hx
    | awaiting o k =>
      rw [hthread] at hx hkeeps
      cases hx
      rcases Op.perform_had hrow with hhad | ⟨new, rfl, hkey, hpayload⟩
      · exact .inl hhad
      · obtain ⟨-, hkey', hpayload'⟩ := hkeeps.allows
        exact .inr ⟨i, f, hf, hkey ▸ hkey', hpayload.trans hpayload'⟩

end Stages

theorem stages_of_reach {cfg : Config} {s₀ s : Intake} (hidle : s₀.requests = [])
    (hsound : s₀.db.Sound) (h : Reach (Intake.step cfg) (fun _ _ => True) s₀ s) :
    ∃ q, Stages cfg s q := by
  refine h.invariant (I := fun s => ∃ q, Stages cfg s q) ⟨fun _ => none, ?_⟩ ?_
  · refine ⟨fun i f hf => ?_, fun i f hf => ?_, fun i j f g hf => ?_⟩ <;>
      rw [hidle] at hf <;> cases hf
  · rintro s s' e hr ⟨q, hq⟩ - hs
    have hmoves := Intake.step_moves hs
    exact hq.step (grows_of_moves hidle hsound hr hmoves) hmoves

/-! ### Every answer -/

/-- A finished request has been answered or refused. -/
def InFlight.Settled (cfg : Config) (f : InFlight) (db : Database) : Prop :=
  (∀ dto, f.thread = .finished (.ok dto) → Answered f.request.key (f.request.payload cfg) dto db) ∧
    ∀ e, f.thread = .finished (.error e) → Refused f.request.key (f.request.payload cfg) e db

theorem Database.Sound.row_unique {db : Database} (h : db.Sound) {a b : AttemptRow}
    (ha : a ∈ db.attempts) (hb : b ∈ db.attempts) (hkey : a.idempotencyKey = b.idempotencyKey) :
    a = b :=
  List.inj_on_of_nodup_map h.keys ha hb hkey

section
variable {cfg : Config} {s₀ s : Intake} {f g : InFlight} {i j : ℕ}

theorem settled_of_reach (hidle : s₀.requests = []) (hsound : s₀.db.Sound)
    (h : Reach (Intake.step cfg) (fun _ _ => True) s₀ s) (hf : s.requests[i]? = some f) :
    f.Settled cfg s.db :=
  ((settling_hold hidle hsound h).safe i f (Nat.zero_le i) hf).ended

/-- Two answers for one key are of one attempt, and only one of them is of a new one. -/
theorem answers_of_key {dto dto' : AttemptDto} (hidle : s₀.requests = []) (hsound : s₀.db.Sound)
    (h : Reach (Intake.step cfg) (fun _ _ => True) s₀ s) (hf : s.requests[i]? = some f)
    (hg : s.requests[j]? = some g) (hdto : f.thread = .finished (.ok dto))
    (hdto' : g.thread = .finished (.ok dto')) (hkey : f.request.key = g.request.key) :
    dto.id = dto'.id ∧ (dto.replayed = false → dto'.replayed = false → i = j) := by
  obtain ⟨row, hrow, hrowkey, hid, -⟩ := (settled_of_reach hidle hsound h hf).1 dto hdto
  obtain ⟨row', hrow', hrowkey', hid', -⟩ := (settled_of_reach hidle hsound h hg).1 dto' hdto'
  have hsame : row = row' := Database.Sound.row_unique (settling_hold hidle hsound h).pre hrow hrow'
    (Option.some.inj ((hrowkey.trans hkey).trans hrowkey'.symm))
  refine ⟨by rw [← hid, ← hid', hsame], fun hnew hnew' => ?_⟩
  obtain ⟨q, hq⟩ := stages_of_reach hidle hsound h
  have hstage {n : ℕ} {f : InFlight} {dto : AttemptDto} (hf : s.requests[n]? = some f)
      (hdto : f.thread = .finished (.ok dto)) (hnew : dto.replayed = false) : q n ≠ none := by
    have hkeeps := hq.keeps n f hf
    rw [hdto] at hkeeps
    rw [hkeeps hnew]
    exact Option.some_ne_none _
  exact hq.once i j f g hf hg (hstage hf hdto hnew) (hstage hg hdto' hnew') hkey

end

theorem Intake.one_attempt_for_each_key (cfg : Config) {s₀ s : Intake} (hidle : s₀.requests = [])
    (hsound : s₀.db.Sound) (h : Reach (Intake.step cfg) (fun _ _ => True) s₀ s) :
    s.db.Sound ∧ (∀ f ∈ s.requests, f.Settled cfg s.db) ∧
      ∀ (i j : ℕ) (f g : InFlight) (dto dto' : AttemptDto), s.requests[i]? = some f →
        s.requests[j]? = some g → f.thread = .finished (.ok dto) → g.thread = .finished (.ok dto') →
        f.request.key = g.request.key →
        dto.id = dto'.id ∧ (dto.replayed = false → dto'.replayed = false → i = j) := by
  refine ⟨(settling_hold hidle hsound h).pre, fun f hf => ?_, ?_⟩
  · obtain ⟨i, hi⟩ := List.mem_iff_getElem?.mp hf
    exact settled_of_reach hidle hsound h hi
  · exact fun i j f g dto dto' hf hg hdto hdto' hkey =>
      answers_of_key hidle hsound h hf hg hdto hdto' hkey

/-- How a finished request was answered: with which attempt, and whether it was there before. -/
def InFlight.outcome (f : InFlight) : Option (String × Bool) :=
  match f.thread with
  | .finished (.ok dto) => some (dto.id, dto.replayed)
  | _ => none

def plainConfig : Config := ⟨⟨id⟩, fun _ => ""⟩

/-- A request to onboard Acme, for the administrator `email`. -/
def acmeRequest (email : String) : Request where
  input := .obj [("tenantName", .str "Acme"), ("tenantSlug", .str "acme"),
    ("firstAdminEmail", .str email), ("plan", .str "starter")]
  actorIdentity := ⟨"account", "user", "ops@flexi.io", "Ops", [], []⟩
  requestContext := ⟨none, none, none, some " onboard-acme "⟩

def oneUser : Intake := ⟨⟨[⟨"user", true⟩], [], [], []⟩, [], 0⟩

theorem oneUser_sound : oneUser.db.Sound where
  ids := .nil
  keys := .nil
  jobIds := .nil
  jobs := fun job hjob => by cases hjob
  begun := fun row hrow => by cases hrow

theorem reach_of_run {s s' : Intake} {events : List IntakeEvent}
    (h : runAll (Intake.step plainConfig) s events = some s') :
    Reach (Intake.step plainConfig) (fun _ _ => True) s s' :=
  .of_runAll (.of_labels (fun _ _ _ => trivial) _) h

/-- The `i`-th request's next `n` calls, each with its answer. -/
def calls (i n : ℕ) (newAttemptId : String) : List IntakeEvent :=
  (List.replicate n [.execute i {}, .deliver i ⟨newAttemptId, 0⟩]).flatten

/-- Two requests look the key up before either inserts. -/
def acmeRace : List IntakeEvent :=
  [.arrive (acmeRequest "root@acme.io") ⟨"", 0⟩, .arrive (acmeRequest "root@acme.io") ⟨"", 0⟩] ++
    calls 0 3 "first" ++ calls 1 3 "second" ++ calls 1 3 "" ++ calls 0 4 ""

theorem Intake.one_attempt_for_each_key_race : ∃ s : Intake,
    Reach (Intake.step plainConfig) (fun _ _ => True) oneUser s ∧
    s.requests.map InFlight.outcome = [some ("second", true), some ("second", false)] ∧
    s.db.Sound ∧ ∀ f ∈ s.requests, f.Settled plainConfig s.db := by
  have hrun : (runAll (Intake.step plainConfig) oneUser acmeRace).any (fun s =>
      s.requests.map InFlight.outcome = [some ("second", true), some ("second", false)]) = true := by
    decide +kernel
  obtain ⟨s, hs, houtcome⟩ := (Option.any_eq_true _ _).mp hrun
  have hreach := reach_of_run hs
  obtain ⟨hdb, hsettled, -⟩ := Intake.one_attempt_for_each_key plainConfig rfl oneUser_sound hreach
  exact ⟨s, hreach, of_decide_eq_true houtcome, hdb, hsettled⟩

/-! ### Requests that come after the attempt -/

/-- The answer is the attempt of `row`, which was made for the same payload. -/
def Replayed (row : AttemptRow) (safePayload : SafePayload) (dto : AttemptDto) : Prop :=
  dto.id = row.id ∧ dto.replayed = true ∧ safePayloadsMatch row.safePayload safePayload = true

/-- The request is invalid, or of a user who is not active, or the database does not answer;
or else the payload is another one, or the attempt's job could not be scheduled. -/
def Declined (row : AttemptRow) (safePayload : SafePayload) (e : OnboardingError) : Prop :=
  (∃ fields, e = badRequest fields) ∨ e = forbidden ∨ (∃ v, e = .database v) ∨
    if safePayloadsMatch row.safePayload safePayload then e = enqueueFailed
    else e = idempotencyConflict row.id

section
variable {key : String} {row : AttemptRow} {safePayload : SafePayload}

/-- The attempt of `row` is there. -/
def There (row : AttemptRow) (db : Database) : Prop := db.Sound ∧ db.Stands row

theorem there_stable : serving.Stable (There row) := fun _ _ h hg => ⟨hg.sound h.1, hg.stands h.2⟩

theorem outline_find_there :
    Outline serving (There row) (request (.findOnboardingAttemptByIdempotencyKey row.idempotencyKey))
      (fun found db => ∃ new, found = some new ∧ new.id = row.id ∧ new.safePayload = row.safePayload ∧
        Reserved row.idempotencyKey new db) fun e _ => ∃ v, e = .database v := by
  refine outline_call there_stable (fun found db db' h hg => ?_) (fun _ => const_stable)
    (fun db _ _ => .refl db) ?_ fun _ v _ => ⟨v, rfl⟩
  · obtain ⟨new, hnew, hid, hpayload, hreserved⟩ := h
    exact ⟨new, hnew, hid, hpayload, reserved_stable db db' hreserved hg⟩
  · rintro db clock found ⟨hsound, new, hnew, hid, hkey, hpayload⟩ hfound
    have hfound' : db.attempts.find? (fun other => other.idempotencyKey = row.idempotencyKey) = found :=
      Except.ok.inj hfound
    have hsome : db.attempts.find? (fun other => other.idempotencyKey = row.idempotencyKey) = some new := by
      cases hfind : db.attempts.find? (fun other => other.idempotencyKey = row.idempotencyKey) with
      | none => exact absurd (decide_eq_true hkey) (List.find?_eq_none.mp hfind new hnew)
      | some other =>
        have hother : other.idempotencyKey = row.idempotencyKey := of_decide_eq_true (List.find?_some hfind :)
        rw [hsound.row_unique (List.mem_of_find?_eq_some hfind) hnew (hother.trans hkey.symm)]
    exact ⟨new, hfound'.symm.trans hsome, hid, hpayload, hkey, hsound, Database.stands_of_mem hnew,
      hsound.begun new hnew⟩

theorem outline_resolve_there {new : AttemptRow} (hid : new.id = row.id)
    (hpayload : new.safePayload = row.safePayload) :
    Outline serving (Reserved key new) (resolveExistingAttempt new safePayload)
      (fun dto _ => Replayed row safePayload dto) fun e _ => Declined row safePayload e := by
  unfold resolveExistingAttempt
  rw [hpayload]
  cases hmatch : safePayloadsMatch row.safePayload safePayload with
  | false =>
    refine .throw fun db _ => .inr (.inr (.inr ?_))
    rw [hmatch, hid]
    rfl
  | true =>
    have hanswer : Replayed row safePayload (mapOnboardingAttemptRow new true) := ⟨hid, rfl, hmatch⟩
    by_cases haccepted : new.status = .accepted
    · rw [if_pos haccepted]
      refine .bind (outline_enqueueAcceptedAttempt.conseq (fun _ h => h) (fun _ _ h => h) ?_)
        fun _ => .pure fun _ _ => hanswer
      intro e _ he
      refine .inr (.inr (.inr ?_))
      rw [hmatch]
      exact he
    · rw [if_neg haccepted]
      exact .pure fun _ _ => hanswer

theorem outline_create_there (cfg : Config) {r : Request} (hkey : r.key = some row.idempotencyKey) :
    Outline serving (There row) (createOnboardingAttempt cfg r)
      (fun dto _ => Replayed row (r.payload cfg) dto) fun e _ => Declined row (r.payload cfg) e := by
  unfold createOnboardingAttempt
  dsimp only
  split
  · rename_i identity _ hidentity
    have hidentity' : identity.key = row.idempotencyKey := by
      rw [Request.key, hidentity] at hkey
      exact Option.some.inj hkey
    rw [hidentity']
    have hactor : Outline serving (There row) (request (.findActiveSystemUser r.actorIdentity.systemUserId))
        (fun _ => There row) fun e _ => Declined row (r.payload cfg) e :=
      outline_call there_stable (fun _ => there_stable) (fun _ => const_stable) (fun db _ _ => .refl db)
        (fun _ _ _ hdb _ => hdb) fun _ v _ => .inr (.inr (.inl ⟨v, rfl⟩))
    refine .bind hactor fun actorStillActive => ?_
    split
    · exact .throw fun _ _ => .inr (.inl rfl)
    refine .bind (outline_find_there.conseq (fun _ h => h) (fun _ _ h => h)
      fun _ _ he => .inr (.inr (.inl he))) fun existingAttempt => ?_
    cases existingAttempt with
    | some existingAttempt =>
      rintro db ⟨new, hnew, hid, hpayload, hreserved⟩
      cases hnew
      exact outline_resolve_there hid hpayload db hreserved
    | none =>
      rintro db ⟨new, hnew, -⟩
      cases hnew
  · rename_i hidentity
    rw [Request.key, hidentity] at hkey
    cases hkey
  · exact .throw fun _ _ => .inl ⟨_, rfl⟩

end

/-- Every request with the key of `row` is answered with its attempt or declined. -/
def replaying (cfg : Config) (row : AttemptRow) : Ends serving (createOnboardingAttempt cfg) where
  pre := There row
  ok r dto _ := r.key = some row.idempotencyKey → Replayed row (r.payload cfg) dto
  error r e _ := r.key = some row.idempotencyKey → Declined row (r.payload cfg) e
  pre_stable := there_stable
  ok_stable _ _ := const_stable
  error_stable _ _ := const_stable
  outline r := by
    by_cases hkey : r.key = some row.idempotencyKey
    · exact (outline_create_there cfg hkey).conseq (fun _ h => h) (fun _ _ h _ => h) fun _ _ h _ => h
    · exact (outline_createOnboardingAttempt cfg r).conseq (fun _ h => h.1)
        (fun _ _ _ h => absurd h hkey) fun _ _ _ h => absurd h hkey

theorem Intake.later_requests_replay (cfg : Config) {s₀ s s' : Intake} (hidle : s₀.requests = [])
    (hsound : s₀.db.Sound) (h : Reach (Intake.step cfg) (fun _ _ => True) s₀ s) {row : AttemptRow}
    (hrow : row ∈ s.db.attempts) (h' : Reach (Intake.step cfg) (fun _ _ => True) s s') {i : ℕ}
    {f : InFlight} (hlater : s.requests.length ≤ i) (hf : s'.requests[i]? = some f)
    (hkey : f.request.key = some row.idempotencyKey) :
    (∀ dto, f.thread = .finished (.ok dto) → Replayed row (f.request.payload cfg) dto) ∧
      ∀ e, f.thread = .finished (.error e) → Declined row (f.request.payload cfg) e := by
  have hhold : (replaying cfg row).Hold s.requests.length s'.db s'.requests := by
    have hpre : There row s.db :=
      ⟨(settling_hold hidle hsound h).pre, Database.stands_of_mem hrow⟩
    refine h'.invariant (I := fun s' => (replaying cfg row).Hold s.requests.length s'.db s'.requests)
      (.from_now hpre) ?_
    intro t t' e hr hhold _ hs
    have hmoves := Intake.step_moves hs
    exact hhold.step (grows_of_moves hidle hsound (h.trans hr) hmoves) hmoves.pool
  have hended := (hhold.safe i f hlater hf).ended
  exact ⟨fun dto hdto => hended.1 dto hdto hkey, fun e he => hended.2 e he hkey⟩

def InFlight.failed (f : InFlight) : Bool :=
  match f.thread with
  | .finished (.error _) => true
  | _ => false

theorem InFlight.failed_eq {f : InFlight} (h : f.failed = true) :
    ∃ e, f.thread = .finished (.error e) := by
  unfold InFlight.failed at h
  split at h
  · exact ⟨_, ‹_›⟩
  · cases h

/-- A second request with the key, for another administrator. -/
def acmeAgain : List IntakeEvent :=
  .arrive (acmeRequest "other@acme.io") ⟨"", 0⟩ :: calls 2 2 ""

theorem Intake.later_requests_replay_again : ∃ (s s' : Intake) (row : AttemptRow) (f : InFlight)
    (e : OnboardingError), Reach (Intake.step plainConfig) (fun _ _ => True) oneUser s ∧
    row ∈ s.db.attempts ∧ Reach (Intake.step plainConfig) (fun _ _ => True) s s' ∧
    s'.requests[2]? = some f ∧ f.thread = .finished (.error e) ∧
    Declined row (f.request.payload plainConfig) e := by
  have hrun : (runAll (Intake.step plainConfig) oneUser acmeRace).any (fun s =>
      s.requests.length = 2 && s.db.attempts.any (fun row => row.idempotencyKey = "onboard-acme" &&
      (runAll (Intake.step plainConfig) s acmeAgain).any fun s' => s'.requests[2]?.any fun f =>
        f.request.key = some "onboard-acme" && f.failed)) = true := by
    decide +kernel
  obtain ⟨s, hs, h⟩ := (Option.any_eq_true _ _).mp hrun
  obtain ⟨hlength, h⟩ := Bool.and_eq_true_iff.mp h
  obtain ⟨row, hrow, h⟩ := List.any_eq_true.mp h
  obtain ⟨hrowkey, h⟩ := Bool.and_eq_true_iff.mp h
  obtain ⟨s', hs', h⟩ := (Option.any_eq_true _ _).mp h
  obtain ⟨f, hf, h⟩ := (Option.any_eq_true _ _).mp h
  obtain ⟨hkey, hfailed⟩ := Bool.and_eq_true_iff.mp h
  obtain ⟨e, he⟩ := InFlight.failed_eq hfailed
  have hreach := reach_of_run hs
  have hreach' := reach_of_run hs'
  have hfkey : f.request.key = some row.idempotencyKey :=
    (of_decide_eq_true hkey).trans (congrArg some (of_decide_eq_true hrowkey).symm)
  have hle : s.requests.length ≤ 2 := (of_decide_eq_true hlength).le
  have hlater := Intake.later_requests_replay plainConfig rfl oneUser_sound hreach hrow hreach' hle hf hfkey
  exact ⟨s, s', row, f, e, hreach, hrow, hreach', hf, he, hlater.2 e he⟩

end Flexi.Tenants.Onboarding
