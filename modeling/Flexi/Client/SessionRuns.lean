import Flexi.Client.Session
import Flexi.Library.Slots

/-!
# Runs of a browser tab

Any replies, in any order, with any calls in between.
-/

namespace Flexi.Client.Session
open Flexi.Library

variable {A R U : Type}

/-! ### What a step does -/

/-- The two states differ in the tokens and in what React shows at most. -/
structure Tab.SameWiring (s s' : Tab A R U) : Prop where
  refreshInFlight : s'.refreshInFlight = s.refreshInFlight
  refreshes : s'.refreshes = s.refreshes
  requests : s'.requests = s.requests
  flows : s'.flows = s.flows

namespace Tab

variable {env : Storage} {s s' : Tab A R U}

theorem SameWiring.refl (s : Tab A R U) : s.SameWiring s := ⟨rfl, rfl, rfl, rfl⟩

theorem sameWiring_clearSession : s.SameWiring (s.clearSession env) := ⟨rfl, rfl, rfl, rfl⟩

theorem sameWiring_expired : s.SameWiring (s.handleSessionExpired env) := ⟨rfl, rfl, rfl, rfl⟩

/-- The promise that flow `f` awaits has brought it tokens. -/
def Brings (s : Tab A R U) (f : Flow) : Prop :=
  (∃ k token, f.stage = .refreshing k ∧ s.refreshResult k = some (some token) ∧
    ¬ (f.kind = .bootstrap ∧ f.cancelled = true)) ∨
  ∃ i tokens, f.stage = .requesting i ∧ s.answer i = some (.ok (some (.tokens tokens))) ∧
    f.kind = .login

/-- What may be written before a move: the stored token stays, or is cleared, or a refresh or a
flow has been brought a new one. -/
structure Writes (s s₁ : Tab A R U) : Prop extends s.SameWiring s₁ where
  stored : s₁.stored = s.stored ∨ s₁.stored = none ∨
    (∃ (k : ℕ) (token : R), s.refreshes[k]? = some (.sent token)) ∨
    ∃ (j : ℕ) (f : Flow), s.flows[j]? = some f ∧ s.Brings f

theorem Writes.refl (s : Tab A R U) : s.Writes s := ⟨.refl s, .inl rfl⟩

theorem writes_clearSession : s.Writes (s.clearSession env) := by
  refine ⟨sameWiring_clearSession, ?_⟩
  show (if env.writable then none else s.stored) = _ ∨
    (if env.writable then none else s.stored) = _ ∨ _
  split
  · exact .inr (.inl rfl)
  · exact .inl rfl

theorem writes_expired : s.Writes (s.handleSessionExpired env) := by
  refine ⟨sameWiring_expired, ?_⟩
  show (if env.writable then none else if env.writable then none else s.stored) = _ ∨
    (if env.writable then none else if env.writable then none else s.stored) = _ ∨ _
  split
  · exact .inr (.inl rfl)
  · exact .inl rfl

/-- What becomes of the promises once the tokens and React's state have been written. -/
inductive Move (env : Storage) (s : Tab A R U) : Tab A R U → Prop where
  | answered {i : ℕ} {r : ApiRequest A R U} {stage : RequestStage A R U}
      (request : s.requests[i]? = some r) (waits : r.stage = .sent ∨ r.stage = .resent)
      (settles : stage.outcome.isSome = true) :
      Move env s (s.putRequest i { r with stage := stage })
  | unauthorized {i : ℕ} {r : ApiRequest A R U} {error : ApiError}
      (request : s.requests[i]? = some r) (waits : r.stage = .sent)
      (path : r.call.path ∉ NO_REFRESH_PATHS) :
      Move env s ((s.refreshAccessToken env).putRequest i
        { r with stage := .refreshing s.refreshPromise error })
  | retried {i k : ℕ} {r : ApiRequest A R U} {error : ApiError} {token : A}
      (request : s.requests[i]? = some r) (waits : r.stage = .refreshing k error)
      (refreshed : s.refreshResult k = some (some token)) :
      Move env s (s.putRequest i
        { r with fetches := r.fetches ++ [s.fetch r.call], stage := .resent })
  | expired {i k : ℕ} {r : ApiRequest A R U} {error : ApiError}
      (request : s.requests[i]? = some r) (waits : r.stage = .refreshing k error)
      (refused : s.refreshResult k = some none) :
      Move env s (s.putRequest i { r with stage := .rejected error })
  | refreshAnswered {k : ℕ} {token : R} {result : Option A}
      (refresh : s.refreshes[k]? = some (.sent token)) :
      Move env s (s.putRefresh k (.settled result))
  | refreshSettled {k : ℕ} {result : Option A}
      (refresh : s.refreshes[k]? = some (.settled result)) :
      Move env s (s.refreshSettled k result)
  | finished {j : ℕ} {f : Flow} (flow : s.flows[j]? = some f) (goes : f.stage ≠ .finished) :
      Move env s (s.finishFlow j f)
  | readsUser {j : ℕ} {f : Flow} (flow : s.flows[j]? = some f) (brings : s.Brings f) :
      Move env s (s.readUser j f)

end Tab

/-- The calls of the components and of the forms. -/
def Event.starts : Event A R U → Bool
  | .call _ | .mount | .login _ _ _ | .reload | .logout => true
  | _ => false

namespace Tab

variable {env : Storage} {s s' : Tab A R U}

theorem firstReply_moves {i : ℕ} {r : ApiRequest A R U} (reply : Except String (Reply (Data A R U)))
    (hr : s.requests[i]? = some r) (hsent : r.stage = .sent) :
    Move env s (s.firstReply env i r reply) := by
  unfold firstReply
  split
  · exact .answered hr (.inl hsent) rfl
  · exact .answered hr (.inl hsent) rfl
  · exact .answered hr (.inl hsent) rfl
  · split
    · exact .answered hr (.inl hsent) rfl
    · split
      · rename_i hretry
        exact .unauthorized hr hsent hretry.2
      · exact .answered hr (.inl hsent) rfl

theorem retryReply_moves {i : ℕ} {r : ApiRequest A R U} (reply : Except String (Reply (Data A R U)))
    (hr : s.requests[i]? = some r) (hresent : r.stage = .resent) :
    ∃ s₁, s.Writes s₁ ∧ Move env s₁ (s.retryReply env i r reply) := by
  unfold retryReply
  split
  · exact ⟨s, .refl s, .answered hr (.inr hresent) rfl⟩
  · exact ⟨s, .refl s, .answered hr (.inr hresent) rfl⟩
  · exact ⟨s, .refl s, .answered hr (.inr hresent) rfl⟩
  · split
    · exact ⟨_, writes_expired, .answered hr (.inr hresent) rfl⟩
    · exact ⟨s, .refl s, .answered hr (.inr hresent) rfl⟩

theorem refreshReply_moves {k : ℕ} {token : R} (reply : Except String (Reply (AuthTokens A R)))
    (hk : s.refreshes[k]? = some (.sent token)) :
    ∃ s₁, s.Writes s₁ ∧ Move env s₁ (s.refreshReply env k reply) := by
  unfold refreshReply
  split
  · refine ⟨_, ⟨?_, .inr (.inr (.inl ⟨k, token, hk⟩))⟩, .refreshAnswered hk⟩
    exact ⟨rfl, rfl, rfl, rfl⟩
  · exact ⟨s, .refl s, .refreshAnswered hk⟩

theorem refreshed_moves {i k : ℕ} {r : ApiRequest A R U} {error : ApiError} {result : Option A}
    (hr : s.requests[i]? = some r) (hwaits : r.stage = .refreshing k error)
    (hk : s.refreshResult k = some result) :
    ∃ s₁, s.Writes s₁ ∧ Move env s₁ (s.refreshed env i r error result) := by
  cases result with
  | some token => exact ⟨s, .refl s, .retried hr hwaits hk⟩
  | none => exact ⟨_, writes_expired, .expired hr hwaits hk⟩

theorem flowRefreshed_moves {j k : ℕ} {f : Flow} {result : Option A} (hf : s.flows[j]? = some f)
    (hgoes : f.stage = .refreshing k) (hk : s.refreshResult k = some result) :
    ∃ s₁, s.Writes s₁ ∧ Move env s₁ (s.flowRefreshed env j f result) := by
  have hlive : f.stage ≠ .finished := by
    rw [hgoes]
    exact FlowStage.noConfusion
  unfold flowRefreshed
  split
  · split
    · split
      · exact ⟨s, .refl s, .finished hf hlive⟩
      · refine ⟨_, ⟨?_, .inl ?_⟩, .finished hf hlive⟩
        · exact ⟨rfl, rfl, rfl, rfl⟩
        · rfl
    · exact ⟨_, writes_clearSession, .finished hf hlive⟩
  · split
    · exact ⟨s, .refl s, .finished hf hlive⟩
    · rename_i token hlive
      have hbrings : s.Brings f := .inl ⟨k, token, hgoes, hk, hlive⟩
      refine ⟨_, ⟨?_, .inr (.inr (.inr ⟨j, f, hf, hbrings⟩))⟩, .readsUser hf hbrings⟩
      exact ⟨rfl, rfl, rfl, rfl⟩

theorem flowAnswered_moves {i j : ℕ} {f : Flow} {outcome : Except ApiError (Option (Data A R U))}
    (hf : s.flows[j]? = some f) (hgoes : f.stage = .requesting i) (hi : s.answer i = some outcome) :
    ∃ s₁, s.Writes s₁ ∧ Move env s₁ (s.flowAnswered env j f outcome) := by
  have hlive : f.stage ≠ .finished := by
    rw [hgoes]
    exact FlowStage.noConfusion
  unfold flowAnswered
  split
  · split
    · rename_i tokens hlogin
      have hbrings : s.Brings f := .inr ⟨i, tokens, hgoes, hi, hlogin⟩
      refine ⟨_, ⟨?_, .inr (.inr (.inr ⟨j, f, hf, hbrings⟩))⟩, .readsUser hf hbrings⟩
      exact ⟨rfl, rfl, rfl, rfl⟩
    · exact ⟨_, writes_clearSession, .finished hf hlive⟩
  · split
    · exact ⟨_, writes_clearSession, .finished hf hlive⟩
    · exact ⟨s, .refl s, .finished hf hlive⟩

theorem userRead_moves {i j : ℕ} {f : Flow} (outcome : Except ApiError (Option (Data A R U)))
    (hf : s.flows[j]? = some f) (hgoes : f.stage = .readingUser i) :
    ∃ s₁, s.Writes s₁ ∧ Move env s₁ (s.userRead env j f outcome) := by
  have hlive : f.stage ≠ .finished := by
    rw [hgoes]
    exact FlowStage.noConfusion
  unfold userRead
  split
  · dsimp only
    split
    · split
      · exact ⟨s, .refl s, .finished hf hlive⟩
      · refine ⟨_, ⟨?_, .inl ?_⟩, .finished hf hlive⟩
        · exact ⟨rfl, rfl, rfl, rfl⟩
        · rfl
    · refine ⟨_, ⟨?_, .inl ?_⟩, .finished hf hlive⟩
      · exact ⟨rfl, rfl, rfl, rfl⟩
      · rfl
  · split
    · refine ⟨_, ⟨?_, ?_⟩, .finished hf hlive⟩
      · exact ⟨rfl, rfl, rfl, rfl⟩
      · have hclear : s.Writes (s.clearSession env) := writes_clearSession
        exact hclear.stored
    · exact ⟨s, .refl s, .finished hf hlive⟩

/-! ### The steps of a run -/

theorem step_reply {i : ℕ} {reply : Except String (Reply (Data A R U))}
    (h : s.step (env, .reply i reply) = some s') : ∃ r, s.requests[i]? = some r ∧
      fits r.call.path reply = true ∧ (r.stage = .sent ∧ s' = s.firstReply env i r reply ∨
        r.stage = .resent ∧ s' = s.retryReply env i r reply) := by
  obtain ⟨r, hr, h⟩ := Option.bind_eq_some_iff.mp h
  refine ⟨r, hr, ?_⟩
  split at h
  · rename_i hfits
    refine ⟨hfits, ?_⟩
    unfold Tab.reply at h
    split at h
    · exact .inl ⟨‹_›, (Option.some.inj h).symm⟩
    · exact .inr ⟨‹_›, (Option.some.inj h).symm⟩
    · cases h
  · cases h

theorem step_refreshReply {k : ℕ} {reply : Except String (Reply (AuthTokens A R))}
    (h : s.step (env, .refreshReply k reply) = some s') :
    ∃ token, s.refreshes[k]? = some (.sent token) ∧ s' = s.refreshReply env k reply := by
  simp only [step] at h
  split at h
  · rename_i token hk
    exact ⟨token, hk, (Option.some.inj h).symm⟩
  · cases h

theorem step_refreshSettled {k : ℕ} (h : s.step (env, .refreshSettled k) = some s') :
    ∃ result, s.refreshes[k]? = some (.settled result) ∧ s' = s.refreshSettled k result := by
  simp only [step] at h
  split at h
  · rename_i result hk
    exact ⟨result, hk, (Option.some.inj h).symm⟩
  · cases h

theorem step_resumeRequest {i : ℕ} (h : s.step (env, .resumeRequest i) = some s') :
    ∃ r k error result, s.requests[i]? = some r ∧ r.stage = .refreshing k error ∧
      s.refreshResult k = some result ∧ s' = s.refreshed env i r error result := by
  obtain ⟨r, hr, h⟩ := Option.bind_eq_some_iff.mp h
  unfold resumeRequest at h
  split at h
  · rename_i k error hstage
    obtain ⟨result, hk, hs⟩ := Option.map_eq_some_iff.mp h
    exact ⟨r, k, error, result, hr, hstage, hk, hs.symm⟩
  · cases h

theorem step_resumeFlow {j : ℕ} (h : s.step (env, .resumeFlow j) = some s') :
    ∃ f, s.flows[j]? = some f ∧
      ((∃ k result, f.stage = .refreshing k ∧ s.refreshResult k = some result ∧
        s' = s.flowRefreshed env j f result) ∨
      (∃ i outcome, f.stage = .requesting i ∧ s.answer i = some outcome ∧
        s' = s.flowAnswered env j f outcome) ∨
      ∃ i outcome, f.stage = .readingUser i ∧ s.answer i = some outcome ∧
        s' = s.userRead env j f outcome) := by
  obtain ⟨f, hf, h⟩ := Option.bind_eq_some_iff.mp h
  refine ⟨f, hf, ?_⟩
  unfold resumeFlow at h
  split at h
  · rename_i k hstage
    obtain ⟨result, hk, hs⟩ := Option.map_eq_some_iff.mp h
    exact .inl ⟨k, result, hstage, hk, hs.symm⟩
  · rename_i i hstage
    obtain ⟨outcome, hi, hs⟩ := Option.map_eq_some_iff.mp h
    exact .inr (.inl ⟨i, outcome, hstage, hi, hs.symm⟩)
  · rename_i i hstage
    obtain ⟨outcome, hi, hs⟩ := Option.map_eq_some_iff.mp h
    exact .inr (.inr ⟨i, outcome, hstage, hi, hs.symm⟩)
  · cases h

end Tab

/-! ### The promises -/

/-- What a call has sent so far agrees with where it stands; `n` refreshes have been started. -/
def ApiRequest.Sound (n : ℕ) (r : ApiRequest A R U) : Prop :=
  match r.stage with
  | .sent => r.fetches.length = 1
  | .refreshing k _ => r.fetches.length = 1 ∧ k < n ∧ r.call.path ∉ NO_REFRESH_PATHS
  | .resent => r.fetches.length = 2 ∧ r.call.path ∉ NO_REFRESH_PATHS
  | .resolved _ | .rejected _ =>
    r.fetches.length = 1 ∨ r.fetches.length = 2 ∧ r.call.path ∉ NO_REFRESH_PATHS

/-- Request `i` has been made to `path`. -/
def Tab.Requested (s : Tab A R U) (i : ℕ) (path : String) : Prop :=
  ∃ r, s.requests[i]? = some r ∧ r.call.path = path

/-- A flow awaits a promise that is there, and one of its own kind. -/
def Flow.Sound (s : Tab A R U) (f : Flow) : Prop :=
  match f.stage with
  | .refreshing k => k < s.refreshes.length ∧ (f.kind = .bootstrap ∨ f.kind = .reload)
  | .requesting i => f.kind = .login ∧ s.Requested i "/auth/login" ∨
      f.kind = .logout ∧ s.Requested i "/auth/logout"
  | .readingUser i => f.kind ≠ .logout ∧ s.Requested i "/auth/me"
  | .finished => True

/-- `refreshInFlight` is the one refresh that has not come to its end. -/
structure Tab.Wired (s : Tab A R U) : Prop where
  current : ∀ (k : ℕ) (r : RefreshStage A R), s.refreshes[k]? = some r → r.result = none →
    s.refreshInFlight = some k
  inFlight : ∀ k, s.refreshInFlight = some k → ∃ r, s.refreshes[k]? = some r ∧ r.result = none
  requests : ∀ (i : ℕ) (r : ApiRequest A R U), s.requests[i]? = some r → r.Sound s.refreshes.length
  flows : ∀ (j : ℕ) (f : Flow), s.flows[j]? = some f → f.Sound s

theorem RequestStage.outcome_isSome {stage : RequestStage A R U} (h : stage.outcome.isSome = true) :
    (∃ data, stage = .resolved data) ∨ ∃ error, stage = .rejected error := by
  cases stage with
  | resolved data => exact .inl ⟨data, rfl⟩
  | rejected error => exact .inr ⟨error, rfl⟩
  | _ => cases h

theorem ApiRequest.Sound.mono {n m : ℕ} {r : ApiRequest A R U} (h : r.Sound n) (hn : n ≤ m) :
    r.Sound m := by
  unfold Sound at h ⊢
  split
  · rename_i hstage
    rwa [hstage] at h
  · rename_i k error hstage
    rw [hstage] at h
    exact ⟨h.1, h.2.1.trans_le hn, h.2.2⟩
  · rename_i hstage
    rwa [hstage] at h
  · rename_i data hstage
    rwa [hstage] at h
  · rename_i error hstage
    rwa [hstage] at h

theorem ApiRequest.Sound.answered {n : ℕ} {r : ApiRequest A R U} {stage : RequestStage A R U}
    (h : r.Sound n) (hsettles : stage.outcome.isSome = true) :
    ApiRequest.Sound n { r with stage := stage } := by
  have hfetches : r.fetches.length = 1 ∨ r.fetches.length = 2 ∧ r.call.path ∉ NO_REFRESH_PATHS := by
    unfold ApiRequest.Sound at h
    split at h
    · exact .inl h
    · exact .inl h.1
    · exact .inr h
    · exact h
    · exact h
  rcases RequestStage.outcome_isSome hsettles with ⟨data, rfl⟩ | ⟨error, rfl⟩
  · exact hfetches
  · exact hfetches

theorem Flow.Sound.mono {s s' : Tab A R U} {f : Flow} (h : f.Sound s)
    (hrefreshes : s.refreshes.length ≤ s'.refreshes.length)
    (hrequests : ∀ i path, s.Requested i path → s'.Requested i path) : f.Sound s' := by
  unfold Flow.Sound at h ⊢
  split
  · rename_i hstage
    rw [hstage] at h
    exact ⟨h.1.trans_le hrefreshes, h.2⟩
  · rename_i hstage
    rw [hstage] at h
    exact h.imp (fun h => ⟨h.1, hrequests _ _ h.2⟩) fun h => ⟨h.1, hrequests _ _ h.2⟩
  · rename_i hstage
    rw [hstage] at h
    exact ⟨h.1, hrequests _ _ h.2⟩
  · trivial

namespace Tab

variable {env : Storage} {s s' : Tab A R U}

/-! ### What each change leaves of the promises -/

theorem requested_request {i : ℕ} {path : String} (h : s.Requested i path) (call : Call R) :
    (s.request call).Requested i path := by
  obtain ⟨r, hr, hpath⟩ := h
  exact ⟨r, getElem?_kept hr _, hpath⟩

theorem requested_new (call : Call R) :
    (s.request call).Requested s.requests.length call.path :=
  ⟨_, List.getElem?_concat_length, rfl⟩

theorem requested_putRequest {i j : ℕ} {path : String} {r : ApiRequest A R U}
    {fetches : List (Fetch A R)} {stage : RequestStage A R U} (hr : s.requests[i]? = some r)
    (h : s.Requested j path) :
    (s.putRequest i ⟨r.call, fetches, stage⟩).Requested j path := by
  obtain ⟨old, hold, hpath⟩ := h
  by_cases hj : j = i
  · subst hj
    cases hr.symm.trans hold
    exact ⟨_, List.getElem?_set_self (getElem?_lt hr), hpath⟩
  · exact ⟨old, by rw [← hold]; exact List.getElem?_set_ne (Ne.symm hj), hpath⟩

theorem requests_refreshAccessToken : (s.refreshAccessToken env).requests = s.requests := by
  unfold refreshAccessToken
  split <;> rfl

theorem flows_refreshAccessToken : (s.refreshAccessToken env).flows = s.flows := by
  unfold refreshAccessToken
  split <;> rfl

theorem length_refreshAccessToken :
    s.refreshes.length ≤ (s.refreshAccessToken env).refreshes.length := by
  unfold refreshAccessToken
  split
  · exact le_rfl
  · rw [List.length_append]
    exact Nat.le_add_right _ _

theorem Wired.sameWiring (h : s.Wired) (hs : s.SameWiring s') : s'.Wired := by
  obtain ⟨hinFlight, hrefreshes, hrequests, hflows⟩ := hs
  refine ⟨?_, ?_, ?_, ?_⟩
  · rw [hinFlight, hrefreshes]
    exact h.current
  · rw [hinFlight, hrefreshes]
    exact h.inFlight
  · rw [hrequests, hrefreshes]
    exact h.requests
  · intro j f hf
    rw [hflows] at hf
    refine (h.flows j f hf).mono (hrefreshes ▸ le_rfl) fun i path hi => ?_
    rwa [Requested, hrequests]

theorem Wired.request (h : s.Wired) (call : Call R) : (s.request call).Wired where
  current := h.current
  inFlight := h.inFlight
  requests i r hr := by
    rcases getElem?_add hr with hr | ⟨-, rfl⟩
    · exact h.requests i r hr
    · exact rfl
  flows j f hf := (h.flows j f hf).mono le_rfl fun i path hi => requested_request hi call

theorem Wired.putRequest (h : s.Wired) {i : ℕ} {r : ApiRequest A R U} {fetches : List (Fetch A R)}
    {stage : RequestStage A R U} (hr : s.requests[i]? = some r)
    (hsound : ApiRequest.Sound s.refreshes.length ⟨r.call, fetches, stage⟩) :
    (s.putRequest i ⟨r.call, fetches, stage⟩).Wired where
  current := h.current
  inFlight := h.inFlight
  requests j r' hr' := by
    rcases getElem?_put hr' with ⟨-, rfl⟩ | ⟨-, hr'⟩
    · exact hsound
    · exact h.requests j r' hr'
  flows j f hf := (h.flows j f hf).mono le_rfl fun _ _ hi => requested_putRequest hr hi

theorem Wired.addFlow (h : s.Wired) {kind : FlowKind} {stage : FlowStage}
    (hf : Flow.Sound s ⟨kind, stage, false⟩) : (s.addFlow kind stage).Wired where
  current := h.current
  inFlight := h.inFlight
  requests := h.requests
  flows j f hf' := by
    rcases getElem?_add hf' with hf' | ⟨-, rfl⟩
    · exact (h.flows j f hf').mono le_rfl fun _ _ hi => hi
    · exact hf.mono le_rfl fun _ _ hi => hi

theorem Wired.putFlow (h : s.Wired) {j : ℕ} {f : Flow} (hf : f.Sound s) : (s.putFlow j f).Wired where
  current := h.current
  inFlight := h.inFlight
  requests := h.requests
  flows i f' hf' := by
    rcases getElem?_put hf' with ⟨-, rfl⟩ | ⟨-, hf'⟩
    · exact hf.mono le_rfl fun _ _ hi => hi
    · exact (h.flows i f' hf').mono le_rfl fun _ _ hi => hi

theorem Wired.cancel (h : s.Wired) : Wired { s with flows := s.flows.map Flow.cancel } where
  current := h.current
  inFlight := h.inFlight
  requests := h.requests
  flows j f hf := by
    simp only [List.getElem?_map] at hf
    obtain ⟨f₀, hf₀, rfl⟩ := Option.map_eq_some_iff.mp hf
    have hsound := h.flows j f₀ hf₀
    unfold Flow.cancel
    split
    · exact hsound
    · exact hsound

theorem refreshPromise_lt (h : s.Wired) :
    s.refreshPromise < (s.refreshAccessToken env).refreshes.length := by
  cases hflight : s.refreshInFlight with
  | some k =>
    obtain ⟨r, hr, -⟩ := h.inFlight k hflight
    simp only [refreshPromise, refreshAccessToken, hflight, Option.getD_some]
    exact getElem?_lt hr
  | none =>
    simp only [refreshPromise, refreshAccessToken, hflight, Option.getD_none, List.length_append,
      List.length_singleton]
    exact Nat.lt_succ_self _

theorem Wired.refreshAccessToken (h : s.Wired) : (s.refreshAccessToken env).Wired := by
  have hrequests := h.requests
  have hflows := h.flows
  cases hflight : s.refreshInFlight with
  | some k =>
    rw [Tab.refreshAccessToken, hflight]
    exact h
  | none =>
    refine ⟨?_, ?_, ?_, ?_⟩
    · intro k r hr hresult
      simp only [Tab.refreshAccessToken, hflight] at hr ⊢
      rcases getElem?_add hr with hr | ⟨rfl, -⟩
      · have hnone := h.current k r hr hresult
        rw [hflight] at hnone
        cases hnone
      · rfl
    · intro k hk
      simp only [Tab.refreshAccessToken, hflight] at hk ⊢
      cases hk
      refine ⟨_, List.getElem?_concat_length, ?_⟩
      split <;> rfl
    · intro i r hr
      rw [requests_refreshAccessToken] at hr
      exact (hrequests i r hr).mono length_refreshAccessToken
    · intro j f hf
      rw [flows_refreshAccessToken] at hf
      refine (hflows j f hf).mono length_refreshAccessToken fun i path hi => ?_
      rwa [Requested, requests_refreshAccessToken]

theorem Wired.putRefresh (h : s.Wired) {k : ℕ} {r r' : RefreshStage A R}
    (hr : s.refreshes[k]? = some r) (hold : r.result = none) (hnew : r'.result = none) :
    (s.putRefresh k r').Wired where
  current i q hq hresult := by
    rcases getElem?_put hq with ⟨rfl, -⟩ | ⟨-, hq⟩
    · exact h.current i r hr hold
    · exact h.current i q hq hresult
  inFlight i hi := by
    obtain ⟨q, hq, hresult⟩ := h.inFlight i hi
    by_cases hik : i = k
    · subst hik
      exact ⟨r', List.getElem?_set_self (getElem?_lt hr), hnew⟩
    · exact ⟨q, by rw [← hq]; exact List.getElem?_set_ne (Ne.symm hik), hresult⟩
  requests i q hq := (h.requests i q hq).mono (List.length_set.ge)
  flows j f hf := (h.flows j f hf).mono (List.length_set.ge) fun _ _ hi => hi

theorem Wired.refreshSettled (h : s.Wired) {k : ℕ} {result : Option A}
    (hk : s.refreshes[k]? = some (.settled result)) : (s.refreshSettled k result).Wired where
  current i q hq hresult := by
    rcases getElem?_put hq with ⟨-, rfl⟩ | ⟨hik, hq⟩
    · cases hresult
    · have hi := h.current i q hq hresult
      have hk' := h.current k _ hk rfl
      rw [hi] at hk'
      exact absurd (Option.some.inj hk') hik
  inFlight i hi := by cases hi
  requests i q hq := (h.requests i q hq).mono (List.length_set.ge)
  flows j f hf := (h.flows j f hf).mono (List.length_set.ge) fun _ _ hi => hi

theorem Wired.readUser (h : s.Wired) {j : ℕ} {f : Flow} (hf : s.flows[j]? = some f)
    (hbrings : s.Brings f) : (s.readUser j f).Wired := by
  refine (h.request { path := "/auth/me" }).putFlow ⟨fun hkind => ?_, requested_new _⟩
  rcases hbrings with ⟨k, token, hstage, -⟩ | ⟨i, tokens, -, -, hlogin⟩
  · have hsound := h.flows j f hf
    rw [Flow.Sound, hstage] at hsound
    rcases hsound.2 with h | h <;> cases h.symm.trans hkind
  · cases hlogin.symm.trans hkind

/-! ### Every step keeps the promises -/

theorem Wired.move (h : s.Wired) (hmove : Move env s s') : s'.Wired := by
  cases hmove with
  | answered request waits settles =>
    exact h.putRequest request ((h.requests _ _ request).answered settles)
  | @unauthorized i r error request waits path =>
    have hsound := h.requests _ _ request
    rw [ApiRequest.Sound, waits] at hsound
    refine h.refreshAccessToken.putRequest ?_ ⟨hsound, refreshPromise_lt h, path⟩
    rwa [requests_refreshAccessToken]
  | @retried i k r error token request waits refreshed =>
    have hsound := h.requests _ _ request
    rw [ApiRequest.Sound, waits] at hsound
    refine h.putRequest request ⟨?_, hsound.2.2⟩
    rw [List.length_append, hsound.1]
    rfl
  | @expired i k r error request waits refused =>
    have hsound := h.requests _ _ request
    rw [ApiRequest.Sound, waits] at hsound
    exact h.putRequest request (.inl hsound.1)
  | refreshAnswered refresh => exact h.putRefresh refresh rfl rfl
  | refreshSettled refresh => exact h.refreshSettled refresh
  | finished flow goes => exact h.putFlow trivial
  | readsUser flow brings => exact h.readUser flow brings

/-- A step that is no call of a component writes the tokens and React's state at most, and then
makes one move. -/
theorem step_moves {e : Event A R U} (h : s.step (env, e) = some s')
    (hstart : e.starts = false) : ∃ s₁, s.Writes s₁ ∧ Move env s₁ s' := by
  cases e with
  | reply i reply =>
    obtain ⟨r, hr, -, ⟨hsent, rfl⟩ | ⟨hresent, rfl⟩⟩ := step_reply h
    · exact ⟨s, .refl s, firstReply_moves reply hr hsent⟩
    · exact retryReply_moves reply hr hresent
  | refreshReply k reply =>
    obtain ⟨token, hk, rfl⟩ := step_refreshReply h
    exact refreshReply_moves reply hk
  | refreshSettled k =>
    obtain ⟨result, hk, rfl⟩ := step_refreshSettled h
    exact ⟨s, .refl s, .refreshSettled hk⟩
  | resumeRequest i =>
    obtain ⟨r, k, error, result, hr, hwaits, hk, rfl⟩ := step_resumeRequest h
    exact refreshed_moves hr hwaits hk
  | resumeFlow j =>
    obtain ⟨f, hf, ⟨k, result, hstage, hk, rfl⟩ | ⟨i, outcome, hstage, hi, rfl⟩ |
      ⟨i, outcome, hstage, -, rfl⟩⟩ := step_resumeFlow h
    · exact flowRefreshed_moves hf hstage hk
    · exact flowAnswered_moves hf hstage hi
    · exact userRead_moves outcome hf hstage
  | _ => cases hstart

theorem Wired.step {e : Storage × Event A R U} (h : s.Wired) (hs : s.step e = some s') :
    s'.Wired := by
  obtain ⟨env, e⟩ := e
  cases hstart : e.starts with
  | false =>
    obtain ⟨s₁, hsame, hmove⟩ := step_moves hs hstart
    exact (h.sameWiring hsame.toSameWiring).move hmove
  | true =>
    cases e with
    | call call =>
      cases hs
      exact h.request call
    | mount =>
      cases hs
      unfold mount
      dsimp only
      have hcancel := h.cancel
      split
      · exact hcancel.sameWiring ⟨rfl, rfl, rfl, rfl⟩
      · exact hcancel.refreshAccessToken.addFlow ⟨refreshPromise_lt hcancel, .inl rfl⟩
    | login email password tenantId =>
      cases hs
      exact (h.request _).addFlow (.inl ⟨rfl, requested_new _⟩)
    | reload =>
      cases hs
      exact h.refreshAccessToken.addFlow ⟨refreshPromise_lt h, .inr rfl⟩
    | logout =>
      cases hs
      unfold logout
      split
      · exact h.sameWiring sameWiring_clearSession
      · exact (h.request _).addFlow (.inr ⟨rfl, requested_new _⟩)
    | _ => cases hstart

/-- A page that has just been loaded. -/
def fresh (stored : Option R) : Tab A R U := { stored := stored }

theorem wired_fresh (stored : Option R) : (fresh stored : Tab A R U).Wired := by
  refine ⟨fun k r hr => ?_, fun k hk => ?_, fun i r hr => ?_, fun j f hf => ?_⟩
  · cases hr
  · cases hk
  · cases hr
  · cases hf

theorem wired_of_run {stored : Option R} {es : List (Storage × Event A R U)}
    (hrun : runAll step (fresh stored) es = some s) : s.Wired :=
  runAll_keeps (fun _ _ _ h hs => h.step hs) (wired_fresh stored) hrun

/-! ### Every call comes to its end -/

end Tab

/-- The steps that follow from where a call stands, at most. -/
def RequestStage.weight : RequestStage A R U → ℕ
  | sent => 5
  | refreshing _ _ => 2
  | resent => 1
  | resolved _ | rejected _ => 0

def RefreshStage.weight : RefreshStage A R → ℕ
  | sent _ => 2
  | settled _ => 1
  | done _ => 0

def FlowStage.weight : FlowStage → ℕ
  | refreshing _ | requesting _ => 7
  | readingUser _ => 1
  | finished => 0

namespace Tab

variable {env : Storage} {s s' : Tab A R U}

/-- The steps that are still to come when nothing is called any more, at most. -/
def pending (s : Tab A R U) : ℕ :=
  (s.requests.map fun r => r.stage.weight).sum + (s.refreshes.map (·.weight)).sum +
    (s.flows.map fun f => f.stage.weight).sum

theorem pending_sameWiring (h : s.SameWiring s') : s'.pending = s.pending := by
  rw [pending, pending, h.requests, h.refreshes, h.flows]

theorem pending_request (call : Call R) : (s.request call).pending = s.pending + 5 := by
  have hadd := weight_add (fun r : ApiRequest A R U => r.stage.weight) s.requests
    ⟨call, [s.fetch call], .sent⟩
  have hsent : (RequestStage.sent : RequestStage A R U).weight = 5 := rfl
  dsimp only at hadd
  simp only [pending, request]
  omega

theorem pending_addFlow (kind : FlowKind) (stage : FlowStage) :
    (s.addFlow kind stage).pending = s.pending + stage.weight := by
  simp only [pending, addFlow, weight_add (fun f : Flow => f.stage.weight)]
  omega

theorem pending_refreshAccessToken (env : Storage) (s : Tab A R U) :
    (s.refreshAccessToken env).pending ≤ s.pending + 2 := by
  unfold refreshAccessToken
  split
  · exact Nat.le_add_right _ _
  · have hadd (r : RefreshStage A R) (hr : r.weight ≤ 2) :
        ((s.refreshes ++ [r]).map (·.weight)).sum ≤ (s.refreshes.map (·.weight)).sum + 2 := by
      have hsum := weight_add (fun r : RefreshStage A R => r.weight) s.refreshes r
      omega
    simp only [pending]
    split
    · have hle := hadd (.settled none) (Nat.le_succ 1)
      omega
    · rename_i token _
      have hle := hadd (.sent token) le_rfl
      omega

theorem pending_putRequest {i : ℕ} {r : ApiRequest A R U} (hr : s.requests[i]? = some r)
    (r' : ApiRequest A R U) :
    (s.putRequest i r').pending + r.stage.weight = s.pending + r'.stage.weight := by
  have hput := weight_put (fun r : ApiRequest A R U => r.stage.weight) hr r'
  simp only [pending, putRequest]
  omega

theorem pending_putRefresh {k : ℕ} {r : RefreshStage A R} (hr : s.refreshes[k]? = some r)
    (r' : RefreshStage A R) :
    (s.putRefresh k r').pending + r.weight = s.pending + r'.weight := by
  have hput := weight_put (fun r : RefreshStage A R => r.weight) hr r'
  simp only [pending, putRefresh]
  omega

theorem pending_putFlow {j : ℕ} {f : Flow} (hf : s.flows[j]? = some f) (f' : Flow) :
    (s.putFlow j f').pending + f.stage.weight = s.pending + f'.stage.weight := by
  have hput := weight_put (fun f : Flow => f.stage.weight) hf f'
  simp only [pending, putFlow]
  omega

theorem pending_cancel : pending { s with flows := s.flows.map Flow.cancel } = s.pending := by
  have hflows : (s.flows.map Flow.cancel).map (fun f => f.stage.weight) =
      s.flows.map fun f => f.stage.weight := by
    rw [List.map_map]
    refine List.map_congr_left fun f _ => ?_
    simp only [Function.comp_apply, Flow.cancel]
    split <;> rfl
  rw [pending, pending, hflows]

theorem pending_readUser {j : ℕ} {f : Flow} (hf : s.flows[j]? = some f) :
    (s.readUser j f).pending + f.stage.weight = s.pending + 6 := by
  have hput := pending_putFlow (s := s.request { path := "/auth/me" }) hf
    { f with stage := .readingUser s.requests.length }
  rw [pending_request] at hput
  exact hput

/-- Every move brings the promises nearer to their ends. -/
theorem pending_move (hmove : Move env s s') : s'.pending < s.pending := by
  cases hmove with
  | @answered i r stage request waits settles =>
    have hput := pending_putRequest request { r with stage := stage }
    have hsettled : stage.weight = 0 := by
      rcases RequestStage.outcome_isSome settles with ⟨data, rfl⟩ | ⟨error, rfl⟩ <;> rfl
    have hwaits : 0 < r.stage.weight := by
      rcases waits with h | h <;> rw [h] <;> exact Nat.succ_pos _
    dsimp only at hput
    omega
  | @unauthorized i r error request waits path =>
    have hput := pending_putRequest (s := s.refreshAccessToken env)
      (requests_refreshAccessToken ▸ request) { r with stage := .refreshing s.refreshPromise error }
    have hrefresh := pending_refreshAccessToken env s
    have hsent : r.stage.weight = 5 := by rw [waits]; rfl
    have hwaits : (RequestStage.refreshing s.refreshPromise error : RequestStage A R U).weight = 2 := rfl
    dsimp only at hput
    omega
  | @retried i k r error token request waits refreshed =>
    have hput := pending_putRequest request
      { r with fetches := r.fetches ++ [s.fetch r.call], stage := .resent }
    have hwaits : r.stage.weight = 2 := by rw [waits]; rfl
    have hresent : (RequestStage.resent : RequestStage A R U).weight = 1 := rfl
    dsimp only at hput
    omega
  | @expired i k r error request waits refused =>
    have hput := pending_putRequest request { r with stage := .rejected error }
    have hwaits : r.stage.weight = 2 := by rw [waits]; rfl
    have hrejected : (RequestStage.rejected error : RequestStage A R U).weight = 0 := rfl
    dsimp only at hput
    omega
  | @refreshAnswered k token result refresh =>
    have hput := pending_putRefresh refresh (.settled result)
    have hsent : (RefreshStage.sent token : RefreshStage A R).weight = 2 := rfl
    have hsettled : (RefreshStage.settled result : RefreshStage A R).weight = 1 := rfl
    omega
  | @refreshSettled k result refresh =>
    have hput := pending_putRefresh refresh (.done result)
    have hsettled : (RefreshStage.settled result : RefreshStage A R).weight = 1 := rfl
    have hdone : (RefreshStage.done result : RefreshStage A R).weight = 0 := rfl
    have hsame : (s.refreshSettled k result).pending = (s.putRefresh k (.done result)).pending := rfl
    omega
  | @finished j f flow goes =>
    have hput := pending_putFlow flow { f with stage := .finished }
    have hfinished : FlowStage.finished.weight = 0 := rfl
    have hgoes : 0 < f.stage.weight := by
      cases hstage : f.stage with
      | finished => exact absurd hstage goes
      | _ => exact Nat.succ_pos _
    have hsame : (s.finishFlow j f).pending =
      (s.putFlow j { f with stage := .finished }).pending := rfl
    dsimp only at hput
    omega
  | @readsUser j f flow brings =>
    have hread := pending_readUser flow
    have hgoes : f.stage.weight = 7 := by
      rcases brings with ⟨k, token, h, -⟩ | ⟨i, tokens, h, -⟩ <;> rw [h] <;> rfl
    omega

theorem pending_start {e : Event A R U} (hs : s.step (env, e) = some s')
    (hstart : e.starts = true) : s'.pending ≤ s.pending + 12 := by
  have hrefresh := pending_refreshAccessToken env s
  have hawaits (n : ℕ) : (FlowStage.refreshing n).weight = 7 := rfl
  have hrequests (n : ℕ) : (FlowStage.requesting n).weight = 7 := rfl
  cases e with
  | call call =>
    cases hs
    rw [pending_request]
    omega
  | mount =>
    cases hs
    unfold mount
    dsimp only
    have hcancel := pending_cancel (s := s)
    split
    · exact hcancel.le.trans (Nat.le_add_right _ _)
    · rw [pending_addFlow]
      have hrefresh := pending_refreshAccessToken env
        { s with flows := s.flows.map Flow.cancel }
      have hweight := hawaits (refreshPromise { s with flows := s.flows.map Flow.cancel })
      omega
  | login email password tenantId =>
    cases hs
    rw [login, pending_addFlow, pending_request, hrequests]
  | reload =>
    cases hs
    rw [reloadSession, pending_addFlow, hawaits]
    omega
  | logout =>
    cases hs
    unfold logout
    split
    · rw [pending_sameWiring sameWiring_clearSession]
      omega
    · rw [pending_addFlow, pending_request, hrequests]
  | _ => cases hstart

/-- A call, a refresh or a flow is still on its way. -/
def Unfinished (s : Tab A R U) : Prop :=
  (∃ (i : ℕ) (r : ApiRequest A R U), s.requests[i]? = some r ∧ r.stage.outcome = none) ∨
    (∃ (k : ℕ) (r : RefreshStage A R), s.refreshes[k]? = some r ∧ r.result = none) ∨
    ∃ (j : ℕ) (f : Flow), s.flows[j]? = some f ∧ f.stage ≠ .finished

/-- A step that is no call of a component can be made. -/
def CanGoOn (s : Tab A R U) : Prop :=
  ∃ (env : Storage) (e : Event A R U), e.starts = false ∧ (s.step (env, e)).isSome = true

theorem refresh_goes_on {k : ℕ} {r : RefreshStage A R} (hk : s.refreshes[k]? = some r)
    (hr : r.result = none) : s.CanGoOn := by
  cases r with
  | sent token =>
    refine ⟨{}, .refreshReply k (.error ""), rfl, ?_⟩
    simp only [step, hk]
    rfl
  | settled result =>
    refine ⟨{}, .refreshSettled k, rfl, ?_⟩
    simp only [step, hk]
    rfl
  | done result => cases hr

theorem awaited_refresh {k : ℕ} (hk : k < s.refreshes.length) :
    s.CanGoOn ∨ ∃ result, s.refreshResult k = some result := by
  have hr := List.getElem?_eq_getElem hk
  cases hresult : s.refreshes[k].result with
  | none => exact .inl (refresh_goes_on hr hresult)
  | some result =>
    refine .inr ⟨result, ?_⟩
    rw [refreshResult, hr, Option.bind_some, hresult]

theorem request_goes_on (hw : s.Wired) {i : ℕ} {r : ApiRequest A R U}
    (hi : s.requests[i]? = some r) (hr : r.stage.outcome = none) : s.CanGoOn := by
  have hreply (hstage : r.stage = .sent ∨ r.stage = .resent) : s.CanGoOn := by
    refine ⟨{}, .reply i (.error ""), rfl, ?_⟩
    simp only [step, hi, Option.bind_some, fits, if_true, Tab.reply]
    rcases hstage with h | h <;> rw [h] <;> rfl
  cases hstage : r.stage with
  | sent => exact hreply (.inl hstage)
  | resent => exact hreply (.inr hstage)
  | refreshing k error =>
    have hsound := hw.requests i r hi
    rw [ApiRequest.Sound, hstage] at hsound
    rcases awaited_refresh hsound.2.1 with h | ⟨result, hresult⟩
    · exact h
    · refine ⟨{}, .resumeRequest i, rfl, ?_⟩
      simp only [step, hi, Option.bind_some, resumeRequest, hstage, hresult]
      rfl
  | resolved data =>
    rw [hstage] at hr
    cases hr
  | rejected error =>
    rw [hstage] at hr
    cases hr

theorem awaited_request (hw : s.Wired) {i : ℕ} {path : String} (hi : s.Requested i path) :
    s.CanGoOn ∨ ∃ outcome, s.answer i = some outcome := by
  obtain ⟨r, hr, -⟩ := hi
  cases houtcome : r.stage.outcome with
  | none => exact .inl (request_goes_on hw hr houtcome)
  | some outcome =>
    refine .inr ⟨outcome, ?_⟩
    rw [answer, hr, Option.bind_some, houtcome]

theorem flow_goes_on (hw : s.Wired) {j : ℕ} {f : Flow} (hf : s.flows[j]? = some f)
    (hlive : f.stage ≠ .finished) : s.CanGoOn := by
  have hresume (h : (s.resumeFlow {} j f).isSome = true) : s.CanGoOn := by
    refine ⟨{}, .resumeFlow j, rfl, ?_⟩
    simp only [step, hf, Option.bind_some, h]
  have hsound := hw.flows j f hf
  unfold Flow.Sound at hsound
  cases hstage : f.stage with
  | refreshing k =>
    rw [hstage] at hsound
    rcases awaited_refresh hsound.1 with h | ⟨result, hresult⟩
    · exact h
    · exact hresume (by simp only [resumeFlow, hstage, hresult, Option.map_some, Option.isSome_some])
  | requesting i =>
    rw [hstage] at hsound
    rcases hsound.elim (fun h => awaited_request hw h.2) fun h => awaited_request hw h.2 with
      h | ⟨outcome, houtcome⟩
    · exact h
    · exact hresume (by simp only [resumeFlow, hstage, houtcome, Option.map_some, Option.isSome_some])
  | readingUser i =>
    rw [hstage] at hsound
    rcases awaited_request hw hsound.2 with h | ⟨outcome, houtcome⟩
    · exact h
    · exact hresume (by simp only [resumeFlow, hstage, houtcome, Option.map_some, Option.isSome_some])
  | finished => exact absurd hstage hlive

theorem goes_on (hw : s.Wired) (h : s.Unfinished) : s.CanGoOn := by
  rcases h with ⟨i, r, hi, hr⟩ | ⟨k, r, hk, hr⟩ | ⟨j, f, hf, hlive⟩
  · exact request_goes_on hw hi hr
  · exact refresh_goes_on hk hr
  · exact flow_goes_on hw hf hlive

/-- The steps that are no calls are paid for by those that are. -/
theorem pending_run {es : List (Storage × Event A R U)} (hw : s.Wired)
    (hrun : runAll step s es = some s') :
    es.countP (fun e => !e.2.starts) + s'.pending ≤ 12 * es.countP (fun e => e.2.starts) + s.pending := by
  induction es generalizing s with
  | nil =>
    cases hrun
    exact le_rfl
  | cons e es ih =>
    obtain ⟨s₁, hs, hrun⟩ := Option.bind_eq_some_iff.mp hrun
    have htail := ih (hw.step hs) hrun
    obtain ⟨env, e⟩ := e
    cases hstart : e.starts with
    | true =>
      have hle := pending_start hs hstart
      simp only [List.countP_cons, hstart, Bool.not_true, if_true, Bool.false_eq_true, if_false]
      omega
    | false =>
      obtain ⟨s₂, hsame, hmove⟩ := step_moves hs hstart
      have hlt := pending_move hmove
      rw [pending_sameWiring hsame.toSameWiring] at hlt
      simp only [List.countP_cons, hstart, Bool.not_false, if_true, Bool.false_eq_true, if_false]
      omega

/-- However the replies fall, a page makes at most twelve steps for each call of a component,
and none of its calls, refreshes and flows is left waiting. -/
theorem every_call_settles {stored : Option R} {es : List (Storage × Event A R U)}
    (hrun : runAll step (fresh stored) es = some s) :
    es.countP (fun e => !e.2.starts) ≤ 12 * es.countP (fun e => e.2.starts) ∧
      (s.Unfinished → s.CanGoOn) := by
  have hpaid := pending_run (wired_fresh stored) hrun
  have hzero : (fresh stored : Tab A R U).pending = 0 := rfl
  exact ⟨by omega, goes_on (wired_of_run hrun)⟩

/-- Two calls are refused, share a refresh, and the first of them is sent again. -/
def sharedEvents : List (Storage × Event ℕ ℕ ℕ) :=
  [({}, .call { path := "/roles" }), ({}, .call { path := "/users" }),
    ({}, .reply 0 (.ok ⟨401, some (.failure ⟨"UNAUTHORIZED", "", none⟩)⟩)),
    ({}, .reply 1 (.ok ⟨401, some (.failure ⟨"UNAUTHORIZED", "", none⟩)⟩)),
    ({}, .refreshReply 0 (.ok ⟨200, some (.success ⟨7, 2⟩)⟩)), ({}, .refreshSettled 0),
    ({}, .resumeRequest 0)]

def sharedTab : Tab ℕ ℕ ℕ where
  accessToken := some 7
  stored := some 2
  refreshes := [.done (some 7)]
  requests := [⟨{ path := "/roles" }, [⟨"/roles", none, .empty⟩, ⟨"/roles", some 7, .empty⟩], .resent⟩,
    ⟨{ path := "/users" }, [⟨"/users", none, .empty⟩], .refreshing 0 ⟨"UNAUTHORIZED", "", none⟩⟩]
  react := { accessToken := some 7 }

theorem every_call_settles_shared :
    sharedEvents.countP (fun e => !e.2.starts) ≤ 12 * sharedEvents.countP (fun e => e.2.starts) ∧
      (sharedTab.Unfinished → sharedTab.CanGoOn) :=
  @every_call_settles ℕ ℕ ℕ sharedTab (some 1) sharedEvents rfl

/-! ### One refresh, one retry -/

/-- At most one refresh is out, and a call is sent twice at most; the paths that are an
authentication of their own are sent once and never await a refresh. -/
theorem refresh_and_retry_once {stored : Option R} {es : List (Storage × Event A R U)}
    (hrun : runAll step (fresh stored) es = some s) :
    (∀ (k k' : ℕ) (token token' : R), s.refreshes[k]? = some (.sent token) →
      s.refreshes[k']? = some (.sent token') → k = k') ∧
    ∀ (i : ℕ) (r : ApiRequest A R U), s.requests[i]? = some r → r.fetches.length ≤ 2 ∧
      (r.call.path ∈ NO_REFRESH_PATHS →
        r.fetches.length = 1 ∧ ∀ k error, r.stage ≠ .refreshing k error) := by
  have hw := wired_of_run hrun
  constructor
  · intro k k' token token' hk hk'
    have hcurrent := hw.current k _ hk rfl
    rw [hw.current k' _ hk' rfl] at hcurrent
    exact (Option.some.inj hcurrent).symm
  · intro i r hr
    have hsound := hw.requests i r hr
    unfold ApiRequest.Sound at hsound
    split at hsound
    · rename_i hstage
      refine ⟨by omega, fun _ => ⟨hsound, fun k error h => ?_⟩⟩
      cases hstage.symm.trans h
    · exact ⟨by omega, fun hpath => absurd hpath hsound.2.2⟩
    · exact ⟨by omega, fun hpath => absurd hpath hsound.2⟩
    · rename_i hstage
      refine ⟨by omega, fun hpath => ⟨hsound.resolve_right fun h => h.2 hpath, fun k error h => ?_⟩⟩
      cases hstage.symm.trans h
    · rename_i hstage
      refine ⟨by omega, fun hpath => ⟨hsound.resolve_right fun h => h.2 hpath, fun k error h => ?_⟩⟩
      cases hstage.symm.trans h

theorem refresh_and_retry_once_shared : sharedTab.requests.length = 2 ∧
    ∀ (i : ℕ) (r : ApiRequest ℕ ℕ ℕ), sharedTab.requests[i]? = some r → r.fetches.length ≤ 2 :=
  ⟨rfl, fun i r hr =>
    ((@refresh_and_retry_once ℕ ℕ ℕ sharedTab (some 1) sharedEvents rfl).2 i r hr).1⟩

end Tab
end Flexi.Client.Session
