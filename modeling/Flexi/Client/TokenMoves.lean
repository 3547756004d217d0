import Flexi.Client.SessionRuns

/-!
# What the steps of a tab do with its refresh tokens

A step may find that the local storage throws; only the end of a logout has to write.
-/

namespace Flexi.Client.Session
open Flexi.Library

variable {A R U : Type}

namespace Tab

/-- A refresh with this token is out. -/
def Refreshing (s : Tab A R U) (token : R) : Prop :=
  ∃ k : ℕ, s.refreshes[k]? = some (RefreshStage.sent token)

/-- Flow `j`, a login or a logout, waits for the answer of request `i`. -/
def Requesting (s : Tab A R U) (j : ℕ) (kind : FlowKind) (i : ℕ) : Prop :=
  ∃ f : Flow, s.flows[j]? = some f ∧ f.kind = kind ∧ f.stage = .requesting i

/-- A logout that presents this token has not come to its end. -/
def LoggingOut (s : Tab A R U) (token : R) : Prop :=
  ∃ (j i : ℕ) (r : ApiRequest A R U), s.Requesting j .logout i ∧ s.requests[i]? = some r ∧
    r.call.body = .refreshToken token

/-- A login waits for the answer of request `i`. -/
def AwaitsTokens (s : Tab A R U) (i : ℕ) : Prop := ∃ j, s.Requesting j .login i

/-- No two flows wait for the same answer. -/
def Paired (s : Tab A R U) : Prop :=
  ∀ (j j' : ℕ) (kind kind' : FlowKind) (i : ℕ), s.Requesting j kind i → s.Requesting j' kind' i →
    j = j'

/-- The paths that only the auth context calls. -/
def TOKEN_PATHS : List String := ["/auth/login", "/auth/logout"]

/-- The step leaves what a refresh, a login or a logout waits for, and takes a token only from
the store or from a login's answer. -/
structure TokenStep (s s' : Tab A R U) : Prop where
  stored : s'.stored = s.stored ∨ s'.stored = none ∨ ∃ j i tokens, s.Requesting j .login i ∧
    s.answer i = some (.ok (some (.tokens tokens))) ∧ ¬ s'.Requesting j .login i ∧
      s'.stored = some tokens.refreshToken
  started : ∀ (k : ℕ) (token : R), s'.refreshes[k]? = some (.sent token) →
    s.refreshes[k]? = some (.sent token) ∨
      s.stored = some token ∧ s'.stored = s.stored ∧ s.refreshInFlight = none ∧
        k = s.refreshes.length
  sent : ∀ (k : ℕ) (token : R), s.refreshes[k]? = some (.sent token) →
    s'.refreshes[k]? = some (.sent token)
  grows : s.refreshes.length ≤ s'.refreshes.length
  requesting : ∀ j kind i, s'.Requesting j kind i → s.Requesting j kind i ∨
    j = s.flows.length ∧ i = s.requests.length ∧ (kind = .logout → ∃ r token,
      s'.requests[i]? = some r ∧ r.call.body = .refreshToken token ∧ s.stored = some token ∧
        s'.stored = s.stored)
  ended : ∀ j kind i, s.Requesting j kind i → s'.Requesting j kind i ∨
    (s.answer i).isSome = true ∧ (kind = .logout → s'.stored = none)
  requests : ∀ (i : ℕ) (r : ApiRequest A R U), s.requests[i]? = some r → ∃ r',
    s'.requests[i]? = some r' ∧ r'.call = r.call ∧ (r.call.path ∈ TOKEN_PATHS → r' = r)
  fresh : ∀ (i : ℕ) (r : ApiRequest A R U), s'.requests[i]? = some r → s.requests.length ≤ i →
    r.stage = .sent ∧ (r.call.path ∈ TOKEN_PATHS → ∃ j kind, s'.Requesting j kind i)

variable {env : Storage} {s s' : Tab A R U}

/-! ### The flows -/

theorem requesting_addFlow {kind₀ kind : FlowKind} {stage : FlowStage} {j i : ℕ} :
    (s.addFlow kind₀ stage).Requesting j kind i ↔ s.Requesting j kind i ∨
      j = s.flows.length ∧ kind₀ = kind ∧ stage = .requesting i := by
  constructor
  · rintro ⟨f, hf, hkind, hstage⟩
    rcases getElem?_add hf with hf | ⟨hj, rfl⟩
    · exact .inl ⟨f, hf, hkind, hstage⟩
    · exact .inr ⟨hj, hkind, hstage⟩
  · rintro (⟨f, hf, hkind, hstage⟩ | ⟨rfl, hkind, hstage⟩)
    · exact ⟨f, getElem?_kept hf _, hkind, hstage⟩
    · exact ⟨_, List.getElem?_concat_length, hkind, hstage⟩

theorem requesting_putFlow {f : Flow} {j₀ j i : ℕ} {kind : FlowKind}
    (hf : ∀ n, f.stage ≠ .requesting n) :
    (s.putFlow j₀ f).Requesting j kind i ↔ j ≠ j₀ ∧ s.Requesting j kind i := by
  constructor
  · rintro ⟨f', hf', hkind, hstage⟩
    rcases getElem?_put hf' with ⟨-, rfl⟩ | ⟨hj, hf'⟩
    · exact absurd hstage (hf i)
    · exact ⟨hj, f', hf', hkind, hstage⟩
  · rintro ⟨hj, f', hf', hkind, hstage⟩
    exact ⟨f', by rw [← hf']; exact List.getElem?_set_ne (Ne.symm hj), hkind, hstage⟩

theorem requesting_cancel {j i : ℕ} {kind : FlowKind} :
    Requesting { s with flows := s.flows.map Flow.cancel } j kind i ↔ s.Requesting j kind i := by
  have hcancel (f : Flow) : f.cancel.kind = f.kind ∧ f.cancel.stage = f.stage := by
    unfold Flow.cancel
    split <;> exact ⟨rfl, rfl⟩
  constructor
  · rintro ⟨f, hf, hkind, hstage⟩
    simp only [List.getElem?_map] at hf
    obtain ⟨f₀, hf₀, rfl⟩ := Option.map_eq_some_iff.mp hf
    exact ⟨f₀, hf₀, (hcancel f₀).1.symm.trans hkind, (hcancel f₀).2.symm.trans hstage⟩
  · rintro ⟨f, hf, hkind, hstage⟩
    refine ⟨f.cancel, ?_, (hcancel f).1.trans hkind, (hcancel f).2.trans hstage⟩
    simp only [List.getElem?_map, hf, Option.map_some]

theorem requesting_congr (h : s'.flows = s.flows) {j i : ℕ} {kind : FlowKind} :
    s'.Requesting j kind i ↔ s.Requesting j kind i := by
  rw [Requesting, Requesting, h]

/-! ### What follows for the tokens -/

theorem Wired.requesting_lt (h : s.Wired) {j i : ℕ} {kind : FlowKind} (hr : s.Requesting j kind i) :
    i < s.requests.length := by
  obtain ⟨f, hf, -, hstage⟩ := hr
  have hsound := h.flows j f hf
  rw [Flow.Sound, hstage] at hsound
  rcases hsound with ⟨-, r, hr, -⟩ | ⟨-, r, hr, -⟩
  · exact getElem?_lt hr
  · exact getElem?_lt hr

theorem TokenStep.paired (h : TokenStep s s') (hw : s.Wired) (hp : s.Paired) : s'.Paired := by
  intro j j' kind kind' i hj hj'
  rcases h.requesting j kind i hj with hold | ⟨hnew, hi, -⟩
  · rcases h.requesting j' kind' i hj' with hold' | ⟨-, hi', -⟩
    · exact hp j j' kind kind' i hold hold'
    · exact absurd hi' (hw.requesting_lt hold).ne
  · rcases h.requesting j' kind' i hj' with hold' | ⟨hnew', -, -⟩
    · exact absurd hi (hw.requesting_lt hold').ne
    · exact hnew.trans hnew'.symm

theorem TokenStep.loggingOut (h : TokenStep s s') (hw : s.Wired) {token : R}
    (hout : s'.LoggingOut token) :
    s.LoggingOut token ∨ s.stored = some token ∧ s'.stored = s.stored := by
  obtain ⟨j, i, r, hr, hi, hbody⟩ := hout
  rcases h.requesting j _ i hr with hold | ⟨-, -, hnew⟩
  · obtain ⟨q, hq⟩ : ∃ q, s.requests[i]? = some q :=
      ⟨_, List.getElem?_eq_getElem (hw.requesting_lt hold)⟩
    obtain ⟨q', hq', hcall, -⟩ := h.requests i q hq
    cases hi.symm.trans hq'
    exact .inl ⟨j, i, q, hold, hq, hcall ▸ hbody⟩
  · obtain ⟨q, token', hq, hbody', hstored, hkept⟩ := hnew rfl
    cases hi.symm.trans hq
    cases hbody.symm.trans hbody'
    exact .inr ⟨hstored, hkept⟩

theorem TokenStep.loggedOut (h : TokenStep s s') {token : R} (hout : s.LoggingOut token) :
    s'.LoggingOut token ∨ s'.stored = none := by
  obtain ⟨j, i, r, hr, hi, hbody⟩ := hout
  rcases h.ended j _ i hr with hkept | hnone
  · obtain ⟨r', hr', hcall, -⟩ := h.requests i r hi
    exact .inl ⟨j, i, r', hkept, hr', hcall ▸ hbody⟩
  · exact .inr (hnone.2 rfl)

theorem TokenStep.awaits (h : TokenStep s s') {i : ℕ} (hi : s'.AwaitsTokens i) :
    s.AwaitsTokens i ∨ i = s.requests.length := by
  obtain ⟨j, hj⟩ := hi
  rcases h.requesting j _ i hj with hold | ⟨-, hnew, -⟩
  · exact .inl ⟨j, hold⟩
  · exact .inr hnew

theorem TokenStep.consumed (h : TokenStep s s') (hw : s.Wired) (hp : s.Paired) {i j : ℕ}
    (hj : s.Requesting j .login i) (hended : ¬ s'.Requesting j .login i) : ¬ s'.AwaitsTokens i := by
  rintro ⟨j', hj'⟩
  rcases h.requesting j' _ i hj' with hold | ⟨-, hnew, -⟩
  · obtain rfl := hp j j' _ _ i hj hold
    exact hended hj'
  · exact absurd hnew (hw.requesting_lt hj).ne

/-! ### The steps -/

theorem TokenStep.refl (s : Tab A R U) : TokenStep s s where
  stored := .inl rfl
  started _ _ h := .inl h
  sent _ _ h := h
  grows := le_rfl
  requesting _ _ _ h := .inl h
  ended _ _ _ h := .inl h
  requests _ r h := ⟨r, h, rfl, fun _ => rfl⟩
  fresh _ _ h hi := absurd (getElem?_lt h) hi.not_gt

theorem TokenStep.cleared (h : s'.SameWiring s) (hstored : s.stored = s'.stored ∨ s.stored = none) :
    TokenStep s' s where
  stored := hstored.imp_right .inl
  started k token hk := .inl (h.refreshes ▸ hk)
  sent k token hk := h.refreshes ▸ hk
  grows := (congrArg List.length h.refreshes).ge
  requesting _ _ _ hr := .inl ((requesting_congr h.flows).mp hr)
  ended _ _ _ hr := .inl ((requesting_congr h.flows).mpr hr)
  requests _ r hr := ⟨r, h.requests ▸ hr, rfl, fun _ => rfl⟩
  fresh _ _ hr hi := by
    rw [h.requests] at hr
    exact absurd (getElem?_lt hr) hi.not_gt

theorem TokenStep.putRequest {s₁ : Tab A R U} (h : TokenStep s s₁) {i : ℕ} {r : ApiRequest A R U}
    {fetches : List (Fetch A R)} {stage : RequestStage A R U} (hi : i < s.requests.length)
    (hr : s₁.requests[i]? = some r) (hpath : r.call.path ∉ TOKEN_PATHS) :
    TokenStep s (s₁.putRequest i ⟨r.call, fetches, stage⟩) where
  stored := h.stored
  started := h.started
  sent := h.sent
  grows := h.grows
  requesting j kind n hj := by
    refine (h.requesting j kind n hj).imp_right fun ⟨hnew, hn, hlogout⟩ => ⟨hnew, hn, fun hk => ?_⟩
    obtain ⟨q, token, hq, hrest⟩ := hlogout hk
    refine ⟨q, token, ?_, hrest⟩
    rw [← hq]
    exact List.getElem?_set_ne (by omega)
  ended := h.ended
  requests n q hq := by
    obtain ⟨q', hq', hcall, hsame⟩ := h.requests n q hq
    by_cases hn : n = i
    · subst hn
      cases hr.symm.trans hq'
      refine ⟨_, List.getElem?_set_self (getElem?_lt hr), hcall, fun hp => ?_⟩
      exact absurd (hcall ▸ hp) hpath
    · exact ⟨q', by rw [← hq']; exact List.getElem?_set_ne (Ne.symm hn), hcall, hsame⟩
  fresh n q hq hn := by
    rcases getElem?_put hq with ⟨rfl, -⟩ | ⟨-, hq⟩
    · exact absurd hi hn.not_gt
    · exact h.fresh n q hq hn

theorem TokenStep.request {s₁ : Tab A R U} (h : TokenStep s s₁) {call : Call R}
    (hpath : call.path ∉ TOKEN_PATHS) : TokenStep s (s₁.request call) where
  stored := h.stored
  started := h.started
  sent := h.sent
  grows := h.grows
  requesting j kind n hj := by
    refine (h.requesting j kind n hj).imp_right fun ⟨hnew, hn, hlogout⟩ => ⟨hnew, hn, fun hk => ?_⟩
    obtain ⟨q, token, hq, hrest⟩ := hlogout hk
    exact ⟨q, token, getElem?_kept hq _, hrest⟩
  ended := h.ended
  requests n q hq := by
    obtain ⟨q', hq', hcall, hsame⟩ := h.requests n q hq
    exact ⟨q', getElem?_kept hq' _, hcall, hsame⟩
  fresh n q hq hn := by
    rcases getElem?_add hq with hq | ⟨-, rfl⟩
    · exact h.fresh n q hq hn
    · exact ⟨rfl, fun hp => absurd hp hpath⟩

theorem TokenStep.start {kind : FlowKind} {call : Call R} (hlogout : kind = .logout → ∃ token,
      call.body = .refreshToken token ∧ s.stored = some token) :
    TokenStep s ((s.request call).addFlow kind (.requesting s.requests.length)) where
  stored := .inl rfl
  started _ _ h := .inl h
  sent _ _ h := h
  grows := le_rfl
  requesting j k n hj := by
    rcases requesting_addFlow.mp hj with hj | ⟨hj', rfl, hstage⟩
    · exact .inl hj
    · cases hstage
      refine .inr ⟨hj', rfl, fun hk => ?_⟩
      obtain ⟨token, hbody, hstored⟩ := hlogout hk
      exact ⟨_, token, List.getElem?_concat_length, hbody, hstored, rfl⟩
  ended _ _ _ h := .inl (requesting_addFlow.mpr (.inl h))
  requests _ r h := ⟨r, getElem?_kept h _, rfl, fun _ => rfl⟩
  fresh n q hq hn := by
    rcases getElem?_add hq with hq | ⟨rfl, rfl⟩
    · exact absurd (getElem?_lt hq) hn.not_gt
    · exact ⟨rfl, fun _ => ⟨s.flows.length, kind, requesting_addFlow.mpr (.inr ⟨rfl, rfl, rfl⟩)⟩⟩

/-- A flow goes on: what it has waited for is there, and a logout has cleared the store. -/
theorem TokenStep.putFlow {s₁ : Tab A R U} (h : TokenStep s s₁) {j₀ : ℕ} {f : Flow}
    (hf : ∀ n, f.stage ≠ .requesting n) (hended : ∀ kind i, s.Requesting j₀ kind i →
      (s.answer i).isSome = true ∧ (kind = .logout → s₁.stored = none))
    (hfresh : s₁.requests.length = s.requests.length ∨ ∀ (n : ℕ) (q : ApiRequest A R U),
      s₁.requests[n]? = some q → s.requests.length ≤ n → q.call.path ∉ TOKEN_PATHS) :
    TokenStep s (s₁.putFlow j₀ f) where
  stored := by
    refine h.stored.imp_right fun hs => hs.imp_right ?_
    rintro ⟨j, i, tokens, hj, hi, hnot, hstored⟩
    exact ⟨j, i, tokens, hj, hi, fun hr => hnot ((requesting_putFlow hf).mp hr).2, hstored⟩
  started := h.started
  sent := h.sent
  grows := h.grows
  requesting j kind n hj := h.requesting j kind n ((requesting_putFlow hf).mp hj).2
  ended j kind n hj := by
    by_cases hj₀ : j = j₀
    · subst hj₀
      exact .inr (hended kind n hj)
    · exact (h.ended j kind n hj).imp_left fun hk => (requesting_putFlow hf).mpr ⟨hj₀, hk⟩
  requests := h.requests
  fresh n q hq hn := by
    refine ⟨(h.fresh n q hq hn).1, fun hp => ?_⟩
    rcases hfresh with hlength | hpath
    · exact absurd (getElem?_lt hq) (hlength ▸ hn.not_gt)
    · exact absurd hp (hpath n q hq hn)

theorem TokenStep.addFlow {s₁ : Tab A R U} (h : TokenStep s s₁) {kind : FlowKind} {k : ℕ}
    (hlength : s₁.flows.length = s.flows.length) : TokenStep s (s₁.addFlow kind (.refreshing k)) where
  stored := by
    refine h.stored.imp_right fun hs => hs.imp_right ?_
    rintro ⟨j, i, tokens, hj, hi, hnot, hstored⟩
    refine ⟨j, i, tokens, hj, hi, fun hr => ?_, hstored⟩
    rcases requesting_addFlow.mp hr with hr | ⟨hj', -, -⟩
    · exact hnot hr
    · obtain ⟨f, hf, -⟩ := hj
      have hlt := getElem?_lt hf
      omega
  started := h.started
  sent := h.sent
  grows := h.grows
  requesting j kind n hj := by
    rcases requesting_addFlow.mp hj with hj | ⟨-, -, hstage⟩
    · exact h.requesting j kind n hj
    · cases hstage
  ended j kind n hj := (h.ended j kind n hj).imp_left fun hk => requesting_addFlow.mpr (.inl hk)
  requests := h.requests
  fresh n q hq hn := by
    refine (h.fresh n q hq hn).imp_right fun hreq hp => ?_
    obtain ⟨j, kind, hj⟩ := hreq hp
    exact ⟨j, kind, requesting_addFlow.mpr (.inl hj)⟩

theorem getStoredRefreshToken_some {token : R} (h : s.getStoredRefreshToken env = some token) :
    s.stored = some token := by
  unfold getStoredRefreshToken at h
  split at h
  · exact h
  · cases h

theorem TokenStep.refreshAccessToken : TokenStep s (s.refreshAccessToken env) where
  stored := by
    refine .inl ?_
    unfold Tab.refreshAccessToken
    split <;> rfl
  started k token hk := by
    unfold Tab.refreshAccessToken at hk ⊢
    split at hk
    · exact .inl hk
    · rename_i hflight
      rcases getElem?_add hk with hk | ⟨rfl, hstart⟩
      · exact .inl hk
      · refine .inr ?_
        split at hstart
        · cases hstart
        · rename_i token' hget
          cases hstart
          exact ⟨getStoredRefreshToken_some hget, rfl, hflight, rfl⟩
  sent k token hk := by
    unfold Tab.refreshAccessToken
    split
    · exact hk
    · exact getElem?_kept hk _
  grows := length_refreshAccessToken
  requesting _ _ _ hr := .inl ((requesting_congr flows_refreshAccessToken).mp hr)
  ended _ _ _ hr := .inl ((requesting_congr flows_refreshAccessToken).mpr hr)
  requests _ r hr := ⟨r, by rwa [requests_refreshAccessToken], rfl, fun _ => rfl⟩
  fresh _ _ hr hi := by
    rw [requests_refreshAccessToken] at hr
    exact absurd (getElem?_lt hr) hi.not_gt

/-- The cancelled starts wait for no login and no logout. -/
theorem TokenStep.of_cancel (h : TokenStep { s with flows := s.flows.map Flow.cancel } s') :
    TokenStep s s' where
  stored := by
    refine h.stored.imp_right fun hs => hs.imp_right ?_
    rintro ⟨j, i, tokens, hj, hrest⟩
    exact ⟨j, i, tokens, requesting_cancel.mp hj, hrest⟩
  started := h.started
  sent := h.sent
  grows := h.grows
  requesting j kind i hj := by
    rcases h.requesting j kind i hj with hold | ⟨hnew, hrest⟩
    · exact .inl (requesting_cancel.mp hold)
    · exact .inr ⟨hnew.trans (List.length_map _), hrest⟩
  ended j kind i hj := h.ended j kind i (requesting_cancel.mpr hj)
  requests := h.requests
  fresh := h.fresh

theorem stored_clearSession : (s.clearSession env).stored = s.stored ∨
    (s.clearSession env).stored = none := by
  by_cases h : env.writable = true <;> simp [clearSession, setAccessToken, setStoredRefreshToken,
    setAccessTokenState, setCurrentUser, h]

theorem stored_expired : (s.handleSessionExpired env).stored = s.stored ∨
    (s.handleSessionExpired env).stored = none :=
  stored_clearSession.elim (fun h => by
    rw [handleSessionExpired, h, setStoredRefreshToken]
    by_cases hw : env.writable = true <;> simp [setAccessToken, hw]) .inr

theorem expired_cleared : TokenStep s (s.handleSessionExpired env) :=
  .cleared sameWiring_expired stored_expired

theorem clear_cleared : TokenStep s (s.clearSession env) :=
  .cleared sameWiring_clearSession stored_clearSession

theorem mount_tokenStep : TokenStep s (s.mount env) := by
  refine .of_cancel ?_
  unfold mount
  dsimp only
  split
  · exact .cleared ⟨rfl, rfl, rfl, rfl⟩ (.inl rfl)
  · refine TokenStep.refreshAccessToken.addFlow ?_
    rw [flows_refreshAccessToken]

theorem login_tokenStep {email password : String} {tenantId : Option String} :
    TokenStep s (s.login email password tenantId) :=
  .start fun h => (by cases h)

theorem reload_tokenStep : TokenStep s (s.reloadSession env) := by
  refine TokenStep.refreshAccessToken.addFlow ?_
  rw [flows_refreshAccessToken]

theorem logout_tokenStep : TokenStep s (s.logout env) := by
  unfold logout
  split
  · exact clear_cleared
  · rename_i token hget
    exact .start fun _ => ⟨token, rfl, getStoredRefreshToken_some hget⟩

theorem noRefresh_of_path {path : String} (h : path ∉ NO_REFRESH_PATHS) : path ∉ TOKEN_PATHS := by
  intro hmem
  rcases List.mem_cons.mp hmem with rfl | hmem
  · exact h (by decide)
  · cases List.mem_singleton.mp hmem
    exact h (by decide)

theorem firstReply_tokenStep {i : ℕ} {r : ApiRequest A R U}
    {reply : Except String (Reply (Data A R U))} (hr : s.requests[i]? = some r)
    (hpath : r.call.path ∉ TOKEN_PATHS) : TokenStep s (s.firstReply env i r reply) := by
  have hlt := getElem?_lt hr
  unfold firstReply
  split
  · exact (TokenStep.refl s).putRequest hlt hr hpath
  · exact (TokenStep.refl s).putRequest hlt hr hpath
  · exact (TokenStep.refl s).putRequest hlt hr hpath
  · split
    · exact (TokenStep.refl s).putRequest hlt hr hpath
    · split
      · refine TokenStep.refreshAccessToken.putRequest hlt ?_ hpath
        rwa [requests_refreshAccessToken]
      · exact (TokenStep.refl s).putRequest hlt hr hpath

theorem retryReply_tokenStep {i : ℕ} {r : ApiRequest A R U}
    {reply : Except String (Reply (Data A R U))} (hr : s.requests[i]? = some r)
    (hpath : r.call.path ∉ TOKEN_PATHS) : TokenStep s (s.retryReply env i r reply) := by
  have hlt := getElem?_lt hr
  unfold retryReply
  split
  · exact (TokenStep.refl s).putRequest hlt hr hpath
  · exact (TokenStep.refl s).putRequest hlt hr hpath
  · exact (TokenStep.refl s).putRequest hlt hr hpath
  · split
    · exact expired_cleared.putRequest hlt hr hpath
    · exact (TokenStep.refl s).putRequest hlt hr hpath

theorem refreshed_tokenStep {i : ℕ} {r : ApiRequest A R U} {error : ApiError} {result : Option A}
    (hr : s.requests[i]? = some r) (hpath : r.call.path ∉ TOKEN_PATHS) :
    TokenStep s (s.refreshed env i r error result) := by
  have hlt := getElem?_lt hr
  cases result with
  | some token => exact (TokenStep.refl s).putRequest hlt hr hpath
  | none => exact expired_cleared.putRequest hlt hr hpath

theorem refreshSettled_tokenStep {k : ℕ} {result : Option A}
    (hk : s.refreshes[k]? = some (.settled result)) : TokenStep s (s.refreshSettled k result) where
  stored := .inl rfl
  started n token hn := by
    rcases getElem?_put hn with ⟨-, heq⟩ | ⟨-, hn⟩
    · cases heq
    · exact .inl hn
  sent n token hn := by
    by_cases h : n = k
    · subst h
      cases hk.symm.trans hn
    · rw [← hn]
      exact List.getElem?_set_ne (Ne.symm h)
  grows := List.length_set.ge
  requesting _ _ _ h := .inl h
  ended _ _ _ h := .inl h
  requests _ r h := ⟨r, h, rfl, fun _ => rfl⟩
  fresh _ _ h hi := absurd (getElem?_lt h) hi.not_gt

theorem me_not_token : "/auth/me" ∉ TOKEN_PATHS := by decide

theorem readUser_tokenStep {s₁ : Tab A R U} (h : TokenStep s s₁) (hsame : s₁.requests = s.requests)
    {j : ℕ} {f : Flow} (hended : ∀ kind i, s.Requesting j kind i →
      (s.answer i).isSome = true ∧ (kind = .logout → s₁.stored = none)) :
    TokenStep s (s₁.readUser j f) := by
  refine (h.request me_not_token).putFlow (fun _ => FlowStage.noConfusion) hended
    (.inr fun n q hq hn => ?_)
  rcases getElem?_add hq with hq | ⟨-, rfl⟩
  · rw [hsame] at hq
    exact absurd (getElem?_lt hq) hn.not_gt
  · exact me_not_token

theorem not_requesting_of_stage {f : Flow} {j i : ℕ} {kind : FlowKind} (hf : s.flows[j]? = some f)
    (h : f.stage ≠ .requesting i) : ¬ s.Requesting j kind i := by
  rintro ⟨f', hf', -, hstage⟩
  cases hf.symm.trans hf'
  exact h hstage

theorem flowRefreshed_tokenStep {j k : ℕ} {f : Flow} {result : Option A} (hf : s.flows[j]? = some f)
    (hstage : f.stage = .refreshing k) : TokenStep s (s.flowRefreshed env j f result) := by
  have hnot (kind : FlowKind) (i : ℕ) : ¬ s.Requesting j kind i :=
    not_requesting_of_stage hf (by rw [hstage]; exact FlowStage.noConfusion)
  have hfinish {s₁ : Tab A R U} (h : TokenStep s s₁) (hsame : s₁.requests = s.requests) :
      TokenStep s (s₁.finishFlow j f) :=
    h.putFlow (fun _ => FlowStage.noConfusion) (fun kind i hi => absurd hi (hnot kind i))
      (.inl (congrArg List.length hsame))
  unfold flowRefreshed
  split
  · split
    · split
      · exact hfinish (.refl s) rfl
      · have hset : TokenStep s (((s.setAccessTokenState none).setCurrentUser none).setLoading false) :=
          .cleared ⟨rfl, rfl, rfl, rfl⟩ (.inl rfl)
        exact hfinish hset rfl
    · exact hfinish clear_cleared rfl
  · rename_i token
    split
    · exact hfinish (.refl s) rfl
    · have hset : TokenStep s ((s.setAccessToken (some token)).setAccessTokenState (some token)) :=
        .cleared ⟨rfl, rfl, rfl, rfl⟩ (.inl rfl)
      exact readUser_tokenStep hset rfl fun kind i hi => absurd hi (hnot kind i)

theorem userRead_tokenStep {i j : ℕ} {f : Flow} {outcome : Except ApiError (Option (Data A R U))}
    (hf : s.flows[j]? = some f) (hstage : f.stage = .readingUser i) :
    TokenStep s (s.userRead env j f outcome) := by
  have hnot (kind : FlowKind) (i : ℕ) : ¬ s.Requesting j kind i :=
    not_requesting_of_stage hf (by rw [hstage]; exact FlowStage.noConfusion)
  have hfinish {s₁ : Tab A R U} (h : TokenStep s s₁) (hsame : s₁.requests = s.requests) :
      TokenStep s (s₁.finishFlow j f) :=
    h.putFlow (fun _ => FlowStage.noConfusion) (fun kind i hi => absurd hi (hnot kind i))
      (.inl (congrArg List.length hsame))
  unfold userRead
  split
  · rename_i data
    dsimp only
    split
    · split
      · exact hfinish (.refl s) rfl
      · have hset : TokenStep s ((s.setCurrentUser (data.bind Data.user?)).setLoading false) :=
          .cleared ⟨rfl, rfl, rfl, rfl⟩ (.inl rfl)
        exact hfinish hset rfl
    · have hset : TokenStep s (s.setCurrentUser (data.bind Data.user?)) :=
        .cleared ⟨rfl, rfl, rfl, rfl⟩ (.inl rfl)
      exact hfinish hset rfl
  · split
    · have hset : TokenStep s ((s.clearSession env).setLoading false) :=
        .cleared ⟨rfl, rfl, rfl, rfl⟩ stored_clearSession
      exact hfinish hset rfl
    · exact hfinish (.refl s) rfl

theorem flowAnswered_tokenStep {i j : ℕ} {f : Flow}
    {outcome : Except ApiError (Option (Data A R U))} (hf : s.flows[j]? = some f)
    (hstage : f.stage = .requesting i) (hi : s.answer i = some outcome)
    (hwrites : f.kind = .logout → env.writable = true) :
    TokenStep s (s.flowAnswered env j f outcome) := by
  have hkind {kind : FlowKind} {n : ℕ} (h : s.Requesting j kind n) : f.kind = kind := by
    obtain ⟨f', hf', hkind, -⟩ := h
    cases hf.symm.trans hf'
    exact hkind
  have hanswered {kind : FlowKind} {n : ℕ} (h : s.Requesting j kind n) :
      (s.answer n).isSome = true := by
    obtain ⟨f', hf', -, hstage'⟩ := h
    cases hf.symm.trans hf'
    cases hstage.symm.trans hstage'
    rw [hi]
    rfl
  have hclear : TokenStep s ((s.clearSession env).finishFlow j f) :=
    clear_cleared.putFlow (fun _ => FlowStage.noConfusion)
      (fun _ _ hn => ⟨hanswered hn, fun hk => if_pos (hwrites ((hkind hn).trans hk))⟩) (.inl rfl)
  unfold flowAnswered
  split
  · rename_i tokens
    split
    · rename_i hlogin
      -- the answer's token is stored below
      have hset : TokenStep s ((s.setAccessToken (some tokens.accessToken)).setAccessTokenState
          (some tokens.accessToken)) := .cleared ⟨rfl, rfl, rfl, rfl⟩ (.inl rfl)
      have hread := readUser_tokenStep (j := j) (f := f) hset rfl fun kind n hn =>
        ⟨hanswered hn, fun hk => by
          rw [hk] at hn
          cases hlogin.symm.trans (hkind hn)⟩
      refine ⟨?_, fun k token hk => .inl hk, hread.sent, hread.grows, ?_, ?_, hread.requests, hread.fresh⟩
      · by_cases hwritable : env.writable = true
        · refine .inr (.inr ⟨j, i, tokens, ⟨f, hf, hlogin, hstage⟩, hi, fun h => ?_, if_pos hwritable⟩)
          exact ((requesting_putFlow fun _ => FlowStage.noConfusion).mp h).1 rfl
        · exact .inl (if_neg hwritable)
      · intro j' kind n h
        exact .inl ((requesting_putFlow fun _ => FlowStage.noConfusion).mp h).2
      · intro j' kind n h
        by_cases hj : j' = j
        · subst hj
          refine .inr ⟨hanswered h, fun hk => ?_⟩
          rw [hk] at h
          cases hlogin.symm.trans (hkind h)
        · exact .inl ((requesting_putFlow fun _ => FlowStage.noConfusion).mpr ⟨hj, h⟩)
    · exact hclear
  · split
    · exact hclear
    · rename_i hlogout
      refine (TokenStep.refl s).putFlow (fun _ => FlowStage.noConfusion) (fun kind n hn => ?_) (.inl rfl)
      exact ⟨hanswered hn, fun hk => absurd ((hkind hn).trans hk) hlogout⟩

/-- What the page does on its own, with the answers from the other endpoints. -/
def allows (s : Tab A R U) : Event A R U → Bool
  | .call call => call.path ∉ TOKEN_PATHS
  | .reply i _ => s.requests[i]?.all fun r => r.call.path ∉ TOKEN_PATHS
  | .refreshReply _ _ => false
  | _ => true

theorem step_tokenStep {e : Event A R U} (hw : s.Wired) (hallows : s.allows e = true)
    (hwrites : ∀ j i, e = .resumeFlow j → s.Requesting j .logout i → env.writable = true)
    (hs : s.step (env, e) = some s') : TokenStep s s' := by
  cases e with
  | call call =>
    cases hs
    exact (TokenStep.refl s).request (of_decide_eq_true hallows)
  | mount =>
    cases hs
    exact mount_tokenStep
  | login email password tenantId =>
    cases hs
    exact login_tokenStep
  | reload =>
    cases hs
    exact reload_tokenStep
  | logout =>
    cases hs
    exact logout_tokenStep
  | reply i reply =>
    obtain ⟨r, hr, -, hcases⟩ := step_reply hs
    have hpath : r.call.path ∉ TOKEN_PATHS := by
      simpa only [allows, hr, Option.all_some, decide_eq_true_eq] using hallows
    rcases hcases with ⟨-, rfl⟩ | ⟨-, rfl⟩
    · exact firstReply_tokenStep hr hpath
    · exact retryReply_tokenStep hr hpath
  | refreshReply k reply => cases hallows
  | refreshSettled k =>
    obtain ⟨result, hk, rfl⟩ := step_refreshSettled hs
    exact refreshSettled_tokenStep hk
  | resumeRequest i =>
    obtain ⟨r, k, error, result, hr, hwaits, hk, rfl⟩ := step_resumeRequest hs
    have hsound := hw.requests i r hr
    rw [ApiRequest.Sound, hwaits] at hsound
    exact refreshed_tokenStep hr (noRefresh_of_path hsound.2.2)
  | resumeFlow j =>
    obtain ⟨f, hf, ⟨k, result, hstage, -, rfl⟩ | ⟨i, outcome, hstage, hi, rfl⟩ |
      ⟨i, outcome, hstage, -, rfl⟩⟩ := step_resumeFlow hs
    · exact flowRefreshed_tokenStep hf hstage
    · exact flowAnswered_tokenStep hf hstage hi fun hk => hwrites j i rfl ⟨f, hf, hk, hstage⟩
    · exact userRead_tokenStep hf hstage

end Tab
end Flexi.Client.Session
