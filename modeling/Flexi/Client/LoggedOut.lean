import Flexi.Client.SessionRuns

/-!
# After the session has been cleared

What is still in flight when the tokens are cleared may write them again.
-/

namespace Flexi.Client.Session
open Flexi.Library

variable {A R U : Type}

/-- No token and no user. -/
structure Tab.LoggedOut (s : Tab A R U) : Prop where
  accessToken : s.accessToken = none
  stored : s.stored = none
  shown : s.react.accessToken = none
  user : s.react.currentUser = none

/-- Call `i` may still resolve with data in `P`. -/
def Tab.MayResolve (s : Tab A R U) (P : Data A R U → Prop) (i : ℕ) : Prop :=
  ∃ r, s.requests[i]? = some r ∧ match r.stage with
    | .sent | .resent => True
    | .refreshing k _ => ∃ token, s.refreshResult k = some (some token)
    | .resolved data => ∃ d, data = some d ∧ P d
    | .rejected _ => False

/-- The flow may still write tokens or a user. -/
def Flow.MayWrite (s : Tab A R U) (f : Flow) : Prop :=
  ¬ (f.kind = .bootstrap ∧ f.cancelled = true) ∧ match f.stage with
    | .refreshing k => ∃ token, s.refreshResult k = some (some token)
    | .requesting i => f.kind = .login ∧ s.MayResolve (fun d => ∃ tokens, d = .tokens tokens) i
    | .readingUser i => s.MayResolve (fun d => ∃ u, d = .user u) i
    | .finished => False

/-- A refresh is out, or has brought a token that nobody has been told of, or a flow may still
write. -/
def Tab.MayWrite (s : Tab A R U) : Prop :=
  (∃ (k : ℕ) (r : RefreshStage A R), s.refreshes[k]? = some r ∧
    ((∃ token, r = .sent token) ∨ ∃ token, r = .settled (some token))) ∨
  ∃ (j : ℕ) (f : Flow), s.flows[j]? = some f ∧ f.MayWrite s

def Event.isLogin : Event A R U → Bool
  | .login _ _ _ => true
  | _ => false

namespace Tab

variable {env : Storage} {s s' : Tab A R U}

/-! ### Nothing new is brought -/

theorem refreshResult_refreshAccessToken {k : ℕ} (hk : k < s.refreshes.length) :
    (s.refreshAccessToken env).refreshResult k = s.refreshResult k := by
  unfold refreshAccessToken
  split
  · rfl
  · simp only [refreshResult, List.getElem?_append_left hk]

/-- A promise that may still be kept after the change might be so before it. -/
structure Fades (s s' : Tab A R U) : Prop where
  refreshes : ∀ k token, k < s.refreshes.length → s'.refreshResult k = some (some token) →
    s.refreshResult k = some (some token)
  requests : ∀ (i : ℕ) (r' : ApiRequest A R U), i < s.requests.length →
    s'.requests[i]? = some r' → ∃ r, s.requests[i]? = some r ∧ (r' = r ∨ r.stage = .sent ∨
      r.stage = .resent ∨ (∃ k error token, r.stage = .refreshing k error ∧
        s.refreshResult k = some (some token)) ∨ ∃ error, r'.stage = .rejected error)

theorem Fades.mayResolve {P : Data A R U → Prop} {i : ℕ} (h : Fades s s') (hw : s.Wired)
    (hi : i < s.requests.length) (hmay : s'.MayResolve P i) : s.MayResolve P i := by
  obtain ⟨r', hr', hstage'⟩ := hmay
  obtain ⟨r, hr, hcases⟩ := h.requests i r' hi hr'
  refine ⟨r, hr, ?_⟩
  rcases hcases with rfl | hsent | hresent | ⟨k, error, token, hrefreshing, hk⟩ | ⟨error, hrejected⟩
  · have hsound := hw.requests i r' hr
    unfold ApiRequest.Sound at hsound
    split
    · trivial
    · trivial
    · rename_i k error hstage
      rw [hstage] at hstage' hsound
      obtain ⟨token, hk⟩ := hstage'
      exact ⟨token, h.refreshes k token hsound.2.1 hk⟩
    · rename_i data hstage
      rwa [hstage] at hstage'
    · rename_i error hstage
      rwa [hstage] at hstage'
  · rw [hsent]
    trivial
  · rw [hresent]
    trivial
  · rw [hrefreshing]
    exact ⟨token, hk⟩
  · rw [hrejected] at hstage'
    exact hstage'.elim

theorem Requested.lt {i : ℕ} {path : String} (h : s.Requested i path) : i < s.requests.length := by
  obtain ⟨r, hr, -⟩ := h
  exact getElem?_lt hr

theorem Fades.flow {f : Flow} (h : Fades s s') (hw : s.Wired) (hf : f.Sound s)
    (hmay : f.MayWrite s') : f.MayWrite s := by
  obtain ⟨hlive, hstage'⟩ := hmay
  refine ⟨hlive, ?_⟩
  unfold Flow.Sound at hf
  split
  · rename_i k hstage
    rw [hstage] at hf hstage'
    obtain ⟨token, hk⟩ := hstage'
    exact ⟨token, h.refreshes k token hf.1 hk⟩
  · rename_i i hstage
    rw [hstage] at hf hstage'
    exact ⟨hstage'.1, h.mayResolve hw (hf.elim (fun h => h.2.lt) fun h => h.2.lt) hstage'.2⟩
  · rename_i i hstage
    rw [hstage] at hf hstage'
    exact h.mayResolve hw hf.2.lt hstage'
  · rename_i hstage
    rwa [hstage] at hstage'

/-- No refresh is out, and none has brought a token that nobody has been told of. -/
def NoRefresh (s : Tab A R U) : Prop :=
  ∀ (k : ℕ) (r : RefreshStage A R), s.refreshes[k]? = some r →
    (∀ token, r ≠ .sent token) ∧ ∀ token, r ≠ .settled (some token)

theorem not_mayWrite_iff : ¬ s.MayWrite ↔ s.NoRefresh ∧
    ∀ (j : ℕ) (f : Flow), s.flows[j]? = some f → ¬ f.MayWrite s := by
  constructor
  · intro h
    refine ⟨fun k r hk => ⟨fun token hr => ?_, fun token hr => ?_⟩, fun j f hf hmay => ?_⟩
    · exact h (.inl ⟨k, r, hk, .inl ⟨token, hr⟩⟩)
    · exact h (.inl ⟨k, r, hk, .inr ⟨token, hr⟩⟩)
    · exact h (.inr ⟨j, f, hf, hmay⟩)
  · rintro ⟨hrefresh, hflows⟩ (⟨k, r, hk, ⟨token, hr⟩ | ⟨token, hr⟩⟩ | ⟨j, f, hf, hmay⟩)
    · exact (hrefresh k r hk).1 token hr
    · exact (hrefresh k r hk).2 token hr
    · exact hflows j f hf hmay

theorem NoRefresh.refreshAccessToken (h : s.NoRefresh) (hstored : s.stored = none) :
    (s.refreshAccessToken env).NoRefresh := by
  have hget : s.getStoredRefreshToken env = none := by
    rw [getStoredRefreshToken, hstored]
    split <;> rfl
  unfold Tab.refreshAccessToken
  split
  · exact h
  · intro k r hr
    rcases getElem?_add hr with hr | ⟨-, rfl⟩
    · exact h k r hr
    · rw [hget]
      exact ⟨fun token h => (by cases h), fun token h => (by cases h)⟩

theorem fades_refreshAccessToken : Fades s (s.refreshAccessToken env) where
  refreshes k token hk h := by rwa [refreshResult_refreshAccessToken hk] at h
  requests i r' _ hr' := by
    rw [requests_refreshAccessToken] at hr'
    exact ⟨r', hr', .inl rfl⟩

theorem fades_putRequest {i : ℕ} {r r' : ApiRequest A R U} (hr : s.requests[i]? = some r)
    (h : r.stage = .sent ∨ r.stage = .resent ∨ (∃ k error token, r.stage = .refreshing k error ∧
        s.refreshResult k = some (some token)) ∨ ∃ error, r'.stage = .rejected error) :
    Fades s (s.putRequest i r') where
  refreshes _ _ _ h := h
  requests j q _ hq := by
    rcases getElem?_put hq with ⟨rfl, rfl⟩ | ⟨-, hq⟩
    · exact ⟨r, hr, .inr h⟩
    · exact ⟨q, hq, .inl rfl⟩

theorem move_fades (hstored : s.stored = none) (hquiet : s.NoRefresh) (hmove : Move env s s') :
    Fades s s' ∧ s'.NoRefresh := by
  cases hmove with
  | answered request waits settles =>
    exact ⟨fades_putRequest request (waits.imp_right .inl), hquiet⟩
  | unauthorized request waits path =>
    have hquiet' : (s.refreshAccessToken env).NoRefresh := hquiet.refreshAccessToken hstored
    have hfades : Fades s (s.refreshAccessToken env) := fades_refreshAccessToken
    refine ⟨⟨fun k token hk h => ?_, fun i r' hi hr' => ?_⟩, hquiet'⟩
    · exact hfades.refreshes k token hk h
    · simp only [putRequest, requests_refreshAccessToken] at hr'
      exact (fades_putRequest request (.inl waits)).requests i r' hi hr'
  | @retried i k r error token request waits refreshed =>
    exact ⟨fades_putRequest request (.inr (.inr (.inl ⟨k, error, token, waits, refreshed⟩))), hquiet⟩
  | @expired i k r error request waits refused =>
    exact ⟨fades_putRequest request (.inr (.inr (.inr ⟨error, rfl⟩))), hquiet⟩
  | @refreshAnswered k token result refresh => exact absurd rfl ((hquiet k _ refresh).1 token)
  | @refreshSettled k result refresh =>
    cases result with
    | some token => exact absurd rfl ((hquiet k _ refresh).2 token)
    | none =>
      refine ⟨⟨fun i token _ h => ?_, fun i r' _ hr' => ⟨r', hr', .inl rfl⟩⟩, fun i r hr => ?_⟩
      · obtain ⟨r, hr, hresult⟩ := Option.bind_eq_some_iff.mp h
        rcases getElem?_put hr with ⟨-, rfl⟩ | ⟨-, hr⟩
        · cases hresult
        · rw [refreshResult, hr, Option.bind_some, hresult]
      · rcases getElem?_put hr with ⟨-, rfl⟩ | ⟨-, hr⟩
        · exact ⟨fun token h => (by cases h), fun token h => (by cases h)⟩
        · exact hquiet i r hr
  | finished flow goes => exact ⟨⟨fun _ _ _ h => h, fun i r' _ hr' => ⟨r', hr', .inl rfl⟩⟩, hquiet⟩
  | readsUser flow brings =>
    refine ⟨⟨fun _ _ _ h => h, fun i r' hi hr' => ⟨r', ?_, .inl rfl⟩⟩, hquiet⟩
    rcases getElem?_add hr' with hr' | ⟨rfl, -⟩
    · exact hr'
    · exact absurd hi (lt_irrefl _)

theorem Brings.mayWrite {f : Flow} (h : s.Brings f) : f.MayWrite s := by
  rcases h with ⟨k, token, hstage, hk, hlive⟩ | ⟨i, tokens, hstage, hi, hlogin⟩
  · refine ⟨hlive, ?_⟩
    rw [hstage]
    exact ⟨token, hk⟩
  · refine ⟨fun h => ?_, ?_⟩
    · cases h.1.symm.trans hlogin
    · rw [hstage]
      obtain ⟨r, hr, houtcome⟩ := Option.bind_eq_some_iff.mp hi
      refine ⟨hlogin, r, hr, ?_⟩
      cases hrstage : r.stage with
      | resolved data =>
        rw [hrstage] at houtcome
        cases houtcome
        exact ⟨_, rfl, tokens, rfl⟩
      | _ =>
        rw [hrstage] at houtcome
        cases houtcome

theorem mayWrite_move (hw : s.Wired) (hstored : s.stored = none) (h : ¬ s.MayWrite)
    (hmove : Move env s s') : ¬ s'.MayWrite := by
  obtain ⟨hquiet, hflows⟩ := not_mayWrite_iff.mp h
  obtain ⟨hfades, hquiet'⟩ := move_fades hstored hquiet hmove
  have hsame (heq : s'.flows = s.flows) : ¬ s'.MayWrite := by
    refine not_mayWrite_iff.mpr ⟨hquiet', fun j f hf hmay => ?_⟩
    rw [heq] at hf
    exact hflows j f hf (hfades.flow hw (hw.flows j f hf) hmay)
  cases hmove with
  | finished flow goes =>
    refine not_mayWrite_iff.mpr ⟨hquiet', fun j f hf hmay => ?_⟩
    rcases getElem?_put hf with ⟨-, rfl⟩ | ⟨-, hf⟩
    · exact hmay.2
    · exact hflows j f hf (hfades.flow hw (hw.flows j f hf) hmay)
  | readsUser flow brings => exact absurd brings.mayWrite (hflows _ _ flow)
  | unauthorized request waits path => exact hsame flows_refreshAccessToken
  | _ => exact hsame rfl

/-! ### The tokens stay away -/

theorem loggedOut_clearSession (h : s.LoggedOut) : (s.clearSession env).LoggedOut := by
  refine ⟨rfl, ?_, rfl, rfl⟩
  show (if env.writable then none else s.stored) = none
  rw [h.stored]
  split <;> rfl

theorem loggedOut_expired (h : s.LoggedOut) : (s.handleSessionExpired env).LoggedOut := by
  refine loggedOut_clearSession (s := (s.setAccessToken none).setStoredRefreshToken env none)
    ⟨rfl, ?_, h.shown, h.user⟩
  show (if env.writable then none else s.stored) = none
  rw [h.stored]
  split <;> rfl

theorem loggedOut_refreshAccessToken (h : s.LoggedOut) : (s.refreshAccessToken env).LoggedOut := by
  unfold refreshAccessToken
  split
  · exact h
  · exact ⟨h.accessToken, h.stored, h.shown, h.user⟩

theorem loggedOut_refreshed {i : ℕ} {r : ApiRequest A R U} {error : ApiError} {result : Option A}
    (h : s.LoggedOut) : (s.refreshed env i r error result).LoggedOut := by
  cases result with
  | some token => exact ⟨h.accessToken, h.stored, h.shown, h.user⟩
  | none =>
    have hexpired : (s.handleSessionExpired env).LoggedOut := loggedOut_expired h
    exact ⟨hexpired.accessToken, hexpired.stored, hexpired.shown, hexpired.user⟩

theorem loggedOut_firstReply {i : ℕ} {r : ApiRequest A R U}
    (reply : Except String (Reply (Data A R U))) (h : s.LoggedOut) :
    (s.firstReply env i r reply).LoggedOut := by
  have hput (r' : ApiRequest A R U) : (s.putRequest i r').LoggedOut :=
    ⟨h.accessToken, h.stored, h.shown, h.user⟩
  have hrefresh : (s.refreshAccessToken env).LoggedOut := loggedOut_refreshAccessToken h
  unfold firstReply
  split
  · exact hput _
  · exact hput _
  · exact hput _
  · split
    · exact hput _
    · split
      · exact ⟨hrefresh.accessToken, hrefresh.stored, hrefresh.shown, hrefresh.user⟩
      · exact hput _

theorem loggedOut_retryReply {i : ℕ} {r : ApiRequest A R U}
    (reply : Except String (Reply (Data A R U))) (h : s.LoggedOut) :
    (s.retryReply env i r reply).LoggedOut := by
  have hput (r' : ApiRequest A R U) : (s.putRequest i r').LoggedOut :=
    ⟨h.accessToken, h.stored, h.shown, h.user⟩
  have hexpired : (s.handleSessionExpired env).LoggedOut := loggedOut_expired h
  unfold retryReply
  split
  · exact hput _
  · exact hput _
  · exact hput _
  · split
    · exact ⟨hexpired.accessToken, hexpired.stored, hexpired.shown, hexpired.user⟩
    · exact hput _

theorem loggedOut_flowRefreshed {j k : ℕ} {f : Flow} {result : Option A} (h : s.LoggedOut)
    (hstage : f.stage = .refreshing k) (hk : s.refreshResult k = some result)
    (hquiet : ¬ f.MayWrite s) : (s.flowRefreshed env j f result).LoggedOut := by
  have hclear : (s.clearSession env).LoggedOut := loggedOut_clearSession h
  unfold flowRefreshed
  split
  · split
    · split
      · exact ⟨h.accessToken, h.stored, h.shown, h.user⟩
      · exact ⟨h.accessToken, h.stored, rfl, rfl⟩
    · exact ⟨hclear.accessToken, hclear.stored, hclear.shown, hclear.user⟩
  · rename_i token
    split
    · exact ⟨h.accessToken, h.stored, h.shown, h.user⟩
    · rename_i hlive
      exact absurd (Brings.mayWrite (.inl ⟨k, token, hstage, hk, hlive⟩)) hquiet

theorem loggedOut_flowAnswered {i j : ℕ} {f : Flow} {outcome : Except ApiError (Option (Data A R U))}
    (h : s.LoggedOut) (hstage : f.stage = .requesting i) (hi : s.answer i = some outcome)
    (hquiet : ¬ f.MayWrite s) : (s.flowAnswered env j f outcome).LoggedOut := by
  have hclear : (s.clearSession env).LoggedOut := loggedOut_clearSession h
  unfold flowAnswered
  split
  · rename_i tokens
    split
    · rename_i hlogin
      exact absurd (Brings.mayWrite (.inr ⟨i, tokens, hstage, hi, hlogin⟩)) hquiet
    · exact ⟨hclear.accessToken, hclear.stored, hclear.shown, hclear.user⟩
  · split
    · exact ⟨hclear.accessToken, hclear.stored, hclear.shown, hclear.user⟩
    · exact ⟨h.accessToken, h.stored, h.shown, h.user⟩

theorem loggedOut_userRead {i j : ℕ} {f : Flow} {outcome : Except ApiError (Option (Data A R U))}
    (h : s.LoggedOut) (hstage : f.stage = .readingUser i) (hi : s.answer i = some outcome)
    (hquiet : ¬ f.MayWrite s) : (s.userRead env j f outcome).LoggedOut := by
  have hclear : (s.clearSession env).LoggedOut := loggedOut_clearSession h
  unfold userRead
  split
  · rename_i data
    have huser (hlive : ¬ (f.kind = .bootstrap ∧ f.cancelled = true)) :
        data.bind Data.user? = none := by
      by_contra hsome
      obtain ⟨u, hu⟩ := Option.ne_none_iff_exists'.mp hsome
      obtain ⟨d, rfl, hd⟩ := Option.bind_eq_some_iff.mp hu
      obtain ⟨r, hr, houtcome⟩ := Option.bind_eq_some_iff.mp hi
      refine hquiet ⟨hlive, ?_⟩
      rw [hstage]
      refine ⟨r, hr, ?_⟩
      cases hrstage : r.stage with
      | resolved data =>
        rw [hrstage] at houtcome
        cases houtcome
        refine ⟨d, rfl, u, ?_⟩
        cases d with
        | user u' =>
          cases hd
          rfl
        | _ => cases hd
      | _ =>
        rw [hrstage] at houtcome
        cases houtcome
    dsimp only
    split
    · rename_i hkind
      split
      · exact ⟨h.accessToken, h.stored, h.shown, h.user⟩
      · rename_i hlive
        exact ⟨h.accessToken, h.stored, h.shown, huser fun h => hlive h.2⟩
    · rename_i hkind
      exact ⟨h.accessToken, h.stored, h.shown, huser fun h => hkind h.1⟩
  · split
    · exact ⟨hclear.accessToken, hclear.stored, hclear.shown, hclear.user⟩
    · exact ⟨h.accessToken, h.stored, h.shown, h.user⟩

theorem getStored_none (h : s.stored = none) : s.getStoredRefreshToken env = none := by
  rw [getStoredRefreshToken, h]
  split <;> rfl

theorem mayWrite_sameWiring (h : s.SameWiring s') (hmay : s'.MayWrite) : s.MayWrite := by
  have hrefresh (k : ℕ) : s'.refreshResult k = s.refreshResult k := by
    rw [refreshResult, refreshResult, h.refreshes]
  have hresolve {P : Data A R U → Prop} {i : ℕ} (hi : s'.MayResolve P i) : s.MayResolve P i := by
    unfold MayResolve at hi ⊢
    rw [h.requests] at hi
    simp only [hrefresh] at hi
    exact hi
  rcases hmay with ⟨k, r, hk, hr⟩ | ⟨j, f, hf, hlive, hstage⟩
  · exact .inl ⟨k, r, h.refreshes ▸ hk, hr⟩
  · refine .inr ⟨j, f, h.flows ▸ hf, hlive, ?_⟩
    split
    · rename_i hrefreshing
      rw [hrefreshing] at hstage
      rwa [← hrefresh]
    · rename_i hrequesting
      rw [hrequesting] at hstage
      exact ⟨hstage.1, hresolve hstage.2⟩
    · rename_i hreading
      rw [hreading] at hstage
      exact hresolve hstage
    · rename_i hfinished
      rwa [hfinished] at hstage

theorem mayWrite_addRefresh (hw : s.Wired) (hstored : s.stored = none) (h : ¬ s.MayWrite)
    (kind : FlowKind) :
    ¬ ((s.refreshAccessToken env).addFlow kind (.refreshing s.refreshPromise)).MayWrite := by
  obtain ⟨hquiet, hflows⟩ := not_mayWrite_iff.mp h
  have hfades : Fades s (s.refreshAccessToken env) := fades_refreshAccessToken
  refine not_mayWrite_iff.mpr ⟨hquiet.refreshAccessToken hstored, fun j f hf hmay => ?_⟩
  rcases getElem?_add hf with hf | ⟨-, rfl⟩
  · rw [flows_refreshAccessToken] at hf
    exact hflows j f hf (hfades.flow hw (hw.flows j f hf) hmay)
  · obtain ⟨-, token, hk⟩ := hmay
    have hk : (s.refreshAccessToken env).refreshResult s.refreshPromise = some (some token) := hk
    cases hflight : s.refreshInFlight with
    | some k =>
      obtain ⟨r, hr, hresult⟩ := hw.inFlight k hflight
      simp only [refreshPromise, refreshAccessToken, hflight, Option.getD_some, refreshResult, hr,
        Option.bind_some, hresult] at hk
      cases hk
    | none =>
      simp only [refreshPromise, refreshAccessToken, hflight, Option.getD_none, refreshResult,
        List.getElem?_concat_length, Option.bind_some, getStored_none hstored] at hk
      cases hk

theorem mayWrite_step {e : Event A R U} (hw : s.Wired) (hstored : s.stored = none)
    (h : ¬ s.MayWrite) (hstart : e.starts = false) (hs : s.step (env, e) = some s') :
    ¬ s'.MayWrite := by
  obtain ⟨hrefresh, hflows⟩ := not_mayWrite_iff.mp h
  obtain ⟨s₁, hwrites, hmove⟩ := step_moves hs hstart
  have hstored₁ : s₁.stored = none := by
    rcases hwrites.stored with hsame | hnone | ⟨k, token, hk⟩ | ⟨j, f, hf, hbrings⟩
    · exact hsame.trans hstored
    · exact hnone
    · exact absurd rfl ((hrefresh k _ hk).1 token)
    · exact absurd hbrings.mayWrite (hflows j f hf)
  have hquiet : ¬ s₁.MayWrite := fun hmay => h (mayWrite_sameWiring hwrites.toSameWiring hmay)
  exact mayWrite_move (hw.sameWiring hwrites.toSameWiring) hstored₁ hquiet hmove

theorem mayWrite_of_cancel {f : Flow} (h : f.cancel.MayWrite s) : f.MayWrite s := by
  unfold Flow.cancel at h
  split at h
  · rename_i hkind
    exact absurd ⟨hkind, rfl⟩ h.1
  · exact h

theorem loggedOut_step {e : Event A R U} (hw : s.Wired) (h : s.LoggedOut) (hquiet : ¬ s.MayWrite)
    (hlogin : e.isLogin = false) (hs : s.step (env, e) = some s') :
    s'.LoggedOut ∧ ¬ s'.MayWrite := by
  obtain ⟨hrefresh, hflows⟩ := not_mayWrite_iff.mp hquiet
  have hkept (hstart : e.starts = false) : ¬ s'.MayWrite := mayWrite_step hw h.stored hquiet hstart hs
  have hrefreshed : (s.refreshAccessToken env).LoggedOut := loggedOut_refreshAccessToken h
  cases e with
  | call call =>
    cases hs
    refine ⟨⟨h.accessToken, h.stored, h.shown, h.user⟩,
      not_mayWrite_iff.mpr ⟨hrefresh, fun j f hf hmay => ?_⟩⟩
    have hfades : Fades s (s.request call) := by
      refine ⟨fun _ _ _ h => h, fun i r' hi hr' => ⟨r', ?_, .inl rfl⟩⟩
      rcases getElem?_add hr' with hr' | ⟨rfl, -⟩
      · exact hr'
      · exact absurd hi (lt_irrefl _)
    exact hflows j f hf (hfades.flow hw (hw.flows j f hf) hmay)
  | mount =>
    cases hs
    simp only [mount, getStored_none (s := { s with flows := s.flows.map Flow.cancel }) h.stored]
    refine ⟨⟨h.accessToken, h.stored, h.shown, h.user⟩,
      not_mayWrite_iff.mpr ⟨hrefresh, fun j f hf hmay => ?_⟩⟩
    simp only [setLoading, List.getElem?_map] at hf
    obtain ⟨f₀, hf₀, rfl⟩ := Option.map_eq_some_iff.mp hf
    exact hflows j f₀ hf₀ (mayWrite_of_cancel (s := s) hmay)
  | login email password tenantId => cases hlogin
  | reload =>
    cases hs
    exact ⟨⟨hrefreshed.accessToken, hrefreshed.stored, hrefreshed.shown, hrefreshed.user⟩,
      mayWrite_addRefresh hw h.stored hquiet .reload⟩
  | logout =>
    cases hs
    simp only [logout, getStored_none h.stored]
    exact ⟨loggedOut_clearSession h,
      fun hmay => hquiet (mayWrite_sameWiring sameWiring_clearSession hmay)⟩
  | reply i reply =>
    refine ⟨?_, hkept rfl⟩
    obtain ⟨r, hr, -, ⟨hsent, rfl⟩ | ⟨hresent, rfl⟩⟩ := step_reply hs
    · exact loggedOut_firstReply reply h
    · exact loggedOut_retryReply reply h
  | refreshReply k reply =>
    obtain ⟨token, hk, rfl⟩ := step_refreshReply hs
    exact absurd rfl ((hrefresh k _ hk).1 token)
  | refreshSettled k =>
    refine ⟨?_, hkept rfl⟩
    obtain ⟨result, hk, rfl⟩ := step_refreshSettled hs
    exact ⟨h.accessToken, h.stored, h.shown, h.user⟩
  | resumeRequest i =>
    refine ⟨?_, hkept rfl⟩
    obtain ⟨r, k, error, result, hr, hwaits, hk, rfl⟩ := step_resumeRequest hs
    exact loggedOut_refreshed h
  | resumeFlow j =>
    refine ⟨?_, hkept rfl⟩
    obtain ⟨f, hf, ⟨k, result, hstage, hk, rfl⟩ | ⟨i, outcome, hstage, hi, rfl⟩ |
      ⟨i, outcome, hstage, hi, rfl⟩⟩ := step_resumeFlow hs
    · exact loggedOut_flowRefreshed h hstage hk (hflows j f hf)
    · exact loggedOut_flowAnswered h hstage hi (hflows j f hf)
    · exact loggedOut_userRead h hstage hi (hflows j f hf)

/-- Where nothing may still write, nothing does until the next login. -/
theorem loggedOut_run {es : List (Storage × Event A R U)} (hw : s.Wired) (h : s.LoggedOut)
    (hquiet : ¬ s.MayWrite) (hlogin : ∀ e ∈ es, e.2.isLogin = false)
    (hrun : runAll step s es = some s') : s'.LoggedOut := by
  induction es generalizing s with
  | nil =>
    cases hrun
    exact h
  | cons e es ih =>
    obtain ⟨s₁, hs, hrun⟩ := Option.bind_eq_some_iff.mp hrun
    obtain ⟨h₁, hquiet₁⟩ := loggedOut_step hw h hquiet (hlogin e List.mem_cons_self) hs
    exact ih (hw.step hs) h₁ hquiet₁ (fun x hx => hlogin x (List.mem_cons_of_mem e hx)) hrun

/-! ### What is in flight can come back -/

/-- A run without a login after which somebody is logged in. -/
def ComesBack (s : Tab A R U) : Prop :=
  ∃ (es : List (Storage × Event A R U)) (s' : Tab A R U), (∀ e ∈ es, e.2.isLogin = false) ∧
    runAll step s es = some s' ∧ ¬ s'.LoggedOut

theorem comesBack_step {e : Event A R U} (hlogin : e.isLogin = false)
    (hs : s.step ({}, e) = some s') (h : s'.ComesBack) : s.ComesBack := by
  obtain ⟨es, s'', hes, hrun, hback⟩ := h
  refine ⟨({}, e) :: es, s'', fun x hx => ?_, Option.bind_eq_some_iff.mpr ⟨s', hs, hrun⟩, hback⟩
  rcases List.mem_cons.mp hx with rfl | hx
  · exact hlogin
  · exact hes x hx

theorem comesBack_now (h : ¬ s.LoggedOut) : s.ComesBack :=
  ⟨[], s, fun e he => (by cases he), rfl, h⟩

theorem not_loggedOut_of_stored {token : R} (h : s.stored = some token) : ¬ s.LoggedOut := by
  intro hout
  cases h.symm.trans hout.stored

theorem not_loggedOut_of_token {token : A} (h : s.accessToken = some token) : ¬ s.LoggedOut := by
  intro hout
  cases h.symm.trans hout.accessToken

theorem comesBack_refreshed {j k : ℕ} {f : Flow} {token : A} (hf : s.flows[j]? = some f)
    (hlive : ¬ (f.kind = .bootstrap ∧ f.cancelled = true)) (hstage : f.stage = .refreshing k)
    (hk : s.refreshResult k = some (some token)) : s.ComesBack := by
  have hstep : s.step ({}, .resumeFlow j) = some (s.flowRefreshed {} j f (some token)) := by
    simp only [step, hf, Option.bind_some, resumeFlow, hstage, hk, Option.map_some]
  have htoken : (s.flowRefreshed {} j f (some token)).accessToken = some token := by
    rw [flowRefreshed, if_neg hlive]
    rfl
  exact comesBack_step rfl hstep (comesBack_now (not_loggedOut_of_token htoken))

theorem comesBack_answered {i j : ℕ} {f : Flow} {tokens : AuthTokens A R}
    (hf : s.flows[j]? = some f) (hkind : f.kind = .login) (hstage : f.stage = .requesting i)
    (hi : s.answer i = some (.ok (some (.tokens tokens)))) : s.ComesBack := by
  have hstep : s.step ({}, .resumeFlow j) =
      some (s.flowAnswered {} j f (.ok (some (.tokens tokens)))) := by
    simp only [step, hf, Option.bind_some, resumeFlow, hstage, hi, Option.map_some]
  have htoken : (s.flowAnswered {} j f (.ok (some (.tokens tokens)))).accessToken =
      some tokens.accessToken := by
    rw [flowAnswered, if_pos hkind]
    rfl
  exact comesBack_step rfl hstep (comesBack_now (not_loggedOut_of_token htoken))

theorem comesBack_user {i j : ℕ} {f : Flow} {u : U} (hf : s.flows[j]? = some f)
    (hlive : ¬ (f.kind = .bootstrap ∧ f.cancelled = true)) (hstage : f.stage = .readingUser i)
    (hi : s.answer i = some (.ok (some (.user u)))) : s.ComesBack := by
  have hstep : s.step ({}, .resumeFlow j) = some (s.userRead {} j f (.ok (some (.user u)))) := by
    simp only [step, hf, Option.bind_some, resumeFlow, hstage, hi, Option.map_some]
  have huser : (s.userRead {} j f (.ok (some (.user u)))).react.currentUser = some u := by
    rw [userRead]
    dsimp only [Option.bind_some, Data.user?]
    split
    · rename_i hkind
      rw [if_neg fun h => hlive ⟨hkind, h⟩]
      rfl
    · rfl
  refine comesBack_step rfl hstep (comesBack_now fun hout => ?_)
  cases huser.symm.trans hout.user

theorem step_answers {i : ℕ} {r : ApiRequest A R U} {data : Data A R U}
    (hi : s.requests[i]? = some r) (hwaits : r.stage = .sent ∨ r.stage = .resent)
    (hfits : fits r.call.path (.ok ⟨200, some (.success data)⟩) = true) :
    s.step ({}, .reply i (.ok ⟨200, some (.success data)⟩)) =
      some (s.putRequest i { r with stage := .resolved (some data) }) := by
  simp only [step, hi, Option.bind_some, hfits, if_true, Tab.reply]
  rcases hwaits with h | h <;> rw [h] <;> rfl

theorem answer_put {i : ℕ} {r : ApiRequest A R U} {data : Option (Data A R U)}
    (hi : s.requests[i]? = some r) :
    (s.putRequest i { r with stage := .resolved data }).answer i = some (.ok data) := by
  rw [answer, putRequest, List.getElem?_set_self (getElem?_lt hi)]
  rfl

theorem comesBack_sent [Inhabited A] {k : ℕ} {token : R} (hk : s.refreshes[k]? = some (.sent token)) :
    s.ComesBack := by
  have hstep : s.step ({}, .refreshReply k (.ok ⟨200, some (.success ⟨default, token⟩)⟩)) =
      some (s.refreshReply {} k (.ok ⟨200, some (.success ⟨default, token⟩)⟩)) := by
    simp only [step, hk]
  have hstored : (s.refreshReply {} k (.ok ⟨200, some (.success ⟨default, token⟩)⟩)).stored =
      some token := rfl
  exact comesBack_step rfl hstep (comesBack_now (not_loggedOut_of_stored hstored))

/-- A reload joins the refresh that has just brought a token. -/
theorem comesBack_settled (hw : s.Wired) {k : ℕ} {token : A}
    (hk : s.refreshes[k]? = some (.settled (some token))) : s.ComesBack := by
  have hflight := hw.current k _ hk rfl
  have hjoin : s.refreshAccessToken {} = s := by rw [refreshAccessToken, hflight]
  have hpromise : s.refreshPromise = k := by rw [refreshPromise, hflight, Option.getD_some]
  have hreload : s.step ({}, .reload) = some (s.addFlow .reload (.refreshing k)) := by
    rw [step, reloadSession, hjoin, hpromise]
  have hsettle : (s.addFlow .reload (.refreshing k)).step ({}, .refreshSettled k) =
      some ((s.addFlow .reload (.refreshing k)).refreshSettled k (some token)) := by
    simp only [step, addFlow, hk]
  have hresult : ((s.addFlow .reload (.refreshing k)).refreshSettled k (some token)).refreshResult k =
      some (some token) := by
    simp only [refreshResult, refreshSettled, putRefresh, addFlow,
      List.getElem?_set_self (getElem?_lt hk), Option.bind_some, RefreshStage.result]
  refine comesBack_step rfl hreload (comesBack_step rfl hsettle ?_)
  exact comesBack_refreshed (j := s.flows.length) (f := ⟨.reload, .refreshing k, false⟩)
    List.getElem?_concat_length (fun h => (by cases h.1)) rfl hresult

theorem comesBack_reading [Inhabited U] {i j : ℕ} {f : Flow} {r : ApiRequest A R U}
    (hf : s.flows[j]? = some f)
    (hlive : ¬ (f.kind = .bootstrap ∧ f.cancelled = true)) (hstage : f.stage = .readingUser i)
    (hi : s.requests[i]? = some r) (hpath : r.call.path = "/auth/me")
    (hwaits : r.stage = .sent ∨ r.stage = .resent) : s.ComesBack := by
  have hfits : fits r.call.path (.ok ⟨200, some (.success (.user (default : U)))⟩ :
      Except String (Reply (Data A R U))) = true := by
    rw [hpath, fits]
    decide
  refine comesBack_step rfl (step_answers hi hwaits hfits) ?_
  exact comesBack_user hf hlive hstage (answer_put hi)

theorem comesBack_of_mayWrite [Inhabited A] [Inhabited R] [Inhabited U] (hw : s.Wired)
    (h : s.MayWrite) : s.ComesBack := by
  rcases h with ⟨k, r, hk, ⟨token, rfl⟩ | ⟨token, rfl⟩⟩ | ⟨j, f, hf, hlive, hmay⟩
  · exact comesBack_sent hk
  · exact comesBack_settled hw hk
  have hsound := hw.flows j f hf
  unfold Flow.Sound at hsound
  cases hstage : f.stage with
  | refreshing k =>
    rw [hstage] at hmay
    obtain ⟨token, hk⟩ := hmay
    exact comesBack_refreshed hf hlive hstage hk
  | requesting i =>
    rw [hstage] at hmay hsound
    obtain ⟨hkind, r, hi, hmay⟩ := hmay
    have hpath : r.call.path = "/auth/login" := by
      rcases hsound with ⟨-, q, hq, hpath⟩ | ⟨hlogout, -⟩
      · cases hi.symm.trans hq
        exact hpath
      · cases hkind.symm.trans hlogout
    have hrequest := hw.requests i r hi
    unfold ApiRequest.Sound at hrequest
    cases hr : r.stage with
    | sent =>
      have hfits : fits r.call.path (.ok ⟨200, some (.success (.tokens ⟨default, default⟩))⟩ :
          Except String (Reply (Data A R U))) = true := by
        rw [hpath, fits]
        decide
      refine comesBack_step rfl (step_answers hi (.inl hr) hfits) ?_
      exact comesBack_answered hf hkind hstage (answer_put hi)
    | resolved data =>
      rw [hr] at hmay
      obtain ⟨d, rfl, tokens, rfl⟩ := hmay
      have hanswer : s.answer i = some (.ok (some (.tokens tokens))) := by
        rw [answer, hi, Option.bind_some, hr]
        rfl
      exact comesBack_answered hf hkind hstage hanswer
    | refreshing k error =>
      rw [hr, hpath] at hrequest
      exact absurd (List.mem_cons_self) hrequest.2.2
    | resent =>
      rw [hr, hpath] at hrequest
      exact absurd (List.mem_cons_self) hrequest.2
    | rejected error =>
      rw [hr] at hmay
      exact hmay.elim
  | readingUser i =>
    rw [hstage] at hmay hsound
    obtain ⟨r, hi, hmay⟩ := hmay
    have hpath : r.call.path = "/auth/me" := by
      obtain ⟨-, q, hq, hpath⟩ := hsound
      cases hi.symm.trans hq
      exact hpath
    cases hr : r.stage with
    | sent => exact comesBack_reading hf hlive hstage hi hpath (.inl hr)
    | resent => exact comesBack_reading hf hlive hstage hi hpath (.inr hr)
    | refreshing k error =>
      rw [hr] at hmay
      obtain ⟨token, hk⟩ := hmay
      have hstep : s.step ({}, .resumeRequest i) = some (s.refreshed {} i r error (some token)) := by
        simp only [step, hi, Option.bind_some, resumeRequest, hr, hk, Option.map_some]
      refine comesBack_step rfl hstep (comesBack_reading (i := i) (j := j) (f := f)
        (r := { r with fetches := r.fetches ++ [s.fetch r.call], stage := .resent }) hf hlive hstage
        ?_ hpath (.inr rfl))
      exact List.getElem?_set_self (getElem?_lt hi)
    | resolved data =>
      rw [hr] at hmay
      obtain ⟨d, rfl, u, rfl⟩ := hmay
      refine comesBack_user (u := u) hf hlive hstage ?_
      rw [answer, hi, Option.bind_some, hr]
      rfl
    | rejected error =>
      rw [hr] at hmay
      exact hmay.elim
  | finished =>
    rw [hstage] at hmay
    exact hmay.elim

/-- A session that has been cleared stays so until the next login, whatever is called and
answered, exactly when no refresh is out or untold and no flow may still write. -/
theorem stays_loggedOut_iff [Inhabited A] [Inhabited R] [Inhabited U] {stored : Option R}
    {before : List (Storage × Event A R U)} (hrun : runAll step (fresh stored) before = some s)
    (hout : s.LoggedOut) :
    (∀ (es : List (Storage × Event A R U)) (s' : Tab A R U), (∀ e ∈ es, e.2.isLogin = false) →
      runAll step s es = some s' → s'.LoggedOut) ↔ ¬ s.MayWrite := by
  have hw := wired_of_run hrun
  constructor
  · intro hall hmay
    obtain ⟨es, s', hes, hrun', hback⟩ := comesBack_of_mayWrite hw hmay
    exact hback (hall es s' hes hrun')
  · intro hquiet es s' hes hrun'
    exact loggedOut_run hw hout hquiet hes hrun'

/-! ### A logout during a refresh -/

/-- A call has been refused and is being refreshed while the session is logged out. -/
def logoutEvents : List (Storage × Event ℕ ℕ ℕ) :=
  [({}, .call { path := "/roles" }),
    ({}, .reply 0 (.ok ⟨401, some (.failure ⟨"UNAUTHORIZED", "", none⟩)⟩)),
    ({}, .logout), ({}, .reply 1 (.ok ⟨200, some (.success .other)⟩)), ({}, .resumeFlow 0)]

def loggedOutTab : Tab ℕ ℕ ℕ where
  stored := none
  refreshInFlight := some 0
  refreshes := [.sent 1]
  requests := [⟨{ path := "/roles" }, [⟨"/roles", none, .empty⟩],
      .refreshing 0 ⟨"UNAUTHORIZED", "", none⟩⟩,
    ⟨⟨"/auth/logout", .refreshToken 1, false⟩, [⟨"/auth/logout", none, .refreshToken 1⟩],
      .resolved (some .other)⟩]
  flows := [⟨.logout, .finished, false⟩]

theorem stays_loggedOut_iff_refreshing :
    (∀ (es : List (Storage × Event ℕ ℕ ℕ)) (s' : Tab ℕ ℕ ℕ), (∀ e ∈ es, e.2.isLogin = false) →
      runAll step loggedOutTab es = some s' → s'.LoggedOut) ↔ ¬ loggedOutTab.MayWrite :=
  @stays_loggedOut_iff ℕ ℕ ℕ loggedOutTab _ _ _ (some 1) logoutEvents rfl ⟨rfl, rfl, rfl, rfl⟩

end Tab
end Flexi.Client.Session
