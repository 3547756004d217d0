import Flexi.Client.System

/-!
# The tab's own steps, and the answers it gets
-/

namespace Flexi.Client.Session
open Flexi.Library Flexi.Accounts

namespace System

section
variable {cfg : Config} {stage : ℕ → TokenStage} {s : System}

/-! ### The tab goes on -/

section
variable {tab : BrowserTab}

theorem request_kept (ht : s.tab.TokenStep tab) {i : ℕ}
    {r : ApiRequest AccessJwt RefreshJwt AuthenticatedUser} (hr : s.tab.requests[i]? = some r)
    (hpath : r.call.path ∈ Tab.TOKEN_PATHS) : tab.requests[i]? = some r := by
  obtain ⟨r', hr', -, hsame⟩ := ht.requests i r hr
  rwa [hsame hpath] at hr'

theorem request_back (ht : s.tab.TokenStep tab) {i : ℕ}
    {r' : ApiRequest AccessJwt RefreshJwt AuthenticatedUser} (hi : i < s.tab.requests.length)
    (hr' : tab.requests[i]? = some r') (hpath : r'.call.path ∈ Tab.TOKEN_PATHS) :
    s.tab.requests[i]? = some r' := by
  have hr := List.getElem?_eq_getElem hi
  obtain ⟨r'', hr'', hcall, hsame⟩ := ht.requests i _ hr
  cases hr'.symm.trans hr''
  rw [hsame (hcall ▸ hpath)]
  exact hr

theorem fetched_kept (ht : s.tab.TokenStep tab) {id : FetchId} {q : Request}
    (h : s.fetched id = some q) : fetched { s with tab := tab } id = some q := by
  cases id with
  | refresh k =>
    obtain ⟨token, hk, rfl⟩ := fetched_refresh h
    exact fetched_of_sent (s := { s with tab := tab }) (ht.sent k token hk)
  | request i =>
    obtain ⟨r, hr, hsent, hserver⟩ := fetched_request h
    have hr' := request_kept ht hr (serverRequest_path hserver).1
    simp only [fetched, hr', Option.bind_some, hsent, hserver]

theorem fetched_back (ht : s.tab.TokenStep tab) {id : FetchId} {q : Request}
    (hknown : match id with
      | .refresh k => k < s.tab.refreshes.length
      | .request i => i < s.tab.requests.length)
    (h : fetched { s with tab := tab } id = some q) : s.fetched id = some q := by
  cases id with
  | refresh k =>
    obtain ⟨token, hk, rfl⟩ := fetched_refresh h
    rcases ht.started k token hk with hold | ⟨-, -, -, hnew⟩
    · exact fetched_of_sent hold
    · exact absurd hnew hknown.ne
  | request i =>
    obtain ⟨r, hr, hsent, hserver⟩ := fetched_request h
    have hr' := request_back ht hknown hr (serverRequest_path hserver).1
    simp only [fetched, hr', Option.bind_some, hsent, hserver]

theorem Linked.goesOn (h : s.Linked cfg stage) (ht : s.tab.TokenStep tab) (hw : tab.Wired) :
    Linked cfg stage { s with tab := tab } where
  wired := hw
  paired := ht.paired h.wired h.paired
  served i r hr hpath hsent := by
    rcases Nat.lt_or_ge i s.tab.requests.length with hi | hi
    · have hold := request_back ht hi hr hpath
      obtain ⟨j, kind, hj⟩ := h.served i r hold hpath hsent
      rcases ht.ended j kind i hj with hkept | ⟨hanswered, -⟩
      · exact ⟨j, kind, hkept⟩
      · simp only [Tab.answer, hold, Option.bind_some, hsent] at hanswered
        cases hanswered
    · exact (ht.fresh i r hr hi).2 hpath
  once := h.once
  as := h.as
  taken := h.taken
  known id n hid := by
    have hold := h.known id n hid
    cases id with
    | refresh k => exact hold.trans_le ht.grows
    | request i =>
      obtain ⟨r', hr', -⟩ := ht.requests i _ (List.getElem?_eq_getElem hold)
      exact getElem?_lt hr'
  paths i n r' hid hr' := by
    have hr := List.getElem?_eq_getElem (h.known _ n hid)
    obtain ⟨r'', hr'', hcall, -⟩ := ht.requests i _ hr
    cases hr'.symm.trans hr''
    rw [hcall]
    exact h.paths i n _ hid hr
  out id n f hid hf hlive := fetched_kept ht (h.out id n f hid hf hlive)
  same id n f r hid hf hr := h.same id n f r hid hf (fetched_back ht (h.known id n hid) hr)
  threads := h.threads

/-- A fetch that holds tokens after the step has held them before. -/
theorem holds_back (hl : s.Linked cfg stage) (ht : s.tab.TokenStep tab) {id : FetchId} {hash : String}
    (h : Holds cfg stage { s with tab := tab } id hash) : s.Holds cfg stage id hash := by
  cases id with
  | refresh k =>
    obtain ⟨⟨token, hk⟩, n, hn, hstage⟩ := h
    rcases ht.started k token hk with hold | ⟨-, -, -, hnew⟩
    · exact ⟨⟨token, hold⟩, n, hn, hstage⟩
    · exact absurd hnew (hl.known _ n hn).ne
  | request i =>
    obtain ⟨hawaits, hcases⟩ := h
    rcases ht.awaits hawaits with hold | hnew
    · have hlogin : ∃ r, s.tab.requests[i]? = some r ∧ r.call.path ∈ Tab.TOKEN_PATHS := by
        obtain ⟨j, f, hf, hkind, hstage⟩ := hold
        have hsound := hl.wired.flows j f hf
        rw [Flow.Sound, hstage] at hsound
        rcases hsound with ⟨-, r, hr, hpath⟩ | ⟨hlogout, -⟩
        · exact ⟨r, hr, by rw [hpath]; decide⟩
        · cases hkind.symm.trans hlogout
      obtain ⟨r, hr, hpath⟩ := hlogin
      have hr' := request_kept ht hr hpath
      refine ⟨hold, hcases.imp ?_ ?_⟩
      · rintro ⟨q, hq, hsent, hrest⟩
        cases hr'.symm.trans hq
        exact ⟨r, hr, hsent, hrest⟩
      · rintro ⟨tokens, hanswer, hhash⟩
        refine ⟨tokens, ?_, hhash⟩
        rw [← hanswer, Tab.answer, Tab.answer, hr, hr']
    · rcases hcases with ⟨r, hr, -, n, hn, -⟩ | ⟨tokens, hanswer, -⟩
      · exact absurd hnew (hl.known _ n hn).ne
      · obtain ⟨r, hr, houtcome⟩ := Option.bind_eq_some_iff.mp hanswer
        rw [(ht.fresh i r hr hnew.ge).1] at houtcome
        cases houtcome

theorem Tokens.goesOn (h : s.Tokens cfg stage) (hl : s.Linked cfg stage) (ht : s.tab.TokenStep tab)
    (hapart : ∀ token token', tab.Refreshing token → tab.LoggingOut token' →
      cfg.hashToken token ≠ cfg.hashToken token') :
    Tokens cfg stage { s with tab := tab } where
  keyed := h.keyed
  ids := h.ids
  found := h.found
  stored token hstored := by
    rcases ht.stored with hsame | hnone | ⟨j, i, tokens, hj, hanswer, -, htokens⟩
    · obtain ⟨hissued, huses | hunspent⟩ := h.stored token (hsame ▸ hstored)
      · refine ⟨hissued, .inl ?_⟩
        obtain ⟨token', hhash, ⟨k, hk⟩ | hout⟩ := huses
        · exact ⟨token', hhash, .inl ⟨k, ht.sent k token' hk⟩⟩
        · rcases ht.loggedOut hout with hkept | hnone
          · exact ⟨token', hhash, .inr hkept⟩
          · cases hstored.symm.trans hnone
      · exact ⟨hissued, .inr hunspent⟩
    · cases hstored.symm.trans hnone
    · cases hstored.symm.trans htokens
      have hheld := h.holds (.request i) (cfg.hashToken tokens.refreshToken)
        ⟨⟨j, hj⟩, .inr ⟨tokens, hanswer, rfl⟩⟩
      exact ⟨hheld.1, .inr hheld.2.1⟩
  refreshing k token hk := by
    rcases ht.started k token hk with hold | ⟨hstored, hkept, hnone, hnew⟩
    · exact h.refreshing k token hold
    · obtain ⟨hissued, huses | hunspent⟩ := h.stored token hstored
      · exfalso
        obtain ⟨token', hhash, ⟨k', hk'⟩ | hout⟩ := huses
        · have hcurrent := hl.wired.current k' _ hk' rfl
          cases hnone.symm.trans hcurrent
        · rcases ht.loggedOut hout with hout' | hcleared
          · exact hapart token token' ⟨k, hk⟩ hout' hhash.symm
          · rw [hkept, hstored] at hcleared
            cases hcleared
      · refine ⟨hissued, fun _ => hunspent, fun n hn => ?_⟩
        exact absurd hnew (hl.known _ n hn).ne
  loggingOut token hout := by
    rcases ht.loggingOut hl.wired hout with hold | ⟨hstored, -⟩
    · exact h.loggingOut token hold
    · exact (h.stored token hstored).1
  holds id hash hheld := by
    have hold := holds_back hl ht hheld
    obtain ⟨hissued, hunspent, huses, hstored⟩ := h.holds id hash hold
    refine ⟨hissued, hunspent, ?_, fun token htoken hhash => ?_⟩
    · rintro ⟨token, hhash, ⟨k, hk⟩ | hout⟩
      · rcases ht.started k token hk with hk | ⟨htoken, -⟩
        · exact huses ⟨token, hhash, .inl ⟨k, hk⟩⟩
        · exact hstored token htoken hhash
      · rcases ht.loggingOut hl.wired hout with hout | ⟨htoken, -⟩
        · exact huses ⟨token, hhash, .inr hout⟩
        · exact hstored token htoken hhash
    · rcases ht.stored with hsame | hnone | ⟨j, i, tokens, hj, hanswer, hended, htokens⟩
      · exact hstored token (hsame ▸ htoken) hhash
      · cases htoken.symm.trans hnone
      · cases htoken.symm.trans htokens
        have hsame := h.one id (.request i) hash hold ⟨⟨j, hj⟩, .inr ⟨tokens, hanswer, hhash⟩⟩
        subst hsame
        exact ht.consumed hl.wired hl.paired hj hended hheld.1
  one id id' hash hid hid' := h.one id id' hash (holds_back hl ht hid) (holds_back hl ht hid')
  apart := hapart

end

/-! ### A refresh is answered -/

section
variable {tab : BrowserTab} {k : ℕ} {token : RefreshJwt}

/-- Refresh `k` is out no more; `kept` says that nothing else the tab waits for has changed. -/
structure RefreshOver (s : System) (tab : BrowserTab) (k : ℕ) : Prop where
  flows : tab.flows = s.tab.flows
  requests : tab.requests = s.tab.requests
  refreshes : ∃ result, tab.refreshes = s.tab.refreshes.set k (.settled result)

theorem RefreshOver.sent (h : s.RefreshOver tab k) {k' : ℕ} {token' : RefreshJwt}
    (hk' : tab.refreshes[k']? = some (RefreshStage.sent token')) :
    k' ≠ k ∧ s.tab.refreshes[k']? = some (RefreshStage.sent token') := by
  obtain ⟨result, hset⟩ := h.refreshes
  rw [hset] at hk'
  rcases getElem?_put hk' with ⟨-, heq⟩ | ⟨hne, hk'⟩
  · cases heq
  · exact ⟨hne, hk'⟩

theorem RefreshOver.loggingOut (h : s.RefreshOver tab k) {token' : RefreshJwt} :
    tab.LoggingOut token' ↔ s.tab.LoggingOut token' := by
  simp only [Tab.LoggingOut, Tab.Requesting, h.flows, h.requests]

theorem RefreshOver.uses (h : s.RefreshOver tab k) {hash : String}
    (hu : Uses cfg { s with tab := tab } hash) : s.Uses cfg hash := by
  obtain ⟨token', hhash, ⟨k', hk'⟩ | hout⟩ := hu
  · exact ⟨token', hhash, .inl ⟨k', (h.sent hk').2⟩⟩
  · exact ⟨token', hhash, .inr (h.loggingOut.mp hout)⟩

theorem RefreshOver.holds (h : s.RefreshOver tab k) {id : FetchId} {hash : String}
    (hheld : Holds cfg stage { s with tab := tab } id hash) :
    id ≠ .refresh k ∧ s.Holds cfg stage id hash := by
  cases id with
  | refresh k' =>
    obtain ⟨⟨token', hk'⟩, hrest⟩ := hheld
    obtain ⟨hne, hk'⟩ := h.sent hk'
    refine ⟨fun heq => hne ?_, ⟨token', hk'⟩, hrest⟩
    cases heq
    rfl
  | request i =>
    refine ⟨fun heq => (by cases heq), ?_⟩
    simp only [Holds, Tab.AwaitsTokens, Tab.Requesting, Tab.answer, h.flows, h.requests] at hheld
    exact hheld

theorem RefreshOver.fetched (h : s.RefreshOver tab k) {id : FetchId} {q : Request}
    (hq : System.fetched { s with tab := tab } id = some q) : id ≠ .refresh k ∧ s.fetched id = some q := by
  cases id with
  | refresh k' =>
    obtain ⟨token', hk', rfl⟩ := fetched_refresh hq
    obtain ⟨hne, hk'⟩ := h.sent hk'
    refine ⟨fun heq => hne ?_, fetched_of_sent hk'⟩
    cases heq
    rfl
  | request i =>
    refine ⟨fun heq => (by cases heq), ?_⟩
    simp only [System.fetched, h.requests] at hq
    exact hq

theorem RefreshOver.fetched_kept (h : s.RefreshOver tab k) {id : FetchId} {q : Request}
    (hid : id ≠ .refresh k) (hq : s.fetched id = some q) :
    System.fetched { s with tab := tab } id = some q := by
  cases id with
  | refresh k' =>
    obtain ⟨token', hk', rfl⟩ := fetched_refresh hq
    obtain ⟨result, hset⟩ := h.refreshes
    refine fetched_of_sent (s := { s with tab := tab }) ?_
    show tab.refreshes[k']? = _
    rw [hset, ← hk']
    exact List.getElem?_set_ne fun heq => hid (by rw [heq])
  | request i =>
    simp only [System.fetched, h.requests]
    exact hq

theorem Linked.refreshOver (h : s.Linked cfg stage) (hover : s.RefreshOver tab k) (hw : tab.Wired)
    (hdone : ∀ n f, (FetchId.refresh k, n) ∈ s.arrived → s.server.requests[n]? = some f →
      ∃ r, f.thread = .finished r) : Linked cfg stage { s with tab := tab } where
  wired := hw
  paired := by
    have hpaired := h.paired
    simp only [Tab.Paired, Tab.Requesting] at hpaired ⊢
    rwa [hover.flows]
  served i r hr := by
    show r.call.path ∈ Tab.TOKEN_PATHS → r.stage = .sent → ∃ j kind, tab.Requesting j kind i
    simp only [Tab.Requesting, hover.flows]
    exact h.served i r (hover.requests ▸ hr)
  once := h.once
  as := h.as
  taken := h.taken
  known id n hid := by
    have hold := h.known id n hid
    obtain ⟨result, hset⟩ := hover.refreshes
    cases id with
    | refresh k' =>
      show k' < tab.refreshes.length
      rwa [hset, List.length_set]
    | request i =>
      show i < tab.requests.length
      rwa [hover.requests]
  paths i n r hid hr := h.paths i n r hid (hover.requests ▸ hr)
  out id n f hid hf hlive := by
    refine hover.fetched_kept (fun heq => ?_) (h.out id n f hid hf hlive)
    subst heq
    obtain ⟨r, hr⟩ := hdone n f hid hf
    exact hlive r hr
  same id n f r hid hf hr := h.same id n f r hid hf (hover.fetched hr).2
  threads := h.threads

theorem Tokens.refreshOver (h : s.Tokens cfg stage) (hover : s.RefreshOver tab k)
    (hk : s.tab.refreshes[k]? = some (.sent token))
    (hstored : (tab.stored = s.tab.stored ∧ s.server.db.Unspent (cfg.hashToken token)) ∨
      ∃ new, tab.stored = some new ∧ s.Holds cfg stage (.refresh k) (cfg.hashToken new)) :
    Tokens cfg stage { s with tab := tab } where
  keyed := h.keyed
  ids := h.ids
  found := h.found
  stored token' htoken' := by
    rcases hstored with ⟨hsame, hunspent⟩ | ⟨new, hnew, hheld⟩
    · obtain ⟨hissued, ⟨token'', hhash, ⟨k', hk'⟩ | hout⟩ | hgood⟩ :=
        h.stored token' (hsame ▸ htoken')
      · by_cases hkk : k' = k
        · subst hkk
          cases hk.symm.trans hk'
          exact ⟨hissued, .inr (hhash ▸ hunspent)⟩
        · refine ⟨hissued, .inl ⟨token'', hhash, .inl ⟨k', ?_⟩⟩⟩
          obtain ⟨result, hset⟩ := hover.refreshes
          show tab.refreshes[k']? = _
          rw [hset, ← hk']
          exact List.getElem?_set_ne (Ne.symm hkk)
      · exact ⟨hissued, .inl ⟨token'', hhash, .inr (hover.loggingOut.mpr hout)⟩⟩
      · exact ⟨hissued, .inr hgood⟩
    · cases htoken'.symm.trans hnew
      have hgood := h.holds _ _ hheld
      exact ⟨hgood.1, .inr hgood.2.1⟩
  refreshing k' token' hk' := h.refreshing k' token' (hover.sent hk').2
  loggingOut token' hout := h.loggingOut token' (hover.loggingOut.mp hout)
  holds id hash hheld := by
    obtain ⟨hne, hold⟩ := hover.holds hheld
    obtain ⟨hissued, hunspent, huses, hother⟩ := h.holds id hash hold
    refine ⟨hissued, hunspent, fun hu => huses (hover.uses hu), fun token' htoken' hhash => ?_⟩
    rcases hstored with ⟨hsame, -⟩ | ⟨new, hnew, hheld'⟩
    · exact hother token' (hsame ▸ htoken') hhash
    · cases htoken'.symm.trans hnew
      exact hne (h.one _ _ _ hold (hhash ▸ hheld'))
  one id id' hash hid hid' := h.one id id' hash (hover.holds hid).2 (hover.holds hid').2
  apart token' token'' hrefreshing hout := by
    obtain ⟨k', hk'⟩ := hrefreshing
    exact h.apart token' token'' ⟨k', (hover.sent hk').2⟩ (hover.loggingOut.mp hout)

end

/-! ### A login or a logout is answered -/

section
variable {i : ℕ} {r : ApiRequest AccessJwt RefreshJwt AuthenticatedUser}
  {answered : RequestStage AccessJwt RefreshJwt AuthenticatedUser}

theorem firstReply_settles {s : BrowserTab} {env : Storage}
    (reply : Except String (Reply (Data AccessJwt RefreshJwt AuthenticatedUser))) (hpath : r.call.path ∈ NO_REFRESH_PATHS) :
    ∃ answered : RequestStage AccessJwt RefreshJwt AuthenticatedUser, answered.outcome.isSome = true ∧
      s.firstReply env i r reply = s.putRequest i { r with stage := answered } ∧
      ∀ data, answered = .resolved (some data) → ∃ status, reply = .ok ⟨status, some (.success data)⟩ := by
  unfold Tab.firstReply
  split
  · exact ⟨_, rfl, rfl, fun _ h => (by cases h)⟩
  · exact ⟨_, rfl, rfl, fun _ h => (by cases h)⟩
  · rename_i status data
    refine ⟨_, rfl, rfl, fun _ h => ?_⟩
    cases h
    exact ⟨status, rfl⟩
  · split
    · exact ⟨_, rfl, rfl, fun _ h => (by cases h)⟩
    · split
      · rename_i hretry
        exact absurd hpath hretry.2
      · exact ⟨_, rfl, rfl, fun _ h => (by cases h)⟩

theorem loggingOut_put (hr : s.tab.requests[i]? = some r) {token : RefreshJwt} :
    (s.tab.putRequest i { r with stage := answered }).LoggingOut token ↔ s.tab.LoggingOut token := by
  constructor
  · rintro ⟨j, n, q, hj, hq, hbody⟩
    rcases getElem?_put hq with ⟨rfl, rfl⟩ | ⟨-, hq⟩
    · exact ⟨j, n, r, hj, hr, hbody⟩
    · exact ⟨j, n, q, hj, hq, hbody⟩
  · rintro ⟨j, n, q, hj, hq, hbody⟩
    by_cases hn : n = i
    · subst hn
      cases hr.symm.trans hq
      exact ⟨j, n, _, hj, List.getElem?_set_self (getElem?_lt hr), hbody⟩
    · exact ⟨j, n, q, hj, by rw [← hq]; exact List.getElem?_set_ne (Ne.symm hn), hbody⟩

theorem uses_put (hr : s.tab.requests[i]? = some r) {hash : String} :
    Uses cfg { s with tab := s.tab.putRequest i { r with stage := answered } } hash ↔
      s.Uses cfg hash := by
  refine exists_congr fun token => and_congr_right fun _ => or_congr Iff.rfl ?_
  exact loggingOut_put hr

theorem fetched_put (hr : s.tab.requests[i]? = some r) (hsettled : answered.outcome.isSome = true)
    {id : FetchId} {q : Request}
    (hq : System.fetched { s with tab := s.tab.putRequest i { r with stage := answered } } id = some q) :
    id ≠ .request i ∧ s.fetched id = some q := by
  cases id with
  | refresh k =>
    obtain ⟨token, hk, rfl⟩ := fetched_refresh hq
    exact ⟨fun heq => (by cases heq), fetched_of_sent hk⟩
  | request n =>
    obtain ⟨q', hq', hsent, hserver⟩ := fetched_request hq
    rcases getElem?_put hq' with ⟨rfl, rfl⟩ | ⟨hn, hq'⟩
    · have hsent : answered = .sent := hsent
      subst hsent
      cases hsettled
    · refine ⟨fun heq => hn ?_, ?_⟩
      · cases heq
        rfl
      · simp only [System.fetched, hq', Option.bind_some, hsent, hserver]

theorem fetched_put_kept {id : FetchId} {q : Request}
    (hid : id ≠ .request i) (hq : s.fetched id = some q) :
    System.fetched { s with tab := s.tab.putRequest i { r with stage := answered } } id = some q := by
  cases id with
  | refresh k => exact hq
  | request n =>
    have hput : (s.tab.requests.set i { r with stage := answered })[n]? = s.tab.requests[n]? :=
      List.getElem?_set_ne fun heq => hid (by rw [heq])
    simp only [System.fetched, Tab.putRequest, hput]
    exact hq

theorem Linked.requestOver (h : s.Linked cfg stage) (hr : s.tab.requests[i]? = some r)
    (hsettled : answered.outcome.isSome = true)
    (hw : (s.tab.putRequest i { r with stage := answered }).Wired)
    (hdone : ∀ n f, (FetchId.request i, n) ∈ s.arrived → s.server.requests[n]? = some f →
      ∃ a, f.thread = .finished a) :
    Linked cfg stage { s with tab := s.tab.putRequest i { r with stage := answered } } where
  wired := hw
  paired := h.paired
  served n q hq hpath hsent := by
    rcases getElem?_put hq with ⟨-, rfl⟩ | ⟨-, hq⟩
    · have hsent : answered = .sent := hsent
      subst hsent
      cases hsettled
    · exact h.served n q hq hpath hsent
  once := h.once
  as := h.as
  taken := h.taken
  known id n hid := by
    have hold := h.known id n hid
    cases id with
    | refresh k => exact hold
    | request m => exact hold.trans_eq List.length_set.symm
  paths m n q hid hq := by
    rcases getElem?_put hq with ⟨rfl, rfl⟩ | ⟨-, hq⟩
    · exact h.paths m n r hid hr
    · exact h.paths m n q hid hq
  out id n f hid hf hlive := by
    refine fetched_put_kept (fun heq => ?_) (h.out id n f hid hf hlive)
    subst heq
    obtain ⟨a, ha⟩ := hdone n f hid hf
    exact hlive a ha
  same id n f q hid hf hq := h.same id n f q hid hf (fetched_put hr hsettled hq).2
  threads := h.threads

theorem holds_put (hr : s.tab.requests[i]? = some r) (hsettled : answered.outcome.isSome = true)
    (hbrought : ∀ tokens, answered = .resolved (some (.tokens tokens)) → s.tab.AwaitsTokens i →
      s.Holds cfg stage (.request i) (cfg.hashToken tokens.refreshToken)) {id : FetchId} {hash : String}
    (hheld : Holds cfg stage { s with tab := s.tab.putRequest i { r with stage := answered } } id hash) :
    s.Holds cfg stage id hash := by
  cases id with
  | refresh k => exact hheld
  | request n =>
    obtain ⟨hawaits, hcases⟩ := hheld
    have hawaits : s.tab.AwaitsTokens n := hawaits
    rcases hcases with ⟨q, hq, hsent, hrest⟩ | ⟨tokens, hanswer, hhash⟩
    · rcases getElem?_put hq with ⟨rfl, rfl⟩ | ⟨-, hq⟩
      · have hsent : answered = .sent := hsent
        subst hsent
        cases hsettled
      · exact ⟨hawaits, .inl ⟨q, hq, hsent, hrest⟩⟩
    · obtain ⟨q, hq, houtcome⟩ := Option.bind_eq_some_iff.mp hanswer
      rcases getElem?_put hq with ⟨rfl, rfl⟩ | ⟨-, hq⟩
      · have houtcome : answered.outcome = some (.ok (some (.tokens tokens))) := houtcome
        have hstage : answered = .resolved (some (.tokens tokens)) := by
          rcases RequestStage.outcome_isSome hsettled with ⟨data, rfl⟩ | ⟨error, rfl⟩
          · cases houtcome
            rfl
          · cases houtcome
        exact hhash ▸ hbrought tokens hstage hawaits
      · refine ⟨hawaits, .inr ⟨tokens, ?_, hhash⟩⟩
        rw [Tab.answer, hq, Option.bind_some, houtcome]

theorem Tokens.requestOver (h : s.Tokens cfg stage) (hr : s.tab.requests[i]? = some r)
    (hsettled : answered.outcome.isSome = true)
    (hbrought : ∀ tokens, answered = .resolved (some (.tokens tokens)) → s.tab.AwaitsTokens i →
      s.Holds cfg stage (.request i) (cfg.hashToken tokens.refreshToken)) :
    Tokens cfg stage { s with tab := s.tab.putRequest i { r with stage := answered } } where
  keyed := h.keyed
  ids := h.ids
  found := h.found
  stored token htoken := by
    refine (h.stored token htoken).imp_right fun hcases => hcases.imp_left fun hu => ?_
    exact (uses_put hr).mpr hu
  refreshing := h.refreshing
  loggingOut token hout := h.loggingOut token ((loggingOut_put hr).mp hout)
  holds id hash hheld := by
    obtain ⟨hissued, hunspent, huses, hother⟩ := h.holds id hash (holds_put hr hsettled hbrought hheld)
    exact ⟨hissued, hunspent, fun hu => huses ((uses_put hr).mp hu), hother⟩
  one id id' hash hid hid' :=
    h.one id id' hash (holds_put hr hsettled hbrought hid) (holds_put hr hsettled hbrought hid')
  apart token token' hrefreshing hout := h.apart token token' hrefreshing ((loggingOut_put hr).mp hout)

end

end
end System
end Flexi.Client.Session
