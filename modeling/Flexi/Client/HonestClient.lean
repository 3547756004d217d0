import Flexi.Client.TabAnswers

/-!
# The refreshes of an undisturbed tab

The server's steps keep what holds of the tab's tokens, and so does every step of a run.
-/

namespace Flexi.Client.Session
open Flexi.Library Flexi.Accounts

namespace System

section
variable {cfg : Config} {stage : ℕ → TokenStage} {s s' : System}

/-! ### The server goes on -/

section
variable {server : Server} {stage' : ℕ → TokenStage} {e : ServerEvent} {issued : List String}

theorem owns_of_arrived {id : FetchId} {n : ℕ} (h : (id, n) ∈ s.arrived) : s.owns n = true :=
  List.any_eq_true.mpr ⟨_, h, by simp⟩

theorem request_before {s' : Server} (hs : server.step cfg e = some s') {n : ℕ} {f : InFlight}
    (hn : n < server.requests.length) (hf : s'.requests[n]? = some f) :
    ∃ t, server.requests[n]? = some ⟨f.request, t⟩ ∧
      ((∀ a, f.thread ≠ .finished a) → ∀ a, t ≠ .finished a) := by
  have hold := List.getElem?_eq_getElem hn
  rcases Server.step_request hs hold with h | ⟨outside, op, k, -, ht, h, -⟩ |
    ⟨op, answer, k, c, -, ht, -, h⟩
  · cases hf.symm.trans h
    exact ⟨_, hold, fun hlive => hlive⟩
  · cases hf.symm.trans h
    refine ⟨_, hold, fun _ a heq => ?_⟩
    cases ht.symm.trans heq
  · cases hf.symm.trans h
    refine ⟨_, hold, fun _ a heq => ?_⟩
    cases ht.symm.trans heq

theorem Linked.serverStep (h : s.Linked cfg stage) (hs : s.server.step cfg e = some server)
    (hthreads : ∀ id n f, (id, n) ∈ s.arrived → server.requests[n]? = some f →
      f.thread.KeepsTo (presenting (presented cfg f.request) (actsOf f.request)) (Delivers cfg)
        (stage' n)) : Linked cfg stage' { s with server := server, issued := issued } where
  wired := h.wired
  paired := h.paired
  served := h.served
  once := h.once
  as := h.as
  taken id n hid := by
    have hn := h.taken id n hid
    rcases Server.step_request hs (List.getElem?_eq_getElem hn) with h | ⟨_, _, _, -, -, h, -⟩ |
      ⟨_, _, _, _, -, -, -, h⟩ <;> exact getElem?_lt h
  known := h.known
  paths := h.paths
  out id n f hid hf hlive := by
    obtain ⟨t, ht, hlive'⟩ := request_before hs (h.taken id n hid) hf
    exact h.out id n ⟨f.request, t⟩ hid ht (hlive' hlive)
  same id n f r hid hf hr := by
    obtain ⟨t, ht, -⟩ := request_before hs (h.taken id n hid) hf
    exact h.same id n ⟨f.request, t⟩ r hid ht hr
  threads := hthreads

theorem threads_kept (h : s.Linked cfg stage) (hs : s.server.step cfg e = some server)
    (hothers : ∀ i outside, e = .execute i outside → s.owns i = false) {id : FetchId} {n : ℕ}
    {f : InFlight} (hid : (id, n) ∈ s.arrived) (hf : server.requests[n]? = some f) :
    f.thread.KeepsTo (presenting (presented cfg f.request) (actsOf f.request)) (Delivers cfg)
      (stage n) := by
  obtain ⟨⟨r, t⟩, hold⟩ : ∃ old, s.server.requests[n]? = some old :=
    ⟨_, List.getElem?_eq_getElem (h.taken id n hid)⟩
  have hthread := h.threads id n _ hid hold
  rcases Server.step_request hs hold with hsame | ⟨outside, op, k, rfl, -⟩ |
    ⟨op, answer, k, c, rfl, ht, -, hnew⟩
  · cases hf.symm.trans hsame
    exact hthread
  · have howned := owns_of_arrived hid
    rw [hothers n outside rfl] at howned
    cases howned
  · cases hf.symm.trans hnew
    rw [ht] at hthread
    exact Thread.KeepsTo.advance hthread _ fun _ => rfl

theorem minted_nil (hothers : ∀ i outside, e = .execute i outside → s.owns i = false) :
    s.minted cfg e = [] := by
  unfold minted
  split
  · rename_i n a hash exp id hx
    obtain ⟨outside, r, k, rfl, -⟩ := Server.executed_eq_some hx
    rw [hothers n outside rfl]
    rfl
  · rfl

theorem Fresh.mono {hash : String} {db db' : Database} {q : TokenStage} (h : Fresh hash db q)
    (hkeep : db.Unspent hash → db'.Unspent hash) : Fresh hash db' q := by
  cases q with
  | before => exact hkeep h
  | found stored => exact ⟨hkeep h.1, h.2⟩
  | _ => trivial

theorem Tokens.others (h : s.Tokens cfg stage) (hl : s.Linked cfg stage)
    (hs : s.server.step cfg e = some server)
    (hkeep : ∀ hash ∈ s.issued, s.server.db.Unspent hash → server.db.Unspent hash) :
    Tokens cfg stage { s with server := server } where
  keyed := Server.step_keeps hs h.keyed fun _ _ _ _ _ _ => h.keyed.perform
  ids := Server.step_keeps hs h.ids fun _ _ _ _ _ _ => h.ids.perform h.keyed
  found id n f stored hid hf hstage := by
    obtain ⟨t, ht, -⟩ := request_before hs (hl.taken id n hid) hf
    exact Server.step_keeps hs (h.found id n ⟨f.request, t⟩ stored hid ht hstage) fun _ _ _ _ _ _ =>
      (h.found id n ⟨f.request, t⟩ stored hid ht hstage).perform
  stored token htoken := by
    obtain ⟨hissued, hcases⟩ := h.stored token htoken
    exact ⟨hissued, hcases.imp_right (hkeep _ hissued)⟩
  refreshing k token hk := by
    obtain ⟨hissued, hwaits, harrived⟩ := h.refreshing k token hk
    exact ⟨hissued, fun hnone => hkeep _ hissued (hwaits hnone), fun n hn =>
      (harrived n hn).mono (hkeep _ hissued)⟩
  loggingOut := h.loggingOut
  holds id hash hheld := by
    obtain ⟨hissued, hunspent, hrest⟩ := h.holds id hash hheld
    exact ⟨hissued, hkeep _ hissued hunspent, hrest⟩
  one := h.one
  apart := h.apart

end

/-! ### A request of the tab makes a statement -/

section
variable {id : FetchId} {n : ℕ} {r : Request} {op : Op} {outside : Outside}
  {k : Except ServiceError op.Res → Service Response}

theorem presented_of_acts (cfg : Config) {stored : RefreshToken} (h : actsOf r stored op) :
    ∃ token, presented cfg r = cfg.hashToken token ∧
      (r = .refresh token ∨ ∃ user, r = .logout token user) := by
  cases r with
  | refresh token => exact ⟨token, rfl, .inl rfl⟩
  | logout token user => exact ⟨token, rfl, .inr ⟨user, rfl⟩⟩
  | _ => exact h.elim

theorem fetched_awaiting (hl : s.Linked cfg stage) (hid : (id, n) ∈ s.arrived)
    (hi : s.server.requests[n]? = some ⟨r, .awaiting op k⟩) : s.fetched id = some r :=
  hl.out id n _ hid hi fun _ heq => (by cases heq)

theorem allows_awaiting (hl : s.Linked cfg stage) (hid : (id, n) ∈ s.arrived)
    (hi : s.server.requests[n]? = some ⟨r, .awaiting op k⟩) :
    (presenting (presented cfg r) (actsOf r)).allows (stage n) op :=
  (hl.threads id n _ hid hi).allows

/-- A refresh of the tab never finds that its token has been revoked. -/
theorem acts_rotate (h : s.Tokens cfg stage) (hl : s.Linked cfg stage) (hid : (id, n) ∈ s.arrived)
    (hi : s.server.requests[n]? = some ⟨r, .awaiting op k⟩) {stored : RefreshToken}
    (hstage : stage n = .found stored) (hacts : actsOf r stored op) :
    (∃ now, op = .rotate stored.id now) ∨ ∃ now, op = .revokeToken stored.id now := by
  have hfetched := fetched_awaiting hl hid hi
  cases r with
  | refresh token =>
    obtain ⟨k, rfl, hk⟩ := fetched_is_refresh hfetched
    have hfresh := (h.refreshing k token hk).2.2 n hid
    rw [hstage] at hfresh
    exact .inl (hacts.resolve_right fun hrevoked => hrevoked.1 hfresh.2)
  | logout token user => exact .inr hacts
  | _ => exact hacts.elim

/-- Another statement leaves a hash unspent, unless a refresh or a logout has found its row. -/
theorem unspent_perform (h : s.Tokens cfg stage) (hl : s.Linked cfg stage) (hid : (id, n) ∈ s.arrived)
    (hi : s.server.requests[n]? = some ⟨r, .awaiting op k⟩) {hash : String}
    (hunspent : s.server.db.Unspent hash) :
    (s.server.perform cfg outside op).2.Unspent hash ∨ ∃ token, hash = cfg.hashToken token ∧
      (r = .refresh token ∨ ∃ user, r = .logout token user) := by
  refine (hunspent.statement (allows_awaiting hl hid hi) (fun stored hq => ?_)
    fun stored hq hacts => acts_rotate h hl hid hi hq hacts).imp_right ?_
  · exact h.found id n _ stored hid hi hq
  · rintro ⟨hhash, stored, -, hacts⟩
    obtain ⟨token, hpresented, hr⟩ := presented_of_acts cfg hacts
    exact ⟨token, hhash.trans hpresented, hr⟩

theorem presents_refreshing (h : s.Tokens cfg stage) (hl : s.Linked cfg stage) {j : ℕ}
    {token token' : RefreshJwt} (hj : s.tab.refreshes[j]? = some (RefreshStage.sent token))
    (hfetched : s.fetched id = some r) (hr : r = .refresh token' ∨ ∃ user, r = .logout token' user)
    (hhash : cfg.hashToken token = cfg.hashToken token') : id = .refresh j := by
  rcases hr with rfl | ⟨user, rfl⟩
  · obtain ⟨i, rfl, hi⟩ := fetched_is_refresh hfetched
    have hcurrent := hl.wired.current j _ hj rfl
    cases hcurrent.symm.trans (hl.wired.current i _ hi rfl)
    rfl
  · exact absurd hhash (h.apart token token' ⟨j, hj⟩ (fetched_is_logout hl hfetched))

theorem next_fresh {hash : String} {acts : RefreshToken → Op → Prop} {db : Database} {q : TokenStage}
    (hallows : (presenting hash acts).allows q op) (h : Fresh hash db q) :
    Fresh hash (op.perform cfg outside db).2
      ((presenting hash acts).next q op (op.perform cfg outside db).1) := by
  rcases presenting_next cfg outside db hallows with
    ⟨stored, rfl, rfl, hanswer, hnext⟩ | ⟨a, new, exp, row, -, -, -, hnext⟩ | ⟨rfl, hnext⟩ | hnext | hnext
  · obtain ⟨hmem, hhash⟩ := (Op.perform_findRefreshToken cfg outside db hash).2 stored hanswer
    rw [hnext, Op.perform_reads hallows.1]
    exact ⟨h, h stored hmem hhash⟩
  · rw [hnext]
    trivial
  · rw [hnext, Op.perform_reads hallows.1]
    exact h
  · rw [hnext]
    trivial
  · rw [hnext]
    trivial

/-- The state after the tab's request `n` has made a statement. -/
def executing (cfg : Config) (s : System) (n : ℕ) (r : Request) (op : Op) (outside : Outside)
    (k : Except ServiceError op.Res → Service Response) : System :=
  { s with
    server := { s.server with
      db := (s.server.perform cfg outside op).2
      requests := s.server.requests.set n ⟨r, .answered op (s.server.perform cfg outside op).1 k⟩ }
    issued := s.issued ++ s.minted cfg (.execute n outside) }

/-- The stage that the statement leads to. -/
def nextStage (cfg : Config) (stage : ℕ → TokenStage) (s : System) (n : ℕ) (r : Request) (op : Op)
    (outside : Outside) : TokenStage :=
  (presenting (presented cfg r) (actsOf r)).next (stage n) op (s.server.perform cfg outside op).1

theorem nextStage_found (h : s.Tokens cfg stage) (hl : s.Linked cfg stage) (hid : (id, n) ∈ s.arrived)
    (hi : s.server.requests[n]? = some ⟨r, .awaiting op k⟩) {stored : RefreshToken}
    (hfound : nextStage cfg stage s n r op outside = .found stored) :
    FoundToken (presented cfg r) stored (s.server.perform cfg outside op).2 := by
  rcases presenting_next cfg { outside with now := s.server.clock } s.server.db
    (allows_awaiting hl hid hi) with
    ⟨row, -, rfl, hanswer, hnext⟩ | ⟨a, new, exp, row, -, -, -, hnext⟩ | ⟨-, hnext⟩ | hnext | hnext
  · cases hfound.symm.trans hnext
    exact (foundToken_of_find h.keyed h.ids hanswer).1.perform
  all_goals cases hfound.symm.trans hnext

theorem nextStage_minted (hl : s.Linked cfg stage) (hid : (id, n) ∈ s.arrived)
    (hi : s.server.requests[n]? = some ⟨r, .awaiting op k⟩) {hash : String}
    (hminted : nextStage cfg stage s n r op outside = .minted hash) :
    hash ∈ s.minted cfg (.execute n outside) ∧ (s.server.perform cfg outside op).2.Unspent hash := by
  rcases presenting_next cfg { outside with now := s.server.clock } s.server.db
    (allows_awaiting hl hid hi) with
    ⟨row, -, -, -, hnext⟩ | ⟨a, new, exp, row, -, rfl, hanswer, hnext⟩ | ⟨-, hnext⟩ | hnext | hnext
  · cases hminted.symm.trans hnext
  · cases hminted.symm.trans hnext
    have hcreated : (s.server.perform cfg outside (.createRefreshToken a hash exp)).1 = .ok row := hanswer
    refine ⟨?_, unspent_created hanswer⟩
    rw [minted, Server.executed_execute hi, hcreated]
    dsimp only
    rw [if_pos (owns_of_arrived hid)]
    exact List.mem_singleton_self _
  all_goals cases hminted.symm.trans hnext

/-- What the other fetches hold is as before; this one may have had a row made. -/
theorem holds_executing (hl : s.Linked cfg stage) (hid : (id, n) ∈ s.arrived) {id' : FetchId}
    {hash : String} (h : Holds cfg (Function.update stage n (nextStage cfg stage s n r op outside))
      (s.executing cfg n r op outside k) id' hash) :
    s.Holds cfg stage id' hash ∨ id' = id ∧ nextStage cfg stage s n r op outside = .minted hash := by
  have hstage {n' : ℕ} (hn' : (id', n') ∈ s.arrived)
      (hm : Function.update stage n (nextStage cfg stage s n r op outside) n' = .minted hash) :
      stage n' = .minted hash ∨ id' = id ∧ nextStage cfg stage s n r op outside = .minted hash := by
    by_cases hn : n' = n
    · subst hn
      rw [Function.update_self] at hm
      exact .inr ⟨hl.as _ _ _ hn' hid, hm⟩
    · rw [Function.update_of_ne hn] at hm
      exact .inl hm
  cases id' with
  | refresh j =>
    obtain ⟨hsent, n', hn', hm⟩ := h
    exact (hstage hn' hm).imp_left fun hold => ⟨hsent, n', hn', hold⟩
  | request i =>
    obtain ⟨hawaits, ⟨q, hq, hsent, n', hn', hm⟩ | hanswered⟩ := h
    · exact (hstage hn' hm).imp_left fun hold => ⟨hawaits, .inl ⟨q, hq, hsent, n', hn', hold⟩⟩
    · exact .inl ⟨hawaits, .inr hanswered⟩

theorem Tokens.executing (h : s.Tokens cfg stage) (hl : s.Linked cfg stage)
    (hid : (id, n) ∈ s.arrived) (hi : s.server.requests[n]? = some ⟨r, .awaiting op k⟩)
    (hfresh : ∀ hash ∈ s.minted cfg (.execute n outside), hash ∉ s.issued) :
    Tokens cfg (Function.update stage n (nextStage cfg stage s n r op outside))
      (s.executing cfg n r op outside k) where
  keyed := h.keyed.perform
  ids := h.ids.perform h.keyed
  found id' n' f stored hid' hf hstage := by
    rcases getElem?_put hf with ⟨rfl, rfl⟩ | ⟨hn, hf⟩
    · rw [Function.update_self] at hstage
      exact nextStage_found h hl hid hi hstage
    · rw [Function.update_of_ne hn] at hstage
      exact (h.found id' n' f stored hid' hf hstage).perform
  stored token htoken := by
    obtain ⟨hissued, huses | hunspent⟩ := h.stored token htoken
    · exact ⟨List.mem_append_left _ hissued, .inl huses⟩
    · refine ⟨List.mem_append_left _ hissued, ?_⟩
      rcases unspent_perform h hl hid hi hunspent with hkept | ⟨token', hhash, hr⟩
      · exact .inr hkept
      · exact .inl (hhash ▸ uses_presented hl (fetched_awaiting hl hid hi) hr)
  refreshing j token hj := by
    obtain ⟨hissued, hwaits, harrived⟩ := h.refreshing j token hj
    have hkeep (hne : id ≠ .refresh j) (hunspent : s.server.db.Unspent (cfg.hashToken token)) :
        (s.server.perform cfg outside op).2.Unspent (cfg.hashToken token) := by
      rcases unspent_perform h hl hid hi hunspent with hkept | ⟨token', hhash, hr⟩
      · exact hkept
      · exact absurd (presents_refreshing h hl hj (fetched_awaiting hl hid hi) hr hhash) hne
    refine ⟨List.mem_append_left _ hissued, fun hnone => ?_, fun n' hn' => ?_⟩
    · refine hkeep (fun heq => ?_) (hwaits hnone)
      subst heq
      exact hnone n hid
    · by_cases hn : n' = n
      · subst hn
        cases hl.as _ _ _ hid hn'
        rw [Function.update_self]
        have hfetched := fetched_awaiting hl hid hi
        cases hfetched.symm.trans (fetched_of_sent (s := s) hj)
        exact next_fresh (allows_awaiting hl hid hi) (harrived _ hn')
      · rw [Function.update_of_ne hn]
        refine (harrived n' hn').mono (hkeep fun heq => ?_)
        subst heq
        exact hn (hl.once _ _ _ hn' hid)
  loggingOut token hout := List.mem_append_left _ (h.loggingOut token hout)
  holds id' hash hheld := by
    rcases holds_executing hl hid hheld with hold | ⟨-, hminted⟩
    · obtain ⟨hissued, hunspent, huses, hother⟩ := h.holds id' hash hold
      refine ⟨List.mem_append_left _ hissued, ?_, huses, hother⟩
      rcases unspent_perform h hl hid hi hunspent with hkept | ⟨token, hhash, hr⟩
      · exact hkept
      · exact absurd (hhash ▸ uses_presented hl (fetched_awaiting hl hid hi) hr) huses
    · obtain ⟨hmem, hunspent⟩ := nextStage_minted hl hid hi hminted
      refine ⟨List.mem_append_right _ hmem, hunspent, fun huses => ?_, fun token htoken hhash => ?_⟩
      · exact hfresh hash hmem (uses_issued h huses)
      · exact hfresh hash hmem (hhash ▸ (h.stored token htoken).1)
  one id₁ id₂ hash h₁ h₂ := by
    rcases holds_executing hl hid h₁ with hold₁ | ⟨rfl, hminted⟩
    · rcases holds_executing hl hid h₂ with hold₂ | ⟨rfl, hminted⟩
      · exact h.one _ _ _ hold₁ hold₂
      · exact absurd (h.holds _ _ hold₁).1 (hfresh hash (nextStage_minted hl hid hi hminted).1)
    · rcases holds_executing hl hid h₂ with hold₂ | ⟨rfl, -⟩
      · exact absurd (h.holds _ _ hold₂).1 (hfresh hash (nextStage_minted hl hid hi hminted).1)
      · rfl
  apart := h.apart

theorem Linked.executing (h : s.Linked cfg stage) (hid : (id, n) ∈ s.arrived)
    (hi : s.server.requests[n]? = some ⟨r, .awaiting op k⟩) {server : Server}
    (hs : s.server.step cfg (.execute n outside) = some server) :
    server = (s.executing cfg n r op outside k).server ∧
    Linked cfg (Function.update stage n (nextStage cfg stage s n r op outside))
      (s.executing cfg n r op outside k) := by
  obtain ⟨r', op', k', hi', rfl⟩ := Server.step_execute hs
  cases hi.symm.trans hi'
  refine ⟨rfl, h.serverStep hs fun id' n' f hid' hf => ?_⟩
  rcases getElem?_put hf with ⟨rfl, rfl⟩ | ⟨hn, hf⟩
  · rw [Function.update_self]
    exact (h.threads id n' _ hid hi).execute _
  · rw [Function.update_of_ne hn]
    exact h.threads id' n' f hid' hf

/-! ### The server takes a fetch -/

def startStage : Request → TokenStage
  | .login _ _ => .spent
  | _ => .before

theorem startStage_cases (r : Request) : startStage r = .before ∨ startStage r = .spent := by
  cases r with
  | login dto tenantId => exact .inr rfl
  | _ => exact .inl rfl

theorem code_presenting (h : s.fetched id = some r) :
    (r.code cfg).Keeps (presenting (presented cfg r) (actsOf r)) (Delivers cfg) (startStage r) := by
  cases id with
  | refresh j =>
    obtain ⟨token, -, rfl⟩ := fetched_refresh h
    exact refresh_presenting token
  | request i =>
    obtain ⟨q, -, -, hserver⟩ := fetched_request h
    unfold ApiRequest.serverRequest at hserver
    split at hserver
    · split at hserver
      · cases hserver
        exact login_presenting _ _
      · cases hserver
    · split at hserver
      · split at hserver
        · cases hserver
          exact logout_presenting _ _
        · cases hserver
      · cases hserver

/-- The state after the server has taken fetch `id`. -/
def arriving (cfg : Config) (s : System) (id : FetchId) (r : Request) (c : Context) : System :=
  { s with
    server := { s.server with
      requests := s.server.requests ++ [⟨r, (r.code cfg).advance { c with now := s.server.clock }⟩] }
    arrived := s.arrived ++ [(id, s.server.requests.length)] }

theorem mem_arriving {c : Context} {id' : FetchId} {n' : ℕ}
    (h : (id', n') ∈ (s.arriving cfg id r c).arrived) :
    (id', n') ∈ s.arrived ∨ id' = id ∧ n' = s.server.requests.length := by
  rcases List.mem_append.mp h with hold | hnew
  · exact .inl hold
  · cases List.mem_singleton.mp hnew
    exact .inr ⟨rfl, rfl⟩

theorem Linked.arriving {c : Context} (h : s.Linked cfg stage) (hnot : ∀ n, (id, n) ∉ s.arrived)
    (hid : s.fetched id = some r) :
    Linked cfg (Function.update stage s.server.requests.length (startStage r))
      (s.arriving cfg id r c) where
  wired := h.wired
  paired := h.paired
  served := h.served
  once id' n₁ n₂ h₁ h₂ := by
    rcases mem_arriving h₁ with hold₁ | ⟨rfl, rfl⟩
    · rcases mem_arriving h₂ with hold₂ | ⟨rfl, -⟩
      · exact h.once id' n₁ n₂ hold₁ hold₂
      · exact absurd hold₁ (hnot n₁)
    · rcases mem_arriving h₂ with hold₂ | ⟨-, rfl⟩
      · exact absurd hold₂ (hnot n₂)
      · rfl
  as id₁ id₂ n' h₁ h₂ := by
    rcases mem_arriving h₁ with hold₁ | ⟨rfl, rfl⟩
    · rcases mem_arriving h₂ with hold₂ | ⟨-, rfl⟩
      · exact h.as id₁ id₂ n' hold₁ hold₂
      · exact absurd (h.taken _ _ hold₁) (lt_irrefl _)
    · rcases mem_arriving h₂ with hold₂ | ⟨rfl, -⟩
      · exact absurd (h.taken _ _ hold₂) (lt_irrefl _)
      · rfl
  taken id' n' hid' := by
    have hlength : (s.arriving cfg id r c).server.requests.length = s.server.requests.length + 1 :=
      List.length_append
    rw [hlength]
    rcases mem_arriving hid' with hold | ⟨-, rfl⟩
    · exact (h.taken _ _ hold).trans (Nat.lt_succ_self _)
    · exact Nat.lt_succ_self _
  known id' n' hid' := by
    rcases mem_arriving hid' with hold | ⟨rfl, -⟩
    · exact h.known _ _ hold
    · cases id' with
      | refresh j =>
        obtain ⟨token, hj, -⟩ := fetched_refresh hid
        exact getElem?_lt hj
      | request i =>
        obtain ⟨q, hq, -⟩ := fetched_request hid
        exact getElem?_lt hq
  paths i n' q hid' hq := by
    rcases mem_arriving hid' with hold | ⟨rfl, -⟩
    · exact h.paths i n' q hold hq
    · obtain ⟨q', hq', -, hserver⟩ := fetched_request hid
      cases hq.symm.trans hq'
      exact (serverRequest_path hserver).1
  out id' n' f hid' hf hlive := by
    rcases mem_arriving hid' with hold | ⟨rfl, rfl⟩
    · rcases getElem?_add hf with hf | ⟨rfl, -⟩
      · exact h.out id' n' f hold hf hlive
      · exact absurd (h.taken _ _ hold) (lt_irrefl _)
    · cases List.getElem?_concat_length.symm.trans hf
      exact hid
  same id' n' f q hid' hf hq := by
    rcases mem_arriving hid' with hold | ⟨rfl, rfl⟩
    · rcases getElem?_add hf with hf | ⟨rfl, -⟩
      · exact h.same id' n' f q hold hf hq
      · exact absurd (h.taken _ _ hold) (lt_irrefl _)
    · cases List.getElem?_concat_length.symm.trans hf
      exact Option.some.inj (hid.symm.trans hq)
  threads id' n' f hid' hf := by
    rcases mem_arriving hid' with hold | ⟨-, rfl⟩
    · have hlt := h.taken _ _ hold
      rw [Function.update_of_ne hlt.ne]
      rcases getElem?_add hf with hf | ⟨rfl, -⟩
      · exact h.threads id' n' f hold hf
      · exact absurd hlt (lt_irrefl _)
    · cases List.getElem?_concat_length.symm.trans hf
      rw [Function.update_self]
      exact Thread.KeepsTo.advance (code_presenting hid) _ fun _ => rfl

theorem holds_arriving {c : Context} (hl : s.Linked cfg stage) {id' : FetchId} {hash : String}
    (h : Holds cfg (Function.update stage s.server.requests.length (startStage r))
      (s.arriving cfg id r c) id' hash) : s.Holds cfg stage id' hash := by
  have hstage {n' : ℕ} (hn' : (id', n') ∈ (s.arriving cfg id r c).arrived)
      (hm : Function.update stage s.server.requests.length (startStage r) n' = .minted hash) :
      (id', n') ∈ s.arrived ∧ stage n' = .minted hash := by
    rcases mem_arriving hn' with hold | ⟨-, rfl⟩
    · rw [Function.update_of_ne (hl.taken _ _ hold).ne] at hm
      exact ⟨hold, hm⟩
    · rw [Function.update_self] at hm
      rcases startStage_cases r with h | h <;> cases h.symm.trans hm
  cases id' with
  | refresh j =>
    obtain ⟨hsent, n', hn', hm⟩ := h
    exact ⟨hsent, n', hstage hn' hm⟩
  | request i =>
    obtain ⟨hawaits, ⟨q, hq, hsent, n', hn', hm⟩ | hanswered⟩ := h
    · exact ⟨hawaits, .inl ⟨q, hq, hsent, n', hstage hn' hm⟩⟩
    · exact ⟨hawaits, .inr hanswered⟩

theorem Tokens.arriving {c : Context} (h : s.Tokens cfg stage) (hl : s.Linked cfg stage)
    (hnot : ∀ n, (id, n) ∉ s.arrived) (hid : s.fetched id = some r) :
    Tokens cfg (Function.update stage s.server.requests.length (startStage r))
      (s.arriving cfg id r c) where
  keyed := h.keyed
  ids := h.ids
  found id' n' f stored hid' hf hstage := by
    rcases mem_arriving hid' with hold | ⟨-, rfl⟩
    · have hlt := hl.taken _ _ hold
      rw [Function.update_of_ne hlt.ne] at hstage
      rcases getElem?_add hf with hf | ⟨rfl, -⟩
      · exact h.found id' n' f stored hold hf hstage
      · exact absurd hlt (lt_irrefl _)
    · rw [Function.update_self] at hstage
      rcases startStage_cases r with h | h <;> cases h.symm.trans hstage
  stored := h.stored
  refreshing j token hj := by
    obtain ⟨hissued, hwaits, harrived⟩ := h.refreshing j token hj
    refine ⟨hissued, fun hnone => hwaits fun n hn => hnone n (List.mem_append_left _ hn), ?_⟩
    intro n' hn'
    rcases mem_arriving hn' with hold | ⟨rfl, rfl⟩
    · rw [Function.update_of_ne (hl.taken _ _ hold).ne]
      exact harrived n' hold
    · rw [Function.update_self]
      cases hid.symm.trans (fetched_of_sent (s := s) hj)
      exact hwaits hnot
  loggingOut := h.loggingOut
  holds id' hash hheld := h.holds id' hash (holds_arriving hl hheld)
  one id₁ id₂ hash h₁ h₂ := h.one id₁ id₂ hash (holds_arriving hl h₁) (holds_arriving hl h₂)
  apart := h.apart

end

/-! ### Every step -/

section
variable {id : FetchId} {env : Storage}

theorem not_arrived (h : s.hasArrived id = false) (n : ℕ) : (id, n) ∉ s.arrived := by
  intro hmem
  have harrived : s.hasArrived id = true := List.any_eq_true.mpr ⟨_, hmem, by simp⟩
  rw [h] at harrived
  cases harrived

theorem receive_eq_some {e : Event AccessJwt RefreshJwt AuthenticatedUser}
    (h : s.receive env e = some s') :
    ∃ tab, s.tab.step (env, e) = some tab ∧ s' = { s with tab := tab } := by
  obtain ⟨tab, htab, hs⟩ := Option.map_eq_some_iff.mp h
  exact ⟨tab, htab, hs.symm⟩

theorem refreshReply_failed {k : ℕ} {reply : Except String (Reply (AuthTokens AccessJwt RefreshJwt))}
    (h : ∀ tokens, reply ≠ .ok ⟨200, some (.success tokens)⟩) :
    s.tab.refreshReply env k reply = s.tab.putRefresh k (.settled none) := by
  unfold Tab.refreshReply
  split
  · rename_i tokens
    exact absurd rfl (h tokens)
  · rfl

theorem errorReply_fails {D : Type} (e : ServiceError) (status : ℕ) (data : D) :
    errorReply e ≠ .ok ⟨status, some (.success data)⟩ := by
  cases e with
  | http e => exact fun h => (by cases h)
  | database code => exact fun h => (by cases h)

theorem refusal_fails {D : Type} (refusal : Refusal) (status : ℕ) (data : D) :
    refusal.reply ≠ .ok ⟨status, some (.success data)⟩ := by
  cases refusal with
  | lost message => exact fun h => (by cases h)
  | refused status error => exact fun h => (by cases h)

/-- The invariant, with some stage for each request. -/
def Sound (cfg : Config) (s : System) : Prop := ∃ stage, s.Linked cfg stage ∧ s.Tokens cfg stage

theorem Sound.tabStep {e : Event AccessJwt RefreshJwt AuthenticatedUser} (h : s.Sound cfg)
    (hok : s.Undisturbed cfg (.tab env e)) (hs : s.step cfg (.tab env e) = some s') : s'.Sound cfg := by
  obtain ⟨stage, hl, ht⟩ := h
  have hapart := hok.apart s' hs
  simp only [step] at hs
  split at hs
  · rename_i hallows
    obtain ⟨tab, htab, rfl⟩ := receive_eq_some hs
    have hwrites (j i : ℕ) (he : e = .resumeFlow j) : s.tab.Requesting j .logout i → env.writable = true :=
      hok.logouts env j i (by rw [he])
    have hmoves := Tab.step_tokenStep hl.wired hallows hwrites htab
    exact ⟨stage, hl.goesOn hmoves (hl.wired.step htab), ht.goesOn hl hmoves hapart⟩
  · cases hs

theorem Sound.refreshReply {k : ℕ} {reply : Except String (Reply (AuthTokens AccessJwt RefreshJwt))}
    {stage : ℕ → TokenStage} (hl : s.Linked cfg stage) (ht : s.Tokens cfg stage)
    (hs : s.receive env (.refreshReply k reply) = some s')
    (hdone : ∀ n f, (FetchId.refresh k, n) ∈ s.arrived → s.server.requests[n]? = some f →
      ∃ r, f.thread = .finished r)
    (hfails : (∀ tokens, reply ≠ .ok ⟨200, some (.success tokens)⟩) → ∀ token : RefreshJwt,
      s.tab.refreshes[k]? = some (.sent token) → s.server.db.Unspent (cfg.hashToken token))
    (hbrings : ∀ tokens, reply = .ok ⟨200, some (.success tokens)⟩ → env.writable = true ∧
      ∃ n, (FetchId.refresh k, n) ∈ s.arrived ∧ stage n = .minted (cfg.hashToken tokens.refreshToken)) :
    s'.Sound cfg := by
  obtain ⟨tab, htab, rfl⟩ := receive_eq_some hs
  have hwired := hl.wired.step htab
  obtain ⟨token, hk, rfl⟩ := Tab.step_refreshReply htab
  by_cases hsuccess : ∃ tokens, reply = .ok ⟨200, some (.success tokens)⟩
  · obtain ⟨tokens, rfl⟩ := hsuccess
    obtain ⟨hwritable, hbrought⟩ := hbrings tokens rfl
    have hover : s.RefreshOver (s.tab.refreshReply env k (.ok ⟨200, some (.success tokens)⟩)) k :=
      ⟨rfl, rfl, _, rfl⟩
    exact ⟨stage, hl.refreshOver hover hwired hdone,
      ht.refreshOver hover hk (.inr ⟨_, if_pos hwritable, ⟨token, hk⟩, hbrought⟩)⟩
  · have hfailed : ∀ tokens, reply ≠ .ok ⟨200, some (.success tokens)⟩ :=
      fun tokens heq => hsuccess ⟨tokens, heq⟩
    rw [refreshReply_failed hfailed] at hwired ⊢
    have hover : s.RefreshOver (s.tab.putRefresh k (.settled none)) k := ⟨rfl, rfl, _, rfl⟩
    exact ⟨stage, hl.refreshOver hover hwired hdone,
      ht.refreshOver hover hk (.inl ⟨rfl, hfails hfailed token hk⟩)⟩

theorem noRefresh_of_token {path : String} (h : path ∈ Tab.TOKEN_PATHS) : path ∈ NO_REFRESH_PATHS := by
  rcases List.mem_cons.mp h with rfl | h
  · decide
  · cases List.mem_singleton.mp h
    decide

theorem Sound.requestReply {i : ℕ} {r : ApiRequest AccessJwt RefreshJwt AuthenticatedUser}
    {reply : Except String (Reply (Data AccessJwt RefreshJwt AuthenticatedUser))}
    {stage : ℕ → TokenStage} (hl : s.Linked cfg stage) (ht : s.Tokens cfg stage)
    (hs : s.receive env (.reply i reply) = some s') (hr : s.tab.requests[i]? = some r)
    (hpath : r.call.path ∈ Tab.TOKEN_PATHS)
    (hdone : ∀ n f, (FetchId.request i, n) ∈ s.arrived → s.server.requests[n]? = some f →
      ∃ a, f.thread = .finished a)
    (hbrings : ∀ status tokens, reply = .ok ⟨status, some (.success (.tokens tokens))⟩ →
      ∃ n, (FetchId.request i, n) ∈ s.arrived ∧ stage n = .minted (cfg.hashToken tokens.refreshToken)) :
    s'.Sound cfg := by
  obtain ⟨tab, htab, rfl⟩ := receive_eq_some hs
  have hwired := hl.wired.step htab
  have hnoRefresh := noRefresh_of_token hpath
  obtain ⟨r', hr', -, ⟨hsent, rfl⟩ | ⟨hresent, rfl⟩⟩ := Tab.step_reply htab
  · cases hr.symm.trans hr'
    obtain ⟨answered, hsettled, hput, hbrought⟩ := firstReply_settles (s := s.tab) (i := i)
      reply hnoRefresh
    rw [hput] at hwired ⊢
    refine ⟨stage, hl.requestOver hr hsettled hwired hdone, ht.requestOver hr hsettled ?_⟩
    intro tokens htokens hawaits
    obtain ⟨status, hreply⟩ := hbrought _ htokens
    exact ⟨hawaits, .inl ⟨r, hr, hsent, hbrings status tokens hreply⟩⟩
  · cases hr.symm.trans hr'
    have hsound := hl.wired.requests i r hr
    rw [ApiRequest.Sound, hresent] at hsound
    exact absurd hnoRefresh hsound.2

theorem Sound.arrive {c : Context} (h : s.Sound cfg) (hs : s.step cfg (.arrive id c) = some s') :
    s'.Sound cfg := by
  obtain ⟨stage, hl, ht⟩ := h
  simp only [step] at hs
  split at hs
  · cases hs
  · rename_i harrived
    obtain ⟨r, hr, hs⟩ := Option.bind_eq_some_iff.mp hs
    obtain ⟨server, hserver, rfl⟩ := Option.map_eq_some_iff.mp hs
    obtain ⟨-, rfl⟩ := Server.step_arrive hserver
    have hnot := not_arrived (Bool.not_eq_true _ ▸ harrived)
    exact ⟨_, hl.arriving hnot hr, ht.arriving hl hnot hr⟩

theorem Sound.serverStep {e : ServerEvent} (h : s.Sound cfg) (hok : s.Undisturbed cfg (.server e))
    (hs : s.step cfg (.server e) = some s') : s'.Sound cfg := by
  obtain ⟨stage, hl, ht⟩ := h
  have hstep := hs
  obtain ⟨server, hserver, rfl⟩ := Option.map_eq_some_iff.mp hs
  by_cases hothers : ∀ i outside, e = .execute i outside → s.owns i = false
  · rw [minted_nil hothers, List.append_nil]
    have hkeep : ∀ hash ∈ s.issued, s.server.db.Unspent hash → server.db.Unspent hash := by
      intro hash hissued hunspent
      cases e with
      | execute i outside =>
        exact hok.others i outside _ rfl (hothers i outside rfl) hstep hash hissued hunspent
      | arrive r c =>
        obtain ⟨-, rfl⟩ := Server.step_arrive hserver
        exact hunspent
      | deliver i c =>
        obtain ⟨_, _, _, _, -, rfl⟩ := Server.step_deliver hserver
        exact hunspent
      | tick d =>
        cases Server.step_tick hserver
        exact hunspent
    refine ⟨stage, hl.serverStep hserver fun id n f hid hf => ?_, ht.others hl hserver hkeep⟩
    exact threads_kept hl hserver hothers hid hf
  · push Not at hothers
    obtain ⟨n, outside, rfl, howns⟩ := hothers
    obtain ⟨⟨id, n'⟩, hid, heq⟩ := List.any_eq_true.mp (Bool.of_not_eq_false howns)
    cases of_decide_eq_true heq
    obtain ⟨r, op, k, hi, -⟩ := Server.step_execute hserver
    obtain ⟨rfl, hlinked⟩ := hl.executing hid hi hserver
    exact ⟨_, hlinked, ht.executing hl hid hi (hok.fresh _ rfl)⟩

theorem mem_of_lookup {n : ℕ} (h : s.arrived.lookup id = some n) : (id, n) ∈ s.arrived := by
  obtain ⟨l₁, l₂, hl, -⟩ := List.lookup_eq_some_iff.mp h
  rw [hl]
  exact List.mem_append_right _ List.mem_cons_self

theorem delivers {stage : ℕ → TokenStage} (hl : s.Linked cfg stage) {n : ℕ} {r : Request}
    {tokens : Accounts.AuthTokens} (hid : (id, n) ∈ s.arrived)
    (hn : s.server.requests[n]? = some ⟨r, .finished (.ok (.tokens tokens))⟩) :
    stage n = .minted (cfg.hashToken tokens.refreshToken) :=
  hl.threads id n _ hid hn tokens rfl

theorem finished_eq_some {a : Except ServiceError Response} (h : s.finished id = some a) :
    ∃ n r, (id, n) ∈ s.arrived ∧ s.server.requests[n]? = some ⟨r, .finished a⟩ := by
  obtain ⟨n, hlookup, h⟩ := Option.bind_eq_some_iff.mp h
  split at h
  · rename_i r a' hn
    cases h
    exact ⟨n, r, mem_of_lookup hlookup, hn⟩
  · cases h

theorem Linked.done (h : s.Linked cfg stage) {a : Except ServiceError Response}
    (hfinished : s.finished id = some a) (n : ℕ) (f : InFlight) (hn : (id, n) ∈ s.arrived)
    (hf : s.server.requests[n]? = some f) : ∃ a, f.thread = .finished a := by
  obtain ⟨n', r, hid, hn'⟩ := finished_eq_some hfinished
  cases h.once _ _ _ hn hid
  cases hn'.symm.trans hf
  exact ⟨a, rfl⟩

theorem Linked.finished_request (h : s.Linked cfg stage) {i : ℕ} {a : Except ServiceError Response}
    (hfinished : s.finished (.request i) = some a) :
    ∃ r, s.tab.requests[i]? = some r ∧ r.call.path ∈ Tab.TOKEN_PATHS := by
  obtain ⟨n, _, hid, -⟩ := finished_eq_some hfinished
  have hr := List.getElem?_eq_getElem (h.known _ n hid)
  exact ⟨_, hr, h.paths i n _ hid hr⟩

theorem Sound.answer (h : s.Sound cfg) (hok : s.Undisturbed cfg (.answer env id))
    (hs : s.step cfg (.answer env id) = some s') : s'.Sound cfg := by
  obtain ⟨stage, hl, ht⟩ := h
  obtain ⟨a, hfinished, hs⟩ := Option.bind_eq_some_iff.mp hs
  obtain ⟨n, q, hid, hn⟩ := finished_eq_some hfinished
  cases id with
  | refresh k =>
    obtain ⟨reply, hreply, hs⟩ := Option.bind_eq_some_iff.mp hs
    refine Sound.refreshReply hl ht hs (hl.done hfinished) (fun hfailed token hk => ?_)
      fun tokens hsuccess => ?_
    · cases a with
      | error e => exact hok.failures env k token e rfl hk hfinished
      | ok answer =>
        cases answer with
        | tokens tokens =>
          cases hreply
          exact absurd rfl (hfailed ⟨tokens.accessToken, tokens.refreshToken⟩)
        | _ => cases hreply
    · subst hsuccess
      cases a with
      | error e => exact absurd (Option.some.inj hreply) (errorReply_fails e 200 tokens)
      | ok answer =>
        cases answer with
        | tokens tokens =>
          cases hreply
          exact ⟨hok.rotations env k tokens rfl hfinished, n, hid, delivers hl hid hn⟩
        | _ => cases hreply
  | request i =>
    obtain ⟨r, hr, hpath⟩ := hl.finished_request hfinished
    refine Sound.requestReply hl ht hs hr hpath (hl.done hfinished) fun status tokens hreply => ?_
    refine ⟨n, hid, ?_⟩
    cases a with
    | error e => exact absurd hreply (errorReply_fails e status _)
    | ok answer =>
      cases answer with
      | tokens tokens =>
        cases hreply
        exact delivers hl hid hn
      | _ => cases hreply

/-- The tab takes a lost answer for a failed fetch. -/
theorem Sound.lose {message : String} (h : s.Sound cfg) (hok : s.Undisturbed cfg (.lose env id message))
    (hs : s.step cfg (.lose env id message) = some s') : s'.Sound cfg := by
  obtain ⟨stage, hl, ht⟩ := h
  obtain ⟨a, hfinished, hs⟩ := Option.bind_eq_some_iff.mp hs
  cases id with
  | refresh k =>
    exact Sound.refreshReply hl ht hs (hl.done hfinished)
      (fun _ token hk => hok.losses env k message token rfl hk) fun _ hreply => nomatch hreply
  | request i =>
    obtain ⟨r, hr, hpath⟩ := hl.finished_request hfinished
    exact Sound.requestReply hl ht hs hr hpath (hl.done hfinished) fun _ _ hreply => nomatch hreply

theorem Sound.refuse {refusal : Refusal} (h : s.Sound cfg)
    (hs : s.step cfg (.refuse env id refusal) = some s') : s'.Sound cfg := by
  obtain ⟨stage, hl, ht⟩ := h
  simp only [step] at hs
  split at hs
  · cases hs
  · rename_i harrived
    have hnot := not_arrived (Bool.not_eq_true _ ▸ harrived)
    cases id with
    | refresh k =>
      refine Sound.refreshReply hl ht hs (fun n f hn => absurd hn (hnot n)) (fun _ token hk => ?_)
        fun tokens hreply => absurd hreply (refusal_fails refusal 200 tokens)
      exact (ht.refreshing k token hk).2.1 hnot
    | request i =>
      dsimp only at hs
      split at hs
      · rename_i hpath
        obtain ⟨r, hr, hpath⟩ := (Option.any_eq_true _ _).mp hpath
        exact Sound.requestReply hl ht hs hr (of_decide_eq_true hpath)
          (fun n f hn => absurd hn (hnot n)) fun status tokens hreply =>
            absurd hreply (refusal_fails refusal status _)
      · cases hs

theorem Sound.step {e : SystemEvent} (h : s.Sound cfg) (hok : s.Undisturbed cfg e)
    (hs : s.step cfg e = some s') : s'.Sound cfg := by
  cases e with
  | tab env e => exact h.tabStep hok hs
  | arrive id c => exact h.arrive hs
  | server e => exact h.serverStep hok hs
  | answer env id => exact h.answer hok hs
  | lose env id message => exact h.lose hok hs
  | refuse env id refusal => exact h.refuse hs

theorem Sound.start {stored : Option RefreshJwt} {server : Server} (hkeyed : server.db.Keyed)
    (hids : server.db.TokenIds)
    (hlive : ∀ token, stored = some token → server.db.Unspent (cfg.hashToken token)) :
    (System.start cfg stored server).Sound cfg := by
  have hnone (hash : String) (id : FetchId) :
      ¬ (System.start cfg stored server).Holds cfg (fun _ => .before) id hash := by
    cases id with
    | refresh k =>
      rintro ⟨⟨token, hk⟩, -⟩
      cases hk
    | request i =>
      rintro ⟨⟨j, f, hf, -⟩, -⟩
      cases hf
  refine ⟨fun _ => .before, ⟨Tab.wired_fresh stored, ?_, ?_, ?_, ?_, ?_, ?_, ?_, ?_, ?_, ?_⟩,
    ⟨hkeyed, hids, ?_, ?_, ?_, ?_, ?_, ?_, ?_⟩⟩
  · rintro j j' kind kind' i ⟨f, hf, -⟩
    cases hf
  · intro i r hr
    cases hr
  · intro id n n' hn
    cases hn
  · intro id id' n hn
    cases hn
  · intro id n hn
    cases hn
  · intro id n hn
    cases hn
  · intro i n r hn
    cases hn
  · intro id n f hn
    cases hn
  · intro id n f r hn
    cases hn
  · intro id n f hn
    cases hn
  · intro id n f row hn
    cases hn
  · intro token htoken
    have hstored : stored = some token := htoken
    subst hstored
    exact ⟨List.mem_singleton_self _, .inr (hlive token rfl)⟩
  · intro k token hk
    cases hk
  · rintro token ⟨j, i, r, ⟨f, hf, -⟩, -⟩
    cases hf
  · intro id hash hheld
    exact absurd hheld (hnone hash id)
  · intro id id' hash hheld
    exact absurd hheld (hnone hash id)
  · rintro token token' ⟨k, hk⟩
    cases hk

/-- As long as nothing disturbs it, no refresh of the tab is taken for the sign of a theft, and
the token that it keeps is good whenever no refresh and no logout is at it. -/
theorem never_taken_for_theft (cfg : Config) {stored : Option RefreshJwt} {server : Server}
    (hkeyed : server.db.Keyed) (hids : server.db.TokenIds)
    (hlive : ∀ token, stored = some token → server.db.Unspent (cfg.hashToken token))
    (hrun : Reach (step cfg) (Undisturbed cfg) (start cfg stored server) s) :
    (∀ (k n : ℕ) (r : Request) (op : Op) (next : Except ServiceError op.Res → Service Response),
      (FetchId.refresh k, n) ∈ s.arrived → s.server.requests[n]? = some ⟨r, .awaiting op next⟩ →
        ∀ a now, op ≠ .revokeFamily a now) ∧
    ∀ token, s.tab.stored = some token → s.Uses cfg (cfg.hashToken token) ∨
      s.server.db.Unspent (cfg.hashToken token) := by
  obtain ⟨stage, hl, ht⟩ := hrun.invariant (I := Sound cfg) (.start hkeyed hids hlive)
    fun _ _ _ _ h hok hs => h.step hok hs
  refine ⟨fun k n r op next hid hi a now hop => ?_, fun token htoken => (ht.stored token htoken).2⟩
  subst hop
  have hallows := allows_awaiting hl hid hi
  cases hstage : stage n with
  | before =>
    rw [hstage] at hallows
    cases hallows.1
  | found row =>
    rw [hstage] at hallows
    rcases acts_rotate ht hl hid hi hstage hallows with ⟨_, h⟩ | ⟨_, h⟩ <;> cases h
  | spent =>
    rw [hstage] at hallows
    rcases hallows with h | ⟨_, _, _, h⟩ <;> cases h
  | minted hash =>
    rw [hstage] at hallows
    exact hallows.elim
  | ended =>
    rw [hstage] at hallows
    exact hallows.elim

end

/-- Only the tab's requests make statements, none of them has failed, their tokens are new, the
answers to refreshes arrive and are stored, and nobody logs out. -/
def quiet (cfg : Config) (s : System) (e : SystemEvent) : Bool :=
  (match e with
    | .server e => (s.minted cfg e).all (· ∉ s.issued) && match e with
      | .execute n _ => s.owns n
      | _ => true
    | .answer env (.refresh _) => env.writable
    | .lose _ (.refresh _) _ => false
    | _ => true) &&
  s.server.requests.all (fun f => match f.thread with
    | .finished (.error _) => false
    | _ => true) &&
  s.tab.flows.all (·.kind ≠ .logout) && (s.step cfg e).all fun s' => s'.tab.flows.all (·.kind ≠ .logout)

theorem not_loggingOut {tab : BrowserTab} (h : tab.flows.all (·.kind ≠ .logout) = true) {j i : ℕ} :
    ¬ tab.Requesting j .logout i := by
  rintro ⟨f, hf, hkind, -⟩
  have hlogout := List.all_eq_true.mp h f (List.mem_of_getElem? hf)
  exact absurd hkind (of_decide_eq_true hlogout)

theorem quiet.undisturbed {e : SystemEvent} (h : quiet cfg s e = true) : s.Undisturbed cfg e := by
  simp only [quiet, Bool.and_eq_true] at h
  obtain ⟨⟨⟨hevent, hanswers⟩, hflows⟩, hflows'⟩ := h
  refine ⟨?_, ?_, ?_, ?_, ?_, ?_, ?_⟩
  · rintro n outside s' rfl howns
    simp only [Bool.and_eq_true] at hevent
    cases howns.symm.trans hevent.2
  · rintro e' rfl hash hmem
    simp only [Bool.and_eq_true] at hevent
    exact of_decide_eq_true (List.all_eq_true.mp hevent.1 hash hmem)
  · intro env k token error _ _ hfinished
    obtain ⟨n, r, -, hn⟩ := finished_eq_some hfinished
    have hanswer := List.all_eq_true.mp hanswers _ (List.mem_of_getElem? hn)
    cases hanswer
  · rintro env k message token rfl
    cases hevent
  · rintro env k tokens rfl -
    exact hevent
  · rintro env j i - hout
    exact absurd hout (not_loggingOut hflows)
  · rintro s' hs token token' - ⟨j, i, r, hout, -⟩
    rw [hs] at hflows'
    exact absurd hout (not_loggingOut hflows')

/-- Bob logs in: the answer is lost, and he logs in again. He is told that he is not authorised
while the store cannot be written, and his page refreshes the tokens. -/
def bobReturns : List SystemEvent :=
  let login : SystemEvent := .tab {} (.login "bob@acme.io" "Bob-Secret-12" (some "acme"))
  let refused := .ok ⟨401, some (.failure ⟨"UNAUTHORIZED", "", none⟩)⟩
  [login, .arrive (.request 0) (acmeContext "")] ++ (acmeCalls 0 4).map .server ++
  [.lose {} (.request 0) "Failed to fetch", .tab {} (.resumeFlow 0)] ++
  [login, .arrive (.request 1) (acmeContext "")] ++ (acmeCalls 1 4 "again").map .server ++
  [.answer {} (.request 1), .tab {} (.resumeFlow 1), .tab ⟨true, false⟩ (.reply 2 refused),
    .arrive (.refresh 0) (acmeContext "")] ++ (acmeCalls 2 6 "next").map .server ++
  [.answer {} (.refresh 0)]

theorem never_taken_for_theft_bob : ∃ s : System,
    Reach (step plainConfig) (Undisturbed plainConfig) (System.start plainConfig none acme) s ∧
    s.arrived = [(.request 0, 0), (.request 1, 1), (.refresh 0, 2)] ∧ s.issued = ["", "again", "next"] ∧
    ∀ token, s.tab.stored = some token → s.Uses plainConfig (plainConfig.hashToken token) ∨
      s.server.db.Unspent (plainConfig.hashToken token) := by
  have hrun : (runChecked (step plainConfig) (quiet plainConfig) (System.start plainConfig none acme)
      bobReturns).any (fun s => s.arrived = [(.request 0, 0), (.request 1, 1), (.refresh 0, 2)] &&
        s.issued = ["", "again", "next"]) = true := by
    decide +kernel
  obtain ⟨s, hs, h⟩ := (Option.any_eq_true _ _).mp hrun
  obtain ⟨harrived, hissued⟩ := Bool.and_eq_true_iff.mp h
  have hreach := Reach.of_runChecked (fun _ _ => quiet.undisturbed) hs
  have hids : acme.db.TokenIds := fun token h => nomatch h
  exact ⟨s, hreach, of_decide_eq_true harrived, of_decide_eq_true hissued,
    (never_taken_for_theft plainConfig acme_keyed hids (fun _ h => (by cases h)) hreach).2⟩

end
end System
end Flexi.Client.Session
