import Flexi.Library.Reach
import Flexi.Tenants.SetupLinkRows

/-!
# Runs of the setup-link requests

How many tokens of a tenant are live at once, and which can still be redeemed. A generate
that commits while a token has been committed since its own revocation began leaves both.
-/

namespace Flexi.Tenants.SetupLink
open Flexi.Library

/-! ### Steps -/

section
variable {cfg : Config} {s s' : State} {i : ℕ}

theorem step_start (h : step cfg s (.start i) = some s') : ∃ r op k seen overtaken,
    s.requests[i]? = some ⟨r, .awaiting op k, seen, overtaken⟩ ∧ s' = { s with
      requests := s.requests.set i ⟨r, .awaiting op k, some (op.snapshot i s.cells),
        if op.revokes then [] else overtaken⟩ } := by
  rw [step] at h
  split at h
  · rename_i r op k seen overtaken hi
    exact ⟨r, op, k, seen, overtaken, hi, (Option.some.inj h).symm⟩
  · cases h

theorem step_execute {outside : Outside} (h : step cfg s (.execute i outside) = some s') :
    ∃ r op k seen overtaken, s.requests[i]? = some ⟨r, .awaiting op k, some seen, overtaken⟩ ∧
      s.cells.blocked i seen = false ∧ s' = { s with
        cells := (op.perform i seen outside s.cells).2
        requests := overtake (op.committedRows i (op.perform i seen outside s.cells).1 s.cells)
          (s.requests.set i
            ⟨r, .answered op (op.perform i seen outside s.cells).1 k, none, overtaken⟩) } := by
  rw [step] at h
  split at h
  · rename_i r op k seen overtaken hi
    split at h
    · cases h
    · rename_i hfree
      exact ⟨r, op, k, seen, overtaken, hi, by simpa using hfree, (Option.some.inj h).symm⟩
  · cases h

theorem step_deliver {c : Context} (h : step cfg s (.deliver i c) = some s') :
    ∃ r op answer k seen overtaken,
      s.requests[i]? = some ⟨r, .answered op answer k, seen, overtaken⟩ ∧ s' = { s with
        requests := s.requests.set i
          ⟨r, (k answer).advance { c with now := s.clock }, seen, overtaken⟩
        cells := if isError ((k answer).advance { c with now := s.clock }) then s.cells.rollback i
          else s.cells } := by
  rw [step] at h
  split at h
  · rename_i r op answer k seen overtaken hi
    exact ⟨r, op, answer, k, seen, overtaken, hi, (Option.some.inj h).symm⟩
  · cases h

theorem getElem?_overtake {rows : List ℕ} {requests : List InFlight} {f f' : InFlight} {j : ℕ}
    (h : (overtake rows (requests.set i f))[j]? = some f') :
    j = i ∧ f' = { f with overtaken := f.overtaken ++ rows } ∨
      j ≠ i ∧ ∃ f₀, requests[j]? = some f₀ ∧ f' = { f₀ with overtaken := f₀.overtaken ++ rows } := by
  rw [overtake, List.getElem?_map] at h
  obtain ⟨f₀, hf₀, rfl⟩ := Option.map_eq_some_iff.mp h
  by_cases hji : j = i
  · subst hji
    obtain ⟨hlt, hget⟩ := List.getElem?_eq_some_iff.mp hf₀
    rw [List.getElem_set_self] at hget
    exact .inl ⟨rfl, by rw [← hget]⟩
  · rw [List.getElem?_set_ne (Ne.symm hji)] at hf₀
    exact .inr ⟨hji, f₀, hf₀, rfl⟩

theorem getElem?_set_cases {requests : List InFlight} {f f' : InFlight} {j : ℕ}
    (h : (requests.set i f)[j]? = some f') :
    j = i ∧ f' = f ∨ j ≠ i ∧ requests[j]? = some f' := by
  by_cases hji : j = i
  · subst hji
    obtain ⟨hlt, hget⟩ := List.getElem?_eq_some_iff.mp h
    rw [List.getElem_set_self] at hget
    exact .inl ⟨rfl, hget.symm⟩
  · rw [List.getElem?_set_ne (Ne.symm hji)] at h
    exact .inr ⟨hji, h⟩

theorem getElem?_arrive {requests : List InFlight} {f f' : InFlight} {j : ℕ}
    (h : (requests ++ [f])[j]? = some f') :
    requests[j]? = some f' ∨ j = requests.length ∧ f' = f := by
  rw [List.getElem?_append] at h
  split at h
  · exact .inl h
  · obtain ⟨hlt, -⟩ := List.getElem?_eq_some_iff.mp h
    rw [List.length_singleton] at hlt
    exact .inr ⟨by omega, List.mem_singleton.mp (List.mem_of_getElem? h)⟩

end

/-! ### Hashes -/

/-- One row has a token hash, in all its versions. -/
def UniqueHashes (cells : Cells Row) : Prop :=
  ∀ (k k' : ℕ) (c c' : Cell Row) (t t' : SetupToken), cells[k]? = some c → cells[k']? = some c' →
    c.Holds (.setupToken t) → c'.Holds (.setupToken t') → t.tokenHash = t'.tokenHash → k = k'

section
variable {i k : ℕ} {seen : List ℕ} {op : Op} {cells : Cells Row} {c : Cell Row} {row : Row}

theorem hashTaken_of_holds {token : SetupToken} (hc : cells[k]? = some c)
    (h : c.Holds (.setupToken token)) : hashTaken token.tokenHash cells = true := by
  rw [hashTaken, List.any_eq_true]
  refine ⟨c, List.mem_of_getElem? hc, ?_⟩
  rw [List.any_eq_true]
  refine ⟨.setupToken token, ?_, by simp [Row.token?]⟩
  rcases h with h | ⟨j, h⟩ <;> simp [h]

theorem holds_of_updateCell (h : (op.updateCell i seen k c).Holds row) :
    ∃ old, c.Holds old ∧ old.Evolves row := by
  rcases op.updateCell_cases i seen k c with he | ⟨v, w, -, hsee, hvw, he⟩
  · rw [he] at h
    exact ⟨row, h, .refl row⟩
  · rw [he] at h
    rcases h with h | ⟨j, h⟩
    · exact ⟨row, .inl h, .refl row⟩
    · cases h
      exact ⟨v, Cell.holds_of_see hsee, hvw⟩

theorem holds_of_commit (h : (c.commit i).Holds row) : c.Holds row := by
  rcases Cell.commit_cases i c with ⟨v, hp, he⟩ | ⟨-, he⟩
  · rw [he] at h
    rcases h with h | ⟨j, h⟩
    · cases h
      exact .inr ⟨i, hp⟩
    · cases h
  · rwa [he] at h

theorem holds_of_rollback (h : (c.rollback i).Holds row) : c.Holds row := by
  rcases Cell.rollback_cases i c with ⟨v, hp, he⟩ | ⟨-, he⟩
  · rw [he] at h
    rcases h with h | ⟨j, h⟩
    · exact .inl h
    · cases h
  · rwa [he] at h

theorem holds_of_cell (h : (op.cell i seen k c).Holds row) : ∃ old, c.Holds old ∧ old.Evolves row := by
  unfold Op.cell at h
  split at h
  · exact holds_of_updateCell (holds_of_commit h)
  · exact holds_of_updateCell h

theorem UniqueHashes.of_back {cells' : Cells Row} (h : UniqueHashes cells)
    (hback : ∀ (k : ℕ) (c' : Cell Row) (t' : SetupToken), cells'[k]? = some c' →
      c'.Holds (.setupToken t') → ∃ c t, cells[k]? = some c ∧ c.Holds (.setupToken t) ∧
        t.tokenHash = t'.tokenHash) : UniqueHashes cells' := by
  intro k k' c c' t t' hc hc' ht ht' heq
  obtain ⟨d, u, hd, hu, hhash⟩ := hback k c t hc ht
  obtain ⟨d', u', hd', hu', hhash'⟩ := hback k' c' t' hc' ht'
  exact h k k' d d' u u' hd hd' hu hu' (by rw [hhash, hhash', heq])

theorem UniqueHashes.rollback (h : UniqueHashes cells) : UniqueHashes (cells.rollback i) := by
  apply h.of_back
  intro k c' t' hc' ht'
  rw [Cells.getElem?_rollback] at hc'
  obtain ⟨c, hc, rfl⟩ := Option.map_eq_some_iff.mp hc'
  exact ⟨c, t', hc, holds_of_rollback ht', rfl⟩

theorem UniqueHashes.perform (h : UniqueHashes cells) (outside : Outside) :
    UniqueHashes (op.perform i seen outside cells).2 := by
  rcases perform_cases i seen outside op cells with ⟨e, he⟩ | ⟨a, hanswer, he⟩
  · rw [he]
    exact h
  rw [he]
  by_cases hop : ∃ tenantId tokenHash expiresAt, op = .createToken tenantId tokenHash expiresAt
  · obtain ⟨tenantId, tokenHash, expiresAt, rfl⟩ := hop
    have hfree : hashTaken tokenHash cells = false := by
      by_contra htaken
      rw [Op.answer, if_pos (by simpa using htaken)] at hanswer
      cases hanswer
    rw [Op.write_createToken]
    have hnew {k : ℕ} {c : Cell Row} {t : SetupToken}
        (hc : (cells ++ [{ committed := none, pending := some (i, Row.setupToken
          { tenantId := tenantId, tokenHash := tokenHash, expiresAt := expiresAt }) }])[k]? = some c)
        (ht : c.Holds (.setupToken t)) :
        cells[k]? = some c ∨ k = cells.length ∧ t.tokenHash = tokenHash := by
      rw [List.getElem?_append] at hc
      split at hc
      · exact .inl hc
      · obtain ⟨hlt, -⟩ := List.getElem?_eq_some_iff.mp hc
        rw [List.length_singleton] at hlt
        cases List.mem_singleton.mp (List.mem_of_getElem? hc)
        rcases ht with ht | ⟨j, ht⟩
        · cases ht
        · cases ht
          exact .inr ⟨by omega, rfl⟩
    intro k k' c c' t t' hc hc' ht ht' heq
    rcases hnew hc ht with hold | ⟨hk, hhash⟩
    · rcases hnew hc' ht' with hold' | ⟨hk', hhash'⟩
      · exact h k k' c c' t t' hold hold' ht ht' heq
      · have htaken := hashTaken_of_holds hold ht
        rw [heq, hhash', hfree] at htaken
        cases htaken
    · rcases hnew hc' ht' with hold' | ⟨hk', -⟩
      · have htaken := hashTaken_of_holds hold' ht'
        rw [← heq, hhash, hfree] at htaken
        cases htaken
      · omega
  · have hop' : ∀ tenantId tokenHash expiresAt,
        op ≠ .createToken tenantId tokenHash expiresAt := by simpa using hop
    apply h.of_back
    intro k c' t' hc' ht'
    rw [Op.write_getElem? hop'] at hc'
    obtain ⟨c, hc, rfl⟩ := Option.map_eq_some_iff.mp hc'
    obtain ⟨old, hold, hevolves⟩ := holds_of_cell ht'
    obtain ⟨t, rfl, ht⟩ := hevolves.token
    exact ⟨c, t, hc, hold, ht.tokenHash.symm⟩

end

/-! ### The invariant -/

/-- At most one token of a tenant can be redeemed. -/
def AtMostOneLive (s : State) : Prop :=
  ∀ (k k' : ℕ) (token token' : SetupToken), TokenAt s.cells k token → TokenAt s.cells k' token' →
    token.tenantId = token'.tenantId → token.isLive s.clock = true →
    token'.isLive s.clock = true → k = k'

/-- A generate commits only if no token of its tenant that has been committed since its own
revocation began is still live. -/
def Unovertaken (s : State) : Event → Prop
  | .execute i _ => ∀ tenantId k seen overtaken,
    s.requests[i]? = some ⟨.generate tenantId, .awaiting .commit k, seen, overtaken⟩ →
    ∀ id token, id ∈ overtaken → TokenAt s.cells id token → token.tenantId = tenantId →
      token.isLive s.clock = false
  | _ => True

/-- Request `i` stands at stage `q`. -/
structure Standing (cfg : Config) (q : Stage) (i : ℕ) (f : InFlight) (cells : Cells Row) : Prop where
  keeps : f.thread.KeepsTo (linking cfg f.request) (fun _ q => q = .done) q
  fact : q.Fact cfg f.request i f.overtaken cells
  reaches : ∀ op k seen, f.thread = .awaiting op k → f.seen = some seen → ∀ tenantId now,
    op = .revokeTokens tenantId now ∨ op = .revokeAll tenantId now →
      Reaches tenantId f.overtaken seen cells
  fresh : ∀ op a k, f.thread = .answered op a k → f.seen = none

/-- `q` are the stages of the requests. -/
structure Good (cfg : Config) (s : State) (q : ℕ → Stage) : Prop where
  versions : ∀ (k : ℕ) (c : Cell Row), s.cells[k]? = some c → Versions c
  hashes : UniqueHashes s.cells
  owned : ∀ (k : ℕ) (c : Cell Row) (j : ℕ) (v : Row), s.cells[k]? = some c →
    c.pending = some (j, v) → j < s.requests.length
  standing : ∀ (i : ℕ) (f : InFlight), s.requests[i]? = some f → Standing cfg (q i) i f s.cells
  once : ∀ (i j : ℕ) (f f' : InFlight) (dto dto' : RedeemSetupTokenDto), i ≠ j →
    s.requests[i]? = some f → s.requests[j]? = some f' → f.request = .redeem dto →
    f'.request = .redeem dto' → q i = .done → q j = .done →
      cfg.sha256 dto.token ≠ cfg.sha256 dto'.token
  live : AtMostOneLive s

section
variable {cfg : Config} {s s' : State} {q : ℕ → Stage} {i : ℕ}

theorem Standing.beside {f : InFlight} {cells cells' : Cells Row} {rows : List ℕ} {stage : Stage}
    (h : Standing cfg stage i f cells) (hb : AllBeside i rows cells cells') :
    Standing cfg stage i { f with overtaken := f.overtaken ++ rows } cells' where
  keeps := h.keeps
  fact := h.fact.beside hb
  reaches op k seen hop hseen tenantId now hrevokes :=
    (h.reaches op k seen hop hseen tenantId now hrevokes).beside hb
  fresh := h.fresh

theorem AtMostOneLive.evolve (h : AtMostOneLive s) (hclock : s.clock ≤ s'.clock)
    (hback : ∀ (k : ℕ) (token : SetupToken), TokenAt s'.cells k token →
      ∃ old, TokenAt s.cells k old ∧ old.Evolves token) : AtMostOneLive s' := by
  intro k k' token token' ht ht' htenant hlive hlive'
  obtain ⟨old, hold, hevolves⟩ := hback k token ht
  obtain ⟨old', hold', hevolves'⟩ := hback k' token' ht'
  refine h k k' old old' hold hold' ?_ (hevolves.live hclock hlive) (hevolves'.live hclock hlive')
  rw [← hevolves.tenantId, ← hevolves'.tenantId, htenant]

theorem Good.tick (h : Good cfg s q) {d : ℕ} (hs : step cfg s (.tick d) = some s') :
    Good cfg s' q := by
  cases Option.some.inj hs
  refine ⟨h.versions, h.hashes, h.owned, h.standing, h.once, ?_⟩
  exact h.live.evolve (Nat.le_add_right _ d) fun k token ht => ⟨token, ht, .refl token⟩

theorem Good.arrive (h : Good cfg s q) {r : Request} {c : Context}
    (hs : step cfg s (.arrive r c) = some s') :
    Good cfg s' (Function.update q s.requests.length .before) := by
  cases Option.some.inj hs
  have hstage {j : ℕ} {f : InFlight} (hj : s.requests[j]? = some f) :
      Function.update q s.requests.length .before j = q j := by
    obtain ⟨hlt, -⟩ := List.getElem?_eq_some_iff.mp hj
    exact Function.update_of_ne (by omega) _ _
  refine ⟨h.versions, h.hashes, fun k c j v hc hp => ?_, fun j f hj => ?_, ?_, h.live⟩
  · have hlt := h.owned k c j v hc hp
    simp only [List.length_append, List.length_singleton]
    omega
  · rcases getElem?_arrive hj with hj | ⟨rfl, rfl⟩
    · rw [hstage hj]
      exact h.standing j f hj
    · rw [Function.update_self]
      refine ⟨Thread.KeepsTo.advance (code_linking cfg r) _ fun _ => rfl, fun k c v hc hp => ?_,
        fun op k seen _ hseen => (by cases hseen), fun _ _ _ _ => rfl⟩
      exact absurd (h.owned k c _ v hc hp) (lt_irrefl _)
  · intro i j f f' dto dto' hij hi hj hr hr' hdone hdone'
    rcases getElem?_arrive hi with hi | ⟨rfl, rfl⟩
    · rcases getElem?_arrive hj with hj | ⟨rfl, rfl⟩
      · rw [hstage hi] at hdone
        rw [hstage hj] at hdone'
        exact h.once i j f f' dto dto' hij hi hj hr hr' hdone hdone'
      · rw [Function.update_self] at hdone'
        cases hdone'
    · rw [Function.update_self] at hdone
      cases hdone

theorem before_of_revokes {r : Request} {stage : Stage} {op : Op}
    (hallows : (linking cfg r).allows stage op) (hop : op.revokes = true) : stage = .before := by
  cases op with
  | revokeTokens tenantId now =>
    cases stage with
    | before => rfl
    | _ => exact hallows.elim
  | revokeAll tenantId now =>
    cases stage with
    | before => rfl
    | _ => exact hallows.elim
  | _ => cases hop

theorem Good.start (h : Good cfg s q) (hs : step cfg s (.start i) = some s') : Good cfg s' q := by
  obtain ⟨r, op, k, seen, overtaken, hi, rfl⟩ := step_start hs
  have hstand := h.standing i _ hi
  have hallows : (linking cfg r).allows (q i) op := hstand.keeps.allows
  have hrequest {j : ℕ} {f : InFlight} (hj : (s.requests.set i ⟨r, .awaiting op k,
      some (op.snapshot i s.cells), if op.revokes then [] else overtaken⟩)[j]? = some f) :
      ∃ f₀, s.requests[j]? = some f₀ ∧ f₀.request = f.request := by
    rcases getElem?_set_cases hj with ⟨rfl, rfl⟩ | ⟨-, hj⟩
    · exact ⟨_, hi, rfl⟩
    · exact ⟨f, hj, rfl⟩
  refine ⟨h.versions, h.hashes, fun k c j v hc hp => ?_, fun j f hj => ?_, ?_, h.live⟩
  · rw [List.length_set]
    exact h.owned k c j v hc hp
  · rcases getElem?_set_cases hj with ⟨rfl, rfl⟩ | ⟨-, hj⟩
    · refine ⟨hstand.keeps, ?_, ?_, fun op a k hop => by cases hop⟩
      · by_cases hop : op.revokes = true
        · have hbefore := before_of_revokes hallows hop
          have hfact := hstand.fact
          rw [hbefore] at hfact ⊢
          exact hfact
        · simpa [hop] using hstand.fact
      · intro op' k' seen' hop' hseen' tenantId now hrevokes
        cases hop'
        cases hseen'
        have hbefore : q j = .before :=
          before_of_revokes hallows (by rcases hrevokes with rfl | rfl <;> rfl)
        have hfact := hstand.fact
        rw [hbefore] at hfact
        exact snapshot_reaches hfact hrevokes
    · exact h.standing j f hj
  · intro i' j f f' dto dto' hij hi' hj hr hr'
    obtain ⟨f₀, hf₀, hreq⟩ := hrequest hi'
    obtain ⟨f₁, hf₁, hreq'⟩ := hrequest hj
    exact h.once i' j f₀ f₁ dto dto' hij hf₀ hf₁ (hreq.trans hr) (hreq'.trans hr')

theorem tokenAt_rollback {cells : Cells Row} {k : ℕ} {token : SetupToken}
    (h : TokenAt (cells.rollback i) k token) : TokenAt cells k token := by
  obtain ⟨c', hc', hcommitted⟩ := h
  rw [Cells.getElem?_rollback] at hc'
  obtain ⟨c, hc, rfl⟩ := Option.map_eq_some_iff.mp hc'
  refine ⟨c, hc, ?_⟩
  rcases Cell.rollback_cases i c with ⟨v, -, he⟩ | ⟨-, he⟩
  · rwa [he] at hcommitted
  · rwa [he] at hcommitted

theorem Good.deliver (h : Good cfg s q) {c : Context} (hs : step cfg s (.deliver i c) = some s') :
    ∃ q', Good cfg s' q' := by
  obtain ⟨r, op, answer, k, seen, overtaken, hi, rfl⟩ := step_deliver hs
  have hstand := h.standing i _ hi
  have hseen : seen = none := hstand.fresh op answer k rfl
  have hkeeps : Thread.KeepsTo (linking cfg r) (fun _ q => q = .done) (q i)
      ((k answer).advance { c with now := s.clock }) :=
    Thread.KeepsTo.advance hstand.keeps _ fun _ => rfl
  generalize hthread : (k answer).advance { c with now := s.clock } = thread at hkeeps
  have hlive {cells : Cells Row} {requests : List InFlight}
      (hback : ∀ (k : ℕ) (token : SetupToken), TokenAt cells k token → TokenAt s.cells k token) :
      AtMostOneLive { s with cells := cells, requests := requests } :=
    h.live.evolve le_rfl fun k token ht => ⟨token, hback k token ht, .refl token⟩
  have honce (q' : ℕ → Stage) (hq' : ∀ j, q' j = .done → q j = .done) (i' j : ℕ) (f f' : InFlight)
      (dto dto' : RedeemSetupTokenDto) (hij : i' ≠ j)
      (hi' : (s.requests.set i ⟨r, thread, seen, overtaken⟩)[i']? = some f)
      (hj : (s.requests.set i ⟨r, thread, seen, overtaken⟩)[j]? = some f')
      (hr : f.request = .redeem dto) (hr' : f'.request = .redeem dto') (hd : q' i' = .done)
      (hd' : q' j = .done) : cfg.sha256 dto.token ≠ cfg.sha256 dto'.token := by
    have hrequest {j : ℕ} {f : InFlight}
        (hj : (s.requests.set i ⟨r, thread, seen, overtaken⟩)[j]? = some f) :
        ∃ f₀, s.requests[j]? = some f₀ ∧ f₀.request = f.request := by
      rcases getElem?_set_cases hj with ⟨rfl, rfl⟩ | ⟨-, hj⟩
      · exact ⟨_, hi, rfl⟩
      · exact ⟨f, hj, rfl⟩
    obtain ⟨f₀, hf₀, hreq⟩ := hrequest hi'
    obtain ⟨f₁, hf₁, hreq'⟩ := hrequest hj
    exact h.once i' j f₀ f₁ dto dto' hij hf₀ hf₁ (hreq.trans hr) (hreq'.trans hr') (hq' i' hd)
      (hq' j hd')
  cases herror : isError thread with
  | true =>
    refine ⟨Function.update q i .lost, fun k c' hc' => ?_, h.hashes.rollback, fun k c' j v hc' hp => ?_,
      fun j f hj => ?_, honce _ fun j hd => ?_, hlive fun k token ht => tokenAt_rollback ht⟩
    · rw [if_pos rfl, Cells.getElem?_rollback] at hc'
      obtain ⟨c, hc, rfl⟩ := Option.map_eq_some_iff.mp hc'
      exact (h.versions k c hc).rollback
    · rw [if_pos rfl, Cells.getElem?_rollback] at hc'
      obtain ⟨c, hc, rfl⟩ := Option.map_eq_some_iff.mp hc'
      rw [List.length_set]
      rcases Cell.rollback_cases i c with ⟨w, -, he⟩ | ⟨-, he⟩
      · rw [he] at hp
        cases hp
      · rw [he] at hp
        exact h.owned k c j v hc hp
    · rcases getElem?_set_cases hj with ⟨rfl, rfl⟩ | ⟨hji, hj⟩
      · rw [Function.update_self]
        refine ⟨?_, trivial, fun op k seen' _ hs' => ?_, fun _ _ _ _ => hseen⟩
        · cases thread with
          | awaiting op k => cases herror
          | answered op a k => cases herror
          | finished result =>
            cases result with
            | ok a => cases herror
            | error e => trivial
        · cases hseen.symm.trans hs'
      · rw [Function.update_of_ne hji]
        have hbeside := (h.standing j f hj).beside (beside_rollbackAll (i := j) (j := i) hji)
        rw [List.append_nil] at hbeside
        exact hbeside
    · by_cases hji : j = i
      · subst hji
        rw [Function.update_self] at hd
        cases hd
      · rwa [Function.update_of_ne hji] at hd
  | false =>
    refine ⟨q, h.versions, h.hashes, fun k c j v hc hp => ?_, fun j f hj => ?_,
      honce q fun _ hd => hd, hlive fun k token ht => ht⟩
    · rw [List.length_set]
      exact h.owned k c j v hc hp
    · rcases getElem?_set_cases hj with ⟨rfl, rfl⟩ | ⟨-, hj⟩
      · exact ⟨hkeeps, hstand.fact, fun op k seen' _ hs' => (by cases hseen.symm.trans hs'),
          fun _ _ _ _ => hseen⟩
      · exact h.standing j f hj

theorem committedRows_created {r : Request} {stage : Stage} {op : Op} {overtaken : List ℕ}
    {cells : Cells Row} {answer : Except ServiceError op.Res} {k : ℕ}
    (hfact : stage.Fact cfg r i overtaken cells) (hallows : (linking cfg r).allows stage op)
    (hk : k ∈ op.committedRows i answer cells) :
    stage = .created ∧ op = .commit ∧ k ∈ cells.inserted i := by
  rw [Op.committedRows] at hk
  split at hk
  · rename_i hcommits
    obtain ⟨c, v, hc, hnone, hp⟩ := Cells.mem_inserted.mp hk
    cases op with
    | commit =>
      cases stage with
      | created => exact ⟨rfl, rfl, hk⟩
      | consumed id => exact (hfact.1 k c v hc hp hnone).elim
      | _ => exact hallows.elim
    | revokeAll tenantId now =>
      cases stage with
      | before => exact (hfact k c v hc hp).elim
      | _ => exact hallows.elim
    | _ => cases hcommits
  · cases hk

/-- The token that a generate commits is its own; the others of the tenant are gone. -/
theorem live_commit {tenantId : String} {overtaken seen : List ℕ} {now : ℕ}
    (hversions : ∀ (k : ℕ) (c : Cell Row), s.cells[k]? = some c → Versions c)
    (hrevoked : RevokedBy i overtaken tenantId s.cells)
    (hovertaken : ∀ id token, id ∈ overtaken → TokenAt s.cells id token →
      token.tenantId = tenantId → token.isLive now = false)
    {k : ℕ} {token : SetupToken} (ht : TokenAt (Op.commit.write i seen s.cells) k token)
    (htenant : token.tenantId = tenantId) (hlive : token.isLive now = true) :
    k ∈ s.cells.inserted i := by
  have hunrevoked : token.revokedAt = none := by
    simp only [SetupToken.isLive, Bool.and_eq_true, decide_eq_true_eq] at hlive
    exact hlive.1.1
  rcases generate_commit_fact seen hrevoked hversions ht htenant hunrevoked with
    hnew | ⟨hmem, old, hold, hevolves⟩
  · exact hnew
  · have hgone := hovertaken k old hmem hold (hevolves.tenantId.symm.trans htenant)
    rw [hevolves.live le_rfl hlive] at hgone
    cases hgone

theorem InsertsOne.token (seen : List ℕ) {tenantId : String} (h : InsertsOne i tenantId s.cells) :
    ∃ k₀, ∀ (k : ℕ) (token : SetupToken), k ∈ s.cells.inserted i →
      TokenAt (Op.commit.write i seen s.cells) k token → k = k₀ ∧ token.tenantId = tenantId := by
  obtain ⟨k₀, hone⟩ := h
  refine ⟨k₀, fun k token hk ht => ?_⟩
  obtain ⟨c, v, hc, hnone, hp⟩ := Cells.mem_inserted.mp hk
  obtain ⟨c', hc', hcommitted⟩ := ht
  rw [Op.write_getElem? (by simp), hc] at hc'
  cases hc'
  have hcell : Op.commit.cell i seen k c = c.commit i := rfl
  rw [hcell] at hcommitted
  rcases Cell.commit_cases i c with ⟨w, hp', he⟩ | ⟨hne, -⟩
  · cases hp.symm.trans hp'
    rw [he] at hcommitted
    cases hcommitted
    obtain ⟨hk₀, htenant⟩ := hone k c _ hc hp hnone
    exact ⟨hk₀, htenant token rfl⟩
  · exact (hne v hp).elim

theorem Good.live_execute (h : Good cfg s q) {outside : Outside} {r : Request} {op : Op}
    {k₁ : Except ServiceError op.Res → Service Response} {seen overtaken : List ℕ}
    (hi : s.requests[i]? = some ⟨r, .awaiting op k₁, some seen, overtaken⟩)
    (hfree : s.cells.blocked i seen = false) (hok : Unovertaken s (.execute i outside)) :
    ∀ (k k' : ℕ) (token token' : SetupToken),
      TokenAt (op.perform i seen outside s.cells).2 k token →
      TokenAt (op.perform i seen outside s.cells).2 k' token' →
      token.tenantId = token'.tenantId → token.isLive s.clock = true →
      token'.isLive s.clock = true → k = k' := by
  have hstand := h.standing i _ hi
  have hallows : (linking cfg r).allows (q i) op := hstand.keeps.allows
  have hbeside : AllBeside (i + 1) (op.committedRows i (op.perform i seen outside s.cells).1 s.cells)
      s.cells (op.perform i seen outside s.cells).2 :=
    beside_perform (by omega) h.versions hfree
  intro k k' token token' ht ht' htenant hlive hlive'
  by_cases hrows : ∃ k₀, k₀ ∈ op.committedRows i (op.perform i seen outside s.cells).1 s.cells
  · obtain ⟨k₀, hk₀⟩ := hrows
    obtain ⟨hstage, rfl, hinserted⟩ := committedRows_created hstand.fact hallows hk₀
    have hfact := hstand.fact
    rw [hstage] at hfact
    obtain ⟨tenantId, hr, hrevoked, hone⟩ := hfact
    cases hr
    rcases perform_cases i seen outside .commit s.cells with ⟨e, he⟩ | ⟨a, -, he⟩
    · rw [he] at hk₀
      cases hk₀
    rw [he] at ht ht' hbeside
    obtain ⟨k₀, hone⟩ := hone.token seen
    have hother {k : ℕ} {token : SetupToken} (ht : TokenAt (Op.commit.write i seen s.cells) k token)
        (htenant : token.tenantId = tenantId) (hlive : token.isLive s.clock = true) : k = k₀ := by
      have hnew := live_commit h.versions hrevoked (hok tenantId k₁ (some seen) overtaken hi) ht htenant
        hlive
      exact (hone k token hnew ht).1
    by_cases hmine : token.tenantId = tenantId
    · rw [hother ht hmine hlive, hother ht' (htenant.symm.trans hmine) hlive']
    · -- another tenant's tokens are as they were
      have hold {k : ℕ} {token : SetupToken} (ht : TokenAt (Op.commit.write i seen s.cells) k token)
          (hne : token.tenantId ≠ tenantId) : ∃ old, TokenAt s.cells k old ∧ old.Evolves token := by
        rcases hbeside.token_back ht with hrow | hold
        · exact (hne (hone k token hrow ht).2).elim
        · exact hold
      obtain ⟨old, hold₁, hevolves⟩ := hold ht hmine
      obtain ⟨old', hold₂, hevolves'⟩ := hold ht' (by rwa [← htenant])
      refine h.live k k' old old' hold₁ hold₂ ?_ (hevolves.live le_rfl hlive)
        (hevolves'.live le_rfl hlive')
      rw [← hevolves.tenantId, ← hevolves'.tenantId, htenant]
  · have hold {k : ℕ} {token : SetupToken}
        (ht : TokenAt (op.perform i seen outside s.cells).2 k token) :
        ∃ old, TokenAt s.cells k old ∧ old.Evolves token := by
      rcases hbeside.token_back ht with hrow | hold
      · exact (hrows ⟨k, hrow⟩).elim
      · exact hold
    obtain ⟨old, hold₁, hevolves⟩ := hold ht
    obtain ⟨old', hold₂, hevolves'⟩ := hold ht'
    refine h.live k k' old old' hold₁ hold₂ ?_ (hevolves.live le_rfl hlive)
      (hevolves'.live le_rfl hlive')
    rw [← hevolves.tenantId, ← hevolves'.tenantId, htenant]

theorem versions_perform (i : ℕ) {cells : Cells Row} (seen : List ℕ) (op : Op) (outside : Outside)
    (h : ∀ (k : ℕ) (c : Cell Row), cells[k]? = some c → Versions c) (k : ℕ) (c : Cell Row)
    (hc : (op.perform i seen outside cells).2[k]? = some c) : Versions c := by
  rcases perform_cases i seen outside op cells with ⟨e, he⟩ | ⟨a, -, he⟩
  · rw [he] at hc
    exact h k c hc
  rw [he] at hc
  by_cases hop : ∃ tenantId tokenHash expiresAt, op = .createToken tenantId tokenHash expiresAt
  · obtain ⟨tenantId, tokenHash, expiresAt, rfl⟩ := hop
    rw [Op.write_createToken, List.getElem?_append] at hc
    split at hc
    · exact h k c hc
    · cases List.mem_singleton.mp (List.mem_of_getElem? hc)
      intro old j new hold
      cases hold
  · rw [Op.write_getElem? (by simpa using hop)] at hc
    obtain ⟨d, hd, rfl⟩ := Option.map_eq_some_iff.mp hc
    exact (h k d hd).cell

theorem pending_perform {cells : Cells Row} {seen : List ℕ} {op : Op} (outside : Outside) {k j : ℕ}
    {c : Cell Row} {v : Row} (hc : (op.perform i seen outside cells).2[k]? = some c)
    (hp : c.pending = some (j, v)) :
    j = i ∨ ∃ d w, cells[k]? = some d ∧ d.pending = some (j, w) := by
  rcases perform_cases i seen outside op cells with ⟨e, he⟩ | ⟨a, -, he⟩
  · rw [he] at hc
    exact .inr ⟨c, v, hc, hp⟩
  rw [he] at hc
  by_cases hop : ∃ tenantId tokenHash expiresAt, op = .createToken tenantId tokenHash expiresAt
  · obtain ⟨tenantId, tokenHash, expiresAt, rfl⟩ := hop
    rw [Op.write_createToken, List.getElem?_append] at hc
    split at hc
    · exact .inr ⟨c, v, hc, hp⟩
    · cases List.mem_singleton.mp (List.mem_of_getElem? hc)
      cases hp
      exact .inl rfl
  · rw [Op.write_getElem? (by simpa using hop)] at hc
    obtain ⟨d, hd, rfl⟩ := Option.map_eq_some_iff.mp hc
    have hupdate (hp : (op.updateCell i seen k d).pending = some (j, v)) :
        j = i ∨ ∃ d w, cells[k]? = some d ∧ d.pending = some (j, w) := by
      rcases op.updateCell_cases i seen k d with he' | ⟨w, x, -, -, -, he'⟩
      · rw [he'] at hp
        exact .inr ⟨d, v, hd, hp⟩
      · rw [he'] at hp
        cases hp
        exact .inl rfl
    rw [Op.cell] at hp
    split at hp
    · rcases Cell.commit_cases i (op.updateCell i seen k d) with ⟨w, -, he'⟩ | ⟨-, he'⟩
      · rw [he'] at hp
        cases hp
      · rw [he'] at hp
        exact hupdate hp
    · exact hupdate hp

/-- A redemption's last stage is reached from a token that nobody has used. -/
theorem done_of_redeem {r : Request} {stage : Stage} {op : Op} {dto : RedeemSetupTokenDto}
    {answer : Except ServiceError op.Res} (hr : r = .redeem dto)
    (hallows : (linking cfg r).allows stage op)
    (hdone : (linking cfg r).next stage op answer = .done) : ∃ id, stage = .consumed id := by
  subst hr
  cases answer with
  | error e =>
    rw [linking_next_error] at hdone
    cases hdone
  | ok a =>
    cases stage with
    | consumed id => exact ⟨id, rfl⟩
    | before =>
      cases op with
      | findToken tokenHash => cases a <;> cases hdone
      | revokeTokens tenantId now | revokeAll tenantId now => cases hallows
      | findTenantUser tenantId => cases hallows
      | hash password => cases hdone
      | _ => exact hallows.elim
    | revoked =>
      cases op with
      | createToken tenantId tokenHash expiresAt => cases hallows
      | _ => exact hallows.elim
    | created =>
      cases op with
      | commit =>
        obtain ⟨tenantId, hr⟩ := hallows
        cases hr
      | _ => exact hallows.elim
    | found id =>
      cases op with
      | consume id' now =>
        have hnext : (linking cfg (.redeem dto)).next (.found id) (.consume id' now) (.ok a) =
            if a = 1 then .consumed id else .lost := rfl
        rw [hnext] at hdone
        split at hdone <;> cases hdone
      | findPendingAdmin tenantId => cases hdone
      | _ => exact hallows.elim
    | done | lost => exact hallows.elim

theorem Good.execute (h : Good cfg s q) {outside : Outside}
    (hok : Unovertaken s (.execute i outside)) (hs : step cfg s (.execute i outside) = some s') :
    ∃ q', Good cfg s' q' := by
  obtain ⟨r, op, k, seen, overtaken, hi, hfree, rfl⟩ := step_execute hs
  have hstand := h.standing i _ hi
  have hallows : (linking cfg r).allows (q i) op := hstand.keeps.allows
  have hlive := h.live_execute hi hfree hok
  have hversions := versions_perform i seen op outside h.versions
  obtain ⟨hlt, -⟩ := List.getElem?_eq_some_iff.mp hi
  generalize hanswer : (op.perform i seen outside s.cells).1 = answer at *
  refine ⟨Function.update q i ((linking cfg r).next (q i) op answer), hversions,
    h.hashes.perform outside, fun k' c j v hc hp => ?_, fun j f hj => ?_, ?_, hlive⟩
  · rw [overtake, List.length_map, List.length_set]
    rcases pending_perform outside hc hp with rfl | ⟨d, w, hd, hw⟩
    · exact hlt
    · exact h.owned k' d j w hd hw
  · rcases getElem?_overtake hj with ⟨rfl, rfl⟩ | ⟨hji, f₀, hf₀, rfl⟩
    · rw [Function.update_self]
      have hown : ((linking cfg r).next (q j) op (op.perform j seen outside s.cells).1).Fact cfg r j
          (overtaken ++ op.committedRows j (op.perform j seen outside s.cells).1 s.cells)
          (op.perform j seen outside s.cells).2 :=
        hstand.fact.own hallows (hstand.reaches op k seen rfl rfl) h.versions
      rw [hanswer] at hown
      exact ⟨hstand.keeps.execute answer, hown, fun _ _ _ hop => (by cases hop), fun _ _ _ _ => rfl⟩
    · rw [Function.update_of_ne hji]
      have hbeside : AllBeside j (op.committedRows i (op.perform i seen outside s.cells).1 s.cells)
          s.cells (op.perform i seen outside s.cells).2 :=
        beside_perform hji h.versions hfree
      rw [hanswer] at hbeside
      exact (h.standing j f₀ hf₀).beside hbeside
  · -- who has used the token before, has used the row that the other finds unused
    have hclash {j' : ℕ} {f' : InFlight} {dto dto' : RedeemSetupTokenDto} (hj' : s.requests[j']? = some f') (hrequest : r = .redeem dto)
        (hrequest' : f'.request = .redeem dto')
        (hdone : (linking cfg r).next (q i) op answer = .done) (hdone' : q j' = .done) :
        cfg.sha256 dto.token ≠ cfg.sha256 dto'.token := by
      intro heq
      obtain ⟨id, hstage⟩ := done_of_redeem hrequest hallows hdone
      have hfact := hstand.fact
      rw [hstage] at hfact
      obtain ⟨-, dto₀, hdto, c, token, -, hc, hcommitted, hhash, hunused, -, -⟩ := hfact
      cases hrequest.symm.trans hdto
      have hfact' := (h.standing j' f' hj').fact
      rw [hdone'] at hfact'
      obtain ⟨id', token', ⟨c', hc', hcommitted'⟩, hhash', hused⟩ := hfact'.1 dto' hrequest'
      have hid : id = id' := h.hashes id id' c c' token token' hc hc' (.inl hcommitted)
        (.inl hcommitted') (by rw [hhash, hhash', heq])
      subst hid
      cases hc.symm.trans hc'
      cases hcommitted.symm.trans hcommitted'
      exact hused hunused
    intro i' j f f' dto dto' hij hi' hj hr hr' hd hd'
    rcases getElem?_overtake hi' with ⟨rfl, rfl⟩ | ⟨hne, f₀, hf₀, rfl⟩
    · rcases getElem?_overtake hj with ⟨rfl, rfl⟩ | ⟨hne', f₁, hf₁, rfl⟩
      · cases hij rfl
      · rw [Function.update_self] at hd
        rw [Function.update_of_ne hne'] at hd'
        exact hclash hf₁ hr hr' hd hd'
    · rcases getElem?_overtake hj with ⟨rfl, rfl⟩ | ⟨hne', f₁, hf₁, rfl⟩
      · rw [Function.update_self] at hd'
        rw [Function.update_of_ne hne] at hd
        exact (hclash hf₀ hr' hr hd' hd).symm
      · rw [Function.update_of_ne hne] at hd
        rw [Function.update_of_ne hne'] at hd'
        exact h.once i' j f₀ f₁ dto dto' hij hf₀ hf₁ hr hr' hd hd'

theorem Good.step {e : Event} (h : Good cfg s q) (hok : Unovertaken s e)
    (hs : SetupLink.step cfg s e = some s') : ∃ q', Good cfg s' q' := by
  cases e with
  | arrive r c => exact ⟨_, h.arrive hs⟩
  | start i => exact ⟨q, h.start hs⟩
  | execute i outside => exact h.execute hok hs
  | deliver i c => exact h.deliver hs
  | tick d => exact ⟨q, h.tick hs⟩

end

/-! ### Runs -/

/-- Request `i` has been answered with success. -/
def Succeeded (s : State) (i : ℕ) (r : Request) : Prop :=
  ∃ f response, s.requests[i]? = some f ∧ f.request = r ∧ f.thread = .finished (.ok response)

/-- A token is redeemed by one request. -/
def RedeemedOnce (cfg : Config) (s : State) : Prop :=
  ∀ (i j : ℕ) (dto dto' : RedeemSetupTokenDto), Succeeded s i (.redeem dto) →
    Succeeded s j (.redeem dto') → cfg.sha256 dto.token = cfg.sha256 dto'.token → i = j

def Redeemed (s : State) (k : ℕ) : Prop := ∃ token, TokenAt s.cells k token ∧ token.usedAt ≠ none

/-- Request `j` came in, or began its revocation, after row `k` had been committed in `s₁`. -/
def Later (s₁ s : State) (j k : ℕ) : Prop :=
  s₁.requests.length ≤ j ∨ ∃ f, s.requests[j]? = some f ∧ k ∉ f.overtaken

/-- No token redeems that is older than a request that has revoked the tokens of its tenant. -/
def OldOnesEnd (cfg : Config) (s₀ s : State) : Prop :=
  ∀ (s₁ s₂ : State) (j k : ℕ) (r : Request) (token : SetupToken),
    Reach (step cfg) Unovertaken s₀ s₁ → Reach (step cfg) Unovertaken s₁ s₂ →
    Reach (step cfg) Unovertaken s₂ s → TokenAt s₁.cells k token →
    r = .generate token.tenantId ∨ r = .revokeAll token.tenantId →
    Succeeded s₂ j r → Later s₁ s₂ j k → Redeemed s k → Redeemed s₂ k

section
variable {cfg : Config} {s₀ s s' : State} {q : ℕ → Stage} {k : ℕ} {token : SetupToken}

theorem Idle.good (h : Idle s₀) (hhashes : UniqueHashes s₀.cells) (hlive : AtMostOneLive s₀) :
    Good cfg s₀ fun _ => .before := by
  obtain ⟨hrequests, hpending⟩ := h
  have hnone (i : ℕ) (f : InFlight) : s₀.requests[i]? ≠ some f := by simp [hrequests]
  refine ⟨fun k c hc old j new _ hp => ?_, hhashes, fun k c j v hc hp => ?_,
    fun i f hi => (hnone i f hi).elim, fun i j f f' dto dto' _ hi => (hnone i f hi).elim, hlive⟩
  · cases (hpending c (List.mem_of_getElem? hc)).symm.trans hp
  · cases (hpending c (List.mem_of_getElem? hc)).symm.trans hp

theorem good_reach (hgood : Good cfg s₀ q) (h : Reach (step cfg) Unovertaken s₀ s) :
    ∃ q', Good cfg s q' := by
  induction h with
  | init => exact ⟨q, hgood⟩
  | next _ hok hs ih =>
    obtain ⟨q', hgood'⟩ := ih
    exact hgood'.step hok hs

theorem Good.done (h : Good cfg s q) {i : ℕ} {r : Request} (hi : Succeeded s i r) :
    ∃ f, s.requests[i]? = some f ∧ f.request = r ∧ q i = .done := by
  obtain ⟨f, response, hf, hr, hthread⟩ := hi
  have hkeeps := (h.standing i f hf).keeps
  rw [hthread] at hkeeps
  exact ⟨f, hf, hr, hkeeps⟩

theorem Good.redeemedOnce (h : Good cfg s q) : RedeemedOnce cfg s := by
  intro i j dto dto' hi hj hhash
  obtain ⟨f, hf, hr, hdone⟩ := h.done hi
  obtain ⟨f', hf', hr', hdone'⟩ := h.done hj
  by_contra hne
  exact h.once i j f f' dto dto' hne hf hf' hr hr' hdone hdone' hhash

theorem Good.token_step (h : Good cfg s q) {e : Event} (hs : SetupLink.step cfg s e = some s')
    (ht : TokenAt s.cells k token) : ∃ token', TokenAt s'.cells k token' ∧ token.Evolves token' := by
  cases e with
  | arrive r c =>
    cases Option.some.inj hs
    exact ⟨token, ht, .refl token⟩
  | start i =>
    obtain ⟨r, op, k', seen, overtaken, -, rfl⟩ := step_start hs
    exact ⟨token, ht, .refl token⟩
  | execute i outside =>
    obtain ⟨r, op, k', seen, overtaken, -, hfree, rfl⟩ := step_execute hs
    have hbeside : AllBeside (i + 1) (op.committedRows i (op.perform i seen outside s.cells).1 s.cells)
        s.cells (op.perform i seen outside s.cells).2 :=
      beside_perform (by omega) h.versions hfree
    exact hbeside.token_forth ht
  | deliver i c =>
    obtain ⟨r, op, answer, k', seen, overtaken, -, rfl⟩ := step_deliver hs
    dsimp only
    split
    · have hbeside : AllBeside (i + 1) [] s.cells (s.cells.rollback i) :=
        beside_rollbackAll (by omega)
      exact hbeside.token_forth ht
    · exact ⟨token, ht, .refl token⟩
  | tick d =>
    cases Option.some.inj hs
    exact ⟨token, ht, .refl token⟩

theorem not_committedRows {i : ℕ} {op : Op} {answer : Except ServiceError op.Res}
    {cells : Cells Row} (ht : TokenAt cells k token) : k ∉ op.committedRows i answer cells := by
  intro hk
  rw [Op.committedRows] at hk
  split at hk
  · obtain ⟨c, v, hc, hnone, -⟩ := Cells.mem_inserted.mp hk
    obtain ⟨c', hc', hcommitted⟩ := ht
    cases hc.symm.trans hc'
    cases hcommitted.symm.trans hnone
  · cases hk

/-- None of the requests from `n` on notes row `k`. -/
def Unnoted (s : State) (n k : ℕ) : Prop :=
  ∀ (j : ℕ) (f : InFlight), n ≤ j → s.requests[j]? = some f → k ∉ f.overtaken

theorem Unnoted.step {n : ℕ} (h : Unnoted s n k) {e : Event} (ht : TokenAt s.cells k token)
    (hs : SetupLink.step cfg s e = some s') : Unnoted s' n k := by
  intro j f hn hf
  cases e with
  | arrive r c =>
    cases Option.some.inj hs
    rcases getElem?_arrive hf with hf | ⟨-, rfl⟩
    · exact h j f hn hf
    · simp
  | start i =>
    obtain ⟨r, op, k', seen, overtaken, hi, rfl⟩ := step_start hs
    rcases getElem?_set_cases hf with ⟨rfl, rfl⟩ | ⟨-, hf⟩
    · dsimp only
      split
      · simp
      · exact h j _ hn hi
    · exact h j f hn hf
  | execute i outside =>
    obtain ⟨r, op, k', seen, overtaken, hi, -, rfl⟩ := step_execute hs
    have hfresh : k ∉ op.committedRows i (op.perform i seen outside s.cells).1 s.cells :=
      not_committedRows ht
    rcases getElem?_overtake hf with ⟨rfl, rfl⟩ | ⟨-, f₀, hf₀, rfl⟩
    · have hold := h j _ hn hi
      simp only [List.mem_append, not_or]
      exact ⟨hold, hfresh⟩
    · have hold := h j _ hn hf₀
      simp only [List.mem_append, not_or]
      exact ⟨hold, hfresh⟩
  | deliver i c =>
    obtain ⟨r, op, answer, k', seen, overtaken, hi, rfl⟩ := step_deliver hs
    rcases getElem?_set_cases hf with ⟨rfl, rfl⟩ | ⟨-, hf⟩
    · have hold := h j _ hn hi
      exact hold
    · exact h j f hn hf
  | tick d =>
    cases Option.some.inj hs
    exact h j f hn hf

theorem Good.token_reach (hgood : Good cfg s q)
    (h : Reach (SetupLink.step cfg) Unovertaken s s')
    (ht : TokenAt s.cells k token) :
    (∃ token', TokenAt s'.cells k token' ∧ token.Evolves token') ∧
      Unnoted s' s.requests.length k := by
  induction h with
  | init =>
    refine ⟨⟨token, ht, .refl token⟩, fun j f hn hf => ?_⟩
    obtain ⟨hlt, -⟩ := List.getElem?_eq_some_iff.mp hf
    omega
  | next hr _ hs ih =>
    obtain ⟨⟨token₁, ht₁, hevolves₁⟩, hunnoted⟩ := ih
    obtain ⟨q', hgood'⟩ := good_reach hgood hr
    obtain ⟨token₂, ht₂, hevolves₂⟩ := hgood'.token_step hs ht₁
    exact ⟨⟨token₂, ht₂, hevolves₁.trans hevolves₂⟩, hunnoted.step ht₁ hs⟩

theorem TokenAt.unique {cells : Cells Row} {token' : SetupToken} (h : TokenAt cells k token)
    (h' : TokenAt cells k token') : token = token' := by
  obtain ⟨c, hc, ht⟩ := h
  obtain ⟨c', hc', ht'⟩ := h'
  cases hc.symm.trans hc'
  cases ht.symm.trans ht'
  rfl

theorem Good.oldOnesEnd (hgood : Good cfg s₀ q) : OldOnesEnd cfg s₀ s := by
  intro s₁ s₂ j k r token h₁ h₂ h₃ ht hr hsucceeded hlater hredeemed
  obtain ⟨q₁, hgood₁⟩ := good_reach hgood h₁
  obtain ⟨q₂, hgood₂⟩ := good_reach hgood₁ h₂
  obtain ⟨⟨token₂, ht₂, hevolves⟩, hunnoted⟩ := hgood₁.token_reach h₂ ht
  obtain ⟨f, hf, rfl, hdone⟩ := hgood₂.done hsucceeded
  have hfact := (hgood₂.standing j f hf).fact
  rw [hdone] at hfact
  have hnew : k ∉ f.overtaken := by
    rcases hlater with hlate | ⟨f', hf', hnew⟩
    · exact hunnoted j f hlate hf
    · cases hf.symm.trans hf'
      exact hnew
  by_cases hunrevoked : token₂.revokedAt = none
  · exact (hnew (hfact.2 token.tenantId hr k token₂ ht₂ hevolves.tenantId hunrevoked)).elim
  · obtain ⟨⟨token₃, ht₃, hevolves₃⟩, -⟩ := hgood₂.token_reach h₃ ht₂
    obtain ⟨token', ht', hused⟩ := hredeemed
    cases ht₃.unique ht'
    rcases hevolves₃.unrevoked hused with hused₂ | hrevoked
    · exact ⟨token₂, ht₂, hused₂⟩
    · exact (hunrevoked hrevoked).elim

end

/-- Setup links, in every interleaving. -/
theorem setup_links {cfg : Config} {s₀ s : State} (hidle : Idle s₀)
    (hhashes : UniqueHashes s₀.cells) (hlive : AtMostOneLive s₀)
    (h : Reach (step cfg) Unovertaken s₀ s) :
    AtMostOneLive s ∧ RedeemedOnce cfg s ∧ OldOnesEnd cfg s₀ s := by
  have hgood : Good cfg s₀ fun _ => .before := hidle.good hhashes hlive
  obtain ⟨q, hreached⟩ := good_reach hgood h
  exact ⟨hreached.live, hreached.redeemedOnce, hgood.oldOnesEnd⟩

/-! ### A tenant with its first admin -/

def plainConfig : Config where
  sha256 token := token

def acme : State where
  cells := [{ committed := some (.tenantUser ⟨"acme", 1, .PENDING_SETUP, true⟩) },
    { committed := some (.authAccount ⟨""⟩) }]
  requests := []
  clock := 0

theorem acme_idle : Idle acme := ⟨rfl, by simp [acme]⟩

theorem acme_no_token {k : ℕ} {c : Cell Row} {token : SetupToken} (hc : acme.cells[k]? = some c) :
    ¬ c.Holds (.setupToken token) := by
  have hmem : c = { committed := some (.tenantUser ⟨"acme", 1, .PENDING_SETUP, true⟩) } ∨
      c = { committed := some (.authAccount ⟨""⟩) } := by
    simpa [acme] using List.mem_of_getElem? hc
  rintro (h | ⟨i, h⟩)
  · rcases hmem with rfl | rfl <;> cases h
  · rcases hmem with rfl | rfl <;> cases h

theorem acme_uniqueHashes : UniqueHashes acme.cells :=
  fun _ _ _ _ _ _ hc _ ht => (acme_no_token hc ht).elim

theorem acme_atMostOneLive : AtMostOneLive acme := by
  intro k k' token token' ht
  obtain ⟨c, hc, hcommitted⟩ := ht
  exact (acme_no_token hc (.inl hcommitted)).elim

def acmeContext (newToken : String) : Context := { now := 0, newToken := newToken }

def quiet : Outside := { fault := false, pick := 0, newHash := fun password => password }

/-- Statements of request `i`, one after the other. -/
def statements (i n : ℕ) (newToken : String) : List Event :=
  (List.replicate n [.start i, .execute i quiet, .deliver i (acmeContext newToken)]).flatten

def generateThenRedeem : List Event :=
  [.arrive (.generate "acme") (acmeContext "")] ++ statements 0 4 "first" ++
    [.arrive (.redeem ⟨"first", "Sesame-1234"⟩) (acmeContext "")] ++ statements 1 8 ""

/-- What commits has not been overtaken by anything. -/
def alone (s : State) : Event → Bool
  | .execute i _ => s.requests[i]?.all fun f => f.overtaken.isEmpty
  | _ => true

theorem alone.unovertaken {s : State} {e : Event} (h : alone s e = true) : Unovertaken s e := by
  cases e with
  | execute i outside =>
    intro tenantId k seen overtaken hi id token hid
    rw [alone, hi] at h
    have hnil : overtaken = [] := by simpa using h
    rw [hnil] at hid
    cases hid
  | _ => trivial

theorem setup_links_acme : ∃ s, Reach (step plainConfig) Unovertaken acme s ∧
    s.requests.length = 2 ∧
    AtMostOneLive s ∧ RedeemedOnce plainConfig s ∧ OldOnesEnd plainConfig acme s := by
  have hrun : (runChecked (step plainConfig) alone acme generateThenRedeem).any
      (fun s => s.requests.length = 2) = true := by
    decide +kernel
  obtain ⟨s, hs, hlength⟩ := (Option.any_eq_true _ _).mp hrun
  have hreach : Reach (step plainConfig) Unovertaken acme s :=
    .of_runChecked (fun _ _ h => alone.unovertaken h) hs
  exact ⟨s, hreach, by simpa using hlength,
    setup_links acme_idle acme_uniqueHashes acme_atMostOneLive hreach⟩

/-- Two generates, each of which revokes before the other has committed. -/
def generateTwice : List Event :=
  [.arrive (.generate "acme") (acmeContext ""), .arrive (.generate "acme") (acmeContext "")] ++
    statements 0 2 "first" ++ statements 1 2 "second" ++ statements 0 2 "first" ++
    statements 1 2 "second"

/-- Token `k` is live. -/
def liveAt (s : State) (k : ℕ) : Bool :=
  (s.cells[k]?.bind (·.committed)).any fun row =>
    row.token?.any fun token => token.tenantId = "acme" && token.isLive s.clock

theorem liveAt_token {s : State} {k : ℕ} (h : liveAt s k = true) :
    ∃ token, TokenAt s.cells k token ∧ token.tenantId = "acme" ∧ token.isLive s.clock = true := by
  obtain ⟨row, hrow, h⟩ := (Option.any_eq_true _ _).mp h
  obtain ⟨c, hc, hcommitted⟩ := Option.bind_eq_some_iff.mp hrow
  obtain ⟨token, htoken, hlive⟩ := (Option.any_eq_true _ _).mp h
  cases row with
  | setupToken token' =>
    cases htoken
    rw [Bool.and_eq_true, decide_eq_true_eq] at hlive
    exact ⟨token, ⟨c, hc, hcommitted⟩, hlive⟩
  | tenantUser user | authAccount account => cases htoken

theorem two_live_tokens : ¬ ∀ (s₀ s : State), Idle s₀ → UniqueHashes s₀.cells → AtMostOneLive s₀ →
    Reach (step plainConfig) (fun _ _ => True) s₀ s → AtMostOneLive s := by
  intro hall
  have hrun : (runAll (step plainConfig) acme generateTwice).any
      (fun s => liveAt s 2 && liveAt s 3) = true := by
    decide +kernel
  obtain ⟨s, hs, h⟩ := (Option.any_eq_true _ _).mp hrun
  obtain ⟨h₂, h₃⟩ := Bool.and_eq_true_iff.mp h
  obtain ⟨token, ht, htenant, hlive⟩ := liveAt_token h₂
  obtain ⟨token', ht', htenant', hlive'⟩ := liveAt_token h₃
  have hreach : Reach (step plainConfig) (fun _ _ => True) acme s :=
    .of_runAll (.of_labels (fun _ _ _ => trivial) _) hs
  have hone := hall acme s acme_idle acme_uniqueHashes acme_atMostOneLive hreach
  cases hone 2 3 token token' ht ht' (htenant.trans htenant'.symm) hlive hlive'

end Flexi.Tenants.SetupLink
