import Flexi.Accounts.InviteTokens
import Flexi.Accounts.ServedAlone
import Flexi.Library.Protocol

/-!
# The invite requests in any order

Requests that send, resend, withdraw and redeem invites run together. A member has one
pending invite at most, and the token of an invite that is not pending, or whose time was
up when a redemption read its clock, is never redeemed.
-/

namespace Flexi.Accounts
open Flexi.Library

def Request.aboutInvites : Request → Bool
  | createInvites _ _ | resendInvite _ _ | revokeInvite _ _ | redeemInvite _ => true
  | _ => false

/-- Only requests about invites arrive. -/
def Server.invitesOnly (_ : Server) : ServerEvent → Prop
  | .arrive r _ => r.aboutInvites = true
  | _ => True

/-! ### The invite of a token -/

/-- The redemption of a token looks its invite up and acts on it alone. -/
def tokenLookup (tokenHash : String) : Lookup Op Op.Res Context ServiceError Response UserInvite where
  finds
    | .findInviteByToken h, .ok found => if h = tokenHash then found.map (·.1) else none
    | _, _ => none
  before op := op.invite? = none
  next invite p := Makes (fun op => ∀ x, op.invite? = some x → x = invite) p

section
variable {cfg : Config} {outside : Outside} {db : Database} {op : Op}

theorem redeemInvite_readsToken (dto : RedeemUserInviteDto) :
    (redeemInvite cfg dto).LooksUp (tokenLookup (cfg.sha256 dto.token)) := by
  unfold redeemInvite
  split
  · exact .throw
  · refine .skip (assertPasswordMeetsPolicy_makes (H := fun _ => False)) (fun _ h => h.elim)
      fun _ => ?_
    dsimp only
    split
    · exact .throw
    · refine .skip (H := fun op => ∃ ps, op = .hash ps) (makes_request ⟨_, rfl⟩) ?_ fun hash => ?_
      · intro op ⟨ps, he⟩
        subst he
        exact ⟨rfl, fun _ => rfl⟩
      · refine .skip (makes_now (H := fun _ => False)) (fun _ h => h.elim) fun redeemedAt => ?_
        refine .await rfl (fun found invite hfound => ?_) (fun found hnone => ?_) fun _ => rfl
        · cases found with
          | none => simp [tokenLookup] at hfound
          | some found =>
            obtain ⟨x, active⟩ := found
            have hx : x = invite := by simpa [tokenLookup] using hfound
            subst hx
            show Makes (fun op => ∀ y, op.invite? = some y → y = x) _
            dsimp only
            split
            · exact makes_fail
            · exact redeemPending_next.1
        · cases found with
          | none => exact .throw
          | some found => simp [tokenLookup] at hnone

theorem Op.perform_findsToken {tokenHash : String} {invite : UserInvite}
    (hfound : (tokenLookup tokenHash).finds op (op.perform cfg outside db).1 = some invite) :
    (op.perform cfg outside db).2.inviteOfToken tokenHash = some invite := by
  rcases Op.perform_cases cfg outside op db with ⟨-, e, he⟩ | heffect
  · rw [he] at hfound
    cases op <;> cases hfound
  · rw [heffect] at hfound ⊢
    cases op with
    | findInviteByToken h =>
      simp only [tokenLookup, Op.effect] at hfound
      split at hfound
      · rename_i heq
        subst heq
        cases hfind : db.userInvites.find? fun row => decide (row.tokenHash = h) with
        | none =>
          rw [hfind] at hfound
          cases hfound
        | some row =>
          rw [hfind] at hfound
          cases hfound
          exact hfind
      · cases hfound
    | _ => cases hfound

/-! ### The clock of a redemption -/

/-- A redemption reads its clock once, after it has hashed the password. -/
def stamping : Protocol Op Op.Res Context ServiceError (Option ℕ) where
  allows q
    | .hash _ => q = none
    | .redeemInvite _ _ _ _ now => q = some now
    | _ => True
  next q _ _ := q
  reads q c := q.orElse fun _ => some c.now
  ends _ := True

theorem redeemPending_stamped {invite : UserInvite} {hash fullName : String} {redeemedAt : ℕ} :
    (redeemPending invite hash fullName redeemedAt).Keeps stamping (fun _ _ => True) (some redeemedAt) := by
  unfold redeemPending
  cases invite.tenantUserId with
  | none => exact .throw trivial
  | some userId =>
    refine .bind (Q := fun _ q => q = some redeemedAt) (.await trivial (fun _ => rfl) fun _ => trivial) ?_
    intro user q hq
    subst hq
    cases user with
    | none => exact .throw trivial
    | some user =>
      refine .bind (Q := fun _ q => q = some redeemedAt) (.await rfl (fun _ => rfl) fun _ => trivial) ?_
      intro consumed q hq
      cases consumed
      · exact .throw trivial
      · exact .pure trivial

theorem redeemInvite_stamped (dto : RedeemUserInviteDto) :
    (redeemInvite cfg dto).Keeps stamping (fun _ _ => True) none := by
  unfold redeemInvite
  split
  · exact .throw trivial
  · refine .bind (Q := fun _ q => q = none) ?_ fun _ q hq => ?_
    · unfold assertPasswordMeetsPolicy
      dsimp only
      split
      · exact .pure rfl
      · exact .throw trivial
    · subst hq
      dsimp only
      split
      · exact .throw trivial
      · refine .bind (Q := fun _ q => q = none) (.await rfl (fun _ => rfl) fun _ => trivial) ?_
        intro hash q hq
        subst hq
        refine .bind (Q := fun redeemedAt q => q = some redeemedAt) (.bind (.read fun c => rfl) ?_) ?_
        · exact fun c q hq => .pure hq.symm
        · intro redeemedAt q hq
          subst hq
          refine .bind (Q := fun _ q => q = some redeemedAt) (.await trivial (fun _ => rfl) fun _ => trivial) ?_
          intro found q hq
          subst hq
          cases found with
          | none => exact .throw trivial
          | some found =>
            obtain ⟨invite, active⟩ := found
            dsimp only
            split
            · exact .throw trivial
            · exact redeemPending_stamped

end

/-! ### What holds all along -/

/-- Where the requests about invites stand. -/
structure Server.InviteRun (cfg : Config) (s : Server) : Prop where
  code : s.FromCode cfg
  about : ∀ (i : ℕ) (f : InFlight), s.requests[i]? = some f → f.request.aboutInvites = true
  keyed : s.db.MembersKeyed
  members : s.db.Identified
  onePending : s.db.OnePending
  reads : s.Follow Request.onInvite inviteLookup
    (fun invite db => ∃ row ∈ db.userInvites, invite.Same row) Handles
  tokens : ∀ tokenHash,
    s.Follow (fun r => ∃ dto, r = .redeemInvite dto ∧ cfg.sha256 dto.token = tokenHash) (tokenLookup tokenHash)
      (fun invite db => ∃ row, db.inviteOfToken tokenHash = some row ∧ invite.Same row)
      fun invite t => t.Calls fun op => ∀ x, op.invite? = some x → x = invite

namespace Server.InviteRun

variable {cfg : Config} {s s' : Server}

theorem of_idle (h₀ : s.Idle) (hkeyed : s.db.MembersKeyed) (hmembers : s.db.Identified)
    (hone : s.db.OnePending) : s.InviteRun cfg where
  code := h₀.fromCode
  about i f hf := by
    rw [h₀] at hf
    cases hf
  keyed := hkeyed
  members := hmembers
  onePending := hone
  reads := .of_idle h₀
  tokens _ := .of_idle h₀

section
variable {i : ℕ} {r : Request} {op : Op} {k : Except ServiceError op.Res → Service Response}

theorem makes (h : s.InviteRun cfg) (hi : s.requests[i]? = some ⟨r, .awaiting op k⟩) :
    r.aboutInvites = true ∧ r.makes op = true :=
  ⟨h.about i _ hi, ((h.code i _ hi).calls (Request.code_makes cfg r)).op rfl⟩

theorem not_hardDelete (h : s.InviteRun cfg) (hi : s.requests[i]? = some ⟨r, .awaiting op k⟩) :
    ∀ source target now, op ≠ .hardDelete source target now := by
  rintro source target now rfl
  obtain ⟨habout, hmakes⟩ := h.makes hi
  cases r with
  | deleteUser => cases habout
  | _ => cases hmakes

/-- Who acts on an invite has read it. -/
theorem handles {invite : UserInvite} (h : s.InviteRun cfg)
    (hi : s.requests[i]? = some ⟨r, .awaiting op k⟩) (hop : op.invite? = some invite) :
    (∃ row ∈ s.db.userInvites, invite.Same row) ∧ Handles invite (.awaiting op k) := by
  have hr : r.onInvite := Request.onInvite_of_makes (h.makes hi).2 hop
  cases h.reads i _ hi hr with
  | looking hlooks =>
    have hnone : op.invite? = none := hlooks.1
    rw [hnone] at hop
    cases hop
  | past hsame hq =>
    cases hq.calls.1 invite hop
    exact ⟨hsame, hq⟩

theorem redeems_token {invite : UserInvite} {dto : RedeemUserInviteDto} (h : s.InviteRun cfg)
    (hi : s.requests[i]? = some ⟨.redeemInvite dto, .awaiting op k⟩) (hop : op.invite? = some invite) :
    ∃ row, s.db.inviteOfToken (cfg.sha256 dto.token) = some row ∧ row.id = invite.id := by
  cases h.tokens (cfg.sha256 dto.token) i _ hi ⟨dto, rfl, rfl⟩ with
  | looking hlooks =>
    have hnone : op.invite? = none := hlooks.1
    rw [hnone] at hop
    cases hop
  | past hrow hq =>
    obtain ⟨row, hrow, hsame⟩ := hrow
    cases hq.1 invite hop
    exact ⟨row, hrow, hsame.kept.id⟩

end

theorem stays {e : ServerEvent} (h : s.InviteRun cfg) (hs : s.step cfg e = some s') :
    s.db.InvitesStay s'.db := by
  cases e with
  | arrive r c =>
    obtain ⟨-, rfl⟩ := step_arrive hs
    exact .refl _
  | execute i outside =>
    obtain ⟨r, op, k, hi, rfl⟩ := step_execute hs
    exact Op.perform_invitesStay (h.not_hardDelete hi)
  | deliver i c =>
    obtain ⟨r, op, answer, k, -, rfl⟩ := step_deliver hs
    exact .refl _
  | tick d =>
    cases step_tick hs
    exact .refl _

theorem holds {invite : UserInvite} (h : s.InviteRun cfg)
    (hsame : ∃ row ∈ s.db.userInvites, invite.Same row) : s.db.Holds invite := by
  obtain ⟨row, hrow, hsame⟩ := hsame
  have hholds := h.keyed.holds hrow
  exact ⟨hsame.kept.id ▸ hholds.given, hsame.kept.tenantUserId ▸ hholds.invitee,
    hsame.kept.id ▸ hsame.kept.tenantUserId ▸ hholds.member⟩

theorem step {e : ServerEvent} (h : s.InviteRun cfg) (hok : s.invitesOnly e)
    (hs : s.step cfg e = some s') : s'.InviteRun cfg := by
  constructor
  case code => exact h.code.step hs
  case about =>
    intro j f hf
    cases e with
    | arrive r c =>
      obtain ⟨-, rfl⟩ := step_arrive hs
      rcases getElem?_arrive hf with hf | ⟨rfl, -⟩
      · exact h.about j f hf
      · exact hok
    | execute i outside =>
      obtain ⟨r, op, k, hi, rfl⟩ := step_execute hs
      rcases getElem?_set hf with ⟨-, rfl⟩ | ⟨-, hf⟩
      · exact h.about i ⟨r, .awaiting op k⟩ hi
      · exact h.about j f hf
    | deliver i c =>
      obtain ⟨r, op, answer, k, hi, rfl⟩ := step_deliver hs
      rcases getElem?_set hf with ⟨-, rfl⟩ | ⟨-, hf⟩
      · exact h.about i ⟨r, .answered op answer k⟩ hi
      · exact h.about j f hf
    | tick d =>
      cases step_tick hs
      exact h.about j f hf
  case keyed =>
    refine step_keeps (P := (·.MembersKeyed)) hs h.keyed fun i outside r op k hi => h.keyed.perform ?_
    rintro existing hash exp by' now rfl
    exact h.holds (h.handles hi rfl).1
  case members =>
    exact step_keeps (P := (·.Identified)) hs h.members fun i outside r op k hi => h.members.perform
  case onePending =>
    refine step_keeps (P := (·.OnePending)) hs h.onePending fun i outside r op k hi =>
      h.onePending.perform h.keyed.inviteIds h.keyed.invitees ?_
    rintro existing hash exp by' now rfl
    exact (h.handles hi rfl).1
  case reads =>
    refine h.reads.step hs (fun r hr => Request.code_invite hr) ?_ ?_ ?_ ?_ ?_
    · rintro i outside r op k invite - hi ⟨row, hrow, hsame⟩
      obtain ⟨row', hrow', hsame'⟩ := (Op.perform_invitesStay (h.not_hardDelete hi)).mem hrow
      exact ⟨row', hrow', hsame.trans hsame'⟩
    · intro outside op invite hfound
      refine (Op.perform_invitesStay ?_).mem (Op.perform_findsInvite hfound)
      rintro source target now rfl
      cases hfound
    · exact fun invite p c hp => ⟨Thread.Calls.advance hp.1 c, Thread.Cautious.advance hp.2 c⟩
    · exact fun invite op answer k c hq => ⟨Thread.Calls.advance hq.calls.2 c, hq.member.deliver c⟩
    · intro i outside r op k invite he hr hi hholds hq
      exact ⟨⟨hq.calls.1, hq.calls.2 _ fun _ _ => trivial⟩, hq.member.answer Op.perform_not_mistakes⟩
  case tokens =>
    intro tokenHash
    refine (h.tokens tokenHash).step hs ?_ ?_ ?_ ?_ ?_ ?_
    · rintro r ⟨dto, rfl, rfl⟩
      exact redeemInvite_readsToken dto
    · rintro i outside r op k invite - hi ⟨row, hrow, hsame⟩
      obtain ⟨row', hrow', hsame'⟩ := (Op.perform_invitesStay (h.not_hardDelete hi)).inviteOfToken hrow
      exact ⟨row', hrow', hsame.trans hsame'⟩
    · exact fun outside op invite hfound => ⟨invite, Op.perform_findsToken hfound, .refl invite⟩
    · exact fun invite p c hp => Thread.Calls.advance hp c
    · exact fun invite op answer k c hq => Thread.Calls.advance hq.2 c
    · exact fun i outside r op k invite _ _ _ _ hq => ⟨hq.1, hq.2 _ fun _ _ => trivial⟩

theorem reach (h : s.InviteRun cfg) (hr : Reach (Server.step cfg) Server.invitesOnly s s') :
    s'.InviteRun cfg :=
  hr.invariant (I := fun s => s.InviteRun cfg) h fun _ _ _ _ h hok hs => h.step hok hs

end Server.InviteRun

/-! ### Redemptions -/

def Op.redeemed : (op : Op) → Except ServiceError op.Res → Bool
  | redeemInvite _ _ _ _ _, .ok true => true
  | _, _ => false

/-- The request whose redemption the step executes, and its token. -/
def Server.redeems (cfg : Config) (s : Server) (e : ServerEvent) : Option (ℕ × String) :=
  match s.executed cfg e with
  | some (i, ⟨op, answer⟩) =>
    match s.requests[i]? with
    | some ⟨.redeemInvite dto, _⟩ => if op.redeemed answer then some (i, dto.token) else none
    | _ => none
  | none => none

/-- The token's invite is there and is not pending. -/
def Database.TokenRetired (db : Database) (tokenHash : String) : Prop :=
  ∃ row, db.inviteOfToken tokenHash = some row ∧ row.status ≠ .PENDING

/-- Redemption `i` has not read its clock before `t`. -/
structure Server.StampsFrom (t i : ℕ) (s : Server) : Prop where
  clock : t ≤ s.clock
  thread : ∀ dto thread, s.requests[i]? = some ⟨.redeemInvite dto, thread⟩ →
    ∃ q, thread.Keeps stamping q ∧ ∀ stamp, q = some stamp → t ≤ stamp

namespace Server

variable {cfg : Config} {s s' : Server} {e : ServerEvent} {i : ℕ} {token : String}

theorem redeems_eq_some (h : s.redeems cfg e = some (i, token)) :
    ∃ outside dto invite user hash fullName now k, e = .execute i outside ∧
      s.requests[i]? = some ⟨.redeemInvite dto, .awaiting (.redeemInvite invite user hash fullName now) k⟩ ∧
      dto.token = token ∧ (s.perform cfg outside (.redeemInvite invite user hash fullName now)).1 = .ok true := by
  unfold redeems at h
  split at h
  · rename_i j op answer hexec
    obtain ⟨outside, r, k, rfl, hi, rfl⟩ := executed_eq_some hexec
    rw [hi] at h
    cases r with
    | redeemInvite dto =>
      dsimp only at h
      split at h
      · rename_i hredeemed
        cases h
        cases op with
        | redeemInvite invite user hash fullName now =>
          refine ⟨outside, dto, invite, user, hash, fullName, now, k, rfl, hi, rfl, ?_⟩
          cases hanswer : (s.perform cfg outside (.redeemInvite invite user hash fullName now)).1 with
          | error e =>
            rw [hanswer] at hredeemed
            cases hredeemed
          | ok consumed =>
            cases consumed
            · rw [hanswer] at hredeemed
              cases hredeemed
            · rfl
        | _ => cases hredeemed
      · cases h
    | _ => cases h
  · cases h

namespace InviteRun

/-- A redemption takes the pending invite of its token. -/
theorem redeems_pending {outside : Outside} {dto : RedeemUserInviteDto} {invite : UserInvite}
    {user : TenantUser} {hash fullName : String} {now : ℕ}
    {k : Except ServiceError Bool → Service Response} (h : s.InviteRun cfg)
    (hi : s.requests[i]? = some ⟨.redeemInvite dto, .awaiting (.redeemInvite invite user hash fullName now) k⟩)
    (hanswer : (s.perform cfg outside (.redeemInvite invite user hash fullName now)).1 = .ok true) :
    ∃ row, s.db.inviteOfToken (cfg.sha256 dto.token) = some row ∧ row.status = .PENDING ∧
      now < row.expiresAt ∧ { row with status := .USED, usedAt := some now } ∈
        (s.perform cfg outside (.redeemInvite invite user hash fullName now)).2.userInvites := by
  obtain ⟨row, hrow, hid⟩ := h.redeems_token hi rfl
  obtain ⟨-, old, hold, hid', hpending, hexpires, hused⟩ := Op.perform_redeems (.inr hanswer)
  have hsame : row = old := List.inj_on_of_nodup_map h.keyed.inviteIds.unique
    (List.mem_of_find?_eq_some hrow) hold (hid.trans hid'.symm)
  subst hsame
  exact ⟨row, hrow, hpending, hexpires, hused⟩

theorem redeems_retires (h : s.InviteRun cfg) (hredeems : s.redeems cfg e = some (i, token))
    (hs : s.step cfg e = some s') : s'.db.TokenRetired (cfg.sha256 token) := by
  have hstays := h.stays hs
  obtain ⟨outside, dto, invite, user, hash, fullName, now, k, rfl, hi, rfl, hanswer⟩ :=
    redeems_eq_some hredeems
  obtain ⟨r', op', k', hi', rfl⟩ := step_execute hs
  cases hi.symm.trans hi'
  obtain ⟨row, hrow, -, -, hused⟩ := h.redeems_pending hi hanswer
  obtain ⟨row', hrow', hsame⟩ := hstays.inviteOfToken hrow
  refine ⟨row', hrow', ?_⟩
  have hids : (s.perform cfg outside (.redeemInvite invite user hash fullName now)).2.InviteIds :=
    h.keyed.inviteIds.perform
  have heq : row' = { row with status := .USED, usedAt := some now } :=
    List.inj_on_of_nodup_map hids.unique (List.mem_of_find?_eq_some hrow') hused hsame.kept.id
  rw [heq]
  nofun

theorem retired_stays {y : Server} {tokenHash : String} (h : s.InviteRun cfg)
    (hretired : s.db.TokenRetired tokenHash) (hr : Reach (Server.step cfg) invitesOnly s y) :
    y.db.TokenRetired tokenHash := by
  refine hr.invariant (I := fun s => s.db.TokenRetired tokenHash) hretired fun x x' e hx hretired hok hs => ?_
  obtain ⟨row, hrow, hstatus⟩ := hretired
  obtain ⟨row', hrow', hsame⟩ := ((h.reach hx).stays hs).inviteOfToken hrow
  exact ⟨row', hrow', hsame.kept.retired hstatus⟩

theorem retired_not_redeemed {y : Server} (h : s.InviteRun cfg)
    (hretired : s.db.TokenRetired (cfg.sha256 token)) (hr : Reach (Server.step cfg) invitesOnly s y) :
    y.redeems cfg e ≠ some (i, token) := by
  intro hredeems
  obtain ⟨outside, dto, invite, user, hash, fullName, now, k, rfl, hi, rfl, hanswer⟩ :=
    redeems_eq_some hredeems
  obtain ⟨row, hrow, hpending, -⟩ := (h.reach hr).redeems_pending hi hanswer
  obtain ⟨row', hrow', hstatus⟩ := h.retired_stays hretired hr
  cases hrow.symm.trans hrow'
  exact hstatus hpending

/-! ### Expiry -/

/-- A redemption that is hashing its password has not read its clock. -/
theorem stampsFrom (h : s.InviteRun cfg)
    (hi : ¬ ∃ f, s.requests[i]? = some f ∧ ∀ passwords, f.thread.op? ≠ some (.hash passwords)) :
    s.StampsFrom s.clock i := by
  refine ⟨le_rfl, fun dto thread hf => ⟨none, ?_, nofun⟩⟩
  have hof : thread.Of (redeemInvite cfg dto) := h.code i _ hf
  have hhash : ∃ passwords, thread.op? = some (.hash passwords) := by
    by_contra hno
    exact hi ⟨_, hf, fun passwords hop => hno ⟨passwords, hop⟩⟩
  obtain ⟨passwords, hop⟩ := hhash
  cases thread with
  | awaiting op k =>
    cases hop
    obtain ⟨q, hq⟩ := hof.keeps (redeemInvite_stamped dto)
    have hnone : q = none := hq.allows
    exact hnone ▸ hq
  | answered op answer k =>
    cases hop
    obtain ⟨q, hallows, hq⟩ := Thread.Of.keeps_answered hof (redeemInvite_stamped dto)
    have hnone : q = none := hallows
    exact hnone ▸ hq
  | finished r => cases hop

end InviteRun

theorem StampsFrom.advance {t : ℕ} {q : Option ℕ} {p : Service Response} {c : Context}
    (h : p.Keeps stamping (fun _ => stamping.ends) q) (hq : ∀ stamp, q = some stamp → t ≤ stamp)
    (hc : t ≤ c.now) : ∃ q, (p.advance c).Keeps stamping q ∧ ∀ stamp, q = some stamp → t ≤ stamp := by
  obtain ⟨q', hq', hkeeps⟩ := Thread.Keeps.advance (J := fun q => ∀ stamp, q = some stamp → t ≤ stamp) (c := c)
    h hq fun q hq stamp hstamp => by
      cases q with
      | none =>
        cases hstamp
        exact hc
      | some stamp' => exact hq stamp hstamp
  exact ⟨q', hkeeps, hq'⟩

theorem StampsFrom.step {t : ℕ} (h : s.StampsFrom t i) (hs : s.step cfg e = some s') :
    s'.StampsFrom t i := by
  have hclock := h.clock
  cases e with
  | arrive r c =>
    obtain ⟨-, rfl⟩ := step_arrive hs
    refine ⟨h.clock, fun dto thread hf => ?_⟩
    rcases getElem?_arrive hf with hf | ⟨hf, -⟩
    · exact h.thread dto thread hf
    · cases hf
      exact StampsFrom.advance (redeemInvite_stamped dto) nofun hclock
  | execute j outside =>
    obtain ⟨r, op, k, hj, rfl⟩ := step_execute hs
    refine ⟨h.clock, fun dto thread hf => ?_⟩
    rcases getElem?_set hf with ⟨rfl, heq⟩ | ⟨-, hf⟩
    · cases heq
      obtain ⟨q, hq, hstamp⟩ := h.thread dto _ hj
      exact ⟨q, hq.execute _, hstamp⟩
    · exact h.thread dto thread hf
  | deliver j c =>
    obtain ⟨r, op, answer, k, hj, rfl⟩ := step_deliver hs
    refine ⟨h.clock, fun dto thread hf => ?_⟩
    rcases getElem?_set hf with ⟨rfl, heq⟩ | ⟨-, hf⟩
    · cases heq
      obtain ⟨q, hq, hstamp⟩ := h.thread dto _ hj
      exact StampsFrom.advance hq hstamp hclock
    · exact h.thread dto thread hf
  | tick d =>
    cases step_tick hs
    exact ⟨h.clock.trans (Nat.le_add_right _ d), h.thread⟩

/-- A token that has expired is not redeemed by a request that has yet to read its clock. -/
theorem InviteRun.expired_not_redeemed {y : Server} {row : UserInvite} (h : s.InviteRun cfg)
    (hrow : s.db.inviteOfToken (cfg.sha256 token) = some row) (hexpired : row.expiresAt ≤ s.clock)
    (hr : Reach (Server.step cfg) invitesOnly s y) (hredeems : y.redeems cfg e = some (i, token)) :
    ∃ f, s.requests[i]? = some f ∧ ∀ passwords, f.thread.op? ≠ some (.hash passwords) := by
  by_contra hi
  have hstamps : y.StampsFrom s.clock i :=
    hr.invariant (I := fun y => y.StampsFrom s.clock i) (h.stampsFrom hi) fun _ _ _ _ h _ hs => h.step hs
  have hsame : ∃ row', y.db.inviteOfToken (cfg.sha256 token) = some row' ∧ row.Same row' := by
    refine hr.invariant (I := fun y => ∃ row', y.db.inviteOfToken (cfg.sha256 token) = some row' ∧ row.Same row')
      ⟨row, hrow, .refl row⟩ fun x x' e hx hsame hok hs => ?_
    obtain ⟨row', hrow', hsame⟩ := hsame
    obtain ⟨row'', hrow'', hsame'⟩ := ((h.reach hx).stays hs).inviteOfToken hrow'
    exact ⟨row'', hrow'', hsame.trans hsame'⟩
  obtain ⟨outside, dto, invite, user, hash, fullName, now, k, rfl, hy, rfl, hanswer⟩ :=
    redeems_eq_some hredeems
  obtain ⟨row', hrow', -, hexpires, -⟩ := (h.reach hr).redeems_pending hy hanswer
  obtain ⟨row'', hrow'', hsame⟩ := hsame
  cases hrow'.symm.trans hrow''
  obtain ⟨q, hq, hstamp⟩ := hstamps.thread dto _ hy
  have hle : s.clock ≤ now := hstamp now hq.allows
  have heq := hsame.expiresAt
  omega

end Server

/-! ### Activation -/

/-- The invite is used and was not in `db`. -/
def UserInvite.BecomesUsed (db : Database) (row : UserInvite) : Prop :=
  row.status = .USED ∧ ∀ old ∈ db.userInvites, old.id = row.id → old.status ≠ .USED

theorem Op.perform_usesOne {cfg : Config} {outside : Outside} {db : Database} {invite : UserInvite}
    {user : TenantUser} {hash fullName : String} {now : ℕ} (hids : db.InviteIds)
    (hsame : ∃ row ∈ db.userInvites, invite.Same row) (huser : invite.tenantUserId = some user.id)
    (h : ((redeemInvite invite user hash fullName now).perform cfg outside db).2 ≠ db) :
    ∃! row, row ∈ ((redeemInvite invite user hash fullName now).perform cfg outside db).2.userInvites ∧
      row.tenantUserId = some user.id ∧ row.BecomesUsed db := by
  obtain ⟨-, old, hold, hid, hpending, -, hused⟩ := perform_redeems (.inl h)
  obtain ⟨row, hrow, hsame⟩ := hsame
  have hrowold : row = old :=
    List.inj_on_of_nodup_map hids.unique hrow hold (hsame.kept.id.trans hid.symm)
  subst hrowold
  refine ⟨{ row with status := .USED, usedAt := some now }, ⟨hused, ?_, rfl, ?_⟩, ?_⟩
  · exact hsame.kept.tenantUserId.trans huser
  · intro other hother hid'
    have heq : other = row := List.inj_on_of_nodup_map hids.unique hother hrow hid'
    rw [heq, hpending]
    nofun
  · rintro other ⟨hother, -, hstatus, hbefore⟩
    have hids' : ((redeemInvite invite user hash fullName now).perform cfg outside db).2.InviteIds :=
      hids.perform
    refine List.inj_on_of_nodup_map hids'.unique hother hused ?_
    rcases perform_inviteChange hids hother with hsame' | ⟨before, hmem, -, hrewrites⟩ | ⟨-, -, hcreates⟩
    · exact absurd hstatus (hbefore other hsame' rfl)
    · rcases hrewrites with ⟨hid', -, rfl⟩ | ⟨-, -, rfl⟩
      · exact hid'.trans hid.symm
      · cases hstatus
    · exact hcreates.elim

theorem Server.InviteRun.activation {cfg : Config} {s s' : Server} {e : ServerEvent} {old new : TenantUser}
    (h : s.InviteRun cfg) (hs : s.step cfg e = some s') (hold : old ∈ s.db.tenantUsers)
    (hnew : new ∈ s'.db.tenantUsers) (hid : new.id = old.id) (hbefore : old.status ≠ .ACTIVE)
    (hafter : new.status = .ACTIVE) :
    ∃! row, row ∈ s'.db.userInvites ∧ row.tenantUserId = some old.id ∧ row.BecomesUsed s.db := by
  have unchanged (hmem : new ∈ s.db.tenantUsers) : False := by
    rw [h.members.members.inj hmem hold hid] at hafter
    exact hbefore hafter
  cases e with
  | arrive r c =>
    obtain ⟨-, rfl⟩ := step_arrive hs
    exact (unchanged hnew).elim
  | deliver i c =>
    obtain ⟨r, op, answer, k, -, rfl⟩ := step_deliver hs
    exact (unchanged hnew).elim
  | tick d =>
    cases step_tick hs
    exact (unchanged hnew).elim
  | execute i outside =>
    obtain ⟨r, op, k, hi, rfl⟩ := step_execute hs
    obtain ⟨habout, hmakes⟩ := h.makes hi
    rcases Op.perform_member hnew with hmem | ⟨before, hmem, hrewrites⟩ | ⟨hge, -, -⟩
    · exact (unchanged hmem).elim
    · cases op with
      | redeemInvite invite user hash fullName now =>
        have huser : old.id = user.id := by
          rw [← hid, hrewrites.id]
          exact hrewrites.1
        obtain ⟨hsame, hhandles⟩ := h.handles hi rfl
        have hmember : invite.tenantUserId = some user.id := not_not.mp hhandles.member.not_acts
        rw [huser]
        refine Op.perform_usesOne h.keyed.inviteIds hsame hmember fun hdb => unchanged ?_
        exact hdb ▸ hnew
      | revokeInvite =>
        rw [hrewrites.2] at hafter
        cases hafter
      | approveUser | unlockUser | lockUser | softDelete | updateTenantUser | deactivate | activate =>
        cases r with
        | createInvites | resendInvite | revokeInvite | redeemInvite => cases hmakes
        | _ => cases habout
      | _ => exact hrewrites.elim
    · have hlt := h.members.members.given old hold
      omega

/-! ### The protocol -/

/-- What is promised of a state of a run. -/
structure Server.InviteProtocol (cfg : Config) (s : Server) : Prop where
  onePending : ∀ userId, (s.db.pendingInvites userId).length ≤ 1
  once : ∀ {e s' y e' i j token token'}, s.invitesOnly e → s.redeems cfg e = some (i, token) →
    s.step cfg e = some s' → Reach (Server.step cfg) Server.invitesOnly s' y →
    y.redeems cfg e' = some (j, token') → cfg.sha256 token' ≠ cfg.sha256 token
  activation : ∀ {e s' old new}, s.step cfg e = some s' → old ∈ s.db.tenantUsers →
    new ∈ s'.db.tenantUsers → new.id = old.id → old.status ≠ .ACTIVE → new.status = .ACTIVE →
    ∃! row, row ∈ s'.db.userInvites ∧ row.tenantUserId = some old.id ∧ row.BecomesUsed s.db
  withdrawn : ∀ {e s' i op answer inviteId}, s.executed cfg e = some (i, ⟨op, answer⟩) →
    op.withdraws answer = some inviteId → s.step cfg e = some s' →
    ∀ row ∈ s'.db.userInvites, row.id = inviteId → row.status ≠ .PENDING
  retired : ∀ {row token y e i}, s.db.inviteOfToken (cfg.sha256 token) = some row → row.status ≠ .PENDING →
    Reach (Server.step cfg) Server.invitesOnly s y → y.redeems cfg e ≠ some (i, token)
  expired : ∀ {row token y e i}, s.db.inviteOfToken (cfg.sha256 token) = some row →
    row.expiresAt ≤ s.clock → Reach (Server.step cfg) Server.invitesOnly s y →
    y.redeems cfg e = some (i, token) →
    ∃ f, s.requests[i]? = some f ∧ ∀ passwords, f.thread.op? ≠ some (.hash passwords)

theorem invite_protocol {cfg : Config} {s₀ s : Server} (h₀ : s₀.Idle) (hkeyed : s₀.db.MembersKeyed)
    (hmembers : s₀.db.Identified) (hone : s₀.db.OnePending)
    (hr : Reach (Server.step cfg) Server.invitesOnly s₀ s) : s.InviteProtocol cfg := by
  have h : s.InviteRun cfg := (Server.InviteRun.of_idle h₀ hkeyed hmembers hone).reach hr
  constructor
  case onePending => exact fun userId => h.onePending.length h.keyed.inviteIds userId
  case once =>
    intro e s' y e' i j token token' hok hredeems hs hr' hredeems' heq
    have hretired : s'.db.TokenRetired (cfg.sha256 token') := heq ▸ h.redeems_retires hredeems hs
    exact (h.step hok hs).retired_not_redeemed hretired hr' hredeems'
  case activation =>
    intro e s' old new hs hold hnew hid hbefore hafter
    exact h.activation hs hold hnew hid hbefore hafter
  case withdrawn =>
    intro e s' i op answer inviteId hexec hwithdraws hs
    obtain ⟨outside, r, k, rfl, hi, rfl⟩ := Server.executed_eq_some hexec
    obtain ⟨r', op', k', hi', rfl⟩ := Server.step_execute hs
    cases hi.symm.trans hi'
    exact Op.perform_withdraws h.keyed.inviteIds hwithdraws
  case retired =>
    intro row token y e i hrow hstatus hr'
    exact h.retired_not_redeemed ⟨row, hrow, hstatus⟩ hr'
  case expired =>
    intro row token y e i hrow hexpired hr' hredeems
    exact h.expired_not_redeemed hrow hexpired hr' hredeems

/-! ### Carol's invite -/

theorem acme_onePending : acme.db.OnePending :=
  fun _ ha => nomatch ha

def annInvites : ServerEvent :=
  .arrive (.createInvites ⟨["carol@acme.io"], none⟩ ann) (acmeContext "")

def carolRedeems : ServerEvent :=
  .arrive (.redeemInvite ⟨"carol@acme.io", "Carol", "Carol-Secret-12", "Carol-Secret-12"⟩) (acmeContext "")

/-- `Server.invitesOnly` as a test. -/
def arrivesAboutInvites (_ : Server) : ServerEvent → Bool
  | .arrive r _ => r.aboutInvites
  | _ => true

theorem arrivesAboutInvites.invitesOnly {s : Server} {e : ServerEvent}
    (h : arrivesAboutInvites s e = true) : s.invitesOnly e := by
  cases e with
  | arrive r c => exact h
  | _ => trivial

theorem invite_protocol_acme : ∃ s, Reach (Server.step plainConfig) Server.invitesOnly acme s ∧
    s.redeems plainConfig (.execute 1 quiet) = some (1, "carol@acme.io") ∧ s.InviteProtocol plainConfig := by
  have hrun : (runChecked (Server.step plainConfig) arrivesAboutInvites acme
      ([annInvites] ++ acmeCalls 0 5 ++ [carolRedeems] ++ acmeCalls 1 3)).any (fun s =>
        s.redeems plainConfig (.execute 1 quiet) = some (1, "carol@acme.io")) = true := by
    decide +kernel
  obtain ⟨s, hs, h⟩ := (Option.any_eq_true _ _).mp hrun
  have hr : Reach (Server.step plainConfig) Server.invitesOnly acme s :=
    .of_runChecked (fun _ _ => arrivesAboutInvites.invitesOnly) hs
  exact ⟨s, hr, of_decide_eq_true h,
    invite_protocol acme_idle acme_membersKeyed acme_identified acme_onePending hr⟩

/-- Carol's redemption reads its clock in time and writes when her invite has expired. -/
theorem expired_token_redeems : ∃ s row, Reach (Server.step plainConfig) Server.invitesOnly acme s ∧
    s.db.inviteOfToken "carol@acme.io" = some row ∧ row.expiresAt ≤ s.clock ∧
    s.redeems plainConfig (.execute 1 quiet) = some (1, "carol@acme.io") := by
  have hrun : (runChecked (Server.step plainConfig) arrivesAboutInvites acme
      ([annInvites] ++ acmeCalls 0 5 ++ [carolRedeems] ++ acmeCalls 1 1 ++ [.tick INVITE_TOKEN_TTL_MS] ++
        acmeCalls 1 2)).any (fun s =>
        (s.db.inviteOfToken "carol@acme.io").any (fun row => row.expiresAt ≤ s.clock) &&
        s.redeems plainConfig (.execute 1 quiet) = some (1, "carol@acme.io")) = true := by
    decide +kernel
  obtain ⟨s, hs, h⟩ := (Option.any_eq_true _ _).mp hrun
  obtain ⟨hrow, hredeems⟩ := Bool.and_eq_true_iff.mp h
  obtain ⟨row, hrow, hexpired⟩ := (Option.any_eq_true _ _).mp hrow
  exact ⟨s, row, .of_runChecked (fun _ _ => arrivesAboutInvites.invitesOnly) hs, hrow,
    of_decide_eq_true hexpired, of_decide_eq_true hredeems⟩

end Flexi.Accounts
