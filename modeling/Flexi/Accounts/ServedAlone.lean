import Flexi.Accounts.OneAtATime
import Flexi.Accounts.RowIds

/-!
# What a request does when it is served alone

Each guard and each statement is answered by the database as it stands, unless it is hit
by a fault.
-/

namespace Flexi.Accounts
open Flexi.Library

/-- One of the statements is hit by a fault. -/
def Serving.Faults (v : Serving) : Prop := ∃ i, (v.outside i).fault = true

/-- The statements of one request, with nobody else about. -/
def Serving.rules (cfg : Config) (v : Serving) : Rules Op Op.Res Context ServiceError Database where
  sees c := ∃ i, c = v.ctx i
  exec op db db' answer := ∃ i, op.perform cfg (v.outside i) db = (answer, db')
  interfere _ _ := False
  guarantee _ _ := True

section
variable {cfg : Config} {v : Serving}

theorem Serving.served {P : Database → Prop} {Q : Response → Database → Prop}
    {E : ServiceError → Database → Prop} {db : Database}
    (h : Outline (v.rules cfg) P (v.request.code cfg) Q E) (hdb : P db) :
    (∃ r, (v.serve cfg db).1 = .ok r ∧ Q r (v.serve cfg db).2) ∨
      ∃ e, (v.serve cfg db).1 = .error e ∧ E e (v.serve cfg db).2 := by
  have hexec (i : ℕ) (op : Op) (db : Database) : (v.rules cfg).exec op db
      (op.perform cfg (v.outside i) db).2 (op.perform cfg (v.outside i) db).1 :=
    ⟨i, rfl⟩
  have hsees (i : ℕ) : (v.rules cfg).sees (v.ctx i) := ⟨i, rfl⟩
  have hrun := (h db hdb).eval v.ctx _ hsees hexec 0
  unfold Serving.serve
  revert hrun
  cases hserved : (v.request.code cfg).eval v.ctx
      (fun i op db => op.perform cfg (v.outside i) db) 0 db with
  | mk answer db' =>
    cases answer with
    | ok r => exact fun hq => .inl ⟨r, rfl, hq⟩
    | error e => exact fun he => .inr ⟨e, rfl, he⟩

end

/-! ### Rules

From the database `d` on, the request fails only if `F`. -/

section
variable {cfg : Config} {v : Serving} {d : Database} {α β : Type} {Q : α → Database → Prop}
    {E : ServiceError → Database → Prop} {F : Prop}

theorem alone_bind {p : Service β} {f : β → Service α} {G : β → Prop}
    (hp : Outline (v.rules cfg) (· = d) p (fun b db => db = d ∧ G b) fun _ _ => F)
    (hf : ∀ b, G b → Outline (v.rules cfg) (· = d) (f b) Q fun _ _ => F) :
    Outline (v.rules cfg) (· = d) (p >>= f) Q fun _ _ => F :=
  hp.bind fun b db h => hf b h.2 db h.1

theorem alone_fail {e : HttpError} (h : F) :
    Outline (v.rules cfg) (· = d) (fail e : Service α) Q fun _ _ => F :=
  .throw fun _ _ => h

theorem alone_await {op : Op} {G : op.Res → Prop} {d' : Database}
    (hanswer : ∀ outside, ∃ a, op.effect cfg outside d = (.ok a, d') ∧ G a) (hfault : v.Faults → F) :
    Outline (v.rules cfg) (· = d) (request op) (fun a db => G a ∧ db = d') fun _ _ => F := by
  have hstable (P : Database → Prop) : (v.rules cfg).Stable P := fun _ _ _ hno => hno.elim
  refine .await (hstable _) (fun x => hstable _) (fun e => hstable _) ?_ ?_
  · rintro db db' x rfl ⟨i, hx⟩
    rw [Op.perform] at hx
    split at hx
    · cases hx
    · obtain ⟨a, ha, hG⟩ := hanswer (v.outside i)
      cases ha.symm.trans hx
      exact ⟨trivial, hG, rfl⟩
  · rintro db db' e rfl ⟨i, hx⟩
    rw [Op.perform] at hx
    split at hx
    · exact ⟨trivial, hfault ⟨i, ‹_›⟩⟩
    · obtain ⟨a, ha, -⟩ := hanswer (v.outside i)
      cases ha.symm.trans hx

theorem alone_call {op : Op} {f : op.Res → Service α} {G : op.Res → Prop} {d' : Database}
    (hanswer : ∀ outside, ∃ a, op.effect cfg outside d = (.ok a, d') ∧ G a) (hfault : v.Faults → F)
    (hf : ∀ a, G a → Outline (v.rules cfg) (· = d') (f a) Q fun _ _ => F) :
    Outline (v.rules cfg) (· = d) (request op >>= f) Q fun _ _ => F :=
  (alone_await hanswer hfault).bind fun a db h => hf a h.1 db h.2

theorem quiet_call {op : Op} {f : op.Res → Service α} {G : op.Res → Prop} {t : Database}
    (hquiet : ¬ v.Faults) (hanswer : ∀ outside, ∃ a, op.effect cfg outside d = (.ok a, t) ∧ G a)
    (hf : ∀ a, G a → Outline (v.rules cfg) (· = t) (f a) Q E) :
    Outline (v.rules cfg) (· = d) (request op >>= f) Q E := by
  have hcall := alone_await (F := False) hanswer fun hfault => hquiet hfault
  exact (hcall.conseq (fun _ h => h) (fun _ _ h => h) fun _ _ h => h.elim).bind
    fun a db h => hf a h.1 db h.2

theorem alone_request {op : Op} {f : op.Res → Service α} {a : op.Res} {d' : Database}
    (hanswer : ∀ outside, op.effect cfg outside d = (.ok a, d')) (hfault : v.Faults → F)
    (hf : Outline (v.rules cfg) (· = d') (f a) Q fun _ _ => F) :
    Outline (v.rules cfg) (· = d) (request op >>= f) Q fun _ _ => F := by
  refine alone_call (G := (· = a)) (fun outside => ⟨a, hanswer outside, rfl⟩) hfault fun x hx => ?_
  rw [hx]
  exact hf

theorem alone_now {f : ℕ → Service α}
    (hf : ∀ i, Outline (v.rules cfg) (· = d) (f (v.ctx i).now) Q E) :
    Outline (v.rules cfg) (· = d) (now >>= f) Q E := by
  intro db hdb c hc
  obtain ⟨i, rfl⟩ := hc
  exact hf i db hdb

theorem alone_read {f : Context → Service α}
    (hf : ∀ i, Outline (v.rules cfg) (· = d) (f (v.ctx i)) Q E) :
    Outline (v.rules cfg) (· = d) (Prog.read >>= f) Q E := by
  intro db hdb c hc
  obtain ⟨i, rfl⟩ := hc
  exact hf i db hdb

theorem alone_reads {p : Service α} {H : Op → Prop} (h : Makes H p)
    (hH : ∀ op, H op → op.writes = []) :
    Outline (v.rules cfg) (· = d) p (fun _ db => db = d ∧ True) fun _ _ => True := by
  have hstable (P : Database → Prop) : (v.rules cfg).Stable P := fun _ _ _ hno => hno.elim
  have hcalls : Outline (v.rules cfg) (· = d) p (fun _ db => db = d) fun _ db => True ∧ db = d := by
    refine .of_calls h (fun _ _ => trivial) (hstable _) (fun _ _ _ _ _ => trivial) ?_
    rintro op db db' answer hop rfl ⟨i, hx⟩
    have hreads : (op.perform cfg (v.outside i) db).2 = db := Op.perform_reads (hH op hop)
        (v.outside i) db
    rw [hx] at hreads
    exact ⟨trivial, hreads⟩
  exact hcalls.conseq (fun _ h => h) (fun _ _ h => ⟨h, trivial⟩) fun _ _ h => h.1

end

/-! ### The guards -/

/-- The caller's tenant is active. -/
def Database.Admits (db : Database) (user : AuthenticatedUser) : Prop :=
  ∀ tenantId, user.tenantId = some tenantId → tenantId = "" ∨ db.isTenantActive tenantId = true

/-- A user of tenant `tenantId`. -/
def AuthenticatedUser.ActsFor (user : AuthenticatedUser) (tenantId : String) : Prop :=
  user.actorType = .TENANT ∧ user.tenantId = some tenantId ∧ tenantId ≠ ""

section
variable {cfg : Config} {v : Serving} {d : Database} {α : Type} {Q : α → Database → Prop} {F : Prop}
  {user : AuthenticatedUser}

theorem jwtAuthGuard_alone (hfault : v.Faults → F) (hno : ¬ d.Admits user → F) :
    Outline (v.rules cfg) (· = d) (jwtAuthGuard user) (fun _ db => db = d ∧ d.Admits user)
      fun _ _ => F := by
  unfold jwtAuthGuard
  split
  · rename_i hnone
    refine .pure fun db hdb => ⟨hdb, fun t ht => ?_⟩
    cases hnone.symm.trans ht
  · rename_i tenantId hsome
    split
    · rename_i hempty
      refine .pure fun db hdb => ⟨hdb, fun t ht => ?_⟩
      cases hsome.symm.trans ht
      exact .inl hempty
    · rename_i hne
      refine alone_request (a := d.isTenantActive tenantId) (fun _ => rfl) hfault ?_
      split
      · rename_i hactive
        refine .pure fun db hdb => ⟨hdb, fun t ht => ?_⟩
        cases hsome.symm.trans ht
        exact .inr hactive
      · rename_i hinactive
        refine alone_fail (hno fun hadmits => ?_)
        rcases hadmits tenantId hsome with hempty | hactive
        · exact hne hempty
        · exact hinactive hactive

theorem requireTenantActor_alone {message : String} (hno : (∀ t, ¬ user.ActsFor t) → F) :
    Outline (v.rules cfg) (· = d) (requireTenantActor user message)
      (fun tenantId db => db = d ∧ user.ActsFor tenantId) fun _ _ => F := by
  unfold requireTenantActor
  split
  · rename_i tenantId hactor htenant
    split
    · rename_i hempty
      refine alone_fail (hno fun t ht => ?_)
      cases htenant.symm.trans ht.2.1
      exact ht.2.2 hempty
    · rename_i hne
      exact .pure fun db hdb => ⟨hdb, hactor, htenant, hne⟩
  · rename_i hnone
    exact alone_fail (hno fun t ht => hnone t ht.1 ht.2.1)

theorem assertActorPermission_alone {tenantId tenantCode systemCode : String}
    (htenant : user.ActsFor tenantId)
    (hno : user.permissions.contains tenantCode = false → F) :
    Outline (v.rules cfg) (· = d) (assertActorPermission user tenantCode systemCode)
      (fun _ db => db = d ∧ user.permissions.contains tenantCode = true) fun _ _ => F := by
  unfold assertActorPermission
  rw [htenant.1]
  dsimp only
  split
  · rename_i hcode
    exact .pure fun db hdb => ⟨hdb, hcode⟩
  · rename_i hcode
    exact alone_fail (hno (by simpa using hcode))

theorem serve_guarded {Q : Response → Database → Prop} (huser : v.request.user? = some user)
    (hfault : v.Faults → F) (hno : ¬ d.Admits user → F)
    (h : d.Admits user → Outline (v.rules cfg) (· = d) (v.request.handler cfg) Q fun _ _ => F) :
    (∃ r, (v.serve cfg d).1 = .ok r ∧ Q r (v.serve cfg d).2) ∨
      ∃ e, (v.serve cfg d).1 = .error e ∧ F := by
  refine Serving.served (P := (· = d)) (E := fun _ _ => F) ?_ rfl
  unfold Request.code
  rw [huser]
  exact alone_bind (jwtAuthGuard_alone hfault hno) fun _ hadmits => h hadmits

end

/-! ### A small installation -/

/-- A request that meets no fault, at the hour 0. -/
def Request.undisturbed (r : Request) : Serving := ⟨r, fun _ => acmeContext "", fun _ => quiet⟩

theorem acme_identified : acme.db.Identified :=
  ⟨⟨by decide, by decide⟩, ⟨by decide, by decide⟩⟩

end Flexi.Accounts
