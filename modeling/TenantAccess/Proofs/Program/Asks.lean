import TenantAccess.Selection.Selector
import TenantAccess.Proofs.Program.Exec

/-!
# What a program may ask

A program asks only certain requests if it does so whatever it is answered, or as long as it is
answered in a certain way.  What every such request keeps, the whole program keeps.
-/

namespace TenantAccess

variable {α β : Type} {A : (r : Request) → r.Reply → Prop} {P : Request → Prop}

def Request.AnyReply : (r : Request) → r.Reply → Prop := fun _ _ ↦ True

namespace Program

/-- As long as the answers are as `A` says, every request satisfies `P`. -/
def Asks (A : (r : Request) → r.Reply → Prop) (P : Request → Prop) : Program α → Prop
  | done _ => True
  | ask r next => P r ∧ ∀ reply, A r reply → (next reply).Asks A P

theorem Asks.bind {p : Program α} {f : α → Program β} (hp : p.Asks A P)
    (hf : ∀ a, (f a).Asks A P) : (p >>= f).Asks A P := by
  induction p with
  | done a => exact hf a
  | ask r next ih => exact ⟨hp.1, fun reply hreply ↦ ih reply (hp.2 reply hreply)⟩

/-- A relation that every request keeps holds from the beginning of a run to its end. -/
theorem Asks.run {R : World → World → Prop} (refl : ∀ w, R w w)
    (trans : ∀ {w w' w''}, R w w' → R w' w'' → R w w'') {env : Surroundings}
    (hstep : ∀ r w, P r → R w (r.perform env w).2) {p : Program α}
    (hp : p.Asks Request.AnyReply P) (w : World) :
    R w (p.run env w).2 := by
  induction p generalizing w with
  | done a => exact refl w
  | ask r next ih => exact trans (hstep r w hp.1) (ih _ (hp.2 _ trivial) _)

end Program

namespace Task

/-- As long as the answers are as `A` says, every request of the task satisfies `P`. -/
def Asks (A : (r : Request) → r.Reply → Prop) (P : Request → Prop) (t : Task α) : Prop :=
  Program.Asks A P t.run

theorem asks_pure (a : α) : (pure a : Task α).Asks A P := trivial

theorem asks_throw (e : Error) : (throw e : Task α).Asks A P := trivial

theorem asks_ask {r : Request} (h : P r) : (ask r).Asks A P := ⟨h, fun _ _ ↦ trivial⟩

theorem Asks.bind {x : Task α} {f : α → Task β} (hx : x.Asks A P) (hf : ∀ a, (f a).Asks A P) :
    (x >>= f).Asks A P := by
  refine Program.Asks.bind hx fun r ↦ ?_
  cases r with
  | ok a => exact hf a
  | error e => exact trivial

theorem Asks.tryCatch {x : Task α} {handler : Error → Task α} (hx : x.Asks A P)
    (hhandler : ∀ e, (handler e).Asks A P) : (tryCatch x handler : Task α).Asks A P := by
  refine Program.Asks.bind hx fun r ↦ ?_
  cases r with
  | ok a => exact trivial
  | error e => exact hhandler e

theorem asks_ofStore (r : Except StoreError α) : (ofStore r).Asks A P := by
  cases r <;> exact trivial

section Typed

variable [Resource α] {now : Timestamp}

theorem asks_decode (object : Json) : (decode (α := α) now object).Asks A P := by
  unfold decode
  cases Resource.decode (α := α) Json.strict now object <;> exact trivial

theorem asks_mapM_decode (objects : List Json) :
    (objects.mapM (decode (α := α) now)).Asks A P := by
  induction objects with
  | nil => exact trivial
  | cons object rest ih =>
    rw [List.mapM_cons]
    exact (asks_decode object).bind fun _ ↦ ih.bind fun _ ↦ asks_pure _

theorem asks_find? {key : ObjectKey} (h : P (.get ⟨Resource.kind α, key⟩)) :
    (find? (α := α) now key).Asks A P := by
  refine (asks_ask h).bind fun reply ↦ ?_
  rcases reply with e | object
  · cases e <;> exact trivial
  · exact (asks_decode object).bind fun _ ↦ trivial

theorem asks_list {params : ListParams} (h : P (.list (Resource.kind α) params)) :
    (list (α := α) now params).Asks A P :=
  (asks_ask h).bind fun reply ↦ (asks_ofStore reply).bind asks_mapM_decode

theorem asks_create {a : α} (h : P (.create (Resource.kind α) (Resource.encode a))) :
    (create now a).Asks A P :=
  (asks_ask h).bind fun reply ↦ (asks_ofStore reply).bind asks_decode

theorem asks_update {a : α} (h : P (.update (Resource.kind α) (Resource.encode a))) :
    (update now a).Asks A P :=
  (asks_ask h).bind fun reply ↦ (asks_ofStore reply).bind asks_decode

end Typed

theorem asks_delete {kind : Kind} {key : ObjectKey} (h : P (.delete ⟨kind, key⟩)) :
    (delete kind key).Asks A P :=
  (asks_ask h).bind asks_ofStore

end Task

/-! ## Tasks that only read -/

def Request.Reads : Request → Prop
  | create .. | update .. | delete _ => False
  | _ => True

theorem Task.Asks.store_eq {t : Task α} (h : t.Asks Request.AnyReply Request.Reads)
    (env : Surroundings) (w : World) : (t.exec env w).2.store = w.store :=
  Program.Asks.run (R := fun w w' ↦ w'.store = w.store) (fun _ ↦ rfl) (fun h h' ↦ h'.trans h)
    (fun r _ hr ↦ by cases r <;> first | rfl | cases hr) h w

namespace Config

/-- The requests on configs and their quotas. -/
def Touches : Request → Prop
  | .get _ | .list .. => True
  | .create kind _ | .update kind _ => kind = .config ∨ kind = .resourceQuota
  | .delete ref => ref.kind = .resourceQuota
  | .review _ | .claims | .publish _ => False

variable (now : Timestamp) (c : Config)

theorem asks_writeStatus (condition : Condition) :
    (c.writeStatus now condition).Asks Request.AnyReply Touches := by
  unfold writeStatus
  split
  · exact Task.asks_update (.inl rfl)
  · exact Task.asks_pure _

theorem asks_ensureQuota : (c.ensureQuota now).Asks Request.AnyReply Touches := by
  unfold ensureQuota
  refine (Task.asks_find? trivial).bind fun o ↦ ?_
  cases o with
  | none => exact (Task.asks_create (.inr rfl)).bind fun _ ↦ Task.asks_pure _
  | some observed =>
    dsimp only
    split
    · exact Task.asks_pure _
    · split
      · exact Task.asks_pure _
      · exact (Task.asks_update (.inr rfl)).bind fun _ ↦ Task.asks_pure _

theorem asks_releaseQuota : (c.releaseQuota now).Asks Request.AnyReply Touches := by
  unfold releaseQuota
  refine (Task.asks_find? trivial).bind fun o ↦ ?_
  cases o with
  | none => exact Task.asks_pure _
  | some quota =>
    dsimp only
    split
    · refine Task.Asks.tryCatch (P := Touches) (Task.asks_delete rfl) fun e ↦ ?_
      split
      · exact Task.asks_pure _
      · exact Task.asks_throw _
    · exact Task.asks_pure _

theorem asks_transition (configs : List Config) :
    (c.transition now configs).Asks Request.AnyReply Touches := by
  unfold transition
  cases c.blocking? configs with
  | none =>
    exact (asks_writeStatus ..).bind fun _ ↦ (asks_ensureQuota ..).bind fun _ ↦ Task.asks_pure _
  | some active =>
    exact (asks_writeStatus ..).bind fun _ ↦ (asks_releaseQuota ..).bind fun _ ↦ Task.asks_pure _

theorem asks_reelect (ns : String) : (reelect now ns).Asks Request.AnyReply Touches := by
  unfold reelect
  refine (Task.asks_list trivial).bind fun configs ↦ ?_
  split
  · refine (asks_transition ..).bind fun decision ↦ ?_
    cases decision <;> exact Task.asks_pure _
  · exact Task.asks_pure _

theorem asks_reconcile (key : ObjectKey) : (reconcile now key).Asks Request.AnyReply Touches := by
  unfold reconcile
  cases key.ns? with
  | none => exact Task.asks_throw _
  | some ns =>
    refine (Task.asks_find? trivial).bind fun o ↦ ?_
    cases o with
    | none => exact asks_reelect ..
    | some config => exact (Task.asks_list trivial).bind fun configs ↦ asks_transition ..

end Config

end TenantAccess
