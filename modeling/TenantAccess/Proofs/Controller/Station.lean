import TenantAccess.Controller.Basic
import TenantAccess.Proofs.Controller.Claims
import TenantAccess.Proofs.Controller.Told
import TenantAccess.Proofs.Rbac.Inherited
import TenantAccess.Proofs.Schedule.Queue

/-!
# A controller between two steps

Tenants come and go, the controller follows the log one event at a time, and whole reconciles run one
after the other.  Whatever the order, a stored tenant that the published claims do not know yet is
still to be told of.
-/

namespace TenantAccess

open Store

/-- A world, the queue of its controller, and how far the controller has followed the log. -/
structure Station where
  world : World
  queue : WorkQueue ReconcileKey := {}
  cursor : Nat

namespace Station

variable {α β : Type} {env : Surroundings} {now : Timestamp} {st st' : Station} {ns : String}

def undelivered (st : Station) : List Event := st.world.store.log.toList.drop st.cursor

def AtRest (st : Station) : Prop := st.undelivered = [] ∧ st.queue.isEmpty

theorem undelivered_append {news : List Event} {w' : World}
    (hcursor : st.cursor ≤ st.world.store.log.toList.length)
    (hlog : w'.store.log.toList = st.world.store.log.toList ++ news)
    {queue : WorkQueue ReconcileKey} :
    undelivered { st with world := w', queue } = st.undelivered ++ news := by
  rw [undelivered, hlog]
  exact List.drop_append_of_le_length hcursor

theorem undelivered_eq_cons {e : Event} (h : st.world.store.log[st.cursor]? = some e)
    (queue : WorkQueue ReconcileKey) :
    st.undelivered = e :: undelivered { st with queue, cursor := st.cursor + 1 } := by
  obtain ⟨hlt, heq⟩ := Array.getElem?_eq_some_iff.1 h
  have hdrop := List.drop_eq_getElem_cons (l := st.world.store.log.toList) (i := st.cursor)
    (by simpa using hlt)
  rw [undelivered, hdrop, Array.getElem_toList, heq]
  rfl

def exec {α : Type} (act : ControllerM (StateM World) α) (st : Station) :
    Except Error α × Station :=
  let r := (act.run.run st.queue).run st.world
  (r.1.1, { st with queue := r.1.2, world := r.2 })

/-- What may happen next.  Each step has its own time and surroundings.  Writes to tenants may come
to nothing; a reconcile is one that succeeds. -/
inductive Step (st : Station) : Station → Prop
  | create (env : Surroundings) (now : Timestamp) (t : Tenant) :
    Step st { st with world := ((Task.create now t).exec env st.world).2 }
  | update (env : Surroundings) (now : Timestamp) (t : Tenant) :
    Step st { st with world := ((Task.update now t).exec env st.world).2 }
  | delete (env : Surroundings) (key : ObjectKey) :
    Step st { st with world := ((Task.delete .tenant key).exec env st.world).2 }
  /-- The controller handles the oldest event that it has not handled. -/
  | deliver (env : Surroundings) (e : Event) (h : st.world.store.log[st.cursor]? = some e) :
    Step st { (st.exec (Controller.handle (.reliable env) [e])).2 with
      cursor := st.cursor + 1 }
  /-- Something else calls for work. -/
  | trigger (key : ReconcileKey) : Step st { st with queue := st.queue.add key }
  | reconcile (env : Surroundings) (now : Timestamp) (key : ReconcileKey)
    (queue : WorkQueue ReconcileKey) (htake : st.queue.take? = some (key, queue))
    (hdone : ∃ released world, (key.work now).exec env st.world = (.ok released, world)) :
    Step st (st.exec (Controller.reconcileNext (.reliable env) now)).2

def handleNext (env : Surroundings) (st : Station) : Station :=
  match st.world.store.log[st.cursor]? with
  | some e =>
    { (st.exec (Controller.handle (.reliable env) [e])).2 with cursor := st.cursor + 1 }
  | none => st

theorem Step.handleNext (env : Surroundings)
    (h : (st.world.store.log[st.cursor]?).isSome) : Step st (st.handleNext env) := by
  obtain ⟨e, he⟩ := Option.isSome_iff_exists.1 h
  unfold Station.handleNext
  rw [he]
  exact .deliver env e he

def reconciles (env : Surroundings) (now : Timestamp) (st : Station) : Bool :=
  match st.queue.take? with
  | some (key, _) => ((key.work now).exec env st.world).1.isOk
  | none => false

theorem Step.reconcileNext (h : st.reconciles env now) :
    Step st (st.exec (Controller.reconcileNext (.reliable env) now)).2 := by
  unfold reconciles at h
  split at h
  · next key queue htake =>
    refine .reconcile env now key queue htake ?_
    rcases hwork : (key.work now).exec env st.world with ⟨e | released, world⟩
    · rw [hwork] at h
      cases h
    · exact ⟨released, world, rfl⟩
  · cases h

theorem exec_handle (env : Surroundings) (st : Station) (e : Event) :
    (st.exec (Controller.handle (.reliable env) [e])).2 =
      { st with queue := (e.keys st.world.claims).foldl WorkQueue.add st.queue } := by
  have hflat : [e].flatMap (·.keys st.world.claims) = e.keys st.world.claims := by simp
  rw [← hflat]
  rfl

theorem exec_attempt (env : Surroundings) (now : Timestamp) (key : ReconcileKey)
    (queue : WorkQueue ReconcileKey) (w : World) :
    ((Controller.attempt (.reliable env) now key).run.run queue).run w =
      let r := (key.work now).exec env w
      ((.ok (.ofResult r.1), (Verdict.ofResult r.1).keys.foldl WorkQueue.add queue), r.2) := rfl

theorem exec_bind_of_ok {act : ControllerM (StateM World) α}
    {f : α → ControllerM (StateM World) β} {a : α} (h : st.exec act = (.ok a, st')) :
    st.exec (act >>= f) = st'.exec (f a) := by
  rcases hrun : (act.run.run st.queue).run st.world with ⟨⟨result, queue⟩, world⟩
  obtain ⟨hresult, hst⟩ := Prod.mk.inj h
  rw [hrun] at hresult hst
  subst hresult hst
  unfold exec
  rw [ExceptT.run_bind, StateT.run_bind, StateT.run_bind, hrun]
  rfl

theorem exec_bind_of_error {act : ControllerM (StateM World) α}
    {f : α → ControllerM (StateM World) β} {e : Error} (h : st.exec act = (.error e, st')) :
    st.exec (act >>= f) = (.error e, st') := by
  rcases hrun : (act.run.run st.queue).run st.world with ⟨⟨result, queue⟩, world⟩
  obtain ⟨hresult, hst⟩ := Prod.mk.inj h
  rw [hrun] at hresult hst
  subst hresult hst
  unfold exec
  rw [ExceptT.run_bind, StateT.run_bind, StateT.run_bind, hrun]
  rfl

theorem exec_map_of_ok {act : ControllerM (StateM World) α} {f : α → β} {a : α}
    (h : st.exec act = (.ok a, st')) : st.exec (f <$> act) = (.ok (f a), st') := by
  rw [map_eq_pure_bind, exec_bind_of_ok h]
  rfl

theorem exec_perform {t : Task α} {result : Except Error α} {w : World}
    (h : t.exec env st.world = (result, w)) :
    st.exec (Controller.perform (.reliable env) t) = (result, { st with world := w }) := by
  have hperform : st.exec (Controller.perform (.reliable env) t) =
      ((t.exec env st.world).1, { st with world := (t.exec env st.world).2 }) := rfl
  rw [hperform, h]

theorem exec_enqueue (st : Station) (keys : List ReconcileKey) :
    st.exec (Controller.enqueue keys) =
      (.ok (), { st with queue := keys.foldl WorkQueue.add st.queue }) := rfl

theorem exec_get (st : Station) :
    st.exec (get : ControllerM (StateM World) _) = (.ok st.queue, st) := rfl

theorem exec_reconcileNext_of_ok {key : ReconcileKey} {queue : WorkQueue ReconcileKey}
    (htake : st.queue.take? = some (key, queue)) {released : List String} {world : World}
    (hwork : (key.work now).exec env st.world = (.ok released, world)) :
    st.exec (Controller.reconcileNext (.reliable env) now) = (.ok true, { st with
      world
      queue := ((released.map .authz).foldl WorkQueue.add queue).done key }) := by
  have hset : st.exec (set queue : ControllerM (StateM World) _) = (.ok ⟨⟩, { st with queue }) := rfl
  have hattempt : Station.exec (Controller.attempt (.reliable env) now key) { st with queue } =
      (.ok (.done released), { st with
        world
        queue := (released.map ReconcileKey.authz).foldl WorkQueue.add queue }) := by
    rw [Station.exec, exec_attempt, hwork]
    rfl
  unfold Controller.reconcileNext
  rw [exec_bind_of_ok (exec_get st)]
  rw [htake]
  dsimp only
  rw [exec_bind_of_ok hset, exec_bind_of_ok hattempt]
  rfl

theorem exec_reconcileNext {key : ReconcileKey} {queue : WorkQueue ReconcileKey}
    (htake : st.queue.take? = some (key, queue)) {released : List String} {world : World}
    (hwork : (key.work now).exec env st.world = (.ok released, world)) :
    (st.exec (Controller.reconcileNext (.reliable env) now)).2 =
      { st with
        world
        queue := ((released.map .authz).foldl WorkQueue.add queue).done key } :=
  congrArg Prod.snd (exec_reconcileNext_of_ok htake hwork)

end Station

/-! ## What an event calls for -/

namespace Event

variable {e : Event} {claims claims' : Claims} {ns : String}

theorem claimedNamespace_encode {t : Tenant} (h : t.inventoryNamespace ≠ "") :
    claimedNamespace (Resource.encode t) = some t.inventoryNamespace := by
  have hspec : ((Resource.encode t).get? "spec").bind (Json.get? "inventoryNamespace") =
      some (.str t.inventoryNamespace) := rfl
  simp [claimedNamespace, hspec, h]

theorem authz_mem_keys_of_claimed (hkind : e.kind = .tenant)
    (h : claimedNamespace e.object = some ns) : .authz ns ∈ e.keys claims := by
  simp [keys, hkind, h]

theorem authz_mem_keys_of_records (hkind : e.kind = .tenant)
    (h : claims.Records e.metadata.name ns) : .authz ns ∈ e.keys claims := by
  rw [← Claims.mem_namespacesOf_iff] at h
  by_cases hcurrent : claimedNamespace e.object = some ns
  · exact authz_mem_keys_of_claimed hkind hcurrent
  · simp [keys, hkind, h, hcurrent]

/-- What an event calls for depends on the claims only in that they record its tenant, or contain its
namespace. -/
theorem authz_mem_keys_cases (h : .authz ns ∈ e.keys claims) :
    (∀ claims', .authz ns ∈ e.keys claims') ∨
      (e.kind = .tenant ∧ claims.Records e.metadata.name ns) ∨
      (claims.contains ns ∧ ∀ claims', claims'.contains ns → .authz ns ∈ e.keys claims') := by
  cases hkind : e.kind with
  | tenant =>
    by_cases hcurrent : claimedNamespace e.object = some ns
    · exact .inl fun claims' ↦ authz_mem_keys_of_claimed hkind hcurrent
    · simp [keys, hkind, hcurrent, Claims.mem_namespacesOf_iff] at h
      exact .inr (.inl ⟨rfl, h⟩)
  | inventory =>
    simp [keys, hkind] at h
    exact .inr (.inr ⟨h.2, fun claims' hcontains ↦ by simp [keys, hkind, h.1, hcontains]⟩)
  | role =>
    refine .inl fun claims' ↦ ?_
    simpa [keys, hkind] using h
  | roleBinding =>
    refine .inl fun claims' ↦ ?_
    simpa [keys, hkind] using h
  | config => simp [keys, hkind] at h
  | resourceQuota => simp [keys, hkind] at h
  | clusterRole => simp [keys, hkind] at h
  | clusterRoleBinding => simp [keys, hkind] at h

end Event

end TenantAccess
