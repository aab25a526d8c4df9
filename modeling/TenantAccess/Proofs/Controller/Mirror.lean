import TenantAccess.Proofs.Controller.Station
import TenantAccess.Proofs.Selection.Mirror

/-!
# Controllers that cannot tell stamps

Two controllers whose stores mirror each other queue the same keys, reconcile them in the same order and
fail alike.
-/

namespace TenantAccess

open Resource.Stamped (restamp)

/-- Both controllers have the same to do, on worlds that mirror each other. -/
structure Station.Mirrored (μ : Mirror) (st st' : Station) : Prop where
  world : st.world.Mirrored μ st'.world
  queue : st'.queue = st.queue

namespace Controller

variable {α β γ δ : Type} {μ : Mirror} {now now' : Timestamp} {R : α → β → Prop} {S : γ → δ → Prop}

def Mirrored (μ : Mirror) (R : α → β → Prop) (act : ControllerM (StateM World) α)
    (act' : ControllerM (StateM World) β) : Prop :=
  ∀ st st' : Station, st.Mirrored μ st' →
    (∃ e u u', st.exec act = (.error e, u) ∧ st'.exec act' = (.error e, u') ∧ u.Mirrored μ u') ∨
    ∃ a b u u', st.exec act = (.ok a, u) ∧ st'.exec act' = (.ok b, u') ∧ R a b ∧ u.Mirrored μ u'

theorem mirrored_pure {a : α} {b : β} (h : R a b) : Mirrored μ R (pure a) (pure b) :=
  fun st st' hst ↦ .inr ⟨a, b, st, st', rfl, rfl, h, hst⟩

theorem mirrored_throw (e : Error) : Mirrored μ R (throw e) (throw e) :=
  fun st st' hst ↦ .inl ⟨e, st, st', rfl, rfl, hst⟩

theorem Mirrored.bind {act : ControllerM (StateM World) α} {act' : ControllerM (StateM World) β}
    {k : α → ControllerM (StateM World) γ} {k' : β → ControllerM (StateM World) δ}
    (h : Mirrored μ R act act') (hk : ∀ a b, R a b → Mirrored μ S (k a) (k' b)) :
    Mirrored μ S (act >>= k) (act' >>= k') := by
  intro st st' hst
  rcases h st st' hst with ⟨e, u, u', hexec, hexec', hu⟩ | ⟨a, b, u, u', hexec, hexec', hab, hu⟩
  · rw [Station.exec_bind_of_error hexec, Station.exec_bind_of_error hexec']
    exact .inl ⟨e, u, u', rfl, rfl, hu⟩
  · rw [Station.exec_bind_of_ok hexec, Station.exec_bind_of_ok hexec']
    exact hk a b hab u u' hu

theorem mirrored_perform {t : Task α} {t' : Task β} {f : α → β} (h : Task.Mirrored μ f t t') :
    Mirrored μ (fun a b ↦ b = f a) (perform (.reliable μ.here) t) (perform (.reliable μ.there) t') := by
  intro st st' hst
  rcases h.cases hst.world with ⟨e, v, v', hexec, hexec', hv⟩ | ⟨a, v, v', hexec, hexec', hv⟩
  · exact .inl ⟨e, _, _, Station.exec_perform hexec, Station.exec_perform hexec', hv, hst.queue⟩
  · exact .inr ⟨a, f a, _, _, Station.exec_perform hexec, Station.exec_perform hexec', rfl, hv,
      hst.queue⟩

theorem mirrored_enqueue (keys : List ReconcileKey) :
    Mirrored μ Eq (enqueue keys) (enqueue keys) := by
  intro st st' hst
  refine .inr ⟨(), (), _, _, Station.exec_enqueue st keys, Station.exec_enqueue st' keys, rfl,
    hst.world, ?_⟩
  rw [hst.queue]

theorem mirrored_claims : Mirrored μ (Eq (α := Claims)) (ask (.reliable μ.here) .claims)
    (ask (.reliable μ.there) .claims) :=
  fun st st' hst ↦ .inr ⟨_, _, st, st', rfl, rfl, hst.world.claims.symm, hst⟩

theorem mirrored_attempt (hnow : now' = μ.time now) (key : ReconcileKey) :
    Mirrored μ Eq (attempt (.reliable μ.here) now key) (attempt (.reliable μ.there) now' key) := by
  intro st st' hst
  obtain ⟨hresult, hworld⟩ := ReconcileKey.mirrored_work hnow key st.world st'.world hst.world
  have hverdict : Verdict.ofResult ((key.work now').exec μ.there st'.world).1 =
      Verdict.ofResult ((key.work now).exec μ.here st.world).1 := by
    rw [hresult]
    cases ((key.work now).exec μ.here st.world).1 <;> rfl
  refine .inr ⟨_, _, _, _, rfl, rfl, hverdict.symm, hworld, ?_⟩
  change (Verdict.ofResult ((key.work now').exec μ.there st'.world).1).keys.foldl WorkQueue.add
    st'.queue = (Verdict.ofResult ((key.work now).exec μ.here st.world).1).keys.foldl WorkQueue.add
    st.queue
  rw [hverdict, hst.queue]

theorem mirrored_handle {events events' : List Event}
    (h : ∀ claims : Claims, events'.flatMap (·.keys claims) = events.flatMap (·.keys claims)) :
    Mirrored μ Eq (handle (.reliable μ.here) events) (handle (.reliable μ.there) events') := by
  refine mirrored_claims.bind fun claims _ hclaims ↦ ?_
  rw [← hclaims, h]
  exact mirrored_enqueue _

theorem authzNamespaces_restamp (ρ : Restamping) (claims : Claims) (l : List Inventory) :
    authzNamespaces claims (l.map (restamp ρ)) = authzNamespaces claims l := by
  rw [authzNamespaces, List.filterMap_map]
  rfl

theorem mirrored_resync :
    Mirrored μ Eq (resync (.reliable μ.here) now) (resync (.reliable μ.there) now') := by
  refine (mirrored_perform (Task.Mirrored.bind Pass.mirrored_refresh fun r ↦
    (Task.mirrored_list _).bind fun l ↦ Task.mirrored_pure
      (fun r : Claims × List Inventory ↦ (r.1, r.2.map (restamp μ.toRestamping))) (r.1, l))).bind
    fun r _ hr ↦ ?_
  obtain ⟨claims, inventories⟩ := r
  subst hr
  dsimp only
  rw [authzNamespaces_restamp]
  refine (mirrored_enqueue _).bind fun _ _ _ ↦
    (mirrored_perform (Task.mirrored_list _)).bind fun configs _ hconfigs ↦ ?_
  subst hconfigs
  rw [List.filterMap_map]
  exact (mirrored_enqueue _).bind fun _ _ _ ↦ mirrored_pure rfl

theorem mirrored_bootstrap (config : ControllerConfig) :
    Mirrored μ Eq (bootstrap (.reliable μ.here) now config)
      (bootstrap (.reliable μ.there) now' config) := by
  unfold bootstrap
  split
  · refine (mirrored_perform (Config.mirrored_ensureDefault _)).bind fun _ _ _ ↦ ?_
    exact mirrored_resync.bind fun _ _ _ ↦ mirrored_pure rfl
  · exact mirrored_resync.bind fun _ _ _ ↦ mirrored_pure rfl

/-! ## Following the log -/

theorem mirrored_log : Mirrored μ μ.Logs
    (ExceptT.lift (StateT.lift (Backend.reliable μ.here).log))
    (ExceptT.lift (StateT.lift (Backend.reliable μ.there).log)) :=
  fun st st' hst ↦ .inr ⟨st.world.store.log, st'.world.store.log, st, st', rfl, rfl,
    hst.world.store.log, hst⟩

theorem mirrored_catchUp {onLoss onLoss' : ControllerM (StateM World) Unit}
    (h : Mirrored μ Eq onLoss onLoss') {cursor : Nat} (hcursor : μ.logFrom ≤ cursor) :
    Mirrored μ (fun c c' ↦ c' = c ∧ μ.logFrom ≤ c) (catchUp (.reliable μ.here) onLoss cursor)
      (catchUp (.reliable μ.there) onLoss' cursor) := by
  refine mirrored_log.bind fun log log' hlog ↦ ?_
  have hrest {start : Nat} (hstart : μ.logFrom ≤ start) :
      Mirrored μ (fun c c' ↦ c' = c ∧ μ.logFrom ≤ c)
        (do
          handle (.reliable μ.here) (log.extract start log.size).toList
          return log.size)
        (do
          handle (.reliable μ.there) (log'.extract start log.size).toList
          return log.size) :=
    (mirrored_handle (hlog.flatMap_extract hstart)).bind fun _ _ _ ↦
      mirrored_pure ⟨rfl, hlog.logFrom⟩
  rw [hlog.size]
  -- how much was lost is a matter of the length of the log alone
  generalize watchCapacity = capacity
  split
  · next hloss =>
    have hstart : μ.logFrom ≤ log.size - capacity := by omega
    exact h.bind fun _ _ _ ↦ hrest hstart
  · exact hrest hcursor

theorem mirrored_follow {cursor : Option Nat} (hcursor : ∀ c ∈ cursor, μ.logFrom ≤ c) :
    Mirrored μ (fun o o' ↦ o' = o ∧ ∀ c ∈ o, μ.logFrom ≤ c) (follow (.reliable μ.here) now cursor)
      (follow (.reliable μ.there) now' cursor) := by
  cases cursor with
  | none => exact mirrored_pure ⟨rfl, nofun⟩
  | some cursor =>
    simp only [follow, map_eq_pure_bind]
    refine (mirrored_catchUp (mirrored_resync.bind fun _ _ _ ↦ mirrored_pure rfl)
      (hcursor cursor rfl)).bind fun c c' hc ↦ mirrored_pure ?_
    obtain ⟨rfl, hfrom⟩ := hc
    exact ⟨rfl, fun d hd ↦ Option.some.inj hd ▸ hfrom⟩

/-! ## Settling -/

theorem mirrored_get : Mirrored μ Eq (get : ControllerM (StateM World) _) get :=
  fun st st' hst ↦ .inr ⟨st.queue, st'.queue, st, st', rfl, rfl, hst.queue.symm, hst⟩

theorem mirrored_modify (f : WorkQueue ReconcileKey → WorkQueue ReconcileKey) :
    Mirrored μ Eq (modify f : ControllerM (StateM World) Unit) (modify f) :=
  fun st st' hst ↦ .inr ⟨(), (), { st with queue := f st.queue }, { st' with queue := f st'.queue },
    rfl, rfl, rfl, hst.world, congrArg f hst.queue⟩

theorem mirrored_set (q : WorkQueue ReconcileKey) :
    Mirrored μ Eq (set q : ControllerM (StateM World) _) (set q) :=
  fun st st' hst ↦ .inr ⟨_, _, { st with queue := q }, { st' with queue := q }, rfl, rfl, rfl,
    hst.world, rfl⟩

theorem mirrored_reconcileNext (hnow : now' = μ.time now) :
    Mirrored μ Eq (reconcileNext (.reliable μ.here) now) (reconcileNext (.reliable μ.there) now') := by
  refine mirrored_get.bind fun q _ hq ↦ ?_
  subst hq
  cases q.take? with
  | none => exact mirrored_pure rfl
  | some taken =>
    obtain ⟨key, q⟩ := taken
    refine (mirrored_set q).bind fun _ _ _ ↦ (mirrored_attempt hnow key).bind fun verdict _ hverdict ↦
      (mirrored_modify _).bind fun _ _ _ ↦ ?_
    subst hverdict
    cases verdict with
    | done released => exact mirrored_pure rfl
    | again => exact (mirrored_enqueue [key]).bind fun _ _ _ ↦ mirrored_pure rfl
    | failed e => exact mirrored_throw e

theorem mirrored_settle (hnow : now' = μ.time now) (more : Nat) {cursor : Option Nat}
    (hcursor : ∀ c ∈ cursor, μ.logFrom ≤ c) (processed : Nat) :
    Mirrored μ Eq (settle (.reliable μ.here) now more cursor processed)
      (settle (.reliable μ.there) now' more cursor processed) := by
  -- each round follows the log from a cursor that is not before the start of the mirrored part
  induction more generalizing cursor processed with
  | zero =>
    refine (mirrored_follow hcursor).bind fun _ _ _ ↦ mirrored_get.bind fun q _ hq ↦ ?_
    subst hq
    split
    · exact mirrored_pure rfl
    · exact mirrored_throw _
  | succ more ih =>
    refine (mirrored_follow hcursor).bind fun cursor cursor' hcursor ↦
      (mirrored_reconcileNext hnow).bind fun went _ hwent ↦ ?_
    obtain ⟨rfl, hcursor⟩ := hcursor
    subst hwent
    split
    · exact ih hcursor (processed + 1)
    · exact mirrored_pure rfl

/-- Both controllers reconcile as often until no key is left. -/
theorem mirrored_runUntilIdle (hnow : now' = μ.time now) (config : ControllerConfig) (most : Nat) :
    Mirrored μ Eq (runUntilIdle (.reliable μ.here) now config most)
      (runUntilIdle (.reliable μ.there) now' config most) := by
  have hsubscribe : Mirrored μ (fun o o' ↦ o' = o ∧ ∀ c ∈ o, μ.logFrom ≤ c)
      (ExceptT.lift (StateT.lift (Backend.reliable μ.here).subscribe))
      (ExceptT.lift (StateT.lift (Backend.reliable μ.there).subscribe)) := by
    intro st st' hst
    have hlog := hst.world.store.log
    exact .inr ⟨some st.world.store.log.size, some st'.world.store.log.size, st, st', rfl, rfl,
      ⟨congrArg some hlog.size, fun c hc ↦ Option.some.inj hc ▸ hlog.logFrom⟩, hst⟩
  refine hsubscribe.bind fun cursor _ hcursor ↦ ?_
  obtain ⟨rfl, hcursor⟩ := hcursor
  exact (mirrored_bootstrap config).bind fun _ _ _ ↦ mirrored_settle hnow most hcursor 0

end Controller

end TenantAccess
