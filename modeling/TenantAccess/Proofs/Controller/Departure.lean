import TenantAccess.Proofs.Controller.Station

/-!
# Access that a departed tenant leaves behind

A tenant that moves away is remembered in the published claims alone until its event is handled.  A
pass over any other namespace publishes new claims; if another tenant still claims the old namespace,
it is not released either, and nobody visits it again.  This is the only way in which inherited access
is left behind.
-/

namespace TenantAccess

open Store

/-- Inherited access stays up to date while no claimant goes and no inventory and no binding
comes. -/
theorem Store.Current.mono {before after : Store} {ns : String} (h : before.Current ns)
    (hlessens : before.Lessens ns after) (hkept : ∀ t : Tenant, before.Has default t →
      t.inventoryNamespace = ns → after.Has default t) : after.Current ns := by
  rintro now i b ⟨object, hget, hdecode⟩ hns hunset ⟨object', hget', hdecode'⟩ hkey howned subject
    hsubject
  have hbinding : Resource.ref b =
      ⟨.roleBinding, ⟨some ns, bindingName (inventoryRoleName i.metadata.name)⟩⟩ :=
    congrArg (ObjectRef.mk _) hkey
  rw [hbinding] at hget'
  have hgetBinding := hlessens.binding _ _ hget'
  rw [← hbinding] at hgetBinding
  obtain ⟨t, ht, hclaimed, hgrants⟩ := h now i b
    ⟨object, hlessens.inventory _ _ hget, hdecode⟩ hns hunset
    ⟨object', hgetBinding, hdecode'⟩ hkey howned subject hsubject
  exact ⟨t, hkept t ht hclaimed, hclaimed, hgrants⟩

theorem Store.Coherent.current_empty {s : Store} (h : s.Coherent) : s.Current "" := by
  intro now i b hi hns
  obtain ⟨ns, hsome, hne⟩ := i.exists_ns (h.scopeDefect_of_has hi)
  rw [hns] at hsome
  cases hsome
  exact absurd rfl hne

/-- What a pass over `ns` that succeeds makes of a world; `released` are the other namespaces that
it releases. -/
structure PassOutcome (ns : String) (w : World) (released : List String) (w' : World) :
    Prop where
  coherent : w'.store.Coherent
  told : ∃ news, w.store.Told news w'.store
  kept : ∀ t : Tenant, w.store.Has default t → w'.store.Has default t
  lessens : ∀ other, other ≠ ns → w.store.Lessens other w'.store
  records : ∀ tenant other, w'.claims.Records tenant other ↔
    ∃ t : Tenant, w'.store.Has default t ∧ t.metadata.name = tenant ∧ t.inventoryNamespace = other
  contains : ∀ other, w'.claims.contains other ↔
    ∃ t : Tenant, w'.store.Has default t ∧ t.inventoryNamespace = other
  released : ∀ other, other ≠ ns → w.claims.contains other → w'.claims.contains other = false →
    other ∈ released
  current : w'.store.Current ns

theorem passOutcome {env : Surroundings} {now : Timestamp} {ns : String} {w w' : World}
    {released : List String} (h : w.store.Coherent)
    (hwork : ((ReconcileKey.authz ns).work now).exec env w = (.ok released, w')) :
    PassOutcome ns w released w' := by
  obtain ⟨summary, w₁, hrun, hreleased⟩ := Task.exec_bind_eq_ok_iff.1 hwork
  cases hreleased
  obtain ⟨refs, hclaims, honward, hreach, hreleased, hcurrent⟩ := Pass.exec_run_eq_ok h hrun
  have hkept (key : ObjectKey) : w'.store.objects.get? ⟨.tenant, key⟩ =
      w.store.objects.get? ⟨.tenant, key⟩ :=
    Pass.get?_of_not_inReach honward hreach fun hin ↦ hin.1 rfl
  have hmem {t : Tenant} : t ∈ w.store.objectsOf Tenant now .all ↔ w'.store.Has default t := by
    rw [mem_objectsOf_iff h]
    constructor
    · rintro ⟨⟨object, hget, hdecode⟩, -⟩
      exact ⟨object, (hkept _).trans hget, hdecode⟩
    · rintro ⟨object, hget, hdecode⟩
      exact ⟨⟨object, (hkept _).symm.trans hget, hdecode⟩, rfl⟩
  constructor
  case coherent => exact honward.coherent
  case told =>
    obtain ⟨news, hlog⟩ := honward.log
    exact ⟨news, told_of_tenants_eq hlog hkept⟩
  case kept => exact fun t ⟨object, hget, hdecode⟩ ↦ ⟨object, (hkept _).trans hget, hdecode⟩
  case lessens =>
    -- a pass writes no inventory, and no binding in another namespace
    refine fun other hne ↦ ⟨fun key object hget ↦ ?_, fun name object hget ↦ ?_⟩
    · rwa [Pass.get?_of_not_inReach honward hreach fun hin ↦ hin.1 rfl] at hget
    · rwa [Pass.get?_of_not_inReach honward hreach
        fun hin ↦ hne (Option.some.inj (hin.2 rfl))] at hget
  case records =>
    intro tenant other
    rw [hclaims, Claims.publish, Claims.records_ofTenants_iff]
    simp only [hmem]
  case contains =>
    intro other
    rw [hclaims, Claims.publish, Claims.contains_ofTenants_iff]
    simp only [hmem]
  case released =>
    intro other hne hbefore hafter
    rw [hreleased]
    exact List.mem_filter.2 ⟨Claims.mem_releasedSince_iff.2 ⟨hbefore, hafter⟩, by simpa using hne⟩
  case current => exact hcurrent

namespace Station

variable {st st' : Station} {ns : String}

theorem Step.cases (h : st.world.store.Coherent) (hstep : Step st st') :
    (∃ w', st.world.Spared w' ∧ st' = { st with world := w' }) ∨
    (∃ e, st.world.store.log[st.cursor]? = some e ∧ st' = { st with
      queue := (e.keys st.world.claims).foldl WorkQueue.add st.queue
      cursor := st.cursor + 1 }) ∨
    (∃ key, st' = { st with queue := st.queue.add key }) ∨
    (∃ other name queue w', st.queue.take? = some (.config other name, queue) ∧
      st.world.Spared w' ∧ st' = { st with
        world := w'
        queue := queue.done (.config other name) }) ∨
    ∃ other queue released w', st.queue.take? = some (.authz other, queue) ∧
      PassOutcome other st.world released w' ∧ st' = { st with
        world := w'
        queue := ((released.map .authz).foldl WorkQueue.add queue).done (.authz other) } := by
  have hspared {α : Type} {t : Task α} (env : Surroundings) (ht : t.Asks Request.AnyReply Request.Spares) :
      st.world.Spared (t.exec env st.world).2 :=
    Program.Asks.run World.spared_refl World.Spared.trans
      (fun _ w' hr ↦ World.spared_perform env w' hr) ht st.world
  have hwrite (t : Tenant) : Request.Spares (.create .tenant (Resource.encode t)) ∧
      Request.Spares (.update .tenant (Resource.encode t)) :=
    ⟨⟨by decide, by decide, fun _ ↦ ⟨t, rfl⟩⟩, by decide, by decide, fun _ ↦ ⟨t, rfl⟩⟩
  cases hstep with
  | create env now t => exact .inl ⟨_, hspared env (Task.asks_create (hwrite t).1), rfl⟩
  | update env now t => exact .inl ⟨_, hspared env (Task.asks_update (hwrite t).2), rfl⟩
  | delete env key => exact .inl ⟨_, hspared env (Task.asks_delete trivial), rfl⟩
  | deliver env e hnext =>
    rw [exec_handle]
    exact .inr (.inl ⟨e, hnext, rfl⟩)
  | trigger key => exact .inr (.inr (.inl ⟨key, rfl⟩))
  | reconcile env now key queue htake hdone =>
    obtain ⟨released, w', hwork⟩ := hdone
    rw [exec_reconcileNext htake hwork]
    cases key with
    | authz other =>
      exact .inr (.inr (.inr (.inr ⟨other, queue, released, w', htake, passOutcome h hwork, rfl⟩)))
    | config other name =>
      have hconfig := Config.spared_reconcile env now (.namespaced other name) st.world
      obtain ⟨decision, w₁, hreconcile, hnil⟩ := Task.exec_bind_eq_ok_iff.1 hwork
      cases hnil
      rw [hreconcile] at hconfig
      exact .inr (.inr (.inr (.inl ⟨other, name, queue, w', htake, hconfig, rfl⟩)))

/-- What holds between any two steps. -/
structure Sane (st : Station) : Prop where
  coherent : st.world.store.Coherent
  queue : st.queue.Sound
  idle : st.queue.inFlight = []
  cursor : st.cursor ≤ st.world.store.log.toList.length
  /-- A tenant that the published claims do not record is still to be told of, or its namespace is
  to be visited. -/
  known : ∀ t : Tenant, st.world.store.Has default t → t.inventoryNamespace ≠ "" →
    st.world.claims.Records t.metadata.name t.inventoryNamespace ∨
      .authz t.inventoryNamespace ∈ st.queue.dirty ∨
      ∃ e ∈ st.undelivered, e.kind = .tenant ∧
        Event.claimedNamespace e.object = some t.inventoryNamespace

theorem Sane.undelivered_eq (h : Sane st) {news : List Event} {w' : World}
    (htold : st.world.store.Told news w'.store) (queue : WorkQueue ReconcileKey) :
    undelivered { st with world := w', queue } = st.undelivered ++ news :=
  undelivered_append h.cursor htold.log

theorem has_tenant_cases {before after : Store} {news : List Event} (h : before.Told news after)
    {t : Tenant} (ht : after.Has default t) (hne : t.inventoryNamespace ≠ "") :
    before.Has default t ∨ ∃ e ∈ news, e.kind = .tenant ∧
      Event.claimedNamespace e.object = some t.inventoryNamespace := by
  obtain ⟨object, hget, hdecode⟩ := ht
  by_cases hbefore : before.objects.get? (Resource.ref t) = some object
  · exact .inl ⟨object, hbefore, hdecode⟩
  · obtain ⟨⟨t', rfl⟩, e, he, hkind, hobject⟩ := h.gained _ _ hget hbefore
    rw [Resource.decode_encode] at hdecode
    cases hdecode
    refine .inr ⟨e, he, hkind, ?_⟩
    rw [hobject]
    exact Event.claimedNamespace_encode hne

theorem Sane.known_of_spared (h : Sane st) {w' : World} (hspared : st.world.Spared w')
    {queue : WorkQueue ReconcileKey}
    (hdirty : ∀ other, .authz other ∈ st.queue.dirty → .authz other ∈ queue.dirty) {t : Tenant}
    (ht : w'.store.Has default t) (hne : t.inventoryNamespace ≠ "") :
    w'.claims.Records t.metadata.name t.inventoryNamespace ∨
      .authz t.inventoryNamespace ∈ queue.dirty ∨
      ∃ e ∈ undelivered { st with world := w', queue }, e.kind = .tenant ∧
        Event.claimedNamespace e.object = some t.inventoryNamespace := by
  obtain ⟨-, hclaims, ⟨news, htold⟩, -⟩ := hspared h.coherent
  rw [hclaims, h.undelivered_eq htold]
  rcases has_tenant_cases htold ht hne with hbefore | ⟨e, he, htells⟩
  · rcases h.known t hbefore hne with hrecords | hmarked | ⟨e, he, htells⟩
    · exact .inl hrecords
    · exact .inr (.inl (hdirty _ hmarked))
    · exact .inr (.inr ⟨e, List.mem_append_left _ he, htells⟩)
  · exact .inr (.inr ⟨e, List.mem_append_right _ he, htells⟩)

theorem Sane.dirty_take (h : Sane st) {key other : ReconcileKey} {queue : WorkQueue ReconcileKey}
    (htake : st.queue.take? = some (key, queue)) (hne : other ≠ key)
    (hmem : other ∈ st.queue.dirty) : other ∈ queue.dirty :=
  ((h.queue.take htake).2.2.2.1 other).2 ⟨hne, hmem⟩

theorem Sane.queue_done (h : Sane st) {key : ReconcileKey} {queue : WorkQueue ReconcileKey}
    (htake : st.queue.take? = some (key, queue)) (l : List ReconcileKey) :
    ((l.foldl WorkQueue.add queue).done key).Sound ∧
      ((l.foldl WorkQueue.add queue).done key).inFlight = [] := by
  obtain ⟨hsound, hidle, -⟩ := h.queue.done_foldl_add h.idle htake l
  exact ⟨hsound, hidle⟩

theorem Sane.step (h : Sane st) (hstep : Step st st') : Sane st' := by
  -- writes are told of, handling an event marks what it calls for, and a pass publishes all claims
  have hlonger {w' : World} {news : List Event} (htold : st.world.store.Told news w'.store) :
      st.cursor ≤ w'.store.log.toList.length := by
    rw [htold.log, List.length_append]
    exact Nat.le_add_right_of_le h.cursor
  rcases hstep.cases h.coherent with ⟨w', hspared, rfl⟩ | ⟨e, hnext, rfl⟩ | ⟨key, rfl⟩ |
    ⟨other, name, queue, w', htake, hspared, rfl⟩ | ⟨other, queue, released, w', htake, hpass, rfl⟩
  · obtain ⟨hcoherent, -, ⟨news, htold⟩, -⟩ := hspared h.coherent
    exact ⟨hcoherent, h.queue, h.idle, hlonger htold,
      fun t ht hne ↦ h.known_of_spared hspared (fun _ hmem ↦ hmem) ht hne⟩
  · have hcons := undelivered_eq_cons hnext
      ((e.keys st.world.claims).foldl WorkQueue.add st.queue)
    obtain ⟨hlt, -⟩ := Array.getElem?_eq_some_iff.1 hnext
    refine ⟨h.coherent, h.queue.foldl_add _, by simp [h.idle],
      Nat.succ_le_of_lt (by simpa using hlt), fun t ht hne ↦ ?_⟩
    simp only [h.queue.mem_dirty_foldl_add_iff]
    rcases h.known t ht hne with hrecords | hmarked | ⟨e', he', hkind, hclaimed⟩
    · exact .inl hrecords
    · exact .inr (.inl (.inr hmarked))
    · rw [hcons] at he'
      rcases List.mem_cons.1 he' with rfl | he'
      · exact .inr (.inl (.inl (Event.authz_mem_keys_of_claimed hkind hclaimed)))
      · exact .inr (.inr ⟨e', he', hkind, hclaimed⟩)
  · refine ⟨h.coherent, h.queue.add key, by simp [h.idle], h.cursor, fun t ht hne ↦ ?_⟩
    simp only [h.queue.mem_dirty_add_iff]
    exact (h.known t ht hne).imp_right fun hknown ↦ hknown.imp_left .inr
  · obtain ⟨hcoherent, -, ⟨news, htold⟩, -⟩ := hspared h.coherent
    obtain ⟨hsound, hidle⟩ := h.queue_done htake []
    refine ⟨hcoherent, hsound, hidle, hlonger htold, fun t ht hne ↦ ?_⟩
    refine h.known_of_spared hspared (fun a hmem ↦ ?_) ht hne
    rw [WorkQueue.dirty_done]
    exact h.dirty_take htake nofun hmem
  · obtain ⟨news, htold⟩ := hpass.told
    obtain ⟨hsound, hidle⟩ := h.queue_done htake (released.map .authz)
    exact ⟨hpass.coherent, hsound, hidle, hlonger htold,
      fun t ht _ ↦ .inl ((hpass.records _ _).2 ⟨t, ht, rfl, rfl⟩)⟩

/-! ## Namespaces that something still calls for -/

/-- A visit to `ns` is queued, or an event that calls for one is still to be handled. -/
def Awaits (ns : String) (st : Station) : Prop :=
  .authz ns ∈ st.queue.dirty ∨ ∃ e ∈ st.undelivered, .authz ns ∈ e.keys st.world.claims

/-- From `st` to `st'` a pass over another namespace publishes new claims, while an event is still to
be handled of a tenant that is known in `ns` and has left it.  Others still claim `ns`, and no visit to
it is queued. -/
def Overlooks (ns : String) (st st' : Station) : Prop :=
  (∃ other queue, other ≠ ns ∧ st.queue.take? = some (.authz other, queue)) ∧
    .authz ns ∉ st'.queue.dirty ∧
    (∃ t : Tenant, st'.world.store.Has default t ∧ t.inventoryNamespace = ns) ∧
    ∃ e ∈ st.undelivered, e.kind = .tenant ∧ st.world.claims.Records e.metadata.name ns ∧
      ∀ t : Tenant, st'.world.store.Has default t → t.metadata.name = e.metadata.name →
        t.inventoryNamespace ≠ ns

theorem Sane.attended_of_spared (h : Sane st) (hne : ns ≠ "") {w' : World}
    (hspared : st.world.Spared w') {queue : WorkQueue ReconcileKey}
    (hdirty : ∀ other, .authz other ∈ st.queue.dirty → .authz other ∈ queue.dirty)
    (hattended : st.world.store.Current ns ∨ Awaits ns st) :
    w'.store.Current ns ∨ Awaits ns { st with world := w', queue } := by
  obtain ⟨-, hclaims, ⟨news, htold⟩, hlessens⟩ := hspared h.coherent
  have hawaits (hbefore : Awaits ns st) : Awaits ns { st with world := w', queue } := by
    rcases hbefore with hmarked | ⟨e, he, hkeys⟩
    · exact .inl (hdirty ns hmarked)
    · refine .inr ⟨e, ?_, hclaims ▸ hkeys⟩
      rw [h.undelivered_eq htold]
      exact List.mem_append_left _ he
  rcases hattended with hcurrent | hbefore
  · by_cases hkept : ∀ t : Tenant, st.world.store.Has default t → t.inventoryNamespace = ns →
        w'.store.Has default t
    · exact .inl (hcurrent.mono (hlessens ns) hkept)
    · -- the claims, the queue or the log know of the tenant that was lost
      right
      simp only [Classical.not_forall, exists_prop] at hkept
      obtain ⟨t, ht, hclaimed, hlost⟩ := hkept
      obtain ⟨object, hget, hdecode⟩ := id ht
      have hchanged : w'.store.objects.get? (Resource.ref t) ≠ some object :=
        fun hget' ↦ hlost ⟨object, hget', hdecode⟩
      obtain ⟨e, he, hkind, hname⟩ := htold.lost _ object hget hchanged
      rcases h.known t ht (hclaimed ▸ hne) with hrecords | hmarked | ⟨e', he', hkind', hclaimed'⟩
      · refine .inr ⟨e, ?_, Event.authz_mem_keys_of_records hkind ?_⟩
        · rw [h.undelivered_eq htold]
          exact List.mem_append_right _ he
        · rw [hname, ← hclaimed]
          exact hclaims ▸ hrecords
      · exact hawaits (.inl (hclaimed ▸ hmarked))
      · exact hawaits (.inr ⟨e', he', Event.authz_mem_keys_of_claimed hkind' (hclaimed ▸ hclaimed')⟩)
  · exact .inr (hawaits hbefore)

theorem Sane.awaits_of_delivered (h : Sane st) {e : Event}
    (hnext : st.world.store.log[st.cursor]? = some e) (hawaits : Awaits ns st) :
    Awaits ns { st with
      queue := (e.keys st.world.claims).foldl WorkQueue.add st.queue
      cursor := st.cursor + 1 } := by
  have hcons := undelivered_eq_cons hnext
    ((e.keys st.world.claims).foldl WorkQueue.add st.queue)
  simp only [Awaits, h.queue.mem_dirty_foldl_add_iff]
  rcases hawaits with hmarked | ⟨e', he', hkeys⟩
  · exact .inl (.inr hmarked)
  · rw [hcons] at he'
    rcases List.mem_cons.1 he' with rfl | he'
    · exact .inl (.inl hkeys)
    · exact .inr ⟨e', he', hkeys⟩

/-- A pass over another namespace leaves what calls for `ns`, unless it is only the event of a tenant
that the new claims do not know in `ns` any more, while they know another one there. -/
theorem Sane.awaits_or_overlooks_of_pass (h : Sane st) {other : String}
    {queue : WorkQueue ReconcileKey} {released : List String} {w' : World}
    (htake : st.queue.take? = some (.authz other, queue))
    (hpass : PassOutcome other st.world released w') (hother : ns ≠ other) (hawaits : Awaits ns st) :
    let after : Station := { st with
      world := w'
      queue := ((released.map .authz).foldl WorkQueue.add queue).done (.authz other) }
    Awaits ns after ∨ Overlooks ns st after := by
  intro after
  have hdirty (key : ReconcileKey) : key ∈ after.queue.dirty ↔
      key ∈ released.map .authz ∨ key ∈ queue.dirty := by
    rw [WorkQueue.dirty_done, (h.queue.take htake).1.mem_dirty_foldl_add_iff]
  have hreleased (hcontains : st.world.claims.contains ns)
      (hgone : w'.claims.contains ns = false) : .authz ns ∈ after.queue.dirty :=
    (hdirty _).2 (.inl (List.mem_map_of_mem (hpass.released ns hother hcontains hgone)))
  rcases hawaits with hmarked | ⟨e, he, hkeys⟩
  · refine .inl (.inl ((hdirty _).2 (.inr ?_)))
    exact h.dirty_take htake (fun heq ↦ hother (ReconcileKey.authz.inj heq)) hmarked
  obtain ⟨news, htold⟩ := hpass.told
  have hmem : e ∈ after.undelivered := by
    rw [h.undelivered_eq htold]
    exact List.mem_append_left _ he
  rcases Event.authz_mem_keys_cases hkeys with hall | ⟨hkind, hrecords⟩ | ⟨hcontains, hstill⟩
  · exact .inl (.inr ⟨e, hmem, hall _⟩)
  · -- the tenant of the event is known under the new claims, or its namespace is released
    by_cases hrecords' : w'.claims.Records e.metadata.name ns
    · exact .inl (.inr ⟨e, hmem, Event.authz_mem_keys_of_records hkind hrecords'⟩)
    · cases hcontains : w'.claims.contains ns with
      | false => exact .inl (.inl (hreleased (Claims.contains_of_records hrecords) hcontains))
      | true =>
        by_cases hmarked : .authz ns ∈ after.queue.dirty
        · exact .inl (.inl hmarked)
        · refine .inr ⟨⟨other, queue, Ne.symm hother, htake⟩, hmarked,
            (hpass.contains ns).1 hcontains, e, he, hkind, hrecords, fun t ht hname hns ↦ ?_⟩
          exact hrecords' ((hpass.records _ _).2 ⟨t, ht, hname, hns⟩)
  · cases hcontains' : w'.claims.contains ns with
    | false => exact .inl (.inl (hreleased hcontains hcontains'))
    | true => exact .inl (.inr ⟨e, hmem, hstill _ hcontains'⟩)

/-- A namespace without stale access, or that something calls for, stays one, or is overlooked. -/
theorem Sane.attended_step (h : Sane st) (hstep : Step st st') (hne : ns ≠ "")
    (hattended : st.world.store.Current ns ∨ Awaits ns st) :
    st'.world.store.Current ns ∨ Awaits ns st' ∨ Overlooks ns st st' := by
  rcases hstep.cases h.coherent with ⟨w', hspared, rfl⟩ | ⟨e, hnext, rfl⟩ | ⟨key, rfl⟩ |
    ⟨other, name, queue, w', htake, hspared, rfl⟩ | ⟨other, queue, released, w', htake, hpass, rfl⟩
  · have hafter := h.attended_of_spared hne hspared (fun _ hmem ↦ hmem) hattended
    exact hafter.imp_right .inl
  · exact hattended.imp_right fun hawaits ↦ .inl (h.awaits_of_delivered hnext hawaits)
  · refine hattended.imp_right fun hawaits ↦ .inl ?_
    simp only [Awaits, h.queue.mem_dirty_add_iff]
    exact hawaits.imp_left .inr
  · refine (h.attended_of_spared hne hspared (fun a hmem ↦ ?_) hattended).imp_right .inl
    rw [WorkQueue.dirty_done]
    exact h.dirty_take htake nofun hmem
  · by_cases hother : ns = other
    · exact .inl (hother ▸ hpass.current)
    rcases hattended with hcurrent | hawaits
    · exact .inl (hcurrent.mono (hpass.lessens ns hother) fun t ht _ ↦ hpass.kept t ht)
    · exact .inr (h.awaits_or_overlooks_of_pass htake hpass hother hawaits)

/-! ## Runs from a settled state -/

/-- Nothing is left to do: the claims are those of the stored tenants, a pass over any namespace
writes nothing, no key is queued and every event was handled. -/
structure Settled (st : Station) : Prop where
  coherent : st.world.store.Coherent
  published : ∃ version, st.world.claims =
    .ofTenants version (st.world.store.objectsOf Tenant default .all)
  passes : ∀ ns, ∃ env now summary w', (Pass.run now ns).exec env st.world = (.ok summary, w') ∧
    w'.store = st.world.store
  queue : st.queue = {}
  delivered : st.cursor = st.world.store.log.size

inductive Reached (start : Station) : Station → Prop
  | start : Reached start start
  | step {st st' : Station} (h : Reached start st) (hstep : Step st st') : Reached start st'

/-- In the run to `st`, `ns` was overlooked, and since then nothing has called for a visit to it and
its inherited access has stayed out of date. -/
inductive Lapsed (ns : String) (start : Station) : Station → Prop
  | overlook {st st' : Station} (h : Reached start st) (hstep : Step st st')
    (hoverlooks : Overlooks ns st st') (hstale : ¬st'.world.store.Current ns)
    (hcalm : ¬Awaits ns st') : Lapsed ns start st'
  | stay {st st' : Station} (h : Lapsed ns start st) (hstep : Step st st')
    (hstale : ¬st'.world.store.Current ns) (hcalm : ¬Awaits ns st') : Lapsed ns start st'

theorem Settled.sane (h : Settled st) : Sane st where
  coherent := h.coherent
  queue := h.queue ▸ WorkQueue.sound_empty
  idle := by rw [h.queue]
  cursor := by simp [h.delivered]
  known t ht _ := by
    obtain ⟨version, hclaims⟩ := h.published
    refine .inl ?_
    rw [hclaims]
    exact Claims.records_ofTenants_iff.2
      ⟨t, (mem_objectsOf_iff h.coherent).2 ⟨ht, rfl⟩, rfl, rfl⟩

theorem Settled.current (h : Settled st) (ns : String) : st.world.store.Current ns := by
  obtain ⟨env, now, summary, w', hrun, hstore⟩ := h.passes ns
  obtain ⟨-, -, -, -, -, hcurrent⟩ := Pass.exec_run_eq_ok h.coherent hrun
  rwa [hstore] at hcurrent

variable {start : Station}

theorem Reached.sane (hsettled : Settled start) (h : Reached start st) : Sane st := by
  induction h with
  | start => exact hsettled.sane
  | step _ hstep ih => exact ih.step hstep

/-- Along a run inherited access is up to date, or something calls for a visit, or it has lapsed. -/
theorem Reached.attended (hsettled : Settled start) (h : Reached start st) (hne : ns ≠ "") :
    st.world.store.Current ns ∨ Awaits ns st ∨ Lapsed ns start st := by
  induction h with
  | start => exact .inl (hsettled.current ns)
  | @step st st' h hstep ih =>
    by_cases hstale : st'.world.store.Current ns
    · exact .inl hstale
    by_cases hcalm : Awaits ns st'
    · exact .inr (.inl hcalm)
    refine .inr (.inr ?_)
    rcases ih with hcurrent | hawaits | hlapsed
    · rcases (h.sane hsettled).attended_step hstep hne (.inl hcurrent) with h₁ | h₁ | hover
      · exact absurd h₁ hstale
      · exact absurd h₁ hcalm
      · exact .overlook h hstep hover hstale hcalm
    · rcases (h.sane hsettled).attended_step hstep hne (.inr hawaits) with h₁ | h₁ | hover
      · exact absurd h₁ hstale
      · exact absurd h₁ hcalm
      · exact .overlook h hstep hover hstale hcalm
    · exact .stay hlapsed hstep hstale hcalm

theorem Sane.not_awaits (h : Sane st) (hrest : AtRest st) : ¬Awaits ns st := by
  have hdirty := h.queue.dirty_eq_nil (List.isEmpty_iff.1 hrest.2) h.idle
  rintro (hmarked | ⟨e, he, -⟩)
  · simp [hdirty] at hmarked
  · simp [hrest.1] at he

/-- At rest, inherited access in a namespace is that of its current claimants unless the namespace was
overlooked by a pass over another one and nothing has called for a visit since. -/
theorem current_iff_not_lapsed (hsettled : Settled start) (hrun : Reached start st)
    (hrest : AtRest st) (ns : String) :
    st.world.store.Current ns ↔ ¬Lapsed ns start st := by
  constructor
  · intro hcurrent hlapsed
    cases hlapsed with
    | overlook _ _ _ hstale => exact hstale hcurrent
    | stay _ _ hstale => exact hstale hcurrent
  · intro hlapsed
    have hsane := hrun.sane hsettled
    by_cases hne : ns = ""
    · exact hne ▸ hsane.coherent.current_empty
    rcases hrun.attended hsettled hne with hcurrent | hawaits | hlapsed'
    · exact hcurrent
    · exact absurd hawaits (hsane.not_awaits hrest)
    · exact absurd hlapsed' hlapsed

/-! ## A move that is overlooked -/

section Move

theorem settled_of {w : World} {version : Nat} (h : w.store.Coherent)
    (hclaims : w.claims = .ofTenants version (w.store.objectsOf Tenant default .all))
    (hpasses : ∀ ns, ∃ env now summary w', (Pass.run now ns).exec env w = (.ok summary, w') ∧
      w'.store = w.store) : Settled ⟨w, {}, w.store.log.size⟩ :=
  ⟨h, ⟨version, hclaims⟩, hpasses, rfl, rfl⟩

def mover (ns : String) : Tenant :=
  { Tenant.new "mover" ns with developer := .of ["alice"] [] }

def stayer : Tenant := { Tenant.new "stayer" "shop" with developer := .of ["bob"] [] }

/-- Both tenants claim the namespace of an inventory, and a pass ran over it. -/
def sharedWorld : World :=
  let moving := ((Task.create default (mover "shop")).exec quiet {}).2
  let claimed := ((Task.create default stayer).exec quiet moving).2
  let filled := ((Task.create default (Inventory.new "shop" "db")).exec quiet claimed).2
  ((Pass.run default "shop").exec quiet filled).2

def shared : Station := ⟨sharedWorld, {}, sharedWorld.store.log.size⟩

def moved : Station :=
  { shared with world := ((Task.update default (mover "bar")).exec quiet shared.world).2 }

def called : Station := { moved with queue := moved.queue.add (.authz "attic") }

/-- The visit comes before the move is handled. -/
def passedElsewhere : Station :=
  (called.exec (Controller.reconcileNext (.reliable quiet) default)).2

/-- Then the move is handled, and the pass that it calls for has run. -/
def brought : Station :=
  ((passedElsewhere.handleNext quiet).exec
    (Controller.reconcileNext (.reliable quiet) default)).2

def visited : Station := brought.handleNext quiet

theorem derivation_sharedWorld : Derivation sharedWorld.store := by
  refine Derivation.of_reached ?_
  refine .step ?_ (.pass quiet default "shop" numberedUid_ne_empty)
  refine .step ?_ (.create quiet default .inventory (.inr rfl) (Inventory.new "shop" "db")
    numberedUid_ne_empty)
  refine .step ?_ (.create quiet default .tenant (.inl rfl) stayer numberedUid_ne_empty)
  exact .step (.start {} rfl)
    (.create quiet default .tenant (.inl rfl) (mover "shop") numberedUid_ne_empty)

theorem passes_of_among {w : World} {l : List String} (h : Derivation w.store)
    (hpasses : ∀ ns ∈ l, ((Pass.run default ns).exec quiet w).1.isOk ∧
      ((Pass.run default ns).exec quiet w).2.store.version = w.store.version)
    (htenants : ∀ t ∈ w.store.objectsOf Tenant default .all, t.inventoryNamespace ∈ l)
    (hinventories : ∀ i ∈ w.store.objectsOf Inventory default .all, i.ns ∈ l) (ns : String) :
    ∃ env now summary w', (Pass.run now ns).exec env w = (.ok summary, w') ∧
      w'.store = w.store := by
  by_cases hns : ns ∈ l
  · obtain ⟨hok, hversion⟩ := hpasses ns hns
    exact ⟨quiet, default, Pass.exec_run_of_version h.coherent hok hversion⟩
  · have hclaimants : w.store.claimants default ns = [] :=
      List.filter_eq_nil_iff.2 fun t ht hclaimed ↦
        hns (of_decide_eq_true hclaimed ▸ htenants t ht)
    have hnone : w.store.inventoriesIn default ns = [] := by
      refine List.eq_nil_iff_forall_not_mem.2 fun i hi ↦ hns ?_
      obtain ⟨hholds, hi⟩ := h.mem_inventoriesIn_iff.1 hi
      have hlisted := hinventories i ((mem_objectsOf_iff h.coherent).2 ⟨hholds.has default, rfl⟩)
      rwa [Inventory.ns, hi] at hlisted
    exact ⟨quiet, default, Pass.exec_run_of_idle h quiet hclaimants hnone⟩

set_option maxRecDepth 10000 in
theorem pass_sharedWorld (ns : String) : ∃ env now summary w',
    (Pass.run now ns).exec env sharedWorld = (.ok summary, w') ∧
      w'.store = sharedWorld.store := by
  have hpasses : ∀ ns ∈ ["shop"], ((Pass.run default ns).exec quiet sharedWorld).1.isOk ∧
      ((Pass.run default ns).exec quiet sharedWorld).2.store.version =
        sharedWorld.store.version := by decide +kernel
  exact passes_of_among derivation_sharedWorld hpasses (by decide +kernel) (by decide +kernel) ns

set_option maxRecDepth 10000 in
theorem settled_shared : Settled shared := by
  have hclaims : sharedWorld.claims =
      Claims.ofTenants 1 (sharedWorld.store.objectsOf Tenant default .all) := by decide +kernel
  exact settled_of derivation_sharedWorld.coherent hclaims pass_sharedWorld

set_option maxRecDepth 10000 in
theorem reached_passedElsewhere : Reached shared passedElsewhere := by
  have hmove : Step shared moved := .update quiet default (mover "bar")
  have hcall : Step moved called := .trigger (.authz "attic")
  have hreconciles : called.reconciles quiet default := by decide +kernel
  have hpass : Step called passedElsewhere := .reconcileNext hreconciles
  exact .step (.step (.step .start hmove) hcall) hpass

set_option maxRecDepth 10000 in
theorem reached_visited : Reached shared visited := by
  obtain ⟨hfirst, hreconciles, hnext⟩ :
      (passedElsewhere.world.store.log[passedElsewhere.cursor]?).isSome ∧
      (passedElsewhere.handleNext quiet).reconciles quiet default ∧
      (brought.world.store.log[brought.cursor]?).isSome := by decide +kernel
  have hhandle : Step passedElsewhere (passedElsewhere.handleNext quiet) :=
    .handleNext quiet hfirst
  have hbring : Step (passedElsewhere.handleNext quiet) brought := .reconcileNext hreconciles
  have hend : Step brought visited := .handleNext quiet hnext
  exact .step (.step (.step reached_passedElsewhere hhandle) hbring) hend

set_option maxRecDepth 10000 in
theorem atRest_visited : AtRest visited := by
  obtain ⟨hundelivered, hempty⟩ : visited.undelivered.length = 0 ∧ visited.queue.isEmpty := by
    decide +kernel
  exact ⟨List.length_eq_zero_iff.1 hundelivered, hempty⟩

set_option maxRecDepth 10000 in
theorem not_current_visited : ¬visited.world.store.Current "shop" := by
  have hstale : ∃ i ∈ visited.world.store.objectsOf Inventory default .all,
      ∃ b ∈ visited.world.store.objectsOf (Binding .namespaced) default .all,
        i.metadata.ns? = some "shop" ∧ i.spec.authz.isUnset ∧ b.metadata.key =
          ⟨some "shop", bindingName (inventoryRoleName i.metadata.name)⟩ ∧
        b.metadata.isOwnedBy i.metadata.uid ∧ ∃ subject ∈ b.subjects,
          ∀ t ∈ visited.world.store.objectsOf Tenant default .all,
            t.inventoryNamespace = "shop" → ¬t.Grants "shop" subject := by decide +kernel
  have hcoherent := (reached_visited.sane settled_shared).coherent
  obtain ⟨i, hi, b, hb, hns, hunset, hkey, howned, subject, hsubject, hnobody⟩ := hstale
  intro hcurrent
  obtain ⟨t, ht, hclaimed, hgrants⟩ := hcurrent default i b ((mem_objectsOf_iff hcoherent).1 hi).1
    hns hunset ((mem_objectsOf_iff hcoherent).1 hb).1 hkey howned subject hsubject
  exact hnobody t ((mem_objectsOf_iff hcoherent).2 ⟨ht, rfl⟩) hclaimed hgrants

/-- The pass over another namespace overlooked the shared one, which has lapsed. -/
theorem current_iff_not_lapsed_after_move :
    Settled shared ∧ Reached shared visited ∧ AtRest visited ∧
      (visited.world.store.Current "shop" ↔ ¬Lapsed "shop" shared visited) ∧
      Lapsed "shop" shared visited := by
  have hiff := current_iff_not_lapsed settled_shared reached_visited atRest_visited "shop"
  have hlapsed : Lapsed "shop" shared visited :=
    Classical.byContradiction fun hnot ↦ not_current_visited (hiff.2 hnot)
  exact ⟨settled_shared, reached_visited, atRest_visited, hiff, hlapsed⟩

/-- In the end the binding in the shared namespace still names a developer of the tenant that moved
away, though nothing is left to do. -/
theorem stale_of_move_before_pass : Settled shared ∧ Reached shared visited ∧ AtRest visited ∧
    ¬visited.world.store.Current "shop" :=
  ⟨settled_shared, reached_visited, atRest_visited, not_current_visited⟩

end Move

end Station

end TenantAccess
