import TenantAccess.Proofs.Controller.Departure
import TenantAccess.Proofs.Rbac.Idle

/-!
# Edited inventories

An inventory event is dropped where no tenant claims the namespace.  In a settled world an edit that
gives a pass something to write is acted on exactly where some tenant claims the namespace; where none
does, the inventory still has the binding that a departed tenant has left it.
-/

namespace TenantAccess

open Store

/-- Nothing is left to do: the claims are those of the stored tenants, and a pass over any namespace
writes nothing. -/
structure World.Settled (w : World) : Prop where
  coherent : w.store.Coherent
  published : ∃ version, w.claims = .ofTenants version (w.store.objectsOf Tenant default .all)
  passes : ∀ ns, ∃ env now summary w', (Pass.run now ns).exec env w = (.ok summary, w') ∧
    w'.store = w.store

theorem Station.Settled.world {st : Station} (h : st.Settled) : st.world.Settled :=
  ⟨h.coherent, h.published, h.passes⟩

def Store.IsClaimed (s : Store) (ns : String) : Prop :=
  ∃ t : Tenant, s.Has default t ∧ t.inventoryNamespace = ns

namespace World.Settled

variable {w w₁ : World} {env env' : Surroundings} {now later : Timestamp} {ns : String}
  {i stored : Inventory}

theorem contains_iff (h : w.Settled) : w.claims.contains ns ↔ w.store.IsClaimed ns := by
  obtain ⟨version, hclaims⟩ := h.published
  rw [hclaims, Claims.contains_ofTenants_iff]
  simp only [mem_objectsOf_iff h.coherent]
  exact exists_congr fun t ↦ and_congr_left fun _ ↦ and_iff_left rfl

/-- What a pass over a namespace that nobody claims finds of an inventory with a binding is as it
should be, at whatever time it looks. -/
theorem orphaned (h : w.Settled) (hunclaimed : ¬w.store.IsClaimed ns) (hi : w.store.Has now i)
    (hns : i.metadata.ns? = some ns) {object : Json}
    (hbinding : w.store.objects.get? i.bindingRef = some object) :
    Pass.Orphaned w.store later i := by
  obtain ⟨env, earlier, summary, w', hexec, hsame⟩ := h.passes ns
  obtain ⟨document, hget, hdecode⟩ := hi
  -- the inventory as the pass has read it
  obtain ⟨i', hdecode', hmeta, hspec⟩ := Inventory.exists_decode_at hdecode earlier
  have href : Resource.ref i' = Resource.ref i :=
    congrArg (fun m : ObjectMeta ↦ ObjectRef.mk .inventory m.key) hmeta
  have hlisted : i' ∈ w.store.objectsOf Inventory earlier (.inNamespace ns) :=
    (mem_objectsOf_iff h.coherent).2 ⟨⟨document, href ▸ hget, hdecode'⟩,
      ListParams.accepts_inNamespace_iff.2 ((congrArg ObjectMeta.ns? hmeta).trans hns)⟩
  have hbinding' : w.store.objects.get? i'.bindingRef = some object := by
    rw [Inventory.bindingRef, Inventory.ns, hmeta]
    exact hbinding
  have horphaned := Pass.orphaned_of_exec_run h.coherent
    (fun t ht hclaimed ↦ hunclaimed ⟨t, ht, hclaimed⟩) hexec hsame hlisted hbinding'
  have hrole : i'.viewerRole = i.viewerRole := by
    simp only [Inventory.viewerRole, Inventory.ns, hmeta]
  have haccess : i'.viewerBinding (i'.access []) = i.viewerBinding (i.access []) := by
    simp only [Inventory.viewerBinding, Inventory.access, Inventory.ns, hmeta, hspec]
  unfold Pass.Orphaned at horphaned
  rw [hrole, haccess, hmeta] at horphaned
  -- roles and bindings read the same at any time
  exact horphaned

theorem store_run_of_edited (h : w.Settled)
    (hupdate : (Task.update now i).exec env w = (.ok stored, w₁))
    (hunclaimed : ¬w.store.IsClaimed ns) (hunbound : w.store.objects.get? i.bindingRef = none) :
    ((Pass.run later ns).exec env' w₁).2.store = w₁.store := by
  rcases Task.exec_update_cases env now i w with ⟨e, he⟩ | ⟨current, c, hget, hc, hscope, heq⟩
  · rw [he] at hupdate
    cases hupdate
  rw [heq] at hupdate
  cases hupdate
  have hcoherent := h.coherent.update (c := c) hscope w.store.issued
  have hother {ref : ObjectRef} (hne : ref ≠ Resource.ref i) :
      (w.store.recorded .modified (asUpdate w.store c i) w.store.issued).objects.get? ref =
        w.store.objects.get? ref := by
    rw [get?_recorded, ref_asUpdate, if_neg hne]
  have hkind {ref : ObjectRef} (hne : ref.kind ≠ .inventory) :
      (w.store.recorded .modified (asUpdate w.store c i) w.store.issued).objects.get? ref =
        w.store.objects.get? ref := hother fun href ↦ hne (congrArg ObjectRef.kind href)
  refine Pass.store_run_of_orphaned env' hcoherent (fun t ⟨object, hobject, hdecode⟩ hclaimed ↦ ?_)
    fun i' hi' object hbinding ↦ ?_
  · rw [World.store_withStore, hkind (fun htenant ↦ by cases htenant)] at hobject
    exact hunclaimed ⟨t, ⟨object, hobject, hdecode⟩, hclaimed⟩
  · obtain ⟨⟨document, hdocument, hdecode⟩, haccepts⟩ := (mem_objectsOf_iff hcoherent).1 hi'
    have hns' := ListParams.accepts_inNamespace_iff.1 haccepts
    rw [World.store_withStore, hkind (fun hbinding ↦ by cases hbinding)] at hbinding
    by_cases hsame : Resource.ref i' = Resource.ref i
    · -- the edited inventory itself has no binding
      have hkey : i'.metadata.key = i.metadata.key := congrArg ObjectRef.key hsame
      obtain ⟨hnsEq, hname⟩ := ObjectKey.mk.inj hkey
      rw [Inventory.bindingRef, Inventory.ns, hnsEq, hname] at hbinding
      cases hunbound.symm.trans hbinding
    · rw [hother hsame] at hdocument
      obtain ⟨hrole, hbound⟩ := h.orphaned hunclaimed ⟨document, hdocument, hdecode⟩ hns' hbinding
      exact ⟨hrole.congr (hkind fun hrole ↦ by cases hrole),
        hbound.congr (hkind fun hbinding ↦ by cases hbinding)⟩

end World.Settled

section Event

variable {w w₁ : World} {env : Surroundings} {now : Timestamp} {ns : String} {i stored : Inventory}
  {e : Event} {claims : Claims}

theorem exists_event_of_update (hupdate : (Task.update now i).exec env w = (.ok stored, w₁)) :
    ∃ e, w₁.store.log = w.store.log.push e ∧ e.type = .modified ∧ e.ref = Resource.ref i := by
  rcases Task.exec_update_cases env now i w with ⟨e, he⟩ | ⟨current, c, -, -, -, heq⟩
  · rw [he] at hupdate
    cases hupdate
  · rw [heq] at hupdate
    cases hupdate
    exact ⟨_, rfl, rfl, ref_asUpdate ..⟩

theorem claims_eq_of_update (hupdate : (Task.update now i).exec env w = (.ok stored, w₁)) :
    w₁.claims = w.claims := by
  rcases Task.exec_update_cases env now i w with ⟨e, he⟩ | ⟨current, c, -, -, -, heq⟩
  · rw [he] at hupdate
    cases hupdate
  · rw [heq] at hupdate
    cases hupdate
    rfl

theorem Event.authz_mem_keys_iff_of_inventory (h : e.ref = Resource.ref i)
    (hns : i.metadata.ns? = some ns) : .authz ns ∈ e.keys claims ↔ claims.contains ns := by
  have hkind : e.kind = .inventory := congrArg ObjectRef.kind h
  have hmeta : e.metadata.ns? = some ns :=
    (congrArg (fun ref : ObjectRef ↦ ref.key.ns?) h).trans hns
  simp [keys, hkind, hmeta]

end Event

/-- In a settled world, if an edit of an inventory gives a pass something to write, the event of the
edit calls for a pass exactly if some tenant claims the namespace; if none does, the inventory has a
binding. -/
theorem edit_queued_iff_claimed {w w₁ : World} {env env' : Surroundings} {now later : Timestamp}
    {ns : String} {i stored : Inventory} (hsettled : w.Settled) (hns : i.metadata.ns? = some ns)
    (hupdate : (Task.update now i).exec env w = (.ok stored, w₁))
    (hwrites : ((Pass.run later ns).exec env' w₁).2.store ≠ w₁.store) :
    ∃ e, w₁.store.log = w.store.log.push e ∧ e.type = .modified ∧ e.ref = Resource.ref i ∧
      (∀ (watcher : Surroundings) (queue : WorkQueue ReconcileKey) (cursor : Nat), queue.Sound →
        (.authz ns ∈ ((Station.mk w₁ queue cursor).exec
            (Controller.handle (.reliable watcher) [e])).2.queue.dirty ↔
          w.store.IsClaimed ns ∨ .authz ns ∈ queue.dirty)) ∧
      (w.store.IsClaimed ns ∨ ∃ object, w.store.objects.get? i.bindingRef = some object) := by
  obtain ⟨e, hlog, htype, href⟩ := exists_event_of_update hupdate
  refine ⟨e, hlog, htype, href, fun watcher queue cursor hsound ↦ ?_, ?_⟩
  · rw [Station.exec_handle, hsound.mem_dirty_foldl_add_iff,
      Event.authz_mem_keys_iff_of_inventory href hns, claims_eq_of_update hupdate,
      hsettled.contains_iff]
  · cases hbinding : w.store.objects.get? i.bindingRef with
    | some object => exact .inr ⟨object, rfl⟩
    | none =>
      by_cases hclaimed : w.store.IsClaimed ns
      · exact .inl hclaimed
      · exact absurd (hsettled.store_run_of_edited hupdate hclaimed hbinding) hwrites

/-! ## An edit that is dropped -/

section Dropped

theorem exists_of_isOk {α : Type} {r : Except Error α × World} (h : r.1.isOk) :
    ∃ a, r = (.ok a, r.2) := by
  rcases r with ⟨e | a, w⟩
  · cases h
  · exact ⟨a, rfl⟩

def declared (user : String) : Inventory :=
  { Inventory.new "shop" "db" with spec := { authz := .of [user] [] } }

/-- A tenant claims the namespace of the inventory, and a pass ran over it. -/
def tendedWorld : World :=
  let claimed := ((Task.create default (Tenant.new "team" "shop")).exec quiet {}).2
  let filled := ((Task.create default (declared "alice")).exec quiet claimed).2
  ((Pass.run default "shop").exec quiet filled).2

/-- The tenant has moved away, and the passes that this calls for have run. -/
def abandonedWorld : World :=
  let left := ((Task.update default (Tenant.new "team" "bar")).exec quiet tendedWorld).2
  let released := ((Pass.run default "shop").exec quiet left).2
  ((Pass.run default "bar").exec quiet released).2

theorem reached_tendedWorld : Derivation.Reached tendedWorld := by
  refine .step ?_ (.pass quiet default "shop" numberedUid_ne_empty)
  refine .step ?_ (.create quiet default .inventory (.inr rfl) (declared "alice")
    numberedUid_ne_empty)
  exact .step (.start {} rfl)
    (.create quiet default .tenant (.inl rfl) (Tenant.new "team" "shop") numberedUid_ne_empty)

theorem reached_abandonedWorld : Derivation.Reached abandonedWorld := by
  refine .step ?_ (.pass quiet default "bar" numberedUid_ne_empty)
  refine .step ?_ (.pass quiet default "shop" numberedUid_ne_empty)
  exact .step reached_tendedWorld
    (.update quiet default .tenant (.inl rfl) (Tenant.new "team" "bar"))

set_option maxRecDepth 10000 in
theorem settled_tendedWorld : tendedWorld.Settled := by
  have h := Derivation.of_reached reached_tendedWorld
  have hclaims : tendedWorld.claims =
      .ofTenants 1 (tendedWorld.store.objectsOf Tenant default .all) := by decide +kernel
  have hpasses : ∀ ns ∈ ["shop"], ((Pass.run default ns).exec quiet tendedWorld).1.isOk ∧
      ((Pass.run default ns).exec quiet tendedWorld).2.store.version =
        tendedWorld.store.version := by decide +kernel
  exact ⟨h.coherent, ⟨1, hclaims⟩,
    Station.passes_of_among h hpasses (by decide +kernel) (by decide +kernel)⟩

set_option maxRecDepth 10000 in
theorem settled_abandonedWorld : abandonedWorld.Settled := by
  have h := Derivation.of_reached reached_abandonedWorld
  have hclaims : abandonedWorld.claims =
      .ofTenants 3 (abandonedWorld.store.objectsOf Tenant default .all) := by decide +kernel
  have hpasses : ∀ ns ∈ ["shop", "bar"],
      ((Pass.run default ns).exec quiet abandonedWorld).1.isOk ∧
        ((Pass.run default ns).exec quiet abandonedWorld).2.store.version =
          abandonedWorld.store.version := by decide +kernel
  exact ⟨h.coherent, ⟨3, hclaims⟩,
    Station.passes_of_among h hpasses (by decide +kernel) (by decide +kernel)⟩

set_option maxRecDepth 10000 in
/-- Where the namespace is claimed, the edit is acted on. -/
theorem edit_queued_in_tendedWorld :
    let edited := (Task.update default (declared "bob")).exec quiet tendedWorld
    tendedWorld.Settled ∧ edited.1.isOk ∧
      ((Pass.run default "shop").exec quiet edited.2).2.store ≠ edited.2.store ∧
      ∃ e, edited.2.store.log = tendedWorld.store.log.push e ∧
        .authz "shop" ∈ ((Station.mk edited.2 {} 0).exec
          (Controller.handle (.reliable quiet) [e])).2.queue.dirty := by
  intro edited
  obtain ⟨hok, hversion, hcontains⟩ : edited.1.isOk ∧
      ((Pass.run default "shop").exec quiet edited.2).2.store.version ≠
        edited.2.store.version ∧ tendedWorld.claims.contains "shop" := by decide +kernel
  have hwrites : ((Pass.run default "shop").exec quiet edited.2).2.store ≠ edited.2.store :=
    fun hsame ↦ hversion (congrArg Store.version hsame)
  obtain ⟨stored, hstored⟩ := exists_of_isOk hok
  obtain ⟨e, hlog, -, -, hqueued, -⟩ :=
    edit_queued_iff_claimed settled_tendedWorld rfl hstored hwrites
  exact ⟨settled_tendedWorld, hok, hwrites, e, hlog, (hqueued quiet {} 0 WorkQueue.sound_empty).2
    (.inl (settled_tendedWorld.contains_iff.1 hcontains))⟩

set_option maxRecDepth 10000 in
/-- Where the tenant has moved away, a pass would change who may view the inventory, but nothing calls
for one. -/
theorem edit_dropped_in_abandonedWorld :
    let edited := (Task.update default (declared "bob")).exec quiet abandonedWorld
    abandonedWorld.Settled ∧ edited.1.isOk ∧
      ((Pass.run default "shop").exec quiet edited.2).2.store ≠ edited.2.store ∧
      ∃ e, edited.2.store.log = abandonedWorld.store.log.push e ∧
        .authz "shop" ∉ ((Station.mk edited.2 {} 0).exec
          (Controller.handle (.reliable quiet) [e])).2.queue.dirty := by
  intro edited
  obtain ⟨hok, hversion, hcontains⟩ : edited.1.isOk ∧
      ((Pass.run default "shop").exec quiet edited.2).2.store.version ≠
        edited.2.store.version ∧ ¬abandonedWorld.claims.contains "shop" := by decide +kernel
  obtain ⟨stored, hstored⟩ := exists_of_isOk hok
  obtain ⟨e, hlog, -, href⟩ := exists_event_of_update hstored
  refine ⟨settled_abandonedWorld, hok, fun hsame ↦ hversion (congrArg Store.version hsame), e, hlog,
    ?_⟩
  rw [Station.exec_handle, WorkQueue.sound_empty.mem_dirty_foldl_add_iff,
    Event.authz_mem_keys_iff_of_inventory href rfl, claims_eq_of_update hstored]
  simpa using hcontains

end Dropped

end TenantAccess
