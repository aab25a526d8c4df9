import Mathlib.Data.Finset.Union
import Mathlib.Data.List.Nodup
import TenantAccess.Proofs.Controller.Settle
import TenantAccess.Proofs.Manifest.Seeded

/-!
# What a controller looks after

The keys of a store are the namespaces that are claimed or hold an inventory, and the configs.  While
nobody else writes, reconciling one of them creates what is missing for it and leaves the others alone.
-/

namespace TenantAccess

open Store

namespace Store

variable {s after : Store} {ns name : String}

def configKeys (s : Store) : Finset ReconcileKey :=
  (s.objects.keys.filterMap fun ref ↦
    if ref.kind = .config then ref.key.ns?.map (.config · ref.key.name) else none).toFinset

def countOf (kind : Kind) (s : Store) : Nat := s.objects.keys.countP fun ref ↦ ref.kind = kind

theorem mem_configKeys_iff {key : ReconcileKey} : key ∈ s.configKeys ↔
    ∃ ns name, key = .config ns name ∧
      (s.objects.get? ⟨.config, .namespaced ns name⟩).isSome := by
  simp only [configKeys, List.mem_toFinset, List.mem_filterMap, SortedMap.mem_keys_iff]
  constructor
  · rintro ⟨⟨kind, ns?, name⟩, ⟨object, hget⟩, hkey⟩
    split at hkey
    · next hkind =>
      obtain ⟨ns, rfl, rfl⟩ := Option.map_eq_some_iff.1 hkey
      cases hkind
      exact ⟨ns, name, rfl, Option.isSome_iff_exists.2 ⟨object, hget⟩⟩
    · cases hkey
  · rintro ⟨ns, name, rfl, hsome⟩
    exact ⟨_, Option.isSome_iff_exists.1 hsome, rfl⟩

theorem card_configKeys (h : s.Coherent) : s.configKeys.card = s.countOf .config := by
  rw [configKeys, List.toFinset_card_of_nodup, List.length_filterMap_eq_countP, countOf]
  · apply List.countP_congr
    intro ref href
    obtain ⟨object, hget⟩ := SortedMap.mem_keys_iff.1 href
    obtain ⟨m, hm, hkey, -⟩ := h.exists_metaOf hget
    by_cases hkind : ref.kind = .config
    · have hnamespaced : ref.kind.isNamespaced := by
        rw [hkind]
        rfl
      obtain ⟨ns, hns, -⟩ := exists_ns_of_scopeDefect hnamespaced (h.scopeDefect_eq hget hm)
      have hns : ref.key.ns? = some ns := by rw [← hkey]; exact hns
      simp [hkind, hns]
    · simp [hkind]
  · refine List.Nodup.filterMap (fun ref ref' key hkey hkey' ↦ ?_) (SortedMap.nodup_keys _)
    obtain ⟨kind, ns?, name⟩ := ref
    obtain ⟨kind', ns?', name'⟩ := ref'
    simp only [Option.mem_def, Option.ite_none_right_eq_some, Option.map_eq_some_iff] at hkey hkey'
    obtain ⟨rfl, ns, rfl, rfl⟩ := hkey
    obtain ⟨rfl, ns', rfl, heq⟩ := hkey'
    cases heq
    rfl

end Store

namespace Sources

variable {S : Sources} {configs : Finset ReconcileKey} {ns : String}

def namespaces (S : Sources) : Finset String :=
  (S.tenants.map (·.inventoryNamespace) ++ S.inventories.filterMap (·.metadata.ns?)).toFinset

def keys (S : Sources) (configs : Finset ReconcileKey) : Finset ReconcileKey :=
  S.namespaces.image .authz ∪ configs

theorem mem_namespaces_iff : ns ∈ S.namespaces ↔
    (∃ t ∈ S.tenants, t.inventoryNamespace = ns) ∨ ∃ i ∈ S.inventories, i.metadata.ns? = some ns := by
  simp [namespaces]

theorem mem_keys_iff {key : ReconcileKey} :
    key ∈ S.keys configs ↔ (∃ ns ∈ S.namespaces, .authz ns = key) ∨ key ∈ configs := by
  simp [keys]

theorem authz_mem_keys_iff {s : Store} : .authz ns ∈ S.keys s.configKeys ↔ ns ∈ S.namespaces := by
  rw [mem_keys_iff]
  constructor
  · rintro (⟨_, hns, heq⟩ | hconfig)
    · exact ReconcileKey.authz.inj heq ▸ hns
    · obtain ⟨_, _, heq, -⟩ := mem_configKeys_iff.1 hconfig
      cases heq
  · exact fun hns ↦ .inl ⟨ns, hns, rfl⟩

theorem card_keys (s : Store) :
    (S.keys s.configKeys).card = S.namespaces.card + s.configKeys.card := by
  rw [keys, Finset.card_union_of_disjoint, Finset.card_image_of_injective]
  · exact fun _ _ h ↦ ReconcileKey.authz.inj h
  · refine Finset.disjoint_left.2 fun key hkey hconfig ↦ ?_
    obtain ⟨ns, -, rfl⟩ := Finset.mem_image.1 hkey
    obtain ⟨_, _, heq, -⟩ := mem_configKeys_iff.1 hconfig
    cases heq

/-- There is nothing to do for the key: what its namespace calls for is there, or the config rests. -/
def Quiet (S : Sources) : ReconcileKey → Store → Prop
  | .authz ns, s => ∀ ref ∈ S.refsIn ns, (s.objects.get? ref).isSome
  | .config ns name, s =>
    ∃ c : Config, s.Holds c ∧ c.metadata.key = .namespaced ns name ∧ c.Rests s

theorem only_of_mem_refsIn {e : Event} (h : e.ref ∈ S.refsIn ns) : e.Only (.authz ns) := by
  intro claims key hkey
  rcases mem_refsIn_iff.1 h with ⟨t, -, h⟩ | ⟨-, i, hi, h⟩
  · have hkind : e.kind = .clusterRole ∨ e.kind = .clusterRoleBinding := by
      rcases List.mem_cons.1 h with h | h
      · exact .inl (congrArg ObjectRef.kind h)
      · exact .inr (congrArg ObjectRef.kind (List.mem_singleton.1 h))
    rcases hkind with hkind | hkind
    · simp [Event.keys, hkind] at hkey
    · simp [Event.keys, hkind] at hkey
  · have hkind : (e.kind = .role ∨ e.kind = .roleBinding) ∧ e.metadata.ns? = some ns := by
      rw [← ns_of_mem_inventoriesIn hi]
      rcases List.mem_cons.1 h with h | h
      · exact ⟨.inl (congrArg ObjectRef.kind h), congrArg (fun ref : ObjectRef ↦ ref.key.ns?) h⟩
      · exact ⟨.inr (congrArg ObjectRef.kind (List.mem_singleton.1 h)),
          congrArg (fun ref : ObjectRef ↦ ref.key.ns?) (List.mem_singleton.1 h)⟩
    obtain ⟨hkind | hkind, hns⟩ := hkind
    · simpa [Event.keys, hkind, hns] using hkey
    · simpa [Event.keys, hkind, hns] using hkey

end Sources

/-- A world in which a controller has nothing to reconcile but the keys of `S` and `configs`. -/
structure Upkeep (S : Sources) (configs : Finset ReconcileKey) (w : World) : Prop where
  serves : w.store.Serves S
  led : w.store.Led
  claims : ∃ version, w.claims = .ofTenants version S.tenants
  configs : w.store.configKeys = configs

theorem Claims.releasedSince_ofTenants (version version' : Nat) (tenants : List Tenant) :
    (ofTenants version' tenants).releasedSince (ofTenants version tenants) = [] := by
  refine List.eq_nil_iff_forall_not_mem.2 fun ns hns ↦ ?_
  obtain ⟨hbefore, hafter⟩ := mem_releasedSince_iff.1 hns
  rw [contains_ofTenants_iff] at hbefore
  rw [contains_ofTenants_iff.2 hbefore] at hafter
  cases hafter

theorem Store.configKeys_congr {s after : Store}
    (h : ∀ key, (after.objects.get? ⟨.config, key⟩).isSome = (s.objects.get? ⟨.config, key⟩).isSome) :
    after.configKeys = s.configKeys := by
  ext key
  simp only [mem_configKeys_iff, h]

theorem Store.Serves.of_led {S : Sources} {s after : Store} (h : s.Serves S) (hled : after.Led)
    (hsame : ∀ ref : ObjectRef, ref.kind ≠ .config → ref.kind ≠ .resourceQuota →
      after.objects.get? ref = s.objects.get? ref) : after.Serves S := by
  refine h.of_configs hled.coherent hsame fun ref object hkind hget ↦ ?_
  obtain ⟨kind, key⟩ := ref
  rcases hkind with rfl | rfl
  · exact hled.configs key object hget
  · obtain ⟨q, _, _, hq, -⟩ := hled.quotas key object hget
    exact ⟨q, hq⟩

namespace Config.Turn

variable {S : Sources} {s after : Store} {c : Config}

theorem get?_eq (h : c.Turn s after) {ref : ObjectRef} (hconfig : ref.kind ≠ .config)
    (hquota : ref.kind ≠ .resourceQuota) : after.objects.get? ref = s.objects.get? ref := by
  obtain ⟨news, hwrote, -, -, hnews⟩ := h.wrote
  refine hwrote.get?_of_kind fun e he hkind ↦ ?_
  rcases (hnews e he).1 with hconfig' | hquota'
  · exact hconfig (hkind.symm.trans hconfig')
  · exact hquota (hkind.symm.trans hquota')

theorem configKeys_eq (h : c.Turn s after) (hc : s.Holds c) : after.configKeys = s.configKeys := by
  obtain ⟨c', hc', hkey', -⟩ := h.rests
  refine configKeys_congr fun key ↦ ?_
  by_cases hkey : key = c.metadata.key
  · subst hkey
    have hafter : (after.objects.get? ⟨.config, c.metadata.key⟩).isSome := by
      rw [← hkey']
      exact Option.isSome_iff_exists.2 ⟨_, hc'⟩
    exact hafter.trans (Option.isSome_iff_exists.2 ⟨_, hc⟩).symm
  · exact congrArg Option.isSome (h.others key hkey)

theorem quiet (h : c.Turn s after) {key : ReconcileKey} (hquiet : S.Quiet key s) :
    S.Quiet key after := by
  cases key with
  | authz ns =>
    intro ref href
    obtain ⟨hconfig, hquota⟩ := Serves.kind_ne_of_mem_refsIn href
    rw [h.get?_eq hconfig hquota]
    exact hquiet ref href
  | config ns name =>
    obtain ⟨d, hd, hkey, hrests⟩ := hquiet
    by_cases hdc : d.metadata.key = c.metadata.key
    · obtain ⟨c', hc', hkey', hrests'⟩ := h.rests
      exact ⟨c', hc', (hkey'.trans hdc.symm).trans hkey, hrests'⟩
    · exact ⟨d, (h.others _ hdc).trans hd, hkey, hrests.of_turn h⟩

end Config.Turn

theorem Event.mem_configKeys {e : Event} {s : Store} {claims : Claims} {key : ReconcileKey}
    (hkind : e.kind = .config) (hsome : (s.objects.get? e.ref).isSome)
    (hkey : key ∈ e.keys claims) : key ∈ s.configKeys := by
  simp only [Event.keys, hkind, List.mem_map, Option.mem_toList] at hkey
  obtain ⟨ns, hns, rfl⟩ := hkey
  refine mem_configKeys_iff.2 ⟨ns, _, rfl, ?_⟩
  have href : e.ref = ⟨.config, .namespaced ns e.metadata.name⟩ := by
    rw [Event.ref, hkind, ObjectMeta.key, hns]
    rfl
  rw [← href]
  exact hsome

section Visits

variable {S : Sources} {configs : Finset ReconcileKey} {env : Surroundings} {w : World}
  {ns name : String}

theorem Upkeep.visit_authz (h : Upkeep S configs w) (hreviewer : env.reviewer = S.reviewer)
    (now : Timestamp) (ns : String) :
    ∃ w', ((ReconcileKey.authz ns).work now).exec env w = (.ok [], w') ∧
      Visit (Upkeep S configs) S.Quiet (.authz ns) w w' ∧
      w'.store.writes ≤ w.store.writes + (S.refsIn ns).length := by
  obtain ⟨version, hclaims⟩ := h.claims
  obtain ⟨summary, w', hrun, hpublished, hreleased, hfilled⟩ :=
    h.serves.exec_run hreviewer now ns
  have hreleased : summary.released = [] := by
    rw [hreleased, hpublished, hclaims, Claims.publish]
    exact Claims.releasedSince_ofTenants ..
  obtain ⟨news, hwrote, hrefs, hlength, hidle⟩ := hfilled.wrote
  have hserves := h.serves.of_filled hfilled
  have hsame (ref : ObjectRef) (hkind : ref.kind = .config ∨ ref.kind = .resourceQuota) :
      w'.store.objects.get? ref = w.store.objects.get? ref := by
    refine hwrote.frame ref fun e he heq ↦ ?_
    obtain ⟨hconfig, hquota⟩ := Serves.kind_ne_of_mem_refsIn (heq ▸ hrefs e he)
    exact hkind.elim hconfig hquota
  have hinv : Upkeep S configs w' := by
    refine ⟨hserves, h.led.congr hserves.coherent hsame, ⟨_, hpublished⟩, ?_⟩
    rw [← h.configs]
    exact configKeys_congr fun key ↦ congrArg Option.isSome (hsame _ (.inl rfl))
  refine ⟨w', ?_, ⟨hinv, hfilled.present, fun other hother ↦ ?_, news, hwrote,
    fun e he ↦ Sources.only_of_mem_refsIn (hrefs e he), hidle⟩, ?_⟩
  · unfold ReconcileKey.work
    rw [Task.exec_bind_of_ok hrun, hreleased]
    rfl
  · cases other with
    | authz other => exact fun ref href ↦ hfilled.isSome (hother ref href)
    | config other name =>
      obtain ⟨c, hc, hkey, hrests⟩ := hother
      refine ⟨c, ?_, hkey, hrests.congr hsame⟩
      rw [Holds, hsame _ (.inl rfl)]
      exact hc
  · rw [hwrote.writes]
    exact Nat.add_le_add_left hlength _

theorem Upkeep.visit_config (h : Upkeep S configs w) (env : Surroundings) (now : Timestamp)
    (hkey : .config ns name ∈ configs) :
    ∃ w', ((ReconcileKey.config ns name).work now).exec env w = (.ok [], w') ∧
      Visit (Upkeep S configs) S.Quiet (.config ns name) w w' ∧
      w'.store.writes ≤ w.store.writes + 2 := by
  rw [← h.configs] at hkey
  obtain ⟨_, _, heq, hsome⟩ := mem_configKeys_iff.1 hkey
  cases heq
  obtain ⟨object, hget⟩ := Option.isSome_iff_exists.1 hsome
  obtain ⟨c, hc, hckey⟩ := h.led.holds_config hget
  obtain ⟨hns, rfl⟩ := ObjectKey.mk.inj hckey
  obtain ⟨decision, after, hreconcile, hturn⟩ := Config.exec_reconcile_of_led env now h.led hc hns
  obtain ⟨c', hc', hkey', hrests'⟩ := hturn.rests
  obtain ⟨news, hwrote, hlength, hidle, hnews⟩ := hturn.wrote
  have hcns : c.ns = ns := by rw [Config.ns, hns]; rfl
  have hserves := h.serves.of_led hturn.led fun _ ↦ hturn.get?_eq
  have hinv : Upkeep S configs (w.withStore after) := by
    refine ⟨hserves, hturn.led, h.claims, ?_⟩
    rw [← h.configs]
    exact hturn.configKeys_eq hc
  refine ⟨w.withStore after, ?_, ⟨hinv, ⟨c', hc', hkey'.trans hckey, hrests'⟩,
    fun other hother ↦ hturn.quiet hother, news, hwrote,
    fun e he ↦ hcns ▸ (hnews e he).2, fun hquiet ↦ ?_⟩, ?_⟩
  · unfold ReconcileKey.work
    rw [Task.exec_bind_of_ok hreconcile]
    rfl
  · obtain ⟨d, hd, hdkey, hrests⟩ := hquiet
    have hdc : d = c := hd.eq_of_key_eq hc (hdkey.trans hckey.symm)
    exact hidle (hdc ▸ hrests)
  · rw [World.store_withStore, hwrote.writes]
    exact Nat.add_le_add_left hlength _

/-! ## Looking at everything -/

theorem mem_keysOf_iff (h : w.store.Led) {now : Timestamp} {key : ReconcileKey} :
    key ∈ (w.store.objectsOf Config now .all).filterMap
      (fun c ↦ c.metadata.ns?.map (ReconcileKey.config · c.metadata.name)) ↔
    key ∈ w.store.configKeys := by
  rw [mem_configKeys_iff, List.mem_filterMap]
  constructor
  · rintro ⟨c, hc, hkey⟩
    obtain ⟨ns, hns, rfl⟩ := Option.map_eq_some_iff.1 hkey
    obtain ⟨object, hget, -⟩ := ((mem_objectsOf_iff h.coherent).1 hc).1
    have hckey : Resource.key c = .namespaced ns c.metadata.name :=
      ObjectKey.mk.injEq .. ▸ ⟨hns, rfl⟩
    rw [Resource.ref, hckey] at hget
    exact ⟨ns, _, rfl, Option.isSome_iff_exists.2 ⟨object, hget⟩⟩
  · rintro ⟨ns, name, rfl, hsome⟩
    obtain ⟨object, hget⟩ := Option.isSome_iff_exists.1 hsome
    obtain ⟨c, hc, hckey⟩ := h.holds_config hget
    obtain ⟨hns, rfl⟩ := ObjectKey.mk.inj hckey
    have hns : c.metadata.ns? = some ns := hns
    refine ⟨c, (mem_objectsOf_iff h.coherent).2 ⟨hc.has now, rfl⟩, ?_⟩
    rw [hns]
    rfl

theorem mem_authzNamespaces_iff {version : Nat} : ns ∈
    Controller.authzNamespaces (.ofTenants version S.tenants) S.inventories ↔ ns ∈ S.namespaces := by
  unfold Controller.authzNamespaces
  rw [SortedSet.mem_keys_ofList_iff, List.mem_append, ← SortedMap.contains_eq_true_iff,
    Sources.mem_namespaces_iff, List.mem_filterMap]
  exact or_congr_left Claims.contains_ofTenants_iff

theorem exec_survey (h : w.store.Serves S) (env : Surroundings) (now : Timestamp) :
    Task.exec env (do
      let (claims, _) ← Pass.refresh now
      return (claims, ← Task.list (α := Inventory) now .all)) w =
      (.ok (w.claims.publish S.tenants, S.inventories),
        { w with claims := w.claims.publish S.tenants }) := by
  have htenants : (Task.list (α := Tenant) now .all).exec env w = (.ok S.tenants, w) := by
    rw [← h.tenants now]
    exact Task.exec_list h.coherent ((h.readable now).legible (k := .tenant) nofun nofun .all)
  have hrefresh : (Pass.refresh now).exec env w = (.ok (w.claims.publish S.tenants, S.tenants),
      { w with claims := w.claims.publish S.tenants }) := by
    unfold Pass.refresh
    rw [Task.exec_bind_of_ok htenants]
    rfl
  have hinventories : (Task.list (α := Inventory) now .all).exec env
      { w with claims := w.claims.publish S.tenants } =
      (.ok S.inventories, { w with claims := w.claims.publish S.tenants }) := by
    rw [← h.inventories now]
    exact Task.exec_list h.coherent ((h.readable now).legible (k := .inventory) nofun nofun .all)
  rw [Task.exec_bind_of_ok hrefresh]
  dsimp only
  rw [Task.exec_bind_of_ok hinventories]
  rfl

/-- Looking at everything publishes the claims and queues every key. -/
theorem exec_resync (st : Station) (hserves : st.world.store.Serves S) (hled : st.world.store.Led)
    (env : Surroundings) (now : Timestamp) :
    ∃ (n : Nat) (all : List ReconcileKey),
      st.exec (Controller.resync (.reliable env) now) = (.ok n, { st with
        world := { st.world with claims := st.world.claims.publish S.tenants }
        queue := all.foldl WorkQueue.add st.queue }) ∧
      ∀ key, key ∈ all ↔ key ∈ S.keys st.world.store.configKeys := by
  have hconfigs : (Task.list (α := Config) now .all).exec env
      { st.world with claims := st.world.claims.publish S.tenants } =
      (.ok (st.world.store.objectsOf Config now .all), _) :=
    Task.exec_list hled.coherent (hled.encodes.legible now .all)
  let namespaces := Controller.authzNamespaces (st.world.claims.publish S.tenants) S.inventories
  let keys := (st.world.store.objectsOf Config now .all).filterMap fun c ↦
    c.metadata.ns?.map (ReconcileKey.config · c.metadata.name)
  refine ⟨namespaces.length + keys.length, namespaces.map .authz ++ keys, ?_, fun key ↦ ?_⟩
  · unfold Controller.resync
    rw [Station.exec_bind_of_ok (Station.exec_perform (exec_survey hserves env now))]
    dsimp only
    rw [Station.exec_bind_of_ok (Station.exec_enqueue _ _),
      Station.exec_bind_of_ok (Station.exec_perform hconfigs),
      Station.exec_bind_of_ok (Station.exec_enqueue _ _), List.foldl_append]
    rfl
  · rw [List.mem_append, mem_keysOf_iff hled, Sources.mem_keys_iff, List.mem_map]
    have hnamespaces (ns : String) : ns ∈ namespaces ↔ ns ∈ S.namespaces := mem_authzNamespaces_iff
    simp only [hnamespaces]

def Sources.effort (S : Sources) : ReconcileKey → Nat
  | .authz ns => (S.refsIn ns).length
  | .config .. => 2

theorem Upkeep.visit (h : Upkeep S configs w) (hreviewer : env.reviewer = S.reviewer)
    (now : Timestamp) {key : ReconcileKey} (hkey : key ∈ S.keys configs) :
    ∃ w', (key.work now).exec env w = (.ok [], w') ∧ Visit (Upkeep S configs) S.Quiet key w w' ∧
      w'.store.writes ≤ w.store.writes + S.effort key := by
  rcases Sources.mem_keys_iff.1 hkey with ⟨ns, -, rfl⟩ | hkey
  · exact h.visit_authz hreviewer now ns
  · have hconfig := hkey
    rw [← h.configs] at hconfig
    obtain ⟨ns, name, rfl, -⟩ := mem_configKeys_iff.1 hconfig
    exact h.visit_config env now hkey

theorem settles (hreviewer : env.reviewer = S.reviewer) (now : Timestamp)
    (configs : Finset ReconcileKey) :
    Settles env now (S.keys configs) (Upkeep S configs) S.Quiet where
  visit key hkey w h := by
    obtain ⟨w', hexec, hvisit, -⟩ := h.visit hreviewer now hkey
    exact ⟨w', hexec, hvisit⟩
  resync st h := by
    obtain ⟨n, all, hexec, hall⟩ := exec_resync st h.serves h.led env now
    rw [h.configs] at hall
    exact ⟨n, all, _, hexec, ⟨h.serves, h.led, ⟨_, rfl⟩, h.configs⟩, rfl, hall⟩

theorem lagless_of_effort (hreviewer : env.reviewer = S.reviewer) (now : Timestamp)
    {st : Station} (hfed : st.Fed (S.keys configs) (Upkeep S configs) S.Quiet)
    (hsmall : ∀ key ∈ S.keys configs, S.effort key ≤ Controller.watchCapacity) :
    st.Lagless env now := by
  refine hfed.lagless (settles hreviewer now configs) fun key hkey w w' h hexec ↦ ?_
  obtain ⟨w'', hexec', -, hwrites⟩ := h.visit hreviewer now hkey
  rw [hexec] at hexec'
  cases hexec'
  exact hwrites.trans (Nat.add_le_add_left (hsmall key hkey) _)

end Visits

end TenantAccess
