import TenantAccess.CommandLine.Command
import TenantAccess.Proofs.Access.Order
import TenantAccess.Proofs.Controller.Settled

/-!
# What is planned is what reconciling comes to

A plan is computed from the manifest alone.  Reconciling a store that is seeded with the manifest ends, if
it ends, with just the roles and bindings of the plan.
-/

namespace TenantAccess

open Store TenantAccess.Derivation

/-! ## Places of what is called for -/

theorem Derivation.nodup_flatMap_pairRefs {α β ω : Type} [Derived α] [Derived β] [Resource ω]
    {role : ω → α} {binding : ω → β} {roleName name : String → String} (hrole : Derives role roleName)
    (hbinding : Derives binding name) (hkinds : Resource.kind α ≠ Resource.kind β) {l : List ω}
    (hvalid : ∀ o ∈ l, scopeDefect (Resource.kind ω) (Resource.metadata o) = none)
    (hnodup : (l.map Resource.key).Nodup) : (l.flatMap (pairRefs role binding)).Nodup := by
  rw [List.nodup_flatMap]
  constructor
  · intro o _
    rw [pairRefs, List.nodup_cons]
    refine ⟨fun hmem ↦ hkinds ?_, List.nodup_singleton _⟩
    exact congrArg ObjectRef.kind (List.mem_singleton.1 hmem)
  · refine (List.pairwise_map.1 hnodup).imp_of_mem fun ho ho' hne ref href href' ↦ hne ?_
    exact key_eq_of_mem_pairRefs hrole hbinding hkinds (hvalid _ ho) (hvalid _ ho') href href'

theorem Refiled.viewerRole_tenant_eq {t t' : Tenant} (h : Refiled t t') :
    t'.viewerRole = t.viewerRole := by
  simp only [Tenant.viewerRole, h.tenant_eq.2.2]

theorem Refiled.viewerRole_inventory_eq {i i' : Inventory} (h : Refiled i i') :
    i'.viewerRole = i.viewerRole := by
  obtain ⟨-, hns, hname⟩ := h.inventory_eq
  simp only [Inventory.viewerRole, Inventory.ns, hns, hname]

namespace Sources

variable {S S' : Sources} {ns ns' : String} {ref : ObjectRef}

/-- The keys are valid, and each stands for one object. -/
structure Distinct (S : Sources) : Prop where
  valid_tenant : ∀ t ∈ S.tenants, scopeDefect .tenant t.metadata = none
  valid_inventory : ∀ i ∈ S.inventories, scopeDefect .inventory i.metadata = none
  nodup_tenants : (S.tenants.map Resource.key).Nodup
  nodup_inventories : (S.inventories.map Resource.key).Nodup

theorem isNamespaced_tenantRefs {t : Tenant}
    (h : ref ∈ pairRefs Tenant.viewerRole S.tenantBinding t) : ref.kind.isNamespaced = false := by
  rcases List.mem_cons.1 h with rfl | h
  · rfl
  · rw [List.mem_singleton.1 h]
    rfl

theorem isNamespaced_inventoryRefs {i : Inventory}
    (h : ref ∈ pairRefs Inventory.viewerRole S.inventoryBinding i) : ref.kind.isNamespaced = true := by
  rcases List.mem_cons.1 h with rfl | h
  · rfl
  · rw [List.mem_singleton.1 h]
    rfl

theorem claimants_ne_nil_of_mem_refsIn (h : ref ∈ S.refsIn ns) : S.claimants ns ≠ [] := by
  rcases mem_refsIn_iff.1 h with ⟨t, ht, -⟩ | ⟨hne, -⟩
  · exact List.ne_nil_of_mem ht
  · exact hne

theorem Distinct.nodup_refsIn (h : S.Distinct) (ns : String) : (S.refsIn ns).Nodup := by
  unfold refsIn
  split
  · exact .nil
  · have htenants : ((S.claimants ns).map Resource.key).Nodup :=
      h.nodup_tenants.sublist (List.filter_sublist.map _)
    have hinventories : ((S.inventoriesIn ns).map Resource.key).Nodup :=
      h.nodup_inventories.sublist (List.filter_sublist.map _)
    rw [List.nodup_append]
    refine ⟨?_, ?_, fun ref href ref' href' heq ↦ ?_⟩
    · refine nodup_flatMap_pairRefs derives_tenantRole S.derives_tenantBinding nofun
        (fun t ht ↦ ?_) htenants
      exact h.valid_tenant t (mem_claimants_iff.1 ht).1
    · refine nodup_flatMap_pairRefs derives_inventoryRole S.derives_inventoryBinding nofun
        (fun i hi ↦ ?_) hinventories
      exact h.valid_inventory i (mem_inventoriesIn_iff.1 hi).1
    · subst heq
      obtain ⟨t, -, ht⟩ := List.mem_flatMap.1 href
      obtain ⟨i, -, hi⟩ := List.mem_flatMap.1 href'
      cases (isNamespaced_tenantRefs ht).symm.trans (isNamespaced_inventoryRefs hi)

theorem Distinct.ns_eq_of_mem_refsIn (h : S.Distinct) (href : ref ∈ S.refsIn ns)
    (href' : ref ∈ S.refsIn ns') : ns = ns' := by
  -- the places of a tenant are cluster-wide and those of an inventory are not, so they differ
  rcases mem_refsIn_iff.1 href with ⟨t, ht, hmem⟩ | ⟨-, i, hi, hmem⟩
  · rcases mem_refsIn_iff.1 href' with ⟨t', ht', hmem'⟩ | ⟨-, i', -, hmem'⟩
    · obtain ⟨hin, rfl⟩ := mem_claimants_iff.1 ht
      obtain ⟨hin', rfl⟩ := mem_claimants_iff.1 ht'
      have hkey := key_eq_of_mem_pairRefs derives_tenantRole S.derives_tenantBinding nofun
        (h.valid_tenant t hin) (h.valid_tenant t' hin') hmem hmem'
      rw [List.inj_on_of_nodup_map h.nodup_tenants hin hin' hkey]
    · cases (isNamespaced_tenantRefs hmem).symm.trans (isNamespaced_inventoryRefs hmem')
  · rcases mem_refsIn_iff.1 href' with ⟨t', -, hmem'⟩ | ⟨-, i', hi', hmem'⟩
    · cases (isNamespaced_tenantRefs hmem').symm.trans (isNamespaced_inventoryRefs hmem)
    · obtain ⟨hi, hns⟩ := mem_inventoriesIn_iff.1 hi
      obtain ⟨hi', hns'⟩ := mem_inventoriesIn_iff.1 hi'
      have hkey := key_eq_of_mem_pairRefs derives_inventoryRole S.derives_inventoryBinding nofun
        (h.valid_inventory i hi) (h.valid_inventory i' hi') hmem hmem'
      have hns'' : i.metadata.ns? = i'.metadata.ns? := congrArg ObjectKey.ns? hkey
      rw [hns, hns'] at hns''
      exact Option.some.inj hns''

theorem refiles_claimants (h : Refiles S.tenants S'.tenants) (ns : String) :
    Refiles (S.claimants ns) (S'.claimants ns) := by
  refine h.filter fun t t' ht ↦ ?_
  rw [ht.tenant_eq.1]

theorem refiles_inventoriesIn (h : Refiles S.inventories S'.inventories) (ns : String) :
    Refiles (S.inventoriesIn ns) (S'.inventoriesIn ns) := by
  refine h.filter fun i i' hi ↦ ?_
  rw [hi.inventory_eq.2.1]

section Refiled

variable {t t' : Tenant} {i i' : Inventory}

theorem ref_tenantBinding_of_refiled (h : Refiled t t') (S S' : Sources) :
    Resource.ref (S'.tenantBinding t') = Resource.ref (S.tenantBinding t) := by
  change ObjectRef.mk .clusterRoleBinding
    (.cluster (bindingName (tenantRoleName t'.metadata.name))) = _
  rw [h.tenant_eq.2.2]
  rfl

theorem ref_inventoryBinding_of_refiled (h : Refiled i i') (S S' : Sources) :
    Resource.ref (S'.inventoryBinding i') = Resource.ref (S.inventoryBinding i) := by
  obtain ⟨-, hns, hname⟩ := h.inventory_eq
  change ObjectRef.mk .roleBinding
    (.namespaced i'.ns (bindingName (inventoryRoleName i'.metadata.name))) = _
  rw [Inventory.ns, hns, hname]
  rfl

theorem mem_refsIn_congr (htenants : Refiles S.tenants S'.tenants)
    (hinventories : Refiles S.inventories S'.inventories) :
    ref ∈ S.refsIn ns ↔ ref ∈ S'.refsIn ns := by
  have hclaimants := refiles_claimants htenants ns
  rw [mem_refsIn_iff, mem_refsIn_iff]
  refine or_congr (hclaimants.exists_iff fun t t' ht ↦ ?_) (and_congr
    (not_congr hclaimants.eq_nil_iff)
    ((refiles_inventoriesIn hinventories ns).exists_iff fun i i' hi ↦ ?_))
  · rw [pairRefs, pairRefs, ht.viewerRole_tenant_eq, ref_tenantBinding_of_refiled ht S S']
  · rw [pairRefs, pairRefs, hi.viewerRole_inventory_eq, ref_inventoryBinding_of_refiled hi S S']

theorem perm_tenantBinding (h : Refiles S.inventories S'.inventories)
    (hreviewer : S.reviewer = S'.reviewer) (ht : Refiled t t') :
    (S.tenantBinding t).subjects.Perm (S'.tenantBinding t').subjects := by
  unfold tenantBinding
  rw [ht.tenant_eq.1, hreviewer]
  refine (t.distinct_access _ _).perm_subjects (t'.distinct_access _ _) (fun p ↦ ?_) none
  exact Tenant.mem_access_of_refiles (refiles_inventoriesIn h _) ht _

theorem perm_inventoryBinding (h : Refiles S.tenants S'.tenants) (hi : Refiled i i') :
    (S.inventoryBinding i).subjects.Perm (S'.inventoryBinding i').subjects := by
  have hns : i'.ns = i.ns := by rw [Inventory.ns, Inventory.ns, hi.inventory_eq.2.1]
  unfold inventoryBinding Inventory.viewerBinding
  rw [hns]
  refine (i.distinct_access _).perm_subjects (i'.distinct_access _) (fun p ↦ ?_) (some i.ns)
  exact Inventory.mem_access_of_refiles (refiles_claimants h _) hi

end Refiled

end Sources

/-! ## Rows -/

namespace Command

variable {S : Sources} {s s₀ : Store} {m : Manifest} {reviewer : Reviewer} {ns owner : String}
  {scope : Scope}

def PlannedRow.ref (r : PlannedRow) : ObjectRef :=
  ⟨r.kind, if r.kind.isNamespaced then .namespaced r.ns r.name else .cluster r.name⟩

/-- The row shows the verbs of a role, or the subjects of a binding in some order. -/
def PlannedRow.Shows (r : PlannedRow) (object : Json) : Prop :=
  (∃ (scope : Scope) (a : Role scope), r.kind = scope.roleKind ∧ object = Resource.encode a ∧
    r.contents = joinOrDash (SortedSet.ofList (a.rules.flatMap (·.verbs))).keys) ∨
  ∃ (scope : Scope) (b : Binding scope) (subjects : List Subject), r.kind = scope.bindingKind ∧
    object = Resource.encode b ∧ subjects.Perm b.subjects ∧
    r.contents = joinOrDash (subjects.map Subject.text)

/-- The roles and bindings in the store are those of the rows, each of one row. -/
structure Agrees (rows : List PlannedRow) (s : Store) : Prop where
  nodup : (rows.map PlannedRow.ref).Nodup
  stored : ∀ ref, ref ∈ rows.map PlannedRow.ref ↔
    ref.kind ∈ [.role, .roleBinding, .clusterRole, .clusterRoleBinding] ∧
      (s.objects.get? ref).isSome
  shows : ∀ row ∈ rows, ∃ object, s.objects.get? row.ref = some object ∧ row.Shows object
  gate : ∀ row ∈ rows, row.gate = "ok"

theorem exists_shows_role (h : s.Fits S) {r : Role scope} (hasks : S.Asks r)
    (hsome : (s.objects.get? (Resource.ref r)).isSome) :
    ∃ object, s.objects.get? (Resource.ref r) = some object ∧
      (PlannedRow.role ns owner r).Shows object := by
  obtain ⟨a, hget, hdiffers⟩ := h.exists_of_asks hasks hsome
  refine ⟨_, hget, .inl ⟨scope, a, rfl, rfl, ?_⟩⟩
  rw [Role.rules_eq hdiffers]
  rfl

theorem exists_shows_binding (h : s.Fits S) {b b' : Binding scope} (hasks : S.Asks b')
    (href : Resource.ref b' = Resource.ref b) (hperm : b.subjects.Perm b'.subjects)
    (hsome : (s.objects.get? (Resource.ref b)).isSome) :
    ∃ object, s.objects.get? (Resource.ref b) = some object ∧
      (PlannedRow.binding ns owner b).Shows object := by
  rw [← href] at hsome ⊢
  obtain ⟨a, hget, hdiffers⟩ := h.exists_of_asks hasks hsome
  refine ⟨_, hget, .inr ⟨scope, a, b.subjects, rfl, rfl, ?_, rfl⟩⟩
  rw [(Binding.content_eq hdiffers).2]
  exact hperm

def sources (m : Manifest) (reviewer : Reviewer) : Sources := ⟨m.tenants, m.inventories, reviewer⟩

def rows (m : Manifest) (reviewer : Reviewer) : List PlannedRow :=
  m.claimedNamespaces.flatMap fun ns ↦ planned m (Pass.reviewedAccess reviewer ns) ns

theorem mem_claimedNamespaces_iff (reviewer : Reviewer) :
    ns ∈ m.claimedNamespaces ↔ (sources m reviewer).claimants ns ≠ [] := by
  rw [Manifest.claimedNamespaces, SortedSet.mem_keys_ofList_iff, List.mem_map]
  constructor
  · rintro ⟨t, ht, hns⟩
    exact List.ne_nil_of_mem (Sources.mem_claimants_iff.2 ⟨ht, hns⟩)
  · intro hne
    obtain ⟨t, ht⟩ := List.exists_mem_of_ne_nil _ hne
    exact ⟨t, Sources.mem_claimants_iff.1 ht⟩

theorem cases_of_mem_rows {row : PlannedRow} (hrow : row ∈ rows m reviewer) :
    ∃ ns, (sources m reviewer).claimants ns ≠ [] ∧
      ((∃ t ∈ (sources m reviewer).claimants ns, row = .role ns t.metadata.name t.viewerRole ∨
        row = .binding ns t.metadata.name ((sources m reviewer).tenantBinding t)) ∨
      ∃ i ∈ (sources m reviewer).inventoriesIn ns, row = .role ns i.metadata.name i.viewerRole ∨
        row = .binding ns i.metadata.name ((sources m reviewer).inventoryBinding i)) := by
  obtain ⟨ns, hns, hrow⟩ := List.mem_flatMap.1 hrow
  refine ⟨ns, (mem_claimedNamespaces_iff reviewer).1 hns, ?_⟩
  rcases List.mem_append.1 hrow with hrow | hrow
  · obtain ⟨t, ht, hrow⟩ := List.mem_flatMap.1 hrow
    obtain ⟨-, rfl⟩ := Sources.mem_claimants_iff (S := sources m reviewer).1 ht
    rcases List.mem_cons.1 hrow with hrow | hrow
    · exact .inl ⟨t, ht, .inl hrow⟩
    · exact .inl ⟨t, ht, .inr (List.mem_singleton.1 hrow)⟩
  · obtain ⟨i, hi, hrow⟩ := List.mem_flatMap.1 hrow
    obtain rfl := Sources.ns_of_mem_inventoriesIn (S := sources m reviewer) hi
    rcases List.mem_cons.1 hrow with hrow | hrow
    · exact .inr ⟨i, hi, .inl hrow⟩
    · exact .inr ⟨i, hi, .inr (List.mem_singleton.1 hrow)⟩

theorem map_ref_rows : (rows m reviewer).map PlannedRow.ref =
    m.claimedNamespaces.flatMap (sources m reviewer).refsIn := by
  rw [rows, List.map_flatMap]
  refine List.flatMap_congr fun ns hns ↦ ?_
  rw [Sources.refsIn, if_neg ((mem_claimedNamespaces_iff reviewer).1 hns), planned, List.map_append,
    List.map_flatMap, List.map_flatMap]
  congr 1
  refine List.flatMap_congr fun i hi ↦ ?_
  rw [← Sources.ns_of_mem_inventoriesIn (S := sources m reviewer) hi]
  rfl

theorem gate_role {r : Role scope} (h : gate r = []) : (PlannedRow.role ns owner r).gate = "ok" := by
  have hforbidden : forbiddenVerbs r.rules = [] := h
  simp [PlannedRow.role, hforbidden]

theorem gate_of_mem_rows {row : PlannedRow} (hrow : row ∈ rows m reviewer) : row.gate = "ok" := by
  obtain ⟨ns, -, ⟨t, -, rfl | rfl⟩ | ⟨i, -, rfl | rfl⟩⟩ := cases_of_mem_rows hrow
  · exact gate_role (derives_tenantRole.gate_eq t)
  · rfl
  · exact gate_role (derives_inventoryRole.gate_eq i)
  · rfl

/-! ## Seeded manifests -/

theorem refiles_tenants (h : m.Seeded s₀) (reviewer : Reviewer) :
    Refiles m.tenants (s₀.sources reviewer).tenants where
  kept t ht := by
    obtain ⟨filed, hkey, hholds⟩ := h.tenants t ht
    exact ⟨_, (h.mem_tenants_iff reviewer).2 ⟨t, ht, filed, hkey, rfl, hholds⟩, filed, hkey, rfl⟩
  only t' ht' := by
    obtain ⟨t, ht, filed, hkey, rfl, -⟩ := (h.mem_tenants_iff reviewer).1 ht'
    exact ⟨t, ht, filed, hkey, rfl⟩

theorem refiles_inventories (h : m.Seeded s₀) (reviewer : Reviewer) :
    Refiles m.inventories (s₀.sources reviewer).inventories where
  kept i hi := by
    obtain ⟨filed, hkey, hholds⟩ := h.inventories i hi
    exact ⟨_, (h.mem_inventories_iff reviewer).2 ⟨i, hi, filed, hkey, rfl, hholds⟩, filed, hkey, rfl⟩
  only i' hi' := by
    obtain ⟨i, hi, filed, hkey, rfl, -⟩ := (h.mem_inventories_iff reviewer).1 hi'
    exact ⟨i, hi, filed, hkey, rfl⟩

theorem distinct_sources (h : m.Seeded s₀) (reviewer : Reviewer) : (sources m reviewer).Distinct where
  valid_tenant t ht := (h.tenants t ht).scopeDefect_eq h.coherent
  valid_inventory i hi := (h.inventories i hi).scopeDefect_eq h.coherent
  nodup_tenants := h.nodup_tenants
  nodup_inventories := h.nodup_inventories

theorem nodup_rows (h : m.Seeded s₀) : ((rows m reviewer).map PlannedRow.ref).Nodup := by
  have hdistinct := distinct_sources h reviewer
  have hnodup : m.claimedNamespaces.Nodup := SortedMap.nodup_keys _
  rw [map_ref_rows, List.nodup_flatMap]
  refine ⟨fun ns _ ↦ hdistinct.nodup_refsIn ns, hnodup.imp fun hne ref href href' ↦ hne ?_⟩
  exact hdistinct.ns_eq_of_mem_refsIn href href'

variable (h : m.Seeded s₀) (hserves : s.Serves (s₀.sources reviewer))
  (hquiet : ∀ ns ∈ (s₀.sources reviewer).namespaces, (s₀.sources reviewer).Quiet (.authz ns) s)

include h hquiet in
theorem isSome_of_mem_refsIn {ref : ObjectRef} (href : ref ∈ (sources m reviewer).refsIn ns) :
    (s.objects.get? ref).isSome := by
  have href : ref ∈ (s₀.sources reviewer).refsIn ns :=
    (Sources.mem_refsIn_congr (refiles_tenants h reviewer) (refiles_inventories h reviewer)).1 href
  obtain ⟨t, ht⟩ := List.exists_mem_of_ne_nil _ (Sources.claimants_ne_nil_of_mem_refsIn href)
  exact hquiet ns (Sources.mem_namespaces_iff.2 (.inl ⟨t, Sources.mem_claimants_iff.1 ht⟩)) ref href

include h hserves hquiet in
theorem stored_iff (ref : ObjectRef) : ref ∈ (rows m reviewer).map PlannedRow.ref ↔
    ref.kind ∈ [.role, .roleBinding, .clusterRole, .clusterRoleBinding] ∧
      (s.objects.get? ref).isSome := by
  have hderived : ref.kind.origin ≠ none ↔
      ref.kind ∈ [.role, .roleBinding, .clusterRole, .clusterRoleBinding] := by
    cases ref.kind <;> simp [Kind.origin]
  have hcongr (ns : String) :
      ref ∈ (sources m reviewer).refsIn ns ↔ ref ∈ (s₀.sources reviewer).refsIn ns :=
    Sources.mem_refsIn_congr (refiles_tenants h reviewer) (refiles_inventories h reviewer)
  rw [map_ref_rows, List.mem_flatMap, ← hderived]
  constructor
  · rintro ⟨ns, -, href⟩
    exact ⟨Serves.origin_of_mem_refsIn ((hcongr ns).1 href), isSome_of_mem_refsIn h hquiet href⟩
  · rintro ⟨horigin, hsome⟩
    obtain ⟨object, hget⟩ := Option.isSome_iff_exists.1 hsome
    obtain ⟨ns, href⟩ := hserves.exists_mem_refsIn hget horigin
    have href := (hcongr ns).2 href
    have hclaimed := Sources.claimants_ne_nil_of_mem_refsIn href
    exact ⟨ns, (mem_claimedNamespaces_iff reviewer).2 hclaimed, href⟩

include h hserves hquiet in
theorem exists_shows_of_mem_rows {row : PlannedRow} (hrow : row ∈ rows m reviewer) :
    ∃ object, s.objects.get? row.ref = some object ∧ row.Shows object := by
  have htenants := refiles_tenants h reviewer
  have hinventories := refiles_inventories h reviewer
  obtain ⟨ns, hclaimed, ⟨t, ht, hrow⟩ | ⟨i, hi, hrow⟩⟩ := cases_of_mem_rows hrow
  · have hsome {ref : ObjectRef} (href : ref ∈ pairRefs Tenant.viewerRole _ t) :=
      isSome_of_mem_refsIn h hquiet (Sources.mem_refsIn_iff.2 (.inl ⟨t, ht, href⟩))
    obtain ⟨t', ht', hrefiled⟩ := htenants.kept t (Sources.mem_claimants_iff.1 ht).1
    obtain ⟨hasksRole, hasksBinding⟩ := hserves.asks_tenant ht'
    rcases hrow with rfl | rfl
    · rw [hrefiled.viewerRole_tenant_eq] at hasksRole
      exact exists_shows_role hserves.toFits hasksRole (hsome List.mem_cons_self)
    · exact exists_shows_binding hserves.toFits hasksBinding
        (Sources.ref_tenantBinding_of_refiled hrefiled _ _)
        (Sources.perm_tenantBinding hinventories rfl hrefiled)
        (hsome (List.mem_cons_of_mem _ List.mem_cons_self))
  · have hsome {ref : ObjectRef} (href : ref ∈ pairRefs Inventory.viewerRole _ i) :=
      isSome_of_mem_refsIn h hquiet (Sources.mem_refsIn_iff.2 (.inr ⟨hclaimed, i, hi, href⟩))
    obtain ⟨i', hi', hrefiled⟩ := hinventories.kept i (Sources.mem_inventoriesIn_iff.1 hi).1
    obtain rfl := Sources.ns_of_mem_inventoriesIn hi
    have hclaimed' : i' ∈ (s₀.sources reviewer).claimed := by
      have hns : i'.ns = i.ns := by rw [Inventory.ns, Inventory.ns, hrefiled.inventory_eq.2.1]
      refine Sources.mem_claimed_iff.2 ⟨hi', ?_⟩
      rw [hns]
      exact (not_congr (Sources.refiles_claimants htenants i.ns).eq_nil_iff).1 hclaimed
    obtain ⟨hasksRole, hasksBinding⟩ := hserves.asks_inventory hclaimed'
    rcases hrow with rfl | rfl
    · rw [hrefiled.viewerRole_inventory_eq] at hasksRole
      exact exists_shows_role hserves.toFits hasksRole (hsome List.mem_cons_self)
    · exact exists_shows_binding hserves.toFits hasksBinding
        (Sources.ref_inventoryBinding_of_refiled hrefiled _ _)
        (Sources.perm_inventoryBinding htenants hrefiled)
        (hsome (List.mem_cons_of_mem _ List.mem_cons_self))

include h hserves hquiet in
theorem agrees_rows : Agrees (rows m reviewer) s where
  nodup := nodup_rows h
  stored := stored_iff h hserves hquiet
  shows _ hrow := exists_shows_of_mem_rows h hserves hquiet hrow
  gate _ hrow := gate_of_mem_rows hrow

/-! ## Commands -/

section Run

variable {context : CommandContext} {w after : World} {most n : Nat}

theorem pure_inj {α : Type} {a b : α}
    (h : (pure a : ExceptT CommandFailure (StateM Printed) α) = pure b) : a = b :=
  Except.ok.inj (congrArg Prod.fst (congrArg (fun act ↦ (ExceptT.run act).run {}) h))

theorem throw_bind {α β : Type} (e : CommandFailure)
    (f : α → ExceptT CommandFailure (StateM Printed) β) : (throw e >>= f) = throw e := rfl

theorem run_read_bind {α : Type} (f : CommandContext → CommandM α) :
    (read >>= f).run context = (f context).run context := rfl

theorem run_perform {α : Type} (reviewer : Reviewer) (t : Task α) (w : World)
    (context : CommandContext) : (perform reviewer t w).run context =
      match t.exec ⟨context.ambient, reviewer⟩ w with
      | (.ok a, w) => pure (a, w)
      | (.error e, _) => throw (.failed e) := by
  unfold perform Task.exec
  rw [run_read_bind]
  generalize t.run.run ⟨context.ambient, reviewer⟩ w = r
  obtain ⟨_ | _, _⟩ := r <;> rfl

theorem run_perform_of_ok {α : Type} {t : Task α} {a : α}
    (h : t.exec ⟨context.ambient, reviewer⟩ w = (.ok a, after)) :
    (perform reviewer t w).run context = pure (a, after) := by
  rw [run_perform, h]

theorem run_mapM_of_pure {α β : Type} {f : α → CommandM β} {g : α → β}
    (h : ∀ a, (f a).run context = pure (g a)) (l : List α) :
    (l.mapM f).run context = pure (l.map g) := by
  induction l with
  | nil => rfl
  | cons a rest ih =>
    rw [List.mapM_cons, ReaderT.run_bind, h, pure_bind, ReaderT.run_bind, ih, pure_bind]
    rfl

theorem run_plannedRows (m : Manifest) (reviewer : Reviewer) (context : CommandContext) :
    (plannedRows m reviewer).run context = pure (rows m reviewer) := by
  unfold plannedRows
  rw [ReaderT.run_bind,
    run_mapM_of_pure (g := fun ns ↦ planned m (Pass.reviewedAccess reviewer ns) ns),
    pure_bind, rows, List.flatMap_def]
  · rfl
  · intro ns
    obtain ⟨reviews, hreviewed⟩ := Pass.exec_reviewed ⟨context.ambient, reviewer⟩ {} ns
    rw [ReaderT.run_bind, run_perform_of_ok hreviewed, pure_bind]
    rfl

theorem run_seeded_eq_pure_iff : (seeded m).run context = pure w ↔
    (m.seed context.ambient.now).run.run ⟨context.ambient, unreachable⟩ {} = (.ok (), w) := by
  unfold seeded
  rw [run_read_bind]
  dsimp only
  generalize (m.seed context.ambient.now).run.run ⟨context.ambient, unreachable⟩ {} = seeding
  obtain ⟨u | _, w'⟩ := seeding
  · constructor
    · intro h
      cases congrArg Prod.fst (congrArg (fun act ↦ (ExceptT.run act).run {}) h)
    · intro h
      cases h
  · constructor
    · intro h
      rw [pure_inj h]
    · intro h
      cases h
      rfl

theorem run_settled (reviewer : Reviewer) (most : Nat) (w : World) (context : CommandContext) :
    (settled reviewer most w).run context =
      match (Station.mk w {} 0).exec (Controller.runUntilIdle
        (.reliable ⟨context.ambient, reviewer⟩) context.ambient.now
        context.settings.controllerConfig most) with
      | (.ok n, st) => pure (n, st.world)
      | (.error e, _) => throw (.failed e) := by
  unfold settled Station.exec
  rw [run_read_bind]
  dsimp only
  generalize ((Controller.runUntilIdle (.reliable ⟨context.ambient, reviewer⟩) context.ambient.now
    context.settings.controllerConfig most).run.run {}).run w = r
  obtain ⟨⟨_ | _, _⟩, _⟩ := r <;> rfl

theorem run_settled_of_ok {queue : WorkQueue ReconcileKey}
    (h : ((Controller.runUntilIdle (.reliable ⟨context.ambient, reviewer⟩) context.ambient.now
      context.settings.controllerConfig most).run.run {}).run w = ((.ok n, queue), after)) :
    (settled reviewer most w).run context = pure (n, after) := by
  rw [run_settled, Station.exec, h]

theorem not_run_settled_of_error {e : Error}
    (h : (((Controller.runUntilIdle (.reliable ⟨context.ambient, reviewer⟩) context.ambient.now
      context.settings.controllerConfig most).run.run {}).run w).1.1 = .error e) :
    (settled reviewer most w).run context ≠ pure (n, after) := by
  intro hsettled
  rw [run_settled, Station.exec] at hsettled
  rcases hrun : ((Controller.runUntilIdle (.reliable ⟨context.ambient, reviewer⟩) context.ambient.now
      context.settings.controllerConfig most).run.run {}).run w with ⟨⟨result, queue⟩, w'⟩
  rw [hrun] at h hsettled
  dsimp only at h
  subst h
  cases congrArg Prod.fst (congrArg (fun act ↦ (ExceptT.run act).run {}) hsettled)

end Run

/-- For a manifest that can be seeded, the rows of the plan agree with the store whenever reconciling
comes to rest; with settings that are not refused it does, if it may reconcile often enough. -/
theorem exists_plannedRows_agrees_settled {m : Manifest} {context : CommandContext} {w : World}
    (hseed : (seeded m).run context = pure w) (reviewer : Reviewer) :
    ∃ rows, (plannedRows m reviewer).run context = pure rows ∧
      (∀ most n after, (settled reviewer most w).run context = pure (n, after) →
        Agrees rows after.store) ∧
      (context.settings.refusal? = none → ∃ enough, ∀ most, enough ≤ most →
        ∃ n after, (settled reviewer most w).run context = pure (n, after)) := by
  have hseeded := Manifest.seeded_of_seed (run_seeded_eq_pure_iff.1 hseed)
  have hserves := hseeded.serves reviewer
  obtain ⟨env, henv⟩ : ∃ env : Surroundings, env = ⟨context.ambient, reviewer⟩ := ⟨_, rfl⟩
  obtain ⟨config, hconfig⟩ : ∃ config, config = context.settings.controllerConfig := ⟨_, rfl⟩
  refine ⟨rows m reviewer, run_plannedRows m reviewer context, ?_⟩
  by_cases hplace : config.createDefaultConfig → config.installNamespace ≠ ""
  · have hreviewer : env.reviewer = (w.store.sources reviewer).reviewer := by
      rw [henv]
      rfl
    obtain ⟨p, rested, -, -, hupkeep, hquiet, -, -, hrun, hfails⟩ :=
      Station.exec_runUntilIdle hserves hseeded.led hplace hreviewer context.ambient.now rfl rfl
        (.inl (Nat.le_refl _))
    rw [henv, hconfig] at hrun hfails
    have hagrees : Agrees (rows m reviewer) rested.store := by
      refine agrees_rows hseeded hupkeep.serves fun ns hns ↦ hquiet _ ?_
      exact Sources.mem_keys_iff.2 (.inl ⟨ns, hns, rfl⟩)
    constructor
    · intro most n after hsettled
      by_cases hmost : p ≤ most
      · rw [run_settled_of_ok (hrun most hmost)] at hsettled
        cases pure_inj hsettled
        exact hagrees
      · exact absurd hsettled (not_run_settled_of_error (hfails most (Nat.lt_of_not_le hmost)))
    · exact fun _ ↦ ⟨p, fun most hmost ↦ ⟨p, rested, run_settled_of_ok (hrun most hmost)⟩⟩
  · -- the settings ask for a config without saying where
    rw [Classical.not_imp, not_not] at hplace
    obtain ⟨hcreate, hempty⟩ := hplace
    rw [hconfig] at hcreate hempty
    constructor
    · intro most n after hsettled
      obtain ⟨e, he⟩ := Station.exec_runUntilIdle_of_empty hseeded.led hcreate hempty
        ⟨context.ambient, reviewer⟩ context.ambient.now most
      exact absurd hsettled (not_run_settled_of_error he)
    · exact fun hsettings ↦ absurd hempty (context.settings.installNamespace_ne_empty hsettings)

/-- Two tenants that share a namespace, one with a developer who is no service account, and an inventory
that nobody claims. -/
theorem exists_plannedRows_agrees_settled_of_shared_namespace :
    let context : CommandContext := { ambient := ⟨default, numberedUid⟩, read := .error }
    let guild : Tenant := ⟨.cluster "guild", "shop", .of ["ann", "system:serviceaccount:bot"] ["devs"]⟩
    let m : Manifest :=
      { tenants := [Tenant.new "team" "shop", guild]
        inventories := [Inventory.new "shop" "db", Inventory.new "bar" "db"] }
    let w := ((m.seed default).run.run ⟨context.ambient, unreachable⟩ {}).2
    (seeded m).run context = pure w ∧
      ∃ rows, (plannedRows m m.grants.review).run context = pure rows ∧
        ∃ enough, ∀ most, enough ≤ most → ∃ n after,
          (settled m.grants.review most w).run context = pure (n, after) ∧ Agrees rows after.store := by
  intro context guild m w
  have hseed : (seeded m).run context = pure w :=
    run_seeded_eq_pure_iff.2 (Manifest.run_seed_of_toBool (by decide +kernel))
  obtain ⟨rows, hplan, hagrees, hsettles⟩ := exists_plannedRows_agrees_settled hseed m.grants.review
  obtain ⟨enough, henough⟩ := hsettles (by decide +kernel)
  refine ⟨hseed, rows, hplan, enough, fun most hmost ↦ ?_⟩
  obtain ⟨n, after, hsettled⟩ := henough most hmost
  exact ⟨n, after, hsettled, hagrees most n after hsettled⟩

end Command

end TenantAccess
