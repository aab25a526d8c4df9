import TenantAccess.Proofs.Program.Alike
import TenantAccess.Proofs.Rbac.Exact

/-!
# Passes do not depend on other namespaces

A pass over a namespace lists the tenants of the whole cluster, but what it writes is a matter of the
claimants of the namespace, of its inventories, and of what is derived from them.  Two stores that hold
the same of these are treated alike, whatever else they hold, and all else stays as it is.
-/

namespace TenantAccess

open Json Store TenantAccess.Derivation

section Undated

variable {α β ω : Type} [Derived α] [Derived β] [Resource ω] [Resource.Lawful ω]
  {now : Timestamp} {ns : String}

@[simp] theorem Resource.metadata_undated (o : ω) :
    metadata (undated o) = (metadata o).undated := metadata_withMeta ..

theorem ensure_undated (desired : α) (owner : ω) :
    ensure now desired (Resource.undated owner) = ensure now desired owner := by
  have howned : ownedBy (Resource.undated owner) desired = ownedBy owner desired := by
    simp [ownedBy, OwnerReference.controllerOf, Resource.name, ObjectMeta.undated]
  unfold ensure
  rw [howned, Resource.metadata_undated]
  rfl

theorem ensurePairs_undated {role : ω → α} {binding binding' : ω → β}
    (hrole : ∀ o, role (Resource.undated o) = role o)
    (hbinding : ∀ o, binding' (Resource.undated o) = binding o) (l : List ω)
    (summary : PassSummary) :
    ensurePairs now role binding' (l.map Resource.undated) summary =
      ensurePairs now role binding l summary := by
  induction l generalizing summary with
  | nil => rfl
  | cons o rest ih => simp only [List.map_cons, ensurePairs, hrole, hbinding, ensure_undated, ih]

theorem Tenant.access_undated (t : Tenant) (inventories : List Inventory) (inputs : ReviewedAccess) :
    Tenant.access (Resource.undated t) (inventories.map Resource.undated) inputs =
      t.access inventories inputs := by
  have hown : Tenant.ownInventories (Resource.undated t) (inventories.map Resource.undated) =
      (t.ownInventories inventories).map Resource.undated := by
    rw [Tenant.ownInventories, List.filter_map]
    rfl
  unfold Tenant.access Tenant.developerAccess
  dsimp only
  rw [hown, List.any_map, List.filter_map, List.foldl_map]
  rfl

theorem Inventory.access_undated (i : Inventory) (tenants : List Tenant) :
    Inventory.access (Resource.undated i) (tenants.map Resource.undated) = i.access tenants := by
  unfold Inventory.access
  dsimp only
  rw [List.filter_map, List.foldl_map]
  rfl

namespace Pass

theorem bound_undated (l : List Inventory) :
    bound now (l.map Resource.undated) = List.map Resource.undated <$> bound now l := by
  induction l with
  | nil => rfl
  | cons i rest ih =>
    simp only [List.map_cons, bound, ih, map_bind, map_pure, bind_map_left]
    refine bind_congr fun binding ↦ bind_congr fun others ↦ ?_
    cases binding.isSome <;> rfl

theorem ensureInventories_undated (tenants : List Tenant) (l : List Inventory)
    (summary : PassSummary) :
    ensureInventories now (tenants.map Resource.undated) (l.map Resource.undated) summary =
      ensureInventories now tenants l summary := by
  rw [ensureInventories_eq, ensureInventories_eq]
  refine ensurePairs_undated (fun _ ↦ rfl) (fun i ↦ ?_) l summary
  rw [Inventory.access_undated]
  rfl

theorem ensureTenants_undated (inventories : List Inventory) (inputs : ReviewedAccess)
    (l : List Tenant) (summary : PassSummary) :
    ensureTenants now (inventories.map Resource.undated) inputs (l.map Resource.undated) summary =
      ensureTenants now inventories inputs l summary := by
  rw [ensureTenants_eq, ensureTenants_eq]
  refine ensurePairs_undated (fun _ ↦ rfl) (fun t ↦ ?_) l summary
  rw [Tenant.access_undated]
  rfl

theorem bring_undated (tenants : List Tenant) (listed : List Inventory) (summary : PassSummary) :
    bring now ns (tenants.map Resource.undated) (listed.map Resource.undated) summary =
      bring now ns tenants listed summary := by
  unfold bring
  simp only [List.isEmpty_map, List.length_map, bound_undated, bind_map_left,
    ensureInventories_undated, ensureTenants_undated]

end Pass

end Undated

namespace PassSummary

/-- A summary without the number of the claims that were published, and what they released. -/
def counts (s : PassSummary) : PassSummary := { s with snapshotVersion := 0, released := [] }

theorem counts_record (s : PassSummary) (o : EnsureOutcome) :
    (s.record o).counts = s.counts.record o := by
  cases o <;> rfl

end PassSummary

section Alike

variable {α β ω : Type} [Derived α] [Derived.Plain α] [Derived β] [Derived.Plain β] [Resource ω]
  {role : ω → α} {binding : ω → β} {roleName name : String → String} {now : Timestamp}
  {P : ObjectRef → Prop} {env env' : Surroundings} {summary summary' : PassSummary} {ns : String}

theorem alike_ensurePairs (hrole : Derives role roleName) (hbinding : Derives binding name)
    {l : List ω} (hvalid : ∀ o ∈ l, scopeDefect (Resource.kind ω) (Resource.metadata o) = none)
    (hP : ∀ o ∈ l, ∀ ref ∈ pairRefs role binding o, P ref)
    (hcounts : summary.counts = summary'.counts) :
    Task.Alike now P env env' (ensurePairs now role binding l summary)
      (ensurePairs now role binding l summary') fun s s' ↦ s.counts = s'.counts := by
  induction l generalizing summary summary' with
  | nil => exact Task.alike_pure hcounts
  | cons o rest ih =>
    have ho := hvalid o List.mem_cons_self
    have hrefs := hP o List.mem_cons_self
    unfold ensurePairs
    apply (Task.alike_ensure o (hrole.gate_eq o) (hrole.scope_eq o ho)
      (hrefs _ List.mem_cons_self)).bind
    rintro r _ rfl
    apply (Task.alike_ensure o (hbinding.gate_eq o) (hbinding.scope_eq o ho)
      (hrefs _ (List.mem_cons_of_mem _ List.mem_cons_self))).bind
    rintro b _ rfl
    apply ih (fun o' ho' ↦ hvalid o' (List.mem_cons_of_mem _ ho'))
      (fun o' ho' ↦ hP o' (List.mem_cons_of_mem _ ho'))
    rw [PassSummary.counts_record, PassSummary.counts_record, hcounts,
      PassSummary.counts_record, PassSummary.counts_record]

namespace Pass

theorem alike_reviewed
    (h : reviewedAccess env.reviewer ns = reviewedAccess env'.reviewer ns) :
    Task.Alike now P env env' (reviewed ns) (reviewed ns) Eq := by
  intro w w' hagree
  obtain ⟨reviews, hexec⟩ := exec_reviewed env w ns
  obtain ⟨reviews', hexec'⟩ := exec_reviewed env' w' ns
  exact ⟨_, _, _, _, hexec, hexec', h, hagree.inStep⟩

theorem alike_bound {l : List Inventory}
    (hP : ∀ i ∈ l, P ⟨.roleBinding,
      .namespaced i.ns (bindingName (inventoryRoleName i.metadata.name))⟩) :
    Task.Alike now P env env' (bound now l) (bound now l) fun l₁ l₂ ↦ l₁ = l₂ ∧ l₁ ⊆ l := by
  induction l with
  | nil => exact Task.alike_pure ⟨rfl, List.Subset.refl _⟩
  | cons i rest ih =>
    unfold bound
    apply (Task.alike_find? (hP i List.mem_cons_self)).bind
    intro b b' hsome
    apply (ih fun i' hi' ↦ hP i' (List.mem_cons_of_mem _ hi')).bind
    rintro others _ ⟨rfl, hsub⟩
    apply Task.alike_pure
    rw [← hsome]
    refine ⟨rfl, ?_⟩
    split
    · exact List.cons_subset_cons i hsub
    · exact List.Subset.trans hsub (List.subset_cons_self i rest)

/-- What a pass over `ns` reads and writes: roles and bindings in `ns`, and those of its claimants. -/
def Governs (ns : String) (tenants : List Tenant) (ref : ObjectRef) : Prop :=
  (ref.kind = .role ∨ ref.kind = .roleBinding) ∧ ref.key.ns? = some ns ∨
    ∃ t ∈ tenants, ref = ⟨.clusterRole, .cluster (tenantRoleName t.metadata.name)⟩ ∨
      ref = ⟨.clusterRoleBinding, .cluster (bindingName (tenantRoleName t.metadata.name))⟩

variable {tenants : List Tenant} {listed : List Inventory}

theorem governs_of_tenant {t : Tenant} (ht : t ∈ tenants) (access : Tenant → AccessSet)
    {ref : ObjectRef}
    (h : ref ∈ pairRefs Tenant.viewerRole (fun t ↦ t.viewerBinding (access t)) t) :
    Governs ns tenants ref := by
  refine .inr ⟨t, ht, ?_⟩
  rcases List.mem_cons.1 h with rfl | h
  · exact .inl rfl
  · exact .inr (List.mem_singleton.1 h)

theorem governs_of_inventory {i : Inventory} (hi : i.metadata.ns? = some ns)
    (access : Inventory → AccessSet) {ref : ObjectRef}
    (h : ref ∈ pairRefs Inventory.viewerRole (fun i ↦ i.viewerBinding (access i)) i) :
    Governs ns tenants ref := by
  have hns : some i.ns = some ns := by rw [Inventory.ns, hi, Option.getD_some]
  rcases List.mem_cons.1 h with rfl | h
  · exact .inl ⟨.inl rfl, hns⟩
  · rw [List.mem_singleton.1 h]
    exact .inl ⟨.inr rfl, hns⟩

theorem alike_ensureInventories
    (hlisted : ∀ i ∈ listed, scopeDefect .inventory i.metadata = none ∧ i.metadata.ns? = some ns)
    (hcounts : summary.counts = summary'.counts) :
    Task.Alike now (Governs ns tenants) env env' (ensureInventories now tenants listed summary)
      (ensureInventories now tenants listed summary') fun s s' ↦ s.counts = s'.counts := by
  rw [ensureInventories_eq, ensureInventories_eq]
  apply alike_ensurePairs derives_inventoryRole (derives_inventoryBinding fun i ↦ i.access tenants)
  · exact fun i hi ↦ (hlisted i hi).1
  · exact fun i hi ref href ↦ governs_of_inventory (hlisted i hi).2 _ href
  · exact hcounts

theorem alike_bring (htenants : ∀ t ∈ tenants, scopeDefect .tenant t.metadata = none)
    (hlisted : ∀ i ∈ listed, scopeDefect .inventory i.metadata = none ∧ i.metadata.ns? = some ns)
    (hreviews : reviewedAccess env.reviewer ns = reviewedAccess env'.reviewer ns)
    (hcounts : summary.counts = summary'.counts) :
    Task.Alike now (Governs ns tenants) env env' (bring now ns tenants listed summary)
      (bring now ns tenants listed summary') fun s s' ↦ s.counts = s'.counts := by
  have hcounted (n m : Nat) : ({ summary with tenants := n, inventories := m } : PassSummary).counts =
      ({ summary' with tenants := n, inventories := m } : PassSummary).counts :=
    congrArg (fun s : PassSummary ↦ { s with tenants := n, inventories := m }) hcounts
  unfold bring
  split
  · refine (alike_bound fun i hi ↦ ?_).bind ?_
    · exact governs_of_inventory (hlisted i hi).2 (fun i ↦ i.access tenants)
        (List.mem_cons_of_mem _ List.mem_cons_self)
    · rintro l _ ⟨rfl, hsub⟩
      exact alike_ensureInventories (fun i hi ↦ hlisted i (hsub hi)) (hcounted ..)
  · apply (alike_reviewed hreviews).bind
    rintro inputs _ rfl
    rw [ensureTenants_eq, ensureTenants_eq]
    refine (alike_ensurePairs derives_tenantRole
      (derives_tenantBinding fun t ↦ t.access listed inputs) htenants ?_ (hcounted ..)).bind ?_
    · exact fun t ht ref href ↦ governs_of_tenant ht _ href
    · intro s s' hs
      exact alike_ensureInventories hlisted hs

end Pass

end Alike

namespace Store

variable {s : Store} {now : Timestamp}

theorem Readable.legible (h : s.Readable now) {k : Kind} (hconfig : k ≠ .config)
    (hquota : k ≠ .resourceQuota) (params : ListParams) : s.Legible k.Object now params := by
  intro key object m hget _ _
  rw [Kind.kind_object] at hget
  exact h.decodes ⟨k, key⟩ object hconfig hquota hget

theorem readable_of_derivation (h : Derivation s) (now : Timestamp) : s.Readable now where
  coherent := h.coherent
  decodes := by
    intro ref object _ _ hget
    obtain ⟨o, rfl⟩ := h.native ref object hget
    exact ⟨o, Resource.decode_encode o⟩

end Store

namespace Pass

variable {env env' : Surroundings} {now : Timestamp} {w w' : World} {ns : String}

instance (ns : String) (tenants : List Tenant) (ref : ObjectRef) :
    Decidable (Governs ns tenants ref) := inferInstanceAs (Decidable (_ ∨ _))

/-- Two stores and two reviewers that hold and answer the same as far as a pass over `ns` is concerned:
the claimants and the inventories, what is derived from them, and four reviews. -/
structure SameIn (now : Timestamp) (ns : String) (s s' : Store) (r r' : Reviewer) : Prop where
  claimants : (s.claimants now ns).map Resource.undated =
    (s'.claimants now ns).map Resource.undated
  inventories : (s.inventoriesIn now ns).map Resource.undated =
    (s'.inventoriesIn now ns).map Resource.undated
  derived : ∀ ref, Governs ns (s.claimants now ns) ref → s.contentAt now ref = s'.contentAt now ref
  reviews : ∀ action ∈ [ReviewAction.createInventories ns, .createSecrets ns, .listInventories ns,
    .listTenants], (r action).toOption = (r' action).toOption

theorem answerOrEmpty_congr {r r' : Reviewer} {action : ReviewAction}
    (h : (r action).toOption = (r' action).toOption) :
    answerOrEmpty r action = answerOrEmpty r' action := by
  have hanswer (r : Reviewer) : answerOrEmpty r action = (r action).toOption.getD .empty := by
    unfold answerOrEmpty
    cases r action <;> rfl
  rw [hanswer, hanswer, h]

theorem SameIn.reviewedAccess_eq {s s' : Store} {r r' : Reviewer} (h : SameIn now ns s s' r r') :
    reviewedAccess r ns = reviewedAccess r' ns := by
  have hanswer {action : ReviewAction} (haction : action ∈ [ReviewAction.createInventories ns,
      .createSecrets ns, .listInventories ns, .listTenants]) :
      answerOrEmpty r action = answerOrEmpty r' action :=
    answerOrEmpty_congr (h.reviews action haction)
  unfold reviewedAccess
  rw [hanswer (by simp), hanswer (by simp), hanswer (by simp), hanswer (by simp)]

theorem exec_refresh_of_readable (h : w.store.Readable now) (env : Surroundings) :
    let tenants := w.store.objectsOf Tenant now .all
    let claims := w.claims.publish tenants
    (refresh now).exec env w = (.ok (claims, tenants), { w with claims }) := by
  intro tenants claims
  have htenants : (Task.list (α := Tenant) now .all).exec env w = (.ok tenants, w) :=
    Task.exec_list h.coherent (h.legible (k := .tenant) nofun nofun .all)
  unfold refresh
  rw [Task.exec_bind_of_ok htenants, Task.exec_bind_of_ok (Task.exec_ask _)]
  rfl

theorem exec_listed_of_readable (h : w.store.Readable now) (env : Surroundings) (ns : String) :
    (Task.list (α := Inventory) now (.inNamespace ns)).exec env w =
      (.ok (w.store.inventoriesIn now ns), w) :=
  Task.exec_list h.coherent (h.legible (k := .inventory) nofun nofun _)

theorem exec_run_of_readable (h : w.store.Readable now) (env : Surroundings) (ns : String) :
    let claims := w.claims.publish (w.store.objectsOf Tenant now .all)
    (run now ns).exec env w =
      (bring now ns (w.store.claimants now ns) (w.store.inventoriesIn now ns) {
        namespaceName := ns
        snapshotVersion := claims.version
        released := claims.releasedSince w.claims }).exec env { w with claims } := by
  intro claims
  rw [run_eq, Task.exec_bind_of_ok (Task.exec_ask _)]
  dsimp only [Request.perform]
  rw [Task.exec_bind_of_ok (exec_refresh_of_readable h env)]
  dsimp only
  rw [Task.exec_bind_of_ok (exec_listed_of_readable (w := { w with claims }) h env ns)]
  rfl

/-- Two passes over a namespace in which the stores hold the same, and for which the reviewers say the
same, come to the same, whatever else is stored: they write the same objects with the same content, and
leave everything that the pass does not govern as it was. -/
theorem run_isolated (h : w.store.Readable now) (h' : w'.store.Readable now)
    (hsame : SameIn now ns w.store w'.store env.reviewer env'.reviewer) :
    ∃ summary v summary' v', (run now ns).exec env w = (.ok summary, v) ∧
      (run now ns).exec env' w' = (.ok summary', v') ∧ summary.counts = summary'.counts ∧
      InStep now (Governs ns (w.store.claimants now ns)) w.store w'.store v.store v'.store := by
  -- both passes carry out the same program
  have hrun' := exec_run_of_readable h' env' ns
  dsimp only at hrun'
  rw [← bring_undated, ← hsame.claimants, ← hsame.inventories, bring_undated] at hrun'
  rw [exec_run_of_readable h env ns, hrun']
  have htenants : ∀ t ∈ w.store.claimants now ns, scopeDefect .tenant t.metadata = none := by
    intro t ht
    obtain ⟨hlisted, -⟩ := List.mem_filter.1 ht
    exact h.coherent.scopeDefect_of_has ((mem_objectsOf_iff h.coherent).1 hlisted).1
  have hinventories : ∀ i ∈ w.store.inventoriesIn now ns,
      scopeDefect .inventory i.metadata = none ∧ i.metadata.ns? = some ns := by
    intro i hi
    obtain ⟨hhas, haccepts⟩ := (mem_objectsOf_iff h.coherent).1 hi
    exact ⟨h.coherent.scopeDefect_of_has hhas, ListParams.accepts_inNamespace_iff.1 haccepts⟩
  apply alike_bring htenants hinventories hsame.reviewedAccess_eq
  · rfl
  · exact ⟨h, h', hsame.derived⟩

/-- A tenant and its inventory, alone and beside a neighbour for whom a pass has run. -/
theorem run_isolated_from_neighbour :
    let env : Surroundings := ⟨⟨default, numberedUid⟩, fun _ ↦ .ok .empty⟩
    let team : Tenant := ⟨{ ObjectMeta.cluster "team" with uid := "team" }, "shop", .of ["ann"] []⟩
    let db : Inventory := { metadata := { ObjectMeta.namespaced "shop" "db" with uid := "db" } }
    let settle (w : World) : World :=
      ((Task.create default db).exec env ((Task.create default team).exec env w).2).2
    let claimed := ((Task.create default (Tenant.new "guest" "bar")).exec env {}).2
    let filled := ((Task.create default (Inventory.new "bar" "db")).exec env claimed).2
    let shared := settle ((run default "bar").exec env filled).2
    ∃ summary v summary' v', (run default "shop").exec env (settle {}) = (.ok summary, v) ∧
      (run default "shop").exec env shared = (.ok summary', v') ∧
      summary.counts = summary'.counts ∧
      InStep default (Governs "shop" ((settle {}).store.claimants default "shop"))
        (settle {}).store shared.store v.store v'.store := by
  intro env team db settle claimed filled shared
  have hsettle {w : World} (h : Derivation.Reached w) : Derivation.Reached (settle w) :=
    .step (.step h (.create env default .tenant (.inl rfl) team numberedUid_ne_empty))
      (.create env default .inventory (.inr rfl) db numberedUid_ne_empty)
  have hclaimed : Derivation.Reached claimed := .step (.start {} rfl)
    (.create env default .tenant (.inl rfl) (Tenant.new "guest" "bar") numberedUid_ne_empty)
  have hfilled : Derivation.Reached filled := .step hclaimed
    (.create env default .inventory (.inr rfl) (Inventory.new "bar" "db") numberedUid_ne_empty)
  have hshared : Derivation.Reached shared :=
    hsettle (.step hfilled (.pass env default "bar" numberedUid_ne_empty))
  have hnothing (w : World)
      (h : ∀ e ∈ w.store.objects.entries,
        ¬Governs "shop" ((settle {}).store.claimants default "shop") e.1) (ref : ObjectRef)
      (hgoverns : Governs "shop" ((settle {}).store.claimants default "shop") ref) :
      w.store.contentAt default ref = none := by
    cases hget : w.store.objects.get? ref with
    | none => rw [contentAt, hget, Option.map_none]
    | some object => exact absurd hgoverns (h _ (SortedMap.mem_entries_iff.2 hget))
  refine run_isolated (readable_of_derivation (.of_reached (hsettle (.start {} rfl))) _)
    (readable_of_derivation (.of_reached hshared) _) ⟨?_, ?_, fun ref hgoverns ↦ ?_, ?_⟩
  · decide +kernel
  · decide +kernel
  · rw [hnothing _ (by decide +kernel) ref hgoverns, hnothing _ (by decide +kernel) ref hgoverns]
  · exact fun _ _ ↦ rfl

end Pass

end TenantAccess
