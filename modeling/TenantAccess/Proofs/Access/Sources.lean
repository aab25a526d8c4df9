import TenantAccess.Proofs.Access.Algebra

/-!
# Where access comes from

Access to an inventory and access to a tenant are drawn from lists of principals, in a fixed order and
each principal once.  Both decide about inheritance on their own, and agree: whoever may view an
inventory may view a tenant of its namespace, or lists all tenants anyway.
-/

namespace TenantAccess

def AccessSet.principals (a : AccessSet) : Principals := .of a.users a.groups

/-- The declarations that access to the inventory is drawn from, in their order. -/
def Inventory.sources (i : Inventory) (tenants : List Tenant) : List Principals :=
  if i.spec.authz.isUnset then
    (tenants.filter (·.inventoryNamespace = i.metadata.ns?.getD "")).map Tenant.developer
  else [i.spec.authz]

/-- Developers by review, then the inventories one by one, and last the tenant's own developers. -/
def Tenant.developerSources (t : Tenant) (inventories : List Inventory) (review : AccessSet) :
    List Principals :=
  let own := t.ownInventories inventories
  review.principals :: (own.filter (!·.spec.authz.isUnset)).map (·.spec.authz) ++
    if own.any (·.spec.authz.isUnset) then [t.developer] else []

/-- The declarations that access to the tenant is drawn from, in their order. -/
def Tenant.sources (t : Tenant) (inventories : List Inventory) (reviewed : ReviewedAccess) :
    List Principals :=
  reviewed.serviceAdmin.principals :: t.developerSources inventories reviewed.developerReview

namespace AccessSet

variable {a b : AccessSet} {sources sources' : List Principals}

/-- `a` names the principals of the sources but for those in `excluded`, each where it is first seen,
and nobody twice. -/
structure DrawnFrom (sources : List Principals) (excluded a : AccessSet) : Prop where
  distinct : a.Distinct
  users : FirstSeen ((sources.flatMap Principals.users).filter (· ∉ excluded.users)) a.users
  groups : FirstSeen ((sources.flatMap Principals.groups).filter (· ∉ excluded.groups)) a.groups

/-- Without repetitions, `a` reads like the sources. -/
structure Spells (sources : List Principals) (a : AccessSet) : Prop where
  users : a.users.eraseDups = (sources.flatMap Principals.users).eraseDups
  groups : a.groups.eraseDups = (sources.flatMap Principals.groups).eraseDups

theorem spells_principals (a : AccessSet) : Spells [a.principals] a :=
  ⟨by simp [principals, Principals.of, Principals.users],
    by simp [principals, Principals.of, Principals.groups]⟩

namespace Spells

theorem union (ha : Spells sources a) (hb : Spells sources' b) :
    Spells (sources ++ sources') (a.union b) where
  users := by
    rw [List.flatMap_append]
    exact (eraseDups_eraseDups _).trans (eraseDups_append_congr ha.users hb.users)
  groups := by
    rw [List.flatMap_append]
    exact (eraseDups_eraseDups _).trans (eraseDups_append_congr ha.groups hb.groups)

theorem extendFrom (h : Spells sources a) (d : Principals) :
    Spells (sources ++ [d]) (a.extendFrom d.users d.groups) where
  users := by
    rw [List.flatMap_append, List.flatMap_singleton]
    exact (eraseDups_eraseDups _).trans (eraseDups_append_congr h.users rfl)
  groups := by
    rw [List.flatMap_append, List.flatMap_singleton]
    exact (eraseDups_eraseDups _).trans (eraseDups_append_congr h.groups rfl)

theorem foldl_extendFrom {α : Type} (h : Spells sources a) (f : α → Principals) (l : List α) :
    Spells (sources ++ l.map f)
      (l.foldl (fun a x ↦ a.extendFrom (f x).users (f x).groups) a) := by
  induction l generalizing a sources with
  | nil => simpa using h
  | cons x rest ih => simpa using ih (h.extendFrom (f x))

/-- What is left of a set once others are taken away is first seen in what is left of its sources. -/
theorem drawnFrom_subtract (h : Spells sources a) (ha : a.Distinct) (excluded : AccessSet) :
    DrawnFrom sources excluded (a.subtract excluded) where
  distinct := ha.subtract
  users := by
    have hkept : (a.subtract excluded).users =
        ((sources.flatMap Principals.users).filter (· ∉ excluded.users)).eraseDups := by
      rw [eraseDups_filter, ← h.users, eraseDups_of_nodup ha.1]
      simp [subtract]
    rw [hkept]
    exact firstSeen_eraseDups _
  groups := by
    have hkept : (a.subtract excluded).groups =
        ((sources.flatMap Principals.groups).filter (· ∉ excluded.groups)).eraseDups := by
      rw [eraseDups_filter, ← h.groups, eraseDups_of_nodup ha.2]
      simp [subtract]
    rw [hkept]
    exact firstSeen_eraseDups _

end Spells

theorem subtract_empty (a : AccessSet) : a.subtract .empty = a := by
  simp [subtract, empty]

end AccessSet

section Derivation

variable {i : Inventory} {t : Tenant} {tenants : List Tenant} {inventories : List Inventory}
  {reviewed : ReviewedAccess} {ns : String} {p : Principal}

theorem Inventory.spells_access (i : Inventory) (tenants : List Tenant) :
    AccessSet.Spells (i.sources tenants) (i.access tenants) := by
  unfold sources access
  have hnobody : AccessSet.Spells [] .empty := ⟨rfl, rfl⟩
  split
  · exact hnobody.foldl_extendFrom Tenant.developer _
  · exact hnobody.extendFrom i.spec.authz

theorem Tenant.spells_developerAccess (t : Tenant) (inventories : List Inventory)
    (review : AccessSet) :
    AccessSet.Spells (t.developerSources inventories review)
      (t.developerAccess inventories review) := by
  have hdeclared := review.spells_principals.foldl_extendFrom (fun i : Inventory ↦ i.spec.authz)
    ((t.ownInventories inventories).filter (!·.spec.authz.isUnset))
  unfold developerSources developerAccess
  dsimp only
  split
  · exact hdeclared.extendFrom t.developer
  · rw [List.append_nil]
    exact hdeclared

theorem Inventory.drawnFrom_access (i : Inventory) (tenants : List Tenant) :
    AccessSet.DrawnFrom (i.sources tenants) .empty (i.access tenants) := by
  rw [← (i.access tenants).subtract_empty]
  exact (i.spells_access tenants).drawnFrom_subtract (i.distinct_access tenants) .empty

theorem Tenant.drawnFrom_access (t : Tenant) (inventories : List Inventory)
    (reviewed : ReviewedAccess) :
    AccessSet.DrawnFrom (t.sources inventories reviewed) reviewed.tenantList
      (t.access inventories reviewed) :=
  (reviewed.serviceAdmin.spells_principals.union
    (t.spells_developerAccess inventories reviewed.developerReview)).drawnFrom_subtract
    (AccessSet.distinct_new _ _) reviewed.tenantList

theorem Inventory.mem_access_iff : p ∈ i.access tenants ↔
    i.spec.authz.isUnset = false ∧ i.spec.authz.Names p ∨
      i.spec.authz.isUnset = true ∧ ∃ t ∈ tenants,
        t.inventoryNamespace = i.metadata.ns?.getD "" ∧ t.developer.Names p := by
  rw [mem_access]
  cases i.spec.authz.isUnset <;> simp

theorem Tenant.mem_access_iff : p ∈ t.access inventories reviewed ↔
    p ∉ reviewed.tenantList ∧ (p ∈ reviewed.serviceAdmin ∨ p ∈ reviewed.developerReview ∨
      (∃ i ∈ inventories, i.metadata.ns? = some t.inventoryNamespace ∧
        i.spec.authz.isUnset = false ∧ i.spec.authz.Names p) ∨
      t.developer.Names p ∧ ∃ i ∈ inventories, i.metadata.ns? = some t.inventoryNamespace ∧
        i.spec.authz.isUnset = true) := by
  rw [mem_access, mem_developerAccess, and_comm]
  simp only [mem_ownInventories, and_assoc, and_comm (b := t.developer.Names p)]

/-- Who may view an inventory and who may view a tenant, exactly, and in which order they are named.
As sets the two are the same however the tenants, the inventories and the names in their lists are
ordered and repeated.  An inventory without a namespace inherits like one of the empty namespace, and
is in the namespace of no tenant. -/
theorem access_exact (i : Inventory) (t : Tenant) (tenants : List Tenant)
    (inventories : List Inventory) (reviewed : ReviewedAccess) :
    ((∀ p, p ∈ i.access tenants ↔
        i.spec.authz.isUnset = false ∧ i.spec.authz.Names p ∨
        i.spec.authz.isUnset = true ∧ ∃ t ∈ tenants,
          t.inventoryNamespace = i.metadata.ns?.getD "" ∧ t.developer.Names p) ∧
      AccessSet.DrawnFrom (i.sources tenants) .empty (i.access tenants) ∧
      ∀ i' tenants', i.Agrees i' → Matched Tenant.Agrees tenants tenants' →
        i.access tenants == i'.access tenants') ∧
    (∀ p, p ∈ t.access inventories reviewed ↔
        p ∉ reviewed.tenantList ∧ (p ∈ reviewed.serviceAdmin ∨ p ∈ reviewed.developerReview ∨
          (∃ i ∈ inventories, i.metadata.ns? = some t.inventoryNamespace ∧
            i.spec.authz.isUnset = false ∧ i.spec.authz.Names p) ∨
          t.developer.Names p ∧ ∃ i ∈ inventories, i.metadata.ns? = some t.inventoryNamespace ∧
            i.spec.authz.isUnset = true)) ∧
      AccessSet.DrawnFrom (t.sources inventories reviewed) reviewed.tenantList
        (t.access inventories reviewed) ∧
      ∀ t' inventories' reviewed', t.Agrees t' →
        Matched Inventory.Agrees inventories inventories' → reviewed.Agrees reviewed' →
        t.access inventories reviewed == t'.access inventories' reviewed' := by
  refine ⟨⟨fun _ ↦ Inventory.mem_access_iff, i.drawnFrom_access tenants, fun i' tenants' hi h ↦ ?_⟩,
    fun _ ↦ Tenant.mem_access_iff, t.drawnFrom_access inventories reviewed,
    fun t' inventories' reviewed' ht h hreviewed ↦ ?_⟩
  · exact (AccessSet.beq_iff (i.distinct_access _) (i'.distinct_access _)).2 fun _ ↦
      Inventory.mem_access_of_agrees hi h
  · exact (AccessSet.beq_iff (t.distinct_access _ _) (t'.distinct_access _ _)).2 fun _ ↦
      Tenant.mem_access_of_agrees ht h hreviewed

/-! ## Access in one namespace -/

theorem Tenant.mem_access_of_declared (ht : t.inventoryNamespace = ns) (hi : i ∈ inventories)
    (hns : i.metadata.ns? = some ns) (hset : i.spec.authz.isUnset = false)
    (hnames : i.spec.authz.Names p) (hunlisted : p ∉ reviewed.tenantList) :
    p ∈ t.access inventories reviewed :=
  mem_access_iff.2 ⟨hunlisted, .inr (.inr (.inl ⟨i, hi, ht ▸ hns, hset, hnames⟩))⟩

theorem Tenant.mem_access_of_inherited (ht : t.inventoryNamespace = ns) (hi : i ∈ inventories)
    (hns : i.metadata.ns? = some ns) (hunset : i.spec.authz.isUnset = true)
    (hnames : t.developer.Names p) (hunlisted : p ∉ reviewed.tenantList) :
    p ∈ t.access inventories reviewed :=
  mem_access_iff.2 ⟨hunlisted, .inr (.inr (.inr ⟨hnames, i, hi, ht ▸ hns, hunset⟩))⟩

/-- Whoever may view a tenant is let in by a review, or may view one of the inventories. -/
theorem Tenant.reviewed_or_viewer (ht : t ∈ tenants) (hp : p ∈ t.access inventories reviewed) :
    p ∈ reviewed.serviceAdmin ∨ p ∈ reviewed.developerReview ∨
      ∃ i ∈ inventories, p ∈ i.access tenants := by
  obtain ⟨-, hadmin | hreview | ⟨i, hi, -, hset, hnames⟩ | ⟨hnames, i, hi, hns, hunset⟩⟩ :=
    mem_access_iff.1 hp
  · exact .inl hadmin
  · exact .inr (.inl hreview)
  · exact .inr (.inr ⟨i, hi, Inventory.mem_access_iff.2 (.inl ⟨hset, hnames⟩)⟩)
  · -- the inventory inherits from this tenant too
    refine .inr (.inr ⟨i, hi, Inventory.mem_access_iff.2 (.inr ⟨hunset, t, ht, ?_, hnames⟩)⟩)
    rw [hns]
    rfl

/-- Access to the inventories of a namespace and access to the tenants that claim it fit together. -/
structure CoherentAccess (tenants : List Tenant) (inventories : List Inventory)
    (reviewed : ReviewedAccess) : Prop where
  /-- Whoever may view an inventory may view a tenant, or lists all tenants anyway; all the tenants if
  the inventory declares its access. -/
  of_inventory : ∀ i ∈ inventories, ∀ p ∈ i.access tenants, p ∈ reviewed.tenantList ∨
    (∃ t ∈ tenants, p ∈ t.access inventories reviewed) ∧
      (i.spec.authz.isUnset = false → ∀ t ∈ tenants, p ∈ t.access inventories reviewed)
  of_tenant : ∀ t ∈ tenants, ∀ p ∈ t.access inventories reviewed,
    p ∈ reviewed.serviceAdmin ∨ p ∈ reviewed.developerReview ∨
      ∃ i ∈ inventories, p ∈ i.access tenants
  /-- The defaults of a tenant let in nobody where no inventory inherits. -/
  of_defaults : (∀ i ∈ inventories, i.spec.authz.isUnset = false) →
    ∀ t ∈ tenants, ∀ p ∈ t.access inventories reviewed,
      p ∈ reviewed.serviceAdmin ∨ p ∈ reviewed.developerReview ∨
        ∃ i ∈ inventories, i.spec.authz.Names p

theorem coherentAccess_of_claims (reviewed : ReviewedAccess) (hsome : tenants ≠ [])
    (hclaims : ∀ t ∈ tenants, t.inventoryNamespace = ns)
    (hin : ∀ i ∈ inventories, i.metadata.ns? = some ns) :
    CoherentAccess tenants inventories reviewed where
  of_inventory i hi p hp := by
    by_cases hlisted : p ∈ reviewed.tenantList
    · exact .inl hlisted
    rcases Inventory.mem_access_iff.1 hp with ⟨hset, hnames⟩ | ⟨hunset, t, ht, -, hnames⟩
    · have hall (t : Tenant) (ht : t ∈ tenants) : p ∈ t.access inventories reviewed :=
        Tenant.mem_access_of_declared (hclaims t ht) hi (hin i hi) hset hnames hlisted
      obtain ⟨t, ht⟩ := List.exists_mem_of_ne_nil tenants hsome
      exact .inr ⟨⟨t, ht, hall t ht⟩, fun _ ↦ hall⟩
    · refine .inr ⟨⟨t, ht, ?_⟩, fun hset ↦ ?_⟩
      · exact Tenant.mem_access_of_inherited (hclaims t ht) hi (hin i hi) hunset hnames hlisted
      · rw [hunset] at hset
        cases hset
  of_tenant _ ht _ := Tenant.reviewed_or_viewer ht
  of_defaults hset t ht p hp := by
    refine (Tenant.reviewed_or_viewer ht hp).imp_right (Or.imp_right ?_)
    rintro ⟨i, hi, hp⟩
    rw [Inventory.mem_access, hset i hi] at hp
    exact ⟨i, hi, hp⟩

/-- Two tenants share a namespace with an inventory that declares who may view it, and one that
inherits from both.  Ann lists all tenants, and so has no access to her own. -/
theorem coherentAccess_of_shared_namespace :
    let team : Tenant := { Tenant.new "team" "shop" with developer := .of ["ann"] [] }
    let crew : Tenant := { Tenant.new "crew" "shop" with developer := .of ["bob"] ["staff"] }
    let web : Inventory := { Inventory.new "shop" "web" with spec.authz := .of ["carol"] [] }
    let db : Inventory := .new "shop" "db"
    let reviewed : ReviewedAccess := { tenantList := ⟨["ann"], []⟩ }
    CoherentAccess [team, crew] [web, db] reviewed ∧
      db.access [team, crew] = ⟨["ann", "bob"], ["staff"]⟩ ∧
      team.access [web, db] reviewed = ⟨["carol"], []⟩ ∧
      crew.access [web, db] reviewed = ⟨["carol", "bob"], ["staff"]⟩ := by
  intro team crew web db reviewed
  have hclaims : ∀ t ∈ [team, crew], t.inventoryNamespace = "shop" := by
    simp [team, crew, Tenant.new]
  have hin : ∀ i ∈ [web, db], i.metadata.ns? = some "shop" := by
    simp [web, db, Inventory.new, ObjectMeta.namespaced]
  exact ⟨coherentAccess_of_claims reviewed (List.cons_ne_nil _ _) hclaims hin, by decide, by decide,
    by decide⟩

end Derivation

end TenantAccess
