import TenantAccess.Pass
import TenantAccess.Proofs.Program.Alike
import TenantAccess.Proofs.Program.Mirror

/-!
# Passes that cannot tell stamps

Roles and bindings are derived from names, claims and declared access, none of which is a stamp.
-/

namespace TenantAccess

open Store

open TenantAccess.Task

open Resource.Stamped (restamp)

variable {μ : Mirror} {now now' : Timestamp}

/-! ## What is derived -/

section Derivation

variable (ρ : Restamping)

theorem Inventory.access_restamp (i : Inventory) (tenants : List Tenant) :
    (restamp ρ i).access (tenants.map (restamp ρ)) = i.access tenants := by
  change Inventory.access i _ = _
  simp only [Inventory.access, List.filter_map, List.foldl_map]
  rfl

theorem Tenant.access_restamp (t : Tenant) (inventories : List Inventory) (reviewed : ReviewedAccess) :
    (restamp ρ t).access (inventories.map (restamp ρ)) reviewed = t.access inventories reviewed := by
  simp only [Tenant.access, Tenant.developerAccess, Tenant.ownInventories, List.filter_map,
    List.foldl_map, List.any_map]
  rfl

end Derivation

/-- A derived type whose stamps are all in the metadata. -/
class Derived.Stamped (α : Type) [Derived α] [Resource.Stamped α] : Prop extends Derived.Plain α where
  restamp_eq (ρ : Restamping) (a : α) :
    restamp ρ a = Resource.withMeta a (ρ.metadata (Resource.metadata a))

instance (s : Scope) : Derived.Stamped (Role s) := ⟨fun _ _ ↦ rfl⟩

instance (s : Scope) : Derived.Stamped (Binding s) := ⟨fun _ _ ↦ rfl⟩

section Ensure

variable {α ω : Type} [Derived α] [Resource.Stamped α] [Derived.Stamped α] [Resource ω]
  [Resource.Stamped ω]

theorem differs_restamp (ρ : Restamping) (desired observed : α) :
    Derived.differs desired (restamp ρ observed) = Derived.differs desired observed := by
  rw [Derived.Stamped.restamp_eq, Derived.Lawful.differs_withMeta_right]

theorem apply_restamp (ρ : Restamping) (desired observed : α) :
    Derived.apply desired (restamp ρ observed) = restamp ρ (Derived.apply desired observed) := by
  rw [Derived.Stamped.restamp_eq, Derived.Plain.apply_withMeta, Derived.Stamped.restamp_eq,
    Derived.Lawful.metadata_apply]

theorem ownedBy_restamp (ρ : Restamping) {desired : α} (h : (Resource.metadata desired).Blank)
    (owner : ω) : ownedBy (restamp ρ owner) desired = restamp ρ (ownedBy owner desired) := by
  rw [Derived.Stamped.restamp_eq, ownedBy, ownedBy, Resource.metadata_withMeta,
    Derived.Plain.withMeta_withMeta, OwnerReference.controllerOf_restamp, h.restamp_owned]

theorem mirrored_ensure [Resource.Stamped.Native α] {desired : α}
    (h : (Resource.metadata desired).Blank) (owner : ω) :
    Mirrored μ id (ensure now desired owner) (ensure now' desired (restamp μ.toRestamping owner)) := by
  unfold ensure
  split
  · exact mirrored_pure id _
  · refine (mirrored_find? _).bind fun o ↦ ?_
    cases o with
    | none =>
      rw [Option.map_none]
      dsimp only
      rw [ownedBy_restamp _ h]
      exact (mirrored_create _).bind fun _ ↦ mirrored_pure id _
    | some observed =>
      rw [Option.map_some]
      dsimp only
      -- ownership is decided by comparing identities, and those that differ still do
      rw [differs_restamp, Resource.Stamped.metadata_restamp, Resource.Stamped.metadata_restamp,
        Restamping.uid_metadata, Restamping.isOwnedBy_metadata, apply_restamp]
      split
      · exact mirrored_pure id _
      · split
        · exact mirrored_pure id _
        · exact (mirrored_update _).bind fun _ ↦ mirrored_pure id _

end Ensure

namespace Pass

theorem mirrored_reviewOrEmpty (action : ReviewAction) :
    Mirrored μ id (reviewOrEmpty action) (reviewOrEmpty action) := by
  refine (mirrored_review action).bind fun answer ↦ ?_
  cases answer <;> exact mirrored_pure id _

theorem mirrored_serviceAdmin (ns : String) :
    Mirrored μ id (serviceAdmin ns) (serviceAdmin ns) := by
  refine (mirrored_reviewOrEmpty _).bind fun inventories ↦ ?_
  dsimp only [id_eq]
  split
  · exact mirrored_pure id _
  · exact (mirrored_reviewOrEmpty _).bind fun _ ↦ mirrored_pure id _

theorem mirrored_reviewed (ns : String) : Mirrored μ id (reviewed ns) (reviewed ns) :=
  (mirrored_serviceAdmin ns).bind fun _ ↦ (mirrored_reviewOrEmpty _).bind fun _ ↦
    (mirrored_reviewOrEmpty _).bind fun _ ↦ mirrored_pure id _

theorem mirrored_refresh : Mirrored μ (fun r ↦ (r.1, r.2.map (restamp μ.toRestamping)))
    (refresh now) (refresh now') :=
  (mirrored_list _).bind fun tenants ↦ (mirrored_publish tenants).bind fun _ ↦ mirrored_pure _ _

theorem mirrored_bound (l : List Inventory) : Mirrored μ (List.map (restamp μ.toRestamping))
    (bound now l) (bound now' (l.map (restamp μ.toRestamping))) := by
  induction l with
  | nil => exact mirrored_pure _ _
  | cons i rest ih =>
    refine (mirrored_find? _).bind fun binding ↦ ih.bind fun others ↦ ?_
    rw [Option.isSome_map, ← List.map_cons, ← apply_ite (List.map (restamp μ.toRestamping))]
    exact mirrored_pure _ _

theorem mirrored_ensureTenants (inventories : List Inventory) (inputs : ReviewedAccess)
    (l : List Tenant) (summary : PassSummary) : Mirrored μ id
      (ensureTenants now inventories inputs l summary)
      (ensureTenants now' (inventories.map (restamp μ.toRestamping)) inputs
        (l.map (restamp μ.toRestamping)) summary) := by
  induction l generalizing summary with
  | nil => exact mirrored_pure _ _
  | cons t rest ih =>
    refine (mirrored_ensure ⟨rfl, rfl, rfl⟩ t).bind fun role ↦ ?_
    rw [Tenant.access_restamp]
    exact (mirrored_ensure ⟨rfl, rfl, rfl⟩ t).bind fun binding ↦ ih _

theorem mirrored_ensureInventories (tenants : List Tenant) (l : List Inventory)
    (summary : PassSummary) : Mirrored μ id (ensureInventories now tenants l summary)
      (ensureInventories now' (tenants.map (restamp μ.toRestamping))
        (l.map (restamp μ.toRestamping)) summary) := by
  induction l generalizing summary with
  | nil => exact mirrored_pure _ _
  | cons i rest ih =>
    refine (mirrored_ensure ⟨rfl, rfl, rfl⟩ i).bind fun role ↦ ?_
    rw [Inventory.access_restamp]
    exact (mirrored_ensure ⟨rfl, rfl, rfl⟩ i).bind fun binding ↦ ih _

theorem mirrored_run (ns : String) : Mirrored μ id (run now ns) (run now' ns) := by
  refine mirrored_claims.bind fun previous ↦ mirrored_refresh.bind fun r ↦
    (mirrored_list _).bind fun listed ↦ ?_
  obtain ⟨claims, allTenants⟩ := r
  have htenants : (allTenants.map (restamp μ.toRestamping)).filter (·.inventoryNamespace = ns) =
      (allTenants.filter (·.inventoryNamespace = ns)).map (restamp μ.toRestamping) :=
    List.filter_map ..
  dsimp only
  rw [htenants, List.isEmpty_map, List.length_map]
  split
  · refine (mirrored_bound listed).bind fun inventories ↦ ?_
    rw [List.length_map]
    exact (mirrored_pure id _).bind fun summary ↦ mirrored_ensureInventories _ _ _
  · refine (mirrored_pure _ listed).bind fun inventories ↦ ?_
    rw [List.length_map]
    exact (mirrored_reviewed ns).bind fun inputs ↦
      (mirrored_ensureTenants _ _ _ _).bind fun summary ↦ mirrored_ensureInventories _ _ _

end Pass

end TenantAccess
