import TenantAccess.Proofs.Rbac.Ownership

/-!
# Passes over well-owned stores

Where every derived object belongs to its origin, ensuring one never fails, never meets a stranger's
object, and leaves all others alone.  So a pass brings the objects of all its tenants and inventories
in line, one after the other.
-/

namespace TenantAccess

open Store

def Store.Matches {α : Type} [Derived α] (s : Store) (desired : α) : Prop :=
  ∃ a : α, s.Holds a ∧ Resource.key a = Resource.key desired ∧
    Derived.differs desired a = false

def Store.AgreesOff (before after : Store) (refs : List ObjectRef) : Prop :=
  ∀ ref, ref ∉ refs → after.objects.get? ref = before.objects.get? ref

section Frame

variable {before middle after : Store} {refs refs' : List ObjectRef}

theorem Store.AgreesOff.trans (h : before.AgreesOff middle refs)
    (h' : middle.AgreesOff after refs') : before.AgreesOff after (refs ++ refs') := by
  intro ref hmem
  rw [List.mem_append, not_or] at hmem
  rw [h' ref hmem.2, h ref hmem.1]

theorem Store.agreesOff_recorded {α : Type} [Resource α] (s : Store) (type : EventType) (a : α)
    (issued : Nat) : s.AgreesOff (s.recorded type a issued) [Resource.ref a] := by
  intro ref hmem
  rw [get?_recorded, if_neg fun href ↦ hmem (List.mem_singleton.2 href)]

theorem Store.AgreesOff.holds_iff {α : Type} [Resource α] {a : α}
    (h : before.AgreesOff after refs) (hmem : Resource.ref a ∉ refs) :
    after.Holds a ↔ before.Holds a := by
  rw [Holds, Holds, h _ hmem]

theorem Store.Matches.congr {α : Type} [Derived α] {desired : α} (hm : before.Matches desired)
    (h : after.objects.get? (Resource.ref desired) = before.objects.get? (Resource.ref desired)) :
    after.Matches desired := by
  obtain ⟨a, ha, hkey, hdiffers⟩ := hm
  have href : Resource.ref a = Resource.ref desired := congrArg (ObjectRef.mk _) hkey
  refine ⟨a, ?_, hkey, hdiffers⟩
  rw [Holds, href, h, ← href]
  exact ha

end Frame

/-- The outcomes of a pass over a well-owned store. -/
def EnsureOutcome.isFine : EnsureOutcome → Bool
  | created | updated | unchanged => true
  | rejected _ | notOwned => false

theorem PassSummary.notOwned_record {s : PassSummary} {o : EnsureOutcome} (h : o.isFine) :
    (s.record o).notOwned = s.notOwned := by
  cases o <;> first | rfl | cases h

/-- What `f` derives from a valid owner has a valid place of its own, under the name built by
`name`, and passes the gate. -/
structure Derives {α ω : Type} [Derived α] [Resource ω] (f : ω → α) (name : String → String) :
    Prop where
  origin : (Resource.kind α).origin = some (Resource.kind ω, name)
  key_eq : ∀ o : ω, scopeDefect (Resource.kind ω) (Resource.metadata o) = none →
    Resource.key (f o) = ⟨(Resource.key o).ns?, name (Resource.key o).name⟩
  gate_eq : ∀ o : ω, gate (f o) = []
  scope_eq : ∀ o : ω, scopeDefect (Resource.kind ω) (Resource.metadata o) = none →
    scopeDefect (Resource.kind α) (Resource.metadata (f o)) = none

theorem Derives.key_injective {α ω : Type} [Derived α] [Resource ω] {f : ω → α}
    {name : String → String} (hf : Derives f name) {o o' : ω}
    (ho : scopeDefect (Resource.kind ω) (Resource.metadata o) = none)
    (ho' : scopeDefect (Resource.kind ω) (Resource.metadata o') = none)
    (h : Resource.key (f o) = Resource.key (f o')) : Resource.key o = Resource.key o' := by
  rw [hf.key_eq o ho, hf.key_eq o' ho'] at h
  obtain ⟨hns, hname⟩ := ObjectKey.mk.inj h
  exact ObjectKey.mk.injEq .. ▸ ⟨hns, Kind.origin_injective hf.origin hname⟩

theorem Inventory.exists_ns {i : Inventory} (h : scopeDefect .inventory i.metadata = none) :
    ∃ ns, i.metadata.ns? = some ns ∧ ns ≠ "" := exists_ns_of_scopeDefect rfl h

theorem Tenant.ns?_eq_none {t : Tenant} (h : scopeDefect .tenant t.metadata = none) :
    t.metadata.ns? = none := ns?_eq_none_of_scopeDefect rfl h

theorem derives_inventoryRole : Derives Inventory.viewerRole inventoryRoleName where
  origin := rfl
  key_eq i h := by
    obtain ⟨ns, hns, -⟩ := i.exists_ns h
    change (⟨some i.ns, _⟩ : ObjectKey) = ⟨i.metadata.ns?, _⟩
    rw [Inventory.ns, hns]
    rfl
  gate_eq := gate_inventory_viewerRole
  scope_eq i h := by
    obtain ⟨ns, hns, hne⟩ := i.exists_ns h
    refine scopeDefect_namespaced (inventoryRoleName_ne_empty _) rfl ?_ rfl
    rwa [Inventory.ns, hns]

theorem derives_inventoryBinding (access : Inventory → AccessSet) :
    Derives (fun i : Inventory ↦ i.viewerBinding (access i))
      (fun name ↦ bindingName (inventoryRoleName name)) where
  origin := rfl
  key_eq i h := by
    obtain ⟨ns, hns, -⟩ := i.exists_ns h
    change (⟨some i.ns, _⟩ : ObjectKey) = ⟨i.metadata.ns?, _⟩
    rw [Inventory.ns, hns]
    rfl
  gate_eq _ := rfl
  scope_eq i h := by
    obtain ⟨ns, hns, hne⟩ := i.exists_ns h
    refine scopeDefect_namespaced (bindingName_ne_empty _) rfl ?_ rfl
    rwa [Inventory.ns, hns]

theorem derives_tenantRole : Derives Tenant.viewerRole tenantRoleName where
  origin := rfl
  key_eq t h := by
    change (⟨none, _⟩ : ObjectKey) = ⟨t.metadata.ns?, _⟩
    rw [t.ns?_eq_none h]
    rfl
  gate_eq := gate_tenant_viewerRole
  scope_eq t h := scopeDefect_cluster (tenantRoleName_ne_empty _) rfl rfl

theorem derives_tenantBinding (access : Tenant → AccessSet) :
    Derives (fun t : Tenant ↦ t.viewerBinding (access t))
      (fun name ↦ bindingName (tenantRoleName name)) where
  origin := rfl
  key_eq t h := by
    change (⟨none, _⟩ : ObjectKey) = ⟨t.metadata.ns?, _⟩
    rw [t.ns?_eq_none h]
    rfl
  gate_eq _ := rfl
  scope_eq t h := scopeDefect_cluster (bindingName_ne_empty _) rfl rfl

namespace Derivation

variable {env : Surroundings} {now : Timestamp} {w : World}

section Ensure

variable {α ω : Type} [Derived α] [Derived.Lawful α] [Resource ω] [Resource.Lawful ω]
  {desired : α} {owner : ω} {name : String → String}

theorem ownerIs_of_holds {s : Store} (h : Derivation s) (howner : s.Holds owner)
    (horigin : (Resource.kind α).origin = some (Resource.kind ω, name)) {a : α} (ha : s.Holds a)
    (hkey : Resource.key a = ⟨(Resource.key owner).ns?, name (Resource.key owner).name⟩) :
    s.OwnerIs (Resource.metadata a) (Resource.ref owner) (Resource.metadata owner) := by
  obtain ⟨key, c, howns, hkey'⟩ := h.owned _ _ _ name ha.hasMeta horigin
  have hkey' : Resource.key a = ⟨key.ns?, name key.name⟩ := hkey'
  have heq : key = Resource.key owner := by
    obtain ⟨hns, hname⟩ := ObjectKey.mk.inj (hkey'.symm.trans hkey)
    exact ObjectKey.mk.injEq .. ▸ ⟨hns, Kind.origin_injective horigin hname⟩
  subst heq
  rwa [howns.1.unique howner.hasMeta] at howns

variable [Resource.Native α]

theorem ensuredNew {s : Store} (h : Derivation s) (henv : ∀ n, env.ambient.uid n ≠ "")
    (howner : s.Holds owner) (horigin : (Resource.kind α).origin = some (Resource.kind ω, name))
    (hkey : Resource.key desired = ⟨(Resource.key owner).ns?, name (Resource.key owner).name⟩)
    (hnone : s.objects.get? (Resource.ref desired) = none)
    (hscope : scopeDefect (Resource.kind α) (Resource.metadata desired) = none) :
    Derivation (ensuredNew env s owner desired) := by
  have hscope' := (scopeDefect_ownedBy owner desired).trans hscope
  refine h.recorded _ _ (h.coherent.create hscope' _) (named_create h.named henv _ _) ?_ ?_
  · rintro m ⟨object, hsome, -⟩
    rw [Resource.ref, key_asEnsuredNew] at hsome
    rw [Resource.ref, hsome] at hnone
    cases hnone
  · intro ownerKind name' hsome
    rw [horigin] at hsome
    cases hsome
    refine ⟨Resource.key owner, Resource.metadata owner, ⟨howner.hasMeta,
      OwnerReference.controllerOf owner, ownerReferences_asEnsuredNew .., rfl⟩, ?_⟩
    rw [key_asEnsuredNew]
    exact hkey

theorem ensuredOver {s : Store} (h : Derivation s) {observed : α} (hobserved : s.Holds observed)
    (howner : s.Holds owner) (horigin : (Resource.kind α).origin = some (Resource.kind ω, name))
    (hkey : Resource.key observed = ⟨(Resource.key owner).ns?, name (Resource.key owner).name⟩)
    (desired : α) : Derivation (ensuredOver s desired observed) := by
  have hmeta := Derived.Lawful.metadata_apply desired observed
  have hscope : scopeDefect (Resource.kind α)
      (Resource.metadata (Derived.apply desired observed)) = none := by
    rw [hmeta]
    exact h.coherent.scopeDefect_of_has (hobserved.has default)
  have hhas : s.HasMeta (Resource.ref (Derived.apply desired observed))
      (Resource.metadata observed) := by
    rw [ref_apply]
    exact hobserved.hasMeta
  refine h.recorded _ _ (h.coherent.update hscope _) (named_update h.named hhas _) ?_ ?_
  · intro m hm
    rw [Resource.ref, key_asEnsuredOver] at hm
    rw [metadata_asEnsuredOver, hm.unique hobserved.hasMeta]
    rfl
  · intro ownerKind name' hsome
    rw [horigin] at hsome
    cases hsome
    refine ⟨Resource.key owner, Resource.metadata owner, ?_, ?_⟩
    · rw [metadata_asEnsuredOver]
      exact h.ownerIs_of_holds howner horigin hobserved hkey
    · rw [key_asEnsuredOver]
      exact hkey

theorem exec_ensure (h : Derivation w.store) (henv : ∀ n, env.ambient.uid n ≠ "")
    (now : Timestamp) {f : ω → α} (hf : Derives f name) (howner : w.store.Holds owner) :
    ∃ outcome after, (ensure now (f owner) owner).exec env w = (.ok outcome, w.withStore after) ∧
      outcome.isFine ∧ Derivation after ∧ after.Matches (f owner) ∧
      w.store.AgreesOff after [Resource.ref (f owner)] := by
  have hvalid := h.coherent.scopeDefect_of_has (howner.has now)
  have horigin := hf.origin
  have hkey := hf.key_eq owner hvalid
  have hgate := hf.gate_eq owner
  have hscope := hf.scope_eq owner hvalid
  generalize f owner = desired at hkey hgate hscope ⊢
  cases hget : w.store.objects.get? (Resource.ref desired) with
  | none =>
    refine ⟨.created, _, exec_ensure_of_none owner hgate hget hscope, rfl,
      h.ensuredNew henv howner horigin hkey hget hscope, ?_, ?_⟩
    · exact ⟨asEnsuredNew env w.store owner desired, by simp [Holds, TenantAccess.ensuredNew],
        key_asEnsuredNew .., differs_asEnsuredNew ..⟩
    · have hagrees := w.store.agreesOff_recorded .added (asEnsuredNew env w.store owner desired)
        (w.store.issuedWith (Resource.metadata desired))
      rwa [Resource.ref, key_asEnsuredNew] at hagrees
  | some object =>
    obtain ⟨observed, rfl, hholds, hobserved⟩ := h.encodes.exists_holds (α := α) h.coherent hget
    have howns := h.ownerIs_of_holds howner horigin hholds (hobserved.trans hkey)
    have howned : (Resource.metadata observed).isOwnedBy (Resource.metadata owner).uid = true := by
      have huid : (Resource.metadata owner).uid ≠ "" := h.named _ _ howner.hasMeta
      obtain ⟨-, r, hr, hruid⟩ := howns
      simp [ObjectMeta.isOwnedBy, huid, hr, hruid]
    have hexec := exec_ensure_of_has env h.coherent owner hgate (hholds.has now) hobserved
    cases hdiffers : Derived.differs desired observed with
    | false =>
      rw [if_pos hdiffers] at hexec
      exact ⟨.unchanged, w.store, hexec, rfl, h, ⟨observed, hholds, hobserved, hdiffers⟩,
        fun _ _ ↦ rfl⟩
    | true =>
      rw [if_neg (by simp [hdiffers]), if_neg (by simp [howned])] at hexec
      refine ⟨.updated, _, hexec, rfl, h.ensuredOver hholds howner horigin
        (hobserved.trans hkey) desired, ?_, ?_⟩
      · exact ⟨asEnsuredOver w.store desired observed, by simp [Holds, TenantAccess.ensuredOver],
          (key_asEnsuredOver ..).trans hobserved, differs_asEnsuredOver ..⟩
      · have hagrees := w.store.agreesOff_recorded .modified
          (asEnsuredOver w.store desired observed) w.store.issued
        rwa [Resource.ref, key_asEnsuredOver, hobserved] at hagrees

end Ensure

/-! ## One owner after the other -/

section Pairs

variable {α β ω : Type} [Derived α] [Derived.Lawful α] [Resource.Native α] [Derived β]
  [Derived.Lawful β] [Resource.Native β] [Resource ω] [Resource.Lawful ω] {role : ω → α}
  {binding : ω → β} {roleName name : String → String}

def ensurePairs (now : Timestamp) (role : ω → α) (binding : ω → β) :
    List ω → PassSummary → Task PassSummary
  | [], summary => return summary
  | o :: rest, summary => do
    let r ← ensure now (role o) o
    let b ← ensure now (binding o) o
    ensurePairs now role binding rest ((summary.record r).record b)

theorem ensureTenants_eq (now : Timestamp) (inventories : List Inventory)
    (inputs : ReviewedAccess) (l : List Tenant) (summary : PassSummary) :
    Pass.ensureTenants now inventories inputs l summary =
      ensurePairs now Tenant.viewerRole
        (fun t ↦ t.viewerBinding (t.access inventories inputs)) l summary := by
  induction l generalizing summary with
  | nil => rfl
  | cons t rest ih => simp only [Pass.ensureTenants, ensurePairs, ih]

theorem ensureInventories_eq (now : Timestamp) (tenants : List Tenant) (l : List Inventory)
    (summary : PassSummary) :
    Pass.ensureInventories now tenants l summary =
      ensurePairs now Inventory.viewerRole (fun i ↦ i.viewerBinding (i.access tenants)) l
        summary := by
  induction l generalizing summary with
  | nil => rfl
  | cons i rest ih => simp only [Pass.ensureInventories, ensurePairs, ih]

def pairRefs (role : ω → α) (binding : ω → β) (o : ω) : List ObjectRef :=
  [Resource.ref (role o), Resource.ref (binding o)]

omit [Derived.Lawful α] [Resource.Native α] [Derived.Lawful β] [Resource.Native β]
  [Resource.Lawful ω] in
theorem key_eq_of_mem_pairRefs (hrole : Derives role roleName) (hbinding : Derives binding name)
    (hkinds : Resource.kind α ≠ Resource.kind β) {o o' : ω}
    (ho : scopeDefect (Resource.kind ω) (Resource.metadata o) = none)
    (ho' : scopeDefect (Resource.kind ω) (Resource.metadata o') = none) {ref : ObjectRef}
    (h : ref ∈ pairRefs role binding o) (h' : ref ∈ pairRefs role binding o') :
    Resource.key o = Resource.key o' := by
  rcases List.mem_cons.1 h with rfl | h
  · rcases List.mem_cons.1 h' with heq | h'
    · exact hrole.key_injective ho ho' (congrArg ObjectRef.key heq)
    · exact absurd (congrArg ObjectRef.kind (List.mem_singleton.1 h')) hkinds
  · obtain rfl := List.mem_singleton.1 h
    rcases List.mem_cons.1 h' with heq | h'
    · exact absurd (congrArg ObjectRef.kind heq).symm hkinds
    · exact hbinding.key_injective ho ho' (congrArg ObjectRef.key (List.mem_singleton.1 h'))

/-- Ensuring the objects of owners with different keys brings all of them in line, and leaves all
else alone. -/
theorem exec_ensurePairs (h : Derivation w.store) (henv : ∀ n, env.ambient.uid n ≠ "")
    (now : Timestamp) (hrole : Derives role roleName) (hbinding : Derives binding name)
    (hkinds : Resource.kind α ≠ Resource.kind β ∧ Resource.kind α ≠ Resource.kind ω ∧
      Resource.kind β ≠ Resource.kind ω) (l : List ω)
    (hholds : ∀ o ∈ l, w.store.Holds o)
    (hdistinct : l.Pairwise fun o o' ↦ Resource.key o ≠ Resource.key o') (summary : PassSummary) :
    ∃ summary' after, (ensurePairs now role binding l summary).exec env w =
        (.ok summary', w.withStore after) ∧
      summary'.notOwned = summary.notOwned ∧ Derivation after ∧
      (∀ o ∈ l, after.Matches (role o) ∧ after.Matches (binding o)) ∧
      w.store.AgreesOff after (l.flatMap (pairRefs role binding)) := by
  induction l generalizing w summary with
  | nil => exact ⟨summary, w.store, rfl, rfl, h, by simp, fun _ _ ↦ rfl⟩
  | cons o rest ih =>
    obtain ⟨hhead, htail⟩ := List.pairwise_cons.1 hdistinct
    have ho := hholds o List.mem_cons_self
    obtain ⟨r, s₁, hexec₁, hfine₁, h₁, hmatch₁, hagrees₁⟩ := h.exec_ensure henv now hrole ho
    have hkept₁ {o' : ω} (ho' : w.store.Holds o') : s₁.Holds o' :=
      (hagrees₁.holds_iff fun hmem ↦ hkinds.2.1
        (congrArg ObjectRef.kind (List.mem_singleton.1 hmem)).symm).2 ho'
    obtain ⟨b, s₂, hexec₂, hfine₂, h₂, hmatch₂, hagrees₂⟩ :=
      exec_ensure (w := w.withStore s₁) h₁ henv now hbinding (hkept₁ ho)
    have hkept₂ {o' : ω} (ho' : w.store.Holds o') : s₂.Holds o' :=
      (hagrees₂.holds_iff fun hmem ↦ hkinds.2.2
        (congrArg ObjectRef.kind (List.mem_singleton.1 hmem)).symm).2 (hkept₁ ho')
    obtain ⟨summary', after, hexec, hcount, hafter, hmatch, hagrees⟩ :=
      ih (w := w.withStore s₂) h₂ (fun o' ho' ↦ hkept₂ (hholds o' (List.mem_cons_of_mem _ ho')))
        htail ((summary.record r).record b)
    -- the owners that follow have other keys, so their objects have other places
    have hvalid {o' : ω} (ho' : o' ∈ o :: rest) :=
      h.coherent.scopeDefect_of_has ((hholds o' ho').has now)
    have hoff {ref : ObjectRef} (href : ref ∈ pairRefs role binding o) :
        ref ∉ rest.flatMap (pairRefs role binding) := by
      intro hmem
      obtain ⟨o', ho', hmem⟩ := List.mem_flatMap.1 hmem
      exact hhead o' ho' (key_eq_of_mem_pairRefs hrole hbinding hkinds.1 (hvalid List.mem_cons_self)
        (hvalid (List.mem_cons_of_mem _ ho')) href hmem)
    refine ⟨summary', after, ?_, ?_, hafter, ?_, ?_⟩
    · rw [ensurePairs, Task.exec_bind_of_ok hexec₁, Task.exec_bind_of_ok hexec₂]
      exact hexec
    · rw [hcount, PassSummary.notOwned_record hfine₂, PassSummary.notOwned_record hfine₁]
    · intro o' ho'
      rcases List.mem_cons.1 ho' with rfl | ho'
      · refine ⟨(hmatch₁.congr (hagrees₂ _ ?_)).congr (hagrees _ (hoff List.mem_cons_self)),
          hmatch₂.congr (hagrees _ (hoff (List.mem_cons_of_mem _ List.mem_cons_self)))⟩
        exact fun hmem ↦ hkinds.1 (congrArg ObjectRef.kind (List.mem_singleton.1 hmem))
      · exact hmatch o' ho'
    · exact (hagrees₁.trans hagrees₂).trans hagrees

end Pairs

end Derivation

end TenantAccess
