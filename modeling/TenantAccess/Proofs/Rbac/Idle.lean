import TenantAccess.Proofs.Rbac.Inherited

/-!
# Passes that write nothing

Ensuring writes nothing where the object is as desired, belongs to somebody else or is refused.  So a
pass that wrote nothing over a namespace that nobody claims writes nothing over it later either, if
neither the bindings there nor the inventories that have one have changed.
-/

namespace TenantAccess

open Store

section Ensure

variable {α ω : Type} [Derived α] [Resource ω] {env : Surroundings} {now : Timestamp}
  {w w' : World} {s s' : Store} {desired : α} {owner : ω} {uid : String}

/-- There is nothing to write for `desired` on behalf of `uid`. -/
def Store.InPlace (s : Store) (now : Timestamp) (uid : String) (desired : α) : Prop :=
  gate desired ≠ [] ∨ ∃ a : α, s.Has now a ∧ Resource.key a = Resource.key desired ∧
    (Derived.differs desired a = false ∨ (Resource.metadata a).isOwnedBy uid = false)

theorem Store.InPlace.congr (h : s.InPlace now uid desired)
    (hget : s'.objects.get? (Resource.ref desired) = s.objects.get? (Resource.ref desired)) :
    s'.InPlace now uid desired := by
  refine h.imp_right fun ⟨a, ⟨object, hobject, hdecode⟩, hkey, hcontent⟩ ↦
    ⟨a, ⟨object, ?_, hdecode⟩, hkey, hcontent⟩
  have href : Resource.ref a = Resource.ref desired := congrArg (ObjectRef.mk _) hkey
  rw [href, hget, ← href]
  exact hobject

variable [Derived.Lawful α]

theorem exec_ensure_of_inPlace (env : Surroundings) (h : w.store.Coherent)
    (hplace : w.store.InPlace now (Resource.metadata owner).uid desired) :
    ∃ outcome, (ensure now desired owner).exec env w = (.ok outcome, w) := by
  by_cases hgate : gate desired = []
  · obtain ⟨a, hhas, hkey, hcontent⟩ := hplace.resolve_left (not_not_intro hgate)
    rw [exec_ensure_of_has env h owner hgate hhas hkey]
    by_cases hdiffers : Derived.differs desired a = false
    · exact ⟨.unchanged, if_pos hdiffers⟩
    · exact ⟨.notOwned, by rw [if_neg hdiffers, if_pos (hcontent.resolve_left hdiffers)]⟩
  · refine ⟨.rejected (gate desired), ?_⟩
    unfold ensure
    rw [if_pos hgate]
    rfl

theorem inPlace_of_exec_ensure (h : w.store.Coherent) {outcome : EnsureOutcome}
    (hexec : (ensure now desired owner).exec env w = (.ok outcome, w'))
    (hsame : w'.store = w.store) :
    w.store.InPlace now (Resource.metadata owner).uid desired := by
  by_cases hgate : gate desired = []
  · have hensure := hexec
    rw [ensure_eq now owner hgate, Task.exec_bind_eq_ok_iff] at hensure
    obtain ⟨o, w₁, hfind, hrest⟩ := hensure
    obtain ⟨rfl, ⟨rfl, -⟩ | ⟨a, rfl, hhas, hkey⟩⟩ := Task.exec_find?_eq_ok h hfind
    · -- a creation gives out a version
      obtain ⟨created, w₂, hcreate, hdone⟩ := Task.exec_bind_eq_ok_iff.1 hrest
      cases hdone
      rcases Task.exec_create_cases env now (ownedBy owner desired) w₁ with ⟨e, he⟩ | ⟨-, -, heq⟩
      · rw [he] at hcreate
        cases hcreate
      · rw [heq] at hcreate
        cases hcreate
        exact absurd (congrArg Store.version hsame) (Nat.succ_ne_self _)
    · refine .inr ⟨a, hhas, hkey, ?_⟩
      rw [exec_ensure_of_has env h owner hgate hhas hkey] at hexec
      split at hexec
      · next hdiffers => exact .inl hdiffers
      · split at hexec
        · next howned => exact .inr howned
        · cases hexec
          exact absurd (congrArg Store.version hsame) (Nat.succ_ne_self _)
  · exact .inl hgate

end Ensure

/-! ## One owner after the other -/

section Pairs

open TenantAccess.Derivation

theorem Store.Onward.eq_of_eq {before middle after : Store} {refs refs' : List ObjectRef}
    (h : before.Onward refs middle) (h' : middle.Onward refs' after) (hsame : after = before) :
    middle = before := by
  subst hsame
  rcases h.version with hsame | hlt
  · exact hsame
  · rcases h'.version with hsame | hlt'
    · exact hsame.symm
    · exact absurd hlt' (Nat.lt_asymm hlt)

variable {α β ω : Type} [Derived α] [Derived.Lawful α] [Derived β] [Derived.Lawful β]
  [Resource ω] {role : ω → α} {binding : ω → β} {env : Surroundings} {now : Timestamp}
  {w w' : World} {l : List ω} {summary summary' : PassSummary}

theorem inPlace_of_exec_ensurePairs (hkinds : Resource.kind α ≠ Resource.kind β)
    (hgate : ∀ o, gate (binding o) = []) (h : w.store.Coherent)
    (hexec : (ensurePairs now role binding l summary).exec env w = (.ok summary', w'))
    (hsame : w'.store = w.store) :
    ∀ o ∈ l, w.store.InPlace now (Resource.metadata o).uid (role o) ∧
      w.store.InPlace now (Resource.metadata o).uid (binding o) := by
  induction l generalizing w summary with
  | nil => simp
  | cons o rest ih =>
    obtain ⟨r, w₁, hexec₁, hexec⟩ := Task.exec_bind_eq_ok_iff.1 hexec
    obtain ⟨b, w₂, hexec₂, hexec⟩ := Task.exec_bind_eq_ok_iff.1 hexec
    obtain ⟨s₁, rfl, honward₁, -⟩ := exec_ensure_eq_ok h hexec₁
    obtain ⟨s₂, rfl, honward₂, -⟩ :=
      exec_ensure_eq_ok (w := w.withStore s₁) honward₁.coherent hexec₂
    obtain ⟨after, rfl, honward, -⟩ := exec_ensurePairs_eq_ok
      (w := (w.withStore s₁).withStore s₂) hkinds hgate rest honward₂.coherent hexec
    -- the store never moved, so each step had nothing to write
    have hfirst : s₁ = w.store := honward₁.eq_of_eq (honward₂.trans honward) hsame
    subst hfirst
    have hsecond : s₂ = w.store := honward₂.eq_of_eq honward hsame
    subst hsecond
    intro o' ho'
    rcases List.mem_cons.1 ho' with rfl | ho'
    · exact ⟨inPlace_of_exec_ensure h hexec₁ rfl, inPlace_of_exec_ensure h hexec₂ rfl⟩
    · exact ih h hexec hsame o' ho'

theorem exec_ensurePairs_of_inPlace (env : Surroundings) (h : w.store.Coherent)
    (hplace : ∀ o ∈ l, w.store.InPlace now (Resource.metadata o).uid (role o) ∧
      w.store.InPlace now (Resource.metadata o).uid (binding o)) (summary : PassSummary) :
    ∃ summary', (ensurePairs now role binding l summary).exec env w = (.ok summary', w) := by
  induction l generalizing summary with
  | nil => exact ⟨summary, rfl⟩
  | cons o rest ih =>
    obtain ⟨hrole, hbinding⟩ := hplace o List.mem_cons_self
    obtain ⟨r, hexec₁⟩ := exec_ensure_of_inPlace env h hrole
    obtain ⟨b, hexec₂⟩ := exec_ensure_of_inPlace env h hbinding
    obtain ⟨summary', hexec⟩ := ih (fun o' ho' ↦ hplace o' (List.mem_cons_of_mem _ ho'))
      ((summary.record r).record b)
    refine ⟨summary', ?_⟩
    rw [ensurePairs, Task.exec_bind_of_ok hexec₁, Task.exec_bind_of_ok hexec₂]
    exact hexec

end Pairs

/-! ## Namespaces that nobody claims -/

def Inventory.bindingRef (i : Inventory) : ObjectRef :=
  ⟨.roleBinding, .namespaced i.ns (bindingName (inventoryRoleName i.metadata.name))⟩

namespace Pass

variable {env : Surroundings} {now later : Timestamp} {w w' : World} {ns : String}

theorem exists_binding_of_bound (h : w.store.Coherent) {listed l : List Inventory}
    (hexec : (bound now listed).exec env w = (.ok l, w')) :
    ∀ i ∈ l, ∃ object, w.store.objects.get? i.bindingRef = some object := by
  induction listed generalizing l w' with
  | nil =>
    cases hexec
    simp
  | cons i rest ih =>
    obtain ⟨o, w₁, hfind, hrest⟩ := Task.exec_bind_eq_ok_iff.1 hexec
    obtain ⟨others, w₂, hothers, hdone⟩ := Task.exec_bind_eq_ok_iff.1 hrest
    obtain ⟨rfl, hcases⟩ := Task.exec_find?_eq_ok h hfind
    rcases hcases with ⟨rfl, -⟩ | ⟨b, rfl, ⟨object, hget, -⟩, hkey⟩
    · cases hdone
      exact ih hothers
    · cases hdone
      intro i' hi'
      rcases List.mem_cons.1 hi' with rfl | hi'
      · exact ⟨object, by rw [← hget, Resource.ref, hkey]; rfl⟩
      · exact ih hothers i' hi'

theorem bring_nil (now : Timestamp) (ns : String) (listed : List Inventory)
    (summary : PassSummary) : bring now ns [] listed summary = (do
      let inventories ← bound now listed
      Derivation.ensurePairs now Inventory.viewerRole (fun i ↦ i.viewerBinding (i.access []))
        inventories { summary with tenants := 0, inventories := inventories.length }) := by
  simp only [← Derivation.ensureInventories_eq]
  rfl

theorem claimants_eq_nil (h : w.store.Coherent)
    (hunclaimed : ∀ t : Tenant, w.store.Has default t → t.inventoryNamespace ≠ ns) :
    (w.store.objectsOf Tenant now .all).filter (·.inventoryNamespace = ns) = [] :=
  List.filter_eq_nil_iff.2 fun t ht hclaimed ↦
    hunclaimed t ((mem_objectsOf_iff h).1 ht).1 (of_decide_eq_true hclaimed)

/-- There is nothing to write for an inventory in a namespace that nobody claims. -/
def Orphaned (s : Store) (now : Timestamp) (i : Inventory) : Prop :=
  s.InPlace now i.metadata.uid i.viewerRole ∧
    s.InPlace now i.metadata.uid (i.viewerBinding (i.access []))

theorem orphaned_of_exec_bring (h : w.store.Coherent) {listed : List Inventory}
    {summary summary' : PassSummary}
    (hexec : (bring now ns [] listed summary).exec env w = (.ok summary', w'))
    (hsame : w'.store = w.store) {i : Inventory} (hi : i ∈ listed) {object : Json}
    (hbinding : w.store.objects.get? i.bindingRef = some object) : Orphaned w.store now i := by
  rw [bring_nil] at hexec
  obtain ⟨l, w₁, hbound, hensure⟩ := Task.exec_bind_eq_ok_iff.1 hexec
  obtain ⟨rfl, -, hall⟩ := exec_bound_eq_ok h hbound
  have hmem : i ∈ l := (hall i hi).resolve_right fun hnone ↦ by
    cases hbinding.symm.trans hnone
  exact inPlace_of_exec_ensurePairs (by decide) (fun _ ↦ rfl) h hensure hsame i hmem

theorem store_bring_of_orphaned (env : Surroundings) (h : w.store.Coherent) {listed : List Inventory}
    (horphaned : ∀ i ∈ listed, ∀ object,
      w.store.objects.get? i.bindingRef = some object → Orphaned w.store now i)
    (summary : PassSummary) : ((bring now ns [] listed summary).exec env w).2.store = w.store := by
  rw [bring_nil]
  rcases hbound : (bound now listed).exec env w with ⟨e | l, w₁⟩
  · have hreads : (bound now listed).Asks Request.AnyReply Request.Reads :=
      asks_bound now (fun _ ↦ trivial) listed
    have hstore := hreads.store_eq env w
    rw [hbound] at hstore
    rw [Task.exec_bind_of_error hbound]
    exact hstore
  · obtain ⟨rfl, hsub, -⟩ := exec_bound_eq_ok h hbound
    have hplace (i : Inventory) (hi : i ∈ l) : Orphaned w₁.store now i := by
      obtain ⟨object, hget⟩ := exists_binding_of_bound h hbound i hi
      exact horphaned i (hsub.subset hi) object hget
    obtain ⟨summary', hexec⟩ := exec_ensurePairs_of_inPlace env h hplace
      { summary with tenants := 0, inventories := l.length }
    rw [Task.exec_bind_of_ok hbound, hexec]

/-- A pass over a namespace that nobody claims, if it succeeds without a write, had nothing to write
for any inventory with a binding. -/
theorem orphaned_of_exec_run (h : w.store.Coherent)
    (hunclaimed : ∀ t : Tenant, w.store.Has default t → t.inventoryNamespace ≠ ns)
    {summary : PassSummary} (hexec : (run now ns).exec env w = (.ok summary, w'))
    (hsame : w'.store = w.store) {i : Inventory}
    (hi : i ∈ w.store.objectsOf Inventory now (.inNamespace ns)) {object : Json}
    (hbinding : w.store.objects.get? i.bindingRef = some object) : Orphaned w.store now i := by
  rcases exec_run_cases env h now ns with ⟨e, _, heq, -⟩ | heq
  · rw [heq] at hexec
    cases hexec
  · rw [claimants_eq_nil h hunclaimed] at heq
    exact orphaned_of_exec_bring
      (w := { w with claims := w.claims.publish (w.store.objectsOf Tenant now .all) }) h
      (heq.symm.trans hexec) hsame hi hbinding

/-- A pass over a namespace that nobody claims writes nothing, whatever becomes of it, if there is
nothing to write for any inventory with a binding. -/
theorem store_run_of_orphaned (env : Surroundings) (h : w.store.Coherent)
    (hunclaimed : ∀ t : Tenant, w.store.Has default t → t.inventoryNamespace ≠ ns)
    (horphaned : ∀ i ∈ w.store.objectsOf Inventory now (.inNamespace ns), ∀ object,
      w.store.objects.get? i.bindingRef = some object → Orphaned w.store now i) :
    ((run now ns).exec env w).2.store = w.store := by
  rcases exec_run_cases env h now ns with ⟨e, w', heq, hsame⟩ | heq
  · rw [heq]
    exact hsame
  · rw [heq, claimants_eq_nil h hunclaimed]
    exact store_bring_of_orphaned
      (w := { w with claims := w.claims.publish (w.store.objectsOf Tenant now .all) }) env h
      horphaned _

end Pass

end TenantAccess
