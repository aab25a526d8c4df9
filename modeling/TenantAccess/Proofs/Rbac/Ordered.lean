import Mathlib.Data.List.Basic
import TenantAccess.Proofs.Rbac.Gated
import TenantAccess.Proofs.Rbac.Idle
import TenantAccess.Proofs.Rbac.Isolation
import TenantAccess.Proofs.Rbac.Orders

/-!
# The orders of a pass

At whatever time a pass over a namespace reads its documents, it carries out the orders of the tenants
that claim the namespace and of the inventories there.  Carrying out some of them does not change what
the orders are.
-/

namespace TenantAccess

open Json Store TenantAccess.Derivation

/-! ## The time of reading -/

def Inventory.declared (i : Inventory) : Inventory := { i with conditions := [] }

theorem Tenant.access_declared (t : Tenant) (inventories : List Inventory)
    (inputs : ReviewedAccess) :
    t.access (inventories.map Inventory.declared) inputs = t.access inventories inputs := by
  have hown : t.ownInventories (inventories.map Inventory.declared) =
      (t.ownInventories inventories).map Inventory.declared := by
    rw [Tenant.ownInventories, List.filter_map]
    rfl
  unfold Tenant.access Tenant.developerAccess
  dsimp only
  rw [hown, List.any_map, List.filter_map, List.foldl_map]
  rfl

section Later

variable {s : Store} {w : World} {now later : Timestamp} {ns : String}

theorem Store.Readable.at (h : s.Readable now) (later : Timestamp) : s.Readable later where
  coherent := h.coherent
  decodes := by
    rintro ⟨kind, key⟩ object hconfig hquota hget
    obtain ⟨o, ho⟩ := h.decodes _ object hconfig hquota hget
    cases kind with
    | inventory =>
      obtain ⟨i, hi, -⟩ := Inventory.exists_decode_at ho later
      exact ⟨i, hi⟩
    | config => exact absurd rfl hconfig
    | resourceQuota => exact absurd rfl hquota
    | _ => exact ⟨o, ho⟩

theorem Store.Readable.exists_inventory (h : s.Readable now) {key : ObjectKey} {object : Json}
    (hget : s.objects.get? ⟨.inventory, key⟩ = some object) (later : Timestamp) :
    ∃ i i' : Inventory, Resource.decode strict now object = some i ∧
      Resource.decode strict later object = some i' ∧ i'.declared = i.declared ∧
      i'.metadata = i.metadata := by
  obtain ⟨i, hi⟩ : ∃ i : Inventory, Inventory.decode strict now object = some i :=
    h.decodes ⟨.inventory, key⟩ object nofun nofun hget
  obtain ⟨i', hi', hmeta, hspec⟩ := Inventory.exists_decode_at hi later
  refine ⟨i, i', hi, hi', ?_, hmeta⟩
  rw [Inventory.declared, Inventory.declared, hmeta, hspec]

theorem map_declared_inventoriesIn (h : s.Readable now) (later : Timestamp) (ns : String) :
    (s.inventoriesIn later ns).map Inventory.declared =
      (s.inventoriesIn now ns).map Inventory.declared := by
  unfold Store.inventoriesIn objectsOf
  rw [List.map_filterMap, List.map_filterMap]
  refine List.filterMap_congr fun e he ↦ ?_
  obtain ⟨⟨kind, key⟩, object⟩ := e
  by_cases hkind : kind = Resource.kind Inventory
  · subst hkind
    obtain ⟨i, i', hi, hi', hdeclared, hmeta⟩ :=
      h.exists_inventory (SortedMap.mem_entries_iff.1 he) later
    have haccepts : (ListParams.inNamespace ns).accepts (Resource.metadata i') =
        (ListParams.inNamespace ns).accepts (Resource.metadata i) :=
      congrArg (ListParams.accepts _) hmeta
    simp only [hi, hi', if_true, Option.filter_some, haccepts]
    split <;> simp [hdeclared]
  · simp only [hkind, if_false]

namespace Pass

theorem bound_declared (now later : Timestamp) (l : List Inventory) :
    bound later (l.map Inventory.declared) = List.map Inventory.declared <$> bound now l := by
  induction l with
  | nil => rfl
  | cons i rest ih =>
    simp only [List.map_cons, bound, ih, map_bind, map_pure, bind_map_left]
    refine bind_congr fun binding ↦ bind_congr fun others ↦ ?_
    cases binding.isSome <;> rfl

theorem ensureInventories_declared (now later : Timestamp) (tenants : List Tenant)
    (l : List Inventory) (summary : PassSummary) :
    ensureInventories later tenants (l.map Inventory.declared) summary =
      ensureInventories now tenants l summary := by
  induction l generalizing summary with
  | nil => rfl
  | cons i rest ih =>
    simp only [List.map_cons, ensureInventories, ih]
    rfl

theorem ensureTenants_declared (now later : Timestamp) (inventories : List Inventory)
    (inputs : ReviewedAccess) (l : List Tenant) (summary : PassSummary) :
    ensureTenants later (inventories.map Inventory.declared) inputs l summary =
      ensureTenants now inventories inputs l summary := by
  induction l generalizing summary with
  | nil => rfl
  | cons t rest ih =>
    simp only [ensureTenants, ih, Tenant.access_declared]
    rfl

theorem bring_declared (now later : Timestamp) (ns : String) (tenants : List Tenant)
    (listed : List Inventory) (summary : PassSummary) :
    bring later ns tenants (listed.map Inventory.declared) summary =
      bring now ns tenants listed summary := by
  unfold bring
  simp only [List.length_map, bound_declared now later, bind_map_left,
    ensureInventories_declared now later, ensureTenants_declared now later]

/-- A pass comes to the same at whatever time it reads its documents. -/
theorem exec_run_at (h : w.store.Readable now) (env : Surroundings) (later : Timestamp)
    (ns : String) : (run later ns).exec env w = (run now ns).exec env w := by
  have hlater := exec_run_of_readable (h.at later) env ns
  dsimp only at hlater
  rw [hlater, exec_run_of_readable h env ns, ← bring_declared later later,
    map_declared_inventoriesIn h later, bring_declared now later]
  rfl

end Pass

end Later

/-! ## The orders of a pass -/

def Order.pair {ω : Type} [Resource ω] {scope : Scope} (role : ω → Role scope)
    (binding : ω → Binding scope) (o : ω) : List Order :=
  [.role (role o) o, .binding (binding o) o]

def Pass.orders (tenants : List Tenant) (inventories : List Inventory) (inputs : ReviewedAccess) :
    List Order :=
  tenants.flatMap (Order.pair Tenant.viewerRole fun t ↦
    t.viewerBinding (t.access inventories inputs)) ++
  inventories.flatMap (Order.pair Inventory.viewerRole fun i ↦ i.viewerBinding (i.access tenants))

/-- The inventories that a pass over `ns` works on: all of them, or those that have a binding if nobody
claims the namespace. -/
def Store.scopeIn (s : Store) (now : Timestamp) (ns : String) : List Inventory :=
  if s.claimants now ns = [] then
    (s.inventoriesIn now ns).filter fun i ↦ (s.objects.get? i.bindingRef).isSome
  else s.inventoriesIn now ns

def Store.ordersIn (s : Store) (reviewer : Reviewer) (now : Timestamp) (ns : String) : List Order :=
  Pass.orders (s.claimants now ns) (s.scopeIn now ns) (Pass.reviewedAccess reviewer ns)

section Pairs

variable {ω : Type} [Resource ω] {scope : Scope} {role : ω → Role scope}
  {binding : ω → Binding scope} {roleName name : String → String} {l : List ω} {o : Order}

theorem ensurePairs_eq_carryOut (now : Timestamp) (l : List ω) (summary : PassSummary) :
    ensurePairs now role binding l summary =
      Order.carryOut now (l.flatMap (Order.pair role binding)) summary := by
  induction l generalizing summary with
  | nil => rfl
  | cons o rest ih =>
    simp only [ensurePairs, ih]
    rfl

theorem ref_mem_pairRefs {owner : ω} (h : o ∈ Order.pair role binding owner) :
    o.ref ∈ pairRefs role binding owner := by
  rcases List.mem_cons.1 h with rfl | h
  · exact List.mem_cons_self
  · rw [List.mem_singleton.1 h]
    exact List.mem_cons_of_mem _ List.mem_cons_self

theorem kind_of_mem_pair {owner : ω} (h : o ∈ Order.pair role binding owner) :
    o.ref.kind = scope.roleKind ∨ o.ref.kind = scope.bindingKind := by
  rcases List.mem_cons.1 h with rfl | h
  · exact .inl rfl
  · rw [List.mem_singleton.1 h]
    exact .inr rfl

theorem roleKind_ne_bindingKind (scope : Scope) : scope.roleKind ≠ scope.bindingKind := by
  cases scope <;> decide

theorem valid_of_mem_pairs (hrole : Derives role roleName) (hbinding : Derives binding name)
    (hvalid : ∀ o ∈ l, scopeDefect (Resource.kind ω) (Resource.metadata o) = none)
    (h : o ∈ l.flatMap (Order.pair role binding)) : o.Valid := by
  obtain ⟨owner, howner, h⟩ := List.mem_flatMap.1 h
  have hplace := hvalid owner howner
  rcases List.mem_cons.1 h with rfl | h
  · exact ⟨hrole.gate_eq owner, hrole.scope_eq owner hplace⟩
  · rw [List.mem_singleton.1 h]
    exact ⟨hbinding.gate_eq owner, hbinding.scope_eq owner hplace⟩

theorem distinct_pairs (hrole : Derives role roleName) (hbinding : Derives binding name)
    (hvalid : ∀ o ∈ l, scopeDefect (Resource.kind ω) (Resource.metadata o) = none)
    (hdistinct : l.Pairwise fun a b ↦ Resource.key a ≠ Resource.key b) :
    Order.Distinct (l.flatMap (Order.pair role binding)) := by
  refine List.pairwise_flatMap.2 ⟨fun owner _ ↦ ?_, ?_⟩
  · refine List.pairwise_pair.2 fun heq ↦ roleKind_ne_bindingKind scope ?_
    exact congrArg ObjectRef.kind heq
  · refine hdistinct.imp_of_mem fun ha hb hne o ho o' ho' heq ↦ hne ?_
    exact key_eq_of_mem_pairRefs hrole hbinding (roleKind_ne_bindingKind scope) (hvalid _ ha)
      (hvalid _ hb) (ref_mem_pairRefs ho) (heq ▸ ref_mem_pairRefs ho')

end Pairs

namespace Pass

variable {tenants : List Tenant} {inventories : List Inventory} {inputs : ReviewedAccess}
  {o : Order}

theorem length_orders (tenants : List Tenant) (inventories : List Inventory)
    (inputs : ReviewedAccess) :
    (orders tenants inventories inputs).length = 2 * (tenants.length + inventories.length) := by
  simp [orders, Order.pair, List.length_flatMap]
  omega

theorem valid_of_mem_orders (htenants : ∀ t ∈ tenants, scopeDefect .tenant t.metadata = none)
    (hinventories : ∀ i ∈ inventories, scopeDefect .inventory i.metadata = none)
    (h : o ∈ orders tenants inventories inputs) : o.Valid := by
  rcases List.mem_append.1 h with h | h
  · exact valid_of_mem_pairs derives_tenantRole (derives_tenantBinding _) htenants h
  · exact valid_of_mem_pairs derives_inventoryRole (derives_inventoryBinding _) hinventories h

theorem distinct_orders (htenants : ∀ t ∈ tenants, scopeDefect .tenant t.metadata = none)
    (hinventories : ∀ i ∈ inventories, scopeDefect .inventory i.metadata = none)
    (hdistinct : tenants.Pairwise fun a b ↦ Resource.key a ≠ Resource.key b)
    (hdistinct' : inventories.Pairwise fun a b ↦ Resource.key a ≠ Resource.key b) :
    Order.Distinct (orders tenants inventories inputs) := by
  refine List.pairwise_append.2 ⟨distinct_pairs derives_tenantRole (derives_tenantBinding _)
    htenants hdistinct, distinct_pairs derives_inventoryRole (derives_inventoryBinding _)
    hinventories hdistinct', fun o ho o' ho' heq ↦ ?_⟩
  obtain ⟨t, -, ho⟩ := List.mem_flatMap.1 ho
  obtain ⟨i, -, ho'⟩ := List.mem_flatMap.1 ho'
  have hkind := congrArg ObjectRef.kind heq
  rcases kind_of_mem_pair ho with h | h <;> rcases kind_of_mem_pair ho' with h' | h' <;>
    rw [h, h'] at hkind <;> cases hkind

end Pass

/-! ## Carrying them out -/

section Ordered

variable {s after : Store} {now : Timestamp} {ns : String} {reviewer : Reviewer} {o : Order}
  {w : World}

theorem Store.Coherent.scopeDefect_of_mem_claimants (h : s.Coherent) :
    ∀ t ∈ s.claimants now ns, scopeDefect .tenant t.metadata = none := fun _ ht ↦
  h.scopeDefect_of_has ((mem_objectsOf_iff h).1 (List.mem_filter.1 ht).1).1

theorem sublist_scopeIn (s : Store) (now : Timestamp) (ns : String) :
    (s.scopeIn now ns).Sublist (s.inventoriesIn now ns) := by
  unfold Store.scopeIn
  split
  · exact List.filter_sublist
  · exact List.Sublist.refl _

theorem Store.Coherent.scopeDefect_of_mem_scopeIn (h : s.Coherent) :
    ∀ i ∈ s.scopeIn now ns, scopeDefect .inventory i.metadata = none := fun _ hi ↦
  h.scopeDefect_of_has ((mem_objectsOf_iff h).1 ((sublist_scopeIn s now ns).subset hi)).1

theorem valid_of_mem_ordersIn (h : s.Coherent) (ho : o ∈ s.ordersIn reviewer now ns) : o.Valid :=
  Pass.valid_of_mem_orders h.scopeDefect_of_mem_claimants h.scopeDefect_of_mem_scopeIn ho

theorem distinct_ordersIn (h : s.Coherent) (reviewer : Reviewer) (now : Timestamp) (ns : String) :
    Order.Distinct (s.ordersIn reviewer now ns) :=
  Pass.distinct_orders h.scopeDefect_of_mem_claimants h.scopeDefect_of_mem_scopeIn
    ((distinct_of_sorted (objectsOf_pairwise h)).sublist List.filter_sublist)
    ((distinct_of_sorted (objectsOf_pairwise h)).sublist (sublist_scopeIn s now ns))

namespace Pass

theorem exec_bound_of_readable (h : w.store.Readable now) (env : Surroundings)
    (l : List Inventory) : (bound now l).exec env w =
      (.ok (l.filter fun i ↦ (w.store.objects.get? i.bindingRef).isSome), w) := by
  induction l with
  | nil => rfl
  | cons i rest ih =>
    have hfind : ∃ found : Option (Binding .namespaced), (Task.find? (α := Binding .namespaced) now
        (.namespaced i.ns (bindingName (inventoryRoleName i.metadata.name)))).exec env w =
          (.ok found, w) ∧ found.isSome = (w.store.objects.get? i.bindingRef).isSome := by
      cases hget : w.store.objects.get? i.bindingRef with
      | none => exact ⟨none, Task.exec_find?_of_none hget, rfl⟩
      | some object =>
        obtain ⟨b, hb⟩ := h.exists_decode (α := Binding .namespaced) hget
        exact ⟨some b, Task.exec_find?_of_decode hget hb, rfl⟩
    obtain ⟨found, hfind, hsome⟩ := hfind
    unfold bound
    dsimp only
    rw [Task.exec_bind_of_ok hfind, Task.exec_bind_of_ok ih, List.filter_cons, hsome]
    rfl

/-- What is left to read before anything is written: the inventories to work on, and the reviews. -/
def study (now : Timestamp) (ns : String) (tenants : List Tenant) (listed : List Inventory) :
    Task (List Inventory × ReviewedAccess) :=
  if tenants.isEmpty then do
    let inventories ← bound now listed
    return (inventories, {})
  else do
    let inputs ← reviewed ns
    return (listed, inputs)

theorem bring_eq_carryOut (now : Timestamp) (ns : String) (tenants : List Tenant)
    (listed : List Inventory) (summary : PassSummary) :
    bring now ns tenants listed summary = (do
      let (inventories, inputs) ← study now ns tenants listed
      Order.carryOut now (orders tenants inventories inputs) { summary with
        tenants := tenants.length, inventories := inventories.length }) := by
  unfold bring study orders
  cases tenants with
  | nil => simp [ensureInventories_eq, ensurePairs_eq_carryOut]
  | cons t rest =>
    rw [if_neg (by simp), if_neg (by simp)]
    simp only [ensureTenants_eq, ensureInventories_eq, ensurePairs_eq_carryOut,
      Order.carryOut_append, bind_assoc, pure_bind]

theorem asks_study (now : Timestamp) (ns : String) (tenants : List Tenant)
    (listed : List Inventory) :
    (study now ns tenants listed).Asks Request.AnyReply Request.Reads := by
  unfold study
  split
  · exact (asks_bound now (fun _ ↦ trivial) listed).bind fun _ ↦ Task.asks_pure _
  · exact (asks_reviewed ns fun _ ↦ trivial).bind fun _ ↦ Task.asks_pure _

theorem exec_study_of_readable (h : w.store.Readable now) (env : Surroundings) (ns : String) :
    ∃ inputs reviews,
      (study now ns (w.store.claimants now ns) (w.store.inventoriesIn now ns)).exec env w =
        (.ok (w.store.scopeIn now ns, inputs), { w with reviews }) ∧
      orders (w.store.claimants now ns) (w.store.scopeIn now ns) inputs =
        w.store.ordersIn env.reviewer now ns := by
  unfold Store.ordersIn Store.scopeIn study
  cases w.store.claimants now ns with
  | nil =>
    refine ⟨{}, w.reviews, ?_, rfl⟩
    rw [if_pos List.isEmpty_nil, if_pos rfl,
      Task.exec_bind_of_ok (exec_bound_of_readable h env _), Task.exec_pure]
  | cons t rest =>
    obtain ⟨reviews, hreviewed⟩ := exec_reviewed env w ns
    refine ⟨_, reviews, ?_, rfl⟩
    rw [if_neg (by simp), if_neg (by simp), Task.exec_bind_of_ok hreviewed, Task.exec_pure]

theorem exec_bring_of_readable (h : w.store.Readable now) (env : Surroundings) (ns : String)
    (summary : PassSummary) : ∃ reviews,
      (bring now ns (w.store.claimants now ns) (w.store.inventoriesIn now ns) summary).exec env w =
        (Order.carryOut now (w.store.ordersIn env.reviewer now ns) { summary with
          tenants := (w.store.claimants now ns).length
          inventories := (w.store.scopeIn now ns).length }).exec env { w with reviews } := by
  obtain ⟨inputs, reviews, hstudy, horders⟩ := exec_study_of_readable h env ns
  refine ⟨reviews, ?_⟩
  rw [bring_eq_carryOut, Task.exec_bind_of_ok hstudy, ← horders]

/-- A pass over a readable store succeeds and carries out the orders of its namespace. -/
theorem exec_run_ordered (h : w.store.Readable now) (env : Surroundings) (ns : String) :
    ∃ first claims reviews,
      first.counts = {
        namespaceName := ns
        tenants := (w.store.claimants now ns).length
        inventories := (w.store.scopeIn now ns).length } ∧
      (run now ns).exec env w =
        (.ok (((w.store.ordersIn env.reviewer now ns).map (Order.outcome now w.store)).foldl
            PassSummary.record first),
          { store := (w.store.ordersIn env.reviewer now ns).foldl (Order.settle env now) w.store
            claims, reviews }) := by
  let claims := w.claims.publish (w.store.objectsOf Tenant now .all)
  obtain ⟨reviews, hbring⟩ := exec_bring_of_readable (w := { w with claims }) h env ns _
  have hcarry := Order.exec_carryOut (w := { w with claims, reviews }) env h
    (fun _ ↦ valid_of_mem_ordersIn h.coherent) (distinct_ordersIn h.coherent env.reviewer now ns)
  refine ⟨_, claims, reviews, ?_, (exec_run_of_readable h env ns).trans (hbring.trans (hcarry _))⟩
  rfl

end Pass

/-! ## Carrying out some of them -/

theorem Order.Settled.isSome {l : List Order} (h : Settled now l s after) (ho : o ∈ l) :
    (after.objects.get? o.ref).isSome := by
  cases hget : after.objects.get? o.ref with
  | some object => rfl
  | none =>
    have houtcome := h.outcome_eq o ho
    rw [outcome, found_eq_none hget] at houtcome
    split at houtcome <;> cases houtcome

theorem Order.origin_ref_ne_none (o : Order) : o.ref.kind.origin ≠ none := derived_kind (α := o.α)

theorem Order.Settled.get?_of_origin {l : List Order} (h : Settled now l s after) {ref : ObjectRef}
    (horigin : ref.kind.origin = none) : after.objects.get? ref = s.objects.get? ref :=
  h.frame ref fun hmem ↦ by
    obtain ⟨o, -, rfl⟩ := List.mem_map.1 hmem
    exact o.origin_ref_ne_none horigin

theorem exists_of_mem_ordersIn (hclaimants : s.claimants now ns = [])
    (ho : o ∈ s.ordersIn reviewer now ns) (hkind : o.ref.kind = .roleBinding) :
    (s.objects.get? o.ref).isSome := by
  rw [Store.ordersIn, hclaimants, Pass.orders, List.flatMap_nil, List.nil_append,
    Store.scopeIn, if_pos hclaimants] at ho
  obtain ⟨i, hi, ho⟩ := List.mem_flatMap.1 ho
  rcases List.mem_cons.1 ho with rfl | ho
  · cases hkind
  · rw [List.mem_singleton.1 ho]
    exact (List.mem_filter.1 hi).2

theorem Order.Settled.ordersIn_eq {l : List Order} (h : Settled now l s after)
    (hl : l ⊆ s.ordersIn reviewer now ns) :
    after.claimants now ns = s.claimants now ns ∧ after.scopeIn now ns = s.scopeIn now ns ∧
      after.ordersIn reviewer now ns = s.ordersIn reviewer now ns := by
  have hclaimants : after.claimants now ns = s.claimants now ns := by
    rw [Store.claimants, objectsOf_congr fun key ↦ h.get?_of_origin rfl]
    rfl
  have hinventories : after.inventoriesIn now ns = s.inventoriesIn now ns :=
    objectsOf_congr fun key ↦ h.get?_of_origin rfl
  have hscope : after.scopeIn now ns = s.scopeIn now ns := by
    unfold Store.scopeIn
    rw [hclaimants, hinventories]
    split
    · next hnobody =>
      refine List.filter_congr fun i _ ↦ ?_
      by_cases hmem : i.bindingRef ∈ l.map Order.ref
      · obtain ⟨o, ho, href⟩ := List.mem_map.1 hmem
        rw [← href, h.isSome ho, exists_of_mem_ordersIn hnobody (hl ho) (by rw [href]; rfl)]
      · rw [h.frame _ hmem]
    · rfl
  refine ⟨hclaimants, hscope, ?_⟩
  rw [Store.ordersIn, hclaimants, hscope]
  rfl

end Ordered

end TenantAccess
