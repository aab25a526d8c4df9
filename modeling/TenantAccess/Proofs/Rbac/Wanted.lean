import TenantAccess.Proofs.Rbac.Isolation
import TenantAccess.Proofs.Rbac.Outcome
import TenantAccess.Proofs.Store.Growth

/-!
# Passes over stores that hold nothing but what is called for

Tenants, inventories and the answers to reviews call for roles and bindings.  Where every stored role
and binding is one of these and as called for, a pass creates those of its namespace that are missing,
and does nothing else.
-/

namespace TenantAccess

open Json Store TenantAccess.Derivation

/-- What roles and bindings are derived from. -/
structure Sources where
  tenants : List Tenant
  inventories : List Inventory
  reviewer : Reviewer

/-- The document says what `desired` does, under the key of `desired`. -/
def Fulfils {α : Type} [Derived α] (desired : α) (key : ObjectKey) (object : Json) : Prop :=
  Resource.key desired = key ∧ ∃ a : α, object = Resource.encode a ∧ Resource.key a = key ∧
    Derived.differs desired a = false

namespace Sources

def claimants (S : Sources) (ns : String) : List Tenant :=
  S.tenants.filter (·.inventoryNamespace = ns)

def inventoriesIn (S : Sources) (ns : String) : List Inventory :=
  S.inventories.filter (·.metadata.ns? = some ns)

def claimed (S : Sources) : List Inventory :=
  S.inventories.filter fun i ↦ !(S.claimants i.ns).isEmpty

def tenantBinding (S : Sources) (t : Tenant) : Binding .cluster :=
  t.viewerBinding (t.access (S.inventoriesIn t.inventoryNamespace)
    (Pass.reviewedAccess S.reviewer t.inventoryNamespace))

def inventoryBinding (S : Sources) (i : Inventory) : Binding .namespaced :=
  i.viewerBinding (i.access (S.claimants i.ns))

/-- The document is called for under `ref`; there is no such thing as a call for objects that are not
derived. -/
def Calls (S : Sources) (ref : ObjectRef) (object : Json) : Prop :=
  match ref.kind with
  | .role => ∃ i ∈ S.claimed, Fulfils i.viewerRole ref.key object
  | .roleBinding => ∃ i ∈ S.claimed, Fulfils (S.inventoryBinding i) ref.key object
  | .clusterRole => ∃ t ∈ S.tenants, Fulfils t.viewerRole ref.key object
  | .clusterRoleBinding => ∃ t ∈ S.tenants, Fulfils (S.tenantBinding t) ref.key object
  | _ => True

/-- The places of what is called for in a namespace. -/
def refsIn (S : Sources) (ns : String) : List ObjectRef :=
  if S.claimants ns = [] then []
  else
    (S.claimants ns).flatMap (pairRefs Tenant.viewerRole S.tenantBinding) ++
      (S.inventoriesIn ns).flatMap (pairRefs Inventory.viewerRole S.inventoryBinding)

/-- Under the key of `desired` just what has its content is called for. -/
def Asks {α : Type} [Derived α] (S : Sources) (desired : α) : Prop :=
  ∀ object, S.Calls (Resource.ref desired) object ↔
    ∃ a : α, object = Resource.encode a ∧ Resource.key a = Resource.key desired ∧
      Derived.differs desired a = false

variable {S : Sources} {ns : String}

theorem mem_claimants_iff {t : Tenant} :
    t ∈ S.claimants ns ↔ t ∈ S.tenants ∧ t.inventoryNamespace = ns := by
  rw [claimants, List.mem_filter, decide_eq_true_eq]

theorem mem_inventoriesIn_iff {i : Inventory} :
    i ∈ S.inventoriesIn ns ↔ i ∈ S.inventories ∧ i.metadata.ns? = some ns := by
  rw [inventoriesIn, List.mem_filter, decide_eq_true_eq]

theorem ns_of_mem_inventoriesIn {i : Inventory} (hi : i ∈ S.inventoriesIn ns) : i.ns = ns := by
  rw [Inventory.ns, (mem_inventoriesIn_iff.1 hi).2]
  rfl

theorem mem_claimed_iff {i : Inventory} :
    i ∈ S.claimed ↔ i ∈ S.inventories ∧ S.claimants i.ns ≠ [] := by
  simp [claimed]

theorem derives_tenantBinding (S : Sources) :
    Derives S.tenantBinding fun name ↦ bindingName (tenantRoleName name) :=
  TenantAccess.derives_tenantBinding fun t ↦ t.access (S.inventoriesIn t.inventoryNamespace)
    (Pass.reviewedAccess S.reviewer t.inventoryNamespace)

theorem derives_inventoryBinding (S : Sources) :
    Derives S.inventoryBinding fun name ↦ bindingName (inventoryRoleName name) :=
  TenantAccess.derives_inventoryBinding fun i ↦ i.access (S.claimants i.ns)

theorem mem_refsIn_iff {ref : ObjectRef} : ref ∈ S.refsIn ns ↔
    (∃ t ∈ S.claimants ns, ref ∈ pairRefs Tenant.viewerRole S.tenantBinding t) ∨
      S.claimants ns ≠ [] ∧
        ∃ i ∈ S.inventoriesIn ns, ref ∈ pairRefs Inventory.viewerRole S.inventoryBinding i := by
  unfold refsIn
  split
  · next hnobody => simp [hnobody]
  · next hclaimed => simp [hclaimed]

theorem asks_of_derives {α ω : Type} [Derived α] [Resource ω] {f : ω → α} {name : String → String}
    (hf : Derives f name) {l : List ω}
    (hvalid : ∀ o ∈ l, scopeDefect (Resource.kind ω) (Resource.metadata o) = none)
    (hunique : ∀ o ∈ l, ∀ o' ∈ l, Resource.key o = Resource.key o' → o = o')
    (hcalls : ∀ key object, S.Calls ⟨Resource.kind α, key⟩ object ↔
      ∃ o ∈ l, Fulfils (f o) key object) {o : ω} (ho : o ∈ l) : S.Asks (f o) := by
  intro object
  rw [Resource.ref, hcalls]
  constructor
  · rintro ⟨o', ho', hkey, a, hobject, hakey, hdiffers⟩
    have hown := hf.key_injective (hvalid o' ho') (hvalid o ho) hkey
    rw [hunique o' ho' o ho hown] at hdiffers
    exact ⟨a, hobject, hakey, hdiffers⟩
  · exact fun h ↦ ⟨o, ho, rfl, h⟩

end Sources

/-! ## Filling in what is missing -/

/-- Documents are where they belong, and roles and bindings are as called for. -/
structure Store.Fits (S : Sources) (s : Store) : Prop where
  coherent : s.Coherent
  called : ∀ ref object, s.objects.get? ref = some object → S.Calls ref object

/-- `after` is `s` with what was missing under `refs`. -/
structure Store.Filled (S : Sources) (s : Store) (refs : List ObjectRef) (after : Store) : Prop where
  fits : after.Fits S
  wrote : ∃ news, s.Wrote news after ∧ (∀ e ∈ news, e.ref ∈ refs) ∧ news.length ≤ refs.length ∧
    ((∀ ref ∈ refs, (s.objects.get? ref).isSome) → news = [])
  present : ∀ ref ∈ refs, (after.objects.get? ref).isSome
  kept : ∀ ref object, s.objects.get? ref = some object → after.objects.get? ref = some object

theorem Store.Fits.exists_of_asks {α : Type} [Derived α] {S : Sources} {s : Store} {desired : α}
    (h : s.Fits S) (hasks : S.Asks desired)
    (hsome : (s.objects.get? (Resource.ref desired)).isSome) :
    ∃ a : α, s.objects.get? (Resource.ref desired) = some (Resource.encode a) ∧
      Derived.differs desired a = false := by
  obtain ⟨object, hget⟩ := Option.isSome_iff_exists.1 hsome
  obtain ⟨a, rfl, -, hdiffers⟩ := (hasks object).1 (h.called _ _ hget)
  exact ⟨a, hget, hdiffers⟩

section Filled

variable {S : Sources} {s middle after : Store} {refs more : List ObjectRef}

theorem Store.Fits.filled_nil (h : s.Fits S) : s.Filled S [] s where
  fits := h
  wrote := ⟨[], wrote_nil s, fun _ hmem ↦ absurd hmem List.not_mem_nil, Nat.le_refl 0, fun _ ↦ rfl⟩
  present _ hmem := absurd hmem List.not_mem_nil
  kept _ _ h := h

theorem Store.Filled.isSome (h : s.Filled S refs after) {ref : ObjectRef}
    (hsome : (s.objects.get? ref).isSome) : (after.objects.get? ref).isSome := by
  obtain ⟨object, hget⟩ := Option.isSome_iff_exists.1 hsome
  exact Option.isSome_iff_exists.2 ⟨object, h.kept ref object hget⟩

theorem Store.Filled.trans (h : s.Filled S refs middle) (h' : middle.Filled S more after) :
    s.Filled S (refs ++ more) after where
  fits := h'.fits
  wrote := by
    obtain ⟨news, hwrote, hrefs, hlength, hidle⟩ := h.wrote
    obtain ⟨news', hwrote', hrefs', hlength', hidle'⟩ := h'.wrote
    refine ⟨news ++ news', hwrote.trans hwrote', fun e he ↦ ?_, ?_, fun hsome ↦ ?_⟩
    · rcases List.mem_append.1 he with he | he
      · exact List.mem_append_left _ (hrefs e he)
      · exact List.mem_append_right _ (hrefs' e he)
    · rw [List.length_append, List.length_append]
      exact Nat.add_le_add hlength hlength'
    · rw [hidle fun ref href ↦ hsome ref (List.mem_append_left _ href),
        hidle' fun ref href ↦ h.isSome (hsome ref (List.mem_append_right _ href)), List.nil_append]
  present ref href := by
    rcases List.mem_append.1 href with href | href
    · exact h'.isSome (h.present ref href)
    · exact h'.present ref href
  kept ref object hget := h'.kept ref object (h.kept ref object hget)

end Filled

theorem ensurePairs_congr {α β ω : Type} [Derived α] [Derived β] [Resource ω] {now : Timestamp}
    {role : ω → α} {binding binding' : ω → β} {l : List ω} (h : ∀ o ∈ l, binding o = binding' o)
    (summary : PassSummary) :
    ensurePairs now role binding l summary = ensurePairs now role binding' l summary := by
  induction l generalizing summary with
  | nil => rfl
  | cons o rest ih =>
    simp only [ensurePairs, h o List.mem_cons_self,
      ih fun o' ho' ↦ h o' (List.mem_cons_of_mem _ ho')]

section Ensure

variable {S : Sources} {α β ω : Type} [Derived α] [Derived.Lawful α] [Derived β] [Derived.Lawful β]
  [Resource ω] {env : Surroundings} {now : Timestamp} {w : World} {desired : α}

theorem Store.Fits.filled_ensuredNew (h : w.store.Fits S) (env : Surroundings)
    (hasks : S.Asks desired)
    (hscope : scopeDefect (Resource.kind α) (Resource.metadata desired) = none)
    (hnone : w.store.objects.get? (Resource.ref desired) = none) (owner : ω) :
    w.store.Filled S [Resource.ref desired] (ensuredNew env w.store owner desired) := by
  have href : Resource.ref (asEnsuredNew env w.store owner desired) = Resource.ref desired := by
    rw [Resource.ref, key_asEnsuredNew, Resource.ref]
  constructor
  · refine ⟨h.coherent.create ((scopeDefect_ownedBy owner desired).trans hscope) _,
      fun ref object hobject ↦ ?_⟩
    rw [ensuredNew, get?_recorded, href] at hobject
    split at hobject
    · next heq =>
      cases hobject
      subst heq
      exact (hasks _).2 ⟨_, rfl, key_asEnsuredNew .., differs_asEnsuredNew ..⟩
    · exact h.called ref object hobject
  · refine ⟨_, wrote_recorded w.store .added (asEnsuredNew env w.store owner desired)
      (w.store.issuedWith (Resource.metadata desired)), fun e he ↦ ?_, Nat.le_refl 1,
      fun hsome ↦ ?_⟩
    · rw [List.mem_singleton.1 he]
      exact List.mem_singleton.2 href
    · have hsome := hsome _ List.mem_cons_self
      rw [hnone] at hsome
      cases hsome
  · intro ref hmem
    rw [ensuredNew, get?_recorded, href, if_pos (List.mem_singleton.1 hmem)]
    rfl
  · exact fun _ _ ↦ get?_recorded_of_get? (href ▸ hnone)

theorem Store.Fits.exec_ensure (h : w.store.Fits S) (env : Surroundings) (now : Timestamp)
    (hasks : S.Asks desired) (hgate : gate desired = [])
    (hscope : scopeDefect (Resource.kind α) (Resource.metadata desired) = none) (owner : ω) :
    ∃ outcome after, (ensure now desired owner).exec env w = (.ok outcome, w.withStore after) ∧
      w.store.Filled S [Resource.ref desired] after := by
  cases hget : w.store.objects.get? (Resource.ref desired) with
  | none =>
    exact ⟨.created, _, exec_ensure_of_none owner hgate hget hscope,
      h.filled_ensuredNew env hasks hscope hget owner⟩
  | some object =>
    obtain ⟨a, rfl, hkey, hdiffers⟩ := (hasks object).1 (h.called _ _ hget)
    have hhas : w.store.Has now a := by
      refine ⟨_, ?_, Resource.decode_encode a⟩
      rw [Resource.ref, hkey]
      exact hget
    have hexec := exec_ensure_of_has env h.coherent owner hgate hhas hkey
    rw [if_pos hdiffers] at hexec
    refine ⟨.unchanged, w.store, hexec, h, ?_, fun ref hmem ↦ ?_, fun _ _ h ↦ h⟩
    · exact ⟨[], wrote_nil _, fun _ he ↦ absurd he List.not_mem_nil, Nat.zero_le 1, fun _ ↦ rfl⟩
    · rw [List.mem_singleton.1 hmem, hget]
      rfl

variable {role : ω → α} {binding : ω → β} {roleName name : String → String}

theorem Store.Fits.exec_ensurePairs (h : w.store.Fits S) (env : Surroundings) (now : Timestamp)
    (hrole : Derives role roleName) (hbinding : Derives binding name) {l : List ω}
    (hvalid : ∀ o ∈ l, scopeDefect (Resource.kind ω) (Resource.metadata o) = none)
    (hasks : ∀ o ∈ l, S.Asks (role o) ∧ S.Asks (binding o)) (summary : PassSummary) :
    ∃ summary' after, (ensurePairs now role binding l summary).exec env w =
        (.ok summary', w.withStore after) ∧ summary'.released = summary.released ∧
      w.store.Filled S (l.flatMap (pairRefs role binding)) after := by
  induction l generalizing w summary with
  | nil => exact ⟨summary, w.store, rfl, rfl, h.filled_nil⟩
  | cons o rest ih =>
    have ho := hvalid o List.mem_cons_self
    obtain ⟨hasksRole, hasksBinding⟩ := hasks o List.mem_cons_self
    obtain ⟨r, s₁, hexec₁, hfilled₁⟩ := h.exec_ensure env now hasksRole (hrole.gate_eq o)
      (hrole.scope_eq o ho) o
    obtain ⟨b, s₂, hexec₂, hfilled₂⟩ := Store.Fits.exec_ensure (w := w.withStore s₁)
      hfilled₁.fits env now hasksBinding (hbinding.gate_eq o) (hbinding.scope_eq o ho) o
    obtain ⟨summary', after, hexec, hreleased, hfilled⟩ := ih (w := w.withStore s₂) hfilled₂.fits
      (fun o' ho' ↦ hvalid o' (List.mem_cons_of_mem _ ho'))
      (fun o' ho' ↦ hasks o' (List.mem_cons_of_mem _ ho')) ((summary.record r).record b)
    refine ⟨summary', after, ?_, ?_, (hfilled₁.trans hfilled₂).trans hfilled⟩
    · rw [ensurePairs, Task.exec_bind_of_ok hexec₁, Task.exec_bind_of_ok hexec₂]
      exact hexec
    · rw [hreleased, PassSummary.released_record, PassSummary.released_record]

end Ensure

/-! ## Passes -/

theorem ListParams.accepts_all (m : ObjectMeta) : all.accepts m = true := rfl

/-- A store that holds the given tenants and inventories, and of roles and bindings nothing but what is
called for. -/
structure Store.Serves (S : Sources) (s : Store) : Prop extends s.Fits S where
  native : ∀ ref object, s.objects.get? ref = some object →
    ∃ o : ref.kind.Object, object = Resource.encode o
  tenants : ∀ now, s.objectsOf Tenant now .all = S.tenants
  inventories : ∀ now, s.objectsOf Inventory now .all = S.inventories

namespace Store.Serves

variable {S : Sources} {s after : Store} {env : Surroundings} {now : Timestamp} {w : World}
  {ns : String}

theorem readable (h : s.Serves S) (now : Timestamp) : s.Readable now where
  coherent := h.coherent
  decodes := by
    intro ref object _ _ hget
    obtain ⟨o, rfl⟩ := h.native ref object hget
    exact ⟨o, Resource.decode_encode o⟩

theorem claimants_eq (h : s.Serves S) (now : Timestamp) (ns : String) :
    s.claimants now ns = S.claimants ns := by
  rw [Store.claimants, h.tenants, Sources.claimants]

theorem inventoriesIn_eq (h : s.Serves S) (now : Timestamp) (ns : String) :
    s.inventoriesIn now ns = S.inventoriesIn ns := by
  rw [Store.inventoriesIn, Sources.inventoriesIn, ← h.inventories now, objectsOf, objectsOf,
    List.filter_filterMap]
  congr 1
  funext e
  split
  · rw [Option.filter_filter]
    congr 1
    funext i
    rw [Bool.eq_iff_iff, ListParams.accepts_inNamespace_iff, ListParams.accepts_all, Bool.true_and,
      decide_eq_true_eq]
    exact Iff.rfl
  · rfl

theorem has_tenant (h : s.Serves S) (now : Timestamp) {t : Tenant} (ht : t ∈ S.tenants) :
    s.Has now t := by
  rw [← h.tenants now] at ht
  exact ((mem_objectsOf_iff h.coherent).1 ht).1

theorem has_inventory (h : s.Serves S) (now : Timestamp) {i : Inventory} (hi : i ∈ S.inventories) :
    s.Has now i := by
  rw [← h.inventories now] at hi
  exact ((mem_objectsOf_iff h.coherent).1 hi).1

theorem valid_tenant (h : s.Serves S) {t : Tenant} (ht : t ∈ S.tenants) :
    scopeDefect .tenant t.metadata = none :=
  h.coherent.scopeDefect_of_has (h.has_tenant default ht)

theorem valid_inventory (h : s.Serves S) {i : Inventory} (hi : i ∈ S.inventories) :
    scopeDefect .inventory i.metadata = none :=
  h.coherent.scopeDefect_of_has (h.has_inventory default hi)

theorem asks_tenant (h : s.Serves S) {t : Tenant} (ht : t ∈ S.tenants) :
    S.Asks t.viewerRole ∧ S.Asks (S.tenantBinding t) := by
  have hvalid (t : Tenant) (ht : t ∈ S.tenants) := h.valid_tenant ht
  have hunique (t : Tenant) (ht : t ∈ S.tenants) (t' : Tenant) (ht' : t' ∈ S.tenants)
      (hkey : Resource.key t = Resource.key t') : t = t' :=
    (h.has_tenant default ht).eq_of_key_eq (h.has_tenant default ht') hkey
  constructor
  · exact Sources.asks_of_derives derives_tenantRole hvalid hunique (fun _ _ ↦ Iff.rfl) ht
  · exact Sources.asks_of_derives S.derives_tenantBinding hvalid hunique (fun _ _ ↦ Iff.rfl) ht

theorem asks_inventory (h : s.Serves S) {i : Inventory} (hi : i ∈ S.claimed) :
    S.Asks i.viewerRole ∧ S.Asks (S.inventoryBinding i) := by
  have hvalid (i : Inventory) (hi : i ∈ S.claimed) :=
    h.valid_inventory (Sources.mem_claimed_iff.1 hi).1
  have hunique (i : Inventory) (hi : i ∈ S.claimed) (i' : Inventory) (hi' : i' ∈ S.claimed)
      (hkey : Resource.key i = Resource.key i') : i = i' :=
    (h.has_inventory default (Sources.mem_claimed_iff.1 hi).1).eq_of_key_eq
      (h.has_inventory default (Sources.mem_claimed_iff.1 hi').1) hkey
  constructor
  · exact Sources.asks_of_derives derives_inventoryRole hvalid hunique (fun _ _ ↦ Iff.rfl) hi
  · exact Sources.asks_of_derives S.derives_inventoryBinding hvalid hunique
      (fun _ _ ↦ Iff.rfl) hi

theorem exists_mem_refsIn (h : s.Serves S) {ref : ObjectRef} {object : Json}
    (hget : s.objects.get? ref = some object) (horigin : ref.kind.origin ≠ none) :
    ∃ ns, ref ∈ S.refsIn ns := by
  have hcalled := h.called ref object hget
  obtain ⟨kind, key⟩ := ref
  have htenant {t : Tenant} (ht : t ∈ S.tenants) : t ∈ S.claimants t.inventoryNamespace :=
    Sources.mem_claimants_iff.2 ⟨ht, rfl⟩
  have hinventory {i : Inventory} (hi : i ∈ S.claimed) :
      S.claimants i.ns ≠ [] ∧ i ∈ S.inventoriesIn i.ns := by
    obtain ⟨hmem, hclaimed⟩ := Sources.mem_claimed_iff.1 hi
    obtain ⟨ns, hns, -⟩ := i.exists_ns (h.valid_inventory hmem)
    refine ⟨hclaimed, Sources.mem_inventoriesIn_iff.2 ⟨hmem, ?_⟩⟩
    rw [Inventory.ns, hns]
    rfl
  cases kind with
  | role =>
    obtain ⟨i, hi, hkey, -⟩ := hcalled
    obtain ⟨hclaimed, hmem⟩ := hinventory hi
    refine ⟨i.ns, Sources.mem_refsIn_iff.2 (.inr ⟨hclaimed, i, hmem, ?_⟩)⟩
    exact List.mem_cons.2 (.inl (congrArg (ObjectRef.mk .role) hkey.symm))
  | roleBinding =>
    obtain ⟨i, hi, hkey, -⟩ := hcalled
    obtain ⟨hclaimed, hmem⟩ := hinventory hi
    refine ⟨i.ns, Sources.mem_refsIn_iff.2 (.inr ⟨hclaimed, i, hmem, ?_⟩)⟩
    exact List.mem_cons_of_mem _ (List.mem_singleton.2 (congrArg (ObjectRef.mk .roleBinding) hkey.symm))
  | clusterRole =>
    obtain ⟨t, ht, hkey, -⟩ := hcalled
    refine ⟨_, Sources.mem_refsIn_iff.2 (.inl ⟨t, htenant ht, ?_⟩)⟩
    exact List.mem_cons.2 (.inl (congrArg (ObjectRef.mk .clusterRole) hkey.symm))
  | clusterRoleBinding =>
    obtain ⟨t, ht, hkey, -⟩ := hcalled
    refine ⟨_, Sources.mem_refsIn_iff.2 (.inl ⟨t, htenant ht, ?_⟩)⟩
    exact List.mem_cons_of_mem _
      (List.mem_singleton.2 (congrArg (ObjectRef.mk .clusterRoleBinding) hkey.symm))
  | tenant => exact absurd rfl horigin
  | inventory => exact absurd rfl horigin
  | config => exact absurd rfl horigin
  | resourceQuota => exact absurd rfl horigin

theorem get?_binding_eq_none (h : s.Serves S) (hnobody : S.claimants ns = []) {i : Inventory}
    (hi : i ∈ S.inventoriesIn ns) : s.objects.get? ⟨.roleBinding,
      .namespaced i.ns (bindingName (inventoryRoleName i.metadata.name))⟩ = none := by
  cases hget : s.objects.get? ⟨.roleBinding,
      .namespaced i.ns (bindingName (inventoryRoleName i.metadata.name))⟩ with
  | none => rfl
  | some object =>
    obtain ⟨i', hi', hkey, -⟩ := h.called _ object hget
    obtain ⟨hns, -⟩ := ObjectKey.mk.inj hkey
    have hns : i'.ns = i.ns := Option.some.inj hns
    obtain ⟨-, hclaimed⟩ := Sources.mem_claimed_iff.1 hi'
    rw [hns, Sources.ns_of_mem_inventoriesIn hi] at hclaimed
    exact absurd hnobody hclaimed

theorem exec_bound (h : w.store.Serves S) (env : Surroundings) (now : Timestamp)
    (hnobody : S.claimants ns = []) {l : List Inventory} (hl : l ⊆ S.inventoriesIn ns) :
    (Pass.bound now l).exec env w = (.ok [], w) := by
  induction l with
  | nil => rfl
  | cons i rest ih =>
    obtain ⟨hi, hrest⟩ := List.cons_subset.1 hl
    unfold Pass.bound
    dsimp only
    rw [Task.exec_bind_of_ok (Task.exec_find?_of_none (h.get?_binding_eq_none hnobody hi)),
      Task.exec_bind_of_ok (ih hrest)]
    rfl

theorem exec_bring (h : w.store.Serves S) (hreviewer : env.reviewer = S.reviewer) (now : Timestamp)
    (ns : String) (summary : PassSummary) :
    ∃ summary' w', (Pass.bring now ns (S.claimants ns) (S.inventoriesIn ns) summary).exec env w =
        (.ok summary', w') ∧ summary'.released = summary.released ∧ w'.claims = w.claims ∧
      w.store.Filled S (S.refsIn ns) w'.store := by
  unfold Pass.bring Sources.refsIn
  by_cases hnobody : S.claimants ns = []
  · rw [if_pos (List.isEmpty_iff.2 hnobody), if_pos hnobody,
      Task.exec_bind_of_ok (h.exec_bound env now hnobody (List.Subset.refl _))]
    exact ⟨_, w, rfl, rfl, rfl, h.toFits.filled_nil⟩
  · rw [if_neg (fun hempty ↦ hnobody (List.isEmpty_iff.1 hempty)), if_neg hnobody]
    obtain ⟨reviews, hreviewed⟩ := Pass.exec_reviewed env w ns
    rw [Task.exec_bind_of_ok hreviewed, hreviewer, ensureTenants_eq]
    have htenant (t : Tenant) (ht : t ∈ S.claimants ns) : t ∈ S.tenants ∧
        t.viewerBinding (t.access (S.inventoriesIn ns) (Pass.reviewedAccess S.reviewer ns)) =
          S.tenantBinding t := by
      obtain ⟨hmem, rfl⟩ := Sources.mem_claimants_iff.1 ht
      exact ⟨hmem, rfl⟩
    have hinventory (i : Inventory) (hi : i ∈ S.inventoriesIn ns) : i ∈ S.claimed ∧
        i.viewerBinding (i.access (S.claimants ns)) = S.inventoryBinding i := by
      obtain ⟨hmem, -⟩ := Sources.mem_inventoriesIn_iff.1 hi
      rw [Sources.mem_claimed_iff, Sources.inventoryBinding, Sources.ns_of_mem_inventoriesIn hi]
      exact ⟨⟨hmem, hnobody⟩, rfl⟩
    rw [ensurePairs_congr fun t ht ↦ (htenant t ht).2]
    obtain ⟨summary₁, s₁, hexec₁, hreleased₁, hfilled₁⟩ :=
      Store.Fits.exec_ensurePairs (w := { w with reviews }) h.toFits env now derives_tenantRole
        S.derives_tenantBinding
        (fun t ht ↦ h.valid_tenant (htenant t ht).1)
        (fun t ht ↦ h.asks_tenant (htenant t ht).1)
        { summary with
          tenants := (S.claimants ns).length
          inventories := (S.inventoriesIn ns).length }
    rw [Task.exec_bind_of_ok hexec₁, ensureInventories_eq,
      ensurePairs_congr fun i hi ↦ (hinventory i hi).2]
    obtain ⟨summary', after, hexec, hreleased, hfilled⟩ :=
      Store.Fits.exec_ensurePairs (w := World.withStore { w with reviews } s₁) hfilled₁.fits env now
        derives_inventoryRole S.derives_inventoryBinding
        (fun i hi ↦ h.valid_inventory (Sources.mem_claimed_iff.1 (hinventory i hi).1).1)
        (fun i hi ↦ h.asks_inventory (hinventory i hi).1) summary₁
    exact ⟨summary', _, hexec, hreleased.trans hreleased₁, rfl, hfilled₁.trans hfilled⟩

theorem exec_run (h : w.store.Serves S) (hreviewer : env.reviewer = S.reviewer) (now : Timestamp)
    (ns : String) :
    ∃ summary w', (Pass.run now ns).exec env w = (.ok summary, w') ∧
      w'.claims = w.claims.publish S.tenants ∧
      summary.released = w'.claims.releasedSince w.claims ∧
      w.store.Filled S (S.refsIn ns) w'.store := by
  have hrun := Pass.exec_run_of_readable (h.readable now) env ns
  dsimp only at hrun
  rw [h.claimants_eq, h.inventoriesIn_eq, h.tenants] at hrun
  obtain ⟨summary', w', hexec, hreleased, hclaims, hfilled⟩ := exec_bring
    (w := { w with claims := w.claims.publish S.tenants }) h hreviewer now ns {
      namespaceName := ns
      snapshotVersion := (w.claims.publish S.tenants).version
      released := (w.claims.publish S.tenants).releasedSince w.claims }
  refine ⟨summary', w', hrun.trans hexec, hclaims, ?_, hfilled⟩
  rw [hreleased, hclaims]

theorem origin_of_mem_refsIn {ref : ObjectRef} (h : ref ∈ S.refsIn ns) :
    ref.kind.origin ≠ none := by
  rcases Sources.mem_refsIn_iff.1 h with ⟨t, -, h⟩ | ⟨-, i, -, h⟩
  · rcases List.mem_cons.1 h with rfl | h
    · nofun
    · rw [List.mem_singleton.1 h]
      nofun
  · rcases List.mem_cons.1 h with rfl | h
    · nofun
    · rw [List.mem_singleton.1 h]
      nofun

theorem kind_ne_of_mem_refsIn {ref : ObjectRef} (h : ref ∈ S.refsIn ns) :
    ref.kind ≠ .config ∧ ref.kind ≠ .resourceQuota := by
  have horigin := origin_of_mem_refsIn h
  refine ⟨fun hkind ↦ horigin ?_, fun hkind ↦ horigin ?_⟩
  · rw [hkind]
    rfl
  · rw [hkind]
    rfl

theorem of_filled (h : s.Serves S) (hfilled : s.Filled S (S.refsIn ns) after) :
    after.Serves S := by
  obtain ⟨news, hwrote, hrefs, -⟩ := hfilled.wrote
  have hsame (ref : ObjectRef) (horigin : ref.kind.origin = none) :
      after.objects.get? ref = s.objects.get? ref := by
    refine hwrote.frame ref fun e he heq ↦ ?_
    exact origin_of_mem_refsIn (hrefs e he) (heq ▸ horigin)
  refine ⟨hfilled.fits, fun ref object hget ↦ ?_, fun now ↦ ?_, fun now ↦ ?_⟩
  · by_cases horigin : ref.kind.origin = none
    · rw [hsame ref horigin] at hget
      exact h.native ref object hget
    · have hcalled := hfilled.fits.called ref object hget
      obtain ⟨kind, key⟩ := ref
      cases kind
      case role | roleBinding | clusterRole | clusterRoleBinding =>
        obtain ⟨_, -, -, a, rfl, -⟩ := hcalled
        exact ⟨a, rfl⟩
      all_goals exact absurd rfl horigin
  · rw [← h.tenants now]
    exact objectsOf_congr fun key ↦ hsame _ rfl
  · rw [← h.inventories now]
    exact objectsOf_congr fun key ↦ hsame _ rfl

theorem of_configs (h : s.Serves S) (hcoherent : after.Coherent)
    (hsame : ∀ ref : ObjectRef, ref.kind ≠ .config → ref.kind ≠ .resourceQuota →
      after.objects.get? ref = s.objects.get? ref)
    (hnative : ∀ ref object, ref.kind = .config ∨ ref.kind = .resourceQuota →
      after.objects.get? ref = some object → ∃ o : ref.kind.Object, object = Resource.encode o) :
    after.Serves S := by
  refine ⟨⟨hcoherent, fun ref object hget ↦ ?_⟩, fun ref object hget ↦ ?_, fun now ↦ ?_,
    fun now ↦ ?_⟩
  · by_cases hkind : ref.kind = .config ∨ ref.kind = .resourceQuota
    · obtain ⟨kind, key⟩ := ref
      rcases hkind with rfl | rfl
      · trivial
      · trivial
    · rw [not_or] at hkind
      rw [hsame ref hkind.1 hkind.2] at hget
      exact h.called ref object hget
  · by_cases hkind : ref.kind = .config ∨ ref.kind = .resourceQuota
    · exact hnative ref object hkind hget
    · rw [not_or] at hkind
      rw [hsame ref hkind.1 hkind.2] at hget
      exact h.native ref object hget
  · rw [← h.tenants now]
    exact objectsOf_congr fun key ↦ hsame _ nofun nofun
  · rw [← h.inventories now]
    exact objectsOf_congr fun key ↦ hsame _ nofun nofun

end Store.Serves

end TenantAccess
