import TenantAccess.Proofs.Rbac.Pass
import TenantAccess.Proofs.Rbac.Steps

/-!
# Derived objects are owned and exact, whatever came before

Tenants and inventories come and go and are edited, and passes run over any namespace.  In whatever
order that happens, every role and binding belongs to the one object it is derived from, and a pass
over a claimed namespace leaves there what its tenants, its inventories and the reviews call for.
-/

namespace TenantAccess

open Store

def Store.claimants (s : Store) (now : Timestamp) (ns : String) : List Tenant :=
  (s.objectsOf Tenant now .all).filter (·.inventoryNamespace = ns)

def Store.inventoriesIn (s : Store) (now : Timestamp) (ns : String) : List Inventory :=
  s.objectsOf Inventory now (.inNamespace ns)

/-- All but roles and bindings is as it was. -/
def Store.SameSources (before after : Store) : Prop :=
  ∀ ref, ref.kind.origin = none → after.objects.get? ref = before.objects.get? ref

namespace Derivation

variable {env : Surroundings} {now : Timestamp} {w : World} {ns : String}

theorem mem_claimants_iff {s : Store} (h : Derivation s) {t : Tenant} :
    t ∈ s.claimants now ns ↔ s.Holds t ∧ t.inventoryNamespace = ns := by
  rw [Store.claimants, List.mem_filter, mem_objectsOf_iff h.coherent, decide_eq_true_eq]
  constructor
  · exact fun ⟨⟨ht, _⟩, hns⟩ ↦ ⟨h.encodes.holds_of_has ht, hns⟩
  · exact fun ⟨ht, hns⟩ ↦ ⟨⟨ht.has now, rfl⟩, hns⟩

theorem mem_inventoriesIn_iff {s : Store} (h : Derivation s) {i : Inventory} :
    i ∈ s.inventoriesIn now ns ↔ s.Holds i ∧ i.metadata.ns? = some ns := by
  rw [Store.inventoriesIn, mem_objectsOf_iff h.coherent, ListParams.accepts_inNamespace_iff]
  constructor
  · exact fun ⟨hi, hns⟩ ↦ ⟨h.encodes.holds_of_has hi, hns⟩
  · exact fun ⟨hi, hns⟩ ↦ ⟨hi.has now, hns⟩

theorem distinct_of_sorted {ω : Type} [Resource ω] {l : List ω}
    (h : l.Pairwise fun a b ↦ compare (Resource.key a) (Resource.key b) = .lt) :
    l.Pairwise fun a b ↦ Resource.key a ≠ Resource.key b :=
  h.imp fun hlt heq ↦ by simp [heq] at hlt

theorem exec_bound (h : Derivation w.store) (env : Surroundings) (now : Timestamp) (l : List Inventory) :
    ∃ l', (Pass.bound now l).exec env w = (.ok l', w) ∧ l'.Sublist l := by
  induction l with
  | nil => exact ⟨[], rfl, .slnil⟩
  | cons i rest ih =>
    obtain ⟨l', hexec, hsub⟩ := ih
    have hfind : ∃ o : Option (Binding .namespaced), (Task.find? (α := Binding .namespaced) now
        (.namespaced i.ns (bindingName (inventoryRoleName i.metadata.name)))).exec env w =
          (.ok o, w) := by
      cases hget : w.store.objects.get? ⟨.roleBinding,
          .namespaced i.ns (bindingName (inventoryRoleName i.metadata.name))⟩ with
      | none => exact ⟨none, Task.exec_find?_of_none hget⟩
      | some object =>
        obtain ⟨b, rfl⟩ := h.encodes (β := Binding .namespaced) _ _ hget
        exact ⟨some b, Task.exec_find?_of_decode hget (Resource.decode_encode b)⟩
    obtain ⟨o, hfind⟩ := hfind
    unfold Pass.bound
    dsimp only
    rw [Task.exec_bind_of_ok hfind, Task.exec_bind_of_ok hexec]
    cases o with
    | none => exact ⟨l', rfl, hsub.cons i⟩
    | some b => exact ⟨i :: l', rfl, hsub.cons_cons i⟩

theorem sameSources_of_agreesOff {ω α β : Type} [Resource ω] [Derived α] [Derived β]
    {role : ω → α} {binding : ω → β} {roleName name : String → String}
    (hrole : Derives role roleName) (hbinding : Derives binding name) {before after : Store}
    {l : List ω} (h : before.AgreesOff after (l.flatMap (pairRefs role binding))) :
    before.SameSources after := by
  intro ref horigin
  refine h ref fun hmem ↦ ?_
  obtain ⟨o, -, hmem⟩ := List.mem_flatMap.1 hmem
  rcases List.mem_cons.1 hmem with rfl | hmem
  · cases horigin.symm.trans hrole.origin
  · rw [List.mem_singleton.1 hmem] at horigin
    cases horigin.symm.trans hbinding.origin

theorem exec_refresh (h : Derivation w.store) (env : Surroundings) (now : Timestamp) :
    (Pass.refresh now).exec env w =
      (.ok (w.claims.publish (w.store.objectsOf Tenant now .all),
        w.store.objectsOf Tenant now .all),
      { w with claims := w.claims.publish (w.store.objectsOf Tenant now .all) }) := by
  unfold Pass.refresh
  rw [Task.exec_bind_of_ok (Task.exec_list h.coherent (h.encodes.legible now .all)),
    Task.exec_bind_of_ok (Task.exec_ask _)]
  rfl

theorem exec_ensureInventories (h : Derivation w.store) (henv : ∀ n, env.ambient.uid n ≠ "")
    (now : Timestamp) (tenants : List Tenant) {l : List Inventory}
    (hholds : ∀ i ∈ l, w.store.Holds i)
    (hdistinct : l.Pairwise fun a b ↦ Resource.key a ≠ Resource.key b) (summary : PassSummary) :
    ∃ summary' after, (Pass.ensureInventories now tenants l summary).exec env w =
        (.ok summary', w.withStore after) ∧
      summary'.notOwned = summary.notOwned ∧ Derivation after ∧ w.store.SameSources after ∧
      (∀ i ∈ l, after.Matches i.viewerRole ∧ after.Matches (i.viewerBinding (i.access tenants))) ∧
      ∀ ref, ref.kind ≠ .role → ref.kind ≠ .roleBinding →
        after.objects.get? ref = w.store.objects.get? ref := by
  obtain ⟨summary', after, hexec, hcount, hafter, hmatch, hagrees⟩ :=
    h.exec_ensurePairs henv now derives_inventoryRole
      (derives_inventoryBinding fun i ↦ i.access tenants) (by decide) l hholds hdistinct summary
  rw [← ensureInventories_eq] at hexec
  refine ⟨summary', after, hexec, hcount, hafter, sameSources_of_agreesOff derives_inventoryRole
    (derives_inventoryBinding _) hagrees, hmatch, fun ref hrole hbinding ↦ hagrees ref ?_⟩
  intro hmem
  obtain ⟨i, -, hmem⟩ := List.mem_flatMap.1 hmem
  rcases List.mem_cons.1 hmem with rfl | hmem
  · exact hrole rfl
  · exact hbinding (congrArg ObjectRef.kind (List.mem_singleton.1 hmem))

theorem exec_ensureTenants (h : Derivation w.store) (henv : ∀ n, env.ambient.uid n ≠ "")
    (now : Timestamp) (ns : String) (inventories : List Inventory) (inputs : ReviewedAccess)
    (summary : PassSummary) :
    ∃ summary' after, (Pass.ensureTenants now inventories inputs
        (w.store.claimants now ns) summary).exec env w = (.ok summary', w.withStore after) ∧
      summary'.notOwned = summary.notOwned ∧ Derivation after ∧ w.store.SameSources after ∧
      ∀ t ∈ w.store.claimants now ns, after.Matches t.viewerRole ∧
        after.Matches (t.viewerBinding (t.access inventories inputs)) := by
  have hdistinct : (w.store.claimants now ns).Pairwise fun a b ↦
      Resource.key a ≠ Resource.key b :=
    (distinct_of_sorted (objectsOf_pairwise h.coherent)).sublist List.filter_sublist
  obtain ⟨summary', after, hexec, hcount, hafter, hmatch, hagrees⟩ :=
    h.exec_ensurePairs henv now derives_tenantRole
      (derives_tenantBinding fun t ↦ t.access inventories inputs) (by decide)
      (w.store.claimants now ns) (fun t ht ↦ (h.mem_claimants_iff.1 ht).1) hdistinct summary
  rw [← ensureTenants_eq] at hexec
  exact ⟨summary', after, hexec, hcount, hafter, sameSources_of_agreesOff derives_tenantRole
    (derives_tenantBinding _) hagrees, hmatch⟩

/-- What a pass brings in line: everything that is derived, if somebody claims the namespace. -/
def BroughtInLine (before : Store) (reviewer : Reviewer) (now : Timestamp) (ns : String)
    (after : Store) : Prop :=
  before.claimants now ns ≠ [] →
    (∀ i ∈ before.inventoriesIn now ns, after.Matches i.viewerRole ∧
      after.Matches (i.viewerBinding (i.access (before.claimants now ns)))) ∧
    ∀ t ∈ before.claimants now ns, after.Matches t.viewerRole ∧
      after.Matches (t.viewerBinding (t.access (before.inventoriesIn now ns)
        (Pass.reviewedAccess reviewer ns)))

theorem exec_bring (h : Derivation w.store) (henv : ∀ n, env.ambient.uid n ≠ "")
    (now : Timestamp) (ns : String) (summary : PassSummary) :
    ∃ summary' w', (Pass.bring now ns (w.store.claimants now ns) (w.store.inventoriesIn now ns)
        summary).exec env w = (.ok summary', w') ∧
      summary'.notOwned = summary.notOwned ∧ Derivation w'.store ∧
      w.store.SameSources w'.store ∧ BroughtInLine w.store env.reviewer now ns w'.store := by
  have hholds (i : Inventory) (hi : i ∈ w.store.inventoriesIn now ns) : w.store.Holds i :=
    (h.mem_inventoriesIn_iff.1 hi).1
  have hdistinct : (w.store.inventoriesIn now ns).Pairwise fun a b ↦
      Resource.key a ≠ Resource.key b := distinct_of_sorted (objectsOf_pairwise h.coherent)
  unfold Pass.bring
  cases hclaimed : (w.store.claimants now ns).isEmpty with
  | true =>
    obtain ⟨l, hbound, hsub⟩ := h.exec_bound env now (w.store.inventoriesIn now ns)
    obtain ⟨summary', after, hexec, hcount, hafter, hsame, -⟩ :=
      h.exec_ensureInventories henv now (w.store.claimants now ns)
        (fun i hi ↦ hholds i (hsub.subset hi)) (hdistinct.sublist hsub)
        { summary with tenants := (w.store.claimants now ns).length, inventories := l.length }
    rw [if_pos rfl, Task.exec_bind_of_ok hbound]
    exact ⟨summary', _, hexec, hcount, hafter, hsame,
      fun hne ↦ absurd (List.isEmpty_iff.1 hclaimed) hne⟩
  | false =>
    obtain ⟨reviews, hreviewed⟩ := Pass.exec_reviewed env w ns
    obtain ⟨summary₁, s₁, hexec₁, hcount₁, h₁, hsame₁, htenants⟩ :=
      exec_ensureTenants (w := { w with reviews }) h henv now ns (w.store.inventoriesIn now ns)
        (Pass.reviewedAccess env.reviewer ns)
        { summary with
          tenants := (w.store.claimants now ns).length
          inventories := (w.store.inventoriesIn now ns).length }
    have hholds₁ (i : Inventory) (hi : i ∈ w.store.inventoriesIn now ns) : s₁.Holds i :=
      (hsame₁ _ rfl).trans (hholds i hi)
    obtain ⟨summary', after, hexec, hcount, hafter, hsame, hinventories, hothers⟩ :=
      exec_ensureInventories (w := World.withStore { w with reviews } s₁) h₁ henv now
        (w.store.claimants now ns) hholds₁ hdistinct summary₁
    rw [if_neg (by simp), Task.exec_bind_of_ok hreviewed, Task.exec_bind_of_ok hexec₁]
    refine ⟨summary', _, hexec, hcount.trans hcount₁, hafter,
      fun ref horigin ↦ (hsame ref horigin).trans (hsame₁ ref horigin),
      fun _ ↦ ⟨hinventories, fun t ht ↦ ?_⟩⟩
    obtain ⟨hrole, hbinding⟩ := htenants t ht
    have hclusterRole : Kind.clusterRole ≠ .role ∧ Kind.clusterRole ≠ .roleBinding := by decide
    have hclusterBinding : Kind.clusterRoleBinding ≠ .role ∧
        Kind.clusterRoleBinding ≠ .roleBinding := by decide
    exact ⟨hrole.congr (hothers _ hclusterRole.1 hclusterRole.2),
      hbinding.congr (hothers _ hclusterBinding.1 hclusterBinding.2)⟩

/-- A pass over a well-owned store succeeds, meets no stranger's object and touches only roles and
bindings.  Where somebody claims the namespace, all that is derived is brought in line. -/
theorem exec_pass (h : Derivation w.store) (henv : ∀ n, env.ambient.uid n ≠ "")
    (now : Timestamp) (ns : String) :
    ∃ summary w', (Pass.run now ns).exec env w = (.ok summary, w') ∧ summary.notOwned = 0 ∧
      Derivation w'.store ∧ w.store.SameSources w'.store ∧
      BroughtInLine w.store env.reviewer now ns w'.store := by
  obtain ⟨w₁, hw₁⟩ : ∃ w₁ : World, w₁ =
      { w with claims := w.claims.publish (w.store.objectsOf Tenant now .all) } := ⟨_, rfl⟩
  have hstore : w₁.store = w.store := by rw [hw₁]
  have h₁ : Derivation w₁.store := hstore ▸ h
  have hrefresh := h.exec_refresh env now
  rw [← hw₁] at hrefresh
  have hlist : (Task.list (α := Inventory) now (.inNamespace ns)).exec env w₁ =
      (.ok (w₁.store.inventoriesIn now ns), w₁) := Task.exec_list h₁.coherent (h₁.encodes.legible now _)
  have hclaimants : (w.store.objectsOf Tenant now .all).filter (·.inventoryNamespace = ns) =
      w₁.store.claimants now ns := by
    rw [hstore]
    rfl
  obtain ⟨summary', w', hexec, hcount, hafter, hsame, hline⟩ := h₁.exec_bring henv now ns {
      namespaceName := ns
      snapshotVersion := (w.claims.publish (w.store.objectsOf Tenant now .all)).version
      released :=
        (w.claims.publish (w.store.objectsOf Tenant now .all)).releasedSince w.claims }
  rw [hstore] at hsame hline
  refine ⟨summary', w', ?_, hcount, hafter, hsame, hline⟩
  rw [Pass.run_eq, Task.exec_bind_of_ok (Task.exec_ask _)]
  dsimp only [Request.perform]
  rw [Task.exec_bind_of_ok hrefresh]
  dsimp only
  rw [Task.exec_bind_of_ok hlist, hclaimants]
  exact hexec

end Derivation

/-! ## What is stored after a pass -/

/-- The rules of the role under `key`, if one is stored; `some none` if it cannot be read. -/
def Store.rulesAt (s : Store) (scope : Scope) (key : ObjectKey) :
    Option (Option (List PolicyRule)) :=
  (s.objects.get? ⟨scope.roleKind, key⟩).map fun object ↦
    (Role.decode (s := scope) Json.strict object).map (·.rules)

/-- The role and the subjects of the binding under `key`, if one is stored; `some none` if it cannot
be read. -/
def Store.grantAt (s : Store) (scope : Scope) (key : ObjectKey) :
    Option (Option (RoleRef × List Subject)) :=
  (s.objects.get? ⟨scope.bindingKind, key⟩).map fun object ↦
    (Binding.decode (s := scope) Json.strict object).map fun b ↦ (b.roleRef, b.subjects)

def desiredRules (inventories : List Inventory) (key : ObjectKey) : Option (List PolicyRule) :=
  (inventories.find? fun i ↦ i.viewerRole.metadata.key = key).map (·.viewerRole.rules)

def desiredGrant (tenants : List Tenant) (inventories : List Inventory) (key : ObjectKey) :
    Option (RoleRef × List Subject) :=
  let binding (i : Inventory) := i.viewerBinding (i.access tenants)
  (inventories.find? fun i ↦ (binding i).metadata.key = key).map fun i ↦
    ((binding i).roleRef, (binding i).subjects)

/-- After a pass over `ns` the roles and bindings there are those of its inventories, and the
tenants that claim it have theirs. -/
structure Store.ExactIn (before : Store) (reviewer : Reviewer) (now : Timestamp) (ns : String)
    (after : Store) : Prop where
  rules : ∀ name, after.rulesAt .namespaced ⟨some ns, name⟩ =
    (desiredRules (before.inventoriesIn now ns) ⟨some ns, name⟩).map some
  grants : ∀ name, after.grantAt .namespaced ⟨some ns, name⟩ =
    (desiredGrant (before.claimants now ns) (before.inventoriesIn now ns) ⟨some ns, name⟩).map some
  tenantRules : ∀ t ∈ before.claimants now ns,
    after.rulesAt .cluster t.viewerRole.metadata.key = some (some t.viewerRole.rules)
  tenantGrants : ∀ t ∈ before.claimants now ns,
    let binding := t.viewerBinding (t.access (before.inventoriesIn now ns)
      (Pass.reviewedAccess reviewer ns))
    after.grantAt .cluster binding.metadata.key = some (some (binding.roleRef, binding.subjects))

section Content

variable {s after : Store} {scope : Scope}

theorem Store.Matches.rulesAt_eq {r : Role scope} (h : s.Matches r) :
    s.rulesAt scope r.metadata.key = some (some r.rules) := by
  obtain ⟨a, ha, hkey, hdiffers⟩ := h
  have hget : s.objects.get? ⟨scope.roleKind, r.metadata.key⟩ = some a.encode := by
    rw [Holds, Resource.ref, hkey] at ha
    exact ha
  simp [rulesAt, hget, Role.inverts.decode_encode, Role.rules_eq hdiffers]

theorem Store.Matches.grantAt_eq {b : Binding scope} (h : s.Matches b) :
    s.grantAt scope b.metadata.key = some (some (b.roleRef, b.subjects)) := by
  obtain ⟨a, ha, hkey, hdiffers⟩ := h
  have hget : s.objects.get? ⟨scope.bindingKind, b.metadata.key⟩ = some a.encode := by
    rw [Holds, Resource.ref, hkey] at ha
    exact ha
  simp [grantAt, hget, Binding.inverts.decode_encode, Binding.content_eq hdiffers]

theorem Derivation.exists_inventory (h : Derivation s) (h' : Derivation after)
    (hsame : s.SameSources after) {kind : Kind} {build : String → String}
    (horigin : kind.origin = some (.inventory, build)) {ns name : String} {object : Json}
    (hget : after.objects.get? ⟨kind, ⟨some ns, name⟩⟩ = some object) (now : Timestamp) :
    ∃ i ∈ s.inventoriesIn now ns, build i.metadata.name = name := by
  obtain ⟨m, hm, -⟩ := h'.coherent.exists_metaOf hget
  obtain ⟨key, c, ⟨hc, -⟩, hkey⟩ := h'.owned _ m _ build ⟨object, hget, hm⟩ horigin
  obtain ⟨hns, hname⟩ := ObjectKey.mk.inj hkey
  obtain ⟨object', hget', -⟩ := hc
  rw [hsame _ rfl] at hget'
  obtain ⟨i, -, hi, rfl⟩ := h.encodes.exists_holds (α := Inventory) h.coherent hget'
  exact ⟨i, h.mem_inventoriesIn_iff.2 ⟨hi, hns.symm⟩, hname.symm⟩

theorem Derivation.exactIn (h : Derivation s) (h' : Derivation after)
    (hsame : s.SameSources after) {reviewer : Reviewer} {now : Timestamp} {ns : String}
    (hline : Derivation.BroughtInLine s reviewer now ns after)
    (hclaimed : s.claimants now ns ≠ []) : s.ExactIn reviewer now ns after := by
  obtain ⟨hinventories, htenants⟩ := hline hclaimed
  have hplace (i : Inventory) (hi : i ∈ s.inventoriesIn now ns) : i.ns = ns := by
    simp [Inventory.ns, (h.mem_inventoriesIn_iff.1 hi).2]
  constructor
  · intro name
    cases hfind : (s.inventoriesIn now ns).find? fun i ↦
        i.viewerRole.metadata.key = ⟨some ns, name⟩ with
    | some i =>
      have hkey : i.viewerRole.metadata.key = ⟨some ns, name⟩ := by
        simpa using List.find?_some hfind
      rw [desiredRules, hfind, ← hkey]
      exact (hinventories i (List.mem_of_find?_eq_some hfind)).1.rulesAt_eq
    | none =>
      rw [desiredRules, hfind]
      cases hget : after.objects.get? ⟨.role, ⟨some ns, name⟩⟩ with
      | none => simp [rulesAt, Scope.roleKind, hget]
      | some object =>
        obtain ⟨i, hi, hname⟩ := h.exists_inventory h' hsame rfl hget now
        have hnot := List.find?_eq_none.1 hfind i hi
        simp [Inventory.viewerRole, ObjectMeta.namespaced, ObjectMeta.key, hplace i hi,
          hname] at hnot
  · intro name
    cases hfind : (s.inventoriesIn now ns).find? fun i ↦
        (i.viewerBinding (i.access (s.claimants now ns))).metadata.key = ⟨some ns, name⟩ with
    | some i =>
      have hkey : (i.viewerBinding (i.access (s.claimants now ns))).metadata.key =
          ⟨some ns, name⟩ := by
        simpa using List.find?_some hfind
      rw [desiredGrant, hfind, ← hkey]
      exact (hinventories i (List.mem_of_find?_eq_some hfind)).2.grantAt_eq
    | none =>
      rw [desiredGrant, hfind]
      cases hget : after.objects.get? ⟨.roleBinding, ⟨some ns, name⟩⟩ with
      | none => simp [grantAt, Scope.bindingKind, hget]
      | some object =>
        obtain ⟨i, hi, hname⟩ := h.exists_inventory h' hsame rfl hget now
        have hnot := List.find?_eq_none.1 hfind i hi
        simp [Inventory.viewerBinding, ObjectMeta.namespaced, ObjectMeta.key, hplace i hi,
          hname] at hnot
  · exact fun t ht ↦ (htenants t ht).1.rulesAt_eq
  · exact fun t ht ↦ (htenants t ht).2.grantAt_eq

end Content

/-! ## Runs -/

/-- What may happen next to tenants, inventories and what is derived from them.  Each step has its
own time and its own reviewer, and may come to nothing. -/
inductive Derivation.Step (w : World) : World → Prop
  | create (env : Surroundings) (now : Timestamp) (kind : Kind)
    (hkind : kind = .tenant ∨ kind = .inventory) (o : kind.Object)
    (henv : ∀ n, env.ambient.uid n ≠ "") : Step w ((Task.create now o).exec env w).2
  | update (env : Surroundings) (now : Timestamp) (kind : Kind)
    (hkind : kind = .tenant ∨ kind = .inventory) (o : kind.Object) :
    Step w ((Task.update now o).exec env w).2
  | delete (env : Surroundings) (kind : Kind) (hkind : kind = .tenant ∨ kind = .inventory)
    (key : ObjectKey) : Step w ((Task.delete kind key).exec env w).2
  | pass (env : Surroundings) (now : Timestamp) (ns : String)
    (henv : ∀ n, env.ambient.uid n ≠ "") : Step w ((Pass.run now ns).exec env w).2

/-- The worlds that a run from an empty store comes through. -/
inductive Derivation.Reached : World → Prop
  | start (w : World) (h : w.store = .empty) : Reached w
  | step {w w' : World} (h : Reached w) (hstep : Step w w') : Reached w'

theorem Derivation.of_step {w w' : World} (h : Derivation w.store) (hstep : Step w w') :
    Derivation w'.store := by
  have horigin {kind : Kind} (hkind : kind = .tenant ∨ kind = .inventory) :
      (Resource.kind kind.Object).origin = none := by
    rcases hkind with rfl | rfl <;> rfl
  cases hstep with
  | create env now kind hkind o henv =>
    rcases Task.exec_create_cases env now o w with ⟨e, heq⟩ | ⟨hscope, hnone, heq⟩
    · rw [heq]
      exact h
    · rw [heq]
      exact h.create henv hscope hnone (horigin hkind)
  | update env now kind hkind o =>
    rcases Task.exec_update_cases env now o w with
      ⟨e, heq⟩ | ⟨current, c, hget, hc, hscope, heq⟩
    · rw [heq]
      exact h
    · rw [heq]
      exact h.update ⟨current, hget, hc⟩ hscope (horigin hkind)
  | delete env kind hkind key =>
    rcases Task.exec_delete_cases env h.coherent kind key with ⟨-, heq⟩ | ⟨after, heq, hswept⟩
    · rw [heq]
      exact h
    · rw [heq]
      exact h.sweep hswept
  | pass env now ns henv =>
    obtain ⟨_, w', heq, -, hafter, -⟩ := h.exec_pass henv now ns
    rw [heq]
    exact hafter

theorem Derivation.of_reached {w : World} (h : Reached w) : Derivation w.store := by
  induction h with
  | start w h =>
    rw [h]
    exact derivation_empty
  | step _ hstep ih => exact ih.of_step hstep

/-- Every role and binding belongs to the one stored object from whose name its own is built.  A
pass succeeds and meets nothing that belongs to anybody else, and what it leaves in a claimed
namespace depends on tenants, inventories and reviews alone. -/
theorem derived_owned_and_exact {w : World} (h : Derivation.Reached w) :
    (∀ ref object ownerKind build, w.store.objects.get? ref = some object →
      ref.kind.origin = some (ownerKind, build) →
      ∃ m key c r, metaOf ref.kind object = .ok m ∧ w.store.HasMeta ⟨ownerKind, key⟩ c ∧
        ref.key = ⟨key.ns?, build key.name⟩ ∧ m.ownerReferences = [r] ∧ r.uid = c.uid) ∧
    ∀ (env : Surroundings) (now : Timestamp) (ns : String), (∀ n, env.ambient.uid n ≠ "") →
      ∃ summary w', (Pass.run now ns).exec env w = (.ok summary, w') ∧ summary.notOwned = 0 ∧
        (w.store.claimants now ns ≠ [] →
          w.store.ExactIn env.reviewer now ns w'.store) := by
  have hderivation := Derivation.of_reached h
  refine ⟨fun ref object ownerKind build hget horigin ↦ ?_, fun env now ns henv ↦ ?_⟩
  · obtain ⟨m, hm, -⟩ := hderivation.coherent.exists_metaOf hget
    obtain ⟨key, c, ⟨hc, r, hr, huid⟩, hkey⟩ :=
      hderivation.owned ref m ownerKind build ⟨object, hget, hm⟩ horigin
    exact ⟨m, key, c, r, hm, hc, hkey, hr, huid⟩
  · obtain ⟨summary, w', hexec, hcount, hafter, hsame, hline⟩ :=
      hderivation.exec_pass henv now ns
    exact ⟨summary, w', hexec, hcount, hderivation.exactIn hafter hsame hline⟩

/-- A tenant claims a namespace with an inventory, and a pass runs over it twice. -/
theorem derived_owned_and_exact_after_two_passes :
    let env : Surroundings := ⟨⟨default, numberedUid⟩, fun _ ↦ .ok .empty⟩
    let claimed := ((Task.create default (Tenant.new "team" "shop")).exec env {}).2
    let filled := ((Task.create default (Inventory.new "shop" "db")).exec env claimed).2
    let passed := ((Pass.run default "shop").exec env filled).2
    Derivation.Reached passed ∧ ∃ summary w',
      (Pass.run default "shop").exec env passed = (.ok summary, w') ∧ summary.notOwned = 0 := by
  intro env claimed filled passed
  have hclaimed : Derivation.Reached claimed := .step (.start {} rfl)
    (.create env default .tenant (.inl rfl) (Tenant.new "team" "shop")
      numberedUid_ne_empty)
  have hfilled : Derivation.Reached filled := .step hclaimed
    (.create env default .inventory (.inr rfl) (Inventory.new "shop" "db")
      numberedUid_ne_empty)
  have hpassed : Derivation.Reached passed :=
    .step hfilled (.pass env default "shop" numberedUid_ne_empty)
  obtain ⟨summary, w', hexec, hcount, -⟩ :=
    (derived_owned_and_exact hpassed).2 env default "shop" numberedUid_ne_empty
  exact ⟨hpassed, summary, w', hexec, hcount⟩

end TenantAccess
