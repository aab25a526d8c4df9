import TenantAccess.Proofs.Document.Clock
import TenantAccess.Proofs.Rbac.Exact
import TenantAccess.Proofs.Rbac.Outcome

/-!
# Inherited access after a pass

An inventory without a declaration of its own inherits the developers of the tenants that claim its
namespace.  After a pass that succeeds, whatever else is stored, a binding that belongs to such an
inventory names nobody but those developers.
-/

namespace TenantAccess

open Store

/-- The subject stands for a developer of the tenant, in a binding in `ns`. -/
def Tenant.Grants (t : Tenant) (ns : String) (subject : Subject) : Prop :=
  (∃ user ∈ t.developer.users, Subject.ofUser? (some ns) user = some subject) ∨
    ∃ group ∈ t.developer.groups, Subject.principal .group group (some ns) = subject

instance (t : Tenant) (ns : String) (subject : Subject) : Decidable (t.Grants ns subject) :=
  inferInstanceAs (Decidable (_ ∨ _))

section Access

variable {l : List Tenant} {a : AccessSet} {name : String}

theorem AccessSet.mem_users_extendFrom {users groups : List String} :
    name ∈ (a.extendFrom users groups).users ↔ name ∈ a.users ∨ name ∈ users := by
  simp [extendFrom, new]

theorem AccessSet.mem_groups_extendFrom {users groups : List String} :
    name ∈ (a.extendFrom users groups).groups ↔ name ∈ a.groups ∨ name ∈ groups := by
  simp [extendFrom, new]

theorem mem_users_foldl_extendFrom :
    name ∈ (l.foldl (fun a t ↦ a.extendFrom t.developer.users t.developer.groups) a).users ↔
      name ∈ a.users ∨ ∃ t ∈ l, name ∈ t.developer.users := by
  induction l generalizing a with
  | nil => simp
  | cons t rest ih =>
    rw [List.foldl_cons, ih, AccessSet.mem_users_extendFrom, or_assoc]
    simp

theorem mem_groups_foldl_extendFrom :
    name ∈ (l.foldl (fun a t ↦ a.extendFrom t.developer.users t.developer.groups) a).groups ↔
      name ∈ a.groups ∨ ∃ t ∈ l, name ∈ t.developer.groups := by
  induction l generalizing a with
  | nil => simp
  | cons t rest ih =>
    rw [List.foldl_cons, ih, AccessSet.mem_groups_extendFrom, or_assoc]
    simp

theorem Inventory.exists_grants {i : Inventory} {ns : String} {tenants : List Tenant}
    {subject : Subject} (hunset : i.spec.authz.isUnset)
    (h : subject ∈ (i.access tenants).subjects (some ns)) :
    ∃ t ∈ tenants, t.Grants ns subject := by
  rw [access, if_pos hunset, AccessSet.subjects, List.mem_append] at h
  rcases h with h | h
  · obtain ⟨user, huser, hsubject⟩ := List.mem_filterMap.1 h
    rcases mem_users_foldl_extendFrom.1 huser with hempty | ⟨t, ht, htuser⟩
    · cases hempty
    · exact ⟨t, (List.mem_filter.1 ht).1, .inl ⟨user, htuser, hsubject⟩⟩
  · obtain ⟨group, hgroup, hsubject⟩ := List.mem_map.1 h
    rcases mem_groups_foldl_extendFrom.1 hgroup with hempty | ⟨t, ht, htgroup⟩
    · cases hempty
    · exact ⟨t, (List.mem_filter.1 ht).1, .inr ⟨group, htgroup, hsubject⟩⟩

end Access

/-- Nobody has inherited access in `ns` but through a tenant that claims it: each subject of a binding
that belongs to an inventory without a declaration stands for a developer of such a tenant. -/
def Store.Current (s : Store) (ns : String) : Prop :=
  ∀ (now : Timestamp) (i : Inventory) (b : Binding .namespaced), s.Has now i →
    i.metadata.ns? = some ns → i.spec.authz.isUnset → s.Has now b →
    b.metadata.key = ⟨some ns, bindingName (inventoryRoleName i.metadata.name)⟩ →
    b.metadata.isOwnedBy i.metadata.uid →
    ∀ subject ∈ b.subjects, ∃ t : Tenant, s.Has now t ∧ t.inventoryNamespace = ns ∧
      t.Grants ns subject

namespace Pass

variable {env : Surroundings} {now : Timestamp} {w w' : World} {ns : String}

def InReach (ns : String) (ref : ObjectRef) : Prop :=
  ref.kind.origin ≠ none ∧ (ref.kind = .roleBinding → ref.key.ns? = some ns)

theorem inReach_of_mem_tenantRefs {access : Tenant → AccessSet} {l : List Tenant}
    {ref : ObjectRef}
    (h : ref ∈ l.flatMap (Derivation.pairRefs Tenant.viewerRole fun t ↦ t.viewerBinding (access t)))
    (ns : String) : InReach ns ref := by
  obtain ⟨t, -, h⟩ := List.mem_flatMap.1 h
  rcases List.mem_cons.1 h with rfl | h
  · exact ⟨nofun, nofun⟩
  · rw [List.mem_singleton.1 h]
    exact ⟨nofun, nofun⟩

theorem inReach_of_mem_inventoryRefs {access : Inventory → AccessSet} {l : List Inventory}
    (hl : ∀ i ∈ l, i.metadata.ns? = some ns) {ref : ObjectRef}
    (h : ref ∈ l.flatMap
      (Derivation.pairRefs Inventory.viewerRole fun i ↦ i.viewerBinding (access i))) :
    InReach ns ref := by
  obtain ⟨i, hi, h⟩ := List.mem_flatMap.1 h
  have hns : i.ns = ns := by simp [Inventory.ns, hl i hi]
  rcases List.mem_cons.1 h with rfl | h
  · constructor <;> intro hkind <;> cases hkind
  · rw [List.mem_singleton.1 h]
    refine ⟨fun hkind ↦ ?_, fun _ ↦ congrArg some hns⟩
    cases hkind

theorem exec_bound_eq_ok (h : w.store.Coherent) {listed l : List Inventory}
    (hexec : (bound now listed).exec env w = (.ok l, w')) :
    w' = w ∧ l.Sublist listed ∧ ∀ i ∈ listed, i ∈ l ∨ w.store.objects.get? ⟨.roleBinding,
      .namespaced i.ns (bindingName (inventoryRoleName i.metadata.name))⟩ = none := by
  induction listed generalizing l w' with
  | nil =>
    cases hexec
    exact ⟨rfl, .slnil, fun _ hmem ↦ by simp at hmem⟩
  | cons i rest ih =>
    obtain ⟨o, w₁, hfind, hrest⟩ := Task.exec_bind_eq_ok_iff.1 hexec
    obtain ⟨others, w₂, hothers, hdone⟩ := Task.exec_bind_eq_ok_iff.1 hrest
    obtain ⟨rfl, hcases⟩ := Task.exec_find?_eq_ok h hfind
    obtain ⟨rfl, hsub, hall⟩ := ih hothers
    rcases hcases with ⟨rfl, hnone⟩ | ⟨b, rfl, -, -⟩
    · cases hdone
      refine ⟨rfl, hsub.cons i, fun i' hi' ↦ ?_⟩
      rcases List.mem_cons.1 hi' with rfl | hi'
      · exact .inr hnone
      · exact hall i' hi'
    · cases hdone
      refine ⟨rfl, hsub.cons_cons i, fun i' hi' ↦ ?_⟩
      rcases List.mem_cons.1 hi' with rfl | hi'
      · exact .inl List.mem_cons_self
      · exact (hall i' hi').imp_left (List.mem_cons_of_mem i)

variable {summary summary' : PassSummary} {tenants : List Tenant} {listed : List Inventory}

/-- Where a pass has brought a namespace in line, every stored binding of a listed inventory is as
desired if it belongs to the inventory. -/
def InLine (now : Timestamp) (tenants : List Tenant) (listed : List Inventory) (s : Store) : Prop :=
  ∀ i ∈ listed, s.Follows now i.metadata.uid (i.viewerBinding (i.access tenants))

theorem key_of_viewerBinding {access access' : AccessSet} {i i' : Inventory}
    (hi : i.metadata.ns? = some ns) (hi' : i'.metadata.ns? = some ns)
    (h : Resource.key (i.viewerBinding access) = Resource.key (i'.viewerBinding access')) :
    Resource.key i = Resource.key i' := by
  obtain ⟨-, hname⟩ := ObjectKey.mk.inj h
  exact ObjectKey.mk.injEq .. ▸ ⟨hi.trans hi'.symm,
    inventoryRoleName_injective (bindingName_injective hname)⟩

/-- What a pass finds in `ns`: stored inventories of the namespace in key order. -/
structure Lists (s : Store) (now : Timestamp) (ns : String) (listed : List Inventory) : Prop where
  has : ∀ i ∈ listed, s.Has now i
  ns_eq : ∀ i ∈ listed, i.metadata.ns? = some ns
  sorted : listed.Pairwise fun a b ↦ compare (Resource.key a) (Resource.key b) = .lt

theorem Lists.distinct {s : Store} (h : Lists s now ns listed) (access : Inventory → AccessSet) :
    listed.Pairwise fun a b ↦ Resource.key (a.viewerBinding (access a)) ≠
      Resource.key (b.viewerBinding (access b)) :=
  (Derivation.distinct_of_sorted h.sorted).imp_of_mem fun ha hb hne heq ↦
    hne (key_of_viewerBinding (h.ns_eq _ ha) (h.ns_eq _ hb) heq)

theorem Lists.sublist {s : Store} (h : Lists s now ns listed) {l : List Inventory}
    (hsub : l.Sublist listed) : Lists s now ns l where
  has i hi := h.has i (hsub.subset hi)
  ns_eq i hi := h.ns_eq i (hsub.subset hi)
  sorted := h.sorted.sublist hsub

abbrev inventoryRefs (tenants : List Tenant) (l : List Inventory) : List ObjectRef :=
  l.flatMap (Derivation.pairRefs Inventory.viewerRole fun i ↦ i.viewerBinding (i.access tenants))

theorem exec_ensureInventories_eq_ok (h : w.store.Coherent) {s : Store}
    (hlists : Lists s now ns listed)
    (hexec : (ensureInventories now tenants listed summary).exec env w = (.ok summary', w')) :
    ∃ after, w' = w.withStore after ∧ w.store.Onward (inventoryRefs tenants listed) after ∧
      summary'.released = summary.released ∧ InLine now tenants listed after := by
  rw [Derivation.ensureInventories_eq] at hexec
  obtain ⟨after, hw, honward, hreleased, hfollows⟩ :=
    exec_ensurePairs_eq_ok (by decide) (fun _ ↦ rfl) listed h hexec
  exact ⟨after, hw, honward, hreleased, hfollows (hlists.distinct _)⟩

theorem exec_bring_eq_ok (h : w.store.Coherent) (hlists : Lists w.store now ns listed)
    (hexec : (bring now ns tenants listed summary).exec env w = (.ok summary', w')) :
    ∃ refs, w'.claims = w.claims ∧ w.store.Onward refs w'.store ∧
      (∀ ref ∈ refs, InReach ns ref) ∧ summary'.released = summary.released ∧
      InLine now tenants listed w'.store := by
  unfold bring at hexec
  split at hexec
  · obtain ⟨l, w₁, hbound, hrest⟩ := Task.exec_bind_eq_ok_iff.1 hexec
    obtain ⟨rfl, hsub, hall⟩ := exec_bound_eq_ok h hbound
    obtain ⟨after, rfl, honward, hreleased, hline⟩ :=
      exec_ensureInventories_eq_ok h (hlists.sublist hsub) hrest
    refine ⟨_, rfl, honward, fun ref ↦ inReach_of_mem_inventoryRefs
      (hlists.sublist hsub).ns_eq, hreleased, fun i hi ↦ ?_⟩
    rcases hall i hi with hmem | hnone
    · exact hline i hmem
    · -- an inventory without a binding is passed over, and gets none
      by_cases hmem : i ∈ l
      · exact hline i hmem
      · have hoff : Resource.ref (i.viewerBinding (i.access tenants)) ∉
            inventoryRefs tenants l := by
          intro hmem'
          obtain ⟨i', hi', hmem'⟩ := List.mem_flatMap.1 hmem'
          rcases List.mem_cons.1 hmem' with heq | hmem'
          · cases congrArg ObjectRef.kind heq
          · have hi'' := hsub.subset hi'
            have hkey := key_of_viewerBinding
              (hlists.ns_eq i hi) (hlists.ns_eq i' hi'')
              (congrArg ObjectRef.key (List.mem_singleton.1 hmem'))
            rw [(hlists.has i hi).eq_of_key_eq (hlists.has i' hi'') hkey] at hmem
            exact hmem hi'
        rintro a ⟨object, hget, -⟩ hkey
        have href : Resource.ref a = Resource.ref (i.viewerBinding (i.access tenants)) :=
          congrArg (ObjectRef.mk _) hkey
        rw [href, World.store_withStore, honward.agrees _ hoff] at hget
        cases hnone.symm.trans hget
  · obtain ⟨inputs, w₁, hreviewed, hrest⟩ := Task.exec_bind_eq_ok_iff.1 hexec
    obtain ⟨summary₁, w₂, htenants, hrest⟩ := Task.exec_bind_eq_ok_iff.1 hrest
    obtain ⟨reviews, heq⟩ := exec_reviewed env w ns
    rw [heq] at hreviewed
    cases hreviewed
    rw [Derivation.ensureTenants_eq] at htenants
    obtain ⟨s₁, rfl, honward₁, hreleased₁, -⟩ :=
      exec_ensurePairs_eq_ok (w := { w with reviews }) (by decide) (fun _ ↦ rfl) tenants h htenants
    obtain ⟨after, rfl, honward, hreleased, hline⟩ := exec_ensureInventories_eq_ok
      (w := World.withStore { w with reviews } s₁) honward₁.coherent hlists hrest
    refine ⟨_, rfl, honward₁.trans honward, fun ref hmem ↦ ?_, hreleased.trans hreleased₁, hline⟩
    rcases List.mem_append.1 hmem with hmem | hmem
    · exact inReach_of_mem_tenantRefs hmem ns
    · exact inReach_of_mem_inventoryRefs hlists.ns_eq hmem

theorem get?_of_not_inReach {before after : Store} {refs : List ObjectRef}
    (h : before.Onward refs after) (hreach : ∀ ref ∈ refs, InReach ns ref) {ref : ObjectRef}
    (hout : ¬InReach ns ref) : after.objects.get? ref = before.objects.get? ref :=
  h.agrees ref fun hmem ↦ hout (hreach ref hmem)

theorem InLine.current {s after : Store} {refs : List ObjectRef} (h : s.Coherent)
    (hline : InLine now ((s.objectsOf Tenant now .all).filter (·.inventoryNamespace = ns))
      (s.objectsOf Inventory now (.inNamespace ns)) after)
    (honward : s.Onward refs after) (hreach : ∀ ref ∈ refs, InReach ns ref) :
    after.Current ns := by
  rintro later i b ⟨object, hget, hdecode⟩ hns hunset hb hkey howned subject hsubject
  -- the inventory as the pass has read it
  obtain ⟨i', hdecode', hmeta, hspec⟩ := Inventory.exists_decode_at hdecode now
  have hget' : s.objects.get? (Resource.ref i') = some object := by
    have href : Resource.ref i' = Resource.ref i :=
      congrArg (fun m : ObjectMeta ↦ ObjectRef.mk .inventory m.key) hmeta
    rw [href, ← get?_of_not_inReach honward hreach fun hin ↦ hin.1 rfl]
    exact hget
  have hlisted : i' ∈ s.objectsOf Inventory now (.inNamespace ns) :=
    (mem_objectsOf_iff h).2 ⟨⟨object, hget', hdecode'⟩,
      ListParams.accepts_inNamespace_iff.2 ((congrArg ObjectMeta.ns? hmeta).trans hns)⟩
  have hdiffers := hline i' hlisted b hb (by
    change b.metadata.key = ⟨some i'.ns, bindingName (inventoryRoleName i'.metadata.name)⟩
    rw [hkey, Inventory.ns, hmeta, hns]
    rfl) (hmeta ▸ howned)
  rw [(Binding.content_eq hdiffers).2] at hsubject
  have hsubject : subject ∈ (i'.access _).subjects (some i'.ns) := hsubject
  have hi'ns : i'.ns = ns := by rw [Inventory.ns, hmeta, hns]; rfl
  rw [hi'ns] at hsubject
  obtain ⟨t, ht, hgrants⟩ := Inventory.exists_grants (hspec ▸ hunset) hsubject
  obtain ⟨ht, hclaims⟩ := List.mem_filter.1 ht
  obtain ⟨⟨object', hgetTenant, hdecodeTenant⟩, -⟩ := (mem_objectsOf_iff h).1 ht
  refine ⟨t, ⟨object', ?_, hdecodeTenant⟩, of_decide_eq_true hclaims, hgrants⟩
  rw [get?_of_not_inReach honward hreach fun hin ↦ hin.1 rfl]
  exact hgetTenant

/-- A pass fails over what it reads, and then writes nothing, or it publishes the claims and brings
the namespace in line. -/
theorem exec_run_cases (env : Surroundings) (h : w.store.Coherent) (now : Timestamp) (ns : String) :
    (∃ e w', (run now ns).exec env w = (.error e, w') ∧ w'.store = w.store) ∨
    let claims := w.claims.publish (w.store.objectsOf Tenant now .all)
    (run now ns).exec env w =
      (bring now ns ((w.store.objectsOf Tenant now .all).filter (·.inventoryNamespace = ns))
        (w.store.objectsOf Inventory now (.inNamespace ns)) {
          namespaceName := ns
          snapshotVersion := claims.version
          released := claims.releasedSince w.claims }).exec env { w with claims } := by
  have hreads : (refresh now).Asks Request.AnyReply Request.Reads :=
    asks_refresh now (fun _ _ ↦ trivial) fun _ ↦ trivial
  rw [run_eq, Task.exec_bind_of_ok (Task.exec_ask _)]
  dsimp only [Request.perform]
  rcases hrefresh : (refresh now).exec env w with ⟨e | ⟨claims, tenants⟩, w₁⟩
  · have hstore := hreads.store_eq env w
    rw [hrefresh] at hstore
    exact .inl ⟨e, w₁, Task.exec_bind_of_error hrefresh _, hstore⟩
  · rw [Task.exec_bind_of_ok hrefresh]
    obtain ⟨tenants', w₂, hlist, hpublish⟩ := Task.exec_bind_eq_ok_iff.1 hrefresh
    obtain ⟨hsame, rfl⟩ := Task.exec_list_eq_ok h hlist
    rw [Task.exec_bind_of_ok (Task.exec_ask _)] at hpublish
    cases hpublish
    subst hsame
    dsimp only [Request.perform]
    generalize hw : ({ w₂ with
      claims := w₂.claims.publish (w₂.store.objectsOf Tenant now .all) } : World) = w'
    have hstore : w'.store = w₂.store := by rw [← hw]
    rcases hlist : (Task.list (α := Inventory) now (.inNamespace ns)).exec env w' with
      ⟨e | listed, w₃⟩
    · have hreads : (Task.list (α := Inventory) now (.inNamespace ns)).Asks Request.AnyReply
          Request.Reads := Task.asks_list trivial
      have hkept := hreads.store_eq env w'
      rw [hlist] at hkept
      exact .inl ⟨e, w₃, Task.exec_bind_of_error hlist _, hkept.trans hstore⟩
    · obtain ⟨rfl, rfl⟩ := Task.exec_list_eq_ok (hstore ▸ h) hlist
      rw [hstore] at hlist
      exact .inr (Task.exec_bind_of_ok hlist _)

/-- A pass that succeeds publishes who claims what, writes within its reach alone, and leaves
inherited access in its namespace up to date. -/
theorem exec_run_eq_ok (h : w.store.Coherent)
    (hexec : (run now ns).exec env w = (.ok summary, w')) :
    ∃ refs, w'.claims = w.claims.publish (w.store.objectsOf Tenant now .all) ∧
      w.store.Onward refs w'.store ∧ (∀ ref ∈ refs, InReach ns ref) ∧
      summary.released = w'.claims.releasedSince w.claims ∧ w'.store.Current ns := by
  rcases exec_run_cases env h now ns with ⟨e, _, heq, -⟩ | heq
  · rw [heq] at hexec
    cases hexec
  · dsimp only at heq
    rw [heq] at hexec
    have hlists : Lists w.store now ns (w.store.objectsOf Inventory now (.inNamespace ns)) := by
      exact ⟨fun i hi ↦ ((mem_objectsOf_iff h).1 hi).1,
        fun i hi ↦ ListParams.accepts_inNamespace_iff.1 ((mem_objectsOf_iff h).1 hi).2,
        objectsOf_pairwise h⟩
    obtain ⟨refs, hclaims, honward, hreach, hreleased, hline⟩ := exec_bring_eq_ok
      (w := { w with claims := w.claims.publish (w.store.objectsOf Tenant now .all) }) h hlists
      hexec
    refine ⟨refs, hclaims, honward, hreach, ?_, hline.current h honward hreach⟩
    rw [hclaims]
    exact hreleased

theorem exec_run_of_version (h : w.store.Coherent) (hok : ((run now ns).exec env w).1.isOk)
    (hversion : ((run now ns).exec env w).2.store.version = w.store.version) :
    ∃ summary w', (run now ns).exec env w = (.ok summary, w') ∧ w'.store = w.store := by
  rcases hrun : (run now ns).exec env w with ⟨e | summary, w'⟩
  · rw [hrun] at hok
    cases hok
  · obtain ⟨refs, -, honward, -⟩ := exec_run_eq_ok h hrun
    rw [hrun] at hversion
    refine ⟨summary, w', rfl, ?_⟩
    rcases honward.version with hsame | hlt
    · exact hsame
    · exact absurd hversion (Nat.ne_of_gt hlt)

theorem exec_run_of_idle (h : Derivation w.store) (env : Surroundings)
    (hclaimants : w.store.claimants now ns = []) (hinventories : w.store.inventoriesIn now ns = []) :
    ∃ summary w', (run now ns).exec env w = (.ok summary, w') ∧ w'.store = w.store := by
  have hlist : (Task.list (α := Inventory) now (.inNamespace ns)).exec env
      { w with claims := w.claims.publish (w.store.objectsOf Tenant now .all) } =
      (.ok (w.store.inventoriesIn now ns), _) := Task.exec_list h.coherent (h.encodes.legible now _)
  rw [run_eq, Task.exec_bind_of_ok (Task.exec_ask _)]
  dsimp only [Request.perform]
  rw [Task.exec_bind_of_ok (h.exec_refresh env now)]
  dsimp only
  rw [Task.exec_bind_of_ok hlist, hinventories,
    show (w.store.objectsOf Tenant now .all).filter (·.inventoryNamespace = ns) = []
      from hclaimants]
  exact ⟨_, _, rfl, rfl⟩

end Pass

end TenantAccess
