import Mathlib.Data.Finset.Card
import TenantAccess.Manifest
import TenantAccess.Proofs.Rbac.Wanted
import TenantAccess.Proofs.Selection.Leader

/-!
# Seeded stores

Seeding that succeeds stores each object of a manifest under its key, and nothing else.  In such a store
no role and no binding is there yet, and no quota.
-/

namespace TenantAccess

open Store

namespace Store

variable {α : Type} [Resource α] {s middle after : Store} {a : α} {l : List α}

def plant (env : Ambient) (s : Store) (a : α) : Store :=
  s.recorded .added (asNew env s a) (s.issuedWith (Resource.metadata a))

/-- The object is stored, with metadata of the store's own under its key. -/
def Keeps (s : Store) (a : α) : Prop :=
  ∃ m : ObjectMeta, m.key = (Resource.metadata a).key ∧ s.Holds (Resource.withMeta a m)

theorem keeps_plant (env : Ambient) (s : Store) (a : α) : (s.plant env a).Keeps a := by
  refine ⟨stampNew env s (Resource.metadata a), stampNew_key .., ?_⟩
  change Holds _ (asNew env s a)
  rw [Holds, plant, get?_recorded, if_pos rfl]

/-- `after` is `s` with the new objects `l`. -/
structure Sown (l : List α) (s after : Store) : Prop where
  coherent : after.Coherent
  nodup : (l.map Resource.key).Nodup
  fresh : ∀ a ∈ l, s.objects.get? (Resource.ref a) = none
  kept : ∀ a ∈ l, after.Keeps a
  others : ∀ ref, (∀ a ∈ l, ref ≠ Resource.ref a) → after.objects.get? ref = s.objects.get? ref

theorem sown_nil (h : s.Coherent) : Sown ([] : List α) s s where
  coherent := h
  nodup := .nil
  fresh _ ha := absurd ha List.not_mem_nil
  kept _ ha := absurd ha List.not_mem_nil
  others _ _ := rfl

variable [Resource.Lawful α]

theorem Keeps.exists_get? (h : s.Keeps a) :
    ∃ m : ObjectMeta, s.objects.get? (Resource.ref a) =
      some (Resource.encode (Resource.withMeta a m)) := by
  obtain ⟨m, hkey, hholds⟩ := h
  refine ⟨m, ?_⟩
  rw [Holds, Resource.ref, Resource.key, Resource.metadata_withMeta, hkey] at hholds
  exact hholds

theorem Keeps.exists_eq_encode (h : s.Keeps a) {object : Json}
    (hget : s.objects.get? (Resource.ref a) = some object) : ∃ b : α, object = Resource.encode b := by
  obtain ⟨m, hm⟩ := h.exists_get?
  rw [hget] at hm
  exact ⟨_, Option.some.inj hm⟩

theorem Keeps.scopeDefect_eq (hs : s.Coherent) (h : s.Keeps a) :
    scopeDefect (Resource.kind α) (Resource.metadata a) = none := by
  obtain ⟨m, hkey, hholds⟩ := h
  have hscope := hs.scopeDefect_of_has (hholds.has default)
  rwa [Resource.metadata_withMeta, scopeDefect_congr hkey] at hscope

theorem Sown.cons (h : Sown l middle after) (hnone : s.objects.get? (Resource.ref a) = none)
    (hkept : middle.Keeps a)
    (hothers : ∀ ref, ref ≠ Resource.ref a → middle.objects.get? ref = s.objects.get? ref) :
    Sown (a :: l) s after := by
  -- what is stored later found its place free, so it is not the place of `a`
  obtain ⟨m, hget⟩ := hkept.exists_get?
  have hnew (b : α) (hb : b ∈ l) : Resource.ref b ≠ Resource.ref a := by
    intro href
    have hfresh := h.fresh b hb
    rw [href, hget] at hfresh
    cases hfresh
  refine ⟨h.coherent, ?_, fun b hb ↦ ?_, fun b hb ↦ ?_, fun ref hout ↦ ?_⟩
  · rw [List.map_cons, List.nodup_cons]
    refine ⟨fun hmem ↦ ?_, h.nodup⟩
    obtain ⟨b, hb, hkey⟩ := List.mem_map.1 hmem
    exact hnew b hb (congrArg (ObjectRef.mk _) hkey)
  · rcases List.mem_cons.1 hb with rfl | hb
    · exact hnone
    · rw [← hothers _ (hnew b hb)]
      exact h.fresh b hb
  · rcases List.mem_cons.1 hb with rfl | hb
    · obtain ⟨m, hkey, hholds⟩ := hkept
      refine ⟨m, hkey, ?_⟩
      have href : Resource.ref (Resource.withMeta b m) = Resource.ref b := by
        rw [Resource.ref, Resource.key, Resource.metadata_withMeta, hkey]
        rfl
      rw [Holds, h.others _ fun c hc ↦ href ▸ (hnew c hc).symm]
      exact hholds
    · exact h.kept b hb
  · rw [h.others ref fun b hb ↦ hout b (List.mem_cons_of_mem _ hb)]
    exact hothers ref (hout a List.mem_cons_self)

end Store

namespace Manifest

variable {α : Type} [Resource α] [Resource.Lawful α] {env : Surroundings} {now : Timestamp}
  {what : String} {w w' : World} {a : α} {l : List α}

theorem exists_of_run_bind {ε β γ : Type} {x : ExceptT ε Program β} {f : β → ExceptT ε Program γ}
    {c : γ} (h : (x >>= f).run.run env w = (.ok c, w')) :
    ∃ b middle, x.run.run env w = (.ok b, middle) ∧ (f b).run.run env middle = (.ok c, w') := by
  rw [ExceptT.run_bind, Program.run_bind] at h
  rcases hx : x.run.run env w with ⟨e | b, middle⟩
  · rw [hx] at h
    cases h
  · rw [hx] at h
    exact ⟨b, middle, rfl, h⟩

theorem run_of_run_adapt {ε ε' β : Type} {f : ε → ε'} {x : ExceptT ε Program β} {b : β}
    (h : (ExceptT.adapt f x).run.run env w = (.ok b, w')) : x.run.run env w = (.ok b, w') := by
  change Program.run env (Except.mapError f <$> x.run) w = _ at h
  rw [map_eq_pure_bind, Program.run_bind, Program.run_pure] at h
  rcases hx : x.run.run env w with ⟨e | b, middle⟩
  · rw [hx] at h
    cases h
  · rw [hx] at h
    cases h
    rfl

theorem eq_plant_of_seedOne (hseed : (seedOne now what a).run.run env w = (.ok (), w')) :
    scopeDefect (Resource.kind α) (Resource.metadata a) = none ∧
      w.store.objects.get? (Resource.ref a) = none ∧
      w' = w.withStore (w.store.plant env.ambient a) := by
  obtain ⟨b, middle, hcreate, hdone⟩ := exists_of_run_bind (run_of_run_adapt hseed)
  cases hdone
  have hcreate : (Task.create now a).exec env w = (.ok b, w') := hcreate
  rcases Task.exec_create_cases env now a w with ⟨e, hexec⟩ | ⟨hscope, hnone, hexec⟩
  · rw [hexec] at hcreate
    cases hcreate
  · rw [hexec] at hcreate
    cases hcreate
    exact ⟨hscope, hnone, rfl⟩

theorem sown_of_seed (h : w.store.Coherent)
    (hseed : (l.forM (seedOne now what)).run.run env w = (.ok (), w')) :
    w'.claims = w.claims ∧ Sown l w.store w'.store := by
  induction l generalizing w with
  | nil =>
    cases hseed
    exact ⟨rfl, sown_nil h⟩
  | cons a rest ih =>
    obtain ⟨_, middle, hone, hrest⟩ := exists_of_run_bind hseed
    obtain ⟨hscope, hnone, rfl⟩ := eq_plant_of_seedOne hone
    obtain ⟨hclaims, hsown⟩ := ih (h.create hscope _) hrest
    refine ⟨hclaims, hsown.cons hnone (keeps_plant ..) fun ref href ↦ ?_⟩
    rw [World.store_withStore, plant, get?_recorded, ref_asNew, if_neg href]

/-- The store holds the objects of the manifest, each under its own key, and nothing else. -/
structure Seeded (m : Manifest) (s : Store) : Prop where
  coherent : s.Coherent
  nodup_tenants : (m.tenants.map Resource.key).Nodup
  nodup_inventories : (m.inventories.map Resource.key).Nodup
  tenants : ∀ t ∈ m.tenants, s.Keeps t
  inventories : ∀ i ∈ m.inventories, s.Keeps i
  configs : ∀ c ∈ m.configs, s.Keeps c
  only : ∀ ref object, s.objects.get? ref = some object → (∃ t ∈ m.tenants, ref = Resource.ref t) ∨
    (∃ i ∈ m.inventories, ref = Resource.ref i) ∨ ∃ c ∈ m.configs, ref = Resource.ref c

omit [Resource.Lawful α] in
theorem keeps_of_sown {β : Type} [Resource β] [Resource.Lawful β] {s after : Store} {others : List β}
    (h : Sown others s after) (hkind : Resource.kind α ≠ Resource.kind β) (ha : s.Keeps a) :
    after.Keeps a := by
  obtain ⟨m, hkey, hholds⟩ := ha
  refine ⟨m, hkey, ?_⟩
  rw [Holds, h.others _ fun b _ href ↦ hkind (congrArg ObjectRef.kind href)]
  exact hholds

theorem run_seed_of_toBool {m : Manifest}
    (h : ((m.seed now).run.run env {}).1.toBool = true) :
    (m.seed now).run.run env {} = (.ok (), ((m.seed now).run.run env {}).2) := by
  generalize (m.seed now).run.run env {} = r at h ⊢
  obtain ⟨_ | _, _⟩ := r
  · cases h
  · rfl

theorem seeded_of_seed {m : Manifest} (hseed : (m.seed now).run.run env {} = (.ok (), w)) :
    m.Seeded w.store := by
  obtain ⟨_, w₁, htenants, hseed⟩ := exists_of_run_bind hseed
  obtain ⟨_, w₂, hinventories, hconfigs⟩ := exists_of_run_bind hseed
  obtain ⟨-, hsown₁⟩ := sown_of_seed coherent_empty htenants
  obtain ⟨-, hsown₂⟩ := sown_of_seed hsown₁.coherent hinventories
  obtain ⟨-, hsown₃⟩ := sown_of_seed hsown₂.coherent hconfigs
  refine ⟨hsown₃.coherent, hsown₁.nodup, hsown₂.nodup, fun t ht ↦ ?_, fun i hi ↦ ?_, hsown₃.kept,
    fun ref object hget ↦ ?_⟩
  · exact keeps_of_sown hsown₃ nofun (keeps_of_sown hsown₂ nofun (hsown₁.kept t ht))
  · exact keeps_of_sown hsown₃ nofun (hsown₂.kept i hi)
  · refine Classical.byContradiction fun hnot ↦ ?_
    rw [not_or, not_or] at hnot
    obtain ⟨htenant, hinventory, hconfig⟩ := hnot
    rw [hsown₃.others ref fun c hc href ↦ hconfig ⟨c, hc, href⟩,
      hsown₂.others ref fun i hi href ↦ hinventory ⟨i, hi, href⟩,
      hsown₁.others ref fun t ht href ↦ htenant ⟨t, ht, href⟩] at hget
    cases hget

namespace Seeded

variable {m : Manifest} {s : Store} {ref : ObjectRef} {object : Json} {t : Tenant} {i : Inventory}

theorem native (h : m.Seeded s) (hget : s.objects.get? ref = some object) :
    ∃ o : ref.kind.Object, object = Resource.encode o := by
  rcases h.only ref object hget with ⟨t, ht, rfl⟩ | ⟨i, hi, rfl⟩ | ⟨c, hc, rfl⟩
  · exact (h.tenants t ht).exists_eq_encode hget
  · exact (h.inventories i hi).exists_eq_encode hget
  · exact (h.configs c hc).exists_eq_encode hget

theorem origin_eq_none (h : m.Seeded s) (hget : s.objects.get? ref = some object) :
    ref.kind.origin = none ∧ ref.kind ≠ .resourceQuota := by
  rcases h.only ref object hget with ⟨t, ht, rfl⟩ | ⟨i, hi, rfl⟩ | ⟨c, hc, rfl⟩
  · exact ⟨rfl, nofun⟩
  · exact ⟨rfl, nofun⟩
  · exact ⟨rfl, nofun⟩

theorem led (h : m.Seeded s) : s.Led where
  coherent := h.coherent
  configs _ _ hget := h.native hget
  quotas _ _ hget := absurd rfl (h.origin_eq_none hget).2

end Seeded

end Manifest

namespace Store

variable {s : Store}

def sources (s : Store) (reviewer : Reviewer) : Sources where
  tenants := s.objectsOf Tenant default .all
  inventories := s.objectsOf Inventory default .all
  reviewer

theorem objectsOf_of_encodes {α : Type} [Resource α] [Resource.Lawful α] (h : s.Encodes α)
    (now now' : Timestamp) (params : ListParams) :
    s.objectsOf α now params = s.objectsOf α now' params := by
  unfold objectsOf
  apply List.filterMap_congr
  rintro ⟨⟨kind, key⟩, object⟩ hmem
  split
  · next hkind =>
    cases hkind
    obtain ⟨a, rfl⟩ := h key object (SortedMap.mem_entries_iff.1 hmem)
    rw [Resource.decode_encode, Resource.decode_encode]
  · rfl

end Store

/-- A seeded store holds nothing derived, so nothing that is not called for. -/
theorem Manifest.Seeded.serves {m : Manifest} {s : Store} (h : m.Seeded s) (reviewer : Reviewer) :
    s.Serves (s.sources reviewer) where
  coherent := h.coherent
  called ref object hget := by
    have horigin := (h.origin_eq_none hget).1
    obtain ⟨kind, key⟩ := ref
    cases kind
    case role | roleBinding | clusterRole | clusterRoleBinding => cases horigin
    all_goals trivial
  native _ _ hget := h.native hget
  tenants now := by
    have hencodes : s.Encodes Tenant := fun _ _ hget ↦ h.native hget
    exact objectsOf_of_encodes hencodes now default .all
  inventories now := by
    have hencodes : s.Encodes Inventory := fun _ _ hget ↦ h.native hget
    exact objectsOf_of_encodes hencodes now default .all

theorem Store.mem_objectsOf_of_keeps {α : Type} [Resource α] [Resource.Lawful α] {s : Store}
    {now : Timestamp} {l : List α} (h : s.Coherent) (hkept : ∀ a ∈ l, s.Keeps a)
    (honly : ∀ key object, s.objects.get? ⟨Resource.kind α, key⟩ = some object →
      ∃ a ∈ l, Resource.key a = key) {b : α} : b ∈ s.objectsOf α now .all ↔
      ∃ a ∈ l, ∃ m : ObjectMeta, m.key = (Resource.metadata a).key ∧ b = Resource.withMeta a m ∧
        s.Holds b := by
  rw [mem_objectsOf_iff h]
  constructor
  · rintro ⟨⟨object, hget, hdecode⟩, -⟩
    obtain ⟨a, ha, hkey⟩ := honly _ object hget
    obtain ⟨m, hmkey, hholds⟩ := hkept a ha
    have hb : b = Resource.withMeta a m := by
      refine Has.eq_of_key_eq ⟨object, hget, hdecode⟩ (hholds.has now) ?_
      rw [← hkey, Resource.key, Resource.key, Resource.metadata_withMeta, hmkey]
    exact ⟨a, ha, m, hmkey, hb, hb ▸ hholds⟩
  · rintro ⟨a, -, m, -, -, hholds⟩
    exact ⟨hholds.has now, rfl⟩

namespace Manifest

def namespaces (m : Manifest) : Finset String :=
  (m.tenants.map (·.inventoryNamespace) ++ m.inventories.filterMap (·.metadata.ns?)).toFinset

namespace Seeded

variable {m : Manifest} {s : Store}

theorem mem_tenants_iff (h : m.Seeded s) (reviewer : Reviewer) {t : Tenant} :
    t ∈ (s.sources reviewer).tenants ↔ ∃ t₀ ∈ m.tenants, ∃ filed : ObjectMeta,
      filed.key = t₀.metadata.key ∧ t = { t₀ with metadata := filed } ∧ s.Holds t := by
  refine mem_objectsOf_of_keeps h.coherent h.tenants fun key object hget ↦ ?_
  rcases h.only _ object hget with ⟨t, ht, href⟩ | ⟨i, -, href⟩ | ⟨c, -, href⟩
  · exact ⟨t, ht, (congrArg ObjectRef.key href).symm⟩
  · cases congrArg ObjectRef.kind href
  · cases congrArg ObjectRef.kind href

theorem mem_inventories_iff (h : m.Seeded s) (reviewer : Reviewer) {i : Inventory} :
    i ∈ (s.sources reviewer).inventories ↔ ∃ i₀ ∈ m.inventories, ∃ filed : ObjectMeta,
      filed.key = i₀.metadata.key ∧ i = { i₀ with metadata := filed } ∧ s.Holds i := by
  refine mem_objectsOf_of_keeps h.coherent h.inventories fun key object hget ↦ ?_
  rcases h.only _ object hget with ⟨t, -, href⟩ | ⟨i, hi, href⟩ | ⟨c, -, href⟩
  · cases congrArg ObjectRef.kind href
  · exact ⟨i, hi, (congrArg ObjectRef.key href).symm⟩
  · cases congrArg ObjectRef.kind href

end Seeded

end Manifest

end TenantAccess
