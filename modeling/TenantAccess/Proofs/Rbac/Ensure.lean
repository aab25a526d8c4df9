import TenantAccess.Pass
import TenantAccess.Proofs.Store.Identity

/-!
# What ensuring an object comes to

Ensuring writes one object at most.  If it succeeds, the object has the desired content unless it
belongs to somebody else.
-/

namespace TenantAccess

open Json Store

/-- What ties the content of a derived object to its metadata. -/
class Derived.Lawful (α : Type) [Derived α] : Prop extends Resource.Lawful α where
  differs_withMeta (desired : α) (m : ObjectMeta) :
    Derived.differs desired (Resource.withMeta desired m) = false
  differs_apply (desired observed : α) :
    Derived.differs desired (Derived.apply desired observed) = false
  differs_withMeta_right (desired observed : α) (m : ObjectMeta) :
    Derived.differs desired (Resource.withMeta observed m) = Derived.differs desired observed
  metadata_apply (desired observed : α) :
    Resource.metadata (Derived.apply desired observed) = Resource.metadata observed

instance (s : Scope) : Derived.Lawful (Role s) where
  differs_withMeta _ _ := by simp [Derived.differs, Resource.withMeta]
  differs_apply _ _ := by simp [Derived.differs, Derived.apply]
  differs_withMeta_right _ _ _ := rfl
  metadata_apply _ _ := rfl

instance (s : Scope) : Derived.Lawful (Binding s) where
  differs_withMeta _ _ := by simp [Derived.differs, Resource.withMeta]
  differs_apply _ _ := by simp [Derived.differs, Derived.apply]
  differs_withMeta_right _ _ _ := rfl
  metadata_apply _ _ := rfl

section Content

variable {s : Scope}

theorem Role.rules_eq {desired observed : Role s} (h : Derived.differs desired observed = false) :
    observed.rules = desired.rules := by
  have h : desired.rules = observed.rules := by simpa [Derived.differs] using h
  exact h.symm

theorem Binding.content_eq {desired observed : Binding s}
    (h : Derived.differs desired observed = false) :
    observed.roleRef = desired.roleRef ∧ observed.subjects = desired.subjects := by
  have h : desired.roleRef = observed.roleRef ∧ desired.subjects = observed.subjects := by
    simpa [Derived.differs] using h
  exact ⟨h.1.symm, h.2.symm⟩

theorem gate_role_of_get {r : Role s} (h : ∀ rule ∈ r.rules, rule.verbs = ["get"]) :
    gate r = [] := by
  refine List.filter_eq_nil_iff.2 fun verb hverb hany ↦ ?_
  obtain ⟨rule, hrule, hcontains⟩ := List.any_eq_true.1 hany
  rw [h rule hrule, List.contains_iff_mem, List.mem_singleton] at hcontains
  rw [hcontains] at hverb
  revert hverb
  decide

@[simp] theorem gate_inventory_viewerRole (i : Inventory) : gate i.viewerRole = [] :=
  gate_role_of_get fun rule hrule ↦ by rw [List.mem_singleton.1 hrule]; rfl

@[simp] theorem gate_tenant_viewerRole (t : Tenant) : gate t.viewerRole = [] :=
  gate_role_of_get fun rule hrule ↦ by rw [List.mem_singleton.1 hrule]; rfl

end Content

section Ensure

variable {α ω : Type} [Derived α] [Resource ω] {env : Surroundings} {now : Timestamp}
  {w w' : World} {desired : α} {owner : ω}

/-- A missing object as it is created in the name of its owner. -/
def asEnsuredNew (env : Surroundings) (s : Store) (owner : ω) (desired : α) : α :=
  asNew env.ambient s (ownedBy owner desired)

/-- An object that has drifted, with the desired content and its own metadata. -/
def asEnsuredOver (s : Store) (desired observed : α) : α :=
  asUpdate s (Resource.metadata observed) (Derived.apply desired observed)

def ensuredNew (env : Surroundings) (s : Store) (owner : ω) (desired : α) : Store :=
  s.recorded .added (asEnsuredNew env s owner desired) (s.issuedWith (Resource.metadata desired))

def ensuredOver (s : Store) (desired observed : α) : Store :=
  s.recorded .modified (asEnsuredOver s desired observed) s.issued

theorem ensure_eq (now : Timestamp) (owner : ω) (hgate : gate desired = []) :
    ensure now desired owner = Task.find? (α := α) now (Resource.key desired) >>= fun
      | none => do
        let _ ← Task.create now (ownedBy owner desired)
        return .created
      | some observed =>
        if !Derived.differs desired observed then return .unchanged
        else if !(Resource.metadata observed).isOwnedBy (Resource.metadata owner).uid then
          return .notOwned
        else do
          let _ ← Task.update now (Derived.apply desired observed)
          return .updated := by
  unfold ensure
  exact if_neg (not_not_intro hgate)

variable [Derived.Lawful α]

theorem metadata_ownedBy (owner : ω) (desired : α) :
    Resource.metadata (ownedBy owner desired) = { Resource.metadata desired with
      ownerReferences := [OwnerReference.controllerOf owner] } :=
  Resource.metadata_withMeta ..

section Written

variable (env : Surroundings) (s : Store) (owner : ω) (desired observed : α)

theorem key_ownedBy : Resource.key (ownedBy owner desired) = Resource.key desired := by
  rw [Resource.key, metadata_ownedBy]
  rfl

theorem scopeDefect_ownedBy : scopeDefect (Resource.kind α)
    (Resource.metadata (ownedBy owner desired)) =
      scopeDefect (Resource.kind α) (Resource.metadata desired) :=
  scopeDefect_congr (key_ownedBy owner desired)

@[simp] theorem key_asEnsuredNew :
    Resource.key (asEnsuredNew env s owner desired) = Resource.key desired := by
  rw [Resource.key, asEnsuredNew, metadata_asNew, metadata_ownedBy]
  rfl

theorem ownerReferences_asEnsuredNew :
    (Resource.metadata (asEnsuredNew env s owner desired)).ownerReferences =
      [OwnerReference.controllerOf owner] := by
  rw [asEnsuredNew, metadata_asNew, metadata_ownedBy]
  rfl

@[simp] theorem differs_asEnsuredNew :
    Derived.differs desired (asEnsuredNew env s owner desired) = false := by
  rw [asEnsuredNew, asNew, Derived.Lawful.differs_withMeta_right]
  exact Derived.Lawful.differs_withMeta desired _

theorem metadata_asEnsuredOver : Resource.metadata (asEnsuredOver s desired observed) =
    stampOver s (Resource.metadata observed) (Resource.metadata observed) := by
  rw [asEnsuredOver, metadata_asUpdate, Derived.Lawful.metadata_apply]

@[simp] theorem key_asEnsuredOver :
    Resource.key (asEnsuredOver s desired observed) = Resource.key observed := by
  rw [Resource.key, metadata_asEnsuredOver]
  rfl

@[simp] theorem differs_asEnsuredOver :
    Derived.differs desired (asEnsuredOver s desired observed) = false := by
  rw [asEnsuredOver, asUpdate, Derived.Lawful.differs_withMeta_right]
  exact Derived.Lawful.differs_apply desired observed

theorem ref_apply : Resource.ref (Derived.apply desired observed) = Resource.ref observed := by
  rw [Resource.ref, Resource.key, Derived.Lawful.metadata_apply]
  rfl

end Written

theorem exec_ensure_of_none (owner : ω) (hgate : gate desired = [])
    (hnone : w.store.objects.get? (Resource.ref desired) = none)
    (hscope : scopeDefect (Resource.kind α) (Resource.metadata desired) = none) :
    (ensure now desired owner).exec env w =
      (.ok .created, w.withStore (ensuredNew env w.store owner desired)) := by
  have hscope' := (scopeDefect_ownedBy owner desired).trans hscope
  have hnone' : w.store.objects.get? (Resource.ref (ownedBy owner desired)) = none := by
    rw [Resource.ref, key_ownedBy]
    exact hnone
  rw [ensure_eq now owner hgate, Task.exec_bind_of_ok (Task.exec_find?_of_none hnone)]
  dsimp only
  rw [Task.exec_bind_of_ok (Task.exec_create hscope' hnone'), metadata_ownedBy]
  rfl

theorem exec_ensure_of_has (env : Surroundings) (h : w.store.Coherent) (owner : ω)
    (hgate : gate desired = [])
    {observed : α} (hhas : w.store.Has now observed)
    (hkey : Resource.key observed = Resource.key desired) :
    (ensure now desired owner).exec env w =
      if Derived.differs desired observed = false then (.ok .unchanged, w)
      else if (Resource.metadata observed).isOwnedBy (Resource.metadata owner).uid = false then
        (.ok .notOwned, w)
      else (.ok .updated, w.withStore (ensuredOver w.store desired observed)) := by
  have hfind : (Task.find? (α := α) now (Resource.key desired)).exec env w =
      (.ok (some observed), w) := by
    rw [← hkey]
    exact Task.exec_find?_of_has hhas
  rw [ensure_eq now owner hgate, Task.exec_bind_of_ok hfind]
  dsimp only
  cases hdiffers : Derived.differs desired observed with
  | false => rfl
  | true =>
    cases howned : (Resource.metadata observed).isOwnedBy (Resource.metadata owner).uid with
    | false => rfl
    | true =>
      obtain ⟨object, hget, hdecode⟩ := hhas
      have hmeta := Derived.Lawful.metadata_apply desired observed
      have hscope : scopeDefect (Resource.kind α)
          (Resource.metadata (Derived.apply desired observed)) = none := by
        rw [hmeta]
        exact h.scopeDefect_of_has ⟨object, hget, hdecode⟩
      have hget' : w.store.objects.get? (Resource.ref (Derived.apply desired observed)) =
          some object := by
        rw [ref_apply]
        exact hget
      have hupdate : (Task.update now (Derived.apply desired observed)).exec env w =
          (.ok _, w.withStore (ensuredOver w.store desired observed)) :=
        Task.exec_update hscope hget' (h.metaOf_of_has hget hdecode)
          (congrArg ObjectMeta.resourceVersion hmeta)
      simp only [Bool.not_true, Bool.false_eq_true, if_false, Bool.true_eq_false]
      rw [Task.exec_bind_of_ok hupdate]
      rfl

end Ensure

end TenantAccess
