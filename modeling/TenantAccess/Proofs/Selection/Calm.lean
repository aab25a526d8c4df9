import TenantAccess.Proofs.Selection.Leader
import TenantAccess.Proofs.Selection.Tended

/-!
# A namespace whose quotas may be left over

The quotas of a namespace may be those of any of its configs, but nothing is owned by a quota.  Then
writing a status, creating the quota of the leader and deleting the quota of another config leave all
that can be read as it can be read.
-/

namespace TenantAccess

open Json Store

def quotaRef (ns name : String) : ObjectRef := ⟨.resourceQuota, ⟨some ns, quotaName name⟩⟩

theorem quotaRef_injective {ns name other : String} (h : quotaRef ns name = quotaRef ns other) :
    name = other :=
  quotaName_injective (congrArg (fun ref : ObjectRef ↦ ref.key.name) h)

theorem config_ne_quotaRef {key : ObjectKey} {ns name : String} :
    (⟨.config, key⟩ : ObjectRef) ≠ quotaRef ns name :=
  fun heq ↦ by cases congrArg ObjectRef.kind heq

namespace Store

variable {α : Type} [Resource α] {s before after : Store} {a a' : α}

/-- Every object of `after` was there before, with its identity and its owners. -/
def Kin (before after : Store) : Prop :=
  ∀ ref m, after.HasMeta ref m → ∃ m₀, before.HasMeta ref m₀ ∧ m₀.uid = m.uid ∧
    m₀.ownerReferences = m.ownerReferences

structure Replaced (before after : Store) (a a' : α) : Prop where
  coherent : after.Coherent
  holds : after.Holds a'
  key_eq : Resource.key a' = Resource.key a
  uid_eq : (Resource.metadata a').uid = (Resource.metadata a).uid
  owners_eq : (Resource.metadata a').ownerReferences = (Resource.metadata a).ownerReferences
  others : ∀ ref, ref ≠ Resource.ref a → after.objects.get? ref = before.objects.get? ref

theorem Replaced.get?_eq (h : Replaced before after a a') :
    after.objects.get? (Resource.ref a) = some (Resource.encode a') := by
  rw [Resource.ref, ← h.key_eq]
  exact h.holds

theorem Replaced.kin [Resource.Lawful α] {now : Timestamp} (h : Replaced before after a a')
    (hbefore : before.Coherent) (ha : before.Has now a) : before.Kin after := by
  intro ref m hm
  by_cases href : ref = Resource.ref a
  · subst href
    have hm' : after.HasMeta (Resource.ref a) (Resource.metadata a') :=
      ⟨_, h.get?_eq, metaOf_encode _ a'⟩
    obtain ⟨object, hget, hdecode⟩ := ha
    refine ⟨Resource.metadata a, ⟨object, hget, hbefore.metaOf_of_has hget hdecode⟩, ?_⟩
    rw [hm.unique hm']
    exact ⟨h.uid_eq.symm, h.owners_eq.symm⟩
  · obtain ⟨object, hget, hmeta⟩ := hm
    rw [h.others ref href] at hget
    exact ⟨m, ⟨object, hget, hmeta⟩, rfl, rfl⟩

end Store

theorem Task.exec_update_of_has {α : Type} [Resource α] [Resource.Lawful α] (env : Surroundings)
    (now : Timestamp) {w : World} (h : w.store.Coherent) {a o : α} (ha : w.store.Has now a)
    (hmeta : Resource.metadata o = Resource.metadata a) :
    ∃ after, (Task.update now o).exec env w =
        (.ok (asUpdate w.store (Resource.metadata a) o), w.withStore after) ∧
      Replaced w.store after a (asUpdate w.store (Resource.metadata a) o) := by
  have hscope : scopeDefect (Resource.kind α) (Resource.metadata o) = none := by
    rw [hmeta]
    exact h.scopeDefect_of_has ha
  have hkey : Resource.key o = Resource.key a := congrArg ObjectMeta.key hmeta
  have href : Resource.ref o = Resource.ref a := congrArg (ObjectRef.mk _) hkey
  obtain ⟨object, hget, hdecode⟩ := ha
  refine ⟨_, Task.exec_update hscope (href ▸ hget) (h.metaOf_of_has hget hdecode)
    (congrArg ObjectMeta.resourceVersion hmeta), h.update hscope _, ?_, ?_, ?_, ?_, fun ref hne ↦ ?_⟩
  · rw [Holds, get?_recorded, if_pos rfl]
  · rw [Resource.key, metadata_asUpdate]
    exact hkey
  · rw [metadata_asUpdate]
    rfl
  · rw [metadata_asUpdate, ← hmeta]
    rfl
  · rw [get?_recorded, ref_asUpdate, href, if_neg hne]

/-! ## What stays on the way -/

/-- The configs of `ns` and the quotas under their names can be read.  Each of these quotas but that
of `leader` has a doomed identity; with it nothing else goes, and the identity of `leader` is none
of those. -/
structure Calm (ns : String) (doomed : String → Prop) (leader : String) (s : Store) : Prop where
  coherent : s.Coherent
  configs : ∀ name, s.HasConfig ns name → ∀ now, ∃ c, s.HasConfigAs ns name now c
  quotas : ∀ name object, s.HasConfig ns name → s.objects.get? (quotaRef ns name) = some object →
    ∃ q : ResourceQuota, ResourceQuota.decode strict object = some q
  fated : ∀ name m, s.HasConfig ns name → name ≠ leader → s.HasMeta (quotaRef ns name) m →
    doomed m.uid
  free : ∀ ref m u, s.HasMeta ref m → doomed u → m.isOwnedBy u = false
  spared : ∀ m, s.HasMeta ⟨.config, ⟨some ns, leader⟩⟩ m → ¬doomed m.uid

section Calm

variable {ns name leader : String} {doomed : String → Prop} {s after : Store} {now : Timestamp}
  {c c' : Config} {q q' : ResourceQuota}

theorem Store.HasConfigAs.ref_eq (h : s.HasConfigAs ns name now c) :
    Resource.ref c = ⟨.config, ⟨some ns, name⟩⟩ := congrArg (ObjectRef.mk .config) h.2

theorem Store.HasConfigAs.hasConfig (h : s.HasConfigAs ns name now c) : s.HasConfig ns name := by
  obtain ⟨object, hget, -⟩ := h.get?
  exact ⟨object, hget⟩

theorem Calm.of_kin (h : Calm ns doomed leader s) (hcoherent : after.Coherent)
    (hkin : s.Kin after)
    (hhas : ∀ name, after.HasConfig ns name → s.HasConfig ns name)
    (hconfigs : ∀ name, after.HasConfig ns name → ∀ now, ∃ c, after.HasConfigAs ns name now c)
    (hquotas : ∀ name object, s.HasConfig ns name →
      after.objects.get? (quotaRef ns name) = some object →
      ∃ q : ResourceQuota, ResourceQuota.decode strict object = some q) :
    Calm ns doomed leader after where
  coherent := hcoherent
  configs := hconfigs
  quotas name object hname := hquotas name object (hhas name hname)
  fated name m hname hne hm := by
    obtain ⟨m₀, hm₀, huid, -⟩ := hkin _ m hm
    rw [← huid]
    exact h.fated name m₀ (hhas name hname) hne hm₀
  free ref m u hm hu := by
    obtain ⟨m₀, hm₀, -, howners⟩ := hkin ref m hm
    rw [isOwnedBy_congr howners.symm]
    exact h.free ref m₀ u hm₀ hu
  spared m hm := by
    obtain ⟨m₀, hm₀, huid, -⟩ := hkin _ m hm
    rw [← huid]
    exact h.spared m₀ hm₀

theorem Calm.replaced_config (h : Calm ns doomed leader s) (hc : s.HasConfigAs ns name now c)
    (hr : Replaced s after c c') : Calm ns doomed leader after := by
  have hother : ∀ other, other ≠ name → after.objects.get? ⟨.config, ⟨some ns, other⟩⟩ =
      s.objects.get? ⟨.config, ⟨some ns, other⟩⟩ := by
    intro other hne
    refine hr.others _ fun heq ↦ hne ?_
    rw [hc.ref_eq] at heq
    exact congrArg (fun ref : ObjectRef ↦ ref.key.name) heq
  refine h.of_kin hr.coherent (hr.kin h.coherent hc.1) (fun other hhas ↦ ?_)
    (fun other hhas later ↦ ?_) fun other object hhas hget ↦ h.quotas other object hhas ?_
  · by_cases heq : other = name
    · exact heq ▸ hc.hasConfig
    · exact (hasConfig_congr (hother other heq)).1 hhas
  · by_cases heq : other = name
    · exact ⟨c', hr.holds.has later, hr.key_eq.trans (heq ▸ hc.2)⟩
    · obtain ⟨o, ho⟩ := h.configs other ((hasConfig_congr (hother other heq)).1 hhas) later
      exact ⟨o, ho.congr (hother other heq)⟩
  · rw [← hget]
    exact (hr.others _ config_ne_quotaRef.symm).symm

/-- Where the configs are the same and nothing is new, only the quotas matter. -/
theorem Calm.of_configs (h : Calm ns doomed leader s) (hcoherent : after.Coherent)
    (hkin : s.Kin after)
    (hconfig : ∀ name, after.objects.get? ⟨.config, ⟨some ns, name⟩⟩ =
      s.objects.get? ⟨.config, ⟨some ns, name⟩⟩)
    (hquotas : ∀ name object, s.HasConfig ns name →
      after.objects.get? (quotaRef ns name) = some object →
      ∃ q : ResourceQuota, ResourceQuota.decode strict object = some q) :
    Calm ns doomed leader after := by
  have hhas (name : String) : after.HasConfig ns name ↔ s.HasConfig ns name :=
    hasConfig_congr (hconfig name)
  refine h.of_kin hcoherent hkin (fun name ↦ (hhas name).1) (fun name hname later ↦ ?_) hquotas
  obtain ⟨c, hc⟩ := h.configs name ((hhas name).1 hname) later
  exact ⟨c, hc.congr (hconfig name)⟩

theorem Calm.replaced_quota (h : Calm ns doomed leader s) (hq : s.Has now q)
    (hkey : q.metadata.key = ⟨some ns, quotaName name⟩) (hr : Replaced s after q q') :
    Calm ns doomed leader after := by
  have href : Resource.ref q = quotaRef ns name := congrArg (ObjectRef.mk .resourceQuota) hkey
  refine h.of_configs hr.coherent (hr.kin h.coherent hq) (fun other ↦ ?_)
    fun other object hhas hget ↦ ?_
  · exact hr.others _ fun heq ↦ config_ne_quotaRef (heq.trans href)
  · by_cases heq : quotaRef ns other = Resource.ref q
    · rw [heq, hr.get?_eq] at hget
      cases hget
      exact ⟨q', ResourceQuota.inverts.decode_encode q'⟩
    · rw [hr.others _ heq] at hget
      exact h.quotas other object hhas hget

theorem Calm.created_quota (h : Calm ns doomed leader s) (hc : s.HasConfigAs ns leader now c)
    (hq : Resource.ref q = quotaRef ns leader)
    (howners : q.metadata.ownerReferences = [OwnerReference.controllerOf c]) {issued : Nat}
    (hcoherent : (s.recorded .added q issued).Coherent) :
    Calm ns doomed leader (s.recorded .added q issued) := by
  have hconfig (other : String) : (s.recorded .added q issued).objects.get?
      ⟨.config, ⟨some ns, other⟩⟩ = s.objects.get? ⟨.config, ⟨some ns, other⟩⟩ := by
    rw [get?_recorded, hq, if_neg config_ne_quotaRef]
  have hhas (other : String) :
      (s.recorded .added q issued).HasConfig ns other ↔ s.HasConfig ns other :=
    hasConfig_congr (hconfig other)
  constructor
  case coherent => exact hcoherent
  case configs =>
    intro other hother later
    obtain ⟨o, ho⟩ := h.configs other ((hhas other).1 hother) later
    exact ⟨o, ho.congr (hconfig other)⟩
  case quotas =>
    intro other object hother hget
    rw [get?_recorded] at hget
    split at hget
    · cases hget
      exact ⟨q, ResourceQuota.inverts.decode_encode q⟩
    · exact h.quotas other object ((hhas other).1 hother) hget
  case fated =>
    intro other m hother hne hm
    rcases hasMeta_recorded_iff.1 hm with ⟨heq, -⟩ | ⟨-, hm⟩
    · exact absurd (quotaRef_injective (heq.trans hq)) hne
    · exact h.fated other m ((hhas other).1 hother) hne hm
  case free =>
    intro ref m u hm hu
    rcases hasMeta_recorded_iff.1 hm with ⟨-, rfl⟩ | ⟨-, hm⟩
    · -- its only owner is the leader
      have huid : (Resource.metadata c).uid ≠ u := by
        rintro rfl
        obtain ⟨object, hget, hdecode⟩ := hc.1
        have hm := h.coherent.metaOf_of_has hget hdecode
        rw [hc.ref_eq] at hget
        exact h.spared _ ⟨object, hget, hm⟩ hu
      simp [ObjectMeta.isOwnedBy, show (Resource.metadata q).ownerReferences = _ from howners,
        OwnerReference.controllerOf, huid]
    · exact h.free ref m u hm hu
  case spared =>
    intro m hm
    rcases hasMeta_recorded_iff.1 hm with ⟨heq, -⟩ | ⟨-, hm⟩
    · exact absurd (heq.trans hq) config_ne_quotaRef
    · exact h.spared m hm

theorem Calm.swept_quota (h : Calm ns doomed leader s) (hhas : s.HasConfig ns name)
    (hne : name ≠ leader) (hswept : Swept s [quotaRef ns name] after) :
    Calm ns doomed leader after ∧
      ∀ ref, ref ≠ quotaRef ns name → after.objects.get? ref = s.objects.get? ref := by
  have hgone := hswept.caused (· = quotaRef ns name)
    (fun ref href ↦ List.mem_singleton.1 href)
    (fun ref m ref' m' href _ hm hm' howned ↦ by
      subst href
      rw [h.free ref' m' m.uid hm' (h.fated name m hhas hne hm)] at howned
      cases howned)
  have hothers (ref : ObjectRef) (href : ref ≠ quotaRef ns name) :
      after.objects.get? ref = s.objects.get? ref := by
    rcases hswept.get?_eq ref with hkept | hnone
    · exact hkept
    · cases hget : s.objects.get? ref with
      | none => exact hnone
      | some object => exact absurd (hgone ref object hget hnone) href
  refine ⟨h.of_configs (hswept.coherent h.coherent)
    (fun ref m hm ↦ ⟨m, hswept.hasMeta hm, rfl, rfl⟩)
    (fun other ↦ hothers _ config_ne_quotaRef)
    fun other object hother hget ↦ h.quotas other object hother (hswept.kept _ _ hget), hothers⟩

end Calm

end TenantAccess
