import TenantAccess.Proofs.Selection.Election
import TenantAccess.Proofs.Store.Identity

/-!
# Writing the status of a config and the quota of the active one

Each step of a transition in one go: the config is written over with its new condition and keeps its
identity, a missing quota is created, and a quota that is there and right is left alone.
-/

namespace TenantAccess

open Store

theorem quotaName_injective {a b : String} (h : quotaName a = quotaName b) : a = b := by
  simpa [quotaName, String.toList_inj] using congrArg String.toList h

theorem configLimit_entries :
    configLimit.entries = [("count/dbaasconfigs.dbaas.redhat.com", "1")] := rfl

namespace Config

def quotaKey (c : Config) : ObjectKey := ⟨c.metadata.ns?, quotaName c.metadata.name⟩

theorem key_eq_of_quotaKey_eq {c d : Config} (h : c.quotaKey = d.quotaKey) :
    Resource.key c = Resource.key d := by
  obtain ⟨hns, hname⟩ := ObjectKey.mk.inj h
  change (⟨c.metadata.ns?, c.metadata.name⟩ : ObjectKey) = ⟨d.metadata.ns?, d.metadata.name⟩
  rw [hns, quotaName_injective hname]

theorem quotaKey_eq_of_key_eq {c d : Config} (h : c.metadata.key = d.metadata.key) :
    c.quotaKey = d.quotaKey := by
  obtain ⟨hns, hname⟩ := ObjectKey.mk.inj h
  simp only [quotaKey, hns, hname]

/-- `after` is `before` with the config `c` written over as `c'`. -/
structure Rewritten (before after : Store) (c c' : Config) : Prop where
  coherent : after.Coherent
  holds : after.Holds c'
  key_eq : c'.metadata.key = c.metadata.key
  uid_eq : c'.metadata.uid = c.metadata.uid
  others : ∀ ref, ref ≠ Resource.ref c → after.objects.get? ref = before.objects.get? ref
  issued_eq : after.issued = before.issued
  named : before.Named → after.Named
  identified : ∀ uid, before.Identified uid → after.Identified uid

variable {env : Surroundings} {w : World} {now : Timestamp} {c c' o : Config}
  {before after : Store}

theorem rewritten_self (h : before.Coherent) (hc : before.Holds c) :
    Rewritten before before c c where
  coherent := h
  holds := hc
  key_eq := rfl
  uid_eq := rfl
  others _ _ := rfl
  issued_eq := rfl
  named := id
  identified _ := id

theorem scopeDefect_of_holds (h : before.Coherent) (hc : before.Holds c) :
    scopeDefect .config c.metadata = none :=
  h.scopeDefect_of_has (hc.has default)

theorem exec_listIn (env : Surroundings) (now : Timestamp) (h : w.store.Coherent)
    (hencodes : w.store.Encodes Config) (ns : String) :
    ∃ l, (listIn now ns).exec env w = (.ok l, w) ∧
      ∀ c, c ∈ l ↔ w.store.Holds c ∧ c.metadata.ns? = some ns := by
  refine ⟨_, Task.exec_list h (hencodes.legible now _), fun c ↦ ?_⟩
  rw [mem_objectsOf_iff h, ListParams.accepts_inNamespace_iff]
  constructor
  · exact fun ⟨hc, hns⟩ ↦ ⟨hencodes.holds_of_has hc, hns⟩
  · exact fun ⟨hc, hns⟩ ↦ ⟨hc.has now, hns⟩

/-- Whom an election elects is told by the list: nobody if a config is active or there is none, and
otherwise the first. -/
theorem exec_reelect_of_list {ns : String} {configs : List Config}
    (hlist : (listIn now ns).exec env w = (.ok configs, w)) :
    ((configs = [] ∨ ∃ o ∈ configs, o.isActive) ∧
      (reelect now ns).exec env w = (.ok (.deleted none), w)) ∨
    ∃ c ∈ configs, (∀ o ∈ configs, o.isActive = false) ∧
      (∀ o ∈ configs, c.metadata.name ≤ o.metadata.name) ∧
      ∀ name w', (c.transition now configs).exec env w = (.ok (.active name), w') →
        (reelect now ns).exec env w = (.ok (.deleted (some name)), w') := by
  unfold reelect
  rw [Task.exec_bind_of_ok hlist]
  cases hactive : active? configs with
  | some o =>
    obtain ⟨ho, hoactive⟩ := List.mem_filter.1 (mem_of_smallestBy hactive)
    exact .inl ⟨.inr ⟨o, ho, hoactive⟩, rfl⟩
  | none =>
    cases hsmallest : smallestBy (·.metadata.name) configs with
    | none => exact .inl ⟨.inl (smallestBy_eq_none_iff.1 hsmallest), rfl⟩
    | some c =>
      refine .inr ⟨c, mem_of_smallestBy hsmallest, active?_eq_none_iff.1 hactive, fun o ho ↦ ?_,
        fun name w' hexec ↦ ?_⟩
      · exact String.not_lt.1 fun hlt ↦ not_lt_smallestBy hsmallest ho (compare_eq_lt_iff.2 hlt)
      · dsimp only
        rw [Task.exec_bind_of_ok hexec]
        rfl

theorem exists_ns_of_holds (h : before.Coherent) (hc : before.Holds c) :
    ∃ ns, c.metadata.ns? = some ns ∧ ns ≠ "" :=
  exists_ns_of_scopeDefect rfl (scopeDefect_of_holds h hc)

theorem ns?_eq (h : before.Coherent) (hc : before.Holds c) : c.metadata.ns? = some c.ns := by
  obtain ⟨ns, hns, -⟩ := exists_ns_of_holds h hc
  rw [Config.ns, hns]
  rfl

namespace Rewritten

theorem ref_eq (h : Rewritten before after c c') : Resource.ref c' = Resource.ref c :=
  congrArg (ObjectRef.mk .config) h.key_eq

theorem holds_iff {α : Type} [Resource α] {a : α} (h : Rewritten before after c c')
    (hne : Resource.ref a ≠ Resource.ref c) : after.Holds a ↔ before.Holds a := by
  rw [Holds, Holds, h.others _ hne]

theorem holds_quota_iff {q : ResourceQuota} (h : Rewritten before after c c') :
    after.Holds q ↔ before.Holds q :=
  h.holds_iff fun href ↦ by cases congrArg ObjectRef.kind href

theorem get?_config (h : Rewritten before after c c') {key : ObjectKey} (hne : key ≠ c.metadata.key) :
    after.objects.get? ⟨.config, key⟩ = before.objects.get? ⟨.config, key⟩ :=
  h.others _ fun href ↦ hne (congrArg ObjectRef.key href)

theorem get?_quota (h : Rewritten before after c c') (key : ObjectKey) :
    after.objects.get? ⟨.resourceQuota, key⟩ = before.objects.get? ⟨.resourceQuota, key⟩ :=
  h.others _ fun href ↦ by cases congrArg ObjectRef.kind href

theorem holds_config (h : Rewritten before after c c') (ho : after.Holds o) :
    o = c' ∨ Resource.ref o ≠ Resource.ref c ∧ before.Holds o := by
  by_cases href : Resource.ref o = Resource.ref c
  · exact .inl (ho.eq_of_key_eq h.holds (congrArg ObjectRef.key (href.trans h.ref_eq.symm)))
  · exact .inr ⟨href, (h.holds_iff href).1 ho⟩

end Rewritten

theorem exec_update_of_holds (env : Surroundings) (now : Timestamp) (h : w.store.Coherent)
    (hc : w.store.Holds c) (hmeta : o.metadata = c.metadata) :
    ∃ c' after, (Task.update now o).exec env w = (.ok c', w.withStore after) ∧
      Rewritten w.store after c c' ∧ c'.spec = o.spec ∧ c'.conditions = o.conditions := by
  have hscope : scopeDefect .config o.metadata = none := by
    rw [hmeta]
    exact scopeDefect_of_holds h hc
  have href : Resource.ref o = Resource.ref c := by
    change (⟨.config, o.metadata.key⟩ : ObjectRef) = ⟨.config, c.metadata.key⟩
    rw [hmeta]
  have hget : w.store.objects.get? (Resource.ref o) = some (Resource.encode c) := by
    rw [href]
    exact hc
  refine ⟨_, _, Task.exec_update hscope hget (metaOf_encode _ c)
    (congrArg ObjectMeta.resourceVersion hmeta), ?_, rfl, rfl⟩
  have hhas : w.store.HasMeta (Resource.ref o) c.metadata := by
    rw [href]
    exact hc.hasMeta
  exact {
    coherent := h.update hscope _
    holds := by simp [Holds]
    key_eq := by
      change o.metadata.key = _
      rw [hmeta]
    uid_eq := rfl
    others := fun ref hne ↦ by simp [href, hne]
    issued_eq := rfl
    named := fun hnamed ↦ named_update hnamed hhas _
    identified := fun uid hid ↦ identified_update hid hhas }

/-- Setting the condition of readiness leaves the config stored, and active if the condition says
so. -/
theorem exec_writeStatus (env : Surroundings) (now : Timestamp) (h : w.store.Coherent)
    (hc : w.store.Holds c) {condition : Condition} (htype : condition.type = readyCondition) :
    ∃ c' after, (c.writeStatus now condition).exec env w = (.ok c', w.withStore after) ∧
      Rewritten w.store after c c' ∧ c'.isActive = decide (condition.status = .true) := by
  unfold writeStatus
  cases hchanges : condition.changes c.conditions with
  | false => exact ⟨c, w.store, rfl, rewritten_self h hc, isActive_of_not_changes hchanges htype⟩
  | true =>
    obtain ⟨c', after, heq, hrewritten, -, hconditions⟩ :=
      exec_update_of_holds env now h hc
        (o := { c with conditions := condition.set c.conditions }) rfl
    refine ⟨c', after, heq, hrewritten, ?_⟩
    rw [← isActive_set c htype, isActive, hconditions]
    rfl

/-! ## The quota -/

theorem key_desiredQuota {ns : String} (hns : c.metadata.ns? = some ns) :
    c.desiredQuota.metadata.key = c.quotaKey := by
  simp [desiredQuota, quotaKey, ObjectMeta.namespaced, ObjectMeta.key, Config.ns, hns]

theorem scopeDefect_desiredQuota {ns : String} (hns : c.metadata.ns? = some ns) (hne : ns ≠ "") :
    scopeDefect .resourceQuota c.desiredQuota.metadata = none := by
  have hname : quotaName c.metadata.name ≠ "" := by
    intro h
    simpa [quotaName] using congrArg String.toList h
  simp [scopeDefect, desiredQuota, ObjectMeta.namespaced, Kind.isNamespaced, Config.ns, hns, hne,
    hname]

theorem exec_ensureQuota_of_none {ns : String} (hns : c.metadata.ns? = some ns) (hne : ns ≠ "")
    (hnone : w.store.objects.get? ⟨.resourceQuota, c.quotaKey⟩ = none) :
    (c.ensureQuota now).exec env w = (.ok .created,
      w.withStore (w.store.recorded .added (asNew env.ambient w.store c.desiredQuota)
        (w.store.issued + 1))) := by
  rw [← key_desiredQuota hns] at hnone
  unfold ensureQuota
  rw [Task.exec_bind_of_ok (Task.exec_find?_of_none hnone)]
  dsimp only
  rw [Task.exec_bind_of_ok (Task.exec_create (scopeDefect_desiredQuota hns hne) hnone)]
  rfl

theorem exec_ensureQuota_of_holds {ns : String} (hns : c.metadata.ns? = some ns)
    {q : ResourceQuota} (hq : w.store.Holds q) (hkey : q.metadata.key = c.quotaKey)
    (hhard : q.hard = configLimit) :
    (c.ensureQuota now).exec env w = (.ok .unchanged, w) := by
  have hkey' : Resource.key q = c.desiredQuota.metadata.key := by
    rw [key_desiredQuota hns]
    exact hkey
  have hfind : (Task.find? (α := ResourceQuota) now c.desiredQuota.metadata.key).exec env w =
      (.ok (some q), w) := by
    rw [← hkey']
    exact Task.exec_find?_of_has (hq.has now)
  unfold ensureQuota
  rw [Task.exec_bind_of_ok hfind]
  simp [hhard, desiredQuota]

theorem exec_releaseQuota_of_none
    (hnone : w.store.objects.get? ⟨.resourceQuota, c.quotaKey⟩ = none) :
    (c.releaseQuota now).exec env w = (.ok (), w) := by
  unfold releaseQuota
  rw [Task.exec_bind_of_ok (Task.exec_find?_of_none hnone)]
  rfl

end Config

end TenantAccess
