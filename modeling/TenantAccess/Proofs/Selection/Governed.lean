import TenantAccess.Proofs.Selection.Transition

/-!
# Stores under the rule of one active config

The store holds configs and quotas only, at most one config of a namespace is active, and the quotas
are those of the active configs.  Adding an inactive config, writing one over, making one active
together with its quota and deleting one all keep it so.
-/

namespace TenantAccess

open Store

/-- Configs and their quotas under the rule of one active config per namespace. -/
structure Governed (uid : Nat → String) (s : Store) : Prop where
  coherent : s.Coherent
  named : s.Named
  identified : s.Identified uid
  typed : ∀ ref object, s.objects.get? ref = some object →
    (∃ c : Config, ref = Resource.ref c ∧ object = Resource.encode c) ∨
    ∃ q : ResourceQuota, ref = Resource.ref q ∧ object = Resource.encode q
  unique : ∀ a b : Config, s.Holds a → s.Holds b → a.metadata.ns? = b.metadata.ns? →
    a.isActive → b.isActive → a = b
  quota_of_active : ∀ c : Config, s.Holds c → c.isActive →
    ∃ q : ResourceQuota, s.Holds q ∧ q.metadata.key = c.quotaKey
  active_of_quota : ∀ q : ResourceQuota, s.Holds q →
    ∃ c : Config, s.Holds c ∧ c.isActive ∧ q.metadata.key = c.quotaKey ∧ q.hard = configLimit ∧
      ∃ r, q.metadata.ownerReferences = [r] ∧ r.uid = c.metadata.uid

namespace Governed

variable {uid : Nat → String} {s after : Store} {c c' o : Config} {env : Surroundings}
  {w : World} {now : Timestamp}

theorem holds_config (h : Governed uid s) {key : ObjectKey} {object : Json}
    (hget : s.objects.get? ⟨.config, key⟩ = some object) :
    ∃ c : Config, object = Resource.encode c ∧ s.Holds c ∧ c.metadata.key = key := by
  rcases h.typed _ _ hget with ⟨c, href, rfl⟩ | ⟨q, href, -⟩
  · refine ⟨c, rfl, ?_, (congrArg ObjectRef.key href).symm⟩
    rw [Holds, ← href]
    exact hget
  · cases href

theorem holds_quota (h : Governed uid s) {key : ObjectKey} {object : Json}
    (hget : s.objects.get? ⟨.resourceQuota, key⟩ = some object) :
    ∃ q : ResourceQuota, object = Resource.encode q ∧ s.Holds q ∧ q.metadata.key = key := by
  rcases h.typed _ _ hget with ⟨c, href, -⟩ | ⟨q, href, rfl⟩
  · cases href
  · refine ⟨q, rfl, ?_, (congrArg ObjectRef.key href).symm⟩
    rw [Holds, ← href]
    exact hget

theorem encodes (h : Governed uid s) : s.Encodes Config := by
  intro key object hget
  obtain ⟨c, rfl, -⟩ := h.holds_config hget
  exact ⟨c, rfl⟩

theorem get?_quotaKey (h : Governed uid s) (hc : s.Holds c) (hactive : c.isActive = false) :
    s.objects.get? ⟨.resourceQuota, c.quotaKey⟩ = none := by
  cases hget : s.objects.get? ⟨.resourceQuota, c.quotaKey⟩ with
  | none => rfl
  | some object =>
    obtain ⟨q, -, hq, hkey⟩ := h.holds_quota hget
    obtain ⟨d, hd, hdactive, hdkey, -⟩ := h.active_of_quota q hq
    have heq : c = d :=
      hc.eq_of_key_eq hd (Config.key_eq_of_quotaKey_eq (hkey.symm.trans hdkey))
    rw [heq, hdactive] at hactive
    cases hactive

/-! ## Writing a config over -/

theorem typed_rewritten (h : Governed uid s) (hr : Config.Rewritten s after c c')
    (ref : ObjectRef) (object : Json) (hget : after.objects.get? ref = some object) :
    (∃ d : Config, ref = Resource.ref d ∧ object = Resource.encode d) ∨
    ∃ q : ResourceQuota, ref = Resource.ref q ∧ object = Resource.encode q := by
  by_cases href : ref = Resource.ref c
  · rw [href, ← hr.ref_eq, hr.holds] at hget
    cases hget
    exact .inl ⟨c', href.trans hr.ref_eq.symm, rfl⟩
  · rw [hr.others ref href] at hget
    exact h.typed ref object hget

theorem rewrite (h : Governed uid s) (hc : s.Holds c) (hr : Config.Rewritten s after c c')
    (hactive : c'.isActive = c.isActive) : Governed uid after := by
  -- every config stands for one of before, with the same identity and activity
  have hold {d : Config} (hd : after.Holds d) : ∃ d₀ : Config, s.Holds d₀ ∧
      d.metadata.key = d₀.metadata.key ∧ d.metadata.uid = d₀.metadata.uid ∧
      d.isActive = d₀.isActive := by
    rcases hr.holds_config hd with rfl | ⟨-, hd⟩
    · exact ⟨c, hc, hr.key_eq, hr.uid_eq, hactive⟩
    · exact ⟨d, hd, rfl, rfl, rfl⟩
  have hnew {d : Config} (hd : s.Holds d) : ∃ d' : Config, after.Holds d' ∧
      d'.metadata.key = d.metadata.key ∧ d'.metadata.uid = d.metadata.uid ∧
      d'.isActive = d.isActive := by
    by_cases href : Resource.ref d = Resource.ref c
    · rw [hd.eq_of_key_eq hc (congrArg ObjectRef.key href)]
      exact ⟨c', hr.holds, hr.key_eq, hr.uid_eq, hactive⟩
    · exact ⟨d, (hr.holds_iff href).2 hd, rfl, rfl, rfl⟩
  refine ⟨hr.coherent, hr.named h.named, hr.identified uid h.identified,
    h.typed_rewritten hr, ?_, ?_, ?_⟩
  · intro a b ha hb hns haactive hbactive
    obtain ⟨a₀, ha₀, hakey, -, haeq⟩ := hold ha
    obtain ⟨b₀, hb₀, hbkey, -, hbeq⟩ := hold hb
    obtain ⟨hans, -⟩ := ObjectKey.mk.inj hakey
    obtain ⟨hbns, -⟩ := ObjectKey.mk.inj hbkey
    have heq : a₀ = b₀ := h.unique a₀ b₀ ha₀ hb₀ (hans.symm.trans (hns.trans hbns))
      (haeq ▸ haactive) (hbeq ▸ hbactive)
    refine ha.eq_of_key_eq hb ?_
    change a.metadata.key = b.metadata.key
    rw [hakey, hbkey, heq]
  · intro d hd hdactive
    obtain ⟨d₀, hd₀, hkey, -, heq⟩ := hold hd
    obtain ⟨q, hq, hqkey⟩ := h.quota_of_active d₀ hd₀ (heq ▸ hdactive)
    exact ⟨q, hr.holds_quota_iff.2 hq, hqkey.trans (Config.quotaKey_eq_of_key_eq hkey).symm⟩
  · intro q hq
    obtain ⟨d, hd, hdactive, hkey, hhard, r, hr, huid⟩ := h.active_of_quota q (hr.holds_quota_iff.1 hq)
    obtain ⟨d', hd', hkey', huid', heq⟩ := hnew hd
    exact ⟨d', hd', heq.trans hdactive, hkey.trans (Config.quotaKey_eq_of_key_eq hkey').symm,
      hhard, r, hr, huid.trans huid'.symm⟩

theorem unique_rewritten (h : Governed uid s) (hr : Config.Rewritten s after c c')
    (hfree : ∀ o : Config, s.Holds o → o.metadata.ns? = c.metadata.ns? → o.isActive = false)
    (a b : Config) (ha : after.Holds a) (hb : after.Holds b)
    (hab : a.metadata.ns? = b.metadata.ns?) (haactive : a.isActive) (hbactive : b.isActive) :
    a = b := by
  have hns' : c'.metadata.ns? = c.metadata.ns? := congrArg ObjectKey.ns? hr.key_eq
  have honly {d : Config} (hd : after.Holds d) (hdns : d.metadata.ns? = c.metadata.ns?)
      (hdactive : d.isActive) : d = c' := by
    rcases hr.holds_config hd with heq | ⟨-, hd⟩
    · exact heq
    · rw [hfree d hd hdns] at hdactive
      cases hdactive
  by_cases hans : a.metadata.ns? = c.metadata.ns?
  · rw [honly ha hans haactive, honly hb (hab ▸ hans) hbactive]
  · rcases hr.holds_config ha with rfl | ⟨-, ha⟩
    · exact absurd hns' hans
    · rcases hr.holds_config hb with rfl | ⟨-, hb⟩
      · exact absurd (hab.trans hns') hans
      · exact h.unique a b ha hb hab haactive hbactive

section Quota

variable {q p : ResourceQuota} {type : EventType} {issued : Nat} {d : Config}

theorem holds_config_recorded_iff : (s.recorded type q issued).Holds d ↔ s.Holds d := by
  have hne : Resource.ref d ≠ Resource.ref q := fun href ↦ by cases congrArg ObjectRef.kind href
  rw [Holds, Holds, get?_recorded, if_neg hne]

theorem holds_quota_recorded (h : (s.recorded type q issued).Holds p) : p = q ∨ s.Holds p := by
  by_cases href : Resource.ref p = Resource.ref q
  · rw [Holds, get?_recorded, if_pos href] at h
    exact .inl (Resource.encode_injective (Option.some.inj h)).symm
  · rw [Holds, get?_recorded, if_neg href] at h
    exact .inr h

theorem key_ne_quotaKey (h : Governed uid s) (hc : s.Holds c) (hinactive : c.isActive = false)
    (hp : s.Holds p) : p.metadata.key ≠ c.quotaKey := by
  intro hkey
  have hsome : s.objects.get? ⟨.resourceQuota, p.metadata.key⟩ = some (Resource.encode p) := hp
  rw [hkey, h.get?_quotaKey hc hinactive] at hsome
  cases hsome

end Quota

/-- A config may become active with its quota if nobody else in the namespace is active. -/
theorem activate (h : Governed uid s) (hinjective : ∀ n n', uid n = uid n' → n = n')
    (hne : ∀ n, uid n ≠ "") (hc : s.Holds c) (hinactive : c.isActive = false)
    (hfree : ∀ o : Config, s.Holds o → o.metadata.ns? = c.metadata.ns? → o.isActive = false)
    (hr : Config.Rewritten s after c c') (hactive : c'.isActive) {ambient : Ambient}
    (hambient : ambient.uid = uid) :
    Governed uid (after.recorded .added (asNew ambient after c'.desiredQuota)
      (after.issued + 1)) := by
  obtain ⟨ns, hns, hnsne⟩ := Config.exists_ns_of_holds hr.coherent hr.holds
  have hscope := Config.scopeDefect_desiredQuota hns hnsne
  have hnamed := named_create (hr.named h.named) (hambient ▸ hne) c'.desiredQuota
    (after.issued + 1)
  have hidentified := identified_create (a := c'.desiredQuota) (hr.identified uid h.identified)
    hambient hinjective (.inl rfl)
  have hcoherent : (after.recorded .added (asNew ambient after c'.desiredQuota)
      (after.issued + 1)).Coherent := hr.coherent.create hscope _
  obtain ⟨q, hq⟩ : ∃ q, q = asNew ambient after c'.desiredQuota := ⟨_, rfl⟩
  rw [← hq] at hnamed hidentified hcoherent ⊢
  have hqkey : q.metadata.key = c'.quotaKey := by
    rw [← Config.key_desiredQuota hns, hq]
    rfl
  have hqowner : q.hard = configLimit ∧
      ∃ r, q.metadata.ownerReferences = [r] ∧ r.uid = c'.metadata.uid := by
    rw [hq]
    exact ⟨rfl, _, rfl, rfl⟩
  refine {
    coherent := hcoherent
    named := hnamed
    identified := hidentified
    typed := ?typed
    unique := fun a b ha hb ↦ h.unique_rewritten hr hfree a b (holds_config_recorded_iff.1 ha)
      (holds_config_recorded_iff.1 hb)
    quota_of_active := ?quota
    active_of_quota := ?active }
  case typed =>
    intro ref object hget
    rw [get?_recorded] at hget
    split at hget
    · next href =>
      cases hget
      exact .inr ⟨q, href, rfl⟩
    · exact h.typed_rewritten hr ref object hget
  case quota =>
    intro d hd hdactive
    by_cases hdc : d = c'
    · refine ⟨q, by simp [Holds], ?_⟩
      rw [hdc, hqkey]
    · obtain ⟨-, hd⟩ := (hr.holds_config (holds_config_recorded_iff.1 hd)).resolve_left hdc
      obtain ⟨p, hp, hpkey⟩ := h.quota_of_active d hd hdactive
      refine ⟨p, ?_, hpkey⟩
      have hpq : Resource.ref p ≠ Resource.ref q := fun href ↦ by
        refine h.key_ne_quotaKey hc hinactive hp ?_
        rw [← Config.quotaKey_eq_of_key_eq hr.key_eq, ← hqkey]
        exact congrArg ObjectRef.key href
      rw [Holds, get?_recorded, if_neg hpq]
      exact hr.holds_quota_iff.2 hp
  case active =>
    intro p hp
    rcases holds_quota_recorded hp with rfl | hp
    · exact ⟨c', holds_config_recorded_iff.2 hr.holds, hactive, hqkey, hqowner⟩
    · obtain ⟨d, hd, hdactive, hrest⟩ := h.active_of_quota p (hr.holds_quota_iff.1 hp)
      have hdc : Resource.ref d ≠ Resource.ref c := fun href ↦ by
        rw [hd.eq_of_key_eq hc (congrArg ObjectRef.key href), hinactive] at hdactive
        cases hdactive
      exact ⟨d, holds_config_recorded_iff.2 ((hr.holds_iff hdc).2 hd), hdactive, hrest⟩

/-- Nobody is active in the place of a config that was not there before. -/
theorem create (h : Governed uid s) (hinjective : ∀ n n', uid n = uid n' → n = n')
    (hne : ∀ n, uid n ≠ "") (hscope : scopeDefect .config c.metadata = none)
    (hnone : s.objects.get? (Resource.ref c) = none) (hinactive : c.isActive = false)
    (hfresh : s.Fresh uid c.metadata.uid) {ambient : Ambient} (hambient : ambient.uid = uid) :
    Governed uid (s.recorded .added (asNew ambient s c) (s.issuedWith c.metadata)) := by
  have hnamed := named_create h.named (hambient ▸ hne) c (s.issuedWith c.metadata)
  have hidentified := identified_create (a := c) h.identified hambient hinjective hfresh
  have hcoherent : (s.recorded .added (asNew ambient s c) (s.issuedWith c.metadata)).Coherent :=
    h.coherent.create hscope _
  have href : Resource.ref (asNew ambient s c) = Resource.ref c := ref_asNew ambient s c
  have hnew : (asNew ambient s c).isActive = false := hinactive
  obtain ⟨c', hc'⟩ : ∃ c', c' = asNew ambient s c := ⟨_, rfl⟩
  rw [← hc'] at hnamed hidentified hcoherent href hnew ⊢
  -- the new config is not active, so whoever is was there before
  have hactive {d : Config} (hd : (s.recorded .added c' (s.issuedWith c.metadata)).Holds d)
      (hdactive : d.isActive) : s.Holds d := by
    rw [Holds, get?_recorded] at hd
    split at hd
    · rw [← Resource.encode_injective (Option.some.inj hd), hnew] at hdactive
      cases hdactive
    · exact hd
  have hkept {α : Type} [Resource α] {a : α} (ha : s.Holds a) :
      (s.recorded .added c' (s.issuedWith c.metadata)).Holds a := by
    rw [Holds, get?_recorded, if_neg]
    · exact ha
    · intro heq
      rw [Holds, heq, href, hnone] at ha
      cases ha
  refine {
    coherent := hcoherent
    named := hnamed
    identified := hidentified
    typed := ?typed
    unique := fun a b ha hb hab haactive hbactive ↦
      h.unique a b (hactive ha haactive) (hactive hb hbactive) hab haactive hbactive
    quota_of_active := ?quota
    active_of_quota := ?active }
  case typed =>
    intro ref object hget
    rw [get?_recorded] at hget
    split at hget
    · next heq =>
      cases hget
      exact .inl ⟨c', heq, rfl⟩
    · exact h.typed ref object hget
  case quota =>
    intro d hd hdactive
    obtain ⟨q, hq, hkey⟩ := h.quota_of_active d (hactive hd hdactive) hdactive
    exact ⟨q, hkept hq, hkey⟩
  case active =>
    intro q hq
    have hq : s.Holds q := by
      rw [Holds, get?_recorded, if_neg] at hq
      · exact hq
      · rw [href]
        intro heq
        cases congrArg ObjectRef.kind heq
    obtain ⟨d, hd, hrest⟩ := h.active_of_quota q hq
    exact ⟨d, hkept hd, hrest⟩

/-- A quota that goes with a deleted config has lost its own config. -/
theorem exists_of_swept (h : Governed uid s) {key : ObjectKey}
    (hswept : Swept s [⟨.config, key⟩] after) {q : ResourceQuota} (hq : s.Holds q)
    (hgone : after.objects.get? (Resource.ref q) = none) :
    ∃ d : Config, s.Holds d ∧ after.objects.get? (Resource.ref d) = none ∧
      q.metadata.key = d.quotaKey := by
  -- only configs go, and quotas whose config goes
  have hcause := hswept.caused
    (fun ref ↦ ref.kind = .config ∨ ∃ d : Config, s.Holds d ∧
      after.objects.get? (Resource.ref d) = none ∧ ref = ⟨.resourceQuota, d.quotaKey⟩)
    (fun ref hmem ↦ .inl (by rw [List.mem_singleton.1 hmem])) ?_
  · rcases hcause _ _ hq hgone with hkind | ⟨d, hd, hdgone, href⟩
    · cases hkind
    · exact ⟨d, hd, hdgone, congrArg ObjectRef.key href⟩
  · rintro ref m ref' m' - hgone hm ⟨object, hget, hmeta⟩ howned
    rcases h.typed ref' object hget with ⟨d, rfl, -⟩ | ⟨p, rfl, rfl⟩
    · exact .inl rfl
    · obtain ⟨d, hd, -, hpkey, -, r, hr, huid⟩ := h.active_of_quota p hget
      rw [metaOf_encode] at hmeta
      cases hmeta
      have hruid : r.uid = m.uid := by
        have hany : p.metadata.ownerReferences.any fun r ↦ r.uid = m.uid :=
          (Bool.and_eq_true_iff.1 howned).2
        simpa [hr] using hany
      have href : ref = Resource.ref d :=
        h.identified.distinct _ _ m d.metadata hm hd.hasMeta (hruid.symm.trans huid)
      exact .inr ⟨d, hd, href ▸ hgone, congrArg (ObjectRef.mk .resourceQuota) hpkey⟩

/-- A deletion takes along the quota of every config that goes, and no other quota. -/
theorem sweep (h : Governed uid s) {key : ObjectKey} (hswept : Swept s [⟨.config, key⟩] after) :
    Governed uid after := by
  have hkept {α : Type} [Resource α] {a : α} (ha : after.Holds a) : s.Holds a :=
    hswept.kept _ _ ha
  refine {
    coherent := hswept.coherent h.coherent
    named := hswept.named h.named
    identified := hswept.identified h.identified
    typed := fun ref object hget ↦ h.typed ref object (hswept.kept ref object hget)
    unique := fun a b ha hb ↦ h.unique a b (hkept ha) (hkept hb)
    quota_of_active := ?quota
    active_of_quota := ?active }
  case quota =>
    intro c hc hactive
    obtain ⟨q, hq, hkey⟩ := h.quota_of_active c (hkept hc) hactive
    refine ⟨q, ?_, hkey⟩
    rcases hswept.get?_eq (Resource.ref q) with heq | hnone
    · exact heq.trans hq
    · obtain ⟨d, hd, hgone, hqkey⟩ := h.exists_of_swept hswept hq hnone
      have hdc : d = c := hd.eq_of_key_eq (hkept hc)
        (Config.key_eq_of_quotaKey_eq (hqkey.symm.trans hkey))
      rw [hdc, hc] at hgone
      cases hgone
  case active =>
    intro q hq
    obtain ⟨c, hc, hactive, hkey, hhard, r, hr, huid⟩ := h.active_of_quota q (hkept hq)
    refine ⟨c, ?_, hactive, hkey, hhard, r, hr, huid⟩
    rcases hswept.get?_eq (Resource.ref c) with heq | hnone
    · exact heq.trans hc
    · -- the quota would have gone with its owner
      have hnot := hswept.closed _ _ hc.hasMeta hnone _ _ hq.hasMeta
      have howned : (Resource.metadata q).isOwnedBy (Resource.metadata c).uid = true := by
        have hne : (Resource.metadata c).uid ≠ "" := h.named _ _ hc.hasMeta
        change (decide ((Resource.metadata c).uid ≠ "") &&
          q.metadata.ownerReferences.any fun r ↦ r.uid = c.metadata.uid) = true
        simp [hne, hr, huid]
      rw [howned] at hnot
      cases hnot

end Governed

theorem governed_empty (uid : Nat → String) : Governed uid .empty where
  coherent := coherent_empty
  named ref m h := by
    obtain ⟨_, hget, -⟩ := h
    cases hget
  identified := by
    constructor
    · rintro ref ref' m m' ⟨_, hget, -⟩
      cases hget
    · rintro ref m n ⟨_, hget, -⟩
      cases hget
  typed ref object h := by cases h
  unique a b ha := by cases ha
  quota_of_active c hc := by cases hc
  active_of_quota q hq := by cases hq

end TenantAccess
