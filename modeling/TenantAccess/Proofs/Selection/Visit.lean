import TenantAccess.Proofs.Selection.Calm

/-!
# A reconcile in a namespace in any state

Whatever statuses and quotas are there when its turn comes, a config that nobody precedes becomes the
active one, and any other config gives way to it.  Each turn touches the config and its own quota
alone, and a second turn finds nothing to do.
-/

namespace TenantAccess

open Json Store

/-- The condition that `name` should have where `leader` is the active config. -/
def Config.verdict (now : Timestamp) (leader name : String) : Condition :=
  if name = leader then readyNow now else notReadyNow now leader

/-- What a reconcile of `name` decides where `leader` is the active config. -/
def ConfigDecision.under (leader name : String) : ConfigDecision :=
  if name = leader then active name else denied name leader

theorem Config.changes_verdict (now later : Timestamp) (leader name : String) (l : List Condition) :
    (verdict now leader name).changes l = (verdict later leader name).changes l := by
  unfold verdict
  split <;> rfl

namespace Store

variable {s after : Store} {ns leader name uid : String} {now later : Timestamp}
  {condition : Condition} {c : Config} {q : ResourceQuota} {object : Json}

/-- The config is stored with this identity and bears the condition. -/
def Bears (s : Store) (ns name : String) (now : Timestamp) (condition : Condition) (uid : String) :
    Prop :=
  ∃ c, s.HasConfigAs ns name now c ∧ c.metadata.uid = uid ∧ condition.changes c.conditions = false

/-- The quota of the leader, which has this identity, is there and has the right limits if it is its
own. -/
def Limited (s : Store) (ns name uid : String) : Prop :=
  ∃ object q, s.objects.get? (quotaRef ns name) = some object ∧
    ResourceQuota.decode strict object = some q ∧
    (q.hard = configLimit ∨ q.metadata.isOwnedBy uid = false)

def Released (s : Store) (ns name uid : String) : Prop :=
  ∀ m, s.HasMeta (quotaRef ns name) m → m.isOwnedBy uid = false

def Arranged (s : Store) (ns leader name uid : String) : Prop :=
  if name = leader then s.Limited ns name uid else s.Released ns name uid

/-- The config and its quota are as they should be where `leader` is the active config. -/
def Settled (s : Store) (ns leader name : String) : Prop :=
  ∃ now uid, s.Bears ns name now (Config.verdict now leader name) uid ∧
    s.Arranged ns leader name uid

/-- `leader` is the first of the active configs, if any is active. -/
def Favours (s : Store) (ns leader : String) : Prop :=
  ∀ other, s.Active ns other → s.Active ns leader ∧ ¬other < leader

theorem Bears.at (h : s.Bears ns name now (Config.verdict now leader name) uid)
    (later : Timestamp) : s.Bears ns name later (Config.verdict later leader name) uid := by
  obtain ⟨c, hc, huid, hsame⟩ := h
  obtain ⟨c', hc', hmeta, hcontent⟩ := hc.content_at later
  refine ⟨c', hc', (congrArg ObjectMeta.uid hmeta).trans huid, ?_⟩
  rw [Config.changes_verdict later now]
  exact Condition.changes_congr hcontent.symm hsame

theorem Bears.congr (h : s.Bears ns name now condition uid)
    (hconfig : after.objects.get? ⟨.config, ⟨some ns, name⟩⟩ =
      s.objects.get? ⟨.config, ⟨some ns, name⟩⟩) : after.Bears ns name now condition uid := by
  obtain ⟨c, hc, huid, hsame⟩ := h
  exact ⟨c, hc.congr hconfig, huid, hsame⟩

theorem Arranged.congr (h : s.Arranged ns leader name uid)
    (hquota : after.objects.get? (quotaRef ns name) = s.objects.get? (quotaRef ns name)) :
    after.Arranged ns leader name uid := by
  unfold Arranged Limited Released HasMeta at h ⊢
  rwa [hquota]

theorem Settled.hasConfig (h : s.Settled ns leader name) : s.HasConfig ns name := by
  obtain ⟨now, uid, ⟨c, hc, -⟩, -⟩ := h
  exact hc.hasConfig

theorem Settled.active_iff (h : s.Settled ns leader name) : s.Active ns name ↔ name = leader := by
  obtain ⟨now, uid, ⟨c, hc, -, hsame⟩, -⟩ := h
  rw [hc.active_iff]
  unfold Config.verdict at hsame
  split at hsame
  · next hname =>
    rw [Config.isActive_of_not_changes hsame rfl]
    exact ⟨fun _ ↦ hname, fun _ ↦ rfl⟩
  · next hname =>
    rw [Config.isActive_of_not_changes hsame rfl]
    exact ⟨nofun, fun heq ↦ absurd heq hname⟩

theorem favours_of_forall_not (h : ∀ other, ¬s.Active ns other) (leader : String) :
    s.Favours ns leader := fun other hother ↦ absurd hother (h other)

end Store

/-- A call that touches nothing but `ref` leads from `before` to `after`, where it has come to its
`goal`; it does nothing where it is there already. -/
structure Attains (ns : String) (doomed : String → Prop) (leader : String) (ref : ObjectRef)
    (goal : Store → Prop) (before after : Store) : Prop where
  calm : Calm ns doomed leader after
  others : ∀ ref', ref' ≠ ref → after.objects.get? ref' = before.objects.get? ref'
  reached : goal after
  idle : goal before → after = before

section Calls

variable {ns leader name : String} {doomed : String → Prop} {now : Timestamp} {w : World}
  {c : Config} {condition : Condition} {ref : ObjectRef} {goal : Store → Prop} {s after : Store}

theorem Calm.attains_refl (h : Calm ns doomed leader s) (hgoal : goal s) :
    Attains ns doomed leader ref goal s s :=
  ⟨h, fun _ _ ↦ rfl, hgoal, fun _ ↦ rfl⟩

theorem Config.exec_writeStatus_attains (env : Surroundings) (h : Calm ns doomed leader w.store)
    (hc : w.store.HasConfigAs ns name now c) (condition : Condition) :
    ∃ c' after, (c.writeStatus now condition).exec env w = (.ok c', w.withStore after) ∧
      after.HasConfigAs ns name now c' ∧ c'.metadata.uid = c.metadata.uid ∧
      Attains ns doomed leader ⟨.config, ⟨some ns, name⟩⟩
        (·.Bears ns name now condition c.metadata.uid) w.store after := by
  unfold writeStatus
  cases hchanges : condition.changes c.conditions with
  | false => exact ⟨c, w.store, rfl, hc, rfl, h.attains_refl ⟨c, hc, rfl, hchanges⟩⟩
  | true =>
    obtain ⟨after, hexec, hr⟩ := Task.exec_update_of_has env now h.coherent hc.1
      (o := { c with conditions := condition.set c.conditions }) rfl
    have hhas : after.HasConfigAs ns name now _ := ⟨hr.holds.has now, hr.key_eq.trans hc.2⟩
    refine ⟨_, after, hexec, hhas, hr.uid_eq, h.replaced_config hc hr, fun ref hne ↦ ?_,
      ⟨_, hhas, hr.uid_eq, Condition.changes_set condition c.conditions⟩, ?_⟩
    · exact hr.others ref (hc.ref_eq ▸ hne)
    · rintro ⟨o, ho, -, hsame⟩
      rw [hc.unique ho, hchanges] at hsame
      cases hsame

theorem Config.quotaKey_of_has (hc : s.HasConfigAs ns name now c) :
    c.quotaKey = ⟨some ns, quotaName name⟩ := by
  obtain ⟨hns, hname⟩ := ObjectKey.mk.inj hc.2
  rw [quotaKey, hns, hname]

theorem Task.exec_find?_quota (env : Surroundings) (now : Timestamp) (h : w.store.Coherent)
    {object : Json} (hget : w.store.objects.get? (quotaRef ns name) = some object)
    (hreads : ∃ q, ResourceQuota.decode strict object = some q) :
    ∃ q : ResourceQuota, ResourceQuota.decode strict object = some q ∧ w.store.Has now q ∧
      q.metadata.key = ⟨some ns, quotaName name⟩ ∧
      w.store.HasMeta (quotaRef ns name) q.metadata ∧
      (Task.find? (α := ResourceQuota) now ⟨some ns, quotaName name⟩).exec env w =
        (.ok (some q), w) := by
  obtain ⟨q, hdecode⟩ := hreads
  have hdecode' : Resource.decode strict now object = some q := hdecode
  have hkey := h.key_of_decode hget hdecode'
  have hm := h.metaOf_of_has (a := q) (by rw [Resource.ref, hkey]; exact hget) hdecode'
  exact ⟨q, hdecode, h.has_of_decode hget hdecode', hkey, ⟨object, hget, hm⟩,
    Task.exec_find?_of_decode hget hdecode'⟩

/-- What seeing to the quota of the config `c`, which is stored under `name`, makes of a store. -/
inductive QuotaEnsured (env : Ambient) (now : Timestamp) (ns name : String) (c : Config)
    (before : Store) : Store → Prop
  | created (hnone : before.objects.get? (quotaRef ns name) = none)
      (hcoherent : (before.recorded .added (asNew env before c.desiredQuota)
        (before.issued + 1)).Coherent)
      (href : Resource.ref (asNew env before c.desiredQuota) = quotaRef ns name) :
      QuotaEnsured env now ns name c before
        (before.recorded .added (asNew env before c.desiredQuota) (before.issued + 1))
  | kept {object : Json} {q : ResourceQuota}
      (hget : before.objects.get? (quotaRef ns name) = some object)
      (hdecode : ResourceQuota.decode strict object = some q)
      (hlimited : q.hard = configLimit ∨ q.metadata.isOwnedBy c.metadata.uid = false) :
      QuotaEnsured env now ns name c before before
  /-- The quota belongs to the config, and its limits have drifted. -/
  | corrected {object : Json} {q q' : ResourceQuota} {after : Store}
      (hget : before.objects.get? (quotaRef ns name) = some object)
      (hdecode : ResourceQuota.decode strict object = some q) (hq : before.Has now q)
      (hkey : q.metadata.key = ⟨some ns, quotaName name⟩) (hdrifted : q.hard ≠ configLimit)
      (howned : q.metadata.isOwnedBy c.metadata.uid = true) (hr : Replaced before after q q')
      (hhard : q'.hard = configLimit) : QuotaEnsured env now ns name c before after

theorem Config.exec_ensureQuota_ensured (env : Surroundings) (h : w.store.Coherent)
    (hc : w.store.HasConfigAs ns name now c)
    (hreads : ∀ object, w.store.objects.get? (quotaRef ns name) = some object →
      ∃ q, ResourceQuota.decode strict object = some q) :
    ∃ outcome after, (c.ensureQuota now).exec env w = (.ok outcome, w.withStore after) ∧
      QuotaEnsured env.ambient now ns name c w.store after := by
  have hkey : c.quotaKey = ⟨some ns, quotaName name⟩ := quotaKey_of_has hc
  have hns : c.metadata.ns? = some ns := congrArg ObjectKey.ns? hc.2
  cases hget : w.store.objects.get? (quotaRef ns name) with
  | none =>
    have hempty : ns ≠ "" := by
      obtain ⟨ns', hns', hempty⟩ := exists_ns_of_scopeDefect rfl (h.scopeDefect_of_has hc.1)
      rwa [Option.some.inj (hns.symm.trans hns')]
    refine ⟨_, _, exec_ensureQuota_of_none hns hempty (hkey ▸ hget),
      .created hget (h.create (scopeDefect_desiredQuota hns hempty) _) ?_⟩
    rw [ref_asNew, quotaRef, ← hkey]
    exact congrArg (ObjectRef.mk .resourceQuota) (key_desiredQuota hns)
  | some object =>
    obtain ⟨q, hdecode, hq, hqkey, -, hfind⟩ := Task.exec_find?_quota env now h hget (hreads _ hget)
    rw [← hkey, ← key_desiredQuota hns] at hfind
    unfold ensureQuota
    rw [Task.exec_bind_of_ok hfind]
    dsimp only
    by_cases hhard : q.hard = c.desiredQuota.hard
    · rw [if_pos hhard]
      exact ⟨_, w.store, rfl, .kept hget hdecode (.inl hhard)⟩
    rw [if_neg hhard]
    cases howned : q.metadata.isOwnedBy c.metadata.uid with
    | false => exact ⟨_, w.store, rfl, .kept hget hdecode (.inr howned)⟩
    | true =>
      obtain ⟨after, hexec, hr⟩ := Task.exec_update_of_has env now h hq
        (o := { q with hard := c.desiredQuota.hard }) rfl
      refine ⟨.updated, after, ?_, .corrected hget hdecode hq hqkey hhard howned hr rfl⟩
      rw [if_neg (by decide), Task.exec_bind_of_ok hexec]
      rfl

namespace QuotaEnsured

variable {env : Ambient}

theorem others (h : QuotaEnsured env now ns name c s after) {ref : ObjectRef}
    (hne : ref ≠ quotaRef ns name) : after.objects.get? ref = s.objects.get? ref := by
  cases h with
  | created _ _ href => rw [get?_recorded, href, if_neg hne]
  | kept => rfl
  | corrected _ _ _ hkey _ _ hr _ =>
    refine hr.others ref fun heq ↦ hne (heq.trans ?_)
    exact congrArg (ObjectRef.mk .resourceQuota) hkey

theorem limited (h : QuotaEnsured env now ns name c s after) :
    after.Limited ns name c.metadata.uid := by
  cases h with
  | created _ _ href =>
    refine ⟨_, asNew env s c.desiredQuota, ?_, ResourceQuota.inverts.decode_encode _, .inl rfl⟩
    rw [get?_recorded, href, if_pos rfl]
    rfl
  | kept hget hdecode hlimited => exact ⟨_, _, hget, hdecode, hlimited⟩
  | @corrected _ q _ _ _ _ _ hkey _ _ hr hhard =>
    have href : Resource.ref q = quotaRef ns name := congrArg (ObjectRef.mk .resourceQuota) hkey
    exact ⟨_, _, href ▸ hr.get?_eq, ResourceQuota.inverts.decode_encode _, .inl hhard⟩

theorem eq_of_limited (h : QuotaEnsured env now ns name c s after)
    (hlimited : s.Limited ns name c.metadata.uid) : after = s := by
  obtain ⟨object', q', hget', hdecode', hlimited⟩ := hlimited
  cases h with
  | created hnone => cases hnone.symm.trans hget'
  | kept => rfl
  | corrected hget hdecode _ _ hdrifted howned =>
    cases hget.symm.trans hget'
    cases hdecode.symm.trans hdecode'
    rcases hlimited with hhard | hforeign
    · exact absurd hhard hdrifted
    · cases howned.symm.trans hforeign

end QuotaEnsured

theorem Config.exec_ensureQuota_attains (env : Surroundings) (h : Calm ns doomed leader w.store)
    (hc : w.store.HasConfigAs ns leader now c) :
    ∃ outcome after, (c.ensureQuota now).exec env w = (.ok outcome, w.withStore after) ∧
      Attains ns doomed leader (quotaRef ns leader) (·.Limited ns leader c.metadata.uid)
        w.store after := by
  obtain ⟨outcome, after, hexec, hensured⟩ := exec_ensureQuota_ensured env h.coherent hc
    fun object ↦ h.quotas leader object hc.hasConfig
  refine ⟨outcome, after, hexec, ?_, fun ref ↦ hensured.others, hensured.limited,
    hensured.eq_of_limited⟩
  cases hensured with
  | created _ hcoherent href => exact h.created_quota hc href rfl hcoherent
  | kept => exact h
  | corrected _ _ hq hkey _ _ hr _ => exact h.replaced_quota hq hkey hr

theorem Config.exec_releaseQuota_attains (env : Surroundings) (h : Calm ns doomed leader w.store)
    (hc : w.store.HasConfigAs ns name now c) (hne : name ≠ leader) :
    ∃ after, (c.releaseQuota now).exec env w = (.ok (), w.withStore after) ∧
      Attains ns doomed leader (quotaRef ns name) (·.Released ns name c.metadata.uid)
        w.store after := by
  have hkey : (⟨c.metadata.ns?, quotaName c.metadata.name⟩ : ObjectKey) =
      ⟨some ns, quotaName name⟩ := quotaKey_of_has hc
  unfold releaseQuota
  rw [hkey]
  cases hget : w.store.objects.get? (quotaRef ns name) with
  | none =>
    rw [Task.exec_bind_of_ok (Task.exec_find?_of_none hget)]
    refine ⟨w.store, rfl, h.attains_refl ?_⟩
    rintro m ⟨object, hsome, -⟩
    cases hget.symm.trans hsome
  | some object =>
    obtain ⟨q, -, -, -, hm, hfind⟩ := Task.exec_find?_quota env now h.coherent hget
      (h.quotas name object hc.hasConfig hget)
    rw [Task.exec_bind_of_ok hfind]
    dsimp only
    cases howned : q.metadata.isOwnedBy c.metadata.uid with
    | false =>
      refine ⟨w.store, rfl, h.attains_refl fun m hm' ↦ ?_⟩
      rw [hm'.unique hm]
      exact howned
    | true =>
      rcases Task.exec_delete_cases env h.coherent .resourceQuota ⟨some ns, quotaName name⟩ with
        ⟨hnone, -⟩ | ⟨after, hexec, hswept⟩
      · cases hget.symm.trans hnone
      obtain ⟨hcalm, hothers⟩ := h.swept_quota hc.hasConfig hne hswept
      refine ⟨after, ?_, hcalm, hothers, ?_, fun hreleased ↦ ?_⟩
      · rw [if_pos rfl, Task.exec_tryCatch, hexec]
      · rintro m ⟨object', hsome, -⟩
        cases (hswept.gone _ List.mem_cons_self).symm.trans hsome
      · rw [hreleased _ hm] at howned
        cases howned

end Calls

/-- What a visit to `name` comes to where `leader` is to be the active config. -/
structure Visited (ns : String) (doomed : String → Prop) (leader name : String)
    (before after : Store) : Prop where
  calm : Calm ns doomed leader after
  settled : after.Settled ns leader name
  others : ∀ ref, ref ≠ ⟨.config, ⟨some ns, name⟩⟩ → ref ≠ quotaRef ns name →
    after.objects.get? ref = before.objects.get? ref
  idle : before.Settled ns leader name → after = before

namespace Visited

variable {ns leader name other : String} {doomed : String → Prop} {before after : Store}

theorem get?_config (h : Visited ns doomed leader name before after) (hne : other ≠ name) :
    after.objects.get? ⟨.config, ⟨some ns, other⟩⟩ =
      before.objects.get? ⟨.config, ⟨some ns, other⟩⟩ := by
  refine h.others _ (fun heq ↦ hne ?_) config_ne_quotaRef
  exact congrArg (fun ref : ObjectRef ↦ ref.key.name) heq

theorem get?_quota (h : Visited ns doomed leader name before after) (hne : other ≠ name) :
    after.objects.get? (quotaRef ns other) = before.objects.get? (quotaRef ns other) :=
  h.others _ config_ne_quotaRef.symm fun heq ↦ hne (quotaRef_injective heq)

theorem hasConfig_iff (h : Visited ns doomed leader name before after)
    (hname : before.HasConfig ns name) (other : String) :
    after.HasConfig ns other ↔ before.HasConfig ns other := by
  by_cases hne : other = name
  · subst hne
    exact iff_of_true h.settled.hasConfig hname
  · exact hasConfig_congr (h.get?_config hne)

theorem settled_of (h : Visited ns doomed leader name before after)
    (hother : before.Settled ns leader other) : after.Settled ns leader other := by
  by_cases hne : other = name
  · subst hne
    exact h.settled
  · obtain ⟨now, uid, hbears, harranged⟩ := hother
    exact ⟨now, uid, hbears.congr (h.get?_config hne), harranged.congr (h.get?_quota hne)⟩

theorem active_iff (h : Visited ns doomed leader name before after) :
    after.Active ns other ↔ if other = name then name = leader else before.Active ns other := by
  split
  · next heq =>
    rw [heq]
    exact h.settled.active_iff
  · next hne => exact active_congr (h.get?_config hne)

theorem favours (h : Visited ns doomed leader name before after) (hfavours : before.Favours ns leader)
    (hled : name = leader ∨ before.Active ns leader) :
    after.Active ns leader ∧ after.Favours ns leader := by
  have hactive : after.Active ns leader := by
    rw [h.active_iff]
    split
    · next heq => exact heq.symm
    · next hne => exact hled.resolve_left (Ne.symm hne)
  refine ⟨hactive, fun other hother ↦ ⟨hactive, ?_⟩⟩
  rw [h.active_iff] at hother
  split at hother
  · next heq =>
    rw [heq, hother]
    exact String.lt_irrefl _
  · exact (hfavours other hother).2

end Visited

section Reconcile

variable {ns leader name : String} {doomed : String → Prop} {now : Timestamp} {w : World}
  {c : Config} {configs : List Config} {s : Store}

theorem Config.blocking?_of_favours (hc : s.HasConfigAs ns name now c)
    (hconfigs : ∀ o, o ∈ configs ↔ s.HasConfigAs ns o.metadata.name now o)
    (hfavours : s.Favours ns leader) (hled : name = leader ∨ s.Active ns leader) :
    c.blocking? configs = if name = leader then none else some leader := by
  have hactive {o : Config} (ho : o ∈ configs) (hoactive : o.isActive) :
      s.Active ns o.metadata.name := ⟨now, o, (hconfigs o).1 ho, hoactive⟩
  have hmem {name : String} {o : Config} (ho : s.HasConfigAs ns name now o) :
      o.metadata.name = name ∧ o ∈ configs := by
    have hname : o.metadata.name = name := congrArg ObjectKey.name ho.2
    exact ⟨hname, (hconfigs o).2 (hname ▸ ho)⟩
  obtain ⟨hname, hcmem⟩ := hmem hc
  split
  · -- whoever is active has the leader beside it, which is active then and comes first
    next heq =>
    subst heq
    refine blocking?_eq_none fun o ho hoactive ↦ ?_
    obtain ⟨hself, hnot⟩ := hfavours _ (hactive ho hoactive)
    rw [hname]
    exact ⟨hc.active_iff.1 hself, hnot⟩
  · next hne =>
    obtain ⟨later, l', hl', hl'active⟩ := hled.resolve_left hne
    obtain ⟨l, hl, hsame⟩ := hl'.at now
    obtain ⟨hlname, hlmem⟩ := hmem hl
    rw [← hlname]
    refine blocking?_of_least hlmem (hsame.trans hl'active) (fun o ho hoactive ↦ ?_) hcmem ?_
    · rw [hlname]
      exact (hfavours _ (hactive ho hoactive)).2
    · rw [hname, hlname]
      exact hne

/-- Setting the condition and seeing to the quota make a visit. -/
theorem visited_of_attains {middle after : Store} (hc : s.HasConfigAs ns name now c)
    (hwrite : Attains ns doomed leader ⟨.config, ⟨some ns, name⟩⟩
      (·.Bears ns name now (Config.verdict now leader name) c.metadata.uid) s middle)
    (hquota : Attains ns doomed leader (quotaRef ns name)
      (·.Arranged ns leader name c.metadata.uid) middle after) :
    Visited ns doomed leader name s after where
  calm := hquota.calm
  settled := ⟨now, _, hwrite.reached.congr (hquota.others _ config_ne_quotaRef), hquota.reached⟩
  others ref hconfig href := (hquota.others ref href).trans (hwrite.others ref hconfig)
  idle hsettled := by
    -- the config was found settled at some other time, and reads the same now but for its times
    obtain ⟨earlier, uid, hbears, harranged⟩ := hsettled
    obtain ⟨o, ho, huid, hsame⟩ := hbears.at now
    rw [hc.unique ho] at huid hsame
    subst huid
    have hmiddle : middle = s := hwrite.idle ⟨c, hc, rfl, hsame⟩
    rw [← hmiddle] at harranged ⊢
    exact hquota.idle harranged

theorem Config.exec_transition_visited (env : Surroundings) (h : Calm ns doomed leader w.store)
    (hc : w.store.HasConfigAs ns name now c)
    (hblocking : c.blocking? configs = if name = leader then none else some leader) :
    ∃ after, (c.transition now configs).exec env w =
        (.ok (.under leader name), w.withStore after) ∧
      Visited ns doomed leader name w.store after := by
  have hcname : c.metadata.name = name := congrArg ObjectKey.name hc.2
  obtain ⟨c', middle, hexec, hc', huid, hwrite⟩ :=
    exec_writeStatus_attains env h hc (verdict now leader name)
  unfold transition
  rw [hblocking]
  by_cases hname : name = leader
  · subst hname
    obtain ⟨outcome, after, hexec', hquota⟩ :=
      exec_ensureQuota_attains (w := w.withStore middle) env hwrite.calm hc'
    rw [verdict, if_pos rfl] at hexec
    rw [if_pos rfl]
    dsimp only
    rw [Task.exec_bind_of_ok hexec, Task.exec_bind_of_ok hexec', ConfigDecision.under, if_pos rfl,
      hcname]
    refine ⟨after, rfl, visited_of_attains hc hwrite ?_⟩
    simp only [Store.Arranged, if_pos]
    rw [← huid]
    exact hquota
  · obtain ⟨after, hexec', hquota⟩ :=
      exec_releaseQuota_attains (w := w.withStore middle) env hwrite.calm hc' hname
    rw [verdict, if_neg hname] at hexec
    rw [if_neg hname]
    dsimp only
    rw [Task.exec_bind_of_ok hexec, Task.exec_bind_of_ok hexec', ConfigDecision.under,
      if_neg hname, hcname]
    refine ⟨after, rfl, visited_of_attains hc hwrite ?_⟩
    simp only [Store.Arranged, if_neg hname]
    rw [← huid]
    exact hquota

theorem Store.mem_objectsOf_config_iff (h : s.Coherent) {o : Config} :
    o ∈ s.objectsOf Config now (ListParams.inNamespace ns) ↔
      s.HasConfigAs ns o.metadata.name now o := by
  rw [mem_objectsOf_iff h, ListParams.accepts_inNamespace_iff, HasConfigAs, ObjectMeta.key,
    ObjectKey.mk.injEq]
  exact and_congr_right fun _ ↦ (and_iff_left rfl).symm

theorem Store.Coherent.exec_listIn (env : Surroundings) (h : w.store.Coherent)
    (hreads : ∀ name, w.store.HasConfig ns name → ∃ c, w.store.HasConfigAs ns name now c) :
    ∃ configs, (Config.listIn now ns).exec env w = (.ok configs, w) ∧
      ∀ o, o ∈ configs ↔ w.store.HasConfigAs ns o.metadata.name now o := by
  have hlegible : w.store.Legible Config now (ListParams.inNamespace ns) := by
    rintro ⟨ns?, name⟩ object m hget hm haccepts
    have hkey : m.key = ⟨ns?, name⟩ := h.key_eq hget hm
    have hns : ns? = some ns := (congrArg ObjectKey.ns? hkey).symm.trans
      (ListParams.accepts_inNamespace_iff.1 haccepts)
    subst hns
    obtain ⟨c, hc⟩ := hreads name ⟨object, hget⟩
    obtain ⟨object', hget', hdecode⟩ := hc.get?
    cases hget.symm.trans hget'
    exact ⟨c, hdecode⟩
  exact ⟨_, Task.exec_list h hlegible, fun o ↦ mem_objectsOf_config_iff h⟩

/-- A reconcile leaves the config and its quota as they should be, and nothing else changed. -/
theorem Calm.exec_reconcile (env : Surroundings) (now : Timestamp)
    (h : Calm ns doomed leader w.store) (hname : w.store.HasConfig ns name)
    (hfavours : w.store.Favours ns leader) (hled : name = leader ∨ w.store.Active ns leader) :
    ∃ after, (Config.reconcile now (.namespaced ns name)).exec env w =
        (.ok (.under leader name), w.withStore after) ∧
      Visited ns doomed leader name w.store after := by
  obtain ⟨c, hc⟩ := h.configs name hname now
  obtain ⟨configs, hlist, hconfigs⟩ := h.coherent.exec_listIn env fun other hother ↦
    h.configs other hother now
  have hfind : (Task.find? (α := Config) now ⟨some ns, name⟩).exec env w = (.ok (some c), w) := by
    rw [← show Resource.key c = _ from hc.2]
    exact Task.exec_find?_of_has hc.1
  unfold Config.reconcile
  dsimp only [ObjectKey.namespaced]
  rw [Task.exec_bind_of_ok hfind]
  dsimp only
  rw [Task.exec_bind_of_ok hlist]
  exact Config.exec_transition_visited env h hc
    (Config.blocking?_of_favours hc hconfigs hfavours hled)

end Reconcile

end TenantAccess
