import TenantAccess.Proofs.Selection.Exclusive
import TenantAccess.Proofs.Selection.Reelection

/-!
# What a reconcile leaves behind where one config rules

A reconcile under the rule of one active config visits its own config, or, if that is gone and nobody
is active, the first of those that are left.  Whoever is visited is active afterwards or bears a denial
that names the active one.
-/

namespace TenantAccess

open Store

namespace Store

variable {s after : Store} {ns leader name seen other : String} {c : Config}

/-- The config bears a denial that names `seen` as the active one. -/
def Denied (s : Store) (ns name seen : String) : Prop :=
  ∃ now c condition, s.HasConfigAs ns name now c ∧
    Condition.find? readyCondition c.conditions = some condition ∧
    condition.status = .false ∧ condition.reason = "ConfigNotReady" ∧
    condition.message = "Another active DBaaSConfig exists in this namespace - " ++ seen

theorem denied_congr (heq : after.objects.get? ⟨.config, ⟨some ns, name⟩⟩ =
    s.objects.get? ⟨.config, ⟨some ns, name⟩⟩) : after.Denied ns name seen ↔ s.Denied ns name seen :=
  ⟨fun ⟨now, c, condition, hc, h⟩ ↦ ⟨now, c, condition, hc.congr heq.symm, h⟩,
    fun ⟨now, c, condition, hc, h⟩ ↦ ⟨now, c, condition, hc.congr heq, h⟩⟩

theorem Denied.unique (h : s.Denied ns name seen) (h' : s.Denied ns name other) : seen = other := by
  obtain ⟨now, c, condition, hc, hfind, -, -, hmessage⟩ := h
  obtain ⟨later, c', condition', hc', hfind', -, -, hmessage'⟩ := h'
  obtain ⟨o, ho, -, hcontent⟩ := hc.content_at later
  rw [hc'.unique ho] at hcontent
  have hsame := Condition.find?_congr hcontent readyCondition
  rw [hfind, hfind'] at hsame
  have heq : condition'.message = condition.message :=
    congrArg (fun content : String × ConditionStatus × String × String ↦ content.2.2.2)
      (Option.some.inj hsame)
  rw [hmessage, hmessage'] at heq
  simpa [← String.toList_inj] using heq.symm

theorem Settled.denied (h : s.Settled ns leader name) (hne : name ≠ leader) :
    s.Denied ns name leader := by
  obtain ⟨now, uid, ⟨c, hc, -, hsame⟩, -⟩ := h
  rw [Config.verdict, if_neg hne] at hsame
  obtain ⟨condition, hfind, hcontent⟩ :=
    Option.map_eq_some_iff.1 (Condition.changes_eq_false_iff.1 hsame)
  simp only [Condition.content, Prod.mk.injEq] at hcontent
  exact ⟨now, c, condition, hc, hfind, hcontent.2⟩

end Store

/-- What a reconcile of `name` comes to. -/
inductive Reviewed (ns name : String) (before after : Store) : Prop
  | visit {leader : String} (hhas : before.HasConfig ns name)
    (h : Visited ns (fun _ ↦ False) leader name before after) (hactive : after.Active ns leader)
  /-- The config is gone, and another one becomes active. -/
  | elect {leader : String} (hgone : ¬before.HasConfig ns name)
    (hhas : before.HasConfig ns leader) (h : Visited ns (fun _ ↦ False) leader leader before after)
  | idle (hgone : ¬before.HasConfig ns name)
    (hled : (∃ other, before.HasConfig ns other) → ∃ leader, before.Active ns leader)
    (heq : after = before)

namespace Reviewed

variable {ns name : String} {before after : Store}

theorem others (h : Reviewed ns name before after) {ns' other : String}
    (hne : ¬(ns' = ns ∧ other = name)) :
    after.objects.get? ⟨.config, ⟨some ns', other⟩⟩ =
      before.objects.get? ⟨.config, ⟨some ns', other⟩⟩ ∨ after.Active ns' other := by
  cases h with
  | visit _ h =>
    refine .inl (h.others _ (fun heq ↦ hne ?_) config_ne_quotaRef)
    cases heq
    exact ⟨rfl, rfl⟩
  | @elect leader _ _ h =>
    by_cases heq : ns' = ns ∧ other = leader
    · obtain ⟨rfl, rfl⟩ := heq
      exact .inr (h.settled.active_iff.2 rfl)
    · refine .inl (h.others _ (fun href ↦ heq ?_) config_ne_quotaRef)
      cases href
      exact ⟨rfl, rfl⟩
  | idle _ _ heq => exact .inl (by rw [heq])

/-- A config that was reconciled is active, or is told who is. -/
theorem told (h : Reviewed ns name before after) (hhas : before.HasConfig ns name) :
    ∃ leader, after.Active ns leader ∧ (name = leader ∨ after.Denied ns name leader) := by
  cases h with
  | @visit leader _ h hactive =>
    by_cases heq : name = leader
    · exact ⟨leader, hactive, .inl heq⟩
    · exact ⟨leader, hactive, .inr (h.settled.denied heq)⟩
  | elect hgone => exact absurd hhas hgone
  | idle hgone => exact absurd hhas hgone

theorem led (h : Reviewed ns name before after) (hhas : ∃ other, before.HasConfig ns other) :
    ∃ leader, after.Active ns leader := by
  cases h with
  | visit _ _ hactive => exact ⟨_, hactive⟩
  | elect _ _ h => exact ⟨_, h.settled.active_iff.2 rfl⟩
  | idle _ hled heq => exact heq ▸ hled hhas

theorem hasConfig_iff (h : Reviewed ns name before after) (other : String) :
    after.HasConfig ns other ↔ before.HasConfig ns other := by
  cases h with
  | visit hhas h => exact h.hasConfig_iff hhas other
  | elect _ hhas h => exact h.hasConfig_iff hhas other
  | idle _ _ heq => rw [heq]

end Reviewed

namespace Governed

variable {uid : Nat → String} {s : Store} {ns leader name other : String} {w : World}
  {now : Timestamp}

theorem active_iff (h : Governed uid s) : s.Active ns name ↔
    ∃ c : Config, s.Holds c ∧ c.metadata.key = ⟨some ns, name⟩ ∧ c.isActive := by
  constructor
  · rintro ⟨now, c, hc, hactive⟩
    exact ⟨c, h.encodes.holds_of_has hc.1, hc.2, hactive⟩
  · rintro ⟨c, hc, hkey, hactive⟩
    exact ⟨default, c, ⟨hc.has default, hkey⟩, hactive⟩

theorem active_unique (h : Governed uid s) (hname : s.Active ns name) (hother : s.Active ns other) :
    other = name := by
  obtain ⟨a, ha, hakey, haactive⟩ := h.active_iff.1 hname
  obtain ⟨b, hb, hbkey, hbactive⟩ := h.active_iff.1 hother
  obtain ⟨hans, haname⟩ := ObjectKey.mk.inj hakey
  obtain ⟨hbns, hbname⟩ := ObjectKey.mk.inj hbkey
  rw [← haname, ← hbname, h.unique a b ha hb (hans.trans hbns.symm) haactive hbactive]

theorem calm (h : Governed uid s) (hleader : ∀ other, s.Active ns other → other = leader) :
    Calm ns (fun _ ↦ False) leader s where
  coherent := h.coherent
  configs name hname now := by
    obtain ⟨object, hget⟩ := hname
    obtain ⟨c, -, hc, hkey⟩ := h.holds_config hget
    exact ⟨c, hc.has now, hkey⟩
  quotas name object _ hget := by
    obtain ⟨q, rfl, -⟩ := h.holds_quota hget
    exact ⟨q, ResourceQuota.inverts.decode_encode q⟩
  fated name m _ hne := by
    rintro ⟨object, hget, -⟩
    obtain ⟨q, -, hq, hqkey⟩ := h.holds_quota hget
    obtain ⟨c, hc, hactive, hckey, -⟩ := h.active_of_quota q hq
    obtain ⟨hns, hquota⟩ := ObjectKey.mk.inj (hckey.symm.trans hqkey)
    refine hne (hleader name (h.active_iff.2 ⟨c, hc, ?_, hactive⟩))
    exact ObjectKey.mk.injEq .. ▸ ⟨hns, quotaName_injective hquota⟩
  free _ _ _ _ := False.elim
  spared _ _ := id

theorem exists_favoured (h : Governed uid s) (ns name : String) : ∃ leader,
    (∀ other, s.Active ns other → other = leader) ∧ s.Favours ns leader ∧
      (name = leader ∨ s.Active ns leader) := by
  by_cases hactive : ∃ leader, s.Active ns leader
  · obtain ⟨leader, hleader⟩ := hactive
    refine ⟨leader, fun other ↦ h.active_unique hleader, fun other hother ↦ ⟨hleader, ?_⟩,
      .inr hleader⟩
    rw [h.active_unique hleader hother]
    exact String.lt_irrefl _
  · have hnot (other : String) : ¬s.Active ns other := fun hother ↦ hactive ⟨other, hother⟩
    exact ⟨name, fun other hother ↦ absurd hother (hnot other), favours_of_forall_not hnot name,
      .inl rfl⟩

theorem exec_reelect (env : Surroundings) (now : Timestamp) (h : Governed uid w.store)
    (hgone : ¬w.store.HasConfig ns name) :
    ∃ decision after, (Config.reelect now ns).exec env w = (.ok decision, w.withStore after) ∧
      Reviewed ns name w.store after := by
  obtain ⟨ruler, hruler, -⟩ := h.exists_favoured ns ""
  have hreads (other : String) (hother : w.store.HasConfig ns other) :
      ∃ o, w.store.HasConfigAs ns other now o := (h.calm hruler).configs other hother now
  obtain ⟨configs, hlist, hconfigs⟩ := h.coherent.exec_listIn env hreads
  rcases Config.exec_reelect_cases hlist hconfigs hreads with
    ⟨hled, hexec⟩ | ⟨leader, c, hc, ⟨-, hnobody⟩, -, hblocking, hexec⟩
  · refine ⟨_, w.store, hexec, .idle hgone (fun hother ↦ ?_) rfl⟩
    exact Classical.not_forall_not.1 fun hnobody ↦ hled ⟨hother, hnobody⟩
  · have hcalm : Calm ns (fun _ ↦ False) leader w.store :=
      h.calm fun other hother ↦ absurd hother (hnobody other)
    obtain ⟨after, htransition, hvisited⟩ :=
      Config.exec_transition_visited env hcalm hc (hblocking.trans (if_pos rfl).symm)
    rw [ConfigDecision.under, if_pos rfl] at htransition
    exact ⟨_, after, hexec _ htransition, .elect hgone hc.hasConfig hvisited⟩

/-- A reconcile succeeds, keeps the rule and reviews its config. -/
theorem exec_reconcile_reviewed (env : Surroundings) (now : Timestamp) (h : Governed uid w.store)
    (hinjective : ∀ n n', uid n = uid n' → n = n') (hne : ∀ n, uid n ≠ "")
    (henv : env.ambient.uid = uid) (ns name : String) :
    ∃ decision after, (Config.reconcile now (.namespaced ns name)).exec env w =
        (.ok decision, w.withStore after) ∧
      Governed uid after ∧ Reviewed ns name w.store after := by
  obtain ⟨decision, after, hexec, hafter, -⟩ := h.exec_reconcile env now hinjective hne henv name
  refine ⟨decision, after, hexec, hafter, ?_⟩
  cases hget : w.store.objects.get? ⟨.config, ⟨some ns, name⟩⟩ with
  | some object =>
    obtain ⟨leader, hleader, hfavours, hled⟩ := h.exists_favoured ns name
    obtain ⟨after', hexec', hvisited⟩ :=
      (h.calm hleader).exec_reconcile env now ⟨object, hget⟩ hfavours hled
    obtain ⟨-, hworld⟩ := Prod.mk.inj (hexec.symm.trans hexec')
    have heq : after = after' := congrArg World.store hworld
    rw [heq]
    exact .visit ⟨object, hget⟩ hvisited (hvisited.favours hfavours hled).1
  | none =>
    have hgone : ¬w.store.HasConfig ns name := by
      rintro ⟨object, hsome⟩
      cases hget.symm.trans hsome
    obtain ⟨decision', after', hexec', hreviewed⟩ := h.exec_reelect env now hgone
    unfold Config.reconcile at hexec
    dsimp only [ObjectKey.namespaced] at hexec
    rw [Task.exec_bind_of_ok (Task.exec_find?_of_none hget)] at hexec
    obtain ⟨-, hworld⟩ := Prod.mk.inj (hexec.symm.trans hexec')
    have heq : after = after' := congrArg World.store hworld
    rwa [heq]

end Governed

end TenantAccess
