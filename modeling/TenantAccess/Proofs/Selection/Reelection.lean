import TenantAccess.Proofs.Selection.Visit
import TenantAccess.Proofs.Store.Calls

/-!
# Election of a successor

A reconcile of a config that is gone looks for somebody to take its place.  Where a config is active
it writes nothing.  Where none is, the first of those that remain becomes the one active config and
has its quota seen to, whatever conditions and quotas are there, and nothing else is touched.
-/

namespace TenantAccess

open Json Store

namespace Condition

variable {new : Condition} {l l' : List Condition}

/-- The second list is the first with `new` in the place of the first condition of its type, or at
the end if there is none. -/
inductive Installed (new : Condition) : List Condition → List Condition → Prop
  | replaced {l rest : List Condition} {old : Condition} (hl : ∀ c ∈ l, c.type ≠ new.type)
      (hold : old.type = new.type) : Installed new (l ++ old :: rest) (l ++ new :: rest)
  | added {l : List Condition} (hl : ∀ c ∈ l, c.type ≠ new.type) : Installed new l (l ++ [new])

theorem Installed.find?_eq (h : Installed new l l') : find? new.type l' = some new := by
  cases h with
  | replaced hl _ => rw [find?_append_of_forall hl, find?_cons_of_eq rfl]
  | added hl => rw [find?_append_of_forall hl, find?_cons_of_eq rfl]

theorem Sets.installed (hset : Sets new l l') (h : isTrue new.type l = false)
    (hstatus : new.status = .true) : Installed new l l' := by
  cases hset with
  | @replaced before after old hbefore hold =>
    have hne : old.status ≠ .true := by
      rw [isTrue, find?_append_of_forall hbefore, find?_cons_of_eq hold] at h
      simpa using h
    have hnew : old.refresh new = new := by
      rw [refresh, if_neg (hstatus ▸ hne), hold]
    rw [hnew]
    exact .replaced hbefore hold
  | added hl => exact .added hl

end Condition

/-- The config `c'` is `c` made ready at `now`: its condition of readiness and its version are new, and
all else is as it was. -/
structure Config.Readied (now : Timestamp) (c c' : Config) : Prop where
  spec_eq : c'.spec = c.spec
  metadata_eq : c'.metadata =
    { c.metadata with resourceVersion := c'.metadata.resourceVersion }
  version_ne : c'.metadata.resourceVersion ≠ c.metadata.resourceVersion
  conditions : (readyNow now).Installed c.conditions c'.conditions

theorem Config.Readied.isActive {now : Timestamp} {c c' : Config} (h : c.Readied now c') :
    c'.isActive = true := by
  have hfind : Condition.find? readyCondition c'.conditions = some (readyNow now) :=
    h.conditions.find?_eq
  rw [Config.isActive, Condition.isTrue, hfind]
  rfl

structure Store.Reads (s : Store) (ns : String) : Prop where
  configs : ∀ name object, s.objects.get? ⟨.config, ⟨some ns, name⟩⟩ = some object →
    ∃ now c, Config.decode strict now object = some c
  quotas : ∀ name object, s.objects.get? ⟨.resourceQuota, ⟨some ns, name⟩⟩ = some object →
    ∃ q, ResourceQuota.decode strict object = some q

def Store.Leaderless (s : Store) (ns : String) : Prop :=
  (∃ name, s.HasConfig ns name) ∧ ∀ name, ¬s.Active ns name

/-- What electing `leader` in `ns` at `now` makes of a store. -/
structure Elected (ns leader : String) (now : Timestamp) (before after : Store) : Prop where
  config : ∃ c c', before.HasConfigAs ns leader now c ∧ after.HasConfigAs ns leader now c' ∧
    c.Readied now c'
  active_iff : ∀ name, after.Active ns name ↔ name = leader
  quota : ∀ c, after.HasConfigAs ns leader now c → after.Limited ns leader c.metadata.uid
  others : ∀ ref, ref ≠ ⟨.config, ⟨some ns, leader⟩⟩ → ref ≠ quotaRef ns leader →
    after.objects.get? ref = before.objects.get? ref

/-- What a reconcile of a config of `ns` that is gone makes of a store, and whom it elects. -/
structure Reelected (ns : String) (now : Timestamp) (before : Store) (reelected : Option String)
    (after : Store) : Prop where
  idle : ¬before.Leaderless ns → reelected = none ∧ after = before
  elects : before.Leaderless ns → ∃ leader, reelected = some leader ∧ before.HasConfig ns leader ∧
    (∀ name, before.HasConfig ns name → leader ≤ name) ∧ Elected ns leader now before after

section Reelect

variable {env : Surroundings} {w : World} {now : Timestamp} {ns name : String} {c : Config}
  {configs : List Config}

theorem Config.exec_reelect_cases (hlist : (listIn now ns).exec env w = (.ok configs, w))
    (hconfigs : ∀ o, o ∈ configs ↔ w.store.HasConfigAs ns o.metadata.name now o)
    (hreads : ∀ other, w.store.HasConfig ns other → ∃ o, w.store.HasConfigAs ns other now o) :
    ¬w.store.Leaderless ns ∧ (reelect now ns).exec env w = (.ok (.deleted none), w) ∨
    ∃ leader c, w.store.HasConfigAs ns leader now c ∧ w.store.Leaderless ns ∧
      (∀ other, w.store.HasConfig ns other → leader ≤ other) ∧ c.blocking? configs = none ∧
      ∀ w', (c.transition now configs).exec env w = (.ok (.active leader), w') →
        (reelect now ns).exec env w = (.ok (.deleted (some leader)), w') := by
  have hlisted {other : String} {o : Config} (ho : w.store.HasConfigAs ns other now o) :
      o.metadata.name = other ∧ o ∈ configs := by
    have hname : o.metadata.name = other := congrArg ObjectKey.name ho.2
    exact ⟨hname, (hconfigs o).2 (hname ▸ ho)⟩
  rcases exec_reelect_of_list hlist with ⟨hled, hexec⟩ | ⟨c, hmem, hfree, hfirst, hexec⟩
  · refine .inl ⟨fun ⟨⟨other, hother⟩, hnobody⟩ ↦ ?_, hexec⟩
    rcases hled with rfl | ⟨o, ho, hactive⟩
    · obtain ⟨o, ho⟩ := hreads other hother
      cases (hlisted ho).2
    · exact hnobody _ ⟨now, o, (hconfigs o).1 ho, hactive⟩
  · have hc := (hconfigs c).1 hmem
    have hnobody (other : String) : ¬w.store.Active ns other := by
      rintro ⟨later, o, ho, hactive⟩
      obtain ⟨o', ho', hsame⟩ := ho.at now
      rw [hfree o' (hlisted ho').2] at hsame
      rw [← hsame] at hactive
      cases hactive
    refine .inr ⟨c.metadata.name, c, hc, ⟨⟨_, hc.hasConfig⟩, hnobody⟩, fun other hother ↦ ?_,
      blocking?_eq_none fun o ho hactive ↦ ?_, hexec _⟩
    · obtain ⟨o, ho⟩ := hreads other hother
      obtain ⟨rfl, hmem⟩ := hlisted ho
      exact hfirst o hmem
    · rw [hfree o ho] at hactive
      cases hactive

theorem Config.exec_writeStatus_readied (env : Surroundings) (h : w.store.Coherent)
    (hc : w.store.HasConfigAs ns name now c) (hinactive : c.isActive = false) :
    ∃ c' after, (c.writeStatus now (readyNow now)).exec env w = (.ok c', w.withStore after) ∧
      Replaced w.store after c c' ∧ c.Readied now c' := by
  have hchanges : (readyNow now).changes c.conditions = true := by
    cases hsame : (readyNow now).changes c.conditions with
    | true => rfl
    | false =>
      rw [isActive_of_not_changes hsame rfl] at hinactive
      cases hinactive
  obtain ⟨after, hexec, hr⟩ := Task.exec_update_of_has env now h hc.1
    (o := { c with conditions := (readyNow now).set c.conditions }) rfl
  refine ⟨_, after, ?_, hr, rfl, rfl, fun hversion ↦ ?_,
    (Condition.sets_set _ _).installed hinactive rfl⟩
  · rw [writeStatus, if_pos hchanges]
    exact hexec
  · -- the version is new, and what was stored before has an old one
    obtain ⟨object, hget, hdecode⟩ := hc.1
    obtain ⟨v, hv, hold⟩ := h.exists_version ⟨object, hget, h.metaOf_of_has hget hdecode⟩
    have heq : some (toString (w.store.version + 1)) = some (toString v) := hversion.trans hold
    have := toString_nat_injective (Option.some.inj heq)
    omega

theorem Config.exec_transition_elected (env : Surroundings) (h : w.store.Coherent)
    (hreads : w.store.Reads ns) (hc : w.store.HasConfigAs ns name now c)
    (hnobody : ∀ other, ¬w.store.Active ns other) (hblocking : c.blocking? configs = none) :
    ∃ after, (c.transition now configs).exec env w = (.ok (.active name), w.withStore after) ∧
      Elected ns name now w.store after := by
  have hinactive : c.isActive = false := by
    cases hactive : c.isActive with
    | false => rfl
    | true => exact absurd ⟨now, c, hc, hactive⟩ (hnobody name)
  obtain ⟨c', middle, hwrite, hr, hreadied⟩ := exec_writeStatus_readied env h hc hinactive
  have hmiddle : middle.HasConfigAs ns name now c' := ⟨hr.holds.has now, hr.key_eq.trans hc.2⟩
  have hquotas (object : Json) (hget : middle.objects.get? (quotaRef ns name) = some object) :
      ∃ q, ResourceQuota.decode strict object = some q := by
    rw [hr.others _ (hc.ref_eq ▸ config_ne_quotaRef.symm)] at hget
    exact hreads.quotas _ object hget
  obtain ⟨outcome, after, hensure, hensured⟩ :=
    exec_ensureQuota_ensured (w := w.withStore middle) env hr.coherent hmiddle hquotas
  have hafter : after.HasConfigAs ns name now c' := hmiddle.congr (hensured.others config_ne_quotaRef)
  have hothers (ref : ObjectRef) (hconfig : ref ≠ ⟨.config, ⟨some ns, name⟩⟩)
      (hquota : ref ≠ quotaRef ns name) : after.objects.get? ref = w.store.objects.get? ref :=
    (hensured.others hquota).trans (hr.others ref (hc.ref_eq ▸ hconfig))
  refine ⟨after, ?_, ⟨c, c', hc, hafter, hreadied⟩, fun other ↦ ?_, fun o ho ↦ ?_, hothers⟩
  · have hname : c.metadata.name = name := congrArg ObjectKey.name hc.2
    rw [transition, hblocking]
    dsimp only
    rw [Task.exec_bind_of_ok hwrite, Task.exec_bind_of_ok hensure, hname]
    rfl
  · by_cases hother : other = name
    · rw [hother, hafter.active_iff]
      exact iff_of_true hreadied.isActive rfl
    · refine iff_of_false ?_ hother
      rw [active_congr (hothers _ (fun heq ↦ hother ?_) config_ne_quotaRef)]
      · exact hnobody other
      · exact congrArg (fun ref : ObjectRef ↦ ref.key.name) heq
  · rw [hafter.unique ho]
    exact hensured.limited

theorem exec_reconcile_reelected (env : Surroundings) (now : Timestamp) (h : w.store.Coherent)
    (hreads : w.store.Reads ns) (hgone : ¬w.store.HasConfig ns name) :
    ∃ reelected after, (Config.reconcile now (.namespaced ns name)).exec env w =
        (.ok (.deleted reelected), w.withStore after) ∧
      Reelected ns now w.store reelected after := by
  have hnone : w.store.objects.get? ⟨.config, ⟨some ns, name⟩⟩ = none :=
    Option.eq_none_iff_forall_ne_some.2 fun object hsome ↦ hgone ⟨object, hsome⟩
  have hconfigs (other : String) : w.store.HasConfig ns other →
      ∃ o, w.store.HasConfigAs ns other now o :=
    fun ⟨object, hget⟩ ↦ h.exists_hasConfigAs hget (hreads.configs other object hget) now
  obtain ⟨configs, hlist, hmem⟩ := h.exec_listIn env hconfigs
  unfold Config.reconcile
  dsimp only [ObjectKey.namespaced]
  rw [Task.exec_bind_of_ok (Task.exec_find?_of_none hnone)]
  dsimp only
  rcases Config.exec_reelect_cases hlist hmem hconfigs with
    ⟨hled, hexec⟩ | ⟨leader, c, hc, hleaderless, hfirst, hblocking, hexec⟩
  · exact ⟨none, w.store, hexec, fun _ ↦ ⟨rfl, rfl⟩, fun hleaderless ↦ absurd hleaderless hled⟩
  · obtain ⟨after, htransition, helected⟩ :=
      Config.exec_transition_elected env h hreads hc hleaderless.2 hblocking
    exact ⟨some leader, after, hexec _ htransition, fun hnot ↦ absurd hleaderless hnot,
      fun _ ↦ ⟨leader, rfl, hc.hasConfig, hfirst, helected⟩⟩

end Reelect

theorem World.reads_call_creating {w : World} {ns : String} (kind : Kind) (h : w.store.Reads ns)
    (o : kind.Object) : (w.call (.creating o)).store.Reads ns := by
  constructor
  · intro name object hget
    rcases get?_call_creating hget with hbefore | ⟨hkind, c, rfl⟩
    · exact h.configs name object hbefore
    · obtain rfl : .config = kind := hkind.trans kind.kind_object
      exact ⟨default, c, Resource.decode_encode c⟩
  · intro name object hget
    rcases get?_call_creating hget with hbefore | ⟨hkind, q, rfl⟩
    · exact h.quotas name object hbefore
    · obtain rfl : .resourceQuota = kind := hkind.trans kind.kind_object
      exact ⟨q, ResourceQuota.inverts.decode_encode q⟩

/-- Whatever was asked of the store before, if the configs and quotas of a namespace can be read, a
reconcile of a config of that namespace that is gone succeeds.  It writes nothing if some config is
active or none is left, and elects the first config otherwise. -/
theorem reelected_of_gone (calls : List Call) {ns name : String}
    (hreads : (World.after {} calls).store.Reads ns)
    (hgone : ¬(World.after {} calls).store.HasConfig ns name) (env : Surroundings)
    (now : Timestamp) :
    let w := World.after {} calls
    ∃ reelected after, (Config.reconcile now (.namespaced ns name)).exec env w =
        (.ok (.deleted reelected), w.withStore after) ∧
      Reelected ns now w.store reelected after := by
  intro w
  have hregular : w.store.Regular := World.regular_after Store.regular_empty calls
  exact exec_reconcile_reelected env now hregular.coherent hreads hgone

/-- The first config that is left has a condition of another type, and under the name of its quota there
is one that is not its own. -/
theorem reelected_of_gone_beside_stranger :
    let audited : Condition := ⟨"Audited", .true, "Passed", "", default⟩
    let a : Config := { Config.new "shop" "a" with conditions := [audited] }
    let stranger : ResourceQuota := ⟨.namespaced "shop" "dbaas-a", ∅⟩
    let w := World.after {} [.creating (Config.new "shop" "b"), .creating a, .creating stranger]
    ∃ after, (Config.reconcile default (.namespaced "shop" "gone")).exec quiet w =
        (.ok (.deleted (some "a")), w.withStore after) ∧
      Elected "shop" "a" default w.store after := by
  intro audited a stranger w
  have hempty : (World.store {}).Reads "shop" :=
    ⟨fun _ _ hget ↦ (by cases hget), fun _ _ hget ↦ (by cases hget)⟩
  have hreads : w.store.Reads "shop" := World.reads_call_creating .resourceQuota
    (World.reads_call_creating .config (World.reads_call_creating .config hempty _) a) stranger
  have hgone : ¬w.store.HasConfig "shop" "gone" := by
    rintro ⟨object, hget⟩
    have hnone : w.store.objects.get? ⟨.config, ⟨some "shop", "gone"⟩⟩ = none := by
      decide +kernel
    cases hnone.symm.trans hget
  obtain ⟨reelected, after, hexec, hidle, helects⟩ := reelected_of_gone _ hreads hgone quiet default
  have hfirst : ((Config.reconcile default (.namespaced "shop" "gone")).exec quiet w).1.toOption =
      some (.deleted (some "a")) := by decide +kernel
  rw [hexec] at hfirst
  obtain rfl : reelected = some "a" := ConfigDecision.deleted.inj (Option.some.inj hfirst)
  have hleaderless : w.store.Leaderless "shop" :=
    Classical.not_not.1 fun hled ↦ by cases (hidle hled).1
  obtain ⟨leader, hleader, -, -, helected⟩ := helects hleaderless
  cases hleader
  exact ⟨after, hexec, helected⟩

end TenantAccess
