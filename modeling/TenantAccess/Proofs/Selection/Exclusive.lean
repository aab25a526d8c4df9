import TenantAccess.Proofs.Selection.Governed

/-!
# One active config per namespace, whatever the order of reconciles

Configs come and go and are edited, and reconciles run one at a time.  In whatever order that
happens, at most one config of a namespace is active, it alone has a quota, and a reconcile succeeds
and leaves an active config behind in every namespace that has configs.
-/

namespace TenantAccess

open Store

namespace Governed

variable {uid : Nat → String} {c o : Config} {w : World} {configs : List Config} {ns : String}

/-- A config becomes active, or stays so, if no other one of its namespace is. -/
theorem exec_transition_activate (env : Surroundings) (now : Timestamp) (h : Governed uid w.store)
    (hinjective : ∀ n n', uid n = uid n' → n = n') (hne : ∀ n, uid n ≠ "")
    (henv : env.ambient.uid = uid) (hc : w.store.Holds c)
    (hfree : ∀ o : Config, w.store.Holds o → o.metadata.ns? = c.metadata.ns? → o.isActive → o = c)
    (hconfigs : ∀ o ∈ configs, w.store.Holds o ∧ o.metadata.ns? = c.metadata.ns?) :
    ∃ after, (c.transition now configs).exec env w =
        (.ok (.active c.metadata.name), w.withStore after) ∧
      Governed uid after ∧
      ∃ c' : Config, after.Holds c' ∧ c'.metadata.ns? = c.metadata.ns? ∧ c'.isActive := by
  have hblocking : c.blocking? configs = none := by
    refine Config.blocking?_eq_none_of_rivals (List.eq_nil_iff_forall_not_mem.2 fun name hmem ↦ ?_)
    obtain ⟨o, ho, hactive, rfl, hname⟩ := Config.mem_rivals_iff.1 hmem
    obtain ⟨hholds, hns⟩ := hconfigs o ho
    exact hname (by rw [hfree o hholds hns hactive])
  have hready : (Config.readyNow now).type = readyCondition := rfl
  obtain ⟨c', middle, hwrite, hr, hactive⟩ :=
    Config.exec_writeStatus env now h.coherent hc hready
  have hactive : c'.isActive := hactive
  obtain ⟨ns, hns, hnsne⟩ := Config.exists_ns_of_holds hr.coherent hr.holds
  have hns' : c'.metadata.ns? = c.metadata.ns? := congrArg ObjectKey.ns? hr.key_eq
  unfold Config.transition
  simp only [hblocking]
  rw [Task.exec_bind_of_ok hwrite]
  cases hwas : c.isActive with
  | true =>
    have hmiddle := h.rewrite hc hr (hactive.trans hwas.symm)
    obtain ⟨q, hq, hkey⟩ := hmiddle.quota_of_active c' hr.holds hactive
    obtain ⟨-, -, -, -, hhard, -⟩ := hmiddle.active_of_quota q hq
    rw [Task.exec_bind_of_ok (Config.exec_ensureQuota_of_holds hns hq hkey hhard)]
    exact ⟨middle, rfl, hmiddle, c', hr.holds, hns', hactive⟩
  | false =>
    have hinactive (o : Config) (ho : w.store.Holds o)
        (hons : o.metadata.ns? = c.metadata.ns?) : o.isActive = false := by
      cases hoactive : o.isActive with
      | false => rfl
      | true =>
        rw [hfree o ho hons hoactive, hwas] at hoactive
        exact hoactive.symm
    have hnone : middle.objects.get? ⟨.resourceQuota, c'.quotaKey⟩ = none := by
      have href : (⟨.resourceQuota, c'.quotaKey⟩ : ObjectRef) ≠ Resource.ref c := fun href ↦ by
        cases congrArg ObjectRef.kind href
      rw [hr.others _ href, Config.quotaKey_eq_of_key_eq hr.key_eq]
      exact h.get?_quotaKey hc hwas
    rw [Task.exec_bind_of_ok (Config.exec_ensureQuota_of_none hns hnsne hnone)]
    refine ⟨_, rfl, h.activate hinjective hne hc hwas hinactive hr hactive henv, c', ?_, hns',
      hactive⟩
    have href : Resource.ref c' ≠ Resource.ref (asNew env.ambient middle c'.desiredQuota) :=
      fun href ↦ by cases congrArg ObjectRef.kind href
    rw [Holds, World.store_withStore, get?_recorded, if_neg href]
    exact hr.holds

/-- Beside an active config another one is denied, and stays without a quota. -/
theorem exec_transition_deny (env : Surroundings) (now : Timestamp) (h : Governed uid w.store)
    (hc : w.store.Holds c) (ho : w.store.Holds o) (hns : o.metadata.ns? = c.metadata.ns?)
    (hactive : o.isActive)
    (hoc : o ≠ c) (hmem : o ∈ configs) :
    ∃ name after, (c.transition now configs).exec env w =
        (.ok (.denied c.metadata.name name), w.withStore after) ∧
      Governed uid after ∧ after.Holds o := by
  have hwas : c.isActive = false := by
    cases hwas : c.isActive with
    | false => rfl
    | true => exact absurd (h.unique o c ho hc hns hactive hwas) hoc
  have hname : o.metadata.name ≠ c.metadata.name := fun hname ↦
    hoc (ho.eq_of_key_eq hc (ObjectKey.mk.injEq .. ▸ ⟨hns, hname⟩))
  obtain ⟨name, hblocking⟩ := Config.exists_blocking? hmem hactive hname
    (fun hcactive ↦ by rw [hwas] at hcactive; cases hcactive)
  have hnotReady : (Config.notReadyNow now name).type = readyCondition := rfl
  obtain ⟨c', middle, hwrite, hr, hdenied⟩ :=
    Config.exec_writeStatus env now h.coherent hc hnotReady
  have hdenied : c'.isActive = false := hdenied
  have hmiddle := h.rewrite hc hr (hdenied.trans hwas.symm)
  refine ⟨name, middle, ?_, hmiddle, ?_⟩
  · unfold Config.transition
    simp only [hblocking]
    rw [Task.exec_bind_of_ok hwrite, Task.exec_bind_of_ok (Config.exec_releaseQuota_of_none
      (hmiddle.get?_quotaKey hr.holds hdenied))]
    rfl
  · exact (hr.holds_iff fun href ↦ hoc
      (ho.eq_of_key_eq hc (congrArg ObjectRef.key href))).2 ho

/-- A reconcile succeeds and keeps the rule.  In a namespace with configs it leaves one active. -/
theorem exec_reconcile (env : Surroundings) (now : Timestamp) (h : Governed uid w.store)
    (hinjective : ∀ n n', uid n = uid n' → n = n') (hne : ∀ n, uid n ≠ "")
    (henv : env.ambient.uid = uid) (name : String) :
    ∃ decision after, (Config.reconcile now (.namespaced ns name)).exec env w =
        (.ok decision, w.withStore after) ∧
      Governed uid after ∧
      ((∃ c : Config, w.store.Holds c ∧ c.metadata.ns? = some ns) →
        ∃ c : Config, after.Holds c ∧ c.metadata.ns? = some ns ∧ c.isActive) := by
  obtain ⟨l, hlist, hmem⟩ := Config.exec_listIn env now h.coherent h.encodes ns
  unfold Config.reconcile
  simp only [ObjectKey.namespaced]
  cases hget : w.store.objects.get? ⟨.config, ⟨some ns, name⟩⟩ with
  | some object =>
    obtain ⟨c, rfl, hc, hkey⟩ := h.holds_config hget
    have hns : c.metadata.ns? = some ns := congrArg ObjectKey.ns? hkey
    have hfind : (Task.find? (α := Config) now ⟨some ns, name⟩).exec env w =
        (.ok (some c), w) := Task.exec_find?_of_decode hget (Resource.decode_encode c)
    rw [Task.exec_bind_of_ok hfind]
    dsimp only
    rw [Task.exec_bind_of_ok hlist]
    -- beside another active config `c` is denied, and without one it is activated
    by_cases hother : ∃ o : Config, w.store.Holds o ∧ o.metadata.ns? = some ns ∧ o.isActive ∧ o ≠ c
    · obtain ⟨o, ho, hons, hactive, hoc⟩ := hother
      obtain ⟨name, after, heq, hafter, hkept⟩ := h.exec_transition_deny env now hc ho
        (hons.trans hns.symm) hactive hoc ((hmem o).2 ⟨ho, hons⟩)
      exact ⟨_, after, heq, hafter, fun _ ↦ ⟨o, hkept, hons, hactive⟩⟩
    · obtain ⟨after, heq, hafter, c', hc', hcns, hactive⟩ :=
        h.exec_transition_activate env now hinjective hne henv hc
          (fun o ho hons hactive ↦ by
            by_cases hoc : o = c
            · exact hoc
            · exact absurd ⟨o, ho, hons.trans hns, hactive, hoc⟩ hother)
          (fun o ho ↦ by
            obtain ⟨ho, hons⟩ := (hmem o).1 ho
            exact ⟨ho, hons.trans hns.symm⟩)
      exact ⟨_, after, heq, hafter, fun _ ↦ ⟨c', hc', hcns.trans hns, hactive⟩⟩
  | none =>
    rw [Task.exec_bind_of_ok (Task.exec_find?_of_none hget)]
    rcases Config.exec_reelect_of_list hlist with
      ⟨hled, hexec⟩ | ⟨c, hmemc, hnobody, -, hexec⟩
    · refine ⟨_, w.store, hexec, h, fun ⟨c, hc, hns⟩ ↦ ?_⟩
      rcases hled with hnil | ⟨o, ho, hactive⟩
      · have hlisted := (hmem c).2 ⟨hc, hns⟩
        rw [hnil] at hlisted
        cases hlisted
      · obtain ⟨ho, hons⟩ := (hmem o).1 ho
        exact ⟨o, ho, hons, hactive⟩
    · obtain ⟨hc, hns⟩ := (hmem c).1 hmemc
      obtain ⟨after, heq, hafter, c', hc', hcns, hactive⟩ :=
        h.exec_transition_activate env now hinjective hne henv hc
          (fun o ho hons hactive ↦ by
            rw [hnobody o ((hmem o).2 ⟨ho, hons.trans hns⟩)] at hactive
            cases hactive)
          (fun o ho ↦ by
            obtain ⟨ho, hons⟩ := (hmem o).1 ho
            exact ⟨ho, hons.trans hns.symm⟩)
      exact ⟨_, after, hexec _ _ heq, hafter, fun _ ↦ ⟨c', hc', hcns.trans hns, hactive⟩⟩

end Governed

/-! ## Runs -/

namespace Config

def respec (now : Timestamp) (key : ObjectKey) (spec : ConfigSpec) : Task Config := do
  let c ← Task.get (α := Config) now key
  Task.update now { c with spec }

/-- What may happen next to the configs.  Each step has its own time, and may come to nothing. -/
inductive Step (uid : Nat → String) (w : World) : World → Prop
  | create (env : Surroundings) (now : Timestamp) (c : Config) (henv : env.ambient.uid = uid)
    (hready : Condition.find? readyCondition c.conditions = none)
    (hfresh : w.store.Fresh uid c.metadata.uid) :
    Step uid w ((Task.create now c).exec env w).2
  | respec (env : Surroundings) (now : Timestamp) (key : ObjectKey) (spec : ConfigSpec) :
    Step uid w ((respec now key spec).exec env w).2
  | delete (env : Surroundings) (key : ObjectKey) :
    Step uid w ((Task.delete .config key).exec env w).2
  | reconcile (env : Surroundings) (now : Timestamp) (ns name : String)
    (henv : env.ambient.uid = uid) :
    Step uid w ((Config.reconcile now (.namespaced ns name)).exec env w).2

inductive Reached (uid : Nat → String) : World → Prop
  | start (w : World) (h : w.store = .empty) : Reached uid w
  | step {w w' : World} (h : Reached uid w) (hstep : Step uid w w') : Reached uid w'

variable {uid : Nat → String} {w w' : World}

theorem governed_respec (h : Governed uid w.store) (env : Surroundings) (now : Timestamp)
    (key : ObjectKey) (spec : ConfigSpec) :
    Governed uid ((respec now key spec).exec env w).2.store := by
  unfold respec
  cases hget : w.store.objects.get? ⟨.config, key⟩ with
  | none =>
    rw [Task.exec_bind_of_error (Task.exec_get_of_none hget)]
    exact h
  | some object =>
    obtain ⟨c, -, hc, rfl⟩ := h.holds_config hget
    have hread : (Task.get (α := Config) now c.metadata.key).exec env w = (.ok c, w) :=
      Task.exec_get_of_has (hc.has now)
    rw [Task.exec_bind_of_ok hread]
    obtain ⟨c', after, heq, hr, -, hconditions⟩ :=
      exec_update_of_holds env now h.coherent hc (o := { c with spec }) rfl
    rw [heq]
    refine h.rewrite hc hr ?_
    rw [isActive, hconditions]
    rfl

theorem governed_step (hinjective : ∀ n n', uid n = uid n' → n = n') (hne : ∀ n, uid n ≠ "")
    (h : Governed uid w.store) (hstep : Step uid w w') : Governed uid w'.store := by
  cases hstep with
  | create env now c henv hready hfresh =>
    rcases Task.exec_create_cases env now c w with ⟨e, heq⟩ | ⟨hscope, hnone, heq⟩
    · rw [heq]
      exact h
    · rw [heq]
      have hinactive : c.isActive = false := by
        simp [isActive, Condition.isTrue, hready]
      exact h.create hinjective hne hscope hnone hinactive hfresh henv
  | respec env now key spec => exact governed_respec h env now key spec
  | delete env key =>
    rcases Task.exec_delete_cases env h.coherent .config key with ⟨-, heq⟩ | ⟨after, heq, hswept⟩
    · rw [heq]
      exact h
    · rw [heq]
      exact h.sweep hswept
  | reconcile env now ns name henv =>
    obtain ⟨_, _, heq, hafter, -⟩ := h.exec_reconcile env now hinjective hne henv name
    rw [heq]
    exact hafter

theorem governed_of_reached (hinjective : ∀ n n', uid n = uid n' → n = n')
    (hne : ∀ n, uid n ≠ "") (h : Reached uid w) : Governed uid w.store := by
  induction h with
  | start w h =>
    rw [h]
    exact governed_empty uid
  | step _ hstep ih => exact governed_step hinjective hne ih hstep

end Config

/-- At most one config of a namespace is active.  It has the only quota there, which allows one
config and is owned by it alone; without an active config there is no quota. -/
structure Exclusive (s : Store) : Prop where
  readable : ∀ key object, s.objects.get? ⟨.config, key⟩ = some object →
    ∃ c : Config, s.Holds c ∧ c.metadata.key = key
  unique : ∀ a b : Config, s.Holds a → s.Holds b → a.metadata.ns? = b.metadata.ns? →
    a.isActive → b.isActive → a = b
  quota : ∀ c : Config, s.Holds c → c.isActive → ∃ q : ResourceQuota, s.Holds q ∧
    q.metadata.key = ⟨c.metadata.ns?, "dbaas-" ++ c.metadata.name⟩ ∧
    q.hard.entries = [("count/dbaasconfigs.dbaas.redhat.com", "1")] ∧
    (∃ r, q.metadata.ownerReferences = [r] ∧ r.uid = c.metadata.uid) ∧
    ∀ key object, s.objects.get? ⟨.resourceQuota, key⟩ = some object →
      key.ns? = c.metadata.ns? → key = q.metadata.key
  no_quota : ∀ ns, (∀ c : Config, s.Holds c → c.metadata.ns? = ns → c.isActive = false) →
    ∀ key object, s.objects.get? ⟨.resourceQuota, key⟩ = some object → key.ns? ≠ ns

theorem Governed.exclusive {uid : Nat → String} {s : Store} (h : Governed uid s) :
    Exclusive s where
  readable key object hget := by
    obtain ⟨c, -, hc, hkey⟩ := h.holds_config hget
    exact ⟨c, hc, hkey⟩
  unique := h.unique
  quota c hc hactive := by
    obtain ⟨q, hq, hkey⟩ := h.quota_of_active c hc hactive
    obtain ⟨d, hd, -, hdkey, hhard, howner⟩ := h.active_of_quota q hq
    have hdc : d = c := hd.eq_of_key_eq hc (Config.key_eq_of_quotaKey_eq (hdkey.symm.trans hkey))
    rw [hdc] at howner
    refine ⟨q, hq, hkey, hhard ▸ configLimit_entries, howner, fun key object hget hns ↦ ?_⟩
    obtain ⟨p, -, hp, rfl⟩ := h.holds_quota hget
    obtain ⟨o, ho, hoactive, hokey, -⟩ := h.active_of_quota p hp
    have hons : p.metadata.ns? = o.metadata.ns? := congrArg ObjectKey.ns? hokey
    rw [hokey, hkey, h.unique o c ho hc (hons.symm.trans hns) hoactive hactive]
  no_quota ns hnobody key object hget hns := by
    obtain ⟨q, -, hq, rfl⟩ := h.holds_quota hget
    obtain ⟨c, hc, hactive, hkey, -⟩ := h.active_of_quota q hq
    have hcns : q.metadata.ns? = c.metadata.ns? := congrArg ObjectKey.ns? hkey
    rw [hnobody c hc (hcns.symm.trans hns)] at hactive
    cases hactive

/-- Whatever happens to configs, at most one of a namespace is active and only it has a quota.  A
reconcile succeeds, and leaves exactly one active in a namespace that has configs. -/
theorem exclusive_of_reached {uid : Nat → String} (hinjective : ∀ n n', uid n = uid n' → n = n')
    (hne : ∀ n, uid n ≠ "") {w : World} (h : Config.Reached uid w) :
    Exclusive w.store ∧
    ∀ (env : Surroundings) (now : Timestamp) (ns name : String), env.ambient.uid = uid →
      ∃ decision w', (Config.reconcile now (.namespaced ns name)).exec env w = (.ok decision, w') ∧
        ((∃ c : Config, w.store.Holds c ∧ c.metadata.ns? = some ns) →
          ∃ c : Config, w'.store.Holds c ∧ c.metadata.ns? = some ns ∧ c.isActive ∧
            ∀ o : Config, w'.store.Holds o → o.metadata.ns? = some ns → o.isActive → o = c) := by
  have hgoverned := Config.governed_of_reached hinjective hne h
  refine ⟨hgoverned.exclusive, fun env now ns name henv ↦ ?_⟩
  obtain ⟨decision, after, heq, hafter, hactive⟩ :=
    hgoverned.exec_reconcile env now hinjective hne henv name
  refine ⟨decision, _, heq, fun hconfig ↦ ?_⟩
  obtain ⟨c, hc, hns, hcactive⟩ := hactive hconfig
  exact ⟨c, hc, hns, hcactive, fun o ho hons hoactive ↦
    hafter.unique o c ho hc (hons.trans hns.symm) hoactive hcactive⟩

namespace Config

/-! ### A config that is denied and takes over -/

/-- Of two configs the second is reconciled first. -/
def contested : World :=
  let one := ((Task.create default (Config.new "shop" "a")).exec quiet {}).2
  let two := ((Task.create default (Config.new "shop" "b")).exec quiet one).2
  ((Config.reconcile default (.namespaced "shop" "b")).exec quiet two).2

def denied : World := ((Config.reconcile default (.namespaced "shop" "a")).exec quiet contested).2

def vacated : World := ((Task.delete .config ⟨some "shop", "b"⟩).exec quiet denied).2

theorem reached_denied : Reached numberedUid denied := by
  refine .step ?_ (.reconcile quiet default "shop" "a" rfl)
  refine .step ?_ (.reconcile quiet default "shop" "b" rfl)
  refine .step ?_ (.create quiet default (Config.new "shop" "b") rfl rfl (.inl rfl))
  exact .step (.start {} rfl) (.create quiet default (Config.new "shop" "a") rfl rfl (.inl rfl))

theorem reached_vacated : Reached numberedUid vacated :=
  .step reached_denied (.delete quiet ⟨some "shop", "b"⟩)

set_option maxRecDepth 10000 in
theorem taken_over_of_vacated :
    (∃ c : Config, vacated.store.Holds c ∧ c.metadata.ns? = some "shop") ∧
      ((Config.reconcile default (.namespaced "shop" "b")).exec quiet vacated).1.toOption =
        some (.deleted (some "a")) := by
  have hsome : (denied.store.objects.get? ⟨.config, ⟨some "shop", "b"⟩⟩).isSome := by
    decide +kernel
  -- a deletion goes on as long as there are dependents; only its bounded form can be evaluated
  have hplay : (sweepWithin 3 denied.store [⟨.config, ⟨some "shop", "b"⟩⟩]).any fun after ↦
      let w := denied.withStore after
      (∃ c ∈ w.store.objectsOf Config default .all, c.metadata.ns? = some "shop") ∧
        ((Config.reconcile default (.namespaced "shop" "b")).exec quiet w).1.toOption =
          some (.deleted (some "a")) := by decide +kernel
  obtain ⟨after, hswept, hends⟩ := (Option.any_eq_true _ _).1 hplay
  have hvacated : vacated = denied.withStore after := by
    rw [vacated, Task.exec_delete_of_eq (delete_eq_of_sweepWithin hsome hswept)]
  rw [← hvacated] at hends
  obtain ⟨⟨c, hc, hns⟩, hdecision⟩ := of_decide_eq_true hends
  have hgoverned := governed_of_reached numberedUid_injective numberedUid_ne_empty reached_vacated
  have hhas := ((mem_objectsOf_iff hgoverned.coherent).1 hc).1
  exact ⟨⟨c, hgoverned.encodes.holds_of_has hhas, hns⟩, hdecision⟩

end Config

open Config in
/-- Beside "b" config "a" is denied.  Once "b" is gone a reconcile of its key elects "a". -/
theorem exclusive_of_takeover :
    (∀ n n', numberedUid n = numberedUid n' → n = n') ∧ (∀ n, numberedUid n ≠ "") ∧
      (Reached numberedUid denied ∧ Exclusive denied.store ∧
        ((Config.reconcile default (.namespaced "shop" "a")).exec quiet contested).1.toOption =
          some (.denied "a" "b")) ∧
      Reached numberedUid vacated ∧ Exclusive vacated.store ∧
        ∃ w, (Config.reconcile default (.namespaced "shop" "b")).exec quiet vacated =
            (.ok (.deleted (some "a")), w) ∧
          ∃ c : Config, w.store.Holds c ∧ c.metadata.ns? = some "shop" ∧ c.isActive ∧
            ∀ o : Config, w.store.Holds o → o.metadata.ns? = some "shop" → o.isActive → o = c := by
  have hdenial : ((Config.reconcile default (.namespaced "shop" "a")).exec quiet
      contested).1.toOption = some (.denied "a" "b") := by decide +kernel
  obtain ⟨hdenied, -⟩ := exclusive_of_reached numberedUid_injective numberedUid_ne_empty
    reached_denied
  obtain ⟨hvacated, hreconciles⟩ := exclusive_of_reached numberedUid_injective
    numberedUid_ne_empty reached_vacated
  refine ⟨numberedUid_injective, numberedUid_ne_empty, ⟨reached_denied, hdenied, hdenial⟩,
    reached_vacated, hvacated, ?_⟩
  obtain ⟨decision, w, hexec, hone⟩ := hreconciles quiet default "shop" "b" rfl
  obtain ⟨hconfig, hdecision⟩ := taken_over_of_vacated
  rw [hexec] at hdecision
  obtain rfl : decision = .deleted (some "a") := Option.some.inj hdecision
  exact ⟨w, hexec, hone hconfig⟩

end TenantAccess
