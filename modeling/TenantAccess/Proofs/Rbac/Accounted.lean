import TenantAccess.Proofs.Rbac.Ordered

/-!
# What a pass comes to

A pass over a namespace leaves every object of its tenants and inventories as ordered, unless there was
one before with other content and other owners.  Nothing else changes, the summary tells what was done,
and a second pass finds nothing left to do.
-/

namespace TenantAccess

open Json Store

namespace Order

variable {s after : Store} {now : Timestamp} {o : Order} {l : List Order}

/-- Something else is stored in place of what is ordered, and the owner of the order is none of its
owners. -/
def foreign (now : Timestamp) (s : Store) (o : Order) : Bool :=
  match s.found now o.desired with
  | none => false
  | some a =>
    o.content a ≠ o.content o.desired &&
      (Resource.metadata a).ownerReferences.all fun r ↦ r.uid ≠ o.uid

theorem foreign_iff (huid : o.uid ≠ "") : o.foreign now s = true ↔ o.outcome now s = .notOwned := by
  have hdiffers (a : o.α) :
      Derived.differs o.desired a = true ↔ o.content a ≠ o.content o.desired := by
    rw [← Bool.not_eq_false, Ne, o.differs_eq_false_iff]
  rw [outcome, verdict_eq_notOwned_iff, foreign]
  cases s.found now o.desired with
  | none => simp
  | some a => simp [hdiffers, isOwnedBy_eq_false_iff huid]

theorem foreign_eq_false_iff (huid : o.uid ≠ "") :
    o.foreign now s = false ↔ o.outcome now s ≠ .notOwned := by
  rw [← Bool.not_eq_true, foreign_iff huid]

theorem Settled.exists_of_foreign_eq_false (h : Settled now l s after) (ho : o ∈ l)
    (huid : o.uid ≠ "") (hours : o.foreign now s = false) :
    ∃ a, after.StoredFor now o.desired a ∧ o.content a = o.content o.desired := by
  have houtcome := h.outcome_eq o ho
  rw [if_neg ((foreign_eq_false_iff huid).1 hours)] at houtcome
  obtain ⟨a, ha, hsame⟩ := verdict_eq_unchanged_iff.1 houtcome
  exact ⟨a, (found_eq_some_iff h.readable.coherent).1 ha, (o.differs_eq_false_iff a).1 hsame⟩

theorem Settled.get?_of_foreign (h : Settled now l s after) (ho : o ∈ l) (huid : o.uid ≠ "")
    (hforeign : o.foreign now s) : after.objects.get? o.ref = s.objects.get? o.ref := by
  refine h.kept o ho ?_
  rw [pending, (foreign_iff huid).1 hforeign]
  rfl

theorem Settled.pending_eq_false (h : Settled now l s after) (ho : o ∈ l) :
    o.pending now after = false := by
  rw [pending, h.outcome_eq o ho]
  split <;> rfl

theorem count_outcome (now : Timestamp) (s : Store) (l : List Order) :
    let outcomes := l.map (outcome now s)
    outcomes.count .created + outcomes.count .updated + outcomes.count .unchanged +
        outcomes.count .notOwned = l.length ∧
      l.countP (pending now s) = outcomes.count .created + outcomes.count .updated := by
  induction l with
  | nil => exact ⟨rfl, rfl⟩
  | cons o rest ih =>
    dsimp only at ih ⊢
    rw [List.map_cons, List.length_cons, List.countP_cons, pending]
    obtain h | h | h | h := o.outcome_cases now s <;> rw [h] <;>
      simp [EnsureOutcome.isWrite] <;> omega

theorem count_notOwned (now : Timestamp) (s : Store) (huid : ∀ o ∈ l, o.uid ≠ "") :
    (l.map (outcome now s)).count .notOwned = l.countP (foreign now s) := by
  rw [List.count_eq_countP, List.countP_map]
  refine List.countP_congr fun o ho ↦ ?_
  rw [Function.comp_apply, beq_iff_eq, foreign_iff (huid o ho)]

theorem Settled.count_again (h : Settled now l s after) :
    let outcomes := l.map (outcome now s)
    let again := l.map (outcome now after)
    again.count .created = 0 ∧ again.count .updated = 0 ∧
      again.count .unchanged =
        outcomes.count .created + outcomes.count .updated + outcomes.count .unchanged ∧
      again.count .notOwned = outcomes.count .notOwned := by
  dsimp only
  rw [List.map_congr_left h.outcome_eq]
  clear h
  induction l with
  | nil => exact ⟨rfl, rfl, rfl, rfl⟩
  | cons o rest ih =>
    simp only [List.map_cons]
    obtain h | h | h | h := o.outcome_cases now s <;> rw [h] <;> simp <;> omega

end Order

theorem uid_ne_empty_of_mem_ordersIn {s : Store} {now : Timestamp} {ns : String}
    {reviewer : Reviewer} {o : Order} (h : s.Coherent) (hnamed : s.Named)
    (ho : o ∈ s.ordersIn reviewer now ns) : o.uid ≠ "" := by
  have hpair {ω : Type} [Resource ω] {scope : Scope} {role : ω → Role scope}
      {binding : ω → Binding scope} {owner : ω} (ho : o ∈ Order.pair role binding owner) :
      o.uid = (Resource.metadata owner).uid := by
    rcases List.mem_cons.1 ho with rfl | ho
    · rfl
    · rw [List.mem_singleton.1 ho]
      rfl
  rcases List.mem_append.1 ho with ho | ho
  · obtain ⟨t, ht, ho⟩ := List.mem_flatMap.1 ho
    rw [hpair ho]
    exact h.uid_ne_empty hnamed ((mem_objectsOf_iff h).1 (List.mem_filter.1 ht).1).1
  · obtain ⟨i, hi, ho⟩ := List.mem_flatMap.1 ho
    rw [hpair ho]
    exact h.uid_ne_empty hnamed ((mem_objectsOf_iff h).1 ((sublist_scopeIn s now ns).subset hi)).1

namespace Pass

variable {w w' : World} {now : Timestamp} {ns : String}

/-- What a pass over `ns` that ends with `summary` has made of the store `before`. -/
structure Accounted (reviewer : Reviewer) (now : Timestamp) (ns : String) (before : Store)
    (summary : PassSummary) (after : Store) : Prop where
  tenants : summary.tenants = (before.claimants now ns).length
  inventories : summary.inventories = (before.scopeIn now ns).length
  /-- What is ordered is stored, unless something foreign was there, which stays. -/
  ensured : ∀ o ∈ before.ordersIn reviewer now ns,
    if o.foreign now before then after.objects.get? o.ref = before.objects.get? o.ref
    else ∃ a, after.StoredFor now o.desired a ∧ o.content a = o.content o.desired
  notOwned : summary.notOwned = (before.ordersIn reviewer now ns).countP (Order.foreign now before)
  others : ∀ ref, (∀ o ∈ before.ordersIn reviewer now ns, o.ref ≠ ref) →
    after.objects.get? ref = before.objects.get? ref
  writes : after.writes = before.writes + (summary.created + summary.updated)
  rejected : summary.rejected = 0
  total : summary.created + summary.updated + summary.unchanged + summary.notOwned =
    2 * (summary.tenants + summary.inventories)

theorem counts_foldl_record (l : List EnsureOutcome) (s : PassSummary) :
    (l.foldl PassSummary.record s).counts = l.foldl PassSummary.record s.counts := by
  induction l generalizing s with
  | nil => rfl
  | cons o rest ih => rw [List.foldl_cons, ih, PassSummary.counts_record, List.foldl_cons]

theorem counts_eq (now : Timestamp) (s : Store) (l : List Order) {summary first : PassSummary}
    {tenants inventories : Nat}
    (hfirst : first.counts = { namespaceName := ns, tenants, inventories })
    (hsummary : (l.map (Order.outcome now s)).foldl PassSummary.record first = summary) :
    summary.counts = {
      namespaceName := ns, tenants, inventories
      created := (l.map (Order.outcome now s)).count .created
      updated := (l.map (Order.outcome now s)).count .updated
      unchanged := (l.map (Order.outcome now s)).count .unchanged
      notOwned := (l.map (Order.outcome now s)).count .notOwned } := by
  have hfine (outcome : EnsureOutcome) (hmem : outcome ∈ l.map (Order.outcome now s))
      (verbs : List String) : outcome ≠ .rejected verbs := by
    obtain ⟨o, -, rfl⟩ := List.mem_map.1 hmem
    obtain h | h | h | h := o.outcome_cases now s <;> rw [h] <;> nofun
  rw [← hsummary, counts_foldl_record, hfirst, PassSummary.foldl_record hfine]
  simp

/-- A pass over a readable store settles its orders, and its summary accounts for them. -/
theorem exec_run_accounted (h : w.store.Readable now) (hnamed : w.store.Named) (env : Surroundings)
    (ns : String) : ∃ summary w', (run now ns).exec env w = (.ok summary, w') ∧
      Order.Settled now (w.store.ordersIn env.reviewer now ns) w.store w'.store ∧
      Accounted env.reviewer now ns w.store summary w'.store := by
  obtain ⟨first, claims, reviews, hfirst, hexec⟩ := exec_run_ordered h env ns
  have hsettled := Order.settled_foldl h env
    (fun _ ↦ valid_of_mem_ordersIn h.coherent) (distinct_ordersIn h.coherent env.reviewer now ns)
  have huid (o : Order) (ho : o ∈ w.store.ordersIn env.reviewer now ns) : o.uid ≠ "" :=
    uid_ne_empty_of_mem_ordersIn h.coherent hnamed ho
  have hlength := length_orders (w.store.claimants now ns) (w.store.scopeIn now ns)
    (reviewedAccess env.reviewer ns)
  rw [← Store.ordersIn] at hlength
  refine ⟨_, _, hexec, hsettled, ?_⟩
  have hcounts := counts_eq now w.store (w.store.ordersIn env.reviewer now ns) hfirst rfl
  obtain ⟨htotal, hpending⟩ :=
    Order.count_outcome now w.store (w.store.ordersIn env.reviewer now ns)
  have hnotOwned := Order.count_notOwned now w.store huid
  generalize (w.store.ordersIn env.reviewer now ns).map (Order.outcome now w.store) = outcomes at *
  generalize outcomes.foldl PassSummary.record first = summary at *
  generalize (w.store.ordersIn env.reviewer now ns).foldl (Order.settle env now) w.store = after at *
  have htenants : summary.tenants = (w.store.claimants now ns).length :=
    congrArg PassSummary.tenants hcounts
  have hinventories : summary.inventories = (w.store.scopeIn now ns).length :=
    congrArg PassSummary.inventories hcounts
  have hcreated : summary.created = outcomes.count .created := congrArg PassSummary.created hcounts
  have hupdated : summary.updated = outcomes.count .updated := congrArg PassSummary.updated hcounts
  have hunchanged : summary.unchanged = outcomes.count .unchanged :=
    congrArg PassSummary.unchanged hcounts
  have hforeign : summary.notOwned = outcomes.count .notOwned :=
    congrArg PassSummary.notOwned hcounts
  constructor
  case tenants => exact htenants
  case inventories => exact hinventories
  case ensured =>
    intro o ho
    split
    · next hforeign => exact hsettled.get?_of_foreign ho (huid o ho) hforeign
    · next hours =>
      exact hsettled.exists_of_foreign_eq_false ho (huid o ho) (Bool.eq_false_iff.2 hours)
  case notOwned => rw [hforeign, hnotOwned]
  case others =>
    intro ref hout
    refine hsettled.frame ref fun hmem ↦ ?_
    obtain ⟨o, ho, href⟩ := List.mem_map.1 hmem
    exact hout o ho href
  case writes => rw [hsettled.writes, hpending, hcreated, hupdated]
  case rejected => exact congrArg PassSummary.rejected hcounts
  case total => rw [hcreated, hupdated, hunchanged, hforeign, htotal, hlength, htenants, hinventories]

theorem exec_run_again (h : w.store.Readable now) {env env' : Surroundings}
    (hreviewer : env'.reviewer = env.reviewer) {summary : PassSummary}
    (hexec : (run now ns).exec env w = (.ok summary, w')) (later : Timestamp) :
    ∃ again w'', (run later ns).exec env' w' = (.ok again, w'') ∧ w''.store = w'.store ∧
      again.counts = { summary.counts with
        created := 0, updated := 0
        unchanged := summary.created + summary.updated + summary.unchanged } := by
  obtain ⟨first, claims, reviews, hfirst, hrun⟩ := exec_run_ordered h env ns
  have hsettled := Order.settled_foldl h env
    (fun _ ↦ valid_of_mem_ordersIn h.coherent) (distinct_ordersIn h.coherent env.reviewer now ns)
  rw [hrun] at hexec
  cases hexec
  obtain ⟨hclaimants, hscope, horders⟩ := hsettled.ordersIn_eq fun _ ho ↦ ho
  have hcounts := counts_eq now w.store (w.store.ordersIn env.reviewer now ns) hfirst rfl
  obtain ⟨hcreated, hupdated, hunchanged, hnotOwned⟩ := hsettled.count_again
  generalize (w.store.ordersIn env.reviewer now ns).foldl (Order.settle env now) w.store = after at *
  obtain ⟨first', claims', reviews', hfirst', hrun'⟩ := exec_run_ordered
    (w := { store := after, claims, reviews }) hsettled.readable env' ns
  dsimp only at hfirst' hrun'
  rw [hclaimants, hscope] at hfirst'
  rw [hreviewer, horders] at hrun'
  have hcounts' := counts_eq now after (w.store.ordersIn env.reviewer now ns) hfirst' rfl
  refine ⟨_, _, (exec_run_at hsettled.readable env' later ns).trans hrun', ?_, ?_⟩
  · exact (Order.settled_foldl hsettled.readable env'
      (fun _ ↦ valid_of_mem_ordersIn h.coherent) (distinct_ordersIn h.coherent ..)).idle
      fun _ ↦ hsettled.pending_eq_false
  · generalize (w.store.ordersIn env.reviewer now ns).map (Order.outcome now w.store) = outcomes at *
    generalize (w.store.ordersIn env.reviewer now ns).map (Order.outcome now after) = again at *
    generalize outcomes.foldl PassSummary.record first = summary at *
    have hcounted : summary.created + summary.updated + summary.unchanged =
        again.count .unchanged := by
      rw [hunchanged]
      exact congrArg (fun s : PassSummary ↦ s.created + s.updated + s.unchanged) hcounts
    rw [hcounts', hcounts, hcreated, hupdated, hnotOwned, hcounted]

/-- Whatever was asked of the store before, if its tenants, inventories, roles and bindings can be read,
a pass over any namespace succeeds and its summary accounts for what it made of the store.  A second
pass, at any time, writes nothing and reports the same objects. -/
theorem run_accounted (calls : List Call) {now : Timestamp}
    (h : (World.after {} calls).store.Readable now) (env : Surroundings) (ns : String) :
    let w := World.after {} calls
    ∃ summary w', (run now ns).exec env w = (.ok summary, w') ∧
      Accounted env.reviewer now ns w.store summary w'.store ∧
      ∀ (env' : Surroundings) (later : Timestamp), env'.reviewer = env.reviewer →
        ∃ again w'', (run later ns).exec env' w' = (.ok again, w'') ∧ w''.store = w'.store ∧
          again.counts = { summary.counts with
            created := 0, updated := 0
            unchanged := summary.created + summary.updated + summary.unchanged } := by
  intro w
  obtain ⟨summary, w', hexec, -, haccounted⟩ :=
    exec_run_accounted h (World.regular_after regular_empty calls).named env ns
  exact ⟨summary, w', hexec, haccounted, fun env' later hreviewer ↦
    exec_run_again h hreviewer hexec later⟩

end Pass

theorem World.readable_call_creating {w : World} {now : Timestamp} (kind : Kind)
    (h : w.store.Readable now) (o : kind.Object) : (w.call (.creating o)).store.Readable now := by
  refine ⟨coherent_perform _ _ h.coherent, fun ref object hconfig hquota hget ↦ ?_⟩
  rcases get?_call_creating hget with hbefore | ⟨hkind, b, rfl⟩
  · exact h.decodes ref object hconfig hquota hbefore
  · rw [kind.kind_object] at hkind
    subst hkind
    exact ⟨b, Resource.decode_encode b⟩

/-- A tenant claims a namespace with an inventory, whose role is there already and is a stranger's. -/
theorem Pass.run_accounted_beside_stranger :
    let team : Tenant := ⟨{ ObjectMeta.cluster "team" with uid := "team" }, "shop", .of ["ann"] []⟩
    let db : Inventory := { metadata := { ObjectMeta.namespaced "shop" "db" with uid := "db" } }
    let stranger : Role .namespaced := { db.viewerRole with rules := [] }
    let w := World.after {} [.creating team, .creating db, .creating stranger]
    ∃ summary w', (run default "shop").exec quiet w = (.ok summary, w') ∧
      summary.notOwned = 1 ∧ summary.created + summary.updated + summary.unchanged = 3 ∧
      Accounted quiet.reviewer default "shop" w.store summary w'.store := by
  intro team db stranger w
  have hempty : (World.store {}).Readable default := readable_of_derivation derivation_empty _
  have hreadable : w.store.Readable default :=
    World.readable_call_creating .role (World.readable_call_creating .inventory
      (World.readable_call_creating .tenant hempty team) db) stranger
  obtain ⟨summary, w', hexec, haccounted, -⟩ := run_accounted _ hreadable quiet "shop"
  have hforeign : summary.notOwned = 1 := haccounted.notOwned.trans (by decide +kernel)
  have htenants : summary.tenants = 1 := haccounted.tenants.trans (by decide +kernel)
  have hinventories : summary.inventories = 1 := haccounted.inventories.trans (by decide +kernel)
  have htotal := haccounted.total
  exact ⟨summary, w', hexec, hforeign, by omega, haccounted⟩

end TenantAccess
