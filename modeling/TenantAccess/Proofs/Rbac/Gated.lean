import Mathlib.Logic.Relation
import TenantAccess.Proofs.Program.Asks
import TenantAccess.Proofs.Rbac.Pass
import TenantAccess.Proofs.Rbac.Steps

/-!
# No role gets past the gate

Nothing writes roles but `ensure`, and it writes only what the safety gate lets through.  So however
long things go on, and whatever a store holds to begin with, each role that allows more than reading
single objects has been there from the beginning.
-/

namespace TenantAccess

open Store Relation

/-! ## What the gate looks for -/

section Gate

variable {scope : Scope} {r : Role scope}

def Role.Harmless (r : Role scope) : Prop :=
  ∀ rule ∈ r.rules, ∀ verb ∈ rule.verbs,
    verb ∉ ["create", "patch", "update", "delete", "list", "*"]

theorem mem_gate_role_iff {verb : String} : verb ∈ gate r ↔
    verb ∈ ["create", "patch", "update", "delete", "list", "*"] ∧
      ∃ rule ∈ r.rules, verb ∈ rule.verbs := by
  change verb ∈ forbiddenVerbs r.rules ↔ _
  simp [forbiddenVerbs, gatedVerbs]

theorem Role.harmless_iff_gate : r.Harmless ↔ gate r = [] := by
  rw [List.eq_nil_iff_forall_not_mem]
  constructor
  · intro h verb hverb
    obtain ⟨hgated, rule, hrule, hmem⟩ := mem_gate_role_iff.1 hverb
    exact h rule hrule verb hmem hgated
  · intro h rule hrule verb hmem hgated
    exact h verb (mem_gate_role_iff.2 ⟨hgated, rule, hrule, hmem⟩)

end Gate

/-! ## Stores through which only harmless roles come -/

/-- No role that can be read has a verb that the gate looks for. -/
def Store.Gated (s : Store) : Prop :=
  ∀ (scope : Scope) key object (r : Role scope),
    s.objects.get? ⟨scope.roleKind, key⟩ = some object → Role.decode Json.strict object = some r →
      r.Harmless

/-- Each role in `after` was in `s` already, or is harmless and written out in full. -/
def Store.Sifted (s after : Store) : Prop :=
  ∀ (scope : Scope) key object, after.objects.get? ⟨scope.roleKind, key⟩ = some object →
    s.objects.get? ⟨scope.roleKind, key⟩ = some object ∨
      ∃ r : Role scope, object = r.encode ∧ r.Harmless

section Sifted

variable {s middle after : Store}

theorem Store.sifted_refl (s : Store) : s.Sifted s := fun _ _ _ hget ↦ .inl hget

theorem Store.Sifted.trans (h : s.Sifted middle) (h' : middle.Sifted after) : s.Sifted after := by
  intro scope key object hget
  rcases h' scope key object hget with hbefore | hnew
  · exact h scope key object hbefore
  · exact .inr hnew

theorem Store.Sifted.gated (h : s.Sifted after) (hs : s.Gated) : after.Gated := by
  intro scope key object r hget hdecode
  rcases h scope key object hget with hbefore | ⟨r', rfl, hharmless⟩
  · exact hs scope key object r hbefore hdecode
  · rw [Role.inverts.decode_encode r'] at hdecode
    cases hdecode
    exact hharmless

end Sifted

/-! ## Requests that get past the gate -/

def Request.Passes : Request → Prop
  | create kind object | update kind object =>
    ∀ scope : Scope, kind = scope.roleKind → ∃ r : Role scope, object = r.encode ∧ r.Harmless
  | get _ | list .. | delete _ | review _ | claims | publish _ => True

theorem Store.sifted_written (s : Store) {kind : Kind} {object : Json}
    (h : ∀ scope : Scope, kind = scope.roleKind → ∃ r : Role scope, object = r.encode ∧ r.Harmless)
    (type : EventType) (m : ObjectMeta) (issued : Nat) :
    s.Sifted (s.written type kind m (withMeta object m) issued) := by
  intro scope key object' hget
  rw [get?_written] at hget
  split at hget
  · next href =>
    cases hget
    obtain ⟨r, rfl, hharmless⟩ := h scope (congrArg ObjectRef.kind href).symm
    exact .inr ⟨{ r with metadata := m }, withMeta_encode r m, hharmless⟩
  · exact .inl hget

theorem Request.Passes.sifted (env : Surroundings) (w : World) {r : Request} (h : r.Passes) :
    w.store.Sifted (r.perform env w).2.store := by
  cases r with
  | create kind object =>
    change w.store.Sifted (Store.create env.ambient kind object w.store).2
    rcases create_cases env.ambient kind object w.store with ⟨e, he⟩ | ⟨m, -, -, heq⟩
    · rw [he]
      exact sifted_refl _
    · rw [heq]
      exact sifted_written _ h _ _ _
  | update kind object =>
    change w.store.Sifted (Store.update kind object w.store).2
    rcases update_cases kind object w.store with ⟨e, he⟩ | ⟨m, current, c, -, -, -, -, heq⟩
    · rw [he]
      exact sifted_refl _
    · rw [heq]
      exact sifted_written _ h _ _ _
  | delete ref => exact fun scope key object hget ↦ .inl (get?_of_delete hget)
  | get | list | review | claims | publish => exact sifted_refl _

theorem Task.Asks.sifted {α : Type} {t : Task α} (h : t.Asks Request.AnyReply Request.Passes)
    (env : Surroundings) (w : World) : w.store.Sifted (t.exec env w).2.store :=
  Program.Asks.run (R := fun w w' ↦ w.store.Sifted w'.store) (fun w ↦ sifted_refl w.store)
    Sifted.trans (fun _ w hr ↦ hr.sifted env w) h w

/-! ## What `ensure`, a pass and a reconcile ask -/

section Asks

variable {A : (r : Request) → r.Reply → Prop} {P : Request → Prop}

/-- Reading goes unhindered, and what is written has passed the gate. -/
theorem asks_ensure {α ω : Type} [Derived α] [Resource ω] {desired : α} {owner : ω}
    (now : Timestamp) (hget : P (.get ⟨Resource.kind α, Resource.key desired⟩))
    (hcreate : gate desired = [] →
      P (.create (Resource.kind α) (Resource.encode (ownedBy owner desired))))
    (hupdate : gate desired = [] → ∀ observed : α,
      P (.update (Resource.kind α) (Resource.encode (Derived.apply desired observed)))) :
    (ensure now desired owner).Asks A P := by
  by_cases hgate : gate desired = []
  · rw [ensure_eq now owner hgate]
    refine (Task.asks_find? hget).bind fun o ↦ ?_
    cases o with
    | none => exact (Task.asks_create (hcreate hgate)).bind fun _ ↦ Task.asks_pure _
    | some observed =>
      dsimp only
      split
      · exact Task.asks_pure _
      · split
        · exact Task.asks_pure _
        · exact (Task.asks_update (hupdate hgate observed)).bind fun _ ↦ Task.asks_pure _
  · unfold ensure
    rw [if_pos hgate]
    exact Task.asks_pure _

theorem asks_ensure_role {scope : Scope} {ω : Type} [Resource ω] (now : Timestamp)
    (desired : Role scope) (owner : ω) : (ensure now desired owner).Asks A Request.Passes := by
  -- what is written has the rules of the desired role
  have hpasses {r : Role scope} (hgate : gate desired = []) (hrules : r.rules = desired.rules) :
      ∀ scope' : Scope, scope.roleKind = scope'.roleKind →
        ∃ r' : Role scope', r.encode = r'.encode ∧ r'.Harmless := by
    intro scope' hkind
    obtain rfl : scope = scope' := by
      cases scope <;> cases scope' <;> first | rfl | cases hkind
    refine ⟨r, rfl, ?_⟩
    rw [Role.Harmless, hrules]
    exact Role.harmless_iff_gate.2 hgate
  exact asks_ensure now trivial (fun hgate ↦ hpasses hgate rfl) fun hgate _ ↦ hpasses hgate rfl

theorem Request.passes_of_kind {kind : Kind} (hkind : ∀ scope : Scope, kind ≠ scope.roleKind)
    (object : Json) : (create kind object).Passes ∧ (update kind object).Passes :=
  ⟨fun scope heq ↦ absurd heq (hkind scope), fun scope heq ↦ absurd heq (hkind scope)⟩

theorem asks_ensure_binding {scope : Scope} {ω : Type} [Resource ω] (now : Timestamp)
    (desired : Binding scope) (owner : ω) : (ensure now desired owner).Asks A Request.Passes := by
  have hkind : ∀ scope' : Scope, Resource.kind (Binding scope) ≠ scope'.roleKind := by
    intro scope'
    cases scope <;> cases scope' <;> exact nofun
  exact asks_ensure now trivial (fun _ ↦ (Request.passes_of_kind hkind _).1)
    fun _ _ ↦ (Request.passes_of_kind hkind _).2

theorem asks_ensurePairs {α β ω : Type} [Derived α] [Derived β] [Resource ω] {role : ω → α}
    {binding : ω → β} {now : Timestamp} (hrole : ∀ o, (ensure now (role o) o).Asks A P)
    (hbinding : ∀ o, (ensure now (binding o) o).Asks A P) (l : List ω) (summary : PassSummary) :
    (Derivation.ensurePairs now role binding l summary).Asks A P := by
  induction l generalizing summary with
  | nil => exact Task.asks_pure _
  | cons o rest ih => exact (hrole o).bind fun _ ↦ (hbinding o).bind fun _ ↦ ih _

namespace Pass

theorem asks_reviewOrEmpty {action : ReviewAction} (h : P (.review action)) :
    (reviewOrEmpty action).Asks A P :=
  (Task.asks_ask h).bind fun reply ↦ by cases reply <;> exact Task.asks_pure _

theorem asks_reviewed (ns : String) (h : ∀ action, P (.review action)) :
    (reviewed ns).Asks A P := by
  have hadmin : (serviceAdmin ns).Asks A P := by
    refine (asks_reviewOrEmpty (h _)).bind fun inventories ↦ ?_
    split
    · exact Task.asks_pure _
    · exact (asks_reviewOrEmpty (h _)).bind fun _ ↦ Task.asks_pure _
  exact hadmin.bind fun _ ↦ (asks_reviewOrEmpty (h _)).bind fun _ ↦
    (asks_reviewOrEmpty (h _)).bind fun _ ↦ Task.asks_pure _

theorem asks_bring {now : Timestamp} {ns : String} (hget : ∀ ref, P (.get ref))
    (hreview : ∀ action, P (.review action))
    (hrole : ∀ {scope : Scope} {ω : Type} [Resource ω] (desired : Role scope) (owner : ω),
      (ensure now desired owner).Asks A P)
    (hbinding : ∀ {scope : Scope} {ω : Type} [Resource ω] (desired : Binding scope) (owner : ω),
      (ensure now desired owner).Asks A P)
    (tenants : List Tenant) (listed : List Inventory) (summary : PassSummary) :
    (bring now ns tenants listed summary).Asks A P := by
  have hinventories (l : List Inventory) (summary : PassSummary) :
      (ensureInventories now tenants l summary).Asks A P := by
    rw [Derivation.ensureInventories_eq]
    exact asks_ensurePairs (fun i ↦ hrole _ i) (fun i ↦ hbinding _ i) l summary
  have htenants (inputs : ReviewedAccess) (summary : PassSummary) :
      (ensureTenants now listed inputs tenants summary).Asks A P := by
    rw [Derivation.ensureTenants_eq]
    exact asks_ensurePairs (fun t ↦ hrole _ t) (fun t ↦ hbinding _ t) tenants summary
  unfold bring
  split
  · exact (asks_bound now hget listed).bind fun _ ↦ hinventories ..
  · exact (asks_reviewed ns hreview).bind fun _ ↦ (htenants ..).bind fun _ ↦ hinventories ..

theorem asks_run (now : Timestamp) (ns : String) : (run now ns).Asks A Request.Passes := by
  rw [run_eq]
  have hrefresh : (refresh now).Asks A Request.Passes :=
    asks_refresh now (fun _ _ ↦ trivial) fun _ ↦ trivial
  exact (Task.asks_ask trivial).bind fun _ ↦ hrefresh.bind fun _ ↦
    (Task.asks_list trivial).bind fun _ ↦ asks_bring (fun _ ↦ trivial) (fun _ ↦ trivial)
      (asks_ensure_role now) (asks_ensure_binding now) ..

end Pass

theorem Config.Touches.passes {r : Request} (h : Config.Touches r) : r.Passes := by
  have hkind {kind : Kind} (h : kind = .config ∨ kind = .resourceQuota) (scope : Scope) :
      kind ≠ scope.roleKind := by
    rcases h with rfl | rfl <;> cases scope <;> exact nofun
  cases r with
  | create kind object => exact (Request.passes_of_kind (hkind h) object).1
  | update kind object => exact (Request.passes_of_kind (hkind h) object).2
  | get | list | delete | review | claims | publish => trivial

end Asks

/-! ## Runs -/

/-- What may happen next.  Each step has its own time and its own reviewer, and may come to nothing;
documents of other kinds, and the owners of roles and bindings, may be of any shape. -/
inductive Gate.Step (w : World) : World → Prop
  | role (env : Surroundings) (now : Timestamp) {scope : Scope} {ω : Type} [Resource ω]
    (desired : Role scope) (owner : ω) : Step w ((ensure now desired owner).exec env w).2
  | binding (env : Surroundings) (now : Timestamp) {scope : Scope} {ω : Type} [Resource ω]
    (desired : Binding scope) (owner : ω) : Step w ((ensure now desired owner).exec env w).2
  | pass (env : Surroundings) (now : Timestamp) (ns : String) :
    Step w ((Pass.run now ns).exec env w).2
  | config (env : Surroundings) (now : Timestamp) (key : ObjectKey) :
    Step w ((Config.reconcile now key).exec env w).2
  | create (env : Surroundings) (kind : Kind) (hkind : ∀ scope : Scope, kind ≠ scope.roleKind)
    (object : Json) : Step w ((Request.create kind object).perform env w).2
  | update (env : Surroundings) (kind : Kind) (hkind : ∀ scope : Scope, kind ≠ scope.roleKind)
    (object : Json) : Step w ((Request.update kind object).perform env w).2
  | delete (env : Surroundings) (ref : ObjectRef) :
    Step w ((Request.delete ref).perform env w).2

theorem Gate.Step.sifted {w w' : World} (h : Gate.Step w w') : w.store.Sifted w'.store := by
  cases h with
  | role env now desired owner => exact (asks_ensure_role now desired owner).sifted env w
  | binding env now desired owner => exact (asks_ensure_binding now desired owner).sifted env w
  | pass env now ns => exact (Pass.asks_run now ns).sifted env w
  | config env now key =>
    exact Program.Asks.run (R := fun w w' ↦ w.store.Sifted w'.store)
      (fun w ↦ sifted_refl w.store) Sifted.trans (fun _ w hr ↦ hr.passes.sifted env w)
      (Config.asks_reconcile now key) w
  | create env kind hkind object => exact (Request.passes_of_kind hkind object).1.sifted env w
  | update env kind hkind object => exact (Request.passes_of_kind hkind object).2.sifted env w
  | delete env ref => exact Request.Passes.sifted env w trivial

theorem Gate.sifted_of_run {w w' : World} (h : ReflTransGen Gate.Step w w') :
    w.store.Sifted w'.store := by
  induction h with
  | refl => exact sifted_refl w.store
  | tail _ hstep ih => exact ih.trans hstep.sifted

/-- If no stored role has a verb that the gate looks for, none ever will: each is one from the
beginning or a harmless one.  To ensure a role with such verbs is refused with a list of them, and
changes nothing. -/
theorem roles_stay_harmless {w w' : World} (hrun : ReflTransGen Gate.Step w w')
    (h : w.store.Gated) :
    w'.store.Gated ∧ w.store.Sifted w'.store ∧
    ∀ (scope : Scope) (ω : Type) [Resource ω] (env : Surroundings) (now : Timestamp)
      (desired : Role scope) (owner : ω), ¬desired.Harmless →
      ∃ verbs, (ensure now desired owner).exec env w' = (.ok (.rejected verbs), w') ∧
        verbs.Sublist ["create", "patch", "update", "delete", "list", "*"] ∧
        ∀ verb, verb ∈ verbs ↔
          verb ∈ ["create", "patch", "update", "delete", "list", "*"] ∧
            ∃ rule ∈ desired.rules, verb ∈ rule.verbs := by
  have hsifted := Gate.sifted_of_run hrun
  refine ⟨hsifted.gated h, hsifted, fun scope ω _ env now desired owner hharmful ↦ ?_⟩
  have hgate : gate desired ≠ [] := fun hgate ↦ hharmful (Role.harmless_iff_gate.2 hgate)
  refine ⟨gate desired, ?_, List.filter_sublist, fun verb ↦ mem_gate_role_iff⟩
  unfold ensure
  rw [if_pos hgate]
  rfl

/-- A role is there already when its owner's namespace is visited. -/
theorem roles_stay_harmless_around_visit :
    let reader : Role .cluster := ⟨.cluster "reader", [viewerRule "dbaastenants" "team"]⟩
    let writer : Role .cluster := { reader with rules := [⟨[], [], [], ["list", "get", "create"]⟩] }
    let start := ((Request.create .clusterRole reader.encode).perform quiet {}).2
    let owner := Tenant.new "team" "shop"
    let claimed := ((Request.create .tenant owner.encode).perform quiet start).2
    let passed := ((Pass.run default "shop").exec quiet claimed).2
    ReflTransGen Gate.Step start passed ∧ start.store.Gated ∧ ¬writer.Harmless ∧
      passed.store.Gated ∧ ∃ verbs, (ensure default writer owner).exec quiet passed =
        (.ok (.rejected verbs), passed) ∧ "create" ∈ verbs ∧ "list" ∈ verbs := by
  intro reader writer start owner claimed passed
  have hempty : Store.empty.Gated := fun _ _ _ _ hget ↦ by cases hget
  have hreader : (Request.create .clusterRole reader.encode).Passes := by
    intro scope hkind
    cases scope with
    | namespaced => cases hkind
    | cluster => exact ⟨reader, rfl, Role.harmless_iff_gate.2 rfl⟩
  have hstart : start.store.Gated := (hreader.sifted quiet {}).gated hempty
  have hwriter : ¬writer.Harmless := fun h ↦ by
    have hgate : gate writer = ["create", "list"] := by decide
    rw [Role.harmless_iff_gate, hgate] at h
    cases h
  have hrun : ReflTransGen Gate.Step start passed := (ReflTransGen.single
    (.create quiet .tenant (fun scope ↦ by cases scope <;> exact nofun) _)).tail
    (.pass quiet default "shop")
  obtain ⟨hgated, -, hrefused⟩ := roles_stay_harmless hrun hstart
  obtain ⟨verbs, hexec, -, hverbs⟩ :=
    hrefused .cluster Tenant quiet default writer owner hwriter
  refine ⟨hrun, hstart, hwriter, hgated, verbs, hexec, ?_, ?_⟩
  · exact (hverbs "create").2 (by decide)
  · exact (hverbs "list").2 (by decide)

end TenantAccess
