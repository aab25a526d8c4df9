import TenantAccess.Proofs.Selection.Visit

/-!
# One round of reconciles settles a namespace

From any statuses and any leftover quotas, reconciling each config of a namespace, in any order,
leaves one config active.  It is known from the start: no turn on the way denies it, and every turn
that denies another config names it.
-/

namespace TenantAccess

open Json Store

structure Reconciliation where
  name : String
  now : Timestamp
  env : Surroundings

/-- The configs are reconciled one after the other. -/
def tour (ns : String) : List Reconciliation → World → List (Except Error ConfigDecision) × World
  | [], w => ([], w)
  | v :: rest, w =>
    let (outcome, w') := (Config.reconcile v.now (.namespaced ns v.name)).exec v.env w
    let (outcomes, w'') := tour ns rest w'
    (outcome :: outcomes, w'')

/-- The configs of the namespace are visited, each of them, in some order. -/
def Covers (ns : String) (visits : List Reconciliation) (s : Store) : Prop :=
  ∀ name, name ∈ visits.map Reconciliation.name ↔ s.HasConfig ns name

theorem Covers.hasConfig {ns : String} {visits : List Reconciliation} {s : Store}
    (h : Covers ns visits s) {v : Reconciliation} (hv : v ∈ visits) : s.HasConfig ns v.name :=
  (h v.name).1 (List.mem_map_of_mem hv)

def outcomesUnder (leader : String) (visits : List Reconciliation) :
    List (Except Error ConfigDecision) :=
  visits.map fun v ↦ .ok (.under leader v.name)

/-- What a tour comes to where `leader` is to be the active config. -/
structure Toured (ns : String) (doomed : String → Prop) (leader : String)
    (visits : List Reconciliation) (before after : Store) : Prop where
  calm : Calm ns doomed leader after
  hasConfig_iff : ∀ name, after.HasConfig ns name ↔ before.HasConfig ns name
  settled : ∀ name, before.Settled ns leader name ∨ name ∈ visits.map Reconciliation.name →
    after.Settled ns leader name
  idle : (∀ v ∈ visits, before.Settled ns leader v.name) → after = before

section Tour

variable {ns leader : String} {doomed : String → Prop} {visits : List Reconciliation} {w : World}

theorem Visited.toured_cons {before middle after : Store} {v : Reconciliation}
    {rest : List Reconciliation} (h : Visited ns doomed leader v.name before middle)
    (hname : before.HasConfig ns v.name)
    (hrest : Toured ns doomed leader rest middle after) :
    Toured ns doomed leader (v :: rest) before after where
  calm := hrest.calm
  hasConfig_iff name := (hrest.hasConfig_iff name).trans (h.hasConfig_iff hname name)
  settled name hor := by
    apply hrest.settled
    rw [List.map_cons, List.mem_cons] at hor
    rcases hor with hbefore | rfl | hmem
    · exact .inl (h.settled_of hbefore)
    · exact .inl h.settled
    · exact .inr hmem
  idle hsettled := by
    have hmiddle := h.idle (hsettled v List.mem_cons_self)
    subst hmiddle
    exact hrest.idle fun v' hv' ↦ hsettled v' (List.mem_cons_of_mem _ hv')

theorem exec_tour (h : Calm ns doomed leader w.store)
    (hvisits : ∀ v ∈ visits, w.store.HasConfig ns v.name) (hfavours : w.store.Favours ns leader)
    (hled : ∀ v ∈ visits.head?, v.name = leader ∨ w.store.Active ns leader) :
    ∃ after, tour ns visits w = (outcomesUnder leader visits, w.withStore after) ∧
      Toured ns doomed leader visits w.store after := by
  induction visits generalizing w with
  | nil =>
    exact ⟨w.store, rfl, h, fun _ ↦ Iff.rfl, fun _ hor ↦ hor.resolve_right nofun, fun _ ↦ rfl⟩
  | cons v rest ih =>
    -- whoever is visited first, the leader is active for the rest of the tour
    have hname := hvisits v List.mem_cons_self
    obtain ⟨middle, hexec, hvisited⟩ :=
      h.exec_reconcile v.env v.now hname hfavours (hled v rfl)
    obtain ⟨hactive, hfavours'⟩ := hvisited.favours hfavours (hled v rfl)
    obtain ⟨after, htour, htoured⟩ := ih (w := w.withStore middle) hvisited.calm
      (fun v' hv' ↦ (hvisited.hasConfig_iff hname _).2 (hvisits v' (List.mem_cons_of_mem _ hv')))
      hfavours' fun _ _ ↦ .inr hactive
    refine ⟨after, ?_, hvisited.toured_cons hname htoured⟩
    rw [tour, hexec]
    dsimp only
    rw [htour]
    rfl

theorem active_iff_of_settled {s : Store}
    (hsettled : ∀ name, s.HasConfig ns name → s.Settled ns leader name)
    (hleader : s.HasConfig ns leader) (name : String) : s.Active ns name ↔ name = leader := by
  constructor
  · rintro ⟨now, c, hc, hactive⟩
    exact (hsettled name hc.hasConfig).active_iff.1 ⟨now, c, hc, hactive⟩
  · rintro rfl
    exact (hsettled name hleader).active_iff.2 rfl

theorem exec_tour_of_settled (h : Calm ns doomed leader w.store)
    (hsettled : ∀ name, w.store.HasConfig ns name → w.store.Settled ns leader name)
    (hleader : w.store.HasConfig ns leader) (hcovers : Covers ns visits w.store) :
    tour ns visits w = (outcomesUnder leader visits, w) := by
  have hactive := active_iff_of_settled hsettled hleader
  have hled : w.store.Active ns leader := (hactive leader).2 rfl
  have hfavours : w.store.Favours ns leader := by
    intro other hother
    rw [(hactive other).1 hother]
    exact ⟨hled, String.lt_irrefl _⟩
  obtain ⟨after, htour, htoured⟩ :=
    exec_tour h (fun _ ↦ hcovers.hasConfig) hfavours fun _ _ ↦ .inr hled
  have hafter : after = w.store := htoured.idle fun v hv ↦ hsettled v.name (hcovers.hasConfig hv)
  rw [htour, hafter]
  rfl

end Tour

/-- A store where the configs of `ns` and the quotas under their names can be read, identities belong
to one object each, and nothing is owned by a quota.  Every store that requests alone have written
is coherent. -/
structure Store.Unhindered (s : Store) (ns : String) : Prop where
  coherent : s.Coherent
  configs : ∀ name object, s.objects.get? ⟨.config, ⟨some ns, name⟩⟩ = some object →
    ∃ now c, Config.decode strict now object = some c
  quotas : ∀ name object, s.HasConfig ns name → s.objects.get? (quotaRef ns name) = some object →
    ∃ q : ResourceQuota, ResourceQuota.decode strict object = some q
  unowned : ∀ ref m quota q, quota.kind = .resourceQuota → s.HasMeta ref m → s.HasMeta quota q →
    m.isOwnedBy q.uid = false
  distinct : ∀ ref ref' m m', s.HasMeta ref m → s.HasMeta ref' m' → m.uid = m'.uid → ref = ref'

namespace Store.Unhindered

variable {s : Store} {ns : String}

theorem calm (h : s.Unhindered ns) (leader : String) :
    Calm ns (fun uid ↦ ∃ name m, s.HasMeta (quotaRef ns name) m ∧ m.uid = uid) leader s where
  coherent := h.coherent
  configs name hname later := by
    obtain ⟨object, hget⟩ := hname
    exact h.coherent.exists_hasConfigAs hget (h.configs name object hget) later
  quotas := h.quotas
  fated name m _ _ hm := ⟨name, m, hm, rfl⟩
  free ref m u hm hu := by
    obtain ⟨name, q, hq, rfl⟩ := hu
    exact h.unowned ref m _ q rfl hm hq
  spared m hm hu := by
    obtain ⟨name, q, hq, huid⟩ := hu
    cases congrArg ObjectRef.kind (h.distinct _ _ _ _ hq hm huid)

theorem exists_favoured (h : s.Unhindered ns) (first : String) :
    ∃ leader, s.Favours ns leader ∧ (first = leader ∨ s.Active ns leader) ∧
      (s.Active ns leader ∧ (∀ other, s.Active ns other → ¬other < leader) ∨
        (∀ other, ¬s.Active ns other) ∧ leader = first) := by
  have hlisted {other : String} (hactive : s.Active ns other) :
      ∃ o ∈ s.objectsOf Config default (.inNamespace ns), o.isActive ∧ o.metadata.name = other := by
    obtain ⟨now, c, hc, hcactive⟩ := hactive
    obtain ⟨o, ho, hsame⟩ := hc.at default
    have hname : o.metadata.name = other := congrArg ObjectKey.name ho.2
    exact ⟨o, (mem_objectsOf_config_iff h.coherent).2 (hname ▸ ho), hsame.trans hcactive, hname⟩
  cases hactive : Config.active? (s.objectsOf Config default (.inNamespace ns)) with
  | none =>
    have hnone (other : String) : ¬s.Active ns other := by
      intro hother
      obtain ⟨o, ho, hoactive, -⟩ := hlisted hother
      rw [Config.active?_eq_none_iff.1 hactive o ho] at hoactive
      cases hoactive
    exact ⟨first, favours_of_forall_not hnone first, .inl rfl, .inr ⟨hnone, rfl⟩⟩
  | some l =>
    obtain ⟨hl, hlactive⟩ := List.mem_filter.1 (mem_of_smallestBy hactive)
    have hleads : s.Active ns l.metadata.name :=
      ⟨default, l, (mem_objectsOf_config_iff h.coherent).1 hl, hlactive⟩
    have hleast (other : String) (hother : s.Active ns other) : ¬other < l.metadata.name := by
      obtain ⟨o, ho, hoactive, rfl⟩ := hlisted hother
      exact fun hlt ↦ not_lt_smallestBy hactive (List.mem_filter.2 ⟨ho, hoactive⟩)
        (compare_eq_lt_iff.2 hlt)
    exact ⟨_, fun other hother ↦ ⟨hleads, hleast other hother⟩, .inr hleads, .inl ⟨hleads, hleast⟩⟩

end Store.Unhindered

/-- How a tour of all configs ends that visits `first` first: with `leader` as the one active config,
and for good. -/
structure Converged (ns leader first : String) (before after : World) : Prop where
  /-- The first of the configs that were active, or the first that is visited if none was. -/
  elected : before.store.Active ns leader ∧
      (∀ other, before.store.Active ns other → ¬other < leader) ∨
    (∀ other, ¬before.store.Active ns other) ∧ leader = first
  hasConfig_iff : ∀ name, after.store.HasConfig ns name ↔ before.store.HasConfig ns name
  active_iff : ∀ name, after.store.Active ns name ↔ name = leader
  denied : ∀ name now, before.store.HasConfig ns name → name ≠ leader →
    ∃ c, after.store.HasConfigAs ns name now c ∧
      (∃ condition, Condition.find? "ReadyForProvisioning" c.conditions = some condition ∧
        condition.status = .false ∧ condition.reason = "ConfigNotReady" ∧
        condition.message = "Another active DBaaSConfig exists in this namespace - " ++ leader) ∧
      ∀ m, after.store.HasMeta (quotaRef ns name) m → m.isOwnedBy c.metadata.uid = false
  rests : ∀ visits, Covers ns visits before.store →
    tour ns visits after = (outcomesUnder leader visits, after)

theorem Store.Settled.exists_denied {s : Store} {ns leader name : String}
    (h : s.Settled ns leader name) (hne : name ≠ leader) (now : Timestamp) :
    ∃ c, s.HasConfigAs ns name now c ∧
      (∃ condition, Condition.find? readyCondition c.conditions = some condition ∧
        condition.content = (Config.notReadyNow now leader).content) ∧
      s.Released ns name c.metadata.uid := by
  obtain ⟨earlier, uid, hbears, harranged⟩ := h
  obtain ⟨c, hc, rfl, hsame⟩ := hbears.at now
  rw [Config.verdict, if_neg hne, Condition.changes_eq_false_iff, Option.map_eq_some_iff] at hsame
  rw [Arranged, if_neg hne] at harranged
  exact ⟨c, hc, hsame, harranged⟩

theorem exists_converged_of_covers {ns : String} {first : Reconciliation}
    {rest : List Reconciliation} {w : World} (h : w.store.Unhindered ns)
    (hcovers : Covers ns (first :: rest) w.store) :
    ∃ leader after, tour ns (first :: rest) w = (outcomesUnder leader (first :: rest), after) ∧
      Converged ns leader first.name w after := by
  obtain ⟨leader, hfavours, hled, helected⟩ := h.exists_favoured first.name
  have hleader : w.store.HasConfig ns leader := by
    rcases hled with rfl | ⟨now, c, hc, -⟩
    · exact hcovers.hasConfig List.mem_cons_self
    · exact hc.hasConfig
  -- the identities of the quotas that are there now are those that may have to go
  obtain ⟨after, htour, htoured⟩ := exec_tour (h.calm leader) (fun _ ↦ hcovers.hasConfig) hfavours
    fun v hv ↦ by cases hv; exact hled
  have hsame := htoured.hasConfig_iff
  have hsettled (name : String) (hname : after.HasConfig ns name) :
      after.Settled ns leader name :=
    htoured.settled name (.inr ((hcovers name).2 ((hsame name).1 hname)))
  refine ⟨leader, w.withStore after, htour, helected, hsame,
    active_iff_of_settled hsettled ((hsame leader).2 hleader), fun name now hname hne ↦ ?_,
    fun visits hvisits ↦ ?_⟩
  · obtain ⟨c, hc, ⟨condition, hfind, hcontent⟩, hreleased⟩ :=
      (hsettled name ((hsame name).2 hname)).exists_denied hne now
    obtain ⟨-, hstatus, hreason, hmessage⟩ := by simpa [Condition.content] using hcontent
    exact ⟨c, hc, ⟨condition, hfind, hstatus, hreason, hmessage⟩, hreleased⟩
  · exact exec_tour_of_settled (w := w.withStore after) htoured.calm hsettled
      ((hsame leader).2 hleader) fun name ↦ (hvisits name).trans (hsame name).symm

/-! ## A store of configs and their quotas -/

def Store.Stores (s : Store) (ref : ObjectRef) : Prop :=
  ∃ object, s.objects.get? ref = some object

def IsPlain (kind : Kind) (object : Json) : Prop :=
  (kind = .config ∧ ∃ c : Config, object = Resource.encode c) ∨
    kind = .resourceQuota ∧ ∃ q : ResourceQuota, object = Resource.encode q

/-- A store of nothing but configs and quotas that belong to configs. -/
structure Store.Plain (s : Store) : Prop where
  coherent : s.Coherent
  identified : s.Identified numberedUid
  plain : ∀ ref object, s.objects.get? ref = some object → IsPlain ref.kind object
  owned : ∀ ref m uid, s.HasMeta ref m → m.isOwnedBy uid →
    ∃ key owner, s.HasMeta ⟨.config, key⟩ owner ∧ owner.uid = uid

namespace Store.Plain

variable {s : Store} {α : Type} [Resource α] [Resource.Lawful α] {a : α} {ns name : String}

theorem unhindered (h : s.Plain) (ns : String) : s.Unhindered ns where
  coherent := h.coherent
  configs name object hget := by
    rcases h.plain _ object hget with ⟨-, c, rfl⟩ | ⟨hkind, -⟩
    · exact ⟨default, c, Resource.decode_encode c⟩
    · cases hkind
  quotas name object _ hget := by
    rcases h.plain _ object hget with ⟨hkind, -⟩ | ⟨-, q, rfl⟩
    · cases hkind
    · exact ⟨q, ResourceQuota.inverts.decode_encode q⟩
  unowned ref m quota q hkind hm hq := by
    cases howned : m.isOwnedBy q.uid with
    | false => rfl
    | true =>
      -- the owner is a config, and has its identity to itself
      obtain ⟨key, owner, howner, huid⟩ := h.owned ref m q.uid hm howned
      rw [← h.identified.distinct _ _ owner q howner hq huid] at hkind
      cases hkind
  distinct := h.identified.distinct

theorem empty : Store.empty.Plain where
  coherent := coherent_empty
  identified := {
    distinct := fun _ _ _ _ ⟨_, hget, _⟩ ↦ by cases hget
    unissued := fun _ _ _ ⟨_, hget, _⟩ ↦ by cases hget }
  plain _ _ hget := by cases hget
  owned _ _ _ := fun ⟨_, hget, _⟩ ↦ by cases hget

theorem not_stores_empty (ref : ObjectRef) : ¬Store.empty.Stores ref :=
  fun ⟨_, hget⟩ ↦ by cases hget

theorem exec_create {w : World} (h : w.store.Plain) (now : Timestamp)
    (hplain : ∀ a : α, IsPlain (Resource.kind α) (Resource.encode a))
    (hscope : scopeDefect (Resource.kind α) (Resource.metadata a) = none)
    (huid : (Resource.metadata a).uid = "")
    (howned : ∀ uid, (Resource.metadata a).isOwnedBy uid →
      ∃ key owner, w.store.HasMeta ⟨.config, key⟩ owner ∧ owner.uid = uid)
    (hnew : ¬w.store.Stores (Resource.ref a)) :
    ∃ after, ((Task.create now a).exec quiet w).2 = w.withStore after ∧ after.Plain ∧
      after.HasMeta (Resource.ref a) (stampNew quiet.ambient w.store (Resource.metadata a)) ∧
      after.issued = w.store.issued + 1 ∧
      ∀ ref, after.Stores ref ↔ ref = Resource.ref a ∨ w.store.Stores ref := by
  have hnone : w.store.objects.get? (Resource.ref a) = none :=
    Option.eq_none_iff_forall_ne_some.2 fun object hsome ↦ hnew ⟨object, hsome⟩
  have hget (ref : ObjectRef) := get?_recorded .added (asNew quiet.ambient w.store a)
    (w.store.issuedWith (Resource.metadata a)) ref (s := w.store)
  rw [ref_asNew] at hget
  refine ⟨_, congrArg Prod.snd (Task.exec_create hscope hnone), ⟨h.coherent.create hscope _,
    identified_create h.identified rfl numberedUid_injective (.inl huid),
    fun ref object hsome ↦ ?_, fun ref m uid hm hby ↦ ?_⟩, ⟨_, (hget _).trans (if_pos rfl), ?_⟩,
    ?_, fun ref ↦ ?_⟩
  · rw [hget] at hsome
    split at hsome
    · next href =>
      cases hsome
      rw [href]
      exact hplain _
    · exact h.plain ref object hsome
  · have hbefore : ∃ key owner, w.store.HasMeta ⟨.config, key⟩ owner ∧ owner.uid = uid := by
      rcases hasMeta_recorded_iff.1 hm with ⟨-, rfl⟩ | ⟨-, hm⟩
      · rw [metadata_asNew, isOwnedBy_congr rfl] at hby
        exact howned uid hby
      · exact h.owned ref m uid hm hby
    obtain ⟨key, owner, ⟨object, hsome, howner⟩, huid⟩ := hbefore
    refine ⟨key, owner, ⟨object, ?_, howner⟩, huid⟩
    rw [hget, if_neg]
    · exact hsome
    · rintro heq
      rw [heq, hnone] at hsome
      cases hsome
  · rw [← metadata_asNew]
    exact metaOf_encode _ _
  · rw [issued_recorded, issuedWith, if_pos huid]
  · rw [Stores, hget]
    by_cases href : ref = Resource.ref a <;> simp [href, Stores]

end Store.Plain

def leftActive (name : String) : Config where
  metadata := .namespaced "shop" name
  conditions := [Config.readyNow default]

def leftQuota : ResourceQuota :=
  Config.desiredQuota { leftActive "b" with metadata.uid := numberedUid 1 }

/-- Two configs are there, both active, and a quota is left that belongs to the one that is visited
first, and that is to give way. -/
theorem converged_of_two_active :
    let one := ((Task.create default (leftActive "a")).exec quiet {}).2
    let two := ((Task.create default (leftActive "b")).exec quiet one).2
    let start := ((Task.create default leftQuota).exec quiet two).2
    let round : List Reconciliation := [⟨"b", default, quiet⟩, ⟨"a", default, quiet⟩]
    start.store.Unhindered "shop" ∧ Covers "shop" round start.store ∧
      ∃ leader after, tour "shop" round start = (outcomesUnder leader round, after) ∧
        Converged "shop" leader "b" start after := by
  intro one two start round
  have hplain (c : Config) : IsPlain .config (Resource.encode c) := .inl ⟨rfl, c, rfl⟩
  have hfree (name uid : String) : ¬(Resource.metadata (leftActive name)).isOwnedBy uid := by
    simp [ObjectMeta.isOwnedBy, show (Resource.metadata (leftActive name)).ownerReferences = [] from
      rfl]
  have href (name : String) : Resource.ref (leftActive name) = ⟨.config, ⟨some "shop", name⟩⟩ := rfl
  have hquota : Resource.ref leftQuota = quotaRef "shop" "b" := rfl
  obtain ⟨s₁, hone, hplain₁, -, hissued, hstores₁⟩ : ∃ s₁, one = World.withStore {} s₁ ∧ _ :=
    Plain.empty.exec_create (w := {}) default hplain (a := leftActive "a") rfl rfl
      (fun uid h ↦ absurd h (hfree "a" uid)) (Plain.not_stores_empty _)
  obtain ⟨s₂, htwo, hplain₂, hmeta, -, hstores₂⟩ : ∃ s₂, two = one.withStore s₂ ∧ _ := by
    refine Plain.exec_create (w := one) (hone ▸ hplain₁) default hplain (a := leftActive "b") rfl
      rfl (fun uid h ↦ absurd h (hfree "b" uid)) ?_
    rw [hone, World.store_withStore, hstores₁, href, href]
    simp [Plain.not_stores_empty]
  have howner (uid : String) (h : (Resource.metadata leftQuota).isOwnedBy uid) :
      ∃ key owner, two.store.HasMeta ⟨.config, key⟩ owner ∧ owner.uid = uid := by
    have hby : (decide (numberedUid 1 = uid) || false) = true := (Bool.and_eq_true_iff.1 h).2
    refine ⟨⟨some "shop", "b"⟩, _, by rw [htwo]; exact hmeta, ?_⟩
    have hissued' : one.store.issued = 1 := by rw [hone]; exact hissued
    change numberedUid one.store.issued = uid
    rw [hissued']
    simpa using hby
  obtain ⟨s₃, hstart, hplain₃, -, -, hstores₃⟩ : ∃ s₃, start = two.withStore s₃ ∧ _ := by
    refine Plain.exec_create (w := two) (htwo ▸ hplain₂) default (fun q ↦ .inr ⟨rfl, q, rfl⟩)
      (a := leftQuota) (Config.scopeDefect_desiredQuota rfl (by decide)) rfl howner ?_
    rw [htwo, World.store_withStore, hstores₂, hone, World.store_withStore, hstores₁, href, href,
      hquota]
    simp [Plain.not_stores_empty, config_ne_quotaRef.symm]
  have hcovers : Covers "shop" round start.store := by
    intro name
    change _ ↔ start.store.Stores _
    rw [hstart, World.store_withStore, hstores₃, htwo, World.store_withStore, hstores₂, hone,
      World.store_withStore, hstores₁, href, href, hquota]
    simp [Plain.not_stores_empty, config_ne_quotaRef, round]
  have hunhindered : start.store.Unhindered "shop" := by
    rw [hstart]
    exact hplain₃.unhindered "shop"
  exact ⟨hunhindered, hcovers, exists_converged_of_covers hunhindered hcovers⟩

end TenantAccess
