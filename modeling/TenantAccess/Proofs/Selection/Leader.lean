import TenantAccess.Proofs.Selection.Transition
import TenantAccess.Proofs.Store.Growth
import TenantAccess.Schedule.Key

/-!
# Reconciling configs where nothing else happens

The active config of the smallest name leads its namespace.  A config that is reconciled becomes active
if nobody leads, stays so if it leads itself, and otherwise gives way; who leads is not changed by it.
The second time it has nothing to write.
-/

namespace TenantAccess

open Json Store

/-- All that the event calls for is `key`, whatever the claims are. -/
def Event.Only (e : Event) (key : ReconcileKey) : Prop := ∀ claims, ∀ k ∈ e.keys claims, k = key

/-- The config is the active one of the smallest name in its namespace. -/
structure Config.Leads (c : Config) (s : Store) : Prop where
  holds : s.Holds c
  active : c.isActive
  least : ∀ o : Config, s.Holds o → o.metadata.ns? = c.metadata.ns? → o.isActive →
    ¬o.metadata.name < c.metadata.name

namespace Store

def LedBy (s : Store) (ns : Option String) (name : String) : Prop :=
  ∃ l : Config, l.Leads s ∧ l.metadata.ns? = ns ∧ l.metadata.name = name

/-- Configs can be read, and the quotas are those of leaders, with the right limits. -/
structure Led (s : Store) : Prop where
  coherent : s.Coherent
  configs : ∀ key object, s.objects.get? ⟨.config, key⟩ = some object →
    ∃ c : Config, object = Resource.encode c
  quotas : ∀ key object, s.objects.get? ⟨.resourceQuota, key⟩ = some object →
    ∃ (q : ResourceQuota) (ns : Option String) (name : String), object = Resource.encode q ∧
      q.hard = configLimit ∧ key = ⟨ns, quotaName name⟩ ∧ s.LedBy ns name

variable {s after : Store} {c c' l : Config} {ns : Option String} {name name' : String}

theorem eq_of_name_eq (hc : s.Holds c) (hl : s.Holds l)
    (hns : c.metadata.ns? = l.metadata.ns?) (hname : c.metadata.name = l.metadata.name) : c = l :=
  hc.eq_of_key_eq hl (ObjectKey.mk.injEq .. ▸ ⟨hns, hname⟩)

theorem LedBy.unique (h : s.LedBy ns name) (h' : s.LedBy ns name') : name = name' := by
  obtain ⟨l, hl, hns, rfl⟩ := h
  obtain ⟨l', hl', hns', rfl⟩ := h'
  have hnot := hl.least l' hl'.holds (hns'.trans hns.symm) hl'.active
  have hnot' := hl'.least l hl.holds (hns.trans hns'.symm) hl.active
  exact Std.le_antisymm (String.not_lt.1 hnot) (String.not_lt.1 hnot')

theorem Leads.congr
    (h : ∀ key, after.objects.get? ⟨.config, key⟩ = s.objects.get? ⟨.config, key⟩)
    (hl : l.Leads s) : l.Leads after := by
  have hholds (o : Config) : after.Holds o ↔ s.Holds o := by
    rw [Holds, Holds, show after.objects.get? (Resource.ref o) = s.objects.get? (Resource.ref o)
      from h _]
  exact ⟨(hholds l).2 hl.holds, hl.active, fun o ho ↦ hl.least o ((hholds o).1 ho)⟩

theorem LedBy.congr
    (h : ∀ key, after.objects.get? ⟨.config, key⟩ = s.objects.get? ⟨.config, key⟩)
    (hled : s.LedBy ns name) : after.LedBy ns name := by
  obtain ⟨l, hl, hns, hname⟩ := hled
  exact ⟨l, Leads.congr h hl, hns, hname⟩

theorem Led.congr (h : s.Led) (hcoherent : after.Coherent)
    (hsame : ∀ ref : ObjectRef, ref.kind = .config ∨ ref.kind = .resourceQuota →
      after.objects.get? ref = s.objects.get? ref) : after.Led where
  coherent := hcoherent
  configs key object hget := by
    rw [hsame _ (.inl rfl)] at hget
    exact h.configs key object hget
  quotas key object hget := by
    rw [hsame _ (.inr rfl)] at hget
    obtain ⟨q, ns, name, hobject, hhard, hkey, hled⟩ := h.quotas key object hget
    exact ⟨q, ns, name, hobject, hhard, hkey, hled.congr fun _ ↦ hsame _ (.inl rfl)⟩

theorem Led.encodes (h : s.Led) : s.Encodes Config := h.configs

theorem Led.holds_config (h : s.Led) {key : ObjectKey} {object : Json}
    (hget : s.objects.get? ⟨.config, key⟩ = some object) :
    ∃ c : Config, s.Holds c ∧ c.metadata.key = key := by
  obtain ⟨c, -, hc, hkey⟩ := h.encodes.exists_holds h.coherent hget
  exact ⟨c, hc, hkey⟩

/-- A config that is written over as active just if it leads does not change who leads. -/
theorem LedBy.rewritten (hled : s.LedBy ns name) (hc : s.Holds c)
    (hr : Config.Rewritten s after c c')
    (hfits : ∀ name, s.LedBy c.metadata.ns? name → (c'.isActive ↔ c.metadata.name = name)) :
    after.LedBy ns name := by
  obtain ⟨l, hl, rfl, rfl⟩ := hled
  obtain ⟨hns', hname'⟩ := ObjectKey.mk.inj hr.key_eq
  by_cases hlc : l = c
  · subst hlc
    refine ⟨c', ⟨hr.holds, (hfits _ ⟨l, hl, rfl, rfl⟩).2 rfl, fun o ho hons hoactive ↦ ?_⟩,
      hns', hname'⟩
    rw [hname']
    rcases hr.holds_config ho with rfl | ⟨-, ho⟩
    · rw [hname']
      exact String.lt_irrefl _
    · exact hl.least o ho (hons.trans hns') hoactive
  · have href : Resource.ref l ≠ Resource.ref c := fun heq ↦
      hlc (hl.holds.eq_of_key_eq hc (congrArg ObjectRef.key heq))
    refine ⟨l, ⟨(hr.holds_iff href).2 hl.holds, hl.active, fun o ho hons hoactive ↦ ?_⟩, rfl, rfl⟩
    rcases hr.holds_config ho with rfl | ⟨-, ho⟩
    · -- the config written over would have to lead itself
      have hcns : c.metadata.ns? = l.metadata.ns? := hns'.symm.trans hons
      have hname := (hfits _ ⟨l, hl, hcns.symm, rfl⟩).1 hoactive
      exact absurd (eq_of_name_eq hl.holds hc hcns.symm hname.symm) hlc
    · exact hl.least o ho hons hoactive

end Store

namespace Config

variable {s : Store} {c l : Config} {configs : List Config}

theorem blocking?_of_leads (hl : l.Leads s) (hc : s.Holds c)
    (hns : c.metadata.ns? = l.metadata.ns?) (hne : c.metadata.name ≠ l.metadata.name)
    (hconfigs : ∀ o, o ∈ configs ↔ s.Holds o ∧ o.metadata.ns? = l.metadata.ns?) :
    c.blocking? configs = some l.metadata.name := by
  refine blocking?_of_least ((hconfigs l).2 ⟨hl.holds, rfl⟩) hl.active (fun o ho hactive ↦ ?_)
    ((hconfigs c).2 ⟨hc, hns⟩) hne
  obtain ⟨hholds, hons⟩ := (hconfigs o).1 ho
  exact hl.least o hholds hons hactive

theorem blocking?_of_self (hc : c.Leads s)
    (hconfigs : ∀ o, o ∈ configs ↔ s.Holds o ∧ o.metadata.ns? = c.metadata.ns?) :
    c.blocking? configs = none := by
  refine blocking?_eq_none fun o ho hactive ↦ ⟨hc.active, ?_⟩
  obtain ⟨hholds, hons⟩ := (hconfigs o).1 ho
  exact hc.least o hholds hons hactive

theorem blocking?_of_free (h : ∀ o ∈ configs, o.isActive = false) :
    c.blocking? configs = none := by
  refine blocking?_eq_none fun o ho hactive ↦ ?_
  rw [h o ho] at hactive
  cases hactive

theorem leads_of_active? (h : active? configs = some l)
    (hconfigs : ∀ o, o ∈ configs ↔ s.Holds o ∧ o.metadata.ns? = c.metadata.ns?) :
    l.Leads s ∧ l.metadata.ns? = c.metadata.ns? := by
  obtain ⟨hmem, hactive⟩ := List.mem_filter.1 (mem_of_smallestBy h)
  obtain ⟨hholds, hns⟩ := (hconfigs l).1 hmem
  refine ⟨⟨hholds, hactive, fun o ho hons hoactive hlt ↦ ?_⟩, hns⟩
  have hmem' : o ∈ configs.filter isActive :=
    List.mem_filter.2 ⟨(hconfigs o).2 ⟨ho, hons.trans hns⟩, hoactive⟩
  exact not_lt_smallestBy h hmem' (compare_eq_lt_iff.2 hlt)

end Config

/-! ## Turns -/

namespace Event

variable {e : Event} {ns name : String}

theorem only_config (hkind : e.kind = .config) (hns : e.metadata.ns? = some ns)
    (hname : e.metadata.name = name) : e.Only (.config ns name) := by
  intro claims k hk
  simpa [keys, hkind, hns, hname] using hk

theorem only_quota {c : Config} (hkind : e.kind = .resourceQuota) (hns : e.metadata.ns? = some ns)
    (howner : e.metadata.ownerReferences = [OwnerReference.controllerOf c]) :
    e.Only (.config ns c.metadata.name) := by
  intro claims k hk
  have hfilter : e.metadata.ownerReferences.filter (·.kind = Kind.config.name) =
      [OwnerReference.controllerOf c] := by
    rw [howner]
    rfl
  simp only [keys, hkind, hns, hfilter, Option.toList_some, List.flatMap_singleton,
    List.map_cons, List.map_nil, List.mem_singleton] at hk
  exact hk

end Event

namespace Config

variable {s after : Store} {c c' l : Config} {ns name : String} {env : Surroundings}
  {now : Timestamp} {w : World} {configs : List Config}

/-- Reconciling the config again would change nothing. -/
def Rests (c : Config) (s : Store) : Prop :=
  ∃ name, s.LedBy c.metadata.ns? name ∧
    if c.metadata.name = name then
      (readyNow default).changes c.conditions = false ∧
        (s.objects.get? ⟨.resourceQuota, c.quotaKey⟩).isSome
    else (notReadyNow default name).changes c.conditions = false

/-- What a reconcile of `c` comes to: it writes the config and its quota at most, changes no leader, and
has nothing to do the next time. -/
structure Turn (c : Config) (s after : Store) : Prop where
  led : after.Led
  leaders : ∀ ns name, s.LedBy ns name → after.LedBy ns name
  others : ∀ key, key ≠ c.metadata.key →
    after.objects.get? ⟨.config, key⟩ = s.objects.get? ⟨.config, key⟩
  quotas : ∀ key object, s.objects.get? ⟨.resourceQuota, key⟩ = some object →
    after.objects.get? ⟨.resourceQuota, key⟩ = some object
  rests : ∃ c' : Config, after.Holds c' ∧ c'.metadata.key = c.metadata.key ∧ c'.Rests after
  wrote : ∃ news, s.Wrote news after ∧ news.length ≤ 2 ∧ (c.Rests s → news = []) ∧
    ∀ e ∈ news, (e.kind = .config ∨ e.kind = .resourceQuota) ∧
      e.Only (.config c.ns c.metadata.name)

theorem exec_update_wrote (env : Surroundings) (now : Timestamp) (h : w.store.Coherent)
    (hc : w.store.Holds c) {o : Config} (hmeta : o.metadata = c.metadata) :
    ∃ c' after e, (Task.update now o).exec env w = (.ok c', w.withStore after) ∧
      Rewritten w.store after c c' ∧ c'.conditions = o.conditions ∧ w.store.Wrote [e] after ∧
      e.kind = .config ∧ e.Only (.config c.ns c.metadata.name) := by
  have href : Resource.ref o = Resource.ref c :=
    congrArg (fun m : ObjectMeta ↦ ObjectRef.mk .config m.key) hmeta
  have hscope : scopeDefect .config o.metadata = none := by
    rw [hmeta]
    exact scopeDefect_of_holds h hc
  have hget : w.store.objects.get? (Resource.ref o) = some (Resource.encode c) := by
    rw [href]
    exact hc
  have hupdate : (Task.update now o).exec env w = _ :=
    Task.exec_update hscope hget (metaOf_encode _ c) (congrArg ObjectMeta.resourceVersion hmeta)
  obtain ⟨c', after, hexec, hrewritten, -, hconditions⟩ :=
    exec_update_of_holds env now h hc hmeta
  obtain ⟨-, hafter⟩ := Prod.mk.inj (hexec.symm.trans hupdate)
  have hafter : after = _ := congrArg World.store hafter
  subst hafter
  have hns : o.metadata.ns? = some c.ns := (congrArg ObjectMeta.ns? hmeta).trans (ns?_eq h hc)
  have hname : o.metadata.name = c.metadata.name := congrArg ObjectMeta.name hmeta
  exact ⟨c', _, _, hexec, hrewritten, hconditions, wrote_recorded .., rfl,
    Event.only_config rfl hns hname⟩

/-- `c` was given the condition, as `c'`, which took the events `news`. -/
structure Declared (condition : Condition) (c c' : Config) (news : List Event) (s after : Store) :
    Prop where
  rewritten : Rewritten s after c c'
  active : c'.isActive = decide (condition.status = .true)
  settled : condition.changes c'.conditions = false
  wrote : s.Wrote news after
  length_le : news.length ≤ 1
  idle : condition.changes c.conditions = false → news = []
  only : ∀ e ∈ news, e.kind = .config ∧ e.Only (.config c.ns c.metadata.name)

theorem exec_writeStatus_wrote (env : Surroundings) (now : Timestamp) (h : w.store.Coherent)
    (hc : w.store.Holds c) (condition : Condition) (htype : condition.type = readyCondition) :
    ∃ c' after news, (c.writeStatus now condition).exec env w = (.ok c', w.withStore after) ∧
      Declared condition c c' news w.store after := by
  unfold writeStatus
  cases hchanges : condition.changes c.conditions with
  | false =>
    exact ⟨c, w.store, [], rfl, rewritten_self h hc, isActive_of_not_changes hchanges htype,
      hchanges, wrote_nil _, Nat.zero_le 1, fun _ ↦ rfl, fun _ he ↦ absurd he List.not_mem_nil⟩
  | true =>
    obtain ⟨c', after, e, hexec, hrewritten, hconditions, hwrote, hkind, honly⟩ :=
      exec_update_wrote env now h hc (o := { c with conditions := condition.set c.conditions }) rfl
    refine ⟨c', after, [e], hexec, hrewritten, ?_, ?_, hwrote, Nat.le_refl 1, fun hsame ↦ ?_,
      fun e' he ↦ ?_⟩
    · rw [← isActive_set c htype, isActive, hconditions]
      rfl
    · rw [hconditions]
      exact Condition.changes_set condition c.conditions
    · rw [hchanges] at hsame
      cases hsame
    · rw [List.mem_singleton.1 he]
      exact ⟨hkind, honly⟩

theorem led_rewritten (h : s.Led) (hc : s.Holds c) (hr : Rewritten s after c c')
    (hfits : ∀ name, s.LedBy c.metadata.ns? name → (c'.isActive ↔ c.metadata.name = name)) :
    after.Led where
  coherent := hr.coherent
  configs key object hget := by
    by_cases href : (⟨.config, key⟩ : ObjectRef) = Resource.ref c
    · rw [href, ← hr.ref_eq, hr.holds] at hget
      cases hget
      exact ⟨c', rfl⟩
    · rw [hr.others _ href] at hget
      exact h.configs key object hget
  quotas key object hget := by
    rw [hr.get?_quota] at hget
    obtain ⟨q, ns, name, hobject, hhard, hkey, hled⟩ := h.quotas key object hget
    exact ⟨q, ns, name, hobject, hhard, hkey, hled.rewritten hc hr hfits⟩

theorem get?_quotaKey_of_ledBy (h : s.Led) (hled : s.LedBy c.metadata.ns? name)
    (hne : c.metadata.name ≠ name) : s.objects.get? ⟨.resourceQuota, c.quotaKey⟩ = none := by
  cases hget : s.objects.get? ⟨.resourceQuota, c.quotaKey⟩ with
  | none => rfl
  | some object =>
    obtain ⟨q, ns, name', -, -, hkey, hled'⟩ := h.quotas _ object hget
    obtain ⟨hns, hname⟩ := ObjectKey.mk.inj hkey
    rw [← hns, ← quotaName_injective hname] at hled'
    exact absurd (hled'.unique hled) hne

theorem exec_transition_denied (env : Surroundings) (now : Timestamp) (h : w.store.Led)
    (hc : w.store.Holds c) (hled : w.store.LedBy c.metadata.ns? name) (hne : c.metadata.name ≠ name)
    (hblocking : c.blocking? configs = some name) :
    ∃ decision after, (c.transition now configs).exec env w = (.ok decision, w.withStore after) ∧
      c.Turn w.store after := by
  obtain ⟨c', after, news, hexec, hdeclared⟩ :=
    exec_writeStatus_wrote env now h.coherent hc (notReadyNow now name) rfl
  have hr := hdeclared.rewritten
  have hinactive : c'.isActive = false := hdeclared.active
  have hfits (name' : String) (hled' : w.store.LedBy c.metadata.ns? name') :
      c'.isActive ↔ c.metadata.name = name' := by
    rw [hinactive, hled'.unique hled]
    exact ⟨nofun, fun heq ↦ absurd heq hne⟩
  have hledAfter := led_rewritten h hc hr hfits
  obtain ⟨hns, hname⟩ := ObjectKey.mk.inj hr.key_eq
  have hled' : after.LedBy c'.metadata.ns? name := by
    rw [hns]
    exact hled.rewritten hc hr hfits
  have hne' : c'.metadata.name ≠ name := by
    rw [hname]
    exact hne
  have hrelease : (c'.releaseQuota now).exec env (w.withStore after) =
      (.ok (), w.withStore after) :=
    exec_releaseQuota_of_none (get?_quotaKey_of_ledBy hledAfter hled' hne')
  refine ⟨.denied c.metadata.name name, after, ?_, {
    led := hledAfter
    leaders := fun _ _ hled ↦ hled.rewritten hc hr hfits
    others := fun key ↦ hr.get?_config
    quotas := ?quotas
    rests := ⟨c', hr.holds, hr.key_eq, name, hled', ?settled⟩
    wrote := ⟨news, hdeclared.wrote, Nat.le_succ_of_le hdeclared.length_le,
      fun hrests ↦ hdeclared.idle ?idle,
      fun e he ↦ ⟨.inl (hdeclared.only e he).1, (hdeclared.only e he).2⟩⟩ }⟩
  · unfold transition
    rw [hblocking]
    dsimp only
    rw [Task.exec_bind_of_ok hexec, Task.exec_bind_of_ok hrelease]
    rfl
  case quotas =>
    intro key object hget
    rw [hr.get?_quota]
    exact hget
  case settled =>
    rw [if_neg hne']
    exact hdeclared.settled
  case idle =>
    obtain ⟨name', hled', hsettled⟩ := hrests
    rw [hled'.unique hled, if_neg hne] at hsettled
    exact hsettled

/-- The leader `c` has its quota now, which took the events `news`. -/
structure Supplied (c : Config) (news : List Event) (s after : Store) : Prop where
  led : after.Led
  wrote : s.Wrote news after
  length_le : news.length ≤ 1
  present : (after.objects.get? ⟨.resourceQuota, c.quotaKey⟩).isSome
  idle : (s.objects.get? ⟨.resourceQuota, c.quotaKey⟩).isSome → news = []
  kept : ∀ ref object, s.objects.get? ref = some object → after.objects.get? ref = some object
  only : ∀ e ∈ news, e.kind = .resourceQuota ∧ e.Only (.config c.ns c.metadata.name)

theorem Supplied.get?_config {news : List Event} (h : Supplied c news s after) (key : ObjectKey) :
    after.objects.get? ⟨.config, key⟩ = s.objects.get? ⟨.config, key⟩ := by
  apply h.wrote.get?_of_kind
  intro e he hkind
  rw [(h.only e he).1] at hkind
  cases hkind

theorem led_recorded {q : ResourceQuota} {issued : Nat} (h : s.Led) (hc : c.Leads s)
    (hcoherent : (s.recorded .added q issued).Coherent)
    (href : Resource.ref q = ⟨.resourceQuota, c.quotaKey⟩) (hhard : q.hard = configLimit) :
    (s.recorded .added q issued).Led := by
  have hconfig (key : ObjectKey) : (s.recorded .added q issued).objects.get? ⟨.config, key⟩ =
      s.objects.get? ⟨.config, key⟩ := by
    rw [get?_recorded, href, if_neg]
    intro heq
    cases heq
  refine ⟨hcoherent, fun key object hget ↦ ?_, fun key object hget ↦ ?_⟩
  · rw [hconfig] at hget
    exact h.configs key object hget
  · rw [get?_recorded, href] at hget
    split at hget
    · next heq =>
      cases hget
      exact ⟨q, c.metadata.ns?, c.metadata.name, rfl, hhard, congrArg ObjectRef.key heq,
        LedBy.congr hconfig ⟨c, hc, rfl, rfl⟩⟩
    · obtain ⟨p, ns, name, hobject, hhard, hkey, hled⟩ := h.quotas key object hget
      exact ⟨p, ns, name, hobject, hhard, hkey, LedBy.congr hconfig hled⟩

theorem exec_ensureQuota_of_leads (env : Surroundings) (now : Timestamp) (h : w.store.Led)
    (hc : c.Leads w.store) :
    ∃ outcome after news, (c.ensureQuota now).exec env w = (.ok outcome, w.withStore after) ∧
      Supplied c news w.store after := by
  obtain ⟨ns, hns, hempty⟩ := exists_ns_of_holds h.coherent hc.holds
  cases hget : w.store.objects.get? ⟨.resourceQuota, c.quotaKey⟩ with
  | some object =>
    obtain ⟨q, _, _, rfl, hhard, -⟩ := h.quotas _ object hget
    have hkey : q.metadata.key = c.quotaKey := h.coherent.key_eq hget (metaOf_encode _ q)
    have hq : w.store.Holds q := by
      rw [Holds, Resource.ref, show Resource.key q = c.quotaKey from hkey]
      exact hget
    refine ⟨_, _, [], exec_ensureQuota_of_holds hns hq hkey hhard, h, wrote_nil _, Nat.zero_le 1,
      ?_, fun _ ↦ rfl, fun _ _ h ↦ h, fun _ he ↦ absurd he List.not_mem_nil⟩
    rw [hget]
    rfl
  | none =>
    have hexec : (c.ensureQuota now).exec env w = _ := exec_ensureQuota_of_none hns hempty hget
    have hscope : scopeDefect (Resource.kind ResourceQuota) (Resource.metadata c.desiredQuota) =
        none := scopeDefect_desiredQuota hns hempty
    obtain ⟨q, hq⟩ : ∃ q, q = asNew env.ambient w.store c.desiredQuota := ⟨_, rfl⟩
    have hcoherent : (w.store.recorded .added (asNew env.ambient w.store c.desiredQuota) _).Coherent :=
      h.coherent.create hscope (w.store.issued + 1)
    rw [← hq] at hexec hcoherent
    have href : Resource.ref q = ⟨.resourceQuota, c.quotaKey⟩ := by
      rw [hq, ref_asNew]
      exact congrArg (ObjectRef.mk .resourceQuota) (key_desiredQuota hns)
    have hhard : q.hard = configLimit := by rw [hq]; rfl
    refine ⟨_, _, _, hexec, led_recorded h hc hcoherent href hhard, wrote_recorded ..,
      Nat.le_refl 1, ?_, fun hsome ↦ ?_, fun _ _ ↦ get?_recorded_of_get? (href ▸ hget),
      fun e he ↦ ?_⟩
    · rw [get?_recorded, href, if_pos rfl]
      rfl
    · rw [hget] at hsome
      cases hsome
    · rw [List.mem_singleton.1 he]
      have hqns : q.metadata.ns? = some c.ns := by rw [hq]; rfl
      have howner : q.metadata.ownerReferences = [OwnerReference.controllerOf c] := by rw [hq]; rfl
      exact ⟨rfl, Event.only_quota rfl hqns howner⟩

theorem exec_transition_active (env : Surroundings) (now : Timestamp) (h : w.store.Led)
    (hc : w.store.Holds c)
    (hled : ∀ name, w.store.LedBy c.metadata.ns? name → c.metadata.name = name)
    (hleast : ∀ o : Config, w.store.Holds o → o.metadata.ns? = c.metadata.ns? → o.isActive →
      ¬o.metadata.name < c.metadata.name)
    (hblocking : c.blocking? configs = none) :
    ∃ decision after, (c.transition now configs).exec env w = (.ok decision, w.withStore after) ∧
      c.Turn w.store after := by
  obtain ⟨c', middle, news, hexec, hdeclared⟩ :=
    exec_writeStatus_wrote env now h.coherent hc (readyNow now) rfl
  have hr := hdeclared.rewritten
  have hactive : c'.isActive = true := hdeclared.active
  obtain ⟨hns, hname⟩ := ObjectKey.mk.inj hr.key_eq
  have hfits (name : String) (hled' : w.store.LedBy c.metadata.ns? name) :
      c'.isActive ↔ c.metadata.name = name :=
    ⟨fun _ ↦ hled name hled', fun _ ↦ hactive⟩
  have hleads : c'.Leads middle := by
    refine ⟨hr.holds, hactive, fun o ho hons hoactive ↦ ?_⟩
    rw [hname]
    rcases hr.holds_config ho with rfl | ⟨-, ho⟩
    · rw [hname]
      exact String.lt_irrefl _
    · exact hleast o ho (hons.trans hns) hoactive
  obtain ⟨outcome, after, more, hquota, hsupplied⟩ :=
    exec_ensureQuota_of_leads env now (w := w.withStore middle) (led_rewritten h hc hr hfits) hleads
  have hconfig (key : ObjectKey) :
      after.objects.get? ⟨.config, key⟩ = middle.objects.get? ⟨.config, key⟩ :=
    hsupplied.get?_config key
  refine ⟨.active c.metadata.name, after, ?_, {
    led := hsupplied.led
    leaders := fun _ _ hled ↦ (hled.rewritten hc hr hfits).congr hconfig
    others := fun key hkey ↦ (hconfig key).trans (hr.get?_config hkey)
    quotas := ?quotas
    rests := ⟨c', hsupplied.kept _ _ hr.holds, hr.key_eq, c'.metadata.name,
      LedBy.congr hconfig ⟨c', hleads, rfl, rfl⟩, ?settled⟩
    wrote := ⟨news ++ more, hdeclared.wrote.trans hsupplied.wrote, ?length, ?idle, ?only⟩ }⟩
  · unfold transition
    rw [hblocking]
    dsimp only
    rw [Task.exec_bind_of_ok hexec, Task.exec_bind_of_ok hquota]
    rfl
  case quotas =>
    intro key object hget
    apply hsupplied.kept
    rw [World.store_withStore, hr.get?_quota]
    exact hget
  case settled =>
    rw [if_pos rfl]
    exact ⟨hdeclared.settled, hsupplied.present⟩
  case length =>
    rw [List.length_append]
    exact Nat.add_le_add hdeclared.length_le hsupplied.length_le
  case idle =>
    rintro ⟨name, hled', hsettled⟩
    rw [if_pos (hled name hled')] at hsettled
    rw [hdeclared.idle hsettled.1, List.nil_append]
    apply hsupplied.idle
    rw [World.store_withStore, hr.get?_quota, quotaKey_eq_of_key_eq hr.key_eq]
    exact hsettled.2
  case only =>
    intro e he
    rcases List.mem_append.1 he with he | he
    · exact ⟨.inl (hdeclared.only e he).1, (hdeclared.only e he).2⟩
    · obtain ⟨hkind, honly⟩ := hsupplied.only e he
      rw [Config.ns, hns, hname] at honly
      exact ⟨.inr hkind, honly⟩

/-- Reconciling a stored config gives it the condition and the quota it should have, and nobody else
notices. -/
theorem exec_reconcile_of_led (env : Surroundings) (now : Timestamp) (h : w.store.Led)
    (hc : w.store.Holds c) (hns : c.metadata.ns? = some ns) :
    ∃ decision after, (reconcile now (.namespaced ns c.metadata.name)).exec env w =
      (.ok decision, w.withStore after) ∧ c.Turn w.store after := by
  obtain ⟨configs, hlist, hconfigs⟩ := exec_listIn env now h.coherent h.encodes ns
  have hkey : Resource.key c = .namespaced ns c.metadata.name :=
    ObjectKey.mk.injEq .. ▸ ⟨hns, rfl⟩
  have hfind : (Task.find? (α := Config) now ⟨some ns, c.metadata.name⟩).exec env w =
      (.ok (some c), w) := by
    change (Task.find? (α := Config) now (.namespaced ns c.metadata.name)).exec env w = _
    rw [← hkey]
    exact Task.exec_find?_of_has (hc.has now)
  have hreconcile : (reconcile now (.namespaced ns c.metadata.name)).exec env w =
      (c.transition now configs).exec env w := by
    unfold reconcile
    dsimp only [ObjectKey.namespaced]
    rw [Task.exec_bind_of_ok hfind]
    dsimp only
    rw [Task.exec_bind_of_ok hlist]
  rw [← hns] at hconfigs
  rw [hreconcile]
  -- nobody leads, or `c` does, or another one
  cases hactive : active? configs with
  | none =>
    have hfree := active?_eq_none_iff.1 hactive
    have hnobody (o : Config) (ho : w.store.Holds o) (hons : o.metadata.ns? = c.metadata.ns?)
        (hoactive : o.isActive) : False := by
      rw [hfree o ((hconfigs o).2 ⟨ho, hons⟩)] at hoactive
      cases hoactive
    refine exec_transition_active env now h hc ?_ ?_ (blocking?_of_free hfree)
    · rintro name ⟨l, hl, hlns, -⟩
      exact (hnobody l hl.holds hlns hl.active).elim
    · exact fun o ho hons hoactive ↦ (hnobody o ho hons hoactive).elim
  | some l =>
    obtain ⟨hl, hlns⟩ := leads_of_active? hactive hconfigs
    by_cases hname : c.metadata.name = l.metadata.name
    · have hcl : c = l := eq_of_name_eq hc hl.holds hlns.symm hname
      subst hcl
      exact exec_transition_active env now h hc
        (fun name hled ↦ LedBy.unique ⟨c, hl, rfl, rfl⟩ hled) hl.least
        (blocking?_of_self hl hconfigs)
    · rw [← hlns] at hconfigs
      exact exec_transition_denied env now h hc ⟨l, hl, hlns, rfl⟩ hname
        (blocking?_of_leads hl hc hlns.symm hname hconfigs)

theorem Rests.congr (h : c.Rests s)
    (hsame : ∀ ref : ObjectRef, ref.kind = .config ∨ ref.kind = .resourceQuota →
      after.objects.get? ref = s.objects.get? ref) : c.Rests after := by
  obtain ⟨name, hled, hsettled⟩ := h
  refine ⟨name, hled.congr fun _ ↦ hsame _ (.inl rfl), ?_⟩
  rw [hsame _ (.inr rfl)]
  exact hsettled

theorem Rests.of_turn {d : Config} (hd : d.Rests s) (hturn : c.Turn s after) : d.Rests after := by
  obtain ⟨name, hled, hsettled⟩ := hd
  refine ⟨name, hturn.leaders _ _ hled, ?_⟩
  split
  · next hname =>
    rw [if_pos hname] at hsettled
    obtain ⟨object, hget⟩ := Option.isSome_iff_exists.1 hsettled.2
    rw [hturn.quotas _ _ hget]
    exact ⟨hsettled.1, rfl⟩
  · next hname =>
    rw [if_neg hname] at hsettled
    exact hsettled

end Config

/-! ## A new config -/

namespace Store

variable {s after : Store} {c : Config} {ns : Option String} {name : String}

theorem LedBy.created (hled : s.LedBy ns name) (hafter : after.Holds c)
    (hnone : s.objects.get? (Resource.ref c) = none)
    (hothers : ∀ ref, ref ≠ Resource.ref c → after.objects.get? ref = s.objects.get? ref)
    (hinactive : c.isActive = false) : after.LedBy ns name := by
  obtain ⟨l, hl, hns, hname⟩ := hled
  have hne : Resource.ref l ≠ Resource.ref c := by
    intro href
    have hholds := hl.holds
    rw [Holds, href, hnone] at hholds
    cases hholds
  refine ⟨l, ⟨?_, hl.active, fun o ho hons hoactive ↦ ?_⟩, hns, hname⟩
  · rw [Holds, hothers _ hne]
    exact hl.holds
  · by_cases href : Resource.ref o = Resource.ref c
    · rw [ho.eq_of_key_eq hafter (congrArg ObjectRef.key href), hinactive] at hoactive
      cases hoactive
    · rw [Holds, hothers _ href] at ho
      exact hl.least o ho hons hoactive

theorem Led.created (h : s.Led) (hcoherent : after.Coherent) (hafter : after.Holds c)
    (hnone : s.objects.get? (Resource.ref c) = none)
    (hothers : ∀ ref, ref ≠ Resource.ref c → after.objects.get? ref = s.objects.get? ref)
    (hinactive : c.isActive = false) : after.Led where
  coherent := hcoherent
  configs key object hget := by
    by_cases href : (⟨.config, key⟩ : ObjectRef) = Resource.ref c
    · rw [href, hafter] at hget
      cases hget
      exact ⟨c, rfl⟩
    · rw [hothers _ href] at hget
      exact h.configs key object hget
  quotas key object hget := by
    rw [hothers ⟨.resourceQuota, key⟩ fun href ↦ nomatch congrArg ObjectRef.kind href] at hget
    obtain ⟨q, ns, name, hobject, hhard, hkey, hled⟩ := h.quotas key object hget
    exact ⟨q, ns, name, hobject, hhard, hkey, hled.created hafter hnone hothers hinactive⟩

end Store

end TenantAccess
