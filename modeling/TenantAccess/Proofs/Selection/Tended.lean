import TenantAccess.Proofs.Document.Clock
import TenantAccess.Proofs.Selection.Transition
import TenantAccess.Schedule.Key

/-!
# A store while its configs are reconciled

Reconciles of the configs of one namespace write statuses and quotas, each in a single call.  Whatever
the order of the calls, no config goes, the quotas are those that were created on the way, and every
event calls for a config that is stored.
-/

namespace TenantAccess

open Store

namespace Store

variable {s : Store} {ns name : String} {now later : Timestamp} {c : Config}

def HasConfig (s : Store) (ns name : String) : Prop :=
  ∃ object, s.objects.get? ⟨.config, ⟨some ns, name⟩⟩ = some object

def HasConfigAs (s : Store) (ns name : String) (now : Timestamp) (c : Config) : Prop :=
  s.Has now c ∧ c.metadata.key = ⟨some ns, name⟩

def Active (s : Store) (ns name : String) : Prop :=
  ∃ now c, s.HasConfigAs ns name now c ∧ c.isActive

theorem HasConfigAs.get? (h : s.HasConfigAs ns name now c) :
    ∃ object, s.objects.get? ⟨.config, ⟨some ns, name⟩⟩ = some object ∧
      Config.decode Json.strict now object = some c := by
  obtain ⟨⟨object, hget, hdecode⟩, hkey⟩ := h
  refine ⟨object, ?_, hdecode⟩
  rw [← hkey]
  exact hget

theorem HasConfigAs.unique {c' : Config} (h : s.HasConfigAs ns name now c)
    (h' : s.HasConfigAs ns name now c') : c' = c :=
  h'.1.eq_of_key_eq h.1 (h'.2.trans h.2.symm)

theorem HasConfigAs.content_at (h : s.HasConfigAs ns name now c) (later : Timestamp) :
    ∃ c', s.HasConfigAs ns name later c' ∧ c'.metadata = c.metadata ∧
      c'.conditions.map Condition.content = c.conditions.map Condition.content := by
  obtain ⟨⟨object, hget, hdecode⟩, hkey⟩ := h
  obtain ⟨c', hdecode', hmeta, hcontent⟩ := Config.exists_content_at hdecode later
  have hkey' : Resource.key c' = Resource.key c := congrArg ObjectMeta.key hmeta
  refine ⟨c', ⟨⟨object, ?_, hdecode'⟩, hkey'.trans hkey⟩, hmeta, hcontent⟩
  rw [Resource.ref, hkey']
  exact hget

/-- A config that can be read at some time can be read at any time. -/
theorem Coherent.exists_hasConfigAs (h : s.Coherent) {object : Json}
    (hget : s.objects.get? ⟨.config, ⟨some ns, name⟩⟩ = some object)
    (hreads : ∃ now c, Config.decode Json.strict now object = some c) (later : Timestamp) :
    ∃ c, s.HasConfigAs ns name later c := by
  obtain ⟨now, c, hdecode⟩ := hreads
  have hdecode : Resource.decode Json.strict now object = some c := hdecode
  have hc : s.HasConfigAs ns name now c :=
    ⟨h.has_of_decode hget hdecode, h.key_of_decode hget hdecode⟩
  obtain ⟨c', hc', -⟩ := hc.content_at later
  exact ⟨c', hc'⟩

theorem HasConfigAs.at (h : s.HasConfigAs ns name now c) (later : Timestamp) :
    ∃ c', s.HasConfigAs ns name later c' ∧ c'.isActive = c.isActive := by
  obtain ⟨c', hc', -, hcontent⟩ := h.content_at later
  exact ⟨c', hc', Condition.isTrue_congr hcontent⟩

theorem HasConfigAs.active_iff (h : s.HasConfigAs ns name now c) :
    s.Active ns name ↔ c.isActive := by
  constructor
  · rintro ⟨later, o, ho, hactive⟩
    obtain ⟨c', hc', hsame⟩ := ho.at now
    rw [← h.unique hc', hsame]
    exact hactive
  · exact fun hactive ↦ ⟨now, c, h, hactive⟩

theorem HasConfigAs.congr {after : Store} (h : s.HasConfigAs ns name now c)
    (heq : after.objects.get? ⟨.config, ⟨some ns, name⟩⟩ =
      s.objects.get? ⟨.config, ⟨some ns, name⟩⟩) : after.HasConfigAs ns name now c := by
  obtain ⟨object, hget, hdecode⟩ := h.get?
  refine ⟨⟨object, ?_, hdecode⟩, h.2⟩
  rw [Resource.ref, show Resource.key c = _ from h.2]
  exact heq.trans hget

theorem hasConfig_congr {after : Store}
    (heq : after.objects.get? ⟨.config, ⟨some ns, name⟩⟩ =
      s.objects.get? ⟨.config, ⟨some ns, name⟩⟩) : after.HasConfig ns name ↔ s.HasConfig ns name := by
  unfold HasConfig
  rw [heq]

theorem active_congr {after : Store} (heq : after.objects.get? ⟨.config, ⟨some ns, name⟩⟩ =
    s.objects.get? ⟨.config, ⟨some ns, name⟩⟩) : after.Active ns name ↔ s.Active ns name :=
  ⟨fun ⟨now, c, h, hactive⟩ ↦ ⟨now, c, h.congr heq.symm, hactive⟩,
    fun ⟨now, c, h, hactive⟩ ↦ ⟨now, c, h.congr heq, hactive⟩⟩

end Store

def Event.ofWrite {α : Type} [Resource α] (type : EventType) (a : α) : Event :=
  ⟨type, Resource.kind α, Resource.metadata a, Resource.encode a⟩

/-- Whatever the claims, an event calls for nothing but configs that are stored in `ns`. -/
def Event.CallsFor (s : Store) (ns : String) (e : Event) : Prop :=
  ∀ claims, ∀ key ∈ e.keys claims, ∃ name, key = .config ns name ∧ s.HasConfig ns name

/-- A quota as it is created, with an identity given out since the first `first` ones. -/
structure ResourceQuota.Ours (q : ResourceQuota) (s : Store) (ns : String) (uid : Nat → String)
    (first : Nat) : Prop where
  hard_eq : q.hard = configLimit
  uid_eq : ∃ n, first ≤ n ∧ q.metadata.uid = uid n
  owners : ∀ r ∈ q.metadata.ownerReferences, s.HasConfig ns r.name

/-- What holds of a store while the configs of `ns` are reconciled.  `first` identities were given out
before. -/
structure Tended (ns : String) (uid : Nat → String) (first : Nat) (s : Store) : Prop where
  coherent : s.Coherent
  first_le : first ≤ s.issued
  quota : ∀ name object, s.objects.get? ⟨.resourceQuota, ⟨some ns, name⟩⟩ = some object →
    ∃ q : ResourceQuota, object = Resource.encode q ∧ q.Ours s ns uid first
  /-- Nothing but a quota of `ns` may be owned by what is created on the way. -/
  free : ∀ ref m, s.HasMeta ref m → ¬(ref.kind = .resourceQuota ∧ ref.key.ns? = some ns) →
    ∀ n, first ≤ n → m.isOwnedBy (uid n) = false

/-- One call on behalf of the config `name` leads from `before` to `after`, and `news` tells of
it. -/
structure Served (ns : String) (uid : Nat → String) (first : Nat) (name : String)
    (before : Store) (news : List Event) (after : Store) : Prop where
  tended : Tended ns uid first after
  log : after.log.toList = before.log.toList ++ news
  calls : ∀ e ∈ news, e.CallsFor after ns
  hasConfig_iff : ∀ other, after.HasConfig ns other ↔ before.HasConfig ns other
  others : ∀ other, other ≠ name → after.objects.get? ⟨.config, ⟨some ns, other⟩⟩ =
    before.objects.get? ⟨.config, ⟨some ns, other⟩⟩

section Calls

variable {ns name : String} {uid : Nat → String} {first : Nat} {s : Store}

theorem Tended.served_refl (h : Tended ns uid first s) (name : String) :
    Served ns uid first name s [] s where
  tended := h
  log := (List.append_nil _).symm
  calls e he := by simp at he
  hasConfig_iff _ := Iff.rfl
  others _ _ := rfl

theorem ResourceQuota.Ours.congr {after : Store} {q : ResourceQuota} (h : q.Ours s ns uid first)
    (hkept : ∀ other, s.HasConfig ns other → after.HasConfig ns other) :
    q.Ours after ns uid first :=
  ⟨h.hard_eq, h.uid_eq, fun r hr ↦ hkept _ (h.owners r hr)⟩

theorem Event.CallsFor.mono {after : Store} {e : Event} (h : e.CallsFor s ns)
    (hkept : ∀ other, s.HasConfig ns other → after.HasConfig ns other) : e.CallsFor after ns :=
  fun claims key hkey ↦
    have ⟨other, heq, hother⟩ := h claims key hkey
    ⟨other, heq, hkept other hother⟩

theorem isOwnedBy_congr {m m' : ObjectMeta} (h : m'.ownerReferences = m.ownerReferences)
    (uid : String) : m'.isOwnedBy uid = m.isOwnedBy uid := by
  rw [ObjectMeta.isOwnedBy, ObjectMeta.isOwnedBy, h]

theorem Event.keys_config {e : Event} (hkind : e.kind = .config) (hns : e.metadata.ns? = some ns)
    (claims : Claims) : e.keys claims = [.config ns e.metadata.name] := by
  simp [Event.keys, hkind, hns]

theorem Event.callsFor_of_quota {e : Event} (hkind : e.kind = .resourceQuota)
    (hns : e.metadata.ns? = some ns)
    (howners : ∀ r ∈ e.metadata.ownerReferences, s.HasConfig ns r.name) : e.CallsFor s ns := by
  intro claims key hkey
  simp only [Event.keys, hkind, hns, Option.toList_some, List.flatMap_cons, List.flatMap_nil,
    List.append_nil, List.mem_map, List.mem_filter] at hkey
  obtain ⟨r, ⟨hr, -⟩, rfl⟩ := hkey
  exact ⟨r.name, rfl, howners r hr⟩

section Recorded

variable {α : Type} [Resource α] [Resource.Lawful α] {type : EventType} {a : α} {issued : Nat}

/-- A write is served if it is of a config that is there, or of a quota in order. -/
theorem Tended.served_recorded (h : Tended ns uid first s)
    (hcoherent : (s.recorded type a issued).Coherent) (hissued : s.issued ≤ issued)
    (hconfig : ∀ other, Resource.ref a = ⟨.config, ⟨some ns, other⟩⟩ →
      other = name ∧ s.HasConfig ns other)
    (hquota : ∀ n, Resource.ref a = ⟨.resourceQuota, ⟨some ns, n⟩⟩ →
      ∃ q : ResourceQuota, Resource.encode a = Resource.encode q ∧ q.Ours s ns uid first)
    (hfree : ¬(Resource.kind α = .resourceQuota ∧ (Resource.key a).ns? = some ns) →
      ∀ n, first ≤ n → (Resource.metadata a).isOwnedBy (uid n) = false)
    (hcalls : (Event.ofWrite type a).CallsFor s ns) :
    Served ns uid first name s [.ofWrite type a] (s.recorded type a issued) := by
  have hhas (other : String) :
      (s.recorded type a issued).HasConfig ns other ↔ s.HasConfig ns other := by
    unfold HasConfig
    rw [get?_recorded]
    split
    · next href =>
      obtain ⟨-, object, hget⟩ := hconfig other href.symm
      exact ⟨fun _ ↦ ⟨object, hget⟩, fun _ ↦ ⟨_, rfl⟩⟩
    · exact Iff.rfl
  refine ⟨⟨hcoherent, Nat.le_trans h.first_le hissued, fun n object hget ↦ ?_,
    fun ref m hm hnot n hn ↦ ?_⟩, Array.toList_push .., fun e he ↦ ?_, hhas, fun other hne ↦ ?_⟩
  · rw [get?_recorded] at hget
    split at hget
    · next href =>
      cases hget
      obtain ⟨q, hq, hours⟩ := hquota n href.symm
      exact ⟨q, hq, hours.congr fun other ↦ (hhas other).2⟩
    · obtain ⟨q, hq, hours⟩ := h.quota n object hget
      exact ⟨q, hq, hours.congr fun other ↦ (hhas other).2⟩
  · rcases hasMeta_recorded_iff.1 hm with ⟨rfl, rfl⟩ | ⟨-, hbefore⟩
    · exact hfree hnot n hn
    · exact h.free ref m hbefore hnot n hn
  · rw [List.mem_singleton.1 he]
    exact hcalls.mono fun other ↦ (hhas other).2
  · rw [get?_recorded, if_neg fun href ↦ hne (hconfig other href.symm).1]

end Recorded

theorem Tended.update (h : Tended ns uid first s) {now : Timestamp} {c o : Config}
    (hc : s.HasConfigAs ns name now c) (hmeta : o.metadata = c.metadata) :
    ∃ written news after,
      Store.update .config (Resource.encode o) s = (.ok (Resource.encode written), after) ∧
      Served ns uid first name s news after ∧ after.HasConfigAs ns name now written ∧
      written.conditions = o.conditions ∧
      ∃ e ∈ news, ∀ claims, .config ns name ∈ e.keys claims := by
  obtain ⟨object, hget, hdecode⟩ := hc.get?
  have hkey : Resource.key o = ⟨some ns, name⟩ := by
    rw [Resource.key, show Resource.metadata o = c.metadata from hmeta]
    exact hc.2
  have href : Resource.ref o = ⟨.config, ⟨some ns, name⟩⟩ := congrArg (ObjectRef.mk _) hkey
  have hhas : s.HasConfig ns name := ⟨object, hget⟩
  have hm : metaOf .config object = .ok c.metadata := by
    refine h.coherent.metaOf_of_has (a := c) ?_ hdecode
    rw [Resource.ref, show Resource.key c = _ from hc.2]
    exact hget
  have hscope : scopeDefect .config o.metadata = none := by
    rw [hmeta]
    exact h.coherent.scopeDefect_of_has hc.1
  have hns : (Resource.metadata (asUpdate s c.metadata o)).ns? = some ns := by
    rw [metadata_asUpdate]
    exact congrArg ObjectKey.ns? hkey
  have hname : (Resource.metadata (asUpdate s c.metadata o)).name = name := by
    rw [metadata_asUpdate]
    exact congrArg ObjectKey.name hkey
  have hkeys (claims : Claims) :
      (Event.ofWrite .modified (asUpdate s c.metadata o)).keys claims = [.config ns name] := by
    rw [Event.keys_config rfl hns]
    exact congrArg (fun n ↦ [ReconcileKey.config ns n]) hname
  have hserved : Served ns uid first name s [.ofWrite .modified (asUpdate s c.metadata o)]
      (s.recorded .modified (asUpdate s c.metadata o) s.issued) := by
    refine h.served_recorded (h.coherent.update hscope _) (Nat.le_refl _) (fun other heq ↦ ?_)
      (fun n heq ↦ ?_) (fun _ n hn ↦ ?_) fun claims key hmem ↦ ?_
    · rw [ref_asUpdate, href] at heq
      cases heq
      exact ⟨rfl, hhas⟩
    · rw [ref_asUpdate, href] at heq
      cases heq
    · have howners : (stampOver s c.metadata (Resource.metadata o)).ownerReferences =
          c.metadata.ownerReferences := by
        rw [← hmeta]
        rfl
      rw [metadata_asUpdate, isOwnedBy_congr howners]
      exact h.free _ _ ⟨object, hget, hm⟩ (fun hquota ↦ by cases hquota.1) n hn
    · rw [hkeys, List.mem_singleton] at hmem
      exact ⟨name, hmem, hhas⟩
  refine ⟨asUpdate s c.metadata o, _, _, ?_, hserved, ⟨⟨_, ?_, Resource.decode_encode _⟩, ?_⟩, rfl,
    _, List.mem_singleton_self _, fun claims ↦ ?_⟩
  · have hupdate := update_encode (a := o) hscope (href ▸ hget) hm
      (congrArg ObjectMeta.resourceVersion hmeta)
    rw [recorded, metadata_asUpdate]
    exact hupdate
  · rw [get?_recorded, if_pos rfl]
  · exact ObjectKey.mk.injEq .. ▸ ⟨hns, hname⟩
  · rw [hkeys]
    exact List.mem_singleton_self _

theorem Tended.create (h : Tended ns uid first s) {env : Ambient} (huid : env.uid = uid)
    {c : Config} (hkey : c.metadata.key = ⟨some ns, name⟩) (hc : s.HasConfig ns name) :
    ∃ news, Served ns uid first name s news
        (Store.create env .resourceQuota (Resource.encode c.desiredQuota) s).2 ∧
      ∀ other, (Store.create env .resourceQuota (Resource.encode c.desiredQuota) s).2.objects.get?
        ⟨.config, ⟨some ns, other⟩⟩ = s.objects.get? ⟨.config, ⟨some ns, other⟩⟩ := by
  obtain ⟨hns, hname⟩ := ObjectKey.mk.inj hkey
  rcases create_cases env .resourceQuota (Resource.encode c.desiredQuota) s with
    ⟨e, he⟩ | ⟨m, hm, -, heq⟩
  · rw [he]
    exact ⟨[], h.served_refl name, fun _ ↦ rfl⟩
  · obtain ⟨hmeta, hscope⟩ := admitted_eq_ok_iff.1 hm
    rw [show metaOf .resourceQuota (Resource.encode c.desiredQuota) = _ from metaOf_encode _ _]
      at hmeta
    cases hmeta
    have hrecorded : (Store.create env .resourceQuota (Resource.encode c.desiredQuota) s).2 =
        s.recorded .added (asNew env s c.desiredQuota) (s.issued + 1) := by
      rw [heq, withMeta_encode, recorded, metadata_asNew]
      rfl
    have hns' : (Resource.metadata (asNew env s c.desiredQuota)).ns? = some ns := by
      rw [metadata_asNew]
      exact congrArg (fun ns? ↦ some (ns?.getD "")) hns
    have howners : ∀ r ∈ (Resource.metadata (asNew env s c.desiredQuota)).ownerReferences,
        s.HasConfig ns r.name := by
      rw [metadata_asNew]
      intro r hr
      rw [List.mem_singleton.1 hr]
      subst hname
      exact hc
    rw [hrecorded]
    refine ⟨_, h.served_recorded (h.coherent.create hscope _) (Nat.le_succ _)
      (fun other heq ↦ ?_) (fun n _ ↦ ?_) (fun hnot ↦ ?_)
      (Event.callsFor_of_quota rfl hns' howners), fun other ↦ ?_⟩
    · cases heq
    · exact ⟨asNew env s c.desiredQuota, rfl, rfl, ⟨s.issued, h.first_le, by rw [← huid]; rfl⟩,
        howners⟩
    · exact absurd ⟨rfl, hns'⟩ hnot
    · rw [get?_recorded, if_neg fun heq ↦ by cases heq]

theorem Tended.delete (h : Tended ns uid first s) (name quota : String) :
    ∃ news, Served ns uid first name s news
        (Store.delete ⟨.resourceQuota, ⟨some ns, quota⟩⟩ s).2 ∧
      ∀ other, (Store.delete ⟨.resourceQuota, ⟨some ns, quota⟩⟩ s).2.objects.get?
        ⟨.config, ⟨some ns, other⟩⟩ = s.objects.get? ⟨.config, ⟨some ns, other⟩⟩ := by
  rcases delete_spec h.coherent ⟨.resourceQuota, ⟨some ns, quota⟩⟩ with
    ⟨-, heq⟩ | ⟨after, heq, hswept⟩
  · rw [heq]
    exact ⟨[], h.served_refl name, fun _ ↦ rfl⟩
  rw [heq]
  have hours {ref : ObjectRef} {m : ObjectMeta} (hm : s.HasMeta ref m)
      (hquota : ref.kind = .resourceQuota ∧ ref.key.ns? = some ns) :
      ∃ q : ResourceQuota, m = q.metadata ∧ q.Ours s ns uid first := by
    obtain ⟨⟨kind, ⟨ns?, n⟩⟩, ⟨object, hget, hm⟩, rfl, rfl⟩ := ref, hm, hquota
    obtain ⟨q, rfl, hq⟩ := h.quota n object hget
    rw [show metaOf .resourceQuota (Resource.encode q) = _ from metaOf_encode _ q] at hm
    cases hm
    exact ⟨q, rfl, hq⟩
  -- what is owned by a quota of the namespace is one itself
  have hgone := hswept.caused (fun ref ↦ ref.kind = .resourceQuota ∧ ref.key.ns? = some ns)
    (fun ref href ↦ by rw [List.mem_singleton.1 href]; exact ⟨rfl, rfl⟩)
    (fun ref m ref' m' hquota _ hm hm' howned ↦ by
      obtain ⟨q, rfl, hq⟩ := hours hm hquota
      obtain ⟨n, hn, huid⟩ := hq.uid_eq
      refine Decidable.by_contra fun hnot ↦ ?_
      rw [huid, h.free ref' m' hm' hnot n hn] at howned
      cases howned)
  have hsame (other : String) : after.objects.get? ⟨.config, ⟨some ns, other⟩⟩ =
      s.objects.get? ⟨.config, ⟨some ns, other⟩⟩ := by
    rcases hswept.get?_eq ⟨.config, ⟨some ns, other⟩⟩ with hkept | hnone
    · exact hkept
    · cases hget : s.objects.get? ⟨.config, ⟨some ns, other⟩⟩ with
      | none => exact hnone
      | some object => cases (hgone _ object hget hnone).1
  have hhas (other : String) : after.HasConfig ns other ↔ s.HasConfig ns other :=
    hasConfig_congr (hsame other)
  obtain ⟨told, hlog, htells, -⟩ := hswept.log_eq
  refine ⟨told, ⟨⟨hswept.coherent h.coherent, hswept.issued_eq ▸ h.first_le,
    fun n object hget ↦ ?_, fun ref m hm ↦ h.free ref m (hswept.hasMeta hm)⟩, ?_, fun e he ↦ ?_,
    hhas, fun other _ ↦ hsame other⟩, hsame⟩
  · obtain ⟨q, hq, hours⟩ := h.quota n object (hswept.kept _ _ hget)
    exact ⟨q, hq, hours.congr fun other ↦ (hhas other).2⟩
  · rw [hlog]
    simp
  · obtain ⟨⟨-, hget, hm⟩, hnone⟩ := htells e he
    have hquota := hgone e.ref e.object hget hnone
    obtain ⟨q, hq, hours⟩ := hours ⟨e.object, hget, hm⟩ hquota
    refine Event.callsFor_of_quota hquota.1 hquota.2 fun r hr ↦ (hhas r.name).2 ?_
    rw [hq] at hr
    exact hours.owners r hr

end Calls

end TenantAccess
