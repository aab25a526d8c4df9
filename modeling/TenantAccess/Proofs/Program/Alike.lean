import TenantAccess.Proofs.Rbac.Ownership

/-!
# Two runs side by side

Two stores agree on an object if both have it with the same content, apart from what each store stamps
on all that it files.  Two tasks are alike in some places if, run on stores that agree there, they
succeed, write the same in these places and nothing elsewhere, and leave stores that agree again.
-/

namespace TenantAccess

open Json Store

/-- Metadata without the version and the time that a store stamps on it. -/
def ObjectMeta.undated (m : ObjectMeta) : ObjectMeta :=
  { m with resourceVersion := none, creationTimestamp := none }

/-- Metadata without an identity, a version and a time. -/
def ObjectMeta.unstamped (m : ObjectMeta) : ObjectMeta := { m.undated with uid := "" }

namespace Resource

variable {α : Type} [Resource α]

def undated (a : α) : α := withMeta a (metadata a).undated

def unstamped (a : α) : α := withMeta a (metadata a).unstamped

end Resource

def Event.unstamped (e : Event) : Event :=
  { e with
    metadata := e.metadata.unstamped
    object := withMeta e.object e.metadata.unstamped }

/-- What a document says as an object of the kind, apart from stamps; `none` if it cannot be read. -/
def Kind.content (k : Kind) (now : Timestamp) (object : Json) : Option Json :=
  (Resource.decode strict now object).map fun o : k.Object ↦ Resource.encode (Resource.unstamped o)

/-- A derived type that is the one of its kind, and whose content is apart from metadata. -/
class Derived.Plain (α : Type) [Derived α] : Prop extends toDerivedLawful : Derived.Lawful α where
  withMeta_withMeta (a : α) (m m' : ObjectMeta) :
    Resource.withMeta (Resource.withMeta a m) m' = Resource.withMeta a m'
  apply_withMeta (desired observed : α) (m : ObjectMeta) :
    Derived.apply desired (Resource.withMeta observed m) =
      Resource.withMeta (Derived.apply desired observed) m
  content_eq (now : Timestamp) (object : Json) : (Resource.kind α).content now object =
    (Resource.decode strict now object).map fun a : α ↦ Resource.encode (Resource.unstamped a)
  derived : (Resource.kind α).origin ≠ none

instance (s : Scope) : Derived.Plain (Role s) where
  withMeta_withMeta _ _ _ := rfl
  apply_withMeta _ _ _ := rfl
  content_eq _ _ := by cases s <;> rfl
  derived := by cases s <;> nofun

instance (s : Scope) : Derived.Plain (Binding s) where
  withMeta_withMeta _ _ _ := rfl
  apply_withMeta _ _ _ := rfl
  content_eq _ _ := by cases s <;> rfl
  derived := by cases s <;> nofun

namespace Store

variable {now : Timestamp} {P : ObjectRef → Prop} {s s' after after' : Store} {ref : ObjectRef}

def contentAt (now : Timestamp) (s : Store) (ref : ObjectRef) : Option (Option Json) :=
  (s.objects.get? ref).map (ref.kind.content now)

/-- A coherent store in which tenants, inventories, roles and bindings can all be read. -/
structure Readable (now : Timestamp) (s : Store) : Prop where
  coherent : s.Coherent
  decodes : ∀ ref object, ref.kind ≠ .config → ref.kind ≠ .resourceQuota →
    s.objects.get? ref = some object →
    ∃ o : ref.kind.Object, Resource.decode strict now object = some o

/-- Two readable stores with the same in the places `P`. -/
structure Agree (now : Timestamp) (P : ObjectRef → Prop) (s s' : Store) : Prop where
  left : s.Readable now
  right : s'.Readable now
  content : ∀ ref, P ref → s.contentAt now ref = s'.contentAt now ref

/-- Two stores move on in step: they log the same, change in the places `P` alone, and agree there. -/
structure InStep (now : Timestamp) (P : ObjectRef → Prop) (s s' after after' : Store) : Prop where
  agree : after.Agree now P after'
  frame_left : ∀ ref, ¬P ref → after.objects.get? ref = s.objects.get? ref
  frame_right : ∀ ref, ¬P ref → after'.objects.get? ref = s'.objects.get? ref
  log : ∃ news news', after.log.toList = s.log.toList ++ news ∧
    after'.log.toList = s'.log.toList ++ news' ∧
    news.map Event.unstamped = news'.map Event.unstamped

theorem Agree.inStep (h : s.Agree now P s') : InStep now P s s' s s' where
  agree := h
  frame_left _ _ := rfl
  frame_right _ _ := rfl
  log := ⟨[], [], (List.append_nil _).symm, (List.append_nil _).symm, rfl⟩

theorem InStep.trans {later later' : Store} (h : InStep now P s s' after after')
    (h' : InStep now P after after' later later') : InStep now P s s' later later' where
  agree := h'.agree
  frame_left ref hout := (h'.frame_left ref hout).trans (h.frame_left ref hout)
  frame_right ref hout := (h'.frame_right ref hout).trans (h.frame_right ref hout)
  log := by
    obtain ⟨news, news', hlog, hlog', hsame⟩ := h.log
    obtain ⟨more, more', hmore, hmore', hsame'⟩ := h'.log
    refine ⟨news ++ more, news' ++ more', ?_, ?_, ?_⟩
    · rw [hmore, hlog, List.append_assoc]
    · rw [hmore', hlog', List.append_assoc]
    · rw [List.map_append, List.map_append, hsame, hsame']

theorem unstamped_stampNew (env env' : Ambient) (s s' : Store) (m : ObjectMeta) :
    (stampNew env s m).unstamped = (stampNew env' s' m).unstamped := rfl

section Typed

variable {α : Type} [Derived α] [Derived.Plain α] {a a' : α}

theorem content_encode (now : Timestamp) (a : α) :
    (Resource.kind α).content now (Resource.encode a) =
      some (Resource.encode (Resource.unstamped a)) := by
  rw [Derived.Plain.content_eq, Resource.decode_encode]
  rfl

theorem ref_unstamped (a : α) : Resource.ref (Resource.unstamped a) = Resource.ref a := by
  rw [Resource.ref, Resource.key, Resource.unstamped, Resource.metadata_withMeta]
  rfl

theorem unstamped_withMeta {m m' : ObjectMeta} (h : m.unstamped = m'.unstamped) (a : α) :
    Resource.unstamped (Resource.withMeta a m) = Resource.unstamped (Resource.withMeta a m') := by
  rw [Resource.unstamped, Resource.unstamped, Resource.metadata_withMeta,
    Resource.metadata_withMeta, Derived.Plain.withMeta_withMeta, Derived.Plain.withMeta_withMeta, h]

theorem metadata_unstamped_eq (h : Resource.unstamped a = Resource.unstamped a') :
    (Resource.metadata a).unstamped = (Resource.metadata a').unstamped := by
  simpa [Resource.unstamped] using congrArg Resource.metadata h

theorem derived_kind : (Resource.kind α).origin ≠ none := Derived.Plain.derived

theorem Readable.exists_decode (h : s.Readable now) {key : ObjectKey} {object : Json}
    (hget : s.objects.get? ⟨Resource.kind α, key⟩ = some object) :
    ∃ a : α, Resource.decode strict now object = some a := by
  have hconfig : Resource.kind α ≠ .config := fun hkind ↦ derived_kind (α := α) (by rw [hkind]; rfl)
  have hquota : Resource.kind α ≠ .resourceQuota :=
    fun hkind ↦ derived_kind (α := α) (by rw [hkind]; rfl)
  obtain ⟨o, ho⟩ := h.decodes _ object hconfig hquota hget
  have hcontent : (Resource.kind α).content now object =
      some (Resource.encode (Resource.unstamped o)) := by
    change Option.map _ (Resource.decode (α := (Resource.kind α).Object) strict now object) = _
    rw [show Resource.decode (α := (Resource.kind α).Object) strict now object = some o from ho]
    rfl
  rw [Derived.Plain.content_eq] at hcontent
  obtain ⟨a, ha, -⟩ := Option.map_eq_some_iff.1 hcontent
  exact ⟨a, ha⟩

theorem Agree.cases (h : s.Agree now P s') {key : ObjectKey} (hP : P ⟨Resource.kind α, key⟩) :
    (s.objects.get? ⟨Resource.kind α, key⟩ = none ∧
      s'.objects.get? ⟨Resource.kind α, key⟩ = none) ∨
    ∃ a a' : α, s.Has now a ∧ s'.Has now a' ∧ Resource.key a = key ∧ Resource.key a' = key ∧
      Resource.unstamped a = Resource.unstamped a' := by
  have hcontent := h.content _ hP
  unfold contentAt at hcontent
  cases hget : s.objects.get? ⟨Resource.kind α, key⟩ with
  | none =>
    rw [hget] at hcontent
    exact .inl ⟨rfl, Option.map_eq_none_iff.1 hcontent.symm⟩
  | some object =>
    rw [hget] at hcontent
    obtain ⟨object', hget', hsame⟩ := Option.map_eq_some_iff.1 hcontent.symm
    obtain ⟨a, ha⟩ := h.left.exists_decode hget
    obtain ⟨a', ha'⟩ := h.right.exists_decode hget'
    rw [Derived.Plain.content_eq, Derived.Plain.content_eq, ha, ha'] at hsame
    refine .inr ⟨a, a', h.left.coherent.has_of_decode hget ha,
      h.right.coherent.has_of_decode hget' ha', h.left.coherent.key_of_decode hget ha,
      h.right.coherent.key_of_decode hget' ha', ?_⟩
    exact Resource.encode_injective (Option.some.inj hsame).symm

theorem Readable.recorded {type : EventType} {issued : Nat} (h : s.Readable now)
    (hcoherent : (s.recorded type a issued).Coherent) :
    (s.recorded type a issued).Readable now where
  coherent := hcoherent
  decodes := by
    intro ref object hconfig hquota hget
    rw [get?_recorded] at hget
    split at hget
    · next href =>
      cases hget
      subst href
      have hcontent := content_encode now a
      obtain ⟨o, ho, -⟩ := Option.map_eq_some_iff.1 hcontent
      exact ⟨o, ho⟩
    · exact h.decodes ref object hconfig hquota hget

theorem Agree.recorded {type : EventType} {issued issued' : Nat} (h : s.Agree now P s')
    (hP : P (Resource.ref a)) (hsame : Resource.unstamped a = Resource.unstamped a')
    (hcoherent : (s.recorded type a issued).Coherent)
    (hcoherent' : (s'.recorded type a' issued').Coherent) :
    InStep now P s s' (s.recorded type a issued) (s'.recorded type a' issued') := by
  have href : Resource.ref a = Resource.ref a' := by
    rw [← ref_unstamped a, hsame, ref_unstamped]
  constructor
  · refine ⟨h.left.recorded hcoherent, h.right.recorded hcoherent', fun ref hin ↦ ?_⟩
    rw [contentAt, contentAt, get?_recorded, get?_recorded, ← href]
    split
    · next heq =>
      subst heq
      have hcontent := content_encode now a
      have hcontent' := content_encode now a'
      rw [← hsame] at hcontent'
      exact congrArg some (hcontent.trans hcontent'.symm)
    · exact h.content ref hin
  · intro ref hout
    rw [get?_recorded, if_neg (by rintro rfl; exact hout hP)]
  · intro ref hout
    rw [get?_recorded, if_neg (by rintro rfl; exact hout (href ▸ hP))]
  · refine ⟨[_], [_], by rw [log_recorded, Array.toList_push],
      by rw [log_recorded, Array.toList_push], ?_⟩
    simp only [List.map_cons, List.map_nil, Event.unstamped, withMeta_encode,
      metadata_unstamped_eq hsame]
    rw [← metadata_unstamped_eq hsame, ← Resource.unstamped, hsame, Resource.unstamped,
      metadata_unstamped_eq hsame]

end Typed

end Store

namespace Task

variable {α β γ δ : Type} {now : Timestamp} {P : ObjectRef → Prop} {env env' : Surroundings}

/-- Whatever the two stores hold outside the places `P`, the two tasks succeed with results related by
`R`, and the stores move on in step. -/
def Alike (now : Timestamp) (P : ObjectRef → Prop) (env env' : Surroundings) (x : Task α)
    (x' : Task β) (R : α → β → Prop) : Prop :=
  ∀ w w' : World, w.store.Agree now P w'.store → ∃ a v a' v',
    x.exec env w = (.ok a, v) ∧ x'.exec env' w' = (.ok a', v') ∧ R a a' ∧
      InStep now P w.store w'.store v.store v'.store

theorem alike_pure {R : α → β → Prop} {a : α} {a' : β} (h : R a a') :
    Alike now P env env' (pure a) (pure a') R :=
  fun w w' hagree ↦ ⟨a, w, a', w', rfl, rfl, h, hagree.inStep⟩

theorem Alike.bind {x : Task α} {x' : Task β} {R : α → β → Prop} {f : α → Task γ} {f' : β → Task δ}
    {R' : γ → δ → Prop} (h : Alike now P env env' x x' R)
    (hf : ∀ a a', R a a' → Alike now P env env' (f a) (f' a') R') :
    Alike now P env env' (x >>= f) (x' >>= f') R' := by
  intro w w' hagree
  obtain ⟨a, v, a', v', hexec, hexec', hresult, hstep⟩ := h w w' hagree
  obtain ⟨b, u, b', u', hrest, hrest', hresult', hstep'⟩ := hf a a' hresult v v' hstep.agree
  refine ⟨b, u, b', u', ?_, ?_, hresult', hstep.trans hstep'⟩
  · rw [exec_bind_of_ok hexec, hrest]
  · rw [exec_bind_of_ok hexec', hrest']

section Typed

variable [Derived α] [Derived.Plain α] {desired : α}

theorem alike_find? {key : ObjectKey} (hP : P ⟨Resource.kind α, key⟩) :
    Alike now P env env' (find? (α := α) now key) (find? (α := α) now key)
      fun o o' ↦ o.isSome = o'.isSome := by
  intro w w' hagree
  rcases hagree.cases hP with ⟨hnone, hnone'⟩ | ⟨a, a', ha, ha', rfl, hkey, -⟩
  · exact ⟨none, w, none, w', exec_find?_of_none hnone, exec_find?_of_none hnone', rfl,
      hagree.inStep⟩
  · refine ⟨some a, w, some a', w', exec_find?_of_has ha, ?_, rfl, hagree.inStep⟩
    rw [← hkey]
    exact exec_find?_of_has ha'

variable {ω : Type} [Resource ω]

theorem differs_unstamped (desired observed : α) :
    Derived.differs desired (Resource.unstamped observed) = Derived.differs desired observed :=
  Derived.Lawful.differs_withMeta_right ..

theorem unstamped_asEnsuredOver (s s' : Store) {observed observed' : α}
    (h : Resource.unstamped observed = Resource.unstamped observed') (desired : α) :
    Resource.unstamped (asEnsuredOver s desired observed) =
      Resource.unstamped (asEnsuredOver s' desired observed') := by
  have hmeta := metadata_unstamped_eq h
  have hover (s : Store) (observed : α) : Resource.unstamped (asEnsuredOver s desired observed) =
      Derived.apply desired (Resource.unstamped observed) := by
    rw [Resource.unstamped, metadata_asEnsuredOver, asEnsuredOver, asUpdate,
      Derived.Plain.withMeta_withMeta, Resource.unstamped, Derived.Plain.apply_withMeta]
    rfl
  rw [hover, hover, h]

theorem alike_ensure (owner : ω) (hgate : gate desired = [])
    (hscope : scopeDefect (Resource.kind α) (Resource.metadata desired) = none)
    (hP : P (Resource.ref desired)) :
    Alike now P env env' (ensure now desired owner) (ensure now desired owner) Eq := by
  intro w w' hagree
  have hleft := hagree.left.coherent
  have hright := hagree.right.coherent
  rcases hagree.cases (α := α) hP with ⟨hnone, hnone'⟩ | ⟨a, a', ha, ha', hkey, hkey', hsame⟩
  · refine ⟨.created, _, .created, _, exec_ensure_of_none owner hgate hnone hscope,
      exec_ensure_of_none owner hgate hnone' hscope, rfl, ?_⟩
    have hscope' := (scopeDefect_ownedBy owner desired).trans hscope
    refine hagree.recorded ?_ ?_ (hleft.create hscope' _) (hright.create hscope' _)
    · change P ⟨Resource.kind α, Resource.key (asEnsuredNew env w.store owner desired)⟩
      rw [key_asEnsuredNew]
      exact hP
    · exact unstamped_withMeta (unstamped_stampNew ..) _
  · have hexec := exec_ensure_of_has env hleft owner hgate ha hkey
    have hexec' := exec_ensure_of_has env' hright owner hgate ha' hkey'
    have hdiffers : Derived.differs desired a' = Derived.differs desired a := by
      rw [← differs_unstamped desired a, hsame, differs_unstamped]
    have howned : (Resource.metadata a').isOwnedBy (Resource.metadata owner).uid =
        (Resource.metadata a).isOwnedBy (Resource.metadata owner).uid := by
      have hrefs := congrArg ObjectMeta.ownerReferences (metadata_unstamped_eq hsame)
      have hrefs : (Resource.metadata a).ownerReferences =
        (Resource.metadata a').ownerReferences := hrefs
      rw [ObjectMeta.isOwnedBy, ObjectMeta.isOwnedBy, hrefs]
    rw [hdiffers, howned] at hexec'
    split at hexec
    · next hmatches =>
      rw [if_pos hmatches] at hexec'
      exact ⟨.unchanged, w, .unchanged, w', hexec, hexec', rfl, hagree.inStep⟩
    · next hdrifted =>
      rw [if_neg hdrifted] at hexec'
      split at hexec
      · next hstranger =>
        rw [if_pos hstranger] at hexec'
        exact ⟨.notOwned, w, .notOwned, w', hexec, hexec', rfl, hagree.inStep⟩
      · next hours =>
        rw [if_neg hours] at hexec'
        refine ⟨.updated, _, .updated, _, hexec, hexec', rfl, ?_⟩
        have hvalid {s : Store} {b : α} (h : s.Coherent) (hb : s.Has now b) : scopeDefect
            (Resource.kind α) (Resource.metadata (Derived.apply desired b)) = none := by
          rw [Derived.Lawful.metadata_apply]
          exact h.scopeDefect_of_has hb
        refine hagree.recorded ?_ (unstamped_asEnsuredOver _ _ hsame desired)
          (hleft.update (hvalid hleft ha) _) (hright.update (hvalid hright ha') _)
        change P ⟨Resource.kind α, Resource.key (asEnsuredOver w.store desired a)⟩
        rw [key_asEnsuredOver, hkey]
        exact hP

end Typed

end Task

end TenantAccess
