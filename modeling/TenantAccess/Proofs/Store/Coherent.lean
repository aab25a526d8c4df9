import TenantAccess.Proofs.Document.Metadata

/-!
# Coherent stores

A store files every document under the kind and key that it carries, with a version that was given
out before.  Each operation keeps it so, and changes one entry at most.
-/

namespace TenantAccess

open Std

namespace SortedMap

variable {α β : Type} [Ord α] [LawfulEqOrd α]

theorem get?_insert_eq [TransOrd α] [DecidableEq α] (m : SortedMap α β) (k a : α) (v : β) :
    (m.insert k v).get? a = if a = k then some v else m.get? a := by
  simp

theorem get?_erase_eq [DecidableEq α] (m : SortedMap α β) (k a : α) :
    (m.erase k).get? a = if a = k then none else m.get? a := by
  simp [eq_comm (a := a)]

theorem lookup_eq_some_iff {l : List (α × β)}
    (h : l.Pairwise fun a b ↦ compare a.1 b.1 = .lt) {k : α} {v : β} :
    lookup k l = some v ↔ (k, v) ∈ l := by
  refine ⟨mem_of_lookup, fun hmem ↦ ?_⟩
  induction l with
  | nil => simp at hmem
  | cons e rest ih =>
    obtain ⟨k', v'⟩ := e
    obtain ⟨hhead, htail⟩ := List.pairwise_cons.1 h
    rcases List.mem_cons.1 hmem with heq | hmem'
    · cases heq
      simp [lookup]
    · have hne : ¬compare k k' = .eq := fun heq ↦ by
        cases LawfulEqCmp.eq_of_compare heq
        simpa using hhead (k, v) hmem'
      simp [lookup, hne, ih htail hmem']

theorem mem_entries_iff {m : SortedMap α β} {k : α} {v : β} :
    (k, v) ∈ m.entries ↔ m.get? k = some v :=
  (lookup_eq_some_iff m.sorted).symm

end SortedMap

/-- A number is told by its digits. -/
theorem toString_nat_injective {m n : Nat} (h : toString m = toString n) : m = n := by
  have hdigits : Nat.toDigits 10 m = Nat.toDigits 10 n := String.ofList_injective h
  rw [← Nat.ofDigitChars_ten_toDigits (n := m), hdigits, Nat.ofDigitChars_ten_toDigits]

namespace Store

/-! ## Documents in their place -/

/-- A document under its own kind and key, with a version not above `version`. -/
def Filed (version : Nat) (ref : ObjectRef) (object : Json) : Prop :=
  ∃ m, admitted ref.kind object = .ok m ∧ m.key = ref.key ∧
    ∃ v ≤ version, m.resourceVersion = some (toString v)

def Coherent (s : Store) : Prop :=
  ∀ ref object, s.objects.get? ref = some object → Filed s.version ref object

theorem coherent_empty : empty.Coherent := fun _ _ h ↦ by cases h

theorem admitted_eq_ok_iff {kind : Kind} {object : Json} {m : ObjectMeta} :
    admitted kind object = .ok m ↔ metaOf kind object = .ok m ∧ scopeDefect kind m = none := by
  unfold admitted
  cases hm : metaOf kind object with
  | error e =>
    refine ⟨fun h ↦ ?_, fun h ↦ ?_⟩
    · cases h
    · cases h.1
  | ok m' =>
    simp only [bind, Except.bind]
    cases hdefect : scopeDefect kind m' with
    | some defect =>
      constructor
      · intro h
        cases h
      · rintro ⟨h, hnone⟩
        cases h
        rw [hdefect] at hnone
        cases hnone
    | none =>
      refine ⟨fun h ↦ ?_, fun h ↦ h.1⟩
      cases h
      exact ⟨rfl, hdefect⟩

theorem scopeDefect_congr {kind : Kind} {m m' : ObjectMeta} (h : m.key = m'.key) :
    scopeDefect kind m = scopeDefect kind m' := by
  obtain ⟨hns, hname⟩ := ObjectKey.mk.inj h
  simp only [scopeDefect, hns, hname]

theorem exists_ns_of_scopeDefect {kind : Kind} {m : ObjectMeta} (hkind : kind.isNamespaced)
    (h : scopeDefect kind m = none) : ∃ ns, m.ns? = some ns ∧ ns ≠ "" := by
  simp only [scopeDefect, hkind, if_true] at h
  split at h
  · cases h
  · split at h
    · cases h
    · next hns =>
      cases hsome : m.ns? with
      | none => exact absurd (.inl hsome) hns
      | some ns => exact ⟨ns, rfl, fun hempty ↦ hns (.inr (hempty ▸ hsome))⟩

theorem ns?_eq_none_of_scopeDefect {kind : Kind} {m : ObjectMeta}
    (hkind : kind.isNamespaced = false) (h : scopeDefect kind m = none) : m.ns? = none := by
  simp only [scopeDefect, hkind] at h
  split at h
  · cases h
  · split at h
    · contradiction
    · split at h
      · cases h
      · next hns => simpa using hns

theorem scopeDefect_namespaced {kind : Kind} {ns : String} {m : ObjectMeta}
    (hname : m.name ≠ "") (hm : m.ns? = some ns) (hns : ns ≠ "") (hkind : kind.isNamespaced) :
    scopeDefect kind m = none := by
  simp [scopeDefect, hname, hm, hns, hkind]

theorem scopeDefect_cluster {kind : Kind} {m : ObjectMeta} (hname : m.name ≠ "")
    (hm : m.ns? = none) (hkind : kind.isNamespaced = false) : scopeDefect kind m = none := by
  simp [scopeDefect, hname, hm, hkind]

namespace Coherent

variable {s : Store} {ref : ObjectRef} {object : Json}

theorem exists_metaOf (h : s.Coherent) (hget : s.objects.get? ref = some object) :
    ∃ m, metaOf ref.kind object = .ok m ∧ m.key = ref.key ∧ scopeDefect ref.kind m = none := by
  obtain ⟨m, hm, hkey, -⟩ := h ref object hget
  exact ⟨m, (admitted_eq_ok_iff.1 hm).1, hkey, (admitted_eq_ok_iff.1 hm).2⟩

theorem key_eq (h : s.Coherent) (hget : s.objects.get? ref = some object) {m : ObjectMeta}
    (hm : metaOf ref.kind object = .ok m) : m.key = ref.key := by
  obtain ⟨m', hm', hkey, -⟩ := h.exists_metaOf hget
  rw [hm] at hm'
  cases hm'
  exact hkey

theorem scopeDefect_eq (h : s.Coherent) (hget : s.objects.get? ref = some object)
    {m : ObjectMeta} (hm : metaOf ref.kind object = .ok m) : scopeDefect ref.kind m = none := by
  obtain ⟨m', hm', -, hscope⟩ := h.exists_metaOf hget
  rw [hm] at hm'
  cases hm'
  exact hscope

end Coherent

/-! ## Accepted writes -/

/-- The metadata under which a new object is filed. -/
def stampNew (env : Ambient) (s : Store) (m : ObjectMeta) : ObjectMeta :=
  { m with
    uid := if m.uid = "" then env.uid s.issued else m.uid
    resourceVersion := some (toString (s.version + 1))
    creationTimestamp := some env.now }

def issuedWith (s : Store) (m : ObjectMeta) : Nat :=
  if m.uid = "" then s.issued + 1 else s.issued

theorem le_issuedWith (s : Store) (m : ObjectMeta) : s.issued ≤ s.issuedWith m := by
  unfold issuedWith
  split <;> omega

/-- The metadata under which an object replaces one with metadata `current`. -/
def stampOver (s : Store) (current m : ObjectMeta) : ObjectMeta :=
  { m with
    uid := current.uid
    creationTimestamp := current.creationTimestamp
    resourceVersion := some (toString (s.version + 1)) }

/-- The store after an accepted write of `object` with metadata `m`. -/
def written (s : Store) (type : EventType) (kind : Kind) (m : ObjectMeta) (object : Json)
    (issued : Nat) : Store :=
  publish { s with
    objects := s.objects.insert ⟨kind, m.key⟩ object
    version := s.version + 1
    writes := s.writes + 1
    issued } type kind m object

section Written

variable (s : Store) (type : EventType) (kind : Kind) (m : ObjectMeta) (object : Json)
  (issued : Nat) (env : Ambient) (current : ObjectMeta)

@[simp] theorem stampNew_key : (stampNew env s m).key = m.key := rfl

@[simp] theorem stampOver_key : (stampOver s current m).key = m.key := rfl

@[simp] theorem get?_written (ref : ObjectRef) :
    (s.written type kind m object issued).objects.get? ref =
      if ref = ⟨kind, m.key⟩ then some object else s.objects.get? ref :=
  SortedMap.get?_insert_eq _ _ _ _

@[simp] theorem version_written :
    (s.written type kind m object issued).version = s.version + 1 := rfl

@[simp] theorem issued_written : (s.written type kind m object issued).issued = issued := rfl

@[simp] theorem log_written :
    (s.written type kind m object issued).log = s.log.push ⟨type, kind, m, object⟩ := rfl

end Written

variable {s : Store} {env : Ambient} {kind : Kind} {object : Json}

theorem create_cases (env : Ambient) (kind : Kind) (object : Json) (s : Store) :
    (∃ e, create env kind object s = (.error e, s)) ∨
    ∃ m, admitted kind object = .ok m ∧ s.objects.get? ⟨kind, m.key⟩ = none ∧
      create env kind object s = (.ok (withMeta object (stampNew env s m)),
        s.written .added kind (stampNew env s m) (withMeta object (stampNew env s m))
          (s.issuedWith m)) := by
  unfold create
  cases hm : admitted kind object with
  | error e => exact .inl ⟨e, rfl⟩
  | ok m =>
    simp only
    cases hget : s.objects.get? ⟨kind, m.key⟩ with
    | some object' => exact .inl ⟨_, rfl⟩
    | none =>
      refine .inr ⟨m, rfl, hget, ?_⟩
      simp only [refiled_eq_ok (admitted_eq_ok_iff.1 hm).1, stampNew, written, issuedWith,
        decide_eq_true_eq]
      rfl

theorem update_cases (kind : Kind) (object : Json) (s : Store) :
    (∃ e, update kind object s = (.error e, s)) ∨
    ∃ m current c, admitted kind object = .ok m ∧
      s.objects.get? ⟨kind, m.key⟩ = some current ∧ metaOf kind current = .ok c ∧
      (m.resourceVersion = none ∨ m.resourceVersion = some (c.resourceVersion.getD "")) ∧
      update kind object s = (.ok (withMeta object (stampOver s c m)),
        s.written .modified kind (stampOver s c m) (withMeta object (stampOver s c m))
          s.issued) := by
  unfold update
  cases hm : admitted kind object with
  | error e => exact .inl ⟨e, rfl⟩
  | ok m =>
    simp only
    cases hget : s.objects.get? ⟨kind, m.key⟩ with
    | none => exact .inl ⟨_, rfl⟩
    | some current =>
      simp only
      cases hc : metaOf kind current with
      | error e => exact .inl ⟨e, rfl⟩
      | ok c =>
        simp only
        cases hversion : m.resourceVersion.filter (· ≠ c.resourceVersion.getD "") with
        | some expected => exact .inl ⟨_, rfl⟩
        | none =>
          simp only [refiled_eq_ok (admitted_eq_ok_iff.1 hm).1]
          refine .inr ⟨m, current, c, rfl, hget, hc, ?_, rfl⟩
          cases hv : m.resourceVersion with
          | none => exact .inl rfl
          | some v =>
            rw [hv] at hversion
            exact .inr (congrArg some (by simpa using hversion))

theorem filed_mono {v v' : Nat} (h : v ≤ v') {ref : ObjectRef} (hfiled : Filed v ref object) :
    Filed v' ref object := by
  obtain ⟨m, hm, hkey, n, hn, hversion⟩ := hfiled
  exact ⟨m, hm, hkey, n, Nat.le_trans hn h, hversion⟩

theorem coherent_written (h : s.Coherent) {m m₀ : ObjectMeta} (hm : admitted kind object = .ok m₀)
    (hkey : m.key = m₀.key) (hversion : m.resourceVersion = some (toString (s.version + 1)))
    (type : EventType) (issued : Nat) :
    (s.written type kind m (withMeta object m) issued).Coherent := by
  intro ref object' hget
  rw [get?_written] at hget
  split at hget
  · next href =>
    cases hget
    subst href
    obtain ⟨hmeta, hscope⟩ := admitted_eq_ok_iff.1 hm
    exact ⟨m, admitted_eq_ok_iff.2 ⟨metaOf_withMeta hmeta m, (scopeDefect_congr hkey).trans hscope⟩,
      rfl, s.version + 1, Nat.le_refl _, hversion⟩
  · exact filed_mono (Nat.le_succ _) (h ref object' hget)

theorem coherent_create (h : s.Coherent) (env : Ambient) (kind : Kind) (object : Json) :
    (create env kind object s).2.Coherent := by
  rcases create_cases env kind object s with ⟨e, he⟩ | ⟨m, hm, -, heq⟩
  · rwa [he]
  · rw [heq]
    exact coherent_written h hm (stampNew_key ..) rfl _ _

theorem coherent_update (h : s.Coherent) (kind : Kind) (object : Json) :
    (update kind object s).2.Coherent := by
  rcases update_cases kind object s with ⟨e, he⟩ | ⟨m, current, c, hm, -, -, -, heq⟩
  · rwa [he]
  · rw [heq]
    exact coherent_written h hm (stampOver_key ..) rfl _ _

/-! ## Typed objects -/

section Typed

variable {α : Type} [Resource α] [Resource.Lawful α] {a b : α}

/-- The object `a` is stored as it would be written. -/
def Holds (s : Store) (a : α) : Prop :=
  s.objects.get? (Resource.ref a) = some (Resource.encode a)

theorem Holds.eq_of_key_eq (ha : s.Holds a) (hb : s.Holds b)
    (h : Resource.key a = Resource.key b) : a = b := by
  have hget : some (Resource.encode a) = some (Resource.encode b) := by
    rw [← ha, ← hb, Resource.ref, Resource.ref, h]
  exact Resource.encode_injective (Option.some.inj hget)

theorem admitted_encode (h : scopeDefect (Resource.kind α) (Resource.metadata a) = none) :
    admitted (Resource.kind α) (Resource.encode a) = .ok (Resource.metadata a) :=
  admitted_eq_ok_iff.2 ⟨metaOf_encode _ a, h⟩

theorem create_encode (h : scopeDefect (Resource.kind α) (Resource.metadata a) = none)
    (hnone : s.objects.get? (Resource.ref a) = none) :
    create env (Resource.kind α) (Resource.encode a) s =
      (.ok (Resource.encode (Resource.withMeta a (stampNew env s (Resource.metadata a)))),
        s.written .added (Resource.kind α) (stampNew env s (Resource.metadata a))
          (Resource.encode (Resource.withMeta a (stampNew env s (Resource.metadata a))))
          (s.issuedWith (Resource.metadata a))) := by
  rcases create_cases env (Resource.kind α) (Resource.encode a) s with
    ⟨e, he⟩ | ⟨m, hm, -, heq⟩
  · unfold create at he
    rw [admitted_encode h] at he
    change s.objects.get? ⟨Resource.kind α, (Resource.metadata a).key⟩ = none at hnone
    simp [hnone, refiled_eq_ok (metaOf_encode _ a)] at he
  · rw [admitted_encode h] at hm
    cases hm
    rwa [withMeta_encode] at heq

theorem update_encode {current : Json} {c : ObjectMeta}
    (h : scopeDefect (Resource.kind α) (Resource.metadata a) = none)
    (hget : s.objects.get? (Resource.ref a) = some current)
    (hc : metaOf (Resource.kind α) current = .ok c)
    (hversion : (Resource.metadata a).resourceVersion = c.resourceVersion) :
    update (Resource.kind α) (Resource.encode a) s =
      (.ok (Resource.encode (Resource.withMeta a (stampOver s c (Resource.metadata a)))),
        s.written .modified (Resource.kind α) (stampOver s c (Resource.metadata a))
          (Resource.encode (Resource.withMeta a (stampOver s c (Resource.metadata a))))
          s.issued) := by
  unfold update
  rw [admitted_encode h]
  have hget' : s.objects.get? ⟨Resource.kind α, (Resource.metadata a).key⟩ = some current := hget
  have hfilter : c.resourceVersion.filter (· ≠ c.resourceVersion.getD "") = none := by
    cases c.resourceVersion <;> simp
  simp only [hget', hc, hversion, hfilter, refiled_eq_ok (metaOf_encode _ a), withMeta_encode]
  rfl

end Typed

end Store

end TenantAccess
