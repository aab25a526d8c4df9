import TenantAccess.Proofs.Store.Calls

/-!
# Documents are well kept

Whatever a store is asked to do, and with whatever documents, each document it holds is found under
the kind and key that its metadata tells, is listed where it matches, and keeps its identity for as
long as it is there.
-/

namespace TenantAccess

open Std

def ListParams.Matches (p : ListParams) (m : ObjectMeta) : Prop :=
  (∀ ns, p.ns? = some ns → m.ns? = some ns) ∧
    ∀ label value, p.labels.get? label = some value → m.labels.get? label = some value

theorem ListParams.accepts_iff {p : ListParams} {m : ObjectMeta} :
    p.accepts m ↔ p.Matches m := by
  have hlabels : (p.labels.entries.all fun e ↦ m.labels.get? e.1 = some e.2) ↔
      ∀ label value, p.labels.get? label = some value → m.labels.get? label = some value := by
    simp [List.all_eq_true, SortedMap.mem_entries_iff]
  rw [accepts, Bool.and_eq_true, hlabels, Matches]
  cases p.ns? <;> simp

namespace Store

variable {s after : Store} {env : Ambient} {ref : ObjectRef} {kind : Kind} {object stored : Json}
  {m m' : ObjectMeta} {params : ListParams}

/-- The name is there, and the namespace exactly where the kind calls for one. -/
def Scoped (kind : Kind) (m : ObjectMeta) : Prop :=
  m.name ≠ "" ∧
    ((kind.isNamespaced = true ∧ ∃ ns, m.ns? = some ns ∧ ns ≠ "") ∨
      (kind.isNamespaced = false ∧ m.ns? = none))

theorem scoped_of_scopeDefect (h : scopeDefect kind m = none) : Scoped kind m := by
  constructor
  · intro hname
    simp [scopeDefect, hname] at h
  · cases hkind : kind.isNamespaced with
    | true => exact .inl ⟨rfl, exists_ns_of_scopeDefect hkind h⟩
    | false => exact .inr ⟨rfl, ns?_eq_none_of_scopeDefect hkind h⟩

/-! ## What is stored -/

/-- The entries are those of the kind that match, in key order. -/
structure Lists (s : Store) (kind : Kind) (params : ListParams)
    (entries : List (ObjectKey × Json)) : Prop where
  increasing : entries.Pairwise fun a b ↦ compare a.1 b.1 = .lt
  mem_iff : ∀ key object, (key, object) ∈ entries ↔ s.get ⟨kind, key⟩ = .ok object ∧
    ∃ m, metaOf kind object = .ok m ∧ params.Matches m

structure WellKept (s : Store) : Prop where
  filed : ∀ ref object, s.get ref = .ok object → ∃ m, metaOf ref.kind object = .ok m ∧
    m.key = ref.key ∧ Scoped ref.kind m ∧ m.uid ≠ "" ∧
    ∃ v ≤ s.version, m.resourceVersion = some (toString v)
  versioned : s.Versioned
  listed : ∀ kind params, ∃ entries,
    s.list kind params = .ok (entries.map (·.2)) ∧ s.Lists kind params entries

theorem get_eq_ok_iff : s.get ref = .ok object ↔ s.objects.get? ref = some object := by
  unfold get
  cases s.objects.get? ref <;> simp

theorem exists_lists (hs : s.Coherent) (kind : Kind) (params : ListParams) :
    ∃ entries, s.list kind params = .ok (entries.map (·.2)) ∧ s.Lists kind params entries := by
  -- what is selected, with the references cut down to their keys
  let selected := (s.objects.entries.filter fun e ↦ e.1.kind = kind).filter (acceptsEntry params)
  have hkind {e : ObjectRef × Json} (he : e ∈ selected) : e.1.kind = kind := by
    simpa using (List.mem_filter.1 (List.mem_filter.1 he).1).2
  refine ⟨selected.map fun e ↦ (e.1.key, e.2), ?_, ?_, fun key object ↦ ?_⟩
  · rw [Task.list_eq_ok s hs, List.map_map]
    rfl
  · refine List.pairwise_map.2 (((s.objects.sorted.filter _).filter _).imp_of_mem ?_)
    intro a b ha hb hlt
    rw [ObjectRef.compare_eq, hkind ha, hkind hb, compare_self] at hlt
    exact hlt
  · have hmem : (key, object) ∈ selected.map (fun e ↦ (e.1.key, e.2)) ↔
        (⟨kind, key⟩, object) ∈ selected := by
      rw [List.mem_map]
      constructor
      · rintro ⟨⟨⟨kind', key'⟩, object'⟩, he, heq⟩
        cases heq
        cases hkind he
        exact he
      · exact fun he ↦ ⟨_, he, rfl⟩
    rw [hmem, List.mem_filter, List.mem_filter, SortedMap.mem_entries_iff, get_eq_ok_iff,
      acceptsEntry]
    cases metaOf kind object <;> simp [ListParams.accepts_iff]

theorem Regular.wellKept (hs : s.Regular) : s.WellKept where
  filed ref object hget := by
    rw [get_eq_ok_iff] at hget
    obtain ⟨m, hm, hkey, hversion⟩ := hs.coherent ref object hget
    obtain ⟨hmeta, hscope⟩ := admitted_eq_ok_iff.1 hm
    exact ⟨m, hmeta, hkey, scoped_of_scopeDefect hscope, hs.named ref m ⟨object, hget, hmeta⟩,
      hversion⟩
  versioned := hs.versioned
  listed := exists_lists hs.coherent

/-! ## What stays and what grows -/

theorem Effect.identity_eq (h : Effect env s after) (hs : s.Coherent) (hm : s.HasMeta ref m)
    (hm' : after.HasMeta ref m') :
    m'.uid = m.uid ∧ m'.creationTimestamp = m.creationTimestamp := by
  have hsame {c : ObjectMeta} (hc : s.HasMeta ref c) :
      c.uid = m.uid ∧ c.creationTimestamp = m.creationTimestamp := by
    rw [hc.unique hm]
    exact ⟨rfl, rfl⟩
  cases h with
  | idle => exact hsame hm'
  | created hadmitted hnone =>
    have hmeta := (admitted_eq_ok_iff.1 hadmitted).1
    rcases (hasMeta_written_iff (metaOf_withMeta hmeta _)).1 hm' with ⟨rfl, -⟩ | ⟨-, hc⟩
    · -- there was nothing before
      obtain ⟨object, hget, -⟩ := hm
      rw [stampNew_key, hnone] at hget
      cases hget
    · exact hsame hc
  | updated hadmitted hcurrent =>
    have hmeta := (admitted_eq_ok_iff.1 hadmitted).1
    rcases (hasMeta_written_iff (metaOf_withMeta hmeta _)).1 hm' with ⟨rfl, rfl⟩ | ⟨-, hc⟩
    · obtain ⟨huid, htime⟩ := hsame hcurrent
      exact ⟨huid, htime⟩
    · exact hsame hc
  | removed h => exact hsame ((h.swept hs).hasMeta hm')

def VersionLT (m m' : ObjectMeta) : Prop :=
  ∃ v v' : Nat, m.resourceVersion = some (toString v) ∧ m'.resourceVersion = some (toString v') ∧
    v < v'

theorem versionLT_of_update (hs : s.Coherent)
    (h : update kind object s = (.ok stored, after)) :
    ∃ given m m', metaOf kind object = .ok given ∧ s.HasMeta ⟨kind, given.key⟩ m ∧
      after.HasMeta ⟨kind, given.key⟩ m' ∧ VersionLT m m' := by
  rcases update_cases kind object s with
    ⟨e, he⟩ | ⟨given, current, m, hgiven, hget, hm, -, heq⟩
  · rw [he] at h
    cases h
  · rw [heq] at h
    cases h
    have hmeta := (admitted_eq_ok_iff.1 hgiven).1
    obtain ⟨v, hv, hold⟩ := hs.exists_version ⟨current, hget, hm⟩
    exact ⟨given, m, stampOver s m given, hmeta, ⟨current, hget, hm⟩,
      (hasMeta_written_iff (metaOf_withMeta hmeta _)).2 (.inl ⟨rfl, rfl⟩), v, s.version + 1, hold,
      rfl, Nat.lt_succ_of_le hv⟩

end Store

namespace World

variable {w : World} {c : Call} {calls : List Call} {ref : ObjectRef} {m m' : ObjectMeta}

/-- There is a document under `ref`, and there is one after each of the calls. -/
def Retains (w : World) (ref : ObjectRef) (calls : List Call) : Prop :=
  ∀ front, front <+: calls → ∃ object, (w.after front).store.objects.get? ref = some object

theorem Retains.tail (h : w.Retains ref (c :: calls)) : (w.call c).Retains ref calls :=
  fun front hfront ↦ h (c :: front) (List.cons_prefix_cons.2 ⟨rfl, hfront⟩)

/-- For as long as there is a document, it is the one that was created. -/
theorem identity_eq_of_retains (hw : w.store.Regular) (h : w.Retains ref calls)
    (hm : w.store.HasMeta ref m) (hm' : (w.after calls).store.HasMeta ref m') :
    m'.uid = m.uid ∧ m'.creationTimestamp = m.creationTimestamp := by
  induction calls generalizing w m with
  | nil =>
    rw [Store.HasMeta.unique hm' hm]
    exact ⟨rfl, rfl⟩
  | cons c calls ih =>
    have hnext := regular_call hw c
    obtain ⟨object, hget⟩ := h.tail [] List.nil_prefix
    obtain ⟨m₁, hm₁, -⟩ := hnext.coherent.exists_metaOf hget
    obtain ⟨huid, htime⟩ := (Store.effect_perform c.env c.request hw.coherent).identity_eq
      hw.coherent hm ⟨object, hget, hm₁⟩
    obtain ⟨huid', htime'⟩ := ih hnext h.tail ⟨object, hget, hm₁⟩ hm'
    exact ⟨huid'.trans huid, htime'.trans htime⟩

end World

/-- After any requests with any documents, every document is filed under the key it tells, within
the scope of its kind, with an identity, and with a version of its own; listing a kind never fails
and yields what matches.  A document keeps its identity until it is gone, and each update that is
accepted moves its version up. -/
theorem documents_well_kept (calls : List Call) :
    let w := World.after {} calls
    w.store.WellKept ∧
    (∀ more ref m m', w.Retains ref more → w.store.HasMeta ref m →
      (w.after more).store.HasMeta ref m' →
      m'.uid = m.uid ∧ m'.creationTimestamp = m.creationTimestamp) ∧
    ∀ kind object stored after, Store.update kind object w.store = (.ok stored, after) →
      ∃ given m m', Store.metaOf kind object = .ok given ∧
        w.store.HasMeta ⟨kind, given.key⟩ m ∧ after.HasMeta ⟨kind, given.key⟩ m' ∧
        Store.VersionLT m m' := by
  intro w
  have hw : w.store.Regular := World.regular_after Store.regular_empty calls
  exact ⟨hw.wellKept, fun more ref m m' ↦ World.identity_eq_of_retains hw,
    fun kind object stored after ↦ Store.versionLT_of_update hw.coherent⟩

end TenantAccess
