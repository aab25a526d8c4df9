import TenantAccess.Proofs.Store.Coherent

/-!
# What a deletion takes along

A sweep of a coherent store always ends well.  It takes away the given objects and, with each object,
all that it owns, but nothing that is not called for in this way; each object taken away is told once,
as it was last stored.
-/

namespace TenantAccess.Store

def HasMeta (s : Store) (ref : ObjectRef) (m : ObjectMeta) : Prop :=
  ∃ object, s.objects.get? ref = some object ∧ metaOf ref.kind object = .ok m

theorem mem_dependents_iff {s : Store} {uid : String} {ref : ObjectRef} :
    ref ∈ s.dependents uid ↔ ∃ m, s.HasMeta ref m ∧ m.isOwnedBy uid := by
  simp only [dependents, List.mem_map, List.mem_filter]
  constructor
  · rintro ⟨⟨ref', object⟩, ⟨hmem, howned⟩, rfl⟩
    cases hm : metaOf ref'.kind object with
    | error e => simp [hm] at howned
    | ok m => exact ⟨m, ⟨object, SortedMap.mem_entries_iff.1 hmem, hm⟩, by simpa [hm] using howned⟩
  · rintro ⟨m, ⟨object, hget, hm⟩, howned⟩
    exact ⟨(ref, object), ⟨SortedMap.mem_entries_iff.2 hget, by simpa [hm] using howned⟩, rfl⟩

/-- The event that tells of the deletion of what `s` holds under `e.ref`. -/
def Tells (s : Store) (e : Event) : Prop :=
  e.type = .deleted ∧ s.objects.get? e.ref = some e.object ∧
    metaOf e.kind e.object = .ok e.metadata

/-- `after` is what a sweep of `work` leaves of `before`. -/
structure Swept (before : Store) (work : List ObjectRef) (after : Store) : Prop where
  kept : ∀ ref object, after.objects.get? ref = some object →
    before.objects.get? ref = some object
  gone : ∀ ref ∈ work, after.objects.get? ref = none
  /-- Nothing that is left is owned by what is gone. -/
  closed : ∀ ref m, before.HasMeta ref m → after.objects.get? ref = none →
    ∀ ref' m', after.HasMeta ref' m' → m'.isOwnedBy m.uid = false
  /-- What is gone was asked for, or is owned by something else that is gone. -/
  caused : ∀ P : ObjectRef → Prop, (∀ ref ∈ work, P ref) →
    (∀ ref m ref' m', P ref → after.objects.get? ref = none → before.HasMeta ref m →
      before.HasMeta ref' m' → m'.isOwnedBy m.uid → P ref') →
    ∀ ref object, before.objects.get? ref = some object → after.objects.get? ref = none → P ref
  version_eq : after.version = before.version
  issued_eq : after.issued = before.issued
  log_eq : ∃ told : List Event, after.log = before.log ++ told.toArray ∧
    (∀ e ∈ told, before.Tells e ∧ after.objects.get? e.ref = none) ∧
    ∀ ref object, before.objects.get? ref = some object → after.objects.get? ref = none →
      ∃ e ∈ told, e.ref = ref

namespace Swept

variable {before middle after : Store} {work : List ObjectRef}

theorem get?_eq (h : Swept before work after) (ref : ObjectRef) :
    after.objects.get? ref = before.objects.get? ref ∨ after.objects.get? ref = none := by
  cases hget : after.objects.get? ref with
  | none => exact .inr rfl
  | some object => exact .inl (h.kept ref object hget).symm

theorem hasMeta (h : Swept before work after) {ref : ObjectRef} {m : ObjectMeta}
    (hm : after.HasMeta ref m) : before.HasMeta ref m := by
  obtain ⟨object, hget, hm⟩ := hm
  exact ⟨object, h.kept ref object hget, hm⟩

theorem coherent (h : Swept before work after) (hbefore : before.Coherent) : after.Coherent := by
  intro ref object hget
  rw [h.version_eq]
  exact hbefore ref object (h.kept ref object hget)

end Swept

theorem swept_nil (s : Store) : Swept s [] s where
  kept _ _ h := h
  gone _ h := by simp at h
  closed ref m hm hnone := by
    obtain ⟨object, hget, -⟩ := hm
    simp [hget] at hnone
  caused _ _ _ ref object hget hnone := by simp [hget] at hnone
  version_eq := rfl
  issued_eq := rfl
  log_eq := ⟨[], by simp, by simp, fun ref object hget hnone ↦ by simp [hget] at hnone⟩

theorem Swept.skip {s after : Store} {ref : ObjectRef} {rest : List ObjectRef}
    (hnone : s.objects.get? ref = none) (h : Swept s rest after) : Swept s (ref :: rest) after where
  kept := h.kept
  gone := by
    intro ref' hmem
    rcases List.mem_cons.1 hmem with rfl | hmem
    · rcases h.get?_eq ref' with heq | heq
      · rw [heq, hnone]
      · exact heq
    · exact h.gone ref' hmem
  closed := h.closed
  caused P hwork := h.caused P fun ref hmem ↦ hwork ref (List.mem_cons_of_mem _ hmem)
  version_eq := h.version_eq
  issued_eq := h.issued_eq
  log_eq := h.log_eq

/-- The store without the object under `ref`, whose deletion is told. -/
def without (s : Store) (ref : ObjectRef) (m : ObjectMeta) (object : Json) : Store :=
  publish { s with objects := s.objects.erase ref, writes := s.writes + 1 }
    .deleted ref.kind m object

@[simp] theorem get?_without (s : Store) (ref : ObjectRef) (m : ObjectMeta) (object : Json)
    (ref' : ObjectRef) :
    (s.without ref m object).objects.get? ref' =
      if ref' = ref then none else s.objects.get? ref' :=
  SortedMap.get?_erase_eq _ _ _

theorem hasMeta_without_iff {s : Store} {ref ref' : ObjectRef} {m m' : ObjectMeta}
    {object : Json} :
    (s.without ref m object).HasMeta ref' m' ↔ ref' ≠ ref ∧ s.HasMeta ref' m' := by
  by_cases h : ref' = ref <;> simp [HasMeta, h]

theorem coherent_without {s : Store} (h : s.Coherent) (ref : ObjectRef) (m : ObjectMeta)
    (object : Json) : (s.without ref m object).Coherent := by
  intro ref' object' hget
  rw [get?_without] at hget
  split at hget
  · cases hget
  · exact h ref' object' hget

namespace Swept

variable {s after : Store} {ref : ObjectRef} {object : Json} {m : ObjectMeta}
  {work rest : List ObjectRef}

theorem kept_of_without (h : Swept (s.without ref m object) work after) {ref' : ObjectRef}
    {object' : Json} (hget : after.objects.get? ref' = some object') :
    ref' ≠ ref ∧ s.objects.get? ref' = some object' := by
  have hbefore := h.kept ref' object' hget
  rw [get?_without] at hbefore
  split at hbefore
  · cases hbefore
  · next hne => exact ⟨hne, hbefore⟩

theorem get?_of_without (h : Swept (s.without ref m object) work after) :
    after.objects.get? ref = none := by
  cases hget : after.objects.get? ref with
  | none => rfl
  | some object' => exact absurd rfl (h.kept_of_without hget).1

/-- The deletion of the first object is told before those of the others. -/
theorem log_of_without (h : Swept (s.without ref m object) work after) (hs : s.Coherent)
    (hget : s.objects.get? ref = some object) (hm : metaOf ref.kind object = .ok m) :
    ∃ told : List Event, after.log = s.log ++ told.toArray ∧
      (∀ e ∈ told, s.Tells e ∧ after.objects.get? e.ref = none) ∧
      ∀ ref' object', s.objects.get? ref' = some object' → after.objects.get? ref' = none →
        ∃ e ∈ told, e.ref = ref' := by
  obtain ⟨told, hlog, htells, hall⟩ := h.log_eq
  have hkey : m.key = ref.key := hs.key_eq hget hm
  have href : (⟨ref.kind, m.key⟩ : ObjectRef) = ref := by rw [hkey]
  refine ⟨⟨.deleted, ref.kind, m, object⟩ :: told, ?_, ?_, ?_⟩
  · rw [hlog]
    simp [without, publish]
  · intro e hmem
    rcases List.mem_cons.1 hmem with rfl | hmem
    · refine ⟨⟨rfl, ?_, hm⟩, ?_⟩
      · change s.objects.get? ⟨ref.kind, m.key⟩ = some object
        rw [href]
        exact hget
      · change after.objects.get? ⟨ref.kind, m.key⟩ = none
        rw [href]
        exact h.get?_of_without
    · obtain ⟨⟨htype, hget', hm'⟩, hnone⟩ := htells e hmem
      rw [get?_without] at hget'
      split at hget'
      · cases hget'
      · exact ⟨⟨htype, hget', hm'⟩, hnone⟩
  · intro ref' object' hget' hnone
    by_cases hne : ref' = ref
    · exact ⟨_, List.mem_cons_self, href.trans hne.symm⟩
    · obtain ⟨e, hmem, heq⟩ := hall ref' object' (by simp [hne, hget']) hnone
      exact ⟨e, List.mem_cons_of_mem _ hmem, heq⟩

/-- Nothing is left that the first object or any other one that went has owned, since what the first
one owned was swept next. -/
theorem closed_of_without
    (h : Swept (s.without ref m object) ((s.without ref m object).dependents m.uid ++ rest) after)
    (hget : s.objects.get? ref = some object) (hm : metaOf ref.kind object = .ok m) {r r' : ObjectRef}
    {c c' : ObjectMeta} (hc : s.HasMeta r c) (hnone : after.objects.get? r = none)
    (hc' : after.HasMeta r' c') : c'.isOwnedBy c.uid = false := by
  by_cases href : r = ref
  · have hsame : c = m := by
      obtain ⟨object', hget', hm'⟩ := hc
      rw [href, hget] at hget'
      cases hget'
      rw [href, hm] at hm'
      exact (Except.ok.inj hm').symm
    rw [hsame, Bool.eq_false_iff]
    intro howned
    have hmem := mem_dependents_iff.2 ⟨c', h.hasMeta hc', howned⟩
    obtain ⟨object', hget', -⟩ := hc'
    rw [h.gone r' (List.mem_append_left _ hmem)] at hget'
    cases hget'
  · exact h.closed r c (hasMeta_without_iff.2 ⟨href, hc⟩) hnone r' c' hc'

/-- To sweep an object is to take it away and to sweep what it owns before all else. -/
theorem take
    (h : Swept (s.without ref m object) ((s.without ref m object).dependents m.uid ++ rest) after)
    (hs : s.Coherent) (hget : s.objects.get? ref = some object)
    (hm : metaOf ref.kind object = .ok m) : Swept s (ref :: rest) after where
  kept ref' object' hget' := (h.kept_of_without hget').2
  gone := by
    intro ref' hmem
    rcases List.mem_cons.1 hmem with rfl | hmem
    · exact h.get?_of_without
    · exact h.gone ref' (List.mem_append_right _ hmem)
  closed _ _ hc hnone _ _ hc' := h.closed_of_without hget hm hc hnone hc'
  caused := by
    intro P hwork hstep ref' object' hget' hnone
    have href : P ref := hwork ref List.mem_cons_self
    by_cases hne : ref' = ref
    · rwa [hne]
    · refine h.caused P (fun r hmem ↦ ?_) (fun r₁ m₁ r₂ m₂ hP hnone₁ h₁ h₂ ↦ ?_) ref' object'
        (by simp [hne, hget']) hnone
      · rcases List.mem_append.1 hmem with hmem | hmem
        · obtain ⟨m', hmeta, howned⟩ := mem_dependents_iff.1 hmem
          exact hstep ref m r m' href h.get?_of_without ⟨object, hget, hm⟩
            (hasMeta_without_iff.1 hmeta).2 howned
        · exact hwork r (List.mem_cons_of_mem _ hmem)
      · exact hstep r₁ m₁ r₂ m₂ hP hnone₁ (hasMeta_without_iff.1 h₁).2
          (hasMeta_without_iff.1 h₂).2
  version_eq := h.version_eq
  issued_eq := h.issued_eq
  log_eq := h.log_of_without hs hget hm

end Swept

theorem sweep_nil (s : Store) : s.sweep [] = (.ok (), s) := by
  rw [sweep]

theorem sweep_cons_of_none {s : Store} {ref : ObjectRef} (h : s.objects.get? ref = none)
    (rest : List ObjectRef) : s.sweep (ref :: rest) = s.sweep rest := by
  rw [sweep]
  split
  · rfl
  · next hsome => simp [h] at hsome

theorem sweep_cons_of_metaOf {s : Store} {ref : ObjectRef} {object : Json} {m : ObjectMeta}
    (h : s.objects.get? ref = some object) (hm : metaOf ref.kind object = .ok m)
    (rest : List ObjectRef) : s.sweep (ref :: rest) =
      (s.without ref m object).sweep ((s.without ref m object).dependents m.uid ++ rest) := by
  rw [sweep]
  split
  · next hnone => simp [h] at hnone
  · next object' hget =>
    rw [h] at hget
    cases hget
    simp only [hm]
    rfl

/-- A document without metadata ends a sweep, but not before it is gone. -/
theorem sweep_cons_of_error {s : Store} {ref : ObjectRef} {object : Json} {e : StoreError}
    (h : s.objects.get? ref = some object) (hm : metaOf ref.kind object = .error e)
    (rest : List ObjectRef) : s.sweep (ref :: rest) =
      (.error e, { s with objects := s.objects.erase ref, writes := s.writes + 1 }) := by
  rw [sweep]
  split
  · next hnone => simp [h] at hnone
  · next object' hget =>
    rw [h] at hget
    cases hget
    simp only [hm]

/-- A sweep of `work`, object by object.  It tells of each object that it takes away. -/
inductive Sweeps : Store → List ObjectRef → List Event → Store → Prop
  | nil (s : Store) : Sweeps s [] [] s
  | skip {s after : Store} {ref : ObjectRef} {rest : List ObjectRef} {told : List Event}
    (hnone : s.objects.get? ref = none) (h : Sweeps s rest told after) :
    Sweeps s (ref :: rest) told after
  | take {s after : Store} {ref : ObjectRef} {rest : List ObjectRef} {told : List Event}
    {object : Json} {m : ObjectMeta} (hget : s.objects.get? ref = some object)
    (hm : metaOf ref.kind object = .ok m)
    (h : Sweeps (s.without ref m object)
      ((s.without ref m object).dependents m.uid ++ rest) told after) :
    Sweeps s (ref :: rest) (⟨.deleted, ref.kind, m, object⟩ :: told) after

theorem exists_sweeps (s : Store) (work : List ObjectRef) (h : s.Coherent) :
    ∃ told after, s.sweep work = (.ok (), after) ∧ Sweeps s work told after := by
  induction s, work using sweep.induct with
  | case1 s =>
    rw [sweep]
    exact ⟨[], s, rfl, .nil s⟩
  | case2 s ref rest hnone ih =>
    obtain ⟨told, after, heq, hsweeps⟩ := ih h
    exact ⟨told, after, (sweep_cons_of_none hnone rest).trans heq, .skip hnone hsweeps⟩
  | case3 s ref rest object hget e he =>
    obtain ⟨m, hm, -⟩ := h.exists_metaOf hget
    simp [hm] at he
  | case4 s ref rest object hget taken m hm told ih =>
    obtain ⟨events, after, heq, hsweeps⟩ := ih (coherent_without h ref m object)
    exact ⟨_, after, (sweep_cons_of_metaOf hget hm rest).trans heq, .take hget hm hsweeps⟩

theorem Sweeps.swept {s after : Store} {work : List ObjectRef} {told : List Event}
    (h : Sweeps s work told after) (hs : s.Coherent) : Swept s work after := by
  induction h with
  | nil s => exact swept_nil s
  | skip hnone _ ih => exact (ih hs).skip hnone
  | take hget hm _ ih => exact (ih (coherent_without hs _ _ _)).take hs hget hm

theorem sweep_spec (s : Store) (work : List ObjectRef) (h : s.Coherent) :
    ∃ after, s.sweep work = (.ok (), after) ∧ Swept s work after := by
  obtain ⟨told, after, heq, hsweeps⟩ := exists_sweeps s work h
  exact ⟨after, heq, hsweeps.swept h⟩

theorem delete_spec {s : Store} (h : s.Coherent) (ref : ObjectRef) :
    (s.objects.get? ref = none ∧ s.delete ref = (.error (.notFound ref), s)) ∨
    ∃ after, s.delete ref = (.ok (), after) ∧ Swept s [ref] after := by
  unfold delete
  cases hget : s.objects.get? ref with
  | none => exact .inl ⟨rfl, rfl⟩
  | some object => exact .inr (s.sweep_spec [ref] h)

/-! ## Sweeps that can be computed -/

/-- The store after a sweep that takes less than `n` steps. -/
def sweepWithin : (n : Nat) → Store → List ObjectRef → Option Store
  | 0, _, _ => none
  | _ + 1, s, [] => some s
  | n + 1, s, ref :: rest =>
    match s.objects.get? ref with
    | none => sweepWithin n s rest
    | some object =>
      match metaOf ref.kind object with
      | .error _ => none
      | .ok m =>
        let told := s.without ref m object
        sweepWithin n told (told.dependents m.uid ++ rest)

theorem sweep_eq_of_sweepWithin {n : Nat} {s after : Store} {work : List ObjectRef}
    (h : sweepWithin n s work = some after) : s.sweep work = (.ok (), after) := by
  induction n generalizing s work with
  | zero => cases h
  | succ n ih =>
    cases work with
    | nil =>
      cases h
      exact sweep_nil _
    | cons ref rest =>
      rw [sweepWithin] at h
      split at h
      · next hnone =>
        rw [sweep_cons_of_none hnone]
        exact ih h
      · next object hget =>
        split at h
        · cases h
        · next m hm =>
          rw [sweep_cons_of_metaOf hget hm]
          exact ih h

theorem delete_eq_of_sweepWithin {n : Nat} {s after : Store} {ref : ObjectRef}
    (hsome : (s.objects.get? ref).isSome) (h : sweepWithin n s [ref] = some after) :
    s.delete ref = (.ok (), after) := by
  obtain ⟨object, hget⟩ := Option.isSome_iff_exists.1 hsome
  rw [delete, hget]
  exact sweep_eq_of_sweepWithin h

/-! ## Stores of any shape -/

theorem get?_of_sweep (s : Store) (work : List ObjectRef) {ref : ObjectRef} {object : Json}
    (h : (s.sweep work).2.objects.get? ref = some object) :
    s.objects.get? ref = some object := by
  have herase {s : Store} {gone : ObjectRef}
      (hget : (s.objects.erase gone).get? ref = some object) :
      s.objects.get? ref = some object := by
    rw [SortedMap.get?_erase_eq] at hget
    split at hget
    · cases hget
    · exact hget
  induction s, work using sweep.induct with
  | case1 s =>
    rw [sweep_nil] at h
    exact h
  | case2 s gone rest hnone ih =>
    rw [sweep_cons_of_none hnone] at h
    exact ih h
  | case3 s gone rest object' hget e he =>
    rw [sweep_cons_of_error hget he] at h
    exact herase h
  | case4 s gone rest object' hget taken m hm told ih =>
    rw [sweep_cons_of_metaOf hget hm] at h
    exact herase (ih h)

theorem get?_of_delete {s : Store} {gone ref : ObjectRef} {object : Json}
    (h : (s.delete gone).2.objects.get? ref = some object) :
    s.objects.get? ref = some object := by
  unfold delete at h
  cases hget : s.objects.get? gone with
  | none =>
    simp only [hget] at h
    exact h
  | some object' =>
    simp only [hget] at h
    exact get?_of_sweep s _ h

end TenantAccess.Store
