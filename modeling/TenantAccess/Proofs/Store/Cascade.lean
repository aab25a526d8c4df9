import TenantAccess.Proofs.Store.Calls

/-!
# A deletion takes the whole of what is owned, and nothing else

Owner references form a graph of any shape, cycles included.  Deleting an object takes away exactly
what can be reached from it, and tells of each object taken away once, after one of its owners.
-/

namespace TenantAccess.Store

variable {s after : Store} {root ref : ObjectRef} {work : List ObjectRef} {told : List Event}

def RefersTo (m : ObjectMeta) (owner : ObjectMeta) : Prop :=
  ∃ r ∈ m.ownerReferences, r.uid = owner.uid

/-- An object goes with `root` if it is `root`, or refers to one that goes with `root`. -/
inductive GoesWith (s : Store) (root : ObjectRef) : ObjectRef → Prop
  | root : GoesWith s root root
  | owned {ref ref' : ObjectRef} {m m' : ObjectMeta} (h : GoesWith s root ref)
    (hm : s.HasMeta ref m) (hm' : s.HasMeta ref' m') (hrefers : RefersTo m' m) :
    GoesWith s root ref'

theorem isOwnedBy_iff {m owner : ObjectMeta} (h : owner.uid ≠ "") :
    m.isOwnedBy owner.uid ↔ RefersTo m owner := by
  simp [ObjectMeta.isOwnedBy, RefersTo, h]

/-! ## What a sweep tells -/

namespace Sweeps

theorem tells (h : Sweeps s work told after) (hs : s.Coherent) : ∀ e ∈ told, s.Tells e := by
  induction h with
  | nil s => simp
  | skip _ _ ih => exact ih hs
  | @take s after ref rest told object m hget hm _ ih =>
    have href : (⟨ref.kind, m.key⟩ : ObjectRef) = ref := by rw [hs.key_eq hget hm]
    intro e he
    rcases List.mem_cons.1 he with rfl | he
    · refine ⟨rfl, ?_, hm⟩
      rw [Event.ref, href]
      exact hget
    · obtain ⟨htype, hget', hm'⟩ := ih (coherent_without hs ref m object) e he
      rw [get?_without] at hget'
      split at hget'
      · cases hget'
      · exact ⟨htype, hget', hm'⟩

theorem nodup (h : Sweeps s work told after) (hs : s.Coherent) :
    (told.map Event.ref).Nodup := by
  induction h with
  | nil s => simp
  | skip _ _ ih => exact ih hs
  | @take s after ref rest told object m hget hm hrest ih =>
    have hwithout := coherent_without hs ref m object
    have href : (⟨ref.kind, m.key⟩ : ObjectRef) = ref := by rw [hs.key_eq hget hm]
    refine List.nodup_cons.2 ⟨fun hmem ↦ ?_, ih hwithout⟩
    -- what is told of later is still there once the first object is gone
    obtain ⟨e, he, heq⟩ := List.mem_map.1 hmem
    obtain ⟨-, hstored, -⟩ := hrest.tells hwithout e he
    rw [heq, Event.ref, href, get?_without, if_pos rfl] at hstored
    cases hstored

/-- Each object is told of because it was asked for, or after one of its owners. -/
theorem owner_first (h : Sweeps s work told after) (hs : s.Coherent) :
    ∀ front e back, told = front ++ e :: back →
      e.ref ∈ work ∨ ∃ o ∈ front, e.metadata.isOwnedBy o.metadata.uid := by
  induction h with
  | nil s => simp
  | skip _ _ ih =>
    intro front e back hsplit
    exact (ih hs front e back hsplit).imp_left (List.mem_cons_of_mem _)
  | @take s after ref rest told object m hget hm hrest ih =>
    have hwithout := coherent_without hs ref m object
    have href : (⟨ref.kind, m.key⟩ : ObjectRef) = ref := by rw [hs.key_eq hget hm]
    intro front e back hsplit
    cases front with
    | nil =>
      cases hsplit
      left
      rw [Event.ref, href]
      exact List.mem_cons_self
    | cons first front =>
      rw [List.cons_append] at hsplit
      obtain ⟨rfl, hrest'⟩ := List.cons.inj hsplit
      rcases ih hwithout front e back hrest' with hmem | ⟨o, ho, howned⟩
      · rcases List.mem_append.1 hmem with hmem | hmem
        · -- it was called for by the object that is told of first
          obtain ⟨m', hm', howned⟩ := mem_dependents_iff.1 hmem
          have he : e ∈ told := by
            rw [hrest']
            exact List.mem_append_right _ List.mem_cons_self
          obtain ⟨-, hstored, hmeta⟩ := hrest.tells hwithout e he
          rw [hm'.unique ⟨e.object, hstored, hmeta⟩] at howned
          exact .inr ⟨_, List.mem_cons_self, howned⟩
        · exact .inl (List.mem_cons_of_mem _ hmem)
      · exact .inr ⟨o, List.mem_cons_of_mem _ ho, howned⟩

theorem mem_told_iff (h : Sweeps s work told after) (hs : s.Coherent) :
    ref ∈ told.map Event.ref ↔
      (∃ object, s.objects.get? ref = some object) ∧ after.objects.get? ref = none := by
  obtain ⟨told', hlog, htells, hall⟩ := (h.swept hs).log_eq
  -- both accounts of the log tell the same
  have hsame : told' = told := by
    have hlater := (h.later hs).log
    rw [hlog] at hlater
    simpa using hlater
  subst hsame
  rw [List.mem_map]
  constructor
  · rintro ⟨e, he, rfl⟩
    obtain ⟨⟨-, hstored, -⟩, hnone⟩ := htells e he
    exact ⟨⟨e.object, hstored⟩, hnone⟩
  · rintro ⟨⟨object, hget⟩, hnone⟩
    exact hall ref object hget hnone

end Sweeps

/-! ## What is gone -/

/-- A sweep takes away exactly what goes with the object asked for. -/
theorem Swept.get?_eq_none_iff (h : Swept s [root] after) (hs : s.Named) {object : Json}
    (hget : s.objects.get? ref = some object) :
    after.objects.get? ref = none ↔ s.GoesWith root ref := by
  constructor
  · intro hnone
    refine h.caused (s.GoesWith root) (fun r hr ↦ ?_) (fun r m r' m' hr _ hm hm' hown ↦ ?_)
      ref object hget hnone
    · rw [List.mem_singleton.1 hr]
      exact .root
    · exact hr.owned hm hm' ((isOwnedBy_iff (hs r m hm)).1 hown)
  · intro hgoes
    clear hget
    induction hgoes with
    | root => exact h.gone root (List.mem_singleton_self root)
    | @owned ref ref' m m' _ hm hm' hrefers ih =>
      obtain ⟨object', hget', hmeta'⟩ := hm'
      rcases h.get?_eq ref' with hsame | hnone
      · -- what is left is owned by nothing that is gone
        have hnot := h.closed ref m hm ih ref' m' ⟨object', hsame.trans hget', hmeta'⟩
        rw [(isOwnedBy_iff (hs ref m hm)).2 hrefers] at hnot
        cases hnot
      · exact hnone

theorem GoesWith.exists_get? (h : s.GoesWith root ref) {object : Json}
    (hroot : s.objects.get? root = some object) : ∃ object, s.objects.get? ref = some object := by
  cases h with
  | root => exact ⟨object, hroot⟩
  | owned _ _ hm' _ =>
    obtain ⟨object', hget', -⟩ := hm'
    exact ⟨object', hget'⟩

/-- `after` is `s` without what goes with `root`, and `told` tells of the difference. -/
structure Uprooted (s : Store) (root : ObjectRef) (told : List Event) (after : Store) : Prop where
  gone : ∀ ref, s.GoesWith root ref → after.objects.get? ref = none
  kept : ∀ ref, ¬s.GoesWith root ref → after.objects.get? ref = s.objects.get? ref
  version_eq : after.version = s.version
  writes_eq : after.writes = s.writes + told.length
  log_eq : after.log.toList = s.log.toList ++ told
  told_once : (told.map Event.ref).Nodup
  told_iff : ∀ ref, ref ∈ told.map Event.ref ↔ s.GoesWith root ref
  told_as_stored : ∀ e ∈ told, e.type = .deleted ∧ s.objects.get? e.ref = some e.object ∧
    metaOf e.kind e.object = .ok e.metadata
  owner_first : ∀ front e back, told = front ++ e :: back →
    e.ref = root ∨ ∃ o ∈ front, RefersTo e.metadata o.metadata

theorem Sweeps.uprooted (h : Sweeps s [root] told after) (hs : s.Regular) {object : Json}
    (hroot : s.objects.get? root = some object) : s.Uprooted root told after := by
  have hswept := h.swept hs.coherent
  have hlater := h.later hs.coherent
  have htells := h.tells hs.coherent
  constructor
  case gone =>
    intro ref hgoes
    obtain ⟨object', hget⟩ := hgoes.exists_get? hroot
    exact (hswept.get?_eq_none_iff hs.named hget).2 hgoes
  case kept =>
    intro ref hstays
    rcases hswept.get?_eq ref with hsame | hnone
    · exact hsame
    · cases hget : s.objects.get? ref with
      | none => exact hnone
      | some object' => exact absurd ((hswept.get?_eq_none_iff hs.named hget).1 hnone) hstays
  case version_eq => exact hswept.version_eq
  case writes_eq => exact hlater.writes
  case log_eq => exact hlater.log
  case told_once => exact h.nodup hs.coherent
  case told_iff =>
    intro ref
    rw [h.mem_told_iff hs.coherent]
    constructor
    · rintro ⟨⟨object', hget⟩, hnone⟩
      exact (hswept.get?_eq_none_iff hs.named hget).1 hnone
    · intro hgoes
      obtain ⟨object', hget⟩ := hgoes.exists_get? hroot
      exact ⟨⟨object', hget⟩, (hswept.get?_eq_none_iff hs.named hget).2 hgoes⟩
  case told_as_stored => exact htells
  case owner_first =>
    intro front e back hsplit
    rcases h.owner_first hs.coherent front e back hsplit with hmem | ⟨o, ho, howned⟩
    · exact .inl (List.mem_singleton.1 hmem)
    · refine .inr ⟨o, ho, ?_⟩
      have hmem : o ∈ told := by
        rw [hsplit]
        exact List.mem_append_left _ ho
      obtain ⟨-, hstored, hmeta⟩ := htells o hmem
      exact (isOwnedBy_iff (hs.named _ _ ⟨o.object, hstored, hmeta⟩)).1 howned

/-- Deleting what is not there fails and changes nothing.  Deleting an object succeeds and takes
along what refers to it as an owner, directly or through other objects, and nothing else. -/
theorem delete_uproots (calls : List Call) (root : ObjectRef) :
    let s := (World.after {} calls).store
    (s.objects.get? root = none → s.delete root = (.error (.notFound root), s)) ∧
    (s.objects.get? root ≠ none → ∃ told after,
      s.delete root = (.ok (), after) ∧ s.Uprooted root told after) := by
  intro s
  have hs : s.Regular := World.regular_after regular_empty calls
  unfold delete
  cases hget : s.objects.get? root with
  | none => exact ⟨fun _ ↦ rfl, fun hne ↦ absurd rfl hne⟩
  | some object =>
    obtain ⟨told, after, heq, hsweeps⟩ := exists_sweeps s [root] hs.coherent
    exact ⟨nofun, fun _ ↦ ⟨told, after, heq, hsweeps.uprooted hs hget⟩⟩

end TenantAccess.Store
