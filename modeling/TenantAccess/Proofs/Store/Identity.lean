import TenantAccess.Proofs.Program.Typed

/-!
# Identities

A store gives an identity to every object that brings none.  If those given out never repeat, and
those brought along are new, no two stored objects have the same identity.
-/

namespace TenantAccess.Store

variable {α : Type} [Resource α] [Resource.Lawful α] {s after : Store} {a : α} {c : ObjectMeta}
  {env : Ambient} {work : List ObjectRef}

theorem HasMeta.unique {ref : ObjectRef} {m m' : ObjectMeta} (h : s.HasMeta ref m)
    (h' : s.HasMeta ref m') : m = m' := by
  obtain ⟨object, hget, hm⟩ := h
  obtain ⟨object', hget', hm'⟩ := h'
  rw [hget] at hget'
  cases hget'
  rw [hm] at hm'
  exact Except.ok.inj hm'

theorem hasMeta_written_iff {type : EventType} {kind : Kind} {object : Json} {issued : Nat}
    {ref : ObjectRef} {m c : ObjectMeta} (hm : metaOf kind object = .ok m) :
    (s.written type kind m object issued).HasMeta ref c ↔
      (ref = ⟨kind, m.key⟩ ∧ c = m) ∨ (ref ≠ ⟨kind, m.key⟩ ∧ s.HasMeta ref c) := by
  by_cases h : ref = ⟨kind, m.key⟩
  · subst h
    simp [HasMeta, hm, eq_comm (a := c)]
  · simp [HasMeta, h]

theorem hasMeta_recorded_iff {type : EventType} {issued : Nat} {ref : ObjectRef}
    {m : ObjectMeta} :
    (s.recorded type a issued).HasMeta ref m ↔
      (ref = Resource.ref a ∧ m = Resource.metadata a) ∨ (ref ≠ Resource.ref a ∧ s.HasMeta ref m) :=
  hasMeta_written_iff (metaOf_encode _ a)

theorem Holds.hasMeta (h : s.Holds a) : s.HasMeta (Resource.ref a) (Resource.metadata a) :=
  ⟨_, h, metaOf_encode _ a⟩

def Named (s : Store) : Prop :=
  ∀ ref m, s.HasMeta ref m → m.uid ≠ ""

theorem named_written {type : EventType} {kind : Kind} {object : Json} {issued : Nat}
    {m : ObjectMeta} (h : s.Named) (hm : metaOf kind object = .ok m) (huid : m.uid ≠ "") :
    (s.written type kind m object issued).Named := by
  intro ref c hc
  rcases (hasMeta_written_iff hm).1 hc with ⟨-, rfl⟩ | ⟨-, hc⟩
  · exact huid
  · exact h ref c hc

theorem stampNew_uid_ne_empty (henv : ∀ n, env.uid n ≠ "") (s : Store) (m : ObjectMeta) :
    (stampNew env s m).uid ≠ "" := by
  change (if m.uid = "" then env.uid s.issued else m.uid) ≠ ""
  split
  · exact henv s.issued
  · assumption

theorem named_create (h : s.Named) (huid : ∀ n, env.uid n ≠ "") (a : α) (issued : Nat) :
    (s.recorded .added (asNew env s a) issued).Named := by
  refine named_written h (metaOf_encode _ _) ?_
  rw [metadata_asNew]
  exact stampNew_uid_ne_empty huid s _

theorem named_update (h : s.Named) (hc : s.HasMeta (Resource.ref a) c) (issued : Nat) :
    (s.recorded .modified (asUpdate s c a) issued).Named := by
  refine named_written h (metaOf_encode _ _) ?_
  rw [metadata_asUpdate]
  exact h _ c hc

theorem Swept.named (h : Swept s work after) (hs : s.Named) : after.Named :=
  fun ref m hm ↦ hs ref m (h.hasMeta hm)

/-- No identity belongs to two objects, and those still to be given out belong to none. -/
structure Identified (uid : Nat → String) (s : Store) : Prop where
  distinct : ∀ ref ref' m m', s.HasMeta ref m → s.HasMeta ref' m' → m.uid = m'.uid → ref = ref'
  unissued : ∀ ref m n, s.HasMeta ref m → s.issued ≤ n → uid n ≠ m.uid

/-- An identity is left to the store, or is one that nobody has or will be given. -/
def Fresh (uid : Nat → String) (s : Store) (u : String) : Prop :=
  u = "" ∨ (∀ n, uid n ≠ u) ∧ ∀ ref m, s.HasMeta ref m → m.uid ≠ u

theorem identified_create {uid : Nat → String} (h : s.Identified uid) (henv : env.uid = uid)
    (hinjective : ∀ n n', uid n = uid n' → n = n')
    (hfresh : s.Fresh uid (Resource.metadata a).uid) :
    (s.recorded .added (asNew env s a) (s.issuedWith (Resource.metadata a))).Identified uid := by
  have huid : (Resource.metadata (asNew env s a)).uid =
      if (Resource.metadata a).uid = "" then uid s.issued else (Resource.metadata a).uid := by
    rw [metadata_asNew, ← henv]
    rfl
  have hissued : s.issued ≤ s.issuedWith (Resource.metadata a) := le_issuedWith ..
  have hnew (ref : ObjectRef) (m : ObjectMeta) (hm : s.HasMeta ref m) :
      m.uid ≠ (Resource.metadata (asNew env s a)).uid := by
    rw [huid]
    split
    · exact (h.unissued ref m s.issued hm (Nat.le_refl _)).symm
    · next hne => exact (hfresh.resolve_left hne).2 ref m hm
  constructor
  · intro ref ref' m m' hm hm' heq
    rcases hasMeta_recorded_iff.1 hm with ⟨rfl, rfl⟩ | ⟨-, hm⟩ <;>
      rcases hasMeta_recorded_iff.1 hm' with ⟨rfl, rfl⟩ | ⟨-, hm'⟩
    · rfl
    · exact absurd heq.symm (hnew ref' m' hm')
    · exact absurd heq (hnew ref m hm)
    · exact h.distinct ref ref' m m' hm hm' heq
  · intro ref m n hm hn
    rw [issued_recorded] at hn
    rcases hasMeta_recorded_iff.1 hm with ⟨-, rfl⟩ | ⟨-, hm⟩
    · rw [huid]
      split
      · next hempty =>
        rw [issuedWith, if_pos hempty] at hn
        intro heq
        have := hinjective _ _ heq
        omega
      · next hne => exact (hfresh.resolve_left hne).1 n
    · exact h.unissued ref m n hm (Nat.le_trans hissued hn)

theorem identified_update {uid : Nat → String} (h : s.Identified uid)
    (hc : s.HasMeta (Resource.ref a) c) :
    (s.recorded .modified (asUpdate s c a) s.issued).Identified uid := by
  -- the identity under the key stays what it was
  have hold {ref : ObjectRef} {m : ObjectMeta}
      (hm : (s.recorded .modified (asUpdate s c a) s.issued).HasMeta ref m) :
      ∃ m₀, s.HasMeta ref m₀ ∧ m₀.uid = m.uid := by
    rcases hasMeta_recorded_iff.1 hm with ⟨rfl, rfl⟩ | ⟨-, hm⟩
    · refine ⟨c, by rwa [ref_asUpdate], ?_⟩
      rw [metadata_asUpdate]
      rfl
    · exact ⟨m, hm, rfl⟩
  constructor
  · intro ref ref' m m' hm hm' heq
    obtain ⟨m₀, hm₀, huid⟩ := hold hm
    obtain ⟨m₁, hm₁, huid'⟩ := hold hm'
    exact h.distinct ref ref' m₀ m₁ hm₀ hm₁ (huid.trans (heq.trans huid'.symm))
  · intro ref m n hm hn
    obtain ⟨m₀, hm₀, huid⟩ := hold hm
    rw [← huid]
    exact h.unissued ref m₀ n hm₀ hn

theorem Swept.identified {uid : Nat → String} (h : Swept s work after) (hs : s.Identified uid) :
    after.Identified uid where
  distinct ref ref' m m' hm hm' := hs.distinct ref ref' m m' (h.hasMeta hm) (h.hasMeta hm')
  unissued ref m n hm hn := hs.unissued ref m n (h.hasMeta hm) (h.issued_eq ▸ hn)

def numberedUid (n : Nat) : String := "uid-" ++ toString n

theorem numberedUid_injective (n n' : Nat) (h : numberedUid n = numberedUid n') : n = n' := by
  refine toString_nat_injective (String.toList_inj.1 ?_)
  simpa [numberedUid] using congrArg String.toList h

/-- Identities are numbers, and nobody has access to anything. -/
def quiet : Surroundings := ⟨⟨default, numberedUid⟩, fun _ ↦ .ok .empty⟩

theorem numberedUid_ne_empty (n : Nat) : numberedUid n ≠ "" := by
  intro h
  simpa [numberedUid] using congrArg String.toList h

end TenantAccess.Store
