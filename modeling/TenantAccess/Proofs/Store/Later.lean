import TenantAccess.Proofs.Store.Growth

/-!
# No version comes twice

Every accepted write gives its document a version that no document had before.  A document whose
version somebody has seen is therefore still the same, or it is gone for good.
-/

namespace TenantAccess

open Std

namespace Store

variable {s middle after : Store} {news more : List Event} {ref : ObjectRef} {kind : Kind}
  {object : Json} {m : ObjectMeta}

/-- The writes `news` lead from `s` to `after`, and what they put in place is newer than `s`. -/
structure Later (s : Store) (news : List Event) (after : Store) : Prop extends
    Wrote s news after where
  version_le : s.version ≤ after.version
  fresh : ∀ e ∈ news, ∀ object m, after.objects.get? e.ref = some object →
    metaOf e.kind object = .ok m → ∃ v, s.version < v ∧ m.resourceVersion = some (toString v)

theorem later_nil (s : Store) : s.Later [] s where
  toWrote := wrote_nil s
  version_le := Nat.le_refl _
  fresh e he := by cases he

theorem Later.trans (h : s.Later news middle) (h' : middle.Later more after) :
    s.Later (news ++ more) after where
  toWrote := h.toWrote.trans h'.toWrote
  version_le := Nat.le_trans h.version_le h'.version_le
  fresh e he object m hget hm := by
    by_cases hagain : ∃ e' ∈ more, e'.ref = e.ref
    · obtain ⟨e', he', href⟩ := hagain
      have hkind : e'.kind = e.kind := congrArg ObjectRef.kind href
      obtain ⟨v, hv, hversion⟩ := h'.fresh e' he' object m (href ▸ hget) (hkind ▸ hm)
      exact ⟨v, Nat.lt_of_le_of_lt h.version_le hv, hversion⟩
    · have hsame := h'.frame e.ref fun e' he' href ↦ hagain ⟨e', he', href⟩
      refine h.fresh e ?_ object m (hsame ▸ hget) hm
      exact (List.mem_append.1 he).resolve_right fun he ↦ hagain ⟨e, he, rfl⟩

theorem later_written {m₀ : ObjectMeta} (hm : metaOf kind object = .ok m₀)
    (hversion : m.resourceVersion = some (toString (s.version + 1))) (type : EventType)
    (issued : Nat) :
    s.Later [⟨type, kind, m, withMeta object m⟩]
      (s.written type kind m (withMeta object m) issued) where
  toWrote := wrote_written ..
  version_le := Nat.le_succ _
  fresh e he object' m' hget hm' := by
    rw [List.mem_singleton.1 he] at hget hm'
    rw [get?_written, Event.ref, if_pos rfl] at hget
    cases hget
    rw [metaOf_withMeta hm] at hm'
    cases hm'
    exact ⟨s.version + 1, Nat.lt_succ_self _, hversion⟩

theorem later_without (hkey : m.key = ref.key) (object : Json) :
    s.Later [⟨.deleted, ref.kind, m, object⟩] (s.without ref m object) := by
  have href : (⟨ref.kind, m.key⟩ : ObjectRef) = ref := by rw [hkey]
  refine ⟨⟨Array.toList_push, rfl, nofun, fun ref' h ↦ ?_⟩, Nat.le_refl _,
    fun e he object' m' hget ↦ ?_⟩
  · rw [get?_without, if_neg]
    rintro rfl
    exact h _ List.mem_cons_self href
  · rw [List.mem_singleton.1 he, Event.ref, href, get?_without, if_pos rfl] at hget
    cases hget

theorem Sweeps.later {work : List ObjectRef} {told : List Event} (h : Sweeps s work told after)
    (hs : s.Coherent) : s.Later told after := by
  induction h with
  | nil s => exact later_nil s
  | skip _ _ ih => exact ih hs
  | take hget hm _ ih =>
    exact (later_without (hs.key_eq hget hm) _).trans (ih (coherent_without hs _ _ _))

theorem Coherent.exists_version (h : s.Coherent) (hm : s.HasMeta ref m) :
    ∃ v ≤ s.version, m.resourceVersion = some (toString v) := by
  obtain ⟨object, hget, hm⟩ := hm
  obtain ⟨m', hm', -, hversion⟩ := h ref object hget
  rw [(admitted_eq_ok_iff.1 hm').1] at hm
  cases hm
  exact hversion

/-- What is stored with a version from before is stored since before. -/
theorem Later.untouched (h : s.Later news after) (hs : s.Coherent) (hm : s.HasMeta ref m)
    {c : ObjectMeta} (hc : after.HasMeta ref c) (hversion : c.resourceVersion = m.resourceVersion) :
    ∀ e ∈ news, e.ref ≠ ref := by
  rintro e he rfl
  obtain ⟨current, hget, hc⟩ := hc
  obtain ⟨v, hv, hnew⟩ := h.fresh e he current c hget hc
  obtain ⟨v', hv', hold⟩ := hs.exists_version hm
  rw [hnew, hold] at hversion
  have heq := toString_nat_injective (Option.some.inj hversion)
  omega

theorem Later.update_cases (h : s.Later news after) (hs : s.Coherent) (hafter : after.Coherent)
    (hget : s.objects.get? ref = some object) (hm : metaOf ref.kind object = .ok m) {new : Json}
    {m' : ObjectMeta} (hm' : metaOf ref.kind new = .ok m') (hkey : m'.key = ref.key)
    (hversion : m'.resourceVersion = m.resourceVersion) :
    (∃ e, after.update ref.kind new = (.error e, after)) ∨
    (after.objects.get? ref = some object ∧ (∀ e ∈ news, e.ref ≠ ref) ∧
      after.update ref.kind new = (.ok (withMeta new (stampOver after m m')),
        after.written .modified ref.kind (stampOver after m m')
          (withMeta new (stampOver after m m')) after.issued)) := by
  rcases Store.update_cases ref.kind new after with he | ⟨m₁, current, c, hm₁, hcurrent, hc, hv, heq⟩
  · exact .inl he
  · right
    rw [(admitted_eq_ok_iff.1 hm₁).1] at hm'
    cases hm'
    rw [hkey] at hcurrent
    obtain ⟨v, -, hold⟩ := hs.exists_version ⟨object, hget, hm⟩
    obtain ⟨v', -, hnew⟩ := hafter.exists_version ⟨current, hcurrent, hc⟩
    rw [hversion, hold, hnew] at hv
    have hsame : c.resourceVersion = m.resourceVersion := by
      rw [hold, hnew]
      exact (hv.resolve_left nofun).symm
    have hout := h.untouched hs ⟨object, hget, hm⟩ ⟨current, hcurrent, hc⟩ hsame
    have hstill : after.objects.get? ref = some object := (h.frame ref hout).trans hget
    rw [hstill] at hcurrent
    cases hcurrent
    rw [hm] at hc
    cases hc
    exact ⟨hstill, hout, heq⟩

end Store

end TenantAccess
