import TenantAccess.Proofs.Program.Typed

/-!
# How a store grows

The writes between two stores are those that the log tells of, and they leave everything alone that
they do not name.  What a list of objects yields is a matter of the documents of its kind.
-/

namespace TenantAccess

open Std Json

namespace SortedMap

variable {α β : Type} [Ord α] [LawfulEqOrd α] {m n : SortedMap α β}

theorem nodup_entries (m : SortedMap α β) : m.entries.Nodup :=
  m.sorted.imp fun hlt heq ↦ by
    rw [heq, compare_self] at hlt
    cases hlt

theorem nodup_keys (m : SortedMap α β) : m.keys.Nodup :=
  List.pairwise_map.2 <| m.sorted.imp fun hlt heq ↦ by
    rw [heq, compare_self] at hlt
    cases hlt

theorem ext_get? [TransOrd α] (h : ∀ k, m.get? k = n.get? k) : m = n := by
  have hmem (e : α × β) : e ∈ m.entries ↔ e ∈ n.entries := by
    rw [mem_entries_iff, mem_entries_iff, h]
  apply ext_entries
  apply ((List.perm_ext_iff_of_nodup m.nodup_entries n.nodup_entries).2 hmem).eq_of_pairwise _
    m.sorted n.sorted
  intro a b _ _ hlt hgt
  rw [OrientedCmp.gt_iff_lt.2 hgt] at hlt
  cases hlt

theorem get?_filter_key [DecidableEq α] (p : α → Bool) (m : SortedMap α β) (k : α) :
    (m.filter fun k _ ↦ p k).get? k = if p k then m.get? k else none := by
  cases hget : (m.filter fun k _ ↦ p k).get? k with
  | none =>
    split
    · next hp =>
      cases hk : m.get? k with
      | none => rfl
      | some v =>
        have hmem : (k, v) ∈ (m.filter fun k _ ↦ p k).entries :=
          List.mem_filter.2 ⟨mem_entries_iff.2 hk, hp⟩
        rw [mem_entries_iff, hget] at hmem
        cases hmem
    · rfl
  | some v =>
    obtain ⟨hmem, hp⟩ := List.mem_filter.1 (mem_entries_iff.2 hget)
    rw [if_pos hp, mem_entries_iff.1 hmem]

end SortedMap

namespace Store

variable {α : Type} [Resource α] {s middle after : Store} {news more : List Event}
  {now : Timestamp} {params : ListParams}

theorem toList_extract_log (s : Store) (start : Nat) :
    (s.log.extract start s.log.size).toList = s.log.toList.drop start := by
  rw [Array.toList_extract, List.extract_eq_take_drop, List.take_of_length_le]
  simp

/-- The writes that `news` tells of lead from `s` to `after`. -/
structure Wrote (s : Store) (news : List Event) (after : Store) : Prop where
  log : after.log.toList = s.log.toList ++ news
  writes : after.writes = s.writes + news.length
  same : news = [] → after = s
  frame : ∀ ref, (∀ e ∈ news, e.ref ≠ ref) → after.objects.get? ref = s.objects.get? ref

theorem wrote_nil (s : Store) : s.Wrote [] s where
  log := (List.append_nil _).symm
  writes := rfl
  same _ := rfl
  frame _ _ := rfl

theorem wrote_written (s : Store) (type : EventType) (kind : Kind) (m : ObjectMeta)
    (object : Json) (issued : Nat) :
    s.Wrote [⟨type, kind, m, object⟩] (s.written type kind m object issued) where
  log := by rw [log_written, Array.toList_push]
  writes := rfl
  same h := by cases h
  frame ref h := by
    rw [get?_written, if_neg]
    exact (h _ List.mem_cons_self).symm

theorem wrote_recorded (s : Store) (type : EventType) (a : α) (issued : Nat) :
    s.Wrote [⟨type, Resource.kind α, Resource.metadata a, Resource.encode a⟩]
      (s.recorded type a issued) :=
  wrote_written ..

namespace Wrote

theorem trans (h : s.Wrote news middle) (h' : middle.Wrote more after) :
    s.Wrote (news ++ more) after where
  log := by rw [h'.log, h.log, List.append_assoc]
  writes := by rw [h'.writes, h.writes, List.length_append, Nat.add_assoc]
  same hnil := by
    obtain ⟨hnews, hmore⟩ := List.append_eq_nil_iff.1 hnil
    rw [h'.same hmore, h.same hnews]
  frame ref hout := by
    rw [h'.frame ref fun e he ↦ hout e (List.mem_append_right _ he),
      h.frame ref fun e he ↦ hout e (List.mem_append_left _ he)]

theorem size_log (h : s.Wrote news after) : after.log.size = s.log.size + news.length := by
  rw [← Array.length_toList, h.log, List.length_append, Array.length_toList]

theorem drop_log (h : s.Wrote news after) : after.log.toList.drop s.log.size = news := by
  rw [h.log, ← Array.length_toList]
  exact List.drop_left

theorem get?_of_kind (h : s.Wrote news after) {ref : ObjectRef}
    (hkind : ∀ e ∈ news, e.kind ≠ ref.kind) : after.objects.get? ref = s.objects.get? ref :=
  h.frame ref fun e he heq ↦ hkind e he (congrArg ObjectRef.kind heq)

end Wrote

theorem objectsOf_congr
    (h : ∀ key, after.objects.get? ⟨Resource.kind α, key⟩ =
      s.objects.get? ⟨Resource.kind α, key⟩) :
    after.objectsOf α now params = s.objectsOf α now params := by
  have hfilter : after.objects.filter (fun ref _ ↦ ref.kind = Resource.kind α) =
      s.objects.filter fun ref _ ↦ ref.kind = Resource.kind α := by
    apply SortedMap.ext_get?
    rintro ⟨kind, key⟩
    rw [SortedMap.get?_filter_key fun ref : ObjectRef ↦ ref.kind = Resource.kind α,
      SortedMap.get?_filter_key fun ref : ObjectRef ↦ ref.kind = Resource.kind α]
    split
    · next hkind =>
      have hkind : kind = Resource.kind α := of_decide_eq_true hkind
      rw [hkind]
      exact h key
    · rfl
  have hlist (s : Store) : s.objectsOf α now params =
      (s.objects.filter fun ref _ ↦ ref.kind = Resource.kind α).entries.filterMap fun e ↦
        (Resource.decode strict now e.2).filter fun a ↦ params.accepts (Resource.metadata a) := by
    rw [SortedMap.filter, List.filterMap_filter, objectsOf]
    congr 1
    funext e
    by_cases hkind : e.1.kind = Resource.kind α <;> simp [hkind]
  rw [hlist, hlist, hfilter]

end Store

end TenantAccess
