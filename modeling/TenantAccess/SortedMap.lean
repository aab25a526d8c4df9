/-!
# Finite maps in key order

A `SortedMap` is a list of entries whose keys strictly increase, so two maps with the same
look-ups are the same map (`SortedMap.ext_get?`) and listing one needs no sorting.
-/

namespace TenantAccess

open Std

/-- Entries in strictly increasing key order. -/
structure SortedMap (α β : Type) [Ord α] where
  entries : List (α × β)
  sorted : entries.Pairwise fun a b ↦ compare a.1 b.1 = .lt

namespace SortedMap

variable {α β γ : Type} [Ord α]

instance [DecidableEq α] [DecidableEq β] : DecidableEq (SortedMap α β) := fun m n ↦
  decidable_of_iff (m.entries = n.entries) (by cases m; cases n; simp)

theorem ext_entries {m n : SortedMap α β} (h : m.entries = n.entries) : m = n := by
  cases m; cases n; cases h; rfl

def empty : SortedMap α β := ⟨[], .nil⟩

instance : Inhabited (SortedMap α β) := ⟨empty⟩
instance : EmptyCollection (SortedMap α β) := ⟨empty⟩

def isEmpty (m : SortedMap α β) : Bool := m.entries.isEmpty

def size (m : SortedMap α β) : Nat := m.entries.length

def keys (m : SortedMap α β) : List α := m.entries.map (·.1)

def values (m : SortedMap α β) : List β := m.entries.map (·.2)

/-- The value under `k` in a list of entries. -/
def lookup (k : α) : List (α × β) → Option β
  | [] => none
  | (k', v) :: rest => if compare k k' = .eq then some v else lookup k rest

def get? (m : SortedMap α β) (k : α) : Option β := lookup k m.entries

def contains (m : SortedMap α β) (k : α) : Bool := (m.get? k).isSome

/-- Put `v` under `k`, in place of a value already there. -/
def put (k : α) (v : β) : List (α × β) → List (α × β)
  | [] => [(k, v)]
  | (k', v') :: rest =>
    match compare k k' with
    | .lt => (k, v) :: (k', v') :: rest
    | .eq => (k, v) :: rest
    | .gt => (k', v') :: put k v rest

theorem mem_put {k : α} {v : β} {l : List (α × β)} {e : α × β} (h : e ∈ put k v l) :
    e = (k, v) ∨ e ∈ l := by
  induction l with
  | nil => simpa [put] using h
  | cons head tail ih =>
    obtain ⟨k', v'⟩ := head
    simp only [put] at h
    split at h
    · simp_all
    · simp_all; grind
    · simp only [List.mem_cons] at h ⊢
      rcases h with rfl | h
      · simp
      · rcases ih h with rfl | h <;> simp [*]

theorem pairwise_put [TransOrd α] [LawfulEqOrd α] {k : α} {v : β} {l : List (α × β)}
    (h : l.Pairwise fun a b ↦ compare a.1 b.1 = .lt) :
    (put k v l).Pairwise fun a b ↦ compare a.1 b.1 = .lt := by
  induction l with
  | nil => simp [put]
  | cons head tail ih =>
    obtain ⟨k', v'⟩ := head
    obtain ⟨hhead, htail⟩ := List.pairwise_cons.1 h
    simp only [put]
    split
    · next hlt =>
      refine List.pairwise_cons.2 ⟨fun e he ↦ ?_, h⟩
      rcases List.mem_cons.1 he with rfl | he
      · exact hlt
      · exact TransCmp.lt_trans hlt (hhead e he)
    · next heq =>
      cases LawfulEqCmp.eq_of_compare heq
      exact List.pairwise_cons.2 ⟨hhead, htail⟩
    · next hgt =>
      refine List.pairwise_cons.2 ⟨fun e he ↦ ?_, ih htail⟩
      rcases mem_put he with rfl | he
      · exact OrientedCmp.gt_iff_lt.1 hgt
      · exact hhead e he

def insert [TransOrd α] [LawfulEqOrd α] (m : SortedMap α β) (k : α) (v : β) : SortedMap α β :=
  ⟨put k v m.entries, pairwise_put m.sorted⟩

/-- The map without an entry under `k`. -/
def erase (m : SortedMap α β) (k : α) : SortedMap α β :=
  ⟨m.entries.filter fun e ↦ compare k e.1 != .eq, m.sorted.filter _⟩

def filter (p : α → β → Bool) (m : SortedMap α β) : SortedMap α β :=
  ⟨m.entries.filter fun e ↦ p e.1 e.2, m.sorted.filter _⟩

def map (f : β → γ) (m : SortedMap α β) : SortedMap α γ :=
  ⟨m.entries.map fun e ↦ (e.1, f e.2), by
    simpa [List.pairwise_map] using m.sorted⟩

/-- The last of several entries under one key counts. -/
def ofList [TransOrd α] [LawfulEqOrd α] (l : List (α × β)) : SortedMap α β :=
  l.foldl (fun m e ↦ m.insert e.1 e.2) empty

@[simp] theorem get?_empty (k : α) : (empty : SortedMap α β).get? k = none := rfl

theorem lookup_put [TransOrd α] [LawfulEqOrd α] (k a : α) (v : β) (l : List (α × β)) :
    lookup a (put k v l) = if compare a k = .eq then some v else lookup a l := by
  induction l with
  | nil => simp [put, lookup]
  | cons head tail ih =>
    obtain ⟨k', v'⟩ := head
    simp only [put]
    split
    · rfl
    · next heq =>
      cases LawfulEqCmp.eq_of_compare heq
      simp only [lookup]
      split <;> rfl
    · next hgt =>
      simp only [lookup, ih]
      by_cases h : compare a k' = .eq
      · cases LawfulEqCmp.eq_of_compare h
        have : ¬ compare a k = .eq := by
          rw [OrientedCmp.gt_iff_lt.1 hgt]; decide
        simp [this]
      · simp [h]

@[simp] theorem get?_insert [TransOrd α] [LawfulEqOrd α] (m : SortedMap α β) (k a : α) (v : β) :
    (m.insert k v).get? a = if compare a k = .eq then some v else m.get? a :=
  lookup_put k a v m.entries

theorem lookup_filter_ne [LawfulEqOrd α] (k a : α) (l : List (α × β)) :
    lookup a (l.filter fun e ↦ compare k e.1 != .eq) =
      if compare k a = .eq then none else lookup a l := by
  induction l with
  | nil => simp [lookup]
  | cons head tail ih =>
    obtain ⟨k', v'⟩ := head
    by_cases hk : compare k k' = .eq
    · cases LawfulEqCmp.eq_of_compare hk
      simp only [List.filter_cons, hk, bne_self_eq_false, Bool.false_eq_true, if_false, ih, lookup]
      by_cases ha : compare k a = .eq
      · simp [ha]
      · have : compare a k ≠ .eq := fun h ↦ ha (by cases LawfulEqCmp.eq_of_compare h; exact h)
        simp [ha, this]
    · simp only [List.filter_cons, bne_iff_ne, ne_eq, hk, not_false_eq_true, if_true, lookup, ih]
      by_cases ha : compare a k' = .eq
      · cases LawfulEqCmp.eq_of_compare ha
        simp [hk]
      · simp [ha]

@[simp] theorem get?_erase [LawfulEqOrd α] (m : SortedMap α β) (k a : α) :
    (m.erase k).get? a = if compare k a = .eq then none else m.get? a :=
  lookup_filter_ne k a m.entries

theorem mem_of_lookup [LawfulEqOrd α] {k : α} {v : β} {l : List (α × β)}
    (h : lookup k l = some v) : (k, v) ∈ l := by
  induction l with
  | nil => simp [lookup] at h
  | cons head tail ih =>
    obtain ⟨k', v'⟩ := head
    simp only [lookup] at h
    split at h
    · next heq =>
      cases LawfulEqCmp.eq_of_compare heq
      simp_all
    · exact List.mem_cons_of_mem _ (ih h)

theorem size_erase_lt [LawfulEqOrd α] {m : SortedMap α β} {k : α} {v : β}
    (h : m.get? k = some v) : (m.erase k).size < m.size :=
  List.length_filter_lt_length_iff_exists.2 ⟨(k, v), mem_of_lookup h, by simp⟩

end SortedMap

/-- A finite set in increasing order. -/
abbrev SortedSet (α : Type) [Ord α] := SortedMap α Unit

namespace SortedSet

variable {α : Type} [Ord α] [TransOrd α] [LawfulEqOrd α]

def add (s : SortedSet α) (a : α) : SortedSet α := s.insert a ()

def ofList (l : List α) : SortedSet α := l.foldl add SortedMap.empty

end SortedSet

end TenantAccess
