import TenantAccess.Proofs.Access.Order

/-!
# The algebra of access sets

Whatever way access sets are built, they name nobody twice.  On such sets equality is that of the
members, each operation is the one of sets, and the order of a result is that of its sources.
-/

namespace TenantAccess

theorem sameMembers_iff {l l' : List String} (h : l.Nodup) (h' : l'.Nodup) :
    AccessSet.sameMembers l l' ↔ ∀ name, name ∈ l ↔ name ∈ l' := by
  simp only [AccessSet.sameMembers, Bool.and_eq_true, beq_iff_eq, List.all_eq_true,
    List.contains_iff_mem]
  constructor
  · rintro ⟨⟨-, hleft⟩, hright⟩ name
    exact ⟨hleft name, hright name⟩
  · intro hsame
    have hperm := (List.perm_ext_iff_of_nodup h h').2 hsame
    exact ⟨⟨hperm.length_eq, fun name ↦ (hsame name).1⟩, fun name ↦ (hsame name).2⟩

namespace AccessSet

variable {a a' b b' : AccessSet} {users groups : List String} {p : Principal}

@[simp] theorem mem_new : p ∈ new users groups ↔ p.Among users groups := by
  cases p <;> simp [mem_def, Principal.Among, new]

theorem forall_mem_iff : (∀ p, p ∈ a ↔ p ∈ b) ↔
    (∀ name, name ∈ a.users ↔ name ∈ b.users) ∧ ∀ name, name ∈ a.groups ↔ name ∈ b.groups := by
  constructor
  · exact fun h ↦ ⟨fun name ↦ h (.user name), fun name ↦ h (.group name)⟩
  · rintro ⟨husers, hgroups⟩ (name | name)
    · exact husers name
    · exact hgroups name

theorem beq_iff (ha : a.Distinct) (hb : b.Distinct) : (a == b) = true ↔ ∀ p, p ∈ a ↔ p ∈ b := by
  change (sameMembers a.users b.users && sameMembers a.groups b.groups) = true ↔ _
  rw [Bool.and_eq_true, sameMembers_iff ha.1 hb.1, sameMembers_iff ha.2 hb.2, forall_mem_iff]

/-! ## The operations -/

inductive Built : AccessSet → Prop
  | empty : Built .empty
  | new (users groups : List String) : Built (new users groups)
  | ofPrincipals (d : Principals) : Built (ofPrincipals d)
  | extendFrom {a : AccessSet} (ha : Built a) (users groups : List String) :
    Built (a.extendFrom users groups)
  | extend {a b : AccessSet} (ha : Built a) (hb : Built b) : Built (a.extend b)
  | union {a b : AccessSet} (ha : Built a) (hb : Built b) : Built (a.union b)
  | subtract {a b : AccessSet} (ha : Built a) (hb : Built b) : Built (a.subtract b)
  | intersect {a b : AccessSet} (ha : Built a) (hb : Built b) : Built (a.intersect b)

theorem Distinct.intersect (h : a.Distinct) : (a.intersect b).Distinct :=
  ⟨h.1.filter _, h.2.filter _⟩

theorem Built.distinct (h : a.Built) : a.Distinct := by
  induction h with
  | empty => exact distinct_empty
  | new | ofPrincipals | extendFrom | extend | union => exact distinct_new _ _
  | subtract _ _ ih => exact ih.subtract
  | intersect _ _ ih => exact ih.intersect

/-- `c` is `a` with those of `users` and `groups` behind it that `a` does not have, in the order in
which they are first seen. -/
structure Appends (a : AccessSet) (users groups : List String) (c : AccessSet) : Prop where
  mem_iff : ∀ p, p ∈ c ↔ p ∈ a ∨ p.Among users groups
  users : ∃ fresh, c.users = a.users ++ fresh ∧ FirstSeen (users.filter (· ∉ a.users)) fresh
  groups : ∃ fresh, c.groups = a.groups ++ fresh ∧ FirstSeen (groups.filter (· ∉ a.groups)) fresh

structure Selects (a : AccessSet) (keep : Principal → Prop) (c : AccessSet) : Prop where
  mem_iff : ∀ p, p ∈ c ↔ p ∈ a ∧ keep p
  users : c.users.Sublist a.users
  groups : c.groups.Sublist a.groups

theorem Distinct.appends (h : a.Distinct) (users groups : List String) :
    Appends a users groups (a.extendFrom users groups) where
  mem_iff _ := mem_extendFrom
  users := ⟨_, eraseDups_append_of_nodup h.1 users, firstSeen_eraseDups _⟩
  groups := ⟨_, eraseDups_append_of_nodup h.2 groups, firstSeen_eraseDups _⟩

theorem selects_subtract (a b : AccessSet) : Selects a (· ∉ b) (a.subtract b) where
  mem_iff _ := mem_subtract
  users := List.filter_sublist
  groups := List.filter_sublist

theorem selects_intersect (a b : AccessSet) : Selects a (· ∈ b) (a.intersect b) where
  mem_iff _ := mem_intersect
  users := List.filter_sublist
  groups := List.filter_sublist

/-- Access sets of the kind `S` are sets: they are equal if they have the same members, and the
operations are those of sets, each with its order. -/
structure SetLaws (S : AccessSet → Prop) : Prop where
  distinct : ∀ a, S a → a.Distinct
  empty : S .empty ∧ ∀ p, p ∉ AccessSet.empty
  new : ∀ users groups, S (.new users groups) ∧ (∀ p, p ∈ new users groups ↔ p.Among users groups) ∧
    FirstSeen users (AccessSet.new users groups).users ∧
    FirstSeen groups (AccessSet.new users groups).groups
  ofPrincipals : ∀ d, S (.ofPrincipals d) ∧ ofPrincipals d = .new d.users d.groups
  extendFrom : ∀ a users groups, S a → S (a.extendFrom users groups) ∧
    Appends a users groups (a.extendFrom users groups)
  extend : ∀ a b, S a → S b → S (a.extend b) ∧ Appends a b.users b.groups (a.extend b)
  union : ∀ a b, S a → S b → S (a.union b) ∧ Appends a b.users b.groups (a.union b)
  subtract : ∀ a b, S a → S b → S (a.subtract b) ∧ Selects a (· ∉ b) (a.subtract b)
  intersect : ∀ a b, S a → S b → S (a.intersect b) ∧ Selects a (· ∈ b) (a.intersect b)
  beq_iff : ∀ a b, S a → S b → ((a == b) = true ↔
    (∀ name, name ∈ a.users ↔ name ∈ b.users) ∧ ∀ name, name ∈ a.groups ↔ name ∈ b.groups)
  equivalence : Equivalence fun a b : Subtype S ↦ (a.1 == b.1) = true
  extendFrom_congr : ∀ a a' users users' groups groups', S a → S a' → a == a' →
    (∀ name, name ∈ users ↔ name ∈ users') → (∀ name, name ∈ groups ↔ name ∈ groups') →
    a.extendFrom users groups == a'.extendFrom users' groups'
  extend_congr : ∀ a a' b b', S a → S a' → S b → S b' → a == a' → b == b' →
    a.extend b == a'.extend b'
  union_congr : ∀ a a' b b', S a → S a' → S b → S b' → a == a' → b == b' →
    a.union b == a'.union b'
  subtract_congr : ∀ a a' b b', S a → S a' → S b → S b' → a == a' → b == b' →
    a.subtract b == a'.subtract b'
  intersect_congr : ∀ a a' b b', S a → S a' → S b → S b' → a == a' → b == b' →
    a.intersect b == a'.intersect b'
  union_comm : ∀ a b, S a → S b → a.union b == b.union a
  intersect_comm : ∀ a b, S a → S b → a.intersect b == b.intersect a
  union_subtract : ∀ a b, S a → S b → (a.union b).subtract b == a.subtract b
  /-- What is taken away and what is left make up the whole, and have nobody in common. -/
  partition : ∀ a b, S a → S b → (a.subtract b).union (a.intersect b) == a ∧
    ∀ p, ¬(p ∈ a.subtract b ∧ p ∈ a.intersect b)

theorem Built.beq_iff (ha : a.Built) (hb : b.Built) : (a == b) = true ↔ ∀ p, p ∈ a ↔ p ∈ b :=
  AccessSet.beq_iff ha.distinct hb.distinct

/-- An operation whose members follow from those of its operands respects equality. -/
theorem Built.beq_congr {op : AccessSet → AccessSet → AccessSet} {C : Prop → Prop → Prop}
    (hop : ∀ {a b}, Built a → Built b → Built (op a b))
    (hmem : ∀ a b p, p ∈ op a b ↔ C (p ∈ a) (p ∈ b)) (ha : a.Built) (ha' : a'.Built)
    (hb : b.Built) (hb' : b'.Built) (h : a == a') (h' : b == b') : op a b == op a' b' := by
  rw [ha.beq_iff ha'] at h
  rw [hb.beq_iff hb'] at h'
  refine ((hop ha hb).beq_iff (hop ha' hb')).2 fun p ↦ ?_
  rw [hmem, hmem, propext (h p), propext (h' p)]

theorem setLaws_built : SetLaws Built where
  distinct _ := Built.distinct
  empty := ⟨.empty, fun _ ↦ not_mem_empty⟩
  new users groups := ⟨.new users groups, fun _ ↦ mem_new, firstSeen_eraseDups users,
    firstSeen_eraseDups groups⟩
  ofPrincipals d := ⟨.ofPrincipals d, rfl⟩
  extendFrom _ users groups ha := ⟨ha.extendFrom users groups, ha.distinct.appends users groups⟩
  extend _ b ha hb := ⟨ha.extend hb, ha.distinct.appends b.users b.groups⟩
  union _ b ha hb := ⟨ha.union hb, ha.distinct.appends b.users b.groups⟩
  subtract a b ha hb := ⟨ha.subtract hb, selects_subtract a b⟩
  intersect a b ha hb := ⟨ha.intersect hb, selects_intersect a b⟩
  beq_iff _ _ ha hb := (ha.beq_iff hb).trans forall_mem_iff
  equivalence := {
    refl := fun a ↦ (a.2.beq_iff a.2).2 fun _ ↦ Iff.rfl
    symm := fun {a b} h ↦ (b.2.beq_iff a.2).2 fun p ↦ ((a.2.beq_iff b.2).1 h p).symm
    trans := fun {a b c} h h' ↦ (a.2.beq_iff c.2).2 fun p ↦
      ((a.2.beq_iff b.2).1 h p).trans ((b.2.beq_iff c.2).1 h' p) }
  extendFrom_congr a a' users users' groups groups' ha ha' h husers hgroups := by
    rw [ha.beq_iff ha'] at h
    refine ((ha.extendFrom users groups).beq_iff (ha'.extendFrom users' groups')).2 fun p ↦ ?_
    rw [mem_extendFrom, mem_extendFrom, h p]
    cases p with
    | user name => exact or_congr_right (husers name)
    | group name => exact or_congr_right (hgroups name)
  extend_congr _ _ _ _ := Built.beq_congr Built.extend fun _ _ _ ↦ mem_union
  union_congr _ _ _ _ := Built.beq_congr Built.union fun _ _ _ ↦ mem_union
  subtract_congr _ _ _ _ :=
    Built.beq_congr (C := fun x y ↦ x ∧ ¬y) Built.subtract fun _ _ _ ↦ mem_subtract
  intersect_congr _ _ _ _ := Built.beq_congr Built.intersect fun _ _ _ ↦ mem_intersect
  union_comm a b ha hb := by
    refine ((ha.union hb).beq_iff (hb.union ha)).2 fun p ↦ ?_
    rw [mem_union, mem_union, or_comm]
  intersect_comm a b ha hb := by
    refine ((ha.intersect hb).beq_iff (hb.intersect ha)).2 fun p ↦ ?_
    rw [mem_intersect, mem_intersect, and_comm]
  union_subtract a b ha hb := by
    refine (((ha.union hb).subtract hb).beq_iff (ha.subtract hb)).2 fun p ↦ ?_
    rw [mem_subtract, mem_subtract, mem_union, or_and_right, or_iff_left fun h ↦ h.2 h.1]
  partition a b ha hb := by
    refine ⟨(((ha.subtract hb).union (ha.intersect hb)).beq_iff ha).2 fun p ↦ ?_, fun p ↦ ?_⟩
    · rw [mem_union, mem_subtract, mem_intersect, ← and_or_left, or_comm,
        and_iff_left (Decidable.em _)]
    · rw [mem_subtract, mem_intersect]
      exact fun h ↦ h.1.2 h.2.2

/-- Carol is new to the union, and all that is left once the second set is taken away is Alice. -/
example :
    let admins := AccessSet.new ["alice", "bob", "alice"] ["admins"]
    let developers := AccessSet.new ["bob", "carol"] ["developers"]
    admins.union developers = ⟨["alice", "bob", "carol"], ["admins", "developers"]⟩ ∧
      (admins.union developers).subtract developers = ⟨["alice"], ["admins"]⟩ ∧
      admins.intersect developers = ⟨["bob"], []⟩ := by decide

end AccessSet

end TenantAccess
