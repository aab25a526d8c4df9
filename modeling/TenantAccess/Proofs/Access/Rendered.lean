import Mathlib.Data.List.Forall2
import TenantAccess.Proofs.Access.Order
import TenantAccess.Rbac.Desired
import TenantAccess.Rbac.Ensure

/-!
# Subjects stand for the principals they are made from

The identity of a service account is taken apart and can be put together again, and nothing else is
taken for one.  So the subjects of a binding tell who is bound, and bindings that are made from
different principals differ.
-/

namespace TenantAccess

/-! ## Identities of service accounts -/

def ClaimsAccount (user : String) : Prop := ∃ rest, user = "system:serviceaccount:" ++ rest

structure IsAccount (user ns name : String) : Prop where
  eq : user = "system:serviceaccount:" ++ ns ++ ":" ++ name
  ns_ne : ns ≠ ""
  name_ne : name ≠ ""
  ns_plain : ':' ∉ ns.toList
  name_plain : ':' ∉ name.toList

def Malformed (user : String) : Prop := ClaimsAccount user ∧ ∀ ns name, ¬IsAccount user ns name

theorem IsAccount.claims {user ns name : String} (h : IsAccount user ns name) :
    ClaimsAccount user := by
  refine ⟨ns ++ ":" ++ name, ?_⟩
  rw [h.eq, String.append_assoc, String.append_assoc, String.append_assoc]

theorem eq_append_ofList_iff {s start : String} {cs : List Char} :
    s = start ++ String.ofList cs ↔ s.toList = start.toList ++ cs := by
  rw [← String.toList_inj, String.toList_append, String.toList_ofList]

theorem afterServiceAccountStart_eq_some_iff {user : String} {cs : List Char} :
    afterServiceAccountStart user = some cs ↔
      user = "system:serviceaccount:" ++ String.ofList cs := by
  have hstart : user = "system:serviceaccount:" ++ String.ofList cs ↔
      user.toList = serviceAccountStart ++ cs := eq_append_ofList_iff
  unfold afterServiceAccountStart
  rw [hstart]
  constructor
  · intro h
    split at h
    · next hstarts =>
      obtain ⟨rest, hrest⟩ := List.isPrefixOf_iff_prefix.1 hstarts
      rw [← hrest, List.drop_left] at h
      rw [← hrest, Option.some.inj h]
    · cases h
  · intro h
    rw [if_pos (List.isPrefixOf_iff_prefix.2 ⟨cs, h.symm⟩), h, List.drop_left]

theorem afterServiceAccountStart_eq_none_iff {user : String} :
    afterServiceAccountStart user = none ↔ ¬ClaimsAccount user := by
  rw [Option.eq_none_iff_forall_ne_some]
  constructor
  · rintro h ⟨rest, hrest⟩
    refine h rest.toList (afterServiceAccountStart_eq_some_iff.2 ?_)
    rw [hrest, String.ofList_toList]
  · exact fun h cs hcs ↦ h ⟨_, afterServiceAccountStart_eq_some_iff.1 hcs⟩

/-- The text is split at its first colon, and there is no other one. -/
theorem splitServiceAccount_eq_some_iff {cs : List Char} {ns name : String} :
    splitServiceAccount cs = some (ns, name) ↔ cs = ns.toList ++ ':' :: name.toList ∧
      ns ≠ "" ∧ name ≠ "" ∧ ':' ∉ ns.toList ∧ ':' ∉ name.toList := by
  unfold splitServiceAccount
  dsimp only
  constructor
  · intro h
    split at h
    · next rest hdrop =>
      split at h
      · cases h
      · next hparts =>
        simp only [Bool.or_eq_true, List.isEmpty_iff, List.contains_iff_mem, not_or] at hparts
        obtain ⟨⟨hns, hname⟩, hplain⟩ := hparts
        cases h
        have hsplit := List.takeWhile_append_dropWhile (p := (· ≠ ':')) (l := cs)
        rw [hdrop] at hsplit
        refine ⟨by simpa using hsplit.symm, by simpa [String.ext_iff] using hns,
          by simpa [String.ext_iff] using hname, ?_, by simpa using hplain⟩
        rw [String.toList_ofList]
        intro hmem
        simpa using List.all_eq_true.1 List.all_takeWhile ':' hmem
    · cases h
  · rintro ⟨rfl, hns, hname, hplain, hplain'⟩
    have hne : ∀ c ∈ ns.toList, (decide (c ≠ ':')) = true := by
      intro c hc
      simpa using fun heq : c = ':' ↦ hplain (heq ▸ hc)
    rw [List.takeWhile_append_of_pos hne, List.dropWhile_append_of_pos hne]
    simp [hns, hname, hplain']

/-- The text behind the start of an identity is split exactly if the identity is an account's. -/
theorem isAccount_iff {user ns name : String} :
    IsAccount user ns name ↔ ∃ cs, afterServiceAccountStart user = some cs ∧
      splitServiceAccount cs = some (ns, name) := by
  simp only [afterServiceAccountStart_eq_some_iff, splitServiceAccount_eq_some_iff]
  have hidentity : "system:serviceaccount:" ++ ns ++ ":" ++ name =
      "system:serviceaccount:" ++ String.ofList (ns.toList ++ ':' :: name.toList) := by
    simp [← String.toList_inj]
  constructor
  · intro h
    exact ⟨_, h.eq.trans hidentity, rfl, h.ns_ne, h.name_ne, h.ns_plain, h.name_plain⟩
  · rintro ⟨cs, huser, rfl, hns, hname, hplain, hplain'⟩
    exact ⟨huser.trans hidentity.symm, hns, hname, hplain, hplain'⟩

/-! ## Subjects -/

/-- Only users that begin like a service account and are none get no subject. -/
def Principal.Skipped : Principal → Prop
  | user name => Malformed name
  | group _ => False

namespace Subject

variable {ns? : Option String} {s : Subject} {p : Principal}

inductive StandsFor (ns? : Option String) : Principal → Subject → Prop
  | account {user ns name : String} (h : IsAccount user ns name) :
    StandsFor ns? (.user user) { kind := .serviceAccount, name, ns? := some ns, apiGroup := none }
  | user {name : String} (h : ¬ClaimsAccount name) :
    StandsFor ns? (.user name) { kind := .user, name, ns?, apiGroup := some rbacGroup }
  | group (name : String) :
    StandsFor ns? (.group name) { kind := .group, name, ns?, apiGroup := some rbacGroup }

/-- The principal that a subject is read back as. -/
def bound (s : Subject) : Principal :=
  match s.kind with
  | .user => .user s.name
  | .group => .group s.name
  | .serviceAccount => .user ("system:serviceaccount:" ++ s.ns?.getD "" ++ ":" ++ s.name)

theorem StandsFor.bound_eq (h : StandsFor ns? p s) : s.bound = p := by
  cases h with
  | account h =>
    rw [h.eq]
    rfl
  | user | group => rfl

theorem StandsFor.not_claimsAccount (h : StandsFor ns? p s) (hkind : s.kind = .user) :
    ¬ClaimsAccount s.name := by
  cases h with
  | account | group => cases hkind
  | user h => exact h

theorem ofUser?_eq_some_iff {user : String} :
    ofUser? ns? user = some s ↔ StandsFor ns? (.user user) s := by
  unfold ofUser?
  cases hstart : afterServiceAccountStart user with
  | none =>
    have hunclaimed := afterServiceAccountStart_eq_none_iff.1 hstart
    constructor
    · intro h
      cases h
      exact .user hunclaimed
    · intro h
      cases h with
      | account h => exact absurd h.claims hunclaimed
      | user => rfl
  | some cs =>
    constructor
    · intro h
      obtain ⟨⟨ns, name⟩, hsplit, rfl⟩ := Option.map_eq_some_iff.1 h
      exact .account (isAccount_iff.2 ⟨cs, hstart, hsplit⟩)
    · intro h
      cases h with
      | account h =>
        obtain ⟨cs', hstart', hsplit⟩ := isAccount_iff.1 h
        rw [hstart] at hstart'
        cases hstart'
        exact Option.map_eq_some_iff.2 ⟨_, hsplit, rfl⟩
      | user h =>
        rw [afterServiceAccountStart_eq_none_iff.2 h] at hstart
        cases hstart

theorem ofUser?_eq_none_iff {user : String} : ofUser? ns? user = none ↔ Malformed user := by
  rw [Option.eq_none_iff_forall_ne_some]
  constructor
  · intro h
    refine ⟨?_, fun ns name haccount ↦ h _ (ofUser?_eq_some_iff.2 (.account haccount))⟩
    by_contra hunclaimed
    exact h _ (ofUser?_eq_some_iff.2 (.user hunclaimed))
  · rintro ⟨hclaims, hnone⟩ s hs
    cases ofUser?_eq_some_iff.1 hs with
    | account h => exact hnone _ _ h
    | user h => exact h hclaims

end Subject

instance (user : String) : Decidable (Malformed user) :=
  decidable_of_iff (Subject.ofUser? none user = none) Subject.ofUser?_eq_none_iff

instance : (p : Principal) → Decidable p.Skipped
  | .user name => inferInstanceAs (Decidable (Malformed name))
  | .group _ => inferInstanceAs (Decidable False)

namespace AccessSet

variable {a b : AccessSet} {ns? : Option String}

/-- The principals of a set in its order, users first. -/
def listed (a : AccessSet) : List Principal := a.users.map .user ++ a.groups.map .group

def rendered (a : AccessSet) : List Principal := a.listed.filter fun p ↦ ¬p.Skipped

@[simp] theorem mem_listed {p : Principal} : p ∈ a.listed ↔ p ∈ a := by
  cases p <;> simp [listed, mem_def, Principal.Among]

theorem mem_rendered {p : Principal} : p ∈ a.rendered ↔ p ∈ a ∧ ¬p.Skipped := by
  simp [rendered]

theorem Distinct.nodup_listed (h : a.Distinct) : a.listed.Nodup := by
  refine List.nodup_append.2 ⟨h.1.map fun _ _ ↦ Principal.user.inj,
    h.2.map fun _ _ ↦ Principal.group.inj, ?_⟩
  intro p hp q hq heq
  obtain ⟨user, -, rfl⟩ := List.mem_map.1 hp
  obtain ⟨group, -, hgroup⟩ := List.mem_map.1 hq
  rw [← hgroup] at heq
  cases heq

theorem forall₂_ofUser? (ns? : Option String) (users : List String) :
    List.Forall₂ (Subject.StandsFor ns?)
      ((users.map Principal.user).filter fun p ↦ ¬p.Skipped)
      (users.filterMap (Subject.ofUser? ns?)) := by
  induction users with
  | nil => exact .nil
  | cons user rest ih =>
    cases huser : Subject.ofUser? ns? user with
    | none =>
      have hskipped : (Principal.user user).Skipped := Subject.ofUser?_eq_none_iff.1 huser
      simpa [huser, hskipped] using ih
    | some s =>
      have hkept : ¬(Principal.user user).Skipped := by
        intro hskipped
        rw [Subject.ofUser?_eq_none_iff.2 hskipped] at huser
        cases huser
      have hstands : Subject.StandsFor ns? (.user user) s := Subject.ofUser?_eq_some_iff.1 huser
      simpa [huser, hkept] using And.intro hstands ih

/-- There is one subject for each principal that is not skipped, in their order. -/
theorem forall₂_subjects (a : AccessSet) (ns? : Option String) :
    List.Forall₂ (Subject.StandsFor ns?) a.rendered (a.subjects ns?) := by
  have hgroups : List.Forall₂ (Subject.StandsFor ns?)
      ((a.groups.map Principal.group).filter fun p ↦ ¬p.Skipped)
      (a.groups.map fun g ↦ Subject.principal .group g ns?) := by
    have hall : (a.groups.map Principal.group).filter (fun p ↦ ¬p.Skipped) =
        a.groups.map .group := by
      simp [List.filter_eq_self, Principal.Skipped]
    rw [hall, List.forall₂_map_left_iff, List.forall₂_map_right_iff, List.forall₂_same]
    exact fun g _ ↦ .group g
  rw [rendered, listed, List.filter_append]
  exact List.rel_append (forall₂_ofUser? ns? a.users) hgroups

theorem map_bound_subjects (a : AccessSet) (ns? : Option String) :
    (a.subjects ns?).map Subject.bound = a.rendered := by
  have hbound : List.Forall₂ (fun p s ↦ p = Subject.bound s) a.rendered (a.subjects ns?) :=
    (a.forall₂_subjects ns?).imp fun _ _ h ↦ h.bound_eq.symm
  have heq := List.forall₂_map_right_iff.2 hbound
  rw [List.forall₂_eq_eq_eq] at heq
  exact heq.symm

theorem exists_bound_iff (a : AccessSet) (ns? : Option String) {p : Principal} :
    (∃ s ∈ a.subjects ns?, s.bound = p) ↔ p ∈ a ∧ ¬p.Skipped := by
  rw [← mem_rendered, ← map_bound_subjects a ns?, List.mem_map]

/-- The subjects tell exactly which principals they are made from. -/
structure Rendered (a : AccessSet) (ns? : Option String) (l : List Subject) : Prop where
  stands : List.Forall₂ (Subject.StandsFor ns?) a.rendered l
  recovered : l.map Subject.bound = a.rendered
  nodup : l.Nodup
  unclaimed : ∀ s ∈ l, s.kind = .user → ¬ClaimsAccount s.name

theorem Distinct.rendered_subjects (h : a.Distinct) (ns? : Option String) :
    Rendered a ns? (a.subjects ns?) where
  stands := a.forall₂_subjects ns?
  recovered := a.map_bound_subjects ns?
  nodup := by
    have hmap : ((a.subjects ns?).map Subject.bound).Nodup := by
      rw [map_bound_subjects]
      exact h.nodup_listed.filter _
    exact hmap.of_map _
  unclaimed := by
    have hboth := (a.forall₂_subjects ns?).flip.imp fun s p h ↦
      And.intro (Subject.StandsFor.not_claimsAccount h) h
    exact ((List.forall₂_and_left _ _).1 hboth).1

/-- The subjects of a set without duplicates are faithful to it.  Bindings that are made from sets
that differ in somebody who is not skipped are different, whatever their namespaces, and are seen to
be. -/
theorem rendered_and_told_apart (ha : a.Distinct) (ns? : Option String) :
    Rendered a ns? (a.subjects ns?) ∧
      ∀ p : Principal, ¬p.Skipped → ¬(p ∈ a ↔ p ∈ b) → ∀ ns?' (scope : Scope) (x y : Binding scope),
        x.subjects = a.subjects ns? → y.subjects = b.subjects ns?' →
          x ≠ y ∧ Derived.differs x y = true := by
  refine ⟨ha.rendered_subjects ns?, fun p hp hapart ns?' scope x y hx hy ↦ ?_⟩
  have hne : x.subjects ≠ y.subjects := by
    intro heq
    rw [hx, hy] at heq
    -- the same subjects bind the same principals
    have hbound : p ∈ a ∧ ¬p.Skipped ↔ p ∈ b ∧ ¬p.Skipped := by
      rw [← exists_bound_iff a ns?, ← exists_bound_iff b ns?', heq]
    exact hapart (by simpa [hp] using hbound)
  refine ⟨fun heq ↦ hne (congrArg Binding.subjects heq), ?_⟩
  simp [Derived.differs, hne]

/-- A user, a service account, one without a name, and a group whose name reads like an account's.  The
set without the user has other subjects. -/
theorem rendered_and_told_apart_with_accounts :
    let a : AccessSet := ⟨["ann", "system:serviceaccount:ci:builder", "system:serviceaccount:ci"],
      ["system:serviceaccount:ci:builder"]⟩
    let b : AccessSet := { a with users := a.users.tail }
    let x : Binding .namespaced := (Inventory.new "shop" "db").viewerBinding a
    let y : Binding .namespaced := (Inventory.new "shop" "db").viewerBinding b
    a.Distinct ∧ Rendered a (some "shop") x.subjects ∧
      x.subjects.map Subject.text =
        ["User:ann", "ServiceAccount:builder", "Group:system:serviceaccount:ci:builder"] ∧
      ¬(Principal.user "ann").Skipped ∧ x ≠ y ∧ Derived.differs x y = true := by
  intro a b x y
  have ha : a.Distinct := ⟨by decide, by decide⟩
  have hann : ¬(Principal.user "ann").Skipped := by decide +kernel
  have hapart : ¬(Principal.user "ann" ∈ a ↔ Principal.user "ann" ∈ b) := by decide +kernel
  have htold := rendered_and_told_apart (b := b) ha (some "shop")
  exact ⟨ha, htold.1, by decide +kernel, hann, htold.2 _ hann hapart (some "shop") _ x y rfl rfl⟩

end AccessSet

end TenantAccess
