import TenantAccess.Proofs.Manifest.Seeded
import TenantAccess.Proofs.Store.Identity

/-!
# What seeding stamps

Seeding creates the objects of a manifest one after the other.  Each keeps what the manifest says of it,
and gets a version, the time and, if it has none, an identity that no other object got.
-/

namespace TenantAccess

open Store

abbrev Item := Σ k : Kind, k.Object

namespace Item

def ref (o : Item) : ObjectRef := Resource.ref o.2

def metadata (o : Item) : ObjectMeta := Resource.metadata o.2

end Item

namespace Manifest

def items (m : Manifest) : List Item :=
  (m.tenants.map fun t ↦ ⟨.tenant, t⟩) ++ (m.inventories.map fun i ↦ ⟨.inventory, i⟩) ++
    m.configs.map fun c ↦ ⟨.config, c⟩

theorem length_items (m : Manifest) : m.items.length = m.size := by
  rw [items, size, List.length_append, List.length_append, List.length_map, List.length_map,
    List.length_map]

end Manifest

namespace Store

section Plant

variable {α : Type} [Resource α] (env : Ambient) (s : Store) (a : α)

theorem version_plant : (s.plant env a).version = s.version + 1 := rfl

theorem writes_plant : (s.plant env a).writes = s.writes + 1 := rfl

variable {env s a} in
theorem issued_plant_of_uid_eq_empty (h : (Resource.metadata a).uid = "") :
    (s.plant env a).issued = s.issued + 1 :=
  if_pos h

end Plant

structure Behind (s after : Store) : Prop where
  version : s.version ≤ after.version
  issued : s.issued ≤ after.issued

theorem Behind.trans {s middle after : Store} (h : s.Behind middle) (h' : middle.Behind after) :
    s.Behind after :=
  ⟨Nat.le_trans h.version h'.version, Nat.le_trans h.issued h'.issued⟩

theorem behind_plant {α : Type} [Resource α] (env : Ambient) (s : Store) (a : α) :
    s.Behind (s.plant env a) :=
  ⟨Nat.le_succ _, le_issuedWith ..⟩

/-- Creating the objects of a list in free places leads from one store to the other. -/
inductive Planted (env : Ambient) : List Item → Store → Store → Prop
  | nil (s : Store) : Planted env [] s s
  | cons {o : Item} {rest : List Item} {s after : Store}
    (hnone : s.objects.get? o.ref = none) (h : Planted env rest (s.plant env o.2) after) :
    Planted env (o :: rest) s after

namespace Planted

variable {env : Ambient} {l l' : List Item} {s middle after : Store}

theorem append (h : Planted env l s middle) (h' : Planted env l' middle after) :
    Planted env (l ++ l') s after := by
  induction h with
  | nil => exact h'
  | cons hnone _ ih => exact .cons hnone (ih h')

theorem get?_plant (o : Item) (ref : ObjectRef) : (s.plant env o.2).objects.get? ref =
    if ref = o.ref then some (Resource.encode (asNew env s o.2)) else s.objects.get? ref := by
  rw [plant, get?_recorded, ref_asNew]
  rfl

theorem get?_of_get? (h : Planted env l s after) {ref : ObjectRef} {object : Json}
    (hget : s.objects.get? ref = some object) : after.objects.get? ref = some object := by
  induction h with
  | nil => exact hget
  | @cons o rest s after hnone _ ih =>
    refine ih ?_
    rw [get?_plant, if_neg]
    · exact hget
    · rintro rfl
      rw [hnone] at hget
      cases hget

theorem mem_or_of_get? (h : Planted env l s after) {ref : ObjectRef} {object : Json}
    (hget : after.objects.get? ref = some object) :
    (∃ o ∈ l, ref = o.ref) ∨ s.objects.get? ref = some object := by
  induction h with
  | nil => exact .inr hget
  | @cons o rest s after hnone _ ih =>
    rcases ih hget with ⟨o', ho', href⟩ | hold
    · exact .inl ⟨o', List.mem_cons_of_mem _ ho', href⟩
    · rw [get?_plant] at hold
      split at hold
      · next href => exact .inl ⟨o, List.mem_cons_self, href⟩
      · exact .inr hold

theorem get?_eq_none (h : Planted env l s after) {o : Item} (ho : o ∈ l) :
    s.objects.get? o.ref = none := by
  induction h with
  | nil => cases ho
  | @cons o' rest s after hnone _ ih =>
    rcases List.mem_cons.1 ho with rfl | ho
    · exact hnone
    · have hfree := ih ho
      rw [get?_plant] at hfree
      split at hfree
      · cases hfree
      · exact hfree

structure Counted (l : List Item) (s after : Store) : Prop where
  version : after.version = s.version + l.length
  writes : after.writes = s.writes + l.length
  log : after.log.size = s.log.size + l.length
  issued : after.issued = s.issued + l.countP fun o ↦ o.metadata.uid = ""

theorem counted (h : Planted env l s after) : Counted l s after := by
  induction h with
  | nil => exact ⟨rfl, rfl, rfl, rfl⟩
  | @cons o rest s after hnone _ ih =>
    obtain ⟨hversion, hwrites, hlog, hissued⟩ := ih
    have hcount : (s.plant env o.2).issued = s.issued + if o.metadata.uid = "" then 1 else 0 := by
      change s.issuedWith o.metadata = _
      unfold issuedWith
      split <;> rfl
    have hsize : (s.plant env o.2).log.size = s.log.size + 1 := by
      rw [plant, log_recorded, Array.size_push]
    refine ⟨?_, ?_, ?_, ?_⟩
    · rw [hversion, List.length_cons, version_plant, Nat.add_right_comm, Nat.add_assoc]
    · rw [hwrites, List.length_cons, writes_plant, Nat.add_right_comm, Nat.add_assoc]
    · rw [hlog, hsize, List.length_cons, Nat.add_right_comm, Nat.add_assoc]
    · rw [hissued, hcount, List.countP_cons, Nat.add_right_comm, Nat.add_assoc]
      simp

end Planted

theorem Planted.behind {env : Ambient} {l : List Item} {s after : Store} (h : Planted env l s after) :
    s.Behind after where
  version := h.counted.version ▸ Nat.le_add_right ..
  issued := h.counted.issued ▸ Nat.le_add_right ..

/-- The stores in which the objects of a list were created one after the other, by place. -/
structure Staged (env : Ambient) (l : List Item) (s after : Store) (stage : ObjectRef → Store) :
    Prop where
  get? : ∀ o ∈ l, after.objects.get? o.ref = some (Resource.encode (asNew env (stage o.ref) o.2))
  begins : ∀ o ∈ l, s.Behind (stage o.ref)
  ends : ∀ o ∈ l, ((stage o.ref).plant env o.2).Behind after
  apart : ∀ o ∈ l, ∀ o' ∈ l, o.ref ≠ o'.ref →
    ((stage o.ref).plant env o.2).Behind (stage o'.ref) ∨
    ((stage o'.ref).plant env o'.2).Behind (stage o.ref)
  only : ∀ ref object, after.objects.get? ref = some object →
    (∃ o ∈ l, ref = o.ref) ∨ s.objects.get? ref = some object

theorem Planted.exists_staged {env : Ambient} {l : List Item} {s after : Store}
    (h : Planted env l s after) : ∃ stage, Staged env l s after stage := by
  induction h with
  | nil s =>
    refine ⟨fun _ ↦ s, ?_, ?_, ?_, ?_, fun _ _ ↦ .inr⟩ <;>
      exact fun _ ho ↦ absurd ho List.not_mem_nil
  | @cons o rest s after hnone hrest ih =>
    obtain ⟨stage, hstage⟩ := ih
    have hne (o' : Item) (ho' : o' ∈ rest) : o'.ref ≠ o.ref := by
      intro href
      have hfree := hrest.get?_eq_none ho'
      rw [get?_plant, if_pos href] at hfree
      cases hfree
    -- the object at the head was created in `s`, before all others, and no other has its place
    let stage' (ref : ObjectRef) : Store := if ref = o.ref then s else stage ref
    have hhead : stage' o.ref = s := if_pos rfl
    have htail (o' : Item) (ho' : o' ∈ rest) : stage' o'.ref = stage o'.ref := if_neg (hne o' ho')
    refine ⟨stage', ⟨fun o' ho' ↦ ?_, fun o' ho' ↦ ?_, fun o' ho' ↦ ?_, fun o' ho' o'' ho'' hout ↦ ?_,
      fun _ _ ↦ (hrest.cons hnone).mem_or_of_get?⟩⟩
    · rcases List.mem_cons.1 ho' with rfl | ho'
      · rw [hhead]
        refine hrest.get?_of_get? ?_
        rw [get?_plant, if_pos rfl]
      · rw [htail o' ho']
        exact hstage.get? o' ho'
    · rcases List.mem_cons.1 ho' with rfl | ho'
      · rw [hhead]
        exact ⟨Nat.le_refl _, Nat.le_refl _⟩
      · rw [htail o' ho']
        exact (behind_plant env s o.2).trans (hstage.begins o' ho')
    · rcases List.mem_cons.1 ho' with rfl | ho'
      · rw [hhead]
        exact hrest.behind
      · rw [htail o' ho']
        exact hstage.ends o' ho'
    · rcases List.mem_cons.1 ho' with rfl | hin <;> rcases List.mem_cons.1 ho'' with rfl | hin'
      · exact absurd rfl hout
      · rw [hhead, htail o'' hin']
        exact .inl (hstage.begins o'' hin')
      · rw [hhead, htail o' hin]
        exact .inr (hstage.begins o' hin)
      · rw [htail o' hin, htail o'' hin']
        exact hstage.apart o' hin o'' hin' hout

end Store

namespace Manifest

open Store

variable {α : Type} [Resource α] [Resource.Lawful α] {env : Surroundings} {now : Timestamp}
  {what : String} {w w' : World} {a : α} {l : List α}

theorem planted_of_seed (item : α → Item) (href : ∀ a, (item a).ref = Resource.ref a)
    (hplant : ∀ s a, Store.plant env.ambient s (item a).2 = s.plant env.ambient a)
    (hseed : (l.forM (seedOne now what)).run.run env w = (.ok (), w')) :
    w'.claims = w.claims ∧ Planted env.ambient (l.map item) w.store w'.store := by
  induction l generalizing w with
  | nil =>
    cases hseed
    exact ⟨rfl, .nil _⟩
  | cons a rest ih =>
    obtain ⟨_, middle, hone, hrest⟩ := exists_of_run_bind hseed
    obtain ⟨-, hnone, rfl⟩ := eq_plant_of_seedOne hone
    obtain ⟨hclaims, hplanted⟩ := ih hrest
    refine ⟨hclaims, .cons ?_ ?_⟩
    · rw [href, hnone]
    · rwa [hplant]

theorem planted_of_seed_eq_ok {m : Manifest} (hseed : (m.seed now).run.run env {} = (.ok (), w)) :
    w.claims = {} ∧ Planted env.ambient m.items {} w.store := by
  obtain ⟨_, w₁, htenants, hseed⟩ := exists_of_run_bind hseed
  obtain ⟨_, w₂, hinventories, hconfigs⟩ := exists_of_run_bind hseed
  obtain ⟨hclaims₁, hplanted₁⟩ :=
    planted_of_seed (fun t ↦ ⟨.tenant, t⟩) (fun _ ↦ rfl) (fun _ _ ↦ rfl) htenants
  obtain ⟨hclaims₂, hplanted₂⟩ :=
    planted_of_seed (fun i ↦ ⟨.inventory, i⟩) (fun _ ↦ rfl) (fun _ _ ↦ rfl) hinventories
  obtain ⟨hclaims₃, hplanted₃⟩ :=
    planted_of_seed (fun c ↦ ⟨.config, c⟩) (fun _ ↦ rfl) (fun _ _ ↦ rfl) hconfigs
  exact ⟨hclaims₃.trans (hclaims₂.trans hclaims₁), (hplanted₁.append hplanted₂).append hplanted₃⟩

end Manifest

end TenantAccess
