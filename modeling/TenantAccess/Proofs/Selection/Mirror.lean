import TenantAccess.Controller.Basic
import TenantAccess.Proofs.Rbac.Mirror

/-!
# Elections that cannot tell stamps

Which config is active is a matter of names and conditions, and a condition counts whenever it came
about.
-/

namespace TenantAccess

open Store

open TenantAccess.Task

open Resource.Stamped (restamp)

theorem smallestBy_map {α β κ : Type} [Ord κ] (key : β → κ) (f : α → β) (l : List α) :
    smallestBy key (l.map f) = (smallestBy (fun a ↦ key (f a)) l).map f := by
  induction l with
  | nil => rfl
  | cons a rest ih =>
    simp only [List.map_cons, smallestBy, ih]
    cases smallestBy (fun a ↦ key (f a)) rest with
    | none => rfl
    | some b =>
      simp only [Option.map_some]
      split <;> rfl

namespace Config

section Restamp

variable (ρ : Restamping) (c : Config) (l : List Config)

theorem isActive_restamp : (restamp ρ c).isActive = c.isActive :=
  ρ.isTrue_map_condition readyCondition c.conditions

theorem first?_map_restamp : smallestBy (·.metadata.name) (l.map (restamp ρ)) =
    (smallestBy (·.metadata.name) l).map (restamp ρ) :=
  smallestBy_map ..

theorem active?_map_restamp : active? (l.map (restamp ρ)) = (active? l).map (restamp ρ) := by
  have hactive : isActive ∘ restamp ρ = isActive := funext (isActive_restamp ρ)
  rw [active?, List.filter_map, hactive, first?_map_restamp]
  rfl

theorem blocking?_restamp : (restamp ρ c).blocking? (l.map (restamp ρ)) = c.blocking? l := by
  unfold blocking?
  simp only [List.filter_map, List.map_map, isActive_restamp, Function.comp_def]
  rfl

theorem isOwnedBy_restamp (quota : ResourceQuota) :
    (restamp ρ quota).metadata.isOwnedBy (restamp ρ c).metadata.uid =
      quota.metadata.isOwnedBy c.metadata.uid :=
  ρ.isOwnedBy_metadata quota.metadata c.metadata.uid

theorem hard_restamp (quota : ResourceQuota) : (restamp ρ quota).hard = quota.hard := rfl

theorem desiredQuota_restamp : (restamp ρ c).desiredQuota = restamp ρ c.desiredQuota := by
  have hblank : (ObjectMeta.namespaced c.ns (quotaName c.metadata.name)).Blank := ⟨rfl, rfl, rfl⟩
  have hmeta := hblank.restamp_owned ρ (OwnerReference.controllerOf c)
  rw [← OwnerReference.controllerOf_restamp] at hmeta
  exact congrArg (ResourceQuota.mk · configLimit) hmeta.symm

theorem default_restamp (ns : String) : restamp ρ (default ns) = default ns := by
  have hblank : (default ns).metadata.Blank := ⟨rfl, rfl, rfl⟩
  exact congrArg (Config.mk · (default ns).spec []) (hblank.restamp_eq ρ rfl)

end Restamp

variable {μ : Mirror} {now now' : Timestamp}

theorem mirrored_writeStatus (c : Config) (new : Condition) :
    Mirrored μ (restamp μ.toRestamping) (c.writeStatus now new)
      ((restamp μ.toRestamping c).writeStatus now' (μ.condition new)) := by
  have hset : { restamp μ.toRestamping c with
      conditions := (μ.condition new).set (restamp μ.toRestamping c).conditions } =
      restamp μ.toRestamping { c with conditions := new.set c.conditions } :=
    congrArg (Config.mk _ _) (μ.set_map_condition new c.conditions)
  have hchanges : (μ.condition new).changes (restamp μ.toRestamping c).conditions =
      new.changes c.conditions := μ.changes_map_condition new c.conditions
  unfold writeStatus
  rw [hchanges, hset]
  split
  · exact mirrored_update _
  · exact mirrored_pure _ c

theorem mirrored_ensureQuota (c : Config) :
    Mirrored μ id (c.ensureQuota now) ((restamp μ.toRestamping c).ensureQuota now') := by
  unfold ensureQuota
  rw [desiredQuota_restamp]
  refine (mirrored_find? _).bind fun o ↦ ?_
  cases o with
  | none => exact (mirrored_create _).bind fun _ ↦ mirrored_pure id _
  | some observed =>
    rw [Option.map_some]
    dsimp only
    rw [hard_restamp, hard_restamp, isOwnedBy_restamp]
    -- the limits are left in one piece, as nothing depends on what they are
    generalize c.desiredQuota.hard = hard
    split
    · exact mirrored_pure id _
    · split
      · exact mirrored_pure id _
      · exact (mirrored_update (α := ResourceQuota) { observed with hard }).bind fun _ ↦
          mirrored_pure id _

theorem mirrored_releaseQuota (c : Config) :
    Mirrored μ id (c.releaseQuota now) ((restamp μ.toRestamping c).releaseQuota now') := by
  refine (mirrored_find? _).bind fun o ↦ ?_
  cases o with
  | none => exact mirrored_pure id _
  | some quota =>
    rw [Option.map_some]
    dsimp only
    rw [isOwnedBy_restamp]
    split
    · refine (mirrored_delete _ _).tryCatch fun e ↦ ?_
      split
      · exact mirrored_pure id _
      · exact mirrored_throw id e
    · exact mirrored_pure id _

theorem mirrored_transition (hnow : now' = μ.time now) (c : Config) (l : List Config) :
    Mirrored μ id (c.transition now l)
      ((restamp μ.toRestamping c).transition now' (l.map (restamp μ.toRestamping))) := by
  unfold transition
  rw [blocking?_restamp]
  subst hnow
  cases c.blocking? l with
  | none =>
    exact (mirrored_writeStatus c (readyNow now)).bind fun written ↦
      (mirrored_ensureQuota written).bind fun _ ↦ mirrored_pure id _
  | some active =>
    exact (mirrored_writeStatus c (notReadyNow now active)).bind fun written ↦
      (mirrored_releaseQuota written).bind fun _ ↦ mirrored_pure id _

theorem mirrored_reelect (hnow : now' = μ.time now) (ns : String) :
    Mirrored μ id (reelect now ns) (reelect now' ns) := by
  refine (mirrored_list _).bind fun configs ↦ ?_
  rw [active?_map_restamp, first?_map_restamp]
  cases active? configs with
  | some active => exact mirrored_pure id _
  | none =>
    cases smallestBy (·.metadata.name) configs with
    | none => exact mirrored_pure id _
    | some candidate =>
      refine (mirrored_transition hnow candidate configs).bind fun decision ↦ ?_
      cases decision <;> exact mirrored_pure id _

theorem mirrored_reconcile (hnow : now' = μ.time now) (key : ObjectKey) :
    Mirrored μ id (reconcile now key) (reconcile now' key) := by
  unfold reconcile
  cases key.ns? with
  | none => exact mirrored_throw id _
  | some ns =>
    refine (mirrored_find? _).bind fun o ↦ ?_
    cases o with
    | none => exact mirrored_reelect hnow ns
    | some config =>
      exact (mirrored_list _).bind fun configs ↦ mirrored_transition hnow config configs

theorem mirrored_ensureDefault (ns : String) :
    Mirrored μ (Option.map (restamp μ.toRestamping)) (ensureDefault now ns) (ensureDefault now' ns) := by
  refine (mirrored_list _).bind fun configs ↦ ?_
  rw [List.isEmpty_map]
  split
  · exact mirrored_pure _ none
  · refine Mirrored.tryCatch ?_ fun e ↦ ?_
    · have hcreate : Mirrored μ (restamp μ.toRestamping) (Task.create now (default ns))
          (Task.create now' (restamp μ.toRestamping (default ns))) := mirrored_create _
      rw [default_restamp] at hcreate
      exact hcreate.map fun _ ↦ rfl
    · split
      · exact mirrored_pure _ none
      · exact mirrored_throw _ e

end Config

theorem ReconcileKey.mirrored_work {μ : Mirror} {now now' : Timestamp} (hnow : now' = μ.time now)
    (key : ReconcileKey) : Mirrored μ id (key.work now) (key.work now') := by
  cases key with
  | authz ns => exact (Pass.mirrored_run ns).bind fun summary ↦ mirrored_pure id _
  | config ns name => exact (Config.mirrored_reconcile hnow _).bind fun _ ↦ mirrored_pure id _

end TenantAccess
