import TenantAccess.CommandLine.Command
import TenantAccess.Proofs.CommandLine.Planned
import TenantAccess.Proofs.Controller.Mirror

/-!
# Reports of a settled store

A report counts what was seeded, reconciled and written, and lists what was derived.  Stores that mirror
each other make the same report.
-/

namespace TenantAccess

open Store

open Resource.Stamped (restamp)

namespace Command

/-- What reconciling a seeded manifest comes to. -/
structure Report where
  seeded : Nat
  reconciles : Nat
  writes : Nat
  rows : List ObjectRow

def reported (reviewer : Reviewer) (most : Nat) (m : Manifest) (w : World) : CommandM Report := do
  let (reconciles, after) ← settled reviewer most w
  let (rows, _) ← perform reviewer (ObjectRow.collect (← read).ambient.now) after
  return ⟨m.size, reconciles, after.store.writes - w.store.writes, rows⟩

def present (r : Report) : CommandM Unit := do
  match (← read).format with
  | .table =>
    print (Printed.list · .table (ObjectRow.table r.rows) [])
    print (Printed.success · ("Settled after " ++ toString r.reconciles ++ " reconciles (" ++
      toString r.writes ++ " writes)"))
  | format =>
    print fun _ ↦ Printed.item format (.obj [("seeded", Json.nat r.seeded),
      ("reconciles", Json.nat r.reconciles), ("writes", Json.nat r.writes),
      ("objects", .arr (r.rows.map ObjectRow.encode))])

/-- The command seeds, makes the report and prints it. -/
theorem run_executeReconcile (manifest : String) (most : Nat) (context : CommandContext) :
    (executeReconcile manifest most).run context = (do
      let m ← (load manifest).run context
      let w ← (seeded m).run context
      let reviewer ← (reviewer m).run context
      let report ← (reported reviewer most m w).run context
      (present report).run context) := by
  have hread : (read : CommandM CommandContext).run context = pure context := rfl
  unfold executeReconcile reported present
  cases hformat : context.format <;>
    simp only [ReaderT.run_bind, bind_assoc, hread, pure_bind, ReaderT.run_pure, hformat]

namespace ObjectRow

variable {α : Type} [Resource α] [Resource.Stamped α]

theorem of_restamp (ρ : Restamping) {detail : α → String}
    (h : ∀ a, detail (restamp ρ a) = detail a) (a : α) : of detail (restamp ρ a) = of detail a := by
  simp only [of, h, Resource.ns?, Resource.name, Resource.Stamped.metadata_restamp,
    Restamping.ns?_metadata, Restamping.name_metadata]

theorem map_of_restamp (ρ : Restamping) {detail : α → String}
    (h : ∀ a, detail (restamp ρ a) = detail a) (l : List α) :
    (l.map (restamp ρ)).map (of detail) = l.map (of detail) := by
  rw [List.map_map]
  exact List.map_congr_left fun a _ ↦ of_restamp ρ h a

theorem readiness_restamp (ρ : Restamping) (c : Config) : readiness (restamp ρ c) = readiness c := by
  have hfind : Condition.find? readyCondition (restamp ρ c).conditions =
      (Condition.find? readyCondition c.conditions).map ρ.condition := ρ.find?_map_condition ..
  unfold readiness
  rw [hfind]
  cases Condition.find? readyCondition c.conditions <;> rfl

theorem mirrored_collect {μ : Mirror} {now now' : Timestamp} :
    Task.Mirrored μ id (collect now) (collect now') := by
  refine (Task.mirrored_list _).bind fun clusterRoles ↦ (Task.mirrored_list _).bind fun clusterBindings ↦
    (Task.mirrored_list _).bind fun roles ↦ (Task.mirrored_list _).bind fun bindings ↦
    (Task.mirrored_list _).bind fun configs ↦ (Task.mirrored_list _).bind fun quotas ↦ ?_
  rw [map_of_restamp _ fun _ ↦ rfl, map_of_restamp _ fun _ ↦ rfl, map_of_restamp _ fun _ ↦ rfl,
    map_of_restamp _ fun _ ↦ rfl, map_of_restamp _ (readiness_restamp _),
    map_of_restamp _ fun _ ↦ rfl]
  exact Task.mirrored_pure id _

end ObjectRow

/-- Runs on stores that mirror each other make the same report, or fail alike. -/
theorem run_reported_of_mirrored {μ : Mirror} {context context' : CommandContext} {reviewer : Reviewer}
    {w w' : World} (hhere : μ.here = ⟨context.ambient, reviewer⟩)
    (hthere : μ.there = ⟨context'.ambient, reviewer⟩) (hsettings : context'.settings = context.settings)
    (h : w.Mirrored μ w') {m m' : Manifest} (hsize : m'.size = m.size) (most : Nat) :
    (reported reviewer most m' w').run context' = (reported reviewer most m w).run context := by
  have hread (context : CommandContext) :
    (read : CommandM CommandContext).run context = pure context := rfl
  have hnow : context'.ambient.now = μ.time context.ambient.now := by
    have hnow := μ.now_there
    rwa [hhere, hthere] at hnow
  -- first both come to rest, then the rows are collected from what they come to
  have hsettled := Controller.mirrored_runUntilIdle hnow context.settings.controllerConfig most
    (Station.mk w {} 0) (Station.mk w' {} 0) ⟨h, rfl⟩
  unfold reported
  simp only [ReaderT.run_bind, hread, pure_bind, run_settled, run_perform, hsettings, hsize]
  rw [hhere, hthere] at hsettled
  rcases hsettled with ⟨e, u, u', hexec, hexec', hu⟩ | ⟨n, _, u, u', hexec, hexec', rfl, hu⟩
  · rw [hexec, hexec']
    simp only [throw_bind]
  · rw [hexec, hexec']
    have hcollect : Task.Mirrored μ id (ObjectRow.collect context.ambient.now)
      (ObjectRow.collect context'.ambient.now) := ObjectRow.mirrored_collect
    have hrows := hcollect.cases hu.world
    rw [hhere, hthere] at hrows
    simp only [pure_bind]
    rcases hrows with ⟨e, v, v', hexec, hexec', -⟩ | ⟨rows, v, v', hexec, hexec', -⟩
    · rw [hexec, hexec']
      simp only [throw_bind]
    · rw [hexec, hexec', hu.world.store.writes, h.store.writes]
      rfl

end Command

end TenantAccess
