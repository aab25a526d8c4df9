import TenantAccess.Proofs.CommandLine.Reported
import TenantAccess.Proofs.Manifest.Plain

/-!
# The order of a manifest

In what order a manifest lists its objects decides the identities and versions that they get, and nothing
that a report tells.
-/

namespace TenantAccess

open Store

structure Manifest.Shuffles (m m' : Manifest) : Prop where
  tenants : m.tenants.Perm m'.tenants
  inventories : m.inventories.Perm m'.inventories
  configs : m.configs.Perm m'.configs
  accessReviews : m'.accessReviews = m.accessReviews

theorem Manifest.Shuffles.perm_items {m m' : Manifest} (h : m.Shuffles m') : m.items.Perm m'.items :=
  ((h.tenants.map _).append (h.inventories.map _)).append (h.configs.map _)

namespace Command

variable {m m' : Manifest} {context context' : CommandContext} {w w' : World}

/-- A seeded store is reported like the one in plain stamps, which is the same for any order. -/
theorem run_reported_eq_plain (hseed : (seeded m).run context = pure w)
    (hseed' : (seeded m').run context' = pure w') (hperm : m.items.Perm m'.items)
    (hfresh : context.ambient.Fresh m.items) (hfresh' : context'.ambient.Fresh m'.items)
    (hsettings : context'.settings = context.settings) (reviewer : Reviewer) (most : Nat) :
    (reported reviewer most m' w').run context' =
      (reported reviewer most m (w.plain context.ambient)).run
        { context with ambient := .plain } := by
  obtain ⟨hclaims, hplanted⟩ := Manifest.planted_of_seed_eq_ok (run_seeded_eq_pure_iff.1 hseed)
  obtain ⟨hclaims', hplanted'⟩ := Manifest.planted_of_seed_eq_ok (run_seeded_eq_pure_iff.1 hseed')
  have hmirrored := World.mirrored_plain hplanted hplanted' (hclaims'.trans hclaims.symm) hperm hfresh
    hfresh' reviewer
  have hsize : m.size = m'.size := by
    rw [← m.length_items, ← m'.length_items, hperm.length_eq]
  have hhere : (Mirror.plain hplanted' hfresh' reviewer).here = ⟨context'.ambient, reviewer⟩ := rfl
  have hthere : (Mirror.plain hplanted' hfresh' reviewer).there =
      ⟨({ context with ambient := .plain } : CommandContext).ambient, reviewer⟩ := rfl
  have hreported := run_reported_of_mirrored hhere hthere hsettings.symm hmirrored hsize most
  exact hreported.symm

/-- Manifests that list the same objects in different orders make the same report, whatever reviews
answer and however often may be reconciled, or fail alike. -/
theorem reported_eq_of_shuffles (h : m.Shuffles m') (hsettings : context'.settings = context.settings)
    (hfresh : context.ambient.Fresh m.items) (hfresh' : context'.ambient.Fresh m'.items)
    (hseed : (seeded m).run context = pure w) (hseed' : (seeded m').run context' = pure w')
    (reviewer : Reviewer) (most : Nat) :
    (reported reviewer most m' w').run context' = (reported reviewer most m w).run context := by
  rw [run_reported_eq_plain hseed hseed' h.perm_items hfresh hfresh' hsettings,
    run_reported_eq_plain hseed hseed (.refl _) hfresh hfresh rfl]

/-- Two tenants, one of which brings its identity along, inventories that name it as their owner, and two
configs that compete. -/
theorem reported_eq_of_shuffles_of_pairs :
    let context : CommandContext := { ambient := ⟨default, numberedUid⟩, read := .error }
    let context' : CommandContext :=
      { ambient := ⟨default, fun n ↦ numberedUid (n + 7)⟩, read := .error }
    let team := Tenant.new "team" "shop"
    let guild : Tenant := ⟨{ name := "guild", uid := "own" }, "shop", .of ["ann"] ["devs"]⟩
    let owned (name : String) : Inventory :=
      { metadata := { ObjectMeta.namespaced "shop" name with
          ownerReferences := [OwnerReference.controllerOf guild] } }
    let first := Config.new "ops" "first"
    let second := Config.new "ops" "second"
    let m : Manifest :=
      { tenants := [team, guild], inventories := [owned "db", owned "web"], configs := [first, second] }
    let m' : Manifest :=
      { tenants := [guild, team], inventories := [owned "web", owned "db"], configs := [second, first] }
    let w := ((m.seed default).run.run ⟨context.ambient, unreachable⟩ {}).2
    let w' := ((m'.seed default).run.run ⟨context'.ambient, unreachable⟩ {}).2
    (seeded m).run context = pure w ∧ (seeded m').run context' = pure w' ∧ ∀ reviewer most,
      (reported reviewer most m' w').run context' = (reported reviewer most m w).run context := by
  intro context context' team guild owned first second m m' w w'
  have hseed : (seeded m).run context = pure w :=
    run_seeded_eq_pure_iff.2 (Manifest.run_seed_of_toBool (by decide +kernel))
  have hseed' : (seeded m').run context' = pure w' :=
    run_seeded_eq_pure_iff.2 (Manifest.run_seed_of_toBool (by decide +kernel))
  have hshuffles : m.Shuffles m' := ⟨.swap _ _ _, .swap _ _ _, .swap _ _ _, rfl⟩
  have hown (n : Nat) : numberedUid n ≠ "own" := fun heq ↦ by
    simpa [numberedUid] using congrArg String.toList heq
  have huids : ∀ o ∈ m.items, o.metadata.uid = "" ∨ o.metadata.uid = "own" := by decide
  have howners : ∀ o ∈ m.items, ∀ r ∈ o.metadata.ownerReferences, r.uid = "own" := by decide
  have hfresh (start : Nat) : Ambient.Fresh ⟨default, fun n ↦ numberedUid (n + start)⟩ m.items :=
    { injective := fun n n' heq ↦ Nat.add_right_cancel (numberedUid_injective _ _ heq)
      ne_empty := fun n ↦ numberedUid_ne_empty _
      apart := fun o ho n heq ↦ (huids o ho).elim
        (fun hempty ↦ numberedUid_ne_empty _ (heq.trans hempty))
        (fun howned ↦ hown _ (heq.trans howned))
      owners_apart := fun o ho r hr n heq ↦ hown _ (heq.trans (howners o ho r hr)) }
  exact ⟨hseed, hseed', reported_eq_of_shuffles hshuffles rfl (hfresh 0)
    ((hfresh 7).perm hshuffles.perm_items) hseed hseed'⟩

/-! ## The whole command -/

theorem run_print_congr (hcolor : context'.color = context.color) (f : Bool → Printed → Printed) :
    (print f).run context' = (print f).run context := by
  change (modify (f context'.color) : ExceptT CommandFailure (StateM Printed) Unit) = _
  rw [hcolor]
  rfl

theorem run_reviewer_congr (hsettings : context'.settings = context.settings)
    (hcolor : context'.color = context.color) (hreviews : m'.accessReviews = m.accessReviews) :
    (reviewer m').run context' = (reviewer m).run context := by
  unfold reviewer
  rw [run_read_bind, run_read_bind, hsettings, hreviews]
  split
  · rw [Manifest.grants, Manifest.grants, hreviews]
    rfl
  · split
    · rw [ReaderT.run_bind, ReaderT.run_bind, run_print_congr hcolor]
      rfl
    · rfl

theorem run_present_congr (hformat : context'.format = context.format)
    (hcolor : context'.color = context.color) (r : Report) :
    (present r).run context' = (present r).run context := by
  unfold present
  rw [run_read_bind, run_read_bind, hformat]
  split
  · rw [ReaderT.run_bind, ReaderT.run_bind, run_print_congr hcolor]
    refine congrArg _ (funext fun _ ↦ ?_)
    exact run_print_congr hcolor _
  · exact run_print_congr hcolor _

theorem run_executeReconcile_of_shuffles (h : m.Shuffles m') {path path' : String}
    (hload : (load path).run context = pure m) (hload' : (load path').run context' = pure m')
    (hsettings : context'.settings = context.settings) (hformat : context'.format = context.format)
    (hcolor : context'.color = context.color)
    (hfresh : context.ambient.Fresh m.items) (hfresh' : context'.ambient.Fresh m'.items)
    (hseed : (seeded m).run context = pure w) (hseed' : (seeded m').run context' = pure w')
    (most : Nat) :
    (executeReconcile path' most).run context' = (executeReconcile path most).run context := by
  rw [run_executeReconcile, run_executeReconcile, hload, hload', pure_bind, pure_bind, hseed, hseed',
    pure_bind, pure_bind, run_reviewer_congr hsettings hcolor h.accessReviews]
  refine congrArg _ (funext fun reviewer ↦ ?_)
  rw [run_reported_eq_plain hseed hseed' h.perm_items hfresh hfresh' hsettings,
    run_reported_eq_plain hseed hseed (.refl _) hfresh hfresh rfl]
  exact congrArg _ (funext fun r ↦ run_present_congr hformat hcolor r)

end Command

end TenantAccess
