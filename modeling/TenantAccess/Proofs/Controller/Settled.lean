import TenantAccess.Proofs.Controller.Launch
import TenantAccess.Settings.Basic

/-!
# How long it takes to settle

From a seeded store a controller comes to rest after reconciling each key once or twice, and when it is
run again it reconciles each key once and writes nothing.
-/

namespace TenantAccess

open Store Station

namespace Manifest.Seeded

variable {m : Manifest} {s : Store}

theorem namespaces_eq (h : m.Seeded s) (reviewer : Reviewer) :
    (s.sources reviewer).namespaces = m.namespaces := by
  ext ns
  rw [Sources.mem_namespaces_iff, Manifest.namespaces]
  simp only [List.mem_toFinset, List.mem_append, List.mem_map, List.mem_filterMap]
  refine or_congr ⟨?_, ?_⟩ ⟨?_, ?_⟩
  · rintro ⟨t, ht, hns⟩
    obtain ⟨t₀, ht₀, filed, -, rfl, -⟩ := (h.mem_tenants_iff reviewer).1 ht
    exact ⟨t₀, ht₀, hns⟩
  · rintro ⟨t₀, ht₀, hns⟩
    obtain ⟨filed, hkey, hholds⟩ := h.tenants t₀ ht₀
    exact ⟨_, (h.mem_tenants_iff reviewer).2 ⟨t₀, ht₀, filed, hkey, rfl, hholds⟩, hns⟩
  · rintro ⟨i, hi, hns⟩
    obtain ⟨i₀, hi₀, filed, hkey, rfl, -⟩ := (h.mem_inventories_iff reviewer).1 hi
    exact ⟨i₀, hi₀, (congrArg ObjectKey.ns? hkey).symm.trans hns⟩
  · rintro ⟨i₀, hi₀, hns⟩
    obtain ⟨filed, hkey, hholds⟩ := h.inventories i₀ hi₀
    exact ⟨_, (h.mem_inventories_iff reviewer).2 ⟨i₀, hi₀, filed, hkey, rfl, hholds⟩,
      (congrArg ObjectKey.ns? hkey).trans hns⟩

end Manifest.Seeded

theorem Settings.installNamespace_ne_empty {settings : Settings} (h : settings.refusal? = none) :
    settings.controllerConfig.installNamespace ≠ "" := by
  intro hempty
  have hempty : settings.operator.installNamespace = "" := hempty
  unfold refusal? at h
  dsimp only at h
  rw [if_pos hempty] at h
  split at h
  · cases h
  · split at h <;> cases h

theorem exec_runUntilIdle_of_quiet {S : Sources} {w : World} {config : ControllerConfig}
    {env : Surroundings} (hserves : w.store.Serves S) (hled : w.store.Led)
    (hconfig : config.createDefaultConfig → config.installNamespace ≠ "")
    (hreviewer : env.reviewer = S.reviewer) (now : Timestamp) (hstaffed : w.store.Staffed config)
    (hquiet : ∀ key ∈ S.keys w.store.configKeys, S.Quiet key w.store) :
    ∃ rested : World, rested.store = w.store ∧ ∀ most, (S.keys w.store.configKeys).card ≤ most →
      ((Controller.runUntilIdle (.reliable env) now config most).run.run {}).run w =
        ((.ok (S.keys w.store.configKeys).card, {}), rested) := by
  obtain ⟨launch, hlaunch⟩ : ∃ launch, launch = launched env now config w := ⟨_, rfl⟩
  obtain ⟨-, -, -, -, -, -, hstore⟩ := exists_launch hserves hled hconfig env now hlaunch
  have hstore := hstore hstaffed
  obtain ⟨p, rested, hlower, hupper, -, -, -, hsame, hrun, -⟩ :=
    exec_runUntilIdle hserves hled hconfig hreviewer now hlaunch rfl (.inl (Nat.le_refl _))
  rw [hstore] at hlower hupper hsame
  rw [card_unquiet_eq_zero hquiet, Nat.mul_zero, Nat.add_zero] at hupper
  obtain rfl := Nat.le_antisymm hupper hlower
  exact ⟨rested, hsame hquiet, hrun⟩

/-- From a seeded store the controller settles within two rounds, and a second run, of the same
controller or a new one, goes round once and writes nothing. -/
theorem runUntilIdle_settles {m : Manifest} {env₀ : Surroundings} {now₀ : Timestamp} {w : World}
    (hseed : (m.seed now₀).run.run env₀ {} = (.ok (), w)) {settings : Settings}
    (hsettings : settings.refusal? = none) (env : Surroundings) (now : Timestamp) :
    let config := settings.controllerConfig
    let launch := launched env now config w
    let n := m.namespaces.card
    let c := launch.world.store.countOf .config
    launch.Lagless env now →
    ∃ (p : Nat) (rested : World), n + c ≤ p ∧ p ≤ 2 * (n + c) ∧
      (∀ most, 2 * (n + c) ≤ most →
        ((Controller.runUntilIdle (.reliable env) now config most).run.run {}).run w =
          ((.ok p, {}), rested)) ∧
      ∀ (claims : Claims) (reviews : Nat) (env' : Surroundings) (now' : Timestamp),
        env'.reviewer = env.reviewer → ∃ again : World, again.store = rested.store ∧
          ∀ most, n + c ≤ most →
            ((Controller.runUntilIdle (.reliable env') now' config most).run.run {}).run
              ⟨rested.store, claims, reviews⟩ = ((.ok (n + c), {}), again) := by
  intro config launch n c hlag
  have hseeded := Manifest.seeded_of_seed hseed
  obtain ⟨S, hS⟩ : ∃ S, S = w.store.sources env.reviewer := ⟨_, rfl⟩
  have hserves : w.store.Serves S := hS ▸ hseeded.serves env.reviewer
  have hreviewer : env.reviewer = S.reviewer := by rw [hS]; rfl
  have hconfig (_ : config.createDefaultConfig) : config.installNamespace ≠ "" :=
    settings.installNamespace_ne_empty hsettings
  have hlaunch : launch = launched env now config w := rfl
  obtain ⟨-, -, -, hfed, -⟩ := exists_launch hserves hseeded.led hconfig env now hlaunch
  have hcard : (S.keys launch.world.store.configKeys).card = n + c := by
    rw [Sources.card_keys, card_configKeys hfed.inv.led.coherent, hS, hseeded.namespaces_eq]
  obtain ⟨p, rested, hlower, hupper, hupkeep, hquiet, hstaffed, -, hrun, -⟩ :=
    exec_runUntilIdle hserves hseeded.led hconfig hreviewer now hlaunch rfl
      (.inr ⟨Nat.one_pos, hlag⟩)
  have hunquiet : (unquiet (S.keys launch.world.store.configKeys) S.Quiet launch.world.store).card ≤
      (S.keys launch.world.store.configKeys).card := card_unquiet_le
  rw [hcard] at hlower hupper hunquiet
  refine ⟨p, rested, hlower, by omega, fun most hmost ↦ hrun most (by omega),
    fun claims reviews env' now' hreviewer' ↦ ?_⟩
  rw [← hupkeep.configs] at hquiet hcard
  have hagain := exec_runUntilIdle_of_quiet (w := ⟨rested.store, claims, reviews⟩) hupkeep.serves
    hupkeep.led hconfig (hreviewer'.trans hreviewer) now' hstaffed hquiet
  rw [hcard] at hagain
  exact hagain

/-- A tenant, its inventory and a config elsewhere: the controller adds the default config, and so has
three keys in all. -/
theorem runUntilIdle_settles_with_default_config :
    let env : Surroundings := ⟨⟨default, numberedUid⟩, fun _ ↦ .ok .empty⟩
    let m : Manifest :=
      { tenants := [Tenant.new "team" "shop"]
        inventories := [Inventory.new "shop" "db"]
        configs := [Config.default "bar"] }
    let w := ((m.seed default).run.run env {}).2
    let config := ({} : Settings).controllerConfig
    let launch := launched env default config w
    (m.seed default).run.run env {} = (.ok (), w) ∧ launch.Lagless env default ∧
      ∃ (p : Nat) (rested : World), 3 ≤ p ∧ p ≤ 6 ∧
        (∀ most, 6 ≤ most →
          ((Controller.runUntilIdle (.reliable env) default config most).run.run {}).run w =
            ((.ok p, {}), rested)) ∧
        ∀ (claims : Claims) (reviews : Nat) (env' : Surroundings) (now' : Timestamp),
          env'.reviewer = env.reviewer → ∃ again : World, again.store = rested.store ∧
            ∀ most, 3 ≤ most →
              ((Controller.runUntilIdle (.reliable env') now' config most).run.run {}).run
                ⟨rested.store, claims, reviews⟩ = ((.ok 3, {}), again) := by
  intro env m w config launch
  have hseed : (m.seed default).run.run env {} = (.ok (), w) :=
    Manifest.run_seed_of_toBool (by decide +kernel)
  have hseeded := Manifest.seeded_of_seed hseed
  have hsettings : ({} : Settings).refusal? = none := by decide +kernel
  have hlaunch : launch = launched env default config w := rfl
  obtain ⟨-, -, -, hfed, -⟩ := exists_launch (hseeded.serves env.reviewer) hseeded.led
    (fun _ ↦ Settings.installNamespace_ne_empty hsettings) env default hlaunch
  have hlag : launch.Lagless env default := by
    refine lagless_of_effort rfl default hfed fun key hkey ↦ ?_
    cases key with
    | config => exact (by decide : 2 ≤ Controller.watchCapacity)
    | authz ns =>
      have hns := Sources.authz_mem_keys_iff.1 hkey
      rw [hseeded.namespaces_eq] at hns
      obtain rfl : ns = "shop" := by
        simpa [Manifest.namespaces, m, Tenant.new, Inventory.new, ObjectMeta.namespaced,
          eq_comm] using hns
      decide +kernel
  have hnamespaces : m.namespaces.card = 1 := by decide +kernel
  have hconfigs : (launched env default ({} : Settings).controllerConfig w).world.store.countOf
      .config = 2 := by decide +kernel
  have hsettles := runUntilIdle_settles hseed hsettings env default hlag
  simp only [hnamespaces, hconfigs, Nat.reduceAdd, Nat.reduceMul] at hsettles
  exact ⟨hseed, hlag, hsettles⟩

end TenantAccess
