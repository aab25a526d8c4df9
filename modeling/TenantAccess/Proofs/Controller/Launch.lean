import TenantAccess.Proofs.Controller.Upkeep

/-!
# From the start to rest

A controller that starts gives the namespace it is installed in a config, if that has none, and queues
everything there is.  From there it comes to rest.
-/

namespace TenantAccess

open Store

variable {S : Sources} {env : Surroundings} {now : Timestamp} {w : World} {ns : String}

/-- In `after` the namespace has a config, which is new if there was none in `s`. -/
structure Store.Provided (ns : String) (s after : Store) : Prop where
  led : after.Led
  wrote : ∃ news, s.Wrote news after ∧ news.length ≤ 1 ∧
    (∀ e ∈ news, e.kind = .config ∧ (after.objects.get? e.ref).isSome) ∧
    ((∃ name, (s.objects.get? ⟨.config, .namespaced ns name⟩).isSome) → news = [])
  config : ∃ name, (after.objects.get? ⟨.config, .namespaced ns name⟩).isSome

/-- A config that is not active is created without anybody noticing. -/
theorem Config.exec_create_of_led {fresh : Config} (h : w.store.Led) (env : Surroundings)
    (now : Timestamp) (hscope : scopeDefect .config fresh.metadata = none)
    (hnone : w.store.objects.get? (Resource.ref fresh) = none) (hinactive : fresh.isActive = false) :
    ∃ c after e, (Task.create now fresh).exec env w = (.ok c, w.withStore after) ∧ after.Led ∧
      after.Holds c ∧ c.metadata.key = fresh.metadata.key ∧ w.store.Wrote [e] after ∧
      e.kind = .config ∧ e.ref = Resource.ref c := by
  have hscope : scopeDefect (Resource.kind Config) (Resource.metadata fresh) = none := hscope
  have hcoherent : Coherent (w.store.recorded .added (asNew env.ambient w.store fresh) _) :=
    h.coherent.create hscope (w.store.issuedWith (Resource.metadata fresh))
  obtain ⟨c, hc⟩ : ∃ c, c = asNew env.ambient w.store fresh := ⟨_, rfl⟩
  have hexec : (Task.create now fresh).exec env w = _ := Task.exec_create hscope hnone
  have href : Resource.ref c = Resource.ref fresh := by rw [hc, ref_asNew]
  have hinactive : c.isActive = false := by
    rw [hc]
    exact hinactive
  rw [← hc] at hexec hcoherent
  have hholds : (w.store.recorded .added c (w.store.issuedWith (Resource.metadata fresh))).Holds c := by
    rw [Holds, get?_recorded, if_pos rfl]
  refine ⟨c, _, _, hexec, h.created hcoherent hholds (href ▸ hnone) (fun ref hne ↦ ?_) hinactive,
    hholds, congrArg ObjectRef.key href, wrote_recorded .., rfl, rfl⟩
  rw [get?_recorded, if_neg hne]

theorem Config.exec_ensureDefault (h : w.store.Led) (env : Surroundings) (now : Timestamp)
    (hns : ns ≠ "") : ∃ o after, (Config.ensureDefault now ns).exec env w = (.ok o, w.withStore after) ∧
      w.store.Provided ns after := by
  obtain ⟨l, hlist, hl⟩ := exec_listIn env now h.coherent h.encodes ns
  unfold Config.ensureDefault
  rw [Task.exec_bind_of_ok hlist]
  cases l with
  | cons c rest =>
    obtain ⟨hc, hcns⟩ := (hl c).1 List.mem_cons_self
    have hkey : Resource.key c = .namespaced ns c.metadata.name :=
      ObjectKey.mk.injEq .. ▸ ⟨hcns, rfl⟩
    rw [Holds, Resource.ref, hkey] at hc
    exact ⟨none, w.store, rfl, h, ⟨[], wrote_nil _, Nat.zero_le 1,
      fun _ he ↦ absurd he List.not_mem_nil, fun _ ↦ rfl⟩, _, Option.isSome_iff_exists.2 ⟨_, hc⟩⟩
  | nil =>
    have hnobody {name : String} (hsome :
        (w.store.objects.get? ⟨.config, .namespaced ns name⟩).isSome) : False := by
      obtain ⟨object, hget⟩ := Option.isSome_iff_exists.1 hsome
      obtain ⟨c, hc, hkey⟩ := h.holds_config hget
      exact List.not_mem_nil ((hl c).2 ⟨hc, congrArg ObjectKey.ns? hkey⟩)
    have hnone : w.store.objects.get? (Resource.ref (Config.default ns)) = none := by
      cases hget : w.store.objects.get? (Resource.ref (Config.default ns)) with
      | none => rfl
      | some object => exact (hnobody (Option.isSome_iff_exists.2 ⟨object, hget⟩)).elim
    obtain ⟨c, after, e, hexec, hled, hc, hkey, hwrote, hkind, href⟩ :=
      exec_create_of_led h env now (scopeDefect_namespaced (by decide : "cluster" ≠ "") rfl hns rfl)
        hnone rfl
    have hsome : (after.objects.get? (Resource.ref c)).isSome := Option.isSome_iff_exists.2 ⟨_, hc⟩
    refine ⟨some c, after, ?_, hled, ⟨[e], hwrote, Nat.le_refl 1, fun e' he ↦ ?_,
      fun hprovided ↦ hprovided.elim fun _ hsome ↦ (hnobody hsome).elim⟩, "cluster", ?_⟩
    · rw [if_neg (by simp), Task.exec_tryCatch, Task.exec_map_of_ok hexec]
    · rw [List.mem_singleton.1 he, href]
      exact ⟨hkind, hsome⟩
    · rw [Resource.ref, show Resource.key c = .namespaced ns "cluster" from hkey] at hsome
      exact hsome

theorem Config.exec_ensureDefault_of_empty (h : w.store.Led) (env : Surroundings) (now : Timestamp) :
    ∃ e, (Config.ensureDefault now "").exec env w = (.error e, w) := by
  obtain ⟨l, hlist, hl⟩ := exec_listIn env now h.coherent h.encodes ""
  have hnobody : l = [] := by
    refine List.eq_nil_iff_forall_not_mem.2 fun c hc ↦ ?_
    obtain ⟨hholds, hns⟩ := (hl c).1 hc
    obtain ⟨ns, hns', hne⟩ := exists_ns_of_holds h.coherent hholds
    rw [hns] at hns'
    exact hne (Option.some.inj hns').symm
  have hscope : scopeDefect .config (Config.default "").metadata = some (.missingNamespace "cluster") :=
    rfl
  refine ⟨(StoreError.invalid .config (.missingNamespace "cluster")).toError, ?_⟩
  unfold Config.ensureDefault
  rw [Task.exec_bind_of_ok hlist, hnobody, if_neg (by simp), Task.exec_tryCatch, Task.exec_map,
    Task.exec_create_of_defect hscope]
  rfl

def Store.Staffed (config : ControllerConfig) (s : Store) : Prop :=
  config.createDefaultConfig →
    ∃ name, (s.objects.get? ⟨.config, .namespaced config.installNamespace name⟩).isSome

namespace Station

variable {config : ControllerConfig} {st st₁ st' : Station}

def fresh (w : World) : Station := ⟨w, {}, w.store.log.size⟩

/-- The station at which a new controller begins to reconcile. -/
def launched (env : Surroundings) (now : Timestamp) (config : ControllerConfig) (w : World) :
    Station :=
  let st₁ := ((fresh w).exec (Controller.bootstrap (.reliable env) now config)).2
  let st₂ := (st₁.exec (Controller.follow (.reliable env) now (some st₁.cursor))).2
  { st₂ with cursor := st₂.world.store.log.size }

theorem exec_bootstrap (st : Station) (hserves : st.world.store.Serves S) (hled : st.world.store.Led)
    (hconfig : config.createDefaultConfig → config.installNamespace ≠ "") (env : Surroundings)
    (now : Timestamp) :
    ∃ (after : Store) (all : List ReconcileKey) (news : List Event),
      st.exec (Controller.bootstrap (.reliable env) now config) = (.ok (), { st with
        world := { st.world with
          store := after
          claims := st.world.claims.publish S.tenants }
        queue := all.foldl WorkQueue.add st.queue }) ∧
      after.Serves S ∧ after.Led ∧ after.Staffed config ∧
      (∀ key, key ∈ all ↔ key ∈ S.keys after.configKeys) ∧
      st.world.store.Wrote news after ∧ news.length ≤ 1 ∧
      (∀ e ∈ news, e.kind = .config ∧ (after.objects.get? e.ref).isSome) ∧
      (st.world.store.Staffed config → news = []) := by
  unfold Controller.bootstrap
  cases hcreate : config.createDefaultConfig with
  | false =>
    obtain ⟨n, all, hexec, hall⟩ := exec_resync st hserves hled env now
    refine ⟨st.world.store, all, [], ?_, hserves, hled, ?_, hall, wrote_nil _, Nat.zero_le 1,
      fun _ he ↦ absurd he List.not_mem_nil, fun _ ↦ rfl⟩
    · rw [if_neg Bool.false_ne_true, exec_bind_of_ok hexec]
      rfl
    · intro h
      rw [hcreate] at h
      cases h
  | true =>
    obtain ⟨o, after, hensure, hled', ⟨news, hwrote, hlength, hnews, hidle⟩, hstaffed⟩ :=
      Config.exec_ensureDefault hled env now (hconfig hcreate)
    have hserves' : after.Serves S := hserves.of_led hled' fun ref hkind _ ↦
      hwrote.get?_of_kind fun e he heq ↦ hkind (heq.symm.trans (hnews e he).1)
    obtain ⟨n, all, hexec, hall⟩ := exec_resync (S := S)
      { st with world := st.world.withStore after } hserves' hled' env now
    refine ⟨after, all, news, ?_, hserves', hled', fun _ ↦ hstaffed, hall, hwrote, hlength, hnews,
      fun h ↦ hidle (h hcreate)⟩
    rw [if_pos rfl, exec_bind_of_ok (exec_perform hensure)]
    dsimp only
    rw [exec_bind_of_ok hexec]
    rfl

theorem exec_runUntilIdle_of_empty (hled : w.store.Led) (hcreate : config.createDefaultConfig)
    (hempty : config.installNamespace = "") (env : Surroundings) (now : Timestamp) (most : Nat) :
    ∃ e, (((Controller.runUntilIdle (.reliable env) now config most).run.run {}).run w).1.1 =
      .error e := by
  obtain ⟨e, hensure⟩ := Config.exec_ensureDefault_of_empty hled env now
  have hsubscribe : (fresh w).exec (ExceptT.lift (StateT.lift (Backend.reliable env).subscribe)) =
      (.ok (some w.store.log.size), fresh w) := rfl
  have hboot : (fresh w).exec (Controller.bootstrap (.reliable env) now config) =
      (.error e, fresh w) := by
    unfold Controller.bootstrap
    rw [if_pos hcreate, hempty, exec_bind_of_error (exec_perform hensure)]
    rfl
  have hrun : (fresh w).exec (Controller.runUntilIdle (.reliable env) now config most) =
      (.error e, fresh w) := by
    unfold Controller.runUntilIdle
    rw [exec_bind_of_ok hsubscribe, exec_bind_of_error hboot]
  exact ⟨e, congrArg Prod.fst hrun⟩

theorem follows_launched
    (hboot : (fresh w).exec (Controller.bootstrap (.reliable env) now config) = (.ok (), st₁))
    (hclose : st₁.world.store.log.size - st₁.cursor ≤ Controller.watchCapacity) :
    st₁.Follows env now (launched env now config w) ∧ launched env now config w =
      { st₁.told st₁.undelivered with cursor := st₁.world.store.log.size } := by
  have hfollows := follows_of_le env now hclose
  have heq : launched env now config w =
      { st₁.told st₁.undelivered with cursor := st₁.world.store.log.size } := by
    rw [launched, hboot]
    dsimp only
    rw [hfollows]
    rfl
  exact ⟨heq ▸ hfollows, heq⟩

theorem exists_launch (hserves : w.store.Serves S) (hled : w.store.Led)
    (hconfig : config.createDefaultConfig → config.installNamespace ≠ "") (env : Surroundings)
    (now : Timestamp) {launch : Station} (hlaunch : launch = launched env now config w) :
    ∃ st₁, (fresh w).exec (Controller.bootstrap (.reliable env) now config) = (.ok (), st₁) ∧
      st₁.Follows env now launch ∧
      launch.Fed (S.keys launch.world.store.configKeys) (Upkeep S launch.world.store.configKeys)
        S.Quiet ∧
      launch.queue.pending.length = (S.keys launch.world.store.configKeys).card ∧
      launch.world.store.Staffed config ∧
      (w.store.Staffed config → launch.world.store = w.store) := by
  obtain ⟨after, all, news, hboot, hserves', hled', hstaffed, hall, hwrote, hlength, hnews, hidle⟩ :=
    exec_bootstrap (fresh w) hserves hled hconfig env now
  have hclose : after.log.size - w.store.log.size ≤ Controller.watchCapacity := by
    rw [hwrote.size_log]
    exact (Nat.add_sub_cancel_left ..).trans_le (hlength.trans (by decide))
  obtain ⟨hfollows, hlaunched⟩ := follows_launched hboot hclose
  have hundelivered : after.log.toList.drop w.store.log.size = news := hwrote.drop_log
  have hqueue : launch.queue =
      (all ++ news.flatMap (·.keys (w.claims.publish S.tenants))).foldl WorkQueue.add {} := by
    rw [hlaunch, hlaunched, List.foldl_append, ← hundelivered]
    rfl
  have hworld : launch.world = { w with
      store := after
      claims := w.claims.publish S.tenants } := by
    rw [hlaunch, hlaunched]
    rfl
  have hstore : launch.world.store = after := by rw [hworld]
  have hpending (key : ReconcileKey) : key ∈ launch.queue.pending ↔
      key ∈ S.keys launch.world.store.configKeys := by
    rw [hqueue, WorkQueue.sound_empty.mem_pending_foldl_add_iff rfl, hstore, List.mem_append, hall]
    constructor
    · rintro ((hkey | hkey) | hkey)
      · exact hkey
      · obtain ⟨e, he, hkey⟩ := List.mem_flatMap.1 hkey
        obtain ⟨hkind, hsome⟩ := hnews e he
        exact Sources.mem_keys_iff.2 (.inr (Event.mem_configKeys hkind hsome hkey))
      · cases hkey
    · exact fun hkey ↦ .inl (.inl hkey)
  have hupkeep : Upkeep S launch.world.store.configKeys launch.world := by
    refine ⟨hstore ▸ hserves', hstore ▸ hled', ?_, rfl⟩
    rw [hworld]
    exact ⟨_, rfl⟩
  obtain ⟨hfed, hcard⟩ : launch.Fed _ (Upkeep S launch.world.store.configKeys) S.Quiet ∧ _ :=
    Fed.of_pending hupkeep (by rw [hlaunch, hlaunched]; rfl)
      (hqueue ▸ WorkQueue.sound_empty.foldl_add _)
      (by rw [hqueue, WorkQueue.inFlight_foldl_add]) hpending
  refine ⟨_, hboot, hlaunch ▸ hfollows, hfed, hcard, hstore ▸ hstaffed, fun h ↦ ?_⟩
  rw [hstore]
  exact hwrote.same (hidle h)

theorem staffed_congr {s after : Store} (h : after.configKeys = s.configKeys)
    (hstaffed : s.Staffed config) : after.Staffed config := by
  intro hcreate
  obtain ⟨name, hsome⟩ := hstaffed hcreate
  have hmem : .config config.installNamespace name ∈ after.configKeys := by
    rw [h]
    exact mem_configKeys_iff.2 ⟨_, _, rfl, hsome⟩
  obtain ⟨_, _, heq, hsome'⟩ := mem_configKeys_iff.1 hmem
  cases heq
  exact ⟨name, hsome'⟩

/-- A new controller comes to rest, whatever it finds, if it may reconcile often enough. -/
theorem exec_runUntilIdle (hserves : w.store.Serves S) (hled : w.store.Led)
    (hconfig : config.createDefaultConfig → config.installNamespace ≠ "")
    (hreviewer : env.reviewer = S.reviewer) (now : Timestamp) {launch : Station}
    (hlaunch : launch = launched env now config w) {all : Finset ReconcileKey}
    (hall : all = S.keys launch.world.store.configKeys) {gain : Nat}
    (hgain : all.card ≤ gain ∨ 0 < gain ∧ launch.Lagless env now) :
    ∃ (p : Nat) (rested : World), all.card ≤ p ∧
      p ≤ all.card + gain * (unquiet all S.Quiet launch.world.store).card ∧
      Upkeep S launch.world.store.configKeys rested ∧ (∀ key ∈ all, S.Quiet key rested.store) ∧
      rested.store.Staffed config ∧
      ((∀ key ∈ all, S.Quiet key launch.world.store) → rested.store = launch.world.store) ∧
      (∀ most, p ≤ most →
        ((Controller.runUntilIdle (.reliable env) now config most).run.run {}).run w =
          ((.ok p, {}), rested)) ∧
      ∀ most, most < p →
        (((Controller.runUntilIdle (.reliable env) now config most).run.run {}).run w).1.1 =
          .error (Controller.notSettled most) := by
  subst hall
  obtain ⟨st₁, hboot, hfollows, hfed, hlength, hstaffed, -⟩ :=
    exists_launch hserves hled hconfig env now hlaunch
  obtain ⟨p, rested, hlower, hupper, hrested, hpending, hsame, hsettle, hfails⟩ :=
    hfed.exec_settle (settles hreviewer now _) hgain
  rw [hlength] at hlower
  rw [left, hlength] at hupper
  have hsubscribe : (fresh w).exec (ExceptT.lift (StateT.lift (Backend.reliable env).subscribe)) =
      (.ok (some w.store.log.size), fresh w) := rfl
  have hcursor : st₁.cursor = w.store.log.size :=
    (congrArg (fun r : Except Error Unit × Station ↦ r.2.cursor) hboot).symm
  have hrun (most : Nat) : (fresh w).exec (Controller.runUntilIdle (.reliable env) now config most) =
      st₁.exec (Controller.settle (.reliable env) now most (some st₁.cursor) 0) := by
    unfold Controller.runUntilIdle
    rw [exec_bind_of_ok hsubscribe, exec_bind_of_ok hboot, ← hcursor]
  refine ⟨p, rested.world, hlower, hupper, hrested.inv, fun key hkey ↦ ?_,
    staffed_congr hrested.inv.configs hstaffed, hsame, fun most hmost ↦ ?_, fun most hmost ↦ ?_⟩
  · refine Classical.byContradiction fun hbusy ↦ ?_
    have hwaiting := hrested.waiting key hkey hbusy
    rw [hpending] at hwaiting
    cases hwaiting
  · have hqueue := hrested.sound.eq_empty hpending hrested.idle
    have hrun := (hrun most).trans (hfollows.exec_settle hfed.follows (hsettle most hmost 0))
    rw [Nat.zero_add] at hrun
    obtain ⟨hresult, hrest⟩ := Prod.mk.inj hrun
    obtain ⟨hworld, hleft, -⟩ := Station.mk.inj hrest
    exact Prod.ext (Prod.ext hresult (hleft.trans hqueue)) hworld
  · obtain ⟨stopped, hstopped⟩ := hfails most hmost 0
    have hrun := (hrun most).trans (hfollows.exec_settle hfed.follows hstopped)
    rw [Nat.zero_add] at hrun
    exact congrArg Prod.fst hrun

end Station

end TenantAccess
