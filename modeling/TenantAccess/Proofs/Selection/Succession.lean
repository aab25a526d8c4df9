import TenantAccess.Proofs.Controller.Station
import TenantAccess.Proofs.Program.Amid
import TenantAccess.Proofs.Selection.Review

/-!
# What a denied config knows of the active one

Configs come and go, the controller follows the log one event at a time, and the configs that are queued
are reconciled in turn.  At rest a namespace with configs has one active config, and every other one
bears a denial.  The denial names the config that was active when the denied one was last reconciled; it
is not called for again when that one goes and another takes its place.
-/

namespace TenantAccess

open Store

namespace Succession

/-- What may happen next.  Each step has its own time and surroundings, and writes may come to nothing.
A step that reconciles a config has its key. -/
inductive Step (uid : Nat → String) (st : Station) : Option ReconcileKey → Station → Prop
  | create (env : Surroundings) (now : Timestamp) (c : Config) (henv : env.ambient.uid = uid)
    (hready : Condition.find? readyCondition c.conditions = none)
    (hfresh : st.world.store.Fresh uid c.metadata.uid) :
    Step uid st none { st with world := ((Task.create now c).exec env st.world).2 }
  | delete (env : Surroundings) (key : ObjectKey) :
    Step uid st none { st with world := ((Task.delete .config key).exec env st.world).2 }
  /-- The controller handles the oldest event that it has not handled. -/
  | deliver (env : Surroundings) (e : Event) (h : st.world.store.log[st.cursor]? = some e) :
    Step uid st none { (st.exec (Controller.handle (.reliable env) [e])).2 with
      cursor := st.cursor + 1 }
  | reconcile (env : Surroundings) (now : Timestamp) (ns name : String)
    (queue : WorkQueue ReconcileKey) (henv : env.ambient.uid = uid)
    (htake : st.queue.take? = some (.config ns name, queue)) :
    Step uid st (some (.config ns name))
      (st.exec (Controller.reconcileNext (.reliable env) now)).2

inductive Reached (uid : Nat → String) : Station → Prop
  | start (w : World) (h : w.store = .empty) : Reached uid ⟨w, {}, 0⟩
  | step {st st' : Station} {key? : Option ReconcileKey} (h : Reached uid st)
    (hstep : Step uid st key? st') : Reached uid st'

/-- When `name` was last reconciled `seen` was active in the end, and `name` has been there since. -/
inductive Saw (uid : Nat → String) (ns name seen : String) : Station → Prop
  | look {st st' : Station} (h : Reached uid st) (hstep : Step uid st (some (.config ns name)) st')
    (hhas : st'.world.store.HasConfig ns name) (hactive : st'.world.store.Active ns seen) :
    Saw uid ns name seen st'
  | keep {st st' : Station} {key? : Option ReconcileKey} (h : Saw uid ns name seen st)
    (hstep : Step uid st key? st') (hother : key? ≠ some (.config ns name))
    (hhas : st'.world.store.HasConfig ns name) : Saw uid ns name seen st'

section Run

variable {uid : Nat → String} {st st' : Station} {key? : Option ReconcileKey}
  {ns name seen : String} {w' : World} {news : List Event} {queue : WorkQueue ReconcileKey}

inductive Outcome (uid : Nat → String) (st : Station) : Option ReconcileKey → Station → Prop
  | write {w' : World} {news : List Event} (hgoverned : Governed uid w'.store)
    (hwrote : st.world.store.Wrote news w'.store)
    (hsame : ∀ ns name, st.world.store.HasConfig ns name → w'.store.HasConfig ns name →
      w'.store.objects.get? ⟨.config, ⟨some ns, name⟩⟩ =
        st.world.store.objects.get? ⟨.config, ⟨some ns, name⟩⟩) :
    Outcome uid st none { st with world := w' }
  | deliver {e : Event} (h : st.world.store.log[st.cursor]? = some e) :
    Outcome uid st none { st with
      queue := (e.keys st.world.claims).foldl WorkQueue.add st.queue
      cursor := st.cursor + 1 }
  | reconcile {ns name : String} {queue : WorkQueue ReconcileKey} {w' : World} {news : List Event}
    (htake : st.queue.take? = some (.config ns name, queue)) (hgoverned : Governed uid w'.store)
    (hwrote : st.world.store.Wrote news w'.store)
    (hreviewed : Reviewed ns name st.world.store w'.store) :
    Outcome uid st (some (.config ns name)) { st with
      world := w'
      queue := queue.done (.config ns name) }

theorem exists_wrote {α : Type} (env : Surroundings) (t : Task α) {w : World}
    (h : w.store.Coherent) : ∃ news, w.store.Wrote news (t.exec env w).2.store := by
  obtain ⟨news, hlater⟩ := (Program.reaches_run env t.run w).later h
  exact ⟨news, hlater.toWrote⟩

theorem Step.outcome (hinjective : ∀ n n', uid n = uid n' → n = n') (hne : ∀ n, uid n ≠ "")
    (h : Governed uid st.world.store) (hstep : Step uid st key? st') : Outcome uid st key? st' := by
  cases hstep with
  | create env now c henv hready hfresh =>
    obtain ⟨news, hwrote⟩ := exists_wrote env (Task.create now c) h.coherent
    refine .write (Config.governed_step hinjective hne h (.create env now c henv hready hfresh))
      hwrote fun ns name hbefore _ ↦ ?_
    rcases Task.exec_create_cases env now c st.world with ⟨e, heq⟩ | ⟨-, hnone, heq⟩
    · rw [heq]
    · obtain ⟨object, hget⟩ := hbefore
      rw [heq, World.store_withStore, get?_recorded, ref_asNew, if_neg]
      intro href
      rw [href, hnone] at hget
      cases hget
  | delete env key =>
    obtain ⟨news, hwrote⟩ := exists_wrote env (Task.delete .config key) h.coherent
    refine .write (Config.governed_step hinjective hne h (.delete env key)) hwrote
      fun ns name _ hafter ↦ ?_
    rcases Task.exec_delete_cases env h.coherent .config key with ⟨-, heq⟩ | ⟨after, heq, hswept⟩
    · rw [heq]
    · rw [heq] at hafter ⊢
      obtain ⟨object, hget⟩ := hafter
      exact hget.trans (hswept.kept _ _ hget).symm
  | deliver env e hnext =>
    rw [Station.exec_handle]
    exact .deliver hnext
  | reconcile env now ns name queue henv htake =>
    obtain ⟨decision, after, hexec, hafter, hreviewed⟩ :=
      h.exec_reconcile_reviewed env now hinjective hne henv ns name
    have hwork : ((ReconcileKey.config ns name).work now).exec env st.world =
        (.ok [], st.world.withStore after) := by
      rw [ReconcileKey.work, Task.exec_bind_of_ok hexec]
      rfl
    obtain ⟨news, hwrote⟩ := exists_wrote env ((ReconcileKey.config ns name).work now) h.coherent
    rw [hwork] at hwrote
    rw [Station.exec_reconcileNext htake hwork]
    exact .reconcile htake hafter hwrote hreviewed

/-- What holds between any two steps. -/
structure Sane (uid : Nat → String) (st : Station) : Prop where
  governed : Governed uid st.world.store
  queue : st.queue.Sound
  idle : st.queue.inFlight = []
  cursor : st.cursor ≤ st.world.store.log.toList.length

theorem Sane.cursor_le (h : Sane uid st) {after : Store}
    (hwrote : st.world.store.Wrote news after) : st.cursor ≤ after.log.toList.length := by
  rw [hwrote.log, List.length_append]
  exact Nat.le_add_right_of_le h.cursor

theorem Sane.step (h : Sane uid st) (hstep : Outcome uid st key? st') : Sane uid st' := by
  cases hstep with
  | write hgoverned hwrote => exact ⟨hgoverned, h.queue, h.idle, h.cursor_le hwrote⟩
  | deliver hnext =>
    obtain ⟨hlt, -⟩ := Array.getElem?_eq_some_iff.1 hnext
    exact ⟨h.governed, h.queue.foldl_add _, by simp [h.idle],
      Nat.succ_le_of_lt (by simpa using hlt)⟩
  | reconcile htake hgoverned hwrote =>
    obtain ⟨hsound, hidle, -⟩ := h.queue.done_foldl_add h.idle htake []
    exact ⟨hgoverned, hsound, hidle, h.cursor_le hwrote⟩

theorem Reached.sane (hinjective : ∀ n n', uid n = uid n' → n = n') (hne : ∀ n, uid n ≠ "")
    (h : Reached uid st) : Sane uid st := by
  induction h with
  | start w h =>
    refine ⟨?_, WorkQueue.sound_empty, rfl, Nat.zero_le _⟩
    rw [h]
    exact governed_empty uid
  | step _ hstep ih => exact ih.step (hstep.outcome hinjective hne ih.governed)

/-! ## Configs that something still calls for -/

def Awaits (ns name : String) (st : Station) : Prop :=
  .config ns name ∈ st.queue.dirty ∨
    ∃ e ∈ st.undelivered, e.ref = ⟨.config, ⟨some ns, name⟩⟩

theorem Awaits.wrote (h : Awaits ns name st) (hsane : Sane uid st)
    (hwrote : st.world.store.Wrote news w'.store)
    (hdirty : .config ns name ∈ st.queue.dirty → .config ns name ∈ queue.dirty) :
    Awaits ns name { st with world := w', queue } := by
  refine h.imp hdirty fun ⟨e, he, href⟩ ↦ ⟨e, ?_, href⟩
  rw [Station.undelivered_append hsane.cursor hwrote.log]
  exact List.mem_append_left _ he

theorem awaits_of_changed (hsane : Sane uid st) (hwrote : st.world.store.Wrote news w'.store)
    (hchanged : w'.store.objects.get? ⟨.config, ⟨some ns, name⟩⟩ ≠
      st.world.store.objects.get? ⟨.config, ⟨some ns, name⟩⟩) :
    Awaits ns name { st with world := w', queue } := by
  by_cases hnews : ∃ e ∈ news, e.ref = ⟨.config, ⟨some ns, name⟩⟩
  · obtain ⟨e, he, href⟩ := hnews
    refine .inr ⟨e, ?_, href⟩
    rw [Station.undelivered_append hsane.cursor hwrote.log]
    exact List.mem_append_right _ he
  · exact absurd (hwrote.frame _ fun e he href ↦ hnews ⟨e, he, href⟩) hchanged

theorem Awaits.deliver (h : Awaits ns name st) (hsane : Sane uid st) {e : Event}
    (hnext : st.world.store.log[st.cursor]? = some e) : Awaits ns name { st with
      queue := (e.keys st.world.claims).foldl WorkQueue.add st.queue
      cursor := st.cursor + 1 } := by
  simp only [Awaits, hsane.queue.mem_dirty_foldl_add_iff]
  rcases h with hmarked | ⟨e', he', href⟩
  · exact .inl (.inr hmarked)
  · rw [Station.undelivered_eq_cons hnext
      ((e.keys st.world.claims).foldl WorkQueue.add st.queue)] at he'
    rcases List.mem_cons.1 he' with rfl | he'
    · obtain ⟨hns, hname⟩ := ObjectKey.mk.inj (congrArg ObjectRef.key href)
      refine .inl (.inl ?_)
      rw [Event.keys_config (congrArg ObjectRef.kind href) hns]
      exact List.mem_singleton.2 (congrArg (ReconcileKey.config ns) hname.symm)
    · exact .inr ⟨e', he', href⟩

theorem Sane.dirty_done (h : Sane uid st) {ns' name' : String}
    (htake : st.queue.take? = some (.config ns' name', queue))
    (hne : ¬(ns = ns' ∧ name = name')) (hmem : .config ns name ∈ st.queue.dirty) :
    .config ns name ∈ (queue.done (.config ns' name')).dirty := by
  obtain ⟨-, -, hdirty⟩ := h.queue.done_foldl_add h.idle htake []
  exact (hdirty _).2 (.inr ⟨fun heq ↦ hne (by cases heq; exact ⟨rfl, rfl⟩), hmem⟩)

/-! ## Who is told what -/

theorem Saw.reached (h : Saw uid ns name seen st) : Reached uid st := by
  induction h with
  | look h hstep => exact .step h hstep
  | keep _ hstep _ _ ih => exact .step ih hstep

theorem Saw.hasConfig (h : Saw uid ns name seen st) : st.world.store.HasConfig ns name := by
  cases h with
  | look _ _ hhas => exact hhas
  | keep _ _ _ hhas => exact hhas

/-- Until the config is reconciled again its denial names whom it saw, unless it becomes active. -/
theorem Saw.active_or_denied (hinjective : ∀ n n', uid n = uid n' → n = n')
    (hne : ∀ n, uid n ≠ "") (h : Saw uid ns name seen st) :
    st.world.store.Active ns name ∨ st.world.store.Denied ns name seen := by
  induction h with
  | look h hstep hhas hactive =>
    cases hstep.outcome hinjective hne (h.sane hinjective hne).governed with
    | reconcile _ hgoverned _ hreviewed =>
      obtain ⟨leader, hleader, htold⟩ := hreviewed.told ((hreviewed.hasConfig_iff name).1 hhas)
      obtain rfl : seen = leader := hgoverned.active_unique hleader hactive
      exact htold.imp_left fun heq ↦ by rwa [heq]
  | keep h hstep hother hhas ih =>
    cases hstep.outcome hinjective hne (h.reached.sane hinjective hne).governed with
    | write _ _ hsame =>
      have heq := hsame ns name h.hasConfig hhas
      exact ih.imp (active_congr heq).2 (denied_congr heq).2
    | deliver => exact ih
    | @reconcile ns' name' _ _ _ _ _ _ hreviewed =>
      have hne' : ¬(ns = ns' ∧ name = name') := by
        rintro ⟨rfl, rfl⟩
        exact hother rfl
      rcases hreviewed.others hne' with heq | hactive
      · exact ih.imp (active_congr heq).2 (denied_congr heq).2
      · exact .inl hactive

/-- Along a run a config is active, or bears the denial that names whom it saw, or something calls for
it. -/
theorem Reached.attended (hinjective : ∀ n n', uid n = uid n' → n = n') (hne : ∀ n, uid n ≠ "")
    (h : Reached uid st) (hhas : st.world.store.HasConfig ns name) :
    st.world.store.Active ns name ∨
      (∃ seen, Saw uid ns name seen st ∧ st.world.store.Denied ns name seen) ∨
      Awaits ns name st := by
  induction h with
  | start w h =>
    obtain ⟨object, hget⟩ := hhas
    rw [h] at hget
    cases hget
  | @step st st' key? h hstep ih =>
    have hsane := h.sane hinjective hne
    have hkeep (hother : key? ≠ some (.config ns name))
        (hbefore : ∃ seen, Saw uid ns name seen st ∧ st.world.store.Denied ns name seen)
        (heq : st'.world.store.objects.get? ⟨.config, ⟨some ns, name⟩⟩ =
          st.world.store.objects.get? ⟨.config, ⟨some ns, name⟩⟩) :
        ∃ seen, Saw uid ns name seen st' ∧ st'.world.store.Denied ns name seen := by
      obtain ⟨seen, hsaw, hdenied⟩ := hbefore
      exact ⟨seen, .keep hsaw hstep hother hhas, (denied_congr heq).2 hdenied⟩
    cases hstep.outcome hinjective hne hsane.governed with
    | @write w' news _ hwrote =>
      -- a write to the config itself is told of in the log; any other leaves it as it was
      by_cases heq : w'.store.objects.get? ⟨.config, ⟨some ns, name⟩⟩ =
          st.world.store.objects.get? ⟨.config, ⟨some ns, name⟩⟩
      · rcases ih ((hasConfig_congr heq).1 hhas) with hactive | hdenied | hawaits
        · exact .inl ((active_congr heq).2 hactive)
        · exact .inr (.inl (hkeep nofun hdenied heq))
        · exact .inr (.inr (hawaits.wrote hsane hwrote id))
      · exact .inr (.inr (awaits_of_changed hsane hwrote heq))
    | deliver hnext =>
      rcases ih hhas with hactive | hdenied | hawaits
      · exact .inl hactive
      · exact .inr (.inl (hkeep nofun hdenied rfl))
      · exact .inr (.inr (hawaits.deliver hsane hnext))
    | @reconcile ns' name' queue w' news htake hgoverned hwrote hreviewed =>
      by_cases hself : ns = ns' ∧ name = name'
      · obtain ⟨rfl, rfl⟩ := hself
        obtain ⟨leader, hleader, htold⟩ := hreviewed.told ((hreviewed.hasConfig_iff name).1 hhas)
        rcases htold with rfl | hdenied
        · exact .inl hleader
        · exact .inr (.inl ⟨leader, .look h hstep hhas hleader, hdenied⟩)
      · -- the reconcile of another config may elect this one, and touches it in no other way
        rcases hreviewed.others hself with heq | hactive
        · rcases ih ((hasConfig_congr heq).1 hhas) with hactive | hdenied | hawaits
          · exact .inl ((active_congr heq).2 hactive)
          · refine .inr (.inl (hkeep (fun hkey ↦ hself ?_) hdenied heq))
            cases hkey
            exact ⟨rfl, rfl⟩
          · exact .inr (.inr (hawaits.wrote hsane hwrote (hsane.dirty_done htake hself)))
        · exact .inl hactive

/-- Along a run a namespace with configs has an active one, or something calls for one of its
configs. -/
theorem Reached.led (hinjective : ∀ n n', uid n = uid n' → n = n') (hne : ∀ n, uid n ≠ "")
    (h : Reached uid st) (hhas : ∃ name, st.world.store.HasConfig ns name) :
    (∃ leader, st.world.store.Active ns leader) ∨ ∃ name, Awaits ns name st := by
  induction h with
  | start w h =>
    obtain ⟨name, object, hget⟩ := hhas
    rw [h] at hget
    cases hget
  | @step st st' key? h hstep ih =>
    have hsane := h.sane hinjective hne
    cases hstep.outcome hinjective hne hsane.governed with
    | @write w' news _ hwrote =>
      by_cases heq : ∀ name, w'.store.objects.get? ⟨.config, ⟨some ns, name⟩⟩ =
          st.world.store.objects.get? ⟨.config, ⟨some ns, name⟩⟩
      · obtain ⟨name, hname⟩ := hhas
        rcases ih ⟨name, (hasConfig_congr (heq name)).1 hname⟩ with ⟨leader, hactive⟩ |
          ⟨other, hawaits⟩
        · exact .inl ⟨leader, (active_congr (heq leader)).2 hactive⟩
        · exact .inr ⟨other, hawaits.wrote hsane hwrote id⟩
      · obtain ⟨name, hchanged⟩ := Classical.not_forall.1 heq
        exact .inr ⟨name, awaits_of_changed hsane hwrote hchanged⟩
    | deliver hnext =>
      exact (ih hhas).imp_right fun ⟨name, hawaits⟩ ↦ ⟨name, hawaits.deliver hsane hnext⟩
    | @reconcile ns' name' queue w' news htake hgoverned hwrote hreviewed =>
      by_cases hself : ns = ns'
      · obtain ⟨name, hname⟩ := hhas
        subst hself
        exact .inl (hreviewed.led ⟨name, (hreviewed.hasConfig_iff name).1 hname⟩)
      · have hsame (name : String) :
            w'.store.objects.get? ⟨.config, ⟨some ns, name⟩⟩ =
                st.world.store.objects.get? ⟨.config, ⟨some ns, name⟩⟩ ∨
              w'.store.Active ns name := hreviewed.others fun heq ↦ hself heq.1
        -- if none became active, the namespace is as it was and still has the leader it had
        by_cases hactive : ∃ leader, w'.store.Active ns leader
        · exact .inl hactive
        · have heq (name : String) := (hsame name).resolve_right fun h ↦ hactive ⟨name, h⟩
          obtain ⟨name, hname⟩ := hhas
          rcases ih ⟨name, (hasConfig_congr (heq name)).1 hname⟩ with ⟨leader, hleader⟩ |
            ⟨other, hawaits⟩
          · exact .inl ⟨leader, (active_congr (heq leader)).2 hleader⟩
          · exact .inr ⟨other, hawaits.wrote hsane hwrote
              (hsane.dirty_done htake fun h ↦ hself h.1)⟩

theorem Sane.not_awaits (h : Sane uid st) (hrest : st.AtRest) : ¬Awaits ns name st := by
  have hdirty := h.queue.dirty_eq_nil (List.isEmpty_iff.1 hrest.2) h.idle
  rintro (hmarked | ⟨e, he, -⟩)
  · simp [hdirty] at hmarked
  · simp [hrest.1] at he

/-- At rest a namespace with configs has one active config, and every other one bears a denial that
names whom it saw when it was last reconciled.  So it names the active one just if that was active
then. -/
theorem denial_names_active_iff_saw (hinjective : ∀ n n', uid n = uid n' → n = n')
    (hne : ∀ n, uid n ≠ "") (h : Reached uid st) (hrest : st.AtRest)
    (hhas : ∃ name, st.world.store.HasConfig ns name) :
    ∃ active, st.world.store.Active ns active ∧
      ∀ name, st.world.store.HasConfig ns name → name ≠ active →
        ¬st.world.store.Active ns name ∧
        (∃ seen, Saw uid ns name seen st ∧ st.world.store.Denied ns name seen) ∧
        (st.world.store.Denied ns name active ↔ Saw uid ns name active st) := by
  have hsane := h.sane hinjective hne
  obtain ⟨active, hactive⟩ := (h.led hinjective hne hhas).resolve_right fun ⟨name, hawaits⟩ ↦
    hsane.not_awaits hrest hawaits
  refine ⟨active, hactive, fun name hname hother ↦ ?_⟩
  have hinactive : ¬st.world.store.Active ns name := fun hself ↦
    hother (hsane.governed.active_unique hactive hself)
  rcases h.attended hinjective hne hname with hself | ⟨seen, hsaw, hdenied⟩ | hawaits
  · exact absurd hself hinactive
  · refine ⟨hinactive, ⟨seen, hsaw, hdenied⟩, fun hnames ↦ ?_, fun hsaw ↦ ?_⟩
    · exact hdenied.unique hnames ▸ hsaw
    · exact (hsaw.active_or_denied hinjective hne).resolve_left hinactive
  · exact absurd hawaits (hsane.not_awaits hrest)

end Run

/-! ## A denial that names a config that is gone -/

section Bereft

def follow : (n : Nat) → Station → Station
  | 0, st => st
  | n + 1, st => follow n (st.handleNext quiet)

def serveNext (st : Station) : Station :=
  match st.queue.take? with
  | some (.config _ _, _) => (st.exec (Controller.reconcileNext (.reliable quiet) default)).2
  | _ => st

def serve : (n : Nat) → Station → Station
  | 0, st => st
  | n + 1, st => serve n (serveNext st)

variable {st : Station}

theorem Reached.follow (h : Reached numberedUid st) (n : Nat) :
    Reached numberedUid (Succession.follow n st) := by
  induction n generalizing st with
  | zero => exact h
  | succ n ih =>
    refine ih ?_
    unfold Station.handleNext
    split
    · next e he => exact h.step (.deliver quiet e he)
    · exact h

theorem Reached.serve (h : Reached numberedUid st) (n : Nat) :
    Reached numberedUid (Succession.serve n st) := by
  induction n generalizing st with
  | zero => exact h
  | succ n ih =>
    refine ih ?_
    unfold serveNext
    split
    · next ns name queue htake => exact h.step (.reconcile quiet default ns name queue rfl htake)
    · exact h

def withConfig (name : String) (st : Station) : Station :=
  { st with world := ((Task.create default (Config.new "shop" name)).exec quiet st.world).2 }

theorem Reached.withConfig (h : Reached numberedUid st) (name : String) :
    Reached numberedUid (Succession.withConfig name st) :=
  h.step (.create quiet default (Config.new "shop" name) rfl rfl (.inl rfl))

/-- Three configs, the first of which is active. -/
def crowded : Station :=
  serve 3 (follow 4 (serve 3 (follow 3
    (withConfig "c" (withConfig "b" (withConfig "a" ⟨{}, {}, 0⟩))))))

def bereft : Station :=
  { crowded with world := ((Task.delete .config ⟨some "shop", "a"⟩).exec quiet crowded.world).2 }

def succeeded : Station := serve 1 (follow 2 (serve 1 (follow 2 bereft)))

theorem reached_succeeded : Reached numberedUid succeeded := by
  have hcrowded : Reached numberedUid crowded := by
    refine .serve (.follow (.serve (.follow ?_ 3) 3) 4) 3
    exact .withConfig (.withConfig (.withConfig (.start {} rfl) "a") "b") "c"
  have hbereft : Reached numberedUid bereft := hcrowded.step (.delete quiet ⟨some "shop", "a"⟩)
  exact .serve (.follow (.serve (.follow hbereft 2) 1) 2) 1

set_option maxRecDepth 10000 in
theorem ends_succeeded : succeeded.AtRest ∧ succeeded.world.store.Active "shop" "b" ∧
    succeeded.world.store.HasConfig "shop" "c" ∧ ¬succeeded.world.store.Active "shop" "c" ∧
    succeeded.world.store.Denied "shop" "c" "a" := by
  have hsome : (crowded.world.store.objects.get? ⟨.config, ⟨some "shop", "a"⟩⟩).isSome := by
    decide +kernel
  have hplay : (sweepWithin 4 crowded.world.store [⟨.config, ⟨some "shop", "a"⟩⟩]).any fun after ↦
      let st := serve 1 (follow 2 (serve 1 (follow 2 { crowded with
        world := crowded.world.withStore after })))
      let configs := st.world.store.objectsOf Config default .all
      st.undelivered.length = 0 ∧ st.queue.isEmpty ∧
        (∃ b ∈ configs, b.metadata.key = ⟨some "shop", "b"⟩ ∧ b.isActive) ∧
        ∃ c ∈ configs, c.metadata.key = ⟨some "shop", "c"⟩ ∧ c.isActive = false ∧
          (Condition.find? readyCondition c.conditions).map Condition.content =
            some (Config.notReadyNow default "a").content := by decide +kernel
  obtain ⟨after, hswept, hends⟩ := (Option.any_eq_true _ _).1 hplay
  have hbereft : bereft = { crowded with world := crowded.world.withStore after } := by
    unfold bereft
    rw [Task.exec_delete_of_eq (delete_eq_of_sweepWithin hsome hswept)]
  have hsucceeded : serve 1 (follow 2 (serve 1 (follow 2 { crowded with
      world := crowded.world.withStore after }))) = succeeded := by rw [← hbereft, succeeded]
  rw [hsucceeded] at hends
  obtain ⟨hundelivered, hempty, ⟨b, hb, hbkey, hactive⟩, c, hc, hckey, hinactive, hcontent⟩ :=
    of_decide_eq_true hends
  obtain ⟨condition, hfind, hcontent⟩ := Option.map_eq_some_iff.1 hcontent
  simp only [Condition.content, Prod.mk.injEq] at hcontent
  have hcoherent :=
    (reached_succeeded.sane numberedUid_injective numberedUid_ne_empty).governed.coherent
  have hhas : succeeded.world.store.HasConfigAs "shop" "c" default c :=
    ⟨((mem_objectsOf_iff hcoherent).1 hc).1, hckey⟩
  refine ⟨⟨List.length_eq_zero_iff.1 hundelivered, hempty⟩,
    ⟨default, b, ⟨((mem_objectsOf_iff hcoherent).1 hb).1, hbkey⟩, hactive⟩, hhas.hasConfig, ?_,
    default, c, condition, hhas, hfind, hcontent.2⟩
  rw [hhas.active_iff, hinactive]
  exact Bool.false_ne_true

theorem denial_names_active_iff_saw_when_bereft : Reached numberedUid succeeded ∧
    succeeded.AtRest ∧ (∃ name, succeeded.world.store.HasConfig "shop" name) ∧
    ∃ active, succeeded.world.store.Active "shop" active ∧
      ∀ name, succeeded.world.store.HasConfig "shop" name → name ≠ active →
        ¬succeeded.world.store.Active "shop" name ∧
        (∃ seen, Saw numberedUid "shop" name seen succeeded ∧
          succeeded.world.store.Denied "shop" name seen) ∧
        (succeeded.world.store.Denied "shop" name active ↔
          Saw numberedUid "shop" name active succeeded) := by
  obtain ⟨hrest, -, hhas, -⟩ := ends_succeeded
  exact ⟨reached_succeeded, hrest, ⟨"c", hhas⟩, denial_names_active_iff_saw numberedUid_injective
    numberedUid_ne_empty reached_succeeded hrest ⟨"c", hhas⟩⟩

/-- The active config went and the second one took its place; the third one was not called for, and its
denial does not name the active one. -/
theorem denial_names_departed_config : Reached numberedUid succeeded ∧ succeeded.AtRest ∧
    succeeded.world.store.Active "shop" "b" ∧ succeeded.world.store.HasConfig "shop" "c" ∧
    ¬succeeded.world.store.Active "shop" "c" ∧ succeeded.world.store.Denied "shop" "c" "a" ∧
    ¬succeeded.world.store.Denied "shop" "c" "b" := by
  obtain ⟨hrest, hactive, hhas, hinactive, hdenied⟩ := ends_succeeded
  exact ⟨reached_succeeded, hrest, hactive, hhas, hinactive, hdenied, fun h ↦
    absurd (hdenied.unique h) (by decide)⟩

end Bereft

end Succession

end TenantAccess
