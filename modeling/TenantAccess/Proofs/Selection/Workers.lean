import TenantAccess.Proofs.Schedule.Queue
import TenantAccess.Proofs.Selection.Stage

/-!
# Workers on the configs of a namespace

Any number of workers carry out the work of different keys at once, call by call and in any order,
while the controller follows the log and hands out the keys that its events call for.  Between two
steps each reconcile is in one of its phases, and each step is on behalf of one config at most.
-/

namespace TenantAccess

open Store

/-- A world, the queue, what each worker still has to do, and how far the log was followed. -/
structure Workers where
  world : World
  queue : WorkQueue ReconcileKey := {}
  running : ReconcileKey → Option Work := fun _ ↦ none
  cursor : Nat

def put {κ α : Type} [DecidableEq κ] (f : κ → α) (k : κ) (a : α) : κ → α :=
  fun k' ↦ if k' = k then a else f k'

section Put

variable {κ α : Type} [DecidableEq κ] {f : κ → α} {k k' : κ} {a : α}

@[simp] theorem put_self : put f k a k = a := if_pos rfl

theorem put_of_ne (h : k' ≠ k) : put f k a k' = f k' := if_neg h

end Put

/-- The queue once the work of `key` has come to a verdict.  A key that failed is queued again. -/
def WorkQueue.settle (q : WorkQueue ReconcileKey) (key : ReconcileKey) (verdict : Verdict) :
    WorkQueue ReconcileKey :=
  let q := verdict.keys.foldl WorkQueue.add q
  match verdict with
  | .done _ => q.done key
  | _ => (q.add key).done key

theorem WorkQueue.Sound.settle {q : WorkQueue ReconcileKey} (h : q.Sound) {key : ReconcileKey}
    (hkey : key ∈ q.inFlight) {result : Except Error (List String)}
    (hresult : ∀ released, result = .ok released → released = []) :
    (q.settle key (.ofResult result)).Sound ∧
      (∀ a, a ∈ (q.settle key (.ofResult result)).dirty ↔
        (a = key ∧ ∃ e, result = .error e) ∨ a ∈ q.dirty) ∧
      ∀ a, a ∈ (q.settle key (.ofResult result)).inFlight ↔ a ≠ key ∧ a ∈ q.inFlight := by
  cases result with
  | ok released =>
    cases hresult released rfl
    have heq : q.settle key (.ofResult (.ok [])) = q.done key := rfl
    rw [heq]
    exact ⟨h.done hkey, fun a ↦ by simp, fun a ↦ mem_inFlight_done_iff⟩
  | error e =>
    have heq : q.settle key (.ofResult (.error e)) = (q.add key).done key := by
      cases hstale : Verdict.isStaleWrite e <;> simp [Verdict.ofResult, hstale] <;> rfl
    rw [heq]
    refine ⟨(h.add key).done (by rwa [inFlight_add]), fun a ↦ ?_, fun a ↦ ?_⟩
    · rw [dirty_done, h.mem_dirty_add_iff]
      simp
    · rw [mem_inFlight_done_iff, inFlight_add]

namespace Workers

variable {ns : String} {uid : Nat → String} {first : Nat} {st st' : Workers}

abbrev store (st : Workers) : Store := st.world.store

def undelivered (st : Workers) : List Event := st.store.log.toList.drop st.cursor

inductive Action where
  /-- The next key is handed out. -/
  | take
  /-- The worker of a key makes its next call. -/
  | call (key : ReconcileKey)
  /-- The worker of a key is done. -/
  | finish (key : ReconcileKey)
  /-- The next event is followed. -/
  | deliver

/-- What may happen next.  Each key is worked on at its own time, each call has its own surroundings,
and the identities that the store gives out are those of `uid`. -/
inductive Step (uid : Nat → String) (st : Workers) : Action → Workers → Prop
  | take (now : Timestamp) {key : ReconcileKey} {queue : WorkQueue ReconcileKey}
    (h : st.queue.take? = some (key, queue)) :
    Step uid st .take { st with queue, running := put st.running key (some (key.work now).run) }
  | call (env : Surroundings) (huid : env.ambient.uid = uid) {key : ReconcileKey} {r : Request}
    {next : r.Reply → Work} (h : st.running key = some (.ask r next)) :
    Step uid st (.call key) { st with
      world := (r.perform env st.world).2
      running := put st.running key (some (next (r.perform env st.world).1)) }
  | finish {key : ReconcileKey} {result : Except Error (List String)}
    (h : st.running key = some (.done result)) :
    Step uid st (.finish key) { st with
      queue := st.queue.settle key (.ofResult result)
      running := put st.running key none }
  | deliver {e : Event} (h : st.store.log[st.cursor]? = some e) :
    Step uid st .deliver { st with
      queue := (e.keys st.world.claims).foldl WorkQueue.add st.queue
      cursor := st.cursor + 1 }

def act (env : Surroundings) (now : Timestamp) (st : Workers) : Action → Option Workers
  | .take => st.queue.take?.map fun (key, queue) ↦
    { st with queue, running := put st.running key (some (key.work now).run) }
  | .call key =>
    match st.running key with
    | some (.ask r next) => some { st with
        world := (r.perform env st.world).2
        running := put st.running key (some (next (r.perform env st.world).1)) }
    | _ => none
  | .finish key =>
    match st.running key with
    | some (.done result) => some { st with
        queue := st.queue.settle key (.ofResult result)
        running := put st.running key none }
    | _ => none
  | .deliver => st.store.log[st.cursor]?.map fun e ↦ { st with
      queue := (e.keys st.world.claims).foldl WorkQueue.add st.queue
      cursor := st.cursor + 1 }

theorem Step.of_act {env : Surroundings} {now : Timestamp} {action : Action}
    (h : st.act env now action = some st') : Step env.ambient.uid st action st' := by
  cases action with
  | take =>
    obtain ⟨⟨key, queue⟩, htake, rfl⟩ := Option.map_eq_some_iff.1 h
    exact .take now htake
  | call key =>
    simp only [act] at h
    split at h
    · next r next hcalls =>
      cases h
      exact .call env rfl hcalls
    · cases h
  | finish key =>
    simp only [act] at h
    split at h
    · next result hdone =>
      cases h
      exact .finish hdone
    · cases h
  | deliver =>
    obtain ⟨e, he, rfl⟩ := Option.map_eq_some_iff.1 h
    exact .deliver he

/-- In the action the worker of `key` looks at the namespace. -/
def Looks (st : Workers) (action : Action) (key : ReconcileKey) : Prop :=
  action = .call key ∧ ∃ r next, st.running key = some (.ask r next) ∧ r.Looks

/-- No config is active, none has a quota, and every key is to be handed out. -/
structure Opening (ns : String) (uid : Nat → String) (st : Workers) : Prop where
  coherent : st.store.Coherent
  inactive : ∀ name, ¬st.store.Active ns name
  bare : ∀ name, st.store.objects.get? ⟨.resourceQuota, ⟨some ns, name⟩⟩ = none
  /-- Nothing is owned by an identity that is still to be given out. -/
  fresh : ∀ ref m n, st.store.HasMeta ref m → st.store.issued ≤ n → m.isOwnedBy (uid n) = false
  sound : st.queue.Sound
  pending : ∀ key, key ∈ st.queue.pending ↔
    ∃ name, key = .config ns name ∧ st.store.HasConfig ns name
  idle : st.queue.inFlight = []
  running : ∀ key, st.running key = none
  followed : st.cursor = st.store.log.size

inductive Reached (uid : Nat → String) (start : Workers) : Workers → Prop
  | start : Reached uid start start
  | step {st st' : Workers} {action : Action} (h : Reached uid start st)
    (hstep : Step uid st action st') : Reached uid start st'

def play (env : Surroundings) (now : Timestamp) (actions : List Action) (st : Workers) :
    Option Workers :=
  actions.foldlM (fun st action ↦ st.act env now action) st

theorem Reached.play {env : Surroundings} {now : Timestamp} {start : Workers}
    {actions : List Action} (h : Reached env.ambient.uid start st)
    (hplay : st.play env now actions = some st') : Reached env.ambient.uid start st' := by
  induction actions generalizing st with
  | nil =>
    cases hplay
    exact h
  | cons action rest ih =>
    obtain ⟨middle, hact, hrest⟩ := Option.bind_eq_some_iff.1 hplay
    exact ih (h.step (.of_act hact)) hrest

def AtRest (st : Workers) : Prop := st.queue.isIdle ∧ st.cursor = st.store.log.size

instance (st : Workers) : Decidable st.AtRest := inferInstanceAs (Decidable (_ ∧ _))

/-! ## Between two steps -/

def Releases : Work → Prop
  | .done result => ∀ released, result = .ok released → released = []
  | .ask _ next => ∀ reply, Releases (next reply)

theorem releases_bind {α : Type} (p : Program α) {f : α → Work} (h : ∀ a, Releases (f a)) :
    Releases (p >>= f) := by
  induction p with
  | done a => exact h a
  | ask r next ih => exact ih

theorem releases_idle (t : Task ConfigDecision) : Releases t.idle := by
  rw [Task.idle, ExceptT.run_bind]
  refine releases_bind t.run fun r ↦ ?_
  cases r with
  | ok decision =>
    intro released hok
    cases hok
    rfl
  | error e =>
    intro released hok
    cases hok

/-- What holds between two steps, with each reconcile in its phase. -/
structure Orderly (ns : String) (uid : Nat → String) (first : Nat) (phase : String → Phase)
    (st : Workers) : Prop where
  tended : Tended ns uid first st.store
  sound : st.queue.Sound
  dirty : ∀ key ∈ st.queue.dirty, ∃ name, key = .config ns name ∧ st.store.HasConfig ns name
  flight : ∀ key, (st.running key).isSome ↔ key ∈ st.queue.inFlight
  running : ∀ key p, st.running key = some p →
    ∃ name, key = .config ns name ∧ st.store.HasConfig ns name ∧
      Stage ns name st.store (phase name) p ∧ Releases p
  told : ∀ e ∈ st.undelivered, e.CallsFor st.store ns
  followed : st.cursor ≤ st.store.log.size

theorem Opening.dirty_iff (h : Opening ns uid st) (key : ReconcileKey) :
    key ∈ st.queue.dirty ↔ ∃ name, key = .config ns name ∧ st.store.HasConfig ns name := by
  rw [← h.pending, h.sound.mem_pending_iff, h.idle]
  simp

theorem Opening.orderly (h : Opening ns uid st) :
    Orderly ns uid st.store.issued (fun _ ↦ .before) st where
  tended := {
    coherent := h.coherent
    first_le := Nat.le_refl _
    quota := fun name object hget ↦ by
      rw [h.bare] at hget
      cases hget
    free := fun ref m hm _ n hn ↦ h.fresh ref m n hm hn }
  sound := h.sound
  dirty key hkey := (h.dirty_iff key).1 hkey
  flight key := by simp [h.running, h.idle]
  running key p hp := by
    rw [h.running] at hp
    cases hp
  told e he := by
    rw [undelivered, h.followed, List.drop_eq_nil_of_le (by simp)] at he
    cases he
  followed := Nat.le_of_eq h.followed

/-! ## What a step means for each config -/

def Dirty (ns : String) (st : Workers) (name : String) : Prop := .config ns name ∈ st.queue.dirty

/-- An event that was not followed yet calls for the config. -/
def Called (ns : String) (st : Workers) (name : String) : Prop :=
  ∃ e ∈ st.undelivered, ∀ claims, .config ns name ∈ e.keys claims

def Busy (ns : String) (st : Workers) (name : String) : Prop :=
  (st.running (.config ns name)).isSome

/-- Nothing was done on behalf of the config `name`. -/
structure Aside (ns : String) (phase phase' : String → Phase) (st st' : Workers) (name : String) :
    Prop where
  active_iff : st'.store.Active ns name ↔ st.store.Active ns name
  busy_iff : Busy ns st' name ↔ Busy ns st name
  phase_eq : phase' name = phase name
  dirty : Dirty ns st name → Dirty ns st' name
  called : Called ns st name → Called ns st' name ∨ Dirty ns st' name

/-- A step is on behalf of one config at most. -/
inductive Move (ns : String) (phase phase' : String → Phase) (st st' : Workers) : Action → Prop
  | take {name : String} (haside : ∀ other, other ≠ name → Aside ns phase phase' st st' other)
    (hactive : st'.store.Active ns name ↔ st.store.Active ns name) (hbusy : Busy ns st' name)
    (hphase : phase' name = .before) : Move ns phase phase' st st' .take
  | call {name : String} (haside : ∀ other, other ≠ name → Aside ns phase phase' st st' other)
    {r : Request} {next : r.Reply → Work} (hrunning : st.running (.config ns name) =
      some (.ask r next)) (hbusy : Busy ns st' name) {news : List Event}
    (hturn : Turn ns name r st.store news st'.store (phase name) (phase' name))
    (hdirty : Dirty ns st name → Dirty ns st' name)
    (hcalled : Called ns st name → Called ns st' name) (hnews : ∀ e ∈ news, e ∈ st'.undelivered) :
    Move ns phase phase' st st' (.call (.config ns name))
  | finish {name : String} (haside : ∀ other, other ≠ name → Aside ns phase phase' st st' other)
    (hactive : st'.store.Active ns name ↔ st.store.Active ns name)
    (hphase : phase' name = phase name)
    (hended : phase name = .after ∨ phase name = .before ∧ Dirty ns st' name)
    (hdirty : Dirty ns st name → Dirty ns st' name)
    (hcalled : Called ns st name → Called ns st' name) :
    Move ns phase phase' st st' (.finish (.config ns name))
  | deliver (haside : ∀ other, Aside ns phase phase' st st' other) :
    Move ns phase phase' st st' .deliver

section Put

variable {name : String} {p? : Option Work}

theorem config_ne {other : String} (h : other ≠ name) :
    ReconcileKey.config ns other ≠ .config ns name := fun heq ↦ h (ReconcileKey.config.inj heq).2

theorem busy_put_iff (h : st'.running = put st.running (.config ns name) p?) {other : String}
    (hne : other ≠ name) : Busy ns st' other ↔ Busy ns st other := by
  rw [Busy, Busy, h, put_of_ne (config_ne hne)]

theorem busy_put_self {p : Work} (h : st'.running = put st.running (.config ns name) (some p)) :
    Busy ns st' name := by
  rw [Busy, h, put_self]
  rfl

end Put

variable {phase phase' : String → Phase} {name : String}

namespace Orderly

/-- Every worker is in its phase again if the one that was replaced is. -/
theorem running_put (h : Orderly ns uid first phase st) {p? : Option Work}
    (hrunning : st'.running = put st.running (.config ns name) p?) {reached : Phase}
    (hhas : ∀ other, st'.store.HasConfig ns other ↔ st.store.HasConfig ns other)
    (hframe : ∀ other ph p, other ≠ name → Stage ns other st.store ph p →
      Stage ns other st'.store ph p)
    (hnew : ∀ p, p? = some p → st.store.HasConfig ns name ∧ Stage ns name st'.store reached p ∧
      Releases p) (key : ReconcileKey) (p : Work) (hp : st'.running key = some p) :
    ∃ other, key = .config ns other ∧ st'.store.HasConfig ns other ∧
      Stage ns other st'.store (put phase name reached other) p ∧ Releases p := by
  rw [hrunning] at hp
  by_cases hkey : key = .config ns name
  · subst hkey
    rw [put_self] at hp
    obtain ⟨hconfig, hstage, hreleases⟩ := hnew p hp
    refine ⟨name, rfl, (hhas name).2 hconfig, ?_, hreleases⟩
    rw [put_self]
    exact hstage
  · rw [put_of_ne hkey] at hp
    obtain ⟨other, rfl, hother, hstage, hreleases⟩ := h.running key p hp
    have hne : other ≠ name := fun heq ↦ hkey (congrArg (ReconcileKey.config ns) heq)
    refine ⟨other, rfl, (hhas other).2 hother, ?_, hreleases⟩
    rw [put_of_ne hne]
    exact hframe other _ p hne hstage

theorem flight_put (h : Orderly ns uid first phase st) {key : ReconcileKey} {p? : Option Work}
    (hrunning : st'.running = put st.running key p?)
    (hflight : ∀ k, k ∈ st'.queue.inFlight ↔
      (k = key ∧ p?.isSome) ∨ (k ≠ key ∧ k ∈ st.queue.inFlight)) (k : ReconcileKey) :
    (st'.running k).isSome ↔ k ∈ st'.queue.inFlight := by
  rw [hflight, hrunning]
  by_cases hk : k = key
  · subst hk
    simp
  · rw [put_of_ne hk, h.flight]
    simp [hk]

theorem take (h : Orderly ns uid first phase st) (now : Timestamp) {key : ReconcileKey}
    (htake : st.queue.take? = some (key, st'.queue)) (hworld : st'.world = st.world)
    (hcursor : st'.cursor = st.cursor)
    (hrunning : st'.running = put st.running key (some (key.work now).run)) :
    ∃ phase', Orderly ns uid first phase' st' ∧ Move ns phase phase' st st' .take ∧
      ∀ other, st'.store.HasConfig ns other ↔ st.store.HasConfig ns other := by
  obtain ⟨hsound, hmem, hfree, hdirty, hflight⟩ := h.sound.take htake
  obtain ⟨name, rfl, hhas⟩ := h.dirty key hmem
  have hstore : st'.store = st.store := congrArg World.store hworld
  have hundelivered : st'.undelivered = st.undelivered := by
    rw [undelivered, undelivered, hstore, hcursor]
  have haside (other : String) (hother : other ≠ name) :
      Aside ns phase (put phase name .before) st st' other := {
    active_iff := by rw [hstore]
    busy_iff := busy_put_iff hrunning hother
    phase_eq := put_of_ne hother
    dirty := fun hd ↦ (hdirty _).2 ⟨config_ne hother, hd⟩
    called := fun hc ↦ .inl (by rwa [Called, hundelivered]) }
  refine ⟨put phase name .before, ?orderly, .take haside (by rw [hstore])
    (busy_put_self hrunning) put_self, fun other ↦ by rw [hstore]⟩
  exact {
    tended := hstore ▸ h.tended
    sound := hsound
    dirty := fun key hkey ↦ by
      rw [hstore]
      exact h.dirty key ((hdirty key).1 hkey).2
    flight := h.flight_put hrunning fun k ↦ by
      rw [hflight]
      by_cases hk : k = .config ns name <;> simp [hk]
    running := h.running_put hrunning (fun other ↦ by rw [hstore])
      (fun other ph p _ hstage ↦ by rwa [hstore]) fun p hp ↦ by
        cases hp
        exact ⟨hhas, .start now rfl, releases_idle _⟩
    told := by
      rw [hundelivered, hstore]
      exact h.told
    followed := by
      rw [hstore, hcursor]
      exact h.followed }

theorem call (h : Orderly ns uid first phase st) {env : Surroundings}
    (huid : env.ambient.uid = uid) {key : ReconcileKey} {r : Request} {next : r.Reply → Work}
    (hcalls : st.running key = some (.ask r next))
    (hworld : st'.world = (r.perform env st.world).2) (hqueue : st'.queue = st.queue)
    (hcursor : st'.cursor = st.cursor)
    (hrunning : st'.running = put st.running key (some (next (r.perform env st.world).1))) :
    ∃ phase', Orderly ns uid first phase' st' ∧ Move ns phase phase' st st' (.call key) ∧
      ∀ other, st'.store.HasConfig ns other ↔ st.store.HasConfig ns other := by
  obtain ⟨name, rfl, hhas, hstage, hreleases⟩ := h.running key _ hcalls
  -- the request serves this config alone, so the reconciles of the others stay in their stages
  obtain ⟨reached, news, hstage', hserved, hturn⟩ := hstage.call h.tended hhas huid
  rw [← hworld] at hstage' hserved hturn
  have hturn' : Turn ns name r st.store news st'.store (phase name)
      (put phase name reached name) := by rwa [put_self]
  have hundelivered : st'.undelivered = st.undelivered ++ news := by
    rw [undelivered, undelivered, hserved.log, hcursor]
    exact List.drop_append_of_le_length (by simpa using h.followed)
  have hcalled {other : String} (hc : Called ns st other) : Called ns st' other := by
    obtain ⟨e, he, hkeys⟩ := hc
    exact ⟨e, hundelivered ▸ List.mem_append_left _ he, hkeys⟩
  have haside (other : String) (hother : other ≠ name) :
      Aside ns phase (put phase name reached) st st' other := {
    active_iff := active_congr (hserved.others other hother)
    busy_iff := busy_put_iff hrunning hother
    phase_eq := put_of_ne hother
    dirty := fun hd ↦ by rwa [Dirty, hqueue]
    called := fun hc ↦ .inl (hcalled hc) }
  refine ⟨put phase name reached, ?orderly, .call haside hcalls (busy_put_self hrunning) hturn'
    (fun hd ↦ by rwa [Dirty, hqueue]) hcalled fun e he ↦ ?_, hserved.hasConfig_iff⟩
  case orderly =>
    exact {
      tended := hserved.tended
      sound := hqueue ▸ h.sound
      dirty := fun key hkey ↦ by
        obtain ⟨other, heq, hother⟩ := h.dirty key (hqueue ▸ hkey)
        exact ⟨other, heq, (hserved.hasConfig_iff other).2 hother⟩
      flight := h.flight_put hrunning fun k ↦ by
        rw [hqueue]
        by_cases hk : k = .config ns name
        · subst hk
          simp [← h.flight, hcalls]
        · simp [hk]
      running := h.running_put hrunning hserved.hasConfig_iff
        (fun other ph p hne hstage ↦ hstage.frame hserved hne) fun p hp ↦ by
          cases hp
          exact ⟨hhas, hstage', hreleases _⟩
      told := fun e he ↦ by
        rw [hundelivered] at he
        rcases List.mem_append.1 he with he | he
        · exact (h.told e he).mono fun other ↦ (hserved.hasConfig_iff other).2
        · exact hserved.calls e he
      followed := by
        have hlength : st'.store.log.toList.length = (st.store.log.toList ++ news).length :=
          congrArg List.length hserved.log
        have hfollowed := h.followed
        simp only [Array.length_toList, List.length_append] at hlength
        rw [hcursor]
        omega }
  · rw [hundelivered]
    exact List.mem_append_right _ he

/-- A reconcile that ends is through with its decision, or its key is queued again. -/
theorem finish (h : Orderly ns uid first phase st) {key : ReconcileKey}
    {result : Except Error (List String)} (hdone : st.running key = some (.done result))
    (hworld : st'.world = st.world) (hqueue : st'.queue = st.queue.settle key (.ofResult result))
    (hcursor : st'.cursor = st.cursor) (hrunning : st'.running = put st.running key none) :
    ∃ phase', Orderly ns uid first phase' st' ∧ Move ns phase phase' st st' (.finish key) ∧
      ∀ other, st'.store.HasConfig ns other ↔ st.store.HasConfig ns other := by
  obtain ⟨name, rfl, hhas, hstage, hreleases⟩ := h.running key _ hdone
  have hflying : .config ns name ∈ st.queue.inFlight := (h.flight _).1 (by rw [hdone]; rfl)
  obtain ⟨hsound, hdirty, hflight⟩ := h.sound.settle hflying hreleases
  rw [← hqueue] at hsound hdirty hflight
  have hstore : st'.store = st.store := congrArg World.store hworld
  have hundelivered : st'.undelivered = st.undelivered := by
    rw [undelivered, undelivered, hstore, hcursor]
  have hcalled {other : String} (hc : Called ns st other) : Called ns st' other := by
    rwa [Called, hundelivered]
  have haside (other : String) (hother : other ≠ name) :
      Aside ns phase (put phase name (phase name)) st st' other := {
    active_iff := by rw [hstore]
    busy_iff := busy_put_iff hrunning hother
    phase_eq := put_of_ne hother
    dirty := fun hd ↦ (hdirty _).2 (.inr hd)
    called := fun hc ↦ .inl (hcalled hc) }
  have hended : phase name = .after ∨ phase name = .before ∧ Dirty ns st' name := by
    rcases hstage.of_done with hafter | ⟨hbefore, herror⟩
    · exact .inl hafter
    · exact .inr ⟨hbefore, (hdirty _).2 (.inl ⟨rfl, herror⟩)⟩
  refine ⟨put phase name (phase name), ?orderly, .finish haside (by rw [hstore]) put_self hended
    (fun hd ↦ (hdirty _).2 (.inr hd)) hcalled, fun other ↦ by rw [hstore]⟩
  exact {
    tended := hstore ▸ h.tended
    sound := hsound
    dirty := fun key hkey ↦ by
      rw [hstore]
      rcases (hdirty key).1 hkey with ⟨rfl, -⟩ | hkey
      · exact ⟨name, rfl, hhas⟩
      · exact h.dirty key hkey
    flight := h.flight_put hrunning fun k ↦ by
      rw [hflight]
      by_cases hk : k = .config ns name <;> simp [hk]
    running := h.running_put hrunning (fun other ↦ by rw [hstore])
      (fun other ph p _ hstage ↦ by rwa [hstore]) nofun
    told := by
      rw [hundelivered, hstore]
      exact h.told
    followed := by
      rw [hstore, hcursor]
      exact h.followed }

theorem deliver (h : Orderly ns uid first phase st) {e : Event}
    (he : st.store.log[st.cursor]? = some e) (hworld : st'.world = st.world)
    (hqueue : st'.queue = (e.keys st.world.claims).foldl WorkQueue.add st.queue)
    (hcursor : st'.cursor = st.cursor + 1) (hrunning : st'.running = st.running) :
    Orderly ns uid first phase st' ∧ Move ns phase phase st st' .deliver ∧
      ∀ other, st'.store.HasConfig ns other ↔ st.store.HasConfig ns other := by
  have hstore : st'.store = st.store := congrArg World.store hworld
  have hdirty (key : ReconcileKey) :
      key ∈ st'.queue.dirty ↔ key ∈ e.keys st.world.claims ∨ key ∈ st.queue.dirty := by
    rw [hqueue, h.sound.mem_dirty_foldl_add_iff]
  obtain ⟨hlt, heq⟩ := Array.getElem?_eq_some_iff.1 he
  have hundelivered : st.undelivered = e :: st'.undelivered := by
    rw [undelivered, undelivered, hstore, hcursor, ← heq, ← Array.getElem_toList]
    exact List.drop_eq_getElem_cons _
  have htold := h.told
  rw [hundelivered] at htold
  have haside (other : String) : Aside ns phase phase st st' other := {
    active_iff := by rw [hstore]
    busy_iff := by rw [Busy, Busy, hrunning]
    phase_eq := rfl
    dirty := fun hd ↦ (hdirty _).2 (.inr hd)
    called := fun ⟨e', he', hkeys⟩ ↦ by
      rw [hundelivered] at he'
      rcases List.mem_cons.1 he' with rfl | he'
      · exact .inr ((hdirty _).2 (.inl (hkeys _)))
      · exact .inl ⟨e', he', hkeys⟩ }
  refine ⟨?orderly, .deliver haside, fun other ↦ by rw [hstore]⟩
  exact {
    tended := hstore ▸ h.tended
    sound := hqueue ▸ h.sound.foldl_add _
    dirty := fun key hkey ↦ by
      rw [hstore]
      rcases (hdirty key).1 hkey with hkey | hkey
      · exact htold e List.mem_cons_self _ key hkey
      · exact h.dirty key hkey
    flight := fun key ↦ by
      rw [hrunning, hqueue, WorkQueue.inFlight_foldl_add]
      exact h.flight key
    running := fun key p hp ↦ by
      rw [hstore]
      rw [hrunning] at hp
      exact h.running key p hp
    told := fun e' he' ↦ by
      rw [hstore]
      exact htold e' (List.mem_cons_of_mem _ he')
    followed := by
      rw [hstore, hcursor]
      exact hlt }

theorem step (h : Orderly ns uid first phase st) {action : Action}
    (hstep : Step uid st action st') :
    ∃ phase', Orderly ns uid first phase' st' ∧ Move ns phase phase' st st' action ∧
      ∀ other, st'.store.HasConfig ns other ↔ st.store.HasConfig ns other := by
  cases hstep with
  | take now htake => exact h.take now htake rfl rfl rfl
  | call env huid hcalls => exact h.call huid hcalls rfl rfl rfl rfl
  | finish hdone => exact h.finish hdone rfl rfl rfl rfl
  | deliver he => exact ⟨phase, h.deliver he rfl rfl rfl rfl⟩

end Orderly

/-! ## A namespace to begin with -/

/-- The configs in `names` were created one after the other, and each is to be reconciled. -/
def opened (env : Ambient) (ns : String) (names : List String) : Workers :=
  let store := names.foldl
    (fun s name ↦ (Store.create env .config (Resource.encode (Config.new ns name)) s).2) .empty
  { world := { store }
    queue := (names.map (.config ns)).foldl WorkQueue.add {}
    cursor := store.log.size }

/-- What holds of a store in which nothing but new configs was created. -/
structure New (ns : String) (names : List String) (s : Store) : Prop where
  coherent : s.Coherent
  hasConfig_iff : ∀ name, s.HasConfig ns name ↔ name ∈ names
  inactive : ∀ name, ¬s.Active ns name
  bare : ∀ name, s.objects.get? ⟨.resourceQuota, ⟨some ns, name⟩⟩ = none
  unowned : ∀ ref m, s.HasMeta ref m → m.ownerReferences = []

theorem new_empty (ns : String) : New ns [] .empty where
  coherent := coherent_empty
  hasConfig_iff name := by
    refine ⟨fun ⟨object, hget⟩ ↦ ?_, fun h ↦ ?_⟩
    · cases hget
    · cases h
  inactive name := by
    rintro ⟨now, c, hc, -⟩
    obtain ⟨object, hget, -⟩ := hc.get?
    cases hget
  bare name := rfl
  unowned ref m := by
    rintro ⟨object, hget, -⟩
    cases hget

theorem New.create {names : List String} {s : Store} (h : New ns names s) (env : Ambient)
    (hns : ns ≠ "") (hname : name ≠ "") : New ns (names ++ [name])
      (Store.create env .config (Resource.encode (Config.new ns name)) s).2 := by
  have hscope : scopeDefect .config (Config.new ns name).metadata = none :=
    scopeDefect_namespaced hname rfl hns rfl
  have hhas (n : String) : n ∈ names ++ [name] ↔ n ∈ names ∨ n = name := by simp
  cases hget : s.objects.get? ⟨.config, ⟨some ns, name⟩⟩ with
  | some object =>
    have hmem : name ∈ names := (h.hasConfig_iff name).1 ⟨object, hget⟩
    rcases create_cases env .config (Resource.encode (Config.new ns name)) s with
      ⟨e, he⟩ | ⟨m, hm, hnone, -⟩
    · rw [he]
      refine ⟨h.coherent, fun n ↦ ?_, h.inactive, h.bare, h.unowned⟩
      rw [h.hasConfig_iff, hhas]
      exact ⟨.inl, fun hn ↦ hn.elim id fun heq ↦ heq ▸ hmem⟩
    · have hadmitted : admitted .config (Resource.encode (Config.new ns name)) =
          .ok (Config.new ns name).metadata := admitted_encode (a := Config.new ns name) hscope
      rw [hadmitted] at hm
      cases hm
      cases hget.symm.trans hnone
  | none =>
    have hrecorded : (Store.create env .config (Resource.encode (Config.new ns name)) s).2 =
        s.recorded .added (asNew env s (Config.new ns name)) (s.issued + 1) := by
      have hcreate : Store.create env .config (Resource.encode (Config.new ns name)) s = _ :=
        create_encode (a := Config.new ns name) hscope hget
      rw [hcreate, recorded, metadata_asNew]
      rfl
    have href : Resource.ref (asNew env s (Config.new ns name)) = ⟨.config, ⟨some ns, name⟩⟩ := rfl
    rw [hrecorded]
    refine ⟨h.coherent.create hscope _, fun n ↦ ?_, fun n hactive ↦ ?_, fun n ↦ ?_,
      fun ref m hm ↦ ?_⟩
    · rw [hhas, ← h.hasConfig_iff, HasConfig, get?_recorded, href]
      split
      · next heq =>
        cases heq
        simp
      · next hne =>
        have hn : n ≠ name := fun heq ↦ hne (heq ▸ rfl)
        simp [HasConfig, hn]
    · by_cases hn : n = name
      · subst hn
        have hnew : (s.recorded .added (asNew env s (Config.new ns n)) (s.issued + 1)).HasConfigAs
            ns n default (asNew env s (Config.new ns n)) :=
          ⟨⟨_, by rw [get?_recorded, if_pos rfl], Resource.decode_encode _⟩, rfl⟩
        cases hnew.active_iff.1 hactive
      · refine h.inactive n ((active_congr ?_).1 hactive)
        rw [get?_recorded, href, if_neg fun heq ↦ hn (by cases heq; rfl)]
    · rw [get?_recorded, href, if_neg fun heq ↦ by cases heq]
      exact h.bare n
    · rcases hasMeta_recorded_iff.1 hm with ⟨-, rfl⟩ | ⟨-, hbefore⟩
      · rfl
      · exact h.unowned ref m hbefore

theorem new_opened (env : Ambient) {names : List String} (hns : ns ≠ "")
    (hnames : ∀ name ∈ names, name ≠ "") : New ns names (opened env ns names).store := by
  have hfold (done rest : List String) (s : Store) (hs : New ns done s)
      (hrest : ∀ name ∈ rest, name ≠ "") : New ns (done ++ rest) (rest.foldl (fun s name ↦
        (Store.create env .config (Resource.encode (Config.new ns name)) s).2) s) := by
    induction rest generalizing done s with
    | nil => rwa [List.append_nil]
    | cons name rest ih =>
      have hnext := ih (done ++ [name]) _
        (hs.create env hns (hrest name List.mem_cons_self))
        fun n hn ↦ hrest n (List.mem_cons_of_mem _ hn)
      rwa [List.append_assoc] at hnext
  exact hfold [] names .empty (new_empty ns) hnames

theorem opening_opened (env : Ambient) {names : List String} (hns : ns ≠ "")
    (hnames : ∀ name ∈ names, name ≠ "") : Opening ns env.uid (opened env ns names) := by
  have hnew := new_opened env hns hnames
  have hflight : (opened env ns names).queue.inFlight = [] := WorkQueue.inFlight_foldl_add _ _
  have hsound : (opened env ns names).queue.Sound := WorkQueue.sound_empty.foldl_add _
  refine ⟨hnew.coherent, hnew.inactive, hnew.bare, fun ref m n hm _ ↦ ?_, hsound, fun key ↦ ?_,
    hflight, fun _ ↦ rfl, rfl⟩
  · rw [ObjectMeta.isOwnedBy, hnew.unowned ref m hm]
    simp
  · rw [hsound.mem_pending_iff, hflight, opened, WorkQueue.sound_empty.mem_dirty_foldl_add_iff]
    simp only [List.mem_map, List.not_mem_nil, not_false_eq_true, and_true, or_false]
    constructor
    · rintro ⟨name, hmem, heq⟩
      exact ⟨name, heq.symm, (hnew.hasConfig_iff name).2 hmem⟩
    · rintro ⟨name, heq, hhas⟩
      exact ⟨name, (hnew.hasConfig_iff name).1 hhas, heq.symm⟩

end Workers

end TenantAccess
