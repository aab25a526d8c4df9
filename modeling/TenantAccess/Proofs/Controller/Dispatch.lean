import TenantAccess.Controller.Dispatcher
import TenantAccess.Proofs.Schedule.Queue
import TenantAccess.Proofs.Schedule.Slots

/-!
# No key is lost and none overlaps

The events of the store, the workers, the slots and the delays take their steps in any order.  A
key for which a reconcile is still owed is marked in the queue, waits for a slot or is down on the
agenda, until a worker starts on it; and a key has one worker at most.
-/

namespace TenantAccess

namespace Agenda

variable {α : Type} {g : Agenda α} {time : Nat} {a : α} {x : Nat × α}

theorem mem_insert_iff {l : List (Nat × α)} : x ∈ insert time a l ↔ x = (time, a) ∨ x ∈ l := by
  induction l with
  | nil => simp [insert]
  | cons e rest ih =>
    obtain ⟨t, b⟩ := e
    unfold insert
    split
    · exact List.mem_cons
    · rw [List.mem_cons, ih, List.mem_cons, or_left_comm]

theorem mem_plan_iff {delay : Nat} :
    x ∈ (g.plan delay a).entries ↔ x = (g.now + delay, a) ∨ x ∈ g.entries := mem_insert_iff

end Agenda

namespace Dispatcher

variable {config : ControllerConfig} {d d' : Dispatcher} {k key : ReconcileKey}

inductive Happening where
  | queued (key : ReconcileKey)
  | handed (key : ReconcileKey)
  | started (key : ReconcileKey)
  | refused (key : ReconcileKey)
  | ended (key : ReconcileKey) (verdict : Verdict)
  /-- A delay has passed. -/
  | retried (key : ReconcileKey)

/-- What has become of a key that asked for a slot; nothing, if it waits. -/
def fate (d : Dispatcher) (key : ReconcileKey) : List Happening :=
  if key ∈ d.running then [.started key] else if d.asking = some key then [] else [.refused key]

def comes (d : Dispatcher) : Due → List Happening
  | .retry key => [.retried key]
  | .giveUp => d.asking.toList.map .refused

def withEntries (d : Dispatcher) (entries : List (Nat × Due)) : Dispatcher :=
  { d with agenda := { d.agenda with entries } }

/-- What anybody may do between two moments of waiting.  Entries of the agenda come due in any
order; one that waits has missed its slot only if none was set aside for it. -/
inductive Step : Dispatcher → List Happening → Dispatcher → Prop
  | queue (d : Dispatcher) (keys : List ReconcileKey) :
      Step d (keys.map .queued) (keys.foldl queueKey d)
  | handOut {d d' : Dispatcher} {key : ReconcileKey} {queue : WorkQueue ReconcileKey}
      (htake : d.queue.take? = some (key, queue)) (hhand : d.handOut? = some d') :
      Step d (.handed key :: d'.fate key) d'
  | takeSlot {d d' : Dispatcher} {key : ReconcileKey} (hasking : d.asking = some key)
      (hslot : d.takeSlot? = some d') : Step d (d'.fate key) d'
  | due {d : Dispatcher} {before after : List (Nat × Due)} {time : Nat} {entry : Due}
      (hentries : d.agenda.entries = before ++ (time, entry) :: after)
      (hmissed : entry = .giveUp → d.pool.resume? () = none) :
      Step d (d.comes entry) ((d.withEntries (before ++ after)).onDue entry)
  | finish {d : Dispatcher} {key : ReconcileKey} (hrunning : key ∈ d.running) (verdict : Verdict) :
      Step d (verdict.keys.map .queued ++ [.ended key verdict]) (d.finish key verdict)
  | wait (d : Dispatcher) (time : Nat) : Step d [] { d with agenda := d.agenda.moveTo time }

inductive Run : Dispatcher → List Happening → Dispatcher → Prop
  | nil (d : Dispatcher) : Run d [] d
  | snoc {d d₁ d' : Dispatcher} {news more : List Happening} (hrun : Run d news d₁)
      (hstep : Step d₁ more d') : Run d (news ++ more) d'

def Wanted (d : Dispatcher) (key : ReconcileKey) : Prop :=
  key ∈ d.queue.dirty ∨ ∃ time, (time, .retry key) ∈ d.agenda.entries

/-- A reconcile of the key is still to come. -/
def Covered (d : Dispatcher) (key : ReconcileKey) : Prop :=
  key ∈ d.queue.pending ∨ d.asking = some key ∨
    (key ∈ d.queue.dirty ∧ key ∈ d.queue.inFlight) ∨
      ∃ time, (time, .retry key) ∈ d.agenda.entries

theorem covered_iff (h : d.queue.Sound) : d.Covered k ↔ d.Wanted k ∨ d.asking = some k := by
  have hpending := h.mem_pending_iff k
  unfold Covered Wanted
  by_cases hflight : k ∈ d.queue.inFlight <;> grind

section Parts

variable (d : Dispatcher) (key : ReconcileKey) (delay : Duration) (keys : List ReconcileKey)

theorem queueAfter_same : (d.queueAfter key delay).pool = d.pool ∧
    (d.queueAfter key delay).asking = d.asking ∧ (d.queueAfter key delay).running = d.running := by
  unfold queueAfter
  split <;> exact ⟨rfl, rfl, rfl⟩

@[simp] theorem pool_backOff : (d.backOff key).pool = d.pool :=
  (queueAfter_same { d with backoff := _ } key _).1

@[simp] theorem asking_backOff : (d.backOff key).asking = d.asking :=
  (queueAfter_same { d with backoff := _ } key _).2.1

@[simp] theorem running_backOff : (d.backOff key).running = d.running :=
  (queueAfter_same { d with backoff := _ } key _).2.2

theorem foldl_queueKey_same : (keys.foldl queueKey d).pool = d.pool ∧
    (keys.foldl queueKey d).asking = d.asking ∧ (keys.foldl queueKey d).running = d.running := by
  induction keys generalizing d with
  | nil => exact ⟨rfl, rfl, rfl⟩
  | cons key rest ih => exact ih (d.queueKey key)

end Parts

section Hand

variable {hand : List ReconcileKey}

theorem heldBy_foldl_queueKey (h : d.queue.HeldBy hand) (keys : List ReconcileKey) :
    (keys.foldl queueKey d).queue.HeldBy hand := by
  induction keys generalizing d with
  | nil => exact h
  | cons key rest ih => exact ih (h.add key)

theorem heldBy_backOff (h : d.queue.HeldBy hand) (key : ReconcileKey) :
    (d.backOff key).queue.HeldBy hand := by
  unfold backOff queueAfter
  dsimp only
  split
  · exact h.add key
  · exact h

end Hand

section Wanted

theorem wanted_queueKey (h : d.queue.Sound) : (d.queueKey key).Wanted k ↔ k = key ∨ d.Wanted k := by
  unfold Wanted queueKey
  rw [h.mem_dirty_add_iff, or_assoc]

theorem wanted_foldl_queueKey {keys : List ReconcileKey} (h : d.queue.Sound) :
    (keys.foldl queueKey d).Wanted k ↔ k ∈ keys ∨ d.Wanted k := by
  induction keys generalizing d with
  | nil => simp
  | cons key rest ih =>
    rw [List.foldl_cons, ih (h.add key), wanted_queueKey h, List.mem_cons, or_left_comm, or_assoc]

theorem wanted_queueAfter {delay : Duration} (h : d.queue.Sound) :
    (d.queueAfter key delay).Wanted k ↔ k = key ∨ d.Wanted k := by
  unfold queueAfter
  split
  · exact wanted_queueKey h
  · unfold Wanted
    simp only [Agenda.mem_plan_iff, Prod.mk.injEq, Due.retry.injEq]
    constructor
    · rintro (hdirty | ⟨time, ⟨-, rfl⟩ | hmem⟩)
      · exact .inr (.inl hdirty)
      · exact .inl rfl
      · exact .inr (.inr ⟨time, hmem⟩)
    · rintro (rfl | hdirty | ⟨time, hmem⟩)
      · exact .inr ⟨_, .inl ⟨rfl, rfl⟩⟩
      · exact .inl hdirty
      · exact .inr ⟨time, .inr hmem⟩

theorem wanted_backOff (h : d.queue.Sound) : (d.backOff key).Wanted k ↔ k = key ∨ d.Wanted k :=
  wanted_queueAfter h

theorem wanted_release : (d.release key).Wanted k ↔ d.Wanted k := by
  unfold Wanted release
  rw [WorkQueue.dirty_done]

theorem wanted_start : (d.start key).Wanted k ↔ d.Wanted k := by
  simp [Wanted, start, Agenda.erase]

theorem wanted_refuse (h : (d.queue.done key).Sound) :
    (d.refuse key).Wanted k ↔ k = key ∨ d.Wanted k := by
  unfold refuse
  rw [wanted_backOff h, wanted_release]
  rfl

end Wanted

/-- Every key in flight has a worker or waits for a slot, and every slot is accounted for. -/
structure Steady (slots : Nat) (d : Dispatcher) : Prop where
  heldBy : d.queue.HeldBy (d.asking.toList ++ d.running)
  opened : d.pool.Open
  spare : d.pool.spare + d.running.length = slots

/-- A key is in hand, and neither a worker nor a place in the line is its own yet. -/
structure Handed (slots : Nat) (key : ReconcileKey) (d : Dispatcher) : Prop where
  heldBy : d.queue.HeldBy (key :: d.running)
  opened : d.pool.Open
  spare : d.pool.spare + d.running.length = slots

theorem steady_new (config : ControllerConfig) :
    (new config).Steady config.maxConcurrentReconciles where
  heldBy := ⟨WorkQueue.sound_empty, .nil, fun _ ↦ Iff.rfl⟩
  opened := WorkerPool.open_ofSize _
  spare := rfl

namespace Handed

variable {slots : Nat}

theorem start (h : d.Handed slots key) : (d.start key).Steady (slots + 1) where
  heldBy := h.heldBy.perm (List.perm_append_singleton key d.running).symm
  opened := h.opened
  spare := by
    have hspare := h.spare
    simp only [Dispatcher.start, List.length_append, List.length_singleton]
    omega

theorem sound_done (h : d.Handed slots key) : (d.queue.done key).Sound :=
  (h.heldBy.done List.mem_cons_self).sound

theorem refuse (h : d.Handed slots key) : (d.refuse key).Steady slots where
  heldBy := by
    have hdone := h.heldBy.done List.mem_cons_self
    rw [List.erase_cons_head] at hdone
    have hback := heldBy_backOff (d := { d with asking := none }.release key) hdone key
    simpa [Dispatcher.refuse, release] using hback
  opened := by simpa [Dispatcher.refuse, release] using h.opened
  spare := by simpa [Dispatcher.refuse, release] using h.spare

theorem covered_start (h : d.Handed slots key) : (d.start key).Covered k ↔ d.Wanted k := by
  rw [covered_iff h.start.heldBy.sound, wanted_start]
  simp [Dispatcher.start]

theorem covered_refuse (h : d.Handed slots key) :
    (d.refuse key).Covered k ↔ k = key ∨ d.Wanted k := by
  have hasking : (d.refuse key).asking = none := by simp [Dispatcher.refuse, release]
  rw [covered_iff h.refuse.heldBy.sound, wanted_refuse h.sound_done, hasking]
  simp

theorem fate_start (d : Dispatcher) (key : ReconcileKey) :
    (d.start key).fate key = [.started key] := by simp [fate, Dispatcher.start]

theorem fate_refuse (h : d.Handed slots key) : (d.refuse key).fate key = [.refused key] := by
  have hrunning : key ∉ d.running := (List.nodup_cons.1 h.heldBy.nodup).1
  simp [fate, Dispatcher.refuse, release, hrunning]

end Handed

def Calls (key : ReconcileKey) : Happening → Prop
  | .queued k | .refused k | .ended k .again | .ended k (.failed _) => k = key
  | _ => False

/-- What a step does about the keys for which a reconcile is to come. -/
structure Fair (d : Dispatcher) (news : List Happening) (d' : Dispatcher) : Prop where
  kept : ∀ k, d.Covered k → .started k ∈ news ∨ d'.Covered k
  called : ∀ k, ∀ x ∈ news, Calls k x → d'.Covered k
  quiet : ∀ k, ¬d.Covered k → k ∉ d.running → .queued k ∉ news →
    .handed k ∉ news ∧ ¬d'.Covered k ∧ k ∉ d'.running
  ended : ∀ k verdict, .ended k verdict ∈ news → k ∉ d'.running

/-- From `d` the key `key`, whose reconcile was to come, was taken in hand. -/
structure Took (d : Dispatcher) (key : ReconcileKey) (t : Dispatcher) : Prop where
  covered : d.Covered key
  keeps : ∀ k, k ≠ key → d.Covered k → t.Wanted k
  of_wanted : ∀ k, t.Wanted k → d.Covered k
  running : t.running = d.running

namespace Took

variable {slots : Nat} {t : Dispatcher} {news : List Happening}

theorem fair (h : d.Took key t)
    (hnews : ∀ x ∈ news, x = .handed key ∨ x = .started key ∨ x = .refused key)
    (hkey : .started key ∈ news ∨ d'.Covered key)
    (hrefused : .refused key ∈ news → d'.Covered key)
    (hkeeps : ∀ k, t.Wanted k → d'.Covered k)
    (hcovered : ∀ k, d'.Covered k → k = key ∨ t.Wanted k)
    (hrunning : ∀ k, k ∈ d'.running → k = key ∨ k ∈ t.running) : d.Fair news d' := by
  refine ⟨fun k hk ↦ ?_, fun k x hx hcalls ↦ ?_, fun k hk hidle _ ↦ ?_, fun k verdict hx ↦ ?_⟩
  · by_cases heq : k = key
    · exact heq ▸ hkey
    · exact .inr (hkeeps k (h.keeps k heq hk))
  · rcases hnews x hx with rfl | rfl | rfl
    · cases hcalls
    · cases hcalls
    · cases hcalls
      exact hrefused hx
  · have hne : k ≠ key := fun heq ↦ hk (heq ▸ h.covered)
    refine ⟨fun hx ↦ ?_, fun hk' ↦ ?_, fun hk' ↦ ?_⟩
    · rcases hnews _ hx with heq | heq | heq
      · exact hne (Happening.handed.inj heq)
      · cases heq
      · cases heq
    · exact (hcovered k hk').elim hne fun hwanted ↦ hk (h.of_wanted k hwanted)
    · exact (hrunning k hk').elim hne fun hmem ↦ hidle (h.running ▸ hmem)
  · rcases hnews _ hx with heq | heq | heq <;> cases heq

theorem fair_start (h : d.Took key t) (ht : t.Handed slots key)
    (hnews : ∀ x ∈ news, x = .handed key ∨ x = .started key) (hstarted : .started key ∈ news) :
    d.Fair news (t.start key) := by
  refine h.fair (fun x hx ↦ (hnews x hx).imp_right .inl) (.inl hstarted) (fun hx ↦ ?_)
    (fun k ↦ ht.covered_start.2) (fun k hk ↦ .inr (ht.covered_start.1 hk)) (fun k hk ↦ ?_)
  · rcases hnews _ hx with heq | heq <;> cases heq
  · rw [start, List.mem_append, List.mem_singleton] at hk
    exact hk.symm

theorem fair_refuse (h : d.Took key t) (ht : t.Handed slots key)
    (hnews : ∀ x ∈ news, x = .handed key ∨ x = .refused key) :
    d.Fair news (t.refuse key) := by
  have hkey : (t.refuse key).Covered key := ht.covered_refuse.2 (.inl rfl)
  refine h.fair (fun x hx ↦ (hnews x hx).imp_right .inr) (.inr hkey) (fun _ ↦ hkey)
    (fun k hk ↦ ht.covered_refuse.2 (.inr hk)) (fun k ↦ ht.covered_refuse.1) (fun k hk ↦ .inr ?_)
  simpa [refuse, release] using hk

theorem fair_ask (h : d.Took key t) (ht : t.Handed slots key) (delay : Nat) :
    Steady slots { t with asking := some key, agenda := t.agenda.plan delay .giveUp } ∧
      d.Fair [.handed key]
        { t with asking := some key, agenda := t.agenda.plan delay .giveUp } := by
  have hasked :
      Steady slots { t with asking := some key, agenda := t.agenda.plan delay .giveUp } :=
    ⟨ht.heldBy, ht.opened, ht.spare⟩
  have hcovered : ∀ k,
      Covered { t with asking := some key, agenda := t.agenda.plan delay .giveUp } k ↔
        k = key ∨ t.Wanted k := by
    intro k
    rw [covered_iff hasked.heldBy.sound]
    simp [Wanted, Agenda.mem_plan_iff, or_comm, eq_comm]
  refine ⟨hasked, h.fair (by simp) (.inr ((hcovered key).2 (.inl rfl))) (by simp)
    (fun k hk ↦ (hcovered k).2 (.inr hk)) (fun k ↦ (hcovered k).1) (fun k ↦ .inr)⟩

end Took

namespace Steady

variable {slots : Nat} {queue : WorkQueue ReconcileKey} {news : List Happening}

theorem took_of_take (h : d.Steady slots) (hasking : d.asking = none)
    (htake : d.queue.take? = some (key, queue)) (pool : WorkerPool Unit) :
    d.Took key { d with queue, pool } := by
  obtain ⟨hsound, hdirty, -, hmarks, -⟩ := h.heldBy.sound.take htake
  have hcovered : ∀ k, d.Covered k ↔ d.Wanted k := by
    intro k
    rw [covered_iff h.heldBy.sound, hasking]
    simp
  refine ⟨(hcovered key).2 (.inl hdirty), fun k hne hk ↦ ?_, fun k hk ↦ ?_, rfl⟩
  · rcases (hcovered k).1 hk with hmark | hlater
    · exact .inl ((hmarks k).2 ⟨hne, hmark⟩)
    · exact .inr hlater
  · rcases hk with hmark | hlater
    · exact (hcovered k).2 (.inl ((hmarks k).1 hmark).2)
    · exact (hcovered k).2 (.inr hlater)

theorem handOut (h : d.Steady slots) (htake : d.queue.take? = some (key, queue))
    (hhand : d.handOut? = some d') :
    d'.Steady slots ∧ d.Fair (.handed key :: d'.fate key) d' := by
  unfold handOut? at hhand
  split at hhand
  · cases hhand
  · next hasking =>
    have hasking : d.asking = none := by simpa using hasking
    have htaken := h.heldBy.take htake
    rw [hasking] at htaken
    rw [htake, Option.map_some, Option.some.injEq] at hhand
    dsimp only at hhand
    have hslots := h.spare
    cases hacquire : d.pool.acquire () with
    | mk answer pool =>
      rw [hacquire] at hhand
      have htook := h.took_of_take hasking htake
      obtain ⟨hopen, ⟨rfl, hspare⟩ | ⟨rfl, hspare⟩⟩ := h.opened.acquire hacquire
      · have ht : Handed (pool.spare + d.running.length) key { d with queue, pool } :=
          ⟨htaken, hopen, rfl⟩
        obtain rfl : slots = pool.spare + d.running.length + 1 := by omega
        rw [← hhand, Handed.fate_start]
        exact ⟨ht.start, (htook pool).fair_start ht (by simp) (by simp)⟩
      · dsimp only at hhand
        split at hhand
        · have ht : Handed slots key { d with queue, pool := pool.timeOut () } :=
            ⟨htaken, hopen.timeOut.1, by rw [hopen.timeOut.2, hspare, hslots]⟩
          rw [← hhand, ht.fate_refuse]
          exact ⟨ht.refuse, (htook _).fair_refuse ht (by simp)⟩
        · have ht : Handed slots key { d with queue, pool } :=
            ⟨htaken, hopen, by rw [hspare, hslots]⟩
          have hidle : key ∉ d.running := (List.nodup_cons.1 htaken.nodup).1
          rw [← hhand]
          simpa [fate, hidle] using (htook pool).fair_ask ht _

theorem took_of_asking (h : d.Steady slots) (hasking : d.asking = some key) {t : Dispatcher}
    (hqueue : t.queue = d.queue) (hrunning : t.running = d.running)
    (hlater : ∀ k time, (time, .retry k) ∈ t.agenda.entries ↔ (time, .retry k) ∈ d.agenda.entries) :
    d.Took key t := by
  have hcovered : ∀ k, d.Covered k ↔ d.Wanted k ∨ k = key := by
    intro k
    rw [covered_iff h.heldBy.sound, hasking, Option.some.injEq, eq_comm (a := key)]
  have hwanted : ∀ k, t.Wanted k ↔ d.Wanted k := by
    intro k
    simp only [Wanted, hqueue, hlater]
  refine ⟨(hcovered key).2 (.inr rfl), fun k hne hk ↦ ?_, fun k hk ↦ ?_, hrunning⟩
  · exact (hwanted k).2 (((hcovered k).1 hk).resolve_right hne)
  · exact (hcovered k).2 (.inl ((hwanted k).1 hk))

theorem takeSlot (h : d.Steady slots) (hasking : d.asking = some key)
    (hslot : d.takeSlot? = some d') : d'.Steady slots ∧ d.Fair (d'.fate key) d' := by
  unfold takeSlot? at hslot
  rw [hasking] at hslot
  cases hresume : d.pool.resume? () with
  | none => simp [hresume] at hslot
  | some answered =>
    obtain ⟨answer, pool⟩ := answered
    obtain ⟨rfl, hopen, hspare⟩ := h.opened.resume hresume
    simp only [hresume, Option.some.injEq] at hslot
    have hheld := h.heldBy
    rw [hasking] at hheld
    have hslots := h.spare
    have ht : Handed (pool.spare + d.running.length) key { d with pool } := ⟨hheld, hopen, rfl⟩
    obtain rfl : slots = pool.spare + d.running.length + 1 := by omega
    have htook : d.Took key { d with pool } :=
      h.took_of_asking hasking rfl rfl fun _ _ ↦ Iff.rfl
    rw [← hslot, Handed.fate_start]
    exact ⟨ht.start, htook.fair_start ht (by simp) (by simp)⟩

section Due

variable {before after : List (Nat × Due)} {time : Nat} {entry : Due}

theorem mem_entries_iff (hentries : d.agenda.entries = before ++ (time, entry) :: after)
    (k : ReconcileKey) (t : Nat) : (t, .retry k) ∈ d.agenda.entries ↔
      (t, .retry k) = (time, entry) ∨
        (t, .retry k) ∈ (d.withEntries (before ++ after)).agenda.entries := by
  simp only [withEntries, hentries, List.mem_append, List.mem_cons]
  rw [or_left_comm]

theorem due_retry (h : d.Steady slots)
    (hentries : d.agenda.entries = before ++ (time, .retry key) :: after) :
    ((d.withEntries (before ++ after)).queueKey key).Steady slots ∧
      d.Fair [.retried key] ((d.withEntries (before ++ after)).queueKey key) := by
  have hsteady : ((d.withEntries (before ++ after)).queueKey key).Steady slots :=
    ⟨h.heldBy.add key, h.opened, h.spare⟩
  have hplanned := mem_entries_iff hentries
  have hcovered : ∀ k,
      ((d.withEntries (before ++ after)).queueKey key).Covered k ↔ d.Covered k := by
    intro k
    rw [covered_iff hsteady.heldBy.sound, covered_iff h.heldBy.sound,
      wanted_queueKey (d := d.withEntries (before ++ after)) h.heldBy.sound]
    change (_ ∨ (k ∈ d.queue.dirty ∨ _)) ∨ d.asking = some k ↔ (k ∈ d.queue.dirty ∨ _) ∨ _
    simp only [hplanned, Prod.mk.injEq, Due.retry.injEq, exists_or, exists_and_right, exists_eq,
      true_and, or_left_comm]
  refine ⟨hsteady, fun k hk ↦ .inr ((hcovered k).2 hk), ?_, fun k hk hidle _ ↦ ?_, ?_⟩
  · simp [Calls]
  · exact ⟨by simp, fun hk' ↦ hk ((hcovered k).1 hk'), hidle⟩
  · simp

theorem due_giveUp (h : d.Steady slots)
    (hentries : d.agenda.entries = before ++ (time, .giveUp) :: after) :
    ((d.withEntries (before ++ after)).onDue .giveUp).Steady slots ∧
      d.Fair (d.comes .giveUp) ((d.withEntries (before ++ after)).onDue .giveUp) := by
  have hsame : ∀ k t, (t, .retry k) ∈ (d.withEntries (before ++ after)).agenda.entries ↔
      (t, .retry k) ∈ d.agenda.entries := by
    intro k t
    rw [mem_entries_iff hentries]
    simp
  cases hasking : d.asking with
  | none =>
    have heq : (d.withEntries (before ++ after)).onDue .giveUp = d.withEntries (before ++ after) := by
      simp [onDue, withEntries, hasking]
    have hcovered : ∀ k, (d.withEntries (before ++ after)).Covered k ↔ d.Covered k := by
      intro k
      unfold Covered
      simp only [hsame]
      rfl
    rw [heq]
    refine ⟨⟨h.heldBy, h.opened, h.spare⟩, fun k hk ↦ .inr ((hcovered k).2 hk), ?_,
      fun k hk hidle _ ↦ ?_, ?_⟩
    · simp [comes, hasking]
    · exact ⟨by simp [comes, hasking], fun hk' ↦ hk ((hcovered k).1 hk'), hidle⟩
    · simp [comes, hasking]
  | some key =>
    have heq : (d.withEntries (before ++ after)).onDue .giveUp =
        { d.withEntries (before ++ after) with pool := d.pool.timeOut () }.refuse key := by
      simp [onDue, withEntries, hasking]
    have hheld := h.heldBy
    rw [hasking] at hheld
    have ht : Handed slots key { d.withEntries (before ++ after) with pool := d.pool.timeOut () } :=
      ⟨hheld, h.opened.timeOut.1, (congrArg (· + _) h.opened.timeOut.2).trans h.spare⟩
    have htook : d.Took key { d.withEntries (before ++ after) with pool := d.pool.timeOut () } :=
      h.took_of_asking hasking rfl rfl hsame
    rw [heq]
    exact ⟨ht.refuse, htook.fair_refuse ht (by simp [comes, hasking])⟩

end Due

theorem leave (h : d.Steady slots) (hkey : key ∈ d.running) {o : Outcome} {e : Dispatcher}
    {called : ReconcileKey → Prop} (hheld : e.queue.HeldBy (d.asking.toList ++ d.running))
    (hasking : e.asking = d.asking) (hrunning : e.running = d.running.erase key)
    (hpool : e.pool = d.pool.leave o) (hwanted : ∀ k, e.Wanted k ↔ called k ∨ d.Wanted k) :
    (e.release key).Steady slots ∧ (e.release key).running = d.running.erase key ∧
      ∀ k, (e.release key).Covered k ↔ called k ∨ d.Covered k := by
  have hsteady : (e.release key).Steady slots := by
    constructor
    case heldBy =>
      have hdone := hheld.done (List.mem_append_right _ hkey)
      have hidle : key ∉ d.asking.toList := fun hmem ↦
        (List.nodup_append.1 hheld.nodup).2.2 key hmem key hkey rfl
      rw [List.erase_append_right _ hidle] at hdone
      simpa [release, hasking, hrunning] using hdone
    case opened =>
      change e.pool.Open
      rw [hpool]
      exact (h.opened.leave o).1
    case spare =>
      have hslots := h.spare
      have hlength := List.length_erase_of_mem hkey
      have hpos := List.length_pos_of_mem hkey
      change e.pool.spare + e.running.length = slots
      rw [hpool, (h.opened.leave o).2, hrunning]
      omega
  refine ⟨hsteady, hrunning, fun k ↦ ?_⟩
  rw [covered_iff hsteady.heldBy.sound, covered_iff h.heldBy.sound, wanted_release, hwanted,
    or_assoc]
  change _ ∨ _ ∨ e.asking = some k ↔ _
  rw [hasking]

theorem finish (h : d.Steady slots) (hkey : key ∈ d.running) (verdict : Verdict) :
    (d.finish key verdict).Steady slots ∧
      (d.finish key verdict).running = d.running.erase key ∧
      ∀ k, (d.finish key verdict).Covered k ↔
        (k ∈ verdict.keys ∨ Calls k (.ended key verdict)) ∨ d.Covered k := by
  unfold Dispatcher.finish
  dsimp only
  have hheld := heldBy_foldl_queueKey (d := { d with running := d.running.erase key }) h.heldBy
    verdict.keys
  have hwanted : ∀ k, (verdict.keys.foldl queueKey
      { d with running := d.running.erase key }).Wanted k ↔ k ∈ verdict.keys ∨ d.Wanted k := fun k ↦
    wanted_foldl_queueKey (d := { d with running := d.running.erase key }) h.heldBy.sound
  obtain ⟨hpool, hasking, hrunning⟩ :=
    foldl_queueKey_same { d with running := d.running.erase key } verdict.keys
  generalize verdict.keys.foldl queueKey { d with running := d.running.erase key } = e at *
  have hretried : ∀ k, (e.backOff key).Wanted k ↔ (k ∈ verdict.keys ∨ key = k) ∨ d.Wanted k := by
    intro k
    rw [wanted_backOff hheld.sound, hwanted, or_left_comm, or_assoc, eq_comm]
  cases verdict with
  | done released =>
    refine h.leave hkey hheld hasking hrunning (congrArg (·.leave .succeeded) hpool) fun k ↦ ?_
    change e.Wanted k ↔ (_ ∨ False) ∨ _
    rw [or_false]
    exact hwanted k
  | again =>
    exact h.leave hkey (heldBy_backOff hheld key) ((asking_backOff e key).trans hasking)
      ((running_backOff e key).trans hrunning)
      (congrArg (·.leave .succeeded) ((pool_backOff e key).trans hpool)) hretried
  | failed error =>
    exact h.leave hkey (heldBy_backOff hheld key) ((asking_backOff e key).trans hasking)
      ((running_backOff e key).trans hrunning)
      (congrArg (·.leave .failed) ((pool_backOff e key).trans hpool)) hretried

theorem fair_finish (h : d.Steady slots) (hkey : key ∈ d.running) (verdict : Verdict) :
    d.Fair (verdict.keys.map .queued ++ [.ended key verdict]) (d.finish key verdict) := by
  obtain ⟨-, hrunning, hcovered⟩ := h.finish hkey verdict
  have hnodup : d.running.Nodup := (List.nodup_append.1 h.heldBy.nodup).2.1
  refine ⟨fun k hk ↦ .inr ((hcovered k).2 (.inr hk)), fun k x hx hcalls ↦ ?_,
    fun k hk hidle hnot ↦ ⟨by simp, fun hk' ↦ ?_, ?_⟩, fun k verdict' hx ↦ ?_⟩
  · refine (hcovered k).2 (.inl ?_)
    rcases List.mem_append.1 hx with hx | hx
    · obtain ⟨released, hmem, rfl⟩ := List.mem_map.1 hx
      cases hcalls
      exact .inl hmem
    · rw [List.mem_singleton.1 hx] at hcalls
      exact .inr hcalls
  · rcases (hcovered k).1 hk' with (hmem | hcalls) | hk'
    · exact hnot (List.mem_append_left _ (List.mem_map.2 ⟨k, hmem, rfl⟩))
    · have heq : key = k := by cases verdict <;> first | exact hcalls | cases hcalls
      exact hidle (heq ▸ hkey)
    · exact hk hk'
  · rw [hrunning]
    exact fun hmem ↦ hidle (List.mem_of_mem_erase hmem)
  · obtain ⟨rfl, rfl⟩ : k = key ∧ verdict' = verdict := by simpa using hx
    rw [hrunning]
    exact hnodup.not_mem_erase

theorem step {news : List Happening} (h : d.Steady slots) (hstep : Step d news d') :
    d'.Steady slots ∧ d.Fair news d' := by
  cases hstep with
  | queue keys =>
    have hheld := heldBy_foldl_queueKey h.heldBy keys
    obtain ⟨hpool, hasking, hrunning⟩ := foldl_queueKey_same d keys
    have hcovered : ∀ k, (keys.foldl queueKey d).Covered k ↔ k ∈ keys ∨ d.Covered k := by
      intro k
      rw [covered_iff hheld.sound, covered_iff h.heldBy.sound, wanted_foldl_queueKey h.heldBy.sound,
        hasking, or_assoc]
    refine ⟨⟨by rwa [hasking, hrunning], hpool ▸ h.opened, by rw [hpool, hrunning, h.spare]⟩,
      fun k hk ↦ .inr ((hcovered k).2 (.inr hk)), fun k x hx hcalls ↦ ?_,
      fun k hk hidle hnot ↦ ⟨by simp, fun hk' ↦ ?_, hrunning ▸ hidle⟩, by simp⟩
    · obtain ⟨key, hmem, rfl⟩ := List.mem_map.1 hx
      cases hcalls
      exact (hcovered _).2 (.inl hmem)
    · exact ((hcovered k).1 hk').elim (fun hmem ↦ hnot (List.mem_map_of_mem hmem)) hk
  | handOut htake hhand => exact h.handOut htake hhand
  | takeSlot hasking hslot => exact h.takeSlot hasking hslot
  | @due before after time entry hentries hmissed =>
    cases entry with
    | retry key => exact h.due_retry hentries
    | giveUp => exact h.due_giveUp hentries
  | finish hrunning verdict =>
    exact ⟨(h.finish hrunning verdict).1, h.fair_finish hrunning verdict⟩
  | wait time =>
    refine ⟨⟨h.heldBy, h.opened, h.spare⟩, fun k hk ↦ .inr hk, by simp,
      fun k hk hidle _ ↦ ⟨by simp, hk, hidle⟩, by simp⟩

end Steady

namespace Run

variable {slots : Nat} {news : List Happening}

theorem steady (hrun : Run d news d') (h : d.Steady slots) : d'.Steady slots := by
  induction hrun with
  | nil => exact h
  | snoc hrun hstep ih => exact (ih.step hstep).1

theorem kept (hrun : Run d news d') (h : d.Steady slots) (hk : d.Covered k) :
    .started k ∈ news ∨ d'.Covered k := by
  induction hrun with
  | nil => exact .inr hk
  | snoc hrun hstep ih =>
    rw [List.mem_append, or_assoc]
    rcases ih with hstarted | hcovered
    · exact .inl hstarted
    · exact .inr (((hrun.steady h).step hstep).2.kept k hcovered)

theorem quiet (hrun : Run d news d') (h : d.Steady slots) (hk : ¬d.Covered k)
    (hidle : k ∉ d.running) (hnot : .queued k ∉ news) :
    .handed k ∉ news ∧ ¬d'.Covered k ∧ k ∉ d'.running := by
  induction hrun with
  | nil => exact ⟨List.not_mem_nil, hk, hidle⟩
  | snoc hrun hstep ih =>
    rw [List.mem_append, not_or] at hnot ⊢
    obtain ⟨hnone, hk', hidle'⟩ := ih hnot.1
    obtain ⟨hnone', hrest⟩ := ((hrun.steady h).step hstep).2.quiet _ hk' hidle' hnot.2
    exact ⟨⟨hnone, hnone'⟩, hrest⟩

end Run

/-- What is promised of a dispatcher on its way. -/
structure Orderly (config : ControllerConfig) (d : Dispatcher) : Prop where
  /-- No key has two workers. -/
  single : d.running.Nodup
  /-- A key that waits for a slot has no worker yet. -/
  apart : ∀ k, d.asking = some k → k ∉ d.running
  bounded : d.running.length ≤ config.maxConcurrentReconciles
  /-- A key that is queued, finds no slot, or comes back undone is owed a reconcile until a worker
  starts on it. -/
  kept : ∀ news d₁, Step d news d₁ → ∀ k, ∀ x ∈ news, Calls k x →
    ∀ later d₂, Run d₁ later d₂ → .started k ∈ later ∨ d₂.Covered k
  /-- A key that was done and is owed nothing is not handed out before somebody queues it. -/
  quiet : ∀ news d₁, Step d news d₁ → ∀ k released, .ended k (.done released) ∈ news →
    ¬d₁.Covered k → ∀ later d₂, Run d₁ later d₂ → .queued k ∉ later → .handed k ∉ later

theorem orderly_of_run {news : List Happening} (hrun : Run (new config) news d) :
    Orderly config d := by
  have h := hrun.steady (steady_new config)
  constructor
  case single => exact (List.nodup_append.1 h.heldBy.nodup).2.1
  case apart =>
    intro k hasking hmem
    exact (List.nodup_append.1 h.heldBy.nodup).2.2 k (by simp [hasking]) k hmem rfl
  case bounded =>
    have hslots := h.spare
    omega
  case kept =>
    intro news d₁ hstep k x hx hcalls later d₂ hlater
    obtain ⟨h₁, hfair⟩ := h.step hstep
    exact hlater.kept h₁ (hfair.called k x hx hcalls)
  case quiet =>
    intro news d₁ hstep k released hended hnone later d₂ hlater hnot
    obtain ⟨h₁, hfair⟩ := h.step hstep
    exact (hlater.quiet h₁ hnone (hfair.ended k _ hended) hnot).1

def eager : ControllerConfig where
  maxConcurrentReconciles := 1
  requeueBaseDelay := .zero
  requeueMaxDelay := .zero
  acquireTimeout := .ofSeconds 5
  shutdownGrace := .zero
  installNamespace := "dbaas-operator"
  createDefaultConfig := false

theorem orderly_after_stale_write : ∃ news d, Run (new eager) news d ∧
    .started (.authz "shop") ∈ news ∧ .ended (.authz "shop") .again ∈ news ∧
      d.queue.pending = [.authz "shop"] ∧ Orderly eager d := by
  have hqueued : Step (new eager) [.queued (.authz "shop")] _ := .queue _ [.authz "shop"]
  have hhanded : Step _ [.handed (.authz "shop"), .started (.authz "shop")] _ :=
    .handOut (d := [ReconcileKey.authz "shop"].foldl queueKey (new eager)) rfl rfl
  have hrun := ((Run.nil _).snoc hqueued).snoc hhanded |>.snoc (.finish (.head _) .again)
  exact ⟨_, _, hrun, by simp, by simp, rfl, orderly_of_run hrun⟩

end Dispatcher

end TenantAccess
