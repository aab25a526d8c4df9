import TenantAccess.Schedule.WorkQueue

/-!
# The work queue in use

A key that was added stays marked until it is handed out, and no key is handed out while its holder
is still at work.
-/

namespace TenantAccess.WorkQueue

variable {κ : Type} {q q' : WorkQueue κ} {k a : κ}

/-- A queue that is up, and in which the marked keys without a holder are those to hand out. -/
structure Sound (q : WorkQueue κ) : Prop where
  up : q.isDown = false
  nodup : q.pending.Nodup
  mem_pending_iff : ∀ k, k ∈ q.pending ↔ k ∈ q.dirty ∧ k ∉ q.inFlight

theorem sound_empty : Sound ({} : WorkQueue κ) where
  up := rfl
  nodup := .nil
  mem_pending_iff k := by simp

theorem Sound.dirty_eq_nil (h : q.Sound) (hpending : q.pending = []) (hflight : q.inFlight = []) :
    q.dirty = [] := by
  refine List.eq_nil_iff_forall_not_mem.2 fun k hk ↦ ?_
  have hmem := (h.mem_pending_iff k).2 ⟨hk, by simp [hflight]⟩
  simp [hpending] at hmem

theorem Sound.eq_empty (h : q.Sound) (hpending : q.pending = []) (hflight : q.inFlight = []) :
    q = {} := by
  have hdirty := h.dirty_eq_nil hpending hflight
  have hup := h.up
  obtain ⟨pending, dirty, inFlight, isDown⟩ := q
  subst hpending hflight hdirty hup
  rfl

variable [DecidableEq κ]

theorem mem_insert_iff {l : List κ} : a ∈ insert k l ↔ a = k ∨ a ∈ l := by
  unfold insert
  split
  · next hmem =>
    constructor
    · exact .inr
    · rintro (rfl | h)
      · exact hmem
      · exact h
  · exact List.mem_cons

section Add

@[simp] theorem inFlight_add (q : WorkQueue κ) (k : κ) : (q.add k).inFlight = q.inFlight := by
  unfold add
  split
  · rfl
  · split <;> rfl

theorem isDown_add (q : WorkQueue κ) (k : κ) : (q.add k).isDown = q.isDown := by
  unfold add
  split
  · rfl
  · split <;> rfl

@[simp] theorem inFlight_foldl_add (l : List κ) (q : WorkQueue κ) :
    (l.foldl add q).inFlight = q.inFlight := by
  induction l generalizing q with
  | nil => rfl
  | cons k rest ih => rw [List.foldl_cons, ih, inFlight_add]

theorem Sound.mem_dirty_add_iff (h : q.Sound) : a ∈ (q.add k).dirty ↔ a = k ∨ a ∈ q.dirty := by
  by_cases hmem : k ∈ q.dirty
  · have heq : q.add k = q := by simp [add, hmem]
    rw [heq]
    constructor
    · exact .inr
    · rintro (rfl | ha)
      · exact hmem
      · exact ha
  · by_cases hflight : k ∈ q.inFlight <;> simp [add, h.up, hmem, hflight]

theorem Sound.add (h : q.Sound) (k : κ) : (q.add k).Sound := by
  by_cases hmem : k ∈ q.dirty
  · have heq : q.add k = q := by simp [WorkQueue.add, hmem]
    rwa [heq]
  · have hpending : k ∉ q.pending := fun hk ↦ hmem ((h.mem_pending_iff k).1 hk).1
    by_cases hflight : k ∈ q.inFlight
    · refine ⟨?_, ?_, fun a ↦ ?_⟩
      · simp [WorkQueue.add, h.up, hmem, hflight]
      · simpa [WorkQueue.add, h.up, hmem, hflight] using h.nodup
      · simp only [WorkQueue.add, h.up, hmem, hflight]
        by_cases ha : a = k
        · simp [ha, hpending, hflight]
        · simp [ha, h.mem_pending_iff a]
    · refine ⟨?_, ?_, fun a ↦ ?_⟩
      · simp [WorkQueue.add, h.up, hmem, hflight]
      · simp only [WorkQueue.add, h.up, hmem, hflight]
        refine List.nodup_append.2 ⟨h.nodup, by simp, fun a ha b hb heq ↦ hpending ?_⟩
        rwa [← List.mem_singleton.1 hb, ← heq]
      · simp only [WorkQueue.add, h.up, hmem, hflight]
        by_cases ha : a = k
        · simp [ha, hflight]
        · simp [ha, h.mem_pending_iff a]

theorem Sound.foldl_add (h : q.Sound) (l : List κ) : (l.foldl WorkQueue.add q).Sound := by
  induction l generalizing q with
  | nil => exact h
  | cons k rest ih => exact ih (h.add k)

theorem Sound.mem_dirty_foldl_add_iff (h : q.Sound) {l : List κ} :
    a ∈ (l.foldl WorkQueue.add q).dirty ↔ a ∈ l ∨ a ∈ q.dirty := by
  induction l generalizing q with
  | nil => simp
  | cons k rest ih =>
    rw [List.foldl_cons, ih (h.add k), h.mem_dirty_add_iff, List.mem_cons, or_left_comm, or_assoc]

end Add

section Take

theorem up_of_take (h : q.take? = some (k, q')) : q.isDown = false := by
  cases hdown : q.isDown with
  | true => simp [take?, hdown] at h
  | false => rfl

theorem isDown_take (h : q.take? = some (k, q')) : q'.isDown = q.isDown := by
  have hup := up_of_take h
  unfold take? at h
  rw [hup] at h
  cases hpending : q.pending with
  | nil => simp [hpending] at h
  | cons k' rest =>
    simp only [hpending, Bool.false_eq_true, if_false, Option.some.injEq, Prod.mk.injEq] at h
    obtain ⟨-, rfl⟩ := h
    exact hup.symm

/-- What is handed out was marked and had no holder; only its mark goes. -/
theorem Sound.take (h : q.Sound) (htake : q.take? = some (k, q')) :
    q'.Sound ∧ k ∈ q.dirty ∧ k ∉ q.inFlight ∧ (∀ a, a ∈ q'.dirty ↔ a ≠ k ∧ a ∈ q.dirty) ∧
      ∀ a, a ∈ q'.inFlight ↔ a = k ∨ a ∈ q.inFlight := by
  unfold take? at htake
  rw [h.up] at htake
  cases hpending : q.pending with
  | nil => simp [hpending] at htake
  | cons k' rest =>
    simp only [hpending, Bool.false_eq_true, if_false, Option.some.injEq, Prod.mk.injEq] at htake
    obtain ⟨rfl, rfl⟩ := htake
    have hiff := h.mem_pending_iff
    have hnodup := h.nodup
    rw [hpending] at hnodup
    obtain ⟨hnot, hrest⟩ := List.nodup_cons.1 hnodup
    obtain ⟨hdirty, hflight⟩ := (hiff k').1 (by simp [hpending])
    refine ⟨⟨rfl, hrest, fun a ↦ ?_⟩, hdirty, hflight, fun a ↦ ?_, fun a ↦ mem_insert_iff⟩
    · have ha := hiff a
      rw [hpending, List.mem_cons] at ha
      simp only [List.mem_filter, mem_insert_iff, decide_eq_true_eq, not_or]
      by_cases heq : a = k'
      · simp [heq, hnot]
      · simpa [heq] using ha
    · simp [and_comm]

/-- A holder that is done makes its key free, to be handed out again if it was marked. -/
theorem Sound.done (h : q.Sound) (hk : k ∈ q.inFlight) : (q.done k).Sound := by
  have hpending : k ∉ q.pending := fun hmem ↦ ((h.mem_pending_iff k).1 hmem).2 hk
  unfold WorkQueue.done
  by_cases hdirty : k ∈ q.dirty
  · simp only [hdirty, h.up, Bool.false_eq_true, not_false_eq_true, and_self, if_true]
    refine ⟨rfl, List.nodup_append.2 ⟨h.nodup, by simp, fun a ha b hb heq ↦ hpending ?_⟩,
      fun a ↦ ?_⟩
    · rwa [← List.mem_singleton.1 hb, ← heq]
    · by_cases ha : a = k
      · simp [ha, hdirty]
      · simp [ha, h.mem_pending_iff a]
  · simp only [hdirty, false_and, if_false]
    refine ⟨h.up, h.nodup, fun a ↦ ?_⟩
    by_cases ha : a = k
    · simp [ha, hdirty, hpending]
    · simp [ha, h.mem_pending_iff a]

@[simp] theorem dirty_done (q : WorkQueue κ) (k : κ) : (q.done k).dirty = q.dirty := by
  unfold WorkQueue.done
  dsimp only
  split <;> rfl

theorem isDown_done (q : WorkQueue κ) (k : κ) : (q.done k).isDown = q.isDown := by
  unfold WorkQueue.done
  dsimp only
  split <;> rfl

@[simp] theorem mem_inFlight_done_iff : a ∈ (q.done k).inFlight ↔ a ≠ k ∧ a ∈ q.inFlight := by
  unfold WorkQueue.done
  dsimp only
  split <;> simp [and_comm]

theorem Sound.take_done (h : q.Sound) (hflight : q.inFlight = []) {rest : List κ}
    (hpending : q.pending = k :: rest) :
    ∃ q', q.take? = some (k, q') ∧ (q'.done k).Sound ∧ (q'.done k).inFlight = [] ∧
      (q'.done k).pending = rest := by
  have htake : q.take? = some (k, { q with
      pending := rest
      dirty := q.dirty.filter (· ≠ k)
      inFlight := insert k q.inFlight }) := by
    unfold take?
    rw [h.up, hpending]
    rfl
  obtain ⟨hsound, -, -, hdirty, hhanded⟩ := h.take htake
  have hclean : k ∉ q.dirty.filter (· ≠ k) := fun hmem ↦ ((hdirty k).1 hmem).1 rfl
  refine ⟨_, htake, hsound.done ((hhanded k).2 (.inl rfl)), ?_, ?_⟩
  · refine List.eq_nil_iff_forall_not_mem.2 fun a ha ↦ ?_
    rw [mem_inFlight_done_iff, hhanded, hflight] at ha
    rcases ha with ⟨hne, rfl | ha⟩
    · exact hne rfl
    · cases ha
  · unfold WorkQueue.done
    dsimp only
    rw [if_neg fun hmem ↦ hclean hmem.1]

/-- A holder adds keys before it is done; of the others only its own has lost its mark. -/
theorem Sound.done_foldl_add (h : q.Sound) (hflight : q.inFlight = [])
    (htake : q.take? = some (k, q')) (l : List κ) :
    ((l.foldl WorkQueue.add q').done k).Sound ∧ ((l.foldl WorkQueue.add q').done k).inFlight = [] ∧
      ∀ a, a ∈ ((l.foldl WorkQueue.add q').done k).dirty ↔ a ∈ l ∨ a ≠ k ∧ a ∈ q.dirty := by
  obtain ⟨hsound, -, -, hdirty, hhanded⟩ := h.take htake
  refine ⟨(hsound.foldl_add l).done ?_, List.eq_nil_iff_forall_not_mem.2 fun a ha ↦ ?_,
    fun a ↦ ?_⟩
  · rw [inFlight_foldl_add]
    exact (hhanded k).2 (.inl rfl)
  · rw [mem_inFlight_done_iff, inFlight_foldl_add, hhanded, hflight] at ha
    simp at ha
  · rw [dirty_done, hsound.mem_dirty_foldl_add_iff, hdirty]

theorem Sound.mem_pending_foldl_add_iff (h : q.Sound) (hflight : q.inFlight = []) {l : List κ} :
    a ∈ (l.foldl WorkQueue.add q).pending ↔ a ∈ l ∨ a ∈ q.pending := by
  rw [(h.foldl_add l).mem_pending_iff, h.mem_pending_iff, inFlight_foldl_add, hflight,
    h.mem_dirty_foldl_add_iff]
  simp

end Take

section Hand

variable {hand hand' : List κ}

/-- The keys in flight are those in `hand`, each of them once. -/
structure HeldBy (q : WorkQueue κ) (hand : List κ) : Prop where
  sound : q.Sound
  nodup : hand.Nodup
  inFlight_iff : ∀ k, k ∈ q.inFlight ↔ k ∈ hand

omit [DecidableEq κ] in
theorem HeldBy.perm (h : q.HeldBy hand) (hperm : hand.Perm hand') : q.HeldBy hand' where
  sound := h.sound
  nodup := hperm.nodup_iff.1 h.nodup
  inFlight_iff k := (h.inFlight_iff k).trans hperm.mem_iff

theorem HeldBy.add (h : q.HeldBy hand) (k : κ) : (q.add k).HeldBy hand where
  sound := h.sound.add k
  nodup := h.nodup
  inFlight_iff a := by rw [inFlight_add, h.inFlight_iff]

theorem HeldBy.take (h : q.HeldBy hand) (htake : q.take? = some (k, q')) :
    q'.HeldBy (k :: hand) := by
  obtain ⟨hsound, -, hflight, -, hhanded⟩ := h.sound.take htake
  refine ⟨hsound, List.nodup_cons.2 ⟨fun hmem ↦ hflight ((h.inFlight_iff k).2 hmem), h.nodup⟩,
    fun a ↦ ?_⟩
  rw [hhanded, h.inFlight_iff, List.mem_cons]

theorem HeldBy.done (h : q.HeldBy hand) (hk : k ∈ hand) : (q.done k).HeldBy (hand.erase k) := by
  refine ⟨h.sound.done ((h.inFlight_iff k).2 hk), h.nodup.erase k, fun a ↦ ?_⟩
  rw [mem_inFlight_done_iff, h.inFlight_iff, h.nodup.mem_erase_iff]

end Hand

end TenantAccess.WorkQueue
