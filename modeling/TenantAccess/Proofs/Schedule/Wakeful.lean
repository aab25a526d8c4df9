import TenantAccess.Proofs.Schedule.Turns

/-!
# No wake-up is lost

There are always enough on their way to look for all the keys that are pending, as long as anybody
waits.  So once nobody is on the way any more, nobody waits for a key that could be had.
-/

namespace TenantAccess

open WaitingQueue

namespace WorkQueue

variable {κ : Type} [DecidableEq κ]

theorem length_eq_zero_of_take {q : WorkQueue κ} (hup : q.isDown = false) (h : q.take? = none) :
    q.length = 0 := by
  unfold take? at h
  rw [hup] at h
  unfold length
  cases hpending : q.pending with
  | nil => rfl
  | cons k rest => simp [hpending] at h

theorem length_of_take {q q' : WorkQueue κ} (h : q.take? = some (k, q')) :
    q.length = q'.length + 1 := by
  have hup := up_of_take h
  unfold take? at h
  rw [hup] at h
  cases hpending : q.pending with
  | nil => simp [hpending] at h
  | cons k' rest =>
    simp only [hpending, Bool.false_eq_true, if_false, Option.some.injEq, Prod.mk.injEq] at h
    obtain ⟨-, rfl⟩ := h
    simp [length, hpending]

end WorkQueue

namespace Traffic

variable {κ ι : Type} [DecidableEq κ] [DecidableEq ι] {s s' : Traffic κ ι}
  {l l' news : List (Incident κ ι)} {w : ι} {k : κ}

/-! ## The queue -/

theorem Step.queue_cases (h : Step s news s') :
    (news.filterMap Incident.happening? = [] ∧ s'.room.queue = s.room.queue) ∨
      ∃ c, s.room.queue.Allows c ∧
        news.filterMap Incident.happening? = [(s.room.queue.call c).1] ∧
        s'.room.queue = (s.room.queue.call c).2 := by
  cases h
  case start | heed | register | refuse | stay | again | poll | wakeAll => exact .inl ⟨rfl, rfl⟩
  case leave h => exact .inl ⟨rfl, h.queue_eq⟩
  case drop h => exact .inl ⟨rfl, h.queue_eq⟩
  case notify h => exact .inl ⟨rfl, h.queue_eq⟩
  case take k q hw htake =>
    have hcall : s.room.queue.call .take = (.handed k, q) := by simp [WorkQueue.call, htake]
    refine .inr ⟨.take, trivial, ?_, ?_⟩
    · rw [hcall]
      rfl
    · rw [hcall]
  case add k => exact .inr ⟨.add k, trivial, rfl, rfl⟩
  case done k hk => exact .inr ⟨.done k, hk, rfl, rfl⟩
  case shutDown => exact .inr ⟨.shutDown, trivial, rfl, rfl⟩

theorem Run.queue_run (h : Run s l s') :
    WorkQueue.Run s.room.queue (l.filterMap Incident.happening?) s'.room.queue := by
  induction h with
  | nil => exact .nil _
  | cons hstep _ ih =>
    rw [List.filterMap_append]
    rcases hstep.queue_cases with ⟨hnone, hsame⟩ | ⟨c, hallows, hsome, hnext⟩
    · rw [hnone, List.nil_append, ← hsame]
      exact ih
    · rw [hsome]
      exact .cons c hallows (hnext ▸ ih)

/-! ## The wake-ups -/

/-- While somebody sleeps, a look or a wake-up is to come for every key that is pending, or for all. -/
structure Alert (s : Traffic κ ι) : Prop where
  up : s.room.queue.isDown = false → ∀ w ∈ s.room.waiting, w ∉ s.looking → w ∉ s.leaving →
    s.room.queue.length ≤ s.owed + s.coming.card + s.looking.card + s.room.woken.length
  down : s.room.queue.isDown = true → s.closing = 0 → ∀ w ∈ s.room.waiting,
    w ∈ s.looking ∨ w ∈ s.leaving

omit [DecidableEq κ] [DecidableEq ι] in
theorem Alert.push {q : WorkQueue κ} (h : s.Alert) (hdown : q.isDown = s.room.queue.isDown) :
    (s.push q).Alert where
  up hup w hw hlooking hleaving := by
    have hbound := h.up (hdown ▸ hup) w hw hlooking hleaving
    simp only [Traffic.push]
    omega
  down hdown' hclosing := h.down (hdown ▸ hdown') hclosing

omit [DecidableEq κ] in
/-- When a registration goes, no more is lost than one who was neither asleep nor on the way. -/
theorem Alert.of_releases {r : WaitingQueue κ ι} {leaving : Finset ι} (h : s.Alert)
    (hnodup : s.room.registered.Nodup) (hreleases : Releases w s.room r)
    (hleaving : ∀ v ≠ w, v ∈ s.leaving → v ∈ leaving) :
    ({ s with room := r, leaving } : Traffic κ ι).Alert := by
  have hwaiting {v : ι} (hv : v ∈ r.waiting) : v ∈ s.room.waiting ∧ v ≠ w := by
    have hmem : v ∈ r.registered := List.mem_append_left _ hv
    rw [(hreleases.registered_perm hnodup).mem_iff, hnodup.mem_erase_iff] at hmem
    exact ⟨hreleases.waiting_subset hv, hmem.1⟩
  constructor
  · intro hup v hv hlooking hout
    dsimp only at hup hv hlooking hout ⊢
    rw [hreleases.queue_eq] at hup ⊢
    obtain ⟨hbefore, hne⟩ := hwaiting hv
    have hbound := h.up hup v hbefore hlooking fun hmem ↦ hout (hleaving v hne hmem)
    rcases hreleases.length_woken hup with hnone | hlength
    · simp [hnone] at hv
    · omega
  · intro hdown hclosing v hv
    dsimp only at hdown hv ⊢
    rw [hreleases.queue_eq] at hdown
    obtain ⟨hbefore, hne⟩ := hwaiting hv
    exact (h.down hdown hclosing v hbefore).imp_right (hleaving v hne)

theorem Alert.step (h : s.Alert) (hplaced : Placed l s) (hstep : Step s news s') : s'.Alert := by
  have hnodup := hplaced.nodup
  have hcoming := hplaced.coming
  obtain ⟨hup, hdown⟩ := h
  -- whoever uses up a wake-up is counted as coming or looking from then on
  cases hstep
  case start v hopen hleaving =>
    refine ⟨fun hopened w hw hlooking hout ↦ ?_, hdown⟩
    have hbound := hup hopened w hw hlooking hout
    have hcard := Finset.card_le_card (Finset.subset_insert v s.coming)
    dsimp only
    omega
  case heed v hv hsignal | register v hv hsignal =>
    -- the taker itself is looking
    have hout := (hcoming v hv).1
    have hcard := Finset.card_erase_add_one hv
    have hcard' := Finset.card_insert_of_notMem hout
    refine ⟨fun hopened w hw hlooking hleaving ↦ ?_, fun hclosed hclosing w hw ↦ ?_⟩
    · have hbound := hup hopened w (by grind) (by grind) hleaving
      dsimp only
      omega
    · have := hdown hclosed hclosing w
      grind
  case refuse v hv hdown' =>
    refine ⟨fun hopened ↦ ?_, fun hclosed hclosing w hw ↦ ?_⟩
    · simp [hdown'] at hopened
    · have := hdown hclosed hclosing w hw
      grind
  case take v k q hv htake =>
    have hlength := WorkQueue.length_of_take htake
    have hstill := WorkQueue.isDown_take htake
    have hcard := Finset.card_erase_add_one hv
    refine ⟨fun hopened w hw hlooking hleaving ↦ ?_, fun hclosed hclosing w hw ↦ ?_⟩
    · have hbound := hup (hstill ▸ hopened) w hw (by grind) (by grind)
      dsimp only
      omega
    · have := hdown (hstill ▸ hclosed) hclosing w hw
      grind
  case stay v hv hopened hnone hregistered | again v hv hopened hnone hregistered =>
    have hempty := WorkQueue.length_eq_zero_of_take hopened hnone
    refine ⟨fun _ w _ _ _ ↦ ?_, fun hclosed ↦ ?_⟩
    · dsimp only
      omega
    · simp [hopened] at hclosed
  case leave v r hv h =>
    exact Alert.of_releases ⟨hup, hdown⟩ hnodup h fun w hne hw ↦ Finset.mem_erase.2 ⟨hne, hw⟩
  case poll v hv hlooking hleaving =>
    have hout : v ∉ s.coming := fun hmem ↦ (hcoming v hmem).2.2 (List.mem_append_right _ hv)
    have hcard := Finset.card_insert_of_notMem hout
    have hlength := List.length_erase_of_mem hv
    have hpos := List.length_pos_of_mem hv
    refine ⟨fun hopened w hw hlooking' hleaving' ↦ ?_, hdown⟩
    have hbound := hup hopened w hw hlooking' hleaving'
    dsimp only
    omega
  case drop v r hv hlooking hleaving h =>
    exact Alert.of_releases ⟨hup, hdown⟩ hnodup h fun w _ hw ↦ hw
  case add k => exact Alert.push ⟨hup, hdown⟩ (WorkQueue.isDown_add _ _)
  case done k hk => exact Alert.push ⟨hup, hdown⟩ (WorkQueue.isDown_done _ _)
  case shutDown => exact ⟨nofun, nofun⟩
  case wakeAll hclosing => exact ⟨fun _ w hw ↦ by simp at hw, fun _ _ w hw ↦ by simp at hw⟩
  case notify r howed h =>
    refine ⟨fun hopened w hw hlooking hleaving ↦ ?_, fun hclosed hclosing w hw ↦ ?_⟩
    · dsimp only at hopened hw ⊢
      rw [h.queue_eq] at hopened ⊢
      have hbound := hup hopened w (h.waiting_subset hw) hlooking hleaving
      rcases h.length_woken with hnone | hlength
      · simp [hnone] at hw
      · omega
    · dsimp only at hclosed
      rw [h.queue_eq] at hclosed
      exact hdown hclosed hclosing w (h.waiting_subset hw)

theorem Alert.run (h : s.Alert) (hplaced : Placed l s) (hrun : Run s l' s') : s'.Alert := by
  -- a step keeps the count only of those who are where the history says, so both go together
  refine (hrun.invariant (I := fun l s ↦ Placed l s ∧ s.Alert) ?_ ⟨hplaced, h⟩).2
  exact fun h hstep ↦ ⟨h.1.step hstep, h.2.step h.1 hstep⟩

omit [DecidableEq κ] [DecidableEq ι] in
theorem placed_nil : Placed [] ({} : Traffic κ ι) where
  nodup := .nil
  coming w hw := by simp at hw
  looking w hw := by simp at hw
  underWay_iff w := by simp [Incident.not_underWay_nil, Open, registered]

omit [DecidableEq κ] [DecidableEq ι] in
theorem alert_empty : ({} : Traffic κ ι).Alert := ⟨fun _ w hw ↦ by simp at hw, nofun⟩

/-! ## What is promised -/

theorem Step.not_called_handed : ¬Step s [.called (.handed k)] s' := by
  intro h
  generalize hnews : [Incident.called (.handed k)] = news at h
  cases h
  case add a =>
    have hcall := Incident.called.inj (List.cons.inj hnews).1
    obtain ⟨hadd, -⟩ := WorkQueue.Happening.ComesOf.of_eq hcall.symm
    cases hadd
  all_goals cases hnews

theorem Run.not_called_handed (h : Run s l s') : .called (.handed k) ∉ l := by
  intro hmem
  obtain ⟨a, b, rfl⟩ := List.append_of_mem hmem
  obtain ⟨s₁, s₂, -, hstep, -⟩ := h.exists_step
  exact hstep.not_called_handed

theorem Step.open_of_ended {e : Ending κ} (h : Step s [.ended w e] s') : s.Open w := by
  cases h with
  | refuse hw | take hw => exact .inr (.inl hw)
  | drop hw hlooking hleaving => exact .inr (.inr ⟨hw, hleaving⟩)

theorem Step.isDown_of_downed (h : Step s [.called .downed] s') :
    s'.room.queue.isDown = true := by
  rcases h.queue_cases with ⟨hnone, -⟩ | ⟨c, -, hsome, hnext⟩
  · cases hnone
  · rw [hnext]
    exact (WorkQueue.isDown_call_iff _ _).2 (.inr (List.cons.inj hsome).1.symm)

theorem Step.isDown (h : Step s news s') (hdown : s.room.queue.isDown = true) :
    s'.room.queue.isDown = true := by
  rcases h.queue_cases with ⟨-, hsame⟩ | ⟨c, -, -, hnext⟩
  · rwa [hsame]
  · rw [hnext]
    exact (WorkQueue.call_down hdown c).1

theorem Run.isDown (h : Run s l s') (hdown : s.room.queue.isDown = true) :
    s'.room.queue.isDown = true :=
  h.invariant (I := fun _ s ↦ s.room.queue.isDown = true) (l := [])
    (fun hdown hstep ↦ hstep.isDown hdown) hdown

end Traffic

namespace Incident

variable {κ ι : Type} {l a b : List (Incident κ ι)} {w : ι} {k : κ} {x : Incident κ ι}
  {y : WorkQueue.Happening κ}

theorem happening?_eq_some_iff : x.happening? = some y ↔
    x = called y ∨ ∃ w k, x = ended w (.key k) ∧ y = .handed k := by
  cases x with
  | started w => simp [happening?]
  | ended w e => cases e <;> simp [happening?, eq_comm]
  | called y' => simp [happening?]

theorem mem_happenings_returned (h : .returned k ∈ b.filterMap happening?) :
    called (.returned k) ∈ b := by
  obtain ⟨x, hx, heq⟩ := List.mem_filterMap.1 h
  rcases happening?_eq_some_iff.1 heq with rfl | ⟨w, k, -, heq⟩
  · exact hx
  · cases heq

theorem handed_mem_happenings (h : ended w (.key k) ∈ b) : .handed k ∈ b.filterMap happening? :=
  List.mem_filterMap.2 ⟨_, h, rfl⟩

theorem filterMap_happenings_append_cons (hx : x.happening? = some y) :
    (a ++ x :: b).filterMap happening? =
      a.filterMap happening? ++ y :: b.filterMap happening? := by
  rw [List.filterMap_append, List.filterMap_cons_some hx]

/-- What the queue is told of otherwise than by a hand-out is told as it is. -/
theorem exists_called_of_filterMap {A B : List (WorkQueue.Happening κ)}
    (h : l.filterMap happening? = A ++ y :: B) (hy : ∀ k, y ≠ .handed k) :
    ∃ a b, l = a ++ called y :: b ∧ a.filterMap happening? = A ∧ b.filterMap happening? = B := by
  obtain ⟨a, l', rfl, ha, hl'⟩ := List.filterMap_eq_append_iff.1 h
  obtain ⟨c, x, b, rfl, hc, hx, hb⟩ := List.filterMap_eq_cons_iff.1 hl'
  rcases happening?_eq_some_iff.1 hx with rfl | ⟨w, k, -, heq⟩
  · refine ⟨a ++ c, b, by simp, ?_, hb⟩
    rw [List.filterMap_append, ha, List.filterMap_eq_nil_iff.2 hc, List.append_nil]
  · exact absurd heq (hy k)

end Incident

open Incident

/-- What is promised of a queue in use with the history `l`. -/
structure Wakeful {κ ι : Type} (l : List (Incident κ ι)) (s : Traffic κ ι) : Prop where
  /-- Nobody waits while there is a key to take. -/
  awake : s.AtRest → s.room.queue.pending = [] ∨ s.room.waiting = []
  underWay_iff : s.AtRest → ∀ w, UnderWay w l ↔ w ∈ s.room.waiting
  /-- A call that is answered, or given up, has started and not been before. -/
  once : ∀ w e a b, l = a ++ .ended w e :: b → UnderWay w a
  /-- Whoever takes a key, it was handed back since it was taken before. -/
  alone : ∀ k w w' a b c, l = a ++ .ended w (.key k) :: b ++ .ended w' (.key k) :: c →
    .called (.returned k) ∈ b
  /-- Whoever takes a key, it was added since, and nobody else has taken it for that. -/
  called : ∀ k w a b, l = a ++ .ended w (.key k) :: b → ∃ a₁ a₂,
    a = a₁ ++ .called (.added k) :: a₂ ∧ ∀ w', .ended w' (.key k) ∉ a₂
  /-- No addition is lost: the key is taken by somebody, or it is marked. -/
  answered : ∀ k x a b, x = .added k ∨ x = .repeated k → l = a ++ .called x :: b →
    (∃ w, .ended w (.key k) ∈ b) ∨ k ∈ s.room.queue.dirty
  /-- A marked key is pending unless it has a holder. -/
  pending_iff : s.room.queue.isDown = false → ∀ k, k ∈ s.room.queue.pending ↔
    k ∈ s.room.queue.dirty ∧ k ∉ s.room.queue.inFlight
  /-- After the queue is shut down nobody gets a key. -/
  still : ∀ a b, l = a ++ .called .downed :: b → ∀ w k, .ended w (.key k) ∉ b
  /-- After the queue is shut down nobody waits for long, and everybody is sent away. -/
  closed : s.AtRest → ∀ a b, l = a ++ .called .downed :: b → s.room.waiting = [] ∧
    ∀ w, UnderWay w a ∨ .started w ∈ b → .ended w .shutDown ∈ b ∨ .ended w .dropped ∈ b

namespace Traffic

variable {κ ι : Type} [DecidableEq κ] [DecidableEq ι] {s : Traffic κ ι}
  {l a b : List (Incident κ ι)} {w : ι} {k : κ}

omit [DecidableEq κ] [DecidableEq ι] in
theorem AtRest.open_iff (h : s.AtRest) (w : ι) : s.Open w ↔ w ∈ s.room.waiting := by
  simp [Open, registered, h.coming, h.looking, h.leaving, h.woken]

omit [DecidableEq κ] [DecidableEq ι] in
theorem AtRest.waiting_eq_nil (h : s.AtRest) (halert : s.Alert)
    (hdown : s.room.queue.isDown = true) : s.room.waiting = [] := by
  refine List.eq_nil_iff_forall_not_mem.2 fun w hw ↦ ?_
  rcases halert.down hdown h.closing w hw with hmem | hmem
  · simp [h.looking] at hmem
  · simp [h.leaving] at hmem

omit [DecidableEq κ] [DecidableEq ι] in
theorem AtRest.pending_or_waiting_eq_nil (h : s.AtRest) (halert : s.Alert) :
    s.room.queue.pending = [] ∨ s.room.waiting = [] := by
  cases hdown : s.room.queue.isDown with
  | true => exact .inr (h.waiting_eq_nil halert hdown)
  | false =>
    by_contra hboth
    rw [not_or] at hboth
    obtain ⟨w, hw⟩ := List.exists_mem_of_ne_nil _ hboth.2
    have hbound := halert.up hdown w hw (by simp [h.looking]) (by simp [h.leaving])
    simp only [h.owed, h.coming, h.looking, h.woken, Finset.card_empty, List.length_nil] at hbound
    exact hboth.1 (List.length_eq_zero_iff.1 (Nat.le_zero.1 hbound))

/-- Only a taker takes a key, so a key that was added is taken by somebody or is still marked. -/
theorem Run.taken_or_dirty {x : WorkQueue.Happening κ} (h : Run {} (a ++ .called x :: b) s)
    (hx : x = .added k ∨ x = .repeated k) :
    (∃ w, .ended w (.key k) ∈ b) ∨ k ∈ s.room.queue.dirty := by
  by_cases htaken : ∃ w, .ended w (.key k) ∈ b
  · exact .inl htaken
  · have hqueue := h.queue_run
    rw [filterMap_happenings_append_cons rfl] at hqueue
    refine .inr (WorkQueue.faithful_nil.mem_dirty_of_added hqueue hx fun hmem ↦ ?_)
    obtain ⟨y, hy, hhanded⟩ := List.mem_filterMap.1 hmem
    rcases happening?_eq_some_iff.1 hhanded with rfl | ⟨w, k', rfl, hk⟩
    · exact h.not_called_handed (List.mem_append_right _ (List.mem_cons_of_mem _ hy))
    · cases hk
      exact htaken ⟨w, hy⟩

theorem Run.not_taken_of_downed (h : Run {} (a ++ .called .downed :: b) s) :
    .ended w (.key k) ∉ b := by
  obtain ⟨s₁, s₂, -, hstep, hafter⟩ := h.exists_step
  intro hmem
  exact (hafter.queue_run.of_down hstep.isDown_of_downed).2 k (handed_mem_happenings hmem)

/-- Once nobody waits in a queue that was shut down, whoever was under way or came later was sent away,
unless it was given up. -/
theorem Run.dismissed_of_downed (h : Run {} (a ++ .called .downed :: b) s)
    (hplaced : Placed (a ++ .called .downed :: b) s) (hrest : s.AtRest)
    (hnone : s.room.waiting = []) (hbefore : UnderWay w a ∨ .started w ∈ b) :
    .ended w .shutDown ∈ b ∨ .ended w .dropped ∈ b := by
  have hover : ¬UnderWay w (a ++ .called .downed :: b) := by
    rw [hplaced.underWay_iff, hrest.open_iff, hnone]
    exact List.not_mem_nil
  obtain ⟨-, he, e, rfl⟩ := Lasting.exists_end hover (by rintro ⟨e, he⟩; cases he) hbefore
  cases e with
  | key k => exact absurd he h.not_taken_of_downed
  | shutDown => exact .inl he
  | dropped => exact .inr he

theorem Run.wakeful (h : Run {} l s) : Wakeful l s := by
  have hplaced : Placed l s := placed_nil.run h
  have halert : s.Alert := alert_empty.run placed_nil h
  have hqueue : WorkQueue.Run {} (l.filterMap happening?) s.room.queue := h.queue_run
  constructor
  case awake => exact fun hrest ↦ hrest.pending_or_waiting_eq_nil halert
  case underWay_iff => exact fun hrest w ↦ (hplaced.underWay_iff w).trans (hrest.open_iff w)
  case once =>
    intro w e a b heq
    rw [heq] at h
    obtain ⟨s₁, s₂, hbefore, hstep, -⟩ := h.exists_step
    have hthen := placed_nil.run hbefore
    exact (hthen.underWay_iff w).2 (hstep.open_of_ended)
  case alone =>
    intro k w w' a b c heq
    rw [heq, filterMap_happenings_append_cons rfl, filterMap_happenings_append_cons rfl] at hqueue
    obtain ⟨q, hbefore, hafter⟩ := hqueue.split
    have hfree := ((WorkQueue.faithful_nil.run hbefore).of_handed hafter).2
    refine mem_happenings_returned ?_
    by_contra hnot
    exact hfree ⟨_, _, rfl, hnot⟩
  case called =>
    intro k w a b heq
    rw [heq, filterMap_happenings_append_cons rfl] at hqueue
    obtain ⟨q, hbefore, hafter⟩ := hqueue.split
    obtain ⟨a₁, a₂, ha, hnot⟩ := ((WorkQueue.faithful_nil.run hbefore).of_handed hafter).1
    obtain ⟨b₁, b₂, hsplit, -, hb₂⟩ := exists_called_of_filterMap ha fun _ ↦ nofun
    exact ⟨b₁, b₂, hsplit, fun w' hmem ↦ hnot (hb₂ ▸ handed_mem_happenings hmem)⟩
  case answered =>
    intro k x a b hx heq
    rw [heq] at h
    exact h.taken_or_dirty hx
  case pending_iff =>
    intro hup k
    exact ((WorkQueue.faithful_nil.run hqueue).sound hup).mem_pending_iff k
  case still =>
    intro a b heq w k
    rw [heq] at h
    exact h.not_taken_of_downed
  case closed =>
    intro hrest a b heq
    rw [heq] at h hplaced
    obtain ⟨s₁, s₂, -, hstep, hafter⟩ := h.exists_step
    have hnone := hrest.waiting_eq_nil halert (hafter.isDown hstep.isDown_of_downed)
    exact ⟨hnone, fun w ↦ h.dismissed_of_downed hplaced hrest hnone⟩

/-- However the steps of takers and callers follow each other, nobody waits at rest while a key is
pending, each addition leads to one hand-out, and shutting down sends everybody away.  The same holds if
each comes to an end before the next begins, and then there is rest once everybody woken had a turn. -/
theorem no_wake_up_lost :
    (∀ (l : List (Incident κ ι)) (s : Traffic κ ι), Run {} l s → Wakeful l s) ∧
    ∀ (l : List (Incident κ ι)) (r : WaitingQueue κ ι), Turns {} l r →
      Wakeful l ({ room := r } : Traffic κ ι) ∧
        ∃ l', Turns r l' r.settle.2 ∧ ({ room := r.settle.2 } : Traffic κ ι).AtRest := by
  refine ⟨fun l s h ↦ h.wakeful, fun l r h ↦ ⟨(run_of_turns h placed_nil).wakeful, ?_⟩⟩
  obtain ⟨l', hturns, hwoken⟩ := exists_turns_settle r
  exact ⟨l', hturns, rfl, rfl, rfl, hwoken, rfl, rfl⟩

/-- Takers 1 and 2 wait.  The key for which 1 is woken is taken by 3, who comes later; 2 is woken for
another key and given up, so 1 gets it.  When the queue is shut down 4 is sent away. -/
def stolenWakeUp : List (Incident Nat Nat) :=
  [.started 1, .started 2, .called (.added 7), .started 3, .ended 3 (.key 7), .called (.added 8),
    .ended 2 .dropped, .ended 1 (.key 8), .started 4, .called (.returned 7), .called .downed,
    .ended 4 .shutDown]

theorem no_wake_up_lost_to_late_taker :
    let r : WaitingQueue Nat Nat := { queue := { inFlight := [8], isDown := true }, signal := false }
    Turns {} stolenWakeUp r ∧ ({ room := r } : Traffic Nat Nat).AtRest ∧
      Wakeful stolenWakeUp ({ room := r } : Traffic Nat Nat) := by
  intro r
  have hturns : Turns {} stolenWakeUp r :=
    .cons (Turn.look (w := 1) (by decide)) <| .cons (Turn.look (w := 2) (by decide)) <|
    .cons (Turn.add 7) <| .cons (Turn.look (w := 3) (by decide)) <|
    .cons (Turn.poll (w := 1) (by decide)) <| .cons (Turn.add 8) <|
    .cons (Turn.cancel (w := 2) (by decide)) <| .cons (Turn.poll (w := 1) (by decide)) <|
    .cons (Turn.look (w := 4) (by decide)) <| .cons (Turn.done (k := 7) (by decide)) <|
    .cons Turn.shutDown <| .cons (Turn.poll (w := 4) (by decide)) <| .nil _
  exact ⟨hturns, ⟨rfl, rfl, rfl, rfl, rfl, rfl⟩, (no_wake_up_lost.2 _ _ hturns).1⟩

end Traffic

end TenantAccess
