import TenantAccess.Proofs.Schedule.Occupancy

/-!
# The accounts of a pool

However those who ask, enter, report and give up get in each other's way, the statistics say exactly what
has happened, and no slot is lost or used by two.
-/

namespace TenantAccess

open Notice

/-! ## One after the other -/

namespace WorkerPool

variable {ι : Type} {p : WorkerPool ι} {w : ι}

namespace Answer

def notices (w : ι) : Answer → List (Notice ι)
  | granted => [.seized w, .granted w]
  | waits => []
  | closed => [.refused w]

def holding [DecidableEq ι] (w : ι) (held : Finset ι) : Answer → Finset ι
  | granted => insert w held
  | waits | closed => held

end Answer

theorem acquire_of_closed (h : p.isClosed = true) : p.acquire w = (.closed, p) := by
  simp [acquire, h]

theorem acquire_of_free (h : p.isClosed = false) (hfree : 0 < p.available) :
    p.acquire w = (.granted, enter { p with available := p.available - 1 }) := by
  simp [acquire, h, hfree]

theorem acquire_of_full (h : p.isClosed = false) (hnone : p.available = 0) :
    p.acquire w = (.waits, { p with waiting := p.waiting ++ [w] }) := by
  simp [acquire, h, hnone]

variable [DecidableEq ι]

/-- Something is done at one go with a pool and the permits of those who have one. -/
inductive Turn : WorkerPool ι × Finset ι → List (Notice ι) → WorkerPool ι × Finset ι → Prop
  | acquire {p : WorkerPool ι} {held : Finset ι} {w : ι} (hline : w ∉ p.line) (hheld : w ∉ held) :
    Turn (p, held) (.asked w :: (p.acquire w).1.notices w)
      ((p.acquire w).2, (p.acquire w).1.holding w held)
  | resume {p p' : WorkerPool ι} {held : Finset ι} {w : ι} {a : Answer}
    (h : p.resume? w = some (a, p')) : Turn (p, held) (a.notices w) (p', a.holding w held)
  | timeOut {p : WorkerPool ι} {held : Finset ι} {w : ι} (hw : w ∈ p.waiting) :
    Turn (p, held) [.timedOut w] (p.timeOut w, held)
  | cancel {p : WorkerPool ι} {held : Finset ι} {w : ι} (hw : w ∈ p.line) :
    Turn (p, held) [.cancelled w] (p.cancel w, held)
  | leave {p : WorkerPool ι} {held : Finset ι} {w : ι} (hw : w ∈ held) (o : Outcome) :
    Turn (p, held) [.reported w o] (p.leave o, held.erase w)
  | close {p : WorkerPool ι} {held : Finset ι} : Turn (p, held) [.closed] (p.close, held)

abbrev Turns : WorkerPool ι × Finset ι → List (Notice ι) → WorkerPool ι × Finset ι → Prop :=
  Trace Turn

theorem resume?_of_closed (h : p.isClosed = true) (hw : w ∈ p.assigned) :
    p.resume? w = some (.closed, giveBack { p with assigned := p.assigned.erase w }) := by
  unfold resume?
  rw [if_pos hw]
  exact congrArg some (if_pos h)

theorem resume?_of_open (h : p.isClosed = false) (hw : w ∈ p.assigned) :
    p.resume? w = some (.granted, enter { p with assigned := p.assigned.erase w }) := by
  unfold resume?
  rw [if_pos hw]
  exact congrArg some (if_neg (by simp [h]))

theorem resume?_of_dismissed (hout : w ∉ p.assigned) (hw : w ∈ p.dismissed) :
    p.resume? w = some (.closed, { p with dismissed := p.dismissed.erase w }) := by
  simp [resume?, hout, hw]

theorem closed_of_resume? {a : Answer} {p' : WorkerPool ι} (hclosed : p.isClosed = true)
    (h : p.resume? w = some (a, p')) : a = .closed ∧ p'.isClosed = true := by
  by_cases hw : w ∈ p.assigned
  · rw [resume?_of_closed hclosed hw] at h
    cases h
    exact ⟨rfl, by simpa using hclosed⟩
  · by_cases hdismissed : w ∈ p.dismissed
    · rw [resume?_of_dismissed hw hdismissed] at h
      cases h
      exact ⟨rfl, hclosed⟩
    · simp [resume?, hw, hdismissed] at h

section Turns

variable {s s' : WorkerPool ι × Finset ι} {news l a b : List (Notice ι)}

theorem Turn.closed (h : Turn s news s') (hclosed : s.1.isClosed = true) :
    s'.1.isClosed = true ∧ .granted w ∉ news := by
  cases h with
  | acquire =>
    rw [acquire_of_closed hclosed]
    exact ⟨hclosed, by simp [Answer.notices]⟩
  | resume h =>
    obtain ⟨rfl, hstill⟩ := closed_of_resume? hclosed h
    exact ⟨hstill, by simp [Answer.notices]⟩
  | timeOut => exact ⟨hclosed, by simp⟩
  | cancel => exact ⟨by simpa using hclosed, by simp⟩
  | leave => exact ⟨by simpa [WorkerPool.leave] using hclosed, by simp⟩
  | close => exact ⟨rfl, by simp⟩

theorem Turn.of_closed_mem (h : Turn s news s') (hx : .closed ∈ news) :
    news = [.closed] ∧ s'.1.isClosed = true := by
  cases h with
  | @acquire p held w => cases ha : (p.acquire w).1 <;> simp [ha, Answer.notices] at hx
  | @resume _ _ _ _ a => cases a <;> simp [Answer.notices] at hx
  | timeOut | cancel | leave => simp at hx
  | close => exact ⟨rfl, rfl⟩

theorem Turns.not_granted (h : Turns s (a ++ .closed :: b) s') : .granted w ∉ b := by
  obtain ⟨s₁, s₂, -, hclose, hafter⟩ := h.exists_step fun hturn hx ↦ (hturn.of_closed_mem hx).1
  have hclosed := (hclose.of_closed_mem (List.mem_singleton_self _)).2
  refine (hafter.invariant (I := fun l t ↦ t.1.isClosed = true ∧ .granted w ∉ l) (l := [])
    (fun hbefore hturn ↦ ?_) ⟨hclosed, List.not_mem_nil⟩).2
  obtain ⟨hstill, hnot⟩ := hturn.closed (w := w) hbefore.1
  exact ⟨hstill, by simp [hbefore.2, hnot]⟩

end Turns

/-- To time out in line is to give up and be counted. -/
theorem timeOut_eq (hline : p.line.Nodup) (hw : w ∈ p.waiting) :
    p.timeOut w = { p.cancel w with stats := p.stats.timeOut } := by
  have hassigned : w ∉ p.assigned := fun hmem ↦
    List.disjoint_of_nodup_append (List.nodup_append.1 hline).1 hw hmem
  have hdismissed : w ∉ p.dismissed := fun hmem ↦
    List.disjoint_of_nodup_append hline (List.mem_append_left _ hw) hmem
  simp [timeOut, cancel, hassigned, List.erase_of_not_mem hdismissed]

end WorkerPool

namespace Occupancy

variable {ι : Type} [DecidableEq ι] {p p' : WorkerPool ι} {held held' : Finset ι}
  {l l' : List (Notice ι)} {w : ι}

def ofPool (s : WorkerPool ι × Finset ι) : Occupancy ι := { pool := s.1, held := s.2 }

theorem run_ask (hline : w ∉ p.line) (hheld : w ∉ held) :
    Run { pool := p, held } [.asked w] { pool := p, held, asking := {w} } := by
  have hstep := Step.ask (s := { pool := p, held }) (w := w) (by simp) hline (by simp) hheld
  rw [insert_empty_eq] at hstep
  exact .single hstep

theorem run_enter (p : WorkerPool ι) (held : Finset ι) (w : ι) :
    Run { pool := p, entering := {w}, held } [.granted w]
      { pool := p.enter, held := insert w held } := by
  have hstep := Step.enter (s := { pool := p, entering := {w}, held }) (Finset.mem_singleton_self w)
  rw [Finset.erase_singleton] at hstep
  exact .single hstep

theorem run_acquire (p : WorkerPool ι) (held : Finset ι) (w : ι) :
    Run { pool := p, held, asking := {w} } ((p.acquire w).1.notices w)
      { pool := (p.acquire w).2, held := (p.acquire w).1.holding w held } := by
  have hw : w ∈ ({ pool := p, held, asking := {w} } : Occupancy ι).asking :=
    Finset.mem_singleton_self w
  cases hclosed : p.isClosed with
  | true =>
    rw [WorkerPool.acquire_of_closed hclosed]
    have hstep := Step.refuse hw hclosed
    rw [Finset.erase_singleton] at hstep
    exact .single hstep
  | false =>
    rcases Nat.eq_zero_or_pos p.available with hnone | hfree
    · rw [WorkerPool.acquire_of_full hclosed hnone]
      have hstep := Step.lineUp hw hclosed hnone
      rw [Finset.erase_singleton] at hstep
      exact .single hstep
    · rw [WorkerPool.acquire_of_free hclosed hfree]
      have hstep := Step.seize hw hclosed hfree
      rw [Finset.erase_singleton, insert_empty_eq] at hstep
      exact .cons hstep (run_enter _ held w)

theorem run_resume {a : WorkerPool.Answer} (h : p.resume? w = some (a, p')) :
    Run { pool := p, held } (a.notices w) { pool := p', held := a.holding w held } := by
  by_cases hw : w ∈ p.assigned
  · cases hclosed : p.isClosed with
    | true =>
      rw [WorkerPool.resume?_of_closed hclosed hw] at h
      cases h
      exact .single (Step.sendBack hw hclosed)
    | false =>
      rw [WorkerPool.resume?_of_open hclosed hw] at h
      cases h
      have hstep := Step.resume (s := { pool := p, held }) hw hclosed
      rw [insert_empty_eq] at hstep
      exact .cons hstep (run_enter _ held w)
  · by_cases hdismissed : w ∈ p.dismissed
    · rw [WorkerPool.resume?_of_dismissed hw hdismissed] at h
      cases h
      exact .single (Step.sendAway hdismissed)
    · simp [WorkerPool.resume?, hw, hdismissed] at h

theorem run_of_turn {s s' : WorkerPool ι × Finset ι} (h : WorkerPool.Turn s l s')
    (hline : s.1.line.Nodup) : Run (ofPool s) l (ofPool s') := by
  cases h with
  | acquire hline' hheld => exact (run_ask hline' hheld).trans (run_acquire ..)
  | resume h => exact run_resume h
  | @timeOut p held w hw =>
    have hstep := Step.timeOut (s := ofPool (p, held)) (WorkerPool.mem_line_of_waiting hw)
    rw [ofPool, WorkerPool.timeOut_eq hline hw]
    exact .single hstep
  | cancel hw => exact .single (Step.cancel hw)
  | @leave p held w hw o =>
    have hreport := Step.report (s := ofPool (p, held)) hw o
    exact .cons hreport (.single (Step.release Nat.one_pos))
  | close => exact .single Step.close

theorem run_of_turns {s s' : WorkerPool ι × Finset ι} (h : WorkerPool.Turns s l s')
    (hplaced : Placed l' (ofPool s)) : Run (ofPool s) l (ofPool s') :=
  h.refine (fun hplaced hturn ↦ run_of_turn hturn hplaced.nodup) Placed.step hplaced

/-! ## What is promised -/

/-- Every slot and every permit stays where it is, and of those who have asked only `w` goes. -/
structure Withdrawn (w : ι) (s s' : Occupancy ι) : Prop where
  spare : s'.pool.spare = s.pool.spare
  entering : s'.entering = s.entering
  held : s'.held = s.held
  leaving : s'.leaving = s.leaving
  isClosed : s'.pool.isClosed = s.pool.isClosed
  others : ∀ v, v ∈ s'.asking ∨ v ∈ s'.pool.line ↔ v ≠ w ∧ (v ∈ s.asking ∨ v ∈ s.pool.line)

variable {s s' : Occupancy ι} {news a b : List (Notice ι)} {x : Notice ι} {n : Nat} {o : Outcome}

theorem Step.withdrawn (h : Step s [x] s') (hplaced : Placed l s)
    (hx : x = .refused w ∨ x = .timedOut w ∨ x = .cancelled w) : Withdrawn w s s' := by
  have hothers (v : ι) : v ∈ s'.asking ∨ v ∈ s'.pool.line ↔
      v ≠ w ∧ (v ∈ s.asking ∨ v ∈ s.pool.line) := by
    rw [← (hplaced.step h).asking_iff, ← hplaced.asking_iff, asking_snoc]
    rcases hx with rfl | rfl | rfl <;> simp [Settles, eq_comm]
  cases h with
  | refuse | sendAway => exact ⟨rfl, rfl, rfl, rfl, rfl, hothers⟩
  | sendBack hw =>
    refine ⟨?_, rfl, rfl, rfl, WorkerPool.isClosed_giveBack _, hothers⟩
    rw [WorkerPool.spare_giveBack, WorkerPool.spare_erase_assigned hw]
  | timeOut hw | cancel hw =>
    exact ⟨WorkerPool.spare_cancel _ _, rfl, rfl, rfl, WorkerPool.isClosed_cancel _ _, hothers⟩
  | ask | seize | resume | enter | report | close => simp at hx

theorem Step.mem_of_settles (h : Step s [x] s') (hx : Settles w x) :
    w ∈ s.asking ∨ w ∈ s.pool.line := by
  cases h with
  | seize hw | refuse hw =>
    simp only [Settles, Notice.seized.injEq, Notice.refused.injEq, reduceCtorEq, or_false,
      false_or] at hx
    exact .inl (hx ▸ hw)
  | resume hw | sendBack hw =>
    simp only [Settles, Notice.seized.injEq, Notice.refused.injEq, reduceCtorEq, or_false,
      false_or] at hx
    exact .inr (hx ▸ WorkerPool.mem_line_of_assigned hw)
  | sendAway hw =>
    simp only [Settles, Notice.refused.injEq, reduceCtorEq, or_false, false_or] at hx
    exact .inr (hx ▸ WorkerPool.mem_line_of_dismissed hw)
  | timeOut hw | cancel hw =>
    simp only [Settles, Notice.timedOut.injEq, Notice.cancelled.injEq, reduceCtorEq, or_false,
      false_or] at hx
    exact .inr (hx ▸ hw)
  | ask | enter | report | close => simp [Settles] at hx

theorem Step.mem_entering_of_granted (h : Step s [.granted w] s') : w ∈ s.entering := by
  cases h
  assumption

theorem Step.closed (h : Step s news s') (hclosed : s.pool.isClosed = true) :
    s'.pool.isClosed = true ∧ s'.entering ⊆ s.entering := by
  cases h with
  | seize _ hopen | lineUp _ hopen | resume _ hopen => simp [hclosed] at hopen
  | sendBack | release => exact ⟨by simpa using hclosed, subset_rfl⟩
  | timeOut | cancel => exact ⟨by simpa using hclosed, subset_rfl⟩
  | enter => exact ⟨hclosed, Finset.erase_subset _ _⟩
  | ask | refuse | sendAway | report => exact ⟨hclosed, subset_rfl⟩
  | close => exact ⟨rfl, subset_rfl⟩

theorem Run.closed (h : Run s l s') (hclosed : s.pool.isClosed = true) :
    s'.pool.isClosed = true ∧ s'.entering ⊆ s.entering :=
  h.invariant (I := fun _ t ↦ t.pool.isClosed = true ∧ t.entering ⊆ s.entering) (l := [])
    (fun hbefore hstep ↦ (hstep.closed hbefore.1).imp_right (·.trans hbefore.2))
    ⟨hclosed, subset_rfl⟩

theorem Step.isClosed_of_closed (h : Step s [.closed] s') :
    s'.pool.isClosed = true ∧ s'.entering = s.entering := by
  cases h
  exact ⟨rfl, rfl⟩

theorem Step.open_of_seized (h : Step s [.seized w] s') : s.pool.isClosed = false := by
  cases h <;> assumption

/-- What is promised of a pool of `n` slots in use with the history `l`. -/
structure Accounted (n : Nat) (l : List (Notice ι)) (s : Occupancy ι) : Prop where
  maxWorkers : s.pool.stats.maxWorkers = n
  /-- In flight is who was granted a permit and has not reported on it. -/
  out_iff : ∀ w, w ∈ s.held ↔ Out w l
  inFlight : s.pool.stats.inFlight = s.held.card
  inFlight_le : s.pool.stats.inFlight ≤ n
  balance : l.countP isGrant = s.pool.stats.inFlight + s.pool.stats.succeeded +
    s.pool.stats.failed + s.pool.stats.aborted
  tally : ∀ o, s.pool.stats.tally o = l.countP (reports o)
  /-- Nobody reports but on a permit on which there is no report. -/
  once : ∀ w o a b, l = a ++ .reported w o :: b → Out w a
  /-- Nobody is granted a permit but for a slot of its own. -/
  entered : ∀ w a b, l = a ++ .granted w :: b → Entering w a
  /-- A request has one end. -/
  asked : ∀ w x a b, Settles w x → l = a ++ x :: b → Asking w a
  peak : IsGreatest {m | ∃ front, front <+: l ∧ m = occupied front} s.pool.stats.peak
  occupied_eq : s.pool.stats.inFlight = occupied l
  timeouts : s.pool.stats.timeouts = l.countP isTimeOut
  /-- Who waits too long is counted, and that is all. -/
  timedOut : ∀ w s', Step s [.timedOut w] s' → Withdrawn w s s' ∧
    s'.pool.stats = { s.pool.stats with timeouts := s.pool.stats.timeouts + 1 }
  /-- Who is refused or gives up is not even counted. -/
  refused : ∀ w x s', x = .refused w ∨ x = .cancelled w → Step s [x] s' →
    Withdrawn w s s' ∧ s'.pool.stats = s.pool.stats
  total : s.pool.available + s.pool.assigned.length + s.entering.card + s.pool.stats.inFlight +
    s.leaving = n
  free : s.AtRest → s.pool.available + s.pool.stats.inFlight = n
  /-- After closing nobody gets a slot, and nobody a permit who had none. -/
  still : ∀ a b, l = a ++ .closed :: b → ∀ w, .seized w ∉ b ∧ (.granted w ∈ b → Entering w a)
  /-- Whether or not the pool is closed, who has a permit can report on it. -/
  reports : ∀ w, Out w l → ∀ o, ∃ s', Step s [.reported w o] s' ∧
    s'.pool.isClosed = s.pool.isClosed ∧ s'.pool.stats.tally o = s.pool.stats.tally o + 1 ∧
    s'.pool.stats.inFlight + 1 = s.pool.stats.inFlight

omit [DecidableEq ι] in
theorem placed_ofSize (n : Nat) : Placed [] (ofPool (.ofSize n, (∅ : Finset ι))) where
  nodup := .nil
  asking w hw := by simp [ofPool] at hw
  line w hw := by simp [ofPool, WorkerPool.ofSize, WorkerPool.line] at hw
  entering w hw := by simp [ofPool] at hw
  asking_iff w := by simp [Asking, Lasting.not_nil, ofPool, WorkerPool.ofSize, WorkerPool.line]
  entering_iff w := by simp [Entering, Lasting.not_nil, ofPool]
  out_iff w := by simp [Out, Lasting.not_nil, ofPool]

omit [DecidableEq ι] in
theorem slotted_ofSize (n : Nat) : Slotted n (ofPool (.ofSize n, (∅ : Finset ι))) where
  total := by simp [ofPool, WorkerPool.ofSize, WorkerPool.spare]
  inFlight := rfl
  maxWorkers := rfl

theorem Run.exists_placed (h : Run (ofPool (.ofSize n, (∅ : Finset ι))) (a ++ x :: b) s) :
    ∃ s₁ s₂, Placed a s₁ ∧ Step s₁ [x] s₂ ∧ Run s₂ b s := by
  obtain ⟨s₁, s₂, hbefore, hstep, hafter⟩ := h.exists_step
  exact ⟨s₁, s₂, (placed_ofSize n).run hbefore, hstep, hafter⟩

theorem Run.not_seized_of_closed
    (h : Run (ofPool (.ofSize n, (∅ : Finset ι))) (a ++ .closed :: b) s) : .seized w ∉ b := by
  obtain ⟨s₁, s₂, -, hclose, hafter⟩ := h.exists_placed
  intro hmem
  obtain ⟨b₁, b₂, rfl⟩ := List.append_of_mem hmem
  obtain ⟨s₃, s₄, hbetween, hstep, -⟩ := hafter.exists_step
  have hstill := (hbetween.closed hclose.isClosed_of_closed.1).1
  simp [hstep.open_of_seized] at hstill

/-- Whoever gets a permit after closing had its slot before. -/
theorem Run.entering_of_granted_after_closed
    (h : Run (ofPool (.ofSize n, (∅ : Finset ι))) (a ++ .closed :: b) s) (hmem : .granted w ∈ b) :
    Entering w a := by
  obtain ⟨s₁, s₂, hbefore, hclose, hafter⟩ := h.exists_placed
  obtain ⟨hclosed, hsame⟩ := hclose.isClosed_of_closed
  obtain ⟨b₁, b₂, rfl⟩ := List.append_of_mem hmem
  obtain ⟨s₃, s₄, hbetween, hstep, -⟩ := hafter.exists_step
  have hinside := (hbetween.closed hclosed).2 hstep.mem_entering_of_granted
  exact (hbefore.entering_iff w).2 (hsame ▸ hinside)

theorem exists_report (hslotted : Slotted n s) (hw : w ∈ s.held) (o : Outcome) :
    ∃ s', Step s [.reported w o] s' ∧ s'.pool.isClosed = s.pool.isClosed ∧
      s'.pool.stats.tally o = s.pool.stats.tally o + 1 ∧
      s'.pool.stats.inFlight + 1 = s.pool.stats.inFlight := by
  have hpos : 0 < s.pool.stats.inFlight := by
    rw [hslotted.inFlight]
    exact Finset.card_pos.2 ⟨w, hw⟩
  refine ⟨_, .report hw o, rfl, ?_, ?_⟩
  · cases o <;> rfl
  · cases o <;> exact Nat.sub_add_cancel hpos

theorem Run.accounted (h : Run (ofPool (.ofSize n, (∅ : Finset ι))) l s) : Accounted n l s := by
  obtain ⟨hplaced, hslotted, hbooks⟩ :
      Placed l s ∧ Slotted n s ∧ PoolStats.Books l s.pool.stats := by
    refine h.invariant (I := fun l s ↦ Placed l s ∧ Slotted n s ∧ PoolStats.Books l s.pool.stats)
      (l := []) ?_ ⟨placed_ofSize n, slotted_ofSize n, PoolStats.books_nil n⟩
    exact fun h hstep ↦ ⟨h.1.step hstep, h.2.1.step h.1 hstep, books_step h.2.2 h.2.1 hstep⟩
  have htotal := hslotted.total
  rw [← hslotted.inFlight, WorkerPool.spare] at htotal
  constructor
  case maxWorkers => exact hslotted.maxWorkers
  case out_iff => exact fun w ↦ (hplaced.out_iff w).symm
  case inFlight => exact hslotted.inFlight
  case inFlight_le => omega
  case balance => exact hbooks.balance
  case tally => exact hbooks.tally
  case once =>
    intro w o a b heq
    rw [heq] at h
    obtain ⟨s₁, s₂, hbefore, hstep, -⟩ := h.exists_placed
    exact (hbefore.out_iff w).2 hstep.mem_held_of_reported
  case entered =>
    intro w a b heq
    rw [heq] at h
    obtain ⟨s₁, s₂, hbefore, hstep, -⟩ := h.exists_placed
    exact (hbefore.entering_iff w).2 hstep.mem_entering_of_granted
  case asked =>
    intro w x a b hx heq
    rw [heq] at h
    obtain ⟨s₁, s₂, hbefore, hstep, -⟩ := h.exists_placed
    exact (hbefore.asking_iff w).2 (hstep.mem_of_settles hx)
  case peak => exact hbooks.peak
  case occupied_eq => exact hbooks.inFlight_eq
  case timeouts => exact hbooks.timeouts
  case timedOut =>
    exact fun w s' hstep ↦ ⟨hstep.withdrawn hplaced (.inr (.inl rfl)), hstep.stats_eq⟩
  case refused =>
    rintro w x s' (rfl | rfl) hstep
    · exact ⟨hstep.withdrawn hplaced (.inl rfl), hstep.stats_eq⟩
    · exact ⟨hstep.withdrawn hplaced (.inr (.inr rfl)), hstep.stats_eq⟩
  case total => omega
  case free =>
    intro hrest
    simp only [hrest.assigned, hrest.entering, hrest.leaving, List.length_nil,
      Finset.card_empty] at htotal
    omega
  case still =>
    intro a b heq w
    rw [heq] at h
    exact ⟨h.not_seized_of_closed, h.entering_of_granted_after_closed⟩
  case reports => exact fun w hout ↦ exists_report hslotted ((hplaced.out_iff w).1 hout)

/-- The statistics of a pool are true and no slot is lost, however its users get in each other's way.
The same holds if each comes to an end before the next begins.  Then every slot is free or in use unless
it was just set aside, and nobody gets a permit after closing. -/
theorem slots_accounted_for (n : Nat) :
    (∀ (l : List (Notice ι)) (s : Occupancy ι),
      Run (ofPool (.ofSize n, ∅)) l s → Accounted n l s) ∧
    ∀ (l : List (Notice ι)) (s : WorkerPool ι × Finset ι), WorkerPool.Turns (.ofSize n, ∅) l s →
      Accounted n l (ofPool s) ∧
        (s.1.assigned = [] → s.1.available + s.1.stats.inFlight = n) ∧
        ∀ a b, l = a ++ .closed :: b → ∀ w, .granted w ∉ b := by
  refine ⟨fun l s h ↦ h.accounted, fun l s h ↦ ?_⟩
  have haccounted := (run_of_turns h (placed_ofSize n)).accounted
  refine ⟨haccounted, fun hassigned ↦ haccounted.free ⟨rfl, rfl, rfl, hassigned⟩, ?_⟩
  rintro a b rfl w
  exact WorkerPool.Turns.not_granted h

/-- Of two slots one goes on from 1 to 3.  4 waits too long and 5 gives up; 6 comes after closing, when 2
and 3 are still at work. -/
def handedOn : List (Notice Nat) :=
  [.asked 1, .seized 1, .granted 1, .asked 2, .seized 2, .granted 2, .asked 3, .asked 4, .asked 5,
    .timedOut 4, .reported 1 .succeeded, .seized 3, .granted 3, .cancelled 5, .closed, .asked 6,
    .refused 6, .reported 2 .aborted]

open WorkerPool (Turn) in
theorem slots_accounted_for_handed_on :
    let stats : PoolStats := {
      maxWorkers := 2, inFlight := 1, peak := 2, succeeded := 1, aborted := 1, timeouts := 1 }
    let p : WorkerPool Nat := { stats, available := 1, isClosed := true }
    WorkerPool.Turns (.ofSize 2, ∅) handedOn (p, {3}) ∧ Accounted 2 handedOn (ofPool (p, {3})) := by
  intro stats p
  have hturns : WorkerPool.Turns (.ofSize 2, ∅) handedOn (p, {3}) := by
    refine .cons (Turn.acquire (w := 1) (by decide) (by decide)) <|
      .cons (Turn.acquire (w := 2) (by decide) (by decide)) <|
      .cons (Turn.acquire (w := 3) (by decide) (by decide)) <|
      .cons (Turn.acquire (w := 4) (by decide) (by decide)) <|
      .cons (Turn.acquire (w := 5) (by decide) (by decide)) <|
      .cons (Turn.timeOut (w := 4) (by decide)) <|
      .cons (Turn.leave (w := 1) (by decide) .succeeded) <| .cons (Turn.resume (w := 3) (a := .granted) rfl) ?_
    exact .cons (Turn.cancel (w := 5) (by decide)) <| .cons Turn.close <|
      .cons (Turn.acquire (w := 6) (by decide) (by decide)) <|
      .cons (Turn.leave (w := 2) (by decide) .aborted) <| .nil _
  exact ⟨hturns, ((slots_accounted_for 2).2 _ _ hturns).1⟩

end Occupancy

end TenantAccess
