import Mathlib.Data.Finset.Card
import Mathlib.Order.Bounds.Defs
import TenantAccess.Proofs.Schedule.Slots
import TenantAccess.Proofs.Schedule.Trace

/-!
# Slots changing hands

To have a slot and to be counted are two things, and so are to report and to give the slot back.  Many
ask, enter and leave side by side, so between the two there may be any steps of others.
-/

namespace TenantAccess

/-! ## The line -/

namespace WorkerPool

variable {ι : Type} {w : ι}

/-- Those who have asked and have not been told what became of it. -/
def line (p : WorkerPool ι) : List ι := p.waiting ++ p.assigned ++ p.dismissed

section GiveBack

variable (p : WorkerPool ι)

theorem line_giveBack_perm : p.giveBack.line.Perm p.line := by
  unfold giveBack line
  split
  · exact .refl _
  · next w rest hwaiting =>
    rw [hwaiting]
    refine List.Perm.append_right _ ?_
    rw [← List.append_assoc]
    exact List.perm_append_singleton w (rest ++ p.assigned)

@[simp] theorem spare_giveBack : p.giveBack.spare = p.spare + 1 := by
  unfold giveBack spare
  split
  · dsimp only
    omega
  · simp only [List.length_append, List.length_singleton]
    omega

@[simp] theorem stats_giveBack : p.giveBack.stats = p.stats := by
  unfold giveBack
  split <;> rfl

@[simp] theorem isClosed_giveBack : p.giveBack.isClosed = p.isClosed := by
  unfold giveBack
  split <;> rfl

end GiveBack

theorem line_lineUp_perm (p : WorkerPool ι) (w : ι) :
    ({ p with waiting := p.waiting ++ [w] } : WorkerPool ι).line.Perm (w :: p.line) := by
  simp only [line, List.append_assoc]
  exact List.perm_middle

/-- Closing sends those away who wait, and leaves those alone who were set aside a slot. -/
theorem line_close_perm (p : WorkerPool ι) : p.close.line.Perm p.line := by
  change ([] ++ p.assigned ++ (p.dismissed ++ p.waiting)).Perm
    (p.waiting ++ p.assigned ++ p.dismissed)
  rw [List.nil_append, ← List.append_assoc, List.append_assoc p.waiting]
  exact List.perm_append_comm

variable [DecidableEq ι]

section Leave

variable {p : WorkerPool ι}

omit [DecidableEq ι] in
theorem mem_line_of_waiting (hw : w ∈ p.waiting) : w ∈ p.line := by simp [line, hw]

omit [DecidableEq ι] in
theorem mem_line_of_assigned (hw : w ∈ p.assigned) : w ∈ p.line := by simp [line, hw]

omit [DecidableEq ι] in
theorem mem_line_of_dismissed (hw : w ∈ p.dismissed) : w ∈ p.line := by simp [line, hw]

theorem spare_erase_assigned (hw : w ∈ p.assigned) :
    ({ p with assigned := p.assigned.erase w } : WorkerPool ι).spare + 1 = p.spare := by
  have hlength := List.length_erase_of_mem hw
  have hpos := List.length_pos_of_mem hw
  simp only [spare]
  omega

theorem line_erase_assigned (h : p.line.Nodup) (hw : w ∈ p.assigned) :
    ({ p with assigned := p.assigned.erase w } : WorkerPool ι).line = p.line.erase w := by
  have hwaiting : w ∉ p.waiting := fun hmem ↦
    List.disjoint_of_nodup_append (List.nodup_append.1 h).1 hmem hw
  rw [line, line, List.erase_append_left _ (List.mem_append_right _ hw),
    List.erase_append_right _ hwaiting]

theorem line_erase_dismissed (h : p.line.Nodup) (hw : w ∈ p.dismissed) :
    ({ p with dismissed := p.dismissed.erase w } : WorkerPool ι).line = p.line.erase w := by
  have hfront : w ∉ p.waiting ++ p.assigned := fun hmem ↦ List.disjoint_of_nodup_append h hmem hw
  rw [line, line, List.erase_append_right _ hfront]

end Leave

section Cancel

variable (p : WorkerPool ι) (w : ι)

theorem line_cancel_perm (h : p.line.Nodup) : (p.cancel w).line.Perm (p.line.erase w) := by
  unfold cancel
  split
  · next hw => exact (line_giveBack_perm _).trans (.of_eq (line_erase_assigned h hw))
  · next hw =>
    refine .of_eq ?_
    by_cases hwaiting : w ∈ p.waiting
    · have hdismissed : w ∉ p.dismissed := fun hmem ↦
        List.disjoint_of_nodup_append h (List.mem_append_left _ hwaiting) hmem
      rw [line, line, List.erase_append_left _ (List.mem_append_left _ hwaiting),
        List.erase_append_left _ hwaiting, List.erase_of_not_mem hdismissed]
    · rw [line, line, List.erase_of_not_mem hwaiting,
        List.erase_append_right _ (by simp [hwaiting, hw])]

@[simp] theorem spare_cancel : (p.cancel w).spare = p.spare := by
  unfold cancel
  split
  · next hw => rw [spare_giveBack, spare_erase_assigned hw]
  · rfl

@[simp] theorem stats_cancel : (p.cancel w).stats = p.stats := by
  unfold cancel
  split <;> simp

@[simp] theorem isClosed_cancel : (p.cancel w).isClosed = p.isClosed := by
  unfold cancel
  split <;> simp

end Cancel

end WorkerPool

/-! ## Histories -/

inductive Notice (ι : Type) where
  | asked (w : ι)
  /-- A slot was taken. -/
  | seized (w : ι)
  /-- Whoever took the slot is counted and has its permit. -/
  | granted (w : ι)
  | refused (w : ι)
  | timedOut (w : ι)
  | cancelled (w : ι)
  | reported (w : ι) (o : Outcome)
  | closed

namespace Notice

variable {ι : Type} {l : List (Notice ι)} {x : Notice ι} {v w : ι} {o : Outcome}

def Settles (w : ι) (x : Notice ι) : Prop :=
  x = seized w ∨ x = refused w ∨ x = timedOut w ∨ x = cancelled w

/-- `w` has asked, and does not know yet what becomes of it. -/
def Asking (w : ι) (l : List (Notice ι)) : Prop := Lasting (asked w) (Settles w) l

/-- `w` has a slot and is not counted yet. -/
def Entering (w : ι) (l : List (Notice ι)) : Prop := Lasting (seized w) (· = granted w) l

/-- The permit of `w` was granted and there is no report on it. -/
def Out (w : ι) (l : List (Notice ι)) : Prop := Lasting (granted w) (∃ o, · = reported w o) l

theorem asking_snoc :
    Asking w (l ++ [x]) ↔ x = asked w ∨ ¬Settles w x ∧ Asking w l := Lasting.snoc_iff

theorem entering_snoc :
    Entering w (l ++ [x]) ↔ x = seized w ∨ x ≠ granted w ∧ Entering w l := Lasting.snoc_iff

theorem out_snoc :
    Out w (l ++ [x]) ↔ x = granted w ∨ (¬∃ o, x = reported w o) ∧ Out w l := Lasting.snoc_iff

def isGrant : Notice ι → Bool
  | granted _ => true
  | _ => false

def isTimeOut : Notice ι → Bool
  | timedOut _ => true
  | _ => false

def reports (o : Outcome) : Notice ι → Bool
  | reported _ o' => o' = o
  | _ => false

def occupied (l : List (Notice ι)) : Nat :=
  l.countP isGrant -
    (l.countP (reports .succeeded) + l.countP (reports .failed) + l.countP (reports .aborted))

end Notice

namespace PoolStats

variable {ι : Type} {l : List (Notice ι)} {st : PoolStats}

def tally (st : PoolStats) : Outcome → Nat
  | .succeeded => st.succeeded
  | .failed => st.failed
  | .aborted => st.aborted

def told (st : PoolStats) : Notice ι → PoolStats
  | .granted _ => st.enter
  | .reported _ o => st.leave o
  | .timedOut _ => st.timeOut
  | _ => st

/-- The statistics are those of the history. -/
structure Books (l : List (Notice ι)) (st : PoolStats) : Prop where
  balance : l.countP Notice.isGrant = st.inFlight + st.succeeded + st.failed + st.aborted
  tally : ∀ o, st.tally o = l.countP (Notice.reports o)
  timeouts : st.timeouts = l.countP Notice.isTimeOut
  peak : IsGreatest {m | ∃ front, front <+: l ∧ m = Notice.occupied front} st.peak

theorem inFlight_eq_occupied
    (hbalance : l.countP Notice.isGrant = st.inFlight + st.succeeded + st.failed + st.aborted)
    (htally : ∀ o, st.tally o = l.countP (Notice.reports o)) :
    st.inFlight = Notice.occupied l := by
  have hsucceeded : st.succeeded = _ := htally .succeeded
  have hfailed : st.failed = _ := htally .failed
  have haborted : st.aborted = _ := htally .aborted
  unfold Notice.occupied
  omega

theorem Books.inFlight_eq (h : Books l st) : st.inFlight = Notice.occupied l :=
  inFlight_eq_occupied h.balance h.tally

theorem peak_told (h : st.inFlight ≤ st.peak) (x : Notice ι) :
    (st.told x).peak = max st.peak (st.told x).inFlight := by
  cases x with
  | granted w => rfl
  | reported w o =>
    have hless : st.inFlight - 1 ≤ st.peak := by omega
    cases o <;> exact (Nat.max_eq_left hless).symm
  | asked | seized | refused | timedOut | cancelled | closed => exact (Nat.max_eq_left h).symm

theorem isGreatest_snoc {p : Nat} {x : Notice ι}
    (h : IsGreatest {m | ∃ front, front <+: l ∧ m = Notice.occupied front} p) :
    IsGreatest {m | ∃ front, front <+: l ++ [x] ∧ m = Notice.occupied front}
      (max p (Notice.occupied (l ++ [x]))) := by
  obtain ⟨⟨front, hfront, hp⟩, hbound⟩ := h
  constructor
  · rcases Nat.le_total p (Notice.occupied (l ++ [x])) with hle | hle
    · exact ⟨l ++ [x], List.prefix_rfl, Nat.max_eq_right hle⟩
    · exact ⟨front, hfront.trans (List.prefix_append l [x]), (Nat.max_eq_left hle).trans hp⟩
  · rintro m ⟨front', hfront', rfl⟩
    rcases List.prefix_concat_iff.1 hfront' with rfl | hfront'
    · exact Nat.le_max_right ..
    · exact (hbound ⟨front', hfront', rfl⟩).trans (Nat.le_max_left ..)

theorem Books.told (h : Books l st) {x : Notice ι}
    (hout : ∀ w o, x = .reported w o → 0 < st.inFlight) : Books (l ++ [x]) (st.told x) := by
  have hbalance : (l ++ [x]).countP Notice.isGrant = (st.told x).inFlight +
      (st.told x).succeeded + (st.told x).failed + (st.told x).aborted := by
    have hbefore := h.balance
    rw [List.countP_append, List.countP_singleton]
    cases x with
    | granted w =>
      simp only [PoolStats.told, enter, Notice.isGrant, if_true]
      omega
    | reported w o =>
      -- the count in flight goes down only where it can
      have hpos := hout w o rfl
      cases o <;>
        simp only [PoolStats.told, leave, Notice.isGrant, Bool.false_eq_true, if_false] <;>
        omega
    | asked | seized | refused | timedOut | cancelled | closed => exact hbefore
  have htally : ∀ o, (st.told x).tally o = (l ++ [x]).countP (Notice.reports o) := by
    intro o
    have hbefore := h.tally o
    rw [List.countP_append, List.countP_singleton, ← hbefore]
    cases x with
    | reported w o' => cases o' <;> cases o <;> rfl
    | asked | seized | granted | refused | timedOut | cancelled | closed => cases o <;> rfl
  have htimeouts : (st.told x).timeouts = (l ++ [x]).countP Notice.isTimeOut := by
    have hbefore := h.timeouts
    rw [List.countP_append, List.countP_singleton, ← hbefore]
    cases x with
    | reported w o => cases o <;> rfl
    | asked | seized | granted | refused | timedOut | cancelled | closed => rfl
  refine ⟨hbalance, htally, htimeouts, ?_⟩
  have hless : st.inFlight ≤ st.peak := h.peak.2 ⟨l, List.prefix_rfl, h.inFlight_eq⟩
  rw [peak_told hless, inFlight_eq_occupied hbalance htally]
  exact isGreatest_snoc h.peak

theorem books_nil (n : Nat) : Books ([] : List (Notice ι)) { maxWorkers := n } where
  balance := rfl
  tally o := by cases o <;> rfl
  timeouts := rfl
  peak := ⟨⟨[], List.prefix_rfl, rfl⟩, by
    rintro m ⟨front, hfront, rfl⟩
    rw [List.prefix_nil.1 hfront]
    exact Nat.le_refl 0⟩

end PoolStats

structure Occupancy (ι : Type) where
  pool : WorkerPool ι
  /-- Those who have asked and are about to take a slot or to line up. -/
  asking : Finset ι := ∅
  /-- Those who have a slot and are not counted yet. -/
  entering : Finset ι := ∅
  held : Finset ι := ∅
  /-- Slots that were reported on and are not back yet. -/
  leaving : Nat := 0

namespace Occupancy

variable {ι : Type} {s s' : Occupancy ι} {l l' news : List (Notice ι)} {v w : ι} {n : Nat}

/-- Nobody is in the middle of anything, and no slot is on its way to somebody in line. -/
structure AtRest (s : Occupancy ι) : Prop where
  asking : s.asking = ∅
  entering : s.entering = ∅
  leaving : s.leaving = 0
  assigned : s.pool.assigned = []

variable [DecidableEq ι]

/-- One step of somebody, and what is told of it. -/
inductive Step (s : Occupancy ι) : List (Notice ι) → Occupancy ι → Prop
  | ask {w : ι} (hasking : w ∉ s.asking) (hline : w ∉ s.pool.line) (hentering : w ∉ s.entering)
    (hheld : w ∉ s.held) : Step s [.asked w] { s with asking := insert w s.asking }
  | seize {w : ι} (hw : w ∈ s.asking) (hopen : s.pool.isClosed = false)
    (hfree : 0 < s.pool.available) :
    Step s [.seized w] { s with
      pool := { s.pool with available := s.pool.available - 1 }
      asking := s.asking.erase w
      entering := insert w s.entering }
  | lineUp {w : ι} (hw : w ∈ s.asking) (hopen : s.pool.isClosed = false)
    (hnone : s.pool.available = 0) :
    Step s [] { s with
      pool := { s.pool with waiting := s.pool.waiting ++ [w] }
      asking := s.asking.erase w }
  | refuse {w : ι} (hw : w ∈ s.asking) (hclosed : s.pool.isClosed = true) :
    Step s [.refused w] { s with asking := s.asking.erase w }
  /-- Whoever was set aside a slot takes it. -/
  | resume {w : ι} (hw : w ∈ s.pool.assigned) (hopen : s.pool.isClosed = false) :
    Step s [.seized w] { s with
      pool := { s.pool with assigned := s.pool.assigned.erase w }
      entering := insert w s.entering }
  | sendBack {w : ι} (hw : w ∈ s.pool.assigned) (hclosed : s.pool.isClosed = true) :
    Step s [.refused w] { s with
      pool := WorkerPool.giveBack { s.pool with assigned := s.pool.assigned.erase w } }
  | sendAway {w : ι} (hw : w ∈ s.pool.dismissed) :
    Step s [.refused w] { s with
      pool := { s.pool with dismissed := s.pool.dismissed.erase w } }
  | enter {w : ι} (hw : w ∈ s.entering) :
    Step s [.granted w] { s with
      pool := s.pool.enter
      entering := s.entering.erase w
      held := insert w s.held }
  /-- Time may be up even for those who were just set aside a slot or sent away. -/
  | timeOut {w : ι} (hw : w ∈ s.pool.line) :
    Step s [.timedOut w] { s with pool := { s.pool.cancel w with stats := s.pool.stats.timeOut } }
  | cancel {w : ι} (hw : w ∈ s.pool.line) :
    Step s [.cancelled w] { s with pool := s.pool.cancel w }
  | report {w : ι} (hw : w ∈ s.held) (o : Outcome) :
    Step s [.reported w o] { s with
      pool := { s.pool with stats := s.pool.stats.leave o }
      held := s.held.erase w
      leaving := s.leaving + 1 }
  | release (hleaving : 0 < s.leaving) :
    Step s [] { s with pool := s.pool.giveBack, leaving := s.leaving - 1 }
  | close : Step s [.closed] { s with pool := s.pool.close }

abbrev Run : Occupancy ι → List (Notice ι) → Occupancy ι → Prop := Trace Step

theorem Step.news_cases (h : Step s news s') : news = [] ∨ ∃ x, news = [x] := by
  cases h <;> simp

theorem Step.news_eq {x : Notice ι} (h : Step s news s') (hx : x ∈ news) : news = [x] := by
  rcases h.news_cases with rfl | ⟨y, rfl⟩
  · cases hx
  · rw [List.mem_singleton.1 hx]

theorem Run.exists_step {a b : List (Notice ι)} {x : Notice ι} (h : Run s (a ++ x :: b) s') :
    ∃ s₁ s₂, Run s a s₁ ∧ Step s₁ [x] s₂ ∧ Run s₂ b s' :=
  Trace.exists_step Step.news_eq h

/-- Everybody is where the history says. -/
structure Placed (l : List (Notice ι)) (s : Occupancy ι) : Prop where
  nodup : s.pool.line.Nodup
  asking : ∀ w ∈ s.asking, w ∉ s.pool.line ∧ w ∉ s.entering ∧ w ∉ s.held
  line : ∀ w ∈ s.pool.line, w ∉ s.entering ∧ w ∉ s.held
  entering : ∀ w ∈ s.entering, w ∉ s.held
  asking_iff : ∀ w, Notice.Asking w l ↔ w ∈ s.asking ∨ w ∈ s.pool.line
  entering_iff : ∀ w, Notice.Entering w l ↔ w ∈ s.entering
  out_iff : ∀ w, Notice.Out w l ↔ w ∈ s.held

open Notice

/-- Whoever leaves the line with empty hands leaves everybody else where they are. -/
theorem Placed.leave_line (h : Placed l s) (hw : w ∈ s.pool.line) {p : WorkerPool ι}
    (hperm : p.line.Perm (s.pool.line.erase w)) {x : Notice ι}
    (hx : x = refused w ∨ x = timedOut w ∨ x = cancelled w) :
    Placed (l ++ [x]) { s with pool := p } := by
  obtain ⟨hnodup, hasking, hline, hentering, hasking_iff, hentering_iff, hout_iff⟩ := h
  have hmem (v : ι) : v ∈ p.line ↔ v ≠ w ∧ v ∈ s.pool.line := by
    rw [hperm.mem_iff, hnodup.mem_erase_iff]
  refine ⟨hperm.nodup_iff.2 (hnodup.erase w), ?_, ?_, hentering, fun v ↦ ?_, fun v ↦ ?_, fun v ↦ ?_⟩
  · simp only [hmem]
    grind
  · simp only [hmem]
    grind
  · rw [asking_snoc, hmem, hasking_iff, Settles]
    grind
  · rw [entering_snoc, hentering_iff]
    grind
  · rw [out_snoc, hout_iff]
    grind

omit [DecidableEq ι] in
theorem Placed.of_perm (h : Placed l s) {p : WorkerPool ι} (hperm : p.line.Perm s.pool.line)
    (leaving : Nat) : Placed l { s with pool := p, leaving } := by
  obtain ⟨hnodup, hasking, hline, hentering, hasking_iff, hentering_iff, hout_iff⟩ := h
  refine ⟨hperm.nodup_iff.2 hnodup, ?_, ?_, hentering, fun v ↦ ?_, hentering_iff, hout_iff⟩
  · simpa only [hperm.mem_iff] using hasking
  · simpa only [hperm.mem_iff] using hline
  · rw [hasking_iff, hperm.mem_iff]

omit [DecidableEq ι] in
theorem Placed.closed (h : Placed l s) : Placed (l ++ [.closed]) s := by
  obtain ⟨hnodup, hasking, hline, hentering, hasking_iff, hentering_iff, hout_iff⟩ := h
  refine ⟨hnodup, hasking, hline, hentering, fun v ↦ ?_, fun v ↦ ?_, fun v ↦ ?_⟩
  · simp [asking_snoc, Settles, hasking_iff]
  · simp [entering_snoc, hentering_iff]
  · simp [out_snoc, hout_iff]

theorem Placed.line_up (h : Placed l s) (hw : w ∈ s.asking) {p : WorkerPool ι}
    (hperm : p.line.Perm (w :: s.pool.line)) :
    Placed l { s with pool := p, asking := s.asking.erase w } := by
  obtain ⟨hnodup, hasking, hline, hentering, hasking_iff, hentering_iff, hout_iff⟩ := h
  have hmem (v : ι) : v ∈ p.line ↔ v = w ∨ v ∈ s.pool.line := by
    rw [hperm.mem_iff, List.mem_cons]
  refine ⟨hperm.nodup_iff.2 (List.nodup_cons.2 ⟨(hasking w hw).1, hnodup⟩), ?_, ?_, hentering,
    fun v ↦ ?_, hentering_iff, hout_iff⟩
  · simp only [hmem]
    grind
  · simp only [hmem]
    grind
  · rw [hmem, hasking_iff]
    grind

/-- Whoever leaves the line with a slot is on the way in. -/
theorem Placed.resume (h : Placed l s) (hw : w ∈ s.pool.line) {p : WorkerPool ι}
    (hperm : p.line.Perm (s.pool.line.erase w)) :
    Placed (l ++ [seized w]) { s with pool := p, entering := insert w s.entering } := by
  obtain ⟨hnodup, hasking, hline, hentering, hasking_iff, hentering_iff, hout_iff⟩ := h
  have hmem (v : ι) : v ∈ p.line ↔ v ≠ w ∧ v ∈ s.pool.line := by
    rw [hperm.mem_iff, hnodup.mem_erase_iff]
  refine ⟨hperm.nodup_iff.2 (hnodup.erase w), ?_, ?_, ?_, fun v ↦ ?_, fun v ↦ ?_, fun v ↦ ?_⟩
  · simp only [hmem]
    grind
  · simp only [hmem]
    grind
  · grind
  · rw [asking_snoc, hmem, hasking_iff, Settles]
    grind
  · rw [entering_snoc, hentering_iff]
    grind
  · rw [out_snoc, hout_iff]
    grind

theorem Placed.step (h : Placed l s) (hstep : Step s news s') : Placed (l ++ news) s' := by
  have hplaced := h
  obtain ⟨hnodup, hasking, hline, hentering, hasking_iff, hentering_iff, hout_iff⟩ := h
  cases hstep
  case ask w _ _ _ _ | seize w hw _ _ | refuse w hw _ | enter w hw =>
    -- the line stays as it is
    refine ⟨hnodup, ?_, ?_, ?_, fun v ↦ ?_, fun v ↦ ?_, fun v ↦ ?_⟩
    · grind [WorkerPool.line, WorkerPool.enter]
    · grind [WorkerPool.line, WorkerPool.enter]
    · grind
    · simp only [asking_snoc, Settles, hasking_iff]
      grind [WorkerPool.line, WorkerPool.enter]
    · simp only [entering_snoc, hentering_iff]
      grind
    · simp only [out_snoc, hout_iff]
      grind
  case lineUp w hw hopen hnone =>
    rw [List.append_nil]
    exact hplaced.line_up hw (WorkerPool.line_lineUp_perm s.pool w)
  case resume w hw hopen =>
    have hperm := List.Perm.of_eq (WorkerPool.line_erase_assigned hnodup hw)
    exact hplaced.resume (WorkerPool.mem_line_of_assigned hw) hperm
  case sendBack w hw hclosed =>
    refine hplaced.leave_line (WorkerPool.mem_line_of_assigned hw) ?_ (.inl rfl)
    rw [← WorkerPool.line_erase_assigned hnodup hw]
    exact WorkerPool.line_giveBack_perm _
  case sendAway w hw =>
    have hperm := List.Perm.of_eq (WorkerPool.line_erase_dismissed hnodup hw)
    exact hplaced.leave_line (WorkerPool.mem_line_of_dismissed hw) hperm (.inl rfl)
  case timeOut w hw =>
    have hperm := WorkerPool.line_cancel_perm s.pool w hnodup
    exact hplaced.leave_line (p := { s.pool.cancel w with stats := s.pool.stats.timeOut }) hw hperm
      (.inr (.inl rfl))
  case cancel w hw =>
    exact hplaced.leave_line hw (WorkerPool.line_cancel_perm _ _ hnodup) (.inr (.inr rfl))
  case report w hw o =>
    refine ⟨hnodup, ?_, ?_, ?_, fun v ↦ ?_, fun v ↦ ?_, fun v ↦ ?_⟩
    · grind [WorkerPool.line]
    · grind [WorkerPool.line]
    · grind
    · simp only [asking_snoc, Settles, hasking_iff]
      grind [WorkerPool.line]
    · simp [entering_snoc, hentering_iff]
    · simp [out_snoc, hout_iff, eq_comm]
  case release hleaving =>
    rw [List.append_nil]
    exact hplaced.of_perm (WorkerPool.line_giveBack_perm _) _
  case close => exact (hplaced.of_perm (WorkerPool.line_close_perm s.pool) s.leaving).closed

theorem Placed.run (h : Placed l s) (hrun : Run s l' s') : Placed (l ++ l') s' :=
  hrun.invariant Placed.step h

/-! ## The books -/

theorem Step.stats_eq (h : Step s news s') :
    s'.pool.stats = news.foldl PoolStats.told s.pool.stats := by
  cases h with
  | sendBack | release => exact WorkerPool.stats_giveBack _
  | cancel => exact WorkerPool.stats_cancel _ _
  | ask | seize | lineUp | refuse | resume | sendAway | enter | timeOut | report | close => rfl

/-- Every slot is somewhere, and those with a permit are counted. -/
structure Slotted (n : Nat) (s : Occupancy ι) : Prop where
  total : s.pool.spare + s.entering.card + s.held.card + s.leaving = n
  inFlight : s.pool.stats.inFlight = s.held.card
  maxWorkers : s.pool.stats.maxWorkers = n

theorem Slotted.step (h : Slotted n s) (hplaced : Placed l s) (hstep : Step s news s') :
    Slotted n s' := by
  obtain ⟨htotal, hinFlight, hmax⟩ := h
  cases hstep
  case ask | lineUp | refuse | sendAway => exact ⟨htotal, hinFlight, hmax⟩
  case seize w hw hopen hfree =>
    have hcard := Finset.card_insert_of_notMem (hplaced.asking w hw).2.1
    refine ⟨?_, hinFlight, hmax⟩
    simp only [WorkerPool.spare] at htotal ⊢
    omega
  case resume w hw hopen =>
    have hout := (hplaced.line w (WorkerPool.mem_line_of_assigned hw)).1
    have hcard := Finset.card_insert_of_notMem hout
    have hspare := WorkerPool.spare_erase_assigned hw
    refine ⟨?_, hinFlight, hmax⟩
    dsimp only
    omega
  case sendBack w hw hclosed =>
    refine ⟨?_, by simpa using hinFlight, by simpa using hmax⟩
    rwa [WorkerPool.spare_giveBack, WorkerPool.spare_erase_assigned hw]
  case enter w hw =>
    have hcard := Finset.card_insert_of_notMem (hplaced.entering w hw)
    have hcard' := Finset.card_erase_add_one hw
    refine ⟨?_, ?_, hmax⟩
    · simp only [WorkerPool.spare, WorkerPool.enter] at htotal ⊢
      omega
    · simp only [WorkerPool.enter, PoolStats.enter]
      omega
  case timeOut w hw =>
    have hspare : ({ s.pool.cancel w with stats := s.pool.stats.timeOut } : WorkerPool ι).spare =
        s.pool.spare := WorkerPool.spare_cancel s.pool w
    exact ⟨by rwa [hspare], hinFlight, hmax⟩
  case cancel w hw => exact ⟨by simpa using htotal, by simpa using hinFlight, by simpa using hmax⟩
  case report w hw o =>
    have hcard := Finset.card_erase_add_one hw
    refine ⟨?_, ?_, ?_⟩
    · simp only [WorkerPool.spare] at htotal ⊢
      omega
    · cases o <;> simp only [PoolStats.leave] <;> omega
    · cases o <;> exact hmax
  case release hleaving =>
    refine ⟨?_, by simpa using hinFlight, by simpa using hmax⟩
    simp only [WorkerPool.spare_giveBack]
    omega
  case close => exact ⟨htotal, hinFlight, hmax⟩

theorem Step.mem_held_of_reported {o : Outcome} (h : Step s [.reported w o] s') : w ∈ s.held := by
  cases h
  assumption

theorem books_step (h : PoolStats.Books l s.pool.stats) (hslotted : Slotted n s)
    (hstep : Step s news s') : PoolStats.Books (l ++ news) s'.pool.stats := by
  rw [hstep.stats_eq]
  rcases hstep.news_cases with rfl | ⟨x, rfl⟩
  · rwa [List.append_nil]
  · refine h.told fun w o hx ↦ ?_
    subst hx
    rw [hslotted.inFlight]
    exact Finset.card_pos.2 ⟨w, hstep.mem_held_of_reported⟩

end Occupancy

end TenantAccess
