import Mathlib.Data.Finset.Card
import TenantAccess.Proofs.Schedule.Serial
import TenantAccess.Proofs.Schedule.Trace
import TenantAccess.Schedule.WaitingQueue

/-!
# Takers side by side

What a taker and a caller do at one go in a waiting queue takes them several steps if others run at
the same time: to register and to look are two, and so are to make a key pending and to wake
somebody.  Any steps of any takers and callers may follow each other, and whoever waits may be the one
who is woken.
-/

namespace TenantAccess

namespace WaitingQueue

variable {κ ι : Type} {r r' : WaitingQueue κ ι} {v w : ι}

/-- Those who are to be woken, or have been and have not noticed. -/
def registered (r : WaitingQueue κ ι) : List ι := r.waiting ++ r.woken

variable [DecidableEq ι]

/-- A wake-up reaches one of those who wait, or is remembered if nobody does. -/
inductive Notifies (r : WaitingQueue κ ι) : WaitingQueue κ ι → Prop
  | signal (hnone : r.waiting = []) : Notifies r { r with signal := true }
  | wake {w : ι} (hw : w ∈ r.waiting) :
    Notifies r { r with waiting := r.waiting.erase w, woken := r.woken ++ [w] }

/-- `w` is registered no longer.  A wake-up that it has not noticed goes to somebody else, if it was
not meant for everybody. -/
inductive Releases (w : ι) (r : WaitingQueue κ ι) : WaitingQueue κ ι → Prop
  | asleep (hw : w ∉ r.woken) : Releases w r { r with waiting := r.waiting.erase w }
  | woken {r' : WaitingQueue κ ι} (hw : w ∈ r.woken)
    (h : Notifies { r with woken := r.woken.erase w } r') : Releases w r r'
  | down (hw : w ∈ r.woken) (hdown : r.queue.isDown = true) :
    Releases w r { r with woken := r.woken.erase w }

theorem registered_erase_woken (hr : r.registered.Nodup) (hw : w ∈ r.woken) :
    ({ r with woken := r.woken.erase w } : WaitingQueue κ ι).registered = r.registered.erase w := by
  have hout : w ∉ r.waiting := fun hmem ↦ List.disjoint_of_nodup_append hr hmem hw
  rw [registered, registered, List.erase_append_right _ hout]

omit [DecidableEq ι] in
theorem registered_register_perm (r : WaitingQueue κ ι) (w : ι) :
    ({ r with waiting := r.waiting ++ [w] } : WaitingQueue κ ι).registered.Perm
      (w :: r.registered) := by
  simp only [registered, List.append_assoc]
  exact List.perm_middle

theorem notifies_notify (r : WaitingQueue κ ι) : r.Notifies r.notify := by
  unfold notify
  split
  · next hnone => exact .signal hnone
  · next w rest hwaiting =>
    have hwake : r.Notifies { r with waiting := r.waiting.erase w, woken := r.woken ++ [w] } :=
      .wake (by simp [hwaiting])
    simpa [hwaiting] using hwake

theorem releases_cancel (r : WaitingQueue κ ι) (w : ι) : Releases w r (r.cancel w) := by
  unfold cancel
  split
  · next hw => exact .woken hw (notifies_notify _)
  · next hw => exact .asleep hw

namespace Notifies

theorem queue_eq (h : r.Notifies r') : r'.queue = r.queue := by
  cases h <;> rfl

theorem waiting_subset (h : r.Notifies r') : r'.waiting ⊆ r.waiting := by
  cases h with
  | signal => exact fun v hv ↦ hv
  | wake => exact List.erase_subset

theorem registered_perm (h : r.Notifies r') : r'.registered.Perm r.registered := by
  cases h with
  | signal => exact .refl _
  | @wake w hw =>
    have hlast : (r.waiting.erase w ++ (r.woken ++ [w])).Perm
        (r.waiting.erase w ++ w :: r.woken) :=
      (List.perm_append_singleton w r.woken).append_left _
    exact (hlast.trans List.perm_middle).trans ((List.perm_cons_erase hw).symm.append_right _)

theorem length_woken (h : r.Notifies r') :
    r'.waiting = [] ∨ r'.woken.length = r.woken.length + 1 := by
  cases h with
  | signal hnone => exact .inl hnone
  | wake => exact .inr (by simp)

end Notifies

namespace Releases

theorem queue_eq (h : Releases w r r') : r'.queue = r.queue := by
  cases h with
  | asleep | down => rfl
  | woken _ h => exact h.queue_eq

theorem waiting_subset (h : Releases w r r') : r'.waiting ⊆ r.waiting := by
  cases h with
  | asleep => exact List.erase_subset
  | down => exact fun v hv ↦ hv
  | woken _ h => exact h.waiting_subset

theorem registered_perm (h : Releases w r r') (hr : r.registered.Nodup) :
    r'.registered.Perm (r.registered.erase w) := by
  cases h with
  | asleep hw =>
    by_cases hmem : w ∈ r.waiting
    · rw [registered, registered, List.erase_append_left _ hmem]
    · rw [registered, registered, List.erase_append_right _ hmem, List.erase_of_not_mem hmem,
        List.erase_of_not_mem hw]
  | woken hw h => exact h.registered_perm.trans (.of_eq (registered_erase_woken hr hw))
  | down hw => exact .of_eq (registered_erase_woken hr hw)

/-- No wake-up gets lost while there is somebody to be woken. -/
theorem length_woken (h : Releases w r r') (hup : r.queue.isDown = false) :
    r'.waiting = [] ∨ r.woken.length ≤ r'.woken.length := by
  cases h with
  | asleep => exact .inr (Nat.le_refl _)
  | woken hw h =>
    rcases h.length_woken with hnone | hlength
    · exact .inl hnone
    · have herase := List.length_erase_of_mem hw
      have hpos := List.length_pos_of_mem hw
      exact .inr (by simp only [hlength]; omega)
  | down _ hdown => simp [hup] at hdown

end Releases

end WaitingQueue

/-! ## Histories -/

inductive Ending (κ : Type) where
  | key (k : κ)
  | shutDown
  /-- It was given up. -/
  | dropped

inductive Incident (κ ι : Type) where
  | started (w : ι)
  | ended (w : ι) (e : Ending κ)
  /-- Something else happened to the queue. -/
  | called (x : WorkQueue.Happening κ)

namespace Incident

variable {κ ι : Type} {l : List (Incident κ ι)} {v w : ι}

def happening? : Incident κ ι → Option (WorkQueue.Happening κ)
  | started _ => none
  | ended _ (.key k) => some (.handed k)
  | ended _ _ => none
  | called x => some x

def Ends (w : ι) (x : Incident κ ι) : Prop := ∃ e, x = ended w e

/-- The last that is told of `w` is that it has started. -/
def UnderWay (w : ι) (l : List (Incident κ ι)) : Prop := Lasting (started w) (Ends w) l

theorem not_underWay_nil : ¬UnderWay w ([] : List (Incident κ ι)) := Lasting.not_nil

@[simp] theorem underWay_started :
    UnderWay w (l ++ [started v]) ↔ w = v ∨ UnderWay w l := by
  simp [UnderWay, Lasting.snoc_iff, Ends, eq_comm]

@[simp] theorem underWay_ended {e : Ending κ} :
    UnderWay w (l ++ [ended v e]) ↔ w ≠ v ∧ UnderWay w l := by
  simp [UnderWay, Lasting.snoc_iff, Ends, eq_comm]

@[simp] theorem underWay_called {x : WorkQueue.Happening κ} :
    UnderWay w (l ++ [called x]) ↔ UnderWay w l := by
  simp [UnderWay, Lasting.snoc_iff, Ends]

end Incident

open WaitingQueue

structure Traffic (κ ι : Type) where
  room : WaitingQueue κ ι := {}
  /-- Takers who are about to register. -/
  coming : Finset ι := ∅
  /-- Takers who have been to register and are about to look. -/
  looking : Finset ι := ∅
  /-- Takers who have their answer and are registered still. -/
  leaving : Finset ι := ∅
  /-- Wake-ups that callers have yet to send. -/
  owed : Nat := 0
  /-- Callers who have yet to wake everybody. -/
  closing : Nat := 0

namespace Traffic

variable {κ ι : Type} {s s' s'' : Traffic κ ι} {l l' : List (Incident κ ι)} {v w : ι} {k : κ}

def Open (s : Traffic κ ι) (w : ι) : Prop :=
  w ∈ s.coming ∨ w ∈ s.looking ∨ w ∈ s.room.registered ∧ w ∉ s.leaving

/-- Nobody is in the middle of anything. -/
structure AtRest (s : Traffic κ ι) : Prop where
  coming : s.coming = ∅
  looking : s.looking = ∅
  leaving : s.leaving = ∅
  woken : s.room.woken = []
  owed : s.owed = 0
  closing : s.closing = 0

/-- Another state of the queue, with a wake-up to come for every key that has become pending. -/
def push (s : Traffic κ ι) (q : WorkQueue κ) : Traffic κ ι :=
  { s with
    room := { s.room with queue := q }
    owed := s.owed + (q.length - s.room.queue.length) }

variable [DecidableEq κ] [DecidableEq ι]

/-- One step of somebody, and what is told of it. -/
inductive Step (s : Traffic κ ι) : List (Incident κ ι) → Traffic κ ι → Prop
  | start {w : ι} (hopen : ¬s.Open w) (hleaving : w ∉ s.leaving) :
    Step s [.started w] { s with coming := insert w s.coming }
  /-- A signal is used up in place of registering. -/
  | heed {w : ι} (hw : w ∈ s.coming) (hsignal : s.room.signal = true) :
    Step s [] { s with
      room := { s.room with signal := false }
      coming := s.coming.erase w
      looking := insert w s.looking }
  | register {w : ι} (hw : w ∈ s.coming) (hsignal : s.room.signal = false) :
    Step s [] { s with
      room := { s.room with waiting := s.room.waiting ++ [w] }
      coming := s.coming.erase w
      looking := insert w s.looking }
  | refuse {w : ι} (hw : w ∈ s.looking) (hdown : s.room.queue.isDown = true) :
    Step s [.ended w .shutDown] { s with
      looking := s.looking.erase w
      leaving := insert w s.leaving }
  | take {w : ι} {k : κ} {q : WorkQueue κ} (hw : w ∈ s.looking)
    (htake : s.room.queue.take? = some (k, q)) :
    Step s [.ended w (.key k)] { s with
      room := { s.room with queue := q }
      looking := s.looking.erase w
      leaving := insert w s.leaving }
  | stay {w : ι} (hw : w ∈ s.looking) (hup : s.room.queue.isDown = false)
    (hnone : s.room.queue.take? = none) (hregistered : w ∈ s.room.registered) :
    Step s [] { s with looking := s.looking.erase w }
  /-- Who has used up a signal for nothing begins again. -/
  | again {w : ι} (hw : w ∈ s.looking) (hup : s.room.queue.isDown = false)
    (hnone : s.room.queue.take? = none) (hregistered : w ∉ s.room.registered) :
    Step s [] { s with looking := s.looking.erase w, coming := insert w s.coming }
  | leave {w : ι} {r : WaitingQueue κ ι} (hw : w ∈ s.leaving) (h : Releases w s.room r) :
    Step s [] { s with room := r, leaving := s.leaving.erase w }
  /-- A taker notices that it was woken. -/
  | poll {w : ι} (hw : w ∈ s.room.woken) (hlooking : w ∉ s.looking) (hleaving : w ∉ s.leaving) :
    Step s [] { s with
      room := { s.room with woken := s.room.woken.erase w }
      coming := insert w s.coming }
  /-- A taker is given up while it waits. -/
  | drop {w : ι} {r : WaitingQueue κ ι} (hw : w ∈ s.room.registered) (hlooking : w ∉ s.looking)
    (hleaving : w ∉ s.leaving) (h : Releases w s.room r) :
    Step s [.ended w .dropped] { s with room := r }
  | add (k : κ) : Step s [.called (s.room.queue.call (.add k)).1] (s.push (s.room.queue.add k))
  | done {k : κ} (hk : k ∈ s.room.queue.inFlight) :
    Step s [.called (.returned k)] (s.push (s.room.queue.done k))
  | shutDown : Step s [.called .downed] { s with
      room := { s.room with queue := s.room.queue.shutDown }
      closing := s.closing + 1 }
  | wakeAll (hclosing : 0 < s.closing) : Step s [] { s with
      room := { s.room with waiting := [], woken := s.room.woken ++ s.room.waiting }
      owed := s.owed + 1
      closing := s.closing - 1 }
  | notify {r : WaitingQueue κ ι} (howed : 0 < s.owed) (h : Notifies s.room r) :
    Step s [] { s with room := r, owed := s.owed - 1 }

abbrev Run : Traffic κ ι → List (Incident κ ι) → Traffic κ ι → Prop := Trace Step

theorem Step.news_eq {news : List (Incident κ ι)} {x : Incident κ ι} (h : Step s news s')
    (hx : x ∈ news) : news = [x] := by
  cases h <;> simp_all

theorem Run.exists_step {a b : List (Incident κ ι)} {x : Incident κ ι}
    (h : Run s (a ++ x :: b) s') :
    ∃ s₁ s₂, Run s a s₁ ∧ Step s₁ [x] s₂ ∧ Run s₂ b s' :=
  Trace.exists_step Step.news_eq h

/-- Everybody is where the history says. -/
structure Placed (l : List (Incident κ ι)) (s : Traffic κ ι) : Prop where
  nodup : s.room.registered.Nodup
  coming : ∀ w ∈ s.coming, w ∉ s.looking ∧ w ∉ s.leaving ∧ w ∉ s.room.registered
  looking : ∀ w ∈ s.looking, w ∉ s.leaving
  underWay_iff : ∀ w, Incident.UnderWay w l ↔ s.Open w

omit [DecidableEq κ] [DecidableEq ι] in
theorem Placed.congr (h : Placed l s) (hcoming : s'.coming = s.coming)
    (hlooking : s'.looking = s.looking) (hleaving : s'.leaving = s.leaving)
    (hperm : s'.room.registered.Perm s.room.registered)
    (hiff : ∀ w, Incident.UnderWay w l' ↔ Incident.UnderWay w l) : Placed l' s' where
  nodup := hperm.nodup_iff.2 h.nodup
  coming w hw := by
    rw [hlooking, hleaving, hperm.mem_iff]
    exact h.coming w (hcoming ▸ hw)
  looking w hw := by
    rw [hleaving]
    exact h.looking w (hlooking ▸ hw)
  underWay_iff w := by
    rw [hiff, h.underWay_iff, Open, Open, hcoming, hlooking, hleaving, hperm.mem_iff]

theorem Placed.step {news : List (Incident κ ι)} (h : Placed l s) (hstep : Step s news s') :
    Placed (l ++ news) s' := by
  obtain ⟨hnodup, hcoming, hlooking, hiff⟩ := h
  cases hstep
  case start w hopen hleaving =>
    refine ⟨hnodup, ?_, hlooking, fun v ↦ ?_⟩
    · simp only [Open] at hopen
      grind
    · simp only [Incident.underWay_started, hiff, Open, Finset.mem_insert]
      grind
  case heed w hw hsignal | stay w hw hup hnone hregistered | again w hw hup hnone hregistered =>
    -- nothing is told, and nobody is registered or struck off
    refine ⟨hnodup, ?_, ?_, fun v ↦ ?_⟩
    · grind [registered]
    · grind
    · simp only [List.append_nil, hiff, Open]
      grind [registered]
  case refuse w hw hdown | take w k q hw htake =>
    refine ⟨hnodup, ?_, ?_, fun v ↦ ?_⟩
    · grind [registered]
    · grind
    · simp only [Incident.underWay_ended, hiff, Open]
      grind [registered]
  case register w hw hsignal =>
    have hperm := registered_register_perm s.room w
    refine ⟨hperm.nodup_iff.2 (List.nodup_cons.2 ⟨(hcoming w hw).2.2, hnodup⟩), ?_, ?_, fun v ↦ ?_⟩
    · simp only [hperm.mem_iff, List.mem_cons]
      grind
    · grind
    · simp only [List.append_nil, hiff, Open, hperm.mem_iff, List.mem_cons]
      grind
  case leave w r hw h =>
    have hperm := h.registered_perm hnodup
    refine ⟨hperm.nodup_iff.2 (hnodup.erase _), ?_, ?_, fun v ↦ ?_⟩
    · simp only [hperm.mem_iff, hnodup.mem_erase_iff]
      grind
    · grind
    · simp only [List.append_nil, hiff, Open, hperm.mem_iff, hnodup.mem_erase_iff]
      grind
  case poll w hw hlooking' hleaving =>
    have hstruck := registered_erase_woken hnodup hw
    have hregistered : w ∈ s.room.registered := List.mem_append_right _ hw
    refine ⟨hstruck ▸ hnodup.erase _, ?_, hlooking, fun v ↦ ?_⟩
    · simp only [hstruck, hnodup.mem_erase_iff]
      grind
    · simp only [List.append_nil, hiff, Open, hstruck, hnodup.mem_erase_iff]
      grind
  case drop w r hw hlooking' hleaving h =>
    have hperm := h.registered_perm hnodup
    refine ⟨hperm.nodup_iff.2 (hnodup.erase _), ?_, hlooking, fun v ↦ ?_⟩
    · simp only [hperm.mem_iff, hnodup.mem_erase_iff]
      grind
    · simp only [Incident.underWay_ended, hiff, Open, hperm.mem_iff, hnodup.mem_erase_iff]
      grind
  case add | done | shutDown =>
    exact Placed.congr ⟨hnodup, hcoming, hlooking, hiff⟩ rfl rfl rfl (.refl _)
      fun w ↦ Incident.underWay_called
  case wakeAll hclosing =>
    refine Placed.congr ⟨hnodup, hcoming, hlooking, hiff⟩ rfl rfl rfl ?_ fun w ↦ by simp
    change (s.room.woken ++ s.room.waiting).Perm (s.room.waiting ++ s.room.woken)
    exact List.perm_append_comm
  case notify r howed h =>
    exact Placed.congr ⟨hnodup, hcoming, hlooking, hiff⟩ rfl rfl rfl h.registered_perm
      fun w ↦ by simp

theorem Placed.run (h : Placed l s) (hrun : Run s l' s') : Placed (l ++ l') s' :=
  hrun.invariant Placed.step h

end Traffic

end TenantAccess
