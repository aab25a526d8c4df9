import TenantAccess.Proofs.Schedule.Wakeful
import TenantAccess.Schedule.Agenda

/-!
# Pending keys go first

Whatever is added, put off or finished in the meantime, the keys that are pending are handed out
before any other key and in their order, and until the last of them is gone nobody asks for a key in
vain.  For a queue gives away its first key and takes in new ones behind the last.
-/

namespace TenantAccess

namespace WorkQueue

variable {κ : Type}

def Happening.attempt? : Happening κ → Option (Option κ)
  | handed k => some (some k)
  | starved => some none
  | _ => none

def attempts (l : List (Happening κ)) : List (Option κ) := l.filterMap Happening.attempt?

def handOuts (l : List (Happening κ)) : List κ := (attempts l).filterMap id

theorem attempts_cons (x : Happening κ) (l : List (Happening κ)) :
    attempts (x :: l) = attempts [x] ++ attempts l := by
  rw [← List.singleton_append, attempts, List.filterMap_append]
  rfl

section Lists

variable {α : Type} {keys out rest : List α} {a : α} {i : Nat}

theorem take_eq_take_of_prefix_append (h : keys <+: out ++ rest) :
    out.take keys.length = keys.take out.length := by
  have hkeys : keys = (out ++ rest).take keys.length := List.prefix_iff_eq_take.1 h
  calc
    out.take keys.length = ((out ++ rest).take out.length).take keys.length := by
      rw [List.take_left]
    _ = ((out ++ rest).take keys.length).take out.length := by
      rw [List.take_take, List.take_take, Nat.min_comm]
    _ = keys.take out.length := by rw [← hkeys]

theorem getElem?_of_prefix_append (h : keys <+: out ++ rest) (ha : keys[i]? = some a)
    (hi : i < out.length) : out[i]? = some a := by
  obtain ⟨more, hmore⟩ := h
  have hlt : i < keys.length := (List.getElem?_eq_some_iff.1 ha).1
  have hall : (out ++ rest)[i]? = some a := by
    rw [← hmore, List.getElem?_append_left hlt, ha]
  rwa [List.getElem?_append_left hi] at hall

theorem exists_eq_cons_of_prefix_append (h : keys <+: out ++ rest) (ha : keys[out.length]? = some a) :
    ∃ rest', rest = a :: rest' := by
  obtain ⟨more, hmore⟩ := h
  have hlt : out.length < keys.length := (List.getElem?_eq_some_iff.1 ha).1
  have hall : (out ++ rest)[out.length]? = some a := by
    rw [← hmore, List.getElem?_append_left hlt, ha]
  rw [List.getElem?_append_right (Nat.le_refl _), Nat.sub_self] at hall
  cases rest with
  | nil => simp at hall
  | cons b rest' => exact ⟨rest', by simpa using hall⟩

end Lists

variable [DecidableEq κ] {q q' : WorkQueue κ} {k : κ} {l : List (Happening κ)}

/-- What the keys that were pending can rely on in a history `l` that leads to `q`. -/
structure Foremost (keys : List κ) (l : List (Happening κ)) (q : WorkQueue κ) : Prop where
  first : (handOuts l).take keys.length = keys.take (handOuts l).length
  once : ((handOuts l).take keys.length).Nodup
  /-- The key at a place is handed out when as many others have been as were before it. -/
  place : ∀ i k, keys[i]? = some k → i < (handOuts l).length → (handOuts l)[i]? = some k
  /-- As many attempts as there were keys are enough for all of them, whoever makes them. -/
  enough : q.isDown = false → ∀ i k, keys[i]? = some k → i < (attempts l).length →
    (attempts l)[i]? = some (some k)
  /-- Whoever asks next is given the first key that is left. -/
  next : q.isDown = false → ∀ k, keys[(handOuts l).length]? = some k →
    ∃ q', q.take? = some (k, q')

theorem pending_prefix_add (q : WorkQueue κ) (k : κ) : q.pending <+: (q.add k).pending := by
  unfold add
  split
  · exact List.prefix_rfl
  · split
    · exact List.prefix_rfl
    · exact List.prefix_append _ _

theorem pending_prefix_done (q : WorkQueue κ) (k : κ) : q.pending <+: (q.done k).pending := by
  unfold done
  dsimp only
  split
  · exact List.prefix_append _ _
  · exact List.prefix_rfl

theorem take?_of_pending {rest : List κ} (hup : q.isDown = false) (hpending : q.pending = k :: rest) :
    ∃ q', q.take? = some (k, q') ∧ q'.pending = rest := by
  unfold take?
  rw [hup, hpending]
  exact ⟨_, rfl, rfl⟩

/-- Only a key that is handed out leaves the line, and it is the first. -/
theorem pending_prefix_call (hup : q.isDown = false) (c : Call κ) :
    q.pending.map some <+: attempts [(q.call c).1] ++ (q.call c).2.pending.map some := by
  cases c with
  | add k =>
    have hnone : attempts [(q.call (.add k)).1] = [] := by
      simp only [call]
      split
      · rfl
      · split <;> rfl
    rw [hnone, List.nil_append]
    exact (pending_prefix_add q k).map some
  | take =>
    cases hpending : q.pending with
    | nil => exact ⟨_, rfl⟩
    | cons k rest =>
      obtain ⟨q', htake, hrest⟩ := take?_of_pending hup hpending
      have hcall : q.call .take = (.handed k, q') := by simp [call, htake]
      rw [hcall, hrest]
      exact List.prefix_rfl
  | done k => exact (pending_prefix_done q k).map some
  | shutDown => exact List.prefix_rfl

namespace Run

theorem isDown (h : Run q l q') (hopen : .downed ∉ l) : q'.isDown = q.isDown :=
  Bool.eq_iff_iff.2 (by simpa [hopen] using h.isDown_iff)

/-- What was pending is attempted, or is pending still, ahead of everything else. -/
theorem pending_prefix_attempts (h : Run q l q') (hup : q.isDown = false) (hopen : .downed ∉ l) :
    q.pending.map some <+: attempts l ++ q'.pending.map some := by
  induction h with
  | nil q => exact List.prefix_rfl
  | @cons q q' l c hallows hrest ih =>
    rw [List.mem_cons, not_or] at hopen
    have hstill : (q.call c).2.isDown = false := by
      rw [Bool.eq_false_iff, ne_eq, isDown_call_iff, hup]
      simpa using Ne.symm hopen.1
    have hlater := ih hstill hopen.2
    -- the first call takes its key from the front of the line, and the rest follows in that line
    rw [attempts_cons, List.append_assoc]
    exact (pending_prefix_call hup c).trans ((List.prefix_append_right_inj _).2 hlater)

theorem handOuts_eq_nil (h : Run q l q') (hdown : q.isDown = true) : handOuts l = [] := by
  refine List.eq_nil_iff_forall_not_mem.2 fun k hk ↦ ?_
  simp only [handOuts, attempts, List.mem_filterMap, id_eq, exists_eq_right] at hk
  obtain ⟨x, hx, hattempt⟩ := hk
  cases x with
  | handed a => exact (h.of_down hdown).2 a hx
  | _ => cases hattempt

theorem pending_prefix_handOuts (h : Run q l q') (hopen : .downed ∉ l) :
    q.pending <+: handOuts l ++ q'.pending := by
  cases hdown : q.isDown with
  | true =>
    rw [h.handOuts_eq_nil hdown, (h.of_down hdown).1]
    exact List.prefix_rfl
  | false =>
    have hkeys := (h.pending_prefix_attempts hdown hopen).filterMap id
    simpa [handOuts, List.filterMap_append, List.filterMap_map] using hkeys

theorem foremost {l₀ : List (Happening κ)} (h₀ : Run {} l₀ q) (h : Run q l q')
    (hopen : .downed ∉ l) : Foremost q.pending l q' where
  first := take_eq_take_of_prefix_append (h.pending_prefix_handOuts hopen)
  once := by
    rw [take_eq_take_of_prefix_append (h.pending_prefix_handOuts hopen)]
    exact (List.take_sublist _ _).nodup (faithful_nil.run h₀).nodup
  place i k hk hi := getElem?_of_prefix_append (h.pending_prefix_handOuts hopen) hk hi
  enough hup i k hk hi := by
    rw [h.isDown hopen] at hup
    exact getElem?_of_prefix_append (h.pending_prefix_attempts hup hopen) (by simp [hk]) hi
  next hup k hk := by
    obtain ⟨rest, hpending⟩ := exists_eq_cons_of_prefix_append (h.pending_prefix_handOuts hopen) hk
    obtain ⟨q'', htake, -⟩ := take?_of_pending hup hpending
    exact ⟨q'', htake⟩

end Run

end WorkQueue

/-- A queue to which keys may be added after a delay. -/
structure TimedQueue (κ : Type) where
  queue : WorkQueue κ := {}
  agenda : Agenda κ := {}

namespace TimedQueue

open WorkQueue

variable {κ : Type} [DecidableEq κ] {t t' : TimedQueue κ} {l : List (Happening κ)}

/-- Somebody calls the queue, puts off an addition or lets time pass, or an addition falls due.  Those
that are put off fall due in any order. -/
inductive Move (t : TimedQueue κ) : List (Happening κ) → TimedQueue κ → Prop
  | call (c : Call κ) (hallows : t.queue.Allows c) :
    Move t [(t.queue.call c).1] { t with queue := (t.queue.call c).2 }
  | putOff (k : κ) (delay : Nat) : Move t [] { t with agenda := t.agenda.plan delay k }
  | wait (time : Nat) : Move t [] { t with agenda := t.agenda.moveTo time }
  | due {before after : List (Nat × κ)} {time : Nat} {k : κ}
    (hentries : t.agenda.entries = before ++ (time, k) :: after) :
    Move t [(t.queue.call (.add k)).1]
      { queue := t.queue.add k, agenda := { t.agenda with entries := before ++ after } }

abbrev Moves : TimedQueue κ → List (Happening κ) → TimedQueue κ → Prop := Trace Move

theorem Moves.queue_run (h : Moves t l t') : WorkQueue.Run t.queue l t'.queue := by
  induction h with
  | nil t => exact .nil _
  | cons hmove _ ih =>
    cases hmove with
    | call c hallows => exact .cons c hallows ih
    | putOff k delay => exact ih
    | wait time => exact ih
    | due hentries => exact .cons (.add _) trivial ih

end TimedQueue

namespace WorkQueue

open TimedQueue (Move Moves)

variable {κ ι : Type} [DecidableEq κ] [DecidableEq ι]

/-- Until a queue is shut down the keys that are pending at any time are the next to be handed out, in
their order and each of them once, whatever happens.  The same holds if takers wait side by side. -/
theorem pending_keys_go_first :
    (∀ (l₀ l : List (Happening κ)) (t t' : TimedQueue κ), Moves {} l₀ t →
      Moves t l t' → .downed ∉ l → Foremost t.queue.pending l t'.queue) ∧
    ∀ (l₀ l : List (Incident κ ι)) (s s' : Traffic κ ι), Traffic.Run {} l₀ s →
      Traffic.Run s l s' → .called .downed ∉ l →
        Foremost s.room.queue.pending (l.filterMap Incident.happening?) s'.room.queue := by
  constructor
  · intro l₀ l t t' h₀ h hopen
    exact h₀.queue_run.foremost h.queue_run hopen
  · intro l₀ l s s' h₀ h hopen
    refine h₀.queue_run.foremost h.queue_run fun hmem ↦ hopen ?_
    obtain ⟨x, hx, hdowned⟩ := List.mem_filterMap.1 hmem
    rcases Incident.happening?_eq_some_iff.1 hdowned with rfl | ⟨w, k, -, hk⟩
    · exact hx
    · cases hk

/-- 7 and 8 are pending and 9 is in hand, to be queued again.  While 7 and 8 are handed out 9 gets in
line, and behind it 7, which was put off. -/
def overtaken : List (Happening Nat) :=
  [.handed 7, .returned 9, .added 7, .handed 8, .returned 7, .handed 9, .handed 7, .starved]

/-- Takers 1, 2 and 3 come one after the other; 9 is added before 8 is taken. -/
def overtakenBeside : List (Incident Nat Nat) :=
  [.started 1, .ended 1 (.key 7), .called (.added 9), .started 2, .ended 2 (.key 8), .started 3,
    .ended 3 (.key 9)]

theorem pending_keys_go_first_of_overtaken :
    let t : TimedQueue Nat :=
      { queue := { pending := [7, 8], dirty := [9, 8, 7], inFlight := [9] } }
    let t' : TimedQueue Nat := { queue := { inFlight := [7, 9, 8] }, agenda := { now := 3 } }
    let r : WaitingQueue Nat Nat :=
      { queue := { pending := [7, 8], dirty := [8, 7] }, signal := true }
    let r' : WaitingQueue Nat Nat := { queue := { inFlight := [9, 8, 7] } }
    (Moves {} [.added 9, .handed 9, .added 7, .added 8, .added 9] t ∧ Moves t overtaken t' ∧
      Foremost [7, 8] overtaken t'.queue) ∧
    Traffic.Run {} [.called (.added 7), .called (.added 8)] { room := r } ∧
      Traffic.Run { room := r } overtakenBeside { room := r' } ∧
      Foremost [7, 8] (overtakenBeside.filterMap Incident.happening?) r'.queue := by
  intro t t' r r'
  -- the states before and after the delayed addition
  let t₁ : TimedQueue Nat :=
    { queue := { pending := [8, 9], dirty := [9, 8], inFlight := [7] }
      agenda := { now := 3, entries := [(3, 7)] } }
  let t₂ : TimedQueue Nat :=
    { queue := { pending := [8, 9], dirty := [7, 9, 8], inFlight := [7] }, agenda := { now := 3 } }
  have h₀ : Moves {} [.added 9, .handed 9, .added 7, .added 8, .added 9] t :=
    .cons (Move.call (.add 9) trivial) <| .cons (Move.call .take trivial) <|
    .cons (Move.call (.add 7) trivial) <| .cons (Move.call (.add 8) trivial) <|
    .cons (Move.call (.add 9) trivial) <| .nil _
  have hbefore : Moves t [.handed 7, .returned 9] t₁ :=
    .cons (Move.putOff 7 3) <| .cons (Move.call .take trivial) <|
    .cons (Move.call (.done 9) (by exact .tail _ (.head _))) <| .cons (Move.wait 3) <| .nil _
  have hentries : t₁.agenda.entries = [] ++ (3, 7) :: [] := rfl
  have hdue : Move t₁ [.added 7] t₂ := Move.due hentries
  have hafter : Moves t₂ [.handed 8, .returned 7, .handed 9, .handed 7, .starved] t' :=
    .cons (Move.call .take trivial) <|
    .cons (Move.call (.done 7) (by exact .tail _ (.head _))) <|
    .cons (Move.call .take trivial) <| .cons (Move.call .take trivial) <|
    .cons (Move.call .take trivial) <| .nil _
  have h : Moves t overtaken t' := hbefore.trans (.cons hdue hafter)
  have hturns₀ : WaitingQueue.Turns {} [.called (.added 7), .called (.added 8)] r :=
    .cons (WaitingQueue.Turn.add 7) <| .cons (WaitingQueue.Turn.add 8) <| .nil _
  have hturns : WaitingQueue.Turns r overtakenBeside r' :=
    .cons (WaitingQueue.Turn.look (w := 1) (by decide)) <| .cons (WaitingQueue.Turn.add 9) <|
    .cons (WaitingQueue.Turn.look (w := 2) (by decide)) <|
    .cons (WaitingQueue.Turn.look (w := 3) (by decide)) <| .nil _
  have hrun₀ := Traffic.run_of_turns hturns₀ Traffic.placed_nil
  have hrun := Traffic.run_of_turns hturns (Traffic.placed_nil.run hrun₀)
  exact ⟨⟨h₀, h, (pending_keys_go_first (ι := Nat)).1 _ _ _ _ h₀ h (by simp [overtaken])⟩, hrun₀, hrun,
    pending_keys_go_first.2 _ _ _ _ hrun₀ hrun (by simp [overtakenBeside])⟩

end WorkQueue

end TenantAccess
