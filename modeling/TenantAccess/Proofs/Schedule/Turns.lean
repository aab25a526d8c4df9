import TenantAccess.Proofs.Schedule.Traffic

/-!
# Takers one at a time

A waiting queue lets each taker and each caller come to an end before the next one begins.  That is
one way for their steps to follow each other.
-/

namespace TenantAccess

open WaitingQueue

variable {κ ι : Type}

namespace WaitingQueue

def Answer.incidents (w : ι) : Answer κ → List (Incident κ ι)
  | .key k => [.ended w (.key k)]
  | .waits => []
  | .shutDown => [.ended w .shutDown]

variable [DecidableEq κ] [DecidableEq ι] {r r' r'' : WaitingQueue κ ι}
  {l l' : List (Incident κ ι)} {w : ι} {k : κ}

omit [DecidableEq ι] in
theorem look_of_down (hdown : r.queue.isDown = true) :
    r.look w = (.shutDown, { r with signal := false }) := by
  simp [look, hdown]

omit [DecidableEq ι] in
theorem look_of_take {q : WorkQueue κ} (htake : r.queue.take? = some (k, q)) :
    r.look w = (.key k, { r with queue := q, signal := false }) := by
  simp [look, WorkQueue.up_of_take htake, htake]

omit [DecidableEq ι] in
theorem look_of_none (hup : r.queue.isDown = false) (hnone : r.queue.take? = none) :
    r.look w = (.waits, { r with signal := false, waiting := r.waiting ++ [w] }) := by
  simp [look, hup, hnone]

/-- Something is done with the queue at one go. -/
inductive Turn (r : WaitingQueue κ ι) : List (Incident κ ι) → WaitingQueue κ ι → Prop
  | look {w : ι} (hw : w ∉ r.registered) :
    Turn r (.started w :: (r.look w).1.incidents w) (r.look w).2
  /-- A woken taker looks again. -/
  | poll {w : ι} (hw : w ∈ r.woken) :
    Turn r ((look { r with woken := r.woken.erase w } w).1.incidents w)
      (look { r with woken := r.woken.erase w } w).2
  | cancel {w : ι} (hw : w ∈ r.registered) : Turn r [.ended w .dropped] (r.cancel w)
  | add (k : κ) : Turn r [.called (r.queue.call (.add k)).1] (r.add k)
  | done {k : κ} (hk : k ∈ r.queue.inFlight) : Turn r [.called (.returned k)] (r.done k)
  | shutDown : Turn r [.called .downed] r.shutDown

abbrev Turns : WaitingQueue κ ι → List (Incident κ ι) → WaitingQueue κ ι → Prop := Trace Turn

omit [DecidableEq ι] in
theorem woken_look (r : WaitingQueue κ ι) (w : ι) : (r.look w).2.woken = r.woken := by
  unfold look
  dsimp only
  split
  · rfl
  · split <;> rfl

theorem exists_turns_foldl {β : Type} {f : β × WaitingQueue κ ι → ι → β × WaitingQueue κ ι}
    (hf : ∀ a r w, (f (a, r) w).2 = (look { r with woken := r.woken.erase w } w).2) (ws : List ι)
    (a : β) (hwoken : r.woken = ws) :
    ∃ l, Turns r l (ws.foldl f (a, r)).2 ∧ (ws.foldl f (a, r)).2.woken = [] := by
  induction ws generalizing r a with
  | nil => exact ⟨[], .nil r, hwoken⟩
  | cons w ws ih =>
    have hturn : Turn r _ _ := .poll (w := w) (by simp [hwoken])
    rw [← hf a] at hturn
    have hrest : (f (a, r) w).2.woken = ws := by
      rw [hf, woken_look, hwoken, List.erase_cons_head]
    obtain ⟨l, hturns, hnone⟩ := ih (f (a, r) w).1 hrest
    exact ⟨_, .cons hturn hturns, hnone⟩

/-- To let everybody have a turn who was woken is to let one after the other look again. -/
theorem exists_turns_settle (r : WaitingQueue κ ι) :
    ∃ l, Turns r l r.settle.2 ∧ r.settle.2.woken = [] := by
  refine exists_turns_foldl (fun a r w ↦ ?_) r.woken [] rfl
  dsimp only
  split
  · next heq => rw [heq]
  · next heq => rw [heq]

end WaitingQueue

namespace Traffic

variable [DecidableEq κ] [DecidableEq ι] {r r' : WaitingQueue κ ι} {l l' : List (Incident κ ι)}
  {w : ι} {k : κ} {q : WorkQueue κ}

/-! ## One taker alone -/

theorem run_register (hsignal : r.signal = false) :
    Run { room := r, coming := {w} } []
      { room := { r with waiting := r.waiting ++ [w] }, looking := {w} } := by
  have hstep := Step.register (s := { room := r, coming := {w} }) (Finset.mem_singleton_self w)
    hsignal
  rw [Finset.erase_singleton] at hstep
  exact .single hstep

theorem run_heed (hsignal : r.signal = true) :
    Run { room := r, coming := {w} } []
      { room := { r with signal := false }, looking := {w} } := by
  have hstep := Step.heed (s := { room := r, coming := {w} }) (Finset.mem_singleton_self w) hsignal
  rw [Finset.erase_singleton] at hstep
  exact .single hstep

theorem run_stay (hup : r.queue.isDown = false) (hnone : r.queue.take? = none)
    (hw : w ∈ r.registered) : Run { room := r, looking := {w} } [] { room := r } := by
  have hstep := Step.stay (s := { room := r, looking := {w} }) (Finset.mem_singleton_self w) hup
    hnone hw
  rw [Finset.erase_singleton] at hstep
  exact .single hstep

theorem run_again (hup : r.queue.isDown = false) (hnone : r.queue.take? = none)
    (hw : w ∉ r.registered) :
    Run { room := r, looking := {w} } [] { room := r, coming := {w} } := by
  have hstep := Step.again (s := { room := r, looking := {w} }) (Finset.mem_singleton_self w) hup
    hnone hw
  rw [Finset.erase_singleton] at hstep
  exact .single hstep

theorem run_leave (hw : w ∉ r.woken) : Run { room := r, leaving := {w} } []
    { room := { r with waiting := r.waiting.erase w } } := by
  have hstep := Step.leave (s := { room := r, leaving := {w} }) (Finset.mem_singleton_self w)
    (.asleep hw)
  rw [Finset.erase_singleton] at hstep
  exact .single hstep

theorem run_refuse (hdown : r.queue.isDown = true) (hw : w ∉ r.woken) :
    Run { room := r, looking := {w} } [.ended w .shutDown]
      { room := { r with waiting := r.waiting.erase w } } := by
  have hstep := Step.refuse (s := { room := r, looking := {w} }) (Finset.mem_singleton_self w)
    hdown
  rw [Finset.erase_singleton] at hstep
  exact .cons hstep (run_leave hw)

theorem run_take (htake : r.queue.take? = some (k, q)) (hw : w ∉ r.woken) :
    Run { room := r, looking := {w} } [.ended w (.key k)]
      { room := { r with queue := q, waiting := r.waiting.erase w } } := by
  have hstep := Step.take (s := { room := r, looking := {w} }) (Finset.mem_singleton_self w)
    htake
  rw [Finset.erase_singleton] at hstep
  exact .cons hstep (run_leave hw)

theorem exists_run_looking (hw : w ∉ r.waiting) : ∃ ws, ws.erase w = r.waiting ∧
    Run { room := r, coming := {w} } []
      { room := { r with signal := false, waiting := ws }, looking := {w} } := by
  cases hsignal : r.signal with
  | true => exact ⟨r.waiting, List.erase_of_not_mem hw, run_heed hsignal⟩
  | false =>
    refine ⟨r.waiting ++ [w], ?_, ?_⟩
    · rw [List.erase_append_right _ hw, List.erase_cons_head, List.append_nil]
    · rw [← hsignal]
      exact run_register hsignal

theorem run_wait (hup : r.queue.isDown = false) (hnone : r.queue.take? = none)
    (hw : w ∉ r.registered) : Run { room := r, coming := {w} } []
      { room := { r with signal := false, waiting := r.waiting ++ [w] } } := by
  have hlast : Run { room := { r with signal := false }, coming := {w} } []
      { room := { r with signal := false, waiting := r.waiting ++ [w] } } := by
    have hregister := run_register (r := { r with signal := false }) (w := w) rfl
    exact hregister.trans (run_stay hup hnone (by simp [registered]))
  cases hsignal : r.signal with
  | true =>
    have hagain := run_again (r := { r with signal := false }) (w := w) hup hnone hw
    exact ((run_heed hsignal).trans hagain).trans hlast
  | false =>
    rwa [← hsignal] at hlast ⊢

theorem run_look (hw : w ∉ r.registered) :
    Run { room := r, coming := {w} } ((r.look w).1.incidents w) { room := (r.look w).2 } := by
  obtain ⟨hwaiting, hwoken⟩ : w ∉ r.waiting ∧ w ∉ r.woken := by simpa [registered] using hw
  obtain ⟨ws, hstruck, hlooking⟩ := exists_run_looking hwaiting
  cases hdown : r.queue.isDown with
  | true =>
    rw [look_of_down hdown]
    have hrefuse := run_refuse (r := { r with signal := false, waiting := ws }) hdown hwoken
    rw [hstruck] at hrefuse
    exact hlooking.trans hrefuse
  | false =>
    cases htake : r.queue.take? with
    | some handed =>
      rw [look_of_take htake]
      have htaken := run_take (r := { r with signal := false, waiting := ws }) htake hwoken
      rw [hstruck] at htaken
      exact hlooking.trans htaken
    | none =>
      rw [look_of_none hdown htake]
      exact run_wait hdown htake hw

/-! ## Everything at one go -/

theorem run_push (hq : q.length ≤ r.queue.length + 1) :
    Run (({ room := r } : Traffic κ ι).push q) [] { room := r.change q } := by
  unfold change push
  split
  · next hless =>
    have howed : 0 + (q.length - r.queue.length) = 1 := by omega
    rw [howed]
    exact .single (Step.notify Nat.one_pos (notifies_notify _))
  · next hnot =>
    have howed : 0 + (q.length - r.queue.length) = 0 := by omega
    rw [howed]
    exact .nil _

theorem length_add_le (q : WorkQueue κ) (k : κ) : (q.add k).length ≤ q.length + 1 := by
  unfold WorkQueue.add WorkQueue.length
  split
  · omega
  · split <;> simp

theorem length_done_le (q : WorkQueue κ) (k : κ) : (q.done k).length ≤ q.length + 1 := by
  unfold WorkQueue.done WorkQueue.length
  dsimp only
  split <;> simp

theorem run_of_turn (h : r.Turn l r') (hr : r.registered.Nodup) :
    Run { room := r } l { room := r' } := by
  cases h with
  | @look w hw =>
    have hstart := Step.start (s := { room := r }) (w := w) (by simp [Open, hw]) (by simp)
    rw [insert_empty_eq] at hstart
    exact .cons hstart (run_look hw)
  | @poll w hw =>
    have hpoll := Step.poll (s := { room := r }) hw (by simp) (by simp)
    rw [insert_empty_eq] at hpoll
    have hout : w ∉ ({ r with woken := r.woken.erase w } : WaitingQueue κ ι).registered := by
      rw [registered_erase_woken hr hw]
      exact hr.not_mem_erase
    exact .cons hpoll (run_look hout)
  | @cancel w hw =>
    exact .single (Step.drop hw (by simp) (by simp) (releases_cancel r w))
  | add k => exact .cons (.add k) (run_push (length_add_le r.queue k))
  | @done k hk => exact .cons (.done hk) (run_push (length_done_le r.queue k))
  | shutDown =>
    have hwake : Step { room := { r with queue := r.queue.shutDown }, closing := 1 } []
        { room := { r with
          queue := r.queue.shutDown
          waiting := []
          woken := r.woken ++ r.waiting }, owed := 1 } := .wakeAll Nat.one_pos
    have hnotify : Step { room := { r with
        queue := r.queue.shutDown
        waiting := []
        woken := r.woken ++ r.waiting }, owed := 1 } [] { room := r.shutDown } :=
      .notify Nat.one_pos (.signal rfl)
    exact .cons Step.shutDown (.cons hwake (.single hnotify))

theorem run_of_turns {l₀ : List (Incident κ ι)} (h : r.Turns l r')
    (hplaced : Placed l₀ { room := r }) : Run { room := r } l { room := r' } :=
  h.refine (f := fun r ↦ ({ room := r } : Traffic κ ι))
    (fun hplaced hturn ↦ run_of_turn hturn hplaced.nodup) Placed.step hplaced

end Traffic

end TenantAccess
