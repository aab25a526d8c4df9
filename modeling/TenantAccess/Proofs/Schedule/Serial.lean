import TenantAccess.Proofs.Schedule.Queue

/-!
# The work queue over a whole history

Producers and workers call a queue in any order.  The history of the calls says which keys are
marked and which are in flight, so that no call that was taken in is lost and none is answered
twice, and whether the queue is down, which it stays.  A delayed addition that falls due is an
addition like any other.
-/

namespace TenantAccess.WorkQueue

variable {κ : Type} {q q₁ q' : WorkQueue κ} {k : κ}

inductive Call (κ : Type) where
  | add (k : κ)
  | take
  | done (k : κ)
  | shutDown

/-- What came of a call. -/
inductive Happening (κ : Type) where
  /-- The key was marked. -/
  | added (k : κ)
  /-- The key had been marked before. -/
  | repeated (k : κ)
  /-- The queue was down and took no key. -/
  | refused (k : κ)
  | handed (k : κ)
  /-- There was no key to hand out. -/
  | starved
  | returned (k : κ)
  | downed

/-- An `x` of the history has no `y` after it. -/
def Since {α : Type} (x y : α) (l : List α) : Prop := ∃ a b, l = a ++ x :: b ∧ y ∉ b

theorem since_snoc {α : Type} {x y z : α} {l : List α} :
    Since x y (l ++ [z]) ↔ z = x ∨ z ≠ y ∧ Since x y l := by
  constructor
  · rintro ⟨a, b, heq, hnot⟩
    rcases List.eq_nil_or_concat b with rfl | ⟨b, z', rfl⟩
    · left
      exact (List.append_inj_right' heq rfl |> List.cons.inj).1
    · right
      rw [List.concat_eq_append, ← List.cons_append, ← List.append_assoc] at heq
      obtain ⟨rfl, hz⟩ := List.append_inj' heq rfl
      rw [List.concat_eq_append, List.mem_append, List.mem_singleton, not_or] at hnot
      refine ⟨fun hy ↦ hnot.2 ?_, a, b, rfl, hnot.1⟩
      rw [← hy, (List.cons.inj hz).1]
  · rintro (rfl | ⟨hz, a, b, rfl, hnot⟩)
    · exact ⟨l, [], rfl, List.not_mem_nil⟩
    · refine ⟨a, b ++ [z], by simp, fun hy ↦ ?_⟩
      rcases List.mem_append.1 hy with hy | hy
      · exact hnot hy
      · exact hz (List.mem_singleton.1 hy).symm

def Allows (q : WorkQueue κ) : Call κ → Prop
  | .done k => k ∈ q.inFlight
  | _ => True

/-- The queue holds what its history says. -/
structure Faithful (l : List (Happening κ)) (q : WorkQueue κ) : Prop where
  sound : q.isDown = false → q.Sound
  nodup : q.pending.Nodup
  free : ∀ k ∈ q.pending, k ∉ q.inFlight
  dirty_iff : ∀ k, k ∈ q.dirty ↔ Since (.added k) (.handed k) l
  inFlight_iff : ∀ k, k ∈ q.inFlight ↔ Since (.handed k) (.returned k) l

theorem Sound.faithful {l : List (Happening κ)} (h : q.Sound)
    (hdirty : ∀ k, k ∈ q.dirty ↔ Since (.added k) (.handed k) l)
    (hflight : ∀ k, k ∈ q.inFlight ↔ Since (.handed k) (.returned k) l) : Faithful l q where
  sound _ := h
  nodup := h.nodup
  free k hk := ((h.mem_pending_iff k).1 hk).2
  dirty_iff := hdirty
  inFlight_iff := hflight

theorem faithful_nil : Faithful [] ({} : WorkQueue κ) :=
  sound_empty.faithful (fun k ↦ by simp [Since]) (fun k ↦ by simp [Since])

variable [DecidableEq κ]

def call (q : WorkQueue κ) : Call κ → Happening κ × WorkQueue κ
  | .add k =>
    (if q.isDown then .refused k else if k ∈ q.dirty then .repeated k else .added k, q.add k)
  | .take =>
    match q.take? with
    | some (k, q') => (.handed k, q')
    | none => (.starved, q)
  | .done k => (.returned k, q.done k)
  | .shutDown => (.downed, q.shutDown)

/-- What a happening says of the call that it comes of. -/
def Happening.ComesOf (q : WorkQueue κ) (c : Call κ) : Happening κ → Prop
  | added k => c = .add k ∧ q.isDown = false ∧ k ∉ q.dirty
  | repeated k => c = .add k ∧ q.isDown = false ∧ k ∈ q.dirty
  | refused k => c = .add k ∧ q.isDown = true
  | handed k => c = .take ∧ ∃ q', q.take? = some (k, q')
  | starved => c = .take ∧ q.take? = none
  | returned k => c = .done k
  | downed => c = .shutDown

theorem comesOf_call (q : WorkQueue κ) (c : Call κ) : (q.call c).1.ComesOf q c := by
  cases c with
  | add k =>
    simp only [call]
    split
    · next hdown => exact ⟨rfl, hdown⟩
    · next hup =>
      have hup : q.isDown = false := by simpa using hup
      split
      · next hmem => exact ⟨rfl, hup, hmem⟩
      · next hnot => exact ⟨rfl, hup, hnot⟩
  | take =>
    simp only [call]
    split
    · next k q' htake => exact ⟨rfl, q', htake⟩
    · next htake => exact ⟨rfl, htake⟩
  | done k => rfl
  | shutDown => rfl

theorem Happening.ComesOf.of_eq {c : Call κ} {x : Happening κ} (h : (q.call c).1 = x) :
    x.ComesOf q c := h ▸ comesOf_call q c

inductive Run : WorkQueue κ → List (Happening κ) → WorkQueue κ → Prop
  | nil (q : WorkQueue κ) : Run q [] q
  | cons {q q' : WorkQueue κ} {l : List (Happening κ)} (c : Call κ) (hallows : q.Allows c)
      (hrest : Run (q.call c).2 l q') : Run q ((q.call c).1 :: l) q'

theorem Run.head {x : Happening κ} {l : List (Happening κ)} (h : Run q (x :: l) q') :
    ∃ c, q.Allows c ∧ x.ComesOf q c ∧ Run (q.call c).2 l q' := by
  cases h with
  | cons c hallows hrest => exact ⟨c, hallows, comesOf_call q c, hrest⟩

theorem Run.split {l₁ l₂ : List (Happening κ)} (h : Run q (l₁ ++ l₂) q') :
    ∃ q₁, Run q l₁ q₁ ∧ Run q₁ l₂ q' := by
  induction l₁ generalizing q with
  | nil => exact ⟨q, .nil q, h⟩
  | cons x l₁ ih =>
    cases h with
    | cons c hallows hrest =>
      obtain ⟨q₁, hfirst, hsecond⟩ := ih hrest
      exact ⟨q₁, .cons c hallows hfirst, hsecond⟩

section Down

/-- Only a shutdown takes a queue down, and nothing brings it up again. -/
theorem isDown_call_iff (q : WorkQueue κ) (c : Call κ) :
    (q.call c).2.isDown = true ↔ q.isDown = true ∨ (q.call c).1 = .downed := by
  by_cases hdowned : (q.call c).1 = .downed
  · obtain rfl : c = .shutDown := Happening.ComesOf.of_eq hdowned
    exact iff_of_true rfl (.inr rfl)
  · rw [or_iff_left hdowned]
    cases c with
    | add k => rw [call, isDown_add]
    | take =>
      cases htake : q.take? with
      | none => simp [call, htake]
      | some handed => simp [call, htake, isDown_take htake]
    | done k => rw [call, isDown_done]
    | shutDown => exact absurd rfl hdowned

theorem Run.isDown_iff {l : List (Happening κ)} (h : Run q l q') :
    q'.isDown = true ↔ q.isDown = true ∨ .downed ∈ l := by
  induction h with
  | nil q => simp
  | @cons q q' l c hallows hrest ih =>
    calc
      q'.isDown = true ↔ (q.isDown = true ∨ (q.call c).1 = .downed) ∨ .downed ∈ l := by
        rw [ih, isDown_call_iff]
      _ ↔ q.isDown = true ∨ .downed ∈ (q.call c).1 :: l := by
        rw [List.mem_cons, or_assoc, eq_comm (a := Happening.downed)]

theorem call_down (hdown : q.isDown = true) (c : Call κ) :
    (q.call c).2.isDown = true ∧ (q.call c).2.pending = q.pending ∧
      ∀ k, (q.call c).1 ≠ .handed k := by
  refine ⟨(isDown_call_iff q c).2 (.inl hdown), ?_, fun k heq ↦ ?_⟩
  · cases c <;> simp [call, add, take?, done, shutDown, hdown]
  · obtain ⟨-, q', htake⟩ := Happening.ComesOf.of_eq heq
    simp [up_of_take htake] at hdown

/-- A queue that is down keeps its pending keys to itself. -/
theorem Run.of_down {l : List (Happening κ)} (h : Run q l q') (hdown : q.isDown = true) :
    q'.pending = q.pending ∧ ∀ k, .handed k ∉ l := by
  induction h with
  | nil q => exact ⟨rfl, fun k ↦ List.not_mem_nil⟩
  | cons c hallows hrest ih =>
    obtain ⟨hstill, hpending, hnone⟩ := call_down hdown c
    obtain ⟨hkept, hrest⟩ := ih hstill
    refine ⟨hkept.trans hpending, fun k hmem ↦ ?_⟩
    rcases List.mem_cons.1 hmem with heq | hmem
    · exact hnone k heq.symm
    · exact hrest k hmem

end Down

namespace Faithful

variable {l : List (Happening κ)}

theorem call_add (h : Faithful l q) (k : κ) :
    Faithful (l ++ [(q.call (.add k)).1]) (q.call (.add k)).2 := by
  cases hdown : q.isDown with
  | true =>
    have heq : q.call (.add k) = (.refused k, q) := by simp [call, add, hdown]
    rw [heq]
    refine ⟨h.sound, h.nodup, h.free, fun a ↦ ?_, fun a ↦ ?_⟩
    · simpa [since_snoc] using h.dirty_iff a
    · simpa [since_snoc] using h.inFlight_iff a
  | false =>
    have hsound := h.sound hdown
    refine (hsound.add k).faithful (fun a ↦ ?_) (fun a ↦ ?_)
    · rw [hsound.mem_dirty_add_iff, h.dirty_iff]
      by_cases hmem : k ∈ q.dirty
      · have hlabel : (q.call (.add k)).1 = .repeated k := by simp [call, hdown, hmem]
        rw [hlabel, since_snoc]
        have hmarked := (h.dirty_iff k).1 hmem
        constructor
        · rintro (rfl | hsince)
          · exact .inr ⟨by simp, hmarked⟩
          · exact .inr ⟨by simp, hsince⟩
        · rintro (heq | ⟨-, hsince⟩)
          · cases heq
          · exact .inr hsince
      · have hlabel : (q.call (.add k)).1 = .added k := by simp [call, hdown, hmem]
        rw [hlabel, since_snoc]
        simp [eq_comm]
    · rw [inFlight_add, h.inFlight_iff, since_snoc]
      by_cases hmem : k ∈ q.dirty <;> simp [call, hdown, hmem]

theorem call_take (h : Faithful l q) : Faithful (l ++ [(q.call .take).1]) (q.call .take).2 := by
  cases htake : q.take? with
  | none =>
    have heq : q.call .take = (.starved, q) := by simp [call, htake]
    rw [heq]
    refine ⟨h.sound, h.nodup, h.free, fun a ↦ ?_, fun a ↦ ?_⟩
    · simpa [since_snoc] using h.dirty_iff a
    · simpa [since_snoc] using h.inFlight_iff a
  | some handed =>
    obtain ⟨k, q'⟩ := handed
    have heq : q.call .take = (.handed k, q') := by simp [call, htake]
    obtain ⟨hsound, -, -, hdirty, hflight⟩ := (h.sound (up_of_take htake)).take htake
    rw [heq]
    refine hsound.faithful (fun a ↦ ?_) (fun a ↦ ?_)
    · rw [hdirty, h.dirty_iff, since_snoc]
      simp [eq_comm]
    · rw [hflight, h.inFlight_iff, since_snoc]
      simp [eq_comm]

theorem call_done (h : Faithful l q) (hk : k ∈ q.inFlight) :
    Faithful (l ++ [(q.call (.done k)).1]) (q.call (.done k)).2 := by
  have hdirty : ∀ a, a ∈ (q.done k).dirty ↔ Since (.added a) (.handed a) (l ++ [.returned k]) := by
    intro a
    rw [dirty_done, h.dirty_iff, since_snoc]
    simp
  have hflight : ∀ a, a ∈ (q.done k).inFlight ↔
      Since (.handed a) (.returned a) (l ++ [.returned k]) := by
    intro a
    rw [mem_inFlight_done_iff, h.inFlight_iff, since_snoc]
    simp [eq_comm]
  cases hdown : q.isDown with
  | true =>
    have hpending : (q.done k).pending = q.pending := (call_down hdown (.done k)).2.1
    have hstill : (q.done k).isDown = true := (call_down hdown (.done k)).1
    refine ⟨fun hup ↦ ?_, ?_, fun a ha hmem ↦ ?_, hdirty, hflight⟩
    · simp [call, hstill] at hup
    · exact hpending ▸ h.nodup
    · exact h.free a (hpending ▸ ha) (mem_inFlight_done_iff.1 hmem).2
  | false => exact ((h.sound hdown).done hk).faithful hdirty hflight

theorem call_shutDown (h : Faithful l q) :
    Faithful (l ++ [(q.call .shutDown).1]) (q.call .shutDown).2 := by
  refine ⟨fun hup ↦ (nomatch hup), h.nodup, h.free, fun a ↦ ?_, fun a ↦ ?_⟩
  · simpa [since_snoc, call, shutDown] using h.dirty_iff a
  · simpa [since_snoc, call, shutDown] using h.inFlight_iff a

theorem step (h : Faithful l q) {c : Call κ} (hallows : q.Allows c) :
    Faithful (l ++ [(q.call c).1]) (q.call c).2 := by
  cases c with
  | add k => exact h.call_add k
  | take => exact h.call_take
  | done k => exact h.call_done hallows
  | shutDown => exact h.call_shutDown

theorem run {l' : List (Happening κ)} (h : Faithful l q) (hrun : Run q l' q') :
    Faithful (l ++ l') q' := by
  induction hrun generalizing l with
  | nil q => simpa using h
  | cons c hallows hrest ih => simpa using ih (h.step hallows)

theorem of_handed {l' : List (Happening κ)} (h : Faithful l q) (hrun : Run q (.handed k :: l') q') :
    Since (.added k) (.handed k) l ∧ ¬Since (.handed k) (.returned k) l := by
  obtain ⟨c, -, ⟨-, q₁, htake⟩, -⟩ := hrun.head
  obtain ⟨-, hdirty, hflight, -⟩ := (h.sound (up_of_take htake)).take htake
  exact ⟨(h.dirty_iff k).1 hdirty, fun hsince ↦ hflight ((h.inFlight_iff k).2 hsince)⟩

theorem mem_dirty_of_added (h : Faithful [] q) {a b : List (Happening κ)} {x : Happening κ}
    (hrun : Run q (a ++ x :: b) q') (hx : x = .added k ∨ x = .repeated k) (hb : .handed k ∉ b) :
    k ∈ q'.dirty := by
  have hwhole := h.run hrun
  rw [List.nil_append] at hwhole
  rcases hx with rfl | rfl
  · exact (hwhole.dirty_iff k).2 ⟨a, b, rfl, hb⟩
  · -- The addition found the key marked, by an earlier addition.
    obtain ⟨q₁, hbefore, hafter⟩ := hrun.split
    obtain ⟨c, -, ⟨-, -, hmem⟩, -⟩ := hafter.head
    have hmarked := (h.run hbefore).dirty_iff k
    obtain ⟨a₁, a₂, hsplit, ha₂⟩ := hmarked.1 hmem
    rw [List.nil_append] at hsplit
    refine (hwhole.dirty_iff k).2 ⟨a₁, a₂ ++ .repeated k :: b, by simp [hsplit], fun hlater ↦ ?_⟩
    simp only [List.mem_append, List.mem_cons, reduceCtorEq, false_or] at hlater
    exact hlater.elim ha₂ hb

end Faithful

/-- What is promised of a queue with the history `l`. -/
structure Serial (l : List (Happening κ)) (q : WorkQueue κ) : Prop where
  /-- Between two hand-outs of a key it was handed back. -/
  alone : ∀ k a b c, l = a ++ .handed k :: b ++ .handed k :: c → .returned k ∈ b
  /-- No hand-out without an addition after the one before. -/
  called : ∀ k a b, l = a ++ .handed k :: b → Since (.added k) (.handed k) a
  inFlight_iff : ∀ k, k ∈ q.inFlight ↔ Since (.handed k) (.returned k) l
  dirty_iff : ∀ k, k ∈ q.dirty ↔ Since (.added k) (.handed k) l
  nodup : q.pending.Nodup
  free : ∀ k ∈ q.pending, k ∉ q.inFlight
  isDown_iff : q.isDown = true ↔ .downed ∈ l
  /-- An addition is turned away exactly if it comes after the shutdown. -/
  refused_iff : ∀ k x a b, x = .added k ∨ x = .repeated k ∨ x = .refused k → l = a ++ x :: b →
    (x = .refused k ↔ .downed ∈ a)
  placed : .downed ∉ l → ∀ k ∈ q.dirty, k ∉ q.inFlight → q.pending.count k = 1
  heldBack : .downed ∉ l → ∀ k ∈ q.dirty, k ∈ q.inFlight →
    k ∉ q.pending ∧ (q.done k).pending = q.pending ++ [k]
  /-- Every addition is answered by a hand-out, or the key is marked still. -/
  answered : ∀ k x a b, x = .added k ∨ x = .repeated k → l = a ++ x :: b →
    .handed k ∈ b ∨ k ∈ q.dirty
  isIdle_iff : q.isIdle ↔ q.pending = [] ∧ ∀ k, ¬Since (.handed k) (.returned k) l
  /-- From the shutdown on nothing is handed out, and the keys that were pending stay. -/
  kept : ∀ a b, l = a ++ .downed :: b →
    (∀ k, .handed k ∉ b) ∧ ∃ q₁, Run {} a q₁ ∧ q.pending = q₁.pending
  /-- Whatever is called later changes nothing about that. -/
  still : .downed ∈ l → ∀ l' q', Run q l' q' →
    q'.pending = q.pending ∧ ∀ k, .handed k ∉ l'

theorem serial_of_run {l : List (Happening κ)} (h : Run {} l q) : Serial l q := by
  have hfaithful : Faithful l q := faithful_nil.run h
  have hdown : q.isDown = true ↔ .downed ∈ l := by simpa using h.isDown_iff
  have hup (hopen : .downed ∉ l) : q.isDown = false := by simpa using mt hdown.1 hopen
  constructor
  case alone =>
    intro k a b c heq
    rw [heq] at h
    obtain ⟨q₁, hbefore, hafter⟩ := h.split
    have hfree := ((faithful_nil.run hbefore).of_handed hafter).2
    by_cases hb : .returned k ∈ b
    · exact hb
    · exact (hfree ⟨a, b, rfl, hb⟩).elim
  case called =>
    intro k a b heq
    rw [heq] at h
    obtain ⟨q₁, hbefore, hafter⟩ := h.split
    exact ((faithful_nil.run hbefore).of_handed hafter).1
  case inFlight_iff => exact hfaithful.inFlight_iff
  case dirty_iff => exact hfaithful.dirty_iff
  case nodup => exact hfaithful.nodup
  case free => exact hfaithful.free
  case isDown_iff => exact hdown
  case refused_iff =>
    intro k x a b hx heq
    rw [heq] at h
    obtain ⟨q₁, hbefore, hafter⟩ := h.split
    obtain ⟨c, -, hcomes, -⟩ := hafter.head
    have hdown₁ : q₁.isDown = true ↔ .downed ∈ a := by simpa using hbefore.isDown_iff
    rw [← hdown₁]
    rcases hx with rfl | rfl | rfl
    · obtain ⟨-, hopen, -⟩ := hcomes
      simp [hopen]
    · obtain ⟨-, hopen, -⟩ := hcomes
      simp [hopen]
    · obtain ⟨-, hshut⟩ := hcomes
      simp [hshut]
  case placed =>
    intro hopen k hdirty hflight
    have hmem := ((hfaithful.sound (hup hopen)).mem_pending_iff k).2 ⟨hdirty, hflight⟩
    rw [hfaithful.nodup.count, if_pos hmem]
  case heldBack =>
    intro hopen k hdirty hflight
    exact ⟨fun hmem ↦ hfaithful.free k hmem hflight, by simp [done, hdirty, hup hopen]⟩
  case answered =>
    intro k x a b hx heq
    rw [heq] at h
    by_cases hb : .handed k ∈ b
    · exact .inl hb
    · exact .inr (faithful_nil.mem_dirty_of_added h hx hb)
  case isIdle_iff =>
    have hnone : q.inFlight = [] ↔ ∀ k, ¬Since (.handed k) (.returned k) l := by
      rw [List.eq_nil_iff_forall_not_mem]
      exact forall_congr' fun k ↦ not_congr (hfaithful.inFlight_iff k)
    rw [isIdle, Bool.and_eq_true, List.isEmpty_iff, List.isEmpty_iff, hnone]
  case kept =>
    intro a b heq
    rw [heq] at h
    obtain ⟨q₁, hbefore, hafter⟩ := h.split
    obtain ⟨c, -, rfl, hrest⟩ := hafter.head
    obtain ⟨hpending, hnone⟩ := hrest.of_down rfl
    exact ⟨hnone, q₁, hbefore, hpending⟩
  case still =>
    intro hshut l' q' hrun
    exact hrun.of_down (hdown.2 hshut)

/-- While 7 is in hand it is added twice more, and 8 once. -/
def addedInHand : List (Happening Nat) :=
  [.added 7, .handed 7, .added 7, .repeated 7, .added 8]

/-- Then 7 is handed back and queued again, and the queue is shut down while 8 is in hand. -/
def secondAddition : List (Happening Nat) :=
  addedInHand ++ [.returned 7, .handed 8, .downed, .refused 8, .returned 8]

theorem serial_of_second_addition :
    let waiting : WorkQueue Nat := { pending := [8], dirty := [8, 7], inFlight := [7] }
    let stopped : WorkQueue Nat := { pending := [7], dirty := [7], isDown := true }
    (Run {} addedInHand waiting ∧ Serial addedInHand waiting) ∧
      Run {} secondAddition stopped ∧ Serial secondAddition stopped := by
  intro waiting stopped
  have hopen : Run {} addedInHand waiting :=
    .cons (.add 7) trivial <| .cons .take trivial <| .cons (.add 7) trivial <|
    .cons (.add 7) trivial <| .cons (.add 8) trivial <| .nil _
  have hdown : Run {} secondAddition stopped :=
    .cons (.add 7) trivial <| .cons .take trivial <| .cons (.add 7) trivial <|
    .cons (.add 7) trivial <| .cons (.add 8) trivial <| .cons (.done 7) (.head _) <|
    .cons .take trivial <| .cons .shutDown trivial <| .cons (.add 8) trivial <|
    .cons (.done 8) (.head _) <| .nil _
  exact ⟨⟨hopen, serial_of_run hopen⟩, hdown, serial_of_run hdown⟩

end TenantAccess.WorkQueue
