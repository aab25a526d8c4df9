import TenantAccess.Proofs.Program.Alike
import TenantAccess.Proofs.Rbac.Contract
import TenantAccess.Proofs.Rbac.Pass

/-!
# Carrying out orders

An order asks for one role or binding on behalf of its owner.  Orders for different places do not
disturb each other: what becomes of each is decided by what is stored before the first of them, and
once they are carried out there is nothing left to do for any.
-/

namespace TenantAccess

open Json Store

/-- A role or a binding that is to be ensured for its owner. -/
structure Order where
  {α ω γ : Type}
  [derived : Derived α]
  [plain : Derived.Plain α]
  [resource : Resource ω]
  [decidable : DecidableEq γ]
  desired : α
  owner : ω
  /-- What a role or a binding says. -/
  content : α → γ
  differs_eq_false_iff : ∀ observed : α,
    Derived.differs desired observed = false ↔ content observed = content desired

namespace Order

attribute [instance] derived plain resource decidable

variable {s after : Store} {env : Surroundings} {now : Timestamp} {o o' : Order}

def role {ω : Type} [Resource ω] {scope : Scope} (desired : Role scope) (owner : ω) : Order where
  desired := desired
  owner := owner
  content := Role.rules
  differs_eq_false_iff _ := Role.differs_eq_false_iff

def binding {ω : Type} [Resource ω] {scope : Scope} (desired : Binding scope) (owner : ω) :
    Order where
  desired := desired
  owner := owner
  content b := (b.roleRef, b.subjects)
  differs_eq_false_iff _ := Binding.differs_eq_false_iff

def ref (o : Order) : ObjectRef := Resource.ref o.desired

def uid (o : Order) : String := (Resource.metadata o.owner).uid

structure Valid (o : Order) : Prop where
  gate_eq : gate o.desired = []
  scope_eq : scopeDefect (Resource.kind o.α) (Resource.metadata o.desired) = none

def task (now : Timestamp) (o : Order) : Task EnsureOutcome := ensure now o.desired o.owner

def outcome (now : Timestamp) (s : Store) (o : Order) : EnsureOutcome :=
  verdict o.desired o.uid (s.found now o.desired)

def pending (now : Timestamp) (s : Store) (o : Order) : Bool := (o.outcome now s).isWrite

def settle (env : Surroundings) (now : Timestamp) (s : Store) (o : Order) : Store :=
  ensuredStore env s o.desired o.owner (s.found now o.desired)

theorem outcome_congr (h : after.objects.get? o.ref = s.objects.get? o.ref) :
    o.outcome now after = o.outcome now s := by
  unfold outcome found
  rw [show after.objects.get? (Resource.ref o.desired) = s.objects.get? (Resource.ref o.desired)
    from h]

theorem clear_of_readable (h : s.Readable now) (o : Order) : s.Clear now o.desired :=
  fun _ hget ↦ h.exists_decode hget

theorem exec_task {w : World} (env : Surroundings) (h : w.store.Readable now) (ho : o.Valid) :
    (o.task now).exec env w = (.ok (o.outcome now w.store), w.withStore (o.settle env now w.store)) :=
  exec_ensure_found env h.coherent o.owner ho.gate_eq ho.scope_eq (o.clear_of_readable h)

/-! ## One order -/

theorem readable_settle (h : s.Readable now) (env : Surroundings) (ho : o.Valid) :
    (o.settle env now s).Readable now := by
  have hcoherent : (o.settle env now s).Coherent :=
    coherent_ensuredStore h.coherent env now o.owner ho.scope_eq
  unfold settle at hcoherent ⊢
  cases hfound : s.found now o.desired with
  | none =>
    rw [hfound] at hcoherent
    exact h.recorded hcoherent
  | some observed =>
    rw [hfound] at hcoherent
    obtain ⟨-, hover⟩ | ⟨-, hsame⟩ := ensuredStore_some env s o.desired observed o.owner
    · rw [hover] at hcoherent ⊢
      exact h.recorded hcoherent
    · rwa [hsame]

theorem get?_settle (h : s.Coherent) (env : Surroundings) {ref : ObjectRef} (href : ref ≠ o.ref) :
    (o.settle env now s).objects.get? ref = s.objects.get? ref :=
  get?_ensuredStore h env o.owner href

theorem writes_settle (env : Surroundings) (now : Timestamp) (s : Store) (o : Order) :
    (o.settle env now s).writes = s.writes + if o.pending now s then 1 else 0 :=
  writes_ensuredStore ..

theorem settle_of_pending_eq_false (h : o.pending now s = false) : o.settle env now s = s :=
  ensuredStore_of_isWrite_eq_false h

theorem outcome_settle (h : s.Coherent) (env : Surroundings) (now : Timestamp) (o : Order) :
    o.outcome now (o.settle env now s) =
      if o.outcome now s = .notOwned then .notOwned else .unchanged :=
  verdict_again h env now o.desired o.owner

/-! ## One order after the other -/

def carryOut (now : Timestamp) : List Order → PassSummary → Task PassSummary
  | [], summary => return summary
  | o :: rest, summary => do
    let outcome ← o.task now
    carryOut now rest (summary.record outcome)

theorem carryOut_append (now : Timestamp) (l l' : List Order) (summary : PassSummary) :
    carryOut now (l ++ l') summary = carryOut now l summary >>= carryOut now l' := by
  induction l generalizing summary with
  | nil => rfl
  | cons o rest ih => simp only [List.cons_append, carryOut, bind_assoc, ih]

def Distinct (l : List Order) : Prop := l.Pairwise fun o o' ↦ o.ref ≠ o'.ref

/-- The orders `l` are carried out on the way from `s` to `after`. -/
structure Settled (now : Timestamp) (l : List Order) (s after : Store) : Prop where
  readable : after.Readable now
  frame : s.AgreesOff after (l.map ref)
  writes : after.writes = s.writes + l.countP (pending now s)
  outcome_eq : ∀ o ∈ l, o.outcome now after =
    if o.outcome now s = .notOwned then .notOwned else .unchanged
  kept : ∀ o ∈ l, o.pending now s = false → after.objects.get? o.ref = s.objects.get? o.ref
  idle : (∀ o ∈ l, o.pending now s = false) → after = s

theorem settled_foldl (h : s.Readable now) (env : Surroundings) {l : List Order}
    (hvalid : ∀ o ∈ l, o.Valid) (hdistinct : Distinct l) :
    Settled now l s (l.foldl (settle env now) s) := by
  induction l generalizing s with
  | nil => exact ⟨h, fun _ _ ↦ rfl, rfl, nofun, nofun, fun _ ↦ rfl⟩
  | cons o rest ih =>
    obtain ⟨hhead, htail⟩ := List.pairwise_cons.1 hdistinct
    have hfirst := readable_settle h env (hvalid o List.mem_cons_self)
    have hrest := ih hfirst (fun o' ho' ↦ hvalid o' (List.mem_cons_of_mem _ ho')) htail
    rw [List.foldl_cons]
    generalize rest.foldl (settle env now) (o.settle env now s) = after at hrest ⊢
    -- the first order leaves the places of the others alone, and they leave its place alone
    have hothers {o' : Order} (ho' : o' ∈ rest) :
        (o.settle env now s).objects.get? o'.ref = s.objects.get? o'.ref :=
      get?_settle h.coherent env (hhead o' ho').symm
    have hplace : after.objects.get? o.ref = (o.settle env now s).objects.get? o.ref :=
      hrest.frame o.ref fun hmem ↦ by
        obtain ⟨o', ho', href⟩ := List.mem_map.1 hmem
        exact hhead o' ho' href.symm
    have hpending {o' : Order} (ho' : o' ∈ rest) :
        o'.pending now (o.settle env now s) = o'.pending now s :=
      congrArg EnsureOutcome.isWrite (outcome_congr (hothers ho'))
    constructor
    case readable => exact hrest.readable
    case frame =>
      intro ref hmem
      rw [List.map_cons, List.mem_cons, not_or] at hmem
      rw [hrest.frame ref hmem.2, get?_settle h.coherent env hmem.1]
    case writes =>
      rw [hrest.writes, writes_settle, List.countP_cons, List.countP_congr fun o' ho' ↦ by
        rw [hpending ho']]
      omega
    case outcome_eq =>
      intro o' ho'
      rcases List.mem_cons.1 ho' with rfl | ho'
      · rw [outcome_congr hplace, outcome_settle h.coherent]
      · rw [hrest.outcome_eq o' ho', outcome_congr (hothers ho')]
    case kept =>
      intro o' ho' hidle
      rcases List.mem_cons.1 ho' with rfl | ho'
      · rw [hplace, settle_of_pending_eq_false hidle]
      · rw [hrest.kept o' ho' ((hpending ho').trans hidle), hothers ho']
    case idle =>
      intro hidle
      rw [hrest.idle fun o' ho' ↦ (hpending ho').trans (hidle o' (List.mem_cons_of_mem _ ho')),
        settle_of_pending_eq_false (hidle o List.mem_cons_self)]

/-- Carrying out orders for different places succeeds, and counts what becomes of each of them where
it stands before the first. -/
theorem exec_carryOut {w : World} (env : Surroundings) (h : w.store.Readable now) {l : List Order}
    (hvalid : ∀ o ∈ l, o.Valid) (hdistinct : Distinct l) (summary : PassSummary) :
    (carryOut now l summary).exec env w =
      (.ok ((l.map (outcome now w.store)).foldl PassSummary.record summary),
        w.withStore (l.foldl (settle env now) w.store)) := by
  induction l generalizing w summary with
  | nil => rfl
  | cons o rest ih =>
    obtain ⟨hhead, htail⟩ := List.pairwise_cons.1 hdistinct
    have ho := hvalid o List.mem_cons_self
    have hrest := ih (w := w.withStore (o.settle env now w.store)) (readable_settle h env ho)
      (fun o' ho' ↦ hvalid o' (List.mem_cons_of_mem _ ho')) htail
      (summary.record (o.outcome now w.store))
    have hsame : rest.map (outcome now (o.settle env now w.store)) =
        rest.map (outcome now w.store) :=
      List.map_congr_left fun o' ho' ↦
        outcome_congr (get?_settle h.coherent env (hhead o' ho').symm)
    rw [carryOut, Task.exec_bind_of_ok (exec_task env h ho), hrest, World.store_withStore, hsame]
    rfl

end Order

/-! ## Counting outcomes -/

theorem Order.outcome_cases (now : Timestamp) (s : Store) (o : Order) :
    o.outcome now s = .created ∨ o.outcome now s = .updated ∨ o.outcome now s = .unchanged ∨
      o.outcome now s = .notOwned := by
  unfold outcome
  cases s.found now o.desired with
  | none => exact .inl rfl
  | some observed =>
    obtain ⟨-, h⟩ | ⟨-, -, h⟩ | ⟨-, -, h⟩ := verdict_cases o.desired observed o.uid <;> simp [h]

theorem PassSummary.foldl_record {l : List EnsureOutcome}
    (h : ∀ outcome ∈ l, ∀ verbs, outcome ≠ .rejected verbs) (s : PassSummary) :
    l.foldl record s = { s with
      created := s.created + l.count .created
      updated := s.updated + l.count .updated
      unchanged := s.unchanged + l.count .unchanged
      notOwned := s.notOwned + l.count .notOwned } := by
  induction l generalizing s with
  | nil => rfl
  | cons outcome rest ih =>
    rw [List.foldl_cons, ih fun outcome' hmem ↦ h outcome' (List.mem_cons_of_mem _ hmem)]
    cases outcome with
    | rejected verbs => exact absurd rfl (h _ List.mem_cons_self verbs)
    | _ => simp [record, Nat.add_assoc, Nat.add_comm 1]

end TenantAccess
