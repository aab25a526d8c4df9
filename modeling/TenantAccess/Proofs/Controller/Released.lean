import TenantAccess.Controller.Basic
import TenantAccess.Proofs.Controller.Claims
import TenantAccess.Proofs.Program.Course
import TenantAccess.Proofs.Rbac.Ordered
import TenantAccess.Proofs.Schedule.Queue

/-!
# Namespaces that a reconcile releases

A pass publishes who claims which namespace before it does anything that may fail, and only its result
tells which namespaces that released.  So these are called for exactly if it succeeds.
-/

namespace TenantAccess

open Store

/-! ## What a pass releases -/

/-- Between the first and the last of these exchanges `ns` was released: it is claimed in the claims
that were read, and not in those that were published. -/
def Exchange.Released (l : List Exchange) (ns : String) : Prop :=
  ∃ previous tenants published, ⟨.claims, previous⟩ ∈ l ∧ ⟨.publish tenants, published⟩ ∈ l ∧
    Claims.contains previous ns ∧ Claims.contains published ns = false

def Request.SparesClaims : Request → Prop
  | claims | publish _ => False
  | _ => True

/-- If claims are read once, at first, and published once, these tell what was released. -/
theorem Exchange.released_iff {previous published : Claims} {tenants : List Tenant}
    {listing later : List Exchange} {ns : String}
    (h : ∀ e ∈ listing ++ later, e.request.SparesClaims) :
    Released (⟨.claims, previous⟩ :: (listing ++ ⟨.publish tenants, published⟩ :: later)) ns ↔
      previous.contains ns ∧ published.contains ns = false := by
  constructor
  · rintro ⟨_, _, _, hread, hpublished, hbefore, hafter⟩
    have hother {e : Exchange} (he : e ∈ listing ∨ e ∈ later) : e.request.SparesClaims :=
      h e (List.mem_append.2 he)
    simp only [List.mem_cons, List.mem_append] at hread hpublished
    rcases hread with heq | hlisting | heq | hlater
    · cases heq
      rcases hpublished with heq | hlisting | heq | hlater
      · cases heq
      · cases hother (.inl hlisting)
      · cases heq
        exact ⟨hbefore, hafter⟩
      · cases hother (.inr hlater)
    · cases hother (.inl hlisting)
    · cases heq
    · cases hother (.inr hlater)
  · rintro ⟨hbefore, hafter⟩
    exact ⟨previous, tenants, published, by simp, by simp, hbefore, hafter⟩

namespace Pass

variable {σ : Type} {answer : (r : Request) → StateM σ r.Reply} {s s' : σ} {l : List Exchange}
  {now : Timestamp} {ns other : String} {summary summary' : PassSummary}

theorem released_carryOut {orders : List Order}
    (h : (Order.carryOut now orders summary).Course answer s l (.ok summary') s') :
    summary'.released = summary.released := by
  induction orders generalizing s l summary with
  | nil =>
    cases h.of_pure.2
    rfl
  | cons o rest ih =>
    obtain ⟨-, outcome, s₁, l₂, -, hrest, -⟩ := h.of_bind_ok
    rw [ih hrest, PassSummary.released_record]

theorem released_bring {tenants : List Tenant} {listed : List Inventory}
    (h : (bring now ns tenants listed summary).Course answer s l (.ok summary') s') :
    summary'.released = summary.released := by
  rw [bring_eq_carryOut] at h
  obtain ⟨_, ⟨inventories, inputs⟩, _, _, -, hcarry, -⟩ := h.of_bind_ok
  dsimp only at hcarry
  rw [released_carryOut hcarry]

theorem asks_bring_sparesClaims (now : Timestamp) (ns : String) (tenants : List Tenant)
    (listed : List Inventory) (summary : PassSummary) :
    (bring now ns tenants listed summary).Asks Request.AnyReply Request.SparesClaims :=
  asks_bring (fun _ ↦ trivial) (fun _ ↦ trivial)
    (fun _ _ ↦ asks_ensure now trivial (fun _ ↦ trivial) fun _ _ ↦ trivial)
    (fun _ _ ↦ asks_ensure now trivial (fun _ ↦ trivial) fun _ _ ↦ trivial) tenants listed summary

theorem course_refresh {result : Except Error (Claims × List Tenant)}
    (h : (refresh now).Course answer s l result s') :
    (∃ e, result = .error e ∧ ∀ e ∈ l, e.request.SparesClaims) ∨
      ∃ claims tenants listing, result = .ok (claims, tenants) ∧
        l = listing ++ [⟨.publish tenants, claims⟩] ∧ ∀ e ∈ listing, e.request.SparesClaims := by
  have hlisting : (Task.list (α := Tenant) now .all).Asks Request.AnyReply Request.SparesClaims :=
    Task.asks_list trivial
  rcases h.of_bind with ⟨e, hfails, hlist⟩ | ⟨listing, tenants, _, publishing, hlist, hrest, hl⟩
  · exact .inl ⟨e, hfails, hlisting.course hlist⟩
  rcases hrest.of_bind with ⟨e, -, hpublish⟩ | ⟨_, claims, _, nothing, hpublish, hpure, hpublishing⟩
  · cases hpublish.of_ask.1
  obtain ⟨hreply, rfl⟩ := hpublish.of_ask
  obtain ⟨rfl, hresult⟩ := hpure.of_pure
  cases hreply
  rw [List.append_nil] at hpublishing
  exact .inr ⟨_, tenants, listing, hresult, by rw [hl, hpublishing], hlisting.course hlist⟩

/-- A pass reads the claims at first.  Either it fails before it has published any, or it publishes
them once, and then its summary, if there is one, tells what was released. -/
theorem course_run {result : Except Error PassSummary}
    (h : (run now ns).Course answer s l result s') :
    ∃ (previous : Claims) (rest : List Exchange), l = ⟨.claims, previous⟩ :: rest ∧
      (((∃ e, result = .error e) ∧ ∀ e ∈ rest, e.request.SparesClaims) ∨
        ∃ listing tenants published later,
          rest = listing ++ ⟨.publish tenants, published⟩ :: later ∧
          (∀ e ∈ listing ++ later, e.request.SparesClaims) ∧
          ∀ summary, result = .ok summary →
            summary.released = Claims.releasedSince published previous) := by
  rw [run_eq] at h
  rcases h.of_bind with ⟨e, -, hclaims⟩ | ⟨_, previous, _, rest, hclaims, hrest, hl⟩
  · cases hclaims.of_ask.1
  refine ⟨previous, rest, ?_, ?_⟩
  · obtain ⟨hprevious, hasked⟩ := hclaims.of_ask
    cases hprevious
    rw [hl, hasked]
    rfl
  rcases hrest.of_bind with
    ⟨e, hfails, hrefresh⟩ | ⟨_, ⟨claims, tenants⟩, _, later, hrefresh, hlater, hl'⟩
  · rcases course_refresh hrefresh with ⟨_, -, hspares⟩ | ⟨_, _, _, hok, -⟩
    · exact .inl ⟨⟨e, hfails⟩, hspares⟩
    · cases hok
  rcases course_refresh hrefresh with ⟨e, hfails, -⟩ | ⟨_, _, listing, hok, hrefreshing, hspares⟩
  · cases hfails
  cases hok
  refine .inr ⟨listing, tenants, claims, later, ?_, fun e he ↦ ?_, fun summary hresult ↦ ?_⟩
  · rw [hl', hrefreshing, List.append_assoc, List.singleton_append]
  · have hasks : (Task.list (α := Inventory) now (.inNamespace ns) >>= fun listed ↦
        bring now ns (tenants.filter (·.inventoryNamespace = ns)) listed {
          namespaceName := ns
          snapshotVersion := claims.version
          released := claims.releasedSince previous }).Asks Request.AnyReply
        Request.SparesClaims :=
      (Task.asks_list trivial).bind fun _ ↦ asks_bring_sparesClaims ..
    rcases List.mem_append.1 he with he | he
    · exact hspares e he
    · exact hasks.course hlater e he
  · subst hresult
    obtain ⟨_, listed, _, _, -, hbring, -⟩ := hlater.of_bind_ok
    exact released_bring hbring

theorem mem_released_iff (h : (run now ns).Course answer s l (.ok summary) s') :
    other ∈ summary.released ↔ Exchange.Released l other := by
  obtain ⟨previous, rest, rfl, ⟨⟨e, he⟩, -⟩ | ⟨_, _, published, _, rfl, hspares, hreleased⟩⟩ :=
    course_run h
  · cases he
  · rw [hreleased summary rfl, Claims.mem_releasedSince_iff]
    exact (Exchange.released_iff hspares).symm

end Pass

theorem ReconcileKey.mem_work_authz_iff {σ : Type} {answer : (r : Request) → StateM σ r.Reply}
    {now : Timestamp} {ns other : String} {s s' : σ} {l : List Exchange} {released : List String}
    (h : ((ReconcileKey.authz ns).work now).Course answer s l (.ok released) s') :
    other ∈ released ↔ other ≠ ns ∧ Exchange.Released l other := by
  obtain ⟨_, summary, _, nothing, hpass, hpure, rfl⟩ :=
    Task.Course.of_bind_ok (x := Pass.run now ns) h
  obtain ⟨rfl, hreleased⟩ := hpure.of_pure
  cases hreleased
  rw [List.append_nil, ← Pass.mem_released_iff hpass, List.mem_filter, decide_eq_true_iff, and_comm]

/-! ## What a reconcile calls for -/

section Awaits

variable {κ : Type} {q : WorkQueue κ} {k : κ}

/-- The key is to be handed out, now or when its holder is done. -/
def WorkQueue.Awaits (q : WorkQueue κ) (k : κ) : Prop :=
  k ∈ q.pending ∨ k ∈ q.inFlight ∧ k ∈ q.dirty

theorem WorkQueue.Sound.awaits_iff (h : q.Sound) : q.Awaits k ↔ k ∈ q.dirty := by
  rw [Awaits, h.mem_pending_iff]
  by_cases hflight : k ∈ q.inFlight <;> simp [hflight]

end Awaits

namespace Verdict

def isDone : Verdict → Bool
  | done _ => true
  | _ => false

theorem ofResult_error (e : Error) :
    (ofResult (.error e)).isDone = false ∧ (ofResult (.error e)).keys = [] := by
  unfold ofResult
  dsimp only
  split <;> exact ⟨rfl, rfl⟩

end Verdict

namespace Controller

variable {σ : Type} {now : Timestamp} {ns : String} {q : WorkQueue ReconcileKey}

theorem run_attempt (b : Backend (StateM σ)) (now : Timestamp) (key : ReconcileKey)
    (q : WorkQueue ReconcileKey) (s : σ) :
    ((attempt b now key).run.run q).run s =
      let r := ((key.work now).run.interpret b.answer).run s
      ((.ok (.ofResult r.1), (Verdict.ofResult r.1).keys.foldl WorkQueue.add q), r.2) := rfl

/-- However the requests of a reconcile are answered, the other namespaces that its pass releases are
called for afterwards exactly if it succeeds, or each of them was called for before. -/
theorem released_awaited_iff (b : Backend (StateM σ)) (now : Timestamp) (ns : String)
    (hq : q.Sound) (s : σ) :
    ∃ l result s' after, ((ReconcileKey.authz ns).work now).Course b.answer s l result s' ∧
      ((attempt b now (.authz ns)).run.run q).run s = ((.ok (.ofResult result), after), s') ∧
      ((∀ other, other ≠ ns → Exchange.Released l other → after.Awaits (.authz other)) ↔
        (Verdict.ofResult result).isDone ∨
          ∀ other, other ≠ ns → Exchange.Released l other → q.Awaits (.authz other)) := by
  obtain ⟨l, hcourse⟩ := Program.exists_course b.answer ((ReconcileKey.authz ns).work now).run s
  have hrun := run_attempt b now (.authz ns) q s
  dsimp only at hrun
  generalize ((((ReconcileKey.authz ns).work now).run.interpret b.answer).run s).1 = result at *
  generalize ((((ReconcileKey.authz ns).work now).run.interpret b.answer).run s).2 = s' at *
  refine ⟨l, result, s', _, hcourse, hrun, ?_⟩
  cases result with
  | error e =>
    obtain ⟨hfailed, hnothing⟩ := Verdict.ofResult_error e
    rw [hfailed, hnothing]
    simp
  | ok others =>
    refine iff_of_true (fun other hne hreleased ↦ ?_) (.inl rfl)
    have hmem : other ∈ others :=
      (ReconcileKey.mem_work_authz_iff hcourse).2 ⟨hne, hreleased⟩
    rw [(hq.foldl_add _).awaits_iff, hq.mem_dirty_foldl_add_iff]
    exact .inl (List.mem_map_of_mem hmem)

/-- A tenant claimed `shop`, a pass has published that, and the tenant has moved to `bar`. -/
def departed : World :=
  let team : Tenant := { Tenant.new "team" "shop" with developer := .of ["ann"] [] }
  let claimed := ((Task.create default team).exec quiet {}).2
  let passed := ((Pass.run default "shop").exec quiet claimed).2
  ((Task.update default { team with inventoryNamespace := "bar" }).exec quiet passed).2

/-- A pass over the namespace to which the tenant has moved releases the one it has left. -/
theorem released_awaited_after_departure :
    ∃ l result w after,
      ((ReconcileKey.authz "bar").work default).Course (Backend.reliable quiet).answer departed l
        result w ∧
      ((attempt (.reliable quiet) default (.authz "bar")).run.run {}).run departed =
        ((.ok (.ofResult result), after), w) ∧
      Exchange.Released l "shop" ∧ after.pending = [.authz "shop"] ∧
      ∀ other, other ≠ "bar" → Exchange.Released l other → after.Awaits (.authz other) := by
  obtain ⟨l, result, w, after, hcourse, hrun, hiff⟩ :=
    released_awaited_iff (.reliable quiet) default "bar" WorkQueue.sound_empty departed
  obtain ⟨hkeys, hpending⟩ :
      let r := ((attempt (.reliable quiet) default (.authz "bar")).run.run {}).run departed
      r.1.1.toOption.map Verdict.keys = some [.authz "shop"] ∧ r.1.2.pending = [.authz "shop"] := by
    decide +kernel
  rw [hrun] at hkeys hpending
  have hcalled : (Verdict.ofResult result).keys = [.authz "shop"] := Option.some.inj hkeys
  cases result with
  | error e =>
    rw [(Verdict.ofResult_error e).2] at hcalled
    cases hcalled
  | ok others =>
    have hmem : "shop" ∈ others := by
      have hcall : ReconcileKey.authz "shop" ∈ (Verdict.ofResult (.ok others)).keys := by
        rw [hcalled]
        exact List.mem_singleton_self _
      obtain ⟨_, hother, heq⟩ := List.mem_map.1 hcall
      cases heq
      exact hother
    exact ⟨l, _, w, after, hcourse, hrun, ((ReconcileKey.mem_work_authz_iff hcourse).1 hmem).2,
      hpending, hiff.2 (.inl rfl)⟩

/-- A pass over a namespace with an inventory that cannot be read: the claims that it has published no
longer tell of the namespace that the tenant has left, and nothing calls for a visit there. -/
theorem released_forgotten_after_failure :
    let broken : Json := .obj [("metadata", (ObjectMeta.namespaced "attic" "db").encode),
      ("spec", .str "postgres")]
    let before := ((Request.create .inventory broken).perform quiet departed).2
    let r := ((attempt (.reliable quiet) default (.authz "attic")).run.run {}).run before
    r.1.1.toOption.map Verdict.isDone = some false ∧ before.claims.contains "shop" ∧
      r.2.claims.version = before.claims.version + 1 ∧ r.2.claims.contains "shop" = false ∧
      ¬r.1.2.Awaits (.authz "shop") := by
  intro broken before r
  obtain ⟨hfailed, hbefore, hversion, hafter, hpending, hflight⟩ :
      r.1.1.toOption.map Verdict.isDone = some false ∧ before.claims.contains "shop" ∧
        r.2.claims.version = before.claims.version + 1 ∧ r.2.claims.contains "shop" = false ∧
        r.1.2.pending = [] ∧ r.1.2.inFlight = [] := by decide +kernel
  refine ⟨hfailed, hbefore, hversion, hafter, ?_⟩
  rw [WorkQueue.Awaits, hpending, hflight]
  simp

end Controller

end TenantAccess
