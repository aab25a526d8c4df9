import TenantAccess.Proofs.Program.Abandoned
import TenantAccess.Proofs.Rbac.Accounted
import TenantAccess.Proofs.Rbac.Gated

/-!
# Passes that are given up and run again

A pass that is given up has carried out some of its orders, from the first to one of them.  The next
pass over the namespace has the same orders, finds those in place, and carries out the others as the
first would have done.
-/

namespace TenantAccess

open Json Store TenantAccess.Derivation

section Ensure

variable {α ω : Type} [Derived α] [Derived.Lawful α] [Resource ω] {env : Surroundings}
  {now : Timestamp} {w v : World} {desired : α} {owner : ω}

theorem Task.GivenUp.of_ensure (h : w.store.Coherent)
    (hup : (ensure now desired owner).GivenUp env w v) :
    v.store = w.store ∨ v.store = ((ensure now desired owner).exec env w).2.store := by
  by_cases hgate : gate desired = []
  · rw [ensure_eq now owner hgate] at hup ⊢
    have hreads : (Task.find? (α := α) now (Resource.key desired)).Asks Request.AnyReply
        Request.Reads := Task.asks_find? trivial
    rcases hup.of_bind_reads hreads with hsame | ⟨o, w', hfind, hup⟩
    · exact .inl hsame
    · obtain ⟨rfl, -⟩ := Task.exec_find?_eq_ok h hfind
      rw [Task.exec_bind_of_ok hfind]
      -- only the last request writes
      have hanswer (reply : Except StoreError Json) (outcome : EnsureOutcome) :
          (Task.ofStore reply >>= fun object ↦ Task.decode (α := α) now object >>= fun _ ↦
            pure outcome : Task EnsureOutcome).Asks Request.AnyReply fun _ ↦ False :=
        (Task.asks_ofStore reply).bind fun object ↦ (Task.asks_decode object).bind fun _ ↦
          Task.asks_pure _
      cases o with
      | none =>
        simp only [Task.create, bind_assoc] at hup ⊢
        exact (hup.of_ask_bind fun reply ↦ by exact hanswer reply _).imp (congrArg World.store)
          (congrArg World.store)
      | some observed =>
        dsimp only at hup ⊢
        split at hup
        · exact .inl (congrArg World.store hup.eq_of_pure)
        · split at hup
          · exact .inl (congrArg World.store hup.eq_of_pure)
          · next hdiffers howned =>
            rw [if_neg hdiffers, if_neg howned]
            simp only [Task.update, bind_assoc] at hup ⊢
            exact (hup.of_ask_bind fun reply ↦ by exact hanswer reply _).imp (congrArg World.store)
              (congrArg World.store)
  · unfold ensure at hup
    rw [if_pos hgate] at hup
    exact .inl (congrArg World.store hup.eq_of_pure)

end Ensure

/-! ## Orders and passes -/

namespace Order

variable {env : Surroundings} {now : Timestamp} {w v : World} {o : Order} {l : List Order}
  {summary : PassSummary}

theorem store_of_givenUp (h : w.store.Readable now) (ho : o.Valid)
    (hup : (o.task now).GivenUp env w v) :
    v.store = w.store ∨ v.store = o.settle env now w.store := by
  have hstore := Task.GivenUp.of_ensure h.coherent hup
  rwa [show ensure now o.desired o.owner = o.task now from rfl, exec_task env h ho] at hstore

/-- Orders that are given up have been carried out from the first to one of them. -/
theorem exists_of_givenUp (h : w.store.Readable now) (hvalid : ∀ o ∈ l, o.Valid)
    (hup : (carryOut now l summary).GivenUp env w v) :
    ∃ done rest, l = done ++ rest ∧ v.store = done.foldl (settle env now) w.store := by
  induction l generalizing w summary with
  | nil => exact ⟨[], [], rfl, congrArg World.store hup.eq_of_pure⟩
  | cons o rest ih =>
    have ho := hvalid o List.mem_cons_self
    rcases hup.of_bind with hup | ⟨outcome, w', hexec, hup⟩
    · rcases store_of_givenUp h ho hup with hstore | hstore
      · exact ⟨[], o :: rest, rfl, hstore⟩
      · exact ⟨[o], rest, rfl, hstore⟩
    · rw [exec_task env h ho] at hexec
      cases hexec
      obtain ⟨done, rest', rfl, hstore⟩ := ih (readable_settle h env ho)
        (fun o' ho' ↦ hvalid o' (List.mem_cons_of_mem _ ho')) hup
      exact ⟨o :: done, rest', rfl, hstore⟩

/-- Once the first of the orders are carried out, all of them come to what they would have come to. -/
theorem foldl_settle_resumed {s : Store} (h : s.Readable now) (env : Surroundings)
    {done rest : List Order} (hvalid : ∀ o ∈ done, o.Valid) (hdistinct : Distinct done) :
    (done ++ rest).foldl (settle env now) (done.foldl (settle env now) s) =
      (done ++ rest).foldl (settle env now) s := by
  have hdone := settled_foldl h env hvalid hdistinct
  have hidle : done.foldl (settle env now) (done.foldl (settle env now) s) =
      done.foldl (settle env now) s :=
    (settled_foldl hdone.readable env hvalid hdistinct).idle fun _ ↦ hdone.pending_eq_false
  rw [List.foldl_append, List.foldl_append, hidle]

end Order

namespace Pass

variable {env env' : Surroundings} {now : Timestamp} {w v : World} {ns : String}

theorem givenUp_of_bring {summary : PassSummary} (h : w.store.Readable now)
    (hup : (bring now ns (w.store.claimants now ns) (w.store.inventoriesIn now ns)
      summary).GivenUp env w v) :
    ∃ done rest, w.store.ordersIn env.reviewer now ns = done ++ rest ∧
      v.store = done.foldl (Order.settle env now) w.store := by
  rw [bring_eq_carryOut] at hup
  rcases hup.of_bind_reads (asks_study ..) with hsame | ⟨_, _, hstudy, hup⟩
  · exact ⟨[], _, rfl, hsame⟩
  · obtain ⟨inputs, reviews, hexec, horders⟩ := exec_study_of_readable h env ns
    rw [hexec] at hstudy
    cases hstudy
    dsimp only at hup
    rw [horders] at hup
    exact Order.exists_of_givenUp (w := { w with reviews }) h
      (fun _ ↦ valid_of_mem_ordersIn h.coherent) hup

theorem exists_of_givenUp (h : w.store.Readable now) (hup : (run now ns).GivenUp env w v) :
    ∃ done rest, w.store.ordersIn env.reviewer now ns = done ++ rest ∧
      v.store = done.foldl (Order.settle env now) w.store := by
  -- nothing is written while it lists and publishes
  have hnothing (hstore : v.store = w.store) :
      ∃ done rest, w.store.ordersIn env.reviewer now ns = done ++ rest ∧
        v.store = done.foldl (Order.settle env now) w.store := ⟨[], _, rfl, hstore⟩
  have hclaims : (Task.ask .claims).Asks Request.AnyReply Request.Reads := Task.asks_ask trivial
  have hrefresh : (refresh now).Asks Request.AnyReply Request.Reads :=
    asks_refresh now (fun _ _ ↦ trivial) fun _ ↦ trivial
  have hlist : (Task.list (α := Inventory) now (.inNamespace ns)).Asks Request.AnyReply
      Request.Reads := Task.asks_list trivial
  let claims := w.claims.publish (w.store.objectsOf Tenant now .all)
  rw [run_eq] at hup
  rcases hup.of_bind_reads hclaims with hsame | ⟨_, _, hexec, hup⟩
  · exact hnothing hsame
  cases hexec
  rcases hup.of_bind_reads hrefresh with hsame | ⟨_, _, hexec, hup⟩
  · exact hnothing hsame
  rw [exec_refresh_of_readable h env] at hexec
  cases hexec
  rcases hup.of_bind_reads hlist with hsame | ⟨_, _, hexec, hup⟩
  · exact hnothing hsame
  rw [exec_listed_of_readable (w := { w with claims }) h env ns] at hexec
  cases hexec
  exact givenUp_of_bring (w := { w with claims }) h hup

theorem exec_run_resumed (h : w.store.Readable now) (hup : (run now ns).GivenUp env w v) :
    v.store.Readable now ∧
      ∃ summary u summary' u', (run now ns).exec env w = (.ok summary, u) ∧
        (run now ns).exec env v = (.ok summary', u') ∧ u'.store = u.store := by
  obtain ⟨done, rest, horders, hstore⟩ := exists_of_givenUp h hup
  obtain ⟨first, claims, reviews, -, hexec⟩ := exec_run_ordered h env ns
  have hvalid (o : Order) (ho : o ∈ done ++ rest) : o.Valid :=
    valid_of_mem_ordersIn h.coherent (horders ▸ ho)
  have hdistinct : Order.Distinct (done ++ rest) :=
    horders ▸ distinct_ordersIn h.coherent env.reviewer now ns
  have hsettled : Order.Settled now done w.store v.store := hstore ▸ Order.settled_foldl h env
    (fun o ho ↦ hvalid o (List.mem_append_left _ ho)) (List.pairwise_append.1 hdistinct).1
  obtain ⟨first', claims', reviews', -, hexec'⟩ := exec_run_ordered hsettled.readable env ns
  refine ⟨hsettled.readable, _, _, _, _, hexec, hexec', ?_⟩
  have hsame : v.store.ordersIn env.reviewer now ns = w.store.ordersIn env.reviewer now ns :=
    (hsettled.ordersIn_eq fun o ho ↦ horders ▸ List.mem_append_left rest ho).2.2
  dsimp only
  rw [hsame, horders, hstore]
  exact Order.foldl_settle_resumed h env (fun o ho ↦ hvalid o (List.mem_append_left _ ho))
    (List.pairwise_append.1 hdistinct).1

end Pass

/-! ## Passes at different times -/

/-- Two stores with the same objects, apart from the stamps on roles and bindings, after as many
writes. -/
structure Store.Twins (now : Timestamp) (s s' : Store) : Prop where
  agree : s.Agree now (fun _ ↦ True) s'
  kept : ∀ ref, ref.kind.origin = none → s.objects.get? ref = s'.objects.get? ref
  writes : s.writes = s'.writes

theorem Store.Twins.trans {now : Timestamp} {s s' s'' : Store} (h : s.Twins now s')
    (h' : s'.Twins now s'') : s.Twins now s'' where
  agree := ⟨h.agree.left, h'.agree.right, fun ref hP ↦
    (h.agree.content ref hP).trans (h'.agree.content ref hP)⟩
  kept ref horigin := (h.kept ref horigin).trans (h'.kept ref horigin)
  writes := h.writes.trans h'.writes

namespace Pass

variable {now : Timestamp} {w : World} {ns : String}

theorem settled_of_exec_run {env : Surroundings} (h : w.store.Readable now) {summary : PassSummary}
    {u : World} (hexec : (run now ns).exec env w = (.ok summary, u)) :
    Order.Settled now (w.store.ordersIn env.reviewer now ns) w.store u.store := by
  obtain ⟨first, claims, reviews, -, hrun⟩ := exec_run_ordered h env ns
  rw [hrun] at hexec
  cases hexec
  exact Order.settled_foldl h env (fun _ ↦ valid_of_mem_ordersIn h.coherent)
    (distinct_ordersIn h.coherent ..)

theorem exec_run_twins (h : w.store.Readable now) (reviewer : Reviewer) (a a' : Ambient)
    (ns : String) (later : Timestamp) :
    ∃ summary u summary' u', (run now ns).exec ⟨a, reviewer⟩ w = (.ok summary, u) ∧
      (run later ns).exec ⟨a', reviewer⟩ w = (.ok summary', u') ∧ u.store.Twins now u'.store := by
  have hsame : SameIn now ns w.store w.store reviewer reviewer :=
    ⟨rfl, rfl, fun _ _ ↦ rfl, fun _ _ ↦ rfl⟩
  obtain ⟨summary, u, summary', u', hexec, hexec', -, hstep⟩ :=
    @run_isolated ⟨a, reviewer⟩ ⟨a', reviewer⟩ now w w ns h h hsame
  have hsettled := settled_of_exec_run h hexec
  have hsettled' := settled_of_exec_run h hexec'
  refine ⟨summary, u, summary', u', hexec, (exec_run_at h _ later ns).trans hexec', ?_⟩
  constructor
  case agree =>
    refine ⟨hstep.agree.left, hstep.agree.right, fun ref _ ↦ ?_⟩
    by_cases hgoverns : Governs ns (w.store.claimants now ns) ref
    · exact hstep.agree.content ref hgoverns
    · unfold contentAt
      rw [hstep.frame_left ref hgoverns, hstep.frame_right ref hgoverns]
  case kept =>
    intro ref horigin
    rw [hsettled.get?_of_origin horigin, hsettled'.get?_of_origin horigin]
  case writes => rw [hsettled.writes, hsettled'.writes]

theorem asks_run_single (now : Timestamp) (ns : String) :
    (run now ns).Asks Request.AnyReply Request.Single := by
  rw [run_eq]
  have hrefresh : (refresh now).Asks Request.AnyReply Request.Single :=
    asks_refresh now (fun _ _ ↦ trivial) fun _ ↦ trivial
  exact (Task.asks_ask trivial).bind fun _ ↦ hrefresh.bind fun _ ↦
    (Task.asks_list trivial).bind fun _ ↦ asks_bring (fun _ ↦ trivial) (fun _ ↦ trivial)
      (fun _ _ ↦ asks_ensure now trivial (fun _ ↦ trivial) fun _ _ ↦ trivial)
      (fun _ _ ↦ asks_ensure now trivial (fun _ ↦ trivial) fun _ _ ↦ trivial) ..

/-- A pass over a readable store may be given up after any number of its writes.  Wherever that is, the
next pass over the namespace succeeds, at any time, and leaves the objects that the whole pass would
have left, after as many writes in all. -/
theorem run_resumed (h : w.store.Readable now) (reviewer : Reviewer) (a a₁ a₂ : Ambient)
    (ns : String) :
    ∃ summary u, (run now ns).exec ⟨a, reviewer⟩ w = (.ok summary, u) ∧
      (∀ k, w.store.writes + k ≤ u.store.writes →
        ∃ v, (run now ns).GivenUp ⟨a₁, reviewer⟩ w v ∧ v.store.writes = w.store.writes + k) ∧
      ∀ v, (run now ns).GivenUp ⟨a₁, reviewer⟩ w v → ∀ later,
        ∃ again u', (run later ns).exec ⟨a₂, reviewer⟩ v = (.ok again, u') ∧
          u.store.Twins now u'.store := by
  obtain ⟨summary, u, summary₁, u₁, hexec, hexec₁, htwins⟩ :=
    exec_run_twins h reviewer a a₁ ns now
  refine ⟨summary, u, hexec, fun k hk ↦ ?_, fun v hup later ↦ ?_⟩
  · refine Program.exists_givenUp (asks_run_single now ns) (Nat.le_add_right _ k) ?_
    change _ ≤ ((run now ns).exec ⟨a₁, reviewer⟩ w).2.store.writes
    rwa [hexec₁, ← htwins.writes]
  · obtain ⟨hreadable, _, _, _, v₁, hwhole, hrest, hsame⟩ := exec_run_resumed h hup
    rw [hexec₁] at hwhole
    cases hwhole
    obtain ⟨_, _, again, u', hrest', hexec', htwins'⟩ :=
      exec_run_twins hreadable reviewer a₁ a₂ ns later
    rw [hrest] at hrest'
    cases hrest'
    exact ⟨again, u', hexec', htwins.trans (hsame ▸ htwins')⟩

/-- A pass over the namespace of a tenant and its inventory, given up after two of its four writes. -/
theorem run_resumed_halfway :
    let team : Tenant := ⟨{ ObjectMeta.cluster "team" with uid := "team" }, "shop", .of ["ann"] []⟩
    let db : Inventory := { metadata := { ObjectMeta.namespaced "shop" "db" with uid := "db" } }
    let w := World.after {} [.creating team, .creating db]
    let later : Ambient := ⟨default, fun n ↦ "later-" ++ toString n⟩
    ∃ summary u v summary' u', (run default "shop").exec quiet w = (.ok summary, u) ∧
      (run default "shop").GivenUp quiet w v ∧
      u.store.writes = w.store.writes + 4 ∧ v.store.writes = w.store.writes + 2 ∧
      (run default "shop").exec ⟨later, quiet.reviewer⟩ v = (.ok summary', u') ∧
      u.store.Twins default u'.store := by
  intro team db w later
  have hempty : (World.store {}).Readable default := readable_of_derivation derivation_empty _
  have hreadable : w.store.Readable default := World.readable_call_creating .inventory
    (World.readable_call_creating .tenant hempty team) db
  obtain ⟨summary, u, hexec, hcut, hresumed⟩ :=
    run_resumed hreadable quiet.reviewer quiet.ambient quiet.ambient later "shop"
  have hwrites : ((run default "shop").exec quiet w).2.store.writes = w.store.writes + 4 := by
    decide +kernel
  clear_value w
  rw [show (run default "shop").exec quiet w = (.ok summary, u) from hexec] at hwrites
  obtain ⟨v, hup, htwo⟩ := hcut 2 (by rw [hwrites]; omega)
  obtain ⟨summary', u', hexec', htwins⟩ := hresumed v hup default
  exact ⟨summary, u, v, summary', u', hexec, hup, hwrites, htwo, hexec', htwins⟩

end Pass

end TenantAccess
