import TenantAccess.Controller.Basic
import TenantAccess.Proofs.Program.Asks
import TenantAccess.Proofs.Selection.Tended

/-!
# How far the reconcile of a config is

A reconcile reads its config, looks at the namespace, writes its decision if that changes anything,
and minds the quota.  What it does next follows from how far it is, and what it decides from what the
namespace holds when it looks.
-/

namespace TenantAccess

open Store

/-- What a worker still has to do for its key. -/
abbrev Work := Program (Except Error (List String))

inductive Phase where
  /-- It has not decided, or has failed to. -/
  | before
  /-- It is about to write that the config is active, or that it is not. -/
  | deciding (active : Bool)
  /-- What is left is about the quota. -/
  | after
deriving DecidableEq

def Request.Looks : Request → Prop
  | list .. => True
  | _ => False

def Task.idle (t : Task ConfigDecision) : Work := (do let _ ← t; return [] : Task (List String)).run

def Config.looking (now : Timestamp) (c : Config) (ns : String) : Task ConfigDecision := do
  c.transition now (← listIn now ns)

namespace Quota

/-- The answers on quotas are quotas with the one limit. -/
def Answers : (r : Request) → r.Reply → Prop
  | .get ref, reply => ref.kind = .resourceQuota → ∀ object, reply = .ok object →
    ∃ q : ResourceQuota, object = Resource.encode q ∧ q.hard = configLimit
  | _, _ => True

/-- The calls on behalf of the quota of a config. -/
def Minds (ns name : String) : Request → Prop
  | .get ref | .delete ref => ref.kind = .resourceQuota ∧ ref.key.ns? = some ns
  | .create kind object => kind = .resourceQuota ∧
    ∃ c : Config, c.metadata.key = ⟨some ns, name⟩ ∧ object = Resource.encode c.desiredQuota
  | _ => False

end Quota

namespace Store

def Blocked (s : Store) (ns name : String) : Prop :=
  ∃ other, other ≠ name ∧ s.Active ns other ∧ (s.Active ns name → other < name)

/-- How far the reconcile of `name` gets by looking: a decision is written if it changes anything. -/
def Decides (s : Store) (ns name : String) (phase : Phase) : Prop :=
  s.Blocked ns name ∧ (phase = .deciding false ∨ phase = .after ∧ ¬s.Active ns name) ∨
    ¬s.Blocked ns name ∧ (phase = .deciding true ∨ phase = .after ∧ s.Active ns name)

end Store

/-- The work `p` for the config `name` has come to a phase.  A config that was read is still what is
stored, since nobody else writes it. -/
inductive Stage (ns name : String) (s : Store) : Phase → Work → Prop
  | start (now : Timestamp) {p : Work}
    (hp : p = (Config.reconcile now ⟨some ns, name⟩).idle) : Stage ns name s .before p
  | looking {now : Timestamp} {c : Config} (h : s.HasConfigAs ns name now c) {p : Work}
    (hp : p = (c.looking now ns).idle) : Stage ns name s .before p
  | failed {e : Error} {p : Work} (hp : p = .done (.error e)) : Stage ns name s .before p
  | deciding {now : Timestamp} {c o : Config} (h : s.HasConfigAs ns name now c)
    (hmeta : o.metadata = c.metadata)
    {next : (Request.update .config (Resource.encode o)).Reply → Work}
    (hnext : ∀ written : Config, written.metadata.key = ⟨some ns, name⟩ →
      (next (.ok (Resource.encode written))).Asks Quota.Answers (Quota.Minds ns name)) {p : Work}
    (hp : p = .ask _ next) : Stage ns name s (.deciding o.isActive) p
  | minding {p : Work} (h : p.Asks Quota.Answers (Quota.Minds ns name)) : Stage ns name s .after p

section Programs

variable {α β : Type} {A : (r : Request) → r.Reply → Prop} {P : Request → Prop} {now : Timestamp}
  {ns name : String} {c : Config}

theorem Task.asks_decode_bind [Resource α] {object : Json} {f : α → Task β}
    (h : ∀ a, Resource.decode Json.strict now object = some a → (f a).Asks A P) :
    (decode now object >>= f).Asks A P := by
  unfold decode
  cases hdecode : Resource.decode (α := α) Json.strict now object with
  | none => exact trivial
  | some a => exact h a hdecode

theorem Task.asks_find?_bind [Resource α] {key : ObjectKey} {f : Option α → Task β}
    (h : P (.get ⟨Resource.kind α, key⟩)) (hnone : (f none).Asks A P)
    (hsome : ∀ object a, A (.get ⟨Resource.kind α, key⟩) (.ok object) →
      Resource.decode Json.strict now object = some a → (f (some a)).Asks A P) :
    (find? now key >>= f).Asks A P := by
  refine ⟨h, fun reply hreply ↦ ?_⟩
  rcases reply with e | object
  · cases e with
    | notFound ref => exact hnone
    | _ => exact trivial
  · have hread : ((some <$> decode now object : Task (Option α)) >>= f).Asks A P := by
      unfold decode
      cases hdecode : Resource.decode (α := α) Json.strict now object with
      | none => exact trivial
      | some a => exact hsome object a hreply hdecode
    exact hread

theorem Task.Asks.idle {t : Task ConfigDecision} (h : t.Asks A P) : t.idle.Asks A P :=
  Task.Asks.bind h fun _ ↦ Task.asks_pure _

theorem Task.run_mapM_decode [Resource α] (now : Timestamp) (objects : List Json) :
    (objects.mapM (decode (α := α) now)).run =
      match objects.mapM (Resource.decode Json.strict now) with
      | some l => .done (.ok l)
      | none => .done (.error (undecodable (Resource.kind α))) := by
  induction objects with
  | nil => rfl
  | cons object rest ih =>
    rw [List.mapM_cons, List.mapM_cons, ExceptT.run_bind]
    unfold decode at ih ⊢
    cases Resource.decode (α := α) Json.strict now object with
    | none => rfl
    | some a =>
      change ((rest.mapM _ >>= fun l ↦ pure (a :: l) : Task (List α)).run) = _
      rw [ExceptT.run_bind, ih]
      cases rest.mapM (Resource.decode (α := α) Json.strict now) <;> rfl

theorem Config.idle_reconcile (now : Timestamp) (ns name : String) :
    ∃ next, (Config.reconcile now ⟨some ns, name⟩).idle =
        .ask (.get ⟨.config, ⟨some ns, name⟩⟩) next ∧
      ∀ object, next (.ok object) =
        match Resource.decode Json.strict now object with
        | some c => (Config.looking now c ns).idle
        | none => .done (.error (Task.undecodable .config)) := by
  refine ⟨_, rfl, fun object ↦ ?_⟩
  change (((some <$> Task.decode now object : Task (Option Config)) >>= fun o ↦
    match o with
    | some c => c.looking now ns
    | none => Config.reelect now ns) : Task ConfigDecision).idle = _
  unfold Task.decode
  cases Resource.decode (α := Config) Json.strict now object <;> rfl

theorem Config.idle_looking (now : Timestamp) (c : Config) (ns : String) :
    ∃ next, (c.looking now ns).idle = .ask (.list .config (.inNamespace ns)) next ∧
      ∀ objects, next (.ok objects) =
        match objects.mapM (Resource.decode Json.strict now) with
        | some l => (c.transition now l).idle
        | none => .done (.error (Task.undecodable .config)) := by
  refine ⟨_, rfl, fun objects ↦ ?_⟩
  change ((objects.mapM (Task.decode now) >>= c.transition now) : Task ConfigDecision).idle = _
  rw [Task.idle, ExceptT.run_bind, ExceptT.run_bind, Task.run_mapM_decode]
  cases objects.mapM (Resource.decode (α := Config) Json.strict now) <;> rfl

/-! ## The quota -/

/-- As long as the quotas have the one limit, none is written over. -/
theorem Config.asks_ensureQuota_of_key (now : Timestamp) (hkey : c.metadata.key = ⟨some ns, name⟩) :
    (c.ensureQuota now).Asks Quota.Answers (Quota.Minds ns name) := by
  have hns : c.metadata.ns? = some ns := congrArg ObjectKey.ns? hkey
  unfold ensureQuota
  refine Task.asks_find?_bind ⟨rfl, (congrArg ObjectKey.ns? (key_desiredQuota hns)).trans hns⟩ ?_
    fun object q hanswer hdecode ↦ ?_
  · exact (Task.asks_create ⟨rfl, c, hkey, rfl⟩).bind fun _ ↦ Task.asks_pure _
  · obtain ⟨q', rfl, hhard⟩ := hanswer rfl object rfl
    rw [Resource.decode_encode] at hdecode
    cases hdecode
    dsimp only
    rw [if_pos (show q.hard = c.desiredQuota.hard from hhard)]
    exact Task.asks_pure _

theorem Config.asks_releaseQuota_of_key (now : Timestamp)
    (hkey : c.metadata.key = ⟨some ns, name⟩) :
    (c.releaseQuota now).Asks Quota.Answers (Quota.Minds ns name) := by
  have hns : c.metadata.ns? = some ns := congrArg ObjectKey.ns? hkey
  unfold releaseQuota
  refine Task.asks_find?_bind ⟨rfl, hns⟩ (Task.asks_pure _) fun object q hanswer hdecode ↦ ?_
  dsimp only
  split
  · refine Task.Asks.tryCatch (Task.asks_delete ⟨rfl, hns⟩) fun e ↦ ?_
    split
    · exact Task.asks_pure _
    · exact Task.asks_throw _
  · exact Task.asks_pure _

end Programs

/-! ## What a reconcile decides -/

section Decision

variable {ns name : String} {s : Store} {now : Timestamp} {c : Config} {l : List Config}

theorem Stage.of_writeStatus (h : s.HasConfigAs ns name now c) (condition : Condition)
    (htype : condition.type = readyCondition) (rest : Config → Task ConfigDecision)
    (hrest : ∀ written : Config, written.metadata.key = ⟨some ns, name⟩ →
      (rest written).Asks Quota.Answers (Quota.Minds ns name)) :
    Stage ns name s (.deciding (decide (condition.status = .true)))
        (c.writeStatus now condition >>= rest).idle ∨
      (s.Active ns name ↔ condition.status = .true) ∧
        Stage ns name s .after (c.writeStatus now condition >>= rest).idle := by
  unfold Config.writeStatus
  cases hchanges : condition.changes c.conditions with
  | true =>
    refine .inl ?_
    rw [← Config.isActive_set c htype]
    refine .deciding h (o := { c with conditions := condition.set c.conditions }) rfl
      (fun written hkey ↦ ?_) rfl
    refine Task.Asks.idle (t := Task.decode now (Resource.encode written) >>= rest)
      (Task.asks_decode_bind fun a ha ↦ ?_)
    rw [Resource.decode_encode] at ha
    cases ha
    exact hrest written hkey
  | false =>
    refine .inr ⟨?_, .minding (Task.Asks.idle (hrest c h.2))⟩
    rw [h.active_iff, Config.isActive_of_not_changes hchanges htype, decide_eq_true_eq]

theorem Stage.of_transition (hcoherent : s.Coherent) (h : s.HasConfigAs ns name now c)
    (hl : l = s.objectsOf Config now (.inNamespace ns)) :
    ∃ phase, Stage ns name s phase (c.transition now l).idle ∧ s.Decides ns name phase := by
  have hname : c.metadata.name = name := congrArg ObjectKey.name h.2
  have hmem (o : Config) : o ∈ l ↔ s.HasConfigAs ns o.metadata.name now o := by
    rw [hl, mem_objectsOf_iff hcoherent, ListParams.accepts_inNamespace_iff]
    refine and_congr_right fun _ ↦ ⟨fun hns ↦ ?_, congrArg ObjectKey.ns?⟩
    exact ObjectKey.mk.injEq .. ▸ ⟨hns, rfl⟩
  -- the list shows the active configs, whenever they are read
  have hactive (other : String) : s.Active ns other ↔
      ∃ o ∈ l, o.isActive ∧ o.metadata.name = other := by
    constructor
    · rintro ⟨later, o, ho, hactive⟩
      obtain ⟨o', ho', hsame⟩ := ho.at now
      have hother : o'.metadata.name = other := congrArg ObjectKey.name ho'.2
      exact ⟨o', (hmem o').2 (hother.symm ▸ ho'), hsame.trans hactive, hother⟩
    · rintro ⟨o, ho, hactive, rfl⟩
      exact ⟨now, o, (hmem o).1 ho, hactive⟩
  unfold Config.transition
  cases hblocking : c.blocking? l with
  | some other =>
    obtain ⟨o, ho, hother, rfl, hne⟩ := Config.mem_rivals_iff.1
      (Config.mem_rivals_of_blocking? hblocking)
    have hblocked : s.Blocked ns name := by
      refine ⟨_, hname ▸ hne, (hactive _).2 ⟨o, ho, hother, rfl⟩, fun hself ↦ ?_⟩
      exact hname ▸ Config.lt_of_blocking? hblocking (h.active_iff.1 hself)
    have hwrite := Stage.of_writeStatus h (Config.notReadyNow now o.metadata.name) rfl
      (fun written ↦ do
        written.releaseQuota now
        return .denied c.metadata.name o.metadata.name)
      fun written hkey ↦ (Config.asks_releaseQuota_of_key now hkey).bind fun _ ↦ Task.asks_pure _
    rcases hwrite with hstage | ⟨hiff, hstage⟩
    · exact ⟨_, hstage, .inl ⟨hblocked, .inl rfl⟩⟩
    · exact ⟨_, hstage, .inl ⟨hblocked, .inr ⟨rfl, fun hself ↦ nomatch hiff.1 hself⟩⟩⟩
  | none =>
    have hfree : ¬s.Blocked ns name := by
      rintro ⟨other, hne, hother, hlt⟩
      obtain ⟨o, ho, hoactive, rfl⟩ := (hactive other).1 hother
      obtain ⟨_, hsome⟩ := Config.exists_blocking? ho hoactive (hname.symm ▸ hne)
        fun hself ↦ hname.symm ▸ hlt (h.active_iff.2 hself)
      rw [hblocking] at hsome
      cases hsome
    have hwrite := Stage.of_writeStatus h (Config.readyNow now) rfl
      (fun written ↦ do
        let _ ← written.ensureQuota now
        return .active c.metadata.name)
      fun written hkey ↦ (Config.asks_ensureQuota_of_key now hkey).bind fun _ ↦ Task.asks_pure _
    rcases hwrite with hstage | ⟨hiff, hstage⟩
    · exact ⟨_, hstage, .inr ⟨hfree, .inl rfl⟩⟩
    · exact ⟨_, hstage, .inr ⟨hfree, .inr ⟨rfl, hiff.2 rfl⟩⟩⟩

end Decision

/-! ## One call -/

/-- What a call on behalf of the config `name` does, and how far it gets the reconcile. -/
inductive Turn (ns name : String) (r : Request) (before : Store) (news : List Event)
    (after : Store) : Phase → Phase → Prop
  | read (hlooks : ¬r.Looks) (hsame : after = before) :
    Turn ns name r before news after .before .before
  | look (hlooks : r.Looks) (hsame : after = before) {phase : Phase}
    (h : phase = .before ∨ before.Decides ns name phase) :
    Turn ns name r before news after .before phase
  | write (hlooks : ¬r.Looks) {active : Bool} (hactive : after.Active ns name ↔ active = true)
    (hnews : ∃ e ∈ news, ∀ claims, .config ns name ∈ e.keys claims) :
    Turn ns name r before news after (.deciding active) .after
  | mind (hlooks : ¬r.Looks) (hsame : ∀ other, after.Active ns other ↔ before.Active ns other) :
    Turn ns name r before news after .after .after

section Call

variable {ns name : String} {uid : Nat → String} {first : Nat} {w : World} {env : Surroundings}
  {phase : Phase} {r : Request} {next : r.Reply → Work}

theorem Tended.perform (h : Tended ns uid first w.store) (hhas : w.store.HasConfig ns name)
    (huid : env.ambient.uid = uid) (hr : Quota.Minds ns name r) :
    Quota.Answers r (r.perform env w).1 ∧
      ∃ news, Served ns uid first name w.store news (r.perform env w).2.store ∧
        ∀ other, (r.perform env w).2.store.objects.get? ⟨.config, ⟨some ns, other⟩⟩ =
          w.store.objects.get? ⟨.config, ⟨some ns, other⟩⟩ := by
  cases r with
  | get ref =>
    obtain ⟨⟨kind, ⟨ns?, quota⟩⟩, rfl, rfl⟩ := ref, hr
    refine ⟨fun _ object hok ↦ ?_, [], h.served_refl name, fun _ ↦ rfl⟩
    change w.store.get _ = _ at hok
    unfold Store.get at hok
    cases hget : w.store.objects.get? ⟨.resourceQuota, ⟨some ns, quota⟩⟩ with
    | none =>
      rw [hget] at hok
      cases hok
    | some object' =>
      rw [hget] at hok
      cases hok
      obtain ⟨q, hq, hours⟩ := h.quota quota object hget
      exact ⟨q, hq, hours.hard_eq⟩
  | create kind object =>
    obtain ⟨rfl, c, hkey, rfl⟩ := hr
    exact ⟨trivial, h.create huid hkey hhas⟩
  | delete ref =>
    obtain ⟨⟨kind, ⟨ns?, quota⟩⟩, rfl, rfl⟩ := ref, hr
    exact ⟨trivial, h.delete name quota⟩
  | _ => exact hr.elim

theorem Stage.of_read (hcoherent : w.store.Coherent) (hhas : w.store.HasConfig ns name)
    (now : Timestamp) :
    ∃ next, (Config.reconcile now ⟨some ns, name⟩).idle =
        .ask (.get ⟨.config, ⟨some ns, name⟩⟩) next ∧
      Stage ns name w.store .before (next (w.store.get ⟨.config, ⟨some ns, name⟩⟩)) := by
  obtain ⟨next, heq, hok⟩ := Config.idle_reconcile now ns name
  obtain ⟨object, hget⟩ := hhas
  have hreply : w.store.get ⟨.config, ⟨some ns, name⟩⟩ = .ok object := by simp [Store.get, hget]
  refine ⟨next, heq, ?_⟩
  rw [hreply, hok]
  cases hdecode : Resource.decode (α := Config) Json.strict now object with
  | none => exact .failed rfl
  | some c =>
    exact .looking ⟨hcoherent.has_of_decode hget hdecode, hcoherent.key_of_decode hget hdecode⟩
      rfl

theorem Stage.of_look (hcoherent : w.store.Coherent) {now : Timestamp} {c : Config}
    (hc : w.store.HasConfigAs ns name now c) :
    ∃ next, (c.looking now ns).idle = .ask (.list .config (.inNamespace ns)) next ∧
      ∃ phase, Stage ns name w.store phase (next (w.store.list .config (.inNamespace ns))) ∧
        (phase = .before ∨ w.store.Decides ns name phase) := by
  obtain ⟨next, heq, hok⟩ := Config.idle_looking now c ns
  obtain ⟨objects, hlist⟩ : ∃ objects, w.store.list .config (.inNamespace ns) = .ok objects :=
    ⟨_, Task.list_eq_ok w.store hcoherent .config (.inNamespace ns)⟩
  refine ⟨next, heq, ?_⟩
  rw [hlist, hok]
  cases hread : objects.mapM (Resource.decode (α := Config) Json.strict now) with
  | none => exact ⟨.before, .failed rfl, .inl rfl⟩
  | some l =>
    have hexec : (Task.list (α := Config) now (.inNamespace ns)).exec quiet w = (.ok l, w) := by
      rw [Task.exec_list_eq]
      change (Task.ofStore (w.store.list .config (.inNamespace ns)) >>= _ :
        Task (List Config)).exec quiet w = _
      rw [hlist, Task.exec_bind_of_ok (Task.exec_ofStore_ok _), Task.exec_mapM_decode_eq_ok_iff]
      exact ⟨hread, rfl⟩
    obtain ⟨-, hl⟩ := Task.exec_list_eq_ok hcoherent hexec
    obtain ⟨phase, hstage, hdecides⟩ := Stage.of_transition hcoherent hc hl
    exact ⟨phase, hstage, .inr hdecides⟩

/-- A call gets a reconcile on, and is seen by the others as a service to its config alone. -/
theorem Stage.call (hstage : Stage ns name w.store phase (.ask r next))
    (h : Tended ns uid first w.store) (hhas : w.store.HasConfig ns name)
    (huid : env.ambient.uid = uid) :
    ∃ phase' news, Stage ns name (r.perform env w).2.store phase' (next (r.perform env w).1) ∧
      Served ns uid first name w.store news (r.perform env w).2.store ∧
      Turn ns name r w.store news (r.perform env w).2.store phase phase' := by
  cases hstage with
  | start now hp =>
    obtain ⟨next', heq, hstage⟩ := Stage.of_read h.coherent hhas now
    rw [heq] at hp
    cases hp
    exact ⟨.before, [], hstage, h.served_refl name, .read id rfl⟩
  | looking hc hp =>
    obtain ⟨next', heq, phase', hstage, hdecides⟩ := Stage.of_look h.coherent hc
    rw [heq] at hp
    cases hp
    have hlooks : (Request.list .config (.inNamespace ns)).Looks := trivial
    exact ⟨phase', [], hstage, h.served_refl name, .look hlooks rfl hdecides⟩
  | failed hp => cases hp
  | @deciding now c o hc hmeta next' hnext _ hp =>
    cases hp
    obtain ⟨written, news, after, heq, hserved, hwritten, hconditions, hnews⟩ :=
      h.update hc hmeta
    have hperform : (Request.update .config (Resource.encode o)).perform env w =
        (.ok (Resource.encode written), w.withStore after) := by
      simp only [Request.perform, World.onStore, heq]
      rfl
    rw [hperform]
    refine ⟨.after, news, .minding (hnext written hwritten.2), hserved, .write id ?_ hnews⟩
    rw [World.store_withStore, hwritten.active_iff, Config.isActive, Config.isActive, hconditions]
  | minding hasks =>
    obtain ⟨hr, hnext⟩ := hasks
    obtain ⟨hanswer, news, hserved, hsame⟩ := h.perform hhas huid hr
    refine ⟨.after, news, .minding (hnext _ hanswer), hserved,
      .mind (fun hlooks ↦ ?_) fun other ↦ active_congr (hsame other)⟩
    cases r with
    | list => exact hr.elim
    | _ => exact hlooks.elim

theorem Stage.of_done {s : Store} {result : Except Error (List String)}
    (hstage : Stage ns name s phase (.done result)) :
    phase = .after ∨ phase = .before ∧ ∃ e, result = .error e := by
  cases hstage with
  | start now hp =>
    obtain ⟨_, heq, -⟩ := Config.idle_reconcile now ns name
    rw [heq] at hp
    cases hp
  | @looking now c _ _ hp =>
    obtain ⟨_, heq, -⟩ := Config.idle_looking now c ns
    rw [heq] at hp
    cases hp
  | failed hp =>
    cases hp
    exact .inr ⟨rfl, _, rfl⟩
  | deciding _ _ _ hp => cases hp
  | minding _ => exact .inl rfl

/-- A service to one config leaves the reconciles of the others where they are. -/
theorem Stage.frame {s after : Store} {news : List Event} {other : String} {p : Work}
    (hstage : Stage ns other s phase p) (hserved : Served ns uid first name s news after)
    (hne : other ≠ name) : Stage ns other after phase p := by
  cases hstage with
  | start now hp => exact .start now hp
  | looking hc hp => exact .looking (hc.congr (hserved.others other hne)) hp
  | failed hp => exact .failed hp
  | deciding hc hmeta hnext hp =>
    exact .deciding (hc.congr (hserved.others other hne)) hmeta hnext hp
  | minding hasks => exact .minding hasks

end Call

end TenantAccess
