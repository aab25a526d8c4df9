import TenantAccess.Proofs.Program.Amid
import TenantAccess.Proofs.Rbac.Ensure
import TenantAccess.Proofs.Selection.Election

/-!
# No update is lost

An update that carries a version somebody was shown replaces nothing but the document that was
shown, with no write to it in between.  The updates of the reconcilers carry the version they have
read, so they change what they mean to change in the object that is stored, or nothing at all.
-/

namespace TenantAccess

open Json

/-- The answer to a request shows a document of a kind. -/
def Request.Shows (kind : Kind) (object : Json) : (r : Request) → r.Reply → Prop
  | get ref, reply => ref.kind = kind ∧ reply = Except.ok (ε := StoreError) object
  | list k _, reply =>
    k = kind ∧ ∃ objects, reply = Except.ok (ε := StoreError) objects ∧ object ∈ objects
  | create k _, reply | update k _, reply => k = kind ∧ reply = Except.ok (ε := StoreError) object
  | delete _, _ | review _, _ | claims, _ | publish _, _ => False

namespace Store

variable {α : Type} [Resource α] {now : Timestamp} {change : α → α → Prop}

/-- An object with a version that was given out last. -/
def reissue (s : Store) (a : α) : α :=
  Resource.withMeta a
    { Resource.metadata a with resourceVersion := some (toString (s.version + 1)) }

/-- An update is refused and writes nothing, or it makes `change` to the object that is stored, and
nothing else. -/
def Amends (now : Timestamp) (change : α → α → Prop) (kind : Kind) (object : Json) (s : Store) :
    Prop :=
  kind = Resource.kind α ∧
    ((∃ e, s.update kind object = (.error e, s)) ∨
      ∃ observed changed : α, s.Has now observed ∧ change observed changed ∧
        s.update kind object = (.ok (Resource.encode (s.reissue changed)),
          s.recorded .modified (s.reissue changed) s.issued))

variable [Resource.Lawful α] {s after : Store} {news : List Event}

/-- An update with the metadata of an object that was read changes that object or nothing. -/
theorem amends_of_has (hs : s.Coherent) (hafter : after.Coherent) {observed changed : α}
    (hhas : s.Has now observed) (hlater : s.Later news after) (hchange : change observed changed)
    (hmeta : Resource.metadata changed = Resource.metadata observed) :
    after.Amends now change (Resource.kind α) (Resource.encode changed) := by
  refine ⟨rfl, ?_⟩
  obtain ⟨object, hget, hdecode⟩ := hhas
  have hm := hs.metaOf_of_has hget hdecode
  rcases hlater.update_cases hs hafter hget hm (metaOf_encode _ changed)
    (congrArg ObjectMeta.key hmeta) (congrArg ObjectMeta.resourceVersion hmeta) with
    he | ⟨hstill, -, heq⟩
  · exact .inl he
  · right
    have hreissue : after.reissue changed = Resource.withMeta changed
        (stampOver after (Resource.metadata observed) (Resource.metadata changed)) := by
      rw [reissue, stampOver, hmeta]
    refine ⟨observed, changed, ⟨object, hstill, hdecode⟩, hchange, ?_⟩
    rw [withMeta_encode] at heq
    rw [hreissue, recorded, Resource.metadata_withMeta]
    exact heq

end Store

section Shown

open Store

variable {env : Surroundings} {w : World} {kind : Kind} {object : Json} {r : Request}

theorem stored_of_shows (hw : w.store.Coherent) (h : r.Shows kind object (r.perform env w).1) :
    ∃ m, metaOf kind object = .ok m ∧
      (r.perform env w).2.store.objects.get? ⟨kind, m.key⟩ = some object := by
  cases r with
  | get ref =>
    obtain ⟨rfl, h⟩ := h
    have hget : w.store.objects.get? ref = some object := by
      change w.store.get ref = .ok object at h
      unfold Store.get at h
      split at h
      · next hsome =>
        rw [hsome, Except.ok.inj h]
      · cases h
    obtain ⟨m, hm, hkey, -⟩ := hw.exists_metaOf hget
    refine ⟨m, hm, ?_⟩
    rw [hkey]
    exact hget
  | list k params =>
    obtain ⟨rfl, objects, h, hmem⟩ := h
    have hlist : w.store.list k params = .ok objects := h
    rw [Task.list_eq_ok _ hw] at hlist
    cases hlist
    obtain ⟨⟨ref, object⟩, he, rfl⟩ := List.mem_map.1 hmem
    obtain ⟨hentry, hkind⟩ := List.mem_filter.1 (List.mem_filter.1 he).1
    have hkind : ref.kind = k := by simpa using hkind
    have hget := SortedMap.mem_entries_iff.1 hentry
    obtain ⟨m, hm, hkey, -⟩ := hw.exists_metaOf hget
    refine ⟨m, hkind ▸ hm, ?_⟩
    rw [hkey, ← hkind]
    exact hget
  | create k new =>
    obtain ⟨rfl, h⟩ := h
    have hcreate : (Store.create env.ambient k new w.store).1 = .ok object := h
    change ∃ m, _ ∧ (Store.create env.ambient k new w.store).2.objects.get? _ = _
    rcases create_cases env.ambient k new w.store with ⟨e, he⟩ | ⟨m, hm, -, heq⟩
    · rw [he] at hcreate
      cases hcreate
    · rw [heq] at hcreate ⊢
      cases hcreate
      exact ⟨_, metaOf_withMeta (admitted_eq_ok_iff.1 hm).1 _, by simp⟩
  | update k new =>
    obtain ⟨rfl, h⟩ := h
    have hupdate : (Store.update k new w.store).1 = .ok object := h
    change ∃ m, _ ∧ (Store.update k new w.store).2.objects.get? _ = _
    rcases update_cases k new w.store with ⟨e, he⟩ | ⟨m, current, c, hm, -, -, -, heq⟩
    · rw [he] at hupdate
      cases hupdate
    · rw [heq] at hupdate ⊢
      cases hupdate
      exact ⟨_, metaOf_withMeta (admitted_eq_ok_iff.1 hm).1 _, by simp⟩
  | delete | review | claims | publish => exact h.elim

end Shown

/-! ## The reconcilers -/

/-- A request that is an update is one as `U` has it. -/
def Updating (U : Kind → Json → Store → Prop) (w : World) (r : Request) : Prop :=
  ∀ kind object, r = .update kind object → U kind object w.store

section Reconcilers

open Store

variable {w₀ w : World} {now : Timestamp} {U : Kind → Json → Store → Prop}

theorem meets_update_of_has {α : Type} [Resource α] [Resource.Lawful α] (change : α → α → Prop)
    {observed changed : α} (hw₀ : w₀.store.Coherent) (hhas : w₀.store.Has now observed)
    (hw : w₀.Reaches w) (hchange : change observed changed)
    (hmeta : Resource.metadata changed = Resource.metadata observed)
    (hU : ∀ kind object s, s.Amends now change kind object → U kind object s) :
    (Task.update now changed).Meets (Updating U) (fun _ w ↦ w.store.Coherent) w := by
  have hasks : (Task.update now changed).Asks Request.AnyReply
      (· = .update (Resource.kind α) (Resource.encode changed)) := Task.asks_update rfl
  refine hasks.meets (hw.coherent hw₀) ?_
  rintro w' hw' _ rfl kind object ⟨⟩
  obtain ⟨news, hlater⟩ := (hw.trans hw').later hw₀
  exact hU _ _ _ (amends_of_has hw₀ ((hw.trans hw').coherent hw₀) hhas hlater hchange hmeta)

theorem meets_of_asks {α : Type} {t : Task α} {p : Request → Prop}
    (hasks : t.Asks Request.AnyReply p) (hw : w.store.Coherent)
    (hp : ∀ kind object, ¬p (.update kind object)) :
    t.Meets (Updating U) (fun _ _ ↦ True) w := by
  refine (hasks.meets hw ?_).imp fun _ _ _ ↦ trivial
  rintro _ _ _ hr kind object rfl
  exact (hp kind object hr).elim

theorem meets_create {α : Type} [Resource α] (hw : w.store.Coherent) (a : α) :
    (Task.create now a).Meets (Updating U) (fun _ _ ↦ True) w :=
  meets_of_asks (p := (· = .create _ _)) (Task.asks_create rfl) hw fun _ _ ↦ nofun

theorem meets_ensure {α ω : Type} [Derived α] [Derived.Lawful α] [Resource ω] {desired : α}
    {owner : ω} (hw : w.store.Coherent) :
    (ensure now desired owner).Meets
      (Updating (Amends now fun observed changed ↦ changed = Derived.apply desired observed))
      (fun _ _ ↦ True) w := by
  by_cases hgate : gate desired = []
  · rw [ensure_eq now owner hgate]
    refine .bind (Task.meets_find? hw (fun _ ↦ nofun) (fun w' hw' ↦ .bind ?_)
      fun w' observed hw' hhas _ ↦ ?_)
    · exact (meets_create (hw'.coherent hw) _).imp fun _ _ _ ↦ Task.meets_pure trivial
    · dsimp only
      split
      · exact Task.meets_pure trivial
      · split
        · exact Task.meets_pure trivial
        · have hwrite := meets_update_of_has
            (fun observed changed : α ↦ changed = Derived.apply desired observed)
            (hw'.coherent hw) hhas (.refl w') rfl (Derived.Lawful.metadata_apply desired observed)
            fun _ _ _ ↦ id
          exact .bind (hwrite.imp fun _ _ _ ↦ Task.meets_pure trivial)
  · unfold ensure
    rw [if_pos hgate]
    exact Task.meets_pure trivial

def SetsLimits (observed changed : ResourceQuota) : Prop :=
  changed = { observed with hard := configLimit }

/-- A condition of a config is set that tells whether it is ready. -/
def SetsStatus (observed changed : Config) : Prop :=
  ∃ condition : Condition, condition.type = readyCondition ∧
    changed = { observed with conditions := condition.set observed.conditions }

namespace Config

variable {c : Config}

theorem meets_ensureQuota (hw : w.store.Coherent)
    (hU : ∀ kind object s, s.Amends now SetsLimits kind object → U kind object s) :
    (c.ensureQuota now).Meets (Updating U) (fun _ _ ↦ True) w := by
  unfold ensureQuota
  refine .bind (Task.meets_find? hw (fun _ ↦ nofun) (fun w' hw' ↦ .bind ?_)
    fun w' observed hw' hhas _ ↦ ?_)
  · exact (meets_create (hw'.coherent hw) _).imp fun _ _ _ ↦ Task.meets_pure trivial
  · dsimp only
    split
    · exact Task.meets_pure trivial
    · split
      · exact Task.meets_pure trivial
      · have hwrite := meets_update_of_has SetsLimits (hw'.coherent hw) hhas (.refl w') rfl rfl hU
        exact .bind (hwrite.imp fun _ _ _ ↦ Task.meets_pure trivial)

theorem meets_releaseQuota (hw : w.store.Coherent) :
    (c.releaseQuota now).Meets (Updating U) (fun _ _ ↦ True) w := by
  unfold releaseQuota
  refine .bind (Task.meets_find? hw (fun _ ↦ nofun) (fun w' _ ↦ Task.meets_pure trivial)
    fun w' quota hw' _ _ ↦ ?_)
  dsimp only
  split
  · refine .tryCatch ?_ fun e w ↦ ?_
    · exact meets_of_asks (p := (· = .delete _)) (Task.asks_delete rfl) (hw'.coherent hw)
        fun _ _ ↦ nofun
    · split
      · exact Task.meets_pure trivial
      · exact Task.meets_throw e
  · exact Task.meets_pure trivial

theorem meets_writeStatus (condition : Condition) (hw₀ : w₀.store.Coherent)
    (hhas : w₀.store.Has now c) (hw : w₀.Reaches w) (htype : condition.type = readyCondition)
    (hU : ∀ kind object s, s.Amends now SetsStatus kind object → U kind object s) :
    (c.writeStatus now condition).Meets (Updating U) (fun _ w ↦ w.store.Coherent) w := by
  unfold writeStatus
  split
  · exact meets_update_of_has SetsStatus hw₀ hhas hw ⟨condition, htype, rfl⟩ rfl hU
  · exact Task.meets_pure (hw.coherent hw₀)

section Decision

variable (hstatus : ∀ kind object s, s.Amends now SetsStatus kind object → U kind object s)
  (hlimits : ∀ kind object s, s.Amends now SetsLimits kind object → U kind object s)

include hstatus hlimits

theorem meets_transition (hw₀ : w₀.store.Coherent) (hhas : w₀.store.Has now c)
    (hw : w₀.Reaches w) (configs : List Config) :
    (c.transition now configs).Meets (Updating U) (fun _ _ ↦ True) w := by
  unfold transition
  cases c.blocking? configs with
  | none =>
    have hwrite := meets_writeStatus (readyNow now) hw₀ hhas hw rfl hstatus
    refine .bind (hwrite.imp fun written w' hw' ↦ .bind ?_)
    exact (meets_ensureQuota hw' hlimits).imp fun _ _ _ ↦ Task.meets_pure trivial
  | some active =>
    have hwrite := meets_writeStatus (notReadyNow now active) hw₀ hhas hw rfl hstatus
    refine .bind (hwrite.imp fun written w' hw' ↦ .bind ?_)
    exact (meets_releaseQuota hw').imp fun _ _ _ ↦ Task.meets_pure trivial

theorem meets_reelect (hw : w.store.Coherent) (ns : String) :
    (reelect now ns).Meets (Updating U) (fun _ _ ↦ True) w := by
  unfold reelect
  refine .bind (Task.meets_list hw (fun _ ↦ nofun) fun w' hw' ↦ ?_)
  split
  · next candidate hnone hsome =>
    have hmem := mem_of_smallestBy hsome
    have hhas := ((mem_objectsOf_iff (hw'.coherent hw)).1 hmem).1
    refine .bind ((meets_transition hstatus hlimits (hw'.coherent hw) hhas (.refl w') _).imp
      fun decision w'' _ ↦ ?_)
    cases decision <;> exact Task.meets_pure trivial
  · exact Task.meets_pure trivial

theorem meets_reconcile (hw : w.store.Coherent) (key : ObjectKey) :
    (reconcile now key).Meets (Updating U) (fun _ _ ↦ True) w := by
  unfold reconcile
  cases key.ns? with
  | none => exact Task.meets_throw _
  | some ns =>
    refine .bind (Task.meets_find? hw (fun _ ↦ nofun) (fun w' hw' ↦ ?_) fun w' c hw' hhas _ ↦ ?_)
    · exact meets_reelect hstatus hlimits (hw'.coherent hw) ns
    · refine .bind (Task.meets_list (hw'.coherent hw) (fun _ ↦ nofun) fun w'' hw'' ↦ ?_)
      exact meets_transition hstatus hlimits (hw'.coherent hw) hhas hw'' _

end Decision

end Config

end Reconcilers

/-- Whenever the task makes an update amid others, it is one as `U` has it. -/
def Task.Updates {α : Type} (t : Task α) (w : World) (U : Kind → Json → Store → Prop) : Prop :=
  ∀ kind object next w', t.run.Amid w (.ask (.update kind object) next) w' → U kind object w'.store

theorem Task.Meets.updates {α : Type} {t : Task α} {w : World} {U : Kind → Json → Store → Prop}
    (h : t.Meets (Updating U) (fun _ _ ↦ True) w) : t.Updates w U := by
  intro kind object next w' hamid
  have hprogram : Program.Meets (Updating U) (fun _ _ ↦ True) t.run w :=
    Program.Meets.imp h fun _ _ _ ↦ trivial
  exact hprogram.of_amid hamid kind object rfl

/-- From `w` on no update that somebody makes undoes another one unseen. -/
structure Guarded (w : World) : Prop where
  /-- An update with the version of a document that was shown is refused and writes nothing, or the
  document is stored as it was shown, and nothing was written to its place since. -/
  shown : ∀ (env : Surroundings) (r : Request) (kind : Kind) (object : Json),
    r.Shows kind object (r.perform env w).1 →
    ∃ m v, Store.metaOf kind object = .ok m ∧ m.resourceVersion = some v ∧
      ∀ (w' : World) (new : Json) (m' : ObjectMeta), (r.perform env w).2.Reaches w' →
        Store.metaOf kind new = .ok m' → m'.key = m.key → m'.resourceVersion = some v →
        (∃ e, w'.store.update kind new = (.error e, w'.store)) ∨
          w'.store.objects.get? ⟨kind, m.key⟩ = some object ∧
          ∃ news, (r.perform env w).2.store.Wrote news w'.store ∧ ∀ e ∈ news, e.ref ≠ ⟨kind, m.key⟩
  roles : ∀ (scope : Scope) (desired : Role scope) (ω : Type) [Resource ω] (owner : ω)
    (now : Timestamp), (ensure now desired owner).Updates w
      (Store.Amends now fun observed changed : Role scope ↦
        changed = { observed with rules := desired.rules })
  bindings : ∀ (scope : Scope) (desired : Binding scope) (ω : Type) [Resource ω] (owner : ω)
    (now : Timestamp), (ensure now desired owner).Updates w
      (Store.Amends now fun observed changed : Binding scope ↦
        changed = { observed with roleRef := desired.roleRef, subjects := desired.subjects })
  quotas : ∀ (c : Config) (now : Timestamp),
    (c.ensureQuota now).Updates w (Store.Amends now SetsLimits)
  configs : ∀ (key : ObjectKey) (now : Timestamp),
    (Config.reconcile now key).Updates w fun kind object s ↦
      s.Amends now SetsStatus kind object ∨ s.Amends now SetsLimits kind object

theorem guarded_of_reaches {w : World} (h : World.Reaches {} w) : Guarded w := by
  have hw : w.store.Coherent := h.coherent Store.coherent_empty
  constructor
  case shown =>
    intro env r kind object hshows
    obtain ⟨m, hm, hget⟩ := stored_of_shows hw hshows
    have hafter := coherent_perform env r hw
    obtain ⟨v, -, hversion⟩ := hafter.exists_version ⟨object, hget, hm⟩
    refine ⟨m, _, hm, hversion, fun w' new m' hw' hm' hkey hsame ↦ ?_⟩
    obtain ⟨news, hlater⟩ := hw'.later hafter
    rcases hlater.update_cases hafter (hw'.coherent hafter) hget hm hm' hkey
      (hsame.trans hversion.symm) with he | ⟨hstill, hout, -⟩
    · exact .inl he
    · exact .inr ⟨hstill, news, hlater.toWrote, hout⟩
  case roles => exact fun scope desired ω _ owner now ↦ (meets_ensure hw).updates
  case bindings => exact fun scope desired ω _ owner now ↦ (meets_ensure hw).updates
  case quotas => exact fun c now ↦ (Config.meets_ensureQuota hw fun _ _ _ ↦ id).updates
  case configs =>
    intro key now
    exact (Config.meets_reconcile (fun _ _ _ ↦ .inl) (fun _ _ _ ↦ .inr) hw key).updates

/-- A config is created and reconciled. -/
theorem guarded_of_reconciled_config :
    let created := ((Task.create default (Config.new "shop" "a")).exec Store.quiet {}).2
    let reconciled :=
      ((Config.reconcile default (.namespaced "shop" "a")).exec Store.quiet created).2
    World.Reaches {} reconciled ∧ Guarded reconciled := by
  intro created reconciled
  have hreaches : World.Reaches {} reconciled :=
    (Program.reaches_run Store.quiet _ {}).trans (Program.reaches_run Store.quiet _ created)
  exact ⟨hreaches, guarded_of_reaches hreaches⟩

end TenantAccess
