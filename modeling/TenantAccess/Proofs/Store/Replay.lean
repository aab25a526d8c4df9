import TenantAccess.Proofs.Store.Calls

/-!
# A subscriber can keep a copy

Whoever knows what a store holds and is told of every change from then on knows what the store
holds at any later time: each change fits what is there, and makes of it what the store makes of it.
-/

namespace TenantAccess

/-- What the change makes of `contents`, if it fits. -/
def Event.turn? (e : Event) (contents : SortedMap ObjectRef Json) :
    Option (SortedMap ObjectRef Json) :=
  match e.type, contents.get? e.ref with
  | .added, none => some (contents.insert e.ref e.object)
  | .modified, some _ => some (contents.insert e.ref e.object)
  | .deleted, some _ => some (contents.erase e.ref)
  | _, _ => none

/-- What all of the changes make of `contents`, if each fits what those before it leave. -/
def replay? : SortedMap ObjectRef Json → List Event → Option (SortedMap ObjectRef Json)
  | contents, [] => some contents
  | contents, e :: events => do replay? (← e.turn? contents) events

theorem replay?_append (contents : SortedMap ObjectRef Json) (events more : List Event) :
    replay? contents (events ++ more) = (replay? contents events).bind (replay? · more) := by
  induction events generalizing contents with
  | nil => rfl
  | cons e events ih =>
    rw [List.cons_append, replay?, replay?]
    cases e.turn? contents with
    | none => rfl
    | some next => exact ih next

namespace Store

variable {s middle after : Store} {env : Ambient} {news more : List Event} {ref : ObjectRef}
  {kind : Kind} {object : Json} {m m₀ : ObjectMeta} {work : List ObjectRef}

/-- What a subscriber since `s` is told until `after`. -/
def heard (s after : Store) : List Event :=
  (after.log.extract s.log.size after.log.size).toList

theorem Wrote.heard_eq (h : s.Wrote news after) : s.heard after = news := by
  rw [heard, toList_extract_log]
  exact h.drop_log

/-- The writes `news` lead from `s` to `after`, and a copy can follow them. -/
structure Mirrors (s : Store) (news : List Event) (after : Store) : Prop extends
    Later s news after where
  replay : replay? s.objects news = some after.objects
  metadata : ∀ e ∈ news, metaOf e.kind e.object = .ok e.metadata

theorem mirrors_nil (s : Store) : s.Mirrors [] s where
  toLater := later_nil s
  replay := rfl
  metadata e he := by cases he

theorem Mirrors.trans (h : s.Mirrors news middle) (h' : middle.Mirrors more after) :
    s.Mirrors (news ++ more) after where
  toLater := h.toLater.trans h'.toLater
  replay := by
    rw [replay?_append, h.replay, Option.bind_some]
    exact h'.replay
  metadata e he := (List.mem_append.1 he).elim (h.metadata e) (h'.metadata e)

theorem mirrors_written {type : EventType} (hm : metaOf kind object = .ok m₀)
    (hversion : m.resourceVersion = some (toString (s.version + 1)))
    (hfits : (⟨type, kind, m, withMeta object m⟩ : Event).turn? s.objects =
      some (s.objects.insert ⟨kind, m.key⟩ (withMeta object m))) (issued : Nat) :
    s.Mirrors [⟨type, kind, m, withMeta object m⟩]
      (s.written type kind m (withMeta object m) issued) where
  toLater := later_written hm hversion type issued
  replay := by
    rw [replay?, hfits]
    rfl
  metadata e he := by
    rw [List.mem_singleton.1 he]
    exact metaOf_withMeta hm m

theorem mirrors_without (hget : s.objects.get? ref = some object)
    (hm : metaOf ref.kind object = .ok m) (hkey : m.key = ref.key) :
    s.Mirrors [⟨.deleted, ref.kind, m, object⟩] (s.without ref m object) where
  toLater := later_without hkey object
  replay := by
    have href : (⟨ref.kind, m.key⟩ : ObjectRef) = ref := by rw [hkey]
    simp only [replay?, Event.turn?, Event.ref, href, hget]
    rfl
  metadata e he := by rwa [List.mem_singleton.1 he]

theorem Sweeps.mirrors (h : Sweeps s work news after) (hs : s.Coherent) :
    s.Mirrors news after := by
  induction h with
  | nil s => exact mirrors_nil s
  | skip _ _ ih => exact ih hs
  | take hget hm _ ih =>
    exact (mirrors_without hget hm (hs.key_eq hget hm)).trans (ih (coherent_without hs _ _ _))

theorem Effect.exists_mirrors (h : Effect env s after) (hs : s.Coherent) :
    ∃ news, s.Mirrors news after := by
  cases h with
  | idle => exact ⟨[], mirrors_nil s⟩
  | created hm hnone =>
    refine ⟨_, mirrors_written (admitted_eq_ok_iff.1 hm).1 rfl ?_ _⟩
    simp only [Event.turn?, Event.ref, stampNew_key, hnone]
  | updated hm hc =>
    obtain ⟨current, hget, -⟩ := hc
    refine ⟨_, mirrors_written (admitted_eq_ok_iff.1 hm).1 rfl ?_ _⟩
    simp only [Event.turn?, Event.ref, stampOver_key, hget]
  | removed h => exact ⟨_, h.mirrors hs⟩

end Store

theorem World.exists_mirrors_after {w : World} (h : w.store.Regular) (calls : List Call) :
    ∃ news, w.store.Mirrors news (w.after calls).store := by
  induction calls generalizing w with
  | nil => exact ⟨[], Store.mirrors_nil _⟩
  | cons c calls ih =>
    obtain ⟨news, hcall⟩ :=
      (Store.effect_perform c.env c.request h.coherent).exists_mirrors h.coherent
    obtain ⟨more, hrest⟩ := ih (World.regular_call h c)
    exact ⟨news ++ more, hcall.trans hrest⟩

/-- From what a store held when somebody subscribed, and what the subscriber heard since, follows
what it holds after any more requests.  Every change comes with the metadata of its document, there
are as many as there were writes, and requests that read or are refused make none. -/
theorem replay?_heard (calls more : List Call) :
    let w := World.after {} calls
    let after := (World.after {} (calls ++ more)).store
    replay? w.store.objects (w.store.heard after) = some after.objects ∧
    (∀ e ∈ w.store.heard after, Store.metaOf e.kind e.object = .ok e.metadata) ∧
    after.writes = w.store.writes + (w.store.heard after).length ∧
    ∀ c : Call, ¬c.request.Accepted (c.request.perform c.env w).1 →
      (w.call c).store = w.store ∧ w.store.heard (w.call c).store = [] := by
  intro w after
  have hw : w.store.Regular := World.regular_after Store.regular_empty calls
  obtain ⟨news, hnews⟩ := World.exists_mirrors_after hw more
  rw [← World.after_append] at hnews
  rw [hnews.heard_eq]
  refine ⟨hnews.replay, hnews.metadata, hnews.writes, fun c hrefused ↦ ?_⟩
  have hsame : (w.call c).store = w.store :=
    (Store.perform_cases c.env c.request hw.coherent).resolve_right fun h ↦ hrefused h.1
  rw [hsame]
  exact ⟨rfl, (Store.wrote_nil _).heard_eq⟩

end TenantAccess
