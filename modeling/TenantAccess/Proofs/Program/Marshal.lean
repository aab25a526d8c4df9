import TenantAccess.Proofs.Store.Keeping
import TenantAccess.Proofs.Store.Replay

/-!
# Nothing is lost between objects and documents

What a typed writer hands to a store comes back as it was but for its stamps, and is read and listed
like that until its key is written to again.
-/

namespace TenantAccess

open Json

/-- What is written under the kind of `α` is what some object of the type is written as. -/
def Request.Typed (α : Type) [Resource α] : Request → Prop
  | create kind object | update kind object =>
    kind = Resource.kind α → ∃ a : α, object = Resource.encode a
  | get _ | list .. | delete _ | review _ | claims | publish _ => True

namespace Store

variable {α : Type} [Resource α] [Resource.Lawful α] {s after : Store} {type : EventType}
  {kind : Kind} {object : Json} {m : ObjectMeta} {issued : Nat}

theorem Encodes.written (h : s.Encodes α)
    (hobject : kind = Resource.kind α → ∃ a : α, object = Resource.encode a) :
    (s.written type kind m (withMeta object m) issued).Encodes α := by
  intro key stored hget
  rw [get?_written] at hget
  split at hget
  · next href =>
    cases hget
    obtain ⟨a, rfl⟩ := hobject (congrArg ObjectRef.kind href).symm
    exact ⟨Resource.withMeta a m, withMeta_encode a m⟩
  · exact h key stored hget

omit [Resource.Lawful α] in
theorem Swept.encodes {work : List ObjectRef} (h : Swept s work after) (hs : s.Encodes α) :
    after.Encodes α :=
  fun key object hget ↦ hs key object (h.kept _ object hget)

theorem Encodes.recorded (h : s.Encodes α) (a : α) : (s.recorded type a issued).Encodes α := by
  have hsame : Resource.encode a = withMeta (Resource.encode a) (Resource.metadata a) := by
    rw [withMeta_encode, Resource.withMeta_metadata]
  rw [Store.recorded, hsame]
  exact h.written fun _ ↦ ⟨a, rfl⟩

end Store

namespace World

open Store

variable {α : Type} [Resource α] {w : World} {env : Surroundings} {r : Request}
  {calls more : List Call}

theorem encodes_perform [Resource.Lawful α] (hw : w.store.Coherent) (h : w.store.Encodes α)
    (hr : r.Typed α) : (r.perform env w).2.store.Encodes α := by
  cases r with
  | create kind object =>
    change (Store.create env.ambient kind object w.store).2.Encodes α
    rcases create_cases env.ambient kind object w.store with ⟨e, he⟩ | ⟨m, -, -, heq⟩
    · rwa [he]
    · rw [heq]
      exact h.written hr
  | update kind object =>
    change (Store.update kind object w.store).2.Encodes α
    rcases update_cases kind object w.store with ⟨e, he⟩ | ⟨m, current, c, -, -, -, -, heq⟩
    · rwa [he]
    · rw [heq]
      exact h.written hr
  | delete ref =>
    change (Store.delete ref w.store).2.Encodes α
    rcases delete_spec hw ref with ⟨-, heq⟩ | ⟨after, heq, hswept⟩
    · rwa [heq]
    · rw [heq]
      exact hswept.encodes h
  | get | list | review | claims | publish => exact h

theorem coherent_after (hw : w.store.Coherent) (calls : List Call) :
    (w.after calls).store.Coherent := by
  induction calls generalizing w with
  | nil => exact hw
  | cons c calls ih => exact ih (coherent_perform c.env c.request hw)

theorem encodes_after [Resource.Lawful α] (hw : w.store.Coherent) (h : w.store.Encodes α)
    (hcalls : ∀ c ∈ calls, c.request.Typed α) : (w.after calls).store.Encodes α := by
  induction calls generalizing w with
  | nil => exact h
  | cons c calls ih =>
    obtain ⟨hc, hcalls⟩ := List.forall_mem_cons.1 hcalls
    exact ih (coherent_perform c.env c.request hw) (encodes_perform hw h hc) hcalls

theorem exists_later_after (hw : w.store.Coherent) (calls : List Call) :
    ∃ news, w.store.Later news (w.after calls).store := by
  induction calls generalizing w with
  | nil => exact ⟨[], later_nil _⟩
  | cons c calls ih =>
    obtain ⟨news, hcall⟩ := later_perform c.env c.request hw
    obtain ⟨later, hrest⟩ := ih (coherent_perform c.env c.request hw)
    exact ⟨news ++ later, hcall.trans hrest⟩

/-- No change of `ref` is told of while the calls are answered. -/
def Spares (w : World) (ref : ObjectRef) (calls : List Call) : Prop :=
  ∀ e ∈ w.store.heard (w.after calls).store, e.ref ≠ ref

theorem Spares.get?_eq {ref : ObjectRef} (h : w.Spares ref calls) (hw : w.store.Coherent) :
    (w.after calls).store.objects.get? ref = w.store.objects.get? ref := by
  obtain ⟨news, hlater⟩ := exists_later_after hw calls
  refine hlater.frame ref ?_
  rw [← hlater.heard_eq]
  exact h

theorem spares_creating [Resource.Lawful α] {a : α} {ref : ObjectRef}
    (hscope : scopeDefect (Resource.kind α) (Resource.metadata a) = none)
    (hnone : w.store.objects.get? (Resource.ref a) = none) (hne : Resource.ref a ≠ ref) :
    w.Spares ref [.creating a] := by
  have hcall := store_call_creating hscope hnone
  intro e he
  rw [after, List.foldl_cons, List.foldl_nil, hcall, (wrote_recorded ..).heard_eq,
    List.mem_singleton] at he
  rw [he, Event.ref]
  change Resource.ref (asNew quiet.ambient w.store a) ≠ ref
  rwa [ref_asNew]

/-- Each way to read the object yields `a`. -/
structure Shows (w : World) (a : α) : Prop where
  get_eq : ∀ env now, (Task.get now (Resource.key a)).exec env w = (.ok a, w)
  mem_list_iff : ∀ env now params w' (l : List α),
    (Task.list now params).exec env w = (.ok l, w') →
      ∀ b, b ∈ l ∧ Resource.key b = Resource.key a ↔
        b = a ∧ params.Matches (Resource.metadata a)
  /-- A list succeeds unless it comes upon a document that is none of the type. -/
  exists_list : ∀ env now params, w.store.Legible α now params →
    ∃ l : List α, (Task.list now params).exec env w = (.ok l, w)

theorem shows_of_holds [Resource.Lawful α] {a : α} (hw : w.store.Coherent) (h : w.store.Holds a) :
    w.Shows a where
  get_eq env now := Task.exec_get_of_has (h.has now)
  mem_list_iff env now params w' l hl b := by
    obtain ⟨-, rfl⟩ := Task.exec_list_eq_ok hw hl
    rw [mem_objectsOf_iff hw, ListParams.accepts_iff]
    constructor
    · rintro ⟨⟨hb, hmatches⟩, hkey⟩
      have heq : b = a := hb.eq_of_key_eq (h.has now) hkey
      exact ⟨heq, heq ▸ hmatches⟩
    · rintro ⟨rfl, hmatches⟩
      exact ⟨⟨h.has now, hmatches⟩, rfl⟩
  exists_list env now params hlegible := ⟨_, Task.exec_list hw hlegible⟩

/-- Written after `calls`, the object is shown until its key is written to again, and if all are typed
writers every list succeeds. -/
def Lasts (calls : List Call) (w : World) (a : α) : Prop :=
  ∀ more, w.Spares (Resource.ref a) more → (w.after more).Shows a ∧
    ((∀ c ∈ calls ++ more, c.request.Typed α) → ∀ env now params,
      ∃ l : List α, (Task.list now params).exec env (w.after more) = (.ok l, w.after more))

theorem lasts_of_recorded [Resource.Lawful α] {a : α} {type : EventType} {issued : Nat}
    (hstore : w.store = (World.after {} calls).store.recorded type a issued)
    (hw : w.store.Coherent) : w.Lasts calls a := by
  intro more hspares
  have hafter := coherent_after hw more
  have hholds : (w.after more).store.Holds a := by
    rw [Holds, hspares.get?_eq hw, hstore, get?_recorded, if_pos rfl]
  have hshows := shows_of_holds hafter hholds
  refine ⟨hshows, fun htyped env now params ↦ hshows.exists_list env now params ?_⟩
  obtain ⟨hcalls, hmore⟩ := List.forall_mem_append.1 htyped
  have hempty : (World.store {}).Encodes α := fun _ _ hget ↦ by cases hget
  have hencodes : w.store.Encodes α := by
    rw [hstore]
    exact (encodes_after coherent_empty hempty hcalls).recorded a
  exact (encodes_after hw hencodes hmore).legible now params

end World

/-- The typed boundary of the store is lossless.  Objects are read back from their documents, different
ones have different documents, and what any document is read as is written so that it is read as the
same.  What is created or updated comes back with new stamps and nothing else changed, and it is what
everybody reads until the key is written to again. -/
theorem marshalled_without_loss (kind : Kind) (a : kind.Object) :
    (∀ now, Resource.decode strict now (Resource.encode a) = some a) ∧
    (∀ b : kind.Object, Resource.encode a = Resource.encode b → a = b) ∧
    (∀ now later object (b : kind.Object), Resource.decode strict now object = some b →
      Resource.decode strict later (Resource.encode b) = some b) ∧
    ∀ calls env now b w', let w := World.after {} calls
      ((Task.create now a).exec env w = (.ok b, w') →
        b = Resource.withMeta a { Resource.metadata a with
          uid := if (Resource.metadata a).uid = "" then env.ambient.uid w.store.issued
            else (Resource.metadata a).uid
          resourceVersion := some (toString (w.store.version + 1))
          creationTimestamp := some env.ambient.now } ∧ w'.Lasts calls b) ∧
      ((Task.update now a).exec env w = (.ok b, w') →
        (∃ c, w.store.HasMeta (Resource.ref a) c ∧
          b = Resource.withMeta a { Resource.metadata a with
            uid := c.uid
            resourceVersion := some (toString (w.store.version + 1))
            creationTimestamp := c.creationTimestamp }) ∧ w'.Lasts calls b) := by
  refine ⟨fun now ↦ Resource.decode_encode a, fun b ↦ Resource.encode_injective,
    fun now later object b _ ↦ Resource.decode_encode b, fun calls env now b w' ↦ ?_⟩
  intro w
  have hw : w.store.Coherent := World.coherent_after Store.coherent_empty calls
  constructor
  · intro h
    rcases Task.exec_create_cases env now a w with ⟨e, he⟩ | ⟨hscope, -, heq⟩
    · rw [he] at h
      cases h
    · rw [heq] at h
      cases h
      exact ⟨rfl, World.lasts_of_recorded rfl (hw.create hscope _)⟩
  · intro h
    rcases Task.exec_update_cases env now a w with ⟨e, he⟩ | ⟨current, c, hget, hc, hscope, heq⟩
    · rw [he] at h
      cases h
    · rw [heq] at h
      cases h
      exact ⟨⟨c, ⟨current, hget, hc⟩, rfl⟩, World.lasts_of_recorded rfl (hw.update hscope _)⟩

/-- A tenant that declares no users, rather than leaving them open, is created, and read as such after
another one is. -/
theorem marshalled_without_loss_of_no_users :
    let a : Tenant := { Tenant.new "shop" "shop-db" with developer := { users? := some [] } }
    let b : Tenant := { a with metadata := { a.metadata with
      uid := "uid-0", resourceVersion := some "1", creationTimestamp := some default } }
    let more := [Call.creating (Tenant.new "other" "other-db")]
    ∃ w', (Task.create default a).exec Store.quiet {} = (.ok b, w') ∧
      Resource.encode a ≠ Resource.encode (Tenant.new "shop" "shop-db") ∧
      (w'.after more).Shows b ∧ ∃ l : List Tenant,
        (Task.list default .all).exec Store.quiet (w'.after more) = (.ok l, w'.after more) ∧
          b ∈ l := by
  intro a b more
  obtain ⟨-, hdistinct, -, hwritten⟩ := marshalled_without_loss .tenant a
  obtain ⟨w', hw'⟩ : ∃ w', w' = ((Task.create default a).exec Store.quiet {}).2 := ⟨_, rfl⟩
  have hcreate : (Task.create default a).exec Store.quiet {} = (.ok b, w') := by
    rw [hw', Task.exec_create (by decide) rfl]
    rfl
  have hstore : w'.store = Store.empty.recorded .added b 1 := by
    rw [hw', Task.exec_create (by decide) rfl]
    rfl
  obtain ⟨-, hlasts⟩ := (hwritten [] Store.quiet default b w').1 hcreate
  have hspares : w'.Spares (Resource.ref b) more := by
    have hne : Resource.ref (Tenant.new "other" "other-db") ≠ Resource.ref b := by decide
    refine World.spares_creating (by decide) ?_ hne
    rw [hstore, Store.get?_recorded, if_neg hne]
    rfl
  obtain ⟨hshows, hlist⟩ := hlasts more hspares
  have htyped : ∀ c ∈ [] ++ more, c.request.Typed Tenant := by
    intro c hc
    rw [List.mem_singleton.1 hc]
    exact fun _ ↦ ⟨_, rfl⟩
  obtain ⟨l, hl⟩ := hlist htyped Store.quiet default .all
  refine ⟨w', hcreate, fun heq ↦ ?_, hshows, l, hl, ?_⟩
  · have hsame : a = Tenant.new "shop" "shop-db" := hdistinct _ heq
    exact absurd hsame (by decide)
  · exact ((hshows.mem_list_iff _ _ _ _ _ hl b).2 ⟨rfl, ListParams.accepts_iff.1 rfl⟩).1

end TenantAccess
