import TenantAccess.Proofs.Program.Exec

/-!
# Typed operations on a coherent store

Reading yields the stored objects in key order, creating and updating write an object as its type
does, and deleting sweeps.
-/

namespace TenantAccess

open Std Json

theorem ListParams.accepts_inNamespace_iff {ns : String} {m : ObjectMeta} :
    (inNamespace ns).accepts m ↔ m.ns? = some ns := by
  have haccepts : (inNamespace ns).accepts m = decide (m.ns? = some ns) := Bool.and_true _
  rw [haccepts, decide_eq_true_eq]

namespace Store

variable {α : Type} [Resource α] {now : Timestamp} {params : ListParams} {s : Store}

/-- The object `a` is what its document reads as at `now`. -/
def Has (now : Timestamp) (s : Store) (a : α) : Prop :=
  ∃ object, s.objects.get? (Resource.ref a) = some object ∧
    Resource.decode strict now object = some a

/-- The objects of a type that `params` accepts, in key order. -/
def objectsOf (α : Type) [Resource α] (now : Timestamp) (params : ListParams) (s : Store) :
    List α :=
  s.objects.entries.filterMap fun e ↦
    if e.1.kind = Resource.kind α then
      (Resource.decode strict now e.2).filter fun a ↦ params.accepts (Resource.metadata a)
    else none

def Encodes (α : Type) [Resource α] (s : Store) : Prop :=
  ∀ key object, s.objects.get? ⟨Resource.kind α, key⟩ = some object →
    ∃ a : α, object = Resource.encode a

/-- Every document that a list of the type takes in can be read. -/
def Legible (α : Type) [Resource α] (now : Timestamp) (params : ListParams) (s : Store) : Prop :=
  ∀ key object m, s.objects.get? ⟨Resource.kind α, key⟩ = some object →
    metaOf (Resource.kind α) object = .ok m → params.accepts m →
    ∃ a : α, Resource.decode strict now object = some a

theorem Has.eq_of_key_eq {a b : α} (ha : s.Has now a) (hb : s.Has now b)
    (h : Resource.key a = Resource.key b) : a = b := by
  obtain ⟨object, hget, hdecode⟩ := ha
  obtain ⟨object', hget', hdecode'⟩ := hb
  rw [Resource.ref, h] at hget
  rw [Resource.ref, hget] at hget'
  cases hget'
  exact Option.some.inj (hdecode.symm.trans hdecode')

/-! ## What a write files -/

/-- The object `a` as a creation files it. -/
def asNew (env : Ambient) (s : Store) (a : α) : α :=
  Resource.withMeta a (stampNew env s (Resource.metadata a))

/-- The object `a` as an update files it over one with metadata `c`. -/
def asUpdate (s : Store) (c : ObjectMeta) (a : α) : α :=
  Resource.withMeta a (stampOver s c (Resource.metadata a))

def recorded (s : Store) (type : EventType) (a : α) (issued : Nat) : Store :=
  s.written type (Resource.kind α) (Resource.metadata a) (Resource.encode a) issued

section Recorded

variable (type : EventType) (a : α) (issued : Nat)

@[simp] theorem get?_recorded (ref : ObjectRef) :
    (s.recorded type a issued).objects.get? ref =
      if ref = Resource.ref a then some (Resource.encode a) else s.objects.get? ref :=
  get?_written s type _ _ _ issued ref

@[simp] theorem issued_recorded : (s.recorded type a issued).issued = issued := rfl

@[simp] theorem log_recorded : (s.recorded type a issued).log =
    s.log.push ⟨type, Resource.kind α, Resource.metadata a, Resource.encode a⟩ := rfl

end Recorded

theorem get?_recorded_of_get? {type : EventType} {a : α} {issued : Nat}
    (hnone : s.objects.get? (Resource.ref a) = none) {ref : ObjectRef} {object : Json}
    (hget : s.objects.get? ref = some object) :
    (s.recorded type a issued).objects.get? ref = some object := by
  rw [get?_recorded, if_neg]
  · exact hget
  · rintro rfl
    rw [hnone] at hget
    cases hget

/-! ## What listing selects -/

/-- Whether `params` accepts the metadata of a document. -/
def acceptsEntry (params : ListParams) (e : ObjectRef × Json) : Bool :=
  match metaOf e.1.kind e.2 with
  | .ok m => params.accepts m
  | .error _ => false

theorem select_eq_ok {l : List (ObjectRef × Json)}
    (h : ∀ e ∈ l, ∃ m, metaOf e.1.kind e.2 = .ok m) :
    select params l = .ok ((l.filter (acceptsEntry params)).map (·.2)) := by
  induction l with
  | nil => rfl
  | cons e rest ih =>
    obtain ⟨ref, object⟩ := e
    obtain ⟨m, hm⟩ := h (ref, object) List.mem_cons_self
    have hselect : select params ((ref, object) :: rest) =
        (metaOf ref.kind object).bind fun m ↦ (select params rest).bind fun others ↦
          .ok (if params.accepts m then object :: others else others) := rfl
    rw [hselect, hm, ih fun e he ↦ h e (List.mem_cons_of_mem _ he)]
    by_cases haccepts : params.accepts m <;>
      simp [Except.bind, acceptsEntry, hm, haccepts]

theorem exists_of_mapM_eq_some {β : Type} {f : Json → Option β} {objects : List Json} {l : List β}
    (h : objects.mapM f = some l) {object : Json} (hmem : object ∈ objects) :
    ∃ a, f object = some a := by
  induction objects generalizing l with
  | nil => simp at hmem
  | cons o rest ih =>
    simp only [List.mapM_cons, Option.bind_eq_bind, Option.bind_eq_some_iff] at h
    obtain ⟨a, ha, l', hl, -⟩ := h
    rcases List.mem_cons.1 hmem with rfl | hmem
    · exact ⟨a, ha⟩
    · exact ih hl hmem

variable [Resource.Lawful α]

@[simp] theorem metadata_asNew (env : Ambient) (s : Store) (a : α) :
    Resource.metadata (asNew env s a) = stampNew env s (Resource.metadata a) :=
  Resource.metadata_withMeta ..

@[simp] theorem metadata_asUpdate (s : Store) (c : ObjectMeta) (a : α) :
    Resource.metadata (asUpdate s c a) = stampOver s c (Resource.metadata a) :=
  Resource.metadata_withMeta ..

@[simp] theorem ref_asNew (env : Ambient) (s : Store) (a : α) :
    Resource.ref (asNew env s a) = Resource.ref a := by
  simp [Resource.ref, Resource.key]

@[simp] theorem ref_asUpdate (s : Store) (c : ObjectMeta) (a : α) :
    Resource.ref (asUpdate s c a) = Resource.ref a := by
  simp [Resource.ref, Resource.key]

theorem Coherent.key_of_decode (h : s.Coherent) {key : ObjectKey} {object : Json} {a : α}
    (hget : s.objects.get? ⟨Resource.kind α, key⟩ = some object)
    (hdecode : Resource.decode strict now object = some a) : Resource.key a = key := by
  obtain ⟨m, hm, hkey, -⟩ := h.exists_metaOf hget
  rw [Resource.key, metadata_eq_of_decode hdecode hm, hkey]

theorem Coherent.has_of_decode (h : s.Coherent) {key : ObjectKey} {object : Json} {a : α}
    (hget : s.objects.get? ⟨Resource.kind α, key⟩ = some object)
    (hdecode : Resource.decode strict now object = some a) : s.Has now a := by
  refine ⟨object, ?_, hdecode⟩
  rw [Resource.ref, h.key_of_decode hget hdecode]
  exact hget

theorem coherent_recorded {type : EventType} {a : α} {issued : Nat} (h : s.Coherent)
    (hscope : scopeDefect (Resource.kind α) (Resource.metadata a) = none)
    (hversion : (Resource.metadata a).resourceVersion = some (toString (s.version + 1))) :
    (s.recorded type a issued).Coherent := by
  intro ref object hget
  rw [get?_recorded] at hget
  split at hget
  · next href =>
    cases hget
    subst href
    exact ⟨_, admitted_encode hscope, rfl, s.version + 1, Nat.le_refl _, hversion⟩
  · exact filed_mono (Nat.le_succ _) (h ref object hget)

theorem Coherent.create {env : Ambient} {a : α} (h : s.Coherent)
    (hscope : scopeDefect (Resource.kind α) (Resource.metadata a) = none) (issued : Nat) :
    (s.recorded .added (asNew env s a) issued).Coherent := by
  refine coherent_recorded h ?_ ?_ <;> rw [metadata_asNew]
  · rwa [scopeDefect_congr (stampNew_key s _ env)]
  · rfl

theorem Coherent.update {c : ObjectMeta} {a : α} (h : s.Coherent)
    (hscope : scopeDefect (Resource.kind α) (Resource.metadata a) = none) (issued : Nat) :
    (s.recorded .modified (asUpdate s c a) issued).Coherent := by
  refine coherent_recorded h ?_ ?_ <;> rw [metadata_asUpdate]
  · rwa [scopeDefect_congr (stampOver_key s _ c)]
  · rfl

theorem Coherent.metaOf_of_has (h : s.Coherent) {a : α} {object : Json}
    (hget : s.objects.get? (Resource.ref a) = some object)
    (hdecode : Resource.decode strict now object = some a) :
    metaOf (Resource.kind α) object = .ok (Resource.metadata a) := by
  obtain ⟨m, hm, -⟩ := h.exists_metaOf hget
  rw [metadata_eq_of_decode hdecode hm]
  exact hm

theorem Coherent.scopeDefect_of_has (h : s.Coherent) {a : α} (ha : s.Has now a) :
    scopeDefect (Resource.kind α) (Resource.metadata a) = none := by
  obtain ⟨object, hget, hdecode⟩ := ha
  exact h.scopeDefect_eq hget (h.metaOf_of_has hget hdecode)

theorem Holds.has {a : α} (h : s.Holds a) (now : Timestamp) : s.Has now a :=
  ⟨_, h, Resource.decode_encode a⟩

theorem Encodes.exists_holds (h : s.Encodes α) (hcoherent : s.Coherent) {key : ObjectKey}
    {object : Json} (hget : s.objects.get? ⟨Resource.kind α, key⟩ = some object) :
    ∃ a : α, object = Resource.encode a ∧ s.Holds a ∧ Resource.key a = key := by
  obtain ⟨a, rfl⟩ := h key object hget
  have hkey : Resource.key a = key := hcoherent.key_eq hget (metaOf_encode _ a)
  refine ⟨a, rfl, ?_, hkey⟩
  rw [Holds, Resource.ref, hkey]
  exact hget

theorem Encodes.holds_of_has (h : s.Encodes α) {a : α} (ha : s.Has now a) : s.Holds a := by
  obtain ⟨object, hget, hdecode⟩ := ha
  obtain ⟨b, rfl⟩ := h _ object hget
  rw [Resource.decode_encode] at hdecode
  cases hdecode
  exact hget

theorem Encodes.legible (h : s.Encodes α) (now : Timestamp) (params : ListParams) :
    s.Legible α now params := by
  intro key object m hget _ _
  obtain ⟨a, rfl⟩ := h key object hget
  exact ⟨a, Resource.decode_encode a⟩

theorem mem_objectsOf_iff (h : s.Coherent) {a : α} :
    a ∈ s.objectsOf α now params ↔ s.Has now a ∧ params.accepts (Resource.metadata a) := by
  simp only [objectsOf, List.mem_filterMap]
  constructor
  · rintro ⟨⟨⟨kind, key⟩, object⟩, hmem, heq⟩
    split at heq
    · next hkind =>
      obtain ⟨hdecode, haccepts⟩ := Option.filter_eq_some_iff.1 heq
      cases hkind
      exact ⟨h.has_of_decode (SortedMap.mem_entries_iff.1 hmem) hdecode, haccepts⟩
    · cases heq
  · rintro ⟨⟨object, hget, hdecode⟩, haccepts⟩
    refine ⟨(Resource.ref a, object), SortedMap.mem_entries_iff.2 hget, ?_⟩
    rw [Resource.ref, if_pos rfl]
    exact Option.filter_eq_some_iff.2 ⟨hdecode, haccepts⟩

theorem objectsOf_pairwise (h : s.Coherent) :
    (s.objectsOf α now params).Pairwise fun a b ↦
      compare (Resource.key a) (Resource.key b) = .lt := by
  have hread {e : ObjectRef × Json} (he : e ∈ s.objects.entries) {a : α}
      (ha : a ∈ if e.1.kind = Resource.kind α then (Resource.decode strict now e.2).filter
        fun a ↦ params.accepts (Resource.metadata a) else none) :
      e.1.kind = Resource.kind α ∧ Resource.key a = e.1.key := by
    obtain ⟨⟨kind, key⟩, object⟩ := e
    split at ha
    · next hkind =>
      cases hkind
      exact ⟨rfl, h.key_of_decode (SortedMap.mem_entries_iff.1 he)
        (Option.filter_eq_some_iff.1 ha).1⟩
    · cases ha
  refine List.pairwise_filterMap.2 (s.objects.sorted.imp_of_mem fun he he' hlt a ha b hb ↦ ?_)
  obtain ⟨hkind, hkey⟩ := hread he ha
  obtain ⟨hkind', hkey'⟩ := hread he' hb
  rw [ObjectRef.compare_eq, hkind, hkind', compare_self] at hlt
  rw [hkey, hkey']
  exact hlt

theorem mapM_decode_select {l : List (ObjectRef × Json)}
    (hkind : ∀ e ∈ l, e.1.kind = Resource.kind α)
    (hmeta : ∀ e ∈ l, ∃ m, metaOf e.1.kind e.2 = .ok m)
    (hread : ∀ e ∈ l, acceptsEntry params e → ∃ a : α, Resource.decode strict now e.2 = some a) :
    ((l.filter (acceptsEntry params)).map (·.2)).mapM (Resource.decode (α := α) strict now) =
      some (l.filterMap fun e ↦
        if e.1.kind = Resource.kind α then
          (Resource.decode strict now e.2).filter fun a ↦ params.accepts (Resource.metadata a)
        else none) := by
  induction l with
  | nil => rfl
  | cons e rest ih =>
    have ih := ih (fun e he ↦ hkind e (List.mem_cons_of_mem _ he))
      (fun e he ↦ hmeta e (List.mem_cons_of_mem _ he))
      (fun e he ↦ hread e (List.mem_cons_of_mem _ he))
    obtain ⟨m, hm⟩ := hmeta e List.mem_cons_self
    have hk := hkind e List.mem_cons_self
    by_cases haccepts : params.accepts m
    · have hentry : acceptsEntry params e := by simp [acceptsEntry, hm, haccepts]
      obtain ⟨a, ha⟩ := hread e List.mem_cons_self hentry
      have hfilter : (some a).filter (fun a ↦ params.accepts (Resource.metadata a)) = some a := by
        simp [metadata_eq_of_decode ha hm, haccepts]
      simp [hentry, ha, hfilter, hk, List.mapM_cons, ih]
    · have hentry : acceptsEntry params e = false := by simp [acceptsEntry, hm, haccepts]
      have hfilter : (Resource.decode (α := α) strict now e.2).filter
          (fun a ↦ params.accepts (Resource.metadata a)) = none := by
        rw [Option.filter_eq_none_iff]
        intro a ha
        rwa [metadata_eq_of_decode ha hm]
      simp [hentry, hfilter, hk, ih]

end Store

def World.withStore (w : World) (s : Store) : World := { w with store := s }

@[simp] theorem World.store_withStore (w : World) (s : Store) : (w.withStore s).store = s := rfl

namespace Task

open Store

variable {α : Type} [Resource α] {env : Surroundings} {w w' : World} {now : Timestamp}
  {params : ListParams}

/-! ## Reading -/

theorem list_eq_ok (s : Store) (h : s.Coherent) (kind : Kind) (params : ListParams) :
    s.list kind params = .ok (((s.objects.entries.filter fun e ↦ e.1.kind = kind).filter
      (acceptsEntry params)).map (·.2)) :=
  select_eq_ok fun e he ↦ by
    obtain ⟨m, hm, -⟩ := h.exists_metaOf
      (SortedMap.mem_entries_iff.1 (List.mem_filter.1 he).1)
    exact ⟨m, hm⟩

theorem exec_get_eq {key : ObjectKey} : (get (α := α) now key).exec env w =
    (ofStore (w.store.get ⟨Resource.kind α, key⟩) >>= decode (α := α) now).exec env w := rfl

theorem exec_get_of_none {key : ObjectKey}
    (h : w.store.objects.get? ⟨Resource.kind α, key⟩ = none) :
    (get (α := α) now key).exec env w =
      (.error (StoreError.notFound ⟨Resource.kind α, key⟩).toError, w) := by
  have hget : w.store.get ⟨Resource.kind α, key⟩ =
      .error (.notFound ⟨Resource.kind α, key⟩) := by
    simp [Store.get, h]
  rw [exec_get_eq, hget, exec_bind_of_error (exec_ofStore_error _)]

theorem exec_get_of_has {a : α} (h : w.store.Has now a) :
    (get now (Resource.key a)).exec env w = (.ok a, w) := by
  obtain ⟨object, hobject, hdecode⟩ := h
  have hget : w.store.get ⟨Resource.kind α, Resource.key a⟩ = .ok object := by
    simp [Store.get, show w.store.objects.get? ⟨Resource.kind α, Resource.key a⟩ = some object
      from hobject]
  rw [exec_get_eq, hget, exec_bind_of_ok (exec_ofStore_ok _)]
  exact exec_decode hdecode

theorem exec_find?_of_none {key : ObjectKey}
    (h : w.store.objects.get? ⟨Resource.kind α, key⟩ = none) :
    (find? (α := α) now key).exec env w = (.ok none, w) := by
  have hget : w.store.get ⟨Resource.kind α, key⟩ =
      .error (.notFound ⟨Resource.kind α, key⟩) := by
    simp [Store.get, h]
  unfold find?
  rw [exec_bind_of_ok (exec_ask _)]
  simp only [Request.perform, hget]
  rfl

theorem exec_find?_of_decode {key : ObjectKey} {object : Json} {a : α}
    (h : w.store.objects.get? ⟨Resource.kind α, key⟩ = some object)
    (hdecode : Resource.decode strict now object = some a) :
    (find? now key).exec env w = (.ok (some a), w) := by
  have hget : w.store.get ⟨Resource.kind α, key⟩ = .ok object := by
    simp [Store.get, h]
  unfold find?
  rw [exec_bind_of_ok (exec_ask _)]
  simp only [Request.perform, hget]
  exact exec_map_of_ok (exec_decode hdecode) some

theorem exec_find?_of_has {a : α} (h : w.store.Has now a) :
    (find? now (Resource.key a)).exec env w = (.ok (some a), w) := by
  obtain ⟨object, hget, hdecode⟩ := h
  exact exec_find?_of_decode hget hdecode

theorem exec_list_eq : (list (α := α) now params).exec env w =
    (ofStore (w.store.list (Resource.kind α) params) >>= fun objects ↦
      objects.mapM (decode (α := α) now)).exec env w := rfl

variable [Resource.Lawful α]

theorem exec_find?_eq_ok (h : w.store.Coherent) {key : ObjectKey} {o : Option α}
    (heq : (find? now key).exec env w = (.ok o, w')) :
    w' = w ∧ ((o = none ∧ w.store.objects.get? ⟨Resource.kind α, key⟩ = none) ∨
      ∃ a, o = some a ∧ w.store.Has now a ∧ Resource.key a = key) := by
  cases hget : w.store.objects.get? ⟨Resource.kind α, key⟩ with
  | none =>
    rw [exec_find?_of_none hget] at heq
    cases heq
    exact ⟨rfl, .inl ⟨rfl, rfl⟩⟩
  | some object =>
    cases hdecode : Resource.decode (α := α) strict now object with
    | none =>
      have hstore : w.store.get ⟨Resource.kind α, key⟩ = .ok object := by
        simp [Store.get, hget]
      unfold find? at heq
      rw [exec_bind_of_ok (exec_ask _)] at heq
      simp only [Request.perform, hstore, exec_map] at heq
      simp [decode, hdecode] at heq
    | some a =>
      rw [exec_find?_of_decode hget hdecode] at heq
      cases heq
      exact ⟨rfl, .inr ⟨a, rfl, h.has_of_decode hget hdecode, h.key_of_decode hget hdecode⟩⟩

/-- Listing a type yields its objects in key order. -/
theorem exec_list (h : w.store.Coherent) (hlegible : w.store.Legible α now params) :
    (list now params).exec env w = (.ok (w.store.objectsOf α now params), w) := by
  rw [exec_list_eq, list_eq_ok _ h, exec_bind_of_ok (exec_ofStore_ok _),
    exec_mapM_decode_eq_ok_iff, mapM_decode_select]
  · refine ⟨?_, rfl⟩
    rw [objectsOf, List.filterMap_filter]
    congr 2
    funext e
    by_cases hkind : e.1.kind = Resource.kind α <;> simp [hkind]
  · exact fun e he ↦ by simpa using (List.mem_filter.1 he).2
  · intro e he
    obtain ⟨m, hm, -⟩ := h.exists_metaOf
      (SortedMap.mem_entries_iff.1 (List.mem_filter.1 he).1)
    exact ⟨m, hm⟩
  · rintro ⟨⟨kind, key⟩, object⟩ he haccepts
    obtain ⟨hmem, hkind⟩ := List.mem_filter.1 he
    have hkind : kind = Resource.kind α := by simpa using hkind
    cases hkind
    obtain ⟨m, hm, -⟩ := h.exists_metaOf (SortedMap.mem_entries_iff.1 hmem)
    refine hlegible key object m (SortedMap.mem_entries_iff.1 hmem) hm ?_
    simpa [acceptsEntry, hm] using haccepts

theorem exec_list_eq_ok (h : w.store.Coherent) {l : List α}
    (heq : (list now params).exec env w = (.ok l, w')) :
    w' = w ∧ l = w.store.objectsOf α now params := by
  have hlegible : w.store.Legible α now params := by
    intro key object m hget hm haccepts
    rw [exec_list_eq, list_eq_ok _ h, exec_bind_of_ok (exec_ofStore_ok _),
      exec_mapM_decode_eq_ok_iff] at heq
    obtain ⟨hmap, -⟩ := heq
    have hmem : object ∈ ((w.store.objects.entries.filter fun e ↦
        e.1.kind = Resource.kind α).filter (acceptsEntry params)).map (·.2) := by
      refine List.mem_map.2 ⟨(⟨Resource.kind α, key⟩, object), List.mem_filter.2 ⟨
        List.mem_filter.2 ⟨SortedMap.mem_entries_iff.2 hget, by simp⟩, ?_⟩, rfl⟩
      simpa [acceptsEntry, hm] using haccepts
    exact exists_of_mapM_eq_some hmap hmem
  rw [exec_list h hlegible] at heq
  cases heq
  exact ⟨rfl, rfl⟩

/-! ## Writing -/

theorem exec_create {a : α}
    (hscope : scopeDefect (Resource.kind α) (Resource.metadata a) = none)
    (hnone : w.store.objects.get? (Resource.ref a) = none) :
    (create now a).exec env w = (.ok (asNew env.ambient w.store a),
      w.withStore (w.store.recorded .added (asNew env.ambient w.store a)
        (w.store.issuedWith (Resource.metadata a)))) := by
  have hperform : (Request.create (Resource.kind α) (Resource.encode a)).perform env w =
      (.ok (Resource.encode (asNew env.ambient w.store a)),
        w.withStore (w.store.recorded .added (asNew env.ambient w.store a)
          (w.store.issuedWith (Resource.metadata a)))) := by
    simp only [Request.perform, World.onStore, create_encode hscope hnone, recorded,
      metadata_asNew]
    rfl
  unfold create
  rw [exec_bind_of_ok (exec_ask _), hperform]
  exact exec_decode (Resource.decode_encode _)

theorem admitted_of_defect {a : α} {defect : Defect}
    (hscope : scopeDefect (Resource.kind α) (Resource.metadata a) = some defect) :
    admitted (Resource.kind α) (Resource.encode a) =
      .error (.invalid (Resource.kind α) defect) := by
  unfold admitted
  rw [metaOf_encode]
  simp only [bind, Except.bind, hscope]

theorem exec_create_of_defect {a : α} {defect : Defect}
    (hscope : scopeDefect (Resource.kind α) (Resource.metadata a) = some defect) :
    (create now a).exec env w =
      (.error (StoreError.invalid (Resource.kind α) defect).toError, w) := by
  have hperform : (Request.create (Resource.kind α) (Resource.encode a)).perform env w =
      (.error (.invalid (Resource.kind α) defect), w) := by
    simp only [Request.perform, World.onStore, Store.create, admitted_of_defect hscope]
  unfold create
  rw [exec_bind_of_ok (exec_ask _), hperform]
  rfl

theorem exec_create_of_some {a : α} {object : Json}
    (hscope : scopeDefect (Resource.kind α) (Resource.metadata a) = none)
    (hget : w.store.objects.get? (Resource.ref a) = some object) :
    (create now a).exec env w =
      (.error (StoreError.alreadyExists (Resource.ref a)).toError, w) := by
  have hperform : (Request.create (Resource.kind α) (Resource.encode a)).perform env w =
      (.error (.alreadyExists (Resource.ref a)), w) := by
    have hget : w.store.objects.get? ⟨Resource.kind α, (Resource.metadata a).key⟩ = some object :=
      hget
    simp only [Request.perform, World.onStore, Store.create, admitted_encode hscope, hget]
    rfl
  unfold create
  rw [exec_bind_of_ok (exec_ask _), hperform]
  rfl

theorem exec_create_cases (env : Surroundings) (now : Timestamp) (a : α) (w : World) :
    (∃ e, (create now a).exec env w = (.error e, w)) ∨
    (scopeDefect (Resource.kind α) (Resource.metadata a) = none ∧
      w.store.objects.get? (Resource.ref a) = none ∧
      (create now a).exec env w = (.ok (asNew env.ambient w.store a),
        w.withStore (w.store.recorded .added (asNew env.ambient w.store a)
          (w.store.issuedWith (Resource.metadata a))))) := by
  rcases create_cases env.ambient (Resource.kind α) (Resource.encode a) w.store with
    ⟨e, he⟩ | ⟨m, hm, hnone, -⟩
  · refine .inl ⟨e.toError, ?_⟩
    unfold create
    rw [exec_bind_of_ok (exec_ask _)]
    simp only [Request.perform, World.onStore, he]
    rfl
  · obtain ⟨hmeta, hscope⟩ := admitted_eq_ok_iff.1 hm
    rw [metaOf_encode] at hmeta
    cases hmeta
    exact .inr ⟨hscope, hnone, exec_create hscope hnone⟩

theorem exec_update_of_perform {a : α} {c : ObjectMeta}
    (h : Store.update (Resource.kind α) (Resource.encode a) w.store =
      (.ok (Resource.encode (asUpdate w.store c a)),
        w.store.recorded .modified (asUpdate w.store c a) w.store.issued)) :
    (update now a).exec env w = (.ok (asUpdate w.store c a),
      w.withStore (w.store.recorded .modified (asUpdate w.store c a) w.store.issued)) := by
  unfold update
  rw [exec_bind_of_ok (exec_ask _)]
  simp only [Request.perform, World.onStore, h]
  exact exec_decode (Resource.decode_encode _)

omit [Resource.Lawful α] in
theorem exec_update_of_perform_error {a : α} {e : StoreError}
    (h : Store.update (Resource.kind α) (Resource.encode a) w.store = (.error e, w.store)) :
    (update now a).exec env w = (.error e.toError, w) := by
  unfold update
  rw [exec_bind_of_ok (exec_ask _)]
  simp only [Request.perform, World.onStore, h]
  rfl

theorem exec_update_of_defect {a : α} {defect : Defect}
    (hscope : scopeDefect (Resource.kind α) (Resource.metadata a) = some defect) :
    (update now a).exec env w =
      (.error (StoreError.invalid (Resource.kind α) defect).toError, w) := by
  refine exec_update_of_perform_error ?_
  simp only [Store.update, admitted_of_defect hscope]

theorem exec_update_of_none {a : α}
    (hscope : scopeDefect (Resource.kind α) (Resource.metadata a) = none)
    (hnone : w.store.objects.get? (Resource.ref a) = none) :
    (update now a).exec env w = (.error (StoreError.notFound (Resource.ref a)).toError, w) := by
  have hnone : w.store.objects.get? ⟨Resource.kind α, (Resource.metadata a).key⟩ = none := hnone
  refine exec_update_of_perform_error ?_
  simp only [Store.update, admitted_encode hscope, hnone]
  rfl

theorem exec_update_of_conflict {a : α} {current : Json} {c : ObjectMeta} {expected : String}
    (hscope : scopeDefect (Resource.kind α) (Resource.metadata a) = none)
    (hget : w.store.objects.get? (Resource.ref a) = some current)
    (hc : metaOf (Resource.kind α) current = .ok c)
    (hversion : (Resource.metadata a).resourceVersion.filter (· ≠ c.resourceVersion.getD "") =
      some expected) :
    (update now a).exec env w =
      (.error (StoreError.conflict (Resource.ref a) expected (c.resourceVersion.getD "")).toError, w) := by
  have hget : w.store.objects.get? ⟨Resource.kind α, (Resource.metadata a).key⟩ = some current := hget
  refine exec_update_of_perform_error ?_
  simp only [Store.update, admitted_encode hscope, hget, hc, hversion]
  rfl

theorem exec_update_of_current {a : α} {current : Json} {c : ObjectMeta}
    (hscope : scopeDefect (Resource.kind α) (Resource.metadata a) = none)
    (hget : w.store.objects.get? (Resource.ref a) = some current)
    (hc : metaOf (Resource.kind α) current = .ok c)
    (hversion : (Resource.metadata a).resourceVersion.filter (· ≠ c.resourceVersion.getD "") =
      none) :
    (update now a).exec env w = (.ok (asUpdate w.store c a),
      w.withStore (w.store.recorded .modified (asUpdate w.store c a) w.store.issued)) := by
  have hget : w.store.objects.get? ⟨Resource.kind α, (Resource.metadata a).key⟩ = some current := hget
  refine exec_update_of_perform ?_
  simp only [Store.update, admitted_encode hscope, hget, hc, hversion,
    refiled_eq_ok (metaOf_encode _ a), withMeta_encode, recorded, metadata_asUpdate]
  rfl

theorem exec_update {a : α} {current : Json} {c : ObjectMeta}
    (hscope : scopeDefect (Resource.kind α) (Resource.metadata a) = none)
    (hget : w.store.objects.get? (Resource.ref a) = some current)
    (hc : metaOf (Resource.kind α) current = .ok c)
    (hversion : (Resource.metadata a).resourceVersion = c.resourceVersion) :
    (update now a).exec env w = (.ok (asUpdate w.store c a),
      w.withStore (w.store.recorded .modified (asUpdate w.store c a) w.store.issued)) := by
  refine exec_update_of_perform ?_
  rw [update_encode hscope hget hc hversion, recorded, metadata_asUpdate]
  rfl

theorem exec_update_cases (env : Surroundings) (now : Timestamp) (a : α) (w : World) :
    (∃ e, (update now a).exec env w = (.error e, w)) ∨
    ∃ current c, w.store.objects.get? (Resource.ref a) = some current ∧
      metaOf (Resource.kind α) current = .ok c ∧
      scopeDefect (Resource.kind α) (Resource.metadata a) = none ∧
      (update now a).exec env w = (.ok (asUpdate w.store c a),
        w.withStore (w.store.recorded .modified (asUpdate w.store c a) w.store.issued)) := by
  rcases update_cases (Resource.kind α) (Resource.encode a) w.store with
    ⟨e, he⟩ | ⟨m, current, c, hm, hget, hc, -, heq⟩
  · refine .inl ⟨e.toError, ?_⟩
    unfold update
    rw [exec_bind_of_ok (exec_ask _)]
    simp only [Request.perform, World.onStore, he]
    rfl
  · obtain ⟨hmeta, hscope⟩ := admitted_eq_ok_iff.1 hm
    rw [metaOf_encode] at hmeta
    cases hmeta
    refine .inr ⟨current, c, hget, hc, hscope, exec_update_of_perform ?_⟩
    rw [heq, withMeta_encode, recorded, metadata_asUpdate]
    rfl

theorem exec_delete_of_eq {kind : Kind} {key : ObjectKey} {after : Store}
    (h : w.store.delete ⟨kind, key⟩ = (.ok (), after)) :
    (delete kind key).exec env w = (.ok (), w.withStore after) := by
  unfold delete
  rw [exec_bind_of_ok (exec_ask _)]
  simp only [Request.perform, World.onStore, h]
  rfl

theorem exec_delete_cases (env : Surroundings) (h : w.store.Coherent) (kind : Kind)
    (key : ObjectKey) :
    (w.store.objects.get? ⟨kind, key⟩ = none ∧
      (delete kind key).exec env w = (.error (StoreError.notFound ⟨kind, key⟩).toError, w)) ∨
    ∃ after, (delete kind key).exec env w = (.ok (), w.withStore after) ∧
      Swept w.store [⟨kind, key⟩] after := by
  rcases delete_spec h ⟨kind, key⟩ with ⟨hnone, heq⟩ | ⟨after, heq, hswept⟩
  · refine .inl ⟨hnone, ?_⟩
    unfold delete
    rw [exec_bind_of_ok (exec_ask _)]
    simp only [Request.perform, World.onStore, heq]
    rfl
  · exact .inr ⟨after, exec_delete_of_eq heq, hswept⟩

end Task

end TenantAccess
