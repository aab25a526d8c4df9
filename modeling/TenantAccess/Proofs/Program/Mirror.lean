import TenantAccess.Proofs.Store.Mirror

/-!
# Tasks that cannot tell stamps

Two tasks mirror each other if, run on stores that do, they come to the same result but for stamps, and
leave stores that mirror each other again.
-/

namespace TenantAccess

open Store Json

open Resource.Stamped (restamp)

structure World.Mirrored (μ : Mirror) (w w' : World) : Prop where
  store : w.store.Mirrored μ w'.store
  claims : w'.claims = w.claims

theorem Claims.publish_restamp (ρ : Restamping) (c : Claims) (tenants : List Tenant) :
    c.publish (tenants.map (restamp ρ)) = c.publish tenants := by
  simp only [Claims.publish, Claims.ofTenants, List.foldl_map]
  rfl

namespace Task

variable {α β γ δ : Type} {μ : Mirror} {f : α → β} {g : γ → δ}

/-- Whatever `t` comes to here, `t'` comes to the same there, but for what `f` changes. -/
def Mirrored (μ : Mirror) (f : α → β) (t : Task α) (t' : Task β) : Prop :=
  ∀ w w' : World, w.Mirrored μ w' → (t'.exec μ.there w').1 = (t.exec μ.here w).1.map f ∧
    World.Mirrored μ (t.exec μ.here w).2 (t'.exec μ.there w').2

theorem mirrored_pure (f : α → β) (a : α) : Mirrored μ f (pure a) (pure (f a)) :=
  fun _ _ h ↦ ⟨rfl, h⟩

theorem mirrored_throw (f : α → β) (e : Error) : Mirrored μ f (throw e) (throw e) :=
  fun _ _ h ↦ ⟨rfl, h⟩

theorem Mirrored.cases {t : Task α} {t' : Task β} (h : Mirrored μ f t t') {w w' : World}
    (hw : w.Mirrored μ w') :
    (∃ e v v', t.exec μ.here w = (.error e, v) ∧ t'.exec μ.there w' = (.error e, v') ∧
      v.Mirrored μ v') ∨
    ∃ a v v', t.exec μ.here w = (.ok a, v) ∧ t'.exec μ.there w' = (.ok (f a), v') ∧
      v.Mirrored μ v' := by
  obtain ⟨hresult, hworld⟩ := h w w' hw
  rcases hexec : t.exec μ.here w with ⟨e | a, v⟩ <;>
    rcases hexec' : t'.exec μ.there w' with ⟨result, v'⟩ <;>
    rw [hexec, hexec'] at hresult hworld <;> cases hresult
  · exact .inl ⟨e, v, v', rfl, rfl, hworld⟩
  · exact .inr ⟨a, v, v', rfl, rfl, hworld⟩

theorem Mirrored.bind {t : Task α} {t' : Task β} {k : α → Task γ} {k' : β → Task δ}
    (h : Mirrored μ f t t') (hk : ∀ a, Mirrored μ g (k a) (k' (f a))) :
    Mirrored μ g (t >>= k) (t' >>= k') := by
  intro w w' hw
  rcases h.cases hw with ⟨e, v, v', hexec, hexec', hv⟩ | ⟨a, v, v', hexec, hexec', hv⟩
  · rw [exec_bind_of_error hexec, exec_bind_of_error hexec']
    exact ⟨rfl, hv⟩
  · rw [exec_bind_of_ok hexec, exec_bind_of_ok hexec']
    exact hk a v v' hv

theorem Mirrored.map {t : Task α} {t' : Task β} (h : Mirrored μ f t t') {k : α → γ} {k' : β → δ}
    (hk : ∀ a, k' (f a) = g (k a)) : Mirrored μ g (k <$> t) (k' <$> t') := by
  rw [map_eq_pure_bind, map_eq_pure_bind]
  refine h.bind fun a ↦ ?_
  rw [hk]
  exact mirrored_pure g (k a)

theorem Mirrored.tryCatch {t : Task α} {t' : Task β} {handler : Error → Task α}
    {handler' : Error → Task β} (h : Mirrored μ f t t')
    (hhandler : ∀ e, Mirrored μ f (handler e) (handler' e)) :
    Mirrored μ f (tryCatch t handler) (tryCatch t' handler') := by
  intro w w' hw
  rw [exec_tryCatch, exec_tryCatch]
  rcases h.cases hw with ⟨e, v, v', hexec, hexec', hv⟩ | ⟨a, v, v', hexec, hexec', hv⟩
  · rw [hexec, hexec']
    exact hhandler e v v' hv
  · rw [hexec, hexec']
    exact ⟨rfl, hv⟩

theorem mirrored_review (action : ReviewAction) :
    Mirrored μ (id : Except Error AccessSet → _) (ask (.review action)) (ask (.review action)) := by
  intro w w' hw
  refine ⟨?_, hw.store, hw.claims⟩
  exact congrArg (fun reviewer : Reviewer ↦ Except.ok (reviewer action)) μ.reviewer_there

theorem mirrored_claims : Mirrored μ (id : Claims → Claims) (ask .claims) (ask .claims) :=
  fun _ _ hw ↦ ⟨congrArg Except.ok hw.claims, hw⟩

theorem mirrored_publish (tenants : List Tenant) :
    Mirrored μ (id : Claims → Claims) (ask (.publish tenants))
      (ask (.publish (tenants.map (restamp μ.toRestamping)))) := by
  intro w w' hw
  have hpublish : w'.claims.publish (tenants.map (restamp μ.toRestamping)) =
      w.claims.publish tenants := by
    rw [hw.claims, Claims.publish_restamp]
  exact ⟨congrArg Except.ok hpublish, hw.store, hpublish⟩

/-! ## Typed operations -/

section Typed

variable [Resource α] [Resource.Stamped α] [Resource.Stamped.Native α] {now now' : Timestamp}

theorem Native.exists_encode {s : Store} (h : s.Native) {key : ObjectKey} {object : Json}
    (hget : s.objects.get? ⟨Resource.kind α, key⟩ = some object) :
    ∃ a : α, object = Resource.encode a := by
  obtain ⟨o, rfl⟩ := h _ object hget
  exact Resource.Native.exists_native o

theorem mirrored_find? (key : ObjectKey) :
    Mirrored μ (Option.map (restamp (α := α) μ.toRestamping)) (find? now key) (find? now' key) := by
  intro w w' hw
  have hget' := hw.store.get?_eq ⟨Resource.kind α, key⟩
  cases hget : w.store.objects.get? ⟨Resource.kind α, key⟩ with
  | none =>
    rw [hget] at hget'
    rw [exec_find?_of_none hget, exec_find?_of_none hget']
    exact ⟨rfl, hw⟩
  | some object =>
    obtain ⟨a, rfl⟩ := Native.exists_encode (α := α) hw.store.native hget
    rw [hget, Option.map_some, μ.document_encode] at hget'
    rw [exec_find?_of_decode hget (Resource.decode_encode a),
      exec_find?_of_decode hget' (Resource.decode_encode _)]
    exact ⟨rfl, hw⟩

omit [Resource.Stamped α] [Resource.Stamped.Native α] in
theorem exists_eq_map_encode {l : List Json} (h : ∀ object ∈ l, ∃ a : α, object = Resource.encode a) :
    ∃ objects : List α, l = objects.map Resource.encode := by
  induction l with
  | nil => exact ⟨[], rfl⟩
  | cons object rest ih =>
    obtain ⟨a, rfl⟩ := h object List.mem_cons_self
    obtain ⟨objects, rfl⟩ := ih fun o ho ↦ h o (List.mem_cons_of_mem _ ho)
    exact ⟨a :: objects, rfl⟩

omit [Resource.Stamped.Native α] in
theorem exec_list_of_eq {env : Surroundings} {w : World} {params : ListParams} {l : List α}
    (h : w.store.list (Resource.kind α) params = .ok (l.map Resource.encode)) :
    (list now params).exec env w = (.ok l, w) := by
  rw [exec_list_eq, h, exec_bind_of_ok (exec_ofStore_ok _), exec_mapM_decode_eq_ok_iff]
  refine ⟨?_, rfl⟩
  clear h
  induction l with
  | nil => rfl
  | cons a rest ih =>
    rw [List.map_cons, List.mapM_cons, ih, Resource.decode_encode]
    rfl

theorem mirrored_list (params : ListParams) :
    Mirrored μ (List.map (restamp (α := α) μ.toRestamping)) (list now params) (list now' params) := by
  intro w w' hw
  have hlist := hw.store.native.list_eq (Resource.kind α) params
  have hlist' := hw.store.list_eq (Resource.kind α) params
  obtain ⟨l, hl⟩ := exists_eq_map_encode (α := α) (l := ((w.store.objects.entries.filter fun e ↦
      e.1.kind = Resource.kind α).filter (acceptsEntry params)).map (·.2)) fun object hobject ↦ by
    obtain ⟨⟨⟨kind, key⟩, object⟩, he, rfl⟩ := List.mem_map.1 hobject
    obtain ⟨hmem, hkind⟩ := List.mem_filter.1 (List.mem_filter.1 he).1
    obtain rfl : kind = Resource.kind α := by simpa using hkind
    exact Native.exists_encode hw.store.native (SortedMap.mem_entries_iff.1 hmem)
  rw [hl] at hlist
  have hmap : (l.map Resource.encode).map (μ.document (Resource.kind α)) =
      (l.map (restamp μ.toRestamping)).map Resource.encode := by
    rw [List.map_map, List.map_map]
    exact List.map_congr_left fun a _ ↦ μ.document_encode a
  rw [hlist, Except.map, hmap] at hlist'
  rw [exec_list_of_eq hlist, exec_list_of_eq hlist']
  exact ⟨rfl, hw⟩

omit [Resource.Stamped.Native α] in
theorem scopeDefect_restamp (ρ : Restamping) (a : α) :
    scopeDefect (Resource.kind α) (Resource.metadata (restamp ρ a)) =
      scopeDefect (Resource.kind α) (Resource.metadata a) := by
  rw [Resource.Stamped.metadata_restamp, ρ.scopeDefect_metadata]

theorem mirrored_create (a : α) :
    Mirrored μ (restamp μ.toRestamping) (create now a) (create now' (restamp μ.toRestamping a)) := by
  intro w w' hw
  have hscope' := scopeDefect_restamp μ.toRestamping a
  cases hscope : scopeDefect (Resource.kind α) (Resource.metadata a) with
  | some defect =>
    rw [exec_create_of_defect hscope, exec_create_of_defect (hscope'.trans hscope)]
    exact ⟨rfl, hw⟩
  | none =>
    have hscope' := hscope'.trans hscope
    have hget' := hw.store.get?_ref_restamp a
    cases hget : w.store.objects.get? (Resource.ref a) with
    | none =>
      rw [hget] at hget'
      rw [exec_create hscope hget, exec_create hscope' hget', hw.store.asNew_eq,
        Resource.Stamped.metadata_restamp, hw.store.issuedWith_eq]
      exact ⟨rfl, hw.store.recorded _ _ (le_issuedWith ..), hw.claims⟩
    | some object =>
      rw [hget] at hget'
      rw [exec_create_of_some hscope hget, exec_create_of_some hscope' hget', Mirrored.ref_restamp]
      exact ⟨rfl, hw⟩

theorem filter_version_restamp (ρ : Restamping) (v : Option String) (actual : String) :
    (v.map ρ.version).filter (· ≠ ρ.version actual) = (v.filter (· ≠ actual)).map ρ.version := by
  cases v with
  | none => rfl
  | some v =>
    rw [Option.map_some, Option.filter_some, Option.filter_some]
    have heq : decide (ρ.version v ≠ ρ.version actual) = decide (v ≠ actual) :=
      decide_eq_decide.2 (not_congr ρ.version_inj)
    rw [heq]
    split <;> rfl

theorem mirrored_update (a : α) :
    Mirrored μ (restamp μ.toRestamping) (update now a) (update now' (restamp μ.toRestamping a)) := by
  intro w w' hw
  have hscope' := scopeDefect_restamp μ.toRestamping a
  cases hscope : scopeDefect (Resource.kind α) (Resource.metadata a) with
  | some defect =>
    rw [exec_update_of_defect hscope, exec_update_of_defect (hscope'.trans hscope)]
    exact ⟨rfl, hw⟩
  | none =>
    have hscope' := hscope'.trans hscope
    have hget' := hw.store.get?_ref_restamp a
    cases hget : w.store.objects.get? (Resource.ref a) with
    | none =>
      rw [hget] at hget'
      rw [exec_update_of_none hscope hget, exec_update_of_none hscope' hget', Mirrored.ref_restamp]
      exact ⟨rfl, hw⟩
    | some current =>
      obtain ⟨b, rfl⟩ := Native.exists_encode (α := α) hw.store.native hget
      rw [hget, Option.map_some, μ.document_encode] at hget'
      have hc := metaOf_encode (Resource.kind α) b
      have hc' := metaOf_encode (Resource.kind α) (restamp μ.toRestamping b)
      rw [Resource.Stamped.metadata_restamp] at hc'
      -- an update that comes too late here comes too late there, and callers are not told the versions
      have hfilter := filter_version_restamp μ.toRestamping (Resource.metadata a).resourceVersion
        ((Resource.metadata b).resourceVersion.getD "")
      rw [← μ.getD_version_metadata] at hfilter
      cases hversion : (Resource.metadata a).resourceVersion.filter
          (· ≠ (Resource.metadata b).resourceVersion.getD "") with
      | some expected =>
        rw [hversion] at hfilter
        rw [exec_update_of_conflict hscope hget hc hversion,
          exec_update_of_conflict hscope' hget' hc'
            (by rw [Resource.Stamped.metadata_restamp]; exact hfilter),
          Mirrored.ref_restamp]
        exact ⟨rfl, hw⟩
      | none =>
        rw [hversion] at hfilter
        rw [exec_update_of_current hscope hget hc hversion,
          exec_update_of_current hscope' hget' hc'
            (by rw [Resource.Stamped.metadata_restamp]; exact hfilter),
          hw.store.asUpdate_eq, hw.store.issued]
        exact ⟨rfl, hw.store.recorded _ _ (Nat.le_refl _), hw.claims⟩

theorem mirrored_delete (kind : Kind) (key : ObjectKey) :
    Mirrored μ id (delete kind key) (delete kind key) := by
  intro w w' hw
  obtain ⟨hresult, hstore⟩ := hw.store.delete ⟨kind, key⟩
  unfold delete
  rw [exec_bind_of_ok (exec_ask _), exec_bind_of_ok (exec_ask _)]
  simp only [Request.perform, World.onStore, hresult]
  cases (w.store.delete ⟨kind, key⟩).1 <;> exact ⟨rfl, hstore, hw.claims⟩

end Typed

end Task

end TenantAccess
