import TenantAccess.Proofs.Rbac.Pass

/-!
# What ensuring leaves behind if it succeeds

The store may hold anything.  Where ensuring succeeds, at most the object itself was written, and it
has the desired content if it belongs to the given owner.
-/

namespace TenantAccess

open Store

/-- `after` follows on `before`, with changes under `refs` alone. -/
structure Store.Onward (before : Store) (refs : List ObjectRef) (after : Store) : Prop where
  coherent : after.Coherent
  agrees : before.AgreesOff after refs
  log : ∃ news, after.log.toList = before.log.toList ++ news
  version : after = before ∨ before.version < after.version

theorem Store.onward_refl {s : Store} (h : s.Coherent) (refs : List ObjectRef) :
    s.Onward refs s where
  coherent := h
  agrees _ _ := rfl
  log := ⟨[], (List.append_nil _).symm⟩
  version := .inl rfl

theorem Store.Onward.trans {before middle after : Store} {refs refs' : List ObjectRef}
    (h : before.Onward refs middle) (h' : middle.Onward refs' after) :
    before.Onward (refs ++ refs') after where
  coherent := h'.coherent
  agrees := h.agrees.trans h'.agrees
  log := by
    obtain ⟨news, hlog⟩ := h.log
    obtain ⟨news', hlog'⟩ := h'.log
    exact ⟨news ++ news', by rw [hlog', hlog, List.append_assoc]⟩
  version := by
    rcases h.version with rfl | hlt
    · exact h'.version
    · rcases h'.version with rfl | hlt'
      · exact .inr hlt
      · exact .inr (Nat.lt_trans hlt hlt')

theorem Store.onward_recorded {α : Type} [Resource α] {s : Store} {type : EventType} {a : α}
    {issued : Nat} (h : (s.recorded type a issued).Coherent) :
    s.Onward [Resource.ref a] (s.recorded type a issued) where
  coherent := h
  agrees := agreesOff_recorded s type a issued
  log := ⟨_, by rw [log_recorded, Array.toList_push]⟩
  version := .inr (Nat.lt_succ_self _)

section Ensure

variable {α ω : Type} [Derived α] [Resource ω] {env : Surroundings} {now : Timestamp}
  {w w' : World} {desired : α} {owner : ω} {outcome : EnsureOutcome}

/-- The object under the key of `desired`, if `uid` owns it, has the desired content. -/
def Store.Follows (s : Store) (now : Timestamp) (uid : String) (desired : α) : Prop :=
  ∀ a : α, s.Has now a → Resource.key a = Resource.key desired →
    (Resource.metadata a).isOwnedBy uid → Derived.differs desired a = false

theorem Store.Follows.congr {before after : Store} {uid : String}
    (hfollows : before.Follows now uid desired)
    (h : after.objects.get? (Resource.ref desired) = before.objects.get? (Resource.ref desired)) :
    after.Follows now uid desired := by
  rintro a ⟨object, hget, hdecode⟩ hkey
  have href : Resource.ref a = Resource.ref desired := congrArg (ObjectRef.mk _) hkey
  rw [href, h, ← href] at hget
  exact hfollows a ⟨object, hget, hdecode⟩ hkey

variable [Derived.Lawful α]

theorem Store.follows_of_holds {s : Store} {a : α} (ha : s.Holds a)
    (hkey : Resource.key a = Resource.key desired) (hdiffers : Derived.differs desired a = false)
    (uid : String) : s.Follows now uid desired := by
  intro a' ha' hkey' _
  rwa [ha'.eq_of_key_eq (ha.has now) (hkey'.trans hkey.symm)]

theorem exec_ensure_eq_ok (h : w.store.Coherent)
    (hexec : (ensure now desired owner).exec env w = (.ok outcome, w')) :
    ∃ after, w' = w.withStore after ∧ w.store.Onward [Resource.ref desired] after ∧
      (gate desired = [] → after.Follows now (Resource.metadata owner).uid desired) := by
  by_cases hgate : gate desired = []
  · have hensure := hexec
    rw [ensure_eq now owner hgate, Task.exec_bind_eq_ok_iff] at hensure
    obtain ⟨o, w₁, hfind, hrest⟩ := hensure
    obtain ⟨rfl, ⟨rfl, hnone⟩ | ⟨observed, rfl, hhas, hkey⟩⟩ := Task.exec_find?_eq_ok h hfind
    · -- the creation succeeded, so the desired object has a valid place
      obtain ⟨created, w₂, hcreate, -⟩ := Task.exec_bind_eq_ok_iff.1 hrest
      have hscope : scopeDefect (Resource.kind α) (Resource.metadata desired) = none := by
        rcases Task.exec_create_cases env now (ownedBy owner desired) w₁ with
          ⟨e, he⟩ | ⟨hscope, -⟩
        · rw [he] at hcreate
          cases hcreate
        · rwa [scopeDefect_ownedBy] at hscope
      rw [exec_ensure_of_none owner hgate hnone hscope] at hexec
      cases hexec
      have hcoherent : (ensuredNew env w₁.store owner desired).Coherent := h.create
        ((scopeDefect_ownedBy owner desired).trans hscope)
        (w₁.store.issuedWith (Resource.metadata desired))
      have honward := onward_recorded hcoherent
      refine ⟨_, rfl, ?_, fun _ ↦ ?_⟩
      · rwa [Resource.ref, key_asEnsuredNew] at honward
      · exact follows_of_holds (a := asEnsuredNew env w₁.store owner desired)
          (by simp [Holds, ensuredNew]) (key_asEnsuredNew ..) (differs_asEnsuredNew ..) _
    · rw [exec_ensure_of_has env h owner hgate hhas hkey] at hexec
      split at hexec
      · next hdiffers =>
        -- what is found is as desired
        cases hexec
        refine ⟨_, rfl, onward_refl h _, fun _ a ha hakey _ ↦ ?_⟩
        rwa [ha.eq_of_key_eq hhas (hakey.trans hkey.symm)]
      · split at hexec
        · next howned =>
          -- what is found is a stranger's, so nothing is promised of it
          cases hexec
          refine ⟨_, rfl, onward_refl h _, fun _ a ha hakey haowned ↦ ?_⟩
          rw [ha.eq_of_key_eq hhas (hakey.trans hkey.symm), howned] at haowned
          cases haowned
        · cases hexec
          have hscope : scopeDefect (Resource.kind α)
              (Resource.metadata (Derived.apply desired observed)) = none := by
            rw [Derived.Lawful.metadata_apply]
            exact h.scopeDefect_of_has hhas
          have honward := onward_recorded (h.update (c := Resource.metadata observed) hscope
            w₁.store.issued)
          refine ⟨_, rfl, ?_, fun _ ↦ ?_⟩
          · rwa [Resource.ref, ← asEnsuredOver, key_asEnsuredOver, hkey] at honward
          · exact follows_of_holds (a := asEnsuredOver w₁.store desired observed)
              (by simp [Holds, ensuredOver]) ((key_asEnsuredOver ..).trans hkey)
              (differs_asEnsuredOver ..) _
  · unfold ensure at hexec
    rw [if_pos hgate] at hexec
    cases hexec
    exact ⟨w.store, rfl, onward_refl h _, fun hnil ↦ absurd hnil hgate⟩

end Ensure

section Pairs

open TenantAccess.Derivation

variable {α β ω : Type} [Derived α] [Derived.Lawful α] [Derived β] [Derived.Lawful β]
  [Resource ω] {role : ω → α} {binding : ω → β} {env : Surroundings} {now : Timestamp}

@[simp] theorem PassSummary.released_record (s : PassSummary) (o : EnsureOutcome) :
    (s.record o).released = s.released := by
  cases o <;> rfl

/-- Ensuring roles and bindings one after the other writes nothing else, and leaves every binding in
line if no two of them are one. -/
theorem exec_ensurePairs_eq_ok (hkinds : Resource.kind α ≠ Resource.kind β)
    (hgate : ∀ o, gate (binding o) = []) (l : List ω) {w w' : World}
    {summary summary' : PassSummary} (h : w.store.Coherent)
    (hexec : (ensurePairs now role binding l summary).exec env w = (.ok summary', w')) :
    ∃ after, w' = w.withStore after ∧ w.store.Onward (l.flatMap (pairRefs role binding)) after ∧
      summary'.released = summary.released ∧
      (l.Pairwise (fun o o' ↦ Resource.key (binding o) ≠ Resource.key (binding o')) →
        ∀ o ∈ l, after.Follows now (Resource.metadata o).uid (binding o)) := by
  induction l generalizing w summary with
  | nil =>
    cases hexec
    exact ⟨_, rfl, onward_refl h _, rfl, fun _ _ hmem ↦ by simp at hmem⟩
  | cons o rest ih =>
    obtain ⟨r, w₁, hexec₁, hexec⟩ := Task.exec_bind_eq_ok_iff.1 hexec
    obtain ⟨b, w₂, hexec₂, hexec⟩ := Task.exec_bind_eq_ok_iff.1 hexec
    obtain ⟨s₁, rfl, honward₁, -⟩ := exec_ensure_eq_ok h hexec₁
    obtain ⟨s₂, rfl, honward₂, hfollows⟩ :=
      exec_ensure_eq_ok (w := w.withStore s₁) honward₁.coherent hexec₂
    obtain ⟨after, rfl, honward, hreleased, hall⟩ :=
      ih (w := (w.withStore s₁).withStore s₂) honward₂.coherent hexec
    refine ⟨after, rfl, (honward₁.trans honward₂).trans honward, by simpa using hreleased,
      fun hdistinct o' ho' ↦ ?_⟩
    obtain ⟨hhead, htail⟩ := List.pairwise_cons.1 hdistinct
    rcases List.mem_cons.1 ho' with rfl | ho'
    · -- what follows writes roles, and bindings under other keys
      refine (hfollows (hgate _)).congr (honward.agrees _ fun hmem ↦ ?_)
      obtain ⟨o'', ho'', hmem⟩ := List.mem_flatMap.1 hmem
      rcases List.mem_cons.1 hmem with heq | hmem
      · exact hkinds (congrArg ObjectRef.kind heq).symm
      · exact hhead o'' ho'' (congrArg ObjectRef.key (List.mem_singleton.1 hmem))
    · exact hall htail o' ho'

end Pairs

end TenantAccess
