import TenantAccess.Proofs.Rbac.Ownership
import TenantAccess.Proofs.Store.Calls

/-!
# The contract of ensuring an object

What is found under the key of a desired object, and who owns it, decides what becomes of it.  An
object that is missing is created for its owner, one that has drifted is corrected if it belongs to
the owner, and nothing else is written.  Asked again, ensuring finds nothing left to do.
-/

namespace TenantAccess

open Json Store

section Verdict

variable {α ω : Type} [Derived α] [Resource ω] {env : Surroundings} {now : Timestamp} {w : World}
  {s : Store} {desired observed : α} {owner : ω} {uid : String}

/-- What is stored under the key of `desired`, as it reads at `now`. -/
def Store.found (s : Store) (now : Timestamp) (desired : α) : Option α :=
  (s.objects.get? (Resource.ref desired)).bind (Resource.decode strict now)

def Store.Clear (s : Store) (now : Timestamp) (desired : α) : Prop :=
  ∀ object, s.objects.get? (Resource.ref desired) = some object →
    ∃ a : α, Resource.decode strict now object = some a

/-- What becomes of `desired` on behalf of `uid`, given what is found under its key. -/
def verdict (desired : α) (uid : String) : Option α → EnsureOutcome
  | none => .created
  | some observed =>
    if Derived.differs desired observed = false then .unchanged
    else if (Resource.metadata observed).isOwnedBy uid = false then .notOwned
    else .updated

def ensuredStore (env : Surroundings) (s : Store) (desired : α) (owner : ω) : Option α → Store
  | none => ensuredNew env s owner desired
  | some observed =>
    if verdict desired (Resource.metadata owner).uid (some observed) = .updated then
      ensuredOver s desired observed
    else s

theorem verdict_cases (desired observed : α) (uid : String) :
    (Derived.differs desired observed = false ∧
      verdict desired uid (some observed) = .unchanged) ∨
    (Derived.differs desired observed = true ∧ (Resource.metadata observed).isOwnedBy uid = false ∧
      verdict desired uid (some observed) = .notOwned) ∨
    (Derived.differs desired observed = true ∧ (Resource.metadata observed).isOwnedBy uid = true ∧
      verdict desired uid (some observed) = .updated) := by
  unfold verdict
  cases hdiffers : Derived.differs desired observed with
  | false => exact .inl ⟨rfl, if_pos hdiffers⟩
  | true =>
    cases howned : (Resource.metadata observed).isOwnedBy uid with
    | false => exact .inr (.inl ⟨rfl, rfl, by simp [hdiffers, howned]⟩)
    | true => exact .inr (.inr ⟨rfl, rfl, by simp [hdiffers, howned]⟩)

theorem verdict_eq_created_iff {found : Option α} :
    verdict desired uid found = .created ↔ found = none := by
  cases found with
  | none => exact iff_of_true rfl rfl
  | some observed =>
    obtain ⟨-, h⟩ | ⟨-, -, h⟩ | ⟨-, -, h⟩ := verdict_cases desired observed uid <;> simp [h]

theorem verdict_eq_unchanged_iff {found : Option α} : verdict desired uid found = .unchanged ↔
    ∃ a, found = some a ∧ Derived.differs desired a = false := by
  cases found with
  | none => simp [verdict]
  | some observed =>
    obtain ⟨hsame, h⟩ | ⟨hdiffers, -, h⟩ | ⟨hdiffers, -, h⟩ := verdict_cases desired observed uid
    · simp [h, hsame]
    · simp [h, hdiffers]
    · simp [h, hdiffers]

theorem verdict_eq_notOwned_iff {found : Option α} : verdict desired uid found = .notOwned ↔
    ∃ a, found = some a ∧ Derived.differs desired a = true ∧
      (Resource.metadata a).isOwnedBy uid = false := by
  cases found with
  | none => simp [verdict]
  | some observed =>
    obtain ⟨hsame, h⟩ | ⟨hdiffers, howned, h⟩ | ⟨hdiffers, howned, h⟩ :=
      verdict_cases desired observed uid
    · simp [h, hsame]
    · simp [h, hdiffers, howned]
    · simp [h, howned]

theorem verdict_eq_updated_iff {found : Option α} : verdict desired uid found = .updated ↔
    ∃ a, found = some a ∧ Derived.differs desired a = true ∧
      (Resource.metadata a).isOwnedBy uid = true := by
  cases found with
  | none => simp [verdict]
  | some observed =>
    obtain ⟨hsame, h⟩ | ⟨hdiffers, howned, h⟩ | ⟨hdiffers, howned, h⟩ :=
      verdict_cases desired observed uid
    · simp [h, hsame]
    · simp [h, howned]
    · simp [h, hdiffers, howned]

theorem ensuredStore_some (env : Surroundings) (s : Store) (desired observed : α) (owner : ω) :
    (verdict desired (Resource.metadata owner).uid (some observed) = .updated ∧
      ensuredStore env s desired owner (some observed) = ensuredOver s desired observed) ∨
    ((verdict desired (Resource.metadata owner).uid (some observed)).isWrite = false ∧
      ensuredStore env s desired owner (some observed) = s) := by
  obtain ⟨-, h⟩ | ⟨-, -, h⟩ | ⟨-, -, h⟩ :=
    verdict_cases desired observed (Resource.metadata owner).uid
  · exact .inr ⟨by rw [h]; rfl, by simp [ensuredStore, h]⟩
  · exact .inr ⟨by rw [h]; rfl, by simp [ensuredStore, h]⟩
  · exact .inl ⟨h, by simp [ensuredStore, h]⟩

theorem Store.found_eq_none (h : s.objects.get? (Resource.ref desired) = none) :
    s.found now desired = none := by
  rw [found, h, Option.bind_none]

theorem Store.found_eq_none_iff (hclear : s.Clear now desired) :
    s.found now desired = none ↔ s.objects.get? (Resource.ref desired) = none := by
  refine ⟨fun hfound ↦ ?_, found_eq_none⟩
  cases hget : s.objects.get? (Resource.ref desired) with
  | none => rfl
  | some object =>
    obtain ⟨a, ha⟩ := hclear object hget
    rw [found, hget, Option.bind_some, ha] at hfound
    cases hfound

variable [Derived.Lawful α]

theorem Store.found_eq_some_iff (h : s.Coherent) : s.found now desired = some observed ↔
    s.Has now observed ∧ Resource.key observed = Resource.key desired := by
  rw [found, Option.bind_eq_some_iff]
  constructor
  · rintro ⟨object, hget, hdecode⟩
    exact ⟨h.has_of_decode hget hdecode, h.key_of_decode hget hdecode⟩
  · rintro ⟨⟨object, hget, hdecode⟩, hkey⟩
    rw [Resource.ref, hkey] at hget
    exact ⟨object, hget, hdecode⟩

/-- Ensuring an object that has a valid place and passes the gate succeeds, and what it comes to is
decided by what is found. -/
theorem exec_ensure_found (env : Surroundings) (h : w.store.Coherent) (owner : ω)
    (hgate : gate desired = [])
    (hscope : scopeDefect (Resource.kind α) (Resource.metadata desired) = none)
    (hclear : w.store.Clear now desired) :
    (ensure now desired owner).exec env w =
      (.ok (verdict desired (Resource.metadata owner).uid (w.store.found now desired)),
        w.withStore (ensuredStore env w.store desired owner (w.store.found now desired))) := by
  cases hfound : w.store.found now desired with
  | none => exact exec_ensure_of_none owner hgate ((found_eq_none_iff hclear).1 hfound) hscope
  | some observed =>
    obtain ⟨hhas, hkey⟩ := (found_eq_some_iff h).1 hfound
    rw [exec_ensure_of_has env h owner hgate hhas hkey]
    obtain ⟨hsame, hverdict⟩ | ⟨hdiffers, howned, hverdict⟩ | ⟨hdiffers, howned, hverdict⟩ :=
      verdict_cases desired observed (Resource.metadata owner).uid
    · simp [ensuredStore, hverdict, hsame, World.withStore]
    · simp [ensuredStore, hverdict, hdiffers, howned, World.withStore]
    · simp [ensuredStore, hverdict, hdiffers, howned]

/-! ## What is found afterwards -/

theorem Store.found_recorded {type : EventType} {a : α} {issued : Nat}
    (hkey : Resource.key a = Resource.key desired) :
    (s.recorded type a issued).found now desired = some a := by
  have href : Resource.ref desired = Resource.ref a := congrArg (ObjectRef.mk _) hkey.symm
  rw [found, get?_recorded, if_pos href]
  exact Resource.decode_encode a

theorem coherent_ensuredStore (h : s.Coherent) (env : Surroundings) (now : Timestamp) (owner : ω)
    (hscope : scopeDefect (Resource.kind α) (Resource.metadata desired) = none) :
    (ensuredStore env s desired owner (s.found now desired)).Coherent := by
  cases hfound : s.found now desired with
  | none => exact h.create ((scopeDefect_ownedBy owner desired).trans hscope) _
  | some observed =>
    obtain ⟨-, hover⟩ | ⟨-, hsame⟩ := ensuredStore_some env s desired observed owner
    · obtain ⟨hhas, -⟩ := (found_eq_some_iff h).1 hfound
      rw [hover]
      refine h.update ?_ _
      rw [Derived.Lawful.metadata_apply]
      exact h.scopeDefect_of_has hhas
    · rwa [hsame]

theorem get?_ensuredStore (h : s.Coherent) (env : Surroundings) (owner : ω) {ref : ObjectRef}
    (href : ref ≠ Resource.ref desired) :
    (ensuredStore env s desired owner (s.found now desired)).objects.get? ref =
      s.objects.get? ref := by
  cases hfound : s.found now desired with
  | none =>
    rw [ensuredStore, ensuredNew, get?_recorded, Resource.ref, key_asEnsuredNew]
    exact if_neg href
  | some observed =>
    obtain ⟨-, hkey⟩ := (found_eq_some_iff h).1 hfound
    obtain ⟨-, hover⟩ | ⟨-, hsame⟩ := ensuredStore_some env s desired observed owner
    · rw [hover, ensuredOver, get?_recorded, Resource.ref, key_asEnsuredOver, hkey]
      exact if_neg href
    · rw [hsame]

omit [Derived.Lawful α] in
theorem writes_ensuredStore (env : Surroundings) (s : Store) (owner : ω) (found : Option α) :
    (ensuredStore env s desired owner found).writes =
      s.writes + if (verdict desired (Resource.metadata owner).uid found).isWrite then 1 else 0 := by
  cases found with
  | none => rfl
  | some observed =>
    obtain ⟨hupdated, hover⟩ | ⟨hidle, hsame⟩ := ensuredStore_some env s desired observed owner
    · rw [hover, hupdated]
      rfl
    · rw [hsame, hidle]
      rfl

omit [Derived.Lawful α] in
theorem ensuredStore_of_isWrite_eq_false {found : Option α}
    (h : (verdict desired (Resource.metadata owner).uid found).isWrite = false) :
    ensuredStore env s desired owner found = s := by
  cases found with
  | none => cases h
  | some observed =>
    obtain ⟨hupdated, -⟩ | ⟨-, hsame⟩ := ensuredStore_some env s desired observed owner
    · rw [hupdated] at h
      cases h
    · exact hsame

theorem found_ensuredStore_of_isWrite (h : s.Coherent) (env : Surroundings)
    (hwrite : (verdict desired (Resource.metadata owner).uid (s.found now desired)).isWrite) :
    ∃ a, (ensuredStore env s desired owner (s.found now desired)).found now desired = some a ∧
      Derived.differs desired a = false := by
  cases hfound : s.found now desired with
  | none =>
    exact ⟨_, found_recorded (key_asEnsuredNew ..), differs_asEnsuredNew ..⟩
  | some observed =>
    obtain ⟨-, hkey⟩ := (found_eq_some_iff h).1 hfound
    obtain ⟨-, hover⟩ | ⟨hidle, -⟩ := ensuredStore_some env s desired observed owner
    · rw [hover]
      exact ⟨_, found_recorded ((key_asEnsuredOver ..).trans hkey), differs_asEnsuredOver ..⟩
    · rw [hfound, hidle] at hwrite
      cases hwrite

theorem verdict_again (h : s.Coherent) (env : Surroundings) (now : Timestamp) (desired : α)
    (owner : ω) :
    let uid := (Resource.metadata owner).uid
    let after := ensuredStore env s desired owner (s.found now desired)
    verdict desired uid (after.found now desired) =
      if verdict desired uid (s.found now desired) = .notOwned then .notOwned else .unchanged := by
  intro uid after
  cases hwrite : (verdict desired uid (s.found now desired)).isWrite with
  | true =>
    obtain ⟨a, ha, hsame⟩ := found_ensuredStore_of_isWrite h env hwrite
    rw [if_neg (fun hforeign ↦ by rw [hforeign] at hwrite; cases hwrite)]
    exact verdict_eq_unchanged_iff.2 ⟨a, ha, hsame⟩
  | false =>
    have hidle : after = s := ensuredStore_of_isWrite_eq_false hwrite
    rw [hidle]
    cases hfound : s.found now desired with
    | none =>
      rw [hfound] at hwrite
      cases hwrite
    | some observed =>
      obtain ⟨-, hverdict⟩ | ⟨-, -, hverdict⟩ | ⟨-, -, hverdict⟩ :=
        verdict_cases desired observed uid
      · simp [hverdict]
      · simp [hverdict]
      · rw [hfound, hverdict] at hwrite
        cases hwrite

end Verdict

/-! ## The contract -/

section Contract

variable {α ω γ : Type} [Derived α] [Resource ω]

def Store.StoredFor (now : Timestamp) (s : Store) (desired a : α) : Prop :=
  s.Has now a ∧ Resource.key a = Resource.key desired

/-- What ensuring `desired` for `owner` comes to, where `content` is what a role or a binding says. -/
structure Ensured (content : α → γ) (now : Timestamp) (desired : α) (owner : ω) (before : Store)
    (outcome : EnsureOutcome) (after : Store) : Prop where
  created_iff : outcome = .created ↔ before.objects.get? (Resource.ref desired) = none
  unchanged_iff : outcome = .unchanged ↔
    ∃ a, before.StoredFor now desired a ∧ content a = content desired
  notOwned_iff : outcome = .notOwned ↔
    ∃ a, before.StoredFor now desired a ∧ content a ≠ content desired ∧
      ∀ r ∈ (Resource.metadata a).ownerReferences, r.uid ≠ (Resource.metadata owner).uid
  updated_iff : outcome = .updated ↔
    ∃ a, before.StoredFor now desired a ∧ content a ≠ content desired ∧
      ∃ r ∈ (Resource.metadata a).ownerReferences, r.uid = (Resource.metadata owner).uid
  /-- A new object has the owner as its only owner and controller. -/
  created : outcome = .created →
    ∃ a, after.Holds a ∧ Resource.key a = Resource.key desired ∧ content a = content desired ∧
      (Resource.metadata a).labels = (Resource.metadata desired).labels ∧
      (Resource.metadata a).ownerReferences = [OwnerReference.controllerOf owner]
  /-- A corrected object keeps its metadata but for the version. -/
  updated : outcome = .updated →
    ∃ a b, before.StoredFor now desired a ∧ after.Holds b ∧
      Resource.key b = Resource.key desired ∧ content b = content desired ∧
      Resource.metadata b =
        { Resource.metadata a with resourceVersion := (Resource.metadata b).resourceVersion }
  writes : after.writes = before.writes + if outcome.isWrite then 1 else 0
  idle : outcome.isWrite = false → after = before
  others : ∀ ref, ref ≠ Resource.ref desired → after.objects.get? ref = before.objects.get? ref

/-- Ensuring `desired` for `owner` succeeds and keeps the contract, and once more, at any time, it comes
to nothing new. -/
def KeepsContract (content : α → γ) (env : Surroundings) (now : Timestamp) (w : World) (desired : α)
    (owner : ω) : Prop :=
  ∃ outcome after, (ensure now desired owner).exec env w = (.ok outcome, w.withStore after) ∧
    Ensured content now desired owner w.store outcome after ∧
    ∀ (env' : Surroundings) (later : Timestamp),
      (ensure later desired owner).exec env' (w.withStore after) =
        (.ok (if outcome = .notOwned then .notOwned else .unchanged), w.withStore after)

variable [Derived.Lawful α] {env : Surroundings} {now : Timestamp} {s : Store} {content : α → γ}
  {desired : α} {owner : ω}

theorem isOwnedBy_eq_true_iff {m : ObjectMeta} {uid : String} (huid : uid ≠ "") :
    m.isOwnedBy uid = true ↔ ∃ r ∈ m.ownerReferences, r.uid = uid := by
  simp [ObjectMeta.isOwnedBy, huid]

theorem isOwnedBy_eq_false_iff {m : ObjectMeta} {uid : String} (huid : uid ≠ "") :
    m.isOwnedBy uid = false ↔ ∀ r ∈ m.ownerReferences, r.uid ≠ uid := by
  simp [ObjectMeta.isOwnedBy, huid]

theorem ensured_verdict (h : s.Coherent) (env : Surroundings)
    (hcontent : ∀ a : α, Derived.differs desired a = false ↔ content a = content desired)
    (huid : (Resource.metadata owner).uid ≠ "") (hclear : s.Clear now desired) :
    Ensured content now desired owner s
      (verdict desired (Resource.metadata owner).uid (s.found now desired))
      (ensuredStore env s desired owner (s.found now desired)) := by
  have hdiffers (a : α) : Derived.differs desired a = true ↔ content a ≠ content desired := by
    rw [← Bool.not_eq_false, Ne, hcontent]
  have hstored (a : α) : s.found now desired = some a ↔ s.StoredFor now desired a :=
    found_eq_some_iff h
  constructor
  case created_iff => rw [verdict_eq_created_iff, found_eq_none_iff hclear]
  case unchanged_iff => simp only [verdict_eq_unchanged_iff, hstored, hcontent]
  case notOwned_iff =>
    simp only [verdict_eq_notOwned_iff, hstored, hdiffers, isOwnedBy_eq_false_iff huid]
  case updated_iff =>
    simp only [verdict_eq_updated_iff, hstored, hdiffers, isOwnedBy_eq_true_iff huid]
  case created =>
    intro hcreated
    rw [verdict_eq_created_iff.1 hcreated]
    refine ⟨asEnsuredNew env s owner desired, ?_, key_asEnsuredNew .., ?_, ?_,
      ownerReferences_asEnsuredNew ..⟩
    · simp [Holds, ensuredStore, ensuredNew]
    · exact (hcontent _).1 (differs_asEnsuredNew ..)
    · rw [asEnsuredNew, metadata_asNew, metadata_ownedBy]
      rfl
  case updated =>
    intro hupdated
    obtain ⟨a, ha, -⟩ := verdict_eq_updated_iff.1 hupdated
    rw [ha] at hupdated ⊢
    have hkey := ((hstored a).1 ha).2
    refine ⟨a, asEnsuredOver s desired a, (hstored a).1 ha, ?_,
      (key_asEnsuredOver ..).trans hkey, (hcontent _).1 (differs_asEnsuredOver ..), ?_⟩
    · rw [ensuredStore, if_pos hupdated]
      simp [Holds, ensuredOver]
    · rw [metadata_asEnsuredOver]
      rfl
  case writes => exact writes_ensuredStore ..
  case idle => exact ensuredStore_of_isWrite_eq_false
  case others => exact fun ref href ↦ get?_ensuredStore h env owner href

theorem keepsContract {w : World} (h : w.store.Coherent) (env : Surroundings)
    (hcontent : ∀ a : α, Derived.differs desired a = false ↔ content a = content desired)
    (huid : (Resource.metadata owner).uid ≠ "") (hgate : gate desired = [])
    (hscope : scopeDefect (Resource.kind α) (Resource.metadata desired) = none)
    (hclear : w.store.Clear now desired)
    (htime : ∀ later, ensure later desired owner = ensure now desired owner) :
    KeepsContract content env now w desired owner := by
  refine ⟨_, _, exec_ensure_found env h owner hgate hscope hclear,
    ensured_verdict h env hcontent huid hclear, fun env' later ↦ ?_⟩
  have hagain := verdict_again h env now desired owner
  dsimp only at hagain
  have hcoherent := coherent_ensuredStore h env now owner hscope
  generalize ensuredStore env w.store desired owner (w.store.found now desired) = after at *
  have hclear' : after.Clear now desired := by
    intro object hget
    cases hfound : after.found now desired with
    | none =>
      rw [hfound] at hagain
      split at hagain <;> cases hagain
    | some a =>
      rw [found, hget] at hfound
      exact ⟨a, hfound⟩
  have hexec := exec_ensure_found (w := w.withStore after) env' hcoherent owner hgate hscope hclear'
  rw [World.store_withStore, hagain, ensuredStore_of_isWrite_eq_false] at hexec
  · rw [htime, hexec]
    rfl
  · rw [hagain]
    split <;> rfl

end Contract

theorem Role.differs_eq_false_iff {scope : Scope} {desired observed : Role scope} :
    Derived.differs desired observed = false ↔ observed.rules = desired.rules := by
  refine ⟨Role.rules_eq, fun h ↦ ?_⟩
  simp [Derived.differs, h]

theorem Binding.differs_eq_false_iff {scope : Scope} {desired observed : Binding scope} :
    Derived.differs desired observed = false ↔
      (observed.roleRef, observed.subjects) = (desired.roleRef, desired.subjects) := by
  rw [Prod.mk.injEq]
  refine ⟨Binding.content_eq, fun h ↦ ?_⟩
  simp [Derived.differs, h]

theorem Store.Coherent.uid_ne_empty {α : Type} [Resource α] [Resource.Lawful α] {s : Store}
    {now : Timestamp} {a : α} (h : s.Coherent) (hnamed : s.Named) (ha : s.Has now a) :
    (Resource.metadata a).uid ≠ "" := by
  obtain ⟨object, hget, hdecode⟩ := ha
  exact hnamed _ _ ⟨object, hget, h.metaOf_of_has hget hdecode⟩

/-- Whatever was asked of the store before, ensuring a role or a binding that has a valid place and
passes the gate, for an object that is stored, keeps its contract if what is stored under the key can
be read. -/
theorem ensure_contract (calls : List Call) (env : Surroundings) (now : Timestamp) (kind : Kind)
    {owner : kind.Object} {read : Timestamp} (howner : (World.after {} calls).store.Has read owner)
    (scope : Scope) :
    let w := World.after {} calls
    (∀ desired : Role scope, gate desired = [] →
      scopeDefect scope.roleKind desired.metadata = none → w.store.Clear now desired →
      KeepsContract Role.rules env now w desired owner) ∧
    ∀ desired : Binding scope, scopeDefect scope.bindingKind desired.metadata = none →
      w.store.Clear now desired →
      KeepsContract (fun b ↦ (b.roleRef, b.subjects)) env now w desired owner := by
  intro w
  have hregular : w.store.Regular := World.regular_after regular_empty calls
  have huid := hregular.coherent.uid_ne_empty hregular.named howner
  constructor
  · intro desired hgate hscope hclear
    exact keepsContract hregular.coherent env (fun _ ↦ Role.differs_eq_false_iff) huid hgate hscope
      hclear fun _ ↦ rfl
  · intro desired hscope hclear
    exact keepsContract hregular.coherent env (fun _ ↦ Binding.differs_eq_false_iff) huid rfl hscope
      hclear fun _ ↦ rfl

/-- The role of an inventory has drifted and is corrected, its binding is missing and is created. -/
theorem ensure_contract_of_inventory :
    let db : Inventory := { metadata := { ObjectMeta.namespaced "shop" "db" with uid := "db" } }
    let drifted : Role .namespaced := { ownedBy db db.viewerRole with rules := [] }
    let w := World.after {} [.creating db, .creating drifted]
    let owner := asNew quiet.ambient .empty db
    let binding := owner.viewerBinding (.new ["ann"] [])
    (∃ after, (ensure default owner.viewerRole owner).exec quiet w =
        (.ok .updated, w.withStore after)) ∧
      ∃ after, (ensure default binding owner).exec quiet w = (.ok .created, w.withStore after) := by
  intro db drifted w owner binding
  -- the store holds the inventory and the role, and nothing else
  have hdb : ((World.call {} (.creating db))).store = _ :=
    World.store_call_creating (by decide) rfl
  have hdrifted : w.store = _ := World.store_call_creating (w := World.call {} (.creating db))
    (a := drifted) (by decide) (by rw [hdb, get?_recorded]; decide)
  have howner : w.store.Holds owner := by
    rw [Holds, hdrifted, get?_recorded, if_neg (by decide), hdb, get?_recorded, if_pos (by decide)]
  have hrole : w.store.Holds (asNew quiet.ambient (World.call {} (.creating db)).store drifted) := by
    rw [Holds, hdrifted, get?_recorded, if_pos rfl]
  have hbinding : w.store.objects.get? (Resource.ref binding) = none := by
    rw [hdrifted, get?_recorded, if_neg (by decide), hdb, get?_recorded, if_neg (by decide)]
    rfl
  obtain ⟨hroles, hbindings⟩ := ensure_contract [.creating db, .creating drifted] quiet default
    .inventory (howner.has default) .namespaced
  constructor
  · have hfound : w.store.StoredFor default owner.viewerRole _ := ⟨hrole.has default, by decide⟩
    obtain ⟨outcome, after, hexec, hensured, -⟩ := hroles owner.viewerRole (by decide) (by decide)
      fun object hget ↦ ⟨_, by
        cases hget.symm.trans hrole
        exact Resource.decode_encode _⟩
    have hupdated : outcome = .updated := hensured.updated_iff.2 ⟨_, hfound, by decide,
      _, List.mem_cons_self, rfl⟩
    exact ⟨after, hupdated ▸ hexec⟩
  · obtain ⟨outcome, after, hexec, hensured, -⟩ := hbindings binding (by decide) fun object hget ↦ by
      cases hget.symm.trans hbinding
    exact ⟨after, hensured.created_iff.2 hbinding ▸ hexec⟩

end TenantAccess
