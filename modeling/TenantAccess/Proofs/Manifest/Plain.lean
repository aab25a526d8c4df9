import TenantAccess.Proofs.Controller.Claims
import TenantAccess.Proofs.Manifest.Planted
import TenantAccess.Proofs.Program.Mirror
import TenantAccess.Proofs.Store.Ledger

/-!
# Seeded stores in plain stamps

The stamps of a seeded store, written plainly, tell which objects share an identity and nothing of the
order in which the objects were created.  So stores that are seeded with the same objects in any two
orders are the same but for stamps.
-/

namespace TenantAccess

open Store

open Resource.Stamped (restamp)

theorem SortedMap.keys_eq {α β γ : Type} [Ord α] [Std.TransOrd α] [Std.LawfulEqOrd α]
    {m : SortedMap α β} {n : SortedMap α γ} (h : ∀ k, k ∈ m.keys ↔ k ∈ n.keys) :
    m.keys = n.keys := by
  have hsorted {δ : Type} (m : SortedMap α δ) : m.keys.Pairwise fun a b ↦ compare a b = .lt :=
    List.pairwise_map.2 m.sorted
  refine ((List.perm_ext_iff_of_nodup m.nodup_keys n.nodup_keys).2 h).eq_of_pairwise ?_
    (hsorted m) (hsorted n)
  intro a b _ _ hlt hgt
  rw [Std.OrientedCmp.gt_iff_lt.2 hgt] at hlt
  cases hlt

/-- The identities that are drawn never repeat, and are not those of the objects in a list or of their
owners. -/
structure Ambient.Fresh (env : Ambient) (l : List Item) : Prop where
  injective : ∀ n n', env.uid n = env.uid n' → n = n'
  ne_empty : ∀ n, env.uid n ≠ ""
  apart : ∀ o ∈ l, ∀ n, env.uid n ≠ o.metadata.uid
  owners_apart : ∀ o ∈ l, ∀ r ∈ o.metadata.ownerReferences, ∀ n, env.uid n ≠ r.uid

theorem Ambient.Fresh.perm {env : Ambient} {l l' : List Item} (h : env.Fresh l)
    (hperm : l.Perm l') : env.Fresh l' where
  injective := h.injective
  ne_empty := h.ne_empty
  apart o ho := h.apart o (hperm.mem_iff.2 ho)
  owners_apart o ho := h.owners_apart o (hperm.mem_iff.2 ho)

namespace Store

/-! ## Stamps by place -/

def metaAt? (s : Store) (ref : ObjectRef) : Option ObjectMeta :=
  (s.objects.get? ref).bind fun object ↦ (metaOf ref.kind object).toOption

def uids (env : Ambient) (s : Store) : Ledger where
  places := s.objects.keys
  held ref := ((s.metaAt? ref).map (·.uid)).getD ""
  issue := env.uid
  next := s.issued

def versions (s : Store) : Ledger where
  places := s.objects.keys
  held ref := ((s.metaAt? ref).bind (·.resourceVersion)).getD ""
  issue n := toString n
  next := s.version + 1

/-- The stamps of a store in plain writing, with all times the same. -/
noncomputable def plainly (env : Ambient) (s : Store) : Restamping where
  uid := (s.uids env).rewrite
  version := s.versions.rewrite
  time _ := default
  uid_injective _ _ := (s.uids env).rewrite_injective
  version_injective _ _ := s.versions.rewrite_injective
  uid_empty := (s.uids env).rewrite_blank
  version_empty := s.versions.rewrite_blank

variable {env : Ambient} {l : List Item} {s : Store} {stage : ObjectRef → Store}

namespace Staged

variable {o o' : Item}

theorem mem_keys_iff (h : Staged env l {} s stage) {ref : ObjectRef} :
    ref ∈ s.objects.keys ↔ ∃ o ∈ l, ref = o.ref := by
  rw [SortedMap.mem_keys_iff]
  constructor
  · rintro ⟨object, hget⟩
    exact (h.only ref object hget).resolve_right nofun
  · rintro ⟨o, ho, rfl⟩
    exact ⟨_, h.get? o ho⟩

theorem metaAt?_eq (h : Staged env l {} s stage) (ho : o ∈ l) :
    s.metaAt? o.ref = some (stampNew env (stage o.ref) o.metadata) := by
  rw [metaAt?, h.get? o ho, Option.bind_some, metaOf_encode, metadata_asNew]
  rfl

theorem held_uids (h : Staged env l {} s stage) (ho : o ∈ l) : (s.uids env).held o.ref =
    if o.metadata.uid = "" then env.uid (stage o.ref).issued else o.metadata.uid := by
  simp only [uids, h.metaAt?_eq ho]
  rfl

theorem held_versions (h : Staged env l {} s stage) (ho : o ∈ l) :
    s.versions.held o.ref = toString ((stage o.ref).version + 1) := by
  simp only [versions, h.metaAt?_eq ho]
  rfl

theorem ref_eq_of_version_eq (h : Staged env l {} s stage) (ho : o ∈ l) (ho' : o' ∈ l)
    (heq : (stage o.ref).version = (stage o'.ref).version) : o.ref = o'.ref := by
  refine Classical.byContradiction fun hne ↦ ?_
  rcases h.apart o ho o' ho' hne with hbehind | hbehind <;>
    · have hlt := hbehind.version
      rw [version_plant] at hlt
      omega

/-- Two objects have the same identity only if they are the same or brought it along. -/
theorem held_uids_eq_iff (h : Staged env l {} s stage) (hfresh : env.Fresh l) (ho : o ∈ l)
    (ho' : o' ∈ l) : (s.uids env).held o'.ref = (s.uids env).held o.ref ↔
      o'.ref = o.ref ∨ (o'.metadata.uid = o.metadata.uid ∧ o.metadata.uid ≠ "") := by
  constructor
  · rw [h.held_uids ho, h.held_uids ho']
    intro heq
    split at heq <;> split at heq
    · next hempty' hempty =>
      -- both were left to the store, which gave out one before it created the other
      refine .inl (Classical.byContradiction fun hne ↦ ?_)
      have hissued := hfresh.injective _ _ heq
      rcases h.apart o' ho' o ho hne with hbehind | hbehind
      · have hlt := hbehind.issued
        rw [issued_plant_of_uid_eq_empty hempty'] at hlt
        omega
      · have hlt := hbehind.issued
        rw [issued_plant_of_uid_eq_empty hempty] at hlt
        omega
    · exact absurd heq (hfresh.apart o ho _)
    · exact absurd heq.symm (hfresh.apart o' ho' _)
    · next hempty => exact .inr ⟨heq, hempty⟩
  · rintro (href | ⟨huid, hne⟩)
    · rw [href]
    · rw [h.held_uids ho, h.held_uids ho', huid, if_neg hne, if_neg hne]

theorem held_uids_ne_empty (h : Staged env l {} s stage) (hfresh : env.Fresh l) (ho : o ∈ l) :
    (s.uids env).held o.ref ≠ "" := by
  rw [h.held_uids ho]
  split
  · exact hfresh.ne_empty _
  · assumption

theorem held_versions_ne_empty (h : Staged env l {} s stage) (ho : o ∈ l) :
    s.versions.held o.ref ≠ "" := by
  rw [h.held_versions ho]
  exact Stamp.toString_ne_empty _

theorem held_versions_eq_iff (h : Staged env l {} s stage) (ho : o ∈ l) (ho' : o' ∈ l) :
    s.versions.held o'.ref = s.versions.held o.ref ↔ o'.ref = o.ref := by
  refine ⟨fun heq ↦ ?_, fun href ↦ by rw [href]⟩
  rw [h.held_versions ho, h.held_versions ho'] at heq
  exact h.ref_eq_of_version_eq ho' ho (Nat.succ.inj (toString_nat_injective heq))

theorem held_uids_eq_iff_of_apart (h : Staged env l {} s stage) (ho : o ∈ l)
    {uid : String} (huid : ∀ n, env.uid n ≠ uid) :
    (s.uids env).held o.ref = uid ↔ o.metadata.uid = uid ∧ uid ≠ "" := by
  rw [h.held_uids ho]
  split
  · next hempty =>
    refine ⟨fun heq ↦ absurd heq (huid _), fun ⟨heq, hne⟩ ↦ ?_⟩
    exact absurd (heq.symm.trans hempty) hne
  · next hne => exact ⟨fun heq ↦ ⟨heq, heq ▸ hne⟩, fun ⟨heq, _⟩ ↦ heq⟩

end Staged

/-! ## Two orders -/

section Perm

variable {env' : Ambient} {l' : List Item} {s' : Store} {stage' : ObjectRef → Store} {o : Item}

variable (h : Staged env l {} s stage) (h' : Staged env' l' {} s' stage') (hperm : l.Perm l')

include h h' hperm

theorem keys_eq_of_perm : s'.objects.keys = s.objects.keys := by
  refine SortedMap.keys_eq fun ref ↦ ?_
  rw [h.mem_keys_iff, h'.mem_keys_iff]
  exact exists_congr fun o ↦ and_congr_left' hperm.mem_iff.symm

theorem rewrite_held_versions (ho : o ∈ l) :
    s'.versions.rewrite (s'.versions.held o.ref) = s.versions.rewrite (s.versions.held o.ref) := by
  have ho' : o ∈ l' := hperm.mem_iff.1 ho
  refine Ledger.rewrite_congr _ (keys_eq_of_perm h h' hperm) ?_ (fun ref href ↦ ?_) fun hout ↦ ?_
  · exact iff_of_false (h'.held_versions_ne_empty ho') (h.held_versions_ne_empty ho)
  · obtain ⟨o', hmem, rfl⟩ := h.mem_keys_iff.1 href
    rw [h.held_versions_eq_iff ho hmem, h'.held_versions_eq_iff ho' (hperm.mem_iff.1 hmem)]
  · exact absurd rfl (hout _ (h.mem_keys_iff.2 ⟨o, ho, rfl⟩))

variable (hfresh : env.Fresh l) (hfresh' : env'.Fresh l')

include hfresh hfresh'

theorem rewrite_held_uids (ho : o ∈ l) :
    (s'.uids env').rewrite ((s'.uids env').held o.ref) =
      (s.uids env).rewrite ((s.uids env).held o.ref) := by
  have ho' : o ∈ l' := hperm.mem_iff.1 ho
  refine Ledger.rewrite_congr _ (keys_eq_of_perm h h' hperm) ?_ (fun ref href ↦ ?_) fun hout ↦ ?_
  · exact iff_of_false (h'.held_uids_ne_empty hfresh' ho') (h.held_uids_ne_empty hfresh ho)
  · obtain ⟨o', hmem, rfl⟩ := h.mem_keys_iff.1 href
    rw [h.held_uids_eq_iff hfresh ho hmem,
      h'.held_uids_eq_iff hfresh' ho' (hperm.mem_iff.1 hmem)]
  · exact absurd rfl (hout _ (h.mem_keys_iff.2 ⟨o, ho, rfl⟩))

theorem rewrite_owner (ho : o ∈ l) {r : OwnerReference} (hr : r ∈ o.metadata.ownerReferences) :
    (s'.uids env').rewrite r.uid = (s.uids env).rewrite r.uid := by
  have happart := hfresh.owners_apart o ho r hr
  have happart' := hfresh'.owners_apart o (hperm.mem_iff.1 ho) r hr
  refine Ledger.rewrite_congr _ (keys_eq_of_perm h h' hperm) Iff.rfl (fun ref href ↦ ?_) fun _ ↦
    ⟨rfl, happart, happart'⟩
  obtain ⟨o', hmem, rfl⟩ := h.mem_keys_iff.1 href
  rw [h.held_uids_eq_iff_of_apart hmem happart,
    h'.held_uids_eq_iff_of_apart (hperm.mem_iff.1 hmem) happart']

theorem plainly_metadata (ho : o ∈ l) :
    (s'.plainly env').metadata (stampNew env' (stage' o.ref) o.metadata) =
      (s.plainly env).metadata (stampNew env (stage o.ref) o.metadata) := by
  -- the stamps in the metadata are just those that the ledgers hold at the place
  have huid := rewrite_held_uids h h' hperm hfresh hfresh' ho
  have hversion := rewrite_held_versions h h' hperm ho
  rw [h.held_uids ho, h'.held_uids (hperm.mem_iff.1 ho)] at huid
  rw [h.held_versions ho, h'.held_versions (hperm.mem_iff.1 ho)] at hversion
  have howners : o.metadata.ownerReferences.map (s'.plainly env').owner =
      o.metadata.ownerReferences.map (s.plainly env).owner :=
    List.map_congr_left fun r hr ↦ by
      have howner := rewrite_owner h h' hperm hfresh hfresh' ho hr
      simp only [Restamping.owner, plainly, howner]
  simp only [Restamping.metadata, stampNew, howners]
  simp only [plainly, huid, hversion, Option.map_some]

omit h h' hperm hfresh hfresh' in
theorem restamp_asNew {α : Type} [Resource α] [Resource.Stamped α] {ρ ρ' : Restamping} {s₀ s₁ : Store}
    {a : α} (htime : ρ'.time = ρ.time) (hmeta : ρ'.metadata (stampNew env' s₁ (Resource.metadata a)) =
      ρ.metadata (stampNew env s₀ (Resource.metadata a))) :
    restamp ρ' (asNew env' s₁ a) = restamp ρ (asNew env s₀ a) := by
  rw [asNew, asNew, Resource.Stamped.restamp_withMeta, Resource.Stamped.restamp_withMeta, hmeta,
    Resource.Stamped.withMeta_restamp ρ ρ' htime]

theorem plainly_file :
    (s'.plainly env').file s'.objects = (s.plainly env).file s.objects := by
  refine SortedMap.ext_get? fun ref ↦ ?_
  rw [Restamping.get?_file, Restamping.get?_file]
  by_cases hmem : ∃ o ∈ l, ref = o.ref
  · obtain ⟨o, ho, rfl⟩ := hmem
    have hmeta := plainly_metadata h h' hperm hfresh hfresh' ho
    rw [h.get? o ho, h'.get? o (hperm.mem_iff.1 ho), Option.map_some, Option.map_some]
    refine congrArg some ?_
    change (s'.plainly env').document (Resource.kind o.1.Object) _ =
      (s.plainly env).document (Resource.kind o.1.Object) _
    rw [Restamping.document_encode, Restamping.document_encode]
    exact congrArg Resource.encode (restamp_asNew rfl hmeta)
  · have hnone : s.objects.get? ref = none := by
      refine Option.eq_none_iff_forall_ne_some.2 fun object hget ↦ hmem ?_
      exact h.mem_keys_iff.1 (SortedMap.mem_keys_iff.2 ⟨object, hget⟩)
    have hnone' : s'.objects.get? ref = none := by
      refine Option.eq_none_iff_forall_ne_some.2 fun object hget ↦ hmem ?_
      obtain ⟨o, ho, rfl⟩ := h'.mem_keys_iff.1 (SortedMap.mem_keys_iff.2 ⟨object, hget⟩)
      exact ⟨o, hperm.mem_iff.2 ho, rfl⟩
    rw [hnone, hnone']
    rfl

end Perm

/-! ## The plain store -/

theorem Staged.held_uids_ne (h : Staged env l {} s stage) (hfresh : env.Fresh l) {o : Item} (ho : o ∈ l)
    {n : Nat} (hn : s.issued ≤ n) : (s.uids env).held o.ref ≠ env.uid n := by
  rw [h.held_uids ho]
  split
  · next hempty =>
    intro heq
    have hissued := hfresh.injective _ _ heq
    have hends := (h.ends o ho).issued
    rw [issued_plant_of_uid_eq_empty hempty] at hends
    omega
  · exact (hfresh.apart o ho n).symm

theorem Staged.held_versions_ne (h : Staged env l {} s stage) {o : Item} (ho : o ∈ l) {n : Nat}
    (hn : s.version < n) : s.versions.held o.ref ≠ toString n := by
  rw [h.held_versions ho]
  intro heq
  have hversion := toString_nat_injective heq
  have hends := (h.ends o ho).version
  rw [version_plant] at hends
  omega

theorem Planted.native (h : Planted env l {} s) : s.Native := by
  intro ref object hget
  obtain ⟨stage, hstage⟩ := h.exists_staged
  obtain ⟨o, ho, rfl⟩ := hstage.mem_keys_iff.1 (SortedMap.mem_keys_iff.2 ⟨object, hget⟩)
  rw [hstage.get? o ho] at hget
  cases hget
  exact Resource.Native.exists_object (asNew env (stage o.ref) o.2)

end Store

def Ambient.plain : Ambient := ⟨default, fun n ↦ toString n⟩

noncomputable def Mirror.plain {env : Ambient} {l : List Item} {s : Store}
    (h : Planted env l {} s) (hfresh : env.Fresh l) (reviewer : Reviewer) : Mirror where
  toRestamping := s.plainly env
  here := ⟨env, reviewer⟩
  there := ⟨.plain, reviewer⟩
  issuedFrom := s.issued
  versionFrom := s.version
  logFrom := s.log.size
  now_there := rfl
  uid_there n hn := by
    obtain ⟨stage, hstage⟩ := h.exists_staged
    refine ((s.uids env).rewrite_issue hn hfresh.injective (hfresh.ne_empty n) fun ref href ↦ ?_).symm
    obtain ⟨o, ho, rfl⟩ := hstage.mem_keys_iff.1 href
    exact hstage.held_uids_ne hfresh ho hn
  version_later n hn := by
    obtain ⟨stage, hstage⟩ := h.exists_staged
    refine s.versions.rewrite_issue hn (fun _ _ ↦ toString_nat_injective)
      (Stamp.toString_ne_empty n) fun ref href ↦ ?_
    obtain ⟨o, ho, rfl⟩ := hstage.mem_keys_iff.1 href
    exact hstage.held_versions_ne ho hn
  reviewer_there := rfl

noncomputable def World.plain (env : Ambient) (w : World) : World :=
  w.withStore { w.store with objects := (w.store.plainly env).file w.store.objects }

/-- Whatever the order in which a store was seeded, in plain stamps it is the same. -/
theorem World.mirrored_plain {env env' : Ambient} {l l' : List Item} {w w' : World}
    (h : Planted env l {} w.store) (h' : Planted env' l' {} w'.store) (hclaims : w'.claims = w.claims)
    (hperm : l.Perm l') (hfresh : env.Fresh l) (hfresh' : env'.Fresh l') (reviewer : Reviewer) :
    w'.Mirrored (.plain h' hfresh' reviewer) (w.plain env) where
  claims := hclaims.symm
  store :=
    { objects := by
        obtain ⟨stage, hstage⟩ := h.exists_staged
        obtain ⟨stage', hstage'⟩ := h'.exists_staged
        exact (plainly_file hstage hstage' hperm hfresh hfresh').symm
      native := h'.native
      version := by
        change w.store.version = _
        rw [h.counted.version, h'.counted.version, hperm.length_eq]
      writes := by
        change w.store.writes = _
        rw [h.counted.writes, h'.counted.writes, hperm.length_eq]
      issued := by
        change w.store.issued = _
        rw [h.counted.issued, h'.counted.issued, hperm.countP_eq]
      versionFrom := Nat.le_refl _
      issuedFrom := Nat.le_refl _
      log := by
        have hsize : w.store.log.size = w'.store.log.size := by
          rw [h.counted.log, h'.counted.log, hperm.length_eq]
        -- nothing has been told since
        have hnone (log : Array Event) (hlog : log.size = w'.store.log.size) :
            log.toList.drop w'.store.log.size = [] :=
          List.drop_eq_nil_of_le (Nat.le_of_eq hlog)
        refine ⟨hsize, Nat.le_refl _, fun claims ↦ ?_⟩
        exact congrArg (List.map _) ((hnone _ hsize).trans (hnone _ rfl).symm) }

end TenantAccess
