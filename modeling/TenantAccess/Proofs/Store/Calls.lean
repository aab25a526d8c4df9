import TenantAccess.Proofs.Store.Effect
import TenantAccess.Proofs.Store.Identity

/-!
# Runs of calls

Anybody may ask a store anything, one request after the other.  Whatever comes of it, every document
stays where it belongs, and no two of them share a version.
-/

namespace TenantAccess

/-- A request at its time.  A store never gives out the empty identity. -/
structure Call where
  env : Surroundings
  request : Request
  uid_ne_empty : ∀ n, env.ambient.uid n ≠ ""

namespace World

def call (w : World) (c : Call) : World := (c.request.perform c.env w).2

def after (w : World) (calls : List Call) : World := calls.foldl call w

theorem after_append (w : World) (calls more : List Call) :
    w.after (calls ++ more) = (w.after calls).after more :=
  List.foldl_append

end World

namespace Store

variable {s after : Store} {env : Ambient} {type : EventType} {kind : Kind} {object : Json}
  {m : ObjectMeta} {issued : Nat} {work : List ObjectRef}

/-! ## Versions -/

def Versioned (s : Store) : Prop :=
  ∀ ref ref' m m', s.HasMeta ref m → s.HasMeta ref' m' →
    m.resourceVersion = m'.resourceVersion → ref = ref'

theorem versioned_written (h : s.Versioned) (hs : s.Coherent) (hm : metaOf kind object = .ok m)
    (hversion : m.resourceVersion = some (toString (s.version + 1))) :
    (s.written type kind m object issued).Versioned := by
  -- all other versions were given out before
  have hnew {ref : ObjectRef} {c : ObjectMeta} (hc : s.HasMeta ref c) :
      c.resourceVersion ≠ m.resourceVersion := by
    obtain ⟨v, hv, hold⟩ := hs.exists_version hc
    rw [hold, hversion]
    intro heq
    have := toString_nat_injective (Option.some.inj heq)
    omega
  intro ref ref' c c' hc hc' heq
  rcases (hasMeta_written_iff hm).1 hc with ⟨href, rfl⟩ | ⟨-, hold⟩ <;>
    rcases (hasMeta_written_iff hm).1 hc' with ⟨href', rfl⟩ | ⟨-, hold'⟩
  · rw [href, href']
  · exact absurd heq.symm (hnew hold')
  · exact absurd heq (hnew hold)
  · exact h ref ref' c c' hold hold' heq

theorem Swept.versioned (h : Swept s work after) (hs : s.Versioned) : after.Versioned :=
  fun ref ref' m m' hm hm' ↦ hs ref ref' m m' (h.hasMeta hm) (h.hasMeta hm')

/-! ## Regular stores -/

/-- Every document is filed where it belongs, with an identity, and with a version of its own. -/
structure Regular (s : Store) : Prop where
  coherent : s.Coherent
  named : s.Named
  versioned : s.Versioned

theorem regular_empty : empty.Regular where
  coherent := coherent_empty
  named := by
    rintro ref m ⟨object, hget, -⟩
    cases hget
  versioned := by
    rintro ref ref' m m' ⟨object, hget, -⟩
    cases hget

theorem Effect.named (h : Effect env s after) (henv : ∀ n, env.uid n ≠ "") (hs : s.Regular) :
    after.Named := by
  cases h with
  | idle => exact hs.named
  | created hm _ =>
    have hmeta := (admitted_eq_ok_iff.1 hm).1
    exact named_written hs.named (metaOf_withMeta hmeta _) (stampNew_uid_ne_empty henv s _)
  | updated hm hc =>
    have hmeta := (admitted_eq_ok_iff.1 hm).1
    have huid := hs.named _ _ hc
    exact named_written hs.named (metaOf_withMeta hmeta _) huid
  | removed h => exact (h.swept hs.coherent).named hs.named

theorem Effect.versioned (h : Effect env s after) (hs : s.Regular) : after.Versioned := by
  cases h with
  | idle => exact hs.versioned
  | created hm _ | updated hm _ =>
    have hmeta := (admitted_eq_ok_iff.1 hm).1
    exact versioned_written hs.versioned hs.coherent (metaOf_withMeta hmeta _) rfl
  | removed h => exact (h.swept hs.coherent).versioned hs.versioned

theorem Effect.regular (h : Effect env s after) (henv : ∀ n, env.uid n ≠ "") (hs : s.Regular) :
    after.Regular :=
  ⟨h.coherent hs.coherent, h.named henv hs, h.versioned hs⟩

end Store

theorem World.regular_call {w : World} (h : w.store.Regular) (c : Call) :
    (w.call c).store.Regular :=
  (Store.effect_perform c.env c.request h.coherent).regular c.uid_ne_empty h

theorem World.regular_after {w : World} (h : w.store.Regular) (calls : List Call) :
    (w.after calls).store.Regular := by
  induction calls generalizing w with
  | nil => exact h
  | cons c calls ih => exact ih (regular_call h c)

section Creating

open Store

variable {α : Type} [Resource α]

def Call.creating (a : α) : Call :=
  ⟨quiet, .create (Resource.kind α) (Resource.encode a), numberedUid_ne_empty⟩

theorem World.store_call_creating [Resource.Lawful α] {w : World} {a : α}
    (hscope : scopeDefect (Resource.kind α) (Resource.metadata a) = none)
    (hnone : w.store.objects.get? (Resource.ref a) = none) :
    (w.call (.creating a)).store = w.store.recorded .added (asNew quiet.ambient w.store a)
      (w.store.issuedWith (Resource.metadata a)) := by
  have hcreate : create quiet.ambient (Resource.kind α) (Resource.encode a) w.store = _ :=
    create_encode hscope hnone
  simp only [call, Call.creating, Request.perform, onStore, hcreate, recorded, metadata_asNew]
  rfl

theorem World.get?_call_creating [Resource.Lawful α] {w : World} {a : α} {ref : ObjectRef}
    {object : Json} (hget : (w.call (.creating a)).store.objects.get? ref = some object) :
    w.store.objects.get? ref = some object ∨
      ref.kind = Resource.kind α ∧ ∃ b : α, object = Resource.encode b := by
  rcases create_cases quiet.ambient (Resource.kind α) (Resource.encode a) w.store with
    ⟨e, he⟩ | ⟨m, hm, hnone, -⟩
  · simp only [call, Call.creating, Request.perform, onStore, he] at hget
    exact .inl hget
  · obtain ⟨hmeta, hscope⟩ := admitted_eq_ok_iff.1 hm
    rw [metaOf_encode] at hmeta
    cases hmeta
    rw [store_call_creating hscope hnone, get?_recorded] at hget
    split at hget
    · next href =>
      cases hget
      exact .inr ⟨congrArg ObjectRef.kind href, _, rfl⟩
    · exact .inl hget

end Creating

end TenantAccess
