import TenantAccess.Proofs.Store.Later

/-!
# What a request does

A request leaves the store alone, files one document or sweeps an object away, and it leaves the
store alone if it only reads or is refused.
-/

namespace TenantAccess

/-- The request is answered with a change that was made. -/
def Request.Accepted : (r : Request) → r.Reply → Prop
  | create .., reply | update .., reply => ∃ stored, reply = Except.ok stored
  | delete _, reply => reply = Except.ok ()
  | _, _ => False

namespace Store

variable {s after : Store} {env : Ambient}

inductive Effect (env : Ambient) (s : Store) : Store → Prop
  | idle : Effect env s s
  | created {kind : Kind} {object : Json} {m : ObjectMeta} (hm : admitted kind object = .ok m)
    (hnone : s.objects.get? ⟨kind, m.key⟩ = none) :
    Effect env s (s.written .added kind (stampNew env s m) (withMeta object (stampNew env s m))
      (s.issuedWith m))
  | updated {kind : Kind} {object : Json} {m c : ObjectMeta} (hm : admitted kind object = .ok m)
    (hc : s.HasMeta ⟨kind, m.key⟩ c) :
    Effect env s (s.written .modified kind (stampOver s c m) (withMeta object (stampOver s c m))
      s.issued)
  | removed {ref : ObjectRef} {told : List Event} {after : Store}
    (h : Sweeps s [ref] told after) : Effect env s after

theorem perform_cases (env : Surroundings) (r : Request) {w : World} (hw : w.store.Coherent) :
    (r.perform env w).2.store = w.store ∨
      r.Accepted (r.perform env w).1 ∧ Effect env.ambient w.store (r.perform env w).2.store := by
  cases r with
  | create kind object =>
    rcases create_cases env.ambient kind object w.store with ⟨e, he⟩ | ⟨m, hm, hnone, heq⟩
    · exact .inl (congrArg Prod.snd he)
    · refine .inr ⟨⟨_, congrArg Prod.fst heq⟩, ?_⟩
      change Effect _ _ (create env.ambient kind object w.store).2
      rw [heq]
      exact .created hm hnone
  | update kind object =>
    rcases update_cases kind object w.store with ⟨e, he⟩ | ⟨m, current, c, hm, hget, hc, -, heq⟩
    · exact .inl (congrArg Prod.snd he)
    · refine .inr ⟨⟨_, congrArg Prod.fst heq⟩, ?_⟩
      change Effect _ _ (update kind object w.store).2
      rw [heq]
      exact .updated hm ⟨current, hget, hc⟩
  | delete ref =>
    change (delete ref w.store).2 = w.store ∨
      (delete ref w.store).1 = .ok () ∧ Effect _ _ (delete ref w.store).2
    unfold delete
    cases w.store.objects.get? ref with
    | none => exact .inl rfl
    | some object =>
      obtain ⟨told, after, heq, hsweeps⟩ := exists_sweeps w.store [ref] hw
      dsimp only
      rw [heq]
      exact .inr ⟨rfl, .removed hsweeps⟩
  | get | list | review | claims | publish => exact .inl rfl

theorem effect_perform (env : Surroundings) (r : Request) {w : World} (hw : w.store.Coherent) :
    Effect env.ambient w.store (r.perform env w).2.store := by
  rcases perform_cases env r hw with heq | ⟨-, h⟩
  · rw [heq]
    exact .idle
  · exact h

namespace Effect

theorem coherent (h : Effect env s after) (hs : s.Coherent) : after.Coherent := by
  cases h with
  | idle => exact hs
  | created hm _ => exact coherent_written hs hm (stampNew_key ..) rfl _ _
  | updated hm _ => exact coherent_written hs hm (stampOver_key ..) rfl _ _
  | removed h => exact (h.swept hs).coherent hs

theorem exists_later (h : Effect env s after) (hs : s.Coherent) : ∃ news, s.Later news after := by
  cases h with
  | idle => exact ⟨[], later_nil s⟩
  | created hm _ => exact ⟨_, later_written (admitted_eq_ok_iff.1 hm).1 rfl _ _⟩
  | updated hm _ => exact ⟨_, later_written (admitted_eq_ok_iff.1 hm).1 rfl _ _⟩
  | removed h => exact ⟨_, h.later hs⟩

end Effect

end Store

theorem coherent_perform (env : Surroundings) (r : Request) {w : World} (h : w.store.Coherent) :
    (r.perform env w).2.store.Coherent :=
  (Store.effect_perform env r h).coherent h

theorem later_perform (env : Surroundings) (r : Request) {w : World} (h : w.store.Coherent) :
    ∃ news, w.store.Later news (r.perform env w).2.store :=
  (Store.effect_perform env r h).exists_later h

end TenantAccess
