import TenantAccess.Proofs.Store.Calls

/-!
# Refused requests leave no trace

A creation or an update spends a version before its last check, and a deletion counts an object as
taken before it reads who owned it.  Neither shows: what passes the first checks passes the later
ones, and each document of a coherent store can be read.
-/

namespace TenantAccess

namespace Store

variable {s after : Store} {env : Ambient} {kind : Kind} {object : Json} {e : StoreError}
  {ref : ObjectRef}

theorem create_refused (h : create env kind object s = (.error e, after)) : after = s := by
  rcases create_cases env kind object s with ⟨e', he⟩ | ⟨m, -, -, heq⟩
  · rw [he] at h
    exact (congrArg Prod.snd h).symm
  · rw [heq] at h
    cases h

theorem update_refused (h : update kind object s = (.error e, after)) : after = s := by
  rcases update_cases kind object s with ⟨e', he⟩ | ⟨m, current, c, -, -, -, -, heq⟩
  · rw [he] at h
    exact (congrArg Prod.snd h).symm
  · rw [heq] at h
    cases h

/-- All that a deletion can meet is that there is nothing to delete. -/
theorem delete_refused (hs : s.Coherent) (h : s.delete ref = (.error e, after)) :
    after = s ∧ e = .notFound ref := by
  rcases delete_spec hs ref with ⟨-, heq⟩ | ⟨after', heq, -⟩
  · rw [heq] at h
    cases h
    exact ⟨rfl, rfl⟩
  · rw [heq] at h
    cases h

end Store

/-- After any requests, and with any documents, a creation, an update or a deletion that fails
leaves the documents, the counters and the log as they were, and a deletion fails only where there
is nothing. -/
theorem refused_untouched (calls : List Call) :
    let s := (World.after {} calls).store
    (∀ env kind object e after,
      Store.create env kind object s = (.error e, after) → after = s) ∧
    (∀ kind object e after, Store.update kind object s = (.error e, after) → after = s) ∧
    ∀ ref e after, Store.delete ref s = (.error e, after) → after = s ∧ e = .notFound ref := by
  intro s
  have hs : s.Regular := World.regular_after Store.regular_empty calls
  exact ⟨fun _ _ _ _ _ ↦ Store.create_refused, fun _ _ _ _ ↦ Store.update_refused,
    fun _ _ _ ↦ Store.delete_refused hs.coherent⟩

end TenantAccess
