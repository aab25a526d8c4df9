import TenantAccess.Pass
import TenantAccess.Proofs.Program.Asks
import TenantAccess.Proofs.Program.Typed

/-!
# The steps of a pass

A pass asks for reviews, whose answers change nothing that is stored, and otherwise works on one
namespace.
-/

namespace TenantAccess

namespace Pass

/-- What a reviewer says; a failure counts as an empty answer. -/
def answerOrEmpty (reviewer : Reviewer) (action : ReviewAction) : AccessSet :=
  match reviewer action with
  | .ok access => access
  | .error _ => .empty

def reviewedAccess (reviewer : Reviewer) (ns : String) : ReviewedAccess :=
  let creators := answerOrEmpty reviewer (.createInventories ns)
  { serviceAdmin :=
      if creators.isEmpty then creators
      else creators.intersect (answerOrEmpty reviewer (.createSecrets ns))
    developerReview := answerOrEmpty reviewer (.listInventories ns)
    tenantList := answerOrEmpty reviewer .listTenants }

theorem exec_reviewOrEmpty (env : Surroundings) (w : World) (action : ReviewAction) :
    (reviewOrEmpty action).exec env w =
      (.ok (answerOrEmpty env.reviewer action), { w with reviews := w.reviews + 1 }) := by
  unfold reviewOrEmpty answerOrEmpty
  rw [Task.exec_bind_of_ok (Task.exec_ask _)]
  simp only [Request.perform]
  cases env.reviewer action <;> rfl

theorem exec_reviewed (env : Surroundings) (w : World) (ns : String) :
    ∃ reviews, (reviewed ns).exec env w =
      (.ok (reviewedAccess env.reviewer ns), { w with reviews }) := by
  unfold reviewed serviceAdmin
  cases hempty : (answerOrEmpty env.reviewer (.createInventories ns)).isEmpty with
  | true =>
    refine ⟨w.reviews + 3, ?_⟩
    simp [Task.exec_bind, Task.exec_map, exec_reviewOrEmpty, hempty, reviewedAccess]
  | false =>
    refine ⟨w.reviews + 4, ?_⟩
    simp [Task.exec_bind, Task.exec_map, exec_reviewOrEmpty, hempty, reviewedAccess]

/-- Bring in line what is derived in `ns`, whose claimants are `tenants`. -/
def bring (now : Timestamp) (ns : String) (tenants : List Tenant) (listed : List Inventory)
    (summary : PassSummary) : Task PassSummary :=
  if tenants.isEmpty then do
    let inventories ← bound now listed
    ensureInventories now tenants inventories
      { summary with tenants := tenants.length, inventories := inventories.length }
  else do
    let inputs ← reviewed ns
    let summary ← ensureTenants now listed inputs tenants
      { summary with tenants := tenants.length, inventories := listed.length }
    ensureInventories now tenants listed summary

theorem run_eq (now : Timestamp) (ns : String) : run now ns = (do
    let previous ← Task.ask .claims
    let (claims, allTenants) ← refresh now
    let listed ← Task.list (α := Inventory) now (.inNamespace ns)
    bring now ns (allTenants.filter (·.inventoryNamespace = ns)) listed {
      namespaceName := ns
      snapshotVersion := claims.version
      released := claims.releasedSince previous }) := by
  unfold run bring
  refine bind_congr fun previous ↦ bind_congr fun (claims, allTenants) ↦
    bind_congr fun listed ↦ ?_
  cases (allTenants.filter (·.inventoryNamespace = ns)).isEmpty <;> simp

/-! ## What the reading steps ask -/

variable {A : (r : Request) → r.Reply → Prop} {P : Request → Prop}

theorem asks_refresh (now : Timestamp) (hlist : ∀ kind params, P (.list kind params))
    (hpublish : ∀ tenants, P (.publish tenants)) : (refresh now).Asks A P :=
  (Task.asks_list (hlist ..)).bind fun _ ↦ (Task.asks_ask (hpublish _)).bind fun _ ↦
    Task.asks_pure _

theorem asks_bound (now : Timestamp) (hget : ∀ ref, P (.get ref)) (l : List Inventory) :
    (bound now l).Asks A P := by
  induction l with
  | nil => exact Task.asks_pure _
  | cons i rest ih =>
    exact (Task.asks_find? (hget _)).bind fun _ ↦ ih.bind fun _ ↦ Task.asks_pure _

end Pass

end TenantAccess
