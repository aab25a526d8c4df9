import TenantAccess.Proofs.Access.Members
import TenantAccess.Proofs.Rbac.Steps

/-!
# Access where reviews fail

A failed review counts as an empty answer.  In the places where answers are united or intersected an
empty one admits nobody, but the answer on who lists all tenants is subtracted: where that review
fails, those whom it would have left out get in.
-/

namespace TenantAccess

namespace Pass

variable {grants : List Grant} {failing : List String} {action : ReviewAction} {ns : String}

theorem answerOrEmpty_of_mem (h : action.resource ∈ failing) :
    answerOrEmpty ({ grants, failing } : GrantTable).review action = .empty := by
  simp [answerOrEmpty, GrantTable.review, h]

theorem answerOrEmpty_of_not_mem (h : action.resource ∉ failing) :
    answerOrEmpty ({ grants, failing } : GrantTable).review action =
      answerOrEmpty ({ grants } : GrantTable).review action := by
  simp [answerOrEmpty, GrantTable.review, h]

theorem answerOrEmpty_subset :
    answerOrEmpty ({ grants, failing } : GrantTable).review action ⊆
      answerOrEmpty ({ grants } : GrantTable).review action := by
  intro p hp
  by_cases h : action.resource ∈ failing
  · rw [answerOrEmpty_of_mem h] at hp
    exact absurd hp AccessSet.not_mem_empty
  · rwa [answerOrEmpty_of_not_mem h] at hp

theorem mem_serviceAdmin_iff {reviewer : Reviewer} {p : Principal} :
    p ∈ (reviewedAccess reviewer ns).serviceAdmin ↔
      p ∈ answerOrEmpty reviewer (.createInventories ns) ∧
        p ∈ answerOrEmpty reviewer (.createSecrets ns) := by
  unfold reviewedAccess
  dsimp only
  split
  · next hempty =>
    have hnone := AccessSet.not_mem_of_isEmpty (p := p) hempty
    simp [hnone]
  · exact AccessSet.mem_intersect

theorem serviceAdmin_subset :
    (reviewedAccess ({ grants, failing } : GrantTable).review ns).serviceAdmin ⊆
      (reviewedAccess ({ grants } : GrantTable).review ns).serviceAdmin := by
  intro p hp
  obtain ⟨hinventories, hsecrets⟩ := mem_serviceAdmin_iff.1 hp
  apply mem_serviceAdmin_iff.2
  exact ⟨answerOrEmpty_subset p hinventories, answerOrEmpty_subset p hsecrets⟩

theorem tenantList_of_failing (h : "dbaastenants" ∈ failing) :
    (reviewedAccess ({ grants, failing } : GrantTable).review ns).tenantList = .empty :=
  answerOrEmpty_of_mem h

theorem tenantList_of_not_failing (h : "dbaastenants" ∉ failing) :
    (reviewedAccess ({ grants, failing } : GrantTable).review ns).tenantList =
      (reviewedAccess ({ grants } : GrantTable).review ns).tenantList :=
  answerOrEmpty_of_not_mem h

end Pass

theorem Tenant.developerAccess_mono (t : Tenant) (inventories : List Inventory)
    {review review' : AccessSet} (h : review' ⊆ review) :
    t.developerAccess inventories review' ⊆ t.developerAccess inventories review := by
  intro p hp
  rw [mem_developerAccess] at hp ⊢
  exact hp.imp_left (h p)

open Pass in
/-- Failing reviews leave access to a tenant within what it is when none fails exactly if the review of
who lists all tenants does not fail, or would have left out nobody. -/
theorem degraded_access_subset_iff (grants : List Grant) (failing : List String) (t : Tenant)
    (inventories : List Inventory) (ns : String) (ambient : Ambient) (w : World) :
    ∃ whole degraded,
      ((reviewed ns).exec ⟨ambient, ({ grants } : GrantTable).review⟩ w).1 = .ok whole ∧
      ((reviewed ns).exec ⟨ambient, ({ grants, failing } : GrantTable).review⟩ w).1 =
        .ok degraded ∧
      (t.access inventories degraded ⊆ t.access inventories whole ↔
        ("dbaastenants" ∈ failing → ∀ p ∈ whole.tenantList, p ∉ degraded.serviceAdmin ∧
          p ∉ t.developerAccess inventories degraded.developerReview)) := by
  obtain ⟨reviews, hwhole⟩ := exec_reviewed ⟨ambient, ({ grants } : GrantTable).review⟩ w ns
  obtain ⟨reviews', hdegraded⟩ :=
    exec_reviewed ⟨ambient, ({ grants, failing } : GrantTable).review⟩ w ns
  refine ⟨_, _, congrArg Prod.fst hwhole, congrArg Prod.fst hdegraded, ?_⟩
  have hreview : answerOrEmpty ({ grants, failing } : GrantTable).review (.listInventories ns) ⊆
      answerOrEmpty ({ grants } : GrantTable).review (.listInventories ns) := answerOrEmpty_subset
  have hdeveloper := t.developerAccess_mono inventories hreview
  constructor
  · intro hsubset hfails p hlists
    -- whoever lists all tenants is left out as long as that review is answered
    have hout : p ∉ t.access inventories (reviewedAccess ({ grants } : GrantTable).review ns) :=
      fun hp ↦ (Tenant.mem_access.1 hp).2 hlists
    have hnot : p ∉ t.access inventories
        (reviewedAccess ({ grants, failing } : GrantTable).review ns) :=
      fun hp ↦ hout (hsubset p hp)
    rw [Tenant.mem_access, tenantList_of_failing hfails] at hnot
    constructor
    · intro hadmin
      exact hnot ⟨.inl hadmin, AccessSet.not_mem_empty⟩
    · intro hdev
      exact hnot ⟨.inr hdev, AccessSet.not_mem_empty⟩
  · intro hclear p hp
    obtain ⟨hgranted, hunlisted⟩ := Tenant.mem_access.1 hp
    rw [Tenant.mem_access]
    refine ⟨hgranted.imp (serviceAdmin_subset p) (hdeveloper p), fun hlists ↦ ?_⟩
    by_cases hfails : "dbaastenants" ∈ failing
    · obtain ⟨hadmin, hdev⟩ := hclear hfails p hlists
      exact hgranted.elim hadmin hdev
    · rw [tenantList_of_not_failing hfails] at hunlisted
      exact hunlisted hlists

/-- Root may list inventories and all tenants.  Where the review of who lists tenants fails, root gets
access to the tenant, which it does not have otherwise. -/
theorem lister_admitted_of_failed_review :
    let grants : List Grant := [
      { verb := "list", resource := "dbaasinventories", users := ["root"] },
      { verb := "list", resource := "dbaastenants", users := ["root"] }]
    let t : Tenant := .new "team" "shop"
    let ambient : Ambient := ⟨default, toString⟩
    ∃ whole degraded,
      ((Pass.reviewed "shop").exec ⟨ambient, ({ grants } : GrantTable).review⟩ {}).1 =
        .ok whole ∧
      ((Pass.reviewed "shop").exec
        ⟨ambient, ({ grants, failing := ["dbaastenants"] } : GrantTable).review⟩ {}).1 =
        .ok degraded ∧
      ¬t.access [] degraded ⊆ t.access [] whole := by
  intro grants t ambient
  refine ⟨⟨.empty, ⟨["root"], []⟩, ⟨["root"], []⟩⟩, ⟨.empty, ⟨["root"], []⟩, .empty⟩, ?_, ?_, ?_⟩
  · rfl
  · rfl
  · intro hsubset
    have hroot : Principal.user "root" ∈ t.access [] ⟨.empty, ⟨["root"], []⟩, .empty⟩ := by decide
    exact absurd (hsubset _ hroot) (by decide)

end TenantAccess
