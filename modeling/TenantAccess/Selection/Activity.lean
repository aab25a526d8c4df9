import TenantAccess.Object.Config

/-!
# Active configs

A config is active when its first condition of type `ReadyForProvisioning` is true.
-/

namespace TenantAccess

def readyCondition : String := "ReadyForProvisioning"

/-- The first of the smallest elements. -/
def smallestBy [Ord κ] (key : α → κ) : List α → Option α
  | [] => none
  | a :: rest =>
    match smallestBy key rest with
    | none => some a
    | some b => if compare (key b) (key a) = .lt then some b else some a

namespace Config

def isActive (c : Config) : Bool := Condition.isTrue readyCondition c.conditions

/-- The active config; of several, the one with the smallest name. -/
def active? (configs : List Config) : Option Config :=
  smallestBy (·.metadata.name) (configs.filter isActive)

end Config

/-- Whether `inventory` may provision under the active config, if there is one.  Its own setting
wins over that of the config. -/
def Inventory.canProvision (inventory : Inventory) : Option Config → Bool
  | none => false
  | some config =>
    match inventory.spec.disableProvisions with
    | some disabled => !disabled
    | none => !config.spec.disableProvisions.getD false

end TenantAccess
