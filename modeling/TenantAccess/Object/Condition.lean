import TenantAccess.Json.Decode
import TenantAccess.Time.Timestamp
import TenantAccess.Object.Meta

/-!
# Status conditions

A list of conditions is read through its first condition of each type.
-/

namespace TenantAccess

inductive ConditionStatus where
  | true | false | unknown
deriving DecidableEq

namespace ConditionStatus

def name : ConditionStatus → String
  | true => "True"
  | false => "False"
  | unknown => "Unknown"

def ofName? (s : String) : Option ConditionStatus :=
  [true, false, unknown].find? fun c ↦ c.name = s

def decode (d : Dialect δ) (j : δ) : Option ConditionStatus := (d.caseName j).bind ofName?

end ConditionStatus

structure Condition where
  type : String
  status : ConditionStatus
  reason : String
  message : String
  lastTransitionTime : Timestamp
deriving DecidableEq

namespace Condition

/-- A condition without a transition time gets the time `now`. -/
def decode (d : Dialect δ) (now : Timestamp) (j : δ) : Option Condition := do
  let fields ← d.record ["type", "status", "reason", "message", "lastTransitionTime"] j
  some {
    type := ← Dialect.required fields "type" d.text
    status := ← Dialect.required fields "status" (ConditionStatus.decode d)
    reason := ← Dialect.required fields "reason" d.text
    message := ← Dialect.defaulted fields "message" "" d.text
    lastTransitionTime :=
      ← Dialect.defaulted fields "lastTransitionTime" now (Timestamp.decode d) }

def encode (c : Condition) : Json :=
  .obj [("type", .str c.type), ("status", .str c.status.name), ("reason", .str c.reason),
    ("message", .str c.message), ("lastTransitionTime", c.lastTransitionTime.encode)]

/-- The condition that counts for `type`. -/
def find? (type : String) (conditions : List Condition) : Option Condition :=
  conditions.find? fun c ↦ c.type = type

def isTrue (type : String) (conditions : List Condition) : Bool :=
  match find? type conditions with
  | some c => c.status = .true
  | none => false

/-- `c` with the content of `new`; the transition time moves only with the status. -/
def refresh (c new : Condition) : Condition :=
  { c with
    status := new.status
    reason := new.reason
    message := new.message
    lastTransitionTime :=
      if c.status = new.status then c.lastTransitionTime else new.lastTransitionTime }

/-- Set the condition of `new`'s type, adding it at the end if there is none. -/
def set (new : Condition) : List Condition → List Condition
  | [] => [new]
  | c :: rest => if c.type = new.type then c.refresh new :: rest else c :: set new rest

/-- Whether setting `new` changes anything. -/
def changes (new : Condition) (conditions : List Condition) : Bool :=
  match find? new.type conditions with
  | none => true
  | some c => c.status ≠ new.status || c.reason ≠ new.reason || c.message ≠ new.message

end Condition

end TenantAccess
