import TenantAccess.Error
import TenantAccess.Object.Key

/-!
# Failures of the store
-/

namespace TenantAccess

inductive Defect where
  | missingMetadata
  | missingName
  | missingNamespace (name : String)
  | unwantedNamespace (name : String)
  | notAnObject
  | other (reason : String)
deriving DecidableEq

def Defect.text : Defect → String
  | missingMetadata => "missing metadata"
  | missingName => "metadata.name is required"
  | missingNamespace name => name ++ " is namespaced but has no namespace"
  | unwantedNamespace name => name ++ " is cluster scoped but has a namespace"
  | notAnObject => "object is not a JSON map"
  | other reason => reason

inductive StoreError where
  | notFound (ref : ObjectRef)
  | alreadyExists (ref : ObjectRef)
  | conflict (ref : ObjectRef) (expected actual : String)
  | invalid (kind : Kind) (defect : Defect)
  | serialization
  | unavailable (reason : String)
deriving DecidableEq

namespace StoreError

def name : StoreError → String
  | notFound _ => "NotFound"
  | alreadyExists _ => "AlreadyExists"
  | conflict .. => "Conflict"
  | invalid .. => "Invalid"
  | serialization => "Serialization"
  | unavailable _ => "Unavailable"

def message : StoreError → String
  | notFound ref => ref.text ++ " not found"
  | alreadyExists ref => ref.text ++ " already exists"
  | conflict ref expected actual =>
    ref.text ++ " has resource version " ++ actual ++ ", update carried " ++ expected
  | invalid kind defect => "invalid " ++ kind.name ++ " object: " ++ defect.text
  | serialization => "serialization failed"
  | unavailable reason => "store unavailable: " ++ reason

def toError : StoreError → Error
  | notFound ref => .notFound ref.kind.name ref.key.text
  | alreadyExists ref => .alreadyExists ref.kind.name ref.key.text
  | conflict ref _ _ =>
    (Error.conflict ref.kind.name ref.key.text).withInternal
      ("optimistic concurrency check failed for " ++ ref.text)
  | invalid kind defect =>
    ((Error.new .storeError ("invalid " ++ kind.name ++ " object")).withInternal
      defect.text).withContext "kind" (.str kind.name)
  | serialization => .serialization
  | unavailable reason =>
    (Error.new .storeUnavailable "Object store unavailable").withInternal reason

end StoreError

end TenantAccess
