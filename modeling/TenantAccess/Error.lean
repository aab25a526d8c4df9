import TenantAccess.Json.Decode

/-!
# Failures

Every failure carries a code; severity, category and whether to try again follow from the code.
-/

namespace TenantAccess

inductive ErrorCode where
  | objectNotFound | objectAlreadyExists | updateConflict | storeUnavailable | storeError
  | serializationError | accessReviewFailed | admissionDenied
  | configurationError | invalidConfiguration | shutdownInProgress | internalError
deriving DecidableEq

namespace ErrorCode

def all : List ErrorCode :=
  [objectNotFound, objectAlreadyExists, updateConflict, storeUnavailable, storeError,
    serializationError, accessReviewFailed, admissionDenied,
    configurationError, invalidConfiguration, shutdownInProgress, internalError]

/-- The name in messages. -/
def name : ErrorCode → String
  | objectNotFound => "ObjectNotFound"
  | objectAlreadyExists => "ObjectAlreadyExists"
  | updateConflict => "UpdateConflict"
  | storeUnavailable => "StoreUnavailable"
  | storeError => "StoreError"
  | serializationError => "SerializationError"
  | accessReviewFailed => "AccessReviewFailed"
  | admissionDenied => "AdmissionDenied"
  | configurationError => "ConfigurationError"
  | invalidConfiguration => "InvalidConfiguration"
  | shutdownInProgress => "ShutdownInProgress"
  | internalError => "InternalError"

/-- The name in documents. -/
def wireName : ErrorCode → String
  | objectNotFound => "OBJECT_NOT_FOUND"
  | objectAlreadyExists => "OBJECT_ALREADY_EXISTS"
  | updateConflict => "UPDATE_CONFLICT"
  | storeUnavailable => "STORE_UNAVAILABLE"
  | storeError => "STORE_ERROR"
  | serializationError => "SERIALIZATION_ERROR"
  | accessReviewFailed => "ACCESS_REVIEW_FAILED"
  | admissionDenied => "ADMISSION_DENIED"
  | configurationError => "CONFIGURATION_ERROR"
  | invalidConfiguration => "INVALID_CONFIGURATION"
  | shutdownInProgress => "SHUTDOWN_IN_PROGRESS"
  | internalError => "INTERNAL_ERROR"

def ofWireName? (s : String) : Option ErrorCode := all.find? fun c ↦ c.wireName = s

def decode (d : Dialect δ) (j : δ) : Option ErrorCode := (d.caseName j).bind ofWireName?

def numeric : ErrorCode → Nat
  | objectNotFound => 1000
  | objectAlreadyExists => 1001
  | updateConflict => 1002
  | storeUnavailable => 1003
  | storeError => 1004
  | serializationError => 1100
  | accessReviewFailed => 2000
  | admissionDenied => 3000
  | configurationError => 5000
  | invalidConfiguration => 5001
  | shutdownInProgress => 9000
  | internalError => 9001

def isRetryable : ErrorCode → Bool
  | objectAlreadyExists | updateConflict | storeUnavailable | storeError
  | accessReviewFailed => true
  | _ => false

def category : ErrorCode → String
  | objectNotFound | objectAlreadyExists | updateConflict | storeUnavailable | storeError => "store"
  | serializationError => "serialization"
  | accessReviewFailed => "access_review"
  | admissionDenied => "admission"
  | configurationError | invalidConfiguration => "configuration"
  | shutdownInProgress | internalError => "internal"

/-- Expected outcomes of concurrent operation are low, bugs are critical. -/
def severity : ErrorCode → String
  | objectNotFound | objectAlreadyExists | updateConflict | admissionDenied | shutdownInProgress =>
    "low"
  | accessReviewFailed => "medium"
  | internalError => "critical"
  | _ => "high"

end ErrorCode

structure ErrorDetails where
  context : SortedMap String Json := ∅
  objectKind : Option String := none
  objectKey : Option String := none

namespace ErrorDetails

def ofObject (kind key : String) : ErrorDetails :=
  { objectKind := some kind, objectKey := some key }

def addContext (d : ErrorDetails) (key : String) (value : Json) : ErrorDetails :=
  { d with context := d.context.insert key value }

def isEmpty (d : ErrorDetails) : Bool :=
  d.context.isEmpty && d.objectKind.isNone && d.objectKey.isNone

/-- A list has to give all three members. -/
def decode (d : Dialect Json) (j : Json) : Option ErrorDetails := do
  if !j.fills 3 then none
  let fields ← d.record ["context", "object_kind", "object_key"] j
  some {
    context := ← Dialect.defaulted fields "context" ∅ (d.dictionary some)
    objectKind := ← d.optional fields "object_kind" d.text
    objectKey := ← d.optional fields "object_key" d.text }

def encode (d : ErrorDetails) : Json :=
  .obj ((if d.context.isEmpty then [] else [("context", Json.dictionary id d.context)]) ++
    Json.optionalMember "object_kind" .str d.objectKind ++
    Json.optionalMember "object_key" .str d.objectKey)

end ErrorDetails

structure Error where
  code : ErrorCode
  message : String
  /-- For logs only. -/
  internal : Option String := none
  details : ErrorDetails := {}
  /-- Whether another failure is behind this one. -/
  hasSource : Bool := false

namespace Error

def new (code : ErrorCode) (message : String) : Error := { code, message }

def withInternal (e : Error) (message : String) : Error := { e with internal := some message }

def withDetails (e : Error) (details : ErrorDetails) : Error := { e with details }

def withContext (e : Error) (key : String) (value : Json) : Error :=
  { e with details := e.details.addContext key value }

def internalError (message : String) : Error :=
  { code := .internalError, message := "An internal error occurred", internal := some message }

def notFound (kind key : String) : Error where
  code := .objectNotFound
  message := kind ++ " not found: " ++ key
  details := .ofObject kind key

def alreadyExists (kind key : String) : Error where
  code := .objectAlreadyExists
  message := kind ++ " already exists: " ++ key
  details := .ofObject kind key

def conflict (kind key : String) : Error where
  code := .updateConflict
  message := kind ++ " " ++ key ++ " was modified concurrently"
  details := .ofObject kind key

def accessReview (message : String) : Error := new .accessReviewFailed message

def admissionDenied (message : String) : Error := new .admissionDenied message

def configuration (message : String) : Error := new .invalidConfiguration message

/-- A document could not be read as what it should hold. -/
def serialization : Error where
  code := .serializationError
  message := "Failed to (de)serialize object"
  hasSource := true

/-- The settings could not be read. -/
def configurationLoad : Error where
  code := .configurationError
  message := "Failed to load configuration"
  hasSource := true

/-- A review got no readable answer. -/
def reviewRequest : Error where
  code := .accessReviewFailed
  message := "Access review request failed"
  hasSource := true

def isNotFound (e : Error) : Bool := e.code = .objectNotFound

def isConflict (e : Error) : Bool := e.code = .updateConflict

/-- `[Code] message`, with the internal message behind it. -/
def text (e : Error) : String :=
  "[" ++ e.code.name ++ "] " ++ e.message ++
    match e.internal with
    | some m => " (internal: " ++ m ++ ")"
    | none => ""

end Error

end TenantAccess
