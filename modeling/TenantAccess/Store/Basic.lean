import TenantAccess.Object.Meta
import TenantAccess.Store.Failure

/-!
# The object store

Documents under their kind and key, with a version counter, a count of accepted writes and the log
of all changes.  An update that carries a version succeeds only if it carries the current one, and
an object goes together with everything it owns.
-/

namespace TenantAccess

open Std

inductive EventType where
  | added | modified | deleted
deriving DecidableEq

namespace EventType

def name : EventType → String
  | added => "Added"
  | modified => "Modified"
  | deleted => "Deleted"

def ofName? (s : String) : Option EventType :=
  [added, modified, deleted].find? fun t ↦ t.name = s

def decode (d : Dialect δ) (j : δ) : Option EventType := (d.caseName j).bind ofName?

end EventType

structure Event where
  type : EventType
  kind : Kind
  metadata : ObjectMeta
  object : Json

namespace Event

def ref (e : Event) : ObjectRef := ⟨e.kind, e.metadata.key⟩

def text (e : Event) : String :=
  e.type.name ++ " " ++ e.kind.name ++ " " ++ e.metadata.key.text ++ " v" ++
    e.metadata.resourceVersion.getD ""

end Event

structure ListParams where
  ns? : Option String := none
  /-- Each of these labels must be there with this value. -/
  labels : SortedMap String String := ∅

namespace ListParams

def all : ListParams := {}

def inNamespace (ns : String) : ListParams := { ns? := some ns }

def accepts (p : ListParams) (m : ObjectMeta) : Bool :=
  (p.ns?.isNone || m.ns? = p.ns?) &&
    p.labels.entries.all fun e ↦ m.labels.get? e.1 = some e.2

end ListParams

/-- What a store takes from outside: the time, and an identity for each object without one. -/
structure Ambient where
  now : Timestamp
  uid : Nat → String

structure Store where
  objects : SortedMap ObjectRef Json := ∅
  /-- The last version given out. -/
  version : Nat := 0
  /-- Accepted writes, each object that a deletion takes along included. -/
  writes : Nat := 0
  /-- Identities given out. -/
  issued : Nat := 0
  /-- Every change since the beginning. -/
  log : Array Event := #[]

namespace Store

def empty : Store := {}

instance : Inhabited Store := ⟨empty⟩

def metaOf (kind : Kind) (object : Json) : Except StoreError ObjectMeta :=
  match object.get? "metadata" with
  | none => .error (.invalid kind .missingMetadata)
  | some j =>
    match ObjectMeta.decode Json.strict j with
    | some m => .ok m
    | none => .error .serialization

def withMeta (object : Json) (m : ObjectMeta) : Json :=
  match object with
  | .obj fields => .obj (Json.setMember "metadata" m.encode fields)
  | j => j

/-- The document to store under `m`; only an object takes metadata. -/
def refiled (kind : Kind) (object : Json) (m : ObjectMeta) : Except StoreError Json :=
  match object with
  | .obj _ => .ok (withMeta object m)
  | _ => .error (.invalid kind .notAnObject)

/-- What is wrong with the name or the namespace. -/
def scopeDefect (kind : Kind) (m : ObjectMeta) : Option Defect :=
  if m.name = "" then some .missingName
  else if kind.isNamespaced then
    if m.ns? = none ∨ m.ns? = some "" then some (.missingNamespace m.name) else none
  else if m.ns?.isSome then some (.unwantedNamespace m.name)
  else none

/-- The metadata of a document that may be stored. -/
def admitted (kind : Kind) (object : Json) : Except StoreError ObjectMeta := do
  let m ← metaOf kind object
  match scopeDefect kind m with
  | some defect => .error (.invalid kind defect)
  | none => .ok m

def size (s : Store) : Nat := s.objects.size

def isEmpty (s : Store) : Bool := s.objects.isEmpty

def publish (s : Store) (type : EventType) (kind : Kind) (metadata : ObjectMeta) (object : Json) :
    Store :=
  { s with log := s.log.push ⟨type, kind, metadata, object⟩ }

def get (s : Store) (ref : ObjectRef) : Except StoreError Json :=
  match s.objects.get? ref with
  | some object => .ok object
  | none => .error (.notFound ref)

/-- The objects among `entries` that `params` accepts. -/
def select (params : ListParams) : List (ObjectRef × Json) → Except StoreError (List Json)
  | [] => .ok []
  | (ref, object) :: rest => do
    let m ← metaOf ref.kind object
    let others ← select params rest
    .ok (if params.accepts m then object :: others else others)

/-- The objects of a kind, in key order. -/
def list (s : Store) (kind : Kind) (params : ListParams) : Except StoreError (List Json) :=
  select params (s.objects.entries.filter fun e ↦ e.1.kind = kind)

def create (env : Ambient) (kind : Kind) (object : Json) (s : Store) :
    Except StoreError Json × Store :=
  match admitted kind object with
  | .error e => (.error e, s)
  | .ok m =>
    let ref : ObjectRef := ⟨kind, m.key⟩
    match s.objects.get? ref with
    | some _ => (.error (.alreadyExists ref), s)
    | none =>
      let anonymous : Bool := m.uid = ""
      let m := { m with
        uid := if anonymous then env.uid s.issued else m.uid
        resourceVersion := some (toString (s.version + 1))
        creationTimestamp := some env.now }
      -- the version is spent before it is known whether the document takes it
      let s := { s with
        version := s.version + 1
        issued := if anonymous then s.issued + 1 else s.issued }
      match refiled kind object m with
      | .error e => (.error e, s)
      | .ok stored =>
        (.ok stored, publish { s with
          objects := s.objects.insert ref stored
          writes := s.writes + 1 } .added kind m stored)

def update (kind : Kind) (object : Json) (s : Store) : Except StoreError Json × Store :=
  match admitted kind object with
  | .error e => (.error e, s)
  | .ok m =>
    let ref : ObjectRef := ⟨kind, m.key⟩
    match s.objects.get? ref with
    | none => (.error (.notFound ref), s)
    | some current =>
      match metaOf kind current with
      | .error e => (.error e, s)
      | .ok c =>
        let actual := c.resourceVersion.getD ""
        match m.resourceVersion.filter (· ≠ actual) with
        | some expected => (.error (.conflict ref expected actual), s)
        | none =>
          let m := { m with
            uid := c.uid
            creationTimestamp := c.creationTimestamp
            resourceVersion := some (toString (s.version + 1)) }
          let s := { s with version := s.version + 1 }
          match refiled kind object m with
          | .error e => (.error e, s)
          | .ok stored =>
            (.ok stored, publish { s with
              objects := s.objects.insert ref stored
              writes := s.writes + 1 } .modified kind m stored)

/-- The objects that an owner reference ties to `uid`. -/
def dependents (s : Store) (uid : String) : List ObjectRef :=
  (s.objects.entries.filter fun e ↦
    match metaOf e.1.kind e.2 with
    | .ok m => m.isOwnedBy uid
    | .error _ => false).map (·.1)

/-- Take away each object of `work` that is still there, and before the next one all it owns. -/
def sweep (s : Store) (work : List ObjectRef) : Except StoreError Unit × Store :=
  match work with
  | [] => (.ok (), s)
  | ref :: rest =>
    match _h : s.objects.get? ref with
    | none => sweep s rest
    | some object =>
      let taken := { s with objects := s.objects.erase ref, writes := s.writes + 1 }
      match metaOf ref.kind object with
      | .error e => (.error e, taken)
      | .ok m =>
        let told := taken.publish .deleted ref.kind m object
        sweep told (told.dependents m.uid ++ rest)
termination_by (s.objects.size, work.length)
decreasing_by
  · exact Prod.Lex.right _ (by simp)
  · exact Prod.Lex.left _ _ (SortedMap.size_erase_lt _h)

/-- Take away an object and everything it owns. -/
def delete (ref : ObjectRef) (s : Store) : Except StoreError Unit × Store :=
  match s.objects.get? ref with
  | none => (.error (.notFound ref), s)
  | some _ => s.sweep [ref]

end Store

end TenantAccess
