import TenantAccess.Program

/-!
# An unreliable store

A list of faults stands in front of the store.  A call meets the first fault that fits it and is
not used up: it fails, is overtaken by a competing call, or never comes back.
-/

namespace TenantAccess

inductive StoreCall where
  | get | list | create | update | delete
  /-- Subscribing to the changes. -/
  | watch
deriving DecidableEq

def StoreCall.name : StoreCall → String
  | get => "get"
  | list => "list"
  | create => "create"
  | update => "update"
  | delete => "delete"
  | watch => "watch"

def StoreCall.ofName? (s : String) : Option StoreCall :=
  [get, list, create, update, delete, watch].find? fun c ↦ c.name = s

inductive Stop where
  | hang | panic
deriving DecidableEq

inductive Disturbance where
  | notFound | alreadyExists | conflict | invalid | unavailable | serialization
  /-- A competing call goes first. -/
  | race
  | stop (s : Stop)
deriving DecidableEq

namespace Disturbance

def name : Disturbance → String
  | notFound => "not_found"
  | alreadyExists => "already_exists"
  | conflict => "conflict"
  | invalid => "invalid"
  | unavailable => "unavailable"
  | serialization => "serialization"
  | race => "race"
  | stop .hang => "hang"
  | stop .panic => "panic"

def ofName? (s : String) : Option Disturbance :=
  [notFound, alreadyExists, conflict, invalid, unavailable, serialization, race, stop .hang,
    stop .panic].find? fun d ↦ d.name = s

/-- The failure of a call for `ref`, if the disturbance is one. -/
def failure? (ref : ObjectRef) : Disturbance → Option StoreError
  | notFound => some (.notFound ref)
  | alreadyExists => some (.alreadyExists ref)
  | conflict => some (.conflict ref "1" "2")
  | invalid => some (.invalid ref.kind (.other "fault"))
  | unavailable => some (.unavailable "fault")
  | serialization => some .serialization
  | race | stop _ => none

end Disturbance

structure Fault where
  call : StoreCall
  kind? : Option Kind := none
  name? : Option String := none
  disturbance : Disturbance
  /-- How many fitting calls it lets through first. -/
  skip : Nat := 0
  /-- How many calls it disturbs then. -/
  times : Nat := 1

namespace Fault

/-- A fault that names no disturbance makes calls fail as if the store were away; for a subscription
it does not matter which one is named. -/
def decode (d : Dialect δ) (j : δ) : Option Fault := do
  let fields ← d.record ["call", "kind", "name", "error", "skip", "times"] j
  let kind (j : δ) := (d.caseName j).bind Kind.ofName?
  let call ← Dialect.required fields "call" fun j ↦ (d.text j).bind StoreCall.ofName?
  let disturbance (j : δ) :=
    if call = .watch then some .unavailable else (d.text j).bind Disturbance.ofName?
  some {
    call
    kind? := ← d.optional fields "kind" kind
    name? := ← d.optional fields "name" d.text
    disturbance := (← d.optional fields "error" disturbance).getD .unavailable
    skip := (← d.optional fields "skip" d.count).getD 0
    times := (← d.optional fields "times" d.count).getD 1 }

def fits (f : Fault) (call : StoreCall) (kind : Kind) (name : Option String) : Bool :=
  f.call = call && (f.kind?.isNone || f.kind? = some kind) &&
    (f.name?.isNone || f.name? = name) && 0 < f.times

/-- The disturbance that a call meets, and the faults after it. -/
def meet (call : StoreCall) (kind : Kind) (name : Option String) :
    List Fault → Option Disturbance × List Fault
  | [] => (none, [])
  | f :: rest =>
    if f.fits call kind name && f.skip = 0 then
      (some f.disturbance, { f with times := f.times - 1 } :: rest)
    else
      let f := if f.fits call kind name then { f with skip := f.skip - 1 } else f
      ((meet call kind name rest).1, f :: (meet call kind name rest).2)

end Fault

/-- A world behind a list of faults. -/
structure FaultyWorld where
  world : World := {}
  faults : List Fault := []
deriving Inhabited

/-- Work on an unreliable store, which may stop half way. -/
abbrev FaultyM := ExceptT Stop (StateM FaultyWorld)

namespace FaultyM

/-- Carry out a request on the store itself. -/
def reliably (env : Surroundings) (r : Request) : FaultyM r.Reply :=
  modifyGet fun s ↦
    let (reply, world) := r.perform env s.world
    (reply, { s with world })

def meet (call : StoreCall) (kind : Kind) (name : Option String) : FaultyM (Option Disturbance) :=
  modifyGet fun s ↦
    let (d, faults) := Fault.meet call kind name s.faults
    (d, { s with faults })

/-- The object that a document is about, as far as it can be told. -/
def subject (kind : Kind) (object : Json) : Option String × ObjectRef :=
  match Store.metaOf kind object with
  | .ok m => (some m.name, ⟨kind, m.key⟩)
  | .error _ => (none, ⟨kind, .cluster ""⟩)

/-- A call that meets whatever stands in its way.  `rival` is the call that overtakes it in a race;
if that fails, so does this call. -/
def disturbed {α : Type} (call : StoreCall) (name : Option String) (ref : ObjectRef)
    (rival : FaultyM (Except StoreError Unit)) (act : FaultyM (Except StoreError α)) :
    FaultyM (Except StoreError α) := do
  match ← meet call ref.kind name with
  | none => act
  | some (.stop s) => throw s
  | some .race =>
    match ← rival with
    | .ok _ => act
    | .error e => return .error e
  | some d =>
    match d.failure? ref with
    | some e => return .error e
    | none => act

/-- Write the stored object back as it is. -/
def writeBack (env : Surroundings) (ref : ObjectRef) : FaultyM (Except StoreError Unit) := do
  match ← reliably env (.get ref) with
  | .error e => return .error e
  | .ok object => return (← reliably env (.update ref.kind object)).map fun _ ↦ ()

/-- Carry out a request. -/
def answer (env : Surroundings) : (r : Request) → FaultyM r.Reply
  | .get ref => disturbed .get ref.key.name ref (return .ok ()) (reliably env (.get ref))
  | .list kind params =>
    disturbed .list none ⟨kind, .cluster ""⟩ (return .ok ()) (reliably env (.list kind params))
  | .create kind object =>
    let (name, ref) := subject kind object
    disturbed .create name ref
      (return (← reliably env (.create kind object)).map fun _ ↦ ())
      (reliably env (.create kind object))
  | .update kind object =>
    let (name, ref) := subject kind object
    disturbed .update name ref (writeBack env ref) (reliably env (.update kind object))
  | .delete ref =>
    disturbed .delete ref.key.name ref (reliably env (.delete ref)) (reliably env (.delete ref))
  | r => reliably env r

end FaultyM

end TenantAccess
