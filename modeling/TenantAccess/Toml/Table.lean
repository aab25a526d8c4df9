import TenantAccess.Json.Basic

/-!
# Tables in TOML

A table is opened by a header, by a header below it, or by a key with points.  A key is set once, a
header opens a table once, and keys with points reach only tables that no header has opened.
-/

namespace TenantAccess.Toml

/-- How a table came to be. -/
inductive Opening where
  /-- By a header of its own or as a value. -/
  | itself
  /-- By the header of a table below it. -/
  | below
  /-- By a key with points. -/
  | dotted
deriving DecidableEq

/-- What stands under a key. -/
inductive Entry where
  | value (j : Json)
  | table (opening : Opening) (fields : List (String × Entry))
  /-- Tables of one name, the last one first. -/
  | series (tables : List (List (String × Entry)))

abbrev Fields := List (String × Entry)

namespace Fields

def set (key : String) (e : Entry) : Fields → Fields
  | [] => [(key, e)]
  | (k, old) :: rest => if k = key then (key, e) :: rest else (k, old) :: set key e rest

/-- Change the table at `path`, making tables on the way.  A path of `dotted` keys may not lead
through a table that a header has opened. -/
def change? (dotted : Bool) (f : Fields → Option Fields) : List String → Fields → Option Fields
  | [], fields => f fields
  | key :: path, fields =>
    match fields.lookup key with
    | none => do
      let child ← change? dotted f path []
      some (set key (.table (if dotted then .dotted else .below) child) fields)
    | some (.value _) => none
    | some (.table opening child) =>
      if dotted ∧ opening = .itself then none
      else do some (set key (.table opening (← change? dotted f path child)) fields)
    | some (.series []) => none
    | some (.series (last :: others)) => do
      some (set key (.series ((← change? dotted f path last) :: others)) fields)

/-- Set a key that is new. -/
def insert? (key : String) (e : Entry) (fields : Fields) : Option Fields :=
  if (fields.lookup key).isSome then none else some (set key e fields)

/-- How the table at `path` came to be, below one that came to be by `opening`. -/
def openingAt (opening : Opening) : List String → Fields → Opening
  | [], _ => opening
  | key :: path, fields =>
    match fields.lookup key with
    | some (.table opening child) => openingAt opening path child
    | some (.series (last :: _)) => openingAt .itself path last
    | _ => .dotted

/-- `path.key = value`: a key with points adds to tables of such keys only. -/
def assign? (path : List String) (key : String) (v : Json) (fields : Fields) : Option Fields :=
  if path ≠ [] ∧ openingAt .itself path fields ≠ .dotted then none
  else change? true (insert? key (.value v)) path fields

end Fields

/-- A document while its lines are read. -/
structure Draft where
  root : Fields := []
  /-- Where the table is that is open. -/
  path : List String := []

namespace Draft

/-- `path.key = value` in the table that is open. -/
def assign? (path : List String) (key : String) (v : Json) (d : Draft) : Option Draft := do
  some { d with root := ← d.root.change? false (Fields.assign? path key v) d.path }

/-- `[path.key]`: a table that only headers below it have opened keeps what it holds. -/
def open? (path : List String) (key : String) (d : Draft) : Option Draft := do
  let root ← d.root.change? false (fun fields ↦
    match fields.lookup key with
    | none => some (fields.set key (.table .itself []))
    | some (.table .below child) => some (fields.set key (.table .itself child))
    | some _ => none) path
  some ⟨root, path ++ [key]⟩

/-- `[[path.key]]` -/
def append? (path : List String) (key : String) (d : Draft) : Option Draft := do
  let root ← d.root.change? false (fun fields ↦
    match fields.lookup key with
    | none => some (fields.set key (.series [[]]))
    | some (.series tables) => some (fields.set key (.series ([] :: tables)))
    | some _ => none) path
  some ⟨root, path ++ [key]⟩

end Draft

mutual

def Entry.toJson : Entry → Json
  | .value j => j
  | .table _ fields => .obj (fieldsToJson fields)
  | .series tables => .arr (tablesToJson tables).reverse

def fieldsToJson : List (String × Entry) → List (String × Json)
  | [] => []
  | (key, e) :: rest => (key, e.toJson) :: fieldsToJson rest

def tablesToJson : List (List (String × Entry)) → List Json
  | [] => []
  | fields :: rest => .obj (fieldsToJson fields) :: tablesToJson rest

end

end TenantAccess.Toml
