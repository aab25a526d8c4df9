import TenantAccess.Json.Number
import TenantAccess.Yaml.Node
import TenantAccess.Yaml.Word

/-!
# Values in version 1.2

A document of version 1.2 is read as a JSON document.  A scalar whose tag does not fit it has no
value and counts as null; in place of a key it is passed over, so that the value behind it takes the
place of the key.
-/

namespace TenantAccess.Yaml

/-- The number that a text writes in decimal digits, if it has a signed form of 64 bits. -/
def signed? (base : Nat) (cs : List Char) : Option Int := do
  let (negative, ds) := Binary64.splitSign cs
  let n ← natOfDigits? base ds
  if n < Json.wordHalf ∨ (negative ∧ n = Json.wordHalf) then some (if negative then -n else n)
  else none

/-- A whole number in base sixteen or eight, or behind a plus sign. -/
def markedWhole? (cs : List Char) : Option Int :=
  match cs with
  | '0' :: 'x' :: ds => signed? 16 ds
  | '0' :: 'o' :: ds => signed? 8 ds
  | '+' :: ds => signed? 10 ds
  | _ => none

/-- The value of a fraction; words with a point for infinity and no number cannot be read, save
`.NaN`, which is none of them. -/
def fraction? (s : String) : Option (Option Json) :=
  if isSpecialNumber s && s ≠ ".NaN" then some none
  else (Binary64.ofText? s).map fun x ↦ some (.real x)

/-- The value of a plain scalar without a tag; `none` if it cannot be read. -/
def plainValue? (s : String) : Option Json :=
  match markedWhole? s.toList with
  | some n => some (.int n)
  | none =>
    if s = "" ∨ s = "~" ∨ s = "null" then some .null
    else if s = "true" then some (.bool true)
    else if s = "false" then some (.bool false)
    else
      match signed? 10 s.toList with
      | some n => some (.int n)
      | none => (fraction? s).getD (some (.str s))

/-- The value of a plain scalar with a tag: `none` if it cannot be read, and `some none` if it has
no value. -/
def taggedValue? (tag : Tag) (s : String) : Option (Option Json) :=
  if tag.space ≠ "tag:yaml.org,2002:" then some (some (.str s))
  else
    match tag.name with
    | "bool" =>
      some <| match s with
        | "true" => some (.bool true)
        | "false" => some (.bool false)
        | _ => none
    | "int" => some ((signed? 10 s.toList).map .int)
    | "float" =>
      match fraction? s with
      | some none => none
      | some (some j) => some (some j)
      | none => some none
    | "null" => some (if s = "~" ∨ s = "null" then some .null else none)
    | _ => some (some (.str s))

/-- Keys are texts and whole numbers. -/
def keyText? : Json → Option String
  | .str s => some s
  | .int n => some (toString n)
  | _ => none

def isSameKey : Json → Json → Bool
  | .str s, .str t => s = t
  | .int m, .int n => m = n
  | _, _ => false

/-- The members of an object so far, and the key whose value comes next. -/
structure OpenObject where
  key : Option Json := none
  /-- Keys and values, last first. -/
  done : List (Json × Json) := []

/-- Take up a key or a value.  No key may be there twice. -/
def OpenObject.add? (o : OpenObject) (v : Option Json) : Option OpenObject :=
  match o.key with
  | none => some { o with key := v }
  | some key =>
    if o.done.any fun e ↦ isSameKey e.1 key then none
    else some ⟨none, (key, v.getD .null) :: o.done⟩

def OpenObject.close? (o : OpenObject) : Option Json := do
  let members ← o.done.reverse.mapM fun (key, v) ↦ return (← keyText? key, v)
  some (.obj (members.foldl (fun done e ↦ Json.setMember e.1 e.2 done) []))

/-- Values of nodes, with those of the anchors that are complete. -/
abbrev Valuing (α : Type) := StateT (List (Nat × Option Json)) Option α

mutual

/-- The value of a node, if it has one.  A node that stands for one which is not complete yet has
none. -/
def value : Node → Valuing (Option Json)
  | .scalar _ .quoted text | .scalar _ .literal text | .scalar _ .folded text =>
    return some (.str text)
  | .scalar (some tag) .plain text => fun s ↦ (taggedValue? tag text).map (·, s)
  | .scalar none .plain text => fun s ↦ (plainValue? text).map (some ·, s)
  | .mention id => return ((← get).lookup id).join
  | .anchored id node => do
    let v ← value node
    modify ((id, v) :: ·)
    return v
  | .list items => return some (.arr (← values items))
  | .object entries => do
    let o ← addEntries {} entries
    fun s ↦ o.close?.map (some ·, s)

def values : List Node → Valuing (List Json)
  | [] => return []
  | node :: nodes => do
    let v ← value node
    return v.getD .null :: (← values nodes)

def addEntries (o : OpenObject) : List (Node × Node) → Valuing OpenObject
  | [] => return o
  | (key, v) :: entries => do
    let k ← value key
    let o ← fun s ↦ (o.add? k).map (·, s)
    let v ← value v
    let o ← fun s ↦ (o.add? v).map (·, s)
    addEntries o entries

end

/-- The JSON document that a text in version 1.2 holds; an empty object if it holds none. -/
def parse (text : String) : Option Json := do
  match ← document? .v12 text with
  | none => some (.obj [])
  | some node => return ((← (value node).run []).1).getD .null

end TenantAccess.Yaml
