import TenantAccess.Dialect
import TenantAccess.Yaml.Node
import TenantAccess.Yaml.Word

/-!
# Typed reading of documents in version 1.1

Where a text is asked for every scalar will do, as it was written.  Nothing in place of a collection
stands for an empty one.
-/

namespace TenantAccess.Yaml

namespace Node

mutual

/-- The nodes with anchors, last first. -/
def anchors (found : List (Nat × Node)) : Node → List (Nat × Node)
  | scalar _ _ _ | mention _ => found
  | anchored id node => anchors ((id, node) :: found) node
  | list items => anchorsOfList found items
  | object entries => anchorsOfEntries found entries

def anchorsOfList (found : List (Nat × Node)) : List Node → List (Nat × Node)
  | [] => found
  | node :: nodes => anchorsOfList (anchors found node) nodes

def anchorsOfEntries (found : List (Nat × Node)) : List (Node × Node) → List (Nat × Node)
  | [] => found
  | (key, value) :: entries => anchorsOfEntries (anchors (anchors found key) value) entries

end

end Node

/-- A node of a document with anchors. -/
structure Branch where
  /-- The nodes with anchors; the first with an id is the one that counts. -/
  anchors : List (Nat × Node)
  node : Node

namespace Branch

def ofDocument (node : Node) : Branch := ⟨node.anchors [], node⟩

/-- The node without its anchor, or the one that it stands for. -/
def content (b : Branch) : Node :=
  match b.node with
  | .anchored _ node => node
  | .mention id => (b.anchors.lookup id).getD b.node
  | node => node

/-- Another node of the document. -/
def withNode (b : Branch) (node : Node) : Branch := { b with node }

/-- Whether nothing is written at the node. -/
def isVacant (b : Branch) : Bool :=
  match b.content with
  | .scalar _ .plain "" => true
  | _ => false

/-- Only what has no tag but that of null may be null, and what has it must be. -/
def isNull (b : Branch) : Option Bool :=
  match b.content with
  | .scalar none .plain text => some (text = "" || text ∈ nullWords)
  | .scalar (some tag) .plain text =>
    if tag.space ++ tag.name = "tag:yaml.org,2002:null" then
      if text ∈ nullWords then some true else none
    else some false
  | _ => some false

def text (b : Branch) : Option String :=
  match b.content with
  | .scalar _ _ text => some text
  | _ => none

/-- The text of a plain scalar, or of a block of lines with a certain tag. -/
def word (type : String) (b : Branch) : Option String :=
  match b.content with
  | .scalar _ .plain text => some text
  | .scalar (some tag) .literal text =>
    if tag.space ++ tag.name = "tag:yaml.org,2002:" ++ type then some text else none
  | _ => none

def elements (b : Branch) : Option (List Branch) :=
  match b.content with
  | .list items => some (items.map b.withNode)
  | _ => if b.isVacant then some [] else none

/-- The members of an object, whose keys are scalars. -/
def members (b : Branch) : Option (List (String × Branch)) :=
  match b.content with
  | .object entries => entries.mapM fun (key, value) ↦
      (b.withNode key).text.map (·, b.withNode value)
  | _ => if b.isVacant then some [] else none

/-- The members of a record, of which none that is named may be there twice. -/
def record (names : List String) (b : Branch) : Option (List (String × Branch)) := do
  let members ← b.members
  let keys := (members.map (·.1)).filter (names.contains ·)
  if keys.length = keys.eraseDups.length then some members else none

/-- The name of a case: the text, or the tag of nothing. -/
def caseName (b : Branch) : Option String :=
  match b.content with
  | .scalar tag style text =>
    match (tag.map fun t ↦ t.space ++ t.name).map String.toList with
    | some ('!' :: name) =>
      if style = .plain ∧ (text = "" ∨ text ∈ nullWords) then some (String.ofList name) else none
    | _ => some text
  | _ => none

end Branch

/-- The dialect of documents in version 1.1. -/
def dialect : Dialect Branch where
  isNull := Branch.isNull
  text := Branch.text
  flag b := (b.word "bool").bind truthOf?
  count b := (b.word "int").bind countOf?
  elements := Branch.elements
  members := Branch.members
  record := Branch.record
  fills _ _ := true
  caseName := Branch.caseName

end TenantAccess.Yaml
