import TenantAccess.Yaml.Lexer

/-!
# From tokens to nodes

A document is a tree of nodes, in which a node may stand for one with an anchor elsewhere.
-/

namespace TenantAccess.Yaml

/-- A tag: what its handle stands for, and the name behind it. -/
structure Tag where
  space : String
  name : String
deriving DecidableEq

inductive Node where
  | scalar (tag : Option Tag) (style : ScalarStyle) (text : String)
  | list (items : List Node)
  | object (entries : List (Node × Node))
  /-- A node that is named by an anchor. -/
  | anchored (id : Nat) (node : Node)
  /-- Stands for the node with that anchor. -/
  | mention (id : Nat)
deriving Inhabited

namespace Node

def empty : Node := scalar none .plain ""

end Node

/-- Tokens that are left, and what names in them stand for. -/
structure Outline where
  version : Version
  tokens : List Token
  tagSpaces : List (String × String) := []
  anchors : List (String × Nat) := []
  /-- The number of anchors so far. -/
  anchorCount : Nat := 0

namespace Outline

abbrev Reading (α : Type) := StateT Outline Option α

def peek : Reading (Option Token) := fun o ↦ some (o.tokens.head?, o)

def advance : Reading Unit := fun o ↦ some ((), { o with tokens := o.tokens.drop 1 })

/-- Whether one of the tokens comes next. -/
def isAtAny (ts : List Token) : Reading Bool := return (← peek).any (ts.contains ·)

/-- Pass the next token if it is `t`. -/
def accept (t : Token) : Reading Bool := do
  if (← peek) = some t then
    advance
    return true
  else return false

/-! ## Names -/

/-- What handles stand for unless something else is said. -/
def commonSpaces : List (String × String) := [("!", "!"), ("!!", "tag:yaml.org,2002:")]

/-- The tag with a handle.  In version 1.1 each handle has to stand for something, and a lone
exclamation mark is a tag of its own; in version 1.2 a handle with one mark may stand for itself. -/
def resolveTag (handle name : String) : Reading Tag := do
  let o ← get
  match o.version with
  | .v11 =>
    if handle = "" then return ⟨"", name⟩
    else
      match (o.tagSpaces ++ commonSpaces).lookup handle with
      | some space => return ⟨space, name⟩
      | none => failure
  | .v12 =>
    match o.tagSpaces.lookup handle with
    | some space => return ⟨space, name⟩
    | none =>
      if handle = "!!" then return ⟨"tag:yaml.org,2002:", name⟩
      else if isFullHandle handle.toList then failure
      else return ⟨handle, name⟩

/-- Number an anchor.  In version 1.1 the number is how many names there were before, so that a
name that is used twice leads to numbers that are used twice. -/
def newAnchor (name : String) : Reading Nat := do
  let o ← get
  let id := match o.version with
    | .v11 => o.anchors.length
    | .v12 => o.anchorCount
  set { o with
    anchors := (name, id) :: o.anchors.filter (·.1 ≠ name)
    anchorCount := o.anchorCount + 1 }
  return id

def anchorOf (name : String) : Reading Nat := do
  match (← get).anchors.lookup name with
  | some id => return id
  | none => failure

/-- An anchor, if one comes next. -/
def anchor : Reading (Option Nat) := do
  match ← peek with
  | some (.anchor name) =>
    advance
    return some (← newAnchor name)
  | _ => return none

/-- A tag, if one comes next. -/
def tag : Reading (Option Tag) := do
  match ← peek with
  | some (.tag handle name) =>
    advance
    return some (← resolveTag handle name)
  | _ => return none

/-- An anchor and a tag in either order. -/
def properties : Reading (Option Nat × Option Tag) := do
  match ← anchor with
  | some id => return (some id, ← tag)
  | none =>
    let tag ← tag
    if tag.isNone then return (none, none) else return (← anchor, tag)

/-- A lone exclamation mark says nothing about a scalar in version 1.1. -/
def tagOfScalar (v : Version) (tag : Option Tag) : Option Tag :=
  if v = .v11 ∧ tag = some ⟨"", "!"⟩ then none else tag

/-! ## Nodes -/

/-- The empty node before one of the tokens, and else what `read` makes of them. -/
def orEmpty (ts : List Token) (read : Reading Node) : Reading Node := do
  if ← isAtAny ts then return Node.empty else read

mutual

/-- The node that comes next; `inBlock` says whether it may be a block collection, and `mayDash`
whether it may be a list that is not indented. -/
def node : (fuel : Nat) → (inBlock mayDash : Bool) → Reading Node
  | 0, _, _ => failure
  | fuel + 1, inBlock, mayDash => do
    match ← peek with
    | some (.mention name) =>
      advance
      return .mention (← anchorOf name)
    | _ =>
      let (id, tag) ← properties
      let node ← content fuel inBlock mayDash tag (id.isSome || tag.isSome)
      match id with
      | some id => return .anchored id node
      | none => return node

/-- What follows an anchor and a tag. -/
def content : (fuel : Nat) → (inBlock mayDash : Bool) → Option Tag → (mayMiss : Bool) → Reading Node
  | 0, _, _, _, _ => failure
  | fuel + 1, inBlock, mayDash, tag, mayMiss => do
    match inBlock, mayDash, ← peek with
    | _, true, some .dash => return .list (← looseItems fuel)
    | _, _, some (.scalar style text) =>
      advance
      return .scalar (tagOfScalar (← get).version tag) style text
    | _, _, some .flowListStart =>
      advance
      return .list (← flowItems fuel true)
    | _, _, some .flowObjectStart =>
      advance
      return .object (← flowEntries fuel true)
    | true, _, some .listStart =>
      advance
      return .list (← items fuel)
    | true, _, some .objectStart =>
      advance
      return .object (← entries fuel)
    | _, _, _ => if mayMiss then return .scalar tag .plain "" else failure

/-- The items of a block list. -/
def items : (fuel : Nat) → Reading (List Node)
  | 0 => failure
  | fuel + 1 => do
    if ← accept .blockEnd then return []
    else if ← accept .dash then
      let item ← orEmpty [.dash, .blockEnd] (node fuel true false)
      return item :: (← items fuel)
    else failure

/-- The items of a block list that is not indented. -/
def looseItems : (fuel : Nat) → Reading (List Node)
  | 0 => failure
  | fuel + 1 => do
    if ← accept .dash then
      let item ← orEmpty [.dash, .key, .value, .blockEnd] (node fuel true false)
      return item :: (← looseItems fuel)
    else return []

/-- The entries of a block object.  In version 1.2 a key may be missing. -/
def entries : (fuel : Nat) → Reading (List (Node × Node))
  | 0 => failure
  | fuel + 1 => do
    if ← accept .blockEnd then return []
    else
      let hasMark ← accept .key
      if !hasMark && !((← get).version = .v12 && (← isAtAny [.value])) then failure
      let key ←
        if hasMark then orEmpty [.key, .value, .blockEnd] (node fuel true true)
        else pure Node.empty
      let value ←
        if ← accept .value then orEmpty [.key, .value, .blockEnd] (node fuel true true)
        else pure Node.empty
      return (key, value) :: (← entries fuel)

/-- The value of an entry of a flow collection, which ends with one of the tokens. -/
def flowValue : (fuel : Nat) → (ends : List Token) → Reading Node
  | 0, _ => failure
  | fuel + 1, ends => do
    if ← accept .value then orEmpty ends (node fuel false false) else return Node.empty

/-- The items of a flow list.  A marked key starts an object of one entry. -/
def flowItems : (fuel : Nat) → (isFirst : Bool) → Reading (List Node)
  | 0, _ => failure
  | fuel + 1, isFirst => do
    if ← accept .flowListEnd then return []
    else
      if !isFirst then
        if !(← accept .comma) then failure
      if ← accept .flowListEnd then return []
      else
        let item ←
          if ← accept .key then
            let isEmpty ← isAtAny [.value, .comma, .flowListEnd]
            let key ← if isEmpty then do { advance; pure Node.empty } else node fuel false false
            let value ← flowValue fuel [.comma, .flowListEnd]
            pure (.object [(key, value)])
          else node fuel false false
        return item :: (← flowItems fuel false)

/-- The entries of a flow object.  In version 1.2 a key may be missing. -/
def flowEntries : (fuel : Nat) → (isFirst : Bool) → Reading (List (Node × Node))
  | 0, _ => failure
  | fuel + 1, isFirst => do
    if ← accept .flowObjectEnd then return []
    else
      if !isFirst then
        if !(← accept .comma) then failure
      if ← accept .flowObjectEnd then return []
      else
        let ends := [Token.comma, .flowObjectEnd]
        let entry ←
          if ← accept .key then
            let key ← orEmpty (.value :: ends) (node fuel false false)
            pure (key, ← flowValue fuel ends)
          else if (← get).version = .v12 && (← isAtAny [.value]) then
            pure (Node.empty, ← flowValue fuel ends)
          else pure (← node fuel false false, Node.empty)
        return entry :: (← flowEntries fuel false)

end

/-! ## Documents -/

/-- The directives of a document.  In version 1.1 a handle may be given once; in version 1.2 only
the last directive counts. -/
def directives (hasVersion : Bool) (spaces : List (String × String)) :
    (v : Version) → List Token → Option (List (String × String) × List Token)
  | v, .version major minor :: ts =>
    if hasVersion || (v = .v11 && !(major = 1 && (minor = 1 || minor = 2))) then none
    else directives true (if v = .v12 then [] else spaces) v ts
  | v, .tagSpace handle space :: ts =>
    if v = .v11 then
      if (spaces.lookup handle).isSome then none
      else directives hasVersion (spaces ++ [(handle, space)]) v ts
    else directives hasVersion [(handle, space)] v ts
  | _, ts => some (spaces, ts)

/-- Whether a document that has been started ends without content. -/
def endsDocument : List Token → Bool
  | [] => true
  | .version _ _ :: _ | .tagSpace _ _ :: _ | .documentStart :: _ | .documentEnd :: _ => true
  | _ => false

/-- Whether the tokens start a document by its mark or by what stands before that. -/
def isMarked : List Token → Bool
  | .version _ _ :: _ | .tagSpace _ _ :: _ | .documentStart :: _ => true
  | _ => false

def isDocumentEnd : Token → Bool
  | .documentEnd => true
  | _ => false

/-- The only document among the tokens, if there is one.  In version 1.2 marks that end a document
may stand before it. -/
def document? (v : Version) (ts : List Token) : Option (Option Node) := do
  let ts := if v = .v12 then ts.dropWhile isDocumentEnd else ts
  if ts.isEmpty then some none
  else
    let hasMark := isMarked ts
    let (tagSpaces, ts) ← directives false [] v ts
    if hasMark && !(ts.head? = some .documentStart) then none
    let tokens := if hasMark then ts.drop 1 else ts
    let (node, o) ←
      if hasMark && endsDocument tokens then some (Node.empty, { version := v, tokens })
      else (node (4 * tokens.length + 8) true false).run { version := v, tokens, tagSpaces }
    if (o.tokens.dropWhile isDocumentEnd).isEmpty then some (some node) else none

end Outline

/-- The node that a text holds, if it holds one; a text holds one document at most. -/
def document? (v : Version) (text : String) : Option (Option Node) := do
  Outline.document? v (← tokens? v text)

end TenantAccess.Yaml
