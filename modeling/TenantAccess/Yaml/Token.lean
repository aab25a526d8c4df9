import TenantAccess.Text.Character
import TenantAccess.Yaml.Place

/-!
# Tokens

The marks, names and scalars that a text consists of.
-/

namespace TenantAccess.Yaml

/-- How a scalar is written. -/
inductive ScalarStyle where
  | plain | quoted
  /-- A block that keeps its lines. -/
  | literal
  /-- A block that folds them. -/
  | folded
deriving DecidableEq

inductive Token where
  | version (major minor : Nat)
  /-- Tags with the handle start with `space`. -/
  | tagSpace (handle space : String)
  | documentStart | documentEnd
  | listStart | objectStart | blockEnd
  | flowListStart | flowListEnd | flowObjectStart | flowObjectEnd
  | dash | comma | key | value
  | anchor (name : String)
  | mention (name : String)
  | tag (handle name : String)
  | scalar (style : ScalarStyle) (text : String)
deriving DecidableEq

/-! ## Anchors -/

/-- Characters in the names of anchors. -/
def isAnchorChar (v : Version) (c : Char) : Bool :=
  match v with
  | .v11 => isNameChar c
  | .v12 => !isPad c && !v.isBreak c && !isFlowMark c && c ≠ '\ufeff'

/-- Whether the name of an anchor may end here. -/
def endsAnchor (v : Version) (cs : List Char) : Bool :=
  v = .v12 || v.endsWord cs || cs.head?.any ("?:,]\x7d%@\x60".contains ·)

/-- The name behind the mark of an anchor or a mention of it. -/
def anchorName? (v : Version) (p : Place) : Option (String × Place) :=
  let p := p.pass 1
  let name := p.rest.takeWhile (isAnchorChar v)
  let p := p.pass name.length
  if name.isEmpty || !endsAnchor v p.rest then none else some (String.ofList name, p)

/-! ## Tags -/

/-- Characters in tags, which may stand between angle brackets. -/
def isTagChar (v : Version) (isVerbatim : Bool) (c : Char) : Bool :=
  isNameChar c || ";/?:@&=+$.~*'()%".contains c || (c = '!' && (v = .v11 || isVerbatim)) ||
    (c = '#' && v = .v12) || (isVerbatim && (c = ',' || c = '[' || c = ']'))

/-- How many bytes a character takes whose first byte is `n`. -/
def byteCount? (n : Nat) : Option Nat :=
  if n < 0x80 then some 1
  else if 0xC0 ≤ n ∧ n < 0xE0 then some 2
  else if 0xE0 ≤ n ∧ n < 0xF0 then some 3
  else if 0xF0 ≤ n ∧ n < 0xF8 then some 4
  else none

/-- The byte that a percent sign and two digits write. -/
def byte? : List Char → Option (Nat × List Char)
  | '%' :: a :: b :: rest => do return (← natOfDigits? 16 [a, b], rest)
  | _ => none

/-- Further bytes of a character. -/
def furtherBytes? : (count : Nat) → List Char → Option (List Char)
  | 0, cs => some cs
  | count + 1, cs => do
    let (n, rest) ← byte? cs
    if 0x80 ≤ n ∧ n < 0xC0 then furtherBytes? count rest else none

/-- The character that is written in bytes, and how many there are.  Those beyond ASCII are not told
from each other; version 1.2 takes two bytes at most, and not those whose number stands for no
character. -/
def byteChar? (v : Version) (cs : List Char) : Option (Char × Nat × List Char) := do
  let (n, rest) ← byte? cs
  let count ← byteCount? n
  let rest ← furtherBytes? (count - 1) rest
  if count = 1 then some (Char.ofNat n, 1, rest)
  else if v = .v12 ∧ (2 < count ∨ 0xD8 ≤ n) then none
  else some ('\ufffd', count, rest)

/-- The characters of a tag, and the number of characters that write them. -/
def tagChars? (v : Version) (isVerbatim : Bool) :
    (fuel : Nat) → List Char → Option (List Char × Nat)
  | 0, _ => none
  | _ + 1, [] => some ([], 0)
  | fuel + 1, c :: cs =>
    if !isTagChar v isVerbatim c then some ([], 0)
    else if c = '%' then do
      let (d, count, rest) ← byteChar? v (c :: cs)
      let (ds, width) ← tagChars? v isVerbatim fuel rest
      some (d :: ds, 3 * count + width)
    else do
      let (ds, width) ← tagChars? v isVerbatim fuel cs
      some (c :: ds, width + 1)

/-- An exclamation mark, a name, and a second mark if there is one; nothing else starts a tag. -/
def tagHandle : List Char → List Char
  | '!' :: rest =>
    let name := rest.takeWhile isNameChar
    '!' :: name ++ if (rest.drop name.length).head? = some '!' then ['!'] else []
  | _ => []

/-- Whether the handle has two marks. -/
def isFullHandle (handle : List Char) : Bool :=
  2 ≤ handle.length && handle.getLast? = some '!'

/-- Whether a tag may end here. -/
def endsTag (v : Version) (inFlow : Bool) (cs : List Char) : Bool :=
  v.endsWord cs || (inFlow && cs.head?.any fun c ↦ c = ',' || (v = .v12 && isFlowMark c))

/-- The tag at a place; `size` is the length of the text at least. -/
def tag? (v : Version) (size : Nat) (inFlow : Bool) (p : Place) : Option (Token × Place) := do
  let (handle, name, q) ←
    if (p.rest.drop 1).head? = some '<' then do
      let p := p.pass 2
      let (name, width) ← tagChars? v true (size + 1) p.rest
      let q := p.pass width
      if !q.isAt '>' || (v = .v11 && name.isEmpty) then none else some ([], name, q.pass 1)
    else do
      let handle := tagHandle p.rest
      let p := p.pass handle.length
      let (name, width) ← tagChars? v false (size + 1) p.rest
      let q := p.pass width
      if isFullHandle handle then if name.isEmpty then none else some (handle, name, q)
      else
        let name := handle.drop 1 ++ name
        some (if name.isEmpty then ([], ['!'], q) else (['!'], name, q))
  if endsTag v inFlow q.rest then some (.tag (String.ofList handle) (String.ofList name), q)
  else none

/-! ## Directives -/

/-- A number of at most nine digits. -/
def versionNumber? (p : Place) : Option (Nat × Place) :=
  let digits := p.rest.takeWhile Char.isDigit
  if 9 < digits.length then none
  else (natOfDigits? 10 digits).map (·, p.pass digits.length)

/-- The version of a document. -/
def versionValue? (p : Place) : Option (Token × Place) := do
  let (major, p) ← versionNumber? p
  if !p.isAt '.' then none
  let (minor, p) ← versionNumber? (p.pass 1)
  some (.version major minor, p)

/-- The start of a tag, of which a full one has a character at least. -/
def tagStart? (v : Version) (size : Nat) (p : Place) : Option (List Char × Place) := do
  let (start, width) ← tagChars? v true (size + 1) p.rest
  if v = .v12 && !p.isAt '!' && !p.rest.head?.any (isTagChar v false) then none
  else if start.isEmpty then none
  else some (start, p.pass width)

/-- A handle and what the tags with it start with. -/
def tagSpaceValue? (v : Version) (size : Nat) (p : Place) : Option (Token × Place) := do
  let handle := tagHandle p.rest
  if handle.isEmpty || !(handle.length = 1 || isFullHandle handle) then none
  let p := p.pass handle.length
  if v = .v11 && !p.rest.head?.any isPad then none
  let (start, p) ← tagStart? v size (p.passWhile isPad)
  if v.endsWord p.rest then
    some (.tagSpace (String.ofList handle) (String.ofList start), p)
  else none

/-- The directive at a place, which takes up the line.  In version 1.2 one that is not known tells
nothing. -/
def directive? (v : Version) (size : Nat) (p : Place) : Option (Token × Place) := do
  let p := p.pass 1
  let name := p.rest.takeWhile isNameChar
  let p := p.pass name.length
  if name.isEmpty || !v.endsWord p.rest then none
  let (token, p) ←
    match String.ofList name with
    | "YAML" => versionValue? (p.passWhile isPad)
    | "TAG" => tagSpaceValue? v size (p.passWhile isPad)
    | _ => if v = .v11 then none else some (.tagSpace "" "", p.endOfLine v)
  let p ← p.trail? v
  if p.endsLine v then some (token, if p.rest.isEmpty then p else p.newline) else none

end TenantAccess.Yaml
