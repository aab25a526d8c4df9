import TenantAccess.Text.Character
import TenantAccess.Text.Letter

/-!
# A file of variables

Lines `NAME=value` set what the environment does not.  A value may be quoted, may refer to other
variables and may be followed by a comment.  What stands before the first line that cannot be read
counts.
-/

namespace TenantAccess.Variables

/-! ## Statements

A statement ends with its line unless a quote is open there.  It also ends at a comment.
-/

/-- How the characters up to some point leave a statement. -/
inductive Spell where
  | plain | gap | escape | single | singleEscape | double | doubleEscape
deriving DecidableEq

namespace Spell

def plainNext (c : Char) : Spell :=
  if c = '\\' then escape else if c = '"' then double else if c = '\'' then single else plain

def next : Spell → Char → Spell
  | plain, c => if isBlank c && c ≠ '\n' && c ≠ '\r' then gap else plainNext c
  | gap, c => plainNext c
  | escape, _ => plain
  | single, c => if c = '\\' then singleEscape else if c = '\'' then plain else single
  | singleEscape, _ => single
  | double, c => if c = '\\' then doubleEscape else if c = '"' then plain else double
  | doubleEscape, _ => double

/-- The state behind a line; or what stands in the line before a comment, which follows a gap. -/
def after : Spell → (passed : List Char) → List Char → Spell ⊕ List Char
  | s, _, [] => .inl s
  | s, passed, c :: cs =>
    if s = gap ∧ c = '#' then .inr passed.reverse else after (s.next c) (c :: passed) cs

end Spell

/-- A statement without the end of its line. -/
def withoutBreak (cs : List Char) : List Char :=
  match cs.reverse with
  | '\n' :: '\r' :: rest | '\n' :: rest => rest.reverse
  | _ => cs

/-- The statements in some lines, of which the first goes on with `begun`; none for one that does
not end. -/
def statements (s : Spell) (begun : List Char) : List (List Char) → List (Option (List Char))
  | [] => if s = .plain then [] else [none]
  | line :: rest =>
    if ((begun ++ line).dropWhile isBlank).head? = some '#' then
      some [] :: statements .plain [] rest
    else
      match s.after [] line with
      | .inr before => some (begun ++ before) :: statements .plain [] rest
      | .inl .plain => some (withoutBreak (begun ++ line)) :: statements .plain [] rest
      | .inl s => statements s (begun ++ line) rest

/-- The lines of a text, each with the break that ends it. -/
def lines : List Char → List (List Char)
  | [] => []
  | '\n' :: cs => ['\n'] :: lines cs
  | c :: cs =>
    match cs, lines cs with
    | _ :: _, line :: rest => (c :: line) :: rest
    | _, rest => [c] :: rest

/-! ## Values -/

/-- What may come next in a value. -/
inductive Mode where
  | plain
  | double
  | single
  | escape (quoted : Bool)
  /-- The name of a variable, between braces or not, whose letters so far are reversed. -/
  | name (quoted braced : Bool) (letters : List Char)
  /-- Only a comment. -/
  | gap
  | comment

namespace Mode

def unquoted (quoted : Bool) : Mode := if quoted then double else plain

/-- One character further: what it adds to the value, and the mode behind it. -/
def next? (valueOf : List Char → List Char) : Mode → Char → Option (List Char × Mode)
  | comment, _ => some ([], comment)
  | gap, c =>
    if c = ' ' ∨ c = '\t' then some ([], gap) else if c = '#' then some ([], comment) else none
  | escape quoted, c =>
    if c ∈ ['\\', '\'', '"', '$', ' '] then some ([c], unquoted quoted)
    else if c = 'n' then some (['\n'], unquoted quoted)
    else none
  | single, c => if c = '\'' then some ([], plain) else some ([c], single)
  | name quoted braced letters, c =>
    if isLetter c || c.isDigit then some ([], name quoted braced (c :: letters))
    else if braced then
      if c = '\x7d' then some (valueOf letters.reverse, unquoted quoted)
      else some ([], name quoted true (c :: letters))
    else if c = '\x7b' && letters.isEmpty then some ([], name quoted true [])
    else if c = '$' then some (valueOf letters.reverse, name quoted false [])
    else some (valueOf letters.reverse ++ [c], unquoted quoted)
  | double, c =>
    if c = '$' then some ([], name true false [])
    else if c = '"' then some ([], plain)
    else if c = '\\' then some ([], escape true)
    else some ([c], double)
  | plain, c =>
    if c = '$' then some ([], name false false [])
    else if c = '\'' then some ([], single)
    else if c = '"' then some ([], double)
    else if c = '\\' then some ([], escape false)
    else if c = ' ' ∨ c = '\t' then some ([], gap)
    else some ([c], plain)

/-- What the end of a value adds to it; none if a quote or a brace is open. -/
def atEnd? (valueOf : List Char → List Char) : Mode → Option (List Char)
  | single | double | escape true | name true _ _ | name _ true _ => none
  | name _ _ letters => some (valueOf letters.reverse)
  | _ => some []

end Mode

/-- The value that some characters write. -/
def value? (valueOf : List Char → List Char) (mode : Mode) : List Char → Option (List Char)
  | [] => mode.atEnd? valueOf
  | c :: cs => do
    let (added, mode) ← mode.next? valueOf c
    return added ++ (← value? valueOf mode cs)

/-! ## Assignments -/

def isNameStart (c : Char) : Bool := c.isAlpha || c = '_'

def isNameChar (c : Char) : Bool := c.isAlphanum || c = '_' || c = '.'

/-- A name and what follows it, from the next character that is no blank. -/
def name? (cs : List Char) : Option (String × List Char) :=
  if cs.head?.any isNameStart then
    some (String.ofList (cs.takeWhile isNameChar), (cs.dropWhile isNameChar).dropWhile isBlank)
  else none

/-- The assignment in a statement, which may start with the word `export`: the name and the
characters of the value. -/
def assignment? (cs : List Char) : Option (String × List Char) := do
  let (name, rest) ← name? cs
  let (name, rest) ←
    if name = "export" ∧ rest.head? ≠ some '=' then name? rest else some (name, rest)
  match rest with
  | '=' :: value => some (name, value.dropWhile isBlank)
  | _ => none

/-- The environment after some statements. -/
def carryOut (environment : List (String × String)) (stored : List (String × String)) :
    List (Option (List Char)) → List (String × String)
  | [] => environment
  | statement? :: rest =>
    match statement?.map trimBlanks with
    | none => environment
    | some [] | some ('#' :: _) => carryOut environment stored rest
    | some statement =>
      let valueOf (name : List Char) : List Char :=
        let name := String.ofList name
        (((environment.lookup name).or (stored.lookup name)).getD "").toList
      let result? := do
        let (name, cs) ← assignment? statement
        let value ← if cs.head? = some '#' then some [] else value? valueOf .plain cs
        some (name, String.ofList value)
      match result? with
      | none => environment
      | some (name, value) =>
        let environment :=
          if (environment.lookup name).isSome then environment else environment ++ [(name, value)]
        carryOut environment ((name, value) :: stored) rest

/-- The environment together with what a file of variables sets. -/
def extend (environment : List (String × String)) (text : String) : List (String × String) :=
  let cs := match text.toList with
    | '\uFEFF' :: cs => cs
    | cs => cs
  carryOut environment [] (statements .plain [] (lines cs))

end TenantAccess.Variables
