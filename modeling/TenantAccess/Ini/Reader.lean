import TenantAccess.Json.Basic
import TenantAccess.Text.Character

/-!
# Reading INI text

A name in brackets opens a section, and `=` or `:` stands between a key and its text.  A section
becomes an object of texts, and the keys before the first one belong to the document itself.
-/

namespace TenantAccess.Ini

/-- What a character stands for behind a backslash. -/
def escaped : Char → Char
  | '0' => '\x00'
  | 'a' => '\x07'
  | 'b' => '\x08'
  | 't' => '\t'
  | 'r' => '\r'
  | 'n' => '\n'
  | c => c

/-- The character numbered by hexadecimal digits, the first of which may be a plus sign. -/
def charOfCode? : List Char → Option Char
  | '+' :: ds => charOfHex? ds
  | ds => charOfHex? ds

/-- The text up to a character at which `stop` holds, its characters so far last first, and what
follows from that character on.  The end of the document ends the text only if it is `last`.  A line
end behind a backslash stands for nothing, and neither does the character after it. -/
def textTo (stop : Char → Bool) (last : Bool) (acc : List Char) :
    List Char → Option (List Char × List Char)
  | [] => if last then some (acc.reverse, []) else none
  | ['\\'] => none
  | ['\\', '\n'] => if last then some (acc.reverse, []) else none
  | '\\' :: '\n' :: _ :: rest => textTo stop last acc rest
  | '\\' :: 'x' :: a :: b :: c :: d :: rest => do
    textTo stop last ((← charOfCode? [a, b, c, d]) :: acc) rest
  | '\\' :: c :: rest => if c = 'x' then none else textTo stop last (escaped c :: acc) rest
  | c :: rest =>
    if stop c then some (acc.reverse, c :: rest) else textTo stop last (c :: acc) rest

def isLineEnd (c : Char) : Bool := c = '\n' || c = '\r'

def line? (cs : List Char) : Option (List Char × List Char) := textTo isLineEnd true [] cs

/-- The text of a key: in quotes of either kind, or all that the line still holds. -/
def value? (cs : List Char) : Option (String × List Char) := do
  let (text, rest) ←
    match cs.dropWhile fun c ↦ isBlank c && !isLineEnd c with
    | [] => some ([], [])
    | q :: cs =>
      if q = '"' || q = '\'' then do
        let (quoted, cs) ← textTo (· = q) false [] cs
        let (after, rest) ← line? (cs.drop 1)
        some (quoted ++ after, rest)
      else line? (q :: cs)
  some (String.ofList (trimBlanks text), rest)

/-- A document in the making. -/
structure Draft where
  fields : List (String × Json) := []
  /-- The section that is open, with its entries so far. -/
  opened? : Option (String × List (String × Json)) := none

namespace Draft

def close (d : Draft) : List (String × Json) :=
  match d.opened? with
  | some (name, entries) => Json.setMember name (.obj entries) d.fields
  | none => d.fields

def openSection (name : String) (d : Draft) : Draft := ⟨d.close, some (name, [])⟩

def add (key text : String) (d : Draft) : Draft :=
  match d.opened? with
  | some (name, entries) =>
    { d with opened? := some (name, Json.setMember key (.str text) entries) }
  | none => { d with fields := Json.setMember key (.str text) d.fields }

end Draft

/-- Read the rest of a document, in at most `fuel` headers, entries and comments.  A comment begins
in the first column, as `atStart` says, or it is none. -/
def entries (d : Draft) (atStart : Bool) : Nat → List Char → Option Draft
  | 0, _ => none
  | fuel + 1, cs =>
    let blanks := cs.takeWhile isBlank
    let atStart : Bool := match blanks.getLast? with
      | some c => c = '\n'
      | none => atStart
    match cs.dropWhile isBlank with
    | [] => some d
    | c :: cs =>
      if c = ';' || c = '#' then
        if atStart then entries d false fuel (cs.dropWhile (· ≠ '\n')) else none
      else if c = '[' then do
        let (name, cs) ← textTo (· = ']') false [] cs
        entries (d.openSection (String.ofList (trimBlanks name))) false fuel (cs.drop 1)
      else do
        let (key, cs) ← textTo (fun c ↦ c = '=' || c = ':') false [] (c :: cs)
        let key := String.ofList (trimBlanks key)
        if key.isEmpty then none
        let (text, cs) ← value? (cs.drop 1)
        entries (d.add key text) false fuel cs

/-- The document that a text is. -/
def parse (text : String) : Option Json :=
  (entries {} true (text.length + 1) text.toList).map fun d ↦ .obj d.close

end TenantAccess.Ini
