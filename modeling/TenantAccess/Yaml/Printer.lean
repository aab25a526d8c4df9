import TenantAccess.Json.Printer
import TenantAccess.Yaml.Version
import TenantAccess.Yaml.Word

/-!
# Writing YAML text

Documents are written in block style, lists without indentation below their key.  A text is plain
unless it would read as something else; then it stands in single quotes, in double quotes if it
holds characters that have to be escaped, or as a block if it runs over lines.
-/

namespace TenantAccess.Yaml

/-- A line of the output.  It may end with a line end of the text that it belongs to. -/
structure Line where
  text : String
  ending : Char := '\n'

def isBreak (c : Char) : Bool := Version.v11.isBreak c

/-- Characters that need no escape. -/
def isPrintable (c : Char) : Bool :=
  let n := c.toNat
  n = 0x0A || (0x20 ≤ n && n ≤ 0x7E) || (0xA0 ≤ n && n ≤ 0xFFFD && n ≠ 0xFEFF) || 0x10000 ≤ n

def isBlankOrEnd : Option Char → Bool
  | none => true
  | some c => isPad c || isBreak c

/-- Whether the first character of a plain text marks something else. -/
def startsAmiss (c : Char) (next : Option Char) : Bool :=
  "#,[]\x7b\x7d&*!|>'\"%@\x60".contains c ||
    ((c = '?' || c = ':' || c = '-') && isBlankOrEnd next)

/-- Whether a plain text, after `previous`, holds a mark of something else. -/
def runsAmiss (previous : Char) : List Char → Bool
  | [] => false
  | c :: rest =>
    (c = ':' && isBlankOrEnd rest.head?) || (c = '#' && isBlankOrEnd (some previous)) ||
      runsAmiss c rest

/-- Whether the text may stand without quotes, whatever it then reads as. -/
def mayBePlain (cs : List Char) : Bool :=
  match cs with
  | [] => true
  | c :: rest =>
    !startsAmiss c rest.head? && !runsAmiss c rest && c ≠ ' ' && cs.getLast? ≠ some ' ' &&
      cs.all (fun c ↦ isPrintable c && !isBreak c) &&
      cs.take 3 ≠ ['-', '-', '-'] && cs.take 3 ≠ ['.', '.', '.']

/-- Whether neighbours in the text are so related. -/
def hasNeighbours (f : Char → Char → Bool) (cs : List Char) : Bool :=
  (cs.zip (cs.drop 1)).any fun (a, b) ↦ f a b

def hasBlankBeforeBreak (cs : List Char) : Bool := hasNeighbours (fun a b ↦ a = ' ' && isBreak b) cs

def hasBreakBeforeBlank (cs : List Char) : Bool := hasNeighbours (fun a b ↦ isBreak a && b = ' ') cs

/-- Whether the text may stand in single quotes. -/
def mayBeSingleQuoted (cs : List Char) : Bool :=
  cs.all isPrintable && !hasBlankBeforeBreak cs && !hasBreakBeforeBlank cs

/-- Whether the text may be written as a block. -/
def mayBeBlock (cs : List Char) : Bool :=
  cs.all isPrintable && cs.getLast? ≠ some ' ' && !hasBlankBeforeBreak cs

def hexText (width n : Nat) : List Char :=
  let ds := (Nat.toDigits 16 n).map Char.toUpper
  List.replicate (width - ds.length) '0' ++ ds

/-- A character inside double quotes. -/
def escaped (c : Char) : List Char :=
  if c = '"' then ['\\', '"']
  else if c = '\\' then ['\\', '\\']
  else if isPrintable c && !isBreak c then [c]
  else
    match c.toNat with
    | 0x00 => ['\\', '0']
    | 0x07 => ['\\', 'a']
    | 0x08 => ['\\', 'b']
    | 0x09 => ['\\', 't']
    | 0x0A => ['\\', 'n']
    | 0x0B => ['\\', 'v']
    | 0x0C => ['\\', 'f']
    | 0x0D => ['\\', 'r']
    | 0x1B => ['\\', 'e']
    | 0x85 => ['\\', 'N']
    | 0x2028 => ['\\', 'L']
    | 0x2029 => ['\\', 'P']
    | n =>
      if n < 0x100 then '\\' :: 'x' :: hexText 2 n
      else if n < 0x10000 then '\\' :: 'u' :: hexText 4 n
      else '\\' :: 'U' :: hexText 8 n

def doubleQuoted (cs : List Char) : String := String.ofList ('"' :: cs.flatMap escaped ++ ['"'])

/-- The lines of a text, each with the character that ends it, and what follows the last of those,
which has taken up `part`, last first. -/
def splitLines (part : List Char) : List Char → List Line × String
  | [] => ([], String.ofList part.reverse)
  | c :: cs =>
    if isBreak c then
      let (lines, rest) := splitLines [] cs
      (⟨String.ofList part.reverse, c⟩ :: lines, rest)
    else splitLines (c :: part) cs

def indented (lines : List Line) : List Line :=
  lines.map fun line ↦ if line.text = "" then line else { line with text := "  " ++ line.text }

/-- A text in single quotes, of which the lines below the first are indented. -/
def singleQuoted (cs : List Char) : Line × List Line :=
  let (lines, rest) :=
    splitLines [] ('\x27' :: cs.flatMap (fun c ↦ if c = '\x27' then [c, c] else [c]) ++ ['\x27'])
  match lines ++ [⟨rest, '\n'⟩] with
  | [] => (⟨"", '\n'⟩, [])
  | first :: below => (first, indented below)

/-- The mark of a block: what its first line looks like, and how many line ends close it. -/
def blockMark (cs : List Char) : String :=
  let hint := if cs.head?.any fun c ↦ c = ' ' || isBreak c then "2" else ""
  let chomp :=
    if !cs.getLast?.any isBreak then "-"
    else if cs.length = 1 || cs.dropLast.getLast?.any isBreak then "+"
    else ""
  "|" ++ hint ++ chomp

def blockLines (cs : List Char) : List Line :=
  let (lines, rest) := splitLines [] cs
  indented (lines ++ if rest = "" then [] else [⟨rest, '\n'⟩])

/-- What stands behind the key of a text, and the lines below. -/
def textLines (s : String) : Line × List Line :=
  let cs := s.toList
  if cs.contains '\n' then
    if mayBeBlock cs then (⟨blockMark cs, '\n'⟩, blockLines cs) else (⟨doubleQuoted cs, '\n'⟩, [])
  else if !isSpecial s && mayBePlain cs then (⟨s, '\n'⟩, [])
  else if mayBeSingleQuoted cs then singleQuoted cs
  else (⟨doubleQuoted cs, '\n'⟩, [])

/-- A key on one line. -/
def keyText (s : String) : String :=
  let cs := s.toList
  if !isSpecial s && mayBePlain cs then s
  else if mayBeSingleQuoted cs && !cs.any isBreak then (singleQuoted cs).1.text
  else doubleQuoted cs

/-- A scalar or an empty container: what stands behind the key, and the lines below. -/
def ownLine? : Json → Option (Line × List Line)
  | .str s => some (textLines s)
  | .arr (_ :: _) | .obj (_ :: _) => none
  | j => some (⟨Json.scalarText j, '\n'⟩, [])

/-- Put a text before the first line. -/
def startWith (s : String) (first : Line) (below : List Line) : List Line :=
  { first with text := s ++ first.text } :: below

/-- The lines of a list entry that is a list or an object. -/
def dashed : List Line → List Line
  | [] => []
  | first :: rest => startWith "- " first (indented rest)

mutual

/-- The lines of a document. -/
def lines : Json → List Line
  | .arr (j :: rest) => elementLines (j :: rest)
  | .obj (e :: rest) => memberLines (e :: rest)
  | j =>
    match ownLine? j with
    | some (first, below) => first :: below
    | none => []

def elementLines : List Json → List Line
  | [] => []
  | j :: rest =>
    (match ownLine? j with
    | some (first, below) => startWith "- " first below
    | none => dashed (lines j)) ++ elementLines rest

def memberLines : List (String × Json) → List Line
  | [] => []
  | (key, j) :: rest =>
    (match ownLine? j, j with
    | some (first, below), _ => startWith (keyText key ++ ": ") first below
    | none, .arr _ => ⟨keyText key ++ ":", '\n'⟩ :: lines j
    | none, _ => ⟨keyText key ++ ":", '\n'⟩ :: indented (lines j)) ++ memberLines rest

end

def print (j : Json) : String :=
  String.join ((lines j).map fun line ↦ line.text.push line.ending)

end TenantAccess.Yaml
