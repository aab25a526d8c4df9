/-!
# Versions of YAML

Version 1.1 counts more characters as line ends than 1.2 does, and it does not take every character.
-/

namespace TenantAccess.Yaml

inductive Version where
  | v11 | v12
deriving DecidableEq

def isPad (c : Char) : Bool := c = ' ' || c = '\t'

/-- Marks inside flow collections. -/
def isFlowMark (c : Char) : Bool := ",[]\x7b\x7d".contains c

/-- Characters in the names of directives and tag handles. -/
def isNameChar (c : Char) : Bool := c.isAlphanum || c = '_' || c = '-'

namespace Version

def isBreak (v : Version) (c : Char) : Bool :=
  c = '\n' || c = '\r' || (v = v11 && (c = '\x85' || c = '\u2028' || c = '\u2029'))

/-- Whether a text ends here or a line does. -/
def endsLine (v : Version) : List Char → Bool
  | [] => true
  | c :: _ => v.isBreak c

/-- Whether a text ends here, or a line, or a word. -/
def endsWord (v : Version) : List Char → Bool
  | [] => true
  | c :: _ => isPad c || v.isBreak c

/-- Version 1.1 takes the characters that can be printed, tabs and line ends. -/
def admits : Version → Char → Bool
  | v12, _ => true
  | v11, c =>
    let n := c.toNat
    n = 0x09 || n = 0x0A || n = 0x0D || (0x20 ≤ n && n ≤ 0x7E) || n = 0x85 ||
      (0xA0 ≤ n && n ≤ 0xFFFD) || 0x10000 ≤ n

/-- The characters that are read: in version 1.2 those before the first null character. -/
def readable? (v : Version) (text : String) : Option (List Char) :=
  match v with
  | v11 => if text.toList.all v11.admits then some text.toList else none
  | v12 => some (text.toList.takeWhile (· ≠ '\x00'))

/-- Whether a line starts with three of the character `c` that stand for themselves. -/
def startsWithMark (v : Version) (c : Char) : List Char → Bool
  | a :: b :: d :: rest => a = c && b = c && d = c && v.endsWord rest
  | _ => false

/-- Whether a line starts or ends a document. -/
def startsWithBoundary (v : Version) (cs : List Char) : Bool :=
  v.startsWithMark '-' cs || v.startsWithMark '.' cs

end Version

end TenantAccess.Yaml
