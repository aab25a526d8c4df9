import TenantAccess.Yaml.Version

/-!
# Places in a text

A place knows its line and its column, for the nesting of a document shows in them.
-/

namespace TenantAccess.Yaml

structure Place where
  rest : List Char
  /-- The number of characters before. -/
  index : Nat := 0
  line : Nat := 0
  column : Nat := 0
  /-- Whether there are only blanks before on the line. -/
  isFresh : Bool := true

namespace Place

/-- Whether the next character is `c`. -/
def isAt (p : Place) (c : Char) : Bool := p.rest.head? = some c

def endsLine (v : Version) (p : Place) : Bool := v.endsLine p.rest

/-- Pass characters of the line. -/
def pass (n : Nat) (p : Place) : Place :=
  { p with
    rest := p.rest.drop n
    index := p.index + n
    column := p.column + n
    isFresh := p.isFresh && (p.rest.take n).all isPad }

/-- Pass the characters of the line that satisfy `f`. -/
def passWhile (f : Char → Bool) (p : Place) : Place := p.pass (p.rest.takeWhile f).length

/-- Pass a line end. -/
def newline (p : Place) : Place :=
  let n := match p.rest with
    | '\r' :: '\n' :: _ => 2
    | _ => 1
  ⟨p.rest.drop n, p.index + n, p.line + 1, 0, true⟩

/-- What a line end stands for in a text. -/
def breakText (p : Place) : List Char :=
  match p.rest with
  | '\u2028' :: _ => ['\u2028']
  | '\u2029' :: _ => ['\u2029']
  | _ => ['\n']

/-- Pass what is left of the line. -/
def endOfLine (v : Version) (p : Place) : Place := p.passWhile fun c ↦ !v.isBreak c

/-- Pass blanks and a comment, which in version 1.2 has to be set off by a blank. -/
def trail? (v : Version) (p : Place) : Option Place :=
  let q := p.passWhile isPad
  if q.isAt '#' then
    if v = .v12 ∧ q.index = p.index then none else some (q.endOfLine v)
  else some q

/-- Whether the line starts or ends a document. -/
def isBoundary (v : Version) (p : Place) : Bool := p.column = 0 && v.startsWithBoundary p.rest

end Place

end TenantAccess.Yaml
