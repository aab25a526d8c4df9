import TenantAccess.Text.Character
import TenantAccess.Yaml.Gap

/-!
# Scalars in quotes

In single quotes a quote is written twice.  In double quotes a backslash starts an escape, and in
front of a line end it joins the lines.
-/

namespace TenantAccess.Yaml

def escape? (c : Char) : Option Char :=
  match c with
  | '0' => some '\x00'
  | 'a' => some '\x07'
  | 'b' => some '\x08'
  | 't' | '\t' => some '\t'
  | 'n' => some '\n'
  | 'v' => some '\x0b'
  | 'f' => some '\x0c'
  | 'r' => some '\r'
  | 'e' => some '\x1b'
  | ' ' | '"' | '/' | '\\' => some c
  | 'N' => some '\x85'
  | '_' => some '\xa0'
  | 'L' => some '\u2028'
  | 'P' => some '\u2029'
  | _ => none

/-- A word of a quoted scalar. -/
structure QuotedWord where
  text : List Char
  /-- The number of characters that write it. -/
  size : Nat
  /-- Whether it is followed by a line end with a backslash in front. -/
  isJoined : Bool := false

def QuotedWord.cons (c : Char) (size : Nat) (w : QuotedWord) : QuotedWord :=
  { w with text := c :: w.text, size := size + w.size }

/-- The word at a place, up to a blank, a line end or the closing quote. -/
def quotedWord? (v : Version) (quote : Char) : List Char → Option QuotedWord
  | [] => some ⟨[], 0, false⟩
  | '\\' :: 'x' :: a :: b :: rest =>
    if quote = '"' then do
      return (← quotedWord? v quote rest).cons (← charOfHex? [a, b]) 4
    else (quotedWord? v quote ('x' :: a :: b :: rest)).map (·.cons '\\' 1)
  | '\\' :: 'u' :: a :: b :: c :: d :: rest =>
    if quote = '"' then do
      return (← quotedWord? v quote rest).cons (← charOfHex? [a, b, c, d]) 6
    else (quotedWord? v quote ('u' :: a :: b :: c :: d :: rest)).map (·.cons '\\' 1)
  | '\\' :: 'U' :: a :: b :: c :: d :: e :: f :: g :: h :: rest =>
    if quote = '"' then do
      return (← quotedWord? v quote rest).cons (← charOfHex? [a, b, c, d, e, f, g, h]) 10
    else
      (quotedWord? v quote ('U' :: a :: b :: c :: d :: e :: f :: g :: h :: rest)).map
        (·.cons '\\' 1)
  | '\\' :: c :: rest =>
    if quote ≠ '"' then (quotedWord? v quote (c :: rest)).map (·.cons '\\' 1)
    else if v.isBreak c then some ⟨[], 0, true⟩
    else do return (← quotedWord? v quote rest).cons (← escape? c) 2
  | '\x27' :: '\x27' :: rest =>
    if quote = '\x27' then (quotedWord? v quote rest).map (·.cons '\x27' 2)
    else (quotedWord? v quote ('\x27' :: rest)).map (·.cons '\x27' 1)
  | c :: rest =>
    if c = quote || isPad c || v.isBreak c then some ⟨[], 0, false⟩
    else if c = '\\' && quote = '"' then none
    else (quotedWord? v quote rest).map (·.cons c 1)

/-- A tab before the margin is refused in version 1.2. -/
def quotedTab (v : Version) (margin : Int) (p : Place) : Option Place :=
  if v = .v12 ∧ p.column < margin then none else some (p.pass 1)

/-- What follows the opening quote up to the closing one, its characters so far last first. -/
def quoted? (v : Version) (quote : Char) (margin : Int) :
    (fuel : Nat) → (done : List Char) → Place → Option (String × Place)
  | 0, _, _ => none
  | fuel + 1, done, p =>
    if p.isBoundary v || p.rest.isEmpty || (v = .v12 && p.column < margin) then none
    else do
      let w ← quotedWord? v quote p.rest
      let done := w.text.reverse ++ done
      let p := p.pass w.size
      if p.isAt quote then some (String.ofList done.reverse, p.pass 1)
      else
        let gap : Gap :=
          if w.isJoined then { place := (p.pass 1).newline, isBroken := true } else { place := p }
        let gap ← gap.follow? v (quotedTab v margin) (fuel + 1)
        quoted? v quote margin fuel (gap.text.reverse ++ done) gap.place

/-- In version 1.2 only what may follow a key or a value may follow the closing quote. -/
def mayFollowQuote (inFlow isOneLine : Bool) (p : Place) : Bool :=
  match p.rest with
  | [] => true
  | c :: _ =>
    Version.v12.isBreak c || (c = ':' && (inFlow || isOneLine)) ||
      (inFlow && (c = ',' || c = ']' || c = '\x7d'))

/-- The scalar in quotes at a place; `size` is the length of the text at least. -/
def quotedScalar? (v : Version) (size : Nat) (inFlow : Bool) (margin : Int) (p : Place) :
    Option (String × Place) := do
  let quote ← p.rest.head?
  let (text, q) ← quoted? v quote margin (size + 1) [] (p.pass 1)
  if v = .v11 then some (text, q)
  else
    let q ← q.trail? v
    if mayFollowQuote inFlow (p.line = q.line) q then some (text, q) else none

end TenantAccess.Yaml
