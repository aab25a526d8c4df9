import TenantAccess.Yaml.Block
import TenantAccess.Yaml.Plain
import TenantAccess.Yaml.Quoted
import TenantAccess.Yaml.Token

/-!
# From text to tokens

What stands before a colon on its line is a key, which shows only at the colon: then a token for the
key is put in front of it.  Where a list or an object starts or ends, the columns say outside flow
collections.
-/

namespace TenantAccess.Yaml

/-- Something that may turn out to be a key. -/
structure KeyCandidate where
  isPossible : Bool := false
  /-- Whether nothing but a key may stand here. -/
  isRequired : Bool := false
  /-- The number of tokens before it. -/
  number : Nat := 0
  index : Nat := 0
  line : Nat := 0
  column : Nat := 0

/-- A key takes one line and at most `1024` characters. -/
def KeyCandidate.isLate (k : KeyCandidate) (p : Place) : Bool :=
  k.isPossible && (k.line < p.line || k.index + 1024 < p.index)

structure Lexer where
  version : Version
  /-- The length of the text. -/
  size : Nat
  place : Place
  /-- The tokens so far, last first. -/
  done : List Token := []
  /-- The number of tokens so far. -/
  count : Nat := 0
  mayStartKey : Bool := true
  /-- The candidate of the innermost flow collection. -/
  candidate : KeyCandidate := {}
  /-- The candidates of the collections around it. -/
  outer : List KeyCandidate := []
  /-- The column of the innermost block collection; `-1` outside all. -/
  indent : Int := -1
  /-- The indentations around it, each with whether a token ends it. -/
  indents : List (Int × Bool) := []
  /-- Where a colon may follow a key without a blank behind it. -/
  colonAt : Option Nat := none
  /-- Whether a flow object or a marked key has started that no implicit object has ended. -/
  hasFlowObject : Bool := false
  /-- Whether an object without braces is open in a flow list. -/
  isImplicit : Bool := false

namespace Lexer

def inFlow (l : Lexer) : Bool := !l.outer.isEmpty

def emit (t : Token) (l : Lexer) : Lexer := { l with done := t :: l.done, count := l.count + 1 }

/-- Put a token behind the first `number` tokens. -/
def insertAt (number : Nat) (t : Token) (l : Lexer) : Lexer :=
  { l with done := l.done.insertIdx (l.count - number) t, count := l.count + 1 }

def pass (n : Nat) (l : Lexer) : Lexer := { l with place := l.place.pass n }

/-- Pass blanks and a comment in version 1.2. -/
def trail? (l : Lexer) : Option Lexer :=
  if l.version = .v11 then some l
  else (l.place.trail? l.version).map fun p ↦ { l with place := p }

/-! ## Candidates for keys -/

/-- What would have been the candidate is none; that fails if it had to be a key. -/
def dropKey? (l : Lexer) : Option Lexer :=
  if l.candidate.isPossible && l.candidate.isRequired then none
  else some { l with candidate := { l.candidate with isPossible := false } }

def isBlockIndent (l : Lexer) : Bool := l.indents.head?.any (·.2)

/-- What starts here may be a key, if one may start here. -/
def saveKey? (l : Lexer) : Option Lexer :=
  if !l.mayStartKey then some l
  else do
    let l ← if l.version = .v11 then l.dropKey? else some l
    some { l with
      candidate :=
        { isPossible := true
          isRequired := !l.inFlow && l.indent = l.place.column && l.isBlockIndent
          number := l.count
          index := l.place.index
          line := l.place.line
          column := l.place.column } }

/-- Give up the candidates that are late; in version 1.2 none is inside a flow collection. -/
def expireKeys? (l : Lexer) : Option Lexer :=
  if l.version = .v12 && l.inFlow then some l
  else if (l.candidate :: l.outer).any fun k ↦ k.isLate l.place && k.isRequired then none
  else
    let settle (k : KeyCandidate) := { k with isPossible := k.isPossible && !k.isLate l.place }
    some { l with candidate := settle l.candidate, outer := l.outer.map settle }

/-! ## Indentation -/

/-- End the collections that start behind a column; the indentations given are those of `l`. -/
def closeTo (column : Int) : List (Int × Bool) → Lexer → Lexer
  | [], l => l
  | (indent, isBlock) :: indents, l =>
    if l.indent ≤ column then l
    else
      let l := { l with indent, indents }
      closeTo column indents (if isBlock then l.emit .blockEnd else l)

def closeBlocks (column : Int) (l : Lexer) : Lexer :=
  if l.inFlow then l else closeTo column l.indents l

/-- Start a collection in a column unless the innermost one stands there, with a token behind the
first `number` tokens or, if no number is given, behind all. -/
def openBlock (column : Int) (number : Option Nat) (t : Token) (l : Lexer) : Lexer :=
  if l.inFlow then l
  else
    let l : Lexer := match l.indents with
      | (indent, false) :: indents => if l.indent ≤ column then { l with indent, indents } else l
      | _ => l
    if l.indent < column then
      let l := { l with indents := (l.indent, true) :: l.indents, indent := column }
      l.insertAt (number.getD l.count) t
    else l

/-- In version 1.2 what follows has to be indented by one column more. -/
def loosen (l : Lexer) : Lexer :=
  if l.version = .v12 && !l.inFlow && l.isBlockIndent then
    { l with indents := (l.indent, false) :: l.indents, indent := l.indent + 1 }
  else l

/-- Take back the indentations that no token ends; those given are those of `l`. -/
def tightenFrom : List (Int × Bool) → Lexer → Lexer
  | (indent, false) :: indents, l => tightenFrom indents { l with indent, indents }
  | _, l => l

def tighten (l : Lexer) : Lexer := tightenFrom l.indents l

/-! ## Between tokens -/

/-- Pass a line end; outside flow collections a key may start behind it. -/
def newline (l : Lexer) : Lexer :=
  { l with place := l.place.newline, mayStartKey := l.mayStartKey || !l.inFlow }

/-- Whether a tab stands where only the indentation of a block may. -/
def isAtBadTab (l : Lexer) : Bool :=
  l.version = .v12 && !l.indents.isEmpty && l.place.isFresh && l.place.column < l.indent

/-- Whether a tab may stand here in version 1.1. -/
def mayPassTab (l : Lexer) : Bool := l.version = .v12 || l.inFlow || !l.mayStartKey

/-- Pass blanks, comments and line ends. -/
def skip? : (fuel : Nat) → Lexer → Option Lexer
  | 0, _ => none
  | fuel + 1, l =>
    match l.place.rest with
    | [] => some l
    | c :: _ =>
      if c = '\t' && l.isAtBadTab then do
        let l ← l.trail?
        if l.place.endsLine l.version then skip? fuel l else none
      else if c = ' ' || (c = '\t' && l.mayPassTab) then skip? fuel (l.pass 1)
      else if c = '#' then skip? fuel { l with place := l.place.endOfLine l.version }
      else if l.version.isBreak c then skip? fuel l.newline
      else if c = '\ufeff' && l.version = .v11 && l.place.index = 0 then skip? fuel (l.pass 1)
      else some l

/-- Go to the next token, and end the collections that it does not belong to. -/
def next? (l : Lexer) : Option Lexer := do
  let l ← (← l.skip? (l.size + 1)).expireKeys?
  some (l.closeBlocks l.place.column)

/-! ## Flow collections -/

def openFlow? (t : Token) (l : Lexer) : Option Lexer := do
  let l ← l.saveKey?
  let l := l.loosen
  if l.version = .v12 && 255 ≤ l.outer.length then none
  let l := { l with
    outer := l.candidate :: l.outer
    candidate := {}
    mayStartKey := true
    hasFlowObject := l.hasFlowObject || t = Token.flowObjectStart }
  return (← (l.pass 1).trail?).emit t

/-- End an object without braces. -/
def closeImplicit (l : Lexer) : Lexer :=
  if l.isImplicit then { l.emit .flowObjectEnd with isImplicit := false, hasFlowObject := false }
  else l

def closeFlow? (t : Token) (l : Lexer) : Option Lexer := do
  let l ← l.dropKey?
  let l := match l.outer with
    | [] => l
    | candidate :: outer => { l with candidate, outer }
  let l ← ({ l with mayStartKey := false }.closeImplicit.pass 1).trail?
  some ({ l with colonAt := if l.inFlow then some l.place.index else l.colonAt }.emit t)

def comma? (l : Lexer) : Option Lexer := do
  let l ← l.dropKey?
  return (← ({ l with mayStartKey := true }.closeImplicit.pass 1).trail?).emit .comma

/-! ## Entries, keys and values -/

/-- What follows a dash in version 1.2: no dash behind a tab. -/
def afterDash? (l : Lexer) : Option Lexer :=
  if l.version = .v11 then some l
  else do
    let hasTab := (l.place.rest.takeWhile isPad).contains '\t'
    let l ← l.trail?
    match l.place.rest with
    | [] => some l
    | c :: next =>
      if hasTab && c = '-' && l.version.endsWord next then none
      else if l.version.isBreak c || isFlowMark c then some l.loosen
      else some l

def dash? (l : Lexer) : Option Lexer := do
  if l.inFlow then
    if l.version = .v12 then none
    return { ← l.dropKey? with mayStartKey := true }.pass 1 |>.emit .dash
  if !l.mayStartKey then none
  let l ← ((l.openBlock l.place.column none .listStart).pass 1).afterDash?
  return { ← l.dropKey? with mayStartKey := true }.emit .dash

/-- Pass spaces, comments and line ends. -/
def skipSpaces : (fuel : Nat) → Lexer → Lexer
  | 0, l => l
  | fuel + 1, l =>
    match l.place.rest with
    | [] => l
    | c :: _ =>
      if c = ' ' then skipSpaces fuel (l.pass 1)
      else if l.version.isBreak c then skipSpaces fuel l.newline
      else if c = '#' then skipSpaces fuel { l with place := l.place.endOfLine l.version }
      else l

/-- What follows the mark of a key in version 1.2: a space or a line end, and no tab. -/
def afterKey? (l : Lexer) : Option Lexer :=
  if l.version = .v11 then some l
  else
    let k := l.skipSpaces (l.size + 1)
    if k.place.index = l.place.index || k.place.isAt '\t' then none else some k

def key? (l : Lexer) : Option Lexer := do
  if !l.inFlow && !l.mayStartKey then none
  let l := l.openBlock l.place.column none .objectStart
  let l ← { l with hasFlowObject := l.hasFlowObject || l.inFlow }.dropKey?
  return (← ({ l with mayStartKey := !l.inFlow }.pass 1).afterKey?).emit .key

/-- What follows a colon in version 1.2: neither a dash nor a word behind a tab without a space. -/
def afterColon? (l : Lexer) : Option Lexer :=
  if l.version = .v11 || !l.place.isAt '\t' then some l
  else do
    let hasSpace := (l.place.rest.takeWhile isPad).contains ' '
    let l ← l.trail?
    if !hasSpace && l.place.rest.head?.any fun c ↦ c = '-' || c.isAlphanum then none
    else some l

/-- A colon behind a key, for which tokens are put in front of it. -/
def valueOf? (k : KeyCandidate) (line : Nat) (l : Lexer) : Option Lexer := do
  let l := l.insertAt k.number .key
  let l ←
    if !l.isImplicit then some l
    else if k.line < line then none
    else some (l.insertAt k.number .flowObjectStart)
  let l := (l.openBlock k.column (some k.number) .objectStart).loosen
  some ({ l with
    candidate := { k with isPossible := false }
    mayStartKey := false }.emit .value)

/-- A colon without a key in front of it. -/
def bareValue? (column : Nat) (l : Lexer) : Option Lexer := do
  let l := if l.isImplicit then l.emit .flowObjectStart else l
  if !l.inFlow && !l.mayStartKey then none
  let l := (l.openBlock column none .objectStart).loosen
  some ({ l with mayStartKey := !l.inFlow }.emit .value)

def value? (l : Lexer) : Option Lexer := do
  let start := l.place
  let l := { l with isImplicit := l.version = Version.v12 && l.inFlow && !l.hasFlowObject }
  let l ← (l.pass 1).afterColon?
  if l.candidate.isPossible then l.valueOf? l.candidate start.line else l.bareValue? start.column

/-! ## Names and scalars -/

/-- A token that may be a key or stand in front of one. -/
def named? (read : Place → Option (Token × Place)) (l : Lexer) : Option Lexer := do
  let l ← l.saveKey?
  let (t, place) ← read l.place
  some ({ l with place, mayStartKey := false }.emit t)

def quotedScalar? (l : Lexer) : Option Lexer := do
  let l ← l.saveKey?
  let (text, place) ← Yaml.quotedScalar? l.version l.size l.inFlow l.indent l.place
  let l := { l with place, mayStartKey := false }
  let l ← if l.version = .v11 then some l else l.skip? (l.size + 1)
  some ({ l with colonAt := some l.place.index }.emit (.scalar .quoted text))

def plainScalar? (l : Lexer) : Option Lexer := do
  let l := (← l.saveKey?).tighten
  let margin := l.indent + 1
  if l.version = .v12 && l.inFlow && l.place.column < margin then none
  let (text, place, isBroken) ← Yaml.plainScalar? l.version l.size l.inFlow margin l.place
  some ({ l with place, mayStartKey := isBroken }.emit (.scalar .plain text))

def block? (style : ScalarStyle) (l : Lexer) : Option Lexer := do
  let l ← if l.version = .v11 then l.dropKey? else l.saveKey?
  let l := l.tighten
  let (text, place) ← Yaml.block? l.version l.size l.indent l.place
  some ({ l with place, mayStartKey := true }.emit (.scalar style text))

/-! ## Documents -/

/-- End every collection; no key may start before the end of the line. -/
def leave? (l : Lexer) : Option Lexer := do
  return { ← (l.closeBlocks (-1)).dropKey? with mayStartKey := false }

def directive? (l : Lexer) : Option Lexer := do
  let l ← l.leave?
  let (t, place) ← Yaml.directive? l.version l.size l.place
  some ({ l with place }.emit t)

def documentStart? (l : Lexer) : Option Lexer := do
  return ((← l.leave?).pass 3).emit .documentStart

/-- In version 1.2 nothing but a comment may follow on the line. -/
def documentEnd? (l : Lexer) : Option Lexer := do
  let l ← ((← l.leave?).pass 3).trail?
  if l.version = .v12 && !l.place.endsLine l.version then none
  return l.emit .documentEnd

/-! ## All tokens -/

/-- Whether a colon before `next` stands for itself. -/
def isColon (l : Lexer) (next : List Char) : Bool :=
  l.version.endsWord next ||
    (l.inFlow &&
      (l.version = .v11 || next.head?.any isFlowMark || l.colonAt = some l.place.index))

/-- Read the token that starts with `c`. -/
def token? (c : Char) (next : List Char) (l : Lexer) : Option Lexer :=
  match c with
  | '[' => l.openFlow? .flowListStart
  | '\x7b' => l.openFlow? .flowObjectStart
  | ']' => l.closeFlow? .flowListEnd
  | '\x7d' => l.closeFlow? .flowObjectEnd
  | ',' => l.comma?
  | '-' => if l.version.endsWord next then l.dash? else l.plainScalar?
  | '?' =>
    if l.version.endsWord next || (l.version = .v11 && l.inFlow) then l.key? else l.plainScalar?
  | ':' => if l.isColon next then l.value? else l.plainScalar?
  | '*' => l.named? fun p ↦ (anchorName? l.version p).map fun (name, q) ↦ (.mention name, q)
  | '&' => l.named? fun p ↦ (anchorName? l.version p).map fun (name, q) ↦ (.anchor name, q)
  | '!' => l.named? (tag? l.version l.size l.inFlow)
  | '|' =>
    if !l.inFlow then l.block? .literal else if l.version = .v11 then none else l.plainScalar?
  | '>' =>
    if !l.inFlow then l.block? .folded else if l.version = .v11 then none else l.plainScalar?
  | '\x27' | '"' => l.quotedScalar?
  | '%' | '@' | '\x60' | '\t' => none
  | _ => l.plainScalar?

/-- Read the token at the place. -/
def step? (l : Lexer) : Option Lexer :=
  match l.place.rest with
  | [] => none
  | c :: next =>
    if l.place.column = 0 && c = '%' then l.directive?
    else if l.place.isBoundary l.version then
      if c = '-' then l.documentStart? else l.documentEnd?
    else if l.version = .v12 && l.place.column < l.indent then none
    else l.token? c next

/-- End every collection at the end of the text. -/
def finish? (l : Lexer) : Option Lexer :=
  if l.outer.any fun k ↦ l.version = .v12 && k.isPossible && k.isRequired then none
  else l.leave?

def run? : (fuel : Nat) → Lexer → Option (List Token)
  | 0, _ => none
  | fuel + 1, l => do
    let l ← l.next?
    if l.place.rest.isEmpty then (← l.finish?).done.reverse else run? fuel (← l.step?)

end Lexer

/-- The tokens of a text. -/
def tokens? (v : Version) (text : String) : Option (List Token) := do
  let cs ← v.readable? text
  let size := cs.length
  Lexer.run? (size + 1) { version := v, size, place := { rest := cs } }

end TenantAccess.Yaml
