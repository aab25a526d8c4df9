import TenantAccess.Json.Number

/-!
# Reading JSON text

One character at a time: `Scanner.feed` cuts the text into tokens and hands each of them to a stack
machine, `Builder.push`, that puts the document together.  Both are plain step functions, so the
reader is a fold over the text.
-/

namespace TenantAccess.Json

inductive Token where
  | openObj | closeObj | openArr | closeArr | colon | comma
  | scalar (j : Json)

/-- A container that is still open, its finished parts last first. -/
inductive Frame where
  | arr (done : List Json)
  | obj (done : List (String × Json))
  /-- The value of this member of the object below is awaited. -/
  | member (key : String)

inductive Expected where
  | value | firstElem | key | firstKey | colon | separator | nothing
deriving DecidableEq

/-- A document under construction. -/
structure Builder where
  /-- Whether the document is read only in part: every member of an object stays, and not only the
  last one of each key; nothing limits how deep containers lie; and a scalar that cannot be had is
  taken for no number, as long as it is not a key of the whole. -/
  partly : Bool
  stack : List Frame
  expected : Expected
  result : Option Json

namespace Builder

def start (partly : Bool) : Builder := ⟨partly, [], .value, none⟩

/-- Containers may lie this many deep in a document that is read in full. -/
def maxDepth : Nat := 127

def depth (b : Builder) : Nat :=
  b.stack.countP fun
    | .member _ => false
    | _ => true

/-- The members of an object, whose last member comes first in `done`: unless all stay, a later
member takes the place of an earlier one of the same key. -/
def collect (b : Builder) (done : List (String × Json)) : List (String × Json) :=
  if b.partly then done.reverse
  else done.foldr (fun e fields ↦ setMember e.1 e.2 fields) []

/-- A value is complete: it belongs to the innermost open container of `stack`. -/
def complete (b : Builder) (stack : List Frame) (j : Json) : Option Builder :=
  match stack with
  | [] => some { b with stack := [], expected := .nothing, result := some j }
  | .arr done :: rest => some { b with stack := .arr (j :: done) :: rest, expected := .separator }
  | .member key :: .obj done :: rest =>
    some { b with stack := .obj ((key, j) :: done) :: rest, expected := .separator }
  | _ => none

def mayOpen (b : Builder) : Bool := b.partly || b.depth < maxDepth

def push (b : Builder) (t : Token) : Option Builder :=
  match t, b.expected, b.stack with
  | .scalar j, .value, stack | .scalar j, .firstElem, stack => b.complete stack j
  | .scalar (.str k), .key, stack | .scalar (.str k), .firstKey, stack =>
    some { b with stack := .member k :: stack, expected := .colon }
  | .scalar (.real .nan), .key, stack | .scalar (.real .nan), .firstKey, stack =>
    if 1 < b.depth then some { b with stack := .member "" :: stack, expected := .colon } else none
  | .colon, .colon, _ => some { b with expected := .value }
  | .comma, .separator, .arr _ :: _ => some { b with expected := .value }
  | .comma, .separator, .obj _ :: _ => some { b with expected := .key }
  | .openArr, .value, stack | .openArr, .firstElem, stack =>
    if b.mayOpen then some { b with stack := .arr [] :: stack, expected := .firstElem }
    else none
  | .openObj, .value, stack | .openObj, .firstElem, stack =>
    if b.mayOpen then some { b with stack := .obj [] :: stack, expected := .firstKey }
    else none
  | .closeArr, .separator, .arr done :: rest | .closeArr, .firstElem, .arr done :: rest =>
    b.complete rest (.arr done.reverse)
  | .closeObj, .separator, .obj done :: rest | .closeObj, .firstKey, .obj done :: rest =>
    b.complete rest (.obj (b.collect done))
  | _, _, _ => none

end Builder

def bare? (partly : Bool) (cs : List Char) : Option Json :=
  if cs = ['t', 'r', 'u', 'e'] then some (.bool true)
  else if cs = ['f', 'a', 'l', 's', 'e'] then some (.bool false)
  else if cs = ['n', 'u', 'l', 'l'] then some .null
  else do
    let n ← numeral? cs
    if partly then some (n.value?.getD (.real .nan)) else n.value?

/-! ## Characters -/

/-- The character of a two-letter escape. -/
def escape? : Char → Option Char
  | '"' => some '"'
  | '\\' => some '\\'
  | '/' => some '/'
  | 'b' => some '\x08'
  | 'f' => some '\x0c'
  | 'n' => some '\n'
  | 'r' => some '\r'
  | 't' => some '\t'
  | _ => none

/-- The characters of a string so far, last first; none once it holds half of a surrogate pair. -/
abbrev Draft := Option (List Char)

def Draft.add (c : Char) (acc : Draft) : Draft := acc.map (c :: ·)

def Draft.close : Draft → Json
  | some acc => .str (String.ofList acc.reverse)
  | none => .real .nan

/-- Where the reader stands inside the text. -/
inductive Mode where
  | between
  /-- In a bare word, whose characters so far are last first. -/
  | bare (acc : List Char)
  | string (acc : Draft)
  | escape (acc : Draft)
  /-- Inside `\u`: digits read so far, their value and the high surrogate that went before. -/
  | unicode (acc : Draft) (count value : Nat) (high : Option Nat)
  /-- After a high surrogate: a backslash must follow. -/
  | afterHigh (acc : Draft) (high : Nat)
  /-- After a high surrogate and a backslash: `u` must follow. -/
  | afterHighEscape (acc : Draft) (high : Nat)

structure Scanner where
  builder : Builder
  mode : Mode

namespace Scanner

def start (partly : Bool) : Scanner := ⟨.start partly, .between⟩

def isHigh (unit : Nat) : Bool := 0xD800 ≤ unit && unit < 0xDC00

def isLow (unit : Nat) : Bool := 0xDC00 ≤ unit && unit < 0xE000

/-- The four digits of `\u` are read. -/
def unit (acc : Draft) (value : Nat) : Option Nat → Mode
  | none =>
    if isHigh value then .afterHigh acc value
    else if isLow value then .string none
    else .string (acc.add (Char.ofNat value))
  | some high =>
    if isLow value then
      .string (acc.add (Char.ofNat (0x10000 + (high - 0xD800) * 0x400 + (value - 0xDC00))))
    else .string none

/-- A character outside strings and bare words. -/
def feedBetween (b : Builder) (c : Char) : Option Scanner :=
  match c with
  | ' ' | '\n' | '\r' | '\t' => some ⟨b, .between⟩
  | '"' => some ⟨b, .string (some [])⟩
  | '\x7b' => (b.push .openObj).map (⟨·, .between⟩)
  | '\x7d' => (b.push .closeObj).map (⟨·, .between⟩)
  | '[' => (b.push .openArr).map (⟨·, .between⟩)
  | ']' => (b.push .closeArr).map (⟨·, .between⟩)
  | ':' => (b.push .colon).map (⟨·, .between⟩)
  | ',' => (b.push .comma).map (⟨·, .between⟩)
  | c => some ⟨b, .bare [c]⟩

def isBare (c : Char) : Bool := c.isAlphanum || c = '-' || c = '+' || c = '.'

def endBare (b : Builder) (acc : List Char) : Option Builder := do
  b.push (.scalar (← bare? b.partly acc.reverse))

def endString (b : Builder) (acc : Draft) : Option Scanner :=
  if acc.isSome || b.partly then (b.push (.scalar acc.close)).map (⟨·, .between⟩) else none

def feedString (b : Builder) (acc : Draft) (c : Char) : Option Scanner :=
  if c = '"' then endString b acc
  else if c = '\\' then some ⟨b, .escape acc⟩
  else if c.toNat < 0x20 then none
  else some ⟨b, .string (acc.add c)⟩

def feedEscape (b : Builder) (acc : Draft) (c : Char) : Option Scanner :=
  if c = 'u' then some ⟨b, .unicode acc 0 0 none⟩
  else do some ⟨b, .string (acc.add (← escape? c))⟩

def feed (s : Scanner) (c : Char) : Option Scanner :=
  match s.mode with
  | .between => feedBetween s.builder c
  | .bare acc =>
    if isBare c then some ⟨s.builder, .bare (c :: acc)⟩
    else do feedBetween (← endBare s.builder acc) c
  | .string acc => feedString s.builder acc c
  | .escape acc => feedEscape s.builder acc c
  | .unicode acc count value high => do
    let value := value * 16 + (← hexDigit? c)
    if count = 3 then some ⟨s.builder, unit acc value high⟩
    else some ⟨s.builder, .unicode acc (count + 1) value high⟩
  | .afterHigh acc high =>
    if c = '\\' then some ⟨s.builder, .afterHighEscape acc high⟩ else feedString s.builder none c
  | .afterHighEscape acc high =>
    if c = 'u' then some ⟨s.builder, .unicode acc 0 0 (some high)⟩ else feedEscape s.builder none c

def finish (s : Scanner) : Option Json :=
  match s.mode with
  | .between => s.builder.result
  | .bare acc => do (← endBare s.builder acc).result
  | _ => none

end Scanner

/-- The document that `text` holds; `none` if it holds anything else or more.  Of several members of
one key the last one counts. -/
def parse (text : String) : Option Json := do
  (← text.toList.foldlM Scanner.feed (Scanner.start false)).finish

/-- The document that `text` holds, for a reader who takes only parts of it. -/
def parsePartly (text : String) : Option Json := do
  (← text.toList.foldlM Scanner.feed (Scanner.start true)).finish

end TenantAccess.Json
