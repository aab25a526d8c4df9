import TenantAccess.Json.Number
import TenantAccess.Toml.Table
import TenantAccess.Toml.Text
import TenantAccess.Toml.Time

/-!
# Reading TOML text

Tables become objects, arrays of tables arrays of objects, and points in time texts.
-/

namespace TenantAccess.Toml

def skipSpaces (cs : List Char) : List Char := cs.dropWhile isSpace

/-- What follows a line end, if one comes first; the end of the text is one. -/
def lineEnd? : List Char → Option (List Char)
  | [] => some []
  | '\n' :: rest => some rest
  | '\r' :: '\n' :: rest => some rest
  | _ => none

/-- What follows the end of a line, of which only blanks and a comment are left. -/
def endLine? (cs : List Char) : Option (List Char) :=
  match skipSpaces cs with
  | '#' :: rest => lineEnd? (rest.dropWhile isText)
  | rest => lineEnd? rest

/-- Skip blanks, line ends and comments. -/
def skipLines : (fuel : Nat) → List Char → Option (List Char)
  | 0, _ => none
  | fuel + 1, cs =>
    match skipSpaces cs with
    | c :: rest =>
      if c = '#' ∨ c = '\n' ∨ c = '\r' then do skipLines fuel (← endLine? (c :: rest))
      else some (c :: rest)
    | [] => some []

/-- Arrays and inline tables lie less deep than this, and a key has fewer parts. -/
def depthLimit : Nat := 80

/-! ## Keys -/

def isKeyChar (c : Char) : Bool := c.isAlphanum || c = '-' || c = '_'

def simpleKey? : List Char → Option (String × List Char)
  | '"' :: rest => quoted [] rest
  | '\x27' :: rest => literal [] rest
  | cs =>
    let key := cs.takeWhile isKeyChar
    if key.isEmpty then none else some (String.ofList key, cs.dropWhile isKeyChar)

/-- The keys before the last of some that points join, and the last one. -/
structure KeyPath where
  path : List String
  key : String

def keyPath? : (fuel : Nat) → List Char → Option (KeyPath × List Char)
  | 0, _ => none
  | fuel + 1, cs => do
    let (key, rest) ← simpleKey? (skipSpaces cs)
    match skipSpaces rest with
    | '.' :: rest =>
      let (keys, rest) ← keyPath? fuel rest
      some ({ keys with path := key :: keys.path }, rest)
    | rest => some (⟨[], key⟩, rest)

def key? (cs : List Char) : Option (KeyPath × List Char) := keyPath? (depthLimit - 1) cs

/-! ## Numbers -/

/-- Digits without the underscores between them. -/
def ungrouped? (isDigit : Char → Bool) (cs : List Char) : Option (List Char) :=
  let parts := (String.ofList cs).splitOn "_"
  if parts.all fun p ↦ p ≠ "" && p.all isDigit then some (cs.filter (· ≠ '_')) else none

def isDigitOf (base : Nat) (c : Char) : Bool := (hexDigit? c).any (· < base)

/-- A whole number of 64 bits with a sign. -/
def word? (n : Int) : Option Json :=
  if -(Json.wordHalf : Int) ≤ n ∧ n < Json.wordHalf then some (.int n) else none

def radix? (base : Nat) (cs : List Char) : Option Json := do
  word? (← natOfDigits? base (← ungrouped? (isDigitOf base) cs))

def splitSign : List Char → Bool × List Char
  | '-' :: cs => (true, cs)
  | '+' :: cs => (false, cs)
  | cs => (false, cs)

def isGroupChar (c : Char) : Bool := c.isDigit || c = '_'

/-- The power of ten that a number ends with. -/
def exponent? : List Char → Option Int
  | [] => some 0
  | c :: rest => do
    if c ≠ 'e' ∧ c ≠ 'E' then none
    let (negative, digits) := splitSign rest
    let n := natOfDigits (← ungrouped? Char.isDigit digits)
    some (if negative then -n else n)

/-- A fraction that is too large is refused, unless it is negative. -/
def fraction? (negative : Bool) (whole fraction : List Char) (exponent : Int) : Option Json :=
  let mantissa := natOfDigits (whole ++ fraction)
  match Binary64.ofDecimal negative mantissa (exponent - fraction.length) with
  | .infinite false => none
  | x => some (.real x)

def decimal? (cs : List Char) : Option Json := do
  let (negative, cs) := splitSign cs
  let whole ← ungrouped? Char.isDigit (cs.takeWhile isGroupChar)
  if 1 < whole.length ∧ whole.head? = some '0' then none
  match cs.dropWhile isGroupChar with
  | [] => word? (if negative then -natOfDigits whole else natOfDigits whole)
  | '.' :: rest => do
    let places ← ungrouped? Char.isDigit (rest.takeWhile isGroupChar)
    fraction? negative whole places (← exponent? (rest.dropWhile isGroupChar))
  | rest => do fraction? negative whole [] (← exponent? rest)

def special? (cs : List Char) : Option Json :=
  let (negative, word) := splitSign cs
  if word = ['i', 'n', 'f'] then some (.real (.infinite negative))
  else if word = ['n', 'a', 'n'] then some (.real .nan)
  else if cs = ['t', 'r', 'u', 'e'] then some (.bool true)
  else if cs = ['f', 'a', 'l', 's', 'e'] then some (.bool false)
  else none

/-- A value that is neither a text nor a container. -/
def bare? (cs : List Char) : Option Json :=
  match special? cs, momentText? cs, cs with
  | some j, _, _ => some j
  | none, some s, _ => some (.str s)
  | none, none, '0' :: 'x' :: ds => radix? 16 ds
  | none, none, '0' :: 'o' :: ds => radix? 8 ds
  | none, none, '0' :: 'b' :: ds => radix? 2 ds
  | none, none, cs => decimal? cs

def endsBare (c : Char) : Bool :=
  isSpace c || c = '\n' || c = '\r' || c = '#' || c = ',' || c = ']' || c = '\x7d'

/-- The characters of a value that is neither a text nor a container, and what follows it.  A time
may follow a date behind a blank. -/
def splitBare (cs : List Char) : List Char × List Char :=
  let word := cs.takeWhile (!endsBare ·)
  let rest := cs.dropWhile (!endsBare ·)
  match rest with
  | ' ' :: rest' =>
    let time := rest'.takeWhile (!endsBare ·)
    if isDate word && (timeText? true time).isSome then
      (word ++ ' ' :: time, rest'.dropWhile (!endsBare ·))
    else (word, rest)
  | _ => (word, rest)

/-! ## Values -/

mutual

/-- A value below `depth` containers. -/
def value? : (fuel : Nat) → (depth : Nat) → List Char → Option (Json × List Char)
  | 0, _, _ => none
  | fuel + 1, depth, cs =>
    match cs with
    | '"' :: _ | '\x27' :: _ => (text? cs).map fun (s, rest) ↦ (.str s, rest)
    | '[' :: rest => if depth + 1 < depthLimit then elements? fuel (depth + 1) [] rest else none
    | '\x7b' :: rest =>
      if depth + 1 < depthLimit then
        match skipSpaces rest with
        | '\x7d' :: rest => some (.obj [], rest)
        | rest => members? fuel (depth + 1) [] rest
      else none
    | cs =>
      let (word, rest) := splitBare cs
      (bare? word).map (·, rest)

/-- The elements of an array up to its end. -/
def elements? :
    (fuel : Nat) → (depth : Nat) → (done : List Json) → List Char → Option (Json × List Char)
  | 0, _, _, _ => none
  | fuel + 1, depth, done, cs => do
    match ← skipLines (cs.length + 1) cs with
    | ']' :: rest => some (.arr done.reverse, rest)
    | cs =>
      let (j, rest) ← value? fuel depth cs
      match ← skipLines (rest.length + 1) rest with
      | ',' :: rest => elements? fuel depth (j :: done) rest
      | ']' :: rest => some (.arr (j :: done).reverse, rest)
      | _ => none

/-- The members of an inline table up to its end. -/
def members? :
    (fuel : Nat) → (depth : Nat) → (done : Fields) → List Char → Option (Json × List Char)
  | 0, _, _, _ => none
  | fuel + 1, depth, done, cs => do
    let (keys, rest) ← key? cs
    match rest with
    | '=' :: rest =>
      let (j, rest) ← value? fuel depth (skipSpaces rest)
      let done ← done.assign? keys.path keys.key j
      match skipSpaces rest with
      | ',' :: rest => members? fuel depth done rest
      | '\x7d' :: rest => some (.obj (fieldsToJson done), rest)
      | _ => none
    | _ => none

end

/-! ## Documents -/

/-- Read the rest of the lines. -/
def lines? : (fuel : Nat) → Draft → List Char → Option Draft
  | 0, _, _ => none
  | fuel + 1, d, cs => do
    match ← skipLines (cs.length + 1) cs with
    | [] => some d
    | '[' :: '[' :: rest =>
      let (keys, rest) ← key? rest
      match rest with
      | ']' :: ']' :: rest => lines? fuel (← d.append? keys.path keys.key) (← endLine? rest)
      | _ => none
    | '[' :: rest =>
      let (keys, rest) ← key? rest
      match rest with
      | ']' :: rest => lines? fuel (← d.open? keys.path keys.key) (← endLine? rest)
      | _ => none
    | cs =>
      let (keys, rest) ← key? cs
      match rest with
      | '=' :: rest =>
        let (v, rest) ← value? (rest.length + 1) 0 (skipSpaces rest)
        lines? fuel (← d.assign? keys.path keys.key v) (← endLine? rest)
      | _ => none

/-- The document that `text` holds, if it is well formed; a byte order mark may come first. -/
def parse (text : String) : Option Json :=
  let cs := match text.toList with
    | '\ufeff' :: cs => cs
    | cs => cs
  (lines? (cs.length + 1) {} cs).map fun d ↦ .obj (fieldsToJson d.root)

end TenantAccess.Toml
