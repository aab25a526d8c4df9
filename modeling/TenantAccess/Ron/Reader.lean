import TenantAccess.Binary64.Reader
import TenantAccess.Json.Number
import TenantAccess.Ron.Text

/-!
# Reading RON text

Objects are written with braces and quoted keys, or with parentheses and names; lists with brackets
or parentheses.  A name without anything behind it stands for nothing, and so does an empty option,
while a full one stands for what is in it.
-/

namespace TenantAccess.Ron

/-! ## Numbers -/

def isWholeChar (c : Char) : Bool := (hexDigit? c).isSome || c = '_'

def isFractionChar (c : Char) : Bool :=
  c.isDigit || c = 'e' || c = 'E' || c = '.' || c = '+' || c = '-' || c = '_'

/-- The base of a number, and what follows its mark. -/
def base : List Char → Nat × List Char
  | '0' :: 'x' :: rest => (16, rest)
  | '0' :: 'b' :: rest => (2, rest)
  | '0' :: 'o' :: rest => (8, rest)
  | cs => (10, cs)

/-- A whole number with a sign or none: one with a sign takes 63 bits, one without 64. -/
def whole? (cs : List Char) : Option (Int × List Char) := do
  let hasSign := cs.head?.any fun c ↦ c = '+' || c = '-'
  let (negative, cs) := Binary64.splitSign cs
  let (base, cs) := base cs
  let digits := cs.takeWhile isWholeChar
  if digits.head? = some '_' then none
  let n ← natOfDigits? base (digits.filter (· ≠ '_'))
  let limit :=
    if !hasSign then UInt64.size - 1 else if negative then Json.wordHalf else Json.wordHalf - 1
  if n ≤ limit then some (if negative then -n else n, cs.drop digits.length) else none

/-- The words for infinity and for no number. -/
def fractionWords : List String := ["inf", "+inf", "-inf", "NaN", "+NaN", "-NaN"]

def fraction? (cs : List Char) : Option (Binary64 × List Char) :=
  match fractionWords.findSome? fun w ↦ (afterWord? w.toList cs).map (w, ·) with
  | some (w, rest) => (Binary64.ofText? w).map (·, rest)
  | none =>
    let digits := cs.takeWhile isFractionChar
    if digits.contains '_' then none
    else (Binary64.ofText? (String.ofList digits)).map (·, cs.drop digits.length)

/-- The number that stands here: a fraction if it has characters that no whole number has. -/
def number? (cs : List Char) : Option (Json × List Char) :=
  let unsigned := (Binary64.splitSign cs).2
  let isFraction :=
    (unsigned.takeWhile isWholeChar).length < (unsigned.takeWhile isFractionChar).length
  match if isFraction then none else whole? cs with
  | some (n, rest) => some (.int n, rest)
  | none => (fraction? cs).map fun (x, rest) ↦ (.real x, rest)

/-! ## Values -/

/-- A word that stands for a value. -/
def word? (cs : List Char) : Option (Json × List Char) :=
  [("true", Json.bool true), ("false", .bool false), ("None", .null),
    ("inf", .real (.infinite false)),
    ("-inf", .real (.infinite true)), ("NaN", .real .nan)].findSome? fun (w, j) ↦
      (afterWord? w.toList cs).map (j, ·)

/-- Whether parentheses hold named members. -/
def hasNames (fuel : Nat) (cs : List Char) : Option Bool :=
  match name? cs with
  | none => some false
  | some (_, rest) => (skip? fuel rest).map fun cs ↦ cs.head? = some ':'

/-- What follows a comma, if one comes next, and whether one did. -/
def comma? (fuel : Nat) (cs : List Char) : Option (Bool × List Char) := do
  match ← skip? fuel cs with
  | ',' :: rest => return (true, ← skip? fuel rest)
  | cs => return (false, cs)

/-- The key of a member: a name inside parentheses, and a text or a character inside braces. -/
def key? (close : Char) (cs : List Char) : Option (String × List Char) :=
  if close = ')' then name? cs else (text? cs).or (char? cs)

mutual

/-- A value; `implicit` says whether a full option needs no parentheses. -/
def value? (implicit : Bool) : (fuel : Nat) → List Char → Option (Json × List Char)
  | 0, _ => none
  | fuel + 1, cs =>
    match word? cs, afterWord? ['S', 'o', 'm', 'e'] cs, cs with
    | some found, _, _ => some found
    | none, some rest, _ => do
      match ← skip? fuel rest with
      | '(' :: rest => do
        let (j, rest) ← value? implicit fuel (← skip? fuel rest)
        match (← comma? fuel rest).2 with
        | ')' :: rest => some (j, rest)
        | _ => none
      | rest => if implicit then value? implicit fuel rest else none
    | none, none, '(' :: ')' :: rest => some (.null, rest)
    | none, none, cs =>
      match name? cs with
      | some (_, rest) => do
        match ← skip? fuel rest with
        | '(' :: rest => parenthesized? implicit fuel rest
        | rest => some (.null, rest)
      | none =>
        match cs with
        | '(' :: rest => parenthesized? implicit fuel rest
        | '[' :: rest => elements? implicit fuel ']' [] true rest
        | '\x7b' :: rest => members? implicit fuel '\x7d' [] true rest
        | '"' :: _ | 'r' :: _ => (text? cs).map fun (s, rest) ↦ (.str s, rest)
        | '\x27' :: _ => (char? cs).map fun (s, rest) ↦ (.str s, rest)
        | '.' :: _ => (fraction? cs).map fun (x, rest) ↦ (.real x, rest)
        | c :: _ => if c.isDigit || c = '+' || c = '-' then number? cs else none
        | [] => none

/-- What stands behind an opening parenthesis. -/
def parenthesized? (implicit : Bool) : (fuel : Nat) → List Char → Option (Json × List Char)
  | 0, _ => none
  | fuel + 1, cs => do
    let inner ← skip? fuel cs
    if ← hasNames fuel inner then members? implicit fuel ')' [] true inner
    else elements? implicit fuel ')' [] true inner

/-- The elements of a list up to its end; each but the first has to follow a comma. -/
def elements? (implicit : Bool) :
    (fuel : Nat) → (close : Char) → (done : List Json) → (mayFollow : Bool) → List Char →
      Option (Json × List Char)
  | 0, _, _, _, _ => none
  | fuel + 1, close, done, mayFollow, cs => do
    match ← skip? fuel cs with
    | [] => none
    | c :: rest =>
      if c = close then some (.arr done.reverse, rest)
      else if !mayFollow then none
      else do
        let (j, rest) ← value? implicit fuel (c :: rest)
        let (mayFollow, rest) ← comma? fuel rest
        elements? implicit fuel close (j :: done) mayFollow rest

/-- The members of an object up to its end; each but the first has to follow a comma, and the last
of each key counts. -/
def members? (implicit : Bool) :
    (fuel : Nat) → (close : Char) → (done : List (String × Json)) → (mayFollow : Bool) →
      List Char → Option (Json × List Char)
  | 0, _, _, _, _ => none
  | fuel + 1, close, done, mayFollow, cs => do
    match ← skip? fuel cs with
    | [] => none
    | c :: rest =>
      if c = close then some (.obj done, rest)
      else if !mayFollow then none
      else do
        let (key, rest) ← key? close (c :: rest)
        match ← skip? fuel rest with
        | ':' :: rest => do
          let (j, rest) ← value? implicit fuel (← skip? fuel rest)
          let (mayFollow, rest) ← comma? fuel rest
          members? implicit fuel close (Json.setMember key j done) mayFollow rest
        | _ => none

end

/-! ## Documents -/

/-- The words in a row, with blanks between them or none. -/
def afterAll? (fuel : Nat) : List String → List Char → Option (List Char)
  | [], cs => some cs
  | w :: ws, cs =>
    if w.toList.isPrefixOf cs then do afterAll? fuel ws (← skip? fuel (cs.drop w.length)) else none

/-- The names that may be enabled. -/
def extensionNames : List String := ["unwrap_newtypes", "implicit_some", "unwrap_variant_newtypes"]

/-- The names that an attribute enables, and what follows them. -/
def extensions? : (fuel : Nat) → List Char → Option (List String × List Char)
  | 0, _ => none
  | fuel + 1, cs => do
    let (name, rest) ← name? cs
    if !extensionNames.contains name then none
    let (hasComma, rest) ← comma? fuel rest
    if rest.head?.any isWordChar then
      if !hasComma then none
      let (names, rest) ← extensions? fuel rest
      some (name :: names, rest)
    else some ([name], rest)

/-- Skip the attributes in front of the document, and say whether they let full options stand
without parentheses. -/
def attributes? : (fuel : Nat) → (implicit : Bool) → List Char → Option (Bool × List Char)
  | 0, _, _ => none
  | fuel + 1, implicit, cs => do
    let cs ← skip? fuel cs
    if cs.head? ≠ some '#' then some (implicit, cs)
    else
      let (names, rest) ← extensions? fuel (← afterAll? fuel ["#", "!", "[", "enable", "("] cs)
      let rest ← afterAll? fuel [")", "]"] (← skip? fuel rest)
      attributes? fuel (implicit || names.contains "implicit_some") rest

/-- The document that `text` holds, if it is well formed. -/
def parse (text : String) : Option Json := do
  let cs := text.toList
  let fuel := 2 * cs.length + 8
  let (implicit, cs) ← attributes? fuel false cs
  let (j, rest) ← value? implicit fuel cs
  if (← skip? fuel rest).isEmpty then some j else none

end TenantAccess.Ron
