import TenantAccess.Binary64.Reader
import TenantAccess.Json.Number
import TenantAccess.Json5.Text

/-!
# Reading JSON5 text

JSON with comments, names as keys, quotes of either kind, commas before the end of a container, and
numbers in base sixteen, with a plus sign or with a point at either end.
-/

namespace TenantAccess.Json5

/-! ## Numbers -/

/-- The exponent at the start of a text, if there is one. -/
def exponent (cs : List Char) : List Char :=
  match cs with
  | c :: rest =>
    if c = 'e' || c = 'E' then
      let sign := rest.take 1 |>.filter fun c ↦ c = '+' || c = '-'
      let digits := (rest.drop sign.length).takeWhile Char.isDigit
      if digits.isEmpty then [] else c :: sign ++ digits
    else []
  | [] => []

/-- Digits that do not go on behind a leading zero. -/
def wholeDigits (cs : List Char) : List Char :=
  match cs with
  | '0' :: _ => ['0']
  | cs => cs.takeWhile Char.isDigit

/-- A number in base ten, as it is written, and whether it is whole. -/
def decimal? (cs : List Char) : Option (List Char × Bool) :=
  let whole := wholeDigits cs
  match cs.drop whole.length with
  | '.' :: rest =>
    let places := rest.takeWhile Char.isDigit
    if whole.isEmpty && places.isEmpty then none
    else some (whole ++ '.' :: places ++ exponent (rest.drop places.length), false)
  | rest =>
    if whole.isEmpty then none
    else
      let exponent := exponent rest
      some (whole ++ exponent, exponent.isEmpty)

/-- A number in base sixteen, which takes 32 bits and no sign. -/
def hexadecimal? (hasSign : Bool) (cs : List Char) : Option (Json × List Char) := do
  let digits := cs.takeWhile fun c ↦ (hexDigit? c).isSome
  let n ← natOfDigits? 16 digits
  if hasSign || UInt32.size ≤ n then none else some (.int n, cs.drop digits.length)

def infinityWord : List Char := ['I', 'n', 'f', 'i', 'n', 'i', 't', 'y']

def nanWord : List Char := ['N', 'a', 'N']

/-- The number at the start of a text.  A plus sign goes with digits only, and a whole number in
base ten takes 64 bits with its sign; a fraction may not be too large. -/
def number? (cs : List Char) : Option (Json × List Char) :=
  let (negative, unsigned) := Binary64.splitSign cs
  let hasPlus := cs.head? = some '+'
  let marked := match unsigned with
    | '0' :: 'x' :: c :: _ | '0' :: 'X' :: c :: _ => (hexDigit? c).isSome
    | _ => false
  if marked then hexadecimal? (cs.length ≠ unsigned.length) (unsigned.drop 2)
  else
    match decimal? unsigned with
    | some (digits, true) =>
      let n := natOfDigits digits
      if n < Json.wordHalf || (negative && n = Json.wordHalf) then
        some (.int (if negative then -n else n), unsigned.drop digits.length)
      else none
    | some (digits, false) =>
      match Binary64.decimalOf? negative digits with
      | some x => if x.isFinite then some (.real x, unsigned.drop digits.length) else none
      | none => none
    | none =>
      if hasPlus then none
      else if infinityWord.isPrefixOf unsigned then
        some (.real (.infinite negative), unsigned.drop infinityWord.length)
      else if nanWord.isPrefixOf unsigned then some (.real .nan, unsigned.drop nanWord.length)
      else none

/-! ## Values -/

def key? (fuel : Nat) (cs : List Char) : Option (String × List Char) :=
  match cs with
  | '"' :: rest => quoted? '"' fuel [] rest
  | '\x27' :: rest => quoted? '\x27' fuel [] rest
  | cs => name? fuel [] cs

mutual

def value? : (fuel : Nat) → List Char → Option (Json × List Char)
  | 0, _ => none
  | fuel + 1, cs =>
    match cs with
    | 'n' :: 'u' :: 'l' :: 'l' :: rest => some (.null, rest)
    | 't' :: 'r' :: 'u' :: 'e' :: rest => some (.bool true, rest)
    | 'f' :: 'a' :: 'l' :: 's' :: 'e' :: rest => some (.bool false, rest)
    | '"' :: rest => (quoted? '"' fuel [] rest).map fun (s, rest) ↦ (.str s, rest)
    | '\x27' :: rest => (quoted? '\x27' fuel [] rest).map fun (s, rest) ↦ (.str s, rest)
    | '[' :: rest => elements? fuel [] rest
    | '\x7b' :: rest => members? fuel [] rest
    | cs => number? cs

/-- The elements of a list up to its end. -/
def elements? : (fuel : Nat) → (done : List Json) → List Char → Option (Json × List Char)
  | 0, _, _ => none
  | fuel + 1, done, cs =>
    match skip fuel cs with
    | ']' :: rest => some (.arr done.reverse, rest)
    | cs => do
      let (j, rest) ← value? fuel cs
      match skip fuel rest with
      | ',' :: rest => elements? fuel (j :: done) rest
      | ']' :: rest => some (.arr (j :: done).reverse, rest)
      | _ => none

/-- The members of an object up to its end, of which the last of each key counts. -/
def members? :
    (fuel : Nat) → (done : List (String × Json)) → List Char → Option (Json × List Char)
  | 0, _, _ => none
  | fuel + 1, done, cs =>
    match skip fuel cs with
    | '\x7d' :: rest => some (.obj done, rest)
    | cs => do
      let (key, rest) ← key? fuel cs
      match skip fuel rest with
      | ':' :: rest => do
        let (j, rest) ← value? fuel (skip fuel rest)
        let done := Json.setMember key j done
        match skip fuel rest with
        | ',' :: rest => members? fuel done rest
        | '\x7d' :: rest => some (.obj done, rest)
        | _ => none
      | _ => none

end

/-- The document that `text` holds, if it is well formed. -/
def parse (text : String) : Option Json := do
  let cs := text.toList
  let fuel := 2 * cs.length + 8
  let (j, rest) ← value? fuel (skip fuel cs)
  if (skip fuel rest).isEmpty then some j else none

end TenantAccess.Json5
