import TenantAccess.Text.Character
import TenantAccess.Text.Letter

/-!
# Names and texts in JSON5

A key may be a name of letters, digits and marks.  A text stands in quotes of either kind and may
hold line ends behind a backslash.
-/

namespace TenantAccess.Json5

def isLineEnd (c : Char) : Bool := c = '\n' || c = '\r' || c = '\u2028' || c = '\u2029'

/-- Blanks of every kind but one: a next line character is none. -/
def isSpace (c : Char) : Bool := (isBlank c && c ≠ '\x85') || c = '\ufeff'

def afterComment? : List Char → Option (List Char)
  | [] => none
  | '*' :: '/' :: rest => some rest
  | _ :: rest => afterComment? rest

/-- Skip blanks and comments. -/
def skip : (fuel : Nat) → List Char → List Char
  | 0, cs => cs
  | fuel + 1, cs =>
    let cs := cs.dropWhile isSpace
    match cs with
    | '/' :: '/' :: rest => skip fuel (rest.dropWhile (!isLineEnd ·))
    | '/' :: '*' :: rest =>
      match afterComment? rest with
      | some rest => skip fuel rest
      | none => cs
    | cs => cs

/-- The character of a two-letter escape; most characters stand for themselves. -/
def escape? (c : Char) : Option Char :=
  match c with
  | 'b' => some '\x08'
  | 'f' => some '\x0c'
  | 'n' => some '\n'
  | 'r' => some '\r'
  | 't' => some '\t'
  | 'v' => some '\x0b'
  | '0' => some '\x00'
  | 'x' | 'u' => none
  | c => if c.isDigit || isLineEnd c then none else some c

/-- The character that two halves stand for. -/
def pairChar? (high low : Nat) : Option Char :=
  if 0xD800 ≤ high ∧ high < 0xDC00 ∧ 0xDC00 ≤ low ∧ low < 0xE000 then
    charOfNat? (0x10000 + (high - 0xD800) * 0x400 + (low - 0xDC00))
  else none

/-- The character that is written by four digits, or by twice four digits, and what follows it. -/
def unicode? : List Char → Option (Char × List Char)
  | a :: b :: c :: d :: '\\' :: 'u' :: e :: f :: g :: h :: rest => do
    let n ← natOfDigits? 16 [a, b, c, d]
    match charOfNat? n with
    | some ch => some (ch, '\\' :: 'u' :: e :: f :: g :: h :: rest)
    | none => (pairChar? n (← natOfDigits? 16 [e, f, g, h])).map (·, rest)
  | a :: b :: c :: d :: rest => (charOfHex? [a, b, c, d]).map (·, rest)
  | _ => none

/-- The rest of a text, its characters so far last first. -/
def quoted? (quote : Char) :
    (fuel : Nat) → (done : List Char) → List Char → Option (String × List Char)
  | 0, _, _ => none
  | _ + 1, _, [] => none
  | fuel + 1, done, '\\' :: rest =>
    match rest with
    | 'u' :: rest => do
      let (c, rest) ← unicode? rest
      quoted? quote fuel (c :: done) rest
    | 'x' :: a :: b :: rest => do quoted? quote fuel ((← charOfHex? [a, b]) :: done) rest
    | '\r' :: '\n' :: rest => quoted? quote fuel done rest
    | c :: rest =>
      if isLineEnd c then quoted? quote fuel done rest
      else do quoted? quote fuel ((← escape? c) :: done) rest
    | [] => none
  | fuel + 1, done, c :: rest =>
    if c = quote then some (String.ofList done.reverse, rest)
    else if isLineEnd c then none
    else quoted? quote fuel (c :: done) rest

def isNameStart (c : Char) : Bool := isLetter c || c = '$' || c = '_'

def isNameChar (c : Char) : Bool :=
  isNameStart c || isNameMark c || c = '\u200c' || c = '\u200d'

/-- The rest of a name; a name of no character is none. -/
def name? : (fuel : Nat) → (done : List Char) → List Char → Option (String × List Char)
  | 0, _, _ => none
  | fuel + 1, done, cs =>
    let stop := if done.isEmpty then none else some (String.ofList done.reverse, cs)
    match cs with
    | '\\' :: 'u' :: rest => do
      let (c, rest) ← unicode? rest
      name? fuel (c :: done) rest
    | c :: rest =>
      if isNameStart c || (!done.isEmpty && isNameChar c) then name? fuel (c :: done) rest
      else stop
    | [] => stop

end TenantAccess.Json5
