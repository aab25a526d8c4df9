import TenantAccess.Text.Character

/-!
# Words and texts in RON

A name is a word; with `r#` in front it may hold points and signs.  A text stands in double quotes,
where a backslash writes other characters, or in double quotes behind `r` and any number of `#`,
where none does.
-/

namespace TenantAccess.Ron

def isSpace (c : Char) : Bool := c = ' ' || c = '\t' || c = '\n' || c = '\r'

/-- What follows a comment that is `depth` comments deep. -/
def afterComment? (depth : Nat) : List Char → Option (List Char)
  | [] => none
  | '/' :: '*' :: rest => afterComment? (depth + 1) rest
  | '*' :: '/' :: rest => if depth = 0 then some rest else afterComment? (depth - 1) rest
  | _ :: rest => afterComment? depth rest

/-- Skip blanks and comments. -/
def skip? : (fuel : Nat) → List Char → Option (List Char)
  | 0, _ => none
  | fuel + 1, cs =>
    match cs.dropWhile isSpace with
    | '/' :: '/' :: rest => skip? fuel (rest.dropWhile (· ≠ '\n'))
    | '/' :: '*' :: rest => do skip? fuel (← afterComment? 0 rest)
    | '/' :: _ => none
    | cs => some cs

/-! ## Names -/

def isWordStart (c : Char) : Bool := c.isAlpha || c = '_'

def isWordChar (c : Char) : Bool := c.isAlphanum || c = '_'

/-- Characters of names behind `r#`. -/
def isNameChar (c : Char) : Bool := isWordChar c || c = '.' || c = '+' || c = '-'

/-- What follows a word, if it stands here and ends. -/
def afterWord? (word : List Char) (cs : List Char) : Option (List Char) :=
  let rest := cs.drop word.length
  if word.isPrefixOf cs && !rest.head?.any isWordChar then some rest else none

/-- The name that stands here, if it is no text. -/
def name? (cs : List Char) : Option (String × List Char) :=
  match cs with
  | 'r' :: '"' :: _ => none
  | 'r' :: '#' :: rest =>
    let name := rest.takeWhile isNameChar
    if name.isEmpty then none else some (String.ofList name, rest.drop name.length)
  | c :: _ =>
    let name := cs.takeWhile isWordChar
    let rest := cs.drop name.length
    if isWordStart c && !rest.head?.any isNameChar then some (String.ofList name, rest) else none
  | [] => none

/-! ## Texts -/

/-- The character of a two-letter escape. -/
def escape? : Char → Option Char
  | '\x27' => some '\x27'
  | '"' => some '"'
  | '\\' => some '\\'
  | 'n' => some '\n'
  | 'r' => some '\r'
  | 't' => some '\t'
  | '0' => some '\x00'
  | _ => none

/-- The character that is written behind a backslash, and what follows it. -/
def escaped? : List Char → Option (Char × List Char)
  | 'x' :: a :: b :: rest => (charOfHex? [a, b]).map (·, rest)
  | 'u' :: '\x7b' :: rest =>
    let digits := rest.takeWhile (· ≠ '\x7d')
    if 6 < digits.length then none
    else do return (← charOfHex? digits, rest.drop (digits.length + 1))
  | c :: rest => (escape? c).map (·, rest)
  | [] => none

/-- The rest of a text in double quotes, its characters so far last first. -/
def quoted? : (fuel : Nat) → (done : List Char) → List Char → Option (String × List Char)
  | 0, _, _ => none
  | _ + 1, _, [] => none
  | _ + 1, done, '"' :: rest => some (String.ofList done.reverse, rest)
  | fuel + 1, done, '\\' :: rest => do
    let (c, rest) ← escaped? rest
    quoted? fuel (c :: done) rest
  | fuel + 1, done, c :: rest => quoted? fuel (c :: done) rest

/-- The rest of a text up to the closing characters. -/
def rawText? (close : List Char) (done : List Char) : List Char → Option (String × List Char)
  | [] => none
  | c :: rest =>
    if close.isPrefixOf (c :: rest) then
      some (String.ofList done.reverse, (c :: rest).drop close.length)
    else rawText? close (c :: done) rest

/-- The text that stands here. -/
def text? (cs : List Char) : Option (String × List Char) :=
  match cs with
  | '"' :: rest => quoted? (rest.length + 1) [] rest
  | 'r' :: rest =>
    let hashes := rest.takeWhile (· = '#')
    match rest.drop hashes.length with
    | '"' :: rest => rawText? ('"' :: hashes) [] rest
    | _ => none
  | _ => none

/-- The character that stands here in single quotes. -/
def char? : List Char → Option (String × List Char)
  | '\x27' :: '\\' :: rest => do
    let (c, rest) ← escaped? rest
    if rest.head? = some '\x27' then some (String.singleton c, rest.drop 1) else none
  | '\x27' :: c :: '\x27' :: rest => if c = '\x27' then none else some (String.singleton c, rest)
  | _ => none

end TenantAccess.Ron
