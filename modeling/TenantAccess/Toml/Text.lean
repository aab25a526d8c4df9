import TenantAccess.Text.Character

/-!
# Texts in TOML

A text stands in one or in three quotes of either kind.  In double quotes a backslash writes other
characters; in three quotes the text may run over lines, and up to two quotes may stand before the
closing ones.
-/

namespace TenantAccess.Toml

/-- Characters that stand for themselves. -/
def isText (c : Char) : Bool := c = '\t' || (0x20 ≤ c.toNat && c ≠ '\x7f')

def isSpace (c : Char) : Bool := c = ' ' || c = '\t'

/-- A text from its characters, last first, and what follows it. -/
def closed (acc rest : List Char) : Option (String × List Char) :=
  some (String.ofList acc.reverse, rest)

/-- The character of a two-letter escape. -/
def escape? : Char → Option Char
  | '"' => some '"'
  | '\\' => some '\\'
  | 'b' => some '\x08'
  | 'f' => some '\x0c'
  | 'n' => some '\n'
  | 'r' => some '\r'
  | 't' => some '\t'
  | _ => none

/-- The rest of a text in double quotes, its characters so far last first. -/
def quoted (acc : List Char) : List Char → Option (String × List Char)
  | [] => none
  | '"' :: rest => closed acc rest
  | '\\' :: 'u' :: a :: b :: c :: d :: rest => do
    quoted ((← charOfHex? [a, b, c, d]) :: acc) rest
  | '\\' :: 'U' :: a :: b :: c :: d :: e :: f :: g :: h :: rest => do
    quoted ((← charOfHex? [a, b, c, d, e, f, g, h]) :: acc) rest
  | '\\' :: c :: rest => do quoted ((← escape? c) :: acc) rest
  | c :: rest => if isText c then quoted (c :: acc) rest else none

/-- The rest of a text in single quotes. -/
def literal (acc : List Char) : List Char → Option (String × List Char)
  | [] => none
  | '\x27' :: rest => closed acc rest
  | c :: rest => if isText c then literal (c :: acc) rest else none

/-- Whether a line end has been escaped. -/
inductive Gap where
  | none
  /-- After the backslash: only blanks may stand before the line end. -/
  | awaited
  /-- After the line end: blanks and line ends do not count. -/
  | skipped
deriving DecidableEq

namespace Gap

/-- After a line end. -/
def next : Gap → Gap
  | none => none
  | _ => skipped

/-- The characters of a text with a line end, if that counts. -/
def lineEnd (acc : List Char) : Gap → List Char
  | none => '\n' :: acc
  | _ => acc

end Gap

/-- The rest of a text in three double quotes. -/
def longQuoted (gap : Gap) (acc : List Char) : List Char → Option (String × List Char)
  | [] => none
  | '"' :: '"' :: '"' :: rest =>
    if gap = .awaited then none
    else
      match rest with
      | '"' :: '"' :: rest => closed ('"' :: '"' :: acc) rest
      | '"' :: rest => closed ('"' :: acc) rest
      | rest => closed acc rest
  | '\r' :: '\n' :: rest => longQuoted gap.next (gap.lineEnd acc) rest
  | '\n' :: rest => longQuoted gap.next (gap.lineEnd acc) rest
  | '\\' :: 'u' :: a :: b :: c :: d :: rest =>
    if gap = .awaited then none
    else do longQuoted .none ((← charOfHex? [a, b, c, d]) :: acc) rest
  | '\\' :: 'U' :: a :: b :: c :: d :: e :: f :: g :: h :: rest =>
    if gap = .awaited then none
    else do longQuoted .none ((← charOfHex? [a, b, c, d, e, f, g, h]) :: acc) rest
  | '\\' :: '\r' :: '\n' :: rest =>
    if gap = .awaited then none else longQuoted .skipped acc rest
  | '\\' :: c :: rest =>
    if gap = .awaited then none
    else if c = '\n' then longQuoted .skipped acc rest
    else if isSpace c then longQuoted .awaited acc rest
    else do longQuoted .none ((← escape? c) :: acc) rest
  | c :: rest =>
    if gap ≠ .none ∧ isSpace c then longQuoted gap acc rest
    else if gap = .awaited ∨ !isText c then none
    else longQuoted .none (c :: acc) rest

/-- The rest of a text in three single quotes. -/
def longLiteral (acc : List Char) : List Char → Option (String × List Char)
  | [] => none
  | '\x27' :: '\x27' :: '\x27' :: rest =>
    match rest with
    | '\x27' :: '\x27' :: rest => closed ('\x27' :: '\x27' :: acc) rest
    | '\x27' :: rest => closed ('\x27' :: acc) rest
    | rest => closed acc rest
  | '\r' :: '\n' :: rest => longLiteral ('\n' :: acc) rest
  | c :: rest => if isText c || c = '\n' then longLiteral (c :: acc) rest else none

/-- A line end right after three opening quotes does not count. -/
def afterOpening : List Char → List Char
  | '\n' :: rest => rest
  | '\r' :: '\n' :: rest => rest
  | rest => rest

/-- A text that starts with a quote. -/
def text? : List Char → Option (String × List Char)
  | '"' :: '"' :: '"' :: rest => longQuoted .none [] (afterOpening rest)
  | '"' :: rest => quoted [] rest
  | '\x27' :: '\x27' :: '\x27' :: rest => longLiteral [] (afterOpening rest)
  | '\x27' :: rest => literal [] rest
  | _ => none

end TenantAccess.Toml
