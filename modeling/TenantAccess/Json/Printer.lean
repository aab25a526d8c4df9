import TenantAccess.Json.Basic

/-!
# Writing JSON text

`compact` puts a document on one line; `pretty` indents by two spaces.
-/

namespace TenantAccess.Json

def hexDigits : List Char := "0123456789abcdef".toList

/-- A character inside quotes.  Control characters without a short form are written `\u00XX`. -/
def quoteChar (c : Char) : List Char :=
  if c = '"' then ['\\', '"']
  else if c = '\\' then ['\\', '\\']
  else if c = '\n' then ['\\', 'n']
  else if c = '\r' then ['\\', 'r']
  else if c = '\t' then ['\\', 't']
  else if c = '\x08' then ['\\', 'b']
  else if c = '\x0c' then ['\\', 'f']
  else if c.toNat < 0x20 then
    ['\\', 'u', '0', '0', hexDigits.getD (c.toNat / 16) '0', hexDigits.getD (c.toNat % 16) '0']
  else [c]

def quote (s : String) : String := String.ofList ('"' :: s.toList.flatMap quoteChar ++ ['"'])

def scalarText : Json → String
  | null => "null"
  | bool b => if b then "true" else "false"
  | int n => toString n
  | real x => x.fractionText
  | str s => quote s
  | arr _ => "[]"
  | obj _ => "\x7b\x7d"

mutual

def compact : Json → String
  | arr elems => "[" ++ compactElems elems ++ "]"
  | obj fields => "\x7b" ++ compactFields fields ++ "\x7d"
  | j => scalarText j

def compactElems : List Json → String
  | [] => ""
  | [j] => compact j
  | j :: rest => compact j ++ "," ++ compactElems rest

def compactFields : List (String × Json) → String
  | [] => ""
  | [(k, j)] => quote k ++ ":" ++ compact j
  | (k, j) :: rest => quote k ++ ":" ++ compact j ++ "," ++ compactFields rest

end

def spaces (n : Nat) : String := String.ofList (List.replicate n ' ')

mutual

/-- The text of a document whose lines after the first stand `indent` columns in. -/
def prettyAt (indent : Nat) : Json → String
  | arr (j :: rest) =>
    "[\n" ++ prettyElems (indent + 2) (j :: rest) ++ "\n" ++ spaces indent ++ "]"
  | obj (e :: rest) =>
    "\x7b\n" ++ prettyFields (indent + 2) (e :: rest) ++ "\n" ++ spaces indent ++ "\x7d"
  | j => scalarText j

def prettyElems (indent : Nat) : List Json → String
  | [] => ""
  | [j] => spaces indent ++ prettyAt indent j
  | j :: rest => spaces indent ++ prettyAt indent j ++ ",\n" ++ prettyElems indent rest

def prettyFields (indent : Nat) : List (String × Json) → String
  | [] => ""
  | [(k, j)] => spaces indent ++ quote k ++ ": " ++ prettyAt indent j
  | (k, j) :: rest =>
    spaces indent ++ quote k ++ ": " ++ prettyAt indent j ++ ",\n" ++ prettyFields indent rest

end

def pretty (j : Json) : String := prettyAt 0 j

end TenantAccess.Json
