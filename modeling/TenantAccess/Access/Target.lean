import TenantAccess.Text.Character

/-!
# The target of a request

A request names its target by path and query alone, in visible ASCII.  Segments `.` and `..` of the
path are followed before it is sent, and the fragment of the address stays behind.
-/

namespace TenantAccess.Target

/-- A byte as it stands in a target. -/
def escaped (b : UInt8) : List Char :=
  '%' :: [b.toNat / 16, b.toNat % 16].map fun d ↦ (Nat.digitChar d).toUpper

/-- A text with every character outside visible ASCII escaped, and those of `reserved`. -/
def escape (reserved cs : List Char) : List Char :=
  cs.flatMap fun c ↦
    if c ∈ reserved ∨ c.toNat ≤ 0x20 ∨ 0x7F ≤ c.toNat then
      (String.utf8EncodeChar c).flatMap escaped
    else [c]

/-! ## Paths -/

/-- A point may be written as it is or escaped. -/
def isSelf (segment : List Char) : Bool :=
  segment.map Char.toLower ∈ [".".toList, "%2e".toList]

def isParent (segment : List Char) : Bool :=
  segment.map Char.toLower ∈ ["..".toList, ".%2e".toList, "%2e.".toList, "%2e%2e".toList]

/-- A letter with a colon or bar names a drive, which has no parent. -/
def isDrive : List Char → Bool
  | [c, d] => c.isAlpha && (d = ':' || d = '|')
  | _ => false

/-- The folders down to the current one, the innermost first, after one more segment. -/
def enter (folders : List (List Char)) (segment : List Char) : List (List Char) :=
  if isParent segment then
    if folders.head?.any isDrive then folders else folders.tail
  else if isSelf segment then folders
  else segment :: folders

/-- The path to the last of some segments. -/
def follow : List (List Char) → List (List Char) → List Char
  | folders, [] => '/' :: folders.reverse.flatMap (· ++ ['/'])
  | folders, [last] =>
    if isSelf last || isParent last then follow (enter folders last) []
    else follow folders [] ++ last
  | folders, segment :: next :: rest => follow (enter folders segment) (next :: rest)

/-- The path that some characters write; a backslash divides segments as well. -/
def path (cs : List Char) : List Char :=
  let cs := (escape "\"<>`\x7b\x7d".toList cs).map fun c ↦ if c = '\\' then '/' else c
  let cs := if cs.head? = some '/' then cs.tail else cs
  follow [] (((String.ofList cs).splitOn "/").map String.toList)

/-! ## Addresses -/

/-- Whether a server can be named so: the port, if one is given, has sixteen bits. -/
def isServer (server : List Char) : Bool :=
  let port := (server.dropWhile (· ≠ ':')).drop 1
  port.all Char.isDigit && natOfDigits port < 65536

/-- The target of what follows the scheme of an address; none if it names no server.  Tabs and line
breaks do not count. -/
def ofAddress? (cs : List Char) : Option (List Char) :=
  let cs := (cs.filter (· ∉ ['\t', '\n', '\r'])).takeWhile (· ≠ '#')
  let server := cs.takeWhile (· ∉ ['/', '\\', '?'])
  let rest := cs.drop server.length
  let query := rest.dropWhile (· ≠ '?')
  if isServer server then
    some (path (rest.takeWhile (· ≠ '?')) ++ escape ['"', '\'', '<', '>'] query)
  else none

end TenantAccess.Target
