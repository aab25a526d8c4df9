import TenantAccess.Json.MergePatch
import TenantAccess.Json.Number
import TenantAccess.Text.LowerCase

/-!
# Settings under paths

A variable named `DBAAS_AUTHZ__PART__KEY`, in any case, sets the member `key` of the member `part`.
At the top of a file a point in a key stands between the words of a path as well, and `[n]` leads to
an element of a list.  Keys are in lower case, save those inside lists.
-/

namespace TenantAccess

/-- What the names of such variables start with. -/
def settingsMark : List Char := "dbaas_authz__".toList

/-- Write a point for each pair of underscores, from the left. -/
def pointed : List Char → List Char
  | [] => []
  | '_' :: '_' :: rest => '.' :: pointed rest
  | c :: rest => c :: pointed rest

def settingsKey? (name : String) : Option String :=
  let cs := (lowerCase name).toList
  if settingsMark.isPrefixOf cs then
    some (String.ofList (pointed (cs.drop settingsMark.length)))
  else none

/-- A step on a path. -/
inductive PathStep where
  | member (key : String)
  /-- An element of a list, counted from the end if negative. -/
  | element (index : Int)
deriving DecidableEq

namespace PathStep

def isWordChar (c : Char) : Bool := c.isAlphanum || c = ' ' || c = '_' || c = '-'

def isPadding (c : Char) : Bool := c = ' ' || c = '\t' || c = '\r' || c = '\n'

/-- The number between brackets, which may be padded, and what follows the closing one. -/
def index? (cs : List Char) : Option (Int × List Char) :=
  let cs := cs.dropWhile isPadding
  let (negative, cs) := match cs with
    | '-' :: cs => (true, cs)
    | cs => (false, cs)
  let digits := cs.takeWhile Char.isDigit
  let n := natOfDigits digits
  match (cs.dropWhile Char.isDigit).dropWhile isPadding with
  | ']' :: rest =>
    if digits.isEmpty ∨ Json.wordHalf ≤ n then none else some (if negative then -n else n, rest)
  | _ => none

/-- The steps after the first word of a path. -/
def parse? : (fuel : Nat) → List Char → Option (List PathStep)
  | _, [] => some []
  | 0, _ => none
  | fuel + 1, c :: cs =>
    if c = '.' then
      let word := cs.takeWhile isWordChar
      if word.isEmpty then none
      else do
        let steps ← parse? fuel (cs.dropWhile isWordChar)
        some (member (lowerCase (String.ofList word)) :: steps)
    else if c = '[' then do
      let (n, rest) ← index? cs
      some (element n :: (← parse? fuel rest))
    else none

/-- The path that a key writes; a key that writes none is a path of one step. -/
def ofKey (key : String) : List PathStep :=
  let cs := key.toList
  let word := cs.takeWhile isWordChar
  match if word.isEmpty then none else parse? cs.length (cs.dropWhile isWordChar) with
  | some steps => member (lowerCase (String.ofList word)) :: steps
  | none => [member (lowerCase key)]

end PathStep

namespace Json

/-- What is on a list before one puts something there: nothing, unless it is one. -/
def elements : Json → List Json
  | arr elems => elems
  | _ => []

mutual

/-- What `old` becomes under a new document: the members of an object join or replace those that are
there, and anything else replaces `old`. -/
def overlay (old : Json) : Json → Json
  | obj fields =>
    if fields.isEmpty ∧ !old.isNull then old else obj (overlayMembers old.members fields)
  | v => v

def overlayMembers (olds : List (String × Json)) : List (String × Json) → List (String × Json)
  | [] => olds
  | (key, v) :: rest =>
    let key := lowerCase key
    overlayMembers (setMember key (overlay ((member? key olds).getD null) v) olds) rest

end

/-- Replace an element; a list that is too short is filled up with nulls. -/
def setElement (n : Nat) (v : Json) (elems : List Json) : List Json :=
  (elems ++ List.replicate (n + 1 - elems.length) null).set n v

/-- Put a document at a path, making objects and lists on the way where there are none.  A place
before the first element cannot be reached. -/
def overlayAt? (v : Json) : List PathStep → Json → Option Json
  | [], old => some (overlay old v)
  | .member key :: path, old => do
    let child ← overlayAt? v path ((member? key old.members).getD null)
    some (obj (setMember key child old.members))
  | .element index :: path, old =>
    let elems := old.elements
    let n := if 0 ≤ index then index else elems.length + index
    if n < 0 then none
    else
      match path with
      | [] => some (arr (setElement n.toNat v elems))
      | step :: path => do
        let child ← overlayAt? v (step :: path) (elems.getD n.toNat null)
        some (arr (setElement n.toNat child elems))

end Json

/-- Put members under the paths that their keys write. -/
def overlayAll? (fields : List (String × Json)) (j : Json) : Option Json :=
  fields.foldlM (fun j (key, v) ↦ Json.overlayAt? v (PathStep.ofKey key) j) j

/-- A document under the settings of the environment. -/
def overrideBy? (env : List (String × String)) (j : Json) : Option Json :=
  overlayAll? (env.filterMap fun (name, value) ↦ (settingsKey? name).map (·, .str value)) j

end TenantAccess
