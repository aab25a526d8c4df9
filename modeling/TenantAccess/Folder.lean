/-!
# A folder of files

Paths lead from the folder to its files, one name at a time.  Whatever lies outside the folder is
not seen.
-/

namespace TenantAccess

/-- Files, each with the names that lead to it from the folder. -/
structure Folder where
  files : List (List String × String) := []

namespace Folder

inductive Failure where
  | missing | throughFile | isFolder | longName | hasNul
deriving DecidableEq

def Failure.text : Failure → String
  | missing => "No such file or directory (os error 2)"
  | throughFile => "Not a directory (os error 20)"
  | isFolder => "Is a directory (os error 21)"
  | longName => "File name too long (os error 36)"
  | hasNul => "file name contained an unexpected NUL byte"

/-- The names in a path, without those that lead nowhere. -/
def names (path : String) : List String := (path.splitOn "/").filter fun n ↦ n ≠ "" && n ≠ "."

def ofFiles (files : List (String × String)) : Folder :=
  ⟨files.map fun (path, text) ↦ (names path, text)⟩

inductive Spot where
  | file (text : String)
  /-- A folder, with the names that lead to it. -/
  | folder (names : List String)
  | outside

def nameLimit : Nat := 255

def pathLimit : Nat := 4095

def enter (f : Folder) (spot : Spot) (name : String) : Except Failure Spot :=
  match spot with
  | .file _ => .error .throughFile
  | spot =>
    if name = "" ∨ name = "." then .ok spot
    else if nameLimit < name.utf8ByteSize then .error .longName
    else
      match spot with
      | .folder names =>
        if name = ".." then .ok (if names = [] then .outside else .folder names.dropLast)
        else
          let names := names ++ [name]
          match f.files.lookup names with
          | some text => .ok (.file text)
          | none =>
            if f.files.any (fun e ↦ names.isPrefixOf e.1) then .ok (.folder names)
            else .error .missing
      | _ => if name = ".." then .ok .outside else .error .missing

/-- The text of the file that a path leads to. -/
def read (f : Folder) (path : String) : Except Failure String :=
  if path.contains (Char.ofNat 0) then .error .hasNul
  else if path = "" then .error .missing
  else if pathLimit < path.utf8ByteSize then .error .longName
  else
    let start := if "/".isPrefixOf path then Spot.outside else .folder []
    match (path.splitOn "/").foldlM (enter f) start with
    | .ok (.file text) => .ok text
    | .ok _ => .error .isFolder
    | .error e => .error e

def reader (f : Folder) (path : String) : Except String String :=
  (f.read path).mapError Failure.text

end Folder

end TenantAccess
