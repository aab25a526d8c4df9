import TenantAccess.Yaml.Place

/-!
# Blocks of lines

A block keeps its lines as they are, or folds them.  Its first line that is not empty says how far
the lines are indented, unless a digit behind the opening mark does.
-/

namespace TenantAccess.Yaml

/-- What becomes of the line ends behind the last line. -/
inductive Chomp where
  | strip | clip | keep
deriving DecidableEq

/-- The marks behind the one that opens a block. -/
structure BlockMarks where
  chomp : Chomp := .clip
  /-- By how much the lines are indented, if that is said. -/
  indentation : Nat := 0

def chomp? : Char → Option Chomp
  | '+' => some .keep
  | '-' => some .strip
  | _ => none

def indentation? (c : Char) : Option Nat :=
  if c.isDigit ∧ c ≠ '0' then some (c.toNat - '0'.toNat) else none

/-- The marks of a block in either order, and how many there are. -/
def blockMarks : List Char → BlockMarks × Nat
  | [] => ({}, 0)
  | a :: rest =>
    match chomp? a, indentation? a with
    | some chomp, _ =>
      match rest.head?.bind indentation? with
      | some n => (⟨chomp, n⟩, 2)
      | none => (⟨chomp, 0⟩, 1)
    | none, some n =>
      match rest.head?.bind chomp? with
      | some chomp => (⟨chomp, n⟩, 2)
      | none => (⟨.clip, n⟩, 1)
    | none, none => ({}, 0)

/-- Pass the indentation and empty lines; their line ends are kept.  In version 1.1 no tab may stand
there. -/
def passIndentation? (v : Version) (margin : Nat) :
    (fuel : Nat) → (breaks : List Char) → Place → Option (List Char × Place)
  | 0, _, _ => none
  | fuel + 1, breaks, p =>
    let p := p.pass ((p.rest.take (margin - p.column)).takeWhile (· = ' ')).length
    match p.rest with
    | [] => some (breaks, p)
    | c :: _ =>
      if v = .v11 ∧ c = '\t' ∧ p.column < margin then none
      else if v.isBreak c then passIndentation? v margin fuel (breaks ++ p.breakText) p.newline
      else some (breaks, p)

/-- Pass empty lines and the indentation of the first line that is not, and say how far the longest
of them is indented. -/
def passFirstIndentation? (v : Version) :
    (fuel : Nat) → (longest : Nat) → (breaks : List Char) → Place →
      Option (Nat × List Char × Place)
  | 0, _, _, _ => none
  | fuel + 1, longest, breaks, p =>
    let p := p.passWhile (· = ' ')
    let longest := max longest p.column
    match p.rest with
    | [] => some (longest, breaks, p)
    | c :: _ =>
      if v = .v11 ∧ c = '\t' then none
      else if v.isBreak c then
        passFirstIndentation? v fuel longest (breaks ++ p.breakText) p.newline
      else some (longest, breaks, p)

/-- The lines of a block so far. -/
structure BlockText where
  place : Place
  done : List Char := []
  /-- The line end behind the last line. -/
  lineEnd : List Char := []
  /-- The line ends of the empty lines behind it. -/
  further : List Char := []
  /-- Whether the last line starts with a blank. -/
  isLoose : Bool := false

/-- Put the line at the place behind those before it.  In a folded block a line end between lines
that do not start with a blank stands for a blank. -/
def BlockText.addLine (v : Version) (isFolded : Bool) (t : BlockText) : BlockText :=
  let isLoose := t.place.rest.head?.any isPad
  let between :=
    if isFolded && t.lineEnd.head? = some '\n' && !t.isLoose && !isLoose then
      if t.further.isEmpty then [' '] else t.further
    else t.lineEnd ++ t.further
  let line := t.place.rest.takeWhile fun c ↦ !v.isBreak c
  { place := t.place.pass line.length
    done := line.reverse ++ between.reverse ++ t.done
    isLoose }

/-- Whether a block goes on: with a line at the margin, but not with the end of the document. -/
def BlockText.goesOn (v : Version) (margin : Nat) (p : Place) : Bool :=
  p.column = margin && !p.rest.isEmpty &&
    !(v = .v12 && margin = 0 && v.startsWithMark '.' p.rest)

/-- Put every line of the block behind those before it. -/
def BlockText.addLines? (v : Version) (isFolded : Bool) (margin : Nat) :
    (fuel : Nat) → BlockText → Option BlockText
  | 0, _ => none
  | fuel + 1, t =>
    if !goesOn v margin t.place then some t
    else
      let t := t.addLine v isFolded
      if t.place.rest.isEmpty then some t
      else do
        let (further, p) ← passIndentation? v margin (fuel + 1) [] t.place.newline
        addLines? v isFolded margin fuel
          { t with place := p, lineEnd := t.place.breakText, further }

/-- What is left of the line ends behind the last line.  In version 1.2 a text that breaks off on a
line of the block counts as if the line ended. -/
def BlockText.tail (v : Version) (chomp : Chomp) (margin : Nat) (t : BlockText) : List Char :=
  let cut := v = .v12 && t.place.rest.isEmpty && max margin 1 ≤ t.place.column
  match chomp with
  | .strip => []
  | .clip => t.lineEnd ++ if cut then ['\n'] else []
  | .keep => t.lineEnd ++ (if cut then ['\n'] else []) ++ t.further

/-- A block of which there is no line in version 1.2: `opening` is the line end behind its marks. -/
def emptyBlock (chomp : Chomp) (opening further : List Char) : List Char :=
  match chomp with
  | .strip => []
  | .clip => opening
  | .keep => if further.isEmpty then opening else further

/-- The block at a place inside a collection that is indented by `indent`, which is negative
outside every collection. -/
def block? (v : Version) (size : Nat) (indent : Int) (p : Place) : Option (String × Place) := do
  let isFolded := p.isAt '>'
  let p := p.pass 1
  let (marks, width) := blockMarks p.rest
  let p ← (p.pass width).trail? v
  if !p.endsLine v then none
  let opening := if p.rest.isEmpty then [] else ['\n']
  let start := if p.rest.isEmpty then p else p.newline
  if v = .v12 && start.isAt '\t' then none
  let fuel := size + 1
  let (margin, further, q) ←
    if marks.indentation = 0 then do
      let (longest, further, q) ← passFirstIndentation? v fuel 0 [] start
      let least := if v = .v11 then max (indent + 1) 1 else indent + 1
      some (max longest least.toNat, further, q)
    else do
      let margin := (max indent 0).toNat + marks.indentation
      let (further, q) ← passIndentation? v margin fuel [] start
      some (margin, further, q)
  if v = .v12 && q.rest.isEmpty then
    some (String.ofList (emptyBlock marks.chomp opening further), q)
  else if v = .v12 && q.column < margin && indent < q.column then none
  else
    let t ← BlockText.addLines? v isFolded margin fuel { place := q, further }
    some (String.ofList (t.done.reverse ++ t.tail v marks.chomp margin), t.place)

end TenantAccess.Yaml
