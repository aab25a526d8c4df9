import TenantAccess.Yaml.Gap

/-!
# Plain scalars

A plain scalar ends before a colon that is followed by a blank, before a comment, and before a mark
of the flow collection it stands in.  It goes on in further lines that are indented enough.
-/

namespace TenantAccess.Yaml

/-- Whether a colon in a flow collection is followed by what must not follow it in version 1.1. -/
def isBadColon (v : Version) (inFlow : Bool) (c : Char) (next : List Char) : Bool :=
  v = .v11 && inFlow && c = ':' && next.head?.any fun d ↦ isFlowMark d || d = '?'

def endsPlain (v : Version) (inFlow : Bool) (c : Char) (next : List Char) : Bool :=
  (c = ':' && (v.endsWord next || (inFlow && next.head?.any isFlowMark))) ||
    (inFlow && isFlowMark c)

/-- The word at a place. -/
def plainWord? (v : Version) (inFlow : Bool) : List Char → Option (List Char)
  | [] => some []
  | c :: rest =>
    if isPad c || v.isBreak c then some []
    else if isBadColon v inFlow c rest then none
    else if endsPlain v inFlow c rest then some []
    else (plainWord? v inFlow rest).map (c :: ·)

/-- A tab before the margin is refused; in version 1.2 it may stand on a line that holds nothing. -/
def plainTab (v : Version) (margin : Int) (p : Place) : Option Place :=
  if margin ≤ p.column then some (p.pass 1)
  else if v = .v11 then none
  else do
    let q ← p.trail? v
    if q.endsLine v then some q else none

/-- A plain scalar from a gap on, its characters so far last first. -/
def plain? (v : Version) (inFlow : Bool) (margin : Int) :
    (fuel : Nat) → (done : List Char) → Gap → Option (String × Gap)
  | 0, _, _ => none
  | fuel + 1, done, gap =>
    let p := gap.place
    let stop := some (String.ofList done.reverse, gap)
    if p.isBoundary v || p.isAt '#' then stop
    else if v = .v12 && inFlow && p.isAt '-' && (p.rest.drop 1).head?.any isFlowMark then none
    else do
      let w ← plainWord? v inFlow p.rest
      if w.isEmpty then stop
      else
        let done := w.reverse ++ gap.text.reverse ++ done
        let p := p.pass w.length
        let gap ← Gap.follow? v (plainTab v margin) (fuel + 1) { place := p }
        if gap.place.index = p.index || (!inFlow && gap.place.column < margin) then
          some (String.ofList done.reverse, gap)
        else plain? v inFlow margin fuel done gap

/-- The plain scalar at a place, and whether the place behind it starts a line. -/
def plainScalar? (v : Version) (size : Nat) (inFlow : Bool) (margin : Int) (p : Place) :
    Option (String × Place × Bool) :=
  (plain? v inFlow margin (size + 1) [] { place := p }).map fun (text, gap) ↦
    (text, gap.place, gap.isBroken)

end TenantAccess.Yaml
