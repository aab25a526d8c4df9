import TenantAccess.Yaml.Place

/-!
# Scalars over several lines

A line end inside a quoted or a plain scalar stands for a blank, and if empty lines follow, for as
many line ends as there are of those.
-/

namespace TenantAccess.Yaml

/-- The blanks and line ends between two words of a scalar. -/
structure Gap where
  place : Place
  /-- Blanks before the first line end. -/
  blanks : List Char := []
  /-- The first line end. -/
  first : List Char := []
  /-- Further line ends. -/
  further : List Char := []
  /-- Whether the last line end is passed and blanks do not count. -/
  isBroken : Bool := false

namespace Gap

/-- What the gap stands for. -/
def text (g : Gap) : List Char :=
  if !g.isBroken then g.blanks
  else if g.first.head? = some '\n' then if g.further.isEmpty then [' '] else g.further
  else g.first ++ g.further

/-- Follow a gap to its end.  `tab` says what becomes of a tab at the start of a line. -/
def follow? (v : Version) (tab : Place → Option Place) : (fuel : Nat) → Gap → Option Gap
  | 0, _ => none
  | fuel + 1, g =>
    match g.place.rest with
    | [] => some g
    | c :: _ =>
      if isPad c then
        if !g.isBroken then
          follow? v tab fuel { g with place := g.place.pass 1, blanks := g.blanks ++ [c] }
        else if c = '\t' then do
          let p ← tab g.place
          follow? v tab fuel { g with place := p, isBroken := p.isFresh }
        else follow? v tab fuel { g with place := g.place.pass 1 }
      else if v.isBreak c then
        if g.isBroken then
          follow? v tab fuel
            { g with place := g.place.newline, further := g.further ++ g.place.breakText }
        else
          follow? v tab fuel
            { g with
              place := g.place.newline
              blanks := []
              first := g.first ++ g.place.breakText
              isBroken := true }
      else some g

end Gap

end TenantAccess.Yaml
