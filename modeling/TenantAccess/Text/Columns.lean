import TenantAccess.Text.Pictograph
import TenantAccess.Text.Width

/-!
# Columns that a text takes

Most characters take the columns that they take alone.  Sequences that are shown as one pictograph
take two, and so do the ligatures of some scripts take less than their letters.  A text is measured
from its end, since what a character takes depends on what follows it.
-/

namespace TenantAccess

/-- A part of a ligature, as the character before it may go on with it. -/
inductive Ligature where
  | alef | lamed | ya | yaWithVowel | consonant | joinerAndConsonant | tone | orkhon | coengLetter
deriving DecidableEq

/-- What follows a character, as far as its columns depend on it. -/
inductive Follower where
  | other
  | modifier
  | indicator
  | indicators
  | pictograph
  /-- A pictograph with a joiner before it, perhaps with a keycap, an indicator, a pair of them or
  three of them before that. -/
  | joined
  | joinedKeycap
  | joinedIndicator
  | joinedPair
  | joinedOdd
  /-- The last of the tags that name a region of a flag, and how many stand before the end. -/
  | tagEnd
  | tagDigits (count : Nat)
  | tagLetters (count : Nat)
  | part (l : Ligature)
deriving DecidableEq

/-- What follows a character. -/
structure Sequel where
  follower : Follower := .other
  /-- Whether a joiner stands before the part of a ligature. -/
  isJoined : Bool := false
  /-- Whether a selector asks for a pictograph. -/
  asPictograph : Bool := false
  /-- Whether a selector asks for text. -/
  asText : Bool := false
deriving DecidableEq

namespace Sequel

def isPart (s : Sequel) : Bool := match s.follower with
  | .part _ => true
  | _ => false

def isBehindJoiner (s : Sequel) : Bool := s.follower = .joined || s.follower = .joinedKeycap

def selectPictograph (s : Sequel) : Sequel :=
  if s.isPart || s.isBehindJoiner then { s with asPictograph := true } else { asPictograph := true }

def withoutPictograph (s : Sequel) : Sequel :=
  if !s.asPictograph then s else if s.isPart then { s with asPictograph := false } else {}

def selectText (s : Sequel) : Sequel :=
  if s.isPart then { s with asText := true } else { asText := true }

end Sequel

/-! ## Ligatures -/

def joiner : Char := '\u200D'

def pictographSelector : Char := '\uFE0F'

def textSelector : Char := '\uFE0E'

def isLam (n : Nat) : Bool :=
  isWithin [(0x644, 0x644), (0x6B5, 0x6B8), (0x76A, 0x76A), (0x8A6, 0x8A6), (0x8C7, 0x8C7)] n

def isConsonant (n : Nat) : Bool := isWithin [(0x2D31, 0x2D65), (0x2D6F, 0x2D6F)] n

/-- The ligature that a character may be the last part of. -/
def Ligature.ofLast? (n : Nat) : Option Ligature :=
  if isWithin [(0x622, 0x623), (0x625, 0x625), (0x627, 0x627), (0x671, 0x673), (0x675, 0x675),
      (0x773, 0x774), (0x870, 0x882)] n then some .alef
  else if n = 0x5DC then some .lamed
  else if n = 0x1A10 then some .ya
  else if isConsonant n then some .consonant
  else if n = 0xA4FC ∨ n = 0xA4FD then some .tone
  else if n = 0x10C03 then some .orkhon
  else if isWithin [(0x1780, 0x1782), (0x1784, 0x1787), (0x1789, 0x178C), (0x178E, 0x1793),
      (0x1795, 0x1798), (0x179B, 0x179D), (0x17A0, 0x17A0), (0x17A2, 0x17A2), (0x17A7, 0x17A7),
      (0x17AB, 0x17AC), (0x17AF, 0x17AF)] n then some .coengLetter
  else none

/-- Marks that do not count between the parts of a ligature. -/
def isLigatureTransparent (n : Nat) : Bool :=
  isWithin [(0x34F, 0x34F), (0x17B4, 0x17B5), (0x180B, 0x180D), (0x180F, 0x180F), (0x200D, 0x200D),
    (0xFE00, 0xFE0F), (0xE0100, 0xE01EF)] n

/-- First and last of the ranges of characters without a column across which letters do not join. -/
def separatingRanges : List (Nat × Nat) :=
  [(0x605, 0x605), (0x890, 0x891), (0x8E2, 0x8E2), (0x9BE, 0x9BE), (0x9D7, 0x9D7), (0xB3E, 0xB3E),
    (0xB57, 0xB57), (0xBBE, 0xBBE), (0xBD7, 0xBD7), (0xCC0, 0xCC0), (0xCC2, 0xCC2),
    (0xCC7, 0xCC8), (0xCCA, 0xCCB), (0xCD5, 0xCD6), (0xD3E, 0xD3E), (0xD4E, 0xD4E),
    (0xD57, 0xD57), (0xDCF, 0xDCF), (0xDDF, 0xDDF), (0x1160, 0x11FF), (0x180E, 0x180E),
    (0x1B35, 0x1B35), (0x1B3B, 0x1B3B), (0x1B3D, 0x1B3D), (0x1B43, 0x1B43), (0x200C, 0x200D),
    (0x2065, 0x2069), (0x302E, 0x302F), (0x3164, 0x3164), (0xA8FA, 0xA8FA), (0xD7B0, 0xD7C6),
    (0xD7CB, 0xD7FB), (0xFF9E, 0xFFA0), (0xFFF0, 0xFFF8), (0x111C2, 0x111C3), (0x1133E, 0x1133E),
    (0x11357, 0x11357), (0x114B0, 0x114B0), (0x114BD, 0x114BD), (0x115AF, 0x115AF),
    (0x11930, 0x11930), (0x1193F, 0x1193F), (0x11941, 0x11941), (0x11A3A, 0x11A3A),
    (0x11A84, 0x11A89), (0x11D46, 0x11D46), (0x11F02, 0x11F02), (0x1D165, 0x1D165),
    (0x1D16E, 0x1D172), (0xE0000, 0xE0000), (0xE0002, 0xE001F), (0xE0080, 0xE00FF),
    (0xE01F0, 0xE0FFF)]

/-- Marks that do not count between the letters of cursive scripts. -/
def isCursiveTransparent (c : Char) : Bool :=
  columnsOfChar c = 0 && !isWithin separatingRanges c.toNat

/-- What a character takes, and what it is the start of, before a part of a ligature that it goes on
with. -/
def Ligature.extend? (l : Ligature) (isJoined : Bool) (c : Char) : Option (Int × Sequel) :=
  let n := c.toNat
  match l with
  | .alef =>
    if isLam n then some (0, {})
    else if isCursiveTransparent c then some (0, { follower := .part .alef })
    else none
  | .lamed => if isJoined && n = 0x5D0 then some (0, {}) else none
  | .ya => if isJoined && n = 0x1A17 then some (0, { follower := .part .yaWithVowel }) else none
  | .yaWithVowel => if n = 0x1A15 then some (0, {}) else none
  | .consonant =>
    if n = 0x2D7F then some (1, { follower := .part .joinerAndConsonant })
    else if isJoined && isConsonant n then some (0, {})
    else none
  | .joinerAndConsonant => if isConsonant n then some (-1, {}) else none
  | .tone => if 0xA4F8 ≤ n && n ≤ 0xA4FB then some (0, {}) else none
  | .orkhon => if isJoined && n = 0x10C32 then some (0, {}) else none
  | .coengLetter => if n = 0x17D2 then some (-1, {}) else none

/-! ## Pictographs -/

def isTagLetter (n : Nat) : Bool := 0xE0061 ≤ n && n ≤ 0xE007A

def isTagDigit (n : Nat) : Bool := 0xE0030 ≤ n && n ≤ 0xE0039

def isTagEnd (n : Nat) : Bool := n = 0xE007F

def isKeycap (n : Nat) : Bool := n = 0x20E3

/-- The flag that tags stand behind. -/
def isTaggedFlag (n : Nat) : Bool := n = 0x1F3F4

/-- The tags of a region with one more in front, or the flag in front of all of them. -/
def tag? (letters digits : Option Nat) (isWhole : Bool) (n : Nat) : Option (Int × Sequel) :=
  if isTagLetter n then letters.map fun count ↦ (0, { follower := .tagLetters count })
  else if isTagDigit n then digits.map fun count ↦ (0, { follower := .tagDigits count })
  else if isWhole && isTaggedFlag n then some (0, { follower := .pictograph })
  else none

/-- What a character takes, and what it is the start of, before a part of a sequence that is shown
as one pictograph. -/
def Follower.extend? (f : Follower) (c : Char) : Option (Int × Sequel) :=
  let n := c.toNat
  let whole (width : Int) (f : Follower) : Option (Int × Sequel) := some (width, { follower := f })
  match f with
  | .modifier =>
    if isModifiable c then whole 0 .pictograph else if c = joiner then whole 0 .joined else none
  | .indicator => if isIndicator c then whole 1 .indicators else none
  | .indicators =>
    if isIndicator c then whole 1 .indicators else if c = joiner then whole 0 .joined else none
  | .pictograph => if c = joiner then whole 0 .joined else none
  | .joined =>
    if isKeycap n then whole 0 .joinedKeycap
    else if isIndicator c then whole 1 .joinedIndicator
    else if isModifier c then whole 0 .modifier
    else if isTagEnd n then whole 0 .tagEnd
    else if isPictograph c then whole 0 .pictograph
    else none
  | .joinedIndicator => if isIndicator c then whole (-1) .joinedPair else none
  | .joinedPair =>
    if isIndicator c then whole 3 .joinedOdd else if c = joiner then whole 0 .joined else none
  | .joinedOdd =>
    if isIndicator c then whole (-1) .joinedPair else if c = joiner then whole 0 .joined else none
  | .tagEnd => tag? (some 1) (some 1) false n
  | .tagLetters count =>
    tag? (if count < 6 then some (count + 1) else none) (if count < 5 then some 1 else none)
      (3 ≤ count) n
  | .tagDigits count => tag? none (if count < 3 then some (count + 1) else none) (count = 3) n
  | .other | .joinedKeycap | .part _ => none

/-! ## Texts -/

/-- What a character takes alone, and what it is the start of. -/
def alone (c : Char) : Int × Sequel :=
  (columnsOfChar c,
    if c = pictographSelector then { asPictograph := true }
    else if c = textSelector then { asText := true }
    else if isModifier c then { follower := .modifier }
    else if isIndicator c then { follower := .indicator }
    else if isPictograph c then { follower := .pictograph }
    else
      match Ligature.ofLast? c.toNat with
      | some l => { follower := .part l }
      | none => {})

/-- What a character takes before a sequel that no selector belongs to, and what it is the start
of. -/
def prepend (c : Char) (s : Sequel) : Int × Sequel :=
  match s.follower with
  | .part l =>
    if l ≠ .alef ∧ c = joiner then (0, { s with isJoined := true })
    else if l ≠ .alef ∧ isLigatureTransparent c.toNat then (0, s)
    else (l.extend? s.isJoined c).getD (alone c)
  | f => (f.extend? c).getD (alone c)

/-- What a character takes before some sequel, and what it is the start of. -/
def measure (c : Char) (s : Sequel) : Int × Sequel :=
  if s.asPictograph && hasVariants c then
    (if s.isBehindJoiner then 0 else 2, { follower := .pictograph })
  else
    let s := s.withoutPictograph
    if c.toNat ≤ 0xA0 then (columnsOfChar c, {})
    else if s = {} then alone c
    else if c = pictographSelector then (0, s.selectPictograph)
    else if c = textSelector then (0, s.selectText)
    else if s.asText && narrowsAsText c then (1, {})
    else prepend c { s with asText := false }

/-- The columns of a text on one line. -/
def columns (s : String) : Nat :=
  (s.toList.foldr (fun c (width, sequel) ↦
    let (more, sequel) := measure c sequel
    (width + more, sequel)) ((0 : Int), ({} : Sequel))).1.toNat

end TenantAccess
