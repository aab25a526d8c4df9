import Mathlib.Data.List.Basic
import TenantAccess.Proofs.Store.Coherent

/-!
# Stamps in plain writing

Stamps can be written anew so that they tell no more than where they are held, or when they are to be
given out.  Stores in which the same places hold the same stamps then hold the same texts.
-/

namespace TenantAccess

/-- What there is to know of a stamp. -/
inductive Stamp
  | blank
  | held (place : Nat)
  | issued (number : Nat)
  | foreign (text : String)

namespace Stamp

def text : Stamp → String
  | .blank => ""
  | .held place => "held " ++ toString place
  | .issued number => toString number
  | .foreign text => "foreign " ++ text

theorem exists_toDigits_eq_cons (n : Nat) :
    ∃ c rest, Nat.toDigits 10 n = c :: rest ∧ c.isDigit = true := by
  cases h : Nat.toDigits 10 n with
  | nil => exact absurd h Nat.toDigits_ne_nil
  | cons c rest =>
    exact ⟨c, rest, rfl, Nat.isDigit_of_mem_toDigits (by decide) (by decide) (h ▸ List.mem_cons_self)⟩

theorem toDigits_ne_cons {n : Nat} {c : Char} (hc : c.isDigit = false) (rest : List Char) :
    Nat.toDigits 10 n ≠ c :: rest := by
  intro heq
  obtain ⟨d, _, hd, hdigit⟩ := exists_toDigits_eq_cons n
  rw [heq] at hd
  cases hd
  rw [hc] at hdigit
  cases hdigit

theorem toString_ne_empty (n : Nat) : toString n ≠ "" := by
  intro h
  have hdigits : Nat.toDigits 10 n = [] := String.ofList_injective h
  exact Nat.toDigits_ne_nil hdigits

/-- The first letter tells what kind of stamp it is. -/
theorem text_injective {a b : Stamp} (h : a.text = b.text) : a = b := by
  have hchars := congrArg String.toList h
  cases a <;> cases b <;> simp [text] at hchars
  case blank.blank => rfl
  case held.held => exact congrArg held (toString_nat_injective (congrArg String.ofList hchars))
  case issued.issued => exact congrArg issued (toString_nat_injective h)
  case foreign.foreign => exact congrArg foreign (String.toList_inj.1 hchars)
  case held.issued => exact absurd hchars.symm (toDigits_ne_cons rfl _)
  case issued.held => exact absurd hchars (toDigits_ne_cons rfl _)
  case foreign.issued => exact absurd hchars.symm (toDigits_ne_cons rfl _)
  case issued.foreign => exact absurd hchars (toDigits_ne_cons rfl _)

end Stamp

/-- Which stamps are held where, and which are to be given out from some number on. -/
structure Ledger where
  places : List ObjectRef
  held : ObjectRef → String
  issue : Nat → String
  next : Nat

namespace Ledger

variable (L : Ledger) {L' : Ledger} {x x' : String}

def place? (x : String) : Option Nat :=
  (L.places.map fun ref ↦ decide (L.held ref = x)).findIdx? id

open Classical in
/-- What the ledger tells of a text. -/
noncomputable def stamp (x : String) : Stamp :=
  if x = "" then .blank
  else match L.place? x with
    | some i => .held i
    | none => if h : ∃ n, L.next ≤ n ∧ L.issue n = x then .issued h.choose else .foreign x

def meant : Stamp → String
  | .blank => ""
  | .held i => (L.places.map L.held).getD i ""
  | .issued n => L.issue n
  | .foreign x => x

theorem meant_of_place? {i : Nat} (h : L.place? x = some i) : L.meant (.held i) = x := by
  obtain ⟨hi, hx, -⟩ := List.findIdx?_eq_some_iff_getElem.1 h
  simp only [List.length_map] at hi
  simp only [List.getElem_map, id, decide_eq_true_eq] at hx
  simpa [meant, hi] using hx

theorem meant_stamp (x : String) : L.meant (L.stamp x) = x := by
  unfold stamp
  split
  · next hblank => exact hblank.symm
  · split
    · next hplace => exact L.meant_of_place? hplace
    · split
      · next h => exact h.choose_spec.2
      · rfl

/-- The text, written so that it tells no more than the ledger. -/
noncomputable def rewrite (x : String) : String := (L.stamp x).text

theorem rewrite_injective (h : L.rewrite x = L.rewrite x') : x = x' := by
  rw [← L.meant_stamp x, Stamp.text_injective h, L.meant_stamp]

theorem rewrite_blank : L.rewrite "" = "" := by
  rw [rewrite, stamp, if_pos rfl]
  rfl

theorem place?_eq_none (h : ∀ ref ∈ L.places, L.held ref ≠ x) : L.place? x = none := by
  refine List.findIdx?_eq_none_iff.2 fun b hb ↦ ?_
  obtain ⟨ref, href, rfl⟩ := List.mem_map.1 hb
  exact decide_eq_false (h ref href)

theorem rewrite_issue {n : Nat} (hn : L.next ≤ n) (hissue : ∀ n n', L.issue n = L.issue n' → n = n')
    (hblank : L.issue n ≠ "") (hheld : ∀ ref ∈ L.places, L.held ref ≠ L.issue n) :
    L.rewrite (L.issue n) = toString n := by
  have h : ∃ k, L.next ≤ k ∧ L.issue k = L.issue n := ⟨n, hn, rfl⟩
  rw [rewrite, stamp, if_neg hblank, L.place?_eq_none hheld]
  simp only [h, dite_true]
  rw [hissue _ _ h.choose_spec.2]
  rfl

/-- What the same places hold is written alike, and so is what nobody holds or is to be given. -/
theorem rewrite_congr (hplaces : L'.places = L.places) (hblank : x' = "" ↔ x = "")
    (hheld : ∀ ref ∈ L.places, L'.held ref = x' ↔ L.held ref = x)
    (hout : (∀ ref ∈ L.places, L.held ref ≠ x) →
      x' = x ∧ (∀ n, L.issue n ≠ x) ∧ ∀ n, L'.issue n ≠ x') : L'.rewrite x' = L.rewrite x := by
  have hplace : L'.place? x' = L.place? x := by
    unfold place?
    rw [hplaces, List.map_congr_left fun ref href ↦ decide_eq_decide.2 (hheld ref href)]
  unfold rewrite stamp
  simp only [hblank, hplace]
  refine congrArg Stamp.text (if_congr Iff.rfl rfl ?_)
  cases hnone : L.place? x with
  | some i => rfl
  | none =>
    -- no place holds the text, so it is foreign to both ledgers
    obtain ⟨rfl, hissue, hissue'⟩ := hout fun ref href heq ↦ by
      have hno := List.findIdx?_eq_none_iff.1 hnone _ (List.mem_map_of_mem href)
      exact of_decide_eq_false hno heq
    have h : ¬∃ n, L.next ≤ n ∧ L.issue n = x' := fun ⟨n, _, hn⟩ ↦ hissue n hn
    have h' : ¬∃ n, L'.next ≤ n ∧ L'.issue n = x' := fun ⟨n, _, hn⟩ ↦ hissue' n hn
    simp only [h, h', dite_false]

end Ledger

end TenantAccess
