import TenantAccess.Time.Timestamp

/-!
# A written time reads back

Each part of a written time is a run of digits of known length that ends where a sign begins, so
the reader takes the parts off one by one.
-/

namespace TenantAccess

namespace Timestamp

instance : Inhabited Timestamp :=
  ⟨{ date := ⟨2000, 1, 1, by decide⟩, hour := 12, minute := 0, second := 0, nanosecond := 0,
     valid := by decide }⟩

/-! ## Runs of digits -/

theorem isBlank_of_isDigit {c : Char} (h : c.isDigit) : isBlank c = false := by
  have hc : 48 ≤ c.toNat ∧ c.toNat ≤ 57 := by
    simpa [Char.isDigit, UInt32.le_iff_toNat_le] using h
  simp only [isBlank, Bool.or_eq_false_iff, Bool.and_eq_false_iff, decide_eq_false_iff_not]
  omega

theorem skip_digit {c : Char} (h : c.isDigit) (cs : List Char) : skip (c :: cs) = c :: cs := by
  rw [skip, List.dropWhile_cons_of_neg]
  simp [isBlank_of_isDigit h]

theorem number_eq (ds : List Char) : number ds = Nat.ofDigitChars 10 ds 0 := by
  simp only [number, Nat.ofDigitChars_eq_foldl, Nat.mul_comm]

@[simp] theorem number_padded (width n : Nat) : number (padded width n) = n := by
  simp [number_eq, padded, Nat.ofDigitChars_append]

theorem isDigit_of_mem_padded {width n : Nat} {c : Char} (h : c ∈ padded width n) :
    c.isDigit := by
  simp only [padded, List.mem_append, List.mem_replicate] at h
  rcases h with ⟨-, rfl⟩ | h
  · decide
  · exact Nat.isDigit_of_mem_toDigits (by decide) (by decide) h

theorem padded_ne_nil (width n : Nat) : padded width n ≠ [] := by
  simp [padded, Nat.toDigits_ne_nil]

theorem exists_padded_eq_cons (width n : Nat) :
    ∃ c ds, padded width n = c :: ds ∧ c.isDigit := by
  cases h : padded width n with
  | nil => exact absurd h (padded_ne_nil width n)
  | cons c ds => exact ⟨c, ds, rfl, isDigit_of_mem_padded (h ▸ List.mem_cons_self)⟩

theorem length_padded {width n : Nat} (hw : 0 < width) (hn : n < Nat.pow 10 width) :
    (padded width n).length = width := by
  have hlen := (Nat.length_toDigits_le_iff (b := 10) (by decide) hw).2 hn
  simp only [padded, List.length_append, List.length_replicate]
  omega

theorem skip_padded (width n : Nat) (rest : List Char) :
    skip (padded width n ++ rest) = padded width n ++ rest := by
  obtain ⟨c, ds, h, hc⟩ := exists_padded_eq_cons width n
  rw [h, List.cons_append, skip_digit hc]

theorem takeWhile_digits {ds rest : List Char} (hds : ∀ c ∈ ds, c.isDigit)
    (hrest : rest.head?.all (!Char.isDigit ·)) : (ds ++ rest).takeWhile Char.isDigit = ds := by
  rw [List.takeWhile_append_of_pos hds]
  cases rest with
  | nil => simp
  | cons c rest =>
    have hc : c.isDigit = false := by simpa using hrest
    simp [hc]

theorem dropWhile_digits {ds rest : List Char} (hds : ∀ c ∈ ds, c.isDigit)
    (hrest : rest.head?.all (!Char.isDigit ·)) : (ds ++ rest).dropWhile Char.isDigit = rest := by
  rw [List.dropWhile_append_of_pos hds]
  cases rest with
  | nil => simp
  | cons c rest =>
    have hc : c.isDigit = false := by simpa using hrest
    simp [hc]

theorem count?_padded {width n : Nat} (hw : 0 < width) (hn : n < Nat.pow 10 width)
    (rest : List Char) :
    count? width (padded width n ++ rest) = some (n, rest) := by
  have hlen := length_padded hw hn
  have htake : (padded width n ++ rest).take width = padded width n := List.take_left' hlen
  have hdigits : (padded width n).takeWhile Char.isDigit = padded width n := by
    have h : (padded width n ++ []).takeWhile Char.isDigit = padded width n :=
      takeWhile_digits (fun c hc ↦ isDigit_of_mem_padded hc) rfl
    simpa using h
  simp only [count?, skip_padded, htake, hdigits, number_padded]
  simp [padded_ne_nil]

theorem digits?_padded {width n : Nat} {rest : List Char}
    (hrest : rest.head?.all (!Char.isDigit ·)) :
    digits? (padded width n ++ rest) = some (n, rest) := by
  have hdigits : (padded width n ++ rest).takeWhile Char.isDigit = padded width n :=
    takeWhile_digits (fun c hc ↦ isDigit_of_mem_padded hc) hrest
  simp only [digits?, hdigits, number_padded]
  simp [padded_ne_nil]

/-! ## The parts of a time -/

theorem year?_yearText (y : Int) {rest : List Char} (hrest : rest.head?.all (!Char.isDigit ·)) :
    year? (yearText y ++ rest) = some (y, rest) := by
  unfold yearText
  split
  · next hneg =>
    have hskip : skip (('-' :: padded 4 y.natAbs) ++ rest) =
        '-' :: (padded 4 y.natAbs ++ rest) := rfl
    simp only [year?, hskip, digits?_padded hrest, Option.map_some]
    congr 2
    omega
  · next hpos =>
    have habs : ((y.natAbs : Nat) : Int) = y := by omega
    split
    · have hskip : skip (('+' :: padded 4 y.natAbs) ++ rest) =
          '+' :: (padded 4 y.natAbs ++ rest) := rfl
      simp only [year?, hskip, digits?_padded hrest, Option.map_some, habs]
    · next hsmall =>
      have hlt : y.natAbs < 10 ^ 4 := by omega
      obtain ⟨c, ds, hc, hdigit⟩ := exists_padded_eq_cons 4 y.natAbs
      have hne : c ≠ '-' ∧ c ≠ '+' := by
        constructor <;> rintro rfl <;> simp at hdigit
      have hcount := count?_padded (by decide) hlt rest
      simp only [year?, skip_padded]
      rw [hc, List.cons_append] at hcount ⊢
      split
      · next heq => exact absurd (List.cons.inj heq).1 hne.1
      · next heq => exact absurd (List.cons.inj heq).1 hne.2
      · simp [hcount, habs]

theorem fraction?_fractionText {n : Nat} (hn : n < 1000000000) :
    fraction? (fractionText n ++ ['Z']) = some (n, ['Z']) := by
  have hrest : (['Z'] : List Char).head?.all (!Char.isDigit ·) := by decide
  -- the three lengths differ in the number of zeros that the reader puts behind
  have key (width m : Nat) (hw : 0 < width) (hw' : width ≤ 9) (hm : m < 10 ^ width) :
      fraction? ('.' :: (padded width m ++ ['Z'])) = some (m * 10 ^ (9 - width), ['Z']) := by
    have hdigits : (padded width m ++ ['Z']).takeWhile Char.isDigit = padded width m :=
      takeWhile_digits (fun c hc ↦ isDigit_of_mem_padded hc) hrest
    have hdrop : (padded width m ++ ['Z']).dropWhile Char.isDigit = ['Z'] :=
      dropWhile_digits (fun c hc ↦ isDigit_of_mem_padded hc) hrest
    have hlen := length_padded hw hm
    have htake : (padded width m).take 9 = padded width m := List.take_of_length_le (by omega)
    simp only [fraction?, hdigits, hdrop, htake, number_padded, hlen]
    simp [padded_ne_nil]
  unfold fractionText
  split
  · next h => subst h; rfl
  · split
    · rw [List.cons_append, key 3 _ (by decide) (by decide) (by omega)]
      congr 2
      omega
    · split
      · rw [List.cons_append, key 6 _ (by decide) (by decide) (by omega)]
        congr 2
        omega
      · rw [List.cons_append, key 9 _ (by decide) (by decide) (by omega)]
        simp

theorem ofParts?_zero (t : Timestamp) :
    ofParts? t.date t.hour t.minute t.second t.nanosecond 0 = some t := by
  have hvalid := t.valid
  have hminutes : ¬((t.hour : Int) * 60 + t.minute - 0 < 0) := by omega
  have hday : ¬(1440 ≤ (t.hour : Int) * 60 + t.minute - 0) := by omega
  have hhour : (((t.hour : Int) * 60 + t.minute - 0) % 1440).toNat / 60 = t.hour := by omega
  have hminute : (((t.hour : Int) * 60 + t.minute - 0) % 1440).toNat % 60 = t.minute := by omega
  simp only [ofParts?, hvalid, and_self, dite_true, hminutes, hday, if_false, hhour, hminute]
  rfl

theorem of?_eq_some (d : Date) : Date.of? d.year d.month d.day = some d := by
  simp only [Date.of?, d.valid, and_self, dite_true]

theorem ofChars?_chars (t : Timestamp) : ofChars? t.chars = some t := by
  obtain ⟨hfirst, hlast, hmonth, hmonth', hday, hday'⟩ := t.date.valid
  obtain ⟨hh, hmi, hs, hn⟩ := t.valid
  have hdays := daysInMonth_le t.date.year t.date.month
  have hchars : t.chars = yearText t.date.year ++ ('-' :: (padded 2 t.date.month ++ ('-' ::
      (padded 2 t.date.day ++ ('T' :: (padded 2 t.hour ++ (':' :: (padded 2 t.minute ++ (':' ::
      (padded 2 t.second ++ (fractionText t.nanosecond ++ ['Z']))))))))))) := by
    simp [chars]
  have hdash (cs : List Char) : char? (· = '-') (skip ('-' :: cs)) = some cs := rfl
  have hcolon (cs : List Char) : char? (· = ':') (skip (':' :: cs)) = some cs := rfl
  have hT (cs : List Char) :
      char? (fun c ↦ c = 'T' || c = 't' || c = ' ') ('T' :: cs) = some cs := rfl
  have hZ : offset? (skip ['Z']) = some (0, []) := by decide
  have hcount {n : Nat} (h : n < 100) (rest : List Char) :
      count? 2 (padded 2 n ++ rest) = some (n, rest) := count?_padded (by decide) h rest
  have hnext {α β : Type} (a : α) (f : α → Option β) : (some a >>= f) = f a := rfl
  rw [hchars, ofChars?, year?_yearText _ (by rfl), hnext]
  dsimp only
  rw [hdash, hnext, hcount (by omega), hnext]
  dsimp only
  rw [hdash, hnext, hcount (by omega), hnext]
  dsimp only
  rw [hT, hnext, hcount (by omega), hnext]
  dsimp only
  rw [hcolon, hnext, hcount (by omega), hnext]
  dsimp only
  rw [hcolon, hnext, hcount (by omega), hnext]
  dsimp only
  rw [fraction?_fractionText hn, hnext]
  dsimp only
  rw [hZ, hnext]
  dsimp only
  rw [of?_eq_some, if_pos (by rfl), hnext, ofParts?_zero]

@[simp] theorem ofString?_text (t : Timestamp) : ofString? t.text = some t := by
  simp [ofString?, text, ofChars?_chars]

end Timestamp

end TenantAccess
