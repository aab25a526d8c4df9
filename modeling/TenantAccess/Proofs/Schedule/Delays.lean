import Mathlib.Algebra.Group.Nat.Defs
import Mathlib.Data.List.DropRight
import TenantAccess.Schedule.Backoff

/-!
# Delays in exact arithmetic

A key that keeps failing is put off twice as long every time, until its delay is the longest one.  No
word overflows on the way: a product that is too long for a span is longer than the longest delay, and
the counter stops far behind the last doubling.
-/

namespace TenantAccess

open Std

/-! ## Spans in machine words -/

namespace Duration

/-- Whole seconds, and the nanoseconds of the second that has begun. -/
structure Words where
  seconds : UInt64
  subsecond : UInt32

def words (d : Duration) : Words := ⟨.ofNat d.seconds, .ofNat d.subsecond⟩

namespace Words

def times? (a b : UInt64) : Option UInt64 :=
  if a.toNat * b.toNat < UInt64.size then some (a * b) else none

def plus? (a b : UInt64) : Option UInt64 :=
  if a.toNat + b.toNat < UInt64.size then some (a + b) else none

/-- The nanoseconds are multiplied in a long word, and whole seconds are carried over. -/
def scale? (w : Words) (factor : UInt32) : Option Words := do
  let nanoseconds := w.subsecond.toUInt64 * factor.toUInt64
  let seconds ← times? w.seconds factor.toUInt64
  let seconds ← plus? seconds (nanoseconds / 1_000_000_000)
  return ⟨seconds, (nanoseconds % 1_000_000_000).toUInt32⟩

def shorter (v w : Words) : Words :=
  if v.seconds < w.seconds ∨ v.seconds = w.seconds ∧ v.subsecond ≤ w.subsecond then v else w

section Scale

variable {w : Words} {factor : UInt32}

theorem toNat_times {a b : UInt64} (h : a.toNat * b.toNat < UInt64.size) :
    (a * b).toNat = a.toNat * b.toNat := by
  rw [UInt64.toNat_mul, Nat.mod_eq_of_lt h]

theorem toNat_subsecond_times (w : Words) (factor : UInt32) :
    (w.subsecond.toUInt64 * factor.toUInt64).toNat = w.subsecond.toNat * factor.toNat := by
  have hpart : w.subsecond.toNat < 2 ^ 32 := w.subsecond.toNat_lt
  have hfactor : factor.toNat < 2 ^ 32 := factor.toNat_lt
  apply toNat_times
  rw [UInt32.toNat_toUInt64, UInt32.toNat_toUInt64]
  calc
    w.subsecond.toNat * factor.toNat ≤ (2 ^ 32 - 1) * (2 ^ 32 - 1) :=
      Nat.mul_le_mul (Nat.le_pred_of_lt hpart) (Nat.le_pred_of_lt hfactor)
    _ < UInt64.size := by decide

/-- The seconds of the product, with those that are carried over. -/
def scaled (w : Words) (factor : UInt32) : Nat :=
  w.seconds.toNat * factor.toNat + w.subsecond.toNat * factor.toNat / 1_000_000_000

theorem scale?_of_lt (h : w.scaled factor < UInt64.size) : ∃ v, w.scale? factor = some v ∧
    v.seconds.toNat = w.scaled factor ∧
      v.subsecond.toNat = w.subsecond.toNat * factor.toNat % 1_000_000_000 := by
  have hseconds : w.seconds.toNat * factor.toUInt64.toNat < UInt64.size := by
    rw [UInt32.toNat_toUInt64]
    exact Nat.lt_of_le_of_lt (Nat.le_add_right _ _) h
  have hsum : (w.seconds * factor.toUInt64).toNat +
      (w.subsecond.toUInt64 * factor.toUInt64 / 1_000_000_000).toNat = w.scaled factor := by
    rw [toNat_times hseconds, UInt64.toNat_div, toNat_subsecond_times, UInt32.toNat_toUInt64]
    rfl
  have hpart : w.subsecond.toNat * factor.toNat % 1_000_000_000 < 2 ^ 32 :=
    (Nat.mod_lt _ (by decide)).trans (by decide)
  refine ⟨⟨w.seconds * factor.toUInt64 + w.subsecond.toUInt64 * factor.toUInt64 / 1_000_000_000,
    (w.subsecond.toUInt64 * factor.toUInt64 % 1_000_000_000).toUInt32⟩, ?_, ?_, ?_⟩
  · simp only [scale?, times?, plus?, if_pos hseconds, hsum, if_pos h, Option.bind_eq_bind,
      Option.bind_some]
    rfl
  · rw [UInt64.toNat_add, hsum, Nat.mod_eq_of_lt h]
  · rw [UInt64.toNat_toUInt32, UInt64.toNat_mod, toNat_subsecond_times]
    exact Nat.mod_eq_of_lt hpart

theorem scale?_of_le (h : UInt64.size ≤ w.scaled factor) : w.scale? factor = none := by
  unfold scale? times?
  by_cases hseconds : w.seconds.toNat * factor.toUInt64.toNat < UInt64.size
  · have hsum : ¬(w.seconds * factor.toUInt64).toNat +
        (w.subsecond.toUInt64 * factor.toUInt64 / 1_000_000_000).toNat < UInt64.size := by
      rw [toNat_times hseconds, UInt64.toNat_div, toNat_subsecond_times, UInt32.toNat_toUInt64]
      exact Nat.not_lt.2 h
    simp only [plus?, if_pos hseconds, if_neg hsum, Option.bind_eq_bind, Option.bind_some,
      Option.bind_none]
  · simp only [if_neg hseconds, Option.bind_eq_bind, Option.bind_none]

end Scale

end Words

variable {d : Duration} {n : Nat} {factor : UInt32}

theorem eq_of_nanoseconds_eq {a b : Duration} (h : a.nanoseconds = b.nanoseconds) : a = b := by
  cases a
  cases b
  cases h
  rfl

theorem seconds_words (d : Duration) : d.words.seconds.toNat = d.nanoseconds / 1_000_000_000 := by
  have hbound := d.bounded
  have hlt : d.nanoseconds / 1_000_000_000 < UInt64.size := by omega
  exact UInt64.toNat_ofNat_of_lt' hlt

theorem subsecond_words (d : Duration) :
    d.words.subsecond.toNat = d.nanoseconds % 1_000_000_000 := by
  have hlt : d.nanoseconds % 1_000_000_000 < UInt32.size :=
    (Nat.mod_lt _ (by decide)).trans (by decide)
  exact UInt32.toNat_ofNat_of_lt' hlt

theorem words_eq {w : Words} (hseconds : w.seconds.toNat = d.nanoseconds / 1_000_000_000)
    (hsubsecond : w.subsecond.toNat = d.nanoseconds % 1_000_000_000) : w = d.words := by
  obtain ⟨seconds, subsecond⟩ := w
  have hs : seconds = d.words.seconds := UInt64.toNat_inj.1 (hseconds.trans d.seconds_words.symm)
  have hn : subsecond = d.words.subsecond :=
    UInt32.toNat_inj.1 (hsubsecond.trans d.subsecond_words.symm)
  rw [hs, hn]

theorem scaled_words (d : Duration) (factor : UInt32) :
    d.words.scaled factor = d.nanoseconds * factor.toNat / 1_000_000_000 := by
  have hsplit : d.nanoseconds * factor.toNat =
      d.nanoseconds % 1_000_000_000 * factor.toNat +
        d.nanoseconds / 1_000_000_000 * factor.toNat * 1_000_000_000 := by
    calc
      d.nanoseconds * factor.toNat =
          (1_000_000_000 * (d.nanoseconds / 1_000_000_000) + d.nanoseconds % 1_000_000_000) *
            factor.toNat := by rw [Nat.div_add_mod]
      _ = _ := by rw [Nat.add_mul, Nat.add_comm, Nat.mul_assoc, Nat.mul_comm 1_000_000_000]
  rw [Words.scaled, seconds_words, subsecond_words, hsplit,
    Nat.add_mul_div_right _ _ (by decide), Nat.add_comm]

/-- A product in words is the exact one, and is refused only where that is too long for a span. -/
theorem scale?_words (d : Duration) (factor : UInt32) :
    d.words.scale? factor = (d.scale? factor.toNat).map words := by
  unfold Duration.scale? ofNanoseconds?
  split
  · next hlt =>
    have hseconds : d.words.scaled factor < UInt64.size := by
      rw [scaled_words]
      exact Nat.div_lt_of_lt_mul (Nat.mul_comm _ _ ▸ hlt)
    obtain ⟨v, hv, hs, hn⟩ := Words.scale?_of_lt hseconds
    rw [scaled_words] at hs
    rw [subsecond_words, Nat.mod_mul_mod] at hn
    have hwords : v = words ⟨d.nanoseconds * factor.toNat, hlt⟩ := words_eq hs hn
    rw [hv, Option.map_some, hwords]
  · next hge =>
    rw [Option.map_none]
    apply Words.scale?_of_le
    rw [scaled_words]
    exact (Nat.le_div_iff_mul_le (by decide)).2 (Nat.not_lt.1 hge)

theorem shorter_words (a b : Duration) : a.words.shorter b.words = (min a b).words := by
  have hiff : (a.words.seconds < b.words.seconds ∨
      a.words.seconds = b.words.seconds ∧ a.words.subsecond ≤ b.words.subsecond) ↔
        a.nanoseconds ≤ b.nanoseconds := by
    rw [UInt64.lt_iff_toNat_lt, ← UInt64.toNat_inj, UInt32.le_iff_toNat_le, seconds_words,
      seconds_words, subsecond_words, subsecond_words]
    omega
  simp only [Words.shorter, hiff, min]
  split <;> rfl

end Duration

namespace Backoff

/-- The delay after `n` earlier failures, in words: the product with a power of two that is shifted
into place, or the longest delay if that is shorter. -/
def delayInWords (base longest : Duration.Words) (n : UInt32) : Duration.Words :=
  match base.scale? (1 <<< if n ≤ 31 then n else 31) with
  | some d => d.shorter longest
  | none => longest

/-- One more failure; the counter stays where it is before it would start over. -/
def countOn (n : UInt32) : UInt32 := if n + 1 = 0 then n else n + 1

theorem toNat_countOn (n : UInt32) : (countOn n).toNat = min (n.toNat + 1) mostFailures := by
  have hn : n.toNat < 2 ^ 32 := n.toNat_lt
  have hnext : (n + 1).toNat = (n.toNat + 1) % 2 ^ 32 := UInt32.toNat_add n 1
  have hmost : mostFailures = 2 ^ 32 - 1 := rfl
  rw [countOn, hmost]
  split
  · next hzero =>
    have hover : (n.toNat + 1) % 2 ^ 32 = 0 := by rw [← hnext, hzero, UInt32.toNat_zero]
    omega
  · next hne =>
    have hpos : (n + 1).toNat ≠ 0 := fun h ↦ hne (UInt32.toNat_inj.1 h)
    omega

theorem toNat_factor (n : UInt32) :
    ((1 : UInt32) <<< if n ≤ 31 then n else 31).toNat = 2 ^ min n.toNat 31 := by
  have hexponent : (if n ≤ 31 then n else 31).toNat = min n.toNat 31 := by
    split
    · next hle => exact (Nat.min_eq_left (UInt32.le_iff_toNat_le.1 hle)).symm
    · next hgt =>
      rw [UInt32.le_iff_toNat_le, Nat.not_le] at hgt
      exact (Nat.min_eq_right (Nat.le_of_lt hgt)).symm
  have hlt : min n.toNat 31 < 32 := Nat.lt_of_le_of_lt (Nat.min_le_right _ _) (by decide)
  rw [UInt32.toNat_shiftLeft, hexponent, Nat.mod_eq_of_lt hlt, UInt32.toNat_one, Nat.one_shiftLeft,
    Nat.mod_eq_of_lt (Nat.pow_lt_pow_right (by decide) hlt)]

variable {κ : Type} [Ord κ]

theorem delayInWords_eq (b : Backoff κ) (n : UInt32) :
    delayInWords b.base.words b.longest.words n = (b.delay n.toNat).words := by
  have hscale : b.base.words.scale? (1 <<< if n ≤ 31 then n else 31) =
      (b.base.scale? (Nat.pow 2 (min n.toNat 31))).map Duration.words := by
    rw [Duration.scale?_words, toNat_factor]
    rfl
  rw [delayInWords, delay, hscale]
  cases b.base.scale? (Nat.pow 2 (min n.toNat 31)) with
  | none => rfl
  | some d => exact Duration.shorter_words d b.longest

/-- A product that is too long for a span is no shorter than the longest delay. -/
theorem nanoseconds_delay (b : Backoff κ) (n : Nat) : (b.delay n).nanoseconds =
    min (b.base.nanoseconds * 2 ^ min n 31) b.longest.nanoseconds := by
  unfold delay Duration.scale? Duration.ofNanoseconds?
  by_cases hfits : b.base.nanoseconds * Nat.pow 2 (min n 31) < UInt64.size * 1_000_000_000
  · rw [dif_pos hfits]
    exact Duration.nanoseconds_min _ _
  · rw [dif_neg hfits]
    have hlong : b.longest.nanoseconds ≤ b.base.nanoseconds * 2 ^ min n 31 :=
      b.longest.bounded.le.trans (Nat.not_lt.1 hfits)
    exact (Nat.min_eq_right hlong).symm

/-! ## Histories -/

inductive Call (κ : Type) where
  | next (k : κ)
  | reset (k : κ)
deriving DecidableEq

def Call.key : Call κ → κ
  | next k | reset k => k

section Tries

variable {κ : Type} {k : κ} {l l' : List (Call κ)}

@[simp] theorem Call.key_next (k : κ) : (next k).key = k := rfl

@[simp] theorem Call.key_reset (k : κ) : (reset k).key = k := rfl

variable [DecidableEq κ]

/-- How many delays `k` was given since it was last reset. -/
def tries (k : κ) (l : List (Call κ)) : Nat :=
  (l.rtakeWhile fun c ↦ c ≠ .reset k).count (.next k)

@[simp] theorem tries_next (k a : κ) (l : List (Call κ)) :
    tries k (l ++ [.next a]) = if a = k then tries k l + 1 else tries k l := by
  rw [tries, List.rtakeWhile_concat_pos _ _ _ (by simp), List.count_append, List.count_singleton]
  by_cases ha : a = k <;> simp [ha, tries]

@[simp] theorem tries_reset (k a : κ) (l : List (Call κ)) :
    tries k (l ++ [.reset a]) = if a = k then 0 else tries k l := by
  by_cases ha : a = k
  · rw [tries, List.rtakeWhile_concat_neg _ _ _ (by simp [ha]), if_pos ha, List.count_nil]
  · rw [tries, List.rtakeWhile_concat_pos _ _ _ (by simp [ha]), List.count_append,
      List.count_singleton]
    simp [ha, tries]

theorem tries_le_append (hkept : .reset k ∉ l') : tries k l ≤ tries k (l ++ l') := by
  induction l' using List.reverseRecOn with
  | nil => rw [List.append_nil]
  | append_singleton l' c ih =>
    rw [List.mem_append, not_or, List.mem_singleton] at hkept
    have hbefore := ih hkept.1
    rw [← List.append_assoc]
    cases c with
    | next a =>
      rw [tries_next]
      split
      · exact Nat.le_succ_of_le hbefore
      · exact hbefore
    | reset a =>
      have ha : a ≠ k := fun heq ↦ hkept.2 (by rw [heq])
      rw [tries_reset, if_neg ha]
      exact hbefore

theorem tries_filter_key (k : κ) (l : List (Call κ)) :
    tries k (l.filter fun c ↦ c.key = k) = tries k l := by
  induction l using List.reverseRecOn with
  | nil => rfl
  | append_singleton l c ih =>
    rw [List.filter_append]
    cases c with
    | next a => by_cases ha : a = k <;> simp [ha, ih]
    | reset a => by_cases ha : a = k <;> simp [ha, ih]

end Tries

variable [TransOrd κ] [LawfulEqOrd κ]

def call (b : Backoff κ) : Call κ → Backoff κ
  | .next k => (b.next k).2
  | .reset k => b.reset k

def after (b : Backoff κ) (l : List (Call κ)) : Backoff κ := l.foldl call b

theorem after_append (b : Backoff κ) (l l' : List (Call κ)) :
    b.after (l ++ l') = (b.after l).after l' := List.foldl_append

theorem after_concat (b : Backoff κ) (l : List (Call κ)) (c : Call κ) :
    b.after (l ++ [c]) = (b.after l).call c := by
  rw [after_append]
  rfl

theorem failures_next [DecidableEq κ] (b : Backoff κ) (k a : κ) :
    (b.next a).2.failures k = if a = k then min (b.failures k + 1) mostFailures else b.failures k := by
  simp only [next, failures, SortedMap.get?_insert, Std.compare_eq_iff_eq]
  by_cases ha : a = k
  · simp [ha]
  · simp [ha, Ne.symm ha]

omit [TransOrd κ] in
theorem failures_reset [DecidableEq κ] (b : Backoff κ) (k a : κ) :
    (b.reset a).failures k = if a = k then 0 else b.failures k := by
  simp only [reset, failures, SortedMap.get?_erase, Std.compare_eq_iff_eq]
  by_cases ha : a = k <;> simp [ha]

theorem settings_after (b : Backoff κ) (l : List (Call κ)) :
    (b.after l).base = b.base ∧ (b.after l).longest = b.longest := by
  induction l generalizing b with
  | nil => exact ⟨rfl, rfl⟩
  | cons c l ih =>
    have hcall : (b.call c).base = b.base ∧ (b.call c).longest = b.longest := by
      cases c <;> exact ⟨rfl, rfl⟩
    obtain ⟨hbase, hlongest⟩ := ih (b.call c)
    exact ⟨hbase.trans hcall.1, hlongest.trans hcall.2⟩

/-- A key has failed as often as it was given a delay, up to the last number there is. -/
theorem failures_after [DecidableEq κ] (base longest : Duration) (k : κ) (l : List (Call κ)) :
    (after { base, longest } l).failures k = min (tries k l) mostFailures := by
  induction l using List.reverseRecOn with
  | nil => rfl
  | append_singleton l c ih =>
    rw [after_concat]
    cases c with
    | next a =>
      rw [call, failures_next, tries_next, ih]
      split
      · omega
      · rfl
    | reset a =>
      rw [call, failures_reset, tries_reset, ih]
      split
      · exact (Nat.zero_min _).symm
      · rfl

/-- The next delay in exact arithmetic: no doubling is lost to the end of the counter. -/
theorem nanoseconds_next_after [DecidableEq κ] (base longest : Duration) (k : κ)
    (l : List (Call κ)) : ((after { base, longest } l).next k).1.nanoseconds =
      min (base.nanoseconds * 2 ^ min (tries k l) 31) longest.nanoseconds := by
  obtain ⟨hbase, hlongest⟩ := settings_after (κ := κ) { base, longest } l
  have hexponent : min (min (tries k l) mostFailures) 31 = min (tries k l) 31 := by
    rw [Nat.min_assoc, Nat.min_eq_right (by decide : 31 ≤ mostFailures)]
  rw [next, nanoseconds_delay, failures_after, hbase, hlongest, hexponent]

theorem nanoseconds_next_after_le [DecidableEq κ] (base longest : Duration) {k : κ}
    (l : List (Call κ)) {l' : List (Call κ)} (hkept : .reset k ∉ l') :
    ((after { base, longest } l).next k).1.nanoseconds ≤
      ((after { base, longest } (l ++ l')).next k).1.nanoseconds := by
  rw [nanoseconds_next_after, nanoseconds_next_after]
  have htries : tries k l ≤ tries k (l ++ l') := tries_le_append hkept
  have hexponent : min (tries k l) 31 ≤ min (tries k (l ++ l')) 31 := by omega
  have hproduct := Nat.mul_le_mul_left base.nanoseconds
    (Nat.pow_le_pow_right (by decide : 0 < 2) hexponent)
  omega

/-- The counter and the delays are the same if both are reckoned in words. -/
theorem exists_words_next_after [DecidableEq κ] (base longest : Duration) (k : κ)
    (l : List (Call κ)) : let b := after { base, longest } l
    ∃ n : UInt32, n.toNat = b.failures k ∧
      (b.next k).1.words = delayInWords base.words longest.words n ∧
      (b.next k).2.failures k = (countOn n).toNat := by
  intro b
  obtain ⟨hbase, hlongest⟩ := settings_after (κ := κ) { base, longest } l
  have hlt : b.failures k < UInt32.size := by
    rw [failures_after]
    exact Nat.lt_of_le_of_lt (Nat.min_le_right _ _) (by decide)
  have hn := UInt32.toNat_ofNat_of_lt' hlt
  refine ⟨.ofNat (b.failures k), hn, ?_, ?_⟩
  · have hwords := delayInWords_eq b (.ofNat (b.failures k))
    rw [hn, hbase, hlongest] at hwords
    exact hwords.symm
  · rw [toNat_countOn, hn, failures_next, if_pos rfl]

/-- What is promised of the delays after the calls `l`. -/
structure Exact [DecidableEq κ] (base longest : Duration) (l : List (Call κ))
    (b : Backoff κ) : Prop where
  /-- The delay that comes as the `n`-th since the last reset. -/
  nth : ∀ k n, tries k (l ++ [.next k]) = n →
    (b.next k).1.nanoseconds =
      min (base.nanoseconds * 2 ^ min (n - 1) 31) longest.nanoseconds ∧
    (b.next k).2.failures k = min n (2 ^ 32 - 1)
  failures : ∀ k, b.failures k = min (tries k l) (2 ^ 32 - 1)
  capped : ∀ k, (b.next k).1.nanoseconds ≤ longest.nanoseconds
  growing : ∀ k l', .reset k ∉ l' →
    (b.next k).1.nanoseconds ≤ ((b.after l').next k).1.nanoseconds
  /-- Without the calls for other keys nothing would be different. -/
  apart : ∀ k, let alone := after { base, longest } (l.filter fun c ↦ c.key = k)
    (alone.next k).1 = (b.next k).1 ∧ alone.failures k = b.failures k
  /-- Words of fixed size are enough to reckon with. -/
  words : ∀ k, ∃ n : UInt32, n.toNat = b.failures k ∧
    (b.next k).1.words = delayInWords base.words longest.words n ∧
    (b.next k).2.failures k = (countOn n).toNat

theorem delays_exact [DecidableEq κ] (base longest : Duration) (l : List (Call κ)) :
    Exact base longest l (after { base, longest } l) := by
  have hfailures : ∀ (k : κ) (l : List (Call κ)), (after { base, longest } l).failures k =
      min (tries k l) mostFailures := failures_after base longest
  constructor
  case nth =>
    intro k n hn
    rw [tries_next, if_pos rfl] at hn
    have hcount : (after { base, longest } l).call (.next k) =
        after { base, longest } (l ++ [.next k]) := (after_concat _ _ _).symm
    refine ⟨?_, ?_⟩
    · rw [nanoseconds_next_after, ← hn, Nat.add_sub_cancel]
    · change ((after { base, longest } l).call (.next k)).failures k = _
      rw [hcount, hfailures, tries_next, if_pos rfl, hn]
      rfl
  case failures => exact fun k ↦ hfailures k l
  case capped =>
    intro k
    rw [nanoseconds_next_after]
    exact Nat.min_le_right _ _
  case growing =>
    intro k l' hkept
    rw [← after_append]
    exact nanoseconds_next_after_le base longest l hkept
  case apart =>
    intro k
    refine ⟨Duration.eq_of_nanoseconds_eq ?_, ?_⟩
    · rw [nanoseconds_next_after, nanoseconds_next_after, tries_filter_key]
    · rw [hfailures, hfailures, tries_filter_key]
  case words => exact fun k ↦ exists_words_next_after base longest k l

/-- The third delay of key 1 would be twice as long as the longest span. -/
theorem delays_exact_of_overflow :
    let base : Duration := .ofSeconds (2 ^ 63)
    let longest : Duration := ⟨Duration.longest, by decide⟩
    let l : List (Call Nat) := [.next 1, .next 2, .next 1]
    base.scale? (2 ^ 2) = none ∧ ((after { base, longest } l).next 1).1 = longest ∧
      Exact base longest l (after { base, longest } l) :=
  ⟨by decide, by decide, delays_exact _ _ _⟩

end Backoff

end TenantAccess
