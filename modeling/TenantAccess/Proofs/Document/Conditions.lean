import TenantAccess.Proofs.Document.Clock

/-!
# Setting conditions

To set a condition touches one place of the list, the first of its type or the end, and is said to
change the list exactly if it does.  Over any number of settings the transition time of a type is that
of the last one that changed its status.
-/

namespace TenantAccess

namespace Condition

variable {new c old : Condition} {l l' : List Condition} {type : String}

/-- The second list is the first with `new` set in it. -/
inductive Sets (new : Condition) : List Condition → List Condition → Prop
  | replaced {before after : List Condition} {old : Condition}
    (hbefore : ∀ c ∈ before, c.type ≠ new.type) (hold : old.type = new.type) :
    Sets new (before ++ old :: after) (before ++ old.refresh new :: after)
  | added {l : List Condition} (hl : ∀ c ∈ l, c.type ≠ new.type) : Sets new l (l ++ [new])

theorem Sets.cons (h : Sets new l l') (hc : c.type ≠ new.type) : Sets new (c :: l) (c :: l') := by
  cases h with
  | replaced hbefore hold => exact .replaced (List.forall_mem_cons.2 ⟨hc, hbefore⟩) hold
  | added hl => exact .added (List.forall_mem_cons.2 ⟨hc, hl⟩)

theorem sets_set (new : Condition) (l : List Condition) : Sets new l (new.set l) := by
  induction l with
  | nil => exact .added (List.forall_mem_nil _)
  | cons c rest ih =>
    rw [set]
    by_cases hc : c.type = new.type
    · rw [if_pos hc]
      exact .replaced (List.forall_mem_nil _) hc
    · rw [if_neg hc]
      exact ih.cons hc

section Find

theorem find?_append_of_forall (hl : ∀ c ∈ l, c.type ≠ type) (rest : List Condition) :
    find? type (l ++ rest) = find? type rest := by
  rw [find?, List.find?_append, List.find?_eq_none.2 (by simpa using hl), Option.none_or]
  rfl

theorem find?_cons_of_eq (hc : c.type = type) (rest : List Condition) :
    find? type (c :: rest) = some c := List.find?_cons_of_pos (by simpa using hc)

theorem find?_append_cons_of_ne (hc : c.type ≠ type) (before after : List Condition) :
    find? type (before ++ c :: after) = find? type (before ++ after) := by
  rw [find?, List.find?_append, List.find?_cons_of_neg (by simpa using hc), ← List.find?_append]
  rfl

end Find

section Place

/-- Where the condition that counts for `type` stands, or the end of the list. -/
def place (type : String) (l : List Condition) : Nat := l.findIdx fun c ↦ c.type = type

theorem place_eq_length (hl : ∀ c ∈ l, c.type ≠ type) : place type l = l.length :=
  List.findIdx_eq_length_of_false (by simpa using hl)

theorem place_append {before : List Condition} (hbefore : ∀ c ∈ before, c.type ≠ type)
    (hc : c.type = type) (after : List Condition) :
    place type (before ++ c :: after) = before.length := by
  have hnone : before.findIdx (fun c ↦ c.type = type) = before.length := place_eq_length hbefore
  rw [place, List.findIdx_append, hnone, if_neg (Nat.lt_irrefl _), List.findIdx_cons]
  simp [hc]

end Place

theorem refresh_eq_self_iff (hold : old.type = new.type) :
    old.refresh new = old ↔ old.content = new.content := by
  obtain ⟨type, status, reason, message, time⟩ := old
  simp only [refresh, content, mk.injEq, Prod.mk.injEq]
  grind

/-- There is no condition of its type, or its status is another one. -/
def turns (new : Condition) (l : List Condition) : Bool :=
  (find? new.type l).all fun old ↦ old.status ≠ new.status

namespace Sets

theorem find?_eq (h : Sets new l l') :
    find? new.type l' = some (((find? new.type l).map (refresh · new)).getD new) := by
  cases h with
  | @replaced before after old hbefore hold =>
    have hnew : (old.refresh new).type = new.type := hold
    rw [find?_append_of_forall hbefore, find?_append_of_forall hbefore, find?_cons_of_eq hold,
      find?_cons_of_eq hnew]
    rfl
  | added hl =>
    have hnone : find? new.type l = none := List.find?_eq_none.2 (by simpa using hl)
    rw [find?_append_of_forall hl, hnone, find?_cons_of_eq rfl]
    rfl

theorem find?_of_ne (h : Sets new l l') (hne : type ≠ new.type) : find? type l' = find? type l := by
  cases h with
  | @replaced before after old hbefore hold =>
    have hnew : (old.refresh new).type ≠ type := fun heq ↦ hne (heq.symm.trans hold)
    have hwas : old.type ≠ type := fun heq ↦ hne (heq.symm.trans hold)
    rw [find?_append_cons_of_ne hnew, find?_append_cons_of_ne hwas]
  | added hl => rw [find?_append_cons_of_ne (Ne.symm hne), List.append_nil]

theorem eq_iff (h : Sets new l l') : l' = l ↔ new.changes l = false := by
  rw [changes_eq_false_iff]
  cases h with
  | @replaced before after old hbefore hold =>
    rw [find?_append_of_forall hbefore, find?_cons_of_eq hold, List.append_cancel_left_eq,
      List.cons.injEq, and_iff_left rfl, refresh_eq_self_iff hold, Option.map_some,
      Option.some.injEq]
  | added hl =>
    have hnone : find? new.type l = none := List.find?_eq_none.2 (by simpa using hl)
    simp [hnone]

theorem getElem?_of_ne {i : Nat} (h : Sets new l l') (hi : i ≠ place new.type l) :
    l'[i]? = l[i]? := by
  cases h with
  | @replaced before after old hbefore hold =>
    rw [place_append hbefore hold] at hi
    have hset : before ++ old.refresh new :: after =
        (before ++ old :: after).set before.length (old.refresh new) := by simp
    rw [hset, List.getElem?_set_ne (Ne.symm hi)]
  | added hl =>
    rw [place_eq_length hl] at hi
    rcases Nat.lt_or_gt_of_ne hi with hlt | hgt
    · exact List.getElem?_append_left hlt
    · have hend : (l ++ [new]).length ≤ i := by
        rw [List.length_append, List.length_singleton]
        omega
      rw [List.getElem?_eq_none hend, List.getElem?_eq_none (Nat.le_of_lt hgt)]

theorem length_eq (h : Sets new l l') : l'.length = max l.length (place new.type l + 1) := by
  cases h with
  | @replaced before after old hbefore hold =>
    rw [place_append hbefore hold]
    simp only [List.length_append, List.length_cons]
    omega
  | added hl =>
    rw [place_eq_length hl, List.length_append, List.length_singleton]
    omega

end Sets

/-- What setting `new` in `l` comes to, if `l'` is the list afterwards. -/
structure Amended (new : Condition) (l l' : List Condition) (changed : Bool) : Prop where
  changed_iff : changed = true ↔ l' ≠ l
  found : ∃ c, find? new.type l' = some c ∧ c.content = new.content ∧
    (new.turns l = true → c.lastTransitionTime = new.lastTransitionTime) ∧
    ∀ old, find? new.type l = some old → old.status = new.status →
      c.lastTransitionTime = old.lastTransitionTime
  /-- Later conditions of the same type stay as they are, too. -/
  stays : ∀ i, i ≠ place new.type l → l'[i]? = l[i]?
  length_eq : l'.length = max l.length (place new.type l + 1)
  others : ∀ type, type ≠ new.type →
    find? type l' = find? type l ∧ isTrue type l' = isTrue type l
  again : ∀ c : Condition, c.content = new.content → c.changes l' = false ∧ c.set l' = l'

theorem Sets.found (h : Sets new l l') : ∃ c, find? new.type l' = some c ∧
    c.content = new.content ∧
    (new.turns l = true → c.lastTransitionTime = new.lastTransitionTime) ∧
    ∀ old, find? new.type l = some old → old.status = new.status →
      c.lastTransitionTime = old.lastTransitionTime := by
  have hfind := h.find?_eq
  cases hwas : find? new.type l with
  | none =>
    rw [hwas] at hfind
    refine ⟨new, hfind, rfl, fun _ ↦ rfl, ?_⟩
    intro old hold
    cases hold
  | some old =>
    have htype : old.type = new.type := by simpa using List.find?_some hwas
    rw [hwas] at hfind
    refine ⟨old.refresh new, hfind, ?_, ?_, ?_⟩
    · rw [content, content, refresh, htype]
    · intro hturns
      have hne : old.status ≠ new.status := by simpa [turns, hwas] using hturns
      rw [refresh, if_neg hne]
    · intro found hfound hstatus
      cases hfound
      rw [refresh, if_pos hstatus]

theorem Sets.again (h : Sets new l l') (hc : c.content = new.content) :
    c.changes l' = false ∧ c.set l' = l' := by
  obtain ⟨c', hfind, hcontent, -⟩ := h.found
  have htype : c.type = new.type := congrArg Prod.fst hc
  have hsame : c.changes l' = false := by
    rw [changes_eq_false_iff, htype, hfind, Option.map_some, hcontent, hc]
  exact ⟨hsame, (sets_set c l').eq_iff.2 hsame⟩

theorem changes_set (new : Condition) (l : List Condition) : new.changes (new.set l) = false :=
  ((sets_set new l).again rfl).1

theorem isTrue_of_not_changes (h : new.changes l = false) :
    isTrue new.type l = decide (new.status = .true) := by
  rw [isTrue_eq, changes_eq_false_iff.1 h]
  rfl

theorem isTrue_set (new : Condition) (l : List Condition) :
    isTrue new.type (new.set l) = decide (new.status = .true) :=
  isTrue_of_not_changes (changes_set new l)

theorem amended_set (new : Condition) (l : List Condition) :
    Amended new l (new.set l) (new.changes l) := by
  have h := sets_set new l
  constructor
  case changed_iff => rw [Ne, h.eq_iff, Bool.not_eq_false]
  case found => exact h.found
  case stays =>
    intro i hi
    exact h.getElem?_of_ne hi
  case length_eq => exact h.length_eq
  case others =>
    intro type hne
    have hfind := h.find?_of_ne hne
    exact ⟨hfind, by rw [isTrue, isTrue, hfind]⟩
  case again =>
    intro c hc
    exact h.again hc

section Sequence

/-- All of `news` are set, one after the other. -/
def setAll (l news : List Condition) : List Condition := news.foldl (fun l c ↦ c.set l) l

/-- Those of `news` that changed the status of `type` when it was their turn to be set. -/
def turning (type : String) : List Condition → List Condition → List Condition
  | _, [] => []
  | l, c :: news =>
    if c.type = type ∧ c.turns l then c :: turning type (c.set l) news
    else turning type (c.set l) news

def since (type : String) (l : List Condition) : Option Timestamp :=
  (find? type l).map (·.lastTransitionTime)

theorem since_set_of_turns (hc : c.type = type) (hturns : c.turns l = true) :
    since type (c.set l) = some c.lastTransitionTime := by
  obtain ⟨c', hfind, -, htime, -⟩ := (sets_set c l).found
  rw [since, ← hc, hfind, Option.map_some, htime hturns]

theorem since_set_of_not_turns (h : ¬(c.type = type ∧ c.turns l = true)) :
    since type (c.set l) = since type l := by
  by_cases hc : c.type = type
  · -- the status was the same before, so there was a condition of this type
    have hsame : c.turns l = false := by simpa [hc] using h
    obtain ⟨old, hold, hstatus⟩ : ∃ old, find? c.type l = some old ∧ old.status = c.status := by
      cases hwas : find? c.type l with
      | none => simp [turns, hwas] at hsame
      | some old => exact ⟨old, rfl, by simpa [turns, hwas] using hsame⟩
    obtain ⟨c', hfind, -, -, htime⟩ := (sets_set c l).found
    rw [since, since, ← hc, hfind, hold, Option.map_some, Option.map_some, htime old hold hstatus]
  · rw [since, since, (sets_set c l).find?_of_ne (Ne.symm hc)]

theorem since_setAll (type : String) (l news : List Condition) : since type (setAll l news) =
    ((turning type l news).getLast?.map (·.lastTransitionTime)).or (since type l) := by
  induction news generalizing l with
  | nil => rfl
  | cons c news ih =>
    have hrest : since type (setAll l (c :: news)) = since type (setAll (c.set l) news) := rfl
    rw [hrest, ih, turning]
    by_cases h : c.type = type ∧ c.turns l = true
    · rw [if_pos h, since_set_of_turns h.1 h.2, List.getLast?_cons]
      cases (turning type (c.set l) news).getLast? <;> rfl
    · rw [if_neg h, since_set_of_not_turns h]

end Sequence

/-- Setting a condition changes what it says it does and nothing else, and over any sequence of settings
the transition time of a type is that of the last one that changed its status, if any did. -/
theorem conditions_amended (l : List Condition) :
    (∀ new : Condition, Amended new l (new.set l) (new.changes l)) ∧
    ∀ type news, since type (setAll l news) =
      ((turning type l news).getLast?.map (·.lastTransitionTime)).or (since type l) :=
  ⟨fun new ↦ amended_set new l, fun type news ↦ since_setAll type l news⟩

end Condition

end TenantAccess
