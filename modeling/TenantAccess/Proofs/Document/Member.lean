import TenantAccess.Json.Decode

/-!
# Members of written records

A written record lists its members under distinct keys and leaves out those without a value, so
what a reader finds under a key is what was written there.
-/

namespace TenantAccess

open Std

namespace SortedMap

variable {α β : Type} [Ord α]

theorem put_append [TransOrd α] [LawfulEqOrd α] {k : α} {v : β} {l : List (α × β)}
    (h : ∀ e ∈ l, compare e.1 k = .lt) : put k v l = l ++ [(k, v)] := by
  induction l with
  | nil => rfl
  | cons e rest ih =>
    obtain ⟨k', v'⟩ := e
    have hgt : compare k k' = .gt := OrientedCmp.gt_iff_lt.2 (h (k', v') (by simp))
    simp only [put, hgt, List.cons_append]
    rw [ih fun e he ↦ h e (List.mem_cons_of_mem _ he)]

theorem entries_foldl_insert [TransOrd α] [LawfulEqOrd α] (l : List (α × β)) (m : SortedMap α β)
    (h : (m.entries ++ l).Pairwise fun a b ↦ compare a.1 b.1 = .lt) :
    (l.foldl (fun m e ↦ m.insert e.1 e.2) m).entries = m.entries ++ l := by
  induction l generalizing m with
  | nil => simp
  | cons e rest ih =>
    have hput : (m.insert e.1 e.2).entries = m.entries ++ [e] :=
      put_append fun a ha ↦ (List.pairwise_append.1 h).2.2 a ha e (by simp)
    rw [List.foldl_cons, ih (m.insert e.1 e.2) (by simpa [hput] using h), hput]
    simp

theorem ofList_entries [TransOrd α] [LawfulEqOrd α] (m : SortedMap α β) :
    ofList m.entries = m :=
  ext_entries (entries_foldl_insert m.entries empty m.sorted)

theorem eq_empty_of_isEmpty {m : SortedMap α β} (h : m.isEmpty) : m = ∅ :=
  ext_entries (List.isEmpty_iff.1 h)

end SortedMap

namespace Json

theorem member?_eq_lookup (key : String) (fields : List (String × Json)) :
    member? key fields = fields.lookup key := by
  induction fields with
  | nil => rfl
  | cons e rest ih =>
    obtain ⟨k, v⟩ := e
    by_cases h : k = key
    · simp [member?, h]
    · have hb : (key == k) = false := by simpa using Ne.symm h
      simp [member?, List.lookup_cons, h, hb, ih]

@[simp] theorem lookup_setMember (key k : String) (v : Json) (fields : List (String × Json)) :
    (setMember key v fields).lookup k = if k = key then some v else fields.lookup k := by
  rw [← member?_eq_lookup, member?_setMember, member?_eq_lookup]

theorem lookup_single (key k : String) (v : Json) :
    [(key, v)].lookup k = if k = key then some v else none := by
  by_cases h : k = key
  · simp [h]
  · have hb : (k == key) = false := by simpa using h
    simp [List.lookup_cons, h, hb]

@[simp] theorem lookup_optionalMember {α : Type} (key k : String) (encode : α → Json) (o : Option α) :
    (optionalMember key encode o).lookup k = if k = key then o.map encode else none := by
  cases o with
  | none => simp [optionalMember]
  | some a => exact lookup_single key k (encode a)

@[simp] theorem lookup_listMember {α : Type} (key k : String) (encode : α → Json) (l : List α) :
    (listMember key encode l).lookup k =
      if k = key ∧ l ≠ [] then some (arr (l.map encode)) else none := by
  cases l with
  | nil => simp [listMember]
  | cons a l => simpa [listMember] using lookup_single key k (arr ((a :: l).map encode))

/-! ## Reading back single values -/

@[simp] theorem strict_text_str (s : String) : strict.text (str s) = some s := rfl

@[simp] theorem strict_flag_bool (b : Bool) : strict.flag (bool b) = some b := rfl

@[simp] theorem strict_caseName_str (s : String) : strict.caseName (str s) = some s := rfl

@[simp] theorem strict_record_obj (names : List String) (fields : List (String × Json)) :
    strict.record names (obj fields) = some fields := rfl

/-- A reader undoes a writer that writes no `null`. -/
structure Inverts {α : Type} (decode : Json → Option α) (encode : α → Json) : Prop where
  decode_encode : ∀ a, decode (encode a) = some a
  isNull_encode : ∀ a, strict.isNull (encode a) = some false

namespace Inverts

variable {α : Type} {decode : Json → Option α} {encode : α → Json}

theorem text : Inverts strict.text str := ⟨fun _ ↦ rfl, fun _ ↦ rfl⟩

theorem flag : Inverts strict.flag bool := ⟨fun _ ↦ rfl, fun _ ↦ rfl⟩

theorem mapM (h : Inverts decode encode) (l : List α) :
    (l.map encode).mapM decode = some l := by
  induction l with
  | nil => rfl
  | cons a l ih => simp [List.mapM_cons, h.decode_encode, ih]

theorem list (h : Inverts decode encode) :
    Inverts (strict.list decode) fun l ↦ arr (l.map encode) :=
  ⟨fun l ↦ h.mapM l, fun _ ↦ rfl⟩

theorem texts : Inverts (strict.list strict.text) Json.texts := text.list

theorem dictionary (h : Inverts decode encode) :
    Inverts (strict.dictionary decode) (Json.dictionary encode) := by
  refine ⟨fun m ↦ ?_, fun _ ↦ rfl⟩
  have hentries (l : List (String × α)) :
      (l.map fun e ↦ (e.1, encode e.2)).mapM
        (fun e : String × Json ↦ (decode e.2).bind fun v ↦ some (e.1, v)) = some l := by
    induction l with
    | nil => rfl
    | cons e l ih => simp [List.mapM_cons, h.decode_encode, ih]
  change (Option.bind ((m.entries.map fun e ↦ (e.1, encode e.2)).mapM
    fun e : String × Json ↦ (decode e.2).bind fun v ↦ some (e.1, v))
    fun l ↦ some (SortedMap.ofList l)) = some m
  rw [hentries, Option.bind_some, SortedMap.ofList_entries]

end Inverts

/-! ## Reading back members -/

variable {α : Type} {decode : Json → Option α} {encode : α → Json}
  {fields : List (String × Json)} {key : String}

theorem required_eq (h : Inverts decode encode) {a : α}
    (hfields : fields.lookup key = some (encode a)) :
    Dialect.required fields key decode = some a := by
  simp [Dialect.required, hfields, h.decode_encode]

theorem defaulted_eq (h : Inverts decode encode) {a : α} (default : α)
    (hfields : fields.lookup key = some (encode a)) :
    Dialect.defaulted fields key default decode = some a := by
  simp [Dialect.defaulted, hfields, h.decode_encode]

theorem defaulted_list_eq (h : Inverts decode encode) {l : List α}
    (hfields : fields.lookup key = (listMember key encode l).lookup key) :
    Dialect.defaulted fields key [] (strict.list decode) = some l := by
  rw [Dialect.defaulted, hfields, lookup_listMember]
  cases l with
  | nil => simp
  | cons a l => simpa using h.list.decode_encode (a :: l)

theorem optional_eq (h : Inverts decode encode) {o : Option α}
    (hfields : fields.lookup key = o.map encode) :
    strict.optional fields key decode = some o := by
  cases o with
  | none => simp [Dialect.optional, hfields]
  | some a => simp [Dialect.optional, hfields, h.decode_encode, h.isNull_encode]

end Json

end TenantAccess
