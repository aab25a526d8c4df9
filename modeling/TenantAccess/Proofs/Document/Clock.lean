import TenantAccess.Proofs.Document.RoundTrip
import TenantAccess.Selection.Activity

/-!
# Reading a document at another time

The time of reading stands in for missing transition times and for nothing else.
-/

namespace TenantAccess

open Json

namespace Condition

/-- A condition without its transition time. -/
def content (c : Condition) : String × ConditionStatus × String × String :=
  (c.type, c.status, c.reason, c.message)

theorem exists_decode_at {δ : Type} {d : Dialect δ} {now : Timestamp} {j : δ} {c : Condition}
    (h : Condition.decode d now j = some c) (later : Timestamp) :
    ∃ c', Condition.decode d later j = some c' ∧ c'.content = c.content := by
  simp only [Condition.decode, Option.bind_eq_bind, Option.bind_eq_some_iff] at h ⊢
  obtain ⟨fields, hfields, type, htype, status, hstatus, reason, hreason, message, hmessage, time,
    htime, h⟩ := h
  cases h
  unfold Dialect.defaulted at htime ⊢
  cases hlookup : fields.lookup "lastTransitionTime" with
  | none =>
    exact ⟨⟨type, status, reason, message, later⟩, ⟨fields, hfields, type, htype, status, hstatus,
      reason, hreason, message, hmessage, later, by simp [hlookup]⟩, rfl⟩
  | some j' =>
    simp only [hlookup] at htime
    exact ⟨⟨type, status, reason, message, time⟩, ⟨fields, hfields, type, htype, status, hstatus,
      reason, hreason, message, hmessage, time, by simpa [hlookup] using htime⟩, rfl⟩

theorem exists_mapM_decode_at {δ : Type} {d : Dialect δ} {now : Timestamp} {l : List δ}
    {conditions : List Condition} (h : l.mapM (Condition.decode d now) = some conditions)
    (later : Timestamp) : ∃ conditions', l.mapM (Condition.decode d later) = some conditions' ∧
      conditions'.map content = conditions.map content := by
  induction l generalizing conditions with
  | nil =>
    cases h
    exact ⟨[], rfl, rfl⟩
  | cons j rest ih =>
    simp only [List.mapM_cons, Option.bind_eq_bind, Option.bind_eq_some_iff] at h ⊢
    obtain ⟨c, hc, cs, hcs, h⟩ := h
    cases h
    obtain ⟨c', hc', hcontent⟩ := exists_decode_at hc later
    obtain ⟨cs', hcs', hcontents⟩ := ih hcs
    exact ⟨c' :: cs', ⟨c', hc', cs', hcs', rfl⟩, by simp [hcontent, hcontents]⟩

theorem exists_decodeStatus_at {δ : Type} {d : Dialect δ} {now : Timestamp}
    {fields : List (String × δ)} {conditions : List Condition}
    (h : Dialect.defaulted fields "status" [] (decodeStatus d now) = some conditions)
    (later : Timestamp) :
    ∃ conditions', Dialect.defaulted fields "status" [] (decodeStatus d later) =
      some conditions' ∧ conditions'.map content = conditions.map content := by
  unfold Dialect.defaulted at h ⊢
  cases hstatus : fields.lookup "status" with
  | none =>
    rw [hstatus] at h
    cases h
    exact ⟨[], rfl, rfl⟩
  | some j =>
    simp only [hstatus, decodeStatus, Option.bind_eq_bind, Option.bind_eq_some_iff] at h ⊢
    obtain ⟨members, hmembers, h⟩ := h
    unfold Dialect.defaulted at h
    cases hlist : members.lookup "conditions" with
    | none =>
      rw [hlist] at h
      cases h
      exact ⟨[], ⟨members, hmembers, by simp [Dialect.defaulted, hlist]⟩, rfl⟩
    | some j' =>
      simp only [hlist, Dialect.list, Option.bind_eq_bind, Option.bind_eq_some_iff] at h
      obtain ⟨elements, helements, h⟩ := h
      obtain ⟨conditions', h', hcontent⟩ := exists_mapM_decode_at h later
      exact ⟨conditions', ⟨members, hmembers, by
        simp [Dialect.defaulted, hlist, Dialect.list, helements, h']⟩, hcontent⟩

theorem find?_congr {l l' : List Condition} (h : l.map content = l'.map content) (type : String) :
    (find? type l).map content = (find? type l').map content := by
  induction l generalizing l' with
  | nil =>
    rw [List.map_nil, eq_comm, List.map_eq_nil_iff] at h
    rw [h]
  | cons c rest ih =>
    cases l' with
    | nil => cases h
    | cons c' rest' =>
      obtain ⟨hhead, htail⟩ := List.cons.inj h
      have htype : c.type = c'.type := congrArg Prod.fst hhead
      have hih := ih htail
      unfold find? at hih ⊢
      by_cases hc : c'.type = type
      · simp [htype, hc, hhead]
      · simpa [htype, hc] using hih

theorem isTrue_eq (type : String) (l : List Condition) :
    isTrue type l = ((find? type l).map content).any (·.2.1 = .true) := by
  unfold isTrue
  cases find? type l <;> rfl

theorem isTrue_congr {type : String} {l l' : List Condition}
    (h : l.map content = l'.map content) : isTrue type l = isTrue type l' := by
  rw [isTrue_eq, isTrue_eq, find?_congr h]

/-- Setting a condition changes nothing where its content is found. -/
theorem changes_eq_false_iff {new : Condition} {l : List Condition} :
    new.changes l = false ↔ (find? new.type l).map content = some new.content := by
  unfold changes
  cases hfind : find? new.type l with
  | none => simp
  | some c =>
    have htype : c.type = new.type := by simpa using List.find?_some hfind
    simp [content, htype, and_assoc]

theorem changes_congr {new : Condition} {l l' : List Condition}
    (h : l.map content = l'.map content) (hsame : new.changes l = false) :
    new.changes l' = false := by
  rw [changes_eq_false_iff] at hsame ⊢
  rw [← find?_congr h, hsame]

end Condition

theorem Inventory.exists_decode_at {now : Timestamp} {object : Json} {i : Inventory}
    (h : Inventory.decode strict now object = some i) (later : Timestamp) :
    ∃ i', Inventory.decode strict later object = some i' ∧ i'.metadata = i.metadata ∧
      i'.spec = i.spec := by
  simp only [Inventory.decode, Option.bind_eq_bind, Option.bind_eq_some_iff] at h ⊢
  obtain ⟨fields, hfields, m, hm, spec, hspec, conditions, hconditions, h⟩ := h
  cases h
  obtain ⟨conditions', hconditions', -⟩ := Condition.exists_decodeStatus_at hconditions later
  exact ⟨⟨m, spec, conditions'⟩, ⟨fields, hfields, m, hm, spec, hspec, conditions', hconditions',
    rfl⟩, rfl, rfl⟩

theorem Config.exists_content_at {now : Timestamp} {object : Json} {c : Config}
    (h : Config.decode strict now object = some c) (later : Timestamp) :
    ∃ c', Config.decode strict later object = some c' ∧ c'.metadata = c.metadata ∧
      c'.conditions.map Condition.content = c.conditions.map Condition.content := by
  simp only [Config.decode, Option.bind_eq_bind, Option.bind_eq_some_iff] at h ⊢
  obtain ⟨fields, hfields, m, hm, spec, hspec, conditions, hconditions, h⟩ := h
  cases h
  obtain ⟨conditions', hconditions', hcontent⟩ :=
    Condition.exists_decodeStatus_at hconditions later
  exact ⟨⟨m, spec, conditions'⟩, ⟨fields, hfields, m, hm, spec, hspec, conditions', hconditions',
    rfl⟩, rfl, hcontent⟩

end TenantAccess
