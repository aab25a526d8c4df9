import TenantAccess.Proofs.Selection.Workers

/-!
# When workers leave one config active

A config that finds another one active under a smaller name gives up, but it finds that only when it
looks.  Once some config is active, the first active one stays; so the workers come to rest with one
active config unless a config was overtaken by one of a smaller name and has not looked since.
-/

namespace TenantAccess.Workers

open Store

variable {ns : String} {uid : Nat → String} {first : Nat} {start st st' : Workers}
  {phase phase' : String → Phase} {action : Action} {name l a b : String}

/-- The config `b` was active when one of a smaller name became so, and has stayed active since without
looking. -/
inductive Overtaken (ns : String) (uid : Nat → String) (start : Workers) (b : String) :
    Workers → Prop
  | activate {st st' : Workers} {action : Action} {a : String} (h : Reached uid start st)
    (hstep : Step uid st action st') (hlt : a < b) (hbefore : ¬st.store.Active ns a)
    (hafter : st'.store.Active ns a) (hactive : st.store.Active ns b)
    (hstays : st'.store.Active ns b) : Overtaken ns uid start b st'
  | stay {st st' : Workers} {action : Action} (h : Overtaken ns uid start b st)
    (hstep : Step uid st action st') (hlooks : ¬st.Looks action (.config ns b))
    (hstays : st'.store.Active ns b) : Overtaken ns uid start b st'

/-- The active config `l` comes first, and does not give up. -/
structure Leads (ns : String) (phase : String → Phase) (st : Workers) (l : String) : Prop where
  active : st.store.Active ns l
  le : ∀ a, st.store.Active ns a → l ≤ a
  keeps : phase l ≠ .deciding false

/-- The config is to be reconciled, or its reconcile has not failed to activate it. -/
def Hopeful (ns : String) (phase : String → Phase) (st : Workers) (name : String) : Prop :=
  Dirty ns st name ∨ Busy ns st name ∧ (phase name = .before ∨ phase name = .deciding true)

/-- No config was active so far. -/
structure Dawn (ns : String) (phase : String → Phase) (st : Workers) : Prop where
  inactive : ∀ name, ¬st.store.Active ns name
  hopeful : ∀ name, st.store.HasConfig ns name → Hopeful ns phase st name
  keeps : ∀ name, phase name ≠ .deciding false

/-- The config is still to look, or to give up. -/
def Doubtful (ns : String) (phase : String → Phase) (st : Workers) (name : String) : Prop :=
  Dirty ns st name ∨ Called ns st name ∨
    Busy ns st name ∧ (phase name = .before ∨ phase name = .deciding false)

namespace Aside

theorem hopeful (h : Aside ns phase phase' st st' name) (hname : Hopeful ns phase st name) :
    Hopeful ns phase' st' name := by
  rcases hname with hdirty | ⟨hbusy, hphase⟩
  · exact .inl (h.dirty hdirty)
  · exact .inr ⟨h.busy_iff.2 hbusy, h.phase_eq ▸ hphase⟩

theorem doubtful (h : Aside ns phase phase' st st' name) (hname : Doubtful ns phase st name) :
    Doubtful ns phase' st' name := by
  rcases hname with hdirty | hcalled | ⟨hbusy, hphase⟩
  · exact .inl (h.dirty hdirty)
  · rcases h.called hcalled with hcalled | hdirty
    · exact .inr (.inl hcalled)
    · exact .inl hdirty
  · exact .inr (.inr ⟨h.busy_iff.2 hbusy, h.phase_eq ▸ hphase⟩)

end Aside

theorem active_iff_of_same (haside : ∀ other, other ≠ name → Aside ns phase phase' st st' other)
    (hname : st'.store.Active ns name ↔ st.store.Active ns name) (other : String) :
    st'.store.Active ns other ↔ st.store.Active ns other := by
  by_cases h : other = name
  · rwa [h]
  · exact (haside other h).active_iff

namespace Leads

theorem of_same (h : Leads ns phase st l)
    (hsame : ∀ a, st'.store.Active ns a ↔ st.store.Active ns a)
    (hkeeps : phase' l ≠ .deciding false) : Leads ns phase' st' l :=
  ⟨(hsame l).2 h.active, fun a ha ↦ h.le a ((hsame a).1 ha), hkeeps⟩

theorem not_blocked (h : Leads ns phase st l) : ¬st.store.Blocked ns l :=
  fun ⟨other, _, hother, hlt⟩ ↦ Std.not_lt.2 (h.le other hother) (hlt h.active)

theorem keeps_of_aside (h : Leads ns phase st l)
    (haside : ∀ other, other ≠ name → Aside ns phase phase' st st' other)
    (hname : l = name → phase' l ≠ .deciding false) : phase' l ≠ .deciding false := by
  by_cases hl : l = name
  · exact hname hl
  · rw [(haside l hl).phase_eq]
    exact h.keeps

/-- A call of the worker of `name` leaves the first active config in place, or puts `name` before
it. -/
theorem call (h : Leads ns phase st l)
    (haside : ∀ other, other ≠ name → Aside ns phase phase' st st' other) {r : Request}
    {news : List Event}
    (hturn : Turn ns name r st.store news st'.store (phase name) (phase' name)) :
    ∃ l', l' ≤ l ∧ Leads ns phase' st' l' := by
  generalize hheld : phase name = held at hturn
  generalize hreached : phase' name = reached at hturn
  cases hturn with
  | read hlooks hsame =>
    refine ⟨l, Std.le_refl l, h.of_same (fun a ↦ by rw [hsame]) (h.keeps_of_aside haside ?_)⟩
    rintro rfl
    rw [hreached]
    exact nofun
  | look _ hsame hdecides =>
    refine ⟨l, Std.le_refl l, h.of_same (fun a ↦ by rw [hsame]) (h.keeps_of_aside haside ?_)⟩
    rintro rfl
    rw [hreached]
    rcases hdecides with rfl | ⟨hblocked, -⟩ | ⟨-, rfl | ⟨rfl, -⟩⟩
    · exact nofun
    · exact absurd hblocked h.not_blocked
    · exact nofun
    · exact nofun
  | @write hlooks active hactive hnews =>
    have hkept (a : String) (ha : a ≠ name) := (haside a ha).active_iff
    cases active with
    | true =>
      have hname : st'.store.Active ns name := hactive.2 rfl
      have hle (a : String) (ha : st'.store.Active ns a) : a = name ∨ l ≤ a := by
        by_cases heq : a = name
        · exact .inl heq
        · exact .inr (h.le a ((hkept a heq).1 ha))
      -- whoever becomes active leads if it comes first, and is behind the leader otherwise
      by_cases hlt : name < l
      · refine ⟨name, Std.le_of_lt hlt, hname, fun a ha ↦ ?_, by rw [hreached]; exact nofun⟩
        rcases hle a ha with rfl | hla
        · exact Std.le_refl a
        · exact Std.le_trans (Std.le_of_lt hlt) hla
      · refine ⟨l, Std.le_refl l, ?_, fun a ha ↦ ?_, h.keeps_of_aside haside fun heq ↦ ?_⟩
        · by_cases heq : l = name
          · rwa [heq]
          · exact (hkept l heq).2 h.active
        · rcases hle a ha with rfl | hla
          · exact Std.not_lt.1 hlt
          · exact hla
        · rw [heq, hreached]
          exact nofun
    | false =>
      have hne : l ≠ name := fun heq ↦ h.keeps (heq ▸ hheld)
      refine ⟨l, Std.le_refl l, (hkept l hne).2 h.active, fun a ha ↦ ?_,
        h.keeps_of_aside haside fun heq ↦ absurd heq hne⟩
      by_cases heq : a = name
      · rw [heq, hactive] at ha
        cases ha
      · exact h.le a ((hkept a heq).1 ha)
  | mind hlooks hsame =>
    refine ⟨l, Std.le_refl l, h.of_same hsame (h.keeps_of_aside haside fun heq ↦ ?_)⟩
    rw [heq, hreached]
    exact nofun

/-- Whatever is done, some config leads that does not come after the one that led before. -/
theorem move (h : Leads ns phase st l) (hmove : Move ns phase phase' st st' action) :
    ∃ l', l' ≤ l ∧ Leads ns phase' st' l' := by
  cases hmove with
  | take haside hactive _ hphase =>
    refine ⟨l, Std.le_refl l, h.of_same (active_iff_of_same haside hactive)
      (h.keeps_of_aside haside fun heq ↦ ?_)⟩
    rw [heq, hphase]
    exact nofun
  | call haside _ _ hturn => exact h.call haside hturn
  | finish haside hactive hphase =>
    refine ⟨l, Std.le_refl l, h.of_same (active_iff_of_same haside hactive)
      (h.keeps_of_aside haside fun heq ↦ ?_)⟩
    rw [heq, hphase, ← heq]
    exact h.keeps
  | deliver haside =>
    exact ⟨l, Std.le_refl l, h.of_same (fun a ↦ (haside a).active_iff)
      ((haside l).phase_eq ▸ h.keeps)⟩

end Leads

/-! ## The first active config -/

namespace Dawn

theorem of_aside (h : Dawn ns phase st)
    (hhas : ∀ other, st'.store.HasConfig ns other ↔ st.store.HasConfig ns other)
    (haside : ∀ other, other ≠ name → Aside ns phase phase' st st' other)
    (hinactive : ¬st'.store.Active ns name)
    (hhopeful : Hopeful ns phase st name → Hopeful ns phase' st' name)
    (hkeeps : phase' name ≠ .deciding false) : Dawn ns phase' st' := by
  refine ⟨fun other ↦ ?_, fun other hother ↦ ?_, fun other ↦ ?_⟩ <;>
    by_cases heq : other = name
  · rwa [heq]
  · rw [(haside other heq).active_iff]
    exact h.inactive other
  · subst heq
    exact hhopeful (h.hopeful other ((hhas other).1 hother))
  · exact (haside other heq).hopeful (h.hopeful other ((hhas other).1 hother))
  · rwa [heq]
  · rw [(haside other heq).phase_eq]
    exact h.keeps other

theorem call (h : Dawn ns phase st)
    (hhas : ∀ other, st'.store.HasConfig ns other ↔ st.store.HasConfig ns other)
    (haside : ∀ other, other ≠ name → Aside ns phase phase' st st' other)
    (hbusy : Busy ns st' name) (hdirty : Dirty ns st name → Dirty ns st' name) {r : Request}
    {news : List Event}
    (hturn : Turn ns name r st.store news st'.store (phase name) (phase' name)) :
    Dawn ns phase' st' ∨ ∃ l, Leads ns phase' st' l := by
  generalize hheld : phase name = held at hturn
  generalize hreached : phase' name = reached at hturn
  have hstays (hsame : ∀ other, st'.store.Active ns other ↔ st.store.Active ns other) :
      ¬st'.store.Active ns name := fun hactive ↦ h.inactive name ((hsame name).1 hactive)
  cases hturn with
  | read hlooks hsame =>
    exact .inl (h.of_aside hhas haside (hstays fun _ ↦ by rw [hsame])
      (fun _ ↦ .inr ⟨hbusy, .inl hreached⟩) (by rw [hreached]; exact nofun))
  | look _ hsame hdecides =>
    have hinactive := hstays fun _ ↦ by rw [hsame]
    rcases hdecides with rfl | ⟨⟨other, -, hother, -⟩, -⟩ | ⟨-, rfl | ⟨-, hactive⟩⟩
    · exact .inl (h.of_aside hhas haside hinactive (fun _ ↦ .inr ⟨hbusy, .inl hreached⟩)
        (by rw [hreached]; exact nofun))
    · exact absurd hother (h.inactive other)
    · exact .inl (h.of_aside hhas haside hinactive (fun _ ↦ .inr ⟨hbusy, .inr hreached⟩)
        (by rw [hreached]; exact nofun))
    · exact absurd hactive (h.inactive name)
  | @write hlooks active hactive hnews =>
    cases active with
    | true =>
      refine .inr ⟨name, hactive.2 rfl, fun a ha ↦ ?_, by rw [hreached]; exact nofun⟩
      by_cases heq : a = name
      · subst heq
        exact Std.le_refl a
      · exact absurd ((haside a heq).active_iff.1 ha) (h.inactive a)
    | false => exact absurd hheld (h.keeps name)
  | mind hlooks hsame =>
    refine .inl (h.of_aside hhas haside (hstays hsame) (fun hname ↦ ?_)
      (by rw [hreached]; exact nofun))
    rcases hname with hname | ⟨-, hphase⟩
    · exact .inl (hdirty hname)
    · simp [hheld] at hphase

/-- Before any config is active, none gives up, and each is still to be activated. -/
theorem move (h : Dawn ns phase st) (hmove : Move ns phase phase' st st' action)
    (hhas : ∀ other, st'.store.HasConfig ns other ↔ st.store.HasConfig ns other) :
    Dawn ns phase' st' ∨ ∃ l, Leads ns phase' st' l := by
  cases hmove with
  | @take name haside hactive hbusy hphase =>
    exact .inl (h.of_aside hhas haside (fun ha ↦ h.inactive name (hactive.1 ha))
      (fun _ ↦ .inr ⟨hbusy, .inl hphase⟩) (by rw [hphase]; exact nofun))
  | call haside _ hbusy hturn hdirty => exact h.call hhas haside hbusy hdirty hturn
  | @finish name haside hactive hphase hended hdirty =>
    refine .inl (h.of_aside hhas haside (fun ha ↦ h.inactive name (hactive.1 ha)) (fun hname ↦ ?_)
      (hphase ▸ h.keeps name))
    rcases hname with hname | ⟨-, hname⟩
    · exact .inl (hdirty hname)
    · rcases hended with hafter | ⟨-, hagain⟩
      · simp [hafter] at hname
      · exact .inl hagain
  | deliver haside =>
    exact .inl ⟨fun other ha ↦ h.inactive other ((haside other).active_iff.1 ha),
      fun other hother ↦ (haside other).hopeful (h.hopeful other ((hhas other).1 hother)),
      fun other ↦ (haside other).phase_eq ▸ h.keeps other⟩

end Dawn

/-! ## Giving up -/

theorem doubtful_of_looks (hmove : Move ns phase phase' st st' action)
    (hlooks : st.Looks action (.config ns b)) (hlt : a < b) (ha : st.store.Active ns a)
    (hb : st.store.Active ns b) : Doubtful ns phase' st' b := by
  obtain ⟨rfl, r, next, hcalls, hr⟩ := hlooks
  cases hmove with
  | call haside hcalls' hbusy hturn =>
    rw [hcalls] at hcalls'
    cases hcalls'
    have hblocked : st.store.Blocked ns b := ⟨a, Std.ne_of_lt hlt, ha, fun _ ↦ hlt⟩
    generalize phase b = held at hturn
    generalize hreached : phase' b = reached at hturn
    cases hturn with
    | read hlooks | write hlooks | mind hlooks => exact absurd hr hlooks
    | look _ _ hdecides =>
      rcases hdecides with rfl | ⟨-, rfl | ⟨-, hnot⟩⟩ | ⟨hfree, -⟩
      · exact .inr (.inr ⟨hbusy, .inl hreached⟩)
      · exact .inr (.inr ⟨hbusy, .inr hreached⟩)
      · exact absurd hb hnot
      · exact absurd hblocked hfree

/-- As long as it is active and has not looked, a config in doubt stays in doubt. -/
theorem Doubtful.move (h : Doubtful ns phase st b) (hmove : Move ns phase phase' st st' action)
    (hlooks : ¬st.Looks action (.config ns b)) (hb : st'.store.Active ns b) :
    Doubtful ns phase' st' b := by
  cases hmove with
  | @take name haside _ hbusy hphase =>
    by_cases heq : b = name
    · subst heq
      exact .inr (.inr ⟨hbusy, .inl hphase⟩)
    · exact (haside b heq).doubtful h
  | @call name haside r next hcalls hbusy news hturn hdirty hcalled _ =>
    by_cases heq : b = name
    · subst heq
      rcases h with h | h | ⟨-, hphase⟩
      · exact .inl (hdirty h)
      · exact .inr (.inl (hcalled h))
      · generalize phase b = held at hturn hphase
        generalize hreached : phase' b = reached at hturn
        cases hturn with
        | read _ _ => exact .inr (.inr ⟨hbusy, .inl hreached⟩)
        | look hr _ _ => exact absurd ⟨rfl, r, next, hcalls, hr⟩ hlooks
        | write _ hactive _ =>
          have hfalse := hphase.resolve_left nofun
          cases hfalse
          exact nomatch hactive.1 hb
        | mind _ _ => exact hphase.elim nofun nofun
    · exact (haside b heq).doubtful h
  | @finish name haside _ hphase hended hdirty hcalled =>
    by_cases heq : b = name
    · subst heq
      rcases h with h | h | ⟨-, hheld⟩
      · exact .inl (hdirty h)
      · exact .inr (.inl (hcalled h))
      · rcases hended with hafter | ⟨-, hagain⟩
        · simp [hafter] at hheld
        · exact .inl hagain
    · exact (haside b heq).doubtful h
  | deliver haside => exact (haside b).doubtful h

theorem called_of_activate (hmove : Move ns phase phase' st st' action)
    (hbefore : ¬st.store.Active ns b) (hafter : st'.store.Active ns b) : Called ns st' b := by
  have hother (h : Aside ns phase phase' st st' b) : False := hbefore (h.active_iff.1 hafter)
  cases hmove with
  | @take name haside hactive _ _ =>
    by_cases heq : b = name
    · subst heq
      exact absurd (hactive.1 hafter) hbefore
    · exact (hother (haside b heq)).elim
  | @call name haside r next _ _ news hturn _ _ hnews =>
    by_cases heq : b = name
    · subst heq
      generalize phase b = held at hturn
      generalize phase' b = reached at hturn
      cases hturn with
      | read _ hsame | look _ hsame _ =>
        rw [hsame] at hafter
        exact absurd hafter hbefore
      | write _ _ htold =>
        obtain ⟨e, he, hkeys⟩ := htold
        exact ⟨e, hnews e he, hkeys⟩
      | mind _ hsame => exact absurd ((hsame b).1 hafter) hbefore
    · exact (hother (haside b heq)).elim
  | @finish name haside hactive _ _ _ _ =>
    by_cases heq : b = name
    · subst heq
      exact absurd (hactive.1 hafter) hbefore
    · exact (hother (haside b heq)).elim
  | deliver haside => exact (hother (haside b)).elim

/-! ## Every run -/

/-- What holds in every state that is reached. -/
structure Contest (ns : String) (uid : Nat → String) (first : Nat) (start : Workers)
    (phase : String → Phase) (st : Workers) : Prop where
  orderly : Orderly ns uid first phase st
  led : Dawn ns phase st ∨ ∃ l, Leads ns phase st l
  /-- Of two active configs, the later one is to give up unless it was overtaken. -/
  fair : ∀ a b, a < b → st.store.Active ns a → st.store.Active ns b →
    Doubtful ns phase st b ∨ Overtaken ns uid start b st

theorem Opening.contest (h : Opening ns uid start) :
    Contest ns uid start.store.issued start (fun _ ↦ .before) start where
  orderly := h.orderly
  led := .inl ⟨h.inactive, fun name hname ↦ .inl ((h.dirty_iff _).2 ⟨name, rfl, hname⟩),
    fun _ ↦ nofun⟩
  fair a _ _ ha _ := absurd ha (h.inactive a)

theorem Contest.step (h : Contest ns uid first start phase st) (hreached : Reached uid start st)
    (hstep : Step uid st action st') : ∃ phase', Contest ns uid first start phase' st' := by
  obtain ⟨phase', horderly, hmove, hhas⟩ := h.orderly.step hstep
  refine ⟨phase', horderly, ?_, fun a b hlt ha hb ↦ ?_⟩
  · rcases h.led with hdawn | ⟨l, hleads⟩
    · exact hdawn.move hmove hhas
    · obtain ⟨l', -, hleads'⟩ := hleads.move hmove
      exact .inr ⟨l', hleads'⟩
  · by_cases hb' : st.store.Active ns b
    · by_cases ha' : st.store.Active ns a
      · by_cases hlooks : st.Looks action (.config ns b)
        · exact .inl (doubtful_of_looks hmove hlooks hlt ha' hb')
        · rcases h.fair a b hlt ha' hb' with hdoubtful | hovertaken
          · exact .inl (hdoubtful.move hmove hlooks hb)
          · exact .inr (.stay hovertaken hstep hlooks hb)
      · exact .inr (.activate hreached hstep hlt ha' ha hb' hb)
    · exact .inl (.inr (.inl (called_of_activate hmove hb' hb)))

theorem Reached.contest (h : Reached uid start st) (hopening : Opening ns uid start) :
    ∃ phase, Contest ns uid start.store.issued start phase st := by
  induction h with
  | start => exact ⟨_, hopening.contest⟩
  | step h hstep ih =>
    obtain ⟨phase, hcontest⟩ := ih
    exact hcontest.step h hstep

theorem Overtaken.reached (h : Overtaken ns uid start b st) : Reached uid start st := by
  induction h with
  | activate h hstep => exact h.step hstep
  | stay _ hstep _ _ ih => exact ih.step hstep

theorem Overtaken.exists_lt (h : Overtaken ns uid start b st) (hopening : Opening ns uid start) :
    st.store.Active ns b ∧ ∃ a, a < b ∧ st.store.Active ns a := by
  induction h with
  | activate _ _ hlt _ hafter _ hstays => exact ⟨hstays, _, hlt, hafter⟩
  | stay h hstep hlooks hstays ih =>
    obtain ⟨-, a, hlt, ha⟩ := ih
    obtain ⟨phase, hcontest⟩ := h.reached.contest hopening
    obtain ⟨phase', -, hmove, -⟩ := hcontest.orderly.step hstep
    rcases hcontest.led with hdawn | ⟨l, hleads⟩
    · exact absurd ha (hdawn.inactive a)
    · obtain ⟨l', hle, hleads'⟩ := hleads.move hmove
      exact ⟨hstays, l', Std.lt_of_le_of_lt (Std.le_trans hle (hleads.le a ha)) hlt,
        hleads'.active⟩

theorem Orderly.not_busy (h : Orderly ns uid first phase st) (hrest : st.AtRest) (name : String) :
    ¬Busy ns st name := by
  intro hbusy
  have hflight : st.queue.inFlight = [] := by
    simpa using (Bool.and_eq_true_iff.1 hrest.1).2
  simpa [hflight] using (h.flight _).1 hbusy

theorem Orderly.not_dirty (h : Orderly ns uid first phase st) (hrest : st.AtRest) (name : String) :
    ¬Dirty ns st name := by
  obtain ⟨hpending, hflight⟩ := Bool.and_eq_true_iff.1 hrest.1
  intro hdirty
  rw [Dirty, h.sound.dirty_eq_nil (by simpa using hpending) (by simpa using hflight)] at hdirty
  cases hdirty

theorem not_called (hrest : st.AtRest) (name : String) : ¬Called ns st name := by
  rintro ⟨e, he, -⟩
  rw [undelivered, hrest.2, List.drop_eq_nil_of_le (by simp)] at he
  cases he

/-- Workers that come to rest leave a config active wherever there is one, and no other one exactly if
no config was overtaken. -/
theorem exclusive_iff_not_overtaken (hopening : Opening ns uid start)
    (hreached : Reached uid start st) (hrest : st.AtRest) :
    ((∃ name, st.store.HasConfig ns name) → ∃ name, st.store.Active ns name) ∧
    ((∀ a b, st.store.Active ns a → st.store.Active ns b → a = b) ↔
      ∀ b, ¬Overtaken ns uid start b st) := by
  obtain ⟨phase, hcontest⟩ := hreached.contest hopening
  have hquiet (name : String) := hcontest.orderly.not_busy hrest name
  have hclean (name : String) := hcontest.orderly.not_dirty hrest name
  refine ⟨fun ⟨name, hname⟩ ↦ ?_, fun hexclusive b hovertaken ↦ ?_, fun hnone a b ha hb ↦ ?_⟩
  · rcases hcontest.led with hdawn | ⟨l, hleads⟩
    · rcases hdawn.hopeful name hname with hdirty | ⟨hbusy, -⟩
      · exact absurd hdirty (hclean name)
      · exact absurd hbusy (hquiet name)
    · exact ⟨l, hleads.active⟩
  · obtain ⟨hb, a, hlt, ha⟩ := hovertaken.exists_lt hopening
    exact Std.ne_of_lt hlt (hexclusive a b ha hb)
  · have hnot {a b : String} (ha : st.store.Active ns a) (hb : st.store.Active ns b) :
        ¬a < b := fun hlt ↦ by
      rcases hcontest.fair a b hlt ha hb with (hdirty | hcalled | ⟨hbusy, -⟩) | hovertaken
      · exact hclean b hdirty
      · exact not_called hrest b hcalled
      · exact hquiet b hbusy
      · exact hnone b hovertaken
    exact Std.le_antisymm (Std.not_lt.1 (hnot hb ha)) (Std.not_lt.1 (hnot ha hb))

/-! ## Two configs -/

section Pair

def pair : Workers := opened quiet.ambient "shop" ["a", "b"]

theorem opening_pair : Opening "shop" quiet.ambient.uid pair :=
  opening_opened quiet.ambient (by decide) (by decide)

/-- Hand out the key of a config, let its worker make so many calls, and be done. -/
def turn (name : String) (calls : Nat) : List Action :=
  .take :: List.replicate calls (.call (.config "shop" name)) ++ [.finish (.config "shop" name)]

def inTurn : List Action :=
  turn "a" 5 ++ [.deliver, .deliver] ++ turn "b" 4 ++ [.deliver] ++ turn "a" 3 ++ turn "b" 3

/-- The worker of `a` has looked, but writes only after those of `b` are done. -/
def late : List Action :=
  [.take, .call (.config "shop" "a"), .call (.config "shop" "a")] ++ turn "b" 5 ++
    [.deliver, .deliver] ++ turn "b" 3 ++ List.replicate 3 (.call (.config "shop" "a")) ++
    [.finish (.config "shop" "a"), .deliver, .deliver] ++ turn "a" 3

set_option maxRecDepth 10000 in
theorem exclusive_iff_not_overtaken_in_turn :
    ∃ st, Reached quiet.ambient.uid pair st ∧ st.AtRest ∧
      ((∃ name, st.store.HasConfig "shop" name) → ∃ name, st.store.Active "shop" name) ∧
      ((∀ a b, st.store.Active "shop" a → st.store.Active "shop" b → a = b) ↔
        ∀ b, ¬Overtaken "shop" quiet.ambient.uid pair b st) := by
  have hplay : (pair.play quiet default inTurn).any fun st ↦ st.AtRest := by decide +kernel
  obtain ⟨st, hst, hrest⟩ := (Option.any_eq_true _ _).1 hplay
  have hreached : Reached quiet.ambient.uid pair st := Reached.start.play hst
  exact ⟨st, hreached, of_decide_eq_true hrest,
    exclusive_iff_not_overtaken opening_pair hreached (of_decide_eq_true hrest)⟩

def shows (st : Workers) (name : String) : Bool :=
  match st.store.objects.get? ⟨.config, ⟨some "shop", name⟩⟩ with
  | some object => (Config.decode Json.strict default object).any Config.isActive
  | none => false

theorem active_of_shows (h : st.store.Coherent) (hshows : st.shows name) :
    st.store.Active "shop" name := by
  unfold shows at hshows
  split at hshows
  · next object hget =>
    obtain ⟨c, hdecode, hactive⟩ := (Option.any_eq_true _ _).1 hshows
    exact ⟨default, c, ⟨h.has_of_decode (a := c) hget hdecode,
      h.key_of_decode (a := c) hget hdecode⟩, hactive⟩
  · cases hshows

set_option maxRecDepth 10000 in
/-- A config that writes late activates itself beside one that is active already.  Nobody calls the
other one, so the workers rest with both of them active. -/
theorem two_active_of_late_write : Opening "shop" quiet.ambient.uid pair ∧
    ∃ st, Reached quiet.ambient.uid pair st ∧ st.AtRest ∧ st.store.Active "shop" "a" ∧
      st.store.Active "shop" "b" := by
  have hplay : (pair.play quiet default late).any fun st ↦
      decide st.AtRest && (st.shows "a" && st.shows "b") := by decide +kernel
  obtain ⟨st, hst, hends⟩ := (Option.any_eq_true _ _).1 hplay
  obtain ⟨hrest, hshows⟩ := Bool.and_eq_true_iff.1 hends
  obtain ⟨ha, hb⟩ := Bool.and_eq_true_iff.1 hshows
  have hreached : Reached quiet.ambient.uid pair st := Reached.start.play hst
  obtain ⟨phase, hcontest⟩ := hreached.contest opening_pair
  have hcoherent := hcontest.orderly.tended.coherent
  exact ⟨opening_pair, st, hreached, of_decide_eq_true hrest, active_of_shows hcoherent ha,
    active_of_shows hcoherent hb⟩

end Pair

end TenantAccess.Workers
