import Mathlib.Data.Finset.Card
import Mathlib.Logic.Relation
import TenantAccess.Proofs.Controller.Station
import TenantAccess.Proofs.Selection.Leader

/-!
# Coming to rest

Suppose that reconciling a key leaves it nothing more to do, calls for no other key, and gives no other
key anything to do.  Then a controller comes to rest: every key is reconciled once, and once more for its
own writes.  A controller that falls behind the log looks at everything again, but that can happen only
once for each key.
-/

namespace TenantAccess

open Store Relation

namespace Station

variable {env : Surroundings} {now : Timestamp} {st st₁ st' : Station}

/-! ## Following the log -/

/-- The controller takes notice of all that was logged. -/
def Follows (env : Surroundings) (now : Timestamp) (st st' : Station) : Prop :=
  st.exec (Controller.follow (.reliable env) now (some st.cursor)) =
    (.ok (some st'.cursor), { st' with cursor := st.cursor })

theorem Follows.unique (h : st.Follows env now st₁) (h' : st.Follows env now st') : st₁ = st' := by
  obtain ⟨hcursor, hrest⟩ := Prod.mk.inj (h.symm.trans h')
  obtain ⟨hworld, hqueue, -⟩ := Station.mk.inj hrest
  have hcursor := Option.some.inj (Except.ok.inj hcursor)
  obtain ⟨world, queue, cursor⟩ := st₁
  subst hworld hqueue hcursor
  rfl

def told (st : Station) (events : List Event) : Station :=
  { st with queue := (events.flatMap (·.keys st.world.claims)).foldl WorkQueue.add st.queue }

theorem exec_handle_eq (env : Surroundings) (st : Station) (events : List Event) :
    st.exec (Controller.handle (.reliable env) events) = (.ok (), st.told events) := rfl

theorem exec_log (env : Surroundings) (st : Station) :
    st.exec (ExceptT.lift (StateT.lift (Backend.reliable env).log)) =
      (.ok st.world.store.log, st) := rfl

theorem follows_of_le (env : Surroundings) (now : Timestamp)
    (h : st.world.store.log.size - st.cursor ≤ Controller.watchCapacity) :
    st.Follows env now
      { st.told st.undelivered with cursor := st.world.store.log.size } := by
  unfold Follows Controller.follow Controller.catchUp
  apply exec_map_of_ok
  rw [exec_bind_of_ok (exec_log env st), if_neg (Nat.not_lt.2 h), pure_bind,
    exec_bind_of_ok (exec_handle_eq env st _), toList_extract_log]
  rfl

theorem follows_of_lt
    (h : Controller.watchCapacity < st.world.store.log.size - st.cursor) {n : Nat}
    (hresync : st.exec (Controller.resync (.reliable env) now) = (.ok n, st₁)) :
    st.Follows env now
      { st₁.told (st.world.store.log.toList.drop
          (st.world.store.log.size - Controller.watchCapacity)) with
        cursor := st.world.store.log.size } := by
  have hcursor : st₁.cursor = st.cursor :=
    (congrArg (fun r : Except Error Nat × Station ↦ r.2.cursor) hresync).symm
  have honLoss : st.exec (do let _ ← Controller.resync (.reliable env) now) = (.ok (), st₁) := by
    rw [exec_bind_of_ok hresync]
    rfl
  unfold Follows Controller.follow Controller.catchUp
  apply exec_map_of_ok
  rw [exec_bind_of_ok (exec_log env st), if_pos h, exec_bind_of_ok honLoss, pure_bind,
    exec_bind_of_ok (exec_handle_eq env st₁ _), toList_extract_log, ← hcursor]
  generalize st.world.store.log.size - Controller.watchCapacity = start
  rfl

/-! ## Reconciling -/

theorem exec_reconcileNext_of_none (env : Surroundings) (now : Timestamp)
    (h : st.queue.take? = none) :
    st.exec (Controller.reconcileNext (.reliable env) now) = (.ok false, st) := by
  unfold Controller.reconcileNext
  rw [exec_bind_of_ok (exec_get st), h]
  rfl

/-- One round of settling: a reconcile, and taking notice of what it wrote. -/
def Turn (env : Surroundings) (now : Timestamp) (st st' : Station) : Prop :=
  ∃ st₁, st.exec (Controller.reconcileNext (.reliable env) now) = (.ok true, st₁) ∧
    st₁.Follows env now st'

/-- In the rounds from here on no reconcile writes more than a subscriber may be behind. -/
def Lagless (env : Surroundings) (now : Timestamp) (st : Station) : Prop :=
  ∀ st' st₁, ReflTransGen (Turn env now) st st' →
    st'.exec (Controller.reconcileNext (.reliable env) now) = (.ok true, st₁) →
    st₁.world.store.writes ≤ st'.world.store.writes + Controller.watchCapacity

theorem Lagless.turn (h : st.Lagless env now) (hturn : st.Turn env now st') :
    st'.Lagless env now :=
  fun st₂ st₁ hrun ↦ h st₂ st₁ (.head hturn hrun)

end Station

/-! ## Work that comes to an end -/

/-- What reconciling `key` comes to where that calls for no other work. -/
structure Visit (Inv : World → Prop) (Quiet : ReconcileKey → Store → Prop)
    (key : ReconcileKey) (w w' : World) : Prop where
  inv : Inv w'
  quiet : Quiet key w'.store
  others : ∀ other, Quiet other w.store → Quiet other w'.store
  wrote : ∃ news, w.store.Wrote news w'.store ∧ (∀ e ∈ news, e.Only key) ∧
    (Quiet key w.store → news = [])

/-- Reconciling any of `keys` once is enough, and looking at everything finds just these keys. -/
structure Settles (env : Surroundings) (now : Timestamp) (keys : Finset ReconcileKey)
    (Inv : World → Prop) (Quiet : ReconcileKey → Store → Prop) : Prop where
  visit : ∀ key ∈ keys, ∀ w, Inv w → ∃ w', (key.work now).exec env w = (.ok [], w') ∧
    Visit Inv Quiet key w w'
  resync : ∀ st : Station, Inv st.world → ∃ (n : Nat) (all : List ReconcileKey) (w' : World),
    st.exec (Controller.resync (.reliable env) now) =
      (.ok n, { st with world := w', queue := all.foldl WorkQueue.add st.queue }) ∧
    Inv w' ∧ w'.store = st.world.store ∧ ∀ key, key ∈ all ↔ key ∈ keys

open scoped Classical in
noncomputable def unquiet (keys : Finset ReconcileKey) (Quiet : ReconcileKey → Store → Prop)
    (s : Store) : Finset ReconcileKey :=
  keys.filter fun key ↦ ¬Quiet key s

section Settles

variable {env : Surroundings} {now : Timestamp} {keys : Finset ReconcileKey} {Inv : World → Prop}
  {Quiet : ReconcileKey → Store → Prop} {st st₁ st' : Station} {key : ReconcileKey}
  {s after : Store}

open scoped Classical in
theorem mem_unquiet_iff : key ∈ unquiet keys Quiet s ↔ key ∈ keys ∧ ¬Quiet key s := by
  unfold unquiet
  exact Finset.mem_filter

theorem card_unquiet_le : (unquiet keys Quiet s).card ≤ keys.card :=
  Finset.card_le_card fun _ h ↦ (mem_unquiet_iff.1 h).1

theorem card_unquiet_eq_zero (h : ∀ key ∈ keys, Quiet key s) : (unquiet keys Quiet s).card = 0 := by
  refine Finset.card_eq_zero.2 (Finset.eq_empty_of_forall_notMem fun key hkey ↦ ?_)
  obtain ⟨hmem, hbusy⟩ := mem_unquiet_iff.1 hkey
  exact hbusy (h key hmem)

theorem card_unquiet_lt (h : ∀ other, Quiet other s → Quiet other after) (hkey : key ∈ keys)
    (hbefore : ¬Quiet key s) (hafter : Quiet key after) :
    (unquiet keys Quiet after).card < (unquiet keys Quiet s).card := by
  apply Finset.card_lt_card
  rw [Finset.ssubset_iff_of_subset]
  · refine ⟨key, mem_unquiet_iff.2 ⟨hkey, hbefore⟩, fun hmem ↦ ?_⟩
    exact (mem_unquiet_iff.1 hmem).2 hafter
  · intro other hother
    obtain ⟨hmem, hnot⟩ := mem_unquiet_iff.1 hother
    exact mem_unquiet_iff.2 ⟨hmem, fun hquiet ↦ hnot (h other hquiet)⟩

namespace Station

/-- A station that has taken notice of everything: whoever has something to do is to be handed out. -/
structure Fed (keys : Finset ReconcileKey) (Inv : World → Prop)
    (Quiet : ReconcileKey → Store → Prop) (st : Station) : Prop where
  inv : Inv st.world
  cursor : st.cursor = st.world.store.log.size
  sound : st.queue.Sound
  idle : st.queue.inFlight = []
  pending : ∀ key ∈ st.queue.pending, key ∈ keys
  waiting : ∀ key ∈ keys, ¬Quiet key st.world.store → key ∈ st.queue.pending

theorem Fed.follows (h : st.Fed keys Inv Quiet) : st.Follows env now st := by
  have hle : st.world.store.log.size - st.cursor ≤ Controller.watchCapacity := by
    rw [h.cursor, Nat.sub_self]
    exact Nat.zero_le _
  have hundelivered : st.undelivered = [] := by
    rw [undelivered, h.cursor]
    simp
  have hfollows := follows_of_le env now hle
  rw [hundelivered, ← h.cursor] at hfollows
  exact hfollows

theorem Fed.of_pending (hinv : Inv st.world) (hcursor : st.cursor = st.world.store.log.size)
    (hsound : st.queue.Sound) (hidle : st.queue.inFlight = [])
    (hpending : ∀ key, key ∈ st.queue.pending ↔ key ∈ keys) :
    st.Fed keys Inv Quiet ∧ st.queue.pending.length = keys.card := by
  refine ⟨⟨hinv, hcursor, hsound, hidle, fun key ↦ (hpending key).1,
    fun key hkey _ ↦ (hpending key).2 hkey⟩, ?_⟩
  rw [← List.toFinset_card_of_nodup hsound.nodup]
  congr 1
  ext key
  rw [List.mem_toFinset, hpending]

theorem Fed.length_pending_le (h : st.Fed keys Inv Quiet) : st.queue.pending.length ≤ keys.card := by
  rw [← List.toFinset_card_of_nodup h.sound.nodup]
  exact Finset.card_le_card fun key hkey ↦ h.pending key (List.mem_toFinset.1 hkey)

/-- `st₁` has reconciled `key`, which was the first of those pending, and logged `news` by it, of which
no notice is taken yet. -/
structure Visited (keys : Finset ReconcileKey) (Inv : World → Prop)
    (Quiet : ReconcileKey → Store → Prop) (key : ReconcileKey) (news : List Event)
    (st st₁ : Station) : Prop where
  fed : st.Fed keys Inv Quiet
  due : st.queue.pending = key :: st₁.queue.pending
  sound : st₁.queue.Sound
  idle : st₁.queue.inFlight = []
  cursor : st₁.cursor = st.cursor
  visit : Visit Inv Quiet key st.world st₁.world
  wrote : st.world.store.Wrote news st₁.world.store
  only : ∀ e ∈ news, e.Only key
  nothing : Quiet key st.world.store → news = []

/-- What a round comes to in which `key` is reconciled, before (`st₁`) and after its writes were taken
notice of. -/
structure Round (keys : Finset ReconcileKey) (Inv : World → Prop)
    (Quiet : ReconcileKey → Store → Prop) (key : ReconcileKey) (st st₁ st' : Station) : Prop where
  fed : st'.Fed keys Inv Quiet
  quiet : Quiet key st'.world.store
  others : ∀ other, Quiet other st.world.store → Quiet other st'.world.store
  onward : st.queue.pending.length ≤ st'.queue.pending.length + 1
  idle : Quiet key st.world.store →
    st'.queue.pending.length + 1 = st.queue.pending.length ∧ st'.world.store = st.world.store
  close : st₁.world.store.writes ≤ st.world.store.writes + Controller.watchCapacity →
    st'.queue.pending.length ≤ st.queue.pending.length

namespace Visited

variable {news events : List Event} {w : World} {extra : List ReconcileKey}

theorem mem_keys (h : Visited keys Inv Quiet key news st st₁) : key ∈ keys :=
  h.fed.pending key (h.due ▸ List.mem_cons_self)

theorem undelivered_eq (h : Visited keys Inv Quiet key news st st₁) : st₁.undelivered = news := by
  rw [undelivered, h.cursor, h.fed.cursor]
  exact h.wrote.drop_log

theorem behind_eq (h : Visited keys Inv Quiet key news st st₁) :
    st₁.world.store.log.size - st₁.cursor = news.length := by
  rw [h.wrote.size_log, h.cursor, h.fed.cursor]
  exact Nat.add_sub_cancel_left ..

theorem eq_of_mem_keys (h : Visited keys Inv Quiet key news st st₁) (hevents : events ⊆ news)
    {claims : Claims} {other : ReconcileKey} (hother : other ∈ events.flatMap (·.keys claims)) :
    other = key := by
  obtain ⟨e, he, hother⟩ := List.mem_flatMap.1 hother
  exact h.only e (hevents he) claims other hother

theorem fed_of_queued (h : Visited keys Inv Quiet key news st st₁) (hinv : Inv w)
    (hstore : w.store = st₁.world.store) (hextra : ∀ key ∈ extra, key ∈ keys) :
    Fed keys Inv Quiet ⟨w, extra.foldl WorkQueue.add st₁.queue, st₁.world.store.log.size⟩ := by
  refine ⟨hinv, congrArg (·.log.size) hstore.symm, h.sound.foldl_add extra, ?_,
    fun other hother ↦ ?_, fun other hother hbusy ↦ ?_⟩
  · exact (WorkQueue.inFlight_foldl_add extra st₁.queue).trans h.idle
  · rcases (h.sound.mem_pending_foldl_add_iff h.idle).1 hother with hother | hother
    · exact hextra other hother
    · exact h.fed.pending other (h.due ▸ List.mem_cons_of_mem _ hother)
  · rw [hstore] at hbusy
    have hwaiting := h.fed.waiting other hother fun hquiet ↦ hbusy (h.visit.others other hquiet)
    rw [h.due] at hwaiting
    refine (h.sound.mem_pending_foldl_add_iff h.idle).2 (.inr ?_)
    rcases List.mem_cons.1 hwaiting with rfl | hwaiting
    · exact absurd h.visit.quiet hbusy
    · exact hwaiting

theorem length_pending_le (h : Visited keys Inv Quiet key news st st₁) (extra : List ReconcileKey) :
    st.queue.pending.length ≤ (extra.foldl WorkQueue.add st₁.queue).pending.length + 1 := by
  rw [h.due]
  refine Nat.succ_le_succ (List.subperm_of_subset h.sound.nodup fun other hother ↦ ?_).length_le
  exact (h.sound.mem_pending_foldl_add_iff h.idle).2 (.inr hother)

theorem exists_round_of_le (h : Visited keys Inv Quiet key news st st₁)
    (hlag : news.length ≤ Controller.watchCapacity) :
    ∃ st', st₁.Follows env now st' ∧ Round keys Inv Quiet key st st₁ st' := by
  have hfollows := follows_of_le env now (h.behind_eq.trans_le hlag)
  rw [h.undelivered_eq] at hfollows
  refine ⟨_, hfollows, ?_, h.visit.quiet, h.visit.others, h.length_pending_le _, fun hquiet ↦ ?_,
    fun _ ↦ ?_⟩
  · apply h.fed_of_queued h.visit.inv rfl
    intro other hother
    rw [h.eq_of_mem_keys (List.Subset.refl _) hother]
    exact h.mem_keys
  · obtain rfl := h.nothing hquiet
    refine ⟨?_, h.wrote.same rfl⟩
    rw [h.due]
    rfl
  · refine (List.subperm_of_subset (h.sound.foldl_add _).nodup fun other hother ↦ ?_).length_le
    rw [h.due]
    rcases (h.sound.mem_pending_foldl_add_iff h.idle).1 hother with hother | hother
    · rw [h.eq_of_mem_keys (List.Subset.refl _) hother]
      exact List.mem_cons_self
    · exact List.mem_cons_of_mem _ hother

theorem exists_round_of_lt (h : Visited keys Inv Quiet key news st st₁)
    (hsettles : Settles env now keys Inv Quiet) (hlag : Controller.watchCapacity < news.length) :
    ∃ st', st₁.Follows env now st' ∧ Round keys Inv Quiet key st st₁ st' := by
  obtain ⟨n, all, w, hresync, hinv, hstore, hall⟩ := hsettles.resync st₁ h.visit.inv
  have hfollows := follows_of_lt (hlag.trans_eq h.behind_eq.symm) hresync
  unfold told at hfollows
  dsimp only at hfollows
  rw [← List.foldl_append] at hfollows
  have hevents : st₁.world.store.log.toList.drop
      (st₁.world.store.log.size - Controller.watchCapacity) ⊆ news := by
    -- more was logged just now than may be missed, so what is left of the log is all of it new
    have hbehind := h.behind_eq
    rw [← h.undelivered_eq, undelivered]
    exact List.drop_subset_drop_left _ (by omega)
  refine ⟨_, hfollows, ?_⟩
  constructor
  case fed =>
    apply h.fed_of_queued hinv hstore
    intro other hother
    rcases List.mem_append.1 hother with hother | hother
    · exact (hall other).1 hother
    · rw [h.eq_of_mem_keys hevents hother]
      exact h.mem_keys
  case quiet =>
    dsimp only
    rw [hstore]
    exact h.visit.quiet
  case others =>
    intro other hother
    dsimp only
    rw [hstore]
    exact h.visit.others other hother
  case onward => exact h.length_pending_le _
  case idle =>
    intro hquiet
    rw [h.nothing hquiet] at hlag
    cases hlag
  case close =>
    intro hclose
    rw [h.wrote.writes] at hclose
    exact absurd hlag (Nat.not_lt.2 (Nat.le_of_add_le_add_left hclose))

end Visited

variable {rest : List ReconcileKey}

theorem Fed.exists_round (h : Settles env now keys Inv Quiet) (hfed : st.Fed keys Inv Quiet)
    (hpending : st.queue.pending = key :: rest) :
    ∃ st₁ st', st.exec (Controller.reconcileNext (.reliable env) now) = (.ok true, st₁) ∧
      st₁.cursor = st.cursor ∧ st₁.Follows env now st' ∧
      Round keys Inv Quiet key st st₁ st' := by
  have hkey : key ∈ keys := hfed.pending key (hpending ▸ List.mem_cons_self)
  obtain ⟨w, hwork, hvisit⟩ := h.visit key hkey st.world hfed.inv
  obtain ⟨queue, htake, hsound, hidle, rfl⟩ := hfed.sound.take_done hfed.idle hpending
  obtain ⟨news, hwrote, honly, hnothing⟩ := hvisit.wrote
  have hexec := exec_reconcileNext_of_ok htake hwork
  have hvisited : Visited keys Inv Quiet key news st
      { st with world := w, queue := queue.done key } :=
    ⟨hfed, hpending, hsound, hidle, rfl, hvisit, hwrote, honly, hnothing⟩
  obtain ⟨st', hfollows, hround⟩ :=
    (Nat.lt_or_ge Controller.watchCapacity news.length).elim
      (hvisited.exists_round_of_lt h) hvisited.exists_round_of_le
  exact ⟨_, st', hexec, rfl, hfollows, hround⟩

theorem take?_of_pending_nil (h : st.queue.pending = []) : st.queue.take? = none := by
  unfold WorkQueue.take?
  rw [h]
  split <;> rfl

theorem Fed.turn (h : Settles env now keys Inv Quiet) (hfed : st.Fed keys Inv Quiet)
    (hturn : st.Turn env now st') : st'.Fed keys Inv Quiet := by
  obtain ⟨st₁, hexec, hfollows⟩ := hturn
  cases hpending : st.queue.pending with
  | nil =>
    rw [exec_reconcileNext_of_none env now (take?_of_pending_nil hpending)] at hexec
    cases hexec
  | cons key rest =>
    obtain ⟨st₂, st₃, hexec', -, hfollows', hround⟩ := hfed.exists_round h hpending
    rw [hexec] at hexec'
    cases hexec'
    rw [hfollows.unique hfollows']
    exact hround.fed

theorem Fed.lagless (h : Settles env now keys Inv Quiet) (hfed : st.Fed keys Inv Quiet)
    (hsmall : ∀ key ∈ keys, ∀ w w', Inv w → (key.work now).exec env w = (.ok [], w') →
      w'.store.writes ≤ w.store.writes + Controller.watchCapacity) : st.Lagless env now := by
  intro st' st₁ hrun hexec
  have hfed' : st'.Fed keys Inv Quiet := by
    clear hexec
    induction hrun with
    | refl => exact hfed
    | tail _ hturn ih => exact ih.turn h hturn
  cases hpending : st'.queue.pending with
  | nil =>
    rw [exec_reconcileNext_of_none env now (take?_of_pending_nil hpending)] at hexec
    cases hexec
  | cons key rest =>
    have hkey : key ∈ keys := hfed'.pending key (hpending ▸ List.mem_cons_self)
    obtain ⟨w, hwork, -⟩ := h.visit key hkey st'.world hfed'.inv
    obtain ⟨queue, htake, -⟩ := hfed'.sound.take_done hfed'.idle hpending
    rw [exec_reconcileNext_of_ok htake hwork] at hexec
    cases hexec
    exact hsmall key hkey st'.world w hfed'.inv hwork

/-! ## The loop -/

theorem exec_with_cursor {α : Type} (act : ControllerM (StateM World) α) (st : Station) (c : Nat) :
    Station.exec act { st with cursor := c } =
      ((st.exec act).1, { (st.exec act).2 with cursor := c }) := rfl

/-- Settling is the same before and after taking notice of the log, which comes first in it. -/
theorem Follows.exec_settle (h : st.Follows env now st') (hagain : st'.Follows env now st')
    {most processed : Nat} {result : Except Error Nat} {rested : Station}
    (hsettle : st'.exec (Controller.settle (.reliable env) now most (some st'.cursor) processed) =
      (result, { rested with cursor := st'.cursor })) :
    st.exec (Controller.settle (.reliable env) now most (some st.cursor) processed) =
      (result, { rested with cursor := st.cursor }) := by
  obtain ⟨onward, honward⟩ : ∃ onward : Option Nat → ControllerM (StateM World) Nat, ∀ cursor,
      Controller.settle (.reliable env) now most cursor processed =
        Controller.follow (.reliable env) now cursor >>= onward := by
    cases most with
    | zero => exact ⟨_, fun _ ↦ rfl⟩
    | succ most => exact ⟨_, fun _ ↦ rfl⟩
  rw [honward, exec_bind_of_ok hagain] at hsettle
  rw [honward, exec_bind_of_ok h, exec_with_cursor]
  change st'.exec (onward (some st'.cursor)) = _ at hsettle
  rw [hsettle]

theorem Fed.exec_settle_of_rest (hfed : st.Fed keys Inv Quiet) (hpending : st.queue.pending = [])
    (most processed : Nat) :
    st.exec (Controller.settle (.reliable env) now most (some st.cursor) processed) =
      (.ok processed, st) := by
  have hfollows : st.Follows env now st := hfed.follows
  cases most with
  | zero =>
    rw [Controller.settle, exec_bind_of_ok hfollows]
    have hempty : st.queue.isEmpty = true := by rw [WorkQueue.isEmpty, hpending]; rfl
    rw [exec_bind_of_ok (exec_get st), if_pos hempty]
    rfl
  | succ most =>
    rw [Controller.settle, exec_bind_of_ok hfollows]
    rw [exec_bind_of_ok (exec_reconcileNext_of_none env now (take?_of_pending_nil hpending))]
    rfl

theorem Fed.exec_settle_zero (hfed : st.Fed keys Inv Quiet) (hpending : st.queue.pending ≠ [])
    (processed : Nat) :
    st.exec (Controller.settle (.reliable env) now 0 (some st.cursor) processed) =
      (.error (Controller.notSettled processed), st) := by
  have hfollows : st.Follows env now st := hfed.follows
  have hbusy : ¬st.queue.isEmpty := by
    rw [WorkQueue.isEmpty, List.isEmpty_iff]
    exact hpending
  rw [Controller.settle, exec_bind_of_ok hfollows]
  rw [exec_bind_of_ok (exec_get st), if_neg hbusy]
  rfl

theorem Fed.exec_settle_succ (hfed : st.Fed keys Inv Quiet)
    (hexec : st.exec (Controller.reconcileNext (.reliable env) now) = (.ok true, st₁))
    (hcursor : st₁.cursor = st.cursor) (hfollows : st₁.Follows env now st')
    (hfed' : st'.Fed keys Inv Quiet) {most processed : Nat} {result : Except Error Nat}
    {rested : Station}
    (hsettle : st'.exec (Controller.settle (.reliable env) now most (some st'.cursor)
      (processed + 1)) = (result, { rested with cursor := st'.cursor })) :
    st.exec (Controller.settle (.reliable env) now (most + 1) (some st.cursor) processed) =
      (result, { rested with cursor := st.cursor }) := by
  have hfollowed : st.Follows env now st := hfed.follows
  have honward := hfollows.exec_settle hfed'.follows hsettle
  rw [Controller.settle, exec_bind_of_ok hfollowed]
  rw [exec_bind_of_ok hexec, if_pos rfl, ← hcursor]
  exact honward

/-- How many reconciles may be left if each that has something to do adds `gain` keys. -/
noncomputable def left (keys : Finset ReconcileKey) (Quiet : ReconcileKey → Store → Prop)
    (gain : Nat) (st : Station) : Nat :=
  st.queue.pending.length + gain * (unquiet keys Quiet st.world.store).card

theorem Round.left_lt {gain : Nat} (h : Round keys Inv Quiet key st st₁ st')
    (hkey : key ∈ keys)
    (hgain : keys.card ≤ gain ∨ 0 < gain ∧
      st₁.world.store.writes ≤ st.world.store.writes + Controller.watchCapacity)
    (hpending : st.queue.pending ≠ []) :
    st'.left keys Quiet gain < st.left keys Quiet gain := by
  have hlength := List.length_pos_iff.2 hpending
  unfold left
  by_cases hquiet : Quiet key st.world.store
  · obtain ⟨hfewer, hsame⟩ := h.idle hquiet
    rw [hsame]
    omega
  · -- the queue may grow by `gain`, but `key` has nothing more to do and is not counted again
    have hcard := card_unquiet_lt h.others hkey hquiet h.quiet
    have hmul := Nat.mul_le_mul_left gain hcard
    rw [Nat.mul_succ] at hmul
    rcases hgain with hgain | ⟨hpos, hclose⟩
    · have hle := h.fed.length_pending_le
      omega
    · have hle := h.close hclose
      omega

/-- Settling comes to an end, after one reconcile at least for each key that is pending, and it fails
only where fewer reconciles are allowed than it takes. -/
theorem Fed.exec_settle (h : Settles env now keys Inv Quiet) {gain : Nat}
    (hfed : st.Fed keys Inv Quiet)
    (hgain : keys.card ≤ gain ∨ 0 < gain ∧ st.Lagless env now) :
    ∃ (p : Nat) (rested : Station), st.queue.pending.length ≤ p ∧ p ≤ st.left keys Quiet gain ∧
      rested.Fed keys Inv Quiet ∧ rested.queue.pending = [] ∧
      ((∀ key ∈ keys, Quiet key st.world.store) → rested.world.store = st.world.store) ∧
      (∀ most, p ≤ most → ∀ processed,
        st.exec (Controller.settle (.reliable env) now most (some st.cursor) processed) =
          (.ok (processed + p), { rested with cursor := st.cursor })) ∧
      ∀ most, most < p → ∀ processed, ∃ stopped : Station,
        st.exec (Controller.settle (.reliable env) now most (some st.cursor) processed) =
          (.error (Controller.notSettled (processed + most)), { stopped with cursor := st.cursor }) := by
  -- a round leaves less to do, even one after which everything is queued again
  induction hleft : st.left keys Quiet gain using Nat.strongRecOn generalizing st with
  | ind n ih =>
    subst hleft
    cases hpending : st.queue.pending with
    | nil =>
      exact ⟨0, st, Nat.le_refl 0, Nat.zero_le _, hfed, hpending, fun _ ↦ rfl,
        fun most _ processed ↦ hfed.exec_settle_of_rest hpending most processed,
        fun _ hmost ↦ absurd hmost (Nat.not_lt_zero _)⟩
    | cons key rest =>
      obtain ⟨st₁, st', hexec, hcursor, hfollows, hround⟩ := hfed.exists_round h hpending
      have hkey : key ∈ keys := hfed.pending key (hpending ▸ List.mem_cons_self)
      have hlength : st.queue.pending.length = rest.length + 1 := by rw [hpending, List.length_cons]
      have hgain₁ : keys.card ≤ gain ∨ 0 < gain ∧
          st₁.world.store.writes ≤ st.world.store.writes + Controller.watchCapacity :=
        hgain.imp_right fun ⟨hpos, hlag⟩ ↦ ⟨hpos, hlag st st₁ .refl hexec⟩
      have hlt := hround.left_lt hkey hgain₁ (hpending ▸ List.cons_ne_nil key rest)
      obtain ⟨p, rested, hlower, hupper, hrested, hempty, hsame, hsettle, hfails⟩ :=
        ih _ hlt hround.fed (hgain.imp_right fun ⟨hpos, hlag⟩ ↦
          ⟨hpos, hlag.turn ⟨st₁, hexec, hfollows⟩⟩) rfl
      refine ⟨p + 1, rested, ?_, Nat.lt_of_le_of_lt hupper hlt, hrested, hempty, fun hquiet ↦ ?_,
        fun most hmost processed ↦ ?_, fun most hmost processed ↦ ?_⟩
      · have honward := hround.onward
        rw [List.length_cons]
        omega
      · rw [hsame fun other hother ↦ hround.others other (hquiet other hother)]
        exact (hround.idle (hquiet key hkey)).2
      · obtain ⟨more, rfl⟩ : ∃ more, most = more + 1 := ⟨most - 1, by omega⟩
        rw [hfed.exec_settle_succ hexec hcursor hfollows hround.fed
          (hsettle more (by omega) (processed + 1))]
        congr 2
        omega
      · cases most with
        | zero => exact ⟨st, hfed.exec_settle_zero (hpending ▸ List.cons_ne_nil key rest) processed⟩
        | succ more =>
          obtain ⟨stopped, hstopped⟩ := hfails more (by omega) (processed + 1)
          refine ⟨stopped, ?_⟩
          rw [hfed.exec_settle_succ hexec hcursor hfollows hround.fed hstopped]
          congr 3
          omega

end Station

end Settles

end TenantAccess
