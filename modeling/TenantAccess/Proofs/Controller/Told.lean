import TenantAccess.Proofs.Program.Asks
import TenantAccess.Proofs.Store.Sweep

/-!
# What the log tells of the sources of access

Access in a namespace comes from tenants and inventories and is stored in bindings.  Work on anything
else than inventories and bindings may at most take some of them along, and the log tells of every
tenant that changes.
-/

namespace TenantAccess

namespace Store

variable {before middle after : Store} {news news' : List Event} {ns : String}

/-- The events `news` lead from `before` to `after` and tell of every tenant that changed on the
way.  A tenant that is new has the form in which it is written. -/
structure Told (before : Store) (news : List Event) (after : Store) : Prop where
  log : after.log.toList = before.log.toList ++ news
  lost : ∀ key object, before.objects.get? ⟨.tenant, key⟩ = some object →
    after.objects.get? ⟨.tenant, key⟩ ≠ some object →
    ∃ e ∈ news, e.kind = .tenant ∧ e.metadata.name = key.name
  gained : ∀ key object, after.objects.get? ⟨.tenant, key⟩ = some object →
    before.objects.get? ⟨.tenant, key⟩ ≠ some object →
    (∃ t : Tenant, object = Resource.encode t) ∧ ∃ e ∈ news, e.kind = .tenant ∧ e.object = object

/-- No inventory, and no binding in `ns`, is new or has changed. -/
structure Lessens (ns : String) (before after : Store) : Prop where
  inventory : ∀ key object, after.objects.get? ⟨.inventory, key⟩ = some object →
    before.objects.get? ⟨.inventory, key⟩ = some object
  binding : ∀ name object, after.objects.get? ⟨.roleBinding, ⟨some ns, name⟩⟩ = some object →
    before.objects.get? ⟨.roleBinding, ⟨some ns, name⟩⟩ = some object

theorem told_refl (s : Store) : Told s [] s where
  log := (List.append_nil _).symm
  lost _ _ h hne := absurd h hne
  gained _ _ h hne := absurd h hne

theorem lessens_refl (ns : String) (s : Store) : Lessens ns s s where
  inventory _ _ h := h
  binding _ _ h := h

theorem Told.trans (h : Told before news middle) (h' : Told middle news' after) :
    Told before (news ++ news') after where
  log := by rw [h'.log, h.log, List.append_assoc]
  lost key object hget hne := by
    by_cases hmiddle : middle.objects.get? ⟨.tenant, key⟩ = some object
    · obtain ⟨e, he, htells⟩ := h'.lost key object hmiddle hne
      exact ⟨e, List.mem_append_right _ he, htells⟩
    · obtain ⟨e, he, htells⟩ := h.lost key object hget hmiddle
      exact ⟨e, List.mem_append_left _ he, htells⟩
  gained key object hget hne := by
    by_cases hmiddle : middle.objects.get? ⟨.tenant, key⟩ = some object
    · obtain ⟨ht, e, he, htells⟩ := h.gained key object hmiddle hne
      exact ⟨ht, e, List.mem_append_left _ he, htells⟩
    · obtain ⟨ht, e, he, htells⟩ := h'.gained key object hget hmiddle
      exact ⟨ht, e, List.mem_append_right _ he, htells⟩

theorem Lessens.trans (h : Lessens ns before middle) (h' : Lessens ns middle after) :
    Lessens ns before after where
  inventory key object hget := h.inventory key object (h'.inventory key object hget)
  binding name object hget := h.binding name object (h'.binding name object hget)

theorem told_of_tenants_eq (hlog : after.log.toList = before.log.toList ++ news)
    (h : ∀ key, after.objects.get? ⟨.tenant, key⟩ = before.objects.get? ⟨.tenant, key⟩) :
    Told before news after where
  log := hlog
  lost key _ hget hne := absurd ((h key).trans hget) hne
  gained key _ hget hne := absurd ((h key).symm.trans hget) hne

theorem told_written (s : Store) (type : EventType) {kind : Kind} (m : ObjectMeta) {object : Json}
    (issued : Nat) (htenant : kind = .tenant → ∃ t : Tenant, object = Resource.encode t) :
    Told s [⟨type, kind, m, object⟩] (s.written type kind m object issued) where
  log := by simp
  lost key object' hget hne := by
    rw [get?_written] at hne
    split at hne
    · next href =>
      cases href
      exact ⟨_, List.mem_singleton_self _, rfl, rfl⟩
    · exact absurd hget hne
  gained key object' hget hne := by
    rw [get?_written] at hget
    split at hget
    · next href =>
      cases href
      cases hget
      exact ⟨htenant rfl, _, List.mem_singleton_self _, rfl, rfl⟩
    · exact absurd hget hne

theorem lessens_written (ns : String) (s : Store) (type : EventType) {kind : Kind}
    (m : ObjectMeta) (object : Json) (issued : Nat) (hinventory : kind ≠ .inventory)
    (hbinding : kind ≠ .roleBinding) :
    Lessens ns s (s.written type kind m object issued) where
  inventory key object' hget := by
    rwa [get?_written, if_neg fun href ↦ hinventory (congrArg ObjectRef.kind href).symm] at hget
  binding name object' hget := by
    rwa [get?_written, if_neg fun href ↦ hbinding (congrArg ObjectRef.kind href).symm] at hget

theorem Swept.told {work : List ObjectRef} (h : Swept before work after) :
    ∃ news, Told before news after := by
  obtain ⟨told, hlog, -, hall⟩ := h.log_eq
  refine ⟨told, ⟨by simp [hlog], fun key object hget hne ↦ ?_, fun key object hget hne ↦ ?_⟩⟩
  · have hnone : after.objects.get? ⟨.tenant, key⟩ = none := by
      rcases h.get?_eq ⟨.tenant, key⟩ with heq | hnone
      · exact absurd (heq.trans hget) hne
      · exact hnone
    obtain ⟨e, he, href⟩ := hall _ object hget hnone
    exact ⟨e, he, congrArg ObjectRef.kind href,
      congrArg (fun ref : ObjectRef ↦ ref.key.name) href⟩
  · exact absurd (h.kept _ _ hget) hne

theorem Swept.lessens {work : List ObjectRef} (h : Swept before work after) (ns : String) :
    Lessens ns before after where
  inventory _ _ := h.kept _ _
  binding _ _ := h.kept _ _

end Store

/-- A request that writes neither inventories nor bindings and publishes no claims.  Tenants are
written in the form of their type. -/
def Request.Spares : Request → Prop
  | .create kind object | .update kind object =>
    kind ≠ .inventory ∧ kind ≠ .roleBinding ∧
      (kind = .tenant → ∃ t : Tenant, object = Resource.encode t)
  | .publish _ => False
  | _ => True

theorem Config.Touches.spares {r : Request} (h : Config.Touches r) : r.Spares := by
  cases r with
  | create kind object => rcases h with rfl | rfl <;> exact ⟨by decide, by decide, nofun⟩
  | update kind object => rcases h with rfl | rfl <;> exact ⟨by decide, by decide, nofun⟩
  | publish tenants => exact h
  | _ => trivial

def World.Spared (w w' : World) : Prop :=
  w.store.Coherent → w'.store.Coherent ∧ w'.claims = w.claims ∧
    (∃ news, w.store.Told news w'.store) ∧ ∀ ns, w.store.Lessens ns w'.store

namespace World

theorem spared_refl (w : World) : w.Spared w :=
  fun h ↦ ⟨h, rfl, ⟨[], Store.told_refl _⟩, fun ns ↦ Store.lessens_refl ns _⟩

theorem Spared.trans {w w' w'' : World} (h : w.Spared w') (h' : w'.Spared w'') :
    w.Spared w'' := by
  intro hcoherent
  obtain ⟨hcoherent', hclaims, ⟨news, htold⟩, hlessens⟩ := h hcoherent
  obtain ⟨hcoherent'', hclaims', ⟨news', htold'⟩, hlessens'⟩ := h' hcoherent'
  exact ⟨hcoherent'', hclaims'.trans hclaims, ⟨_, htold.trans htold'⟩,
    fun ns ↦ (hlessens ns).trans (hlessens' ns)⟩

theorem spared_perform (env : Surroundings) {r : Request} (w : World) (h : r.Spares) :
    w.Spared (r.perform env w).2 := by
  intro hcoherent
  have hsame (w' : World) (hstore : w'.store = w.store) (hclaims : w'.claims = w.claims) :
      w'.store.Coherent ∧ w'.claims = w.claims ∧ (∃ news, w.store.Told news w'.store) ∧
        ∀ ns, w.store.Lessens ns w'.store := by
    rw [hstore]
    exact ⟨hcoherent, hclaims, ⟨[], Store.told_refl _⟩, fun ns ↦ Store.lessens_refl ns _⟩
  have hwritten {kind : Kind} {object : Json} {m : ObjectMeta}
      (h : kind = .tenant → ∃ t : Tenant, object = Resource.encode t) (hkind : kind = .tenant) :
      ∃ t : Tenant, Store.withMeta object m = Resource.encode t := by
    obtain ⟨t, rfl⟩ := h hkind
    exact ⟨_, Store.withMeta_encode t m⟩
  cases r with
  | create kind object =>
    have hafter := Store.coherent_create hcoherent env.ambient kind object
    rcases Store.create_cases env.ambient kind object w.store with ⟨e, heq⟩ | ⟨m, -, -, heq⟩
    · exact hsame _ (congrArg Prod.snd heq) rfl
    · simp only [Request.perform, World.onStore, heq] at hafter ⊢
      exact ⟨hafter, trivial, ⟨_, Store.told_written _ _ _ _ (hwritten h.2.2)⟩,
        fun ns ↦ Store.lessens_written _ _ _ _ _ _ h.1 h.2.1⟩
  | update kind object =>
    have hafter := Store.coherent_update hcoherent kind object
    rcases Store.update_cases kind object w.store with
      ⟨e, heq⟩ | ⟨m, current, c, -, -, -, -, heq⟩
    · exact hsame _ (congrArg Prod.snd heq) rfl
    · simp only [Request.perform, World.onStore, heq] at hafter ⊢
      exact ⟨hafter, trivial, ⟨_, Store.told_written _ _ _ _ (hwritten h.2.2)⟩,
        fun ns ↦ Store.lessens_written _ _ _ _ _ _ h.1 h.2.1⟩
  | delete ref =>
    rcases Store.delete_spec hcoherent ref with ⟨-, heq⟩ | ⟨after, heq, hswept⟩
    · exact hsame _ (congrArg Prod.snd heq) rfl
    · simp only [Request.perform, World.onStore, heq]
      exact ⟨hswept.coherent hcoherent, trivial, hswept.told, hswept.lessens⟩
  | publish tenants => exact absurd h id
  | get | list | review | claims => exact hsame _ rfl rfl

end World

theorem Config.spared_reconcile (env : Surroundings) (now : Timestamp) (key : ObjectKey)
    (w : World) : w.Spared ((Config.reconcile now key).exec env w).2 :=
  Program.Asks.run World.spared_refl World.Spared.trans
    (fun _ w' hr ↦ World.spared_perform env w' (Config.Touches.spares hr))
    (Config.asks_reconcile now key) w

end TenantAccess
