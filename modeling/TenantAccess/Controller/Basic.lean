import TenantAccess.Pass
import TenantAccess.Schedule.Key
import TenantAccess.Schedule.WorkQueue
import TenantAccess.Selection.Admission
import TenantAccess.Selection.Selector
import TenantAccess.Time.Duration

/-!
# Reconciling until nothing is left to do

The controller turns changes of the store into keys of work and reconciles them.  Its own writes
come back to it as changes, so once the queue is empty the store is settled.
-/

namespace TenantAccess

structure Backend (m : Type → Type) where
  answer : (r : Request) → m r.Reply
  /-- The place in the log from which a new subscriber follows the changes; `none` if it gets
  none. -/
  subscribe : m (Option Nat)
  log : m (Array Event)

/-- A store that is always there, with nobody else working on it. -/
def Backend.reliable (env : Surroundings) : Backend (StateM World) where
  answer r := fun w ↦ r.perform env w
  subscribe := return some (← get).store.log.size
  log := return (← get).store.log

structure ControllerConfig where
  maxConcurrentReconciles : Nat
  requeueBaseDelay : Duration
  requeueMaxDelay : Duration
  acquireTimeout : Duration
  shutdownGrace : Duration
  installNamespace : String
  createDefaultConfig : Bool

namespace ReconcileKey

/-- Do the work that a key stands for.  The result is the other namespaces that were released. -/
def work (now : Timestamp) : ReconcileKey → Task (List String)
  | authz ns => do return (← Pass.run now ns).released.filter (· ≠ ns)
  | config ns name => do
    let _ ← Config.reconcile now (.namespaced ns name)
    return []

end ReconcileKey

inductive Verdict where
  | done (released : List String)
  /-- Somebody else wrote first: try again. -/
  | again
  | failed (e : Error)

namespace Verdict

/-- A write that came too late is no failure. -/
def isStaleWrite (e : Error) : Bool := e.isConflict || e.code = .objectAlreadyExists

def ofResult : Except Error (List String) → Verdict
  | .ok released => done released
  | .error e => if isStaleWrite e then again else failed e

/-- The keys that a reconcile calls for beyond its own. -/
def keys : Verdict → List ReconcileKey
  | done released => released.map .authz
  | _ => []

end Verdict

/-- Work of the controller, which has a queue and may fail. -/
abbrev ControllerM (m : Type → Type) := ExceptT Error (StateT (WorkQueue ReconcileKey) m)

namespace Controller

variable {m : Type → Type} [Monad m]

/-- How many changes a subscriber may be behind without losing any. -/
def watchCapacity : Nat := 1024

def enqueue (keys : List ReconcileKey) : ControllerM m Unit :=
  modify fun q ↦ keys.foldl WorkQueue.add q

def ask (b : Backend m) (r : Request) : ControllerM m r.Reply :=
  ExceptT.lift (StateT.lift (b.answer r))

def perform {α : Type} (b : Backend m) (t : Task α) : ControllerM m α :=
  ExceptT.mk (StateT.lift (t.run.interpret b.answer))

/-- Reconcile one key, and queue what else that calls for. -/
def attempt (b : Backend m) (now : Timestamp) (key : ReconcileKey) : ControllerM m Verdict := do
  let verdict := Verdict.ofResult
    (← ExceptT.lift (StateT.lift ((key.work now).run.interpret b.answer)))
  enqueue verdict.keys
  return verdict

/-- Queue the work that changes call for, as seen from the claims published last. -/
def handle (b : Backend m) (events : List Event) : ControllerM m Unit := do
  let claims ← ask b .claims
  enqueue (events.flatMap (·.keys claims))

/-- The namespaces in which a tenant's claim or an inventory may call for work. -/
def authzNamespaces (claims : Claims) (inventories : List Inventory) : List String :=
  (SortedSet.ofList (claims.namespaces.keys ++
    inventories.filterMap (·.metadata.ns?))).keys

/-- Queue everything there is to do; the result is the number of keys. -/
def resync (b : Backend m) (now : Timestamp) : ControllerM m Nat := do
  let (claims, inventories) ← perform b do
    let (claims, _) ← Pass.refresh now
    return (claims, ← Task.list (α := Inventory) now .all)
  let namespaces := authzNamespaces claims inventories
  enqueue (namespaces.map .authz)
  let configs ← perform b (Task.list (α := Config) now .all)
  let keys := configs.filterMap fun c ↦
    c.metadata.ns?.map (ReconcileKey.config · c.metadata.name)
  enqueue keys
  return namespaces.length + keys.length

def bootstrap (b : Backend m) (now : Timestamp) (config : ControllerConfig) :
    ControllerM m Unit := do
  if config.createDefaultConfig then
    let _ ← perform b (Config.ensureDefault now config.installNamespace)
  let _ ← resync b now

/-- Handle every change since `cursor`.  A subscriber who is too far behind has lost some, and
looks at everything instead (`onLoss`). -/
def catchUp (b : Backend m) (onLoss : ControllerM m Unit) (cursor : Nat) : ControllerM m Nat := do
  let log ← ExceptT.lift (StateT.lift b.log)
  let start ←
    if watchCapacity < log.size - cursor then do
      onLoss
      pure (log.size - watchCapacity)
    else pure cursor
  handle b (log.extract start log.size).toList
  return log.size

/-- `catchUp` for a subscriber, if there is one. -/
def follow (b : Backend m) (now : Timestamp) : Option Nat → ControllerM m (Option Nat)
  | none => return none
  | some cursor => some <$> catchUp b (do let _ ← resync b now) cursor

def notSettled (processed : Nat) : Error :=
  .internalError ("store did not settle after " ++ toString processed ++ " reconciles")

/-- Reconcile the next key, and tell whether there was one. -/
def reconcileNext (b : Backend m) (now : Timestamp) : ControllerM m Bool := do
  match (← get).take? with
  | none => return false
  | some (key, q) =>
    set q
    let verdict ← attempt b now key
    modify (WorkQueue.done · key)
    match verdict with
    | .done _ => return true
    | .again =>
      enqueue [key]
      return true
    | .failed e => throw e

/-- Reconcile until no key is pending, but not more than `more` further keys.  The result is the
number of keys reconciled. -/
def settle (b : Backend m) (now : Timestamp) :
    (more : Nat) → (cursor : Option Nat) → (processed : Nat) → ControllerM m Nat
  | 0, cursor, processed => do
    let _ ← follow b now cursor
    if (← get).isEmpty then return processed
    throw (notSettled processed)
  | more + 1, cursor, processed => do
    let cursor ← follow b now cursor
    if ← reconcileNext b now then settle b now more cursor (processed + 1)
    else return processed

/-- Bring the store to rest with at most `most` reconciles. -/
def runUntilIdle (b : Backend m) (now : Timestamp) (config : ControllerConfig) (most : Nat) :
    ControllerM m Nat := do
  let cursor ← ExceptT.lift (StateT.lift b.subscribe)
  bootstrap b now config
  settle b now most cursor 0

end Controller

end TenantAccess
