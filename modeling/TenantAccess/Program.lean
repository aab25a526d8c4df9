import TenantAccess.Access.Review
import TenantAccess.Claims
import TenantAccess.Object.Resource
import TenantAccess.Store.Basic

/-!
# Programs over the cluster

What a reconciler does is a `Program`: a tree of requests to the outside world, each of which is
carried out in one step.  Running it to the end, interleaving it with others, giving it up half way
and disturbing its requests are all ways to interpret the same tree.
-/

namespace TenantAccess

/-- One indivisible step on the outside world. -/
inductive Request where
  | get (ref : ObjectRef)
  | list (kind : Kind) (params : ListParams)
  | create (kind : Kind) (object : Json)
  | update (kind : Kind) (object : Json)
  | delete (ref : ObjectRef)
  | review (action : ReviewAction)
  /-- The claims published last. -/
  | claims
  | publish (tenants : List Tenant)

def Request.Reply : Request → Type
  | get _ | create .. | update .. => Except StoreError Json
  | list .. => Except StoreError (List Json)
  | delete _ => Except StoreError Unit
  | review _ => Except Error AccessSet
  | claims | publish _ => Claims

inductive Program (α : Type) : Type where
  | done (a : α)
  | ask (r : Request) (next : r.Reply → Program α)

namespace Program

variable {α β : Type}

def bind : Program α → (α → Program β) → Program β
  | done a, f => f a
  | ask r next, f => ask r fun reply ↦ bind (next reply) f

instance : Monad Program where
  pure := done
  bind := bind

def request (r : Request) : Program r.Reply := ask r done

/-- Carry out every request by `answer`. -/
def interpret {m : Type → Type} [Monad m] (answer : (r : Request) → m r.Reply) :
    Program α → m α
  | done a => Pure.pure a
  | ask r next => do interpret answer (next (← answer r))

end Program

structure World where
  store : Store := .empty
  claims : Claims := {}
  /-- Reviews asked so far. -/
  reviews : Nat := 0
deriving Inhabited

/-- What stays fixed while programs run. -/
structure Surroundings where
  ambient : Ambient
  reviewer : Reviewer

def World.onStore (f : Store → ρ × Store) (w : World) : ρ × World :=
  ((f w.store).1, { w with store := (f w.store).2 })

def Request.perform (env : Surroundings) (w : World) : (r : Request) → r.Reply × World
  | get ref => (w.store.get ref, w)
  | list kind params => (w.store.list kind params, w)
  | create kind object => w.onStore (Store.create env.ambient kind object)
  | update kind object => w.onStore (Store.update kind object)
  | delete ref => w.onStore (Store.delete ref)
  | review action => (env.reviewer action, { w with reviews := w.reviews + 1 })
  | claims => (w.claims, w)
  | publish tenants =>
    let published := w.claims.publish tenants
    (published, { w with claims := published })

/-- Run a program to its end, nothing else happening meanwhile. -/
def Program.run {α : Type} (env : Surroundings) (p : Program α) (w : World) : α × World :=
  (p.interpret (m := StateM World) fun r w ↦ r.perform env w).run w

/-- A program that may fail. -/
abbrev Task (α : Type) := ExceptT Error Program α

namespace Task

variable {α : Type} [Resource α]

def ask (r : Request) : Task r.Reply := ExceptT.lift (Program.request r)

def ofStore {β : Type} : Except StoreError β → Task β
  | .ok b => pure b
  | .error e => throw e.toError

/-- A document of the wrong shape for its kind. -/
def undecodable (kind : Kind) : Error := Error.serialization.withContext "kind" (.str kind.name)

def decode (now : Timestamp) (object : Json) : Task α :=
  match Resource.decode Json.strict now object with
  | some a => pure a
  | none => throw (undecodable (Resource.kind α))

def get (now : Timestamp) (key : ObjectKey) : Task α := do
  decode now (← ofStore (← ask (.get ⟨Resource.kind α, key⟩)))

/-- The object under `key`, if there is one. -/
def find? (now : Timestamp) (key : ObjectKey) : Task (Option α) := do
  match ← ask (.get ⟨Resource.kind α, key⟩) with
  | .ok object => some <$> decode now object
  | .error (.notFound _) => pure none
  | .error e => throw e.toError

def list (now : Timestamp) (params : ListParams) : Task (List α) := do
  (← ofStore (← ask (.list (Resource.kind α) params))).mapM (decode now)

def create (now : Timestamp) (a : α) : Task α := do
  decode now (← ofStore (← ask (.create (Resource.kind α) (Resource.encode a))))

def update (now : Timestamp) (a : α) : Task α := do
  decode now (← ofStore (← ask (.update (Resource.kind α) (Resource.encode a))))

def delete (kind : Kind) (key : ObjectKey) : Task Unit := do
  ofStore (← ask (.delete ⟨kind, key⟩))

end Task

end TenantAccess
