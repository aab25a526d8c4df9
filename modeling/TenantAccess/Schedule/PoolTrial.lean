import TenantAccess.Json.Decode
import TenantAccess.Schedule.Agenda
import TenantAccess.Schedule.WorkerPool

/-!
# Reconcile slots over time

One caller acts step by step on a pool and holds slots under names, while other askers wait in the
background.  An asker who has waited for the time limit gives up.  A name is the last asker's who
took it; an earlier one keeps its place in line but drops the slot that it gets.
-/

namespace TenantAccess

inductive PoolStep where
  | acquire (name : String)
  | acquireBackground (name : String)
  | pollBackground (name : String)
  /-- Give back the slot held under a name. -/
  | leave (name : String) (outcome : Outcome)
  | sleep (time : Nat)
  | close

/-- A step is a record whose member `do` says what is done. -/
def PoolStep.decode (d : Dialect δ) (j : δ) : Option PoolStep := do
  let fields ← d.record [] j
  let name := Dialect.required fields "id" d.text
  match ← Dialect.required fields "do" d.text with
  | "acquire" => return acquire (← name)
  | "acquire_bg" => return acquireBackground (← name)
  | "poll_bg" => return pollBackground (← name)
  | "success" => return leave (← name) .succeeded
  | "failure" => return leave (← name) .failed
  | "drop" => return leave (← name) .aborted
  | "sleep" => return sleep (← Dialect.required fields "ms" d.count)
  | "close" => return close
  | _ => none

inductive PoolReply where
  | nothing
  | acquired
  | waiting
  | noPermit
  | failed (e : Error)

def PoolReply.encode (failure : Error → Json) : PoolReply → Json
  | nothing => .null
  | acquired => .str "acquired"
  | waiting => .str "waiting"
  | noPermit => .str "no permit"
  | failed e => failure e

/-- Askers are numbered; the caller is number 0. -/
structure PoolTrial where
  pool : WorkerPool Nat
  /-- How long an asker waits. -/
  limit : Duration
  agenda : Agenda Nat := {}
  /-- Names under which the caller holds a slot. -/
  held : List String := []
  /-- Askers in the background by name. -/
  names : List (String × Nat) := []
  /-- Askers in the background who were told something: a slot, or why not. -/
  told : List (Nat × Option Error) := []
  /-- The last number given to an asker. -/
  last : Nat := 0

namespace PoolTrial

def ofSize (n : Nat) (limit : Duration) : PoolTrial := { pool := .ofSize n, limit }

/-- Let the asker `n` know what came of its wish. -/
def tell (t : PoolTrial) (n : Nat) (e : Option Error) : PoolTrial :=
  let t := { t with agenda := t.agenda.erase n }
  if t.names.any (·.2 = n) then { t with told := t.told ++ [(n, e)] }
  else if e.isNone then { t with pool := t.pool.leave .aborted }
  else t

/-- Nobody looks after the asker `n` any more.  A slot that it was given is dropped. -/
def abandon (t : PoolTrial) (n : Nat) : PoolTrial :=
  let rest := t.told.filter (·.1 ≠ n)
  match t.told.lookup n with
  | some none => { t with told := rest, pool := t.pool.leave .aborted }
  | _ => { t with told := rest }

/-- One asker has a turn. -/
def resume (t : PoolTrial) (n : Nat) : PoolTrial :=
  match t.pool.resume? n with
  | some (.granted, pool) => { t with pool }.tell n none
  | some (_, pool) => { t with pool }.tell n (some .slotsClosed)
  | none => t

/-- At most `count` askers to whom something has happened have a turn. -/
def takeTurns : (count : Nat) → PoolTrial → PoolTrial
  | 0, t => t
  | count + 1, t =>
    match t.pool.assigned ++ t.pool.dismissed with
    | [] => t
    | n :: _ => takeTurns count (t.resume n)

/-- Everybody to whom something has happened has a turn, and whoever is next because of that. -/
def settle (t : PoolTrial) : PoolTrial :=
  takeTurns (t.pool.assigned.length + t.pool.dismissed.length + t.pool.waiting.length) t

/-- The asker `n` gives up. -/
def expire (t : PoolTrial) (n : Nat) : PoolTrial :=
  { t with pool := t.pool.timeOut n }.tell n (some (.noSlot t.limit))

/-- Let time pass up to `time`; whoever has waited long enough gives up. -/
def passTo (t : PoolTrial) (time : Nat) : PoolTrial :=
  let (due, agenda) := t.agenda.take time
  due.foldl expire { t with agenda }

/-- Take a slot for `name`; one that is held under this name is dropped. -/
def hold (t : PoolTrial) (name : String) : PoolTrial :=
  if name ∈ t.held then { t with pool := t.pool.leave .aborted }
  else { t with held := name :: t.held }

/-- The caller asks.  While it waits nothing is given back, so it waits for the time limit. -/
def acquire (t : PoolTrial) (name : String) : PoolReply × PoolTrial :=
  let t := t.settle
  match t.pool.acquire 0 with
  | (.granted, pool) => (.acquired, { t with pool }.hold name)
  | (.closed, pool) => (.failed .slotsClosed, { t with pool })
  | (.waits, pool) =>
    let t := { t with pool }.passTo (t.agenda.now + t.limit.milliseconds)
    (.failed (.noSlot t.limit), { t with pool := t.pool.timeOut 0 })

/-- The asker `n`, who is new, asks. -/
def ask (t : PoolTrial) (n : Nat) : PoolTrial :=
  match t.pool.acquire n with
  | (.granted, pool) => { t with pool }.tell n none
  | (.closed, pool) => { t with pool }.tell n (some .slotsClosed)
  | (.waits, pool) =>
    if t.limit.milliseconds = 0 then { t with pool }.expire n
    else { t with pool, agenda := t.agenda.plan t.limit.milliseconds n }

def acquireBackground (t : PoolTrial) (name : String) : PoolTrial :=
  let n := t.last + 1
  let earlier := t.names.lookup name
  let t := { t with last := n, names := (name, n) :: t.names.filter (·.1 ≠ name) }
  ((earlier.elim t t.abandon).settle.ask n).settle

def pollBackground (t : PoolTrial) (name : String) : PoolReply × PoolTrial :=
  let t := t.settle
  match t.names.lookup name with
  | none => (.nothing, t)
  | some n =>
    match t.told.lookup n with
    | none => (.waiting, t)
    | some told =>
      let t := { t with names := t.names.filter (·.1 ≠ name), told := t.told.filter (·.1 ≠ n) }
      match told with
      | none => (.acquired, t.hold name)
      | some e => (.failed e, t)

def leave (t : PoolTrial) (name : String) (outcome : Outcome) : PoolReply × PoolTrial :=
  if name ∈ t.held then
    (.nothing, { t with pool := t.pool.leave outcome, held := t.held.erase name })
  else (.noPermit, t)

def step (t : PoolTrial) : PoolStep → PoolReply × PoolTrial
  | .acquire name => t.acquire name
  | .acquireBackground name => (.nothing, t.acquireBackground name)
  | .pollBackground name => t.pollBackground name
  | .leave name outcome => t.leave name outcome
  | .sleep time =>
    let t := t.settle
    (.nothing, t.passTo (t.agenda.now + time))
  | .close => (.nothing, { t with pool := t.pool.close })

/-- What can be seen of the pool. -/
def encodeMembers (t : PoolTrial) : List (String × Json) :=
  [("stats", t.pool.stats.encode), ("available", Json.nat t.pool.available),
    ("max", Json.nat t.pool.stats.maxWorkers)]

def run (t : PoolTrial) : List PoolStep → List (PoolReply × PoolTrial)
  | [] => []
  | s :: rest => t.step s :: run (t.step s).2 rest

end PoolTrial

end TenantAccess
