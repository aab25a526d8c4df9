import TenantAccess.Controller.Basic
import TenantAccess.Schedule.Agenda
import TenantAccess.Schedule.Backoff
import TenantAccess.Schedule.WorkerPool

/-!
# Handing out work to a bounded number of workers

A key that is handed out waits for a slot and is then reconciled by one worker.  A key that fails,
comes too late or finds no slot is queued again after a delay.  Each function here is what happens
between two moments of waiting.
-/

namespace TenantAccess

/-- What a running controller has put down for later. -/
inductive Due where
  /-- Queue this key. -/
  | retry (key : ReconcileKey)
  /-- Stop waiting for a slot. -/
  | giveUp
deriving DecidableEq

structure Dispatcher where
  config : ControllerConfig
  queue : WorkQueue ReconcileKey := {}
  backoff : Backoff ReconcileKey
  /-- The controller itself is the only one to ask for slots. -/
  pool : WorkerPool Unit
  /-- A key that was handed out and waits for a slot. -/
  asking : Option ReconcileKey := none
  /-- Keys that hold a slot. -/
  running : List ReconcileKey := []
  agenda : Agenda Due := {}

namespace Dispatcher

def new (config : ControllerConfig) : Dispatcher where
  config := config
  backoff := { base := config.requeueBaseDelay, longest := config.requeueMaxDelay }
  pool := .ofSize config.maxConcurrentReconciles

def queueKey (d : Dispatcher) (key : ReconcileKey) : Dispatcher :=
  { d with queue := d.queue.add key }

/-- Queue a key after a delay. -/
def queueAfter (d : Dispatcher) (key : ReconcileKey) (delay : Duration) : Dispatcher :=
  if delay.nanoseconds = 0 then d.queueKey key
  else { d with agenda := d.agenda.plan delay.milliseconds (.retry key) }

/-- Queue a key after its own delay, which grows. -/
def backOff (d : Dispatcher) (key : ReconcileKey) : Dispatcher :=
  let (delay, backoff) := d.backoff.next key
  { d with backoff }.queueAfter key delay

def release (d : Dispatcher) (key : ReconcileKey) : Dispatcher :=
  { d with queue := d.queue.done key }

/-- No slot could be had for a key. -/
def refuse (d : Dispatcher) (key : ReconcileKey) : Dispatcher :=
  ({ d with asking := none }.release key).backOff key

def start (d : Dispatcher) (key : ReconcileKey) : Dispatcher :=
  { d with
    asking := none
    running := d.running ++ [key]
    agenda := d.agenda.erase .giveUp }

/-- Hand out the next key; `none` if there is none, or if the one before still waits for a slot. -/
def handOut? (d : Dispatcher) : Option Dispatcher :=
  if d.asking.isSome then none
  else
    d.queue.take?.map fun (key, queue) ↦
      match d.pool.acquire () with
      | (.granted, pool) => { d with queue, pool }.start key
      | (.closed, pool) => { d with queue, pool }.refuse key
      | (.waits, pool) =>
        if d.config.acquireTimeout.nanoseconds = 0 then
          { d with queue, pool := pool.timeOut () }.refuse key
        else
          { d with
            queue
            pool
            asking := some key
            agenda := d.agenda.plan d.config.acquireTimeout.milliseconds .giveUp }

/-- The key that waits takes up the slot that was set aside for it, if there is one. -/
def takeSlot? (d : Dispatcher) : Option Dispatcher :=
  match d.asking, d.pool.resume? () with
  | some key, some (.granted, pool) => some ({ d with pool }.start key)
  | some key, some (_, pool) => some ({ d with pool }.refuse key)
  | _, _ => none

/-- Something put down for later has come due. -/
def onDue (d : Dispatcher) : Due → Dispatcher
  | .retry key => d.queueKey key
  | .giveUp =>
    match d.asking with
    | some key => { d with pool := d.pool.timeOut () }.refuse key
    | none => d

def finish (d : Dispatcher) (key : ReconcileKey) (verdict : Verdict) : Dispatcher :=
  let d := verdict.keys.foldl queueKey { d with running := d.running.erase key }
  match verdict with
  | .done _ =>
    { d with backoff := d.backoff.reset key, pool := d.pool.leave .succeeded }.release key
  | .again =>
    let d := d.backOff key
    { d with pool := d.pool.leave .succeeded }.release key
  | .failed _ =>
    let d := d.backOff key
    { d with pool := d.pool.leave .failed }.release key

/-- A worker is gone without a result.  Nobody else gets its key. -/
def abort (d : Dispatcher) (key : ReconcileKey) : Dispatcher :=
  { d with running := d.running.erase key, pool := d.pool.leave .aborted }

/-- Hand out nothing more. -/
def shutDown (d : Dispatcher) : Dispatcher :=
  let d := match d.asking with
    | some key => { d with asking := none, pool := d.pool.cancel () }.release key
    | none => d
  { d with queue := d.queue.shutDown, pool := d.pool.close }

end Dispatcher

end TenantAccess
