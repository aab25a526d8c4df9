import TenantAccess.Controller.Dispatcher
import TenantAccess.Store.Faults

/-!
# A running controller

Time stands still while anybody has something to do, and then moves to the next thing that is due.
A worker reconciles its key in one go, unless a call never comes back.
-/

namespace TenantAccess

namespace FaultyM

/-- The unreliable store as a place to work.  Subscribing fails while a fault disturbs it. -/
def backend (env : Surroundings) : Backend FaultyM where
  answer := FaultyM.answer env
  subscribe := do
    let s ← get
    if s.faults.any (·.call = .watch) then return none else return some s.world.store.log.size
  log := return (← get).world.store.log

end FaultyM

inductive RunEnd where
  | stopped
  | failed (e : Error)

structure ControllerRun where
  site : FaultyWorld
  dispatcher : Dispatcher
  /-- How far the changes of the store were followed. -/
  cursor : Option Nat := none
  /-- Keys whose workers have not run yet. -/
  ready : List ReconcileKey := []
  isStarted : Bool := false
  ended : Option RunEnd := none

namespace ControllerRun

variable (env : Surroundings)

/-- Work of the controller itself; `none` if it stops half way. -/
def within {α : Type} (act : ControllerM FaultyM α) (r : ControllerRun) :
    Option (Except Error α) × ControllerRun :=
  match act.run.run r.dispatcher.queue |>.run.run r.site with
  | (.ok (result, queue), site) =>
    (some result, { r with site, dispatcher := { r.dispatcher with queue } })
  | (.error _, site) => (none, { r with site })

/-- Hand out no more keys, let the workers that have started finish, and give up the others. -/
def finishUp (work : ControllerRun → ReconcileKey → ControllerRun) (r : ControllerRun) :
    ControllerRun :=
  let r := { r with dispatcher := r.dispatcher.shutDown, ended := some .stopped }
  let r := r.ready.foldl work { r with ready := [] }
  { r with dispatcher := r.dispatcher.running.foldl Dispatcher.abort r.dispatcher }

def start (r : ControllerRun) : ControllerRun :=
  let now := env.ambient.now
  let b := FaultyM.backend env
  let r := { r with isStarted := true }
  match r.within (do
    let cursor ← ExceptT.lift (StateT.lift b.subscribe)
    Controller.bootstrap b now r.dispatcher.config
    return cursor) with
  | (some (.ok cursor), r) => { r with cursor }
  | (some (.error e), r) => { r with ended := some (.failed e) }
  | (none, r) => { r with ended := some .stopped }

/-- The worker of `key` has its turn. -/
def work (r : ControllerRun) (key : ReconcileKey) : ControllerRun :=
  match ((key.work env.ambient.now).run.interpret (FaultyM.answer env)).run.run r.site with
  | (.ok result, site) =>
    { r with site, dispatcher := r.dispatcher.finish key (.ofResult result) }
  | (.error .hang, site) => { r with site }
  | (.error .panic, site) => { r with site, dispatcher := r.dispatcher.abort key }

/-- Follow the changes of the store, in the place `cursor`. -/
def catchUp (r : ControllerRun) (cursor : Nat) : ControllerRun :=
  let b := FaultyM.backend env
  let resync : ControllerM FaultyM Unit :=
    tryCatch (do let _ ← Controller.resync b env.ambient.now) fun _ ↦ pure ()
  match r.within (Controller.catchUp b resync cursor) with
  | (some (.ok cursor), r) => { r with cursor := some cursor }
  | (_, r) => { r with ended := some .stopped }

/-- The next thing that the controller does; `none` if it has to wait. -/
def turn? (r : ControllerRun) : Option ControllerRun :=
  if r.ended.isSome then none
  else if !r.isStarted then some (r.start env)
  else if r.dispatcher.asking.isSome then
    r.dispatcher.takeSlot?.map fun d ↦
      { r with dispatcher := d, ready := r.ready ++ d.running.drop r.dispatcher.running.length }
  else
    match r.cursor with
    | none => some (r.finishUp (work env))
    | some cursor =>
      if cursor < r.site.world.store.log.size then some (r.catchUp env cursor)
      else
        r.dispatcher.handOut?.map fun d ↦
          { r with dispatcher := d, ready := r.ready ++ d.running.drop r.dispatcher.running.length }

def workAll (r : ControllerRun) : ControllerRun := r.ready.foldl (work env) { r with ready := [] }

/-- Act until everybody has to wait.  A moment with more turns than `turns` is cut off. -/
def act : (turns : Nat) → ControllerRun → ControllerRun
  | 0, r => r
  | turns + 1, r =>
    match r.turn? env with
    | some r => act turns r
    | none => if r.ready.isEmpty then r else act turns (r.workAll env)

def turnsOfMoment : Nat := 100000

def settle (r : ControllerRun) : ControllerRun := r.act env turnsOfMoment

/-- Let time pass up to `limit`.  The clock moves with every round. -/
def passTo (limit : Nat) : (rounds : Nat) → ControllerRun → ControllerRun
  | 0, r => r
  | rounds + 1, r =>
    match r.dispatcher.agenda.nextTime? limit with
    | none => { r with dispatcher :=
        { r.dispatcher with agenda := r.dispatcher.agenda.moveTo limit } }
    | some time =>
      let (due, agenda) := r.dispatcher.agenda.take time
      let d := due.foldl Dispatcher.onDue { r.dispatcher with agenda }
      passTo limit rounds (settle env { r with dispatcher := d })

/-- Let `time` milliseconds pass. -/
def pass (r : ControllerRun) (time : Nat) : ControllerRun :=
  passTo env (r.dispatcher.agenda.now + time) (time + 1) (r.settle env)

def stop (r : ControllerRun) : ControllerRun :=
  let r := if r.isStarted then r else r.start env
  if r.ended.isSome then r else r.finishUp (work env)

end ControllerRun

end TenantAccess
