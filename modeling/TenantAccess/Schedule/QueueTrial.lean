import TenantAccess.Json.Decode
import TenantAccess.Schedule.Agenda
import TenantAccess.Schedule.WaitingQueue

/-!
# A work queue over time

One caller acts step by step on a queue, while delayed keys come due and other takers wait in the
background.  Takers in the background run only when the caller waits or looks after them.
-/

namespace TenantAccess

inductive QueueStep where
  | add (key : String)
  | addAfter (key : String) (delay : Nat)
  /-- One attempt to take a key. -/
  | get
  /-- Take a key, waiting at most `limit` milliseconds for it. -/
  | wait (limit : Nat)
  | getBackground (name : String)
  | pollBackground (name : String)
  | done (key : String)
  | sleep (time : Nat)
  | shutDown
  | isInFlight (key : String)

/-- A step is a record whose member `do` says what is done. -/
def QueueStep.decode (d : Dialect δ) (j : δ) : Option QueueStep := do
  let fields ← d.record [] j
  let key := Dialect.required fields "key" d.text
  let time := Dialect.required fields "ms" d.count
  match ← Dialect.required fields "do" d.text with
  | "add" => return add (← key)
  | "add_after" => return addAfter (← key) (← time)
  | "get" => return get
  | "wait" => return wait (← time)
  | "get_bg" => return getBackground (← key)
  | "poll_bg" => return pollBackground (← key)
  | "done" => return done (← key)
  | "sleep" => return sleep (← time)
  | "shutdown" => return shutDown
  | "processing" => return isInFlight (← key)
  | _ => none

inductive QueueReply where
  | nothing
  | key (k : String)
  | pending
  | timeout
  | shutDown
  | flag (b : Bool)

namespace QueueReply

def encode : QueueReply → Json
  | nothing => .null
  | key k => .str k
  | pending => .obj [("pending", .bool true)]
  | timeout => .obj [("timeout", .bool true)]
  | shutDown => .obj [("shutdown", .bool true)]
  | flag b => .bool b

def ofAnswer : WaitingQueue.Answer String → QueueReply
  | .key k => key k
  | .waits => pending
  | .shutDown => shutDown

end QueueReply

/-- Takers are numbered; the caller is number 0. -/
structure QueueTrial where
  queue : WaitingQueue String Nat := {}
  agenda : Agenda String := {}
  /-- Takers in the background by name. -/
  names : List (String × Nat) := []
  answers : List (Nat × WaitingQueue.Answer String) := []
  /-- The last number given to a taker. -/
  last : Nat := 0

namespace QueueTrial

def caller : Nat := 0

/-- Everybody woken has a turn. -/
def settle (t : QueueTrial) : QueueTrial :=
  let (answers, queue) := t.queue.settle
  { t with queue, answers := t.answers ++ answers }

/-- Add everything that is due at `time`, then let those run who were woken. -/
def fire (t : QueueTrial) (time : Nat) : QueueTrial :=
  let (due, agenda) := t.agenda.take time
  settle { t with agenda, queue := due.foldl WaitingQueue.add t.queue }

/-- Let time pass up to `limit`, or until the caller has an answer. -/
def pass (limit : Nat) (t : QueueTrial) : QueueTrial :=
  if t.answers.any (·.1 = caller) then t
  else
    match _h : t.agenda.nextTime? limit with
    | none => { t with agenda := t.agenda.moveTo limit }
    | some time => pass limit (t.fire time)
termination_by t.agenda.entries.length
decreasing_by exact Agenda.length_take_lt _h

/-- The answer to the taker numbered `n`, which is then forgotten. -/
def collect (t : QueueTrial) (n : Nat) : Option (WaitingQueue.Answer String) × QueueTrial :=
  (t.answers.lookup n, { t with answers := t.answers.filter (·.1 ≠ n) })

def wait (t : QueueTrial) (limit : Nat) : QueueReply × QueueTrial :=
  let t := t.settle
  match t.queue.look caller with
  | (.waits, queue) =>
    let passed := pass (t.agenda.now + limit) { t with queue }
    match passed.collect caller with
    | (some answer, t) => (.ofAnswer answer, t)
    | (none, t) => (.timeout, { t with queue := t.queue.cancel caller })
  | (answer, queue) => (.ofAnswer answer, { t with queue })

def get (t : QueueTrial) : QueueReply × QueueTrial :=
  match t.queue.look caller with
  | (.waits, queue) => (.pending, { t with queue := queue.cancel caller })
  | (answer, queue) => (.ofAnswer answer, { t with queue })

def getBackground (t : QueueTrial) (name : String) : QueueTrial :=
  let t := t.settle
  let n := t.last + 1
  let (answer, queue) := t.queue.look n
  { t with
    queue
    last := n
    names := (name, n) :: t.names.filter (·.1 ≠ name)
    answers := if answer = .waits then t.answers else t.answers ++ [(n, answer)] }

def pollBackground (t : QueueTrial) (name : String) : QueueReply × QueueTrial :=
  let t := t.settle
  match t.names.lookup name with
  | none => (.nothing, t)
  | some n =>
    match t.collect n with
    | (none, t) => (.pending, t)
    | (some answer, t) =>
      (match answer with
        | .key k => .key k
        | _ => .nothing,
        { t with names := t.names.filter (·.1 ≠ name) })

def addAfter (t : QueueTrial) (key : String) (delay : Nat) : QueueTrial :=
  if delay = 0 then { t with queue := t.queue.add key }
  else { t with agenda := t.agenda.plan delay key }

def step (t : QueueTrial) : QueueStep → QueueReply × QueueTrial
  | .add key => (.nothing, { t with queue := t.queue.add key })
  | .addAfter key delay => (.nothing, t.addAfter key delay)
  | .get => t.get
  | .wait limit => t.wait limit
  | .getBackground name => (.nothing, t.getBackground name)
  | .pollBackground name => t.pollBackground name
  | .done key => (.nothing, { t with queue := t.queue.done key })
  | .sleep time => (.nothing, (pass (t.agenda.now + time) t.settle).settle)
  | .shutDown => (.nothing, { t with queue := t.queue.shutDown })
  | .isInFlight key => (.flag (t.queue.queue.isInFlight key), t)

/-- What can be seen of the queue after a step. -/
def encodeStep (reply : QueueReply) (t : QueueTrial) : Json :=
  let q := t.queue.queue
  .obj [("r", reply.encode), ("len", Json.nat q.length), ("empty", .bool q.isEmpty),
    ("idle", .bool q.isIdle), ("down", .bool q.isDown)]

def run (t : QueueTrial) : List QueueStep → List Json
  | [] => []
  | s :: rest =>
    let (reply, t) := t.step s
    encodeStep reply t :: run t rest

end QueueTrial

end TenantAccess
