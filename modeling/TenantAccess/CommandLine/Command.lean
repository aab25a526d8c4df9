import TenantAccess.Access.Endpoint
import TenantAccess.CommandLine.Printing
import TenantAccess.Controller.Run
import TenantAccess.Manifest
import TenantAccess.Settings.Basic

/-!
# Commands

Each command reads a manifest into a store of its own and tells what becomes of it.
-/

namespace TenantAccess

inductive Command where
  /-- Print the roles and bindings that the manifest calls for. -/
  | plan (manifest : String)
  /-- Reconcile until nothing is left to do, but not more than `most` times. -/
  | reconcile (manifest : String) (most : Nat)
  /-- Run the controller for some time. -/
  | run (manifest : String)
  /-- Tell whether a config would be admitted. -/
  | validateConfig (manifest config : String)

inductive CommandFailure where
  | unreadable (path reason : String)
  | malformed (path : String)
  | unseeded (u : Manifest.Unseeded)
  | noConfig (name : String)
  | denied (name message : String)
  | failed (e : Error)

def CommandFailure.text : CommandFailure → String
  | unreadable path reason => "Failed to read " ++ path ++ ": " ++ reason
  | malformed path => "Failed to parse manifest " ++ path
  | unseeded u => "Failed to seed " ++ u.what ++ " " ++ u.key.text ++ ": " ++ u.cause.text
  | noConfig name => "Config '" ++ name ++ "' not found in manifest"
  | denied name message => "Config '" ++ name ++ "' would be denied: " ++ message
  | failed e => e.text

/-- What a command finds when it starts. -/
structure CommandContext where
  ambient : Ambient
  settings : Settings := {}
  format : OutputFormat := .table
  color : Bool := false
  /-- The text of a file, or why it cannot be had. -/
  read : String → Except String String

abbrev CommandM := ReaderT CommandContext (ExceptT CommandFailure (StateM Printed))

namespace Command

def print (f : (color : Bool) → Printed → Printed) : CommandM Unit := do
  let color := (← read).color
  modify (f color)

def load (path : String) : CommandM Manifest := do
  let context ← read
  match context.read path with
  | .error reason => throw (.unreadable path reason)
  | .ok text =>
    match Manifest.parse context.ambient.now text with
    | some m => return m
    | none => throw (.malformed path)

/-- Reviews are asked for at the endpoint in the settings, or else answered by the manifest. -/
def reviewer (m : Manifest) : CommandM Reviewer := do
  if (← read).settings.accessReview.endpoint.isNone then return m.grants.review
  if !m.accessReviews.isEmpty then
    print
      (Printed.warning · "access_review.endpoint is set, ignoring accessReviews in the manifest")
  return unreachable

def seeded (m : Manifest) : CommandM World := do
  let ambient := (← read).ambient
  match (m.seed ambient.now).run.run ⟨ambient, unreachable⟩ {} with
  | (.ok _, w) => return w
  | (.error u, _) => throw (.unseeded u)

def perform {α : Type} (reviewer : Reviewer) (t : Task α) (w : World) : CommandM (α × World) := do
  match t.run.run ⟨(← read).ambient, reviewer⟩ w with
  | (.ok a, w) => return (a, w)
  | (.error e, _) => throw (.failed e)

/-! ## Planning -/

structure PlannedRow where
  ns : String
  kind : Kind
  name : String
  owner : String
  contents : String
  gate : String

namespace PlannedRow

def role {s : Scope} (ns owner : String) (r : Role s) : PlannedRow where
  ns
  kind := s.roleKind
  name := r.metadata.name
  owner
  contents := joinOrDash (SortedSet.ofList (r.rules.flatMap (·.verbs))).keys
  gate :=
    let forbidden := forbiddenVerbs r.rules
    if forbidden.isEmpty then "ok" else "rejected (" ++ ", ".intercalate forbidden ++ ")"

def binding {s : Scope} (ns owner : String) (b : Binding s) : PlannedRow where
  ns
  kind := s.bindingKind
  name := b.metadata.name
  owner
  contents := joinOrDash (b.subjects.map Subject.text)
  gate := "ok"

def cells (r : PlannedRow) : List String :=
  [r.ns, r.kind.name, r.name, r.owner, r.contents, r.gate]

def encode (r : PlannedRow) : Json :=
  .obj [("namespace", .str r.ns), ("kind", .str r.kind.name), ("name", .str r.name),
    ("owner", .str r.owner), ("contents", .str r.contents), ("gate", .str r.gate)]

def table (rows : List PlannedRow) : Table :=
  ⟨["Namespace", "Kind", "Name", "Owner", "Verbs / Subjects", "Gate"], rows.map cells⟩

end PlannedRow

def planned (m : Manifest) (reviewed : ReviewedAccess) (ns : String) : List PlannedRow :=
  let tenants := m.tenantsIn ns
  let inventories := m.inventoriesIn ns
  tenants.flatMap (fun t ↦
    [.role ns t.metadata.name t.viewerRole,
      .binding ns t.metadata.name (t.viewerBinding (t.access inventories reviewed))]) ++
    inventories.flatMap fun i ↦
      [.role ns i.metadata.name i.viewerRole,
        .binding ns i.metadata.name (i.viewerBinding (i.access tenants))]

def plannedRows (m : Manifest) (reviewer : Reviewer) : CommandM (List PlannedRow) := do
  let rows ← m.claimedNamespaces.mapM fun ns ↦ do
    let (reviewed, _) ← perform reviewer (Pass.reviewed ns) {}
    return planned m reviewed ns
  return rows.flatten

def executePlan (manifest : String) : CommandM Unit := do
  let m ← load manifest
  let reviewer ← reviewer m
  let rows ← plannedRows m reviewer
  let format := (← read).format
  let unclaimed := m.unclaimedInventories.length
  if 0 < unclaimed ∧ format = .table then
    print (Printed.info · (toString unclaimed ++
      " inventories are outside every tenant namespace and get no RBAC objects"))
  print (Printed.list · format (PlannedRow.table rows) (rows.map PlannedRow.encode))

/-! ## Reconciling -/

/-- A stored object in a report. -/
structure ObjectRow where
  kind : Kind
  ns : String
  name : String
  detail : String

namespace ObjectRow

def of [Resource α] (detail : α → String) (a : α) : ObjectRow where
  kind := Resource.kind α
  ns := (Resource.ns? a).getD "-"
  name := Resource.name a
  detail := detail a

def verbs {s : Scope} (r : Role s) : String :=
  joinOrDash (r.rules.map fun rule ↦
    "|".intercalate rule.resources ++ ": " ++ "|".intercalate rule.verbs)

def subjects {s : Scope} (b : Binding s) : String := joinOrDash (b.subjects.map Subject.text)

def readiness (c : Config) : String :=
  match Condition.find? readyCondition c.conditions with
  | some c => c.type ++ "=" ++ c.status.name ++ " (" ++ c.reason ++ ")"
  | none => "-"

def limits (q : ResourceQuota) : String :=
  joinOrDash (q.hard.entries.map fun e ↦ e.1 ++ "=" ++ e.2)

def cells (r : ObjectRow) : List String := [r.kind.name, r.ns, r.name, r.detail]

def encode (r : ObjectRow) : Json :=
  .obj [("kind", .str r.kind.name), ("namespace", .str r.ns), ("name", .str r.name),
    ("detail", .str r.detail)]

def table (rows : List ObjectRow) : Table :=
  ⟨["Kind", "Namespace", "Name", "Detail"], rows.map cells⟩

/-- Everything that was derived, and the configs. -/
def collect (now : Timestamp) : Task (List ObjectRow) := do
  let clusterRoles ← Task.list (α := Role .cluster) now .all
  let clusterBindings ← Task.list (α := Binding .cluster) now .all
  let roles ← Task.list (α := Role .namespaced) now .all
  let bindings ← Task.list (α := Binding .namespaced) now .all
  let configs ← Task.list (α := Config) now .all
  let quotas ← Task.list (α := ResourceQuota) now .all
  return clusterRoles.map (of verbs) ++ clusterBindings.map (of subjects) ++
    roles.map (of verbs) ++ bindings.map (of subjects) ++ configs.map (of readiness) ++
    quotas.map (of limits)

end ObjectRow

/-- Reconcile a store until nothing is left to do; how many times, and what it comes to. -/
def settled (reviewer : Reviewer) (most : Nat) (w : World) : CommandM (Nat × World) := do
  let context ← read
  let settling := Controller.runUntilIdle (.reliable ⟨context.ambient, reviewer⟩)
    context.ambient.now context.settings.controllerConfig most
  match (settling.run.run {}).run w with
  | ((.ok n, _), settled) => return (n, settled)
  | ((.error e, _), _) => throw (.failed e)

def executeReconcile (manifest : String) (most : Nat) : CommandM Unit := do
  let m ← load manifest
  let w ← seeded m
  let reviewer ← reviewer m
  let (reconciles, settled) ← settled reviewer most w
  let context ← read
  let writes := settled.store.writes - w.store.writes
  let (rows, _) ← perform reviewer (ObjectRow.collect context.ambient.now) settled
  match context.format with
  | .table =>
    print (Printed.list · .table (ObjectRow.table rows) [])
    print (Printed.success · ("Settled after " ++ toString reconciles ++ " reconciles (" ++
      toString writes ++ " writes)"))
  | format =>
    print fun _ ↦ Printed.item format (.obj [("seeded", Json.nat m.size),
      ("reconciles", Json.nat reconciles), ("writes", Json.nat writes),
      ("objects", .arr (rows.map ObjectRow.encode))])

/-! ## Running -/

/-- The controller runs for `time` milliseconds and is then stopped. -/
def executeRun (manifest : String) (time : Nat) : CommandM Unit := do
  let m ← load manifest
  let w ← seeded m
  let reviewer ← reviewer m
  let context ← read
  let env : Surroundings := ⟨context.ambient, reviewer⟩
  if context.format = .table then
    print fun color p ↦
      ((((p.heading color "dbaas-authz controller").detail color "Manifest" manifest).detail color
        "Objects seeded" (toString m.size)).detail color "Workers"
        (toString context.settings.controller.maxConcurrentReconciles)).detail color
        "Install namespace" context.settings.operator.installNamespace |>.line ""
  let start : ControllerRun :=
    { site := { world := w }, dispatcher := .new context.settings.controllerConfig }
  let stopped := (start.pass env time).stop env
  if let some (.failed e) := stopped.ended then throw (.failed e)
  let stats := stopped.dispatcher.pool.stats
  match context.format with
  | .table =>
    print (Printed.success · ("Controller stopped: " ++ toString stats.succeeded ++
      " reconciles succeeded, " ++ toString stats.failed ++ " failed, " ++
      toString stopped.site.world.store.writes ++ " writes"))
  | format => print fun _ ↦ Printed.item format stats.encode

/-! ## Admission -/

def executeValidateConfig (manifest name : String) : CommandM Unit := do
  let m ← load manifest
  match m.configs.find? (·.metadata.name = name) with
  | none => throw (.noConfig name)
  | some candidate =>
    let existing := m.configs.filter fun c ↦
      c.metadata.ns? = candidate.metadata.ns? && c.metadata.name ≠ name
    let refusal := candidate.refusal? existing
    match (← read).format, refusal with
    | .table, none =>
      print (Printed.success · ("Config '" ++ name ++ "' would be admitted in namespace '" ++
        candidate.ns ++ "'"))
    | .table, some _ => pure ()
    | format, _ =>
      print fun _ ↦ Printed.item format (.obj ([("namespace", .str candidate.ns),
        ("config", .str name), ("allowed", .bool refusal.isNone)] ++
        Json.optionalMember "message" (fun e ↦ .str e.message) refusal))
    if let some e := refusal then throw (.denied name e.message)

/-- Carry out a command.  The controller runs for `time` milliseconds if it is to run. -/
def execute (time : Nat) : Command → CommandM Unit
  | plan manifest => executePlan manifest
  | reconcile manifest most => executeReconcile manifest most
  | run manifest => executeRun manifest time
  | validateConfig manifest config => executeValidateConfig manifest config

/-- What a command prints, and whether it succeeds.  A failure is printed last. -/
def outcome (context : CommandContext) (time : Nat) (c : Command) : Bool × Printed :=
  match ((c.execute time).run context).run.run {} with
  | (.ok _, printed) => (true, printed)
  | (.error failure, printed) => (false, printed.error context.color failure.text)

end Command

end TenantAccess
