import TenantAccess.Json.MergePatch
import TenantAccess.Schedule.PoolTrial
import TenantAccess.Schedule.QueueTrial
import TenantAccess.Main
import TenantAccess.Folder
import TenantAccess.Proofs.Controller.Departure
import TenantAccess.Proofs.Selection.Exclusive
import TenantAccess.Proofs.Selection.Race
import TenantAccess.Proofs.Access.Degraded
import TenantAccess.Proofs.Program.Alike
import TenantAccess.Proofs.Rbac.Isolation
import TenantAccess.Proofs.Rbac.Wanted
import TenantAccess.Proofs.Selection.Leader
import TenantAccess.Proofs.Controller.Settle
import TenantAccess.Proofs.Manifest.Seeded
import TenantAccess.Proofs.Controller.Upkeep
import TenantAccess.Proofs.Controller.Launch
import TenantAccess.Proofs.Controller.Settled
import TenantAccess.Proofs.Access.Order
import TenantAccess.Proofs.CommandLine.Planned
import TenantAccess.Proofs.Schedule.Serial
import TenantAccess.Proofs.Controller.Dispatch
import TenantAccess.Proofs.Program.Guarded
import TenantAccess.Proofs.Selection.Convergence
import TenantAccess.Proofs.Store.Cascade
import TenantAccess.Proofs.Store.Replay
import TenantAccess.Proofs.Store.Keeping
import TenantAccess.Proofs.Rbac.Gated
import TenantAccess.Proofs.Rbac.Idle
import TenantAccess.Proofs.Store.Untouched
import TenantAccess.Proofs.Controller.Edited
import TenantAccess.Proofs.Selection.Review
import TenantAccess.Proofs.Selection.Succession
import TenantAccess.Proofs.Document.Restamped
import TenantAccess.Proofs.Store.Mirror
import TenantAccess.Proofs.Program.Mirror
import TenantAccess.Proofs.Rbac.Mirror
import TenantAccess.Proofs.Selection.Mirror
import TenantAccess.Proofs.Controller.Mirror
import TenantAccess.Proofs.CommandLine.Reported
import TenantAccess.Proofs.Manifest.Planted
import TenantAccess.Proofs.Manifest.Plain
import TenantAccess.Proofs.CommandLine.Shuffled
import TenantAccess.Proofs.Rbac.Resumed
import TenantAccess.Proofs.Controller.Released
import TenantAccess.Proofs.Access.Sources
import TenantAccess.Proofs.Access.Rendered
import TenantAccess.Proofs.Program.Marshal
import TenantAccess.Proofs.Schedule.Wakeful
import TenantAccess.Proofs.Schedule.Accounts
import TenantAccess.Proofs.Schedule.Foremost
import TenantAccess.Proofs.Schedule.Delays
import TenantAccess.Proofs.Document.Conditions
