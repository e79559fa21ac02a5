import Formicary.Verification.Approval.Breaches
import Formicary.Verification.Approval.Decision
import Formicary.Verification.Approval.NamedTask
import Formicary.Verification.Approval.Pinned
import Formicary.Verification.Approval.Status
import Formicary.Verification.Artifacts.Deletion
import Formicary.Verification.Artifacts.Inputs
import Formicary.Verification.Async
import Formicary.Verification.Definition.Atomicity
import Formicary.Verification.Definition.Graph
import Formicary.Verification.Definition.Plugins
import Formicary.Verification.Definition.Targets
import Formicary.Verification.Execution.ErrorCodes
import Formicary.Verification.Execution.TaskRows
import Formicary.Verification.Forking.Chains
import Formicary.Verification.Forking.Waiting
import Formicary.Verification.Lifecycle.Cascade
import Formicary.Verification.Lifecycle.Finished
import Formicary.Verification.Lifecycle.HardRestart
import Formicary.Verification.Lifecycle.Restarts
import Formicary.Verification.Lifecycle.Stranded
import Formicary.Verification.Lifecycle.UserKey
import Formicary.Verification.Queen.Reservations
import Formicary.Verification.Queue.Connections
import Formicary.Verification.Queue.Delivery
import Formicary.Verification.Queue.Offline
import Formicary.Verification.Queue.Redelivery
import Formicary.Verification.Queue.Subscription
import Formicary.Verification.Queue.Unsubscribing
import Formicary.Verification.Resource.Containers
import Formicary.Verification.Resource.FanOut
import Formicary.Verification.Resource.Quota
import Formicary.Verification.Resource.Reserving
import Formicary.Verification.Retention.Completeness
import Formicary.Verification.Stats.Concurrency
import Formicary.Verification.Supervisor.Attempts
import Formicary.Verification.Supervisor.Cancellation
import Formicary.Verification.Supervisor.Pause
import Formicary.Verification.Supervisor.TaskRetries
import Formicary.Verification.Tasklet.Entries
import Formicary.Verification.Tasklet.Replies
import Formicary.Verification.Tenant.RoleText
import Formicary.Verification.Tenant.Scoping
import Formicary.Verification.Tenant.Submission
import Formicary.Verification.Tenant.Subscriptions
import Formicary.Verification.Trace
import Formicary.Verification.Trigger.Backfill
import Formicary.Verification.Trigger.Leader
import Formicary.Verification.Trigger.RateLimit
import Formicary.Verification.Utils
