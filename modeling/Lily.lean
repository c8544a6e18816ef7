import Lily.Http.Route.Reverse
import Lily.Queue.Telemetry.Evidence
import Lily.Queue.Amqp.Headroom
import Lily.Queue.Amqp.RetryPolicy
import Lily.Queue.Topology.Isolation
import Lily.Queue.Outbox.Safety
import Lily.Queue.Inbox.MongodbLease
import Lily.Queue.Inbox.PostgresqlSafety
import Lily.Queue.Outbox.SupervisorSafety
import Lily.Queue.Inbox.TransactionTracker
import Lily.Queue.Termination
import Lily.Queue.Telemetry.Reconciled
import Lily.Injection.Capture
import Lily.Injection.Scope.Resolution
import Lily.Websocket.Consistency
import Lily.Websocket.BackplaneDelivery
import Lily.Websocket.DedupeWindow
import Lily.Websocket.ShutdownBudget
import Lily.Websocket.GroupsSafety
import Lily.Websocket.BackplaneSafety
import Lily.WebsocketClient.Supervisor
import Lily.Shutdown.Initiation
import Lily.HttpClient.AdmissionSafety
import Lily.Csrf.SynchronizerSafety
import Lily.Redis.Cache
import Lily.Http.OpenApi.References
import Lily.Http.ResponseStream
import Lily.Http.RequestLifecycle
import Lily.HttpClient.MultipartAgreement
import Lily.Mongodb.MigrationHistory
import Lily.WebCore.EntityTag
import Lily.WebCore.RequestBody
import Lily.WebCore.TransportParts
import Lily.WebCore.ServerSentEvent
import Lily.WebCore.StaticFile
