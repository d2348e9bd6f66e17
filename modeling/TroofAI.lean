import TroofAI.Trust.Authentic
import TroofAI.Trust.Unanswered
import TroofAI.Trust.Domains
import TroofAI.Trust.OneTime
import TroofAI.Trust.Lawful
import TroofAI.Trust.Rebind
import TroofAI.Trust.Identity
import TroofAI.Trust.Keys
import TroofAI.Trust.Revocation
import TroofAI.Trust.States
import TroofAI.Trust.Binding
import TroofAI.Trust.Confinement
import TroofAI.Trust.Vouching
import TroofAI.Trust.LostBind
import TroofAI.Trust.AuditOrder
import TroofAI.Trust.Latest
import TroofAI.Trust.Honest
import TroofAI.Trust.Completeness
import TroofAI.Trust.Trail
import TroofAI.Hub.IsoDate
import TroofAI.Trust.Ambiguity
import TroofAI.History.Exact
import TroofAI.Trust.Outputs
import TroofAI.Trust.Consumed
import TroofAI.Trust.Expiry
import TroofAI.Trust.Refinement
import TroofAI.Trust.Atomicity
import TroofAI.Agent.Enrollment
import TroofAI.Trust.Enrollment
import TroofAI.Base.Binary64
import TroofAI.Hub.Stats
import TroofAI.Trust.Statistics
import TroofAI.Trust.Consistency
import TroofAI.Trust.Coverage
import TroofAI.Hub.Sockets
import TroofAI.Trust.Delivery
import TroofAI.Agent.KeyService
import TroofAI.Agent.WebSocket
import TroofAI.Trust.Liveness
import TroofAI.Trust.Persistence
import TroofAI.Web.Score
import TroofAI.Web.AuditPage
import TroofAI.Base.Json
import TroofAI.Base.Lowering
import TroofAI.Trust.Messages
import TroofAI.Hub.Redis
import TroofAI.History.Growth
import TroofAI.Trust.AuditLog
import TroofAI.Trust.RedisTexts
import TroofAI.Agent.Texts
import TroofAI.Hub.Requests
import TroofAI.Trust.Exchange
import TroofAI.Web.BindRelay
import TroofAI.Agent.Program
import TroofAI.Trust.Launches
import TroofAI.Trust.DemoTenant
import TroofAI.Trust.Times
import TroofAI.Trust.Reasons
import TroofAI.Trust.Rounds
import TroofAI.Web.Setup
import TroofAI.History.Served
import TroofAI.Trust.Session
import TroofAI.Trust.Demonstration
import TroofAI.Trust.Acknowledged
