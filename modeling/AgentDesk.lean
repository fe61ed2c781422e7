import AgentDesk.Framework.Program
import AgentDesk.Framework.Interference
import AgentDesk.Framework.Observer
import AgentDesk.Framework.Purge
import AgentDesk.Framework.Serial
import AgentDesk.Framework.Transcript
import AgentDesk.Framework.Waiting
import AgentDesk.Framework.Table
import AgentDesk.Framework.Windows
import AgentDesk.Framework.Ranking
import AgentDesk.Framework.Codes
import AgentDesk.Model.Text
import AgentDesk.Model.Json
import AgentDesk.Model.Records
import AgentDesk.Model.Database
import AgentDesk.Model.Query
import AgentDesk.Model.Server
import AgentDesk.Model.Session
import AgentDesk.Model.Config
import AgentDesk.Services.Webhooks
import AgentDesk.Services.Tickets
import AgentDesk.Services.Providers
import AgentDesk.Services.Retrieval
import AgentDesk.Services.Workflow
import AgentDesk.Services.AgentRuns
import AgentDesk.Services.Accounts
import AgentDesk.Services.Documents
import AgentDesk.Services.Metrics
import AgentDesk.Api.Schemas
import AgentDesk.Api.Endpoints
import AgentDesk.Api.Jobs
import AgentDesk.Api.Operations
import AgentDesk.Logic.Triple
import AgentDesk.Logic.Ledger
import AgentDesk.Logic.Warrants
import AgentDesk.Logic.Requests
import AgentDesk.Logic.Journal
import AgentDesk.Logic.Deeds
import AgentDesk.Logic.Sessions
import AgentDesk.Logic.Tables
import AgentDesk.Logic.History
import AgentDesk.Logic.Shadow
import AgentDesk.Logic.Provenance
import AgentDesk.Logic.Ownership
import AgentDesk.Logic.Tenancy
import AgentDesk.Logic.Isolation
import AgentDesk.Logic.Tenants
import AgentDesk.Logic.Homes
import AgentDesk.Logic.Callers
import AgentDesk.Logic.Locks
import AgentDesk.Logic.LockOrder
import AgentDesk.Logic.Acts
import AgentDesk.Logic.Solo
import AgentDesk.Logic.Tally
import AgentDesk.Logic.Announcement
import AgentDesk.Logic.Execution
import AgentDesk.Logic.Delivery
import AgentDesk.Logic.Scoring
import AgentDesk.Logic.Tokens
import AgentDesk.Logic.Commits
import AgentDesk.Logic.Portrait
import AgentDesk.Logic.Replay
import AgentDesk.Logic.Routine
import AgentDesk.Logic.Balance
import AgentDesk.Logic.Bookkeeping
import AgentDesk.Logic.Conclusions
import AgentDesk.Logic.Lenience
import AgentDesk.Logic.Attempts
import AgentDesk.Logic.Progress
import AgentDesk.Logic.Notices
import AgentDesk.Logic.Outcomes
import AgentDesk.Logic.Rounding
import AgentDesk.Logic.Similarity
import AgentDesk.Logic.CanonicalJson
import AgentDesk.Logic.Wording
import AgentDesk.Properties.HumanInTheLoop
import AgentDesk.Properties.Overrides
import AgentDesk.Properties.Approvals
import AgentDesk.Properties.FirstDecision
import AgentDesk.Properties.TenantIsolation
import AgentDesk.Properties.Deadlocks
import AgentDesk.Properties.Refusals
import AgentDesk.Properties.Runs
import AgentDesk.Properties.AcceptedRuns
import AgentDesk.Properties.RepeatedRuns
import AgentDesk.Properties.CountedAttempts
import AgentDesk.Properties.Deliveries
import AgentDesk.Properties.DeliveryRecords
import AgentDesk.Properties.Chunks
import AgentDesk.Properties.Ingestion
import AgentDesk.Properties.Grounding
import AgentDesk.Properties.Search
import AgentDesk.Properties.Confidence
import AgentDesk.Properties.Logins
import AgentDesk.Properties.AccessTokens
import AgentDesk.Properties.TicketHistory
import AgentDesk.Properties.Escalations
import AgentDesk.Properties.AuditTrail
import AgentDesk.Properties.ApprovedTickets
import AgentDesk.Properties.Notifications
import AgentDesk.Properties.Announcements
import AgentDesk.Properties.EventOrder
import AgentDesk.Properties.ConsistentMetrics
import AgentDesk.Properties.OwnText
import AgentDesk.Properties.CanonicalBodies
import AgentDesk.Properties.GroundedTickets
