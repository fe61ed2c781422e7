import AgentDesk.Model.Config

namespace AgentDesk

variable {S : Type}

structure Metrics where
  totalTickets : Nat
  ticketsByStatus : List (String × Nat)
  avgAgentLatencyMs : ℚ
  avgEstimatedCostUsd : ℚ
  approvalRate : ℚ
  escalationRate : ℚ
  retrievalHitRate : ℚ
  failedJobs : Nat
  deriving DecidableEq

namespace MetricsService

def rate (totalCompleted numerator : Nat) : ℚ :=
  if totalCompleted = 0 then 0 else roundTo 4 ((numerator : ℚ) / totalCompleted)

def compute (organizationId : Uuid) : M S Metrics := do
  let totalTickets ← query (.countTickets organizationId)
  let statusRows ← query (.ticketsByStatus organizationId)
  let avgLatency ← query (.averageLatency organizationId)
  let avgCost ← query (.averageCost organizationId)
  let totalCompleted ← query (.countCompleted organizationId)
  let waiting ← query (.countOutcome organizationId .waitingApproval)
  let escalated ← query (.countOutcome organizationId .escalated)
  let hits ← query (.countHits organizationId)
  let failedRuns ← query (.countFailedRuns organizationId)
  let failedDeliveries ← query (.countFailedDeliveries organizationId)
  pure
    { totalTickets
      ticketsByStatus := statusRows.map fun x => (x.1.value, x.2)
      avgAgentLatencyMs := roundTo 2 (avgLatency.getD 0)
      avgEstimatedCostUsd := roundTo 8 (avgCost.getD 0)
      approvalRate := rate totalCompleted waiting
      escalationRate := rate totalCompleted escalated
      retrievalHitRate := rate totalCompleted hits
      failedJobs := failedRuns + failedDeliveries }

end MetricsService

end AgentDesk
