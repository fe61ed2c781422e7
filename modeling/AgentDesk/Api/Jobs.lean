import AgentDesk.Api.Endpoints

namespace AgentDesk

open Framework (Program Pool Event)

variable {S α : Type}

/-- `async with SessionLocal()`: the session is closed however the body ends. -/
def sessionScope (p : M S α) : M S α := fun σ =>
  (p σ).bind fun x => (close x.2).bind fun y => .ret (x.1, y.2)

/-- The dependency `get_db`: roll back on an exception and raise it again. -/
def getDb (p : M S α) : M S α :=
  sessionScope (M.except p fun exc => do
    rollback
    M.raise exc)

/-- The exception handlers of the application. -/
def respond : Except Err Response → Response
  | .ok r => r
  | .error (.http status detail) => ⟨status, .detail detail⟩
  | .error _ => ⟨500, .detail "Internal server error"⟩

/-- What a session is opened for: a request, or a task from the broker. -/
inductive Job where
  | request (r : Api.Request)
  | runAgent (runId : Uuid)
  | deliverWebhook (deliveryId : Uuid) (retries : Nat)

/-- How a session ends: a response, or a task that is finished, has to be retried after
a countdown, or failed. -/
inductive Outcome where
  | response (r : Response)
  | finished
  | retry (deliveryId : Uuid) (retries : Nat) (countdown : ℚ)
  | failed (e : Err)
  deriving DecidableEq

/-- `run_agent`. -/
def Tasks.runAgent (cfg : Config S) (workflow : Workflow S) (runId : Uuid) : M S Outcome := do
  let _ ← sessionScope (AgentRunService.executeRun cfg workflow runId)
  pure .finished

/-- `deliver_webhook`: retry with exponential backoff while retries are left. -/
def Tasks.deliverWebhook (cfg : Config S) (deliveryId : Uuid) (retries : Nat) : M S Outcome := do
  let success ← sessionScope (WebhookService.deliverOnce cfg deliveryId true)
  if !success && decide (retries < cfg.settings.webhookMaxRetries) then
    pure (.retry deliveryId (retries + 1)
      (cfg.settings.webhookBackoffBaseSeconds * 2 ^ retries))
  else pure .finished

def outcomeOf : Except Err Outcome → Outcome
  | .ok o => o
  | .error e => .failed e

section

variable [Field S] [LinearOrder S] [FloorRing S]

/-- The program of a job in session `c`. -/
def Job.program (cfg : Config S) (workflow : Workflow S) (job : Job) (c : Nat) :
    Program (Op S) Res Outcome :=
  match job with
  | .request r =>
    (getDb (r.handle cfg workflow) (.start c)).bind fun x => .ret (.response (respond x.1))
  | .runAgent runId =>
    (Tasks.runAgent cfg workflow runId (.start c)).bind fun x => .ret (outcomeOf x.1)
  | .deliverWebhook deliveryId retries =>
    (Tasks.deliverWebhook cfg deliveryId retries (.start c)).bind fun x => .ret (outcomeOf x.1)

/-- The deployment after these events: requests and tasks arrive at any time, the sessions
are scheduled in any order, and any of them may be cut off. -/
def deployment (cfg : Config S) (workflow : Workflow S) (events : List (Event Job (Reply S))) :
    Pool Job (Op S) Res Outcome (World S) :=
  Pool.run (server cfg.platform) (Job.program cfg workflow) ⟨.init, []⟩ events

end

/-! A deployment that can be run by hand -/

/-- Letter case and password hashes stand for themselves. -/
def Platform.plain : Platform where
  lower s := s
  sqlLower s := s
  hashPassword password _ := password
  verifyPassword password hashed := password == hashed
  hmacSha256 secret _ := secret
  sha256Word _ := 0
  isoformat n := toString n

def Config.plain : Config ℚ := ⟨.plain, {}, "sqlite", false, false, id⟩

def Reply.plain : Reply ℚ := ⟨none, 0, ⟨0, none⟩, 0, [], ⟨"", 0, 0, ""⟩, 200⟩

/-- A workflow that drafts the same answer for every ticket. -/
def Workflow.fixed (S : Type) (draft outcome : String) : Workflow S :=
  ⟨fun state => pure { state with draft := some draft, outcome := some outcome },
    fun _ => M.readOnly_pure _⟩

/-- The access token of the user that session 0 registered. -/
def adminToken : Token :=
  .signed "change-me-in-production" ⟨some ⟨0, 1⟩, some .access, 0, 1800, none, none⟩

def Job.byAdmin (action : Api.Action) : Job := .request (.authenticated (some adminToken) action)

def Job.registerAcme : Job :=
  .request (.register ⟨"acme", "admin@acme.com", "password", by decide, by decide⟩)

def Job.createHelp : Job :=
  .byAdmin (.createTicket ⟨"help", "it broke", .low, by decide, by decide⟩)

def otherDraft : EditDraftRequest := ⟨"other", by decide⟩

/-- Session `i` makes its next `n` calls, none of which fails. -/
def calls (i n : Nat) : List (Event Job (Reply ℚ)) := List.replicate n (.step i .plain)

/-- Session 0 registers an organization and its administrator. -/
def registration : List (Event Job (Reply ℚ)) :=
  .spawn .registerAcme :: calls 0 10

/-- Session 1 creates a ticket of that organization. -/
def ticketCreation : List (Event Job (Reply ℚ)) :=
  .spawn .createHelp :: calls 1 10

def helpfulDraft : Workflow ℚ := .fixed ℚ "try again" "waiting_approval"

/-- Session 2 starts a run on the ticket, and session 3 executes it. -/
def draftedTicket : List (Event Job (Reply ℚ)) :=
  registration ++ ticketCreation ++ .spawn (.byAdmin (.runWorkflow ⟨1, 0⟩)) :: calls 2 12 ++
    .spawn (.runAgent ⟨2, 0⟩) :: calls 3 14

/-- The same with an active webhook, which session 4 configures. -/
def hookedTicket : List (Event Job (Reply ℚ)) :=
  draftedTicket ++
    .spawn (.byAdmin (.putWebhook ⟨"https://acme.com/hook", "secret of the webhook", true, by decide⟩)) ::
      calls 4 12

/-- Session 5 approves the ticket, and its delivery waits for a worker. -/
def approvedTicket : List (Event Job (Reply ℚ)) :=
  hookedTicket ++ .spawn (.byAdmin (.approve ⟨1, 0⟩ ⟨none⟩)) :: calls 5 20

/-- The environment in which the call of this number fails and no other. -/
def failing (i : Nat) (n : Nat) : Reply ℚ :=
  if n = i then { Reply.plain with fault := some (.io "connection lost") } else .plain

end AgentDesk
