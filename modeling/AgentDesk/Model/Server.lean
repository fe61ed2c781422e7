import AgentDesk.Model.Query
import AgentDesk.Framework.Interference

namespace AgentDesk

variable {S : Type}

/-- The exceptions. `io` is whatever an awaited call can raise. -/
inductive Err where
  | notFound (message : String)
  | invalidTransition (current target : TicketStatus)
  | emptyResponse (message : String)
  | auth (message : String)
  | conflict (message : String)
  | jwt (message : String)
  | value (message : String)
  | runtime (message : String)
  | integrity
  | io (message : String)
  | http (status : Nat) (detail : String)
  deriving DecidableEq

/-- `str(exc)`. -/
def Err.str : Err → String
  | .notFound m => m
  | .invalidTransition current target =>
    "Cannot move ticket from " ++ current.value ++ " to " ++ target.value
  | .emptyResponse m => m
  | .auth m => m
  | .conflict m => m
  | .jwt m => m
  | .value m => m
  | .runtime m => m
  | .integrity => "IntegrityError"
  | .io m => m
  | .http status detail => toString status ++ ": " ++ detail

/-- The messages on the broker. -/
inductive Task where
  | runAgent (runId : Uuid)
  | deliverWebhook (deliveryId : Uuid)
  deriving DecidableEq

/-- The arguments of a vendor SDK's completion call. -/
structure ChatRequest where
  model : String
  maxTokens : Option Nat
  system : Option String
  messages : List (String × String)
  deriving DecidableEq

structure LLMResult where
  text : String
  promptTokens : Nat
  completionTokens : Nat
  model : String
  deriving DecidableEq

/-- What a session awaits, and the clock and the random salt, which never fail. -/
inductive Op (S : Type) where
  | query (q : Query S)
  | write (ws : List (Write S))
  | commit
  | rollback
  | close
  | clock
  | salt
  | embed (texts : List String)
  | chat (request : ChatRequest)
  | post (url : String) (body : List Char) (headers : List (String × String))
  | aclose
  | enqueue (task : Task)

@[reducible] def Res : Op S → Type
  | .query q => Except Err q.Result
  | .write _ => Except Err Unit
  | .commit => Except Err Unit
  | .rollback => Except Err Unit
  | .close => Unit
  | .clock => Time
  | .salt => Nat
  | .embed _ => Except Err (List (List S))
  | .chat _ => Except Err LLMResult
  | .post _ _ _ => Except Err Nat
  | .aclose => Except Err Unit
  | .enqueue _ => Except Err Unit

/-- The environment's part in one call: `fault` makes it raise, the rest is what it
answers when it does not. -/
structure Reply (S : Type) where
  fault : Option Err
  now : Time
  choice : ServerChoice
  salt : Nat
  vectors : List (List S)
  chat : LLMResult
  status : Nat

/-- An open transaction: when it began, what it wrote, and the ticket rows it read. -/
structure Tx (S : Type) where
  session : Nat
  start : Time
  writes : List (Write S)
  reads : List Ticket

/-- A call that returned. -/
structure Call (S : Type) where
  session : Nat
  op : Op S
  result : Res op

/-- A commit that wrote something; `seen` is the version of each ticket that the session
had read last. -/
structure Commit (S : Type) where
  session : Nat
  start : Time
  writes : List (Write S)
  seen : Uuid → Nat

/-- The database server with its open transactions, and the broker. `past`, `seen`,
`calls` and `commits` record the history; no program reads them. -/
structure World (S : Type) where
  db : DB S
  txs : List (Tx S)
  tasks : List Task
  past : List (DB S)
  seen : Nat → Uuid → Nat
  calls : List (Call S)
  commits : List (Commit S)

namespace World

def init : World S := ⟨.empty, [], [], [], fun _ _ => 0, [], []⟩

def tx? (w : World S) (c : Nat) : Option (Tx S) := w.txs.find? fun t => t.session == c

def writesOf (w : World S) (c : Nat) : List (Write S) := ((w.tx? c).map Tx.writes).getD []

/-- READ COMMITTED: a statement sees what is committed and its own writes. -/
def view (w : World S) (c : Nat) : DB S :=
  match w.tx? c with
  | none => w.db
  | some tx => applyAll tx.start w.db tx.writes

/-- The committed versions, oldest first. -/
def versions (w : World S) : List (DB S) := w.past ++ [w.db]

def dropTx (w : World S) (c : Nat) : World S :=
  { w with txs := w.txs.filter fun t => t.session != c }

def setTx (w : World S) (tx : Tx S) : World S :=
  { w with txs := tx :: w.txs.filter fun t => t.session != tx.session }

/-- The session's transaction; the first statement opens it. -/
def txOf (w : World S) (c : Nat) (now : Time) : Tx S := (w.tx? c).getD ⟨c, now, [], []⟩

/-- Some other open transaction holds a lock that these statements need. -/
def blocked (w : World S) (c : Nat) (ws : List (Write S)) : Bool :=
  w.txs.any fun t => t.session != c &&
    t.writes.any fun x => x.lock?.any fun l => ws.any fun y => y.lock? == some l

/-- `uuid4` draws never meet: a session inserts rows only under ids that it drew. -/
def ownIds (c : Nat) (ws : List (Write S)) : Bool :=
  ws.all fun x => match x with
    | .insert row => row.id.session == c
    | _ => true

def noteRead (w : World S) (c : Nat) (now : Time) : (q : Query S) → q.Result → World S
  | .ticket id, row =>
    let tx := w.txOf c now
    { w.setTx { tx with reads := tx.reads ++ row.toList } with
      seen := Function.update w.seen c (Function.update (w.seen c) id w.past.length) }
  | _, _ => w.setTx (w.txOf c now)

/-- Make the session's writes durable; a transaction that wrote nothing leaves no trace. -/
def commitTx (w : World S) (c : Nat) : World S :=
  match w.tx? c with
  | none => w
  | some tx =>
    if tx.writes.isEmpty then w.dropTx c
    else
      { w.dropTx c with
        db := applyAll tx.start w.db tx.writes
        past := w.past ++ [w.db]
        commits := w.commits ++ [⟨c, tx.start, tx.writes, w.seen c⟩] }

/-- The effect of one call of session `c`. A statement that fails aborts the transaction,
and a commit that raises has committed nothing. -/
def effect (P : Platform) (c : Nat) : (op : Op S) → Reply S → World S → Option (Res op × World S)
  | .query q, reply, w =>
    match reply.fault with
    | some e => some (.error e, w.dropTx c)
    | none =>
      let row := q.eval P reply.choice (w.view c)
      some (.ok row, w.noteRead c reply.now q row)
  | .write ws, reply, w =>
    match reply.fault with
    | some e => some (.error e, w.dropTx c)
    | none =>
      let tx := w.txOf c reply.now
      if w.blocked c ws || !ownIds c ws then none
      else if violatesAny tx.start (w.view c) ws then some (.error .integrity, w.dropTx c)
      else some (.ok (), w.setTx { tx with writes := tx.writes ++ ws })
  | .commit, reply, w =>
    match reply.fault with
    | some e => some (.error e, w.dropTx c)
    | none => some (.ok (), w.commitTx c)
  | .rollback, reply, w =>
    match reply.fault with
    | some e => some (.error e, w.dropTx c)
    | none => some (.ok (), w.dropTx c)
  | .close, _, w => some ((), w.dropTx c)
  | .clock, reply, w => some (reply.now, w)
  | .salt, reply, w => some (reply.salt, w)
  | .embed _, reply, w => some (match reply.fault with | some e => .error e | none => .ok reply.vectors, w)
  | .chat _, reply, w => some (match reply.fault with | some e => .error e | none => .ok reply.chat, w)
  | .post _ _ _, reply, w =>
    some (match reply.fault with | some e => .error e | none => .ok reply.status, w)
  | .aclose, reply, w => some (match reply.fault with | some e => .error e | none => .ok (), w)
  | .enqueue task, reply, w =>
    match reply.fault with
    | some e => some (.error e, w)
    | none => some (.ok (), { w with tasks := w.tasks ++ [task] })

def log (w : World S) (c : Nat) (op : Op S) (r : Res op) : World S :=
  { w with calls := w.calls ++ [⟨c, op, r⟩] }

def exec (P : Platform) (c : Nat) (op : Op S) (reply : Reply S) (w : World S) :
    Option (Res op × World S) :=
  (w.effect P c op reply).map fun x => (x.1, x.2.log c op x.1)

end World

/-- PostgreSQL under READ COMMITTED, the broker and the endpoints, as one machine. -/
def server (P : Platform) : Framework.Machine (Op S) Res (Reply S) (World S) where
  exec c op reply w := w.exec P c op reply
  abort c w := w.dropTx c

/-- The same when only these calls can fail. -/
def serverWhere (P : Platform) (faults : Op S → Bool) :
    Framework.Machine (Op S) Res (Reply S) (World S) where
  exec c op reply w := w.exec P c op (if faults op then reply else { reply with fault := none })
  abort c w := w.dropTx c

end AgentDesk
