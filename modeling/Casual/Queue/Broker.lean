/-
`queue/broker/state.cpp`, `queue/broker/handle.cpp` and the pump of `broker.cpp`: the state of the queue
broker and what it does with a message.
-/
import Casual.Queue.Handle

namespace Casual.Queue

open Casual.Common Casual.Communication Casual.Lib

/-! ## State -/

namespace Broker

/-- `State::Group`. -/
structure Group where
  name : String
  process : Process
  connected : Bool

/-- `queue::lookup::Reply`. -/
structure LookupReply where
  process : Process
  queue : Nat
  deriving DecidableEq

/-- `State::Correlation::Stage`. -/
inductive Stage
  | empty
  | pending
  | error
  | replied
  deriving DecidableEq

/-- The order of the enumerators. -/
def Stage.rank : Stage → Nat
  | .empty => 0
  | .pending => 1
  | .error => 2
  | .replied => 3

/-- `State::Correlation::Request`. -/
structure Request where
  group : Process
  stage : Stage
  deriving DecidableEq

/-- `State::Correlation`. -/
structure Correlation where
  caller : Process
  replyCorrelation : Uuid
  requests : List Request

namespace Correlation

/-- The constructor: a request for each of the groups. -/
def ofGroups (caller : Process) (replyCorrelation : Uuid) (groups : List Process) : Correlation :=
  ⟨caller, replyCorrelation, groups.map fun group => ⟨group, .pending⟩⟩

/-- `replied`. -/
def replied (c : Correlation) : Bool := c.requests.all fun r => Stage.error.rank ≤ r.stage.rank

/-- `stage()`: the least of the stages. -/
def stage (c : Correlation) : Stage :=
  match c.requests with
  | [] => .empty
  | first :: rest => rest.foldl (fun least r => if r.stage.rank < least.rank then r.stage else least) first.stage

/-- The first request of a process gets a stage. -/
def mark (id : Process) (stage : Stage) : List Request → List Request
  | [] => []
  | r :: rest => if r.group.pid = id.pid then { r with stage := stage } :: rest else r :: mark id stage rest

/-- `stage( id, stage)`. -/
def setStage (c : Correlation) (id : Process) (stage : Stage) : Correlation :=
  { c with requests := mark id stage c.requests }

/-- What `process::Exit` does with a correlation. -/
def invalidate (pid : Nat) (c : Correlation) : Correlation :=
  { c with requests := c.requests.map fun r =>
      if r.group.pid = pid ∧ r.stage.rank ≤ Stage.pending.rank then { r with stage := .error } else r }

end Correlation

/-- The two kinds of requests and replies of `transaction::resource`. -/
inductive Kind
  | commit
  | rollback
  deriving DecidableEq

/-- `transaction::resource::commit::Request` and `rollback::Request`. -/
structure ResourceRequest where
  correlation : Uuid
  process : Process
  trid : Transaction.ID
  resource : Nat
  flags : Int
  deriving DecidableEq

/-- `transaction::resource::commit::Reply` and `rollback::Reply`. -/
structure ResourceReply where
  correlation : Uuid
  process : Process
  trid : Transaction.ID
  resource : Nat
  state : Int
  deriving DecidableEq

/-- What the queue broker sends. -/
inductive Sent
  | request (kind : Kind) (message : ResourceRequest)
  | reply (kind : Kind) (message : ResourceReply)
  | lookup (reply : LookupReply)
  deriving DecidableEq

/-- What the queue broker does not decide: the queue of each process, and which queues are gone or full
when something is sent to them, by the number of the attempt. -/
structure Environment where
  self : Process
  queue : Nat → Nat
  gone : Nat → Nat → Bool
  full : Nat → Nat → Bool

/-- `process::Handle` of a process. -/
def Environment.process (env : Environment) (pid : Nat) : Process := ⟨pid, env.queue pid⟩

end Broker

/-- `broker::State`, how many attempts there have been to send something, what has been sent, and whether
the pump is still running. The maps that are looked up by a transaction are functions. -/
structure Broker where
  groups : List Broker.Group
  queues : List (String × Broker.LookupReply)
  involved : Transaction.XID → Option (List Process)
  correlation : Transaction.XID → Option Broker.Correlation
  attempts : Nat
  sent : List (Process × Broker.Sent)
  running : Bool

namespace Broker

variable (env : Environment)

/-- What the broker does to its state. -/
abbrev M (α : Type) := EStateM Exception Broker α

/-! ## Sending -/

/-- `blocking_send`. -/
def blockingSend (receiver : Process) (message : Sent) : M Unit := fun s =>
  if env.gone s.attempts receiver.queue then .error .unavailable { s with attempts := s.attempts + 1 }
  else .ok () { s with attempts := s.attempts + 1, sent := s.sent ++ [(receiver, message)] }

/-- `non_blocking_send`. -/
def nonBlockingSend (receiver : Process) (message : Sent) : M Bool := fun s =>
  if env.gone s.attempts receiver.queue then .error .unavailable { s with attempts := s.attempts + 1 }
  else if env.full s.attempts receiver.queue then .ok false { s with attempts := s.attempts + 1 }
  else .ok true { s with attempts := s.attempts + 1, sent := s.sent ++ [(receiver, message)] }

/-- The groups whose queues are full, and those that have got the message. -/
def partition (message : Sent) : List Process → M (List Process × List Process)
  | [] => pure ([], [])
  | group :: rest => do
    let sent ← nonBlockingSend env group message
    let (busy, done) ← partition message rest
    return if sent then (busy, group :: done) else (group :: busy, done)

/-- `local::send`: the groups as it leaves them. -/
def send (groups : List Process) (message : Sent) : M (List Process) := do
  let (busy, done) ← partition env message groups
  busy.forM fun group => blockingSend env group message
  return busy ++ done

/-! ## Handlers -/

/-- `process::Exit::apply`. -/
def exit (pid : Nat) : M Unit := fun s => .ok () { s with
  groups := s.groups.eraseP fun g => g.process.pid == pid
  queues := s.queues.filter fun q => q.2.process.pid != pid
  correlation := fun x => (s.correlation x).map (Correlation.invalidate pid) }

/-- `lookup::Request`. -/
def lookupRequest (process : Process) (name : String) : M Unit := fun s =>
  match s.queues.find? fun q => q.1 == name with
  | some found => blockingSend env process (.lookup found.2) s
  | none => blockingSend env process (.lookup ⟨⟨0, 0⟩, 0⟩) s

/-- `emplace`: the first one with a name is kept. -/
def emplace (queues : List (String × LookupReply)) (name : String) (reply : LookupReply) : List (String × LookupReply) :=
  if queues.any fun q => q.1 == name then queues else queues ++ [(name, reply)]

/-- `connect::Request`. -/
def connectRequest (process : Process) (queues : List (String × Nat)) : M Unit := fun s => .ok () { s with
  queues := queues.foldl (fun known queue => emplace known queue.1 ⟨process, queue.2⟩) s.queues
  groups :=
    if s.groups.any fun g => g.process == process then
      s.groups.replaceF fun g => if g.process = process then some { g with connected := true } else none
    else s.groups ++ [⟨"", process, false⟩] }

/-- `group::Involved`. -/
def groupInvolved (process : Process) (trid : Transaction.ID) : M Unit := fun s =>
  let involved := (s.involved trid.xid).getD []
  let involved := if process ∈ involved then involved else involved ++ [process]
  .ok () { s with involved := Function.update s.involved trid.xid (some involved) }

/-- The resource does not know the transaction. -/
def XAER_NOTA : Int := -4

/-- `sendError`. -/
def sendError (kind : Kind) (message : ResourceRequest) (state : Int) : M Unit :=
  blockingSend env message.process (.reply kind ⟨message.correlation, env.self, message.trid, message.resource, state⟩)

/-- The correlation of a request that has been sent to the groups. An entry that is there is kept. -/
def correlate (message : ResourceRequest) (groups : List Process) (s : Broker) : Broker :=
  { s with
    correlation := Function.update s.correlation message.trid.xid
      (some ((s.correlation message.trid.xid).getD (.ofGroups message.process message.correlation groups)))
    involved := Function.update s.involved message.trid.xid none }

/-- `transaction::request`. -/
def request (kind : Kind) (message : ResourceRequest) : M Unit := do
  let found := (← get).involved message.trid.xid
  match found with
  | some groups =>
    tryCatch (do
      let groups ← send env groups (.request kind { message with process := env.self })
      modify (correlate message groups)) fun _ => sendError env kind message XAER_RMFAIL
  | none => sendError env kind message XAER_NOTA

/-- Who waits for the end of a transaction is another. -/
def setCorrelation (x : Transaction.XID) (c : Option Correlation) : M Unit := fun s =>
  .ok () { s with correlation := Function.update s.correlation x c }

/-- What is sent to the caller when all groups have replied. -/
def finalReply (c : Correlation) (message : ResourceReply) : ResourceReply :=
  ⟨c.replyCorrelation, env.self, message.trid, message.resource, if c.stage = .replied then XA_OK else XAER_RMFAIL⟩

/-- `transaction::reply`. -/
def reply (kind : Kind) (message : ResourceReply) : M Unit := do
  let found := (← get).correlation message.trid.xid
  match found with
  | none => pure ()
  | some found =>
    let found := found.setStage message.process (if message.state = XA_OK then .replied else .error)
    setCorrelation message.trid.xid (some found)
    if found.replied then
      blockingSend env found.caller (.reply kind (finalReply env found message))
      setCorrelation message.trid.xid none

/-- A message the pump gets. -/
inductive Event
  | exit (pid : Nat)
  | connect (process : Process) (queues : List (String × Nat))
  | lookup (process : Process) (name : String)
  | involved (process : Process) (trid : Transaction.ID)
  | request (kind : Kind) (message : ResourceRequest)
  | reply (kind : Kind) (message : ResourceReply)

/-- What the dispatch does with a message. -/
def handle : Event → M Unit
  | .exit pid => exit pid
  | .connect process queues => connectRequest process queues
  | .lookup process name => lookupRequest env process name
  | .involved process trid => groupInvolved process trid
  | .request kind message => request env kind message
  | .reply kind message => reply env kind message

/-- An exception that no handler catches ends the pump. -/
def step (s : Broker) (e : Event) : Broker :=
  match handle env e s with
  | .ok _ s => s
  | .error _ s => { s with running := false }

/-- A queue broker that no group is involved with yet. -/
def start (groups : List Group) (queues : List (String × LookupReply)) : Broker :=
  ⟨groups, queues, fun _ => none, fun _ => none, 0, [], true⟩

end Broker

end Casual.Queue
