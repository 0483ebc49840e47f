/-
`queue/forward/common.cpp` and `queue/forward/service.cpp`, with what they use of `queue/api/rm/queue.cpp` and
`xatmi/tx.cpp`: a process that takes messages from a queue and calls a service with each, in a transaction.
-/
import Casual.Call.Deadline
import Casual.Queue.Broker
import Casual.Tx.Stack

namespace Casual.Queue.Forward

open Lib Common Communication Casual.Call Server

variable {Sender : Type}

/-! ## What a forwarder is given -/

/-- What is thrown: `exception::Shutdown`, or anything else. -/
inductive Failure
  | shutdown
  | other
  deriving DecidableEq, Repr

/-- `queue::Message`: what `Caller` uses of it. -/
structure Message where
  payload : Payload
  reply : String
  deriving DecidableEq

/-- `forward::Task`, with what its `Caller` is made of. -/
structure Task where
  service : String
  reply : String
  deriving DecidableEq

/-- What becomes of what is asked of a queue: of the lookup, the answer to it, the request and the reply. -/
structure Talk (α : Type) where
  lookup : Except Failure Unit
  group : Except Failure Broker.LookupReply
  request : Except Failure Unit
  reply : Except Failure α

/-- The queue is looked up and its group asked; whether there is such a queue is checked or not. -/
def Talk.ask {α : Type} (t : Talk α) (checked : Bool) : Except Failure α := do
  t.lookup
  let group ← t.group
  if checked ∧ group.queue = 0 then throw .other
  t.request
  t.reply

/-- What `dequeue` listens to. -/
inductive Received
  | reply (correlation : Uuid) (message : List Message)
  | shutdown

/-- What a forwarder does not decide in a round: the ids that are created, what it is told, and what fails. -/
structure Round where
  created : Transaction.XID
  chained : Transaction.XID
  request : Uuid
  dequeue : Talk Received
  forget : Talk Unit
  insert : Except Failure Unit
  env : Surroundings
  lookupCorrelation : Uuid
  correlation : Uuid
  enqueue : Talk Unit
  answers : Tx.Answers

/-! ## State -/

/-- How a transaction of the forward ends. -/
inductive Ending
  | commit
  | rollback
  deriving DecidableEq, Repr

/-- An enqueue that was replied to. -/
structure Enqueued where
  queue : String
  trid : Option Transaction.XID
  payload : Payload
  deriving DecidableEq

/-- What is done in a round: the transaction that is begun, the message that is dequeued, with the id it is dequeued
with, the reply of the service, and the transactions that are ended. -/
structure Log where
  trid : Option Transaction.ID
  taken : Option (Message × Option Transaction.XID)
  reply : Option Call.Reply
  enqueued : List Enqueued
  ended : List (Option Transaction.ID × Ending)
  deriving DecidableEq

/-- Nothing has been done yet. -/
def Log.empty : Log := ⟨none, none, none, [], []⟩

/-- A forwarder; `rm` is `rm::id`, and the transactions of its calls are those of `tx`. -/
structure Forwarder (Sender : Type) where
  rm : Nat
  call : Call.Context Sender
  tx : Tx.Context
  log : Log
  history : List Log
  running : Bool

/-- What a round of the forward does. -/
abbrev M (Sender : Type) := EStateM Failure (Forwarder Sender)

/-- A round keeps what it has done. -/
def note (f : Log → Log) : M Sender Unit := modify fun s => { s with log := f s.log }

/-! ## `tx.h` -/

/-- `error::tx::handler`. -/
def handler : Tx.Exception → Int
  | .protocol => TX_PROTOCOL_ERROR
  | .noBegin => TX_NO_BEGIN
  | _ => TX_FAIL

/-- A function of `tx.h`, by the one of the context. -/
def tx (x : Tx.M Int) : M Sender Int := fun s =>
  match x s.tx with
  | .ok result tx => .ok result { s with tx }
  | .error e tx => .ok (handler e) { s with tx }

/-- `tx_begin`. -/
def txBegin (r : Round) : M Sender Int := do
  let result ← tx (Tx.begin r.created)
  let trid := (← get).tx.current.trid
  if result = TX_OK then note fun l => { l with trid }
  return result

/-- `tx_commit` and `tx_rollback`, whose results are ignored. -/
def txEnd (x : Tx.M Int) (ending : Ending) : M Sender Unit := do
  let trid := (← get).tx.current.trid
  let result ← tx x
  if result = TX_OK then note fun l => { l with ended := l.ended ++ [(trid, ending)] }

/-- `tx_commit`. -/
def txCommit (r : Round) : M Sender Unit := txEnd (Tx.commit r.answers r.chained) .commit

/-- `tx_rollback`. -/
def txRollback (r : Round) : M Sender Unit := txEnd (Tx.rollback r.answers r.chained) .rollback

/-- `tx_info`: `transaction_state`. -/
def txInfo : M Sender Transaction.State := do
  return (← get).tx.current.state

/-! ## `queue::rm` -/

/-- `ax_reg`, with a null id: the id is set only by a registration that is new. -/
def axReg : M Sender (Option Transaction.XID) := fun s =>
  let current := s.tx.current
  match Tx.resourceRegistration s.rm s.tx with
  | .ok code tx => .ok (if code = Tx.TM_OK then current.trid.map (·.xid) else none) { s with tx }
  | .error _ tx => .ok none { s with tx }

/-- `ax_unreg`. -/
def axUnreg : M Sender Unit := fun s => .ok () { s with tx := Tx.after (Tx.resourceUnregistration s.rm s.tx) }

/-- `scoped::AX_reg`. -/
def registered {α : Type} (x : Option Transaction.XID → M Sender α) : M Sender α := do
  let trid ← axReg
  onExit (x trid) (if trid = none then axUnreg else pure ())

/-- What `dequeue` does with what it has received. -/
def received (r : Round) (trid : Option Transaction.XID) : Received → M Sender (List Message)
  | .reply correlation message => do
    if correlation ≠ r.request then throw .other
    note fun l => { l with taken := message.head?.map fun m => (m, trid) }
    return message
  | .shutdown => throw .shutdown

/-- `dequeue`, which blocks. -/
def dequeue (r : Round) : M Sender (List Message) :=
  registered fun trid =>
    onError (do received r trid (← MonadExcept.ofExcept (r.dequeue.ask false)))
      (MonadExcept.ofExcept (r.forget.ask false))

/-- `blocking::dequeue`. -/
def blockingDequeue (r : Round) : M Sender Message := do
  match ← dequeue r with
  | [] => throw .other
  | message :: _ => return message

/-- `enqueue`. -/
def enqueue (r : Round) (queue : String) (payload : Payload) : M Sender Unit :=
  registered fun trid => do
    MonadExcept.ofExcept (r.enqueue.ask true)
    note fun l => { l with enqueued := l.enqueued ++ [⟨queue, trid, payload⟩] }

/-! ## `Caller` -/

/-- What is done by the call context. -/
def onCall {α : Type} (x : Call.M Sender α) : M Sender α := fun s =>
  match x { s.call with transactions := s.tx.transactions } with
  | .ok a call => .ok a { s with call, tx := { s.tx with transactions := call.transactions } }
  | .error _ call => .error .other { s with call, tx := { s.tx with transactions := call.transactions } }

/-- `null_payload`. -/
def nullPayload : Payload := ⟨"NULL", []⟩

/-- The payload of the handle that `insert` gives, unless that is null. -/
def inserted (payload : Payload) : Option Payload :=
  if payload.type = nullPayload.type ∨ payload.memory = [] then none else some payload

/-- `release` of the buffer of a reply: a handle that is not null is in no pool when its payload is the null one. -/
def release (buffer : Payload) : Except Failure Payload :=
  if buffer.memory = [] then .ok nullPayload
  else if buffer.type = nullPayload.type then .error .other
  else .ok buffer

/-- `sync( m_service, buffer, size, buffer, size, TPNOTIME)`. -/
def sync [DecidableEq Sender] (task : Task) (r : Round) (payload : Payload) : Call.M Sender Call.Reply :=
  Call.sync r.env r.lookupCorrelation r.correlation task.service ((inserted payload).getD nullPayload) (inserted payload)
    TPNOTIME

/-- The reply queue of the task, or that of the message. -/
def replyQueue (task : Task) (message : Message) : String := if task.reply = "" then message.reply else task.reply

/-- `Caller::operator ()`. -/
def caller [DecidableEq Sender] (task : Task) (r : Round) (message : Message) : M Sender Unit := do
  MonadExcept.ofExcept r.insert
  let reply ← onCall (sync task r message.payload)
  note fun l => { l with reply := some reply }
  if replyQueue task message ≠ "" then
    let payload ← MonadExcept.ofExcept (release reply.buffer)
    enqueue r (replyQueue task message) payload

/-! ## `Dispatch` -/

/-- What `perform` does in a transaction; whether the guard is released. -/
def transact [DecidableEq Sender] (task : Task) (r : Round) : M Sender Bool := do
  caller task r (← blockingDequeue r)
  if (← txInfo) = .active then
    txCommit r
    return true
  else return false

/-- `perform`. -/
def perform [DecidableEq Sender] (task : Task) (r : Round) : M Sender Bool :=
  tryCatch (do
    if (← txBegin r) ≠ TX_OK then return false
    let released ← onError (transact task r) (txRollback r)
    if released = false then txRollback r
    return true)
  fun _ => return false

/-- What others do with its inbound queue, and a round of `execute`. -/
inductive Event (Sender : Type)
  | send (sender : Sender) (m : Complete)
  | put (sender : Sender)
  | perform (r : Round)

namespace Forwarder

/-- What happens on the net. -/
def onNet (s : Forwarder Sender) (f : Net Sender → Net Sender) : Forwarder Sender :=
  { s with call := { s.call with net := f s.call.net } }

variable [DecidableEq Sender]

/-- A round, and whether it is followed by another. -/
def round (task : Task) (r : Round) (s : Forwarder Sender) : Forwarder Sender :=
  let result := perform task r { s with log := .empty }
  { after result with
    history := (after result).history ++ [(after result).log]
    running := match result with
      | .ok more _ => more
      | .error _ _ => false }

/-- A message on the net, or a round. -/
def step (task : Task) (size : TransportSize) (s : Forwarder Sender) : Event Sender → Forwarder Sender
  | .send sender m => s.onNet (·.send size sender m)
  | .put sender => s.onNet (·.step (.put sender))
  | .perform r => s.round task r

/-- It is connected, with the resource of the queues, which is dynamic. -/
def fresh (process : Process) (rm : Nat) (dynamic fixed : List Nat) : Forwarder Sender where
  rm
  call := (System.initial : System Sender).context
  tx := Tx.fresh process dynamic fixed
  log := .empty
  history := []
  running := true

/-- The runs of a forward from its start. -/
def machine (task : Task) (size : TransportSize) : Machine (Forwarder Sender) (Event Sender) where
  init s := ∃ process rm dynamic fixed, rm ∈ dynamic ∧ s = fresh process rm dynamic fixed
  admits s e := match e with
    | .perform _ => s.running = true
    | _ => True
  step := step task size

end Forwarder

end Casual.Queue.Forward
