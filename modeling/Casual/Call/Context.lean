/-
`common/call/context.cpp` and `common/call/lookup.cpp`: how a process calls a service, takes a reply
and cancels a call.
-/
import Casual.Lib.Guard
import Casual.Common.Transaction
import Casual.Communication.Delivery
import Casual.Call.State
import Casual.Call.Transaction

namespace Casual.Call

open Lib Common Communication

variable {Sender : Type}

/-! ## Flags and messages -/

/-- The flags of `xatmi.h`. -/
abbrev Flags := BitVec 64

/-- A reply is not waited for. -/
def TPNOBLOCK : Flags := 0x1

/-- No reply is wanted. -/
def TPNOREPLY : Flags := 0x4

/-- The call is no part of the transaction of the caller. -/
def TPNOTRAN : Flags := 0x8

/-- The first reply of any call. -/
def TPGETANY : Flags := 0x80

/-- The type of the buffer must be that of the reply. -/
def TPNOCHANGE : Flags := 0x100

/-- `flag`. -/
def flag (value flags : Flags) : Bool := flags &&& value == value

/-- `Type::service_reply`. -/
def replyType : Int := 2006

/-- `buffer::Payload`. -/
structure Payload where
  type : String
  memory : List UInt8
  deriving DecidableEq

/-- `message::Service`. -/
structure Service where
  name : String
  trafficMonitors : List Nat
  deriving DecidableEq

/-- `service::lookup::Request::Context`. -/
inductive LookupContext
  | noReply
  | regular
  | forward
  deriving DecidableEq

/-- `service::lookup::Reply::State`. -/
inductive LookupState
  | absent
  | busy
  | idle
  deriving DecidableEq

/-- `service::lookup::Reply`. -/
structure LookupReply where
  service : Service
  process : Process
  state : LookupState
  deriving DecidableEq

/-- `service::call::caller::Request`. -/
structure Request where
  correlation : Uuid
  descriptor : Nat
  service : Service
  trid : Option Transaction.ID
  flags : Flags
  buffer : Payload
  deriving DecidableEq

/-- `service::call::Reply`. -/
structure Reply where
  correlation : Uuid
  descriptor : Nat
  error : Int
  code : Int
  buffer : Payload
  transaction : Outcome
  deriving DecidableEq

/-- What a process sends when it calls. -/
inductive Message
  | lookup (correlation : Uuid) (service : String) (context : LookupContext)
  | call (queue : Nat) (request : Request)
  | ack (process : Process) (service : String)
  deriving DecidableEq

/-! ## The state of a process -/

/-- What the singletons of a process hold: its inbound device, in the net of those that send to it, the
call descriptors and the user code, and the transactions. `lookup` is the correlation of the
`service::Lookup` there is, if any. -/
structure Context (Sender : Type) where
  net : Net Sender
  pending : Pending
  userCode : Int
  transactions : List Transaction
  lookup : Option Uuid
  sent : List Message
  steps : Nat

/-- What the functions of the context throw. -/
inductive Exception
  | argument
  | descriptor
  | noEntry
  | noMessage
  | output
  | support
  | system
  | timeout
  | other
  deriving DecidableEq, Repr

/-- What a process does not decide: how many transports a receive gets before it gives up, what fails,
and what is unmarshalled from a payload. -/
structure Surroundings where
  reads : Nat → Nat
  fails : Nat → Bool
  lookupReply : List UInt8 → LookupReply
  reply : List UInt8 → Reply

/-- `marshal::complete` of a reply: its correlation is that of the message. -/
def Surroundings.unmarshal (env : Surroundings) (m : Complete) : Reply :=
  { env.reply m.payload with correlation := m.correlation }

/-- What a caller does to its context. -/
abbrev M (Sender : Type) := EStateM Exception (Context Sender)

variable [DecidableEq Sender] (env : Surroundings)

/-- Something that can fail. -/
def attempt (e : Exception) : M Sender Unit := do
  let s ← get
  set { s with steps := s.steps + 1 }
  if env.fails s.steps then throw e

/-- `blocking::send`. -/
def send (message : Message) : M Sender Unit := do
  attempt env .other
  modify fun s => { s with sent := s.sent ++ [message] }

/-- `non::blocking::receive`. -/
def receiveNonBlocking (selector : Selector) : M Sender (Option Complete) := do
  let s ← get
  let reads := env.reads s.steps
  set { s with net := s.net.step (.next selector reads), steps := s.steps + 1 }
  return (s.net.device.next selector reads).1

/-- `blocking::receive`: without a message it is left by an exception, of a signal. -/
def receiveBlocking (selector : Selector) : M Sender Complete := do
  match ← receiveNonBlocking env selector with
  | some m => return m
  | none => throw .timeout

/-- `discard` of the inbound device. -/
def discardCorrelation (correlation : Uuid) : M Sender Unit :=
  modify fun s => { s with net := s.net.step (.discard correlation) }

/-! ## `service::Lookup` -/

/-- `Lookup( service, context)`. -/
def lookup (correlation : Uuid) (service : String) (context : LookupContext) : M Sender Unit := do
  send env (.lookup correlation service context)
  modify fun s => { s with lookup := some correlation }

/-- `operator ()`. After a busy reply another one is expected. -/
def lookupReply : M Sender LookupReply := do
  match (← get).lookup with
  | none => throw .other
  | some correlation =>
    let m ← receiveBlocking env (.correlation correlation)
    let result := env.lookupReply m.payload
    if result.state ≠ .busy then
      modify fun s => { s with lookup := none }
    return result

/-- `~Lookup`. -/
def lookupDone : M Sender Unit := do
  match (← get).lookup with
  | none => pure ()
  | some correlation =>
    discardCorrelation correlation
    modify fun s => { s with lookup := none }

/-! ## `Context` -/

/-- `unreserve`. -/
def unreserve (descriptor : Nat) : M Sender Unit := do
  match (← get).pending.unreserve descriptor with
  | none => throw .descriptor
  | some pending => modify fun s => { s with pending }

/-- `get`. -/
def getDescriptor (descriptor : Nat) : M Sender Descriptor := do
  match (← get).pending.get descriptor with
  | none => throw .descriptor
  | some found => return found

/-- `deadline`: what it checks. -/
def deadline (descriptor : Nat) : M Sender Unit := do
  if descriptor ≠ 0 then
    let _ ← getDescriptor descriptor

/-- `validate::input`. -/
def validateInput (flags : Flags) : M Sender LookupContext := do
  let current := (← get).transactions.getLast?.bind (·.trid)
  if flag TPNOREPLY flags ∧ ¬ flag TPNOTRAN flags ∧ current.isSome then throw .argument
  return if flag TPNOREPLY flags then .noReply else .regular

/-- `transaction.associate( descriptor)` of the current transaction, when there is one. -/
def associate (descriptor : Nat) : List Transaction → List Transaction
  | [] => []
  | [t] => if h : t.trid = none then [t] else [t.associate h descriptor]
  | t :: rest => t :: associate descriptor rest

/-- `prepare::message`. -/
def prepareMessage (correlation : Uuid) (input : Payload) (flags : Flags) (service : Service) : M Sender Request := do
  attempt env .argument
  if flag TPNOREPLY flags then
    return { correlation, descriptor := 0, service, trid := none, flags, buffer := input }
  else
    let s ← get
    let (pending, descriptor) := s.pending.reserve correlation
    let trid := if flag TPNOTRAN flags then none else s.transactions.getLast?.bind (·.trid)
    let transactions := if trid.isSome then associate descriptor s.transactions else s.transactions
    set { s with pending, transactions }
    return { correlation, descriptor, service, trid, flags, buffer := input }

/-- `async`, from where the service has been found. The guard that acknowledges for the instance does so for
the target as it is then. -/
def asyncFound (correlation : Uuid) (input : Payload) (flags : Flags) (target : LookupReply) : M Sender Nat := do
  let message ← prepareMessage env correlation input flags target.service
  onError (do
    let target ← onError (do
        deadline message.descriptor
        if target.state = .busy then lookupReply env else return target)
      (send env (.ack target.process target.service.name))
    onError (send env (.call target.process.queue { message with service := target.service }))
      (send env (.ack target.process target.service.name)))
    (unreserve message.descriptor)
  return message.descriptor

/-- `async`. -/
def async (lookupCorrelation correlation : Uuid) (service : String) (input : Payload) (flags : Flags) :
    M Sender Nat := do
  let context ← validateInput flags
  lookup env lookupCorrelation service context
  onExit (do
    attempt env .other
    let target ← lookupReply env
    if target.state = .absent then throw .noEntry else asyncFound env correlation input flags target)
    lookupDone

/-- `local::receive`. -/
def receiveFlags (flags : Flags) (selector : Selector) : M Sender (Option Complete) := do
  if flag TPNOBLOCK flags then receiveNonBlocking env selector
  else return some (← receiveBlocking env selector)

/-- `Context::receive`. -/
def receive (descriptor : Nat) (flags : Flags) : M Sender (Option Complete) := do
  if descriptor = 0 then receiveFlags env flags (.type replyType)
  else
    let found ← getDescriptor descriptor
    receiveFlags env flags (.correlation found.correlation)

/-- `transaction::Context::update`. -/
def updateTransaction (reply : Reply) : M Sender Unit := do
  match update reply.transaction reply.descriptor (← get).transactions with
  | none => throw .system
  | some transactions => modify fun s => { s with transactions }

/-- What `reply` checks about the buffer that is handed in, before it deallocates it. -/
def checkOutput (reply : Reply) (output : Option Payload) (flags : Flags) : M Sender Unit :=
  match output with
  | none => pure ()
  | some output => do
    attempt env .argument
    if flag TPNOCHANGE flags ∧ output.type ≠ reply.buffer.type then throw .output

/-- `reply`. `output` is the payload of the buffer that is handed in, unless it is null. -/
def reply (descriptor : Nat) (output : Option Payload) (flags : Flags) : M Sender Reply := do
  let descriptor := if flag TPGETANY flags then 0 else descriptor
  deadline descriptor
  match ← receive env descriptor flags with
  | none => throw .noMessage
  | some m =>
    let reply := env.unmarshal m
    modify fun s => { s with userCode := reply.code }
    onExit (do
      updateTransaction reply
      checkOutput env reply output flags
      attempt env .other
      return reply)
      (unreserve reply.descriptor)

/-- `sync`. -/
def sync (lookupCorrelation correlation : Uuid) (service : String) (input : Payload) (output : Option Payload)
    (flags : Flags) : M Sender Reply := do
  let supported := ~~~ TPNOBLOCK &&& flags
  let descriptor ← async env lookupCorrelation correlation service input supported
  reply env descriptor output supported

/-- `State::Pending::discard`. -/
def cancel (descriptor : Nat) : M Sender Unit := do
  if associated (← get).transactions descriptor then throw .support
  else
    let found ← getDescriptor descriptor
    discardCorrelation found.correlation
    unreserve descriptor

end Casual.Call
