/-
`common/server/context.h` and `common/server/service.h`: what a server keeps while it serves a call, what it
sends, and the guards around the call.
-/
import Casual.Call.Context

namespace Casual.Server

open Lib Common Communication Call

variable {Sender : Type}

/-- The service has failed. -/
def TPFAIL : Int := 1

/-- The service has succeeded. -/
def TPSUCCESS : Int := 2

/-- The error of a reply when something is wrong with the service. -/
def TPESVCERR : Int := 10

/-- The error of a reply when the service has failed. -/
def TPESVCFAIL : Int := 11

/-- `Service::Transaction`. -/
inductive Mode
  | automatic
  | join
  | atomic
  | none
  deriving DecidableEq, Repr

/-! ## Messages -/

/-- `service::call::callee::Request`. -/
structure Request where
  correlation : Uuid
  parent : String
  descriptor : Nat
  process : Process
  service : Service
  trid : Option Transaction.ID
  flags : Flags
  buffer : Payload
  deriving DecidableEq

/-- `TPSVCINFO`. -/
structure Information where
  name : String
  data : Payload
  flags : Flags
  descriptor : Nat
  deriving DecidableEq

/-- What the pool has for the buffer a service leaves with. -/
inductive Buffer
  | null
  | known (payload : Payload)
  | unknown
  deriving DecidableEq

/-- How a service is left: by a return, an exception or one of the two jumps. -/
inductive Left
  | returned
  | threw
  | tpreturn (value : Int) (code : Int) (buffer : Buffer)
  | forward (service : String) (buffer : Buffer)
  deriving DecidableEq

/-- What a server sends for a call, apart from what it calls itself. -/
inductive Sent
  | ack (process : Process) (service : String)
  | reply (queue : Nat) (reply : Reply)
  | forward (queue : Nat) (request : Request)
  | involved (process : Process) (trid : Transaction.ID) (resources : List Nat)
  | event (queue : Nat) (service parent : String) (process : Process)
  deriving DecidableEq

/-- `transaction::commit::Request` and `transaction::rollback::Request`. -/
structure TransactionRequest where
  trid : Transaction.ID
  process : Process
  resources : List Nat
  deriving DecidableEq

/-- `commit::Reply::Stage`. -/
inductive Stage
  | prepare
  | commit
  | error
  deriving DecidableEq, Repr

/-- `transaction::commit::Reply`. -/
structure CommitReply where
  correlation : Uuid
  stage : Stage
  state : Int
  deriving DecidableEq

/-! ## The state of a call -/

/-- The guards of `dispatch`. -/
inductive Guard
  | ack
  | reply
  | errorReply
  | transaction
  | monitor
  deriving DecidableEq, Repr

/-- What is there while a call is served: the singletons of the process, the caller's transaction, the reply
and the guards that are armed, and what has been sent for the call. `results` and `completed` say how far
`finalize` came: what became of the transactions it has completed, and whether it came to its end. -/
structure State (Sender : Type) where
  context : Context Sender
  caller : Option Transaction.ID
  reply : Reply
  armed : List Guard
  sent : List Sent
  results : List Int
  completed : Bool

/-- Where a call can fail. -/
inductive Place
  | ack
  | reply
  | involved
  | information
  | preService
  | postService
  | forward
  | event (queue : Nat)
  deriving DecidableEq, Repr

/-- What is thrown while a call is handled. -/
inductive Exception
  | system
  | service
  | transaction
  | call (e : Call.Exception)
  | other
  deriving DecidableEq, Repr

/-- What a server does not decide: its services and what they do, the resources it is linked with, the id that
is created when a transaction is started, what fails, and what the resources and the TM answer when the
transactions are completed, the first, the second and so on. Without an answer the call throws. -/
structure Surroundings (Sender : Type) where
  process : Process
  all : List Nat
  fixed : List Nat
  logged : Bool
  services : String → Option Mode
  user : Information → Context Sender → Left × Context Sender
  created : Transaction.ID
  owned : created.owner = process
  call : Call.Surroundings
  lookupCorrelation : Uuid
  fails : Place → Bool
  resource : Nat → Int
  commit : Nat → TransactionRequest → Option CommitReply
  committed : Nat → Option Int
  rollback : Nat → TransactionRequest → Option Int

/-- What handling a call does to the server. -/
abbrev M (Sender : Type) := EStateM Exception (State Sender)

/-- What is done with the singletons. -/
def onContext {α : Type} (x : Call.M Sender α) : M Sender α := fun s =>
  match x s.context with
  | .ok a context => .ok a { s with context }
  | .error e context => .error (.call e) { s with context }

variable (env : Surroundings Sender)

/-- Something that can fail. -/
def attempt (place : Place) : M Sender Unit := do
  if env.fails place then throw .other

/-- `blocking::send`. -/
def send (place : Place) (message : Sent) : M Sender Unit := do
  attempt env place
  modify fun s => { s with sent := s.sent ++ [message] }

/-! ## Guards -/

/-- `release`. -/
def release (guard : Guard) : M Sender Unit :=
  modify fun s => { s with armed := s.armed.filter (· ≠ guard) }

/-- `operator ()` of a guard: what it executes is swapped out first. -/
def fire (guard : Guard) (execute : M Sender Unit) : M Sender Unit := do
  if guard ∈ (← get).armed then
    release guard
    execute

/-- The scope of a guard. -/
def scope {α : Type} (guard : Guard) (execute : M Sender Unit) (body : M Sender α) : M Sender α := do
  modify fun s => { s with armed := guard :: s.armed }
  onExit body (fire guard execute)

end Casual.Server
