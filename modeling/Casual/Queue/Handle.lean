/-
`queue/group/handle.cpp` and the pump of `group.cpp`: the state of a queue group and what it does
with a message.
-/
import Casual.Lib.Triple
import Casual.Queue.Database
import Casual.Queue.Pending

namespace Casual.Queue

open Casual.Common Casual.Communication Casual.Lib

/-! ## State -/

/-- The messages a queue group sends. -/
inductive Reply
  | enqueue (correlation : Uuid) (reply : Message.EnqueueReply)
  | dequeue (reply : Message.DequeueReply)
  | forget (correlation : Uuid) (found : Bool)
  | commit (correlation : Uuid) (trid : Transaction.ID) (state : Int)
  | rollback (correlation : Uuid) (trid : Transaction.ID) (state : Int)
  | involved (trid : Option Transaction.ID)
  deriving DecidableEq

/-- The resource has done what it was asked for. -/
def XA_OK : Int := 0

/-- The resource has failed. -/
def XAER_RMFAIL : Int := -7

/-- What a queue group does not decide: what the clock says, which uuids are made, and which queues
of receivers are gone or full when something is sent to them, by the number of the reading. -/
structure Environment where
  clock : Nat → Int
  make : Nat → Uuid
  gone : Nat → Nat → Bool
  full : Nat → Nat → Bool
  broker : Nat

/-- `group::State`, the readings of the environment, what has been sent, what could not be sent as
the queue of the receiver is gone, and whether the pump is still running. -/
structure Group where
  queuebase : Database
  persistent : List (Nat × Reply)
  pending : Pending
  readings : Nat
  sent : List (Nat × Reply)
  refused : List (Nat × Reply)
  running : Bool

namespace Group

variable (env : Environment)

/-- What a group does to its state. -/
abbrev M (α : Type) := EStateM Exception Group α

/-- The number of a reading of the environment. -/
def reading : M Nat := fun s => .ok s.readings { s with readings := s.readings + 1 }

/-- An operation of the queuebase. -/
def base {α : Type} (x : EStateM Exception Database α) : M α := fun s =>
  match x s.queuebase with
  | .ok a db => .ok a { s with queuebase := db }
  | .error e db => .error e { s with queuebase := db }

/-- `blocking::send`. -/
def send (queue : Nat) (reply : Reply) : M Unit := fun s =>
  if env.gone s.readings queue then
    .error .unavailable { s with readings := s.readings + 1, refused := s.refused ++ [(queue, reply)] }
  else .ok () { s with readings := s.readings + 1, sent := s.sent ++ [(queue, reply)] }

/-- `State::persist`. -/
def persist (queue : Nat) (reply : Reply) : M Unit := fun s =>
  .ok () { s with persistent := s.persistent ++ [(queue, reply)] }

/-- The requests that wait are others. -/
def setPending (f : Pending → Pending) : M Unit := fun s => .ok () { s with pending := f s.pending }

/-! ## Handlers -/

/-- `local::involved`. -/
def involved (trid : Option Transaction.ID) : M Unit := send env env.broker (.involved trid)

/-- `catch( const sql::database::exception::Base&)`. -/
def catchQuery {α : Type} (x : M α) (a : α) : M α :=
  tryCatch x fun e =>
    match e with
    | .query => pure a
    | .unavailable => throw .unavailable

/-- `dequeue::request`. -/
def dequeueRequest (message : Message.DequeueRequest) : M Bool :=
  catchQuery (do
    let n ← reading
    let reply ← base (Database.dequeue message (env.clock n))
    if message.block && reply.message.isEmpty then
      setPending fun p => p.dequeue message
      return false
    else
      if !reply.message.isEmpty && message.trid.isSome then
        involved env message.trid
      send env message.process.queue (.dequeue { reply with correlation := message.correlation })
      return true) false

/-- The loop of `pending::replies` over the requests that a commit wakes. -/
def wake : List Message.DequeueRequest → (Nat → Nat) → M Unit
  | [], _ => pure ()
  | request :: rest, enqueued => do
    let enqueued ← tryCatch (do
      if enqueued request.queue > 0 then
        if ← dequeueRequest env request then
          return Function.update enqueued request.queue (enqueued request.queue - 1)
        else
          -- put it back in pending
          setPending fun p => p.dequeue request
          return enqueued
      else
        return enqueued) fun e =>
      match e with
      | .unavailable => pure enqueued
      | .query => throw .query
    wake rest enqueued

/-- `pending::replies`. -/
def replies (trid : Option Transaction.XID) : M Unit := fun s =>
  let r := s.pending.commit trid
  wake env r.1.requests r.1.enqueued { s with pending := r.2 }

/-- `enqueue::Request`. -/
def enqueueRequest (message : Message.EnqueueRequest) : M Unit :=
  catchQuery (do
    let n ← reading
    let reply ← base (Database.enqueue message (env.make n) (env.clock n))
    setPending fun p => p.enqueue (message.trid.map (·.xid)) message.queue
    if message.trid.isSome then
      involved env message.trid
      send env message.process.queue (.enqueue message.correlation reply)
    else
      persist message.process.queue (.enqueue message.correlation reply)
      replies env (message.trid.map (·.xid))) ()

/-- `dequeue::forget::Request`. -/
def forgetRequest (message : Message.ForgetRequest) : M Unit :=
  tryCatch (do
    let found ← (fun s => .ok (s.pending.forget message).1 { s with pending := (s.pending.forget message).2 } : M Bool)
    send env message.process.queue (.forget message.correlation found)) fun _ => pure ()

/-- `transaction::commit::Request`. -/
def commitRequest (message : Message.TransactionRequest) : M Unit := do
  let state ← tryCatch (do
    base (Database.commit message.trid)
    replies env (some message.trid.xid)
    return XA_OK) fun _ => pure XAER_RMFAIL
  persist message.process.queue (.commit message.correlation message.trid state)

/-- `transaction::rollback::Request`. -/
def rollbackRequest (message : Message.TransactionRequest) : M Unit := do
  let state ← tryCatch (do
    base (Database.rollback message.trid)
    setPending fun p => p.rollback (some message.trid.xid)
    return XA_OK) fun _ => pure XAER_RMFAIL
  persist message.process.queue (.rollback message.correlation message.trid state)

/-- `dead::Process`. -/
def deadProcess (pid : Nat) : M Unit := setPending fun p => p.erase pid

/-- The persistent replies that are left when each has been tried once, without blocking. -/
def flush : List (Nat × Reply) → M (List (Nat × Reply))
  | [] => pure []
  | (queue, reply) :: rest => do
    let n ← reading
    if env.gone n queue then
      flush rest
    else if env.full n queue then
      let left ← flush rest
      return (queue, reply) :: left
    else
      (fun s => .ok () { s with sent := s.sent ++ [(queue, reply)] } : M Unit)
      flush rest

/-- The persist step of the pump, after the writes to the queuebase were committed. -/
def persistStep : M Unit := fun s =>
  match flush env s.persistent s with
  | .ok left s => .ok () { s with persistent := left }
  | .error e s => .error e s

end Group

/-! ## Events -/

/-- A message the pump gets, or its persist step. -/
inductive Event
  | dead (pid : Nat)
  | enqueue (message : Message.EnqueueRequest)
  | dequeue (message : Message.DequeueRequest)
  | forget (message : Message.ForgetRequest)
  | commit (message : Message.TransactionRequest)
  | rollback (message : Message.TransactionRequest)
  | persist

namespace Group

/-- What the dispatch does with a message, and the pump between messages. -/
def handle (env : Environment) : Event → M Unit
  | .dead pid => deadProcess pid
  | .enqueue message => enqueueRequest env message
  | .dequeue message => do let _ ← dequeueRequest env message
  | .forget message => forgetRequest env message
  | .commit message => commitRequest env message
  | .rollback message => rollbackRequest message
  | .persist => persistStep env

/-- An exception that no handler catches ends the pump. -/
def step (env : Environment) (s : Group) (e : Event) : Group :=
  match handle env e s with
  | .ok _ s => s
  | .error _ s => { s with running := false }

/-- A group that has just opened its queuebase. -/
def start (queuebase : Database) : Group := ⟨queuebase, [], .empty, 0, [], [], true⟩

end Group

end Casual.Queue
