/-
`queue/api/rm/queue.cpp`: a process that dequeues, and is interrupted while it waits, and the queue group
it dequeues from.
-/
import Casual.Lib.Run
import Casual.Queue.Handlers
import Casual.Queue.Statistics

namespace Casual.Queue

open Casual.Common Casual.Communication Casual.Lib

/-- What a process is doing in `local::dequeue`. -/
inductive Phase
  | idle
  -- `blocking_next`
  | waiting (request : Message.DequeueRequest)
  -- an exception is in flight, and `forget_blocking` looks up the queue
  | leaving (request : Message.DequeueRequest)
  -- `forget_blocking` waits for the reply with its correlation
  | forgetting (request : Message.DequeueRequest) (correlation : Uuid)
  deriving DecidableEq

/-- The request of a call that has not ended. -/
def Phase.current : Phase → List Message.DequeueRequest
  | .idle => []
  | .waiting request => [request]
  | .leaving request => [request]
  | .forgetting request _ => [request]

/-- What the process sends to the group. -/
inductive Outgoing
  | dequeue (message : Message.DequeueRequest)
  | forget (message : Message.ForgetRequest)
  deriving DecidableEq

/-- The process, and the uuids that are made for what it sends. -/
structure Caller where
  process : Process
  make : Nat → Uuid

/-- A group and the process, what is on its way between them in the order it was sent, and what has come of
the calls: the requests that were made, those that returned with a reply, and those that threw. -/
structure Dequeuing where
  group : Group
  phase : Phase
  made : Nat
  outgoing : List Outgoing
  inbox : List Reply
  asked : List Message.DequeueRequest
  returned : List (Message.DequeueRequest × Message.DequeueReply)
  thrown : List Message.DequeueRequest

/-- Who sends the message of an event. -/
def Event.requester : Event → Option Process
  | .enqueue message => some message.process
  | .dequeue message => some message.process
  | .forget message => some message.process
  | .commit message => some message.process
  | .rollback message => some message.process
  | .dead _ => none
  | .persist => none

/-- What is sent is a message of the group. -/
def Outgoing.event : Outgoing → Event
  | .dequeue message => .dequeue message
  | .forget message => .forget message

namespace Dequeuing

/-- What happens: `dequeue` is called, takes a reply, is interrupted by a signal or a shutdown message, sends its
forget request, takes the reply to it; the group reads a message of the process, or handles one of others. -/
inductive Action
  | call (trid : Option Transaction.ID) (queue : Nat) (selector : Message.Selector) (block : Bool)
  | receive
  | interrupt
  | forget
  | forgotten
  | read
  | other (e : Event)

variable (c : Caller) (env : Environment)

/-- The group has handled a message: what it has sent to the process arrives there. -/
def handled (w : Dequeuing) (e : Event) : Dequeuing :=
  let group := w.group.step env e
  { w with
    group := group
    inbox := w.inbox ++ ((group.sent.drop w.group.sent.length).filter fun x => x.1 == c.process.queue).map (·.2) }

/-- A dequeue reply is what `blocking_next` takes, whatever its correlation. -/
def Reply.isDequeue : Reply → Bool
  | .dequeue _ => true
  | _ => false

/-- The reply to a forget request. -/
def Reply.forgets (correlation : Uuid) : Reply → Bool
  | .forget other _ => other == correlation
  | _ => false

/-- The first dequeue reply is taken: it is the result, or an exception is thrown. -/
def received (w : Dequeuing) (request : Message.DequeueRequest) : Dequeuing :=
  match w.inbox.find? Reply.isDequeue with
  | some (.dequeue reply) =>
    let w := { w with inbox := w.inbox.eraseP Reply.isDequeue }
    if reply.correlation = request.correlation then
      { w with phase := .idle, returned := w.returned ++ [(request, reply)] }
    else { w with phase := .leaving request }
  | _ => w

/-- The call ends with an exception. `~Execute` swallows what is thrown while it forgets. -/
def throws (w : Dequeuing) (request : Message.DequeueRequest) : Dequeuing :=
  { w with phase := .idle, thrown := w.thrown ++ [request] }

/-- What the caller or the group does. -/
def step (w : Dequeuing) (a : Action) : Dequeuing :=
  match a, w.phase with
  | .call trid queue selector block, .idle =>
    let request : Message.DequeueRequest := ⟨c.make w.made, c.process, trid, queue, selector, block⟩
    { w with
      phase := .waiting request
      made := w.made + 1
      outgoing := w.outgoing ++ [.dequeue request]
      asked := w.asked ++ [request] }
  | .receive, .waiting request => w.received request
  | .interrupt, .waiting request => { w with phase := .leaving request }
  | .interrupt, .leaving request => w.throws request
  | .interrupt, .forgetting request _ => w.throws request
  | .forget, .leaving request =>
    { w with
      phase := .forgetting request (c.make w.made)
      made := w.made + 1
      outgoing := w.outgoing ++ [.forget ⟨c.make w.made, c.process, request.queue⟩] }
  | .forgotten, .forgetting request correlation =>
    if w.inbox.any (Reply.forgets correlation) then
      throws { w with inbox := w.inbox.eraseP (Reply.forgets correlation) } request
    else w
  | .read, _ =>
    match w.outgoing with
    | message :: rest => handled c env { w with outgoing := rest } message.event
    | [] => w
  | .other e, _ => handled c env w e
  | _, _ => w

/-- No uuid is made twice, the group runs, and others are other processes. -/
def admits (w : Dequeuing) : Action → Prop
  | .call .. => ∀ i < w.made, c.make i ≠ c.make w.made
  | .forget => ∀ i < w.made, c.make i ≠ c.make w.made
  | .read => w.group.running = true
  | .other e => w.group.running = true ∧ ∀ process ∈ e.requester, process.queue ≠ c.process.queue
  | _ => True

/-- The runs of a process and a group that has just opened its queuebase. -/
def dequeuing : Machine Dequeuing Action where
  init w := ∃ db, queuebase.Reachable db ∧ w = ⟨Group.start db, .idle, 0, [], [], [], [], []⟩
  admits w a := admits c w a
  step w a := w.step c env a

end Dequeuing

end Casual.Queue
