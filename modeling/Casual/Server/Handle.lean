/-
`common/server/handle.h` and `common/server/handle.cpp`: how a server serves a call.
-/
import Casual.Server.Transaction

namespace Casual.Server

open Lib Common Communication Call

variable {Sender : Type} [DecidableEq Sender] (env : Surroundings Sender)

/-! ## Transforms -/

/-- `Payload( nullptr)`. -/
def nullPayload : Payload := ⟨"NULL", []⟩

/-- `transform::reply` of the message. -/
def transformMessage (message : Request) : Reply where
  correlation := message.correlation
  descriptor := message.descriptor
  error := TPESVCERR
  code := 0
  buffer := nullPayload
  transaction := ⟨none, .active⟩

/-- `transform::reply` of the jump. -/
def transformJump (code : Int) (buffer : Buffer) (reply : Reply) : Reply :=
  match buffer with
  | .null => { reply with code, error := 0, buffer := nullPayload }
  | .known payload => { reply with code, error := 0, buffer := payload }
  | .unknown => { reply with code, error := TPESVCERR }

/-- `transform::service::information`. -/
def information (message : Request) : Information :=
  ⟨message.service.name, message.buffer, message.flags, message.descriptor⟩

/-! ## `policy::Default` -/

/-- `ack`. -/
def ack (message : Request) : M Sender Unit := send env .ack (.ack env.process message.service.name)

/-- `reply`, for a caller that expects one. -/
def sendReply (message : Request) : M Sender Unit := do
  let reply := (← get).reply
  if flag TPNOREPLY message.flags then pure () else send env .reply (.reply message.process.queue reply)

/-- `statistics`: what it throws goes no further. -/
def statistics (message : Request) (queue : Nat) : M Sender Unit :=
  tryCatch (send env (.event queue) (.event queue message.service.name message.parent env.process)) fun _ => pure ()

/-- What is executed for the traffic monitors. -/
def monitor (message : Request) : M Sender Unit := message.service.trafficMonitors.forM (statistics env message)

/-- `release` of the buffer pool. -/
def releaseBuffer : Buffer → M Sender Payload
  | .null => return nullPayload
  | .known payload => return payload
  | .unknown => throw .other

/-- What `forward` has of its lookup. -/
def forwardTarget : Call.M Sender LookupReply := do
  let target ← lookupReply env.call
  if target.state = .absent then throw .noEntry
  else if target.state = .busy then lookupReply env.call
  else return target

/-- `forward`. -/
def forward (message : Request) (service : String) (buffer : Buffer) : M Sender Unit := do
  if pending env (← get).context.transactions then throw .service
  else do
    onContext (lookup env.call env.lookupCorrelation service .forward)
    onExit (do
      let buffer ← releaseBuffer buffer
      let target ← onContext (forwardTarget env)
      send env .forward (.forward target.process.queue
        { message with parent := message.service.name, service := target.service, buffer }))
      (onContext lookupDone)

/-! ## `dispatch` -/

/-- The call of the service, and what is done before it. -/
def invoke (message : Request) : M Sender Left := do
  match env.services message.service.name with
  | none => throw .system
  | some mode =>
    modify fun s =>
      { s with
        caller := message.trid
        context := { s.context with transactions := joined env mode message.trid s.context.transactions } }
    attempt env .information
    attempt env .preService
    let s ← get
    let (left, context) := env.user (information message) s.context
    set { s with context }
    return left

/-- The service has been left by a forward. -/
def forwarded (message : Request) (service : String) (buffer : Buffer) : M Sender Unit := do
  if ! (← get).context.pending.empty then throw .service
  else if (env.services service).isSome then throw .service
  else do
    forward env message service buffer
    release .reply
    release .errorReply

/-- The service has been left by a `tpreturn`. -/
def returned (message : Request) (value code : Int) (buffer : Buffer) : M Sender Unit := do
  attempt env .postService
  modify fun s => { s with reply := transformJump code buffer s.reply }
  scope .transaction (finalize env value) do
    release .errorReply
    scope .monitor (monitor env message) do
      fire .ack (ack env message)
      fire .transaction (finalize env value)
      fire .reply (sendReply env message)
      fire .monitor (monitor env message)

/-- `dispatch`. -/
def dispatch (message : Request) : M Sender Unit :=
  scope .ack (ack env message) do
    modify fun s => { s with reply := transformMessage message }
    scope .reply (sendReply env message) do
      scope .errorReply (finalize env TPESVCERR) do
        match ← invoke env message with
        | .returned => throw .service
        | .threw => throw .service
        | .forward service buffer => forwarded env message service buffer
        | .tpreturn value code buffer => returned env message value code buffer

/-- A process that serves no call, with the transaction of the caller it served last. -/
def State.make (context : Context Sender) (caller : Option Transaction.ID) : State Sender :=
  ⟨context, caller, ⟨0, 0, 0, 0, nullPayload, ⟨none, .active⟩⟩, [], [], [], false⟩

/-- `operator ()`: what `dispatch` throws goes no further. -/
def handle (message : Request) (context : Context Sender) (caller : Option Transaction.ID) : State Sender :=
  after (dispatch env message (State.make context caller))

end Casual.Server
