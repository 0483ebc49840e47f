/-
`broker/source/handle.cpp`: what the broker does with the messages it gets.
-/
import Casual.Broker.State

namespace Casual.Broker

open Casual.Common Casual.Communication Casual.Lib

/-- `operator <` of handles. -/
instance : LT Process where
  lt lhs rhs := if lhs.pid = rhs.pid then lhs.queue < rhs.queue else lhs.pid < rhs.pid

instance (lhs rhs : Process) : Decidable (lhs < rhs) :=
  inferInstanceAs (Decidable (if lhs.pid = rhs.pid then lhs.queue < rhs.queue else lhs.pid < rhs.pid))

namespace State

variable (env : Environment)

/-! ## Sending -/

/-- The number of a reading of the environment. -/
def reading : M Nat := fun s => .ok s.readings { s with readings := s.readings + 1 }

/-- A message is sent. -/
def push (queue : Nat) (reply : Reply) (s : State) : State := { s with sent := s.sent ++ [(queue, reply)] }

/-- `blocking_send`. -/
def blockingSend (queue : Nat) (reply : Reply) : M Unit := do
  let n ← reading
  if env.gone n queue then throw .unavailable
  modify (push queue reply)

/-- `non_blocking_send`. -/
def nonBlockingSend (queue : Nat) (reply : Reply) : M Bool := do
  let n ← reading
  if env.gone n queue then throw .unavailable
  if env.full n queue then return false
  modify (push queue reply)
  return true

/-- `pending::send` to all targets: those that are left. -/
def pendingSend (reply : Reply) : List Nat → M (List Nat)
  | [] => pure []
  | queue :: targets => do
    let n ← reading
    if env.gone n queue then pendingSend reply targets
    else if env.full n queue then
      let left ← pendingSend reply targets
      return queue :: left
    else
      modify (push queue reply)
      pendingSend reply targets

/-- `catch( const state::exception::Missing&)`. -/
def catchMissing (x handler : M Unit) : M Unit :=
  tryCatch x fun e =>
    match e with
    | .missing => handler
    | e => throw e

/-! ## Processes that are looked up -/

/-- `lookup::Process`. -/
def lookupProcess (message : ProcessLookup) : M Unit := do
  let s ← get
  let sendReply (process : Process) : M Unit := do
    let reply := Reply.process message.correlation message.identification process
    if !(← nonBlockingSend env message.process.queue reply) then
      modify fun s => { s with replies := s.replies ++ [([message.process.queue], reply)] }
  match s.singletons.find? fun entry => entry.1 == message.identification with
  | some found => sendReply found.2
  | none =>
    if message.wait then modify fun s => { s with processLookup := s.processLookup ++ [message] }
    else sendReply nullProcess

/-- A singleton in its place among the others. -/
def insertSingleton (identification : Uuid) (process : Process) : List (Uuid × Process) → List (Uuid × Process)
  | [] => [(identification, process)]
  | entry :: rest =>
    if identification < entry.1 then (identification, process) :: entry :: rest
    else entry :: insertSingleton identification process rest

/-- The part of `connect` for a message with an identification: whether the process may go on. -/
def connectSingleton (message : ConnectRequest) : M Bool := do
  let s ← get
  match s.singletons.find? fun entry => entry.1 == message.identification with
  | some found =>
    if found.2 ≠ message.process then
      blockingSend env message.process.queue (.connect message.correlation .singleton)
      let i ← getInstance message.process.pid
      let server ← getServer i.server
      modify (setServer server.id fun server => { server with configuredInstances := 1 })
      return false
    else return true
  | none =>
    modify fun s => { s with
      singletons := insertSingleton message.identification message.process s.singletons, processLookup := [] }
    s.processLookup.forM (lookupProcess env)
    return true

/-- `local::handle::connect`. -/
def connect (message : ConnectRequest) : M Bool := do
  if (← get).shutdownMode then
    blockingSend env message.process.queue (.connect message.correlation .shutdown)
    return false
  else
    let accepted ← if message.identification ≠ 0 then connectSingleton env message else pure true
    if accepted then
      blockingSend env message.process.queue (.connect message.correlation .start)
    return accepted

/-! ## Services -/

/-- `Advertise`. -/
def advertise (pid : Nat) (services : List Information) : M Unit :=
  catchMissing (addServices pid (services.map Service.transform)) (pure ())

/-- `Unadvertise`. -/
def unadvertise (pid : Nat) (services : List Information) : M Unit :=
  catchMissing (removeServices pid (services.map Service.transform)) (pure ())

/-- The queue of an instance is known when it connects. -/
def located (message : ConnectRequest) : State → State :=
  setInstance message.process.pid fun i => { i with process := { i.process with queue := message.process.queue } }

/-- `Connect`. A process that was not started by the broker is terminated. -/
def connectServer (message : ConnectRequest) : M Unit :=
  catchMissing (do
    let _ ← getInstance message.process.pid
    modify (located message)
    if ← connect env message then
      addServices message.process.pid (message.services.map Service.transform)
      modify (alterState message.process.pid .idle)) (pure ())

/-- `traffic::Connect`: a monitor that has connected already is ignored. -/
def connectMonitor (message : ConnectRequest) : M Unit := do
  if ← connect env message then
    modify fun s =>
      if s.monitors.contains message.process.queue then s
      else { s with monitors := s.monitors ++ [message.process.queue] }

/-- `transaction::manager::Connect`: the manager is sent its configuration. -/
def connectManager (message : ConnectRequest) : M Unit := do
  if ← connect env message then
    blockingSend env message.process.queue (.configuration message.correlation)

/-- `transaction::client::Connect`: a process that is no instance gets a reply without its correlation. -/
def connectClient (message : ConnectRequest) : M Unit :=
  catchMissing (do
    let _ ← getInstance message.process.pid
    let _ ← connect env message
    return ()) (blockingSend env message.process.queue (.connect 0 .start))

/-- `forward::Connect`. -/
def connectForward (message : ConnectRequest) : M Unit := do
  if ← connect env message then
    modify fun s => { s with forward := message.process }

/-- `filter::instance::Idle`. -/
def idle (s : State) (pid : Nat) : Bool := (s.instances pid).any fun i => i.state == .idle

/-- `ServiceLookup`. -/
def serviceLookup (message : LookupRequest) : M Unit :=
  catchMissing (do
    let service ← getService message.requested
    let s ← get
    let information := { service.information with monitors := s.monitors }
    match service.instances.find? s.idle with
    | some pid =>
      let i ← getInstance pid
      modify (alterState pid .busy)
      blockingSend env message.process.queue (.lookup message.correlation information i.process .idle)
      modify (setService message.requested fun service => { service with lookedup := service.lookedup + 1 })
    | none =>
      if message.context ≠ .regular then
        blockingSend env message.process.queue (.lookup message.correlation information s.forward .idle)
      else
        modify fun s => { s with requests := s.requests ++ [message] }
        blockingSend env message.process.queue (.lookup message.correlation information nullProcess .busy))
    (blockingSend env message.process.queue
      (.lookup message.correlation ⟨message.requested, 0, 0, [], 0⟩ nullProcess .absent))

/-- `filter::Pending`. -/
def waitsFor (services : List String) (request : LookupRequest) : Bool := services.contains request.requested

/-- An instance that is acknowledged. -/
def acked (pid : Nat) : State → State := setInstance pid fun i => { i with state := .idle, invoked := i.invoked + 1 }

/-- The first request that waits for one of the services. -/
def servePending (services : List String) : M Unit := do
  let s ← get
  match s.requests.find? (waitsFor services) with
  | some request =>
    serviceLookup env request
    modify fun s => { s with requests := s.requests.eraseP (waitsFor services) }
  | none => pure ()

/-- `ACK`. -/
def ack (pid : Nat) : M Unit :=
  catchMissing (do
    let i ← getInstance pid
    modify (acked pid)
    servePending env i.services) (pure ())

/-! ## Instances -/

/-- `spawn`. -/
def spawn : Nat → M (List Nat)
  | 0 => pure []
  | n + 1 => do
    let reading ← reading
    match env.spawn reading with
    | none => throw .spawn
    | some pid =>
      let pids ← spawn n
      return pid :: pids

/-- `boot`: there are never more instances than are asked for. -/
def boot (executable : Executable) (instances : Nat) : M Unit := do
  let count := max executable.configuredInstances instances - executable.instances.length
  if count > 0 then
    addInstances executable.id (← spawn env count)

/-- The loop of `shutdown`. -/
def shutdownInstance (pid : Nat) : M Unit := do
  if pid ≠ (← get).self then
    tryCatch (do
      let i ← getInstance pid
      modify (alterState pid .shutdown)
      if !(← nonBlockingSend env i.process.queue .shutdown) then
        modify fun s => { s with replies := s.replies ++ [([i.process.queue], .shutdown)] }) fun e =>
      match e with
      | .spawn => throw .spawn
      | _ => pure ()

/-- `shutdown` of the last instances. -/
def shutdown (server : Server) (instances : Nat) : M Unit :=
  (server.instances.drop (server.instances.length - min server.instances.length instances)).forM (shutdownInstance env)

/-- `update::instances`. -/
def updateInstances (id : Nat) : M Unit := do
  let server ← getServer id
  if server.configuredInstances > server.instances.length then
    boot env server.toExecutable (server.configuredInstances - server.instances.length)
  else shutdown env server (server.instances.length - server.configuredInstances)

/-- The admin's `update::instances`, for one alias. -/
def updateServers (name : String) (instances : Nat) : M Unit := do
  ((← get).servers.filter fun server => server.name == name).forM fun server => do
    modify (setServer server.id fun server => { server with configuredInstances := instances })
    updateInstances env server.id

/-- `service_update_instances`: whatever is thrown is handled, and ends nothing but the update. -/
def serviceUpdateInstances (name : String) (instances : Nat) : M Unit :=
  tryCatch (updateServers env name instances) fun _ => pure ()

/-- `dead::process::Registration`. -/
def registration (process : Process) : M Unit :=
  modify fun s => { s with listeners := insertUnique process s.listeners }

/-- The listeners are told of a death. -/
def notify (pid : Nat) (reason : Reason) : M Unit := do
  let listeners := (← get).listeners
  if !listeners.isEmpty then
    let left ← pendingSend env (.dead pid reason) (listeners.map Process.queue)
    if !left.isEmpty then
      modify fun s => { s with replies := s.replies ++ [(left, .dead pid reason)] }

/-- What is done with the server of a process that has died. -/
def removeDead (pid : Nat) : M Unit := do
  let i ← getInstance pid
  let server ← getServer i.server
  modify (setServer server.id fun server => { server with deaths := server.deaths + 1 })
  removeProcess pid
  if server.restart then
    updateInstances env server.id

/-- `dead::process::Event`. What is erased of the listeners reaches to their end. -/
def deadEvent (pid : Nat) (reason : Reason) : M Unit := do
  if reason.deceased then
    modify fun s => { s with listeners := s.listeners.takeWhile fun listener => listener.pid != pid }
    notify env pid reason
    removeDead env pid

/-- `transaction::manager::Ready`, of a manager that is up. -/
def ready (pid : Nat) : M Unit := do
  let _ ← getInstance pid
  modify (alterState pid .idle)

end State

/-! ## Events -/

/-- A message the broker gets. -/
inductive Event
  | connect (message : ConnectRequest)
  | advertise (pid : Nat) (services : List Information)
  | unadvertise (pid : Nat) (services : List Information)
  | lookup (message : LookupRequest)
  | ack (pid : Nat)
  | dead (pid : Nat) (reason : Reason)
  | update (name : String) (instances : Nat)
  | registration (process : Process)
  | lookupProcess (message : ProcessLookup)
  | ready (pid : Nat)

namespace State

/-- What the dispatch does with a message. -/
def handle (env : Environment) : Event → M Unit
  | .connect message => connectServer env message
  | .advertise pid services => advertise pid services
  | .unadvertise pid services => unadvertise pid services
  | .lookup message => serviceLookup env message
  | .ack pid => ack env pid
  | .dead pid reason => deadEvent env pid reason
  | .update name instances => serviceUpdateInstances env name instances
  | .registration process => registration process
  | .lookupProcess message => lookupProcess env message
  | .ready pid => ready pid

/-- An exception that no handler catches ends the pump. -/
def step (env : Environment) (s : State) (e : Event) : State :=
  match handle env e s with
  | .ok _ s => s
  | .error _ s => { s with running := false }

end State

end Casual.Broker
