/-
`broker/state.h` and `state.cpp`: what the broker knows of servers, their instances and the services
they offer, and what it has to do when something of this changes.
-/
import Casual.Lib.Triple
import Casual.Common.Transaction
import Casual.Communication.Message

namespace Casual.Broker

open Casual.Common Casual.Communication Casual.Lib

/-! ## Groups, executables and servers -/

/-- `state::Group`. -/
structure Group where
  id : Nat
  name : String
  dependencies : List Nat
  deriving DecidableEq

/-- `Executable`; its alias is the name it is updated by. -/
structure Executable where
  id : Nat
  name : String
  instances : List Nat := []
  memberships : List Nat := []
  configuredInstances : Nat := 0
  restart : Bool := false
  deaths : Nat := 0
  deriving DecidableEq

/-- `state::Server`. -/
structure Server extends Executable where
  restrictions : List String := []
  invoked : Nat := 0
  deriving DecidableEq

/-- `Executable::remove`. -/
def Executable.remove (pid : Nat) (e : Executable) : Executable := { e with instances := e.instances.erase pid }

/-! ## Instances and services -/

/-- `state::Server::Instance::State`. -/
inductive InstanceState
  | booted | idle | busy | shutdown
  deriving DecidableEq, Repr

/-- `Server::Instance`, which refers to its services by their names. -/
structure Instance where
  process : Process
  invoked : Nat
  server : Nat
  services : List String
  state : InstanceState
  deriving DecidableEq

/-- `message::Service`. -/
structure Information where
  name : String
  type : Nat
  timeout : Int
  monitors : List Nat
  transaction : Nat
  deriving DecidableEq

/-- `server::Service::cCasualAdmin`. -/
def cCasualAdmin : Nat := 10

/-- `Service`, which refers to its instances by their pids. -/
structure Service where
  information : Information
  lookedup : Nat
  instances : List Nat
  deriving DecidableEq

/-- `push_back`, `sort` and `unique` of a list that is sorted and has no element twice. -/
def insertUnique {α : Type} [LT α] [DecidableEq α] [∀ a b : α, Decidable (a < b)] (a : α) : List α → List α
  | [] => [a]
  | b :: l => if a = b then b :: l else if a < b then a :: b :: l else b :: insertUnique a l

/-- `transform::Service`. -/
def Service.transform (value : Information) : Service :=
  ⟨{ value with timeout := 0, monitors := [] }, 0, []⟩

/-! ## Messages -/

/-- `Context` of a lookup. -/
inductive LookupContext
  | regular | no_reply | forward
  deriving DecidableEq, Repr

/-- `service::lookup::Request`. -/
structure LookupRequest where
  correlation : Uuid
  requested : String
  process : Process
  context : LookupContext
  deriving DecidableEq

/-- `message::service::lookup::Reply::State`. -/
inductive LookupState
  | absent | busy | idle
  deriving DecidableEq, Repr

/-- `lookup::process::Request`. -/
structure ProcessLookup where
  correlation : Uuid
  identification : Uuid
  process : Process
  wait : Bool
  deriving DecidableEq

/-- `Directive` of the reply to a connect. -/
inductive Directive
  | start | singleton | shutdown
  deriving DecidableEq, Repr

/-- `lifetime::Exit::Reason`. -/
inductive Reason
  | core | exited | stopped | continued | signaled | unknown
  deriving DecidableEq, Repr

/-- `Exit::deceased`. -/
def Reason.deceased : Reason → Bool
  | core | exited | signaled => true
  | _ => false

/-- The messages the broker sends. -/
inductive Reply
  | lookup (correlation : Uuid) (service : Information) (process : Process) (state : LookupState)
  | connect (correlation : Uuid) (directive : Directive)
  | configuration (correlation : Uuid)
  | process (correlation : Uuid) (identification : Uuid) (process : Process)
  | dead (pid : Nat) (reason : Reason)
  | shutdown
  deriving DecidableEq

/-- A handle that is not set. -/
def nullProcess : Process := ⟨0, 0⟩

/-- `server::connect::Request`. -/
structure ConnectRequest where
  correlation : Uuid
  process : Process
  identification : Uuid
  services : List Information
  deriving DecidableEq

/-! ## State -/

/-- `State`: the maps by their keys, those that are iterated over as lists. With it what has been
sent, how many readings there were of the environment, and whether the pump is still running. -/
structure State where
  servers : List Server
  instances : Nat → Option Instance
  services : String → Option Service
  executables : List Executable
  singletons : List (Uuid × Process)
  requests : List LookupRequest
  replies : List (List Nat × Reply)
  processLookup : List ProcessLookup
  timeout : Int
  monitors : List Nat
  forward : Process
  listeners : List Process
  shutdownMode : Bool
  self : Nat
  sent : List (Nat × Reply)
  readings : Nat
  running : Bool

/-- What a handler throws: `state::exception::Missing`, `queue::Unavailable`, or that a process could not
be started. -/
inductive Exception
  | missing | unavailable | spawn
  deriving DecidableEq, Repr

/-- What the broker does not decide, by the number of the reading: which queues are gone or full when
something is sent to them, and the pid of the process that is started. -/
structure Environment where
  gone : Nat → Nat → Bool
  full : Nat → Nat → Bool
  spawn : Nat → Option Nat

/-- What the broker does to its state, with the exceptions that it throws. -/
abbrev M (α : Type) := EStateM Exception State α

namespace State

/-- `getInstance`. -/
def getInstance (pid : Nat) : M Instance := fun s =>
  match s.instances pid with
  | some i => .ok i s
  | none => .error .missing s

/-- `getService`. -/
def getService (name : String) : M Service := fun s =>
  match s.services name with
  | some service => .ok service s
  | none => .error .missing s

/-- `getServer`. -/
def getServer (id : Nat) : M Server := fun s =>
  match s.servers.find? fun server => server.id == id with
  | some server => .ok server s
  | none => .error .missing s

/-- What is done to an instance. -/
def setInstance (pid : Nat) (f : Instance → Instance) (s : State) : State :=
  { s with instances := Function.update s.instances pid ((s.instances pid).map f) }

/-- The service of a name is another. -/
def setService (name : String) (f : Service → Service) (s : State) : State :=
  { s with services := Function.update s.services name ((s.services name).map f) }

/-- The server of an id is another. -/
def setServer (id : Nat) (f : Server → Server) (s : State) : State :=
  { s with servers := s.servers.map fun server => if server.id = id then f server else server }

/-- `alterState`. -/
def alterState (pid : Nat) (state : InstanceState) : State → State := setInstance pid fun i => { i with state := state }

/-! ### Services of an instance -/

/-- The services that the restrictions of a server let through. -/
def allowed (restrictions : List String) (services : List Service) : List Service :=
  if restrictions.isEmpty then services
  else services.filter fun s => restrictions.contains s.information.name

/-- A service that is not known yet, with the timeout that is standard. -/
def emplace (service : Service) (s : State) : State :=
  match s.services service.information.name with
  | some _ => s
  | none =>
    let timeout := if service.information.type = cCasualAdmin then 0 else s.timeout
    let known : Service := { service with information := { service.information with timeout := timeout } }
    { s with services := Function.update s.services service.information.name (some known) }

/-- The loop of `addServices`. -/
def addService (pid : Nat) (service : Service) (s : State) : State :=
  let name := service.information.name
  ((s.emplace service).setService name fun known => { known with instances := insertUnique pid known.instances }).setInstance
    pid fun i => { i with services := insertUnique name i.services }

/-- `addServices`. -/
def addServices (pid : Nat) (services : List Service) : M Unit := do
  let i ← getInstance pid
  let server ← getServer i.server
  modify fun s => (allowed server.restrictions services).foldl (fun s service => addService pid service s) s

/-- The loop of `removeServices`. -/
def removeService (pid : Nat) (service : Service) (s : State) : State :=
  let name := service.information.name
  (s.setInstance pid fun i => { i with services := i.services.erase name }).setService name fun known =>
    { known with instances := known.instances.erase pid }

/-- `removeServices`. -/
def removeServices (pid : Nat) (services : List Service) : M Unit := do
  let _ ← getInstance pid
  modify fun s => services.foldl (fun s service => removeService pid service s) s

/-! ### Processes -/

/-- `service.remove( instance)` for the services of an instance. -/
def removeFromServices (pid : Nat) : List String → M Unit
  | [] => pure ()
  | name :: names => do
    let _ ← getService name
    modify (setService name fun service => { service with instances := service.instances.erase pid })
    removeFromServices pid names

/-- The last part of `remove_process`: one singleton of the process. -/
def removeSingleton (pid : Nat) (s : State) : State :=
  { s with singletons := s.singletons.eraseP fun entry => entry.2.pid == pid }

/-- The part of `remove_process` for an instance. -/
def removeInstance (pid : Nat) (i : Instance) : M Unit := do
  removeFromServices pid i.services
  let server ← getServer i.server
  modify fun s =>
    let s := s.setServer server.id fun server =>
      { server with toExecutable := server.toExecutable.remove pid, invoked := server.invoked + i.invoked }
    { s with instances := Function.update s.instances pid none }

/-- `remove_process`. For an executable it returns at once. -/
def removeProcess (pid : Nat) : M Unit := do
  let s ← get
  match s.instances pid with
  | some i =>
    removeInstance pid i
    modify (removeSingleton pid)
  | none =>
    match s.executables.find? fun e => e.instances.contains pid with
    | some executable =>
      modify fun s => { s with executables := s.executables.map fun e => if e.id = executable.id then e.remove pid else e }
    | none => modify (removeSingleton pid)

/-- An instance that was started. -/
def started (server pid : Nat) : Instance := ⟨⟨pid, 0⟩, 0, server, [], .booted⟩

/-- `addInstances`: a pid that is known keeps its instance. -/
def addInstances (id : Nat) (pids : List Nat) : M Unit := fun s =>
  if s.servers.any fun server => server.id == id then
    let s := pids.foldl (fun s pid =>
      if (s.instances pid).isSome then s
      else { s with instances := Function.update s.instances pid (some (started id pid)) }) s
    .ok () (s.setServer id fun server => { server with instances := pids.foldl (fun l pid => insertUnique pid l) server.instances })
  else if s.executables.any fun e => e.id == id then
    .ok () { s with executables := s.executables.map fun e =>
      if e.id = id then { e with instances := pids.foldl (fun l pid => insertUnique pid l) e.instances } else e }
  else .error .missing s

end State

end Casual.Broker
