/-
`transaction/manager/action.cpp`, `handle.cpp` and the pump of `manager.cpp`: what the transaction
manager does with a message.
-/
import Casual.Lib.Run
import Casual.Lib.Triple
import Casual.Manager.State

namespace Casual.Manager

open Casual.Common Casual.Communication Casual.Lib
open Casual.Common.Transaction (ID XID)

/-! ## What the manager does not decide -/

/-- What becomes of a message that is pushed to a queue without blocking. -/
inductive Outcome
  | accepted | full | gone
  deriving DecidableEq, Repr

/-- The outcome of each push, by its number and the queue, and what the standard library leaves open:
the order of resources with one id after `std::sort`, the order within the parts of
`std::partition`, and the order in which it asks its predicate, each time it is called. -/
structure Environment where
  process : Process
  broker : Nat
  push : Nat → Nat → Outcome
  sort : List Resource → List Resource
  sort_perm : ∀ l, (sort l).Perm l
  sort_sorted : ∀ l, (sort l).Pairwise fun r r' => r.id ≤ r'.id
  partition : (Resource → Bool) → List Resource → List Resource × List Resource
  partition_fst : ∀ p l, (partition p l).1.Perm (l.filter p)
  partition_snd : ∀ p l, (partition p l).2.Perm (l.filter fun r => !p r)
  order : Nat → List (Nat × Reply) → List (Nat × Reply)
  order_perm : ∀ n l, (order n l).Perm l

/-- A request that was handed to an instance. -/
structure Handed where
  request : ResourceRequest
  resource : Nat
  pid : Nat
  deriving DecidableEq

/-- The manager's state, how often the environment has been asked, the requests that were handed out
with what was on disk then, those an instance is working on, every request the manager decided to
send with the resource it is for, the replies that were delivered or dropped as their receiver was
gone, and whether the pump is still running. -/
structure World where
  state : State
  readings : Nat
  handed : List (Handed × List Row)
  working : List Handed
  emitted : List (ResourceRequest × Nat)
  delivered : List (Nat × Reply)
  dropped : List (Nat × Reply)
  running : Bool

/-- What leaves a handler: `exception::invalid::Argument`, `exception::queue::Unavailable`,
`user::error` and an error of the database. -/
inductive Exception
  | invalidArgument
  | unavailable
  | user (code : Int)
  | query
  deriving DecidableEq, Repr

/-- What a handler does to the manager and what it sends. -/
abbrev M (α : Type) := EStateM Exception World α

/-- A handler changes the state only. -/
def modifyState (f : State → State) : M Unit := fun w => .ok () { w with state := f w.state }

/-! ## State -/

namespace State

/-- `find::Transaction`. -/
def find (s : State) (trid : ID) : Option Transaction := s.transactions.find? fun t => t.trid.xid == trid.xid

/-- What is done to a transaction through a reference. -/
def setTransaction (t : Transaction) (s : State) : State :=
  { s with transactions := s.transactions.map fun u => if u.trid.xid = t.trid.xid then t else u }

/-- The transaction is no longer one of the manager's. -/
def eraseTransaction (trid : ID) (s : State) : State :=
  { s with transactions := s.transactions.eraseP fun t => t.trid.xid == trid.xid }

/-- The transaction, which is added when it is not there. -/
def ensure (trid : ID) (s : State) : State :=
  if (s.find trid).isSome then s else { s with transactions := s.transactions ++ [.new trid] }

/-- `get_instance`. -/
def getInstance (s : State) (rm pid : Nat) : Option Instance :=
  (s.resources.find? fun p => p.id == rm).bind fun p => p.instances.find? fun i => i.process.pid == pid

/-- `idle_instance`, where there is such a resource. -/
def idleInstance (s : State) (rm : Nat) : Option (Option Instance) :=
  (s.resources.find? fun p => p.id == rm).map fun p => p.instances.find? fun i => decide (i.state = .idle)

/-- What is done to an instance through a reference; the instances of a resource differ in pid. -/
def setInstance (rm pid : Nat) (f : Instance → Instance) (s : State) : State :=
  { s with resources := s.resources.map fun p =>
      if p.id = rm then { p with instances := p.instances.map fun i => if i.process.pid = pid then f i else i } else p }

end State

/-- A resource of the transaction is another. -/
def Transaction.setResource (r : Resource) (t : Transaction) : Transaction :=
  { t with resources := t.resources.map fun u => if u.id = r.id then r else u }

section

variable (env : Environment)

/-! ## Sending -/

/-- `non_blocking_push`. -/
def push (queue : Nat) : M Bool := fun w =>
  match env.push w.readings queue with
  | .accepted => .ok true { w with readings := w.readings + 1 }
  | .full => .ok false { w with readings := w.readings + 1 }
  | .gone => .error .unavailable { w with readings := w.readings + 1 }

/-- The instance has been handed a request. -/
def hand (message : ResourceRequest) (rm pid : Nat) : M Unit := fun w =>
  .ok () { w with
    handed := w.handed ++ [(⟨message, rm, pid⟩, w.state.log.durable)]
    working := w.working ++ [⟨message, rm, pid⟩] }

/-- `action::resource::instance::request`. -/
def instanceRequest (message : ResourceRequest) (i : Instance) : M Bool := do
  if ← push env i.process.queue then
    modifyState (·.setInstance i.id i.process.pid (·.setState .busy))
    hand message i.id i.process.pid
    return true
  else
    return false

/-- `action::resource::request`, the resources that have not been asked. -/
def resourceRequest (message : ResourceRequest) : List Nat → M (List Nat)
  | [] => pure []
  | id :: rest => do
    match (← get).state.idleInstance id with
    | none => throw .invalidArgument
    | some (some found) =>
      if ← instanceRequest env message found then
        resourceRequest message rest
      else
        return id :: (← resourceRequest message rest)
    | some none => return id :: (← resourceRequest message rest)

/-- `action::persistent::Send` of a reply: false when it is to be tried again. -/
def persistentSend (message : Nat × Reply) : M Bool := fun w =>
  match env.push w.readings message.1 with
  | .accepted => .ok true { w with readings := w.readings + 1, delivered := w.delivered ++ [message] }
  | .full => .ok false { w with readings := w.readings + 1 }
  | .gone => .ok true { w with readings := w.readings + 1, dropped := w.dropped ++ [message] }

/-- `send::persistent::reply`. -/
def persistentReply (reply : Reply) (target : Process) : M Unit :=
  modifyState fun s => { s with persistentReplies := s.persistentReplies ++ [(target.queue, reply)] }

/-- `send::reply`. -/
def sendReply (reply : Reply) (target : Process) : M Unit := do
  if !(← persistentSend env (target.queue, reply)) then
    persistentReply reply target

/-- `send::resource::request`. -/
def sendRequest (phase : Phase) (t : Transaction) (filter : Resource → Bool) (newStage : Stage) (flags : Nat) :
    M Unit := do
  let message : ResourceRequest := ⟨phase, t.trid, flags⟩
  let (resources, others) := env.partition filter t.resources
  modifyState (·.setTransaction { t with
    resources := resources.map (fun r => { r with stage := newStage }) ++ others })
  let ids := resources.map (·.id)
  (fun w => .ok () { w with emitted := w.emitted ++ ids.map fun id => (message, id) } : M Unit)
  let left ← resourceRequest env message ids
  if !left.isEmpty then
    -- could not send to all instances, the request is put in pending
    modifyState fun s => { s with pendingRequests := s.pendingRequests ++ [⟨message, left⟩] }

/-! ## Instances -/

/-- `instance::done`. -/
def done (i : Instance) : M Unit := do
  let request := (← get).state.pendingRequests.find? fun p => p.resources.contains i.id
  modifyState (·.setInstance i.id i.process.pid (·.setState .idle))
  match request with
  | none => pure ()
  | some request =>
    if ← push env i.process.queue then
      modifyState (·.setInstance i.id i.process.pid (·.setState .busy))
      hand request.message i.id i.process.pid
      modifyState fun s =>
        let resources := request.resources.erase i.id
        { s with pendingRequests :=
            if resources.isEmpty then s.pendingRequests.eraseP fun p => p.resources.contains i.id
            else s.pendingRequests.replaceF fun p =>
              if p.resources.contains i.id then some { p with resources := resources } else none }

/-! ## Involvement -/

/-- `std::unique`, of resources with one id the first. -/
def unique (rs : List Resource) : List Resource := rs.destutter fun r r' => r.id ≠ r'.id

/-- `local::resource::involved`. -/
def involved (s : State) (t : Transaction) (ids : List Nat) : Transaction :=
  { t with resources := unique (env.sort
      (t.resources ++ (ids.filter fun id => s.resources.any fun p => p.id == id).map Resource.new)) }

/-- The transaction a message names, with the resources of the message. -/
def involve (trid : ID) (ids : List Nat) : M Transaction := do
  modifyState (·.ensure trid)
  let s := (← get).state
  let t := involved env s ((s.find trid).getD (.new trid)) ids
  modifyState (·.setTransaction t)
  return t

/-- `resource::Involved`. -/
def resourceInvolved (message : Involved) : M Unit := do
  let _ ← involve env message.trid message.resources

/-! ## Replies from resources -/

/-- `reply::Wrapper`. -/
def wrapper (handler : ResourceReply → Transaction → Resource → M Bool) (message : ResourceReply) : M Unit := do
  match (← get).state.getInstance message.resource message.process.pid with
  | none => throw .invalidArgument
  | some i => done env i
  match (← get).state.find message.trid with
  | some t =>
    match t.resources.find? fun r => r.id == message.resource with
    | some r =>
      if ← handler message t r then
        modifyState (·.eraseTransaction message.trid)
    | none => pure ()
  | none => pure ()

/-- The log refuses to take a transaction it cannot store. -/
def logPrepare (trid : ID) : M Unit := fun w =>
  match w.state.log.prepare trid with
  | some log => .ok () { w with state := { w.state with log := log } }
  | none => .error .query w

/-- `Log::remove`. -/
def logRemove (trid : ID) : M Unit := modifyState fun s => { s with log := s.log.remove trid }

/-- `reply::basic_prepare`. -/
def basicPrepare (message : ResourceReply) (t : Transaction) (r : Resource) : M Bool := do
  let result := Result.convert message.state
  -- a resource that only did a read is not involved any longer
  let t := t.setResource { r with
    result := result
    stage := if result = .XA_RDONLY then .notInvolved else .prepareReplied }
  modifyState (·.setTransaction t)
  if t.stage = .prepareReplied then
    match t.results with
    | .XA_RDONLY =>
      logRemove t.trid
      sendReply env (.commit message.trid t.correlation .commit Result.XA_RDONLY.code) t.trid.owner
      return true
    | .XA_OK =>
      logPrepare t.trid
      persistentReply (.commit message.trid t.correlation .prepare Result.XA_OK.code) t.trid.owner
      sendRequest env .commit t (fun r => decide (r.result = .XA_OK ∧ r.stage = .prepareReplied)) .prepareRequested
        TMNOFLAGS
      return false
    | _ =>
      sendRequest env .rollback t (fun r => decide (r.stage = .prepareReplied)) .rollbackRequested TMNOFLAGS
      return false
  else
    return false

/-- `reply::basic_commit`. -/
def basicCommitReply (message : ResourceReply) (t : Transaction) (r : Resource) : M Bool := do
  let t := t.setResource { r with stage := .commitReplied }
  modifyState (·.setTransaction t)
  if t.stage = .commitReplied then
    match t.results with
    | .XA_OK =>
      let reply : Reply := .commit message.trid t.correlation .commit Result.XA_OK.code
      if t.resources.length ≤ 1 then
        sendReply env reply t.trid.owner
      else
        persistentReply reply t.trid.owner
      logRemove message.trid
      return true
    | result =>
      persistentReply (.commit message.trid t.correlation .commit result.code) t.trid.owner
      return false
  else
    return false

/-- `reply::basic_rollback`. -/
def basicRollbackReply (message : ResourceReply) (t : Transaction) (r : Resource) : M Bool := do
  let t := t.setResource { r with stage := .rollbackReplied }
  modifyState (·.setTransaction t)
  if t.stage = .rollbackReplied then
    let result := t.results
    if result = .XA_OK ∨ result = .XAER_NOTA ∨ result = .XA_RDONLY then
      sendReply env (.rollback message.trid t.correlation .rollback Result.XA_OK.code) t.trid.owner
      logRemove message.trid
      return true
    else
      persistentReply (.rollback message.trid t.correlation .rollback result.code) t.trid.owner
      return false
  else
    return false

/-! ## Requests from owners -/

/-- `user_reply_wrapper`. -/
def userReplyWrapper (handler : OwnerRequest → M Unit) (error : OwnerRequest → Int → Reply) (message : OwnerRequest) :
    M Unit :=
  tryCatch (handler message) fun e =>
    match e with
    | .user code => sendReply env (error message code) message.process
    | _ => sendReply env (error message Result.XAER_RMERR.code) message.process

/-- `basic_commit`. -/
def basicCommit (message : OwnerRequest) : M Unit := do
  let t ← involve env message.trid message.resources
  if t.stage ≠ .involved ∧ t.stage ≠ .notInvolved then
    throw (.user Result.XAER_PROTO.code)
  match t.resources.length with
  | 0 =>
    modifyState (·.eraseTransaction message.trid)
    sendReply env (.commit message.trid message.correlation .commit Result.XA_RDONLY.code) message.process
  | 1 =>
    sendRequest env .commit { t with correlation := message.correlation } (fun r => decide (r.stage = .involved))
      .commitRequested TMONEPHASE
  | _ =>
    sendRequest env .prepare { t with correlation := message.correlation } (fun r => decide (r.stage = .involved))
      .prepareRequested TMNOFLAGS

/-- `basic_rollback`. -/
def basicRollback (message : OwnerRequest) : M Unit := do
  let t ← involve env message.trid message.resources
  if t.resources.isEmpty then
    modifyState (·.eraseTransaction message.trid)
    sendReply env (.rollback message.trid message.correlation .rollback Result.XA_OK.code) message.process
  else
    sendRequest env .rollback { t with correlation := message.correlation } (fun r => decide (r.stage = .involved))
      .rollbackRequested TMNOFLAGS

/-- `Commit`. -/
def commit : OwnerRequest → M Unit :=
  userReplyWrapper env (basicCommit env) fun message code => .commit message.trid message.correlation .error code

/-- `Rollback`. -/
def rollback : OwnerRequest → M Unit :=
  userReplyWrapper env (basicRollback env) fun message code => .rollback message.trid message.correlation .error code

/-- `process::Exit`. -/
def exit (pid : Nat) : M Unit := do
  let trids := ((← get).state.transactions.filter fun t => t.trid.owner.pid == pid).map (·.trid)
  trids.forM fun trid => rollback env ⟨0, env.process, trid, []⟩

/-! ## Connections -/

/-- An instance that has connected. -/
def Instance.running (i : Instance) : Bool := decide (i.state = .idle ∨ i.state = .busy)

/-- `reply::Connect`. -/
def connect (message : ConnectReply) : M Unit := do
  match (← get).state.getInstance message.resource message.process.pid with
  | none => pure ()
  | some i =>
    if message.state = Result.XA_OK.code then
      modifyState (·.setInstance i.id i.process.pid fun i => { i with process := message.process })
      done env { i with process := message.process }
    else
      modifyState (·.setInstance i.id i.process.pid (·.setState .startupError))
  let s := (← get).state
  if !s.connected && s.resources.all fun p => p.instances.any Instance.running then
    -- the broker is told that there are enough resource proxies
    let _ ← push env env.broker
    modifyState fun s => { s with connected := true }

/-! ## The pump -/

/-- The replies that are left when each has been tried once. -/
def flushReplies : List (Nat × Reply) → M (List (Nat × Reply))
  | [] => pure []
  | message :: rest => do
    if ← persistentSend env message then
      flushReplies rest
    else
      return message :: (← flushReplies rest)

/-- The persistent requests, those that are left go to the pending ones. -/
def flushRequests : List PendingRequest → M Unit
  | [] => pure ()
  | request :: rest => do
    let left ← resourceRequest env request.message request.resources
    if !left.isEmpty then
      modifyState fun s => { s with pendingRequests := s.pendingRequests ++ [{ request with resources := left }] }
    flushRequests rest

/-- The end of a round of the pump: what is logged is written to disk, then what waited for that is
sent. -/
def write : M Unit := do
  let n := (← get).readings
  let s := (← get).state
  if !s.persistentReplies.isEmpty || !s.persistentRequests.isEmpty then
    modifyState fun s => { s with log := s.log.writeCommit }
    let left ← flushReplies env (env.order n s.persistentReplies)
    modifyState fun s => { s with persistentReplies := left }
    flushRequests env s.persistentRequests
    modifyState fun s => { s with persistentRequests := [] }

/-- A message the pump gets, or the end of one of its rounds. The pump decides how many messages it
takes in a round: here any number. -/
inductive Event
  | involved (message : Involved)
  | commit (message : OwnerRequest)
  | rollback (message : OwnerRequest)
  | exit (pid : Nat)
  | connect (message : ConnectReply)
  | reply (phase : Phase) (message : ResourceReply)
  | write

/-- The reply handlers. -/
def replyHandler : Phase → ResourceReply → Transaction → Resource → M Bool
  | .prepare => basicPrepare env
  | .commit => basicCommitReply env
  | .rollback => basicRollbackReply env

/-- What the dispatch does with a message, and the pump between messages. -/
def handle : Event → M Unit
  | .involved message => resourceInvolved env message
  | .commit message => commit env message
  | .rollback message => rollback env message
  | .exit pid => exit env pid
  | .connect message => connect env message
  | .reply phase message => wrapper env (replyHandler env phase) message
  | .write => write env

end

/-! ## Runs -/

/-- The request an instance answers with a reply. -/
def Handed.answeredBy (phase : Phase) (message : ResourceReply) (h : Handed) : Bool :=
  decide (h.request.phase = phase ∧ h.request.trid = message.trid ∧ h.resource = message.resource ∧
    h.pid = message.process.pid)

namespace World

/-- An instance that has answered a request no longer works on it. -/
def answer (e : Event) (w : World) : World :=
  match e with
  | .reply phase message => { w with working := w.working.eraseP (Handed.answeredBy phase message) }
  | _ => w

/-- An exception that no handler catches ends the pump, which writes what is logged. -/
def step (env : Environment) (w : World) (e : Event) : World :=
  match handle env e (w.answer e) with
  | .ok _ w => w
  | .error _ w => { w with state := { w.state with log := w.state.log.writeCommit }, running := false }

/-- A resource answers what it has been handed. -/
def admits (w : World) (e : Event) : Prop :=
  w.running = true ∧
    match e with
    | .reply phase message => ∃ h ∈ w.working, h.answeredBy phase message = true
    | _ => True

/-- A manager that has just started its resource proxies. -/
def start (resources : List Proxy) (log : List Row) : World :=
  ⟨⟨resources, [], [], [], [], ⟨log, log⟩, false⟩, 0, [], [], [], [], [], true⟩

end World

/-- What the manager starts with: the resources differ in id and their instances in pid, no instance has
connected, and no branch qualifier in the log is empty. -/
structure Started (resources : List Proxy) (log : List Row) : Prop where
  ids : (resources.map (·.id)).Nodup
  pids : ((resources.flatMap (·.instances)).map (·.process.pid)).Nodup
  instances : ∀ p ∈ resources, ∀ i ∈ p.instances, i.id = p.id ∧ i.state = .started
  rows : ∀ row ∈ log, row.xid.bqual.isEmpty = false

/-- The runs of the manager. -/
def manager (env : Environment) : Machine World Event where
  init w := ∃ resources log, Started resources log ∧ w = World.start resources log
  admits := World.admits
  step := World.step env

instance (w : World) (e : Event) : Decidable (w.admits e) :=
  match e with
  | .reply phase message => inferInstanceAs (Decidable (w.running = true ∧ ∃ h ∈ w.working, h.answeredBy phase message = true))
  | .involved _ | .commit _ | .rollback _ | .exit _ | .connect _ | .write =>
    inferInstanceAs (Decidable (w.running = true ∧ True))

/-! ### Something to run -/

/-- Replies are tried in the order they are in, and resources keep theirs. -/
def someEnvironment (push : Nat → Nat → Outcome) : Environment where
  process := ⟨1, 1⟩
  broker := 0
  push := push
  sort := List.insertionSort fun r r' => r.id ≤ r'.id
  sort_perm l := List.perm_insertionSort _ l
  sort_sorted l :=
    have : Std.Total fun r r' : Resource => r.id ≤ r'.id := ⟨fun r r' => Nat.le_total r.id r'.id⟩
    have : IsTrans Resource fun r r' => r.id ≤ r'.id := ⟨fun _ _ _ => Nat.le_trans⟩
    List.pairwise_insertionSort _ l
  partition p l := (l.filter p, l.filter fun r => !p r)
  partition_fst _ _ := .refl _
  partition_snd _ _ := .refl _
  order _ l := l
  order_perm _ _ := .refl _

/-- Two resources with an instance each. -/
def twoProxies : List Proxy := [⟨1, [⟨1, ⟨11, 0⟩, .started⟩]⟩, ⟨2, [⟨2, ⟨12, 0⟩, .started⟩]⟩]

theorem twoProxies_started : Started twoProxies [] := by
  constructor
  · decide
  · decide
  · decide
  · nofun

/-- The process that owns the transactions of the examples. -/
def someOwner : Process := ⟨5, 6⟩

/-- The transaction of the examples. -/
def someID : ID := ⟨⟨1, [7, 8, 9], [4], by decide⟩, someOwner⟩

/-- The instances connect, and a transaction of both resources is prepared. -/
def prepared : List Event :=
  [.connect ⟨⟨11, 21⟩, 1, 0⟩, .connect ⟨⟨12, 22⟩, 2, 0⟩, .commit ⟨7, someOwner, someID, [1, 2]⟩,
    .reply .prepare ⟨⟨11, 21⟩, someID, 1, 0⟩, .reply .prepare ⟨⟨12, 22⟩, someID, 2, 0⟩]

/-- It is committed. -/
def committed : List Event := [.reply .commit ⟨⟨11, 21⟩, someID, 1, 0⟩, .reply .commit ⟨⟨12, 22⟩, someID, 2, 0⟩]

end Casual.Manager
