/-
`queue/group/handle.cpp` when any statement of the queuebase can throw a database exception, and the
requests for information with it.
-/
import Casual.Lib.Run
import Casual.Queue.Handlers

namespace Casual.Queue

open Casual.Common Casual.Communication Casual.Lib

/-! ## State -/

/-- `information::queues::Request` and, with a queue, `information::messages::Request`. -/
structure InformationRequest where
  correlation : Uuid
  process : Process
  deriving DecidableEq, Repr

/-- `information::Message`. -/
structure InformationMessage where
  id : Uuid
  queue : Nat
  origin : Nat
  trid : Option (List UInt8)
  state : Message.State
  reply : String
  redelivered : Nat
  type : BufferType
  avalible : Int
  timestamp : Int
  size : Option Nat
  deriving DecidableEq, Repr

/-- `information::queues::Reply` and `information::messages::Reply`. -/
inductive Information
  | queues (correlation : Uuid) (queues : List QueueRow)
  | messages (correlation : Uuid) (messages : List InformationMessage)
  deriving DecidableEq, Repr

/-- A queue group, what is committed of its queuebase and if the transaction of the batch is still open, the
information it has sent, and where it is: the number of the request it handles, how many statements it has
executed for it, and how many of all statements have failed. -/
structure Failing where
  group : Group
  durable : Database
  inTransaction : Bool
  informed : List (Nat × Information)
  request : Nat
  statement : Nat
  failures : Nat

namespace Failing

/-- What the pump gets: what `Event` has, the requests for information, and what ends it. -/
inductive Incoming
  | event (e : Event)
  | queues (message : InformationRequest)
  | messages (message : InformationRequest) (qid : Nat)
  | shutdown
  | terminate

/-- What a group does whose database may fail. -/
abbrev F (α : Type) := EStateM Exception Failing α

/-- What befalls the statements, by the number of the request and of the statement: which throw for a reason of
their own, and with which of these the transaction they are in is rolled back. -/
structure Faults where
  throws : Nat → Nat → Bool
  rollsBack : Nat → Nat → Bool

variable (faults : Faults) (env : Environment)

/-- What uses no statement. -/
def lift {α : Type} (x : Group.M α) : F α := fun s =>
  match x s.group with
  | .ok a g => .ok a { s with group := g }
  | .error e g => .error e { s with group := g }

/-- A statement has been executed. Without a transaction it is committed at once. -/
def executed (s : Failing) (db : Database) : Failing :=
  { s with
    group := { s.group with queuebase := db }
    durable := if s.inTransaction then s.durable else db
    statement := s.statement + 1 }

/-- A statement has failed. -/
def failed (s : Failing) : Failing := { s with statement := s.statement + 1, failures := s.failures + 1 }

/-- The database has rolled back the transaction, and what has been executed since the last commit with it. -/
def rolledBack (s : Failing) : Failing :=
  if s.inTransaction then { s with group := { s.group with queuebase := s.durable }, inTransaction := false } else s

/-- A statement has thrown for a reason of its own: `SQLITE_IOERR`, `SQLITE_FULL` and `SQLITE_NOMEM` may roll back
the transaction, other errors take back the statement only. -/
def thrown (s : Failing) : Failing :=
  if faults.rollsBack s.request s.statement then s.rolledBack.failed else s.failed

/-- A statement. One that fails throws. -/
def execute {α : Type} (x : Database → Option (α × Database)) : F α := fun s =>
  if faults.throws s.request s.statement then .error .query (s.thrown faults)
  else
    match x s.group.queuebase with
    | some (a, db) => .ok a (s.executed db)
    | none => .error .query s.failed

/-- A statement that updates the queuebase. -/
def update (x : Database → Option Database) : F Unit := execute faults fun db => (x db).map ((), ·)

/-- A statement that reads the queuebase. -/
def query {α : Type} (x : Database → α) : F α := execute faults fun db => some (x db, db)

/-! ## Operations of the queuebase -/

/-- `Database::enqueue`. -/
def enqueue (message : Message.EnqueueRequest) (made : Uuid) (now : Int) : F Message.EnqueueReply := do
  update faults (Database.insert (Database.enqueued message made now))
  return ⟨(Database.enqueued message made now).id⟩

/-- `Database::dequeue`. -/
def dequeue (message : Message.DequeueRequest) (now : Int) : F Message.DequeueReply := do
  match ← query faults (Database.select message now) with
  | none => return ⟨0, []⟩
  | some row =>
    match message.trid with
    | some trid => update faults (Database.stateXid (Transaction.bind (Transaction.global (some trid))) row.id)
    | none => update faults (Database.stateNullxid row.id)
    return ⟨0, [Database.reply row]⟩

/-- `Database::commit`. -/
def commit (id : Transaction.ID) : F Unit := do
  let gtrid := Transaction.bind (Transaction.global (some id))
  update faults (Database.commit1 gtrid)
  update faults (Database.commit2 gtrid)

/-- `Database::rollback`. -/
def rollback (id : Transaction.ID) : F Unit := do
  let gtrid := Transaction.bind (Transaction.global (some id))
  update faults (Database.rollback1 gtrid)
  update faults (Database.rollback2 gtrid)
  update faults Database.rollback3

/-- `Database::messages`. -/
def messages (qid : Nat) (db : Database) : List InformationMessage :=
  (db.messages.filter fun m => m.queue == qid).map fun m =>
    { id := m.id
      queue := m.queue
      origin := m.origin
      trid := m.gtrid
      state := m.state
      reply := m.reply
      redelivered := m.redelivered
      type := ⟨m.type, m.subtype⟩
      avalible := m.avalible
      timestamp := m.timestamp
      size := m.payload.map (·.length) }

/-! ## Handlers -/

/-- `catch( const sql::database::exception::Base&)`. -/
def catchQuery {α : Type} (x : F α) (a : α) : F α :=
  tryCatch x fun e =>
    match e with
    | .query => pure a
    | .unavailable => throw .unavailable

/-- `dequeue::request`. -/
def dequeueRequest (message : Message.DequeueRequest) : F Bool :=
  catchQuery (do
    let n ← lift Group.reading
    let reply ← dequeue faults message (env.clock n)
    if message.block && reply.message.isEmpty then
      lift (Group.setPending fun p => p.dequeue message)
      return false
    else
      if !reply.message.isEmpty && message.trid.isSome then
        lift (Group.involved env message.trid)
      lift (Group.send env message.process.queue (.dequeue { reply with correlation := message.correlation }))
      return true) false

/-- The loop of `pending::replies` over the requests that a commit wakes. -/
def wake : List Message.DequeueRequest → (Nat → Nat) → F Unit
  | [], _ => pure ()
  | request :: rest, enqueued => do
    let enqueued ← tryCatch (do
      if enqueued request.queue > 0 then
        if ← dequeueRequest faults env request then
          return Function.update enqueued request.queue (enqueued request.queue - 1)
        else
          -- put it back in pending
          lift (Group.setPending fun p => p.dequeue request)
          return enqueued
      else
        return enqueued) fun e =>
      match e with
      | .unavailable => pure enqueued
      | .query => throw .query
    wake rest enqueued

/-- `State::Pending::commit`, the requests that leave the store. -/
def commitPending (trid : Option Transaction.XID) : F Pending.Result := fun s =>
  .ok (s.group.pending.commit trid).1
    { s with group := { s.group with pending := (s.group.pending.commit trid).2 } }

/-- `pending::replies`. -/
def replies (trid : Option Transaction.XID) : F Unit := do
  let pending ← commitPending trid
  wake faults env pending.requests pending.enqueued

/-- `enqueue::Request`. -/
def enqueueRequest (message : Message.EnqueueRequest) : F Unit :=
  catchQuery (do
    let n ← lift Group.reading
    let reply ← enqueue faults message (env.make n) (env.clock n)
    lift (Group.setPending fun p => p.enqueue (message.trid.map (·.xid)) message.queue)
    if message.trid.isSome then
      lift (Group.involved env message.trid)
      lift (Group.send env message.process.queue (.enqueue message.correlation reply))
    else
      lift (Group.persist message.process.queue (.enqueue message.correlation reply))
      replies faults env (message.trid.map (·.xid))) ()

/-- `transaction::commit::Request`. -/
def commitRequest (message : Message.TransactionRequest) : F Unit := do
  let state ← tryCatch (do
    commit faults message.trid
    replies faults env (some message.trid.xid)
    return XA_OK) fun _ => pure XAER_RMFAIL
  lift (Group.persist message.process.queue (.commit message.correlation message.trid state))

/-- `transaction::rollback::Request`. -/
def rollbackRequest (message : Message.TransactionRequest) : F Unit := do
  let state ← tryCatch (do
    rollback faults message.trid
    lift (Group.setPending fun p => p.rollback (some message.trid.xid))
    return XA_OK) fun _ => pure XAER_RMFAIL
  lift (Group.persist message.process.queue (.rollback message.correlation message.trid state))

/-- `blocking::send` of information. -/
def inform (queue : Nat) (information : Information) : F Unit := fun s =>
  let t := { s with group := { s.group with readings := s.group.readings + 1 } }
  if env.gone s.group.readings queue then .error .unavailable t
  else .ok () { t with informed := t.informed ++ [(queue, information)] }

/-- `information::queues::Request`. -/
def queuesRequest (message : InformationRequest) : F Unit := do
  let queues ← query faults (·.queues)
  inform env message.process.queue (.queues message.correlation queues)

/-- `information::messages::Request`. -/
def messagesRequest (message : InformationRequest) (qid : Nat) : F Unit := do
  let messages ← query faults (messages qid)
  inform env message.process.queue (.messages message.correlation messages)

/-! ## The pump -/

/-- `~basic_write`: whatever has been executed is committed. The `basic_write` of the next batch begins a
transaction. -/
def writeCommit (s : Failing) : Failing := { s with durable := s.group.queuebase, inTransaction := true }

/-- The handlers. What is not about the queuebase is as in `Group.handle`. -/
def handle : Event → F Unit
  | .enqueue message => enqueueRequest faults env message
  | .dequeue message => do let _ ← dequeueRequest faults env message
  | .commit message => commitRequest faults env message
  | .rollback message => rollbackRequest faults message
  | .dead pid => lift (Group.deadProcess pid)
  | .forget message => lift (Group.forgetRequest env message)
  | .persist => do
    modify writeCommit
    lift (Group.persistStep env)

/-- The pump is left. -/
def leave (s : Failing) : Failing := writeCommit { s with group := { s.group with running := false } }

/-- The next request is handled. -/
def began (s : Failing) : Failing := { s with request := s.request + 1, statement := 0 }

/-- An exception that no handler catches leaves the pump. -/
def finish : EStateM.Result Exception Failing Unit → Failing
  | .ok _ s => s
  | .error _ s => leave s

/-- A shutdown and a signal leave the pump too. -/
def step (s : Failing) : Incoming → Failing
  | .event e => finish (handle faults env e s.began)
  | .queues message => finish (queuesRequest faults env message s.began)
  | .messages message qid => finish (messagesRequest faults env message qid s.began)
  | .shutdown => leave s
  | .terminate => leave s

/-- A group that has just opened its queuebase. -/
def start (queuebase : Database) : Failing := ⟨Group.start queuebase, queuebase, true, [], 0, 0, 0⟩

/-! ## Statements -/

section Statements

variable {faults : Faults} {s : Failing}

theorem update_some {x : Database → Option Database} {db : Database} (h : faults.throws s.request s.statement = false)
    (hx : x s.group.queuebase = some db) : update faults x s = .ok () (s.executed db) := by
  unfold update execute
  dsimp only
  rw [h, hx]
  rfl

theorem update_none {x : Database → Option Database} (h : faults.throws s.request s.statement = false)
    (hx : x s.group.queuebase = none) : update faults x s = .error .query s.failed := by
  unfold update execute
  dsimp only
  rw [h, hx]
  rfl

theorem update_thrown {x : Database → Option Database} (h : faults.throws s.request s.statement = true) :
    update faults x s = .error .query (s.thrown faults) := by
  unfold update execute
  rw [h]
  rfl

theorem query_ok {α : Type} {x : Database → α} (h : faults.throws s.request s.statement = false) :
    query faults x s = .ok (x s.group.queuebase) (s.executed s.group.queuebase) := by
  unfold query execute
  rw [h]
  rfl

theorem query_thrown {α : Type} {x : Database → α} (h : faults.throws s.request s.statement = true) :
    query faults x s = .error .query (s.thrown faults) := by
  unfold query execute
  rw [h]
  rfl

end Statements

/-! ## Without failing statements -/

section Projects

variable {faults : Faults} {env : Environment} {α β : Type}

theorem base_bind (x : EStateM Exception Database α) (f : α → EStateM Exception Database β) :
    Group.base (x >>= f) = Group.base x >>= fun a => Group.base (f a) := by
  funext s
  cases h : x s.queuebase with
  | ok a db =>
    rw [bind_ok (Group.base_ok h)]
    unfold Group.base
    rw [bind_ok h]
  | error e db =>
    rw [bind_error (Group.base_error h)]
    unfold Group.base
    rw [bind_error h]

theorem projects_lift (x : Group.M α) : Projects Failing.group (lift x) x := by
  constructor
  intro s
  unfold lift
  cases x s.group <;> rfl

theorem projects_update (hfails : ∀ n k, faults.throws n k = false) (x : Database → Option Database) :
    Projects Failing.group (update faults x) (Group.base (Database.execute x)) := by
  constructor
  intro s
  cases hx : x s.group.queuebase with
  | some db =>
    rw [update_some (hfails _ _) hx, Group.base_ok (Database.execute_some hx)]
    rfl
  | none =>
    rw [update_none (hfails _ _) hx, Group.base_error (Database.execute_none hx)]
    rfl

theorem projects_query (hfails : ∀ n k, faults.throws n k = false) (x : Database → α) :
    Projects Failing.group (query faults x) (Group.base fun db => .ok (x db) db) := by
  constructor
  intro s
  rw [query_ok (hfails _ _)]
  rfl

theorem projects_enqueue (hfails : ∀ n k, faults.throws n k = false) (message : Message.EnqueueRequest) (made : Uuid) (now : Int) :
    Projects Failing.group (enqueue faults message made now) (Group.base (Database.enqueue message made now)) := by
  unfold enqueue Database.enqueue
  rw [base_bind]
  exact .bind (projects_update hfails _) fun _ => .pure _

theorem projects_dequeue (hfails : ∀ n k, faults.throws n k = false) (message : Message.DequeueRequest) (now : Int) :
    Projects Failing.group (dequeue faults message now) (Group.base (Database.dequeue message now)) := by
  constructor
  intro s
  have hget : (get : EStateM Exception Database Database) s.group.queuebase = .ok s.group.queuebase s.group.queuebase := rfl
  unfold dequeue Database.dequeue
  rw [base_bind, bind_ok (query_ok (hfails _ _)), bind_ok (Group.base_ok hget)]
  cases Database.select message now s.group.queuebase with
  | none => rfl
  | some row =>
    dsimp only
    cases message.trid with
    | none =>
      dsimp only
      rw [base_bind]
      exact (Projects.bind (projects_update hfails _) fun _ => .pure _).run (s.executed s.group.queuebase)
    | some trid =>
      dsimp only
      rw [base_bind]
      exact (Projects.bind (projects_update hfails _) fun _ => .pure _).run (s.executed s.group.queuebase)

theorem projects_commit (hfails : ∀ n k, faults.throws n k = false) (id : Transaction.ID) :
    Projects Failing.group (commit faults id) (Group.base (Database.commit id)) := by
  unfold commit Database.commit
  rw [base_bind]
  exact .bind (projects_update hfails _) fun _ => projects_update hfails _

theorem projects_rollback (hfails : ∀ n k, faults.throws n k = false) (id : Transaction.ID) :
    Projects Failing.group (rollback faults id) (Group.base (Database.rollback id)) := by
  unfold rollback Database.rollback
  rw [base_bind]
  refine .bind (projects_update hfails _) fun _ => ?_
  rw [base_bind]
  exact .bind (projects_update hfails _) fun _ => projects_update hfails _

theorem projects_catchQuery {x : F α} {y : Group.M α} (h : Projects Failing.group x y) (a : α) :
    Projects Failing.group (catchQuery x a) (Group.catchQuery y a) := by
  refine .tryCatch h fun e => ?_
  cases e with
  | query => exact .pure _
  | unavailable => exact .throw _

theorem projects_dequeueRequest (hfails : ∀ n k, faults.throws n k = false) (message : Message.DequeueRequest) :
    Projects Failing.group (dequeueRequest faults env message) (Group.dequeueRequest env message) := by
  refine projects_catchQuery (.bind (projects_lift _) fun n => .bind (projects_dequeue hfails _ _) fun reply => ?_) _
  refine .ite (.bind (projects_lift _) fun _ => .pure _) ?_
  have hsend := Projects.bind (projects_lift (Group.send env message.process.queue
    (.dequeue { reply with correlation := message.correlation }))) fun _ => Projects.pure (f := Failing.group) true
  exact .ite (.bind (projects_lift _) fun _ => hsend) hsend

theorem projects_wake (hfails : ∀ n k, faults.throws n k = false) : ∀ (rs : List Message.DequeueRequest) (enqueued : Nat → Nat),
    Projects Failing.group (wake faults env rs enqueued) (Group.wake env rs enqueued)
  | [], _ => .pure _
  | request :: rest, enqueued => by
    unfold wake Group.wake
    refine .bind (.tryCatch (.ite (.bind (projects_dequeueRequest hfails request) fun b => ?_) (.pure _)) fun e => ?_)
      fun _ => projects_wake hfails rest _
    · exact .ite (.pure _) (.bind (projects_lift _) fun _ => .pure _)
    · cases e with
      | query => exact .throw _
      | unavailable => exact .pure _

theorem projects_replies (hfails : ∀ n k, faults.throws n k = false) (trid : Option Transaction.XID) :
    Projects Failing.group (replies faults env trid) (Group.replies env trid) := by
  constructor
  intro s
  exact (projects_wake hfails _ _).run _

theorem projects_enqueueRequest (hfails : ∀ n k, faults.throws n k = false) (message : Message.EnqueueRequest) :
    Projects Failing.group (enqueueRequest faults env message) (Group.enqueueRequest env message) := by
  refine projects_catchQuery (.bind (projects_lift _) fun n => .bind (projects_enqueue hfails _ _ _) fun reply =>
    .bind (projects_lift _) fun _ => .ite ?_ ?_) _
  · exact .bind (projects_lift _) fun _ => projects_lift _
  · exact .bind (projects_lift _) fun _ => projects_replies hfails _

theorem projects_commitRequest (hfails : ∀ n k, faults.throws n k = false) (message : Message.TransactionRequest) :
    Projects Failing.group (commitRequest faults env message) (Group.commitRequest env message) := by
  refine .bind (.tryCatch (.bind (projects_commit hfails _) fun _ => ?_) fun _ => .pure _) fun _ => projects_lift _
  exact .bind (projects_replies hfails _) fun _ => .pure _

theorem projects_rollbackRequest (hfails : ∀ n k, faults.throws n k = false) (message : Message.TransactionRequest) :
    Projects Failing.group (rollbackRequest faults message) (Group.rollbackRequest message) := by
  refine .bind (.tryCatch (.bind (projects_rollback hfails _) fun _ => ?_) fun _ => .pure _) fun _ => projects_lift _
  exact .bind (projects_lift _) fun _ => .pure _

theorem projects_handle (hfails : ∀ n k, faults.throws n k = false) (e : Event) :
    Projects Failing.group (handle faults env e) (Group.handle env e) := by
  cases e with
  | enqueue message => exact projects_enqueueRequest hfails message
  | dequeue message => exact .bind (projects_dequeueRequest hfails message) fun _ => .pure _
  | commit message => exact projects_commitRequest hfails message
  | rollback message => exact projects_rollbackRequest hfails message
  | dead pid => exact projects_lift (Group.deadProcess pid)
  | forget message => exact projects_lift _
  | persist =>
    constructor
    intro s
    exact (projects_lift (Group.persistStep env)).run (writeCommit s)

/-- Where no statement fails for a reason of its own, the group does what `Group.step` says. -/
theorem step_group (hfails : ∀ n k, faults.throws n k = false) (s : Failing) (e : Event) :
    (step faults env s (.event e)).group = s.group.step env e := by
  have h := (@projects_handle _ env hfails e).run s.began
  have hstep : step faults env s (.event e) = finish (handle faults env e s.began) := rfl
  rw [hstep]
  unfold Group.step
  cases hs : handle faults env e s.began with
  | ok _ t =>
    rw [hs] at h
    have h' : Group.handle env e s.group = .ok _ t.group := h.symm
    rw [h']
    rfl
  | error _ t =>
    rw [hs] at h
    have h' : Group.handle env e s.group = .error _ t.group := h.symm
    rw [h']
    rfl

end Projects

end Failing

end Casual.Queue
