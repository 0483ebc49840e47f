/-
`queue/group/database.cpp`: the queuebase of a queue group, its tables, triggers and statements.
-/
import Casual.Lib.Table
import Casual.Queue.Message

namespace Casual.Queue

open Casual.Common Casual.Communication Casual.Lib

/-! ## Tables -/

/-- `message::State`. -/
inductive Message.State
  | added
  | enqueued
  | removed
  | dequeued
  deriving DecidableEq, Repr

/-- `Queue::Type`. -/
inductive QueueType
  | groupErrorQueue
  | errorQueue
  | queue
  deriving DecidableEq, Repr

/-- A row of the table `queue`. -/
structure QueueRow where
  id : Nat
  name : String
  retries : Nat
  error : Nat
  type : QueueType
  count : Int
  size : Int
  uncommittedCount : Int
  timestamp : Int
  deriving DecidableEq, Repr

/-- A row of the table `message`. The columns that can be `NULL` are the ones `parameter_bind` can
bind `NULL` to. -/
structure MessageRow where
  id : Uuid
  queue : Nat
  origin : Nat
  gtrid : Option (List UInt8)
  properties : String
  state : Message.State
  reply : String
  redelivered : Nat
  type : String
  subtype : String
  avalible : Int
  timestamp : Int
  payload : Option (List UInt8)
  deriving DecidableEq, Repr

/-- The two tables, their rows in the order of their `ROWID`. A row of `message` is named by its
primary key where the statements name it by its `ROWID`. -/
structure Database where
  queues : List QueueRow
  messages : List MessageRow
  deriving DecidableEq, Repr

/-- `=` on values that can be `NULL`: `NULL` is equal to nothing. -/
def sqlEq (lhs rhs : Option (List UInt8)) : Bool :=
  match lhs, rhs with
  | some lhs, some rhs => lhs == rhs
  | _, _ => false

@[simp] theorem sqlEq_some_right {lhs : Option (List UInt8)} {rhs : List UInt8} :
    sqlEq lhs (some rhs) = true ↔ lhs = some rhs := by
  cases lhs <;> simp [sqlEq]

@[simp] theorem sqlEq_eq_false {lhs : Option (List UInt8)} {rhs : List UInt8} :
    sqlEq lhs (some rhs) = false ↔ lhs ≠ some rhs := by
  rw [Ne, ← sqlEq_some_right, Bool.not_eq_true]

@[simp] theorem sqlEq_none_right {lhs : Option (List UInt8)} : sqlEq lhs none = false := by
  cases lhs <;> rfl

/-! ## Triggers -/

/-- `UPDATE queue SET … WHERE …`; the statement fails when a column that is `NOT NULL` would become
`NULL`. -/
def updateQueues (affects : QueueRow → Bool) (set : QueueRow → Option QueueRow) :
    List QueueRow → Option (List QueueRow)
  | [] => some []
  | q :: qs =>
    match (if affects q then set q else some q), updateQueues affects set qs with
    | some q, some qs => some (q :: qs)
    | _, _ => none

/-- `size + length( payload)`, `NULL` for a payload that is `NULL`. -/
def addLength (size : Int) (payload : Option (List UInt8)) : Option Int := payload.map fun p => size + p.length

/-- The size that is left when a payload is gone. -/
def subLength (size : Int) (payload : Option (List UInt8)) : Option Int := payload.map fun p => size - p.length

/-- `insert_message`. -/
def insertMessage (new : MessageRow) (queues : List QueueRow) : Option (List QueueRow) :=
  (updateQueues (fun q => q.id == new.queue && new.state == .added)
    (fun q => some { q with timestamp := new.timestamp, uncommittedCount := q.uncommittedCount + 1 }) queues).bind
  (updateQueues (fun q => q.id == new.queue && new.state == .enqueued)
    fun q => (addLength q.size new.payload).map fun size =>
      { q with timestamp := new.timestamp, count := q.count + 1, size := size })

/-- `update_message_state`. -/
def updateMessageState (old new : MessageRow) (queues : List QueueRow) : Option (List QueueRow) :=
  updateQueues (fun q => q.id == new.queue && old.state == .added && new.state == .enqueued)
    (fun q => (addLength q.size new.payload).map fun size =>
      { q with count := q.count + 1, size := size, uncommittedCount := q.uncommittedCount - 1 }) queues

/-- `update_message_queue`. -/
def updateMessageQueue (old new : MessageRow) (queues : List QueueRow) : Option (List QueueRow) :=
  (updateQueues (fun q => q.id == new.queue && new.queue != old.queue)
    (fun q => (addLength q.size new.payload).map fun size => { q with count := q.count + 1, size := size })
    queues).bind
  (updateQueues (fun q => q.id == old.queue && old.queue != new.queue)
    fun q => (subLength q.size old.payload).map fun size => { q with count := q.count - 1, size := size })

/-- `delete_message`. -/
def deleteMessage (old : MessageRow) (queues : List QueueRow) : Option (List QueueRow) :=
  (updateQueues (fun q => q.id == old.queue && (old.state == .enqueued || old.state == .removed))
    (fun q => (subLength q.size old.payload).map fun size => { q with count := q.count - 1, size := size })
    queues).bind
  (updateQueues (fun q => q.id == old.queue && old.state == .added)
    fun q => some { q with uncommittedCount := q.uncommittedCount - 1 })

/-! ## Statements -/

namespace Database

/-- `FOREIGN KEY (queue) REFERENCES queue( id)`. -/
def foreignKeys (db : Database) : Bool := db.messages.all fun m => db.queues.any fun q => q.id == m.queue

/-- A statement that updates or deletes messages. -/
def change (affects : MessageRow → Bool) (set : MessageRow → Option MessageRow)
    (trigger : MessageRow → Option MessageRow → List QueueRow → Option (List QueueRow)) (db : Database) :
    Option Database :=
  match Table.execute affects set trigger db.messages db.queues with
  | none => none
  | some r => if foreignKeys ⟨r.2, r.1⟩ then some ⟨r.2, r.1⟩ else none

/-- `UPDATE message SET … WHERE …`, with the trigger for the columns that are set. -/
def update (trigger : MessageRow → MessageRow → List QueueRow → Option (List QueueRow))
    (set : MessageRow → MessageRow) (affects : MessageRow → Bool) : Database → Option Database :=
  change affects (fun m => some (set m)) fun old new queues => new.elim (some queues) fun new => trigger old new queues

/-- `DELETE FROM message WHERE …`. -/
def delete (affects : MessageRow → Bool) : Database → Option Database :=
  change affects (fun _ => none) fun old _ queues => deleteMessage old queues

/-- `INSERT INTO message VALUES …`: the primary key is new, and the queue exists. -/
def insert (new : MessageRow) (db : Database) : Option Database :=
  if db.messages.any fun m => m.id == new.id then none
  else if !(db.queues.any fun q => q.id == new.queue) then none
  else (insertMessage new db.queues).map fun queues => ⟨queues, db.messages ++ [new]⟩

/-- The id of the next queue: `NULL` for an `INTEGER PRIMARY KEY` is one more than the largest. -/
def nextId (db : Database) : Nat := (db.queues.map (·.id)).foldr max 0 + 1

/-- `INSERT INTO queue VALUES ( NULL,…, 0, 0, 0, …)`: the name is new. -/
def insertQueue (name : String) (retries error : Nat) (type : QueueType) (now : Int) (db : Database) :
    Option Database :=
  if db.queues.any fun q => q.name == name then none
  else some { db with queues := db.queues ++ [⟨db.nextId, name, retries, error, type, 0, 0, 0, now⟩] }

/-- `ORDER BY timestamp ASC LIMIT 1`. -/
def earliest : List MessageRow → Option MessageRow
  | [] => none
  | m :: ms =>
    match earliest ms with
    | none => some m
    | some n => if n.timestamp < m.timestamp then some n else some m

/-- `state = 2 AND ( avalible is NULL OR avalible < :avalible)`; `avalible` is never `NULL`. -/
def available (now : Int) (m : MessageRow) : Bool := m.state == .enqueued && m.avalible < now

/-- `m_statement.dequeue.first`. -/
def first (queue : Nat) (now : Int) (db : Database) : Option MessageRow :=
  earliest (db.messages.filter fun m => m.queue == queue && available now m)

/-- `m_statement.dequeue.first_id`. -/
def firstId (id : Uuid) (queue : Nat) (now : Int) (db : Database) : Option MessageRow :=
  db.messages.find? fun m => m.id == id && m.queue == queue && available now m

/-- `m_statement.dequeue.first_match`. -/
def firstMatch (queue : Nat) (properties : String) (now : Int) (db : Database) : Option MessageRow :=
  earliest (db.messages.filter fun m => m.queue == queue && available now m && m.properties == properties)

/-- `m_statement.state.xid`. -/
def stateXid (gtrid : Option (List UInt8)) (id : Uuid) : Database → Option Database :=
  update updateMessageState (fun m => { m with gtrid := gtrid, state := .removed }) fun m => m.id == id

/-- `m_statement.state.nullxid`. -/
def stateNullxid (id : Uuid) : Database → Option Database := delete fun m => m.id == id

/-- `m_statement.commit1`. -/
def commit1 (gtrid : Option (List UInt8)) : Database → Option Database :=
  update updateMessageState (fun m => { m with state := .enqueued }) fun m => sqlEq m.gtrid gtrid && m.state == .added

/-- `m_statement.commit2`. -/
def commit2 (gtrid : Option (List UInt8)) : Database → Option Database :=
  delete fun m => sqlEq m.gtrid gtrid && m.state == .removed

/-- `m_statement.rollback1`. -/
def rollback1 (gtrid : Option (List UInt8)) : Database → Option Database :=
  delete fun m => sqlEq m.gtrid gtrid && m.state == .added

/-- `m_statement.rollback2`. -/
def rollback2 (gtrid : Option (List UInt8)) : Database → Option Database :=
  update updateMessageState (fun m => { m with state := .enqueued, redelivered := m.redelivered + 1 })
    fun m => sqlEq m.gtrid gtrid && m.state == .removed

/-- `SELECT … FROM queue WHERE id = …`. -/
def queueOf (queues : List QueueRow) (id : Nat) : Option QueueRow := queues.find? fun q => q.id == id

/-- `m_statement.rollback3`, for the messages of every transaction. -/
def rollback3 (db : Database) : Option Database :=
  update updateMessageQueue
    (fun m => { m with redelivered := 0, queue := (queueOf db.queues m.queue).elim 0 (·.error) })
    (fun m => (queueOf db.queues m.queue).any fun q => q.retries < m.redelivered) db

/-! ## Operations -/

/-- A statement that fails throws, and leaves the database as it was. -/
def execute (statement : Database → Option Database) : EStateM Exception Database Unit := fun db =>
  match statement db with
  | some db => .ok () db
  | none => .error .query db

/-- `Database( database, groupname)` on a file that is not there yet. -/
def «open» (groupname : String) (now : Int) : Database :=
  ⟨[⟨1, groupname ++ ".group.error", 0, 1, .groupErrorQueue, 0, 0, 0, now⟩], []⟩

/-- `m_error_queue`. -/
def errorQueue : Nat := 1

/-- `create`, the ids of the queue and of its error queue. -/
def create (name : String) (retries : Nat) (now : Int) : EStateM Exception Database (Nat × Nat) := do
  let error := (← get).nextId
  execute (insertQueue (name ++ ".error") retries errorQueue .errorQueue now)
  let id := (← get).nextId
  execute (insertQueue name retries error .queue now)
  return (id, error)

/-- `enqueue`, at a time, with the id `uuid::make` would give. -/
def enqueue (message : Message.EnqueueRequest) (made : Uuid) (now : Int) :
    EStateM Exception Database Message.EnqueueReply := do
  let id := if message.message.id ≠ 0 then message.message.id else made
  execute (insert
    { id := id
      queue := message.queue
      origin := message.queue
      gtrid := Transaction.bind (Transaction.global message.trid)
      properties := message.message.properties
      state := if message.trid.isSome then .added else .enqueued
      reply := message.message.reply
      redelivered := 0
      type := message.message.type.name
      subtype := message.message.type.subname
      avalible := message.message.avalible
      timestamp := now
      payload := message.message.payload })
  return ⟨id⟩

/-- The query of `dequeue`. -/
def select (message : Message.DequeueRequest) (now : Int) (db : Database) : Option MessageRow :=
  if message.selector.id ≠ 0 then db.firstId message.selector.id message.queue now
  else if message.selector.properties ≠ "" then db.firstMatch message.queue message.selector.properties now
  else db.first message.queue now

/-- `transform::Reply`. -/
def reply (m : MessageRow) : Message.Dequeued :=
  { id := m.id
    properties := m.properties
    reply := m.reply
    redelivered := m.redelivered
    type := ⟨m.type, m.subtype⟩
    avalible := m.avalible
    timestamp := m.timestamp
    payload := m.payload }

/-- `dequeue`. -/
def dequeue (message : Message.DequeueRequest) (now : Int) : EStateM Exception Database Message.DequeueReply := do
  match (← get).select message now with
  | none => return ⟨0, []⟩
  | some row =>
    match message.trid with
    | some trid => execute (stateXid (Transaction.bind (Transaction.global (some trid))) row.id)
    | none => execute (stateNullxid row.id)
    return ⟨0, [reply row]⟩

/-- `commit`. -/
def commit (id : Transaction.ID) : EStateM Exception Database Unit := do
  let gtrid := Transaction.bind (Transaction.global (some id))
  execute (commit1 gtrid)
  execute (commit2 gtrid)

/-- `rollback`. -/
def rollback (id : Transaction.ID) : EStateM Exception Database Unit := do
  let gtrid := Transaction.bind (Transaction.global (some id))
  execute (rollback1 gtrid)
  execute (rollback2 gtrid)
  execute rollback3

end Database

end Casual.Queue
