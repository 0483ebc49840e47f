/-
A queuebase as a transactional store: a message is held by the transaction that enqueued or dequeued
it until that transaction is committed or rolled back, and is available otherwise.
-/
import Casual.Queue.Statistics

namespace Casual.Queue

open Casual.Common Casual.Communication Casual.Lib

/-! ## The store -/

/-- Who holds a message. -/
inductive Holder
  | addedBy (gtrid : List UInt8)
  | available
  | takenBy (gtrid : List UInt8)
  deriving DecidableEq, Repr

/-- What does not change in a message. -/
structure Content where
  origin : Nat
  properties : String
  reply : String
  type : BufferType
  avalible : Int
  timestamp : Int
  payload : Option (List UInt8)
  deriving DecidableEq, Repr

/-- A message in the store. -/
structure Entry where
  queue : Nat
  redelivered : Nat
  holder : Holder
  content : Content
  deriving DecidableEq, Repr

namespace Entry

/-- A transaction is committed: what it added is available, what it took is gone. -/
def commit (gtrid : List UInt8) (e : Entry) : Option Entry :=
  match e.holder with
  | .addedBy t => if t = gtrid then some { e with holder := .available } else some e
  | .available => some e
  | .takenBy t => if t = gtrid then none else some e

/-- A transaction is rolled back: what it added is gone, what it took is available again, once more
redelivered, or in the error queue when that is more often than the queue retries. -/
def rollback (retries error : Nat → Nat) (gtrid : List UInt8) (e : Entry) : Option Entry :=
  match e.holder with
  | .addedBy t => if t = gtrid then none else some e
  | .available => some e
  | .takenBy t =>
    if t = gtrid then
      if e.redelivered + 1 > retries e.queue then
        some { e with holder := .available, queue := error e.queue, redelivered := 0 }
      else some { e with holder := .available, redelivered := e.redelivered + 1 }
    else some e

end Entry

/-- Who has a message. -/
def MessageRow.holder (m : MessageRow) : Holder :=
  match m.state with
  | .added => .addedBy (m.gtrid.getD [])
  | .enqueued => .available
  | .removed => .takenBy (m.gtrid.getD [])
  | .dequeued => .takenBy (m.gtrid.getD [])

/-- What a message carries, whoever has it. -/
def MessageRow.content (m : MessageRow) : Content :=
  ⟨m.origin, m.properties, m.reply, ⟨m.type, m.subtype⟩, m.avalible, m.timestamp, m.payload⟩

/-- A row of the message table as the abstract store has it. -/
def MessageRow.entry (m : MessageRow) : Entry := ⟨m.queue, m.redelivered, m.holder, m.content⟩

/-- A message a transaction holds. -/
def Entry.heldBy (gtrid : List UInt8) (e : Entry) : Prop := e.holder = .addedBy gtrid ∨ e.holder = .takenBy gtrid

/-- What a request asks for of a message, among those that nobody holds. -/
structure Entry.Meets (message : Message.DequeueRequest) (now : Int) (id : Uuid) (e : Entry) : Prop where
  holder : e.holder = .available
  queue : e.queue = message.queue
  avalible : e.content.avalible < now
  /-- A message is asked for by its id, by its properties or not at all. -/
  selected : if message.selector.id ≠ 0 then id = message.selector.id
    else message.selector.properties ≠ "" → e.content.properties = message.selector.properties

/-- A message as it is handed out. -/
def Entry.handed (id : Uuid) (e : Entry) : Message.Dequeued :=
  { id := id
    properties := e.content.properties
    reply := e.content.reply
    redelivered := e.redelivered
    type := e.content.type
    avalible := e.content.avalible
    timestamp := e.content.timestamp
    payload := e.content.payload }

theorem MessageRow.entry_meets {message : Message.DequeueRequest} {now : Int} {m : MessageRow} :
    m.entry.Meets message now m.id ↔
      m.queue = message.queue ∧ m.state = .enqueued ∧ m.avalible < now ∧ Database.Matches message.selector m := by
  have hholder : m.entry.holder = .available ↔ m.state = .enqueued := by
    unfold MessageRow.entry MessageRow.holder
    cases m.state <;> simp
  constructor
  · intro h
    exact ⟨h.queue, hholder.1 h.holder, h.avalible, h.selected⟩
  · rintro ⟨hqueue, hstate, havalible, hmatches⟩
    exact ⟨hholder.2 hstate, hqueue, havalible, hmatches⟩

/-- A call that commits or rolls back a transaction. -/
def Call.ends (gtrid : List UInt8) : Call → Prop
  | .commit id => id.xid.gtrid = gtrid
  | .rollback id => id.xid.gtrid = gtrid
  | _ => False

namespace Database

/-- The store a queuebase stands for. -/
def view (db : Database) (id : Uuid) : Option Entry :=
  (db.messages.find? fun m => m.id == id).map MessageRow.entry

/-- `retries` and `error` of a queue. -/
def retriesOf (db : Database) (queue : Nat) : Nat := (queueOf db.queues queue).elim 0 (·.retries)

/-- The error queue of a queue. -/
def errorOf (db : Database) (queue : Nat) : Nat := (queueOf db.queues queue).elim 0 (·.error)

/-! ### What the rows have to do with the store -/

theorem find_filterMap {f : MessageRow → Option MessageRow} (hid : ∀ m m', f m = some m' → m'.id = m.id) (id : Uuid) :
    ∀ {ms : List MessageRow}, (ms.map (·.id)).Nodup →
      (ms.filterMap f).find? (fun m => m.id == id) = (ms.find? fun m => m.id == id).bind f
  | [], _ => rfl
  | m :: ms, hnodup => by
    obtain ⟨hnot, hnodup⟩ := List.nodup_cons.1 hnodup
    have ih := find_filterMap hid id hnodup
    rw [List.filterMap_cons]
    by_cases hm : m.id = id
    · rw [List.find?_cons_of_pos (by simpa using hm), Option.bind_some]
      cases hf : f m with
      | none =>
        -- no other message has the id
        rw [ih]
        have hnone : ms.find? (fun m => m.id == id) = none := by
          refine List.find?_eq_none.2 fun m' hm' => ?_
          have : m'.id ≠ id := fun h' => hnot (List.mem_map.2 ⟨m', hm', h'.trans hm.symm⟩)
          simpa using this
        rw [hnone]; rfl
      | some m' => rw [List.find?_cons_of_pos (by simpa [hid m m' hf] using hm)]
    · rw [List.find?_cons_of_neg (by simpa using hm), ← ih]
      cases hf : f m with
      | none => rfl
      | some m' => rw [List.find?_cons_of_neg (by simpa [hid m m' hf] using hm)]

theorem view_filterMap {db db' : Database} (hc : Consistent db) {f : MessageRow → Option MessageRow}
    {g : Entry → Option Entry} (hm : db'.messages = db.messages.filterMap f)
    (hid : ∀ m m', f m = some m' → m'.id = m.id)
    (hfg : ∀ m ∈ db.messages, (f m).map MessageRow.entry = g m.entry) (id : Uuid) :
    db'.view id = (db.view id).bind g := by
  unfold view
  rw [hm, find_filterMap hid id hc.ids]
  cases h : db.messages.find? fun m => m.id == id with
  | none => rfl
  | some m => exact hfg m (List.mem_of_find?_eq_some h)

theorem view_of_mem {db : Database} (hc : Consistent db) {m : MessageRow} (hm : m ∈ db.messages) :
    db.view m.id = some m.entry := by
  unfold view
  cases h : db.messages.find? fun m' => m'.id == m.id with
  | none =>
    have := List.find?_eq_none.1 h m hm
    simp at this
  | some m' =>
    have hid : m'.id = m.id := by simpa using List.find?_some h
    rw [List.inj_on_of_nodup_map hc.ids (List.mem_of_find?_eq_some h) hm hid]
    rfl

theorem mem_of_view {db : Database} {id : Uuid} {e : Entry} (h : db.view id = some e) :
    ∃ m ∈ db.messages, m.id = id ∧ m.entry = e := by
  unfold view at h
  obtain ⟨m, hf, he⟩ := Option.map_eq_some_iff.1 h
  exact ⟨m, List.mem_of_find?_eq_some hf, by simpa using List.find?_some hf, he⟩

theorem committed_entry {m : MessageRow} (hm : m.Sane) (gtrid : List UInt8) :
    (committed gtrid m).map MessageRow.entry = m.entry.commit gtrid := by
  cases hs : m.state with
  | enqueued => simp [committed, Entry.commit, MessageRow.entry, MessageRow.holder, hs]
  | dequeued => exact absurd hs hm.state
  | added =>
    obtain ⟨t, ht⟩ := hm.gtrid (by rw [hs]; decide)
    by_cases htg : t = gtrid <;>
      simp [committed, Entry.commit, MessageRow.entry, MessageRow.holder, MessageRow.content, hs, ht, htg]
  | removed =>
    obtain ⟨t, ht⟩ := hm.gtrid (by rw [hs]; decide)
    by_cases htg : t = gtrid <;>
      simp [committed, Entry.commit, MessageRow.entry, MessageRow.holder, hs, ht, htg]

theorem rolledBack_entry {db : Database} (hc : Consistent db) {m : MessageRow} (hmem : m ∈ db.messages)
    (gtrid : List UInt8) :
    (rolledBack db.queues gtrid m).map MessageRow.entry = m.entry.rollback db.retriesOf db.errorOf gtrid := by
  have hm := hc.rows m hmem
  obtain ⟨q, hq, hqm⟩ := hc.foreignKey m hmem
  have hqueue : queueOf db.queues m.queue = some q := by rw [← hqm]; exact queueOf_of_mem hc.queueIds hq
  cases hs : m.state with
  | enqueued => simp [rolledBack, Entry.rollback, MessageRow.entry, MessageRow.holder, hs]
  | dequeued => exact absurd hs hm.state
  | added =>
    obtain ⟨t, ht⟩ := hm.gtrid (by rw [hs]; decide)
    by_cases htg : t = gtrid <;>
      simp [rolledBack, Entry.rollback, MessageRow.entry, MessageRow.holder, hs, ht, htg]
  | removed =>
    obtain ⟨t, ht⟩ := hm.gtrid (by rw [hs]; decide)
    by_cases htg : t = gtrid
    · by_cases hover : q.retries ≤ m.redelivered <;>
        simp [rolledBack, moved, Entry.rollback, MessageRow.entry, MessageRow.holder, MessageRow.content, retriesOf,
          errorOf, hs, ht, htg, hqueue, hover]
    · simp [rolledBack, Entry.rollback, MessageRow.entry, MessageRow.holder, hs, ht, htg]

/-! ### What the operations do to the store -/

variable {db : Database}

/-- Who holds a message that was just enqueued. -/
def holderOf (trid : Option Transaction.ID) : Holder := trid.elim .available fun trid => .addedBy trid.xid.gtrid

theorem enqueued_holder (message : Message.EnqueueRequest) (made : Uuid) (now : Int) :
    (enqueued message made now).holder = holderOf message.trid := by
  unfold enqueued MessageRow.holder holderOf
  cases message.trid <;> simp

theorem enqueue_view (hc : Sane db) (message : Message.EnqueueRequest) (made : Uuid) (now : Int) :
    enqueue message made now db = .error .query db ∨
      ∃ id db' e, enqueue message made now db = .ok ⟨id⟩ db' ∧ db.view id = none ∧
        e.queue = message.queue ∧ e.redelivered = 0 ∧ e.holder = holderOf message.trid ∧
        db'.view = Function.update db.view id (some e) := by
  rcases enqueue_spec hc message made now with h | ⟨db', h, hc', -, hm, hnew⟩
  · exact .inl h
  · have hnone : db.messages.find? (fun m => m.id == (enqueued message made now).id) = none :=
      List.find?_eq_none.2 fun m hmem => by
        have : m.id ≠ (enqueued message made now).id := fun h' => hnew (List.mem_map.2 ⟨m, hmem, h'⟩)
        simpa using this
    refine .inr ⟨_, db', (enqueued message made now).entry, h, by unfold view; rw [hnone]; rfl, rfl, rfl,
      enqueued_holder message made now, ?_⟩
    funext id
    by_cases hid : id = (enqueued message made now).id
    · subst hid
      rw [Function.update_self, view_of_mem hc'.toConsistent (by rw [hm]; simp)]
    · rw [Function.update_of_ne hid]
      have hne : ((enqueued message made now).id == id) = false := by simpa using fun h' => hid h'.symm
      unfold view
      rw [hm, List.find?_append]
      simp [hne]

/-- What a dequeue makes of the message it hands out. -/
def takenEntry (trid : Option Transaction.ID) (e : Entry) : Option Entry :=
  trid.map fun trid => { e with holder := .takenBy trid.xid.gtrid }

/-- Nothing is handed out only when nothing meets the request, and then the earliest that does. -/
theorem dequeue_view (hc : Sane db) (message : Message.DequeueRequest) (now : Int) :
    (dequeue message now db = .ok ⟨0, []⟩ db ∧ ∀ id e, db.view id = some e → ¬ e.Meets message now id) ∨
      ∃ id db' e, dequeue message now db = .ok ⟨0, [e.handed id]⟩ db' ∧ db.view id = some e ∧
        e.Meets message now id ∧
        (∀ id' e', db.view id' = some e' → e'.Meets message now id' → e.content.timestamp ≤ e'.content.timestamp) ∧
        db'.view = Function.update db.view id (takenEntry message.trid e) := by
  rcases dequeue_spec hc message now with ⟨hnone, h⟩ | ⟨row, db', hsel, h, hc', -, hm⟩
  · refine .inl ⟨h, fun id e hview hmeets => ?_⟩
    obtain ⟨m, hmem, rfl, rfl⟩ := mem_of_view hview
    obtain ⟨hqueue, hstate, havalible, hmatches⟩ := MessageRow.entry_meets.1 hmeets
    exact select_none hnone m hmem hqueue hstate havalible hmatches
  · obtain ⟨hrow, hselected⟩ := select_some hsel
    refine .inr ⟨row.id, db', row.entry, h, view_of_mem hc.toConsistent hrow, MessageRow.entry_meets.2 hselected, ?_, ?_⟩
    · intro id' e' hview hmeets
      obtain ⟨m, hmem, rfl, rfl⟩ := mem_of_view hview
      obtain ⟨hqueue, hstate, havalible, hmatches⟩ := MessageRow.entry_meets.1 hmeets
      exact select_le hc.toConsistent hsel m hmem hqueue hstate havalible hmatches
    · funext id
      have hid : ∀ m m', taken message.trid row.id m = some m' → m'.id = m.id := by
        intro m m' h'
        unfold taken at h'
        split_ifs at h' with heq
        · obtain ⟨trid, -, rfl⟩ := Option.map_eq_some_iff.1 h'
          rfl
        · cases h'
          rfl
      unfold view
      rw [hm, find_filterMap hid id hc.ids]
      by_cases heq : id = row.id
      · subst heq
        have hrow' := view_of_mem hc.toConsistent hrow
        unfold view at hrow'
        obtain ⟨m, hfind, -⟩ := Option.map_eq_some_iff.1 hrow'
        have hmid : m.id = row.id := by simpa using List.find?_some hfind
        obtain rfl := List.inj_on_of_nodup_map hc.ids (List.mem_of_find?_eq_some hfind) hrow hmid
        rw [hfind]
        change (taken message.trid m.id m).map MessageRow.entry =
          Function.update db.view m.id (takenEntry message.trid m.entry) m.id
        rw [Function.update_self]
        unfold taken takenEntry
        rw [if_pos rfl, Option.map_map]
        rfl
      · rw [Function.update_of_ne heq]
        cases hfind : db.messages.find? fun m => m.id == id with
        | none => rfl
        | some m =>
          have hmid : m.id = id := by simpa using List.find?_some hfind
          have : m.id ≠ row.id := fun h' => heq (hmid.symm.trans h')
          simp [taken, this]

theorem commit1_isSome {gtrid : List UInt8} (hc : Consistent db)
    (hpayload : ∀ m ∈ db.messages, m.gtrid = some gtrid → m.state = .added → ∃ payload, m.payload = some payload) :
    ∃ db', commit1 (some gtrid) db = some db' := by
  refine update_isSome (fun m hm ha qs => ?_) (fun m hm ha qs qs' ht => ?_) fun m hm => ?_
  · simp only [Bool.and_eq_true, beq_iff_eq, sqlEq_some_right] at ha
    obtain ⟨payload, hp⟩ := hpayload m hm ha.1 ha.2
    exact updateQueues_isSome _ _ qs fun q _ _ => ⟨_, by rw [hp]; rfl⟩
  · simp only [Bool.and_eq_true, beq_iff_eq] at ha
    exact updateMessageState_shift ht rfl rfl (.inl ⟨ha.2, rfl⟩)
  · obtain ⟨q, hq, hqm⟩ := hc.foreignKey m hm
    exact ⟨q, hq, by split_ifs <;> exact hqm⟩

/-- A commit fails only for a message whose payload is `NULL`. -/
theorem commit_view (hc : Sane db) (id : Transaction.ID) :
    (commit id db = .error .query db ∧
      ∃ x e, db.view x = some e ∧ e.holder = .addedBy id.xid.gtrid ∧ e.content.payload = none) ∨
      ∃ db', commit id db = .ok () db' ∧ ∀ x, db'.view x = (db.view x).bind (Entry.commit id.xid.gtrid) := by
  rcases commit_spec hc id with h | ⟨db', h, -, -, hm⟩
  · left
    refine ⟨h, ?_⟩
    by_contra hno
    push Not at hno
    obtain ⟨db₁, h₁⟩ := @commit1_isSome _ id.xid.gtrid hc.toConsistent fun m hm hg hs => by
      have hne := hno m.id m.entry (view_of_mem hc.toConsistent hm)
        (by simp [MessageRow.entry, MessageRow.holder, hs, hg])
      exact Option.ne_none_iff_exists'.1 hne
    obtain ⟨db₂, h₂, -⟩ := @commit2_spec _ id.xid.gtrid (commit1_spec hc.toConsistent h₁).1
    unfold commit at h
    simp only [Transaction.bind_global_some] at h
    rw [bind_ok (execute_some h₁), execute_some h₂] at h
    cases h
  · refine .inr ⟨db', h, view_filterMap hc.toConsistent hm ?_ fun m hmem => committed_entry (hc.rows m hmem) _⟩
    intro m m' h'
    unfold committed at h'
    split_ifs at h' <;> cases h' <;> rfl

theorem rollback_view (hc : Sane db) (id : Transaction.ID) :
    ∃ db', rollback id db = .ok () db' ∧
      ∀ x, db'.view x = (db.view x).bind (Entry.rollback db.retriesOf db.errorOf id.xid.gtrid) := by
  obtain ⟨db', h, -, -, hm⟩ := rollback_spec hc id
  refine ⟨db', h, view_filterMap hc.toConsistent hm ?_ fun m hmem => rolledBack_entry hc.toConsistent hmem _⟩
  intro m m' h'
  unfold rolledBack at h'
  split_ifs at h' <;> cases h'
  · unfold moved
    split_ifs <;> rfl
  · rfl

/-! ### What a transaction holds -/

theorem view_create (hc : Opened db) (name : String) (retries : Nat) (now : Int) :
    (after (create name retries now db)).view = db.view := by
  funext id
  unfold view
  rw [(create_spec hc.toSane hc.errorQueue name retries now).2.2]

/-- A call that does not end a transaction leaves what the transaction holds. -/
theorem call_held {gtrid : List UInt8} {id : Uuid} {e : Entry} (hc : Opened db) (hview : db.view id = some e)
    (hheld : e.heldBy gtrid) (c : Call) (hends : ¬ c.ends gtrid) : (db.call c).view id = some e := by
  cases c with
  | create name retries now =>
    simp only [Database.call, view_create hc]
    exact hview
  | enqueue message made now =>
    simp only [Database.call]
    rcases enqueue_view hc.toSane message made now with h | ⟨id', db', e', h, hnone, -, -, -, hupdate⟩
    · rw [h]; exact hview
    · rw [h, after_ok, hupdate, Function.update_of_ne, hview]
      rintro rfl
      rw [hnone] at hview
      cases hview
  | dequeue message now =>
    simp only [Database.call]
    rcases dequeue_view hc.toSane message now with ⟨h, -⟩ | ⟨id', db', e', h, hsome, hmeets, -, hupdate⟩
    · rw [h]; exact hview
    · rw [h, after_ok, hupdate, Function.update_of_ne, hview]
      rintro rfl
      rw [hview] at hsome
      cases hsome
      unfold Entry.heldBy at hheld
      rw [hmeets.holder] at hheld
      rcases hheld with h' | h' <;> cases h'
  | commit t =>
    simp only [Database.call]
    have hne : t.xid.gtrid ≠ gtrid := hends
    rcases commit_view hc.toSane t with ⟨h, -⟩ | ⟨db', h, hcommit⟩
    · rw [h]; exact hview
    · rw [h, after_ok, hcommit, hview, Option.bind_some]
      unfold Entry.commit
      rcases hheld with h' | h' <;> rw [h'] <;> simp [hne.symm]
  | rollback t =>
    simp only [Database.call]
    have hne : t.xid.gtrid ≠ gtrid := hends
    obtain ⟨db', h, hrollback⟩ := rollback_view hc.toSane t
    rw [h, after_ok, hrollback, hview, Option.bind_some]
    unfold Entry.rollback
    rcases hheld with h' | h' <;> rw [h'] <;> simp [hne.symm]

/-- As long as a transaction is neither committed nor rolled back it holds what it added and took. -/
theorem run_held {gtrid : List UInt8} {id : Uuid} {e : Entry} (hc : Opened db) (hview : db.view id = some e)
    (hheld : e.heldBy gtrid) {calls : List Call} {db' : Database} (hrun : queuebase.Run db calls db')
    (hends : ∀ c ∈ calls, ¬ c.ends gtrid) : db'.view id = some e := by
  have hkeep : Opened db' ∧ db'.view id = some e :=
    hrun.invariant_of (I := fun t => Opened t ∧ t.view id = some e) (A := fun c => ¬ c.ends gtrid)
      (fun t c ht hn _ => ⟨ht.1.call c, call_held ht.1 ht.2 hheld c hn⟩) hends ⟨hc, hview⟩
  exact hkeep.2

/-- What holds of a queuebase as a transactional store. -/
structure Transactional (db : Database) : Prop where
  /-- An enqueue adds a new message, held by its transaction if it has one, or fails. -/
  enqueue : ∀ message made now, enqueue message made now db = .error .query db ∨
    ∃ id db' e, enqueue message made now db = .ok ⟨id⟩ db' ∧ db.view id = none ∧
      e.queue = message.queue ∧ e.redelivered = 0 ∧ e.holder = holderOf message.trid ∧
      db'.view = Function.update db.view id (some e)
  /-- A dequeue hands out the earliest message that nobody holds and that meets the request, and gives
  it to its transaction, or takes it away; it finds nothing only when there is none. -/
  dequeue : ∀ message now,
    (dequeue message now db = .ok ⟨0, []⟩ db ∧ ∀ id e, db.view id = some e → ¬ e.Meets message now id) ∨
    ∃ id db' e, dequeue message now db = .ok ⟨0, [e.handed id]⟩ db' ∧ db.view id = some e ∧
      e.Meets message now id ∧
      (∀ id' e', db.view id' = some e' → e'.Meets message now id' → e.content.timestamp ≤ e'.content.timestamp) ∧
      db'.view = Function.update db.view id (takenEntry message.trid e)
  /-- What a transaction holds it holds until it is committed or rolled back, and till then nobody is
  handed it. -/
  held : ∀ gtrid id e, db.view id = some e → e.heldBy gtrid →
    ∀ calls db', queuebase.Run db calls db' → (∀ c ∈ calls, ¬ c.ends gtrid) →
      db'.view id = some e ∧
        ∀ message now reply db'', Database.dequeue message now db' = .ok reply db'' → ∀ m ∈ reply.message, m.id ≠ id
  /-- A commit acts on what the transaction holds and on nothing else, or fails and changes nothing. -/
  commit : ∀ id, (commit id db = .error .query db ∧
      ∃ x e, db.view x = some e ∧ e.holder = .addedBy id.xid.gtrid ∧ e.content.payload = none) ∨
    ∃ db', commit id db = .ok () db' ∧ ∀ x, db'.view x = (db.view x).bind (Entry.commit id.xid.gtrid)
  /-- So does a rollback. -/
  rollback : ∀ id, ∃ db', rollback id db = .ok () db' ∧
    ∀ x, db'.view x = (db.view x).bind (Entry.rollback db.retriesOf db.errorOf id.xid.gtrid)

theorem transactional_of_reachable (h : queuebase.Reachable db) : Transactional db := by
  have hc := opened_of_reachable h
  refine ⟨enqueue_view hc.toSane, dequeue_view hc.toSane, ?_, commit_view hc.toSane, rollback_view hc.toSane⟩
  intro gtrid id e hview hheld calls db' hrun hends
  have hview' := run_held hc hview hheld hrun hends
  refine ⟨hview', ?_⟩
  have hc' : Opened db' := hrun.invariant (fun t c ht _ => ht.call c) hc
  intro message now reply db'' hdequeue m hm hid
  rcases dequeue_view hc'.toSane message now with ⟨h', -⟩ | ⟨id', _, e', h', hsome, hmeets, -, -⟩
  · rw [hdequeue] at h'
    cases h'
    cases hm
  · rw [hdequeue] at h'
    cases h'
    -- what was handed out is held by nobody
    obtain rfl : m = e'.handed id' := by simpa using hm
    obtain rfl : id' = id := hid
    rw [hview'] at hsome
    cases hsome
    unfold Entry.heldBy at hheld
    rw [hmeets.holder] at hheld
    rcases hheld with h' | h' <;> cases h'

theorem rolledBackTwice_transactional :
    Transactional (rolledBackTwice.foldl Database.call («open» "g" 0)) :=
  transactional_of_reachable (reachable_calls _ (Machine.Reachable.of_init ⟨"g", 0, rfl⟩))

end Database

end Casual.Queue
