/-
Every sequence of operations on a queuebase, and what the stored counts of a queue are then: what its
messages add up to.
-/
import Casual.Lib.Run
import Casual.Queue.Operations

namespace Casual.Queue

open Casual.Common Casual.Communication Casual.Lib

/-! ## Sequences of operations -/

/-- A call of one of the operations. -/
inductive Call
  | create (name : String) (retries : Nat) (now : Int)
  | enqueue (message : Message.EnqueueRequest) (made : Uuid) (now : Int)
  | dequeue (message : Message.DequeueRequest) (now : Int)
  | commit (id : Transaction.ID)
  | rollback (id : Transaction.ID)

/-- What a call leaves, whether it returns or throws. -/
def Database.call (db : Database) : Call → Database
  | .create name retries now => after (create name retries now db)
  | .enqueue message made now => after (enqueue message made now db)
  | .dequeue message now => after (dequeue message now db)
  | .commit id => after (commit id db)
  | .rollback id => after (rollback id db)

/-- A queuebase that is opened on a new file. -/
def queuebase : Machine Database Call where
  init db := ∃ groupname now, db = .open groupname now
  admits _ _ := True
  step := Database.call

namespace Database

/-- A sane queuebase with its group error queue. -/
structure Opened (db : Database) : Prop extends Sane db where
  errorQueue : ∃ e ∈ db.queues, e.id = errorQueue

theorem opened_open (groupname : String) (now : Int) : Opened («open» groupname now) := by
  refine ⟨⟨⟨by simp [«open»], by simp [«open»], by simp [«open»], ?_, by simp [«open»], ?_⟩, ?_⟩, ?_⟩
  · intro q hq
    exact ⟨q, hq, by simp only [«open», List.mem_singleton] at hq; rw [hq]⟩
  · intro q hq
    simp only [«open», List.mem_singleton] at hq
    subst hq; rfl
  · intro m hm
    simp [«open»] at hm
  · exact ⟨_, List.mem_singleton_self _, rfl⟩

theorem opened_of_same {db db' : Database} (h : Opened db) (hs : Sane db') (hq : SameQueues db db') : Opened db' := by
  obtain ⟨e, he, hee⟩ := h.errorQueue
  obtain ⟨e', he', heq⟩ := exists_of_statics hq.symm he
  exact ⟨hs, e', he', by rw [← (static_eq heq).1, hee]⟩

theorem Opened.call {db : Database} (h : Opened db) (c : Call) : Opened (db.call c) := by
  cases c with
  | create name retries now =>
    obtain ⟨hs, hqueues, -⟩ := create_spec h.toSane h.errorQueue name retries now
    obtain ⟨e, he, hee⟩ := h.errorQueue
    exact ⟨hs, e, hqueues e he, hee⟩
  | enqueue message made now =>
    simp only [Database.call]
    rcases enqueue_spec h.toSane message made now with he | ⟨db', he, hs, hq, -⟩
    · rw [he]; exact h
    · rw [he]; exact opened_of_same h hs hq
  | dequeue message now =>
    simp only [Database.call]
    rcases dequeue_spec h.toSane message now with ⟨-, he⟩ | ⟨row, db', -, he, hs, hq, -⟩
    · rw [he]; exact h
    · rw [he]; exact opened_of_same h hs hq
  | commit id =>
    simp only [Database.call]
    rcases commit_spec h.toSane id with he | ⟨db', he, hs, hq, -⟩
    · rw [he]; exact h
    · rw [he]; exact opened_of_same h hs hq
  | rollback id =>
    simp only [Database.call]
    obtain ⟨db', he, hs, hq, -⟩ := rollback_spec h.toSane id
    rw [he]; exact opened_of_same h hs hq

theorem opened_of_reachable {db : Database} (h : queuebase.Reachable db) : Opened db :=
  h.invariant (fun _ ⟨groupname, now, he⟩ => he ▸ opened_open groupname now) fun _ c ht _ => ht.call c

theorem reachable_calls : ∀ (calls : List Call) {db : Database}, queuebase.Reachable db →
    queuebase.Reachable (calls.foldl Database.call db)
  | [], _, h => h
  | c :: calls, _, h => reachable_calls calls (Machine.Reachable.step (e := c) h trivial)

/-! ## The counts of a queue -/

/-- The messages of a queue in some of the states. -/
def messagesOf (db : Database) (queue : Nat) (states : List Message.State) : List MessageRow :=
  db.messages.filter fun m => m.queue == queue && states.contains m.state

theorem sum_totals (queue : Nat) : ∀ ms : List MessageRow, (∀ m ∈ ms, m.state ≠ .dequeued) →
    (ms.map MessageRow.totals).sum queue =
      (((ms.filter fun m => m.queue == queue && [Message.State.enqueued, .removed].contains m.state).length : Int),
        ((ms.filter fun m => m.queue == queue && [Message.State.enqueued, .removed].contains m.state).map MessageRow.length).sum,
        ((ms.filter fun m => m.queue == queue && [Message.State.added].contains m.state).length : Int))
  | [], _ => rfl
  | m :: ms, h => by
    have ih := sum_totals queue ms fun m' hm' => h m' (List.mem_cons_of_mem _ hm')
    have hstate := h m List.mem_cons_self
    rw [List.map_cons, List.sum_cons, Pi.add_apply, ih]
    by_cases hq : m.queue = queue
    · cases hs : m.state <;> simp_all [MessageRow.totals, Message.State.totals, add_comm]
    · have hq' : ¬ queue = m.queue := fun h' => hq h'.symm
      simp [MessageRow.totals, hq, hq']

theorem sum_length_nonneg (ms : List MessageRow) : 0 ≤ (ms.map MessageRow.length).sum := by
  refine List.sum_nonneg fun n hn => ?_
  obtain ⟨m, -, rfl⟩ := List.mem_map.1 hn
  unfold MessageRow.length
  cases m.payload <;> simp

/-- For every queue, count, size and uncommitted count are those of its messages, and none of them
is negative. -/
theorem statistics {db : Database} (h : queuebase.Reachable db) : ∀ q ∈ db.queues,
    q.count = (db.messagesOf q.id [.enqueued, .removed]).length ∧
    q.size = ((db.messagesOf q.id [.enqueued, .removed]).map MessageRow.length).sum ∧
    q.uncommittedCount = (db.messagesOf q.id [.added]).length ∧
    0 ≤ q.count ∧ 0 ≤ q.size ∧ 0 ≤ q.uncommittedCount := by
  intro q hq
  have ho := opened_of_reachable h
  have htotals := ho.totals q hq
  rw [sum_totals q.id db.messages fun m hm => (ho.rows m hm).state] at htotals
  obtain ⟨hcount, hsize, huncommitted⟩ : q.count = _ ∧ q.size = _ ∧ q.uncommittedCount = _ := by
    simpa only [QueueRow.totals, Prod.mk.injEq] using htotals
  refine ⟨hcount, hsize, huncommitted, ?_, ?_, ?_⟩
  · rw [hcount]; exact Int.natCast_nonneg _
  · rw [hsize]; exact sum_length_nonneg _
  · rw [huncommitted]; exact Int.natCast_nonneg _

/-! ### A run -/

/-- A transaction. -/
def someID : Transaction.ID := ⟨⟨1, [1, 2], [3], by decide⟩, ⟨10, 20⟩⟩

/-- A message of three bytes is committed, dequeued and rolled back once too often. -/
def rolledBackTwice : List Call :=
  [.create "a" 0 1, .enqueue ⟨0, ⟨1, 2⟩, some someID, 3, ⟨7, "", "", 0, ⟨"", ""⟩, some [1, 2, 3]⟩⟩ 8 2, .commit someID,
    .dequeue ⟨0, ⟨1, 2⟩, some someID, 3, ⟨"", 0⟩, false⟩ 3, .rollback someID]

theorem rolledBackTwice_statistics :
    queuebase.Reachable (rolledBackTwice.foldl Database.call («open» "g" 0)) ∧
      ∀ q ∈ (rolledBackTwice.foldl Database.call («open» "g" 0)).queues,
        q.count = ((rolledBackTwice.foldl Database.call («open» "g" 0)).messagesOf q.id [.enqueued, .removed]).length := by
  have h : queuebase.Reachable (rolledBackTwice.foldl Database.call («open» "g" 0)) :=
    reachable_calls _ (Machine.Reachable.of_init ⟨"g", 0, rfl⟩)
  exact ⟨h, fun q hq => (statistics h q hq).1⟩

/-- The message is in the error queue. -/
example : (rolledBackTwice.foldl Database.call («open» "g" 0)).queues.map (fun q => (q.id, q.count, q.size)) =
    [(1, 0, 0), (2, 1, 3), (3, 0, 0)] := by decide

end Database

end Casual.Queue
