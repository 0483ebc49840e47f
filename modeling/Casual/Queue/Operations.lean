/-
The operations of a queuebase: what each makes of the messages, and that it keeps the tables sane.
-/
import Casual.Lib.Triple
import Casual.Queue.Statements

namespace Casual.Queue

open Casual.Common Casual.Communication Casual.Lib

namespace Database

/-- The tables are consistent, and no message has been rolled back more often than its queue allows. -/
structure Sane (db : Database) : Prop extends Consistent db where
  settled : Settled db

theorem settled_of_static {db db' : Database} (h : Settled db) (hs : SameQueues db db')
    (hm : ∀ m' ∈ db'.messages, ∃ m ∈ db.messages, m'.queue = m.queue ∧ m'.redelivered ≤ m.redelivered) :
    Settled db' := by
  intro m' hm' q' hq' hqm
  obtain ⟨m, hmem, hqueue, hle⟩ := hm m' hm'
  obtain ⟨q, hq, heq⟩ := exists_of_statics hs hq'
  have := h m hmem q hq (by rw [← (static_eq heq).1, hqm, hqueue])
  rw [(static_eq heq).2.2.1]; omega

/-! ## What the operations do -/

section Operations

variable {db : Database}

theorem execute_some {statement : Database → Option Database} {db' : Database} (h : statement db = some db') :
    execute statement db = .ok () db' := by
  unfold execute; rw [h]

theorem execute_none {statement : Database → Option Database} (h : statement db = none) :
    execute statement db = .error .query db := by
  unfold execute; rw [h]

/-- The row `enqueue` inserts. -/
def enqueued (message : Message.EnqueueRequest) (made : Uuid) (now : Int) : MessageRow :=
  { id := if message.message.id ≠ 0 then message.message.id else made
    queue := message.queue
    origin := message.queue
    gtrid := Transaction.bind (Transaction.global message.trid)
    properties := message.message.properties
    state := if message.trid.isSome then .added else .enqueued
    reply := message.message.reply
    redelivered := 0
    type := message.message.type.name
    subtype := message.message.type.subname
    avalible := message.message.avalible
    timestamp := now
    payload := message.message.payload }

/-- An enqueue inserts its message, or fails and changes nothing. -/
theorem enqueue_spec (hc : Sane db) (message : Message.EnqueueRequest) (made : Uuid) (now : Int) :
    enqueue message made now db = .error .query db ∨
      ∃ db', enqueue message made now db = .ok ⟨(enqueued message made now).id⟩ db' ∧ Sane db' ∧ SameQueues db db' ∧
        db'.messages = db.messages ++ [enqueued message made now] ∧
        (enqueued message made now).id ∉ db.messages.map (·.id) := by
  unfold enqueue
  cases h : insert (enqueued message made now) db with
  | none => exact .inl (bind_error (execute_none h))
  | some db' =>
    have hstate : (enqueued message made now).state = .added ∨ (enqueued message made now).state = .enqueued := by
      unfold enqueued
      cases message.trid <;> simp
    have hgtrid : (enqueued message made now).state ≠ .enqueued → ∃ gtrid, (enqueued message made now).gtrid = some gtrid := by
      unfold enqueued
      cases message.trid <;> simp
    obtain ⟨h₁, h₂, h₃, h₄⟩ := insert_spec hc.toConsistent h hstate hgtrid
    refine .inr ⟨db', bind_ok (execute_some h), ⟨h₁, ?_⟩, h₂, h₃, h₄⟩
    intro m hm q hq hqm
    rw [h₃] at hm
    rcases List.mem_append.1 hm with hm | hm
    · obtain ⟨q₀, hq₀, heq⟩ := exists_of_statics h₂ hq
      have := hc.settled m hm q₀ hq₀ (by rw [← (static_eq heq).1, hqm])
      rw [(static_eq heq).2.2.1]; exact this
    · rw [List.mem_singleton] at hm
      subst hm
      exact Nat.zero_le _

theorem mem_of_earliest : ∀ {ms : List MessageRow} {m : MessageRow}, earliest ms = some m → m ∈ ms
  | n :: ms, m, h => by
    unfold earliest at h
    cases hrest : earliest ms with
    | none =>
      rw [hrest] at h
      cases h
      exact List.mem_cons_self
    | some k =>
      rw [hrest] at h
      simp only at h
      split_ifs at h
      · cases h
        exact List.mem_cons_of_mem _ (mem_of_earliest hrest)
      · cases h
        exact List.mem_cons_self

/-- What a selector asks for. -/
def Matches (selector : Message.Selector) (m : MessageRow) : Prop :=
  if selector.id ≠ 0 then m.id = selector.id else selector.properties ≠ "" → m.properties = selector.properties

instance (selector : Message.Selector) (m : MessageRow) : Decidable (Matches selector m) :=
  inferInstanceAs (Decidable (if selector.id ≠ 0 then m.id = selector.id else
    selector.properties ≠ "" → m.properties = selector.properties))

/-- A message that is selected is in the queue, can be dequeued and is what was asked for. -/
theorem select_some {message : Message.DequeueRequest} {now : Int} {m : MessageRow}
    (h : select message now db = some m) :
    m ∈ db.messages ∧ m.queue = message.queue ∧ m.state = .enqueued ∧ m.avalible < now ∧ Matches message.selector m := by
  unfold select firstId firstMatch first available at h
  split_ifs at h with hid hprop
  · have hm := List.mem_of_find?_eq_some h
    have := List.find?_some h
    simp only [Bool.and_eq_true, beq_iff_eq, decide_eq_true_eq] at this
    exact ⟨hm, this.1.2, this.2.1, this.2.2, by unfold Matches; rw [if_pos hid]; exact this.1.1⟩
  · have := (List.mem_filter.1 (mem_of_earliest h))
    simp only [Bool.and_eq_true, beq_iff_eq, decide_eq_true_eq] at this
    exact ⟨this.1, this.2.1.1, this.2.1.2.1, this.2.1.2.2, by unfold Matches; rw [if_neg hid]; exact fun _ => this.2.2⟩
  · have := (List.mem_filter.1 (mem_of_earliest h))
    simp only [Bool.and_eq_true, beq_iff_eq, decide_eq_true_eq] at this
    exact ⟨this.1, this.2.1, this.2.2.1, this.2.2.2, by unfold Matches; rw [if_neg hid]; exact fun h' => absurd h' hprop⟩

theorem earliest_none : ∀ {ms : List MessageRow}, earliest ms = none → ms = []
  | [], _ => rfl
  | m :: ms, h => by
    unfold earliest at h
    cases hrest : earliest ms with
    | none => rw [hrest] at h; cases h
    | some k =>
      rw [hrest] at h
      simp only at h
      split_ifs at h

theorem earliest_le : ∀ {ms : List MessageRow} {m : MessageRow}, earliest ms = some m →
    ∀ m' ∈ ms, m.timestamp ≤ m'.timestamp
  | n :: ms, m, h => by
    unfold earliest at h
    cases hrest : earliest ms with
    | none =>
      rw [hrest] at h
      cases h
      simp [earliest_none hrest]
    | some k =>
      have hle := earliest_le hrest
      rw [hrest] at h
      simp only at h
      -- the earliest of the rest is handed out only when it is strictly earlier
      split_ifs at h with hlt <;> cases h
      · exact List.forall_mem_cons.2 ⟨hlt.le, hle⟩
      · exact List.forall_mem_cons.2 ⟨le_rfl, fun m' hm' => by have := hle m' hm'; omega⟩

/-- Nothing is selected only when no message of the queue can be dequeued and is what was asked for. -/
theorem select_none {message : Message.DequeueRequest} {now : Int} (h : select message now db = none) :
    ∀ m ∈ db.messages, m.queue = message.queue → m.state = .enqueued → m.avalible < now →
      ¬ Matches message.selector m := by
  intro m hm hqueue hstate hnow
  unfold select firstId firstMatch first available at h
  unfold Matches
  split_ifs at h ⊢ with hid hprop
  · have := List.find?_eq_none.1 h m hm
    simpa [hqueue, hstate, hnow] using this
  · have := List.filter_eq_nil_iff.1 (earliest_none h) m hm
    simpa [hprop, hqueue, hstate, hnow] using this
  · have := List.filter_eq_nil_iff.1 (earliest_none h) m hm
    simp [hqueue, hstate, hnow] at this

/-- Of the messages that are what was asked for, the earliest is selected. -/
theorem select_le {message : Message.DequeueRequest} {now : Int} {m : MessageRow} (hc : Consistent db)
    (h : select message now db = some m) :
    ∀ m' ∈ db.messages, m'.queue = message.queue → m'.state = .enqueued → m'.avalible < now →
      Matches message.selector m' → m.timestamp ≤ m'.timestamp := by
  intro m' hm' hqueue hstate hnow hmatches
  obtain ⟨hm, -, -, -, hselected⟩ := select_some h
  unfold Matches at hmatches hselected
  unfold select firstId firstMatch first available at h
  split_ifs at h hmatches hselected with hid hprop
  · -- no other message has the id
    rw [List.inj_on_of_nodup_map hc.ids hm hm' (hselected.trans hmatches.symm)]
  · exact earliest_le h m' (List.mem_filter.2 ⟨hm', by simp [hqueue, hstate, hnow, hmatches hprop]⟩)
  · exact earliest_le h m' (List.mem_filter.2 ⟨hm', by simp [hqueue, hstate, hnow]⟩)

/-- The row of a message that was dequeued: gone without a transaction, removed within one. -/
def taken (trid : Option Transaction.ID) (id : Uuid) (m : MessageRow) : Option MessageRow :=
  if m.id = id then trid.map fun trid => { m with gtrid := some trid.xid.gtrid, state := .removed } else some m

/-- A dequeue does not fail: it finds nothing and changes nothing, or takes the selected message. -/
theorem dequeue_spec (hc : Sane db) (message : Message.DequeueRequest) (now : Int) :
    (select message now db = none ∧ dequeue message now db = .ok ⟨0, []⟩ db) ∨
      ∃ row db', select message now db = some row ∧ dequeue message now db = .ok ⟨0, [reply row]⟩ db' ∧ Sane db' ∧
        SameQueues db db' ∧ db'.messages = db.messages.filterMap (taken message.trid row.id) := by
  unfold dequeue
  have hget : (get : EStateM Exception Database Database) db = .ok db db := rfl
  rw [bind_ok hget]
  cases hsel : select message now db with
  | none => exact .inl ⟨rfl, rfl⟩
  | some row =>
    obtain ⟨hrow, -, hstate, -⟩ := select_some hsel
    right
    cases htrid : message.trid with
    | none =>
      obtain ⟨db', h, h₁, h₂, h₃⟩ := @stateNullxid_spec _ row.id hc.toConsistent
      refine ⟨row, db', rfl, bind_ok (execute_some h), ⟨h₁, ?_⟩, h₂, ?_⟩
      · refine settled_of_static hc.settled h₂ fun m hm => ?_
        rw [h₃] at hm
        exact ⟨m, (List.mem_filter.1 hm).1, rfl, le_refl _⟩
      · rw [h₃, ← List.filterMap_eq_filter]
        congr 1
        funext m
        by_cases hid : m.id = row.id <;> simp [taken, Option.guard, hid]
    | some trid =>
      have hunique : ∀ m ∈ db.messages, m.id = row.id → m.state = .enqueued := by
        intro m hm hid
        rw [List.inj_on_of_nodup_map hc.ids hm hrow hid]
        exact hstate
      obtain ⟨db', h, h₁, h₂, h₃⟩ := @stateXid_spec _ trid.xid.gtrid row.id hc.toConsistent hunique
      refine ⟨row, db', rfl, ?_, ⟨h₁, ?_⟩, h₂, ?_⟩
      · simp only [Transaction.bind_global_some]
        exact bind_ok (execute_some h)
      · refine settled_of_static hc.settled h₂ fun m hm => ?_
        rw [h₃] at hm
        obtain ⟨m₀, hm₀, rfl⟩ := List.mem_map.1 hm
        exact ⟨m₀, hm₀, by split_ifs <;> exact ⟨rfl, le_refl _⟩⟩
      · rw [h₃, ← List.filterMap_eq_map]
        congr 1
        funext m
        by_cases hid : m.id = row.id <;> simp [taken, hid]

/-- What a commit makes of a message. -/
def committed (gtrid : List UInt8) (m : MessageRow) : Option MessageRow :=
  if m.gtrid = some gtrid ∧ m.state = .added then some { m with state := .enqueued }
  else if m.gtrid = some gtrid ∧ m.state = .removed then none
  else some m

/-- A commit fails and changes nothing, or makes added messages available and deletes removed ones. -/
theorem commit_spec (hc : Sane db) (id : Transaction.ID) :
    commit id db = .error .query db ∨
      ∃ db', commit id db = .ok () db' ∧ Sane db' ∧ SameQueues db db' ∧
        db'.messages = db.messages.filterMap (committed id.xid.gtrid) := by
  unfold commit
  simp only [Transaction.bind_global_some]
  cases h : commit1 (some id.xid.gtrid) db with
  | none => exact .inl (bind_error (execute_none h))
  | some db₁ =>
    obtain ⟨hc₁, hs₁, hm₁⟩ := commit1_spec hc.toConsistent h
    obtain ⟨db₂, h₂, hc₂, hs₂, hm₂⟩ := @commit2_spec _ id.xid.gtrid hc₁
    have hmessages : db₂.messages = db.messages.filterMap (committed id.xid.gtrid) := by
      rw [hm₂, hm₁, ← List.filterMap_eq_filter, List.filterMap_map]
      congr 1
      funext m
      by_cases hg : m.gtrid = some id.xid.gtrid <;> cases hstate : m.state <;>
        simp [committed, Option.guard, hg, hstate]
    refine .inr ⟨db₂, (bind_ok (execute_some h)).trans (execute_some h₂), ⟨hc₂, ?_⟩, hs₂.trans hs₁, hmessages⟩
    refine settled_of_static hc.settled (hs₂.trans hs₁) fun m' hm' => ?_
    rw [hmessages] at hm'
    obtain ⟨m, hm, hcommitted⟩ := List.mem_filterMap.1 hm'
    refine ⟨m, hm, ?_⟩
    unfold committed at hcommitted
    split_ifs at hcommitted <;> cases hcommitted <;> exact ⟨rfl, le_refl _⟩

/-- What a rollback makes of a message: an added one is deleted, and a removed one can be dequeued
again, or is moved to the error queue when that is once too often. -/
def rolledBack (queues : List QueueRow) (gtrid : List UInt8) (m : MessageRow) : Option MessageRow :=
  if m.gtrid = some gtrid ∧ m.state = .added then none
  else if m.gtrid = some gtrid ∧ m.state = .removed then
    some (moved queues { m with state := .enqueued, redelivered := m.redelivered + 1 })
  else some m

theorem moved_of_le (hq : (db.queues.map (·.id)).Nodup) {m : MessageRow}
    (hfk : ∃ q ∈ db.queues, q.id = m.queue ∧ m.redelivered ≤ q.retries) : moved db.queues m = m := by
  obtain ⟨q, hmem, hqm, hle⟩ := hfk
  unfold moved
  rw [← hqm, queueOf_of_mem hq hmem, if_neg]
  simpa using hle

theorem queueOf_congr {db db' : Database} (h : SameQueues db db') (id : Nat) :
    (queueOf db'.queues id).map QueueRow.static = (queueOf db.queues id).map QueueRow.static := by
  have hfind : ∀ qs : List QueueRow, (queueOf qs id).map QueueRow.static =
      (qs.map QueueRow.static).find? fun s => s.1 == id := by
    intro qs
    rw [List.find?_map]
    rfl
  rw [hfind, hfind, h]

theorem moved_congr {db db' : Database} (h : SameQueues db db') (m : MessageRow) :
    moved db'.queues m = moved db.queues m := by
  have hq := queueOf_congr h m.queue
  unfold moved
  cases h₁ : queueOf db.queues m.queue with
  | none =>
    rw [h₁] at hq
    rw [Option.map_eq_none_iff.1 hq]
  | some q =>
    rw [h₁] at hq
    obtain ⟨q', h₂, heq⟩ := Option.map_eq_some_iff.1 hq
    rw [h₂]
    simp [(static_eq heq).2.2.1, (static_eq heq).2.2.2.1]

/-- A rollback does not fail. -/
theorem rollback_spec (hc : Sane db) (id : Transaction.ID) :
    ∃ db', rollback id db = .ok () db' ∧ Sane db' ∧ SameQueues db db' ∧
      db'.messages = db.messages.filterMap (rolledBack db.queues id.xid.gtrid) := by
  obtain ⟨db₁, h₁, hc₁, hs₁, hm₁⟩ := @rollback1_spec _ id.xid.gtrid hc.toConsistent
  obtain ⟨db₂, h₂, hc₂, hs₂, hm₂⟩ := @rollback2_spec _ id.xid.gtrid hc₁
  have hsettled₁ : Settled db₁ := settled_of_static hc.settled hs₁ fun m hm => by
    rw [hm₁] at hm
    exact ⟨m, (List.mem_filter.1 hm).1, rfl, le_refl _⟩
  -- only messages that were just made available can be overdue
  have hover : Overdue db₂ := by
    intro m hm q hq hqm hlt
    rw [hm₂] at hm
    obtain ⟨m₀, hm₀, rfl⟩ := List.mem_map.1 hm
    split_ifs at hqm hlt ⊢ with ha
    · rfl
    · obtain ⟨q₀, hq₀, heq⟩ := exists_of_statics hs₂ hq
      have := hsettled₁ m₀ hm₀ q₀ hq₀ (by rw [← (static_eq heq).1, hqm])
      rw [(static_eq heq).2.2.1] at hlt
      omega
  obtain ⟨db₃, h₃, hc₃, hs₃, hm₃⟩ := rollback3_spec hc₂ hover
  have hs := (hs₃.trans hs₂).trans hs₁
  have hmessages : db₃.messages = db.messages.filterMap (rolledBack db.queues id.xid.gtrid) := by
    rw [hm₃, hm₂, hm₁, ← List.filterMap_eq_filter, List.map_filterMap, List.map_filterMap]
    refine List.filterMap_congr fun m hm => ?_
    have hsame := moved_congr (hs₂.trans hs₁)
    have hkeep : moved db.queues m = m := by
      obtain ⟨q, hq, hqm⟩ := hc.foreignKey m hm
      exact moved_of_le hc.queueIds ⟨q, hq, hqm, hc.settled m hm q hq hqm⟩
    by_cases hg : m.gtrid = some id.xid.gtrid <;> cases hstate : m.state <;>
      simp [rolledBack, Option.guard, hg, hstate, hsame, hkeep]
  refine ⟨db₃, ?_, ⟨hc₃, ?_⟩, hs, hmessages⟩
  · unfold rollback
    simp only [Transaction.bind_global_some]
    exact (bind_ok (execute_some h₁)).trans ((bind_ok (execute_some h₂)).trans (execute_some h₃))
  · intro m' hm' q' hq' hqm
    rw [hm₃] at hm'
    obtain ⟨m, hm, rfl⟩ := List.mem_map.1 hm'
    obtain ⟨q, hq, heq⟩ := exists_of_statics hs₃ hq'
    unfold moved at hqm ⊢
    split_ifs at hqm ⊢ with ha
    · exact Nat.zero_le _
    · rw [← hqm, (static_eq heq).1, queueOf_of_mem hc₂.queueIds hq] at ha
      rw [(static_eq heq).2.2.1]
      simpa using ha

/-- A queue that is created has no messages. -/
theorem create_spec (hc : Sane db) (herror : ∃ e ∈ db.queues, e.id = errorQueue) (name : String) (retries : Nat)
    (now : Int) : Sane (after (create name retries now db)) ∧
      (∀ q ∈ db.queues, q ∈ (after (create name retries now db)).queues) ∧
      (after (create name retries now db)).messages = db.messages := by
  have hsettled : ∀ {db db' : Database} {q : QueueRow}, Sane db → db'.messages = db.messages →
      db'.queues = db.queues ++ [q] → q.id = db.nextId → Settled db' := by
    intro db db' q hc hm hq hid m hmem q' hq' hqm
    rw [hm] at hmem
    rw [hq] at hq'
    rcases List.mem_append.1 hq' with hq' | hq'
    · exact hc.settled m hmem q' hq' hqm
    · obtain ⟨q₀, hq₀, hq₀m⟩ := hc.foreignKey m hmem
      have := id_lt_nextId hq₀
      rw [List.mem_singleton] at hq'
      subst hq'
      omega
  have hget : ∀ db, (get : EStateM Exception Database Database) db = .ok db db := fun _ => rfl
  unfold create
  rw [bind_ok (hget db)]
  cases h₁ : insertQueue (name ++ ".error") retries errorQueue .errorQueue now db with
  | none =>
    rw [bind_error (execute_none h₁)]
    exact ⟨hc, fun q hq => hq, rfl⟩
  | some db₁ =>
    obtain ⟨hc₁, hq₁, hm₁⟩ := insertQueue_spec hc.toConsistent herror h₁
    have hsane₁ : Sane db₁ := ⟨hc₁, hsettled hc hm₁ hq₁ rfl⟩
    rw [bind_ok (execute_some h₁), bind_ok (hget db₁)]
    cases h₂ : insertQueue name retries db.nextId .queue now db₁ with
    | none =>
      rw [bind_error (execute_none h₂)]
      exact ⟨hsane₁, fun q hq => by rw [after_error, hq₁]; exact List.mem_append_left _ hq, hm₁⟩
    | some db₂ =>
      obtain ⟨hc₂, hq₂, hm₂⟩ := insertQueue_spec hc₁ ⟨_, hq₁ ▸ List.mem_append_right _ (List.mem_singleton_self _), rfl⟩ h₂
      rw [bind_ok (execute_some h₂)]
      refine ⟨⟨hc₂, hsettled hsane₁ hm₂ hq₂ rfl⟩, fun q hq => ?_, hm₂.trans hm₁⟩
      change q ∈ db₂.queues
      rw [hq₂, hq₁]
      simp [hq]

end Operations

end Database

end Casual.Queue
