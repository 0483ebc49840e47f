/-
The statements of a queuebase: what they make of the messages, that they keep the tables consistent,
and which of them cannot fail.
-/
import Casual.Queue.Triggers

namespace Casual.Queue

open Casual.Common Casual.Communication Casual.Lib

/-! ## What holds of the tables -/

/-- A message that is added or removed has a transaction, and only one that is added may have a
payload that is `NULL`. -/
structure MessageRow.Sane (m : MessageRow) : Prop where
  state : m.state ≠ .dequeued
  gtrid : m.state ≠ .enqueued → ∃ gtrid, m.gtrid = some gtrid
  payload : m.state ≠ .added → ∃ payload, m.payload = some payload

/-- Keys, references and totals. -/
structure Consistent (db : Database) : Prop where
  ids : (db.messages.map (·.id)).Nodup
  queueIds : (db.queues.map (·.id)).Nodup
  foreignKey : ∀ m ∈ db.messages, ∃ q ∈ db.queues, q.id = m.queue
  errors : ∀ q ∈ db.queues, ∃ e ∈ db.queues, e.id = q.error
  rows : ∀ m ∈ db.messages, m.Sane
  totals : ∀ q ∈ db.queues, q.totals = (db.messages.map MessageRow.totals).sum q.id

/-- No message has been rolled back more often than its queue allows. -/
def Settled (db : Database) : Prop := ∀ m ∈ db.messages, ∀ q ∈ db.queues, q.id = m.queue → m.redelivered ≤ q.retries

theorem map_id_of_statics {qs qs' : List QueueRow} (h : qs'.map QueueRow.static = qs.map QueueRow.static) :
    qs'.map (·.id) = qs.map (·.id) := by
  have := congrArg (List.map Prod.fst) h
  rw [List.map_map, List.map_map] at this
  exact this

theorem exists_of_statics {qs qs' : List QueueRow} (h : qs'.map QueueRow.static = qs.map QueueRow.static) {q' : QueueRow}
    (hq' : q' ∈ qs') : ∃ q ∈ qs, q'.static = q.static := by
  have : q'.static ∈ qs.map QueueRow.static := h ▸ List.mem_map_of_mem hq'
  obtain ⟨q, hq, heq⟩ := List.mem_map.1 this
  exact ⟨q, hq, heq.symm⟩

namespace Database

/-! ### A statement -/

variable {affects : MessageRow → Bool} {set : MessageRow → Option MessageRow}
  {trigger : MessageRow → Option MessageRow → List QueueRow → Option (List QueueRow)} {db db' : Database}

theorem change_messages (h : db.change affects set trigger = some db') :
    db'.messages = db.messages.filterMap fun m => if affects m then set m else some m := by
  unfold change at h
  split at h
  · cases h
  · next r hr =>
    split_ifs at h
    cases h
    exact Table.execute_rows hr

theorem change_shift (h : db.change affects set trigger = some db')
    (hshift : ∀ m ∈ db.messages, affects m = true → ∀ qs qs', trigger m (set m) qs = some qs' →
      Shift (Table.weight MessageRow.totals (set m) - m.totals) qs qs') :
    Shift ((db'.messages.map MessageRow.totals).sum - (db.messages.map MessageRow.totals).sum) db.queues db'.queues := by
  unfold change at h
  split at h
  · cases h
  · next r hr =>
    split_ifs at h
    cases h
    exact Table.execute_shift Shift.zero Shift.add hshift hr

theorem change_foreignKey (h : db.change affects set trigger = some db') :
    ∀ m ∈ db'.messages, ∃ q ∈ db'.queues, q.id = m.queue := by
  unfold change at h
  split at h
  · cases h
  · split_ifs at h with hfk
    cases h
    intro m hm
    have := List.all_eq_true.1 hfk m hm
    simpa using this

/-- A statement keeps the tables consistent when its triggers account for what it changes. -/
theorem change_consistent (hc : Consistent db) (h : db.change affects set trigger = some db')
    (hid : ∀ m m', set m = some m' → m'.id = m.id)
    (hshift : ∀ m ∈ db.messages, affects m = true → ∀ qs qs', trigger m (set m) qs = some qs' →
      Shift (Table.weight MessageRow.totals (set m) - m.totals) qs qs')
    (hrows : ∀ m ∈ db.messages, affects m = true → ∀ m', set m = some m' →
      (∃ qs qs', qs.map (·.id) = db.queues.map (·.id) ∧ trigger m (some m') qs = some qs') → m'.Sane) :
    Consistent db' ∧ db'.queues.map QueueRow.static = db.queues.map QueueRow.static := by
  have hmessages := change_messages h
  have hs := change_shift h hshift
  have hstatics := hs.statics
  refine ⟨⟨?_, ?_, change_foreignKey h, ?_, ?_, ?_⟩, hstatics⟩
  · -- the ids are those of the rows that are left
    have hsub : (db'.messages.map (·.id)).Sublist (db.messages.map (·.id)) := by
      rw [hmessages, List.map_filterMap]
      have hle : ∀ ms : List MessageRow, (ms.filterMap fun m =>
          Option.map (·.id) (if affects m then set m else some m)).Sublist (ms.map (·.id)) := by
        intro ms
        induction ms with
        | nil => exact .slnil
        | cons m ms ih =>
          rw [List.filterMap_cons, List.map_cons]
          split
          · exact ih.cons _
          · next b hb =>
            have : b = m.id := by
              split_ifs at hb
              · obtain ⟨m', hm', rfl⟩ := Option.map_eq_some_iff.1 hb
                exact hid m m' hm'
              · simpa using hb.symm
            subst this; exact ih.cons_cons _
      exact hle db.messages
    exact hc.ids.sublist hsub
  · rw [map_id_of_statics hstatics]; exact hc.queueIds
  · intro q' hq'
    obtain ⟨q, hq, heq⟩ := exists_of_statics hstatics hq'
    obtain ⟨e, he, hee⟩ := hc.errors q hq
    obtain ⟨e', he', heq'⟩ := exists_of_statics hstatics.symm he
    exact ⟨e', he', by rw [← (static_eq heq').1, hee, (static_eq heq).2.2.2.1]⟩
  · intro m' hm'
    rw [hmessages] at hm'
    obtain ⟨m, hm, hset⟩ := List.mem_filterMap.1 hm'
    split_ifs at hset with ha
    · refine hrows m hm ha m' hset ?_
      unfold change at h
      split at h
      · cases h
      · next r hr =>
        obtain ⟨qs, qs', hgood, htr⟩ := Table.execute_triggered
          (fun qs => qs.map (·.id) = db.queues.map (·.id))
          (fun m hm ha qs qs' hg ht => (map_id_of_statics (hshift m hm ha qs qs' ht).statics).trans hg) rfl hr m hm ha
        rw [hset] at htr
        exact ⟨qs, qs', hgood, htr⟩
    · obtain rfl : m = m' := by simpa using hset
      exact hc.rows m hm
  · intro q' hq'
    obtain ⟨q, hq, hstatic, htotals⟩ := hs.mem hq'
    rw [htotals, hc.totals q hq, (static_eq hstatic).1]
    simp

/-- A statement whose triggers do not fail, and after which every message has a queue, does not fail. -/
theorem change_isSome (htrigger : ∀ m ∈ db.messages, affects m = true → ∀ qs, ∃ qs', trigger m (set m) qs = some qs')
    (hshift : ∀ m ∈ db.messages, affects m = true → ∀ qs qs', trigger m (set m) qs = some qs' →
      Shift (Table.weight MessageRow.totals (set m) - m.totals) qs qs')
    (hfk : ∀ m' ∈ db.messages.filterMap (fun m => if affects m then set m else some m),
      ∃ q ∈ db.queues, q.id = m'.queue) : ∃ db', db.change affects set trigger = some db' := by
  obtain ⟨r, hr⟩ := Table.execute_isSome (s := db.queues) htrigger
  have hstatics := (Table.execute_shift Shift.zero Shift.add hshift hr).statics
  have hkeys : foreignKeys ⟨r.2, r.1⟩ = true := by
    unfold foreignKeys
    rw [List.all_eq_true]
    intro m' hm'
    rw [Table.execute_rows hr] at hm'
    obtain ⟨q, hq, hqm⟩ := hfk m' hm'
    obtain ⟨q', hq', heq⟩ := exists_of_statics hstatics.symm hq
    exact List.any_eq_true.2 ⟨q', hq', by simp [← (static_eq heq).1, hqm]⟩
  exact ⟨⟨r.2, r.1⟩, by unfold change; rw [hr]; simp [hkeys]⟩

/-- What a statement leaves of the static part of the queues. -/
def SameQueues (db db' : Database) : Prop := db'.queues.map QueueRow.static = db.queues.map QueueRow.static

theorem delete_consistent (hc : Consistent db) (h : delete affects db = some db') :
    Consistent db' ∧ SameQueues db db' ∧ db'.messages = db.messages.filter fun m => !affects m := by
  unfold delete at h
  have hfilter := change_messages h
  obtain ⟨h₁, h₂⟩ := change_consistent hc h (by simp)
    (fun m hm _ qs qs' ht => by
      have := deleteMessage_shift ht (hc.rows m hm).state
      simpa [Table.weight] using this)
    (by simp)
  refine ⟨h₁, h₂, ?_⟩
  rw [hfilter, ← List.filterMap_eq_filter]
  congr 1
  funext m
  cases ha : affects m <;> simp [Option.guard, ha]

theorem deleteMessage_isSome {m : MessageRow} (hm : m.Sane) (qs : List QueueRow) :
    ∃ qs', deleteMessage m qs = some qs' := by
  obtain ⟨qs₁, h₁⟩ : ∃ qs₁, updateQueues (fun q => q.id == m.queue && (m.state == .enqueued || m.state == .removed))
      (fun q => (subLength q.size m.payload).map fun size => { q with count := q.count - 1, size := size }) qs =
        some qs₁ := by
    refine updateQueues_isSome _ _ qs fun q _ ha => ?_
    simp only [Bool.and_eq_true, Bool.or_eq_true, beq_iff_eq] at ha
    obtain ⟨payload, hp⟩ := hm.payload (by rintro h; simp [h] at ha)
    exact ⟨_, by rw [hp]; rfl⟩
  obtain ⟨qs₂, h₂⟩ : ∃ qs₂, updateQueues (fun q => q.id == m.queue && m.state == .added)
      (fun q => some { q with uncommittedCount := q.uncommittedCount - 1 }) qs₁ = some qs₂ :=
    updateQueues_isSome _ _ qs₁ fun q _ _ => ⟨_, rfl⟩
  exact ⟨qs₂, Option.bind_eq_some_iff.2 ⟨qs₁, h₁, h₂⟩⟩

/-- Messages can always be deleted. -/
theorem delete_isSome (hc : Consistent db) (affects : MessageRow → Bool) : ∃ db', delete affects db = some db' := by
  refine change_isSome (fun m hm _ qs => deleteMessage_isSome (hc.rows m hm) qs) ?_ ?_
  · intro m hm _ qs qs' ht
    have := deleteMessage_shift ht (hc.rows m hm).state
    simpa [Table.weight] using this
  · intro m' hm'
    obtain ⟨m, hm, h⟩ := List.mem_filterMap.1 hm'
    split_ifs at h
    obtain rfl : m = m' := by simpa using h
    exact hc.foreignKey m hm

section Update

variable {trigger : MessageRow → MessageRow → List QueueRow → Option (List QueueRow)} {set : MessageRow → MessageRow}

theorem update_consistent (hc : Consistent db) (h : update trigger set affects db = some db')
    (hid : ∀ m, (set m).id = m.id)
    (hshift : ∀ m ∈ db.messages, affects m = true → ∀ qs qs', trigger m (set m) qs = some qs' →
      Shift ((set m).totals - m.totals) qs qs')
    (hrows : ∀ m ∈ db.messages, affects m = true →
      (∃ qs qs', qs.map (·.id) = db.queues.map (·.id) ∧ trigger m (set m) qs = some qs') → (set m).Sane) :
    Consistent db' ∧ SameQueues db db' ∧ db'.messages = db.messages.map fun m => if affects m then set m else m := by
  unfold update at h
  have hmap := change_messages h
  obtain ⟨h₁, h₂⟩ := change_consistent hc h
    (by rintro m _ ⟨⟩; exact hid m)
    (fun m hm ha qs qs' ht => hshift m hm ha qs qs' ht)
    (by rintro m hm ha _ ⟨⟩ ht; exact hrows m hm ha ht)
  refine ⟨h₁, h₂, ?_⟩
  rw [hmap, ← List.filterMap_eq_map]
  congr 1
  funext m
  simp only [Function.comp]
  split_ifs <;> rfl

theorem update_isSome (htrigger : ∀ m ∈ db.messages, affects m = true → ∀ qs, ∃ qs', trigger m (set m) qs = some qs')
    (hshift : ∀ m ∈ db.messages, affects m = true → ∀ qs qs', trigger m (set m) qs = some qs' →
      Shift ((set m).totals - m.totals) qs qs')
    (hfk : ∀ m ∈ db.messages, ∃ q ∈ db.queues, q.id = (if affects m then set m else m).queue) :
    ∃ db', update trigger set affects db = some db' := by
  refine change_isSome htrigger hshift ?_
  intro m' hm'
  obtain ⟨m, hm, h⟩ := List.mem_filterMap.1 hm'
  obtain ⟨q, hq, hqm⟩ := hfk m hm
  refine ⟨q, hq, hqm.trans ?_⟩
  split_ifs at h ⊢ <;> cases h <;> rfl

end Update

theorem updateMessageState_isSome {old new : MessageRow} (h : old.state ≠ .added) (qs : List QueueRow) :
    ∃ qs', updateMessageState old new qs = some qs' :=
  updateQueues_isSome _ _ qs fun q _ ha => by simp [h] at ha

/-! ### The statements -/

theorem stateXid_spec {gtrid : List UInt8} {id : Uuid} (hc : Consistent db)
    (hid : ∀ m ∈ db.messages, m.id = id → m.state = .enqueued) :
    ∃ db', stateXid (some gtrid) id db = some db' ∧ Consistent db' ∧ SameQueues db db' ∧
      db'.messages = db.messages.map fun m =>
        if m.id = id then { m with gtrid := some gtrid, state := .removed } else m := by
  have hshift : ∀ m ∈ db.messages, (m.id == id) = true → ∀ qs qs',
      updateMessageState m { m with gtrid := some gtrid, state := .removed } qs = some qs' →
      Shift (({ m with gtrid := some gtrid, state := .removed } : MessageRow).totals - m.totals) qs qs' := by
    intro m hm ha qs qs' ht
    have hstate := hid m hm (by simpa using ha)
    exact updateMessageState_shift ht rfl rfl (.inr (.inl ⟨hstate, rfl⟩))
  obtain ⟨db', h⟩ : ∃ db', stateXid (some gtrid) id db = some db' := by
    refine update_isSome (fun m hm ha qs => updateMessageState_isSome ?_ qs) hshift ?_
    · rw [hid m hm (by simpa using ha)]; decide
    · intro m hm
      obtain ⟨q, hq, hqm⟩ := hc.foreignKey m hm
      exact ⟨q, hq, by split_ifs <;> exact hqm⟩
  obtain ⟨h₁, h₂, h₃⟩ := update_consistent hc h (fun _ => rfl) hshift (fun m hm ha _ => by
    have hstate := hid m hm (by simpa using ha)
    exact ⟨by simp, fun _ => ⟨gtrid, rfl⟩, fun _ => (hc.rows m hm).payload (by rw [hstate]; decide)⟩)
  exact ⟨db', h, h₁, h₂, by simpa using h₃⟩

theorem stateNullxid_spec {id : Uuid} (hc : Consistent db) :
    ∃ db', stateNullxid id db = some db' ∧ Consistent db' ∧ SameQueues db db' ∧
      db'.messages = db.messages.filter fun m => m.id ≠ id := by
  obtain ⟨db', h⟩ := delete_isSome hc fun m => m.id == id
  obtain ⟨h₁, h₂, h₃⟩ := delete_consistent hc h
  refine ⟨db', h, h₁, h₂, ?_⟩
  rw [h₃]
  congr 1
  funext m
  by_cases hm : m.id = id <;> simp [hm]

/-- Committing fails when an added message has a payload that is `NULL`. -/
theorem commit1_spec {gtrid : List UInt8} (hc : Consistent db) (h : commit1 (some gtrid) db = some db') :
    Consistent db' ∧ SameQueues db db' ∧ db'.messages = db.messages.map fun m =>
      if m.gtrid = some gtrid ∧ m.state = .added then { m with state := .enqueued } else m := by
  obtain ⟨h₁, h₂, h₃⟩ := update_consistent hc h (fun _ => rfl)
    (fun m hm ha qs qs' ht => by
      simp only [Bool.and_eq_true, beq_iff_eq] at ha
      exact updateMessageState_shift ht rfl rfl (.inl ⟨ha.2, rfl⟩))
    (fun m hm ha hqs => by
      simp only [Bool.and_eq_true, beq_iff_eq] at ha
      refine ⟨by simp, fun h' => absurd rfl h', fun _ => ?_⟩
      -- the trigger has added the length of the payload to the size of the message's queue
      obtain ⟨qs, qs', hids, ht⟩ := hqs
      obtain ⟨q, hq, hqm⟩ := hc.foreignKey m hm
      have hmem : m.queue ∈ qs.map (·.id) := by
        rw [hids, ← hqm]
        exact List.mem_map_of_mem hq
      obtain ⟨p, hp, hpm⟩ := List.mem_map.1 hmem
      obtain ⟨p', hp'⟩ := updateQueues_some ht p hp (by simp [hpm, ha.2])
      obtain ⟨size, hsize, -⟩ := Option.map_eq_some_iff.1 hp'
      unfold addLength at hsize
      obtain ⟨payload, hpayload, -⟩ := Option.map_eq_some_iff.1 hsize
      exact ⟨payload, hpayload⟩)
  exact ⟨h₁, h₂, by simpa using h₃⟩

theorem commit2_spec {gtrid : List UInt8} (hc : Consistent db) :
    ∃ db', commit2 (some gtrid) db = some db' ∧ Consistent db' ∧ SameQueues db db' ∧
      db'.messages = db.messages.filter fun m => ¬ (m.gtrid = some gtrid ∧ m.state = .removed) := by
  obtain ⟨db', h⟩ := delete_isSome hc fun m => sqlEq m.gtrid (some gtrid) && m.state == .removed
  obtain ⟨h₁, h₂, h₃⟩ := delete_consistent hc h
  refine ⟨db', h, h₁, h₂, ?_⟩
  rw [h₃]
  congr 1
  funext m
  rw [Bool.eq_iff_iff]
  simp

theorem rollback1_spec {gtrid : List UInt8} (hc : Consistent db) :
    ∃ db', rollback1 (some gtrid) db = some db' ∧ Consistent db' ∧ SameQueues db db' ∧
      db'.messages = db.messages.filter fun m => ¬ (m.gtrid = some gtrid ∧ m.state = .added) := by
  obtain ⟨db', h⟩ := delete_isSome hc fun m => sqlEq m.gtrid (some gtrid) && m.state == .added
  obtain ⟨h₁, h₂, h₃⟩ := delete_consistent hc h
  refine ⟨db', h, h₁, h₂, ?_⟩
  rw [h₃]
  congr 1
  funext m
  rw [Bool.eq_iff_iff]
  simp

theorem rollback2_spec {gtrid : List UInt8} (hc : Consistent db) :
    ∃ db', rollback2 (some gtrid) db = some db' ∧ Consistent db' ∧ SameQueues db db' ∧
      db'.messages = db.messages.map fun m =>
        if m.gtrid = some gtrid ∧ m.state = .removed then
          { m with state := .enqueued, redelivered := m.redelivered + 1 } else m := by
  have hshift : ∀ m ∈ db.messages, (sqlEq m.gtrid (some gtrid) && m.state == .removed) = true → ∀ qs qs',
      updateMessageState m { m with state := .enqueued, redelivered := m.redelivered + 1 } qs = some qs' →
      Shift (({ m with state := .enqueued, redelivered := m.redelivered + 1 } : MessageRow).totals - m.totals)
        qs qs' := by
    intro m hm ha qs qs' ht
    simp only [Bool.and_eq_true, beq_iff_eq] at ha
    exact updateMessageState_shift ht rfl rfl (.inr (.inr ⟨ha.2, rfl⟩))
  obtain ⟨db', h⟩ : ∃ db', rollback2 (some gtrid) db = some db' := by
    refine update_isSome (fun m hm ha qs => updateMessageState_isSome ?_ qs) hshift ?_
    · simp only [Bool.and_eq_true, beq_iff_eq] at ha
      rw [ha.2]; decide
    · intro m hm
      obtain ⟨q, hq, hqm⟩ := hc.foreignKey m hm
      exact ⟨q, hq, by split_ifs <;> exact hqm⟩
  obtain ⟨h₁, h₂, h₃⟩ := update_consistent hc h (fun _ => rfl) hshift (fun m hm ha _ => by
    simp only [Bool.and_eq_true, beq_iff_eq] at ha
    exact ⟨by simp, fun h' => absurd rfl h', fun _ => (hc.rows m hm).payload (by rw [ha.2]; decide)⟩)
  exact ⟨db', h, h₁, h₂, by simpa using h₃⟩

theorem queueOf_of_mem (hq : (db.queues.map (·.id)).Nodup) {q : QueueRow} (h : q ∈ db.queues) :
    queueOf db.queues q.id = some q := by
  unfold queueOf
  cases hf : db.queues.find? fun p => p.id == q.id with
  | none =>
    have := List.find?_eq_none.1 hf q h
    simp at this
  | some p =>
    have hp := List.mem_of_find?_eq_some hf
    have hid : p.id = q.id := by simpa using List.find?_some hf
    rw [List.inj_on_of_nodup_map hq hp h hid]

/-- Only messages that can be dequeued have been rolled back too often. -/
def Overdue (db : Database) : Prop :=
  ∀ m ∈ db.messages, ∀ q ∈ db.queues, q.id = m.queue → q.retries < m.redelivered → m.state = .enqueued

/-- The queue a message is in and the times it has been rolled back, after it was moved if overdue. -/
def moved (queues : List QueueRow) (m : MessageRow) : MessageRow :=
  if (queueOf queues m.queue).any (fun q => q.retries < m.redelivered) then
    { m with redelivered := 0, queue := (queueOf queues m.queue).elim 0 (·.error) }
  else m

theorem rollback3_spec (hc : Consistent db) (hover : Overdue db) :
    ∃ db', rollback3 db = some db' ∧ Consistent db' ∧ SameQueues db db' ∧
      db'.messages = db.messages.map (moved db.queues) := by
  have henqueued : ∀ m ∈ db.messages, (queueOf db.queues m.queue).any (fun q => decide (q.retries < m.redelivered)) = true →
      m.state = .enqueued := by
    intro m hm ha
    obtain ⟨q, hq, hqm⟩ := hc.foreignKey m hm
    rw [← hqm, queueOf_of_mem hc.queueIds hq] at ha
    exact hover m hm q hq hqm (by simpa using ha)
  have hshift : ∀ m ∈ db.messages, (queueOf db.queues m.queue).any (fun q => decide (q.retries < m.redelivered)) = true →
      ∀ qs qs', updateMessageQueue m { m with redelivered := 0, queue := (queueOf db.queues m.queue).elim 0 (·.error) } qs =
        some qs' →
      Shift (({ m with redelivered := 0, queue := (queueOf db.queues m.queue).elim 0 (·.error) } : MessageRow).totals -
        m.totals) qs qs' :=
    fun m hm ha qs qs' ht => updateMessageQueue_shift ht (henqueued m hm ha) (henqueued m hm ha) rfl
  obtain ⟨db', h⟩ : ∃ db', rollback3 db = some db' := by
    refine update_isSome (fun m hm ha qs => ?_) hshift ?_
    · obtain ⟨payload, hp⟩ := (hc.rows m hm).payload (by rw [henqueued m hm ha]; decide)
      obtain ⟨qs₁, h₁⟩ := updateQueues_isSome (fun q => q.id == ((queueOf db.queues m.queue).elim 0 (·.error)) &&
          ((queueOf db.queues m.queue).elim 0 (·.error)) != m.queue)
        (fun q => (addLength q.size m.payload).map fun size => { q with count := q.count + 1, size := size })
        qs fun q _ _ => ⟨_, by rw [hp]; rfl⟩
      obtain ⟨qs₂, h₂⟩ := updateQueues_isSome
        (fun q => q.id == m.queue && m.queue != ((queueOf db.queues m.queue).elim 0 (·.error)))
        (fun q => (subLength q.size m.payload).map fun size => { q with count := q.count - 1, size := size })
        qs₁ fun q _ _ => ⟨_, by rw [hp]; rfl⟩
      exact ⟨qs₂, Option.bind_eq_some_iff.2 ⟨qs₁, h₁, h₂⟩⟩
    · intro m hm
      obtain ⟨q, hq, hqm⟩ := hc.foreignKey m hm
      split_ifs
      · obtain ⟨e, he, hee⟩ := hc.errors q hq
        refine ⟨e, he, ?_⟩
        simp only [← hqm, queueOf_of_mem hc.queueIds hq, Option.elim_some]
        exact hee
      · exact ⟨q, hq, hqm⟩
  obtain ⟨h₁, h₂, h₃⟩ := update_consistent hc h (fun _ => rfl) hshift (fun m hm ha _ => by
    have hs := hc.rows m hm
    exact ⟨hs.state, hs.gtrid, hs.payload⟩)
  exact ⟨db', h, h₁, h₂, h₃⟩

/-- An inserted message has a new id and an existing queue, and a payload unless it is added. -/
theorem insert_spec {new : MessageRow} (hc : Consistent db) (h : insert new db = some db')
    (hstate : new.state = .added ∨ new.state = .enqueued) (hgtrid : new.state ≠ .enqueued → ∃ gtrid, new.gtrid = some gtrid) :
    Consistent db' ∧ SameQueues db db' ∧ db'.messages = db.messages ++ [new] ∧ new.id ∉ db.messages.map (·.id) := by
  unfold insert at h
  split_ifs at h with hkey hqueue
  obtain ⟨qs, hqs, rfl⟩ := Option.map_eq_some_iff.1 h
  have hs := insertMessage_shift hqs hstate
  have hnew : new.id ∉ db.messages.map (·.id) := by
    intro hin
    obtain ⟨m, hm, hid⟩ := List.mem_map.1 hin
    exact hkey (List.any_eq_true.2 ⟨m, hm, by simpa using hid⟩)
  obtain ⟨q₀, hq₀, hq₀id⟩ : ∃ q ∈ db.queues, q.id = new.queue := by simpa using hqueue
  refine ⟨⟨?_, ?_, ?_, ?_, ?_, ?_⟩, hs.statics, rfl, hnew⟩
  · rw [List.map_append, List.map_singleton]
    exact List.nodup_append.2 ⟨hc.ids, by simp, by rintro a ha b hb rfl; simp at hb; exact hnew (hb ▸ ha)⟩
  · rw [map_id_of_statics hs.statics]; exact hc.queueIds
  · intro m hm
    obtain ⟨q, hq, hqm⟩ : ∃ q ∈ db.queues, q.id = m.queue := by
      rcases List.mem_append.1 hm with hm | hm
      · exact hc.foreignKey m hm
      · rw [List.mem_singleton] at hm
        exact ⟨q₀, hq₀, hm ▸ hq₀id⟩
    obtain ⟨q', hq', heq⟩ := exists_of_statics hs.statics.symm hq
    exact ⟨q', hq', by rw [← (static_eq heq).1, hqm]⟩
  · intro q' hq'
    obtain ⟨q, hq, heq⟩ := exists_of_statics hs.statics hq'
    obtain ⟨e, he, hee⟩ := hc.errors q hq
    obtain ⟨e', he', heq'⟩ := exists_of_statics hs.statics.symm he
    exact ⟨e', he', by rw [← (static_eq heq').1, hee, (static_eq heq).2.2.2.1]⟩
  · intro m hm
    rcases List.mem_append.1 hm with hm | hm
    · exact hc.rows m hm
    · rw [List.mem_singleton] at hm
      subst hm
      refine ⟨?_, hgtrid, fun hadded => ?_⟩
      · rcases hstate with h' | h' <;> rw [h'] <;> decide
      · -- the trigger has added the length of the payload to the size of the queue
        have henq := hstate.resolve_left hadded
        obtain ⟨qs₁, h₁, h₂⟩ := Option.bind_eq_some_iff.1 hqs
        have hs₁ : SameQueues db ⟨qs₁, []⟩ := by
          have : Shift 0 db.queues qs₁ := updateQueues_shift
            (fun q q' ha _ => by simp [henq] at ha) (fun _ _ => rfl) h₁
          exact this.statics
        obtain ⟨q, hq, heq⟩ := exists_of_statics hs₁.symm hq₀
        obtain ⟨q', hq'⟩ := updateQueues_some h₂ q hq (by simp [henq, ← (static_eq heq).1, hq₀id])
        obtain ⟨size, hsize, -⟩ := Option.map_eq_some_iff.1 hq'
        unfold addLength at hsize
        obtain ⟨payload, hpayload, -⟩ := Option.map_eq_some_iff.1 hsize
        exact ⟨payload, hpayload⟩
  · intro q' hq'
    obtain ⟨q, hq, hstatic, htotals⟩ := hs.mem hq'
    rw [htotals, hc.totals q hq, (static_eq hstatic).1]
    simp

theorem le_foldr_max {n : Nat} : ∀ {l : List Nat}, n ∈ l → n ≤ l.foldr max 0
  | m :: l, h => by
    rcases List.mem_cons.1 h with rfl | h
    · exact le_max_left _ _
    · exact (le_foldr_max h).trans (le_max_right _ _)

theorem id_lt_nextId {q : QueueRow} (h : q ∈ db.queues) : q.id < db.nextId := by
  have := le_foldr_max (List.mem_map_of_mem (f := (·.id)) h)
  unfold nextId; omega

/-- An inserted queue has a new id, and no messages yet. -/
theorem insertQueue_spec {name : String} {retries error : Nat} {type : QueueType} {now : Int} (hc : Consistent db)
    (herror : ∃ e ∈ db.queues, e.id = error) (h : insertQueue name retries error type now db = some db') :
    Consistent db' ∧ db'.queues = db.queues ++ [⟨db.nextId, name, retries, error, type, 0, 0, 0, now⟩] ∧
      db'.messages = db.messages := by
  unfold insertQueue at h
  split_ifs at h
  cases h
  have hnew : ∀ m ∈ db.messages, m.queue ≠ db.nextId := by
    intro m hm heq
    obtain ⟨q, hq, hqm⟩ := hc.foreignKey m hm
    have := id_lt_nextId hq
    omega
  refine ⟨⟨hc.ids, ?_, ?_, ?_, hc.rows, ?_⟩, rfl, rfl⟩
  · rw [List.map_append, List.map_singleton]
    refine List.nodup_append.2 ⟨hc.queueIds, by simp, ?_⟩
    rintro a ha b hb rfl
    obtain ⟨q, hq, rfl⟩ := List.mem_map.1 ha
    have := id_lt_nextId hq
    simp at hb
    omega
  · intro m hm
    obtain ⟨q, hq, hqm⟩ := hc.foreignKey m hm
    exact ⟨q, List.mem_append_left _ hq, hqm⟩
  · intro q hq
    rcases List.mem_append.1 hq with hq | hq
    · obtain ⟨e, he, hee⟩ := hc.errors q hq
      exact ⟨e, List.mem_append_left _ he, hee⟩
    · rw [List.mem_singleton] at hq
      obtain ⟨e, he, hee⟩ := herror
      exact ⟨e, List.mem_append_left _ he, by rw [hq]; exact hee⟩
  · intro q hq
    rcases List.mem_append.1 hq with hq | hq
    · exact hc.totals q hq
    · rw [List.mem_singleton] at hq
      subst hq
      have hzero : ∀ ms : List MessageRow, (∀ m ∈ ms, m.queue ≠ db.nextId) →
          (ms.map MessageRow.totals).sum db.nextId = 0 := by
        intro ms hms
        induction ms with
        | nil => rfl
        | cons m ms ih =>
          have hm : db.nextId ≠ m.queue := (hms m List.mem_cons_self).symm
          rw [List.map_cons, List.sum_cons, Pi.add_apply, ih fun m hm => hms m (List.mem_cons_of_mem _ hm)]
          simp [MessageRow.totals, hm]
      exact (hzero db.messages hnew).symm

end Database

end Casual.Queue
