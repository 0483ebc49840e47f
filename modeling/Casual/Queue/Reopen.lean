/-
`Database::Database` on a file that is there already: what it makes of the queuebase in it, over every
content the schema and the earlier openings allow.
-/
import Casual.Queue.Statistics

namespace Casual.Queue

open Casual.Common Casual.Communication Casual.Lib

namespace Database

/-! ## The constructor -/

/-- `INSERT OR REPLACE INTO queue VALUES …`: the rows that have the id or the name already are deleted,
and the references of the messages are checked when the statement ends. -/
def insertOrReplaceQueue (new : QueueRow) (db : Database) : Option Database :=
  let kept := db.queues.filter fun q => q.id != new.id && q.name != new.name
  let queues := kept.takeWhile (fun q => q.id < new.id) ++ new :: kept.dropWhile fun q => q.id < new.id
  if foreignKeys ⟨queues, db.messages⟩ then some ⟨queues, db.messages⟩ else none

/-- The name of the error queue of the group; a group without a name gets one from `uuid::make`. -/
def groupErrorName (groupname made : String) : String :=
  (if groupname.isEmpty then made else groupname) ++ ".group.error"

/-- `Database( database, groupname)`, on the tables that are in the file. The tables, the indices and the
triggers are created only when they do not exist. -/
def database (groupname made : String) (now : Int) : EStateM Exception Database Unit :=
  execute (insertOrReplaceQueue ⟨errorQueue, groupErrorName groupname made, 0, errorQueue, .groupErrorQueue, 0, 0, 0, now⟩)

/-- A file that is not there yet has no rows. -/
theorem database_empty (groupname made : String) (now : Int) :
    database groupname made now ⟨[], []⟩ = .ok () («open» (if groupname.isEmpty then made else groupname) now) := rfl

/-! ## What is in a file -/

/-- What the schema and the openings of a queuebase ensure of its tables. -/
structure Stored (name : String) (db : Database) : Prop where
  rowid : db.queues.Pairwise fun p q => p.id < q.id
  names : (db.queues.map (·.name)).Nodup
  foreignKey : ∀ m ∈ db.messages, ∃ q ∈ db.queues, q.id = m.queue
  groupError : ∃ q ∈ db.queues, q.static = (errorQueue, name, 0, errorQueue, .groupErrorQueue)

/-- All queues, all messages and all statistics are what they were. -/
structure Kept (db db' : Database) : Prop where
  messages : db'.messages = db.messages
  queues : db'.queues.map (fun q => (q.static, q.totals)) = db.queues.map fun q => (q.static, q.totals)

section Stored

variable {name : String} {db db' : Database}

theorem Stored.nodup (h : Stored name db) : (db.queues.map (·.id)).Nodup :=
  (List.pairwise_map.2 h.rowid).imp fun hlt => Nat.ne_of_lt hlt

theorem foreignKeys_iff : foreignKeys db = true ↔ ∀ m ∈ db.messages, ∃ q ∈ db.queues, q.id = m.queue := by
  simp [foreignKeys]

/-- The queues before and after the error queue of the group. -/
theorem Stored.split (h : Stored name db) : ∃ pre q post, db.queues = pre ++ q :: post ∧
    q.static = (errorQueue, name, 0, errorQueue, .groupErrorQueue) ∧
    (∀ p ∈ pre, p.id < errorQueue ∧ p.name ≠ name) ∧ ∀ p ∈ post, errorQueue < p.id ∧ p.name ≠ name := by
  obtain ⟨q, hq, hstatic⟩ := h.groupError
  obtain ⟨pre, post, hsplit⟩ := List.append_of_mem hq
  have hid : q.id = errorQueue := congrArg Prod.fst hstatic
  have hname : q.name = name := congrArg (fun s => s.2.1) hstatic
  have hrowid := h.rowid
  have hnames := h.names
  rw [hsplit] at hrowid hnames
  obtain ⟨-, hafter, hbefore⟩ := List.pairwise_append.1 hrowid
  obtain ⟨-, hnafter, hnbefore⟩ := List.nodup_append.1 (List.map_append ▸ hnames)
  refine ⟨pre, q, post, hsplit, hstatic, fun p hp => ⟨?_, ?_⟩, fun p hp => ⟨?_, ?_⟩⟩
  · rw [← hid]; exact hbefore p hp q List.mem_cons_self
  · rw [← hname]; exact hnbefore _ (List.mem_map_of_mem hp) _ List.mem_cons_self
  · rw [← hid]; exact (List.pairwise_cons.1 hafter).1 p hp
  · rw [← hname]
    intro heq
    exact (List.nodup_cons.1 hnafter).1 (List.mem_map.2 ⟨p, hp, heq⟩)

theorem mem_insertOrReplaceQueue {new : QueueRow} (h : insertOrReplaceQueue new db = some db') : new ∈ db'.queues := by
  simp only [insertOrReplaceQueue] at h
  split_ifs at h
  cases h
  exact List.mem_append_right _ List.mem_cons_self

theorem map_replace_of_ne {new : QueueRow} {qs : List QueueRow} (h : ∀ q ∈ qs, q.id ≠ errorQueue) :
    (qs.map fun q => if q.id = errorQueue then new else q) = qs := by
  induction qs with
  | nil => rfl
  | cons q qs ih =>
    rw [List.map_cons, if_neg (h q List.mem_cons_self), ih fun p hp => h p (List.mem_cons_of_mem _ hp)]

/-- The row that is replaced is the one of the error queue of the group, when it has the same name. -/
theorem insertOrReplaceQueue_stored (h : Stored name db) {new : QueueRow} (hid : new.id = errorQueue)
    (hname : new.name = name) : insertOrReplaceQueue new db =
      some { db with queues := db.queues.map fun q => if q.id = errorQueue then new else q } := by
  obtain ⟨pre, q, post, hsplit, hstatic, hpre, hpost⟩ := h.split
  have hqid : q.id = errorQueue := congrArg Prod.fst hstatic
  have hkept : (db.queues.filter fun q => q.id != new.id && q.name != new.name) = pre ++ post := by
    rw [hsplit, List.filter_append, List.filter_cons_of_neg (by simp [hqid, hid])]
    congr 1
    · refine List.filter_eq_self.2 fun p hp => ?_
      obtain ⟨hlt, hne⟩ := hpre p hp
      simp [hid, hname, Nat.ne_of_lt hlt, hne]
    · refine List.filter_eq_self.2 fun p hp => ?_
      obtain ⟨hlt, hne⟩ := hpost p hp
      simp [hid, hname, (Nat.ne_of_lt hlt).symm, hne]
  have htake : (pre ++ post).takeWhile (fun q => decide (q.id < new.id)) = pre := by
    rw [List.takeWhile_append_of_pos fun p hp => by simpa [hid] using (hpre p hp).1]
    cases post with
    | nil => simp
    | cons p post =>
      have := (hpost p List.mem_cons_self).1
      rw [List.takeWhile_cons_of_neg (by simp only [hid, decide_eq_true_eq]; omega), List.append_nil]
  have hdrop : (pre ++ post).dropWhile (fun q => decide (q.id < new.id)) = post := by
    have hall := List.takeWhile_append_dropWhile (p := fun q : QueueRow => decide (q.id < new.id)) (l := pre ++ post)
    rw [htake] at hall
    exact List.append_cancel_left hall
  have hmap : (db.queues.map fun q => if q.id = errorQueue then new else q) = pre ++ new :: post := by
    rw [hsplit, List.map_append, List.map_cons, if_pos hqid]
    congr 1
    · exact map_replace_of_ne fun p hp => Nat.ne_of_lt (hpre p hp).1
    · rw [map_replace_of_ne fun p hp => (Nat.ne_of_lt (hpost p hp).1).symm]
  have hfk : foreignKeys ⟨pre ++ new :: post, db.messages⟩ = true := by
    refine foreignKeys_iff.2 fun m hm => ?_
    obtain ⟨p, hp, hpm⟩ := h.foreignKey m hm
    rw [hsplit] at hp
    rcases List.mem_append.1 hp with hp | hp
    · exact ⟨p, List.mem_append_left _ hp, hpm⟩
    · rcases List.mem_cons.1 hp with rfl | hp
      · exact ⟨new, List.mem_append_right _ List.mem_cons_self, by rw [hid, ← hqid]; exact hpm⟩
      · exact ⟨p, List.mem_append_right _ (List.mem_cons_of_mem _ hp), hpm⟩
  unfold insertOrReplaceQueue
  simp only [hkept, htake, hdrop, hmap]
  rw [if_pos hfk]

/-- Opening a queuebase once more zeroes the statistics of the error queue of the group, and sets its
time; nothing else changes. -/
theorem database_stored {groupname made : String} (h : Stored (groupErrorName groupname made) db) (now : Int) :
    database groupname made now db = .ok () { db with
      queues := db.queues.map fun q => if q.id = errorQueue then
        { q with count := 0, size := 0, uncommittedCount := 0, timestamp := now } else q } := by
  unfold database
  rw [execute_some (insertOrReplaceQueue_stored h rfl rfl)]
  congr 2
  refine List.map_congr_left fun q hq => ?_
  split_ifs with hid
  · -- the row has the values the constructor writes
    obtain ⟨e, he, hstatic⟩ := h.groupError
    have : q = e := List.inj_on_of_nodup_map h.nodup hq he (hid.trans (congrArg Prod.fst hstatic).symm)
    subst this
    obtain ⟨hid, hname, hretries, herror, htype⟩ := by simpa [QueueRow.static] using hstatic
    rw [← hname, ← htype, ← hid]
    simp [hretries, herror, hid]
  · rfl

/-- An opening keeps the queuebase just when it writes the name the error queue of the group has, and
there is nothing in its statistics to lose. -/
theorem database_keeps_iff (h : Stored name db) (groupname made : String) (now : Int) :
    (∃ db', database groupname made now db = .ok () db' ∧ Kept db db') ↔
      groupErrorName groupname made = name ∧ ∀ q ∈ db.queues, q.id = errorQueue → q.totals = 0 := by
  constructor
  · rintro ⟨db', hok, hkept⟩
    have hname : groupErrorName groupname made = name := by
      unfold database at hok
      cases hinsert : insertOrReplaceQueue ⟨errorQueue, groupErrorName groupname made, 0, errorQueue,
          .groupErrorQueue, 0, 0, 0, now⟩ db with
      | none => rw [execute_none hinsert] at hok; cases hok
      | some db₁ =>
        rw [execute_some hinsert] at hok
        cases hok
        -- the row that was written has the values of a row that was there
        have hmem := List.mem_map_of_mem (f := fun q : QueueRow => (q.static, q.totals)) (mem_insertOrReplaceQueue hinsert)
        rw [hkept.queues] at hmem
        obtain ⟨q, hq, heq⟩ := List.mem_map.1 hmem
        obtain ⟨e, he, hstatic⟩ := h.groupError
        obtain ⟨hqs, -⟩ := Prod.mk.inj heq
        have hid : q.id = e.id := (congrArg Prod.fst hqs).trans (congrArg Prod.fst hstatic).symm
        obtain rfl := List.inj_on_of_nodup_map h.nodup hq he hid
        exact congrArg (fun s => s.2.1) (hqs.symm.trans hstatic)
    subst hname
    refine ⟨rfl, fun q hq hid => ?_⟩
    rw [database_stored h now] at hok
    cases hok
    have hqueues := hkept.queues
    rw [List.map_map] at hqueues
    have := List.map_inj_left.1 hqueues q hq
    simp only [Function.comp_apply, if_pos hid] at this
    exact (Prod.mk.inj this).2.symm
  · rintro ⟨rfl, hzero⟩
    refine ⟨_, database_stored h now, rfl, ?_⟩
    rw [List.map_map]
    refine List.map_congr_left fun q hq => ?_
    simp only [Function.comp_apply]
    split_ifs with hid
    · rw [hzero q hq hid]
      rfl
    · rfl

end Stored

/-- The names of the error queue are those of the same group just when the group has a name. -/
theorem groupErrorName_eq_iff {groupname made made' : String} (h : made' ≠ made) :
    groupErrorName groupname made' = groupErrorName groupname made ↔ groupname ≠ "" := by
  unfold groupErrorName
  rw [String.append_left_inj]
  by_cases hname : groupname = ""
  · subst hname
    simpa using h
  · simp [hname]

/-! ## Runs with openings -/

/-- A call of one of the operations, or an opening, with the name `uuid::make` would give. -/
inductive Event
  | call (c : Call)
  | reopen (made : String) (now : Int)

/-- A queuebase of a group that is opened, used and opened again. -/
def reopening (groupname : String) : Machine Database Event where
  init db := ∃ made now, db = after (database groupname made now ⟨[], []⟩)
  admits _ _ := True
  step db
    | .call c => db.call c
    | .reopen made now => after (database groupname made now db)

section Reachable

variable {name : String} {db db' : Database}

theorem Stored.of_same (h : Stored name db) (hs : SameQueues db db')
    (hfk : ∀ m ∈ db'.messages, ∃ q ∈ db'.queues, q.id = m.queue) : Stored name db' := by
  have hids : db'.queues.map (·.id) = db.queues.map (·.id) := map_id_of_statics hs
  refine ⟨List.pairwise_map.1 (hids ▸ List.pairwise_map.2 h.rowid), ?_, hfk, ?_⟩
  · have := congrArg (List.map fun s => s.2.1) hs
    rw [List.map_map, List.map_map] at this
    exact this ▸ h.names
  · obtain ⟨q, hq, hstatic⟩ := h.groupError
    obtain ⟨q', hq', heq⟩ := exists_of_statics hs.symm hq
    exact ⟨q', hq', heq.symm.trans hstatic⟩

/-! ### The triggers keep what does not count -/

theorem updateQueues_statics {affects : QueueRow → Bool} {set : QueueRow → Option QueueRow}
    (hset : ∀ q q', set q = some q' → q'.static = q.static) :
    ∀ {qs qs' : List QueueRow}, updateQueues affects set qs = some qs' →
      qs'.map QueueRow.static = qs.map QueueRow.static
  | [], _, h => by cases h; rfl
  | q :: qs, _, h => by
    unfold updateQueues at h
    split at h
    · next q' qs' hq hqs =>
      cases h
      rw [List.map_cons, List.map_cons, updateQueues_statics hset hqs]
      congr 1
      split_ifs at hq
      · exact hset q q' hq
      · cases hq; rfl
    · cases h

theorem insertMessage_statics {new : MessageRow} {qs qs' : List QueueRow} (h : insertMessage new qs = some qs') :
    qs'.map QueueRow.static = qs.map QueueRow.static := by
  obtain ⟨qs₁, h₁, h₂⟩ := Option.bind_eq_some_iff.1 h
  refine (updateQueues_statics ?_ h₂).trans (updateQueues_statics ?_ h₁)
  · intro q q' hq
    obtain ⟨size, -, rfl⟩ := Option.map_eq_some_iff.1 hq
    rfl
  · intro q q' hq
    cases hq; rfl

theorem updateMessageState_statics {old new : MessageRow} {qs qs' : List QueueRow}
    (h : updateMessageState old new qs = some qs') : qs'.map QueueRow.static = qs.map QueueRow.static := by
  refine updateQueues_statics (fun q q' hq => ?_) h
  obtain ⟨size, -, rfl⟩ := Option.map_eq_some_iff.1 hq
  rfl

theorem updateMessageQueue_statics {old new : MessageRow} {qs qs' : List QueueRow}
    (h : updateMessageQueue old new qs = some qs') : qs'.map QueueRow.static = qs.map QueueRow.static := by
  obtain ⟨qs₁, h₁, h₂⟩ := Option.bind_eq_some_iff.1 h
  refine (updateQueues_statics ?_ h₂).trans (updateQueues_statics ?_ h₁)
  · intro q q' hq
    obtain ⟨size, -, rfl⟩ := Option.map_eq_some_iff.1 hq
    rfl
  · intro q q' hq
    obtain ⟨size, -, rfl⟩ := Option.map_eq_some_iff.1 hq
    rfl

theorem deleteMessage_statics {old : MessageRow} {qs qs' : List QueueRow} (h : deleteMessage old qs = some qs') :
    qs'.map QueueRow.static = qs.map QueueRow.static := by
  obtain ⟨qs₁, h₁, h₂⟩ := Option.bind_eq_some_iff.1 h
  refine (updateQueues_statics ?_ h₂).trans (updateQueues_statics ?_ h₁)
  · intro q q' hq
    cases hq; rfl
  · intro q q' hq
    obtain ⟨size, -, rfl⟩ := Option.map_eq_some_iff.1 hq
    rfl

/-! ### The statements keep what is stored -/

theorem change_stored {affects : MessageRow → Bool} {set : MessageRow → Option MessageRow}
    {trigger : MessageRow → Option MessageRow → List QueueRow → Option (List QueueRow)}
    (ht : ∀ old new qs qs', trigger old new qs = some qs' → qs'.map QueueRow.static = qs.map QueueRow.static)
    (h : Stored name db) (hchange : db.change affects set trigger = some db') : Stored name db' := by
  refine h.of_same ?_ (change_foreignKey hchange)
  unfold change at hchange
  split at hchange
  · cases hchange
  · next r hr =>
    split_ifs at hchange
    cases hchange
    exact Table.execute_keeps (fun qs => qs.map QueueRow.static = db.queues.map QueueRow.static)
      (fun m _ _ qs qs' hqs hm => (ht m _ qs qs' hm).trans hqs) rfl hr

theorem update_stored {trigger : MessageRow → MessageRow → List QueueRow → Option (List QueueRow)}
    {set : MessageRow → MessageRow} {affects : MessageRow → Bool}
    (ht : ∀ old new qs qs', trigger old new qs = some qs' → qs'.map QueueRow.static = qs.map QueueRow.static)
    (h : Stored name db) (hupdate : update trigger set affects db = some db') : Stored name db' := by
  refine change_stored (fun old new qs qs' hm => ?_) h hupdate
  cases new with
  | none => cases hm; rfl
  | some new => exact ht old new qs qs' hm

theorem delete_stored {affects : MessageRow → Bool} (h : Stored name db) (hdelete : delete affects db = some db') :
    Stored name db' :=
  change_stored (fun _ _ _ _ hm => deleteMessage_statics hm) h hdelete

theorem insert_stored {new : MessageRow} (h : Stored name db) (hinsert : insert new db = some db') :
    Stored name db' := by
  unfold insert at hinsert
  split_ifs at hinsert with hkey hqueue
  obtain ⟨qs, hqs, rfl⟩ := Option.map_eq_some_iff.1 hinsert
  have hs := insertMessage_statics hqs
  refine h.of_same hs fun m hm => ?_
  obtain ⟨q, hq, hqm⟩ : ∃ q ∈ db.queues, q.id = m.queue := by
    rcases List.mem_append.1 hm with hm | hm
    · exact h.foreignKey m hm
    · rw [List.mem_singleton.1 hm]
      simpa using hqueue
  obtain ⟨q', hq', heq⟩ := exists_of_statics hs.symm hq
  exact ⟨q', hq', by rw [← (static_eq heq).1, hqm]⟩

theorem insertQueue_stored {queue : String} {retries error : Nat} {type : QueueType} {now : Int} (h : Stored name db)
    (hinsert : insertQueue queue retries error type now db = some db') : Stored name db' := by
  unfold insertQueue at hinsert
  split_ifs at hinsert with hname
  cases hinsert
  refine ⟨?_, ?_, fun m hm => ?_, ?_⟩
  · refine List.pairwise_append.2 ⟨h.rowid, List.pairwise_singleton _ _, fun q hq q' hq' => ?_⟩
    rw [List.mem_singleton.1 hq']
    exact id_lt_nextId hq
  · rw [List.map_append]
    refine List.nodup_append.2 ⟨h.names, by simp, ?_⟩
    rintro a ha b hb rfl
    obtain ⟨q, hq, hqa⟩ := List.mem_map.1 ha
    rw [List.map_singleton, List.mem_singleton] at hb
    exact hname (List.any_eq_true.2 ⟨q, hq, by simpa using hqa.trans hb⟩)
  · obtain ⟨q, hq, hqm⟩ := h.foreignKey m hm
    exact ⟨q, List.mem_append_left _ hq, hqm⟩
  · obtain ⟨q, hq, hstatic⟩ := h.groupError
    exact ⟨q, List.mem_append_left _ hq, hstatic⟩

theorem pairwise_insert {new : QueueRow} : ∀ {qs : List QueueRow}, (qs.Pairwise fun p q => p.id < q.id) →
    (∀ q ∈ qs, q.id ≠ new.id) → (qs.takeWhile (fun q => decide (q.id < new.id)) ++
      new :: qs.dropWhile fun q => decide (q.id < new.id)).Pairwise fun p q => p.id < q.id
  | [], _, _ => List.pairwise_singleton _ _
  | q :: qs, h, hne => by
    obtain ⟨hq, hqs⟩ := List.pairwise_cons.1 h
    have hnew := hne q List.mem_cons_self
    by_cases hlt : q.id < new.id
    · rw [List.takeWhile_cons_of_pos (by simpa using hlt), List.dropWhile_cons_of_pos (by simpa using hlt), List.cons_append]
      refine List.pairwise_cons.2 ⟨fun p hp => ?_, pairwise_insert hqs fun p hp => hne p (List.mem_cons_of_mem _ hp)⟩
      rcases List.mem_append.1 hp with hp | hp
      · exact hq p ((List.takeWhile_sublist _).subset hp)
      · rcases List.mem_cons.1 hp with rfl | hp
        · exact hlt
        · exact hq p ((List.dropWhile_sublist _).subset hp)
    · rw [List.takeWhile_cons_of_neg (by simpa using hlt), List.dropWhile_cons_of_neg (by simpa using hlt), List.nil_append]
      refine List.pairwise_cons.2 ⟨fun p hp => ?_, h⟩
      rcases List.mem_cons.1 hp with rfl | hp
      · omega
      · have := hq p hp
        omega

/-- Whatever was in the tables, an opening that does not fail leaves the error queue of the group. -/
theorem insertOrReplaceQueue_leaves {new : QueueRow} (hrowid : db.queues.Pairwise fun p q => p.id < q.id)
    (hnames : (db.queues.map (·.name)).Nodup) (hstatic : new.static = (errorQueue, name, 0, errorQueue, .groupErrorQueue))
    (h : insertOrReplaceQueue new db = some db') : Stored name db' := by
  have hmem := mem_insertOrReplaceQueue h
  have hname : new.name = name := congrArg (fun s => s.2.1) hstatic
  simp only [insertOrReplaceQueue] at h
  split_ifs at h with hfk
  cases h
  have hsub := List.filter_sublist (p := fun q => q.id != new.id && q.name != new.name) (l := db.queues)
  have hkept : ∀ q ∈ db.queues.filter (fun q => q.id != new.id && q.name != new.name), q.id ≠ new.id ∧ q.name ≠ new.name := by
    intro q hq
    simpa using (List.mem_filter.1 hq).2
  refine ⟨pairwise_insert (hrowid.sublist hsub) fun q hq => (hkept q hq).1, ?_, foreignKeys_iff.1 hfk, new, hmem, hstatic⟩
  -- the names are those of the rows that are kept, and the new one
  have hperm := (@List.perm_middle _ new
    ((db.queues.filter fun q => q.id != new.id && q.name != new.name).takeWhile fun q => decide (q.id < new.id))
    ((db.queues.filter fun q => q.id != new.id && q.name != new.name).dropWhile fun q => decide (q.id < new.id))).map
      (fun q => q.name)
  rw [List.takeWhile_append_dropWhile] at hperm
  refine hperm.nodup_iff.2 (List.nodup_cons.2 ⟨fun hin => ?_, hnames.sublist (hsub.map _)⟩)
  obtain ⟨q, hq, heq⟩ := List.mem_map.1 hin
  exact (hkept q hq).2 heq

/-! ### The operations -/

theorem execute_stored {statement : Database → Option Database}
    (h : ∀ db db', Stored name db → statement db = some db' → Stored name db') :
    Triple (Stored name) (execute statement) (fun _ => Stored name) (fun _ => Stored name) := by
  intro db hdb
  cases hs : statement db with
  | none => rw [execute_none hs]; exact hdb
  | some db' => rw [execute_some hs]; exact h db db' hdb hs

theorem create_stored (queue : String) (retries : Nat) (now : Int) :
    Triple (Stored name) (create queue retries now) (fun _ => Stored name) (fun _ => Stored name) := by
  refine Triple.bind (Triple.get fun _ h => h) fun db₁ => ?_
  refine Triple.bind (execute_stored fun _ _ => insertQueue_stored) fun _ => ?_
  refine Triple.bind (Triple.get fun _ h => h) fun db₂ => ?_
  refine Triple.bind (execute_stored fun _ _ => insertQueue_stored) fun _ => ?_
  exact Triple.pure fun _ h => h

theorem enqueue_stored (message : Message.EnqueueRequest) (made : Uuid) (now : Int) :
    Triple (Stored name) (enqueue message made now) (fun _ => Stored name) (fun _ => Stored name) :=
  Triple.bind (execute_stored fun _ _ => insert_stored) fun _ => Triple.pure fun _ h => h

theorem dequeue_stored (message : Message.DequeueRequest) (now : Int) :
    Triple (Stored name) (dequeue message now) (fun _ => Stored name) (fun _ => Stored name) := by
  refine Triple.bind (Triple.get fun _ h => h) fun db₁ => ?_
  split
  · exact Triple.pure fun _ h => h
  · split
    · exact Triple.bind (execute_stored fun _ _ => update_stored fun _ _ _ _ => updateMessageState_statics) fun _ =>
        Triple.pure fun _ h => h
    · exact Triple.bind (execute_stored fun _ _ => delete_stored) fun _ => Triple.pure fun _ h => h

theorem commit_stored (id : Transaction.ID) :
    Triple (Stored name) (commit id) (fun _ => Stored name) (fun _ => Stored name) :=
  Triple.bind (execute_stored fun _ _ => update_stored fun _ _ _ _ => updateMessageState_statics) fun _ =>
    execute_stored fun _ _ => delete_stored

theorem rollback_stored (id : Transaction.ID) :
    Triple (Stored name) (rollback id) (fun _ => Stored name) (fun _ => Stored name) := by
  refine Triple.bind (execute_stored fun _ _ => delete_stored) fun _ => ?_
  refine Triple.bind (execute_stored fun _ _ => update_stored fun _ _ _ _ => updateMessageState_statics) fun _ => ?_
  exact execute_stored fun _ _ => update_stored fun _ _ _ _ => updateMessageQueue_statics

theorem Stored.call (h : Stored name db) (c : Call) : Stored name (db.call c) := by
  cases c with
  | create queue retries now => exact (create_stored queue retries now).after h
  | enqueue message made now => exact (enqueue_stored message made now).after h
  | dequeue message now => exact (dequeue_stored message now).after h
  | commit id => exact (commit_stored id).after h
  | rollback id => exact (rollback_stored id).after h

/-- Every queuebase that is opened, used and opened again has a content as above, under the name of its
last opening. -/
theorem stored_of_reachable {groupname : String} (h : (reopening groupname).Reachable db) :
    ∃ made, Stored (groupErrorName groupname made) db := by
  have hopen : ∀ (db : Database) (made : String) (now : Int), db.queues.Pairwise (fun p q => p.id < q.id) →
      (db.queues.map (·.name)).Nodup → (∃ made, Stored (groupErrorName groupname made) db) ∨ db = ⟨[], []⟩ →
        ∃ made', Stored (groupErrorName groupname made') (after (database groupname made now db)) := by
    intro db made now hrowid hnames hdb
    cases hinsert : insertOrReplaceQueue ⟨errorQueue, groupErrorName groupname made, 0, errorQueue, .groupErrorQueue,
        0, 0, 0, now⟩ db with
    | none =>
      have herror : database groupname made now db = .error .query db := execute_none hinsert
      rw [herror, after_error]
      rcases hdb with hdb | rfl
      · exact hdb
      · cases hinsert
    | some db' =>
      have hok : database groupname made now db = .ok () db' := execute_some hinsert
      rw [hok, after_ok]
      exact ⟨made, insertOrReplaceQueue_leaves hrowid hnames rfl hinsert⟩
  refine h.invariant (I := fun db => ∃ made, Stored (groupErrorName groupname made) db) (fun db hinit => ?_) fun db e hdb _ => ?_
  · obtain ⟨made, now, rfl⟩ := hinit
    exact hopen ⟨[], []⟩ made now List.Pairwise.nil List.nodup_nil (.inr rfl)
  · obtain ⟨made, hs⟩ := hdb
    cases e with
    | call c => exact ⟨made, hs.call c⟩
    | reopen made' now => exact hopen db made' now hs.rowid hs.names (.inl ⟨made, hs⟩)

theorem stored_open (groupname made : String) (now : Int) :
    Stored (groupErrorName groupname made) (after (database groupname made now ⟨[], []⟩)) := by
  have hopen : database groupname made now ⟨[], []⟩ = .ok () _ := database_empty groupname made now
  rw [hopen]
  exact @insertOrReplaceQueue_leaves _ ⟨[], []⟩ _ _ List.Pairwise.nil List.nodup_nil rfl rfl

theorem Stored.calls (h : Stored name db) : ∀ calls : List Call, Stored name (calls.foldl Database.call db) := by
  intro calls
  induction calls generalizing db with
  | nil => exact h
  | cons c calls ih => exact ih (h.call c)

/-- Of a queuebase that has not been opened again yet the statistics of the error queue are zero just when
it has no messages. -/
theorem totals_errorQueue_iff (h : queuebase.Reachable db) :
    (∀ q ∈ db.queues, q.id = errorQueue → q.totals = 0) ↔ ∀ m ∈ db.messages, m.queue ≠ errorQueue := by
  have ho := opened_of_reachable h
  obtain ⟨e, he, hee⟩ := ho.errorQueue
  constructor
  · intro hzero m hm hqueue
    obtain ⟨hcount, -, huncommitted, -⟩ := statistics h e he
    have htotals := hzero e he hee
    simp only [QueueRow.totals, Prod.mk_eq_zero] at htotals
    -- the message counts as one that is committed, or as one that is not
    have hmem : m ∈ db.messagesOf e.id [.enqueued, .removed] ∨ m ∈ db.messagesOf e.id [.added] := by
      have hstate := (ho.rows m hm).state
      cases hs : m.state <;> simp_all [messagesOf]
    rcases hmem with hmem | hmem
    · have := List.length_pos_of_mem hmem
      omega
    · have := List.length_pos_of_mem hmem
      omega
  · intro hnone q hq hid
    have hempty : ∀ states, db.messagesOf q.id states = [] := by
      intro states
      refine List.filter_eq_nil_iff.2 fun m hm => ?_
      simp [hid, hnone m hm]
    obtain ⟨hcount, hsize, huncommitted, -⟩ := statistics h q hq
    simp [QueueRow.totals, hcount, hsize, huncommitted, hempty]

end Reachable

/-! ## Opening again -/

/-- For every content of a queuebase, opening it again with the same group name keeps all of it just when
the group has a name, and the statistics of its error queue are zero. -/
theorem reopen_iff {groupname made made' : String} {db : Database} (h : Stored (groupErrorName groupname made) db)
    (hmade : made' ≠ made) (now : Int) :
    (∃ db', database groupname made' now db = .ok () db' ∧ Kept db db') ↔
      groupname ≠ "" ∧ ∀ q ∈ db.queues, q.id = errorQueue → q.totals = 0 := by
  rw [database_keeps_iff h, groupErrorName_eq_iff hmade]

/-- A message that was moved to the error queue of its own queue is still there. -/
theorem rolledBackTwice_reopened :
    ∃ db', database "g" "v" 9 (rolledBackTwice.foldl Database.call («open» "g" 0)) = .ok () db' ∧
      Kept (rolledBackTwice.foldl Database.call («open» "g" 0)) db' :=
  (@reopen_iff "g" "u" "v" _ (Stored.calls (stored_open "g" "u" 0) rolledBackTwice) (by decide) 9).2 (by decide)

/-- The message is dequeued from the error queue too, and rolled back there. -/
def rolledBackTo : List Call :=
  rolledBackTwice ++ [.dequeue ⟨0, ⟨1, 2⟩, some someID, 2, ⟨"", 0⟩, false⟩ 4, .rollback someID]

/-- The error queue of the group has a message of three bytes, and an opening makes its count and its
size zero. -/
theorem rolledBackTo_reopened :
    (rolledBackTo.foldl Database.call («open» "g" 0)).queues.map (fun q => (q.id, q.totals)) =
        [(1, 1, 3, 0), (2, 0, 0, 0), (3, 0, 0, 0)] ∧
      ¬ ∃ db', database "g" "v" 9 (rolledBackTo.foldl Database.call («open» "g" 0)) = .ok () db' ∧
        Kept (rolledBackTo.foldl Database.call («open» "g" 0)) db' := by
  refine ⟨by decide, fun hkept => ?_⟩
  have hzero := ((database_keeps_iff (Stored.calls (stored_open "g" "u" 0) rolledBackTo) "g" "v" 9).1 hkept).2
  revert hzero
  decide

end Database

end Casual.Queue
