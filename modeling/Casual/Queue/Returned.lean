/-
What comes back from a queuebase: the message a dequeue returns under an id beside the one that was
enqueued under it.
-/
import Casual.Queue.Transactions

namespace Casual.Queue

open Casual.Common Casual.Communication Casual.Lib

/-! ## What a message carries -/

/-- What a message is to the one who enqueues it and to the one who dequeues it. -/
structure Carried where
  payload : Option (List UInt8)
  type : BufferType
  properties : String
  reply : String
  deriving DecidableEq, Repr

/-- What an enqueued message has to carry. -/
def Message.Base.carried (m : Message.Base) : Carried := ⟨m.payload, m.type, m.properties, m.reply⟩

/-- What a dequeued message carries. -/
def Message.Dequeued.carried (m : Message.Dequeued) : Carried := ⟨m.payload, m.type, m.properties, m.reply⟩

/-- What a stored message carries. -/
def Content.carried (c : Content) : Carried := ⟨c.payload, c.type, c.properties, c.reply⟩

namespace Database

@[simp] theorem enqueued_carried (message : Message.EnqueueRequest) (made : Uuid) (now : Int) :
    (enqueued message made now).content.carried = message.message.carried := rfl

@[simp] theorem reply_carried (m : MessageRow) : (reply m).carried = m.content.carried := rfl

/-! ## Runs with a record -/

/-- A queuebase, and for every id the message that was last accepted under it. -/
structure Recorded where
  db : Database
  log : Uuid → Option Message.Base

/-- What a call adds to the record. -/
def Recorded.note (s : Recorded) : Call → Uuid → Option Message.Base
  | .enqueue message made now =>
    match Database.enqueue message made now s.db with
    | .ok reply _ => Function.update s.log reply.id (some message.message)
    | .error _ _ => s.log
  | _ => s.log

/-- A queuebase whose accepted messages are recorded. -/
def recording : Machine Recorded Call where
  init s := (∃ groupname now, s.db = «open» groupname now) ∧ s.log = fun _ => none
  admits _ _ := True
  step s c := ⟨s.db.call c, s.note c⟩

/-- Every message in the queuebase carries what the record has for it. -/
def Accounts (s : Recorded) : Prop :=
  ∀ m ∈ s.db.messages, ∃ b, s.log m.id = some b ∧ m.content.carried = b.carried

section Recorded

variable {s : Recorded} {db : Database}

/-- A call that makes something else of the messages, but not of what they carry. -/
theorem Accounts.filterMap (h : Accounts s) {f : MessageRow → Option MessageRow} {db' : Database}
    (hf : ∀ m m', f m = some m' → m'.id = m.id ∧ m'.content = m.content)
    (hm : db'.messages = s.db.messages.filterMap f) : Accounts ⟨db', s.log⟩ := by
  intro m' hm'
  rw [hm] at hm'
  obtain ⟨m, hmem, heq⟩ := List.mem_filterMap.1 hm'
  obtain ⟨hid, hcontent⟩ := hf m m' heq
  obtain ⟨b, hb, hcarried⟩ := h m hmem
  exact ⟨b, hid ▸ hb, by rw [hcontent, hcarried]⟩

theorem taken_content {trid : Option Transaction.ID} {id : Uuid} {m m' : MessageRow} (h : taken trid id m = some m') :
    m'.id = m.id ∧ m'.content = m.content := by
  unfold taken at h
  split_ifs at h
  · obtain ⟨trid, -, rfl⟩ := Option.map_eq_some_iff.1 h
    exact ⟨rfl, rfl⟩
  · cases h
    exact ⟨rfl, rfl⟩

theorem committed_content {gtrid : List UInt8} {m m' : MessageRow} (h : committed gtrid m = some m') :
    m'.id = m.id ∧ m'.content = m.content := by
  unfold committed at h
  split_ifs at h <;> cases h <;> exact ⟨rfl, rfl⟩

theorem rolledBack_content {queues : List QueueRow} {gtrid : List UInt8} {m m' : MessageRow}
    (h : rolledBack queues gtrid m = some m') : m'.id = m.id ∧ m'.content = m.content := by
  unfold rolledBack at h
  split_ifs at h <;> cases h
  · unfold moved
    split_ifs <;> exact ⟨rfl, rfl⟩
  · exact ⟨rfl, rfl⟩

theorem Accounts.call (hc : Opened s.db) (h : Accounts s) (c : Call) : Accounts ⟨s.db.call c, s.note c⟩ := by
  cases c with
  | create name retries now =>
    intro m hm
    have hmessages := (create_spec hc.toSane hc.errorQueue name retries now).2.2
    exact h m (hmessages ▸ hm)
  | enqueue message made now =>
    simp only [Database.call, Recorded.note]
    rcases enqueue_spec hc.toSane message made now with he | ⟨db', he, -, -, hm, hnew⟩
    · rw [he]
      exact h
    · rw [he]
      intro m hmem
      change m ∈ db'.messages at hmem
      rw [hm] at hmem
      rcases List.mem_append.1 hmem with hmem | hmem
      · -- the id is new, so the record of another message stays
        have hne : m.id ≠ (enqueued message made now).id := fun h' => hnew (List.mem_map.2 ⟨m, hmem, h'⟩)
        obtain ⟨b, hb, hcarried⟩ := h m hmem
        exact ⟨b, by rw [← hb]; exact Function.update_of_ne hne _ _, hcarried⟩
      · rw [List.mem_singleton.1 hmem]
        exact ⟨message.message, Function.update_self _ _ _, rfl⟩
  | dequeue message now =>
    simp only [Database.call, Recorded.note]
    rcases dequeue_spec hc.toSane message now with ⟨-, he⟩ | ⟨row, db', -, he, -, -, hm⟩
    · rw [he]; exact h
    · rw [he]; exact h.filterMap (fun _ _ => taken_content) hm
  | commit id =>
    simp only [Database.call, Recorded.note]
    rcases commit_spec hc.toSane id with he | ⟨db', he, -, -, hm⟩
    · rw [he]; exact h
    · rw [he]; exact h.filterMap (fun _ _ => committed_content) hm
  | rollback id =>
    simp only [Database.call, Recorded.note]
    obtain ⟨db', he, -, -, hm⟩ := rollback_spec hc.toSane id
    rw [he]
    exact h.filterMap (fun _ _ => rolledBack_content) hm

theorem accounts_of_reachable (h : recording.Reachable s) : Opened s.db ∧ Accounts s := by
  refine h.invariant (I := fun s => Opened s.db ∧ Accounts s) (fun t ht => ?_) fun t c ht _ => ?_
  · obtain ⟨⟨groupname, now, he⟩, -⟩ := ht
    rw [Accounts, he]
    exact ⟨opened_open groupname now, fun m hm => by cases hm⟩
  · exact ⟨ht.1.call c, ht.2.call ht.1 c⟩

/-- In every run, what a dequeue returns under an id carries what was last enqueued under it. -/
theorem dequeue_carried (hc : Opened s.db) (h : Accounts s) {request : Message.DequeueRequest} {now : Int}
    {reply : Message.DequeueReply} {db' : Database} (hd : dequeue request now s.db = .ok reply db')
    {m : Message.Dequeued} (hm : m ∈ reply.message) : ∃ b, s.log m.id = some b ∧ m.carried = b.carried := by
  rcases dequeue_spec hc.toSane request now with ⟨-, he⟩ | ⟨row, db'', hsel, he, -⟩
  · rw [he] at hd
    cases hd
    cases hm
  · rw [he] at hd
    cases hd
    rw [List.mem_singleton.1 hm]
    obtain ⟨b, hb, hcarried⟩ := h row (select_some hsel).1
    exact ⟨b, hb, hcarried⟩

end Recorded

/-! ## A message that comes back -/

/-- The transaction of an enqueue, if it has one, is committed. -/
def settle (trid : Option Transaction.ID) : EStateM Exception Database Unit :=
  match trid with
  | none => pure ()
  | some trid => commit trid

/-- A call between the enqueue of a message and the commit of its transaction; without a transaction there
is nothing in between. -/
def Between (trid : Option Transaction.ID) (c : Call) : Prop := ∃ id, trid = some id ∧ ¬ c.ends id.xid.gtrid

/-- The message is enqueued and committed, and a dequeue that asks for its id when it is available
returns what was enqueued. -/
def ComesBack (db : Database) (message : Message.EnqueueRequest) (made : Uuid) (now : Int) (calls : List Call) : Prop :=
  ∃ reply db₁ db₂, enqueue message made now db = .ok reply db₁ ∧
    settle message.trid (calls.foldl Database.call db₁) = .ok () db₂ ∧
    ∀ (request : Message.DequeueRequest) now', request.queue = message.queue → request.selector.id = reply.id →
      message.message.avalible < now' → ∃ m db₃, dequeue request now' db₂ = .ok ⟨0, [m]⟩ db₃ ∧
        m.id = reply.id ∧ m.carried = message.message.carried

/-- Neither the payload of the message is `NULL`, nor that of another message its transaction adds. -/
def Storable (message : Message.EnqueueRequest) (db : Database) : Prop :=
  message.message.payload ≠ none ∧ ∀ trid, message.trid = some trid →
    ∀ m ∈ db.messages, m.gtrid = some trid.xid.gtrid → m.state = .added → m.payload ≠ none

section ComesBack

variable {db : Database}

theorem run_calls : ∀ (calls : List Call) (db : Database), queuebase.Run db calls (calls.foldl Database.call db) := by
  intro calls db
  have hall : ∀ (calls : List Call) (db : Database), queuebase.AdmitsAll db calls := by
    intro calls
    induction calls with
    | nil => exact fun _ => trivial
    | cons c calls ih => exact fun db => ⟨trivial, ih _⟩
  exact Machine.Run.foldl (.nil db) (hall calls db)

/-- A message with a new id for a queue that exists is inserted, unless it is available at once and its
payload is `NULL`. -/
theorem insert_isSome {new : MessageRow} (hnew : ∀ m ∈ db.messages, m.id ≠ new.id)
    (hqueue : ∃ q ∈ db.queues, q.id = new.queue) (hpayload : new.state = .enqueued → new.payload ≠ none) :
    ∃ db', insert new db = some db' := by
  obtain ⟨qs₁, h₁⟩ : ∃ qs₁, updateQueues (fun q => q.id == new.queue && new.state == .added)
      (fun q => some { q with timestamp := new.timestamp, uncommittedCount := q.uncommittedCount + 1 }) db.queues =
        some qs₁ := updateQueues_isSome _ _ _ fun q _ _ => ⟨_, rfl⟩
  obtain ⟨qs₂, h₂⟩ : ∃ qs₂, updateQueues (fun q => q.id == new.queue && new.state == .enqueued)
      (fun q => (addLength q.size new.payload).map fun size =>
        { q with timestamp := new.timestamp, count := q.count + 1, size := size }) qs₁ = some qs₂ := by
    refine updateQueues_isSome _ _ _ fun q _ ha => ?_
    simp only [Bool.and_eq_true, beq_iff_eq] at ha
    obtain ⟨payload, hp⟩ := Option.ne_none_iff_exists'.1 (hpayload ha.2)
    exact ⟨_, by rw [hp]; rfl⟩
  have hmessage : insertMessage new db.queues = some qs₂ := by
    unfold insertMessage
    rw [h₁, Option.bind_some, h₂]
  unfold insert
  rw [if_neg, if_neg, hmessage]
  · exact ⟨_, rfl⟩
  · simpa using hqueue
  · simpa using hnew

theorem enqueue_isOk {message : Message.EnqueueRequest} {made : Uuid} {now : Int}
    (hnew : ∀ m ∈ db.messages, m.id ≠ (enqueued message made now).id) (hqueue : ∃ q ∈ db.queues, q.id = message.queue)
    (hpayload : message.trid = none → message.message.payload ≠ none) :
    ∃ db', enqueue message made now db = .ok ⟨(enqueued message made now).id⟩ db' := by
  obtain ⟨db', h⟩ := @insert_isSome db (enqueued message made now) hnew hqueue fun hstate => by
    refine hpayload ?_
    unfold enqueued at hstate
    cases htrid : message.trid with
    | none => rfl
    | some trid => simp [htrid] at hstate
  exact ⟨db', bind_ok (execute_some h)⟩

/-- A message that is available is returned to a dequeue that asks for its id. -/
theorem dequeue_id (hc : Sane db) {m : MessageRow} (hm : m ∈ db.messages) (hstate : m.state = .enqueued)
    (hne : m.id ≠ 0) {request : Message.DequeueRequest} {now : Int} (havalible : m.avalible < now)
    (hqueue : request.queue = m.queue) (hid : request.selector.id = m.id) :
    ∃ db', dequeue request now db = .ok ⟨0, [reply m]⟩ db' := by
  have hselect : select request now db = some m := by
    unfold select firstId
    rw [if_pos (by rw [hid]; exact hne)]
    cases hf : db.messages.find? (fun m' => m'.id == request.selector.id && m'.queue == request.queue && available now m') with
    | none =>
      have := List.find?_eq_none.1 hf m hm
      simp [available, hid, hqueue, hstate, havalible] at this
    | some m' =>
      -- the id is unique
      have hm' := List.find?_some hf
      simp only [Bool.and_eq_true, beq_iff_eq] at hm'
      rw [List.inj_on_of_nodup_map hc.ids (List.mem_of_find?_eq_some hf) hm (hm'.1.1.trans hid)]
  rcases dequeue_spec hc request now with ⟨hnone, -⟩ | ⟨row, db', hsome, hok, -⟩
  · rw [hselect] at hnone
    cases hnone
  · rw [hselect] at hsome
    cases hsome
    exact ⟨db', hok⟩

theorem enqueued_id_ne {made : Uuid} (hmade : made ≠ 0) (message : Message.EnqueueRequest) (now : Int) :
    (enqueued message made now).id ≠ 0 := by
  change (if message.message.id ≠ 0 then message.message.id else made) ≠ 0
  split_ifs with h
  · exact h
  · exact hmade

/-- Without a transaction, a message comes back just when its payload is not `NULL`. -/
theorem comesBack_alone (hc : Opened db) {message : Message.EnqueueRequest} {made : Uuid} {now : Int}
    (hmade : made ≠ 0) (hnew : ∀ m ∈ db.messages, m.id ≠ (enqueued message made now).id)
    (hqueue : ∃ q ∈ db.queues, q.id = message.queue) (htrid : message.trid = none) :
    ComesBack db message made now [] ↔ message.message.payload ≠ none := by
  have hstate : (enqueued message made now).state = .enqueued := by
    unfold enqueued
    simp [htrid]
  constructor
  · rintro ⟨reply, db₁, db₂, hok, -⟩
    rcases enqueue_spec hc.toSane message made now with he | ⟨db', he, hs, -, hm, -⟩
    · rw [he] at hok
      cases hok
    · have hrow := hs.rows (enqueued message made now) (hm ▸ List.mem_append_right _ List.mem_cons_self)
      obtain ⟨payload, hp⟩ := hrow.payload (by rw [hstate]; decide)
      exact fun hnone => by cases hp.symm.trans hnone
  · intro hpayload
    obtain ⟨db₁, hok⟩ := @enqueue_isOk db message made now hnew hqueue fun _ => hpayload
    rcases enqueue_spec hc.toSane message made now with he | ⟨db', he, hs, -, hm, -⟩
    · rw [he] at hok
      cases hok
    · refine ⟨_, db', db', he, by rw [htrid]; rfl, fun request now' hrequest hselector havalible => ?_⟩
      obtain ⟨db₃, hd⟩ := dequeue_id hs (m := enqueued message made now)
        (hm ▸ List.mem_append_right _ List.mem_cons_self) hstate (enqueued_id_ne hmade message now)
        havalible hrequest hselector
      exact ⟨_, db₃, hd, rfl, rfl⟩

/-- A message that a transaction adds has the transaction. -/
theorem gtrid_of_entry {m : MessageRow} (hm : m.Sane) {gtrid : List UInt8} (h : m.entry.holder = .addedBy gtrid) :
    m.gtrid = some gtrid ∧ m.state = .added := by
  have hstate : m.state = .added := by
    cases hs : m.state <;> simp [MessageRow.entry, MessageRow.holder, hs] at h ⊢
  obtain ⟨t, ht⟩ := hm.gtrid (by rw [hstate]; decide)
  simp only [MessageRow.entry, MessageRow.holder, hstate, ht, Option.getD_some, Holder.addedBy.injEq] at h
  exact ⟨by rw [ht, h], hstate⟩

theorem state_of_entry {m : MessageRow} (h : m.entry.holder = .available) : m.state = .enqueued := by
  cases hs : m.state <;> simp [MessageRow.entry, MessageRow.holder, hs] at h ⊢

/-- The transaction still holds the message when it is committed. -/
theorem enqueue_held (hc : Opened db) {message : Message.EnqueueRequest} {made : Uuid} {now : Int}
    {trid : Transaction.ID} (htrid : message.trid = some trid) {reply : Message.EnqueueReply} {db₁ : Database}
    (hok : enqueue message made now db = .ok reply db₁) {calls : List Call}
    (hcalls : ∀ c ∈ calls, ¬ c.ends trid.xid.gtrid) :
    Opened (calls.foldl Database.call db₁) ∧ reply.id = (enqueued message made now).id ∧
      (calls.foldl Database.call db₁).view reply.id = some (enqueued message made now).entry ∧
      (enqueued message made now).entry.holder = .addedBy trid.xid.gtrid := by
  rcases enqueue_spec hc.toSane message made now with he | ⟨db', he, hs, hq, hm, -⟩
  · rw [he] at hok
    cases hok
  · rw [he] at hok
    cases hok
    have hopened := opened_of_same hc hs hq
    have hview : db₁.view (enqueued message made now).id = some (enqueued message made now).entry :=
      view_of_mem hs.toConsistent (hm ▸ List.mem_append_right _ List.mem_cons_self)
    have hholder : (enqueued message made now).entry.holder = .addedBy trid.xid.gtrid := by
      have := enqueued_holder message made now
      rw [htrid] at this
      exact this
    refine ⟨?_, rfl, run_held hopened hview (.inl hholder) (run_calls calls db₁) hcalls, hholder⟩
    exact (run_calls calls db₁).invariant (fun t c ht _ => ht.call c) hopened

/-- Within a transaction, a message comes back just when no payload the transaction adds is `NULL`. -/
theorem comesBack_committed (hc : Opened db) {message : Message.EnqueueRequest} {made : Uuid} {now : Int}
    (hmade : made ≠ 0) (hnew : ∀ m ∈ db.messages, m.id ≠ (enqueued message made now).id)
    (hqueue : ∃ q ∈ db.queues, q.id = message.queue) {trid : Transaction.ID} (htrid : message.trid = some trid)
    {calls : List Call} (hcalls : ∀ c ∈ calls, ¬ c.ends trid.xid.gtrid) :
    ComesBack db message made now calls ↔
      Storable message (calls.foldl Database.call (after (enqueue message made now db))) := by
  obtain ⟨db₁, hok⟩ := @enqueue_isOk db message made now hnew hqueue fun h => by
    rw [htrid] at h
    cases h
  obtain ⟨hopened, -, hview, hholder⟩ := enqueue_held hc htrid hok hcalls
  rw [hok, after_ok]
  constructor
  · rintro ⟨reply, db₁', db₂, hok', hsettle, -⟩
    rw [hok] at hok'
    cases hok'
    rw [htrid] at hsettle
    have hstored : ∀ m ∈ (calls.foldl Database.call db₁).messages, m.gtrid = some trid.xid.gtrid →
        m.state = .added → m.payload ≠ none := by
      intro m hm hgtrid hstate
      rcases commit_spec hopened.toSane trid with he | ⟨db', he, hs, -, hmessages⟩
      · rw [settle, he] at hsettle
        cases hsettle
      · -- the commit leaves the message, and its length has been added to the size of the queue
        have hmem : { m with state := .enqueued } ∈ db'.messages := by
          rw [hmessages]
          exact List.mem_filterMap.2 ⟨m, hm, by rw [committed, if_pos ⟨hgtrid, hstate⟩]⟩
        obtain ⟨payload, hp⟩ := (hs.rows _ hmem).payload (by simp)
        exact fun hnone => by cases hp.symm.trans hnone
    obtain ⟨m, hm, -, hentry⟩ := mem_of_view hview
    obtain ⟨hgtrid, hstate⟩ := gtrid_of_entry (hopened.rows m hm) (by rw [hentry]; exact hholder)
    have hpayload : m.payload = message.message.payload := congrArg (fun e => e.content.payload) hentry
    refine ⟨hpayload ▸ hstored m hm hgtrid hstate, fun trid' h => ?_⟩
    rw [htrid] at h
    cases h
    exact hstored
  · rintro ⟨-, hstored⟩
    rcases commit_view hopened.toSane trid with ⟨-, x, e, hx, hadded, hnone⟩ | ⟨db₂, hcommit, hviews⟩
    · obtain ⟨m, hm, -, rfl⟩ := mem_of_view hx
      obtain ⟨hgtrid, hstate⟩ := gtrid_of_entry (hopened.rows m hm) hadded
      exact absurd hnone (hstored trid htrid m hm hgtrid hstate)
    · refine ⟨_, db₁, db₂, hok, by rw [htrid]; exact hcommit, fun request now' hrequest hselector havalible => ?_⟩
      have hview₂ := hviews (enqueued message made now).id
      rw [hview, Option.bind_some] at hview₂
      simp only [Entry.commit, hholder, ↓reduceIte] at hview₂
      obtain ⟨m, hm, hid, hentry⟩ := mem_of_view hview₂
      have hs : Sane db₂ := by
        rcases commit_spec hopened.toSane trid with he | ⟨db', he, hs, -⟩
        · rw [hcommit] at he
          cases he
        · rw [hcommit] at he
          cases he
          exact hs
      have hcontent : m.content = (enqueued message made now).content := congrArg Entry.content hentry
      obtain ⟨db₃, hd⟩ := dequeue_id hs hm (state_of_entry (by rw [hentry]))
        (by rw [hid]; exact enqueued_id_ne hmade message now)
        (by rw [show m.avalible = message.message.avalible from congrArg Content.avalible hcontent]; exact havalible)
        (hrequest.trans (congrArg Entry.queue hentry).symm) (hselector.trans hid.symm)
      exact ⟨_, db₃, hd, hid, by rw [reply_carried, hcontent, enqueued_carried]⟩

end ComesBack

/-- In every run, a dequeue returns under an id what was last enqueued under it; and a message that is
enqueued under a new id comes back just when neither its payload is `NULL`, nor another one its transaction
has added when it is committed. -/
theorem returned_iff {s : Recorded} (h : recording.Reachable s) {message : Message.EnqueueRequest} {made : Uuid}
    {now : Int} (hmade : made ≠ 0) (hnew : ∀ m ∈ s.db.messages, m.id ≠ (enqueued message made now).id)
    (hqueue : ∃ q ∈ s.db.queues, q.id = message.queue) {calls : List Call}
    (hcalls : ∀ c ∈ calls, Between message.trid c) :
    (∀ request now' reply db', dequeue request now' s.db = .ok reply db' → ∀ m ∈ reply.message,
      ∃ b, s.log m.id = some b ∧ m.carried = b.carried) ∧
    (ComesBack s.db message made now calls ↔
      Storable message (calls.foldl Database.call (after (enqueue message made now s.db)))) := by
  obtain ⟨hc, ha⟩ := accounts_of_reachable h
  refine ⟨fun request now' reply db' hd m hm => dequeue_carried hc ha hd hm, ?_⟩
  cases htrid : message.trid with
  | none =>
    obtain rfl : calls = [] := by
      refine List.eq_nil_iff_forall_not_mem.2 fun c hmem => ?_
      obtain ⟨id, hid, -⟩ := hcalls c hmem
      rw [htrid] at hid
      cases hid
    rw [comesBack_alone hc hmade hnew hqueue htrid, Storable, htrid]
    simp
  | some trid =>
    refine comesBack_committed hc hmade hnew hqueue htrid fun c hmem => ?_
    obtain ⟨id, hid, hends⟩ := hcalls c hmem
    rw [htrid] at hid
    cases hid
    exact hends

/-! ### Some messages -/

/-- A queue with the id 3. -/
def oneQueue : Recorded := recording.step ⟨«open» "g" 0, fun _ => none⟩ (.create "a" 0 1)

theorem oneQueue_reachable : recording.Reachable oneQueue := by
  have hinit : recording.Reachable ⟨«open» "g" 0, fun _ => none⟩ := Machine.Reachable.of_init ⟨⟨"g", 0, rfl⟩, rfl⟩
  exact hinit.step trivial

/-- A message of three bytes, in a transaction. -/
def threeBytes : Message.EnqueueRequest := ⟨0, ⟨1, 2⟩, some someID, 3, ⟨7, "p", "r", 0, ⟨"t", "s"⟩, some [1, 2, 3]⟩⟩

/-- A message without a payload. -/
def noBytes (trid : Option Transaction.ID) : Message.EnqueueRequest :=
  ⟨0, ⟨1, 2⟩, trid, 3, ⟨7, "p", "r", 0, ⟨"t", "s"⟩, none⟩⟩

/-- Another message is enqueued before the transaction is committed. -/
theorem threeBytes_comesBack : ComesBack oneQueue.db threeBytes 8 2 [.enqueue (noBytes none) 9 3] :=
  (returned_iff oneQueue_reachable (by decide) (by decide) (by decide) fun c hc => by
    rw [List.mem_singleton.1 hc]
    exact ⟨someID, rfl, id⟩).2.2 ⟨by decide, fun trid htrid => by
      cases htrid
      decide⟩

/-- An empty payload is bound as `NULL`: the message is refused, and within a transaction it is accepted
but cannot be committed. -/
theorem noBytes_lost : recording.Reachable oneQueue ∧ ¬ ComesBack oneQueue.db (noBytes none) 8 2 [] ∧
    ¬ ComesBack oneQueue.db (noBytes (some someID)) 8 2 [] := by
  refine ⟨oneQueue_reachable, ?_, ?_⟩
  · rintro ⟨reply, db₁, db₂, hok, -⟩
    have hthrows : throws (enqueue (noBytes none) 8 2 oneQueue.db) = true := by decide
    rw [hok] at hthrows
    cases hthrows
  · rintro ⟨reply, db₁, db₂, hok, hsettle, -⟩
    have hthrows : throws (commit someID (after (enqueue (noBytes (some someID)) 8 2 oneQueue.db))) = true := by decide
    rw [hok, after_ok] at hthrows
    change commit someID db₁ = .ok () db₂ at hsettle
    rw [hsettle] at hthrows
    cases hthrows

end Database

end Casual.Queue
