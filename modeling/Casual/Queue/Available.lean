/-
A queue group goes on and answers whoever asks, when requesters are gone and statements of its
queuebase fail: what it takes of each request, and what holds over whole runs.
-/
import Casual.Queue.Failing
import Casual.Queue.HandOut

namespace Casual.Queue

open Casual.Common Casual.Communication Casual.Lib

/-! ## Answers -/

/-- The requests that are answered. -/
inductive Kind
  | enqueue
  | dequeue
  | commit
  | rollback
  deriving DecidableEq, Repr

/-- Where an answer goes: the queue of who has asked, what it has asked for, and the correlation. -/
structure Address where
  queue : Nat
  kind : Kind
  correlation : Uuid
  deriving DecidableEq, Repr

/-- What a reply answers. -/
def Reply.answers (queue : Nat) : Reply → Option Address
  | .enqueue correlation _ => some ⟨queue, .enqueue, correlation⟩
  | .dequeue reply => some ⟨queue, .dequeue, reply.correlation⟩
  | .commit correlation _ _ => some ⟨queue, .commit, correlation⟩
  | .rollback correlation _ _ => some ⟨queue, .rollback, correlation⟩
  | .forget _ _ => none
  | .involved _ => none

/-- Where the reply of a request goes. -/
def Message.DequeueRequest.address (r : Message.DequeueRequest) : Address := ⟨r.process.queue, .dequeue, r.correlation⟩

/-- How often an address has been answered: what has been sent to it, and what is kept until its queue has room. -/
def Group.repliesTo (s : Group) (a : Address) : Nat := (s.sent ++ s.persistent).countP fun x => x.2.answers x.1 = some a

namespace Failing

/-- Who has asked, and is to be answered at once. -/
def Incoming.asks : Incoming → Option Address
  | .event (.enqueue message) => some ⟨message.process.queue, .enqueue, message.correlation⟩
  | .event (.dequeue message) => if message.block then none else some message.address
  | .event (.commit message) => some ⟨message.process.queue, .commit, message.correlation⟩
  | .event (.rollback message) => some ⟨message.process.queue, .rollback, message.correlation⟩
  | _ => none

/-- Who has asked, and may wait. -/
def Incoming.waits : Incoming → Option Address
  | .event (.dequeue message) => if message.block then some message.address else none
  | _ => none

/-- What ends the pump by intent. -/
def Incoming.ends : Incoming → Bool
  | .shutdown => true
  | .terminate => true
  | _ => false

/-- A group before and after it has handled a message. -/
structure Handled where
  before : Failing
  incoming : Incoming
  after : Failing

/-- A group, and what it has handled. -/
structure Recorded where
  now : Failing
  handled : List Handled

/-- The runs of a group, from when it has opened its queuebase. -/
def attending (faults : Faults) (env : Environment) : Machine Recorded Incoming where
  init w := ∃ db, queuebase.Reachable db ∧ w = ⟨start db, []⟩
  admits w _ := w.now.group.running = true
  step w e := ⟨step faults env w.now e, w.handled ++ [⟨w.now, e, step faults env w.now e⟩]⟩

/-- The queue of a requester that lives is never gone. -/
def Lives (env : Environment) (queue : Nat) : Prop := ∀ n, env.gone n queue = false

/-- The pump is left by intent, who lives and does not wait is answered once for each time it has asked, and a
request with a statement that failed has changed nothing, while the others have the effects they have. -/
structure Available (env : Environment) (w : Recorded) : Prop where
  running : w.now.group.running = false → ∃ h ∈ w.handled, h.incoming.ends = true
  answered : ∀ a, Lives env a.queue → (∀ h ∈ w.handled, h.incoming.waits ≠ some a) →
    w.now.group.repliesTo a = w.handled.countP fun h => h.incoming.asks = some a
  restored : ∀ h ∈ w.handled, h.after.failures ≠ h.before.failures →
    h.after.group.queuebase = h.before.group.queuebase ∧ h.after.group.pending = h.before.group.pending
  kept : w.handled.IsChain (fun h h' => h'.before = h.after) ∧ ∀ h ∈ w.handled.getLast?, w.now = h.after
  committed : ∀ h ∈ w.handled, h.after.group.running = false ∨ h.incoming = .event .persist →
    h.after.durable = h.before.group.queuebase

/-- A statement of the next request that fails takes nothing with it that others of the batch have executed: it does
not roll the transaction back, or there is nothing to roll back. -/
def Spares (faults : Faults) (s : Failing) : Prop :=
  ∀ k, faults.throws (s.request + 1) k = true → faults.rollsBack (s.request + 1) k = true → s.inTransaction = true →
    s.durable = s.group.queuebase

/-- What it takes for a request to be answered and to be whole. The first statement may fail, and others as long as
nothing has been changed, except where a requester that lives would not be answered; and a reply or a notice that
is sent at once finds its receiver there. -/
def Answerable (faults : Faults) (env : Environment) (s : Failing) : Incoming → Prop
  | .event (.enqueue message) =>
    let n := s.group.readings
    let failed := faults.throws (s.request + 1) 0 = true ∨
      Database.insert (Database.enqueued message (env.make n) (env.clock n)) s.group.queuebase = none
    (failed → ¬ Lives env message.process.queue) ∧
      (¬ failed → message.trid.isSome →
        env.gone (n + 1) env.broker = false ∧ env.gone (n + 2) message.process.queue = false) ∧
      (¬ failed → message.trid = none → ∀ k, 0 < k → faults.throws (s.request + 1) k = false)
  | .event (.dequeue message) =>
    let n := s.group.readings
    let row := Database.select message (env.clock n) s.group.queuebase
    let failed := faults.throws (s.request + 1) 0 = true ∨ row.isSome ∧ faults.throws (s.request + 1) 1 = true
    (failed → message.block = true ∨ ¬ Lives env message.process.queue) ∧
      (¬ failed → row = none → message.block = false → env.gone (n + 1) message.process.queue = false) ∧
      (¬ failed → row.isSome → (message.trid.isSome → env.gone (n + 1) env.broker = false) ∧
        env.gone (if message.trid.isSome then n + 2 else n + 1) message.process.queue = false)
  | .event (.commit message) =>
    let commit1 := Database.commit1 (Transaction.bind (Transaction.global (some message.trid))) s.group.queuebase
    faults.throws (s.request + 1) 0 = true ∨ commit1 = none ∨
      commit1 = some s.group.queuebase ∧ faults.throws (s.request + 1) 1 = true ∨
      ∀ k, 0 < k → faults.throws (s.request + 1) k = false
  | .event (.rollback message) =>
    let gtrid := Transaction.bind (Transaction.global (some message.trid))
    faults.throws (s.request + 1) 0 = true ∨
      Database.rollback1 gtrid s.group.queuebase = some s.group.queuebase ∧
        (faults.throws (s.request + 1) 1 = true ∨
          Database.rollback2 gtrid s.group.queuebase = some s.group.queuebase ∧ faults.throws (s.request + 1) 2 = true) ∨
      ∀ k, 0 < k → faults.throws (s.request + 1) k = false
  | .queues message =>
    faults.throws (s.request + 1) 0 = false ∧ env.gone s.group.readings message.process.queue = false
  | .messages message _ =>
    faults.throws (s.request + 1) 0 = false ∧ env.gone s.group.readings message.process.queue = false
  | _ => True

/-- What it takes of a request. -/
structure Undisturbed (faults : Faults) (env : Environment) (s : Failing) (e : Incoming) : Prop where
  spares : Spares faults s
  answerable : Answerable faults env s e

/-! ## Serving those who wait -/

/-- Some requests are served: what is sent answers them, and what is stored is among them. -/
structure Serves (rs : List Message.DequeueRequest) (s t : Failing) : Prop where
  running : t.group.running = s.group.running
  persistent : t.group.persistent = s.group.persistent
  sent : ∃ out, t.group.sent = s.group.sent ++ out ∧
    ∀ x ∈ out, ∀ a, x.2.answers x.1 = some a → ∃ r ∈ rs, r.address = a
  pending : ∀ r ∈ t.group.pending.requests, r ∈ s.group.pending.requests ∨ r ∈ rs ∧ r.block = true

variable {faults : Faults} {env : Environment} {rs : List Message.DequeueRequest} {s t : Failing}

/-- Nothing is sent or stored. -/
theorem Serves.of_same (hrunning : t.group.running = s.group.running) (hpersistent : t.group.persistent = s.group.persistent)
    (hsent : t.group.sent = s.group.sent) (hpending : t.group.pending = s.group.pending) : Serves rs s t := by
  refine ⟨hrunning, hpersistent, ⟨[], ?_, nofun⟩, fun r hr => .inl ?_⟩
  · rw [hsent, List.append_nil]
  · exact hpending ▸ hr

instance : Std.Refl (Serves rs) := ⟨fun _ => .of_same rfl rfl rfl rfl⟩

instance : IsTrans Failing (Serves rs) := by
  constructor
  rintro s t u ⟨hrun, hpersistent, ⟨out, hsent, hout⟩, hpending⟩ ⟨hrun', hpersistent', ⟨out', hsent', hout'⟩, hpending'⟩
  refine ⟨hrun'.trans hrun, hpersistent'.trans hpersistent, ⟨out ++ out', ?_, ?_⟩, ?_⟩
  · rw [hsent', hsent, List.append_assoc]
  · rintro x hx
    rcases List.mem_append.1 hx with hx | hx
    · exact hout x hx
    · exact hout' x hx
  · rintro r hr
    rcases hpending' r hr with hr | hr
    · exact hpending r hr
    · exact .inr hr

theorem serves_thrown : Serves rs s (s.thrown faults) := by
  unfold thrown rolledBack
  split_ifs <;> exact .of_same rfl rfl rfl rfl

theorem serves_update (x : Database → Option Database) : Moves (Serves rs) (update faults x) := by
  constructor
  intro s
  unfold update execute
  split_ifs
  · exact serves_thrown
  · dsimp only
    cases x s.group.queuebase <;> exact .of_same rfl rfl rfl rfl

theorem serves_query {α : Type} (x : Database → α) : Moves (Serves rs) (query faults x) := by
  constructor
  intro s
  unfold query execute
  split_ifs
  · exact serves_thrown
  · exact .of_same rfl rfl rfl rfl

theorem serves_reading : Moves (Serves rs) (lift Group.reading) :=
  ⟨fun _ => .of_same rfl rfl rfl rfl⟩

theorem serves_send {queue : Nat} {reply : Reply} (h : ∀ a, reply.answers queue = some a → ∃ r ∈ rs, r.address = a) :
    Moves (Serves rs) (lift (Group.send env queue reply)) := by
  constructor
  intro s
  unfold lift Group.send
  split_ifs
  · exact .of_same rfl rfl rfl rfl
  · refine ⟨rfl, rfl, ⟨[(queue, reply)], rfl, ?_⟩, fun _ => .inl⟩
    rintro x hx
    rw [List.mem_singleton.1 hx]
    exact h

theorem serves_store {r : Message.DequeueRequest} (hr : r ∈ rs) :
    Moves (Serves rs) (lift (Group.setPending fun p => p.dequeue r)) := by
  constructor
  intro s
  refine ⟨rfl, rfl, ⟨[], (List.append_nil _).symm, nofun⟩, ?_⟩
  intro r' hr'
  have hrequests : r' ∈ s.group.pending.requests ++ if r.block then [r] else [] := by
    rw [← Pending.dequeue_requests]
    exact hr'
  rcases List.mem_append.1 hrequests with h | h
  · exact .inl h
  · split_ifs at h with hblock
    · rw [List.mem_singleton.1 h]
      exact .inr ⟨hr, hblock⟩
    · cases h

theorem serves_dequeue (r : Message.DequeueRequest) (now : Int) : Moves (Serves rs) (dequeue faults r now) := by
  refine .bind (serves_query _) fun row => ?_
  cases row with
  | none => exact .pure _
  | some row =>
    cases r.trid with
    | none => exact .bind (serves_update _) fun _ => .pure _
    | some trid => exact .bind (serves_update _) fun _ => .pure _

theorem serves_catchQuery {α : Type} {x : F α} (h : Moves (Serves rs) x) (a : α) : Moves (Serves rs) (catchQuery x a) := by
  refine .tryCatch h fun e => ?_
  cases e with
  | query => exact .pure _
  | unavailable => exact .throw _

theorem serves_dequeueRequest {r : Message.DequeueRequest} (hr : r ∈ rs) :
    Moves (Serves rs) (dequeueRequest faults env r) := by
  refine serves_catchQuery (.bind serves_reading fun n => .bind (serves_dequeue _ _) fun reply => ?_) _
  refine .ite (.bind (serves_store hr) fun _ => .pure _) ?_
  have hsend : Moves (Serves rs) (lift (Group.send env r.process.queue (.dequeue { reply with correlation := r.correlation }))) :=
    serves_send fun a ha => ⟨r, hr, Option.some.inj ha⟩
  have hinvolved : Moves (Serves rs) (lift (Group.involved env r.trid)) := serves_send nofun
  exact .ite (.bind hinvolved fun _ => .bind hsend fun _ => .pure _) (.bind hsend fun _ => .pure _)

theorem serves_wake : ∀ {woken : List Message.DequeueRequest} (enqueued : Nat → Nat), woken ⊆ rs →
    Moves (Serves rs) (wake faults env woken enqueued)
  | [], _, _ => .pure _
  | r :: rest, enqueued, h => by
    have hr : r ∈ rs := h List.mem_cons_self
    unfold wake
    refine .bind (.tryCatch (.ite (.bind (serves_dequeueRequest hr) fun b => ?_) (.pure _)) fun e => ?_)
      fun _ => serves_wake _ fun r hr => h (List.mem_cons_of_mem _ hr)
    · exact .ite (.pure _) (.bind (serves_store hr) fun _ => .pure _)
    · cases e with
      | query => exact .throw _
      | unavailable => exact .pure _

/-- Whom a commit wakes was waiting. -/
theorem serves_replies {trid : Option Transaction.XID} :
    Serves s.group.pending.requests s (after (replies faults env trid s)) := by
  have hcommit : (commitPending trid) s = .ok (s.group.pending.commit trid).1
      { s with group := { s.group with pending := (s.group.pending.commit trid).2 } } := rfl
  unfold replies
  rw [bind_ok hcommit]
  refine IsTrans.trans _ _ _ (?_ : Serves s.group.pending.requests s _)
    ((serves_wake _ (Group.woken_subset _ _)).after _)
  refine ⟨rfl, rfl, ⟨[], (List.append_nil _).symm, nofun⟩, fun r hr => .inl ?_⟩
  exact (Pending.mem_commit_snd.1 hr).1

/-! ## Dequeue -/

theorem execute_eq_ok {x : Database → Option Database} {db db' : Database} (h : Database.execute x db = .ok () db') :
    x db = some db' := by
  unfold Database.execute at h
  cases hx : x db with
  | none =>
    rw [hx] at h
    cases h
  | some db'' =>
    rw [hx] at h
    cases h
    rfl

section Dequeue

variable {r : Message.DequeueRequest} {now : Int}

theorem dequeue_thrown (h : faults.throws s.request s.statement = true) :
    dequeue faults r now s = .error .query (s.thrown faults) :=
  bind_error (query_thrown h)

theorem dequeue_none (h : faults.throws s.request s.statement = false) (hsel : Database.select r now s.group.queuebase = none) :
    dequeue faults r now s = .ok ⟨0, []⟩ (s.executed s.group.queuebase) := by
  unfold dequeue
  rw [bind_ok (query_ok h), hsel]
  rfl

/-- The second statement is about the message the first has found. -/
theorem dequeue_some {row : MessageRow} (h : faults.throws s.request s.statement = false)
    (hsel : Database.select r now s.group.queuebase = some row) (hs : Database.Sane s.group.queuebase) :
    (faults.throws s.request (s.statement + 1) = true →
      dequeue faults r now s = .error .query ((s.executed s.group.queuebase).thrown faults)) ∧
    (faults.throws s.request (s.statement + 1) = false → ∃ db, Database.Sane db ∧
      dequeue faults r now s = .ok ⟨0, [Database.reply row]⟩ ((s.executed s.group.queuebase).executed db)) := by
  rcases Database.dequeue_spec hs r now with ⟨hnone, -⟩ | ⟨row', db, hsel', hdequeue, hsane, -, -⟩
  · rw [hsel] at hnone
    cases hnone
  · obtain rfl : row = row' := Option.some.inj (hsel.symm.trans hsel')
    have hget : (get : EStateM Exception Database Database) s.group.queuebase = .ok s.group.queuebase s.group.queuebase := rfl
    unfold Database.dequeue at hdequeue
    rw [bind_ok hget, hsel] at hdequeue
    unfold dequeue
    rw [bind_ok (query_ok h), hsel]
    dsimp only at hdequeue ⊢
    cases htrid : r.trid with
    | none =>
      rw [htrid] at hdequeue
      obtain ⟨_, t, hexecute, hok⟩ := of_bind_ok hdequeue
      cases hok
      refine ⟨fun h' => bind_error (update_thrown h'), fun h' => ⟨db, hsane, ?_⟩⟩
      exact (bind_ok (update_some (s := s.executed s.group.queuebase) h' (execute_eq_ok hexecute))).trans rfl
    | some trid =>
      rw [htrid] at hdequeue
      obtain ⟨_, t, hexecute, hok⟩ := of_bind_ok hdequeue
      cases hok
      refine ⟨fun h' => bind_error (update_thrown h'), fun h' => ⟨db, hsane, ?_⟩⟩
      exact (bind_ok (update_some (s := s.executed s.group.queuebase) h' (execute_eq_ok hexecute))).trans rfl

end Dequeue

/-! ## Statements that do not fail -/

/-- A sane queuebase, some statements of a request executed, and a number of failures. -/
structure Sound (n k : Nat) (s : Failing) : Prop where
  sane : Database.Sane s.group.queuebase
  request : s.request = n
  statement : 0 < s.statement
  failures : s.failures = k

section Sound

variable {n k : Nat}

theorem sound_lift {α : Type} {x : Group.M α} (h : ∀ s, (after (x s)).queuebase = s.queuebase) :
    Triple (Sound n k) (lift x) (fun _ => Sound n k) fun _ => Sound n k := by
  rintro s ⟨hsane, hrequest, hstatement, hfailures⟩
  have hs := h s.group
  unfold lift
  cases hx : x s.group with
  | ok a g =>
    rw [hx] at hs
    exact ⟨hs.symm ▸ hsane, hrequest, hstatement, hfailures⟩
  | error e g =>
    rw [hx] at hs
    exact ⟨hs.symm ▸ hsane, hrequest, hstatement, hfailures⟩

theorem queuebase_send (queue : Nat) (reply : Reply) (s : Group) :
    (after (Group.send env queue reply s)).queuebase = s.queuebase := by
  unfold Group.send
  split_ifs <;> rfl

variable (hfails : ∀ j, 0 < j → faults.throws n j = false)
include hfails

theorem sound_dequeue (r : Message.DequeueRequest) (now : Int) :
    Triple (Sound n k) (dequeue faults r now) (fun _ => Sound n k) fun _ => Sound n k := by
  rintro s ⟨hsane, rfl, hstatement, hfailures⟩
  have hfirst := hfails s.statement hstatement
  cases hsel : Database.select r now s.group.queuebase with
  | none =>
    rw [dequeue_none hfirst hsel]
    exact ⟨hsane, rfl, Nat.succ_pos _, hfailures⟩
  | some row =>
    obtain ⟨db, hdb, hdequeue⟩ := (dequeue_some hfirst hsel hsane).2 (hfails _ (Nat.succ_pos _))
    rw [hdequeue]
    exact ⟨hdb, rfl, Nat.succ_pos _, hfailures⟩

theorem sound_dequeueRequest (r : Message.DequeueRequest) :
    Triple (Sound n k) (dequeueRequest faults env r) (fun _ => Sound n k) fun _ => Sound n k := by
  refine Triple.tryCatch (?_ : Triple _ _ _ fun _ => Sound n k) fun e => ?_
  · refine Triple.bind (sound_lift fun _ => rfl) fun _ => Triple.bind (sound_dequeue hfails _ _) fun reply => ?_
    have hsend : Triple (Sound n k)
        (do lift (Group.send env r.process.queue (.dequeue { reply with correlation := r.correlation })); return true : F Bool)
        (fun _ => Sound n k) fun _ => Sound n k :=
      Triple.bind (sound_lift (queuebase_send _ _)) fun _ => Triple.pure fun _ h => h
    refine Triple.ite (fun _ => ?_) fun _ => Triple.ite (fun _ => ?_) fun _ => hsend
    · exact Triple.bind (sound_lift fun _ => rfl) fun _ => Triple.pure fun _ h => h
    · exact Triple.bind (sound_lift (queuebase_send _ _)) fun _ => hsend
  · cases e with
    | query => exact Triple.pure fun _ h => h
    | unavailable => exact Triple.throw fun _ h => h

theorem sound_wake : ∀ (woken : List Message.DequeueRequest) (enqueued : Nat → Nat),
    Triple (Sound n k) (wake faults env woken enqueued) (fun _ => Sound n k) fun _ => Sound n k
  | [], _ => Triple.pure fun _ h => h
  | r :: rest, enqueued => by
    refine Triple.bind (Q := fun _ => Sound n k)
      (Triple.tryCatch (?_ : Triple _ _ _ fun _ => Sound n k) fun e => ?_) fun _ => sound_wake rest _
    · refine Triple.ite (fun _ => Triple.bind (sound_dequeueRequest hfails r) fun b => ?_) fun _ => Triple.pure fun _ h => h
      refine Triple.ite (fun _ => Triple.pure fun _ h => h) fun _ => ?_
      exact Triple.bind (Q := fun _ => Sound n k) (sound_lift fun _ => rfl) fun _ => Triple.pure fun _ h => h
    · cases e with
      | query => exact Triple.throw fun _ h => h
      | unavailable => exact Triple.pure fun _ h => h

theorem sound_replies (trid : Option Transaction.XID) :
    Triple (Sound n k) (replies faults env trid) (fun _ => Sound n k) fun _ => Sound n k := by
  refine Triple.bind (Q := fun _ => Sound n k) ?_ fun _ => sound_wake hfails _ _
  rintro s ⟨hsane, hrequest, hstatement, hfailures⟩
  exact ⟨hsane, hrequest, hstatement, hfailures⟩

end Sound

/-! ## What a request that is not disturbed does -/

/-- The next request is handled, and has written nothing yet. -/
structure Unwritten (s t : Failing) : Prop where
  request : t.request = s.request + 1
  queuebase : t.group.queuebase = s.group.queuebase
  inTransaction : t.inTransaction = s.inTransaction
  durable : s.inTransaction = true → t.durable = s.durable

/-- A statement that changes nothing. -/
theorem Unwritten.executed (h : Unwritten s t) : Unwritten s (t.executed s.group.queuebase) := by
  refine ⟨h.request, rfl, h.inTransaction, fun hin => ?_⟩
  have ht : t.inTransaction = true := h.inTransaction.trans hin
  exact (if_pos ht).trans (h.durable hin)

/-- One that fails changes nothing either, where nothing is taken with it. -/
theorem Unwritten.thrown (h : Unwritten s t) (hspares : Spares faults s) (hthrows : faults.throws t.request t.statement = true) :
    (t.thrown faults).group = t.group := by
  unfold Failing.thrown rolledBack
  split_ifs with hrollsBack hin
  · have hs : s.inTransaction = true := h.inTransaction.symm.trans hin
    rw [h.request] at hthrows hrollsBack
    have hdurable : t.durable = t.group.queuebase :=
      (h.durable hs).trans ((hspares _ hthrows hrollsBack hs).trans h.queuebase.symm)
    unfold failed
    rw [hdurable]
  · rfl
  · rfl

theorem unwritten_began : Unwritten s s.began := ⟨rfl, rfl, rfl, fun _ => rfl⟩

theorem lift_ok {α : Type} {x : Group.M α} {a : α} {g : Group} (h : x s.group = .ok a g) :
    lift x s = .ok a { s with group := g } := by
  unfold lift
  rw [h]

/-- No database exception leaves a handler that catches them. -/
theorem catchQuery_cases {α : Type} (x : F α) (a : α) (s : Failing) :
    (∃ b t, catchQuery x a s = .ok b t) ∨ ∃ t, catchQuery x a s = .error .unavailable t := by
  unfold catchQuery
  cases hx : x s with
  | ok b t => exact .inl ⟨b, t, tryCatch_ok hx⟩
  | error e t =>
    rw [tryCatch_error hx]
    cases e with
    | query => exact .inl ⟨a, t, rfl⟩
    | unavailable => exact .inr ⟨t, rfl⟩

theorem dequeueRequest_cases (r : Message.DequeueRequest) (s : Failing) :
    (∃ b t, dequeueRequest faults env r s = .ok b t) ∨ ∃ t, dequeueRequest faults env r s = .error .unavailable t :=
  catchQuery_cases _ _ _

/-- Those who are woken cannot end the pump. -/
theorem wake_ok : ∀ (woken : List Message.DequeueRequest) (enqueued : Nat → Nat) (s : Failing),
    ∃ t, wake faults env woken enqueued s = .ok () t
  | [], _, s => ⟨s, rfl⟩
  | r :: rest, enqueued, s => by
    unfold wake
    split_ifs with hleft
    · rcases @dequeueRequest_cases faults env r s with ⟨b, t, h⟩ | ⟨t, h⟩
      · cases b with
        | true =>
          obtain ⟨u, hu⟩ := wake_ok rest (Function.update enqueued r.queue (enqueued r.queue - 1)) t
          refine ⟨u, (bind_ok (tryCatch_ok ?_)).trans hu⟩
          exact bind_ok h
        | false =>
          obtain ⟨u, hu⟩ := wake_ok rest enqueued { t with group := { t.group with pending := t.group.pending.dequeue r } }
          refine ⟨u, (bind_ok (tryCatch_ok ?_)).trans hu⟩
          exact bind_ok h
      · obtain ⟨u, hu⟩ := wake_ok rest enqueued t
        refine ⟨u, ?_⟩
        rw [bind_ok (a := enqueued) (t := t)]
        · exact hu
        · exact (tryCatch_error (bind_error h)).trans rfl
    · obtain ⟨u, hu⟩ := wake_ok rest enqueued s
      exact ⟨u, hu⟩

/-- The requests of those who wait are served, and nothing else changes. -/
theorem replies_spec {n k : Nat} (trid : Option Transaction.XID) (hfails : ∀ j, 0 < j → faults.throws n j = false)
    (hs : Sound n k s) : ∃ t, replies faults env trid s = .ok () t ∧ Serves s.group.pending.requests s t ∧ Sound n k t := by
  obtain ⟨t, ht⟩ := @wake_ok faults env (s.group.pending.commit trid).1.requests (s.group.pending.commit trid).1.enqueued
    { s with group := { s.group with pending := (s.group.pending.commit trid).2 } }
  have hok : replies faults env trid s = .ok () t := ht
  refine ⟨t, hok, ?_, ?_⟩
  · have hserves := @serves_replies faults env s trid
    rw [hok] at hserves
    exact hserves
  · have hsound := @sound_replies faults env n k hfails trid s hs
    rw [hok] at hsound
    exact hsound

/-- A request has been handled: who lives is answered if it has asked, and nothing has changed if a statement has failed. -/
structure Attends (env : Environment) (s : Failing) (e : Incoming) (t : Failing) : Prop where
  running : e.ends = false → t.group.running = s.group.running
  answered : ∀ a, Lives env a.queue → (∀ r ∈ s.group.pending.requests, r.address ≠ a) → e.waits ≠ some a →
    t.group.repliesTo a = s.group.repliesTo a + if e.asks = some a then 1 else 0
  restored : t.failures ≠ s.failures →
    t.group.queuebase = s.group.queuebase ∧ t.group.pending = s.group.pending
  sane : Database.Sane t.group.queuebase
  waiting : ∀ r ∈ t.group.pending.requests, r ∈ s.group.pending.requests ∨ e = .event (.dequeue r) ∧ r.block = true

theorem Serves.repliesTo {a : Address} (h : Serves rs s t) (ha : ∀ r ∈ rs, r.address ≠ a) :
    t.group.repliesTo a = s.group.repliesTo a := by
  obtain ⟨out, hsent, hout⟩ := h.sent
  have hnone : out.countP (fun x => x.2.answers x.1 = some a) = 0 := by
    rw [List.countP_eq_zero]
    intro x hx hxa
    obtain ⟨r, hr, hra⟩ := hout x hx a (by simpa using hxa)
    exact ha r hr hra
  unfold Group.repliesTo
  rw [hsent, h.persistent]
  simp only [List.countP_append, hnone]
  omega

theorem sane_insert {message : Message.EnqueueRequest} {made : Uuid} {now : Int} {db db' : Database}
    (hs : Database.Sane db) (h : Database.insert (Database.enqueued message made now) db = some db') :
    Database.Sane db' := by
  have henqueue : Database.enqueue message made now db = .ok ⟨(Database.enqueued message made now).id⟩ db' :=
    bind_ok (Database.execute_some h)
  rcases Database.enqueue_spec hs message made now with hquery | ⟨db'', hok, hsane, -⟩
  · rw [henqueue] at hquery
    cases hquery
  · rw [henqueue] at hok
    cases hok
    exact hsane

/-- A program that comes to what another one does is caught as that one is. -/
theorem catchQuery_congr {α : Type} {x y : F α} {a : α} (h : x s = y t) : catchQuery x a s = catchQuery y a t := by
  cases hy : y t with
  | ok b u => exact (tryCatch_ok (h.trans hy)).trans (tryCatch_ok hy).symm
  | error e u =>
    unfold catchQuery
    rw [tryCatch_error (h.trans hy), tryCatch_error hy]

/-- A request that reads its environment. -/
def reading (s : Failing) : Failing := { s.began with group := { s.group with readings := s.group.readings + 1 } }

theorem unwritten_reading : Unwritten s s.reading := ⟨rfl, rfl, rfl, fun _ => rfl⟩

/-- An enqueue when its message has been inserted. -/
def inserted (message : Message.EnqueueRequest) (db : Database) (s : Failing) : Failing :=
  { s.began with
    group :=
      { s.group with
        queuebase := db
        readings := s.group.readings + 1
        pending := s.group.pending.enqueue (message.trid.map (·.xid)) message.queue }
    durable := if s.inTransaction then s.durable else db
    statement := 1 }

section Enqueue

variable {message : Message.EnqueueRequest} {db : Database}

theorem enqueueRequest_failed (hspares : Spares faults s)
    (h : faults.throws (s.request + 1) 0 = true ∨ Database.insert
      (Database.enqueued message (env.make s.group.readings) (env.clock s.group.readings)) s.group.queuebase = none) :
    ∃ t, enqueueRequest faults env message s.began = .ok () t ∧ t.group = { s.group with readings := s.group.readings + 1 } := by
  have hread : lift Group.reading s.began = .ok s.group.readings s.reading := rfl
  have hcaught {u : Failing} (hu : update faults (Database.insert
      (Database.enqueued message (env.make s.group.readings) (env.clock s.group.readings))) s.reading = .error .query u) :
      enqueueRequest faults env message s.began = .ok () u := by
    refine (tryCatch_error (e := Exception.query) ?_).trans rfl
    rw [bind_ok hread]
    exact bind_error (bind_error hu)
  cases hthrows : faults.throws (s.request + 1) 0 with
  | true => exact ⟨_, hcaught (update_thrown hthrows), unwritten_reading.thrown hspares hthrows⟩
  | false =>
    have hinsert := h.resolve_left (by rw [hthrows]; nofun)
    exact ⟨_, hcaught (update_none hthrows hinsert), rfl⟩

theorem enqueueRequest_inserted (h : faults.throws (s.request + 1) 0 = false)
    (hdb : Database.insert (Database.enqueued message (env.make s.group.readings) (env.clock s.group.readings))
      s.group.queuebase = some db) :
    enqueueRequest faults env message s.began = catchQuery (do
      let id := (Database.enqueued message (env.make s.group.readings) (env.clock s.group.readings)).id
      if message.trid.isSome then
        lift (Group.involved env message.trid)
        lift (Group.send env message.process.queue (.enqueue message.correlation ⟨id⟩))
      else
        lift (Group.persist message.process.queue (.enqueue message.correlation ⟨id⟩))
        replies faults env (message.trid.map (·.xid))) () (inserted message db s) := by
  have hread : lift Group.reading s.began =
    .ok s.group.readings { s.began with group := { s.group with readings := s.group.readings + 1 } } := rfl
  have henqueue : enqueue faults message (env.make s.group.readings) (env.clock s.group.readings)
      { s.began with group := { s.group with readings := s.group.readings + 1 } } = .ok _ _ :=
    bind_ok (update_some h hdb)
  refine catchQuery_congr ?_
  rw [bind_ok hread, bind_ok henqueue]
  rfl

end Enqueue

theorem attends_enqueue {message : Message.EnqueueRequest} (hs : Database.Sane s.group.queuebase)
    (h : Undisturbed faults env s (.event (.enqueue message))) :
    ∃ t, enqueueRequest faults env message s.began = .ok () t ∧ Attends env s (.event (.enqueue message)) t := by
  obtain ⟨hspares, hfailed, hsent, hwoken⟩ := h
  by_cases hf : faults.throws (s.request + 1) 0 = true ∨ Database.insert
      (Database.enqueued message (env.make s.group.readings) (env.clock s.group.readings)) s.group.queuebase = none
  · obtain ⟨t, ht, hgroup⟩ := @enqueueRequest_failed faults env s message hspares hf
    refine ⟨t, ht, fun _ => by rw [hgroup], ?_, fun _ => by rw [hgroup]; exact ⟨rfl, rfl⟩, hgroup ▸ hs, ?_⟩
    · intro a ha _ _
      rw [if_neg, hgroup]
      · rfl
      · rintro hasks
        cases hasks
        exact hfailed hf ha
    · exact fun r hr => .inl (by rwa [hgroup] at hr)
  · obtain ⟨hfirst, hinsert⟩ := not_or.1 hf
    obtain ⟨db, hdb⟩ := Option.ne_none_iff_exists'.1 hinsert
    have hsane := sane_insert hs hdb
    rw [enqueueRequest_inserted (by simpa using hfirst) hdb]
    cases htrid : message.trid with
    | some trid =>
      obtain ⟨hbroker, hthere⟩ := hsent hf (by rw [htrid]; rfl)
      refine ⟨_, tryCatch_ok ((bind_ok (lift_ok (Group.send_there hbroker))).trans (lift_ok (Group.send_there hthere))),
        fun _ => rfl, ?_, ?_, hsane, ?_⟩
      · intro a _ _ _
        simp [Group.repliesTo, inserted, Reply.answers, Incoming.asks, List.countP_append, List.countP_cons]
        omega
      · exact fun hne => absurd rfl hne
      · exact fun r hr => .inl (by simpa [inserted] using hr)
    | none =>
      have hsound : Sound (s.request + 1) s.failures
          { inserted message db s with
            group :=
              { (inserted message db s).group with
                persistent := s.group.persistent ++ [(message.process.queue, .enqueue message.correlation
                  ⟨(Database.enqueued message (env.make s.group.readings) (env.clock s.group.readings)).id⟩)] } } :=
        ⟨hsane, rfl, Nat.one_pos, rfl⟩
      obtain ⟨t, ht, hserves, hsound'⟩ := @replies_spec faults env _ _ _ none (hwoken hf htrid) hsound
      have hwaiting : (inserted message db s).group.pending.requests = s.group.pending.requests :=
        Pending.enqueue_requests _ _ _
      refine ⟨t, tryCatch_ok ?_, fun _ => hserves.running, ?_, ?_, hsound'.sane, ?_⟩
      · rw [if_neg nofun]
        have hpersist : lift (Group.persist message.process.queue (.enqueue message.correlation
            ⟨(Database.enqueued message (env.make s.group.readings) (env.clock s.group.readings)).id⟩))
              (inserted message db s) = .ok () _ := rfl
        exact (bind_ok hpersist).trans ht
      · intro a _ hother _
        rw [hserves.repliesTo fun r hr => hother r (hwaiting ▸ hr)]
        simp [Group.repliesTo, inserted, Reply.answers, Incoming.asks, List.countP_append, List.countP_cons]
        omega
      · exact fun hne => absurd hsound'.failures hne
      · rintro r hr
        rcases hserves.pending r hr with hr | ⟨hr, -⟩ <;> exact .inl (hwaiting ▸ hr)

section Dequeue

variable {r : Message.DequeueRequest}

theorem dequeueRequest_failed {u : Failing} (h : dequeue faults r (env.clock s.group.readings) s.reading = .error .query u) :
    dequeueRequest faults env r s.began = .ok false u := by
  have hread : lift Group.reading s.began = .ok s.group.readings s.reading := rfl
  refine (tryCatch_error (e := Exception.query) ?_).trans rfl
  rw [bind_ok hread]
  exact bind_error h

theorem dequeueRequest_dequeued {reply : Message.DequeueReply} {u : Failing}
    (h : dequeue faults r (env.clock s.group.readings) s.reading = .ok reply u) :
    dequeueRequest faults env r s.began = catchQuery (do
      if r.block && reply.message.isEmpty then
        lift (Group.setPending fun p => p.dequeue r)
        return false
      else
        if !reply.message.isEmpty && r.trid.isSome then
          lift (Group.involved env r.trid)
        lift (Group.send env r.process.queue (.dequeue { reply with correlation := r.correlation }))
        return true) false u := by
  have hread : lift Group.reading s.began = .ok s.group.readings s.reading := rfl
  refine catchQuery_congr ?_
  rw [bind_ok hread, bind_ok h]

theorem asks_dequeue (r : Message.DequeueRequest) :
    (Incoming.event (.dequeue r)).asks = if r.block then none else some r.address := rfl

theorem waits_dequeue (r : Message.DequeueRequest) :
    (Incoming.event (.dequeue r)).waits = if r.block then some r.address else none := rfl

/-- A request that is answered with a message. -/
theorem dequeueRequest_sent {d : Message.Dequeued} {u : Failing}
    (h : dequeue faults r (env.clock s.group.readings) s.reading = .ok ⟨0, [d]⟩ u)
    (hbroker : r.trid.isSome → env.gone u.group.readings env.broker = false)
    (hthere : env.gone (if r.trid.isSome then u.group.readings + 1 else u.group.readings) r.process.queue = false) :
    ∃ v, dequeueRequest faults env r s.began = .ok true v ∧ v.failures = u.failures ∧
      v.group.running = u.group.running ∧ v.group.queuebase = u.group.queuebase ∧ v.group.pending = u.group.pending ∧
      v.group.persistent = u.group.persistent ∧
      v.group.sent = u.group.sent ++ Group.involvement env r [d] ++ [Group.answer r [d]] := by
  rw [dequeueRequest_dequeued h]
  simp only [List.isEmpty_cons, Bool.and_false, Bool.false_eq_true, if_false, Bool.not_false, Bool.true_and]
  cases htrid : r.trid with
  | none =>
    rw [htrid] at hthere
    simp only [Option.isSome_none, Bool.false_eq_true, if_false]
    refine ⟨_, tryCatch_ok (bind_ok (lift_ok (Group.send_there hthere))), rfl, rfl, rfl, rfl, rfl, ?_⟩
    simp [Group.involvement, Group.answer, htrid]
  | some trid =>
    rw [htrid] at hthere hbroker
    simp only [Option.isSome_some, if_true]
    refine ⟨_, tryCatch_ok ((bind_ok (lift_ok (Group.send_there (hbroker rfl)))).trans
      (bind_ok (lift_ok (Group.send_there hthere)))), rfl, rfl, rfl, rfl, rfl, ?_⟩
    simp [Group.involvement, Group.answer, htrid]

/-- A reply counts for who has asked, unless it has waited. -/
theorem count_answer {a : Address} {messages : List Message.Dequeued}
    (h : (Incoming.event (.dequeue r)).waits ≠ some a) :
    [(r.process.queue, Reply.dequeue ⟨r.correlation, messages⟩)].countP (fun x => x.2.answers x.1 = some a) =
      if (Incoming.event (.dequeue r)).asks = some a then 1 else 0 := by
  rw [waits_dequeue] at h
  rw [asks_dequeue, List.countP_singleton]
  have hanswers : (Reply.dequeue ⟨r.correlation, messages⟩).answers r.process.queue = some r.address := rfl
  rw [hanswers]
  cases hblock : r.block with
  | true =>
    rw [hblock, if_pos rfl] at h
    rw [if_neg (by simpa using h), if_pos rfl, if_neg nofun]
  | false => simp

/-- A request that has failed has changed nothing. -/
theorem attends_failed {u : Failing} (hgroup : u.group = { s.group with readings := s.group.readings + 1 })
    (hs : Database.Sane s.group.queuebase) (h : r.block = true ∨ ¬ Lives env r.process.queue) :
    Attends env s (.event (.dequeue r)) u := by
  constructor
  · exact fun _ => by rw [hgroup]
  · intro a ha _ _
    rw [if_neg]
    · rw [hgroup]
      rfl
    · rw [asks_dequeue]
      rcases h with h | h
      · rw [if_pos h]
        nofun
      · split_ifs
        · nofun
        · rintro hasks
          cases hasks
          exact h ha
  · exact fun _ => by rw [hgroup]; exact ⟨rfl, rfl⟩
  · rw [hgroup]
    exact hs
  · intro r' hr'
    rw [hgroup] at hr'
    exact .inl hr'

theorem attends_dequeue (hs : Database.Sane s.group.queuebase) (h : Undisturbed faults env s (.event (.dequeue r))) :
    ∃ b t, dequeueRequest faults env r s.began = .ok b t ∧ Attends env s (.event (.dequeue r)) t := by
  obtain ⟨hspares, hfailed, hnone, hsome⟩ := h
  by_cases hfirst : faults.throws (s.request + 1) 0 = true
  · refine ⟨_, _, dequeueRequest_failed (dequeue_thrown hfirst), ?_⟩
    exact attends_failed (unwritten_reading.thrown hspares hfirst) hs (hfailed (.inl hfirst))
  have hfirst : faults.throws (s.request + 1) 0 = false := by simpa using hfirst
  cases hsel : Database.select r (env.clock s.group.readings) s.group.queuebase with
  | none =>
    have hok : ¬ (faults.throws (s.request + 1) 0 = true ∨
        (Database.select r (env.clock s.group.readings) s.group.queuebase).isSome ∧ faults.throws (s.request + 1) 1 = true) := by
      rw [hfirst, hsel]
      nofun
    rw [dequeueRequest_dequeued (dequeue_none (s := s.reading) hfirst hsel)]
    cases hblock : r.block with
    | true =>
      refine ⟨_, _, rfl, fun _ => rfl, ?_, fun hne => absurd rfl hne, hs, ?_⟩
      · intro a _ _ _
        rw [asks_dequeue, if_pos hblock]
        rfl
      · intro r' hr'
        have hmem : r' ∈ s.group.pending.requests ++ if r.block then [r] else [] := by
          rw [← Pending.dequeue_requests]
          exact hr'
        rw [hblock, if_pos rfl] at hmem
        rcases List.mem_append.1 hmem with hr' | hr'
        · exact .inl hr'
        · rw [List.mem_singleton.1 hr']
          exact .inr ⟨rfl, hblock⟩
    | false =>
      have hthere := hnone hok hsel hblock
      refine ⟨true, _, tryCatch_ok (bind_ok (lift_ok (Group.send_there hthere))), fun _ => rfl, ?_, fun hne => absurd rfl hne, hs, ?_⟩
      · intro a _ _ _
        rw [asks_dequeue, hblock]
        simp [Group.repliesTo, reading, executed, Reply.answers, Message.DequeueRequest.address, List.countP_append,
          List.countP_cons]
        omega
      · exact fun r' hr' => .inl hr'
  | some row =>
    obtain ⟨hsecond, hboth⟩ := dequeue_some (s := s.reading) hfirst hsel hs
    cases hf : faults.throws (s.request + 1) 1 with
    | true =>
      refine ⟨_, _, dequeueRequest_failed (hsecond hf), ?_⟩
      exact attends_failed (unwritten_reading.executed.thrown hspares hf) hs (hfailed (.inr ⟨by rw [hsel]; rfl, hf⟩))
    | false =>
      have hok : ¬ (faults.throws (s.request + 1) 0 = true ∨
          (Database.select r (env.clock s.group.readings) s.group.queuebase).isSome ∧ faults.throws (s.request + 1) 1 = true) := by
        rw [hfirst, hf]
        rintro (h | ⟨-, h⟩) <;> cases h
      obtain ⟨hbroker, hthere⟩ := hsome hok (by rw [hsel]; rfl)
      obtain ⟨db, hdb, hdequeue⟩ := hboth hf
      obtain ⟨v, hv, hfailures, hrunning, hqueuebase, hpending, hpersistent, hsent⟩ :=
        dequeueRequest_sent hdequeue hbroker (by split_ifs at hthere ⊢ <;> exact hthere)
      refine ⟨true, v, hv, fun _ => hrunning, ?_, fun hne => absurd hfailures hne, hqueuebase ▸ hdb, ?_⟩
      · intro a _ _ hwaits
        have hinvolvement : (Group.involvement env r [Database.reply row]).countP (fun x => x.2.answers x.1 = some a) = 0 := by
          unfold Group.involvement
          split_ifs
          · simp [Reply.answers]
          · rfl
        unfold Group.repliesTo
        rw [hsent, hpersistent, ← @count_answer r a [Database.reply row] hwaits]
        simp only [List.countP_append, hinvolvement]
        have hexecuted : ((executed s.reading s.reading.group.queuebase).executed db).group.sent = s.group.sent := rfl
        have hkept : ((executed s.reading s.reading.group.queuebase).executed db).group.persistent = s.group.persistent := rfl
        rw [hexecuted, hkept]
        unfold Group.answer
        omega
      · intro r' hr'
        rw [hpending] at hr'
        exact .inl hr'

end Dequeue

/-- What a reply that is kept counts for. -/
theorem attends_persisted {e : Incoming} {queue : Nat} {reply : Reply} {u : Failing} (hreply : reply.answers queue = e.asks)
    (hrunning : u.group.running = s.group.running)
    (hanswered : ∀ a, (∀ r ∈ s.group.pending.requests, r.address ≠ a) → u.group.repliesTo a = s.group.repliesTo a)
    (hrestored : u.failures ≠ s.failures →
      u.group.queuebase = s.group.queuebase ∧ u.group.pending = s.group.pending)
    (hsane : Database.Sane u.group.queuebase)
    (hwaiting : ∀ r ∈ u.group.pending.requests, r ∈ s.group.pending.requests) :
    Attends env s e { u with group := { u.group with persistent := u.group.persistent ++ [(queue, reply)] } } := by
  refine ⟨fun _ => hrunning, ?_, hrestored, hsane, fun r hr => .inl (hwaiting r hr)⟩
  intro a _ hother _
  rw [← hanswered a hother, ← hreply]
  unfold Group.repliesTo
  rw [← List.append_assoc, List.countP_append, List.countP_singleton]
  simp

/-- A transaction that has failed has changed nothing. -/
theorem attends_unchanged {e : Incoming} {queue : Nat} {reply : Reply} {u : Failing} (hreply : reply.answers queue = e.asks)
    (hs : Database.Sane s.group.queuebase) (hgroup : u.group = s.group) :
    Attends env s e { u with group := { u.group with persistent := u.group.persistent ++ [(queue, reply)] } } := by
  apply attends_persisted hreply
  · rw [hgroup]
  · exact fun a _ => by rw [hgroup]
  · exact fun _ => by rw [hgroup]; exact ⟨rfl, rfl⟩
  · rw [hgroup]
    exact hs
  · exact fun r hr => by rwa [hgroup] at hr

section Transaction

variable {message : Message.TransactionRequest}

/-- What the first statement of a commit leaves, the second does not fail for. -/
theorem commit_statements {db db₁ : Database} {id : Transaction.ID} (hs : Database.Sane db)
    (h : Database.commit1 (Transaction.bind (Transaction.global (some id))) db = some db₁) :
    ∃ db₂, Database.commit2 (Transaction.bind (Transaction.global (some id))) db₁ = some db₂ ∧ Database.Sane db₂ := by
  have hcommit1 := Database.execute_some h
  rw [Transaction.bind_global_some] at h
  obtain ⟨db₂, h₂, -⟩ := @Database.commit2_spec _ id.xid.gtrid (Database.commit1_spec hs.toConsistent h).1
  rw [← Transaction.bind_global_some] at h₂
  have hcommit : Database.commit id db = .ok () db₂ := (bind_ok hcommit1).trans (Database.execute_some h₂)
  refine ⟨db₂, h₂, ?_⟩
  rcases Database.commit_spec hs id with he | ⟨db', hok, hsane, -⟩
  · rw [hcommit] at he
    cases he
  · rw [hcommit] at hok
    cases hok
    exact hsane

theorem rollback_statements {db : Database} (id : Transaction.ID) (hs : Database.Sane db) : ∃ db₁ db₂ db₃,
    Database.rollback1 (Transaction.bind (Transaction.global (some id))) db = some db₁ ∧
      Database.rollback2 (Transaction.bind (Transaction.global (some id))) db₁ = some db₂ ∧
      Database.rollback3 db₂ = some db₃ ∧ Database.Sane db₃ := by
  obtain ⟨db₃, hok, hsane, -⟩ := Database.rollback_spec hs id
  obtain ⟨_, db₁, h₁, hok⟩ := of_bind_ok hok
  obtain ⟨_, db₂, h₂, h₃⟩ := of_bind_ok hok
  exact ⟨db₁, db₂, db₃, execute_eq_ok h₁, execute_eq_ok h₂, execute_eq_ok h₃, hsane⟩

theorem commitRequest_failed {u : Failing} {e : Exception} (h : commit faults message.trid s.began = .error e u) :
    commitRequest faults env message s.began =
      .ok () { u with
        group := { u.group with
          persistent := u.group.persistent ++
            [(message.process.queue, .commit message.correlation message.trid XAER_RMFAIL)] } } :=
  bind_ok ((tryCatch_error (bind_error h)).trans rfl)

theorem rollbackRequest_failed {u : Failing} {e : Exception} (h : rollback faults message.trid s.began = .error e u) :
    rollbackRequest faults message s.began =
      .ok () { u with
        group := { u.group with
          persistent := u.group.persistent ++
            [(message.process.queue, .rollback message.correlation message.trid XAER_RMFAIL)] } } :=
  bind_ok ((tryCatch_error (bind_error h)).trans rfl)

theorem attends_commit (hs : Database.Sane s.group.queuebase) (h : Undisturbed faults env s (.event (.commit message))) :
    ∃ t, commitRequest faults env message s.began = .ok () t ∧ Attends env s (.event (.commit message)) t := by
  obtain ⟨hspares, h⟩ := h
  by_cases hfirst : faults.throws (s.request + 1) 0 = true
  · exact ⟨_, commitRequest_failed (bind_error (update_thrown hfirst)),
      attends_unchanged rfl hs (unwritten_began.thrown hspares hfirst)⟩
  have hsound : faults.throws (s.request + 1) 0 = false := by simpa using hfirst
  by_cases hnone : Database.commit1 (Transaction.bind (Transaction.global (some message.trid))) s.group.queuebase = none
  · exact ⟨_, commitRequest_failed (bind_error (update_none hsound hnone)), attends_unchanged rfl hs rfl⟩
  obtain ⟨db₁, h₁⟩ := Option.ne_none_iff_exists'.1 hnone
  have hcommit1 : update faults (Database.commit1 (Transaction.bind (Transaction.global (some message.trid)))) s.began =
      .ok () (s.began.executed db₁) := update_some hsound h₁
  rcases h with h | h | ⟨hsame, hsecond⟩ | hfails
  · exact absurd h hfirst
  · exact absurd h hnone
  · obtain rfl : db₁ = s.group.queuebase := Option.some.inj (h₁.symm.trans hsame)
    exact ⟨_, commitRequest_failed ((bind_ok hcommit1).trans (update_thrown hsecond)),
      attends_unchanged rfl hs (unwritten_began.executed.thrown hspares hsecond)⟩
  · obtain ⟨db₂, h₂, hsane⟩ := commit_statements hs h₁
    have hcommit : commit faults message.trid s.began = .ok () ((s.began.executed db₁).executed db₂) :=
      (bind_ok hcommit1).trans (update_some (s := s.began.executed db₁) (hfails 1 Nat.one_pos) h₂)
    have hsound : Sound (s.request + 1) s.failures ((s.began.executed db₁).executed db₂) := ⟨hsane, rfl, Nat.succ_pos _, rfl⟩
    obtain ⟨t, ht, hserves, hsound'⟩ := @replies_spec faults env _ _ _ (some message.trid.xid) hfails hsound
    refine ⟨_, bind_ok (tryCatch_ok ((bind_ok hcommit).trans (bind_ok ht))), attends_persisted rfl hserves.running ?_ ?_ hsound'.sane ?_⟩
    · exact fun a hother => hserves.repliesTo hother
    · exact fun hne => absurd hsound'.failures hne
    · rintro r hr
      rcases hserves.pending r hr with hr | ⟨hr, -⟩ <;> exact hr

theorem attends_rollback (hs : Database.Sane s.group.queuebase) (h : Undisturbed faults env s (.event (.rollback message))) :
    ∃ t, rollbackRequest faults message s.began = .ok () t ∧ Attends env s (.event (.rollback message)) t := by
  obtain ⟨hspares, h⟩ := h
  obtain ⟨db₁, db₂, db₃, h₁, h₂, h₃, hsane⟩ := rollback_statements message.trid hs
  by_cases hfirst : faults.throws (s.request + 1) 0 = true
  · exact ⟨_, rollbackRequest_failed (bind_error (update_thrown hfirst)),
      attends_unchanged rfl hs (unwritten_began.thrown hspares hfirst)⟩
  have hfirst' : faults.throws (s.request + 1) 0 = false := by simpa using hfirst
  have hrollback1 : update faults (Database.rollback1 (Transaction.bind (Transaction.global (some message.trid)))) s.began =
      .ok () (s.began.executed db₁) := update_some hfirst' h₁
  have hrollback2 (h : faults.throws (s.request + 1) 1 = false) :
      update faults (Database.rollback2 (Transaction.bind (Transaction.global (some message.trid)))) (s.began.executed db₁) =
        .ok () ((s.began.executed db₁).executed db₂) := update_some (s := s.began.executed db₁) h h₂
  rcases h with h | ⟨hsame₁, h⟩ | hfails
  · exact absurd h hfirst
  · obtain rfl : db₁ = s.group.queuebase := Option.some.inj (h₁.symm.trans hsame₁)
    by_cases hsecond : faults.throws (s.request + 1) 1 = true
    · exact ⟨_, rollbackRequest_failed ((bind_ok hrollback1).trans (bind_error (update_thrown hsecond))),
        attends_unchanged rfl hs (unwritten_began.executed.thrown hspares hsecond)⟩
    · obtain ⟨hsame₂, hthird⟩ := h.resolve_left hsecond
      obtain rfl : db₂ = s.group.queuebase := Option.some.inj (h₂.symm.trans hsame₂)
      exact ⟨_, rollbackRequest_failed ((bind_ok hrollback1).trans ((bind_ok (hrollback2 (by simpa using hsecond))).trans
        (update_thrown hthird))), attends_unchanged rfl hs (unwritten_began.executed.executed.thrown hspares hthird)⟩
  · have hrollback : rollback faults message.trid s.began =
        .ok () (((s.began.executed db₁).executed db₂).executed db₃) :=
      (bind_ok hrollback1).trans ((bind_ok (hrollback2 (hfails 1 Nat.one_pos))).trans
        (update_some (s := (s.began.executed db₁).executed db₂) (hfails 2 Nat.two_pos) h₃))
    refine ⟨_, bind_ok (tryCatch_ok (bind_ok hrollback)), attends_persisted rfl rfl ?_ ?_ hsane ?_⟩
    · exact fun _ _ => rfl
    · exact fun hne => absurd rfl hne
    · exact fun r hr => hr

end Transaction

/-! ## Requests that use no statement, and those for information -/

/-- What is sent, forgotten and erased for other reasons leaves the answers as they are. -/
theorem attends_lift {e : Incoming} {x : Group.M Unit} (hasks : e.asks = none) (hs : Database.Sane s.group.queuebase)
    {g : Group} (hx : x s.group = .ok () g) (hrunning : g.running = s.group.running) (hqueuebase : g.queuebase = s.group.queuebase)
    (hanswered : ∀ a, Lives env a.queue → g.repliesTo a = s.group.repliesTo a)
    (hwaiting : g.pending.requests ⊆ s.group.pending.requests) :
    ∃ t, lift x s.began = .ok () t ∧ Attends env s e t := by
  refine ⟨_, lift_ok hx, fun _ => hrunning, ?_, fun hne => absurd rfl hne, hqueuebase ▸ hs, fun r hr => .inl (hwaiting hr)⟩
  intro a ha _ _
  rw [hasks, if_neg nofun]
  exact hanswered a ha

theorem forget_requests (p : Pending) (message : Message.ForgetRequest) :
    (p.forget message).2.requests ⊆ p.requests := by
  unfold Pending.forget
  split_ifs
  · exact List.eraseP_subset
  · exact List.Subset.refl _

theorem attends_forget (message : Message.ForgetRequest) (hs : Database.Sane s.group.queuebase) :
    ∃ t, lift (Group.forgetRequest env message) s.began = .ok () t ∧ Attends env s (.event (.forget message)) t := by
  have hpending := forget_requests s.group.pending message
  cases hgone : env.gone s.group.readings message.process.queue with
  | true =>
    have hforget : Group.forgetRequest env message s.group = .ok () _ :=
      (tryCatch_error (Group.send_gone (s := { s.group with pending := (s.group.pending.forget message).2 }) hgone)).trans rfl
    exact attends_lift rfl hs hforget rfl rfl (fun _ _ => rfl) hpending
  | false =>
    have hforget : Group.forgetRequest env message s.group = .ok () _ :=
      tryCatch_ok (Group.send_there (s := { s.group with pending := (s.group.pending.forget message).2 }) hgone)
    refine attends_lift rfl hs hforget rfl rfl (fun a _ => ?_) hpending
    simp [Group.repliesTo, Reply.answers, List.countP_append]

theorem queue_of_answers {queue : Nat} {reply : Reply} {a : Address} (h : reply.answers queue = some a) : a.queue = queue := by
  cases reply <;> cases h <;> rfl

/-- Of the replies that were kept, those to who lives are sent or kept. -/
theorem flush_answers : ∀ (l : List (Nat × Reply)) (s : Group), ∃ left out n,
    Group.flush env l s = .ok left { s with readings := n, sent := s.sent ++ out } ∧
      ∀ a, Lives env a.queue → (out ++ left).countP (fun x => x.2.answers x.1 = some a) =
        l.countP fun x => x.2.answers x.1 = some a
  | [], s => ⟨[], [], s.readings, by rw [List.append_nil]; rfl, fun _ _ => rfl⟩
  | (queue, reply) :: rest, s => by
    unfold Group.flush
    rw [bind_ok (Group.reading_eq s)]
    obtain ⟨left, out, n, h, hcount⟩ := flush_answers rest { s with readings := s.readings + 1 }
    split_ifs with hgone
    · refine ⟨left, out, n, h, fun a ha => ?_⟩
      rw [List.countP_cons, if_neg, hcount a ha, Nat.add_zero]
      intro hanswers
      have hqueue : a.queue = queue := queue_of_answers (of_decide_eq_true hanswers)
      rw [← hqueue, ha] at hgone
      cases hgone
    · refine ⟨(queue, reply) :: left, out, n, bind_ok h, fun a ha => ?_⟩
      rw [List.countP_cons, ← hcount a ha]
      simp only [List.countP_append, List.countP_cons]
      omega
    · obtain ⟨left, out, n, h, hcount⟩ :=
        flush_answers rest { s with readings := s.readings + 1, sent := s.sent ++ [(queue, reply)] }
      refine ⟨left, (queue, reply) :: out, n, ?_, fun a ha => ?_⟩
      · rw [List.append_cons]
        exact h
      · rw [List.cons_append, List.countP_cons, List.countP_cons, hcount a ha]

theorem attends_persist (hs : Database.Sane s.group.queuebase) :
    ∃ t, handle faults env .persist s.began = .ok () t ∧ Attends env s (.event .persist) t := by
  obtain ⟨left, out, n, h, hcount⟩ := @flush_answers env s.group.persistent s.group
  have hpersist : Group.persistStep env s.group =
      .ok () { s.group with readings := n, sent := s.group.sent ++ out, persistent := left } := by
    unfold Group.persistStep
    rw [h]
  refine ⟨_, lift_ok (s := writeCommit s.began) hpersist, fun _ => rfl, ?_, fun hne => absurd rfl hne, hs, fun r hr => .inl hr⟩
  intro a ha _ _
  have := hcount a ha
  have hasks : (Incoming.event .persist).asks = none := rfl
  rw [hasks, if_neg nofun]
  unfold Group.repliesTo
  simp only [List.countP_append] at this ⊢
  omega

/-- Information that is sent changes nothing. -/
theorem attends_inform {e : Incoming} {α : Type} {x : Database → α} {queue : Nat} {information : α → Information}
    (hs : Database.Sane s.group.queuebase) (hasks : e.asks = none) (hfails : faults.throws (s.request + 1) 0 = false)
    (hthere : env.gone s.group.readings queue = false) :
    ∃ t, (do let a ← query faults x; inform env queue (information a) : F Unit) s.began = .ok () t ∧ Attends env s e t := by
  have hinform : inform env queue (information (x s.group.queuebase)) (s.began.executed s.group.queuebase) = .ok () _ :=
    if_neg fun h => by cases hthere.symm.trans h
  refine ⟨_, (bind_ok (query_ok (s := s.began) hfails)).trans hinform, fun _ => rfl, ?_, fun hne => absurd rfl hne, hs, fun r hr => .inl hr⟩
  intro a _ _ _
  rw [hasks, if_neg nofun]
  rfl

/-! ## Runs -/

/-- What ends the pump leaves the group as it is. -/
theorem attends_leave {e : Incoming} (hends : e.ends = true) (hs : Database.Sane s.group.queuebase) :
    Attends env s e (leave s) := by
  have hasks : e.asks = none := by cases e <;> first | rfl | cases hends
  refine ⟨fun h => absurd hends (by rw [h]; nofun), ?_, fun hne => absurd rfl hne, hs, fun r hr => .inl hr⟩
  intro a _ _ _
  rw [hasks, if_neg nofun]
  rfl

/-- A message that is handled where nothing disturbs it. -/
theorem attends_step {e : Incoming} (hs : Database.Sane s.group.queuebase) (h : Undisturbed faults env s e) :
    Attends env s e (step faults env s e) := by
  have hfinish : ∀ {r : EStateM.Result Exception Failing Unit}, (∃ t, r = .ok () t ∧ Attends env s e t) →
      Attends env s e (finish r) := by
    rintro _ ⟨t, rfl, ht⟩
    exact ht
  cases e with
  | event e =>
    apply hfinish
    cases e with
    | enqueue message => exact attends_enqueue hs h
    | dequeue r =>
      obtain ⟨b, t, hr, ht⟩ := attends_dequeue hs h
      exact ⟨t, bind_ok hr, ht⟩
    | commit message => exact attends_commit hs h
    | rollback message => exact attends_rollback hs h
    | forget message => exact attends_forget message hs
    | persist => exact attends_persist hs
    | dead pid =>
      refine attends_lift (x := Group.deadProcess pid) rfl hs rfl rfl rfl (fun _ _ => rfl) ?_
      exact fun r hr => (List.mem_filter.1 hr).1
  | queues message => exact hfinish (attends_inform hs rfl h.answerable.1 h.answerable.2)
  | messages message qid => exact hfinish (attends_inform hs rfl h.answerable.1 h.answerable.2)
  | shutdown => exact attends_leave rfl hs
  | terminate => exact attends_leave rfl hs

/-- What has been executed is committed after a batch. -/
theorem durable_persist : (step faults env s (.event .persist)).durable = s.group.queuebase := by
  obtain ⟨left, out, n, h, -⟩ := @flush_answers env s.group.persistent s.group
  have hpersist : Group.persistStep env s.group =
      .ok () { s.group with readings := n, sent := s.group.sent ++ out, persistent := left } := by
    unfold Group.persistStep
    rw [h]
  have hstep : handle faults env .persist s.began = .ok () _ := lift_ok (s := writeCommit s.began) hpersist
  exact congrArg (fun r => (finish r).durable) hstep

theorem durable_of_ends {e : Incoming} (h : e.ends = true) : (step faults env s e).durable = s.group.queuebase := by
  cases e <;> first | rfl | cases h

/-- What holds of a group after each message. -/
structure Attending (env : Environment) (w : Recorded) : Prop extends Available env w where
  sane : Database.Sane w.now.group.queuebase
  waiting : ∀ r ∈ w.now.group.pending.requests, ∃ h ∈ w.handled, h.incoming.waits = some r.address

theorem Attending.step {w : Recorded} {e : Incoming} (hw : Attending env w) (hrunning : w.now.group.running = true)
    (h : Undisturbed faults env w.now e) : Attending env ((attending faults env).step w e) := by
  have ha := attends_step hw.sane h
  have hlast : ∀ {P : Handled → Prop}, (∀ h ∈ w.handled, P h) → P ⟨w.now, e, Failing.step faults env w.now e⟩ →
      ∀ h ∈ w.handled ++ [⟨w.now, e, Failing.step faults env w.now e⟩], P h := by
    rintro P hall hnew h hh
    rcases List.mem_append.1 hh with hh | hh
    · exact hall h hh
    · rw [List.mem_singleton.1 hh]
      exact hnew
  have hmem : (⟨w.now, e, Failing.step faults env w.now e⟩ : Handled) ∈
      w.handled ++ [⟨w.now, e, Failing.step faults env w.now e⟩] := List.mem_append_right _ (List.mem_singleton_self _)
  have hends : (Failing.step faults env w.now e).group.running = false → e.ends = true := by
    intro hstopped
    by_contra hgoes
    have := ha.running (by simpa using hgoes)
    rw [hstopped, hrunning] at this
    cases this
  refine ⟨⟨fun hstopped => ⟨_, hmem, hends hstopped⟩, ?_, hlast hw.restored ha.restored, ⟨?_, ?_⟩, hlast hw.committed ?_⟩,
    ha.sane, ?_⟩
  · intro a hlives hno
    have hearlier : ∀ h ∈ w.handled, h.incoming.waits ≠ some a := fun h hh => hno h (List.mem_append_left _ hh)
    have hother : ∀ r ∈ w.now.group.pending.requests, r.address ≠ a := by
      rintro r hr rfl
      obtain ⟨h, hh, hwaits⟩ := hw.waiting r hr
      exact hearlier h hh hwaits
    have hasked : (w.handled ++ [(⟨w.now, e, Failing.step faults env w.now e⟩ : Handled)]).countP
        (fun h => h.incoming.asks = some a) =
        w.handled.countP (fun h => h.incoming.asks = some a) + if e.asks = some a then 1 else 0 := by
      rw [List.countP_append, List.countP_singleton]
      simp
    exact (ha.answered a hlives hother (hno _ hmem)).trans (by rw [hw.answered a hlives hearlier, ← hasked]; rfl)
  · refine List.isChain_append.2 ⟨hw.kept.1, .singleton _, ?_⟩
    rintro h hh h' hh'
    cases hh'
    exact hw.kept.2 h hh
  · rintro h hh
    have hlast' : ((attending faults env).step w e).handled.getLast? = some ⟨w.now, e, Failing.step faults env w.now e⟩ :=
      List.getLast?_concat
    rw [hlast'] at hh
    cases hh
    rfl
  · rintro (hstopped | hpersist)
    · exact durable_of_ends (hends hstopped)
    · obtain rfl : e = .event .persist := hpersist
      exact durable_persist
  · rintro r hr
    rcases ha.waiting r hr with hr | ⟨rfl, hblock⟩
    · obtain ⟨h, hh, hwaits⟩ := hw.waiting r hr
      exact ⟨h, List.mem_append_left _ hh, hwaits⟩
    · exact ⟨_, hmem, by rw [waits_dequeue, if_pos hblock]⟩

instance (faults : Faults) (env : Environment) : ∀ w e, Decidable ((attending faults env).admits w e) :=
  fun w _ => inferInstanceAs (Decidable (w.now.group.running = true))

/-- A message is enqueued and committed, a commit fails with the transaction of its batch, and the pump is shut down. -/
def commitFails : List Incoming :=
  [.event (.enqueue (Group.someMessage none)), .event .persist, .event (.commit ⟨1, ⟨8, 8⟩, Database.someID⟩),
    .event .persist, .shutdown]

end Failing

end Casual.Queue
