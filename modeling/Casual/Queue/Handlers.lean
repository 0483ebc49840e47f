/-
What the handlers of a queue group do: one equation for each way a handler can take.
-/
import Casual.Queue.Operations
import Casual.Queue.Handle

namespace Casual.Queue

open Casual.Common Casual.Communication Casual.Lib

namespace Group

variable {env : Environment}

/-! ## Steps -/

theorem base_ok {α : Type} {x : EStateM Exception Database α} {a : α} {s : Group} {db : Database}
    (h : x s.queuebase = .ok a db) : base x s = .ok a { s with queuebase := db } := by
  unfold base; rw [h]

theorem base_error {α : Type} {x : EStateM Exception Database α} {e : Exception} {s : Group} {db : Database}
    (h : x s.queuebase = .error e db) : base x s = .error e { s with queuebase := db } := by
  unfold base; rw [h]

theorem send_gone {queue : Nat} {reply : Reply} {s : Group} (h : env.gone s.readings queue = true) :
    send env queue reply s =
      .error .unavailable { s with readings := s.readings + 1, refused := s.refused ++ [(queue, reply)] } := by
  unfold send; rw [if_pos h]

theorem send_there {queue : Nat} {reply : Reply} {s : Group} (h : env.gone s.readings queue = false) :
    send env queue reply s = .ok () { s with readings := s.readings + 1, sent := s.sent ++ [(queue, reply)] } := by
  unfold send; rw [if_neg (by simp [h])]

theorem reading_eq (s : Group) : reading s = .ok s.readings { s with readings := s.readings + 1 } := rfl

theorem catchQuery_ok {α : Type} {x : M α} {a b : α} {s t : Group} (h : x s = .ok b t) : catchQuery x a s = .ok b t :=
  tryCatch_ok h

theorem catchQuery_query {α : Type} {x : M α} {a : α} {s t : Group} (h : x s = .error .query t) :
    catchQuery x a s = .ok a t :=
  (tryCatch_error h).trans rfl

theorem catchQuery_unavailable {α : Type} {x : M α} {a : α} {s t : Group} (h : x s = .error .unavailable t) :
    catchQuery x a s = .error .unavailable t :=
  (tryCatch_error h).trans rfl

theorem after_catchQuery {α : Type} (x : M α) (a : α) (s : Group) : after (catchQuery x a s) = after (x s) := by
  cases h : x s with
  | ok b t => rw [catchQuery_ok h]
  | error e t =>
    cases e with
    | query => rw [catchQuery_query h, after_ok, after_error]
    | unavailable => rw [catchQuery_unavailable h]

/-! ## Dequeue -/

/-- The reply to a dequeue request, with the queue it is sent to. -/
def answer (r : Message.DequeueRequest) (message : List Message.Dequeued) : Nat × Reply :=
  (r.process.queue, .dequeue ⟨r.correlation, message⟩)

/-- What is sent to the queue-broker when a message was taken within a transaction. -/
def involvement (env : Environment) (r : Message.DequeueRequest) (message : List Message.Dequeued) : List (Nat × Reply) :=
  if !message.isEmpty && r.trid.isSome then [(env.broker, .involved r.trid)] else []

/-- The number of the reading at which the reply is sent. -/
def replyReading (env : Environment) (r : Message.DequeueRequest) (message : List Message.Dequeued) (n : Nat) : Nat :=
  n + 1 + (involvement env r message).length

/-- The group when the reply to a request has been sent, or refused as its receiver is gone. -/
def answered (env : Environment) (r : Message.DequeueRequest) (message : List Message.Dequeued) (db : Database)
    (s : Group) : Group :=
  let n := replyReading env r message s.readings
  { s with
    queuebase := db
    readings := n + 1
    sent := s.sent ++ involvement env r message ++ if env.gone n r.process.queue then [] else [answer r message]
    refused := s.refused ++ if env.gone n r.process.queue then [answer r message] else [] }

section Dequeue

variable {r : Message.DequeueRequest} {s : Group} {message : List Message.Dequeued} {db : Database}

/-- A blocking request that finds nothing is stored. -/
theorem dequeueRequest_stored (hblock : r.block = true)
    (hdequeue : Database.dequeue r (env.clock s.readings) s.queuebase = .ok ⟨0, []⟩ s.queuebase) :
    dequeueRequest env r s = .ok false { s with readings := s.readings + 1, pending := s.pending.dequeue r } := by
  have hbase : base (Database.dequeue r (env.clock s.readings)) { s with readings := s.readings + 1 } = _ := base_ok hdequeue
  unfold dequeueRequest
  refine catchQuery_ok ?_
  rw [bind_ok (reading_eq s), bind_ok hbase]
  simp only [hblock, List.isEmpty_nil, Bool.and_self, if_true]
  rfl

/-- Every other request is answered. -/
theorem dequeueRequest_answered (hanswer : message = [] → r.block = false)
    (hdequeue : Database.dequeue r (env.clock s.readings) s.queuebase = .ok ⟨0, message⟩ db)
    (hbroker : involvement env r message ≠ [] → env.gone (s.readings + 1) env.broker = false) :
    dequeueRequest env r s =
      if env.gone (replyReading env r message s.readings) r.process.queue then .error .unavailable (answered env r message db s)
      else .ok true (answered env r message db s) := by
  have hbase : base (Database.dequeue r (env.clock s.readings)) { s with readings := s.readings + 1 } = _ := base_ok hdequeue
  unfold dequeueRequest
  have hstored : (r.block && message.isEmpty) = false := by
    cases message with
    | nil => simp [hanswer rfl]
    | cons => simp
  -- the reply, once the queue-broker knows that the group is involved
  have hreply : ∀ t : Group, t = { s with
      queuebase := db
      readings := replyReading env r message s.readings
      sent := s.sent ++ involvement env r message } →
      (do
        send env r.process.queue (.dequeue { correlation := r.correlation, message := message : Message.DequeueReply })
        return true : M Bool) t =
      if env.gone (replyReading env r message s.readings) r.process.queue then
        .error .unavailable (answered env r message db s)
      else .ok true (answered env r message db s) := by
    rintro t rfl
    cases h : env.gone (replyReading env r message s.readings) r.process.queue with
    | true =>
      refine (bind_error (send_gone (by exact h))).trans ?_
      simp [answered, h, answer]
    | false =>
      refine (bind_ok (send_there (by exact h))).trans ?_
      simp only [answered, h, answer, Bool.false_eq_true, if_false, List.append_nil]
      rfl
  have hcatch : ∀ x : M Bool, x s = (if env.gone (replyReading env r message s.readings) r.process.queue then
      .error .unavailable (answered env r message db s) else .ok true (answered env r message db s)) →
      catchQuery x false s = if env.gone (replyReading env r message s.readings) r.process.queue then
        .error .unavailable (answered env r message db s)
      else .ok true (answered env r message db s) := by
    intro x hx
    split_ifs at hx ⊢
    · exact catchQuery_unavailable hx
    · exact catchQuery_ok hx
  refine hcatch _ ?_
  rw [bind_ok (reading_eq s), bind_ok hbase]
  simp only [hstored, Bool.false_eq_true, if_false]
  by_cases h : (!message.isEmpty && r.trid.isSome) = true
  · have hinvolvement : involvement env r message = [(env.broker, .involved r.trid)] := if_pos h
    rw [if_pos h]
    refine (bind_ok (send_there (by exact hbroker (by simp [hinvolvement])))).trans (hreply _ ?_)
    simp [replyReading, hinvolvement]
  · have hinvolvement : involvement env r message = [] := if_neg h
    rw [if_neg h]
    refine hreply _ ?_
    simp [replyReading, hinvolvement]

/-- Nothing is answered when the queue-broker is gone. -/
theorem dequeueRequest_brokerless (hdequeue : Database.dequeue r (env.clock s.readings) s.queuebase = .ok ⟨0, message⟩ db)
    (hinvolvement : involvement env r message ≠ []) (hbroker : env.gone (s.readings + 1) env.broker = true) :
    dequeueRequest env r s = .error .unavailable { s with
      queuebase := db
      readings := s.readings + 2
      refused := s.refused ++ involvement env r message } := by
  have hbase : base (Database.dequeue r (env.clock s.readings)) { s with readings := s.readings + 1 } = _ := base_ok hdequeue
  obtain ⟨h, hinvolvement⟩ : (!message.isEmpty && r.trid.isSome) = true ∧
      involvement env r message = [(env.broker, .involved r.trid)] := by
    unfold involvement at hinvolvement ⊢
    split_ifs at hinvolvement with h
    · exact ⟨h, if_pos h⟩
    · exact absurd rfl hinvolvement
  have hstored : ¬ (r.block && message.isEmpty) = true := by
    cases message with
    | nil => simp at h
    | cons => simp
  unfold dequeueRequest
  refine catchQuery_unavailable ?_
  rw [bind_ok (reading_eq s), bind_ok hbase]
  simp only [hstored, Bool.false_eq_true, if_false]
  rw [if_pos h, hinvolvement]
  exact bind_error (send_gone (by exact hbroker))

/-- A request is stored, answered, or lost as the queue-broker is gone. -/
theorem dequeueRequest_cases (hc : Database.Sane s.queuebase) :
    (r.block = true ∧ Database.select r (env.clock s.readings) s.queuebase = none ∧
      dequeueRequest env r s = .ok false { s with readings := s.readings + 1, pending := s.pending.dequeue r }) ∨
    ∃ message db, Database.dequeue r (env.clock s.readings) s.queuebase = .ok ⟨0, message⟩ db ∧ Database.Sane db ∧
      ((involvement env r message ≠ [] ∧ dequeueRequest env r s = .error .unavailable { s with
          queuebase := db
          readings := s.readings + 2
          refused := s.refused ++ involvement env r message }) ∨
        dequeueRequest env r s =
          if env.gone (replyReading env r message s.readings) r.process.queue then
            .error .unavailable (answered env r message db s)
          else .ok true (answered env r message db s)) := by
  rcases Database.dequeue_spec hc r (env.clock s.readings) with ⟨hselect, hdequeue⟩ | ⟨row, db, -, hdequeue, hsane, -⟩
  · cases hblock : r.block with
    | true => exact .inl ⟨rfl, hselect, dequeueRequest_stored hblock hdequeue⟩
    | false =>
      refine .inr ⟨[], s.queuebase, hdequeue, hc, .inr ?_⟩
      exact dequeueRequest_answered (fun _ => hblock) hdequeue fun h => absurd rfl h
  · refine .inr ⟨_, db, hdequeue, hsane, ?_⟩
    have hanswer : [Database.reply row] = [] → r.block = false := fun h => absurd h (List.cons_ne_nil _ _)
    by_cases hinvolvement : involvement env r [Database.reply row] = []
    · exact .inr (dequeueRequest_answered hanswer hdequeue fun h => absurd hinvolvement h)
    · cases hbroker : env.gone (s.readings + 1) env.broker with
      | true => exact .inl ⟨hinvolvement, dequeueRequest_brokerless hdequeue hinvolvement hbroker⟩
      | false => exact .inr (dequeueRequest_answered hanswer hdequeue fun _ => hbroker)

end Dequeue

/-! ## The loop of a commit -/

section Wake

variable {r : Message.DequeueRequest} {rest : List Message.DequeueRequest} {enqueued : Nat → Nat} {s t : Group}

/-- A request that comes when as many as were enqueued have been answered is dropped. -/
theorem wake_spent (h : enqueued r.queue = 0) : wake env (r :: rest) enqueued s = wake env rest enqueued s := by
  conv_lhs => unfold wake
  refine bind_ok (tryCatch_ok ?_)
  rw [h]
  rfl

theorem wake_answered (hleft : enqueued r.queue > 0) (h : dequeueRequest env r s = .ok true t) :
    wake env (r :: rest) enqueued s =
      wake env rest (Function.update enqueued r.queue (enqueued r.queue - 1)) t := by
  conv_lhs => unfold wake
  refine bind_ok (tryCatch_ok ?_)
  rw [if_pos hleft]
  exact bind_ok h

/-- A request that finds nothing has been stored by the dequeue handler, and is stored once more. -/
theorem wake_stored (hleft : enqueued r.queue > 0) (h : dequeueRequest env r s = .ok false t) :
    wake env (r :: rest) enqueued s = wake env rest enqueued { t with pending := t.pending.dequeue r } := by
  conv_lhs => unfold wake
  refine bind_ok (tryCatch_ok ?_)
  rw [if_pos hleft]
  exact bind_ok h

theorem wake_unavailable (hleft : enqueued r.queue > 0) (h : dequeueRequest env r s = .error .unavailable t) :
    wake env (r :: rest) enqueued s = wake env rest enqueued t := by
  conv_lhs => unfold wake
  refine bind_ok ((tryCatch_error (e := .unavailable) (t := t) ?_).trans rfl)
  rw [if_pos hleft]
  exact bind_error h

end Wake

/-! ## The other handlers -/

section Handlers

variable {s t : Group}

/-- The dequeue replies in what has been sent or refused, as the queue of the receiver and the
correlation. -/
def answers (l : List (Nat × Reply)) : List (Nat × Uuid) :=
  l.filterMap fun m =>
    match m.2 with
    | .dequeue reply => some (m.1, reply.correlation)
    | _ => none

@[simp] theorem answers_append (l l' : List (Nat × Reply)) : answers (l ++ l') = answers l ++ answers l' :=
  List.filterMap_append

/-- A step that answers no dequeue request, and leaves the messages and the requests alone. -/
structure Quiet (s t : Group) : Prop where
  queuebase : t.queuebase = s.queuebase
  pending : t.pending = s.pending
  persistent : t.persistent ⊆ s.persistent
  sent : answers t.sent = answers s.sent
  refused : answers t.refused = answers s.refused

theorem Quiet.refl (s : Group) : Quiet s s := ⟨rfl, rfl, List.Subset.refl _, rfl, rfl⟩

theorem Quiet.trans {s t u : Group} (h : Quiet s t) (h' : Quiet t u) : Quiet s u :=
  ⟨h'.queuebase.trans h.queuebase, h'.pending.trans h.pending, List.Subset.trans h'.persistent h.persistent, h'.sent.trans h.sent,
    h'.refused.trans h.refused⟩

/-- Sending anything but the reply to a dequeue is quiet. -/
theorem send_quiet {queue : Nat} {reply : Reply} (h : answers [(queue, reply)] = []) (s : Group) :
    Triple (Quiet s) (send env queue reply) (fun _ => Quiet s) (fun _ => Quiet s) := by
  intro t ht
  cases hgone : env.gone t.readings queue with
  | true =>
    rw [send_gone hgone]
    exact ht.trans ⟨rfl, rfl, List.Subset.refl _, rfl, by rw [answers_append, h, List.append_nil]⟩
  | false =>
    rw [send_there hgone]
    exact ht.trans ⟨rfl, rfl, List.Subset.refl _, by rw [answers_append, h, List.append_nil], rfl⟩

theorem handle_dequeue {r : Message.DequeueRequest} {b : Bool} (h : dequeueRequest env r s = .ok b t) :
    handle env (.dequeue r) s = .ok () t :=
  (bind_ok h).trans rfl

theorem handle_dequeue_error {r : Message.DequeueRequest} {e : Exception} (h : dequeueRequest env r s = .error e t) :
    handle env (.dequeue r) s = .error e t :=
  bind_error h

/-- An enqueue fails and changes nothing, or its message is counted for those who wait: within a
transaction only that, else they are woken at once. -/
theorem enqueueRequest_cases (hc : Database.Sane s.queuebase) (message : Message.EnqueueRequest) :
    (Database.enqueue message (env.make s.readings) (env.clock s.readings) s.queuebase = .error .query s.queuebase ∧
        enqueueRequest env message s = .ok () { s with readings := s.readings + 1 }) ∨
      ∃ reply db, Database.enqueue message (env.make s.readings) (env.clock s.readings) s.queuebase = .ok reply db ∧
        Database.Sane db ∧ db.messages =
          s.queuebase.messages ++ [Database.enqueued message (env.make s.readings) (env.clock s.readings)] ∧
        (message.trid = none →
          ∀ t, replies env none { s with
              queuebase := db
              readings := s.readings + 1
              pending := s.pending.enqueue none message.queue
              persistent := s.persistent ++ [(message.process.queue, .enqueue message.correlation reply)] } = .ok () t →
            enqueueRequest env message s = .ok () t) ∧
        ∀ trid, message.trid = some trid →
          Quiet { s with
              queuebase := db
              readings := s.readings + 1
              pending := s.pending.enqueue (some trid.xid) message.queue } (after (enqueueRequest env message s)) := by
  rcases Database.enqueue_spec hc message (env.make s.readings) (env.clock s.readings) with
    he | ⟨db, he, hsane, -, hmessages, -⟩
  · refine .inl ⟨he, ?_⟩
    have hbase : base (Database.enqueue message (env.make s.readings) (env.clock s.readings))
        { s with readings := s.readings + 1 } = _ := base_error he
    unfold enqueueRequest
    refine catchQuery_query ?_
    rw [bind_ok (reading_eq s), bind_error hbase]
  · have hbase : base (Database.enqueue message (env.make s.readings) (env.clock s.readings))
        { s with readings := s.readings + 1 } = _ := base_ok he
    refine .inr ⟨_, db, he, hsane, hmessages, fun htrid t ht => ?_, fun trid htrid => ?_⟩
    · unfold enqueueRequest
      refine catchQuery_ok ?_
      rw [bind_ok (reading_eq s), bind_ok hbase]
      simp only [htrid]
      exact ht
    · unfold enqueueRequest
      rw [after_catchQuery, bind_ok (reading_eq s), bind_ok hbase]
      simp only [htrid]
      exact Triple.after (Triple.bind (send_quiet rfl _) fun _ => send_quiet rfl _) (Quiet.refl _)

/-- A commit fails and changes nothing, or wakes those who wait for what it enqueued. -/
theorem commitRequest_cases (hc : Database.Sane s.queuebase) (message : Message.TransactionRequest) :
    (Database.commit message.trid s.queuebase = .error .query s.queuebase ∧
        commitRequest env message s = .ok () { s with
          persistent := s.persistent ++ [(message.process.queue, .commit message.correlation message.trid XAER_RMFAIL)] }) ∨
      ∃ db, Database.commit message.trid s.queuebase = .ok () db ∧ Database.Sane db ∧
        db.messages = s.queuebase.messages.filterMap (Database.committed message.trid.xid.gtrid) ∧
        ∀ t, replies env (some message.trid.xid) { s with queuebase := db } = .ok () t →
          commitRequest env message s = .ok () { t with
            persistent := t.persistent ++ [(message.process.queue, .commit message.correlation message.trid XA_OK)] } := by
  rcases Database.commit_spec hc message.trid with he | ⟨db, he, hsane, -, hmessages⟩
  · refine .inl ⟨he, ?_⟩
    unfold commitRequest
    refine bind_ok ((tryCatch_error (e := .query) (t := s) ?_).trans rfl)
    exact bind_error (base_error he)
  · refine .inr ⟨db, he, hsane, hmessages, fun t ht => ?_⟩
    unfold commitRequest
    refine bind_ok (tryCatch_ok ?_)
    rw [bind_ok (base_ok he)]
    exact bind_ok ht

/-- A rollback wakes nobody. -/
theorem rollbackRequest_eq {db : Database} {message : Message.TransactionRequest}
    (he : Database.rollback message.trid s.queuebase = .ok () db) :
    rollbackRequest message s = .ok () { s with
      queuebase := db
      pending := s.pending.rollback (some message.trid.xid)
      persistent := s.persistent ++ [(message.process.queue, .rollback message.correlation message.trid XA_OK)] } := by
  unfold rollbackRequest
  refine (bind_ok (tryCatch_ok (a := XA_OK)
    (t := { s with queuebase := db, pending := s.pending.rollback (some message.trid.xid) }) ?_)).trans rfl
  rw [bind_ok (base_ok he)]
  rfl

theorem forgetRequest_quiet (message : Message.ForgetRequest) (s : Group) :
    Quiet { s with pending := (s.pending.forget message).2 } (after (forgetRequest env message s)) := by
  have h : Triple (fun t => t = s) (forgetRequest env message)
      (fun _ => Quiet { s with pending := (s.pending.forget message).2 })
      (fun _ => Quiet { s with pending := (s.pending.forget message).2 }) := by
    refine Triple.tryCatch (?_ : Triple _ _ _ fun _ => Quiet { s with pending := (s.pending.forget message).2 })
      fun e => Triple.pure fun t ht => ht
    intro t ht
    subst ht
    exact send_quiet rfl _ _ (Quiet.refl _)
  exact Triple.after h rfl

/-- What is flushed is sent, dropped as its receiver is gone, or left. -/
theorem flush_spec : ∀ (l : List (Nat × Reply)) (s : Group), ∃ left out n,
    flush env l s = .ok left { s with readings := n, sent := s.sent ++ out } ∧ left ⊆ l ∧ out ⊆ l
  | [], s => ⟨[], [], s.readings, by rw [List.append_nil]; rfl, List.Subset.refl _, List.Subset.refl _⟩
  | (queue, reply) :: rest, s => by
    unfold flush
    rw [bind_ok (reading_eq s)]
    obtain ⟨left, out, n, h, hleft, hout⟩ := flush_spec rest { s with readings := s.readings + 1 }
    split_ifs
    · exact ⟨left, out, n, h, List.subset_cons_of_subset _ hleft, List.subset_cons_of_subset _ hout⟩
    · exact ⟨(queue, reply) :: left, out, n, bind_ok h, List.cons_subset_cons _ hleft, List.subset_cons_of_subset _ hout⟩
    · obtain ⟨left, out, n, h, hleft, hout⟩ :=
        flush_spec rest { s with readings := s.readings + 1, sent := s.sent ++ [(queue, reply)] }
      refine ⟨left, (queue, reply) :: out, n, ?_, List.subset_cons_of_subset _ hleft, List.cons_subset_cons _ hout⟩
      rw [List.append_cons]
      exact h

theorem persistStep_spec (s : Group) : ∃ left out n,
    persistStep env s = .ok () { s with readings := n, sent := s.sent ++ out, persistent := left } ∧
      left ⊆ s.persistent ∧ out ⊆ s.persistent := by
  obtain ⟨left, out, n, h, hleft, hout⟩ := @flush_spec env s.persistent s
  refine ⟨left, out, n, ?_, hleft, hout⟩
  unfold persistStep
  rw [h]

/-! ## The pump -/

theorem step_fields (s : Group) (e : Event) :
    (s.step env e).queuebase = (after (handle env e s)).queuebase ∧ (s.step env e).pending = (after (handle env e s)).pending ∧
      (s.step env e).persistent = (after (handle env e s)).persistent ∧ (s.step env e).sent = (after (handle env e s)).sent ∧
      (s.step env e).refused = (after (handle env e s)).refused := by
  unfold step
  cases handle env e s <;> exact ⟨rfl, rfl, rfl, rfl, rfl⟩

/-- A group that is still running has returned from its handler. -/
theorem handle_ok {s : Group} {e : Event} (h : (s.step env e).running = true) :
    ∃ t, handle env e s = .ok () t ∧ s.step env e = t := by
  unfold step at h ⊢
  cases hh : handle env e s with
  | ok a t => exact ⟨t, rfl, rfl⟩
  | error e t => rw [hh] at h; cases h

end Handlers

/-! ### Something to run -/

/-- A clock that starts when everything is available, and receivers that are there. -/
def someEnvironment : Environment := ⟨fun n => n + 10, fun n => n + 1, fun _ _ => false, fun _ _ => false, 0⟩

/-- A request that waits for any message in a queue. -/
def waiter (n : Nat) : Message.DequeueRequest := ⟨n, ⟨n, n⟩, none, 3, ⟨"", 0⟩, true⟩

/-- An enqueue to the queue 3. -/
def someMessage (trid : Option Transaction.ID) : Message.EnqueueRequest :=
  ⟨0, ⟨9, 9⟩, trid, 3, ⟨0, "", "", 0, ⟨"", ""⟩, some [1]⟩⟩

end Group

end Casual.Queue
