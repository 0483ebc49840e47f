/-
What the rounds of a forwarder come to: which transactions are committed and which are rolled back.
-/
import Casual.Queue.Forwarder

namespace Casual.Queue.Forward

open Lib Common Communication Casual.Call Server

variable {Sender : Type}

/-! ## What a round is to come to -/

/-- The service has succeeded with the message, and its reply is in the reply queue, if there is one, in the same
transaction. -/
def Log.Served (task : Task) (trid : Transaction.ID) (l : Log) : Prop :=
  ∃ m reply, l.taken = some (m, some trid.xid) ∧ l.reply = some reply ∧ reply.error = 0 ∧
    (replyQueue task m ≠ "" → ∃ payload, release reply.buffer = .ok payload ∧
      ⟨replyQueue task m, some trid.xid, payload⟩ ∈ l.enqueued)

/-- The transaction is the one the message is dequeued in; it is ended once, and only what has been served is
committed. -/
structure Log.Forwarded (task : Task) (l : Log) : Prop where
  taken : ∀ trid ∈ l.trid, ∀ x ∈ l.taken, x.2 = some trid.xid
  ended : ∀ trid ∈ l.trid, l.ended = [(some trid, .commit)] ∧ l.Served task trid ∨ l.ended = [(some trid, .rollback)]

/-- The message that is dequeued. -/
def Round.dequeued (r : Round) : Option Message :=
  match r.dequeue.ask false with
  | .ok (.reply correlation (m :: _)) => if correlation = r.request then some m else none
  | _ => none

/-- Whether the reply of the service can be enqueued. -/
def Round.enqueues (r : Round) (reply : Call.Reply) : Bool := (release reply.buffer).isOk && (r.enqueue.ask true).isOk

/-- The reply leaves the transaction as it was: it names none, or one that is active. -/
def unmarked (reply : Call.Reply) : Bool := reply.transaction.trid.isNone || reply.transaction.state == .active

/-- The TM commits, what more than one process has worked in. -/
def commits (logged : Bool) (a : Tx.Answers) : Bool :=
  match a.commit with
  | none => false
  | some ⟨_, .prepare, state⟩ =>
    if logged then xaTotx state = TX_OK
    else match a.committed with
      | none => false
      | some state => xaTotx state = TX_OK
  | some ⟨_, _, state⟩ => xaTotx state = TX_OK

/-- The TM rolls back. -/
def rollsBack (a : Tx.Answers) : Bool := Tx.succeeds (Tx.rollbackAnswer a)

/-- The call context when the message has been dequeued. -/
def Forwarder.calling (s : Forwarder Sender) (r : Round) : Call.Context Sender :=
  { s.call with
    transactions := s.tx.transactions ++ [{ Tx.startTransaction r.created s.tx with resources := [s.rm] }] }

section

variable [DecidableEq Sender]

/-- What the service replies. -/
def answered (task : Task) (r : Round) (s : Forwarder Sender) (m : Message) : Option Call.Reply :=
  match r.insert, sync task r m.payload (s.calling r) with
  | .ok _, .ok reply _ => some reply
  | _, _ => none

/-- The message and the reply, when both come. -/
def exchange (task : Task) (r : Round) (s : Forwarder Sender) : Option (Message × Call.Reply) :=
  r.dequeued.bind fun m => (answered task r s m).map fun reply => (m, reply)

/-- The message and the reply, when the transaction is to be committed. -/
def committing (task : Task) (r : Round) (s : Forwarder Sender) : Option (Message × Call.Reply) :=
  (exchange task r s).filter fun (m, reply) => unmarked reply && (replyQueue task m == "" || r.enqueues reply)

/-- When a round comes to what it is to. A transaction that is left from before is not ended by another round. -/
def Round.meets (task : Task) (s : Forwarder Sender) (r : Round) : Bool :=
  s.tx.current.trid.isSome ||
    match committing task r s with
    | none => rollsBack r.answers
    | some (m, reply) =>
      reply.error == 0 && replyQueue task m == "" && reply.descriptor == (s.call.pending.reserve r.correlation).2 &&
        commits s.tx.logged r.answers

/-- A round does what it is to do. -/
def Event.meets (task : Task) (s : Forwarder Sender) : Event Sender → Bool
  | .perform r => r.meets task s
  | _ => true

end

/-! ## What is left as it was -/

/-- What a round keeps from the beginning of its transaction to the end. -/
structure Kept (s t : Forwarder Sender) : Prop where
  trids : t.tx.transactions.map (·.trid) = s.tx.transactions.map (·.trid)
  tx : (t.tx.process, t.tx.control, t.tx.logged, t.tx.dynamic) = (s.tx.process, s.tx.control, s.tx.logged, s.tx.dynamic)
  rm : t.rm = s.rm
  log : (t.log.trid, t.log.taken, t.log.ended) = (s.log.trid, s.log.taken, s.log.ended)
  history : t.history = s.history

instance : Std.Refl (Kept : Forwarder Sender → Forwarder Sender → Prop) := ⟨fun _ => ⟨rfl, rfl, rfl, rfl, rfl⟩⟩

instance : IsTrans (Forwarder Sender) Kept :=
  ⟨fun _ _ _ h h' => ⟨h'.trids.trans h.trids, h'.tx.trans h.tx, h'.rm.trans h.rm, h'.log.trans h.log,
    h'.history.trans h.history⟩⟩

theorem trids_setCurrent (s : Tx.Context) {t : Transaction} (h : t.trid = s.current.trid) :
    (s.setCurrent t).transactions.map (·.trid) = s.transactions.map (·.trid) := by
  unfold Tx.Context.setCurrent
  rcases List.eq_nil_or_concat' s.transactions with hnil | ⟨base, top, hconcat⟩
  · rw [hnil, List.getLast?_nil]
  · have htop : s.transactions.getLast? = some top := by rw [hconcat, List.getLast?_concat]
    rw [Tx.current_of_last htop] at h
    rw [htop]
    simp [Tx.Context.push, Tx.Context.pop, hconcat, h]

theorem kept_resource {x : Tx.M Int} {s : Forwarder Sender} (t : Transaction) (htrid : t.trid = s.tx.current.trid)
    (h : Tx.after (x s.tx) = s.tx ∨ Tx.after (x s.tx) = s.tx.setCurrent t) : Kept s { s with tx := Tx.after (x s.tx) } := by
  rcases h with h | h
  · rw [h]
    exact Std.Refl.refl s
  · rw [h]
    refine ⟨trids_setCurrent s.tx htrid, ?_, rfl, rfl, rfl⟩
    unfold Tx.Context.setCurrent
    cases s.tx.transactions.getLast? <;> rfl

theorem kept_axReg : Moves Kept (axReg : M Sender (Option Transaction.XID)) := by
  constructor
  intro s
  have hafter : after (axReg s) = { s with tx := Tx.after (Tx.resourceRegistration s.rm s.tx) } := by
    unfold axReg
    cases Tx.resourceRegistration s.rm s.tx <;> rfl
  rw [hafter]
  refine kept_resource { s.tx.current with resources := s.tx.current.resources ++ [s.rm] } rfl ?_
  unfold Tx.resourceRegistration
  split_ifs
  · exact .inl rfl
  · exact .inr rfl
  · exact .inl rfl

theorem kept_axUnreg : Moves Kept (axUnreg : M Sender Unit) := by
  constructor
  intro s
  refine kept_resource { s.tx.current with resources := s.tx.current.resources.erase s.rm } rfl ?_
  unfold Tx.resourceUnregistration
  split_ifs
  · exact .inr rfl
  · exact .inl rfl

theorem kept_registered {α : Type} {x : Option Transaction.XID → M Sender α} (h : ∀ trid, Moves Kept (x trid)) :
    Moves Kept (registered x) := by
  apply Moves.bind kept_axReg
  intro trid
  exact (h trid).onExit (.ite kept_axUnreg (.pure _))

theorem kept_ofExcept {α : Type} (x : Except Failure α) : Moves Kept (MonadExcept.ofExcept x : M Sender α) := by
  cases x with
  | ok a => exact .pure a
  | error e => exact .throw e

theorem kept_note {f : Log → Log} (h : ∀ l, ((f l).trid, (f l).taken, (f l).ended) = (l.trid, l.taken, l.ended)) :
    Moves Kept (note f : M Sender Unit) :=
  .modify fun _ => ⟨rfl, rfl, rfl, h _, rfl⟩

theorem kept_enqueue (r : Round) (queue : String) (payload : Payload) : Moves Kept (enqueue r queue payload : M Sender Unit) := by
  apply kept_registered
  intro trid
  exact .bind (kept_ofExcept _) fun _ => kept_note fun _ => rfl

section

variable [DecidableEq Sender]

theorem kept_sync (task : Task) (r : Round) (payload : Payload) :
    Moves Kept (onCall (sync task r payload) : M Sender Call.Reply) := by
  constructor
  intro s
  have h := @transactions_sync Sender _ r.env TPNOTIME r.correlation r.lookupCorrelation task.service
    ((inserted payload).getD nullPayload) (inserted payload) { s.call with transactions := s.tx.transactions } _ rfl
  unfold onCall sync
  cases hrun : Call.sync r.env r.lookupCorrelation r.correlation task.service ((inserted payload).getD nullPayload)
    (inserted payload) TPNOTIME { s.call with transactions := s.tx.transactions } with
  | ok reply call =>
    rw [hrun] at h
    exact ⟨(update_trids h).trans (reservedTransactions_trids _), rfl, rfl, rfl, rfl⟩
  | error e call =>
    rw [hrun] at h
    exact ⟨h, rfl, rfl, rfl, rfl⟩

theorem kept_caller (task : Task) (r : Round) (m : Message) : Moves Kept (caller task r m : M Sender Unit) := by
  refine .bind (kept_ofExcept _) fun _ => .bind (kept_sync task r _) fun reply => ?_
  refine .bind (kept_note fun _ => rfl) fun _ => .ite ?_ (.pure _)
  exact .bind (kept_ofExcept _) fun payload => kept_enqueue r _ payload

end

/-! ## A transaction that is under way -/

/-- What holds of a forwarder before a round: what is below the current transaction is null. -/
structure Sound (s : Forwarder Sender) : Prop where
  control : s.tx.control = .unchained
  dynamic : s.rm ∈ s.tx.dynamic
  below : ∀ t ∈ s.tx.transactions.dropLast, t.trid = none
  outside : s.tx.current.trid = none → s.tx.current.resources = []

/-- Without a current transaction all are null. -/
theorem Sound.nulls {s : Forwarder Sender} (hs : Sound s) (hnone : s.tx.current.trid = none) :
    ∀ t ∈ s.tx.transactions, t.trid = none := by
  intro t ht
  rcases List.eq_nil_or_concat' s.tx.transactions with hnil | ⟨base, top, hconcat⟩
  · rw [hnil] at ht
    cases ht
  · have htop : s.tx.current = top := Tx.current_of_last (by rw [hconcat, List.getLast?_concat])
    have hbelow := hs.below
    rw [hconcat, List.dropLast_concat] at hbelow
    rw [hconcat] at ht
    rcases List.mem_append.1 ht with ht | ht
    · exact hbelow t ht
    · rw [List.mem_singleton.1 ht, ← htop]
      exact hnone

/-- What holds when a transaction has been begun: it is current, and not ended. -/
structure Under (id : Transaction.ID) (s : Forwarder Sender) : Prop where
  control : s.tx.control = .unchained
  dynamic : s.rm ∈ s.tx.dynamic
  owner : id.owner = s.tx.process
  stack : ∃ n, s.tx.transactions.map (·.trid) = List.replicate n none ++ [some id]
  trid : s.log.trid = some id
  ended : s.log.ended = []

namespace Under

variable {id : Transaction.ID} {s t : Forwarder Sender}

theorem kept (h : Under id s) (hkept : Kept s t) : Under id t := by
  obtain ⟨htrids, htx, hrm, hlog, -⟩ := hkept
  simp only [Prod.mk.injEq] at htx hlog
  refine ⟨htx.2.1.trans h.control, ?_, h.owner.trans htx.1.symm, ?_, hlog.1.trans h.trid, hlog.2.2.trans h.ended⟩
  · rw [htx.2.2.2, hrm]
    exact h.dynamic
  · obtain ⟨n, hn⟩ := h.stack
    exact ⟨n, htrids.trans hn⟩

theorem concat (h : Under id s) : ∃ base top, s.tx.transactions = base ++ [top] ∧ s.tx.current = top ∧ top.trid = some id ∧
    ∀ t ∈ base, t.trid = none := by
  obtain ⟨n, hn⟩ := h.stack
  obtain ⟨base, last, hconcat, hbase, hlast⟩ := List.map_eq_append_iff.1 hn
  obtain ⟨top, rfl, htop⟩ := List.map_eq_singleton_iff.1 hlast
  refine ⟨base, top, hconcat, ?_, htop, fun t ht => ?_⟩
  · exact Tx.current_of_last (by rw [hconcat, List.getLast?_concat])
  · have hmem : t.trid ∈ base.map (·.trid) := List.mem_map_of_mem ht
    rw [hbase] at hmem
    exact List.eq_of_mem_replicate hmem

theorem current (h : Under id s) : s.tx.current.trid = some id := by
  obtain ⟨base, top, -, hcurrent, htop, -⟩ := h.concat
  rw [hcurrent, htop]

theorem sound (h : Under id s) : Sound s := by
  obtain ⟨base, top, hconcat, -, -, hbase⟩ := h.concat
  refine ⟨h.control, h.dynamic, ?_, fun hnone => ?_⟩
  · rw [hconcat, List.dropLast_concat]
    exact hbase
  · rw [h.current] at hnone
    cases hnone

end Under

/-- What a round leaves when it has tried to end its transaction, or not. -/
structure Left (id : Transaction.ID) (ending : Ending) (succeeded : Bool) (s t : Forwarder Sender) : Prop where
  sound : Sound t
  log : t.log = { s.log with ended := if succeeded then [(some id, ending)] else [] }
  history : t.history = s.history

section Ends

variable {id : Transaction.ID} {s : Forwarder Sender} {x : Tx.M Int} (ending : Ending)

theorem handler_ne (e : Tx.Exception) : handler e ≠ TX_OK := by
  cases e <;> decide

theorem txEnd_run (s : Forwarder Sender) : txEnd x ending s = .ok () (match x s.tx with
    | .ok result tx =>
      if result = TX_OK then { s with tx, log := { s.log with ended := s.log.ended ++ [(s.tx.current.trid, ending)] } }
      else { s with tx }
    | .error _ tx => { s with tx }) := by
  have hend : txEnd x ending s = (tx x >>= fun result => if result = TX_OK then
      note fun l => { l with ended := l.ended ++ [(s.tx.current.trid, ending)] } else pure () : M Sender Unit) s := rfl
  rw [hend]
  cases hx : x s.tx with
  | ok result t =>
    have htx : (tx x : M Sender Int) s = .ok result { s with tx := t } := by unfold tx; rw [hx]
    rw [bind_ok htx]
    dsimp only
    split_ifs
    · rfl
    · rfl
  | error e t =>
    have htx : (tx x : M Sender Int) s = .ok (handler e) { s with tx := t } := by unfold tx; rw [hx]
    rw [bind_ok htx, if_neg (handler_ne e)]
    rfl

/-- It is refused, and goes on. -/
theorem txEnd_refused (h : Under id s) {e : Tx.Exception} (hx : x s.tx = .error e s.tx) :
    ∃ t, txEnd x ending s = .ok () t ∧ Left id ending false s t := by
  refine ⟨s, by rw [txEnd_run, hx], h.sound, ?_, rfl⟩
  rw [if_neg Bool.false_ne_true, ← h.ended]

/-- The resources have been told, and it depends on what is answered. -/
theorem txEnd_completed (h : Under id s) {answer : Except Tx.Exception Int} {created : Transaction.XID} {flags : Tx.Flags}
    (hx : x s.tx = Tx.completed answer created (s.tx.resourcesEnd s.tx.current flags)) :
    ∃ t, txEnd x ending s = .ok () t ∧ Left id ending (Tx.succeeds answer) s t := by
  have hfailed : Sound { s with tx := s.tx.resourcesEnd s.tx.current flags } := by
    have hdynamic : (s.tx.resourcesEnd s.tx.current flags).dynamic = s.tx.dynamic := by
      unfold Tx.Context.resourcesEnd
      cases s.tx.current.trid <;> rfl
    refine (h.kept (t := { s with tx := s.tx.resourcesEnd s.tx.current flags }) ⟨?_, ?_, rfl, rfl, rfl⟩).sound
    · rw [Tx.resourcesEnd_transactions]
    · rw [Tx.resourcesEnd_process, Tx.resourcesEnd_control, hdynamic]
      unfold Tx.Context.resourcesEnd
      cases s.tx.current.trid <;> rfl
  have hnone : s.log = { s.log with ended := [] } := by rw [← h.ended]
  rw [txEnd_run, hx]
  unfold Tx.completed Tx.succeeds
  cases answer with
  | error e => exact ⟨_, rfl, hfailed, hnone, rfl⟩
  | ok result =>
    by_cases hresult : result = TX_OK
    · -- a null transaction takes its place
      obtain ⟨base, top, hconcat, hcurrent, htop, hbase⟩ := h.concat
      have hpop : Tx.popTransaction created (s.tx.resourcesEnd s.tx.current flags) =
          .ok TX_OK ((s.tx.resourcesEnd s.tx.current flags).pop.push (.make none)) := by
        unfold Tx.popTransaction
        rw [Tx.resourcesEnd_transactions, hconcat, List.getLast?_concat, Tx.resourcesEnd_control, h.control]
      refine ⟨_, rfl, ?_⟩
      simp only [hresult, if_true, hpop]
      refine ⟨⟨?_, ?_, ?_, ?_⟩, ?_, rfl⟩
      · exact hfailed.control
      · exact hfailed.dynamic
      · show ∀ t ∈ (_ ++ [_]).dropLast, _
        rw [List.dropLast_concat]
        exact hfailed.below
      · intro _
        rw [Tx.current_push]
        rfl
      · simp [h.ended, h.current]
    · refine ⟨_, rfl, ?_⟩
      simp only [hresult, if_false]
      exact ⟨hfailed, by simpa [hresult] using hnone, rfl⟩

theorem txRollback_spec (h : Under id s) (r : Round) :
    ∃ t, txRollback r s = .ok () t ∧ Left id .rollback (rollsBack r.answers) s t := by
  have hsome : s.tx.rollbackable = some id := by
    unfold Tx.Context.rollbackable
    rw [h.current, Option.filter_some, if_pos (decide_eq_true h.owner)]
  exact txEnd_completed .rollback h (Tx.rollback_some hsome).2

theorem succeeds_commitAnswer {t : Transaction} (hlocal : t.isLocal = false) (a : Tx.Answers) (s : Tx.Context) :
    Tx.succeeds (Tx.commitAnswer a t s) = commits s.logged a := by
  unfold Tx.commitAnswer commits
  rw [if_neg fun hl => Bool.false_ne_true (hlocal.symm.trans hl.1)]
  cases a.commit with
  | none => rfl
  | some reply =>
    obtain ⟨correlation, stage, state⟩ := reply
    cases stage with
    | prepare =>
      dsimp only
      split_ifs
      · rfl
      · cases a.committed <;> rfl
    | commit => rfl
    | error => rfl

/-- Only what waits for no reply is committed. -/
theorem txCommit_spec (h : Under id s) (hactive : s.tx.current.state = .active) (hlocal : s.tx.current.isLocal = false)
    (r : Round) : ∃ t, txCommit r s = .ok () t ∧
      Left id .commit (s.tx.current.descriptors == [] && commits s.tx.logged r.answers) s t := by
  by_cases hdescriptors : s.tx.current.descriptors = []
  · have hsome : s.tx.committable = some id := by
      unfold Tx.Context.committable
      rw [h.current, Option.filter_some, if_pos (decide_eq_true ⟨h.owner, hactive, hdescriptors⟩)]
    have hended := txEnd_completed .commit h (@Tx.commit_some r.answers r.chained s.tx id hsome).2
    rw [succeeds_commitAnswer hlocal] at hended
    rw [hdescriptors, beq_self_eq_true, Bool.true_and]
    exact hended
  · have hnone : s.tx.committable = none := by
      unfold Tx.Context.committable
      rw [h.current, Option.filter_some, if_neg]
      simp [hdescriptors]
    obtain ⟨e, herror, -⟩ := @Tx.commit_none r.answers r.chained s.tx hnone
    rw [beq_eq_false_iff_ne.2 hdescriptors, Bool.false_and]
    exact txEnd_refused .commit h herror

end Ends

/-! ## The message -/

/-- A transaction that is begun is on top of those there are. -/
def begun (r : Round) (s : Forwarder Sender) : Forwarder Sender :=
  { s with tx := Tx.started r.created s.tx, log := { Log.empty with trid := some ⟨r.created, s.tx.process⟩ } }

section Begun

variable {s : Forwarder Sender} (r : Round)

theorem begun_transactions : (begun r s).tx.transactions = s.tx.transactions ++ [Tx.startTransaction r.created s.tx] := by
  show (s.tx.resourcesStart _ _).transactions ++ _ = _
  rw [Tx.resourcesStart_transactions]

theorem txBegin_none (hs : Sound s) (hnone : s.tx.current.trid = none) :
    txBegin r { s with log := .empty } = .ok TX_OK (begun r s) := by
  have hbegin : (tx (Tx.begin r.created) : M Sender Int) { s with log := .empty } =
      .ok TX_OK { s with tx := Tx.started r.created s.tx, log := .empty } := by
    have hrun : Tx.begin r.created s.tx = .ok TX_OK (Tx.started r.created s.tx) := by
      unfold Tx.begin
      simp only [hnone, hs.outside hnone, Option.isSome_none, Bool.false_eq_true, if_false, ne_eq, not_true_eq_false]
    unfold tx
    rw [hrun]
  unfold txBegin
  rw [bind_ok hbegin]
  show EStateM.Result.ok TX_OK { s with
    tx := Tx.started r.created s.tx
    log := { Log.empty with trid := (Tx.started r.created s.tx).current.trid } } = _
  rw [show (Tx.started r.created s.tx).current = Tx.startTransaction r.created s.tx from Tx.current_push _ _]
  rfl

theorem txBegin_some {trid : Transaction.ID} (hs : Sound s) (hsome : s.tx.current.trid = some trid) :
    txBegin r s = .ok TX_PROTOCOL_ERROR s := by
  have hbegin : (tx (Tx.begin r.created) : M Sender Int) s = .ok TX_PROTOCOL_ERROR s := by
    have hrun : Tx.begin r.created s.tx = .error .protocol s.tx := by
      unfold Tx.begin
      simp [hsome, hs.control]
    unfold tx
    rw [hrun]
    rfl
  unfold txBegin
  rw [bind_ok hbegin]
  rfl

theorem under_begun (hs : Sound s) (hnone : s.tx.current.trid = none) : Under ⟨r.created, s.tx.process⟩ (begun r s) := by
  have hnulls : s.tx.transactions.map (·.trid) = List.replicate s.tx.transactions.length none := by
    rw [List.eq_replicate_iff]
    refine ⟨List.length_map _, fun trid htrid => ?_⟩
    obtain ⟨t, ht, rfl⟩ := List.mem_map.1 htrid
    exact hs.nulls hnone t ht
  have hcontrol : (begun r s).tx.control = s.tx.control := rfl
  refine ⟨?_, ?_, ?_, ⟨s.tx.transactions.length, ?_⟩, rfl, rfl⟩
  · exact hcontrol.trans hs.control
  · exact hs.dynamic
  · exact (Tx.resourcesStart_process _ _ _).symm
  · rw [begun_transactions, List.map_append, hnulls]
    rfl

end Begun

/-- The resource of the queues is registered in the transaction. -/
def joined (r : Round) (s : Forwarder Sender) : Forwarder Sender :=
  { begun r s with tx := { (begun r s).tx with
      transactions := s.tx.transactions ++ [{ Tx.startTransaction r.created s.tx with resources := [s.rm] }] } }

/-- A message has been dequeued. -/
def holding (r : Round) (m : Message) (s : Forwarder Sender) : Forwarder Sender :=
  { joined r s with log := { (joined r s).log with taken := some (m, some r.created) } }

section Dequeue

variable {s : Forwarder Sender} (r : Round)

theorem axReg_begun (hs : Sound s) : axReg (begun r s) = .ok (some r.created) (joined r s) := by
  have hcurrent : (begun r s).tx.current = Tx.startTransaction r.created s.tx := Tx.current_push _ _
  have hset : (begun r s).tx.setCurrent { Tx.startTransaction r.created s.tx with resources := [s.rm] } = (joined r s).tx := by
    unfold Tx.Context.setCurrent
    rw [begun_transactions, List.getLast?_concat]
    unfold Tx.Context.push Tx.Context.pop
    rw [begun_transactions, List.dropLast_concat]
    rfl
  have hregistration : Tx.resourceRegistration (begun r s).rm (begun r s).tx = .ok Tx.TM_OK (joined r s).tx := by
    have hdynamic : (begun r s).rm ∈ (begun r s).tx.dynamic := hs.dynamic
    have hnot : (begun r s).rm ∉ (Tx.startTransaction r.created s.tx).resources := List.not_mem_nil
    unfold Tx.resourceRegistration
    rw [if_neg (not_not.2 hdynamic), hcurrent, if_neg hnot, ← hset]
    rfl
  unfold axReg
  rw [hregistration, hcurrent]
  rfl

theorem kept_joined (hs : Sound s) : Kept (begun r s) (joined r s) := by
  have h : Kept (begun r s) (after (axReg (begun r s))) := kept_axReg.after _
  rw [axReg_begun r hs] at h
  exact h

theorem registered_some {α : Type} {x : Option Transaction.XID → M Sender α} {xid : Transaction.XID} {s t : Forwarder Sender}
    (h : axReg s = .ok (some xid) t) : registered x s = x (some xid) t := by
  unfold registered
  rw [bind_ok h]
  unfold onExit
  rw [if_neg (Option.some_ne_none xid)]
  cases x (some xid) t <;> rfl

theorem after_ofExcept {α : Type} (x : Except Failure α) (s : Forwarder Sender) :
    after ((MonadExcept.ofExcept x : M Sender α) s) = s := by
  cases x <;> rfl

theorem received_run (trid : Option Transaction.XID) (x : Received) (s : Forwarder Sender) : received r trid x s = match x with
    | .reply correlation message =>
      if correlation = r.request then
        .ok message { s with log := { s.log with taken := message.head?.map fun m => (m, trid) } }
      else .error .other s
    | .shutdown => .error .shutdown s := by
  cases x with
  | shutdown => rfl
  | reply correlation message =>
    unfold received
    by_cases h : correlation = r.request
    · dsimp only
      rw [if_pos h, if_neg (not_not.2 h)]
      rfl
    · dsimp only
      rw [if_neg h, if_pos h]
      rfl

theorem dequeue_run (hs : Sound s) : dequeue r (begun r s) = match r.dequeue.ask false with
    | .ok (.reply correlation message) =>
      if correlation = r.request then
        .ok message { joined r s with log := { (joined r s).log with taken := message.head?.map fun m => (m, some r.created) } }
      else .error .other (joined r s)
    | .ok .shutdown => .error .shutdown (joined r s)
    | .error e => .error e (joined r s) := by
  unfold dequeue
  rw [registered_some (axReg_begun r hs)]
  unfold onError
  cases r.dequeue.ask false with
  | error e =>
    show EStateM.Result.error e (after (_ : EStateM.Result _ _ _)) = _
    rw [after_ofExcept]
  | ok x =>
    have hreceived : (do received r (some r.created) (← MonadExcept.ofExcept (Except.ok x)) : M Sender (List Message)) (joined r s) =
        received r (some r.created) x (joined r s) := rfl
    rw [hreceived, received_run]
    cases x with
    | shutdown =>
      show EStateM.Result.error _ (after (_ : EStateM.Result _ _ _)) = _
      rw [after_ofExcept]
    | reply correlation message =>
      by_cases h : correlation = r.request
      · dsimp only
        rw [if_pos h]
      · dsimp only
        rw [if_neg h]
        show EStateM.Result.error _ (after (_ : EStateM.Result _ _ _)) = _
        rw [after_ofExcept]

/-- It returns the message, or throws with nothing done but the registration. -/
theorem blockingDequeue_run (hs : Sound s) : match r.dequeued with
    | some m => blockingDequeue r (begun r s) = .ok m (holding r m s)
    | none => ∃ e, blockingDequeue r (begun r s) = .error e (joined r s) := by
  have hrun := dequeue_run r hs
  unfold Round.dequeued blockingDequeue
  cases hask : r.dequeue.ask false with
  | error e =>
    rw [hask] at hrun
    exact ⟨e, bind_error hrun⟩
  | ok x =>
    rw [hask] at hrun
    cases x with
    | shutdown => exact ⟨_, bind_error hrun⟩
    | reply correlation message =>
      dsimp only at hrun
      split_ifs at hrun with hrequest
      · cases message with
        | nil => exact ⟨.other, bind_ok hrun⟩
        | cons m rest =>
          dsimp only
          rw [if_pos hrequest]
          exact bind_ok hrun
      · cases message with
        | nil => exact ⟨_, bind_error hrun⟩
        | cons m rest =>
          dsimp only
          rw [if_neg hrequest]
          exact ⟨_, bind_error hrun⟩

end Dequeue

/-! ## The call -/

/-- What the reply of a call has left of a transaction: `descriptor` is that of the call. -/
structure Replied (rm descriptor : Nat) (reply : Call.Reply) (t : Transaction) : Prop where
  resources : t.resources = [rm]
  isLocal : t.isLocal = false
  state : t.state = .active ↔ unmarked reply = true
  descriptors : t.descriptors = [] ↔ reply.descriptor = descriptor

theorem modify_concat {α : Type} (f : α → α) (a : α) : ∀ l : List α, (l ++ [a]).modify l.length f = l ++ [f a]
  | [] => rfl
  | b :: l => congrArg (b :: ·) (modify_concat f a l)

/-- The transaction that is updated is the last, where the others are null. -/
theorem update_last {base us : List Transaction} {top : Transaction} {outcome : Outcome} {descriptor : Nat}
    (hbase : ∀ t ∈ base, t.trid = none) (h : Call.update outcome descriptor (base ++ [top]) = some us) :
    ∃ base' state, us = base' ++ [{ top with state }.discard descriptor] ∧
      state = if outcome.trid.isSome ∧ top.state.value < outcome.state.value then outcome.state else top.state := by
  unfold Call.update at h
  cases htrid : outcome.trid with
  | none =>
    rw [htrid] at h
    obtain rfl := Option.some.inj h
    exact ⟨base.map (·.discard descriptor), top.state, by simp, by simp⟩
  | some id =>
    rw [htrid] at h
    obtain ⟨found, hfound, rfl⟩ := Option.map_eq_some_iff.1 h
    have hnot : base.findIdx? (·.is id) = none := by
      rw [List.findIdx?_eq_none_iff]
      intro t ht
      unfold Transaction.is
      rw [hbase t ht]
      rfl
    have hlast : found = base.length := by
      rw [List.findIdx?_append, hnot, List.findIdx?_singleton] at hfound
      split_ifs at hfound
      · simpa using hfound.symm
      · cases hfound
    rw [hlast, modify_concat]
    refine ⟨base, _, ?_, rfl⟩
    by_cases hless : top.state.value < outcome.state.value
    · simp [hless]
    · simp [hless]

section

variable [DecidableEq Sender] {s : Forwarder Sender} (task : Task) (r : Round)

theorem replied_of_sync (hs : Sound s) (hnone : s.tx.current.trid = none) {payload : Payload} {reply : Call.Reply}
    {call : Call.Context Sender} (h : sync task r payload (s.calling r) = .ok reply call) : ∃ base top,
    call.transactions = base ++ [top] ∧ Replied s.rm (s.call.pending.reserve r.correlation).2 reply top := by
  have hupdate := @transactions_sync Sender _ r.env TPNOTIME r.correlation r.lookupCorrelation task.service
    ((inserted payload).getD nullPayload) (inserted payload) (s.calling r) _ rfl
  unfold sync at h
  rw [h] at hupdate
  have hassociates : associates (~~~ TPNOBLOCK &&& TPNOTIME) (s.calling r).transactions = true := by
    unfold associates Forwarder.calling
    rw [List.getLast?_concat]
    rfl
  unfold reservedTransactions at hupdate
  rw [if_pos hassociates] at hupdate
  dsimp only [Forwarder.calling] at hupdate
  rw [associate_concat _ _ (Option.some_ne_none _)] at hupdate
  obtain ⟨base, state, hus, hstate⟩ := update_last (hs.nulls hnone) hupdate
  refine ⟨base, _, hus, rfl, rfl, ?_, ?_⟩
  · have hmarked : state = if reply.transaction.trid.isSome ∧ Transaction.State.active.value < reply.transaction.state.value then
        reply.transaction.state else .active := hstate
    show state = .active ↔ _
    rw [hmarked]
    unfold unmarked
    cases reply.transaction.trid <;> cases reply.transaction.state <;> simp [Transaction.State.value]
  · show [(s.call.pending.reserve r.correlation).2].filter (· != reply.descriptor) = [] ↔ _
    rw [List.filter_eq_nil_iff, List.forall_mem_singleton, bne_iff_ne, not_not]
    exact eq_comm

/-- The call has returned, and the reply is enqueued if it is to be, which is outside of the transaction. -/
structure Returned (r : Round) (m : Message) (reply : Call.Reply) (s t : Forwarder Sender) : Prop where
  kept : Kept (holding r m s) t
  replied : t.log.reply = some reply
  enqueued : ∀ e ∈ t.log.enqueued, e.trid = none
  current : Replied s.rm (s.call.pending.reserve r.correlation).2 reply t.tx.current

omit [DecidableEq Sender] in
theorem under_holding (hs : Sound s) (hnone : s.tx.current.trid = none) (m : Message) :
    Under ⟨r.created, s.tx.process⟩ (holding r m s) := by
  obtain ⟨hcontrol, hdynamic, howner, hstack, htrid, hended⟩ := (under_begun r hs hnone).kept (kept_joined r hs)
  exact ⟨hcontrol, hdynamic, howner, hstack, htrid, hended⟩

omit [DecidableEq Sender] in
/-- The resource is registered, so the id is not given again. -/
theorem enqueue_run {id : Transaction.ID} {u : Forwarder Sender} (h : Under id u) (hmem : u.rm ∈ u.tx.current.resources)
    (queue : String) (payload : Payload) : enqueue r queue payload u = match r.enqueue.ask true with
      | .ok _ => .ok () { u with log := { u.log with enqueued := u.log.enqueued ++ [⟨queue, none, payload⟩] } }
      | .error e => .error e u := by
  have hreg : axReg u = .ok none u := by
    unfold axReg Tx.resourceRegistration
    rw [if_neg (not_not.2 h.dynamic), if_pos hmem]
    rfl
  have hunreg : ∀ v : Forwarder Sender, v.tx = u.tx → v.rm = u.rm → after (axUnreg v) = v := by
    intro v htx hrm
    have hnot : ¬ (v.tx.current.trid = none ∧ v.rm ∈ v.tx.current.resources) := by
      rw [htx, h.current]
      exact fun hv => Option.some_ne_none _ hv.1
    show { v with tx := Tx.after (Tx.resourceUnregistration v.rm v.tx) } = v
    unfold Tx.resourceUnregistration
    rw [if_neg hnot]
    rfl
  unfold enqueue registered
  rw [bind_ok hreg]
  unfold onExit
  rw [if_pos rfl]
  cases r.enqueue.ask true with
  | error e => exact congrArg (EStateM.Result.error e) (hunreg u rfl rfl)
  | ok _ => exact congrArg (EStateM.Result.ok ()) (hunreg _ rfl rfl)

/-- The call has returned its reply. -/
def called (r : Round) (m : Message) (reply : Call.Reply) (call : Call.Context Sender) (s : Forwarder Sender) : Forwarder Sender :=
  { holding r m s with
    call
    tx := { (holding r m s).tx with transactions := call.transactions }
    log := { (holding r m s).log with reply := some reply } }

theorem onCall_sync (m : Message) : onCall (sync task r m.payload) (holding r m s) = match sync task r m.payload (s.calling r) with
    | .ok reply call => .ok reply { holding r m s with call, tx := { (holding r m s).tx with transactions := call.transactions } }
    | .error _ call => .error .other
        { holding r m s with call, tx := { (holding r m s).tx with transactions := call.transactions } } := by
  have hcalling : { (holding r m s).call with transactions := (holding r m s).tx.transactions } = s.calling r := rfl
  unfold onCall
  rw [hcalling]
  cases sync task r m.payload (s.calling r) <;> rfl

theorem kept_called {m : Message} {reply : Call.Reply} {call : Call.Context Sender}
    (h : sync task r m.payload (s.calling r) = .ok reply call) : Kept (holding r m s) (called r m reply call s) := by
  have hkept := (kept_sync task r m.payload).after (holding r m s)
  rw [onCall_sync, h] at hkept
  exact ⟨hkept.trids, hkept.tx, hkept.rm, hkept.log, hkept.history⟩

/-- `Caller` fails before it has a reply, or goes on with it. -/
theorem caller_run (m : Message) : match answered task r s m with
    | none => ∃ e t, caller task r m (holding r m s) = .error e t
    | some reply => ∃ call, sync task r m.payload (s.calling r) = .ok reply call ∧
        caller task r m (holding r m s) = (if replyQueue task m ≠ "" then
            MonadExcept.ofExcept (release reply.buffer) >>= enqueue r (replyQueue task m)
          else pure ()) (called r m reply call s) := by
  have hcall := onCall_sync task r (s := s) m
  unfold answered caller
  cases r.insert with
  | error e => exact ⟨e, _, rfl⟩
  | ok _ =>
    have hinsert : (MonadExcept.ofExcept (.ok ()) : M Sender Unit) (holding r m s) = .ok () (holding r m s) := rfl
    cases hsync : sync task r m.payload (s.calling r) with
    | error e call =>
      rw [hsync] at hcall
      exact ⟨.other, _, (bind_ok hinsert).trans (bind_error hcall)⟩
    | ok reply call =>
      rw [hsync] at hcall
      exact ⟨call, rfl, (bind_ok hinsert).trans (bind_ok hcall)⟩

theorem caller_spec (hs : Sound s) (hnone : s.tx.current.trid = none) (m : Message) : match answered task r s m with
    | none => ∃ e t, caller task r m (holding r m s) = .error e t ∧ Kept (holding r m s) t
    | some reply =>
      if replyQueue task m = "" ∨ r.enqueues reply = true then
        ∃ t, caller task r m (holding r m s) = .ok () t ∧ Returned r m reply s t
      else ∃ e t, caller task r m (holding r m s) = .error e t ∧ Kept (holding r m s) t := by
  have hkept := (kept_caller task r m).after (holding r m s)
  have hrun := caller_run task r (s := s) m
  cases hanswered : answered task r s m with
  | none =>
    rw [hanswered] at hrun
    obtain ⟨e, t, herror⟩ := hrun
    rw [herror] at hkept
    exact ⟨e, t, herror, hkept⟩
  | some reply =>
    rw [hanswered] at hrun
    obtain ⟨call, hsync, hrun⟩ := hrun
    obtain ⟨base, top, hconcat, htop⟩ := replied_of_sync task r hs hnone hsync
    have hcurrent : (called r m reply call s).tx.current = top :=
      Tx.current_of_last (by show call.transactions.getLast? = _; rw [hconcat, List.getLast?_concat])
    have hunder : Under ⟨r.created, s.tx.process⟩ (called r m reply call s) :=
      (under_holding r hs hnone m).kept (kept_called task r hsync)
    have hmem : (called r m reply call s).rm ∈ (called r m reply call s).tx.current.resources := by
      rw [hcurrent, htop.resources]
      exact List.mem_singleton_self _
    have hreturned : ∀ {t : Forwarder Sender}, caller task r m (holding r m s) = .ok () t → t.tx = (called r m reply call s).tx →
        t.log.reply = some reply → (∀ e ∈ t.log.enqueued, e.trid = none) → Returned r m reply s t := by
      intro t hok htx hreply henqueued
      rw [hok] at hkept
      refine ⟨hkept, hreply, henqueued, ?_⟩
      rw [htx, hcurrent]
      exact htop
    have hfailed : ∀ {e : Failure} {t : Forwarder Sender}, caller task r m (holding r m s) = .error e t →
        Kept (holding r m s) t := by
      intro e t herror
      rw [herror] at hkept
      exact hkept
    dsimp only
    by_cases hempty : replyQueue task m = ""
    · rw [if_neg (not_not.2 hempty)] at hrun
      rw [if_pos (.inl hempty)]
      exact ⟨_, hrun, hreturned hrun rfl rfl (List.forall_mem_nil _)⟩
    · rw [if_pos hempty] at hrun
      unfold Round.enqueues
      cases hrelease : release reply.buffer with
      | error e =>
        rw [hrelease] at hrun
        have herror := hrun.trans (bind_error rfl)
        rw [if_neg (by simp [hempty, Except.isOk, Except.toBool])]
        exact ⟨e, _, herror, hfailed herror⟩
      | ok payload =>
        have henqueue := enqueue_run r hunder hmem (replyQueue task m) payload
        rw [hrelease] at hrun
        have hrun := hrun.trans (bind_ok rfl)
        rw [henqueue] at hrun
        cases hask : r.enqueue.ask true with
        | error e =>
          rw [hask] at hrun
          rw [if_neg (by simp [hempty, Except.isOk, Except.toBool])]
          exact ⟨e, _, hrun, hfailed hrun⟩
        | ok _ =>
          rw [hask] at hrun
          rw [if_pos (.inr rfl)]
          refine ⟨_, hrun, hreturned hrun rfl rfl fun e he => ?_⟩
          rw [List.mem_singleton.1 he]

/-! ## A round -/

/-- The transaction is under way, and is not to be committed. -/
structure Aborted (id : Transaction.ID) (s t : Forwarder Sender) : Prop where
  under : Under id t
  taken : ∀ x ∈ t.log.taken, x.2 = some id.xid
  history : t.history = s.history

omit [DecidableEq Sender] in
theorem aborted_of_kept (hs : Sound s) (hnone : s.tx.current.trid = none) {m : Message} {t : Forwarder Sender}
    (h : Kept (holding r m s) t) : Aborted ⟨r.created, s.tx.process⟩ s t := by
  refine ⟨(under_holding r hs hnone m).kept h, fun x hx => ?_, h.history⟩
  have hlog := h.log
  simp only [Prod.mk.injEq] at hlog
  rw [hlog.2.1] at hx
  obtain rfl := Option.some.inj hx
  rfl

theorem transact_spec (hs : Sound s) (hnone : s.tx.current.trid = none) : match committing task r s with
    | none => ∃ t, Aborted ⟨r.created, s.tx.process⟩ s t ∧
        ((∃ e, transact task r (begun r s) = .error e t) ∨ transact task r (begun r s) = .ok false t)
    | some (m, reply) => ∃ u t, Returned r m reply s u ∧ transact task r (begun r s) = .ok true t ∧
        Left ⟨r.created, s.tx.process⟩ .commit
          (reply.descriptor == (s.call.pending.reserve r.correlation).2 && commits s.tx.logged r.answers) u t := by
  have hdequeue := blockingDequeue_run r hs
  unfold committing exchange
  cases hdequeued : r.dequeued with
  | none =>
    rw [hdequeued] at hdequeue
    obtain ⟨e, herror⟩ := hdequeue
    rw [Option.bind_none, Option.filter_none]
    exact ⟨_, ⟨(under_begun r hs hnone).kept (kept_joined r hs), nofun, rfl⟩, .inl ⟨e, bind_error herror⟩⟩
  | some m =>
    rw [hdequeued] at hdequeue
    rw [Option.bind_some]
    have hcaller := caller_spec task r hs hnone m
    cases hanswered : answered task r s m with
    | none =>
      rw [hanswered] at hcaller
      obtain ⟨e, t, herror, hkept⟩ := hcaller
      rw [Option.map_none, Option.filter_none]
      exact ⟨t, aborted_of_kept r hs hnone hkept, .inl ⟨e, (bind_ok hdequeue).trans (bind_error herror)⟩⟩
    | some reply =>
      rw [hanswered] at hcaller
      dsimp only at hcaller
      rw [Option.map_some, Option.filter_some]
      split_ifs at hcaller with henqueues
      · obtain ⟨u, hok, hreturned⟩ := hcaller
        have hunder := (aborted_of_kept r hs hnone hreturned.kept).under
        have hinfo : transact task r (begun r s) = (if u.tx.current.state = .active then do
            txCommit r
            return true
          else return false : M Sender Bool) u := (bind_ok hdequeue).trans (bind_ok hok)
        by_cases hunmarked : unmarked reply = true
        · have hstate := hreturned.current.state.2 hunmarked
          rw [if_pos hstate] at hinfo
          obtain ⟨t, hcommit, hleft⟩ := txCommit_spec hunder hstate hreturned.current.isLocal r
          have hlogged : u.tx.logged = s.tx.logged := by
            have htx := hreturned.kept.tx
            simp only [Prod.mk.injEq] at htx
            exact htx.2.2.1
          have hdescriptors : (u.tx.current.descriptors == []) = (reply.descriptor == (s.call.pending.reserve r.correlation).2) := by
            rw [Bool.eq_iff_iff, beq_iff_eq, beq_iff_eq]
            exact hreturned.current.descriptors
          rw [hdescriptors, hlogged] at hleft
          rw [if_pos (by simpa [hunmarked] using henqueues)]
          exact ⟨u, t, hreturned, hinfo.trans (bind_ok hcommit), hleft⟩
        · rw [if_neg fun hstate => hunmarked (hreturned.current.state.1 hstate)] at hinfo
          rw [if_neg (by simp [hunmarked])]
          exact ⟨u, aborted_of_kept r hs hnone hreturned.kept, .inr hinfo⟩
      · obtain ⟨e, t, herror, hkept⟩ := hcaller
        rw [if_neg (by simpa using fun _ => henqueues)]
        exact ⟨t, aborted_of_kept r hs hnone hkept, .inl ⟨e, (bind_ok hdequeue).trans (bind_error herror)⟩⟩

/-- A round in which a transaction can be begun: it is committed or rolled back, as far as the TM does that. -/
theorem perform_spec (hs : Sound s) (hnone : s.tx.current.trid = none) : match committing task r s with
    | none => ∃ more u t, Aborted ⟨r.created, s.tx.process⟩ s u ∧ perform task r { s with log := .empty } = .ok more t ∧
        Left ⟨r.created, s.tx.process⟩ .rollback (rollsBack r.answers) u t
    | some (m, reply) => ∃ u t, Returned r m reply s u ∧ perform task r { s with log := .empty } = .ok true t ∧
        Left ⟨r.created, s.tx.process⟩ .commit
          (reply.descriptor == (s.call.pending.reserve r.correlation).2 && commits s.tx.logged r.answers) u t := by
  have hbegun : (do
        if (← txBegin r) ≠ TX_OK then return false
        let released ← onError (transact task r) (txRollback r)
        if released = false then txRollback r
        return true : M Sender Bool) { s with log := .empty } =
      (do
        let released ← onError (transact task r) (txRollback r)
        if released = false then txRollback r
        return true : M Sender Bool) (begun r s) := by
    rw [bind_ok (txBegin_none r hs hnone), if_neg (not_not.2 rfl)]
  have htransact := transact_spec task r hs hnone
  unfold perform
  cases hcommitting : committing task r s with
  | none =>
    rw [hcommitting] at htransact
    obtain ⟨u, haborted, htransact⟩ := htransact
    obtain ⟨t, hrollback, hleft⟩ := txRollback_spec haborted.under r
    rcases htransact with ⟨e, herror⟩ | hok
    · -- the guard rolls back
      have hguard : onError (transact task r) (txRollback r) (begun r s) = .error e t := by
        unfold onError
        rw [herror]
        exact congrArg (EStateM.Result.error e) (congrArg after hrollback)
      exact ⟨false, u, t, haborted, tryCatch_error (hbegun.trans (bind_error hguard)), hleft⟩
    · have hguard : onError (transact task r) (txRollback r) (begun r s) = .ok false u := by
        unfold onError
        rw [hok]
      have hdone : (do
          if false = false then txRollback r
          return true : M Sender Bool) u = .ok true t := bind_ok hrollback
      exact ⟨true, u, t, haborted, tryCatch_ok (hbegun.trans ((bind_ok hguard).trans hdone)), hleft⟩
  | some x =>
    rw [hcommitting] at htransact
    obtain ⟨u, t, hreturned, hok, hleft⟩ := htransact
    have hguard : onError (transact task r) (txRollback r) (begun r s) = .ok true t := by
      unfold onError
      rw [hok]
    exact ⟨u, t, hreturned, tryCatch_ok (hbegun.trans (bind_ok hguard)), hleft⟩

/-! ## Which rounds come to what they are to -/

section Left

variable {id : Transaction.ID} {ending : Ending} {succeeded : Bool} {t u : Forwarder Sender}

omit [DecidableEq Sender] in
theorem forwarded_left (h : Left id ending succeeded u t) (ha : Aborted id s u) :
    t.log.Forwarded task ↔ succeeded = true ∧ (ending = .commit → t.log.Served task id) := by
  have htrid : t.log.trid = some id := by
    rw [h.log]
    exact ha.under.trid
  have hended : t.log.ended = if succeeded then [(some id, ending)] else [] := by rw [h.log]
  constructor
  · intro hforwarded
    have hid := hforwarded.ended id htrid
    cases succeeded with
    | false =>
      rw [hended, if_neg Bool.false_ne_true] at hid
      rcases hid with ⟨hcommit, -⟩ | hrollback
      · cases hcommit
      · cases hrollback
    | true =>
      refine ⟨rfl, fun hending => ?_⟩
      rw [hended, if_pos rfl, hending] at hid
      rcases hid with ⟨-, hserved⟩ | hrollback
      · exact hserved
      · cases hrollback
  · rintro ⟨rfl, hserved⟩
    rw [if_pos rfl] at hended
    have hid : ∀ trid ∈ t.log.trid, trid = id := fun trid h => Option.some.inj (h.symm.trans htrid)
    constructor
    · intro trid hmem x hx
      rw [h.log] at hx
      rw [hid trid hmem]
      exact ha.taken x hx
    · intro trid hmem
      rw [hid trid hmem]
      cases ending with
      | commit => exact .inl ⟨hended, hserved rfl⟩
      | rollback => exact .inr hended

omit [DecidableEq Sender] in
/-- A reply is never enqueued in the transaction. -/
theorem served_left {m : Message} {reply : Call.Reply} (hleft : Left id ending succeeded u t) (h : Returned r m reply s u) :
    t.log.Served task ⟨r.created, s.tx.process⟩ ↔ reply.error = 0 ∧ replyQueue task m = "" := by
  have hlog := h.kept.log
  simp only [Prod.mk.injEq] at hlog
  have htaken : u.log.taken = some (m, some r.created) := hlog.2.1
  rw [hleft.log]
  constructor
  · rintro ⟨m', reply', htaken', hreply', herror, henqueued⟩
    obtain ⟨rfl, -⟩ := Prod.mk.inj (Option.some.inj (htaken.symm.trans htaken'))
    obtain rfl := Option.some.inj (h.replied.symm.trans hreply')
    refine ⟨herror, ?_⟩
    by_contra hqueue
    obtain ⟨payload, -, hmem⟩ := henqueued hqueue
    cases h.enqueued _ hmem
  · rintro ⟨herror, hqueue⟩
    exact ⟨m, reply, htaken, h.replied, herror, fun hne => absurd hqueue hne⟩

end Left

theorem round_spec (hs : Sound s) : Sound (s.round task r) ∧
    (s.round task r).history = s.history ++ [(s.round task r).log] ∧
    ((s.round task r).log.Forwarded task ↔ r.meets task s = true) := by
  have hround : ∀ {more : Bool} {t : Forwarder Sender}, perform task r { s with log := .empty } = .ok more t →
      s.round task r = { t with history := t.history ++ [t.log], running := more } := by
    intro more t h
    unfold Forwarder.round
    rw [h]
    rfl
  have hsound : ∀ {more : Bool} {t : Forwarder Sender}, Sound t →
      Sound { t with history := t.history ++ [t.log], running := more } := fun ht => ⟨ht.control, ht.dynamic, ht.below, ht.outside⟩
  unfold Round.meets
  cases hcurrent : s.tx.current.trid with
  | some trid =>
    have hempty : Sound { s with log := .empty } := ⟨hs.control, hs.dynamic, hs.below, hs.outside⟩
    have hperform : perform task r { s with log := .empty } = .ok false { s with log := .empty } := by
      unfold perform
      refine tryCatch_ok ((bind_ok (txBegin_some r hempty hcurrent)).trans ?_)
      rw [if_pos (by decide)]
      rfl
    rw [hround hperform]
    exact ⟨hsound hempty, rfl, iff_of_true ⟨nofun, nofun⟩ rfl⟩
  | none =>
    have hspec := perform_spec task r hs hcurrent
    rw [Option.isSome_none, Bool.false_or]
    cases hcommitting : committing task r s with
    | none =>
      rw [hcommitting] at hspec
      obtain ⟨more, u, t, haborted, hperform, hleft⟩ := hspec
      rw [hround hperform]
      refine ⟨hsound hleft.sound, ?_, ?_⟩
      · show t.history ++ _ = _
        rw [hleft.history, haborted.history]
      · show t.log.Forwarded task ↔ _
        rw [forwarded_left task hleft haborted]
        exact ⟨And.left, fun h => ⟨h, (nofun)⟩⟩
    | some x =>
      obtain ⟨m, reply⟩ := x
      rw [hcommitting] at hspec
      obtain ⟨u, t, hreturned, hperform, hleft⟩ := hspec
      have haborted := aborted_of_kept r hs hcurrent hreturned.kept
      rw [hround hperform]
      refine ⟨hsound hleft.sound, ?_, ?_⟩
      · show t.history ++ _ = _
        rw [hleft.history, haborted.history]
      · show t.log.Forwarded task ↔ _
        rw [forwarded_left task hleft haborted, served_left task r hleft hreturned]
        simp only [Bool.and_eq_true, beq_iff_eq, forall_const]
        tauto

end

/-! ## Runs -/

theorem sound_fresh (process : Process) {rm : Nat} {dynamic : List Nat} (fixed : List Nat) (h : rm ∈ dynamic) :
    Sound (Forwarder.fresh process rm dynamic fixed : Forwarder Sender) :=
  ⟨rfl, h, List.forall_mem_nil _, fun _ => rfl⟩

section

variable [DecidableEq Sender] (task : Task) (size : TransportSize)

theorem sound_step {s : Forwarder Sender} (hs : Sound s) (e : Event Sender) : Sound (s.step task size e) := by
  cases e with
  | send sender m => exact ⟨hs.control, hs.dynamic, hs.below, hs.outside⟩
  | put sender => exact ⟨hs.control, hs.dynamic, hs.below, hs.outside⟩
  | perform r => exact (round_spec task r hs).1

theorem sound_of_reachable {s : Forwarder Sender} (h : (Forwarder.machine task size).Reachable s) : Sound s := by
  refine h.invariant (I := Sound) ?_ fun t e ht _ => sound_step task size ht e
  rintro _ ⟨process, rm, dynamic, fixed, hmem, rfl⟩
  exact sound_fresh process fixed hmem

/-- In every run whose rounds meet the condition each transaction is committed or rolled back as it is to be; and a
round comes to that only if it meets it. -/
theorem forwarded_iff :
    (∀ s : Forwarder Sender, ((Forwarder.machine task size).restrict fun s e => e.meets task s = true).Reachable s →
      ∀ l ∈ s.history, l.Forwarded task) ∧
    ∀ (s : Forwarder Sender) (r : Round), (Forwarder.machine task size).Reachable s →
      ((s.step task size (.perform r)).log.Forwarded task ↔ r.meets task s = true) := by
  constructor
  · intro s h
    have hinvariant : Sound s ∧ ∀ l ∈ s.history, l.Forwarded task := by
      refine h.invariant (I := fun s => Sound s ∧ ∀ l ∈ s.history, l.Forwarded task) ?_ ?_
      · rintro _ ⟨process, rm, dynamic, fixed, hmem, rfl⟩
        exact ⟨sound_fresh process fixed hmem, List.forall_mem_nil _⟩
      · rintro t e ⟨ht, hhistory⟩ ⟨-, hmeets⟩
        refine ⟨sound_step task size ht e, ?_⟩
        cases e with
        | send sender m => exact hhistory
        | put sender => exact hhistory
        | perform r =>
          obtain ⟨-, hlog, hforwarded⟩ := round_spec task r ht
          intro l hl
          have hl : l ∈ (t.round task r).history := hl
          rw [hlog] at hl
          rcases List.mem_append.1 hl with hl | hl
          · exact hhistory l hl
          · rw [List.mem_singleton.1 hl]
            exact hforwarded.2 hmeets
    exact hinvariant.2
  · intro s r h
    exact (round_spec task r (sound_of_reachable task size h)).2.2

end

/-! ### A forwarder and a service -/

/-- Nothing fails, and this is replied. -/
def spoken {α : Type} (a : α) : Talk α := ⟨.ok (), .ok ⟨⟨8, 9⟩, 1⟩, .ok (), .ok a⟩

/-- A transaction of a number. -/
def identified (n : UInt8) : Transaction.XID := ⟨1, [n], [4], Transaction.XID.single_length n⟩

/-- The transaction is 7; the service leaves it active, as one that takes no part in it does. -/
def roundTo (error : Int) : Round where
  created := identified 7
  chained := identified 8
  request := 3
  dequeue := spoken (.reply 3 [⟨⟨"X_OCTET", [1]⟩, ""⟩])
  forget := spoken ()
  insert := .ok ()
  env := { System.plain with
    reply := fun _ => ⟨0, 1, error, 0, ⟨"X_OCTET", [2]⟩, ⟨some ⟨identified 7, ⟨5, 6⟩⟩, .active⟩⟩ }
  lookupCorrelation := 101
  correlation := 1
  enqueue := spoken ()
  answers := ⟨0, some ⟨4, .commit, 0⟩, none, some 0⟩

/-- The broker finds the service, which replies. -/
def events (error : Int) : List (Event Unit) :=
  [.send () (.make 2004 101 [0]), .put (), .send () (.make replyType 1 [0]), .put (), .perform (roundTo error)]

/-- A forward that has run its events. -/
def ran (reply : String) (error : Int) : Forwarder Unit :=
  (events error).foldl (Forwarder.machine ⟨"service", reply⟩ ipcSize).step (.fresh ⟨5, 6⟩ 1 [1] [])

theorem reachable_ran (reply : String) (error : Int) : (Forwarder.machine ⟨"service", reply⟩ ipcSize).Reachable (ran reply error) :=
  .foldl (.of_init ⟨⟨5, 6⟩, 1, [1], [], List.mem_singleton_self _, rfl⟩) ⟨trivial, trivial, trivial, trivial, rfl, trivial⟩

theorem ran_commits : ∀ run ∈ [("", TPESVCFAIL), ("replies", 0)], (ran run.1 run.2).log.reply.map (·.error) = some run.2 ∧
    (ran run.1 run.2).log.ended = [((ran run.1 run.2).log.trid, .commit)] ∧ (ran run.1 run.2).log.trid.isSome = true ∧
    ∀ e ∈ (ran run.1 run.2).log.enqueued, e.trid = none := by
  decide +kernel

/-- A service that fails outside of the transaction: it is committed. One that succeeds: what is enqueued is outside of
the transaction. -/
theorem committed_unserved :
    ((Forwarder.machine ⟨"service", ""⟩ ipcSize).Reachable (ran "" TPESVCFAIL) ∧
      (ran "" TPESVCFAIL).log.reply.map (·.error) = some TPESVCFAIL ∧ ¬ (ran "" TPESVCFAIL).log.Forwarded ⟨"service", ""⟩) ∧
    (Forwarder.machine ⟨"service", "replies"⟩ ipcSize).Reachable (ran "replies" 0) ∧
      (ran "replies" 0).log.reply.map (·.error) = some 0 ∧ ¬ (ran "replies" 0).log.Forwarded ⟨"service", "replies"⟩ := by
  obtain ⟨hfailed, hsucceeded⟩ := List.forall_mem_cons.1 ran_commits
  rw [List.forall_mem_singleton] at hsucceeded
  have hcommitted : ∀ {task : Task} {l : Log}, l.ended = [(l.trid, .commit)] → l.trid.isSome = true → l.Forwarded task →
      ∃ trid, l.Served task trid := by
    intro task l hended hsome h
    obtain ⟨trid, htrid⟩ := Option.isSome_iff_exists.1 hsome
    rcases h.ended trid htrid with ⟨-, hserved⟩ | hrollback
    · exact ⟨trid, hserved⟩
    · rw [hended, show l.trid = some trid from htrid] at hrollback
      cases hrollback
  refine ⟨⟨reachable_ran _ _, hfailed.1, fun h => ?_⟩, reachable_ran _ _, hsucceeded.1, fun h => ?_⟩
  · obtain ⟨trid, m, reply, -, hreply, herror, -⟩ := hcommitted hfailed.2.1 hfailed.2.2.1 h
    have hfail := hfailed.1
    rw [hreply] at hfail
    rw [show reply.error = TPESVCFAIL from Option.some.inj hfail] at herror
    cases herror
  · obtain ⟨trid, m, reply, -, -, -, henqueued⟩ := hcommitted hsucceeded.2.1 hsucceeded.2.2.1 h
    have hqueue : replyQueue ⟨"service", "replies"⟩ m = "replies" := if_neg (by decide)
    obtain ⟨payload, -, hmem⟩ := henqueued (by rw [hqueue]; decide)
    cases hsucceeded.2.2.2 _ hmem

/-- The service succeeds, and there is no reply queue. -/
theorem served_committed : (ran "" 0).history ≠ [] ∧ (∀ l ∈ (ran "" 0).history, l.Forwarded ⟨"service", ""⟩) ∧
    (((ran "" 0).step ⟨"service", ""⟩ ipcSize (.perform (roundTo 0))).log.Forwarded ⟨"service", ""⟩ ↔
      (roundTo 0).meets ⟨"service", ""⟩ (ran "" 0) = true) := by
  refine ⟨by decide +kernel, (forwarded_iff ⟨"service", ""⟩ ipcSize).1 _ ?_,
    (forwarded_iff ⟨"service", ""⟩ ipcSize).2 _ _ (reachable_ran "" 0)⟩
  exact .foldl (.of_init ⟨⟨5, 6⟩, 1, [1], [], List.mem_singleton_self _, rfl⟩)
    ⟨⟨trivial, rfl⟩, ⟨trivial, rfl⟩, ⟨trivial, rfl⟩, ⟨trivial, rfl⟩, ⟨rfl, by decide +kernel⟩, trivial⟩

end Casual.Queue.Forward
