/-
Calls that fail: what they leave of the call descriptors, and of those that are associated with the
current transaction.
-/
import Casual.Call.Descriptors

namespace Casual.Call

open Lib Common Communication

variable {Sender : Type}

/-! ## What a call is to leave as it was -/

/-- The descriptors that are associated with the last of some transactions. -/
def lastDescriptors (transactions : List Transaction) : List Nat :=
  (transactions.getLast?.map (·.descriptors)).getD []

/-- The active descriptors, and those of the current transaction, are as before. -/
structure Traceless (s t : Context Sender) : Prop where
  actives : ∀ d, d ∈ t.pending.actives ↔ d ∈ s.pending.actives
  associated : lastDescriptors t.transactions = lastDescriptors s.transactions

/-- A call that expects a reply, in a transaction. -/
def associates (flags : Flags) (transactions : List Transaction) : Bool :=
  !flag TPNOREPLY flags && !flag TPNOTRAN flags && (transactions.getLast?.bind (·.trid)).isSome

/-- The service is there, and nothing fails before the descriptor is reserved. -/
structure Reserves [DecidableEq Sender] (env : Surroundings) (lookupCorrelation : Uuid) (s : Context Sender) : Prop where
  request : env.fails s.steps = false
  modifiers : env.fails (s.steps + 1) = false
  found : ∃ m, (s.net.device.next (.correlation lookupCorrelation) (env.reads (s.steps + 2))).1 = some m ∧
    (env.lookupReply m.payload).state ≠ .absent
  buffer : env.fails (s.steps + 3) = false

/-- The transactions when a descriptor has been reserved. -/
def reservedTransactions (flags : Flags) (correlation : Uuid) (s : Context Sender) : List Transaction :=
  if associates flags s.transactions then associate (s.pending.reserve correlation).2 s.transactions else s.transactions

/-- Whether a reply takes its descriptor from the current transaction: it names no transaction, or the current one
first of all. -/
def discards (outcome : Outcome) (transactions : List Transaction) : Bool :=
  outcome.trid.all fun id => transactions.findIdx? (·.is id) == some (transactions.length - 1)

/-! ## Transactions -/

/-- The descriptor is associated with the last transaction. -/
theorem associate_concat (descriptor : Nat) (t : Transaction) (h : t.trid ≠ none) : ∀ rest : List Transaction,
    associate descriptor (rest ++ [t]) = rest ++ [t.associate h descriptor]
  | [] => dif_neg h
  | [u] => by
    show u :: associate descriptor [t] = _
    rw [show associate descriptor [t] = [t.associate h descriptor] from dif_neg h]
    rfl
  | u :: v :: rest => congrArg (u :: ·) (associate_concat descriptor t h (v :: rest))

theorem exists_of_associates {flags : Flags} {transactions : List Transaction} (h : associates flags transactions = true) :
    ∃ rest t, transactions = rest ++ [t] ∧ t.trid ≠ none := by
  unfold associates at h
  simp only [Bool.and_eq_true] at h
  rcases List.eq_nil_or_concat' transactions with rfl | ⟨rest, t, rfl⟩
  · cases h.2
  · refine ⟨rest, t, rfl, fun hnone => ?_⟩
    simp [hnone] at h

theorem lastDescriptors_associate {flags : Flags} {transactions : List Transaction} (h : associates flags transactions = true)
    (descriptor : Nat) :
    lastDescriptors (associate descriptor transactions) = lastDescriptors transactions ++ [descriptor] := by
  obtain ⟨rest, t, rfl, htrid⟩ := exists_of_associates h
  rw [associate_concat descriptor t htrid]
  simp [lastDescriptors, Transaction.associate]

theorem associate_trids {flags : Flags} {transactions : List Transaction} (h : associates flags transactions = true)
    (descriptor : Nat) : (associate descriptor transactions).map (·.trid) = transactions.map (·.trid) := by
  obtain ⟨rest, t, rfl, htrid⟩ := exists_of_associates h
  rw [associate_concat descriptor t htrid]
  simp [Transaction.associate]

theorem discards_congr {outcome : Outcome} {ts us : List Transaction} (h : us.map (·.trid) = ts.map (·.trid)) :
    discards outcome us = discards outcome ts := by
  have hlength : us.length = ts.length := by simpa using congrArg List.length h
  have hfind : ∀ id, us.findIdx? (·.is id) = ts.findIdx? (·.is id) := by
    intro id
    have : ∀ vs : List Transaction, vs.findIdx? (·.is id) =
        (vs.map (·.trid)).findIdx? fun trid => trid.any fun i => i.xid == id.xid := fun vs => by
      rw [List.findIdx?_map]
      rfl
    rw [this us, this ts, h]
  unfold discards
  rw [hlength]
  simp only [hfind]

/-- What a reply leaves of the descriptors of the current transaction. -/
theorem lastDescriptors_update (outcome : Outcome) (descriptor : Nat) (transactions : List Transaction) :
    lastDescriptors ((update outcome descriptor transactions).getD transactions) =
      if discards outcome transactions then (lastDescriptors transactions).filter (· != descriptor)
      else lastDescriptors transactions := by
  unfold update discards
  cases outcome.trid with
  | none =>
    simp only [Option.getD_some, Option.all_none, if_true]
    unfold lastDescriptors
    rw [List.getLast?_map]
    cases transactions.getLast? with
    | none => rfl
    | some t => rfl
  | some id =>
    simp only [Option.all_some]
    obtain hfound | ⟨found, hfound⟩ := Option.eq_none_or_eq_some (transactions.findIdx? (·.is id))
    · simp [hfound]
    · simp only [hfound, Option.map_some, Option.getD_some]
      unfold lastDescriptors
      rw [List.getLast?_eq_getElem?, List.getLast?_eq_getElem?, List.length_modify, List.getElem?_modify]
      cases transactions[transactions.length - 1]? with
      | none => simp
      | some t =>
        by_cases hlast : found = transactions.length - 1
        · simp only [hlast, if_pos, Option.map_eq_map, Option.map_some, Option.getD_some, beq_self_eq_true]
          unfold Transaction.discard
          split_ifs
          · rfl
          · rfl
        · simp [hlast]

/-! ## An asynchronous call -/

section

variable [DecidableEq Sender] (env : Surroundings) {flags : Flags} {correlation : Uuid}

theorem keeps_transactions {α : Type} {x : M Sender α} (h : Moves Still x) :
    Moves (Keeps fun s : Context Sender => s.transactions) x :=
  h.mono fun _ _ => Still.transactions

omit [DecidableEq Sender] in
theorem attempt_run (e : Exception) (s : Context Sender) : attempt env e s =
    if env.fails s.steps then .error e { s with steps := s.steps + 1 } else .ok () { s with steps := s.steps + 1 } := by
  show (if env.fails s.steps then throw e else pure () : M Sender Unit) { s with steps := s.steps + 1 } = _
  split_ifs
  · rfl
  · rfl

omit [DecidableEq Sender] in
theorem transactions_unreserve (descriptor : Nat) :
    Moves (Keeps fun s : Context Sender => s.transactions) (unreserve descriptor) := by
  constructor
  intro s
  rw [unreserve_run]
  cases s.pending.unreserve descriptor <;> rfl

omit [DecidableEq Sender] in
/-- The message is prepared unless the buffer is refused, and then the descriptor has been associated. -/
theorem prepareMessage_run (input : Payload) (service : Service) (s : Context Sender) :
    env.fails s.steps = true ∧ (∃ t, prepareMessage env correlation input flags service s = .error .argument t ∧
      t.transactions = s.transactions) ∨
    env.fails s.steps = false ∧ ∃ message t, prepareMessage env correlation input flags service s = .ok message t ∧
      t.transactions = reservedTransactions flags correlation s := by
  have hattempt := attempt_run env .argument s
  unfold prepareMessage
  cases hfails : env.fails s.steps with
  | true =>
    rw [hfails, if_pos rfl] at hattempt
    exact .inl ⟨rfl, _, bind_error hattempt, rfl⟩
  | false =>
    rw [hfails, if_neg Bool.false_ne_true] at hattempt
    rw [bind_ok hattempt]
    refine .inr ⟨rfl, ?_⟩
    by_cases hnoReply : flag TPNOREPLY flags = true
    · rw [if_pos hnoReply]
      refine ⟨_, _, rfl, ?_⟩
      simp [reservedTransactions, associates, hnoReply]
    · rw [if_neg hnoReply]
      refine ⟨_, _, rfl, ?_⟩
      by_cases hnoTran : flag TPNOTRAN flags = true
      · simp [reservedTransactions, associates, hnoTran]
      · simp [reservedTransactions, associates, hnoReply, hnoTran]
        rfl

theorem transactions_asyncFound (input : Payload) (target : LookupReply) (s : Context Sender) :
    Triple (fun t => t = s) (asyncFound env correlation input flags target)
      (fun _ t => env.fails s.steps = false ∧ t.transactions = reservedTransactions flags correlation s)
      (fun _ t => t.transactions =
        if env.fails s.steps then s.transactions else reservedTransactions flags correlation s) := by
  unfold asyncFound
  apply Triple.bind (Q := fun _ t => env.fails s.steps = false ∧ t.transactions = reservedTransactions flags correlation s)
  · intro _ hs
    rw [hs]
    rcases prepareMessage_run env input target.service s with ⟨hfails, t, hrun, ht⟩ | ⟨hfails, message, t, hrun, ht⟩
    · rw [hrun]
      exact ht.trans (if_pos hfails).symm
    · rw [hrun]
      exact ⟨hfails, ht⟩
  · intro message
    have hsend : ∀ m : Message, Moves (Keeps fun s : Context Sender => s.transactions) (send env m : M Sender Unit) :=
      fun m => keeps_transactions (still_send env m)
    have hsent : Moves (Keeps fun s : Context Sender => s.transactions) (onError (do
        let target ← onError (do
            deadline message.descriptor
            if target.state = .busy then lookupReply env else return target)
          (send env (.ack target.process target.service.name))
        onError (send env (.call target.process.queue { message with service := target.service }))
          (send env (.ack target.process target.service.name)))
        (unreserve message.descriptor) : M Sender Unit) := by
      apply Moves.onError
      · apply Moves.bind
        · apply Moves.onError
          · apply Moves.bind (keeps_transactions (still_deadline message.descriptor))
            intro _
            exact .ite (keeps_transactions (still_lookupReply env)) (.pure _)
          · exact hsend _
        · intro target
          exact Moves.onError (hsend _) (hsend _)
      · exact transactions_unreserve message.descriptor
    refine Triple.bind (Q := fun _ t => env.fails s.steps = false ∧
        t.transactions = reservedTransactions flags correlation s)
      ((hsent.triple fun t ht u hu => ⟨ht.1, (show u.transactions = t.transactions from hu).trans ht.2⟩).conseq
        (fun _ h => h) (fun _ _ h => h) fun _ u h => ?_) fun _ => Triple.pure fun _ h => h
    rw [h.2, h.1]
    rfl

omit [DecidableEq Sender] in
theorem reservedTransactions_congr {s t : Context Sender} (hpending : t.pending = s.pending)
    (htransactions : t.transactions = s.transactions) :
    reservedTransactions flags correlation t = reservedTransactions flags correlation s := by
  unfold reservedTransactions
  rw [hpending, htransactions]

omit [DecidableEq Sender] in
theorem validateInput_run (s : Context Sender) :
    (∃ context, validateInput flags s = .ok context s) ∨
      validateInput flags s = .error .argument s ∧ associates flags s.transactions = false := by
  have hrun : validateInput flags s = (if flag TPNOREPLY flags ∧ ¬ flag TPNOTRAN flags ∧
      (s.transactions.getLast?.bind (·.trid)).isSome then
      (do let _ ← (throw .argument : M Sender PUnit); return if flag TPNOREPLY flags then .noReply else .regular)
    else return if flag TPNOREPLY flags then .noReply else .regular : M Sender LookupContext) s := rfl
  rw [hrun]
  by_cases h : flag TPNOREPLY flags ∧ ¬ flag TPNOTRAN flags ∧ (s.transactions.getLast?.bind (·.trid)).isSome
  · rw [if_pos h]
    refine .inr ⟨rfl, ?_⟩
    simp [associates, h.1]
  · rw [if_neg h]
    exact .inl ⟨_, rfl⟩

/-- Where a call has got to, with nothing changed but the net. -/
structure Along (s t : Context Sender) (steps : Nat) : Prop where
  pending : t.pending = s.pending
  transactions : t.transactions = s.transactions
  steps : t.steps = s.steps + steps

omit [DecidableEq Sender] in
theorem lookup_run (lookupCorrelation : Uuid) (service : String) (context : LookupContext) (s : Context Sender) :
    env.fails s.steps = true ∧ (∃ t, lookup env lookupCorrelation service context s = .error .other t ∧ Along s t 1) ∨
    env.fails s.steps = false ∧ ∃ t, lookup env lookupCorrelation service context s = .ok () t ∧ Along s t 1 ∧
      t.net = s.net ∧ t.lookup = some lookupCorrelation := by
  have hattempt := attempt_run env .other s
  unfold lookup send
  cases hfails : env.fails s.steps with
  | true =>
    rw [hfails, if_pos rfl] at hattempt
    exact .inl ⟨rfl, _, bind_error (bind_error hattempt), ⟨rfl, rfl, rfl⟩⟩
  | false =>
    rw [hfails, if_neg Bool.false_ne_true] at hattempt
    refine .inr ⟨rfl, { s with
      sent := s.sent ++ [.lookup lookupCorrelation service context], steps := s.steps + 1, lookup := some lookupCorrelation },
      ?_, ⟨rfl, rfl, rfl⟩, rfl, rfl⟩
    have hsend : (do
        attempt env .other
        modify fun s => { s with sent := s.sent ++ [.lookup lookupCorrelation service context] } : M Sender Unit) s =
        .ok () { s with sent := s.sent ++ [.lookup lookupCorrelation service context], steps := s.steps + 1 } :=
      (bind_ok hattempt).trans rfl
    exact (bind_ok hsend).trans rfl

theorem lookupReply_run {lookupCorrelation : Uuid} {s : Context Sender} (h : s.lookup = some lookupCorrelation) :
    (s.net.device.next (.correlation lookupCorrelation) (env.reads s.steps)).1 = none ∧
      (∃ t, lookupReply env s = .error .timeout t ∧ Along s t 1) ∨
    ∃ m, (s.net.device.next (.correlation lookupCorrelation) (env.reads s.steps)).1 = some m ∧
      ∃ t, lookupReply env s = .ok (env.lookupReply m.payload) t ∧ Along s t 1 := by
  have hget : (get : M Sender (Context Sender)) s = .ok s s := rfl
  have hreceive : receiveNonBlocking env (.correlation lookupCorrelation) s =
      .ok (s.net.device.next (.correlation lookupCorrelation) (env.reads s.steps)).1
        { s with net := s.net.step (.next (.correlation lookupCorrelation) (env.reads s.steps)), steps := s.steps + 1 } := rfl
  unfold lookupReply
  rw [bind_ok hget, h]
  cases hm : (s.net.device.next (.correlation lookupCorrelation) (env.reads s.steps)).1 with
  | none =>
    rw [hm] at hreceive
    have hblocking : receiveBlocking env (.correlation lookupCorrelation) s = .error .timeout _ :=
      (bind_ok hreceive).trans rfl
    exact .inl ⟨rfl, _, bind_error hblocking, ⟨rfl, rfl, rfl⟩⟩
  | some m =>
    rw [hm] at hreceive
    have hblocking : receiveBlocking env (.correlation lookupCorrelation) s = .ok m _ := (bind_ok hreceive).trans rfl
    refine .inr ⟨m, rfl, ?_⟩
    dsimp only
    rw [bind_ok hblocking]
    split_ifs
    · exact ⟨_, rfl, ⟨rfl, rfl, rfl⟩⟩
    · exact ⟨_, rfl, ⟨rfl, rfl, rfl⟩⟩

/-- A call that succeeds has reserved its descriptor. One that fails has associated it when it got so far. -/
theorem transactions_async (lookupCorrelation : Uuid) (service : String) (input : Payload) (s : Context Sender) :
    Triple (fun t => t = s) (async env lookupCorrelation correlation service input flags)
      (fun _ t => Reserves env lookupCorrelation s ∧ t.transactions = reservedTransactions flags correlation s)
      (fun _ t => (Reserves env lookupCorrelation s → t.transactions = reservedTransactions flags correlation s) ∧
        (¬ Reserves env lookupCorrelation s → t.transactions = s.transactions)) := by
  have hnot : ∀ {t : Context Sender}, t.transactions = s.transactions → ¬ Reserves env lookupCorrelation s →
      (Reserves env lookupCorrelation s → t.transactions = reservedTransactions flags correlation s) ∧
        (¬ Reserves env lookupCorrelation s → t.transactions = s.transactions) :=
    fun ht hr => ⟨fun h => absurd h hr, fun _ => ht⟩
  unfold async
  refine Triple.bind (Q := fun _ t => t = s) ?_ fun context => ?_
  · -- a call without reply is refused in a transaction
    intro _ hs
    rw [hs]
    rcases @validateInput_run Sender flags s with ⟨context, hrun⟩ | ⟨hrun, hassociates⟩
    · rw [hrun]
    · rw [hrun]
      refine ⟨fun _ => ?_, fun _ => rfl⟩
      unfold reservedTransactions
      rw [hassociates]
      rfl
  refine Triple.bind (Q := fun _ t => env.fails s.steps = false ∧ Along s t 1 ∧ t.net = s.net ∧
    t.lookup = some lookupCorrelation) ?_ fun _ => ?_
  · intro _ hs
    rw [hs]
    rcases lookup_run env lookupCorrelation service context s with ⟨hfails, t, hrun, ht⟩ | ⟨hfails, t, hrun, ht⟩
    · rw [hrun]
      exact hnot ht.transactions fun h => Bool.false_ne_true (h.request.symm.trans hfails)
    · rw [hrun]
      exact ⟨hfails, ht⟩
  refine Triple.onExit (Q := fun _ t => Reserves env lookupCorrelation s ∧ t.transactions = reservedTransactions flags correlation s)
    (E := fun _ t => (Reserves env lookupCorrelation s → t.transactions = reservedTransactions flags correlation s) ∧
        (¬ Reserves env lookupCorrelation s → t.transactions = s.transactions)) ?_ ?_ ?_
  · refine Triple.bind (Q := fun _ t => env.fails s.steps = false ∧ env.fails (s.steps + 1) = false ∧ Along s t 2 ∧
      t.net = s.net ∧ t.lookup = some lookupCorrelation) ?_ fun _ => ?_
    · rintro t ⟨hrequest, ht, hnet, hlookup⟩
      rw [attempt_run, ht.steps]
      split_ifs with hfails
      · exact hnot ht.transactions fun h => Bool.false_ne_true (h.modifiers.symm.trans hfails)
      · exact ⟨hrequest, by simpa using hfails, ⟨ht.pending, ht.transactions, rfl⟩, hnet, hlookup⟩
    refine Triple.bind (Q := fun target t => env.fails s.steps = false ∧ env.fails (s.steps + 1) = false ∧ Along s t 3 ∧
      ∃ m, (s.net.device.next (.correlation lookupCorrelation) (env.reads (s.steps + 2))).1 = some m ∧
        target = env.lookupReply m.payload) ?_ fun target => ?_
    · rintro t ⟨hrequest, hmodifiers, ht, hnet, hlookup⟩
      have hrun := lookupReply_run env hlookup
      rw [hnet, ht.steps] at hrun
      rcases hrun with ⟨hnone, u, hrun, hu⟩ | ⟨m, hm, u, hrun, hu⟩
      · rw [hrun]
        refine hnot (hu.transactions.trans ht.transactions) fun h => ?_
        obtain ⟨m, hm, -⟩ := h.found
        cases hnone.symm.trans hm
      · rw [hrun]
        exact ⟨hrequest, hmodifiers, ⟨hu.pending.trans ht.pending, hu.transactions.trans ht.transactions,
          hu.steps.trans (congrArg (· + 1) ht.steps)⟩, m, hm, rfl⟩
    apply Triple.of_forall
    rintro t ⟨hrequest, hmodifiers, ht, m, hm, rfl⟩
    refine Triple.ite (fun habsent => ?_) fun hthere => ?_
    · refine Triple.throw ?_
      rintro _ rfl
      refine hnot ht.transactions fun h => ?_
      obtain ⟨m', hm', hstate⟩ := h.found
      cases hm.symm.trans hm'
      exact hstate habsent
    · -- the service is there, and what is left is whether the buffer is
      have hfound := @transactions_asyncFound Sender _ env flags correlation input (env.lookupReply m.payload) t
      have hreserved : reservedTransactions flags correlation t = reservedTransactions flags correlation s :=
        reservedTransactions_congr ht.pending ht.transactions
      rw [ht.steps, hreserved, ht.transactions] at hfound
      refine hfound.conseq (fun _ h => h) (fun _ _ h => ⟨⟨hrequest, hmodifiers, ⟨m, hm, hthere⟩, h.1⟩, h.2⟩) fun _ u hu => ?_
      cases hbuffer : env.fails (s.steps + 3) with
      | true =>
        rw [hbuffer, if_pos rfl] at hu
        exact hnot hu fun h => Bool.false_ne_true (h.buffer.symm.trans hbuffer)
      | false =>
        rw [hbuffer, if_neg Bool.false_ne_true] at hu
        exact ⟨fun _ => hu, fun h => absurd ⟨hrequest, hmodifiers, ⟨m, hm, hthere⟩, hbuffer⟩ h⟩
  · intro _ t ht
    exact ⟨ht.1, ((keeps_transactions still_lookupDone).after t).trans ht.2⟩
  · intro _ t ht
    have hkeeps : (after (lookupDone t)).transactions = t.transactions := (keeps_transactions still_lookupDone).after t
    rw [hkeeps]
    exact ht

/-! ## A reply -/

/-- The message that a reply is taken from. -/
def taken (descriptor : Nat) (s : Context Sender) : Option Complete :=
  if descriptor = 0 then (s.net.device.next (.type replyType) (env.reads s.steps)).1
  else (s.pending.get descriptor).bind fun found => (s.net.device.next (.correlation found.correlation) (env.reads s.steps)).1

/-- What taking a reply leaves of the descriptors and the transactions. -/
def Leaves (s : Context Sender) (m : Option Complete) (t : Context Sender) : Prop :=
  match m with
  | none => t.pending = s.pending ∧ t.transactions = s.transactions
  | some m => Released s.pending t.pending (env.unmarshal m).descriptor ∧ t.transactions =
      (update (env.unmarshal m).transaction (env.unmarshal m).descriptor s.transactions).getD s.transactions

theorem receiveFlags_run (selector : Selector) (s : Context Sender) :
    Triple (fun t => t = s) (receiveFlags env flags selector)
      (fun r t => r = (s.net.device.next selector (env.reads s.steps)).1 ∧ Along s t 1)
      (fun _ t => (s.net.device.next selector (env.reads s.steps)).1 = none ∧ Along s t 1) := by
  have hnon : Triple (fun t => t = s) (receiveNonBlocking env selector)
      (fun r t => r = (s.net.device.next selector (env.reads s.steps)).1 ∧ Along s t 1)
      (fun _ t => (s.net.device.next selector (env.reads s.steps)).1 = none ∧ Along s t 1) := by
    intro _ hs
    rw [hs]
    exact ⟨rfl, rfl, rfl, rfl⟩
  unfold receiveFlags
  refine Triple.ite (fun _ => hnon) fun _ => ?_
  unfold receiveBlocking
  refine Triple.bind (Q := fun m t => some m = (s.net.device.next selector (env.reads s.steps)).1 ∧ Along s t 1) ?_ fun m =>
    Triple.pure fun _ h => h
  refine Triple.bind hnon fun r => ?_
  cases r with
  | none => exact Triple.throw fun _ h => ⟨h.1.symm, h.2⟩
  | some m => exact Triple.pure fun _ h => h

theorem receive_run (descriptor : Nat) (s : Context Sender) :
    Triple (fun t => t = s) (receive env descriptor flags)
      (fun r t => r = taken env descriptor s ∧ Along s t 1)
      (fun _ t => taken env descriptor s = none ∧ t.pending = s.pending ∧ t.transactions = s.transactions) := by
  unfold receive taken
  refine Triple.ite (fun hzero => ?_) fun hzero => ?_
  · rw [if_pos hzero]
    exact (receiveFlags_run env _ s).conseq (fun _ h => h) (fun _ _ h => h) fun _ _ h => ⟨h.1, h.2.pending, h.2.transactions⟩
  · rw [if_neg hzero]
    refine Triple.bind (Q := fun found t => t = s ∧ s.pending.get descriptor = some found) ?_ fun found => ?_
    · intro _ hs
      rw [hs, getDescriptor_run]
      cases s.pending.get descriptor with
      | none => exact ⟨rfl, rfl, rfl⟩
      | some found => exact ⟨rfl, rfl⟩
    · apply Triple.of_forall
      rintro _ ⟨rfl, hfound⟩
      rw [hfound]
      exact (receiveFlags_run env _ _).conseq (fun _ h => h) (fun _ _ h => h) fun _ _ h => ⟨h.1, h.2.pending, h.2.transactions⟩

omit [DecidableEq Sender] in
/-- The transactions are updated, or the exception is thrown before. -/
theorem updateTransaction_run (reply : Reply) (s : Context Sender) :
    Triple (fun t => t = s) (updateTransaction reply)
      (fun _ t => t.pending = s.pending ∧ update reply.transaction reply.descriptor s.transactions = some t.transactions)
      (fun _ t => t = s ∧ update reply.transaction reply.descriptor s.transactions = none) := by
  rintro _ rfl
  rename_i s
  unfold updateTransaction
  have hget : (get : M Sender (Context Sender)) s = .ok s s := rfl
  rw [bind_ok hget]
  cases hupdate : update reply.transaction reply.descriptor s.transactions with
  | none => exact ⟨rfl, rfl⟩
  | some transactions => exact ⟨rfl, rfl⟩

/-- A reply that fails leaves the descriptors as they were, unless a message has been taken: then the one of the message
is released, and no longer associated as far as the message tells. -/
theorem leaves_reply (descriptor : Nat) (output : Option Payload) (s : Context Sender) :
    Triple (fun t => t = s) (reply env descriptor output flags) (fun _ _ => True)
      (fun _ t => Leaves env s (taken env (if flag TPGETANY flags then 0 else descriptor) s) t) := by
  unfold reply
  generalize (if flag TPGETANY flags then 0 else descriptor) = descriptor
  have hnone : ∀ t : Context Sender, taken env descriptor s = none → t.pending = s.pending → t.transactions = s.transactions →
      Leaves env s (taken env descriptor s) t := by
    intro t htaken hpending htransactions
    rw [htaken]
    exact ⟨hpending, htransactions⟩
  refine Triple.bind (Q := fun _ t => t = s) ?_ fun _ => ?_
  · -- a descriptor that is not active has no deadline, and no message
    unfold deadline
    refine Triple.ite (fun hzero => ?_) fun _ => Triple.pure fun _ h => h
    refine Triple.bind (Q := fun _ t => t = s) ?_ fun _ => Triple.pure fun _ h => h
    intro _ hs
    rw [hs, getDescriptor_run]
    cases hget : s.pending.get descriptor with
    | none =>
      refine hnone s ?_ rfl rfl
      unfold taken
      rw [if_neg hzero, hget]
      rfl
    | some found => rfl
  refine Triple.bind ((receive_run env descriptor s).conseq (fun _ h => h) (fun _ _ h => h) fun _ t h => hnone t h.1 h.2.1 h.2.2)
    fun r => ?_
  cases r with
  | none => exact Triple.throw fun t h => hnone t h.1.symm h.2.pending h.2.transactions
  | some m =>
    apply Triple.of_forall
    rintro u ⟨hm, hu⟩
    rw [← hm]
    -- from here on the guard releases the descriptor of the message
    let Updated : Context Sender → Prop := fun t => t.pending = s.pending ∧ t.transactions =
      (update (env.unmarshal m).transaction (env.unmarshal m).descriptor s.transactions).getD s.transactions
    have hupdated : ∀ {α : Type} {x : M Sender α}, Moves Still x → Triple Updated x (fun _ => Updated) (fun _ => Updated) :=
      fun hx => hx.triple fun _ ht _ h => ⟨h.pending.trans ht.1, h.transactions.trans ht.2⟩
    have hrelease : ∀ t, Updated t → Leaves env s (some m) (after (unreserve (env.unmarshal m).descriptor t)) := by
      intro t ht
      obtain ⟨-, hreleased⟩ := after_unreserve (env.unmarshal m).descriptor t
      rw [ht.1] at hreleased
      exact ⟨hreleased, ((transactions_unreserve _).after t).trans ht.2⟩
    refine Triple.bind (Q := fun _ t => t.pending = s.pending ∧ t.transactions = s.transactions) ?_ fun _ => ?_
    · apply Triple.modify
      rintro _ rfl
      exact ⟨hu.pending, hu.transactions⟩
    refine Triple.onExit (Q := fun _ _ => True) (E := fun _ => Updated) ?_ (fun _ _ _ => trivial) fun _ t ht => hrelease t ht
    refine Triple.bind (Q := fun _ => Updated) ?_ fun _ => ?_
    · rintro t ⟨hpending, htransactions⟩
      refine ((updateTransaction_run (env.unmarshal m) t).conseq (fun _ h => h) ?_ ?_) t rfl
      · rintro _ u ⟨hu, hupdate⟩
        exact ⟨hu.trans hpending, by rw [← htransactions, hupdate]; rfl⟩
      · rintro _ _ ⟨rfl, hupdate⟩
        exact ⟨hpending, by rw [← htransactions, hupdate]; rfl⟩
    refine Triple.bind (hupdated (still_checkOutput env _ _ _)) fun _ => ?_
    refine Triple.bind (hupdated (still_attempt env _)) fun _ => ?_
    exact Triple.pure fun _ _ => trivial

/-! ## What a call that succeeds leaves of the transactions -/

theorem update_trids {outcome : Outcome} {descriptor : Nat} {ts us : List Transaction}
    (h : update outcome descriptor ts = some us) : us.map (·.trid) = ts.map (·.trid) := by
  unfold update at h
  cases htrid : outcome.trid with
  | none =>
    rw [htrid] at h
    obtain rfl := Option.some.inj h
    rw [List.map_map]
    rfl
  | some id =>
    rw [htrid] at h
    obtain ⟨found, -, rfl⟩ := Option.map_eq_some_iff.1 h
    apply List.ext_getElem?
    intro i
    rw [List.getElem?_map, List.getElem?_map, List.getElem?_modify]
    cases ts[i]? with
    | none => rfl
    | some t =>
      have hmarked : (if t.state.value < outcome.state.value then { t with state := outcome.state } else t).trid = t.trid := by
        split_ifs <;> rfl
      change some (Transaction.trid (if found = i then _ else t)) = some t.trid
      by_cases hi : found = i
      · rw [if_pos hi]
        exact congrArg some hmarked
      · rw [if_neg hi]

/-- A reply that is returned has updated the transactions; otherwise it may have. -/
theorem updates_reply (descriptor : Nat) (output : Option Payload) (s : Context Sender) :
    Triple (fun t => t = s) (reply env descriptor output flags)
      (fun r t => update r.transaction r.descriptor s.transactions = some t.transactions)
      (fun _ t => t.transactions.map (·.trid) = s.transactions.map (·.trid)) := by
  have hsame : ∀ {α : Type} {x : M Sender α}, Moves Still x → Triple (fun t => t.transactions = s.transactions) x
      (fun _ t => t.transactions = s.transactions) (fun _ t => t.transactions.map (·.trid) = s.transactions.map (·.trid)) :=
    fun hx => (hx.triple fun t ht u h => (h.transactions.trans ht : u.transactions = s.transactions)).conseq (fun _ h => h)
      (fun _ _ h => h) fun _ _ h => congrArg _ h
  unfold reply
  generalize (if flag TPGETANY flags then 0 else descriptor) = descriptor
  refine Triple.bind (Q := fun _ t => t.transactions = s.transactions) ?_ fun _ => ?_
  · exact (hsame (still_deadline descriptor)).conseq (fun _ h => by rw [h]) (fun _ _ h => h) fun _ _ h => h
  refine Triple.bind (Q := fun _ t => t.transactions = s.transactions) ?_ fun r => ?_
  · apply Triple.of_forall
    intro u hu
    exact (receive_run env descriptor u).conseq (fun _ h => h) (fun _ _ h => h.2.transactions.trans hu) fun _ t h => by
      rw [h.2.2, hu]
  cases r with
  | none => exact Triple.throw fun t h => by rw [h]
  | some m =>
    refine Triple.bind (Q := fun _ t => t.transactions = s.transactions) ?_ fun _ => ?_
    · exact Triple.modify fun _ h => h
    let Updated : Context Sender → Prop := fun t =>
      update (env.unmarshal m).transaction (env.unmarshal m).descriptor s.transactions = some t.transactions
    have hupdated : ∀ {α : Type} {x : M Sender α}, Moves Still x → Triple Updated x (fun _ => Updated)
        (fun _ t => t.transactions.map (·.trid) = s.transactions.map (·.trid)) :=
      fun hx => (hx.triple fun t ht u h => (ht.trans (congrArg some h.transactions.symm) : Updated u)).conseq
        (fun _ h => h) (fun _ _ h => h) fun _ _ h => update_trids h
    refine Triple.onExit (Q := fun r t => r = env.unmarshal m ∧ Updated t)
      (E := fun _ t => t.transactions.map (·.trid) = s.transactions.map (·.trid)) ?_ ?_ ?_
    · refine Triple.bind (Q := fun _ => Updated) ?_ fun _ => ?_
      · intro t ht
        refine ((updateTransaction_run (env.unmarshal m) t).conseq (fun _ h => h) ?_ ?_) t rfl
        · rintro _ u ⟨-, hupdate⟩
          rw [ht] at hupdate
          exact hupdate
        · rintro _ _ ⟨rfl, -⟩
          exact congrArg _ ht
      refine Triple.bind (hupdated (still_checkOutput env _ _ _)) fun _ => ?_
      refine Triple.bind (hupdated (still_attempt env _)) fun _ => ?_
      exact Triple.pure fun _ h => ⟨rfl, h⟩
    · rintro _ t ⟨rfl, ht⟩
      have hkeeps : (after (unreserve (env.unmarshal m).descriptor t)).transactions = t.transactions :=
        (transactions_unreserve _).after t
      rw [hkeeps]
      exact ht
    · intro _ t ht
      have hkeeps : (after (unreserve (env.unmarshal m).descriptor t)).transactions = t.transactions :=
        (transactions_unreserve _).after t
      rw [hkeeps]
      exact ht

omit [DecidableEq Sender] in
theorem reservedTransactions_trids (s : Context Sender) :
    (reservedTransactions flags correlation s).map (·.trid) = s.transactions.map (·.trid) := by
  unfold reservedTransactions
  split_ifs with h
  · exact associate_trids h _
  · rfl

/-- A call that returns has associated its descriptor, and then updated the transactions. -/
theorem transactions_sync (lookupCorrelation : Uuid) (service : String) (input : Payload) (output : Option Payload)
    (s : Context Sender) :
    Triple (fun t => t = s) (sync env lookupCorrelation correlation service input output flags)
      (fun r t => update r.transaction r.descriptor (reservedTransactions (~~~ TPNOBLOCK &&& flags) correlation s) =
        some t.transactions)
      (fun _ t => t.transactions.map (·.trid) = s.transactions.map (·.trid)) := by
  unfold sync
  refine Triple.bind (Q := fun _ t => t.transactions = reservedTransactions (~~~ TPNOBLOCK &&& flags) correlation s) ?_
    fun descriptor => ?_
  · refine (transactions_async env lookupCorrelation service input s).conseq (fun _ h => h) (fun _ _ h => h.2) fun _ t h => ?_
    by_cases hreserves : Reserves env lookupCorrelation s
    · rw [h.1 hreserves, reservedTransactions_trids]
    · rw [h.2 hreserves]
  · apply Triple.of_forall
    intro u hu
    refine (updates_reply env descriptor output u).conseq (fun _ h => h) (fun _ _ h => ?_) fun _ t h => ?_
    · rw [← hu]
      exact h
    · rw [h, hu, reservedTransactions_trids]

/-! ## Calls that leave no trace -/

/-- When a call whose request has been sent leaves no trace, by the message that is taken for its reply: the descriptor
is that of the call, and the current transaction has lost it and no other. -/
def Redeemed (flags : Flags) (s : Context Sender) (descriptor : Nat) : Option Complete → Prop
  | none => flag TPNOREPLY flags = true
  | some m =>
    let reply := env.unmarshal m
    (if flag TPNOREPLY flags then ∀ d ∈ s.pending.actives, d.descriptor ≠ reply.descriptor
      else reply.descriptor = descriptor) ∧
      if associates flags s.transactions then
        discards reply.transaction s.transactions = true ∧ reply.descriptor ∉ lastDescriptors s.transactions
      else discards reply.transaction s.transactions = true → reply.descriptor ∉ lastDescriptors s.transactions

/-- When a synchronous call leaves no trace, by what became of its request. -/
def Undone (flags : Flags) (lookupCorrelation : Uuid) (s : Context Sender) :
    EStateM.Result Exception (Context Sender) Nat → Prop
  | .error _ _ => ¬ (associates flags s.transactions = true ∧ Reserves env lookupCorrelation s)
  | .ok descriptor u => Redeemed env flags s descriptor (taken env (if flag TPGETANY flags then 0 else descriptor) u)

theorem filter_ne_eq_self {l : List Nat} {a : Nat} : l.filter (· != a) = l ↔ a ∉ l := by
  rw [List.filter_eq_self]
  constructor
  · intro h ha
    simpa using h a ha
  · intro h b hb
    simpa using fun hba : b = a => h (hba ▸ hb)

omit [DecidableEq Sender] in
theorem lastDescriptors_reserved (s : Context Sender) : lastDescriptors (reservedTransactions flags correlation s) =
    if associates flags s.transactions then lastDescriptors s.transactions ++ [(s.pending.reserve correlation).2]
    else lastDescriptors s.transactions := by
  unfold reservedTransactions
  split_ifs with h
  · exact lastDescriptors_associate h _
  · rfl

omit [DecidableEq Sender] in
theorem discards_reserved (outcome : Outcome) (s : Context Sender) :
    discards outcome (reservedTransactions flags correlation s) = discards outcome s.transactions := by
  unfold reservedTransactions
  split_ifs with h
  · exact discards_congr (associate_trids h _)
  · rfl

/-- An asynchronous call that fails. -/
theorem traceless_async {lookupCorrelation : Uuid} {service : String} {input : Payload} {s t : Context Sender} {e : Exception}
    (h : async env lookupCorrelation correlation service input flags s = .error e t) :
    Traceless s t ↔ ¬ (associates flags s.transactions = true ∧ Reserves env lookupCorrelation s) := by
  have hfailed := async_spec env lookupCorrelation correlation service input flags s s (Std.Refl.refl s)
  have htransactions := @transactions_async Sender _ env flags correlation lookupCorrelation service input s s rfl
  rw [h] at hfailed htransactions
  have hfailed : Failed s t := hfailed
  obtain ⟨hreserved, hsame⟩ := htransactions
  constructor
  · rintro htrace ⟨hassociates, hreserves⟩
    have hlast := htrace.associated
    rw [hreserved hreserves, lastDescriptors_reserved, if_pos hassociates] at hlast
    simpa using congrArg List.length hlast
  · intro hnot
    refine ⟨hfailed.2, ?_⟩
    by_cases hreserves : Reserves env lookupCorrelation s
    · rw [hreserved hreserves, lastDescriptors_reserved, if_neg fun hassociates => hnot ⟨hassociates, hreserves⟩]
    · rw [hsame hreserves]

/-- The active descriptors, when a call has reserved one and a message has released one. -/
theorem actives_released {s u : Context Sender} {descriptor released : Nat} {p : Pending}
    (hreserved : Reserved flags correlation s descriptor u) (hp : Released u.pending p released) :
    (∀ d, d ∈ p.actives ↔ d ∈ s.pending.actives) ↔
      if flag TPNOREPLY flags then ∀ d ∈ s.pending.actives, d.descriptor ≠ released else released = descriptor := by
  have hcase := hreserved.2
  split_ifs at hcase ⊢ with hnoReply
  · rw [← hcase.2]
    constructor
    · intro h d hd
      exact ((hp d).1 ((h d).2 hd)).2
    · intro h d
      exact (hp d).trans ⟨And.left, fun hd => ⟨hd, h d hd⟩⟩
  · obtain ⟨hnot, hactives⟩ := s.pending.reserve_spec correlation
    rw [← hcase] at hnot hactives
    constructor
    · intro h
      by_contra hne
      have hmem := (h _).1 ((hp _).2 ⟨(hactives _).2 (.inr rfl), fun heq => hne heq.symm⟩)
      exact hnot _ hmem rfl
    · rintro rfl d
      rw [hp d, hactives d]
      constructor
      · rintro ⟨hd | rfl, hne⟩
        · exact hd
        · exact absurd rfl hne
      · intro hd
        exact ⟨.inl hd, hnot d hd⟩

/-- A synchronous call that fails when its request has been sent. -/
theorem traceless_reply {s u t : Context Sender} {descriptor : Nat}
    (hreserved : Reserved flags correlation s descriptor u)
    (htransactions : u.transactions = reservedTransactions flags correlation s)
    (h : Leaves env u (taken env (if flag TPGETANY flags then 0 else descriptor) u) t) :
    Traceless s t ↔ Redeemed env flags s descriptor (taken env (if flag TPGETANY flags then 0 else descriptor) u) := by
  have hcase := hreserved.2
  cases htaken : taken env (if flag TPGETANY flags then 0 else descriptor) u with
  | none =>
    rw [htaken] at h
    obtain ⟨hpending, hsame⟩ := h
    split_ifs at hcase with hnoReply
    · refine iff_of_true ⟨fun d => by rw [hpending, hcase.2], ?_⟩ hnoReply
      rw [hsame, htransactions, lastDescriptors_reserved, if_neg]
      simp [associates, hnoReply]
    · refine iff_of_false (fun htrace => ?_) hnoReply
      obtain ⟨hnot, hactives⟩ := s.pending.reserve_spec correlation
      rw [← hcase] at hnot hactives
      refine hnot _ ((htrace.actives ⟨descriptor, true, correlation⟩).1 ?_) rfl
      rw [hpending]
      exact (hactives _).2 (.inr rfl)
  | some m =>
    rw [htaken] at h
    obtain ⟨hreleased, hupdated⟩ := h
    have hlast : lastDescriptors t.transactions = if discards (env.unmarshal m).transaction s.transactions then
        (lastDescriptors u.transactions).filter (· != (env.unmarshal m).descriptor) else lastDescriptors u.transactions := by
      rw [hupdated, lastDescriptors_update]
      rw [show discards (env.unmarshal m).transaction u.transactions = discards (env.unmarshal m).transaction s.transactions by
        rw [htransactions, discards_reserved]]
    rw [htransactions, lastDescriptors_reserved] at hlast
    have hactives := actives_released hreserved hreleased
    have hsplit : Traceless s t ↔ (∀ d, d ∈ t.pending.actives ↔ d ∈ s.pending.actives) ∧
        lastDescriptors t.transactions = lastDescriptors s.transactions :=
      ⟨fun h => ⟨h.actives, h.associated⟩, fun h => ⟨h.1, h.2⟩⟩
    rw [hsplit, hactives, hlast]
    refine and_congr_right fun hdescriptor => ?_
    by_cases hassociates : associates flags s.transactions = true
    · -- the descriptor of the call has been put behind those of the transaction
      have hnoReply : ¬ flag TPNOREPLY flags = true := by
        intro hflag
        simp [associates, hflag] at hassociates
      rw [if_neg hnoReply] at hcase hdescriptor
      have hsecond : (s.pending.reserve correlation).2 = (env.unmarshal m).descriptor := by
        rw [hdescriptor, ← hcase]
      rw [if_pos hassociates, if_pos hassociates, hsecond]
      cases hdiscards : discards (env.unmarshal m).transaction s.transactions with
      | true =>
        rw [if_pos rfl, List.filter_append]
        simpa using filter_ne_eq_self
      | false => simp
    · rw [if_neg hassociates, if_neg hassociates]
      cases hdiscards : discards (env.unmarshal m).transaction s.transactions with
      | true => simpa using filter_ne_eq_self
      | false => simp

/-- A call that fails leaves no trace exactly when nothing was associated, or when it was synchronous and its reply
undoes what was done. -/
theorem traceless_iff (lookupCorrelation correlation : Uuid) (service : String) (input : Payload) (output : Option Payload)
    (flags : Flags) (s : Context Sender) :
    (∀ e t, async env lookupCorrelation correlation service input flags s = .error e t →
      (Traceless s t ↔ ¬ (associates flags s.transactions = true ∧ Reserves env lookupCorrelation s))) ∧
    ∀ e t, sync env lookupCorrelation correlation service input output flags s = .error e t →
      (Traceless s t ↔ Undone env (~~~ TPNOBLOCK &&& flags) lookupCorrelation s
        (async env lookupCorrelation correlation service input (~~~ TPNOBLOCK &&& flags) s)) := by
  refine ⟨fun e t h => traceless_async env h, fun e t h => ?_⟩
  rcases of_bind_error h with hasync | ⟨descriptor, u, hasync, hreply⟩
  · rw [hasync]
    exact traceless_async env hasync
  · have hreserved := async_spec env lookupCorrelation correlation service input (~~~ TPNOBLOCK &&& flags) s s (Std.Refl.refl s)
    have htransactions := @transactions_async Sender _ env (~~~ TPNOBLOCK &&& flags) correlation
      lookupCorrelation service input s s rfl
    have hleaves := @leaves_reply Sender _ env (~~~ TPNOBLOCK &&& flags) descriptor output u u rfl
    rw [hasync] at hreserved htransactions ⊢
    rw [hreply] at hleaves
    exact traceless_reply env hreserved htransactions.2 hleaves

end

/-! ### A destination that is not available -/

/-- The queue of the instance is gone when the request is sent. -/
def unavailable : Surroundings := { System.plain with fails := fun n => n == 4 }

/-- The broker has told of an instance, and there is a transaction. -/
def inTransaction : List (Event Unit) :=
  [.other () (.make 2004 101 [0]), .put (), .transactions [.make (some ⟨⟨1, [7], [4], by decide⟩, ⟨5, 6⟩⟩)]]

/-- The descriptor has been released, and is associated with the transaction. -/
theorem unavailable_associated : ∃ (s : System Unit) (e : Exception) (t : Context Unit),
    (System.machine unavailable ipcSize).Reachable s ∧
    async unavailable 101 1 "service" ⟨"", []⟩ 0 s.context = .error e t ∧ ¬ Traceless s.context t := by
  have hinit : (System.machine unavailable ipcSize).init (System.initial : System Unit) := rfl
  obtain ⟨e, t, herror⟩ := exists_of_throws (r := async unavailable 101 1 "service" ⟨"", []⟩ 0
    (inTransaction.foldl (System.machine unavailable ipcSize).step System.initial).context) (by decide +kernel)
  have hleft : lastDescriptors (after (async unavailable 101 1 "service" ⟨"", []⟩ 0
    (inTransaction.foldl (System.machine unavailable ipcSize).step System.initial).context)).transactions = [1] := by
    decide +kernel
  rw [herror] at hleft
  refine ⟨_, e, t, .foldl (.of_init hinit) (by decide +kernel), herror, fun h => ?_⟩
  have hassociated := h.associated
  rw [show lastDescriptors t.transactions = [1] from hleft] at hassociated
  revert hassociated
  decide +kernel

/-- The broker is not there. -/
def noBroker : Surroundings := { System.plain with fails := fun n => n == 0 }

theorem noBroker_traceless :
    Traceless (System.initial : System Unit).context
      (after (async noBroker 101 1 "service" ⟨"", []⟩ 0 (System.initial : System Unit).context)) ∧
    Traceless (System.initial : System Unit).context
      (after (sync noBroker 101 1 "service" ⟨"", []⟩ none 0 (System.initial : System Unit).context)) := by
  have hnot : ¬ Reserves noBroker 101 (System.initial : System Unit).context := fun h => by
    have := h.request
    revert this
    decide +kernel
  obtain ⟨hasync, hsync⟩ :=
    traceless_iff noBroker 101 1 "service" ⟨"", []⟩ none 0 (System.initial : System Unit).context
  constructor
  · obtain ⟨e, t, herror⟩ := exists_of_throws
      (r := async noBroker 101 1 "service" ⟨"", []⟩ 0 (System.initial : System Unit).context) (by decide +kernel)
    rw [herror]
    exact (hasync e t herror).2 fun h => hnot h.2
  · obtain ⟨e, t, herror⟩ := exists_of_throws
      (r := sync noBroker 101 1 "service" ⟨"", []⟩ none 0 (System.initial : System Unit).context) (by decide +kernel)
    obtain ⟨e', u, herror'⟩ := exists_of_throws
      (r := async noBroker 101 1 "service" ⟨"", []⟩ (~~~ TPNOBLOCK &&& 0) (System.initial : System Unit).context)
      (by decide +kernel)
    rw [herror]
    refine (hsync e t herror).2 ?_
    rw [herror']
    exact fun h => hnot h.2

end Casual.Call
