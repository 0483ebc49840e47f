/-
What the operations of a caller do to the net and to the descriptors, on every way they can end.
-/
import Casual.Call.Context

namespace Casual.Call

open Lib Common Communication

variable {Sender : Type} [DecidableEq Sender]

/-! ## What leaves the descriptors alone -/

/-- Messages are taken from the net and discarded, in any number. -/
def NetMoves (n n' : Net Sender) : Prop := ∃ es : List (Communication.Event Sender), n' = es.foldl Net.step n

theorem NetMoves.refl (n : Net Sender) : NetMoves n n := ⟨[], rfl⟩

theorem NetMoves.step (n : Net Sender) (e : Communication.Event Sender) : NetMoves n (n.step e) := ⟨[e], rfl⟩

theorem NetMoves.trans {n n' n'' : Net Sender} : NetMoves n n' → NetMoves n' n'' → NetMoves n n'' := by
  rintro ⟨es, rfl⟩ ⟨es', rfl⟩
  exact ⟨es ++ es', (List.foldl_append ..).symm⟩

/-- The descriptors are as before. -/
structure Quietly (s t : Context Sender) : Prop where
  net : NetMoves s.net t.net
  pending : t.pending = s.pending

instance : Std.Refl (Quietly : Context Sender → Context Sender → Prop) := ⟨fun s => ⟨.refl s.net, rfl⟩⟩

instance : IsTrans (Context Sender) Quietly :=
  ⟨fun _ _ _ h h' => ⟨h.net.trans h'.net, h'.pending.trans h.pending⟩⟩

/-- The transactions are as before as well. -/
structure Still (s t : Context Sender) : Prop extends Quietly s t where
  transactions : t.transactions = s.transactions

instance : Std.Refl (Still : Context Sender → Context Sender → Prop) := ⟨fun s => ⟨Std.Refl.refl s, rfl⟩⟩

instance : IsTrans (Context Sender) Still :=
  ⟨fun _ _ _ h h' => ⟨Trans.trans h.toQuietly h'.toQuietly, h'.transactions.trans h.transactions⟩⟩

theorem quiet {α : Type} {x : M Sender α} (h : Moves Still x) : Moves Quietly x := h.mono fun _ _ => Still.toQuietly

variable (env : Surroundings)

theorem still_modify {f : Context Sender → Context Sender} (hnet : ∀ s, (f s).net = s.net)
    (hpending : ∀ s, (f s).pending = s.pending) (htransactions : ∀ s, (f s).transactions = s.transactions) :
    Moves Still (modify f : M Sender PUnit) :=
  .modify fun s => ⟨⟨hnet s ▸ .refl _, hpending s⟩, htransactions s⟩

theorem still_attempt (e : Exception) : Moves Still (attempt env e : M Sender Unit) := by
  constructor
  intro s
  show Still s (after ((if env.fails s.steps then throw e else pure () : M Sender Unit)
    { s with steps := s.steps + 1 }))
  split_ifs
  · exact ⟨⟨.refl _, rfl⟩, rfl⟩
  · exact ⟨⟨.refl _, rfl⟩, rfl⟩

theorem still_send (message : Message) : Moves Still (send env message : M Sender Unit) := by
  unfold send
  apply Moves.bind (still_attempt env _)
  intro _
  exact still_modify (fun _ => rfl) (fun _ => rfl) fun _ => rfl

theorem still_receiveNonBlocking (selector : Selector) :
    Moves Still (receiveNonBlocking env selector : M Sender (Option Complete)) :=
  ⟨fun s => ⟨⟨.step s.net (.next selector (env.reads s.steps)), rfl⟩, rfl⟩⟩

theorem still_receiveBlocking (selector : Selector) :
    Moves Still (receiveBlocking env selector : M Sender Complete) := by
  unfold receiveBlocking
  apply Moves.bind (still_receiveNonBlocking env selector)
  rintro (_ | m)
  · exact .throw _
  · exact .pure _

theorem still_discardCorrelation (correlation : Uuid) :
    Moves Still (discardCorrelation correlation : M Sender Unit) :=
  .modify fun s => ⟨⟨.step s.net (.discard correlation), rfl⟩, rfl⟩

theorem still_lookup (correlation : Uuid) (service : String) (context : LookupContext) :
    Moves Still (lookup env correlation service context : M Sender Unit) := by
  unfold lookup
  apply Moves.bind (still_send env _)
  intro _
  exact still_modify (fun _ => rfl) (fun _ => rfl) fun _ => rfl

theorem still_lookupReply : Moves Still (lookupReply env : M Sender LookupReply) := by
  unfold lookupReply
  apply Moves.bind .get
  intro s
  cases s.lookup with
  | none => exact .throw _
  | some correlation =>
    apply Moves.bind (still_receiveBlocking env _)
    intro m
    apply Moves.ite
    · apply Moves.bind
      · exact still_modify (fun _ => rfl) (fun _ => rfl) fun _ => rfl
      · intro _
        exact .pure _
    · exact .pure _

theorem still_lookupDone : Moves Still (lookupDone : M Sender Unit) := by
  unfold lookupDone
  apply Moves.bind .get
  intro s
  cases s.lookup with
  | none => exact .pure _
  | some correlation =>
    apply Moves.bind (still_discardCorrelation correlation)
    intro _
    exact still_modify (fun _ => rfl) (fun _ => rfl) fun _ => rfl

theorem still_getDescriptor (descriptor : Nat) : Moves Still (getDescriptor descriptor : M Sender Descriptor) := by
  unfold getDescriptor
  apply Moves.bind .get
  intro s
  cases s.pending.get descriptor with
  | none => exact .throw _
  | some found => exact .pure _

theorem still_deadline (descriptor : Nat) : Moves Still (deadline descriptor : M Sender Unit) := by
  unfold deadline
  apply Moves.ite
  · apply Moves.bind (still_getDescriptor descriptor)
    intro _
    exact .pure _
  · exact .pure _

theorem still_validateInput (flags : Flags) : Moves Still (validateInput flags : M Sender LookupContext) := by
  unfold validateInput
  apply Moves.bind .get
  intro s
  apply Moves.ite
  · apply Moves.bind (.throw _)
    intro _
    exact .pure _
  · exact .pure _

theorem quietly_updateTransaction (reply : Reply) : Moves Quietly (updateTransaction reply : M Sender Unit) := by
  unfold updateTransaction
  apply Moves.bind .get
  intro s
  cases update reply.transaction reply.descriptor s.transactions with
  | none => exact .throw _
  | some transactions => exact .modify fun s => ⟨.refl _, rfl⟩

/-! ## Reserving and releasing -/

/-- A descriptor is released, or there was none. -/
def Released (p q : Pending) (descriptor : Nat) : Prop :=
  ∀ d, d ∈ q.actives ↔ d ∈ p.actives ∧ d.descriptor ≠ descriptor

omit [DecidableEq Sender] in
theorem unreserve_run (descriptor : Nat) (s : Context Sender) :
    unreserve descriptor s = match s.pending.unreserve descriptor with
      | none => .error .descriptor s
      | some pending => .ok () { s with pending } := by
  have hrun : unreserve descriptor s = (match s.pending.unreserve descriptor with
    | none => throw .descriptor
    | some pending => modify fun s => { s with pending } : M Sender Unit) s := rfl
  rw [hrun]
  cases s.pending.unreserve descriptor <;> rfl

omit [DecidableEq Sender] in
theorem after_unreserve (descriptor : Nat) (s : Context Sender) :
    (after (unreserve descriptor s)).net = s.net ∧
      Released s.pending (after (unreserve descriptor s)).pending descriptor := by
  rw [unreserve_run]
  cases hq : s.pending.unreserve descriptor with
  | none =>
    refine ⟨rfl, fun d => ⟨fun hd => ⟨hd, ?_⟩, And.left⟩⟩
    rintro rfl
    have hd : d ∈ s.pending.actives := hd
    have hfind := Pending.find_eq_some.2 ⟨(Pending.mem_actives.1 hd).1, rfl⟩
    unfold Pending.unreserve at hq
    rw [hfind] at hq
    cases hq
  | some q => exact ⟨rfl, fun d => Pending.actives_unreserve hq⟩

/-! ## A call -/

/-- The descriptors that are active are as before. -/
def Failed (s t : Context Sender) : Prop :=
  NetMoves s.net t.net ∧ ∀ d, d ∈ t.pending.actives ↔ d ∈ s.pending.actives

/-- A descriptor has been reserved, unless no reply is expected. -/
def Reserved (flags : Flags) (correlation : Uuid) (s : Context Sender) (descriptor : Nat) (t : Context Sender) : Prop :=
  NetMoves s.net t.net ∧
    if flag TPNOREPLY flags then descriptor = 0 ∧ t.pending = s.pending
    else (t.pending, descriptor) = s.pending.reserve correlation

variable {flags : Flags} {correlation : Uuid} {s t u : Context Sender}

theorem Quietly.failed (h : Quietly s t) : Failed s t := ⟨h.net, fun d => by rw [h.pending]⟩

theorem Failed.quietly (h : Failed s t) (hu : Quietly t u) : Failed s u :=
  ⟨h.1.trans hu.net, fun d => by rw [hu.pending]; exact h.2 d⟩

theorem Reserved.quietly {descriptor : Nat} (h : Reserved flags correlation s descriptor t) (hu : Quietly t u) :
    Reserved flags correlation s descriptor u := by
  refine ⟨h.1.trans hu.net, ?_⟩
  rw [hu.pending]
  exact h.2

/-- The guard gives back what was reserved. -/
theorem Reserved.unreserve {descriptor : Nat} (h : Reserved flags correlation s descriptor t) :
    Failed s (after (unreserve descriptor t)) := by
  obtain ⟨hnet, hreleased⟩ := after_unreserve descriptor t
  refine ⟨hnet ▸ h.1, fun d => ?_⟩
  rw [hreleased d]
  have hcase := h.2
  split_ifs at hcase
  · obtain ⟨rfl, hpending⟩ := hcase
    rw [hpending]
    exact ⟨And.left, fun hd => ⟨hd, (s.pending.positive d (Pending.mem_actives.1 hd).1).ne'⟩⟩
  · obtain ⟨hnot, hactives⟩ := s.pending.reserve_spec correlation
    rw [← hcase] at hnot hactives
    constructor
    · rintro ⟨hd, hne⟩
      rcases (hactives d).1 hd with hd | rfl
      · exact hd
      · exact absurd rfl hne
    · intro hd
      exact ⟨(hactives d).2 (.inl hd), hnot d hd⟩

/-- What leaves the descriptors alone, before one is reserved. -/
theorem quietly_triple {α : Type} {x : M Sender α} (hx : Moves Still x) (s : Context Sender) :
    Triple (Quietly s) x (fun _ => Quietly s) (fun _ => Failed s) :=
  ((quiet hx).triple fun _ h _ h' => Trans.trans h h').conseq (fun _ h => h) (fun _ _ h => h) fun _ _ h => h.failed

theorem prepareMessage_spec (input : Payload) (service : Service) (s : Context Sender) :
    Triple (Quietly s) (prepareMessage env correlation input flags service)
      (fun message => Reserved flags correlation s message.descriptor) (fun _ => Failed s) := by
  unfold prepareMessage
  apply Triple.bind (quietly_triple (still_attempt env _) s)
  intro _
  apply Triple.ite
  · intro hflag
    apply Triple.pure
    intro t ht
    exact ⟨ht.net, by rw [if_pos hflag]; exact ⟨rfl, ht.pending⟩⟩
  · intro hflag t ht
    refine ⟨ht.net, ?_⟩
    rw [if_neg hflag, ← ht.pending]
    rfl

theorem asyncFound_spec (input : Payload) (target : LookupReply) (s : Context Sender) :
    Triple (Quietly s) (asyncFound env correlation input flags target) (Reserved flags correlation s)
      (fun _ => Failed s) := by
  unfold asyncFound
  apply Triple.bind (prepareMessage_spec env input target.service s)
  intro message
  have hsend : ∀ message : Message, Moves Still (send env message : M Sender Unit) := still_send env
  have htarget : Moves Still (onError (do
      deadline message.descriptor
      if target.state = .busy then lookupReply env else return target)
      (send env (.ack target.process target.service.name)) : M Sender LookupReply) := by
    apply Moves.onError
    · apply Moves.bind (still_deadline message.descriptor)
      intro _
      exact .ite (still_lookupReply env) (.pure _)
    · exact hsend _
  apply Triple.bind (Q := fun _ => Reserved flags correlation s message.descriptor)
  · apply Triple.onError (E := fun _ => Reserved flags correlation s message.descriptor)
    · apply Triple.bind (Q := fun _ => Reserved flags correlation s message.descriptor)
      · exact htarget.triple fun _ h _ h' => h.quietly h'.toQuietly
      · intro target
        exact (Moves.onError (hsend _) (hsend _)).triple fun _ h _ h' => h.quietly h'.toQuietly
    · intro _ t h
      exact h.unreserve
  · intro _
    exact Triple.pure fun _ h => h

/-- A call that succeeds has reserved a descriptor, unless no reply is expected; one that fails has none. -/
theorem async_spec (lookupCorrelation correlation : Uuid) (service : String) (input : Payload) (flags : Flags)
    (s : Context Sender) :
    Triple (Quietly s) (async env lookupCorrelation correlation service input flags)
      (Reserved flags correlation s) (fun _ => Failed s) := by
  unfold async
  apply Triple.bind (quietly_triple (still_validateInput flags) s)
  intro context
  apply Triple.bind (quietly_triple (still_lookup env lookupCorrelation service context) s)
  intro _
  apply Triple.onExit (Q := Reserved flags correlation s) (E := fun _ => Failed s)
  · apply Triple.bind (quietly_triple (still_attempt env _) s)
    intro _
    apply Triple.bind (quietly_triple (still_lookupReply env) s)
    intro target
    apply Triple.ite
    · intro _
      exact Triple.throw fun _ h => h.failed
    · intro _
      exact asyncFound_spec env input target s
  · intro descriptor t ht
    exact ht.quietly (still_lookupDone.after t).toQuietly
  · intro _ t ht
    exact ht.quietly (still_lookupDone.after t).toQuietly

/-! ## A reply -/

/-- What is asked for: any reply, or that of an active descriptor. -/
def Asked (p : Pending) (descriptor : Nat) (selector : Selector) : Prop :=
  descriptor = 0 ∧ selector = .type replyType ∨
    ∃ d ∈ p.actives, d.descriptor = descriptor ∧ selector = .correlation d.correlation

/-- A message has been taken from the net. -/
def Taken (s : Context Sender) (descriptor : Nat) (m : Complete) (t : Context Sender) : Prop :=
  ∃ selector reads, Asked s.pending descriptor selector ∧ (s.net.device.next selector reads).1 = some m ∧
    t.net = s.net.step (.next selector reads) ∧ t.pending = s.pending

theorem receiveFlags_spec {selector : Selector} {descriptor : Nat} (hasked : Asked s.pending descriptor selector) :
    Triple (fun t => t = s) (receiveFlags env flags selector)
      (fun r t => match r with | none => Quietly s t | some m => Taken s descriptor m t) (fun _ => Quietly s) := by
  have hnon : Triple (fun t => t = s) (receiveNonBlocking env selector)
      (fun r t => match r with | none => Quietly s t | some m => Taken s descriptor m t) (fun _ => Quietly s) := by
    intro t ht
    rw [ht]
    show match (s.net.device.next selector (env.reads s.steps)).1 with | none => _ | some m => _
    cases hr : (s.net.device.next selector (env.reads s.steps)).1 with
    | none => exact ⟨.step s.net (.next selector (env.reads s.steps)), rfl⟩
    | some m => exact ⟨selector, env.reads s.steps, hasked, hr, rfl, rfl⟩
  unfold receiveFlags
  apply Triple.ite
  · intro _
    exact hnon
  · intro _
    unfold receiveBlocking
    apply Triple.bind (Q := fun m => Taken s descriptor m)
    · apply Triple.bind hnon
      rintro (_ | m)
      · exact Triple.throw fun _ h => h
      · exact Triple.pure fun _ h => h
    · intro m
      exact Triple.pure fun _ h => h

omit [DecidableEq Sender] in
theorem getDescriptor_run (descriptor : Nat) (s : Context Sender) :
    getDescriptor descriptor s = match s.pending.get descriptor with
      | none => .error .descriptor s
      | some found => .ok found s := by
  have hrun : getDescriptor descriptor s = (match s.pending.get descriptor with
    | none => throw .descriptor
    | some found => pure found : M Sender Descriptor) s := rfl
  rw [hrun]
  cases s.pending.get descriptor <;> rfl

omit [DecidableEq Sender] in
theorem getDescriptor_spec (descriptor : Nat) (s : Context Sender) :
    Triple (fun t => t = s) (getDescriptor descriptor)
      (fun found t => t = s ∧ found ∈ s.pending.actives ∧ found.descriptor = descriptor) (fun _ t => t = s) := by
  intro t ht
  rw [ht, getDescriptor_run]
  cases hget : s.pending.get descriptor with
  | none => rfl
  | some d => exact ⟨rfl, Pending.get_eq_some.1 hget⟩

theorem receive_spec (descriptor : Nat) (s : Context Sender) :
    Triple (fun t => t = s) (receive env descriptor flags)
      (fun r t => match r with | none => Quietly s t | some m => Taken s descriptor m t) (fun _ => Quietly s) := by
  unfold receive
  apply Triple.ite
  · intro hzero
    exact receiveFlags_spec env (.inl ⟨hzero, rfl⟩)
  · intro _
    have hquiet : Quietly s s := Std.Refl.refl s
    apply Triple.bind ((getDescriptor_spec descriptor s).conseq (fun _ h => h) (fun _ _ h => h) fun _ _ h => h ▸ hquiet)
    intro found
    apply Triple.of_forall
    rintro _ ⟨rfl, hfound, hdescriptor⟩
    exact receiveFlags_spec env (.inr ⟨found, hfound, hdescriptor, rfl⟩)

/-- What is left of the message that was taken: it is released whatever happens then. -/
def Consumed (env : Surroundings) (s : Context Sender) (descriptor : Nat) (m : Complete) (t : Context Sender) : Prop :=
  ∃ u, Taken s descriptor m u ∧ NetMoves u.net t.net ∧ Released u.pending t.pending (env.unmarshal m).descriptor

omit [DecidableEq Sender] in
theorem deadline_spec (descriptor : Nat) (s : Context Sender) :
    Triple (fun t => t = s) (deadline descriptor) (fun _ t => t = s) (fun _ t => t = s) := by
  unfold deadline
  apply Triple.ite
  · intro _
    apply Triple.bind (getDescriptor_spec descriptor s)
    intro _
    exact Triple.pure fun _ h => h.1
  · intro _
    exact Triple.pure fun _ h => h

theorem still_checkOutput (r : Reply) (output : Option Payload) (flags : Flags) :
    Moves Still (checkOutput env r output flags : M Sender Unit) := by
  unfold checkOutput
  cases output with
  | none => exact .pure _
  | some output =>
    apply Moves.bind (still_attempt env _)
    intro _
    exact .ite (.throw _) (.pure _)

/-- A reply is that of a message that was taken, and its descriptor is released. -/
theorem reply_spec (descriptor : Nat) (output : Option Payload) (flags : Flags) (s : Context Sender) :
    Triple (fun t => t = s) (reply env descriptor output flags)
      (fun r t => ∃ m, r = env.unmarshal m ∧
        Consumed env s (if flag TPGETANY flags then 0 else descriptor) m t)
      (fun _ t => Quietly s t ∨ ∃ m, Consumed env s (if flag TPGETANY flags then 0 else descriptor) m t) := by
  unfold reply
  generalize (if flag TPGETANY flags then 0 else descriptor) = descriptor
  have hquiet : Quietly s s := Std.Refl.refl s
  apply Triple.bind ((deadline_spec descriptor s).conseq (fun _ h => h) (fun _ _ h => h) fun _ t h => .inl (h ▸ hquiet))
  intro _
  apply Triple.bind ((receive_spec env descriptor s).conseq (fun _ h => h) (fun _ _ h => h) fun _ _ h => .inl h)
  rintro (_ | m)
  · exact Triple.throw fun _ h => .inl h
  · -- from here on the guard releases the descriptor of the message
    let Held : Context Sender → Prop := fun t => ∃ u, Taken s descriptor m u ∧ Quietly u t
    have hheld : ∀ {α : Type} {x : M Sender α}, Moves Quietly x → Triple Held x (fun _ => Held) (fun _ => Held) :=
      fun hx => hx.triple fun _ ⟨u, hu, ht⟩ _ h => ⟨u, hu, Trans.trans ht h⟩
    have hrelease : ∀ t, Held t → Consumed env s descriptor m (after (unreserve (env.unmarshal m).descriptor t)) := by
      rintro t ⟨u, hu, ht⟩
      obtain ⟨hnet, hreleased⟩ := after_unreserve (env.unmarshal m).descriptor t
      rw [ht.pending] at hreleased
      exact ⟨u, hu, hnet ▸ ht.net, hreleased⟩
    apply Triple.bind (Q := fun _ => Held)
    · apply Triple.modify
      intro t ht
      exact ⟨t, ht, ⟨.refl _, rfl⟩⟩
    · intro _
      apply Triple.onExit (Q := fun r t => r = env.unmarshal m ∧ Held t) (E := fun _ => Held)
      · apply Triple.bind (hheld (quietly_updateTransaction _))
        intro _
        apply Triple.bind (hheld (quiet (still_checkOutput env _ _ _)))
        intro _
        apply Triple.bind (hheld (quiet (still_attempt env _)))
        intro _
        exact Triple.pure fun _ h => ⟨rfl, h⟩
      · rintro r t ⟨rfl, ht⟩
        exact ⟨m, rfl, hrelease t ht⟩
      · intro _ t ht
        exact .inr ⟨m, hrelease t ht⟩

/-! ## Cancelling -/

/-- A call that is cancelled is discarded, and its descriptor released. -/
theorem cancel_spec (descriptor : Nat) (s : Context Sender) :
    Triple (fun t => t = s) (cancel descriptor)
      (fun _ t => ∃ d ∈ s.pending.actives, d.descriptor = descriptor ∧ t.net = s.net.step (.discard d.correlation) ∧
        Released s.pending t.pending descriptor)
      (fun _ t => t = s) := by
  have hrest : Triple (fun t => t = s) (do
      let found ← getDescriptor descriptor
      discardCorrelation found.correlation
      unreserve descriptor : M Sender Unit)
      (fun _ t => ∃ d ∈ s.pending.actives, d.descriptor = descriptor ∧ t.net = s.net.step (.discard d.correlation) ∧
        Released s.pending t.pending descriptor)
      (fun _ t => t = s) := by
    apply Triple.bind (getDescriptor_spec descriptor s)
    intro found
    apply Triple.of_forall
    rintro t ⟨rfl, hfound, hdescriptor⟩
    have hfind := Pending.find_eq_some.2 ⟨(Pending.mem_actives.1 hfound).1, hdescriptor⟩
    have hq : t.pending.unreserve descriptor = some (t.pending.assign found.descriptor false id) := by
      unfold Pending.unreserve
      rw [hfind]
      rfl
    intro u hu
    have hdiscard : discardCorrelation found.correlation t =
        .ok () { t with net := t.net.step (.discard found.correlation) } := rfl
    rw [hu, bind_ok hdiscard, unreserve_run]
    simp only [hq]
    exact ⟨found, hfound, hdescriptor, rfl, fun d => Pending.actives_unreserve hq⟩
  unfold cancel
  apply Triple.bind (Triple.get (R := fun u t => u = s ∧ t = s) fun t ht => ⟨ht, ht⟩)
  intro u
  apply Triple.of_forall
  rintro _ ⟨rfl, rfl⟩
  apply Triple.ite
  · intro _
    exact Triple.throw fun _ h => h
  · intro _
    exact hrest

end Casual.Call
